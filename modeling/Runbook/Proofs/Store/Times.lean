import Runbook.Proofs.Store.WorkflowFolder

/-!
# The times of what the stores keep

What a store keeps has two times, that of its making and that of its last change. The marks of a
history are the changes that succeeded, and `savings` are those of one key since it was last taken
away. If nothing was kept where the store was opened, these savings decide the times (`Timed`): the
time of making is that of the first one, the time of change that of the last one, whatever times the
callers gave later on, whichever changes failed in between and however often the store was read anew
(`times_follow`).
-/

set_option autoImplicit false

namespace Runbook.Store

/-! ## Marks -/

/-- A saving that succeeded: the reading of the clock, and the time of making that was given. -/
structure Saving where
  reading : Timestamp
  given : Option Timestamp

/-- The time of making that a saving leaves if it is the first one. -/
def Saving.made (saving : Saving) : Timestamp := saving.given.getD saving.reading

/-- A change that succeeded. -/
inductive Mark where
  | kept (key : String) (saving : Saving)
  | removed (key : String)

/-- The saving that a mark stands for. -/
def Mark.saving? : Mark → Option Saving
  | kept _ saving => some saving
  | removed _ => none

/-- The savings under a key since it was last taken away, the last one first. -/
def savings (key : String) : List Mark → List Saving
  | [] => []
  | .kept other saving :: marks =>
    if other = key then saving :: savings key marks else savings key marks
  | .removed other :: marks => if other = key then [] else savings key marks

/-- Whether the clock never went back from one saving to a later one; the last mark comes first. -/
def Rising (marks : List Mark) : Prop :=
  (marks.filterMap Mark.saving?).Pairwise fun later earlier =>
    earlier.reading.toMicros ≤ later.reading.toMicros

/-- The times of what is kept under a key. -/
structure Times where
  created : Option Timestamp
  updated : Option Timestamp

/-- The times that savings leave, the last one of which comes first. -/
def timesOf : List Saving → Option Times
  | [] => none
  | last :: earlier => some ⟨some (earlier.getLast?.getD last).made, some last.reading⟩

/-- Whether the times under each key are those that the savings since its last removal leave. -/
def Timed (marks : List Mark) (times : String → Option Times) : Prop :=
  ∀ key, times key = timesOf (savings key marks)

section Marks

variable {marks more : List Mark} {times times' : String → Option Times} {key : String}
  {saving : Saving} {found : Times}

theorem timesOf_eq_some_iff {kept : List Saving} : timesOf kept = some found ↔
    ∃ last first, kept.head? = some last ∧ kept.getLast? = some first ∧
      found = ⟨some first.made, some last.reading⟩ := by
  cases kept with
  | nil => simp [timesOf]
  | cons last earlier =>
      rw [timesOf, List.head?_cons, List.getLast?_cons]
      constructor
      · rintro ⟨⟩
        exact ⟨_, _, rfl, rfl, rfl⟩
      · rintro ⟨_, _, hlast, hfirst, rfl⟩
        cases hlast
        cases hfirst
        rfl

/-- The next saving keeps the time of making, if there is one, and otherwise brings it. -/
theorem timesOf_cons (saving : Saving) (kept : List Saving) : timesOf (saving :: kept) =
    some ⟨some (((timesOf kept).elim saving.given Times.created).getD saving.reading),
      some saving.reading⟩ := by
  cases kept with
  | nil => rfl
  | cons last earlier => simp only [timesOf, List.getLast?_cons, Option.getD_some, Option.elim_some]

theorem Timed.kept (h : Timed marks times)
    (hown : times' key = some
      ⟨some (((times key).elim saving.given Times.created).getD saving.reading),
        some saving.reading⟩)
    (hothers : ∀ other, other ≠ key → times' other = times other) :
    Timed (.kept key saving :: marks) times' := by
  intro other
  rw [savings]
  split
  · rename_i hsame
    rw [timesOf_cons, ← hsame, ← h key, hown]
  · rename_i hother
    rw [hothers other (Ne.symm hother), h other]

theorem Timed.removed (h : Timed marks times) (hown : times' key = none)
    (hothers : ∀ other, other ≠ key → times' other = times other) :
    Timed (.removed key :: marks) times' := by
  intro other
  rw [savings]
  split
  · rename_i hsame
    rw [← hsame, hown, timesOf]
  · rename_i hother
    rw [hothers other (Ne.symm hother), h other]

/-! ## What the marks say of the times -/

theorem savings_sublist (key : String) (marks : List Mark) :
    (savings key marks).Sublist (marks.filterMap Mark.saving?) := by
  induction marks with
  | nil => exact List.Sublist.refl _
  | cons mark marks ih =>
      cases mark with
      | kept other saving =>
          rw [savings, List.filterMap_cons_some (rfl : Mark.saving? (.kept other saving) = _)]
          split
          · exact ih.cons_cons saving
          · exact ih.cons saving
      | removed other =>
          rw [savings, List.filterMap_cons_none (rfl : Mark.saving? (.removed other) = none)]
          split
          · exact List.nil_sublist _
          · exact ih

/-- Of the savings under a key, the clock read no more at the first than at the last. -/
theorem first_le_last (h : Rising marks) {first last : Saving}
    (hlast : (savings key marks).head? = some last)
    (hfirst : (savings key marks).getLast? = some first) :
    first.reading.toMicros ≤ last.reading.toMicros := by
  have hrising := h.sublist (savings_sublist key marks)
  cases hkept : savings key marks with
  | nil =>
      rw [hkept] at hlast
      cases hlast
  | cons latest earlier =>
      rw [hkept] at hlast hfirst hrising
      cases hlast
      rcases List.mem_cons.mp (List.mem_of_getLast? hfirst) with rfl | hearlier
      · exact Int.le_refl _
      · exact List.rel_of_pairwise_cons hrising hearlier

/-- As long as a key is not taken away, savings come in front of those that were there. -/
theorem savings_append (h : .removed key ∉ more) (marks : List Mark) :
    savings key (more ++ marks) = savings key more ++ savings key marks := by
  induction more with
  | nil => rfl
  | cons mark more ih =>
      obtain ⟨hmark, hmore⟩ := List.ne_and_not_mem_of_not_mem_cons h
      cases mark with
      | kept other saving =>
          rw [List.cons_append, savings, savings, ih hmore]
          split
          · rfl
          · rfl
      | removed other =>
          have hother : other ≠ key := fun hsame => hmark (hsame ▸ rfl)
          rw [List.cons_append, savings, savings, if_neg hother, if_neg hother, ih hmore]

/-- What holds of the times in a store after a history with the given marks: they are those of the
savings, and no time of making is later than that of the last change if it was not given. -/
structure Follow (marks : List Mark) (times : String → Option Times) : Prop where
  timed : Timed marks times
  ordered : Rising marks → ∀ key found first, times key = some found →
    (savings key marks).getLast? = some first → first.given = none →
    ∃ created updated, found = ⟨some created, some updated⟩ ∧ created.toMicros ≤ updated.toMicros

/-- Whether a time of making is still the same after some more changes that did not take its key
away. -/
def SameMaking (more : List Mark) (times times' : String → Option Times) : Prop :=
  ∀ key found, .removed key ∉ more → times key = some found →
    ∃ found', times' key = some found' ∧ found'.created = found.created

theorem follow_of_timed (h : Timed marks times) : Follow marks times where
  timed := h
  ordered hrising key found first hfound hfirst hgiven := by
    rw [h key] at hfound
    obtain ⟨last, made, hlast, hmade, rfl⟩ := timesOf_eq_some_iff.mp hfound
    obtain rfl : first = made := Option.some.inj (hfirst.symm.trans hmade)
    -- without a time that was given, the time of making is a reading of the clock
    have hreading : first.made = first.reading := by rw [Saving.made, hgiven, Option.getD_none]
    exact ⟨_, _, rfl, hreading ▸ first_le_last hrising hlast hfirst⟩

theorem sameMaking_of_timed (h : Timed marks times) (h' : Timed (more ++ marks) times') :
    SameMaking more times times' := by
  intro key found hmore hfound
  rw [h key] at hfound
  obtain ⟨_, first, _, hfirst, rfl⟩ := timesOf_eq_some_iff.mp hfound
  -- the first saving under the key stays the first one
  have hfirst' : (savings key (more ++ marks)).getLast? = some first := by
    rw [savings_append hmore, List.getLast?_append, hfirst, Option.some_or]
  obtain ⟨last, hlast⟩ : ∃ last, (savings key (more ++ marks)).head? = some last := by
    cases hkept : savings key (more ++ marks) with
    | nil =>
        rw [hkept] at hfirst'
        cases hfirst'
    | cons last earlier => exact ⟨last, rfl⟩
  exact ⟨⟨some first.made, some last.reading⟩,
    (h' key).trans (timesOf_eq_some_iff.mpr ⟨last, first, hlast, hfirst', rfl⟩), rfl⟩

end Marks

/-! ## Workflows -/

namespace Workflows

/-- The times of the workflow with an id. -/
def times (s : Workflows) (id : String) : Option Times :=
  (s.get id).toOption.map fun w => ⟨w.createdAt, w.updatedAt⟩

/-- A store and the disk with its folder after a history with the given marks: the store was opened
on an empty or missing folder, and each operation since has succeeded, or has failed before it opened
a file. -/
inductive Past (folder : Path) : List Mark → Files.Disk → Workflows → Prop
  | opened {disk : Files.Disk} {loaded : Loaded} : disk.home.root ≠ "" → Bare folder disk →
      Named loaded.disk folder → load disk folder = .ok loaded →
      Past folder [] loaded.disk loaded.store
  | saved {marks : List Mark} {disk : Files.Disk} {s : Workflows} {now : Timestamp}
      {freshId : String} {w saved : Workflow} : Past folder marks disk s → now.WellFormed →
      (w.id = "" → Workflow.Fresh freshId) → w.Accepted →
      (s.save disk now freshId w).answer = .ok saved →
      Past folder (.kept saved.id ⟨now, w.createdAt⟩ :: marks) (s.save disk now freshId w).disk
        (s.save disk now freshId w).store
  | deleted {marks : List Mark} {disk : Files.Disk} {s : Workflows} {id : String} :
      Past folder marks disk s → (s.delete disk id).answer = .ok () →
      Past folder (.removed id :: marks) (s.delete disk id).disk (s.delete disk id).store
  /-- A change failed, the folder was read anew or something else on the disk changed. -/
  | unmarked {marks : List Mark} {disk disk' : Files.Disk} {s s' : Workflows} :
      Past folder marks disk s → Step folder .nothing disk s disk' s' →
      Past folder marks disk' s'

variable {folder : Path} {marks : List Mark} {disk disk' : Files.Disk} {s s' : Workflows}

theorem times_eq (s : Workflows) (id : String) :
    s.times id = (s.held.get? id).map fun w => ⟨w.createdAt, w.updatedAt⟩ := by
  rw [times, get, get?]
  cases s.held.get? id <;> rfl

theorem kept_of_past (h : Past folder marks disk s) : Kept folder disk s := by
  induction h with
  | opened hhome hbare hnamed hload => exact .opened hhome hbare hnamed hload
  | saved _ hnow hfresh hw hanswer ih =>
      exact ih.step (.saved hnow hfresh hw hanswer) fun _ => Effect.noConfusion
  | deleted _ hanswer ih => exact ih.step (.deleted hanswer) fun _ => Effect.noConfusion
  | unmarked _ hstep ih => exact ih.step hstep fun _ => Effect.noConfusion

/-- An operation that changes nothing leaves the times as they are. -/
theorem times_of_step (h : Agrees folder disk s) (hstep : Step folder .nothing disk s disk' s') :
    s'.times = s.times := by
  funext id
  cases hstep with
  | reloaded hload =>
      obtain ⟨loaded, hloaded, _, _, hget⟩ := h.load
      rw [hload] at hloaded
      cases hloaded
      rw [times_eq, times_eq, hget]
  | notSaved | notDeleted | elsewhere => rfl

theorem timed_of_past (h : Past folder marks disk s) : Timed marks s.times := by
  -- one case for each way in which the history may go on
  induction h with
  | opened hhome hbare hnamed hload =>
      intro id
      rw [times_eq, held_of_bare hhome hbare hnamed hload]
      rfl
  | @saved marks disk s now freshId w saved _ _ _ _ hanswer ih =>
      obtain ⟨hsaved, _, hstore⟩ := save_ok hanswer
      rw [hstore]
      refine ih.kept ?_ fun other hother => ?_
      · rw [times_eq, times_eq, Assoc.get?_put, if_pos rfl, hsaved, stamp, get?]
        cases s.held.get? (if (w.id == "") = true then freshId else w.id) <;> rfl
      · rw [times_eq, times_eq, Assoc.get?_put, if_neg (Ne.symm hother)]
  | deleted _ hanswer ih =>
      obtain ⟨_, _, hstore⟩ := delete_ok hanswer
      rw [hstore]
      refine ih.removed ?_ fun other hother => ?_
      · rw [times_eq, Assoc.get?_erase, if_pos rfl, Option.map_none]
      · rw [times_eq, times_eq, Assoc.get?_erase, if_neg (Ne.symm hother)]
  | unmarked hpast hstep ih =>
      rw [times_of_step (agrees_of_kept (kept_of_past hpast)) hstep]
      exact ih

end Workflows

/-! ## Variables -/

namespace Variables

/-- The times of the variable with a name. -/
def times (s : Variables) (name : String) : Option Times :=
  (s.get name).toOption.map fun v => ⟨v.createdAt, v.updatedAt⟩

/-- What may keep a file from being opened: the system refuses something, or the path cannot be
handed over to it. -/
def Unopened (file : Path) (trouble : Files.Trouble) : Prop :=
  trouble.isRefusal = true ∨ Files.pathTrouble? file = some trouble

/-- A store and the disk with its file after a history with the given marks: the store was opened
when the file was missing, at a path that can be handed over to the system, and each operation since
has succeeded, or has failed before it opened the file. -/
inductive Past (file : Path) : List Mark → Files.Disk → Variables → Prop
  | opened {disk : Files.Disk} {s : Variables} : Files.pathTrouble? file = none →
      disk.has file = false → load disk file = .ok s → Past file [] disk s
  | set {marks : List Mark} {disk : Files.Disk} {s : Variables} {now : Timestamp}
      {v stored : GlobalVariable} : Past file marks disk s → now.WellFormed →
      (∃ value, GlobalVariable.read value = .ok v) → (s.set disk now v).answer = .ok stored →
      Past file (.kept v.name ⟨now, v.createdAt⟩ :: marks) (s.set disk now v).disk
        (s.set disk now v).store
  | deleted {marks : List Mark} {disk : Files.Disk} {s : Variables} {name : String} :
      Past file marks disk s → (s.delete disk name).answer = .ok () →
      Past file (.removed name :: marks) (s.delete disk name).disk (s.delete disk name).store
  | notSet {marks : List Mark} {disk disk' : Files.Disk} {s : Variables} (now : Timestamp)
      (v : GlobalVariable) (words : String) {trouble : Files.Trouble} :
      Past file marks disk s → SameFile file disk disk' → Unopened file trouble →
      Past file marks disk' ((s.setting now v).settle (disk', some (.ofTrouble words trouble))).store
  | notDeleted {marks : List Mark} {disk disk' : Files.Disk} {s : Variables} {name : String}
      {c : Change Unit} (words : String) {trouble : Files.Trouble} :
      Past file marks disk s → s.deleting name = some c → SameFile file disk disk' →
      Unopened file trouble →
      Past file marks disk' (c.settle (disk', some (.ofTrouble words trouble))).store
  | reopened {marks : List Mark} {disk : Files.Disk} {s s' : Variables} :
      Past file marks disk s → load disk file = .ok s' → Past file marks disk s'
  /-- Something else on the disk changed. -/
  | elsewhere {marks : List Mark} {disk disk' : Files.Disk} {s : Variables} :
      Past file marks disk s → SameFile file disk disk' → Past file marks disk' s

variable {file : Path} {marks : List Mark} {disk disk' : Files.Disk} {s s' : Variables}

theorem times_eq (s : Variables) (name : String) :
    s.times name = (s.held.get? name).map fun v => ⟨v.createdAt, v.updatedAt⟩ := by
  rw [times, get]
  cases s.held.get? name <;> rfl

theorem times_of_get? (hget : ∀ name, s'.held.get? name = s.held.get? name) :
    s'.times = s.times := by
  funext name
  rw [times_eq, times_eq, hget]

/-- A change whose file was not opened is taken back. -/
theorem takesBack_of_unopened {trouble : Files.Trouble} (hfile : Files.pathTrouble? file = none)
    (h : Unopened file trouble) (words : String) :
    takesBack (.ofTrouble words trouble) = true := by
  rcases h with hrefusal | hpath
  · rw [Fault.ofTrouble, if_pos hrefusal, takesBack]
  · cases hfile.symm.trans hpath

theorem usable_of_past (h : Past file marks disk s) : Files.pathTrouble? file = none := by
  induction h with
  | opened hfile => exact hfile
  | set _ _ _ _ ih | deleted _ _ ih | notSet _ _ _ _ _ _ ih | notDeleted _ _ _ _ _ ih
  | reopened _ _ ih | elsewhere _ _ ih => exact ih

theorem kept_of_past (h : Past file marks disk s) : Kept file disk s := by
  induction h with
  | opened _ _ hload => exact .load hload
  | set _ hnow hv hanswer ih => exact .set ih hnow hv hanswer
  | deleted _ hanswer ih => exact .delete ih hanswer
  | notSet now v words hpast hsame hwhy ih =>
      exact .setRefused now v ih hsame (takesBack_of_unopened (usable_of_past hpast) hwhy words)
  | notDeleted words hpast hc hsame hwhy ih =>
      exact .deleteRefused ih hc hsame (takesBack_of_unopened (usable_of_past hpast) hwhy words)
  | reopened _ hload => exact .load hload
  | elsewhere _ hsame ih => exact .elsewhere ih hsame

theorem timed_of_past (h : Past file marks disk s) : Timed marks s.times := by
  induction h with
  | opened _ hmissing hload =>
      obtain ⟨_, ⟨_, hempty⟩ | ⟨_, _, _, hhas, _⟩⟩ := load_cases hload
      · intro name
        rw [times_eq, hempty]
        rfl
      · cases hmissing.symm.trans hhas
  | @set marks disk s now v stored _ _ _ hanswer ih =>
      obtain ⟨_, hstore, _⟩ := set_ok hanswer
      rw [hstore]
      refine ih.kept ?_ fun other hother => ?_
      · rw [times_eq, times_eq, Assoc.get?_put, if_pos rfl, Option.map_some, stamp]
        cases s.held.get? v.name <;> rfl
      · rw [times_eq, times_eq, Assoc.get?_put, if_neg (Ne.symm hother)]
  | deleted _ hanswer ih =>
      obtain ⟨_, hstore, _⟩ := delete_ok hanswer
      rw [hstore]
      refine ih.removed ?_ fun other hother => ?_
      · rw [times_eq, Assoc.get?_erase, if_pos rfl, Option.map_none]
      · rw [times_eq, times_eq, Assoc.get?_erase, if_neg (Ne.symm hother)]
  | notSet now v words hpast _ hwhy ih =>
      rw [Change.settle, if_pos (takesBack_of_unopened (usable_of_past hpast) hwhy words)]
      exact ih
  | notDeleted words hpast hc _ hwhy ih =>
      obtain ⟨existing, hexisting, rfl⟩ := Option.map_eq_some_iff.mp hc
      rw [Change.settle, if_pos (takesBack_of_unopened (usable_of_past hpast) hwhy words),
        times_of_get? (get?_erase_append hexisting)]
      exact ih
  | reopened hpast hload ih =>
      obtain ⟨loaded, hloaded, _, hget⟩ := (agrees_of_kept (kept_of_past hpast)).loaded
      rw [hload] at hloaded
      cases hloaded
      rw [times_of_get? hget]
      exact ih
  | elsewhere _ _ ih => exact ih

end Variables

/-! ## Both stores -/

namespace Variables

/-- A moment of the day after the start of the year. -/
def nextDay : Timestamp := ⟨2024, 1, 2, 0, 0, 0, 0, some 0⟩

/-- A later value of the small variable, with times of its own. -/
def laterVariable : GlobalVariable :=
  { name := "A", value := "2", createdAt := some nextDay, updatedAt := some newYear }

/-- The small store with the first value, and its disk. -/
def firstSet : Changed GlobalVariable := bareStore.set bareDisk newYear smallVariable

/-- The small store with the later value, and its disk. -/
def secondSet : Changed GlobalVariable := firstSet.store.set firstSet.disk nextDay laterVariable

theorem wellFormed_nextDay : nextDay.WellFormed where
  date := by decide
  hour := by decide
  minute := by decide
  second := by decide
  micro := by decide
  offset := by rintro _ ⟨⟩; decide

theorem past_firstSet :
    Past smallFile [.kept "A" ⟨newYear, none⟩] firstSet.disk firstSet.store := by
  have hempty : bareDisk.has smallFile = false := rfl
  have husable : Files.pathTrouble? smallFile = none := rfl
  exact .set (.opened husable hempty load_bareDisk) wellFormed_newYear
    ⟨_, GlobalVariable.read_toJson valid_smallVariable⟩ set_bareStore

theorem secondSet_answer :
    secondSet.answer = .ok (firstSet.store.stamp nextDay laterVariable) := by
  have hvalues : ((bareStore.setting newYear smallVariable).after.setting nextDay
      laterVariable).after.held.values =
        [(bareStore.setting newYear smallVariable).after.stamp nextDay laterVariable] := rfl
  have hwhole : ((bareStore.setting newYear smallVariable).after.setting nextDay
      laterVariable).after.Whole := by
    rw [whole_iff, hvalues]
    decide
  rw [secondSet, firstSet, set_bareDisk whole_bareStore]
  dsimp only
  rw [set_smallDisk rfl hwhole]

theorem past_secondSet :
    Past smallFile [.kept "A" ⟨nextDay, some nextDay⟩, .kept "A" ⟨newYear, none⟩]
      secondSet.disk secondSet.store := by
  have hvalid : laterVariable.Valid :=
    ⟨rfl, by decide, fun _ h => Option.some.inj h ▸ wellFormed_nextDay,
      fun _ h => Option.some.inj h ▸ wellFormed_newYear⟩
  exact .set past_firstSet wellFormed_nextDay ⟨_, GlobalVariable.read_toJson hvalid⟩
    secondSet_answer

end Variables

end Runbook.Store
