import Runbook.Proofs.Store.WorkflowChanges

/-!
# Operations on a workflow store and its folder

`Step` says what one operation may do to a store and the disk with its folder, if nobody else writes
the folder: it succeeds, it fails without having opened a file, or it fails after the file it was to
write was opened, which may leave that file damaged. Each saving and each deletion is such a step
(`step_of_save`, `step_of_delete`). After a step the folder is still there, and the file of one id at
most was touched (`stands_step`).
-/

set_option autoImplicit false

namespace Runbook.Store.Workflows

/-- What an operation does to the files of a folder. -/
inductive Effect where
  /-- It leaves them as they are. -/
  | nothing
  /-- It writes the file of an id or takes it away. -/
  | change (id : String)
  /-- It damages the file of an id. -/
  | damage (id : String)

/-- Whether an operation may have done something to the file of an id. -/
def Effect.Touches : Effect → String → Prop
  | nothing, _ => False
  | change touched, id => entryOf touched = entryOf id
  | damage touched, id => entryOf touched = entryOf id

theorem Effect.touches_congr {effect : Effect} {id id' : String} (h : effect.Touches id)
    (hsame : entryOf id = entryOf id') : effect.Touches id' := by
  cases effect with
  | nothing => exact h
  | change touched => exact Eq.trans h hsame
  | damage touched => exact Eq.trans h hsame

/-- Whether a folder is the same on two disks. -/
structure SameFolder (folder : Path) (disk disk' : Files.Disk) : Prop where
  home : disk'.home = disk.home
  listing : disk'.listing folder = disk.listing folder

/-- Whether a folder is the same on two disks but for the file of an id. Whatever that file now
holds, it is not read as a workflow with another id. -/
structure Damaged (folder : Path) (id : String) (entries entries' : Assoc Files.Node)
    (disk disk' : Files.Disk) : Prop where
  home : disk'.home = disk.home
  before : disk.listing folder = .ok entries
  after : disk'.listing folder = .ok entries'
  others : ∀ name, name ≠ entryOf id → entries'.get? name = entries.get? name
  own : ∀ w, workflowIn folder entries' (entryOf id) = some w → w.id = id

/-- What one operation does to a disk and a store, if nobody else writes the folder of the store. -/
inductive Step (folder : Path) : Effect → Files.Disk → Workflows → Files.Disk → Workflows → Prop
  | saved {disk : Files.Disk} {s : Workflows} {now : Timestamp} {freshId : String}
      {w saved : Workflow} :
      now.WellFormed → (w.id = "" → Workflow.Fresh freshId) → w.Accepted →
      (s.save disk now freshId w).answer = .ok saved →
      Step folder (.change saved.id) disk s (s.save disk now freshId w).disk
        (s.save disk now freshId w).store
  /-- The file could not be opened. -/
  | notSaved {disk disk' : Files.Disk} {s : Workflows} (now : Timestamp) (freshId : String)
      (w : Workflow) {trouble : Files.Trouble} : SameFolder folder disk disk' →
      Step folder .nothing disk s disk'
        (s.settleSave (s.stamp now freshId w) (disk', some trouble)).store
  /-- The file was opened but could not be written. -/
  | broken {disk disk' : Files.Disk} {s : Workflows} {now : Timestamp} {freshId : String}
      {w : Workflow} {entries entries' : Assoc Files.Node} {trouble : Files.Trouble} :
      now.WellFormed → (w.id = "" → Workflow.Fresh freshId) → w.Accepted →
      Damaged folder (s.stamp now freshId w).id entries entries' disk disk' →
      Step folder (.damage (s.stamp now freshId w).id) disk s disk'
        (s.settleSave (s.stamp now freshId w) (disk', some trouble)).store
  | deleted {disk : Files.Disk} {s : Workflows} {id : String} :
      (s.delete disk id).answer = .ok () →
      Step folder (.change id) disk s (s.delete disk id).disk (s.delete disk id).store
  | notDeleted {disk disk' : Files.Disk} {s : Workflows} (id : String) {trouble : Files.Trouble} :
      SameFolder folder disk disk' →
      Step folder .nothing disk s disk' (s.settleDelete id (disk', some trouble)).store
  | reloaded {disk : Files.Disk} {s : Workflows} {loaded : Loaded} :
      load disk folder = .ok loaded → Step folder .nothing disk s loaded.disk loaded.store
  /-- Something else on the disk changed. -/
  | elsewhere {disk disk' : Files.Disk} {s : Workflows} :
      SameFolder folder disk disk' → Step folder .nothing disk s disk' s

/-! ## The folder and the store stay in order -/

/-- What holds of a store and the disk with its folder, whatever the files held at first: the folder
is there, and the id of each workflow that is held gives the name of an entry. -/
structure Standing (folder : Path) (disk : Files.Disk) (s : Workflows) : Prop where
  sameFolder : s.folder = folder
  orderly : Orderly (fun id => Path.IsName (id ++ ".json")) s.held
  folder : ∃ entries, Stands disk folder entries

variable {folder : Path} {entries entries' : Assoc Files.Node} {disk disk' : Files.Disk}
  {s s' : Workflows} {effect : Effect} {id : String} {w : Workflow}

theorem Stands.elsewhere (h : Stands disk folder entries) (hsame : SameFolder folder disk disk') :
    Stands disk' folder entries :=
  ⟨hsame.home ▸ h.home, hsame.listing.trans h.listing, h.names⟩

theorem isName_of_workflowIn {name : String} (hname : Files.IsEntry name)
    (h : workflowIn folder entries name = some w) :
    Path.IsName (w.id ++ ".json") ∧ w.ValidApart := by
  unfold workflowIn at h
  split at h
  · rename_i hsuffix
    obtain ⟨bytes, _, hgiven⟩ := Option.bind_eq_some_iff.mp h
    exact isName_of_workflowOf hname (beq_iff_eq.mp hsuffix) hgiven
  · cases h

/-- A folder that is there is loaded as an orderly store. -/
theorem standing_heldIn (h : Stands disk folder entries) :
    Standing folder disk ⟨folder, heldIn folder entries⟩ := by
  have hgiven : ∀ w ∈ workflowsIn folder entries,
      Path.IsName (w.id ++ ".json") ∧ w.ValidApart := by
    intro w hw
    obtain ⟨name, hgiven⟩ := mem_workflowsIn_iff.mp hw
    exact isName_of_workflowIn (h.names name (mem_keys_of_workflowIn hgiven)) hgiven
  exact ⟨rfl, orderly_nil.keepAll (fun w hw => (hgiven w hw).1) fun w hw => (hgiven w hw).2,
    entries, h⟩

/-- What an operation that has an effect does to the workflows that the entries of a folder give. -/
structure Moves (folder : Path) (effect : Effect) (entries entries' : Assoc Files.Node) : Prop where
  others : ∀ name, (∀ id, effect.Touches id → name ≠ entryOf id) →
    workflowIn folder entries' name = workflowIn folder entries name
  own : ∀ id w, effect.Touches id → workflowIn folder entries' (entryOf id) = some w →
    effect.Touches w.id

theorem moves_nothing : Moves folder .nothing entries entries :=
  ⟨fun _ _ => rfl, fun _ _ h => h.elim⟩

theorem moves_change (hbut : SameBut folder (entryOf id) entries entries')
    (hown : ∀ w, workflowIn folder entries' (entryOf id) = some w → w.id = id) :
    Moves folder (.change id) entries entries' := by
  refine ⟨fun name hname => hbut name (hname id rfl), fun other w htouched hgiven => ?_⟩
  have hfile : entryOf id = entryOf other := htouched
  exact congrArg entryOf (hown w (hfile ▸ hgiven)).symm

theorem stands_of_damaged (h : Stands disk folder entries) (hfile : Files.IsEntry (entryOf id))
    (hdamaged : Damaged folder id entries entries' disk disk') : Stands disk' folder entries' := by
  refine ⟨hdamaged.home ▸ h.home, hdamaged.after, fun name hname => ?_⟩
  by_cases hsame : name = entryOf id
  · exact hsame ▸ hfile
  · obtain ⟨node, hnode⟩ := Assoc.mem_keys_iff.mp hname
    rw [hdamaged.others name hsame] at hnode
    exact h.names name (Assoc.mem_keys_iff.mpr ⟨node, hnode⟩)

theorem moves_damage (hdamaged : Damaged folder id entries entries' disk disk') :
    Moves folder (.damage id) entries entries' := by
  refine ⟨fun name hname => ?_, fun other w htouched hgiven => ?_⟩
  · rw [workflowIn, workflowIn, Files.Disk.fileIn, Files.Disk.fileIn,
      hdamaged.others name (hname id rfl)]
  · have hfile : entryOf id = entryOf other := htouched
    exact congrArg entryOf (hdamaged.own w (hfile ▸ hgiven)).symm

theorem loaded_of_stands (h : Stands disk folder entries) {loaded : Loaded}
    (hload : load disk folder = .ok loaded) :
    loaded.disk = disk ∧ loaded.store = ⟨folder, heldIn folder entries⟩ := by
  obtain ⟨skipped, hload'⟩ := load_of_stands h
  rw [hload] at hload'
  cases hload'
  exact ⟨rfl, rfl⟩

/-- A saving that succeeded puts the workflow in its file, and only there. -/
theorem stands_saved {Fits : String → Prop} (h : Orderly Fits s.held) (hfolder : s.folder = folder)
    (hstands : Stands disk folder entries) {now : Timestamp} (hnow : now.WellFormed)
    {freshId : String} {saved : Workflow} (hfresh : w.id = "" → Workflow.Fresh freshId)
    (hw : w.Accepted) (hanswer : (s.save disk now freshId w).answer = .ok saved) :
    saved.Valid ∧ saved.id ≠ "" ∧ Files.systemName saved.id = saved.id ∧
      (s.save disk now freshId w).store = { s with held := s.held.put saved.id saved } ∧
      ∃ entries', Stands (s.save disk now freshId w).disk folder entries' ∧
        SameBut folder (entryOf saved.id) entries entries' ∧
        workflowIn folder entries' (entryOf saved.id) = some saved := by
  obtain ⟨hsaved, hwrite, hstore⟩ := save_ok hanswer
  obtain ⟨hvalid, hid⟩ := valid_stamp h hnow hfresh hw
  rw [← hsaved] at hvalid hid
  rw [hfolder] at hwrite
  have hshown := shown_of_writeValue hwrite
  obtain ⟨entries', hstands', hbut, hwritten⟩ :=
    stands_of_writeValue hstands hvalid.id.fileName hid hshown hwrite
  exact ⟨hvalid, hid, hshown, hstore, entries', hstands', hbut,
    hwritten.trans (workflowOf_written hvalid hid saved.id)⟩

/-- A deletion that succeeded takes the file of the id away, and only that. -/
theorem stands_deleted (hname : ∀ w, s.held.get? id = some w → Path.IsName (id ++ ".json"))
    (hfolder : s.folder = folder) (hstands : Stands disk folder entries)
    (hanswer : (s.delete disk id).answer = .ok ()) :
    (s.delete disk id).store = { s with held := s.held.erase id } ∧
      ∃ entries', Stands (s.delete disk id).disk folder entries' ∧
        SameBut folder (entryOf id) entries entries' ∧
        workflowIn folder entries' (entryOf id) = none := by
  obtain ⟨⟨w, hfound⟩, hunlink, hstore⟩ := delete_ok hanswer
  rw [hfolder] at hunlink
  exact ⟨hstore, stands_of_unlink hstands (hname w hfound) hunlink⟩

/-- After a step the folder is still there, and what its files give was changed as the effect says.
-/
theorem stands_step (h : Standing folder disk s) (hstands : Stands disk folder entries)
    (hstep : Step folder effect disk s disk' s') : Standing folder disk' s' ∧
      ∃ entries', Stands disk' folder entries' ∧ Moves folder effect entries entries' := by
  -- a step that opened no file leaves the store and the entries as they were
  have hsame : ∀ {disk' : Files.Disk}, SameFolder folder disk disk' →
      Standing folder disk' s ∧
        ∃ entries', Stands disk' folder entries' ∧ Moves folder .nothing entries entries' :=
    fun hsame => ⟨⟨h.sameFolder, h.orderly, entries, hstands.elsewhere hsame⟩, entries,
      hstands.elsewhere hsame, moves_nothing⟩
  cases hstep with
  | @saved _ _ now freshId w saved hnow hfresh hw hanswer =>
      obtain ⟨hvalid, _, _, hstore, entries', hstands', hbut, hfile⟩ :=
        stands_saved h.orderly h.sameFolder hstands hnow hfresh hw hanswer
      have hown : ∀ w, workflowIn folder entries' (entryOf saved.id) = some w →
          w.id = saved.id :=
        fun w hgiven => Option.some.inj (hgiven.symm.trans hfile) ▸ rfl
      rw [hstore]
      exact ⟨⟨h.sameFolder,
        h.orderly.put (isName_fileName hvalid.id.fileName) (Workflow.valid_iff.mp hvalid).2,
        entries', hstands'⟩, entries', hstands', moves_change hbut hown⟩
  | @deleted _ _ id hanswer =>
      obtain ⟨hstore, entries', hstands', hbut, hfile⟩ :=
        stands_deleted (h.orderly.ids _) h.sameFolder hstands hanswer
      have hown : ∀ w, workflowIn folder entries' (entryOf id) = some w → w.id = id :=
        fun w hgiven => nomatch hgiven.symm.trans hfile
      rw [hstore]
      exact ⟨⟨h.sameFolder, h.orderly.erase _, entries', hstands'⟩, entries', hstands',
        moves_change hbut hown⟩
  | broken hnow hfresh hw hdamaged =>
      -- the store does not change, and of the files at most the damaged one does
      have hbefore := hdamaged.before.symm.trans hstands.listing
      cases hbefore
      obtain ⟨hvalid, _⟩ := valid_stamp h.orderly hnow hfresh hw
      have hstands' :=
        stands_of_damaged hstands (isEntry_entryOf (isName_fileName hvalid.id.fileName)) hdamaged
      exact ⟨⟨h.sameFolder, h.orderly, _, hstands'⟩, _, hstands', moves_damage hdamaged⟩
  | reloaded hload =>
      obtain ⟨hdisk, hstore⟩ := loaded_of_stands hstands hload
      rw [hdisk, hstore]
      exact ⟨standing_heldIn hstands, entries, hstands, moves_nothing⟩
  | notSaved now freshId w hsame' => exact hsame hsame'
  | notDeleted id hsame' => exact hsame hsame'
  | elsewhere hsame' => exact hsame hsame'

/-! ## Savings and deletions are steps -/

/-- An empty file gives no workflow, whatever its name. -/
theorem workflowIn_of_empty (name : String) :
    workflowIn folder (entries.put name (.file [])) name = none := by
  rw [workflowIn, Files.Disk.fileIn, Assoc.get?_put, if_pos rfl]
  split
  · split
    · rfl
    · exact workflowOf_nil (folder.child name).stem
  · rfl

theorem damaged_of_wrote (h : Stands disk folder entries)
    (hwrote : Files.Disk.Wrote folder entries (id ++ ".json") [] disk disk') :
    Damaged folder id entries (entries.put (entryOf id) (.file [])) disk disk' where
  home := hwrote.home
  before := h.listing
  after := hwrote.listing
  others name hname := by rw [Assoc.get?_put, if_neg (Ne.symm hname)]
  own w hgiven := nomatch hgiven.symm.trans (workflowIn_of_empty _)

/-- Saving an accepted workflow is a step, however it ends. -/
theorem step_of_save (h : Standing folder disk s) {now : Timestamp} (hnow : now.WellFormed)
    {freshId : String} (hfresh : w.id = "" → Workflow.Fresh freshId) (hw : w.Accepted) :
    ∃ effect, Step folder effect disk s (s.save disk now freshId w).disk
      (s.save disk now freshId w).store := by
  obtain ⟨entries, hstands⟩ := h.folder
  obtain ⟨hvalid, hid⟩ := valid_stamp h.orderly hnow hfresh hw
  have hname := isName_fileName hvalid.id.fileName
  cases hanswer : (s.save disk now freshId w).answer with
  | ok saved => exact ⟨_, .saved hnow hfresh hw hanswer⟩
  | error fault =>
      rw [save_eq] at hanswer ⊢
      generalize hwrite : writeValue disk (fileOf s.folder (s.stamp now freshId w).id)
        (s.stamp now freshId w).toJson = outcome at hanswer ⊢
      obtain ⟨written, _ | trouble⟩ := outcome
      · cases hanswer
      · rw [h.sameFolder, writeValue, fileOf, Path.parent_child hname,
          Files.Disk.makeFolders_of_listing hstands.listing] at hwrite
        rcases Files.Disk.writeText_cases hstands.home hstands.listing hname hwrite with
          ⟨_, rfl⟩ | ⟨_, hwrote⟩ | ⟨hnone, _⟩
        -- the file was not opened, or it is empty now
        · exact ⟨_, .notSaved now freshId w ⟨rfl, rfl⟩⟩
        · exact ⟨_, .broken hnow hfresh hw (damaged_of_wrote hstands hwrote)⟩
        · cases hnone

/-- Deleting is a step, however it ends. -/
theorem step_of_delete (s : Workflows) (disk : Files.Disk) (id : String) :
    ∃ effect, Step folder effect disk s (s.delete disk id).disk (s.delete disk id).store := by
  cases hanswer : (s.delete disk id).answer with
  | ok => exact ⟨_, .deleted hanswer⟩
  | error fault =>
      obtain ⟨hstore, hdisk⟩ := delete_error hanswer
      rw [hstore, hdisk]
      exact ⟨_, .elsewhere ⟨rfl, rfl⟩⟩

end Runbook.Store.Workflows
