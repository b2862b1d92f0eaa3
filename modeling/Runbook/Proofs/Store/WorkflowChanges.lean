import Runbook.Proofs.Store.WorkflowFiles

/-!
# Changes of the workflow store

A store is `Orderly` if each workflow stands once, under its own id, and fits the rules that are
asked of it. Loading a folder gives such a store (`orderly_load`), and saving an accepted workflow
and deleting one leave such a store. Both operations settle by the outcome on the disk (`save_eq`,
`delete_of_some`), so what they leave is told from their answers (`save_ok`, `delete_ok`).
-/

set_option autoImplicit false

namespace Runbook

/-! ## Accepted workflows and fresh ids -/

namespace Workflow

/-- Whether a workflow is what some text is read as. -/
def Accepted (w : Workflow) : Prop :=
  ∃ dialect text, Checked.ofText? dialect read text = some w

theorem accepted_iff_valid {w : Workflow} : w.Accepted ↔ w.Valid := by
  constructor
  · rintro ⟨dialect, text, htext⟩
    exact faithful.valid_of_text htext
  · intro h
    exact ⟨.definition, _, Checked.ofText?_eq_some_iff.mpr
      ⟨_, Json.read_indented (faithful.exact h 194), read_toJson h⟩⟩

/-- Whether a text can be an id that is made for a workflow: some letters, digits and hyphens. -/
structure Fresh (id : String) : Prop where
  filled : id ≠ ""
  plain : ∀ c ∈ id.toList, c.isAlphanum = true ∨ c = '-'

theorem isBlank_of_plain {c : Char} (h : c.isAlphanum = true ∨ c = '-') :
    Text.isBlank c = false := by
  -- no blank lies between the hyphen and the last small letter
  have hrange : 45 ≤ c.toNat ∧ c.toNat ≤ 122 := by
    rcases h with h | rfl
    · have hwithin {low high : UInt32} (h : low ≤ c.val ∧ c.val ≤ high) (hlow : 45 ≤ low.toNat)
          (hhigh : high.toNat ≤ 122) : 45 ≤ c.toNat ∧ c.toNat ≤ 122 :=
        ⟨Nat.le_trans hlow (UInt32.le_iff_toNat_le.mp h.1),
          Nat.le_trans (UInt32.le_iff_toNat_le.mp h.2) hhigh⟩
      rcases Bool.or_eq_true_iff.mp h with hletter | hdigit
      · rcases Bool.or_eq_true_iff.mp hletter with hupper | hlower
        · exact hwithin (of_decide_eq_true hupper) (by decide) (by decide)
        · have hrange := Bool.and_eq_true_iff.mp hlower
          exact hwithin (hrange.imp of_decide_eq_true of_decide_eq_true) (by decide) (by decide)
      · have hrange := Bool.and_eq_true_iff.mp hdigit
        exact hwithin (hrange.imp of_decide_eq_true of_decide_eq_true) (by decide) (by decide)
    · decide
  simp only [Text.isBlank, Bool.or_eq_false_iff, Bool.and_eq_false_iff, decide_eq_false_iff_not,
    beq_eq_false_iff_ne]
  omega

theorem strip_eq_self {s : String} (h : ∀ c ∈ s.toList, Text.isBlank c = false) :
    Text.strip s = s := by
  have hstart : Text.stripStart s.toList = s.toList :=
    Text.stripStart_eq_self_iff.mpr fun c hc => h c (List.mem_of_mem_head? hc)
  have hend : Text.stripStart s.toList.reverse = s.toList.reverse :=
    Text.stripStart_eq_self_iff.mpr fun c hc =>
      h c (List.mem_reverse.mp (List.mem_of_mem_head? hc))
  have hboth : Text.stripEnd s.toList = s.toList := by
    rw [Text.stripEnd]
    exact (congrArg List.reverse hend).trans (List.reverse_reverse _)
  rw [Text.strip, hstart, hboth, String.ofList_toList]

/-- A fresh id fits the rules. -/
theorem idFits_of_fresh {id : String} (h : Fresh id) : IdFits id := by
  have hother : ∀ c ∈ id.toList, ¬(c == '/' || c == '\\') = true ∧ c ≠ '.' := by
    intro c hc
    rcases h.plain c hc with halnum | rfl
    · refine ⟨fun hseparator => ?_, fun hpoint => ?_⟩
      · rcases Bool.or_eq_true_iff.mp hseparator with heq | heq <;>
          rw [beq_iff_eq.mp heq] at halnum <;> exact absurd halnum (by decide)
      · rw [hpoint] at halnum
        exact absurd halnum (by decide)
    · decide
  have hpoint : ∀ other : String, '.' ∈ other.toList → id ≠ other := fun other hmem heq =>
    (hother '.' (heq ▸ hmem)).2 rfl
  refine ⟨strip_eq_self fun c hc => isBlank_of_plain (h.plain c hc), ?_⟩
  simp only [isFileName, Bool.and_eq_true, Bool.not_eq_true', List.any_eq_false, bne_iff_ne]
  exact ⟨⟨fun c hc => (hother c hc).1, hpoint "." (by decide)⟩, hpoint ".." (by decide)⟩

end Workflow

namespace Store.Workflows

/-! ## Orderly stores -/

/-- Each workflow stands once and under its own id, which fits, and fits the rules apart from that.
-/
structure Orderly (Fits : String → Prop) (held : Assoc Workflow) : Prop where
  once : held.keys.Nodup
  filed : Filed held
  ids : ∀ id w, held.get? id = some w → Fits id
  valid : ∀ id w, held.get? id = some w → w.ValidApart

variable {Fits : String → Prop} {held : Assoc Workflow} {w : Workflow}

theorem orderly_nil : Orderly Fits [] :=
  ⟨List.nodup_nil, fun _ _ h => (nomatch h), fun _ _ h => (nomatch h), fun _ _ h => nomatch h⟩

theorem Orderly.put (h : Orderly Fits held) (hid : Fits w.id) (hvalid : w.ValidApart) :
    Orderly Fits (held.put w.id w) := by
  refine ⟨Assoc.nodup_keys_put h.once _ _, filed_put h.filed w, fun id found hfound => ?_,
    fun id found hfound => ?_⟩ <;>
    rw [Assoc.get?_put] at hfound <;> split at hfound
  · rename_i hsame
    exact hsame ▸ hid
  · exact h.ids id found hfound
  · exact Option.some.inj hfound ▸ hvalid
  · exact h.valid id found hfound

theorem Orderly.erase (h : Orderly Fits held) (key : String) : Orderly Fits (held.erase key) := by
  refine ⟨Assoc.nodup_keys_erase h.once key, filed_erase h.filed key, fun id found hfound => ?_,
    fun id found hfound => ?_⟩ <;>
    rw [Assoc.get?_erase] at hfound <;> split at hfound
  · cases hfound
  · exact h.ids id found hfound
  · cases hfound
  · exact h.valid id found hfound

theorem Orderly.keepAll (h : Orderly Fits held) {ws : List Workflow}
    (hids : ∀ w ∈ ws, Fits w.id) (hvalid : ∀ w ∈ ws, w.ValidApart) :
    Orderly Fits (keepAll held ws) := by
  induction ws generalizing held with
  | nil => exact h
  | cons w ws ih =>
      obtain ⟨hid, hids⟩ := List.forall_mem_cons.mp hids
      obtain ⟨hw, hvalid⟩ := List.forall_mem_cons.mp hvalid
      exact ih (h.put hid hw) hids hvalid

/-- The id under which an accepted workflow is kept fits the rules. -/
theorem idFits_stamp (s : Workflows) (now : Timestamp) {freshId : String}
    (hfresh : w.id = "" → Workflow.Fresh freshId) (hw : w.Accepted) :
    Workflow.IdFits (s.stamp now freshId w).id ∧ (s.stamp now freshId w).id ≠ "" := by
  rw [stamp]
  dsimp only
  split
  · rename_i hnone
    have hfresh := hfresh (beq_iff_eq.mp hnone)
    exact ⟨Workflow.idFits_of_fresh hfresh, hfresh.filled⟩
  · rename_i hsome
    exact ⟨(Workflow.accepted_iff_valid.mp hw).id, by simpa using hsome⟩

theorem isName_stamp (s : Workflows) (now : Timestamp) {freshId : String}
    (hfresh : w.id = "" → Workflow.Fresh freshId) (hw : w.Accepted) :
    Path.IsName ((s.stamp now freshId w).id ++ ".json") :=
  isName_fileName (idFits_stamp s now hfresh hw).1.fileName

/-- The form in which an accepted workflow is kept fits all rules. -/
theorem valid_stamp {s : Workflows} (h : Orderly Fits s.held) {now : Timestamp}
    (hnow : now.WellFormed) {freshId : String} (hfresh : w.id = "" → Workflow.Fresh freshId)
    (hw : w.Accepted) : (s.stamp now freshId w).Valid ∧ (s.stamp now freshId w).id ≠ "" := by
  have hvalid := Workflow.accepted_iff_valid.mp hw
  have hid := idFits_stamp s now hfresh hw
  have hcreated : ∀ t ∈ (s.stamp now freshId w).createdAt, t.WellFormed := by
    rintro t ⟨⟩
    have hchoice : ∀ o : Option Timestamp, (∀ t ∈ o, t.WellFormed) → (o.getD now).WellFormed := by
      rintro (_ | t) ht
      · exact hnow
      · exact ht t rfl
    refine hchoice _ ?_
    -- the time comes from the workflow that is replaced, or else from the new one
    split
    · rename_i existing hexisting
      exact (h.valid _ existing hexisting).created
    · exact hvalid.created
  refine ⟨⟨hid.1, hvalid.steps, hvalid.stepIds, hcreated, ?_⟩, hid.2⟩
  rintro t ⟨⟩
  exact hnow

/-! ## Outcomes of the changes -/

/-- What saving comes to when the writing of the file had an outcome. -/
def settleSave (s : Workflows) (saved : Workflow) :
    Files.Disk × Option Files.Trouble → Changed Workflow
  | (disk, none) => ⟨disk, { s with held := s.held.put saved.id saved }, .ok saved⟩
  | (disk, some trouble) =>
    ⟨disk, s, .error (.ofTrouble s!"Cannot write workflow {saved.id}" trouble)⟩

/-- What deleting comes to when taking the file away had an outcome. -/
def settleDelete (s : Workflows) (id : String) :
    Files.Disk × Option Files.Trouble → Changed Unit
  | (disk, none) => ⟨disk, { s with held := s.held.erase id }, .ok ()⟩
  | (disk, some trouble) =>
    ⟨disk, s, .error (.ofTrouble s!"Cannot delete workflow {id}" trouble)⟩

variable {s : Workflows} {disk disk' : Files.Disk} {now : Timestamp} {freshId id : String}
  {fault : Fault}

theorem save_eq (s : Workflows) (disk : Files.Disk) (now : Timestamp) (freshId : String)
    (w : Workflow) : s.save disk now freshId w = s.settleSave (s.stamp now freshId w)
      (writeValue disk (fileOf s.folder (s.stamp now freshId w).id)
        (s.stamp now freshId w).toJson) := by
  rw [save]
  rcases writeValue disk _ _ with ⟨written, _ | trouble⟩ <;> rfl

theorem delete_of_none (h : s.get? id = none) (disk : Files.Disk) :
    s.delete disk id = ⟨disk, s, .error (.failed (.workflowNotFound id))⟩ := by
  rw [delete, h]

theorem delete_of_some (h : s.get? id = some w) (disk : Files.Disk) :
    s.delete disk id = s.settleDelete id (match unlinkIfThere disk (fileOf s.folder id) with
      | .ok disk' => (disk', none)
      | .error trouble => (disk, some trouble)) := by
  rw [delete, h]
  dsimp only
  cases unlinkIfThere disk (fileOf s.folder id) <;> rfl

/-- A workflow that was saved is written in its file and kept. -/
theorem save_ok {saved : Workflow} (h : (s.save disk now freshId w).answer = .ok saved) :
    saved = s.stamp now freshId w ∧
      writeValue disk (fileOf s.folder saved.id) saved.toJson =
        ((s.save disk now freshId w).disk, none) ∧
      (s.save disk now freshId w).store = { s with held := s.held.put saved.id saved } := by
  rw [save_eq] at h ⊢
  generalize hwrite : writeValue disk (fileOf s.folder (s.stamp now freshId w).id)
    (s.stamp now freshId w).toJson = outcome at h ⊢
  obtain ⟨written, _ | trouble⟩ := outcome
  · cases h
    exact ⟨rfl, hwrite, rfl⟩
  · cases h

/-- A workflow that was deleted was there; its file is taken away and it is not kept any more. -/
theorem delete_ok (h : (s.delete disk id).answer = .ok ()) :
    (∃ w, s.get? id = some w) ∧
      unlinkIfThere disk (fileOf s.folder id) = .ok (s.delete disk id).disk ∧
      (s.delete disk id).store = { s with held := s.held.erase id } := by
  cases hget : s.get? id with
  | none =>
      rw [delete_of_none hget] at h
      cases h
  | some w =>
      rw [delete_of_some hget] at h ⊢
      cases hunlink : unlinkIfThere disk (fileOf s.folder id) with
      | error trouble =>
          rw [hunlink] at h
          cases h
      | ok found => exact ⟨⟨w, rfl⟩, rfl, rfl⟩

theorem save_error (h : (s.save disk now freshId w).answer = .error fault) :
    (s.save disk now freshId w).store = s := by
  rw [save_eq] at h ⊢
  generalize writeValue disk (fileOf s.folder (s.stamp now freshId w).id)
    (s.stamp now freshId w).toJson = outcome at h ⊢
  obtain ⟨written, _ | trouble⟩ := outcome
  · cases h
  · rfl

theorem delete_error (h : (s.delete disk id).answer = .error fault) :
    (s.delete disk id).store = s ∧ (s.delete disk id).disk = disk := by
  cases hget : s.get? id with
  | none =>
      rw [delete_of_none hget]
      exact ⟨rfl, rfl⟩
  | some w =>
      rw [delete_of_some hget] at h ⊢
      cases hunlink : unlinkIfThere disk (fileOf s.folder id) with
      | error trouble => exact ⟨rfl, rfl⟩
      | ok found =>
          rw [hunlink] at h
          cases h

/-- Saving leaves the store as it was, or keeps the workflow in it. -/
theorem store_of_save (s : Workflows) (disk : Files.Disk) (now : Timestamp) (freshId : String)
    (w : Workflow) : (s.save disk now freshId w).store = s ∨
      (s.save disk now freshId w).store =
        { s with held := s.held.put (s.stamp now freshId w).id (s.stamp now freshId w) } := by
  rw [save_eq]
  rcases writeValue disk _ _ with ⟨written, _ | trouble⟩
  · exact .inr rfl
  · exact .inl rfl

/-- Deleting leaves the store as it was, or takes the workflow out of it. -/
theorem store_of_delete (s : Workflows) (disk : Files.Disk) (id : String) :
    (s.delete disk id).store = s ∨
      (s.delete disk id).store = { s with held := s.held.erase id } := by
  cases hanswer : (s.delete disk id).answer with
  | error fault => exact .inl (delete_error hanswer).1
  | ok => exact .inr (delete_ok hanswer).2.2

theorem get_eq_ok_iff : s.get id = .ok w ↔ s.held.get? id = some w := by
  rw [get, get?]
  cases s.held.get? id <;> simp

theorem get_eq_notFound_iff :
    s.get id = .error (.workflowNotFound id) ↔ s.held.get? id = none := by
  rw [get, get?]
  cases s.held.get? id <;> simp

/-- A workflow whose text has no unpaired halves is saved where its file can be written. -/
theorem save_of_writeBytes {saved : Workflow} {written : List UInt8 → Files.Disk}
    (hsaved : s.stamp now freshId w = saved) (hid : Workflow.isFileName saved.id = true)
    (hfolder : disk.makeFolders s.folder = .ok disk)
    (hwrite : ∀ bytes, disk.writeBytes (fileOf s.folder saved.id) bytes = .ok (written bytes))
    (htext : Text.firstHalf? (saved.toJson.printIndented 0 ++ ['\n']) = none) :
    s.save disk now freshId w =
      ⟨written (Text.Utf8.encode (saved.toJson.indented ++ "\n")),
        { s with held := s.held.put saved.id saved }, .ok saved⟩ := by
  have hparent : (fileOf s.folder saved.id).parent = s.folder :=
    Path.parent_child (isName_fileName hid) s.folder
  have hwritten := writeValue_of_writeBytes (hparent.symm ▸ hfolder) hwrite htext
  rw [save_eq, hsaved, hwritten]
  rfl

/-! ## A missing folder -/

/-- The store without workflows. -/
def bareStore : Workflows := ⟨smallFolder, []⟩

/-- The disk on which the missing folder was made. -/
def emptyDisk : Files.Disk := ⟨⟨"/", []⟩, .folder [("workflows", .folder [])]⟩

theorem names_emptyDisk : emptyDisk.names smallFolder = .ok [] :=
  congrArg Except.ok List.mergeSort_nil

theorem named_emptyDisk : Named emptyDisk smallFolder := by
  intro names hnames
  rw [names_emptyDisk] at hnames
  cases hnames
  exact List.forall_mem_nil _

theorem load_bareDisk :
    load Variables.bareDisk smallFolder = .ok ⟨emptyDisk, bareStore, []⟩ := by
  have hmade : Variables.bareDisk.makeFolders smallFolder = .ok emptyDisk := rfl
  simp only [load, hmade, names_emptyDisk]
  rfl

/-- A workflow with one step and no id. -/
def namelessWorkflow : Workflow where
  name := "A"
  steps := [{ id := "s" }]

theorem accepted_namelessWorkflow : namelessWorkflow.Accepted :=
  ⟨.definition, "\x7b\"name\": \"A\", \"steps\": [\x7b\"id\": \"s\"\x7d]\x7d".toList,
    by decide +kernel⟩

/-- An id that is made for it. -/
def newId : String := "new-1"

theorem fresh_newId : Workflow.Fresh newId := by
  have hplain : newId.toList.all (fun c => c.isAlphanum || c == '-') = true := by decide
  exact ⟨by decide, by simpa using hplain⟩

theorem save_bareStore :
    (bareStore.save emptyDisk Variables.newYear newId namelessWorkflow).answer =
      .ok (bareStore.stamp Variables.newYear newId namelessWorkflow) := by
  have hwrite : ∀ bytes, emptyDisk.writeBytes (fileOf smallFolder newId) bytes =
      .ok ⟨⟨"/", []⟩, .folder [("workflows", .folder [("new-1.json", .file bytes)])]⟩ :=
    fun _ => rfl
  have hsave := save_of_writeBytes
    (rfl : bareStore.stamp Variables.newYear newId namelessWorkflow = _)
    (by decide) rfl hwrite (by decide +kernel)
  rw [hsave]

end Store.Workflows

end Runbook
