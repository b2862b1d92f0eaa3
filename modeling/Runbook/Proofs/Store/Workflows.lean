import Runbook.Proofs.Assoc
import Runbook.Store.Workflows

/-!
# What a store of workflows holds

A store is `Reached` if it was read from a folder and then changed by saving and deleting. Whatever
the files hold and whichever changes fail, such a store keeps each workflow under the workflow's own
id (`filed_of_reached`).
-/

set_option autoImplicit false

namespace Runbook.Store.Workflows

/-- A store that was read from a folder and changed since. -/
inductive Reached : Workflows → Prop
  | load {disk : Files.Disk} {folder : Path} {loaded : Loaded} :
      load disk folder = .ok loaded → Reached loaded.store
  | save {s : Workflows} (disk : Files.Disk) (now : Timestamp) (freshId : String)
      (w : Workflow) : Reached s → Reached (s.save disk now freshId w).store
  | delete {s : Workflows} (disk : Files.Disk) (id : String) :
      Reached s → Reached (s.delete disk id).store

/-- Each workflow is kept under its own id. -/
def Filed (held : Assoc Workflow) : Prop := ∀ id w, held.get? id = some w → w.id = id

theorem filed_put {held : Assoc Workflow} (h : Filed held) (w : Workflow) :
    Filed (held.put w.id w) := by
  intro id found hfound
  rw [Assoc.get?_put] at hfound
  split at hfound
  · rename_i hid
    rw [← Option.some.inj hfound, hid]
  · exact h id found hfound

theorem filed_erase {held : Assoc Workflow} (h : Filed held) (key : String) :
    Filed (held.erase key) := by
  intro id found hfound
  rw [Assoc.get?_erase] at hfound
  split at hfound
  · cases hfound
  · exact h id found hfound

theorem filed_readFiles {disk : Files.Disk} {paths : List Path} {held : Assoc Workflow}
    (h : Filed held) : Filed (readFiles disk paths held).1 := by
  -- by induction on the files; one that cannot be read changes nothing
  induction paths generalizing held with
  | nil => exact h
  | cons path rest ih =>
      unfold readFiles
      split
      · exact ih h
      · split
        · exact ih (filed_put h _)
        · exact ih h

/-- A store keeps each workflow under its own id. -/
theorem filed_of_reached {s : Workflows} (h : Reached s) : Filed s.held := by
  -- loading files each workflow under its own id, and so does saving
  induction h with
  | @load disk folder loaded hload =>
      unfold load at hload
      split at hload
      · cases hload
      · split at hload
        · cases hload
        · cases hload
          exact filed_readFiles (fun _ _ hnone => nomatch hnone)
  | save disk now freshId w _ ih =>
      unfold save
      dsimp only
      split
      · exact ih
      · exact filed_put ih _
  | @delete s disk id _ ih =>
      unfold delete
      split
      · exact ih
      · split
        · exact ih
        · exact filed_erase ih id

/-! ## A small store -/

/-- A workflow whose steps both refer to the workflow itself; the first jumps to itself when it
fails. -/
def selfReferring : Workflow where
  id := "a"
  steps :=
    [{ id := "first", type := "workflow_ref", content := " a ",
       onFailure := some { type := "jump_to", target := "first" } },
      { id := "last", type := "workflow_ref", content := "a" }]

/-- What is written of it in a file that is named by its id. -/
def selfReferringJson : Json :=
  .obj [("steps", .arr
    [.obj [("id", .str "first"), ("type", .str "workflow_ref"), ("content", .str " a "),
        ("on_failure", .obj [("type", .str "jump_to"), ("target", .str "first")])],
      .obj [("id", .str "last"), ("type", .str "workflow_ref"), ("content", .str "a")]])]

/-- The folder of the small store. -/
def smallFolder : Path := ⟨"/", ["workflows"]⟩

/-- A disk with that folder. -/
def smallDisk : Files.Disk :=
  ⟨⟨"/", []⟩, .folder [("workflows",
    .folder [("a.json", .file (Text.Utf8.encode selfReferringJson.compact))])]⟩

/-- A store that holds one workflow. -/
def smallStore : Workflows := ⟨smallFolder, [("a", selfReferring)]⟩

/-- A folder that is there is loaded as what its files hold. -/
theorem load_of_files {disk : Files.Disk} {folder : Path} {names : List String}
    {held : Assoc Workflow} (hfolder : disk.makeFolders folder = .ok disk)
    (hnames : disk.names folder = .ok names)
    (hheld : (readFiles disk (candidates folder names) []).1 = held) : load disk folder =
      .ok ⟨disk, ⟨folder, held⟩, (readFiles disk (candidates folder names) []).2⟩ := by
  simp only [load, hfolder, hnames, hheld]

theorem reached_of_files {disk : Files.Disk} {folder : Path} {names : List String}
    {held : Assoc Workflow} (hfolder : disk.makeFolders folder = .ok disk)
    (hnames : disk.names folder = .ok names)
    (hheld : (readFiles disk (candidates folder names) []).1 = held) : Reached ⟨folder, held⟩ :=
  Reached.load (load_of_files hfolder hnames hheld)

theorem names_smallDisk : smallDisk.names smallFolder = .ok ["a.json"] :=
  congrArg Except.ok (List.mergeSort_singleton "a.json")

theorem reached_smallStore : Reached smallStore :=
  reached_of_files rfl names_smallDisk (by decide +kernel)

/-! ## A store with a nested workflow -/

/-- A workflow that runs one command. -/
def innerWorkflow : Workflow where
  id := "inner"
  steps := [{ id := "first", content := "first" }]

/-- A workflow that runs the other one, and then a command. -/
def outerWorkflow : Workflow where
  id := "outer"
  steps := [{ id := "nested", type := "workflow_ref", content := "inner" },
    { id := "last", content := "last" }]

/-- What is written of both in files that are named by their ids. -/
def nestedDisk : Files.Disk :=
  let inner : Json :=
    .obj [("steps", .arr [.obj [("id", .str "first"), ("content", .str "first")]])]
  let outer : Json :=
    .obj [("steps", .arr
      [.obj [("id", .str "nested"), ("type", .str "workflow_ref"), ("content", .str "inner")],
        .obj [("id", .str "last"), ("content", .str "last")]])]
  ⟨⟨"/", []⟩, .folder [("workflows", .folder
    [("inner.json", .file (Text.Utf8.encode inner.compact)),
      ("outer.json", .file (Text.Utf8.encode outer.compact))])]⟩

/-- A store that holds both. -/
def nestedStore : Workflows :=
  ⟨smallFolder, [("inner", innerWorkflow), ("outer", outerWorkflow)]⟩

theorem names_nestedDisk : nestedDisk.names smallFolder = .ok ["inner.json", "outer.json"] := by
  have hsorted : ["inner.json", "outer.json"].mergeSort (fun a b => decide (a ≤ b)) =
      ["inner.json", "outer.json"] := List.mergeSort_of_pairwise (by decide)
  exact congrArg Except.ok hsorted

theorem reached_nestedStore : Reached nestedStore :=
  reached_of_files rfl names_nestedDisk (by decide +kernel)

end Runbook.Store.Workflows
