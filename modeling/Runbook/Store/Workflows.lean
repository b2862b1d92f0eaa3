import Runbook.Definition.Workflow
import Runbook.Store.Fault
import Runbook.Text.Case

/-!
# The store of workflows

Workflows are kept in a folder, one file each, named by the workflow's id. The store holds them all;
opening and reloading it reads the files in the order of their names and passes over those that hold
no workflow. Saving writes the file first and then changes what the store holds, so that a failed
change leaves it as it was.
-/

set_option autoImplicit false

namespace Runbook.Store

/-- The workflows in a folder. -/
structure Workflows where
  folder : Path
  held : Assoc Workflow := []
  deriving Repr

/-- Why a file was passed over. -/
inductive SkipReason where
  | trouble (trouble : Files.Trouble)
  | undecodable (fault : Text.Utf8.Fault)
  | invalid (faults : List Runbook.Fault)
  deriving Repr

/-- The message for a file that was passed over. -/
def SkipReason.message : SkipReason → String
  | trouble t => t.message
  | undecodable f => f.message
  | invalid faults => report .text "Workflow" faults

/-- A file that was passed over. -/
structure Skipped where
  path : Path
  reason : SkipReason
  deriving Repr

namespace Workflows

/-- The file of the workflow with the given id. -/
def fileOf (folder : Path) (id : String) : Path := folder.child (id ++ ".json")

/-- The workflow in a file; one without id gets the file's name. -/
def readFile (disk : Files.Disk) (path : Path) : Except SkipReason Workflow :=
  match disk.read path with
  | .error trouble => .error (.trouble trouble)
  | .ok bytes =>
    match readText bytes with
    | .error fault => .error (.undecodable fault)
    | .ok text =>
      match readDefinition Workflow.read text with
      | .error faults => .error (.invalid faults)
      | .ok workflow => .ok (if workflow.id == "" then { workflow with id := path.stem } else workflow)

/-- The workflows in files, and the files that were passed over. -/
def readFiles (disk : Files.Disk) : List Path → Assoc Workflow → Assoc Workflow × List Skipped
  | [], held => (held, [])
  | path :: rest, held =>
    if !disk.isFile path then readFiles disk rest held
    else
      match readFile disk path with
      | .ok workflow => readFiles disk rest (held.put workflow.id workflow)
      | .error reason =>
        let (held, skipped) := readFiles disk rest held
        (held, ⟨path, reason⟩ :: skipped)

/-- The files in a folder that may hold workflows, in order. -/
def candidates (folder : Path) (names : List String) : List Path :=
  (names.map folder.child).filter (·.suffix == ".json")

/-- What reading the folder comes to. -/
structure Loaded where
  disk : Files.Disk
  store : Workflows
  skipped : List Skipped

/-- Reads the folder, which is made if it is missing. -/
def load (disk : Files.Disk) (folder : Path) : Except Fault Loaded :=
  let words := s!"Cannot read workflow directory {folder.text}"
  match disk.makeFolders folder with
  | .error trouble => .error (.ofTrouble words trouble)
  | .ok disk =>
    match disk.names folder with
    | .error trouble => .error (.ofTrouble words trouble)
    | .ok names =>
      let (held, skipped) := readFiles disk (candidates folder names) []
      .ok ⟨disk, ⟨folder, held⟩, skipped⟩

/-- The workflow with an id. -/
def get? (s : Workflows) (id : String) : Option Workflow := s.held.get? id

/-- The workflow with an id, or the failure that there is none. -/
def get (s : Workflows) (id : String) : Except Failure Workflow :=
  match s.get? id with
  | some workflow => .ok workflow
  | none => .error (.workflowNotFound id)

/-- Whether one workflow is listed before another: by its name in small letters, then by its id. -/
def listedBefore (a b : Workflow) : Bool :=
  let x := Text.toLower a.name
  let y := Text.toLower b.name
  x < y || (x == y && a.id ≤ b.id)

/-- All workflows in order. -/
def list (s : Workflows) : List Workflow := s.held.values.mergeSort listedBefore

/-- A store and a disk after an operation, and what it answers. -/
structure Changed (α : Type) where
  disk : Files.Disk
  store : Workflows
  answer : Except Fault α

/-- The form in which a workflow is kept: `freshId` is for one without id, and the time of its
making is that of the one it replaces. -/
def stamp (s : Workflows) (now : Timestamp) (freshId : String) (w : Workflow) : Workflow :=
  let id := if w.id == "" then freshId else w.id
  let created := match s.get? id with
    | some existing => existing.createdAt
    | none => w.createdAt
  { w with id := id, createdAt := some (created.getD now), updatedAt := some now }

/-- Keeps a workflow in place of one with the same id. -/
def save (s : Workflows) (disk : Files.Disk) (now : Timestamp) (freshId : String) (w : Workflow) :
    Changed Workflow :=
  let saved := s.stamp now freshId w
  match writeValue disk (fileOf s.folder saved.id) saved.toJson with
  | (disk, some trouble) =>
    ⟨disk, s, .error (.ofTrouble s!"Cannot write workflow {saved.id}" trouble)⟩
  | (disk, none) => ⟨disk, { s with held := s.held.put saved.id saved }, .ok saved⟩

/-- Takes a file away that may be missing. -/
def unlinkIfThere (disk : Files.Disk) (path : Path) : Except Files.Trouble Files.Disk :=
  match disk.unlink path with
  | .error (.refused .notFound _) => .ok disk
  | result => result

/-- Takes a workflow away. -/
def delete (s : Workflows) (disk : Files.Disk) (id : String) : Changed Unit :=
  match s.get? id with
  | none => ⟨disk, s, .error (.failed (.workflowNotFound id))⟩
  | some _ =>
    match unlinkIfThere disk (fileOf s.folder id) with
    | .error trouble => ⟨disk, s, .error (.ofTrouble s!"Cannot delete workflow {id}" trouble)⟩
    | .ok disk => ⟨disk, { s with held := s.held.erase id }, .ok ()⟩

end Workflows

end Runbook.Store
