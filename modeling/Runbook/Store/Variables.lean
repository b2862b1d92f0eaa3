import Runbook.Definition.Variable
import Runbook.Store.Fault

/-!
# The store of global variables

All global variables are kept in one file, which every change writes anew in the order of names. A
change is made first and taken back if the file cannot be written for a reason that the system
gives; a deleted variable then comes back as the last one.
-/

set_option autoImplicit false

namespace Runbook.Store

/-- The global variables in a file. -/
structure Variables where
  file : Path
  held : Assoc GlobalVariable := []
  deriving Repr

namespace Variables

/-- The variables of a list of values. -/
def readItems : List Json → Checked (Assoc GlobalVariable) → Checked (Assoc GlobalVariable)
  | [], held => held
  | item :: items, held =>
    held.andThen fun known =>
      (GlobalVariable.read item).andThen fun v => readItems items (.ok (known.put v.name v))

/-- The variables that a text holds. -/
def readHeld (file : Path) (text : List Char) : Except Fault (Assoc GlobalVariable) :=
  match Json.read .plain text with
  | .error fault =>
    match fault.flaw with
    | .tooManyDigits count => .error (.tooManyDigits count)
    | .tooDeep inObject => .error (.tooDeep inObject)
    | _ =>
      .error (.failed (.store s!"Cannot read global variables from {file.text}: {fault.message text}"))
  | .ok (.arr items) =>
    match readItems items (.ok []) with
    | .ok held => .ok held
    | .error faults =>
      let report := report .value "GlobalVariable" faults
      .error (.failed (.store s!"Invalid global variable in {file.text}: {report}"))
  | .ok _ =>
    .error (.failed (.store s!"Global variables file must hold a JSON list: {file.text}"))

/-- Reads the file, which may be missing. -/
def load (disk : Files.Disk) (file : Path) : Except Fault Variables :=
  if !disk.has file then .ok ⟨file, []⟩
  else
    match disk.read file with
    | .error trouble =>
      .error (.ofTrouble s!"Cannot read global variables from {file.text}" trouble)
    | .ok bytes =>
      match readText bytes with
      | .error fault => .error (.undecodable fault)
      | .ok text => (readHeld file text).map fun held => ⟨file, held⟩

/-- All variables in the order of their names. -/
def list (s : Variables) : List GlobalVariable :=
  s.held.values.mergeSort fun a b => a.name ≤ b.name

/-- The variable with a name, or the failure that there is none. -/
def get (s : Variables) (name : String) : Except Failure GlobalVariable :=
  match s.held.get? name with
  | some v => .ok v
  | none => .error (.variableNotFound name)

/-- The values of all variables. -/
def scope (s : Variables) : Scope := s.held.map fun (name, v) => (name, v.value)

/-- A store and a disk after an operation, and what it answers. -/
structure Changed (α : Type) where
  disk : Files.Disk
  store : Variables
  answer : Except Fault α

/-- Writes the file anew. -/
def write (s : Variables) (disk : Files.Disk) : Files.Disk × Option Fault :=
  let (disk, trouble) := writeValue disk s.file (.arr (s.list.map GlobalVariable.toJson))
  (disk, trouble.map (.ofTrouble s!"Cannot write global variables to {s.file.text}"))

/-- Whether a change that ended with a fault is taken back. -/
def takesBack : Fault → Bool
  | .failed _ => true
  | _ => false

/-- The form in which a variable is kept: the time of its making is that of the one it replaces. -/
def stamp (s : Variables) (now : Timestamp) (v : GlobalVariable) : GlobalVariable :=
  let created := match s.held.get? v.name with
    | some existing => existing.createdAt
    | none => v.createdAt
  { v with createdAt := some (created.getD now), updatedAt := some now }

/-- Keeps a variable in place of one with the same name. -/
def set (s : Variables) (disk : Files.Disk) (now : Timestamp) (v : GlobalVariable) :
    Changed GlobalVariable :=
  let stored := s.stamp now v
  let changed := { s with held := s.held.put stored.name stored }
  match changed.write disk with
  | (disk, none) => ⟨disk, changed, .ok stored⟩
  | (disk, some fault) => ⟨disk, if takesBack fault then s else changed, .error fault⟩

/-- Takes a variable away. -/
def delete (s : Variables) (disk : Files.Disk) (name : String) : Changed Unit :=
  match s.held.get? name with
  | none => ⟨disk, s, .error (.failed (.variableNotFound name))⟩
  | some existing =>
    let changed := { s with held := s.held.erase name }
    match changed.write disk with
    | (disk, none) => ⟨disk, changed, .ok ()⟩
    | (disk, some fault) =>
      let back := { s with held := changed.held ++ [(name, existing)] }
      ⟨disk, if takesBack fault then back else changed, .error fault⟩

end Variables

end Runbook.Store
