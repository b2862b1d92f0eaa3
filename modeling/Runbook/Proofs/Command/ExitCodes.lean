import Runbook.Proofs.Command.PrintedRun
import Runbook.Proofs.Store.WorkflowChanges

/-!
# Exit codes

In a world whose stores are open a command exits with the code that `Exits` lists: 3 if what it addresses is
not there, 2 if what it is given does not validate, 5 if a look ahead finds placeholders without a value, the
code of the status of its run, and otherwise 0, or 1 or 2 by the fault of a store.

There is a code for each command, unless its run makes too many rounds (`exists_exits`), and it is the one
with which the command is answered (`exitCode_of_exits`).
-/

set_option autoImplicit false

namespace Runbook.Command

open Run (World Live)
open Printing (exits mem_exits)

/-! ## What a command finds -/

/-- What a command addresses is not there. -/
def Absent (w : World) : Command → Prop
  | showWorkflow id => w.workflows.get? id = none
  | deleteWorkflow id => w.workflows.get? id = none
  | deleteVariable name => w.globals.held.get? name = none
  | validate id assignments =>
    (∃ inputs, readAssignments assignments = .ok inputs) ∧ w.workflows.get? id = none
  | run id assignments =>
    (∃ inputs, readAssignments assignments = .ok inputs) ∧ w.workflows.get? id = none
  | _ => False

/-- The parts of a global variable as they are given. -/
def givenVariable (name : String) (value : Option String) (description : String) : Json :=
  .obj [("name", .str name), ("value", (value.map Json.str).getD (.arr [])),
    ("description", .str description)]

/-- What is given with a command, or the text that it imports, does not validate. -/
def Invalid (w : World) : Command → Prop
  | importWorkflow path => ∃ bytes, w.disk.read (Path.ofString path) = .ok bytes ∧
    ∀ text workflow, Store.readText bytes = .ok text →
      Store.readDefinition Workflow.read text ≠ .ok workflow
  | setVariable name value description =>
    ∀ v, GlobalVariable.read (givenVariable name value description) ≠ .ok v
  | validate _ assignments => ∀ inputs, readAssignments assignments ≠ .ok inputs
  | run _ assignments => ∀ inputs, readAssignments assignments ≠ .ok inputs
  | _ => False

/-- A look ahead finds placeholders without a value. -/
def Lacking (w : World) : Command → Prop
  | validate id assignments => ∃ inputs workflow, readAssignments assignments = .ok inputs ∧
    w.workflows.get? id = some workflow ∧
    Run.missingByStep workflow (w.resolved workflow inputs) ≠ []
  | _ => False

/-- The run that a command makes comes to an end. -/
def Ended (w : World) (r : Except Run.Break Status) : Command → Prop
  | run id assignments => ∃ inputs w' live, readAssignments assignments = .ok inputs ∧
    Run.advance .whole w (Live.fresh false none) (Run.outermost id inputs) =
      (.done (r.map .ok), w', live)
  | _ => False

/-- What the work of a command comes to that is given what it needs and finds what it addresses. -/
inductive Comes (w : World) : Command → Except Store.Fault Unit → Prop
  | lists : Comes w .listWorkflows (.ok ())
  | shows {id : String} {workflow : Workflow} : w.workflows.get? id = some workflow →
      Comes w (.showWorkflow id) (.ok ())
  | unreadable {path : String} {trouble : Files.Trouble} :
      w.disk.read (Path.ofString path) = .error trouble →
      Comes w (.importWorkflow path) (.error (.trouble trouble))
  | imports {path : String} {bytes : List UInt8} {text : List Char} {workflow : Workflow} :
      w.disk.read (Path.ofString path) = .ok bytes → Store.readText bytes = .ok text →
      Store.readDefinition Workflow.read text = .ok workflow →
      Comes w (.importWorkflow path) ((w.save workflow).2.map fun _ => ())
  | deletes {id : String} {workflow : Workflow} : w.workflows.get? id = some workflow →
      Comes w (.deleteWorkflow id) (w.deleteWorkflow id).2
  | listsVariables : Comes w .listVariables (.ok ())
  | sets {name description : String} {value : Option String} {v : GlobalVariable} :
      GlobalVariable.read (givenVariable name value description) = .ok v →
      Comes w (.setVariable name value description) ((w.setVariable v).2.map fun _ => ())
  | deletesVariable {name : String} {v : GlobalVariable} : w.globals.held.get? name = some v →
      Comes w (.deleteVariable name) (w.deleteVariable name).2
  | resolves {id : String} {assignments : List String} {inputs : Scope} {workflow : Workflow} :
      readAssignments assignments = .ok inputs → w.workflows.get? id = some workflow →
      Run.missingByStep workflow (w.resolved workflow inputs) = [] →
      Comes w (.validate id assignments) (.ok ())

/-- With which code a command exits in a world whose stores are open. -/
inductive Exits (w : World) (command : Command) : Int → Prop
  | absent : Absent w command → Exits w command 3
  | invalid : Invalid w command → Exits w command 2
  | lacking : Lacking w command → Exits w command 5
  | ended {status : Status} {code : Int} : Ended w (.ok status) command → (status, code) ∈ exits →
      Exits w command code
  | done : Comes w command (.ok ()) → Exits w command 0
  | unfit {fault : Store.Fault} : Comes w command (.error fault) → fault.isUnfit = true →
      Exits w command 2
  | failed {fault : Store.Fault} : Comes w command (.error fault) → fault.isUnfit = false →
      Exits w command 1

/-! ## What is answered -/

section Answer

variable {w w' : World} {command : Command} {code : Int}

/-- The exit code for a fault of a store. -/
def codeOf (fault : Store.Fault) : Int := if fault.isUnfit then 2 else 1

theorem isNotFound_ofTrouble (words : String) (trouble : Files.Trouble) :
    isNotFound (.ofTrouble words trouble) = false := by
  unfold Store.Fault.ofTrouble
  split
  · rfl
  · rfl

theorem exitCode_store {fault : Store.Fault} (h : isNotFound fault = false) :
    ((Problem.store fault).answer w).2.exitCode = codeOf fault := by
  rw [Problem.answer, h, if_neg Bool.false_ne_true, codeOf]
  split
  · rfl
  · rfl

/-- A fault that stands for a trouble of the disk. -/
def IsTrouble (fault : Store.Fault) : Prop := ∃ words trouble, fault = .ofTrouble words trouble

theorem IsTrouble.isNotFound {fault : Store.Fault} (h : IsTrouble fault) :
    isNotFound fault = false := by
  obtain ⟨words, trouble, rfl⟩ := h
  exact isNotFound_ofTrouble words trouble

theorem isTrouble_save {workflow : Workflow} {fault : Store.Fault}
    (h : (w.save workflow).2 = .error fault) : IsTrouble fault := by
  unfold World.save at h
  simp only [Store.Workflows.save_eq] at h
  generalize Store.writeValue _ _ _ = outcome at h
  obtain ⟨disk, _ | trouble⟩ := outcome
  · cases h
  · cases h
    exact ⟨_, trouble, rfl⟩

theorem isTrouble_deleteWorkflow {id : String} {workflow : Workflow} {fault : Store.Fault}
    (hfound : w.workflows.get? id = some workflow) (h : (w.deleteWorkflow id).2 = .error fault) :
    IsTrouble fault := by
  unfold World.deleteWorkflow at h
  simp only [Store.Workflows.delete_of_some hfound] at h
  cases hunlink : Store.Workflows.unlinkIfThere w.disk (Store.Workflows.fileOf w.workflows.folder id) with
  | ok disk =>
      rw [hunlink] at h
      cases h
  | error trouble =>
      rw [hunlink] at h
      cases h
      exact ⟨_, trouble, rfl⟩

theorem isTrouble_write {s : Store.Variables} {disk : Files.Disk} {fault : Store.Fault}
    (h : (s.write disk).2 = some fault) : IsTrouble fault := by
  obtain ⟨trouble, -, rfl⟩ := Option.map_eq_some_iff.1 h
  exact ⟨_, trouble, rfl⟩

theorem isTrouble_setVariable {v : GlobalVariable} {fault : Store.Fault}
    (h : (w.setVariable v).2 = .error fault) : IsTrouble fault := by
  unfold World.setVariable at h
  simp only [Store.Variables.set_eq] at h
  exact isTrouble_write (congrArg Prod.snd (Store.Variables.settle_error h))

theorem isTrouble_deleteVariable {name : String} {v : GlobalVariable} {fault : Store.Fault}
    (hfound : w.globals.held.get? name = some v) (h : (w.deleteVariable name).2 = .error fault) :
    IsTrouble fault := by
  have hdeleting : ∃ c, w.globals.deleting name = some c := by
    rw [Store.Variables.deleting, hfound]
    exact ⟨_, rfl⟩
  obtain ⟨c, hc⟩ := hdeleting
  unfold World.deleteVariable at h
  simp only [Store.Variables.delete_of_some hc] at h
  exact isTrouble_write (congrArg Prod.snd (Store.Variables.settle_error h))

theorem exitCode_of_ok {answer : Answer} (h : command.carryOut w none = (w', .ok answer)) :
    (command.answer w none).2.exitCode = answer.exitCode := by
  rw [Command.answer, h]

theorem exitCode_of_problem {problem : Problem} (h : command.carryOut w none = (w', .error problem)) :
    (command.answer w none).2.exitCode = (problem.answer w').2.exitCode := by
  rw [Command.answer, h]

/-- A file to import is read, decoded and read as a workflow. -/
theorem readWorkflowFile_of_bytes {path : Path} {bytes : List UInt8} (h : w.disk.read path = .ok bytes) :
    readWorkflowFile w path =
      (Store.readText bytes).mapError (fun f => .store (.undecodable f)) >>= fun text =>
        (Store.readDefinition Workflow.read text).mapError (.invalid .text "Workflow") := by
  unfold readWorkflowFile
  rw [h]
  rfl

/-- The exit code for what the work of a command comes to. -/
def codeOfWork : Except Store.Fault Unit → Int
  | .ok () => 0
  | .error fault => codeOf fault

/-- The answer to a change of a store: a line about what was changed, or the fault. -/
def answerChange {α : Type} (line : α → String) (changed : World × Except Store.Fault α) :
    World × Except Problem Answer :=
  (changed.1, (changed.2.mapError Problem.store).map fun done => { out := [line done] })

theorem carryOut_import_of_error {path : String} {problem : Problem}
    (h : readWorkflowFile w (Path.ofString path) = .error problem) :
    (Command.importWorkflow path).carryOut w none = (w, .error problem) := by
  unfold carryOut
  dsimp only
  unfold importFile
  rw [h]

theorem carryOut_import_of_ok {path : String} {workflow : Workflow}
    (h : readWorkflowFile w (Path.ofString path) = .ok workflow) :
    (Command.importWorkflow path).carryOut w none =
      answerChange (fun saved => s!"Saved workflow {saved.id} ({saved.name})") (w.save workflow) := by
  unfold carryOut
  dsimp only
  unfold importFile
  rw [h]
  dsimp only
  generalize w.save workflow = changed
  obtain ⟨w', fault | saved⟩ := changed
  · rfl
  · rfl

theorem carryOut_setVariable_of_error {name description : String} {value : Option String}
    {faults : List Fault}
    (h : GlobalVariable.read (givenVariable name value description) = .error faults) :
    (Command.setVariable name value description).carryOut w none =
      (w, .error (.invalid .value "GlobalVariable" faults)) := by
  unfold givenVariable at h
  unfold carryOut
  dsimp only
  unfold setGlobal
  dsimp only
  rw [h]

theorem carryOut_setVariable_of_ok {name description : String} {value : Option String} {v : GlobalVariable}
    (h : GlobalVariable.read (givenVariable name value description) = .ok v) :
    (Command.setVariable name value description).carryOut w none =
      answerChange (fun _ => s!"Set {name}") (w.setVariable v) := by
  unfold givenVariable at h
  unfold carryOut
  dsimp only
  unfold setGlobal
  dsimp only
  rw [h]
  dsimp only
  generalize w.setVariable v = changed
  obtain ⟨w', fault | stored⟩ := changed
  · rfl
  · rfl

theorem carryOut_deleteWorkflow (w : World) (id : String) : (Command.deleteWorkflow id).carryOut w none =
    answerChange (fun _ => s!"Deleted workflow {id}") (w.deleteWorkflow id) := by
  unfold carryOut
  dsimp only
  generalize w.deleteWorkflow id = changed
  obtain ⟨w', fault | done⟩ := changed
  · rfl
  · rfl

theorem carryOut_deleteVariable (w : World) (name : String) :
    (Command.deleteVariable name).carryOut w none =
      answerChange (fun _ => s!"Deleted {name}") (w.deleteVariable name) := by
  unfold carryOut
  dsimp only
  generalize w.deleteVariable name = changed
  obtain ⟨w', fault | done⟩ := changed
  · rfl
  · rfl

/-- The exit code for a change of a store is that for what it comes to. -/
theorem exitCode_of_change {α : Type} {line : α → String} {changed : World × Except Store.Fault α}
    (hcarry : command.carryOut w none = answerChange line changed)
    (htrouble : ∀ fault, changed.2 = .error fault → IsTrouble fault) :
    (command.answer w none).2.exitCode = codeOfWork (changed.2.map fun _ => ()) := by
  obtain ⟨w', fault | done⟩ := changed
  · rw [exitCode_of_problem hcarry, exitCode_store (htrouble fault rfl).isNotFound]
    rfl
  · rw [exitCode_of_ok hcarry]
    rfl

theorem map_unit (result : Except Store.Fault Unit) : result.map (fun _ => ()) = result := by
  cases result with
  | error fault => rfl
  | ok done => rfl

/-- A look ahead answers what placeholders it finds without a value. -/
theorem lookAhead_eq {id : String} {assignments : List String} {inputs : Scope} {workflow : Workflow}
    (hinputs : readAssignments assignments = .ok inputs)
    (hfound : w.workflows.get? id = some workflow) :
    lookAhead w id assignments =
      if (Run.missingByStep workflow (w.resolved workflow inputs)).isEmpty then
        .ok { out := ["All placeholders resolve"] }
      else .ok { exitCode := exitPlaceholders,
                 out := (Run.missingByStep workflow (w.resolved workflow inputs)).map placeholdersLine } := by
  have hpreflight : w.preflight id inputs =
      .ok (Run.missingByStep workflow (w.resolved workflow inputs)) := by
    rw [World.preflight, Store.Workflows.get_eq_ok_iff.2 hfound]
    rfl
  rw [lookAhead, hinputs]
  show (w.preflight id inputs).mapError _ >>= _ = _
  rw [hpreflight]
  rfl

theorem exitCode_of_comes {result : Except Store.Fault Unit} (h : Comes w command result) :
    (command.answer w none).2.exitCode = codeOfWork result := by
  cases h with
  | lists => rfl
  | @shows id workflow hfound =>
      have hcarry : (Command.showWorkflow id).carryOut w none =
          (w, .ok { out := [workflow.toJson.indented] }) := by
        rw [carryOut, Store.Workflows.get_eq_ok_iff.2 hfound]
      exact exitCode_of_ok hcarry
  | @unreadable path trouble hread =>
      have hcarry : (Command.importWorkflow path).carryOut w none =
          (w, .error (.store (.trouble trouble))) := by
        have hfile : readWorkflowFile w (Path.ofString path) = .error (.store (.trouble trouble)) := by
          rw [readWorkflowFile, hread]
          rfl
        exact carryOut_import_of_error hfile
      rw [exitCode_of_problem hcarry]
      exact exitCode_store rfl
  | @imports path bytes text workflow hread htext hworkflow =>
      have hfile : readWorkflowFile w (Path.ofString path) = .ok workflow := by
        rw [readWorkflowFile_of_bytes hread, htext]
        show (Store.readDefinition Workflow.read text).mapError _ = _
        rw [hworkflow]
        rfl
      exact exitCode_of_change (carryOut_import_of_ok hfile) fun fault h => isTrouble_save h
  | @deletes id workflow hfound =>
      rw [← map_unit (w.deleteWorkflow id).2]
      exact exitCode_of_change (carryOut_deleteWorkflow w id) fun fault h =>
        isTrouble_deleteWorkflow hfound h
  | listsVariables => rfl
  | @sets name description value v hv =>
      exact exitCode_of_change (carryOut_setVariable_of_ok hv) fun fault h => isTrouble_setVariable h
  | @deletesVariable name v hfound =>
      rw [← map_unit (w.deleteVariable name).2]
      exact exitCode_of_change (carryOut_deleteVariable w name) fun fault h =>
        isTrouble_deleteVariable hfound h
  | @resolves id assignments inputs workflow hinputs hfound hnone =>
      have hcarry : (Command.validate id assignments).carryOut w none =
          (w, .ok { out := ["All placeholders resolve"] }) := by
        rw [carryOut, lookAhead_eq hinputs hfound, hnone]
        rfl
      exact exitCode_of_ok hcarry

theorem exitCode_of_lacking (h : Lacking w command) :
    (command.answer w none).2.exitCode = 5 := by
  cases command with
  | validate id assignments =>
      obtain ⟨inputs, workflow, hinputs, hfound, hsome⟩ := h
      have hcarry : (Command.validate id assignments).carryOut w none =
          (w, .ok { exitCode := exitPlaceholders
                    out := (Run.missingByStep workflow (w.resolved workflow inputs)).map
                      placeholdersLine }) := by
        rw [carryOut, lookAhead_eq hinputs hfound, if_neg (by simpa using hsome)]
      exact exitCode_of_ok hcarry
  | _ => cases h

theorem exitCode_of_invalid (h : Invalid w command) :
    (command.answer w none).2.exitCode = 2 := by
  cases command with
  | importWorkflow path =>
      obtain ⟨bytes, hread, hnone⟩ := h
      have hfile := readWorkflowFile_of_bytes hread
      cases htext : Store.readText bytes with
      | error fault =>
          rw [htext] at hfile
          exact exitCode_of_problem (carryOut_import_of_error hfile)
      | ok text =>
          rw [htext] at hfile
          cases hworkflow : Store.readDefinition Workflow.read text with
          | error faults =>
              have hproblem : readWorkflowFile w (Path.ofString path) =
                  .error (.invalid .text "Workflow" faults) := by
                rw [hfile]
                show (Store.readDefinition Workflow.read text).mapError _ = _
                rw [hworkflow]
                rfl
              exact exitCode_of_problem (carryOut_import_of_error hproblem)
          | ok workflow => exact absurd hworkflow (hnone text workflow htext)
  | setVariable name value description =>
      cases hread : GlobalVariable.read (givenVariable name value description) with
      | ok v => exact absurd hread (h v)
      | error faults => exact exitCode_of_problem (carryOut_setVariable_of_error hread)
  | validate id assignments =>
      cases hinputs : readAssignments assignments with
      | ok inputs => exact absurd hinputs (h inputs)
      | error fault =>
          have hcarry : (Command.validate id assignments).carryOut w none =
              (w, .error (.assignment fault)) := by
            rw [carryOut, lookAhead, hinputs]
            rfl
          exact exitCode_of_problem hcarry
  | run id assignments =>
      cases hinputs : readAssignments assignments with
      | ok inputs => exact absurd hinputs (h inputs)
      | error fault =>
          have hcarry : (Command.run id assignments).carryOut w none =
              (w, .error (.assignment fault)) := by
            rw [carryOut, runAndPrint, hinputs]
          exact exitCode_of_problem hcarry
  | _ => cases h

theorem exitCode_of_absent (h : Absent w command) :
    (command.answer w none).2.exitCode = 3 := by
  cases command with
  | showWorkflow id =>
      have hcarry : (Command.showWorkflow id).carryOut w none =
          (w, .error (.store (.failed (.workflowNotFound id)))) := by
        rw [carryOut, Store.Workflows.get_eq_notFound_iff.2 h]
      exact exitCode_of_problem hcarry
  | deleteWorkflow id =>
      have hcarry : (Command.deleteWorkflow id).carryOut w none =
          (w, .error (.store (.failed (.workflowNotFound id)))) := by
        rw [carryOut_deleteWorkflow]
        simp only [World.deleteWorkflow, Store.Workflows.delete_of_none h]
        rfl
      exact exitCode_of_problem hcarry
  | deleteVariable name =>
      have hdeleting : w.globals.deleting name = none := by
        rw [Store.Variables.deleting, show w.globals.held.get? name = none from h]
        rfl
      have hcarry : (Command.deleteVariable name).carryOut w none =
          (w, .error (.store (.failed (.variableNotFound name)))) := by
        rw [carryOut_deleteVariable]
        simp only [World.deleteVariable, Store.Variables.delete_of_none hdeleting]
        rfl
      exact exitCode_of_problem hcarry
  | validate id assignments =>
      obtain ⟨⟨inputs, hinputs⟩, hnone⟩ := h
      have hcarry : (Command.validate id assignments).carryOut w none =
          (w, .error (.store (.failed (.workflowNotFound id)))) := by
        rw [carryOut, lookAhead, hinputs]
        show (w, (w.preflight id inputs).mapError _ >>= _) = _
        rw [World.preflight, Store.Workflows.get_eq_notFound_iff.2 hnone]
        rfl
      exact exitCode_of_problem hcarry
  | run id assignments =>
      obtain ⟨⟨inputs, hinputs⟩, hnone⟩ := h
      have hcarry : (Command.run id assignments).carryOut w none =
          (w, .error (.store (.failed (.workflowNotFound id)))) := by
        simp only [carryOut, runAndPrint, hinputs, World.runWhole, Printing.advance_of_none hnone]
      exact exitCode_of_problem hcarry
  | _ => cases h

/-- The exit code of a run that has ended is that of the status with which it ended. -/
theorem exitCode_of_ended {status : Status} (h : Ended w (.ok status) command) :
    (status, (command.answer w none).2.exitCode) ∈ exits := by
  cases command with
  | run id assignments =>
      obtain ⟨inputs, w', live, hinputs, hadvance⟩ := h
      cases hfound : w.workflows.get? id with
      -- without a workflow there is no run
      | none =>
          rw [Printing.advance_of_none hfound] at hadvance
          cases hadvance
      -- the record that is answered has the status with which the run ended
      | some workflow =>
          obtain ⟨c, first, now, r, w₁, live₁, moves, s, -, hadvance₁, -, -, -, hend⟩ :=
            Printing.exists_shows_outermost hfound none inputs
          cases hadvance.symm.trans hadvance₁
          rcases hend with ⟨⟨⟩, -⟩ | ⟨_, ⟨⟩, hstatus, hterminal⟩
          have hcarry : (Command.run id assignments).carryOut w none =
              (w'.note (endedRecord id live.record), .ok (printRun none live)) := by
            simp only [carryOut, runAndPrint, hinputs, World.runWhole, hadvance]
            rfl
          have hcode : (printRun none live).exitCode = exitOfStatus live.record.status := rfl
          rw [exitCode_of_ok hcarry, hcode, hstatus]
          exact mem_exits hterminal
  | _ => cases h

theorem code_unique {status : Status} {code code' : Int} (h : (status, code) ∈ exits)
    (h' : (status, code') ∈ exits) : code = code' := by
  simp only [exits, List.mem_cons, Prod.mk.injEq, List.not_mem_nil, or_false] at h h'
  rcases h with ⟨rfl, rfl⟩ | ⟨rfl, rfl⟩ | ⟨rfl, rfl⟩
  · exact Eq.symm (by simpa using h')
  · exact Eq.symm (by simpa using h')
  · exact Eq.symm (by simpa using h')

/-! ## All commands -/

/-- The code with which a command exits is answered. -/
theorem exitCode_of_exits (h : Exits w command code) :
    (command.answer w none).2.exitCode = code := by
  cases h with
  | absent habsent => exact exitCode_of_absent habsent
  | invalid hinvalid => exact exitCode_of_invalid hinvalid
  | lacking hlacking => exact exitCode_of_lacking hlacking
  | ended hended hcode => exact code_unique (exitCode_of_ended hended) hcode
  | done hcomes => exact exitCode_of_comes hcomes
  | unfit hcomes hunfit =>
      rw [exitCode_of_comes hcomes, codeOfWork, codeOf, if_pos hunfit]
  | failed hcomes hfit =>
      rw [exitCode_of_comes hcomes, codeOfWork, codeOf, hfit, if_neg Bool.false_ne_true]

theorem exists_exits_of_comes {result : Except Store.Fault Unit} (h : Comes w command result) :
    ∃ code, Exits w command code := by
  cases result with
  | ok done => exact ⟨0, .done h⟩
  | error fault =>
      cases hunfit : fault.isUnfit with
      | true => exact ⟨2, .unfit h hunfit⟩
      | false => exact ⟨1, .failed h hunfit⟩

/-- There is a code for each command, unless it makes a run of too many rounds. -/
theorem exists_exits (hends : ¬ Ended w (.error .outOfRounds) command) :
    ∃ code, Exits w command code := by
  cases command with
  | listWorkflows => exact ⟨0, .done .lists⟩
  | listVariables => exact ⟨0, .done .listsVariables⟩
  | showWorkflow id =>
      cases hfound : w.workflows.get? id with
      | none => exact ⟨3, .absent hfound⟩
      | some workflow => exact exists_exits_of_comes (.shows hfound)
  | importWorkflow path =>
      cases hread : w.disk.read (Path.ofString path) with
      | error trouble => exact exists_exits_of_comes (.unreadable hread)
      | ok bytes =>
          by_cases hvalid : ∃ text workflow, Store.readText bytes = .ok text ∧
              Store.readDefinition Workflow.read text = .ok workflow
          · obtain ⟨text, workflow, htext, hworkflow⟩ := hvalid
            exact exists_exits_of_comes (.imports hread htext hworkflow)
          · exact ⟨2, .invalid ⟨bytes, hread, fun text workflow htext hworkflow =>
              hvalid ⟨text, workflow, htext, hworkflow⟩⟩⟩
  | deleteWorkflow id =>
      cases hfound : w.workflows.get? id with
      | none => exact ⟨3, .absent hfound⟩
      | some workflow => exact exists_exits_of_comes (.deletes hfound)
  | setVariable name value description =>
      by_cases hvalid : ∃ v, GlobalVariable.read (givenVariable name value description) = .ok v
      · obtain ⟨v, hv⟩ := hvalid
        exact exists_exits_of_comes (.sets hv)
      · exact ⟨2, .invalid fun v hv => hvalid ⟨v, hv⟩⟩
  | deleteVariable name =>
      cases hfound : w.globals.held.get? name with
      | none => exact ⟨3, .absent hfound⟩
      | some v => exact exists_exits_of_comes (.deletesVariable hfound)
  | validate id assignments =>
      cases hinputs : readAssignments assignments with
      | error fault =>
          refine ⟨2, .invalid fun inputs h => ?_⟩
          cases hinputs.symm.trans h
      | ok inputs =>
          cases hfound : w.workflows.get? id with
          | none => exact ⟨3, .absent ⟨⟨inputs, hinputs⟩, hfound⟩⟩
          | some workflow =>
              by_cases hnone : Run.missingByStep workflow (w.resolved workflow inputs) = []
              · exact exists_exits_of_comes (.resolves hinputs hfound hnone)
              · exact ⟨5, .lacking ⟨inputs, workflow, hinputs, hfound, hnone⟩⟩
  | run id assignments =>
      cases hinputs : readAssignments assignments with
      | error fault =>
          refine ⟨2, .invalid fun inputs h => ?_⟩
          cases hinputs.symm.trans h
      | ok inputs =>
          cases hfound : w.workflows.get? id with
          | none => exact ⟨3, .absent ⟨⟨inputs, hinputs⟩, hfound⟩⟩
          | some workflow =>
              obtain ⟨c, first, now, r, w', live, moves, s, -, hadvance, -, -, -, hend⟩ :=
                Printing.exists_shows_outermost hfound none inputs
              -- the run makes too many rounds, or it ends with a status
              rcases hend with ⟨rfl, -⟩ | ⟨status, rfl, -, hterminal⟩
              · exact absurd ⟨inputs, w', live, hinputs, hadvance⟩ hends
              · have hended : Ended w (.ok status) (.run id assignments) :=
                  ⟨inputs, w', live, hinputs, hadvance⟩
                exact ⟨_, .ended hended (mem_exits hterminal)⟩

end Answer

end Runbook.Command
