import Runbook.Command.Line
import Runbook.Proofs.Command.ExitCodes
import Runbook.Proofs.Store.Opening

/-!
# Uses of the program

A use of the program reads its settings, sets up the journal and opens the stores before it carries out its
command. `Ends` lists how it ends at each of these, and `use_ends_as_listed` says that each use ends so.

Not all of these ends are exit codes. Nothing handles a file of settings that cannot be decoded, a level that
nobody knows (`unknown_level_escapes`), or what `Unforeseen` says of the stores.
-/

set_option autoImplicit false

namespace Runbook.Command

open Run (World StartFault)

/-! ## Starting up -/

/-- The text of the file of settings, if there is one that can be read. -/
def dotenv (w : World) : Except Text.Utf8.Fault (Option String) :=
  match w.disk.isFile World.settingsFile, w.disk.read World.settingsFile with
  | true, .ok bytes => (Store.readText bytes).map fun text => some (String.ofList text)
  | _, _ => .ok none

/-- The settings are those that the environment and the file of settings make. -/
def Configured (environment : Scope) (w : World) (settings : Settings) : Prop :=
  ∃ text, dotenv w = .ok text ∧ Settings.read environment text = .ok settings

/-- The level that the settings name, if there is one. -/
def levelOf (settings : Settings) : Option Int :=
  Journal.namedLevels.lookup (Text.toUpper settings.logLevel)

/-- A fault that opening the stores is not prepared for: a path that no system takes, or a file of variables
that cannot be decoded or is beyond the limits of the reader. -/
def Unforeseen (w : World) (settings : Settings) (fault : Store.Fault) : Prop :=
  (∃ trouble, fault = .trouble trouble ∧ trouble.isRefusal = false) ∨
    (∀ failure, fault ≠ .failed failure) ∧
      ∃ loaded bytes, Store.Workflows.load w.disk settings.workflowsDir = .ok loaded ∧
        Store.Variables.found loaded.disk settings.variablesFile = some (.ok bytes) ∧
        Store.Variables.Outcome settings.variablesFile bytes (.error fault)

/-- What a use of the program with a command ends with: an exit code, or a fault that nothing handles. -/
inductive Ends (environment : Scope) (w : World) (command : Command) : Except StartFault Int → Prop
  | undecodable {fault : Text.Utf8.Fault} : dotenv w = .error fault →
      Ends environment w command (.error (.undecodable fault))
  | unfit {text : Option String} {faults : List Fault} : dotenv w = .ok text →
      Settings.read environment text = .error faults → Ends environment w command (.ok 2)
  | unknownLevel {settings : Settings} : Configured environment w settings →
      levelOf settings = none →
      Ends environment w command (.error (.unknownLevel ⟨Text.toUpper settings.logLevel⟩))
  | closed {settings : Settings} {w' : World} {failure : Failure} :
      Configured environment w settings → (levelOf settings).isSome = true →
      w.start settings = (w', .error (.failed failure)) → Ends environment w command (.ok 1)
  | unforeseen {settings : Settings} {w' : World} {fault : Store.Fault} :
      Configured environment w settings → (levelOf settings).isSome = true →
      w.start settings = (w', .error fault) → Unforeseen w settings fault →
      Ends environment w command (.error (.stores fault))
  | started {settings : Settings} {w' : World} {code : Int} :
      Configured environment w settings → (levelOf settings).isSome = true →
      w.start settings = (w', .ok ()) → Exits w' command code →
      Ends environment w command (.ok code)

section Use

variable {environment : Scope} {w w' : World} {command : Command} {settings : Settings}
  {words : List String}

theorem readSettings_eq (environment : Scope) (w : World) :
    w.readSettings environment = (dotenv w).mapError StartFault.undecodable >>= fun text =>
      (Settings.read environment text).mapError .settings := by
  unfold World.readSettings dotenv
  generalize w.disk.isFile World.settingsFile = there
  generalize w.disk.read World.settingsFile = content
  cases there with
  | false => rfl
  | true =>
      cases content with
      | error trouble => rfl
      | ok bytes =>
          dsimp only
          cases Store.readText bytes with
          | error fault => rfl
          | ok text => rfl

theorem readSettings_of_text {text : Option String} (h : dotenv w = .ok text)
    {r : Checked Settings} (hread : Settings.read environment text = r) :
    w.readSettings environment = r.mapError .settings := by
  rw [readSettings_eq, h, ← hread]
  rfl

theorem setUpJournal_of_none (h : levelOf settings = none) :
    World.setUpJournal settings = .error (.unknownLevel ⟨Text.toUpper settings.logLevel⟩) := by
  unfold levelOf at h
  simp only [World.setUpJournal, Journal.Setup.configure, h]

theorem setUpJournal_of_some (h : (levelOf settings).isSome = true) :
    ∃ setup, World.setUpJournal settings = .ok setup := by
  obtain ⟨level, hlevel⟩ := Option.isSome_iff_exists.1 h
  unfold levelOf at hlevel
  simp only [World.setUpJournal, Journal.Setup.configure, hlevel]
  exact ⟨_, rfl⟩

/-- Opening the stores reads the folder first, and then the file. -/
theorem start_eq (w : World) (settings : Settings) :
    (w.start settings).2 = Store.Workflows.load w.disk settings.workflowsDir >>= fun loaded =>
      (Store.Variables.load loaded.disk settings.variablesFile).map fun _ => () := by
  unfold World.start World.openWorkflows World.openVariables
  dsimp only
  cases Store.Workflows.load w.disk settings.workflowsDir with
  | error fault => rfl
  | ok loaded =>
      dsimp only
      show _ = (Store.Variables.load loaded.disk settings.variablesFile).map fun _ => ()
      cases Store.Variables.load loaded.disk settings.variablesFile with
      | error fault => rfl
      | ok store => rfl

/-- What the folder of workflows is read with is a trouble of the disk. -/
theorem isTrouble_load {disk : Files.Disk} {folder : Path} {fault : Store.Fault}
    (h : Store.Workflows.load disk folder = .error fault) : IsTrouble fault := by
  unfold Store.Workflows.load at h
  dsimp only at h
  cases hfolders : disk.makeFolders folder with
  | error trouble =>
      rw [hfolders] at h
      cases h
      exact ⟨_, trouble, rfl⟩
  | ok made =>
      rw [hfolders] at h
      dsimp only at h
      cases hnames : made.names folder with
      | error trouble =>
          rw [hnames] at h
          cases h
          exact ⟨_, trouble, rfl⟩
      | ok names =>
          rw [hnames] at h
          cases h

/-- Opening the stores ends with a failure, or with a fault that it is not prepared for. -/
theorem unforeseen_of_start {fault : Store.Fault} (h : w.start settings = (w', .error fault))
    (hnot : ∀ failure, fault ≠ .failed failure) : Unforeseen w settings fault := by
  have hstart := start_eq w settings
  rw [h] at hstart
  cases hload : Store.Workflows.load w.disk settings.workflowsDir with
  | error first =>
      -- a refusal to read the folder is a failure, so this is a path that no system takes
      rw [hload] at hstart
      obtain rfl : fault = first := Except.error.inj hstart
      obtain ⟨words, trouble, rfl⟩ := isTrouble_load hload
      left
      unfold Store.Fault.ofTrouble at hnot ⊢
      split at hnot
      · exact absurd rfl (hnot _)
      · rename_i hrefusal
        rw [if_neg hrefusal]
        exact ⟨trouble, rfl, Bool.eq_false_iff.2 hrefusal⟩
  | ok loaded =>
      -- the file of variables is looked at only then
      right
      rw [hload] at hstart
      have hvariables : (Store.Variables.load loaded.disk settings.variablesFile).map (fun _ => ()) =
          .error fault := hstart.symm
      rw [Store.Variables.load_eq_opened] at hvariables
      cases hfound : Store.Variables.found loaded.disk settings.variablesFile with
      | none =>
          rw [hfound] at hvariables
          cases hvariables
      | some content =>
          rw [hfound] at hvariables
          cases content with
          | error refusal =>
              cases hvariables
              exact absurd rfl (hnot _)
          | ok bytes =>
              have houtcome := Store.Variables.outcome_bytes settings.variablesFile bytes
              cases hopened : Store.Variables.opened settings.variablesFile (some (.ok bytes)) with
              | ok store =>
                  rw [hopened] at hvariables
                  cases hvariables
              | error found =>
                  rw [hopened] at hvariables houtcome
                  obtain rfl : found = fault := Except.error.inj hvariables
                  exact ⟨hnot, loaded, bytes, hload, hfound, houtcome⟩

/-! ## All uses -/

theorem answerStarted_of_started {w' : World} (h : w.start settings = (w', .ok ())) :
    (answerStarted w settings none command).2 = .ok (command.answer w' none).2 := by
  have hquiet : ∀ answer : Answer, isInterrupted none answer = false := by
    intro answer
    exact List.any_eq_false.2 fun line _ => Bool.false_ne_true
  simp only [answerStarted, h, hquiet, Bool.and_false, Bool.false_eq_true, if_false]

theorem Unforeseen.ne_failed {fault : Store.Fault} (h : Unforeseen w settings fault)
    (failure : Failure) : fault ≠ .failed failure := by
  rcases h with ⟨trouble, rfl, -⟩ | ⟨hnot, -⟩
  · rintro ⟨⟩
  · exact hnot failure

theorem answerStarted_of_unforeseen {fault : Store.Fault} (h : w.start settings = (w', .error fault))
    (hfault : Unforeseen w settings fault) :
    answerStarted w settings none command = (w', .error (.start (.stores fault))) := by
  have hnot := hfault.ne_failed
  unfold answerStarted
  rw [h]
  cases fault with
  | failed failure => exact absurd rfl (hnot failure)
  | _ => rfl

/-- What a use of the program comes to. -/
theorem use_of_ends (hread : read words = .ok command) {result : Except StartFault Int}
    (h : Ends environment w command result) :
    (use environment none words w).2.map (·.answer.exitCode) = result.mapError .start := by
  unfold use
  rw [hread]
  dsimp only
  -- one stage comes after the other, so each case says what those before it came to
  cases h with
  | undecodable hdotenv =>
      rw [readSettings_eq, hdotenv]
      rfl
  | unfit hdotenv hsettings =>
      rw [readSettings_of_text hdotenv hsettings]
      rfl
  | unknownLevel hconfigured hlevel =>
      obtain ⟨text, hdotenv, hsettings⟩ := hconfigured
      rw [readSettings_of_text hdotenv hsettings]
      simp only [Except.mapError, setUpJournal_of_none hlevel]
      rfl
  | closed hconfigured hlevel hstart =>
      obtain ⟨text, hdotenv, hsettings⟩ := hconfigured
      obtain ⟨setup, hsetup⟩ := setUpJournal_of_some hlevel
      rw [readSettings_of_text hdotenv hsettings]
      simp only [Except.mapError, hsetup, answerStarted, hstart]
      rfl
  | unforeseen hconfigured hlevel hstart hfault =>
      obtain ⟨text, hdotenv, hsettings⟩ := hconfigured
      obtain ⟨setup, hsetup⟩ := setUpJournal_of_some hlevel
      rw [readSettings_of_text hdotenv hsettings]
      simp only [Except.mapError, hsetup, answerStarted_of_unforeseen hstart hfault]
      rfl
  | @started settings w' code hconfigured hlevel hstart hexits =>
      obtain ⟨text, hdotenv, hsettings⟩ := hconfigured
      obtain ⟨setup, hsetup⟩ := setUpJournal_of_some hlevel
      have hanswer : (answerStarted w settings none command).2 = .ok (command.answer w' none).2 :=
        answerStarted_of_started hstart
      rw [readSettings_of_text hdotenv hsettings]
      simp only [Except.mapError, hsetup]
      generalize answerStarted w settings none command = answered at hanswer
      obtain ⟨w₁, answer⟩ := answered
      obtain rfl : answer = .ok _ := hanswer
      exact congrArg Except.ok (exitCode_of_exits hexits)

/-- Each use with a command ends in one of the listed ways, unless it makes a run of too many rounds. -/
theorem exists_ends (environment : Scope) (w : World)
    (hends : ∀ settings w', Configured environment w settings → w.start settings = (w', .ok ()) →
      ¬ Ended w' (.error .outOfRounds) command) :
    ∃ result, Ends environment w command result := by
  cases hdotenv : dotenv w with
  | error fault => exact ⟨_, .undecodable hdotenv⟩
  | ok text =>
      cases hsettings : Settings.read environment text with
      | error faults => exact ⟨_, .unfit hdotenv hsettings⟩
      | ok settings =>
          have hconfigured : Configured environment w settings := ⟨text, hdotenv, hsettings⟩
          cases hlevel : levelOf settings with
          | none => exact ⟨_, .unknownLevel hconfigured hlevel⟩
          | some level =>
              have hknown : (levelOf settings).isSome = true := by rw [hlevel]; rfl
              rcases hstart : w.start settings with ⟨w', fault | done⟩
              · by_cases hfailed : ∃ failure, fault = .failed failure
                · obtain ⟨failure, rfl⟩ := hfailed
                  exact ⟨_, .closed hconfigured hknown hstart⟩
                · have hfault := unforeseen_of_start hstart fun failure h => hfailed ⟨failure, h⟩
                  exact ⟨_, .unforeseen hconfigured hknown hstart hfault⟩
              · obtain ⟨code, hcode⟩ := exists_exits (hends settings w' hconfigured hstart)
                exact ⟨_, .started hconfigured hknown hstart hcode⟩

end Use

/-- A world with an empty disk. -/
def bareWorld : World where
  disk := ⟨⟨"/", []⟩, .folder []⟩
  commands := .started []

/-- The settings of a world without a file of settings, where the environment names only the level. -/
def leveled (level : String) : Settings where
  dataDir := ⟨"", ["data"]⟩
  shell := "sh"
  workingDir := none
  logLevel := level
  logFormat := .json
  corsOrigins := "http://localhost:5173,http://127.0.0.1:5173"

theorem configured_leveled {level : String}
    (h : (Settings.read [("LOG_LEVEL", level)] none).toOption = some (leveled level)) :
    Configured [("LOG_LEVEL", level)] bareWorld (leveled level) := by
  have hdotenv : dotenv bareWorld = .ok none := by
    have hnone : bareWorld.disk.isFile World.settingsFile = false := rfl
    rw [dotenv, hnone]
  refine ⟨none, hdotenv, ?_⟩
  cases hread : Settings.read [("LOG_LEVEL", level)] none with
  | error faults =>
      rw [hread] at h
      cases h
  | ok settings =>
      rw [hread] at h
      rw [Option.some.inj h]

theorem read_listWorkflows : read ["list-workflows"] = .ok .listWorkflows := by decide +kernel

end Runbook.Command
