import Runbook.Shell.Launch

/-!
# Commands that say why they were killed

A command says at its end whether it was killed. It is `Honest` if it says so only where its run was
to stop: the run was to stop when the command was started, the command was told so while it lasted, or
it asked for it itself. Nothing is known of a command that is started in a run that is to stop anyway
(`Process.honest_true`).

A command that a shell runs is honest, whatever it does (`Performance.honest`), because only the reply
to a pause makes it one that was killed. A rehearsed command is honest exactly if its result is
(`Result.honest_iff`).
-/

set_option autoImplicit false

namespace Runbook

namespace Run

/-- A command says that it was killed only where its run was to stop; `asked` is whether that was so
when it was started. -/
def Process.Honest : Process → Bool → Prop
  | .line _ _ rest, asked => rest.Honest asked
  | .lasts _ next, asked => ∀ stopped, (next stopped).Honest (asked || stopped)
  | .cancels rest, _ => rest.Honest true
  | .writes _ rest, asked => rest.Honest asked
  | .ended _ killed, asked => killed = true → asked = true

/-- In a run that is to stop any command may have been killed. -/
theorem Process.honest_true (process : Process) : process.Honest true := by
  induction process with
  | line source text rest ih => exact ih
  | lasts milliseconds next ih => exact fun stopped => ih stopped
  | cancels rest ih => exact ih
  | writes change rest ih => exact ih
  | ended exitCode killed => exact fun _ => rfl

theorem Process.Honest.mono {process : Process} (h : process.Honest false) (asked : Bool) :
    process.Honest asked := by
  cases asked with
  | false => exact h
  | true => exact process.honest_true

/-- Starting a command comes to an honest one, or to none. -/
def Launch.Honest (asked : Bool) : Launch → Prop
  | .started process => process.Honest asked
  | .refused _ => True
  | .crashed _ => True

theorem Launch.Honest.mono {launch : Launch} (h : launch.Honest false) (asked : Bool) :
    launch.Honest asked := by
  cases launch with
  | started process => exact Process.Honest.mono h asked
  | refused reason => trivial
  | crashed crash => trivial

end Run

namespace Shell

open Run

/-! ## Commands that a shell runs -/

theorem honest_withLines_iff {source : Source} {lines : List String} {rest : Process}
    {asked : Bool} : (withLines source lines rest).Honest asked ↔ rest.Honest asked := by
  induction lines with
  | nil => rfl
  | cons line lines ih => exact ih

theorem Pumps.honest_finish {pumps : Pumps} {exitCode : Int} {killed asked : Bool}
    (h : killed = true → asked = true) : (pumps.finish exitCode killed).Honest asked := by
  rw [Pumps.finish, honest_withLines_iff, honest_withLines_iff]
  exact h

/-- A pause whose reply ends the command is honest if the command is honest behind it. -/
theorem honest_pause {milliseconds : Nat} {killed going : Process} (h : going.Honest false) :
    (Process.lasts milliseconds fun stopped => if stopped then killed else going).Honest false := by
  intro stopped
  cases stopped with
  | false => exact h
  | true => exact killed.honest_true

theorem Performance.honest_processFrom (p : Performance) (now : Nat) (pumps : Pumps)
    (deeds : List (Nat × Deed)) : (p.processFrom now pumps deeds).Honest false := by
  induction deeds generalizing now pumps with
  | nil =>
      have hending : (pumps.finish p.exitCode false).Honest false :=
        Pumps.honest_finish fun h => h
      rw [Performance.processFrom]
      split
      · exact honest_pause hending
      · exact hending
  | cons entry rest ih =>
      obtain ⟨time, deed⟩ := entry
      -- whatever it does next, it goes on honestly
      cases deed with
      | changed change =>
          rw [Performance.processFrom]
          split
          · exact honest_pause (ih time pumps)
          · exact ih now pumps
      | wrote source bytes =>
          rw [Performance.processFrom]
          cases source with
          | stdout =>
              split
              · exact honest_pause (honest_withLines_iff.2 (ih time _))
              · exact honest_withLines_iff.2 (ih now _)
          | stderr =>
              split
              · exact honest_pause (honest_withLines_iff.2 (ih time _))
              · exact honest_withLines_iff.2 (ih now _)

theorem Performance.honest (p : Performance) : p.process.Honest false :=
  p.honest_processFrom 0 {} p.deeds

theorem exists_of_bind_eq_ok {α β : Type} {x : Except Files.Trouble α}
    {f : α → Except Files.Trouble β} {b : β} (h : (x >>= f) = .ok b) :
    ∃ a, x = .ok a ∧ f a = .ok b := by
  cases x with
  | error trouble => cases h
  | ok a => exact ⟨a, rfl, h⟩

/-- What is started is a performance of the program, after all that could refuse it. -/
theorem performance_of_startCommand {environment : Scope} {disk : Files.Disk}
    {workingDir : Option Path} {shell command : String} {process : Process}
    (h : startCommand environment disk workingDir shell command = .ok process) :
    ∃ p : Performance, process = p.process := by
  obtain ⟨_, -, hfolder⟩ := exists_of_bind_eq_ok h
  obtain ⟨folder, -, hprogram⟩ := exists_of_bind_eq_ok hfolder
  cases hfound : program? shell disk folder environment command with
  | none =>
      rw [hfound] at hprogram
      cases hprogram
  | some p =>
      rw [hfound] at hprogram
      exact ⟨p, (Except.ok.inj hprogram).symm⟩

/-! ## Rehearsed commands -/

/-- A rehearsed command is honest exactly if its result says that it was killed only where it says
that the command asks for it. -/
theorem Result.honest_iff (r : Result) :
    r.process.Honest false ↔ (r.killed = true → r.cancels = true) := by
  have hending : (if r.cancels = true then Process.cancels (.ended r.exitCode r.killed)
      else .ended r.exitCode r.killed).Honest false ↔ (r.killed = true → r.cancels = true) := by
    cases r.cancels with
    | true => exact ⟨fun _ _ => rfl, fun _ => Process.honest_true _⟩
    | false => exact Iff.rfl
  -- the lines in front of the ending say nothing
  rw [← hending, Result.process]
  generalize r.lines = lines
  induction lines with
  | nil => exact Iff.rfl
  | cons line lines ih => exact ih

/-! ## Ways of starting commands -/

/-- Commands that are rehearsed have honest results; a shell needs no such care. -/
def Commands.Honest : Commands → Prop
  | .rehearsed r => ∀ command results, r.results.get? command = some results →
    ∀ result ∈ results, result.killed = true → result.cancels = true
  | .started _ => True

theorem Result.honest_launch {r : Result} (h : r.killed = true → r.cancels = true) :
    r.launch.Honest false := by
  rw [Result.launch]
  split
  · trivial
  · trivial
  · exact r.honest_iff.2 h

theorem Rehearsal.honest_launch {r : Rehearsal} (h : (Commands.rehearsed r).Honest)
    (command : String) :
    (r.launch command).1.Honest false ∧ (Commands.rehearsed (r.launch command).2).Honest := by
  rw [Rehearsal.launch]
  split
  · exact ⟨trivial, h⟩
  · split
    · exact ⟨fun hkilled => hkilled, h⟩
    · rename_i results hresults
      refine ⟨Result.honest_launch ?_, h⟩
      -- the result that is taken is one of those that were prepared, or has nothing to say
      cases htaken : results[min ((r.taken.get? command).getD 0) (results.length - 1)]? with
      | none => exact fun hkilled => (Bool.false_ne_true hkilled).elim
      | some result => exact h command results hresults result (List.mem_of_getElem? htaken)

/-- Commands that are started honestly come to honest processes, and go on to be so. -/
theorem Commands.honest_launch {c : Commands} (h : c.Honest) (disk : Files.Disk)
    (workingDir : Option Path) (shell command : String) :
    (c.launch disk workingDir shell command).1.Honest false ∧
      (c.launch disk workingDir shell command).2.Honest := by
  cases c with
  | rehearsed r => exact r.honest_launch h command
  | started environment =>
      rw [Commands.launch]
      split
      · rename_i process hprocess
        obtain ⟨p, rfl⟩ := performance_of_startCommand hprocess
        exact ⟨p.honest, trivial⟩
      · split
        · exact ⟨trivial, trivial⟩
        · exact ⟨trivial, trivial⟩

end Shell

end Runbook
