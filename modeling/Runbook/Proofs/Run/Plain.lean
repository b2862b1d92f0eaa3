import Runbook.Proofs.Run.Termination

/-!
# Plain workflows

A workflow is plain if none of its steps has conditions, an action for success or an action for
failure. A round of such a workflow runs its step in its turn and then either goes on with the step
behind it or ends the run as failed (`Course.Lap.plain`). So a run whose checks let it go on runs the
steps one after another up to the first one that fails (`Course.Straight`, `Course.Whole.straight`),
and no step on the side.
-/

set_option autoImplicit false

namespace Runbook

/-- A step does its work and nothing depends on how that ends but the run itself. -/
structure Step.Plain (step : Step) : Prop where
  conditions : step.conditions = []
  onSuccess : step.onSuccess = none
  onFailure : step.onFailure = none

/-- All steps of a workflow are plain. -/
def Workflow.Plain (w : Workflow) : Prop := ∀ step ∈ w.steps, step.Plain

theorem Workflow.Plain.forward {w : Workflow} (h : w.Plain) : w.Forward := by
  intro position step hstep action haction
  have hplain := h step (List.mem_of_getElem? hstep)
  simp [Step.actions, hplain.conditions, hplain.onSuccess, hplain.onFailure] at haction

namespace Run.Course

/-! ## One round -/

section Lap

variable {w : Workflow} {step : Step} {outcome : Outcome} {position : Nat}
  {s : Transcript Task.Reply}

theorem choice_of_plain (h : step.Plain) : choice step outcome = .ok none := by
  rw [choice, h.conditions]
  rfl

theorem hook_of_plain (h : step.Plain) : hook step outcome = none := by
  rw [hook, h.onFailure, h.onSuccess, ite_self]

theorem ConditionPass.plain {r : Except Break Next} (h : ConditionPass w step outcome position s r)
    (hplain : step.Plain) : (∃ events, s = said events) ∧ r = .ok (.goOn position) := by
  cases h with
  | broke events fault hchoice => cases (choice_of_plain hplain).symm.trans hchoice
  | passed events hchoice _ hpassed =>
      cases (choice_of_plain hplain).symm.trans hchoice
      cases hpassed
      exact ⟨⟨events, List.append_nil _⟩, rfl⟩

/-- Whether a run goes on behind a plain step depends on whether the step failed. -/
inductive Settled (position : Nat) (outcome : Outcome) : Except Break Next → Prop
  | failed : outcome.failure.isSome = true → Settled position outcome (.ok (.ended .failed))
  | wentOn : outcome.failure = none → Settled position outcome (.ok (.goOn (position + 1)))

theorem HookPass.plain {r : Except Break Next} (h : HookPass w step outcome position s r)
    (hplain : step.Plain) :
    (∃ events, s = said events) ∧ Settled position outcome (r.map advance) := by
  cases h with
  | failed failure hfailure => exact ⟨⟨_, rfl⟩, .failed (by rw [hfailure]; rfl)⟩
  | passed events hhandled _ hpassed =>
      rw [hook_of_plain hplain] at hpassed
      cases hpassed
      -- there is no action for failure, so the step has not failed
      have hnone : outcome.failure = none := by
        cases hfailure : outcome.failure with
        | none => rfl
        | some failure => simp [hfailure, hplain.onFailure] at hhandled
      exact ⟨⟨events, List.append_nil _⟩, .wentOn hnone⟩

/-- A round of a plain step that is not cancelled runs the step and says what became of it. -/
theorem Lap.plain {r : Except Break Next} (h : Lap w position step s r) (hplain : step.Plain)
    (hcalm : sawCancellation s = false) :
    (∃ line b, s = [⟨.check, false⟩, ⟨.tell line, ()⟩, ⟨.turn position step, .error b⟩] ∧
        r = .error b) ∨
      ∃ line outcome events, s = opening position step line outcome ++ said events ∧
        Settled position outcome r := by
  cases h with
  | stopped => simp [isCancellation] at hcalm
  | broke line b => exact .inl ⟨line, b, rfl, rfl⟩
  | cancelled line outcome requested _ hstop =>
      rw [sawCancellation_append, Bool.or_eq_false_iff] at hcalm
      simp [isCancellation] at hcalm
      rw [hcalm.1, hcalm.2] at hstop
      cases hstop
  | judged line outcome _ _ hcondition hnot => exact absurd (hcondition.plain hplain).2 (hnot _)
  | hooked line outcome _ _ hcondition hhook =>
      obtain ⟨⟨before, rfl⟩, hthere⟩ := hcondition.plain hplain
      cases hthere
      obtain ⟨⟨after, rfl⟩, hsettled⟩ := hhook.plain hplain
      exact .inr ⟨line, outcome, before ++ after, by rw [said_append], hsettled⟩

end Lap

/-! ## All rounds -/

/-- The exchanges in which steps were run. -/
def stepped (s : Transcript Task.Reply) : Transcript Task.Reply :=
  s.filter fun x => x.1.step?.isSome

@[simp] theorem stepped_append (s t : Transcript Task.Reply) :
    stepped (s ++ t) = stepped s ++ stepped t := List.filter_append ..

@[simp] theorem stepped_said (events : List Event) : stepped (said events) = [] := by
  simp [stepped, said, Task.step?]

theorem stepped_opening {position : Nat} {step : Step} {line : Event} {outcome : Outcome} :
    stepped (opening position step line outcome) = [⟨.turn position step, .ok outcome⟩] := rfl

/-- A step was run and failed. -/
def Fails (x : Exchange Task.Reply) : Prop :=
  ∃ outcome, result? x = some (.ok outcome) ∧ outcome.failure.isSome = true

/-- From a position on, steps are run one after another up to the first one that fails. -/
inductive Straight : Nat → List Step → Transcript Task.Reply → Status → Prop
  | finished (position : Nat) : Straight position [] [] .completed
  | failed (position : Nat) {step : Step} (rest : List Step) {outcome : Outcome} :
      outcome.failure.isSome = true →
      Straight position (step :: rest) [⟨.turn position step, .ok outcome⟩] .failed
  | next {position : Nat} {step : Step} {rest : List Step} {outcome : Outcome}
      {s : Transcript Task.Reply} {status : Status} :
      outcome.failure = none → Straight (position + 1) rest s status →
      Straight position (step :: rest) (⟨.turn position step, .ok outcome⟩ :: s) status

section Laps

variable {w : Workflow} {limit position : Nat} {s : Transcript Task.Reply}

theorem Laps.straight {status : Status} (h : Laps w limit position s (.ok status))
    (hplain : w.Plain) (hcalm : sawCancellation s = false) :
    Straight position (w.steps.drop position) (stepped s) status := by
  -- by induction on the limit, of which each round takes one
  induction limit generalizing position s with
  | zero => cases h
  | succ limit ih =>
      cases h with
      | past hpast =>
          rw [List.drop_eq_nil_of_le (List.getElem?_eq_none_iff.1 hpast), stepped_said]
          exact .finished position
      | ended hstep hlap =>
          obtain ⟨hlt, rfl⟩ := List.getElem?_eq_some_iff.1 hstep
          rcases hlap.plain (hplain _ (List.mem_of_getElem? hstep)) hcalm with
            ⟨line, b, -, hr⟩ | ⟨line, outcome, events, rfl, hsettled⟩
          · cases hr
          · cases hsettled with
            | failed hfailure =>
                rw [List.drop_eq_getElem_cons hlt, stepped_append, stepped_opening, stepped_said,
                  List.append_nil]
                exact .failed position _ hfailure
      | next hstep hlap hlaps =>
          obtain ⟨hlt, rfl⟩ := List.getElem?_eq_some_iff.1 hstep
          rw [sawCancellation_append, Bool.or_eq_false_iff] at hcalm
          rcases hlap.plain (hplain _ (List.mem_of_getElem? hstep)) hcalm.1 with
            ⟨line, b, -, hr⟩ | ⟨line, outcome, events, rfl, hsettled⟩
          · cases hr
          · cases hsettled with
            | wentOn hnone =>
                have hrest := ih hlaps hcalm.2
                rw [List.drop_eq_getElem_cons hlt, stepped_append, stepped_append, stepped_opening,
                  stepped_said, List.append_nil]
                exact .next hnone hrest

/-- Only a step breaks the rounds of a plain workflow off, or the limit does. -/
theorem Laps.mem_breaks_of_crash {crash : Crash}
    (h : Laps w limit position s (.error (.crash crash))) (hplain : w.Plain)
    (hcalm : sawCancellation s = false) : .crash crash ∈ breaks s := by
  induction limit generalizing position s with
  | zero => cases h
  | succ limit ih =>
      cases h with
      | broke hstep hlap =>
          rcases hlap.plain (hplain _ (List.mem_of_getElem? hstep)) hcalm with
            ⟨line, b, rfl, hr⟩ | ⟨line, outcome, events, -, hsettled⟩
          · cases hr
            simp [broke?, result?]
          · cases hsettled
      | next _ _ hlaps =>
          rw [sawCancellation_append, Bool.or_eq_false_iff] at hcalm
          rw [breaks_append]
          exact List.mem_append_right _ (ih hlaps hcalm.2)

/-- A run of a plain workflow that is neither cancelled nor broken off runs the steps of the workflow
in order. -/
theorem Whole.straight {status : Status} (h : Whole w limit s (.ok status)) (hplain : w.Plain)
    (hcalm : sawCancellation s = false) (hbreaks : breaks s = []) :
    Straight 0 w.steps (stepped s) status := by
  cases h with
  | ended hlaps =>
      simp only [sawCancellation_append, sawCancellation_said, Bool.false_or, Bool.or_false] at hcalm
      simp only [stepped_append, stepped_said, List.nil_append, List.append_nil]
      exact hlaps.straight hplain hcalm
  | crashed hlaps =>
      simp only [sawCancellation_append, sawCancellation_said, Bool.false_or, Bool.or_false] at hcalm
      simp only [breaks_append, breaks_said, List.nil_append, List.append_nil] at hbreaks
      have hmem := hlaps.mem_breaks_of_crash hplain hcalm
      rw [hbreaks] at hmem
      cases hmem

end Laps

section Straight

variable {position : Nat} {steps : List Step} {s : Transcript Task.Reply} {status : Status}

theorem Straight.failed_iff (h : Straight position steps s status) :
    status = .failed ↔ ∃ x ∈ s, Fails x := by
  induction h with
  | finished => simp
  | failed position rest hfailure =>
      exact ⟨fun _ => ⟨_, List.mem_singleton_self _, _, rfl, hfailure⟩, fun _ => rfl⟩
  | @next position step rest outcome s status hnone _ ih =>
      -- the first step has not failed
      have hfirst : ¬ Fails ⟨.turn position step, .ok outcome⟩ := by
        rintro ⟨outcome', hresult, hfailure⟩
        cases hresult
        rw [hnone] at hfailure
        cases hfailure
      rw [ih]
      simp [hfirst]

end Straight

end Run.Course

end Runbook
