import Runbook.Proofs.Run.Course

/-!
# How the rounds of a run end

A run ends because its rounds do, in one of the ways of `Course.Closing`, or because an error leaves
them (`Course.Whole.closing`). Up to then its course is `Course.Still`: it sets no status and says
nothing that begins like a last line.

`Course.Closing` keeps the status together with what the course shows: whether some check was told to
stop (`Course.sawCancellation`), and what the last step that was run in its turn led to. Where a run
goes on behind such a step is `Course.nextPosition?`.
-/

set_option autoImplicit false

namespace Runbook.Run

namespace Course

/-! ## What the course of a run shows -/

/-- Whether an exchange neither ends the run nor has a terminal line. -/
def isStill (x : Exchange Task.Reply) : Bool :=
  match x.1 with
  | .tell event => event.isQuiet
  | _ => true

/-- Whether a check says that the run is to stop, or the step run in its turn was stopped. -/
def isCancellation : Exchange Task.Reply → Bool
  | ⟨.check, requested⟩ => requested
  | ⟨.turn _ _, .ok outcome⟩ => outcome.isCancelled
  | _ => false

/-- Whether an error is made known that left the rounds. -/
def isCrash (x : Exchange Task.Reply) : Bool :=
  match x.1 with
  | .tell (.crashed _) => true
  | _ => false

/-- The position, step and outcome of a step that was run in its turn. -/
def turn? : Exchange Task.Reply → Option (Nat × Step × Outcome)
  | ⟨.turn position step, .ok outcome⟩ => some (position, step, outcome)
  | _ => none

/-- Nothing in the exchanges ends the run. -/
def Still (s : Transcript Task.Reply) : Prop := ∀ x ∈ s, isStill x = true

/-- Whether some check saw that the run was to stop, or a step run in its turn was stopped. -/
def sawCancellation (s : Transcript Task.Reply) : Bool := s.any isCancellation

/-- Whether an error left the rounds. -/
def sawCrash (s : Transcript Task.Reply) : Bool := s.any isCrash

/-- The steps that were run in their turn and came to an outcome, in order. -/
def turns (s : Transcript Task.Reply) : List (Nat × Step × Outcome) := s.filterMap turn?

/-- Nothing in the exchanges ends the run or gives it a reason to stop. -/
def Calm (s : Transcript Task.Reply) : Prop := Still s ∧ sawCancellation s = false

@[simp] theorem still_nil : Still [] := fun _ h => nomatch h

@[simp] theorem still_cons_iff {x : Exchange Task.Reply} {s : Transcript Task.Reply} :
    Still (x :: s) ↔ isStill x = true ∧ Still s := List.forall_mem_cons

@[simp] theorem still_append_iff {s t : Transcript Task.Reply} :
    Still (s ++ t) ↔ Still s ∧ Still t := List.forall_mem_append

@[simp] theorem still_said_iff {events : List Event} : Still (said events) ↔ Quiet events := by
  simp [Still, said, isStill, Quiet]

@[simp] theorem sawCancellation_nil : sawCancellation [] = false := rfl

@[simp] theorem sawCancellation_cons (x : Exchange Task.Reply) (s : Transcript Task.Reply) :
    sawCancellation (x :: s) = (isCancellation x || sawCancellation s) := rfl

@[simp] theorem sawCancellation_append (s t : Transcript Task.Reply) :
    sawCancellation (s ++ t) = (sawCancellation s || sawCancellation t) := List.any_append

@[simp] theorem sawCancellation_said (events : List Event) :
    sawCancellation (said events) = false := by
  simp [sawCancellation, said, isCancellation]

@[simp] theorem sawCrash_append (s t : Transcript Task.Reply) :
    sawCrash (s ++ t) = (sawCrash s || sawCrash t) := List.any_append

@[simp] theorem turns_append (s t : Transcript Task.Reply) :
    turns (s ++ t) = turns s ++ turns t := List.filterMap_append

@[simp] theorem turns_said (events : List Event) : turns (said events) = [] := by
  simp [turns, said, turn?]

theorem calm_append_iff {s t : Transcript Task.Reply} : Calm (s ++ t) ↔ Calm s ∧ Calm t := by
  simp only [Calm, still_append_iff, sawCancellation_append, Bool.or_eq_false_iff]
  exact and_and_and_comm

theorem calm_said {events : List Event} (h : Quiet events) : Calm (said events) :=
  ⟨still_said_iff.2 h, sawCancellation_said events⟩

/-- A crash is no still exchange. -/
theorem sawCrash_eq_false_of_still {s : Transcript Task.Reply} (h : Still s) :
    sawCrash s = false := by
  rw [sawCrash, List.any_eq_false]
  intro x hx hcrash
  have hstill := h x hx
  unfold isCrash at hcrash
  split at hcrash
  · rename_i crash hq
    rw [isStill, hq] at hstill
    cases hstill
  · cases hcrash

/-! ## What a step leads to -/

section Closing

variable (w : Workflow)

/-- Where the action that is taken, if there is one, leaves a run that stands at a position. -/
def landed (action : Option Action) (position : Nat) : Effect :=
  match action with
  | none => .at_ position
  | some action => landing w action position

/-- Whether an action ends the run. -/
def stops (action : Option Action) : Bool := action.any fun action => action.verb == .stop

/-- Whether the first condition that holds ends the run. -/
def conditionStops (step : Step) (outcome : Outcome) : Bool :=
  match choice step outcome with
  | .ok action => stops action
  | .error _ => false

/-- Whether the action for failure or success ends the run. -/
def hookStops (step : Step) (outcome : Outcome) : Bool := stops (hook step outcome)

/-- Whether a step failed with no action for failure, and no condition ended the run before. -/
def failsUnhandled (step : Step) (outcome : Outcome) : Bool :=
  outcome.failure.isSome && step.onFailure.isNone && !conditionStops step outcome

/-- Where a run goes on behind a step that was run in its turn, unless it ends there. -/
def nextPosition? (position : Nat) (step : Step) (outcome : Outcome) : Option Nat :=
  match choice step outcome with
  | .error _ => none
  | .ok action =>
    match landed w action position with
    | .stop => none
    | .at_ there =>
      if outcome.failure.isSome && step.onFailure.isNone then none
      else
        match landed w (hook step outcome) there with
        | .stop => none
        | .at_ there => some (there + 1)

/-- Where a run from a position on stands behind the last step that was run in its turn. -/
def standing (position : Nat) (s : Transcript Task.Reply) : Option Nat :=
  match (turns s).getLast? with
  | none => some position
  | some (at_, step, outcome) => nextPosition? w at_ step outcome

/-- How the rounds from a position on end: with a status and with the last events, after the
exchanges `s`. -/
inductive Closing (position : Nat) (s : Transcript Task.Reply) : Status → List Event → Prop
  | passed {there : Nat} : Calm s → standing w position s = some there → w.steps.length ≤ there →
      Closing position s .completed (farewell .completed "" "Workflow completed successfully")
  | byCondition {at_ : Nat} {step : Step} {outcome : Outcome} : Calm s →
      (turns s).getLast? = some (at_, step, outcome) → conditionStops step outcome = true →
      Closing position s .completed (farewell .completed "" "Workflow stopped by condition")
  | byHook {at_ : Nat} {step : Step} {outcome : Outcome} : Calm s →
      (turns s).getLast? = some (at_, step, outcome) → hookStops step outcome = true →
      Closing position s .completed
        (farewell .completed "" ("Workflow stopped by " ++ hookName outcome))
  | failed {at_ : Nat} {step : Step} {outcome : Outcome} (failure : Failure)
      (before : Transcript Task.Reply) : Calm s →
      (turns s).getLast? = some (at_, step, outcome) → failsUnhandled step outcome = true →
      outcome.failure = some failure →
      s = before ++ said [remark step.id ("Step failed: " ++ failure.message) .error] →
      Closing position s .failed
        (farewell .failed "" ("Workflow failed at step: " ++ step.displayName) .error)
  | cancelled (stepId : String) : Still s → sawCancellation s = true →
      Closing position s .cancelled (cancelledFarewell stepId)

variable {w : Workflow}

theorem landed_eq_stop_iff {action : Option Action} {position : Nat} :
    landed w action position = .stop ↔ stops action = true := by
  cases action with
  | none => simp [landed, stops]
  | some action =>
      simp only [landed, landing, stops, Option.any_some, beq_iff_eq]
      cases action.verb <;> simp

/-! ## Parts of a round -/

theorem Acted.calm {action : Action} {position : Nat} {s : Transcript Task.Reply}
    {r : Except Break Effect} (h : Acted w action position s r) : Calm s ∧ turns s = [] := by
  -- the steps that an action runs are not run in their turn
  cases h with
  | plain events _ hquiet => exact ⟨calm_said hquiet, turns_said _⟩
  | side before after step outcome _ hbefore hafter =>
      refine ⟨⟨?_, ?_⟩, ?_⟩
      · simp [hbefore, hafter, isStill]
      · simp [isCancellation]
      · simp [turns, turn?, said]
  | broke before step b _ hbefore =>
      refine ⟨⟨?_, ?_⟩, ?_⟩
      · simp [hbefore, isStill]
      · simp [isCancellation]
      · simp [turns, turn?, said]

theorem Acted.effect_eq {action : Action} {position : Nat} {s : Transcript Task.Reply}
    {effect : Effect} (h : Acted w action position s (.ok effect)) :
    effect = landing w action position := by
  cases h <;> rfl

/-- How an action with the check behind it can end the run, after the exchanges `s`. -/
inductive PassClosing (stepId reason : String) (action : Option Action)
    (s : Transcript Task.Reply) : Status → List Event → Prop
  | stopped : Calm s → stops action = true →
      PassClosing stepId reason action s .completed
        (farewell .completed "" ("Workflow stopped by " ++ reason))
  | cancelled : Still s → sawCancellation s = true →
      PassClosing stepId reason action s .cancelled (cancelledFarewell stepId)

section Passed

variable {step : Step} {position : Nat} {reason : String} {action : Option Action}
  {s : Transcript Task.Reply}

theorem calm_snoc_check (h : Calm s) : Calm (s ++ [⟨.check, false⟩]) := by
  refine calm_append_iff.2 ⟨h, ?_, ?_⟩
  · simp [isStill]
  · simp [isCancellation]

theorem Passed.goOn {there : Nat} (h : Passed w step position reason action s (.ok (.goOn there))) :
    Calm s ∧ turns s = [] ∧ landed w action position = .at_ there := by
  cases h with
  | nothing => exact ⟨calm_said quiet_nil, rfl, rfl⟩
  | wentOn hact =>
      refine ⟨calm_snoc_check hact.calm.1, ?_, hact.effect_eq.symm⟩
      rw [turns_append, hact.calm.2]
      rfl

theorem Passed.error {b : Break} (h : Passed w step position reason action s (.error b)) :
    Calm s ∧ turns s = [] := by
  cases h with
  | broke hact => exact hact.calm

theorem Passed.ended {status : Status}
    (h : Passed w step position reason action s (.ok (.ended status))) :
    ∃ before last, s = before ++ said last ∧ turns before = [] ∧
      PassClosing step.id reason action before status last := by
  cases h with
  | @cancelled a s' effect hact =>
      refine ⟨s' ++ [⟨.check, true⟩], _, by simp, ?_, .cancelled ?_ ?_⟩
      · rw [turns_append, hact.calm.2]
        rfl
      · simpa [isStill] using hact.calm.1.1
      · simp [isCancellation]
  | @stopped a s' hact =>
      refine ⟨s' ++ [⟨.check, false⟩], _, by simp, ?_, .stopped (calm_snoc_check hact.calm.1) ?_⟩
      · rw [turns_append, hact.calm.2]
        rfl
      · exact landed_eq_stop_iff.1 hact.effect_eq.symm

end Passed

section Passes

variable {step : Step} {outcome : Outcome} {position : Nat} {s : Transcript Task.Reply}

theorem ConditionPass.goOn {there : Nat}
    (h : ConditionPass w step outcome position s (.ok (.goOn there))) :
    Calm s ∧ turns s = [] ∧
      ∃ action, choice step outcome = .ok action ∧ landed w action position = .at_ there := by
  cases h with
  | passed events hchoice hquiet hpassed =>
      obtain ⟨hcalm, hturns, hlanded⟩ := hpassed.goOn
      exact ⟨calm_append_iff.2 ⟨calm_said hquiet, hcalm⟩, by simpa using hturns, _, hchoice,
        hlanded⟩

theorem ConditionPass.error {b : Break} (h : ConditionPass w step outcome position s (.error b)) :
    Calm s ∧ turns s = [] := by
  cases h with
  | broke events fault _ hquiet => exact ⟨calm_said hquiet, turns_said _⟩
  | passed events _ hquiet hpassed =>
      obtain ⟨hcalm, hturns⟩ := hpassed.error
      exact ⟨calm_append_iff.2 ⟨calm_said hquiet, hcalm⟩, by simpa using hturns⟩

theorem PassClosing.after_said {stepId reason : String} {action : Option Action} {status : Status}
    {last : List Event} {events : List Event} (hquiet : Quiet events)
    (h : PassClosing stepId reason action s status last) :
    PassClosing stepId reason action (said events ++ s) status last := by
  cases h with
  | stopped hcalm hstops => exact .stopped (calm_append_iff.2 ⟨calm_said hquiet, hcalm⟩) hstops
  | cancelled hstill hsaw => exact .cancelled (by simp [hquiet, hstill]) (by simp [hsaw])

theorem ConditionPass.ended {status : Status}
    (h : ConditionPass w step outcome position s (.ok (.ended status))) :
    ∃ action before last, choice step outcome = .ok action ∧ s = before ++ said last ∧
      turns before = [] ∧ PassClosing step.id "condition" action before status last := by
  cases h with
  | @passed events action s' _ hchoice hquiet hpassed =>
      obtain ⟨before, last, rfl, hturns, hclosing⟩ := hpassed.ended
      exact ⟨action, said events ++ before, last, hchoice, by simp, by simpa using hturns,
        hclosing.after_said hquiet⟩

theorem HookPass.goOn {there : Nat} (h : HookPass w step outcome position s (.ok (.goOn there))) :
    Calm s ∧ turns s = [] ∧ (outcome.failure.isSome → step.onFailure.isSome) ∧
      landed w (hook step outcome) position = .at_ there := by
  cases h with
  | passed events hhandled hquiet hpassed =>
      obtain ⟨hcalm, hturns, hlanded⟩ := hpassed.goOn
      exact ⟨calm_append_iff.2 ⟨calm_said hquiet, hcalm⟩, by simpa using hturns, hhandled, hlanded⟩

theorem HookPass.error {b : Break} (h : HookPass w step outcome position s (.error b)) :
    Calm s ∧ turns s = [] := by
  cases h with
  | passed events _ hquiet hpassed =>
      obtain ⟨hcalm, hturns⟩ := hpassed.error
      exact ⟨calm_append_iff.2 ⟨calm_said hquiet, hcalm⟩, by simpa using hturns⟩

theorem HookPass.ended {status : Status}
    (h : HookPass w step outcome position s (.ok (.ended status))) :
    (∃ failure, outcome.failure = some failure ∧ step.onFailure = none ∧ status = .failed ∧
        s = said (remark step.id ("Step failed: " ++ failure.message) .error ::
          farewell .failed "" ("Workflow failed at step: " ++ step.displayName) .error)) ∨
      ∃ before last, s = before ++ said last ∧ turns before = [] ∧
        PassClosing step.id (hookName outcome) (hook step outcome) before status last := by
  cases h with
  | failed failure hfailure hnone => exact .inl ⟨failure, hfailure, hnone, rfl, rfl⟩
  | passed events _ hquiet hpassed =>
      obtain ⟨before, last, rfl, hturns, hclosing⟩ := hpassed.ended
      exact .inr ⟨said events ++ before, last, by simp, by simpa using hturns,
        hclosing.after_said hquiet⟩

end Passes

/-! ## Rounds -/

section Lap

variable {position : Nat} {step : Step} {s : Transcript Task.Reply}

theorem calm_opening {line : Event} {outcome : Outcome} (hline : line.isQuiet = true)
    (hnot : outcome.isCancelled = false) : Calm (opening position step line outcome) := by
  refine ⟨?_, ?_⟩
  · simp [opening, isStill, hline]
  · simp [opening, isCancellation, hnot]

theorem turns_opening {line : Event} {outcome : Outcome} :
    turns (opening position step line outcome) = [(position, step, outcome)] := rfl

theorem advance_eq_goOn {next : Next} {there : Nat} (h : advance next = .goOn there) :
    ∃ before, next = .goOn before ∧ there = before + 1 := by
  cases next with
  | goOn before => exact ⟨before, rfl, (Next.goOn.inj h).symm⟩
  | ended status => cases h

theorem Lap.goOn {there : Nat} (h : Lap w position step s (.ok (.goOn there))) :
    Calm s ∧ ∃ outcome, turns s = [(position, step, outcome)] ∧
      nextPosition? w position step outcome = some there := by
  generalize hr : Except.ok (Next.goOn there) = r at h
  cases h with
  | stopped => cases hr
  | broke => cases hr
  | cancelled => cases hr
  | judged _ _ _ _ _ hnot => exact absurd hr.symm (hnot there)
  | @hooked line outcome s₁ s₂ between r hline hnot hcondition hhook =>
      cases r with
      | error b => cases hr
      | ok next =>
          obtain ⟨last, rfl, rfl⟩ := advance_eq_goOn (Except.ok.inj hr).symm
          obtain ⟨hcalm₁, hturns₁, action, hchoice, hlanded₁⟩ := hcondition.goOn
          obtain ⟨hcalm₂, hturns₂, hhandled, hlanded₂⟩ := hhook.goOn
          refine ⟨calm_append_iff.2 ⟨calm_opening hline hnot, calm_append_iff.2 ⟨hcalm₁, hcalm₂⟩⟩,
            outcome, ?_, ?_⟩
          · simp [turns_opening, hturns₁, hturns₂]
          -- a failure that went on had an action for it
          · have hhandled : ¬ (outcome.failure.isSome && step.onFailure.isNone) = true := by
              cases hf : outcome.failure.isSome <;> cases hn : step.onFailure <;> simp_all
            simp only [nextPosition?, hchoice, hlanded₁, if_neg hhandled, hlanded₂]

theorem Lap.error {b : Break} (h : Lap w position step s (.error b)) : Calm s := by
  generalize hr : (Except.error b : Except Break Next) = r at h
  cases h with
  | stopped => cases hr
  | broke line b hline => exact ⟨by simp [isStill, hline], rfl⟩
  | cancelled => cases hr
  | judged line outcome hline hnot hcondition _ =>
      subst hr
      exact calm_append_iff.2 ⟨calm_opening hline hnot, hcondition.error.1⟩
  | @hooked line outcome s₁ s₂ between r hline hnot hcondition hhook =>
      cases r with
      | ok next => cases hr
      | error b' =>
          exact calm_append_iff.2 ⟨calm_opening hline hnot,
            calm_append_iff.2 ⟨hcondition.goOn.1, hhook.error.1⟩⟩

/-- A pass that ends the run behind the step ends the rounds. -/
theorem PassClosing.closing {outcome : Outcome} {reason stepId : String} {action : Option Action}
    {first : Transcript Task.Reply} {status : Status} {last : List Event} (hfirst : Calm first)
    (hturns : (turns (first ++ s)).getLast? = some (position, step, outcome))
    (hstops : stops action = true →
      reason = "condition" ∧ conditionStops step outcome = true ∨
        reason = hookName outcome ∧ hookStops step outcome = true)
    (h : PassClosing stepId reason action s status last) :
    Closing w position (first ++ s) status last := by
  cases h with
  | stopped hcalm haction =>
      have hcalm := calm_append_iff.2 ⟨hfirst, hcalm⟩
      rcases hstops haction with ⟨rfl, hcond⟩ | ⟨rfl, hhook⟩
      · exact .byCondition hcalm hturns hcond
      · exact .byHook hcalm hturns hhook
  | cancelled hstill hsaw =>
      exact .cancelled stepId (still_append_iff.2 ⟨hfirst.1, hstill⟩) (by simp [hsaw])

theorem Lap.ended {status : Status} (h : Lap w position step s (.ok (.ended status))) :
    ∃ before last, s = before ++ said last ∧ Closing w position before status last := by
  generalize hr : Except.ok (Next.ended status) = r at h
  cases h with
  | stopped =>
      cases hr
      exact ⟨[⟨.check, true⟩], _, rfl, .cancelled _ (by simp [isStill]) rfl⟩
  | broke => cases hr
  | cancelled line outcome requested hline hstop =>
      cases hr
      refine ⟨_, _, rfl, .cancelled _ (by simp [isStill, hline]) ?_⟩
      simpa [isCancellation, or_comm] using hstop
  | judged line outcome hline hnot hcondition _ =>
      subst hr
      obtain ⟨action, before, last, hchoice, rfl, hturns, hclosing⟩ := hcondition.ended
      have hlast : (turns (opening position step line outcome ++ before)).getLast? =
          some (position, step, outcome) := by
        rw [turns_append, turns_opening, hturns]
        rfl
      exact ⟨opening position step line outcome ++ before, last, by simp,
        hclosing.closing (calm_opening hline hnot) hlast fun hstops =>
          .inl ⟨rfl, by simpa [conditionStops, hchoice] using hstops⟩⟩
  | @hooked line outcome s₁ s₂ between r hline hnot hcondition hhook =>
      obtain ⟨hcalm, hturns₁, action, hchoice, hlanded⟩ := hcondition.goOn
      have hfirst : Calm (opening position step line outcome ++ s₁) :=
        calm_append_iff.2 ⟨calm_opening hline hnot, hcalm⟩
      obtain rfl : r = .ok (.ended status) := by
        cases r with
        | error b => cases hr
        | ok next => cases next <;> cases hr; rfl
      obtain ⟨failure, hfailure, hnone, rfl, rfl⟩ | ⟨before, last, rfl, hturns₂, hclosing⟩ :=
        hhook.ended
      -- the condition did not end the run, or the hook would not have been reached
      · have hgone : ¬ stops action = true := fun hstops => by
          rw [landed_eq_stop_iff.2 hstops] at hlanded
          cases hlanded
        have hfails : failsUnhandled step outcome = true := by
          simp [failsUnhandled, hfailure, hnone, conditionStops, hchoice, hgone]
        have hlast : (turns (opening position step line outcome ++ s₁ ++
            said [remark step.id ("Step failed: " ++ failure.message) .error])).getLast? =
            some (position, step, outcome) := by
          simp only [turns_append, turns_opening, hturns₁, turns_said]
          rfl
        exact ⟨_, _, by simp, .failed failure _
          (calm_append_iff.2 ⟨hfirst, calm_said (quiet_remark (by decide))⟩) hlast hfails hfailure
          rfl⟩
      · refine ⟨opening position step line outcome ++ s₁ ++ before, last, by simp,
          hclosing.closing hfirst ?_ fun hstops => .inr ⟨rfl, hstops⟩⟩
        simp [turns_opening, hturns₁, hturns₂]

end Lap

/-! ## Whole runs -/

section Whole

variable {limit position : Nat} {s : Transcript Task.Reply}

theorem standing_append {position at_ : Nat} {step : Step} {outcome : Outcome}
    {s s' : Transcript Task.Reply} {there : Nat} (hturns : turns s = [(at_, step, outcome)])
    (hnext : nextPosition? w at_ step outcome = some there) :
    standing w position (s ++ s') = standing w there s' := by
  rw [standing, standing, turns_append, hturns]
  -- the last turn of all is that of the later rounds, if they have one
  cases hlast : (turns s').getLast? with
  | none => simp [List.getLast?_eq_none_iff.1 hlast, hnext]
  | some turn => rw [List.getLast?_append, hlast, Option.some_or]

theorem getLast?_turns_append {turn : Nat × Step × Outcome} {s s' : Transcript Task.Reply}
    (h : (turns s').getLast? = some turn) : (turns (s ++ s')).getLast? = some turn := by
  simp [List.getLast?_append, h]

theorem Closing.still {status : Status} {last : List Event}
    (h : Closing w position s status last) : Still s := by
  cases h with
  | passed hcalm => exact hcalm.1
  | byCondition hcalm => exact hcalm.1
  | byHook hcalm => exact hcalm.1
  | failed _ _ hcalm => exact hcalm.1
  | cancelled _ hstill => exact hstill

/-- Rounds that go on end as the rounds behind them. -/
theorem Closing.after {at_ : Nat} {step : Step} {outcome : Outcome}
    {s s' : Transcript Task.Reply} {there : Nat} {status : Status} {last : List Event}
    (hcalm : Calm s) (hturns : turns s = [(at_, step, outcome)])
    (hnext : nextPosition? w at_ step outcome = some there) (h : Closing w there s' status last) :
    Closing w position (s ++ s') status last := by
  cases h with
  | passed hcalm' hstanding hpast =>
      exact .passed (calm_append_iff.2 ⟨hcalm, hcalm'⟩)
        ((standing_append hturns hnext).trans hstanding) hpast
  | byCondition hcalm' hlast hstops =>
      exact .byCondition (calm_append_iff.2 ⟨hcalm, hcalm'⟩) (getLast?_turns_append hlast) hstops
  | byHook hcalm' hlast hstops =>
      exact .byHook (calm_append_iff.2 ⟨hcalm, hcalm'⟩) (getLast?_turns_append hlast) hstops
  | failed failure before hcalm' hlast hfails hfailure hbefore =>
      subst hbefore
      exact .failed failure (s ++ before) (calm_append_iff.2 ⟨hcalm, hcalm'⟩)
        (getLast?_turns_append hlast) hfails hfailure (List.append_assoc ..).symm
  | cancelled stepId hstill hsaw =>
      exact .cancelled stepId (still_append_iff.2 ⟨hcalm.1, hstill⟩) (by simp [hsaw])

theorem Laps.ended_closing {status : Status} (h : Laps w limit position s (.ok status)) :
    ∃ before last, s = before ++ said last ∧ Closing w position before status last := by
  -- by induction on the limit; rounds that go on hand their closing on
  induction limit generalizing position s with
  | zero => cases h
  | succ limit ih =>
      cases h with
      | past hnone =>
          exact ⟨[], _, rfl, .passed (calm_said quiet_nil) rfl (List.getElem?_eq_none_iff.1 hnone)⟩
      | ended _ hlap => exact hlap.ended
      | next _ hlap hlaps =>
          obtain ⟨hcalm, outcome, hturns, hnext⟩ := hlap.goOn
          obtain ⟨before, last, rfl, hclosing⟩ := ih hlaps
          exact ⟨_, last, (List.append_assoc ..).symm, hclosing.after hcalm hturns hnext⟩

theorem Laps.error_calm {b : Break} (h : Laps w limit position s (.error b)) : Calm s := by
  induction limit generalizing position s with
  | zero =>
      cases h
      exact calm_said quiet_nil
  | succ limit ih =>
      cases h with
      | broke _ hlap => exact hlap.error
      | next _ hlap hlaps => exact calm_append_iff.2 ⟨hlap.goOn.1, ih hlaps⟩

/-- The last events of a run that an error ended. -/
def crashFarewell (crash : Crash) : List Event :=
  .crashed crash :: farewell .failed "" ("Execution failed: " ++ crash.message) .error

/-- A run that comes to a status has one way of ending. -/
theorem Whole.closing {status : Status} (h : Whole w limit s (.ok status)) :
    ∃ before last, s = said [firstRemark w] ++ before ++ said (last ++ [.closed]) ∧
      (Closing w 0 before status last ∨
        ∃ crash, Calm before ∧ status = .failed ∧ last = crashFarewell crash) := by
  cases h with
  | ended hlaps =>
      obtain ⟨before, last, rfl, hclosing⟩ := hlaps.ended_closing
      exact ⟨before, last, by simp, .inl hclosing⟩
  | crashed hlaps =>
      exact ⟨_, _, rfl, .inr ⟨_, hlaps.error_calm, rfl, rfl⟩⟩

/-- As long as a step is still to be run nothing has ended the run. -/
theorem Whole.still_before {a b : Transcript Task.Reply} {x : Exchange Task.Reply} {step : Step}
    {r : Except Break Status} (h : Whole w limit (a ++ x :: b) r) (hx : x.1.step? = some step) :
    Still a := by
  have hfirst : Still (said [firstRemark w]) :=
    still_said_iff.2 (quiet_cons_iff.2 ⟨isQuiet_remark (by decide), quiet_nil⟩)
  cases r with
  | error cause =>
      generalize hs : a ++ x :: b = s at h
      cases h with
      | outOfRounds hlaps =>
          have hstill := still_append_iff.2 ⟨hfirst, hlaps.error_calm.1⟩
          rw [← hs] at hstill
          exact (still_append_iff.1 hstill).1
  | ok status =>
      obtain ⟨before, last, hs, hending⟩ := h.closing
      have hstill : Still (said [firstRemark w] ++ before) := by
        refine still_append_iff.2 ⟨hfirst, ?_⟩
        rcases hending with hclosing | ⟨crash, hcalm, -⟩
        · exact hclosing.still
        · exact hcalm.1
      -- the step is not among the farewell, so it comes before it
      rcases append_eq_append_cons hs.symm with ⟨es, hes, -⟩ | ⟨es, -, hlast⟩
      · rw [hes] at hstill
        exact (still_append_iff.1 hstill).1
      · have hmem : x ∈ said (last ++ [.closed]) :=
          hlast ▸ List.mem_append_right _ (List.mem_cons_self ..)
        obtain ⟨event, -, rfl⟩ := List.mem_map.1 hmem
        cases hx

end Whole

end Closing

end Course

end Runbook.Run
