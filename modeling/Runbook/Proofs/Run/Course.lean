import Runbook.Proofs.Run.Transcript
import Runbook.Run.Course

/-!
# The ways of a course

What the course of a run can come to, as rules: `Acted` for an action, `Passed` for an action with
the check behind it, `ConditionPass` and `HookPass` for the two passes of a round, `Lap` for a round,
`Laps` for the rounds from a position on, and `Whole` for a run. Each rule says which tasks are asked
for, in order, with which replies, and what comes of them. `whole_of_yields` says that the rules
leave no way out: every transcript of a run follows them, whatever the replies are.

What an action does to the run apart from its log is `sideStep?`, the step that it runs on the side,
and `landing`, where it leaves the run.
-/

set_option autoImplicit false

namespace Runbook.Run

/-! ## Terminal lines -/

/-- The words with which the last line of a run begins. -/
def terminalWords : List String :=
  ["Workflow completed successfully", "Workflow stopped by ", "Workflow failed at step: ",
    "Execution failed: ", "Execution cancelled"]

/-- Whether a line begins like the last line of a run. -/
def isTerminalLine (message : String) : Bool :=
  terminalWords.any fun words => words.toList.isPrefixOf message.toList

/-- Whether two lists of characters differ where both have one. -/
def differ (as bs : List Char) : Bool := (as.zip bs).any fun (a, b) => a != b

theorem isPrefixOf_append_of_differ {as bs : List Char} (h : differ as bs = true)
    (more : List Char) : bs.isPrefixOf (as ++ more) = false := by
  induction as generalizing bs with
  | nil => simp [differ] at h
  | cons a as ih =>
      cases bs with
      | nil => simp [differ] at h
      | cons b bs =>
          -- they differ here, or further on
          simp only [differ, List.zip_cons_cons, List.any_cons, Bool.or_eq_true, bne_iff_ne] at h
          simp only [List.cons_append, List.isPrefixOf_cons_cons, Bool.and_eq_false_imp, beq_iff_eq]
          rintro rfl
          exact ih (h.resolve_left fun hne => hne rfl)

/-- A line that begins otherwise than each last line is none. -/
theorem isTerminalLine_append {first : String}
    (h : (terminalWords.all fun words => differ first.toList words.toList) = true)
    (more : String) : isTerminalLine (first ++ more) = false := by
  rw [isTerminalLine, List.any_eq_false]
  intro words hw
  rw [String.toList_append, isPrefixOf_append_of_differ (List.all_eq_true.1 h words hw)]
  exact Bool.false_ne_true

/-- Whether an event neither ends a run nor has a terminal line; what a command writes is no line of
the run's own. -/
def Event.isQuiet : Event → Bool
  | .entry e isOutput => isOutput || !isTerminalLine e.message
  | .passedOver _ => true
  | _ => false

/-- All events are quiet. -/
def Quiet (events : List Event) : Prop := ∀ e ∈ events, e.isQuiet = true

theorem quiet_nil : Quiet [] := fun _ h => nomatch h

theorem quiet_cons_iff {e : Event} {events : List Event} :
    Quiet (e :: events) ↔ e.isQuiet = true ∧ Quiet events := List.forall_mem_cons

theorem quiet_append_iff {as bs : List Event} : Quiet (as ++ bs) ↔ Quiet as ∧ Quiet bs :=
  List.forall_mem_append

/-- An entry that the run makes itself. -/
def remark (stepId message : String) (level : Level := .info) : Event :=
  .entry ⟨stepId, level, message⟩ false

/-- A remark that begins otherwise than each last line is quiet. -/
theorem isQuiet_remark {first : String}
    (h : (terminalWords.all fun words => differ first.toList words.toList) = true)
    {stepId more : String} {level : Level} :
    (remark stepId (first ++ more) level).isQuiet = true := by
  simp [remark, Event.isQuiet, isTerminalLine_append h]

theorem quiet_remark {first : String}
    (h : (terminalWords.all fun words => differ first.toList words.toList) = true)
    {stepId more : String} {level : Level} : Quiet [remark stepId (first ++ more) level] :=
  quiet_cons_iff.2 ⟨isQuiet_remark h, quiet_nil⟩

theorem isQuiet_stepRemark {stepId name : String} {position count : Nat} :
    (remark stepId s!"Step {position}/{count}: {name}").isQuiet = true := by
  -- the interpolated line begins with a word that no last line begins with
  have h : s!"Step {position}/{count}: {name}" =
      "Step " ++ (toString position ++ "/" ++ toString count ++ ": " ++ name) := by
    simp only [String.append_assoc, toString]
  rw [h]
  exact isQuiet_remark (by decide)

/-- The last entry of a run and its status. -/
def farewell (status : Status) (stepId message : String) (level : Level := .info) : List Event :=
  [remark stepId message level, .finished status stepId]

/-- A run ends because it is to stop. -/
def cancelledFarewell (stepId : String) : List Event :=
  farewell .cancelled stepId "Execution cancelled"

/-- The step that a task is to run. -/
def Task.step? : Task → Option Step
  | .turn _ step => some step
  | .aside step => some step
  | _ => none

namespace Course

/-- The exchanges in which events are made known. -/
def said (events : List Event) : Transcript Task.Reply := events.map fun e => ⟨.tell e, ()⟩

@[simp] theorem said_nil : said [] = [] := rfl

@[simp] theorem said_cons (e : Event) (events : List Event) :
    said (e :: events) = ⟨.tell e, ()⟩ :: said events := rfl

@[simp] theorem said_append (as bs : List Event) : said (as ++ bs) = said as ++ said bs :=
  List.map_append

/-! ## Rules -/

/-- The step that an action runs on the side. -/
def sideStep? (w : Workflow) (action : Action) : Option Step :=
  match action.verb with
  | .executeStep target => w.steps.find? (·.id == target)
  | _ => none

/-- Where an action leaves a run that stands at a position. -/
def landing (w : Workflow) (action : Action) (position : Nat) : Effect :=
  match action.verb with
  | .stop => .stop
  | .jumpTo target => .at_ ((w.position? target).getD position)
  | _ => .at_ position

/-- The action that is taken for failure or success. -/
def hook (step : Step) (outcome : Outcome) : Option Action :=
  if outcome.failure.isSome then step.onFailure else step.onSuccess

/-- The action of the first condition that holds. -/
def choice (step : Step) (outcome : Outcome) : Except Pattern.Fault (Option Action) :=
  (Condition.choose outcome.output outcome.exitCode step.conditions).action

/-- The error with which a condition breaks a run off. -/
def faultCrash (fault : Pattern.Fault) : Crash := ⟨fault.kind, fault.message ""⟩

section Rules

variable (w : Workflow)

/-- What taking an action comes to. -/
inductive Acted (action : Action) (position : Nat) :
    Transcript Task.Reply → Except Break Effect → Prop
  | plain (events : List Event) : sideStep? w action = none → Quiet events →
      Acted action position (said events) (.ok (landing w action position))
  | side (before after : List Event) (step : Step) (outcome : Outcome) :
      sideStep? w action = some step → Quiet before → Quiet after →
      Acted action position (said before ++ ⟨.aside step, .ok outcome⟩ :: said after)
        (.ok (landing w action position))
  | broke (before : List Event) (step : Step) (b : Break) :
      sideStep? w action = some step → Quiet before →
      Acted action position (said before ++ [⟨.aside step, .error b⟩]) (.error b)

/-- What taking an action, if there is one, and the check behind it come to. -/
inductive Passed (step : Step) (position : Nat) (reason : String) :
    Option Action → Transcript Task.Reply → Except Break Next → Prop
  | nothing : Passed step position reason none [] (.ok (.goOn position))
  | broke {action : Action} {s : Transcript Task.Reply} {b : Break} :
      Acted w action position s (.error b) →
      Passed step position reason (some action) s (.error b)
  | cancelled {action : Action} {s : Transcript Task.Reply} {effect : Effect} :
      Acted w action position s (.ok effect) →
      Passed step position reason (some action)
        (s ++ ⟨.check, true⟩ :: said (cancelledFarewell step.id)) (.ok (.ended .cancelled))
  | stopped {action : Action} {s : Transcript Task.Reply} :
      Acted w action position s (.ok .stop) →
      Passed step position reason (some action)
        (s ++ ⟨.check, false⟩ :: said (farewell .completed "" ("Workflow stopped by " ++ reason)))
        (.ok (.ended .completed))
  | wentOn {action : Action} {s : Transcript Task.Reply} {there : Nat} :
      Acted w action position s (.ok (.at_ there)) →
      Passed step position reason (some action) (s ++ [⟨.check, false⟩]) (.ok (.goOn there))

/-- What the action of the first condition that holds comes to. -/
inductive ConditionPass (step : Step) (outcome : Outcome) (position : Nat) :
    Transcript Task.Reply → Except Break Next → Prop
  | broke (events : List Event) (fault : Pattern.Fault) :
      choice step outcome = .error fault → Quiet events →
      ConditionPass step outcome position (said events) (.error (.crash (faultCrash fault)))
  | passed (events : List Event) {action : Option Action} {s : Transcript Task.Reply}
      {r : Except Break Next} :
      choice step outcome = .ok action → Quiet events →
      Passed w step position "condition" action s r →
      ConditionPass step outcome position (said events ++ s) r

/-- The name of the action that is taken for failure or success. -/
def hookName (outcome : Outcome) : String :=
  if outcome.failure.isSome then "on_failure" else "on_success"

/-- What the action for failure or success comes to. -/
inductive HookPass (step : Step) (outcome : Outcome) (position : Nat) :
    Transcript Task.Reply → Except Break Next → Prop
  | failed (failure : Failure) : outcome.failure = some failure → step.onFailure = none →
      HookPass step outcome position
        (said (remark step.id ("Step failed: " ++ failure.message) .error ::
          farewell .failed "" ("Workflow failed at step: " ++ step.displayName) .error))
        (.ok (.ended .failed))
  | passed (events : List Event) {s : Transcript Task.Reply} {r : Except Break Next} :
      (outcome.failure.isSome → step.onFailure.isSome) → Quiet events →
      Passed w step position (hookName outcome) (hook step outcome) s r →
      HookPass step outcome position (said events ++ s) r

/-- The exchanges up to the action of a condition. -/
def opening (position : Nat) (step : Step) (line : Event) (outcome : Outcome) :
    Transcript Task.Reply :=
  [⟨.check, false⟩, ⟨.tell line, ()⟩, ⟨.turn position step, .ok outcome⟩, ⟨.check, false⟩]

/-- The next round is behind the position at which this one has left the run. -/
def advance : Next → Next
  | .goOn position => .goOn (position + 1)
  | .ended status => .ended status

/-- What a round comes to. -/
inductive Lap (position : Nat) (step : Step) :
    Transcript Task.Reply → Except Break Next → Prop
  | stopped : Lap position step (⟨.check, true⟩ :: said (cancelledFarewell step.id))
      (.ok (.ended .cancelled))
  | broke (line : Event) (b : Break) : line.isQuiet = true →
      Lap position step
        [⟨.check, false⟩, ⟨.tell line, ()⟩, ⟨.turn position step, .error b⟩] (.error b)
  | cancelled (line : Event) (outcome : Outcome) (requested : Bool) : line.isQuiet = true →
      (requested || outcome.isCancelled) = true →
      Lap position step
        ([⟨.check, false⟩, ⟨.tell line, ()⟩, ⟨.turn position step, .ok outcome⟩,
          ⟨.check, requested⟩] ++ said (cancelledFarewell step.id))
        (.ok (.ended .cancelled))
  | judged (line : Event) (outcome : Outcome) {s : Transcript Task.Reply}
      {r : Except Break Next} : line.isQuiet = true → outcome.isCancelled = false →
      ConditionPass w step outcome position s r → (∀ there, r ≠ .ok (.goOn there)) →
      Lap position step (opening position step line outcome ++ s) r
  | hooked (line : Event) (outcome : Outcome) {s s' : Transcript Task.Reply} {there : Nat}
      {r : Except Break Next} : line.isQuiet = true → outcome.isCancelled = false →
      ConditionPass w step outcome position s (.ok (.goOn there)) →
      HookPass w step outcome there s' r →
      Lap position step (opening position step line outcome ++ (s ++ s')) (r.map advance)

/-- What the rounds from a position on come to, at most so many of them. -/
inductive Laps : Nat → Nat → Transcript Task.Reply → Except Break Status → Prop
  | outOfRounds (position : Nat) : Laps 0 position [] (.error .outOfRounds)
  | past {limit position : Nat} : w.steps[position]? = none →
      Laps (limit + 1) position (said (farewell .completed "" "Workflow completed successfully"))
        (.ok .completed)
  | broke {limit position : Nat} {step : Step} {s : Transcript Task.Reply} {b : Break} :
      w.steps[position]? = some step → Lap w position step s (.error b) →
      Laps (limit + 1) position s (.error b)
  | ended {limit position : Nat} {step : Step} {s : Transcript Task.Reply} {status : Status} :
      w.steps[position]? = some step → Lap w position step s (.ok (.ended status)) →
      Laps (limit + 1) position s (.ok status)
  | next {limit position there : Nat} {step : Step} {s s' : Transcript Task.Reply}
      {r : Except Break Status} :
      w.steps[position]? = some step → Lap w position step s (.ok (.goOn there)) →
      Laps limit there s' r → Laps (limit + 1) position (s ++ s') r

/-- The first entry of a run. -/
def firstRemark : Event := remark "" ("Starting workflow: " ++ w.title)

/-- What a run comes to. -/
inductive Whole (limit : Nat) : Transcript Task.Reply → Except Break Status → Prop
  | outOfRounds {s : Transcript Task.Reply} : Laps w limit 0 s (.error .outOfRounds) →
      Whole limit (said [firstRemark w] ++ s) (.error .outOfRounds)
  | ended {s : Transcript Task.Reply} {status : Status} : Laps w limit 0 s (.ok status) →
      Whole limit (said [firstRemark w] ++ s ++ said [.closed]) (.ok status)
  | crashed {s : Transcript Task.Reply} {crash : Crash} : Laps w limit 0 s (.error (.crash crash)) →
      Whole limit
        (said [firstRemark w] ++ s ++ said (.crashed crash ::
          farewell .failed "" ("Execution failed: " ++ crash.message) .error ++ [.closed]))
        (.ok .failed)

end Rules

/-! ## Parts of a course -/

section Parts

variable {α : Type}

theorem yields_tell_bind_iff {e : Event} {f : Unit → Course α} {t : Transcript Task.Reply}
    {r : Except Break α} :
    Yields (tell e >>= f) t r ↔ ∃ t', t = said [e] ++ t' ∧ Yields (f ()) t' r := by
  rw [tell, ask, yields_lift_bind_iff]
  constructor
  · rintro ⟨⟨⟩, t', rfl, h⟩
    exact ⟨t', rfl, h⟩
  · rintro ⟨t', rfl, h⟩
    exact ⟨(), t', rfl, h⟩

theorem yields_log_bind_iff {stepId message : String} {level : Level} {f : Unit → Course α}
    {t : Transcript Task.Reply} {r : Except Break α} :
    Yields (log stepId message level >>= f) t r ↔
      ∃ t', t = said [remark stepId message level] ++ t' ∧ Yields (f ()) t' r :=
  yields_tell_bind_iff

theorem yields_log_iff {stepId message : String} {level : Level} {a : α}
    {t : Transcript Task.Reply} {r : Except Break α} :
    Yields (do log stepId message level; pure a) t r ↔
      t = said [remark stepId message level] ∧ r = .ok a := by
  simp only [yields_log_bind_iff, yields_pure_iff]
  constructor
  · rintro ⟨_, rfl, rfl, rfl⟩
    exact ⟨rfl, rfl⟩
  · rintro ⟨rfl, rfl⟩
    exact ⟨[], rfl, rfl, rfl⟩

theorem yields_finish_bind_iff {status : Status} {stepId message : String} {level : Level}
    {f : Status → Course α} {t : Transcript Task.Reply} {r : Except Break α} :
    Yields (finish status stepId message level >>= f) t r ↔
      ∃ t', t = said (farewell status stepId message level) ++ t' ∧ Yields (f status) t' r := by
  simp only [finish, bind_assoc, pure_bind, yields_log_bind_iff, yields_tell_bind_iff]
  constructor
  · rintro ⟨_, rfl, t', rfl, h⟩
    exact ⟨t', rfl, h⟩
  · rintro ⟨t', rfl, h⟩
    exact ⟨_, rfl, t', rfl, h⟩

theorem yields_finish_iff {status : Status} {stepId message : String} {level : Level}
    {t : Transcript Task.Reply} {r : Except Break Status} :
    Yields (finish status stepId message level) t r ↔
      t = said (farewell status stepId message level) ∧ r = .ok status := by
  rw [← bind_pure (finish status stepId message level), yields_finish_bind_iff]
  constructor
  · rintro ⟨t', rfl, h⟩
    obtain ⟨rfl, rfl⟩ := yields_pure_iff.1 h
    exact ⟨by simp, rfl⟩
  · rintro ⟨rfl, rfl⟩
    exact ⟨[], by simp, yields_pure_iff.2 ⟨rfl, rfl⟩⟩

theorem yields_stop_bind_iff {stepId : String} {already : Bool} {f : Option Status → Course α}
    {t : Transcript Task.Reply} {r : Except Break α} :
    Yields (stopIfCancelled stepId already >>= f) t r ↔
      ∃ requested t', t = ⟨.check, requested⟩ :: t' ∧
        if (requested || already) = true then
          ∃ t'', t' = said (cancelledFarewell stepId) ++ t'' ∧ Yields (f (some .cancelled)) t'' r
        else Yields (f none) t' r := by
  simp only [stopIfCancelled, ask, bind_assoc, yields_lift_bind_iff]
  refine exists_congr fun requested => exists_congr fun t' => and_congr_right fun _ => ?_
  by_cases h : (requested || already) = true
  · simp only [if_pos h, bind_assoc, pure_bind]
    exact yields_finish_bind_iff
  · simp only [if_neg h, pure_bind]

theorem yields_turn_bind_iff {position : Nat} {step : Step} {f : Outcome → Course α}
    {t : Transcript Task.Reply} {r : Except Break α} :
    Yields (turn position step >>= f) t r ↔
      (∃ b, t = [⟨.turn position step, .error b⟩] ∧ r = .error b) ∨
        ∃ outcome t', t = ⟨.turn position step, .ok outcome⟩ :: t' ∧ Yields (f outcome) t' r := by
  rw [yields_bind_iff]
  simp only [Yields, turn, ExceptT.run_mk, Dialogue.ends_query_iff]
  constructor
  · rintro (⟨b, rfl, rfl⟩ | ⟨_, outcome, t', rfl, rfl, h⟩)
    · exact .inl ⟨b, rfl, rfl⟩
    · exact .inr ⟨outcome, t', rfl, h⟩
  · rintro (⟨b, rfl, rfl⟩ | ⟨outcome, t', rfl, h⟩)
    · exact .inl ⟨b, rfl, rfl⟩
    · exact .inr ⟨_, outcome, t', rfl, rfl, h⟩

theorem yields_aside_bind_iff {step : Step} {f : Outcome → Course α}
    {t : Transcript Task.Reply} {r : Except Break α} :
    Yields (aside step >>= f) t r ↔
      (∃ b, t = [⟨.aside step, .error b⟩] ∧ r = .error b) ∨
        ∃ outcome t', t = ⟨.aside step, .ok outcome⟩ :: t' ∧ Yields (f outcome) t' r := by
  rw [yields_bind_iff]
  simp only [Yields, aside, ExceptT.run_mk, Dialogue.ends_query_iff]
  constructor
  · rintro (⟨b, rfl, rfl⟩ | ⟨_, outcome, t', rfl, rfl, h⟩)
    · exact .inl ⟨b, rfl, rfl⟩
    · exact .inr ⟨outcome, t', rfl, h⟩
  · rintro (⟨b, rfl, rfl⟩ | ⟨outcome, t', rfl, h⟩)
    · exact .inl ⟨b, rfl, rfl⟩
    · exact .inr ⟨_, outcome, t', rfl, rfl, h⟩

end Parts

/-! ## No way out of the rules -/

section Followed

variable {w : Workflow}

theorem yields_passOver_iff {whys : List Unusable} {t : Transcript Task.Reply}
    {r : Except Break PUnit} :
    Yields (forIn whys PUnit.unit fun why _ => do
      tell (.passedOver why)
      pure (ForInStep.yield PUnit.unit)) t r ↔
      t = said (whys.map Event.passedOver) ∧ r = .ok ⟨⟩ := by
  induction whys generalizing t with
  | nil => simp
  | cons why whys ih =>
      simp only [List.forIn_cons, bind_assoc, pure_bind, yields_tell_bind_iff, ih]
      constructor
      · rintro ⟨_, rfl, rfl, rfl⟩
        exact ⟨rfl, rfl⟩
      · rintro ⟨rfl, rfl⟩
        exact ⟨_, rfl, rfl, rfl⟩

/-- An action without a step on the side makes something known and lands. -/
theorem acted_plain {action : Action} {position : Nat} {events : List Event} {effect : Effect}
    (hside : sideStep? w action = none) (hquiet : Quiet events)
    (heffect : landing w action position = effect) :
    Acted w action position (said events) (.ok effect) :=
  heffect ▸ .plain events hside hquiet

theorem acted_of_yields {action : Action} {step : Step} {position : Nat}
    {s : Transcript Task.Reply} {r : Except Break Effect}
    (h : Yields (act w action step position) s r) : Acted w action position s r := by
  unfold act at h
  split at h
  case h_1 hv =>
    obtain ⟨rfl, rfl⟩ := yields_pure_iff.1 h
    exact acted_plain (by simp [sideStep?, hv]) quiet_nil (by simp [landing, hv])
  case h_2 hv =>
    obtain ⟨rfl, rfl⟩ := yields_pure_iff.1 h
    exact acted_plain (by simp [sideStep?, hv]) quiet_nil (by simp [landing, hv])
  case h_3 type hv =>
    obtain ⟨rfl, rfl⟩ := yields_log_iff.1 h
    exact acted_plain (by simp [sideStep?, hv]) (quiet_remark (by decide)) (by simp [landing, hv])
  case h_4 target hv =>
    have hside : sideStep? w action = none := by simp [sideStep?, hv]
    split at h
    · rename_i hp
      obtain ⟨rfl, rfl⟩ := yields_log_iff.1 h
      exact acted_plain hside (quiet_remark (by decide)) (by simp [landing, hv, hp])
    · rename_i there hp
      obtain ⟨rfl, rfl⟩ := yields_log_iff.1 h
      exact acted_plain hside (quiet_remark (by decide)) (by simp [landing, hv, hp])
  -- only this verb runs a step on the side
  case h_5 target hv =>
    have hland : landing w action position = .at_ position := by simp [landing, hv]
    split at h
    · rename_i hf
      obtain ⟨rfl, rfl⟩ := yields_log_iff.1 h
      exact acted_plain (by simpa [sideStep?, hv] using hf) (quiet_remark (by decide)) hland
    · rename_i side hf
      have hside : sideStep? w action = some side := by simpa [sideStep?, hv] using hf
      obtain ⟨_, rfl, haside⟩ := yields_log_bind_iff.1 h
      rcases yields_aside_bind_iff.1 haside with ⟨b, rfl, rfl⟩ | ⟨outcome, s', rfl, hrest⟩
      · exact .broke _ side b hside (quiet_remark (by decide))
      -- what is said of the outcome depends on it, where the run lands does not
      · obtain ⟨after, hafter, rfl, rfl⟩ :
            ∃ after, Quiet after ∧ s' = said after ∧ r = .ok (.at_ position) := by
          split at hrest
          · obtain ⟨rfl, rfl⟩ := yields_pure_iff.1 hrest
            exact ⟨[], quiet_nil, rfl, rfl⟩
          · obtain ⟨rfl, rfl⟩ := yields_pure_iff.1 hrest
            exact ⟨[], quiet_nil, rfl, rfl⟩
          · obtain ⟨rfl, rfl⟩ := yields_log_iff.1 hrest
            exact ⟨_, quiet_remark (by decide), rfl, rfl⟩
        rw [← hland]
        exact .side _ after side outcome hside (quiet_remark (by decide)) hafter

theorem passed_of_yields {action : Action} {step : Step} {position : Nat} {reason : String}
    {s : Transcript Task.Reply} {r : Except Break Next}
    (h : Yields (actAndCheck w action step position reason) s r) :
    Passed w step position reason (some action) s r := by
  rw [actAndCheck, yields_bind_iff] at h
  rcases h with ⟨b, h, rfl⟩ | ⟨s, effect, s', rfl, hact, hcheck⟩
  · exact .broke (acted_of_yields h)
  · have hact := acted_of_yields hact
    obtain ⟨requested, s', rfl, hrest⟩ := yields_stop_bind_iff.1 hcheck
    -- the check comes first, whatever the action says
    cases requested with
    | true =>
        obtain ⟨s', rfl, hrest⟩ := hrest
        obtain ⟨rfl, rfl⟩ := yields_pure_iff.1 hrest
        simpa using Passed.cancelled hact
    | false =>
        cases effect with
        | stop =>
            obtain ⟨s', rfl, hend⟩ := yields_finish_bind_iff.1 hrest
            obtain ⟨rfl, rfl⟩ := yields_pure_iff.1 hend
            simpa using Passed.stopped hact
        | at_ there =>
            obtain ⟨rfl, rfl⟩ := yields_pure_iff.1 hrest
            exact .wentOn hact

theorem conditionPass_of_yields {step : Step} {outcome : Outcome} {position : Nat}
    {s : Transcript Task.Reply} {r : Except Break Next}
    (h : Yields (conditionPass w step outcome position) s r) :
    ConditionPass w step outcome position s r := by
  rcases yields_bind_iff.1 h with ⟨b, hloop, rfl⟩ | ⟨s, _, s', rfl, hloop, hrest⟩
  · cases (yields_passOver_iff.1 hloop).2
  · obtain ⟨rfl, -⟩ := yields_passOver_iff.1 hloop
    -- conditions that cannot hold are passed over one by one, which is quiet
    have hover : ∀ whys : List Unusable, Quiet (whys.map Event.passedOver) := by
      intro whys e he
      obtain ⟨why, -, rfl⟩ := List.mem_map.1 he
      rfl
    split at hrest
    · rename_i fault hc
      obtain ⟨rfl, rfl⟩ := yields_throw_iff.1 hrest
      rw [List.append_nil]
      exact .broke _ fault hc (hover _)
    · rename_i hc
      obtain ⟨rfl, rfl⟩ := yields_pure_iff.1 hrest
      exact .passed _ hc (hover _) .nothing
    · rename_i action hc
      obtain ⟨s', rfl, hact⟩ := yields_log_bind_iff.1 hrest
      rw [← List.append_assoc, ← said_append]
      exact .passed _ hc (quiet_append_iff.2 ⟨hover _, quiet_remark (by decide)⟩)
        (passed_of_yields hact)

theorem hookPass_of_yields {step : Step} {outcome : Outcome} {position : Nat}
    {s : Transcript Task.Reply} {r : Except Break Next}
    (h : Yields (hookPass w step outcome position) s r) : HookPass w step outcome position s r := by
  unfold hookPass at h
  split at h
  · rename_i failure hf
    have hhook : hook step outcome = step.onFailure := by simp [hook, hf]
    have hname : hookName outcome = "on_failure" := by simp [hookName, hf]
    obtain ⟨s, rfl, hrest⟩ := yields_log_bind_iff.1 h
    split at hrest
    · rename_i hn
      obtain ⟨s', rfl, hend⟩ := yields_finish_bind_iff.1 hrest
      obtain ⟨rfl, rfl⟩ := yields_pure_iff.1 hend
      simpa using HookPass.failed failure hf hn
    · rename_i action hn
      refine .passed [_] (by simp [hn]) (quiet_remark (by decide)) ?_
      rw [hhook, hname, hn]
      exact passed_of_yields hrest
  · rename_i hf
    have hhook : hook step outcome = step.onSuccess := by simp [hook, hf]
    have hname : hookName outcome = "on_success" := by simp [hookName, hf]
    refine .passed (s := s) [] (by simp [hf]) quiet_nil ?_
    rw [hhook, hname]
    split at h
    · rename_i hn
      obtain ⟨rfl, rfl⟩ := yields_pure_iff.1 h
      rw [hn]
      exact .nothing
    · rename_i action hn
      rw [hn]
      exact passed_of_yields h

/-- A round goes on with the two passes once its step was run and nothing stops it. -/
theorem lap_of_passes {position : Nat} {step : Step} {line : Event} {outcome : Outcome}
    {s : Transcript Task.Reply} {r : Except Break Next} (hline : line.isQuiet = true)
    (hnot : outcome.isCancelled = false)
    (h : Yields (do
      match ← conditionPass w step outcome position with
      | .ended status => return .ended status
      | .goOn position =>
        match ← hookPass w step outcome position with
        | .ended status => return .ended status
        | .goOn position => return .goOn (position + 1)) s r) :
    Lap w position step (opening position step line outcome ++ s) r := by
  rcases yields_bind_iff.1 h with ⟨b, hcond, rfl⟩ | ⟨s, next, s', rfl, hcond, hrest⟩
  · exact .judged line outcome hline hnot (conditionPass_of_yields hcond) (by simp)
  · have hcond := conditionPass_of_yields hcond
    -- the second pass starts where the first one has left the run
    cases next with
    | ended status =>
        obtain ⟨rfl, rfl⟩ := yields_pure_iff.1 hrest
        rw [List.append_nil]
        exact .judged line outcome hline hnot hcond (by simp)
    | goOn there =>
        rcases yields_bind_iff.1 hrest with ⟨b, hhook, rfl⟩ | ⟨s', next, s'', rfl, hhook, hend⟩
        · exact .hooked line outcome hline hnot hcond (hookPass_of_yields hhook)
        · obtain ⟨rfl, rfl⟩ : s'' = [] ∧ r = .ok (advance next) := by
            cases next <;> exact yields_pure_iff.1 hend
          rw [List.append_nil]
          exact .hooked line outcome hline hnot hcond (hookPass_of_yields hhook)

theorem lap_of_yields {position : Nat} {step : Step} {s : Transcript Task.Reply}
    {r : Except Break Next} (h : Yields (round w position step) s r) : Lap w position step s r := by
  obtain ⟨requested, s, rfl, hgone⟩ := yields_stop_bind_iff.1 h
  -- the check in front of the step
  cases requested with
  | true =>
      obtain ⟨s', rfl, hend⟩ := hgone
      obtain ⟨rfl, rfl⟩ := yields_pure_iff.1 hend
      simpa using Lap.stopped
  | false =>
      obtain ⟨s, rfl, hturn⟩ := yields_log_bind_iff.1 hgone
      rcases yields_turn_bind_iff.1 hturn with ⟨b, rfl, rfl⟩ | ⟨outcome, s, rfl, hcheck⟩
      · exact .broke _ b isQuiet_stepRemark
      -- the check behind it, which also sees whether the step was stopped
      · obtain ⟨requested, s, rfl, hrest⟩ := yields_stop_bind_iff.1 hcheck
        split at hrest
        · rename_i hstop
          obtain ⟨s, rfl, hend⟩ := hrest
          obtain ⟨rfl, rfl⟩ := yields_pure_iff.1 hend
          rw [List.append_nil]
          exact .cancelled _ outcome requested isQuiet_stepRemark hstop
        · rename_i hgo
          obtain ⟨rfl, hnot⟩ : requested = false ∧ outcome.isCancelled = false := by
            simpa using hgo
          exact lap_of_passes isQuiet_stepRemark hnot hrest

theorem laps_of_yields {limit position : Nat} {s : Transcript Task.Reply}
    {r : Except Break Status} (h : Yields (rounds w limit position) s r) :
    Laps w limit position s r := by
  -- by induction on the limit, of which each round takes one
  induction limit generalizing position s with
  | zero =>
      obtain ⟨rfl, rfl⟩ := yields_throw_iff.1 h
      exact .outOfRounds position
  | succ limit ih =>
      unfold rounds at h
      split at h
      · rename_i hpast
        obtain ⟨rfl, rfl⟩ := yields_finish_iff.1 h
        exact .past hpast
      · rename_i step hstep
        rcases yields_bind_iff.1 h with ⟨b, hlap, rfl⟩ | ⟨s, next, s', rfl, hlap, hrest⟩
        · exact .broke hstep (lap_of_yields hlap)
        · have hlap := lap_of_yields hlap
          cases next with
          | ended status =>
              obtain ⟨rfl, rfl⟩ := yields_pure_iff.1 hrest
              rw [List.append_nil]
              exact .ended hstep hlap
          | goOn there => exact .next hstep hlap (ih hrest)

/-- The last events of a run, by what its rounds came to. -/
def closingEvents : Except Break Status → List Event
  | .ok _ => [.closed]
  | .error .outOfRounds => []
  | .error (.crash crash) => .crashed crash ::
      farewell .failed "" ("Execution failed: " ++ crash.message) .error ++ [.closed]

/-- What a run comes to, by what its rounds came to. -/
def settled : Except Break Status → Except Break Status
  | .error (.crash _) => .ok .failed
  | r => r

/-- A run is its first entry, its rounds and its last events. -/
theorem exists_rounds {limit : Nat} {s : Transcript Task.Reply} {r : Except Break Status}
    (h : Yields (whole w limit) s r) :
    ∃ s' r', s = said [firstRemark w] ++ s' ++ said (closingEvents r') ∧
      Yields (rounds w limit 0) s' r' ∧ r = settled r' := by
  rcases yields_bind_iff.1 h with ⟨b, htry, rfl⟩ | ⟨s, status, s', rfl, htry, hclose⟩
  -- the handler lets only `outOfRounds` through
  · rcases yields_tryCatch_iff.1 htry with ⟨a, -, hr⟩ | ⟨s, b', s', rfl, hbody, hcatch⟩
    · cases hr
    · obtain ⟨s, rfl, hrounds⟩ := yields_log_bind_iff.1 hbody
      cases b' with
      | outOfRounds =>
          obtain ⟨rfl, hb⟩ := yields_throw_iff.1 hcatch
          exact ⟨s, _, rfl, hrounds, hb⟩
      | crash crash =>
          obtain ⟨s', rfl, hfinish⟩ := yields_tell_bind_iff.1 hcatch
          cases (yields_finish_iff.1 hfinish).2
  · obtain ⟨s', rfl, hend⟩ := yields_tell_bind_iff.1 hclose
    obtain ⟨rfl, rfl⟩ := yields_pure_iff.1 hend
    rw [List.append_nil]
    -- the rounds came to a status, or the handler set it
    rcases yields_tryCatch_iff.1 htry with ⟨a, hbody, hr⟩ | ⟨s, b', s', rfl, hbody, hcatch⟩
    · cases hr
      obtain ⟨s, rfl, hrounds⟩ := yields_log_bind_iff.1 hbody
      exact ⟨s, _, rfl, hrounds, rfl⟩
    · obtain ⟨s, rfl, hrounds⟩ := yields_log_bind_iff.1 hbody
      cases b' with
      | outOfRounds => cases (yields_throw_iff.1 hcatch).2
      | crash crash =>
          obtain ⟨s', rfl, hfinish⟩ := yields_tell_bind_iff.1 hcatch
          obtain ⟨rfl, hr⟩ := yields_finish_iff.1 hfinish
          cases hr
          exact ⟨s, _, by simp [firstRemark, closingEvents], hrounds, rfl⟩

/-- Every transcript of a run follows the rules. -/
theorem whole_of_yields {limit : Nat} {s : Transcript Task.Reply} {r : Except Break Status}
    (h : Yields (whole w limit) s r) : Whole w limit s r := by
  obtain ⟨s, r', rfl, hrounds, rfl⟩ := exists_rounds h
  have hlaps := laps_of_yields hrounds
  cases r' with
  | ok status => exact .ended hlaps
  | error b =>
      cases b with
      | crash crash => exact .crashed hlaps
      | outOfRounds =>
          rw [closingEvents, said_nil, List.append_nil]
          exact .outOfRounds hlaps

end Followed

/-! ## Properties of all exchanges -/

/-- What is neither a check nor an event of a course is one of the workflow's steps on the side, or in
its turn. -/
structure Common (w : Workflow) (P : Exchange Task.Reply → Prop) : Prop where
  check : ∀ requested, P ⟨.check, requested⟩
  tell : ∀ event, P ⟨.tell event, ()⟩
  aside : ∀ step ∈ w.steps, ∀ r, P ⟨.aside step, r⟩

section Common

variable {w : Workflow} {P : Exchange Task.Reply → Prop} {s : Transcript Task.Reply}

theorem Common.said (hP : Common w P) (events : List Event) : ∀ x ∈ said events, P x := by
  intro x hx
  obtain ⟨event, -, rfl⟩ := List.mem_map.1 hx
  exact hP.tell event

theorem mem_of_sideStep? {action : Action} {step : Step} (h : sideStep? w action = some step) :
    step ∈ w.steps := by
  unfold sideStep? at h
  split at h
  · exact List.mem_of_find?_eq_some h
  · cases h

theorem Acted.forall_mem {action : Action} {position : Nat} {r : Except Break Effect}
    (h : Acted w action position s r) (hP : Common w P) : ∀ x ∈ s, P x := by
  cases h with
  | plain events => exact hP.said events
  | side before after step outcome hside =>
      exact List.forall_mem_append.2 ⟨hP.said before, List.forall_mem_cons.2
        ⟨hP.aside step (mem_of_sideStep? hside) _, hP.said after⟩⟩
  | broke before step b hside =>
      exact List.forall_mem_append.2 ⟨hP.said before, List.forall_mem_singleton.2
        (hP.aside step (mem_of_sideStep? hside) _)⟩

theorem Passed.forall_mem {step : Step} {position : Nat} {reason : String}
    {action : Option Action} {r : Except Break Next}
    (h : Passed w step position reason action s r) (hP : Common w P) : ∀ x ∈ s, P x := by
  cases h with
  | nothing => simp
  | broke hact => exact hact.forall_mem hP
  | cancelled hact =>
      exact List.forall_mem_append.2 ⟨hact.forall_mem hP,
        List.forall_mem_cons.2 ⟨hP.check _, hP.said _⟩⟩
  | stopped hact =>
      exact List.forall_mem_append.2 ⟨hact.forall_mem hP,
        List.forall_mem_cons.2 ⟨hP.check _, hP.said _⟩⟩
  | wentOn hact =>
      exact List.forall_mem_append.2 ⟨hact.forall_mem hP, List.forall_mem_singleton.2 (hP.check _)⟩

theorem ConditionPass.forall_mem {step : Step} {outcome : Outcome} {position : Nat}
    {r : Except Break Next} (h : ConditionPass w step outcome position s r) (hP : Common w P) :
    ∀ x ∈ s, P x := by
  cases h with
  | broke events => exact hP.said events
  | passed events _ _ hpassed =>
      exact List.forall_mem_append.2 ⟨hP.said events, hpassed.forall_mem hP⟩

theorem HookPass.forall_mem {step : Step} {outcome : Outcome} {position : Nat}
    {r : Except Break Next} (h : HookPass w step outcome position s r) (hP : Common w P) :
    ∀ x ∈ s, P x := by
  cases h with
  | failed => exact hP.said _
  | passed events _ _ hpassed =>
      exact List.forall_mem_append.2 ⟨hP.said events, hpassed.forall_mem hP⟩

theorem Lap.forall_mem {position : Nat} {step : Step} {r : Except Break Next}
    (h : Lap w position step s r) (hP : Common w P)
    (hturn : ∀ r, P ⟨.turn position step, r⟩) : ∀ x ∈ s, P x := by
  have hopening : ∀ line outcome, ∀ x ∈ opening position step line outcome, P x := by
    intro line outcome
    simp [opening, hP.check, hP.tell, hturn]
  cases h with
  | stopped => exact List.forall_mem_cons.2 ⟨hP.check _, hP.said _⟩
  | broke => simp [hP.check, hP.tell, hturn]
  | cancelled =>
      exact List.forall_mem_append.2 ⟨by simp [hP.check, hP.tell, hturn], hP.said _⟩
  | judged _ _ _ _ hcondition _ =>
      exact List.forall_mem_append.2 ⟨hopening _ _, hcondition.forall_mem hP⟩
  | hooked _ _ _ _ hcondition hhook =>
      exact List.forall_mem_append.2 ⟨hopening _ _,
        List.forall_mem_append.2 ⟨hcondition.forall_mem hP, hhook.forall_mem hP⟩⟩

theorem Laps.forall_mem {limit position : Nat} {r : Except Break Status}
    (h : Laps w limit position s r) (hP : Common w P)
    (hturn : ∀ position step, w.steps[position]? = some step → ∀ r, P ⟨.turn position step, r⟩) :
    ∀ x ∈ s, P x := by
  induction limit generalizing position s with
  | zero =>
      cases h
      simp
  | succ limit ih =>
      cases h with
      | past => exact hP.said _
      | broke hstep hlap => exact hlap.forall_mem hP (hturn _ _ hstep)
      | ended hstep hlap => exact hlap.forall_mem hP (hturn _ _ hstep)
      | next hstep hlap hlaps =>
          exact List.forall_mem_append.2 ⟨hlap.forall_mem hP (hturn _ _ hstep), ih hlaps⟩

/-- What holds of every check, every event and every step of the workflow holds of every exchange of
a run. -/
theorem Whole.forall_mem {limit : Nat} {r : Except Break Status} (h : Whole w limit s r)
    (hP : Common w P)
    (hturn : ∀ position step, w.steps[position]? = some step → ∀ r, P ⟨.turn position step, r⟩) :
    ∀ x ∈ s, P x := by
  cases h with
  | outOfRounds hlaps =>
      exact List.forall_mem_append.2 ⟨hP.said _, hlaps.forall_mem hP hturn⟩
  | ended hlaps =>
      exact List.forall_mem_append.2
        ⟨List.forall_mem_append.2 ⟨hP.said _, hlaps.forall_mem hP hturn⟩, hP.said _⟩
  | crashed hlaps =>
      exact List.forall_mem_append.2
        ⟨List.forall_mem_append.2 ⟨hP.said _, hlaps.forall_mem hP hturn⟩, hP.said _⟩

/-- A run runs steps of its own workflow only. -/
theorem Whole.step_mem {limit : Nat} {r : Except Break Status} (h : Whole w limit s r)
    {x : Exchange Task.Reply} (hx : x ∈ s) {step : Step} (hstep : x.1.step? = some step) :
    step ∈ w.steps := by
  have hcommon : Common w fun x => ∀ step, x.1.step? = some step → step ∈ w.steps := by
    refine ⟨?_, ?_, ?_⟩
    · rintro _ _ ⟨⟩
    · rintro _ _ ⟨⟩
    · rintro step hmem _ _ ⟨⟩
      exact hmem
  refine h.forall_mem hcommon ?_ x hx step hstep
  rintro position step hmem _ _ ⟨⟩
  exact List.mem_of_getElem? hmem

end Common

/-! ## Breaking off -/

/-- What running a step came to. -/
def result? : Exchange Task.Reply → Option (Except Break Outcome)
  | ⟨.turn _ _, r⟩ => some r
  | ⟨.aside _, r⟩ => some r
  | _ => none

/-- Why a step breaks the run off. -/
def broke? (x : Exchange Task.Reply) : Option Break :=
  match result? x with
  | some (.error b) => some b
  | _ => none

/-- The breaks that steps bring about. -/
def breaks (s : Transcript Task.Reply) : List Break := s.filterMap broke?

@[simp] theorem breaks_nil : breaks [] = [] := rfl

@[simp] theorem breaks_cons (x : Exchange Task.Reply) (s : Transcript Task.Reply) :
    breaks (x :: s) = (broke? x).toList ++ breaks s := by
  cases h : broke? x <;> simp [breaks, h]

@[simp] theorem breaks_append (s t : Transcript Task.Reply) :
    breaks (s ++ t) = breaks s ++ breaks t := List.filterMap_append

@[simp] theorem breaks_said (events : List Event) : breaks (said events) = [] := by
  simp [breaks, said, broke?, result?]

section Broke

variable {w : Workflow} {s : Transcript Task.Reply}

theorem Acted.outOfRounds_iff {action : Action} {position : Nat} {r : Except Break Effect}
    (h : Acted w action position s r) : .outOfRounds ∈ breaks s ↔ r = .error .outOfRounds := by
  cases h with
  | plain => simp
  | side => simp [broke?, result?]
  | broke => simp [broke?, result?, eq_comm]

theorem Passed.outOfRounds_iff {step : Step} {position : Nat} {reason : String}
    {action : Option Action} {r : Except Break Next}
    (h : Passed w step position reason action s r) :
    .outOfRounds ∈ breaks s ↔ r = .error .outOfRounds := by
  cases h with
  | nothing => simp
  | broke hact => simpa using hact.outOfRounds_iff
  | cancelled hact => simpa [broke?, result?] using hact.outOfRounds_iff
  | stopped hact => simpa [broke?, result?] using hact.outOfRounds_iff
  | wentOn hact => simpa [broke?, result?] using hact.outOfRounds_iff

theorem ConditionPass.outOfRounds_iff {step : Step} {outcome : Outcome} {position : Nat}
    {r : Except Break Next} (h : ConditionPass w step outcome position s r) :
    .outOfRounds ∈ breaks s ↔ r = .error .outOfRounds := by
  cases h with
  | broke => simp
  | passed _ _ _ hpassed => simpa using hpassed.outOfRounds_iff

theorem HookPass.outOfRounds_iff {step : Step} {outcome : Outcome} {position : Nat}
    {r : Except Break Next} (h : HookPass w step outcome position s r) :
    .outOfRounds ∈ breaks s ↔ r = .error .outOfRounds := by
  cases h with
  | failed => simp [broke?, result?]
  | passed _ _ _ hpassed => simpa using hpassed.outOfRounds_iff

theorem breaks_opening {position : Nat} {step : Step} {line : Event} {outcome : Outcome} :
    breaks (opening position step line outcome) = [] := rfl

theorem Lap.outOfRounds_iff {position : Nat} {step : Step} {r : Except Break Next}
    (h : Lap w position step s r) : .outOfRounds ∈ breaks s ↔ r = .error .outOfRounds := by
  cases h with
  | stopped => simp [broke?, result?]
  | broke => simp [broke?, result?, eq_comm]
  | cancelled => simp [broke?, result?]
  | judged _ _ _ _ hcondition _ => simpa [breaks_opening] using hcondition.outOfRounds_iff
  | @hooked _ _ _ _ _ r _ _ hcondition hhook =>
      -- the first pass has gone on, so nothing broke it off
      have hnone : .outOfRounds ∉ breaks _ := fun hmem => by cases hcondition.outOfRounds_iff.1 hmem
      rw [breaks_append, breaks_append, breaks_opening, List.nil_append, List.mem_append,
        or_iff_right hnone, hhook.outOfRounds_iff]
      cases r with
      | ok next => simp [Except.map]
      | error b => simp [Except.map]

theorem Laps.outOfRounds_of_breaks {limit position : Nat} {r : Except Break Status}
    (h : Laps w limit position s r) (hmem : .outOfRounds ∈ breaks s) :
    r = .error .outOfRounds := by
  induction limit generalizing position s with
  | zero =>
      cases h
      rfl
  | succ limit ih =>
      cases h with
      | past => simp at hmem
      | broke _ hlap => cases hlap.outOfRounds_iff.1 hmem; rfl
      | ended _ hlap => cases hlap.outOfRounds_iff.1 hmem
      | next _ hlap hlaps =>
          rw [breaks_append] at hmem
          rcases List.mem_append.1 hmem with hmem | hmem
          · cases hlap.outOfRounds_iff.1 hmem
          · exact ih hlaps hmem

theorem Whole.eq_outOfRounds {limit : Nat} {b : Break} (h : Whole w limit s (.error b)) :
    b = .outOfRounds := by
  cases h
  rfl

/-- Too many rounds of a nested run are too many of the run around it. -/
theorem Whole.outOfRounds_of_breaks {limit : Nat} {r : Except Break Status}
    (h : Whole w limit s r) (hmem : .outOfRounds ∈ breaks s) : r = .error .outOfRounds := by
  cases h with
  | outOfRounds => rfl
  | ended hlaps => cases hlaps.outOfRounds_of_breaks (by simpa [broke?, result?] using hmem)
  | crashed hlaps => cases hlaps.outOfRounds_of_breaks (by simpa [broke?, result?] using hmem)

end Broke

end Course

end Runbook.Run
