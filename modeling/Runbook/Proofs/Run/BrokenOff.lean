import Runbook.Proofs.Condition.Judgement
import Runbook.Proofs.Run.Ending
import Runbook.Proofs.Run.NextPosition

/-!
# Runs that are broken off

An error leaves the rounds of a run in two ways (`Course.Left`): running a step was broken off, or
judging the conditions of a step was, since the pattern of one cannot be read. In the second case
nothing more happens in the round: no further condition counts, the failure of the step is not made
known, and its action for failure or success is not taken.

`execution_broken_off` says this of executions, and that a run which is not cancelled gets past no
step whose conditions cannot be judged.
-/

set_option autoImplicit false

namespace Runbook.Run

namespace Course

/-- What is made known of the conditions that can never hold, up to the one that counts. -/
def passedOver (step : Step) (outcome : Outcome) : List Event :=
  (Condition.choose outcome.output outcome.exitCode step.conditions).passedOver.map .passedOver

/-- The rounds of a run end with an error. -/
inductive Left (w : Workflow) : Transcript Task.Reply → Crash → Prop
  | byStep (before : Transcript Task.Reply) {x : Exchange Task.Reply} {crash : Crash} :
      broke? x = some (.crash crash) → Left w (before ++ [x]) crash
  | byCondition (before : Transcript Task.Reply) {position : Nat} {step : Step} {outcome : Outcome}
      {fault : Pattern.Fault} :
      w.steps[position]? = some step → outcome.isCancelled = false →
      Condition.Chosen outcome.output outcome.exitCode step.conditions (.error fault) →
      Left w (before ++ (opening position step (stepLine w position step) outcome ++
        said (passedOver step outcome))) (faultCrash fault)

section Left

variable {w : Workflow} {position : Nat} {step : Step} {outcome : Outcome} {fault : Pattern.Fault}
  {crash : Crash} {s : Transcript Task.Reply}

theorem Left.after (before : Transcript Task.Reply) (h : Left w s crash) :
    Left w (before ++ s) crash := by
  cases h with
  | byStep before' hbroke => exact List.append_assoc .. ▸ .byStep _ hbroke
  | byCondition before' hstep hnot hchosen =>
      exact List.append_assoc .. ▸ .byCondition _ hstep hnot hchosen

/-! ## Broken steps -/

/-- Exchanges that end with a step that was broken off. -/
def BrokenStep (s : Transcript Task.Reply) (b : Break) : Prop :=
  ∃ before x, s = before ++ [x] ∧ broke? x = some b

theorem BrokenStep.after {b : Break} (before : Transcript Task.Reply) (h : BrokenStep s b) :
    BrokenStep (before ++ s) b := by
  obtain ⟨before', x, rfl, hbroke⟩ := h
  exact ⟨before ++ before', x, (List.append_assoc ..).symm, hbroke⟩

theorem Acted.brokenStep {action : Action} {b : Break} (h : Acted w action position s (.error b)) :
    BrokenStep s b := by
  cases h with
  | broke before side b => exact ⟨said before, _, rfl, rfl⟩

theorem Passed.brokenStep {reason : String} {action : Option Action} {b : Break}
    (h : Passed w step position reason action s (.error b)) : BrokenStep s b := by
  cases h with
  | broke hact => exact hact.brokenStep

theorem HookPass.brokenStep {b : Break} (h : HookPass w step outcome position s (.error b)) :
    BrokenStep s b := by
  cases h with
  | passed events _ _ hpassed => exact hpassed.brokenStep.after _

/-- A round that an error ends was left by a step, or by the conditions behind the step. -/
theorem Lap.left_cases {b : Break} (h : Lap w position step s (.error b)) :
    BrokenStep s b ∨ ∃ line outcome rest fault,
      s = opening position step line outcome ++ rest ∧ outcome.isCancelled = false ∧
        choice step outcome = .error fault := by
  generalize hr : (Except.error b : Except Break Next) = r at h
  cases h with
  | stopped => cases hr
  | broke line b' => cases hr; exact .inl ⟨[_, _], _, rfl, rfl⟩
  | cancelled => cases hr
  | judged line outcome _ hnot hcondition _ =>
      subst hr
      cases hcondition with
      | broke events fault hchoice =>
          exact .inr ⟨line, outcome, _, fault, rfl, hnot, hchoice⟩
      | passed events _ _ hpassed => exact .inl ((hpassed.brokenStep.after _).after _)
  | @hooked line outcome s₁ s₂ there r _ _ _ hhook =>
      cases r with
      | ok next => cases hr
      | error b' =>
          cases hr
          exact .inl ((hhook.brokenStep.after _).after _)

/-! ## Broken conditions -/

theorem yields_of_check {α : Type} {stepId : String} {f : Option Status → Course α}
    {r : Except Break α}
    (h : Yields (stopIfCancelled stepId >>= f) (⟨.check, false⟩ :: s) r) : Yields (f none) s r := by
  obtain ⟨requested, s', hs, hgone⟩ := yields_stop_bind_iff.1 h
  cases hs
  exact hgone

/-- When the conditions of a step cannot be judged, those that can never hold are made known up to
there, and nothing else happens. -/
theorem conditionPass_of_fault {r : Except Break Next}
    (hchoice : choice step outcome = .error fault)
    (h : Yields (conditionPass w step outcome position) s r) :
    s = said (passedOver step outcome) ∧ r = .error (.crash (faultCrash fault)) := by
  rcases yields_bind_iff.1 h with ⟨b, hloop, rfl⟩ | ⟨s, _, s', rfl, hloop, hrest⟩
  · cases (yields_passOver_iff.1 hloop).2
  · obtain ⟨rfl, -⟩ := yields_passOver_iff.1 hloop
    rw [choice] at hchoice
    rw [hchoice] at hrest
    obtain ⟨rfl, rfl⟩ := yields_throw_iff.1 hrest
    exact ⟨List.append_nil _, rfl⟩

theorem round_of_fault {line : Event} {r : Except Break Next} (hnot : outcome.isCancelled = false)
    (hchoice : choice step outcome = .error fault)
    (h : Yields (round w position step) (opening position step line outcome ++ s) r) :
    line = stepLine w position step ∧ s = said (passedOver step outcome) ∧
      r = .error (.crash (faultCrash fault)) := by
  obtain ⟨t, hs, hturn⟩ := yields_log_bind_iff.1 (yields_of_check h)
  cases hs
  rcases yields_turn_bind_iff.1 hturn with ⟨b, hs, -⟩ | ⟨outcome', t, hs, hcheck⟩
  · cases hs
  · cases hs
    rw [hnot] at hcheck
    rcases yields_bind_iff.1 (yields_of_check hcheck) with
      ⟨b, hpass, rfl⟩ | ⟨t, next, t', rfl, hpass, -⟩
    · obtain ⟨rfl, hb⟩ := conditionPass_of_fault hchoice hpass
      cases hb
      exact ⟨rfl, rfl, rfl⟩
    · cases (conditionPass_of_fault hchoice hpass).2

theorem left_of_yields {limit : Nat}
    (h : Yields (rounds w limit position) s (.error (.crash crash))) : Left w s crash := by
  -- by induction on the limit, of which each round takes one
  induction limit generalizing position s with
  | zero => cases (yields_throw_iff.1 h).2
  | succ limit ih =>
      unfold rounds at h
      split at h
      · cases (yields_finish_iff.1 h).2
      · rename_i step hstep
        rcases yields_bind_iff.1 h with ⟨b, hround, hb⟩ | ⟨s, next, s', rfl, -, hrest⟩
        · cases hb
          rcases (lap_of_yields hround).left_cases with
            ⟨before, x, rfl, hbroke⟩ | ⟨line, outcome, rest, fault, rfl, hnot, hchoice⟩
          · exact .byStep before hbroke
          · obtain ⟨rfl, rfl, hr⟩ := round_of_fault hnot hchoice hround
            cases hr
            exact .byCondition [] hstep hnot (Condition.chosen_iff.2 hchoice)
        · cases next with
          | ended status => cases (yields_pure_iff.1 hrest).2
          | goOn there => exact (ih hrest).after s

/-! ## No way past conditions that break -/

/-- The passes of a round run no step in its turn. -/
theorem common_turn? : Common w fun x => turn? x = none where
  check _ := rfl
  tell _ := rfl
  aside _ _ _ := rfl

theorem ConditionPass.turns_eq {r : Except Break Next}
    (h : ConditionPass w step outcome position s r) : turns s = [] :=
  List.filterMap_eq_nil_iff.2 (h.forall_mem common_turn?)

theorem HookPass.turns_eq {r : Except Break Next} (h : HookPass w step outcome position s r) :
    turns s = [] :=
  List.filterMap_eq_nil_iff.2 (h.forall_mem common_turn?)

/-- What can be judged is not broken. -/
theorem ConditionPass.eq_of_fault {r : Except Break Next}
    (h : ConditionPass w step outcome position s r) (hchoice : choice step outcome = .error fault) :
    r = .error (.crash (faultCrash fault)) := by
  cases h with
  | broke events fault' hchoice' =>
      cases hchoice.symm.trans hchoice'
      rfl
  | passed events hchoice' => cases hchoice.symm.trans hchoice'

/-- A round that is not cancelled behind its step does not get past conditions that break. -/
theorem Lap.eq_of_fault {at_ : Nat} {step' : Step} {r : Except Break Next}
    (h : Lap w position step s r) (hcalm : sawCancellation s = false)
    (hmem : (at_, step', outcome) ∈ turns s) (hchoice : choice step' outcome = .error fault) :
    r = .error (.crash (faultCrash fault)) := by
  cases h with
  | stopped => cases hcalm
  | broke => cases hmem
  | cancelled line outcome' requested _ hstop =>
      have hcalm : outcome'.isCancelled = false ∧ requested = false := by
        simpa [isCancellation] using hcalm
      simp [hcalm] at hstop
  | judged line outcome' _ _ hcondition _ =>
      rw [turns_append, turns_opening, hcondition.turns_eq, List.append_nil,
        List.mem_singleton] at hmem
      cases hmem
      exact hcondition.eq_of_fault hchoice
  | hooked line outcome' _ _ hcondition hhook =>
      rw [turns_append, turns_opening, turns_append, hcondition.turns_eq, hhook.turns_eq,
        List.append_nil, List.append_nil, List.mem_singleton] at hmem
      cases hmem
      cases hcondition.eq_of_fault hchoice

theorem Laps.eq_of_fault {limit at_ : Nat} {r : Except Break Status}
    (h : Laps w limit position s r) (hcalm : sawCancellation s = false)
    (hmem : (at_, step, outcome) ∈ turns s) (hchoice : choice step outcome = .error fault) :
    r = .error (.crash (faultCrash fault)) := by
  induction limit generalizing position s with
  | zero =>
      cases h
      cases hmem
  | succ limit ih =>
      cases h with
      | past => simp at hmem
      | broke _ hlap => cases hlap.eq_of_fault hcalm hmem hchoice; rfl
      | ended _ hlap => cases hlap.eq_of_fault hcalm hmem hchoice
      | next _ hlap hlaps =>
          rw [sawCancellation_append, Bool.or_eq_false_iff] at hcalm
          rw [turns_append] at hmem
          rcases List.mem_append.1 hmem with hmem | hmem
          · cases hlap.eq_of_fault hcalm.1 hmem hchoice
          · exact ih hlaps hcalm.2 hmem

/-! ## Whole runs -/

variable (w) in
/-- A run fails with an error that left its rounds. -/
inductive BrokenOff : Transcript Task.Reply → Except Break Status → Crash → Prop
  | left {s : Transcript Task.Reply} {crash : Crash} : Left w s crash →
      BrokenOff (said [firstRemark w] ++ s ++ said (crashFarewell crash ++ [.closed]))
        (.ok .failed) crash

theorem Laps.sawCrash_eq_false {limit : Nat} {r : Except Break Status}
    (h : Laps w limit position s r) : sawCrash s = false := by
  cases r with
  | error b => exact sawCrash_eq_false_of_still h.error_calm.1
  | ok status =>
      obtain ⟨before, last, rfl, hclosing⟩ := h.ended_closing
      rw [sawCrash_append, sawCrash_eq_false_of_still hclosing.still]
      cases hclosing <;> rfl

/-- The only error that a run makes known is the one that left its rounds. -/
theorem eq_of_mem_closing {r : Except Break Status} (hlaps : sawCrash s = false)
    (hmem : (⟨.tell (.crashed crash), ()⟩ : Exchange Task.Reply) ∈
      said [firstRemark w] ++ s ++ said (closingEvents r)) : r = .error (.crash crash) := by
  rcases List.mem_append.1 hmem with hmem | hmem
  · rcases List.mem_append.1 hmem with hmem | hmem
    · simp [said, firstRemark, remark] at hmem
    · cases (List.any_eq_false.1 hlaps _ hmem) rfl
  · obtain ⟨event, hevent, heq⟩ := List.mem_map.1 hmem
    cases heq
    cases r with
    | ok status => simp [closingEvents] at hevent
    | error b =>
        cases b with
        | outOfRounds => cases hevent
        | crash crash' =>
            obtain rfl : crash = crash' := by
              simpa [closingEvents, farewell, remark] using hevent
            rfl

theorem brokenOff_of_yields {limit : Nat} {r : Except Break Status} (h : Yields (whole w limit) s r)
    (hmem : (⟨.tell (.crashed crash), ()⟩ : Exchange Task.Reply) ∈ s) : BrokenOff w s r crash := by
  obtain ⟨s, r', rfl, hrounds, rfl⟩ := exists_rounds h
  cases eq_of_mem_closing (laps_of_yields hrounds).sawCrash_eq_false hmem
  exact .left (left_of_yields hrounds)

/-- Conditions that break end a run that is not cancelled. -/
theorem mem_of_fault {limit at_ : Nat} {r : Except Break Status} (h : Yields (whole w limit) s r)
    (hcalm : sawCancellation s = false) (hmem : (at_, step, outcome) ∈ turns s)
    (hchoice : choice step outcome = .error fault) :
    (⟨.tell (.crashed (faultCrash fault)), ()⟩ : Exchange Task.Reply) ∈ s := by
  obtain ⟨s, r', rfl, hrounds, rfl⟩ := exists_rounds h
  -- the first and the last events of a run show neither turns nor cancellations
  simp only [sawCancellation_append, sawCancellation_said, Bool.false_or, Bool.or_false] at hcalm
  simp only [turns_append, turns_said, List.nil_append, List.append_nil] at hmem
  cases (laps_of_yields hrounds).eq_of_fault hcalm hmem hchoice
  exact List.mem_append_right _ (List.mem_cons_self ..)

end Left

end Course

/-! ## Executions -/

section Told

variable {c : Context} {rounds depth : Nat} {event : Event}

/-- What ends a run is made known by its course alone, and by no step. -/
theorem mem_told_deeds_iff {deeds : List Deed} (hplace : c.run.depth < c.chain.length)
    (hdoes : ∀ p ∈ deeds, c.Does rounds depth p) (hevent : event.isQuiet = false) :
    event ∈ told c.run (deeds.flatMap Prod.snd) ↔
      (⟨.tell event, ()⟩ : Exchange Task.Reply) ∈ deeds.map Prod.fst := by
  induction deeds with
  | nil => simp
  | cons p deeds ih =>
      obtain ⟨hp, hdeeds⟩ := List.forall_mem_cons.1 hdoes
      rw [List.flatMap_cons, told_append, List.mem_append, List.map_cons, List.mem_cons, ih hdeeds]
      refine or_congr_left ?_
      have hstepped : ∀ {step : Step} {t : Transcript Query.Reply} {r : Except Break Outcome},
          c.Stepped rounds depth step t r → event ∉ told c.run t := by
        intro step t r hstep hmem
        cases hevent.symm.trans (quiet_told_stepped hplace hstep event hmem)
      cases hp with
      | check => simp [told]
      | tell => simp [told]
      | turn _ h => simp [hstepped h]
      | aside h => simp [hstepped h]

end Told

open Course in
/-- Judging a condition comes to what the condition says, and conditions in order come to what the
first one says that does not miss. A run is broken off by a step or by conditions that cannot be
judged, and these always break it off unless it is cancelled. -/
theorem execution_broken_off {rounds depth : Nat} {k : Call} {t : Transcript Query.Reply}
    {r : Except Break Status} (h : Yields (k.execute rounds (depth + 1)) t (r.map .ok)) :
    (∀ (c : Condition) output exitCode met,
      c.Judged output exitCode met ↔ (c.judge output exitCode).met = met) ∧
    (∀ conditions output exitCode action, Condition.Chosen output exitCode conditions action ↔
      (Condition.choose output exitCode conditions).action = action) ∧
    ∃ c deeds, k.Ran rounds depth c deeds t r ∧
      (∀ crash, .crashed crash ∈ told c.run t →
        BrokenOff c.workflow (deeds.map Prod.fst) r crash) ∧
      ∀ position step outcome fault, (position, step, outcome) ∈ turns (deeds.map Prod.fst) →
        Condition.Chosen outcome.output outcome.exitCode step.conditions (.error fault) →
        sawCancellation (deeds.map Prod.fst) = false →
        .crashed (faultCrash fault) ∈ told c.run t := by
  refine ⟨fun _ _ _ _ => Condition.judged_iff, fun _ _ _ _ => Condition.chosen_iff, ?_⟩
  obtain ⟨c, deeds, hserved⟩ := k.exists_served h
  have hran := hserved.ran
  obtain ⟨first, hbegins, rfl⟩ := hran.begins
  have hplace : c.run.depth < c.chain.length := by
    rw [hran.place.2]
    exact Nat.lt_succ_self _
  have htold : ∀ crash, .crashed crash ∈ told c.run (first ++ deeds.flatMap Prod.snd) ↔
      (⟨.tell (.crashed crash), ()⟩ : Exchange Task.Reply) ∈ deeds.map Prod.fst := by
    intro crash
    rw [told_append, hbegins.told_eq_nil, List.nil_append]
    exact mem_told_deeds_iff hplace hran.does rfl
  refine ⟨c, deeds, hran, fun crash hmem => ?_, fun _ step outcome fault hmem hchosen hcalm => ?_⟩
  · exact brokenOff_of_yields hserved.course ((htold crash).1 hmem)
  · exact (htold _).2 (mem_of_fault hserved.course hcalm hmem (Condition.chosen_iff.1 hchosen))

/-- A condition whose pattern repeats too often for the matcher. -/
def hugeRepetition : Condition := { type := "regex", value := "x\x7b4294967295\x7d" }

/-- A workflow whose one step has that condition and goes on if it fails. -/
def breakingWorkflow : Workflow where
  id := "w"
  steps := [{ id := "a", content := "false", conditions := [hugeRepetition], onFailure := some {} }]

/-- A run of that workflow in which the step fails. -/
def breakingRun : Transcript Query.Reply :=
  ((⟨[], "w", []⟩ : Call).execute 2 1).run.transcript
    (steady (fun _ => some breakingWorkflow) false (.started (.ended 1 false)))

theorem breaks_hugeRepetition : hugeRepetition.Breaks .repetitionTooLarge := by
  have hverdict : hugeRepetition.judge "" 0 = .broken .repetitionTooLarge := by decide +kernel
  have hjudged : hugeRepetition.Judged "" 0 (.error .repetitionTooLarge) :=
    Condition.judged_iff.2 (by rw [hverdict]; rfl)
  cases hjudged
  assumption

theorem yields_breakingRun :
    Yields ((⟨[], "w", []⟩ : Call).execute 2 1) breakingRun (.ok (.ok .failed)) := by
  have hresult : ((⟨[], "w", []⟩ : Call).execute 2 1).run.result
      (steady (fun _ => some breakingWorkflow) false (.started (.ended 1 false))) =
        .ok (.ok .failed) := by decide +kernel
  exact hresult ▸ yields_transcript _ _

/-- That run has the name and the workflow that its world gives it. -/
theorem run_eq_of_breakingRun {c : Context} {deeds : List Deed} {r : Except Break Status}
    (h : Call.Ran ⟨[], "w", []⟩ 2 0 c deeds breakingRun r) : c.run = ⟨"run", "w", 0⟩ := by
  have hfound := Dialogue.mem_transcript h.found
  obtain ⟨first, ⟨w, globals, executionId, rfl, rfl⟩, hfirst⟩ := h.begins
  have hbegin : (⟨.begin w.id (resolve globals w.declared []) 0, executionId⟩ :
      Exchange Query.Reply) ∈ breakingRun := by
    rw [hfirst]
    exact List.mem_append_left _ (by simp [Call.beginning])
  obtain rfl : w = breakingWorkflow := Option.some.inj hfound
  obtain rfl : executionId = "run" := Dialogue.mem_transcript hbegin
  rfl

theorem crashed_mem_breakingRun :
    .crashed (Course.faultCrash .repetitionTooLarge) ∈ told ⟨"run", "w", 0⟩ breakingRun := by
  decide +kernel

/-- The run is broken off by the condition, past the action for failure. -/
theorem execution_broken_off_breakingWorkflow :
    Yields ((⟨[], "w", []⟩ : Call).execute 2 1) breakingRun (.ok (.ok .failed)) ∧
      ∃ c deeds, Call.Ran ⟨[], "w", []⟩ 2 0 c deeds breakingRun (.ok .failed) ∧
        Course.BrokenOff c.workflow (deeds.map Prod.fst) (.ok .failed)
          (Course.faultCrash .repetitionTooLarge) := by
  obtain ⟨-, -, c, deeds, hran, hbroken, -⟩ :=
    execution_broken_off (r := .ok .failed) yields_breakingRun
  refine ⟨yields_breakingRun, c, deeds, hran, hbroken _ ?_⟩
  rw [run_eq_of_breakingRun hran]
  exact crashed_mem_breakingRun

/-- A condition that cannot be judged fails a run whose step has an action for failure. -/
theorem huge_repetition_ends_run :
    (∀ output exitCode, (hugeRepetition.judge output exitCode).met = .error .repetitionTooLarge) ∧
      Yields ((⟨[], "w", []⟩ : Call).execute 2 1) breakingRun (.ok (.ok .failed)) ∧
      logOf (told ⟨"run", "w", 0⟩ breakingRun) =
        [⟨"", .info, "Starting workflow: w"⟩, ⟨"a", .info, "Step 1/1: a"⟩, ⟨"a", .info, "$ false"⟩,
          ⟨"", .error, "Execution failed: the repetition number is too large"⟩] :=
  ⟨fun _ _ => Condition.judged_iff.1 (.breaks breaks_hugeRepetition), yields_breakingRun,
    by decide +kernel⟩

end Runbook.Run
