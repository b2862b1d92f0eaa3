import Runbook.Proofs.Run.Closing
import Runbook.Proofs.Run.Execution
import Runbook.Proofs.Store.Workflows

/-!
# How runs end

`Course.Classified` reads the status of a run off what its course shows: whether it was cancelled,
whether an error left the rounds, and what the last step that was run in its turn led to
(`Course.lastFails`, `Course.lastConditionStops`, `Course.lastHookStops`, `Course.passedEnd`).

The steps between the first line of a run and its last make no line of the run that could be taken for
a last one: what commands write is marked as output, and what nested runs make known comes to the run
indented (`quiet_told_stepped`). `told_of_ran` describes all that a run makes known, and
`execution_ends_as_shown` puts status and log together.
-/

set_option autoImplicit false

namespace Runbook.Run

/-! ## What a run makes known -/

section Told

variable {c : Context} {rounds depth : Nat}

theorem ne_tell_of_atLeast {run : Identity} {n : Nat} {x : Exchange Query.Reply}
    (h : AtLeast n x) (hn : run.depth < n) (event : Event) : x.1 ≠ .tell run event := by
  intro hx
  have hle := h run.depth (by rw [hx]; rfl)
  omega

/-- What a nested run makes known comes to the run around it as indented lines. -/
theorem quiet_told_relayed {step : Step} {t : Transcript Query.Reply}
    (h : ∀ x ∈ t, AtLeast (c.run.depth + 1) x) : Quiet (told c.run (c.relayed step t)) := by
  induction t with
  | nil => exact quiet_nil
  | cons x t ih =>
      obtain ⟨hx, ht⟩ := List.forall_mem_cons.1 h
      -- the nested run makes known nothing in the name of this one
      have hself : told c.run (c.relayed step (x :: t)) =
          told c.run (c.echoes step x.1) ++ told c.run (c.relayed step t) := by
        rw [Context.relayed, List.flatMap_cons, List.cons_append,
          told_cons_of_ne _ (ne_tell_of_atLeast hx (Nat.lt_succ_self _)), told_append]
        rfl
      rw [hself]
      refine quiet_append_iff.2 ⟨?_, ih ht⟩
      intro e he
      obtain ⟨y, hy, hye⟩ := List.mem_filterMap.1 he
      obtain ⟨message, rfl⟩ := c.exists_of_mem_echoes hy
      simp only [if_true, Option.some.injEq] at hye
      exact hye ▸ isQuiet_remark (by decide)

theorem quiet_told_work {t : Transcript Query.Reply} (h : ∀ x ∈ t, c.isWork x.1 = true) :
    Quiet (told c.run t) := by
  intro e he
  obtain ⟨⟨q, reply⟩, hx, hxe⟩ := List.mem_filterMap.1 he
  have hwork := h _ hx
  cases q with
  | tell run event =>
      cases event with
      | entry entry isOutput =>
          simp only [Context.isWork, Bool.and_eq_true] at hwork
          simp only [Option.ite_none_right_eq_some, Option.some.injEq] at hxe
          rw [← hxe.2, Event.isQuiet, hwork.2, Bool.true_or]
      | _ => cases hwork
  | _ => cases hxe

theorem quiet_told_stepped {step : Step} {t : Transcript Query.Reply} {r : Except Break Outcome}
    (hplace : c.run.depth < c.chain.length) (h : c.Stepped rounds depth step t r) :
    Quiet (told c.run t) := by
  have hlaunch : ∀ reply, Quiet (told c.run (c.launching step reply)) := by
    intro reply
    rw [Context.launching, told_cons_self, told_cons_of_ne _ (by simp)]
    exact quiet_remark (by decide)
  cases h with
  | unknown => exact quiet_nil
  | crashed => exact hlaunch _
  | refused => exact hlaunch _
  | followed process work outcome _ hwork =>
      rw [told_append]
      exact quiet_append_iff.2 ⟨hlaunch _, quiet_told_work hwork⟩
  | nested _ ht =>
      rw [Context.naming, told_cons_self]
      refine quiet_cons_iff.2 ⟨isQuiet_remark (by decide), quiet_told_relayed fun x hx n hn => ?_⟩
      exact Nat.le_trans hplace (atLeast_of_yields ht x hx n hn)

/-- As long as nothing ends the run, what it makes known is quiet. -/
theorem quiet_told_deeds {deeds : List Deed} (hplace : c.run.depth < c.chain.length)
    (hdoes : ∀ p ∈ deeds, c.Does rounds depth p) (hstill : Course.Still (deeds.map Prod.fst)) :
    Quiet (told c.run (deeds.flatMap Prod.snd)) := by
  induction deeds with
  | nil => exact quiet_nil
  | cons p deeds ih =>
      obtain ⟨hp, hdeeds⟩ := List.forall_mem_cons.1 hdoes
      obtain ⟨hstill, hrest⟩ := Course.still_cons_iff.1 hstill
      rw [List.flatMap_cons, told_append]
      refine quiet_append_iff.2 ⟨?_, ih hdeeds hrest⟩
      -- what the course says is still; the rest is done by steps
      cases hp with
      | check => exact quiet_nil
      | tell event =>
          rw [told_cons_self]
          exact quiet_cons_iff.2 ⟨hstill, quiet_nil⟩
      | turn _ h => exact quiet_told_stepped hplace h
      | aside h => exact quiet_told_stepped hplace h

/-- What the course of a run says is made known as it is. -/
theorem told_deeds_of_said {deeds : List Deed} {events : List Event}
    (hdoes : ∀ p ∈ deeds, c.Does rounds depth p)
    (h : deeds.map Prod.fst = Course.said events) :
    told c.run (deeds.flatMap Prod.snd) = events := by
  induction deeds generalizing events with
  | nil =>
      cases events with
      | nil => rfl
      | cons => cases h
  | cons p deeds ih =>
      cases events with
      | nil => cases h
      | cons event events =>
          obtain ⟨hp, hdeeds⟩ := List.forall_mem_cons.1 hdoes
          obtain ⟨hx, hrest⟩ := List.cons.inj h
          cases hp with
          | tell event' =>
              cases hx
              rw [List.flatMap_cons, told_append, told_cons_self, ih hdeeds hrest]
              rfl
          | check => cases hx
          | turn => cases hx
          | aside => cases hx

end Told

/-! ## Status and log -/

namespace Course

/-- The last step that was run in its turn and came to an outcome. -/
def lastTurn? (s : Transcript Task.Reply) : Option (Nat × Step × Outcome) := (turns s).getLast?

/-- Whether the last step in its turn failed unhandled. -/
def lastFails (s : Transcript Task.Reply) : Bool :=
  (lastTurn? s).any fun (_, step, outcome) => failsUnhandled step outcome

/-- Whether the first condition that holds behind the last step in its turn ends the run. -/
def lastConditionStops (s : Transcript Task.Reply) : Bool :=
  (lastTurn? s).any fun (_, step, outcome) => conditionStops step outcome

/-- Whether the action for failure or success of the last step in its turn ends the run. -/
def lastHookStops (s : Transcript Task.Reply) : Bool :=
  (lastTurn? s).any fun (_, step, outcome) => hookStops step outcome

/-- Whether a run stands behind its last step. -/
def passedEnd (w : Workflow) (s : Transcript Task.Reply) : Bool :=
  (standing w 0 s).any fun there => decide (w.steps.length ≤ there)

/-- The last events of a run fit its status and what happened before: `s` is its course, `during`
what it made known until then. -/
inductive Parting (w : Workflow) (s : Transcript Task.Reply) (during : List Event) :
    Status → List Event → Prop
  | passed : passedEnd w s = true →
      Parting w s during .completed (farewell .completed "" "Workflow completed successfully")
  | byCondition : lastConditionStops s = true →
      Parting w s during .completed (farewell .completed "" "Workflow stopped by condition")
  | byHook {position : Nat} {step : Step} {outcome : Outcome} :
      lastTurn? s = some (position, step, outcome) → hookStops step outcome = true →
      Parting w s during .completed
        (farewell .completed "" ("Workflow stopped by " ++ hookName outcome))
  | failed {position : Nat} {step : Step} {outcome : Outcome} (failure : Failure)
      (earlier : List Event) :
      lastTurn? s = some (position, step, outcome) → failsUnhandled step outcome = true →
      outcome.failure = some failure →
      during = earlier ++ [remark step.id ("Step failed: " ++ failure.message) .error] →
      Parting w s during .failed
        (farewell .failed "" ("Workflow failed at step: " ++ step.displayName) .error)
  | crashed (crash : Crash) : sawCrash s = true →
      Parting w s during .failed (crashFarewell crash)
  | cancelled (stepId : String) : sawCancellation s = true →
      Parting w s during .cancelled (cancelledFarewell stepId)

end Course

/-- The log of a run. -/
def logOf (events : List Event) : List Entry :=
  events.filterMap fun
    | .entry e _ => some e
    | _ => none

/-- The terminal lines of a run. -/
def terminalLines (events : List Event) : List String :=
  events.filterMap fun
    | .entry e false => if isTerminalLine e.message then some e.message else none
    | _ => none

theorem terminalLines_of_quiet {events : List Event} (h : Quiet events) :
    terminalLines events = [] := by
  rw [terminalLines, List.filterMap_eq_nil_iff]
  intro e he
  have hquiet := h e he
  split
  · simpa [Event.isQuiet] using hquiet
  · rfl

theorem isTerminalLine_of_mem {words more : String} (h : words ∈ terminalWords) :
    isTerminalLine (words ++ more) = true := by
  refine List.any_eq_true.2 ⟨words, h, ?_⟩
  rw [String.toList_append, List.isPrefixOf_iff_prefix]
  exact List.prefix_append ..

namespace Course

section Parting

variable {w : Workflow} {limit : Nat} {s before : Transcript Task.Reply} {status : Status}
  {last : List Event}

/-- The first and the last events of a run do not change what its course shows. -/
theorem shown_of_whole {events : List Event}
    (hs : s = said [firstRemark w] ++ before ++ said events) :
    turns s = turns before ∧ sawCancellation s = sawCancellation before := by
  subst hs
  simp only [turns_append, turns_said, List.nil_append, List.append_nil, sawCancellation_append,
    sawCancellation_said, Bool.false_or, Bool.or_false, and_self]

theorem passedEnd_eq {there : Nat} (hturns : turns s = turns before)
    (hstanding : standing w 0 before = some there) :
    passedEnd w s = decide (w.steps.length ≤ there) := by
  have hsame : standing w 0 s = some there := by rw [← hstanding, standing, standing, hturns]
  rw [passedEnd, hsame, Option.any_some]

theorem nextPosition?_eq_none {position : Nat} {step : Step} {outcome : Outcome}
    (h : failsUnhandled step outcome = true) : nextPosition? w position step outcome = none := by
  simp only [failsUnhandled, Bool.and_eq_true] at h
  unfold nextPosition?
  split
  · rfl
  · split
    · rfl
    · rw [h.1.1, h.1.2]
      rfl

theorem not_stops_of_failsUnhandled {step : Step} {outcome : Outcome}
    (h : failsUnhandled step outcome = true) :
    conditionStops step outcome = false ∧ hookStops step outcome = false := by
  simp only [failsUnhandled, Bool.and_eq_true, Bool.not_eq_true'] at h
  obtain ⟨⟨hfailure, hnone⟩, hcondition⟩ := h
  refine ⟨hcondition, ?_⟩
  rw [hookStops, hook, if_pos hfailure, Option.isNone_iff_eq_none.1 hnone]
  rfl

/-- The status of a run fits what its course shows. -/
structure Classified (w : Workflow) (s : Transcript Task.Reply) (status : Status) : Prop where
  cancelled : status = .cancelled ↔ sawCancellation s = true
  failed : sawCancellation s = false →
    (status = .failed ↔ sawCrash s = true ∨ lastFails s = true)
  completed : sawCancellation s = false → sawCrash s = false →
    (status = .completed ↔
      passedEnd w s = true ∨ lastConditionStops s = true ∨ lastHookStops s = true)
  otherwise : sawCancellation s = false → sawCrash s = false → lastFails s = false →
    status = .completed

theorem classified_completed (hsaw : sawCancellation s = false) (hcrash : sawCrash s = false)
    (hfails : lastFails s = false)
    (hwhy : passedEnd w s = true ∨ lastConditionStops s = true ∨ lastHookStops s = true) :
    Classified w s .completed where
  cancelled := by simp [hsaw]
  failed _ := by simp [hcrash, hfails]
  completed _ _ := by simp [hwhy]
  otherwise _ _ _ := rfl

theorem lastFails_eq {position : Nat} {step : Step} {outcome : Outcome}
    (hlast : lastTurn? s = some (position, step, outcome)) :
    lastFails s = failsUnhandled step outcome ∧
      lastConditionStops s = conditionStops step outcome ∧
        lastHookStops s = hookStops step outcome := by
  simp only [lastFails, lastConditionStops, lastHookStops, hlast, Option.any_some, and_self]

theorem Closing.classified (hturns : turns s = turns before)
    (hsaw : sawCancellation s = sawCancellation before) (hcrash : sawCrash s = false)
    (h : Closing w 0 before status last) : Classified w s status := by
  have hlast : lastTurn? s = (turns before).getLast? := by rw [lastTurn?, hturns]
  cases h with
  | @passed there hcalm hstanding hpast =>
      refine classified_completed (hsaw.trans hcalm.2) hcrash ?_
        (.inl (by rw [passedEnd_eq hturns hstanding, decide_eq_true hpast]))
      rw [standing] at hstanding
      -- no step was run, or the last one let the run go on
      cases hl : (turns before).getLast? with
      | none => rw [lastFails, hlast, hl, Option.any_none]
      | some turn =>
          obtain ⟨position, step, outcome⟩ := turn
          rw [(lastFails_eq (hlast.trans hl)).1, Bool.eq_false_iff]
          intro hfails
          rw [hl] at hstanding
          cases (nextPosition?_eq_none hfails).symm.trans hstanding
  | byCondition hcalm hl hstops =>
      obtain ⟨hfails, hcondition, -⟩ := lastFails_eq (hlast.trans hl)
      refine classified_completed (hsaw.trans hcalm.2) hcrash ?_
        (.inr (.inl (hcondition.trans hstops)))
      rw [hfails, Bool.eq_false_iff]
      intro hfails
      cases (not_stops_of_failsUnhandled hfails).1.symm.trans hstops
  | byHook hcalm hl hstops =>
      obtain ⟨hfails, -, hhook⟩ := lastFails_eq (hlast.trans hl)
      refine classified_completed (hsaw.trans hcalm.2) hcrash ?_
        (.inr (.inr (hhook.trans hstops)))
      rw [hfails, Bool.eq_false_iff]
      intro hfails
      cases (not_stops_of_failsUnhandled hfails).2.symm.trans hstops
  | @failed position step outcome failure earlier hcalm hl hfails _ _ =>
      obtain ⟨hlastFails, hcondition, hhook⟩ := lastFails_eq (hlast.trans hl)
      obtain ⟨hnocondition, hnohook⟩ := not_stops_of_failsUnhandled hfails
      have hstanding : standing w 0 s = none := by
        rw [standing, hturns, hl]
        exact nextPosition?_eq_none hfails
      refine ⟨?_, fun _ => ?_, fun _ _ => ?_, fun _ _ hnot => ?_⟩
      · simp [hsaw, hcalm.2]
      · simp [hlastFails, hfails]
      · simp [passedEnd, hstanding, hcondition, hhook, hnocondition, hnohook]
      · rw [hlastFails, hfails] at hnot
        cases hnot
  | cancelled stepId hstill hcancelled =>
      have hseen : sawCancellation s = true := hsaw.trans hcancelled
      refine ⟨by simp [hseen], fun hnot => ?_, fun hnot => ?_, fun hnot => ?_⟩ <;>
        exact absurd hseen (by simp [hnot])

theorem classified_of_crash (hsaw : sawCancellation s = false) (hcrash : sawCrash s = true) :
    Classified w s .failed where
  cancelled := by simp [hsaw]
  failed _ := by simp [hcrash]
  completed _ hnot := absurd hcrash (by simp [hnot])
  otherwise _ hnot := absurd hcrash (by simp [hnot])

theorem Whole.classified (h : Whole w limit s (.ok status)) : Classified w s status := by
  obtain ⟨before, last, hs, hclosing | ⟨crash, hcalm, rfl, rfl⟩⟩ := h.closing
  · obtain ⟨hturns, hsaw⟩ := shown_of_whole hs
    refine hclosing.classified hturns hsaw ?_
    rw [hs, sawCrash_append, sawCrash_append]
    rw [sawCrash_eq_false_of_still hclosing.still]
    cases hclosing <;> rfl
  · obtain ⟨-, hsaw⟩ := shown_of_whole hs
    refine classified_of_crash (hsaw.trans hcalm.2) ?_
    rw [hs, sawCrash_append]
    exact Bool.or_eq_true_iff.2 (.inr rfl)

theorem Closing.parting {during : List Event} (hturns : turns s = turns before)
    (hsaw : sawCancellation s = sawCancellation before)
    (hduring : ∀ earlier event, before = earlier ++ said [event] →
      ∃ told, during = told ++ [event])
    (h : Closing w 0 before status last) : Parting w s during status last := by
  have hlast : lastTurn? s = (turns before).getLast? := by rw [lastTurn?, hturns]
  cases h with
  | passed _ hstanding hpast =>
      exact .passed (by rw [passedEnd_eq hturns hstanding, decide_eq_true hpast])
  | byCondition _ hl hstops =>
      exact .byCondition ((lastFails_eq (hlast.trans hl)).2.1.trans hstops)
  | byHook _ hl hstops => exact .byHook (hlast.trans hl) hstops
  | failed failure earlier _ hl hfails hfailure hbefore =>
      obtain ⟨told, htold⟩ := hduring _ _ hbefore
      exact .failed failure told (hlast.trans hl) hfails hfailure htold
  | cancelled stepId _ hcancelled => exact .cancelled stepId (hsaw.trans hcancelled)

/-- The last events of a run hold one entry, and it is a terminal line. -/
theorem Parting.line {during : List Event} (h : Parting w s during status last) :
    ∃ line, logOf last = [line] ∧ terminalLines last = [line.message] := by
  -- the one entry of a farewell begins with the words of a last line
  have hfarewell : ∀ {status : Status} {stepId message : String} {level : Level},
      isTerminalLine message = true →
        terminalLines (farewell status stepId message level) = [message] := by
    intro status stepId message level hline
    simp [terminalLines, farewell, remark, hline]
  cases h with
  | passed => exact ⟨_, rfl, hfarewell (by decide)⟩
  | byCondition => exact ⟨_, rfl, hfarewell (by decide)⟩
  | byHook => exact ⟨_, rfl, hfarewell (isTerminalLine_of_mem (by decide))⟩
  | failed => exact ⟨_, rfl, hfarewell (isTerminalLine_of_mem (by decide))⟩
  | crashed => exact ⟨_, rfl, hfarewell (isTerminalLine_of_mem (by decide))⟩
  | cancelled => exact ⟨_, rfl, hfarewell (by decide)⟩

end Parting

end Course

open Course in
/-- What a run makes known from its first line to its last. -/
theorem told_of_ran {rounds depth : Nat} {k : Call} {c : Context} {deeds : List Deed}
    {t : Transcript Query.Reply} {status : Status} (h : k.Ran rounds depth c deeds t (.ok status)) :
    ∃ during last, told c.run t = firstRemark c.workflow :: during ++ last ++ [.closed] ∧
      Quiet during ∧ Parting c.workflow (deeds.map Prod.fst) during status last := by
  obtain ⟨first, hbegins, rfl⟩ := h.begins
  obtain ⟨before, last, hs, hending⟩ := h.whole.closing
  obtain ⟨hturns, hsaw⟩ := shown_of_whole hs
  have hplace : c.run.depth < c.chain.length := by
    rw [h.place.2]
    exact Nat.lt_succ_self _
  -- the deeds of the first line, of the steps, and of the farewell
  obtain ⟨deeds', deeds₃, rfl, hfirst, hlast⟩ := List.map_eq_append_iff.1 hs
  obtain ⟨deeds₁, deeds₂, rfl, hone, rfl⟩ := List.map_eq_append_iff.1 hfirst
  obtain ⟨hdoes', hdoes₃⟩ := List.forall_mem_append.1 h.does
  obtain ⟨hdoes₁, hdoes₂⟩ := List.forall_mem_append.1 hdoes'
  refine ⟨told c.run (deeds₂.flatMap Prod.snd), last, ?_, ?_, ?_⟩
  · simp only [List.flatMap_append, told_append, hbegins.told_eq_nil,
      told_deeds_of_said hdoes₁ hone, told_deeds_of_said hdoes₃ hlast]
    simp
  · refine quiet_told_deeds hplace hdoes₂ ?_
    rcases hending with hclosing | ⟨crash, hcalm, -⟩
    · exact hclosing.still
    · exact hcalm.1
  · rcases hending with hclosing | ⟨crash, -, rfl, rfl⟩
    · refine hclosing.parting hturns hsaw fun earlier event hbefore => ?_
      -- what the course says last before it closes is what the run makes known last
      obtain ⟨deeds₄, deeds₅, rfl, -, hevent⟩ := List.map_eq_append_iff.1 hbefore
      refine ⟨told c.run (deeds₄.flatMap Prod.snd), ?_⟩
      rw [List.flatMap_append, told_append,
        told_deeds_of_said (List.forall_mem_append.1 hdoes₂).2 hevent]
    · refine .crashed crash ?_
      rw [hs, sawCrash_append]
      exact Bool.or_eq_true_iff.2 (.inr rfl)

open Course in
/-- A run that ends has the status that its course shows, and its log goes from the first line of a
run to the one terminal line that fits the status. -/
theorem execution_ends_as_shown {rounds depth : Nat} {k : Call} {t : Transcript Query.Reply}
    {status : Status} (h : Yields (k.execute rounds (depth + 1)) t (.ok (.ok status))) :
    ∃ c deeds, k.Ran rounds depth c deeds t (.ok status) ∧
      Classified c.workflow (deeds.map Prod.fst) status ∧
      ∃ during last line,
        told c.run t = firstRemark c.workflow :: during ++ last ++ [.closed] ∧ Quiet during ∧
        Parting c.workflow (deeds.map Prod.fst) during status last ∧
        (logOf (told c.run t)).getLast? = some line ∧
        terminalLines (told c.run t) = [line.message] := by
  obtain ⟨c, deeds, hran⟩ := k.ran_of_yields (r := .ok status) h
  obtain ⟨during, last, htold, hquiet, hparting⟩ := told_of_ran hran
  obtain ⟨line, hline, hterminal⟩ := hparting.line
  refine ⟨c, deeds, hran, hran.whole.classified, during, last, line, htold, hquiet, hparting,
    ?_, ?_⟩
  · have hlog : logOf (told c.run t) =
        logOf (firstRemark c.workflow :: during) ++ logOf last ++ logOf [.closed] := by
      simp only [htold, logOf, List.filterMap_append]
    rw [hlog, hline, show logOf [.closed] = [] from rfl, List.append_nil, List.getLast?_concat]
  · have hlines : terminalLines (told c.run t) =
        terminalLines (firstRemark c.workflow :: during) ++ terminalLines last ++
          terminalLines [.closed] := by
      simp only [htold, terminalLines, List.filterMap_append]
    rw [hlines, hterminal, terminalLines_of_quiet (quiet_cons_iff.2 ⟨?_, hquiet⟩)]
    · rfl
    · exact isQuiet_remark (by decide)

open Store.Workflows (smallStore) in
/-- The last step refers to its own workflow, and nothing handles that it fails. -/
theorem execution_ends_as_shown_smallStore :
    let k : Call := ⟨[], "a", []⟩
    let t := (k.execute 3 2).run.transcript (steady smallStore.get? false (.refused ""))
    Yields (k.execute 3 2) t (.ok (.ok .failed)) ∧
      ∃ c deeds, k.Ran 3 1 c deeds t (.ok .failed) ∧
        Course.Classified c.workflow (deeds.map Prod.fst) .failed := by
  intro k t
  have hresult : (k.execute 3 2).run.result (steady smallStore.get? false (.refused "")) =
      .ok (.ok .failed) := rfl
  have h : Yields (k.execute 3 2) t (.ok (.ok .failed)) := hresult ▸ yields_transcript _ _
  obtain ⟨c, deeds, hran, hclassified, -⟩ := execution_ends_as_shown h
  exact ⟨h, c, deeds, hran, hclassified⟩

end Runbook.Run
