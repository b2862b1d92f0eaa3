import Runbook.Proofs.Run.Cancellation

/-!
# Runs that are to stop from the start

The question whether to stop is asked at the start of each round. If every answer is that the run is
to stop, the first round ends the run before it runs its step, so no command is started and no nested
run begins (`cancelled_before_start`). A run of a workflow without steps makes no round. It does not
ask, and it is completed (`no_steps_not_cancelled`).
-/

set_option autoImplicit false

namespace Runbook.Run

open Dialogue (Goes Ends)

/-! ## The course -/

namespace Course

variable {w : Workflow} {limit : Nat} {s : Transcript Task.Reply}

/-- What a run comes to behind its first entry if no check lets it go on. -/
inductive EndsEarly (w : Workflow) : Transcript Task.Reply → Status → Prop
  | noSteps : w.steps = [] →
      EndsEarly w (said (farewell .completed "" "Workflow completed successfully")) .completed
  | stopped {step : Step} {more : List Step} : w.steps = step :: more →
      EndsEarly w (⟨.check, true⟩ :: said (cancelledFarewell step.id)) .cancelled

theorem Lap.of_set {position : Nat} {step : Step} {r : Except Break Next}
    (h : Lap w position step s r) (hset : ⟨.check, false⟩ ∉ s) :
    s = ⟨.check, true⟩ :: said (cancelledFarewell step.id) ∧ r = .ok (.ended .cancelled) := by
  -- in every other round the first check lets the run go on
  cases h with
  | stopped => exact ⟨rfl, rfl⟩
  | broke => exact (hset (by simp)).elim
  | cancelled => exact (hset (by simp)).elim
  | judged => exact (hset (by simp [opening])).elim
  | hooked => exact (hset (by simp [opening])).elim

theorem Laps.of_set {r : Except Break Status} (h : Laps w (limit + 1) 0 s r)
    (hset : ⟨.check, false⟩ ∉ s) : ∃ status, EndsEarly w s status ∧ r = .ok status := by
  have hfirst : ∀ {step : Step}, w.steps[0]? = some step → ∃ more, w.steps = step :: more := by
    intro step hstep
    cases hsteps : w.steps with
    | nil =>
        rw [hsteps] at hstep
        cases hstep
    | cons first more =>
        rw [hsteps] at hstep
        cases hstep
        exact ⟨more, rfl⟩
  cases h with
  | past hpast => exact ⟨_, .noSteps (by simpa using hpast), rfl⟩
  | broke _ hlap => cases (hlap.of_set hset).2
  | ended hstep hlap =>
      obtain ⟨rfl, hr⟩ := hlap.of_set hset
      cases hr
      obtain ⟨more, hsteps⟩ := hfirst hstep
      exact ⟨_, .stopped hsteps, rfl⟩
  | next _ hlap => cases (hlap.of_set fun hmem => hset (List.mem_append_left _ hmem)).2

theorem Whole.of_set {r : Except Break Status} (h : Whole w (limit + 1) s r)
    (hset : ⟨.check, false⟩ ∉ s) : ∃ early status, EndsEarly w early status ∧
      s = said [firstRemark w] ++ early ++ said [.closed] ∧ r = .ok status := by
  cases h with
  | outOfRounds hlaps =>
      obtain ⟨status, -, hr⟩ := hlaps.of_set fun hmem => hset (List.mem_append_right _ hmem)
      cases hr
  | @ended early status hlaps =>
      obtain ⟨status, hearly, hr⟩ := hlaps.of_set fun hmem =>
        hset (List.mem_append_left _ (List.mem_append_right _ hmem))
      cases hr
      exact ⟨_, _, hearly, rfl, rfl⟩
  | crashed hlaps =>
      obtain ⟨status, -, hr⟩ := hlaps.of_set fun hmem =>
        hset (List.mem_append_left _ (List.mem_append_right _ hmem))
      cases hr

end Course

/-! ## The run -/

/-- What a task asks that runs no step. -/
def Context.asks (c : Context) : Exchange Task.Reply → Transcript Query.Reply
  | ⟨.check, requested⟩ => [⟨.cancelRequested, requested⟩]
  | ⟨.tell event, _⟩ => [⟨.tell c.run event, ()⟩]
  | _ => []

/-- A course that runs no step asks what its tasks ask. -/
theorem flatMap_of_stepless {c : Context} {rounds depth : Nat} {deeds : List Deed}
    (hdoes : ∀ p ∈ deeds, c.Does rounds depth p)
    (hstepless : ∀ x ∈ deeds.map Prod.fst, x.1.step? = none) :
    deeds.flatMap Prod.snd = (deeds.map Prod.fst).flatMap c.asks := by
  rw [List.flatMap_map]
  refine List.flatMap_congr fun p hp => ?_
  have hnone := hstepless p.1 (List.mem_map_of_mem hp)
  have hpiece := hdoes p hp
  cases hpiece with
  | check => rfl
  | tell => rfl
  | turn => cases hnone
  | aside => cases hnone

/-- A run begins. -/
def isBegin (x : Exchange Query.Reply) : Bool :=
  match x.1 with
  | .begin .. => true
  | _ => false

/-- How a run of a workflow ends that is to stop from the start: its status and its last entry. -/
def earlyEnd (w : Workflow) : Status × Entry :=
  match w.steps with
  | [] => (.completed, ⟨"", .info, "Workflow completed successfully"⟩)
  | step :: _ => (.cancelled, ⟨step.id, .info, "Execution cancelled"⟩)

/-- The first entry of a run of a workflow. -/
def firstEntry (w : Workflow) : Entry := ⟨"", .info, "Starting workflow: " ++ w.title⟩

theorem Course.EndsEarly.stepless {w : Workflow} {early : Transcript Task.Reply} {status : Status}
    (h : Course.EndsEarly w early status) :
    ∀ x ∈ Course.said [Course.firstRemark w] ++ early ++ Course.said [.closed],
      x.1.step? = none := by
  cases h with
  | noSteps => simp [farewell, Task.step?]
  | stopped => simp [cancelledFarewell, farewell, Task.step?]

/-- A run that is to stop from the start has two entries in its log, starts nothing, and has the
status of its early end. -/
theorem Course.EndsEarly.exchanged {c : Context} {early : Transcript Task.Reply} {status : Status}
    (h : Course.EndsEarly c.workflow early status)
    {t : Transcript Query.Reply}
    (ht : t = (Course.said [Course.firstRemark c.workflow] ++ early ++
      Course.said [.closed]).flatMap c.asks) :
    status = (earlyEnd c.workflow).1 ∧ t.countP isLaunch = 0 ∧ t.countP isBegin = 0 ∧
      logOf (told c.run t) = [firstEntry c.workflow, (earlyEnd c.workflow).2] := by
  subst ht
  cases h with
  | noSteps hsteps =>
      rw [earlyEnd, hsteps]
      refine ⟨rfl, rfl, rfl, ?_⟩
      simp [told, logOf, Context.asks, Course.firstRemark, remark, farewell, firstEntry]
  | stopped hsteps =>
      rw [earlyEnd, hsteps]
      refine ⟨rfl, rfl, rfl, ?_⟩
      simp [told, logOf, Context.asks, Course.firstRemark, remark, farewell, cancelledFarewell,
        firstEntry]

/-- What an execution comes to that finds its workflow and is to stop from the start. -/
structure StopsEarly (w : Workflow) (t : Transcript Query.Reply)
    (r : Except Break (Except Failure Status)) : Prop where
  result : r = .ok (.ok (earlyEnd w).1)
  noCommand : t.countP isLaunch = 0
  oneRun : t.countP isBegin = 1
  log : ∃ run scope, run.depth = 0 ∧ beganAs run scope ∈ t ∧
    logOf (told run t) = [firstEntry w, (earlyEnd w).2]

theorem stopsEarly_of_yields {rounds depth : Nat} {id : String} {inputs : Scope} {w : Workflow}
    {t : Transcript Query.Reply} {r : Except Break (Except Failure Status)}
    (h : Yields (execute (rounds + 1) (depth + 1) [] id inputs) (⟨.workflow id, some w⟩ :: t) r)
    (hset : IsSet t) : StopsEarly w t r := by
  generalize hall : (⟨.workflow id, some w⟩ :: t : Transcript Query.Reply) = all at h
  cases (⟨[], id, inputs⟩ : Call).executed_of_yields h with
  | cycle => cases hall
  | notFound => cases hall
  | @ran c deeds _ r hran =>
      cases hran with
      | ran w' globals executionId _ hdoes hwhole =>
          obtain ⟨hfound, rfl⟩ := List.cons.inj hall
          obtain rfl : w = w' := by
            cases hfound
            rfl
          let begun : Transcript Query.Reply := [⟨.globals, globals⟩,
            ⟨.begin w.id (resolve globals w.declared inputs) 0, executionId⟩]
          change IsSet (begun ++ deeds.flatMap Prod.snd) at hset
          have hcourse : ⟨.check, false⟩ ∉ deeds.map Prod.fst := fun hmem =>
            goAhead_notMem_deeds hdoes (isSet_append.1 hset).2
              (List.mem_filterMap.2 ⟨_, hmem, rfl⟩)
          obtain ⟨early, status, hearly, hs, rfl⟩ := hwhole.of_set hcourse
          have hasked := flatMap_of_stepless hdoes (hs ▸ hearly.stepless)
          rw [hs] at hasked
          obtain ⟨rfl, hlaunch, hbegin, hlog⟩ := hearly.exchanged hasked
          -- the run has begun, and what it asks from there on is known
          refine ⟨rfl, ?_, ?_, ⟨executionId, w.id, 0⟩, resolve globals w.declared inputs, rfl,
            List.mem_append_left _ (List.mem_cons_of_mem _ (List.mem_cons_self ..)), hlog⟩
          · change (begun ++ _).countP isLaunch = 0
            rw [List.countP_append, hlaunch]
            rfl
          · change (begun ++ _).countP isBegin = 1
            rw [List.countP_append, hbegin]
            rfl

/-- A run that is to stop before it begins starts no command and no nested run, and it comes to its
end: cancelled by the first check, or completed if its workflow has no steps. -/
theorem cancelled_before_start {rounds depth : Nat} {id : String} {inputs : Scope} {w : Workflow}
    {t : Transcript Query.Reply}
    {rest : Dialogue Query.Reply (Except Break (Except Failure Status))}
    (h : Goes (execute (rounds + 1) (depth + 1) [] id inputs).run (⟨.workflow id, some w⟩ :: t) rest)
    (hset : IsSet t) :
    t.countP isLaunch = 0 ∧ t.countP isBegin ≤ 1 ∧ (∃ u r, Ends rest u r ∧ IsSet u) ∧
      ∀ u r, Ends rest u r → IsSet u → StopsEarly w (t ++ u) r := by
  have hend : ∀ u r, Ends rest u r → IsSet u → StopsEarly w (t ++ u) r := fun u r hu hset_u =>
    stopsEarly_of_yields (Dialogue.goes_append_iff.2 ⟨rest, h, hu⟩) (isSet_append.2 ⟨hset, hset_u⟩)
  -- the execution is carried on to its end, where all its commands and runs are counted
  obtain ⟨u, r, hu, hset_u⟩ := exists_ends_isSet (d := rest)
  have hnone := (hend u r hu hset_u).noCommand
  have hone := (hend u r hu hset_u).oneRun
  rw [List.countP_append] at hnone hone
  exact ⟨by omega, by omega, ⟨u, r, hu, hset_u⟩, hend⟩

/-- The replies of a world in which runs are to stop. -/
def stopping (w : Workflow) : (q : Query) → q.Reply := steady (fun _ => some w) true (.refused "")

theorem isSet_transcript {α : Type} (w : Workflow) (d : Dialogue Query.Reply α) :
    IsSet (d.transcript (stopping w)) := by
  intro hmem
  cases Dialogue.mem_transcript hmem

theorem cancelled_before_start_oneCommand :
    let d := (execute 1 1 [] "a" []).run
    let t := (d.transcript (stopping oneCommand)).tail
    Ends d (⟨.workflow "a", some oneCommand⟩ :: t) (.ok (.ok .cancelled)) ∧ IsSet t ∧
      ∃ run, logOf (told run t) = [⟨"", .info, "Starting workflow: a"⟩,
        ⟨"only", .info, "Execution cancelled"⟩] := by
  intro d t
  have hends : Ends d (⟨.workflow "a", some oneCommand⟩ :: t) (.ok (.ok .cancelled)) :=
    Dialogue.ends_transcript (stopping oneCommand) d
  have hset : IsSet t := fun hmem => isSet_transcript oneCommand d (List.mem_of_mem_tail hmem)
  obtain ⟨-, -, -, hend⟩ := cancelled_before_start hends hset
  obtain ⟨run, -, -, -, hlog⟩ := (hend [] _ (.here _) (by simp [IsSet])).log
  rw [List.append_nil] at hlog
  exact ⟨hends, hset, run, hlog⟩

/-- A workflow without steps. -/
def noSteps : Workflow := { id := "w" }

/-- The run of a workflow without steps is completed, although it was to stop before it began. -/
theorem no_steps_not_cancelled :
    let d := (execute 1 1 [] "w" []).run
    let t := (d.transcript (stopping noSteps)).tail
    Ends d (⟨.workflow "w", some noSteps⟩ :: t) (.ok (.ok .completed)) ∧ IsSet t ∧
      logOf (told ⟨"run", "w", 0⟩ t) = [⟨"", .info, "Starting workflow: w"⟩,
        ⟨"", .info, "Workflow completed successfully"⟩] := by
  intro d t
  exact ⟨Dialogue.ends_transcript (stopping noSteps) d,
    fun hmem => isSet_transcript noSteps d (List.mem_of_mem_tail hmem), rfl⟩

end Runbook.Run
