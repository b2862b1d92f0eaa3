import Runbook.Proofs.Run.Cancellation
import Runbook.Proofs.Shell.Honesty

/-!
# Executions that nobody asks to stop

An execution is `Unset` as long as no reply says that it is to stop, none of its commands asks for it,
and no command is started that could say that it was killed without a reason.

A run ends as cancelled because a check says that it is to stop, or because the step that it ran was
cancelled. Such a step is a command that was killed, or a nested run that ended as cancelled. So by
induction on how deep runs may be nested, some run of an execution ends as cancelled only after the
execution has ceased to be unset (`not_unset_of_finished`), in whichever of its runs that was.
-/

set_option autoImplicit false

namespace Runbook.Run

open Dialogue (Goes Ends Serves)

/-! ## Exchanges that give no reason to stop -/

/-- An exchange gives no reason to stop. -/
def Silent : Exchange Query.Reply → Prop
  | ⟨.cancelRequested, requested⟩ => requested = false
  | ⟨.wait _, stopped⟩ => stopped = false
  | ⟨.cancel, _⟩ => False
  | ⟨.launch _, launch⟩ => launch.Honest false
  | _ => True

/-- Nothing that was exchanged gives a reason to stop. -/
def Unset (t : Transcript Query.Reply) : Prop := ∀ x ∈ t, Silent x

theorem unset_nil : Unset [] := fun _ h => nomatch h

theorem unset_cons_iff {x : Exchange Query.Reply} {t : Transcript Query.Reply} :
    Unset (x :: t) ↔ Silent x ∧ Unset t := List.forall_mem_cons

theorem unset_append_iff {t u : Transcript Query.Reply} : Unset (t ++ u) ↔ Unset t ∧ Unset u :=
  List.forall_mem_append

theorem Unset.of_relayed {c : Context} {step : Step} {t : Transcript Query.Reply}
    (h : Unset (c.relayed step t)) : Unset t := fun x hx => h x (c.mem_relayed hx)

/-! ## Steps that were cancelled -/

section Step

variable {c : Context} {rounds depth : Nat} {step : Step} {t : Transcript Query.Reply}

/-- An honest command that is followed without a reason to stop is not killed. -/
theorem not_killed_of_follow {stepId output output' : String} {process : Process} {exitCode : Int}
    {killed : Bool} (h : Yields (c.follow stepId process output) t (.ok (output', exitCode, killed)))
    (hhonest : process.Honest false) (ht : Unset t) : killed = false := by
  induction process generalizing output t with
  | line source text rest ih =>
      obtain ⟨_, t, rfl, hrest⟩ := yields_lift_bind_iff.1 h
      exact ih hrest hhonest (unset_cons_iff.1 ht).2
  | lasts milliseconds next ih =>
      obtain ⟨stopped, t, rfl, hrest⟩ := yields_lift_bind_iff.1 h
      obtain ⟨hstopped, hunset⟩ := unset_cons_iff.1 ht
      -- the pause goes by, so nothing has changed about whether to stop
      obtain rfl : stopped = false := hstopped
      exact ih false hrest (hhonest false) hunset
  | cancels rest ih =>
      obtain ⟨_, t, rfl, hrest⟩ := yields_lift_bind_iff.1 h
      exact (unset_cons_iff.1 ht).1.elim
  | writes change rest ih =>
      obtain ⟨_, t, rfl, hrest⟩ := yields_lift_bind_iff.1 h
      exact ih hrest hhonest (unset_cons_iff.1 ht).2
  | ended code wasKilled =>
      obtain ⟨-, hresult⟩ := yields_pure_iff.1 h
      cases hresult
      exact Bool.eq_false_iff.2 fun hkilled => Bool.false_ne_true (hhonest hkilled)

theorem not_cancelled_of_command {outcome : Outcome}
    (h : Yields (c.runCommand step) t (.ok outcome)) (ht : Unset t) :
    outcome.isCancelled = false := by
  obtain ⟨_, t, rfl, hlaunch⟩ := yields_lift_bind_iff.1 h
  obtain ⟨reply, t, rfl, hrest⟩ := yields_lift_bind_iff.1 hlaunch
  obtain ⟨hhonest, hunset⟩ := unset_cons_iff.1 (unset_cons_iff.1 ht).2
  cases reply with
  | crashed crash => cases (yields_throw_iff.1 hrest).2
  | refused reason =>
      obtain ⟨-, houtcome⟩ := yields_pure_iff.1 hrest
      cases houtcome
      rfl
  | started process =>
      rcases yields_bind_iff.1 hrest with ⟨b, -, hb⟩ | ⟨work, performance, t, rfl, hfollow, hend⟩
      · cases hb
      · obtain ⟨output, exitCode, killed⟩ := performance
        obtain ⟨-, houtcome⟩ := yields_pure_iff.1 hend
        obtain rfl : killed = false :=
          not_killed_of_follow hfollow hhonest (unset_append_iff.1 hunset).1
        cases houtcome
        by_cases hzero : exitCode = 0
        · simp [Outcome.isCancelled, hzero]
        · simp [Outcome.isCancelled, hzero]

/-- A step that names a workflow is cancelled only if the nested run is. -/
theorem cancelled_of_ofNested {k : Call} {r : Except Failure Status}
    (h : Yields (k.execute rounds depth) t (.ok r)) {id : String}
    (hcancelled : (Outcome.ofNested id r).isCancelled = true) : r = .ok .cancelled := by
  cases depth with
  | zero => cases (yields_throw_iff.1 h).2
  | succ depth =>
      rcases k.served_of_yields h with ⟨-, -, hr⟩ | ⟨-, -, hr⟩ | ⟨_, _, r', -, hr⟩
      · cases hr
        cases hcancelled
      · cases hr
        cases hcancelled
      · cases r' with
        | error b => cases hr
        | ok status =>
            cases hr
            cases status with
            | cancelled => rfl
            | _ => cases hcancelled

/-- Without a reason to stop no step is cancelled, if no nested run is. -/
theorem not_cancelled_of_step {outcome : Outcome}
    (hnested : ∀ {k : Call} {t : Transcript Query.Reply},
      Yields (k.execute rounds depth) t (.ok (.ok .cancelled)) → ¬ Unset t)
    (h : (c.runStep (execute rounds depth) step).run.Ends t (.ok outcome)) (ht : Unset t) :
    outcome.isCancelled = false := by
  rw [Context.runStep] at h
  split at h
  · exact not_cancelled_of_command h ht
  · obtain ⟨_, t, rfl, hrun⟩ := yields_lift_bind_iff.1 h
    rcases yields_bind_iff.1 hrun with ⟨b, -, hb⟩ | ⟨t, result, t', rfl, hrelay, hend⟩
    · cases hb
    · obtain ⟨-, houtcome⟩ := yields_pure_iff.1 hend
      obtain ⟨t, hexecute, rfl⟩ := c.ends_relay_iff.1 hrelay
      have hyields : Yields ((c.call step).execute rounds depth) t (.ok result) := hexecute
      cases houtcome
      rw [Bool.eq_false_iff]
      intro hcancelled
      obtain rfl := cancelled_of_ofNested hyields hcancelled
      exact hnested hyields (unset_append_iff.1 (unset_cons_iff.1 ht).2).1.of_relayed
  · obtain ⟨-, houtcome⟩ := yields_pure_iff.1 h
    cases houtcome
    rfl

/-- Without a reason to stop no deed of a run is a cancellation, if no nested run is cancelled. -/
theorem not_isCancellation_of_serves {p : Deed}
    (hnested : ∀ {k : Call} {t : Transcript Query.Reply},
      Yields (k.execute rounds depth) t (.ok (.ok .cancelled)) → ¬ Unset t)
    (h : Serves (c.serve (execute rounds depth)) p) (ht : Unset p.2) :
    Course.isCancellation p.1 = false := by
  obtain ⟨⟨task, reply⟩, t⟩ := p
  cases task with
  | check =>
      obtain rfl : t = [⟨.cancelRequested, reply⟩] := Dialogue.ends_query_iff.1 h
      exact (unset_cons_iff.1 ht).1
  | tell event => rfl
  | turn position step =>
      cases reply with
      | error b => rfl
      | ok outcome => exact not_cancelled_of_step hnested h ht
  | aside step => rfl

end Step

/-! ## Runs that end as cancelled -/

/-- A run ends as cancelled behind a cancellation. -/
theorem Course.Whole.saw_of_finished {w : Workflow} {limit : Nat} {a b : Transcript Task.Reply}
    {r : Except Break Status} {stepId : String}
    (h : Course.Whole w limit (a ++ ⟨.tell (.finished .cancelled stepId), ()⟩ :: b) r) :
    Course.sawCancellation a = true := by
  have hfirst : Course.Still (said [firstRemark w]) :=
    still_said_iff.2 (quiet_cons_iff.2 ⟨isQuiet_remark (by decide), quiet_nil⟩)
  -- what sets a status is not still
  have hnot : ∀ {s : Transcript Task.Reply}, Course.Still s →
      ⟨.tell (.finished .cancelled stepId), ()⟩ ∉ s := by
    intro s hstill hmem
    cases hstill _ hmem
  generalize hs : a ++ ⟨.tell (.finished .cancelled stepId), ()⟩ :: b = s at h
  have hmem : ⟨.tell (.finished .cancelled stepId), ()⟩ ∈ s :=
    hs ▸ List.mem_append_right _ (List.mem_cons_self ..)
  cases r with
  | error cause =>
      cases h with
      | outOfRounds hlaps =>
          exact absurd hmem (hnot (still_append_iff.2 ⟨hfirst, hlaps.error_calm.1⟩))
  | ok status =>
      obtain ⟨before, last, rfl, hending⟩ := h.closing
      have hstill : Course.Still (said [firstRemark w] ++ before) := by
        refine still_append_iff.2 ⟨hfirst, ?_⟩
        rcases hending with hclosing | ⟨crash, hcalm, -⟩
        · exact hclosing.still
        · exact hcalm.1
      have hlast : Event.finished .cancelled stepId ∈ last := by
        rcases List.mem_append.1 hmem with hbefore | hsaid
        · exact absurd hbefore (hnot hstill)
        · obtain ⟨event, hevent, heq⟩ := List.mem_map.1 hsaid
          cases heq
          simpa using hevent
      -- it is one of the last events, and they are those of a cancelled run
      have hsaw : Course.sawCancellation before = true := by
        rcases hending with hclosing | ⟨crash, -, -, rfl⟩
        · cases hclosing with
          | cancelled _ _ hsaw => exact hsaw
          | _ => simp [farewell, remark] at hlast
        · simp [crashFarewell, farewell, remark] at hlast
      rcases append_eq_append_cons hs.symm with ⟨es, hes, -⟩ | ⟨es, rfl, -⟩
      · exact absurd (hes ▸ List.mem_append_right _ (List.mem_cons_self ..)) (hnot hstill)
      · rw [sawCancellation_append, sawCancellation_append, hsaw]
        simp

/-- A run that comes to a status makes it known. -/
theorem exists_finished_of_yields {rounds depth : Nat} {k : Call} {t : Transcript Query.Reply}
    {status : Status} (h : Yields (k.execute rounds depth) t (.ok (.ok status))) :
    ∃ run stepId, telling run (.finished status stepId) ∈ t := by
  cases depth with
  | zero => cases (yields_throw_iff.1 h).2
  | succ depth =>
      obtain ⟨c, deeds, hran⟩ := k.ran_of_yields (r := .ok status) h
      obtain ⟨during, last, htold, -, hparting⟩ := told_of_ran hran
      obtain ⟨stepId, hlast⟩ : ∃ stepId, Event.finished status stepId ∈ last := by
        cases hparting with
        | cancelled stepId => exact ⟨stepId, List.mem_cons_of_mem _ (List.mem_singleton_self _)⟩
        | _ => exact ⟨"", by simp [farewell, Course.crashFarewell]⟩
      refine ⟨c.run, stepId, mem_told_iff.1 ?_⟩
      rw [htold]
      exact List.mem_append_left _ (List.mem_append_right _ hlast)

/-- A deed in which a run ends as cancelled says so of its own run, or a nested run ends in it. -/
theorem of_finished_deed {c : Context} {rounds depth : Nat} {p : Deed} {u v : Transcript Query.Reply}
    {run : Identity} {stepId : String} (h : c.Does rounds depth p)
    (hp : p.2 = u ++ telling run (.finished .cancelled stepId) :: v) :
    p.1 = ⟨.tell (.finished .cancelled stepId), ()⟩ ∨
      ∃ k : Call, ∃ t₁ t₂ r, Yields (k.execute rounds depth)
        (t₁ ++ telling run (.finished .cancelled stepId) :: t₂) r ∧ (Unset u → Unset t₁) := by
  have hmem : telling run (.finished .cancelled stepId) ∈ p.2 :=
    hp ▸ List.mem_append_right _ (List.mem_cons_self ..)
  have hstep : ∀ {step : Step} {piece : Transcript Query.Reply} {r : Except Break Outcome},
      c.Stepped rounds depth step piece r →
      piece = u ++ telling run (.finished .cancelled stepId) :: v →
      ∃ k : Call, ∃ t₁ t₂ r, Yields (k.execute rounds depth)
        (t₁ ++ telling run (.finished .cancelled stepId) :: t₂) r ∧ (Unset u → Unset t₁) := by
    intro step piece r hstepped hpiece
    have hin : telling run (.finished .cancelled stepId) ∈ piece :=
      hpiece ▸ List.mem_append_right _ (List.mem_cons_self ..)
    have hlaunch : ∀ reply,
        telling run (.finished .cancelled stepId) ∉ c.launching step reply := by
      intro reply hmem
      simp [Context.launching, telling, remark] at hmem
    cases hstepped with
    | unknown => cases hin
    | crashed crash => exact absurd hin (hlaunch _)
    | refused reason => exact absurd hin (hlaunch _)
    | followed process work outcome _ hwork =>
        rcases List.mem_append.1 hin with hin | hin
        · exact absurd hin (hlaunch _)
        · cases hwork _ hin
    | @nested t r _ hyields =>
        cases u with
        -- naming the workflow comes first, and the rest is what the nested run exchanges
        | nil => cases (List.cons.inj hpiece).1
        | cons first u =>
            obtain ⟨t₁, t₂, rfl, rfl, -⟩ :=
              relayed_cut (by rintro message ⟨⟩) (List.cons.inj hpiece).2
            exact ⟨c.call step, t₁, t₂, r, hyields,
              fun hunset => (unset_cons_iff.1 hunset).2.of_relayed⟩
  cases h with
  | check => cases List.mem_singleton.1 hmem
  | tell event =>
      cases List.mem_singleton.1 hmem
      exact .inl rfl
  | turn position hstepped => exact .inr (hstep hstepped hp)
  | aside hstepped => exact .inr (hstep hstepped hp)

/-- No run of an execution ends as cancelled as long as nothing gives a reason to stop. -/
theorem not_unset_of_finished {rounds depth : Nat} {k : Call} {before after : Transcript Query.Reply}
    {r : Except Break (Except Failure Status)} {run : Identity} {stepId : String}
    (h : Yields (k.execute rounds depth)
      (before ++ telling run (.finished .cancelled stepId) :: after) r) : ¬ Unset before := by
  intro hunset
  induction depth generalizing k before after r run stepId with
  | zero =>
      obtain ⟨ht, -⟩ := yields_throw_iff.1 h
      cases (List.append_eq_nil_iff.1 ht).2
  | succ depth ih =>
      -- a nested run that comes to this status has made it known before
      have hnested : ∀ {k : Call} {t : Transcript Query.Reply},
          Yields (k.execute rounds depth) t (.ok (.ok .cancelled)) → ¬ Unset t := by
        intro k t hyields ht
        obtain ⟨run, stepId, hmem⟩ := exists_finished_of_yields hyields
        obtain ⟨t₁, t₂, rfl⟩ := List.append_of_mem hmem
        exact ih hyields (unset_append_iff.1 ht).1
      generalize ht : before ++ telling run (.finished .cancelled stepId) :: after = t at h
      have hmem : telling run (.finished .cancelled stepId) ∈ t :=
        ht ▸ List.mem_append_right _ (List.mem_cons_self ..)
      rcases k.served_of_yields h with ⟨-, rfl, -⟩ | ⟨-, rfl, -⟩ | ⟨c, deeds, r', hserved, -⟩
      · cases hmem
      · cases List.mem_singleton.1 hmem
      · obtain ⟨first, hbegins, rfl⟩ := hserved.ran.begins
        rcases append_eq_append_cons ht.symm with ⟨es, hfirst, -⟩ | ⟨es, rfl, hdeeds⟩
        · obtain ⟨w, globals, executionId, -, rfl⟩ := hbegins
          have hin : telling run (.finished .cancelled stepId) ∈
              k.beginning w globals executionId :=
            hfirst ▸ List.mem_append_right _ (List.mem_cons_self ..)
          simp [Call.beginning, telling] at hin
        · obtain ⟨deeds₁, p, deeds₂, u, v, rfl, hp, rfl, rfl⟩ := flatMap_eq_append_cons hdeeds
          obtain ⟨-, hunset⟩ := unset_append_iff.1 hunset
          obtain ⟨hunset, hu⟩ := unset_append_iff.1 hunset
          have hpmem : p ∈ deeds₁ ++ p :: deeds₂ := List.mem_append_right _ (List.mem_cons_self ..)
          rcases of_finished_deed (hserved.ran.does p hpmem) hp with hself | hinner
          -- the run itself ends: it has seen a cancellation in one of its deeds before
          · have hwhole := hserved.ran.whole
            rw [List.map_append, List.map_cons, hself] at hwhole
            obtain ⟨x, hx, hcancellation⟩ := List.any_eq_true.1 hwhole.saw_of_finished
            obtain ⟨q, hq, rfl⟩ := List.mem_map.1 hx
            have hcalm := not_isCancellation_of_serves hnested
              (hserved.serves q (List.mem_append_left _ hq))
              fun y hy => hunset y (List.mem_flatMap.2 ⟨q, hq, hy⟩)
            rw [hcalm] at hcancellation
            cases hcancellation
          -- a run inside it ends
          · obtain ⟨k', t₁, t₂, r, hyields, hkeep⟩ := hinner
            exact ih hyields (hkeep hu)

/-- The same as long as the execution is still under way. -/
theorem not_unset_of_goes {rounds depth : Nat} {k : Call} {before after : Transcript Query.Reply}
    {e : Dialogue Query.Reply (Except Break (Except Failure Status))} {run : Identity}
    {stepId : String}
    (h : Goes (k.execute rounds depth).run
      (before ++ telling run (.finished .cancelled stepId) :: after) e) : ¬ Unset before := by
  -- whatever is replied from then on, the execution comes to an end
  have hends := Dialogue.goes_append_iff.2
    ⟨e, h, Dialogue.ends_transcript (steady (fun _ => none) false (.refused "")) e⟩
  rw [List.append_assoc, List.cons_append] at hends
  exact not_unset_of_finished hends

end Runbook.Run
