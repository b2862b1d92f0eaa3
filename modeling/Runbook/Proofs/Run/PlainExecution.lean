import Runbook.Proofs.Run.Flat

/-!
# Executions of plain workflows

What `Follows` says of the commands of an execution is joined here with what becomes of its runs.
`Encloses` follows an execution down to one of its deeds, like `Stands`, and keeps the status of each
run on the way. A step that fails ends its run as failed, that run is a failed step of the run around
it, and so on outwards (`failed_of_encloses`). Conversely a failed execution has a step that failed
without a run inside it (`exists_encloses_of_failed`).

`plain_execution_follows_flat` puts both together.
-/

set_option autoImplicit false

namespace Runbook.Run

open Dialogue (Serves)
open Store.Workflows (Reached)

/-- In an execution with the transcript `t` that came to a status, a deed stands in runs inside one
another: `stack` has their contexts from the outermost one on, each with the status of its run. -/
inductive Encloses (rounds : Nat) :
    Nat → Call → Transcript Query.Reply → Status → List (Context × Status) → Deed → Prop
  | own {depth : Nat} {k : Call} {c : Context} {deeds : List Deed} {t : Transcript Query.Reply}
      {status : Status} {p : Deed} :
      k.Served rounds depth c deeds t (.ok status) → p ∈ deeds →
      Encloses rounds (depth + 1) k t status [(c, status)] p
  | nested {depth : Nat} {k : Call} {c : Context} {deeds : List Deed}
      {t t' : Transcript Query.Reply} {status status' : Status} {p q : Deed} {step : Step}
      {stack : List (Context × Status)} :
      k.Served rounds depth c deeds t (.ok status) → p ∈ deeds → p.1.1.step? = some step →
      step.work = .workflow → p.2 = c.naming step :: c.relayed step t' →
      Yields ((c.call step).execute rounds depth) t' (.ok (.ok status')) →
      Encloses rounds depth (c.call step) t' status' stack q →
      Encloses rounds (depth + 1) k t status ((c, status) :: stack) q

/-- A step is run without a run inside it. -/
def Innermost (p : Deed) : Prop :=
  ∀ workflowId scope n executionId, ⟨.begin workflowId scope n, executionId⟩ ∉ p.2

section Steps

variable {c : Context} {rounds depth : Nat} {p : Deed} {step : Step}

/-- The result of a nested run decides what becomes of the step that started it. -/
theorem result?_of_nested {t : Transcript Query.Reply} {r : Except Break (Except Failure Status)}
    (h : Serves (c.serve (execute rounds depth)) p) (hstep : p.1.1.step? = some step)
    (hwork : step.work = .workflow) (hpiece : p.2 = c.naming step :: c.relayed step t)
    (hyields : Yields ((c.call step).execute rounds depth) t r) :
    Course.result? p.1 = some (r.map (Outcome.ofNested (c.call step).id)) := by
  obtain ⟨r', hresult, hrun⟩ := Context.runStep_of_serves h hstep
  generalize p.2 = u at hrun hpiece
  cases c.stepped_of_ends hrun with
  | unknown _ hother => cases hwork.symm.trans hother
  | crashed _ hother => cases hwork.symm.trans hother
  | refused _ hother => cases hwork.symm.trans hother
  | followed _ _ _ hother => cases hwork.symm.trans hother
  | nested _ hyields' =>
      -- the nested run is the one that the deed shows, and it determines its result
      obtain rfl := c.relayed_injective (List.cons.inj hpiece).2
      obtain rfl := Dialogue.Ends.unique hyields hyields'
      exact hresult

theorem Course.Fails.step? {x : Exchange Task.Reply} (h : Course.Fails x) :
    x.1.step?.isSome = true := by
  obtain ⟨outcome, hresult, -⟩ := h
  obtain ⟨task, reply⟩ := x
  cases task with
  | check => cases hresult
  | tell => cases hresult
  | turn => rfl
  | aside => rfl

/-- An execution that is refused begins no run. -/
theorem notMem_begin_of_refused {k : Call} {t : Transcript Query.Reply} {failure : Failure}
    (h : Yields (k.execute rounds depth) t (.ok (.error failure))) {workflowId executionId : String}
    {scope : Scope} {n : Nat} : ⟨.begin workflowId scope n, executionId⟩ ∉ t := by
  intro hmem
  cases depth with
  | zero => cases (yields_throw_iff.1 h).2
  | succ depth =>
      obtain ⟨c, deeds, r, -, hr⟩ := k.ran_of_mem h hmem (by rintro id ⟨⟩)
      cases r <;> cases hr

/-- A step that comes to an outcome is run without a run inside it, or a nested run has come to a
status. -/
theorem innermost_or_nested {outcome : Outcome}
    (h : Yields (c.runStep (execute rounds depth) step) p.2 (.ok outcome)) :
    Innermost p ∨ ∃ t status, step.work = .workflow ∧ p.2 = c.naming step :: c.relayed step t ∧
      Yields ((c.call step).execute rounds depth) t (.ok (.ok status)) ∧
      outcome = .ofNested (c.call step).id (.ok status) := by
  by_cases hinnermost : Innermost p
  · exact .inl hinnermost
  · simp only [Innermost, not_forall, not_not] at hinnermost
    obtain ⟨workflowId, scope, n, executionId, hmem⟩ := hinnermost
    obtain ⟨hwork, t, r, hyields, hpiece, hr, hbegin⟩ := (c.stepped_of_ends h).nested_of_begin hmem
    match r with
    | .error b => cases hr
    | .ok (.error failure) => exact absurd hbegin (notMem_begin_of_refused hyields)
    | .ok (.ok status) =>
        cases hr
        exact .inr ⟨t, status, hwork, hpiece, hyields, rfl⟩

end Steps

section Store

variable {store : Store.Workflows} {globals : Scope} {rounds depth : Nat} {k : Call}
  {t : Transcript Query.Reply}

/-- A run has failed exactly if one of its steps has. -/
theorem failed_iff_of_served (hstore : PlainStore store rounds) {c : Context} {deeds : List Deed}
    {status : Status} (h : k.Served rounds depth c deeds t (.ok status))
    (ht : Undisturbed store globals t) (hamong : Among store k.chain)
    (hdepth : store.held.length ≤ depth + k.chain.length) :
    status = .failed ↔ ∃ p ∈ deeds, Course.Fails p.1 := by
  obtain ⟨_, hok, hstraight⟩ := h.straight hstore ht hamong hdepth
  cases hok
  rw [hstraight.failed_iff]
  constructor
  · rintro ⟨x, hx, hfails⟩
    obtain ⟨p, hp, rfl⟩ := List.mem_map.1 (List.mem_of_mem_filter hx)
    exact ⟨p, hp, hfails⟩
  · rintro ⟨p, hp, hfails⟩
    exact ⟨p.1, List.mem_filter.2 ⟨List.mem_map_of_mem hp, hfails.step?⟩, hfails⟩

/-- Each run around a step that fails has failed. -/
theorem failed_of_encloses (hstore : PlainStore store rounds) {status : Status}
    {stack : List (Context × Status)} {p : Deed} (h : Encloses rounds depth k t status stack p)
    (ht : Undisturbed store globals t) (hamong : Among store k.chain)
    (hdepth : store.held.length < depth + k.chain.length) (hfails : Course.Fails p.1) :
    status = .failed ∧ ∀ run ∈ stack, run.2 = .failed := by
  induction h with
  | own hserved hp =>
      have hfailed := (failed_iff_of_served hstore hserved ht hamong (by omega)).2 ⟨_, hp, hfails⟩
      exact ⟨hfailed, List.forall_mem_singleton.2 hfailed⟩
  | @nested depth k c deeds t t' status status' p q step stack hserved hp hstep hwork hpiece hyields
      _ ih =>
      obtain ⟨hamong', hlength⟩ := hserved.ran.among hstore.reached ht.workflows hamong
      obtain ⟨rfl, hstack⟩ := ih
        (ht.mono fun x hx => mem_of_nested hserved.ran hp hpiece hx) hamong'
        (show _ < depth + c.chain.length by omega) hfails
      -- the nested run has failed, so the step that started it has
      have hresult := result?_of_nested (hserved.serves p hp) hstep hwork hpiece hyields
      have hfailed := (failed_iff_of_served hstore hserved ht hamong (by omega)).2
        ⟨p, hp, _, hresult, rfl⟩
      exact ⟨hfailed, List.forall_mem_cons.2 ⟨hfailed, hstack⟩⟩

/-- A failed execution has a step that failed without a run inside it. -/
theorem exists_encloses_of_failed (hstore : PlainStore store rounds)
    (h : Yields (k.execute rounds depth) t (.ok (.ok .failed))) (ht : Undisturbed store globals t)
    (hamong : Among store k.chain) (hdepth : store.held.length < depth + k.chain.length) :
    ∃ stack p, Encloses rounds depth k t .failed stack p ∧ Course.Fails p.1 ∧ Innermost p := by
  induction depth generalizing k t with
  | zero => cases (yields_throw_iff.1 h).2
  | succ depth ih =>
      rcases k.served_of_yields h with ⟨-, -, hr⟩ | ⟨-, -, hr⟩ | ⟨c, deeds, r, hserved, hr⟩
      · cases hr
      · cases hr
      · obtain rfl : r = .ok .failed := by cases r <;> cases hr; rfl
        obtain ⟨p, hp, hfails⟩ :=
          (failed_iff_of_served hstore hserved ht hamong (by omega)).1 rfl
        obtain ⟨step, hstep⟩ := Option.isSome_iff_exists.1 hfails.step?
        obtain ⟨r, hresult, hrun⟩ := Context.runStep_of_serves (hserved.serves p hp) hstep
        obtain ⟨outcome, houtcome, hfailure⟩ := hfails
        cases hresult.symm.trans houtcome
        rcases innermost_or_nested hrun with
          hinnermost | ⟨t', status, hwork, hpiece, hyields, rfl⟩
        · exact ⟨_, p, .own hserved hp, ⟨outcome, hresult, hfailure⟩, hinnermost⟩
        -- the step failed because the nested run did
        · have ht' : Undisturbed store globals t' :=
            ht.mono fun x hx => mem_of_nested hserved.ran hp hpiece hx
          obtain ⟨hamong', hlength⟩ := hserved.ran.among hstore.reached ht.workflows hamong
          have hdepth' : store.held.length < depth + (c.call step).chain.length :=
            show _ < depth + c.chain.length by omega
          obtain ⟨_, hok, hsettles⟩ := settles_of_yields hstore hyields ht' hamong' hdepth'
          cases hok
          cases hsettles with
          | ended _ hfollows =>
              rcases hfollows.status_eq with rfl | rfl
              · cases hfailure
              · obtain ⟨stack, q, hencloses, hq⟩ := ih hyields ht' hamong' hdepth'
                exact ⟨_, q, .nested hserved hp hstep hwork hpiece hyields hencloses, hq⟩

end Store

/-- Over an unchanging store of plain workflows, and if nothing disturbs it, a run starts the commands
of its flat list in order, up to the first one that does not succeed or up to the first mark. It is
completed exactly if that is the end of the list and all of them succeeded. Otherwise it has failed,
with each run around a step that failed. The limits on rounds and nesting only have to be large enough
for the store. -/
theorem plain_execution_follows_flat {store : Store.Workflows} (hreached : Reached store)
    (hplain : ∀ id w, store.get? id = some w → w.Plain) :
    ∃ enough, ∀ {rounds depth : Nat} {globals inputs : Scope} {id : String} {w : Workflow}
      {t : Transcript Query.Reply} {r : Except Break (Except Failure Status)},
      store.get? id = some w → Undisturbed store globals t →
      Yields (execute rounds depth [] id inputs) t r → enough ≤ rounds → enough ≤ depth →
        ∃ status, r = .ok (.ok status) ∧
          Follows (flat store globals [id] (resolve globals w.declared inputs) w.steps)
            (launches t) status ∧
          (status = .completed ↔
            flat store globals [id] (resolve globals w.declared inputs) w.steps =
                (launches t).map (fun start => .command start.1) ∧
              ∀ start ∈ launches t, start.2.succeeds = true) ∧
          (status ≠ .completed → status = .failed ∧
            ∃ stack p, Encloses rounds depth ⟨[], id, inputs⟩ t status stack p ∧
              Course.Fails p.1 ∧ Innermost p) ∧
          ∀ stack p, Encloses rounds depth ⟨[], id, inputs⟩ t status stack p →
            Course.Fails p.1 → ∀ run ∈ stack, run.2 = .failed := by
  obtain ⟨longest, hlongest⟩ := store.held.exists_bound fun w => w.steps.length
  refine ⟨max longest store.held.length + 1, ?_⟩
  intro rounds depth globals inputs id w t r hw ht h hrounds hdepth
  have hstore : PlainStore store rounds := by
    refine ⟨hreached, hplain, fun id w hw => ?_⟩
    have hle := hlongest id w hw
    omega
  have hamong : Among store [] := ⟨List.nodup_nil, List.nil_subset _⟩
  have hlimit : store.held.length < depth + ([] : List String).length := by
    rw [List.length_nil]
    omega
  have hflat : (⟨[], id, inputs⟩ : Call).flat store globals =
      flat store globals [id] (resolve globals w.declared inputs) w.steps := by
    rw [Call.flat, if_neg List.not_mem_nil, hw, List.nil_append]
  obtain ⟨result, rfl, hsettles⟩ :=
    settles_of_yields (k := ⟨[], id, inputs⟩) hstore h ht hamong hlimit
  rw [hflat] at hsettles
  obtain ⟨depth, rfl⟩ := Nat.exists_eq_succ_of_ne_zero (show depth ≠ 0 by omega)
  cases hsettles with
  | refused failure _ _ =>
      -- the workflow was found, so the execution is a run
      rcases Call.served_of_yields ⟨[], id, inputs⟩ h with
        ⟨hmem, -, -⟩ | ⟨-, rfl, -⟩ | ⟨c, deeds, r, -, hr⟩
      · cases hmem
      · cases (ht.workflows _ _ (List.mem_singleton_self _)).trans hw
      · cases r <;> cases hr
  | ended status hfollows =>
      refine ⟨status, rfl, hfollows, hfollows.completed_iff, fun hnot => ?_, ?_⟩
      · obtain rfl := hfollows.status_eq.resolve_left hnot
        exact ⟨rfl, exists_encloses_of_failed hstore h ht hamong hlimit⟩
      · intro stack p hencloses hfails
        exact (failed_of_encloses hstore hencloses ht hamong hlimit hfails).2

section NestedStore

open Store.Workflows (nestedStore reached_nestedStore innerWorkflow outerWorkflow)

theorem plain_nestedStore : ∀ id w, nestedStore.get? id = some w → w.Plain := by
  intro id w hw step hstep
  have hmem : w = innerWorkflow ∨ w = outerWorkflow := by
    simp only [Store.Workflows.get?, nestedStore, Assoc.get?] at hw
    split at hw
    · exact .inl (Option.some.inj hw).symm
    · split at hw
      · exact .inr (Option.some.inj hw).symm
      · cases hw
  rcases hmem with rfl | rfl
  · rw [List.mem_singleton.1 hstep]
    exact ⟨rfl, rfl, rfl⟩
  · rcases List.mem_cons.1 hstep with rfl | hstep
    · exact ⟨rfl, rfl, rfl⟩
    · rw [List.mem_singleton.1 hstep]
      exact ⟨rfl, rfl, rfl⟩

/-- The commands of the outer workflow are that of the inner one and its own. -/
theorem flat_outerWorkflow :
    flat nestedStore [] ["outer"] [] outerWorkflow.steps = [.command "first", .command "last"] := by
  have hstrip : Text.strip "inner" = "inner" := rfl
  have hfirst : Template.fill "first" [] = "first" := by decide +kernel
  have hlast : Template.fill "last" [] = "last" := by decide +kernel
  simp [flat, outerWorkflow, innerWorkflow, Step.work, Step.bind, hstrip, hfirst, hlast, nestedStore,
    Store.Workflows.get?, Assoc.get?, Assoc.merge, resolve]

/-- If no command succeeds, the outer workflow fails with the first one, in the nested run. -/
theorem plain_execution_follows_flat_nestedStore :
    ∃ rounds depth,
      let x := (execute rounds depth [] "outer" []).run
      let replies := steady nestedStore.get? false (.started (.ended 1 false))
      Undisturbed nestedStore [] (x.transcript replies) ∧
        (launches (x.transcript replies)).map Prod.fst = ["first"] ∧
        x.result replies = .ok (.ok .failed) := by
  obtain ⟨enough, hfollows⟩ := plain_execution_follows_flat reached_nestedStore plain_nestedStore
  refine ⟨enough, enough, ?_⟩
  intro x replies
  have hreply : ∀ y ∈ x.transcript replies, y.2 = replies y.1 :=
    fun y hy => Dialogue.mem_transcript hy
  have ht : Undisturbed nestedStore [] (x.transcript replies) := by
    refine ⟨fun id answer hmem => hreply _ hmem, fun scope hmem => hreply _ hmem, fun hmem => ?_,
      fun n hmem => ?_, fun command launch hmem => ?_⟩
    · cases hreply _ hmem
    · cases hreply _ hmem
    · cases hreply _ hmem
      rfl
  obtain ⟨status, hstatus, hcommands, -⟩ := hfollows (w := outerWorkflow) rfl ht
    (yields_transcript replies (execute enough enough [] "outer" [])) (Nat.le_refl _) (Nat.le_refl _)
  rw [show resolve [] outerWorkflow.declared [] = [] from rfl, flat_outerWorkflow] at hcommands
  have hlaunch : ∀ start ∈ launches (x.transcript replies), start.2.succeeds = false := by
    intro start hstart
    obtain ⟨⟨q, reply⟩, hy, hstart⟩ := List.mem_filterMap.1 hstart
    cases q with
    | launch command =>
        cases hstart
        rw [show reply = _ from hreply _ hy]
        rfl
    | _ => cases hstart
  generalize hstarts : launches (x.transcript replies) = starts at hcommands hlaunch
  -- the first command fails, and that ends the list
  cases hcommands with
  | failed => exact ⟨ht, rfl, hstatus⟩
  | next _ hsucceeds _ =>
      cases (hlaunch _ (List.mem_cons_self ..)).symm.trans hsucceeds

end NestedStore

end Runbook.Run
