import Mathlib.Data.List.Perm.Subperm
import Runbook.Proofs.Run.Execution
import Runbook.Proofs.Store.Workflows

/-!
# Nested runs

A step that names a workflow starts a run inside its run. `Stands` follows an execution down to one of
its runs: it gives the contexts of the runs around it and the deeds of the run itself. Each run that
begins in an execution stands somewhere (`exists_stands_of_begin`).

A run is refused if its id is in the chain of ids around it. A store keeps each workflow under its own
id, so the ids in a chain are those under which its workflows were asked for, and no workflow runs
inside itself, even if the store changes between two runs (`Stands.chain`). Over one store there are
no more runs inside one another than workflows (`Stands.length_le`).

`nesting_of_execution` adds what becomes of a step that names a workflow: it fails as a cycle exactly
if that workflow is one of the chain. The limit on nesting is that of `execute`; `left` says how much
of it remains, and a step says something about its workflow only if that is not zero.
-/

set_option autoImplicit false

namespace Runbook.Run

open Store.Workflows (Reached Filed filed_of_reached)

/-! ## Runs inside one another -/

/-- In an execution with the transcript `t` there are runs inside one another: `stack` is their
contexts from the outermost one on, `left` how many more may be nested, and `deeds` is what the
innermost one does. -/
inductive Stands (rounds : Nat) :
    Nat → Call → Transcript Query.Reply → List Context → Nat → List Deed → Prop
  | own {depth : Nat} {k : Call} {c : Context} {deeds : List Deed} {t : Transcript Query.Reply}
      {r : Except Break Status} :
      k.Ran rounds depth c deeds t r → Stands rounds (depth + 1) k t [c] depth deeds
  | nested {depth left : Nat} {k : Call} {c : Context} {deeds deeds' : List Deed}
      {t t' : Transcript Query.Reply} {r : Except Break Status}
      {r' : Except Break (Except Failure Status)} {p : Deed} {step : Step} {stack : List Context} :
      k.Ran rounds depth c deeds t r → p ∈ deeds → p.1.1.step? = some step →
      step.work = .workflow → p.2 = c.naming step :: c.relayed step t' →
      Yields ((c.call step).execute rounds depth) t' r' →
      Stands rounds depth (c.call step) t' stack left deeds' →
      Stands rounds (depth + 1) k t (c :: stack) left deeds'

/-- The ids of the workflows that runs inside one another run. -/
def idsOf (stack : List Context) : List String := stack.map fun c => c.workflow.id

/-- A step of the workflow of one run names that of another. -/
def Refers (c c' : Context) : Prop :=
  ∃ step ∈ c.workflow.steps, step.work = .workflow ∧ Text.strip step.content = c'.workflow.id

/-- Each workflow comes from a store, which may be another one each time. -/
def FromStores (t : Transcript Query.Reply) : Prop :=
  ∀ id answer, ⟨.workflow id, answer⟩ ∈ t → ∃ store, Reached store ∧ answer = store.get? id

/-- All workflows come from one store. -/
def FromStore (store : Store.Workflows) (t : Transcript Query.Reply) : Prop :=
  ∀ id answer, ⟨.workflow id, answer⟩ ∈ t → answer = store.get? id

section Stands

variable {rounds depth left : Nat} {k : Call} {t : Transcript Query.Reply} {stack : List Context}
  {deeds : List Deed}

theorem id_eq_of_ran {c : Context} {r : Except Break Status}
    (h : k.Ran rounds depth c deeds t r) (hstores : FromStores t) : c.workflow.id = k.id := by
  obtain ⟨store, hreached, hanswer⟩ := hstores _ _ h.found
  exact filed_of_reached hreached _ _ hanswer.symm

theorem nodup_of_ran {c : Context} {r : Except Break Status} (h : k.Ran rounds depth c deeds t r)
    (hid : c.workflow.id = k.id) (hnodup : k.chain.Nodup) : c.chain.Nodup := by
  rw [h.chain_eq, hid, List.nodup_append]
  refine ⟨hnodup, by simp, ?_⟩
  rintro a ha b hb rfl
  exact h.fresh (List.mem_singleton.1 hb ▸ ha)

theorem step_mem_of_ran {c : Context} {r : Except Break Status} {p : Deed} {step : Step}
    (h : k.Ran rounds depth c deeds t r) (hp : p ∈ deeds) (hstep : p.1.1.step? = some step) :
    step ∈ c.workflow.steps :=
  h.whole.step_mem (List.mem_map_of_mem hp) hstep

theorem mem_of_nested {c : Context} {r : Except Break Status} {p : Deed} {step : Step}
    {t' : Transcript Query.Reply} (h : k.Ran rounds depth c deeds t r) (hp : p ∈ deeds)
    (hpiece : p.2 = c.naming step :: c.relayed step t') {x : Exchange Query.Reply} (hx : x ∈ t') :
    x ∈ t :=
  h.mem_of_deed hp (hpiece ▸ List.mem_cons_of_mem _ (c.mem_relayed hx))

/-- The innermost run knows the chain of runs around it, and its own. -/
theorem Stands.innermost (h : Stands rounds depth k t stack left deeds) :
    left + stack.length = depth ∧ ∃ outer c r, stack = outer ++ [c] ∧
      c.chain = k.chain ++ idsOf stack ∧ (∀ p ∈ deeds, c.Does rounds left p) ∧
      Course.Whole c.workflow rounds (deeds.map Prod.fst) r := by
  induction h with
  | own hran => exact ⟨rfl, [], _, _, rfl, hran.chain_eq, hran.does, hran.whole⟩
  | @nested depth left k c _ _ _ _ _ _ _ step stack hran _ _ _ _ _ _ ih =>
      obtain ⟨hleft, outer, c', r, rfl, hchain, hdoes, hwhole⟩ := ih
      refine ⟨?_, c :: outer, c', r, rfl, ?_, hdoes, hwhole⟩
      · rw [← hleft]
        rfl
      · rw [hchain, show (c.call step).chain = c.chain from rfl, hran.chain_eq]
        simp [idsOf]

/-- Runs inside one another are runs of different workflows, each of them named by a step of the one
around it. -/
theorem Stands.chain (h : Stands rounds depth k t stack left deeds) (hstores : FromStores t)
    (hnodup : k.chain.Nodup) :
    (k.chain ++ idsOf stack).Nodup ∧ (idsOf stack).head? = some k.id ∧ stack.IsChain Refers ∧
      ∀ c ∈ stack, ⟨.workflow c.workflow.id, some c.workflow⟩ ∈ t := by
  induction h with
  | @own depth k c deeds t r hran =>
      have hid := id_eq_of_ran hran hstores
      refine ⟨?_, by simp [idsOf, hid], by simp, ?_⟩
      · rw [show idsOf [c] = [c.workflow.id] from rfl, ← hran.chain_eq]
        exact nodup_of_ran hran hid hnodup
      · rintro c' hc'
        rw [List.mem_singleton.1 hc', hid]
        exact hran.found
  | @nested depth left k c deeds deeds' t t' r r' p step stack hran hp hstep hwork hpiece hyields
      hstands ih =>
      have hid := id_eq_of_ran hran hstores
      have hmem : ∀ {x : Exchange Query.Reply}, x ∈ t' → x ∈ t := mem_of_nested hran hp hpiece
      obtain ⟨hids, hhead, hrefers, hfound⟩ :=
        ih (fun id answer h => hstores id answer (hmem h)) (nodup_of_ran hran hid hnodup)
      refine ⟨?_, by simp [idsOf, hid], ?_, List.forall_mem_cons.2 ⟨hid ▸ hran.found, ?_⟩⟩
      · rw [show (c.call step).chain = c.chain from rfl, hran.chain_eq] at hids
        simpa [idsOf] using hids
      -- the nested run is that of the id that the step names
      · cases stack with
        | nil => simp
        | cons c' stack =>
            refine List.isChain_cons_cons.2 ⟨⟨step, step_mem_of_ran hran hp hstep, hwork, ?_⟩, hrefers⟩
            exact (Option.some.inj hhead).symm
      · exact fun c' hc' => hmem (hfound c' hc')

/-- Runs inside one another are no more than the workflows of their store. -/
theorem Stands.length_le {store : Store.Workflows} (h : Stands rounds depth k t stack left deeds)
    (hreached : Reached store) (hstore : FromStore store t) (hnodup : k.chain.Nodup) :
    stack.length ≤ store.held.length := by
  have hstores : FromStores t := fun id answer hmem => ⟨store, hreached, hstore id answer hmem⟩
  obtain ⟨hids, -, -, hfound⟩ := h.chain hstores hnodup
  -- each id was asked for, and the store had a workflow under it
  have hsubset : idsOf stack ⊆ store.held.keys := by
    intro id hid
    obtain ⟨c, hc, rfl⟩ := List.mem_map.1 hid
    exact Assoc.mem_keys_iff.2 ⟨c.workflow, (hstore _ _ (hfound c hc)).symm⟩
  have hle := ((List.nodup_append.1 hids).2.1.subperm hsubset).length_le
  simpa [idsOf, Assoc.keys] using hle

end Stands

/-! ## Each run that begins stands somewhere -/

/-- The exchange in which the run of a context began. -/
def Context.began (c : Context) : Exchange Query.Reply :=
  ⟨.begin c.workflow.id c.scope c.run.depth, c.run.executionId⟩

/-- Each run that begins in an execution stands in runs inside one another. -/
theorem exists_stands_of_begin {rounds depth : Nat} {k : Call} {t : Transcript Query.Reply}
    {r : Except Break (Except Failure Status)} (h : Yields (k.execute rounds depth) t r)
    {workflowId : String} {scope : Scope} {n : Nat} {executionId : String}
    (hmem : ⟨.begin workflowId scope n, executionId⟩ ∈ t) :
    ∃ outer c left deeds, Stands rounds depth k t (outer ++ [c]) left deeds ∧
      c.began = ⟨.begin workflowId scope n, executionId⟩ := by
  induction depth generalizing k t r with
  | zero =>
      obtain ⟨rfl, -⟩ := yields_throw_iff.1 h
      cases hmem
  | succ depth ih =>
      obtain ⟨c, deeds, r, hran, -⟩ := k.ran_of_mem h hmem (by rintro id ⟨⟩)
      obtain ⟨first, ⟨w, globals, runId, rfl, rfl⟩, rfl⟩ := hran.begins
      rcases List.mem_append.1 hmem with hbegin | hdeed
      -- it is the run of the execution itself
      · refine ⟨[], _, depth, deeds, .own hran, ?_⟩
        simp only [Call.beginning, List.mem_cons, List.not_mem_nil, or_false] at hbegin
        rcases hbegin with hx | hx | hx
        · cases hx
        · cases hx
        · rw [hx]
          rfl
      -- it begins in a deed of that run
      · obtain ⟨p, hp, hx⟩ := List.mem_flatMap.1 hdeed
        obtain ⟨step, r_p, hstep, -, hstepped⟩ :=
          (hran.does p hp).stepped hx (by rintro ⟨⟩) (by rintro event ⟨⟩)
        obtain ⟨hwork, t', r', hyields, hpiece, -, hx'⟩ := hstepped.nested_of_begin hx
        obtain ⟨outer, c, left, deeds', hstands, hbegan⟩ := ih hyields hx'
        exact ⟨_ :: outer, c, left, deeds',
          .nested hran hp hstep hwork hpiece hyields hstands, hbegan⟩

/-! ## What becomes of a step that names a workflow -/

/-- A step comes to a failure. -/
def FailsWith (p : Deed) (failure : Failure) : Prop :=
  ∃ outcome, Course.result? p.1 = some (.ok outcome) ∧ outcome.failure = some failure

/-- A nested run that has come to a status is neither refused as a cycle nor missing. -/
theorem failure_ofNested_ok {id : String} {status : Status} {failure : Failure}
    (h : (Outcome.ofNested id (.ok status)).failure = some failure) :
    (∀ id chain, failure ≠ .cycle id chain) ∧ ∀ id, failure ≠ .workflowNotFound id := by
  cases status <;> cases h <;> exact ⟨by rintro _ _ ⟨⟩, by rintro _ ⟨⟩⟩

section Reference

variable {c : Context} {rounds left : Nat} {p : Deed} {step : Step}

theorem executed_of_reference (h : c.Does rounds (left + 1) p) (hstep : p.1.1.step? = some step)
    (hwork : step.work = .workflow) :
    ∃ t r, (c.call step).Executed rounds left t r ∧ p.2 = c.naming step :: c.relayed step t ∧
      Course.result? p.1 = some (r.map (Outcome.ofNested (c.call step).id)) := by
  obtain ⟨r, hresult, hstepped⟩ := h.stepped_of_step? hstep
  generalize p.2 = u at hstepped ⊢
  cases hstepped with
  | unknown _ hother => cases hwork.symm.trans hother
  | crashed _ hother => cases hwork.symm.trans hother
  | refused _ hother => cases hwork.symm.trans hother
  | followed _ _ _ hother => cases hwork.symm.trans hother
  | nested _ hyields => exact ⟨_, _, (c.call step).executed_of_yields hyields, rfl, hresult⟩

/-- A step that names a workflow of the chain fails as a cycle, and nothing is started. -/
theorem fails_of_mem_chain (h : c.Does rounds (left + 1) p) (hstep : p.1.1.step? = some step)
    (hwork : step.work = .workflow) (hmem : Text.strip step.content ∈ c.chain) :
    p.2 = [c.naming step] ∧ FailsWith p (.cycle (Text.strip step.content) c.chain) := by
  obtain ⟨t, r, hexecuted, hpiece, hresult⟩ := executed_of_reference h hstep hwork
  cases hexecuted with
  | cycle => exact ⟨hpiece, _, hresult, rfl⟩
  | notFound hnot => exact absurd hmem hnot
  | ran hran => exact absurd hmem hran.fresh

/-- A step that names another workflow asks the store for it, never fails as a cycle, and fails as
not found exactly if the store has none. -/
theorem asks_of_notMem_chain (h : c.Does rounds (left + 1) p) (hstep : p.1.1.step? = some step)
    (hwork : step.work = .workflow) (hnot : Text.strip step.content ∉ c.chain) :
    ∃ answer rest, p.2 = c.naming step :: ⟨.workflow (Text.strip step.content), answer⟩ :: rest ∧
      (∀ id chain, ¬ FailsWith p (.cycle id chain)) ∧
      ((∃ id, FailsWith p (.workflowNotFound id)) ↔ answer = none) ∧
      (answer = none → FailsWith p (.workflowNotFound (Text.strip step.content))) := by
  obtain ⟨t, r, hexecuted, hpiece, hresult⟩ := executed_of_reference h hstep hwork
  cases hexecuted with
  | cycle hmem => exact absurd hmem hnot
  | notFound _ =>
      have hfails : FailsWith p (.workflowNotFound (Text.strip step.content)) := ⟨_, hresult, rfl⟩
      refine ⟨none, [], hpiece, ?_, ⟨fun _ => rfl, fun _ => ⟨_, hfails⟩⟩, fun _ => hfails⟩
      rintro id chain ⟨outcome, houtcome, hfailure⟩
      cases hresult.symm.trans houtcome
      cases hfailure
  | @ran c' deeds t r hran =>
      -- a run that has begun has passed both tests
      have hnever : ∀ failure, FailsWith p failure →
          (∀ id chain, failure ≠ .cycle id chain) ∧ ∀ id, failure ≠ .workflowNotFound id := by
        rintro failure ⟨outcome, houtcome, hfailure⟩
        cases r with
        | error b => cases hresult.symm.trans houtcome
        | ok status =>
            cases hresult.symm.trans houtcome
            exact failure_ofNested_ok hfailure
      cases hran with
      | ran w globals executionId _ _ _ =>
          refine ⟨some w, _, hpiece, fun id chain hfails => (hnever _ hfails).1 _ _ rfl, ⟨?_, ?_⟩,
            ?_⟩
          · rintro ⟨id, hfails⟩
            exact absurd rfl ((hnever _ hfails).2 id)
          · rintro ⟨⟩
          · rintro ⟨⟩

end Reference

/-- Runs inside one another are runs of different workflows, so with one store they are no more than
its workflows. A step that names a workflow fails as a cycle exactly if that workflow is one of them,
and as not found exactly if the store has none of that id. -/
theorem nesting_of_execution {rounds depth : Nat} {id : String} {inputs : Scope}
    {t : Transcript Query.Reply} {r : Except Break (Except Failure Status)}
    (h : Yields (execute rounds depth [] id inputs) t r) (hstores : FromStores t) :
    (∀ workflowId scope n executionId, ⟨.begin workflowId scope n, executionId⟩ ∈ t →
      ∃ outer c left deeds, Stands rounds depth ⟨[], id, inputs⟩ t (outer ++ [c]) left deeds ∧
        c.began = ⟨.begin workflowId scope n, executionId⟩) ∧
    ∀ stack left deeds, Stands rounds depth ⟨[], id, inputs⟩ t stack left deeds →
      (idsOf stack).Nodup ∧ (idsOf stack).head? = some id ∧ stack.IsChain Refers ∧
      (∀ store, Reached store → FromStore store t → stack.length ≤ store.held.length) ∧
      left + stack.length = depth ∧
      ∀ p ∈ deeds, ∀ step, p.1.1.step? = some step → step.work = .workflow → left ≠ 0 →
        ((∃ id chain, FailsWith p (.cycle id chain)) ↔ Text.strip step.content ∈ idsOf stack) ∧
        (Text.strip step.content ∈ idsOf stack →
          FailsWith p (.cycle (Text.strip step.content) (idsOf stack)) ∧
          ∃ c, stack.getLast? = some c ∧ p.2 = [c.naming step]) ∧
        (Text.strip step.content ∉ idsOf stack →
          ∃ c answer rest, stack.getLast? = some c ∧
            p.2 = c.naming step :: ⟨.workflow (Text.strip step.content), answer⟩ :: rest ∧
            ((∃ id, FailsWith p (.workflowNotFound id)) ↔ answer = none) ∧
            (answer = none → FailsWith p (.workflowNotFound (Text.strip step.content)))) := by
  refine ⟨fun workflowId scope n executionId hmem => exists_stands_of_begin h hmem,
    fun stack left deeds hstands => ?_⟩
  obtain ⟨hids, hhead, hrefers, -⟩ := hstands.chain hstores List.nodup_nil
  obtain ⟨hleft, outer, c, -, hstack, hchain, hdoes, -⟩ := hstands.innermost
  rw [List.nil_append] at hids hchain
  refine ⟨hids, hhead, hrefers, fun store hreached hstore =>
    hstands.length_le hreached hstore List.nodup_nil, hleft, ?_⟩
  intro p hp step hstep hwork hpositive
  obtain ⟨left, rfl⟩ := Nat.exists_eq_succ_of_ne_zero hpositive
  have hlast : stack.getLast? = some c := by rw [hstack, List.getLast?_concat]
  rw [← hchain]
  by_cases hmem : Text.strip step.content ∈ c.chain
  · obtain ⟨hpiece, hfails⟩ := fails_of_mem_chain (hdoes p hp) hstep hwork hmem
    exact ⟨⟨fun _ => hmem, fun _ => ⟨_, _, hfails⟩⟩, fun _ => ⟨hfails, c, hlast, hpiece⟩,
      fun hnot => absurd hmem hnot⟩
  · obtain ⟨answer, rest, hpiece, hnever, hmissing, hfails⟩ :=
      asks_of_notMem_chain (hdoes p hp) hstep hwork hmem
    refine ⟨⟨?_, fun h => absurd h hmem⟩, fun h => absurd h hmem,
      fun _ => ⟨c, answer, rest, hlast, hpiece, hmissing, hfails⟩⟩
    rintro ⟨id, chain, hcycle⟩
    exact absurd hcycle (hnever id chain)

open Store.Workflows (smallStore reached_smallStore) in
/-- The only run of a workflow that refers to itself. -/
theorem nesting_of_execution_smallStore :
    let t := (execute 3 2 [] "a" []).run.transcript (steady smallStore.get? false (.refused ""))
    FromStores t ∧ ∃ stack left deeds, Stands 3 2 ⟨[], "a", []⟩ t stack left deeds ∧
      (idsOf stack).Nodup ∧ stack.length ≤ smallStore.held.length := by
  intro t
  have hstore : FromStore smallStore t := fun id answer hmem => Dialogue.mem_transcript hmem
  have hstores : FromStores t := fun id answer hmem =>
    ⟨smallStore, reached_smallStore, hstore id answer hmem⟩
  have hbegin : ⟨.begin "a" [] 0, "run"⟩ ∈ t :=
    List.mem_cons_of_mem _ (List.mem_cons_of_mem _ (List.mem_cons_self ..))
  obtain ⟨hruns, hstacks⟩ := nesting_of_execution (yields_transcript _ _) hstores
  obtain ⟨outer, c, left, deeds, hstands, -⟩ := hruns _ _ _ _ hbegin
  obtain ⟨hnodup, -, -, hlength, -⟩ := hstacks _ _ _ hstands
  exact ⟨hstores, _, left, deeds, hstands, hnodup, hlength _ reached_smallStore hstore⟩

end Runbook.Run
