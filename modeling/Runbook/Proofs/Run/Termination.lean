import Runbook.Proofs.Run.Ending
import Runbook.Proofs.Run.Nesting

/-!
# Runs whose jumps go forward

If no jump of a workflow goes back behind the step that carries it, each round leaves the run behind
the step at which the round began, although the condition and the action for success or failure may
both send it elsewhere (`Course.lt_of_nextPosition?`). So a run makes no more rounds than it has steps
(`Course.Whole.forward`). The ids of the runs around a run are different ids of the store, so no more
runs are nested than the store has workflows, and no limit is reached (`Call.Ran.ne_outOfRounds`).
`forward_execution_ends` says that every execution comes to a terminal status.
-/

set_option autoImplicit false

namespace Runbook

/-- The actions that a step carries. -/
def Step.actions (step : Step) : List Action :=
  step.conditions.map Condition.action ++ step.onSuccess.toList ++ step.onFailure.toList

/-- A jump to a step of the workflow goes to the step that carries it or to a later one. -/
def Workflow.Forward (w : Workflow) : Prop :=
  ∀ position step, w.steps[position]? = some step → ∀ action ∈ step.actions, ∀ target there,
    action.verb = .jumpTo target → w.position? target = some there → position ≤ there

theorem Condition.action_mem_of_choose {output : String} {exitCode : Int}
    {conditions : List Condition} {action : Action}
    (h : (Condition.choose output exitCode conditions).action = .ok (some action)) :
    action ∈ conditions.map Condition.action := by
  induction conditions with
  | nil => cases h
  | cons c rest ih =>
      unfold choose at h
      split at h
      · cases h
        exact List.mem_cons_self ..
      · exact List.mem_cons_of_mem _ (ih h)
      · exact List.mem_cons_of_mem _ (ih h)
      · cases h

namespace Run

open Store.Workflows (Reached filed_of_reached)

namespace Course

variable {w : Workflow}

/-! ## One round -/

/-- A run that stands at a step, or behind it, lands no further back. -/
theorem le_of_landing {action : Action} {start position there : Nat}
    (hforward : ∀ target found, action.verb = .jumpTo target → w.position? target = some found →
      start ≤ found)
    (hposition : start ≤ position) (hbound : position < w.steps.length)
    (h : landing w action position = .at_ there) : start ≤ there ∧ there < w.steps.length := by
  unfold landing at h
  split at h
  · cases h
  · rename_i target hverb
    cases htarget : w.position? target with
    | none =>
        rw [htarget] at h
        cases h
        exact ⟨hposition, hbound⟩
    | some found =>
        rw [htarget] at h
        cases h
        exact ⟨hforward target found hverb htarget,
          (List.findIdx?_eq_some_iff_getElem.1 htarget).1⟩
  · cases h
    exact ⟨hposition, hbound⟩

theorem le_of_landed {action : Option Action} {start position there : Nat}
    (hforward : ∀ a, action = some a → ∀ target found, a.verb = .jumpTo target →
      w.position? target = some found → start ≤ found)
    (hposition : start ≤ position) (hbound : position < w.steps.length)
    (h : landed w action position = .at_ there) : start ≤ there ∧ there < w.steps.length := by
  cases action with
  | none =>
      cases h
      exact ⟨hposition, hbound⟩
  | some a => exact le_of_landing (hforward a rfl) hposition hbound h

theorem hook_mem_actions {step : Step} {outcome : Outcome} {action : Action}
    (h : hook step outcome = some action) : action ∈ step.actions := by
  unfold hook at h
  split at h
  · exact List.mem_append_right _ (Option.mem_toList.2 h)
  · exact List.mem_append_left _ (List.mem_append_right _ (Option.mem_toList.2 h))

theorem choice_mem_actions {step : Step} {outcome : Outcome} {action : Action}
    (h : choice step outcome = .ok (some action)) : action ∈ step.actions :=
  List.mem_append_left _ (List.mem_append_left _ (Condition.action_mem_of_choose h))

/-- If jumps go forward, a run goes on behind the step that was run, wherever a condition or the
action for failure or success has sent it in between. -/
theorem lt_of_nextPosition? {position there : Nat} {step : Step} {outcome : Outcome}
    (hforward : w.Forward) (hstep : w.steps[position]? = some step)
    (h : nextPosition? w position step outcome = some there) :
    position < there ∧ there ≤ w.steps.length := by
  have hbound : position < w.steps.length := (List.getElem?_eq_some_iff.1 hstep).1
  unfold nextPosition? at h
  split at h
  · cases h
  · rename_i action hchoice
    split at h
    · cases h
    · rename_i first hfirst
      split at h
      · cases h
      · split at h
        · cases h
        · rename_i last hlast
          cases h
          -- both passes land at the step or behind it, since it carries both actions
          obtain ⟨hle, hlt⟩ := le_of_landed
            (fun a ha => hforward position step hstep a (choice_mem_actions (ha ▸ hchoice)))
            (Nat.le_refl _) hbound hfirst
          obtain ⟨hle', hlt'⟩ := le_of_landed
            (fun a ha => hforward position step hstep a (hook_mem_actions ha)) hle hlt hlast
          exact ⟨Nat.lt_succ_of_le hle', hlt'⟩

/-! ## All rounds -/

/-- The position of a step that is run in its turn. -/
def position? (x : Exchange Task.Reply) : Option Nat :=
  match x.1 with
  | .turn position _ => some position
  | _ => none

/-- The positions of the steps that are run in their turn, in order. -/
def positions (s : Transcript Task.Reply) : List Nat := s.filterMap position?

@[simp] theorem positions_append (s t : Transcript Task.Reply) :
    positions (s ++ t) = positions s ++ positions t := List.filterMap_append

@[simp] theorem positions_said (events : List Event) : positions (said events) = [] := by
  simp [positions, said, position?]

theorem positions_eq_nil {s : Transcript Task.Reply} (h : ∀ x ∈ s, position? x = none) :
    positions s = [] := List.filterMap_eq_nil_iff.2 h

theorem common_position? : Common w fun x => position? x = none :=
  ⟨fun _ => rfl, fun _ => rfl, fun _ _ _ => rfl⟩

/-- A round runs its own step in its turn, and no other. -/
theorem Lap.positions_eq {position : Nat} {step : Step} {s : Transcript Task.Reply}
    {r : Except Break Next} (h : Lap w position step s r) :
    positions s = [] ∨ positions s = [position] := by
  cases h with
  | stopped => exact .inl (positions_said _)
  | broke => exact .inr rfl
  | cancelled =>
      rw [positions_append, positions_said]
      exact .inr rfl
  | judged _ _ _ _ hcondition _ =>
      rw [positions_append, positions_eq_nil (hcondition.forall_mem common_position?)]
      exact .inr rfl
  | hooked _ _ _ _ hcondition hhook =>
      rw [positions_append, positions_append,
        positions_eq_nil (hcondition.forall_mem common_position?),
        positions_eq_nil (hhook.forall_mem common_position?)]
      exact .inr rfl

/-- If jumps go forward, the rounds from a position on run the steps behind it in strictly
increasing order, and they are no more than there are steps. -/
theorem Laps.forward {limit position : Nat} {s : Transcript Task.Reply} {r : Except Break Status}
    (h : Laps w limit position s r) (hforward : w.Forward) (hposition : position ≤ w.steps.length) :
    (positions s).Pairwise (· < ·) ∧ (∀ n ∈ positions s, position ≤ n) ∧
      (w.steps.length < limit + position → r = .error .outOfRounds →
        .outOfRounds ∈ breaks s) := by
  -- by induction on the limit: what a round takes from it, the position gains
  induction limit generalizing position s with
  | zero =>
      cases h
      exact ⟨.nil, by simp [positions], fun hlimit => by omega⟩
  | succ limit ih =>
      have hlap : ∀ {step s r}, Lap w position step s r →
          (positions s).Pairwise (· < ·) ∧ ∀ n ∈ positions s, n = position := by
        intro step s r hlap
        rcases hlap.positions_eq with h | h <;> simp [h]
      cases h with
      | past =>
          refine ⟨.nil, by simp [positions, said, farewell, position?], ?_⟩
          rintro - ⟨⟩
      | broke _ h =>
          obtain ⟨hpairwise, heq⟩ := hlap h
          refine ⟨hpairwise, fun n hn => Nat.le_of_eq (heq n hn).symm, fun _ hr => ?_⟩
          exact h.outOfRounds_iff.2 (by cases hr; rfl)
      | ended _ h =>
          obtain ⟨hpairwise, heq⟩ := hlap h
          refine ⟨hpairwise, fun n hn => Nat.le_of_eq (heq n hn).symm, ?_⟩
          rintro - ⟨⟩
      | @next _ _ there step s s' _ hstep h hlaps =>
          obtain ⟨hpairwise, heq⟩ := hlap h
          obtain ⟨-, outcome, -, hnext⟩ := h.goOn
          obtain ⟨hlt, hle⟩ := lt_of_nextPosition? hforward hstep hnext
          obtain ⟨hpairwise', hge, hrounds⟩ := ih hlaps hle
          refine ⟨?_, ?_, fun hlimit hr => ?_⟩
          · rw [positions_append, List.pairwise_append]
            refine ⟨hpairwise, hpairwise', fun a ha b hb => ?_⟩
            have hb := hge b hb
            rw [heq a ha]
            omega
          · rw [positions_append]
            refine List.forall_mem_append.2 ⟨fun n hn => Nat.le_of_eq (heq n hn).symm, fun n hn => ?_⟩
            exact Nat.le_trans (Nat.le_of_lt hlt) (hge n hn)
          · rw [breaks_append]
            exact List.mem_append_right _ (hrounds (by omega) hr)

/-- If jumps go forward, a run runs its steps in strictly increasing order, and more rounds than it
has steps are enough for it. -/
theorem Whole.forward {limit : Nat} {s : Transcript Task.Reply} {r : Except Break Status}
    (h : Whole w limit s r) (hforward : w.Forward) :
    (positions s).Pairwise (· < ·) ∧
      (w.steps.length < limit → r = .error .outOfRounds → .outOfRounds ∈ breaks s) := by
  cases h with
  | outOfRounds hlaps =>
      obtain ⟨hpairwise, -, hrounds⟩ := hlaps.forward hforward (Nat.zero_le _)
      simp only [positions_append, positions_said, breaks_append, breaks_said, List.nil_append]
      exact ⟨hpairwise, fun hlimit _ => hrounds hlimit rfl⟩
  | ended hlaps =>
      obtain ⟨hpairwise, -⟩ := hlaps.forward hforward (Nat.zero_le _)
      simp only [positions_append, positions_said, List.nil_append, List.append_nil]
      exact ⟨hpairwise, by rintro - ⟨⟩⟩
  | crashed hlaps =>
      obtain ⟨hpairwise, -⟩ := hlaps.forward hforward (Nat.zero_le _)
      simp only [positions_append, positions_said, List.nil_append, List.append_nil]
      exact ⟨hpairwise, by rintro - ⟨⟩⟩

end Course

/-! ## Executions -/

/-- The workflows of a store have forward jumps, and fewer steps than a run may make rounds. -/
structure Bounded (store : Store.Workflows) (rounds : Nat) : Prop where
  forward : ∀ id w, store.get? id = some w → w.Forward
  rounds : ∀ id w, store.get? id = some w → w.steps.length < rounds

/-- A chain has only ids of a store, and none of them twice. -/
structure Among (store : Store.Workflows) (chain : List String) : Prop where
  nodup : chain.Nodup
  subset : chain ⊆ store.held.keys

/-- Only a nested run makes a step run out of rounds. -/
theorem nested_of_outOfRounds {c : Context} {rounds depth : Nat} {p : Deed}
    (h : c.Does rounds depth p) (hbroke : Course.broke? p.1 = some .outOfRounds) :
    ∃ step t, p.2 = c.naming step :: c.relayed step t ∧
      Yields ((c.call step).execute rounds depth) t (.error .outOfRounds) := by
  have hstepped : ∀ {step t}, c.Stepped rounds depth step t (.error .outOfRounds) →
      ∃ step t', t = c.naming step :: c.relayed step t' ∧
        Yields ((c.call step).execute rounds depth) t' (.error .outOfRounds) := by
    intro step t h
    generalize hr : (Except.error Break.outOfRounds : Except Break Outcome) = r at h
    cases h with
    | unknown => cases hr
    | crashed => cases hr
    | refused => cases hr
    | followed => cases hr
    | @nested t' r' _ hyields =>
        cases r' with
        | ok result => cases hr
        | error b =>
            cases hr
            exact ⟨step, t', rfl, hyields⟩
  cases h with
  | check => cases hbroke
  | tell => cases hbroke
  | @turn _ _ _ r h =>
      cases r with
      | ok outcome => cases hbroke
      | error b =>
          cases hbroke
          exact hstepped h
  | @aside _ _ r h =>
      cases r with
      | ok outcome => cases hbroke
      | error b =>
          cases hbroke
          exact hstepped h

section Among

variable {store : Store.Workflows} {rounds depth : Nat} {k : Call} {c : Context}
  {deeds : List Deed} {t : Transcript Query.Reply}

theorem Among.length_le {chain : List String} (h : Among store chain) :
    chain.length ≤ store.held.length := by
  have hle := (h.nodup.subperm h.subset).length_le
  rwa [Assoc.keys, List.length_map] at hle

/-- A run has one more id in its chain than its call. -/
theorem Call.Ran.among {r : Except Break Status} (h : k.Ran rounds depth c deeds t r)
    (hreached : Reached store) (hstore : FromStore store t) (hamong : Among store k.chain) :
    Among store c.chain ∧ c.chain.length = k.chain.length + 1 := by
  have hfound : store.get? k.id = some c.workflow := (hstore _ _ h.found).symm
  have hid : c.workflow.id = k.id := filed_of_reached hreached _ _ hfound
  have hchain : c.chain = k.chain ++ [k.id] := hid ▸ h.chain_eq
  refine ⟨⟨nodup_of_ran h hid hamong.nodup, ?_⟩, by rw [hchain, List.length_append]; rfl⟩
  rw [hchain]
  exact List.append_subset.2 ⟨hamong.subset,
    List.cons_subset.2 ⟨Assoc.mem_keys_iff.2 ⟨_, hfound⟩, List.nil_subset _⟩⟩

/-- Runs over one store do not run out of rounds as long as more runs may be nested than the store
has workflows that are not running yet. -/
theorem Call.Ran.ne_outOfRounds {r : Except Break Status} (h : k.Ran rounds depth c deeds t r)
    (hreached : Reached store) (hbounded : Bounded store rounds) (hstore : FromStore store t)
    (hamong : Among store k.chain) (hdepth : store.held.length ≤ depth + k.chain.length) :
    r ≠ .error .outOfRounds := by
  rintro rfl
  -- by induction on the nesting that is left: the chain grows by what it loses
  induction depth generalizing k c deeds t with
  | zero =>
      obtain ⟨hamong', hlength⟩ := h.among hreached hstore hamong
      have hle := hamong'.length_le
      omega
  | succ depth ih =>
      have hfound : store.get? k.id = some c.workflow := (hstore _ _ h.found).symm
      have hbreaks := (h.whole.forward (hbounded.forward _ _ hfound)).2
        (hbounded.rounds _ _ hfound) rfl
      obtain ⟨x, hx, hbroke⟩ := List.mem_filterMap.1 hbreaks
      obtain ⟨p, hp, rfl⟩ := List.mem_map.1 hx
      -- its own rounds are enough, so a nested run is out of rounds
      obtain ⟨step, t', hpiece, hyields⟩ := nested_of_outOfRounds (h.does p hp) hbroke
      obtain ⟨hamong', hlength⟩ := h.among hreached hstore hamong
      obtain ⟨c', deeds', hran⟩ := (c.call step).ran_of_yields (r := .error .outOfRounds) hyields
      exact ih (fun id answer hmem => hstore id answer (mem_of_nested h hp hpiece hmem)) hamong'
        (by rw [show (c.call step).chain.length = c.chain.length from rfl]; omega) hran

/-- A run comes to a terminal status. -/
theorem Call.Ran.ends {r : Except Break Status} (h : k.Ran rounds depth c deeds t r)
    (hreached : Reached store) (hbounded : Bounded store rounds) (hstore : FromStore store t)
    (hamong : Among store k.chain) (hdepth : store.held.length ≤ depth + k.chain.length) :
    ∃ status, r = .ok status ∧ status.isTerminal = true := by
  cases r with
  | error b =>
      obtain rfl := h.whole.eq_outOfRounds
      exact absurd rfl (h.ne_outOfRounds hreached hbounded hstore hamong hdepth)
  | ok status =>
      obtain ⟨during, last, -, -, hparting⟩ := told_of_ran h
      exact ⟨status, rfl, by cases hparting <;> rfl⟩

/-- Runs inside one another come to terminal statuses. -/
theorem Stands.ends {left : Nat} {stack : List Context} (h : Stands rounds depth k t stack left deeds)
    (hreached : Reached store) (hbounded : Bounded store rounds) (hstore : FromStore store t)
    (hamong : Among store k.chain) (hdepth : store.held.length < depth + k.chain.length) :
    ∃ c status, stack.getLast? = some c ∧ status.isTerminal = true ∧
      Course.Whole c.workflow rounds (deeds.map Prod.fst) (.ok status) := by
  induction h with
  | own hran =>
      obtain ⟨status, rfl, hterminal⟩ :=
        hran.ends hreached hbounded hstore hamong (by omega)
      exact ⟨_, status, rfl, hterminal, hran.whole⟩
  | @nested depth left k c deeds deeds' t t' r r' p step stack hran hp _ _ hpiece _ hstands ih =>
      obtain ⟨hamong', hlength⟩ := hran.among hreached hstore hamong
      obtain ⟨c', status, hlast, hterminal, hwhole⟩ :=
        ih (fun id answer hmem => hstore id answer (mem_of_nested hran hp hpiece hmem)) hamong'
          (by rw [show (c.call step).chain.length = c.chain.length from rfl]; omega)
      exact ⟨c', status, by rw [List.getLast?_cons, hlast]; rfl, hterminal, hwhole⟩

end Among

/-- If jumps go forward in all workflows of an unchanging store, there are limits on rounds and
nesting that no execution comes to: each run of each execution comes to a terminal status. Whatever
the limits are, each run runs the steps in their turn at strictly increasing positions. -/
theorem forward_execution_ends {store : Store.Workflows} (hreached : Reached store)
    (hforward : ∀ id w, store.get? id = some w → w.Forward) :
    ∃ enough, ∀ {rounds depth id inputs t r}, FromStore store t →
      Yields (execute rounds depth [] id inputs) t r →
        (∀ stack left deeds, Stands rounds depth ⟨[], id, inputs⟩ t stack left deeds →
          (Course.positions (deeds.map Prod.fst)).Pairwise (· < ·)) ∧
        (enough ≤ rounds → enough ≤ depth →
          (∀ w, store.get? id = some w → ∃ status, r = .ok (.ok status) ∧
            status.isTerminal = true) ∧
          ∀ stack left deeds, Stands rounds depth ⟨[], id, inputs⟩ t stack left deeds →
            ∃ c status, stack.getLast? = some c ∧ status.isTerminal = true ∧
              Course.Whole c.workflow rounds (deeds.map Prod.fst) (.ok status)) := by
  obtain ⟨longest, hlongest⟩ := store.held.exists_bound fun w => w.steps.length
  refine ⟨max longest store.held.length + 1, fun {rounds depth id inputs t r} hstore h => ?_⟩
  have hamong : Among store [] := ⟨List.nodup_nil, List.nil_subset _⟩
  refine ⟨fun stack left deeds hstands => ?_, fun hrounds hdepth => ?_⟩
  · have hstores : FromStores t := fun id answer hmem => ⟨store, hreached, hstore id answer hmem⟩
    obtain ⟨-, -, -, hfound⟩ := hstands.chain hstores List.nodup_nil
    obtain ⟨-, outer, c, r, rfl, -, -, hwhole⟩ := hstands.innermost
    have hc := hfound c (List.mem_append_right _ (List.mem_singleton_self _))
    exact (hwhole.forward (hforward _ _ (hstore _ _ hc).symm)).1
  · have hbounded : Bounded store rounds := by
      refine ⟨hforward, fun id w hw => ?_⟩
      have hle := hlongest id w hw
      omega
    refine ⟨fun w hw => ?_, fun stack left deeds hstands =>
      hstands.ends hreached hbounded hstore hamong (by simp only [List.length_nil]; omega)⟩
    obtain ⟨depth, rfl⟩ := Nat.exists_eq_succ_of_ne_zero (show depth ≠ 0 by omega)
    cases Call.executed_of_yields ⟨[], id, inputs⟩ h with
    | cycle hmem => cases hmem
    | notFound => cases (hstore _ _ (List.mem_singleton_self _)).trans hw
    | @ran c deeds _ r hran =>
        obtain ⟨status, rfl, hterminal⟩ :=
          hran.ends hreached hbounded hstore hamong (by simp only [List.length_nil]; omega)
        exact ⟨status, rfl, hterminal⟩

section SmallStore

open Store.Workflows (smallStore selfReferring reached_smallStore)

theorem forward_selfReferring : selfReferring.Forward := by
  intro position step hstep action haction target there hverb hthere
  match position with
  | 0 => exact Nat.zero_le _
  | 1 =>
      cases hstep
      cases haction
  | _ + 2 => cases hstep

theorem forward_smallStore : ∀ id w, smallStore.get? id = some w → w.Forward := by
  intro id w hw
  rw [Store.Workflows.get?, smallStore, Assoc.get?] at hw
  split at hw
  · exact Option.some.inj hw ▸ forward_selfReferring
  · cases hw

/-- A workflow that refers to itself comes to an end. -/
theorem forward_execution_ends_smallStore :
    ∃ rounds depth status, status.isTerminal = true ∧
      (execute rounds depth [] "a" []).run.result (steady smallStore.get? false (.refused "")) =
        .ok (.ok status) := by
  obtain ⟨enough, hends⟩ := forward_execution_ends reached_smallStore forward_smallStore
  have hyields := yields_transcript (steady smallStore.get? false (.refused ""))
    (execute enough enough [] "a" [])
  obtain ⟨status, hstatus, hterminal⟩ :=
    ((hends (fun _ _ hmem => Dialogue.mem_transcript hmem) hyields).2
      (Nat.le_refl enough) (Nat.le_refl enough)).1 selfReferring rfl
  exact ⟨enough, enough, status, hterminal, hstatus⟩

end SmallStore

end Run

end Runbook
