import Runbook.Proofs.Assoc
import Runbook.Proofs.Happens
import Runbook.Proofs.Run.Live
import Runbook.Service.Basic

/-!
# Histories of the service

Requests are answered side by side, and the executions that they start go on meanwhile, each at its own
pace. A `Scene` is the service together with the executions that were asked for and are not kept yet. A
`Step` is the least that can happen: a request takes effect, or one execution asks one thing and is
replied to. What happens to the world otherwise, such as changes of the stores, happens between any two
steps. A history of the service is any sequence of steps.

Nothing is assumed of commands but that they are honest. An execution is `Followed` by a history that
says how it goes: it has not begun yet (`Opening`), or its record says that it is to stop only if the
history says that it was asked to (`Begun`).
-/

set_option autoImplicit false

namespace Runbook.Service

open Run (World Live Launch Query Exchange Transcript Dialogue Call GoesOn Silent Unset telling
  executionId goesOn_reply next_of_goes)
open Run.Dialogue (Goes)

/-! ## What can happen -/

/-- The service while requests are answered side by side, and the executions that were asked for and
are not kept yet. -/
structure Scene where
  service : Service
  starting : List Ongoing

/-- What happens in one step. -/
inductive Move where
  /-- Somebody asks for an execution. -/
  | start (workflowId : String) (inputs : Scope)
  /-- An execution could not begin, and whoever asked for it is told so. -/
  | refused (failure : Failure)
  /-- The execution with an id asks something and is replied to. -/
  | exchange (id : String) (x : Exchange Query.Reply)
  /-- An execution that has begun is kept, and whoever asked for it is given its id. -/
  | keep (id : String)
  /-- Somebody asks the execution with an id to stop. -/
  | cancel (id : String)
  /-- Somebody looks up an id. -/
  | look (id : String)
  /-- The world changes otherwise. -/
  | around

/-- What the world replies to an execution. Any honest command may be started. -/
inductive Replies (w : World) (l : Live) : (q : Query) → q.Reply → World → Live → Prop
  | replied {q : Query} : (∀ command, q ≠ .launch command) →
      Replies w l q (Run.reply w l q).1 (Run.reply w l q).2.1 (Run.reply w l q).2.2
  | launched {command : String} {launch : Launch} {w' : World} :
      launch.Honest l.record.cancelRequested → w.begun ≤ w'.begun →
      Replies w l (.launch command) launch w' l

/-- One step of a history. -/
inductive Step : Scene → Move → Scene → Prop
  | start {s : Service} {starting : List Ongoing} (workflowId : String) (inputs : Scope) :
      Step ⟨s, starting⟩ (.start workflowId inputs)
        ⟨s, starting ++ [⟨Live.fresh false none, Run.outermost workflowId inputs⟩]⟩
  | refused {s : Service} {before after : List Ongoing} {live : Live} {failure : Failure} :
      Step ⟨s, before ++ ⟨live, .done (.ok (.error failure))⟩ :: after⟩ (.refused failure)
        ⟨s, before ++ after⟩
  | early {s : Service} {before after : List Ongoing} {live live' : Live} {q : Query}
      {next : q.Reply → Dialogue Query.Reply (Except Run.Break (Except Failure Status))}
      {reply : q.Reply} {w : World} : Replies s.world live q reply w live' →
      Step ⟨s, before ++ ⟨live, .ask q next⟩ :: after⟩ (.exchange live.record.id ⟨q, reply⟩)
        ⟨{ s with world := w }, before ++ ⟨live', next reply⟩ :: after⟩
  | keep {s : Service} {before after : List Ongoing} {run : Ongoing} : run.live.record.id ≠ "" →
      Step ⟨s, before ++ run :: after⟩ (.keep run.live.record.id)
        ⟨{ s with runs := s.runs.put run.live.record.id run }, before ++ after⟩
  | later {s : Service} {starting : List Ongoing} {id : String} {live live' : Live} {q : Query}
      {next : q.Reply → Dialogue Query.Reply (Except Run.Break (Except Failure Status))}
      {reply : q.Reply} {w : World} : s.runs.get? id = some ⟨live, .ask q next⟩ →
      Replies s.world live q reply w live' →
      Step ⟨s, starting⟩ (.exchange id ⟨q, reply⟩)
        ⟨{ s with world := w, runs := s.runs.put id ⟨live', next reply⟩ }, starting⟩
  | cancel {s : Service} {starting : List Ongoing} {id : String} {run : Ongoing} :
      s.find id = .ok run → Step ⟨s, starting⟩ (.cancel id) ⟨(s.cancel id).1, starting⟩
  | look {s : Service} {starting : List Ongoing} (id : String) :
      Step ⟨s, starting⟩ (.look id) ⟨s, starting⟩
  | around {s : Service} {starting : List Ongoing} {w : World} : s.world.begun ≤ w.begun →
      Step ⟨s, starting⟩ .around ⟨{ s with world := w }, starting⟩

/-! ## Requests about one execution -/

/-- An execution that is asked to stop. -/
def Ongoing.cancel (run : Ongoing) : Ongoing :=
  { run with live := { run.live with record := run.live.record.cancel } }

theorem find_eq_ok_iff {s : Service} {id : String} {run : Ongoing} :
    s.find id = .ok run ↔ s.runs.get? id = some run := by
  rw [Service.find]
  constructor
  · intro h
    split at h
    · rename_i hfound
      rw [hfound, Except.ok.inj h]
    · cases h
  · intro h
    rw [h]

/-- Whoever asks an execution to stop that is there changes nothing else. -/
theorem cancel_of_found {s : Service} {id : String} {run : Ongoing} (h : s.find id = .ok run) :
    (s.cancel id).1 =
      { s with world := s.world.note (cancelRecord id), runs := s.runs.put id run.cancel } := by
  rw [Service.cancel, h]
  rfl

/-- Whoever asks an execution to stop that is not there changes nothing. -/
theorem cancel_of_missing {s : Service} {id : String} {failure : Failure}
    (h : s.find id = .error failure) : (s.cancel id).1 = s := by
  rw [Service.cancel, h]

/-! ## What a history says of an execution -/

/-- The exchanges of the execution with an id. -/
def ownOf (id : String) (moves : List Move) : Transcript Query.Reply :=
  moves.filterMap fun
    | .exchange who x => if who = id then some x else none
    | _ => none

/-- An execution was asked to stop: by somebody, or by a command of its own. -/
def Requested (id : String) (moves : List Move) : Prop :=
  .cancel id ∈ moves ∨ .exchange id ⟨.cancel, ()⟩ ∈ moves

@[simp] theorem ownOf_append (id : String) (moves more : List Move) :
    ownOf id (moves ++ more) = ownOf id moves ++ ownOf id more := List.filterMap_append

theorem ownOf_exchange (id : String) (x : Exchange Query.Reply) :
    ownOf id [.exchange id x] = [x] := by simp [ownOf]

theorem ownOf_of_ne {id who : String} (x : Exchange Query.Reply) (h : who ≠ id) :
    ownOf id [.exchange who x] = [] := by simp [ownOf, h]

theorem mem_ownOf_iff {id : String} {x : Exchange Query.Reply} {moves : List Move} :
    x ∈ ownOf id moves ↔ .exchange id x ∈ moves := by
  rw [ownOf, List.mem_filterMap]
  constructor
  · rintro ⟨m, hm, hx⟩
    cases m with
    | exchange who y =>
        simp only [Option.ite_none_right_eq_some, Option.some.injEq] at hx
        obtain ⟨rfl, rfl⟩ := hx
        exact hm
    | _ => cases hx
  · intro h
    exact ⟨_, h, if_pos rfl⟩

theorem Requested.append {id : String} {moves : List Move} (h : Requested id moves)
    (more : List Move) : Requested id (moves ++ more) :=
  h.imp (List.mem_append_left _) (List.mem_append_left _)

/-- The id of an execution, which is empty before its run has begun. -/
def Ongoing.id (run : Ongoing) : String := run.live.record.id

/-- An execution whose run has not begun yet. -/
structure Opening (workflowId : String) (inputs : Scope) (run : Ongoing) : Prop where
  live : run.live = Live.fresh false none
  way : ∃ t, t.length ≤ 2 ∧ Goes (Run.outermost workflowId inputs) t run.rest

/-- An execution whose run has begun goes as the history says. -/
structure Begun (moves : List Move) (workflowId : String) (inputs : Scope) (run : Ongoing) :
    Prop where
  id : run.id ≠ ""
  way : ∃ w globals, Goes (Run.outermost workflowId inputs)
    ((⟨[], workflowId, inputs⟩ : Call).beginning w globals run.id ++ ownOf run.id moves) run.rest
  silent : run.live.record.cancelRequested = false → Unset (ownOf run.id moves)
  asked : run.live.record.cancelRequested = true → Requested run.id moves
  status : run.live.record.status = .cancelled →
    ∃ teller stepId, telling teller (.finished .cancelled stepId) ∈ ownOf run.id moves
  unattended : run.live.cancelOn = none

/-- An execution goes as the history says, which says when somebody asked for it. -/
def Followed (moves : List Move) (run : Ongoing) : Prop :=
  ∃ workflowId inputs, .start workflowId inputs ∈ moves ∧
    (Opening workflowId inputs run ∨ Begun moves workflowId inputs run)

section Followed

variable {moves : List Move} {workflowId : String} {inputs : Scope} {run : Ongoing}

theorem Opening.id (h : Opening workflowId inputs run) : run.id = "" := by
  rw [Ongoing.id, h.live]
  rfl

/-- What other executions do and who asks them to stop has nothing to do with an execution. -/
theorem Followed.append (h : Followed moves run) {m : Move}
    (hown : run.id ≠ "" → ownOf run.id [m] = []) : Followed (moves ++ [m]) run := by
  obtain ⟨workflowId, inputs, hstart, hrun⟩ := h
  refine ⟨workflowId, inputs, List.mem_append_left _ hstart, hrun.imp_right fun hbegun => ?_⟩
  have hsame : ownOf run.id (moves ++ [m]) = ownOf run.id moves := by
    rw [ownOf_append, hown hbegun.id, List.append_nil]
  exact ⟨hbegun.id, hsame ▸ hbegun.way, hsame ▸ hbegun.silent, fun h => (hbegun.asked h).append [m],
    hsame ▸ hbegun.status, hbegun.unattended⟩

/-! ### One exchange -/

variable {w w' : World} {live live' : Live} {q : Query}
  {next : q.Reply → Dialogue Query.Reply (Except Run.Break (Except Failure Status))}
  {reply : q.Reply}

/-- One exchange more of an execution. -/
theorem goes_snoc {t : Transcript Query.Reply}
    (h : Goes (Run.outermost workflowId inputs) t (.ask q next)) (reply : q.Reply) :
    Goes (Run.outermost workflowId inputs) (t ++ [⟨q, reply⟩]) (next reply) :=
  Run.Dialogue.goes_append_iff.2 ⟨_, h, .ask q next reply (.here _)⟩

/-- What an execution of the service asks next. -/
theorem next_of_outermost {t : Transcript Query.Reply} {x : Exchange Query.Reply}
    {e : Dialogue Query.Reply (Except Run.Break (Except Failure Status))}
    (h : Goes (Run.outermost workflowId inputs) (t ++ [x]) e) :
    (t.length < 2 ∧ ((∃ id, x.1 = .workflow id) ∨ x.1 = .globals)) ∨
      (∃ w globals executionId,
        t ++ [x] = (⟨[], workflowId, inputs⟩ : Call).beginning w globals executionId) ∨
      ∃ w globals executionId after,
        t = (⟨[], workflowId, inputs⟩ : Call).beginning w globals executionId ++ after ∧
          ∀ id scope n, x.1 = .begin id scope n → 0 < n := by
  have hcall : Goes ((⟨[], workflowId, inputs⟩ : Call).execute Run.roundLimit (1999 + 1)).run
      (t ++ [x]) e := h
  exact next_of_goes hcall

/-- An execution whose run has not begun yet looks something up, or its run begins. -/
theorem Opening.replied (h : Opening workflowId inputs ⟨live, .ask q next⟩) (reply : q.Reply) :
    ((∃ id, q = .workflow id) ∨ q = .globals) ∧
        Opening workflowId inputs ⟨Live.fresh false none, next reply⟩ ∨
      ∃ found globals given, (⟨q, reply⟩ : Exchange Query.Reply) =
          ⟨.begin found.id (Run.resolve globals found.declared inputs) 0, given⟩ ∧
        Goes (Run.outermost workflowId inputs)
          ((⟨[], workflowId, inputs⟩ : Call).beginning found globals given) (next reply) := by
  obtain ⟨t, ht, hway⟩ := h.way
  have hmore := goes_snoc hway reply
  rcases next_of_outermost hmore with ⟨hlength, hlooks⟩ | ⟨found, globals, given, heq⟩ |
    ⟨_, _, _, _, rfl, -⟩
  · refine .inl ⟨hlooks, rfl, t ++ [⟨q, reply⟩], ?_, hmore⟩
    rw [List.length_append, List.length_singleton]
    omega
  · refine .inr ⟨found, globals, given, ?_, heq ▸ hmore⟩
    have hcut : t ++ [⟨q, reply⟩] = [⟨.workflow workflowId, some found⟩, ⟨.globals, globals⟩] ++
        [⟨.begin found.id (Run.resolve globals found.declared inputs) 0, given⟩] := heq
    exact List.singleton_inj.1 (List.append_inj' hcut rfl).2
  · simp only [Call.beginning, List.length_append, List.length_cons] at ht
    omega

/-- Whatever it asks by then is asked at once, and nothing is made known yet. -/
theorem Opening.asks (h : Opening workflowId inputs ⟨live, .ask q next⟩) :
    (∃ id, q = .workflow id) ∨ q = .globals ∨ ∃ id scope, q = .begin id scope 0 := by
  rcases h.replied (Run.steady (fun _ => none) false (.refused "") q) with ⟨hlooks, -⟩ |
    ⟨found, globals, given, hbegin, -⟩
  · exact hlooks.imp_right .inl
  · exact .inr (.inr ⟨_, _, congrArg Sigma.fst hbegin⟩)

theorem Replies.begun_le (h : Replies w live q reply w' live') : w.begun ≤ w'.begun := by
  cases h with
  | launched _ hbegun => exact hbegun
  | replied hlaunch =>
      cases q with
      | launch command => exact absurd rfl (hlaunch command)
      | begin id scope depth => exact Nat.le_succ _
      | wait milliseconds =>
          simp only [Run.reply]
          split
          · exact Nat.le_refl _
          · exact Nat.le_refl _
      | tell run event =>
          simp only [Run.reply]
          split
          · exact Nat.le_refl _
          · exact Nat.le_refl _
      | _ => exact Nat.le_refl _

theorem Replies.goesOn (h : Replies w live q reply w' live')
    (hbegin : ∀ id scope, q ≠ .begin id scope 0) : GoesOn live ⟨q, reply⟩ live' := by
  cases h with
  | replied hlaunch => exact goesOn_reply w live hbegin hlaunch
  | launched hhonest _ =>
      refine .of_eq (fun hasked => ?_) fun _ => trivial
      rw [hasked] at hhonest
      exact hhonest

/-- A run that has begun goes on. -/
theorem Begun.exchange (h : Begun moves workflowId inputs ⟨live, .ask q next⟩)
    (hreply : Replies w live q reply w' live') :
    GoesOn live ⟨q, reply⟩ live' ∧
      Begun (moves ++ [.exchange live.record.id ⟨q, reply⟩]) workflowId inputs
        ⟨live', next reply⟩ := by
  obtain ⟨found, globals, hway⟩ := h.way
  have hmore := goes_snoc hway reply
  -- an outermost run begins once, so what begins now is nested
  have hnested : ∀ id scope, q ≠ .begin id scope 0 := by
    rcases next_of_outermost hmore with ⟨hlength, -⟩ | ⟨_, _, _, heq⟩ | ⟨_, _, _, _, -, hdeeper⟩
    · simp only [Call.beginning, List.length_append, List.length_cons] at hlength
      omega
    · have hlength := congrArg List.length heq
      simp [Call.beginning] at hlength
    · rintro id scope rfl
      exact absurd (hdeeper id scope 0 rfl) (Nat.lt_irrefl 0)
  have hgoes := hreply.goesOn hnested
  have hid : live'.record.id = live.record.id := hgoes.same.id
  have hown : ownOf live'.record.id (moves ++ [.exchange live.record.id ⟨q, reply⟩]) =
      ownOf live.record.id moves ++ [⟨q, reply⟩] := by
    rw [ownOf_append, hid, ownOf_exchange]
  refine ⟨hgoes, ?_, ?_, ?_, ?_, ?_, ?_⟩
  · rw [Ongoing.id, hid]
    exact h.id
  · refine ⟨found, globals, ?_⟩
    rw [Ongoing.id, hown, hid, ← List.append_assoc]
    exact hmore
  · intro hunasked
    have hbefore : live.record.cancelRequested = false := by
      rw [Bool.eq_false_iff]
      intro hasked
      rw [hgoes.kept hasked] at hunasked
      cases hunasked
    rw [Ongoing.id, hown]
    exact Run.unset_append_iff.2
      ⟨h.silent hbefore, Run.unset_cons_iff.2 ⟨hgoes.silent hunasked, Run.unset_nil⟩⟩
  -- whoever is to stop by now was to stop before, or this exchange asks for it
  · intro hasked
    rw [Ongoing.id, hid]
    rcases hgoes.asked h.unattended hasked with hbefore | hcancel
    · exact (h.asked hbefore).append _
    · refine .inr (List.mem_append_right _ ?_)
      rw [hcancel]
      exact List.mem_singleton_self _
  · intro hstatus
    rw [Ongoing.id, hown]
    rcases hgoes.status with hsame | ⟨teller, stepId, htelling⟩
    · obtain ⟨teller, stepId, hmem⟩ := h.status (hsame.symm.trans hstatus)
      exact ⟨teller, stepId, List.mem_append_left _ hmem⟩
    · rw [hstatus] at htelling
      exact ⟨teller, stepId, List.mem_append_right _ (htelling ▸ List.mem_singleton_self _)⟩
  · exact hgoes.same.cancelOn.trans h.unattended

/-- What is left of the record when an outermost run begins. -/
theorem Replies.begun (hreply : Replies w live q reply w' live') {id executionId : String}
    {scope : Scope} (hx : (⟨q, reply⟩ : Exchange Query.Reply) = ⟨.begin id scope 0, executionId⟩) :
    executionId = Run.executionId (w.begun + 1) ∧ w'.begun = w.begun + 1 ∧
      live'.record.id = executionId ∧ live'.record.status = .running ∧
      live'.record.cancelRequested = live.record.cancelRequested ∧
      live'.cancelOn = live.cancelOn := by
  cases hreply with
  | launched => cases hx
  | replied =>
      cases hx
      exact ⟨rfl, rfl, rfl, rfl, rfl, rfl⟩

/-- An execution whose run has not begun goes on, and then its run has not begun either, or it begins
with a new id. -/
theorem Opening.exchange (h : Opening workflowId inputs ⟨live, .ask q next⟩)
    (hreply : Replies w live q reply w' live')
    (hnew : ownOf (executionId (w.begun + 1)) moves = []) :
    live.record.id = "" ∧ (Opening workflowId inputs ⟨live', next reply⟩ ∨
      live'.record.id = executionId (w.begun + 1) ∧ w'.begun = w.begun + 1 ∧
        (executionId (w.begun + 1) ≠ "" →
          Begun (moves ++ [.exchange live.record.id ⟨q, reply⟩]) workflowId inputs
            ⟨live', next reply⟩)) := by
  have hid : live.record.id = "" := h.id
  have hlive : live = Live.fresh false none := h.live
  refine ⟨hid, ?_⟩
  rcases h.replied reply with ⟨hlooks, hopening⟩ | ⟨found, globals, given, hbegin, hway⟩
  -- it looks something up
  · left
    have hsame : live' = live := by
      cases hreply with
      | launched => exact hlooks.elim (fun ⟨_, h⟩ => nomatch h) fun h => nomatch h
      | replied =>
          rcases hlooks with ⟨id, rfl⟩ | rfl
          · rfl
          · rfl
    rw [hsame, hlive]
    exact hopening
  -- its run begins
  · obtain ⟨rfl, hbegun, hgiven, hstatus, hasked, hnobody⟩ := hreply.begun hbegin
    refine .inr ⟨hgiven, hbegun, fun hne => ?_⟩
    have hown : ownOf live'.record.id (moves ++ [.exchange live.record.id ⟨q, reply⟩]) = [] := by
      rw [ownOf_append, hgiven, hnew, hid, ownOf_of_ne _ (Ne.symm hne), List.append_nil]
    have hunasked : live'.record.cancelRequested = false := by
      rw [hasked, hlive]
      rfl
    refine ⟨?_, ⟨found, globals, ?_⟩, fun _ => ?_, fun h => ?_, fun h => ?_, ?_⟩
    · rw [Ongoing.id, hgiven]
      exact hne
    · rw [Ongoing.id, hown, List.append_nil, hgiven]
      exact hway
    · rw [Ongoing.id, hown]
      exact Run.unset_nil
    · rw [hunasked] at h
      cases h
    · rw [hstatus] at h
      cases h
    · rw [hnobody, hlive]
      rfl

/-- An execution is asked to stop. -/
theorem Begun.cancel (h : Begun moves workflowId inputs run) :
    Begun (moves ++ [.cancel run.id]) workflowId inputs run.cancel := by
  have hown : ownOf run.id (moves ++ [.cancel run.id]) = ownOf run.id moves := by
    rw [ownOf_append]
    exact List.append_nil _
  refine ⟨h.id, ?_, by rintro ⟨⟩, fun _ => ?_, ?_, h.unattended⟩
  · exact hown ▸ h.way
  · exact .inl (List.mem_append_right _ (List.mem_singleton_self _))
  · exact hown ▸ h.status

/-- An execution that has an id has begun. -/
theorem Followed.begun (h : Followed moves run) (hid : run.id ≠ "") :
    ∃ workflowId inputs, .start workflowId inputs ∈ moves ∧ Begun moves workflowId inputs run := by
  obtain ⟨workflowId, inputs, hstart, hopening | hbegun⟩ := h
  · exact absurd hopening.id hid
  · exact ⟨workflowId, inputs, hstart, hbegun⟩

end Followed

end Runbook.Service
