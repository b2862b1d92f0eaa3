import Runbook.Proofs.Run.Uncancelled
import Runbook.Run.World

/-!
# The record of an outermost run

The world keeps the record of an outermost run while its execution goes on. The record gets its id in
the one exchange in which the run begins (`next_of_goes`); from then on the replies of the world leave
it the record of that run, and `GoesOn` says what a reply has to do with its being asked to stop: it is
asked for good, and by nothing but a command of its own, and a reply that gives a reason to stop is
given only once it was asked.
-/

set_option autoImplicit false

namespace Runbook.Run

open Dialogue (Goes Ends)

/-! ## How an execution begins -/

/-- What an execution asks next: before its run begins for its workflow and the global variables, and
then no other run begins that is not nested in it. -/
theorem next_of_goes {rounds depth : Nat} {k : Call} {t : Transcript Query.Reply}
    {x : Exchange Query.Reply} {e : Dialogue Query.Reply (Except Break (Except Failure Status))}
    (h : Goes (k.execute rounds (depth + 1)).run (t ++ [x]) e) :
    (t.length < 2 ∧ ((∃ id, x.1 = .workflow id) ∨ x.1 = .globals)) ∨
      (∃ w globals executionId, t ++ [x] = k.beginning w globals executionId) ∨
      ∃ w globals executionId after, t = k.beginning w globals executionId ++ after ∧
        ∀ workflowId scope n, x.1 = .begin workflowId scope n → k.chain.length < n := by
  have hends := Dialogue.goes_append_iff.2
    ⟨e, h, Dialogue.ends_transcript (steady (fun _ => none) false (.refused "")) e⟩
  rw [List.append_assoc, List.singleton_append] at hends
  generalize ht : t ++ x :: Dialogue.transcript _ e = u at hends
  have hmem : x ∈ u := ht ▸ List.mem_append_right _ (List.mem_cons_self ..)
  rcases k.served_of_yields hends with ⟨-, rfl, -⟩ | ⟨-, rfl, -⟩ | ⟨c, deeds, r, hserved, -⟩
  · cases hmem
  · have hlength := congrArg List.length ht
    simp only [List.length_append, List.length_cons, List.length_nil] at hlength
    rw [List.mem_singleton.1 hmem]
    exact .inl ⟨by omega, .inl ⟨k.id, rfl⟩⟩
  · obtain ⟨first, ⟨w, globals, executionId, hc, rfl⟩, rfl⟩ := hserved.ran.begins
    rcases append_eq_append_cons ht.symm with ⟨es, hfirst, -⟩ | ⟨es, rfl, hdeeds⟩
    -- it is one of the three exchanges with which the run begins
    · match t with
      | [] =>
          cases hfirst
          exact .inl ⟨by simp, .inl ⟨k.id, rfl⟩⟩
      | [_] =>
          cases hfirst
          exact .inl ⟨by simp, .inr rfl⟩
      | [_, _] =>
          cases hfirst
          exact .inr (.inl ⟨w, globals, executionId, rfl⟩)
      | _ :: _ :: _ :: _ =>
          have hlength := congrArg List.length hfirst
          simp [Call.beginning] at hlength
    -- it belongs to a deed of the run, so what begins in it is nested
    · refine .inr (.inr ⟨w, globals, executionId, es, rfl, ?_⟩)
      intro workflowId scope n hbegin
      obtain ⟨q, reply⟩ := x
      obtain rfl : q = .begin workflowId scope n := hbegin
      obtain ⟨p, hp, hx⟩ := List.mem_flatMap.1
        (hdeeds ▸ List.mem_append_right _ (List.mem_cons_self ..))
      obtain ⟨step, r_p, -, -, hstepped⟩ :=
        (hserved.ran.does p hp).stepped hx (by rintro ⟨⟩) (by rintro event ⟨⟩)
      obtain ⟨-, t', r', hyields, -, -, hx'⟩ := hstepped.nested_of_begin hx
      have hle : (c.call step).chain.length ≤ n := atLeast_of_yields hyields _ hx' n rfl
      have hlength : (c.call step).chain.length = k.chain.length + 1 := by
        rw [show (c.call step).chain = c.chain from rfl, hserved.ran.chain_eq]
        simp
      omega

/-! ## The record as the execution goes on -/

/-- The record is that of the same run. -/
structure Live.Same (l l' : Live) : Prop where
  id : l'.record.id = l.record.id
  workflowId : l'.record.workflowId = l.record.workflowId
  scope : l'.record.scope = l.record.scope
  startTime : l'.record.startTime = l.record.startTime
  cancelOn : l'.cancelOn = l.cancelOn

theorem Live.Same.refl (l : Live) : l.Same l := ⟨rfl, rfl, rfl, rfl, rfl⟩

theorem Live.Same.trans {l l' l'' : Live} (h : l.Same l') (h' : l'.Same l'') : l.Same l'' where
  id := h'.id.trans h.id
  workflowId := h'.workflowId.trans h.workflowId
  scope := h'.scope.trans h.scope
  startTime := h'.startTime.trans h.startTime
  cancelOn := h'.cancelOn.trans h.cancelOn

/-- Whoever asks whether to stop is told to. -/
def Told : Exchange Query.Reply → Prop
  | ⟨.cancelRequested, requested⟩ => requested = true
  | ⟨.wait _, stopped⟩ => stopped = true
  | _ => True

/-- What an exchange has to do with the record of its execution. -/
structure GoesOn (l : Live) (x : Exchange Query.Reply) (l' : Live) : Prop where
  same : l.Same l'
  kept : l.record.cancelRequested = true → l'.record.cancelRequested = true
  asked : l.cancelOn = none → l'.record.cancelRequested = true →
    l.record.cancelRequested = true ∨ x = ⟨.cancel, ()⟩
  silent : l'.record.cancelRequested = false → Silent x
  told : l.record.cancelRequested = true → Told x
  status : l'.record.status = l.record.status ∨
    ∃ run stepId, x = telling run (.finished l'.record.status stepId)

section Live

variable {l l' : Live}

/-- What is neither made known nor a request to stop leaves the record alone. -/
theorem GoesOn.of_eq {x : Exchange Query.Reply} (hsilent : l.record.cancelRequested = false → Silent x)
    (htold : l.record.cancelRequested = true → Told x) : GoesOn l x l where
  same := .refl l
  kept h := h
  asked _ h := .inl h
  silent := hsilent
  told := htold
  status := .inl rfl

/-- An entry changes nothing of the record but its log, if nobody waits for the line. -/
theorem Live.same_append (l : Live) (now : Timestamp) (e : Entry) : l.Same (l.append now e) := by
  rw [Live.append]
  dsimp only
  split
  · exact ⟨rfl, rfl, rfl, rfl, rfl⟩
  · exact ⟨rfl, rfl, rfl, rfl, rfl⟩

theorem Live.status_append (l : Live) (now : Timestamp) (e : Entry) :
    (l.append now e).record.status = l.record.status := by
  rw [Live.append]
  dsimp only
  split
  · rfl
  · rfl

theorem Live.append_cancelRequested (l : Live) (now : Timestamp) (e : Entry) :
    (l.append now e).record.cancelRequested =
      (l.cancelOn == some e.message || l.record.cancelRequested) := by
  rw [Live.append]
  dsimp only
  split
  · rename_i h
    rw [h]
    rfl
  · rename_i h
    rw [Bool.eq_false_iff.2 h]
    rfl

/-- Only a terminal status is taken over, and only the first one. -/
theorem Record.finish_cases {r r' : Record} {now : Timestamp} {status : Status} {changed : Bool}
    (h : r.finish now status = .ok (r', changed)) :
    status.isTerminal = true ∧ (r.status.isTerminal = true ∧ r' = r ∨
      r.status = .running ∧ r' = { r with status := status, endTime := some now }) := by
  rw [Record.finish] at h
  split at h
  · cases h
  · rename_i hterminal
    refine ⟨by simpa using hterminal, ?_⟩
    split at h
    · rename_i hended
      cases h
      exact .inl ⟨hended, rfl⟩
    · rename_i hrunning
      cases h
      refine .inr ⟨?_, rfl⟩
      cases hstatus : r.status with
      | running => rfl
      | _ => exact absurd (hstatus ▸ rfl) hrunning

/-- What is made known of a run at whatever depth goes on with the record. -/
theorem goesOn_see (l : Live) (now : Timestamp) (run : Identity) (event : Event) :
    GoesOn l (telling run event) (l.see now run event) := by
  have hleft : GoesOn l (telling run event) l :=
    .of_eq (fun _ => trivial) fun _ => trivial
  unfold Live.see
  by_cases hdepth : (run.depth != 0) = true
  · rw [if_pos hdepth]
    exact hleft
  · rw [if_neg hdepth]
    cases event with
    | entry e isOutput =>
        have hrequested := l.append_cancelRequested now e
        refine ⟨l.same_append now e, ?_, ?_, fun _ => trivial, hleft.told,
          .inl (l.status_append now e)⟩
        · intro h
          rw [hrequested, h, Bool.or_true]
        · intro hnobody h
          rw [hrequested, hnobody] at h
          exact .inl h
    | finished status stepId =>
        dsimp only
        split
        · rename_i record changed hfinish
          rcases (Record.finish_cases hfinish).2 with ⟨-, rfl⟩ | ⟨-, rfl⟩
          · exact hleft
          · exact ⟨⟨rfl, rfl, rfl, rfl, rfl⟩, fun h => h, fun _ h => .inl h, fun _ => trivial,
              hleft.told, .inr ⟨run, stepId, rfl⟩⟩
        · exact hleft
    | closed =>
        exact ⟨⟨rfl, rfl, rfl, rfl, rfl⟩, fun h => h, fun _ h => .inl h, fun _ => trivial,
          hleft.told, .inl rfl⟩
    | _ => exact hleft

/-- What the world replies goes on with the record, unless an outermost run begins; for a command that
is started this depends on the command. -/
theorem goesOn_reply (w : World) (l : Live) {q : Query} (hbegin : ∀ id scope, q ≠ .begin id scope 0)
    (hlaunch : ∀ command, q ≠ .launch command) :
    GoesOn l ⟨q, (reply w l q).1⟩ (reply w l q).2.2 := by
  have hother : ∀ {x : Exchange Query.Reply}, Silent x → Told x → GoesOn l x l :=
    fun hsilent htold => .of_eq (fun _ => hsilent) fun _ => htold
  cases q with
  | cancelRequested => exact .of_eq (fun h => h) fun h => h
  | wait milliseconds =>
      cases hrequested : l.record.cancelRequested with
      | false =>
          have hreply : reply w l (.wait milliseconds) = (false, w, l) := by
            simp [reply, hrequested]
          rw [hreply]
          refine .of_eq (fun _ => rfl) fun h => ?_
          rw [hrequested] at h
          cases h
      | true =>
          have hreply : reply w l (.wait milliseconds) = (true, w.note
              { logger := shellLogger, message := "Killing shell command",
                extra := [("pid", .int 0)] }, l) := by
            simp [reply, hrequested]
          rw [hreply]
          refine .of_eq (fun h => ?_) fun _ => rfl
          rw [hrequested] at h
          cases h
  | cancel =>
      exact ⟨⟨rfl, rfl, rfl, rfl, rfl⟩, fun _ => rfl, fun _ _ => .inr rfl, by rintro ⟨⟩,
        fun _ => trivial, .inl rfl⟩
  | begin workflowId scope depth =>
      cases depth with
      | zero => exact absurd rfl (hbegin workflowId scope)
      | succ depth => exact hother trivial trivial
  | launch command => exact absurd rfl (hlaunch command)
  | tell run event => exact goesOn_see l w.now.1 run event
  | workflow id => exact hother trivial trivial
  | globals => exact hother trivial trivial
  | write change => exact hother trivial trivial

end Live

end Runbook.Run
