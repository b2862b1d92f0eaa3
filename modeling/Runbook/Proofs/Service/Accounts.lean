import Mathlib.Data.List.Perm.Subperm
import Runbook.Proofs.Service.History

/-!
# What a history keeps true

A run that begins gets an id that no other run has. So what one execution asks says nothing of the
others, and an execution that is kept stays under its id. `Accounted` says this of executions, `Sound`
of a scene. Each step keeps it true (`Sound.step`), so it holds after each history of a service that
keeps no executions at first (`sound_of_happens`).
-/

set_option autoImplicit false

namespace Runbook.Service

open Run (World Live Query Exchange Dialogue executionId)

/-! ## The ids -/

/-- One of the ids of the runs that have begun. -/
def Issued (begun : Nat) (id : String) : Prop := ∃ n ≤ begun, id = executionId n

theorem executionId_inj {m n : Nat} (h : executionId m = executionId n) : m = n := by
  have hlist := congrArg String.toList h
  simp only [executionId, String.toList_append, List.append_cancel_left_eq] at hlist
  have hdigits : Nat.toDigits 10 m = Nat.toDigits 10 n := by
    simpa [Nat.repr] using hlist
  rw [← Nat.ofDigitChars_toDigits (b := 10) (n := m) (by decide) (by decide), hdigits,
    Nat.ofDigitChars_toDigits (by decide) (by decide)]

theorem executionId_ne_empty (n : Nat) : executionId n ≠ "" := by
  intro h
  have hlist := congrArg String.toList h
  simp [executionId] at hlist

theorem Issued.mono {begun begun' : Nat} {id : String} (h : Issued begun id)
    (hle : begun ≤ begun') : Issued begun' id := by
  obtain ⟨n, hn, rfl⟩ := h
  exact ⟨n, Nat.le_trans hn hle, rfl⟩

/-- The id of the run that begins next is a new one. -/
theorem not_issued_next (begun : Nat) : ¬ Issued begun (executionId (begun + 1)) := by
  rintro ⟨n, hn, h⟩
  have := executionId_inj h
  omega

/-! ## The invariant of a history -/

/-- Executions go as the history says, and those that have begun have ids of their own. -/
structure Accounted (moves : List Move) (begun : Nat) (runs : List Ongoing) : Prop where
  followed : ∀ run ∈ runs, Followed moves run
  distinct : runs.Pairwise fun run other => run.id = other.id → run.id = ""
  issued : ∀ run ∈ runs, run.id ≠ "" → Issued begun run.id
  labelled : ∀ id x, .exchange id x ∈ moves → id ≠ "" → Issued begun id

section Accounted

variable {moves : List Move} {m : Move} {begun begun' : Nat} {runs before after : List Ongoing}
  {run run' : Ongoing}

/-- That executions have ids of their own depends on no order. -/
theorem distinct_symm {a b : Ongoing} (h : a.id = b.id → a.id = "") (hsame : b.id = a.id) :
    b.id = "" := hsame.trans (h hsame.symm)

/-- Some of the executions, in any order. -/
theorem Accounted.subperm (h : Accounted moves begun runs) {others : List Ongoing}
    (hsub : List.Subperm others runs) : Accounted moves begun others where
  followed other hother := h.followed other (hsub.subset hother)
  distinct := by
    obtain ⟨between, hperm, hsublist⟩ := hsub
    exact hperm.pairwise (h.distinct.sublist hsublist) distinct_symm
  issued other hother := h.issued other (hsub.subset hother)
  labelled := h.labelled

/-- An execution among others may be looked at first. -/
theorem Accounted.front (h : Accounted moves begun (before ++ run :: after)) :
    Accounted moves begun (run :: (before ++ after)) :=
  h.subperm List.perm_middle.symm.subperm

/-- Another execution that has begun has another id. -/
theorem Accounted.ne_of_mem (h : Accounted moves begun (run :: runs)) {other : Ongoing}
    (hother : other ∈ runs) (hid : other.id ≠ "") : run.id ≠ other.id := by
  intro hsame
  exact hid (hsame.symm.trans ((List.pairwise_cons.1 h.distinct).1 other hother hsame))

/-- Something happens to the first execution, which may get a new id. -/
theorem Accounted.replace (h : Accounted moves begun (run :: runs)) (hle : begun ≤ begun')
    (hown : ∀ id x, m = .exchange id x → id = run.id) (hrun : Followed (moves ++ [m]) run')
    (hid : run'.id = run.id ∨ ¬ Issued begun run'.id ∧ Issued begun' run'.id) :
    Accounted (moves ++ [m]) begun' (run' :: runs) := by
  obtain ⟨hdistinct, hothers⟩ := List.pairwise_cons.1 h.distinct
  obtain ⟨hissued, hrest⟩ := List.forall_mem_cons.1 h.issued
  have hleft := (List.forall_mem_cons.1 h.followed).2
  refine ⟨List.forall_mem_cons.2 ⟨hrun, ?_⟩, List.pairwise_cons.2 ⟨?_, hothers⟩,
    List.forall_mem_cons.2 ⟨?_, fun other hother hne => (hrest other hother hne).mono hle⟩, ?_⟩
  -- the others go as before, because the move is none of theirs
  · intro other hother
    apply (hleft other hother).append
    intro hne
    cases m with
    | exchange id x =>
        rw [hown id x rfl]
        exact ownOf_of_ne x (h.ne_of_mem hother hne)
    | _ => rfl
  -- a new id is none of theirs
  · intro other hother hsame
    rcases hid with hold | ⟨hnew, -⟩
    · rw [hold] at hsame ⊢
      exact hdistinct other hother hsame
    · by_contra hne
      rw [hsame] at hnew hne
      exact hnew (hrest other hother hne)
  · intro hne
    rcases hid with hold | ⟨-, hnew⟩
    · rw [hold] at hne ⊢
      exact (hissued hne).mono hle
    · exact hnew
  · intro id x hx hne
    rcases List.mem_append.1 hx with hx | hx
    · exact (h.labelled id x hx hne).mono hle
    · obtain rfl := hown id x (List.mem_singleton.1 hx).symm
      exact (hissued hne).mono hle

/-- Something happens to one execution among others. -/
theorem Accounted.replaceAt (h : Accounted moves begun (before ++ run :: after))
    (hle : begun ≤ begun') (hown : ∀ id x, m = .exchange id x → id = run.id)
    (hrun : Followed (moves ++ [m]) run')
    (hid : run'.id = run.id ∨ ¬ Issued begun run'.id ∧ Issued begun' run'.id) :
    Accounted (moves ++ [m]) begun' (before ++ run' :: after) :=
  (h.front.replace hle hown hrun hid).subperm List.perm_middle.subperm

/-- Nothing happens to any execution. -/
theorem Accounted.quiet (h : Accounted moves begun runs) (hle : begun ≤ begun')
    (hm : ∀ id x, m ≠ .exchange id x) : Accounted (moves ++ [m]) begun' runs where
  followed run hrun := (h.followed run hrun).append fun _ => by
    cases m with
    | exchange id x => exact absurd rfl (hm id x)
    | _ => rfl
  distinct := h.distinct
  issued run hrun hne := (h.issued run hrun hne).mono hle
  labelled id x hx hne := by
    rcases List.mem_append.1 hx with hx | hx
    · exact (h.labelled id x hx hne).mono hle
    · exact absurd (List.mem_singleton.1 hx).symm (hm id x)

/-- An execution asks something and is replied to. -/
theorem Accounted.exchange {w w' : World} {live live' : Live} {q : Query}
    {next : q.Reply → Dialogue Query.Reply (Except Run.Break (Except Failure Status))}
    {reply : q.Reply} (h : Accounted moves w.begun runs) (hmem : ⟨live, .ask q next⟩ ∈ runs)
    (hreply : Replies w live q reply w' live') :
    Followed (moves ++ [.exchange live.record.id ⟨q, reply⟩]) ⟨live', next reply⟩ ∧
      (live'.record.id = live.record.id ∨
        live.record.id = "" ∧ ¬ Issued w.begun live'.record.id ∧
          Issued w'.begun live'.record.id) := by
  obtain ⟨workflowId, inputs, hstart, hrun⟩ := h.followed _ hmem
  have hstart' := List.mem_append_left [.exchange live.record.id ⟨q, reply⟩] hstart
  rcases hrun with hopening | hbegun
  -- if its run begins now, nothing was exchanged before under the id it gets
  · have hnew : ownOf (executionId (w.begun + 1)) moves = [] := by
      refine List.eq_nil_iff_forall_not_mem.2 fun x hx => not_issued_next w.begun ?_
      exact h.labelled _ x (mem_ownOf_iff.1 hx) (executionId_ne_empty _)
    obtain ⟨hid, hopening' | ⟨hgiven, hbegun, hrun⟩⟩ := hopening.exchange hreply hnew
    · exact ⟨⟨workflowId, inputs, hstart', .inl hopening'⟩, .inl (hopening'.id.trans hid.symm)⟩
    · refine ⟨⟨workflowId, inputs, hstart', .inr (hrun (executionId_ne_empty _))⟩, .inr ⟨hid, ?_⟩⟩
      rw [hgiven]
      exact ⟨not_issued_next _, ⟨_, Nat.le_of_eq hbegun.symm, rfl⟩⟩
  · obtain ⟨hgoes, hmore⟩ := hbegun.exchange hreply
    exact ⟨⟨workflowId, inputs, hstart', .inr hmore⟩, .inl hgoes.same.id⟩

end Accounted

/-- The executions of a scene, those that are kept and those that are not yet. -/
def Scene.executions (scene : Scene) : List Ongoing := scene.starting ++ scene.service.runs.values

/-- The executions of a scene are accounted for, and the service keeps them under their ids. -/
structure Sound (moves : List Move) (scene : Scene) : Prop where
  accounted : Accounted moves scene.service.world.begun scene.executions
  filed : ∀ entry ∈ scene.service.runs, entry.2.id = entry.1 ∧ entry.1 ≠ ""

section Sound

variable {moves : List Move} {m : Move} {scene scene' : Scene} {s : Service}
  {starting : List Ongoing} {id : String} {run run' : Ongoing}

/-- An execution that is found has the id under which it is kept. -/
theorem Sound.id_of_get? (h : Sound moves ⟨s, starting⟩) (hfound : s.runs.get? id = some run) :
    run.id = id ∧ id ≠ "" := by
  obtain ⟨before, after, hruns, -⟩ := Assoc.exists_of_get? hfound
  exact h.filed (id, run) (hruns ▸ List.mem_append_right _ (List.mem_cons_self ..))

/-- Something happens to an execution that is kept. -/
theorem Sound.put (h : Sound moves ⟨s, starting⟩) (hfound : s.runs.get? id = some run) {w : World}
    (hle : s.world.begun ≤ w.begun) (hown : ∀ who x, m = .exchange who x → who = run.id)
    (hrun : Followed (moves ++ [m]) run') (hid : run'.id = run.id) :
    Sound (moves ++ [m]) ⟨{ s with world := w, runs := s.runs.put id run' }, starting⟩ := by
  obtain ⟨before, after, hruns, hput⟩ := Assoc.exists_of_get? hfound
  have hsplit : ∀ other, starting ++ Assoc.values (before ++ (id, other) :: after) =
      (starting ++ Assoc.values before) ++ other :: Assoc.values after := by
    intro other
    simp [Assoc.values]
  constructor
  · have haccounted := h.accounted
    simp only [Scene.executions, hruns, hsplit] at haccounted
    simp only [Scene.executions, hput, hsplit]
    exact haccounted.replaceAt hle hown hrun (.inl hid)
  · intro entry hentry
    obtain ⟨hfiled, hne⟩ := h.id_of_get? hfound
    simp only [hput, List.mem_append, List.mem_cons] at hentry
    have hold : ∀ entry, entry ∈ before ∨ entry ∈ after → entry.2.id = entry.1 ∧ entry.1 ≠ "" := by
      intro entry hmem
      refine h.filed entry ?_
      simp only [hruns, List.mem_append, List.mem_cons]
      tauto
    rcases hentry with hentry | rfl | hentry
    · exact hold entry (.inl hentry)
    · exact ⟨hid.trans hfiled, hne⟩
    · exact hold entry (.inr hentry)

/-- An execution that is about to be kept gets a place of its own. -/
theorem Sound.put_keep {before after : List Ongoing} (h : Sound moves ⟨s, before ++ run :: after⟩) :
    s.runs.get? run.id = none ∧
      s.runs.put run.id run = s.runs ++ [(run.id, run)] := by
  have hnew : run.id ∉ s.runs.keys := by
    intro hmem
    obtain ⟨other, hother⟩ := Assoc.mem_keys_iff.1 hmem
    obtain ⟨hfiled, hne⟩ := h.id_of_get? hother
    have haccounted : Accounted moves s.world.begun
        (before ++ run :: (after ++ s.runs.values)) := by
      have := h.accounted
      rwa [Scene.executions, List.append_assoc, List.cons_append] at this
    have hvalue : other ∈ before ++ (after ++ s.runs.values) :=
      List.mem_append_right _ (List.mem_append_right _ (Assoc.mem_values_of_get? hother))
    rw [← hfiled] at hne
    exact haccounted.front.ne_of_mem hvalue hne hfiled.symm
  exact ⟨Assoc.get?_eq_none_iff.2 hnew, Assoc.put_of_notMem hnew run⟩

/-- Somebody asks for an execution, which has no id yet and so stands beside the others. -/
theorem Sound.start (h : Sound moves ⟨s, starting⟩) (workflowId : String) (inputs : Scope) :
    Sound (moves ++ [.start workflowId inputs])
      ⟨s, starting ++ [⟨Live.fresh false none, Run.outermost workflowId inputs⟩]⟩ := by
  refine ⟨?_, h.filed⟩
  have hold := h.accounted.quiet (m := .start workflowId inputs) (Nat.le_refl _)
    (by rintro _ _ ⟨⟩)
  have hnew : Followed (moves ++ [.start workflowId inputs])
      ⟨Live.fresh false none, Run.outermost workflowId inputs⟩ :=
    ⟨workflowId, inputs, List.mem_append_right _ (List.mem_singleton_self _),
      .inl ⟨rfl, [], Nat.zero_le _, .here _⟩⟩
  have hmore : Accounted (moves ++ [.start workflowId inputs]) s.world.begun
      (⟨Live.fresh false none, Run.outermost workflowId inputs⟩ ::
        (starting ++ s.runs.values)) := by
    refine ⟨?_, ?_, ?_, hold.labelled⟩
    · exact List.forall_mem_cons.2 ⟨hnew, hold.followed⟩
    · exact List.pairwise_cons.2 ⟨fun _ _ _ => rfl, hold.distinct⟩
    · exact List.forall_mem_cons.2 ⟨fun hne => absurd rfl hne, hold.issued⟩
  refine hmore.subperm (List.Perm.subperm ?_)
  rw [Scene.executions, List.append_assoc]
  exact List.perm_middle

/-- An execution that is not kept yet is replied to. -/
theorem Sound.early {before after : List Ongoing} {live live' : Live} {q : Query}
    {next : q.Reply → Dialogue Query.Reply (Except Run.Break (Except Failure Status))}
    {reply : q.Reply} {w : World} (h : Sound moves ⟨s, before ++ ⟨live, .ask q next⟩ :: after⟩)
    (hreply : Replies s.world live q reply w live') :
    Sound (moves ++ [.exchange live.record.id ⟨q, reply⟩])
      ⟨{ s with world := w }, before ++ ⟨live', next reply⟩ :: after⟩ := by
  have haccounted := h.accounted
  simp only [Scene.executions, List.append_assoc, List.cons_append] at haccounted
  obtain ⟨hfollowed, hid⟩ :=
    haccounted.exchange (List.mem_append_right _ (List.mem_cons_self ..)) hreply
  refine ⟨?_, h.filed⟩
  simp only [Scene.executions, List.append_assoc, List.cons_append]
  refine haccounted.replaceAt hreply.begun_le ?_ hfollowed (hid.imp_right And.right)
  rintro id x ⟨⟩
  rfl

/-- An execution is kept, behind the others. -/
theorem Sound.keep {before after : List Ongoing} (h : Sound moves ⟨s, before ++ run :: after⟩)
    (hid : run.id ≠ "") : Sound (moves ++ [.keep run.id])
      ⟨{ s with runs := s.runs.put run.id run }, before ++ after⟩ := by
  obtain ⟨-, hput⟩ := h.put_keep
  constructor
  · have hvalues : (s.runs.put run.id run).values = s.runs.values ++ [run] := by
      rw [hput]
      exact List.map_append
    refine (h.accounted.quiet (Nat.le_refl _) (by rintro _ _ ⟨⟩)).subperm (List.Perm.subperm ?_)
    have hlast : (before ++ after ++ (s.runs.values ++ [run])).Perm
        (run :: (before ++ after ++ s.runs.values)) := by
      rw [← List.append_assoc]
      exact List.perm_append_singleton _ _
    have hfirst : (before ++ run :: after ++ s.runs.values).Perm
        (run :: (before ++ after ++ s.runs.values)) := List.perm_middle.append_right _
    rw [Scene.executions, Scene.executions, hvalues]
    exact hlast.trans hfirst.symm
  · intro entry hentry
    simp only [hput, List.mem_append, List.mem_singleton] at hentry
    rcases hentry with hentry | rfl
    · exact h.filed entry hentry
    · exact ⟨rfl, hid⟩

/-- An execution that is kept is replied to. -/
theorem Sound.later {live live' : Live} {q : Query}
    {next : q.Reply → Dialogue Query.Reply (Except Run.Break (Except Failure Status))}
    {reply : q.Reply} {w : World} (h : Sound moves ⟨s, starting⟩)
    (hfound : s.runs.get? id = some ⟨live, .ask q next⟩)
    (hreply : Replies s.world live q reply w live') :
    Sound (moves ++ [.exchange id ⟨q, reply⟩])
      ⟨{ s with world := w, runs := s.runs.put id ⟨live', next reply⟩ }, starting⟩ ∧
      live'.record.id = id := by
  obtain ⟨hfiled, hne⟩ := h.id_of_get? hfound
  obtain rfl : live.record.id = id := hfiled
  have hmem : ⟨live, .ask q next⟩ ∈ starting ++ s.runs.values :=
    List.mem_append_right _ (Assoc.mem_values_of_get? hfound)
  -- its run has begun, so it keeps its id
  obtain ⟨hfollowed, hsame | ⟨hempty, -⟩⟩ := h.accounted.exchange hmem hreply
  · refine ⟨h.put hfound hreply.begun_le ?_ hfollowed hsame, hsame⟩
    rintro who x ⟨⟩
    rfl
  · exact absurd hempty hne

/-- An execution is asked to stop. -/
theorem Sound.cancel (h : Sound moves ⟨s, starting⟩) (hfound : s.find id = .ok run) :
    Sound (moves ++ [.cancel id]) ⟨(s.cancel id).1, starting⟩ := by
  have hget := find_eq_ok_iff.1 hfound
  obtain ⟨rfl, hne⟩ := h.id_of_get? hget
  have hmem : run ∈ starting ++ s.runs.values :=
    List.mem_append_right _ (Assoc.mem_values_of_get? hget)
  obtain ⟨workflowId, inputs, hstart, hbegun⟩ := (h.accounted.followed run hmem).begun hne
  rw [cancel_of_found hfound]
  refine h.put hget (Nat.le_refl _) (by rintro _ _ ⟨⟩) ?_ rfl
  exact ⟨workflowId, inputs, List.mem_append_left _ hstart, .inr hbegun.cancel⟩

/-- Each step accounts for the executions. -/
theorem Sound.step (h : Sound moves scene) (hstep : Step scene m scene') :
    Sound (moves ++ [m]) scene' := by
  cases hstep with
  | start workflowId inputs => exact h.start workflowId inputs
  | refused =>
      refine ⟨?_, h.filed⟩
      refine (h.accounted.quiet (Nat.le_refl _) (by rintro _ _ ⟨⟩)).subperm ?_
      exact (((List.sublist_cons_self ..).append_left _).append_right _).subperm
  | early hreply => exact h.early hreply
  | keep hid => exact h.keep hid
  | later hfound hreply => exact (h.later hfound hreply).1
  | cancel hfound => exact h.cancel hfound
  | look id => exact ⟨h.accounted.quiet (Nat.le_refl _) (by rintro _ _ ⟨⟩), h.filed⟩
  | around hle => exact ⟨h.accounted.quiet hle (by rintro _ _ ⟨⟩), h.filed⟩

/-- A history accounts for all executions of a service that keeps none at first. -/
theorem sound_of_happens (hempty : s.runs = []) (h : Happens Step ⟨s, []⟩ moves scene) :
    Sound moves scene := by
  induction h with
  | nothing =>
      refine ⟨⟨?_, ?_, ?_, ?_⟩, ?_⟩
      all_goals simp [Scene.executions, hempty, Assoc.values]
  | further _ hstep ih => exact ih.step hstep

end Sound

end Runbook.Service
