/-!
# Histories

A system moves from state to state, and each step has a name that says what happens in it. A history is
a sequence of such steps. It can be taken apart at each of its moves (`Happens.split`), two of them can be
put together (`Happens.trans`), and what is done in one go is one of them (`Happens.of_foldlM`).
-/

set_option autoImplicit false

namespace Runbook

variable {σ μ : Type} {Step : σ → μ → σ → Prop} {state state' state'' : σ}
  {moves more before after : List μ} {m : μ}

/-- A history leads from one state to another. -/
inductive Happens (Step : σ → μ → σ → Prop) (start : σ) : List μ → σ → Prop
  | nothing : Happens Step start [] start
  | further {moves : List μ} {m : μ} {state state' : σ} : Happens Step start moves state →
      Step state m state' → Happens Step start (moves ++ [m]) state'

namespace Happens

theorem single (h : Step state m state') : Happens Step state [m] state' := .further .nothing h

theorem trans (h : Happens Step state moves state') (h' : Happens Step state' more state'') :
    Happens Step state (moves ++ more) state'' := by
  induction h' with
  | nothing =>
      rw [List.append_nil]
      exact h
  | further _ hstep ih =>
      rw [← List.append_assoc]
      exact .further ih hstep

/-- What is done in one go is a part of a history in which each of its pieces is a step. -/
theorem of_foldlM {α β : Type} {f : β → α → Option β} {move : α → μ} (stage : β → List α → σ)
    (hstep : ∀ {b b' : β} {piece : α} {left : List α}, f b piece = some b' →
      Step (stage b (piece :: left)) (move piece) (stage b' left))
    {pieces left : List α} {b b' : β} (h : pieces.foldlM f b = some b') :
    Happens Step (stage b (pieces ++ left)) (pieces.map move) (stage b' left) := by
  induction pieces generalizing b with
  | nil =>
      obtain rfl := Option.some.inj h
      exact .nothing
  | cons piece pieces ih =>
      rw [List.foldlM_cons] at h
      obtain ⟨between, hfirst, hothers⟩ := Option.bind_eq_some_iff.1 h
      exact (single (hstep hfirst)).trans (ih hothers)

/-- A history at one of its moves. -/
theorem split (h : Happens Step state (before ++ m :: after) state'') :
    ∃ state₁ state₂, Happens Step state before state₁ ∧ Step state₁ m state₂ ∧
      Happens Step state₂ after state'' := by
  generalize hmoves : before ++ m :: after = moves at h
  induction h generalizing after with
  | nothing => simp at hmoves
  | @further moves last state₁ state₂ hhappens hstep ih =>
      rcases List.eq_nil_or_concat after with rfl | ⟨after, other, rfl⟩
      · obtain ⟨rfl, hlast⟩ := List.append_inj' hmoves rfl
        obtain rfl := List.singleton_inj.1 hlast
        exact ⟨state₁, state₂, hhappens, hstep, .nothing⟩
      · rw [List.concat_eq_append, ← List.cons_append, ← List.append_assoc] at hmoves
        obtain ⟨hbefore, hlast⟩ := List.append_inj' hmoves rfl
        obtain rfl := List.singleton_inj.1 hlast
        obtain ⟨state₃, state₄, hfirst, hmiddle, hrest⟩ := ih hbefore
        refine ⟨state₃, state₄, hfirst, hmiddle, ?_⟩
        rw [List.concat_eq_append]
        exact .further hrest hstep

end Happens

end Runbook
