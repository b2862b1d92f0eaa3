import Runbook.Proofs.Run.Transcript

/-!
# Dialogues that are alike

Two dialogues are alike if they ask matching questions and, given matching replies, go on alike until
they end with matching results. What matches is a `Likeness`, which may also name questions behind
which nothing more is asked of the other dialogue. Dialogues that are put together from alike ones in
the same way are alike (`Like.bind`, `Like.serve`), and each transcript of a dialogue has its like in
those of the other one (`Like.ends`).

`Alike` is `Like` for dialogues that may break off; both break off for the same reason.
-/

set_option autoImplicit false

namespace Runbook.Run

/-- Which questions match, and which replies to them; a question of the first dialogue may also lead
astray. -/
structure Likeness {Q Q' : Type} (R : Q → Type) (R' : Q' → Type) where
  asked : Q → Q' → Prop
  replied : (q : Q) → (q' : Q') → R q → R' q' → Prop
  stray : Q → Prop

namespace Likeness

variable {Q Q' : Type} {R : Q → Type} {R' : Q' → Type}

/-- Matching questions with matching replies. -/
structure Match (L : Likeness R R') (x : Exchange R) (y : Exchange R') : Prop where
  asked : L.asked x.1 y.1
  replied : L.replied x.1 y.1 x.2 y.2

/-- Each reply has its like. -/
def Total (L : Likeness R R') : Prop :=
  ∀ q q', L.asked q q' → ∀ reply, ∃ reply', L.replied q q' reply reply'

end Likeness

/-! ## Dialogues -/

section Like

variable {Q Q' S S' : Type} {R : Q → Type} {R' : Q' → Type} {T : S → Type} {T' : S' → Type}
  {α β γ δ : Type}

/-- Two dialogues ask matching questions and come to matching results, unless the first one goes
astray. -/
inductive Like (L : Likeness R R') (same : α → β → Prop) : Dialogue R α → Dialogue R' β → Prop
  | done {a : α} {b : β} : same a b → Like L same (.done a) (.done b)
  | ask {q : Q} {q' : Q'} {next : R q → Dialogue R α} {next' : R' q' → Dialogue R' β} :
      L.asked q q' →
      (∀ reply reply', L.replied q q' reply reply' → Like L same (next reply) (next' reply')) →
      Like L same (.ask q next) (.ask q' next')
  | stray {q : Q} {next : R q → Dialogue R α} {e : Dialogue R' β} : L.stray q →
      Like L same (.ask q next) e

namespace Like

variable {L : Likeness R R'} {same : α → β → Prop} {d : Dialogue R α} {e : Dialogue R' β}

theorem query {q : Q} {q' : Q'} (h : L.asked q q') :
    Like L (L.replied q q') (Dialogue.query q) (Dialogue.query q') :=
  .ask h fun _ _ hreply => .done hreply

theorem mono {same' : α → β → Prop} (h : Like L same d e) (hsame : ∀ a b, same a b → same' a b) :
    Like L same' d e := by
  induction h with
  | done hab => exact .done (hsame _ _ hab)
  | ask hasked _ ih => exact .ask hasked ih
  | stray hstray => exact .stray hstray

theorem bind {same' : γ → δ → Prop} {f : α → Dialogue R γ} {g : β → Dialogue R' δ}
    (h : Like L same d e) (hfg : ∀ a b, same a b → Like L same' (f a) (g b)) :
    Like L same' (d.bind f) (e.bind g) := by
  induction h with
  | done hab => exact hfg _ _ hab
  | ask hasked _ ih => exact .ask hasked ih
  | stray hstray => exact .stray hstray

/-- Dialogues are served alike if matching questions are; where the first one goes astray, so must
what serves it. -/
theorem serve {M : Likeness T T'} {f : (q : Q) → Dialogue T (R q)}
    {g : (q : Q') → Dialogue T' (R' q)} (h : Like L same d e)
    (hasked : ∀ q q', L.asked q q' → Like M (L.replied q q') (f q) (g q'))
    (hstray : ∀ q, L.stray q → ∀ (rest : R q → Dialogue T α) (e : Dialogue T' β),
      Like M same ((f q).bind rest) e) :
    Like M same (d.serve f) (e.serve g) := by
  induction h with
  | done hab => exact .done hab
  | ask hq _ ih => exact (hasked _ _ hq).bind ih
  | stray hq => exact hstray _ hq _ _

/-- A transcript that does not go astray has its like. -/
theorem ends {t : Transcript R} {a : α} (h : Like L same d e) (htotal : L.Total)
    (hends : d.Ends t a) (hstray : ∀ x ∈ t, ¬ L.stray x.1) :
    ∃ u b, e.Ends u b ∧ List.Forall₂ L.Match t u ∧ same a b := by
  induction h generalizing t with
  | done hab =>
      obtain ⟨rfl, rfl⟩ := Dialogue.ends_done_iff.1 hends
      exact ⟨[], _, .here _, .nil, hab⟩
  | ask hq _ ih =>
      obtain ⟨reply, t, rfl, hnext⟩ := Dialogue.ends_ask_iff.1 hends
      obtain ⟨reply', hreply⟩ := htotal _ _ hq reply
      obtain ⟨u, b, hu, hmatch, hab⟩ :=
        ih reply reply' hreply hnext (List.forall_mem_cons.1 hstray).2
      exact ⟨_, b, .ask _ _ reply' hu, .cons ⟨hq, hreply⟩ hmatch, hab⟩
  | stray hq =>
      obtain ⟨reply, t, rfl, -⟩ := Dialogue.ends_ask_iff.1 hends
      exact absurd hq (List.forall_mem_cons.1 hstray).1

end Like

end Like

/-! ## Dialogues that may break off -/

section Alike

variable {Q Q' : Type} {R : Q → Type} {R' : Q' → Type} {α β γ δ : Type}

/-- Matching results, or the same break. -/
inductive Results (same : α → β → Prop) : Except Break α → Except Break β → Prop
  | ok {a : α} {b : β} : same a b → Results same (.ok a) (.ok b)
  | error (b : Break) : Results same (.error b) (.error b)

/-- Two dialogues that may break off are alike. -/
def Alike (L : Likeness R R') (same : α → β → Prop) (x : ExceptT Break (Dialogue R) α)
    (y : ExceptT Break (Dialogue R') β) : Prop :=
  Like L (Results same) x.run y.run

namespace Alike

variable {L : Likeness R R'} {same : α → β → Prop} {x : ExceptT Break (Dialogue R) α}
  {y : ExceptT Break (Dialogue R') β}

theorem pure {a : α} {b : β} (h : same a b) : Alike L same (Pure.pure a) (Pure.pure b) :=
  Like.done (.ok h)

theorem throw (b : Break) :
    Alike L same (throw b : ExceptT Break (Dialogue R) α) (throw b) :=
  Like.done (.error b)

theorem bind {same' : γ → δ → Prop} {f : α → ExceptT Break (Dialogue R) γ}
    {g : β → ExceptT Break (Dialogue R') δ} (h : Alike L same x y)
    (hfg : ∀ a b, same a b → Alike L same' (f a) (g b)) : Alike L same' (x >>= f) (y >>= g) := by
  refine Like.bind h ?_
  rintro _ _ (hab | b)
  · exact hfg _ _ hab
  · exact .done (.error b)

/-- A question that cannot break off. -/
theorem lift {q : Q} {q' : Q'} (h : L.asked q q') :
    Alike L (L.replied q q') (ExceptT.lift (Dialogue.query q)) (ExceptT.lift (Dialogue.query q')) :=
  .ask h fun _ _ hreply => .done (.ok hreply)

theorem tryCatch {f : Break → ExceptT Break (Dialogue R) α}
    {g : Break → ExceptT Break (Dialogue R') β} (h : Alike L same x y)
    (hfg : ∀ b, Alike L same (f b) (g b)) :
    Alike L same (tryCatchThe Break x f) (tryCatchThe Break y g) := by
  refine Like.bind h ?_
  rintro _ _ (hab | b)
  · exact .done (.ok hab)
  · exact hfg b

end Alike

end Alike

end Runbook.Run
