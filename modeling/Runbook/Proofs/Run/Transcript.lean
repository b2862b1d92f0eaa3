import Mathlib.Data.List.Forall2
import Runbook.Run.Dialogue

/-!
# Transcripts of dialogues

A transcript lists the questions that a dialogue has asked, each with the reply it got. `Goes d t e`
says that `d`, replied to as `t` says, comes to `e`; `Ends d t a` says that it comes to its end with
the result `a`. Nothing is assumed of the replies: whoever replies may do so with any knowledge of
what was asked before, and may change from one question to the next.

The transcripts of a dialogue that was put together from others are put together from theirs:
`ends_bind_iff` for one dialogue after another, and `ends_serve_iff` for a dialogue whose questions
are served by others, where each exchange is replaced by what served it. With given replies every
dialogue comes to an end (`ends_transcript`).

`Yields` is `Ends` for dialogues that may break off.
-/

set_option autoImplicit false

namespace Runbook.Run

/-- A question with its reply. -/
abbrev Exchange {Q : Type} (R : Q → Type) := (q : Q) × R q

/-- Questions with their replies, in order. -/
abbrev Transcript {Q : Type} (R : Q → Type) := List (Exchange R)

/-! ## Cutting transcripts -/

/-- Where a list that was put together from two is cut in front of an element. -/
theorem append_eq_append_cons {α : Type} {as bs cs ds : List α} {x : α}
    (h : as ++ bs = cs ++ x :: ds) :
    (∃ es, as = cs ++ x :: es ∧ ds = es ++ bs) ∨ ∃ es, cs = as ++ es ∧ bs = es ++ x :: ds := by
  rcases List.append_eq_append_iff.1 h with ⟨es, rfl, hes⟩ | ⟨es, rfl, hes⟩
  · exact .inr ⟨es, rfl, hes⟩
  · cases es with
    | nil => exact .inr ⟨[], by simp, by simpa using hes.symm⟩
    | cons y es =>
        obtain ⟨rfl, rfl⟩ := List.cons.inj hes
        exact .inl ⟨es, rfl, rfl⟩

/-- Where a list that was put together from many is cut in front of an element. -/
theorem flatMap_eq_append_cons {α β : Type} {f : α → List β} {l : List α} {cs ds : List β} {x : β}
    (h : l.flatMap f = cs ++ x :: ds) :
    ∃ l₁ a l₂ es fs, l = l₁ ++ a :: l₂ ∧ f a = es ++ x :: fs ∧ cs = l₁.flatMap f ++ es ∧
      ds = fs ++ l₂.flatMap f := by
  induction l generalizing cs with
  | nil => simp at h
  | cons a l ih =>
      rw [List.flatMap_cons] at h
      rcases append_eq_append_cons h with ⟨es, ha, hds⟩ | ⟨es, rfl, hl⟩
      -- the element stands in the part of `a`, or behind it
      · exact ⟨[], a, l, cs, es, rfl, ha, rfl, hds⟩
      · obtain ⟨l₁, a', l₂, gs, fs, rfl, ha', rfl, rfl⟩ := ih hl
        exact ⟨a :: l₁, a', l₂, gs, fs, rfl, ha', by simp, rfl⟩

namespace Dialogue

variable {Q Q' : Type} {R : Q → Type} {R' : Q' → Type} {α β : Type}

/-! ## The ways of a dialogue -/

/-- The dialogue comes through a transcript to another one. -/
inductive Goes : Dialogue R α → Transcript R → Dialogue R α → Prop
  | here (d : Dialogue R α) : Goes d [] d
  | ask (q : Q) (next : R q → Dialogue R α) (reply : R q) {t : Transcript R} {e : Dialogue R α} :
      Goes (next reply) t e → Goes (.ask q next) (⟨q, reply⟩ :: t) e

/-- The dialogue comes through a transcript to its end. -/
def Ends (d : Dialogue R α) (t : Transcript R) (a : α) : Prop := Goes d t (.done a)

theorem goes_done_iff {a : α} {t : Transcript R} {e : Dialogue R α} :
    Goes (.done a) t e ↔ t = [] ∧ e = .done a := by
  constructor
  · intro h
    cases h
    exact ⟨rfl, rfl⟩
  · rintro ⟨rfl, rfl⟩
    exact .here _

theorem goes_ask_iff {q : Q} {next : R q → Dialogue R α} {t : Transcript R} {e : Dialogue R α} :
    Goes (.ask q next) t e ↔
      t = [] ∧ e = .ask q next ∨ ∃ reply t', t = ⟨q, reply⟩ :: t' ∧ Goes (next reply) t' e := by
  constructor
  · intro h
    cases h with
    | here => exact .inl ⟨rfl, rfl⟩
    | ask _ _ reply h => exact .inr ⟨reply, _, rfl, h⟩
  · rintro (⟨rfl, rfl⟩ | ⟨reply, t', rfl, h⟩)
    · exact .here _
    · exact .ask _ _ _ h

@[simp] theorem ends_done_iff {a b : α} {t : Transcript R} :
    Ends (.done a) t b ↔ t = [] ∧ a = b := by
  simp only [Ends, goes_done_iff, done.injEq]
  exact ⟨fun ⟨h, h'⟩ => ⟨h, h'.symm⟩, fun ⟨h, h'⟩ => ⟨h, h'.symm⟩⟩

theorem ends_ask_iff {q : Q} {next : R q → Dialogue R α} {t : Transcript R} {a : α} :
    Ends (.ask q next) t a ↔ ∃ reply t', t = ⟨q, reply⟩ :: t' ∧ Ends (next reply) t' a := by
  simp [Ends, goes_ask_iff]

@[simp] theorem ends_query_iff {q : Q} {t : Transcript R} {reply : R q} :
    Ends (query q) t reply ↔ t = [⟨q, reply⟩] := by
  simp only [query, ends_ask_iff, ends_done_iff]
  constructor
  · rintro ⟨reply', t', rfl, rfl, rfl⟩
    rfl
  · rintro rfl
    exact ⟨reply, [], rfl, rfl, rfl⟩

/-- Transcripts can be cut anywhere. -/
theorem goes_append_iff {d e : Dialogue R α} {t u : Transcript R} :
    Goes d (t ++ u) e ↔ ∃ m, Goes d t m ∧ Goes m u e := by
  constructor
  · intro h
    induction t generalizing d with
    | nil => exact ⟨d, .here d, h⟩
    | cons x t ih =>
        cases h with
        | ask q next reply h =>
            obtain ⟨m, hm, hu⟩ := ih h
            exact ⟨m, .ask q next reply hm, hu⟩
  · rintro ⟨m, ht, hu⟩
    induction ht with
    | here => exact hu
    | ask q next reply _ ih => exact .ask q next reply (ih hu)

/-! ## One dialogue after another -/

theorem goes_bind_of_goes {d e : Dialogue R α} {t : Transcript R} (h : Goes d t e)
    (f : α → Dialogue R β) : Goes (d.bind f) t (e.bind f) := by
  induction h with
  | here => exact .here _
  | ask q next reply _ ih => exact .ask q _ reply ih

/-- A dialogue with another behind it is still in the first one, or the first one has ended. -/
theorem goes_bind_cases {d : Dialogue R α} {f : α → Dialogue R β} {t : Transcript R}
    {e : Dialogue R β} (h : Goes (d.bind f) t e) :
    (∃ d', Goes d t d' ∧ e = d'.bind f) ∨
      ∃ t₁ a t₂, t = t₁ ++ t₂ ∧ Ends d t₁ a ∧ Goes (f a) t₂ e := by
  induction d generalizing t with
  | done a => exact .inr ⟨[], a, t, rfl, .here _, h⟩
  | ask q next ih =>
      cases h with
      | here => exact .inl ⟨_, .here _, rfl⟩
      | ask _ _ reply h =>
          rcases ih reply h with ⟨d', hd, rfl⟩ | ⟨t₁, a, t₂, rfl, h₁, h₂⟩
          · exact .inl ⟨d', .ask q next reply hd, rfl⟩
          · exact .inr ⟨_, a, t₂, rfl, .ask q next reply h₁, h₂⟩

theorem ends_bind_iff {d : Dialogue R α} {f : α → Dialogue R β} {t : Transcript R} {b : β} :
    Ends (d.bind f) t b ↔ ∃ t₁ a t₂, t = t₁ ++ t₂ ∧ Ends d t₁ a ∧ Ends (f a) t₂ b := by
  constructor
  · intro h
    rcases goes_bind_cases h with ⟨d', hd, he⟩ | h
    -- the first dialogue is still asking, or it is its result that is the end
    · cases d' with
      | ask q next => simp [bind] at he
      | done a =>
          refine ⟨t, a, [], by simp, hd, ?_⟩
          rw [show f a = .done b from he.symm]
          exact .here _
    · exact h
  · rintro ⟨t₁, a, t₂, rfl, h₁, h₂⟩
    exact goes_append_iff.2 ⟨f a, goes_bind_of_goes h₁ f, h₂⟩

/-- The transcript of a dialogue determines its result. -/
theorem Ends.unique {d : Dialogue R α} {t : Transcript R} {a b : α} (ha : Ends d t a)
    (hb : Ends d t b) : a = b := by
  induction d generalizing t with
  | done c =>
      obtain ⟨-, rfl⟩ := ends_done_iff.1 ha
      exact (ends_done_iff.1 hb).2
  | ask q next ih =>
      obtain ⟨reply, t, rfl, hnext⟩ := ends_ask_iff.1 ha
      obtain ⟨reply', t', ht, hnext'⟩ := ends_ask_iff.1 hb
      cases ht
      exact ih reply hnext hnext'

/-- The replies determine what a dialogue asks. -/
theorem Ends.eq_of_replies {d : Dialogue R α} {t u : Transcript R} {a b : α} (ht : Ends d t a)
    (hu : Ends d u b) (h : List.Forall₂ (fun x y => HEq x.2 y.2) t u) : t = u := by
  induction d generalizing t u with
  | done c =>
      rw [(ends_done_iff.1 ht).1, (ends_done_iff.1 hu).1]
  | ask q next ih =>
      obtain ⟨reply, t, rfl, hnext⟩ := ends_ask_iff.1 ht
      obtain ⟨reply', u, rfl, hnext'⟩ := ends_ask_iff.1 hu
      obtain ⟨hreply, hrest⟩ := List.forall₂_cons.1 h
      obtain rfl := eq_of_heq hreply
      rw [ih reply hnext hnext' hrest]

/-! ## Given replies -/

/-- The transcript of a dialogue with given replies. -/
def transcript (reply : (q : Q) → R q) : Dialogue R α → Transcript R
  | .done _ => []
  | .ask q next => ⟨q, reply q⟩ :: transcript reply (next (reply q))

/-- The result of a dialogue with given replies. -/
def result (reply : (q : Q) → R q) : Dialogue R α → α
  | .done a => a
  | .ask q next => result reply (next (reply q))

theorem ends_transcript (reply : (q : Q) → R q) :
    ∀ d : Dialogue R α, Ends d (d.transcript reply) (d.result reply)
  | .done _ => .here _
  | .ask q next => .ask q next (reply q) (ends_transcript reply (next (reply q)))

theorem mem_transcript {reply : (q : Q) → R q} {x : Exchange R} :
    ∀ {d : Dialogue R α}, x ∈ d.transcript reply → x.2 = reply x.1
  | .done _, h => by simp [transcript] at h
  | .ask q next, h => by
      rw [transcript, List.mem_cons] at h
      rcases h with rfl | h
      · rfl
      · exact mem_transcript h

/-! ## Serving -/

/-- An exchange together with what was exchanged to find its reply. -/
abbrev Service (R : Q → Type) (R' : Q' → Type) := Exchange R × Transcript R'

/-- The second transcript is one in which the reply is found. -/
def Serves (f : (q : Q) → Dialogue R' (R q)) (p : Service R R') : Prop :=
  (f p.1.1).Ends p.2 p.1.2

/-- The transcripts of a served dialogue are those of the dialogue, with each exchange replaced by
what served it. -/
theorem ends_serve_iff {f : (q : Q) → Dialogue R' (R q)} {d : Dialogue R α} {t : Transcript R'}
    {a : α} :
    Ends (d.serve f) t a ↔ ∃ l : List (Service R R'), (∀ p ∈ l, Serves f p) ∧
      Ends d (l.map Prod.fst) a ∧ t = l.flatMap Prod.snd := by
  -- by induction on the dialogue: each question takes the first service off the list
  induction d generalizing t with
  | done b =>
      simp only [serve, ends_done_iff]
      constructor
      · rintro ⟨rfl, rfl⟩
        exact ⟨[], by simp, ⟨rfl, rfl⟩, rfl⟩
      · rintro ⟨l, -, ⟨hl, rfl⟩, rfl⟩
        rw [List.map_eq_nil_iff.1 hl]
        exact ⟨rfl, rfl⟩
  | ask q next ih =>
      simp only [serve, ends_bind_iff, ends_ask_iff, ih]
      constructor
      · rintro ⟨u, reply, _, rfl, hu, l, hl, hnext, rfl⟩
        exact ⟨(⟨q, reply⟩, u) :: l, List.forall_mem_cons.2 ⟨hu, hl⟩, ⟨reply, _, rfl, hnext⟩, rfl⟩
      · rintro ⟨l, hl, ⟨reply, s, hs, hnext⟩, rfl⟩
        cases l with
        | nil => cases hs
        | cons p l =>
            obtain ⟨hx, rfl⟩ := List.cons.inj hs
            have hp := (List.forall_mem_cons.1 hl).1
            rw [Serves, hx] at hp
            exact ⟨p.2, reply, _, rfl, hp, l, (List.forall_mem_cons.1 hl).2, hnext, rfl⟩

end Dialogue

/-! ## Dialogues that may break off -/

section Yields

variable {Q : Type} {R : Q → Type} {α β : Type}

/-- A dialogue that may break off comes through a transcript to its end. -/
def Yields (x : ExceptT Break (Dialogue R) α) (t : Transcript R) (r : Except Break α) : Prop :=
  x.run.Ends t r

/-- With given replies a dialogue that may break off comes to its end. -/
theorem yields_transcript (reply : (q : Q) → R q) (x : ExceptT Break (Dialogue R) α) :
    Yields x (x.run.transcript reply) (x.run.result reply) :=
  Dialogue.ends_transcript reply x.run

@[simp] theorem yields_pure_iff {a : α} {t : Transcript R} {r : Except Break α} :
    Yields (pure a) t r ↔ t = [] ∧ r = .ok a := by
  have h : Yields (R := R) (pure a) t r ↔ Dialogue.Ends (.done (.ok a)) t r := Iff.rfl
  rw [h, Dialogue.ends_done_iff, eq_comm (a := r)]

@[simp] theorem yields_throw_iff {b : Break} {t : Transcript R} {r : Except Break α} :
    Yields (throw b) t r ↔ t = [] ∧ r = .error b := by
  have h : Yields (R := R) (α := α) (throw b) t r ↔ Dialogue.Ends (.done (.error b)) t r := Iff.rfl
  rw [h, Dialogue.ends_done_iff, eq_comm (a := r)]

theorem yields_bind_iff {x : ExceptT Break (Dialogue R) α} {f : α → ExceptT Break (Dialogue R) β}
    {t : Transcript R} {r : Except Break β} :
    Yields (x >>= f) t r ↔ (∃ b, Yields x t (.error b) ∧ r = .error b) ∨
      ∃ t₁ a t₂, t = t₁ ++ t₂ ∧ Yields x t₁ (.ok a) ∧ Yields (f a) t₂ r := by
  have h : Yields (x >>= f) t r ↔
      Dialogue.Ends (x.run.bind (ExceptT.bindCont f)) t r := Iff.rfl
  -- what stands behind a break is a dialogue that has ended
  rw [h, Dialogue.ends_bind_iff]
  constructor
  · rintro ⟨t₁, b | a, t₂, rfl, h₁, h₂⟩
    · obtain ⟨rfl, rfl⟩ := Dialogue.ends_done_iff.1 h₂
      exact .inl ⟨b, by rwa [List.append_nil], rfl⟩
    · exact .inr ⟨t₁, a, t₂, rfl, h₁, h₂⟩
  · rintro (⟨b, h₁, rfl⟩ | ⟨t₁, a, t₂, rfl, h₁, h₂⟩)
    · exact ⟨t, .error b, [], by simp, h₁, .here _⟩
    · exact ⟨t₁, .ok a, t₂, rfl, h₁, h₂⟩

/-- A question that cannot break off, with what follows. -/
theorem yields_lift_bind_iff {q : Q} {f : R q → ExceptT Break (Dialogue R) α} {t : Transcript R}
    {r : Except Break α} :
    Yields (ExceptT.lift (Dialogue.query q) >>= f) t r ↔
      ∃ reply t', t = ⟨q, reply⟩ :: t' ∧ Yields (f reply) t' r := by
  have h : Yields (ExceptT.lift (Dialogue.query q) >>= f) t r ↔
      Dialogue.Ends (.ask q fun reply => (f reply).run) t r := Iff.rfl
  rw [h, Dialogue.ends_ask_iff]
  exact Iff.rfl

/-- Only a break is handled. -/
theorem yields_tryCatch_iff {x : ExceptT Break (Dialogue R) α}
    {f : Break → ExceptT Break (Dialogue R) α} {t : Transcript R} {r : Except Break α} :
    Yields (tryCatchThe Break x f) t r ↔ (∃ a, Yields x t (.ok a) ∧ r = .ok a) ∨
      ∃ t₁ b t₂, t = t₁ ++ t₂ ∧ Yields x t₁ (.error b) ∧ Yields (f b) t₂ r := by
  have h : (tryCatchThe Break x f).run = x.run.bind fun
      | .ok a => .done (.ok a)
      | .error b => (f b).run := by
    show x.run.bind _ = _
    congr 1
    funext r
    cases r <;> rfl
  -- the handler is a dialogue behind the first one that a result passes by
  rw [Yields, h, Dialogue.ends_bind_iff]
  constructor
  · rintro ⟨t₁, b | a, t₂, rfl, h₁, h₂⟩
    · exact .inr ⟨t₁, b, t₂, rfl, h₁, h₂⟩
    · obtain ⟨rfl, rfl⟩ := Dialogue.ends_done_iff.1 h₂
      exact .inl ⟨a, by rwa [List.append_nil], rfl⟩
  · rintro (⟨a, h₁, rfl⟩ | ⟨t₁, b, t₂, rfl, h₁, h₂⟩)
    · exact ⟨t, .ok a, [], by simp, h₁, .here _⟩
    · exact ⟨t₁, .error b, t₂, rfl, h₁, h₂⟩

end Yields

end Runbook.Run
