import Runbook.Proofs.Run.Transcript
import Runbook.Template

/-!
# Where placeholders stand

A placeholder is a name between braces, and a name holds no braces. So a placeholder that stands
somewhere in a text is one of its tokens, whatever surrounds it: `tokens_append_hole` for both rules
of names. Hence a text is cut in one way into characters and placeholders (`cut_tokens`), filling in
replaces each placeholder at its place and leaves the rest (`replaced_fill`), and the required names
without a value are listed once each, in the order in which they first stand in the text
(`lists_missing`).
-/

set_option autoImplicit false

namespace Runbook.Template

/-! ## Names -/

/-- Whether a name is one that a rule describes. -/
def NameRule.admits (rule : NameRule) : List Char → Bool
  | [] => false
  | c :: rest => rule.start c && rest.all rule.body

/-- The names of a rule hold no braces. -/
def NameRule.Braceless (rule : NameRule) : Prop :=
  ∀ c, (rule.start c || rule.body c) = true → c ≠ '\x7b' ∧ c ≠ '\x7d'

theorem braceless_any : NameRule.any.Braceless := by
  intro c hc
  simpa [NameRule.any] using hc

theorem braceless_required : NameRule.required.Braceless := by
  intro c hc
  constructor
  · rintro rfl
    revert hc
    decide
  · rintro rfl
    revert hc
    decide

/-! ## Tokens -/

theorem tokens_plain (rule : NameRule) {c : Char} (h : c ≠ '\x7b') (rest : List Char) :
    tokens rule (c :: rest) = .char c :: tokens rule rest := by
  rw [tokens, if_neg (by simpa using h)]

theorem tokens_open_of_none (rule : NameRule) {rest : List Char} (h : rule.hole? rest = none) :
    tokens rule ('\x7b' :: rest) = .char '\x7b' :: tokens rule rest := by
  rw [tokens, if_pos (by decide)]
  split
  · rename_i hsome
    rw [h] at hsome
    cases hsome
  · rfl

theorem tokens_open_of_some (rule : NameRule) {rest name behind : List Char}
    (h : rule.hole? rest = some (name, behind)) :
    tokens rule ('\x7b' :: rest) = .hole name :: tokens rule behind := by
  rw [tokens, if_pos (by decide)]
  split
  · rename_i hsome
    rw [h] at hsome
    cases hsome
    rfl
  · rename_i hnone
    rw [h] at hnone
    cases hnone

section Rule

variable {rule : NameRule} (hrule : rule.Braceless)

include hrule

theorem NameRule.Braceless.of_mem {name : List Char} (h : rule.admits name = true) :
    ∀ c ∈ name, c ≠ '\x7b' ∧ c ≠ '\x7d' := by
  cases name with
  | nil => cases h
  | cons first rest =>
      simp only [NameRule.admits, Bool.and_eq_true, List.all_eq_true] at h
      intro c hc
      apply hrule
      rcases List.mem_cons.1 hc with rfl | hc
      · simp [h.1]
      · simp [h.2 c hc]

/-- A placeholder goes to the first closing brace. -/
theorem NameRule.Braceless.hole?_eq_some_iff {cs name behind : List Char} :
    rule.hole? cs = some (name, behind) ↔
      rule.admits name = true ∧ cs = name ++ '\x7d' :: behind := by
  cases cs with
  | nil => simp [NameRule.hole?]
  | cons c rest =>
      constructor
      · intro h
        simp only [NameRule.hole?] at h
        split at h
        · rename_i hstart
          split at h
          · rename_i tail hdrop
            simp only [Option.some.injEq, Prod.mk.injEq] at h
            obtain ⟨rfl, rfl⟩ := h
            refine ⟨by simp [NameRule.admits, hstart], ?_⟩
            rw [List.cons_append, ← hdrop]
            exact congrArg _ (List.prefix_iff_eq_append.1 (List.takeWhile_prefix _)).symm
          · cases h
        · cases h
      · rintro ⟨hname, hcs⟩
        cases name with
        | nil => cases hname
        | cons first more =>
            obtain ⟨rfl, rfl⟩ := List.cons.inj hcs
            simp only [NameRule.admits, Bool.and_eq_true, List.all_eq_true] at hname
            have hclosing : rule.body '\x7d' = false := by
              rw [Bool.eq_false_iff]
              intro hbody
              exact (hrule '\x7d' (by simp [hbody])).2 rfl
            have htake : (more ++ '\x7d' :: behind).takeWhile rule.body = more := by
              rw [List.takeWhile_append_of_pos hname.2, List.takeWhile_cons]
              simp [hclosing]
            show rule.hole? (c :: (more ++ '\x7d' :: behind)) = some (c :: more, behind)
            simp only [NameRule.hole?, hname.1, if_true, htake, List.drop_left]

/-- A placeholder that stands anywhere in a text is a token, and cuts the text in two. -/
theorem tokens_append_hole {name : List Char} (hname : rule.admits name = true)
    (before after : List Char) :
    tokens rule (before ++ (Token.hole name).source ++ after) =
      tokens rule before ++ .hole name :: tokens rule after := by
  have hbraces := hrule.of_mem hname
  have hsource : (Token.hole name).source ++ after = '\x7b' :: (name ++ '\x7d' :: after) := by
    simp [Token.source]
  rw [List.append_assoc, hsource]
  -- by induction on the tokens in front of it; none of them reaches over its opening brace
  induction before using tokens.induct rule with
  | case1 =>
      have hhole : rule.hole? (name ++ '\x7d' :: after) = some (name, after) :=
        hrule.hole?_eq_some_iff.2 ⟨hname, rfl⟩
      rw [List.nil_append, tokens_open_of_some rule hhole, tokens, List.nil_append]
  | case2 c rest hc name' behind hhole hshorter ih =>
      obtain rfl : c = '\x7b' := by simpa using hc
      obtain ⟨hname', rfl⟩ := hrule.hole?_eq_some_iff.1 hhole
      have hlonger : rule.hole? (name' ++ '\x7d' :: behind ++ '\x7b' :: (name ++ '\x7d' :: after)) =
          some (name', behind ++ '\x7b' :: (name ++ '\x7d' :: after)) := by
        apply hrule.hole?_eq_some_iff.2
        exact ⟨hname', by simp⟩
      rw [List.cons_append, tokens_open_of_some rule hlonger, tokens_open_of_some rule hhole, ih,
        List.cons_append]
  | case3 c rest hc hnone ih =>
      obtain rfl : c = '\x7b' := by simpa using hc
      have hstill : rule.hole? (rest ++ '\x7b' :: (name ++ '\x7d' :: after)) = none := by
        rw [Option.eq_none_iff_forall_not_mem]
        rintro ⟨name', behind⟩ hsome
        obtain ⟨hname', hcs⟩ := hrule.hole?_eq_some_iff.1 hsome
        rcases Run.append_eq_append_cons hcs with ⟨es, hrest, -⟩ | ⟨es, hlong, hopen⟩
        -- the brace that closes it stands in front, or the opening brace is part of its name
        · rw [hrule.hole?_eq_some_iff.2 ⟨hname', hrest⟩] at hnone
          cases hnone
        · cases es with
          | nil => cases (List.cons.inj hopen).1
          | cons e es =>
              obtain ⟨rfl, -⟩ := List.cons.inj hopen
              exact (hrule.of_mem hname' '\x7b' (by simp [hlong])).1 rfl
      rw [List.cons_append, tokens_open_of_none rule hstill, tokens_open_of_none rule hnone, ih,
        List.cons_append]
  | case4 c rest hc ih =>
      have hc : c ≠ '\x7b' := by simpa using hc
      rw [List.cons_append, tokens_plain rule hc, tokens_plain rule hc, ih, List.cons_append]

/-- The tokens of a text are the text, and their names are names of the rule. -/
theorem tokens_sound (cs : List Char) :
    (tokens rule cs).flatMap Token.source = cs ∧
      ∀ name, .hole name ∈ tokens rule cs → rule.admits name = true := by
  induction cs using tokens.induct rule with
  | case1 => simp [tokens]
  | case2 c rest hc name behind hhole hshorter ih =>
      obtain rfl : c = '\x7b' := by simpa using hc
      obtain ⟨hname, rfl⟩ := hrule.hole?_eq_some_iff.1 hhole
      rw [tokens_open_of_some rule hhole]
      refine ⟨by simp [ih.1, Token.source], fun name' hmem => ?_⟩
      rcases List.mem_cons.1 hmem with heq | hmem
      · cases heq
        exact hname
      · exact ih.2 name' hmem
  | case3 c rest hc hnone ih =>
      obtain rfl : c = '\x7b' := by simpa using hc
      rw [tokens_open_of_none rule hnone]
      refine ⟨by simp [ih.1, Token.source], fun name' hmem => ?_⟩
      simpa using ih.2 name' (by simpa using hmem)
  | case4 c rest hc ih =>
      rw [tokens_plain rule (by simpa using hc)]
      refine ⟨by simp [ih.1, Token.source], fun name' hmem => ?_⟩
      simpa using ih.2 name' (by simpa using hmem)

end Rule

/-! ## Filling in -/

/-- A text cut into characters and placeholders: nothing is lost, and each placeholder that stands in
the text, wherever that is, is one of the pieces. -/
structure Cut (text : List Char) (pieces : List Token) : Prop where
  whole : pieces.flatMap Token.source = text
  names : ∀ name, .hole name ∈ pieces → NameRule.any.admits name = true
  places : ∀ before name after, NameRule.any.admits name = true →
    text = before ++ (Token.hole name).source ++ after →
    ∃ first last, pieces = first ++ .hole name :: last ∧
      first.flatMap Token.source = before ∧ last.flatMap Token.source = after

theorem cut_tokens (text : List Char) : Cut text (tokens .any text) where
  whole := (tokens_sound braceless_any text).1
  names := (tokens_sound braceless_any text).2
  places before name after hname htext := by
    refine ⟨tokens .any before, tokens .any after, ?_, ?_, ?_⟩
    · rw [htext]
      exact tokens_append_hole braceless_any hname before after
    · exact (tokens_sound braceless_any before).1
    · exact (tokens_sound braceless_any after).1

/-- A piece with the value of its name in place, if the name has one. -/
def Token.replace (value : String → Option String) : Token → List Char
  | .char c => [c]
  | .hole name => ((value (String.ofList name)).map String.toList).getD (Token.hole name).source

/-- The result is the text with each placeholder whose name has a value replaced at its place by that
value; all other characters and placeholders stay. -/
def Replaced (value : String → Option String) (text result : String) : Prop :=
  ∃ pieces, Cut text.toList pieces ∧ result.toList = pieces.flatMap (Token.replace value)

theorem fill_eq_replace (values : Scope) (token : Token) :
    token.fill values = token.replace values.get? := by
  cases token with
  | char c => rfl
  | hole name =>
      rw [Token.fill, Token.replace]
      cases values.get? (String.ofList name) <;> rfl

theorem replaced_fill (command : String) (values : Scope) :
    Replaced values.get? command (fill command values) := by
  refine ⟨tokens .any command.toList, cut_tokens _, ?_⟩
  rw [fill, String.toList_ofList]
  exact List.flatMap_congr fun token _ => fill_eq_replace values token

/-! ## Required names -/

/-- The placeholder of a name stands in a command between two parts. -/
def StandsAt (command name : String) (before after : List Char) : Prop :=
  command.toList = before ++ (Token.hole name.toList).source ++ after

/-- The placeholder of a name stands somewhere in a command. -/
def Mentions (command name : String) : Prop := ∃ before after, StandsAt command name before after

/-- One name stands in a command before any place of another. -/
def Precedes (command name other : String) : Prop :=
  ∃ before after, StandsAt command name before after ∧
    ∀ before' after', StandsAt command other before' after' → before.length < before'.length

/-- Whether a name is one of those that a command requires. -/
def IsRequired (name : String) : Prop := NameRule.required.admits name.toList = true

/-- A list holds certain names of a command, each once, in the order in which they first stand in
it. -/
structure Lists (command : String) (P : String → Prop) (names : List String) : Prop where
  mem : ∀ name, name ∈ names ↔ P name
  once : names.Nodup
  order : names.Pairwise (Precedes command)

theorem mem_holeNames {name : String} {ts : List Token} :
    name ∈ holeNames ts ↔ .hole name.toList ∈ ts := by
  induction ts with
  | nil => simp [holeNames]
  | cons token ts ih =>
      cases token with
      | char c => simp [holeNames, ih]
      | hole other =>
          have hname : name = String.ofList other ↔ name.toList = other := by
            rw [← String.toList_inj, String.toList_ofList]
          simp [holeNames, ih, hname]

theorem holeNames_eq_append_cons {ts : List Token} {before after : List String} {name : String}
    (h : holeNames ts = before ++ name :: after) :
    ∃ first last, ts = first ++ .hole name.toList :: last ∧ holeNames first = before := by
  induction ts generalizing before with
  | nil => simp [holeNames] at h
  | cons token ts ih =>
      cases token with
      | char c =>
          obtain ⟨first, last, rfl, hfirst⟩ := ih h
          exact ⟨.char c :: first, last, rfl, hfirst⟩
      | hole other =>
          rw [holeNames] at h
          cases before with
          | nil =>
              obtain ⟨rfl, -⟩ := List.cons.inj h
              exact ⟨[], ts, by simp, rfl⟩
          | cons b before =>
              obtain ⟨rfl, hrest⟩ := List.cons.inj h
              obtain ⟨first, last, rfl, hfirst⟩ := ih hrest
              exact ⟨.hole other :: first, last, rfl, by rw [holeNames, hfirst]⟩

/-- What is left of a list without repetitions stands in the order of first occurrence. -/
theorem pairwise_eraseDups {α : Type} [BEq α] [LawfulBEq α] (l : List α) :
    l.eraseDups.Pairwise fun a b => b ≠ a ∧ ∃ before after, l = before ++ a :: after ∧ b ∉ before := by
  match l with
  | [] => simp
  | x :: xs =>
      have hother : ∀ {b}, b ∈ (xs.filter fun b => !b == x).eraseDups → b ≠ x := by
        intro b hb
        have hmem := List.mem_eraseDups.1 hb
        simpa using (List.mem_filter.1 hmem).2
      rw [List.eraseDups_cons]
      refine List.Pairwise.cons (fun b hb => ⟨hother hb, [], xs, rfl, List.not_mem_nil⟩) ?_
      -- an occurrence among those that differ from `x` is an occurrence in the whole list
      refine (pairwise_eraseDups (xs.filter fun b => !b == x)).imp_of_mem ?_
      rintro a b ha hb ⟨hne, before, after, hfilter, hnot⟩
      obtain ⟨us, vs, rfl, hus, hvs⟩ := List.filter_eq_append_iff.1 hfilter
      obtain ⟨ws, zs, rfl, hws, -⟩ := List.filter_eq_cons_iff.1 hvs
      refine ⟨hne, x :: (us ++ ws), zs, by simp, ?_⟩
      simp only [List.mem_cons, List.mem_append, not_or]
      refine ⟨hother hb, fun hmem => hnot ?_, fun hmem => ?_⟩
      · rw [← hus]
        exact List.mem_filter.2 ⟨hmem, by simpa using hother hb⟩
      · exact hws b hmem (by simpa using hother hb)
termination_by l.length
decreasing_by exact Nat.lt_succ_of_le (List.length_filter_le _ _)

section Required

variable {command : String} {name other : String}

theorem mem_required_iff : name ∈ required command ↔ IsRequired name ∧ Mentions command name := by
  obtain ⟨hwhole, hnames⟩ := tokens_sound braceless_required command.toList
  rw [required, List.mem_eraseDups, mem_holeNames]
  constructor
  · intro hmem
    obtain ⟨first, last, htokens⟩ := List.append_of_mem hmem
    rw [htokens] at hwhole
    refine ⟨hnames _ hmem, first.flatMap Token.source, last.flatMap Token.source, ?_⟩
    rw [StandsAt, ← hwhole]
    simp
  · rintro ⟨hrequired, before, after, hstands⟩
    rw [hstands, tokens_append_hole braceless_required hrequired]
    simp

/-- The first token of one name comes before each place of a name that has no token before it. -/
theorem precedes_of_tokens {first last : List Token}
    (htokens : tokens .required command.toList = first ++ .hole name.toList :: last)
    (hrequired : IsRequired other) (hne : other ≠ name) (hnot : .hole other.toList ∉ first) :
    Precedes command name other := by
  have hwhole := (tokens_sound braceless_required command.toList).1
  rw [htokens] at hwhole
  refine ⟨first.flatMap Token.source, last.flatMap Token.source, ?_, ?_⟩
  · rw [StandsAt, ← hwhole]
    simp
  · intro before after hstands
    -- the tokens in front of the other name go further than `first`
    have hother := tokens_append_hole braceless_required hrequired before after
    rw [← hstands, htokens] at hother
    rcases Run.append_eq_append_cons hother with ⟨es, hfirst, -⟩ | ⟨es, hbefore, hes⟩
    · exact absurd (hfirst ▸ List.mem_append_right _ (List.mem_cons_self ..)) hnot
    · have hsound := (tokens_sound braceless_required before).1
      cases es with
      | nil =>
          have hsame := Token.hole.inj (List.cons.inj hes).1
          exact absurd (String.toList_inj.1 hsame).symm hne
      | cons e es =>
          obtain ⟨rfl, -⟩ := List.cons.inj hes
          rw [← hsound, hbefore]
          simp only [List.flatMap_append, List.flatMap_cons, List.length_append, Token.source,
            List.length_cons]
          omega

end Required

theorem lists_required (command : String) :
    Lists command (fun name => IsRequired name ∧ Mentions command name) (required command) := by
  have hpairs := pairwise_eraseDups (holeNames (tokens .required command.toList))
  refine ⟨fun name => mem_required_iff, hpairs.imp fun h => h.1.symm, ?_⟩
  refine hpairs.imp_of_mem ?_
  rintro name other - hother ⟨hne, before, after, hnames, hnot⟩
  obtain ⟨first, last, htokens, rfl⟩ := holeNames_eq_append_cons hnames
  apply precedes_of_tokens htokens (mem_required_iff.1 hother).1 hne
  intro hmem
  exact hnot (mem_holeNames.2 hmem)

/-- The missing names are the required ones that have no value. -/
theorem lists_missing (command : String) (values : Scope) :
    Lists command (fun name => IsRequired name ∧ Mentions command name ∧ values.get? name = none)
      (missing command values) where
  mem name := by
    rw [missing, List.mem_filter, (lists_required command).mem]
    simp [Assoc.has, and_assoc]
  once := (lists_required command).once.filter _
  order := (lists_required command).order.filter _

end Runbook.Template
