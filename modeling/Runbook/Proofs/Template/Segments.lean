import Runbook.Proofs.Assoc
import Runbook.Proofs.Template.Places

/-!
# Commands as stretches and placeholders

A command is cut into placeholders and the stretches of text between them, and there is one way to do
so (`tokens_of_segments`, `segments_eq`): a placeholder that stands in a text shares no character with
another one. Names of capitals and names of any kind are found by the same cut, although each rule has
its own scan of the text (`holeNames_required`).

So all that a command is used for can be read off its cut (`one_cut_for_all`): filling in goes over
the pieces one by one and leaves what it inserted alone, the required names are those of the
placeholders that fit the narrower rule, and the preview leaves the placeholders without a filled value.
-/

set_option autoImplicit false

namespace Runbook.Template

/-! ## Pieces -/

/-- A piece of a command: a stretch of text or a placeholder. -/
inductive Piece where
  | stretch (cs : List Char)
  | hole (name : List Char)
  deriving DecidableEq, Repr

namespace Piece

/-- The characters of a piece as they are written. -/
def source : Piece → List Char
  | stretch cs => cs
  | hole name => (Token.hole name).source

/-- The tokens of a piece. -/
def tokens : Piece → List Token
  | stretch cs => cs.map .char
  | hole name => [.hole name]

/-- The name of a placeholder. -/
def name? : Piece → Option String
  | stretch _ => none
  | hole name => some (String.ofList name)

/-- A piece with its value in place, if its name has one. -/
def fill (value : String → Option String) : Piece → List Char
  | stretch cs => cs
  | hole name => ((value (String.ofList name)).map String.toList).getD (hole name).source

/-- A piece in the preview: a placeholder whose value is missing or empty stays as it is written. -/
def preview (value : String → Option String) (piece : Piece) : List Char :=
  match piece.name?.bind value with
  | some v => if v = "" then piece.source else piece.fill value
  | none => piece.source

end Piece

/-- A placeholder stands somewhere in a text. -/
def HasHole (cs : List Char) : Prop :=
  ∃ before name after, NameRule.any.admits name = true ∧
    cs = before ++ (Token.hole name).source ++ after

/-- A text is cut into placeholders and the longest stretches between them, in which no placeholder
stands. -/
structure Segments (text : List Char) (pieces : List Piece) : Prop where
  whole : pieces.flatMap Piece.source = text
  names : ∀ name, .hole name ∈ pieces → NameRule.any.admits name = true
  filled : ∀ cs, .stretch cs ∈ pieces → cs ≠ []
  plain : ∀ cs, .stretch cs ∈ pieces → ¬HasHole cs
  longest : ∀ before first second after,
    pieces ≠ before ++ .stretch first :: .stretch second :: after

variable {text cs rest : List Char} {name : List Char} {pieces : List Piece} {piece : Piece}

theorem Segments.tail (h : Segments text (piece :: pieces)) :
    Segments (pieces.flatMap Piece.source) pieces where
  whole := rfl
  names name hname := h.names name (List.mem_cons_of_mem _ hname)
  filled cs hcs := h.filled cs (List.mem_cons_of_mem _ hcs)
  plain cs hcs := h.plain cs (List.mem_cons_of_mem _ hcs)
  longest before first second after heq :=
    h.longest (piece :: before) first second after (congrArg (piece :: ·) heq)

/-! ## One way to cut -/

theorem HasHole.cons (h : HasHole cs) (c : Char) : HasHole (c :: cs) := by
  obtain ⟨before, name, after, hname, rfl⟩ := h
  exact ⟨c :: before, name, after, hname, rfl⟩

/-- A text without placeholders gives its characters, if what follows it begins with a brace. -/
theorem tokens_append_of_plain (hplain : ¬HasHole cs) (hrest : ∀ c ∈ rest.head?, c = '\x7b') :
    tokens .any (cs ++ rest) = cs.map .char ++ tokens .any rest := by
  induction cs with
  | nil => rfl
  | cons c cs ih =>
      have ih := ih fun h => hplain (h.cons c)
      rw [List.cons_append]
      by_cases hc : c = '\x7b'
      · subst hc
        have hnone : NameRule.any.hole? (cs ++ rest) = none := by
          rw [Option.eq_none_iff_forall_not_mem]
          rintro ⟨name, behind⟩ hsome
          obtain ⟨hname, hcs⟩ := braceless_any.hole?_eq_some_iff.1 hsome
          rcases Run.append_eq_append_cons hcs with ⟨es, rfl, -⟩ | ⟨es, hfront, hback⟩
          -- the closing brace stands in the text itself, or the name takes in the brace behind it
          · exact hplain ⟨[], name, es, hname, by simp [Token.source]⟩
          · cases es with
            | nil =>
                have hopen := hrest '\x7d' (by simp [hback])
                cases hopen
            | cons e es =>
                have hopen : e = '\x7b' := hrest e (by simp [hback])
                exact (braceless_any.of_mem hname e (by simp [hfront])).1 hopen
        rw [tokens_open_of_none _ hnone, ih]
        rfl
      · rw [tokens_plain _ hc, ih]
        rfl

/-- Behind a stretch a placeholder begins, or the text ends. -/
theorem Segments.head_eq (h : Segments text (.stretch cs :: pieces)) :
    ∀ c ∈ (pieces.flatMap Piece.source).head?, c = '\x7b' := by
  intro c hc
  cases pieces with
  | nil => cases hc
  | cons piece pieces =>
      cases piece with
      | stretch other => exact (h.longest [] cs other pieces rfl).elim
      | hole name => exact (Option.some.inj hc).symm

/-- The pieces of a cut are made of the tokens of the text. -/
theorem tokens_of_segments (h : Segments text pieces) :
    tokens .any text = pieces.flatMap Piece.tokens := by
  induction pieces generalizing text with
  | nil =>
      rw [← h.whole, List.flatMap_nil, tokens]
      rfl
  | cons piece pieces ih =>
      have ih := ih h.tail
      rw [← h.whole, List.flatMap_cons, List.flatMap_cons, ← ih]
      cases piece with
      | stretch cs =>
          exact tokens_append_of_plain (h.plain cs List.mem_cons_self) h.head_eq
      | hole name =>
          have hname := h.names name List.mem_cons_self
          have htokens := tokens_append_hole braceless_any hname [] (pieces.flatMap Piece.source)
          rwa [List.nil_append, tokens, List.nil_append] at htokens

/-- Tokens put together to placeholders and the longest stretches between them. -/
def segments : List Token → List Piece
  | [] => []
  | .hole name :: ts => .hole name :: segments ts
  | .char c :: ts =>
    match segments ts with
    | .stretch cs :: pieces => .stretch (c :: cs) :: pieces
    | pieces => .stretch [c] :: pieces

theorem segments_stretch (hfilled : cs ≠ []) {ts : List Token}
    (h : ∀ other pieces, segments ts ≠ .stretch other :: pieces) :
    segments (cs.map .char ++ ts) = .stretch cs :: segments ts := by
  induction cs with
  | nil => exact (hfilled rfl).elim
  | cons c cs ih =>
      rw [List.map_cons, List.cons_append, segments]
      cases cs with
      | nil =>
          rw [List.map_nil, List.nil_append]
          split
          · rename_i other pieces heq
            exact (h other pieces heq).elim
          · rfl
      | cons d cs =>
          rw [ih (List.cons_ne_nil d cs)]

/-- The pieces of a cut are found again from its tokens. -/
theorem segments_eq (h : Segments text pieces) : segments (pieces.flatMap Piece.tokens) = pieces := by
  induction pieces generalizing text with
  | nil => rfl
  | cons piece pieces ih =>
      have ih := ih h.tail
      rw [List.flatMap_cons]
      cases piece with
      | hole name => rw [Piece.tokens, List.singleton_append, segments, ih]
      | stretch cs =>
          rw [Piece.tokens, segments_stretch (h.filled cs List.mem_cons_self), ih]
          rw [ih]
          rintro other behind rfl
          exact h.longest [] cs other behind rfl

/-! ## There is a cut -/

theorem flatMap_tokens_segments (ts : List Token) : (segments ts).flatMap Piece.tokens = ts := by
  induction ts with
  | nil => rfl
  | cons token ts ih =>
      cases token with
      | hole name => simp [segments, Piece.tokens, ih]
      | char c =>
          rw [segments]
          split
          · rename_i cs pieces heq
            rw [heq] at ih
            simp [Piece.tokens, ← ih]
          · simp [Piece.tokens, ih]

theorem source_flatMap_tokens (pieces : List Piece) :
    (pieces.flatMap Piece.tokens).flatMap Token.source = pieces.flatMap Piece.source := by
  rw [List.flatMap_assoc]
  refine List.flatMap_congr fun piece _ => ?_
  cases piece with
  | stretch cs => simp [Piece.tokens, Piece.source, Token.source, List.flatMap_map]
  | hole name => simp [Piece.tokens, Piece.source]

/-- The last tokens of a text are those of what they stand for. -/
theorem tokens_of_suffix {first last : List Token} (h : tokens .any text = first ++ last) :
    tokens .any (last.flatMap Token.source) = last := by
  induction first generalizing text with
  | nil =>
      rw [List.nil_append] at h
      rw [← h, (tokens_sound braceless_any text).1]
  | cons token first ih =>
      cases text with
      | nil => simp [tokens] at h
      | cons c rest =>
          by_cases hc : c = '\x7b'
          · subst hc
            cases hhole : NameRule.any.hole? rest with
            | none =>
                rw [tokens_open_of_none _ hhole] at h
                exact ih (List.cons.inj h).2
            | some found =>
                obtain ⟨name, behind⟩ := found
                rw [tokens_open_of_some _ hhole] at h
                exact ih (List.cons.inj h).2
          · rw [tokens_plain _ hc] at h
            exact ih (List.cons.inj h).2

/-- Characters that are tokens one by one hold no placeholder. -/
theorem not_hasHole_of_tokens {ts : List Token} (h : tokens .any text = cs.map .char ++ ts) :
    ¬HasHole cs := by
  rintro ⟨before, name, after, hname, rfl⟩
  have htext : text = before ++ (Token.hole name).source ++ (after ++ ts.flatMap Token.source) := by
    rw [← (tokens_sound braceless_any text).1, h]
    simp [Token.source, List.flatMap_map]
  rw [htext, tokens_append_hole braceless_any hname] at h
  -- the placeholder is a token of the text, in front of which there is not enough room for it
  rcases Run.append_eq_append_cons h.symm with ⟨es, hchars, -⟩ | ⟨es, hfront, -⟩
  · have hmem : Token.hole name ∈ (before ++ (Token.hole name).source ++ after).map Token.char := by
      rw [hchars]
      simp
    simp at hmem
  · have hlength := congrArg (fun ts => (ts.flatMap Token.source).length) hfront
    simp only [(tokens_sound braceless_any before).1, List.flatMap_append, List.length_append,
      List.flatMap_map, Token.source] at hlength
    simp at hlength
    omega

theorem filled_segments {ts : List Token} (h : .stretch cs ∈ segments ts) : cs ≠ [] := by
  induction ts generalizing cs with
  | nil => cases h
  | cons token ts ih =>
      cases token with
      | hole name => exact ih (by simpa [segments] using h)
      | char c =>
          rw [segments] at h
          split at h
          · rename_i other pieces heq
            rcases List.mem_cons.1 h with hsame | hmem
            · cases hsame
              exact List.cons_ne_nil c other
            · exact ih (heq ▸ List.mem_cons_of_mem _ hmem)
          · rcases List.mem_cons.1 h with hsame | hmem
            · cases hsame
              exact List.cons_ne_nil c []
            · exact ih hmem

theorem longest_segments (ts : List Token) (before : List Piece) (first second : List Char)
    (after : List Piece) : segments ts ≠ before ++ .stretch first :: .stretch second :: after := by
  induction ts generalizing before first with
  | nil => simp [segments]
  | cons token ts ih =>
      intro heq
      cases token with
      | hole name =>
          rw [segments] at heq
          cases before with
          | nil => cases (List.cons.inj heq).1
          | cons piece before => exact ih before first (List.cons.inj heq).2
      | char c =>
          rw [segments] at heq
          split at heq
          -- the character belongs to the stretch behind it, or is one of its own
          · rename_i cs pieces hsegments
            cases before with
            | nil =>
                obtain ⟨-, hpieces⟩ := List.cons.inj heq
                exact ih [] cs (hsegments.trans (congrArg _ hpieces))
            | cons piece before =>
                obtain ⟨-, hpieces⟩ := List.cons.inj heq
                exact ih (.stretch cs :: before) first (hsegments.trans (congrArg _ hpieces))
          · rename_i hother
            cases before with
            | nil =>
                obtain ⟨-, hpieces⟩ := List.cons.inj heq
                exact hother second after hpieces
            | cons piece before => exact ih before first (List.cons.inj heq).2

/-- The tokens of a text, put together, are a cut of it. -/
theorem segments_of_tokens (text : List Char) : Segments text (segments (tokens .any text)) where
  whole := by
    rw [← source_flatMap_tokens, flatMap_tokens_segments, (tokens_sound braceless_any text).1]
  names name hname := by
    apply (tokens_sound braceless_any text).2
    rw [← flatMap_tokens_segments (tokens .any text)]
    exact List.mem_flatMap.2 ⟨_, hname, List.mem_singleton_self _⟩
  filled cs := filled_segments
  plain cs hcs := by
    obtain ⟨first, last, hsplit⟩ := List.append_of_mem hcs
    have htokens := flatMap_tokens_segments (tokens .any text)
    rw [hsplit, List.flatMap_append, List.flatMap_cons] at htokens
    exact not_hasHole_of_tokens (tokens_of_suffix htokens.symm)
  longest := longest_segments (tokens .any text)

/-- A text is cut in one way. -/
theorem segments_unique (h : Segments text pieces) : pieces = segments (tokens .any text) := by
  rw [tokens_of_segments h, segments_eq h]

/-! ## What is done with the pieces -/

theorem fill_eq_pieces (command : String) (values : Scope) :
    (fill command values).toList =
      (segments (tokens .any command.toList)).flatMap (Piece.fill values.get?) := by
  have htokens := flatMap_tokens_segments (tokens .any command.toList)
  rw [fill, String.toList_ofList]
  conv_lhs => rw [← htokens]
  rw [List.flatMap_assoc]
  refine List.flatMap_congr fun piece _ => ?_
  cases piece with
  | stretch cs => simp [Piece.tokens, Piece.fill, Token.fill, List.flatMap_map]
  | hole name =>
      rw [Piece.tokens, List.flatMap_singleton, fill_eq_replace]
      rfl

/-- Only the values that are not empty are filled in. -/
theorem preview_eq_pieces (command : String) {values : Scope} (h : values.keys.Nodup) :
    (preview command values).toList =
      (segments (tokens .any command.toList)).flatMap (Piece.preview values.get?) := by
  rw [preview, fill_eq_pieces]
  refine List.flatMap_congr fun piece _ => ?_
  cases piece with
  | stretch cs => rfl
  | hole name =>
      have hvalue := Assoc.get?_filter h (· != "") (String.ofList name)
      simp only [Piece.fill, Piece.preview, Piece.name?, hvalue, Option.bind_some]
      cases values.get? (String.ofList name) with
      | none => rfl
      | some value => by_cases hempty : value = "" <;> simp [Option.filter, hempty]

/-- Values that are the placeholders themselves change nothing. -/
theorem fill_self {command : String} {values : Scope}
    (h : ∀ name value, values.get? name = some value →
      value.toList = (Token.hole name.toList).source) : fill command values = command := by
  rw [← String.toList_inj, fill_eq_pieces]
  refine Eq.trans (List.flatMap_congr fun piece _ => ?_) (segments_of_tokens command.toList).whole
  cases piece with
  | stretch cs => rfl
  | hole name =>
      rw [Piece.fill]
      cases hvalue : values.get? (String.ofList name) with
      | none => rfl
      | some value => simpa [Piece.source] using h _ value hvalue

/-! ## Required names -/

/-- Whether a name is one of those that a command requires, as a test. -/
def isRequired (name : String) : Bool := NameRule.required.admits name.toList

/-- A required name is a name. -/
theorem any_of_required (h : NameRule.required.admits name = true) :
    NameRule.any.admits name = true := by
  have hbraces := braceless_required.of_mem h
  cases name with
  | nil => cases h
  | cons c rest => simpa [NameRule.admits, NameRule.any] using hbraces

/-- A name that is not required leaves characters. -/
theorem tokens_required_skip (hname : NameRule.any.admits name = true)
    (hother : NameRule.required.admits name = false) :
    tokens .required ((Token.hole name).source ++ rest) =
      (Token.hole name).source.map .char ++ tokens .required rest := by
  have hplain : ∀ cs : List Char, (∀ c ∈ cs, c ≠ '\x7b') → ∀ behind,
      tokens .required (cs ++ behind) = cs.map .char ++ tokens .required behind := by
    intro cs hcs behind
    induction cs with
    | nil => rfl
    | cons c cs ih =>
        obtain ⟨hc, hcs⟩ := List.forall_mem_cons.1 hcs
        rw [List.cons_append, tokens_plain _ hc, ih hcs]
        rfl
  have hclosed : ∀ c ∈ name ++ ['\x7d'], c ≠ '\x7b' := by
    intro c hc
    rcases List.mem_append.1 hc with hin | hlast
    · exact (braceless_any.of_mem hname c hin).1
    · rw [List.mem_singleton.1 hlast]
      decide
  have hnone : NameRule.required.hole? (name ++ ['\x7d'] ++ rest) = none := by
    rw [Option.eq_none_iff_forall_not_mem]
    rintro ⟨found, behind⟩ hsome
    obtain ⟨hfound, hcs⟩ := braceless_required.hole?_eq_some_iff.1 hsome
    -- both names go to the first closing brace
    have hany := braceless_any.hole?_eq_some_iff.2 ⟨any_of_required hfound, hcs⟩
    have hsame : NameRule.any.hole? (name ++ ['\x7d'] ++ rest) = some (name, rest) :=
      braceless_any.hole?_eq_some_iff.2 ⟨hname, by simp⟩
    rw [hsame] at hany
    cases hany
    rw [hfound] at hother
    cases hother
  have hsource : (Token.hole name).source = '\x7b' :: (name ++ ['\x7d']) := by simp [Token.source]
  rw [hsource, List.cons_append, tokens_open_of_none _ hnone, hplain _ hclosed]
  rfl

theorem holeNames_append (ts us : List Token) : holeNames (ts ++ us) = holeNames ts ++ holeNames us := by
  induction ts with
  | nil => rfl
  | cons token ts ih => cases token <;> simp [holeNames, ih]

theorem holeNames_chars (cs : List Char) : holeNames (cs.map .char) = [] := by
  induction cs with
  | nil => rfl
  | cons c cs ih => simpa [holeNames] using ih

/-- Both rules of names find the same placeholders. -/
theorem holeNames_required (cs : List Char) :
    holeNames (tokens .required cs) = (holeNames (tokens .any cs)).filter isRequired := by
  -- by induction on the cut for names of any kind
  induction cs using tokens.induct NameRule.any with
  | case1 => simp [tokens, holeNames]
  | case2 c rest hc name behind hhole _ ih =>
      obtain rfl : c = '\x7b' := by simpa using hc
      obtain ⟨hname, rfl⟩ := braceless_any.hole?_eq_some_iff.1 hhole
      have htext : '\x7b' :: (name ++ '\x7d' :: behind) = (Token.hole name).source ++ behind := by
        simp [Token.source]
      rw [tokens_open_of_some _ hhole, holeNames, List.filter_cons, ← ih, htext]
      cases hrequired : NameRule.required.admits name with
      | true =>
          have hcut := tokens_append_hole braceless_required hrequired [] behind
          rw [List.nil_append, tokens, List.nil_append] at hcut
          rw [hcut, holeNames, if_pos (by simpa [isRequired] using hrequired)]
      | false =>
          rw [tokens_required_skip hname hrequired, holeNames_append, holeNames_chars,
            if_neg (by simp [isRequired, hrequired])]
          rfl
  | case3 c rest hc hnone ih =>
      obtain rfl : c = '\x7b' := by simpa using hc
      have hnone' : NameRule.required.hole? rest = none := by
        rw [Option.eq_none_iff_forall_not_mem]
        rintro ⟨name, behind⟩ hsome
        obtain ⟨hname, hcs⟩ := braceless_required.hole?_eq_some_iff.1 hsome
        rw [braceless_any.hole?_eq_some_iff.2 ⟨any_of_required hname, hcs⟩] at hnone
        cases hnone
      rw [tokens_open_of_none _ hnone, tokens_open_of_none _ hnone', holeNames, holeNames, ih]
  | case4 c rest hc ih =>
      have hc : c ≠ '\x7b' := by simpa using hc
      rw [tokens_plain _ hc, tokens_plain _ hc, holeNames, holeNames, ih]

theorem filterMap_name_segments (ts : List Token) :
    (segments ts).filterMap Piece.name? = holeNames ts := by
  conv_rhs => rw [← flatMap_tokens_segments ts]
  induction segments ts with
  | nil => rfl
  | cons piece pieces ih =>
      rw [List.flatMap_cons, holeNames_append, ← ih]
      cases piece with
      | stretch cs =>
          rw [Piece.tokens, holeNames_chars]
          rfl
      | hole name => rfl

/-! ## All uses of a command -/

/-- A command is cut in one way into placeholders and stretches, and all that is done with it goes by
this cut: filling in, where values are not searched again, the required names, and the preview. -/
theorem one_cut_for_all (command : String) :
    ∃ pieces, Segments command.toList pieces ∧
      (∀ others, Segments command.toList others → others = pieces) ∧
      (∀ values, (fill command values).toList = pieces.flatMap (Piece.fill values.get?)) ∧
      (∀ values, (∀ name value, values.get? name = some value →
        value.toList = (Token.hole name.toList).source) → fill command values = command) ∧
      required command = ((pieces.filterMap Piece.name?).filter isRequired).eraseDups ∧
      Lists command (fun name => IsRequired name ∧ Mentions command name) (required command) ∧
      ∀ values, values.keys.Nodup →
        (preview command values).toList = pieces.flatMap (Piece.preview values.get?) := by
  refine ⟨segments (tokens .any command.toList), segments_of_tokens _, fun _ => segments_unique,
    fill_eq_pieces command, fun values => fill_self, ?_, lists_required command,
    fun values => preview_eq_pieces command⟩
  rw [required, holeNames_required, filterMap_name_segments]

/-- A command with a brace that opens nothing, a name that is not required and a name that is not
closed. -/
theorem one_cut_for_all_strayBraces :
    let values : Scope := [("A", "\x7bA\x7d"), ("b", "")]
    values.keys.Nodup ∧
      ∃ pieces, Segments "\x7b\x7bA\x7d\x7bb\x7d-\x7bA".toList pieces ∧
        fill "\x7b\x7bA\x7d\x7bb\x7d-\x7bA" [("A", "\x7bA\x7d")] = "\x7b\x7bA\x7d\x7bb\x7d-\x7bA" ∧
        (preview "\x7b\x7bA\x7d\x7bb\x7d-\x7bA" values).toList = pieces.flatMap (Piece.preview values.get?) := by
  intro values
  have hnodup : values.keys.Nodup := by decide
  obtain ⟨pieces, hpieces, -, -, hself, -, -, hpreview⟩ := one_cut_for_all "\x7b\x7bA\x7d\x7bb\x7d-\x7bA"
  refine ⟨hnodup, pieces, hpieces, hself _ fun name value hvalue => ?_, hpreview values hnodup⟩
  have hcases : name = "A" ∧ value = "\x7bA\x7d" := by
    by_cases hname : "A" = name
    · subst hname
      exact ⟨rfl, (Option.some.inj hvalue).symm⟩
    · simp [Assoc.get?, hname] at hvalue
  rw [hcases.1, hcases.2]
  decide

end Runbook.Template
