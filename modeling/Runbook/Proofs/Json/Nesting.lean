import Runbook.Proofs.Json.Sound

/-!
# Why a text is beyond the limits of a reader

A reader refuses nesting beyond the depth of its dialect and integers of more digits than are read.
Both are blamed on the text: `standing` counts the brackets that are open at a place of the text,
strings apart, and whenever the reader says that values are nested too deep, an opening bracket stands
in the text where as many brackets as allowed are open (`blamed_of_read`).

The readers take their texts from the front, and what they take leaves as many brackets open as there
were before (`Passes`). The fuel never runs out, since each value and each comma takes a character.
-/

set_option autoImplicit false

namespace Runbook.Json

/-! ## Open brackets -/

/-- Where a place in a text is. -/
inductive Zone where
  | between
  | inString
  /-- Behind a backslash in a string. -/
  | escaped
  deriving DecidableEq, Repr

/-- A place in a text: its zone, and how many brackets are open there. -/
structure Standing where
  zone : Zone := .between
  unclosed : Nat := 0
  deriving DecidableEq, Repr

/-- Whether a character opens an array or an object. -/
def isOpening (c : Char) : Bool := c == '[' || c == '\x7b'

/-- Whether a character closes an array or an object. -/
def isClosing (c : Char) : Bool := c == ']' || c == '\x7d'

/-- The place behind a character. -/
def Standing.next (s : Standing) (c : Char) : Standing :=
  match s.zone with
  | .between =>
    if c == '"' then { s with zone := .inString }
    else if isOpening c then { s with unclosed := s.unclosed + 1 }
    else if isClosing c then { s with unclosed := s.unclosed - 1 }
    else s
  | .inString =>
    if c == '"' then { s with zone := .between }
    else if c == '\\' then { s with zone := .escaped }
    else s
  | .escaped => { s with zone := .inString }

/-- The place behind a text. -/
def standing (s : Standing) (cs : List Char) : Standing := cs.foldl Standing.next s

/-- A place between values. -/
def Standing.between (unclosed : Nat) : Standing := ⟨.between, unclosed⟩

/-- A place in a string. -/
def Standing.inString (unclosed : Nat) : Standing := ⟨.inString, unclosed⟩

/-- A text begins at one place, and a later part of it at another one. -/
def Passes (s t : Standing) (cs rest : List Char) : Prop :=
  ∃ front, cs = front ++ rest ∧ standing s front = t

variable {s t u : Standing} {n k l : Nat} {cs rest rest' : List Char} {c : Char}

theorem standing_append (s : Standing) (cs rest : List Char) :
    standing s (cs ++ rest) = standing (standing s cs) rest := List.foldl_append

theorem Passes.refl (s : Standing) (cs : List Char) : Passes s s cs cs := ⟨[], rfl, rfl⟩

theorem Passes.trans (h : Passes s t cs rest) (h' : Passes t u rest rest') :
    Passes s u cs rest' := by
  obtain ⟨front, rfl, rfl⟩ := h
  obtain ⟨front', rfl, rfl⟩ := h'
  exact ⟨front ++ front', (List.append_assoc ..).symm, standing_append ..⟩

theorem Passes.step (h : s.next c = t) : Passes s t (c :: rest) rest := ⟨[c], rfl, h⟩

theorem Passes.length_le (h : Passes s t cs rest) : rest.length ≤ cs.length := by
  obtain ⟨front, rfl, -⟩ := h
  simp

/-- A character that neither begins a string nor opens or closes anything. -/
def Quiet (c : Char) : Prop := c ≠ '"' ∧ isOpening c = false ∧ isClosing c = false

theorem passes_quiet (h : Quiet c) : Passes (.between n) (.between n) (c :: rest) rest := by
  obtain ⟨hquote, hopening, hclosing⟩ := h
  apply Passes.step
  simp [Standing.between, Standing.next, hquote, hopening, hclosing]

theorem passes_quote : Passes (.between n) (.inString n) ('"' :: rest) rest := .step rfl

theorem passes_opening (h : isOpening c = true) :
    Passes (.between n) (.between (n + 1)) (c :: rest) rest := by
  simp only [isOpening, Bool.or_eq_true, beq_iff_eq] at h
  rcases h with rfl | rfl
  · exact .step rfl
  · exact .step rfl

theorem passes_closing (h : isClosing c = true) :
    Passes (.between (n + 1)) (.between n) (c :: rest) rest := by
  simp only [isClosing, Bool.or_eq_true, beq_iff_eq] at h
  rcases h with rfl | rfl
  · exact .step rfl
  · exact .step rfl

theorem passes_all_quiet {front : List Char} (h : ∀ c ∈ front, Quiet c) :
    Passes (.between n) (.between n) (front ++ rest) rest := by
  induction front with
  | nil => exact .refl _ rest
  | cons c front ih =>
      obtain ⟨hc, hfront⟩ := List.forall_mem_cons.1 h
      exact (passes_quiet hc).trans (ih hfront)

theorem quiet_of_isSpace (h : isSpace c = true) : Quiet c := by
  simp only [isSpace, Bool.or_eq_true, beq_iff_eq] at h
  rcases h with ((rfl | rfl) | rfl) | rfl <;> exact ⟨by decide, rfl, rfl⟩

theorem quiet_of_isAsciiDigit (h : isAsciiDigit c = true) : Quiet c := by
  refine ⟨?_, ?_, ?_⟩
  · rintro rfl
    cases h
  · cases hopening : isOpening c with
    | false => rfl
    | true =>
        simp only [isOpening, Bool.or_eq_true, beq_iff_eq] at hopening
        rcases hopening with rfl | rfl <;> cases h
  · cases hclosing : isClosing c with
    | false => rfl
    | true =>
        simp only [isClosing, Bool.or_eq_true, beq_iff_eq] at hclosing
        rcases hclosing with rfl | rfl <;> cases h

theorem passes_skipSpace (place : Nat) :
    Passes (.between n) (.between n) cs (skipSpaceFrom place cs).rest := by
  induction cs generalizing place with
  | nil => exact .refl _ []
  | cons c cs ih =>
      rw [skipSpaceFrom]
      by_cases hspace : isSpace c = true
      · rw [if_pos hspace]
        exact (passes_quiet (quiet_of_isSpace hspace)).trans (ih _)
      · rw [if_neg hspace]
        exact .refl _ _

/-! ## Blame -/

/-- What a flaw says of the text in which it was found, `n` brackets being open at its start and `depth`
more allowed. -/
def Blamed (n depth : Nat) (cs : List Char) : Flaw → Prop
  | .tooDeep _ =>
    ∃ c rest, isOpening c = true ∧ Passes (.between n) (.between (n + depth)) cs (c :: rest)
  | .tooManyDigits count =>
    ∃ digits rest k, digits.length = count ∧ 4300 < count ∧
      (∀ c ∈ digits, isAsciiDigit c = true) ∧ Passes (.between n) (.between k) cs (digits ++ rest)
  | _ => True

/-- Whether a flaw is that a limit of the reader is exceeded. -/
def Flaw.isLimit : Flaw → Bool
  | .tooDeep _ | .tooManyDigits _ => true
  | _ => false

theorem blamed_of_isLimit {depth : Nat} {flaw : Flaw} (h : flaw.isLimit = false) :
    Blamed n depth cs flaw := by
  cases flaw with
  | tooDeep inObject => cases h
  | tooManyDigits count => cases h
  | _ => trivial

/-- What is said of a later part of a text is said of the text. -/
theorem Blamed.trans {depth depth' : Nat} {flaw : Flaw}
    (h : Passes (.between n) (.between k) cs rest) (hblamed : Blamed k depth' rest flaw)
    (hdepth : k + depth' = n + depth) : Blamed n depth cs flaw := by
  cases flaw with
  | tooDeep inObject =>
      obtain ⟨c, rest', hopening, hrest⟩ := hblamed
      rw [hdepth] at hrest
      exact ⟨c, rest', hopening, h.trans hrest⟩
  | tooManyDigits count =>
      obtain ⟨digits, rest', l, hlength, hlong, hdigits, hrest⟩ := hblamed
      exact ⟨digits, rest', l, hlength, hlong, hdigits, h.trans hrest⟩
  | _ => trivial

/-- What a reader does with a text: it takes its front, or blames it. -/
def Accounts {α : Type} (n k depth : Nat) (cs : List Char) : Except Fault (α × Cursor) → Prop
  | .ok (_, behind) => Passes (.between n) (.between k) cs behind.rest
  | .error fault => Blamed n depth cs fault.flaw

theorem Accounts.trans {α : Type} {depth depth' : Nat} {outcome : Except Fault (α × Cursor)}
    (h : Passes (.between n) (.between k) cs rest) (haccounts : Accounts k l depth' rest outcome)
    (hdepth : k + depth' = n + depth) : Accounts n l depth cs outcome := by
  cases outcome with
  | ok found => exact h.trans haccounts
  | error fault => exact Blamed.trans h haccounts hdepth

/-! ## Strings -/

theorem passes_plain (hquote : c ≠ '"') (hbackslash : c ≠ '\\') :
    Passes (.inString n) (.inString n) (c :: rest) rest := by
  apply Passes.step
  simp [Standing.inString, Standing.next, hquote, hbackslash]

theorem passes_escape (c : Char) (rest : List Char) :
    Passes (.inString n) (.inString n) ('\\' :: c :: rest) rest := ⟨['\\', c], rfl, rfl⟩

theorem passes_hexValue? {value : Nat} (h : hexValue? c = some value) :
    Passes (.inString n) (.inString n) (c :: rest) rest := by
  apply passes_plain
  · rintro rfl
    cases h
  · rintro rfl
    cases h

/-- The escape of a code is a part of a string. -/
theorem passes_hexNumber? {a b c d : Char} {code : Nat} (h : hexNumber? a b c d = some code) :
    Passes (.inString n) (.inString n) ('\\' :: 'u' :: a :: b :: c :: d :: rest) rest := by
  simp only [hexNumber?, Option.bind_eq_bind, Option.bind_eq_some_iff] at h
  obtain ⟨_, ha, _, hb, _, hc, _, hd, -⟩ := h
  have hlast : Passes (.inString n) (.inString n) (d :: rest) rest := passes_hexValue? hd
  have hdigits := (passes_hexValue? ha).trans ((passes_hexValue? hb).trans
    ((passes_hexValue? hc).trans hlast))
  exact (passes_escape 'u' _).trans hdigits

theorem passes_escapeAhead {code : Nat} (h : escapeAhead cs = .ok (some code)) :
    Passes (.inString n) (.inString n) cs (cs.drop 6) := by
  unfold escapeAhead at h
  split at h
  · split at h
    · cases h
    · rename_i hcode
      exact passes_hexNumber? hcode
  · cases h

/-- What the reader of strings does behind an opening quote: it goes behind the closing quote, or finds a
flaw that has nothing to do with a limit. -/
def TakesString (n : Nat) (cs : List Char) : Except Fault (List Char × Cursor) → Prop
  | .ok (_, behind) => Passes (.inString n) (.between n) cs behind.rest
  | .error fault => fault.flaw.isLimit = false

theorem TakesString.trans {outcome : Except Fault (List Char × Cursor)}
    (h : Passes (.inString n) (.inString n) cs rest) (htakes : TakesString n rest outcome) :
    TakesString n cs outcome := by
  cases outcome with
  | ok found => exact Passes.trans h htakes
  | error fault => exact htakes

theorem takesString_readString (dialect : Dialect) (start : Nat) (read : List Char) (place : Nat)
    (cs : List Char) : TakesString n cs (readString dialect start read place cs) := by
  fun_induction readString dialect start read place cs with
  | case1 => rfl
  | case2 read place rest => exact Passes.step rfl
  | case3 => rfl
  | case4 => rfl
  | case5 => rfl
  | case6 read place a b c d e rest code hcode ahead hahead low hlow _ ih =>
      -- the second half of a character is an escape of its own
      obtain ⟨rfl, -⟩ := Option.filter_eq_some_iff.1 hlow
      split at hahead
      · exact TakesString.trans ((passes_hexNumber? hcode).trans (passes_escapeAhead hahead)) ih
      · cases hahead
  | case7 => rfl
  | case8 read place a b c d e rest code hcode ahead hahead hnone ch hch ih =>
      exact TakesString.trans (passes_hexNumber? hcode) ih
  | case9 => rfl
  | case10 => rfl
  | case11 read place c rest _ _ ch hch ih => exact TakesString.trans (passes_escape c rest) ih
  | case12 => rfl
  | case13 read place c rest hquote halone _ hescape _ ih =>
      have hbackslash : c ≠ '\\' := by
        rintro rfl
        cases rest with
        | nil => exact halone rfl rfl
        | cons next rest => exact hescape next rest rfl rfl
      exact TakesString.trans (passes_plain hquote hbackslash) ih

/-! ## Numbers and words -/

theorem passes_digits {digits : List Char} (h : ∀ c ∈ digits, isAsciiDigit c = true) :
    Passes (.between n) (.between n) (digits ++ rest) rest :=
  passes_all_quiet fun c hc => quiet_of_isAsciiDigit (h c hc)

/-- The digits at the front of a text. -/
theorem passes_takeWhile (cs : List Char) :
    Passes (.between n) (.between n) cs (cs.drop (cs.takeWhile isAsciiDigit).length) := by
  have hsplit := List.prefix_iff_eq_append.1 (List.takeWhile_prefix isAsciiDigit (l := cs))
  have hall : ∀ c ∈ cs.takeWhile isAsciiDigit, isAsciiDigit c = true :=
    List.all_eq_true.1 List.all_takeWhile
  have hpasses : Passes (.between n) (.between n)
      (cs.takeWhile isAsciiDigit ++ cs.drop (cs.takeWhile isAsciiDigit).length)
      (cs.drop (cs.takeWhile isAsciiDigit).length) := passes_digits hall
  rwa [hsplit] at hpasses

theorem append_of_readWhole {whole : List Char} (h : readWhole cs = some (whole, rest)) :
    whole ++ rest = cs := by
  unfold readWhole at h
  split at h
  · cases h
    rfl
  · dsimp only at h
    split at h
    · cases h
    · cases h
      exact List.prefix_iff_eq_append.1 (List.takeWhile_prefix isAsciiDigit)

theorem passes_readFraction (cs : List Char) :
    Passes (.between n) (.between n) cs (readFraction cs).2 := by
  unfold readFraction
  split
  · rename_i cs
    dsimp only
    split
    · exact .refl _ _
    · exact (passes_quiet ⟨by decide, rfl, rfl⟩).trans (passes_takeWhile cs)
  · exact .refl _ _

theorem passes_readExponent (cs : List Char) :
    Passes (.between n) (.between n) cs (readExponent cs).2 := by
  unfold readExponent
  split
  · rename_i e rest
    split
    · rename_i hletter
      have he : Passes (.between n) (.between n) (e :: rest) rest := by
        simp only [Bool.or_eq_true, beq_iff_eq] at hletter
        rcases hletter with rfl | rfl <;> exact passes_quiet ⟨by decide, rfl, rfl⟩
      -- a sign may stand in front of the digits
      split
      rename_i negative digits hsign
      have hdigits : Passes (.between n) (.between n) rest digits := by
        split at hsign
        · cases hsign
          exact passes_quiet ⟨by decide, rfl, rfl⟩
        · cases hsign
          exact passes_quiet ⟨by decide, rfl, rfl⟩
        · cases hsign
          exact .refl _ _
      dsimp only
      split
      · exact .refl _ _
      · exact (he.trans hdigits).trans (passes_takeWhile digits)
    · exact .refl _ _
  · exact .refl _ _

/-- The reader of numbers takes a number, or blames the text for too many digits. -/
theorem accounts_readNumber (n depth : Nat) (at_ : Cursor) :
    Accounts n n depth at_.rest (readNumber at_) := by
  unfold readNumber
  split
  rename_i negative cs hsign
  have hcs : Passes (.between n) (.between n) at_.rest cs := by
    split at hsign
    · rename_i heq
      cases hsign
      rw [heq]
      exact passes_quiet ⟨by decide, rfl, rfl⟩
    · cases hsign
      exact .refl _ _
  split
  · trivial
  · rename_i whole rest hwhole
    have hdigits := digits_of_readWhole hwhole
    have hsplit := append_of_readWhole hwhole
    have hrest : Passes (.between n) (.between n) cs rest := by
      rw [← hsplit]
      exact passes_digits hdigits
    dsimp only
    split
    · rename_i hlong
      simp only [Bool.and_eq_true, decide_eq_true_eq] at hlong
      refine ⟨whole, rest, n, rfl, hlong.2, hdigits, ?_⟩
      rw [hsplit]
      exact hcs
    · exact (hcs.trans hrest).trans ((passes_readFraction rest).trans (passes_readExponent _))

theorem accounts_readScalar (n depth : Nat) (at_ : Cursor) :
    Accounts n n depth at_.rest (readScalar at_) := by
  unfold readScalar
  split
  · rename_i word value hword
    have hmem := List.mem_of_find?_eq_some hword
    have hfront : word.toList <+: at_.rest := by
      simpa using List.find?_some hword
    have hquiet : ∀ c ∈ word.toList, Quiet c := by
      have hall : words.all (fun entry => entry.1.toList.all fun c =>
          c != '"' && !isOpening c && !isClosing c) = true := rfl
      intro c hc
      have hplain := List.all_eq_true.1 (List.all_eq_true.1 hall _ hmem) c hc
      simpa [Quiet, and_assoc] using hplain
    obtain ⟨behind, hbehind⟩ := hfront
    have hskip : (at_.skip word.length).rest = behind := by
      rw [Cursor.skip, ← hbehind, ← String.length_toList, List.drop_left]
    show Passes _ _ at_.rest (at_.skip word.length).rest
    rw [hskip, ← hbehind]
    exact passes_all_quiet hquiet
  · exact accounts_readNumber n depth at_

/-! ## Values -/

/-- What the three readers do with some fuel; those of items and fields begin behind an opening bracket and
end behind the closing one. -/
structure AccountsWith (dialect : Dialect) (fuel : Nat) : Prop where
  value : ∀ n depth at_, 2 * at_.rest.length + 1 ≤ fuel →
    Accounts n n depth at_.rest (readValue dialect fuel depth at_)
  items : ∀ n depth read at_, 2 * at_.rest.length + 2 ≤ fuel →
    Accounts (n + 1) n depth at_.rest (readItems dialect fuel depth read at_)
  fields : ∀ n depth read at_, 2 * at_.rest.length + 2 ≤ fuel →
    Accounts (n + 1) n depth at_.rest (readFields dialect fuel depth read at_)

theorem accountsWith_zero {dialect : Dialect} : AccountsWith dialect 0 where
  value n depth at_ hfuel := by omega
  items n depth read at_ hfuel := by omega
  fields n depth read at_ hfuel := by omega

theorem passes_cursor_skipSpace (at_ : Cursor) :
    Passes (.between n) (.between n) at_.rest at_.skipSpace.rest := passes_skipSpace at_.place

theorem rest_skip {at_ : Cursor} (h : at_.rest = c :: cs) : (at_.skip 1).rest = cs := by
  rw [Cursor.skip, h]
  rfl

theorem passes_skip {at_ : Cursor} (h : at_.rest = c :: cs)
    (hc : ∀ rest, Passes (.between n) (.between k) (c :: rest) rest) :
    Passes (.between n) (.between k) at_.rest (at_.skip 1).rest := by
  rw [rest_skip h, h]
  exact hc cs

/-- A reader goes on behind a character and the spaces that follow it, and less of the text is left. -/
theorem passes_past {at_ : Cursor} (h : at_.rest = c :: cs)
    (hc : ∀ rest, Passes (.between n) (.between k) (c :: rest) rest) :
    Passes (.between n) (.between k) at_.rest (at_.skip 1).skipSpace.rest ∧
      (at_.skip 1).skipSpace.rest.length + 1 ≤ at_.rest.length := by
  have hspace := passes_cursor_skipSpace (n := k) (at_.skip 1)
  refine ⟨(passes_skip h hc).trans hspace, ?_⟩
  have hlength := hspace.length_le
  rw [rest_skip h] at hlength
  rw [h, List.length_cons]
  exact Nat.succ_le_succ hlength

theorem passes_comma (rest : List Char) : Passes (.between n) (.between n) (',' :: rest) rest :=
  passes_quiet ⟨by decide, rfl, rfl⟩

theorem passes_colon (rest : List Char) : Passes (.between n) (.between n) (':' :: rest) rest :=
  passes_quiet ⟨by decide, rfl, rfl⟩

/-- Behind an opening bracket a reader accounts for what is inside, if one more bracket is allowed. -/
theorem accounts_opened {α : Type} {depth place : Nat} {inObject : Bool} {at_ : Cursor}
    {outcome : Except Fault (α × Cursor)} (h : at_.rest = c :: cs) (hopening : isOpening c = true)
    (hinside : depth ≠ 0 → Accounts (n + 1) n (depth - 1) (at_.skip 1).skipSpace.rest outcome) :
    Accounts n n depth at_.rest
      (if depth == 0 then .error ⟨.tooDeep inObject, place⟩ else outcome) := by
  obtain ⟨hpasses, -⟩ := passes_past (n := n) h fun _ => passes_opening hopening
  by_cases hdepth : depth = 0
  · subst hdepth
    rw [if_pos (beq_self_eq_true 0), h]
    exact ⟨c, cs, hopening, .refl _ _⟩
  · rw [if_neg (by simpa using hdepth)]
    exact (hinside hdepth).trans hpasses (by omega)

theorem accounts_value {dialect : Dialect} {fuel : Nat} (ih : AccountsWith dialect fuel)
    (n depth : Nat) (at_ : Cursor) (hfuel : 2 * at_.rest.length + 1 ≤ fuel + 1) :
    Accounts n n depth at_.rest (readValue dialect (fuel + 1) depth at_) := by
  rw [readValue]
  split
  -- the end of the text
  · trivial
  -- a string
  · rename_i rest hrest
    have htakes := takesString_readString (n := n) dialect at_.place [] (at_.place + 1) rest
    rw [hrest]
    cases hread : readString dialect at_.place [] (at_.place + 1) rest with
    | error fault =>
        rw [hread] at htakes
        exact blamed_of_isLimit htakes
    | ok found =>
        rw [hread] at htakes
        exact passes_quote.trans htakes
  -- a list
  · rename_i rest hrest
    have hlength := (passes_past (n := n) hrest fun _ => passes_opening rfl).2
    refine accounts_opened hrest rfl fun _ => ?_
    dsimp only
    split
    · rename_i hclosing
      exact passes_skip hclosing fun _ => passes_closing rfl
    · exact ih.items n (depth - 1) [] _ (by omega)
  -- an object
  · rename_i rest hrest
    have hlength := (passes_past (n := n) hrest fun _ => passes_opening rfl).2
    refine accounts_opened hrest rfl fun _ => ?_
    dsimp only
    split
    · rename_i hclosing
      exact passes_skip hclosing fun _ => passes_closing rfl
    · exact ih.fields n (depth - 1) [] _ (by omega)
  -- a word or a number
  · exact accounts_readScalar n depth at_

theorem accounts_items {dialect : Dialect} {fuel : Nat} (ih : AccountsWith dialect fuel)
    (n depth : Nat) (read : List Json) (at_ : Cursor) (hfuel : 2 * at_.rest.length + 2 ≤ fuel + 1) :
    Accounts (n + 1) n depth at_.rest (readItems dialect (fuel + 1) depth read at_) := by
  rw [readItems]
  have hvalue := ih.value (n + 1) depth at_ (by omega)
  split
  · rename_i fault hfault
    rw [hfault] at hvalue
    exact hvalue
  · rename_i value behind hread
    rw [hread] at hvalue
    have hbehind : Passes (.between (n + 1)) (.between (n + 1)) at_.rest behind.skipSpace.rest :=
      Passes.trans hvalue (passes_cursor_skipSpace behind)
    have hlength := hbehind.length_le
    dsimp only
    -- behind an item there is a closing bracket, or a comma, or something else
    split
    · rename_i hclosing
      exact hbehind.trans (passes_skip hclosing fun _ => passes_closing rfl)
    · rename_i hcomma
      obtain ⟨hnext, hless⟩ := passes_past (n := n + 1) hcomma passes_comma
      exact (ih.items n depth _ _ (by omega)).trans (hbehind.trans hnext) rfl
    · trivial

theorem accounts_fields {dialect : Dialect} {fuel : Nat} (ih : AccountsWith dialect fuel)
    (n depth : Nat) (read : List (String × Json)) (at_ : Cursor)
    (hfuel : 2 * at_.rest.length + 2 ≤ fuel + 1) :
    Accounts (n + 1) n depth at_.rest (readFields dialect (fuel + 1) depth read at_) := by
  rw [readFields]
  -- a field has a key, a colon and a value, each of which may be missing
  split
  · rename_i rest hrest
    have htakes := takesString_readString (n := n + 1) dialect at_.place [] (at_.place + 1) rest
    split
    · rename_i fault hfault
      rw [hfault] at htakes
      exact blamed_of_isLimit htakes
    · rename_i key behind hread
      rw [hread] at htakes
      have hkey : Passes (.between (n + 1)) (.between (n + 1)) at_.rest behind.skipSpace.rest := by
        rw [hrest]
        exact (passes_quote.trans htakes).trans (passes_cursor_skipSpace behind)
      have hlength := hkey.length_le
      dsimp only
      split
      · rename_i hcolon
        obtain ⟨hbefore, hless⟩ := passes_past (n := n + 1) hcolon passes_colon
        have hvalue := ih.value (n + 1) depth (behind.skipSpace.skip 1).skipSpace (by omega)
        split
        · rename_i fault hfault
          rw [hfault] at hvalue
          exact Blamed.trans (hkey.trans hbefore) hvalue rfl
        · rename_i value after hread'
          rw [hread'] at hvalue
          have hafter : Passes (.between (n + 1)) (.between (n + 1)) at_.rest
              after.skipSpace.rest :=
            ((hkey.trans hbefore).trans hvalue).trans (passes_cursor_skipSpace after)
          have hlength' := hafter.length_le
          split
          · rename_i hclosing
            exact hafter.trans (passes_skip hclosing fun _ => passes_closing rfl)
          · rename_i hcomma
            obtain ⟨hnext, hless'⟩ := passes_past (n := n + 1) hcomma passes_comma
            exact (ih.fields n depth _ _ (by omega)).trans (hafter.trans hnext) rfl
          · trivial
      · trivial
  · trivial

/-- What is blamed on a text that was refused, and what is said of the whole text. -/
theorem blamed_of_read {dialect : Dialect} {text : List Char} {fault : Fault}
    (h : read dialect text = .error fault) : Blamed 0 dialect.maxDepth text fault.flaw := by
  have hall : ∀ fuel, AccountsWith dialect fuel := by
    intro fuel
    induction fuel with
    | zero => exact accountsWith_zero
    | succ fuel ih => exact ⟨accounts_value ih, accounts_items ih, accounts_fields ih⟩
  unfold read at h
  split at h
  · cases h
    trivial
  · have hspace : Passes (.between 0) (.between 0) text (skipSpaceFrom 0 text).rest :=
      passes_skipSpace 0
    have hlength := hspace.length_le
    have hvalue := (hall (2 * text.length + 2)).value 0 dialect.maxDepth (skipSpaceFrom 0 text)
      (by omega)
    split at h
    · rename_i found hfound
      cases h
      rw [hfound] at hvalue
      exact Blamed.trans hspace hvalue rfl
    · dsimp only at h
      split at h
      · cases h
      · cases h
        trivial

/-! ## Texts beyond the limits -/

/-- Somewhere in a text an opening bracket stands where `limit` brackets are open. -/
def NestsBeyond (limit : Nat) (text : List Char) : Prop :=
  ∃ front c rest, text = front ++ c :: rest ∧ isOpening c = true ∧
    standing {} front = ⟨.between, limit⟩

/-- Somewhere in a text, outside of strings, more than `limit` digits stand in a row. -/
def CountsBeyond (limit : Nat) (text : List Char) : Prop :=
  ∃ front digits rest, text = front ++ digits ++ rest ∧ (∀ c ∈ digits, isAsciiDigit c = true) ∧
    limit < digits.length ∧ (standing {} front).zone = .between

theorem nestsBeyond_of_read {dialect : Dialect} {text : List Char} {place : Nat} {inObject : Bool}
    (h : read dialect text = .error ⟨.tooDeep inObject, place⟩) :
    NestsBeyond dialect.maxDepth text := by
  obtain ⟨c, rest, hopening, front, hsplit, hstanding⟩ := blamed_of_read h
  rw [Nat.zero_add] at hstanding
  exact ⟨front, c, rest, hsplit, hopening, hstanding⟩

theorem countsBeyond_of_read {dialect : Dialect} {text : List Char} {place count : Nat}
    (h : read dialect text = .error ⟨.tooManyDigits count, place⟩) : CountsBeyond 4300 text := by
  obtain ⟨digits, rest, k, rfl, hlong, hdigits, front, hsplit, hstanding⟩ := blamed_of_read h
  refine ⟨front, digits, rest, ?_, hdigits, hlong, ?_⟩
  · rw [List.append_assoc]
    exact hsplit
  · exact congrArg Standing.zone hstanding

end Runbook.Json
