import Mathlib.Tactic.Common
import Runbook.Proofs.Text.AnyBytes
import Runbook.Text.Lines

/-!
# Lines of texts and of bytes

The lines of a text whose line ends are line feeds are free of them and make up the text again
(`linesOf_splitFeeds`); with line ends of all kinds turned into line feeds, they are free of carriage
returns as well. Line feeds and carriage returns are bytes of their own, which no character that takes
several bytes contains and no faulty part reaches across (`decodeLossyFrom_append`); so bytes can be cut
into lines before they are read as characters (`byteLines_feed` and those beside it).
-/

set_option autoImplicit false

namespace Runbook.Text

/-! ## Lines of a text -/

/-- Whether lines are those of a text whose line ends are line feeds: with a line feed behind each of
them they are the text, or the text with the line feed that its last line lacks. -/
structure LinesOf (text : List Char) (lines : List (List Char)) : Prop where
  plain : ∀ line ∈ lines, '\n' ∉ line
  whole : lines.flatMap (· ++ ['\n']) =
    if text = [] ∨ text.getLast? = some '\n' then text else text ++ ['\n']

theorem LinesOf.nil : LinesOf [] [] where
  plain := List.forall_mem_nil _
  whole := rfl

theorem LinesOf.last {line : List Char} (hline : '\n' ∉ line) (hne : line ≠ []) :
    LinesOf line [line] where
  plain := List.forall_mem_singleton.2 hline
  whole := by
    have hend : line.getLast? ≠ some '\n' := by
      intro hlast
      exact hline (List.mem_of_getLast? hlast)
    rw [if_neg (not_or.2 ⟨hne, hend⟩), List.flatMap_singleton]

theorem LinesOf.cons {line text : List Char} {lines : List (List Char)} (hline : '\n' ∉ line)
    (h : LinesOf text lines) : LinesOf (line ++ '\n' :: text) (line :: lines) where
  plain := List.forall_mem_cons.2 ⟨hline, h.plain⟩
  whole := by
    have hend : (line ++ '\n' :: text = [] ∨ (line ++ '\n' :: text).getLast? = some '\n') ↔
        (text = [] ∨ text.getLast? = some '\n') := by
      cases text with
      | nil => simp
      | cons c text => simp [List.getLast?_cons_cons]
    rw [List.flatMap_cons, h.whole]
    simp only [hend]
    split <;> simp

/-- A line up to its line feed is split off. -/
theorem splitFeedsFrom_line {line : List Char} (hline : '\n' ∉ line) (current rest : List Char) :
    splitFeedsFrom current (line ++ '\n' :: rest) =
      (current.reverse ++ line) :: splitFeedsFrom [] rest := by
  induction line generalizing current with
  | nil => rw [List.nil_append, splitFeedsFrom, List.append_nil]
  | cons c line ih =>
      obtain ⟨hc, hline⟩ := List.ne_and_not_mem_of_not_mem_cons hline
      rw [List.cons_append, splitFeedsFrom, ih hline, List.reverse_cons, List.append_assoc,
        List.singleton_append]
      exact Ne.symm hc

theorem splitFeedsFrom_rest {line : List Char} (hline : '\n' ∉ line) (current : List Char) :
    splitFeedsFrom current line =
      if (current.reverse ++ line).isEmpty then [] else [current.reverse ++ line] := by
  induction line generalizing current with
  | nil => simp [splitFeedsFrom]
  | cons c line ih =>
      obtain ⟨hc, hline⟩ := List.ne_and_not_mem_of_not_mem_cons hline
      rw [splitFeedsFrom, ih hline, List.reverse_cons, List.append_assoc, List.singleton_append]
      exact Ne.symm hc

theorem splitFeeds_line {line : List Char} (hline : '\n' ∉ line) (rest : List Char) :
    splitFeeds (line ++ '\n' :: rest) = line :: splitFeeds rest := splitFeedsFrom_line hline [] rest

theorem splitFeeds_rest {line : List Char} (hline : '\n' ∉ line) (hne : line ≠ []) :
    splitFeeds line = [line] := by
  rw [splitFeeds, splitFeedsFrom_rest hline, if_neg (by simpa using hne)]
  rfl

/-- A text has a first line with its line feed, or no line feed. -/
theorem exists_line (text : List Char) :
    (∃ line rest, '\n' ∉ line ∧ text = line ++ '\n' :: rest ∧ rest.length < text.length) ∨
      '\n' ∉ text := by
  by_cases hmem : '\n' ∈ text
  · obtain ⟨line, rest, htext, hline⟩ := List.eq_append_cons_of_mem hmem
    refine .inl ⟨line, rest, hline, htext, ?_⟩
    rw [htext, List.length_append, List.length_cons]
    omega
  · exact .inr hmem

theorem linesOf_splitFeeds (text : List Char) : LinesOf text (splitFeeds text) := by
  -- by induction on the length of the text, from its first line on
  induction hlength : text.length using Nat.strongRecOn generalizing text with
  | ind n ih =>
      rcases exists_line text with ⟨line, rest, hline, rfl, hshorter⟩ | hplain
      · rw [splitFeeds_line hline]
        exact .cons hline (ih rest.length (hlength ▸ hshorter) rest rfl)
      · cases text with
        | nil => exact .nil
        | cons c text =>
            rw [splitFeeds_rest hplain (List.cons_ne_nil c text)]
            exact .last hplain (List.cons_ne_nil c text)

/-! ## Line ends of all kinds -/

theorem return_notMem_normalizeNewlines (cs : List Char) : '\r' ∉ normalizeNewlines cs := by
  induction cs using normalizeNewlines.induct with
  | case1 => exact List.not_mem_nil
  | case2 rest ih =>
      rw [normalizeNewlines, List.mem_cons, not_or]
      exact ⟨by decide, ih⟩
  | case3 rest hnot ih =>
      rw [normalizeNewlines, List.mem_cons, not_or]
      · exact ⟨by decide, ih⟩
      · exact hnot
  | case4 c rest hpair hreturn ih =>
      rw [normalizeNewlines, List.mem_cons, not_or]
      · exact ⟨fun h => hreturn h.symm, ih⟩
      all_goals assumption

/-- Whether characters belong to one line. -/
def OneLine (cs : List Char) : Prop := ∀ c ∈ cs, c ≠ '\n' ∧ c ≠ '\r'

theorem OneLine.feed_notMem {cs : List Char} (h : OneLine cs) : '\n' ∉ cs :=
  fun hmem => (h _ hmem).1 rfl

theorem OneLine.reverse {cs : List Char} (h : OneLine cs) : OneLine cs.reverse := by
  intro c hc
  exact h c (List.mem_reverse.1 hc)

theorem normalizeNewlines_append {line : List Char} (h : OneLine line) (rest : List Char) :
    normalizeNewlines (line ++ rest) = line ++ normalizeNewlines rest := by
  induction line with
  | nil => rfl
  | cons c line ih =>
      obtain ⟨hc, hline⟩ := List.forall_mem_cons.1 h
      rw [List.cons_append, normalizeNewlines, ih hline, List.cons_append]
      · rintro _ rfl
        exact absurd rfl hc.2
      · exact hc.2

/-- The lines of a text with line ends of all kinds are free of both characters that end a line. -/
theorem oneLine_of_mem_splitLines {cs line : List Char} (h : line ∈ splitLines cs) :
    OneLine line := by
  have hlines := linesOf_splitFeeds (normalizeNewlines cs)
  have hmem : ∀ c ∈ line, c ∈ normalizeNewlines cs ∨ c = '\n' := by
    intro c hc
    have hflat : c ∈ (splitLines cs).flatMap (· ++ ['\n']) :=
      List.mem_flatMap.2 ⟨line, h, List.mem_append_left _ hc⟩
    rw [splitLines, hlines.whole] at hflat
    split at hflat
    · exact .inl hflat
    · rwa [List.mem_append, List.mem_singleton] at hflat
  intro c hc
  have hfeed : c ≠ '\n' := by
    rintro rfl
    exact hlines.plain line h hc
  refine ⟨hfeed, ?_⟩
  rintro rfl
  exact return_notMem_normalizeNewlines cs ((hmem _ hc).resolve_right hfeed)

theorem splitLines_feed {line : List Char} (h : OneLine line) (rest : List Char) :
    splitLines (line ++ '\n' :: rest) = line :: splitLines rest := by
  have hfeed : normalizeNewlines ('\n' :: rest) = '\n' :: normalizeNewlines rest := by
    rw [normalizeNewlines]
    · rintro _ ⟨⟩
    · rintro ⟨⟩
  rw [splitLines, normalizeNewlines_append h, hfeed, splitFeeds_line h.feed_notMem]
  rfl

theorem splitLines_both {line : List Char} (h : OneLine line) (rest : List Char) :
    splitLines (line ++ '\r' :: '\n' :: rest) = line :: splitLines rest := by
  rw [splitLines, normalizeNewlines_append h, normalizeNewlines, splitFeeds_line h.feed_notMem]
  rfl

theorem splitLines_return {line rest : List Char} (h : OneLine line) (hrest : rest.head? ≠ some '\n') :
    splitLines (line ++ '\r' :: rest) = line :: splitLines rest := by
  have hreturn : normalizeNewlines ('\r' :: rest) = '\n' :: normalizeNewlines rest := by
    rw [normalizeNewlines]
    rintro rest rfl
    exact hrest rfl
  rw [splitLines, normalizeNewlines_append h, hreturn, splitFeeds_line h.feed_notMem]
  rfl

theorem splitLines_rest {line : List Char} (h : OneLine line) (hne : line ≠ []) :
    splitLines line = [line] := by
  have hplain := normalizeNewlines_append h []
  rw [List.append_nil, normalizeNewlines, List.append_nil] at hplain
  rw [splitLines, hplain, splitFeeds_rest h.feed_notMem hne]

/-! ## Bytes -/

section Bytes

variable {b : UInt8} {bytes rest more : List UInt8}

theorem secondAllowed_eq_false {x : UInt8} (hx : x.toNat < 0x80) : Utf8.secondAllowed b x = false := by
  rw [Bool.eq_false_iff]
  intro hallowed
  have := (Utf8.follows_of_secondAllowed hallowed).continues.1
  omega

theorem isContinuation_eq_false {x : UInt8} (hx : x.toNat < 0x80) : Utf8.isContinuation x = false := by
  rw [Bool.eq_false_iff]
  intro hcontinues
  have := (Utf8.continues_of_isContinuation hcontinues).1
  omega

/-- Where a faulty part ends is not changed by bytes that do not continue a character. -/
theorem nextScalar_append_flaw_size {why : Utf8.Flaw} {size : Nat} (hmore : Apart more)
    (h : Utf8.nextScalar b rest = .flaw why size) : size ≤ rest.length + 1 ∧
      ∃ why', Utf8.nextScalar b (rest ++ more) = .flaw why' size := by
  have hsecond : ∀ x ∈ more.head?, Utf8.secondAllowed b x = false :=
    fun x hx => secondAllowed_eq_false (hmore x hx)
  have hlater : ∀ x ∈ more.head?, Utf8.isContinuation x = false :=
    fun x hx => isContinuation_eq_false (hmore x hx)
  -- the cases are the bytes that were there before the faulty part ended
  unfold Utf8.nextScalar at h ⊢
  split at h
  case isTrue => cases h
  rename_i hlong
  rw [if_neg hlong]
  split at h
  case isTrue hstart =>
    cases h
    rw [if_pos hstart]
    exact ⟨Nat.le_add_left .., _, rfl⟩
  rename_i hstart
  rw [if_neg hstart]
  cases rest with
  | nil =>
      cases h
      refine ⟨Nat.le_refl _, ?_⟩
      cases more with
      | nil => exact ⟨_, rfl⟩
      | cons x more => exact ⟨.invalidContinuation, by simp [hsecond x rfl]⟩
  | cons c rest =>
      dsimp only [List.cons_append] at h ⊢
      split at h
      case isTrue hc =>
        cases h
        rw [if_pos hc]
        exact ⟨Nat.le_add_left .., _, rfl⟩
      rename_i hc
      rw [if_neg hc]
      split at h
      case isTrue => cases h
      rename_i htwo
      rw [if_neg htwo]
      cases rest with
      | nil =>
          cases h
          refine ⟨Nat.le_refl _, ?_⟩
          cases more with
          | nil => exact ⟨_, rfl⟩
          | cons x more => exact ⟨.invalidContinuation, by simp [hlater x rfl]⟩
      | cons d rest =>
          dsimp only [List.cons_append] at h ⊢
          split at h
          case isTrue hd =>
            cases h
            rw [if_pos hd]
            exact ⟨Nat.le_add_left .., _, rfl⟩
          rename_i hd
          rw [if_neg hd]
          split at h
          case isTrue => cases h
          rename_i hthree
          rw [if_neg hthree]
          cases rest with
          | nil =>
              cases h
              refine ⟨Nat.le_refl _, ?_⟩
              cases more with
              | nil => exact ⟨_, rfl⟩
              | cons x more => exact ⟨.invalidContinuation, by simp [hlater x rfl]⟩
          | cons e rest =>
              dsimp only [List.cons_append] at h ⊢
              split at h
              case isTrue he =>
                cases h
                rw [if_pos he]
                exact ⟨Nat.le_add_left .., _, rfl⟩
              case isFalse => cases h

/-- What is read off bytes is not changed by more bytes that do not continue a character, faulty parts
included. -/
theorem decodeLossyFrom_append (hmore : Apart more) {skip : Nat} (hskip : skip ≤ bytes.length) :
    Utf8.decodeLossyFrom skip (bytes ++ more) =
      Utf8.decodeLossyFrom skip bytes ++ Utf8.decodeLossy more := by
  induction bytes generalizing skip with
  | nil =>
      obtain rfl : skip = 0 := Nat.le_zero.1 hskip
      rfl
  | cons b rest ih =>
      cases skip with
      | succ skip => exact ih (Nat.le_of_succ_le_succ hskip)
      | zero =>
          rw [List.cons_append, Utf8.decodeLossyFrom, Utf8.decodeLossyFrom]
          cases hnext : Utf8.nextScalar b rest with
          | flaw why size =>
              obtain ⟨hsize, why', hflaw⟩ := nextScalar_append_flaw_size hmore hnext
              rw [hflaw]
              dsimp only
              rw [ih (by omega), List.cons_append]
          | scalar ch size =>
              obtain ⟨tail, after, rfl, rfl, hbytes⟩ := Utf8.nextScalar_eq_scalar hnext
              obtain ⟨first, found, hfound, hread⟩ :=
                Utf8.nextScalar_utf8EncodeChar ch (after ++ more)
              rw [hbytes] at hfound
              cases hfound
              rw [List.append_assoc, hread]
              dsimp only
              rw [← List.append_assoc, ih (by simp), List.cons_append]

theorem decodeLossy_append (hmore : Apart more) (bytes : List UInt8) :
    Utf8.decodeLossy (bytes ++ more) = Utf8.decodeLossy bytes ++ Utf8.decodeLossy more :=
  decodeLossyFrom_append hmore (Nat.zero_le _)

theorem decodeLossy_ascii (hb : b.toNat < 0x80) (rest : List UInt8) :
    Utf8.decodeLossy (b :: rest) = Char.ofNat b.toNat :: Utf8.decodeLossy rest := by
  rw [Utf8.decodeLossy, Utf8.decodeLossyFrom, Utf8.nextScalar_one hb]
  rfl

/-- A character among the first 128 that is read first is a byte of its own. -/
theorem eq_of_nextScalar {c : Char} {size : Nat} (hc : IsAscii c)
    (h : Utf8.nextScalar b rest = .scalar c size) : b = UInt8.ofNat c.toNat := by
  obtain ⟨tail, after, -, -, hbytes⟩ := Utf8.nextScalar_eq_scalar h
  have hone : String.utf8EncodeChar c = [UInt8.ofNat c.toNat] := by
    have hlow : (UInt8.ofNat c.toNat).toNat < 0x80 := by
      rw [Utf8.toNat_ofNat (Nat.lt_trans hc (by decide))]
      exact hc
    have hencoded := Utf8.utf8EncodeChar_one hlow
    rwa [Utf8.toNat_ofNat (Nat.lt_trans hc (by decide)), Char.ofNat_toNat] at hencoded
  rw [hone] at hbytes
  exact (List.cons.inj hbytes).1.symm

/-- Whether bytes belong to one line. -/
def OneByteLine (bytes : List UInt8) : Prop := ∀ b ∈ bytes, b ≠ 0x0A ∧ b ≠ 0x0D

theorem oneLine_decodeLossyFrom (h : OneByteLine bytes) (skip : Nat) :
    OneLine (Utf8.decodeLossyFrom skip bytes) := by
  induction bytes generalizing skip with
  | nil => exact List.forall_mem_nil _
  | cons b rest ih =>
      obtain ⟨hb, hrest⟩ := List.forall_mem_cons.1 h
      cases skip with
      | succ skip => exact ih hrest skip
      | zero =>
          rw [Utf8.decodeLossyFrom]
          cases hnext : Utf8.nextScalar b rest with
          | flaw why size =>
              exact List.forall_mem_cons.2 ⟨⟨by decide, by decide⟩, ih hrest _⟩
          | scalar c size =>
              refine List.forall_mem_cons.2 ⟨⟨?_, ?_⟩, ih hrest _⟩
              · rintro rfl
                exact hb.1 (eq_of_nextScalar (by decide) hnext)
              · rintro rfl
                exact hb.2 (eq_of_nextScalar (by decide) hnext)

theorem oneLine_decodeLossy (h : OneByteLine bytes) : OneLine (Utf8.decodeLossy bytes) :=
  oneLine_decodeLossyFrom h 0

theorem head?_decodeLossy (h : rest.head? ≠ some 0x0A) :
    (Utf8.decodeLossy rest).head? ≠ some '\n' := by
  cases rest with
  | nil =>
      intro hhead
      cases hhead
  | cons b rest =>
      rw [Utf8.decodeLossy, Utf8.decodeLossyFrom]
      cases hnext : Utf8.nextScalar b rest with
      | flaw why size =>
          intro hhead
          cases hhead
      | scalar c size =>
          intro hhead
          cases hhead
          exact h (congrArg some (eq_of_nextScalar (by decide) hnext))

theorem decodeLossy_ne_nil (h : bytes ≠ []) : Utf8.decodeLossy bytes ≠ [] := by
  cases bytes with
  | nil => exact absurd rfl h
  | cons b rest =>
      rw [Utf8.decodeLossy, Utf8.decodeLossyFrom]
      cases Utf8.nextScalar b rest <;> exact List.cons_ne_nil _ _

theorem apart_cons (hb : b.toNat < 0x80) (rest : List UInt8) : Apart (b :: rest) := by
  rintro b ⟨⟩
  exact hb

/-- The lines of bytes. -/
def byteLines (bytes : List UInt8) : List (List Char) := splitLines (Utf8.decodeLossy bytes)

theorem byteLines_feed (h : OneByteLine bytes) (rest : List UInt8) :
    byteLines (bytes ++ 0x0A :: rest) = Utf8.decodeLossy bytes :: byteLines rest := by
  rw [byteLines, decodeLossy_append (apart_cons (by decide) rest), decodeLossy_ascii (by decide)]
  exact splitLines_feed (oneLine_decodeLossy h) _

theorem byteLines_both (h : OneByteLine bytes) (rest : List UInt8) :
    byteLines (bytes ++ 0x0D :: 0x0A :: rest) = Utf8.decodeLossy bytes :: byteLines rest := by
  rw [byteLines, decodeLossy_append (apart_cons (by decide) _), decodeLossy_ascii (by decide),
    decodeLossy_ascii (by decide)]
  exact splitLines_both (oneLine_decodeLossy h) _

theorem byteLines_return (h : OneByteLine bytes) (hrest : rest.head? ≠ some 0x0A) :
    byteLines (bytes ++ 0x0D :: rest) = Utf8.decodeLossy bytes :: byteLines rest := by
  rw [byteLines, decodeLossy_append (apart_cons (by decide) rest), decodeLossy_ascii (by decide)]
  exact splitLines_return (oneLine_decodeLossy h) (head?_decodeLossy hrest)

theorem byteLines_rest (h : OneByteLine bytes) (hne : bytes ≠ []) :
    byteLines bytes = [Utf8.decodeLossy bytes] :=
  splitLines_rest (oneLine_decodeLossy h) (decodeLossy_ne_nil hne)

end Bytes

end Runbook.Text
