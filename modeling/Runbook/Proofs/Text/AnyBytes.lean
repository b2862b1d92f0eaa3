import Runbook.Proofs.Text.Utf8
import Runbook.Text.AnyBytes

/-!
# Texts that stand for any bytes

Bytes are shown as a text that stands for the same bytes (`encodeAny_decodeAny`), so different bytes
are shown differently. Which of the first 128 characters a text has is told by its bytes
(`mem_encodeAny_iff`), and what is read off bytes that go on with such characters is read as it would
be without them (`decodeAnyFrom_append`).
-/

set_option autoImplicit false

namespace Runbook.Text

/-- Whether a character is one of the first 128, which are single bytes. -/
def IsAscii (c : Char) : Prop := c.toNat < 0x80

instance (c : Char) : Decidable (IsAscii c) := inferInstanceAs (Decidable (c.toNat < 0x80))

variable {c : Char} {b : UInt8} {rest more : List UInt8}

theorem isAscii_of_all {cs : List Char} (h : (cs.all fun c => decide (IsAscii c)) = true) :
    ∀ c ∈ cs, IsAscii c := by
  simpa using h

theorem halfCode?_of_isAscii (h : IsAscii c) : halfCode? c = none := by
  have hlow : ¬(0x10D800 ≤ c.toNat && c.toNat ≤ 0x10DFFF) = true := by
    unfold IsAscii at h
    simp only [Bool.and_eq_true, decide_eq_true_eq]
    omega
  rw [halfCode?, if_neg hlow]

theorem strayByte?_of_halfCode? (h : halfCode? c = none) : strayByte? c = none := by
  rw [strayByte?, h]

theorem charBytes_of_strayByte? (h : strayByte? c = none) :
    charBytes c = String.utf8EncodeChar c := by
  rw [charBytes, h]

theorem charBytes_of_isAscii (h : IsAscii c) : charBytes c = [UInt8.ofNat c.toNat] := by
  rw [charBytes_of_strayByte? (strayByte?_of_halfCode? (halfCode?_of_isAscii h)),
    String.utf8EncodeChar]
  exact if_pos (Nat.le_of_lt_succ h)

theorem firstHalf?_eq_none_iff {cs : List Char} :
    firstHalf? cs = none ↔ ∀ c ∈ cs, halfCode? c = none := by
  induction cs with
  | nil => exact ⟨fun _ _ h => (nomatch h), fun _ => rfl⟩
  | cons c cs ih =>
      rw [List.forall_mem_cons, ← ih, firstHalf?]
      cases halfCode? c with
      | some code => exact ⟨fun h => (nomatch h), fun h => nomatch h.1⟩
      | none => simp

/-! ## What is shown stands for the same bytes -/

theorem strayByte?_strayChar (h : 0x80 ≤ b.toNat) : strayByte? (strayChar b) = some b := by
  have hbyte : b.toNat < 256 := b.toNat_lt
  have hcode : (strayChar b).toNat = 0x10DC00 + b.toNat := by
    rw [strayChar, halfChar, ← Nat.add_assoc]
    exact Utf8.toNat_val_ofNat (by omega)
  have hhalf : halfCode? (strayChar b) = some (0xDC00 + b.toNat) := by
    rw [halfCode?, hcode, if_pos (by simp only [Bool.and_eq_true, decide_eq_true_eq]; omega),
      Option.some.injEq]
    omega
  rw [strayByte?, hhalf]
  dsimp only
  rw [if_pos (by simp only [Bool.and_eq_true, decide_eq_true_eq]; omega), Nat.add_sub_cancel_left,
    UInt8.ofNat_toNat]

/-- The bytes begin with a faulty one or with one of a character that is used as a stand-in. -/
theorem high_of_isSome {ch : Char} {size : Nat} (h : Utf8.nextScalar b rest = .scalar ch size)
    (hhalf : (halfCode? ch).isSome) : 0x80 ≤ b.toNat := by
  refine Nat.not_lt.mp fun hlow => ?_
  rw [Utf8.nextScalar_one hlow] at h
  cases h
  have hascii : IsAscii (Char.ofNat b.toNat) := by
    rw [IsAscii, Char.toNat, Utf8.toNat_val_ofNat (by omega)]
    exact hlow
  rw [halfCode?_of_isAscii hascii] at hhalf
  cases hhalf

theorem high_of_flaw {why : Utf8.Flaw} {size : Nat} (h : Utf8.nextScalar b rest = .flaw why size) :
    0x80 ≤ b.toNat := by
  refine Nat.not_lt.mp fun hlow => ?_
  rw [Utf8.nextScalar_one hlow] at h
  cases h

theorem flatMap_decodeAnyFrom (bytes : List UInt8) (skip : Nat) :
    (decodeAnyFrom skip bytes).flatMap charBytes = bytes.drop skip := by
  -- by induction on the bytes; those behind the first one of each character are skipped
  induction bytes generalizing skip with
  | nil => rw [decodeAnyFrom, List.drop_nil, List.flatMap_nil]
  | cons b rest ih =>
      cases skip with
      | succ skip => exact ih skip
      | zero =>
          have hstray : 0x80 ≤ b.toNat →
              (strayChar b :: decodeAnyFrom 0 rest).flatMap charBytes = b :: rest := by
            intro hhigh
            rw [List.flatMap_cons, ih, charBytes, strayByte?_strayChar hhigh]
            rfl
          rw [decodeAnyFrom, List.drop_zero]
          cases hnext : Utf8.nextScalar b rest with
          | flaw why size => exact hstray (high_of_flaw hnext)
          | scalar ch size =>
              dsimp only
              by_cases hhalf : (halfCode? ch).isSome = true
              · rw [if_pos hhalf]
                exact hstray (high_of_isSome hnext hhalf)
              · obtain ⟨tail, after, rfl, rfl, hbytes⟩ := Utf8.nextScalar_eq_scalar hnext
                rw [if_neg hhalf, List.flatMap_cons, ih, charBytes_of_strayByte?
                  (strayByte?_of_halfCode? (by simpa using hhalf)), hbytes, Nat.add_sub_cancel,
                  List.drop_left]
                rfl

/-- Bytes are shown as a text that stands for them. -/
theorem encodeAny_decodeAny (bytes : List UInt8) : encodeAny (decodeAny bytes) = bytes := by
  rw [encodeAny, decodeAny, String.toList_ofList, flatMap_decodeAnyFrom, List.drop_zero]

/-! ## Single bytes -/

theorem encodeAny_append (s t : String) : encodeAny (s ++ t) = encodeAny s ++ encodeAny t := by
  rw [encodeAny, String.toList_append, List.flatMap_append, encodeAny, encodeAny]

/-- A character that is a single byte is found among the bytes of no other one. -/
theorem mem_charBytes_iff {d : Char} (h : IsAscii c) :
    UInt8.ofNat c.toNat ∈ charBytes d ↔ d = c := by
  have hbyte : (UInt8.ofNat c.toNat).toNat = c.toNat :=
    UInt8.toNat_ofNat_of_lt' (Nat.lt_trans h (by decide))
  constructor
  · intro hmem
    rw [charBytes] at hmem
    cases hstray : strayByte? d with
    | some b =>
        rw [hstray] at hmem
        unfold strayByte? at hstray
        split at hstray
        · split at hstray
          · rename_i code _ hcode
            rw [Bool.and_eq_true, decide_eq_true_eq, decide_eq_true_eq] at hcode
            obtain rfl := Option.some.inj hstray
            have heq := congrArg UInt8.toNat (List.mem_singleton.mp hmem)
            have hsmall : code - 0xDC00 < 256 := by omega
            rw [hbyte, UInt8.toNat_ofNat_of_lt' hsmall] at heq
            unfold IsAscii at h
            omega
          · cases hstray
        · cases hstray
    | none =>
        rw [hstray] at hmem
        dsimp only at hmem
        obtain ⟨first, tail, hbytes, hnext⟩ := Utf8.nextScalar_utf8EncodeChar d []
        rw [hbytes] at hmem
        rcases List.mem_cons.mp hmem with rfl | htail
        · rw [Utf8.nextScalar_one (hbyte.symm ▸ h), hbyte, Char.ofNat_toNat] at hnext
          exact (Utf8.Step.scalar.inj hnext).1.symm
        · have hhigh := Utf8.continues_of_mem hbytes htail
          rw [hbyte] at hhigh
          exact (Nat.not_lt.mpr hhigh h).elim
  · rintro rfl
    rw [charBytes_of_isAscii h]
    exact List.mem_singleton_self _

theorem mem_encodeAny_iff {s : String} (h : IsAscii c) :
    UInt8.ofNat c.toNat ∈ encodeAny s ↔ c ∈ s.toList := by
  rw [encodeAny, List.mem_flatMap]
  exact ⟨fun ⟨d, hd, hmem⟩ => (mem_charBytes_iff h).mp hmem ▸ hd,
    fun hc => ⟨c, hc, (mem_charBytes_iff h).mpr rfl⟩⟩

theorem decodeAnyFrom_ascii {cs : List Char} (h : ∀ c ∈ cs, IsAscii c) :
    decodeAnyFrom 0 (cs.flatMap charBytes) = cs := by
  induction cs with
  | nil => rfl
  | cons c cs ih =>
      obtain ⟨hc, hcs⟩ := List.forall_mem_cons.mp h
      have hbyte : (UInt8.ofNat c.toNat).toNat = c.toNat :=
        UInt8.toNat_ofNat_of_lt' (Nat.lt_trans hc (by decide))
      have hwhole : ¬(halfCode? c).isSome = true := by simp [halfCode?_of_isAscii hc]
      rw [List.flatMap_cons, charBytes_of_isAscii hc, List.singleton_append, decodeAnyFrom,
        Utf8.nextScalar_one (hbyte.symm ▸ hc), hbyte, Char.ofNat_toNat]
      dsimp only
      rw [if_neg hwhole, ih hcs]

/-- Whether bytes do not continue a character. -/
def Apart (more : List UInt8) : Prop := ∀ b ∈ more.head?, b.toNat < 0x80

theorem apart_ascii {cs : List Char} (h : ∀ c ∈ cs, IsAscii c) : Apart (cs.flatMap charBytes) := by
  intro b hb
  cases cs with
  | nil => cases hb
  | cons c cs =>
      have hc := h c List.mem_cons_self
      rw [List.flatMap_cons, charBytes_of_isAscii hc] at hb
      cases hb
      rw [UInt8.toNat_ofNat_of_lt' (Nat.lt_trans hc (by decide))]
      exact hc

/-- Bytes that do not continue a character do not make one of what was faulty before. -/
theorem nextScalar_append_flaw {why : Utf8.Flaw} {size : Nat} (hmore : Apart more)
    (h : Utf8.nextScalar b rest = .flaw why size) :
    ∃ why size, Utf8.nextScalar b (rest ++ more) = .flaw why size := by
  cases hnext : Utf8.nextScalar b (rest ++ more) with
  | flaw why size => exact ⟨why, size, rfl⟩
  | scalar ch size =>
      obtain ⟨tail, after, hsplit, _, hbytes⟩ := Utf8.nextScalar_eq_scalar hnext
      rcases List.append_eq_append_iff.mp hsplit with ⟨beyond, htail, hafter⟩ | ⟨within, hrest, _⟩
      · cases beyond with
        | nil =>
            -- the character ends where the new bytes begin
            obtain ⟨first, found, hfound, hread⟩ := Utf8.nextScalar_utf8EncodeChar ch []
            rw [hbytes] at hfound
            cases hfound
            rw [List.append_nil] at htail hread
            rw [htail, h] at hread
            cases hread
        | cons x beyond =>
            rw [List.cons_append] at hafter
            have hlow : x.toNat < 0x80 := hmore x (by rw [hafter]; rfl)
            have hmem : x ∈ tail := htail ▸ List.mem_append_right _ List.mem_cons_self
            exact (Nat.not_lt.mpr (Utf8.continues_of_mem hbytes hmem) hlow).elim
      · obtain ⟨first, found, hfound, hread⟩ := Utf8.nextScalar_utf8EncodeChar ch within
        rw [hbytes] at hfound
        cases hfound
        rw [← hrest, h] at hread
        cases hread

/-- What is read off bytes is not changed by more bytes that do not continue a character. -/
theorem decodeAnyFrom_append (hmore : Apart more) {bytes : List UInt8} {skip : Nat}
    (hskip : skip ≤ bytes.length) : decodeAnyFrom skip (bytes ++ more) =
      decodeAnyFrom skip bytes ++ decodeAnyFrom 0 more := by
  induction bytes generalizing skip with
  | nil =>
      obtain rfl : skip = 0 := Nat.le_zero.mp hskip
      rfl
  | cons b rest ih =>
      cases skip with
      | succ skip => exact ih (Nat.le_of_succ_le_succ hskip)
      | zero =>
          rw [List.cons_append, decodeAnyFrom, decodeAnyFrom]
          cases hnext : Utf8.nextScalar b rest with
          | flaw why size =>
              obtain ⟨why', size', hflaw⟩ := nextScalar_append_flaw hmore hnext
              rw [hflaw]
              dsimp only
              rw [ih (Nat.zero_le _), List.cons_append]
          | scalar ch size =>
              obtain ⟨tail, after, rfl, rfl, hbytes⟩ := Utf8.nextScalar_eq_scalar hnext
              obtain ⟨first, found, hfound, hread⟩ :=
                Utf8.nextScalar_utf8EncodeChar ch (after ++ more)
              rw [hbytes] at hfound
              cases hfound
              rw [List.append_assoc, hread]
              dsimp only
              rw [← List.append_assoc, ih (Nat.zero_le _), ih (by simp)]
              split <;> rfl

end Runbook.Text
