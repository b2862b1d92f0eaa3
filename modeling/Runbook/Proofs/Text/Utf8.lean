import Runbook.Text.Utf8

/-!
# Reading back what was encoded

A character takes one to four bytes. `nextScalar` reads each of these forms off the numbers of the
bytes, so the bytes of a character are read as that character (`nextScalar_utf8EncodeChar`), and
reading the bytes of a text gives the text (`decode_encode`). Conversely a character that is read is
one whose bytes are there (`nextScalar_eq_scalar`).
-/

set_option autoImplicit false

namespace Runbook.Text.Utf8

/-! ## The bytes of a text -/

theorem toList_loop_eq (bytes : ByteArray) (i : Nat) (read : List UInt8) :
    ByteArray.toList.loop bytes i read = read.reverse ++ bytes.data.toList.drop i := by
  -- by induction on the number of bytes that are still ahead
  induction h : bytes.size - i generalizing i read with
  | zero =>
      have hsize : bytes.data.toList.length ≤ i := Nat.sub_eq_zero_iff_le.mp h
      rw [ByteArray.toList.loop, if_neg (by omega), List.drop_eq_nil_of_le hsize, List.append_nil]
  | succ n ih =>
      have hi : i < bytes.size := by omega
      have hlength : i < bytes.data.toList.length := hi
      have hget : bytes.get! i = bytes.data.toList[i] := by
        rw [ByteArray.get!, Array.getElem_toList]
        exact getElem!_pos bytes.data i hi
      rw [ByteArray.toList.loop, if_pos hi, ih (i + 1) _ (by omega),
        List.drop_eq_getElem_cons hlength, hget, List.reverse_cons, List.append_assoc]
      rfl

theorem encode_eq (s : String) : encode s = s.toList.flatMap String.utf8EncodeChar := by
  obtain ⟨cs, rfl⟩ : ∃ cs, s = String.ofList cs := ⟨s.toList, by simp⟩
  rw [encode, String.toUTF8, String.toByteArray_ofList, List.utf8Encode, ByteArray.toList,
    toList_loop_eq]
  simp

/-! ## Characters of one to four bytes -/

/-- Whether a number is that of a byte which continues a character. -/
def Continues (n : Nat) : Prop := 0x80 ≤ n ∧ n ≤ 0xBF

/-- Whether a second byte may follow a first one, by their numbers. -/
structure Follows (first second : Nat) : Prop where
  continues : Continues second
  afterE0 : first = 0xE0 → 0xA0 ≤ second
  afterED : first = 0xED → second ≤ 0x9F
  afterF0 : first = 0xF0 → 0x90 ≤ second
  afterF4 : first = 0xF4 → second ≤ 0x8F

variable {a b c d : UInt8} {rest : List UInt8}

theorem isContinuation_of_continues (h : Continues b.toNat) : isContinuation b = true := by
  simpa [isContinuation, Continues, UInt8.le_iff_toNat_le] using h

theorem secondAllowed_of_follows (h : Follows a.toNat b.toNat) : secondAllowed a b = true := by
  obtain ⟨⟨hlow, hhigh⟩, hE0, hED, hF0, hF4⟩ := h
  unfold secondAllowed
  split
  case isTrue ha => simpa [UInt8.le_iff_toNat_le, hhigh] using hE0 (by simp_all)
  split
  case isTrue ha => simpa [UInt8.le_iff_toNat_le, hlow] using hED (by simp_all)
  split
  case isTrue ha => simpa [UInt8.le_iff_toNat_le, hhigh] using hF0 (by simp_all)
  split
  case isTrue ha => simpa [UInt8.le_iff_toNat_le, hlow] using hF4 (by simp_all)
  exact isContinuation_of_continues ⟨hlow, hhigh⟩

theorem nextScalar_one (h : a.toNat < 0x80) : nextScalar a rest = .scalar (Char.ofNat a.toNat) 1 := by
  have hlow : a < 0x80 := UInt8.lt_iff_toNat_lt.mpr h
  simp [nextScalar, hlow]

theorem nextScalar_two (ha : 0xC2 ≤ a.toNat) (ha' : a.toNat < 0xE0) (hb : Continues b.toNat) :
    nextScalar a (b :: rest) = .scalar (Char.ofNat (a.toNat % 32 * 64 + b.toNat % 64)) 2 := by
  have hlow : ¬a < 0x80 := by simp [UInt8.lt_iff_toNat_lt]; omega
  have hstart : ¬(a < 0xC2 || 0xF4 < a) = true := by simp [UInt8.lt_iff_toNat_lt]; omega
  have hsecond : secondAllowed a b = true :=
    secondAllowed_of_follows ⟨hb, by omega, by omega, by omega, by omega⟩
  have hshort : a < 0xE0 := UInt8.lt_iff_toNat_lt.mpr ha'
  simp [nextScalar, hlow, hstart, hsecond, hshort, payload]

theorem nextScalar_three (ha : 0xE0 ≤ a.toNat) (ha' : a.toNat < 0xF0)
    (hb : Follows a.toNat b.toNat) (hc : Continues c.toNat) :
    nextScalar a (b :: c :: rest) = .scalar
      (Char.ofNat (a.toNat % 16 * 4096 + b.toNat % 64 * 64 + c.toNat % 64)) 3 := by
  have hlow : ¬a < 0x80 := by simp [UInt8.lt_iff_toNat_lt]; omega
  have hstart : ¬(a < 0xC2 || 0xF4 < a) = true := by simp [UInt8.lt_iff_toNat_lt]; omega
  have hlong : ¬a < 0xE0 := by simp [UInt8.lt_iff_toNat_lt]; omega
  have hshort : a < 0xF0 := UInt8.lt_iff_toNat_lt.mpr ha'
  simp [nextScalar, hlow, hstart, secondAllowed_of_follows hb, hlong,
    isContinuation_of_continues hc, hshort, payload]

theorem nextScalar_four (ha : 0xF0 ≤ a.toNat) (ha' : a.toNat ≤ 0xF4)
    (hb : Follows a.toNat b.toNat) (hc : Continues c.toNat) (hd : Continues d.toNat) :
    nextScalar a (b :: c :: d :: rest) = .scalar (Char.ofNat (a.toNat % 8 * 262144 +
      b.toNat % 64 * 4096 + c.toNat % 64 * 64 + d.toNat % 64)) 4 := by
  have hlow : ¬a < 0x80 := by simp [UInt8.lt_iff_toNat_lt]; omega
  have hstart : ¬(a < 0xC2 || 0xF4 < a) = true := by simp [UInt8.lt_iff_toNat_lt]; omega
  have hlong : ¬a < 0xE0 := by simp [UInt8.lt_iff_toNat_lt]; omega
  have hlonger : ¬a < 0xF0 := by simp [UInt8.lt_iff_toNat_lt]; omega
  simp [nextScalar, hlow, hstart, secondAllowed_of_follows hb, hlong,
    isContinuation_of_continues hc, hlonger, isContinuation_of_continues hd, payload]

/-! ## A text -/

theorem toNat_ofNat {n : Nat} (h : n < 256) : (UInt8.ofNat n).toNat = n :=
  UInt8.toNat_ofNat_of_lt' h

/-- The bytes of a character are read as that character. -/
theorem nextScalar_utf8EncodeChar (ch : Char) (rest : List UInt8) :
    ∃ first tail, String.utf8EncodeChar ch = first :: tail ∧
      nextScalar first (tail ++ rest) = .scalar ch (tail.length + 1) := by
  have hvalid : ch.val.toNat < 0xD800 ∨ 0xDFFF < ch.val.toNat ∧ ch.val.toNat < 0x110000 := ch.valid
  have hback : Char.ofNat ch.val.toNat = ch := Char.ofNat_toNat ch
  unfold String.utf8EncodeChar
  dsimp only
  generalize ch.val.toNat = n at hvalid hback
  -- the number of the character is put together again from that of its bytes
  split
  · refine ⟨_, _, rfl, ?_⟩
    have ha := toNat_ofNat (n := n) (by omega)
    rw [nextScalar_one (by omega), ha, hback]
    rfl
  split
  · refine ⟨_, _, rfl, ?_⟩
    have ha := toNat_ofNat (n := n / 64 % 32 + 0xC0) (by omega)
    have hb := toNat_ofNat (n := n % 64 + 0x80) (by omega)
    have hn : (n / 64 % 32 + 0xC0) % 32 * 64 + (n % 64 + 0x80) % 64 = n := by omega
    rw [List.cons_append, nextScalar_two (by omega) (by omega) (by unfold Continues; omega),
      ha, hb, hn, hback]
    rfl
  split
  · refine ⟨_, _, rfl, ?_⟩
    have ha := toNat_ofNat (n := n / 4096 % 16 + 0xE0) (by omega)
    have hb := toNat_ofNat (n := n / 64 % 64 + 0x80) (by omega)
    have hc := toNat_ofNat (n := n % 64 + 0x80) (by omega)
    have hn : (n / 4096 % 16 + 0xE0) % 16 * 4096 + (n / 64 % 64 + 0x80) % 64 * 64 +
        (n % 64 + 0x80) % 64 = n := by omega
    rw [List.cons_append, List.cons_append, nextScalar_three (by omega) (by omega)
      ⟨by unfold Continues; omega, by omega, by omega, by omega, by omega⟩
      (by unfold Continues; omega), ha, hb, hc, hn, hback]
    rfl
  · refine ⟨_, _, rfl, ?_⟩
    have ha := toNat_ofNat (n := n / 262144 % 8 + 0xF0) (by omega)
    have hb := toNat_ofNat (n := n / 4096 % 64 + 0x80) (by omega)
    have hc := toNat_ofNat (n := n / 64 % 64 + 0x80) (by omega)
    have hd := toNat_ofNat (n := n % 64 + 0x80) (by omega)
    have hn : (n / 262144 % 8 + 0xF0) % 8 * 262144 + (n / 4096 % 64 + 0x80) % 64 * 4096 +
        (n / 64 % 64 + 0x80) % 64 * 64 + (n % 64 + 0x80) % 64 = n := by omega
    rw [List.cons_append, List.cons_append, List.cons_append, nextScalar_four (by omega) (by omega)
      ⟨by unfold Continues; omega, by omega, by omega, by omega, by omega⟩
      (by unfold Continues; omega) (by unfold Continues; omega), ha, hb, hc, hd, hn, hback]
    rfl

theorem decodeFrom_skip (position : Nat) (tail rest : List UInt8) :
    decodeFrom position tail.length (tail ++ rest) = decodeFrom (position + tail.length) 0 rest := by
  induction tail generalizing position with
  | nil => rfl
  | cons b tail ih =>
      rw [List.length_cons, List.cons_append, decodeFrom, ih, Nat.add_right_comm, Nat.add_assoc]

theorem decodeFrom_flatMap (position : Nat) (cs : List Char) :
    decodeFrom position 0 (cs.flatMap String.utf8EncodeChar) = .ok cs := by
  -- by induction on the characters; the bytes behind the first one of each are skipped
  induction cs generalizing position with
  | nil => rfl
  | cons ch cs ih =>
      obtain ⟨first, tail, hbytes, hnext⟩ :=
        nextScalar_utf8EncodeChar ch (cs.flatMap String.utf8EncodeChar)
      rw [List.flatMap_cons, hbytes, List.cons_append, decodeFrom, hnext]
      dsimp only
      rw [Nat.add_sub_cancel, decodeFrom_skip, ih]
      rfl

/-- Reading the bytes of a text gives the text. -/
theorem decode_encode (s : String) : decode (encode s) = .ok s.toList := by
  rw [decode, encode_eq, decodeFrom_flatMap]

/-! ## What is read is there -/

theorem continues_of_isContinuation (h : isContinuation b = true) : Continues b.toNat := by
  simpa [isContinuation, Continues, UInt8.le_iff_toNat_le] using h

theorem follows_of_secondAllowed (h : secondAllowed a b = true) : Follows a.toNat b.toNat := by
  unfold secondAllowed isContinuation at h
  repeat' split at h
  -- of the four first bytes that ask for more, at most one is there
  all_goals
    simp only [Bool.and_eq_true, decide_eq_true_eq, beq_iff_eq, ← UInt8.toNat_inj,
      UInt8.le_iff_toNat_le, UInt8.reduceToNat] at *
    exact ⟨⟨by omega, by omega⟩, by omega, by omega, by omega, by omega⟩

theorem toNat_val_ofNat {n : Nat} (h : n < 0xD800 ∨ 0xDFFF < n ∧ n < 0x110000) :
    (Char.ofNat n).val.toNat = n := by
  have hvalid : n.isValidChar := h
  rw [Char.ofNat, dif_pos hvalid]
  rfl

theorem ofNat_eq {n : Nat} (h : n = a.toNat) : UInt8.ofNat n = a := by
  rw [h, UInt8.ofNat_toNat]

theorem utf8EncodeChar_one (h : a.toNat < 0x80) :
    String.utf8EncodeChar (Char.ofNat a.toNat) = [a] := by
  rw [String.utf8EncodeChar, toNat_val_ofNat (by omega), if_pos (by omega), UInt8.ofNat_toNat]

theorem utf8EncodeChar_two (ha : 0xC2 ≤ a.toNat) (ha' : a.toNat < 0xE0) (hb : Continues b.toNat) :
    String.utf8EncodeChar (Char.ofNat (a.toNat % 32 * 64 + b.toNat % 64)) = [a, b] := by
  unfold Continues at hb
  rw [String.utf8EncodeChar, toNat_val_ofNat (by omega), if_neg (by omega), if_pos (by omega),
    ofNat_eq (a := a) (by omega), ofNat_eq (a := b) (by omega)]

theorem utf8EncodeChar_three (ha : 0xE0 ≤ a.toNat) (ha' : a.toNat < 0xF0)
    (hb : Follows a.toNat b.toNat) (hc : Continues c.toNat) : String.utf8EncodeChar
      (Char.ofNat (a.toNat % 16 * 4096 + b.toNat % 64 * 64 + c.toNat % 64)) = [a, b, c] := by
  obtain ⟨hb, hE0, hED, _, _⟩ := hb
  unfold Continues at hb hc
  rw [String.utf8EncodeChar, toNat_val_ofNat (by omega), if_neg (by omega), if_neg (by omega),
    if_pos (by omega), ofNat_eq (a := a) (by omega), ofNat_eq (a := b) (by omega),
    ofNat_eq (a := c) (by omega)]

theorem utf8EncodeChar_four (ha : 0xF0 ≤ a.toNat) (ha' : a.toNat ≤ 0xF4)
    (hb : Follows a.toNat b.toNat) (hc : Continues c.toNat) (hd : Continues d.toNat) :
    String.utf8EncodeChar (Char.ofNat (a.toNat % 8 * 262144 + b.toNat % 64 * 4096 +
      c.toNat % 64 * 64 + d.toNat % 64)) = [a, b, c, d] := by
  obtain ⟨hb, _, _, hF0, hF4⟩ := hb
  unfold Continues at hb hc hd
  rw [String.utf8EncodeChar, toNat_val_ofNat (by omega), if_neg (by omega), if_neg (by omega),
    if_neg (by omega), ofNat_eq (a := a) (by omega), ofNat_eq (a := b) (by omega),
    ofNat_eq (a := c) (by omega), ofNat_eq (a := d) (by omega)]

/-- A character that is read off bytes is one whose bytes they begin with. -/
theorem nextScalar_eq_scalar {ch : Char} {size : Nat} (h : nextScalar a rest = .scalar ch size) :
    ∃ tail after, rest = tail ++ after ∧ size = tail.length + 1 ∧
      String.utf8EncodeChar ch = a :: tail := by
  unfold nextScalar at h
  split at h
  case isTrue ha =>
    cases h
    exact ⟨[], rest, rfl, rfl, utf8EncodeChar_one (UInt8.lt_iff_toNat_lt.mp ha)⟩
  split at h
  case isTrue => cases h
  case isFalse hstart =>
  simp only [Bool.or_eq_true, decide_eq_true_eq, not_or, UInt8.lt_iff_toNat_lt,
    UInt8.reduceToNat, Nat.not_lt] at hstart
  split at h
  case h_1 => cases h
  case h_2 second rest =>
  split at h
  case isTrue => cases h
  case isFalse hsecond =>
  have hfollows := follows_of_secondAllowed (by simpa using hsecond)
  split at h
  case isTrue hshort =>
    cases h
    exact ⟨[second], rest, rfl, rfl,
      utf8EncodeChar_two hstart.1 (UInt8.lt_iff_toNat_lt.mp hshort) hfollows.continues⟩
  case isFalse hlong =>
  split at h
  case h_1 => cases h
  case h_2 third rest =>
  split at h
  case isTrue => cases h
  case isFalse hthird =>
  have hcontinues := continues_of_isContinuation (by simpa using hthird)
  simp only [UInt8.lt_iff_toNat_lt, UInt8.reduceToNat, Nat.not_lt] at hlong
  split at h
  case isTrue hshort =>
    cases h
    exact ⟨[second, third], rest, rfl, rfl, utf8EncodeChar_three hlong
      (UInt8.lt_iff_toNat_lt.mp hshort) hfollows hcontinues⟩
  case isFalse hlonger =>
  split at h
  case h_1 => cases h
  case h_2 fourth rest =>
  split at h
  case isTrue => cases h
  case isFalse hfourth =>
    simp only [UInt8.lt_iff_toNat_lt, UInt8.reduceToNat, Nat.not_lt] at hlonger
    cases h
    exact ⟨[second, third, fourth], rest, rfl, rfl, utf8EncodeChar_four hlonger hstart.2 hfollows
      hcontinues (continues_of_isContinuation (by simpa using hfourth))⟩

/-- All bytes of a character but the first one continue it. -/
theorem continues_of_mem {ch : Char} {first x : UInt8} {tail : List UInt8}
    (h : String.utf8EncodeChar ch = first :: tail) (hx : x ∈ tail) : 0x80 ≤ x.toNat := by
  have hhigh : ∀ n : Nat, n < 64 → 0x80 ≤ (UInt8.ofNat (n + 0x80)).toNat := fun n hn => by
    rw [toNat_ofNat (by omega)]
    omega
  unfold String.utf8EncodeChar at h
  dsimp only at h
  repeat' split at h
  all_goals
    cases h
    simp only [List.mem_cons, List.not_mem_nil, or_false] at hx
  · rw [hx]
    exact hhigh _ (by omega)
  · rcases hx with rfl | rfl <;> exact hhigh _ (by omega)
  · rcases hx with rfl | rfl | rfl <;> exact hhigh _ (by omega)

end Runbook.Text.Utf8
