import Runbook.Files.Tree
import Runbook.Proofs.Text.AnyBytes

/-!
# Names on the system

The system's name for a name has the same bytes (`encodeAny_systemName`) and is its own
(`systemName_systemName`). A name without halves is its own (`systemName_of_whole`). An ending
made of single bytes stays as it is (`systemName_append`).
-/

set_option autoImplicit false

namespace Runbook.Files

open Text

variable {name ending : String} {c : Char}

theorem systemName_cases (name : String) : systemName name = name ∨
    systemName name = decodeAny (encodeAny name) := by
  rw [systemName]
  split
  · exact .inr rfl
  · exact .inl rfl

theorem systemName_of_any (h : (name.toList.any fun c => (strayByte? c).isSome) = true) :
    systemName name = decodeAny (encodeAny name) := by
  rw [systemName, if_pos h]

theorem systemName_of_not_any (h : (name.toList.any fun c => (strayByte? c).isSome) = false) :
    systemName name = name := by
  rw [systemName, h]
  rfl

/-- A name without halves is its own on the system. -/
theorem systemName_of_whole (h : ∀ c ∈ name.toList, halfCode? c = none) :
    systemName name = name := by
  refine systemName_of_not_any (List.any_eq_false.mpr fun c hc => ?_)
  simp [strayByte?_of_halfCode? (h c hc)]

/-- The system's name for a name has the same bytes. -/
theorem encodeAny_systemName (name : String) : encodeAny (systemName name) = encodeAny name := by
  rcases systemName_cases name with h | h
  · rw [h]
  · rw [h, encodeAny_decodeAny]

theorem systemName_systemName (name : String) : systemName (systemName name) = systemName name := by
  rcases systemName_cases name with h | h
  · rw [h, h]
  · rcases systemName_cases (systemName name) with hagain | hagain
    · exact hagain
    · rw [hagain, encodeAny_systemName, h]

theorem mem_systemName_iff (h : IsAscii c) : c ∈ (systemName name).toList ↔ c ∈ name.toList := by
  rw [← mem_encodeAny_iff h, encodeAny_systemName, mem_encodeAny_iff h]

theorem systemName_append (h : ∀ c ∈ ending.toList, IsAscii c) :
    systemName (name ++ ending) = systemName name ++ ending := by
  have hending : (ending.toList.any fun c => (strayByte? c).isSome) = false := by
    refine List.any_eq_false.mpr fun c hc => ?_
    simp [strayByte?_of_halfCode? (halfCode?_of_isAscii (h c hc))]
  have hsame : ((name ++ ending).toList.any fun c => (strayByte? c).isSome) =
      name.toList.any fun c => (strayByte? c).isSome := by
    rw [String.toList_append, List.any_append, hending, Bool.or_false]
  cases hname : name.toList.any fun c => (strayByte? c).isSome with
  | false => rw [systemName_of_not_any (hsame.trans hname), systemName_of_not_any hname]
  | true =>
      have hapart : Apart (encodeAny ending) := apart_ascii h
      rw [systemName_of_any (hsame.trans hname), systemName_of_any hname, encodeAny_append,
        decodeAny, decodeAnyFrom_append hapart (Nat.zero_le _), encodeAny, encodeAny,
        decodeAnyFrom_ascii h, String.ofList_append, String.ofList_toList]
      rfl

end Runbook.Files
