import Runbook.Text.Half
import Runbook.Text.Utf8

/-!
# Texts that stand for any bytes

A text that came from bytes which need not be UTF-8 keeps each faulty byte as the stand-in of an
unpaired half from `0xDC80` to `0xDCFF`, so that `encodeAny` gives the same bytes again. A text whose
halves stand for bytes can be handed over as these bytes; `strayRun?` finds the halves that prevent
it.
-/

set_option autoImplicit false

namespace Runbook.Text

/-- The byte for which a character stands in. -/
def strayByte? (c : Char) : Option UInt8 :=
  match halfCode? c with
  | some code => if 0xDC80 ≤ code && code ≤ 0xDCFF then some (UInt8.ofNat (code - 0xDC00)) else none
  | none => none

/-- The stand-in for a faulty byte. -/
def strayChar (b : UInt8) : Char := halfChar (0xDC00 + b.toNat)

/-- The text for bytes; `skip` bytes are still part of the character before. The bytes of a character
that is used as a stand-in count as faulty. -/
def decodeAnyFrom (skip : Nat) : List UInt8 → List Char
  | [] => []
  | b :: rest =>
    match skip with
    | skip + 1 => decodeAnyFrom skip rest
    | 0 =>
      match Utf8.nextScalar b rest with
      | .scalar c size =>
        if (halfCode? c).isSome then strayChar b :: decodeAnyFrom 0 rest
        else c :: decodeAnyFrom (size - 1) rest
      | .flaw .. => strayChar b :: decodeAnyFrom 0 rest

/-- The text for bytes. -/
def decodeAny (bytes : List UInt8) : String := String.ofList (decodeAnyFrom 0 bytes)

/-- The bytes of a character. -/
def charBytes (c : Char) : List UInt8 :=
  match strayByte? c with
  | some b => [b]
  | none => String.utf8EncodeChar c

/-- The bytes for which a text stands. -/
def encodeAny (s : String) : List UInt8 := s.toList.flatMap charBytes

/-- The first half that no byte stands for: its code, its place, and the length of the run of halves
that it begins. -/
def strayRun? (place : Nat) : List Char → Option (Nat × Nat × Nat)
  | [] => none
  | c :: rest =>
    match halfCode? c, strayByte? c with
    | some code, none =>
      let run := (rest.takeWhile fun d => (halfCode? d).isSome).length
      some (code, place, run + 1)
    | _, _ => strayRun? (place + 1) rest

end Runbook.Text
