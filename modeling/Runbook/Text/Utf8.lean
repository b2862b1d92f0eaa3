/-!
# Reading bytes as UTF-8

`nextScalar` reads one character off a byte sequence or says what is wrong with its start: how many
bytes belong to the faulty part and why. `decodeLossy` puts one replacement character for each
faulty part; `decode` stops at the first one.
-/

set_option autoImplicit false

namespace Runbook.Text.Utf8

/-- Why bytes are not UTF-8. -/
inductive Flaw where
  | invalidStart
  | invalidContinuation
  | unexpectedEnd
  deriving DecidableEq, Repr

/-- What the bytes begin with: a character of `size` bytes, or a faulty part of `size` bytes. -/
inductive Step where
  | scalar (c : Char) (size : Nat)
  | flaw (why : Flaw) (size : Nat)

/-- Whether a byte continues a character. -/
def isContinuation (b : UInt8) : Bool := 0x80 ≤ b && b ≤ 0xBF

/-- The six payload bits of a continuation byte. -/
def payload (b : UInt8) : Nat := b.toNat % 64

/-- Which second bytes may follow the first byte of a longer character. -/
def secondAllowed (first second : UInt8) : Bool :=
  if first == 0xE0 then 0xA0 ≤ second && second ≤ 0xBF
  else if first == 0xED then 0x80 ≤ second && second ≤ 0x9F
  else if first == 0xF0 then 0x90 ≤ second && second ≤ 0xBF
  else if first == 0xF4 then 0x80 ≤ second && second ≤ 0x8F
  else isContinuation second

/-- The first character or faulty part of a byte sequence that starts with `b`. -/
def nextScalar (b : UInt8) (rest : List UInt8) : Step :=
  if b < 0x80 then .scalar (Char.ofNat b.toNat) 1
  else if b < 0xC2 || 0xF4 < b then .flaw .invalidStart 1
  else
    match rest with
    | [] => .flaw .unexpectedEnd 1
    | c :: rest =>
      if !secondAllowed b c then .flaw .invalidContinuation 1
      else if b < 0xE0 then .scalar (Char.ofNat ((b.toNat % 32) * 64 + payload c)) 2
      else
        match rest with
        | [] => .flaw .unexpectedEnd 2
        | d :: rest =>
          if !isContinuation d then .flaw .invalidContinuation 2
          else if b < 0xF0 then
            .scalar (Char.ofNat ((b.toNat % 16) * 4096 + payload c * 64 + payload d)) 3
          else
            match rest with
            | [] => .flaw .unexpectedEnd 3
            | e :: _ =>
              if !isContinuation e then .flaw .invalidContinuation 3
              else .scalar (Char.ofNat
                ((b.toNat % 8) * 262144 + payload c * 4096 + payload d * 64 + payload e)) 4

/-- A faulty place of a byte sequence. -/
structure Fault where
  why : Flaw
  start : Nat
  size : Nat
  first : UInt8
  deriving DecidableEq, Repr

/-- The wording of a flaw. -/
def Flaw.message : Flaw → String
  | .invalidStart => "invalid start byte"
  | .invalidContinuation => "invalid continuation byte"
  | .unexpectedEnd => "unexpected end of data"

/-- The message for a faulty place: one byte is named, several are given by their range. -/
def Fault.message (f : Fault) : String :=
  let hex (b : UInt8) := String.ofList
    ((Nat.toDigits 16 (b.toNat / 16)) ++ (Nat.toDigits 16 (b.toNat % 16)))
  if f.size == 1 then
    s!"'utf-8' codec can't decode byte 0x{hex f.first} in position {f.start}: {f.why.message}"
  else
    let last := f.start + f.size - 1
    s!"'utf-8' codec can't decode bytes in position {f.start}-{last}: {f.why.message}"

/-- Reads all characters, or finds the first faulty place; `skip` bytes are still part of the
character before. -/
def decodeFrom (position skip : Nat) : List UInt8 → Except Fault (List Char)
  | [] => .ok []
  | b :: rest =>
    match skip with
    | skip + 1 => decodeFrom (position + 1) skip rest
    | 0 =>
      match nextScalar b rest with
      | .scalar c size => (decodeFrom (position + 1) (size - 1) rest).map (c :: ·)
      | .flaw why size => .error ⟨why, position, size, b⟩

/-- Reads bytes as UTF-8. -/
def decode (bytes : List UInt8) : Except Fault (List Char) := decodeFrom 0 0 bytes

/-- Reads bytes as UTF-8 with one replacement character for each faulty part. -/
def decodeLossyFrom (skip : Nat) : List UInt8 → List Char
  | [] => []
  | b :: rest =>
    match skip with
    | skip + 1 => decodeLossyFrom skip rest
    | 0 =>
      match nextScalar b rest with
      | .scalar c size => c :: decodeLossyFrom (size - 1) rest
      | .flaw _ size => '\uFFFD' :: decodeLossyFrom (size - 1) rest

/-- Reads bytes as UTF-8, faulty parts replaced. -/
def decodeLossy (bytes : List UInt8) : List Char := decodeLossyFrom 0 bytes

/-- The bytes of a text. -/
def encode (s : String) : List UInt8 := s.toUTF8.toList

end Runbook.Text.Utf8
