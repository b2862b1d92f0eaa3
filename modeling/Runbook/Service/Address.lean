import Runbook.Files.Path
import Runbook.Json.Reader
import Runbook.Text.Utf8

/-!
# Addresses

The address of a request is cut at its query, its steps up and down are taken, and bytes written as
`%` and two hexadecimal digits are read; the client and the server read them once each.
-/

set_option autoImplicit false

namespace Runbook.Service

/-- The bytes of characters of one byte, of which `%` and two digits stand for any byte. -/
def escapedBytes : List Char → List UInt8
  | '%' :: a :: b :: rest =>
    match Json.hexValue? a, Json.hexValue? b with
    | some high, some low => UInt8.ofNat (16 * high + low) :: escapedBytes rest
    | _, _ => 0x25 :: escapedBytes (a :: b :: rest)
  | c :: rest => UInt8.ofNat c.toNat :: escapedBytes rest
  | [] => []

/-- Reads escaped bytes; `run` holds the characters of one byte in front, in reverse order. -/
def unescapeFrom (run : List Char) : List Char → List Char
  | [] => Text.Utf8.decodeLossy (escapedBytes run.reverse)
  | c :: rest =>
    if c.toNat < 0x80 then unescapeFrom (c :: run) rest
    else Text.Utf8.decodeLossy (escapedBytes run.reverse) ++ c :: unescapeFrom [] rest

/-- Reads escaped bytes once. -/
def unescape (cs : List Char) : List Char := unescapeFrom [] cs

/-- Takes steps up and down, with the parts that are kept in reverse order. -/
def takeSteps (kept : List (List Char)) : List (List Char) → List (List Char)
  | [] => kept.reverse
  | part :: rest =>
    if part == ['.'] then takeSteps kept rest
    else if part == ['.', '.'] then takeSteps (if kept == [[]] then kept else kept.tail) rest
    else takeSteps (part :: kept) rest

/-- The path that an address names. -/
def pathOf (address : String) : String :=
  let cs := address.toList.takeWhile fun c => c != '?' && c != '#'
  let parts := takeSteps [] (Path.splitAt '/' ('/' :: cs.dropWhile (· == '/')))
  let path := unescape (unescape (List.intercalate ['/'] parts))
  if path.isEmpty then "/" else String.ofList path

end Runbook.Service
