import Runbook.Text.Case

/-!
# Letters that differ only in case

Two letters are the same without regard to case if they have the same small letter, or if their
small letters are listed as variants of one another: the two small sigmas, for instance.
-/

set_option autoImplicit false

namespace Runbook.Pattern

/-- Small letters and their variants. -/
def foldVariants : Array (Nat × List Nat) := #[
  (105, [305]), (115, [383]), (181, [956]), (305, [105]), (383, [115]), (837, [953, 8126]),
  (912, [8147]), (944, [8163]), (946, [976]), (949, [1013]), (952, [977]), (953, [837, 8126]),
  (954, [1008]), (956, [181]), (960, [982]), (961, [1009]), (962, [963]), (963, [962]),
  (966, [981]), (976, [946]), (977, [952]), (981, [966]), (982, [960]), (1008, [954]),
  (1009, [961]), (1013, [949]), (1074, [7296]), (1076, [7297]), (1086, [7298]), (1089, [7299]),
  (1090, [7300, 7301]), (1098, [7302]), (1123, [7303]), (7296, [1074]), (7297, [1076]),
  (7298, [1086]), (7299, [1089]), (7300, [1090, 7301]), (7301, [1090, 7300]), (7302, [1098]),
  (7303, [1123]), (7304, [42571]), (7777, [7835]), (7835, [7777]), (8126, [837, 953]),
  (8147, [912]), (8163, [944]), (42571, [7304]), (64261, [64262]), (64262, [64261])]

/-- The variants of a small letter. -/
def variants (small : Char) : List Char :=
  match foldVariants.find? (·.1 == small.toNat) with
  | some (_, vs) => vs.map Char.ofNat
  | none => []

/-- The small ASCII letter of an ASCII capital; other characters stay. -/
def asciiLower (c : Char) : Char := c.toLower

/-- All characters whose small letter is the given one. -/
def withLower (small : Char) : List Char :=
  let candidates := small :: Text.upperChar small ::
    (Text.lowerAliases.toList.filter (·.1 == small.toNat)).map fun (_, n) => Char.ofNat n
  candidates.filter fun c => Text.lowerChar c == small

/-- The characters that a pattern may name to mean one with this small letter. -/
def caseMates (small : Char) : List Char := (small :: variants small).flatMap withLower

end Runbook.Pattern
