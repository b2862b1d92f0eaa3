import Mathlib.Data.List.Forall2
import Runbook.Proofs.Json.Nesting
import Runbook.Proofs.Store.VariableFile

/-!
# Opening the variable store

What opening the store comes to depends only on what is found at the path of its file: nothing, something
that the system refuses to read, or bytes (`opened`, `load_eq_opened`). Bytes are decoded, parsed, taken as
a list and read item by item, and each of these may end the attempt.

The failure of the store is what a caller expects. `opening_outcome` says when the store opens, and which
bytes lead to something else: those that are not UTF-8, and texts beyond the limits of the reader. A single
byte is enough (`stray_byte_is_no_failure`).
-/

set_option autoImplicit false

namespace Runbook.Store.Variables

/-! ## What is found at the path -/

/-- What is found at a path: nothing, or bytes, or the message of a refusal to read them. -/
def found (disk : Files.Disk) (file : Path) : Option (Except String (List UInt8)) :=
  if disk.has file then some ((disk.read file).mapError Files.Trouble.message) else none

/-- What opening a store comes to, from what is found at its path. -/
def opened (file : Path) : Option (Except String (List UInt8)) → Except Fault Variables
  | none => .ok ⟨file, []⟩
  | some (.error message) =>
    .error (.failed (.store s!"Cannot read global variables from {file.text}: {message}"))
  | some (.ok bytes) =>
    match readText bytes with
    | .error fault => .error (.undecodable fault)
    | .ok text => (readHeld file text).map fun held => ⟨file, held⟩

/-- Where there is something, reading it can only be refused by the system. -/
theorem isRefusal_of_has {disk : Files.Disk} {file : Path} {trouble : Files.Trouble}
    (hhas : disk.has file = true) (hread : disk.read file = .error trouble) :
    trouble.isRefusal = true := by
  unfold Files.Disk.has Files.Disk.query at hhas
  unfold Files.Disk.read Files.Disk.query at hread
  split at hread
  · rename_i other htrouble
    rw [htrouble] at hhas
    cases hhas
  · split at hread
    · cases hread
      rfl
    · rename_i at_ _
      cases hnode : disk.top.read at_ with
      | error why =>
          rw [hnode] at hread
          cases hread
          rfl
      | ok bytes =>
          rw [hnode] at hread
          cases hread

theorem load_eq_opened (disk : Files.Disk) (file : Path) :
    load disk file = opened file (found disk file) := by
  unfold load found
  cases hhas : disk.has file with
  | false => rfl
  | true =>
      cases hread : disk.read file with
      | error trouble =>
          have hrefusal := isRefusal_of_has hhas hread
          simp only [Fault.ofTrouble, hrefusal, opened, Except.mapError, if_true, if_false,
            Bool.not_true, Bool.false_eq_true]
          rfl
      | ok bytes => rfl

/-! ## The last entry of each name -/

/-- An item is read as a variable. -/
def ReadAs (item : Json) (v : GlobalVariable) : Prop := GlobalVariable.read item = .ok v

/-- The text of a file is a list of the given variables. -/
def Lists (bytes : List UInt8) (vs : List GlobalVariable) : Prop :=
  ∃ text items, readText bytes = .ok text ∧ Json.read .plain text = .ok (.arr items) ∧
    List.Forall₂ ReadAs items vs

/-- The last variable of a name. -/
def last? (vs : List GlobalVariable) (name : String) : Option GlobalVariable :=
  (vs.filter fun v => v.name = name).getLast?

/-- Variables put one after the other, each under its own name. -/
def putAll (known : Assoc GlobalVariable) (vs : List GlobalVariable) : Assoc GlobalVariable :=
  vs.foldl (fun held v => held.put v.name v) known

theorem last?_cons (v : GlobalVariable) (vs : List GlobalVariable) (name : String) :
    last? (v :: vs) name = (last? vs name).or (if v.name = name then some v else none) := by
  unfold last?
  by_cases hname : v.name = name
  · rw [List.filter_cons_of_pos (by simpa using hname), List.getLast?_cons, if_pos hname]
    cases (vs.filter fun v => v.name = name).getLast? <;> rfl
  · rw [List.filter_cons_of_neg (by simpa using hname), if_neg hname, Option.or_none]

theorem get?_putAll (known : Assoc GlobalVariable) (vs : List GlobalVariable) (name : String) :
    (putAll known vs).get? name = (last? vs name).or (known.get? name) := by
  induction vs generalizing known with
  | nil => rfl
  | cons v vs ih =>
      have hput : putAll known (v :: vs) = putAll (known.put v.name v) vs := rfl
      rw [hput, ih, Assoc.get?_put, last?_cons, Option.or_assoc]
      by_cases hname : v.name = name
      · simp [hname]
      · simp [hname]

/-- The items of a list are all read, or one of them is refused. -/
theorem readItems_cases (items : List Json) (known : Assoc GlobalVariable) :
    (∃ vs, List.Forall₂ ReadAs items vs ∧ readItems items (.ok known) = .ok (putAll known vs)) ∨
    ((∃ faults, readItems items (.ok known) = .error faults) ∧
      ∀ vs, ¬ List.Forall₂ ReadAs items vs) := by
  induction items generalizing known with
  | nil => exact .inl ⟨[], .nil, rfl⟩
  | cons item items ih =>
      cases hitem : GlobalVariable.read item with
      -- the first item that is refused ends the reading, whatever comes behind it
      | error faults =>
          refine .inr ⟨⟨faults, ?_⟩, ?_⟩
          · show (GlobalVariable.read item).andThen _ = _
            rw [hitem]
            rfl
          · rintro _ (_ | ⟨hread, _⟩)
            cases hitem.symm.trans hread
      | ok v =>
          rw [readItems_cons hitem]
          rcases ih (known.put v.name v) with ⟨vs, hall, hread⟩ | ⟨hfaults, hnone⟩
          · exact .inl ⟨v :: vs, .cons hitem hall, hread⟩
          · refine .inr ⟨hfaults, ?_⟩
            rintro _ (_ | ⟨_, hall⟩)
            exact hnone _ hall

/-! ## What the bytes come to -/

/-- What opening a store on a file of some bytes may come to. -/
def Outcome (file : Path) (bytes : List UInt8) : Except Fault Variables → Prop
  | .ok s => s.file = file ∧ ∃ vs, Lists bytes vs ∧ ∀ name, s.held.get? name = last? vs name
  | .error (.failed failure) => (∃ message, failure = .store message) ∧ ∀ vs, ¬ Lists bytes vs
  | .error (.undecodable _) => ∀ text, bytes ≠ Text.Utf8.encode text
  | .error (.tooManyDigits _) => ∃ text, readText bytes = .ok text ∧ Json.CountsBeyond 4300 text
  | .error (.tooDeep _) =>
    ∃ text, readText bytes = .ok text ∧ Json.NestsBeyond Json.Dialect.plain.maxDepth text
  | .error (.trouble _) => False

/-- The text of the file is no list of variables. -/
theorem not_lists {bytes : List UInt8} {text : List Char} (htext : readText bytes = .ok text)
    (hnone : ∀ items, Json.read .plain text = .ok (.arr items) →
      ∀ vs, ¬ List.Forall₂ ReadAs items vs)
    (vs : List GlobalVariable) : ¬ Lists bytes vs := by
  rintro ⟨other, items, hother, hitems, hall⟩
  obtain rfl := Except.ok.inj (htext.symm.trans hother)
  exact hnone items hitems vs hall

theorem outcome_text (file : Path) {bytes : List UInt8} {text : List Char}
    (htext : readText bytes = .ok text) :
    Outcome file bytes ((readHeld file text).map fun held => ⟨file, held⟩) := by
  unfold readHeld
  cases hread : Json.read .plain text with
  | error fault =>
      have hnot := not_lists htext fun items hitems => by cases hread.symm.trans hitems
      obtain ⟨flaw, place⟩ := fault
      -- only the limits of the reader are no failure of the store
      cases flaw with
      | tooDeep inObject => exact ⟨text, htext, Json.nestsBeyond_of_read hread⟩
      | tooManyDigits count => exact ⟨text, htext, Json.countsBeyond_of_read hread⟩
      | _ => exact ⟨⟨_, rfl⟩, hnot⟩
  | ok value =>
      cases value with
      | arr items =>
          rcases readItems_cases items [] with ⟨vs, hall, hitems⟩ | ⟨⟨faults, hitems⟩, hnone⟩
          · dsimp only
            rw [hitems]
            refine ⟨rfl, vs, ⟨text, items, htext, hread, hall⟩, fun name => ?_⟩
            rw [get?_putAll]
            exact Option.or_none
          · have hnot := not_lists htext fun others hothers => by
              cases hread.symm.trans hothers
              exact hnone
            dsimp only
            rw [hitems]
            exact ⟨⟨_, rfl⟩, hnot⟩
      | _ => exact ⟨⟨_, rfl⟩, not_lists htext fun items hitems => by cases hread.symm.trans hitems⟩

theorem outcome_bytes (file : Path) (bytes : List UInt8) :
    Outcome file bytes (opened file (some (.ok bytes))) := by
  cases htext : readText bytes with
  -- what was encoded can be decoded, so these bytes are the code of no text
  | error fault =>
      have hopened : opened file (some (.ok bytes)) = .error (.undecodable fault) := by
        simp only [opened, htext]
      rw [hopened]
      rintro text rfl
      rw [readText, Text.Utf8.decode_encode] at htext
      cases htext
  | ok text =>
      have hopened : opened file (some (.ok bytes)) =
          (readHeld file text).map fun held => ⟨file, held⟩ := by
        simp only [opened, htext]
      rw [hopened]
      exact outcome_text file htext

/-- Opening the store succeeds with the last entry of each name, or fails as its callers expect, whatever
is found at its path, unless bytes are found that are not UTF-8 or the text of which has more digits or
deeper nesting than are read. -/
theorem opening_outcome (file : Path) :
    (∀ disk, load disk file = opened file (found disk file)) ∧
    opened file none = .ok ⟨file, []⟩ ∧
    (∀ refusal, ∃ message,
      opened file (some (.error refusal)) = .error (.failed (.store message))) ∧
    ∀ bytes, Outcome file bytes (opened file (some (.ok bytes))) := by
  refine ⟨fun disk => load_eq_opened disk file, rfl, ?_, outcome_bytes file⟩
  intro refusal
  exact ⟨_, rfl⟩

/-! ## A stray byte -/

/-- A disk with a variable file of a single byte, which begins no character. -/
def strayDisk : Files.Disk := ⟨⟨"/", []⟩, .folder [("variables.json", .file [0xFF])]⟩

/-- That file. -/
def strayFile : Path := ⟨"/", ["variables.json"]⟩

/-- A file of one byte neither opens nor is a failure of the store. -/
theorem stray_byte_is_no_failure :
    strayDisk.read strayFile = .ok [0xFF] ∧
    ¬ ((∃ s, load strayDisk strayFile = .ok s) ∨
      ∃ message, load strayDisk strayFile = .error (.failed (.store message))) := by
  have hread : strayDisk.read strayFile = .ok [0xFF] := rfl
  have hhas : strayDisk.has strayFile = true := rfl
  have hload : load strayDisk strayFile = .error (.undecodable ⟨.invalidStart, 0, 1, 0xFF⟩) := by
    rw [load_eq_opened, found, if_pos hhas, hread]
    rfl
  refine ⟨hread, ?_⟩
  rw [hload]
  rintro (⟨s, hs⟩ | ⟨message, hmessage⟩)
  · cases hs
  · cases hmessage

end Runbook.Store.Variables
