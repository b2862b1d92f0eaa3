import Runbook.Condition.Verdict

/-!
# What judging conditions comes to

`Condition.Holds` says of each type of condition when it holds. Judging a condition decides this but
for one case: the value is a search pattern that cannot be read for another reason than its form,
because it is too large, too deep or has conflicting flags (`Condition.Breaks`). A malformed pattern
and a type that names no kind of condition count as not holding. `Condition.judged_iff` puts this
together.

Of conditions in order the first one counts that does not miss: it gives its action if it holds, and
breaks the judgement off, with all conditions behind it, if its pattern cannot be read
(`Condition.chosen_iff`).
-/

set_option autoImplicit false

namespace Runbook

theorem Text.occursIn_iff {part cs : List Char} : Text.occursIn part cs = true ↔ part <:+: cs := by
  induction cs with
  | nil => simp [occursIn]
  | cons c rest ih =>
      rw [occursIn, Bool.or_eq_true, ih, List.isPrefixOf_iff_prefix, List.infix_cons_iff]

/-- Whether a verdict is that the condition holds, unless the judgement was broken off. -/
def Verdict.met : Verdict → Except Pattern.Fault Bool
  | .decided holds => .ok holds
  | .unusable _ => .ok false
  | .broken fault => .error fault

namespace Condition

section Judged

variable (c : Condition) (output : String) (exitCode : Int)

/-- A condition holds of what a step wrote and of its exit code. -/
inductive Holds : Prop
  | contains : c.type = "contains" → c.value.toList <:+: output.toList → Holds
  | equals : c.type = "equals" → (Text.strip output).toList = c.value.toList → Holds
  | startsWith : c.type = "starts_with" → c.value.toList <+: (Text.strip output).toList → Holds
  | endsWith : c.type = "ends_with" → c.value.toList <:+ (Text.strip output).toList → Holds
  | regex {program : Pattern.Program} : c.type = "regex" → Pattern.read c.value = .ok program →
      program.search output = true → Holds
  | exitCode : c.type = "exit_code" → toString exitCode = Text.strip c.value → Holds

/-- The pattern of a condition cannot be read, and not because of its form. -/
structure Breaks (fault : Pattern.Fault) : Prop where
  type : c.type = "regex"
  read : Pattern.read c.value = .error fault
  wellFormed : fault.isMalformed = false

/-- A condition neither holds nor breaks the judgement off. -/
structure Misses : Prop where
  not_holds : ¬ c.Holds output exitCode
  not_breaks (fault : Pattern.Fault) : ¬ c.Breaks fault

/-- What judging a condition comes to. -/
inductive Judged : Except Pattern.Fault Bool → Prop
  | holds : c.Holds output exitCode → Judged (.ok true)
  | misses : c.Misses output exitCode → Judged (.ok false)
  | breaks {fault : Pattern.Fault} : c.Breaks fault → Judged (.error fault)

variable {c output exitCode}

/-! ## One type at a time -/

theorem holds_contains_iff (h : c.type = "contains") :
    c.Holds output exitCode ↔ c.value.toList <:+: output.toList := by
  refine ⟨fun hholds => ?_, .contains h⟩
  cases hholds <;> simp_all

theorem holds_equals_iff (h : c.type = "equals") :
    c.Holds output exitCode ↔ (Text.strip output).toList = c.value.toList := by
  refine ⟨fun hholds => ?_, .equals h⟩
  cases hholds <;> simp_all

theorem holds_startsWith_iff (h : c.type = "starts_with") :
    c.Holds output exitCode ↔ c.value.toList <+: (Text.strip output).toList := by
  refine ⟨fun hholds => ?_, .startsWith h⟩
  cases hholds <;> simp_all

theorem holds_endsWith_iff (h : c.type = "ends_with") :
    c.Holds output exitCode ↔ c.value.toList <:+ (Text.strip output).toList := by
  refine ⟨fun hholds => ?_, .endsWith h⟩
  cases hholds <;> simp_all

theorem holds_regex_iff (h : c.type = "regex") :
    c.Holds output exitCode ↔
      ∃ program, Pattern.read c.value = .ok program ∧ program.search output = true := by
  refine ⟨fun hholds => ?_, fun ⟨_, hread, hfound⟩ => .regex h hread hfound⟩
  cases hholds <;> simp_all

theorem holds_exitCode_iff (h : c.type = "exit_code") :
    c.Holds output exitCode ↔ toString exitCode = Text.strip c.value := by
  refine ⟨fun hholds => ?_, .exitCode h⟩
  cases hholds <;> simp_all

theorem Breaks.not_holds {fault : Pattern.Fault} (h : c.Breaks fault) :
    ¬ c.Holds output exitCode := by
  rw [holds_regex_iff h.type]
  rintro ⟨program, hread, -⟩
  cases h.read.symm.trans hread

theorem Breaks.unique {fault fault' : Pattern.Fault} (h : c.Breaks fault) (h' : c.Breaks fault') :
    fault = fault' :=
  Except.error.inj (h.read.symm.trans h'.read)

theorem Judged.unique {r r' : Except Pattern.Fault Bool} (h : c.Judged output exitCode r)
    (h' : c.Judged output exitCode r') : r = r' := by
  cases h with
  | holds hholds =>
      cases h' with
      | holds => rfl
      | misses hmisses => exact absurd hholds hmisses.not_holds
      | breaks hbreaks => exact absurd hholds hbreaks.not_holds
  | misses hmisses =>
      cases h' with
      | holds hholds => exact absurd hholds hmisses.not_holds
      | misses => rfl
      | breaks hbreaks => exact absurd hbreaks (hmisses.not_breaks _)
  | breaks hbreaks =>
      cases h' with
      | holds hholds => exact absurd hholds hbreaks.not_holds
      | misses hmisses => exact absurd hbreaks (hmisses.not_breaks _)
      | breaks hbreaks' => rw [hbreaks.unique hbreaks']

/-! ## One condition -/

/-- A test that decides whether a condition holds judges it, unless it breaks. -/
theorem judged_of_test {holds : Bool} (hbreaks : ∀ fault, ¬ c.Breaks fault)
    (htest : holds = true ↔ c.Holds output exitCode) : c.Judged output exitCode (.ok holds) := by
  cases holds with
  | true => exact .holds (htest.1 rfl)
  | false => exact .misses ⟨fun h => Bool.false_ne_true (htest.2 h), hbreaks⟩

theorem judged_pattern (h : c.type = "regex") :
    c.Judged output exitCode (Pattern.judge c.value output).met := by
  unfold Pattern.judge
  split
  · rename_i program hread
    refine judged_of_test (fun fault hbreaks => ?_) ?_
    · cases hbreaks.read.symm.trans hread
    · simp [holds_regex_iff h, hread]
  · rename_i fault hread
    -- a pattern that cannot be read is found nowhere
    have hnot : ¬ c.Holds output exitCode := by simp [holds_regex_iff h, hread]
    split
    · rename_i hmalformed
      refine .misses ⟨hnot, fun fault' hbreaks => ?_⟩
      cases hread.symm.trans hbreaks.read
      cases hmalformed.symm.trans hbreaks.wellFormed
    · rename_i hwell
      exact .breaks ⟨h, hread, by simpa using hwell⟩

theorem judged_judge : c.Judged output exitCode (c.judge output exitCode).met := by
  -- only a search pattern breaks
  have htested : ∀ {holds : Bool}, c.type ≠ "regex" → (holds = true ↔ c.Holds output exitCode) →
      c.Judged output exitCode (.ok holds) := fun hne => judged_of_test fun _ h => hne h.type
  simp only [judge, beq_iff_eq]
  split
  next h => exact htested (by simp [h]) (Text.occursIn_iff.trans (holds_contains_iff h).symm)
  split
  next h => exact htested (by simp [h]) (beq_iff_eq.trans (holds_equals_iff h).symm)
  split
  next h =>
    exact htested (by simp [h]) (List.isPrefixOf_iff_prefix.trans (holds_startsWith_iff h).symm)
  split
  next h =>
    exact htested (by simp [h]) (List.isSuffixOf_iff_suffix.trans (holds_endsWith_iff h).symm)
  split
  next h => exact judged_pattern h
  split
  next h => exact htested (by simp [h]) (beq_iff_eq.trans (holds_exitCode_iff h).symm)
  -- no kind of condition has this type
  refine .misses ⟨fun h => ?_, fun fault h => ?_⟩
  · cases h <;> contradiction
  · exact absurd h.type ‹_›

/-- Judging a condition comes to what the condition says, and to nothing else. -/
theorem judged_iff {r : Except Pattern.Fault Bool} :
    c.Judged output exitCode r ↔ (c.judge output exitCode).met = r :=
  ⟨judged_judge.unique, fun h => h ▸ judged_judge⟩

example : ({ type := "contains", value := "b" } : Condition).judge "abc" 0 = .decided true := by
  decide

/-! ## Conditions in order -/

variable (output exitCode) in
/-- What conditions in order come to: the first one that does not miss decides. -/
inductive Chosen : List Condition → Except Pattern.Fault (Option Action) → Prop
  | nothing : Chosen [] (.ok none)
  | holds {c : Condition} (rest : List Condition) : c.Holds output exitCode →
      Chosen (c :: rest) (.ok (some c.action))
  | breaks {c : Condition} (rest : List Condition) {fault : Pattern.Fault} : c.Breaks fault →
      Chosen (c :: rest) (.error fault)
  | misses {c : Condition} {rest : List Condition} {r : Except Pattern.Fault (Option Action)} :
      c.Misses output exitCode → Chosen rest r → Chosen (c :: rest) r

theorem Chosen.unique {conditions : List Condition} {r r' : Except Pattern.Fault (Option Action)}
    (h : Chosen output exitCode conditions r) (h' : Chosen output exitCode conditions r') :
    r = r' := by
  induction h with
  | nothing =>
      cases h'
      rfl
  | holds rest hholds =>
      cases h' with
      | holds => rfl
      | breaks _ hbreaks => exact absurd hholds hbreaks.not_holds
      | misses hmisses => exact absurd hholds hmisses.not_holds
  | breaks rest hbreaks =>
      cases h' with
      | holds _ hholds => exact absurd hholds hbreaks.not_holds
      | breaks _ hbreaks' => rw [hbreaks.unique hbreaks']
      | misses hmisses => exact absurd hbreaks (hmisses.not_breaks _)
  | misses hmisses _ ih =>
      cases h' with
      | holds _ hholds => exact absurd hholds hmisses.not_holds
      | breaks _ hbreaks => exact absurd hbreaks (hmisses.not_breaks _)
      | misses _ hrest => exact ih hrest

theorem chosen_choose (conditions : List Condition) :
    Chosen output exitCode conditions (choose output exitCode conditions).action := by
  -- by induction on the conditions; the first one decides or misses
  induction conditions with
  | nil => exact .nothing
  | cons c rest ih =>
      have hjudged : c.Judged output exitCode (c.judge output exitCode).met := judged_judge
      rw [choose]
      cases hverdict : c.judge output exitCode with
      | decided holds =>
          rw [hverdict] at hjudged
          cases hjudged with
          | holds hholds => exact .holds rest hholds
          | misses hmisses => exact .misses hmisses ih
      | unusable why =>
          rw [hverdict] at hjudged
          cases hjudged with
          | misses hmisses => exact .misses hmisses ih
      | broken fault =>
          rw [hverdict] at hjudged
          cases hjudged with
          | breaks hbreaks => exact .breaks rest hbreaks

/-- Conditions in order come to what the first one says that does not miss. -/
theorem chosen_iff {conditions : List Condition} {r : Except Pattern.Fault (Option Action)} :
    Chosen output exitCode conditions r ↔ (choose output exitCode conditions).action = r :=
  ⟨(chosen_choose conditions).unique, fun h => h ▸ chosen_choose conditions⟩

end Judged

end Condition

end Runbook
