import Runbook.Proofs.Files.Folder

/-!
# What can be handed over to the system

A path is handed over if no character of it is a null character or a half that stands for no byte
(`pathTrouble?_eq_none_iff`). What is done at such a path is done or refused by the system: nothing
else can go wrong with reading it or changing what is there (`isRefusal_of_query`,
`isRefusal_of_change`), nor with making a folder and those above it (`isRefusal_of_makeFolders`).
-/

set_option autoImplicit false

namespace Runbook.Files

open Text

/-! ## Paths -/

/-- Whether a character can be handed over in a path. -/
def Usable (c : Char) : Prop := c ≠ '\x00' ∧ ((halfCode? c).isSome → (strayByte? c).isSome)

instance (c : Char) : Decidable (Usable c) := inferInstanceAs (Decidable (_ ∧ _))

theorem usable_of_all {cs : List Char} (h : (cs.all fun c => decide (Usable c)) = true) :
    ∀ c ∈ cs, Usable c := by
  simpa using h

theorem strayRun?_eq_none_iff {place : Nat} {cs : List Char} : strayRun? place cs = none ↔
    ∀ c ∈ cs, (halfCode? c).isSome → (strayByte? c).isSome := by
  induction cs generalizing place with
  | nil => exact ⟨fun _ _ h => (nomatch h), fun _ => rfl⟩
  | cons c cs ih =>
      rw [List.forall_mem_cons, strayRun?]
      cases hhalf : halfCode? c with
      | none => simp [ih]
      | some code =>
          cases hstray : strayByte? c with
          | none => simp
          | some b => simp [ih]

theorem handoverTrouble?_eq_none_iff {text : String} :
    handoverTrouble? text = none ↔ ∀ c ∈ text.toList, Usable c := by
  rw [handoverTrouble?]
  cases hrun : strayRun? 0 text.toList with
  | some run =>
      refine ⟨fun h => (nomatch h), fun h => ?_⟩
      rw [strayRun?_eq_none_iff.mpr fun c hc => (h c hc).2] at hrun
      cases hrun
  | none =>
      have hhalves := strayRun?_eq_none_iff.mp hrun
      by_cases hnull : '\x00' ∈ text.toList
      · refine ⟨fun h => ?_, fun h => ((h _ hnull).1 rfl).elim⟩
        simp [hnull] at h
      · refine ⟨fun _ c hc => ⟨fun heq => hnull (heq ▸ hc), hhalves c hc⟩, fun _ => ?_⟩
        simp [hnull]

theorem mem_intercalate_iff {c mark : Char} {parts : List (List Char)} :
    c ∈ [mark].intercalate parts ↔ (∃ part ∈ parts, c ∈ part) ∨ (c = mark ∧ 1 < parts.length) := by
  induction parts with
  | nil => simp
  | cons part parts ih =>
      cases parts with
      | nil => simp
      | cons next parts =>
          rw [List.intercalate_cons_cons, List.mem_append, List.mem_append, ih, List.mem_singleton]
          simp only [List.mem_cons, List.length_cons]
          grind

/-- A path can be handed over if its names can. -/
theorem pathTrouble?_eq_none_iff {p : Path} : pathTrouble? p = none ↔
    (∀ c ∈ p.root.toList, Usable c) ∧ ∀ name ∈ p.names, ∀ c ∈ name.toList, Usable c := by
  have hslash : Usable '/' := by decide
  rw [pathTrouble?, handoverTrouble?_eq_none_iff, Path.text]
  split
  · rename_i hempty
    simp only [Bool.and_eq_true, beq_iff_eq, List.isEmpty_iff] at hempty
    rw [hempty.1, hempty.2]
    exact ⟨fun _ => ⟨by simp, by simp⟩, fun _ => usable_of_all (by decide)⟩
  · rw [String.toList_append, String.toList_intercalate]
    have hmark : "/".toList = ['/'] := rfl
    simp only [List.mem_append, hmark, mem_intercalate_iff, List.mem_map]
    constructor
    · exact fun h => ⟨fun c hc => h c (.inl hc),
        fun name hname c hc => h c (.inr (.inl ⟨_, ⟨name, hname, rfl⟩, hc⟩))⟩
    · rintro ⟨hroot, hnames⟩ c (hc | ⟨_, ⟨name, hname, rfl⟩, hc⟩ | ⟨rfl, _⟩)
      · exact hroot c hc
      · exact hnames name hname c hc
      · exact hslash

theorem pathTrouble?_parent {p : Path} (h : pathTrouble? p = none) :
    pathTrouble? p.parent = none := by
  rw [pathTrouble?_eq_none_iff] at h ⊢
  exact ⟨h.1, fun name hname => h.2 name (List.dropLast_subset _ hname)⟩

theorem pathTrouble?_child_iff {p : Path} {name : String} (hname : Path.IsName name) :
    pathTrouble? (p.child name) = none ↔
      pathTrouble? p = none ∧ ∀ c ∈ name.toList, Usable c := by
  rw [pathTrouble?_eq_none_iff, pathTrouble?_eq_none_iff, Path.child_of_isName hname, and_assoc]
  simp only [List.forall_mem_append, List.forall_mem_singleton]

/-! ## Refusals -/

namespace Disk

variable {d : Disk} {p : Path} {trouble : Trouble}

/-- What is done at a path that can be handed over can only be refused by the system. -/
theorem isRefusal_of_query {α : Type} {use : Location → Node → Except Refusal α}
    (hp : pathTrouble? p = none) (h : d.query p use = .error trouble) :
    trouble.isRefusal = true := by
  rw [query, hp] at h
  dsimp only at h
  split at h
  · cases h
    rfl
  · rename_i at_ _
    cases huse : use at_ d.top with
    | ok found =>
        rw [huse] at h
        cases h
    | error why =>
        rw [huse] at h
        cases h
        rfl

theorem isRefusal_of_change {use : Location → Node → Except Refusal Node}
    (hp : pathTrouble? p = none) (h : d.change p use = .error trouble) :
    trouble.isRefusal = true := by
  unfold change at h
  cases hquery : d.query p use with
  | ok top =>
      rw [hquery] at h
      cases h
  | error found =>
      rw [hquery] at h
      cases h
      exact isRefusal_of_query hp hquery

theorem isRefusal_of_makeFolder (hp : pathTrouble? p = none)
    (h : d.makeFolder p = .error trouble) : trouble.isRefusal = true := by
  unfold makeFolder at h
  split at h
  · cases h
  · rename_i found hchange
    split at h
    · cases h
    · cases h
      exact isRefusal_of_change hp hchange

/-- Making a folder and those above it can only be refused, as the paths above can be handed over
too. -/
theorem isRefusal_of_makeFolders (hp : pathTrouble? p = none)
    (h : d.makeFolders p = .error trouble) : trouble.isRefusal = true := by
  unfold makeFolders at h
  generalize p.names.length = depth at h
  induction depth generalizing trouble p with
  | zero => exact isRefusal_of_makeFolder hp h
  | succ depth ih =>
      rw [makeFoldersTo_succ] at h
      split at h
      · split at h
        · cases h
          rfl
        · cases hparent : makeFoldersTo depth d p.parent with
          | error found =>
              rw [hparent] at h
              cases h
              exact ih (pathTrouble?_parent hp) hparent
          | ok above =>
              rw [hparent] at h
              exact isRefusal_of_makeFolder hp h
      · exact isRefusal_of_makeFolder hp h

end Disk

end Runbook.Files
