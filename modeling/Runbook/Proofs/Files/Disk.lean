import Runbook.Files.Disk
import Runbook.Proofs.Assoc
import Runbook.Proofs.Text.AnyBytes

/-!
# A file holds what was written last

A change at a location of a tree is found there (`find_change`), so a file that was written is found
with its bytes (`find_write`). A disk on which a text was written without trouble therefore holds the
bytes of the text (`holds_of_writeText`).
-/

set_option autoImplicit false

namespace Runbook.Files

/-! ## Trees -/

namespace Node

variable {f : Assoc Node → Except Refusal (Assoc Node)} {at_ : Location} {name : String}
  {node node' : Node}

theorem find_append (at_ below : Location) (node : Node) :
    node.find (at_ ++ below) = (node.find at_).bind (find below) := by
  -- by induction on the location, one folder after the other
  induction at_ generalizing node with
  | nil => rfl
  | cons name rest ih =>
      cases node with
      | file bytes => rfl
      | folder entries =>
          simp only [List.cons_append, find]
          split
          · rfl
          · cases Assoc.get? entries name with
            | none => rfl
            | some node => exact ih node

/-- A change finds a folder and leaves it with other entries. -/
theorem find_change (h : node.change f at_ = .ok node') :
    ∃ entries entries', node.find at_ = .ok (folder entries) ∧ f entries = .ok entries' ∧
      node'.find at_ = .ok (folder entries') := by
  induction at_ generalizing node node' with
  | nil =>
      cases node with
      | file bytes => cases h
      | folder entries =>
          rw [change] at h
          cases hf : f entries with
          | error why =>
              rw [hf] at h
              cases h
          | ok entries' =>
              rw [hf] at h
              cases h
              exact ⟨entries, entries', rfl, hf, rfl⟩
  | cons name rest ih =>
      cases node with
      | file bytes => cases h
      | folder entries =>
          rw [change] at h
          split at h
          · cases h
          · rename_i hshort
            cases hchild : Assoc.get? entries name with
            | none =>
                rw [hchild] at h
                cases h
            | some child =>
                rw [hchild] at h
                dsimp only at h
                cases hchange : child.change f rest with
                | error why =>
                    rw [hchange] at h
                    cases h
                | ok child' =>
                    rw [hchange] at h
                    cases h
                    obtain ⟨found, found', hfind, hf, hfind'⟩ := ih hchange
                    refine ⟨found, found', ?_, hf, ?_⟩
                    · rw [find, if_neg hshort, hchild]
                      exact hfind
                    · rw [find, if_neg hshort, Assoc.get?_put, if_pos rfl]
                      exact hfind'

/-- A file that was written is found with its bytes. -/
theorem find_write {bytes : List UInt8} (h : node.write at_ bytes = .ok node') :
    node'.find at_ = .ok (file bytes) := by
  unfold write at h
  split at h
  · cases h
  · rename_i name hname
    obtain ⟨above, rfl⟩ := List.getLast?_eq_some_iff.mp hname
    obtain ⟨entries, entries', _, hentries, hfind⟩ := find_change h
    rw [List.dropLast_concat] at hfind
    rw [find_append, hfind]
    split at hentries
    · cases hentries
    · rename_i hshort
      -- the entry is the file, unless a folder stood in its place
      have hput : entries' = Assoc.put entries name (file bytes) := by
        rcases hentry : Assoc.get? entries name with _ | ⟨before⟩ | ⟨inner⟩ <;>
          rw [hentry] at hentries <;> cases hentries <;> rfl
      rw [hput, Except.bind, find, if_neg hshort, Assoc.get?_put, if_pos rfl]
      rfl

end Node

/-! ## Disks -/

namespace Disk

variable {d d' : Disk} {p : Path}

/-- Whether a file is there with the given bytes. -/
structure Holds (d : Disk) (p : Path) (bytes : List UInt8) : Prop where
  has : d.has p = true
  read : d.read p = .ok bytes

theorem holds_of_writeBytes {bytes : List UInt8} (h : d.writeBytes p bytes = .ok d') :
    d'.Holds p bytes := by
  unfold writeBytes change query at h
  cases hpath : pathTrouble? p with
  | some trouble =>
      rw [hpath] at h
      cases h
  | none =>
      cases hlocate : d.locate p with
      | none =>
          rw [hpath, hlocate] at h
          cases h
      | some at_ =>
          cases hwrite : d.top.write at_ bytes with
          | error why =>
              rw [hpath, hlocate] at h
              simp only [hwrite] at h
              cases h
          | ok top =>
              rw [hpath, hlocate] at h
              simp only [hwrite] at h
              cases h
              have hfind := Node.find_write hwrite
              have hlocate' : locate { d with top := top } p = some at_ := hlocate
              constructor
              · simp only [has, query, hpath, hlocate', hfind]
                rfl
              · simp only [read, query, hpath, hlocate', Node.read, hfind]
                rfl

theorem holds_of_writeText {text : String} (h : d.writeText p text = (d', none)) :
    d'.Holds p (Text.Utf8.encode text) := by
  unfold writeText at h
  split at h
  · cases h
  · split at h
    · cases h
    · split at h
      · rename_i hwrite
        cases h
        exact holds_of_writeBytes hwrite
      · cases h

/-- A text that was written has no unpaired halves. -/
theorem whole_of_writeText {text : String} (h : d.writeText p text = (d', none)) :
    ∀ c ∈ text.toList, Text.halfCode? c = none := by
  unfold writeText at h
  split at h
  · cases h
  · cases htrouble : encodingTrouble? text with
    | some trouble =>
        rw [htrouble] at h
        cases h
    | none => exact Text.firstHalf?_eq_none_iff.mp (Option.map_eq_none_iff.mp htrouble)

/-- A text without unpaired halves is written where bytes can be written. -/
theorem writeText_ok {written : List UInt8 → Disk} {text : String}
    (h : ∀ bytes, d.writeBytes p bytes = .ok (written bytes))
    (htext : Text.firstHalf? text.toList = none) :
    d.writeText p text = (written (Text.Utf8.encode text), none) := by
  rw [writeText, encodingTrouble?, htext]
  simp only [h, Option.map_none]

/-- A text that cannot be encoded leaves an empty file where the file can be opened. -/
theorem writeText_of_trouble {emptied : Disk} {text : String} {trouble : Trouble}
    (h : d.writeBytes p [] = .ok emptied) (htext : encodingTrouble? text = some trouble) :
    d.writeText p text = (emptied, some trouble) := by
  rw [writeText, h]
  dsimp only
  rw [htext]

end Disk

end Runbook.Files
