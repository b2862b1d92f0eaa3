import Runbook.Proofs.Assoc
import Runbook.Store.Variables

/-!
# Changes of the variable store

Setting and deleting a variable are changes of one kind (`set_eq`, `delete_of_some`): the store is changed,
the file is written, and the outcome of the writing settles whether the change stays. In a store that
was read from a file and changed since, each variable stands once and under its own name, whatever the
outcomes were (`tidy_of_reached`). A change that the system refused leaves a store that answers as
before, and a change that failed in another way stays (`failed_change`).
-/

set_option autoImplicit false

namespace Runbook.Store.Variables

/-! ## Changes and their outcomes -/

/-- The store after a change, the store if the change is taken back, and what the change answers. -/
structure Change (α : Type) where
  after : Variables
  back : Variables
  answer : α

/-- What is left of a change when the writing of the file had an outcome. -/
def Change.settle {α : Type} (c : Change α) : Files.Disk × Option Fault → Changed α
  | (disk, none) => ⟨disk, c.after, .ok c.answer⟩
  | (disk, some fault) => ⟨disk, if takesBack fault then c.back else c.after, .error fault⟩

/-- The change that keeps a variable. -/
def setting (s : Variables) (now : Timestamp) (v : GlobalVariable) : Change GlobalVariable :=
  ⟨{ s with held := s.held.put v.name (s.stamp now v) }, s, s.stamp now v⟩

/-- The change that takes a variable away, if it is there. -/
def deleting (s : Variables) (name : String) : Option (Change Unit) :=
  (s.held.get? name).map fun existing =>
    ⟨{ s with held := s.held.erase name },
      { s with held := s.held.erase name ++ [(name, existing)] }, ()⟩

theorem set_eq (s : Variables) (disk : Files.Disk) (now : Timestamp) (v : GlobalVariable) :
    s.set disk now v = (s.setting now v).settle ((s.setting now v).after.write disk) := by
  have hname : (s.stamp now v).name = v.name := rfl
  simp only [set, setting, hname]
  rcases write _ disk with ⟨written, _ | fault⟩ <;> rfl

theorem delete_of_none {s : Variables} {name : String} (h : s.deleting name = none)
    (disk : Files.Disk) :
    s.delete disk name = ⟨disk, s, .error (.failed (.variableNotFound name))⟩ := by
  rw [delete, Option.map_eq_none_iff.mp h]

theorem delete_of_some {s : Variables} {name : String} {c : Change Unit}
    (h : s.deleting name = some c) (disk : Files.Disk) :
    s.delete disk name = c.settle (c.after.write disk) := by
  obtain ⟨existing, hexisting, rfl⟩ := Option.map_eq_some_iff.mp h
  simp only [delete, hexisting]
  rcases write _ disk with ⟨written, _ | fault⟩ <;> rfl

/-- A store that was read from a file and changed since, whatever the outcomes of the writing. -/
inductive Reached : Variables → Prop
  | load {disk : Files.Disk} {file : Path} {s : Variables} : load disk file = .ok s → Reached s
  | set {s : Variables} (now : Timestamp) (v : GlobalVariable)
      (outcome : Files.Disk × Option Fault) :
      Reached s → Reached ((s.setting now v).settle outcome).store
  | delete {s : Variables} {name : String} {c : Change Unit}
      (outcome : Files.Disk × Option Fault) :
      Reached s → s.deleting name = some c → Reached (c.settle outcome).store

/-! ## Each variable once, under its own name -/

/-- Each variable stands once and under its own name. -/
structure Tidy (held : Assoc GlobalVariable) : Prop where
  nodup : held.keys.Nodup
  filed : ∀ name v, held.get? name = some v → v.name = name

theorem tidy_nil : Tidy [] := ⟨List.nodup_nil, fun _ _ h => nomatch h⟩

theorem Tidy.put {held : Assoc GlobalVariable} (h : Tidy held) (v : GlobalVariable) :
    Tidy (held.put v.name v) := by
  refine ⟨Assoc.nodup_keys_put h.nodup _ _, fun name found hfound => ?_⟩
  rw [Assoc.get?_put] at hfound
  split at hfound
  · rename_i hname
    rw [← Option.some.inj hfound, hname]
  · exact h.filed name found hfound

theorem Tidy.erase {held : Assoc GlobalVariable} (h : Tidy held) (key : String) :
    Tidy (held.erase key) := by
  refine ⟨Assoc.nodup_keys_erase h.nodup key, fun name found hfound => ?_⟩
  rw [Assoc.get?_erase] at hfound
  split at hfound
  · cases hfound
  · exact h.filed name found hfound

/-- A variable that comes back as the last one is found as before. -/
theorem get?_erase_append {held : Assoc GlobalVariable} {key : String} {v : GlobalVariable}
    (h : held.get? key = some v) (name : String) :
    Assoc.get? (held.erase key ++ [(key, v)]) name = held.get? name := by
  rw [Assoc.get?_append, Assoc.get?_erase]
  by_cases hname : key = name
  · simp [Assoc.get?, hname, ← h]
  · simp [Assoc.get?, hname]

theorem Tidy.erase_append {held : Assoc GlobalVariable} (h : Tidy held) {key : String}
    {v : GlobalVariable} (hv : held.get? key = some v) : Tidy (held.erase key ++ [(key, v)]) := by
  refine ⟨?_, fun name found hfound => h.filed name found ?_⟩
  · have hkeys : Assoc.keys (held.erase key ++ [(key, v)]) = (held.erase key).keys ++ [key] := by
      simp [Assoc.keys]
    rw [hkeys]
    refine List.nodup_append.mpr
      ⟨Assoc.nodup_keys_erase h.nodup key, by simp, fun name hname other hother hsame => ?_⟩
    -- the name that comes back was taken out before
    rw [hsame, List.mem_singleton.mp hother, Assoc.mem_keys_iff] at hname
    obtain ⟨found, hfound⟩ := hname
    rw [Assoc.get?_erase, if_pos rfl] at hfound
    cases hfound
  · rw [← hfound, get?_erase_append hv]

theorem tidy_readItems {items : List Json} {known held : Assoc GlobalVariable} (h : Tidy known)
    (hread : readItems items (.ok known) = .ok held) : Tidy held := by
  -- by induction on the items, each of which is put under its own name
  induction items generalizing known with
  | nil =>
      cases hread
      exact h
  | cons item items ih =>
      cases hitem : GlobalVariable.read item with
      | error faults => simp [readItems, Checked.andThen, hitem] at hread
      | ok v =>
          simp only [readItems, Checked.andThen, hitem] at hread
          exact ih (h.put v) hread

/-- What a store that could be loaded holds: nothing, or the variables of a text that is a list. -/
theorem load_cases {disk : Files.Disk} {file : Path} {s : Variables}
    (h : load disk file = .ok s) :
    s.file = file ∧
      ((disk.has file = false ∧ s.held = []) ∨
        ∃ bytes text items, disk.has file = true ∧ disk.read file = .ok bytes ∧
          readText bytes = .ok text ∧ Json.read .plain text = .ok (.arr items) ∧
          readItems items (.ok []) = .ok s.held) := by
  unfold load at h
  split at h
  · cases h
    exact ⟨rfl, .inl ⟨by simp_all, rfl⟩⟩
  · split at h
    · cases h
    · split at h
      · cases h
      · rename_i hhas _ bytes hbytes _ text htext
        cases hheld : readHeld file text with
        | error fault =>
            rw [hheld] at h
            cases h
        | ok held =>
            rw [hheld] at h
            cases h
            refine ⟨rfl, .inr ⟨bytes, text, ?_⟩⟩
            unfold readHeld at hheld
            split at hheld
            · split at hheld <;> cases hheld
            · split at hheld
              · rename_i hitems _ _ hread
                cases hheld
                exact ⟨_, by simpa using hhas, hbytes, htext, hitems, hread⟩
              · cases hheld
            · cases hheld

theorem tidy_load {disk : Files.Disk} {file : Path} {s : Variables} (h : load disk file = .ok s) :
    Tidy s.held := by
  obtain ⟨_, ⟨_, hempty⟩ | ⟨_, _, _, _, _, _, _, hread⟩⟩ := load_cases h
  · rw [hempty]
    exact tidy_nil
  · exact tidy_readItems tidy_nil hread

theorem settle_store {α : Type} (c : Change α) (outcome : Files.Disk × Option Fault) :
    (c.settle outcome).store = c.after ∨ (c.settle outcome).store = c.back := by
  obtain ⟨disk, _ | fault⟩ := outcome
  · exact .inl rfl
  · cases hback : takesBack fault
    · exact .inl (by simp [Change.settle, hback])
    · exact .inr (by simp [Change.settle, hback])

/-- In a store, each variable stands once and under its own name. -/
theorem tidy_of_reached {s : Variables} (h : Reached s) : Tidy s.held := by
  -- a change is made or taken back, and either way it keeps the names in order
  induction h with
  | load hload => exact tidy_load hload
  | @set s now v outcome _ ih =>
      rcases settle_store (s.setting now v) outcome with hstore | hstore
      · rw [hstore]
        exact ih.put (s.stamp now v)
      · rw [hstore]
        exact ih
  | @delete s name c outcome _ hc ih =>
      obtain ⟨existing, hexisting, rfl⟩ := Option.map_eq_some_iff.mp hc
      rcases settle_store _ outcome with hstore | hstore
      · rw [hstore]
        exact ih.erase name
      · rw [hstore]
        exact ih.erase_append hexisting

/-! ## Stores that answer alike -/

/-- Two stores that answer every question alike. -/
structure Alike (s s' : Variables) : Prop where
  list : s'.list = s.list
  get : ∀ name, s'.get name = s.get name
  scope : ∀ name, s'.scope.get? name = s.scope.get? name

theorem list_eq_of_get? {s s' : Variables} (h : Tidy s.held) (h' : Tidy s'.held)
    (hget : ∀ name, s'.held.get? name = s.held.get? name) : s'.list = s.list :=
  Assoc.mergeSort_values_eq GlobalVariable.name h.nodup h'.nodup h.filed hget
    (fun a b c hab hbc => by simpa using String.le_trans (by simpa using hab) (by simpa using hbc))
    (fun a b => by simpa using String.le_total a.name b.name)
    (fun a b hab hba => String.le_antisymm (by simpa using hab) (by simpa using hba))

/-- Two tidy stores in which the same is found answer alike. -/
theorem alike_of_get? {s s' : Variables} (h : Tidy s.held) (h' : Tidy s'.held)
    (hget : ∀ name, s'.held.get? name = s.held.get? name) : Alike s s' where
  list := list_eq_of_get? h h' hget
  get name := by rw [get, hget, get]
  scope name := by rw [scope, scope, Assoc.get?_map, Assoc.get?_map, hget]

/-! ## Changes that fail -/

/-- What a change whose writing ended with a fault leaves of a store. If the system refused, the store
answers as before, and whichever variable is kept next, the same is written as if the change had never
been tried. Otherwise the store goes on with the change. -/
structure Failed (s after left : Variables) (fault : Fault) : Prop where
  alike : takesBack fault = true → Alike s left
  next : takesBack fault = true → ∀ now v,
    (left.setting now v).after.list = (s.setting now v).after.list
  stays : takesBack fault = false → left = after

theorem stamp_eq_of_get? {s s' : Variables} (hget : ∀ name, s'.held.get? name = s.held.get? name)
    (now : Timestamp) (v : GlobalVariable) : s'.stamp now v = s.stamp now v := by
  simp only [stamp, hget]

theorem failed_settle {α : Type} {s : Variables} {c : Change α} (h : Tidy s.held)
    (hback : Tidy c.back.held) (hget : ∀ name, c.back.held.get? name = s.held.get? name)
    (disk : Files.Disk) (fault : Fault) :
    Failed s c.after (c.settle (disk, some fault)).store fault where
  alike htakes := by
    rw [Change.settle, if_pos htakes]
    exact alike_of_get? h hback hget
  next htakes now v := by
    rw [Change.settle, if_pos htakes]
    refine list_eq_of_get? (h.put (s.stamp now v)) (hback.put (c.back.stamp now v)) fun name => ?_
    simp only [setting, stamp_eq_of_get? hget, Assoc.get?_put, hget]
  stays hstays := by
    rw [Change.settle, if_neg (by simp [hstays])]

theorem settle_answer_error {α : Type} {c : Change α} {outcome : Files.Disk × Option Fault} {fault : Fault}
    (h : outcome.2 = some fault) : (c.settle outcome).answer = .error fault := by
  obtain ⟨disk, _ | found⟩ := outcome
  · cases h
  · cases h
    rfl

theorem settle_error {α : Type} {c : Change α} {outcome : Files.Disk × Option Fault} {fault : Fault}
    (h : (c.settle outcome).answer = .error fault) : outcome = (outcome.1, some fault) := by
  obtain ⟨disk, _ | found⟩ := outcome
  · cases h
  · cases h
    rfl

/-- A change that fails leaves the store as it was if the system refused to write, and stays
otherwise; a variable that is not there cannot be deleted, which changes nothing. -/
theorem failed_change {s : Variables} (hs : Reached s) (disk : Files.Disk) :
    (∀ now v fault, (s.set disk now v).answer = .error fault →
      Failed s (s.setting now v).after (s.set disk now v).store fault) ∧
    ∀ name fault, (s.delete disk name).answer = .error fault →
      (s.deleting name = none ∧ (s.delete disk name).store = s) ∨
      ∃ c, s.deleting name = some c ∧ Failed s c.after (s.delete disk name).store fault := by
  have hs := tidy_of_reached hs
  constructor
  · intro now v fault hanswer
    rw [set_eq] at hanswer ⊢
    rw [settle_error hanswer]
    exact failed_settle hs hs (fun _ => rfl) _ fault
  · intro name fault hanswer
    cases hc : s.deleting name with
    | none => exact .inl ⟨rfl, by rw [delete_of_none hc]⟩
    | some c =>
        refine .inr ⟨c, rfl, ?_⟩
        rw [delete_of_some hc] at hanswer ⊢
        obtain ⟨existing, hexisting, rfl⟩ := Option.map_eq_some_iff.mp hc
        rw [settle_error hanswer]
        exact failed_settle hs (hs.erase_append hexisting) (get?_erase_append hexisting) _ fault

/-! ## A text that cannot be written -/

/-- A file of two variables, the value of the first being an unpaired half. -/
def halfText : String :=
  "[\x7b\"name\": \"A\", \"value\": \"\\ud800\"\x7d, \x7b\"name\": \"B\", \"value\": \"1\"\x7d]"

/-- A disk with that file. -/
def halfDisk : Files.Disk :=
  ⟨⟨"/", []⟩, .folder [("variables.json", .file (Text.Utf8.encode halfText))]⟩

/-- The store that is read from it. -/
def halfStore : Variables :=
  ⟨⟨"/", ["variables.json"]⟩,
    [("A", { name := "A", value := String.singleton (Text.halfChar 0xD800) }),
      ("B", { name := "B", value := "1" })]⟩

theorem reached_halfStore : Reached halfStore := by
  have hread : ((load halfDisk halfStore.file).toOption.map fun s => (s.file, s.held)) =
      some (halfStore.file, halfStore.held) := by
    decide +kernel
  cases hload : load halfDisk halfStore.file with
  | error fault =>
      rw [hload] at hread
      cases hread
  | ok loaded =>
      rw [hload] at hread
      obtain ⟨file, held⟩ := loaded
      cases hread
      exact Reached.load hload

theorem delete_halfStore : (halfStore.delete halfDisk "B").answer =
    .error (.trouble (.unencodable 0xD800 37 1)) := by
  rw [delete_of_some rfl]
  exact settle_answer_error (by decide +kernel)

/-- A deletion fails as the text of the other variable cannot be encoded, and the variable is gone
nevertheless. -/
theorem failed_deletion_stays :
    Reached halfStore ∧
    (halfStore.delete halfDisk "B").answer = .error (.trouble (.unencodable 0xD800 37 1)) ∧
    halfStore.get "B" = .ok { name := "B", value := "1" } ∧
    (halfStore.delete halfDisk "B").store.get "B" = .error (.variableNotFound "B") := by
  refine ⟨reached_halfStore, delete_halfStore, rfl, ?_⟩
  have hget : (halfStore.delete halfDisk "B").store.held.get? "B" = none := by decide +kernel
  rw [get, hget]

theorem failed_change_halfStore :
    (Reached halfStore ∧
      (halfStore.delete halfDisk "B").answer = .error (.trouble (.unencodable 0xD800 37 1))) ∧
    ((halfStore.deleting "B" = none ∧ (halfStore.delete halfDisk "B").store = halfStore) ∨
      ∃ c, halfStore.deleting "B" = some c ∧
        Failed halfStore c.after (halfStore.delete halfDisk "B").store
          (.trouble (.unencodable 0xD800 37 1))) :=
  ⟨⟨reached_halfStore, delete_halfStore⟩,
    (failed_change reached_halfStore halfDisk).2 "B" _ delete_halfStore⟩

end Runbook.Store.Variables
