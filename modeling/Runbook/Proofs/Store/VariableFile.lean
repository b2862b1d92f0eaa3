import Runbook.Proofs.Definition.Variable
import Runbook.Proofs.Files.Disk
import Runbook.Proofs.Store.Variables
import Runbook.Proofs.Text.Utf8

/-!
# The variable store agrees with its file

A store is `Kept` with its file if it was loaded from the file and every change since has written the
file or was refused before the file was touched, while nobody else changed the file. Writing a store
gives a file from which the same variables are loaded (`load_of_write`), as bytes, text, values and
variables are all read back. Hence loading the file of a store that is kept succeeds at any time and
gives a store that answers alike (`load_of_kept`).
-/

set_option autoImplicit false

namespace Runbook.Store

/-! ## Reading back a file -/

theorem normalizeNewlines_eq_self {cs : List Char} (h : '\x0d' ∉ cs) :
    Text.normalizeNewlines cs = cs := by
  induction cs with
  | nil => rfl
  | cons c cs ih =>
      obtain ⟨hc, hcs⟩ := List.ne_and_not_mem_of_not_mem_cons h
      rw [Text.normalizeNewlines, ih hcs]
      all_goals simp [Ne.symm hc]

/-- The bytes of a value that was written are read as its text. -/
theorem readText_indented {depth : Nat} {value : Json} (h : Json.Exact depth value) :
    readText (Text.Utf8.encode (value.indented ++ "\n")) = .ok (value.indented ++ "\n").toList := by
  have hplain : '\x0d' ∉ (value.indented ++ "\n").toList := by
    simp [Json.indented, Json.return_notMem_printIndented h 0]
  rw [readText, Text.Utf8.decode_encode, Except.map, normalizeNewlines_eq_self hplain]

theorem holds_of_writeValue {disk disk' : Files.Disk} {file : Path} {value : Json}
    (h : writeValue disk file value = (disk', none)) :
    disk'.Holds file (Text.Utf8.encode (value.indented ++ "\n")) := by
  unfold writeValue at h
  split at h
  · cases h
  · exact Files.Disk.holds_of_writeText h

/-- A value whose text has no unpaired halves is written where its file can be written. -/
theorem writeValue_of_writeBytes {disk made : Files.Disk} {path : Path} {value : Json}
    {written : List UInt8 → Files.Disk} (hfolder : disk.makeFolders path.parent = .ok made)
    (hwrite : ∀ bytes, made.writeBytes path bytes = .ok (written bytes))
    (htext : Text.firstHalf? (value.printIndented 0 ++ ['\n']) = none) :
    writeValue disk path value =
      (written (Text.Utf8.encode (value.indented ++ "\n")), none) := by
  have hchars : (value.indented ++ "\n").toList = value.printIndented 0 ++ ['\n'] := by
    simp [Json.indented]
  rw [writeValue, hfolder]
  exact Files.Disk.writeText_ok hwrite (hchars ▸ htext)

namespace Variables

/-- The text that is written of a store. -/
def text (s : Variables) : String := (Json.arr (s.list.map GlobalVariable.toJson)).indented ++ "\n"

theorem toList_text (s : Variables) : s.text.toList =
    (Json.arr (s.list.map GlobalVariable.toJson)).printIndented 0 ++ ['\n'] := by
  simp [text, Json.indented]

/-- Whether the text of a store has no unpaired halves. -/
def Whole (s : Variables) : Prop :=
  Text.firstHalf? ((Json.arr (s.list.map GlobalVariable.toJson)).printIndented 0 ++ ['\n']) = none

/-- The text of a store has no unpaired halves exactly if the variables have none. -/
theorem whole_iff {s : Variables} : s.Whole ↔ ∀ v ∈ s.held.values, v.Whole := by
  have hplain : ∀ c, Text.IsAscii c → c ≠ '\x0d' → Text.halfCode? c = none :=
    fun c hc _ => Text.halfCode?_of_isAscii hc
  have hend : Text.halfCode? '\n' = none := by decide
  rw [Whole, Text.firstHalf?_eq_none_iff, List.forall_mem_append, Json.forall_mem_arr_iff hplain,
    List.forall_mem_map, List.forall_mem_singleton, and_iff_left hend]
  simp only [GlobalVariable.forall_half_toJson_iff, list, List.mem_mergeSort]

/-- A variable under its own name. -/
def entry (v : GlobalVariable) : String × GlobalVariable := (v.name, v)

theorem readItems_cons {item : Json} {v : GlobalVariable} (h : GlobalVariable.read item = .ok v)
    (items : List Json) (known : Assoc GlobalVariable) :
    readItems (item :: items) (.ok known) = readItems items (.ok (known.put v.name v)) := by
  show (GlobalVariable.read item).andThen _ = _
  rw [h]
  rfl

theorem readItems_toJson {vs : List GlobalVariable} {known : Assoc GlobalVariable}
    (hvalid : ∀ v ∈ vs, v.Valid) (hkeys : (Assoc.keys (known ++ vs.map entry)).Nodup) :
    readItems (vs.map GlobalVariable.toJson) (.ok known) = .ok (known ++ vs.map entry) := by
  -- by induction on the variables, each of which has a name that is not there yet
  induction vs generalizing known with
  | nil => exact congrArg Except.ok (List.append_nil known).symm
  | cons v vs ih =>
      obtain ⟨hv, hvs⟩ := List.forall_mem_cons.mp hvalid
      rw [List.map_cons] at hkeys ⊢
      have hput : known.put v.name v = known ++ [entry v] :=
        Assoc.put_of_notMem (Assoc.notMem_of_nodup_append hkeys) v
      rw [List.map_cons, readItems_cons (GlobalVariable.read_toJson hv), hput,
        ih hvs (by simpa using hkeys), List.append_assoc, List.singleton_append]

theorem load_of_holds {disk : Files.Disk} {file : Path} {vs : List GlobalVariable}
    (hvalid : ∀ v ∈ vs, v.Valid) (hkeys : (Assoc.keys (vs.map entry)).Nodup)
    (hholds : disk.Holds file
      (Text.Utf8.encode ((Json.arr (vs.map GlobalVariable.toJson)).indented ++ "\n"))) :
    load disk file = .ok ⟨file, vs.map entry⟩ := by
  have hexact : Json.Exact Json.Dialect.plain.maxDepth (.arr (vs.map GlobalVariable.toJson)) := by
    show Json.Exact (949 + 1) _
    refine .arr fun item hitem => ?_
    obtain ⟨v, _, rfl⟩ := List.mem_map.mp hitem
    exact v.exact_toJson 948
  have hitems : readItems (vs.map GlobalVariable.toJson) (.ok []) = .ok (vs.map entry) :=
    readItems_toJson hvalid hkeys
  have hread : readHeld file ((Json.arr (vs.map GlobalVariable.toJson)).indented ++ "\n").toList =
      .ok (vs.map entry) := by
    simp only [readHeld, Json.read_indented hexact, hitems]
  simp only [load, hholds.has, hholds.read, readText_indented hexact, hread]
  rfl

/-! ## Loading what was written -/

/-- In a tidy store, the entries are the variables under their own names. -/
theorem held_eq_map_entry {held : Assoc GlobalVariable} (h : Tidy held) :
    held = held.values.map entry := by
  have hentry : ∀ pair ∈ held, entry pair.2 = pair := by
    rintro ⟨name, v⟩ hpair
    rw [entry, h.filed name v ((Assoc.get?_eq_some_iff h.nodup).mpr hpair)]
  calc held = held.map id := (List.map_id _).symm
    _ = held.map fun pair => entry pair.2 := (List.map_congr_left hentry).symm
    _ = held.values.map entry := by rw [Assoc.values, List.map_map]; rfl

theorem perm_list {s : Variables} (h : Tidy s.held) : (s.list.map entry).Perm s.held := by
  have hvalues : s.list.Perm s.held.values := List.mergeSort_perm _ _
  have hentries := hvalues.map entry
  rwa [← held_eq_map_entry h] at hentries

/-- The variables of a store are loaded again from the file to which it was written. -/
theorem load_of_write {s : Variables} {disk disk' : Files.Disk} (htidy : Tidy s.held)
    (hvalid : ∀ name v, s.held.get? name = some v → v.Valid)
    (h : s.write disk = (disk', none)) :
    load disk' s.file = .ok ⟨s.file, s.list.map entry⟩ ∧
      ∀ name, Assoc.get? (s.list.map entry) name = s.held.get? name := by
  have hperm := perm_list htidy
  have hkeys : (Assoc.keys (s.list.map entry)).Nodup :=
    (hperm.map fun pair : String × GlobalVariable => pair.1).nodup_iff.mpr htidy.nodup
  have hvalues : ∀ v ∈ s.list, v.Valid := by
    intro v hv
    refine hvalid v.name v ((Assoc.get?_eq_some_iff htidy.nodup).mpr ?_)
    exact hperm.subset (List.mem_map_of_mem (f := entry) hv)
  have hwritten : writeValue disk s.file (.arr (s.list.map GlobalVariable.toJson)) =
      (disk', none) := by
    obtain ⟨hdisk, hnone⟩ := Prod.mk.inj h
    exact Prod.ext hdisk (Option.map_eq_none_iff.mp hnone)
  exact ⟨load_of_holds hvalues hkeys (holds_of_writeValue hwritten),
    (Assoc.perm_iff_get? hkeys htidy.nodup).mp hperm⟩

/-! ## Stores that are kept -/

/-- Whether a file is the same on two disks: there or not, and with the same bytes if it is. -/
structure SameFile (file : Path) (disk disk' : Files.Disk) : Prop where
  has : disk'.has file = disk.has file
  read : disk.has file = true → disk'.read file = disk.read file

/-- A store and the disk with its file: the store was loaded from the file, and each change since has
written the file, or was refused by the system and left the file as it was. Whatever else changes on
the disk, the file is written by the store alone. -/
inductive Kept (file : Path) : Files.Disk → Variables → Prop
  | load {disk : Files.Disk} {s : Variables} : load disk file = .ok s → Kept file disk s
  | elsewhere {disk disk' : Files.Disk} {s : Variables} :
      Kept file disk s → SameFile file disk disk' → Kept file disk' s
  | set {disk : Files.Disk} {s : Variables} {now : Timestamp} {v stored : GlobalVariable} :
      Kept file disk s → now.WellFormed → (∃ value, GlobalVariable.read value = .ok v) →
      (s.set disk now v).answer = .ok stored →
      Kept file (s.set disk now v).disk (s.set disk now v).store
  | delete {disk : Files.Disk} {s : Variables} {name : String} :
      Kept file disk s → (s.delete disk name).answer = .ok () →
      Kept file (s.delete disk name).disk (s.delete disk name).store
  | setRefused {disk disk' : Files.Disk} {s : Variables} (now : Timestamp) (v : GlobalVariable)
      {fault : Fault} : Kept file disk s → SameFile file disk disk' → takesBack fault = true →
      Kept file disk' ((s.setting now v).settle (disk', some fault)).store
  | deleteRefused {disk disk' : Files.Disk} {s : Variables} {name : String} {c : Change Unit}
      {fault : Fault} : Kept file disk s → s.deleting name = some c → SameFile file disk disk' →
      takesBack fault = true → Kept file disk' (c.settle (disk', some fault)).store

/-- What holds of a store and the disk with its file at any time. -/
structure Agrees (file : Path) (disk : Files.Disk) (s : Variables) : Prop where
  sameFile : s.file = file
  tidy : Tidy s.held
  valid : ∀ name v, s.held.get? name = some v → v.Valid
  loaded : ∃ s', load disk file = .ok s' ∧ Tidy s'.held ∧
    ∀ name, s'.held.get? name = s.held.get? name

variable {file : Path} {disk disk' : Files.Disk} {s : Variables}

theorem valid_nil (name : String) (v : GlobalVariable)
    (h : Assoc.get? [] name = some v) : v.Valid :=
  nomatch h

theorem valid_of_readItems {items : List Json} {known held : Assoc GlobalVariable}
    (h : ∀ name v, known.get? name = some v → v.Valid)
    (hread : readItems items (.ok known) = .ok held) :
    ∀ name v, held.get? name = some v → v.Valid := by
  induction items generalizing known with
  | nil =>
      cases hread
      exact h
  | cons item items ih =>
      cases hitem : GlobalVariable.read item with
      | error faults => simp [readItems, Checked.andThen, hitem] at hread
      | ok v =>
          rw [readItems_cons hitem] at hread
          refine ih (fun name found hfound => ?_) hread
          rw [Assoc.get?_put] at hfound
          split at hfound
          · exact Option.some.inj hfound ▸ GlobalVariable.valid_of_read hitem
          · exact h name found hfound

theorem agrees_load (h : load disk file = .ok s) : Agrees file disk s := by
  refine ⟨(load_cases h).1, tidy_load h, ?_, s, h, tidy_load h, fun _ => rfl⟩
  obtain ⟨_, ⟨_, hempty⟩ | ⟨_, _, _, _, _, _, _, hread⟩⟩ := load_cases h
  · simp [hempty, Assoc.get?]
  · exact valid_of_readItems valid_nil hread

theorem load_eq_of_sameFile (h : SameFile file disk disk') : load disk' file = load disk file := by
  unfold load
  rw [h.has]
  cases hhas : disk.has file with
  | false => rfl
  | true => rw [h.read hhas]

theorem Agrees.elsewhere (h : Agrees file disk s) (hsame : SameFile file disk disk') :
    Agrees file disk' s :=
  ⟨h.sameFile, h.tidy, h.valid, load_eq_of_sameFile hsame ▸ h.loaded⟩

/-- A change that was taken back agrees with the file as before. -/
theorem Agrees.back {s' : Variables} (h : Agrees file disk s) (hfile : s'.file = s.file)
    (htidy : Tidy s'.held) (hget : ∀ name, s'.held.get? name = s.held.get? name) :
    Agrees file disk s' := by
  obtain ⟨loaded, hload, hloaded, hsame⟩ := h.loaded
  exact ⟨hfile.trans h.sameFile, htidy, fun name v hv => h.valid name v (hget name ▸ hv),
    loaded, hload, hloaded, fun name => (hsame name).trans (hget name).symm⟩

/-- A store that was written agrees with the file. -/
theorem agrees_of_write (hfile : s.file = file) (htidy : Tidy s.held)
    (hvalid : ∀ name v, s.held.get? name = some v → v.Valid)
    (h : s.write disk = (disk', none)) : Agrees file disk' s := by
  subst hfile
  obtain ⟨hload, hget⟩ := load_of_write htidy hvalid h
  exact ⟨rfl, htidy, hvalid, _, hload, tidy_load hload, hget⟩

theorem valid_stamp (h : ∀ name v, s.held.get? name = some v → v.Valid) {now : Timestamp}
    (hnow : now.WellFormed) {v : GlobalVariable} (hv : v.Valid) : (s.stamp now v).Valid := by
  refine ⟨hv.trimmed, hv.named, ?_, fun t ht => Option.some.inj ht ▸ hnow⟩
  rintro t ⟨⟩
  cases hexisting : s.held.get? v.name with
  | none =>
      cases hcreated : v.createdAt with
      | none => simpa [hexisting, hcreated] using hnow
      | some t => simpa [hexisting, hcreated] using hv.created t hcreated
  | some existing =>
      cases hcreated : existing.createdAt with
      | none => simpa [hexisting, hcreated] using hnow
      | some t => simpa [hexisting, hcreated] using (h _ _ hexisting).created t hcreated

/-- Setting a valid variable leaves valid variables. -/
theorem valid_setting (h : ∀ name v, s.held.get? name = some v → v.Valid) {now : Timestamp}
    (hnow : now.WellFormed) {v : GlobalVariable} (hv : v.Valid) (name : String)
    (found : GlobalVariable) (hfound : (s.setting now v).after.held.get? name = some found) :
    found.Valid := by
  rw [setting, Assoc.get?_put] at hfound
  split at hfound
  · exact Option.some.inj hfound ▸ valid_stamp h hnow hv
  · exact h name found hfound

/-- Taking a variable away leaves valid variables. -/
theorem valid_erase {held : Assoc GlobalVariable} (h : ∀ name v, held.get? name = some v → v.Valid)
    (key name : String) (found : GlobalVariable)
    (hfound : (held.erase key).get? name = some found) : found.Valid := by
  rw [Assoc.get?_erase] at hfound
  split at hfound
  · cases hfound
  · exact h name found hfound

theorem settle_ok {α : Type} {c : Change α} {outcome : Files.Disk × Option Fault} {answer : α}
    (h : (c.settle outcome).answer = .ok answer) : outcome = (outcome.1, none) := by
  obtain ⟨disk, _ | fault⟩ := outcome
  · rfl
  · cases h

/-- A change that succeeded is made, and the file was written. -/
theorem settled_ok {α : Type} {c : Change α} {answer : α}
    (h : (c.settle (c.after.write disk)).answer = .ok answer) :
    answer = c.answer ∧ (c.settle (c.after.write disk)).store = c.after ∧
      (c.settle (c.after.write disk)).store.write disk =
        ((c.settle (c.after.write disk)).disk, none) := by
  generalize hwrite : c.after.write disk = outcome at h ⊢
  obtain ⟨written, _ | fault⟩ := outcome
  · cases h
    exact ⟨rfl, rfl, hwrite⟩
  · cases h

/-- A variable that was set is kept, and the file was written. -/
theorem set_ok {now : Timestamp} {v stored : GlobalVariable}
    (h : (s.set disk now v).answer = .ok stored) :
    stored = s.stamp now v ∧
      (s.set disk now v).store = { s with held := s.held.put v.name (s.stamp now v) } ∧
      (s.set disk now v).store.write disk = ((s.set disk now v).disk, none) := by
  rw [set_eq] at h ⊢
  exact settled_ok h

/-- A variable that was deleted was there and is not kept any more, and the file was written. -/
theorem delete_ok {name : String} (h : (s.delete disk name).answer = .ok ()) :
    (∃ existing, s.held.get? name = some existing) ∧
      (s.delete disk name).store = { s with held := s.held.erase name } ∧
      (s.delete disk name).store.write disk = ((s.delete disk name).disk, none) := by
  cases hc : s.deleting name with
  | none =>
      rw [delete_of_none hc] at h
      cases h
  | some c =>
      rw [delete_of_some hc] at h ⊢
      obtain ⟨existing, hexisting, rfl⟩ := Option.map_eq_some_iff.mp hc
      exact ⟨⟨existing, hexisting⟩, (settled_ok h).2⟩

/-- A change that succeeded agrees with the file that it wrote. -/
theorem agrees_of_settle {α : Type} {c : Change α} {answer : α}
    (h : (c.settle (c.after.write disk)).answer = .ok answer) (hfile : c.after.file = file)
    (htidy : Tidy c.after.held) (hvalid : ∀ name v, c.after.held.get? name = some v → v.Valid) :
    Agrees file (c.settle (c.after.write disk)).disk (c.settle (c.after.write disk)).store := by
  rw [settle_ok h]
  exact agrees_of_write hfile htidy hvalid (settle_ok h)

theorem agrees_of_kept (h : Kept file disk s) : Agrees file disk s := by
  -- one case for each way in which the store and the disk may have come about
  induction h with
  | load hload => exact agrees_load hload
  | elsewhere _ hsame ih => exact ih.elsewhere hsame
  | @set disk s now v stored _ hnow hv hanswer ih =>
      obtain ⟨value, hread⟩ := hv
      rw [set_eq] at hanswer ⊢
      exact agrees_of_settle hanswer ih.sameFile (ih.tidy.put (s.stamp now v))
        (valid_setting ih.valid hnow (GlobalVariable.valid_of_read hread))
  | @delete disk s name _ hanswer ih =>
      cases hc : s.deleting name with
      | none =>
          rw [delete_of_none hc] at hanswer
          cases hanswer
      | some c =>
          rw [delete_of_some hc] at hanswer ⊢
          obtain ⟨existing, _, rfl⟩ := Option.map_eq_some_iff.mp hc
          exact agrees_of_settle hanswer ih.sameFile (ih.tidy.erase name)
            (valid_erase ih.valid name)
  | @setRefused disk disk' s now v fault _ hsame htakes ih =>
      rw [Change.settle, if_pos htakes]
      exact ih.elsewhere hsame
  | @deleteRefused disk disk' s name c fault _ hc hsame htakes ih =>
      obtain ⟨existing, hexisting, rfl⟩ := Option.map_eq_some_iff.mp hc
      rw [Change.settle, if_pos htakes]
      exact (ih.elsewhere hsame).back rfl (ih.tidy.erase_append hexisting)
        (get?_erase_append hexisting)

/-- Loading the file of a store that is kept succeeds and gives a store that answers alike. -/
theorem load_of_kept (h : Kept file disk s) : ∃ s', load disk file = .ok s' ∧ Alike s s' := by
  have hagrees := agrees_of_kept h
  obtain ⟨s', hload, htidy, hget⟩ := hagrees.loaded
  exact ⟨s', hload, alike_of_get? hagrees.tidy htidy hget⟩

/-! ## A small file -/

/-- A disk without files. -/
def bareDisk : Files.Disk := ⟨⟨"/", []⟩, .folder []⟩

/-- The file in which the variables are to be kept, in a folder that is not there yet. -/
def smallFile : Path := ⟨"/", ["data", "variables.json"]⟩

/-- The store without variables. -/
def bareStore : Variables := ⟨smallFile, []⟩

/-- The start of the year 2024. -/
def newYear : Timestamp := ⟨2024, 1, 1, 0, 0, 0, 0, some 0⟩

theorem wellFormed_newYear : newYear.WellFormed where
  date := by decide
  hour := by decide
  minute := by decide
  second := by decide
  micro := by decide
  offset := by rintro _ ⟨⟩; decide

/-- A variable with a quote and a line end in its value. -/
def smallVariable : GlobalVariable := { name := "A", value := "\"\n" }

theorem valid_smallVariable : smallVariable.Valid :=
  ⟨rfl, by decide, fun _ h => (nomatch h), fun _ h => (nomatch h)⟩

/-- A variable is set where the file can be written, if the text of all variables has no unpaired
halves. -/
theorem set_of_writeBytes {s : Variables} {disk made : Files.Disk} {now : Timestamp}
    {v : GlobalVariable} {written : List UInt8 → Files.Disk}
    (hfolder : disk.makeFolders s.file.parent = .ok made)
    (hwrite : ∀ bytes, made.writeBytes s.file bytes = .ok (written bytes))
    (htext : (s.setting now v).after.Whole) :
    s.set disk now v = ⟨written (Text.Utf8.encode (s.setting now v).after.text),
      (s.setting now v).after, .ok (s.stamp now v)⟩ := by
  have hwritten := writeValue_of_writeBytes hfolder hwrite htext
  have hfile : (s.setting now v).after.file = s.file := rfl
  rw [set_eq, write, hfile, hwritten]
  rfl

theorem load_bareDisk : load bareDisk smallFile = .ok bareStore := by
  have hempty : bareDisk.has smallFile = false := rfl
  rw [load, hempty]
  rfl

/-- The disk on which the small file was written. -/
def smallDisk (bytes : List UInt8) : Files.Disk :=
  ⟨⟨"/", []⟩, .folder [("data", .folder [("variables.json", .file bytes)])]⟩

theorem set_bareDisk {now : Timestamp} {v : GlobalVariable}
    (h : (bareStore.setting now v).after.Whole) : bareStore.set bareDisk now v =
      ⟨smallDisk (Text.Utf8.encode (bareStore.setting now v).after.text),
        (bareStore.setting now v).after, .ok (bareStore.stamp now v)⟩ := by
  have hfolder : bareDisk.makeFolders bareStore.file.parent =
      .ok ⟨⟨"/", []⟩, .folder [("data", .folder [])]⟩ := rfl
  have hwrite : ∀ bytes, Files.Disk.writeBytes ⟨⟨"/", []⟩, .folder [("data", .folder [])]⟩
      bareStore.file bytes = .ok (smallDisk bytes) := fun _ => rfl
  exact set_of_writeBytes hfolder hwrite h

theorem set_smallDisk {s : Variables} {bytes : List UInt8} {now : Timestamp} {v : GlobalVariable}
    (hfile : s.file = smallFile) (h : (s.setting now v).after.Whole) :
    s.set (smallDisk bytes) now v =
      ⟨smallDisk (Text.Utf8.encode (s.setting now v).after.text), (s.setting now v).after,
        .ok (s.stamp now v)⟩ := by
  obtain ⟨file, held⟩ := s
  cases hfile
  have hfolder : (smallDisk bytes).makeFolders smallFile.parent = .ok (smallDisk bytes) := rfl
  have hwrite : ∀ other, (smallDisk bytes).writeBytes smallFile other = .ok (smallDisk other) :=
    fun _ => rfl
  exact set_of_writeBytes hfolder hwrite h

theorem whole_bareStore : (bareStore.setting newYear smallVariable).after.Whole := by
  have hvalues : (bareStore.setting newYear smallVariable).after.held.values =
      [bareStore.stamp newYear smallVariable] := rfl
  rw [whole_iff, hvalues]
  decide

theorem set_bareStore : (bareStore.set bareDisk newYear smallVariable).answer =
    .ok (bareStore.stamp newYear smallVariable) := by
  rw [set_bareDisk whole_bareStore]

theorem kept_smallFile : Kept smallFile (bareStore.set bareDisk newYear smallVariable).disk
    (bareStore.set bareDisk newYear smallVariable).store := by
  exact .set (.load load_bareDisk) wellFormed_newYear
    ⟨_, GlobalVariable.read_toJson valid_smallVariable⟩ set_bareStore

theorem load_of_kept_smallFile :
    Kept smallFile (bareStore.set bareDisk newYear smallVariable).disk
      (bareStore.set bareDisk newYear smallVariable).store ∧
    ∃ s', load (bareStore.set bareDisk newYear smallVariable).disk smallFile = .ok s' ∧
      Alike (bareStore.set bareDisk newYear smallVariable).store s' :=
  ⟨kept_smallFile, load_of_kept kept_smallFile⟩

end Variables

end Runbook.Store
