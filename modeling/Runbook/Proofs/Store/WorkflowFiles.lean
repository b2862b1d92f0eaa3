import Runbook.Proofs.Definition.Workflow
import Runbook.Proofs.Files.Frame
import Runbook.Proofs.Files.Names
import Runbook.Proofs.Store.VariableFile
import Runbook.Proofs.Store.Workflows

/-!
# The workflows in a folder

What a folder is loaded as is decided by its entries alone: each entry that can be read gives one
workflow, and of those with the same id the one of the last file stays (`load_of_stands`,
`get?_heldIn_iff`). A file to which a valid workflow was written gives that workflow
(`workflowOf_written`), and the file that is named by an id is one of those that are read
(`suffix_fileOf`).
-/

set_option autoImplicit false

namespace Runbook.Store.Workflows

/-! ## One file -/

/-- The workflow in the bytes of a file; one without id gets the given name. -/
def workflowOf (stem : String) (bytes : List UInt8) : Option Workflow :=
  match readText bytes with
  | .error _ => none
  | .ok text =>
    match readDefinition Workflow.read text with
    | .error _ => none
    | .ok w => some (if w.id == "" then { w with id := stem } else w)

/-- The workflow in the file at a path, if there is one that can be read. -/
def workflowAt (disk : Files.Disk) (path : Path) : Option Workflow :=
  (disk.fileAt path).bind (workflowOf path.stem)

theorem readFile_of_fileAt {disk : Files.Disk} {path : Path} {bytes : List UInt8}
    (h : disk.fileAt path = some bytes) :
    (readFile disk path).toOption = workflowOf path.stem bytes := by
  rw [readFile, workflowOf, Files.Disk.read_of_fileAt h]
  dsimp only
  cases readText bytes with
  | error fault => rfl
  | ok text =>
      dsimp only
      cases readDefinition Workflow.read text with
      | error faults => rfl
      | ok w => rfl

theorem readDefinition_eq_ok_iff {α : Type} {read : Json → Checked α} {text : List Char} {a : α} :
    readDefinition read text = .ok a ↔ Checked.ofText? .definition read text = some a := by
  rw [Checked.ofText?_eq_some_iff, readDefinition]
  cases Json.read .definition text with
  | error fault => exact ⟨fun h => (nomatch h), fun ⟨_, h, _⟩ => (nomatch h)⟩
  | ok value => exact ⟨fun h => ⟨value, rfl, h⟩, fun ⟨_, h, h'⟩ => by cases h; exact h'⟩

variable {w : Workflow} {stem : String} {bytes : List UInt8}

theorem exact_toJson (h : w.Valid) : Json.Exact Json.Dialect.definition.maxDepth w.toJson :=
  Workflow.faithful.exact h 194

/-- The text of a valid workflow is read as that workflow. -/
theorem readDefinition_written (h : w.Valid) :
    readDefinition Workflow.read (w.toJson.indented ++ "\n").toList = .ok w := by
  have hread := Json.read_indented (exact_toJson h)
  exact readDefinition_eq_ok_iff.mpr
    (Checked.ofText?_eq_some_iff.mpr ⟨_, hread, Workflow.read_toJson h⟩)

/-- A file to which a valid workflow was written gives that workflow. -/
theorem workflowOf_written (h : w.Valid) (hid : w.id ≠ "") (stem : String) :
    workflowOf stem (Text.Utf8.encode (w.toJson.indented ++ "\n")) = some w := by
  rw [workflowOf, readText_indented (exact_toJson h)]
  simp only [readDefinition_written h]
  rw [if_neg (by simpa using hid)]

/-- Whether the bytes of a file are read as a workflow without id. -/
def Nameless (bytes : List UInt8) : Prop :=
  ∃ text w, readText bytes = .ok text ∧ readDefinition Workflow.read text = .ok w ∧ w.id = ""

/-- A workflow in a file fits the rules; if its id is the name of the file, then apart from that. -/
theorem valid_of_workflowOf (h : workflowOf stem bytes = some w) :
    (w.Valid ∧ w.id ≠ "") ∨ (w.ValidApart ∧ w.id = stem ∧ Nameless bytes) := by
  unfold workflowOf at h
  split at h
  · cases h
  · rename_i text htext
    split at h
    · cases h
    · rename_i found hread
      have hvalid := Workflow.faithful.valid_of_text (readDefinition_eq_ok_iff.mp hread)
      rw [Option.some.injEq] at h
      split at h
      · rename_i hid
        subst h
        exact .inr ⟨(Workflow.valid_iff.mp hvalid).2, rfl, text, found, htext, hread,
          beq_iff_eq.mp hid⟩
      · rename_i hid
        subst h
        exact .inl ⟨hvalid, by simpa using hid⟩

/-- An empty file gives no workflow. -/
theorem workflowOf_nil (stem : String) : workflowOf stem [] = none := rfl

/-- All workflows of a list under their ids, of those with the same id the last one. -/
def keepAll (known : Assoc Workflow) (ws : List Workflow) : Assoc Workflow :=
  ws.foldl (fun known w => known.put w.id w) known

theorem readFiles_fst (disk : Files.Disk) (paths : List Path) (known : Assoc Workflow) :
    (readFiles disk paths known).1 = keepAll known (paths.filterMap (workflowAt disk)) := by
  -- by induction on the files; one that gives no workflow changes nothing
  induction paths generalizing known with
  | nil => rfl
  | cons path rest ih =>
      rw [readFiles, Files.Disk.isFile_eq]
      cases hfile : disk.fileAt path with
      | none =>
          have hnone : workflowAt disk path = none := by rw [workflowAt, hfile]; rfl
          rw [List.filterMap_cons_none hnone]
          exact ih known
      | some bytes =>
          have hread := readFile_of_fileAt hfile
          have hat : workflowAt disk path = workflowOf path.stem bytes := by
            rw [workflowAt, hfile]
            rfl
          rw [if_neg (by simp)]
          cases hresult : readFile disk path with
          | error reason =>
              rw [hresult] at hread
              rw [List.filterMap_cons_none (hat.trans hread.symm)]
              exact ih known
          | ok w =>
              rw [hresult] at hread
              rw [List.filterMap_cons_some (hat.trans hread.symm)]
              exact ih (known.put w.id w)

/-- Under an id, the last workflow of the list that has it is found. -/
theorem get?_keepAll (ws : List Workflow) (known : Assoc Workflow) (id : String) :
    (keepAll known ws).get? id = (ws.reverse.find? (·.id == id)).or (known.get? id) := by
  induction ws generalizing known with
  | nil => rfl
  | cons w ws ih =>
      have hstep : keepAll known (w :: ws) = keepAll (known.put w.id w) ws := rfl
      rw [hstep, ih, List.reverse_cons, List.find?_append, Option.or_assoc, Assoc.get?_put]
      by_cases hid : w.id = id <;> simp [hid]

/-! ## Names of files -/

theorem splitSuffix_json {cs : List Char} (h : cs ≠ []) :
    Path.splitSuffix (cs ++ ".json".toList) = (cs, ".json".toList) := by
  have htail : ((cs ++ ".json".toList).reverse.takeWhile (· != '.')).reverse = "json".toList := by
    simp
  have hstem : (cs ++ ".json".toList).take
      ((cs ++ ".json".toList).length - "json".toList.length - 1) = cs := by
    simp
  simp only [Path.splitSuffix, htail, hstem]
  simp [h]

/-- A suffix is empty, or it begins at a point behind a stem. -/
theorem splitSuffix_cases (cs : List Char) : Path.splitSuffix cs = (cs, []) ∨
    ∃ stem tail, stem ≠ [] ∧ cs = stem ++ '.' :: tail ∧
      Path.splitSuffix cs = (stem, '.' :: tail) := by
  rw [Path.splitSuffix]
  generalize htail : (cs.reverse.takeWhile (· != '.')).reverse = tail
  generalize hstem : cs.take (cs.length - tail.length - 1) = stem
  split
  · exact .inl rfl
  · rename_i hparts
    simp only [Bool.or_eq_true, List.isEmpty_iff, beq_iff_eq, not_or] at hparts
    obtain ⟨⟨_, hfilled⟩, hshort⟩ := hparts
    refine .inr ⟨stem, tail, hfilled, ?_, rfl⟩
    -- what stands in front of the tail ends with a point
    have hcut : (cs.reverse.dropWhile (· != '.')).reverse ++ tail = cs := by
      rw [← htail, ← List.reverse_append, List.takeWhile_append_dropWhile, List.reverse_reverse]
    cases hfront : cs.reverse.dropWhile (· != '.') with
    | nil =>
        rw [hfront] at hcut
        exact (hshort (congrArg List.length hcut)).elim
    | cons c front =>
        have hc := List.head?_dropWhile_not (· != '.') cs.reverse
        rw [hfront] at hc hcut
        obtain rfl : c = '.' := by simpa using hc
        rw [List.reverse_cons, List.append_assoc, List.singleton_append] at hcut
        have hlength := congrArg List.length hcut
        rw [List.length_append, List.length_cons] at hlength
        have hfit : cs.length - tail.length - 1 = front.reverse.length := by omega
        rw [← hstem, hfit, ← hcut, List.take_left]

/-- A path with the suffix of the files that are read is named by its stem. -/
theorem name_of_suffix {path : Path} (h : path.suffix = ".json") :
    path.stem ≠ "" ∧ path.stem ++ ".json" = path.name := by
  rw [Path.suffix] at h
  rw [Path.stem]
  rcases splitSuffix_cases path.name.toList with hnone | ⟨stem, tail, hfilled, hname, hsplit⟩
  · rw [hnone] at h
    have hempty : String.ofList [] ≠ ".json" := by decide
    exact (hempty h).elim
  · rw [hsplit] at h ⊢
    refine ⟨fun hempty => hfilled (String.ofList_inj.mp hempty), ?_⟩
    dsimp only at h ⊢
    rw [← h, ← String.ofList_append, ← hname, String.ofList_toList]

theorem isName_json {id : String} (h : '/' ∉ id.toList) : Path.IsName (id ++ ".json") := by
  have hlong : ∀ other : String, other.length < 5 → id ++ ".json" ≠ other := by
    intro other hshort heq
    have hlength := congrArg String.length heq
    rw [String.length_append] at hlength
    have hfive : ".json".length = 5 := rfl
    omega
  refine ⟨hlong "" (by decide), hlong "." (by decide), hlong ".." (by decide), ?_⟩
  rw [String.toList_append, List.mem_append, not_or]
  exact ⟨h, by decide⟩

/-- An id that can be the name of a file gives a name. -/
theorem isName_fileName {id : String} (h : Workflow.isFileName id = true) :
    Path.IsName (id ++ ".json") := by
  simp only [Workflow.isFileName, Bool.and_eq_true, Bool.not_eq_true', List.any_eq_false] at h
  exact isName_json fun hslash => by simpa using h.1.1 '/' hslash

/-- The workflow of an entry has an id that gives the name of an entry, and fits the rules apart
from its id. -/
theorem isName_of_workflowOf {folder : Path} {name : String} (hname : Files.IsEntry name)
    (hsuffix : (folder.child name).suffix = ".json")
    (h : workflowOf (folder.child name).stem bytes = some w) :
    Path.IsName (w.id ++ ".json") ∧ w.ValidApart := by
  rcases valid_of_workflowOf h with ⟨hvalid, _⟩ | ⟨hvalid, hid, _⟩
  · exact ⟨isName_fileName hvalid.id.fileName, (Workflow.valid_iff.mp hvalid).2⟩
  · refine ⟨?_, hvalid⟩
    rw [hid, (name_of_suffix hsuffix).2, Path.name_child hname.toIsName]
    exact hname.toIsName

/-- The name under which the system keeps the file of an id. -/
def entryOf (id : String) : String := Files.systemName (id ++ ".json")

theorem entryOf_eq (id : String) : entryOf id = Files.systemName id ++ ".json" :=
  Files.systemName_append (Text.isAscii_of_all (by decide))

theorem entryOf_of_shown {id : String} (h : Files.systemName id = id) :
    entryOf id = id ++ ".json" := by
  rw [entryOf_eq, h]

theorem isEntry_entryOf {id : String} (h : Path.IsName (id ++ ".json")) :
    Files.IsEntry (entryOf id) := by
  have hascii : Text.IsAscii '/' := by decide
  have hslash : '/' ∉ (entryOf id).toList :=
    fun hmem => h.single ((Files.mem_systemName_iff hascii).mp hmem)
  refine ⟨?_, Files.systemName_systemName _⟩
  rw [entryOf_eq] at hslash ⊢
  rw [String.toList_append, List.mem_append, not_or] at hslash
  exact isName_json hslash.1

theorem suffix_fileOf {id : String} (h : Workflow.isFileName id = true) (hid : id ≠ "")
    (folder : Path) : (fileOf folder id).suffix = ".json" ∧ (fileOf folder id).stem = id := by
  have hfilled : id.toList ≠ [] := fun heq => hid (String.toList_eq_nil_iff.mp heq)
  rw [Path.suffix, Path.stem, fileOf, Path.name_child (isName_fileName h), String.toList_append,
    splitSuffix_json hfilled]
  exact ⟨rfl, String.ofList_toList⟩

/-! ## All files of a folder -/

/-- The workflow that an entry of a folder gives, if it is a file that is read. -/
def workflowIn (folder : Path) (entries : Assoc Files.Node) (name : String) : Option Workflow :=
  if (folder.child name).suffix == ".json" then
    (Files.Disk.fileIn folder entries name).bind (workflowOf (folder.child name).stem)
  else none

/-- The workflows that the entries of a folder give, in the order of their names. -/
def workflowsIn (folder : Path) (entries : Assoc Files.Node) : List Workflow :=
  (entries.keys.mergeSort fun a b => a ≤ b).filterMap (workflowIn folder entries)

variable {disk disk' : Files.Disk} {folder : Path} {entries : Assoc Files.Node}

/-- Whether a folder is there with the given entries, on a disk whose top is absolute. The names of
entries are names, as on every disk. -/
structure Stands (disk : Files.Disk) (folder : Path) (entries : Assoc Files.Node) : Prop where
  home : disk.home.root ≠ ""
  listing : disk.listing folder = .ok entries
  names : ∀ name ∈ entries.keys, Files.IsEntry name

theorem filterMap_candidates (h : Stands disk folder entries) {names : List String}
    (hnames : ∀ name ∈ names, Files.IsEntry name) :
    (candidates folder names).filterMap (workflowAt disk) =
      names.filterMap (workflowIn folder entries) := by
  induction names with
  | nil => rfl
  | cons name rest ih =>
      obtain ⟨hname, hrest⟩ := List.forall_mem_cons.mp hnames
      have hfile := Files.Disk.fileAt_child h.home h.listing hname
      have hsplit : candidates folder (name :: rest) =
          if (folder.child name).suffix == ".json" then folder.child name :: candidates folder rest
          else candidates folder rest := by
        rw [candidates, List.map_cons, List.filter_cons]
        rfl
      rw [hsplit, List.filterMap_cons, workflowIn]
      split
      · rw [List.filterMap_cons, ih hrest, workflowAt, hfile]
      · rw [ih hrest]

/-- What the entries of a folder give, under their ids. -/
def heldIn (folder : Path) (entries : Assoc Files.Node) : Assoc Workflow :=
  keepAll [] (workflowsIn folder entries)

/-- A folder that is there is loaded as what its entries give. -/
theorem load_of_stands (h : Stands disk folder entries) :
    ∃ skipped, load disk folder = .ok ⟨disk, ⟨folder, heldIn folder entries⟩, skipped⟩ := by
  have hsorted : ∀ name ∈ entries.keys.mergeSort fun a b => a ≤ b, Files.IsEntry name :=
    fun name hname => h.names name (List.mem_mergeSort.mp hname)
  have hheld := readFiles_fst disk (candidates folder (entries.keys.mergeSort fun a b => a ≤ b)) []
  rw [filterMap_candidates h hsorted] at hheld
  exact ⟨_, load_of_files (Files.Disk.makeFolders_of_listing h.listing)
    (Files.Disk.names_of_listing h.listing) hheld⟩

/-- What loading a folder comes to: the folder is made if it is missing, and its files are read. -/
theorem load_cases {loaded : Loaded} (h : load disk folder = .ok loaded) :
    disk.makeFolders folder = .ok loaded.disk ∧
      ∃ names, loaded.disk.names folder = .ok names ∧ loaded.store =
        ⟨folder, keepAll [] ((candidates folder names).filterMap (workflowAt loaded.disk))⟩ := by
  unfold load at h
  split at h
  · cases h
  · rename_i made hmade
    split at h
    · cases h
    · rename_i names hnames
      cases h
      refine ⟨hmade, names, hnames, ?_⟩
      rw [← readFiles_fst]

/-- Whether the entries of a folder have names that can be names of entries, as on every disk. -/
def Named (disk : Files.Disk) (folder : Path) : Prop :=
  ∀ names, disk.names folder = .ok names → ∀ name ∈ names, Files.IsEntry name

/-- A folder that was loaded is there, and the store holds what its entries give. -/
theorem stands_of_load {loaded : Loaded} (hhome : disk.home.root ≠ "")
    (hnamed : Named loaded.disk folder) (h : load disk folder = .ok loaded) :
    ∃ entries, Stands loaded.disk folder entries ∧
      loaded.store = ⟨folder, heldIn folder entries⟩ := by
  obtain ⟨hmade, names, hnames, hstore⟩ := load_cases h
  obtain ⟨entries, hlisting⟩ := Files.Disk.listing_of_names hnames
  have hsorted := Files.Disk.names_of_listing hlisting
  rw [hsorted] at hnames
  cases hnames
  have hstands : Stands loaded.disk folder entries :=
    ⟨(Files.Disk.sameFiles_makeFolders hmade).home ▸ hhome, hlisting,
      fun name hname => hnamed _ hsorted name (List.mem_mergeSort.mpr hname)⟩
  refine ⟨entries, hstands, ?_⟩
  rw [hstore, filterMap_candidates hstands fun name hname => hnamed _ hsorted name hname]
  rfl

/-! ## Which workflow is found -/

/-- The workflow of the last file with an id, by the names of the files. -/
structure LastWith (folder : Path) (entries : Assoc Files.Node) (id name : String) (w : Workflow) :
    Prop where
  given : workflowIn folder entries name = some w
  named : w.id = id
  last : ∀ other w', name < other → workflowIn folder entries other = some w' → w'.id ≠ id

theorem mem_keys_of_workflowIn {name : String} (h : workflowIn folder entries name = some w) :
    name ∈ entries.keys := by
  unfold workflowIn at h
  split at h
  · obtain ⟨bytes, hfile, _⟩ := Option.bind_eq_some_iff.mp h
    exact Files.Disk.mem_keys_of_fileIn hfile
  · cases h

theorem mem_workflowsIn_iff : w ∈ workflowsIn folder entries ↔
    ∃ name, workflowIn folder entries name = some w := by
  rw [workflowsIn, List.mem_filterMap]
  exact ⟨fun ⟨name, _, h⟩ => ⟨name, h⟩,
    fun ⟨name, h⟩ => ⟨name, List.mem_mergeSort.mpr (mem_keys_of_workflowIn h), h⟩⟩

theorem sorted_keys (entries : Assoc Files.Node) :
    (entries.keys.mergeSort fun a b => a ≤ b).Pairwise (· ≤ ·) := by
  have hsorted : (entries.keys.mergeSort fun a b => a ≤ b).Pairwise
      fun a b => decide (a ≤ b) = true := List.pairwise_mergeSort
    (fun a b c hab hbc => by simpa using String.le_trans (by simpa using hab) (by simpa using hbc))
    (fun a b => by simpa using String.le_total a b) entries.keys
  exact hsorted.imp fun h => by simpa using h

/-- What is found under an id is what the last file with that id gives. -/
theorem lastWith_of_get? {id : String} (h : (heldIn folder entries).get? id = some w) :
    ∃ name, LastWith folder entries id name w := by
  rw [heldIn, get?_keepAll] at h
  have hfind : (workflowsIn folder entries).reverse.find? (·.id == id) = some w := by
    simpa [Assoc.get?] using h
  obtain ⟨hid, later, earlier, hsplit, hlater⟩ := List.find?_eq_some_iff_append.mp hfind
  rw [List.reverse_eq_iff, List.reverse_append, List.reverse_cons, List.append_assoc,
    List.singleton_append] at hsplit
  -- the names are those of the earlier workflows, that of the workflow, and those of the later ones
  obtain ⟨before, rest, hnames, _, hrest⟩ := List.filterMap_eq_append_iff.mp hsplit
  obtain ⟨between, name, after, rfl, _, hgiven, hafter⟩ := List.filterMap_eq_cons_iff.mp hrest
  refine ⟨name, hgiven, by simpa using hid, fun other w' hlt hother hsame => ?_⟩
  have hmem : other ∈ entries.keys.mergeSort fun a b => a ≤ b :=
    List.mem_mergeSort.mpr (mem_keys_of_workflowIn hother)
  have hsorted := sorted_keys entries
  rw [hnames, ← List.append_assoc] at hmem hsorted
  rcases List.mem_append.mp hmem with hfirst | hsecond
  · have hle : other ≤ name :=
      (List.pairwise_append.mp hsorted).2.2 other hfirst name List.mem_cons_self
    exact hle hlt
  · rcases List.mem_cons.mp hsecond with rfl | hbehind
    · exact String.lt_irrefl other hlt
    · have hin : w' ∈ later.reverse := by
        rw [← hafter]
        exact List.mem_filterMap.mpr ⟨other, hbehind, hother⟩
      have hnot := hlater w' (List.mem_reverse.mp hin)
      simp [hsame] at hnot

theorem get?_heldIn_iff {id : String} : (heldIn folder entries).get? id = some w ↔
    ∃ name, LastWith folder entries id name w := by
  refine ⟨lastWith_of_get?, fun ⟨name, hlast⟩ => ?_⟩
  cases hget : (heldIn folder entries).get? id with
  | none =>
      rw [heldIn, get?_keepAll] at hget
      have hmem : w ∈ (workflowsIn folder entries).reverse :=
        List.mem_reverse.mpr (mem_workflowsIn_iff.mpr ⟨name, hlast.given⟩)
      have hnone : (workflowsIn folder entries).reverse.find? (·.id == id) = none := by
        simpa [Assoc.get?] using hget
      have hnot := List.find?_eq_none.mp hnone w hmem
      simp [hlast.named] at hnot
  | some found =>
      -- of two last files neither comes after the other, so they are the same
      obtain ⟨name', hlast'⟩ := lastWith_of_get? hget
      have hsame : name = name' :=
        String.le_antisymm (fun hlt => hlast'.last name w hlt hlast.given hlast.named)
          (fun hlt => hlast.last name' found hlt hlast'.given hlast'.named)
      subst hsame
      exact hlast'.given.symm.trans hlast.given

theorem get?_heldIn_eq_none_iff {id : String} : (heldIn folder entries).get? id = none ↔
    ∀ name w, workflowIn folder entries name = some w → w.id ≠ id := by
  rw [heldIn, get?_keepAll, Option.or_eq_none_iff, List.find?_eq_none]
  constructor
  · intro h name w hgiven hid
    have hnot := h.1 w (List.mem_reverse.mpr (mem_workflowsIn_iff.mpr ⟨name, hgiven⟩))
    simp [hid] at hnot
  · intro h
    refine ⟨fun w hw hid => ?_, rfl⟩
    obtain ⟨name, hgiven⟩ := mem_workflowsIn_iff.mp (List.mem_reverse.mp hw)
    exact h name w hgiven (by simpa using hid)

/-! ## Changing one file -/

/-- Whether the entries of a folder give the same workflows but for one name. -/
def SameBut (folder : Path) (changed : String) (entries entries' : Assoc Files.Node) : Prop :=
  ∀ name, name ≠ changed → workflowIn folder entries' name = workflowIn folder entries name

theorem sameBut_put (name : String) (node : Files.Node) :
    SameBut folder name entries (entries.put name node) := by
  intro other hother
  rw [workflowIn, workflowIn, Files.Disk.fileIn_put_of_ne hother]

theorem sameBut_erase (name : String) : SameBut folder name entries (entries.erase name) := by
  intro other hother
  rw [workflowIn, workflowIn, Files.Disk.fileIn_erase, if_neg (Ne.symm hother)]

theorem names_put {name : String} (h : ∀ name ∈ entries.keys, Files.IsEntry name)
    (hname : Files.IsEntry name) (node : Files.Node) :
    ∀ other ∈ (entries.put name node).keys, Files.IsEntry other := by
  intro other hother
  rw [Assoc.keys_put] at hother
  split at hother
  · exact h other hother
  · rcases List.mem_append.mp hother with hold | hnew
    · exact h other hold
    · exact List.mem_singleton.mp hnew ▸ hname

theorem names_erase (h : ∀ name ∈ entries.keys, Files.IsEntry name) (name : String) :
    ∀ other ∈ (entries.erase name).keys, Files.IsEntry other := fun other hother =>
  h other ((List.filter_sublist.map _).subset hother)

theorem stands_of_wrote {name : String} (h : Stands disk folder entries)
    (hname : Files.IsEntry (Files.systemName name))
    (hwrote : Files.Disk.Wrote folder entries name bytes disk disk') :
    Stands disk' folder (entries.put (Files.systemName name) (.file bytes)) :=
  ⟨hwrote.home ▸ h.home, hwrote.listing, names_put h.names hname _⟩

/-- What is written of a workflow has unpaired halves if its id has. -/
theorem half_of_id (h : ∀ c ∈ (w.toJson.indented ++ "\n").toList, Text.halfCode? c = none) :
    ∀ c ∈ w.id.toList, Text.halfCode? c = none := by
  refine Json.forall_half_printString_iff.mp fun c hc => h c ?_
  simp [Json.indented, Workflow.toJson, Json.printIndented, Json.printIndentedField,
    Json.printScalar, hc]

/-- The id of a workflow that was written is its own on the system. -/
theorem shown_of_writeValue {path : Path} (h : writeValue disk path w.toJson = (disk', none)) :
    Files.systemName w.id = w.id := by
  unfold writeValue at h
  split at h
  · cases h
  · exact Files.systemName_of_whole (half_of_id (Files.Disk.whole_of_writeText h))

/-- What writing the file of an id leaves: other files as they are, and in this one what was
written. -/
theorem stands_of_writeValue (h : Stands disk folder entries) {id : String}
    (hfile : Workflow.isFileName id = true) (hid : id ≠ "") (hshown : Files.systemName id = id)
    {value : Json} (hwrite : writeValue disk (fileOf folder id) value = (disk', none)) :
    ∃ entries', Stands disk' folder entries' ∧ SameBut folder (entryOf id) entries entries' ∧
      workflowIn folder entries' (entryOf id) =
        workflowOf id (Text.Utf8.encode (value.indented ++ "\n")) := by
  have hname := isName_fileName hfile
  have hentry := isEntry_entryOf hname
  rw [writeValue, fileOf, Path.parent_child hname,
    Files.Disk.makeFolders_of_listing h.listing] at hwrite
  rcases Files.Disk.writeText_cases h.home h.listing hname hwrite with
    ⟨hsome, _⟩ | ⟨hsome, _⟩ | ⟨_, hwrote⟩
  · exact (hsome rfl).elim
  · exact (hsome rfl).elim
  · obtain ⟨hsuffix, hstem⟩ := suffix_fileOf hfile hid folder
    refine ⟨_, stands_of_wrote h hentry hwrote, sameBut_put _ _, ?_⟩
    rw [entryOf_of_shown hshown] at hentry
    rw [fileOf] at hsuffix hstem
    rw [hentry.shown, entryOf_of_shown hshown, workflowIn, hsuffix, hwrote.file hentry, hstem]
    rfl

/-- What taking the file of an id away leaves: other files as they are. -/
theorem stands_of_unlink (h : Stands disk folder entries) {id : String}
    (hname : Path.IsName (id ++ ".json"))
    (hunlink : unlinkIfThere disk (fileOf folder id) = .ok disk') :
    ∃ entries', Stands disk' folder entries' ∧ SameBut folder (entryOf id) entries entries' ∧
      workflowIn folder entries' (entryOf id) = none := by
  have hgone : ∀ entries', Files.Disk.fileIn folder entries' (entryOf id) = none →
      workflowIn folder entries' (entryOf id) = none := by
    intro entries' hnone
    rw [workflowIn, hnone]
    exact ite_self _
  rw [unlinkIfThere, fileOf] at hunlink
  cases hresult : disk.unlink (folder.child (id ++ ".json")) with
  | error trouble =>
      rw [hresult] at hunlink
      split at hunlink
      · rename_i hmissing
        cases hunlink
        cases hmissing
        have hnone := Files.Disk.fileIn_of_unlink_error h.home h.listing hname rfl hresult
        exact ⟨entries, h, fun _ _ => rfl, hgone entries hnone⟩
      · cases hunlink
  | ok found =>
      rw [hresult] at hunlink
      cases hunlink
      obtain ⟨hhome, hlisting⟩ := Files.Disk.listing_unlink h.home h.listing hname hresult
      refine ⟨_, ⟨hhome ▸ h.home, hlisting, names_erase h.names _⟩, sameBut_erase _, hgone _ ?_⟩
      rw [entryOf, Files.Disk.fileIn_erase, if_pos rfl]

end Runbook.Store.Workflows
