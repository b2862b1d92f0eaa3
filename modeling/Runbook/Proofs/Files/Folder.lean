import Runbook.Proofs.Files.Disk

/-!
# The entries of a folder

A folder of a disk is seen through its entries. What is there under the name of an entry is what
stands in the entries (`fileAt_child`), and writing or taking away a file below the folder puts or
erases its entry and nothing else (`writeText_cases`, `listing_unlink`). A folder that is there is
not made again (`makeFolders_of_listing`).
-/

set_option autoImplicit false

namespace Runbook

/-! ## Names -/

namespace Path

/-- Whether a text can be the name of an entry of a folder. -/
structure IsName (name : String) : Prop where
  filled : name ≠ ""
  notPoint : name ≠ "."
  notPoints : name ≠ ".."
  single : '/' ∉ name.toList

theorem splitAt_of_notMem {mark : Char} {cs : List Char} (h : mark ∉ cs) :
    splitAt mark cs = [cs] := by
  induction cs with
  | nil => rfl
  | cons c cs ih =>
      obtain ⟨hc, hcs⟩ := List.ne_and_not_mem_of_not_mem_cons h
      simp [splitAt, ih hcs, Ne.symm hc]

theorem rootOf_of_notMem {cs : List Char} (h : '/' ∉ cs) : rootOf cs = "" := by
  have hnone : cs.takeWhile (· == '/') = [] := by
    cases cs with
    | nil => rfl
    | cons c cs =>
        have hc : c ≠ '/' := fun heq => h (heq ▸ List.mem_cons_self)
        simp [hc]
  rw [rootOf, hnone]

theorem ofString_of_isName {name : String} (h : IsName name) : ofString name = ⟨"", [name]⟩ := by
  have hfilled : name.toList ≠ [] := fun heq => h.filled (String.toList_eq_nil_iff.mp heq)
  have hpoint : name.toList ≠ ['.'] := fun heq =>
    h.notPoint (by rw [← String.ofList_toList (s := name), heq])
  rw [ofString, splitAt_of_notMem h.single, rootOf_of_notMem h.single]
  simp [hfilled, hpoint]

theorem child_of_isName {name : String} (h : IsName name) (p : Path) :
    p.child name = ⟨p.root, p.names ++ [name]⟩ := by
  rw [child, ofString_of_isName h]
  rfl

theorem parent_child {name : String} (h : IsName name) (p : Path) : (p.child name).parent = p := by
  rw [child_of_isName h, parent, List.dropLast_concat]

theorem name_child {name : String} (h : IsName name) (p : Path) : (p.child name).name = name := by
  rw [child_of_isName h, Path.name, List.getLast?_concat]
  rfl

theorem resolveNames_concat {name : String} (h : name ≠ "..") (names above : List String) :
    resolveNames above (names ++ [name]) = resolveNames above names ++ [name] := by
  induction names generalizing above with
  | nil => simp [resolveNames, h]
  | cons first rest ih =>
      rw [List.cons_append, resolveNames, resolveNames]
      split
      · exact ih _
      · exact ih _

end Path

namespace Files

/-- Whether a text is the name of an entry of a folder, as it is read off the folder. -/
structure IsEntry (name : String) : Prop extends Path.IsName name where
  shown : systemName name = name

/-! ## Entries of a tree -/

namespace Node

variable {at_ : Location} {name : String} {node node' : Node} {entries : Assoc Node}

/-- The entries of a folder. -/
def listing (at_ : Location) (top : Node) : Except Refusal (Assoc Node) := do
  match ← top.find at_ with
  | folder entries => return entries
  | file _ => throw .notFolder

theorem listing_eq_ok_iff :
    node.listing at_ = .ok entries ↔ node.find at_ = .ok (folder entries) := by
  rw [Node.listing]
  rcases node.find at_ with why | ⟨bytes⟩ | ⟨found⟩
  · exact ⟨fun h => (nomatch h), fun h => (nomatch h)⟩
  · exact ⟨fun h => (nomatch h), fun h => (nomatch h)⟩
  · exact ⟨fun h => by cases h; rfl, fun h => by cases h; rfl⟩

/-- A change of an entry leaves the folder with that entry changed. -/
theorem find_changeEntry {f : Option Node → Except Refusal (Option Node)}
    (h : node.changeEntry f at_ name = .ok node') : isTooLong name = false ∧
      ∃ (entries : Assoc Node) (after : Option Node), node.find at_ = .ok (folder entries) ∧
        f (entries.get? name) = .ok after ∧ node'.find at_ = .ok (folder (match after with
          | some node => entries.put name node
          | none => entries.erase name)) := by
  obtain ⟨entries, entries', hfind, hentries, hfind'⟩ := find_change h
  split at hentries
  · cases hentries
  · rename_i hshort
    cases hafter : f (Assoc.get? entries name) with
    | error why =>
        rw [hafter] at hentries
        cases hentries
    | ok after =>
        rw [hafter] at hentries
        cases hentries
        exact ⟨by simpa using hshort, entries, after, hfind, hafter, hfind'⟩

theorem listing_write {bytes : List UInt8} (hentries : node.listing at_ = .ok entries)
    (h : node.write (at_ ++ [name]) bytes = .ok node') :
    isTooLong name = false ∧ node'.listing at_ = .ok (entries.put name (file bytes)) := by
  rw [write, List.getLast?_concat, List.dropLast_concat] at h
  obtain ⟨hshort, found, after, hfind, hafter, hfind'⟩ := find_changeEntry h
  rw [listing_eq_ok_iff, hfind] at hentries
  cases hentries
  refine ⟨hshort, listing_eq_ok_iff.mpr ?_⟩
  rcases hentry : entries.get? name with _ | ⟨before⟩ | ⟨inner⟩ <;> rw [hentry] at hafter <;>
    cases hafter <;> exact hfind'

theorem listing_unlink (hentries : node.listing at_ = .ok entries)
    (h : node.unlink (at_ ++ [name]) = .ok node') :
    node'.listing at_ = .ok (entries.erase name) := by
  rw [unlink, List.getLast?_concat, List.dropLast_concat] at h
  obtain ⟨_, found, after, hfind, hafter, hfind'⟩ := find_changeEntry h
  rw [listing_eq_ok_iff, hfind] at hentries
  cases hentries
  refine listing_eq_ok_iff.mpr ?_
  rcases hentry : entries.get? name with _ | ⟨before⟩ | ⟨inner⟩ <;> rw [hentry] at hafter <;>
    cases hafter <;> exact hfind'

/-- A change of a folder that is there succeeds if that of its entries does. -/
theorem change_of_find {f : Assoc Node → Except Refusal (Assoc Node)} {entries' : Assoc Node}
    (hfind : node.find at_ = .ok (folder entries)) (hf : f entries = .ok entries') :
    ∃ node', node.change f at_ = .ok node' := by
  induction at_ generalizing node with
  | nil =>
      cases hfind
      exact ⟨folder entries', by rw [change, hf]; rfl⟩
  | cons first rest ih =>
      cases node with
      | file bytes => cases hfind
      | folder found =>
          rw [find] at hfind
          split at hfind
          · cases hfind
          · rename_i hshort
            cases hchild : Assoc.get? found first with
            | none =>
                rw [hchild] at hfind
                cases hfind
            | some child =>
                rw [hchild] at hfind
                obtain ⟨child', hchange⟩ := ih hfind
                exact ⟨folder (Assoc.put found first child'), by
                  rw [change, if_neg hshort, hchild]
                  simp only [hchange]
                  rfl⟩

/-- A file that is there can be taken away. -/
theorem unlink_of_find {bytes : List UInt8} (hfind : node.find at_ = .ok (folder entries))
    (hshort : isTooLong name = false) (hfile : entries.get? name = some (file bytes)) :
    ∃ node', node.unlink (at_ ++ [name]) = .ok node' := by
  rw [unlink, List.getLast?_concat, List.dropLast_concat]
  have hentries : ∀ f : Option Node → Except Refusal (Option Node),
      f (entries.get? name) = .ok none → ∃ node', node.changeEntry f at_ name = .ok node' := by
    intro f hf
    have hchange : (if isTooLong name then .error .nameTooLong
        else (f (entries.get? name)).map fun
          | some node => entries.put name node
          | none => entries.erase name : Except Refusal (Assoc Node)) =
          .ok (entries.erase name) := by
      rw [hshort, hf]
      rfl
    exact change_of_find hfind hchange
  exact hentries _ (by rw [hfile])

/-- A folder that is there cannot be made. -/
theorem makeFolder_ne_ok (hfind : node.find at_ = .ok (folder entries)) :
    node.makeFolder at_ ≠ .ok node' := by
  intro h
  unfold makeFolder at h
  split at h
  · cases h
  · rename_i name hname
    obtain ⟨above, rfl⟩ := List.getLast?_eq_some_iff.mp hname
    rw [List.dropLast_concat] at h
    obtain ⟨hshort, found, after, habove, hafter, _⟩ := find_changeEntry h
    rw [find_append, habove] at hfind
    cases hentry : found.get? name with
    | none => simp [Except.bind, find, hshort, hentry] at hfind
    | some node =>
        rw [hentry] at hafter
        cases hafter

end Node

/-! ## Entries of a disk -/

namespace Disk

variable {d d' : Disk} {p folder : Path} {entries : Assoc Node} {name : String}

@[simp] theorem mapError_ok {ε ε' α : Type} {f : ε → ε'} {a : α} :
    (Except.ok a : Except ε α).mapError f = .ok a := rfl

theorem mapError_eq_ok_iff {ε ε' α : Type} {x : Except ε α} {f : ε → ε'} {a : α} :
    x.mapError f = .ok a ↔ x = .ok a := by
  cases x with
  | error why =>
      constructor
      · intro h
        cases h
      · intro h
        cases h
  | ok found => rw [mapError_ok, Except.ok.injEq, Except.ok.injEq]

/-- The entries of a folder. -/
def listing (d : Disk) (p : Path) : Except Trouble (Assoc Node) := d.query p Node.listing

theorem query_eq_ok_iff {α : Type} {use : Location → Node → Except Refusal α} {a : α} :
    d.query p use = .ok a ↔
      pathTrouble? p = none ∧ ∃ at_, d.locate p = some at_ ∧ use at_ d.top = .ok a := by
  rw [query]
  cases pathTrouble? p with
  | some trouble =>
      constructor
      · intro h
        cases h
      · rintro ⟨h, -⟩
        cases h
  | none =>
      cases d.locate p with
      | none =>
          constructor
          · intro h
            cases h
          · rintro ⟨-, at_, h, -⟩
            cases h
      | some at_ =>
          constructor
          · intro h
            exact ⟨rfl, at_, rfl, mapError_eq_ok_iff.mp h⟩
          · rintro ⟨-, at_', hat, huse⟩
            cases hat
            exact mapError_eq_ok_iff.mpr huse

theorem change_eq_ok_iff {use : Location → Node → Except Refusal Node} :
    d.change p use = .ok d' ↔ pathTrouble? p = none ∧ ∃ at_ top, d.locate p = some at_ ∧
      use at_ d.top = .ok top ∧ d' = { d with top := top } := by
  rw [change]
  cases hquery : d.query p use with
  | error trouble =>
      refine ⟨fun h => (nomatch h), fun ⟨hpath, at_, top, hlocate, huse, _⟩ => ?_⟩
      rw [query_eq_ok_iff.mpr ⟨hpath, at_, hlocate, huse⟩] at hquery
      cases hquery
  | ok top =>
      obtain ⟨hpath, at_, hlocate, huse⟩ := query_eq_ok_iff.mp hquery
      constructor
      · intro h
        cases h
        exact ⟨hpath, at_, top, hlocate, huse, rfl⟩
      · rintro ⟨_, _, _, hlocate', huse', rfl⟩
        rw [hlocate] at hlocate'
        cases hlocate'
        rw [huse] at huse'
        cases huse'
        rfl

theorem listing_eq_ok_iff : d.listing p = .ok entries ↔
    pathTrouble? p = none ∧
      ∃ at_, d.locate p = some at_ ∧ d.top.find at_ = .ok (.folder entries) := by
  rw [listing, query_eq_ok_iff]
  simp only [Node.listing_eq_ok_iff]

theorem names_of_listing (h : d.listing p = .ok entries) :
    d.names p = .ok (entries.keys.mergeSort fun a b => a ≤ b) := by
  obtain ⟨hpath, at_, hlocate, hfind⟩ := listing_eq_ok_iff.mp h
  refine query_eq_ok_iff.mpr ⟨hpath, at_, hlocate, ?_⟩
  rw [Node.names, hfind]
  rfl

theorem listing_of_names {names : List String} (h : d.names p = .ok names) :
    ∃ entries, d.listing p = .ok entries := by
  obtain ⟨hpath, at_, hlocate, hnames⟩ := query_eq_ok_iff.mp h
  rw [Node.names] at hnames
  rcases hfind : d.top.find at_ with why | ⟨bytes⟩ | ⟨entries⟩
  · rw [hfind] at hnames
    cases hnames
  · rw [hfind] at hnames
    cases hnames
  · exact ⟨entries, listing_eq_ok_iff.mpr ⟨hpath, at_, hlocate, hfind⟩⟩

/-- Below a folder of a disk with an absolute top, an entry is located by the system's name for it.
-/
theorem locate_child (hhome : d.home.root ≠ "") {at_ : Location} (h : d.locate folder = some at_)
    (hname : Path.IsName name) :
    d.locate (folder.child name) = some (at_ ++ [systemName name]) := by
  rw [Path.child_of_isName hname]
  unfold locate at h ⊢
  by_cases hwithin : d.isWithin folder = true
  · rw [if_pos hwithin] at h
    simp only [isWithin, Bool.and_eq_true, beq_iff_eq, List.isPrefixOf_iff_prefix] at hwithin
    obtain ⟨hroot, hbelow⟩ := hwithin
    have hchild : d.isWithin ⟨folder.root, folder.names ++ [name]⟩ = true := by
      simp only [isWithin, Bool.and_eq_true, beq_iff_eq, List.isPrefixOf_iff_prefix]
      exact ⟨hroot, hbelow.trans (List.prefix_append _ _)⟩
    rw [if_pos hchild, List.drop_append_of_le_length hbelow.length_le,
      Path.resolveNames_concat hname.notPoints, List.map_append]
    exact congrArg (fun found => some (found ++ [systemName name])) (Option.some.inj h)
  · rw [if_neg hwithin] at h
    split at h
    · -- a relative path is never within an absolute one
      rename_i hrelative
      rw [beq_iff_eq] at hrelative
      have hchild : ¬d.isWithin ⟨folder.root, folder.names ++ [name]⟩ = true := by
        simp [isWithin, hrelative, Ne.symm hhome]
      rw [if_neg hchild, if_pos (by simpa using hrelative),
        Path.resolveNames_concat hname.notPoints, List.map_append]
      exact congrArg (fun found => some (found ++ [systemName name])) (Option.some.inj h)
    · cases h

/-- The bytes of a file, if there is one. -/
def fileAt (d : Disk) (p : Path) : Option (List UInt8) :=
  match d.query p Node.find with
  | .ok (.file bytes) => some bytes
  | _ => none

theorem fileAt_eq_some_iff {bytes : List UInt8} :
    d.fileAt p = some bytes ↔ d.query p Node.find = .ok (.file bytes) := by
  rw [fileAt]
  rcases d.query p Node.find with trouble | ⟨found⟩ | ⟨found⟩
  · exact ⟨fun h => (nomatch h), fun h => (nomatch h)⟩
  · exact ⟨fun h => by cases h; rfl, fun h => by cases h; rfl⟩
  · exact ⟨fun h => (nomatch h), fun h => (nomatch h)⟩

theorem isFile_eq : d.isFile p = (d.fileAt p).isSome := by
  rw [isFile, fileAt]
  rcases d.query p Node.find with trouble | ⟨found⟩ | ⟨found⟩ <;> rfl

theorem read_of_fileAt {bytes : List UInt8} (h : d.fileAt p = some bytes) :
    d.read p = .ok bytes := by
  obtain ⟨hpath, at_, hlocate, hfind⟩ := query_eq_ok_iff.mp (fileAt_eq_some_iff.mp h)
  refine query_eq_ok_iff.mpr ⟨hpath, at_, hlocate, ?_⟩
  rw [Node.read, hfind]
  rfl

/-- The bytes of a file among the entries of a folder. -/
def fileIn (folder : Path) (entries : Assoc Node) (name : String) : Option (List UInt8) :=
  if (pathTrouble? (folder.child name)).isSome || isTooLong name then none
  else
    match entries.get? name with
    | some (.file bytes) => some bytes
    | _ => none

theorem fileAt_child (hhome : d.home.root ≠ "") (h : d.listing folder = .ok entries)
    (hname : IsEntry name) : d.fileAt (folder.child name) = fileIn folder entries name := by
  obtain ⟨_, at_, hlocate, hfind⟩ := listing_eq_ok_iff.mp h
  have hchild := locate_child hhome hlocate hname.toIsName
  rw [hname.shown] at hchild
  rw [fileAt, fileIn, query]
  cases hpath : pathTrouble? (folder.child name) with
  | some trouble => rfl
  | none =>
      have hfound : d.top.find (at_ ++ [name]) = (Node.folder entries).find [name] := by
        rw [Node.find_append, hfind]
        rfl
      simp only [hchild, hfound, Node.find, Option.isSome_none, Bool.false_or]
      by_cases hlong : isTooLong name = true
      · rw [if_pos hlong, if_pos hlong]
        rfl
      · rw [if_neg hlong, if_neg hlong]
        rcases hentry : entries.get? name with _ | ⟨bytes⟩ | ⟨inner⟩ <;> rfl

theorem locate_eq_of_home (h : d'.home = d.home) (p : Path) : d'.locate p = d.locate p := by
  rw [locate, locate, isWithin, isWithin, h]

/-- Above a file there is something, if the path to it is one that can be used. -/
theorem has_of_fileAt_child (hhome : d.home.root ≠ "") {at_ : Location}
    (hpath : pathTrouble? folder = none) (hlocate : d.locate folder = some at_)
    (hname : Path.IsName name) {bytes : List UInt8}
    (hfile : d.fileAt (folder.child name) = some bytes) : d.has folder = true := by
  obtain ⟨_, place, hplace, hfind⟩ := query_eq_ok_iff.mp (fileAt_eq_some_iff.mp hfile)
  rw [locate_child hhome hlocate hname] at hplace
  cases hplace
  rw [Node.find_append] at hfind
  cases habove : d.top.find at_ with
  | error why =>
      rw [habove] at hfind
      cases hfind
  | ok node =>
      have hquery : d.query folder Node.find = .ok node :=
        query_eq_ok_iff.mpr ⟨hpath, at_, hlocate, habove⟩
      rw [has, hquery]
      rfl

theorem fileIn_put_of_ne {other : String} (h : other ≠ name) (node : Node) :
    fileIn folder (entries.put name node) other = fileIn folder entries other := by
  rw [fileIn, fileIn, Assoc.get?_put, if_neg (Ne.symm h)]

theorem fileIn_erase (other : String) : fileIn folder (entries.erase name) other =
    if name = other then none else fileIn folder entries other := by
  rw [fileIn, fileIn, Assoc.get?_erase]
  by_cases h : name = other
  · rw [if_pos h, if_pos h]
    exact ite_self _
  · rw [if_neg h, if_neg h]

theorem mem_keys_of_fileIn {bytes : List UInt8} (h : fileIn folder entries name = some bytes) :
    name ∈ entries.keys := by
  unfold fileIn at h
  split at h
  · cases h
  · split at h
    · rename_i hentry
      exact Assoc.mem_keys_iff.mpr ⟨_, hentry⟩
    · cases h

/-! ## Changes below a folder -/

/-- A change of an entry of a folder is one of the tree, and the folder has afterwards the entries
that it has in the tree. -/
theorem change_child (hhome : d.home.root ≠ "") (h : d.listing folder = .ok entries)
    (hname : Path.IsName name) {use : Location → Node → Except Refusal Node}
    (hchange : d.change (folder.child name) use = .ok d') :
    d'.home = d.home ∧ pathTrouble? (folder.child name) = none ∧ ∃ at_ top,
      d.top.listing at_ = .ok entries ∧ use (at_ ++ [systemName name]) d.top = .ok top ∧
      ∀ after, top.listing at_ = .ok after → d'.listing folder = .ok after := by
  obtain ⟨hpath, at_, hlocate, hfind⟩ := listing_eq_ok_iff.mp h
  obtain ⟨hchild, place, top, hplace, htop, rfl⟩ := change_eq_ok_iff.mp hchange
  rw [locate_child hhome hlocate hname] at hplace
  cases hplace
  exact ⟨rfl, hchild, at_, top, Node.listing_eq_ok_iff.mpr hfind, htop, fun after hafter =>
    listing_eq_ok_iff.mpr ⟨hpath, at_, hlocate, Node.listing_eq_ok_iff.mp hafter⟩⟩

/-- What a disk is after a file below a folder was written. -/
structure Wrote (folder : Path) (entries : Assoc Node) (name : String) (bytes : List UInt8)
    (d d' : Disk) : Prop where
  home : d'.home = d.home
  usable : pathTrouble? (folder.child name) = none
  short : isTooLong (systemName name) = false
  listing : d'.listing folder = .ok (entries.put (systemName name) (.file bytes))

/-- A file that was written under a name as it is read off the folder is read under this name. -/
theorem Wrote.file {bytes : List UInt8} (h : Wrote folder entries name bytes d d')
    (hname : IsEntry name) : fileIn folder (entries.put name (.file bytes)) name = some bytes := by
  have hshort := h.short
  rw [hname.shown] at hshort
  rw [fileIn, h.usable, hshort, Assoc.get?_put, if_pos rfl]
  rfl

theorem wrote_of_writeBytes (hhome : d.home.root ≠ "") (h : d.listing folder = .ok entries)
    (hname : Path.IsName name) {bytes : List UInt8}
    (hwrite : d.writeBytes (folder.child name) bytes = .ok d') :
    Wrote folder entries name bytes d d' := by
  obtain ⟨hsame, hchild, at_, top, hentries, htop, hafter⟩ := change_child hhome h hname hwrite
  obtain ⟨hshort, hlisting⟩ := Node.listing_write hentries htop
  exact ⟨hsame, hchild, hshort, hafter _ hlisting⟩

/-- What writing a text comes to: nothing, an empty file, or a file with the text. -/
theorem writeText_cases (hhome : d.home.root ≠ "") (h : d.listing folder = .ok entries)
    (hname : Path.IsName name) {text : String} {trouble : Option Trouble}
    (hwrite : d.writeText (folder.child name) text = (d', trouble)) :
    (trouble ≠ none ∧ d' = d) ∨ (trouble ≠ none ∧ Wrote folder entries name [] d d') ∨
      (trouble = none ∧ Wrote folder entries name (Text.Utf8.encode text) d d') := by
  unfold writeText at hwrite
  split at hwrite
  · cases hwrite
    exact .inl ⟨Option.some_ne_none _, rfl⟩
  · -- opening the file empties it, before the text is encoded
    rename_i emptied hemptied
    have hempty := wrote_of_writeBytes hhome h hname hemptied
    split at hwrite
    · cases hwrite
      exact .inr (.inl ⟨Option.some_ne_none _, hempty⟩)
    · split at hwrite
      · rename_i written hwritten
        cases hwrite
        exact .inr (.inr ⟨rfl, wrote_of_writeBytes hhome h hname hwritten⟩)
      · cases hwrite
        exact .inr (.inl ⟨Option.some_ne_none _, hempty⟩)

theorem listing_unlink (hhome : d.home.root ≠ "") (h : d.listing folder = .ok entries)
    (hname : Path.IsName name) (hunlink : d.unlink (folder.child name) = .ok d') :
    d'.home = d.home ∧ d'.listing folder = .ok (entries.erase (systemName name)) := by
  obtain ⟨hsame, _, at_, top, hentries, htop, hafter⟩ := change_child hhome h hname hunlink
  exact ⟨hsame, hafter _ (Node.listing_unlink hentries htop)⟩

theorem isRefusal_of_pathTrouble {trouble : Trouble} (h : pathTrouble? p = some trouble) :
    trouble.isRefusal = false := by
  unfold pathTrouble? handoverTrouble? at h
  split at h
  · cases h
    rfl
  · split at h
    · cases h
      rfl
    · cases h

/-- A file that the system does not take away is not among the entries. -/
theorem fileIn_of_unlink_error (hhome : d.home.root ≠ "") (h : d.listing folder = .ok entries)
    (hname : Path.IsName name) {trouble : Trouble} (hrefused : trouble.isRefusal = true)
    (hunlink : d.unlink (folder.child name) = .error trouble) :
    fileIn folder entries (systemName name) = none := by
  obtain ⟨_, at_, hlocate, hfind⟩ := listing_eq_ok_iff.mp h
  cases hpath : pathTrouble? (folder.child name) with
  | some found =>
      have hfailed : d.unlink (folder.child name) = .error found := by
        rw [unlink, change, query, hpath]
        rfl
      rw [hfailed] at hunlink
      cases hunlink
      rw [isRefusal_of_pathTrouble hpath] at hrefused
      cases hrefused
  | none =>
      cases hfile : fileIn folder entries (systemName name) with
      | none => rfl
      | some bytes =>
          unfold fileIn at hfile
          split at hfile
          · cases hfile
          · rename_i hreachable
            rw [Bool.or_eq_true, not_or, Bool.not_eq_true, Bool.not_eq_true] at hreachable
            split at hfile
            · rename_i hentry
              obtain ⟨top, htop⟩ := Node.unlink_of_find hfind hreachable.2 hentry
              have hdone : d.unlink (folder.child name) = .ok { d with top := top } :=
                change_eq_ok_iff.mpr
                  ⟨hpath, _, top, locate_child hhome hlocate hname, htop, rfl⟩
              rw [hdone] at hunlink
              cases hunlink
            · cases hfile

theorem isFolder_of_listing (h : d.listing folder = .ok entries) : d.isFolder folder = true := by
  obtain ⟨hpath, at_, hlocate, hfind⟩ := listing_eq_ok_iff.mp h
  have hquery : d.query folder Node.find = .ok (.folder entries) :=
    query_eq_ok_iff.mpr ⟨hpath, at_, hlocate, hfind⟩
  rw [isFolder, hquery]

theorem makeFoldersTo_succ (depth : Nat) (d : Disk) (p : Path) : makeFoldersTo (depth + 1) d p =
    match d.makeFolder p with
    | .error (.refused .notFound path) =>
      if p.names.isEmpty then .error (.refused .notFound path)
      else do
        let d ← makeFoldersTo depth d p.parent
        d.makeFolder p
    | result => result :=
  rfl

/-- A folder that is there is not made again. -/
theorem makeFolders_of_listing (h : d.listing folder = .ok entries) :
    d.makeFolders folder = .ok d := by
  have hmake : d.makeFolder folder = .ok d := by
    rw [makeFolder]
    cases hchange : d.change folder Node.makeFolder with
    | error trouble => exact if_pos (isFolder_of_listing h)
    | ok made =>
        obtain ⟨_, at_, hlocate, hfind⟩ := listing_eq_ok_iff.mp h
        obtain ⟨_, place, top, hplace, htop, _⟩ := change_eq_ok_iff.mp hchange
        rw [hlocate] at hplace
        cases hplace
        exact (Node.makeFolder_ne_ok hfind htop).elim
  rw [makeFolders]
  cases folder.names.length with
  | zero => exact hmake
  | succ depth => rw [makeFoldersTo_succ, hmake]

/-- A folder is made at once, or after those above it. -/
theorem makeFoldersTo_cases {depth : Nat} (h : makeFoldersTo (depth + 1) d folder = .ok d') :
    d.makeFolder folder = .ok d' ∨ ∃ above, makeFoldersTo depth d folder.parent = .ok above ∧
      above.makeFolder folder = .ok d' := by
  rw [makeFoldersTo_succ] at h
  split at h
  · by_cases hnames : folder.names.isEmpty = true
    · rw [if_pos hnames] at h
      cases h
    · rw [if_neg hnames] at h
      cases hparent : makeFoldersTo depth d folder.parent with
      | error trouble =>
          rw [hparent] at h
          cases h
      | ok above =>
          rw [hparent] at h
          exact .inr ⟨above, rfl, h⟩
  · exact .inl h

end Disk

end Files

end Runbook
