import Runbook.Proofs.Files.Folder

/-!
# What a change on a disk leaves alone

A change of an entry of a folder is seen below that entry and nowhere else (`find_of_changeEntry`).
Two trees have the same files but for some places (`SameFilesBut`) if one comes from the other by
writing or taking away a file at one of these places, or by making folders. For a disk this is said of
the file below a folder: writing it (`sameFilesBut_writeText`) and taking it away
(`sameFilesBut_unlink`) leave all other files as they are, and making a folder with those above it
leaves all files as they are (`sameFiles_makeFolders`).
-/

set_option autoImplicit false

namespace Runbook.Files

/-! ## Trees -/

namespace Node

variable {f : Option Node → Except Refusal (Option Node)} {at_ : Location} {name : String}
  {node node' : Node} {entries : Assoc Node} {Changed : Location → Prop}

/-- What is found at a location below an entry, which may be missing. -/
def foundFrom : Option Node → Location → Except Refusal Node
  | some node, rest => node.find rest
  | none, _ => .error .notFound

theorem find_cons (entries : Assoc Node) (first : String) (rest : Location) :
    (folder entries).find (first :: rest) =
      if isTooLong first then .error .nameTooLong else foundFrom (entries.get? first) rest := by
  rw [find]
  cases entries.get? first <;> rfl

/-- What is found below an entry depends on that entry alone. -/
theorem find_cons_congr {entries entries' : Assoc Node} {first : String}
    (h : entries'.get? first = entries.get? first) (rest : Location) :
    (folder entries').find (first :: rest) = (folder entries).find (first :: rest) := by
  rw [find_cons, find_cons, h]

theorem get?_changed (name : String) (entries : Assoc Node) (after : Option Node) (other : String) :
    Assoc.get? (match after with
      | some node => entries.put name node
      | none => entries.erase name) other = if name = other then after else entries.get? other := by
  cases after with
  | some node => exact Assoc.get?_put ..
  | none => exact Assoc.get?_erase ..

/-- A change further down changes the entry that leads there. -/
theorem changeEntry_cons {f : Option Node → Except Refusal (Option Node)} {first : String}
    {rest : Location} (h : (folder entries).changeEntry f (first :: rest) name = .ok node') :
    ∃ child child', ¬isTooLong first = true ∧ entries.get? first = some child ∧
      child.changeEntry f rest name = .ok child' ∧ folder (entries.put first child') = node' := by
  rw [changeEntry, change] at h
  split at h
  · cases h
  · rename_i hshort
    cases hchild : Assoc.get? entries first with
    | none =>
        rw [hchild] at h
        cases h
    | some child =>
        rw [hchild] at h
        dsimp only at h
        cases hchange : child.changeEntry f rest name with
        | error why =>
            rw [changeEntry] at hchange
            rw [hchange] at h
            cases h
        | ok child' =>
            rw [changeEntry] at hchange
            rw [hchange] at h
            exact ⟨child, child', hshort, rfl, hchange, Except.ok.inj h⟩

/-- Whether at a place a file is found in one tree exactly if it is found in the other. -/
def SameFileAt (place : Location) (top top' : Node) : Prop :=
  ∀ bytes, top'.find place = .ok (file bytes) ↔ top.find place = .ok (file bytes)

theorem sameFileAt_of_eq {place : Location} (h : node'.find place = node.find place) :
    SameFileAt place node node' :=
  fun _ => by rw [h]

/-- A folder is no file. -/
theorem sameFileAt_nil (entries entries' : Assoc Node) :
    SameFileAt [] (folder entries) (folder entries') := by
  intro bytes
  simp [find]

/-- A change of an entry is seen below the entry, and nowhere else. -/
theorem find_of_changeEntry (h : node.changeEntry f at_ name = .ok node') :
    ∃ before after, f before = .ok after ∧ ∀ place,
      (∃ rest, place = at_ ++ name :: rest ∧ node.find place = foundFrom before rest ∧
        node'.find place = foundFrom after rest) ∨ SameFileAt place node node' := by
  -- by induction on the way to the folder, along which nothing but one entry changes
  induction at_ generalizing node node' with
  | nil =>
      obtain ⟨hshort, entries, after, hfind, hafter, hchanged⟩ := find_changeEntry h
      obtain ⟨entries', hfind', hget⟩ : ∃ entries' : Assoc Node, node'.find [] = .ok (folder entries') ∧
          ∀ other, entries'.get? other = if name = other then after else Assoc.get? entries other :=
        ⟨_, hchanged, get?_changed name entries after⟩
      cases hfind
      cases hfind'
      refine ⟨_, after, hafter, fun place => ?_⟩
      cases place with
      | nil => exact .inr (sameFileAt_nil _ _)
      | cons first rest =>
          by_cases hname : name = first
          · subst hname
            refine .inl ⟨rest, rfl, ?_, ?_⟩
            · rw [find_cons, if_neg (by simp [hshort])]
            · rw [find_cons, if_neg (by simp [hshort]), hget, if_pos rfl]
          · refine .inr (sameFileAt_of_eq (find_cons_congr ?_ rest))
            rw [hget, if_neg hname]
  | cons first rest ih =>
      cases node with
      | file found => cases h
      | folder entries =>
          obtain ⟨child, child', hshort, hchild, hchange, rfl⟩ := changeEntry_cons h
          obtain ⟨before, after, hafter, hplaces⟩ := ih hchange
          refine ⟨before, after, hafter, fun place => ?_⟩
          cases place with
          | nil => exact .inr (sameFileAt_nil _ _)
          | cons second further =>
              by_cases hname : first = second
              · subst hname
                have hfind : (folder entries).find (first :: further) = child.find further := by
                  rw [find_cons, if_neg hshort, hchild, foundFrom]
                have hfind' : (folder (Assoc.put entries first child')).find (first :: further) =
                    child'.find further := by
                  rw [find_cons, if_neg hshort, Assoc.get?_put, if_pos rfl, foundFrom]
                rcases hplaces further with ⟨below, rfl, hbefore, hafter⟩ | hsame
                · exact .inl ⟨below, rfl, hfind.trans hbefore, hfind'.trans hafter⟩
                · refine .inr fun bytes => ?_
                  rw [hfind, hfind']
                  exact hsame bytes
              · refine .inr (sameFileAt_of_eq (find_cons_congr ?_ further))
                rw [Assoc.get?_put, if_neg hname]

/-- Whether two trees have the same files but for the given places. -/
def SameFilesBut (Changed : Location → Prop) (top top' : Node) : Prop :=
  ∀ place, ¬Changed place → SameFileAt place top top'

/-- Nothing is found below a file or a missing entry. -/
theorem foundFrom_ne_ok {entry : Option Node} (h : ∀ entries, entry ≠ some (folder entries))
    {rest : Location} (hrest : rest ≠ []) (found : Node) : foundFrom entry rest ≠ .ok found := by
  obtain ⟨first, further, rfl⟩ := List.exists_cons_of_ne_nil hrest
  rcases entry with _ | ⟨bytes⟩ | ⟨entries⟩
  · exact fun hfound => nomatch hfound
  · exact fun hfound => nomatch hfound
  · exact (h entries rfl).elim

/-- Putting or taking away a file changes no other file. -/
theorem sameFilesBut_changeEntry
    (hf : ∀ before after, f before = .ok after → ∀ entries,
      before ≠ some (folder entries) ∧ after ≠ some (folder entries))
    (h : node.changeEntry f at_ name = .ok node') :
    SameFilesBut (· = at_ ++ [name]) node node' := by
  intro place hplace
  obtain ⟨before, after, hafter, hplaces⟩ := find_of_changeEntry h
  rcases hplaces place with ⟨rest, hrest, hbefore, hafter'⟩ | hsame
  · have hfurther : rest ≠ [] := fun hnil => hplace (hnil ▸ hrest)
    intro bytes
    rw [hbefore, hafter']
    have hfolders := hf before after hafter
    exact ⟨fun hfile => (foundFrom_ne_ok (fun entries => (hfolders entries).2) hfurther _ hfile).elim,
      fun hfile => (foundFrom_ne_ok (fun entries => (hfolders entries).1) hfurther _ hfile).elim⟩
  · exact hsame

theorem sameFilesBut_write {bytes : List UInt8} (h : node.write (at_ ++ [name]) bytes = .ok node') :
    SameFilesBut (· = at_ ++ [name]) node node' := by
  rw [write, List.getLast?_concat, List.dropLast_concat] at h
  refine sameFilesBut_changeEntry (fun before after hafter entries => ?_) h
  rcases before with _ | ⟨found⟩ | ⟨found⟩ <;> cases hafter <;> simp

theorem sameFilesBut_unlink (h : node.unlink (at_ ++ [name]) = .ok node') :
    SameFilesBut (· = at_ ++ [name]) node node' := by
  rw [unlink, List.getLast?_concat, List.dropLast_concat] at h
  refine sameFilesBut_changeEntry (fun before after hafter entries => ?_) h
  rcases before with _ | ⟨found⟩ | ⟨found⟩ <;> cases hafter
  simp

/-- Making a folder changes no file, as the folder is empty and nothing was in its place. -/
theorem sameFileAt_makeFolder (h : node.makeFolder at_ = .ok node') (place : Location) :
    SameFileAt place node node' := by
  unfold makeFolder at h
  split at h
  · cases h
  · obtain ⟨before, after, hafter, hplaces⟩ := find_of_changeEntry h
    rcases hplaces place with ⟨rest, _, hbefore, hafter'⟩ | hsame
    · intro bytes
      rw [hbefore, hafter']
      cases before with
      | some found => cases hafter
      | none =>
          cases hafter
          refine ⟨fun hfile => ?_, fun hfile => nomatch hfile⟩
          cases rest with
          | nil => cases hfile
          | cons first further =>
              rw [foundFrom, find] at hfile
              split at hfile <;> cases hfile
    · exact hsame

end Node

/-! ## Disks -/

namespace Disk

variable {d d' d'' : Disk} {folder : Path} {name : String} {Changed : Location → Prop}

/-- Whether two disks have the same files but for the given places. -/
structure SameFilesBut (Changed : Location → Prop) (d d' : Disk) : Prop where
  home : d'.home = d.home
  files : d.top.SameFilesBut Changed d'.top

theorem sameFilesBut_refl (Changed : Location → Prop) (d : Disk) : SameFilesBut Changed d d :=
  ⟨rfl, fun _ _ _ => Iff.rfl⟩

theorem SameFilesBut.trans (h : SameFilesBut Changed d d') (h' : SameFilesBut Changed d' d'') :
    SameFilesBut Changed d d'' :=
  ⟨h'.home.trans h.home, fun place hplace bytes =>
    (h'.files place hplace bytes).trans (h.files place hplace bytes)⟩

theorem SameFilesBut.mono {Changed' : Location → Prop} (h : SameFilesBut Changed d d')
    (hchanged : ∀ place, Changed place → Changed' place) : SameFilesBut Changed' d d' :=
  ⟨h.home, fun place hplace => h.files place fun hold => hplace (hchanged place hold)⟩

theorem SameFilesBut.fileAt (h : SameFilesBut Changed d d') {path : Path}
    (hpath : ∀ place, d.locate path = some place → ¬Changed place) :
    d'.fileAt path = d.fileAt path := by
  ext bytes
  rw [fileAt_eq_some_iff, fileAt_eq_some_iff, query_eq_ok_iff, query_eq_ok_iff]
  refine and_congr_right fun _ => exists_congr fun place => ?_
  rw [locate_eq_of_home h.home]
  exact and_congr_right fun hplace => h.files place (hpath place hplace) bytes

theorem sameFiles_makeFolder (h : d.makeFolder folder = .ok d') :
    SameFilesBut (fun _ => False) d d' := by
  unfold makeFolder at h
  split at h
  · rename_i made hchange
    cases h
    obtain ⟨_, at_, top, _, htop, rfl⟩ := change_eq_ok_iff.mp hchange
    exact ⟨rfl, fun place _ => Node.sameFileAt_makeFolder htop place⟩
  · split at h
    · cases h
      exact sameFilesBut_refl _ d
    · cases h

/-- Making a folder and those above it changes no file. -/
theorem sameFiles_makeFolders (h : d.makeFolders folder = .ok d') :
    SameFilesBut (fun _ => False) d d' := by
  unfold makeFolders at h
  -- by induction on the number of folders above that may have to be made
  generalize folder.names.length = depth at h
  induction depth generalizing d' folder with
  | zero => exact sameFiles_makeFolder h
  | succ depth ih =>
      rcases makeFoldersTo_cases h with hmake | ⟨above, hparent, hmake⟩
      · exact sameFiles_makeFolder hmake
      · exact (ih hparent).trans (sameFiles_makeFolder hmake)

/-- The place of an entry of a folder. -/
def IsPlace (d : Disk) (folder : Path) (name : String) (place : Location) : Prop :=
  ∃ at_, d.locate folder = some at_ ∧ place = at_ ++ [name]

theorem isPlace_iff_of_home (h : d'.home = d.home) {place : Location} :
    d'.IsPlace folder name place ↔ d.IsPlace folder name place := by
  rw [IsPlace, IsPlace, locate_eq_of_home h]

/-- What is located below a folder is an entry of it, if it is not the top. -/
theorem isPlace_of_locate (hhome : d.home.root ≠ "") (hname : Path.IsName name) {place : Location}
    (h : d.locate (folder.child name) = some place) :
    d.IsPlace folder (systemName name) place ∨ place = [] := by
  cases hfolder : d.locate folder with
  | some at_ =>
      rw [locate_child hhome hfolder hname] at h
      exact .inl ⟨at_, hfolder, (Option.some.inj h).symm⟩
  | none =>
      rw [Path.child_of_isName hname] at h
      unfold locate at h hfolder
      split at hfolder
      · cases hfolder
      · rename_i houtside
        split at hfolder
        · cases hfolder
        · rename_i habsolute
          rw [if_neg habsolute] at h
          split at h
          · -- the folder is not below the top, but something in it is, so that is the top
            rename_i hwithin
            simp only [isWithin, Bool.and_eq_true, beq_iff_eq, List.isPrefixOf_iff_prefix]
              at hwithin houtside
            rcases List.prefix_concat_iff.mp hwithin.2 with heq | hprefix
            · rw [heq, List.drop_length] at h
              exact .inr (Option.some.inj h).symm
            · exact (houtside ⟨hwithin.1, hprefix⟩).elim
          · cases h

/-- A change at an entry of a folder that changes no other file of the tree changes no other file of
the disk. -/
theorem sameFilesBut_change (hhome : d.home.root ≠ "") (hname : Path.IsName name)
    {use : Location → Node → Except Refusal Node} (htop : ∀ node, use [] node = .error .isFolder)
    (huse : ∀ {at_ : Location} {name : String} {node node' : Node},
      use (at_ ++ [name]) node = .ok node' → node.SameFilesBut (· = at_ ++ [name]) node')
    (h : d.change (folder.child name) use = .ok d') :
    SameFilesBut (d.IsPlace folder (systemName name)) d d' := by
  obtain ⟨_, place, top, hplace, hchange, rfl⟩ := change_eq_ok_iff.mp h
  rcases isPlace_of_locate hhome hname hplace with ⟨at_, hfolder, rfl⟩ | rfl
  · exact ⟨rfl, fun place hplace => huse hchange place fun heq => hplace ⟨at_, hfolder, heq⟩⟩
  · rw [htop] at hchange
    cases hchange

theorem sameFilesBut_writeBytes (hhome : d.home.root ≠ "") (hname : Path.IsName name)
    {bytes : List UInt8} (h : d.writeBytes (folder.child name) bytes = .ok d') :
    SameFilesBut (d.IsPlace folder (systemName name)) d d' :=
  sameFilesBut_change hhome hname (fun _ => rfl) Node.sameFilesBut_write h

/-- Taking a file below a folder away changes no other file. -/
theorem sameFilesBut_unlink (hhome : d.home.root ≠ "") (hname : Path.IsName name)
    (h : d.unlink (folder.child name) = .ok d') :
    SameFilesBut (d.IsPlace folder (systemName name)) d d' :=
  sameFilesBut_change hhome hname (fun _ => rfl) Node.sameFilesBut_unlink h

/-- Writing a text below a folder changes no other file, however it ends. -/
theorem sameFilesBut_writeText (folder : Path) (hhome : d.home.root ≠ "")
    (hname : Path.IsName name) (text : String) :
    SameFilesBut (d.IsPlace folder (systemName name)) d (d.writeText (folder.child name) text).1 := by
  unfold writeText
  split
  · exact sameFilesBut_refl _ d
  · rename_i emptied hemptied
    have hempty := sameFilesBut_writeBytes hhome hname hemptied
    split
    · exact hempty
    · split
      · rename_i written hwritten
        exact sameFilesBut_writeBytes hhome hname hwritten
      · exact hempty

end Disk

end Runbook.Files
