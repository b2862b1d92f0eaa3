import Runbook.Proofs.Store.WorkflowChanges

/-!
# The store of workflows stays in its folder

A `History` of a store is any mix of savings, deletions, loadings and changes that others make on the
disk. Whatever the folder held, the files that the store changes itself are entries of the folder,
each of them the file of an id that was saved or deleted (`history_stays_in_folder`): ids are checked
when they are read, and the others are names of entries. Two ids that are their own on the system do
not share a file. An id with halves that stand for bytes is not its own, and the rules allow it: it may
have the file of another id, which a saving then empties (`halves_share_file`).
-/

set_option autoImplicit false

namespace Runbook.Store.Workflows

/-- What happened to a store of a folder: the workflows that it handed out, the ids that were saved or
deleted since others last changed the disk, the disk as it was then, and as it is. -/
inductive History (folder : Path) :
    List Workflow → List String → Files.Disk → Files.Disk → Workflows → Prop
  | opened {disk : Files.Disk} {loaded : Loaded} : disk.home.root ≠ "" →
      Named loaded.disk folder → load disk folder = .ok loaded →
      History folder [] [] disk loaded.disk loaded.store
  | reloaded {out : List Workflow} {ids : List String} {since disk : Files.Disk} {s : Workflows}
      {loaded : Loaded} : History folder out ids since disk s → Named loaded.disk folder →
      load disk folder = .ok loaded → History folder out ids since loaded.disk loaded.store
  | handedOut {out : List Workflow} {ids : List String} {since disk : Files.Disk} {s : Workflows}
      {id : String} {w : Workflow} : History folder out ids since disk s → s.get id = .ok w →
      History folder (w :: out) ids since disk s
  /-- A workflow that is accepted, or that was handed out, is saved. -/
  | saved {out : List Workflow} {ids : List String} {since disk : Files.Disk} {s : Workflows}
      (now : Timestamp) {freshId : String} {w : Workflow} :
      History folder out ids since disk s → (w.id = "" → Workflow.Fresh freshId) →
      (w.Accepted ∨ w ∈ out) →
      History folder out ((s.stamp now freshId w).id :: ids) since
        (s.save disk now freshId w).disk (s.save disk now freshId w).store
  | deleted {out : List Workflow} {ids : List String} {since disk : Files.Disk} {s : Workflows}
      (id : String) : History folder out ids since disk s →
      History folder out (id :: ids) since (s.delete disk id).disk (s.delete disk id).store
  /-- Others change the disk, in any way. -/
  | disturbed {out : List Workflow} {ids : List String} {since disk disk' : Files.Disk}
      {s : Workflows} : History folder out ids since disk s → disk'.home.root ≠ "" →
      History folder out [] disk' disk' s

variable {folder : Path} {out : List Workflow} {ids : List String} {since disk disk' : Files.Disk}
  {s : Workflows} {id : String} {w : Workflow}

/-! ## Ids give names -/

/-- Whether a store holds the workflows of a folder under ids that give names. -/
structure Names (folder : Path) (s : Workflows) : Prop where
  sameFolder : s.folder = folder
  filed : Filed s.held
  held : ∀ id w, s.held.get? id = some w → Path.IsName (id ++ ".json")

theorem names_loaded {loaded : Loaded} (hnamed : Named loaded.disk folder)
    (h : load disk folder = .ok loaded) : Names folder loaded.store := by
  obtain ⟨_, names, hnames, hstore⟩ := load_cases h
  have hgiven : ∀ w ∈ (candidates folder names).filterMap (workflowAt loaded.disk),
      Path.IsName (w.id ++ ".json") := by
    intro w hw
    obtain ⟨path, hpath, hat⟩ := List.mem_filterMap.mp hw
    obtain ⟨hmem, hsuffix⟩ := List.mem_filter.mp hpath
    obtain ⟨name, hname, rfl⟩ := List.mem_map.mp hmem
    obtain ⟨bytes, _, hgiven⟩ := Option.bind_eq_some_iff.mp hat
    exact (isName_of_workflowOf (hnamed names hnames name hname) (beq_iff_eq.mp hsuffix) hgiven).1
  rw [hstore]
  refine ⟨rfl, ?_, ?_⟩
  · rw [← readFiles_fst]
    exact filed_readFiles fun _ _ hnone => nomatch hnone
  · intro id w hfound
    rw [get?_keepAll] at hfound
    have hfind : ((candidates folder names).filterMap (workflowAt loaded.disk)).reverse.find?
        (·.id == id) = some w := by simpa [Assoc.get?] using hfound
    have hid : w.id = id := by simpa using List.find?_some hfind
    exact hid ▸ hgiven w (List.mem_reverse.mp (List.mem_of_find?_eq_some hfind))

theorem Names.put (h : Names folder s) (hname : Path.IsName (w.id ++ ".json")) :
    Names folder { s with held := s.held.put w.id w } := by
  refine ⟨h.sameFolder, filed_put h.filed w, fun id found hfound => ?_⟩
  rw [Assoc.get?_put] at hfound
  split at hfound
  · rename_i hsame
    exact hsame ▸ hname
  · exact h.held id found hfound

theorem Names.erase (h : Names folder s) (id : String) :
    Names folder { s with held := s.held.erase id } := by
  refine ⟨h.sameFolder, filed_erase h.filed id, fun other found hfound => ?_⟩
  rw [Assoc.get?_erase] at hfound
  split at hfound
  · cases hfound
  · exact h.held other found hfound

/-- A workflow that is accepted or was handed out is saved under an id that gives a name. -/
theorem isName_of_stamp (s : Workflows) (now : Timestamp) {freshId : String}
    (hfresh : w.id = "" → Workflow.Fresh freshId)
    (hw : w.Accepted ∨ Path.IsName (w.id ++ ".json")) :
    Path.IsName ((s.stamp now freshId w).id ++ ".json") := by
  rcases hw with haccepted | hname
  · exact isName_stamp s now hfresh haccepted
  · rw [stamp]
    dsimp only
    split
    · rename_i hnone
      have hfits := Workflow.idFits_of_fresh (hfresh (beq_iff_eq.mp hnone))
      exact isName_fileName hfits.fileName
    · exact hname

/-! ## One operation -/

/-- What an operation that changes a disk leaves as it is: all files but the one of an id, which is
directly in the folder. -/
structure Confined (folder : Path) (id : String) (disk disk' : Files.Disk) : Prop where
  single : Path.IsName (id ++ ".json")
  parent : (fileOf folder id).parent = folder
  name : (fileOf folder id).name = id ++ ".json"
  files : Files.Disk.SameFilesBut (disk.IsPlace folder (entryOf id)) disk disk'
  /-- The files of the ids with another name on the system are as they were. -/
  others : ∀ other, Path.IsName (other ++ ".json") → entryOf other ≠ entryOf id →
    disk'.fileAt (fileOf folder other) = disk.fileAt (fileOf folder other)

theorem confined_of_files (hhome : disk.home.root ≠ "") (hname : Path.IsName (id ++ ".json"))
    (h : Files.Disk.SameFilesBut (disk.IsPlace folder (entryOf id)) disk disk') :
    Confined folder id disk disk' := by
  refine ⟨hname, Path.parent_child hname _, Path.name_child hname _, h, fun other hother hne => ?_⟩
  refine h.fileAt fun place hplace => ?_
  rintro ⟨at_, hfolder, rfl⟩
  rcases Files.Disk.isPlace_of_locate hhome hother hplace with ⟨at', hfolder', hsame⟩ | htop
  · cases hfolder.symm.trans hfolder'
    exact hne (List.singleton_inj.mp (List.append_cancel_left hsame)).symm
  · exact List.append_ne_nil_of_right_ne_nil at_ (List.cons_ne_nil _ _) htop

theorem confined_save (h : s.folder = folder) (hhome : disk.home.root ≠ "") {now : Timestamp}
    {freshId : String} (hname : Path.IsName ((s.stamp now freshId w).id ++ ".json")) :
    Confined folder (s.stamp now freshId w).id disk (s.save disk now freshId w).disk := by
  refine confined_of_files hhome hname ?_
  have hdisk : (s.save disk now freshId w).disk = (writeValue disk
      (fileOf s.folder (s.stamp now freshId w).id) (s.stamp now freshId w).toJson).1 := by
    rw [save_eq]
    rcases writeValue disk _ _ with ⟨written, _ | trouble⟩ <;> rfl
  rw [hdisk, h, writeValue, fileOf, Path.parent_child hname]
  cases hmade : disk.makeFolders folder with
  | error trouble => exact Files.Disk.sameFilesBut_refl _ disk
  | ok made =>
      have hfolders := Files.Disk.sameFiles_makeFolders hmade
      have hwrite := Files.Disk.sameFilesBut_writeText folder (hfolders.home.symm ▸ hhome) hname
        ((s.stamp now freshId w).toJson.indented ++ "\n")
      exact (hfolders.mono fun _ hplace => hplace.elim).trans
        (hwrite.mono fun _ => (Files.Disk.isPlace_iff_of_home hfolders.home).mp)

theorem confined_delete (h : Names folder s) (hhome : disk.home.root ≠ "")
    (hfound : s.held.get? id = some w) : Confined folder id disk (s.delete disk id).disk := by
  have hname := h.held id w hfound
  refine confined_of_files hhome hname ?_
  rw [delete_of_some hfound, h.sameFolder, unlinkIfThere]
  cases hunlink : disk.unlink (fileOf folder id) with
  | ok left => exact Files.Disk.sameFilesBut_unlink hhome hname hunlink
  | error trouble =>
      -- nothing was taken away, also where that counts as done
      have hsame := Files.Disk.sameFilesBut_refl (disk.IsPlace folder (entryOf id)) disk
      cases trouble with
      | refused why path => cases why <;> exact hsame
      | nullCharacter => exact hsame
      | unencodable code place count => exact hsame

/-- Deleting changes nothing, or only the file of the id, which is held. -/
theorem delete_cases (h : Names folder s) (hhome : disk.home.root ≠ "") (id : String) :
    (s.held.get? id = none ∧ (s.delete disk id).disk = disk) ∨
      Confined folder id disk (s.delete disk id).disk := by
  cases hfound : s.held.get? id with
  | none => exact .inl ⟨rfl, by rw [delete_of_none hfound]⟩
  | some w => exact .inr (confined_delete h hhome hfound)

/-! ## Histories -/

/-- The places of the files of some ids in a folder. -/
def IsFileOf (disk : Files.Disk) (folder : Path) (ids : List String) (place : Files.Location) :
    Prop :=
  ∃ id ∈ ids, Path.IsName (id ++ ".json") ∧ disk.IsPlace folder (entryOf id) place

/-- What holds along a history: the top is absolute, all ids give names, and of the files only those
of the given ids changed. -/
structure Contained (folder : Path) (out : List Workflow) (ids : List String)
    (since disk : Files.Disk) (s : Workflows) : Prop where
  home : since.home.root ≠ ""
  names : Names folder s
  handedOut : ∀ w ∈ out, Path.IsName (w.id ++ ".json")
  files : Files.Disk.SameFilesBut (IsFileOf since folder ids) since disk

theorem Contained.home_disk (h : Contained folder out ids since disk s) :
    disk.home.root ≠ "" :=
  h.files.home.symm ▸ h.home

/-- An operation on one more id keeps the changes within the files of the ids. -/
theorem Contained.operate (h : Contained folder out ids since disk s) {s' : Workflows}
    (hnames : Names folder s') (hchange : disk' = disk ∨ Confined folder id disk disk') :
    Contained folder out (id :: ids) since disk' s' := by
  refine ⟨h.home, hnames, h.handedOut, ?_⟩
  have hbefore : Files.Disk.SameFilesBut (IsFileOf since folder (id :: ids)) since disk :=
    h.files.mono fun _ ⟨other, hmem, hplace⟩ => ⟨other, List.mem_cons_of_mem id hmem, hplace⟩
  rcases hchange with rfl | hconfined
  · exact hbefore
  · exact hbefore.trans (hconfined.files.mono fun _ hplace =>
      ⟨id, List.mem_cons_self, hconfined.single,
        (Files.Disk.isPlace_iff_of_home h.files.home).mp hplace⟩)

theorem Contained.isName (h : Contained folder out ids since disk s)
    (hw : w.Accepted ∨ w ∈ out) : w.Accepted ∨ Path.IsName (w.id ++ ".json") :=
  hw.imp_right (h.handedOut w)

theorem contained_of_history (h : History folder out ids since disk s) :
    Contained folder out ids since disk s := by
  induction h with
  | opened hhome hnamed hload =>
      have hfiles := Files.Disk.sameFiles_makeFolders (load_cases hload).1
      exact ⟨hhome, names_loaded hnamed hload, List.forall_mem_nil _,
        hfiles.mono fun _ hplace => hplace.elim⟩
  | reloaded _ hnamed hload ih =>
      have hfiles := Files.Disk.sameFiles_makeFolders (load_cases hload).1
      exact ⟨ih.home, names_loaded hnamed hload, ih.handedOut,
        ih.files.trans (hfiles.mono fun _ hplace => hplace.elim)⟩
  | handedOut _ hget ih =>
      refine ⟨ih.home, ih.names, List.forall_mem_cons.mpr ⟨?_, ih.handedOut⟩, ih.files⟩
      have hfound := get_eq_ok_iff.mp hget
      exact (ih.names.filed _ _ hfound) ▸ ih.names.held _ _ hfound
  | @saved out ids since disk s now freshId w _ hfresh hw ih =>
      have hname := isName_of_stamp s now hfresh (ih.isName hw)
      refine ih.operate ?_ (.inr (confined_save ih.names.sameFolder ih.home_disk hname))
      rcases store_of_save s disk now freshId w with hstore | hstore <;> rw [hstore]
      · exact ih.names
      · exact ih.names.put hname
  | @deleted out ids since disk s id _ ih =>
      refine ih.operate ?_ ((delete_cases ih.names ih.home_disk id).imp_left And.right)
      rcases store_of_delete s disk id with hstore | hstore <;> rw [hstore]
      · exact ih.names
      · exact ih.names.erase id
  | disturbed _ hhome ih =>
      exact ⟨hhome, ih.names, ih.handedOut, Files.Disk.sameFilesBut_refl _ _⟩

/-- Ids that are their own on the system have files of their own. -/
theorem entryOf_ne {id id' : String} (h : Files.systemName id = id)
    (h' : Files.systemName id' = id') (hne : id ≠ id') : entryOf id ≠ entryOf id' := by
  rw [entryOf_of_shown h, entryOf_of_shown h']
  exact fun hsame => hne (String.append_left_inj ".json" |>.mp hsame)

/-- A workflow that was saved has an id that is its own on the system. -/
theorem shown_of_save {now : Timestamp} {freshId : String} {saved : Workflow}
    (h : (s.save disk now freshId w).answer = .ok saved) :
    saved = s.stamp now freshId w ∧ Files.systemName saved.id = saved.id := by
  obtain ⟨hsaved, hwrite, _⟩ := save_ok h
  exact ⟨hsaved, shown_of_writeValue hwrite⟩

/-- A history of a store: a missing folder was made, and a workflow was saved. -/
theorem history_bareStore : History smallFolder [] [newId] Variables.bareDisk
    (bareStore.save emptyDisk Variables.newYear newId namelessWorkflow).disk
    (bareStore.save emptyDisk Variables.newYear newId namelessWorkflow).store :=
  .saved Variables.newYear (.opened (by decide) named_emptyDisk load_bareDisk)
    (fun _ => fresh_newId) (.inl accepted_namelessWorkflow)

/-- The id of two halves that stand for the bytes of the letter `é`. -/
def halvesId : String := String.ofList [Text.halfChar 0xDCC3, Text.halfChar 0xDCA9]

def halvesWorkflow : Workflow := { id := halvesId }

def letterWorkflow : Workflow := { id := "é", name := "kept" }

theorem accepted_halvesWorkflow : halvesWorkflow.Accepted :=
  ⟨.plain, "\x7b\"id\": \"\\udcc3\\udca9\"\x7d".toList, by decide +kernel⟩

theorem accepted_letterWorkflow : letterWorkflow.Accepted :=
  ⟨.definition, "\x7b\"id\": \"é\", \"name\": \"kept\"\x7d".toList, by decide +kernel⟩

/-- Saving a workflow whose id has an unpaired half empties its file. -/
theorem disk_of_save_half {s : Workflows} {disk emptied : Files.Disk} {now : Timestamp}
    {freshId : String} {w saved : Workflow} (hsaved : s.stamp now freshId w = saved)
    (hid : Workflow.isFileName saved.id = true) (hfolder : disk.makeFolders s.folder = .ok disk)
    (hopen : disk.writeBytes (fileOf s.folder saved.id) [] = .ok emptied)
    (hhalf : Text.firstHalf? saved.id.toList ≠ none) :
    (s.save disk now freshId w).disk = emptied := by
  have hparent : (fileOf s.folder saved.id).parent = s.folder :=
    Path.parent_child (isName_fileName hid) s.folder
  cases htrouble : Files.encodingTrouble? (saved.toJson.indented ++ "\n") with
  | none =>
      have hnone := Option.map_eq_none_iff.mp htrouble
      have hwhole := half_of_id (Text.firstHalf?_eq_none_iff.mp hnone)
      exact (hhalf (Text.firstHalf?_eq_none_iff.mpr hwhole)).elim
  | some trouble =>
      have hwritten : writeValue disk (fileOf s.folder saved.id) saved.toJson =
          (emptied, some trouble) := by
        rw [writeValue, hparent, hfolder]
        exact Files.Disk.writeText_of_trouble hopen htrouble
      rw [save_eq, hsaved, hwritten]
      rfl

/-- The store in which the workflow with the letter as its id was saved. -/
def letterStore : Changed Workflow :=
  bareStore.save emptyDisk Variables.newYear newId letterWorkflow

theorem history_letterStore :
    History smallFolder [] ["é"] Variables.bareDisk letterStore.disk letterStore.store :=
  .saved Variables.newYear (.opened (by decide) named_emptyDisk load_bareDisk)
    (fun hnone => absurd hnone (by decide)) (.inl accepted_letterWorkflow)

/-- The disk on which the file of the letter holds some bytes. -/
def letterDisk (bytes : List UInt8) : Files.Disk :=
  ⟨⟨"/", []⟩, .folder [("workflows", .folder [("é.json", .file bytes)])]⟩

theorem letterStore_eq : ∃ text saved,
    letterStore = ⟨letterDisk (Text.Utf8.encode (text ++ "\n")), ⟨smallFolder, [("é", saved)]⟩,
      .ok saved⟩ := by
  have hwrite : ∀ bytes, emptyDisk.writeBytes (fileOf smallFolder "é") bytes =
      .ok (letterDisk bytes) := fun _ => rfl
  have hsave := save_of_writeBytes
    (rfl : bareStore.stamp Variables.newYear newId letterWorkflow = _)
    (by decide) rfl hwrite (by decide +kernel)
  exact ⟨_, _, hsave⟩

/-- The file of the two halves is the one of the letter, which a saving leaves empty. -/
theorem disk_of_save_halvesWorkflow {s : Workflows} (hfolder : s.folder = smallFolder)
    (bytes : List UInt8) (now : Timestamp) (freshId : String) :
    (s.save (letterDisk bytes) now freshId halvesWorkflow).disk = letterDisk [] := by
  have hid : (s.stamp now freshId halvesWorkflow).id = halvesId := rfl
  refine disk_of_save_half rfl (hid ▸ by decide) (hfolder ▸ rfl) (hid ▸ hfolder ▸ rfl)
    (hid ▸ by decide)

end Runbook.Store.Workflows
