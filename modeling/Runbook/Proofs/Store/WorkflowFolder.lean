import Runbook.Proofs.Store.WorkflowSteps

/-!
# The workflow store agrees with its folder

A store is `Kept` with its folder if the folder was empty or missing when the store was opened, and
each operation since has succeeded, or has failed and left the folder as it was. Then the files that
are read are those of the workflows that the store holds, each in the file that is named by its id
(`FiledBy`), which every step preserves (`agrees_step`). Hence loading the folder succeeds at any
time, changes nothing on the disk and gives a store that answers alike (`reopened_alike`).
-/

set_option autoImplicit false

namespace Runbook.Store.Workflows

/-! ## Stores that answer alike -/

/-- Two stores that answer every question alike. -/
structure Alike (s s' : Workflows) : Prop where
  list : s'.list = s.list
  get : ∀ id, s'.get id = s.get id

theorem listedBefore_iff {a b : Workflow} : listedBefore a b = true ↔
    Text.toLower a.name < Text.toLower b.name ∨
      (Text.toLower a.name = Text.toLower b.name ∧ a.id ≤ b.id) := by
  simp [listedBefore]

theorem listedBefore_trans {a b c : Workflow} (hab : listedBefore a b = true)
    (hbc : listedBefore b c = true) : listedBefore a c = true := by
  rw [listedBefore_iff] at hab hbc ⊢
  rcases hab with hab | ⟨hab, hids⟩
  · rcases hbc with hbc | ⟨hbc, _⟩
    · exact .inl (String.lt_trans hab hbc)
    · exact .inl (hbc ▸ hab)
  · rcases hbc with hbc | ⟨hbc, hids'⟩
    · exact .inl (hab ▸ hbc)
    · exact .inr ⟨hab.trans hbc, String.le_trans hids hids'⟩

theorem listedBefore_total (a b : Workflow) : (listedBefore a b || listedBefore b a) = true := by
  rw [Bool.or_eq_true, listedBefore_iff, listedBefore_iff]
  by_cases hab : Text.toLower a.name < Text.toLower b.name
  · exact .inl (.inl hab)
  · by_cases hba : Text.toLower b.name < Text.toLower a.name
    · exact .inr (.inl hba)
    · have hsame : Text.toLower a.name = Text.toLower b.name :=
        String.le_antisymm (String.not_lt.mp hba) (String.not_lt.mp hab)
      rcases String.le_total a.id b.id with hids | hids
      · exact .inl (.inr ⟨hsame, hids⟩)
      · exact .inr (.inr ⟨hsame.symm, hids⟩)

theorem id_eq_of_listedBefore {a b : Workflow} (hab : listedBefore a b = true)
    (hba : listedBefore b a = true) : a.id = b.id := by
  rw [listedBefore_iff] at hab hba
  rcases hab with hab | ⟨hab, hids⟩
  · rcases hba with hba | ⟨hba, _⟩
    · exact (String.lt_asymm hab hba).elim
    · exact (String.lt_irrefl _ (hba ▸ hab)).elim
  · rcases hba with hba | ⟨_, hids'⟩
    · exact (String.lt_irrefl _ (hab ▸ hba)).elim
    · exact String.le_antisymm hids hids'

/-- Two orderly stores in which the same is found answer alike. -/
theorem alike_of_get? {Fits Fits' : String → Prop} {s s' : Workflows} (h : Orderly Fits s.held)
    (h' : Orderly Fits' s'.held) (hget : ∀ id, s'.held.get? id = s.held.get? id) : Alike s s' where
  list := Assoc.mergeSort_values_eq Workflow.id h.once h'.once h.filed hget
    (fun _ _ _ => listedBefore_trans) listedBefore_total fun _ _ => id_eq_of_listedBefore
  get id := by rw [get, get?, hget, get, get?]

/-! ## Files of the workflows that are held -/

/-- Whether the files that are read are those of the workflows that are held, each named by its id.
-/
def FiledBy (folder : Path) (entries : Assoc Files.Node) (held : Assoc Workflow) : Prop :=
  ∀ name w, workflowIn folder entries name = some w ↔
    name = w.id ++ ".json" ∧ held.get? w.id = some w

variable {folder : Path} {entries entries' : Assoc Files.Node} {held held' : Assoc Workflow}
  {id : String}

/-- A change of one workflow and of its file. -/
theorem filedBy_of_sameBut (h : FiledBy folder entries held)
    (hbut : SameBut folder (id ++ ".json") entries entries')
    (hget : ∀ other, other ≠ id → held'.get? other = held.get? other)
    (hfile : ∀ w, workflowIn folder entries' (id ++ ".json") = some w ↔
      w.id = id ∧ held'.get? id = some w) : FiledBy folder entries' held' := by
  intro name w
  by_cases hname : name = id ++ ".json"
  · rw [hname, hfile, String.append_left_inj]
    exact ⟨fun ⟨hid, hfound⟩ => ⟨hid.symm, hid.symm ▸ hfound⟩,
      fun ⟨hid, hfound⟩ => ⟨hid.symm, hid.symm ▸ hfound⟩⟩
  · rw [hbut name hname, h name w]
    refine and_congr_right fun hfiled => ?_
    rw [hget w.id fun hid => hname (hid ▸ hfiled)]

theorem filedBy_put {w : Workflow} (h : FiledBy folder entries held)
    (hbut : SameBut folder (w.id ++ ".json") entries entries')
    (hfile : workflowIn folder entries' (w.id ++ ".json") = some w) :
    FiledBy folder entries' (held.put w.id w) := by
  refine filedBy_of_sameBut h hbut (fun other hother => ?_) fun found => ?_
  · rw [Assoc.get?_put, if_neg (Ne.symm hother)]
  · rw [hfile, Assoc.get?_put, if_pos rfl]
    exact ⟨fun hfound => ⟨Option.some.inj hfound ▸ rfl, hfound⟩, fun hfound => hfound.2⟩

theorem filedBy_erase (h : FiledBy folder entries held)
    (hbut : SameBut folder (id ++ ".json") entries entries')
    (hfile : workflowIn folder entries' (id ++ ".json") = none) :
    FiledBy folder entries' (held.erase id) := by
  refine filedBy_of_sameBut h hbut (fun other hother => ?_) fun found => ?_
  · rw [Assoc.get?_erase, if_neg (Ne.symm hother)]
  · rw [hfile, Assoc.get?_erase, if_pos rfl]
    exact ⟨fun hfound => (nomatch hfound), fun hfound => nomatch hfound.2⟩

/-- The files that are read give what is held. -/
theorem get?_heldIn_of_filedBy (h : FiledBy folder entries held) (hheld : Filed held)
    (id : String) : (heldIn folder entries).get? id = held.get? id := by
  ext w
  rw [get?_heldIn_iff]
  constructor
  · rintro ⟨name, hlast⟩
    exact hlast.named ▸ ((h name w).mp hlast.given).2
  · intro hfound
    have hid := hheld id w hfound
    -- no other file has the id, so that of the workflow is the last one with it
    refine ⟨w.id ++ ".json", (h _ w).mpr ⟨rfl, hid.symm ▸ hfound⟩, hid,
      fun other w' hlt hother hid' => ?_⟩
    obtain ⟨hname, _⟩ := (h other w').mp hother
    rw [hname, hid', ← hid] at hlt
    exact String.lt_irrefl _ hlt

/-! ## Stores that are kept -/

/-- Whether a folder is empty or missing. -/
def Bare (folder : Path) (disk : Files.Disk) : Prop :=
  disk.names folder = .ok [] ∨ disk.has folder = false

/-- A store and the disk with its folder: the store was opened on an empty or missing folder, and no
operation since has damaged a file. -/
inductive Kept (folder : Path) : Files.Disk → Workflows → Prop
  | opened {disk : Files.Disk} {loaded : Loaded} : disk.home.root ≠ "" → Bare folder disk →
      Named loaded.disk folder → load disk folder = .ok loaded →
      Kept folder loaded.disk loaded.store
  | step {disk disk' : Files.Disk} {s s' : Workflows} {effect : Effect} :
      Kept folder disk s → Step folder effect disk s disk' s' → (∀ id, effect ≠ .damage id) →
      Kept folder disk' s'

/-- Whether an id fits the rules, is there, and is its own on the system. -/
structure GoodId (id : String) : Prop where
  fits : Workflow.IdFits id
  filled : id ≠ ""
  shown : Files.systemName id = id

/-- What holds of a store and the disk with its folder at any time. -/
structure Agrees (folder : Path) (disk : Files.Disk) (s : Workflows) : Prop where
  sameFolder : s.folder = folder
  orderly : Orderly GoodId s.held
  files : ∃ entries, Stands disk folder entries ∧ FiledBy folder entries s.held

variable {disk disk' : Files.Disk} {s s' : Workflows} {effect : Effect}

/-- An empty folder, or one that was made because it was missing, has no files that are read. -/
theorem workflowIn_of_bare (hhome : disk.home.root ≠ "") (hbare : Bare folder disk)
    (hmade : disk.makeFolders folder = .ok disk') (hstands : Stands disk' folder entries)
    (name : String) : workflowIn folder entries name = none := by
  rw [Option.eq_none_iff_forall_ne_some]
  intro w hgiven
  have hname := mem_keys_of_workflowIn hgiven
  rcases hbare with hempty | hmissing
  · obtain ⟨found, hlisting⟩ := Files.Disk.listing_of_names hempty
    rw [Files.Disk.makeFolders_of_listing hlisting] at hmade
    cases hmade
    have hnames := (Files.Disk.names_of_listing hstands.listing).symm.trans hempty
    have hmem : name ∈ entries.keys.mergeSort fun a b => a ≤ b := List.mem_mergeSort.mpr hname
    rw [Except.ok.inj hnames] at hmem
    cases hmem
  · -- a file in the folder would have been there before, and the folder with it
    have hfiles := Files.Disk.sameFiles_makeFolders hmade
    obtain ⟨hpath, at_, hlocate, _⟩ := Files.Disk.listing_eq_ok_iff.mp hstands.listing
    rw [Files.Disk.locate_eq_of_home hfiles.home] at hlocate
    unfold workflowIn at hgiven
    split at hgiven
    · obtain ⟨bytes, hfile, _⟩ := Option.bind_eq_some_iff.mp hgiven
      have hisName := hstands.names name hname
      rw [← Files.Disk.fileAt_child hstands.home hstands.listing hisName,
        hfiles.fileAt fun _ _ => not_false] at hfile
      have hhas := Files.Disk.has_of_fileAt_child hhome hpath hlocate hisName.toIsName hfile
      rw [hhas] at hmissing
      cases hmissing
    · cases hgiven

/-- A store that was opened on an empty or missing folder holds nothing. -/
theorem held_of_bare {loaded : Loaded} (hhome : disk.home.root ≠ "") (hbare : Bare folder disk)
    (hnamed : Named loaded.disk folder) (h : load disk folder = .ok loaded) :
    loaded.store.held = [] := by
  obtain ⟨entries, hstands, hstore⟩ := stands_of_load hhome hnamed h
  have hnone := workflowIn_of_bare hhome hbare (load_cases h).1 hstands
  have hempty : workflowsIn folder entries = [] := by
    rw [List.eq_nil_iff_forall_not_mem]
    intro w hw
    obtain ⟨name, hgiven⟩ := mem_workflowsIn_iff.mp hw
    rw [hnone name] at hgiven
    cases hgiven
  rw [hstore, heldIn, hempty]
  rfl

theorem agrees_opened {loaded : Loaded} (hhome : disk.home.root ≠ "") (hbare : Bare folder disk)
    (hnamed : Named loaded.disk folder) (h : load disk folder = .ok loaded) :
    Agrees folder loaded.disk loaded.store := by
  obtain ⟨entries, hstands, hstore⟩ := stands_of_load hhome hnamed h
  have hnone := workflowIn_of_bare hhome hbare (load_cases h).1 hstands
  have hheld := held_of_bare hhome hbare hnamed h
  rw [hstore] at hheld ⊢
  dsimp only at hheld
  rw [hheld]
  refine ⟨rfl, orderly_nil, entries, hstands, fun name w => ?_⟩
  rw [hnone name]
  constructor
  · intro hgiven
    cases hgiven
  · rintro ⟨_, hfound⟩
    cases hfound

/-- A store that agrees with its folder is loaded from it again. -/
theorem Agrees.load (h : Agrees folder disk s) : ∃ loaded, load disk folder = .ok loaded ∧
    loaded.disk = disk ∧ Agrees folder disk loaded.store ∧
      ∀ id, loaded.store.held.get? id = s.held.get? id := by
  obtain ⟨entries, hstands, hfiled⟩ := h.files
  obtain ⟨skipped, hload⟩ := load_of_stands hstands
  have hget := get?_heldIn_of_filedBy hfiled h.orderly.filed
  have hheld : ∀ w ∈ workflowsIn folder entries, s.held.get? w.id = some w := by
    intro w hw
    obtain ⟨name, hgiven⟩ := mem_workflowsIn_iff.mp hw
    exact ((hfiled name w).mp hgiven).2
  have horderly : Orderly GoodId (heldIn folder entries) :=
    orderly_nil.keepAll (fun w hw => h.orderly.ids w.id w (hheld w hw))
      fun w hw => h.orderly.valid w.id w (hheld w hw)
  refine ⟨_, hload, rfl, ⟨rfl, horderly, entries, hstands, fun name w => ?_⟩, hget⟩
  rw [hfiled name w, ← hget]

/-- A step that damages no file keeps the store in agreement with its folder. -/
theorem agrees_step (h : Agrees folder disk s) (hstep : Step folder effect disk s disk' s')
    (hclean : ∀ id, effect ≠ .damage id) : Agrees folder disk' s' := by
  obtain ⟨entries, hstands, hfiled⟩ := h.files
  have hsame : ∀ {disk' : Files.Disk}, SameFolder folder disk disk' → Agrees folder disk' s :=
    fun hsame => ⟨h.sameFolder, h.orderly, entries, hstands.elsewhere hsame, hfiled⟩
  cases hstep with
  | saved hnow hfresh hw hanswer =>
      obtain ⟨hvalid, hid, hshown, hstore, entries', hstands', hbut, hfile⟩ :=
        stands_saved h.orderly h.sameFolder hstands hnow hfresh hw hanswer
      rw [hstore]
      rw [entryOf_of_shown hshown] at hbut hfile
      exact ⟨h.sameFolder, h.orderly.put ⟨hvalid.id, hid, hshown⟩ (Workflow.valid_iff.mp hvalid).2,
        entries', hstands', filedBy_put hfiled hbut hfile⟩
  | @deleted _ _ id hanswer =>
      obtain ⟨⟨w, hfound⟩, _⟩ := delete_ok hanswer
      have hgood := h.orderly.ids id w hfound
      have hname := isName_fileName hgood.fits.fileName
      obtain ⟨hstore, entries', hstands', hbut, hfile⟩ :=
        stands_deleted (fun _ _ => hname) h.sameFolder hstands hanswer
      rw [entryOf_of_shown hgood.shown] at hbut hfile
      rw [hstore]
      exact ⟨h.sameFolder, h.orderly.erase id, entries', hstands',
        filedBy_erase hfiled hbut hfile⟩
  | reloaded hload =>
      obtain ⟨found, hfound, hdisk, hagrees, _⟩ := h.load
      rw [hload] at hfound
      cases hfound
      exact hdisk.symm ▸ hagrees
  | broken _ _ _ _ => exact (hclean _ rfl).elim
  | notSaved now freshId w hsame' => exact hsame hsame'
  | notDeleted id hsame' => exact hsame hsame'
  | elsewhere hsame' => exact hsame hsame'

theorem agrees_of_kept (h : Kept folder disk s) : Agrees folder disk s := by
  induction h with
  | opened hhome hbare hnamed hload => exact agrees_opened hhome hbare hnamed hload
  | step _ hstep hclean ih => exact agrees_step ih hstep hclean

/-- At any time a store that is kept answers like one that is newly loaded from its folder, which
changes nothing on the disk, and an operation that fails leaves the store as it was. -/
theorem reopened_alike (h : Kept folder disk s) :
    (∃ loaded, load disk folder = .ok loaded ∧ loaded.disk = disk ∧ Alike s loaded.store) ∧
    (∀ now freshId w fault, (s.save disk now freshId w).answer = .error fault →
      (s.save disk now freshId w).store = s) ∧
    ∀ id fault, (s.delete disk id).answer = .error fault →
      (s.delete disk id).store = s ∧ (s.delete disk id).disk = disk := by
  have hagrees := agrees_of_kept h
  obtain ⟨loaded, hload, hdisk, hloaded, hget⟩ := hagrees.load
  exact ⟨⟨loaded, hload, hdisk, alike_of_get? hagrees.orderly hloaded.orderly hget⟩,
    fun _ _ _ _ => save_error, fun _ _ => delete_error⟩

/-! ## A missing folder -/

theorem kept_bareStore : Kept smallFolder emptyDisk bareStore := by
  have hmissing : Variables.bareDisk.has smallFolder = false := rfl
  have hhome : Variables.bareDisk.home.root ≠ "" := by decide
  exact Kept.opened hhome (.inr hmissing) named_emptyDisk load_bareDisk

theorem reopened_alike_bareStore :
    Kept smallFolder (bareStore.save emptyDisk Variables.newYear newId namelessWorkflow).disk
      (bareStore.save emptyDisk Variables.newYear newId namelessWorkflow).store ∧
    ∃ loaded, load (bareStore.save emptyDisk Variables.newYear newId namelessWorkflow).disk
      smallFolder = .ok loaded ∧
      loaded.disk = (bareStore.save emptyDisk Variables.newYear newId namelessWorkflow).disk ∧
      Alike (bareStore.save emptyDisk Variables.newYear newId namelessWorkflow).store
        loaded.store := by
  have hstep : Step smallFolder _ emptyDisk bareStore _ _ := .saved Variables.wellFormed_newYear
    (fun _ => fresh_newId) accepted_namelessWorkflow save_bareStore
  have hkept := kept_bareStore.step hstep fun _ => Effect.noConfusion
  exact ⟨hkept, (reopened_alike hkept).1⟩

end Runbook.Store.Workflows
