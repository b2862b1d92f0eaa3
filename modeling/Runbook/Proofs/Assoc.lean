import Runbook.Assoc

/-!
# Named values: what is found

`get?_put` and `get?_erase` say what is found under a name after a change, and `mem_keys_iff` that
the names are those under which something is found. Numbers that belong to what is found are bounded
(`exists_bound`). Where each name occurs once, which no change undoes, what is found determines the
entries up to their order (`perm_iff_get?`). Where the name is moreover the key of its value, the
values alone do so (`get?_eq_of_mem_values`).
-/

set_option autoImplicit false

namespace Runbook.Assoc

variable {α β : Type}

theorem get?_put (entries : Assoc α) (key name : String) (value : α) :
    (entries.put key value).get? name = if key = name then some value else entries.get? name := by
  induction entries with
  | nil => simp [put, get?]
  | cons entry rest ih =>
      obtain ⟨k, v⟩ := entry
      by_cases hk : k = key
      · subst hk
        by_cases hn : k = name <;> simp [put, get?, hn]
      · by_cases hn : k = name
        · subst hn
          simp [put, get?, hk, Ne.symm hk]
        · simp [put, get?, hk, hn, ih]

theorem get?_erase (entries : Assoc α) (key name : String) :
    (entries.erase key).get? name = if key = name then none else entries.get? name := by
  induction entries with
  | nil => simp [erase, get?]
  | cons entry rest ih =>
      obtain ⟨k, v⟩ := entry
      have herase : erase ((k, v) :: rest) key =
          if k = key then Assoc.erase rest key else (k, v) :: Assoc.erase rest key := by
        by_cases hk : k = key <;> simp [erase, hk]
      by_cases hk : k = key
      · subst hk
        rw [herase, if_pos rfl, ih]
        by_cases hn : k = name <;> simp [get?, hn]
      · rw [herase, if_neg hk]
        by_cases hn : k = name
        · subst hn
          simp [get?, Ne.symm hk]
        · simp [get?, hn, ih]

theorem get?_map (entries : Assoc α) (f : α → β) (name : String) :
    get? (entries.map fun (k, v) => (k, f v)) name = (entries.get? name).map f := by
  induction entries with
  | nil => rfl
  | cons entry rest ih =>
      obtain ⟨k, v⟩ := entry
      by_cases hk : k = name
      · simp [get?, hk]
      · simpa [get?, hk] using ih

theorem get?_append (entries others : Assoc α) (name : String) :
    get? (entries ++ others) name = (entries.get? name).or (others.get? name) := by
  induction entries with
  | nil => rfl
  | cons entry rest ih =>
      obtain ⟨k, v⟩ := entry
      by_cases hk : k = name
      · simp [get?, hk]
      · simpa [get?, hk] using ih

theorem mem_keys_iff {entries : Assoc α} {name : String} :
    name ∈ entries.keys ↔ ∃ value, entries.get? name = some value := by
  induction entries with
  | nil => simp [keys, get?]
  | cons entry rest ih =>
      obtain ⟨k, v⟩ := entry
      by_cases hk : k = name
      · simp [keys, get?, hk]
      · simpa [keys, get?, hk, Ne.symm hk] using ih

theorem get?_eq_none_iff {entries : Assoc α} {name : String} :
    entries.get? name = none ↔ name ∉ entries.keys := by
  rw [mem_keys_iff, not_exists, Option.eq_none_iff_forall_ne_some]

/-- The numbers that belong to the values have a bound. -/
theorem exists_bound (entries : Assoc α) (f : α → Nat) :
    ∃ bound, ∀ name value, entries.get? name = some value → f value ≤ bound := by
  induction entries with
  | nil => exact ⟨0, fun _ _ h => nomatch h⟩
  | cons entry rest ih =>
      obtain ⟨k, v⟩ := entry
      obtain ⟨bound, hrest⟩ := ih
      refine ⟨max (f v) bound, fun name value h => ?_⟩
      rw [get?] at h
      split at h
      · rw [← Option.some.inj h]
        exact Nat.le_max_left ..
      · exact Nat.le_trans (hrest name value h) (Nat.le_max_right ..)

/-! ## Names that occur once -/

/-- A new name goes to the end. -/
theorem put_of_notMem {entries : Assoc α} {key : String} (h : key ∉ entries.keys) (value : α) :
    entries.put key value = entries ++ [(key, value)] := by
  induction entries with
  | nil => rfl
  | cons entry rest ih =>
      obtain ⟨k, v⟩ := entry
      obtain ⟨hk, hrest⟩ : ¬key = k ∧ key ∉ keys rest := by simpa [keys] using h
      simp [put, Ne.symm hk, ih hrest]

/-- A name that has a value keeps its place. -/
theorem exists_of_get? {entries : Assoc α} {key : String} {value : α}
    (h : entries.get? key = some value) : ∃ before after, entries = before ++ (key, value) :: after ∧
      ∀ other, entries.put key other = before ++ (key, other) :: after := by
  induction entries with
  | nil => cases h
  | cons entry rest ih =>
      obtain ⟨k, v⟩ := entry
      by_cases hk : k = key
      · subst hk
        obtain rfl : v = value := by simpa [get?] using h
        exact ⟨[], rest, rfl, fun other => by simp [put]⟩
      · obtain ⟨before, after, rfl, hput⟩ := ih (by simpa [get?, hk] using h)
        refine ⟨(k, v) :: before, after, rfl, fun other => ?_⟩
        simp [put, hk, hput]

theorem mem_values_of_get? {entries : Assoc α} {key : String} {value : α}
    (h : entries.get? key = some value) : value ∈ entries.values := by
  obtain ⟨before, after, rfl, -⟩ := exists_of_get? h
  exact List.mem_map_of_mem (List.mem_append_right before (List.mem_cons_self ..))

/-- The last value of a name counts. -/
theorem put_put (entries : Assoc α) (key : String) (value last : α) :
    (entries.put key value).put key last = entries.put key last := by
  induction entries with
  | nil => simp [put]
  | cons entry rest ih =>
      obtain ⟨k, v⟩ := entry
      by_cases hk : k = key
      · simp [put, hk]
      · simp [put, hk, ih]

/-- A name that gets the value that it has changes nothing. -/
theorem put_of_get? {entries : Assoc α} {key : String} {value : α}
    (h : entries.get? key = some value) : entries.put key value = entries := by
  obtain ⟨before, after, rfl, hput⟩ := exists_of_get? h
  exact hput value

/-- A new name goes to the end of the names, another one changes nothing about them. -/
theorem keys_put (entries : Assoc α) (key : String) (value : α) :
    (entries.put key value).keys =
      if key ∈ entries.keys then entries.keys else entries.keys ++ [key] := by
  induction entries with
  | nil => rfl
  | cons entry rest ih =>
      obtain ⟨k, v⟩ := entry
      by_cases hk : k = key
      · simp [put, keys, hk]
      · have htail : (put rest key value).keys = _ := ih
        simp only [keys] at htail
        by_cases hmem : key ∈ rest.map (·.1) <;> simp_all [put, keys, Ne.symm hk]

theorem nodup_keys_put {entries : Assoc α} (h : entries.keys.Nodup) (key : String) (value : α) :
    (entries.put key value).keys.Nodup := by
  rw [keys_put]
  split
  · exact h
  · rename_i hnew
    refine List.nodup_append.mpr ⟨h, by simp, fun name hname other hother hsame => hnew ?_⟩
    rwa [← List.mem_singleton.mp hother, ← hsame]

theorem nodup_keys_erase {entries : Assoc α} (h : entries.keys.Nodup) (key : String) :
    (entries.erase key).keys.Nodup :=
  h.sublist (List.filter_sublist.map _)

theorem notMem_of_nodup_append {entries rest : Assoc α} {entry : String × α}
    (h : (keys (entries ++ entry :: rest)).Nodup) : entry.1 ∉ entries.keys := by
  intro hmem
  simp only [keys, List.map_append, List.map_cons, List.nodup_append] at h
  exact h.2.2 entry.1 hmem entry.1 List.mem_cons_self rfl

/-- Where each name occurs once, what is found is what stands there. -/
theorem get?_eq_some_iff {entries : Assoc α} (h : entries.keys.Nodup) {name : String} {value : α} :
    entries.get? name = some value ↔ (name, value) ∈ entries := by
  induction entries with
  | nil => simp [get?]
  | cons entry rest ih =>
      obtain ⟨k, v⟩ := entry
      obtain ⟨hk, hrest⟩ : k ∉ keys rest ∧ (keys rest).Nodup := List.nodup_cons.mp h
      by_cases hname : k = name
      · subst hname
        have hout : (k, value) ∉ rest := fun hmem => hk (List.mem_map_of_mem (f := (·.1)) hmem)
        simp [get?, hout, eq_comm]
      · simp [get?, hname, Ne.symm hname, ih hrest]

/-- Where each name occurs once, a choice among the values is a choice among the entries. -/
theorem get?_filter {entries : Assoc α} (h : entries.keys.Nodup) (p : α → Bool) (name : String) :
    get? (entries.filter fun entry => p entry.2) name = (entries.get? name).filter p := by
  induction entries with
  | nil => rfl
  | cons entry rest ih =>
      obtain ⟨k, v⟩ := entry
      obtain ⟨hk, hrest⟩ : k ∉ keys rest ∧ (keys rest).Nodup := List.nodup_cons.mp h
      by_cases hname : k = name
      · subst hname
        have hout : get? rest k = none := get?_eq_none_iff.mpr hk
        by_cases hp : p v = true <;> simp [get?, Option.filter, hp, ih hrest, hout]
      · by_cases hp : p v = true <;> simp [get?, hp, hname, ih hrest]

theorem nodup_of_keys {entries : Assoc α} (h : entries.keys.Nodup) : entries.Nodup :=
  List.Pairwise.of_map (·.1) (fun _ _ hne hsame => hne (congrArg (·.1) hsame)) h

/-- Where each name occurs once, the entries that are put over others are found first. -/
theorem get?_merge (base : Assoc α) {upper : Assoc α} (h : upper.keys.Nodup) (name : String) :
    (base.merge upper).get? name = (upper.get? name).or (base.get? name) := by
  induction upper generalizing base with
  | nil => rfl
  | cons entry rest ih =>
      obtain ⟨k, v⟩ := entry
      obtain ⟨hk, hrest⟩ : k ∉ keys rest ∧ (keys rest).Nodup := List.nodup_cons.mp h
      have hmerge : base.merge ((k, v) :: rest) = (base.put k v).merge rest := rfl
      rw [hmerge, ih (base.put k v) hrest, get?_put, get?]
      by_cases hname : k = name
      · subst hname
        simp [get?_eq_none_iff.mpr hk]
      · simp [hname]

theorem nodup_keys_merge {base : Assoc α} (h : base.keys.Nodup) (upper : Assoc α) :
    (base.merge upper).keys.Nodup := by
  induction upper generalizing base with
  | nil => exact h
  | cons entry rest ih => exact ih (nodup_keys_put h entry.1 entry.2)

/-- Where each name occurs once, the same findings are the same entries. -/
theorem perm_iff_get? {entries others : Assoc α} (h : entries.keys.Nodup) (ho : others.keys.Nodup) :
    entries.Perm others ↔ ∀ name, entries.get? name = others.get? name := by
  rw [List.perm_ext_iff_of_nodup (nodup_of_keys h) (nodup_of_keys ho)]
  constructor
  · intro hmem name
    ext value
    rw [get?_eq_some_iff h, get?_eq_some_iff ho]
    exact hmem (name, value)
  · rintro hget ⟨name, value⟩
    rw [← get?_eq_some_iff h, ← get?_eq_some_iff ho, hget]

/-- Where each name occurs once and is the key of its value, what is found is one of the values. -/
theorem get?_eq_some_iff_mem_values {entries : Assoc α} (key : α → String)
    (h : entries.keys.Nodup) (hfiled : ∀ name value, entries.get? name = some value →
      key value = name) {name : String} {value : α} :
    entries.get? name = some value ↔ value ∈ entries.values ∧ key value = name := by
  constructor
  · intro hfound
    exact ⟨mem_values_of_get? hfound, hfiled name value hfound⟩
  · rintro ⟨hvalue, rfl⟩
    obtain ⟨⟨name, _⟩, hentry, rfl⟩ := List.mem_map.mp hvalue
    have hfound := (get?_eq_some_iff h).mpr hentry
    exact (hfiled name _ hfound).symm ▸ hfound

/-- Where each name occurs once and is the key of its value, the same values are found alike. -/
theorem get?_eq_of_mem_values {entries others : Assoc α} (key : α → String)
    (h : entries.keys.Nodup) (ho : others.keys.Nodup)
    (hfiled : ∀ name value, entries.get? name = some value → key value = name)
    (hofiled : ∀ name value, others.get? name = some value → key value = name)
    (hsame : ∀ value, value ∈ entries.values ↔ value ∈ others.values) (name : String) :
    others.get? name = entries.get? name := by
  ext value
  rw [get?_eq_some_iff_mem_values key ho hofiled, get?_eq_some_iff_mem_values key h hfiled, hsame]

/-- Where each name occurs once and is the key of its value, no two values have the same key, in
whatever order they stand. -/
theorem pairwise_key_ne {entries : Assoc α} (key : α → String) (h : entries.keys.Nodup)
    (hfiled : ∀ name value, entries.get? name = some value → key value = name)
    {values : List α} (hvalues : values.Perm entries.values) :
    values.Pairwise fun a b => key a ≠ key b := by
  have hkeys : entries.values.map key = entries.keys := by
    rw [Assoc.values, keys, List.map_map]
    exact List.map_congr_left fun entry hentry =>
      hfiled entry.1 entry.2 ((get?_eq_some_iff h).mpr hentry)
  have hnodup : (values.map key).Nodup := (hvalues.map key).nodup_iff.mpr (hkeys ▸ h)
  exact List.pairwise_map.mp hnodup

/-- Where each name occurs once and is the key of its value, the same findings give the same values
in order, if values that come before each other in both ways have the same key. -/
theorem mergeSort_values_eq {entries others : Assoc α} {le : α → α → Bool} (key : α → String)
    (h : entries.keys.Nodup) (ho : others.keys.Nodup)
    (hfiled : ∀ name value, entries.get? name = some value → key value = name)
    (hget : ∀ name, others.get? name = entries.get? name)
    (htrans : ∀ a b c, le a b = true → le b c = true → le a c = true)
    (htotal : ∀ a b, (le a b || le b a) = true)
    (hanti : ∀ a b, le a b = true → le b a = true → key a = key b) :
    others.values.mergeSort le = entries.values.mergeSort le := by
  have hvalues : others.values.Perm entries.values := ((perm_iff_get? ho h).mpr hget).map _
  have hmem : ∀ {found : Assoc α}, found.keys.Nodup →
      (∀ name, found.get? name = entries.get? name) →
      ∀ value ∈ found.values.mergeSort le, entries.get? (key value) = some value := by
    intro found hnodup hsame value hvalue
    rw [← hsame, get?_eq_some_iff_mem_values key hnodup fun name value hfound =>
      hfiled name value (hsame name ▸ hfound)]
    exact ⟨List.mem_mergeSort.mp hvalue, rfl⟩
  -- two sorted lists of the same values are equal, as a key belongs to one value only
  refine List.Perm.eq_of_pairwise (fun a b ha hb hab hba => ?_)
    (List.pairwise_mergeSort htrans htotal _) (List.pairwise_mergeSort htrans htotal _)
    ((List.mergeSort_perm _ _).trans (hvalues.trans (List.mergeSort_perm _ _).symm))
  have hfound := hmem ho hget a ha
  rw [hanti a b hab hba] at hfound
  exact Option.some.inj (hfound.symm.trans (hmem h (fun _ => rfl) b hb))

end Runbook.Assoc
