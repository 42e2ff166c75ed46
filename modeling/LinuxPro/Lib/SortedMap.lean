import Mathlib

/-! Ordered maps as `std::map` keeps them: the entries in the order of their keys. -/

namespace LinuxPro

/-- Bytes are ordered as numbers, so that texts are ordered as `std::string` compares them. -/
instance instLinearOrderUInt8 : LinearOrder UInt8 where
  le_refl := UInt8.le_refl
  le_trans _ _ _ := UInt8.le_trans
  le_antisymm _ _ := UInt8.le_antisymm
  le_total := UInt8.le_total
  -- The core order of bytes is that of their numbers.
  lt_iff_le_not_ge a b := by
    rw [UInt8.lt_iff_toNat_lt, UInt8.le_iff_toNat_le, UInt8.le_iff_toNat_le]
    omega
  toDecidableLE := inferInstance
  toDecidableLT := inferInstance
  toDecidableEq := inferInstance

namespace SortedMap

variable {κ α : Type} [LinearOrder κ]

/-- The invariant of an ordered map: the keys strictly increase, so none occurs twice. -/
def Sorted (entries : List (κ × α)) : Prop := entries.Pairwise fun first second => first.1 < second.1

instance (entries : List (κ × α)) : Decidable (Sorted entries) :=
  inferInstanceAs (Decidable (List.Pairwise _ entries))

/-- The value under a key. -/
def find (key : κ) : List (κ × α) → Option α
  | [] => none
  | entry :: rest => if entry.1 = key then some entry.2 else find key rest

/-- The map with the value under a key replaced by what is made of the old one, if there is one. -/
def alter (key : κ) (make : Option α → α) : List (κ × α) → List (κ × α)
  | [] => [(key, make none)]
  | entry :: rest =>
    if key < entry.1 then (key, make none) :: entry :: rest
    else if entry.1 = key then (key, make (some entry.2)) :: rest
    else entry :: alter key make rest

/-- `insert` and `emplace`, which leave the value of a key that is present. -/
def insert (key : κ) (value : α) (entries : List (κ × α)) : List (κ × α) :=
  alter key (fun old => old.getD value) entries

/-- An assignment through `operator[]`, which replaces the value of a key that is present. -/
def assign (key : κ) (value : α) (entries : List (κ × α)) : List (κ × α) :=
  alter key (fun _ => value) entries

/-- The first entry of each key, in the order of the keys. -/
def firsts (entries : List (κ × α)) : List (κ × α) :=
  (entries.map Prod.fst).toFinset.sort.filterMap fun key =>
    (find key entries).map fun value => (key, value)

variable {entries : List (κ × α)} {key other : κ}

/-- A map is ordered if its first key is below the others and they are ordered. -/
theorem sorted_cons {entry : κ × α} :
    Sorted (entry :: entries) ↔ (∀ later ∈ entries, entry.1 < later.1) ∧ Sorted entries :=
  List.pairwise_cons

/-- A key that no entry has is not found. -/
theorem find_eq_none (absent : ∀ entry ∈ entries, entry.1 ≠ key) : find key entries = none := by
  induction entries with
  | nil => rfl
  | cons entry rest ih =>
    simp only [find, if_neg (absent entry (by simp))]
    exact ih fun later member => absent later (by simp [member])

/-- A key is looked for in the front first. -/
theorem find_append (front rest : List (κ × α)) :
    find key (front ++ rest) = (find key front).or (find key rest) := by
  induction front with
  | nil => simp [find]
  | cons entry front ih =>
    rw [List.cons_append, find, find, ih]
    split <;> simp

/-- What is found under a key is one of the entries. -/
theorem mem_of_find {value : α} (found : find key entries = some value) :
    (key, value) ∈ entries := by
  induction entries with
  | nil => simp [find] at found
  | cons entry rest ih =>
    simp only [find] at found
    -- The first entry is the one that is found, or the search goes on.
    split at found
    · next same =>
      subst same
      cases found
      simp
    · simp [ih found]

/-- In an ordered map every entry is the one found under its key. -/
theorem find_of_mem {value : α} (sorted : Sorted entries) (member : (key, value) ∈ entries) :
    find key entries = some value := by
  induction entries with
  | nil => simp at member
  | cons entry rest ih =>
    obtain ⟨smaller, later⟩ := sorted_cons.mp sorted
    rcases List.mem_cons.mp member with rfl | inside
    · simp [find]
    · -- A later entry has a larger key, so that the first one is passed over.
      simp only [find, if_neg (ne_of_lt (smaller _ inside))]
      exact ih later inside

/-- Behind an entry with a larger key, a key is not found. -/
theorem find_eq_none_of_lt {entry : κ × α} (smaller : key < entry.1)
    (sorted : Sorted (entry :: entries)) : find key (entry :: entries) = none := by
  apply find_eq_none
  -- All the keys that follow are larger still.
  intro later member
  rcases List.mem_cons.mp member with rfl | inside
  · exact ne_of_gt smaller
  · exact ne_of_gt (lt_trans smaller ((sorted_cons.mp sorted).1 later inside))

/-- Every key of an altered map is the altered one or was there before. -/
theorem mem_alter {make : Option α → α} {entry : κ × α} (member : entry ∈ alter key make entries) :
    entry = (key, make (find key entries)) ∨ entry = (key, make none) ∨ entry ∈ entries := by
  induction entries with
  | nil => simpa [alter, find] using member
  | cons first rest ih =>
    simp only [alter] at member
    -- The three cases are those of `alter`: in front, at this entry, or further on.
    split at member
    · rcases List.mem_cons.mp member with rfl | inside
      · exact .inr (.inl rfl)
      · exact .inr (.inr inside)
    · split at member
      · next same =>
        rcases List.mem_cons.mp member with rfl | inside
        · exact .inl (by simp [find, same])
        · exact .inr (.inr (by simp [inside]))
      · next differs =>
        rcases List.mem_cons.mp member with rfl | inside
        · exact .inr (.inr (by simp))
        · rcases ih inside with here | fresh | before
          · exact .inl (by simpa [find, differs] using here)
          · exact .inr (.inl fresh)
          · exact .inr (.inr (by simp [before]))

/-- An inserted entry is new, unless its key was there. -/
theorem mem_insert {value : α} {entry : κ × α} (member : entry ∈ insert key value entries) :
    entry = (key, value) ∨ entry ∈ entries := by
  rcases mem_alter member with here | fresh | before
  · -- Under a key that is present the old value is inserted again.
    cases found : find key entries with
    | none => exact .inl (by rw [here, found, Option.getD_none])
    | some old => exact .inr (by rw [here, found, Option.getD_some]; exact mem_of_find found)
  · exact .inl fresh
  · exact .inr before

/-- After an assignment there is the new entry and what was there. -/
theorem mem_assign {value : α} {entry : κ × α} (member : entry ∈ assign key value entries) :
    entry = (key, value) ∨ entry ∈ entries := by
  rcases mem_alter member with here | fresh | before
  · exact .inl here
  · exact .inl fresh
  · exact .inr before

/-- Altering adds at most one entry. -/
theorem length_alter_le (key : κ) (make : Option α → α) (entries : List (κ × α)) :
    (alter key make entries).length ≤ entries.length + 1 := by
  induction entries with
  | nil => simp [alter]
  | cons entry rest ih =>
    simp only [alter]
    split
    · simp
    · split <;> simp [ih]

/-- Altering keeps the order. -/
theorem sorted_alter {make : Option α → α} (sorted : Sorted entries) :
    Sorted (alter key make entries) := by
  induction entries with
  | nil => exact List.pairwise_singleton _ _
  | cons entry rest ih =>
    obtain ⟨smaller, later⟩ := sorted_cons.mp sorted
    simp only [alter]
    split
    · next before =>
      -- The new entry stands in front, and its key is below all others.
      refine sorted_cons.mpr ⟨fun other member => ?_, sorted⟩
      rcases List.mem_cons.mp member with rfl | inside
      · exact before
      · exact lt_trans before (smaller other inside)
    · next notBefore =>
      split
      · next same =>
        subst same
        exact sorted_cons.mpr ⟨smaller, later⟩
      · next differs =>
        -- The altered key comes behind this entry, as it is neither smaller nor the same.
        have behind : entry.1 < key := lt_of_le_of_ne (not_lt.mp notBefore) differs
        refine sorted_cons.mpr ⟨fun other member => ?_, ih later⟩
        rcases mem_alter member with rfl | rfl | inside
        · exact behind
        · exact behind
        · exact smaller other inside

/-- Under the altered key the made value is found, and under every other key what was there. -/
theorem find_alter {make : Option α → α} (sorted : Sorted entries) :
    find other (alter key make entries) =
      if other = key then some (make (find key entries)) else find other entries := by
  induction entries with
  | nil =>
    by_cases same : other = key
    · simp [alter, find, same]
    · simp [alter, find, same, Ne.symm same]
  | cons entry rest ih =>
    obtain ⟨_, later⟩ := sorted_cons.mp sorted
    simp only [alter]
    split
    · next before =>
      -- The key was not there, as it is below the first one.
      rw [find_eq_none_of_lt before sorted]
      by_cases same : other = key
      · simp [find, same]
      · simp [find, same, Ne.symm same]
    · split
      · next same =>
        by_cases asked : other = key
        · simp [find, same, asked]
        · simp [find, same, asked, Ne.symm asked]
      · next differs =>
        -- The entry in front has another key, so that it is found as before.
        simp only [find, ih later, if_neg differs]
        by_cases asked : entry.1 = other
        · subst asked
          simp [differs]
        · simp [asked]

/-- Of entries that are inserted one by one, the first of each key stays. -/
theorem find_foldl_insert (entries built : List (κ × α)) (sorted : Sorted built) :
    find key (entries.foldl (fun built entry => insert entry.1 entry.2 built) built) =
      (find key built).or (find key entries) := by
  -- The map built so far is generalized, as each step changes it.
  induction entries generalizing built with
  | nil => simp [find]
  | cons entry rest ih =>
    have ordered : Sorted (insert entry.1 entry.2 built) := sorted_alter sorted
    rw [List.foldl_cons, ih _ ordered, insert, find_alter sorted]
    -- Only the key that is inserted can be found in another way than before.
    by_cases same : key = entry.1
    · subst same
      cases found : find entry.1 built <;> simp [find]
    · simp [find, same, Ne.symm same]

/-- Of entries that are assigned one by one, the last of each key stays. -/
theorem find_foldl_assign (entries built : List (κ × α)) (sorted : Sorted built) :
    find key (entries.foldl (fun built entry => assign entry.1 entry.2 built) built) =
      (find key entries.reverse).or (find key built) := by
  -- As for inserting, with the entries looked at from the end.
  induction entries generalizing built with
  | nil => simp [find]
  | cons entry rest ih =>
    have ordered : Sorted (assign entry.1 entry.2 built) := sorted_alter sorted
    rw [List.foldl_cons, ih _ ordered, assign, find_alter sorted, List.reverse_cons, find_append]
    by_cases same : key = entry.1
    · subst same
      cases found : find entry.1 rest.reverse <;> simp [find]
    · simp [find, same, Ne.symm same]

/-- Two ordered maps in which the same is found under every key are the same. -/
theorem ext {entries entries' : List (κ × α)} (sorted : Sorted entries) (sorted' : Sorted entries')
    (same : ∀ key, find key entries = find key entries') : entries = entries' := by
  -- An entry is determined by what is found under its key.
  have subset : ∀ {left right : List (κ × α)}, Sorted left → Sorted right →
      (∀ key, find key left = find key right) → ∀ entry ∈ left, entry ∈ right := by
    intro left right sortedLeft _ agree entry member
    exact mem_of_find ((agree entry.1) ▸ find_of_mem sortedLeft member)
  -- Strictly ordered lists with the same members are the same list.
  refine @List.Perm.eq_of_pairwise _ (fun first second : κ × α => first.1 < second.1) _ _ ?_ sorted
    sorted' ?_
  · intro first second _ _ before after
    exact absurd (lt_trans before after) (lt_irrefl _)
  · apply (List.perm_ext_iff_of_nodup ?_ ?_).mpr
    · intro entry
      exact ⟨subset sorted sorted' same entry, subset sorted' sorted (fun key => (same key).symm) entry⟩
    · exact sorted.imp fun before equal => absurd (equal ▸ before) (lt_irrefl _)
    · exact sorted'.imp fun before equal => absurd (equal ▸ before) (lt_irrefl _)

/-- There are no first entries of none. -/
@[simp] theorem firsts_nil : firsts ([] : List (κ × α)) = [] := by
  simp [firsts]

/-- The first entries are an ordered map. -/
theorem sorted_firsts (entries : List (κ × α)) : Sorted (firsts entries) := by
  have keys := (Finset.sortedLT_sort (entries.map Prod.fst).toFinset).pairwise
  refine keys.filterMap _ fun first second before entry found later found' => ?_
  -- Each entry stands under the key it was looked up with.
  obtain ⟨_, _, rfl⟩ := Option.map_eq_some_iff.mp found
  obtain ⟨_, _, rfl⟩ := Option.map_eq_some_iff.mp found'
  exact before

/-- Under every key the first of its entries is found. -/
theorem find_firsts (entries : List (κ × α)) : find key (firsts entries) = find key entries := by
  cases found : find key entries with
  | none =>
    -- A first entry with this key would have been looked up with it.
    refine find_eq_none fun entry member same => ?_
    obtain ⟨_, _, looked⟩ := List.mem_filterMap.mp member
    obtain ⟨value, first, rfl⟩ := Option.map_eq_some_iff.mp looked
    rw [← same, first] at found
    cases found
  | some value =>
    -- The key is among those that are looked up, and so its entry is there.
    apply find_of_mem (sorted_firsts entries)
    refine List.mem_filterMap.mpr ⟨key, ?_, by rw [found]; rfl⟩
    rw [Finset.mem_sort, List.mem_toFinset]
    exact List.mem_map.mpr ⟨(key, value), mem_of_find found, rfl⟩

/-- A list that is an ordered map already has nothing but first entries. -/
theorem firsts_of_sorted (sorted : Sorted entries) : firsts entries = entries :=
  ext (sorted_firsts entries) sorted fun _ => find_firsts entries

/-- Inserting one by one keeps an ordered map. -/
theorem sorted_foldl_insert (entries built : List (κ × α)) (sorted : Sorted built) :
    Sorted (entries.foldl (fun built entry => insert entry.1 entry.2 built) built) := by
  induction entries generalizing built with
  | nil => exact sorted
  | cons entry rest ih => exact ih _ (sorted_alter sorted)

/-- Assigning one by one keeps an ordered map. -/
theorem sorted_foldl_assign (entries built : List (κ × α)) (sorted : Sorted built) :
    Sorted (entries.foldl (fun built entry => assign entry.1 entry.2 built) built) := by
  induction entries generalizing built with
  | nil => exact sorted
  | cons entry rest ih => exact ih _ (sorted_alter sorted)

/-- Entries that are inserted one by one into an empty map leave the first of each key. -/
theorem foldl_insert_eq_firsts (entries : List (κ × α)) :
    entries.foldl (fun built entry => insert entry.1 entry.2 built) [] = firsts entries := by
  -- Both are ordered maps in which the same is found.
  apply ext (sorted_foldl_insert entries [] List.Pairwise.nil) (sorted_firsts entries)
  intro key
  rw [find_foldl_insert entries [] List.Pairwise.nil, find_firsts]
  rfl

/-- Entries that are assigned one by one in an empty map leave the last of each key. -/
theorem foldl_assign_eq_firsts (entries : List (κ × α)) :
    entries.foldl (fun built entry => assign entry.1 entry.2 built) [] =
      firsts entries.reverse := by
  apply ext (sorted_foldl_assign entries [] List.Pairwise.nil) (sorted_firsts entries.reverse)
  intro key
  rw [find_foldl_assign entries [] List.Pairwise.nil, find_firsts, find, Option.or_none]

end SortedMap

end LinuxPro
