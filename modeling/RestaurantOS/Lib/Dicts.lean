import RestaurantOS.Lib.RowSums

/-!
# Dictionaries

Finite maps with the operations of a dictionary: a value is read, set and removed by its key, and a
comprehension keeps the entries with a property or maps the values. Facts about a dictionary are facts
about what is read under a key, and its size changes by at most one when a value is set or removed.
-/

/-- A dictionary: entries with different keys. The order is that of insertion, as Python keeps it.
-/
structure Dict (κ ν : Type*) where
  /-- The entries. -/
  items : List (κ × ν)
  /-- A key has one value. -/
  unique : Keyed.Unique Prod.fst items

namespace Dict

variable {κ ν ν' : Type*}

/-- The empty dictionary. It has no entry. -/
def empty : Dict κ ν := ⟨[], List.nodup_nil⟩

variable (d : Dict κ ν)

/-- The number of entries. A key counts once, as the keys are different. -/
def size : ℕ := d.items.length

/-- The values. They are in the order of their keys. -/
def values : List ν := d.items.map Prod.snd

/-- The entries with a property. The order of those that stay does not change. -/
def keep (p : κ → ν → Bool) : Dict κ ν :=
  ⟨d.items.filter fun entry => p entry.1 entry.2, d.unique.filter _⟩

/-- The values are mapped. The keys and their order stay. -/
def map_values (f : ν → ν') : Dict κ ν' :=
  ⟨d.items.map fun entry => (entry.1, f entry.2), by
    unfold Keyed.Unique
    rw [List.map_map]
    exact d.unique⟩

variable [DecidableEq κ]

/-- The value under a key. A key without an entry has `none`. -/
def get (k : κ) : Option ν := (Keyed.lookup Prod.fst k d.items).map Prod.snd

/-- A value is set. A key keeps its place, and a new one comes last. -/
def set (k : κ) (v : ν) : Dict κ ν := ⟨Keyed.upsert Prod.fst (k, v) d.items, d.unique.upsert _⟩

/-- A key is removed. A key that is not there is ignored. -/
def pop (k : κ) : Dict κ ν := d.keep fun k' _ => k' ≠ k

variable {d}

/-! ## Reading -/

/-- The empty dictionary has no key. -/
@[simp] theorem get_empty (k : κ) : (empty : Dict κ ν).get k = none := rfl

/-- A value is read under a key exactly if it is an entry. -/
theorem get_eq_some {k : κ} {v : ν} : d.get k = some v ↔ (k, v) ∈ d.items := by
  unfold get
  rw [Option.map_eq_some_iff]
  constructor
  · rintro ⟨⟨k', v'⟩, hlookup, rfl⟩
    obtain ⟨hmem, rfl⟩ := d.unique.lookup_eq_some.mp hlookup
    exact hmem
  · exact fun hmem => ⟨(k, v), d.unique.lookup_eq_some.mpr ⟨hmem, rfl⟩, rfl⟩

/-- Reading after a value is set. -/
theorem get_set (k k' : κ) (v : ν) : (d.set k v).get k' = if k' = k then some v else d.get k' := by
  unfold get set
  rw [Keyed.lookup_upsert]
  split_ifs <;> rfl

/-- The value that was set is the one that is found. -/
@[simp] theorem get_set_self (k : κ) (v : ν) : (d.set k v).get k = some v := by
  rw [get_set, if_pos rfl]

/-- Setting the value that is there changes nothing. The place of the key stays the same too. -/
theorem set_of_get {k : κ} {v : ν} (h : d.get k = some v) : d.set k v = d := by
  have hmem : (k, v) ∈ d.items := get_eq_some.mp h
  have hlookup : Keyed.lookup Prod.fst k d.items = some (k, v) :=
    d.unique.lookup_eq_some.mpr ⟨hmem, rfl⟩
  have hitems : Keyed.upsert Prod.fst (k, v) d.items = d.items := by
    unfold Keyed.upsert
    dsimp only
    rw [hlookup]
    refine (List.map_congr_left fun entry hentry => ?_).trans (List.map_id _)
    split_ifs with hkey
    · exact d.unique.eq_of_key hmem hentry hkey.symm
    · rfl
  unfold set
  congr

/-- Reading what is kept. -/
theorem get_keep (p : κ → ν → Bool) (k : κ) : (d.keep p).get k = (d.get k).filter (p k) := by
  refine Option.ext fun v => ?_
  rw [get_eq_some, Option.filter_eq_some_iff, get_eq_some]
  exact List.mem_filter

/-- Reading after a key is removed. -/
theorem get_pop (k k' : κ) : (d.pop k).get k' = if k' = k then none else d.get k' := by
  unfold pop
  rw [get_keep]
  split_ifs with h <;> cases d.get k' <;> simp [h]

/-- Reading a mapped value. The keys are the same, and so is the first of each. -/
theorem get_map_values (f : ν → ν') (k : κ) : (d.map_values f).get k = (d.get k).map f := by
  refine Option.ext fun v => ?_
  rw [get_eq_some, Option.map_eq_some_iff]
  constructor
  · intro hmem
    obtain ⟨entry, hentry, heq⟩ := List.mem_map.mp hmem
    obtain ⟨rfl, rfl⟩ := Prod.mk.inj heq
    exact ⟨entry.2, get_eq_some.mpr hentry, rfl⟩
  · rintro ⟨v, hv, rfl⟩
    exact List.mem_map_of_mem (get_eq_some.mp hv)

/-! ## Rows by their key -/

/-- The dictionary of rows by their key, in which the last of several rows with one key stays. -/
def index (key : ν → κ) (rows : List ν) : Dict κ ν :=
  rows.foldl (fun d row => d.set (key row) row) empty

/-- Where the keys differ, a row is read under its key. -/
theorem get_index {key : ν → κ} {rows : List ν} (h : Keyed.Unique key rows) (k : κ) :
    (index key rows).get k = Keyed.lookup key k rows := by
  -- Filling the dictionary row by row: a later row under the same key would win, but there is none.
  have hfold : ∀ (rows : List ν) (d : Dict κ ν), Keyed.Unique key rows →
      (rows.foldl (fun d row => d.set (key row) row) d).get k =
        (Keyed.lookup key k rows).or (d.get k) := by
    intro rows
    induction rows with
    | nil => exact fun d _ => rfl
    | cons row rows ih =>
      intro d h
      obtain ⟨hnew, hrest⟩ := List.nodup_cons.mp h
      rw [List.foldl_cons, ih _ hrest, get_set]
      unfold Keyed.lookup
      rw [List.find?_cons]
      by_cases hk : key row = k
      · have hnone : rows.find? (fun r => key r = k) = none := by
          rw [List.find?_eq_none]
          intro other hother hkey
          exact hnew (hk.trans (of_decide_eq_true hkey).symm ▸ List.mem_map_of_mem hother)
        rw [hnone, if_pos hk.symm, decide_eq_true hk]
        rfl
      · rw [if_neg (Ne.symm hk), decide_eq_false hk]
  rw [index, hfold rows empty h, get_empty, Option.or_none]

/-! ## Sizes -/

omit [DecidableEq κ] in
/-- The empty dictionary has no entry. -/
@[simp] theorem size_empty : (empty : Dict κ ν).size = 0 := rfl

omit [DecidableEq κ] in
/-- Keeping adds nothing. -/
theorem size_keep_le (p : κ → ν → Bool) : (d.keep p).size ≤ d.size := List.length_filter_le ..

omit [DecidableEq κ] in
/-- Mapping changes no key. -/
@[simp] theorem size_map_values (f : ν → ν') : (d.map_values f).size = d.size := List.length_map _

/-- Setting a value adds at most one entry. -/
theorem size_set_le (k : κ) (v : ν) : (d.set k v).size ≤ d.size + 1 := by
  show (Keyed.upsert Prod.fst (k, v) d.items).length ≤ d.items.length + 1
  unfold Keyed.upsert
  split
  · exact (List.length_append ..).le
  · exact (List.length_map _).le.trans (Nat.le_succ _)

/-- Setting a value under a key that is there adds nothing. -/
theorem size_set_of_mem {k : κ} (h : (d.get k).isSome) (v : ν) : (d.set k v).size = d.size := by
  show (Keyed.upsert Prod.fst (k, v) d.items).length = d.items.length
  unfold get at h
  unfold Keyed.upsert
  split
  · rename_i hlookup
    rw [show Keyed.lookup Prod.fst k d.items = none from hlookup] at h
    cases h
  · exact List.length_map _

/-- Removing adds nothing. -/
theorem size_pop_le (k : κ) : (d.pop k).size ≤ d.size := size_keep_le _

/-- Removing a key that is there takes its entry away. -/
theorem size_pop_lt {k : κ} (h : (d.get k).isSome) : (d.pop k).size < d.size := by
  obtain ⟨v, hv⟩ := Option.isSome_iff_exists.mp h
  exact List.length_filter_lt_length_iff_exists.mpr ⟨(k, v), get_eq_some.mp hv, by simp⟩

/-- A dictionary with an entry under a key is not empty. -/
theorem size_pos {k : κ} (h : (d.get k).isSome) : 0 < d.size := by
  obtain ⟨v, hv⟩ := Option.isSome_iff_exists.mp h
  exact List.length_pos_of_mem (get_eq_some.mp hv)

end Dict
