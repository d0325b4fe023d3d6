import Mathlib.Algebra.BigOperators.Group.Finset.Piecewise
import Mathlib.Algebra.BigOperators.Group.List.Basic
import RestaurantOS.Lib.Rows

/-!
# Sums over tables of keyed rows

A program that keeps the sum of a weight over the rows of a table up to date adds and subtracts the
weight of each row that it writes. `upsert` writes a row under its key, whether or not the table has
one there, and `sum_upsert` says how that changes the sum. Two tables have the same sum if under
each key they have the same weight (`Unique.sum_eq`).
-/

namespace Keyed

variable {α β κ μ : Type*} [DecidableEq κ] {key : α → κ} {key' : β → κ}

/-- Write a row under its key, over the one that is there, if any. -/
def upsert (key : α → κ) (row : α) (rows : List α) : List α :=
  match lookup key (key row) rows with
  | none => rows ++ [row]
  | some _ => put key row rows

/-- Selecting the written row. -/
@[simp] theorem lookup_upsert_self (row : α) (rows : List α) :
    lookup key (key row) (upsert key row rows) = some row := by
  unfold upsert
  cases h : lookup key (key row) rows with
  | none => rw [lookup_append, h, if_pos rfl, Option.none_or]
  | some old => exact lookup_put_self h

/-- Selecting another row than the written one. -/
theorem lookup_upsert_ne {row : α} {k : κ} (hk : k ≠ key row) (rows : List α) :
    lookup key k (upsert key row rows) = lookup key k rows := by
  unfold upsert
  cases h : lookup key (key row) rows with
  | none => rw [lookup_append, if_neg hk.symm, Option.or_none]
  | some old => exact lookup_put_ne hk rows

/-- Selecting after a write. -/
theorem lookup_upsert (row : α) (k : κ) (rows : List α) :
    lookup key k (upsert key row rows) = if k = key row then some row else lookup key k rows := by
  split_ifs with hk
  · rw [hk, lookup_upsert_self]
  · exact lookup_upsert_ne hk rows

/-- A write keeps the keys unique. -/
theorem Unique.upsert {rows : List α} (hu : Unique key rows) (row : α) :
    Unique key (upsert key row rows) := by
  unfold Keyed.upsert
  cases h : lookup key (key row) rows with
  | none => exact hu.append (lookup_eq_none.mp h)
  | some old => exact hu.put row

/-- A row of a table after a write is the written one or was there before under another key. -/
theorem mem_upsert {row r : α} {rows : List α} (h : r ∈ upsert key row rows) :
    (r ∈ rows ∧ key r ≠ key row) ∨ r = row := by
  unfold upsert at h
  cases hlookup : lookup key (key row) rows with
  | none =>
    rw [hlookup] at h
    rcases List.mem_append.mp h with h | h
    · exact Or.inl ⟨h, lookup_eq_none.mp hlookup r h⟩
    · exact Or.inr (List.mem_singleton.mp h)
  | some old =>
    rw [hlookup] at h
    exact mem_put h

/-- With unique keys, writing back a row that is there changes nothing. -/
theorem upsert_of_lookup {row : α} {rows : List α} (hu : Unique key rows)
    (h : lookup key (key row) rows = some row) : upsert key row rows = rows := by
  unfold upsert put modify
  rw [h]
  conv_rhs => rw [← List.map_id rows]
  refine List.map_congr_left fun r hr => ?_
  split_ifs with hk
  · exact hu.eq_of_key (lookup_mem h) hr hk.symm
  · rfl

/-- With unique keys, writing back rows that are there changes nothing. -/
theorem foldl_upsert_of_lookup {rows values : List α} (hu : Unique key rows)
    (h : ∀ value ∈ values, lookup key (key value) rows = some value) :
    values.foldl (fun rows row => upsert key row rows) rows = rows := by
  induction values with
  | nil => rfl
  | cons value values ih =>
    rw [List.foldl_cons, upsert_of_lookup hu (h value List.mem_cons_self)]
    exact ih fun other hother => h other (List.mem_cons_of_mem value hother)

/-- Writes keep the keys unique. -/
theorem Unique.foldl_upsert {rows : List α} (hu : Unique key rows) (values : List α) :
    Unique key (values.foldl (fun rows row => Keyed.upsert key row rows) rows) := by
  induction values generalizing rows with
  | nil => exact hu
  | cons value values ih => exact ih (hu.upsert value)

/-- Selecting after writes under different keys. A value that is written under the key is found, and
only where there is none the table decides. -/
theorem lookup_foldl_upsert {values : List α} (hu : Unique key values) (k : κ) (rows : List α) :
    lookup key k (values.foldl (fun rows row => upsert key row rows) rows) =
      (lookup key k values).or (lookup key k rows) := by
  -- The later values have other keys, so the lookup of the first value's key passes through them.
  induction values generalizing rows with
  | nil => rfl
  | cons value values ih =>
    obtain ⟨hnew, hvalues⟩ := List.nodup_cons.mp hu
    have hnone : lookup key (key value) values = none :=
      lookup_eq_none.mpr fun r hr heq => hnew (List.mem_map.mpr ⟨r, hr, heq⟩)
    have hcons : lookup key k (value :: values) =
        if key value = k then some value else lookup key k values := by
      unfold lookup
      rw [List.find?_cons]
      split_ifs with hk
      · rw [decide_eq_true hk]
      · rw [decide_eq_false hk]
    rw [List.foldl_cons, ih hvalues, lookup_upsert, hcons]
    by_cases hk : key value = k
    · subst hk
      rw [if_pos rfl, if_pos rfl, hnone, Option.none_or, Option.some_or]
    · rw [if_neg hk, if_neg (Ne.symm hk)]

/-- Writes under different keys that cover every row leave the written rows. -/
theorem mem_foldl_upsert {rows values : List α} (hrows : Unique key rows) (hu : Unique key values)
    (hcovered : ∀ r ∈ rows, ∃ value ∈ values, key value = key r) {r : α} :
    r ∈ values.foldl (fun rows row => upsert key row rows) rows ↔ r ∈ values := by
  have hlookup : r ∈ values.foldl (fun rows row => upsert key row rows) rows ↔
      lookup key (key r) (values.foldl (fun rows row => upsert key row rows) rows) = some r := by
    rw [(hrows.foldl_upsert values).lookup_eq_some, and_iff_left rfl]
  rw [hlookup, lookup_foldl_upsert hu]
  cases hvalue : lookup key (key r) values with
  | some value =>
    rw [Option.some_or, ← hvalue, hu.lookup_eq_some, and_iff_left rfl]
  | none =>
    rw [Option.none_or]
    have hnone := lookup_eq_none.mp hvalue
    refine ⟨fun hr => ?_, fun hr => absurd rfl (hnone r hr)⟩
    obtain ⟨value, hmem, hkey⟩ := hcovered r (lookup_mem hr)
    exact absurd hkey (hnone value hmem)

/-! ## Sums -/

variable [AddCommMonoid μ] {w : α → μ} {w' : β → μ}

/-- The sum over a table is the sum over its keys, and over any more keys. Taking the sum over keys
makes two tables comparable that hold their rows in different orders. -/
theorem Unique.sum_eq_sum_keys {rows : List α} (hu : Unique key rows) {s : Finset κ}
    (hs : ∀ r ∈ rows, key r ∈ s) :
    (rows.map w).sum = ∑ k ∈ s, (lookup key k rows).elim 0 w := by
  induction rows with
  | nil => exact (Finset.sum_eq_zero fun k _ => rfl).symm
  | cons r rows ih =>
    obtain ⟨hnew, hrows⟩ := List.nodup_cons.mp hu
    have hnone : lookup key (key r) rows = none :=
      lookup_eq_none.mpr fun r' hr' heq => hnew (List.mem_map.mpr ⟨r', hr', heq⟩)
    -- The first row counts under its own key, where the rest has none.
    have hsplit : ∀ k, (lookup key k (r :: rows)).elim 0 w =
        (if key r = k then w r else 0) + (lookup key k rows).elim 0 w := by
      intro k
      unfold lookup at hnone ⊢
      rw [List.find?_cons]
      split_ifs with hk
      · subst hk
        rw [decide_eq_true rfl, hnone]
        exact (add_zero _).symm
      · rw [decide_eq_false hk, zero_add]
    rw [List.map_cons, List.sum_cons, ih hrows fun r' hr' => hs r' (List.mem_cons_of_mem r hr'),
      Finset.sum_congr rfl fun k _ => hsplit k, Finset.sum_add_distrib, Finset.sum_ite_eq,
      if_pos (hs r List.mem_cons_self)]

/-- Two tables with the same weight under each key have the same sum. -/
theorem Unique.sum_eq {rows : List α} {rows' : List β} (hu : Unique key rows)
    (hu' : Unique key' rows')
    (h : ∀ k, (lookup key k rows).elim 0 w = (lookup key' k rows').elim 0 w') :
    (rows.map w).sum = (rows'.map w').sum := by
  set s := (rows.map key ++ rows'.map key').toFinset
  have hs : ∀ r ∈ rows, key r ∈ s := fun r hr =>
    List.mem_toFinset.mpr (List.mem_append_left _ (List.mem_map_of_mem hr))
  have hs' : ∀ r ∈ rows', key' r ∈ s := fun r hr =>
    List.mem_toFinset.mpr (List.mem_append_right _ (List.mem_map_of_mem hr))
  rw [hu.sum_eq_sum_keys hs, hu'.sum_eq_sum_keys hs']
  exact Finset.sum_congr rfl fun k _ => h k

/-- A write adds the weight of the new row and takes away that of the old one. Both sides have two
summands, so nothing is subtracted: a missing old row weighs nothing. -/
theorem sum_upsert {rows : List α} (hu : Unique key rows) (row : α) :
    ((upsert key row rows).map w).sum + (lookup key (key row) rows).elim 0 w =
      (rows.map w).sum + w row := by
  -- Both sums run over the keys of the table and the key of the new row, and differ in that key
  -- alone.
  set s := (row :: rows).map key |>.toFinset
  have hself : key row ∈ s := List.mem_toFinset.mpr (List.mem_map_of_mem List.mem_cons_self)
  have hs : ∀ r ∈ rows, key r ∈ s := fun r hr =>
    List.mem_toFinset.mpr (List.mem_map_of_mem (List.mem_cons_of_mem row hr))
  have hs' : ∀ r ∈ upsert key row rows, key r ∈ s := by
    intro r hr
    rcases mem_upsert hr with ⟨hr, -⟩ | rfl
    · exact hs r hr
    · exact hself
  rw [(hu.upsert row).sum_eq_sum_keys hs', hu.sum_eq_sum_keys hs, ← Finset.add_sum_erase s _ hself,
    ← Finset.add_sum_erase s (fun k => (lookup key k rows).elim 0 w) hself, lookup_upsert_self]
  have hrest : ∑ k ∈ s.erase (key row), (lookup key k (upsert key row rows)).elim 0 w =
      ∑ k ∈ s.erase (key row), (lookup key k rows).elim 0 w :=
    Finset.sum_congr rfl fun k hk => by rw [lookup_upsert_ne (Finset.ne_of_mem_erase hk)]
  rw [hrest]
  show w row + _ + _ = _ + _ + w row
  ac_rfl

/-- The sums of groups add up to the sum of the rows, where the groups have different keys and every row
is in one. -/
theorem sum_groups {keys : List κ} (hkeys : keys.Nodup) {rows : List α} (h : ∀ r ∈ rows, key r ∈ keys)
    (w : α → μ) : (keys.map fun k => ((rows.filter fun r => key r = k).map w).sum).sum =
      (rows.map w).sum := by
  rw [← List.sum_toFinset _ hkeys]
  induction rows with
  | nil => exact Finset.sum_const_zero
  | cons r rows ih =>
    have hsplit : ∀ k, (((r :: rows).filter fun r => key r = k).map w).sum =
        (if key r = k then w r else 0) + ((rows.filter fun r => key r = k).map w).sum := by
      intro k
      by_cases hk : key r = k
      · rw [List.filter_cons_of_pos (by simpa using hk), if_pos hk, List.map_cons, List.sum_cons]
      · rw [List.filter_cons_of_neg (by simpa using hk), if_neg hk, zero_add]
    rw [Finset.sum_congr rfl fun k _ => hsplit k, Finset.sum_add_distrib, Finset.sum_ite_eq,
      if_pos (List.mem_toFinset.mpr (h r List.mem_cons_self)),
      ih fun r hr => h r (List.mem_cons_of_mem _ hr), List.map_cons, List.sum_cons]

end Keyed
