import Mathlib.Data.List.Basic
import Mathlib.Data.List.Nodup

/-!
# Tables of keyed rows

A database table is the list of its rows in order of insertion, with a function `key` that reads a
row's primary key. The operations are the statements a program sends: `lookup` selects the row with
a key, `modify` updates it, `put` writes a whole row back under its key, and an insertion appends.
Where the keys are `Unique`, a row is in the table exactly if `lookup` finds it under its key, so
facts about a table can be stated row by row, and the frame of each operation is a fact about
`lookup`.
-/

namespace Keyed

variable {α κ : Type*} [DecidableEq κ] (key : α → κ)

/-- The first row with the key `k`, if any: `SELECT … WHERE key = k`. -/
def lookup (k : κ) (rows : List α) : Option α := rows.find? fun r => key r = k

/-- The rows with the one of key `k` changed by `f`: `UPDATE … WHERE key = k`. -/
def modify (k : κ) (f : α → α) (rows : List α) : List α :=
  rows.map fun r => if key r = k then f r else r

/-- The rows with `row` written over the one with its key. -/
def put (row : α) (rows : List α) : List α := modify key (key row) (fun _ => row) rows

/-- No two rows have the same key. It is what a primary key or a unique constraint of the table
ensures. -/
def Unique (rows : List α) : Prop := (rows.map key).Nodup

variable {key}

/-! ## Selecting a row -/

/-- A selected row is in the table. -/
theorem lookup_mem {k : κ} {rows : List α} {r : α} (h : lookup key k rows = some r) : r ∈ rows :=
  List.mem_of_find?_eq_some h

/-- A selected row has the key asked for. -/
theorem lookup_key {k : κ} {rows : List α} {r : α} (h : lookup key k rows = some r) :
    key r = k := by
  simpa using List.find?_some h

/-- Nothing is selected exactly if no row has the key. -/
theorem lookup_eq_none {k : κ} {rows : List α} :
    lookup key k rows = none ↔ ∀ r ∈ rows, key r ≠ k := by
  simp [lookup]

omit [DecidableEq κ] in
/-- Two rows of a table with unique keys that share their key are the same row. -/
theorem Unique.eq_of_key {rows : List α} (hu : Unique key rows) {r r' : α} (hr : r ∈ rows)
    (hr' : r' ∈ rows) (h : key r = key r') : r = r' :=
  List.inj_on_of_nodup_map hu hr hr' h

/-- With unique keys, a row is selected under a key exactly if it is in the table with that key. -/
theorem Unique.lookup_eq_some {rows : List α} (hu : Unique key rows) {k : κ} {r : α} :
    lookup key k rows = some r ↔ r ∈ rows ∧ key r = k := by
  constructor
  · exact fun h => ⟨lookup_mem h, lookup_key h⟩
  · rintro ⟨hr, hk⟩
    cases h : lookup key k rows with
    | none => exact absurd hk (lookup_eq_none.mp h r hr)
    | some r' =>
      have : r' = r := hu.eq_of_key (lookup_mem h) hr ((lookup_key h).trans hk.symm)
      rw [this]

/-- With unique keys, the rows with a key are the one that is selected. -/
theorem Unique.filter_eq {rows : List α} (hu : Unique key rows) {k : κ} :
    (rows.filter fun r => key r = k) = (lookup key k rows).toList := by
  induction rows with
  | nil => rfl
  | cons r rows ih =>
    have hrest := ih (List.nodup_cons.mp hu).2
    by_cases hk : key r = k
    · have hnone : lookup key k rows = none := by
        refine lookup_eq_none.mpr fun r' hr' hk' => (List.nodup_cons.mp hu).1 ?_
        rw [hk, ← hk']
        exact List.mem_map_of_mem hr'
      rw [hnone] at hrest
      rw [List.filter_cons_of_pos (by simpa using hk), hrest, lookup,
        List.find?_cons_of_pos (by simpa using hk)]
      rfl
    · rw [List.filter_cons_of_neg (by simpa using hk), hrest, lookup, lookup,
        List.find?_cons_of_neg (by simpa using hk)]

/-! ## Updating rows -/

omit [DecidableEq κ] in
/-- Updates that keep the key of every row keep the list of keys. -/
theorem map_key_map {f : α → α} {rows : List α} (hf : ∀ r ∈ rows, key (f r) = key r) :
    (rows.map f).map key = rows.map key := by
  rw [List.map_map]
  exact List.map_congr_left hf

omit [DecidableEq κ] in
/-- Updates that keep the key of every row keep the keys unique. -/
theorem Unique.map {rows : List α} (hu : Unique key rows) {f : α → α}
    (hf : ∀ r ∈ rows, key (f r) = key r) : Unique key (rows.map f) := by
  unfold Unique
  rwa [map_key_map hf]

/-- Selecting after an update of the whole table is updating the selected row. -/
theorem lookup_map {f : α → α} {rows : List α} (hf : ∀ r ∈ rows, key (f r) = key r) (k : κ) :
    lookup key k (rows.map f) = (lookup key k rows).map f := by
  induction rows with
  | nil => rfl
  | cons r rows ih =>
    have hr : key (f r) = key r := hf r List.mem_cons_self
    have hrest := ih fun r' hr' => hf r' (List.mem_cons_of_mem r hr')
    unfold lookup at hrest ⊢
    by_cases hk : key r = k
    · rw [List.map_cons, List.find?_cons_of_pos (by simpa [hr] using hk),
        List.find?_cons_of_pos (by simpa using hk), Option.map_some]
    · rw [List.map_cons, List.find?_cons_of_neg (by simpa [hr] using hk),
        List.find?_cons_of_neg (by simpa using hk), hrest]

/-- The update of one row keeps every key if it keeps that row's. -/
theorem key_ite {f : α → α} {k : κ} (hf : ∀ r, key r = k → key (f r) = k) (r : α) :
    key (if key r = k then f r else r) = key r := by
  split_ifs with h
  · rw [hf r h, h]
  · rfl

/-- An update of one row keeps the keys unique. -/
theorem Unique.modify {rows : List α} (hu : Unique key rows) {f : α → α} {k : κ}
    (hf : ∀ r, key r = k → key (f r) = k) : Unique key (modify key k f rows) :=
  hu.map fun r _ => key_ite hf r

/-- Selecting the updated row. -/
theorem lookup_modify_self {f : α → α} {k : κ} (hf : ∀ r, key r = k → key (f r) = k)
    (rows : List α) : lookup key k (modify key k f rows) = (lookup key k rows).map f := by
  unfold modify
  rw [lookup_map fun r _ => key_ite hf r]
  cases h : lookup key k rows with
  | none => rfl
  | some r => simp [lookup_key h]

/-- Selecting another row than the updated one. -/
theorem lookup_modify_ne {f : α → α} {k k' : κ} (hf : ∀ r, key r = k → key (f r) = k)
    (hk : k' ≠ k) (rows : List α) : lookup key k' (modify key k f rows) = lookup key k' rows := by
  unfold modify
  rw [lookup_map fun r _ => key_ite hf r]
  cases h : lookup key k' rows with
  | none => rfl
  | some r => simp [(lookup_key h).trans_ne hk]

/-- Updating a row changes the number of rows with a property by what it does to that row. Stated
with both counts on each side, so that no subtraction of natural numbers is needed. -/
theorem countP_modify {rows : List α} (hu : Unique key rows) {a : α} (ha : a ∈ rows)
    (f : α → α) (p : α → Bool) :
    (modify key (key a) f rows).countP p + (p a).toNat = rows.countP p + (p (f a)).toNat := by
  -- On the first row with the key the count moves; on any other row the induction goes on.
  induction rows with
  | nil => simp at ha
  | cons r rows ih =>
    obtain ⟨hr, hrows⟩ := List.nodup_cons.mp hu
    by_cases hk : key r = key a
    · have hra : a = r := hu.eq_of_key ha List.mem_cons_self hk.symm
      subst hra
      -- The keys are unique, so the rest of the table is not touched.
      have hrest : rows.map (fun x => if key x = key a then f x else x) = rows := by
        conv_rhs => rw [← List.map_id rows]
        refine List.map_congr_left fun x hx => if_neg fun hxa => hr ?_
        exact List.mem_map.mpr ⟨x, hx, hxa⟩
      simp only [modify, List.map_cons, if_true, hrest, List.countP_cons]
      cases p a <;> cases p (f a) <;> simp
    · have hmem : a ∈ rows := by
        rcases List.mem_cons.mp ha with rfl | h
        · exact absurd rfl hk
        · exact h
      have hih := ih hrows hmem
      simp only [modify, List.map_cons, if_neg hk, List.countP_cons] at hih ⊢
      omega

/-- Among the rows of one key, which is at most one, a property is counted once or not at all. -/
theorem countP_key {rows : List α} (hu : Unique key rows) {a : α} (ha : a ∈ rows) (p : α → Bool) :
    rows.countP (fun r => key r = key a && p r) = (p a).toNat := by
  induction rows with
  | nil => simp at ha
  | cons r rows ih =>
    obtain ⟨hr, hrows⟩ := List.nodup_cons.mp hu
    rw [List.countP_cons]
    rcases List.mem_cons.mp ha with rfl | hmem
    · have hrest : rows.countP (fun x => key x = key a && p x) = 0 := by
        rw [List.countP_eq_zero]
        intro x hx
        have hne : key x ≠ key a := fun hxa => hr (List.mem_map.mpr ⟨x, hx, hxa⟩)
        simp [hne]
      rw [hrest]
      cases p a <;> simp
    · have hne : key r ≠ key a := fun hra => hr (List.mem_map.mpr ⟨a, hmem, hra.symm⟩)
      simp [ih hrows hmem, hne]

/-- The only row with the key of a row is that row. -/
theorem filter_key {rows : List α} (hu : Unique key rows) {a : α} (ha : a ∈ rows) :
    rows.filter (fun r => key r = key a) = [a] := by
  induction rows with
  | nil => simp at ha
  | cons r rows ih =>
    obtain ⟨hr, hrows⟩ := List.nodup_cons.mp hu
    rcases List.mem_cons.mp ha with rfl | hmem
    · rw [List.filter_cons_of_pos (by simp), List.filter_eq_nil_iff.mpr]
      intro x hx hxa
      exact hr (List.mem_map.mpr ⟨x, hx, of_decide_eq_true hxa⟩)
    · rw [List.filter_cons_of_neg, ih hrows hmem]
      intro hra
      exact hr (List.mem_map.mpr ⟨a, hmem, (of_decide_eq_true hra).symm⟩)

/-- A row of an updated table is the update of the row it was. -/
theorem mem_modify {f : α → α} {k : κ} {rows : List α} {r : α} (h : r ∈ modify key k f rows) :
    (r ∈ rows ∧ key r ≠ k) ∨ ∃ r' ∈ rows, key r' = k ∧ r = f r' := by
  obtain ⟨r', hr', rfl⟩ := List.mem_map.mp h
  by_cases hk : key r' = k
  · exact Or.inr ⟨r', hr', hk, by simp [hk]⟩
  · exact Or.inl ⟨by simpa [hk] using hr', by simp [hk]⟩

/-- A row of a table after a write is the written row or was there before. -/
theorem mem_put {row : α} {rows : List α} {r : α} (h : r ∈ put key row rows) :
    (r ∈ rows ∧ key r ≠ key row) ∨ r = row := by
  rcases mem_modify h with h | ⟨-, -, -, h⟩
  · exact Or.inl h
  · exact Or.inr h

/-- A write keeps the keys unique. -/
theorem Unique.put {rows : List α} (hu : Unique key rows) (row : α) :
    Unique key (put key row rows) :=
  hu.modify fun _ _ => rfl

/-- A write keeps the keys. -/
theorem keys_put (row : α) (rows : List α) : (put key row rows).map key = rows.map key := by
  unfold put modify
  rw [List.map_map]
  exact List.map_congr_left fun r _ => key_ite (fun _ _ => rfl) r

/-- Selecting the written row, where the table has a row with its key. -/
theorem lookup_put_self {row r : α} {rows : List α} (h : lookup key (key row) rows = some r) :
    lookup key (key row) (put key row rows) = some row := by
  unfold put
  rw [lookup_modify_self fun _ _ => rfl, h, Option.map_some]

/-- Selecting another row than the written one. -/
theorem lookup_put_ne {row : α} {k : κ} (hk : k ≠ key row) (rows : List α) :
    lookup key k (put key row rows) = lookup key k rows :=
  lookup_modify_ne (fun _ _ => rfl) hk rows

/-- What a selection shows stays as it is under a write that it shows as it showed the row before.
So a listing has not changed where a write is of a row that the listing shows in the same way, or
does not show before and after. -/
theorem map_filter_put {β : Type*} {rows : List α} (hu : Unique key rows) {row before : α}
    (hbefore : lookup key (key row) rows = some before) {p : α → Bool} {f : α → β}
    (hp : p row = p before) (hf : p before = true → f row = f before) :
    ((put key row rows).filter p).map f = (rows.filter p).map f := by
  have hsame : ∀ r ∈ rows, key r = key row → r = before := fun r hr hkey =>
    hu.eq_of_key hr (lookup_mem hbefore) (hkey.trans (lookup_key hbefore).symm)
  unfold put modify
  rw [List.filter_map, List.map_map]
  -- The condition selects the same rows, for the written row meets it exactly if the old one did.
  have hfilter : rows.filter (p ∘ fun r => if key r = key row then row else r) = rows.filter p := by
    refine List.filter_congr fun r hr => ?_
    rw [Function.comp_apply]
    split_ifs with hkey
    · rw [hp, hsame r hr hkey]
    · rfl
  rw [hfilter]
  -- And what is shown of a selected row is the same, be it the written one or not.
  refine List.map_congr_left fun r hr => ?_
  obtain ⟨hmem, hpr⟩ := List.mem_filter.mp hr
  rw [Function.comp_apply]
  split_ifs with hkey
  · rw [hsame r hmem hkey] at hpr ⊢
    exact hf hpr
  · rfl

/-- A write keeps another key unique if no other row has that key of the written one. This is how a
unique index on a second column, checked before the write, stays unique. -/
theorem unique_put_of_free {μ : Type*} {other : α → μ} {rows : List α} (hu : Unique key rows)
    (hother : Unique other rows) {row : α}
    (hfree : ∀ r ∈ rows, key r ≠ key row → other r ≠ other row) : Unique other (put key row rows) := by
  induction rows with
  | nil => exact hother
  | cons r rest ih =>
    obtain ⟨hr, hrest⟩ := List.nodup_cons.mp hother
    obtain ⟨hkey, hurest⟩ := List.nodup_cons.mp hu
    have htail := ih hurest hrest fun r' hr' => hfree r' (List.mem_cons_of_mem r hr')
    have hput : put key row (r :: rest) = (if key r = key row then row else r) :: put key row rest :=
      rfl
    rw [hput]
    -- A later row with the same other key is either an old row or the written one.
    refine List.nodup_cons.mpr ⟨fun hmem => ?_, htail⟩
    obtain ⟨r', hr', heq⟩ := List.mem_map.mp hmem
    rcases mem_put hr' with ⟨hin, hne⟩ | rfl
    · split_ifs at heq with hsame
      · exact hfree r' (List.mem_cons_of_mem r hin) hne heq
      · exact hr (List.mem_map.mpr ⟨r', hin, heq⟩)
    · split_ifs at heq with hsame
      · -- The first row is the written one, so no row of the rest has been written over it.
        have hkeys : key r' ∈ (put key r' rest).map key := List.mem_map_of_mem hr'
        rw [keys_put, ← hsame] at hkeys
        exact hkey hkeys
      · exact hfree r List.mem_cons_self hsame heq.symm

/-! ## Inserting a row -/

omit [DecidableEq κ] in
/-- Removing rows keeps the keys unique. -/
theorem Unique.filter {rows : List α} (hu : Unique key rows) (p : α → Bool) :
    Unique key (rows.filter p) :=
  hu.sublist ((List.filter_sublist).map key)

/-- No row has a key that is removed. -/
theorem lookup_remove_self (k : κ) (rows : List α) :
    lookup key k (rows.filter fun row => key row ≠ k) = none := by
  refine lookup_eq_none.mpr fun row hrow => ?_
  simpa using (List.mem_filter.mp hrow).2

/-- Removing a key leaves the rows of the others. No row of another key is filtered out. -/
theorem lookup_remove_ne {k k' : κ} (hk : k' ≠ k) (rows : List α) :
    lookup key k' (rows.filter fun row => key row ≠ k) = lookup key k' rows := by
  unfold lookup
  rw [List.find?_filter]
  congr 1
  funext row
  by_cases h : key row = k'
  · simp [h, hk]
  · simp [h]

/-- Selecting from a table with a row appended. -/
theorem lookup_append (k : κ) (rows : List α) (row : α) :
    lookup key k (rows ++ [row]) =
      (lookup key k rows).or (if key row = k then some row else none) := by
  unfold lookup
  rw [List.find?_append]
  split_ifs with h <;> simp [h]

omit [DecidableEq κ] in
/-- An inserted row with a fresh key keeps the keys unique. -/
theorem Unique.append {rows : List α} (hu : Unique key rows) {row : α}
    (hfresh : ∀ r ∈ rows, key r ≠ key row) : Unique key (rows ++ [row]) := by
  unfold Unique
  rw [List.map_append, List.map_singleton, List.nodup_append]
  refine ⟨hu, by simp, ?_⟩
  simp only [List.mem_map, List.mem_singleton]
  rintro k ⟨r, hr, rfl⟩ k' rfl
  exact hfresh r hr

/-- Writing over the row that has just been inserted. -/
theorem put_append {rows : List α} {row row' : α} (hkey : key row = key row')
    (hfresh : ∀ r ∈ rows, key r ≠ key row') : put key row' (rows ++ [row]) = rows ++ [row'] := by
  unfold put modify
  rw [List.map_append, List.map_singleton, if_pos hkey]
  congr 1
  conv_rhs => rw [← List.map_id rows]
  exact List.map_congr_left fun r hr => if_neg (hfresh r hr)

end Keyed
