import Mathlib.Algebra.BigOperators.Group.List.Basic
import Mathlib.Data.List.Dedup
import Mathlib.Data.List.Sort

/-!
# Amounts gathered by key

A list of keyed amounts is gathered into one total for each key, as with a dictionary whose entries
start at zero. The keys are listed once each, in order (`keys`), and summing an additive function of
the totals over the keys is summing it over the amounts (`sum_total`). -/

namespace Aggregate

variable {κ ν μ : Type*}

/-! ## Totals -/

section Totals

variable [DecidableEq κ] [AddMonoid ν]

/-- The sum of the amounts under a key. -/
def total (k : κ) (amounts : List (κ × ν)) : ν :=
  ((amounts.filter fun amount => amount.1 = k).map Prod.snd).sum

/-- Nothing adds up to nothing. -/
@[simp] theorem total_nil (k : κ) : total k ([] : List (κ × ν)) = 0 := rfl

/-- The total of a list that starts with an amount. -/
theorem total_cons (k : κ) (amount : κ × ν) (amounts : List (κ × ν)) :
    total k (amount :: amounts) = (if amount.1 = k then amount.2 else 0) + total k amounts := by
  unfold total
  split_ifs with h <;> simp [h]

/-- The totals of two lists add up. -/
theorem total_append (k : κ) (xs ys : List (κ × ν)) :
    total k (xs ++ ys) = total k xs + total k ys := by
  unfold total
  rw [List.filter_append, List.map_append, List.sum_append]

/-- The total of a flattened list is the sum of the totals. -/
theorem total_flatMap {α : Type*} (k : κ) (xs : List α) (f : α → List (κ × ν)) :
    total k (xs.flatMap f) = (xs.map fun x => total k (f x)).sum := by
  induction xs with
  | nil => rfl
  | cons x xs ih => rw [List.flatMap_cons, total_append, ih, List.map_cons, List.sum_cons]

end Totals

/-! ## Keys -/

section Keys

variable [LinearOrder κ]

/-- The keys of the amounts, in order and once each. -/
def keys (amounts : List (κ × ν)) : List κ :=
  (amounts.map Prod.fst).dedup.insertionSort (· ≤ ·)

/-- The listed keys are those that occur. -/
theorem mem_keys {k : κ} {amounts : List (κ × ν)} :
    k ∈ keys amounts ↔ ∃ amount ∈ amounts, amount.1 = k := by
  unfold keys
  rw [List.mem_insertionSort, List.mem_dedup, List.mem_map]

/-- Every key is listed once. -/
theorem nodup_keys (amounts : List (κ × ν)) : (keys amounts).Nodup :=
  (List.perm_insertionSort _ _).nodup_iff.mpr (List.nodup_dedup _)

variable [AddMonoid ν] [AddCommMonoid μ]

/-- Among keys without repetition, only its own contributes to the sum of an amount. -/
theorem sum_ite_key {ks : List κ} (hks : ks.Nodup) {k : κ} (hk : k ∈ ks) (f : κ → ν →+ μ) (a : ν) :
    (ks.map fun k' => f k' (if k = k' then a else 0)).sum = f k a := by
  induction ks with
  | nil => simp at hk
  | cons k' ks ih =>
    obtain ⟨hnew, hks⟩ := List.nodup_cons.mp hks
    rw [List.map_cons, List.sum_cons]
    rcases List.mem_cons.mp hk with rfl | hk
    · have hrest : ks.map (fun k' => f k' (if k = k' then a else 0)) = ks.map fun _ => 0 := by
        refine List.map_congr_left fun k' hk' => ?_
        have hne : k ≠ k' := fun heq => hnew (heq ▸ hk')
        rw [if_neg hne, map_zero]
      rw [hrest, if_pos rfl]
      simp
    · have hne : k ≠ k' := fun heq => hnew (heq ▸ hk)
      rw [if_neg hne, map_zero, zero_add, ih hks hk]

/-- Summing an additive function of the totals over the keys is summing it over the amounts. It is
the conservation law of an aggregation: nothing is lost and nothing is counted twice. -/
theorem sum_total (f : κ → ν →+ μ) (amounts : List (κ × ν)) :
    ((keys amounts).map fun k => f k (total k amounts)).sum =
      (amounts.map fun amount => f amount.1 amount.2).sum := by
  -- For any list of keys that covers the amounts, since the keys of a shorter list are others.
  suffices hgen : ∀ (ks : List κ), ks.Nodup → ∀ amounts : List (κ × ν),
      (∀ amount ∈ amounts, amount.1 ∈ ks) →
        (ks.map fun k => f k (total k amounts)).sum =
          (amounts.map fun amount => f amount.1 amount.2).sum from
    hgen _ (nodup_keys amounts) amounts fun amount h => mem_keys.mpr ⟨amount, h, rfl⟩
  intro ks hks amounts
  induction amounts with
  | nil => simp
  | cons amount amounts ih =>
    intro hmem
    -- The first amount counts once among the keys, for they are distinct.
    have hhead := sum_ite_key hks (hmem amount List.mem_cons_self) f amount.2
    have hrest := ih fun a ha => hmem a (List.mem_cons_of_mem amount ha)
    calc (ks.map fun k => f k (total k (amount :: amounts))).sum
        = (ks.map fun k => f k (if amount.1 = k then amount.2 else 0) +
            f k (total k amounts)).sum := by simp only [total_cons, map_add]
      _ = f amount.1 amount.2 + (amounts.map fun amount => f amount.1 amount.2).sum := by
          rw [List.sum_map_add, hhead, hrest]
      _ = _ := by rw [List.map_cons, List.sum_cons]

end Keys

end Aggregate
