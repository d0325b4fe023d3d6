import Mathlib.Algebra.BigOperators.Group.List.Basic
import Mathlib.Data.List.Basic

/-!
# Running balances

A ledger is a list of postings, the oldest first. Each carries the amount it adds, the balance
afterwards and its version, read by `delta`, `after` and `version`. The ledger is `Posted` if every
posting was made on the balance and the version that the one before it left, from zero. What an
auditor recomputes then agrees with what is stored: the balance is the sum of the amounts, the
version is the number of postings, and this holds of every part of the ledger (`Posted.take`).
-/

namespace Ledger

variable {α ν : Type*} [AddMonoid ν] (delta after : α → ν) (version : α → ℕ)

/-- The postings lead from nothing to a balance and a version. -/
inductive Posted : List α → ν → ℕ → Prop
  | nil : Posted [] 0 0
  | post {postings : List α} {balance : ν} {n : ℕ} (h : Posted postings balance n) (posting : α)
      (hafter : after posting = balance + delta posting) (hversion : version posting = n + 1) :
      Posted (postings ++ [posting]) (after posting) (version posting)

variable {delta after version} {postings : List α} {balance : ν} {n : ℕ}

/-- The version is the number of postings. -/
theorem Posted.version_eq (h : Posted delta after version postings balance n) :
    n = postings.length := by
  induction h with
  | nil => rfl
  | post h posting hafter hversion ih => rw [hversion, ih, List.length_append, List.length_singleton]

/-- The balance is the sum of the amounts. -/
theorem Posted.balance_eq (h : Posted delta after version postings balance n) :
    balance = (postings.map delta).sum := by
  induction h with
  | nil => rfl
  | post h posting hafter hversion ih =>
    rw [hafter, ih, List.map_append, List.sum_append, List.map_singleton, List.sum_singleton]

/-- The versions are `1` to `n`. -/
theorem Posted.versions (h : Posted delta after version postings balance n) :
    postings.map version = List.range' 1 n := by
  induction h with
  | nil => rfl
  | post h posting hafter hversion ih =>
    rw [List.map_append, ih, List.map_singleton, hversion, List.range'_1_concat, Nat.add_comm]

/-- The first postings of a ledger are a ledger, whose balance is the one its last posting left. -/
theorem Posted.take (h : Posted delta after version postings balance n) {i : ℕ} {posting : α}
    (hi : postings[i]? = some posting) :
    Posted delta after version (postings.take (i + 1)) (after posting) (version posting) := by
  induction h with
  | nil => simp at hi
  | @post earlier balance' n' h last hafter hversion ih =>
    rcases Nat.lt_or_ge i earlier.length with hlt | hge
    · rw [List.getElem?_append_left hlt] at hi
      rw [List.take_append_of_le_length hlt]
      exact ih hi
    · -- The posting is the last one, so nothing is cut off.
      have hlast : i = earlier.length ∧ last = posting := by
        rw [List.getElem?_append_right hge, List.getElem?_singleton] at hi
        split_ifs at hi with hzero
        exact ⟨by omega, Option.some.inj hi⟩
      obtain ⟨rfl, rfl⟩ := hlast
      rw [List.take_of_length_le (by simp)]
      exact .post h last hafter hversion

/-- Every posting leaves the sum of the amounts so far. -/
theorem Posted.after_eq (h : Posted delta after version postings balance n) {i : ℕ} {posting : α}
    (hi : postings[i]? = some posting) :
    after posting = ((postings.take (i + 1)).map delta).sum := (h.take hi).balance_eq

end Ledger
