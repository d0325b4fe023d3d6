import Mathlib.Data.List.Basic
import Mathlib.Logic.Function.Basic

/-!
# Exclusive locks

Processes, numbered by `ι`, hold locks on the resources of a type `κ`: `held i` lists the locks of
process `i`. The locks are exclusive when no resource is held by two processes. A process that takes
only free resources, or gives some back, keeps them exclusive (`Exclusive.update`), and what one
process changes under its locks is disjoint from what another has locked
(`Exclusive.disjoint`).
-/

namespace Locks

variable {ι κ : Type*} [DecidableEq ι]

/-- No resource is held by two processes. A process may hold a resource more than once. -/
def Exclusive (held : ι → List κ) : Prop := ∀ i j k, k ∈ held i → k ∈ held j → i = j

omit [DecidableEq ι] in
/-- Where nothing is held, the locks are exclusive. -/
theorem exclusive_nil : Exclusive fun _ : ι => ([] : List κ) := by
  intro i j k hk
  exact absurd hk List.not_mem_nil

/-- A process that holds afterwards only what it held before or what was free keeps the locks
exclusive. This is all that a step of a process has to show about its locks. -/
theorem Exclusive.update {held : ι → List κ} (h : Exclusive held) {i : ι} {locks : List κ}
    (hlocks : ∀ k ∈ locks, k ∈ held i ∨ ∀ j, k ∉ held j) :
    Exclusive (Function.update held i locks) := by
  -- A resource in the new locks of `i` is held by no other process.
  have hother : ∀ j k, j ≠ i → k ∈ locks → k ∉ held j := by
    intro j k hji hk hkj
    rcases hlocks k hk with hki | hfree
    · exact hji (h j i k hkj hki)
    · exact hfree j hkj
  -- Two holders of one resource: either, both or none of them can be the process that moves.
  intro a b k ha hb
  by_cases hai : a = i
  · by_cases hbi : b = i
    · rw [hai, hbi]
    · subst hai
      rw [Function.update_self] at ha
      rw [Function.update_of_ne hbi] at hb
      exact absurd hb (hother b k hbi ha)
  · rw [Function.update_of_ne hai] at ha
    by_cases hbi : b = i
    · subst hbi
      rw [Function.update_self] at hb
      exact absurd ha (hother a k hai hb)
    · rw [Function.update_of_ne hbi] at hb
      exact h a b k ha hb

omit [DecidableEq ι] in
/-- The locks of two processes are disjoint. -/
theorem Exclusive.disjoint {held : ι → List κ} (h : Exclusive held) {i j : ι} (hij : i ≠ j) :
    ∀ k ∈ held i, k ∉ held j :=
  fun k hi hj => hij (h i j k hi hj)

end Locks
