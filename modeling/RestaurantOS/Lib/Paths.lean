import Mathlib.Data.List.Destutter
import Mathlib.Data.List.Infix

/-!
# The path of an observed value

A value is observed after every action of a run, or is absent. It appears as `init`, each action
leaves it as it is or moves it along a relation `R`, and once it has disappeared it does not come
back. Then the different values that it takes, one after the other, are a path of `R` from `init`
(`Observed.path`). -/

namespace Paths

variable {α β : Type*}

/-- The values observed along a run, one for each of its states in which there is one. -/
def observed (obs : List α → Option β) (acts : List α) : List β := acts.inits.filterMap obs

variable {obs : List α → Option β} {R : β → β → Prop} {init : β}

/-- The values along a run that is one action longer. -/
theorem observed_concat (acts : List α) (a : α) :
    observed obs (acts ++ [a]) = observed obs acts ++ (obs (acts ++ [a])).toList := by
  unfold observed
  rw [List.inits_append, List.filterMap_append]
  rfl

/-- What a single action does to the observed value. -/
structure Observed (obs : List α → Option β) (R : β → β → Prop) (init : β) : Prop where
  /-- The value appears as `init`. -/
  appears : ∀ acts a s, obs acts = none → obs (acts ++ [a]) = some s → s = init
  /-- There is no other value at the start. -/
  start : ∀ s, obs [] = some s → s = init
  /-- An action keeps the value or moves it. -/
  moves : ∀ acts a s t, obs acts = some s → obs (acts ++ [a]) = some t → s = t ∨ R s t
  /-- A value that has been there and is gone does not come back. -/
  gone : ∀ acts a, observed obs acts ≠ [] → obs acts = none → obs (acts ++ [a]) = none

/-- The observed values start with `init` and move along `R`, and the last of them is the current
one. The invariant says what is observed at first, that a change is a move, and that what is gone
does not come back. -/
theorem Observed.chain (h : Observed obs R init) (acts : List α) :
    (observed obs acts).IsChain (fun s t => s = t ∨ R s t) ∧
      (∀ s ∈ (observed obs acts).head?, s = init) ∧
      ∀ s, obs acts = some s → (observed obs acts).getLast? = some s := by
  induction acts using List.reverseRecOn with
  | nil =>
    have hnil : observed obs [] = (obs []).toList := by
      cases hobs : obs [] <;> simp [observed, hobs]
    rw [hnil]
    cases hobs : obs [] with
    | none => simp
    | some s => simp [h.start s hobs]
  | append_singleton acts a ih =>
    obtain ⟨hchain, hhead, hlast⟩ := ih
    rw [observed_concat]
    cases hobs : obs (acts ++ [a]) with
    | none => simpa using ⟨hchain, hhead⟩
    -- A value is observed: it moves from the last one, if there is one, and starts the list
    -- otherwise.
    | some t =>
      refine ⟨?_, ?_, by simp⟩
      · refine hchain.append (List.isChain_singleton t) fun s hs t' ht' => ?_
        obtain rfl : t = t' := by simpa using ht'
        cases hold : obs acts with
        | some s' =>
          obtain rfl := Option.some.inj ((hlast s' hold).symm.trans hs)
          exact h.moves acts a s' t hold hobs
        | none =>
          -- The value has been there before, so it cannot be there now.
          have hne : observed obs acts ≠ [] := by
            intro hnil
            simp [hnil] at hs
          rw [h.gone acts a hne hold] at hobs
          cases hobs
      · -- The head stays what it was; a value that is observed for the first time is the initial
        -- one.
        cases hobserved : observed obs acts with
        | cons s rest =>
          rw [hobserved] at hhead
          simpa using hhead
        | nil =>
          cases hold : obs acts with
          | some s => simp [hobserved] at hlast; exact absurd hold (hlast s)
          | none => simpa using h.appears acts a t hold hobs

variable [DecidableEq β]

/-- Leaving out repetitions keeps the first value and the moves. -/
theorem isChain_destutter' {s : β} {values : List β}
    (h : (s :: values).IsChain fun s t => s = t ∨ R s t) :
    (values.destutter' (· ≠ ·) s).IsChain R ∧ (values.destutter' (· ≠ ·) s).head? = some s := by
  induction values generalizing s with
  | nil => exact ⟨List.isChain_singleton s, rfl⟩
  | cons t values ih =>
    rw [List.isChain_cons_cons] at h
    obtain ⟨hmove, hrest⟩ := h
    by_cases hst : s = t
    · subst hst
      rw [List.destutter'_cons_neg _ (not_not.mpr rfl)]
      exact ih hrest
    · rw [List.destutter'_cons_pos _ hst]
      obtain ⟨hchain, hhead⟩ := ih hrest
      refine ⟨?_, rfl⟩
      refine List.isChain_cons.mpr ⟨fun t' ht' => ?_, hchain⟩
      obtain rfl := Option.some.inj (hhead.symm.trans ht')
      exact hmove.resolve_left hst

/-- The different values, one after the other, are a path from `init`. -/
theorem Observed.path (h : Observed obs R init) (acts : List α) :
    ((observed obs acts).destutter (· ≠ ·)).IsChain R ∧
      ∀ s ∈ ((observed obs acts).destutter (· ≠ ·)).head?, s = init := by
  obtain ⟨hchain, hhead, -⟩ := h.chain acts
  cases hobserved : observed obs acts with
  | nil => simp
  | cons s values =>
    rw [hobserved] at hchain hhead
    obtain ⟨hpath, hfirst⟩ := isChain_destutter' hchain
    rw [List.destutter_cons']
    refine ⟨hpath, fun t ht => ?_⟩
    rw [hfirst] at ht
    exact hhead t ht

end Paths
