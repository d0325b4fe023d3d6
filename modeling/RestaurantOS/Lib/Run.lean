import Mathlib.Data.List.Basic
import Mathlib.Data.List.Infix
import Mathlib.Order.Basic

/-!
# Runs of a transition function

A system is given by a transition function `step : σ → α → σ` on a state type `σ` and a type `α`
of actions; an action that is not enabled leaves the state as it is. A run is the fold of `step`
over a list of actions, so a statement about every reachable state is a statement about every list
of actions. The rules below are the ones a verification of such a system uses: an invariant of the
step is an invariant of the run (`run_invariant`), a preorder that each step respects relates the
two ends of a run (`run_related`), and a fact that holds at the end of a run but not at its start
became true in one of its steps (`run_origin`).
-/

namespace Transition

variable {σ α β : Type*} (step : σ → α → σ)

/-- The state in which the run of `acts` from `s` ends. -/
def run (s : σ) (acts : List α) : σ := acts.foldl step s

/-- A run without actions stays where it is. -/
@[simp] theorem run_nil (s : σ) : run step s [] = s := rfl

/-- The first action is the first step. -/
@[simp] theorem run_cons (s : σ) (a : α) (acts : List α) :
    run step s (a :: acts) = run step (step s a) acts := rfl

/-- A run of two lists of actions is the second run from the end of the first. -/
theorem run_append (s : σ) (as bs : List α) :
    run step s (as ++ bs) = run step (run step s as) bs := List.foldl_append ..

/-- The last action of a run is one step from the state the others reach. -/
theorem run_concat (s : σ) (as : List α) (a : α) :
    run step s (as ++ [a]) = step (run step s as) a := by
  rw [run_append, run_cons, run_nil]

variable {step}

/-- What holds at the start and is kept by each step holds at the end of every run. -/
theorem run_invariant {Inv : σ → Prop} (hstep : ∀ s a, Inv s → Inv (step s a)) {s : σ}
    (hs : Inv s) (acts : List α) : Inv (run step s acts) := by
  induction acts generalizing s with
  | nil => exact hs
  | cons a acts ih => exact ih (hstep s a hs)

/-- What holds at the start and is kept by each step that meets a condition holds at the end of every
run whose steps meet it. -/
theorem run_invariant_of {Inv : σ → Prop} {Ok : σ → α → Prop}
    (hstep : ∀ s a, Ok s a → Inv s → Inv (step s a)) {s : σ} (hs : Inv s) (acts : List α)
    (hok : ∀ pre a, pre ++ [a] <+: acts → Ok (run step s pre) a) : Inv (run step s acts) := by
  induction acts generalizing s with
  | nil => exact hs
  | cons a acts ih =>
    refine ih (hstep s a (hok [] a ⟨acts, rfl⟩) hs) fun pre b hpre => ?_
    exact hok (a :: pre) b (List.cons_prefix_cons.mpr ⟨rfl, hpre⟩)

/-- The two ends of a run are related by every preorder that relates the two ends of a step, where
the steps may be assumed to start in a state with the invariant. -/
theorem run_related {Inv : σ → Prop} {R : σ → σ → Prop} (hrefl : ∀ s, R s s)
    (htrans : ∀ s t u, R s t → R t u → R s u) (hinv : ∀ s a, Inv s → Inv (step s a))
    (hstep : ∀ s a, Inv s → R s (step s a)) {s : σ} (hs : Inv s) (acts : List α) :
    R s (run step s acts) := by
  induction acts generalizing s with
  | nil => exact hrefl s
  | cons a acts ih => exact htrans _ _ _ (hstep s a hs) (ih (hinv s a hs))

/-- A rank that no step raises, and that some steps lower as long as it is positive, is lowered by
each of these in a run. It is how a bounded number of steps is shown to bring something to its end,
whatever other steps come between them. -/
theorem run_rank {Inv : σ → Prop} {rank : σ → ℕ} {lowers : α → Bool}
    (hinv : ∀ s a, Inv s → Inv (step s a)) (hle : ∀ s a, Inv s → rank (step s a) ≤ rank s)
    (hlt : ∀ s a, Inv s → lowers a = true → rank s ≠ 0 → rank (step s a) < rank s) {s : σ}
    (hs : Inv s) (acts : List α) : rank (run step s acts) ≤ rank s - acts.countP lowers := by
  -- By induction on the run; the bound is that of the rest, from the state after the first step.
  induction acts generalizing s with
  | nil => exact le_rfl
  | cons a acts ih =>
    have hrest := ih (hinv s a hs)
    have hfirst := hle s a hs
    rw [run_cons]
    cases ha : lowers a with
    | true =>
      have hlower := hlt s a hs ha
      rw [List.countP_cons_of_pos ha]
      omega
    | false =>
      rw [List.countP_cons_of_neg (by rw [ha]; exact Bool.false_ne_true)]
      omega

/-- A fact `Q` at the end of a run either held at its start or has an origin: a state of the run,
reached by a non-empty part of it, in which `R` holds, `R` being what a step guarantees in its
end state when it makes `Q` true. -/
theorem run_origin {Inv : σ → Prop} {Q R : σ → β → Prop} (hinv : ∀ s a, Inv s → Inv (step s a))
    (hstep : ∀ s a x, Inv s → Q (step s a) x → Q s x ∨ R (step s a) x) {s : σ} (hs : Inv s)
    (acts : List α) (x : β) (h : Q (run step s acts) x) :
    Q s x ∨ ∃ pre, pre <+: acts ∧ pre ≠ [] ∧ R (run step s pre) x := by
  induction acts generalizing s with
  | nil => exact Or.inl h
  | cons a acts ih =>
    rcases ih (hinv s a hs) h with hQ | ⟨pre, hpre, -, hR⟩
    · rcases hstep s a x hs hQ with hQ | hR
      · exact Or.inl hQ
      · exact Or.inr ⟨[a], ⟨acts, rfl⟩, by simp, hR⟩
    · exact Or.inr ⟨a :: pre, List.cons_prefix_cons.mpr ⟨rfl, hpre⟩, by simp, hR⟩

end Transition
