import Mathlib.Data.List.Basic
import Mathlib.Data.List.Forall2

/-!
# Fallible computations

Rules for computations in `Except ε`: a computation that returns is taken apart bind by bind
(`bind_eq_ok`), guards included (`ensure_eq_ok`), and what a computation may fail with, or what holds
of its result, is put together the same way (`Fails`, `Returns`). A fold over a list that returns is
covered by an invariant (`foldlM_invariant`), and the results of a map are paired with their
arguments (`mapM_eq_ok`).
-/

namespace Fallible

universe u v

variable {ε : Type v} {α β : Type u}

/-- A guard: it fails with `e` unless `p` holds. -/
def ensure (p : Prop) [Decidable p] (e : ε) : Except ε Unit := if p then .ok () else .error e

/-! ## Returning -/

/-- A sequence of two computations returns exactly if both do. -/
theorem bind_eq_ok {x : Except ε α} {f : α → Except ε β} {b : β} :
    x >>= f = .ok b ↔ ∃ a, x = .ok a ∧ f a = .ok b := by
  cases x with
  | error e =>
    constructor
    · exact fun h => by cases h
    · rintro ⟨a, h, -⟩
      cases h
  | ok a =>
    constructor
    · exact fun h => ⟨a, rfl, h⟩
    · rintro ⟨a', h, hf⟩
      cases h
      exact hf

/-- A guard returns exactly if its condition holds. -/
@[simp] theorem ensure_eq_ok {p : Prop} [Decidable p] {e : ε} {u : Unit} :
    ensure p e = .ok u ↔ p := by
  unfold ensure
  split_ifs with h
  · simp [h]
  · simp [h]

/-- After a value the rest goes on. -/
theorem ok_bind {x : Except ε α} {a : α} (h : x = .ok a) (f : α → Except ε β) : x >>= f = f a := by
  rw [h]
  rfl

/-- After a guard that holds the rest goes on. -/
theorem ensure_bind {β : Type} {p : Prop} [Decidable p] {e : ε} (h : p) (f : Unit → Except ε β) :
    ensure p e >>= f = f () :=
  ok_bind (ensure_eq_ok.mpr h) f

/-- After a guard that does not hold nothing goes on. -/
theorem ensure_bind_error {β : Type} {p : Prop} [Decidable p] {e : ε} (h : ¬ p)
    (f : Unit → Except ε β) :
    ensure p e >>= f = .error e := by
  unfold ensure
  rw [if_neg h]
  rfl

/-- Returning a value. -/
@[simp] theorem pure_eq_ok {a b : α} : (pure a : Except ε α) = .ok b ↔ a = b := by
  constructor
  · exact fun h => by cases h; rfl
  · exact fun h => congrArg _ h

/-- A failure does not return. -/
@[simp] theorem throw_eq_ok {e : ε} {a : α} : (throw e : Except ε α) = .ok a ↔ False := by
  constructor
  · exact fun h => by cases h
  · exact False.elim

/-- A map over a list returns the results of its elements. -/
theorem mapM_eq_ok {f : α → Except ε β} {xs : List α} {ys : List β} :
    xs.mapM f = .ok ys ↔ List.Forall₂ (fun x y => f x = .ok y) xs ys := by
  induction xs generalizing ys with
  | nil =>
    rw [List.mapM_nil, pure_eq_ok, List.forall₂_nil_left_iff]
    exact eq_comm
  | cons x xs ih =>
    rw [List.mapM_cons, bind_eq_ok]
    constructor
    · rintro ⟨y, hy, h⟩
      obtain ⟨zs, hzs, h⟩ := bind_eq_ok.mp h
      obtain rfl := pure_eq_ok.mp h
      exact List.Forall₂.cons hy (ih.mp hzs)
    · intro h
      obtain ⟨y, zs, hy, hzs, rfl⟩ := List.forall₂_cons_left_iff.mp h
      exact ⟨y, hy, bind_eq_ok.mpr ⟨zs, ih.mpr hzs, rfl⟩⟩

/-- A map over a list returns if it returns on every element. -/
theorem exists_mapM {f : α → Except ε β} {xs : List α} (h : ∀ x ∈ xs, ∃ y, f x = .ok y) :
    ∃ ys, xs.mapM f = .ok ys := by
  induction xs with
  | nil => exact ⟨[], rfl⟩
  | cons x xs ih =>
    obtain ⟨y, hy⟩ := h x List.mem_cons_self
    obtain ⟨ys, hys⟩ := ih fun x' hx' => h x' (List.mem_cons_of_mem x hx')
    refine ⟨y :: ys, ?_⟩
    rw [List.mapM_cons, bind_eq_ok]
    exact ⟨y, hy, bind_eq_ok.mpr ⟨ys, hys, rfl⟩⟩

/-- An element of the first of two related lists is related to one of the second. -/
theorem exists_of_mem_left {R : α → β → Prop} {xs : List α} {ys : List β}
    (h : List.Forall₂ R xs ys) {x : α} (hx : x ∈ xs) : ∃ y ∈ ys, R x y := by
  induction h with
  | nil => simp at hx
  | cons hxy hrest ih =>
    rcases List.mem_cons.mp hx with rfl | hx
    · exact ⟨_, List.mem_cons_self, hxy⟩
    · obtain ⟨y, hy, hR⟩ := ih hx
      exact ⟨y, List.mem_cons_of_mem _ hy, hR⟩

/-- An element of the second of two related lists is related to one of the first. -/
theorem exists_of_mem_right {R : α → β → Prop} {xs : List α} {ys : List β}
    (h : List.Forall₂ R xs ys) {y : β} (hy : y ∈ ys) : ∃ x ∈ xs, R x y :=
  exists_of_mem_left h.flip hy

/-- Related elements with equal images. -/
theorem map_eq_of_forall₂ {γ : Type*} {R : α → β → Prop} {f : α → γ} {g : β → γ} {xs : List α}
    {ys : List β} (h : List.Forall₂ R xs ys) (hR : ∀ x y, R x y → g y = f x) :
    ys.map g = xs.map f := by
  induction h with
  | nil => rfl
  | cons hxy hrest ih => rw [List.map_cons, List.map_cons, hR _ _ hxy, ih]

/-- What holds before a fold and is kept by each of its steps that returns holds after it. The
invariant may speak of the elements that are done. The plain invariant is the case where `P` ignores
its first argument. -/
theorem foldlM_invariant {f : β → α → Except ε β} {xs : List α} {b b' : β}
    (P : List α → β → Prop) (h : xs.foldlM f b = .ok b') (hb : P [] b)
    (hstep : ∀ done x b b', x ∈ xs → done ++ [x] <+: xs → P done b → f b x = .ok b' →
      P (done ++ [x]) b') : P xs b' := by
  -- Generalized over the elements that are done, so that the induction can be on the rest.
  suffices hgen : ∀ (rest done : List α) (b : β), done ++ rest = xs → P done b →
      rest.foldlM f b = .ok b' → P xs b' from hgen xs [] b rfl hb h
  intro rest
  induction rest with
  | nil =>
    intro done b hxs hP hfold
    rw [List.foldlM_nil] at hfold
    obtain rfl := pure_eq_ok.mp hfold
    rw [List.append_nil] at hxs
    exact hxs ▸ hP
  | cons x rest ih =>
    intro done b hxs hP hfold
    rw [List.foldlM_cons] at hfold
    obtain ⟨c, hc, hfold⟩ := bind_eq_ok.mp hfold
    have hsplit : (done ++ [x]) ++ rest = xs := by rw [List.append_assoc]; exact hxs
    have hmem : x ∈ xs := hxs ▸ List.mem_append_right done List.mem_cons_self
    exact ih (done ++ [x]) c hsplit (hstep done x b c hmem ⟨rest, hsplit⟩ hP hc) hfold

/-! ## Failing -/

/-- The computation fails with nothing but what `E` allows. -/
def Fails (E : ε → Prop) (x : Except ε α) : Prop := ∀ e, x = .error e → E e

variable {E : ε → Prop}

/-- A value is no failure. -/
theorem fails_ok (a : α) : Fails E (.ok a) := fun _ h => by cases h

/-- What fails with nothing returns. -/
theorem exists_of_fails {x : Except ε α} (h : Fails (fun _ => False) x) : ∃ a, x = .ok a := by
  cases x with
  | error e => exact (h e rfl).elim
  | ok a => exact ⟨a, rfl⟩

/-- Returning is no failure. -/
theorem fails_pure (a : α) : Fails E (pure a : Except ε α) := fails_ok a

/-- A failure that is allowed. -/
theorem fails_throw {e : ε} (he : E e) : Fails E (throw e : Except ε α) := by
  intro e' h
  cases h
  exact he

/-- A guard fails with what it names. -/
theorem fails_ensure {p : Prop} [Decidable p] {e : ε} (he : ¬ p → E e) : Fails E (ensure p e) := by
  intro e' h
  unfold ensure at h
  split_ifs at h with hp
  cases h
  exact he hp

/-- A sequence fails with what one of its parts fails with. -/
theorem fails_bind {x : Except ε α} {f : α → Except ε β} (hx : Fails E x)
    (hf : ∀ a, x = .ok a → Fails E (f a)) : Fails E (x >>= f) := by
  intro e h
  cases x with
  | error e' => exact hx e (by cases h; rfl)
  | ok a => exact hf a rfl e h

/-- A sequence fails with what its first part cannot fail with exactly if its second part does. -/
theorem bind_eq_error {x : Except ε α} {f : α → Except ε β} {e : ε} (hx : Fails E x) (he : ¬ E e) :
    x >>= f = .error e ↔ ∃ a, x = .ok a ∧ f a = .error e := by
  cases x with
  | error e' =>
    constructor
    · intro h
      have heq : e' = e := Except.error.inj h
      exact absurd (heq ▸ hx e' rfl) he
    · rintro ⟨a, h, -⟩
      cases h
  | ok a =>
    constructor
    · exact fun h => ⟨a, rfl, h⟩
    · rintro ⟨a', h, hf⟩
      cases h
      exact hf

/-- A map over a list fails with what its elements fail with. -/
theorem fails_mapM {f : α → Except ε β} {xs : List α} (hf : ∀ x ∈ xs, Fails E (f x)) :
    Fails E (xs.mapM f) := by
  induction xs with
  | nil => exact fails_pure _
  | cons x xs ih =>
    rw [List.mapM_cons]
    refine fails_bind (hf x List.mem_cons_self) fun y _ => ?_
    exact fails_bind (ih fun x' hx' => hf x' (List.mem_cons_of_mem x hx')) fun _ _ => fails_pure _

/-- A fold fails with what its steps fail with, in the states its invariant allows. -/
theorem fails_foldlM {f : β → α → Except ε β} {xs : List α} {b : β} (P : List α → β → Prop)
    (hb : P [] b)
    (hstep : ∀ done x b b', x ∈ xs → done ++ [x] <+: xs → P done b → f b x = .ok b' →
      P (done ++ [x]) b')
    (hf : ∀ done x b, x ∈ xs → done ++ [x] <+: xs → P done b → Fails E (f b x)) :
    Fails E (xs.foldlM f b) := by
  suffices hgen : ∀ (rest done : List α) (b : β), done ++ rest = xs → P done b →
      Fails E (rest.foldlM f b) from hgen xs [] b rfl hb
  intro rest
  induction rest with
  | nil => exact fun done b _ _ => fails_pure b
  | cons x rest ih =>
    intro done b hxs hP
    rw [List.foldlM_cons]
    have hsplit : (done ++ [x]) ++ rest = xs := by rw [List.append_assoc]; exact hxs
    have hmem : x ∈ xs := hxs ▸ List.mem_append_right done List.mem_cons_self
    refine fails_bind (hf done x b hmem ⟨rest, hsplit⟩ hP) fun c hc => ?_
    exact ih (done ++ [x]) c hsplit (hstep done x b c hmem ⟨rest, hsplit⟩ hP hc)

/-! ## What holds of a result -/

/-- Whatever the computation returns has the property `P`. -/
def Returns (P : α → Prop) (x : Except ε α) : Prop := ∀ a, x = .ok a → P a

/-- Returning a value. -/
theorem returns_pure {P : α → Prop} {a : α} (h : P a) : Returns P (pure a : Except ε α) :=
  fun _ ha => pure_eq_ok.mp ha ▸ h

/-- A failure returns nothing. -/
theorem returns_throw {P : α → Prop} {e : ε} : Returns P (throw e : Except ε α) :=
  fun _ ha => absurd (throw_eq_ok.mp ha) id

/-- A sequence returns what its second part returns. -/
theorem returns_bind {P : β → Prop} {x : Except ε α} {f : α → Except ε β}
    (hf : ∀ a, x = .ok a → Returns P (f a)) : Returns P (x >>= f) := by
  intro b hb
  obtain ⟨a, ha, hb⟩ := bind_eq_ok.mp hb
  exact hf a ha b hb

end Fallible
