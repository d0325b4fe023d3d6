import Mathlib.Data.Countable.Basic
import Mathlib.Data.Rat.Encodable
import Mathlib.Logic.Equiv.List
import RestaurantOS.Runs

/-!
# Committed requests and their repetitions

What the statements about idempotency keys share. A request is repeated by its key, and told from
another one with the same key by a digest of its payload, which is taken to have no collisions
(`DigestLibrary`). `Commits` says that a step of a run commits a command; the command has then been
executed on the rows of its restaurant as a whole (`Commits.exec`), and what every command keeps from
there on holds in every later state (`run_later`). The commands of the catalog keep the ingredients
and the submissions of orders, and only a replacement adds components to recipes (`exec_catalog`). -/

namespace RestaurantOS

open Fallible Catalog Events Inventory Orders Tenancy

/-! ## Digests -/

/-- A library whose digests have no collisions. Two requests with the same digest are then the same.
-/
abbrev DigestLibrary :=
  {lib : Library // Function.Injective lib.fingerprint ∧ Function.Injective lib.request_fingerprint}

/-- Characters are told apart by their code points. -/
instance char_countable : Countable Char := Function.Injective.countable fun _ _ h => Char.toNat_inj.mp h

/-- Texts are told apart by their characters. -/
instance string_countable : Countable String :=
  Function.Injective.countable fun _ _ h => String.toList_inj.mp h

/-- Its fields are texts and numbers, for each of the two kinds. -/
instance : Countable InventoryFingerprint := by
  let fields : InventoryFingerprint →
      String × String × ℚ × ℚ ⊕ String × ℚ × String × Option ℤ := fun payload =>
    match payload with
    | .create name unit reorder_threshold opening_quantity =>
      .inl (name, unit, reorder_threshold, opening_quantity)
    | .change kind quantity reason expected_version =>
      .inr (kind, quantity, reason, expected_version)
  refine Function.Injective.countable (f := fields) fun a b h => ?_
  cases a <;> cases b <;> simp_all [fields]

/-- Its fields are texts and numbers. -/
instance : Countable OrderFingerprint := by
  refine Function.Injective.countable (f := fun payload : OrderFingerprint =>
    (payload.table_number, payload.customer_name, payload.notes, payload.items)) fun a b h => ?_
  obtain ⟨⟩ := a
  obtain ⟨⟩ := b
  simp_all

/-- There are enough texts for the digests of all payloads. -/
theorem exists_digest (α : Type) [Countable α] : ∃ f : α → String, Function.Injective f := by
  obtain ⟨number, hnumber⟩ := exists_injective_nat α
  refine ⟨fun x => String.ofList (List.replicate (number x) '0'), fun x y h => hnumber ?_⟩
  have hlength := congrArg String.length h
  simpa using hlength

/-- The requests are countable, so a digest without collisions exists. -/
instance : Nonempty DigestLibrary := by
  obtain ⟨fingerprint, hfingerprint⟩ := exists_digest InventoryFingerprint
  obtain ⟨request_fingerprint, hrequest⟩ := exists_digest OrderFingerprint
  exact ⟨⟨⟨⟨id, id, id⟩, fingerprint, request_fingerprint⟩, hfingerprint, hrequest⟩⟩

/-! ## Commits -/

section Runs

variable {lib : Library} {start : ℕ → LegacyBranch}

/-- The action `a` commits the command in the restaurant, after the run `pre`. -/
def Commits (lib : Library) (start : ℕ → LegacyBranch) (k : ℕ) (pre : List Act) (a : Act)
    (command : Command) (response : Response) : Prop :=
  ∃ i value, a = .finish i ∧
    (run lib start pre).processes[i]? = some ⟨⟨k, command⟩, .executed (.ok (value, response))⟩

/-- A committed command has been executed on the rows of its restaurant. -/
theorem Commits.exec {k : ℕ} {pre : List Act} {a : Act} {command : Command} {response : Response}
    (h : Commits lib start k pre a command response) :
    ∃ draw, RestaurantOS.exec lib command draw ((run lib start pre).rows k) =
      .ok ((run lib start (pre ++ [a])).rows k, response) := by
  obtain ⟨i, value, rfl, hprocess⟩ := h
  have hinv := Serial.run_inv (system lib) (fun k => (start k).toBranch) pre
  have hstep : run lib start (pre ++ [.finish i]) = (run lib start pre).step (system lib) (.finish i) :=
    Transition.run_concat _ _ pre _
  obtain ⟨draw, hdraw⟩ := hinv.fresh _ (List.mem_of_getElem? hprocess) _ rfl
  have hrows : (run lib start (pre ++ [.finish i])).rows k = value := by
    rw [hstep]
    simp only [Serial.World.step, hprocess]
    exact Function.update_self ..
  exact ⟨draw, by rw [hrows]; exact hdraw.symm⟩

/-- What holds after a part of a run and is kept by every command holds after the whole run. -/
theorem run_later {P : Branch → Prop} {k : ℕ} {pre acts : List Act} (hpre : pre <+: acts)
    (hP : P ((run lib start pre).rows k))
    (hstep : ∀ {db : Branch} {command draw db' response}, db.Sane →
      RestaurantOS.exec lib command draw db = .ok (db', response) → P db → P db') :
    P ((run lib start acts).rows k) := by
  obtain ⟨rest, rfl⟩ := hpre
  induction rest using List.reverseRecOn with
  | nil => rwa [List.append_nil]
  | append_singleton rest a ih =>
    rw [← List.append_assoc]
    rcases run_step_exec lib start (pre ++ rest) a k with hsame |
      ⟨i, request, draw, value, response, -, -, -, -, hexec, hrows⟩
    · rwa [hsame]
    · rw [hrows]
      exact hstep (run_sane lib start _ k) hexec ih

end Runs

/-! ## The catalog -/

/-- A command of the catalog keeps the ingredients and the submissions, and unless it replaces a recipe
it at most removes components. -/
theorem exec_catalog {lib : Library} {command : Command} {draw : Draw} {db db' : Branch}
    {response : Response} (hcommand : command.is_catalog = true)
    (h : exec lib command draw db = .ok (db', response)) :
    db'.ingredients = db.ingredients ∧ db'.submissions = db.submissions ∧
      (db'.recipe_components.Sublist db.recipe_components ∨
        ∃ context id data, command = .replace_recipe context id data) := by
  obtain ⟨context, -, hwrite⟩ := exec_catalog_write hcommand h
  cases hwrite with
  | recipe_replaced data item => exact ⟨rfl, rfl, Or.inr ⟨context, _, data, rfl⟩⟩
  | menu_created data menu hfresh hemit
  | menu_edited data before after hemit
  | menu_deleted menu hmenu hempty hemit
  | item_created data menu item hmenu hprice hfresh hemit
  | item_written before after operation hemit =>
    obtain ⟨event, -, -, rfl⟩ := emit_change_ok hemit
    exact ⟨rfl, rfl, Or.inl (List.Sublist.refl _)⟩
  | menu_kept | item_kept => exact ⟨rfl, rfl, Or.inl (List.Sublist.refl _)⟩
  | item_deleted item hitem hemit =>
    obtain ⟨event, -, -, rfl⟩ := emit_change_ok hemit
    exact ⟨rfl, rfl, Or.inl List.filter_sublist⟩

end RestaurantOS
