import RestaurantOS.Catalog.Requests
import RestaurantOS.Tenancy.Writes

/-!
# What a write has checked

A command that succeeds has found its restaurant in the scope of the context, and the role of the
context has every capability that the command requires. -/

namespace RestaurantOS.Tenancy

open Catalog Fallible Inventory Orders

/-- A context permits what a command requires on the rows of a restaurant. -/
structure Permits (context : AccessContext) (db : Branch) (capabilities : Finset Capability) :
    Prop where
  /-- The restaurant is in the scope of the context. -/
  scope : context.restaurant_scope db.organization_id db.restaurant_id = true
  /-- The role has the capabilities. -/
  capable : ∀ capability ∈ capabilities, capability ∈ ROLE_CAPABILITIES context.role

section Checks

variable {context : AccessContext} {db : Branch} {α β : Type}

/-- A target that is found in scope and a capability that is required permit the rest. -/
theorem permits_of_checks {find : Except Failure α} {capability : Capability}
    {rest : α → Unit → Except Failure β} {result : β}
    (hfind : ∀ found, find = .ok found →
      context.restaurant_scope db.organization_id db.restaurant_id = true)
    (h : (do
      let found ← find
      let granted ← context.require capability
      rest found granted) = .ok result) : Permits context db {capability} := by
  obtain ⟨found, hfound, h⟩ := bind_eq_ok.mp h
  obtain ⟨_, hrequire, -⟩ := bind_eq_ok.mp h
  refine ⟨hfind found hfound, fun other hother => ?_⟩
  rw [Finset.mem_singleton.mp hother]
  exact ensure_eq_ok.mp hrequire

/-- The restaurant is found in scope. -/
theorem restaurant_scope_ok (found : Unit) (h : db.restaurant context = .ok found) :
    context.restaurant_scope db.organization_id db.restaurant_id = true :=
  ensure_eq_ok.mp h

/-- A menu is found in scope. -/
theorem menu_scope_ok (menu_id : ℕ) (menu : Menu) (h : get_menu_by_id db context menu_id = .ok menu) :
    context.restaurant_scope db.organization_id db.restaurant_id = true :=
  (get_menu_by_id_ok h).1

/-- A menu item is found in scope. -/
theorem menu_item_scope_ok (menu_item_id : ℕ) (item : MenuItem)
    (h : get_menu_item_by_id db context menu_item_id = .ok item) :
    context.restaurant_scope db.organization_id db.restaurant_id = true :=
  (get_menu_item_by_id_ok h).1

/-- An order is found in scope. -/
theorem order_scope_ok (order_id : ℕ) (order : Order)
    (h : get_order_or_error db context order_id = .ok order) :
    context.restaurant_scope db.organization_id db.restaurant_id = true := by
  obtain ⟨_, hscope, -⟩ := bind_eq_ok.mp h
  exact ensure_eq_ok.mp hscope

/-- What an inventory command has checked. What follows is run only after it. -/
theorem permits_of_prepare {rest : Unit → Except Failure β} {result : β}
    (h : (do
      let granted ← InventoryService.prepare db context .inventory_manage
      rest granted) = .ok result) : Permits context db {.inventory_manage} := by
  obtain ⟨_, hprepare, -⟩ := bind_eq_ok.mp h
  obtain ⟨_, hscope, hrequire⟩ := bind_eq_ok.mp hprepare
  refine ⟨ensure_eq_ok.mp hscope, fun other hother => ?_⟩
  rw [Finset.mem_singleton.mp hother]
  exact ensure_eq_ok.mp hrequire

end Checks

/-- A write that succeeds is permitted. Every service function checks the scope of its row and the
capability before it changes anything, so each case is the two first steps of the function. -/
theorem exec_permits {lib : Library} {context : AccessContext} {command : Write} {draw : Draw}
    {db : Branch} {result : Branch × Response}
    (h : exec lib (command.within context) draw db = .ok result) :
    Permits context db command.capabilities := by
  cases command with
  | create_ingredient data =>
    obtain ⟨_, h, -⟩ := bind_eq_ok.mp h
    exact permits_of_prepare h
  | update_ingredient ingredient_id data =>
    obtain ⟨_, h, -⟩ := bind_eq_ok.mp h
    exact permits_of_prepare h
  | change_stock ingredient_id data =>
    obtain ⟨_, h, -⟩ := bind_eq_ok.mp h
    exact permits_of_prepare h
  | create_order command =>
    obtain ⟨_, h, -⟩ := bind_eq_ok.mp h
    exact permits_of_checks restaurant_scope_ok h
  -- An update of an order needs a capability for every field that it is about.
  | update_order order_id command =>
    obtain ⟨_, h, -⟩ := bind_eq_ok.mp h
    obtain ⟨order, hfound, h⟩ := bind_eq_ok.mp h
    obtain ⟨_, hauthorized, -⟩ := bind_eq_ok.mp h
    obtain ⟨_, hcapable, -⟩ := bind_eq_ok.mp hauthorized
    refine ⟨order_scope_ok order_id order hfound, fun capability hcapability => ?_⟩
    obtain ⟨field, hfield, rfl⟩ := Finset.mem_image.mp hcapability
    exact ensure_eq_ok.mp hcapable field hfield
  | delete_order order_id =>
    obtain ⟨_, h, -⟩ := bind_eq_ok.mp h
    exact permits_of_checks (order_scope_ok order_id) h
  | create_menu command =>
    obtain ⟨_, h, -⟩ := bind_eq_ok.mp h
    exact permits_of_checks restaurant_scope_ok h
  | update_menu menu_id command =>
    obtain ⟨_, h, -⟩ := bind_eq_ok.mp h
    exact permits_of_checks (menu_scope_ok menu_id) h
  | delete_menu menu_id =>
    obtain ⟨_, h, -⟩ := bind_eq_ok.mp h
    exact permits_of_checks (menu_scope_ok menu_id) h
  | create_menu_item menu_id command =>
    obtain ⟨_, h, -⟩ := bind_eq_ok.mp h
    exact permits_of_checks (menu_scope_ok menu_id) h
  | update_menu_item menu_item_id command =>
    obtain ⟨_, h, -⟩ := bind_eq_ok.mp h
    exact permits_of_checks (menu_item_scope_ok menu_item_id) h
  | delete_menu_item menu_item_id =>
    obtain ⟨_, h, -⟩ := bind_eq_ok.mp h
    exact permits_of_checks (menu_item_scope_ok menu_item_id) h
  | replace_recipe menu_item_id command =>
    obtain ⟨_, h, -⟩ := bind_eq_ok.mp h
    exact permits_of_checks (menu_item_scope_ok menu_item_id) h

end RestaurantOS.Tenancy
