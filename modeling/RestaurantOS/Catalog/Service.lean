import RestaurantOS.Branch

/-!
# The catalog and recipe services

The write transactions on menus, menu items and recipes. A command reads its target before it locks
the restaurant, to learn the restaurant, and again under the lock; only the second reading decides.
A sequence that has run out fails the insertion of a row.
-/

namespace RestaurantOS

open Fallible Catalog Events Inventory Orders Tenancy

namespace Catalog

/-- `next_catalog_revision`: one more than the last revision of the aggregate's events. -/
def next_catalog_revision (db : Branch) (target : CatalogTarget) (target_id : ℕ) : ℕ :=
  let revisions := db.events.filterMap fun event =>
    match event.payload with
    | .menu_updated _ target' id _ _ =>
      if target' = target ∧ id = target_id then some event.aggregate_revision.toNat else none
    | _ => none
  revisions.foldr max 0 + 1

/-- `_emit_change`. The event is about the item, or about the menu where there is none. -/
def emit_change (db : Branch) (draw : Draw) (context : AccessContext) (menu_id : ℕ)
    (operation : CatalogOperation) (item : Option MenuItem) : Except Failure Branch :=
  let target : CatalogTarget := if item.isSome then .menu_item else .menu
  let target_id := (item.map (·.menu_item_id)).getD menu_id
  let affected := (item.map fun item => [item.menu_item_id]).getD []
  db.append draw context.organization_id (next_catalog_revision db target target_id)
    (.menu_updated operation target target_id menu_id affected)

/-- `get_menu_by_id` under the lock of the restaurant. A menu of another restaurant is not found
either. -/
def get_menu_by_id (db : Branch) (context : AccessContext) (menu_id : ℕ) : Except Failure Menu := do
  ensure (context.restaurant_scope db.organization_id db.restaurant_id = true)
    (.NotFoundError "Menu not found")
  match Keyed.lookup Menu.menu_id menu_id db.menus with
  | some menu => pure menu
  | none => throw (.NotFoundError "Menu not found")

/-- `get_menu_item_by_id` under the lock of the restaurant. An item of another restaurant is not
found either. -/
def get_menu_item_by_id (db : Branch) (context : AccessContext) (menu_item_id : ℕ) :
    Except Failure MenuItem := do
  ensure (context.restaurant_scope db.organization_id db.restaurant_id = true)
    (.NotFoundError "Menu item not found")
  match Keyed.lookup MenuItem.menu_item_id menu_item_id db.menu_items with
  | some item => pure item
  | none => throw (.NotFoundError "Menu item not found")

/-- `menu_item_has_order_history`. An item that has been ordered cannot be deleted. -/
def menu_item_has_order_history (db : Branch) (menu_item_id : ℕ) : Bool :=
  db.orders.any fun order => order.items.any fun item => item.menu_item_id = some menu_item_id

end Catalog

namespace CatalogService

/-- `create_menu`. The event follows the new row in the same transaction. -/
def create_menu (context : AccessContext) (command : CreateMenu) (draw : Draw) (db : Branch) :
    Except Failure (Branch × Menu) := do
  db.restaurant context
  context.require .menu_manage
  let menu : Menu := ⟨db.next_menu_id + draw.gap, command.name, command.description⟩
  ensure (menu.menu_id ≤ MAX_INTEGER) .DatabaseError
  let db := { db with
    menus := db.menus ++ [menu]
    next_menu_id := menu.menu_id + 1 }
  let db ← emit_change db draw context menu.menu_id .created none
  pure (db, menu)

/-- `update_menu`. Only a change of a field makes a revision and an event. -/
def update_menu (context : AccessContext) (menu_id : ℕ) (command : UpdateMenu) (draw : Draw)
    (db : Branch) : Except Failure (Branch × Menu) := do
  let menu ← get_menu_by_id db context menu_id
  context.require .menu_manage
  let after : Menu := ⟨menu.menu_id, command.name.getD menu.name,
    command.description.or menu.description⟩
  let updated := { db with menus := Keyed.put Menu.menu_id after db.menus }
  if after.name ≠ menu.name ∨ after.description ≠ menu.description then
    let updated ← emit_change updated draw context menu_id .edited none
    pure (updated, after)
  else pure (updated, after)

/-- `delete_menu`. A menu with items cannot be deleted. -/
def delete_menu (context : AccessContext) (menu_id : ℕ) (draw : Draw) (db : Branch) :
    Except Failure Branch := do
  let menu ← get_menu_by_id db context menu_id
  context.require .menu_manage
  ensure (∀ item ∈ db.menu_items, item.menu_id ≠ menu_id)
    (.ConflictError "Remove menu items before deleting the menu")
  let db ← emit_change db draw context menu.menu_id .deleted none
  pure { db with menus := db.menus.filter fun menu => menu.menu_id ≠ menu_id }

/-- `create_menu_item`. The price is validated before anything is written. -/
def create_menu_item (context : AccessContext) (menu_id : ℕ) (command : CreateMenuItem)
    (draw : Draw) (db : Branch) : Except Failure (Branch × MenuItem) := do
  let menu ← get_menu_by_id db context menu_id
  context.require .menu_manage
  let price ← validate_menu_price command.price
  let item : MenuItem :=
    { menu_item_id := db.next_menu_item_id + draw.gap, menu_id := menu_id, name := command.name,
      description := command.description, price := price, is_available := command.is_available,
      inventory_tracking := false }
  ensure (item.menu_item_id ≤ MAX_INTEGER) .DatabaseError
  let db := { db with
    menu_items := db.menu_items ++ [item]
    next_menu_item_id := item.menu_item_id + 1 }
  let db ← emit_change db draw context menu.menu_id .created (some item)
  pure (db, item)

/-- The price of an item after an update. -/
def requested_price (command : UpdateMenuItem) (item : MenuItem) : Except Failure ℚ :=
  match command.price with
  | some price => validate_menu_price price
  | none => pure item.price

/-- `update_menu_item`. Only a change of a field makes a revision and an event. -/
def update_menu_item (context : AccessContext) (menu_item_id : ℕ) (command : UpdateMenuItem)
    (draw : Draw) (db : Branch) : Except Failure (Branch × MenuItem) := do
  let item ← get_menu_item_by_id db context menu_item_id
  context.require .menu_manage
  let price ← requested_price command item
  let after := { item with
    name := command.name.getD item.name
    description := command.description.or item.description
    price := price
    is_available := command.is_available.getD item.is_available }
  let updated := { db with menu_items := Keyed.put MenuItem.menu_item_id after db.menu_items }
  if after.name ≠ item.name ∨ after.description ≠ item.description ∨ after.price ≠ item.price ∨
      after.is_available ≠ item.is_available then
    let operation := if item.is_available && !after.is_available then CatalogOperation.deactivated
      else .edited
    let updated ← emit_change updated draw context item.menu_id operation (some after)
    pure (updated, after)
  else pure (updated, after)

/-- `delete_menu_item`: an item with order history is only deactivated. The rows that refer to a
deleted item follow their foreign keys: its recipe is deleted, and order items lose their link. -/
def delete_menu_item (context : AccessContext) (menu_item_id : ℕ) (draw : Draw) (db : Branch) :
    Except Failure Branch := do
  let item ← get_menu_item_by_id db context menu_item_id
  context.require .menu_manage
  if menu_item_has_order_history db menu_item_id then
    let after := { item with is_available := false }
    let updated := { db with menu_items := Keyed.put MenuItem.menu_item_id after db.menu_items }
    if item.is_available then
      emit_change updated draw context item.menu_id .deactivated (some after)
    else pure updated
  else
    let db ← emit_change db draw context item.menu_id .deleted (some item)
    pure { db with
      menu_items := db.menu_items.filter fun item => item.menu_item_id ≠ menu_item_id
      recipe_components := db.recipe_components.filter fun component =>
        component.menu_item_id ≠ menu_item_id
      orders := db.orders.map fun order =>
        { order with items := order.items.map fun item =>
            if item.menu_item_id = some menu_item_id then { item with menu_item_id := none }
            else item } }

end CatalogService

namespace RecipesService

/-- `RecipesService.replace`. The ingredients are those of the restaurant, in the order of their
keys; a component refers to one of them. -/
def replace (context : AccessContext) (menu_item_id : ℕ) (command : ReplaceRecipe) (db : Branch) :
    Except Failure Branch := do
  let item ← get_menu_item_by_id db context menu_item_id
  context.require .menu_manage
  let ingredient_ids := command.components.map (·.ingredient_id)
  ensure ingredient_ids.Nodup (.ValidationError "A recipe cannot contain duplicate ingredients")
  ensure (command.inventory_tracking = true → command.components ≠ [])
    (.ValidationError "Inventory tracking requires at least one recipe ingredient")
  let components ← command.components.mapM fun component => do
    let number ← quantity component.quantity true
    pure (⟨menu_item_id, component.ingredient_id, number⟩ : RecipeComponent)
  let ingredients := db.ingredients.filter fun record => record.id ∈ ingredient_ids
  ensure (ingredients.length = ingredient_ids.length) (.NotFoundError "Ingredient not found")
  ensure (∀ record ∈ ingredients, record.item.is_active = true)
    (.ConflictError "Restore inactive ingredients before using them in a recipe")
  pure { db with
    menu_items := Keyed.put MenuItem.menu_item_id
      { item with inventory_tracking := command.inventory_tracking } db.menu_items
    recipe_components := (db.recipe_components.filter fun component =>
      component.menu_item_id ≠ menu_item_id) ++ components }

end RecipesService

end RestaurantOS
