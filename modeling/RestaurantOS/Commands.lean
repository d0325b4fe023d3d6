import RestaurantOS.Catalog.Service
import RestaurantOS.Lib.Serial
import RestaurantOS.Orders.Service

/-!
# The commands of a restaurant as concurrent transactions

The commands that write rows of a restaurant, as requests to a system of transactions (`Serial`):
the key of a request is its restaurant, whose row it locks first, and the value under the key is the
`Branch` of the restaurant. What a command reads before the lock only names its restaurant; the
membership rows behind its `AccessContext` are locked for the transaction and are given with the
request. A storage error, a deadlock or a cancellation may end a transaction at any point.
-/

namespace RestaurantOS

open Fallible Catalog Inventory Orders Tenancy

/-- `EventMaintenanceService.run` with the kind `initialize`, on the inventory rows: every low
ingredient without an open episode gets a baseline. -/
def maintenance_initialization (organization_id : UUID) (draw : Draw) (db : Branch) :
    Except Failure Branch := do
  ensure (organization_id = db.organization_id) (.NotFoundError "Restaurant not found")
  let states ← load_inventory_restaurant_states db organization_id
  if db.initialized then pure db
  else
    let db ← states.foldlM (fun db transition =>
      if transition.state.is_low ∧ transition.episode_id.isNone then
        record_baseline_inventory_episode db organization_id transition.state.ingredient_id
          (draw.now 0)
      else pure db) db
    pure { db with initialized := true }

/-- The commands. Each is one request of the interface, or the initialization of the maintenance. -/
inductive Command
  | create_ingredient (context : AccessContext) (data : CreateIngredient)
  | update_ingredient (context : AccessContext) (ingredient_id : ℕ) (data : UpdateIngredient)
  | change_stock (context : AccessContext) (ingredient_id : ℕ) (data : ChangeStock)
  | create_order (context : AccessContext) (command : CreateOrder)
  | update_order (context : AccessContext) (order_id : ℕ) (command : UpdateOrder)
  | delete_order (context : AccessContext) (order_id : ℕ)
  | create_menu (context : AccessContext) (command : CreateMenu)
  | update_menu (context : AccessContext) (menu_id : ℕ) (command : UpdateMenu)
  | delete_menu (context : AccessContext) (menu_id : ℕ)
  | create_menu_item (context : AccessContext) (menu_id : ℕ) (command : CreateMenuItem)
  | update_menu_item (context : AccessContext) (menu_item_id : ℕ) (command : UpdateMenuItem)
  | delete_menu_item (context : AccessContext) (menu_item_id : ℕ)
  | replace_recipe (context : AccessContext) (menu_item_id : ℕ) (command : ReplaceRecipe)
  | maintenance_initialization (organization_id : UUID)

/-- What a command returns. Deletions and the replacement of a recipe return nothing. -/
inductive Response
  | ingredient (view : IngredientView)
  | movement (movement : InventoryMovement)
  | snapshot (snapshot : OrderSnapshot)
  | order (order : Order)
  | menu (menu : Menu)
  | menu_item (item : MenuItem)
  | done

/-- The transaction of a command on the rows of its restaurant. -/
def exec (lib : Library) (command : Command) (draw : Draw) (db : Branch) :
    Except Failure (Branch × Response) :=
  match command with
  | .create_ingredient context data => do
    let (db, view) ← InventoryService.create lib context data draw db
    pure (db, .ingredient view)
  | .update_ingredient context id data => do
    let (db, view) ← InventoryService.update lib context id data draw db
    pure (db, .ingredient view)
  | .change_stock context id data => do
    let (db, movement) ← InventoryService.change lib context id data draw db
    pure (db, .movement movement)
  | .create_order context command => do
    let (db, snapshot) ← OrderService.create lib context command draw db
    pure (db, .snapshot snapshot)
  | .update_order context id command => do
    let (db, order) ← OrderService.update lib context id command draw db
    pure (db, .order order)
  | .delete_order context id => do
    let db ← OrderService.delete context id draw db
    pure (db, .done)
  | .create_menu context command => do
    let (db, menu) ← CatalogService.create_menu context command draw db
    pure (db, .menu menu)
  | .update_menu context id command => do
    let (db, menu) ← CatalogService.update_menu context id command draw db
    pure (db, .menu menu)
  | .delete_menu context id => do
    let db ← CatalogService.delete_menu context id draw db
    pure (db, .done)
  | .create_menu_item context id command => do
    let (db, item) ← CatalogService.create_menu_item context id command draw db
    pure (db, .menu_item item)
  | .update_menu_item context id command => do
    let (db, item) ← CatalogService.update_menu_item context id command draw db
    pure (db, .menu_item item)
  | .delete_menu_item context id => do
    let db ← CatalogService.delete_menu_item context id draw db
    pure (db, .done)
  | .replace_recipe context id command => do
    let db ← RecipesService.replace context id command db
    pure (db, .done)
  | .maintenance_initialization organization_id => do
    let db ← maintenance_initialization organization_id draw db
    pure (db, .done)

/-- A command for a restaurant. The command runs in a transaction on the rows of this restaurant. -/
structure Request where
  /-- The restaurant. -/
  restaurant_id : ℕ
  /-- The command. -/
  command : Command

/-- The commands of all restaurants as a system of transactions. -/
def system (lib : Library) : Serial.System ℕ Branch Request Draw Failure Response :=
  ⟨fun request => request.restaurant_id, fun request draw db => exec lib request.command draw db⟩

/-- The actions of the system. Requests start, run and end as `Serial` says. -/
abbrev Act := Serial.Act Request Draw

/-- What holds of the rows of a restaurant when the revisioned inventory is introduced: the
constraints of the tables, and nothing that only later commands write. -/
structure Branch.Legacy (db : Branch) : Prop where
  /-- The key of the restaurant is positive. -/
  restaurant : 0 < db.restaurant_id
  /-- The keys of the menu items are unique. -/
  menu_items : Keyed.Unique MenuItem.menu_item_id db.menu_items
  /-- The sequence has passed the keys of the menu items. -/
  menu_items_below : ∀ item ∈ db.menu_items, item.menu_item_id < db.next_menu_item_id
  /-- A recipe component has a positive quantity. -/
  recipes : ∀ component ∈ db.recipe_components, 0 < component.quantity
  /-- The keys of the ingredients are unique. -/
  ingredients : Keyed.Unique IngredientRecord.id db.ingredients
  /-- The sequence has passed the keys of the ingredients, which are positive. -/
  ingredients_below : ∀ record ∈ db.ingredients, 0 < record.id ∧ record.id < db.next_ingredient_id
  /-- The next key is positive. -/
  next_ingredient : 0 < db.next_ingredient_id
  /-- The revision of an ingredient is positive. -/
  revisions : ∀ record ∈ db.ingredients, 1 ≤ record.item.state_revision
  /-- A balance is in range. -/
  balances : ∀ record ∈ db.ingredients, ∀ balance ∈ record.balance,
    0 ≤ balance.quantity ∧ balance.quantity ≤ MAX_QUANTITY
  /-- No episode has been recorded. -/
  episodes : ∀ record ∈ db.ingredients, record.episodes = []
  /-- A movement refers to an order of the restaurant, if to any. -/
  movements : ∀ record ∈ db.ingredients, ∀ movement ∈ record.movements,
    ∀ order_id ∈ movement.order_id, ∃ order ∈ db.orders, order.order_id = order_id
  /-- The keys of the orders are unique. -/
  orders : Keyed.Unique Order.order_id db.orders
  /-- The sequence has passed the keys of the orders. -/
  orders_below : ∀ order ∈ db.orders, order.order_id < db.next_order_id
  /-- The revision of an order is positive. -/
  order_revisions : ∀ order ∈ db.orders, 1 ≤ order.revision
  /-- The outbox is empty. -/
  events : db.events = []
  /-- The restaurant has not been initialized. -/
  uninitialized : db.initialized = false

/-- The rows of a restaurant of the legacy database. -/
structure LegacyBranch extends Branch where
  /-- They meet the constraints. -/
  legacy : toBranch.Legacy

/-- A small restaurant: a menu with one dish whose orders consume stock, its recipe, and an ingredient
of which too little is left, with the movement that opened its stock. -/
def Branch.small : Branch where
  organization_id := 1
  restaurant_id := 1
  menus := [⟨1, "Lunch", none⟩]
  menu_items := [⟨1, 1, "Rice soup", none, 9 / 2, true, true⟩]
  recipe_components := [⟨1, 1, 1 / 4⟩]
  ingredients :=
    [{ item :=
        { id := 1, name := "Rice", normalized_name := "rice", unit := .g, reorder_threshold := 10,
          is_active := true, state_revision := 1 }
       balance := some ⟨5, 1⟩
       movements :=
        [{ kind := .opening, quantity_delta := 5, balance_after := 5, version_after := 1,
           actor_user_id := none, order_id := none, reason := "Opening stock",
           idempotency_key := some "opening-rice-1", request_fingerprint := some "",
           occurred_at := 0 }]
       episodes := [] }]
  orders := []
  submissions := []
  initialized := false
  events := []
  next_menu_id := 2
  next_menu_item_id := 2
  next_ingredient_id := 2
  next_order_id := 1
  next_order_item_id := 1
  next_uuid := 2

/-- The small restaurant meets the constraints. -/
theorem Branch.small_legacy : Branch.small.Legacy := by
  constructor <;> simp [Branch.small, Keyed.Unique, IngredientRecord.id, MAX_QUANTITY]
  norm_num

/-- The small restaurant with an order that has been submitted with a key and completed. -/
def Branch.small_served : Branch :=
  let meal : Order :=
    { order_id := 1, table_number := some "4", customer_name := none, status := .COMPLETED,
      payment_status := .PAID, notes := none, subtotal := 9, total := 9, inventory_processed := true,
      revision := 4, created_at := 0, items := [⟨⟨some 1, "Rice soup", 2, 9 / 2, 9, none⟩, 1⟩] }
  { Branch.small with
    orders := [meal]
    submissions := [⟨"meal-at-table-4", some 1, "", creation_response_snapshot 1 meal⟩]
    next_order_id := 2
    next_order_item_id := 2 }

/-- So does the small restaurant with an order. -/
theorem Branch.small_served_legacy : Branch.small_served.Legacy :=
  { Branch.small_legacy with
    movements := by simp [Branch.small_served, Branch.small]
    orders := by simp [Branch.small_served, Keyed.Unique]
    orders_below := by simp [Branch.small_served]
    order_revisions := by simp [Branch.small_served] }

/-- The small restaurant with an order is one. -/
instance : Nonempty LegacyBranch := ⟨⟨Branch.small_served, Branch.small_served_legacy⟩⟩

/-- The state of the system after a run from a legacy database. -/
def run (lib : Library) (start : ℕ → LegacyBranch) (acts : List Act) :
    Serial.World ℕ Branch Request Failure Response :=
  Serial.World.run (system lib) (fun restaurant_id => (start restaurant_id).toBranch) acts

end RestaurantOS
