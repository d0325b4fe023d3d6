import RestaurantOS.Inventory.Service
import RestaurantOS.Lib.Aggregate

/-!
# The order service

The write transactions of orders: creation, update and deletion, with the validation and the
consumption of tracked stock. A value that its column cannot hold fails when the rows are flushed
(`columns_hold`).
-/

namespace RestaurantOS

open Fallible Catalog Events Inventory Orders Tenancy

namespace Orders

/-- The menu item of a key. It is one of the restaurant of the order. -/
def menu_item (db : Branch) (menu_item_id : ℕ) : Option MenuItem :=
  Keyed.lookup MenuItem.menu_item_id menu_item_id db.menu_items

/-- The portions of one order item. A line whose menu item has been deleted cannot be accepted. -/
def line_portions (line : OrderLine) : Except Failure (ℕ × ℕ) :=
  match line.menu_item_id with
  | none => throw (.ConflictError "An order item no longer has a menu item for stock validation")
  | some menu_item_id => pure (menu_item_id, line.quantity)

/-- `get_recipe_components`: the components of a menu item with their ingredients. -/
def get_recipe_components (db : Branch) (menu_item_id : ℕ) :
    List (RecipeComponent × IngredientRecord) :=
  (db.recipe_components.filter fun component => component.menu_item_id = menu_item_id).filterMap
    fun component =>
      (Keyed.lookup IngredientRecord.id component.ingredient_id db.ingredients).map fun record =>
        (component, record)

/-- The components of a tracked menu item, which must have positive quantities. -/
def tracked_recipe (db : Branch) (menu_item_id : ℕ) :
    Except Failure (ℕ × List (RecipeComponent × IngredientRecord)) := do
  let components := get_recipe_components db menu_item_id
  ensure (∀ component ∈ components, 0 < component.1.quantity)
    (.ConflictError s!"Tracked menu item {menu_item_id} has an invalid recipe")
  pure (menu_item_id, components)

/-- The shortage of an ingredient, if it is short of what is required. -/
def shortage (record : IngredientRecord) (required : ℚ) : Option Shortage :=
  let available := match record.balance with
    | some balance => if record.item.is_active then balance.quantity else 0
    | none => 0
  if available < required then
    let ingredient_id := record.id
    some {
      label := if record.item.name ≠ "" then record.item.name else s!"ingredient {ingredient_id}"
      required := required
      unit := record.item.unit.value
      available := available
      state := if record.balance.isNone ∨ ¬ record.item.is_active then .inactive_or_missing_balance
        else .insufficient_stock }
  else none

/-- The ingredient and the required quantity of a key of the requirements. -/
def required_row (db : Branch) (needs : List (ℕ × ℚ)) (ingredient_id : ℕ) :
    Except Failure (IngredientRecord × ℚ) :=
  match Keyed.lookup IngredientRecord.id ingredient_id db.ingredients with
  | some record => pure (record, Aggregate.total ingredient_id needs)
  | none => throw .KeyError

/-- A required row with its balance. The insertion of an ingredient has made its balance, so the
error does not occur. -/
def balance_row (row : IngredientRecord × ℚ) :
    Except Failure (IngredientRecord × InventoryBalance × ℚ) :=
  match row.1.balance with
  | some balance => pure (row.1, balance, row.2)
  | none => throw .KeyError

/-- What the tracked menu items need of each ingredient, component by component. -/
def stock_needs (portions : List (ℕ × ℕ))
    (recipes : List (ℕ × List (RecipeComponent × IngredientRecord))) : List (ℕ × ℚ) :=
  recipes.flatMap fun (menu_item_id, components) =>
    components.map fun (component, record) =>
      (record.id, component.quantity * (Aggregate.total menu_item_id portions : ℕ))

/-- `_stock_rows`: the required quantity of every ingredient, which its balance covers. Without
portions or tracked items nothing is required, and the result is empty. The ingredients of a recipe
are rows of the restaurant, so the check of their restaurant has nothing to find. -/
def stock_rows (db : Branch) (lines : List OrderLine) :
    Except Failure (List (IngredientRecord × InventoryBalance × ℚ)) := do
  let portions ← lines.mapM line_portions
  let menu_item_ids := Aggregate.keys portions
  let missing_ids := menu_item_ids.filter fun id => (menu_item db id).isNone
  ensure (missing_ids = [])
    (.ConflictError s!"Menu items are no longer available for stock validation: {missing_ids}")
  let menu_items := menu_item_ids.filterMap (menu_item db)
  let unavailable_ids := (menu_items.filter fun item => !item.is_available).map (·.menu_item_id)
  ensure (unavailable_ids = []) (.ConflictError s!"Menu items are unavailable: {unavailable_ids}")
  let tracked := menu_items.filter (·.inventory_tracking)
  let recipes ← tracked.mapM fun item => tracked_recipe db item.menu_item_id
  let missing_recipe_items := (recipes.filter fun recipe => recipe.2.isEmpty).map (·.1)
  ensure (missing_recipe_items = []) (.ConflictError
    ("Tracked menu items require recipe ingredients: " ++
      ", ".intercalate (missing_recipe_items.map toString)))
  let needs := stock_needs portions recipes
  let rows ← (Aggregate.keys needs).mapM (required_row db needs)
  let shortages := rows.filterMap fun row => shortage row.1 row.2
  ensure (shortages = []) (.InsufficientStock shortages)
  rows.mapM balance_row

/-- `_check_stock`. Nothing is written, and a shortage is an error. -/
def check_stock (db : Branch) (lines : List OrderLine) : Except Failure Unit := do
  let _ ← stock_rows db lines
  pure ()

/-- One ingredient's part of `_consume_order_stock`. The movement, the balance and the event of the
state follow each other. -/
def consume (context : AccessContext) (draw : Draw) (order_id : ℕ) (db : Branch)
    (row : IngredientRecord × InventoryBalance × ℚ) : Except Failure Branch :=
  let (record, balance, required) := row
  let after := balance.quantity - required
  let before :=
    inventory_state_snapshot context.organization_id db.restaurant_id record.item balance
  let movement : InventoryMovement :=
    { kind := .consumption, quantity_delta := -required, balance_after := after,
      version_after := balance.version + 1, actor_user_id := some context.user_id,
      order_id := some order_id, reason := s!"Order {order_id} accepted", idempotency_key := none,
      request_fingerprint := none, occurred_at := draw.now record.id }
  record_inventory_transition db draw context.organization_id
    { record with movements := record.movements ++ [movement] } ⟨after, balance.version + 1⟩
    (some before) .order_acceptance (some context.user_id) (some order_id)

/-- `_consume_order_stock`. The rows are in the order of their keys. -/
def consume_order_stock (context : AccessContext) (draw : Draw) (order : Order) (db : Branch) :
    Except Failure Branch := do
  let rows ← stock_rows db (order.items.map (·.toOrderLine))
  rows.foldlM (consume context draw order.order_id) db

/-- The line of one item of a command. -/
def order_line (db : Branch) (command : OrderItemCommand) : Except Failure OrderLine :=
  match menu_item db command.menu_item_id with
  | none => throw .KeyError
  | some item => pure
    { menu_item_id := some item.menu_item_id, item_name := item.name, quantity := command.quantity,
      unit_price := item.price, line_total := item.price * command.quantity,
      notes := command.notes }

/-- `_build_order_items`: the lines and their sum. Items that are missing or not available are an
error that lists them. -/
def build_order_items (db : Branch) (commands : List OrderItemCommand) :
    Except Failure (List OrderLine × ℚ) := do
  let menu_item_ids := commands.map (·.menu_item_id)
  let missing_items := menu_item_ids.filter fun id => (menu_item db id).isNone
  ensure (missing_items = [])
    (.NotFoundError s!"Menu items not found for restaurant: {missing_items}")
  let unavailable_items := (db.menu_items.filter fun item =>
    item.menu_item_id ∈ menu_item_ids ∧ item.is_available = false).map (·.menu_item_id)
  ensure (unavailable_items = [])
    (.ValidationError s!"Menu items are unavailable: {unavailable_items}")
  let lines ← commands.mapM (order_line db)
  pure (lines, (lines.map (·.line_total)).sum)

/-- The keys of new order items. They are consecutive. -/
def number_items (first : ℕ) (lines : List OrderLine) : List OrderItem :=
  (lines.zipIdx first).map fun (line, id) => { line with order_item_id := id }

/-- The columns of an order and its items hold its values, and the sequence still has its key. -/
def columns_hold (order : Order) : Prop :=
  order.order_id ≤ MAX_INTEGER ∧ order.subtotal ≤ MAX_MONEY ∧
    ∀ item ∈ order.items, item.quantity ≤ MAX_INTEGER ∧ item.line_total ≤ MAX_MONEY

/-- Each column is compared with its bound. -/
instance (order : Order) : Decidable (columns_hold order) := inferInstanceAs (Decidable (_ ∧ _))

/-- What `_order_state` returns: the fields whose change makes a new revision. -/
structure OrderState where
  /-- The status. -/
  status : OrderStatus
  /-- The payment status. -/
  payment_status : PaymentStatus
  /-- The table. -/
  table_number : Option String
  /-- The customer. -/
  customer_name : Option String
  /-- Notes. -/
  notes : Option String
  /-- The sum of the lines. -/
  subtotal : ℚ
  /-- The total. -/
  total : ℚ
  /-- Whether acceptance has evaluated the stock. -/
  inventory_processed : Bool
  /-- The items without their keys. -/
  items : List OrderLine
  deriving DecidableEq

/-- `_order_state`. Two states are compared to see whether an update has changed anything. -/
def order_state (order : Order) : OrderState :=
  { status := order.status, payment_status := order.payment_status,
    table_number := order.table_number, customer_name := order.customer_name,
    notes := order.notes, subtotal := order.subtotal, total := order.total,
    inventory_processed := order.inventory_processed, items := order.items.map (·.toOrderLine) }

/-- `_get_order_or_error`. An order of another restaurant is not found either. -/
def get_order_or_error (db : Branch) (context : AccessContext) (order_id : ℕ) :
    Except Failure Order := do
  ensure (context.restaurant_scope db.organization_id db.restaurant_id = true)
    (.NotFoundError "Order not found")
  match Keyed.lookup Order.order_id order_id db.orders with
  | some order => pure order
  | none => throw (.NotFoundError "Order not found")

/-- `has_order_history`. An order with movements cannot be deleted. -/
def has_order_history (db : Branch) (order_id : ℕ) : Bool :=
  db.ingredients.any fun record =>
    record.movements.any fun movement => movement.order_id = some order_id

/-- The status part of an update. Submitting checks the stock, and accepting consumes it once. -/
def update_status (lib : Library) (context : AccessContext) (command : UpdateOrder) (draw : Draw)
    (db : Branch) (order : Order) : Except Failure (Branch × Order) :=
  match command.status with
  | none => pure (db, order)
  | some status => do
    let requested_status ← ensure_valid_order_transition lib.toText order.status status
    if requested_status = .SUBMITTED then
      check_stock db (order.items.map (·.toOrderLine))
      pure (db, { order with status := requested_status })
    else if order.status ≠ .ACCEPTED ∧ requested_status = .ACCEPTED then
      let db ← consume_order_stock context draw order db
      pure (db, { order with
        inventory_processed := true
        status := requested_status })
    else pure (db, { order with status := requested_status })

/-- The payment status after an update. An update without one leaves it. -/
def update_payment (lib : Library) (command : UpdateOrder) (order : Order) :
    Except Failure PaymentStatus :=
  match command.payment_status with
  | some status => ensure_valid_payment_status lib.toText status
  | none => pure order.payment_status

/-- The part of an update between the status and the items. -/
def update_details (lib : Library) (command : UpdateOrder) (order : Order) :
    Except Failure Order := do
  let payment_status ← update_payment lib command order
  pure { order with
    payment_status := payment_status
    table_number := command.table_number.or order.table_number
    customer_name := command.customer_name.or order.customer_name
    notes := command.notes.or order.notes }

/-- The items part of an update. They replace all items of a draft. -/
def update_items (command : UpdateOrder) (db : Branch) (order : Order) :
    Except Failure (Branch × Order) :=
  match command.items with
  | none => pure (db, order)
  | some items => do
    ensure_order_items_mutable order.status
    let (lines, subtotal) ← build_order_items db items
    check_stock db lines
    pure ({ db with next_order_item_id := db.next_order_item_id + lines.length },
      { order with
        items := number_items db.next_order_item_id lines
        subtotal := subtotal
        total := subtotal })

/-- The revision of an updated order. An update that changes nothing keeps the revision. -/
def update_revision (before after : Order) : Except Failure Order := do
  if order_state after ≠ order_state before then
    let revision ← next_order_revision after.revision
    pure { after with revision := revision }
  else pure after

/-- The event of a new status. The other statuses are not announced. -/
def status_payload (order : Order) : Option Payload :=
  match order.status with
  | .SUBMITTED => some (.order_submitted order.order_id)
  | .ACCEPTED => some (.order_accepted order.order_id)
  | .COMPLETED => some (.order_completed order.order_id order.total order.created_at)
  | .CANCELLED => some (.order_cancelled order.order_id)
  | _ => none

/-- The event part of an update. The event has the revision of the updated order. -/
def append_status (db : Branch) (draw : Draw) (context : AccessContext) (before after : Order) :
    Except Failure Branch :=
  if after.status ≠ before.status then
    match status_payload after with
    | some payload => db.append draw context.organization_id after.revision payload
    | none => pure db
  else pure db

/-- The submission of a key. There is at most one, as the key is unique. -/
def submission (db : Branch) (key : String) : Option OrderSubmission :=
  db.submissions.find? fun submission => submission.idempotency_key = key

end Orders

namespace OrderService

/-- `OrderService.create`. The same key with the same request returns the stored response. -/
def create (lib : Library) (context : AccessContext) (command : CreateOrder) (draw : Draw)
    (db : Branch) : Except Failure (Branch × OrderSnapshot) := do
  db.restaurant context
  context.require .order_create
  ensure (valid_key command.idempotency_key) (.ValidationError "Invalid order idempotency key")
  let signature := lib.request_fingerprint
    { table_number := command.table_number, customer_name := command.customer_name,
      notes := command.notes,
      items := command.items.map fun item => (item.menu_item_id, item.quantity, item.notes) }
  -- A known key is a replay, and nothing is written for it.
  match submission db command.idempotency_key with
  | some replay =>
    ensure (replay.request_fingerprint = signature)
      (.ConflictError "Idempotency key was already used for a different order")
    pure (db, replay.response_snapshot)
  | none =>
    let (lines, subtotal) ← build_order_items db command.items
    check_stock db lines
    let order_id := db.next_order_id + draw.gap
    let order : Order :=
      { order_id := order_id, table_number := command.table_number,
        customer_name := command.customer_name, status := .DRAFT, payment_status := .UNPAID,
        notes := command.notes, subtotal := subtotal, total := subtotal,
        inventory_processed := false, revision := 1, created_at := draw.now order_id,
        items := number_items db.next_order_item_id lines }
    ensure (columns_hold order) .DatabaseError
    -- The snapshot is taken from the row as it is about to be stored.
    let snapshot := creation_response_snapshot db.restaurant_id order
    pure ({ db with
      orders := db.orders ++ [order]
      submissions := db.submissions ++ [⟨command.idempotency_key, some order_id, signature, snapshot⟩]
      next_order_id := order_id + 1
      next_order_item_id := db.next_order_item_id + lines.length }, snapshot)

/-- `OrderService.update`. The parts of the update follow the order of the source. -/
def update (lib : Library) (context : AccessContext) (order_id : ℕ) (command : UpdateOrder)
    (draw : Draw) (db : Branch) : Except Failure (Branch × Order) := do
  let before ← get_order_or_error db context order_id
  authorize_order_update lib.toText context command.fields before.status command.status
  let (db, order) ← update_status lib context command draw db before
  let order ← update_details lib command order
  let (db, order) ← update_items command db order
  let order ← update_revision before order
  ensure (columns_hold order) .DatabaseError
  let db := { db with orders := Keyed.put Order.order_id order db.orders }
  let db ← append_status db draw context before order
  pure (db, order)

/-- `OrderService.delete`. The submission of the order stays and loses its link. -/
def delete (context : AccessContext) (order_id : ℕ) (draw : Draw) (db : Branch) :
    Except Failure Branch := do
  let order ← get_order_or_error db context order_id
  context.require .order_delete
  ensure (has_order_history db order_id = false)
    (.ConflictError "Orders with inventory history cannot be deleted")
  let revision ← next_order_revision order.revision
  let db ← db.append draw context.organization_id revision
    (.order_deleted order.order_id order.status order.total order.created_at)
  pure { db with
    orders := db.orders.filter fun order => order.order_id ≠ order_id
    submissions := db.submissions.map fun submission =>
      if submission.order_id = some order_id then { submission with order_id := none }
      else submission }

end OrderService

end RestaurantOS
