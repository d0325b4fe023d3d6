import RestaurantOS.Events.Payloads
import RestaurantOS.Inventory.Transitions
import RestaurantOS.Lib.Rows

/-!
# The rows of one restaurant

Every command that writes business rows locks the row of its restaurant first and reads and writes
rows of that restaurant only, so the rows of a restaurant are kept together in a `Branch`. A command
is a function of the committed branch: it fails, or it returns the branch to commit.

The keys of new rows come from sequences and from `uuid4`; a branch keeps the smallest key that the
next row can get, and a draw says how far a sequence has moved on since. The outbox holds the
validated envelopes that the restaurant's commands have appended.
-/

namespace RestaurantOS

open Fallible Catalog Events Inventory Orders Tenancy

/-- The rows of a restaurant. The tables of the other restaurants are not touched by its commands.
-/
structure Branch where
  /-- The organization. -/
  organization_id : UUID
  /-- The restaurant. -/
  restaurant_id : ℕ
  /-- The menus. -/
  menus : List Menu
  /-- The menu items. -/
  menu_items : List MenuItem
  /-- The recipes. -/
  recipe_components : List RecipeComponent
  /-- The ingredients. -/
  ingredients : List IngredientRecord
  /-- The orders. -/
  orders : List Order
  /-- The submissions of orders. -/
  submissions : List OrderSubmission
  /-- Whether the restaurant has been initialized for its projections. -/
  initialized : Bool
  /-- The outbox, the oldest event first. -/
  events : List (EventEnvelope Payload)
  /-- The next key of a menu. -/
  next_menu_id : ℕ
  /-- The next key of a menu item. -/
  next_menu_item_id : ℕ
  /-- The next key of an ingredient. -/
  next_ingredient_id : ℕ
  /-- The next key of an order. -/
  next_order_id : ℕ
  /-- The next key of an order item. -/
  next_order_item_id : ℕ
  /-- The next identifier of `uuid4`. -/
  next_uuid : UUID

/-- What is hashed for the fingerprint of an inventory request: its fields but for the key, where a
quantity counts as a number. -/
inductive InventoryFingerprint
  | create (name unit : String) (reorder_threshold opening_quantity : ℚ)
  | change (kind : String) (quantity : ℚ) (reason : String) (expected_version : Option ℤ)

/-- What is hashed for the fingerprint of an order request. -/
structure OrderFingerprint where
  /-- The table. -/
  table_number : Option String
  /-- The customer. -/
  customer_name : Option String
  /-- Notes. -/
  notes : Option String
  /-- Menu item, portions and notes of each item. -/
  items : List (ℕ × ℕ × Option String)

/-- The library functions that the commands use. The digests are those of the idempotency keys. -/
structure Library extends Text where
  /-- `fingerprint`: the digest of an inventory request. -/
  fingerprint : InventoryFingerprint → String
  /-- `_request_fingerprint`: the digest of an order request. -/
  request_fingerprint : OrderFingerprint → String

/-- What a command draws from its environment. Nothing is assumed of what it draws. -/
structure Draw where
  /-- `datetime.now`, read while the row with a given key is written. -/
  now : ℕ → Timestamp
  /-- `CommandEvents.occurred_at`. -/
  occurred_at : Timestamp
  /-- `CommandEvents.correlation_id`. -/
  correlation_id : String
  /-- By how much the sequence of a new row's key has moved on. -/
  gap : ℕ

/-- `re.fullmatch(r"[A-Za-z0-9_-]{1,100}", key)`. It is what a client may send as an idempotency
key. -/
def valid_key (key : String) : Prop :=
  1 ≤ key.length ∧ key.length ≤ 100 ∧
    key.toList.all (fun c => c.isAlphanum || c = '_' || c = '-') = true

/-- The length and every character are checked. -/
instance (key : String) : Decidable (valid_key key) := inferInstanceAs (Decidable (_ ∧ _))

namespace Branch

/-- `restaurant_exists` and `lock_restaurant`: the restaurant, if it is visible to the caller. -/
def restaurant (db : Branch) (context : AccessContext) : Except Failure Unit :=
  ensure (context.restaurant_scope db.organization_id db.restaurant_id = true)
    (.NotFoundError "Restaurant not found")

/-- `InventoryRepository.ingredient`: an ingredient with its balance. The source joins the two, so
without a balance nothing is found. -/
def ingredient (db : Branch) (ingredient_id : ℕ) :
    Except Failure (IngredientRecord × InventoryBalance) :=
  match Keyed.lookup IngredientRecord.id ingredient_id db.ingredients with
  | none => throw (.NotFoundError "Ingredient not found")
  | some record =>
    match record.balance with
    | none => throw (.NotFoundError "Ingredient not found")
    | some balance => pure (record, balance)

/-- The record of an ingredient is written. It keeps its place in the list. -/
def put (db : Branch) (record : IngredientRecord) : Branch :=
  { db with ingredients := Keyed.put IngredientRecord.id record db.ingredients }

/-- `CommandEvents.append`: the event is validated, stored and published with the transaction. -/
def append (db : Branch) (draw : Draw) (organization_id : UUID) (aggregate_revision : ℕ)
    (payload : Payload) : Except Failure Branch := do
  let event : EventEnvelope Payload :=
    { event_id := db.next_uuid, event_type := payload.event_type,
      organization_id := organization_id, restaurant_id := db.restaurant_id,
      aggregate_type := payload.aggregate.1, aggregate_id := toString payload.aggregate.2,
      aggregate_revision := aggregate_revision, occurred_at := draw.occurred_at,
      correlation_id := draw.correlation_id, payload := payload }
  ensure (envelope_valid event) .ContractError
  ensure (organization_id = db.organization_id) .EventScopeMismatch
  pure { db with
    events := db.events ++ [event]
    next_uuid := db.next_uuid + 1 }

end Branch

end RestaurantOS
