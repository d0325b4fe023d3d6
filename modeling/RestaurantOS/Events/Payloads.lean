import RestaurantOS.Catalog.Models
import RestaurantOS.Events.Contracts
import RestaurantOS.Inventory.Models
import RestaurantOS.Orders.Models

/-!
# Business events

The payloads of the eight event types and their contracts. The type of an event and the aggregate it
is about follow from its payload, as `identity_matches_payload` demands of every envelope.
-/

namespace RestaurantOS.Events

open Catalog Inventory Orders

/-- The operations of a catalog change. An item is deactivated when it can no longer be ordered but
keeps its row. -/
inductive CatalogOperation
  | created
  | edited
  | deactivated
  | deleted
  deriving DecidableEq, Repr

/-- The targets of a catalog change. A change is one of a menu or of a menu item. -/
inductive CatalogTarget
  | menu
  | menu_item
  deriving DecidableEq, Repr

/-- The text of a target. It is the value of the enumeration. -/
def CatalogTarget.value : CatalogTarget → String
  | .menu => "menu"
  | .menu_item => "menu_item"

/-- `InventoryStateChangedPayload`. The typed payload, with numbers as the handlers read them. -/
structure InventoryStateChangedPayload where
  /-- The ingredient. -/
  ingredient_id : ℕ
  /-- Its name. -/
  ingredient_name : String
  /-- Its unit. -/
  unit : InventoryUnit
  /-- The quantity on hand. -/
  quantity : ℚ
  /-- The threshold. -/
  reorder_threshold : ℚ
  /-- Whether the ingredient is active. -/
  is_active : Bool
  /-- Whether it is low. -/
  is_low : Bool
  /-- The current episode. -/
  episode_id : Option UUID
  /-- The boundary that was crossed. -/
  episode_transition : Option EpisodeTransitionKind
  /-- Why the episode was resolved. -/
  resolution_reason : Option EpisodeResolutionReason

/-- `InventoryLowPayload`. The typed payload, with numbers as the handlers read them. -/
structure InventoryLowPayload where
  /-- The ingredient. -/
  ingredient_id : ℕ
  /-- The opened episode. -/
  episode_id : UUID
  /-- The name of the ingredient. -/
  ingredient_name : String
  /-- The unit. -/
  unit : InventoryUnit
  /-- The quantity when the episode opened. -/
  opening_quantity : ℚ
  /-- The threshold when the episode opened. -/
  reorder_threshold : ℚ
  /-- When the episode opened. -/
  opened_at : Timestamp

/-- The payloads. There is one constructor for each event type. -/
inductive Payload
  | order_submitted (order_id : ℕ)
  | order_accepted (order_id : ℕ)
  | order_completed (order_id : ℕ) (total : ℚ) (created_at : Timestamp)
  | order_cancelled (order_id : ℕ)
  | order_deleted (order_id : ℕ) (prior_status : OrderStatus) (total : ℚ) (created_at : Timestamp)
  | menu_updated (operation : CatalogOperation) (target_type : CatalogTarget) (target_id : ℕ)
    (menu_id : ℕ) (affected_menu_item_ids : List ℕ)
  | inventory_state_changed (payload : InventoryStateChangedPayload)
  | inventory_low (payload : InventoryLowPayload)

namespace Payload

/-- The type of an event with the payload. -/
def event_type : Payload → EventType
  | order_submitted .. => .order_submitted
  | order_accepted .. => .order_accepted
  | order_completed .. => .order_completed
  | order_cancelled .. => .order_cancelled
  | order_deleted .. => .order_deleted
  | menu_updated .. => .menu_updated
  | inventory_state_changed .. => .inventory_state_changed
  | inventory_low .. => .inventory_low

/-- The type and the key of the aggregate. -/
def aggregate : Payload → String × ℕ
  | order_submitted id | order_accepted id | order_completed id _ _ | order_cancelled id
  | order_deleted id _ _ _ => ("order", id)
  | menu_updated _ target id _ _ => (target.value, id)
  | inventory_state_changed payload => ("ingredient", payload.ingredient_id)
  | inventory_low payload => ("ingredient", payload.ingredient_id)

/-- `_money_value`. It is at most the largest amount of a column, with two decimal places. -/
def money_value (value : ℚ) : Prop := 0 ≤ value ∧ value ≤ MAX_MONEY ∧ has_decimal_places 2 value

/-- `_quantity_value`. It is at most the largest quantity of a column, with three decimal places. -/
def quantity_value (value : ℚ) : Prop :=
  0 ≤ value ∧ value ≤ MAX_QUANTITY ∧ has_decimal_places 3 value

/-- The checks of the payload models. They are the bounds of the fields and the model validators. -/
def valid : Payload → Prop
  | order_submitted id | order_accepted id | order_cancelled id => 0 < id
  | order_completed id total _ => 0 < id ∧ money_value total
  | order_deleted id _ total _ => 0 < id ∧ money_value total
  | menu_updated _ _ target_id menu_id affected =>
    0 < target_id ∧ 0 < menu_id ∧ (∀ id ∈ affected, 0 < id) ∧ affected.Nodup
  | inventory_state_changed p =>
    0 < p.ingredient_id ∧ 1 ≤ p.ingredient_name.length ∧ p.ingredient_name.length ≤ 255 ∧
      quantity_value p.quantity ∧ quantity_value p.reorder_threshold ∧
      (p.is_low ↔ p.is_active ∧ p.quantity ≤ p.reorder_threshold) ∧
      (p.episode_transition = some .opened → p.is_low ∧ p.episode_id.isSome) ∧
      (if p.episode_transition = some .resolved then
        ¬ p.is_low ∧ p.episode_id.isSome ∧ p.resolution_reason.isSome
      else p.resolution_reason.isNone)
  | inventory_low p =>
    0 < p.ingredient_id ∧ 1 ≤ p.ingredient_name.length ∧ p.ingredient_name.length ≤ 255 ∧
      quantity_value p.opening_quantity ∧ quantity_value p.reorder_threshold ∧
      p.opening_quantity ≤ p.reorder_threshold

/-- Bounds are compared. -/
instance (value : ℚ) : Decidable (money_value value) := inferInstanceAs (Decidable (_ ∧ _))

/-- Bounds are compared. -/
instance (value : ℚ) : Decidable (quantity_value value) := inferInstanceAs (Decidable (_ ∧ _))

/-- Each model makes finitely many checks. -/
instance (payload : Payload) : Decidable payload.valid := by
  cases payload <;> unfold valid <;> infer_instance

end Payload

/-- The checks of `EventEnvelopeBase`. They are the bounds of the fields, with those of the payload.
-/
def envelope_valid (event : EventEnvelope Payload) : Prop :=
  0 < event.restaurant_id ∧ 1 ≤ event.aggregate_id.length ∧ event.aggregate_id.length ≤ 100 ∧
    1 ≤ event.aggregate_revision ∧ safe_identifier event.correlation_id = event.correlation_id ∧
      event.payload.valid

/-- The envelope makes finitely many checks. -/
instance (event : EventEnvelope Payload) : Decidable (envelope_valid event) :=
  inferInstanceAs (Decidable (_ ∧ _))

end RestaurantOS.Events
