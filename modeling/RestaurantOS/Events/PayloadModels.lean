import RestaurantOS.Events.Payloads
import RestaurantOS.Events.Validators

/-!
# The payload models

The eight payload models of the event contracts as they validate and as they are dumped to JSON. A
dumped model has every field, defaults included. Numbers keep the representation they were supplied
in, and the two creation times and the opening time are in UTC.
-/

namespace RestaurantOS.Events

open Inventory

/-- The operations of a catalog change, in the order of the source. -/
def CatalogOperation.all : List CatalogOperation := [.created, .edited, .deactivated, .deleted]

/-- The text of an operation. It is the value of the enumeration. -/
def CatalogOperation.value : CatalogOperation → String
  | .created => "created"
  | .edited => "edited"
  | .deactivated => "deactivated"
  | .deleted => "deleted"

/-- The targets of a catalog change, in the order of the source. -/
def CatalogTarget.all : List CatalogTarget := [.menu, .menu_item]

/-- The units, in the order of the source. -/
def units : List InventoryUnit := [.g, .ml, .piece]

/-- The boundaries of an episode, in the order of the source. -/
def transitions : List EpisodeTransitionKind := [.opened, .resolved]

/-- The text of a boundary. It is the value of the enumeration. -/
def transition_value : EpisodeTransitionKind → String
  | .opened => "opened"
  | .resolved => "resolved"

/-- The reasons of a resolution, in the order of the source. -/
def resolution_reasons : List EpisodeResolutionReason :=
  [.stock_recovered, .threshold_changed, .archived]

/-- The text of a reason. It is the value of the enumeration. -/
def resolution_reason_value : EpisodeResolutionReason → String
  | .stock_recovered => "stock_recovered"
  | .threshold_changed => "threshold_changed"
  | .archived => "archived"

namespace Contract

/-- `InventoryStateChangedPayload`. The values are as the validators return them, with numbers as
`Decimal`. -/
structure InventoryStateChangedPayload where
  /-- The ingredient. -/
  ingredient_id : ℤ
  /-- Its name. -/
  ingredient_name : String
  /-- Its unit. -/
  unit : InventoryUnit
  /-- The quantity on hand. -/
  quantity : Decimal
  /-- The threshold. -/
  reorder_threshold : Decimal
  /-- Whether the ingredient is active. -/
  is_active : Bool
  /-- Whether it is low. -/
  is_low : Bool
  /-- The current episode. -/
  episode_id : Option UUID
  /-- The boundary that was crossed. -/
  episode_transition : Option EpisodeTransitionKind
  /-- Why the episode was resolved. -/
  resolution_reason : Option EpisodeResolutionReason
  deriving DecidableEq

/-- `InventoryLowPayload`. The values are as the validators return them, with numbers as `Decimal`.
-/
structure InventoryLowPayload where
  /-- The ingredient. -/
  ingredient_id : ℤ
  /-- The opened episode. -/
  episode_id : UUID
  /-- The name of the ingredient. -/
  ingredient_name : String
  /-- The unit. -/
  unit : InventoryUnit
  /-- The quantity when the episode opened. -/
  opening_quantity : Decimal
  /-- The threshold when the episode opened. -/
  reorder_threshold : Decimal
  /-- When the episode opened. -/
  opened_at : UtcDatetime
  deriving DecidableEq

/-- A validated payload. The status of a submitted, accepted or cancelled order is always that of its
model. -/
inductive Payload
  | order_submitted (order_id : ℤ)
  | order_accepted (order_id : ℤ)
  | order_completed (order_id : ℤ) (total : Decimal) (created_at : UtcDatetime)
  | order_cancelled (order_id : ℤ)
  | order_deleted (order_id : ℤ) (prior_status : String) (total : Decimal) (created_at : UtcDatetime)
  | menu_updated (operation : CatalogOperation) (target_type : CatalogTarget) (target_id : ℤ)
      (menu_id : ℤ) (affected_menu_item_ids : List ℤ)
  | inventory_state_changed (payload : InventoryStateChangedPayload)
  | inventory_low (payload : InventoryLowPayload)
  deriving DecidableEq

/-- `a <= b` of two numbers. A comparison with `NaN` is false. -/
def decimal_le (a b : Decimal) : Bool :=
  match a.value, b.value with
  | some a, some b => decide (a ≤ b)
  | _, _ => false

/-! ## Validation -/

section Validate

open Validation

variable (py : Pydantic)

/-- `OrderSubmittedPayload`, `OrderAcceptedPayload` and `OrderCancelledPayload`: an order and the text
of its status, which may be left out. -/
def order_status_payload (status : String) (payload : ℤ → Payload) (fields : Fields) :
    Validation Payload :=
  (fun order_id _ _ => payload order_id)
    <$> field fields "order_id" (py.int_gt 0)
    <*> field_default fields "status" () (literal [()] fun _ => status)
    <*> extra_forbid fields ["order_id", "status"]

/-- `OrderSubmittedPayload`. The status must be the literal text. -/
def order_submitted_payload : Fields → Validation Payload :=
  order_status_payload py "SUBMITTED" .order_submitted

/-- `OrderAcceptedPayload`. The status must be the literal text. -/
def order_accepted_payload : Fields → Validation Payload :=
  order_status_payload py "ACCEPTED" .order_accepted

/-- `OrderCancelledPayload`. The status must be the literal text. -/
def order_cancelled_payload : Fields → Validation Payload :=
  order_status_payload py "CANCELLED" .order_cancelled

/-- `OrderCompletedPayload`. Total and creation time are those of the order. -/
def order_completed_payload (fields : Fields) : Validation Payload :=
  (fun order_id total created_at _ => .order_completed order_id total created_at)
    <$> field fields "order_id" (py.int_gt 0)
    <*> field fields "total" py.money_string
    <*> field fields "created_at" py.creation_time
    <*> extra_forbid fields ["order_id", "total", "created_at"]

/-- `OrderDeletedPayload`. The status before the deletion is any text of at most 50 characters. -/
def order_deleted_payload (fields : Fields) : Validation Payload :=
  (fun order_id prior_status total created_at _ =>
      .order_deleted order_id prior_status total created_at)
    <$> field fields "order_id" (py.int_gt 0)
    <*> field fields "prior_status" (fun value => (string value).after (text_length 1 50))
    <*> field fields "total" py.money_string
    <*> field fields "created_at" py.creation_time
    <*> extra_forbid fields ["order_id", "prior_status", "total", "created_at"]

/-- `validate_affected_ids`. They are positive and different. -/
def validate_affected_ids (values : List ℤ) : Validation (List ℤ) :=
  check ((∀ value ∈ values, 0 < value) ∧ values.Nodup) values

/-- `MenuUpdatedPayload`. The affected items default to none. -/
def menu_updated_payload (fields : Fields) : Validation Payload :=
  (fun operation target_type target_id menu_id affected_menu_item_ids _ =>
      .menu_updated operation target_type target_id menu_id affected_menu_item_ids)
    <$> field fields "operation" (literal CatalogOperation.all CatalogOperation.value)
    <*> field fields "target_type" (literal CatalogTarget.all CatalogTarget.value)
    <*> field fields "target_id" (py.int_gt 0)
    <*> field fields "menu_id" (py.int_gt 0)
    <*> field_default fields "affected_menu_item_ids" []
        (fun value => (py.int_tuple value).after validate_affected_ids)
    <*> extra_forbid fields
        ["operation", "target_type", "target_id", "menu_id", "affected_menu_item_ids"]

/-- `validate_state_and_episode`. It is checked after the fields, as a model validator. -/
def validate_state_and_episode (p : InventoryStateChangedPayload) : Prop :=
  p.is_low = (p.is_active && decimal_le p.quantity p.reorder_threshold) ∧
    ¬ (p.episode_transition = some .opened ∧ (p.is_low = false ∨ p.episode_id = none)) ∧
    (if p.episode_transition = some .resolved then
      p.is_low = false ∧ ¬ (p.episode_id = none ∨ p.resolution_reason = none)
    else p.resolution_reason = none)

/-- The fields are compared. -/
instance (p : InventoryStateChangedPayload) : Decidable (validate_state_and_episode p) :=
  inferInstanceAs (Decidable (_ ∧ _))

/-- `InventoryStateChangedPayload`. The model validator runs on the fields that have passed. -/
def inventory_state_changed_payload (fields : Fields) : Validation Payload :=
  ((fun ingredient_id ingredient_name unit quantity reorder_threshold is_active is_low episode_id
        episode_transition resolution_reason _ =>
      (⟨ingredient_id, ingredient_name, unit, quantity, reorder_threshold, is_active, is_low,
        episode_id, episode_transition, resolution_reason⟩ : InventoryStateChangedPayload))
    <$> field fields "ingredient_id" (py.int_gt 0)
    <*> field fields "ingredient_name" (fun value => (string value).after (text_length 1 255))
    <*> field fields "unit" (literal units InventoryUnit.value)
    <*> field fields "quantity" py.quantity_string
    <*> field fields "reorder_threshold" py.quantity_string
    <*> field fields "is_active" (fun value => of_option (py.bool value))
    <*> field fields "is_low" (fun value => of_option (py.bool value))
    <*> field_default fields "episode_id" none (nullable fun value => of_option (py.uuid value))
    <*> field_default fields "episode_transition" none
        (nullable (literal transitions transition_value))
    <*> field_default fields "resolution_reason" none
        (nullable (literal resolution_reasons resolution_reason_value))
    <*> extra_forbid fields
        ["ingredient_id", "ingredient_name", "unit", "quantity", "reorder_threshold", "is_active",
          "is_low", "episode_id", "episode_transition", "resolution_reason"]).after
  fun p => check (validate_state_and_episode p) (.inventory_state_changed p)

/-- `InventoryLowPayload`, with `validate_opening_state`. The opening quantity is at or below the
threshold. -/
def inventory_low_payload (fields : Fields) : Validation Payload :=
  ((fun ingredient_id episode_id ingredient_name unit opening_quantity reorder_threshold opened_at _ =>
      (⟨ingredient_id, episode_id, ingredient_name, unit, opening_quantity, reorder_threshold,
        opened_at⟩ : InventoryLowPayload))
    <$> field fields "ingredient_id" (py.int_gt 0)
    <*> field fields "episode_id" (fun value => of_option (py.uuid value))
    <*> field fields "ingredient_name" (fun value => (string value).after (text_length 1 255))
    <*> field fields "unit" (literal units InventoryUnit.value)
    <*> field fields "opening_quantity" py.quantity_string
    <*> field fields "reorder_threshold" py.quantity_string
    <*> field fields "opened_at" py.utc_time
    <*> extra_forbid fields
        ["ingredient_id", "episode_id", "ingredient_name", "unit", "opening_quantity",
          "reorder_threshold", "opened_at"]).after
  fun p => check (decimal_le p.opening_quantity p.reorder_threshold) (.inventory_low p)

/-- The payload model of each event type. It is what `deserialize_event` chooses by the type and the
version. -/
def payload_model : EventType → Fields → Validation Payload
  | .order_submitted => order_submitted_payload py
  | .order_accepted => order_accepted_payload py
  | .order_completed => order_completed_payload py
  | .order_cancelled => order_cancelled_payload py
  | .order_deleted => order_deleted_payload py
  | .menu_updated => menu_updated_payload py
  | .inventory_state_changed => inventory_state_changed_payload py
  | .inventory_low => inventory_low_payload py

end Validate

/-! ## Dumps -/

namespace Payload

variable (py : Pydantic)

/-- The type of an event with the payload. -/
def event_type : Payload → EventType
  | order_submitted .. => .order_submitted
  | order_accepted .. => .order_accepted
  | order_completed .. => .order_completed
  | order_cancelled .. => .order_cancelled
  | order_deleted .. => .order_deleted
  | menu_updated .. => .menu_updated
  | inventory_state_changed .. => .inventory_state_changed
  | inventory_low .. => .inventory_low

/-- The type and the key of the aggregate that `identity_matches_payload` demands. -/
def aggregate : Payload → String × ℤ
  | order_submitted id | order_accepted id | order_completed id _ _ | order_cancelled id
  | order_deleted id _ _ _ => ("order", id)
  | menu_updated _ target id _ _ => (target.value, id)
  | inventory_state_changed payload => ("ingredient", payload.ingredient_id)
  | inventory_low payload => ("ingredient", payload.ingredient_id)

/-- A `DecimalString` in JSON. It is written without an exponent. -/
def dump_decimal (value : Decimal) : Value := .str value.format_f

/-- An optional value in JSON. `None` becomes `null`. -/
def dump_optional {α : Type} (dump : α → Value) : Option α → Value
  | some value => dump value
  | none => .none

/-- The payload part of `json.loads(event.model_dump_json())`. The texts of the numbers are those of
the validated values. -/
def dump : Payload → Fields
  | order_submitted id => [("order_id", .int id), ("status", .str "SUBMITTED")]
  | order_accepted id => [("order_id", .int id), ("status", .str "ACCEPTED")]
  | order_completed id total created_at =>
    [("order_id", .int id), ("total", dump_decimal total),
      ("created_at", .str (IsoTime.iso_text created_at))]
  | order_cancelled id => [("order_id", .int id), ("status", .str "CANCELLED")]
  | order_deleted id prior_status total created_at =>
    [("order_id", .int id), ("prior_status", .str prior_status), ("total", dump_decimal total),
      ("created_at", .str (IsoTime.iso_text created_at))]
  | menu_updated operation target_type target_id menu_id affected =>
    [("operation", .str operation.value), ("target_type", .str target_type.value),
      ("target_id", .int target_id), ("menu_id", .int menu_id),
      ("affected_menu_item_ids", .list (affected.map .int))]
  | inventory_state_changed p =>
    [("ingredient_id", .int p.ingredient_id), ("ingredient_name", .str p.ingredient_name),
      ("unit", .str p.unit.value), ("quantity", dump_decimal p.quantity),
      ("reorder_threshold", dump_decimal p.reorder_threshold), ("is_active", .bool p.is_active),
      ("is_low", .bool p.is_low),
      ("episode_id", dump_optional (fun id => .str (py.str_uuid id)) p.episode_id),
      ("episode_transition", dump_optional (fun t => .str (transition_value t)) p.episode_transition),
      ("resolution_reason",
        dump_optional (fun r => .str (resolution_reason_value r)) p.resolution_reason)]
  | inventory_low p =>
    [("ingredient_id", .int p.ingredient_id), ("episode_id", .str (py.str_uuid p.episode_id)),
      ("ingredient_name", .str p.ingredient_name), ("unit", .str p.unit.value),
      ("opening_quantity", dump_decimal p.opening_quantity),
      ("reorder_threshold", dump_decimal p.reorder_threshold),
      ("opened_at", .str (IsoTime.iso_text p.opened_at))]

end Payload

end Contract

end RestaurantOS.Events
