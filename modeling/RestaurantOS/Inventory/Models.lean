import RestaurantOS.Core.Decimal
import RestaurantOS.Core.Time

/-!
# Inventory rows

The rows of the inventory tables. The balance, the movements and the low-stock episodes of an
ingredient refer to it and are never moved to another one, so they are kept with it in an
`IngredientRecord`, movements and episodes in the order in which they are inserted. Versions and
revisions are natural numbers: an increment beyond their column fails, like any storage error.
-/

namespace RestaurantOS.Inventory

open Fallible

/-- The base units. Quantities are counted in these. -/
inductive InventoryUnit
  | g
  | ml
  | piece
  deriving DecidableEq, Repr

/-- The text of a unit. It is the value of the enumeration. -/
def InventoryUnit.value : InventoryUnit → String
  | .g => "g"
  | .ml => "ml"
  | .piece => "piece"

/-- The unit with a given text. Any other text is no unit. -/
def InventoryUnit.parse (text : String) : Option InventoryUnit :=
  [g, ml, piece].find? fun unit => unit.value = text

/-- The kinds of movements. An order posts the last kind, and clients the others. -/
inductive MovementKind
  | opening
  | receipt
  | waste
  | count
  | consumption
  deriving DecidableEq, Repr

/-- `EpisodeResolutionReason`. It is given exactly when an episode is resolved. -/
inductive EpisodeResolutionReason
  | stock_recovered
  | threshold_changed
  | archived
  deriving DecidableEq, Repr

/-- `InventoryTransitionSource`. It says which use case has changed the state. -/
inductive InventoryTransitionSource
  | ingredient_creation
  | ingredient_update
  | stock_command
  | order_acceptance
  | maintenance_initialization
  deriving DecidableEq, Repr

/-- The two boundaries of an episode. They are what an event of the ingredient may announce. -/
inductive EpisodeTransitionKind
  | opened
  | resolved
  deriving DecidableEq, Repr

/-- A row of `inventory_ingredients`. Its unit and threshold are those of the next movement. -/
structure Ingredient where
  /-- The primary key. -/
  id : ℕ
  /-- The name. -/
  name : String
  /-- The case-folded name. -/
  normalized_name : String
  /-- The base unit. -/
  unit : InventoryUnit
  /-- At or below this quantity the ingredient is low. -/
  reorder_threshold : ℚ
  /-- Whether the ingredient is in use. -/
  is_active : Bool
  /-- The revision of quantity, threshold and activity. -/
  state_revision : ℕ

/-- A row of `inventory_balances`. It is written with every movement, under the lock of the
restaurant. -/
structure InventoryBalance where
  /-- The quantity on hand. -/
  quantity : ℚ
  /-- The number of the last movement. -/
  version : ℕ

/-- A row of `inventory_movements`. It is never changed or deleted afterwards. -/
structure InventoryMovement where
  /-- The kind. -/
  kind : MovementKind
  /-- By how much the quantity changes. -/
  quantity_delta : ℚ
  /-- The quantity afterwards. -/
  balance_after : ℚ
  /-- The version of the balance afterwards. -/
  version_after : ℕ
  /-- Who made it. -/
  actor_user_id : Option UUID
  /-- The order that consumed the quantity. -/
  order_id : Option ℕ
  /-- The stated reason. -/
  reason : String
  /-- The key of the request. -/
  idempotency_key : Option String
  /-- The fingerprint of the request. -/
  request_fingerprint : Option String
  /-- When it was made. -/
  occurred_at : Timestamp

/-- A row of `inventory_low_stock_episodes`. The closing columns are empty until the episode is
resolved. -/
structure InventoryLowStockEpisode where
  /-- The primary key. -/
  episode_id : UUID
  /-- The organization. -/
  organization_id : UUID
  /-- The restaurant. -/
  restaurant_id : ℕ
  /-- The ingredient. -/
  ingredient_id : ℕ
  /-- Its name when the episode opened. -/
  ingredient_name : String
  /-- Its unit when the episode opened. -/
  unit : InventoryUnit
  /-- The quantity when the episode opened. -/
  opening_quantity : ℚ
  /-- The threshold when the episode opened. -/
  opening_reorder_threshold : ℚ
  /-- When it opened. -/
  opened_at : Timestamp
  /-- The first revision of the episode. -/
  opening_revision : ℕ
  /-- What opened it. -/
  opening_source : InventoryTransitionSource
  /-- Who opened it. -/
  opening_actor_user_id : Option UUID
  /-- The order that opened it. -/
  opening_order_id : Option ℕ
  /-- Whether it is a baseline, about which nobody is notified. -/
  notification_suppressed : Bool
  /-- When it was resolved. -/
  resolved_at : Option Timestamp := none
  /-- Why it was resolved. -/
  resolution_reason : Option EpisodeResolutionReason := none
  /-- The quantity when it was resolved. -/
  closing_quantity : Option ℚ := none
  /-- The threshold when it was resolved. -/
  closing_reorder_threshold : Option ℚ := none
  /-- Whether the ingredient was active when it was resolved. -/
  closing_is_active : Option Bool := none
  /-- The first revision after the episode. -/
  resolution_revision : Option ℕ := none
  /-- What resolved it. -/
  resolution_source : Option InventoryTransitionSource := none
  /-- Who resolved it. -/
  resolution_actor_user_id : Option UUID := none
  /-- The order that resolved it. -/
  resolution_order_id : Option ℕ := none
  deriving DecidableEq

/-- An ingredient with the rows that belong to it. -/
structure IngredientRecord where
  /-- The ingredient. -/
  item : Ingredient
  /-- Its balance; an ingredient of the legacy database may have none. -/
  balance : Option InventoryBalance
  /-- Its movements, the oldest first. -/
  movements : List InventoryMovement
  /-- Its episodes, the oldest first. -/
  episodes : List InventoryLowStockEpisode

/-- The key of a record is that of its ingredient. -/
def IngredientRecord.id (record : IngredientRecord) : ℕ := record.item.id

/-- `open_episode`: the unresolved episode. There is at most one in every reachable state. -/
def IngredientRecord.open_episode (record : IngredientRecord) : Option InventoryLowStockEpisode :=
  record.episodes.find? fun episode => episode.resolved_at.isNone

/-- `MAX_QUANTITY`. It is the largest quantity that the columns hold. -/
def MAX_QUANTITY : ℚ := 999999999999 / 1000

/-- `quantity`: the number of a valid quantity. Whoever requires a positive one also excludes zero.
-/
def quantity (value : Decimal) (positive : Bool := false) : Except Failure ℚ :=
  let failure : Failure := .ValidationError
    "Quantity must be finite, nonnegative, at most 999999999.999, with at most three decimal places"
  match value.value with
  | none => throw failure
  | some number => do
    ensure (0 ≤ number ∧ number ≤ MAX_QUANTITY ∧ has_decimal_places 3 number ∧
      ¬ (positive ∧ number = 0)) failure
    pure number

/-- A valid quantity is in range. Where a positive one is asked for, it is not zero. -/
theorem quantity_ok {value : Decimal} {positive : Bool} {number : ℚ}
    (h : quantity value positive = .ok number) :
    0 ≤ number ∧ number ≤ MAX_QUANTITY ∧ (positive = true → 0 < number) := by
  unfold quantity at h
  cases hvalue : value.value with
  | none => simp [hvalue] at h
  | some number' =>
    simp only [hvalue] at h
    obtain ⟨u, hensure, hpure⟩ := bind_eq_ok.mp h
    obtain rfl := pure_eq_ok.mp hpure
    obtain ⟨hnonneg, hmax, -, hpositive⟩ := ensure_eq_ok.mp hensure
    refine ⟨hnonneg, hmax, fun hp => lt_of_le_of_ne hnonneg fun hzero => hpositive ⟨hp, hzero.symm⟩⟩

/-- A valid quantity is the number of its text. So it is a finite number, and not `NaN` or infinite.
-/
theorem quantity_value {value : Decimal} {positive : Bool} {number : ℚ}
    (h : quantity value positive = .ok number) : value.value = some number := by
  unfold quantity at h
  cases hvalue : value.value with
  | none => simp [hvalue] at h
  | some number' =>
    simp only [hvalue] at h
    obtain ⟨_, -, h⟩ := bind_eq_ok.mp h
    rw [pure_eq_ok.mp h]

/-- `CreateIngredient`. The fields of the command as the service receives it. -/
structure CreateIngredient where
  /-- The name. -/
  name : String
  /-- The unit, as text. -/
  unit : String
  /-- The threshold. -/
  reorder_threshold : Decimal
  /-- The opening stock. -/
  opening_quantity : Decimal
  /-- The key of the request. -/
  idempotency_key : String

/-- `UpdateIngredient`. All fields are required, and the stock is not changed. -/
structure UpdateIngredient where
  /-- The new name. -/
  name : String
  /-- The new unit, as text. -/
  unit : String
  /-- The new threshold. -/
  reorder_threshold : Decimal
  /-- Whether the ingredient is in use. -/
  is_active : Bool

/-- `ChangeStock`. The version is required for a count and for no other kind. -/
structure ChangeStock where
  /-- The kind of the change, as text. -/
  kind : String
  /-- The received, wasted or counted quantity. -/
  quantity : Decimal
  /-- The stated reason. -/
  reason : String
  /-- The version of the balance that was counted. -/
  expected_version : Option ℤ
  /-- The key of the request. -/
  idempotency_key : String

/-- `IngredientView`. What the interface shows of an ingredient with its balance. -/
structure IngredientView where
  /-- The ingredient. -/
  id : ℕ
  /-- The restaurant. -/
  restaurant_id : ℕ
  /-- The name. -/
  name : String
  /-- The unit. -/
  unit : InventoryUnit
  /-- The threshold. -/
  reorder_threshold : ℚ
  /-- Whether the ingredient is in use. -/
  is_active : Bool
  /-- The quantity on hand. -/
  quantity : ℚ
  /-- The version of the balance. -/
  version : ℕ
  /-- Whether the ingredient is low. -/
  low_stock : Bool

end RestaurantOS.Inventory
