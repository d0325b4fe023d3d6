import RestaurantOS.Branch

/-!
# The inventory service

The write transactions of the inventory: creating and updating an ingredient, changing its stock,
and recording the revision and the low-stock episode of every change.
-/

namespace RestaurantOS

open Fallible Events Inventory Orders Tenancy

namespace Inventory

/-- `inventory_state_snapshot`. It copies what the events tell, with the revision of the state. -/
def inventory_state_snapshot (organization_id : UUID) (restaurant_id : ℕ) (item : Ingredient)
    (balance : InventoryBalance) : InventoryStateSnapshot :=
  { organization_id := organization_id, restaurant_id := restaurant_id, ingredient_id := item.id,
    state_revision := item.state_revision, ingredient_name := item.name, unit := item.unit,
    quantity := balance.quantity, reorder_threshold := item.reorder_threshold,
    is_active := item.is_active }

/-- The episodes of an ingredient after a change of its state, the current one, and the boundary
that was crossed. -/
structure Boundary where
  /-- All episodes of the ingredient. -/
  episodes : List InventoryLowStockEpisode
  /-- The current episode. -/
  episode : Option InventoryLowStockEpisode
  /-- The boundary. -/
  fact : Option InventoryEpisodeTransition

/-- The opening of an episode. The columns of the resolution are empty. -/
def opening_facts (state : InventoryStateSnapshot) (episode_id : UUID) (opened_at : Timestamp)
    (source : InventoryTransitionSource) (actor_user_id : Option UUID) (order_id : Option ℕ)
    (notification_suppressed : Bool) : InventoryLowStockEpisode :=
  { episode_id := episode_id, organization_id := state.organization_id,
    restaurant_id := state.restaurant_id, ingredient_id := state.ingredient_id,
    ingredient_name := state.ingredient_name, unit := state.unit,
    opening_quantity := state.quantity, opening_reorder_threshold := state.reorder_threshold,
    opened_at := opened_at, opening_revision := state.state_revision, opening_source := source,
    opening_actor_user_id := actor_user_id, opening_order_id := order_id,
    notification_suppressed := notification_suppressed }

/-- The resolution of an episode. The columns of the opening stay as they are. -/
def closing_facts (episode : InventoryLowStockEpisode) (state : InventoryStateSnapshot)
    (resolved_at : Timestamp) (reason : EpisodeResolutionReason)
    (source : InventoryTransitionSource) (actor_user_id : Option UUID) (order_id : Option ℕ) :
    InventoryLowStockEpisode :=
  { episode with
    resolved_at := some resolved_at
    resolution_reason := some reason
    closing_quantity := some state.quantity
    closing_reorder_threshold := some state.reorder_threshold
    closing_is_active := some state.is_active
    resolution_revision := some state.state_revision
    resolution_source := some source
    resolution_actor_user_id := actor_user_id
    resolution_order_id := order_id }

/-- The part of `record_inventory_transition` that opens or resolves an episode. `after` is the
state with its new revision, and `episode_id` is fresh. -/
def cross_boundary (episodes : List InventoryLowStockEpisode)
    (episode : Option InventoryLowStockEpisode) (before : Option InventoryStateSnapshot)
    (after : InventoryStateSnapshot) (episode_id : UUID) (timestamp : Timestamp)
    (source : InventoryTransitionSource) (actor_user_id : Option UUID) (order_id : Option ℕ) :
    Except Failure Boundary :=
  match low_episode_transition before after with
  | some .opened => do
    ensure (episode.isNone = true)
      (.RuntimeError "normal inventory state has an unresolved low episode")
    let opened := opening_facts after episode_id timestamp source actor_user_id order_id false
    let fact ← episode_transition episode_id .opened timestamp none
    pure ⟨episodes ++ [opened], some opened, some fact⟩
  | some .resolved =>
    match before, episode with
    | some before, some episode => do
      let reason ← episode_resolution_reason before after
      let closed := closing_facts episode after timestamp reason source actor_user_id order_id
      let fact ← episode_transition episode.episode_id .resolved timestamp (some reason)
      pure ⟨Keyed.put InventoryLowStockEpisode.episode_id closed episodes, some closed, some fact⟩
    | _, _ => pure ⟨episodes, episode, none⟩
  | none => pure ⟨episodes, episode, none⟩

/-- The payload of `inventory.state_changed.v1`. It tells the state after the change and the
boundary that was crossed, if any. -/
def state_changed_payload (transition : InventoryTransition) : Payload :=
  .inventory_state_changed
    { ingredient_id := transition.state.ingredient_id,
      ingredient_name := transition.state.ingredient_name, unit := transition.state.unit,
      quantity := transition.state.quantity,
      reorder_threshold := transition.state.reorder_threshold,
      is_active := transition.state.is_active, is_low := transition.state.is_low,
      episode_id := transition.episode_id,
      episode_transition := transition.episode_transition.map (·.kind),
      resolution_reason := transition.episode_transition.bind (·.resolution_reason) }

/-- The payload of `inventory.low.v1`. It tells the facts of the opening. -/
def low_payload (facts : InventoryEpisodeFacts) : Payload :=
  .inventory_low
    { ingredient_id := facts.episode.ingredient_id, episode_id := facts.episode.episode_id,
      ingredient_name := facts.episode.ingredient_name, unit := facts.episode.unit,
      opening_quantity := facts.episode.opening_quantity,
      reorder_threshold := facts.episode.opening_reorder_threshold,
      opened_at := facts.episode.opened_at }

/-- The event of an opened episode. Any other boundary emits nothing here. -/
def append_low (db : Branch) (draw : Draw) (organization_id : UUID) (boundary : Boundary)
    (transition : InventoryTransition) : Except Failure Branch :=
  if boundary.fact.map (·.kind) = some .opened then
    match transition.episode_facts with
    | some facts =>
      db.append draw organization_id facts.episode.opening_revision (low_payload facts)
    | none => throw (.RuntimeError "AssertionError")
  else pure db

/-- The new revision of a changed state. The first state has revision one, unless the row has a
greater one. -/
def next_state_revision (item : Ingredient) (before : Option InventoryStateSnapshot) :
    Except Failure ℕ :=
  match before with
  | none => pure (max 1 item.state_revision)
  | some before => do
    ensure (item.state_revision = before.state_revision)
      (.RuntimeError "inventory state revision changed outside its lock")
    pure (before.state_revision + 1)

/-- `record_inventory_transition`: the record with its new item, balance and movements is written,
and if the state has changed, its revision, its episode and the events are recorded. -/
def record_inventory_transition (db : Branch) (draw : Draw) (organization_id : UUID)
    (record : IngredientRecord) (balance : InventoryBalance)
    (before : Option InventoryStateSnapshot) (source : InventoryTransitionSource)
    (actor_user_id : Option UUID) (order_id : Option ℕ) : Except Failure Branch := do
  let after := inventory_state_snapshot organization_id db.restaurant_id record.item balance
  if inventory_state_changed before after then
    let state_revision ← next_state_revision record.item before
    let after := { after with state_revision := state_revision }
    let boundary ← cross_boundary record.episodes record.open_episode before after db.next_uuid
      (draw.now record.id) source actor_user_id order_id
    let transition ← transition_snapshot after boundary.episode boundary.fact
    let db := { db with next_uuid := db.next_uuid + 1 }.put
      { item := { record.item with state_revision := state_revision }, balance := some balance,
        movements := record.movements, episodes := boundary.episodes }
    let db ← db.append draw organization_id state_revision (state_changed_payload transition)
    append_low db draw organization_id boundary transition
  else pure (db.put { record with balance := some balance })

/-- `record_baseline_inventory_episode` on the record of an ingredient: a low ingredient without an
open episode gets a suppressed one. -/
def record_baseline_inventory_episode (db : Branch) (organization_id : UUID)
    (ingredient_id : ℕ) (observed_at : Timestamp) : Except Failure Branch := do
  let (record, balance) ← db.ingredient ingredient_id
  let state := inventory_state_snapshot organization_id db.restaurant_id record.item balance
  let episode := record.open_episode
  if episode.isNone ∧ state.is_low then
    let opened := opening_facts state db.next_uuid observed_at .maintenance_initialization none none
      true
    let _ ← transition_snapshot state (some opened) none
    pure ({ db with next_uuid := db.next_uuid + 1 }.put
      { record with episodes := record.episodes ++ [opened] })
  else
    let _ ← transition_snapshot state episode none
    pure db

/-- `load_inventory_state`, for a record with a balance. No boundary is crossed, so the facts are
those of the open episode. -/
def load_state (db : Branch) (organization_id : UUID) (record : IngredientRecord)
    (balance : InventoryBalance) : Except Failure InventoryTransition :=
  transition_snapshot
    (inventory_state_snapshot organization_id db.restaurant_id record.item balance)
    record.open_episode none

/-- `load_inventory_restaurant_states`. Ingredients without a balance are left out. -/
def load_inventory_restaurant_states (db : Branch) (organization_id : UUID) :
    Except Failure (List InventoryTransition) :=
  (db.ingredients.filterMap fun record => record.balance.map fun balance => (record, balance)).mapM
    fun (record, balance) => load_state db organization_id record balance

/-- `response`. Whether the stock is low is computed from the row and the balance. -/
def response (db : Branch) (item : Ingredient) (balance : InventoryBalance) : IngredientView :=
  { id := item.id, restaurant_id := db.restaurant_id, name := item.name, unit := item.unit,
    reorder_threshold := item.reorder_threshold, is_active := item.is_active,
    quantity := balance.quantity, version := balance.version,
    low_stock := item.is_active && decide (balance.quantity ≤ item.reorder_threshold) }

/-- `validate_ingredient`: the unit of a valid ingredient. The name has no blanks at its ends, is
not empty and fits its columns. -/
def validate_ingredient (text : Text) (name unit : String) : Except Failure InventoryUnit :=
  let failure : Failure :=
    .ValidationError "Valid ingredient name and base unit are required"
  match InventoryUnit.parse unit with
  | none => throw failure
  | some unit => do
    ensure (name = text.strip name ∧ name ≠ "" ∧ name.length ≤ 255 ∧
      (text.casefold name).length ≤ 765) failure
    pure unit

/-- `InventoryRepository.duplicate`: another ingredient has the name. Names are compared in their
normal form. -/
def duplicate (db : Branch) (normalized_name : String) (exclude : ℕ) : Bool :=
  db.ingredients.any fun record =>
    record.item.normalized_name = normalized_name && record.id ≠ exclude

/-- `InventoryRepository.replay` of an opening: the ingredient that a creation with the key has
inserted, with its opening movement. -/
def replay_opening (db : Branch) (key : String) : Option (IngredientRecord × InventoryMovement) :=
  db.ingredients.findSome? fun record =>
    (record.movements.find? fun movement =>
      movement.kind = .opening ∧ movement.idempotency_key = some key).map fun movement =>
        (record, movement)

/-- `InventoryRepository.replay` of a change of an ingredient. It is the movement that the same key
has posted before. -/
def replay_change (record : IngredientRecord) (key : String) : Option InventoryMovement :=
  record.movements.find? fun movement => movement.idempotency_key = some key

end Inventory

namespace InventoryService

/-- `prepare`: the restaurant is visible and the capability granted. -/
def prepare (db : Branch) (context : AccessContext) (capability : Capability) :
    Except Failure Unit := do
  db.restaurant context
  context.require capability

/-- `InventoryService.create`. The same key with the same request returns what it has created. -/
def create (lib : Library) (context : AccessContext) (data : CreateIngredient) (draw : Draw)
    (db : Branch) : Except Failure (Branch × IngredientView) := do
  prepare db context .inventory_manage
  let unit ← validate_ingredient lib.toText data.name data.unit
  let opening ← quantity data.opening_quantity
  let threshold ← quantity data.reorder_threshold
  ensure (valid_key data.idempotency_key) (.ValidationError "Invalid idempotency key")
  let signature := lib.fingerprint (.create data.name data.unit threshold opening)
  match replay_opening db data.idempotency_key with
  | some (record, replay) =>
    ensure (replay.request_fingerprint = some signature)
      (.ConflictError "Idempotency key was already used for a different request")
    let (record, balance) ← db.ingredient record.id
    pure (db, response db record.item balance)
  | none =>
    ensure (duplicate db (lib.casefold data.name) 0 = false)
      (.ConflictError "An ingredient with this name already exists")
    let id := db.next_ingredient_id + draw.gap
    -- A sequence that has run out fails the insertion.
    ensure (id ≤ MAX_INTEGER) .DatabaseError
    let item : Ingredient :=
      { id := id, name := data.name, normalized_name := lib.casefold data.name, unit := unit,
        reorder_threshold := threshold, is_active := true, state_revision := 1 }
    let balance : InventoryBalance := ⟨opening, 1⟩
    let movement : InventoryMovement :=
      { kind := .opening, quantity_delta := opening, balance_after := opening, version_after := 1,
        actor_user_id := some context.user_id, order_id := none, reason := "Opening stock",
        idempotency_key := some data.idempotency_key, request_fingerprint := some signature,
        occurred_at := draw.now id }
    let record : IngredientRecord := ⟨item, some balance, [movement], []⟩
    let db := { db with
      ingredients := db.ingredients ++ [record]
      next_ingredient_id := id + 1 }
    let db ← record_inventory_transition db draw context.organization_id record balance none
      .ingredient_creation (some context.user_id) none
    pure (db, response db item balance)

/-- `InventoryService.update`. The unit cannot change once there are movements. -/
def update (lib : Library) (context : AccessContext) (ingredient_id : ℕ) (data : UpdateIngredient)
    (draw : Draw) (db : Branch) : Except Failure (Branch × IngredientView) := do
  prepare db context .inventory_manage
  let (record, balance) ← db.ingredient ingredient_id
  let unit ← validate_ingredient lib.toText data.name data.unit
  ensure (duplicate db (lib.casefold data.name) ingredient_id = false)
    (.ConflictError "An ingredient with this name already exists")
  ensure (record.item.unit = unit ∨ record.movements = [])
    (.ConflictError "Unit cannot change after stock history exists")
  ensure (data.is_active = true ∨ balance.quantity ≤ 0)
    (.ConflictError "Record remaining stock as waste or count it to zero before archiving")
  let before := inventory_state_snapshot context.organization_id db.restaurant_id record.item balance
  let threshold ← quantity data.reorder_threshold
  let item := { record.item with
    name := data.name
    normalized_name := lib.casefold data.name
    unit := unit
    reorder_threshold := threshold
    is_active := data.is_active }
  let db ← record_inventory_transition db draw context.organization_id { record with item := item }
    balance (some before) .ingredient_update (some context.user_id) none
  pure (db, response db item balance)

/-- The kind of a stock change with a given text. -/
def stock_kind (kind : String) : Option MovementKind :=
  if kind = "receipt" then some .receipt
  else if kind = "waste" then some .waste
  else if kind = "count" then some .count
  else none

/-- The change of the quantity that a stock change asks for. -/
def stock_delta (kind : MovementKind) (amount : ℚ) (expected_version : Option ℤ)
    (balance : InventoryBalance) : Except Failure ℚ :=
  match kind with
  | .count => do
    ensure (expected_version = some (balance.version : ℤ))
      (.ConflictError "Stock changed since this count began. Refresh and count again")
    pure (amount - balance.quantity)
  | .receipt => pure amount
  | _ => pure (-amount)

/-- `InventoryService.change`. The same key with the same request returns the movement it has
posted. -/
def change (lib : Library) (context : AccessContext) (ingredient_id : ℕ) (data : ChangeStock)
    (draw : Draw) (db : Branch) : Except Failure (Branch × InventoryMovement) := do
  prepare db context .inventory_manage
  let (record, balance) ← db.ingredient ingredient_id
  match stock_kind data.kind with
  | none => throw (.ValidationError "Valid stock action and reason are required")
  | some kind =>
    ensure (lib.strip data.reason ≠ "" ∧ data.reason.length ≤ 500)
      (.ValidationError "Valid stock action and reason are required")
    let amount ← quantity data.quantity (kind ≠ .count)
    ensure (¬ (kind = .count ∧ data.expected_version = none))
      (.ValidationError "Physical counts require the stock version")
    ensure (valid_key data.idempotency_key) (.ValidationError "Invalid idempotency key")
    let signature :=
      lib.fingerprint (.change data.kind amount data.reason data.expected_version)
    match replay_change record data.idempotency_key with
    | some replay =>
      ensure (replay.request_fingerprint = some signature)
        (.ConflictError "Idempotency key was already used for a different request")
      pure (db, replay)
    | none =>
      ensure (record.item.is_active = true)
        (.ConflictError "Restore this ingredient before changing stock")
      let delta ← stock_delta kind amount data.expected_version balance
      let after := balance.quantity + delta
      ensure (0 ≤ after) (.ConflictError "Insufficient stock")
      -- `quantity(after)`.
      ensure (after ≤ MAX_QUANTITY ∧ has_decimal_places 3 after) (.ValidationError
        "Quantity must be finite, nonnegative, at most 999999999.999, with at most three decimal places")
      let before :=
        inventory_state_snapshot context.organization_id db.restaurant_id record.item balance
      let movement : InventoryMovement :=
        { kind := kind, quantity_delta := delta, balance_after := after,
          version_after := balance.version + 1, actor_user_id := some context.user_id,
          order_id := none, reason := data.reason, idempotency_key := some data.idempotency_key,
          request_fingerprint := some signature, occurred_at := draw.now record.id }
      let db ← record_inventory_transition db draw context.organization_id
        { record with movements := record.movements ++ [movement] } ⟨after, balance.version + 1⟩
        (some before) .stock_command (some context.user_id) none
      pure (db, movement)

end InventoryService

end RestaurantOS
