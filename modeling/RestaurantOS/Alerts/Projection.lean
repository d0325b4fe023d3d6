import RestaurantOS.Inventory.EpisodeEvents
import RestaurantOS.Lib.RowSums

/-!
# The alert projection

The alert consumer (`alerts/service.py`) keeps a copy of the episodes of a restaurant, and for each
ingredient the state that was live when an event about it was last processed. An event only names
what has to be looked at: the facts are read from the inventory, under the lock of the restaurant, so
a function of the consumer is a function of the rows of the restaurant and of the projection. -/

namespace RestaurantOS.Alerts

open Fallible Events Inventory

/-- A row of `alert_episodes`. It copies the facts of an episode of the inventory, with or without
its resolution. -/
structure AlertEpisode where
  /-- The primary key. -/
  episode_id : UUID
  /-- The organization. -/
  organization_id : UUID
  /-- The restaurant. -/
  restaurant_id : ℕ
  /-- The ingredient. -/
  ingredient_id : ℕ
  /-- Its name when the episode opened. -/
  ingredient_name : String
  /-- Its unit when the episode opened. -/
  unit : InventoryUnit
  /-- The quantity when the episode opened. -/
  opening_quantity : ℚ
  /-- The threshold when the episode opened. -/
  opening_threshold : ℚ
  /-- When it opened. -/
  opened_at : Timestamp
  /-- The first revision of the episode. -/
  opening_revision : ℕ
  /-- What opened it. -/
  opening_source : InventoryTransitionSource
  /-- Who opened it. -/
  opening_actor_user_id : Option UUID
  /-- The order that opened it. -/
  opening_order_id : Option ℕ
  /-- Whether it is a baseline, about which nobody is notified. -/
  notification_suppressed : Bool
  /-- When it was resolved. -/
  resolved_at : Option Timestamp
  /-- Why it was resolved. -/
  resolution_reason : Option EpisodeResolutionReason
  /-- The quantity when it was resolved. -/
  closing_quantity : Option ℚ
  /-- The threshold when it was resolved. -/
  closing_threshold : Option ℚ
  /-- Whether the ingredient was active when it was resolved. -/
  closing_is_active : Option Bool
  /-- The first revision after the episode. -/
  resolution_revision : Option ℕ
  /-- What resolved it. -/
  resolution_source : Option InventoryTransitionSource
  /-- Who resolved it. -/
  resolution_actor_user_id : Option UUID
  /-- The order that resolved it. -/
  resolution_order_id : Option ℕ
  deriving DecidableEq

/-- A row of `alert_ingredient_states`. It holds the state of an ingredient at the greatest revision
that has been stored. -/
structure AlertIngredientState where
  /-- The organization. -/
  organization_id : UUID
  /-- The restaurant. -/
  restaurant_id : ℕ
  /-- The primary key: the ingredient. -/
  ingredient_id : ℕ
  /-- The revision of the state. -/
  revision : ℕ
  /-- The name. -/
  ingredient_name : String
  /-- The unit. -/
  unit : InventoryUnit
  /-- The quantity on hand. -/
  quantity : ℚ
  /-- The threshold. -/
  reorder_threshold : ℚ
  /-- Whether the ingredient is active. -/
  is_active : Bool
  /-- Whether it is low. -/
  is_low : Bool
  /-- The open episode of a low ingredient. -/
  episode_id : Option UUID
  /-- When the last event occurred that changed the row. -/
  occurred_at : Timestamp

/-- The rows of the projection of a restaurant. -/
structure AlertProjection where
  /-- The episodes. -/
  episodes : List AlertEpisode
  /-- The states. -/
  states : List AlertIngredientState

/-- What became of an event. The worker records it with the receipt of the delivery. -/
inductive Outcome
  | processed
  | skipped
  deriving DecidableEq, Repr

/-- The facts of an episode as a row of the projection. -/
def AlertEpisode.of_facts (episode : InventoryLowStockEpisode) : AlertEpisode :=
  { episode_id := episode.episode_id, organization_id := episode.organization_id,
    restaurant_id := episode.restaurant_id, ingredient_id := episode.ingredient_id,
    ingredient_name := episode.ingredient_name, unit := episode.unit,
    opening_quantity := episode.opening_quantity,
    opening_threshold := episode.opening_reorder_threshold, opened_at := episode.opened_at,
    opening_revision := episode.opening_revision, opening_source := episode.opening_source,
    opening_actor_user_id := episode.opening_actor_user_id,
    opening_order_id := episode.opening_order_id,
    notification_suppressed := episode.notification_suppressed, resolved_at := episode.resolved_at,
    resolution_reason := episode.resolution_reason, closing_quantity := episode.closing_quantity,
    closing_threshold := episode.closing_reorder_threshold,
    closing_is_active := episode.closing_is_active,
    resolution_revision := episode.resolution_revision,
    resolution_source := episode.resolution_source,
    resolution_actor_user_id := episode.resolution_actor_user_id,
    resolution_order_id := episode.resolution_order_id }

/-- The live state of an ingredient as a row of the projection. -/
def AlertIngredientState.of_transition (current : InventoryTransition) (occurred_at : Timestamp) :
    AlertIngredientState :=
  { organization_id := current.state.organization_id, restaurant_id := current.state.restaurant_id,
    ingredient_id := current.state.ingredient_id, revision := current.state.state_revision,
    ingredient_name := current.state.ingredient_name, unit := current.state.unit,
    quantity := current.state.quantity, reorder_threshold := current.state.reorder_threshold,
    is_active := current.state.is_active, is_low := current.state.is_low,
    episode_id := if current.state.is_low then current.episode_id else none,
    occurred_at := occurred_at }

/-! ## What the consumer reads -/

/-- `load_inventory_state`, under the lock of the restaurant. The identifiers come from an event,
and those of another restaurant are not found. -/
def load_inventory_state (db : Branch) (organization_id : UUID) (restaurant_id : ℤ)
    (ingredient_id : ℕ) : Except Failure InventoryTransition := do
  ensure (restaurant_id = db.restaurant_id ∧ organization_id = db.organization_id)
    (.NotFoundError "Restaurant not found")
  let (record, balance) ← db.ingredient ingredient_id
  load_state db organization_id record balance

/-- The episodes of the restaurant. They are the producer's rows, each of which belongs to one
ingredient. -/
def episodes (db : Branch) : List InventoryLowStockEpisode := db.ingredients.flatMap (·.episodes)

/-- `load_inventory_episode_facts`. The facts of an episode with this key, or `none` where there is
none. -/
def load_inventory_episode_facts (db : Branch) (episode_id : UUID) :
    Except Failure (Option InventoryEpisodeFacts) :=
  current_facts (Keyed.lookup InventoryLowStockEpisode.episode_id episode_id (episodes db))

/-- `load_inventory_episode_history`, ordered by `opened_at, episode_id`. A rebuild replays it in
this order. -/
def load_inventory_episode_history (db : Branch) : Except Failure (List InventoryEpisodeFacts) :=
  ((episodes db).mergeSort fun episode episode' =>
    episode.opened_at < episode'.opened_at ||
      (episode.opened_at = episode'.opened_at && episode.episode_id ≤ episode'.episode_id)).mapM
    episode_facts

/-! ## What the consumer writes -/

/-- The check constraints of `alert_episodes`. A flush raises a database error unless every row
meets them. -/
def AlertEpisode.constraints (row : AlertEpisode) : Prop :=
  0 < row.ingredient_id ∧ 1 ≤ row.opening_revision ∧
    (0 ≤ row.opening_quantity ∧ row.opening_quantity ≤ MAX_QUANTITY) ∧
    (0 ≤ row.opening_threshold ∧ row.opening_threshold ≤ MAX_QUANTITY) ∧
    ∀ revision ∈ row.resolution_revision, row.opening_revision ≤ revision

/-- The check constraints of `alert_ingredient_states`. In particular a row is low exactly if it is
active and at or below its threshold. -/
def AlertIngredientState.constraints (row : AlertIngredientState) : Prop :=
  0 < row.ingredient_id ∧ 1 ≤ row.revision ∧ (0 ≤ row.quantity ∧ 0 ≤ row.reorder_threshold) ∧
    row.is_low = (row.is_active && decide (row.quantity ≤ row.reorder_threshold))

/-- The constraints are comparisons of columns. -/
instance (row : AlertEpisode) : Decidable row.constraints := by
  unfold AlertEpisode.constraints
  infer_instance

/-- The constraints are comparisons of columns. -/
instance (row : AlertIngredientState) : Decidable row.constraints := by
  unfold AlertIngredientState.constraints
  infer_instance

namespace AlertProjection

/-- The projection after a `flush`, which checks the constraints of the tables. -/
def flush (p : AlertProjection) : Except Failure AlertProjection := do
  ensure ((∀ row ∈ p.episodes, row.constraints) ∧ ∀ row ∈ p.states, row.constraints) .DatabaseError
  pure p

/-- `AlertProjectionRepository.state`. The row of an ingredient, or `none` as long as no state of it
has been projected. -/
def state (p : AlertProjection) (ingredient_id : ℕ) : Option AlertIngredientState :=
  Keyed.lookup AlertIngredientState.ingredient_id ingredient_id p.states

/-- `_store_episode_facts`: every fact is written over the row that is there, if any. -/
def store_episode_facts (p : AlertProjection) (facts : InventoryEpisodeFacts) : AlertProjection :=
  { p with
    episodes := Keyed.upsert AlertEpisode.episode_id (.of_facts facts.episode) p.episodes }

/-- A state is written over the row that is there, if any. -/
def store_state (p : AlertProjection) (row : AlertIngredientState) : AlertProjection :=
  { p with states := Keyed.upsert AlertIngredientState.ingredient_id row p.states }

/-- `_sync_episode`. The facts are loaded from the producer, and an unknown episode changes nothing.
-/
def sync_episode (db : Branch) (episode_id : UUID) (p : AlertProjection) :
    Except Failure AlertProjection := do
  let facts ← load_inventory_episode_facts db episode_id
  match facts with
  | some facts => pure (p.store_episode_facts facts)
  | none => pure p

/-- The synchronization of the episode whose boundary a state event names. -/
def sync_transition (db : Branch) (payload : InventoryStateChangedPayload) (p : AlertProjection) :
    Except Failure AlertProjection :=
  match payload.episode_id, payload.episode_transition with
  | some episode_id, some _ => p.sync_episode db episode_id
  | _, _ => pure p

end AlertProjection

/-- `apply_alert_event`. A low-stock event stores its episode, and a change of state also the live
state, unless the row is ahead of it. -/
def apply_alert_event (db : Branch) (event : EventEnvelope Payload) (p : AlertProjection) :
    Except Failure (AlertProjection × Outcome) :=
  match event.payload with
  | .inventory_low payload => do
    let _ ← load_inventory_state db event.organization_id event.restaurant_id payload.ingredient_id
    let p ← p.sync_episode db payload.episode_id
    let p ← p.flush
    pure (p, .processed)
  | .inventory_state_changed payload => do
    let current ← load_inventory_state db event.organization_id event.restaurant_id
      payload.ingredient_id
    let p ← p.sync_transition db payload
    let row := p.state payload.ingredient_id
    if row.any fun row => current.state.state_revision ≤ row.revision then do
      -- The session flushes what has been stored when it commits.
      let p ← p.flush
      pure (p, .skipped)
    else do
      let occurred_at := match row with
        | some row => max row.occurred_at event.occurred_at
        | none => event.occurred_at
      let p ← (p.store_state (.of_transition current occurred_at)).flush
      pure (p, .processed)
  | _ => throw (.ValueError "Unsupported alert event")

/-- One state in `AlertProjectionService.rebuild`. A row that is ahead of the loaded state is left
alone. -/
def refresh (now : Timestamp) (p : AlertProjection) (current : InventoryTransition) :
    AlertProjection :=
  if (p.state current.state.ingredient_id).any fun row => current.state.state_revision < row.revision
  then p
  else p.store_state (.of_transition current now)

/-- `AlertProjectionService.rebuild`. It stores the facts of all episodes and then the live states,
and deletes nothing. -/
def rebuild (db : Branch) (organization_id : UUID) (now : Timestamp) (p : AlertProjection) :
    Except Failure AlertProjection := do
  ensure (organization_id = db.organization_id) (.NotFoundError "Restaurant not found")
  let states ← load_inventory_restaurant_states db organization_id
  let episode_facts ← load_inventory_episode_history db
  let p := episode_facts.foldl AlertProjection.store_episode_facts p
  (states.foldl (refresh now) p).flush

end RestaurantOS.Alerts
