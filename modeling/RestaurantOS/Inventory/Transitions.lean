import RestaurantOS.Inventory.Models

/-!
# Pure state and episode facts

The snapshot of an ingredient's state, the facts about its episodes, and the rules for the boundary
of an episode. The fact classes check themselves when they are built (`__post_init__`), so a value
of `InventoryEpisodeFacts`, of `InventoryEpisodeTransition` or of `InventoryTransition` carries the
outcome of its check. Instants are always timezone-aware here.
-/

namespace RestaurantOS.Inventory

open Fallible

/-- `InventoryStateSnapshot`. The state that is compared before and after a change. -/
structure InventoryStateSnapshot where
  /-- The organization. -/
  organization_id : UUID
  /-- The restaurant. -/
  restaurant_id : ℕ
  /-- The ingredient. -/
  ingredient_id : ℕ
  /-- The revision of the state. -/
  state_revision : ℕ
  /-- The name. -/
  ingredient_name : String
  /-- The unit. -/
  unit : InventoryUnit
  /-- The quantity on hand. -/
  quantity : ℚ
  /-- The threshold. -/
  reorder_threshold : ℚ
  /-- Whether the ingredient is active. -/
  is_active : Bool

/-- `is_low`. An archived ingredient is never low. -/
def InventoryStateSnapshot.is_low (state : InventoryStateSnapshot) : Bool :=
  state.is_active && decide (state.quantity ≤ state.reorder_threshold)

/-- The check of `InventoryEpisodeTransition`. A reason is given exactly for a resolution. -/
def transition_check (kind : EpisodeTransitionKind)
    (resolution_reason : Option EpisodeResolutionReason) : Except Failure Unit := do
  ensure (¬ (kind = .opened ∧ resolution_reason.isSome))
    (.ValueError "an opened episode cannot have a resolution reason")
  ensure (¬ (kind = .resolved ∧ resolution_reason.isNone))
    (.ValueError "a resolved episode requires a resolution reason")

/-- `InventoryEpisodeTransition`. Its last field is the proof of the check, so an inconsistent one
cannot be built. -/
structure InventoryEpisodeTransition where
  /-- The episode. -/
  episode_id : UUID
  /-- The boundary. -/
  kind : EpisodeTransitionKind
  /-- When it was crossed. -/
  occurred_at : Timestamp
  /-- Why the episode was resolved. -/
  resolution_reason : Option EpisodeResolutionReason
  /-- The check has passed. -/
  post_init : transition_check kind resolution_reason = .ok ()

/-- The constructor of `InventoryEpisodeTransition`. It raises what `__post_init__` does. -/
def episode_transition (episode_id : UUID) (kind : EpisodeTransitionKind) (occurred_at : Timestamp)
    (resolution_reason : Option EpisodeResolutionReason) :
    Except Failure InventoryEpisodeTransition :=
  match h : transition_check kind resolution_reason with
  | .ok () => .ok ⟨episode_id, kind, occurred_at, resolution_reason, h⟩
  | .error failure => .error failure

/-- The check of `InventoryEpisodeFacts`. The columns of the resolution are all set or all empty,
and the bounds are met. -/
def episode_check (episode : InventoryLowStockEpisode) : Except Failure Unit := do
  ensure (0 < episode.restaurant_id ∧ 0 < episode.ingredient_id)
    (.ValueError "inventory episode identities must be positive")
  ensure (1 ≤ episode.opening_revision)
    (.ValueError "inventory episode opening revision must be positive")
  let resolution_values : List Bool :=
    [episode.resolved_at.isSome, episode.resolution_reason.isSome, episode.closing_quantity.isSome,
      episode.closing_reorder_threshold.isSome, episode.closing_is_active.isSome,
      episode.resolution_revision.isSome, episode.resolution_source.isSome]
  ensure (¬ (resolution_values.any id = true ∧ ¬ resolution_values.all id = true))
    (.ValueError "inventory episode resolution facts must be complete")
  ensure (∀ revision ∈ episode.resolution_revision, episode.opening_revision < revision)
    (.ValueError "resolution revision must follow the opening revision")
  ensure (episode.notification_suppressed → episode.opening_source = .maintenance_initialization)
    (.ValueError "only initialization baseline episodes suppress notices")

/-- `InventoryEpisodeFacts`: a copy of an episode whose facts have passed their check. -/
structure InventoryEpisodeFacts where
  /-- The copied facts. -/
  episode : InventoryLowStockEpisode
  /-- The check has passed. -/
  post_init : episode_check episode = .ok ()

/-- `_episode_facts`. The facts of a row, or the error of its check. -/
def episode_facts (episode : InventoryLowStockEpisode) : Except Failure InventoryEpisodeFacts :=
  match h : episode_check episode with
  | .ok () => .ok ⟨episode, h⟩
  | .error failure => .error failure

/-- The check of `InventoryTransition`. Keys are positive, and the parts speak of one episode. -/
def state_check (state : InventoryStateSnapshot) (episode_id : Option UUID)
    (episode_transition : Option InventoryEpisodeTransition)
    (episode_facts : Option InventoryEpisodeFacts) : Except Failure Unit := do
  ensure (0 < state.restaurant_id ∧ 0 < state.ingredient_id)
    (.ValueError "inventory transition identities must be positive")
  ensure (1 ≤ state.state_revision) (.ValueError "inventory state revision must be positive")
  ensure (∀ transition ∈ episode_transition, episode_id = some transition.episode_id)
    (.ValueError "episode transition ID must match the current episode ID")
  ensure (∀ facts ∈ episode_facts, episode_id = some facts.episode.episode_id)
    (.ValueError "episode facts ID must match the current episode ID")
  ensure (∀ transition ∈ episode_transition, transition.kind = .opened → state.is_low)
    (.ValueError "an opened episode requires a low resulting state")
  ensure (∀ transition ∈ episode_transition, transition.kind = .resolved → ¬ state.is_low)
    (.ValueError "a resolved episode requires a non-low resulting state")

/-- `InventoryTransition`. Its last field is the proof of the check, so an inconsistent one cannot
be built. -/
structure InventoryTransition where
  /-- The resulting state. -/
  state : InventoryStateSnapshot
  /-- The current episode. -/
  episode_id : Option UUID
  /-- The boundary that was crossed. -/
  episode_transition : Option InventoryEpisodeTransition
  /-- The facts of the episode. -/
  episode_facts : Option InventoryEpisodeFacts
  /-- The check has passed. -/
  post_init : state_check state episode_id episode_transition episode_facts = .ok ()

/-- The constructor of `InventoryTransition`. It raises what `__post_init__` does. -/
def inventory_transition (state : InventoryStateSnapshot) (episode_id : Option UUID)
    (episode_transition : Option InventoryEpisodeTransition)
    (episode_facts : Option InventoryEpisodeFacts) : Except Failure InventoryTransition :=
  match h : state_check state episode_id episode_transition episode_facts with
  | .ok () => .ok ⟨state, episode_id, episode_transition, episode_facts, h⟩
  | .error failure => .error failure

/-- `_episode_facts` of the current episode, if there is one. -/
def current_facts (episode : Option InventoryLowStockEpisode) :
    Except Failure (Option InventoryEpisodeFacts) :=
  match episode with
  | some episode => do
    let facts ← episode_facts episode
    pure (some facts)
  | none => pure none

/-- `_transition_snapshot`. The episode is the given one, or that of the boundary. -/
def transition_snapshot (state : InventoryStateSnapshot) (episode : Option InventoryLowStockEpisode)
    (episode_transition : Option InventoryEpisodeTransition) :
    Except Failure InventoryTransition := do
  let facts ← current_facts episode
  let episode_id := match episode, episode_transition with
    | some episode, _ => some episode.episode_id
    | none, some transition => some transition.episode_id
    | none, none => none
  inventory_transition state episode_id episode_transition facts

/-- `inventory_state_changed`. Name and unit do not count as a change of state. -/
def inventory_state_changed (before : Option InventoryStateSnapshot)
    (after : InventoryStateSnapshot) : Bool :=
  match before with
  | none => true
  | some before =>
    before.quantity ≠ after.quantity || before.reorder_threshold ≠ after.reorder_threshold ||
      before.is_active ≠ after.is_active

/-- `low_episode_transition`. An ingredient without an earlier state was not low. -/
def low_episode_transition (before : Option InventoryStateSnapshot)
    (after : InventoryStateSnapshot) : Option EpisodeTransitionKind :=
  let was_low := match before with
    | some before => before.is_low
    | none => false
  if !was_low && after.is_low then some .opened
  else if was_low && !after.is_low then some .resolved
  else none

/-- `episode_resolution_reason`. Archiving comes first, then the threshold. -/
def episode_resolution_reason (before after : InventoryStateSnapshot) :
    Except Failure EpisodeResolutionReason := do
  ensure (before.is_low ∧ ¬ after.is_low)
    (.ValueError "resolution reasons apply only when a low episode closes")
  if before.is_active && !after.is_active then pure .archived
  else if before.reorder_threshold ≠ after.reorder_threshold then pure .threshold_changed
  else pure .stock_recovered

end RestaurantOS.Inventory
