import RestaurantOS.Analytics.Projection
import RestaurantOS.Commands
import RestaurantOS.Events.Deliveries
import RestaurantOS.Notifications.Service

/-!
# Maintenance

`EventMaintenanceService.run` (`events/maintenance.py`) prepares a restaurant for its consumers, once
(`initialize`), and rebuilds its analytics projection (`analytics_rebuild`). It is one transaction
under the lock of the restaurant, over rows of every module, so a `Database` has all of them: those
of the commands, the deliveries of their events, the projections of the consumers and the operations
themselves. The commands know the operation as `maintenance_initialization`, with a marker of its own
(`Branch.initialized`): it is set with the row of the operation (`initialize_projections`). -/

namespace RestaurantOS.Maintenance

open Fallible Inventory
open Events (DeliveryRecord)

/-- The kinds of operations, `initialize` and `analytics_rebuild`. There is at most one `initialize`
that completes for a restaurant. -/
inductive MaintenanceKind
  | initialization
  | analytics_rebuild
  deriving DecidableEq, Repr

/-- A row of `event_maintenance_operations`. It is written in the transaction of the operation
itself. -/
structure MaintenanceOperation where
  /-- The primary key. -/
  operation_id : UUID
  /-- The organization. -/
  organization_id : UUID
  /-- The restaurant. -/
  restaurant_id : ℤ
  /-- The kind. -/
  kind : MaintenanceKind
  /-- Who ran it. -/
  operator : String
  /-- The stated reason. -/
  reason : String
  /-- When it was run. -/
  observed_at : Timestamp

/-- The rows of a restaurant, in all modules. -/
structure Database where
  /-- The rows of the commands, the outbox among them. -/
  rows : Branch
  /-- The deliveries of the events, with their attempts, replays and receipts. -/
  deliveries : List DeliveryRecord
  /-- The analytics projection. -/
  analytics : Analytics.Projection
  /-- The alert projection. -/
  alerts : Alerts.AlertProjection
  /-- The notification sink. -/
  sink : Notifications.NotificationSink
  /-- The maintenance operations. -/
  operations : List MaintenanceOperation

/-- The arguments of an operation. Workers must have been stopped, which the operator confirms. -/
structure MaintenanceRequest where
  /-- The organization. -/
  organization_id : UUID
  /-- The restaurant. -/
  restaurant_id : ℤ
  /-- The kind. -/
  kind : MaintenanceKind
  /-- The stated reason. -/
  reason : String
  /-- Whether the workers are said to be stopped. -/
  maintenance_confirmed : Bool

/-- What an operation draws from its environment. Nothing is assumed of what it draws. -/
structure MaintenanceDraw where
  /-- What the baseline episodes draw; they open at `now 0`, the clock of the database. -/
  draw : Draw
  /-- `datetime.now`, in the rebuild of the alert projection. -/
  now : Timestamp
  /-- The key of the operation. -/
  operation_id : UUID
  /-- `operator_identity`. -/
  operator : String

/-- What became of an operation. The second one changes nothing. -/
inductive MaintenanceOutcome
  | completed
  | already_initialized
  deriving DecidableEq, Repr

/-- `retained_counts`, with the counts of the inspections. They are reported to the operator and
stored with the operation. -/
structure RetainedCounts where
  /-- The events. -/
  events : ℕ
  /-- Their deliveries. -/
  deliveries : ℕ
  /-- The receipts of these. -/
  receipts : ℕ
  /-- The attempts. -/
  attempts : ℕ
  /-- The replays. -/
  replays : ℕ
  /-- The operations. -/
  maintenance_operations : ℕ
  /-- The projected episodes. -/
  episodes : ℕ
  /-- The projected states. -/
  states : ℕ
  /-- The stubs. -/
  notification_stubs : ℕ
  /-- The diagnostics. -/
  diagnostics : ℕ
  deriving DecidableEq

/-- What an operation returns. The counts are taken after the changes. -/
structure MaintenanceResult where
  /-- The operation, or the one that has initialized the restaurant. -/
  operation : Option MaintenanceOperation
  /-- The outcome. -/
  outcome : MaintenanceOutcome
  /-- The counts. -/
  retained_counts : RetainedCounts

/-- `retained_counts`, `AlertProjectionService.inspect` and `inspect_notification_sink`. They count
the rows of one restaurant. -/
def Database.retained_counts (database : Database) : RetainedCounts :=
  { events := database.rows.events.length
    deliveries := database.deliveries.length
    receipts := (database.deliveries.filter (·.receipt.isSome)).length
    attempts := (database.deliveries.map (·.attempts.length)).sum
    replays := (database.deliveries.map (·.replays.length)).sum
    maintenance_operations := database.operations.length
    episodes := database.alerts.episodes.length
    states := database.alerts.states.length
    notification_stubs := database.sink.stubs.length
    diagnostics := database.sink.diagnostics.length }

/-- `initialization`: the operation that has initialized the restaurant. -/
def Database.initialization (database : Database) : Option MaintenanceOperation :=
  database.operations.find? fun operation => operation.kind = .initialization

/-- A reason that is stated, short and printable. -/
def safe_reason (text : Text) (reason : String) : Prop :=
  text.strip reason ≠ "" ∧ reason.length ≤ 1000 ∧ ∀ c ∈ reason.toList, 32 ≤ c.toNat

/-- Lengths and characters are checked. -/
instance (text : Text) (reason : String) : Decidable (safe_reason text reason) :=
  inferInstanceAs (Decidable (_ ∧ _))

/-- Every low ingredient without an open episode gets a baseline. -/
def record_baselines (organization_id : UUID) (observed_at : Timestamp)
    (states : List InventoryTransition) (db : Branch) : Except Failure Branch :=
  states.foldlM (fun db transition =>
    if transition.state.is_low ∧ transition.episode_id.isNone then
      record_baseline_inventory_episode db organization_id transition.state.ingredient_id observed_at
    else pure db) db

/-- The part of the operation that only `initialize` has. -/
def initialize_projections (organization_id : UUID) (draw : MaintenanceDraw)
    (states : List InventoryTransition) (database : Database) : Except Failure Database := do
  let rows ← record_baselines organization_id (draw.draw.now 0) states database.rows
  let alerts ← Alerts.rebuild rows organization_id draw.now database.alerts
  pure { database with
    rows := { rows with initialized := true }
    alerts := alerts }

/-- `EventMaintenanceService.run`. It runs in one transaction under the lock of the restaurant. -/
def EventMaintenanceService.run (text : Text) (request : MaintenanceRequest) (draw : MaintenanceDraw)
    (database : Database) : Except Failure (Database × MaintenanceResult) := do
  ensure (request.maintenance_confirmed = true)
    (.ValueError "Stop workers and quiesce writes before maintenance")
  ensure (safe_reason text request.reason) (.ValueError "A safe maintenance reason is required")
  ensure (request.restaurant_id = database.rows.restaurant_id)
    (.NotFoundError "Restaurant not found")
  ensure (request.organization_id = database.rows.organization_id)
    (.NotFoundError "Restaurant not found")
  let states ← load_inventory_restaurant_states database.rows request.organization_id
  if request.kind = .initialization ∧ database.initialization.isSome then
    pure (database, ⟨database.initialization, .already_initialized, database.retained_counts⟩)
  else do
    ensure (¬ (request.kind = .analytics_rebuild ∧ database.initialization.isNone))
      (.ValueError "Initialize this scope before rebuilding")
    let analytics ← Analytics.rebuild_analytics_projection request.organization_id
      request.restaurant_id database.rows.orders database.rows.events database.analytics
    let database := { database with analytics := analytics }
    let database ← match request.kind with
      | .initialization =>
        initialize_projections request.organization_id draw states database
      | .analytics_rebuild => pure database
    let operation : MaintenanceOperation :=
      { operation_id := draw.operation_id, organization_id := request.organization_id,
        restaurant_id := request.restaurant_id, kind := request.kind, operator := draw.operator,
        reason := text.strip request.reason, observed_at := draw.draw.now 0 }
    let database := { database with operations := database.operations ++ [operation] }
    pure (database, ⟨some operation, .completed, database.retained_counts⟩)

end RestaurantOS.Maintenance
