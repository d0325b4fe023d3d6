import RestaurantOS.Alerts.Projection

/-!
# The notification sink

The sink (`notifications/service.py`) keeps one row for each episode that it has been told of, with
what became of the notification, and one diagnostic row for each event of an order or a menu. A low
event is handled under the lock of the restaurant, against the state of the ingredient at that time;
what the event says is only copied. The rows of a restaurant depend on its rows alone, so a sink is
that of one restaurant. -/

namespace RestaurantOS.Notifications

open Fallible Alerts Events Inventory

/-- What became of a notification. It is decided when the first event of the episode is handled, and
is final. -/
inductive StubOutcome
  | created
  | skipped
  | suppressed
  deriving DecidableEq, Repr

/-- Why no notification was created. A created notification has no reason. -/
inductive StubReason
  | initialization_baseline
  | resolved_or_superseded
  deriving DecidableEq, Repr

/-- A row of `notification_stubs`. It records what was decided about the notification of an episode.
-/
structure NotificationStub where
  /-- The primary key. -/
  id : UUID
  /-- The episode. -/
  episode_id : UUID
  /-- The event that told of it. -/
  event_id : UUID
  /-- The organization. -/
  organization_id : UUID
  /-- The restaurant. -/
  restaurant_id : ℤ
  /-- The ingredient. -/
  ingredient_id : ℕ
  /-- Its name when the episode opened. -/
  ingredient_name : String
  /-- Its unit when the episode opened. -/
  unit : InventoryUnit
  /-- The quantity when the episode opened. -/
  opening_quantity : ℚ
  /-- The threshold when the episode opened. -/
  reorder_threshold : ℚ
  /-- When the episode opened. -/
  opened_at : Timestamp
  /-- What became of the notification. -/
  outcome : StubOutcome
  /-- Why it was not created. -/
  reason : Option StubReason
  /-- The correlation of the event. -/
  correlation_id : String
  /-- When the row was inserted. -/
  created_at : Timestamp

/-- A value of the facts of a diagnostic row. -/
inductive DiagnosticFact
  | number (value : ℕ)
  | text (value : String)
  /-- `str` of an amount of money. -/
  | amount (value : ℚ)
  /-- `isoformat` of a time. -/
  | time (value : Timestamp)
  | numbers (values : List ℕ)
  deriving DecidableEq

/-- A row of `event_diagnostics`. It keeps the facts of an event that is no notification. -/
structure EventDiagnostic where
  /-- The primary key: the event. -/
  event_id : UUID
  /-- The organization. -/
  organization_id : UUID
  /-- The restaurant. -/
  restaurant_id : ℤ
  /-- The type of the event. -/
  event_type : EventType
  /-- The type of its aggregate. -/
  aggregate_type : String
  /-- The key of its aggregate. -/
  aggregate_id : String
  /-- The revision of its aggregate. -/
  aggregate_revision : ℤ
  /-- The correlation of the event. -/
  correlation_id : String
  /-- The facts. -/
  facts : List (String × DiagnosticFact)
  /-- When the row was inserted. -/
  created_at : Timestamp

/-- The rows of the sink of a restaurant. -/
structure NotificationSink where
  /-- The stubs, the oldest first. -/
  stubs : List NotificationStub
  /-- The diagnostics, the oldest first. -/
  diagnostics : List EventDiagnostic
  /-- The next identifier of `uuid4`. -/
  next_uuid : UUID

/-- The text of an operation. It is the value of the enumeration. -/
def operation_text : CatalogOperation → String
  | .created => "created"
  | .edited => "edited"
  | .deactivated => "deactivated"
  | .deleted => "deleted"

/-- `diagnostic_facts`. The status of a submitted, accepted or cancelled order is that of its type. -/
def diagnostic_facts : Payload → Except Failure (List (String × DiagnosticFact))
  | .order_submitted order_id =>
    pure [("order_id", .number order_id), ("status", .text "SUBMITTED")]
  | .order_accepted order_id =>
    pure [("order_id", .number order_id), ("status", .text "ACCEPTED")]
  | .order_cancelled order_id =>
    pure [("order_id", .number order_id), ("status", .text "CANCELLED")]
  | .order_completed order_id total created_at =>
    pure [("order_id", .number order_id), ("total", .amount total), ("created_at", .time created_at)]
  | .order_deleted order_id prior_status total created_at =>
    pure [("order_id", .number order_id), ("total", .amount total), ("created_at", .time created_at),
      ("prior_status", .text prior_status.value)]
  | .menu_updated operation target_type target_id menu_id affected_menu_item_ids =>
    pure [("operation", .text (operation_text operation)), ("target_type", .text target_type.value),
      ("target_id", .number target_id), ("menu_id", .number menu_id),
      ("affected_menu_item_ids", .numbers affected_menu_item_ids)]
  | .inventory_state_changed _ | .inventory_low _ =>
    throw (.ValueError "Unsupported notification sink event")

namespace NotificationSink

/-- `NotificationRepository.stub`. The row of an episode, or `none` as long as no event of it was
handled. -/
def stub (sink : NotificationSink) (episode_id : UUID) : Option NotificationStub :=
  Keyed.lookup NotificationStub.episode_id episode_id sink.stubs

/-- The sink after a `flush`, which checks the constraints of the tables. -/
def flush (sink : NotificationSink) : Except Failure NotificationSink := do
  ensure ((sink.stubs.map NotificationStub.episode_id).Nodup ∧
    (∀ stub ∈ sink.stubs, 0 < stub.ingredient_id) ∧
    (sink.diagnostics.map EventDiagnostic.event_id).Nodup) .DatabaseError
  pure sink

end NotificationSink

/-- The outcome of a notification, and its reason. -/
def stub_outcome (episode_id : UUID) (producer_facts : Option InventoryEpisodeFacts)
    (current : InventoryTransition) : StubOutcome × Option StubReason :=
  if producer_facts.any fun facts => facts.episode.notification_suppressed then
    (.suppressed, some .initialization_baseline)
  else if !current.state.is_low || current.episode_id ≠ some episode_id then
    (.skipped, some .resolved_or_superseded)
  else (.created, none)

/-- `apply_notification_event`, in a transaction that starts at `now`. -/
def apply_notification_event (db : Branch) (now : Timestamp) (event : EventEnvelope Payload)
    (sink : NotificationSink) : Except Failure (NotificationSink × Alerts.Outcome) :=
  match event.payload with
  | .inventory_low payload => do
    -- The live state is read before the stub is looked up, so its errors come first.
    let current ← load_inventory_state db event.organization_id event.restaurant_id
      payload.ingredient_id
    -- A second event about the episode adds nothing.
    if (sink.stub payload.episode_id).isSome then pure (sink, .skipped)
    else do
      let producer_facts ← load_inventory_episode_facts db payload.episode_id
      let (outcome, reason) := stub_outcome payload.episode_id producer_facts current
      let stub : NotificationStub :=
        { id := sink.next_uuid, episode_id := payload.episode_id, event_id := event.event_id,
          organization_id := event.organization_id, restaurant_id := event.restaurant_id,
          ingredient_id := payload.ingredient_id, ingredient_name := payload.ingredient_name,
          unit := payload.unit, opening_quantity := payload.opening_quantity,
          reorder_threshold := payload.reorder_threshold, opened_at := payload.opened_at,
          outcome := outcome, reason := reason, correlation_id := event.correlation_id,
          created_at := now }
      let sink ← NotificationSink.flush
        { sink with
          stubs := sink.stubs ++ [stub]
          next_uuid := sink.next_uuid + 1 }
      pure (sink, if outcome = .created then .processed else .skipped)
  | payload => do
    -- Any other event gets a diagnostic row, with an error for a payload the projection has no
    -- facts for.
    let facts ← diagnostic_facts payload
    let diagnostic : EventDiagnostic :=
      { event_id := event.event_id, organization_id := event.organization_id,
        restaurant_id := event.restaurant_id, event_type := event.event_type,
        aggregate_type := event.aggregate_type, aggregate_id := event.aggregate_id,
        aggregate_revision := event.aggregate_revision, correlation_id := event.correlation_id,
        facts := facts, created_at := now }
    let sink ← NotificationSink.flush
      { sink with diagnostics := sink.diagnostics ++ [diagnostic] }
    pure (sink, .processed)

end RestaurantOS.Notifications
