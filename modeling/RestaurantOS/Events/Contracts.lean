import RestaurantOS.Core.Time

/-!
# Event contracts and routing

The event types and consumers of the outbox, the fixed routing table between them, and the decoding
of a stored event row. The payload of a row is stored as JSON: `π` is the type of stored payloads and
`ρ` the type of validated ones, and the validation of the eight payload models
(`EVENT_ENVELOPE_ADAPTER`) is the argument `validate_python` of `deserialize_event`, since routing and
delivery depend on its outcome only.
-/

namespace RestaurantOS.Events

/-- `EventType`: the event types with a contract. They are the values of the enumeration that have a
payload model. -/
inductive EventType
  | order_submitted
  | order_accepted
  | order_completed
  | order_cancelled
  | order_deleted
  | menu_updated
  | inventory_state_changed
  | inventory_low
  deriving DecidableEq, Repr

/-- `ConsumerName`: the consumers of the outbox. They are registered under these names. -/
inductive ConsumerName
  | analytics
  | alerts
  | notification_sink
  deriving DecidableEq, Repr

namespace EventType

/-- The text of an event type in a row. -/
def value : EventType → String
  | order_submitted => "order.submitted.v1"
  | order_accepted => "order.accepted.v1"
  | order_completed => "order.completed.v1"
  | order_cancelled => "order.cancelled.v1"
  | order_deleted => "order.deleted.v1"
  | menu_updated => "menu.updated.v1"
  | inventory_state_changed => "inventory.state_changed.v1"
  | inventory_low => "inventory.low.v1"

/-- `SUPPORTED_EVENT_TYPES`, in the order of the source. An error message lists them in this order.
-/
def supported : List EventType :=
  [order_submitted, order_accepted, order_completed, order_cancelled, order_deleted, menu_updated,
    inventory_state_changed, inventory_low]

/-- The event type with a given text, if the text is supported. -/
def parse (text : String) : Option EventType := supported.find? fun t => t.value = text

end EventType

/-- `SUBSCRIPTIONS`: the consumers of each event type. Each event is delivered to each of them on
its own. -/
def SUBSCRIPTIONS : EventType → List ConsumerName
  | .order_submitted => [.notification_sink]
  | .order_accepted => [.notification_sink]
  | .order_completed => [.analytics, .notification_sink]
  | .order_cancelled => [.notification_sink]
  | .order_deleted => [.analytics, .notification_sink]
  | .menu_updated => [.notification_sink]
  | .inventory_state_changed => [.alerts]
  | .inventory_low => [.alerts, .notification_sink]

/-- `consumers_for`: the subscription set of an event type's text; `none` is the `KeyError`. -/
def consumers_for (event_type : String) : Option (List ConsumerName) :=
  (EventType.parse event_type).map SUBSCRIPTIONS

/-- A row of `outbox_events`. It is parametrized by what the payload column holds. -/
structure OutboxEvent (π : Type) where
  /-- The primary key. -/
  event_id : UUID
  /-- The text of the event type. -/
  event_type : String
  /-- The version of the payload's contract. -/
  schema_version : ℤ
  /-- The organization of the restaurant. -/
  organization_id : UUID
  /-- The restaurant the fact is about. -/
  restaurant_id : ℤ
  /-- The kind of aggregate. -/
  aggregate_type : String
  /-- The aggregate's identifier, as text. -/
  aggregate_id : String
  /-- The revision of the aggregate after the change. -/
  aggregate_revision : ℤ
  /-- When the change happened. -/
  occurred_at : Timestamp
  /-- The correlation of the command. -/
  correlation_id : String
  /-- The trace context of the command. -/
  traceparent : Option String
  /-- The stored payload. -/
  payload : π

/-- `EventEnvelope`: a decoded event. Its schema version is always 1. -/
structure EventEnvelope (ρ : Type) where
  /-- The event's identifier. -/
  event_id : UUID
  /-- The event's type. -/
  event_type : EventType
  /-- The organization of the restaurant. -/
  organization_id : UUID
  /-- The restaurant the fact is about. -/
  restaurant_id : ℤ
  /-- The kind of aggregate. -/
  aggregate_type : String
  /-- The aggregate's identifier, as text. -/
  aggregate_id : String
  /-- The revision of the aggregate after the change. -/
  aggregate_revision : ℤ
  /-- When the change happened, in UTC. -/
  occurred_at : Timestamp
  /-- The correlation of the command. -/
  correlation_id : String
  /-- The validated payload. -/
  payload : ρ

/-- What validating a row against the contract of its event type gives. -/
inductive Validation (ρ : Type)
  | valid (payload : ρ)
  /-- A `ValidationError`, which `deserialize_event` turns into a `ValueError`. -/
  | validation_error
  /-- Any other exception. -/
  | raised

/-- What `deserialize_event` raises. The execution treats the first two alike and lets the others
through. -/
inductive DecodeError
  /-- `UnsupportedEventVersion`, a `ValueError`. -/
  | unsupported_event_version
  /-- Another `ValueError`. -/
  | value_error
  /-- An exception that is no `ValueError`. -/
  | other
  deriving DecidableEq

/-- `deserialize_event` on the facts of a row: the type and the version are checked before the
contract of the type is. A valid envelope repeats the columns of the row. -/
def deserialize_event {π ρ : Type} (validate_python : OutboxEvent π → Validation ρ)
    (event : OutboxEvent π) : Except DecodeError (EventEnvelope ρ) :=
  match EventType.parse event.event_type with
  | none => .error .unsupported_event_version
  | some event_type =>
    if event.schema_version ≠ 1 then .error .unsupported_event_version
    else
      match validate_python event with
      | .valid payload =>
        .ok { event_id := event.event_id, event_type := event_type,
              organization_id := event.organization_id, restaurant_id := event.restaurant_id,
              aggregate_type := event.aggregate_type, aggregate_id := event.aggregate_id,
              aggregate_revision := event.aggregate_revision, occurred_at := event.occurred_at,
              correlation_id := event.correlation_id, payload := payload }
      | .validation_error => .error .value_error
      | .raised => .error .other

/-- A decoded envelope carries the identifier, the type and the correlation of its row. -/
theorem deserialize_event_ok {π ρ : Type} {validate_python : OutboxEvent π → Validation ρ}
    {event : OutboxEvent π} {envelope : EventEnvelope ρ}
    (h : deserialize_event validate_python event = .ok envelope) :
    envelope.event_id = event.event_id ∧ EventType.parse event.event_type = some envelope.event_type ∧
      envelope.correlation_id = event.correlation_id := by
  unfold deserialize_event at h
  split at h
  · cases h
  · rename_i event_type htype
    split_ifs at h
    split at h
    · cases h
      exact ⟨rfl, htype, rfl⟩
    · cases h
    · cases h

/-- The characters of `safe_identifier`'s pattern after the first. -/
def identifier_char (c : Char) : Bool := c.isAlphanum || c = '.' || c = '_' || c = '-'

/-- `safe_identifier`: a text that does not match `[A-Za-z0-9][A-Za-z0-9._-]{0,127}` is redacted. -/
def safe_identifier (value : String) : String :=
  match value.toList with
  | [] => "redacted"
  | c :: rest =>
    if c.isAlphanum && rest.all identifier_char && rest.length ≤ 127 then value else "redacted"

end RestaurantOS.Events
