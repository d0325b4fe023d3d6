import RestaurantOS.Events.PayloadModels

/-!
# Event envelopes and their rows

The validation of an envelope as a discriminated union of eight models, `serialize_event` and
`deserialize_event`, the row that `append_event` inserts, and the facts that `event_facts` reads back
from a row. `contract` puts them in the place that the execution service keeps for the validation of
a row.
-/

namespace RestaurantOS.Events.Contract

open Validation

/-- A validated envelope. Its event type is that of its payload and its schema version is 1. -/
structure Envelope where
  /-- The event's identifier. -/
  event_id : UUID
  /-- The organization of the restaurant. -/
  organization_id : UUID
  /-- The restaurant the fact is about. -/
  restaurant_id : ℤ
  /-- The kind of aggregate. -/
  aggregate_type : String
  /-- The aggregate's identifier, as text. -/
  aggregate_id : String
  /-- The revision of the aggregate after the change. -/
  aggregate_revision : ℤ
  /-- When the change happened. -/
  occurred_at : UtcDatetime
  /-- The correlation of the command. -/
  correlation_id : String
  /-- The validated payload. -/
  payload : Payload
  deriving DecidableEq

/-- The `Literal` of `aggregate_type` in the model of each event type. -/
def aggregate_types : EventType → List String
  | .order_submitted | .order_accepted | .order_completed | .order_cancelled | .order_deleted =>
    ["order"]
  | .menu_updated => ["menu", "menu_item"]
  | .inventory_state_changed | .inventory_low => ["ingredient"]

/-- The default of `aggregate_type` in the model of each event type; the model of a catalog change has
none. -/
def aggregate_type_default : EventType → Option String
  | .order_submitted | .order_accepted | .order_completed | .order_cancelled | .order_deleted =>
    some "order"
  | .menu_updated => none
  | .inventory_state_changed | .inventory_low => some "ingredient"

/-- `aggregate_type` of the model of an event type. -/
def aggregate_type (event_type : EventType) (fields : Fields) : Validation String :=
  let validator := literal (aggregate_types event_type) id
  match aggregate_type_default event_type with
  | some default => field_default fields "aggregate_type" default validator
  | none => field fields "aggregate_type" validator

/-- A supplied aggregate type is compared with the texts of the model, also where it has a default. -/
theorem aggregate_type_of_lookup {event_type : EventType} {fields : Fields} {value : Value}
    (h : fields.lookup "aggregate_type" = some value) :
    aggregate_type event_type fields = literal (aggregate_types event_type) id value := by
  unfold aggregate_type field_default field
  rw [h]
  cases aggregate_type_default event_type <;> rfl

/-- `identity_matches_payload`. Type and key of the aggregate are those that the payload names. -/
def identity_matches_payload (e : Envelope) : Prop :=
  e.aggregate_type = e.payload.aggregate.1 ∧ e.aggregate_id = toString e.payload.aggregate.2

/-- Texts are compared. -/
instance (e : Envelope) : Decidable (identity_matches_payload e) := inferInstanceAs (Decidable (_ ∧ _))

/-! ## Validation -/

variable (py : Pydantic)

/-- The pattern of `correlation_id`, with its length. The text must be its own safe form. -/
def correlation_pattern (value : String) : Validation String :=
  check (safe_identifier value = value) value

/-- A nested payload: a dictionary for the model. -/
def payload_value (event_type : EventType) : Value → Validation Payload
  | .dict fields => payload_model py event_type fields
  | _ => .validation_error

/-- The names of the fields of an envelope. -/
def envelope_fields : List String :=
  ["event_id", "event_type", "schema_version", "organization_id", "restaurant_id", "aggregate_type",
    "aggregate_id", "aggregate_revision", "occurred_at", "correlation_id", "payload"]

/-- The envelope model of an event type. All but one of the models have a default for `aggregate_type`,
and each has one for `event_type` and `schema_version`, which `deserialize_event` demands before. -/
def envelope_model (event_type : EventType) (fields : Fields) : Validation Envelope :=
  ((fun event_id _ _ organization_id restaurant_id aggregate_type aggregate_id aggregate_revision
        occurred_at correlation_id payload _ =>
      (⟨event_id, organization_id, restaurant_id, aggregate_type, aggregate_id, aggregate_revision,
        occurred_at, correlation_id, payload⟩ : Envelope))
    <$> field_default fields "event_id" py.uuid4 (fun value => of_option (py.uuid value))
    <*> field_default fields "event_type" event_type (literal [event_type] EventType.value)
    <*> field_default fields "schema_version" () (fun value => check (py.literal_one value) ())
    <*> field fields "organization_id" (fun value => of_option (py.uuid value))
    <*> field fields "restaurant_id" (py.int_gt 0)
    <*> aggregate_type event_type fields
    <*> field fields "aggregate_id" (fun value => (string value).after (text_length 1 100))
    <*> field fields "aggregate_revision" (py.int_ge 1)
    <*> field fields "occurred_at" py.utc_time
    <*> field fields "correlation_id" (fun value => (string value).after correlation_pattern)
    <*> field fields "payload" (payload_value py event_type)
    <*> extra_forbid fields envelope_fields).after
  fun e => check (identity_matches_payload e) e

/-- `version != 1 or isinstance(version, bool)` fails: the version is a number that equals 1. -/
def version_one : Option Value → Bool
  | some (.int value) => value = 1
  | some (.float value) => value = 1
  | some (.decimal value) => value.1.value = some 1
  | _ => false

/-- `deserialize_event` of a dictionary: the type and the version are checked before the model of the
type is. -/
def deserialize_event (raw : Fields) : Except DecodeError Envelope :=
  match raw.lookup "event_type" with
  | some (.str text) =>
    match EventType.parse text with
    | none => .error .unsupported_event_version
    | some event_type =>
      if version_one (raw.lookup "schema_version") then
        match envelope_model py event_type raw with
        | .valid envelope => .ok envelope
        | .validation_error => .error .value_error
        | .raised => .error .other
      else .error .unsupported_event_version
  | _ => .error .unsupported_event_version

/-! ## Storage -/

/-- `serialize_event`. The result is what the outbox row holds, before it is written as text. -/
def serialize_event (e : Envelope) : Fields :=
  [("event_id", .str (py.str_uuid e.event_id)), ("event_type", .str e.payload.event_type.value),
    ("schema_version", .int 1), ("organization_id", .str (py.str_uuid e.organization_id)),
    ("restaurant_id", .int e.restaurant_id), ("aggregate_type", .str e.aggregate_type),
    ("aggregate_id", .str e.aggregate_id), ("aggregate_revision", .int e.aggregate_revision),
    ("occurred_at", .str (IsoTime.iso_text e.occurred_at)), ("correlation_id", .str e.correlation_id),
    ("payload", .dict (e.payload.dump py))]

/-- The row that `append_event` inserts: the columns of the envelope and the payload of its
serialization. -/
def outbox_event (traceparent : Option String) (e : Envelope) : OutboxEvent Fields :=
  { event_id := e.event_id, event_type := e.payload.event_type.value, schema_version := 1,
    organization_id := e.organization_id, restaurant_id := e.restaurant_id,
    aggregate_type := e.aggregate_type, aggregate_id := e.aggregate_id,
    aggregate_revision := e.aggregate_revision, occurred_at := e.occurred_at.1,
    correlation_id := e.correlation_id, traceparent := traceparent, payload := e.payload.dump py }

/-- A row whose time the driver can read as a `datetime`. -/
abbrev StoredEvent := {event : OutboxEvent Fields // datetime_range event.occurred_at}

/-- `event_facts`. They are the columns of the row, as the validation of the envelope receives them.
-/
def event_facts (event : StoredEvent) : Fields :=
  [("event_id", .uuid event.1.event_id), ("event_type", .str event.1.event_type),
    ("schema_version", .int event.1.schema_version),
    ("organization_id", .uuid event.1.organization_id),
    ("restaurant_id", .int event.1.restaurant_id), ("aggregate_type", .str event.1.aggregate_type),
    ("aggregate_id", .str event.1.aggregate_id),
    ("aggregate_revision", .int event.1.aggregate_revision),
    ("occurred_at", .datetime (.of_utc ⟨event.1.occurred_at, event.2⟩)),
    ("correlation_id", .str event.1.correlation_id), ("payload", .dict event.1.payload)]

/-- The validation of a row that the execution service runs once the type and the version are known.
A row whose time is beyond `datetime` cannot be read. -/
def contract (event : OutboxEvent Fields) : Validation Payload :=
  if h : datetime_range event.occurred_at then
    match EventType.parse event.event_type with
    | none => .validation_error
    | some event_type =>
      (·.payload) <$> envelope_model py event_type (event_facts ⟨event, h⟩)
  else .raised

/-- A row of a known type is validated by the model of the type. -/
theorem contract_of_type {event : StoredEvent} {event_type : EventType}
    (htype : EventType.parse event.1.event_type = some event_type) :
    contract py event.1 = Envelope.payload <$> envelope_model py event_type (event_facts event) := by
  unfold contract
  rw [dif_pos event.2, htype]

/-- What the two decoders have in common: the payload that they find, or the error that they raise. -/
theorem deserialize_contract (event : StoredEvent) :
    (Contract.deserialize_event py (event_facts event)).map Envelope.payload =
      (Events.deserialize_event (contract py) event.1).map EventEnvelope.payload := by
  obtain ⟨event, hrange⟩ := event
  have htype : (event_facts ⟨event, hrange⟩).lookup "event_type" = some (.str event.event_type) := rfl
  have hversion : version_one ((event_facts ⟨event, hrange⟩).lookup "schema_version") =
      decide (event.schema_version = 1) := rfl
  unfold Contract.deserialize_event Events.deserialize_event contract
  rw [htype, dif_pos hrange]
  dsimp only
  cases EventType.parse event.event_type with
  -- The type is none that the contracts know.
  | none => rfl
  | some event_type =>
    dsimp only
    rw [hversion]
    -- With version one both decoders run the envelope model.
    by_cases h : event.schema_version = 1
    · simp only [h, decide_true, if_true, ne_eq, not_true_eq_false, if_false]
      cases envelope_model py event_type (event_facts ⟨event, hrange⟩) with
      | valid e => rfl
      | validation_error => rfl
      | raised => rfl
    · -- Any other version is refused by both, in the same way.
      simp only [h, decide_false, Bool.false_eq_true, if_false, ne_eq, not_false_eq_true, if_true]
      rfl

end RestaurantOS.Events.Contract
