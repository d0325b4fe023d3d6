import RestaurantOS.Events.Codec
import RestaurantOS.Events.Numbers
import RestaurantOS.Events.Unclaimed

/-!
# Undecodable events

Which rows make `_start` fail outside its handlers, and what becomes of a delivery whose event cannot
be decoded. There are two kinds. `session.get` loads the payload before the handlers are entered, and
`json.loads` refuses an integer of more than 4300 digits (`get_event`). Of a row that is loaded, only
the two validators that convert a time to UTC can raise something other than a `ValueError`, so it is
decoded, rejected, or `Overflowing`. A delivery of a row that is rejected is failed by the execution
that finds it due, since such a delivery is unclaimed after every run.
-/

namespace RestaurantOS.Events

/-! ## Loading a row -/

/-- `sys.int_info.default_max_str_digits`: the most digits of a text that is read as an `int`. -/
def default_max_str_digits : ℕ := 4300

mutual

/-- Whether `json.loads` reads the text of a value: it raises a `ValueError` on an integer with more
digits than that, however deep the integer lies. -/
def Value.loads : Value → Bool
  | .int value => value.natAbs < 10 ^ default_max_str_digits
  | .list items => items_load items
  | .dict entries => entries_load entries
  | _ => true

/-- Whether `json.loads` reads the items of an array. -/
def items_load : List Value → Bool
  | [] => true
  | item :: items => item.loads && items_load items

/-- Whether `json.loads` reads the values of an object. -/
def entries_load : List (String × Value) → Bool
  | [] => true
  | (_, value) :: entries => value.loads && entries_load entries

end

namespace Contract

open Validation Pydantic

/-- `session.get` in `_start`: the row, or nothing where loading its payload raises. The call stands
before the handlers of `_start`, so the error leaves the executor. -/
def get_event (event : StoredEvent) : Option StoredEvent :=
  if entries_load event.1.payload then some event else none

/-- The field of a payload that its model converts to UTC. -/
def timestamp_field : EventType → Option String
  | .order_completed | .order_deleted => some "created_at"
  | .inventory_low => some "opened_at"
  | _ => none

/-- A value that is read as a time whose instant in UTC leaves the years 1 to 9999. -/
def overflows (py : Pydantic) (value : Value) : Prop :=
  ∃ time offset, py.datetime value = some time ∧ time.utcoffset = some offset ∧
    ¬ datetime_range (time.wall - offset)

/-- A row of a known type and version with such a time in its payload. -/
def Overflowing (py : Pydantic) (event : OutboxEvent Fields) : Prop :=
  event.schema_version = 1 ∧ ∃ event_type name value,
    EventType.parse event.event_type = some event_type ∧ timestamp_field event_type = some name ∧
      event.payload.lookup name = some value ∧ overflows py value

section Raising

variable (py : Pydantic)

/-- A required field raises if its validator does on its value. -/
@[simp] theorem field_eq_raised {α : Type} {fields : Fields} {name : String}
    {validator : Value → Validation α} :
    field fields name validator = .raised ↔
      ∃ value, fields.lookup name = some value ∧ validator value = .raised := by
  unfold field
  cases fields.lookup name <;> simp

/-- So does a field with a default. -/
@[simp] theorem field_default_eq_raised {α : Type} {fields : Fields} {name : String} {default : α}
    {validator : Value → Validation α} :
    field_default fields name default validator = .raised ↔
      ∃ value, fields.lookup name = some value ∧ validator value = .raised := by
  unfold field_default
  cases fields.lookup name <;> simp

/-- Unknown fields are a validation error at worst. -/
@[simp] theorem extra_forbid_eq_raised (fields : Fields) (names : List String) :
    extra_forbid fields names = .raised ↔ False := check_eq_raised _ _

/-- An integer out of its bound is a validation error at worst. -/
@[simp] theorem int_gt_eq_raised (bound : ℤ) (value : Value) :
    py.int_gt bound value = .raised ↔ False := by
  simp [int_gt]

/-- An integer out of its bound is a validation error at worst. -/
@[simp] theorem int_ge_eq_raised (bound : ℤ) (value : Value) :
    py.int_ge bound value = .raised ↔ False := by
  simp [int_ge]

/-- A value that is no list of integers is a validation error at worst. -/
@[simp] theorem int_tuple_eq_raised (value : Value) : py.int_tuple value = .raised ↔ False := by
  unfold int_tuple
  split <;> simp

/-- A text that is none of the options is a validation error at worst. -/
@[simp] theorem literal_eq_raised {α : Type} (options : List α) (text : α → String) (value : Value) :
    literal options text value = .raised ↔ False := by
  unfold literal
  split <;> simp

/-- A value that is no text is a validation error at worst. -/
@[simp] theorem string_eq_raised (value : Value) : string value = .raised ↔ False := by
  unfold string
  split <;> simp

/-- A text of another length is a validation error at worst. -/
@[simp] theorem text_length_eq_raised (min_length max_length : ℕ) (value : String) :
    text_length min_length max_length value = .raised ↔ False := check_eq_raised _ _

/-- A text without the pattern is a validation error at worst. -/
@[simp] theorem correlation_pattern_eq_raised (value : String) :
    correlation_pattern value = .raised ↔ False := check_eq_raised _ _

/-- An optional field raises if its validator does. -/
theorem nullable_ne_raised {α : Type} {validator : Value → Validation α}
    (h : ∀ value, validator value ≠ .raised) (value : Value) : nullable validator value ≠ .raised := by
  unfold nullable
  split
  · exact nofun
  · rw [ne_eq, map_eq_raised]
    exact h value

/-- The conversion of a time to UTC raises exactly if it leaves the years 1 to 9999. -/
@[simp] theorem astimezone_eq_raised (time : Datetime) (offset : Timedelta) :
    astimezone time offset = .raised ↔ ¬ datetime_range (time.wall - offset) := by
  rw [← Datetime.astimezone_utc_eq_none, astimezone]
  cases time.astimezone_utc offset <;> simp

/-- A field with a time in UTC raises exactly on an overflow. -/
theorem utc_time_eq_raised (value : Value) : py.utc_time value = .raised ↔ overflows py value := by
  unfold utc_time overflows
  rw [after_eq_raised, of_option_eq_raised, false_or]
  refine exists_congr fun time => ?_
  unfold utc_timestamp
  cases time.utcoffset <;> simp

/-- So does a field with a creation time. -/
theorem creation_time_eq_raised (value : Value) :
    py.creation_time value = .raised ↔ overflows py value := by
  unfold creation_time overflows
  rw [after_eq_raised, of_option_eq_raised, false_or]
  refine exists_congr fun time => ?_
  unfold order_creation_timestamp
  cases time.utcoffset <;> simp

/-- A payload model raises exactly on an overflow of its time. -/
theorem payload_model_eq_raised (event_type : EventType) (fields : Fields) :
    payload_model py event_type fields = .raised ↔ ∃ name value,
      timestamp_field event_type = some name ∧ fields.lookup name = some value ∧
        overflows py value := by
  have hnullable : ∀ {α : Type} {validator : Value → Validation α},
      (∀ value, validator value ≠ .raised) → ∀ value, nullable validator value = .raised ↔ False :=
    fun h value => iff_false_intro (nullable_ne_raised h value)
  have huuid : ∀ value, of_option (py.uuid value) ≠ .raised := fun value h => by simp at h
  have htransition : ∀ value, literal transitions transition_value value ≠ .raised := by simp
  have hreason : ∀ value, literal resolution_reasons resolution_reason_value value ≠ .raised := by simp
  cases event_type <;>
    simp [payload_model, timestamp_field, order_submitted_payload, order_accepted_payload,
      order_cancelled_payload, order_status_payload, order_completed_payload, order_deleted_payload,
      menu_updated_payload, validate_affected_ids, inventory_state_changed_payload,
      inventory_low_payload, utc_time_eq_raised, creation_time_eq_raised, hnullable huuid,
      hnullable htransition, hnullable hreason]

/-- A column with a time never overflows. -/
theorem not_overflows_utc (py : LawfulPydantic) (instant : UtcDatetime) :
    ¬ overflows py (.datetime (.of_utc instant)) := by
  rintro ⟨time, offset, htime, hoffset, hrange⟩
  rw [py.2.datetime_datetime] at htime
  cases htime
  cases hoffset
  rw [sub_zero] at hrange
  exact hrange instant.2

/-- The envelope of a row raises exactly if its payload does. -/
theorem envelope_model_eq_raised (py : LawfulPydantic) (event_type : EventType) (event : StoredEvent) :
    envelope_model py event_type (event_facts event) = .raised ↔
      payload_model py event_type event.1.payload = .raised := by
  have htime : (event_facts event).lookup "occurred_at" =
      some (.datetime (.of_utc ⟨event.1.occurred_at, event.2⟩)) := rfl
  have hpayload : (event_facts event).lookup "payload" = some (.dict event.1.payload) := rfl
  have haggregate : aggregate_type event_type (event_facts event) = .raised ↔ False := by
    rw [aggregate_type_of_lookup rfl]
    exact literal_eq_raised _ _ _
  unfold envelope_model
  rw [after_eq_raised]
  simp [utc_time_eq_raised, htime, hpayload, not_overflows_utc, payload_value, haggregate]

/-- A row whose decoding raises something other than a `ValueError` is an overflowing one. -/
theorem deserialize_event_other (py : LawfulPydantic) (event : StoredEvent) :
    Events.deserialize_event (contract py) event.1 = .error .other ↔ Overflowing py event.1 := by
  unfold Events.deserialize_event Overflowing contract
  cases htype : EventType.parse event.1.event_type with
  | none => simp
  | some event_type =>
    by_cases hversion : event.1.schema_version = 1
    · -- The version is one, so the models are what decides.
      -- The row decodes as its validation does, which raises as its payload does.
      have hraised : (∃ t name value, some event_type = some t ∧ timestamp_field t = some name ∧
          event.1.payload.lookup name = some value ∧ overflows py value) ↔
            Envelope.payload <$> envelope_model py event_type (event_facts event) = .raised := by
        rw [map_eq_raised, envelope_model_eq_raised, payload_model_eq_raised]
        constructor
        · rintro ⟨t, name, value, ht, hfield⟩
          cases ht
          exact ⟨name, value, hfield⟩
        · rintro ⟨name, value, hfield⟩
          exact ⟨event_type, name, value, rfl, hfield⟩
      -- The decoding of the row is the case that its validation has.
      rw [hraised]
      simp only [hversion, ne_eq, not_true_eq_false, if_false, dif_pos event.2, true_and]
      cases Envelope.payload <$> envelope_model py.1 event_type (event_facts event) <;> simp
    · -- With another version the row is refused before any model runs.
      simp [hversion]

/-- The two decoders of a row fail alike. The model's decoder drops the payload it has validated,
but raises the same errors. -/
theorem deserialize_event_error (event : StoredEvent) (error : DecodeError) :
    Contract.deserialize_event py (event_facts event) = .error error ↔
      Events.deserialize_event (contract py) event.1 = .error error := by
  -- Both decode to the same payload or fail with the same error.
  have h := deserialize_contract py event
  cases hfacts : Contract.deserialize_event py (event_facts event) with
  | error e =>
    rw [hfacts] at h
    cases hrow : Events.deserialize_event (contract py) event.1 with
    | error e' =>
      rw [hrow] at h
      cases h
      simp
    | ok envelope =>
      rw [hrow] at h
      cases h
  | ok envelope =>
    rw [hfacts] at h
    cases hrow : Events.deserialize_event (contract py) event.1 with
    | error e' =>
      rw [hrow] at h
      cases h
    | ok envelope' => simp

end Raising

/-! ## Settlement -/

/-- The category that `_start` records for an error of the decoder; it handles no other error. -/
def failure_category : DecodeError → Option ErrorCategory
  | .unsupported_event_version => some .unsupported_version
  | .value_error => some .invalid_payload
  | .other => none

/-- A poison event is always settled: the row is read, whatever the decoder raises is handled, and
after every run an execution that finds a delivery of the event due fails it with the category of the
error, charges it one failed attempt, and acknowledges the reference. -/
structure PoisonSettled (py : Pydantic) (event : StoredEvent) : Prop where
  /-- `session.get` returns the row. -/
  read : get_event event = some event
  /-- Every error of the decoder is handled. -/
  handled : ∀ error, Contract.deserialize_event py (event_facts event) = .error error →
    (failure_category error).isSome
  /-- Every execution that finds a delivery due settles it. -/
  settled : ∀ deployment : Deployment Fields Payload, deployment.validate_python = contract py →
    ∀ now acts,
      Keyed.lookup OutboxEvent.event_id event.1.event_id (deployment.run now acts).database.events =
        some event.1 →
      ∀ r ∈ (deployment.run now acts).database.deliveries,
        r.delivery.event_id = event.1.event_id → r.Due (deployment.run now acts).now →
        ∀ error, Contract.deserialize_event py (event_facts event) = .error error →
        ∀ fields settings worker_id, deployment.reference_matches fields event.1 = true →
          ∃ category attempt row, failure_category error = some category ∧
            deployment.start (deployment.run now acts).database (deployment.run now acts).now
              event.1.event_id r.delivery.consumer_name fields settings worker_id false =
                some ({ (deployment.run now acts).database.write (some row) with
                    next_uuid := (deployment.run now acts).database.next_uuid + 2 },
                  .result ⟨.contract_rejected category, true,
                    some (safe_identifier event.1.correlation_id)⟩) ∧
            row.route = r.route ∧ row.delivery.status = .failed ∧
            row.delivery.last_error_category = some category ∧
            row.delivery.attempt_count = r.delivery.attempt_count + 1 ∧
            row.attempts = r.attempts ++ [attempt] ∧ attempt.status = .failed ∧
            attempt.error_category = some category

/-- What `_start` makes of an error of the decoder. A `ValueError` becomes the permanent failure,
and any other error goes through. -/
theorem decode_failure {py : Pydantic} {deployment : Deployment Fields Payload}
    (hcontract : deployment.validate_python = contract py) (settings : ServiceSettings)
    {event : StoredEvent} {error : DecodeError}
    (h : Contract.deserialize_event py (event_facts event) = .error error) {category : ErrorCategory}
    (hcategory : failure_category error = some category) :
    (deployment.service settings).decode event.1 = some (.error category) := by
  have hdecode : Events.deserialize_event (deployment.service settings).validate_python event.1 =
      .error error := by
    rw [← deserialize_event_error py event error |>.mp h, ← hcontract]
    rfl
  unfold ConsumerExecutionService.decode
  rw [hdecode]
  cases error <;> cases hcategory <;> rfl

/-- A row is read exactly if its payload loads. -/
theorem get_event_eq_some {event : StoredEvent} :
    get_event event = some event ↔ entries_load event.1.payload = true := by
  unfold get_event
  split_ifs with h
  · exact iff_of_true rfl h
  · exact iff_of_false (by rintro ⟨⟩) h

/-- A poison event is always settled exactly if its payload loads and holds no time that a
conversion to UTC moves out of the years 1 to 9999. The first condition is the one of `json.loads`,
and the second that of `astimezone`, which both act before the failure is classified. -/
theorem poison_settled_iff (py : LawfulPydantic) (event : StoredEvent) :
    PoisonSettled py event ↔ entries_load event.1.payload = true ∧ ¬ Overflowing py event.1 := by
  constructor
  · -- An overflow raises what `_start` does not catch.
    intro h
    refine ⟨get_event_eq_some.mp h.read, fun hoverflow => ?_⟩
    have herror := (deserialize_event_error py.1 event .other).mpr
      ((deserialize_event_other py event).mpr hoverflow)
    exact absurd (h.handled .other herror) (by decide)
  · rintro ⟨hload, hrange⟩
    -- The two errors that the decoder raises otherwise both have a category.
    have hhandled : ∀ error, Contract.deserialize_event py.1 (event_facts event) = .error error →
        (failure_category error).isSome := by
      intro error herror
      cases error with
      | unsupported_event_version => rfl
      | value_error => rfl
      | other =>
        exact absurd ((deserialize_event_other py event).mp
          ((deserialize_event_error py.1 event .other).mp herror)) hrange
    refine ⟨get_event_eq_some.mpr hload, hhandled, ?_⟩
    intro deployment hcontract now acts hevent r hr hid hdue error herror fields settings worker_id
      hmatches
    obtain ⟨category, hcategory⟩ := Option.isSome_iff_exists.mp (hhandled error herror)
    -- The deployment decodes by the contract, so the event is undecodable in it.
    have hundecodable : deployment.Undecodable event.1 := by
      intro envelope henvelope
      rw [hcontract, (deserialize_event_error py.1 event error).mp herror] at henvelope
      cases henvelope
    have hunclaimed : r.Unclaimed (deployment.service settings).policy :=
      deployment.run_unclaimed now acts r hr event.1 (hid ▸ hevent) hundecodable
    -- The route has one row, which is the one that is locked.
    have hlock : (deployment.run now acts).database.lock_delivery
        (event.1.event_id, r.delivery.consumer_name) = some r :=
      (deployment.run_inv now acts).database.routes.lookup_eq_some.mpr ⟨hr, by rw [← hid]; rfl⟩
    -- `_start` charges one attempt that has failed with the category.
    have hstart := ConsumerExecutionService.start_undecodable hunclaimed hdue
      (decode_failure hcontract settings herror hcategory) worker_id
      (deployment.run now acts).database.next_uuid
    generalize deployment.run now acts = w at *
    refine ⟨category, r.new_attempt w.database.next_uuid (w.database.next_uuid + 1) w.now (some category),
      (r.begin_attempt w.database.next_uuid (w.database.next_uuid + 1) worker_id w.now
        (w.now + timedelta_seconds settings.lease_seconds) (some category)).clear_claim, hcategory, ?_,
      rfl, rfl, rfl, rfl, rfl, rfl, rfl⟩
    unfold Deployment.start
    simp only [hevent, hmatches, hlock, hstart, Bool.not_true, Bool.false_eq_true, if_false]
    rfl

/-- An event of a completed order whose creation time, an hour west of UTC, is half an hour before the
end of year 9999. -/
def late_creation_time : StoredEvent where
  val :=
    { event_id := 1, event_type := "order.completed.v1", schema_version := 1, organization_id := 2,
      restaurant_id := 1, aggregate_type := "order", aggregate_id := "7", aggregate_revision := 3,
      occurred_at := 1767225600000000, correlation_id := "request-1", traceparent := none,
      payload := [("order_id", .int 7), ("total", .str "12.50"),
        ("created_at", .str "9999-12-31T23:30:00-01:00")] }
  property := by decide

/-- Its decoding raises an `OverflowError`, so the event is not settled. -/
theorem late_creation_time_unsettled : ¬ PoisonSettled Pydantic.strict late_creation_time := by
  have hoverflow : Overflowing Pydantic.strict late_creation_time.1 :=
    ⟨rfl, .order_completed, "created_at", .str "9999-12-31T23:30:00-01:00", rfl, rfl, rfl,
      ⟨253402299000000000, some (-3600000000), by decide, by decide⟩, -3600000000, by decide +kernel,
      rfl, by decide⟩
  rw [poison_settled_iff]
  exact fun h => h.2 hoverflow

/-- The payload of a submitted order with a key of 4301 digits does not load, so its event is not
settled either. -/
example : entries_load [("order_id", .int (10 ^ 4300)), ("status", .str "SUBMITTED")] = false := by
  decide +kernel

end Contract

end RestaurantOS.Events
