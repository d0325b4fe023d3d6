import RestaurantOS.Events.Codec
import RestaurantOS.Events.Numbers

/-!
# The round trip of an event

A valid envelope is stored in columns and a JSON payload, read back and decoded to an envelope that
equals it, numbers compared by value; and the decoded envelope is serialized and decoded to itself.
Reading back changes the representation of a number only: it loses a positive exponent (`fixed`). So
each model is shown to accept the dump of a valid payload as its `fixed` form, and the two theorems
follow for the columns of a row and for a serialized envelope.
-/

namespace RestaurantOS.Events.Contract

open Validation Pydantic Inventory

/-! ## Valid envelopes -/

/-- A `Decimal` that `MoneyString` accepts. The bound is that of a money column. -/
def money (value : Decimal) : Prop := bounded (9999999999 / 100) 2 value

/-- A `Decimal` that `QuantityString` accepts. The bound is that of a quantity column. -/
def quantity (value : Decimal) : Prop := bounded (999999999999 / 1000) 3 value

/-- What the validators of a payload model establish. -/
def Payload.Valid : Payload → Prop
  | order_submitted id | order_accepted id | order_cancelled id => 0 < id
  | order_completed id total _ => 0 < id ∧ money total
  | order_deleted id prior_status total _ =>
    0 < id ∧ (1 ≤ prior_status.length ∧ prior_status.length ≤ 50) ∧ money total
  | menu_updated _ _ target_id menu_id affected =>
    0 < target_id ∧ 0 < menu_id ∧ (∀ value ∈ affected, 0 < value) ∧ affected.Nodup
  | inventory_state_changed p =>
    0 < p.ingredient_id ∧ (1 ≤ p.ingredient_name.length ∧ p.ingredient_name.length ≤ 255) ∧
      quantity p.quantity ∧ quantity p.reorder_threshold ∧ validate_state_and_episode p
  | inventory_low p =>
    0 < p.ingredient_id ∧ (1 ≤ p.ingredient_name.length ∧ p.ingredient_name.length ≤ 255) ∧
      quantity p.opening_quantity ∧ quantity p.reorder_threshold ∧
      decimal_le p.opening_quantity p.reorder_threshold

/-- What the validators of an envelope model establish. -/
structure Envelope.Valid (e : Envelope) : Prop where
  /-- The restaurant's key is positive. -/
  restaurant_id : 0 < e.restaurant_id
  /-- The aggregate's identifier fits its column. -/
  aggregate_id : 1 ≤ e.aggregate_id.length ∧ e.aggregate_id.length ≤ 100
  /-- Revisions start at 1. -/
  aggregate_revision : 1 ≤ e.aggregate_revision
  /-- The correlation has the pattern. -/
  correlation_id : safe_identifier e.correlation_id = e.correlation_id
  /-- The payload is valid. -/
  payload : e.payload.Valid
  /-- The aggregate is that of the payload. -/
  identity : identity_matches_payload e

/-! ## Equality -/

/-- The payload with its numbers in positional notation. -/
def Payload.fixed : Payload → Payload
  | order_completed id total created_at => order_completed id total.fixed created_at
  | order_deleted id prior_status total created_at =>
    order_deleted id prior_status total.fixed created_at
  | inventory_state_changed p =>
    inventory_state_changed
      { p with quantity := p.quantity.fixed, reorder_threshold := p.reorder_threshold.fixed }
  | inventory_low p =>
    inventory_low
      { p with opening_quantity := p.opening_quantity.fixed,
               reorder_threshold := p.reorder_threshold.fixed }
  | p => p

/-- Equality of payloads, numbers compared by value. Two texts of one number may have different
trailing zeros. -/
def Payload.equal : Payload → Payload → Prop
  | order_completed id total created_at, order_completed id' total' created_at' =>
    id = id' ∧ total.value = total'.value ∧ created_at = created_at'
  | order_deleted id prior total created_at, order_deleted id' prior' total' created_at' =>
    id = id' ∧ prior = prior' ∧ total.value = total'.value ∧ created_at = created_at'
  | inventory_state_changed p, inventory_state_changed p' =>
    p.quantity.value = p'.quantity.value ∧ p.reorder_threshold.value = p'.reorder_threshold.value ∧
      { p with quantity := p'.quantity, reorder_threshold := p'.reorder_threshold } = p'
  | inventory_low p, inventory_low p' =>
    p.opening_quantity.value = p'.opening_quantity.value ∧
      p.reorder_threshold.value = p'.reorder_threshold.value ∧
      { p with opening_quantity := p'.opening_quantity, reorder_threshold := p'.reorder_threshold } = p'
  | p, p' => p = p'

/-- Equality of envelopes. All fields are equal and the payloads are in this sense. -/
def Envelope.equal (e e' : Envelope) : Prop :=
  e.payload.equal e'.payload ∧ { e with payload := e'.payload } = e'

/-- The envelope with the numbers of its payload in positional notation. -/
def Envelope.fixed (e : Envelope) : Envelope := { e with payload := e.payload.fixed }

/-- Positional notation does not change a payload. -/
theorem Payload.fixed_equal (p : Payload) : p.fixed.equal p := by
  cases p <;> simp [Payload.fixed, Payload.equal, Decimal.fixed_value]

/-- A payload in positional notation stays as it is. -/
theorem Payload.fixed_fixed (p : Payload) : p.fixed.fixed = p.fixed := by
  cases p <;> simp [Payload.fixed, Decimal.fixed_fixed]

/-- Positional notation keeps the bounds of money. -/
theorem money_fixed {value : Decimal} (h : money value) : money value.fixed :=
  bounded_fixed (by norm_num) h

/-- Positional notation keeps the bounds of a quantity. -/
theorem quantity_fixed {value : Decimal} (h : quantity value) : quantity value.fixed :=
  bounded_fixed (by norm_num) h

/-- Positional notation keeps order. -/
theorem decimal_le_fixed (a b : Decimal) : decimal_le a.fixed b.fixed = decimal_le a b := by
  unfold decimal_le
  rw [Decimal.fixed_value, Decimal.fixed_value]

/-- Positional notation keeps validity. A number is the same in it, with as many decimal places. -/
theorem Payload.fixed_valid {p : Payload} (h : p.Valid) : p.fixed.Valid := by
  cases p with
  | order_completed => exact ⟨h.1, money_fixed h.2⟩
  | order_deleted => exact ⟨h.1, h.2.1, money_fixed h.2.2⟩
  | inventory_state_changed p =>
    obtain ⟨hid, hname, hquantity, hthreshold, hstate⟩ := h
    refine ⟨hid, hname, quantity_fixed hquantity, quantity_fixed hthreshold, ?_⟩
    unfold validate_state_and_episode at hstate ⊢
    rwa [decimal_le_fixed]
  | inventory_low p =>
    obtain ⟨hid, hname, hquantity, hthreshold, hle⟩ := h
    refine ⟨hid, hname, quantity_fixed hquantity, quantity_fixed hthreshold, ?_⟩
    rwa [decimal_le_fixed]
  | order_submitted | order_accepted | order_cancelled | menu_updated => exact h

/-- Positional notation keeps the type and the aggregate. -/
theorem Payload.fixed_aggregate (p : Payload) :
    p.fixed.event_type = p.event_type ∧ p.fixed.aggregate = p.aggregate := by
  cases p <;> exact ⟨rfl, rfl⟩

/-! ## Models accept what they dump -/

section Dump

variable (py : LawfulPydantic)

/-- A positive number is accepted. -/
theorem int_gt_int {n bound : ℤ} (h : bound < n) : py.1.int_gt bound (.int n) = .valid n := by
  rw [int_gt, py.2.int_int, of_option, valid_after, check, if_pos h]

/-- A dumped sum of money is accepted. -/
theorem money_dump {value : Decimal} (h : money value) :
    py.1.money_string (Payload.dump_decimal value) = .valid value.fixed :=
  bounded_string_format_f py.1 (by norm_num) h

/-- A dumped quantity is accepted. -/
theorem quantity_dump {value : Decimal} (h : quantity value) :
    py.1.quantity_string (Payload.dump_decimal value) = .valid value.fixed :=
  bounded_string_format_f py.1 (by norm_num) h

/-- The text of a time in UTC reads as it. -/
theorem datetime_text (instant : UtcDatetime) :
    py.1.datetime (.str (IsoTime.iso_text instant)) = some (.of_utc instant) :=
  py.2.datetime_iso _ _ (IsoTime.read_iso_text instant)

/-- A time in UTC is kept. -/
theorem astimezone_of_utc (instant : UtcDatetime) :
    astimezone (Datetime.of_utc instant) 0 = .valid instant := by
  rw [astimezone, Datetime.astimezone_of_utc]

/-- A dumped time is accepted. -/
theorem utc_time_dump (instant : UtcDatetime) :
    py.1.utc_time (.str (IsoTime.iso_text instant)) = .valid instant := by
  rw [utc_time, datetime_text]
  exact astimezone_of_utc instant

/-- A dumped creation time is accepted. -/
theorem creation_time_dump (instant : UtcDatetime) :
    py.1.creation_time (.str (IsoTime.iso_text instant)) = .valid instant := by
  rw [creation_time, datetime_text]
  exact astimezone_of_utc instant

/-- A dumped list of numbers is accepted. -/
theorem int_tuple_dump (values : List ℤ) : py.1.int_tuple (.list (values.map .int)) = .valid values := by
  have hmap : (values.map Value.int).mapM py.1.int = some values := by
    induction values with
    | nil => rfl
    | cons n values ih => simp [py.2.int_int, ih]
  rw [int_tuple, hmap, of_option]

/-- A text within its bounds is accepted. -/
theorem text_dump {min_length max_length : ℕ} {text : String}
    (h : min_length ≤ text.length ∧ text.length ≤ max_length) :
    (string (.str text)).after (text_length min_length max_length) = .valid text := by
  rw [string, valid_after, text_length, check, if_pos h]

/-- The dump of an optional value is accepted if the dump of a value is. -/
theorem nullable_dump {α : Type} {validator : Value → Validation α} {dump : α → Value}
    (hdump : ∀ x, dump x ≠ .none ∧ validator (dump x) = .valid x) (value : Option α) :
    nullable validator (Payload.dump_optional dump value) = .valid value := by
  cases value with
  | none => rfl
  | some x =>
    obtain ⟨hne, hvalid⟩ := hdump x
    show nullable validator (dump x) = _
    unfold nullable
    split
    · exact absurd (by assumption) hne
    · rw [hvalid]
      rfl

/-! Each model accepts its dump: the fields are looked up one by one, and no key is left. -/

/-- The three models of an order and its status. -/
theorem order_status_payload_dump {id : ℤ} (h : 0 < id) (status : String) (payload : ℤ → Payload) :
    order_status_payload py.1 status payload [("order_id", .int id), ("status", .str status)] =
      .valid (payload id) := by
  simp [order_status_payload, field, field_default, List.lookup_cons, int_gt_int py h, literal,
    extra_forbid, check]

/-- `OrderCompletedPayload`. -/
theorem order_completed_dump {id : ℤ} {total : Decimal} (h : 0 < id ∧ money total)
    (created_at : UtcDatetime) :
    order_completed_payload py.1 ((Payload.order_completed id total created_at).dump py.1) =
      .valid (.order_completed id total.fixed created_at) := by
  simp [order_completed_payload, Payload.dump, field, List.lookup_cons, int_gt_int py h.1,
    money_dump py h.2, creation_time_dump, extra_forbid, check]

/-- `OrderDeletedPayload`. -/
theorem order_deleted_dump {id : ℤ} {prior_status : String} {total : Decimal}
    {created_at : UtcDatetime} (h : (Payload.order_deleted id prior_status total created_at).Valid) :
    order_deleted_payload py.1 ((Payload.order_deleted id prior_status total created_at).dump py.1) =
      .valid (.order_deleted id prior_status total.fixed created_at) := by
  obtain ⟨hid, hstatus, htotal⟩ := h
  simp [order_deleted_payload, Payload.dump, field, List.lookup_cons, int_gt_int py hid,
    money_dump py htotal, text_dump hstatus, creation_time_dump, extra_forbid, check]

/-- `MenuUpdatedPayload`. Operation and target are read from their texts, and the keys as integers.
-/
theorem menu_updated_dump {operation : CatalogOperation} {target_type : CatalogTarget}
    {target_id menu_id : ℤ} {affected : List ℤ}
    (h : (Payload.menu_updated operation target_type target_id menu_id affected).Valid) :
    menu_updated_payload py.1
        ((Payload.menu_updated operation target_type target_id menu_id affected).dump py.1) =
      .valid (.menu_updated operation target_type target_id menu_id affected) := by
  obtain ⟨htarget, hmenu, haffected⟩ := h
  have hoperation : literal CatalogOperation.all CatalogOperation.value (.str operation.value) =
      .valid operation := by
    cases operation <;> rfl
  have htype : literal CatalogTarget.all CatalogTarget.value (.str target_type.value) =
      .valid target_type := by
    cases target_type <;> rfl
  have hids : validate_affected_ids affected = .valid affected := if_pos haffected
  simp [menu_updated_payload, Payload.dump, field, field_default, List.lookup_cons, hoperation, htype,
    int_gt_int py htarget, int_gt_int py hmenu, int_tuple_dump, hids, extra_forbid, check]

/-- The text of a unit is its literal. -/
theorem unit_dump (unit : InventoryUnit) :
    literal units InventoryUnit.value (.str unit.value) = .valid unit := by
  cases unit <;> rfl

/-- `InventoryStateChangedPayload`. The numbers come back in positional notation, and the optional
fields as they were. -/
theorem inventory_state_changed_dump {p : InventoryStateChangedPayload}
    (h : (Payload.inventory_state_changed p).Valid) :
    inventory_state_changed_payload py.1 ((Payload.inventory_state_changed p).dump py.1) =
      .valid (Payload.inventory_state_changed p).fixed := by
  have hfixed : validate_state_and_episode
      { p with quantity := p.quantity.fixed, reorder_threshold := p.reorder_threshold.fixed } :=
    (Payload.fixed_valid h).2.2.2.2
  obtain ⟨hid, hname, hquantity, hthreshold, -⟩ := h
  have hepisode := @nullable_dump UUID (fun value => of_option (py.1.uuid value))
    (fun id => .str (py.1.str_uuid id)) (fun id => ⟨nofun, by rw [py.2.uuid_str, of_option_some]⟩)
    p.episode_id
  have htransition := @nullable_dump _ (literal transitions transition_value)
    (fun t => .str (transition_value t)) (fun t => ⟨nofun, by cases t <;> rfl⟩) p.episode_transition
  have hreason := @nullable_dump _ (literal resolution_reasons resolution_reason_value)
    (fun r => .str (resolution_reason_value r)) (fun r => ⟨nofun, by cases r <;> rfl⟩)
    p.resolution_reason
  simp [inventory_state_changed_payload, Payload.dump, field, field_default, List.lookup_cons,
    int_gt_int py hid, text_dump hname, unit_dump, quantity_dump py hquantity,
    quantity_dump py hthreshold, py.2.bool_bool, hepisode, htransition, hreason,
    extra_forbid, check, hfixed, Payload.fixed]

/-- `InventoryLowPayload`. The balance and the threshold come back in positional notation. -/
theorem inventory_low_dump {p : InventoryLowPayload} (h : (Payload.inventory_low p).Valid) :
    inventory_low_payload py.1 ((Payload.inventory_low p).dump py.1) =
      .valid (Payload.inventory_low p).fixed := by
  have hfixed : decimal_le p.opening_quantity.fixed p.reorder_threshold.fixed :=
    (Payload.fixed_valid h).2.2.2.2
  obtain ⟨hid, hname, hquantity, hthreshold, -⟩ := h
  simp [inventory_low_payload, Payload.dump, field, List.lookup_cons, int_gt_int py hid, text_dump hname,
    unit_dump, quantity_dump py hquantity, quantity_dump py hthreshold, py.2.uuid_str,
    utc_time_dump, extra_forbid, check, hfixed, Payload.fixed]

/-- Every model accepts the dump of a valid payload. What it accepts is the payload in positional
notation, which the stored text says. -/
theorem payload_model_dump {p : Payload} (h : p.Valid) :
    payload_model py.1 p.event_type (p.dump py.1) = .valid p.fixed := by
  cases p with
  | order_submitted id => exact order_status_payload_dump py h "SUBMITTED" .order_submitted
  | order_accepted id => exact order_status_payload_dump py h "ACCEPTED" .order_accepted
  | order_completed id total created_at => exact order_completed_dump py h created_at
  | order_cancelled id => exact order_status_payload_dump py h "CANCELLED" .order_cancelled
  | order_deleted id prior_status total created_at => exact order_deleted_dump py h
  | menu_updated operation target_type target_id menu_id affected => exact menu_updated_dump py h
  | inventory_state_changed p => exact inventory_state_changed_dump py h
  | inventory_low p => exact inventory_low_dump py h

/-! ## Envelopes -/

/-- The kind of aggregate is one of its model's. -/
theorem aggregate_type_dump (p : Payload) :
    literal (aggregate_types p.event_type) id (.str p.aggregate.1) = .valid p.aggregate.1 := by
  cases p with
  | menu_updated operation target_type => cases target_type <;> rfl
  | _ => rfl

/-- The text of an event type is its literal, and parses as it. -/
theorem event_type_dump (event_type : EventType) :
    literal [event_type] EventType.value (.str event_type.value) = .valid event_type ∧
      EventType.parse event_type.value = some event_type := by
  cases event_type <;> exact ⟨rfl, rfl⟩

/-- A positive revision is accepted. -/
theorem int_ge_int {n bound : ℤ} (h : bound ≤ n) : py.1.int_ge bound (.int n) = .valid n := by
  rw [int_ge, py.2.int_int, of_option_some, valid_after, check, if_pos h]

/-- A dictionary with the fields of a valid envelope, in the form of columns or of JSON, is accepted as
the envelope with its numbers in positional notation. -/
theorem envelope_model_dump {e : Envelope} (h : e.Valid) {event_id organization_id occurred_at : Value}
    (hevent : py.1.uuid event_id = some e.event_id)
    (horganization : py.1.uuid organization_id = some e.organization_id)
    (hoccurred : py.1.utc_time occurred_at = .valid e.occurred_at) :
    envelope_model py.1 e.payload.event_type
        [("event_id", event_id), ("event_type", .str e.payload.event_type.value),
          ("schema_version", .int 1), ("organization_id", organization_id),
          ("restaurant_id", .int e.restaurant_id), ("aggregate_type", .str e.aggregate_type),
          ("aggregate_id", .str e.aggregate_id), ("aggregate_revision", .int e.aggregate_revision),
          ("occurred_at", occurred_at), ("correlation_id", .str e.correlation_id),
          ("payload", .dict (e.payload.dump py.1))] = .valid e.fixed := by
  -- The aggregate type is the one of the payload.
  have haggregate : ∀ fields : Fields,
      fields.lookup "aggregate_type" = some (.str e.aggregate_type) →
        aggregate_type e.payload.event_type fields = .valid e.aggregate_type := by
    intro fields hlookup
    rw [aggregate_type_of_lookup hlookup, h.identity.1]
    exact aggregate_type_dump e.payload
  have hcorrelation : (string (.str e.correlation_id)).after correlation_pattern =
      .valid e.correlation_id := if_pos h.correlation_id
  -- The payload is accepted, with its numbers in positional notation.
  have hpayload : payload_value py.1 e.payload.event_type (.dict (e.payload.dump py.1)) =
      .valid e.payload.fixed := payload_model_dump py h.payload
  -- That notation does not change the aggregate that the payload names.
  have hidentity : identity_matches_payload e.fixed := by
    unfold identity_matches_payload Envelope.fixed
    rw [(Payload.fixed_aggregate e.payload).2]
    exact h.identity
  -- With these facts every field of the envelope is accepted.
  have hversion : check (py.1.literal_one (.int 1)) () = .valid () := if_pos py.2.literal_one
  simp [envelope_model, field, field_default, List.lookup_cons, hevent, horganization, hoccurred,
    (event_type_dump e.payload.event_type).1, hversion, int_gt_int py h.restaurant_id, haggregate,
    text_dump h.aggregate_id, int_ge_int py h.aggregate_revision, hcorrelation, hpayload, extra_forbid,
    envelope_fields]
  exact if_pos hidentity

/-- A dictionary whose model accepts it is decoded. The type and the version choose the model, and
nothing else is checked. -/
theorem deserialize_of_model {raw : Fields} {event_type : EventType} {e : Envelope}
    (htype : raw.lookup "event_type" = some (.str event_type.value))
    (hversion : raw.lookup "schema_version" = some (.int 1))
    (hmodel : envelope_model py.1 event_type raw = .valid e) :
    deserialize_event py.1 raw = .ok e := by
  unfold deserialize_event
  rw [htype, hversion]
  dsimp only
  rw [(event_type_dump event_type).2]
  dsimp only
  rw [hmodel]
  rfl

/-- The row of a valid envelope is decoded to the envelope with its numbers in positional notation. -/
theorem deserialize_facts {e : Envelope} (h : e.Valid) (traceparent : Option String) :
    deserialize_event py.1 (event_facts ⟨outbox_event py.1 traceparent e, e.occurred_at.2⟩) =
      .ok e.fixed := by
  have hoccurred : py.1.utc_time (.datetime (.of_utc e.occurred_at)) = .valid e.occurred_at := by
    rw [utc_time, py.2.datetime_datetime]
    exact astimezone_of_utc e.occurred_at
  exact deserialize_of_model py rfl rfl (envelope_model_dump py h (py.2.uuid_uuid e.event_id)
    (py.2.uuid_uuid e.organization_id) hoccurred)

/-- So is its serialization. -/
theorem deserialize_serialize {e : Envelope} (h : e.Valid) :
    deserialize_event py.1 (serialize_event py.1 e) = .ok e.fixed :=
  deserialize_of_model py rfl rfl (envelope_model_dump py h (py.2.uuid_str e.event_id)
    (py.2.uuid_str e.organization_id) (utc_time_dump py e.occurred_at))

end Dump

/-! ## What is decoded is valid -/

section Decoded

variable {py : Pydantic} {fields : Fields} {name : String}

/-- A required field that is accepted has an accepted value. -/
theorem field_eq_valid {α : Type} {validator : Value → Validation α} {a : α}
    (h : field fields name validator = .valid a) : ∃ value, validator value = .valid a := by
  unfold field at h
  split at h
  · exact ⟨_, h⟩
  · cases h

/-- An accepted integer is above its bound. -/
theorem int_gt_valid {bound n : ℤ} (h : field fields name (py.int_gt bound) = .valid n) :
    bound < n := by
  obtain ⟨value, hvalue⟩ := field_eq_valid h
  obtain ⟨m, -, hm⟩ := after_eq_valid.mp hvalue
  obtain ⟨hlt, rfl⟩ := check_eq_valid.mp hm
  exact hlt

/-- An accepted text is within its bounds. -/
theorem text_valid {min_length max_length : ℕ} {text : String}
    (h : field fields name (fun value => (string value).after (text_length min_length max_length)) =
      .valid text) : min_length ≤ text.length ∧ text.length ≤ max_length := by
  obtain ⟨value, hvalue⟩ := field_eq_valid h
  obtain ⟨m, -, hm⟩ := after_eq_valid.mp hvalue
  obtain ⟨hlength, rfl⟩ := check_eq_valid.mp hm
  exact hlength

/-- An accepted sum of money is one. -/
theorem money_valid {number : Decimal} (h : field fields name py.money_string = .valid number) :
    money number := by
  obtain ⟨value, hvalue⟩ := field_eq_valid h
  exact bounded_of_string py (by norm_num) hvalue

/-- An accepted quantity is one. -/
theorem quantity_valid {number : Decimal} (h : field fields name py.quantity_string = .valid number) :
    quantity number := by
  obtain ⟨value, hvalue⟩ := field_eq_valid h
  exact bounded_of_string py (by norm_num) hvalue

/-- The models of an order and its status accept valid payloads only. -/
theorem order_status_payload_valid {status : String} {payload : ℤ → Payload} {p : Payload}
    (h : order_status_payload py status payload fields = .valid p) : ∃ id, 0 < id ∧ p = payload id := by
  simp only [order_status_payload, seq_eq_valid, map_eq_valid] at h
  obtain ⟨_, _, ⟨_, _, ⟨id, hid, rfl⟩, -, rfl⟩, -, rfl⟩ := h
  exact ⟨id, int_gt_valid hid, rfl⟩

/-- A payload model accepts valid payloads of its type only. -/
theorem payload_model_valid {event_type : EventType} {p : Payload}
    (h : payload_model py event_type fields = .valid p) : p.Valid ∧ p.event_type = event_type := by
  cases event_type with
  -- The three payloads that have nothing but the order and its status.
  | order_submitted | order_accepted | order_cancelled =>
    obtain ⟨id, hid, rfl⟩ := order_status_payload_valid h
    exact ⟨hid, rfl⟩
  | order_completed =>
    simp only [payload_model, order_completed_payload, seq_eq_valid, map_eq_valid] at h
    obtain ⟨_, _, ⟨_, _, ⟨_, _, ⟨id, hid, rfl⟩, htotal, rfl⟩, -, rfl⟩, -, rfl⟩ := h
    exact ⟨⟨int_gt_valid hid, money_valid htotal⟩, rfl⟩
  | order_deleted =>
    simp only [payload_model, order_deleted_payload, seq_eq_valid, map_eq_valid] at h
    obtain ⟨_, _, ⟨_, _, ⟨_, _, ⟨_, _, ⟨id, hid, rfl⟩, hstatus, rfl⟩, htotal, rfl⟩, -, rfl⟩, -, rfl⟩ := h
    exact ⟨⟨int_gt_valid hid, text_valid hstatus, money_valid htotal⟩, rfl⟩
  | menu_updated =>
    simp only [payload_model, menu_updated_payload, seq_eq_valid, map_eq_valid] at h
    obtain ⟨_, _, ⟨_, affected, ⟨_, _, ⟨_, _, ⟨_, _, ⟨operation, -, rfl⟩, -, rfl⟩, htarget, rfl⟩, hmenu,
      rfl⟩, haffected, rfl⟩, -, rfl⟩ := h
    refine ⟨⟨int_gt_valid htarget, int_gt_valid hmenu, ?_⟩, rfl⟩
    -- The affected ids are checked if they are there, and empty otherwise.
    unfold field_default at haffected
    split at haffected
    · obtain ⟨values, -, hvalues⟩ := after_eq_valid.mp haffected
      obtain ⟨hids, rfl⟩ := check_eq_valid.mp hvalues
      exact hids
    · cases haffected
      exact ⟨fun _ h => absurd h List.not_mem_nil, List.nodup_nil⟩
  | inventory_state_changed =>
    -- The check of the state comes after those of the fields.
    simp only [payload_model, inventory_state_changed_payload] at h
    obtain ⟨p, hp, hcheck⟩ := after_eq_valid.mp h
    obtain ⟨hstate, rfl⟩ := check_eq_valid.mp hcheck
    simp only [seq_eq_valid, map_eq_valid] at hp
    obtain ⟨_, _, ⟨_, _, ⟨_, _, ⟨_, _, ⟨_, _, ⟨_, _, ⟨_, _, ⟨_, _, ⟨_, _, ⟨_, _, ⟨id, hid, rfl⟩, hname,
      rfl⟩, -, rfl⟩, hquantity, rfl⟩, hthreshold, rfl⟩, -, rfl⟩, -, rfl⟩, -, rfl⟩, -, rfl⟩, -, rfl⟩, -,
      rfl⟩ := hp
    exact ⟨⟨int_gt_valid hid, text_valid hname, quantity_valid hquantity, quantity_valid hthreshold,
      hstate⟩, rfl⟩
  | inventory_low =>
    simp only [payload_model, inventory_low_payload] at h
    obtain ⟨p, hp, hcheck⟩ := after_eq_valid.mp h
    obtain ⟨hle, rfl⟩ := check_eq_valid.mp hcheck
    simp only [seq_eq_valid, map_eq_valid] at hp
    obtain ⟨_, _, ⟨_, _, ⟨_, _, ⟨_, _, ⟨_, _, ⟨_, _, ⟨_, _, ⟨id, hid, rfl⟩, -, rfl⟩, hname, rfl⟩, -,
      rfl⟩, hquantity, rfl⟩, hthreshold, rfl⟩, -, rfl⟩, -, rfl⟩ := hp
    exact ⟨⟨int_gt_valid hid, text_valid hname, quantity_valid hquantity, quantity_valid hthreshold,
      hle⟩, rfl⟩

/-- An envelope model accepts valid envelopes of its type only. -/
theorem envelope_model_valid {event_type : EventType} {e : Envelope}
    (h : envelope_model py event_type fields = .valid e) :
    e.Valid ∧ e.payload.event_type = event_type := by
  obtain ⟨e, he, hcheck⟩ := after_eq_valid.mp h
  obtain ⟨hidentity, rfl⟩ := check_eq_valid.mp hcheck
  simp only [seq_eq_valid, map_eq_valid] at he
  obtain ⟨_, _, ⟨_, _, ⟨_, _, ⟨_, _, ⟨_, _, ⟨_, _, ⟨_, _, ⟨_, _, ⟨_, _, ⟨_, _, ⟨_, _, ⟨event_id, -, rfl⟩,
    -, rfl⟩, -, rfl⟩, -, rfl⟩, hrestaurant, rfl⟩, -, rfl⟩, haggregate, rfl⟩, hrevision, rfl⟩, -, rfl⟩,
    hcorrelation, rfl⟩, hpayload, rfl⟩, -, rfl⟩ := he
  -- The payload is a dictionary that the model of the type accepts.
  obtain ⟨value, hvalue⟩ := field_eq_valid hpayload
  obtain ⟨dictionary, rfl⟩ : ∃ dictionary, value = .dict dictionary := by
    cases value with
    | dict dictionary => exact ⟨dictionary, rfl⟩
    | _ => cases hvalue
  obtain ⟨hvalid, htype⟩ := payload_model_valid hvalue
  refine ⟨⟨int_gt_valid hrestaurant, text_valid haggregate, ?_, ?_, hvalid, hidentity⟩, htype⟩
  · -- The revision is at least one.
    obtain ⟨revision, hrevision⟩ := field_eq_valid hrevision
    obtain ⟨n, -, hn⟩ := after_eq_valid.mp hrevision
    obtain ⟨hle, rfl⟩ := check_eq_valid.mp hn
    exact hle
  · -- The correlation id is a safe one.
    obtain ⟨correlation, hcorrelation⟩ := field_eq_valid hcorrelation
    obtain ⟨text, -, htext⟩ := after_eq_valid.mp hcorrelation
    obtain ⟨hsafe, rfl⟩ := check_eq_valid.mp htext
    exact hsafe

/-- Whatever is decoded is a valid envelope. So a handler is never given a payload that its model
would refuse. -/
theorem deserialize_valid {raw : Fields} {e : Envelope} (h : deserialize_event py raw = .ok e) :
    e.Valid := by
  unfold deserialize_event at h
  split at h
  · split at h
    · cases h
    · split_ifs at h
      split at h
      · rename_i hmodel
        cases h
        exact (envelope_model_valid hmodel).1
      · cases h
      · cases h
  · cases h

end Decoded

/-! ## The round trip -/

/-- The envelope in positional notation is valid. Every check of an envelope is about its values,
which stay the same. -/
theorem Envelope.fixed_valid {e : Envelope} (h : e.Valid) : e.fixed.Valid where
  restaurant_id := h.restaurant_id
  aggregate_id := h.aggregate_id
  aggregate_revision := h.aggregate_revision
  correlation_id := h.correlation_id
  payload := Payload.fixed_valid h.payload
  identity := by
    have hidentity := h.identity
    unfold identity_matches_payload at hidentity ⊢
    rw [← (Payload.fixed_aggregate e.payload).2] at hidentity
    exact hidentity

/-- The round trip of an event. Every envelope that the code constructs is valid: whatever dictionary
is decoded, its numbers in any representation and its times with any offset, gives a valid envelope
with times in UTC. And for every valid envelope, the row that is stored for it decodes to an envelope
that equals it, and the serialization of the decoded envelope decodes to that envelope again. -/
theorem codec_round_trip (py : LawfulPydantic) :
    (∀ raw envelope, deserialize_event py.1 raw = .ok envelope → envelope.Valid) ∧
    (∀ envelope : Envelope, envelope.Valid → ∀ traceparent, ∃ decoded,
      deserialize_event py.1
        (event_facts ⟨outbox_event py.1 traceparent envelope, envelope.occurred_at.2⟩) = .ok decoded ∧
      decoded.equal envelope ∧
      deserialize_event py.1 (serialize_event py.1 decoded) = .ok decoded) := by
  refine ⟨fun raw envelope h => deserialize_valid h, fun envelope h traceparent => ?_⟩
  refine ⟨envelope.fixed, deserialize_facts py h traceparent, ⟨envelope.payload.fixed_equal, rfl⟩, ?_⟩
  have hserialize := deserialize_serialize py (Envelope.fixed_valid h)
  have hfixed : envelope.fixed.fixed = envelope.fixed := by
    unfold Envelope.fixed
    rw [envelope.payload.fixed_fixed]
  rwa [hfixed] at hserialize

end RestaurantOS.Events.Contract
