import RestaurantOS.Core.DecimalNormal
import RestaurantOS.Events.RoundTrip

/-!
# The events of the services

The commands state their payloads with the numbers, the times and the keys of their rows; the contract
models hold a `Decimal`, a `datetime` and an `int` for each. This module connects the two. `encode` is
the payload as the services supply it and `read` is what a handler reads of a validated one.

`CommandEvents.append` gives the dictionary of a command to `deserialize_event`, which accepts it
exactly if the event is valid as the commands check it (`deserialize_command_fields`). What
`append_event` stores for such an event is decoded to it (`deserialize_outbox_event`).
-/

namespace RestaurantOS.Events.Contract

open Validation Pydantic Inventory Orders

/-! ## The two forms of a payload -/

/-- Keys of rows as integers. The producers put the keys of rows into their payloads. -/
def keys (ids : List ℕ) : List ℤ := ids.map Int.ofNat

/-- The state of an ingredient as the service supplies it. -/
def encode_state (p : Events.InventoryStateChangedPayload) : InventoryStateChangedPayload :=
  { ingredient_id := p.ingredient_id, ingredient_name := p.ingredient_name, unit := p.unit,
    quantity := .of_column 3 p.quantity, reorder_threshold := .of_column 3 p.reorder_threshold,
    is_active := p.is_active, is_low := p.is_low, episode_id := p.episode_id,
    episode_transition := p.episode_transition, resolution_reason := p.resolution_reason }

/-- The opening of an episode as the service supplies it. -/
def encode_low (p : Events.InventoryLowPayload) : InventoryLowPayload :=
  { ingredient_id := p.ingredient_id, episode_id := p.episode_id,
    ingredient_name := p.ingredient_name, unit := p.unit,
    opening_quantity := .of_column 3 p.opening_quantity,
    reorder_threshold := .of_column 3 p.reorder_threshold,
    opened_at := Datetime.nearest p.opened_at }

/-- A payload as the services supply it: money with two decimal places, quantities with three. -/
def encode : Events.Payload → Payload
  | .order_submitted id => .order_submitted id
  | .order_accepted id => .order_accepted id
  | .order_completed id total created_at =>
    .order_completed id (.of_column 2 total) (Datetime.nearest created_at)
  | .order_cancelled id => .order_cancelled id
  | .order_deleted id prior_status total created_at =>
    .order_deleted id prior_status.value (.of_column 2 total) (Datetime.nearest created_at)
  | .menu_updated operation target_type target_id menu_id affected =>
    .menu_updated operation target_type target_id menu_id (keys affected)
  | .inventory_state_changed p => .inventory_state_changed (encode_state p)
  | .inventory_low p => .inventory_low (encode_low p)

/-- The statuses, in the order of the source. -/
def statuses : List OrderStatus :=
  [.DRAFT, .SUBMITTED, .ACCEPTED, .PREPARING, .READY, .COMPLETED, .CANCELLED]

/-- The status that a handler reads. It only asks whether an order was completed, so a text that is no
status, which no service supplies, is read as one of an order that was not. -/
def read_status (text : String) : OrderStatus :=
  (statuses.find? fun status => status.value = text).getD .DRAFT

/-- The number that a handler reads. It is zero for what is no number, which no validated payload
holds. -/
def read_decimal (value : Decimal) : ℚ := value.value.getD 0

/-- What a handler reads of a validated payload. -/
def read : Payload → Events.Payload
  | .order_submitted id => .order_submitted id.toNat
  | .order_accepted id => .order_accepted id.toNat
  | .order_completed id total created_at =>
    .order_completed id.toNat (read_decimal total) created_at.1
  | .order_cancelled id => .order_cancelled id.toNat
  | .order_deleted id prior_status total created_at =>
    .order_deleted id.toNat (read_status prior_status) (read_decimal total) created_at.1
  | .menu_updated operation target_type target_id menu_id affected =>
    .menu_updated operation target_type target_id.toNat menu_id.toNat (affected.map Int.toNat)
  | .inventory_state_changed p =>
    .inventory_state_changed
      { ingredient_id := p.ingredient_id.toNat, ingredient_name := p.ingredient_name, unit := p.unit,
        quantity := read_decimal p.quantity, reorder_threshold := read_decimal p.reorder_threshold,
        is_active := p.is_active, is_low := p.is_low, episode_id := p.episode_id,
        episode_transition := p.episode_transition, resolution_reason := p.resolution_reason }
  | .inventory_low p =>
    .inventory_low
      { ingredient_id := p.ingredient_id.toNat, episode_id := p.episode_id,
        ingredient_name := p.ingredient_name, unit := p.unit,
        opening_quantity := read_decimal p.opening_quantity,
        reorder_threshold := read_decimal p.reorder_threshold, opened_at := p.opened_at.1 }

/-- The times of a payload. They are read from the clock or from a row. -/
def times : Events.Payload → List Timestamp
  | .order_completed _ _ created_at | .order_deleted _ _ _ created_at => [created_at]
  | .inventory_low p => [p.opened_at]
  | _ => []

/-- The times of an event are ones that a `datetime` can have. -/
def storable (event : EventEnvelope Events.Payload) : Bool :=
  (event.occurred_at :: times event.payload).all fun time => datetime_range time

/-- The envelope that `CommandEvents.append` validates. The commands build it with the numbers of
their rows. -/
def envelope (event : EventEnvelope Events.Payload) : Envelope :=
  { event_id := event.event_id, organization_id := event.organization_id,
    restaurant_id := event.restaurant_id, aggregate_type := event.aggregate_type,
    aggregate_id := event.aggregate_id, aggregate_revision := event.aggregate_revision,
    occurred_at := Datetime.nearest event.occurred_at, correlation_id := event.correlation_id,
    payload := encode event.payload }

/-- A number in the dictionary of a command. What the services have is a `Decimal`, so it is within the
limits of one. -/
def decimal_value (value : Decimal) : Value :=
  if h : value.representable = true then .decimal ⟨value, h⟩ else .none

/-- The dictionary of a payload, as the services write it. -/
def payload_fields : Events.Payload → Fields
  | .order_submitted id => [("order_id", .int id), ("status", .str "SUBMITTED")]
  | .order_accepted id => [("order_id", .int id), ("status", .str "ACCEPTED")]
  | .order_completed id total created_at =>
    [("order_id", .int id), ("total", decimal_value (.of_column 2 total)),
      ("created_at", .datetime (.of_utc (Datetime.nearest created_at)))]
  | .order_cancelled id => [("order_id", .int id), ("status", .str "CANCELLED")]
  | .order_deleted id prior_status total created_at =>
    [("order_id", .int id), ("prior_status", .str prior_status.value),
      ("total", decimal_value (.of_column 2 total)),
      ("created_at", .datetime (.of_utc (Datetime.nearest created_at)))]
  | .menu_updated operation target_type target_id menu_id affected =>
    [("operation", .str operation.value), ("target_type", .str target_type.value),
      ("target_id", .int target_id), ("menu_id", .int menu_id),
      ("affected_menu_item_ids", .list ((keys affected).map .int))]
  | .inventory_state_changed p =>
    [("ingredient_id", .int p.ingredient_id), ("ingredient_name", .str p.ingredient_name),
      ("unit", .str p.unit.value), ("quantity", decimal_value (.of_column 3 p.quantity)),
      ("reorder_threshold", decimal_value (.of_column 3 p.reorder_threshold)),
      ("is_active", .bool p.is_active), ("is_low", .bool p.is_low),
      ("episode_id", Payload.dump_optional .uuid p.episode_id),
      ("episode_transition",
        Payload.dump_optional (fun t => .str (transition_value t)) p.episode_transition),
      ("resolution_reason",
        Payload.dump_optional (fun r => .str (resolution_reason_value r)) p.resolution_reason)]
  | .inventory_low p =>
    [("ingredient_id", .int p.ingredient_id), ("episode_id", .uuid p.episode_id),
      ("ingredient_name", .str p.ingredient_name), ("unit", .str p.unit.value),
      ("opening_quantity", decimal_value (.of_column 3 p.opening_quantity)),
      ("reorder_threshold", decimal_value (.of_column 3 p.reorder_threshold)),
      ("opened_at", .datetime (.of_utc (Datetime.nearest p.opened_at)))]

/-- The dictionary that `CommandEvents.append` decodes; its key is the text of `new_request_id`. -/
def command_fields (event_id : String) (event : EventEnvelope Events.Payload) : Fields :=
  [("event_id", .str event_id), ("event_type", .str event.event_type.value),
    ("schema_version", .int 1), ("organization_id", .uuid event.organization_id),
    ("restaurant_id", .int event.restaurant_id), ("aggregate_type", .str event.aggregate_type),
    ("aggregate_id", .str event.aggregate_id), ("aggregate_revision", .int event.aggregate_revision),
    ("occurred_at", .datetime (.of_utc (Datetime.nearest event.occurred_at))),
    ("correlation_id", .str event.correlation_id), ("payload", .dict (payload_fields event.payload))]

/-! ## Numbers -/

/-- A number of the services with so many decimal places: it is not negative, and the context of its
arithmetic keeps 28 digits. -/
def held (places : ℕ) (number : ℚ) : Prop :=
  0 ≤ number ∧ number * 10 ^ places < 10 ^ 28 ∧ has_decimal_places places number

section Numbers

variable {places : ℕ} {number maximum : ℚ}

/-- The number of a column is within the limits of `Decimal`. -/
theorem representable_of_held (hplaces : places ≤ 1000) (h : held places number) :
    (Decimal.of_column places number).representable = true :=
  Decimal.of_column_limits h.1 hplaces h.2.1 h.2.2

/-- A handler reads the number that was supplied. -/
theorem read_of_column (h0 : 0 ≤ number) (hplaces : has_decimal_places places number) :
    read_decimal (.of_column places number) = number := by
  unfold read_decimal
  rw [Decimal.of_column_value h0 hplaces, Option.getD_some]

/-- A supplied number is accepted if it is at most the maximum, and rejected otherwise. -/
theorem bounded_string_supplied (py : Pydantic) (hmax : maximum * 10 ^ places < 10 ^ 27)
    (hplaces : places ≤ 1000) (h : held places number) :
    ((py.decimal_from_lossless_value (decimal_value (.of_column places number))).after
      (bounded_value maximum places)).after ge_zero =
        check (number ≤ maximum) (.of_column places number) := by
  have hlimits := representable_of_held hplaces h
  have hvalue := Decimal.of_column_value h.1 h.2.2
  have hparsed : py.decimal_from_lossless_value (decimal_value (.of_column places number)) =
      .valid (.of_column places number) := by
    unfold decimal_value
    rw [dif_pos hlimits]
    show check (Decimal.of_column places number).value.isSome _ = _
    rw [check, hvalue, Option.isSome_some, if_pos rfl]
  rw [bounded_string_eq py hmax hparsed hvalue]
  unfold check
  refine if_congr ?_ rfl rfl
  exact ⟨fun hbounds => hbounds.2.1, fun hle => ⟨h.1, hle, h.2.2⟩⟩

/-- The check of a sum of money that the commands make. -/
theorem money_value_iff {total : ℚ} (h : held 2 total) :
    Events.Payload.money_value total ↔ total ≤ MAX_MONEY :=
  ⟨fun hvalue => hvalue.2.1, fun hle => ⟨h.1, hle, h.2.2⟩⟩

/-- The check of a quantity that they make. -/
theorem quantity_value_iff {quantity : ℚ} (h : held 3 quantity) :
    Events.Payload.quantity_value quantity ↔ quantity ≤ MAX_QUANTITY :=
  ⟨fun hvalue => hvalue.2.1, fun hle => ⟨h.1, hle, h.2.2⟩⟩

end Numbers

/-! ## What a model accepts of a command -/

section Checks

variable {α β : Type} {p q : Prop} [Decidable p] [Decidable q]

/-- A check is of a fact: equivalent facts make the same check. -/
theorem check_congr (h : p ↔ q) (x : α) : check p x = check q x := if_congr h rfl rfl

/-- A check of what holds is no check. -/
theorem check_true [Decidable True] (x : α) : check True x = .valid x := if_pos trivial

/-- The value of a check may be changed. -/
theorem map_check (f : α → β) (x : α) : f <$> check p x = check p (f x) := by
  unfold check
  split_ifs <;> rfl

/-- Two checks of one model are one check of both facts. -/
theorem check_seq_check (f : α → β) (x : α) : check p f <*> check q x = check (p ∧ q) (f x) := by
  unfold check
  by_cases hp : p
  · by_cases hq : q <;> simp only [hp, hq, if_true, if_false, and_true, and_false] <;> rfl
  · by_cases hq : q <;> simp only [hp, hq, if_true, if_false, and_true, and_false] <;> rfl

/-- A field that is accepted leaves the check as it is. -/
theorem check_seq_valid (f : α → β) (x : α) : check p f <*> .valid x = check p (f x) := by
  unfold check
  split_ifs <;> rfl

/-- A field that is accepted before leaves a check as it is, too. -/
theorem valid_seq_check (f : α → β) (x : α) : .valid f <*> check p x = check p (f x) := by
  unfold check
  split_ifs <;> rfl

/-- A check after another one is one check of both facts. -/
theorem check_after_check (f : α → β) (x : α) {r : α → Prop} [DecidablePred r] :
    ((check p x).after fun y => check (r y) (f y)) = check (p ∧ r x) (f x) := by
  unfold check
  by_cases hp : p
  · simp only [hp, if_true, true_and]
    rfl
  · simp only [hp, if_false, false_and]
    rfl

end Checks

/-- The numbers of a payload are ones that the services have. -/
def Held : Events.Payload → Prop
  | .order_completed _ total _ | .order_deleted _ _ total _ => held 2 total
  | .inventory_state_changed p => held 3 p.quantity ∧ held 3 p.reorder_threshold
  | .inventory_low p => held 3 p.opening_quantity ∧ held 3 p.reorder_threshold
  | _ => True

section Commands

variable (py : LawfulPydantic)

/-- The key of a row is checked to be positive. -/
theorem int_gt_supplied (id : ℕ) : py.1.int_gt 0 (.int id) = check (0 < id) (id : ℤ) := by
  rw [int_gt, py.2.int_int, of_option_some, valid_after]
  exact check_congr Int.natCast_pos _

/-- A time of the clock or of a row is accepted. -/
theorem times_supplied (instant : UtcDatetime) :
    py.1.creation_time (.datetime (.of_utc instant)) = .valid instant ∧
      py.1.utc_time (.datetime (.of_utc instant)) = .valid instant := by
  rw [creation_time, utc_time, py.2.datetime_datetime]
  exact ⟨astimezone_of_utc instant, astimezone_of_utc instant⟩

/-- A sum of money is checked to be in the range of its column. -/
theorem money_supplied {total : ℚ} (h : held 2 total) :
    py.1.money_string (decimal_value (.of_column 2 total)) =
      check (total ≤ MAX_MONEY) (.of_column 2 total) :=
  bounded_string_supplied py.1 (by norm_num) (by norm_num) h

/-- So is a quantity. -/
theorem quantity_supplied {quantity : ℚ} (h : held 3 quantity) :
    py.1.quantity_string (decimal_value (.of_column 3 quantity)) =
      check (quantity ≤ MAX_QUANTITY) (.of_column 3 quantity) :=
  bounded_string_supplied py.1 (by norm_num) (by norm_num) h

/-- The three models of an order and its status. -/
theorem order_status_supplied (id : ℕ) (status : String) (payload : ℤ → Payload) :
    order_status_payload py.1 status payload [("order_id", .int id), ("status", .str status)] =
      check (0 < id) (payload id) := by
  simp [order_status_payload, field, field_default, List.lookup_cons, int_gt_supplied, literal,
    extra_forbid, check_true, map_check, check_seq_valid]

/-- `OrderCompletedPayload`. -/
theorem order_completed_supplied {id : ℕ} {total : ℚ} {created_at : Timestamp} (h : held 2 total) :
    order_completed_payload py.1 (payload_fields (.order_completed id total created_at)) =
      check (0 < id ∧ total ≤ MAX_MONEY) (encode (.order_completed id total created_at)) := by
  simp [order_completed_payload, payload_fields, field, List.lookup_cons, int_gt_supplied,
    money_supplied py h, times_supplied, extra_forbid, check_true, map_check, check_seq_check,
    check_seq_valid, encode]

/-- `OrderDeletedPayload`. Key and total are checked, and the status is a text of the enumeration.
-/
theorem order_deleted_supplied {id : ℕ} {prior_status : OrderStatus} {total : ℚ}
    {created_at : Timestamp} (h : held 2 total) :
    order_deleted_payload py.1 (payload_fields (.order_deleted id prior_status total created_at)) =
      check (0 < id ∧ total ≤ MAX_MONEY)
        (encode (.order_deleted id prior_status total created_at)) := by
  have hstatus : (string (.str prior_status.value)).after (text_length 1 50) =
      .valid prior_status.value := by
    cases prior_status <;> rfl
  simp [order_deleted_payload, payload_fields, field, List.lookup_cons, int_gt_supplied, hstatus,
    money_supplied py h, times_supplied, extra_forbid, check_true, map_check, check_seq_check,
    check_seq_valid, encode]

/-- `MenuUpdatedPayload`. The keys are checked, and operation and target are texts of their
enumerations. -/
theorem menu_updated_supplied {operation : CatalogOperation} {target_type : CatalogTarget}
    {target_id menu_id : ℕ} {affected : List ℕ} :
    menu_updated_payload py.1
        (payload_fields (.menu_updated operation target_type target_id menu_id affected)) =
      check (0 < target_id ∧ 0 < menu_id ∧ (∀ id ∈ affected, 0 < id) ∧ affected.Nodup)
        (encode (.menu_updated operation target_type target_id menu_id affected)) := by
  -- The enumerations are supplied by their values, which the literals know.
  have hoperation : literal CatalogOperation.all CatalogOperation.value (.str operation.value) =
      .valid operation := by
    cases operation <;> rfl
  have htype : literal CatalogTarget.all CatalogTarget.value (.str target_type.value) =
      .valid target_type := by
    cases target_type <;> rfl
  -- The keys are positive and distinct as integers exactly if they are so as numbers.
  have haffected : validate_affected_ids (keys affected) =
      check ((∀ id ∈ affected, 0 < id) ∧ affected.Nodup) (keys affected) := by
    refine check_congr (and_congr ?_ ?_) _
    · simp [keys]
    · exact List.nodup_map_iff Int.ofNat_injective
  simp [menu_updated_payload, payload_fields, field, field_default, List.lookup_cons, hoperation,
    htype, int_gt_supplied, int_tuple_dump, haffected, extra_forbid, check_true,
    valid_seq_check, check_seq_check, check_seq_valid, encode, and_assoc]

/-- The name of an ingredient is checked to fit its column. -/
theorem name_supplied (name : String) :
    (string (.str name)).after (text_length 1 255) =
      check (1 ≤ name.length ∧ name.length ≤ 255) name := rfl

/-- Numbers compare as they do in the model. -/
theorem decimal_le_of_value {a b : Decimal} {x y : ℚ} (ha : a.value = some x) (hb : b.value = some y) :
    decimal_le a b = decide (x ≤ y) := by
  unfold decimal_le
  rw [ha, hb]

/-- An optional value of the right type is accepted. Each is `None` or a value of its own type. -/
theorem episode_supplied (p : Events.InventoryStateChangedPayload) :
    nullable (fun value => of_option (py.1.uuid value)) (Payload.dump_optional .uuid p.episode_id) =
        .valid p.episode_id ∧
      nullable (literal transitions transition_value)
        (Payload.dump_optional (fun t => .str (transition_value t)) p.episode_transition) =
          .valid p.episode_transition ∧
      nullable (literal resolution_reasons resolution_reason_value)
        (Payload.dump_optional (fun r => .str (resolution_reason_value r)) p.resolution_reason) =
          .valid p.resolution_reason := by
  refine ⟨nullable_dump (fun id => ⟨by rintro ⟨⟩, ?_⟩) _,
    nullable_dump (fun t => ⟨by rintro ⟨⟩, ?_⟩) _, nullable_dump (fun r => ⟨by rintro ⟨⟩, ?_⟩) _⟩
  · rw [py.2.uuid_uuid, of_option_some]
  · cases t <;> rfl
  · cases r <;> rfl

/-- The check of a state and its episode is that of the commands. -/
theorem validate_state_iff {p : InventoryStateChangedPayload} {quantity reorder_threshold : ℚ}
    (hquantity : p.quantity.value = some quantity)
    (hthreshold : p.reorder_threshold.value = some reorder_threshold) :
    validate_state_and_episode p ↔
      (p.is_low ↔ p.is_active ∧ quantity ≤ reorder_threshold) ∧
        (p.episode_transition = some .opened → p.is_low ∧ p.episode_id.isSome) ∧
        (if p.episode_transition = some .resolved then
          ¬ p.is_low ∧ p.episode_id.isSome ∧ p.resolution_reason.isSome
        else p.resolution_reason.isNone) := by
  -- The flag compares the quantity with the threshold, in both forms.
  have hlow : (p.is_low = (p.is_active && decide (quantity ≤ reorder_threshold))) ↔
      (p.is_low ↔ p.is_active ∧ quantity ≤ reorder_threshold) := by
    rw [Bool.eq_iff_iff, Bool.and_eq_true, decide_eq_true_iff]
  have hsome : ∀ {α : Type} (x : Option α), ¬ x = none ↔ x.isSome := by
    intro α x
    rw [Option.isSome_iff_ne_none]
  -- The negated guards of the source are the implications that the commands check.
  have hopened : (¬ (p.episode_transition = some .opened ∧ (p.is_low = false ∨ p.episode_id = none))) ↔
      (p.episode_transition = some .opened → p.is_low ∧ p.episode_id.isSome) := by
    rw [not_and, not_or, Bool.not_eq_false, hsome]
  have hresolved : (p.is_low = false ∧ ¬ (p.episode_id = none ∨ p.resolution_reason = none)) ↔
      (¬ p.is_low ∧ p.episode_id.isSome ∧ p.resolution_reason.isSome) := by
    rw [not_or, hsome, hsome, Bool.not_eq_true]
  -- The comparison of decimals is that of the numbers they stand for.
  unfold validate_state_and_episode
  rw [decimal_le_of_value hquantity hthreshold]
  refine and_congr hlow (and_congr hopened ?_)
  split_ifs
  · exact hresolved
  · exact Option.isNone_iff_eq_none.symm

/-- `InventoryStateChangedPayload`. The fields are of their types, and the validator checks the
state and the episode. -/
theorem inventory_state_changed_supplied {p : Events.InventoryStateChangedPayload}
    (h : Held (.inventory_state_changed p)) :
    inventory_state_changed_payload py.1 (payload_fields (.inventory_state_changed p)) =
      check (Events.Payload.inventory_state_changed p).valid (encode (.inventory_state_changed p)) := by
  obtain ⟨hepisode, htransition, hreason⟩ := episode_supplied py p
  -- Field by field the model checks the dictionary, and the numbers are those of the columns.
  have hmodel : inventory_state_changed_payload py.1 (payload_fields (.inventory_state_changed p)) =
      check ((((0 < p.ingredient_id ∧ 1 ≤ p.ingredient_name.length ∧ p.ingredient_name.length ≤ 255) ∧
          p.quantity ≤ MAX_QUANTITY) ∧ p.reorder_threshold ≤ MAX_QUANTITY) ∧
            validate_state_and_episode (encode_state p)) (encode (.inventory_state_changed p)) := by
    simp [inventory_state_changed_payload, payload_fields, field, field_default, List.lookup_cons,
      int_gt_supplied, name_supplied, unit_dump, quantity_supplied py h.1, quantity_supplied py h.2,
      py.2.bool_bool, hepisode, htransition, hreason, extra_forbid, check_true, map_check,
      check_seq_check, check_seq_valid, check_after_check, encode, encode_state]
    exact check_congr Iff.rfl _
  rw [hmodel]
  refine check_congr ?_ _
  -- What is left is the check of the state, for which the lemma above translates the comparison.
  have hstate := @validate_state_iff (encode_state p) p.quantity p.reorder_threshold
    (Decimal.of_column_value h.1.1 h.1.2.2) (Decimal.of_column_value h.2.1 h.2.2.2)
  rw [hstate, ← quantity_value_iff h.1, ← quantity_value_iff h.2]
  simp only [and_assoc]
  rfl

/-- `InventoryLowPayload`. The fields are of their types, and the validator checks the opening
state. -/
theorem inventory_low_supplied {p : Events.InventoryLowPayload} (h : Held (.inventory_low p)) :
    inventory_low_payload py.1 (payload_fields (.inventory_low p)) =
      check (Events.Payload.inventory_low p).valid (encode (.inventory_low p)) := by
  have hmodel : inventory_low_payload py.1 (payload_fields (.inventory_low p)) =
      check ((((0 < p.ingredient_id ∧ 1 ≤ p.ingredient_name.length ∧ p.ingredient_name.length ≤ 255) ∧
          p.opening_quantity ≤ MAX_QUANTITY) ∧ p.reorder_threshold ≤ MAX_QUANTITY) ∧
            decimal_le (.of_column 3 p.opening_quantity) (.of_column 3 p.reorder_threshold))
        (encode (.inventory_low p)) := by
    simp [inventory_low_payload, payload_fields, field, List.lookup_cons, int_gt_supplied,
      py.2.uuid_uuid, name_supplied, unit_dump, quantity_supplied py h.1, quantity_supplied py h.2,
      times_supplied, extra_forbid, check_true, map_check, check_seq_check, check_seq_valid,
      check_after_check, encode, encode_low]
  rw [hmodel]
  refine check_congr ?_ _
  rw [decimal_le_of_value (Decimal.of_column_value h.1.1 h.1.2.2)
      (Decimal.of_column_value h.2.1 h.2.2.2), decide_eq_true_iff, ← quantity_value_iff h.1,
    ← quantity_value_iff h.2]
  simp only [and_assoc]
  rfl

/-- Each model accepts a payload of a command exactly if it is valid as the commands check it. -/
theorem payload_model_supplied {p : Events.Payload} (h : Held p) :
    payload_model py.1 p.event_type (payload_fields p) = check p.valid (encode p) := by
  cases p with
  | order_submitted id => exact order_status_supplied py id "SUBMITTED" .order_submitted
  | order_accepted id => exact order_status_supplied py id "ACCEPTED" .order_accepted
  | order_completed id total created_at =>
    refine (order_completed_supplied py h).trans (check_congr ?_ _)
    rw [← money_value_iff h]
    rfl
  | order_cancelled id => exact order_status_supplied py id "CANCELLED" .order_cancelled
  | order_deleted id prior_status total created_at =>
    refine (order_deleted_supplied py h).trans (check_congr ?_ _)
    rw [← money_value_iff h]
    rfl
  | menu_updated operation target_type target_id menu_id affected =>
    exact menu_updated_supplied py
  | inventory_state_changed p => exact inventory_state_changed_supplied py h
  | inventory_low p => exact inventory_low_supplied py h

end Commands

/-! ## The envelope of a command -/

/-- The type and the aggregate of an event are those of its payload. -/
structure Identified (event : EventEnvelope Events.Payload) : Prop where
  /-- The type. -/
  event_type : event.event_type = event.payload.event_type
  /-- The kind of the aggregate. -/
  aggregate_type : event.aggregate_type = event.payload.aggregate.1
  /-- Its key. -/
  aggregate_id : event.aggregate_id = toString event.payload.aggregate.2

/-- The type and the aggregate do not depend on how the payload is represented. -/
theorem encode_aggregate (p : Events.Payload) :
    (encode p).event_type = p.event_type ∧ (encode p).aggregate.1 = p.aggregate.1 ∧
      (encode p).aggregate.2 = p.aggregate.2 := by
  cases p <;> exact ⟨rfl, rfl, rfl⟩

section Envelopes

variable (py : LawfulPydantic) {event : EventEnvelope Events.Payload} {event_id : String}

/-- The envelope names the aggregate of its payload. -/
theorem envelope_identity (hevent : Identified event) : identity_matches_payload (envelope event) := by
  obtain ⟨-, htype, hid⟩ := encode_aggregate event.payload
  refine ⟨hevent.aggregate_type.trans htype.symm, hevent.aggregate_id.trans ?_⟩
  show _ = toString (encode event.payload).aggregate.2
  rw [hid]
  rfl

/-- The envelope model of a type accepts an event of a command exactly if it is valid as the
commands check it. Every field of the dictionary passes its own check, so what remains are the
checks that the commands make too. -/
theorem envelope_model_supplied (hevent : Identified event) (h : Held event.payload)
    (hid : py.1.uuid (.str event_id) = some event.event_id) :
    envelope_model py.1 event.event_type (command_fields event_id event) =
      check (envelope_valid event) (envelope event) := by
  -- The aggregate type is the one of the payload.
  have haggregate : ∀ fields : Fields,
      fields.lookup "aggregate_type" = some (.str event.aggregate_type) →
        aggregate_type event.event_type fields = .valid event.aggregate_type := by
    intro fields hlookup
    obtain ⟨htype, haggregate, -⟩ := encode_aggregate event.payload
    rw [aggregate_type_of_lookup hlookup, hevent.aggregate_type, hevent.event_type, ← htype,
      ← haggregate]
    exact aggregate_type_dump (encode event.payload)
  have htype : literal [event.event_type] EventType.value (.str event.event_type.value) =
      .valid event.event_type := (event_type_dump event.event_type).1
  have hversion : check (py.1.literal_one (.int 1)) () = .valid () := if_pos py.2.literal_one
  have hrestaurant : py.1.int_gt 0 (.int event.restaurant_id) =
      check (0 < event.restaurant_id) event.restaurant_id := by
    rw [int_gt, py.2.int_int, of_option_some, valid_after]
  have hrevision : py.1.int_ge 1 (.int event.aggregate_revision) =
      check (1 ≤ event.aggregate_revision) event.aggregate_revision := by
    rw [int_ge, py.2.int_int, of_option_some, valid_after]
  have hkey : (string (.str event.aggregate_id)).after (text_length 1 100) =
      check (1 ≤ event.aggregate_id.length ∧ event.aggregate_id.length ≤ 100) event.aggregate_id := rfl
  have hcorrelation : (string (.str event.correlation_id)).after correlation_pattern =
      check (safe_identifier event.correlation_id = event.correlation_id) event.correlation_id := rfl
  -- The payload is checked by the model of its type.
  have hpayload : payload_value py.1 event.event_type (.dict (payload_fields event.payload)) =
      check event.payload.valid (encode event.payload) := by
    rw [hevent.event_type]
    exact payload_model_supplied py h
  -- All the checks of the model, in the order of the fields.
  have hmodel : envelope_model py.1 event.event_type (command_fields event_id event) =
      check (((((0 < event.restaurant_id ∧
        (1 ≤ event.aggregate_id.length ∧ event.aggregate_id.length ≤ 100)) ∧
          1 ≤ event.aggregate_revision) ∧
            safe_identifier event.correlation_id = event.correlation_id) ∧ event.payload.valid) ∧
              identity_matches_payload (envelope event)) (envelope event) := by
    simp [envelope_model, command_fields, field, field_default, List.lookup_cons, hid, py.2.uuid_uuid,
      htype, hversion, hrestaurant, haggregate, hkey, hrevision, times_supplied, hcorrelation, hpayload,
      extra_forbid, envelope_fields, check_true, valid_seq_check, check_seq_check, check_seq_valid,
      check_after_check]
    exact check_congr Iff.rfl _
  rw [hmodel]
  refine check_congr ?_ _
  rw [and_iff_left (envelope_identity hevent)]
  unfold envelope_valid
  simp only [and_assoc]

/-- `CommandEvents.append` gets the envelope of its event from `deserialize_event` if the event is valid
as the commands check it, and a `ValueError` otherwise. -/
theorem deserialize_command_fields (hevent : Identified event) (h : Held event.payload)
    (hid : py.1.uuid (.str event_id) = some event.event_id) :
    deserialize_event py.1 (command_fields event_id event) =
      if envelope_valid event then .ok (envelope event) else .error .value_error := by
  have htype : (command_fields event_id event).lookup "event_type" =
      some (.str event.event_type.value) := rfl
  have hversion : version_one ((command_fields event_id event).lookup "schema_version") = true := rfl
  unfold deserialize_event
  rw [htype]
  dsimp only
  rw [(event_type_dump event.event_type).2, hversion]
  dsimp only
  rw [if_pos rfl, envelope_model_supplied py hevent h hid, check]
  split_ifs <;> rfl

/-- A valid payload has numbers that the services have. The bounds of the check include those of the
columns. -/
theorem held_of_valid {p : Events.Payload} (h : p.valid) : Held p := by
  -- Money within the column has few enough digits for the context.
  have hmoney : ∀ {total}, Events.Payload.money_value total → held 2 total := by
    rintro total ⟨h0, hle, hplaces⟩
    refine ⟨h0, ?_, hplaces⟩
    calc total * 10 ^ 2 ≤ MAX_MONEY * 10 ^ 2 := by gcongr
      _ < 10 ^ 28 := by norm_num [MAX_MONEY]
  -- So have quantities.
  have hquantity : ∀ {quantity}, Events.Payload.quantity_value quantity → held 3 quantity := by
    rintro quantity ⟨h0, hle, hplaces⟩
    refine ⟨h0, ?_, hplaces⟩
    calc quantity * 10 ^ 3 ≤ MAX_QUANTITY * 10 ^ 3 := by gcongr
      _ < 10 ^ 28 := by norm_num [MAX_QUANTITY]
  cases p with
  | order_completed => exact hmoney h.2
  | order_deleted => exact hmoney h.2
  | inventory_state_changed p =>
    obtain ⟨-, -, -, hstock, hthreshold, -⟩ := h
    exact ⟨hquantity hstock, hquantity hthreshold⟩
  | inventory_low p =>
    obtain ⟨-, -, -, hstock, hthreshold, -⟩ := h
    exact ⟨hquantity hstock, hquantity hthreshold⟩
  | order_submitted | order_accepted | order_cancelled | menu_updated => exact trivial

/-- So the envelope of a valid event is one that its model has validated. -/
theorem envelope_valid_of (hevent : Identified event) (h : envelope_valid event) :
    (envelope event).Valid := by
  have hpayload : event.payload.valid := h.2.2.2.2.2
  -- Any library will do, since validity does not depend on it.
  have hid := Pydantic.strict.2.uuid_str event.event_id
  have hmodel := envelope_model_supplied Pydantic.strict hevent (held_of_valid hpayload) hid
  rw [check, if_pos h] at hmodel
  exact (envelope_model_valid hmodel).1

end Envelopes

/-! ## What is stored is decoded -/

/-- The text of a status reads as the status. -/
theorem read_status_value (status : OrderStatus) : read_status status.value = status := by
  cases status <;> rfl

/-- A number is read as it is in any representation. -/
theorem read_fixed (value : Decimal) : read_decimal value.fixed = read_decimal value := by
  unfold read_decimal
  rw [Decimal.fixed_value]

/-- A handler reads a payload as the command has supplied it. -/
theorem read_encode {p : Events.Payload} (hvalid : p.valid)
    (htimes : ∀ time ∈ times p, datetime_range time) : read (encode p).fixed = p := by
  have hheld := held_of_valid hvalid
  -- A number survives the column and the positional notation.
  have hnumber : ∀ {places number}, held places number →
      read_decimal (Decimal.of_column places number).fixed = number := by
    intro places number h
    rw [read_fixed, read_of_column h.1 h.2.2]
  cases p with
  | order_submitted | order_accepted | order_cancelled => rfl
  | order_completed id total created_at =>
    have htime := Datetime.nearest_eq (htimes created_at List.mem_cons_self)
    simp only [encode, Payload.fixed, read, Int.toNat_natCast, hnumber hheld, htime]
  | order_deleted id prior_status total created_at =>
    have htime := Datetime.nearest_eq (htimes created_at List.mem_cons_self)
    simp only [encode, Payload.fixed, read, Int.toNat_natCast, hnumber hheld, htime, read_status_value]
  | menu_updated operation target_type target_id menu_id affected =>
    have hkeys : (keys affected).map Int.toNat = affected := by
      unfold keys
      rw [List.map_map]
      exact List.map_id affected
    simp only [encode, Payload.fixed, read, Int.toNat_natCast, hkeys]
  | inventory_state_changed p =>
    simp only [encode, encode_state, Payload.fixed, read, Int.toNat_natCast, hnumber hheld.1,
      hnumber hheld.2]
  | inventory_low p =>
    have htime := Datetime.nearest_eq (htimes p.opened_at List.mem_cons_self)
    simp only [encode, encode_low, Payload.fixed, read, Int.toNat_natCast, hnumber hheld.1,
      hnumber hheld.2, htime]

section Stored

variable (py : LawfulPydantic)

/-- The validation of a row that the worker processes run, with the payload that a handler reads. -/
def validate_python (py : Pydantic) (event : OutboxEvent Fields) : Validation Events.Payload :=
  read <$> contract py event

/-- The row of a valid envelope is validated. The numbers come back in positional notation. -/
theorem contract_outbox_event {e : Envelope} (h : e.Valid) (traceparent : Option String) :
    contract py.1 (outbox_event py.1 traceparent e) = .valid e.payload.fixed := by
  have hoccurred : py.1.utc_time (.datetime (.of_utc e.occurred_at)) = .valid e.occurred_at :=
    (times_supplied py e.occurred_at).2
  have hmodel := envelope_model_dump py h (py.2.uuid_uuid e.event_id)
    (py.2.uuid_uuid e.organization_id) hoccurred
  rw [@contract_of_type py.1 ⟨outbox_event py.1 traceparent e, e.occurred_at.2⟩ _
    (event_type_dump e.payload.event_type).2]
  exact congrArg (Envelope.payload <$> ·) hmodel

/-- What `append_event` stores for a valid event of a command is decoded to the event. -/
theorem deserialize_outbox_event {event : EventEnvelope Events.Payload} (hevent : Identified event)
    (hvalid : envelope_valid event) (hstorable : storable event = true)
    (traceparent : Option String) :
    Events.deserialize_event (validate_python py.1)
      (outbox_event py.1 traceparent (envelope event)) = .ok event := by
  have hrange : ∀ time ∈ event.occurred_at :: times event.payload, datetime_range time :=
    fun time htime => of_decide_eq_true (List.all_eq_true.mp hstorable time htime)
  obtain ⟨hoccurred, htimes⟩ := List.forall_mem_cons.mp hrange
  -- The row decodes to the envelope that was stored, whose payload the handler reads.
  have hpayload : validate_python py.1 (outbox_event py.1 traceparent (envelope event)) =
      .valid event.payload := by
    unfold validate_python
    rw [contract_outbox_event py (envelope_valid_of hevent hvalid), map_valid]
    exact congrArg Validation.valid (read_encode hvalid.2.2.2.2.2 htimes)
  -- The type of the event is written and parsed by its value.
  have htype : EventType.parse (outbox_event py.1 traceparent (envelope event)).event_type =
      some event.event_type := by
    rw [hevent.event_type, ← (encode_aggregate event.payload).1]
    exact (event_type_dump (encode event.payload).event_type).2
  unfold Events.deserialize_event
  rw [htype, hpayload]
  show Except.ok { event with occurred_at := (Datetime.nearest event.occurred_at).1 } = _
  rw [Datetime.nearest_eq hoccurred]

/-- What is decoded of a row has the columns of the row. None of these fields is normalised by its
model. -/
theorem envelope_model_facts {event_type : EventType} {row : StoredEvent} {e : Envelope}
    (h : envelope_model py.1 event_type (event_facts row) = .valid e) :
    e.restaurant_id = row.1.restaurant_id ∧ e.aggregate_type = row.1.aggregate_type ∧
      e.aggregate_id = row.1.aggregate_id ∧ e.aggregate_revision = row.1.aggregate_revision ∧
      e.correlation_id = row.1.correlation_id := by
  obtain ⟨e, he, hcheck⟩ := after_eq_valid.mp h
  obtain ⟨-, rfl⟩ := check_eq_valid.mp hcheck
  simp only [seq_eq_valid, map_eq_valid] at he
  obtain ⟨_, _, ⟨_, _, ⟨_, _, ⟨_, _, ⟨_, _, ⟨_, _, ⟨_, _, ⟨_, _, ⟨_, _, ⟨_, _, ⟨_, _, ⟨event_id, -, rfl⟩,
    -, rfl⟩, -, rfl⟩, -, rfl⟩, hrestaurant, rfl⟩, htype, rfl⟩, haggregate, rfl⟩, hrevision, rfl⟩, -, rfl⟩,
    hcorrelation, rfl⟩, -, rfl⟩, -, rfl⟩ := he
  -- A number is accepted as it is, whatever its lower bound.
  have hint : ∀ {p : ℤ → Prop} [DecidablePred p] {n m : ℤ},
      ((of_option (py.1.int (.int n))).after fun n => check (p n) n) = .valid m → m = n := by
    intro p hp n m hnumber
    rw [py.2.int_int, of_option_some, valid_after] at hnumber
    exact (check_eq_valid.mp hnumber).2.symm
  refine ⟨hint hrestaurant, ?_, (check_eq_valid.mp haggregate).2.symm, hint hrevision,
    (check_eq_valid.mp hcorrelation).2.symm⟩
  rw [aggregate_type_of_lookup rfl] at htype
  have hfound := List.find?_some (of_option_eq_valid.mp (show of_option _ = _ from htype))
  exact of_decide_eq_true hfound

/-- What a handler reads of a bounded number is the number. -/
theorem read_bounded {maximum : ℚ} {places : ℕ} {value : Decimal} (h : bounded maximum places value) :
    value.value = some (read_decimal value) ∧ 0 ≤ read_decimal value ∧ read_decimal value ≤ maximum ∧
      has_decimal_places places (read_decimal value) := by
  obtain ⟨-, number, hnumber, hbounds⟩ := h
  unfold read_decimal
  rw [hnumber]
  exact ⟨rfl, hbounds⟩

/-- What a handler reads of a validated payload is valid as the commands check it, and about the same
aggregate. -/
theorem read_valid {p : Payload} (h : p.Valid) :
    (read p).valid ∧ (read p).event_type = p.event_type ∧
      (read p).aggregate.1 = p.aggregate.1 ∧ (read p).aggregate.2 = p.aggregate.2 := by
  -- Keys are positive integers, and are read as the natural numbers that they are.
  have hkey : ∀ {id : ℤ}, 0 < id → 0 < id.toNat ∧ (id.toNat : ℤ) = id :=
    fun hid => ⟨by omega, Int.toNat_of_nonneg hid.le⟩
  cases p with
  | order_submitted id => exact ⟨(hkey h).1, rfl, rfl, (hkey h).2⟩
  | order_accepted id => exact ⟨(hkey h).1, rfl, rfl, (hkey h).2⟩
  | order_cancelled id => exact ⟨(hkey h).1, rfl, rfl, (hkey h).2⟩
  | order_completed id total created_at =>
    obtain ⟨hid, htotal⟩ := h
    exact ⟨⟨(hkey hid).1, (read_bounded htotal).2⟩, rfl, rfl, (hkey hid).2⟩
  | order_deleted id prior_status total created_at =>
    obtain ⟨hid, -, htotal⟩ := h
    exact ⟨⟨(hkey hid).1, (read_bounded htotal).2⟩, rfl, rfl, (hkey hid).2⟩
  | menu_updated operation target_type target_id menu_id affected =>
    obtain ⟨htarget, hmenu, hpositive, hnodup⟩ := h
    refine ⟨⟨(hkey htarget).1, (hkey hmenu).1, ?_, ?_⟩, rfl, rfl, (hkey htarget).2⟩
    · intro id hid
      obtain ⟨n, hn, rfl⟩ := List.mem_map.mp hid
      exact (hkey (hpositive n hn)).1
    · -- Positive integers are told apart by the keys that they are.
      refine hnodup.map_on fun a ha b hb heq => ?_
      rw [← (hkey (hpositive a ha)).2, heq, (hkey (hpositive b hb)).2]
  | inventory_state_changed p =>
    obtain ⟨hid, ⟨hmin, hmax⟩, hquantity, hthreshold, hstate⟩ := h
    obtain ⟨hvalue, hquantity⟩ := read_bounded hquantity
    obtain ⟨hvalue', hthreshold⟩ := read_bounded hthreshold
    exact ⟨⟨(hkey hid).1, hmin, hmax, hquantity, hthreshold, (validate_state_iff hvalue hvalue').mp hstate⟩,
      rfl, rfl, (hkey hid).2⟩
  | inventory_low p =>
    obtain ⟨hid, ⟨hmin, hmax⟩, hquantity, hthreshold, hle⟩ := h
    obtain ⟨hvalue, hquantity⟩ := read_bounded hquantity
    obtain ⟨hvalue', hthreshold⟩ := read_bounded hthreshold
    rw [decimal_le_of_value hvalue hvalue', decide_eq_true_iff] at hle
    exact ⟨⟨(hkey hid).1, hmin, hmax, hquantity, hthreshold, hle⟩, rfl, rfl, (hkey hid).2⟩

/-- Whatever a worker process decodes of a row is an event that a command could have appended. -/
theorem decoded_valid {row : OutboxEvent Fields} {event : EventEnvelope Events.Payload}
    (h : Events.deserialize_event (validate_python py.1) row = .ok event) :
    Identified event ∧ envelope_valid event := by
  unfold Events.deserialize_event at h
  split at h
  · cases h
  rename_i event_type htype
  split_ifs at h
  split at h
  · rename_i payload hpayload
    cases h
    obtain ⟨decoded, hcontract, rfl⟩ := map_eq_valid.mp hpayload
    -- A time out of range makes the contract raise, so only the other case is left.
    by_cases hrange : datetime_range row.occurred_at
    · rw [@contract_of_type py.1 ⟨row, hrange⟩ _ htype] at hcontract
      obtain ⟨e, hmodel, rfl⟩ := map_eq_valid.mp hcontract
      obtain ⟨he, hpayload_type⟩ := envelope_model_valid hmodel
      obtain ⟨hrestaurant, haggregate, hid, hrevision, hcorrelation⟩ := envelope_model_facts py hmodel
      obtain ⟨hvalid, hread, hkind, hkey⟩ := read_valid he.payload
      refine ⟨⟨?_, ?_, ?_⟩, hrestaurant ▸ he.restaurant_id, hid ▸ he.aggregate_id.1,
        hid ▸ he.aggregate_id.2, hrevision ▸ he.aggregate_revision,
        hcorrelation ▸ he.correlation_id, hvalid⟩
      · exact (hread.trans hpayload_type).symm
      · exact haggregate.symm.trans (he.identity.1.trans hkind.symm)
      · refine hid.symm.trans (he.identity.2.trans ?_)
        rw [← hkey]
        rfl
    · unfold contract at hcontract
      rw [dif_neg hrange] at hcontract
      cases hcontract
  · cases h
  · cases h

end Stored

end RestaurantOS.Events.Contract
