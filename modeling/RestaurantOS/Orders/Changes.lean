import RestaurantOS.Orders.Stock

/-!
# What order requests write

An update moves an order along `ORDER_TRANSITIONS` or leaves its status, gives it a new revision if
anything has changed, and consumes stock exactly if the status becomes ACCEPTED (`update_ok`). A
creation appends a draft (`create_ok`), and a deletion removes an order without inventory history
(`delete_ok`). -/

namespace RestaurantOS

open Fallible Catalog Events Inventory Orders Tenancy

/-- What the rest of a command leaves as it is after its writes to ingredients. -/
structure Branch.Rest (db db' : Branch) (events : List (EventEnvelope Payload)) : Prop where
  /-- The organization. -/
  organization_id : db'.organization_id = db.organization_id
  /-- The restaurant. -/
  restaurant_id : db'.restaurant_id = db.restaurant_id
  /-- The ingredients. -/
  ingredients : db'.ingredients = db.ingredients
  /-- The key of the next ingredient. -/
  next_ingredient_id : db'.next_ingredient_id = db.next_ingredient_id
  /-- Identifiers are not used again. -/
  next_uuid : db.next_uuid ≤ db'.next_uuid
  /-- The outbox only grows. -/
  events : db'.events = db.events ++ events

namespace Orders

/-- What an update does to an order. -/
structure Updated (before after : Order) : Prop where
  /-- The key stays. -/
  order_id : after.order_id = before.order_id
  /-- The time of creation stays. -/
  created_at : after.created_at = before.created_at
  /-- The status stays or moves along a transition. -/
  status : after.status = before.status ∨ after.status ∈ ORDER_TRANSITIONS before.status
  /-- Acceptance marks the order as processed, and nothing else changes the mark. -/
  processed : after.inventory_processed = true ↔
    before.inventory_processed = true ∨ before.status ≠ .ACCEPTED ∧ after.status = .ACCEPTED
  /-- A change makes a new revision. -/
  revision : order_state after = order_state before ∧ after.revision = before.revision ∨
    order_state after ≠ order_state before ∧ after.revision = before.revision + 1
  /-- Only a draft can get another total. -/
  total : after.status ≠ .DRAFT → after.total = before.total

/-- The events of an update: the new status is announced, where it has an event. -/
structure StatusEvents (before after : Order) (events : List (EventEnvelope Payload)) : Prop where
  /-- The payloads. -/
  payloads : events.map (·.payload) =
    if after.status ≠ before.status then (status_payload after).toList else []
  /-- They carry the new revision. -/
  revisions : ∀ event ∈ events, event.aggregate_revision = after.revision

/-- The order of a request is visible only in its own organization. -/
theorem get_order_or_error_ok {db : Branch} {context : AccessContext} {order_id : ℕ} {order : Order}
    (h : get_order_or_error db context order_id = .ok order) :
    context.organization_id = db.organization_id ∧
      Keyed.lookup Order.order_id order_id db.orders = some order := by
  obtain ⟨_, hscope, h⟩ := bind_eq_ok.mp h
  refine ⟨Branch.restaurant_ok (u := ()) (ensure_eq_ok.mpr (ensure_eq_ok.mp hscope)), ?_⟩
  cases hlookup : Keyed.lookup Order.order_id order_id db.orders with
  | none => simp [hlookup] at h
  | some order' =>
    simp only [hlookup] at h
    rw [pure_eq_ok.mp h]

/-- The status part of an update. Only an update that accepts the order, which had another status,
writes to the rows of the ingredients. -/
theorem update_status_ok {lib : Library} {context : AccessContext} {command : UpdateOrder}
    {draw : Draw} {db db₁ : Branch} {before order : Order}
    (horganization : context.organization_id = db.organization_id)
    (hrange : ∀ record ∈ db.ingredients, ∀ balance ∈ record.balance,
      0 ≤ balance.quantity ∧ balance.quantity ≤ MAX_QUANTITY)
    (h : update_status lib context command draw db before = .ok (db₁, order)) :
    (order.status = before.status ∨ order.status ∈ ORDER_TRANSITIONS before.status) ∧
      ((before.status ≠ .ACCEPTED ∧ order.status = .ACCEPTED ∧
          order = { before with
            status := .ACCEPTED
            inventory_processed := true } ∧
          ∃ ws, Writes db ws db₁ ∧ Consumes db before ws) ∨
        (¬ (before.status ≠ .ACCEPTED ∧ order.status = .ACCEPTED) ∧
          order = { before with status := order.status } ∧ db₁ = db)) := by
  unfold update_status at h
  cases hstatus : command.status with
  | none =>
    simp only [hstatus] at h
    obtain ⟨rfl, rfl⟩ := Prod.mk.inj (pure_eq_ok.mp h)
    exact ⟨Or.inl rfl, Or.inr ⟨fun hboth => hboth.1 hboth.2, rfl, rfl⟩⟩
  | some status =>
    simp only [hstatus] at h
    obtain ⟨requested, hrequested, h⟩ := bind_eq_ok.mp h
    have hpath := ensure_valid_order_transition_ok hrequested
    split_ifs at h with hsubmitted haccepted
    · -- A submission checks the stock without taking it.
      obtain ⟨_, -, h⟩ := bind_eq_ok.mp h
      obtain ⟨rfl, rfl⟩ := Prod.mk.inj (pure_eq_ok.mp h)
      exact ⟨hpath, Or.inr ⟨by simp [hsubmitted], rfl, rfl⟩⟩
    · -- An acceptance consumes it and marks the order.
      obtain ⟨db₂, hconsume, h⟩ := bind_eq_ok.mp h
      obtain ⟨rfl, rfl⟩ := Prod.mk.inj (pure_eq_ok.mp h)
      obtain ⟨hother, rfl⟩ := haccepted
      exact ⟨hpath, Or.inl ⟨hother, rfl, rfl, consume_order_stock_ok horganization hrange hconsume⟩⟩
    · -- Any other status, and the one that the order has, is only set.
      obtain ⟨rfl, rfl⟩ := Prod.mk.inj (pure_eq_ok.mp h)
      exact ⟨hpath, Or.inr ⟨haccepted, rfl, rfl⟩⟩

/-- The part of an update between the status and the items touches neither. -/
theorem update_details_ok {lib : Library} {command : UpdateOrder} {order order' : Order}
    (h : update_details lib command order = .ok order') :
    order'.order_id = order.order_id ∧ order'.created_at = order.created_at ∧
      order'.status = order.status ∧ order'.inventory_processed = order.inventory_processed ∧
      order'.revision = order.revision ∧ order'.total = order.total := by
  obtain ⟨_, -, h⟩ := bind_eq_ok.mp h
  rw [← pure_eq_ok.mp h]
  exact ⟨rfl, rfl, rfl, rfl, rfl, rfl⟩

/-- The items part of an update changes the total of a draft only. -/
theorem update_items_ok {command : UpdateOrder} {db db' : Branch} {order order' : Order}
    (h : update_items command db order = .ok (db', order')) :
    (∃ n, db' = { db with next_order_item_id := n }) ∧
      order'.order_id = order.order_id ∧ order'.created_at = order.created_at ∧
      order'.status = order.status ∧ order'.inventory_processed = order.inventory_processed ∧
      order'.revision = order.revision ∧ (order'.status ≠ .DRAFT → order'.total = order.total) := by
  unfold update_items at h
  cases hitems : command.items with
  | none =>
    simp only [hitems] at h
    obtain ⟨rfl, rfl⟩ := Prod.mk.inj (pure_eq_ok.mp h)
    exact ⟨⟨db.next_order_item_id, rfl⟩, rfl, rfl, rfl, rfl, rfl, fun _ => rfl⟩
  | some items =>
    simp only [hitems] at h
    obtain ⟨_, hdraft, h⟩ := bind_eq_ok.mp h
    obtain ⟨⟨lines, subtotal⟩, -, h⟩ := bind_eq_ok.mp h
    obtain ⟨_, -, h⟩ := bind_eq_ok.mp h
    obtain ⟨rfl, rfl⟩ := Prod.mk.inj (pure_eq_ok.mp h)
    exact ⟨⟨_, rfl⟩, rfl, rfl, rfl, rfl, rfl, fun hne => absurd (ensure_eq_ok.mp hdraft) hne⟩

/-- An update gives a changed order the next revision. What is compared is everything but
the revision and the times. -/
theorem update_revision_ok {before order order' : Order}
    (h : update_revision before order = .ok order') :
    (order_state order = order_state before ∧ order' = order) ∨
      (order_state order ≠ order_state before ∧
        order' = { order with revision := order.revision + 1 }) := by
  unfold update_revision at h
  split_ifs at h with hchanged
  · obtain ⟨revision, hrevision, h⟩ := bind_eq_ok.mp h
    obtain ⟨_, -, hrevision⟩ := bind_eq_ok.mp hrevision
    obtain rfl := pure_eq_ok.mp hrevision
    exact Or.inr ⟨hchanged, (pure_eq_ok.mp h).symm⟩
  · exact Or.inl ⟨not_not.mp hchanged, (pure_eq_ok.mp h).symm⟩

/-- The event part of an update. A status without a payload, and one that has not changed, announces
nothing. -/
theorem append_status_ok {db db' : Branch} {draw : Draw} {context : AccessContext}
    {before after : Order} (h : append_status db draw context before after = .ok db') :
    ∃ events n, db.next_uuid ≤ n ∧ StatusEvents before after events ∧
      db' = { db with
        events := db.events ++ events
        next_uuid := n } := by
  have hnone : StatusEvents before after [] → db' = db → ∃ events n, db.next_uuid ≤ n ∧
      StatusEvents before after events ∧ db' = { db with
        events := db.events ++ events
        next_uuid := n } := by
    rintro hevents rfl
    exact ⟨[], db'.next_uuid, le_rfl, hevents, by rw [List.append_nil]⟩
  unfold append_status at h
  split_ifs at h with hstatus
  · cases hpayload : status_payload after with
    | none =>
      simp only [hpayload] at h
      refine hnone ⟨?_, by simp⟩ (pure_eq_ok.mp h).symm
      rw [if_pos hstatus, hpayload]
      rfl
    | some payload =>
      simp only [hpayload] at h
      obtain ⟨event, hevent, hrevision, -, rfl⟩ := Branch.append_ok h
      refine ⟨[event], db.next_uuid + 1, Nat.le_succ _, ⟨?_, ?_⟩, rfl⟩
      · rw [if_pos hstatus, hpayload, List.map_singleton, hevent]
        rfl
      · intro e he
        rw [List.mem_singleton.mp he, hrevision]
  · refine hnone ⟨?_, by simp⟩ (pure_eq_ok.mp h).symm
    rw [if_neg hstatus]
    rfl

/-- An order becomes accepted. -/
def accepts (before after : Order) : Prop := before.status ≠ .ACCEPTED ∧ after.status = .ACCEPTED

/-- The parts of an update make an update of the order. The service changes the order in four parts,
of which each leaves the fields of the others alone; this puts the parts together. -/
theorem updated_of_parts {before order₁ order₂ order₃ after : Order}
    (hpath : order₁.status = before.status ∨ order₁.status ∈ ORDER_TRANSITIONS before.status)
    (hstatus : (accepts before order₁ ∧ order₁ = { before with
          status := .ACCEPTED
          inventory_processed := true }) ∨
        (¬ accepts before order₁ ∧ order₁ = { before with status := order₁.status }))
    (hdetails : order₂.order_id = order₁.order_id ∧ order₂.created_at = order₁.created_at ∧
      order₂.status = order₁.status ∧ order₂.inventory_processed = order₁.inventory_processed ∧
      order₂.revision = order₁.revision ∧ order₂.total = order₁.total)
    (hitems : order₃.order_id = order₂.order_id ∧ order₃.created_at = order₂.created_at ∧
      order₃.status = order₂.status ∧ order₃.inventory_processed = order₂.inventory_processed ∧
      order₃.revision = order₂.revision ∧ (order₃.status ≠ .DRAFT → order₃.total = order₂.total))
    (hrevision : (order_state order₃ = order_state before ∧ after = order₃) ∨
      (order_state order₃ ≠ order_state before ∧
        after = { order₃ with revision := order₃.revision + 1 })) :
    Updated before after ∧ after.status = order₁.status := by
  obtain ⟨hid₂, hcreated₂, hstatus₂, hprocessed₂, hrevision₂, htotal₂⟩ := hdetails
  obtain ⟨hid₃, hcreated₃, hstatus₃, hprocessed₃, hrevision₃, htotal₃⟩ := hitems
  -- The status part keeps everything but the status and the mark.
  have hkept : order₁.order_id = before.order_id ∧ order₁.created_at = before.created_at ∧
      order₁.revision = before.revision ∧ order₁.total = before.total ∧
      (order₁.inventory_processed = true ↔
        before.inventory_processed = true ∨ accepts before order₁) := by
    rcases hstatus with ⟨haccepts, heq⟩ | ⟨hother, heq⟩
    · rw [heq] at haccepts ⊢
      exact ⟨rfl, rfl, rfl, rfl, by simp [haccepts]⟩
    · rw [heq] at hother ⊢
      exact ⟨rfl, rfl, rfl, rfl, by simp [hother]⟩
  obtain ⟨hid₁, hcreated₁, hrevision₁, htotal₁, hprocessed₁⟩ := hkept
  -- The last part changes nothing but the revision.
  have hlast : after.order_id = order₃.order_id ∧ after.created_at = order₃.created_at ∧
      after.status = order₃.status ∧ after.inventory_processed = order₃.inventory_processed ∧
      after.total = order₃.total ∧ order_state after = order_state order₃ := by
    rcases hrevision with ⟨-, rfl⟩ | ⟨-, rfl⟩
    · exact ⟨rfl, rfl, rfl, rfl, rfl, rfl⟩
    · exact ⟨rfl, rfl, rfl, rfl, rfl, rfl⟩
  obtain ⟨hid, hcreated, hstatus', hprocessed, htotal, hstate⟩ := hlast
  have hsame : after.status = order₁.status := by rw [hstatus', hstatus₃, hstatus₂]
  -- The key, the time of creation, the path, the mark, the revision, and the total behind the
  -- draft.
  refine ⟨⟨?_, ?_, ?_, ?_, ?_, ?_⟩, hsame⟩
  · rw [hid, hid₃, hid₂, hid₁]
  · rw [hcreated, hcreated₃, hcreated₂, hcreated₁]
  · rw [hsame]
    exact hpath
  · rw [hprocessed, hprocessed₃, hprocessed₂, hprocessed₁, hsame]
    rfl
  · -- The revision advances exactly if the state of the order has changed.
    rw [hstate]
    rcases hrevision with ⟨heq, rfl⟩ | ⟨hne, rfl⟩
    · exact Or.inl ⟨heq, by rw [hrevision₃, hrevision₂, hrevision₁]⟩
    · exact Or.inr ⟨hne, by simp only [hrevision₃, hrevision₂, hrevision₁]⟩
  · intro hdraft
    rw [hstatus'] at hdraft
    rw [htotal, htotal₃ hdraft, htotal₂, htotal₁]

end Orders

namespace OrderService

/-- The parts of an update that returns. Each part is given the order that the one before it
returned. -/
theorem update_parts {lib : Library} {context : AccessContext} {order_id : ℕ} {command : UpdateOrder}
    {draw : Draw} {db db' : Branch} {after : Order}
    (h : update lib context order_id command draw db = .ok (db', after)) :
    ∃ before db₁ order₁ order₂ db₂ order₃, get_order_or_error db context order_id = .ok before ∧
      (∃ u, authorize_order_update lib.toText context command.fields before.status command.status =
        .ok u) ∧
      update_status lib context command draw db before = .ok (db₁, order₁) ∧
      update_details lib command order₁ = .ok order₂ ∧
      update_items command db₁ order₂ = .ok (db₂, order₃) ∧
      update_revision before order₃ = .ok after ∧ columns_hold after ∧
      append_status { db₂ with orders := Keyed.put Order.order_id after db₂.orders } draw context
        before after = .ok db' := by
  obtain ⟨before, hbefore, h⟩ := bind_eq_ok.mp h
  obtain ⟨_, hauthorized, h⟩ := bind_eq_ok.mp h
  obtain ⟨⟨db₁, order₁⟩, hstatus, h⟩ := bind_eq_ok.mp h
  obtain ⟨order₂, hdetails, h⟩ := bind_eq_ok.mp h
  obtain ⟨⟨db₂, order₃⟩, hitems, h⟩ := bind_eq_ok.mp h
  obtain ⟨order₄, hrevision, h⟩ := bind_eq_ok.mp h
  obtain ⟨_, hcolumns, h⟩ := bind_eq_ok.mp h
  obtain ⟨db₃, hevents, h⟩ := bind_eq_ok.mp h
  obtain ⟨rfl, rfl⟩ := Prod.mk.inj (pure_eq_ok.mp h)
  exact ⟨before, db₁, order₁, order₂, db₂, order₃, hbefore, ⟨_, hauthorized⟩, hstatus, hdetails,
    hitems, hrevision, ensure_eq_ok.mp hcolumns, hevents⟩

/-- An update writes an order and its event, and consumes stock exactly if it accepts the order. It
is the contract by which every later theorem about orders looks at an update. -/
theorem update_ok {lib : Library} {context : AccessContext} {order_id : ℕ} {command : UpdateOrder}
    {draw : Draw} {db db' : Branch} {after : Order}
    (hrange : ∀ record ∈ db.ingredients, ∀ balance ∈ record.balance,
      0 ≤ balance.quantity ∧ balance.quantity ≤ MAX_QUANTITY)
    (h : update lib context order_id command draw db = .ok (db', after)) :
    ∃ before ws db₁ events, Keyed.lookup Order.order_id order_id db.orders = some before ∧
      Updated before after ∧ Writes db ws db₁ ∧ (accepts before after → Consumes db before ws) ∧
      (¬ accepts before after → ws = []) ∧ StatusEvents before after events ∧
      db₁.Rest db' events ∧ db'.orders = Keyed.put Order.order_id after db.orders ∧
      db'.next_order_id = db.next_order_id ∧ db'.initialized = db.initialized ∧
      db'.submissions = db.submissions ∧ db'.recipe_components = db.recipe_components := by
  obtain ⟨before, db₁, order₁, order₂, db₂, order₃, hbefore, -, hstatus, hdetails, hitems, hrevision,
    -, hevents⟩ := update_parts h
  obtain ⟨horganization, hlookup⟩ := get_order_or_error_ok hbefore
  obtain ⟨hpath, hcase⟩ := update_status_ok horganization hrange hstatus
  obtain ⟨⟨n, rfl⟩, hkept⟩ := update_items_ok hitems
  obtain ⟨events, next_uuid, hnext, hannounced, rfl⟩ := append_status_ok hevents
  have hstatus' : (accepts before order₁ ∧ order₁ = { before with
        status := .ACCEPTED
        inventory_processed := true }) ∨
      (¬ accepts before order₁ ∧ order₁ = { before with status := order₁.status }) := by
    rcases hcase with ⟨hne, heq, horder, -⟩ | ⟨hother, horder, -⟩
    · exact Or.inl ⟨⟨hne, heq⟩, horder⟩
    · exact Or.inr ⟨hother, horder⟩
  obtain ⟨hupdated, hsame⟩ := updated_of_parts hpath hstatus' (update_details_ok hdetails) hkept
    (update_revision_ok hrevision)
  -- That it accepts can be told by the status alone, which the later parts keep.
  have haccepts : accepts before after ↔ accepts before order₁ := by
    unfold accepts
    rw [hsame]
  have hrest : ∀ {ws}, Writes db ws db₁ → db₁.Rest { db₁ with
      next_order_item_id := n
      orders := Keyed.put Order.order_id after db₁.orders
      events := db₁.events ++ events
      next_uuid := next_uuid } events := fun _ => ⟨rfl, rfl, rfl, rfl, hnext, rfl⟩
  -- It accepts, with the writes of the consumption; or it does not, with none.
  rcases hcase with ⟨hne, heq, -, ws, hwrites, hconsumes⟩ | ⟨hother, -, rfl⟩
  · have hframe := hwrites.frame
    refine ⟨before, ws, db₁, events, hlookup, hupdated, hwrites, fun _ => hconsumes,
      fun hnot => absurd (haccepts.mpr ⟨hne, heq⟩) hnot, hannounced, hrest hwrites, ?_, ?_, ?_, ?_, ?_⟩
    · simp only [hframe.orders]
    · exact hframe.next_order_id
    · exact hframe.initialized
    · exact hframe.submissions
    · exact hframe.recipe_components
  · exact ⟨before, [], db₁, events, hlookup, hupdated, .nil,
      fun hyes => absurd (haccepts.mp hyes) hother, fun _ => rfl, hannounced, hrest .nil, rfl, rfl,
      rfl, rfl, rfl⟩

/-- The fingerprint of a creation. -/
def create_signature (lib : Library) (command : CreateOrder) : String :=
  lib.request_fingerprint
    { table_number := command.table_number, customer_name := command.customer_name,
      notes := command.notes,
      items := command.items.map fun item => (item.menu_item_id, item.quantity, item.notes) }

/-- A creation appends a draft and its submission, or returns the snapshot of an earlier one and
writes nothing. The earlier one is found by the idempotency key, and its fingerprint must be that of
the command. -/
theorem create_ok {lib : Library} {context : AccessContext} {command : CreateOrder} {draw : Draw}
    {db db' : Branch} {snapshot : OrderSnapshot}
    (h : create lib context command draw db = .ok (db', snapshot)) :
    ((∃ found, submission db command.idempotency_key = some found ∧
        found.request_fingerprint = create_signature lib command ∧
        snapshot = found.response_snapshot) ∧ db' = db) ∨
      (submission db command.idempotency_key = none ∧ ∃ order : Order,
        db.next_order_id ≤ order.order_id ∧ order.status = .DRAFT ∧
        order.inventory_processed = false ∧ order.revision = 1 ∧ db.Rest db' [] ∧
        db'.orders = db.orders ++ [order] ∧ db'.next_order_id = order.order_id + 1 ∧
        db'.initialized = db.initialized ∧
        snapshot = creation_response_snapshot db.restaurant_id order ∧
        db'.submissions = db.submissions ++ [⟨command.idempotency_key, some order.order_id,
          create_signature lib command, snapshot⟩] ∧
        db'.recipe_components = db.recipe_components) := by
  obtain ⟨_, -, h⟩ := bind_eq_ok.mp h
  obtain ⟨_, -, h⟩ := bind_eq_ok.mp h
  obtain ⟨_, -, h⟩ := bind_eq_ok.mp h
  cases hreplay : submission db command.idempotency_key with
  | some found =>
    simp only [hreplay] at h
    obtain ⟨_, hsignature, h⟩ := bind_eq_ok.mp h
    obtain ⟨rfl, rfl⟩ := Prod.mk.inj (pure_eq_ok.mp h)
    exact Or.inl ⟨⟨found, rfl, ensure_eq_ok.mp hsignature, rfl⟩, rfl⟩
  | none =>
    simp only [hreplay] at h
    obtain ⟨⟨lines, subtotal⟩, -, h⟩ := bind_eq_ok.mp h
    obtain ⟨_, -, h⟩ := bind_eq_ok.mp h
    obtain ⟨_, -, h⟩ := bind_eq_ok.mp h
    obtain ⟨rfl, rfl⟩ := Prod.mk.inj (pure_eq_ok.mp h)
    refine Or.inr ⟨rfl, _, Nat.le_add_right _ _, rfl, rfl, rfl, ⟨rfl, rfl, rfl, rfl, le_rfl, ?_⟩,
      rfl, rfl, rfl, rfl, rfl, rfl⟩
    rw [List.append_nil]

/-- A deletion removes an order without inventory history and announces it under a new revision. -/
theorem delete_ok {context : AccessContext} {order_id : ℕ} {draw : Draw} {db db' : Branch}
    (h : delete context order_id draw db = .ok db') :
    ∃ (order : Order) (event : EventEnvelope Payload),
      Keyed.lookup Order.order_id order_id db.orders = some order ∧
      has_order_history db order_id = false ∧
      event.payload = .order_deleted order.order_id order.status order.total order.created_at ∧
      event.aggregate_revision = (order.revision + 1 : ℕ) ∧ db.Rest db' [event] ∧
      db'.orders = db.orders.filter (fun order => order.order_id ≠ order_id) ∧
      db'.next_order_id = db.next_order_id ∧ db'.initialized = db.initialized ∧
      db'.submissions = (db.submissions.map fun submission =>
        if submission.order_id = some order_id then { submission with order_id := none }
        else submission) ∧ db'.recipe_components = db.recipe_components := by
  obtain ⟨order, horder, h⟩ := bind_eq_ok.mp h
  obtain ⟨-, hlookup⟩ := get_order_or_error_ok horder
  obtain ⟨_, -, h⟩ := bind_eq_ok.mp h
  obtain ⟨_, hhistory, h⟩ := bind_eq_ok.mp h
  obtain ⟨revision, hrevision, h⟩ := bind_eq_ok.mp h
  obtain ⟨db₁, happend, h⟩ := bind_eq_ok.mp h
  obtain ⟨_, -, hrevision⟩ := bind_eq_ok.mp hrevision
  obtain rfl := pure_eq_ok.mp hrevision
  obtain ⟨event, hpayload, hrevision, -, rfl⟩ := Branch.append_ok happend
  rw [← pure_eq_ok.mp h]
  exact ⟨order, event, hlookup, ensure_eq_ok.mp hhistory, hpayload, hrevision,
    ⟨rfl, rfl, rfl, rfl, Nat.le_succ _, rfl⟩, rfl, rfl, rfl, rfl, rfl⟩

end OrderService

end RestaurantOS
