import RestaurantOS.Orders.Storage

/-!
# What the authorization of an update confines

The authorization looks at the names of the fields that a request body supplies, while the update
applies the values that are not null. A body supplies every field that has a value
(`OrderUpdate.command`), so every attribute that an update changes belongs to a supplied field, whose
capability the role has (`update_confined`). An employee may supply the status alone, spelled in any
way that normalizes to the next step of the preparation, and the update then writes this step and the
revision, and nothing else (`employee_update`). -/

namespace RestaurantOS

open Fallible Catalog Events Inventory Orders Tenancy

namespace Orders

/-- A field of a request body: not supplied, or supplied with null or a value. -/
abbrev BodyField (α : Type) := Option (Option α)

/-- `OrderUpdate`: the body of an update request. A field may be missing, `null` or a value. -/
structure OrderUpdate where
  /-- `table_number`. -/
  table_number : BodyField String
  /-- `customer_name`. -/
  customer_name : BodyField String
  /-- `status`. -/
  status : BodyField String
  /-- `notes`. -/
  notes : BodyField String
  /-- `items`. -/
  items : BodyField (List OrderItemCommand)
  /-- `payment_status`. -/
  payment_status : BodyField String

/-- The field, if the body supplies it. A field that is `null` is supplied. -/
def supplied {α : Type} (field : OrderField) (value : BodyField α) : Finset OrderField :=
  if value.isSome then {field} else ∅

/-- `model_fields_set`. Authorization is decided by these. -/
def OrderUpdate.model_fields_set (body : OrderUpdate) : Finset OrderField :=
  supplied .table_number body.table_number ∪ supplied .customer_name body.customer_name ∪
    supplied .status body.status ∪ supplied .notes body.notes ∪ supplied .items body.items ∪
    supplied .payment_status body.payment_status

/-- `update_order`: the command of a request body. A missing field and one that is `null` become the
same. -/
def OrderUpdate.command (body : OrderUpdate) : UpdateOrder :=
  { table_number := body.table_number.join, customer_name := body.customer_name.join,
    status := body.status.join, notes := body.notes.join, items := body.items.join,
    payment_status := body.payment_status.join, fields := body.model_fields_set }

/-- The fields of a command that have a value are supplied. -/
structure UpdateOrder.Supplied (command : UpdateOrder) : Prop where
  /-- `table_number`. -/
  table_number : command.table_number ≠ none → .table_number ∈ command.fields
  /-- `customer_name`. -/
  customer_name : command.customer_name ≠ none → .customer_name ∈ command.fields
  /-- `status`. -/
  status : command.status ≠ none → .status ∈ command.fields
  /-- `notes`. -/
  notes : command.notes ≠ none → .notes ∈ command.fields
  /-- `items`. -/
  items : command.items ≠ none → .items ∈ command.fields
  /-- `payment_status`. -/
  payment_status : command.payment_status ≠ none → .payment_status ∈ command.fields

/-- A body that has a value for a field supplies it. -/
theorem mem_supplied {α : Type} {field : OrderField} {value : BodyField α} (h : value.join ≠ none) :
    field ∈ supplied field value := by
  cases value with
  | none => exact absurd rfl h
  | some value => simp [supplied]

/-- The command of a body. The fields that are set are the ones that the body names. -/
theorem OrderUpdate.command_supplied (body : OrderUpdate) : body.command.Supplied := by
  constructor <;> intro h <;> simp only [OrderUpdate.command, OrderUpdate.model_fields_set,
    Finset.mem_union]
  · exact Or.inl (Or.inl (Or.inl (Or.inl (Or.inl (mem_supplied h)))))
  · exact Or.inl (Or.inl (Or.inl (Or.inl (Or.inr (mem_supplied h)))))
  · exact Or.inl (Or.inl (Or.inl (Or.inr (mem_supplied h))))
  · exact Or.inl (Or.inl (Or.inr (mem_supplied h)))
  · exact Or.inl (Or.inr (mem_supplied h))
  · exact Or.inr (mem_supplied h)

/-- What an authorized update changes: the attributes of the fields that the role may change. -/
structure Confined (role : MembershipRole) (db db' : Branch) (before after : Order) : Prop where
  /-- The key and the time of creation stay. -/
  identity : after.order_id = before.order_id ∧ after.created_at = before.created_at
  /-- The status, and with it the mark of a processed order and the stock. -/
  status : after.status ≠ before.status ∨ after.inventory_processed ≠ before.inventory_processed ∨
    db'.ingredients ≠ db.ingredients → .order_status_update ∈ ROLE_CAPABILITIES role
  /-- The payment status. -/
  payment : after.payment_status ≠ before.payment_status →
    .order_payment_update ∈ ROLE_CAPABILITIES role
  /-- The details. -/
  details : after.table_number ≠ before.table_number ∨ after.customer_name ≠ before.customer_name ∨
    after.notes ≠ before.notes → .order_details_update ∈ ROLE_CAPABILITIES role
  /-- The items and the amounts. -/
  items : after.items ≠ before.items ∨ after.subtotal ≠ before.subtotal ∨ after.total ≠ before.total →
    .order_items_manage ∈ ROLE_CAPABILITIES role

variable {lib : Library} {context : AccessContext} {command : UpdateOrder} {draw : Draw}
  {db db₁ : Branch} {before order : Order}

/-! ## The parts of an update -/

/-- The status part changes nothing but the status, the mark of a processed order and the stock, and
none of them without a requested status. -/
theorem update_status_fields (h : update_status lib context command draw db before = .ok (db₁, order)) :
    order = { before with
      status := order.status
      inventory_processed := order.inventory_processed } ∧
    (command.status = none → db₁ = db ∧ order = before) := by
  unfold update_status at h
  -- Without a requested status the part is skipped.
  cases hstatus : command.status with
  | none =>
    simp only [hstatus] at h
    obtain ⟨rfl, rfl⟩ := Prod.mk.inj (pure_eq_ok.mp h)
    exact ⟨rfl, fun _ => ⟨rfl, rfl⟩⟩
  | some status =>
    refine ⟨?_, fun hnone => by cases hnone⟩
    simp only [hstatus] at h
    obtain ⟨requested, -, h⟩ := bind_eq_ok.mp h
    -- The three branches are submission, acceptance, and any other transition.
    split_ifs at h
    · obtain ⟨_, -, h⟩ := bind_eq_ok.mp h
      obtain ⟨-, rfl⟩ := Prod.mk.inj (pure_eq_ok.mp h)
      rfl
    · obtain ⟨db₂, -, h⟩ := bind_eq_ok.mp h
      obtain ⟨-, rfl⟩ := Prod.mk.inj (pure_eq_ok.mp h)
      rfl
    · obtain ⟨-, rfl⟩ := Prod.mk.inj (pure_eq_ok.mp h)
      rfl

/-- The details part changes the payment status and the details, each only with a value for it. -/
theorem update_details_fields {order' : Order} (h : update_details lib command order = .ok order') :
    order' = { order with
      payment_status := order'.payment_status
      table_number := command.table_number.or order.table_number
      customer_name := command.customer_name.or order.customer_name
      notes := command.notes.or order.notes } ∧
    (command.payment_status = none → order'.payment_status = order.payment_status) := by
  obtain ⟨payment_status, hpayment, h⟩ := bind_eq_ok.mp h
  obtain rfl := pure_eq_ok.mp h
  refine ⟨rfl, fun hnone => ?_⟩
  unfold update_payment at hpayment
  rw [hnone] at hpayment
  exact (pure_eq_ok.mp hpayment).symm

/-- The items part changes the items and the amounts, and only with items. -/
theorem update_items_fields {db' : Branch} {order' : Order}
    (h : update_items command db order = .ok (db', order')) :
    order' = { order with
      items := order'.items
      subtotal := order'.subtotal
      total := order'.total } ∧
    db' = { db with next_order_item_id := db'.next_order_item_id } ∧
    (command.items = none → db' = db ∧ order' = order) := by
  unfold update_items at h
  -- Without requested items the part is skipped.
  cases hitems : command.items with
  | none =>
    simp only [hitems] at h
    obtain ⟨rfl, rfl⟩ := Prod.mk.inj (pure_eq_ok.mp h)
    exact ⟨rfl, rfl, fun _ => ⟨rfl, rfl⟩⟩
  | some items =>
    simp only [hitems] at h
    obtain ⟨_, -, h⟩ := bind_eq_ok.mp h
    obtain ⟨⟨lines, subtotal⟩, -, h⟩ := bind_eq_ok.mp h
    obtain ⟨_, -, h⟩ := bind_eq_ok.mp h
    obtain ⟨rfl, rfl⟩ := Prod.mk.inj (pure_eq_ok.mp h)
    exact ⟨rfl, rfl, fun hnone => by cases hnone⟩

/-- The revision part changes the revision alone. -/
theorem update_revision_fields {order' : Order} (h : update_revision before order = .ok order') :
    order' = { order with revision := order'.revision } := by
  rcases update_revision_ok h with ⟨-, rfl⟩ | ⟨-, rfl⟩ <;> rfl

/-- An authorized update supplies fields that the role may change. -/
theorem authorize_order_update_ok {text : Text} {fields : Finset OrderField} {current : OrderStatus}
    {requested : Option String} {u : Unit}
    (h : authorize_order_update text context fields current requested = .ok u) :
    (∀ field ∈ fields, field.capability ∈ ROLE_CAPABILITIES context.role) ∧
      (context.role = .EMPLOYEE → fields = {.status} ∧
        ∃ value ∈ requested, (current, text.upper (text.strip value)) ∈ EMPLOYEE_TRANSITIONS) := by
  obtain ⟨_, hfields, h⟩ := bind_eq_ok.mp h
  exact ⟨ensure_eq_ok.mp hfields, ensure_eq_ok.mp h⟩

end Orders

/-! ## An authorized update -/

/-- An update changes the attributes of the fields that the role may change, and no other order.
What is written in the end is traced back through the parts of the update, which each write
attributes of their own; a field that is not supplied then leaves its attributes as they were. -/
theorem OrderService.update_confined {order_id : ℕ} {db' : Branch} {after : Order}
    (hsupplied : command.Supplied)
    (h : update lib context order_id command draw db = .ok (db', after)) :
    ∃ before, Keyed.lookup Order.order_id order_id db.orders = some before ∧
      Confined context.role db db' before after := by
  obtain ⟨before, db₁, order₁, order₂, db₂, order₃, hbefore, ⟨_, hauthorized⟩, hstatus, hdetails,
    hitems, hrevision, -, hevents⟩ := update_parts h
  obtain ⟨-, hlookup⟩ := get_order_or_error_ok hbefore
  obtain ⟨hcapable, -⟩ := authorize_order_update_ok hauthorized
  obtain ⟨horder₁, hnostatus⟩ := update_status_fields hstatus
  obtain ⟨horder₂, hnopayment⟩ := update_details_fields hdetails
  obtain ⟨horder₃, hdb₂, hnoitems⟩ := update_items_fields hitems
  have hafter := update_revision_fields hrevision
  obtain ⟨events, next_uuid, -, -, hdb'⟩ := append_status_ok hevents
  refine ⟨before, hlookup, ?_, fun hchanged => ?_, fun hchanged => ?_, fun hchanged => ?_,
    fun hchanged => ?_⟩
  · -- The identity of the order: no part writes it.
    rw [hafter, horder₃, horder₂, horder₁]
    exact ⟨rfl, rfl⟩
  · -- A changed status or stock means that a status was requested.
    refine hcapable .status (hsupplied.status fun hnone => ?_)
    obtain ⟨rfl, rfl⟩ := hnostatus hnone
    rw [hafter, horder₃, horder₂, hdb', hdb₂] at hchanged
    simp at hchanged
  · -- A changed payment status means that one was requested.
    refine hcapable .payment_status (hsupplied.payment_status fun hnone => hchanged ?_)
    rw [hafter, horder₃]
    exact (hnopayment hnone).trans (by rw [horder₁])
  · -- A changed detail means that a value for it was supplied, for each of the three.
    rcases hchanged with hchanged | hchanged | hchanged
    · refine hcapable .table_number (hsupplied.table_number fun hnone => hchanged ?_)
      rw [hafter, horder₃, horder₂, horder₁, hnone]
      rfl
    · refine hcapable .customer_name (hsupplied.customer_name fun hnone => hchanged ?_)
      rw [hafter, horder₃, horder₂, horder₁, hnone]
      rfl
    · refine hcapable .notes (hsupplied.notes fun hnone => hchanged ?_)
      rw [hafter, horder₃, horder₂, horder₁, hnone]
      rfl
  · -- Changed items or amounts mean that items were supplied.
    refine hcapable .items (hsupplied.items fun hnone => ?_)
    obtain ⟨-, rfl⟩ := hnoitems hnone
    rw [hafter, horder₂, horder₁] at hchanged
    simp at hchanged

/-- A step of the preparation, in any spelling that is normalized to it. -/
theorem employee_transition {text : Text} {current : OrderStatus} {requested : String}
    {next : OrderStatus}
    (hallowed : (current, text.upper (text.strip requested)) ∈ EMPLOYEE_TRANSITIONS)
    (h : ensure_valid_order_transition text current requested = .ok next) :
    (current = .ACCEPTED ∧ next = .PREPARING) ∨ (current = .PREPARING ∧ next = .READY) := by
  unfold ensure_valid_order_transition normalize_order_status at h
  rcases List.mem_pair.mp hallowed with heq | heq
  · obtain ⟨rfl, htext⟩ := Prod.mk.inj heq
    rw [htext] at h
    exact Or.inl ⟨rfl, (pure_eq_ok.mp h).symm⟩
  · obtain ⟨rfl, htext⟩ := Prod.mk.inj heq
    rw [htext] at h
    exact Or.inr ⟨rfl, (pure_eq_ok.mp h).symm⟩

/-- An update of an employee writes the next step of the preparation and the revision of the order,
and nothing else. -/
theorem OrderService.employee_update {order_id : ℕ} {db' : Branch} {after : Order}
    (hsupplied : command.Supplied) (hrole : context.role = .EMPLOYEE)
    (h : update lib context order_id command draw db = .ok (db', after)) :
    ∃ before, Keyed.lookup Order.order_id order_id db.orders = some before ∧
      ((before.status = .ACCEPTED ∧ after.status = .PREPARING) ∨
        (before.status = .PREPARING ∧ after.status = .READY)) ∧
      after = { before with
        status := after.status
        revision := before.revision + 1 } ∧
      db' = { db with orders := Keyed.put Order.order_id after db.orders } := by
  obtain ⟨before, db₁, order₁, order₂, db₂, order₃, hbefore, ⟨_, hauthorized⟩, hstatus, hdetails,
    hitems, hrevision, -, hevents⟩ := update_parts h
  obtain ⟨-, hlookup⟩ := get_order_or_error_ok hbefore
  obtain ⟨-, hemployee⟩ := authorize_order_update_ok hauthorized
  obtain ⟨hfields, requested, hrequested, hallowed⟩ := hemployee hrole
  -- The role allows the status alone, so the value of every other field is absent.
  have hnone : ∀ {α : Type} {value : Option α} {field : OrderField}, field ≠ .status →
      (value ≠ none → field ∈ command.fields) → value = none := by
    intro α value field hfield hmem
    by_contra hvalue
    rw [hfields] at hmem
    exact hfield (Finset.mem_singleton.mp (hmem hvalue))
  -- The status part moves the order one step.
  obtain ⟨next, hstep, rfl, rfl⟩ : ∃ next, ((before.status = .ACCEPTED ∧ next = .PREPARING) ∨
      (before.status = .PREPARING ∧ next = .READY)) ∧ db₁ = db ∧
        order₁ = { before with status := next } := by
    unfold update_status at hstatus
    rw [Option.mem_def.mp hrequested] at hstatus
    simp only at hstatus
    obtain ⟨next, hnext, hstatus⟩ := bind_eq_ok.mp hstatus
    have hstep := employee_transition hallowed hnext
    have hplain : next ≠ .SUBMITTED ∧ next ≠ .ACCEPTED := by
      rcases hstep with ⟨-, rfl⟩ | ⟨-, rfl⟩ <;> decide
    rw [if_neg hplain.1, if_neg fun hboth => hplain.2 hboth.2] at hstatus
    obtain ⟨rfl, rfl⟩ := Prod.mk.inj (pure_eq_ok.mp hstatus)
    exact ⟨next, hstep, rfl, rfl⟩
  -- No other part finds a value.
  obtain ⟨horder₂, hnopayment⟩ := update_details_fields hdetails
  obtain ⟨-, -, hnoitems⟩ := update_items_fields hitems
  obtain ⟨rfl, rfl⟩ := hnoitems (hnone (by decide) hsupplied.items)
  rw [hnopayment (hnone (by decide) hsupplied.payment_status),
    hnone (by decide) hsupplied.table_number, hnone (by decide) hsupplied.customer_name,
    hnone (by decide) hsupplied.notes] at horder₂
  simp only [Option.none_or] at horder₂
  -- The status has changed, so the revision has moved on by one.
  have hchanged : order_state order₃ ≠ order_state before := by
    intro heq
    have hsame : order₃.status = before.status := congrArg OrderState.status heq
    rw [horder₂] at hsame
    rcases hstep with ⟨hbefore, hnext⟩ | ⟨hbefore, hnext⟩
    · rw [hbefore, hnext] at hsame
      cases hsame
    · rw [hbefore, hnext] at hsame
      cases hsame
  obtain ⟨-, rfl⟩ := (update_revision_ok hrevision).resolve_left fun hsame => hchanged hsame.1
  refine ⟨before, hlookup, ?_, ?_, ?_⟩
  · rw [horder₂]
    exact hstep
  · rw [horder₂]
  · -- Neither PREPARING nor READY is announced by an event.
    have hsilent : status_payload { order₃ with revision := order₃.revision + 1 } = none := by
      rw [horder₂]
      rcases hstep with ⟨-, rfl⟩ | ⟨-, rfl⟩ <;> rfl
    unfold append_status at hevents
    rw [hsilent] at hevents
    split_ifs at hevents
    · exact (pure_eq_ok.mp hevents).symm
    · exact (pure_eq_ok.mp hevents).symm

/-- In every run: committing an update changes the attributes of the fields that the role of the caller
may change; that of an employee writes the next step of the preparation and the revision of the order,
and nothing else; and a step of a request that does not commit it changes nothing. -/
theorem update_authorization_confines (lib : Library) (start : ℕ → LegacyBranch) (acts : List Act) :
    (∀ i restaurant_id context order_id, ∀ body : OrderUpdate, ∀ value response,
      (run lib start acts).processes[i]? = some
        ⟨⟨restaurant_id, .update_order context order_id body.command⟩,
          .executed (.ok (value, response))⟩ →
      (run lib start (acts ++ [.finish i])).rows =
        Function.update (run lib start acts).rows restaurant_id value ∧
      ∃ before after,
        Keyed.lookup Order.order_id order_id ((run lib start acts).rows restaurant_id).orders =
          some before ∧
        Keyed.lookup Order.order_id order_id value.orders = some after ∧
        Confined context.role ((run lib start acts).rows restaurant_id) value before after ∧
        (context.role = .EMPLOYEE →
          ((before.status = .ACCEPTED ∧ after.status = .PREPARING) ∨
            (before.status = .PREPARING ∧ after.status = .READY)) ∧
          after = { before with
            status := after.status
            revision := before.revision + 1 } ∧
          value = { (run lib start acts).rows restaurant_id with
            orders := Keyed.put Order.order_id after
              ((run lib start acts).rows restaurant_id).orders })) ∧
    ∀ a i request phase, a.process = some i →
      (run lib start (acts ++ [a])).processes[i]? = some ⟨request, phase⟩ →
      (∀ response, phase ≠ .committed response) →
      (run lib start (acts ++ [a])).rows = (run lib start acts).rows := by
  refine ⟨fun i restaurant_id context order_id body value response hprocess => ?_,
    fun a i request phase ha hprocess hphase => ?_⟩
  · -- The outcome that is committed was computed on the current rows of the restaurant.
    have hinv := Serial.run_inv (system lib) (fun k => (start k).toBranch) acts
    obtain ⟨draw, houtcome⟩ := hinv.fresh _ (List.mem_of_getElem? hprocess) _ rfl
    have hexec : exec lib (.update_order context order_id body.command) draw
        ((run lib start acts).rows restaurant_id) = .ok (value, response) := houtcome.symm
    obtain ⟨⟨value', after⟩, hupdate, hexec⟩ := bind_eq_ok.mp hexec
    obtain ⟨rfl, rfl⟩ := Prod.mk.inj (pure_eq_ok.mp hexec)
    obtain ⟨before, hlookup, hconfined⟩ :=
      OrderService.update_confined body.command_supplied hupdate
    -- The order is found under its key before and after the update.
    obtain ⟨before', -, -, -, hlookup', -, -, -, -, -, -, horders, -⟩ :=
      OrderService.update_ok (run_sane lib start acts restaurant_id).range hupdate
    obtain rfl := Option.some.inj (hlookup.symm.trans hlookup')
    have hkey : after.order_id = order_id :=
      hconfined.identity.1.trans (Keyed.lookup_key hlookup)
    refine ⟨?_, before, after, hlookup, ?_, hconfined, fun hrole => ?_⟩
    · -- The commit replaces the rows of this restaurant and of no other.
      have hstep : run lib start (acts ++ [.finish i]) =
          (run lib start acts).step (system lib) (.finish i) := Transition.run_concat _ _ acts _
      rw [hstep]
      unfold Serial.World.step
      simp only [hprocess]
      rfl
    · rw [horders, ← hkey]
      exact Keyed.lookup_put_self (hkey ▸ hlookup)
    · obtain ⟨other, hother, hstatus, hafter, hvalue⟩ :=
        OrderService.employee_update body.command_supplied hrole hupdate
      obtain rfl := Option.some.inj (hlookup.symm.trans hother)
      exact ⟨hstatus, hafter, hvalue⟩
  · -- Only a commit changes rows, and the step here commits nothing.
    funext k
    rcases run_step_exec lib start acts a k with hsame |
      ⟨j, request', draw, value, response, rfl, -, -, hcommitted, -, -⟩
    · exact hsame
    · obtain rfl : j = i := Option.some.inj ha
      rw [hcommitted] at hprocess
      obtain ⟨-, rfl⟩ := Serial.Process.mk.inj (Option.some.inj hprocess)
      exact absurd rfl (hphase response)

end RestaurantOS
