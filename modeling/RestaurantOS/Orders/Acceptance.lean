import RestaurantOS.Lib.Paths
import RestaurantOS.Orders.History

/-!
# Acceptance consumes stock exactly once

A consumption of an order is posted by the request that accepts it and by no other, one for each
ingredient that its lines use (`Effect.consumed`). An order is accepted at most once: it moves along
`ORDER_TRANSITIONS`, which never lead back (`Lib.Paths`). -/

namespace RestaurantOS

open Catalog Events Inventory Orders

namespace Orders

/-- The movements by which an order has consumed an ingredient. -/
def consumptions (order_id : ℕ) (record : IngredientRecord) : List InventoryMovement :=
  record.movements.filter fun movement =>
    movement.kind = .consumption ∧ movement.order_id = some order_id

/-- The movements by which an order has consumed the ingredient with a given key. -/
def consumed (db : Branch) (order_id ingredient_id : ℕ) : List InventoryMovement :=
  ((Keyed.lookup IngredientRecord.id ingredient_id db.ingredients).map (consumptions order_id)).getD []

/-- The lines of an order use an ingredient of the restaurant. -/
def needs (db : Branch) (order : Order) (ingredient_id : ℕ) : Prop :=
  (∃ record, Keyed.lookup IngredientRecord.id ingredient_id db.ingredients = some record) ∧
    uses db (order.items.map (·.toOrderLine)) ingredient_id

end Orders

namespace Inventory

/-- A change adds the movement it posts to the consumptions of its order. -/
theorem Change.consumptions {organization_id : UUID} {restaurant_id : ℕ} {episode_id : UUID}
    {old : Option IngredientRecord} {purpose : Purpose} {record' : IngredientRecord}
    {events : List (EventEnvelope Payload)} (order_id : ℕ)
    (h : Change organization_id restaurant_id episode_id old purpose record' events) :
    Orders.consumptions order_id record' = (old.map (Orders.consumptions order_id)).getD [] ++
      purpose.posting.toList.filter fun movement =>
        movement.kind = .consumption ∧ movement.order_id = some order_id := by
  unfold Orders.consumptions
  -- A record that was not there starts with no movement, or with the one of its first posting.
  rcases h.posting with ⟨rfl, movement, rfl, hmovements, -⟩ |
    ⟨record, balance, balance', rfl, -, -, hposting⟩
  · rw [hmovements]
    rfl
  · generalize purpose.posting = posting at hposting
    generalize record'.movements = movements' at hposting
    cases hposting with
    | kept => simp
    | posted movement hafter hversion hrange => rw [List.filter_append]; rfl

end Inventory

variable {db db' : Branch} {command : Command}

/-- Writes to other ingredients leave the consumptions of an ingredient as they are. -/
theorem Inventory.Writes.consumed_of_not_mem {ws : List (ℕ × Purpose)} (h : Writes db ws db')
    (order_id : ℕ) {ingredient_id : ℕ} (hid : ingredient_id ∉ ws.map Prod.fst) :
    consumed db' order_id ingredient_id = consumed db order_id ingredient_id := by
  unfold consumed
  rw [h.lookup_of_not_mem hid]

/-- A write that posts a movement adds it to the consumptions of its order. -/
theorem Inventory.Writes.consumed_of_mem {ws : List (ℕ × Purpose)} (h : Writes db ws db')
    (hkeys : db.Keys) (order_id : ℕ) {ingredient_id : ℕ} {purpose : Purpose}
    (hmem : (ingredient_id, purpose) ∈ ws) :
    consumed db' order_id ingredient_id = consumed db order_id ingredient_id ++
      purpose.posting.toList.filter fun movement =>
        movement.kind = .consumption ∧ movement.order_id = some order_id := by
  obtain ⟨record', _, _, _, hlookup, hchange⟩ := h.change hkeys hmem
  unfold consumed
  rw [hlookup]
  exact hchange.consumptions order_id

/-- Writes that post no consumption of an order leave its consumptions as they are. -/
theorem Inventory.Writes.consumed_eq {ws : List (ℕ × Purpose)} (h : Writes db ws db')
    (hkeys : db.Keys) {order_id : ℕ} (ingredient_id : ℕ)
    (hother : ∀ id purpose, (id, purpose) ∈ ws → ∀ movement ∈ purpose.posting,
      ¬ (movement.kind = .consumption ∧ movement.order_id = some order_id)) :
    consumed db' order_id ingredient_id = consumed db order_id ingredient_id := by
  by_cases hid : ingredient_id ∈ ws.map Prod.fst
  · obtain ⟨⟨id, purpose⟩, hmem, rfl⟩ := List.mem_map.mp hid
    rw [h.consumed_of_mem hkeys order_id hmem, List.filter_eq_nil_iff.mpr, List.append_nil]
    intro movement hmovement
    simpa using hother id purpose hmem movement (by simpa using hmovement)
  · exact h.consumed_of_not_mem order_id hid

/-- What a request adds to the consumptions of an order. -/
inductive Orders.Consumption (db db' : Branch) (order_id : ℕ) : Prop
  | accepted (before after : Order)
      (hbefore : Keyed.lookup Order.order_id order_id db.orders = some before)
      (hafter : Keyed.lookup Order.order_id order_id db'.orders = some after)
      (haccepts : accepts before after)
      (hneeded : ∀ ingredient_id, needs db before ingredient_id → ∃ movement : InventoryMovement,
        movement.quantity_delta = -requirement db (before.items.map (·.toOrderLine)) ingredient_id ∧
          consumed db' order_id ingredient_id = consumed db order_id ingredient_id ++ [movement])
      (hother : ∀ ingredient_id, ¬ needs db before ingredient_id →
        consumed db' order_id ingredient_id = consumed db order_id ingredient_id)
  | kept (hother : ∀ before after, Keyed.lookup Order.order_id order_id db.orders = some before →
        Keyed.lookup Order.order_id order_id db'.orders = some after → ¬ accepts before after)
      (hconsumed : ∀ ingredient_id,
        consumed db' order_id ingredient_id = consumed db order_id ingredient_id)

/-- Acceptance adds one consumption for each ingredient that the lines use, and no other request
adds any. The two ways of `Consumption` are told apart by the update of this one order. -/
theorem Effect.consumed (h : Effect db command db') (hkeys : db.Keys) (order_id : ℕ) :
    Orders.Consumption db db' order_id := by
  -- A request that leaves the order as it is and posts no consumption.
  have hsame : db'.orders = db.orders → (∀ ingredient_id,
      Orders.consumed db' order_id ingredient_id = Orders.consumed db order_id ingredient_id) →
      Orders.Consumption db db' order_id := by
    intro horders hconsumed
    refine .kept (fun before after hbefore hafter haccepts => ?_) hconsumed
    rw [horders, hbefore] at hafter
    obtain rfl := Option.some.inj hafter
    exact haccepts.1 haccepts.2
  have hrest : ∀ {db₁ events}, db₁.Rest db' events → ∀ ingredient_id,
      Orders.consumed db' order_id ingredient_id = Orders.consumed db₁ order_id ingredient_id := by
    intro db₁ events hrest ingredient_id
    unfold Orders.consumed
    rw [hrest.ingredients]
  cases h with
  | replayed => exact hsame rfl fun _ => rfl
  -- Direct stock changes post other kinds of movements, and baselines none.
  | stock hcommand ws hwrites hdirect =>
    refine hsame hwrites.frame.orders fun ingredient_id => hwrites.consumed_eq hkeys ingredient_id ?_
    -- Of all purposes only acceptance posts a consumption, and a direct change has another kind.
    rintro id purpose hmem movement hmovement ⟨hkind, -⟩
    obtain ⟨posting, rfl, hposting⟩ := hdirect id purpose hmem
    exact (hposting movement hmovement).2 hkind
  | initialized hcommand hfresh ws hwrites hbaseline hcovered =>
    -- The baselines of the initial data come without any movement.
    refine hsame hwrites.frame.orders fun ingredient_id => hwrites.consumed_eq hkeys ingredient_id ?_
    intro id purpose hmem movement hmovement
    rw [hbaseline id purpose hmem] at hmovement
    exact absurd hmovement (Option.not_mem_none _)
  | catalog hcommand events hrest' hevents horders => exact hsame horders (hrest hrest')
  -- A new order is a draft, so the step that shows it accepts nothing.
  | order_created hcommand order hfresh hstatus hprocessed hrevision hrest' horders =>
    refine .kept (fun before after hbefore hafter haccepts => ?_) (hrest hrest')
    rw [horders, Keyed.lookup_append, hbefore, Option.some_or] at hafter
    obtain rfl := Option.some.inj hafter
    exact haccepts.1 haccepts.2
  | @order_updated hcommand before after hlookup hupdated ws db₁ hwrites haccepts hother events hevents
      _ hrest' horders =>
    -- The updated order is the one in question, or another one.
    by_cases hid : after.order_id = order_id
    · subst hid
      have hafter : Keyed.lookup Order.order_id after.order_id db'.orders = some after := by
        rw [horders]
        exact Keyed.lookup_put_self hlookup
      by_cases hyes : accepts before after
      · -- Acceptance: one write for each ingredient that is needed, posting what the lines require.
        have hconsumes := haccepts hyes
        refine .accepted before after hlookup hafter hyes ?_ ?_
        · intro ingredient_id hneeds
          obtain ⟨⟨id, purpose⟩, hmem, rfl⟩ :=
            List.mem_map.mp ((hconsumes.uses ingredient_id).mpr hneeds)
          obtain ⟨movement, rfl, hkind, horder, -, hdelta⟩ := hconsumes.posts id purpose hmem
          refine ⟨movement, hdelta, ?_⟩
          have hkey : before.order_id = after.order_id := hupdated.order_id.symm
          rw [hrest hrest' id, hwrites.consumed_of_mem hkeys _ hmem]
          simp [Purpose.posting, hkind, horder, hkey]
        · intro ingredient_id hneeds
          rw [hrest hrest' ingredient_id]
          exact hwrites.consumed_of_not_mem _ fun hmem =>
            hneeds ((hconsumes.uses ingredient_id).mp hmem)
      · -- Any other update of the order writes no ingredient at all.
        refine .kept (fun b a hb ha => ?_) fun ingredient_id => ?_
        · obtain rfl := Option.some.inj (hb.symm.trans hlookup)
          obtain rfl := Option.some.inj (ha.symm.trans hafter)
          exact hyes
        · rw [hrest hrest' ingredient_id]
          obtain rfl := hother hyes
          exact hwrites.consumed_of_not_mem _ List.not_mem_nil
    · -- Another order is updated, and what it consumes carries its own key.
      refine .kept (fun b a hb ha haccepts' => ?_) fun ingredient_id => ?_
      · rw [horders, Keyed.lookup_put_ne (Ne.symm hid), hb] at ha
        obtain rfl := Option.some.inj ha
        exact haccepts'.1 haccepts'.2
      · rw [hrest hrest' ingredient_id]
        refine hwrites.consumed_eq hkeys ingredient_id fun id purpose hmem movement hmovement => ?_
        by_cases hyes : accepts before after
        · obtain ⟨movement', rfl, hkind, horder, -⟩ := (haccepts hyes).posts id purpose hmem
          obtain rfl : movement' = movement := Option.some.inj hmovement
          rintro ⟨-, heq⟩
          rw [horder] at heq
          exact hid (hupdated.order_id.trans (Option.some.inj heq))
        · rw [hother hyes] at hmem
          exact absurd hmem List.not_mem_nil
  | order_deleted hcommand order hlookup hhistory event hpayload hrevision hrest' horders =>
    -- A deleted order is gone, and deleting another one leaves it as it was.
    refine .kept (fun before after hbefore hafter haccepts => ?_) (hrest hrest')
    by_cases hid : order_id = order.order_id
    · subst hid
      rw [horders, Keyed.lookup_remove_self] at hafter
      cases hafter
    · rw [horders, Keyed.lookup_remove_ne hid, hbefore] at hafter
      obtain rfl := Option.some.inj hafter
      exact haccepts.1 haccepts.2

/-- A request to the order service that accepts no order leaves the stock as it is. Deletion is
included, since it keeps the movements that the order has posted. -/
theorem Effect.stock_kept (h : Effect db command db') (hcommand : command.is_order = true)
    (hother : ∀ order_id before after, Keyed.lookup Order.order_id order_id db.orders = some before →
      Keyed.lookup Order.order_id order_id db'.orders = some after → ¬ accepts before after) :
    db'.ingredients = db.ingredients := by
  cases h with
  | replayed => rfl
  | stock hnot => exact absurd (hnot.symm.trans hcommand) Bool.false_ne_true
  | initialized hnot => exact absurd (hnot.symm.trans hcommand) Bool.false_ne_true
  | catalog hnot => exact absurd (hnot.symm.trans hcommand) Bool.false_ne_true
  | order_created _ order hfresh hstatus hprocessed hrevision hrest => exact hrest.ingredients
  | order_updated _ before after hlookup hupdated ws hwrites haccepts hnone events hevents hrest
      horders =>
    have hafter : Keyed.lookup Order.order_id after.order_id db'.orders = some after := by
      rw [horders]
      exact Keyed.lookup_put_self hlookup
    -- An update that accepts nothing has an empty list of stock writes.
    obtain rfl := hnone (hother after.order_id before after hlookup hafter)
    rw [hrest.ingredients]
    generalize hws : ([] : List (ℕ × Purpose)) = ws at hwrites
    cases hwrites with
    | nil => rfl
    | snoc => exact absurd hws (by simp)
  | order_deleted _ order hlookup hhistory event hpayload hrevision hrest => exact hrest.ingredients

/-! ## Runs -/

section Runs

variable (lib : Library) (start : ℕ → LegacyBranch) (k id : ℕ)

/-- An action commits the acceptance of an order, which has been `before` so far. -/
def AcceptedBy (pre : List Act) (a : Act) (before : Order) : Prop :=
  Keyed.lookup Order.order_id id ((run lib start pre).rows k).orders = some before ∧
    ∃ after, Keyed.lookup Order.order_id id ((run lib start (pre ++ [a])).rows k).orders = some after ∧
      accepts before after

/-- The status of an order after a run, while there is the order. -/
def status_after (acts : List Act) : Option OrderStatus :=
  (Keyed.lookup Order.order_id id ((run lib start acts).rows k).orders).map (·.status)

variable {lib start k id}

/-- An order is accepted only from SUBMITTED. -/
theorem Orders.Updated.accepts_from {before after : Order} (h : Updated before after)
    (haccepts : accepts before after) : before.status = .SUBMITTED := by
  obtain ⟨hne, heq⟩ := haccepts
  rcases h.status with hsame | hnext
  · exact absurd (hsame.symm.trans heq) hne
  · rw [heq] at hnext
    revert hnext
    cases before.status <;> decide

/-- The statuses before acceptance, and those of an order that is cancelled without it. -/
def Orders.PENDING_STATUSES : List OrderStatus := [.DRAFT, .SUBMITTED, .CANCELLED]

/-- The statuses after acceptance. An order in one of them has been decided upon, and may have
consumed stock. -/
def Orders.DECIDED_STATUSES : List OrderStatus :=
  [.ACCEPTED, .PREPARING, .READY, .COMPLETED, .CANCELLED]

/-- An order stays pending until it is accepted. -/
theorem Orders.Updated.pending {before after : Order} (h : Updated before after)
    (hnot : ¬ accepts before after) (hbefore : before.status ∈ PENDING_STATUSES) :
    after.status ∈ PENDING_STATUSES := by
  unfold accepts at hnot
  rcases h.status with hsame | hnext
  · rwa [hsame]
  · revert hnext hbefore hnot
    cases before.status <;> cases after.status <;> decide

/-- An accepted order is never pending again, nor accepted again. -/
theorem Orders.Updated.decided {before after : Order} (h : Updated before after)
    (hbefore : before.status ∈ DECIDED_STATUSES) :
    after.status ∈ DECIDED_STATUSES ∧ ¬ accepts before after := by
  unfold accepts
  rcases h.status with hsame | hnext
  · rw [hsame]
    exact ⟨hbefore, fun hboth => hboth.1 hboth.2⟩
  · revert hnext hbefore
    cases before.status <;> cases after.status <;> decide

/-- How far an order has come along a run: before its acceptance it has consumed nothing, and
afterwards what it needed then. -/
structure Orders.Stage (lib : Library) (start : ℕ → LegacyBranch) (k id : ℕ) (acts : List Act)
    (db : Branch) : Prop where
  /-- An order that has not been accepted has consumed nothing. -/
  pending : (∀ pre a before, pre ++ [a] <+: acts → ¬ AcceptedBy lib start k id pre a before) →
    (∀ ingredient_id, Orders.consumed db id ingredient_id = []) ∧
      ∀ order, Keyed.lookup Order.order_id id db.orders = some order →
        order.inventory_processed = false ∧ order.status ∈ PENDING_STATUSES
  /-- An accepted order has consumed once what it needed. -/
  decided : ∀ pre a before, pre ++ [a] <+: acts → AcceptedBy lib start k id pre a before →
    (∀ ingredient_id, needs ((run lib start pre).rows k) before ingredient_id →
      ∃ movement : InventoryMovement, Orders.consumed db id ingredient_id = [movement] ∧
        movement.quantity_delta = -requirement ((run lib start pre).rows k)
          (before.items.map (·.toOrderLine)) ingredient_id) ∧
    (∀ ingredient_id, ¬ needs ((run lib start pre).rows k) before ingredient_id →
      Orders.consumed db id ingredient_id = []) ∧
    ∀ order, Keyed.lookup Order.order_id id db.orders = some order →
      order.inventory_processed = true ∧ order.status ∈ DECIDED_STATUSES

variable {acts : List Act} {a : Act}

/-- What a step of a run does to an order that is there before and afterwards. -/
theorem run_order_updated {before after : Order}
    (hbefore : Keyed.lookup Order.order_id id ((run lib start acts).rows k).orders = some before)
    (hafter : Keyed.lookup Order.order_id id ((run lib start (acts ++ [a])).rows k).orders =
      some after) : Updated before after := by
  obtain ⟨events, -, hstep⟩ := run_order_step lib start acts a k id
  rw [hbefore, hafter] at hstep
  cases hstep with
  | updated _ _ hupdated => exact hupdated

/-- What a step of a run adds to the consumptions of an order. -/
theorem run_consumption (acts : List Act) (a : Act) :
    Consumption ((run lib start acts).rows k) ((run lib start (acts ++ [a])).rows k) id := by
  rcases run_step lib start acts a k with hsame | ⟨command, heffect⟩
  · rw [hsame]
    refine .kept (fun before after hbefore hafter haccepts => ?_) fun _ => rfl
    obtain rfl := Option.some.inj (hbefore.symm.trans hafter)
    exact haccepts.1 haccepts.2
  · exact heffect.consumed (run_sane lib start acts k).keys id

/-- A prefix of a longer run is one of the run itself, or the whole of the longer one. -/
theorem prefix_concat_cases {α : Type} {pre acts : List α} {b a : α}
    (h : pre ++ [b] <+: acts ++ [a]) : pre ++ [b] <+: acts ∨ pre = acts ∧ b = a := by
  rcases List.prefix_concat_iff.mp h with heq | hpre
  · obtain ⟨hpre, hlast⟩ := List.append_inj' heq rfl
    exact Or.inr ⟨hpre, List.singleton_inj.mp hlast⟩
  · exact Or.inl hpre

/-- An order whose status none reaches after acceptance is not processed. -/
theorem Orders.Stage.unprocessed {db : Branch} (h : Orders.Stage lib start k id acts db)
    {order : Order} (horder : Keyed.lookup Order.order_id id db.orders = some order)
    (hstatus : order.status ∉ DECIDED_STATUSES) : order.inventory_processed = false := by
  by_cases hsome : ∃ pre b before, pre ++ [b] <+: acts ∧ AcceptedBy lib start k id pre b before
  · obtain ⟨pre, b, before, hpre, haccepted⟩ := hsome
    exact absurd ((h.decided pre b before hpre haccepted).2.2 order horder).2 hstatus
  · refine ((h.pending fun pre b before hpre haccepted => ?_).2 order horder).1
    exact hsome ⟨pre, b, before, hpre, haccepted⟩

/-- A step that does not accept a pending order leaves it pending. -/
theorem Orders.Stage.pending_step (h : Orders.Stage lib start k id acts ((run lib start acts).rows k))
    (hnone : ∀ pre b before, pre ++ [b] <+: acts ++ [a] → ¬ AcceptedBy lib start k id pre b before) :
    (∀ ingredient_id,
      Orders.consumed ((run lib start (acts ++ [a])).rows k) id ingredient_id = []) ∧
    ∀ order, Keyed.lookup Order.order_id id ((run lib start (acts ++ [a])).rows k).orders = some order →
      order.inventory_processed = false ∧ order.status ∈ PENDING_STATUSES := by
  obtain ⟨hconsumed, horder⟩ := h.pending fun pre b before hpre =>
    hnone pre b before (hpre.trans (List.prefix_append acts [a]))
  have hlast := fun before => hnone acts a before List.prefix_rfl
  constructor
  · intro ingredient_id
    -- The last step did not accept it either, so no consumption has been added.
    cases @run_consumption lib start k id acts a with
    | accepted before after hbefore hafter haccepts =>
      exact absurd ⟨hbefore, after, hafter, haccepts⟩ (hlast before)
    | kept hother hkept => rw [hkept, hconsumed]
  · intro after hafter
    obtain ⟨events, -, hstep⟩ := run_order_step lib start acts a k id
    rw [hafter] at hstep
    generalize hold : Keyed.lookup Order.order_id id ((run lib start acts).rows k).orders = old at hstep
    -- The order has just appeared as a draft, or it was pending and has not been accepted.
    cases hstep with
    | created _ hstatus hprocessed =>
      rw [hstatus]
      exact ⟨hprocessed, by decide⟩
    | updated before _ hupdated =>
      have hnot : ¬ accepts before after := fun haccepts =>
        hlast before ⟨hold, after, hafter, haccepts⟩
      obtain ⟨hprocessed, hstatus⟩ := horder before hold
      refine ⟨?_, hupdated.pending hnot hstatus⟩
      -- The flag is set by acceptance only.
      rw [Bool.eq_false_iff]
      intro hnow
      rcases hupdated.processed.mp hnow with hold' | haccepts
      · rw [hprocessed] at hold'
        cases hold'
      · exact hnot haccepts

/-- Every later step leaves a decided order decided. Nothing is consumed for it any more, and its
status is not draft again. -/
theorem Orders.Stage.decided_step (h : Orders.Stage lib start k id acts ((run lib start acts).rows k))
    {pre : List Act} {b : Act} {before : Order} (hpre : pre ++ [b] <+: acts)
    (haccepted : AcceptedBy lib start k id pre b before) :
    (∀ ingredient_id, Orders.consumed ((run lib start (acts ++ [a])).rows k) id ingredient_id =
      Orders.consumed ((run lib start acts).rows k) id ingredient_id) ∧
    ∀ order, Keyed.lookup Order.order_id id ((run lib start (acts ++ [a])).rows k).orders = some order →
      order.inventory_processed = true ∧ order.status ∈ DECIDED_STATUSES := by
  obtain ⟨-, -, horder⟩ := h.decided pre b before hpre haccepted
  constructor
  · intro ingredient_id
    -- A decided order is not accepted again: its status is past SUBMITTED.
    cases @run_consumption lib start k id acts a with
    | accepted before' after hbefore hafter haccepts =>
      have hupdated := run_order_updated hbefore hafter
      exact absurd haccepts (hupdated.decided (horder before' hbefore).2).2
    | kept hother hkept => exact hkept ingredient_id
  · intro after hafter
    cases hold : Keyed.lookup Order.order_id id ((run lib start acts).rows k).orders with
    | none =>
      -- The order was there when it was accepted, so it does not come back.
      have hsome : Keyed.lookup Order.order_id id ((run lib start pre).rows k).orders ≠ none := by
        rw [haccepted.1]
        exact Option.some_ne_none _
      obtain ⟨hgone, -⟩ :=
        run_order_gone (a := a) ((List.prefix_append pre [b]).trans hpre) hsome hold
      rw [hgone] at hafter
      cases hafter
    | some before' =>
      have hupdated := run_order_updated hold hafter
      obtain ⟨hprocessed, hstatus⟩ := horder before' hold
      exact ⟨hupdated.processed.mpr (Or.inl hprocessed), (hupdated.decided hstatus).1⟩

/-- The step that accepts an order posts what it needs. That it was not decided before is why its
consumptions afterwards are exactly the new ones. -/
theorem Orders.Stage.accepted_step (h : Orders.Stage lib start k id acts ((run lib start acts).rows k))
    {before : Order} (haccepted : AcceptedBy lib start k id acts a before) :
    (∀ ingredient_id, needs ((run lib start acts).rows k) before ingredient_id →
      ∃ movement : InventoryMovement,
        Orders.consumed ((run lib start (acts ++ [a])).rows k) id ingredient_id = [movement] ∧
        movement.quantity_delta = -requirement ((run lib start acts).rows k)
          (before.items.map (·.toOrderLine)) ingredient_id) ∧
    (∀ ingredient_id, ¬ needs ((run lib start acts).rows k) before ingredient_id →
      Orders.consumed ((run lib start (acts ++ [a])).rows k) id ingredient_id = []) ∧
    ∀ order, Keyed.lookup Order.order_id id ((run lib start (acts ++ [a])).rows k).orders = some order →
      order.inventory_processed = true ∧ order.status ∈ DECIDED_STATUSES := by
  obtain ⟨hbefore, after, hafter, haccepts⟩ := haccepted
  have hupdated := run_order_updated hbefore hafter
  -- It cannot have been accepted before, so it has consumed nothing so far.
  have hnone : ∀ pre b before', pre ++ [b] <+: acts → ¬ AcceptedBy lib start k id pre b before' := by
    intro pre b before' hpre haccepted'
    obtain ⟨-, -, horder⟩ := h.decided pre b before' hpre haccepted'
    exact (hupdated.decided (horder before hbefore).2).2 haccepts
  obtain ⟨hconsumed, -⟩ := h.pending hnone
  have hlast : ∀ order, Keyed.lookup Order.order_id id ((run lib start (acts ++ [a])).rows k).orders =
      some order → order.inventory_processed = true ∧ order.status ∈ DECIDED_STATUSES := by
    intro order horder
    obtain rfl := Option.some.inj (hafter.symm.trans horder)
    refine ⟨hupdated.processed.mpr (Or.inr haccepts), ?_⟩
    rw [haccepts.2]
    decide
  -- What the step posts is compared with the empty list of what had been posted.
  cases @run_consumption lib start k id acts a with
  | kept hother => exact absurd haccepts (hother before after hbefore hafter)
  | accepted before' after' hbefore' hafter' _ hneeded hother =>
    obtain rfl := Option.some.inj (hbefore.symm.trans hbefore')
    refine ⟨fun ingredient_id hneeds => ?_, fun ingredient_id hneeds => ?_, hlast⟩
    · obtain ⟨movement, hdelta, hmovement⟩ := hneeded ingredient_id hneeds
      rw [hconsumed, List.nil_append] at hmovement
      exact ⟨movement, hmovement, hdelta⟩
    · rw [hother ingredient_id hneeds, hconsumed]

/-- The movements of the legacy database are of its own orders. -/
theorem consumed_legacy (hnew : ∀ order ∈ (start k).orders, order.order_id ≠ id)
    (ingredient_id : ℕ) : Orders.consumed (start k).toBranch id ingredient_id = [] := by
  unfold Orders.consumed
  cases hlookup : Keyed.lookup IngredientRecord.id ingredient_id (start k).ingredients with
  | none => rfl
  | some record =>
    rw [Option.map_some, Option.getD_some]
    refine List.filter_eq_nil_iff.mpr fun movement hmovement => ?_
    simp only [decide_eq_true_eq, not_and]
    intro _ hid
    obtain ⟨order, horder, hkey⟩ := (start k).legacy.movements record (Keyed.lookup_mem hlookup)
      movement hmovement id hid
    exact hnew order horder hkey

/-- Every order that the service has created is in its stage after every run. -/
theorem run_stage (hnew : ∀ order ∈ (start k).orders, order.order_id ≠ id) (acts : List Act) :
    Orders.Stage lib start k id acts ((run lib start acts).rows k) := by
  induction acts using List.reverseRecOn with
  | nil =>
    -- At the start no order has this key, so nothing has been consumed for it.
    have hrows : (run lib start []).rows k = (start k).toBranch := rfl
    rw [hrows]
    refine ⟨fun _ => ⟨fun ingredient_id => consumed_legacy hnew ingredient_id, ?_⟩, ?_⟩
    · intro order horder
      exact absurd (Keyed.lookup_key horder) (hnew order (Keyed.lookup_mem horder))
    · intro pre b before hpre
      simp at hpre
  | append_singleton acts a ih =>
    refine ⟨ih.pending_step, fun pre b before hpre haccepted => ?_⟩
    -- The accepting step is an earlier one, or the last step of the run.
    rcases prefix_concat_cases hpre with hpre | ⟨rfl, rfl⟩
    · obtain ⟨hconsumed, horder⟩ := ih.decided_step (a := a) hpre haccepted
      obtain ⟨hneeded, hother, -⟩ := ih.decided pre b before hpre haccepted
      refine ⟨fun ingredient_id hneeds => ?_, fun ingredient_id hneeds => ?_, horder⟩
      · rw [hconsumed]
        exact hneeded ingredient_id hneeds
      · rw [hconsumed]
        exact hother ingredient_id hneeds
    · exact ih.accepted_step haccepted

/-- The status of an order that the service has created appears as DRAFT and moves along
`ORDER_TRANSITIONS`. -/
theorem observed_status (hnew : ∀ order ∈ (start k).orders, order.order_id ≠ id) :
    Paths.Observed (status_after lib start k id) (fun s t => t ∈ ORDER_TRANSITIONS s) .DRAFT := by
  have hcases : ∀ {acts s}, status_after lib start k id acts = some s → ∃ order,
      Keyed.lookup Order.order_id id ((run lib start acts).rows k).orders = some order ∧
        order.status = s := fun h => Option.map_eq_some_iff.mp h
  have hnone : ∀ {acts}, status_after lib start k id acts = none →
      Keyed.lookup Order.order_id id ((run lib start acts).rows k).orders = none :=
    fun h => Option.map_eq_none_iff.mp h
  -- The first status observed is the one an order is created with.
  constructor
  · intro acts a s hold hs
    obtain ⟨order, horder, rfl⟩ := hcases hs
    obtain ⟨events, -, hstep⟩ := run_order_step lib start acts a k id
    rw [hnone hold, horder] at hstep
    cases hstep with
    | created _ hstatus => exact hstatus
  · intro s hs
    obtain ⟨order, horder, -⟩ := hcases hs
    exact absurd (Keyed.lookup_key horder) (hnew order (Keyed.lookup_mem horder))
  · -- Two successive statuses differ by a transition or not at all.
    intro acts a s t hs ht
    obtain ⟨before, hbefore, rfl⟩ := hcases hs
    obtain ⟨after, hafter, rfl⟩ := hcases ht
    rcases (run_order_updated hbefore hafter).status with hsame | hnext
    · exact Or.inl hsame.symm
    · exact Or.inr hnext
  · -- Once gone the order stays gone, so no status is observed after that.
    intro acts a hobserved hold
    obtain ⟨s, hs⟩ := List.exists_mem_of_ne_nil _ hobserved
    obtain ⟨pre, hpre, hstatus⟩ := List.mem_filterMap.mp hs
    obtain ⟨order, horder, -⟩ := hcases hstatus
    have hsome : Keyed.lookup Order.order_id id ((run lib start pre).rows k).orders ≠ none := by
      rw [horder]
      exact Option.some_ne_none _
    obtain ⟨hgone, -⟩ :=
      run_order_gone (a := a) ((List.mem_inits _ _).mp hpre) hsome (hnone hold)
    exact Option.map_eq_none_iff.mpr hgone

end Runs

/-- The statuses that an order takes along a run, one after the other. -/
def statuses (lib : Library) (start : ℕ → LegacyBranch) (k id : ℕ) (acts : List Act) :
    List OrderStatus :=
  (Paths.observed (status_after lib start k id) acts).destutter (· ≠ ·)

/-- Acceptance consumes stock exactly once and never oversells. The statuses of an order are a path of
`ORDER_TRANSITIONS` from DRAFT; the order is marked as processed by the step that moves it from
SUBMITTED to ACCEPTED, and stays so; its consumptions are one for each ingredient that its lines
needed when it was accepted, by what they needed, and none before. Balances are never negative, a
failed request changes nothing, and a request to the order service that accepts no order leaves the
stock as it is. -/
theorem acceptance_consumes_once (lib : Library) (start : ℕ → LegacyBranch) (acts : List Act)
    (k : ℕ) :
    (∀ id, (∀ order ∈ (start k).orders, order.order_id ≠ id) →
      ((statuses lib start k id acts).IsChain (fun s t => t ∈ ORDER_TRANSITIONS s) ∧
        ∀ s ∈ (statuses lib start k id acts).head?, s = .DRAFT) ∧
      (∀ pre a after, pre ++ [a] <+: acts →
        Keyed.lookup Order.order_id id ((run lib start (pre ++ [a])).rows k).orders = some after →
        (Keyed.lookup Order.order_id id ((run lib start pre).rows k).orders = none ∧
          after.inventory_processed = false) ∨
        ∃ before, Keyed.lookup Order.order_id id ((run lib start pre).rows k).orders = some before ∧
          (before.inventory_processed = true → after.inventory_processed = true) ∧
          (before.inventory_processed = false ∧ after.inventory_processed = true ↔
            before.status = .SUBMITTED ∧ after.status = .ACCEPTED)) ∧
      (∀ pre a before, pre ++ [a] <+: acts → AcceptedBy lib start k id pre a before →
        ∀ ingredient_id,
          (needs ((run lib start pre).rows k) before ingredient_id →
            ∃ movement : InventoryMovement,
              consumed ((run lib start acts).rows k) id ingredient_id = [movement] ∧
              movement.quantity_delta = -requirement ((run lib start pre).rows k)
                (before.items.map (·.toOrderLine)) ingredient_id) ∧
          (¬ needs ((run lib start pre).rows k) before ingredient_id →
            consumed ((run lib start acts).rows k) id ingredient_id = [])) ∧
      ((∀ pre a before, pre ++ [a] <+: acts → ¬ AcceptedBy lib start k id pre a before) →
        ∀ ingredient_id, consumed ((run lib start acts).rows k) id ingredient_id = [])) ∧
    (∀ record ∈ ((run lib start acts).rows k).ingredients, ∀ balance ∈ record.balance,
      0 ≤ balance.quantity) ∧
    (∀ i request failure, (run lib start acts).processes[i]? = some ⟨request, .failed failure⟩ →
      ∀ pre a, pre ++ [a] <+: acts → a.process = some i →
        (run lib start (pre ++ [a])).rows = (run lib start pre).rows) ∧
    (∀ pre i request outcome, pre ++ [.finish i] <+: acts →
      (run lib start pre).processes[i]? = some ⟨request, .executed outcome⟩ →
      request.restaurant_id = k → request.command.is_order = true →
      (∀ id before, ¬ AcceptedBy lib start k id pre (.finish i) before) →
        ((run lib start (pre ++ [.finish i])).rows k).ingredients =
          ((run lib start pre).rows k).ingredients) := by
  refine ⟨fun id hnew => ⟨(observed_status hnew).path acts, ?_, ?_, ?_⟩, ?_, ?_, ?_⟩
  · -- The step created the order, or updated it.
    intro pre a after _ hafter
    cases hbefore : Keyed.lookup Order.order_id id ((run lib start pre).rows k).orders with
    | none =>
      obtain ⟨events, -, hstep⟩ := run_order_step lib start pre a k id
      rw [hbefore, hafter] at hstep
      cases hstep with
      | created _ hstatus hprocessed => exact Or.inl ⟨rfl, hprocessed⟩
    | some before =>
      have hupdated := run_order_updated hbefore hafter
      refine Or.inr ⟨before, rfl, fun hold => hupdated.processed.mpr (Or.inl hold), ?_, ?_⟩
      · rintro ⟨hold, hnow⟩
        rcases hupdated.processed.mp hnow with hold' | haccepts
        · rw [hold] at hold'
          cases hold'
        · exact ⟨hupdated.accepts_from haccepts, haccepts.2⟩
      · rintro ⟨hsubmitted, haccepted⟩
        have haccepts : accepts before after := by
          refine ⟨?_, haccepted⟩
          rw [hsubmitted]
          decide
        refine ⟨?_, hupdated.processed.mpr (Or.inr haccepts)⟩
        -- Only a pending order can be accepted, and a pending order is not processed.
        refine (run_stage hnew pre).unprocessed hbefore ?_
        rw [hsubmitted]
        decide
  · -- What acceptance has posted stays, and nothing is added to it later.
    intro pre a before hpre haccepted ingredient_id
    obtain ⟨hneeded, hother, -⟩ := (run_stage hnew acts).decided pre a before hpre haccepted
    exact ⟨hneeded ingredient_id, hother ingredient_id⟩
  · exact fun hnone => ((run_stage hnew acts).pending hnone).1
  · exact fun record hrecord balance hbalance =>
      ((run_sane lib start acts k).range record hrecord balance hbalance).1
  · exact fun i request failure h pre a hpre ha => Serial.run_failed h hpre ha
  · -- The commit of a request is the only step that changes the rows, and it is an effect of the
    -- service.
    intro pre i request outcome _ hprocess hkey hcommand hnone
    rcases run_step_exec lib start pre (.finish i) k with hsame |
      ⟨j, request', draw, value, response, hj, -, hprocess', -, hexec, hrows⟩
    · rw [hsame]
    · cases hj
      obtain rfl : request = request' := by
        rw [hprocess] at hprocess'
        cases hprocess'
        rfl
      have hsane := run_sane lib start pre k
      have heffect := exec_effect hsane.keys hsane.range hexec
      rw [← hrows] at heffect
      refine heffect.stock_kept hcommand fun id before after hbefore hafter haccepts => ?_
      exact hnone id before ⟨hbefore, after, hafter, haccepts⟩

end RestaurantOS
