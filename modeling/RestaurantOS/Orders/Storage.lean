import RestaurantOS.Orders.Money
import RestaurantOS.Refusals
import Mathlib.Algebra.Order.BigOperators.Group.List
import Mathlib.Tactic.Positivity

/-!
# Whether the amounts of an order fit their columns

The columns of an order hold a quantity below 2³¹ and an amount up to 99999999.99, and so does the
contract of its events. The service checks neither before it flushes: a request that passes every other
check fails exactly if its amounts do not fit (`create_overflows`, `update_overflows`), and what is
stored fits (`run_storable`). -/

namespace RestaurantOS

open Fallible Catalog Events Inventory Orders Tenancy

/-! ## Amounts -/

/-- Numbers with two decimal places are the hundredths of integers. -/
theorem has_decimal_places_iff {places : ℕ} {value : ℚ} :
    has_decimal_places places value ↔ ∃ n : ℤ, value * 10 ^ places = n := by
  unfold has_decimal_places
  rw [Rat.den_eq_one_iff]
  constructor
  · exact fun h => ⟨_, h.symm⟩
  · rintro ⟨n, hn⟩
    rw [hn]
    rfl

/-- A multiple of a number has its decimal places. -/
theorem has_decimal_places_mul {places : ℕ} {value : ℚ} (h : has_decimal_places places value) (n : ℕ) :
    has_decimal_places places (value * n) := by
  obtain ⟨m, hm⟩ := has_decimal_places_iff.mp h
  refine has_decimal_places_iff.mpr ⟨m * n, ?_⟩
  rw [mul_right_comm, hm]
  push_cast
  rfl

/-- A sum of numbers has their decimal places. Adding needs no more places than the longest summand.
-/
theorem has_decimal_places_sum {places : ℕ} {values : List ℚ}
    (h : ∀ value ∈ values, has_decimal_places places value) :
    has_decimal_places places values.sum := by
  induction values with
  | nil => exact has_decimal_places_iff.mpr ⟨0, by simp⟩
  | cons value values ih =>
    obtain ⟨m, hm⟩ := has_decimal_places_iff.mp (h value List.mem_cons_self)
    obtain ⟨n, hn⟩ := has_decimal_places_iff.mp
      (ih fun value hvalue => h value (List.mem_cons_of_mem _ hvalue))
    refine has_decimal_places_iff.mpr ⟨m + n, ?_⟩
    rw [List.sum_cons, add_mul, hm, hn]
    push_cast
    rfl

namespace Inventory

variable {db : Branch} {draw : Draw}

/-- A guard on anything but what is stored. -/
theorem not_storage_ensure {p : Prop} [Decidable p] {failure : Failure}
    (h : failure.NotStorage) :
    Fails Failure.NotStorage (ensure p failure) := fails_ensure fun _ => h

/-- Checking an episode boundary. What it refuses is a contract of the inventory, never a column. -/
theorem episode_transition_not_storage (episode_id : UUID) (kind : EpisodeTransitionKind)
    (occurred_at : Timestamp) (reason : Option EpisodeResolutionReason) :
    Fails Failure.NotStorage (episode_transition episode_id kind occurred_at reason) := by
  have hcheck : Fails Failure.NotStorage (transition_check kind reason) :=
    fails_bind (not_storage_ensure trivial) fun _ _ => not_storage_ensure trivial
  unfold episode_transition
  split
  · exact fails_ok _
  · rename_i failure heq
    intro failure' h
    rw [← Except.error.inj h]
    exact hcheck failure heq

/-- Checking the facts of an episode. Each check raises an error of its own, and none of them is the
error of the storage. -/
theorem current_facts_not_storage (episode : Option InventoryLowStockEpisode) :
    Fails Failure.NotStorage (current_facts episode) := by
  cases episode with
  | none => exact fails_pure _
  | some episode =>
    have hcheck : Fails Failure.NotStorage (episode_check episode) := by
      refine fails_bind (not_storage_ensure trivial) fun _ _ => ?_
      refine fails_bind (not_storage_ensure trivial) fun _ _ => ?_
      refine fails_bind (not_storage_ensure trivial) fun _ _ => ?_
      exact fails_bind (not_storage_ensure trivial) fun _ _ => not_storage_ensure trivial
    refine fails_bind ?_ fun _ _ => fails_pure _
    unfold episode_facts
    split
    · exact fails_ok _
    · rename_i failure heq
      intro failure' h
      rw [← Except.error.inj h]
      exact hcheck failure heq

/-- Checking a transition. Like the check of its parts, it never touches a column. -/
theorem inventory_transition_not_storage (state : InventoryStateSnapshot) (episode_id : Option UUID)
    (fact : Option InventoryEpisodeTransition) (facts : Option InventoryEpisodeFacts) :
    Fails Failure.NotStorage (inventory_transition state episode_id fact facts) := by
  have hcheck : Fails Failure.NotStorage (state_check state episode_id fact facts) := by
    refine fails_bind (not_storage_ensure trivial) fun _ _ => ?_
    refine fails_bind (not_storage_ensure trivial) fun _ _ => ?_
    refine fails_bind (not_storage_ensure trivial) fun _ _ => ?_
    refine fails_bind (not_storage_ensure trivial) fun _ _ => ?_
    exact fails_bind (not_storage_ensure trivial) fun _ _ => not_storage_ensure trivial
  unfold inventory_transition
  split
  · exact fails_ok _
  · rename_i failure heq
    intro failure' h
    rw [← Except.error.inj h]
    exact hcheck failure heq

/-- Opening or resolving an episode. The branches are entering the low range, leaving it, and
staying on one side. -/
theorem cross_boundary_not_storage (episodes : List InventoryLowStockEpisode)
    (episode : Option InventoryLowStockEpisode) (before : Option InventoryStateSnapshot)
    (after : InventoryStateSnapshot) (episode_id : UUID) (timestamp : Timestamp)
    (source : InventoryTransitionSource) (actor_user_id : Option UUID) (order_id : Option ℕ) :
    Fails Failure.NotStorage (cross_boundary episodes episode before after episode_id timestamp source
      actor_user_id order_id) := by
  unfold cross_boundary
  split
  · refine fails_bind (not_storage_ensure trivial) fun _ _ => ?_
    exact fails_bind (episode_transition_not_storage _ _ _ _) fun _ _ => fails_pure _
  · split
    · refine fails_bind ?_ fun _ _ => ?_
      · refine fails_bind (not_storage_ensure trivial) fun _ _ => ?_
        split_ifs
        · exact fails_pure _
        · exact fails_pure _
        · exact fails_pure _
      · exact fails_bind (episode_transition_not_storage _ _ _ _) fun _ _ => fails_pure _
    · exact fails_pure _
  · exact fails_pure _

/-- Appending an event. -/
theorem append_not_storage (db : Branch) (draw : Draw) (organization_id : UUID) (revision : ℕ)
    (payload : Payload) : Fails Failure.NotStorage (db.append draw organization_id revision payload) :=
  fails_bind (not_storage_ensure trivial) fun _ _ =>
    fails_bind (not_storage_ensure trivial) fun _ _ => fails_pure _

/-- Recording a transition. The stages are the revision of the state, the boundary, the facts of the
events, and the events. -/
theorem record_inventory_transition_not_storage (organization_id : UUID) (record : IngredientRecord)
    (balance : InventoryBalance) (before : Option InventoryStateSnapshot)
    (source : InventoryTransitionSource) (actor_user_id : Option UUID) (order_id : Option ℕ) :
    Fails Failure.NotStorage (record_inventory_transition db draw organization_id record balance before
      source actor_user_id order_id) := by
  simp only [record_inventory_transition]
  split_ifs
  · refine fails_bind ?_ fun _ _ => ?_
    · unfold next_state_revision
      split
      · exact fails_pure _
      · exact fails_bind (not_storage_ensure trivial) fun _ _ => fails_pure _
    refine fails_bind (cross_boundary_not_storage _ _ _ _ _ _ _ _ _) fun _ _ => ?_
    refine fails_bind (fails_bind (current_facts_not_storage _) fun _ _ =>
      inventory_transition_not_storage _ _ _ _) fun _ _ => ?_
    refine fails_bind (append_not_storage _ _ _ _ _) fun _ _ => ?_
    unfold append_low
    split_ifs
    · split
      · exact append_not_storage _ _ _ _ _
      · exact fails_throw trivial
    · exact fails_pure _
  · exact fails_pure _

end Inventory

namespace Orders

variable {db : Branch}

/-! ## What a request asks for -/

/-- The total of one item of a request: the price of its menu item times its portions. -/
def item_total (db : Branch) (item : OrderItemCommand) : ℚ :=
  ((menu_item db item.menu_item_id).map (·.price)).getD 0 * item.quantity

/-- The amounts that a request asks for fit their columns. -/
structure AmountsFit (db : Branch) (items : List OrderItemCommand) : Prop where
  /-- The portions of every item. -/
  quantities : ∀ item ∈ items, item.quantity ≤ MAX_INTEGER
  /-- The total of every item. -/
  totals : ∀ item ∈ items, item_total db item ≤ MAX_MONEY
  /-- The sum. -/
  sum : (items.map (item_total db)).sum ≤ MAX_MONEY

/-- The portions of one item of a request, as the stock is checked for them. -/
def portions_line (item : OrderItemCommand) : OrderLine :=
  { menu_item_id := some item.menu_item_id, item_name := "", quantity := item.quantity,
    unit_price := 0, line_total := 0, notes := none }

/-- The items of a request pass the checks of the service. -/
structure ItemsAccepted (db : Branch) (items : List OrderItemCommand) : Prop where
  /-- The menu items are there. -/
  found : ∀ item ∈ items, menu_item db item.menu_item_id ≠ none
  /-- They are available. -/
  available : ∀ row ∈ db.menu_items, row.menu_item_id ∈ items.map (·.menu_item_id) →
    row.is_available = true
  /-- The stock covers their portions. -/
  stock : check_stock db (items.map portions_line) = .ok ()

/-- The stock that lines need depends on their menu items and their portions alone. -/
theorem check_stock_congr {lines lines' : List OrderLine}
    (h : lines.map (fun line => (line.menu_item_id, line.quantity)) =
      lines'.map fun line => (line.menu_item_id, line.quantity)) :
    check_stock db lines = check_stock db lines' := by
  have hportions : ∀ lines : List OrderLine, lines.mapM line_portions =
      (lines.map fun line => (line.menu_item_id, line.quantity)).mapM fun (id, quantity) =>
        line_portions ⟨id, "", quantity, 0, 0, none⟩ := by
    intro lines
    rw [List.mapM_map]
    rfl
  unfold check_stock stock_rows
  rw [hportions lines, hportions lines', h]

/-- The lines of a request, item by item. The menu items are found and available, each line is
priced from its row, and the subtotal is the sum of the lines. -/
theorem build_order_items_lines {items : List OrderItemCommand} {lines : List OrderLine}
    {subtotal : ℚ} (h : build_order_items db items = .ok (lines, subtotal)) :
    (∀ item ∈ items, menu_item db item.menu_item_id ≠ none) ∧
      (∀ row ∈ db.menu_items, row.menu_item_id ∈ items.map (·.menu_item_id) →
        row.is_available = true) ∧
      List.Forall₂ (fun item line => line.menu_item_id = some item.menu_item_id ∧
        line.quantity = item.quantity ∧ line.line_total = item_total db item) items lines ∧
      subtotal = (items.map (item_total db)).sum := by
  obtain ⟨_, hfound, h⟩ := bind_eq_ok.mp h
  obtain ⟨_, havailable, h⟩ := bind_eq_ok.mp h
  obtain ⟨lines', hlines, h⟩ := bind_eq_ok.mp h
  obtain ⟨rfl, rfl⟩ := Prod.mk.inj (pure_eq_ok.mp h)
  have hall : List.Forall₂ (fun item line => line.menu_item_id = some item.menu_item_id ∧
      line.quantity = item.quantity ∧ line.line_total = item_total db item) items lines' := by
    -- Each line is computed from the row of its menu item.
    refine (mapM_eq_ok.mp hlines).imp fun item line hline => ?_
    unfold order_line at hline
    unfold item_total
    cases hitem : menu_item db item.menu_item_id with
    | none => simp [hitem] at hline
    | some row =>
      simp only [hitem] at hline
      rw [← pure_eq_ok.mp hline]
      exact ⟨congrArg some (Keyed.lookup_key hitem), rfl, rfl⟩
  refine ⟨fun item hitem hnone => ?_, fun row hrow hmem => ?_, hall, ?_⟩
  · -- The first check has found no missing item.
    have hempty := ensure_eq_ok.mp hfound
    rw [List.filter_eq_nil_iff] at hempty
    exact hempty item.menu_item_id (List.mem_map_of_mem hitem) (by simp [hnone])
  · -- The second check has found no withdrawn one.
    have hempty := List.map_eq_nil_iff.mp (ensure_eq_ok.mp havailable)
    rw [List.filter_eq_nil_iff] at hempty
    by_contra hnot
    exact hempty row hrow (decide_eq_true ⟨hmem, Bool.eq_false_of_not_eq_true hnot⟩)
  · rw [map_eq_of_forall₂ hall fun item line hline => hline.2.2]

/-- The lines of a request whose menu items are there and available. -/
theorem exists_build_order_items {items : List OrderItemCommand}
    (hfound : ∀ item ∈ items, menu_item db item.menu_item_id ≠ none)
    (havailable : ∀ row ∈ db.menu_items, row.menu_item_id ∈ items.map (·.menu_item_id) →
      row.is_available = true) :
    ∃ lines subtotal, build_order_items db items = .ok (lines, subtotal) := by
  -- Every line can be priced, as its menu item is there.
  obtain ⟨lines, hlines⟩ : ∃ lines, items.mapM (order_line db) = .ok lines := by
    refine exists_mapM fun item hitem => ?_
    obtain ⟨row, hrow⟩ := Option.ne_none_iff_exists'.mp (hfound item hitem)
    unfold order_line
    rw [hrow]
    exact ⟨_, rfl⟩
  refine ⟨lines, _, bind_eq_ok.mpr ⟨(), ensure_eq_ok.mpr ?_, bind_eq_ok.mpr ⟨(), ensure_eq_ok.mpr ?_,
    bind_eq_ok.mpr ⟨lines, hlines, rfl⟩⟩⟩⟩
  · rw [List.filter_eq_nil_iff]
    intro id hid hnone
    obtain ⟨item, hitem, rfl⟩ := List.mem_map.mp hid
    exact hfound item hitem (by simpa using hnone)
  · rw [List.map_eq_nil_iff, List.filter_eq_nil_iff]
    intro row hrow hboth
    obtain ⟨hmem, hwithdrawn⟩ := of_decide_eq_true hboth
    rw [havailable row hrow hmem] at hwithdrawn
    cases hwithdrawn

/-- The lines of a request need the stock of its portions. -/
theorem check_stock_lines {items : List OrderItemCommand} {lines : List OrderLine} {subtotal : ℚ}
    (h : build_order_items db items = .ok (lines, subtotal)) :
    check_stock db lines = check_stock db (items.map portions_line) := by
  obtain ⟨-, -, hall, -⟩ := build_order_items_lines h
  refine check_stock_congr ?_
  rw [map_eq_of_forall₂ hall (f := fun item => (some item.menu_item_id, item.quantity))
    fun item line hline => Prod.ext hline.1 hline.2.1, List.map_map]
  rfl

/-- The columns hold the items that are written for a request exactly if its amounts fit. The
quantities and the totals of the lines are those of the request. -/
theorem columns_hold_iff {items : List OrderItemCommand} {lines : List OrderLine} {subtotal : ℚ}
    {order : Order} {first : ℕ} (h : build_order_items db items = .ok (lines, subtotal))
    (hid : order.order_id ≤ MAX_INTEGER) (hitems : order.items = number_items first lines)
    (hsubtotal : order.subtotal = subtotal) : columns_hold order ↔ AmountsFit db items := by
  obtain ⟨-, -, hall, hsum⟩ := build_order_items_lines h
  -- Numbering the lines changes neither quantities nor totals.
  have hlines : (∀ item ∈ order.items, item.quantity ≤ MAX_INTEGER ∧ item.line_total ≤ MAX_MONEY) ↔
      ∀ line ∈ lines, line.quantity ≤ MAX_INTEGER ∧ line.line_total ≤ MAX_MONEY := by
    rw [hitems]
    conv_rhs => rw [← map_number_items first lines]
    rw [List.forall_mem_map]
  -- A line is the line of some item, and an item has a line.
  have hrequest : (∀ line ∈ lines, line.quantity ≤ MAX_INTEGER ∧ line.line_total ≤ MAX_MONEY) ↔
      ∀ item ∈ items, item.quantity ≤ MAX_INTEGER ∧ item_total db item ≤ MAX_MONEY := by
    constructor
    · intro hfit item hitem
      obtain ⟨line, hline, -, hquantity, htotal⟩ := exists_of_mem_left hall hitem
      rw [← hquantity, ← htotal]
      exact hfit line hline
    · intro hfit line hline
      obtain ⟨item, hitem, -, hquantity, htotal⟩ := exists_of_mem_right hall hline
      rw [hquantity, htotal]
      exact hfit item hitem
  unfold columns_hold
  rw [hlines, hrequest, hsubtotal, hsum]
  constructor
  · rintro ⟨-, hsum, hfit⟩
    exact ⟨fun item hitem => (hfit item hitem).1, fun item hitem => (hfit item hitem).2, hsum⟩
  · intro hfit
    exact ⟨hid, hfit.sum, fun item hitem => ⟨hfit.quantities item hitem, hfit.totals item hitem⟩⟩

end Orders

/-! ## Creation -/

variable {lib : Library} {context : AccessContext} {draw : Draw} {db : Branch}

/-- A creation passes the checks of the service, and nothing is left to do but to store the order. -/
structure CreationAccepted (lib : Library) (context : AccessContext) (command : CreateOrder)
    (db : Branch) : Prop where
  /-- The restaurant is visible. -/
  visible : db.restaurant context = .ok ()
  /-- The caller may create orders. -/
  granted : context.require .order_create = .ok ()
  /-- The key is valid. -/
  key : valid_key command.idempotency_key
  /-- No order has been submitted with it. -/
  unused : submission db command.idempotency_key = none
  /-- The items. -/
  items : ItemsAccepted db command.items

/-- A creation fails at the storage exactly if it passes the checks and its amounts do not fit, where
the sequence of the orders has a key left. -/
theorem create_overflows {command : CreateOrder}
    (hkey : db.next_order_id + draw.gap ≤ MAX_INTEGER) :
    OrderService.create lib context command draw db = .error .DatabaseError ↔
      CreationAccepted lib context command db ∧ ¬ AmountsFit db command.items := by
  have hne : ¬ Failure.NotStorage .DatabaseError := id
  constructor
  · -- Only the last check raises this error, so everything before it has passed.
    intro h
    obtain ⟨_, hvisible, h⟩ := (bind_eq_error Branch.restaurant_fails hne).mp h
    obtain ⟨_, hgranted, h⟩ := (bind_eq_error (require_fails _) hne).mp h
    obtain ⟨_, hvalid, h⟩ := (bind_eq_error (refuses_ensure (by trivial)) hne).mp h
    cases hsubmission : submission db command.idempotency_key with
    -- A replay writes no row.
    | some replay =>
      simp only [hsubmission] at h
      obtain ⟨_, -, h⟩ := (bind_eq_error (refuses_ensure (by trivial)) hne).mp h
      cases h
    | none =>
      simp only [hsubmission] at h
      obtain ⟨⟨lines, subtotal⟩, hlines, h⟩ := (bind_eq_error (build_order_items_fails _) hne).mp h
      obtain ⟨_, hstock, h⟩ := (bind_eq_error (check_stock_fails _) hne).mp h
      simp only at h
      have hcolumns : ¬ columns_hold _ := fun hcolumns => by
        rw [ensure_bind hcolumns] at h
        cases h
      obtain ⟨hfound, havailable, -⟩ := build_order_items_lines hlines
      rw [check_stock_lines hlines] at hstock
      rw [columns_hold_iff hlines hkey rfl rfl] at hcolumns
      exact ⟨⟨hvisible, hgranted, ensure_eq_ok.mp hvalid, hsubmission, hfound, havailable, hstock⟩,
        hcolumns⟩
  · -- The request passes every check up to the columns.
    rintro ⟨haccepted, hamounts⟩
    obtain ⟨lines, subtotal, hlines⟩ :=
      exists_build_order_items haccepted.items.found haccepted.items.available
    have hstock := (check_stock_lines hlines).trans haccepted.items.stock
    unfold OrderService.create
    rw [ok_bind haccepted.visible, ok_bind haccepted.granted, ensure_bind haccepted.key]
    simp only [haccepted.unused]
    rw [ok_bind hlines]
    simp only
    rw [ok_bind hstock]
    refine ensure_bind_error (fun hcolumns => hamounts ?_) _
    exact (columns_hold_iff hlines hkey (by rfl) (by rfl)).mp hcolumns

/-! ## Replacing the items -/

namespace Orders

/-- The status part of an update stores nothing that its column cannot hold. -/
theorem update_status_not_storage (command : UpdateOrder) (order : Order) :
    Fails Failure.NotStorage (update_status lib context command draw db order) := by
  unfold update_status
  split
  · exact fails_pure _
  · refine fails_bind (ensure_valid_order_transition_fails _ _ _) fun requested _ => ?_
    split_ifs
    · exact fails_bind (check_stock_fails _) fun _ _ => fails_pure _
    · refine fails_bind ?_ fun _ _ => fails_pure _
      refine fails_bind (stock_rows_fails _) fun rows _ => ?_
      refine fails_foldlM (fun _ _ => True) trivial (fun _ _ _ _ _ _ _ _ => trivial) ?_
      exact fun _ row _ _ _ _ => record_inventory_transition_not_storage _ _ _ _ _ _ _
    · exact fails_pure _

/-- The status part of an update that leaves the order a draft: the order was one, and the requested
status is that of a draft, if there is one. -/
theorem update_status_draft {command : UpdateOrder} {before order : Order} {db₁ : Branch}
    (h : update_status lib context command draw db before = .ok (db₁, order))
    (hdraft : order.status = .DRAFT) :
    db₁ = db ∧ order = before ∧ ∀ status ∈ command.status,
      ensure_valid_order_transition lib.toText before.status status = .ok .DRAFT := by
  unfold update_status at h
  cases hstatus : command.status with
  | none =>
    simp only [hstatus] at h
    obtain ⟨rfl, rfl⟩ := Prod.mk.inj (pure_eq_ok.mp h)
    exact ⟨rfl, rfl, by simp⟩
  | some status =>
    simp only [hstatus] at h
    obtain ⟨requested, hrequested, h⟩ := bind_eq_ok.mp h
    split_ifs at h with hsubmitted haccepted
    · -- Submission and acceptance lead away from the draft.
      obtain ⟨_, -, h⟩ := bind_eq_ok.mp h
      obtain ⟨-, rfl⟩ := Prod.mk.inj (pure_eq_ok.mp h)
      rw [show requested = .DRAFT from hdraft] at hsubmitted
      cases hsubmitted
    · obtain ⟨db₂, -, h⟩ := bind_eq_ok.mp h
      obtain ⟨-, rfl⟩ := Prod.mk.inj (pure_eq_ok.mp h)
      rw [show requested = .DRAFT from hdraft] at haccepted
      cases haccepted.2
    · obtain ⟨rfl, rfl⟩ := Prod.mk.inj (pure_eq_ok.mp h)
      -- A draft is reached from a draft only.
      obtain rfl : requested = .DRAFT := hdraft
      have hbefore : before.status = .DRAFT := by
        rcases ensure_valid_order_transition_ok hrequested with heq | hmem
        · exact heq.symm
        · exact absurd hmem (draft_not_mem_transitions _)
      refine ⟨rfl, ?_, fun status' hmem => ?_⟩
      · cases before
        simp only at hbefore
        rw [hbefore]
      · rw [← Option.mem_some_iff.mp hmem]
        exact hrequested

/-- The status part of an update leaves the amounts and the key as they are. -/
theorem update_status_amounts {command : UpdateOrder} {before order : Order} {db₁ : Branch}
    (h : update_status lib context command draw db before = .ok (db₁, order)) :
    order.SameAmounts before ∧ order.order_id = before.order_id ∧ order.revision = before.revision := by
  unfold update_status at h
  cases hstatus : command.status with
  | none =>
    simp only [hstatus] at h
    obtain ⟨-, rfl⟩ := Prod.mk.inj (pure_eq_ok.mp h)
    exact ⟨⟨rfl, rfl, rfl⟩, rfl, rfl⟩
  | some status =>
    simp only [hstatus] at h
    obtain ⟨requested, -, h⟩ := bind_eq_ok.mp h
    split_ifs at h
    · obtain ⟨_, -, h⟩ := bind_eq_ok.mp h
      obtain ⟨-, rfl⟩ := Prod.mk.inj (pure_eq_ok.mp h)
      exact ⟨⟨rfl, rfl, rfl⟩, rfl, rfl⟩
    · obtain ⟨db₂, -, h⟩ := bind_eq_ok.mp h
      obtain ⟨-, rfl⟩ := Prod.mk.inj (pure_eq_ok.mp h)
      exact ⟨⟨rfl, rfl, rfl⟩, rfl, rfl⟩
    · obtain ⟨-, rfl⟩ := Prod.mk.inj (pure_eq_ok.mp h)
      exact ⟨⟨rfl, rfl, rfl⟩, rfl, rfl⟩

/-- A revised order has changed, had a positive revision, and differs from what was revised in the
revision alone. -/
theorem update_revision_cases {before order order' : Order}
    (h : update_revision before order = .ok order') :
    (order_state order = order_state before ∧ order' = order) ∨
      (1 ≤ order.revision ∧ order' = { order with revision := order.revision + 1 }) := by
  unfold update_revision at h
  split_ifs at h with hchanged
  · obtain ⟨revision, hrevision, h⟩ := bind_eq_ok.mp h
    obtain ⟨_, hpositive, hrevision⟩ := bind_eq_ok.mp hrevision
    obtain rfl := pure_eq_ok.mp hrevision
    exact Or.inr ⟨ensure_eq_ok.mp hpositive, (pure_eq_ok.mp h).symm⟩
  · exact Or.inl ⟨not_not.mp hchanged, (pure_eq_ok.mp h).symm⟩

/-- Announcing a status stores nothing that its column cannot hold. -/
theorem append_status_not_storage (db : Branch) (before after : Order) :
    Fails Failure.NotStorage (append_status db draw context before after) := by
  unfold append_status
  split_ifs
  · split
    · exact append_not_storage _ _ _ _ _
    · exact fails_pure _
  · exact fails_pure _

/-- The same order state is held by the same columns. -/
theorem columns_hold_of_order_state {order other : Order} (h : order_state order = order_state other)
    (hid : order.order_id = other.order_id) (hother : columns_hold other) : columns_hold order := by
  have hsubtotal : order.subtotal = other.subtotal := congrArg OrderState.subtotal h
  have hitems : order.items.map (·.toOrderLine) = other.items.map (·.toOrderLine) :=
    congrArg OrderState.items h
  obtain ⟨hkey, hsum, hlines⟩ := hother
  refine ⟨hid ▸ hkey, hsubtotal ▸ hsum, ?_⟩
  have hall : ∀ line ∈ order.items.map (·.toOrderLine),
      line.quantity ≤ MAX_INTEGER ∧ line.line_total ≤ MAX_MONEY := by
    rw [hitems]
    exact List.forall_mem_map.mpr hlines
  exact List.forall_mem_map.mp hall

end Orders

/-- A replacement of the items passes the checks of the service, and nothing is left to do but to store
the order. -/
structure ReplacementAccepted (lib : Library) (context : AccessContext) (order_id : ℕ)
    (command : UpdateOrder) (items : List OrderItemCommand) (db : Branch) (before : Order) :
    Prop where
  /-- The order is visible. -/
  order : get_order_or_error db context order_id = .ok before
  /-- The caller may update it. -/
  granted : authorize_order_update lib.toText context command.fields before.status command.status =
    .ok ()
  /-- It is a draft. -/
  draft : before.status = .DRAFT
  /-- It stays one. -/
  status : ∀ status ∈ command.status,
    ensure_valid_order_transition lib.toText before.status status = .ok .DRAFT
  /-- The payment status is valid. -/
  payment : ∃ payment_status, update_payment lib command before = .ok payment_status
  /-- The revision of the order is positive. -/
  revision : 1 ≤ before.revision
  /-- The items. -/
  items : ItemsAccepted db items

/-- The stages of an update up to the check of the columns, with what each of them returns. -/
structure UpdateStages (lib : Library) (context : AccessContext) (order_id : ℕ) (command : UpdateOrder)
    (draw : Draw) (db : Branch) (before order : Order) : Prop where
  /-- The order is visible. -/
  visible : get_order_or_error db context order_id = .ok before
  /-- The caller may update it. -/
  granted : authorize_order_update lib.toText context command.fields before.status command.status =
    .ok ()
  /-- The status, the details, the items and the revision are updated, each on what the stage before
  it has left. -/
  updated : ∃ db₁ order₁ order₂ db₂ order₃,
    update_status lib context command draw db before = .ok (db₁, order₁) ∧
      update_details lib command order₁ = .ok order₂ ∧
      update_items command db₁ order₂ = .ok (db₂, order₃) ∧ update_revision before order₃ = .ok order

/-- An update fails at the storage exactly if it reaches the check of the columns and they do not hold
the order. -/
theorem update_storage_error {order_id : ℕ} {command : UpdateOrder} :
    OrderService.update lib context order_id command draw db = .error .DatabaseError ↔
      ∃ before order, UpdateStages lib context order_id command draw db before order ∧
        ¬ columns_hold order := by
  have hne : ¬ Failure.NotStorage .DatabaseError := id
  constructor
  · intro h
    -- No stage before the check fails at the storage, so each of them has returned.
    obtain ⟨before, hbefore, h⟩ := (bind_eq_error (get_order_or_error_fails _) hne).mp h
    obtain ⟨_, hgranted, h⟩ := (bind_eq_error (authorize_order_update_fails _ _ _ _) hne).mp h
    obtain ⟨⟨db₁, order₁⟩, hstatus, h⟩ := (bind_eq_error (update_status_not_storage _ _) hne).mp h
    obtain ⟨order₂, hdetails, h⟩ := (bind_eq_error (update_details_fails _ _) hne).mp h
    obtain ⟨⟨db₂, order₃⟩, hitems, h⟩ := (bind_eq_error (update_items_fails _ _) hne).mp h
    obtain ⟨order₄, hrevision, h⟩ := (bind_eq_error (update_revision_fails _ _) hne).mp h
    refine ⟨before, order₄, ⟨hbefore, hgranted, db₁, order₁, order₂, db₂, order₃, hstatus, hdetails,
      hitems, hrevision⟩, fun hcolumns => ?_⟩
    -- Behind the check only the event of the status is appended, which no column refuses.
    rw [ensure_bind hcolumns] at h
    obtain ⟨db₃, -, h⟩ := (bind_eq_error (append_status_not_storage _ _ _) hne).mp h
    cases h
  · -- The order passes every stage, and the columns refuse it.
    rintro ⟨before, order, ⟨hvisible, hgranted, db₁, order₁, order₂, db₂, order₃, hstatus, hdetails,
      hitems, hrevision⟩, hcolumns⟩
    unfold OrderService.update
    rw [ok_bind hvisible, ok_bind hgranted, ok_bind hstatus]
    simp only
    rw [ok_bind hdetails, ok_bind hitems]
    simp only
    rw [ok_bind hrevision]
    exact ensure_bind_error hcolumns _

namespace UpdateStages

variable {order_id : ℕ} {command : UpdateOrder} {before order : Order}

/-- An update keeps the key of the order. It is found by its key, and no part of an update writes
that. -/
theorem order_id_eq (h : UpdateStages lib context order_id command draw db before order) :
    order.order_id = before.order_id := by
  obtain ⟨db₁, order₁, order₂, db₂, order₃, hstatus, hdetails, hitems, hrevision⟩ := h.updated
  obtain ⟨-, hid₁, -⟩ := update_status_amounts hstatus
  obtain ⟨hid₂, -⟩ := update_details_ok hdetails
  obtain ⟨-, hid₃, -⟩ := update_items_ok hitems
  have hid₄ : order.order_id = order₃.order_id := by
    rcases update_revision_cases hrevision with ⟨-, rfl⟩ | ⟨-, rfl⟩
    · rfl
    · rfl
  calc order.order_id = order₃.order_id := hid₄
    _ = order₂.order_id := hid₃
    _ = order₁.order_id := hid₂
    _ = before.order_id := hid₁

/-- An update without items leaves an order that the columns hold, if they hold the order before.
Without items the amounts are those of the order before, which the columns hold. -/
theorem columns_hold_of_items_none (h : UpdateStages lib context order_id command draw db before order)
    (hnone : command.items = none) (hheld : columns_hold before) : columns_hold order := by
  have hid := h.order_id_eq
  obtain ⟨db₁, order₁, order₂, db₂, order₃, hstatus, hdetails, hitems, hrevision⟩ := h.updated
  obtain ⟨hsame₁, -⟩ := update_status_amounts hstatus
  unfold update_items at hitems
  rw [hnone] at hitems
  obtain ⟨-, rfl⟩ := Prod.mk.inj (pure_eq_ok.mp hitems)
  have hsame : order.SameAmounts before := by
    have hsame₂ := hsame₁.trans (update_details_amounts hdetails)
    -- The revision has moved on or not, and it is no amount.
    rcases update_revision_cases hrevision with ⟨-, rfl⟩ | ⟨-, rfl⟩
    · exact hsame₂
    · exact ⟨hsame₂.items, hsame₂.subtotal, hsame₂.total⟩
  obtain ⟨hkey, hsum, hlines⟩ := hheld
  refine ⟨hid ▸ hkey, hsame.subtotal ▸ hsum, ?_⟩
  rwa [← hsame.items] at hlines

/-- A replacement of the items whose order the columns do not hold has passed the checks of the
service, if they hold the order before, and its amounts do not fit. -/
theorem replaced {items : List OrderItemCommand}
    (h : UpdateStages lib context order_id command draw db before order)
    (hsome : command.items = some items) (hheld : columns_hold before) (hnot : ¬ columns_hold order) :
    ReplacementAccepted lib context order_id command items db before ∧ ¬ AmountsFit db items := by
  have hid := h.order_id_eq
  obtain ⟨db₁, order₁, order₂, db₂, order₃, hstatus, hdetails, hitems, hrevision⟩ := h.updated
  obtain ⟨-, -, hstatus₂, -, hrevision₂, -⟩ := update_details_ok hdetails
  obtain ⟨-, hid₃, -, -, -, hrevision₃, -⟩ := update_items_ok hitems
  -- The order has changed, for the columns hold it as it was.
  obtain ⟨hpositive, rfl⟩ : 1 ≤ order₃.revision ∧
      order = { order₃ with revision := order₃.revision + 1 } := by
    rcases update_revision_cases hrevision with ⟨hstate, rfl⟩ | hrevised
    · exact absurd (columns_hold_of_order_state hstate hid hheld) hnot
    · exact hrevised
  unfold update_items at hitems
  rw [hsome] at hitems
  obtain ⟨_, hdraft, hitems⟩ := bind_eq_ok.mp hitems
  obtain ⟨⟨lines, subtotal⟩, hlines, hitems⟩ := bind_eq_ok.mp hitems
  obtain ⟨_, hstock, hitems⟩ := bind_eq_ok.mp hitems
  obtain ⟨-, rfl⟩ := Prod.mk.inj (pure_eq_ok.mp hitems)
  -- Only a draft takes items, and an update that leaves a draft has found one.
  have hdraft₁ : order₁.status = .DRAFT := hstatus₂ ▸ ensure_eq_ok.mp hdraft
  obtain ⟨rfl, rfl, hrequested⟩ := update_status_draft hstatus hdraft₁
  -- The parts of the update are read back as the conditions of an accepted replacement.
  obtain ⟨payment_status, hpayment, -⟩ := bind_eq_ok.mp hdetails
  obtain ⟨hfound, havailable, -⟩ := build_order_items_lines hlines
  rw [check_stock_lines hlines] at hstock
  have haccepted : ReplacementAccepted lib context order_id command items db₁ order₁ :=
    { order := h.visible
      granted := h.granted
      draft := hdraft₁
      status := hrequested
      payment := ⟨payment_status, hpayment⟩
      revision := hrevision₂ ▸ hpositive
      items := ⟨hfound, havailable, hstock⟩ }
  refine ⟨haccepted, fun hfit => hnot ?_⟩
  exact (columns_hold_iff hlines (hid ▸ hheld.1) (by rfl) (by rfl)).mpr hfit

end UpdateStages

namespace ReplacementAccepted

variable {order_id : ℕ} {command : UpdateOrder} {items : List OrderItemCommand} {before : Order}

/-- The status part of an accepted replacement changes nothing. Its status is the draft it
was, so no stock is consumed. -/
theorem update_status_eq (h : ReplacementAccepted lib context order_id command items db before) :
    update_status lib context command draw db before = .ok (db, before) := by
  unfold update_status
  cases hcommand : command.status with
  | none => rfl
  | some status =>
    simp only
    rw [ok_bind (h.status status hcommand)]
    simp only [reduceCtorEq, if_false, and_false]
    rw [← h.draft]
    rfl

/-- The revision part of an accepted replacement succeeds, and keeps the key and the amounts. -/
theorem exists_update_revision (order : Order)
    (h : ReplacementAccepted lib context order_id command items db before)
    (hrevision : order.revision = before.revision) :
    ∃ order', update_revision before order = .ok order' ∧ order'.items = order.items ∧
      order'.subtotal = order.subtotal := by
  unfold update_revision
  split_ifs
  · unfold next_order_revision
    rw [ensure_bind (show 1 ≤ order.revision by rw [hrevision]; exact h.revision)]
    exact ⟨_, rfl, rfl, rfl⟩
  · exact ⟨_, rfl, rfl, rfl⟩

/-- An accepted replacement reaches the check of the columns, and they hold its order exactly if the
amounts fit. -/
theorem exists_stages (h : ReplacementAccepted lib context order_id command items db before)
    (hsome : command.items = some items) (hheld : columns_hold before) :
    ∃ order, UpdateStages lib context order_id command draw db before order ∧
      (columns_hold order ↔ AmountsFit db items) := by
  obtain ⟨payment_status, hpayment⟩ := h.payment
  -- Each stage returns, so they are run one after the other.
  obtain ⟨order₂, hdetails⟩ : ∃ order₂, update_details lib command before = .ok order₂ :=
    ⟨_, bind_eq_ok.mpr ⟨payment_status, hpayment, rfl⟩⟩
  obtain ⟨-, -, hstatus₂, -, hrevision₂, -⟩ := update_details_ok hdetails
  obtain ⟨lines, subtotal, hlines⟩ := exists_build_order_items h.items.found h.items.available
  have hstock := (check_stock_lines hlines).trans h.items.stock
  -- The items part replaces the items of the draft and numbers them afresh.
  have hreplace : update_items command db order₂ =
      .ok ({ db with next_order_item_id := db.next_order_item_id + lines.length },
        { order₂ with
          items := number_items db.next_order_item_id lines
          subtotal := subtotal
          total := subtotal }) := by
    unfold update_items ensure_order_items_mutable
    rw [hsome]
    simp only
    rw [ensure_bind (hstatus₂.trans h.draft), ok_bind hlines]
    simp only
    rw [ok_bind hstock]
    rfl
  obtain ⟨order₄, hrevision, hitems₄, hsubtotal₄⟩ := h.exists_update_revision
    { order₂ with
      items := number_items db.next_order_item_id lines
      subtotal := subtotal
      total := subtotal } hrevision₂
  -- The stages of this update are the ones just computed.
  have hstages : UpdateStages lib context order_id command draw db before order₄ :=
    { visible := h.order
      granted := h.granted
      updated := ⟨db, before, order₂, _, _, h.update_status_eq, hdetails, hreplace, hrevision⟩ }
  have hkey : order₄.order_id ≤ MAX_INTEGER := hstages.order_id_eq ▸ hheld.1
  exact ⟨order₄, hstages, columns_hold_iff hlines hkey hitems₄ hsubtotal₄⟩

end ReplacementAccepted

/-- An update fails at the storage exactly if it is a replacement of the items that passes the checks
and whose amounts do not fit, where the columns hold the stored orders. -/
theorem update_overflows {order_id : ℕ} {command : UpdateOrder}
    (hstored : ∀ order ∈ db.orders, columns_hold order) :
    OrderService.update lib context order_id command draw db = .error .DatabaseError ↔
      ∃ items before, command.items = some items ∧
        ReplacementAccepted lib context order_id command items db before ∧ ¬ AmountsFit db items := by
  have hheld : ∀ before, get_order_or_error db context order_id = .ok before →
      columns_hold before := by
    intro before hbefore
    obtain ⟨-, hlookup⟩ := get_order_or_error_ok hbefore
    exact hstored before (Keyed.lookup_mem hlookup)
  rw [update_storage_error]
  constructor
  · rintro ⟨before, order, hstages, hnot⟩
    -- Without items the columns hold the order, so this case does not arise.
    cases hitems : command.items with
    | none => exact absurd (hstages.columns_hold_of_items_none hitems (hheld before hstages.visible)) hnot
    | some items =>
      obtain ⟨haccepted, hamounts⟩ := hstages.replaced hitems (hheld before hstages.visible) hnot
      exact ⟨items, before, rfl, haccepted, hamounts⟩
  · rintro ⟨items, before, hitems, haccepted, hamounts⟩
    obtain ⟨order, hstages, hcolumns⟩ := haccepted.exists_stages hitems (hheld before haccepted.order)
    exact ⟨before, order, hstages, fun hold => hamounts (hcolumns.mp hold)⟩

/-! ## What is stored -/

namespace Orders

/-- An order that its columns hold and whose amounts its events can carry. -/
structure Order.Storable (order : Order) : Prop where
  /-- The columns. -/
  columns : columns_hold order
  /-- The key is positive. -/
  key : 0 < order.order_id
  /-- The total is valid in an event. -/
  total : Payload.money_value order.total

/-- The sum of written lines is valid in an event, where the columns hold it. -/
theorem Written.money_value {order : Order} {lines : List OrderLine} (h : Written db order lines)
    (hprices : db.PricesValid) (hcolumns : columns_hold order) : Payload.money_value order.total := by
  have hlines : ∀ line ∈ lines, 0 ≤ line.line_total ∧ has_decimal_places 2 line.line_total := by
    intro line hline
    obtain ⟨item, hitem, -, -, hprice⟩ := h.priced line hline
    obtain ⟨hnonneg, -, hplaces⟩ := hprices item (Keyed.lookup_mem hitem)
    rw [h.multiplied line hline, hprice]
    exact ⟨by positivity, has_decimal_places_mul hplaces line.quantity⟩
  refine ⟨?_, ?_, ?_⟩
  · rw [h.total]
    exact List.sum_nonneg (List.forall_mem_map.mpr fun line hline => (hlines line hline).1)
  · have hsubtotal := hcolumns.2.1
    rwa [h.subtotal, ← h.total] at hsubtotal
  · rw [h.total]
    exact has_decimal_places_sum (List.forall_mem_map.mpr fun line hline => (hlines line hline).2)

end Orders

/-- Every command stores storable orders. A creation and a replacement have passed the check of the
columns, and every other command stores orders that were stored before. -/
theorem exec_storable {db' : Branch} {command : Command} {response : Response} (hsane : db.Sane)
    (hprices : db.PricesValid) (hnext : 0 < db.next_order_id)
    (hstored : ∀ order ∈ db.orders, order.Storable)
    (h : exec lib command draw db = .ok (db', response)) : ∀ order ∈ db'.orders, order.Storable := by
  have heffect := exec_effect hsane.keys hsane.range h
  cases hcommand : command.is_order with
  | false =>
    rw [heffect.orders_kept hcommand]
    exact hstored
  | true =>
    cases command with
    | create_order context command =>
      obtain ⟨⟨db₁, snapshot⟩, hcreate, h⟩ := bind_eq_ok.mp h
      obtain ⟨rfl, -⟩ := Prod.mk.inj (pure_eq_ok.mp h)
      rcases OrderService.create_items hcreate with rfl |
        ⟨created, lines, horders, hfresh, -, hwritten, hcolumns⟩
      · exact hstored
      · intro order horder
        rw [horders] at horder
        rcases List.mem_append.mp horder with horder | horder
        · exact hstored order horder
        · rw [List.mem_singleton.mp horder]
          -- The new order has been checked against the columns, and its total is a sum of valid
          -- prices.
          exact ⟨hcolumns, by omega, hwritten.money_value hprices hcolumns⟩
    | update_order context order_id command =>
      obtain ⟨⟨db₁, after⟩, hupdate, h⟩ := bind_eq_ok.mp h
      obtain ⟨rfl, -⟩ := Prod.mk.inj (pure_eq_ok.mp h)
      obtain ⟨before, hlookup, hcolumns, hamounts⟩ := OrderService.update_amounts hsane hupdate
      obtain ⟨before', -, -, -, hlookup', hupdated, -, -, -, -, -, horders, -⟩ :=
        OrderService.update_ok hsane.range hupdate
      obtain rfl := Option.some.inj (hlookup.symm.trans hlookup')
      have hbefore := hstored before (Keyed.lookup_mem hlookup)
      intro order horder
      rw [horders] at horder
      rcases Keyed.mem_put horder with ⟨horder, -⟩ | rfl
      · exact hstored order horder
      · refine ⟨hcolumns, hupdated.order_id ▸ hbefore.key, ?_⟩
        -- The total is the one before, or that of the items just written.
        rcases hamounts with hsame | ⟨-, -, lines, hwritten⟩
        · rw [hsame.total]
          exact hbefore.total
        · exact hwritten.money_value hprices hcolumns
    | delete_order context order_id =>
      obtain ⟨db₁, hdelete, h⟩ := bind_eq_ok.mp h
      obtain ⟨rfl, -⟩ := Prod.mk.inj (pure_eq_ok.mp h)
      obtain ⟨order, event, -, -, -, -, -, horders, -⟩ := OrderService.delete_ok hdelete
      rw [horders]
      -- A deletion stores nothing new.
      exact fun order horder => hstored order (List.mem_filter.mp horder).1
    | _ => cases hcommand

/-- The rows of a restaurant of the legacy database, with the constraints of its menu items and its
orders. -/
structure StorageBranch extends LegacyBranch where
  /-- The prices. -/
  prices : toBranch.PricesValid
  /-- The orders. -/
  orders_storable : ∀ order ∈ orders, order.Storable
  /-- The next key of an order is positive. -/
  next_order : 0 < next_order_id

/-- The small restaurant with an order is one. -/
instance : Nonempty StorageBranch := by
  refine ⟨⟨⟨Branch.small_served, Branch.small_served_legacy⟩, Branch.small_prices, fun order horder => ?_,
    Nat.two_pos⟩⟩
  rw [List.mem_singleton.mp horder]
  constructor <;>
    norm_num [columns_hold, Payload.money_value, MAX_INTEGER, MAX_MONEY, has_decimal_places]

/-- The rows of a restaurant after a run. -/
def storage_rows (lib : Library) (start : ℕ → StorageBranch) (acts : List Act) (k : ℕ) : Branch :=
  (run lib (fun k => (start k).toLegacyBranch) acts).rows k

/-- Every stored order of a reachable state is storable. Every total and every price fits the column
that holds it. -/
theorem run_storable (lib : Library) (start : ℕ → StorageBranch) (acts : List Act) (k : ℕ) :
    (storage_rows lib start acts k).PricesValid ∧ 0 < (storage_rows lib start acts k).next_order_id ∧
      ∀ order ∈ (storage_rows lib start acts k).orders, order.Storable := by
  induction acts using List.reverseRecOn with
  -- The starting restaurant is storable.
  | nil => exact ⟨(start k).prices, (start k).next_order, (start k).orders_storable⟩
  | append_singleton acts a ih =>
    obtain ⟨hprices, hnext, hstored⟩ := ih
    unfold storage_rows at hprices hnext hstored ⊢
    rcases run_step_exec lib (fun k => (start k).toLegacyBranch) acts a k with hsame |
      ⟨i, request, draw, value, response, -, -, -, -, hexec, hrows⟩
    · rw [hsame]
      exact ⟨hprices, hnext, hstored⟩
    · -- A commit executes one command on the current rows.
      rw [hrows]
      have hsane := run_sane lib (fun k => (start k).toLegacyBranch) acts k
      have hbook := run_order_book lib (fun k => (start k).toLegacyBranch) acts k
      have heffect := exec_effect hsane.keys hsane.range hexec
      exact ⟨exec_prices hsane hprices hexec,
        hnext.trans_le (heffect.order_keys hbook.unique hbook.below).2.1,
        exec_storable hsane hprices hnext hstored hexec⟩

/-- In every reachable state: the total of every stored order is valid in the events of its completion
and of its deletion; and a creation or an update does not fail at the storage exactly if, where it
passes the checks of the service and writes items, their amounts fit. -/
theorem order_amounts_fit_iff (lib : Library) (start : ℕ → StorageBranch) (acts : List Act) (k : ℕ) :
    (∀ order ∈ (storage_rows lib start acts k).orders,
      (Payload.order_completed order.order_id order.total order.created_at).valid ∧
      (Payload.order_deleted order.order_id order.status order.total order.created_at).valid) ∧
    (∀ context command draw,
      (storage_rows lib start acts k).next_order_id + draw.gap ≤ MAX_INTEGER →
      (OrderService.create lib context command draw (storage_rows lib start acts k) ≠
        .error .DatabaseError ↔
      (CreationAccepted lib context command (storage_rows lib start acts k) →
        AmountsFit (storage_rows lib start acts k) command.items))) ∧
    ∀ context order_id command draw,
      OrderService.update lib context order_id command draw (storage_rows lib start acts k) ≠
        .error .DatabaseError ↔
      ∀ items before, command.items = some items →
        ReplacementAccepted lib context order_id command items (storage_rows lib start acts k) before →
        AmountsFit (storage_rows lib start acts k) items := by
  obtain ⟨-, -, hstored⟩ := run_storable lib start acts k
  refine ⟨fun order horder => ?_, fun context command draw hkey => ?_,
    fun context order_id command draw => ?_⟩
  · -- The event carries the key and the total of the row.
    have hstorable := hstored order horder
    exact ⟨⟨hstorable.key, hstorable.total⟩, hstorable.key, hstorable.total⟩
  · -- A creation that does not fail has either not come so far or fits.
    rw [ne_eq, create_overflows hkey, not_and, not_not]
  · rw [ne_eq, update_overflows fun order horder => (hstored order horder).columns]
    constructor
    · intro hnone items before hitems haccepted
      by_contra hnot
      exact hnone ⟨items, before, hitems, haccepted, hnot⟩
    · rintro hfit ⟨items, before, hitems, haccepted, hnot⟩
      exact hnot (hfit items before hitems haccepted)

/-- The rows of a restaurant that offers one item, at the highest price that the catalog admits. -/
def dearest_rows : Branch :=
  { organization_id := 1, restaurant_id := 1, menus := [⟨1, "Cellar", none⟩],
    menu_items := [⟨1, 1, "Magnum", none, MAX_MENU_PRICE, true, false⟩], recipe_components := [],
    ingredients := [], orders := [], submissions := [], initialized := false, events := [],
    next_menu_id := 2, next_menu_item_id := 2, next_ingredient_id := 1, next_order_id := 1,
    next_order_item_id := 1, next_uuid := 1 }

/-- They meet the constraints of legacy rows. -/
theorem dearest_rows_legacy : dearest_rows.Legacy := by
  constructor <;> simp [dearest_rows, Keyed.Unique]

/-- The price is one that the catalog admits. -/
theorem dearest_rows_prices : dearest_rows.PricesValid := by
  intro item hitem
  rw [List.mem_singleton.mp hitem]
  exact ⟨by decide +kernel, le_rfl, by decide +kernel⟩

/-- There is no order yet. -/
theorem dearest_rows_orders : ∀ order ∈ dearest_rows.orders, order.Storable := by
  simp [dearest_rows]

/-- The keys of orders start at one. -/
theorem dearest_rows_next_order : 0 < dearest_rows.next_order_id := Nat.one_pos

/-- They are the rows of a restaurant whose orders the columns hold. -/
def dearest_branch : StorageBranch :=
  { dearest_rows with
    legacy := dearest_rows_legacy
    prices := dearest_rows_prices
    orders_storable := dearest_rows_orders
    next_order := dearest_rows_next_order }

/-- A creation of two portions of that item passes every check of the service and fails at the
storage. -/
theorem two_portions_overflow : ¬ ∀ (lib : Library) (start : ℕ → StorageBranch) (acts : List Act)
    (k : ℕ) (context : AccessContext) (command : CreateOrder) (draw : Draw),
    (storage_rows lib start acts k).next_order_id + draw.gap ≤ MAX_INTEGER →
    OrderService.create lib context command draw (storage_rows lib start acts k) ≠
      .error .DatabaseError := by
  intro hall
  have hcreate := hall ⟨⟨id, id, id⟩, fun _ => "", fun _ => ""⟩ (fun _ => dearest_branch) [] 1
    ⟨1, 1, .OWNER, []⟩ ⟨none, none, none, [⟨1, 2, none, by decide⟩], "key"⟩
    ⟨fun _ => 0, 0, "", 0⟩ (by decide)
  refine hcreate (create_overflows (by decide) |>.mpr ⟨⟨rfl, rfl, by decide +kernel, rfl, ?_⟩, ?_⟩)
  · exact ⟨by decide +kernel, by decide +kernel, by rfl⟩
  · intro hfit
    exact absurd hfit.sum (by decide +kernel)

end RestaurantOS
