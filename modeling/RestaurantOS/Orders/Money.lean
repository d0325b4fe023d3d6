import RestaurantOS.Catalog.Changes
import RestaurantOS.Orders.History

/-!
# The amounts of an order

The lines of an order are built from the menu items as they are in the transaction that writes them,
and the subtotal and the total are both the sum of the lines (`Order.Balanced`). Creation and the
replacement of the items are the only places that write lines (`ItemsStep`), and both write drafts, so
that an order which has left DRAFT keeps its items and its amounts, and the totals of its events are
those of its items. -/

namespace RestaurantOS

open Fallible Catalog Events Inventory Orders Tenancy

namespace Orders

/-- The total of a line is the price times the portions. -/
def OrderLine.Multiplied (line : OrderLine) : Prop :=
  line.line_total = line.unit_price * line.quantity

/-- A line carries the name and the price of a menu item of the restaurant. -/
def OrderLine.Priced (db : Branch) (line : OrderLine) : Prop :=
  ∃ item, menu_item db item.menu_item_id = some item ∧ line.menu_item_id = some item.menu_item_id ∧
    line.item_name = item.name ∧ line.unit_price = item.price

/-- The amounts of an order are those of its items. -/
structure Order.Balanced (order : Order) : Prop where
  /-- The items. -/
  items : ∀ item ∈ order.items, item.toOrderLine.Multiplied
  /-- The subtotal. -/
  subtotal : order.subtotal = (order.items.map (·.line_total)).sum
  /-- The total. -/
  total : order.total = (order.items.map (·.line_total)).sum

/-- An order has the items and the amounts of another. -/
structure Order.SameAmounts (order other : Order) : Prop where
  /-- The items. -/
  items : order.items = other.items
  /-- The subtotal. -/
  subtotal : order.subtotal = other.subtotal
  /-- The total. -/
  total : order.total = other.total

/-- The items and the amounts of an order are written from the menu items of the restaurant, under the
next keys of order items. -/
structure Written (db : Branch) (order : Order) (lines : List OrderLine) : Prop where
  /-- The items. -/
  items : order.items = number_items db.next_order_item_id lines
  /-- The lines carry the name and the price of a menu item. -/
  priced : ∀ line ∈ lines, line.Priced db
  /-- The lines are multiplied. -/
  multiplied : ∀ line ∈ lines, line.Multiplied
  /-- The subtotal. -/
  subtotal : order.subtotal = (lines.map (·.line_total)).sum
  /-- The total. -/
  total : order.total = (lines.map (·.line_total)).sum

/-- What a request does to the items and the amounts of an order: it keeps them, it writes those of a
draft, or it removes the order. -/
inductive ItemsStep (db : Branch) : Option Order → Option Order → Prop
  | gone (before : Option Order) : ItemsStep db before none
  | kept (before after : Order) (hsame : after.SameAmounts before) :
    ItemsStep db (some before) (some after)
  | written (before : Option Order) (after : Order) (hdraft : after.status = .DRAFT)
      (hbefore : ∀ order ∈ before, order.status = .DRAFT) (lines : List OrderLine)
      (hwritten : Written db after lines) :
    ItemsStep db before (some after)

/-- The lines of numbered items. -/
theorem map_number_items (first : ℕ) (lines : List OrderLine) :
    (number_items first lines).map (·.toOrderLine) = lines := by
  unfold number_items
  rw [List.map_map]
  conv_rhs => rw [← List.zipIdx_map_fst first lines]
  rfl

/-- The line of a numbered item. -/
theorem mem_number_items {first : ℕ} {lines : List OrderLine} {item : OrderItem}
    (h : item ∈ number_items first lines) : item.toOrderLine ∈ lines := by
  rw [← map_number_items first lines]
  exact List.mem_map_of_mem h

/-- A written order is balanced. The total is the sum of its lines, and each line its price times
its quantity. -/
theorem Written.balanced {db : Branch} {order : Order} {lines : List OrderLine}
    (h : Written db order lines) : order.Balanced := by
  have hsum : order.items.map (·.line_total) = lines.map (·.line_total) := by
    rw [h.items]
    conv_rhs => rw [← map_number_items db.next_order_item_id lines, List.map_map]
    rfl
  refine ⟨fun item hitem => ?_, ?_, ?_⟩
  · rw [h.items] at hitem
    exact h.multiplied _ (mem_number_items hitem)
  · rw [hsum, h.subtotal]
  · rw [hsum, h.total]

/-- An order with the amounts of a balanced one. -/
theorem Order.SameAmounts.balanced {order other : Order} (h : order.SameAmounts other)
    (hother : other.Balanced) : order.Balanced := by
  refine ⟨?_, ?_, ?_⟩
  · rw [h.items]
    exact hother.items
  · rw [h.subtotal, h.items, hother.subtotal]
  · rw [h.total, h.items, hother.total]

/-! ## The lines of a request -/

variable {db db' : Branch} {context : AccessContext} {draw : Draw}

/-- The line of one item of a command. The price is the one of the item in this transaction. -/
theorem order_line_ok {command : OrderItemCommand} {line : OrderLine}
    (h : order_line db command = .ok line) : line.Priced db ∧ line.Multiplied := by
  unfold order_line at h
  cases hitem : menu_item db command.menu_item_id with
  | none => simp [hitem] at h
  | some item =>
    simp only [hitem] at h
    rw [← pure_eq_ok.mp h]
    have hkey : item.menu_item_id = command.menu_item_id := Keyed.lookup_key hitem
    exact ⟨⟨item, hkey ▸ hitem, rfl, rfl, rfl⟩, rfl⟩

/-- The lines of a request are priced and multiplied, and the subtotal is their sum. -/
theorem build_order_items_ok {commands : List OrderItemCommand} {lines : List OrderLine}
    {subtotal : ℚ} (h : build_order_items db commands = .ok (lines, subtotal)) :
    (∀ line ∈ lines, line.Priced db ∧ line.Multiplied) ∧
      subtotal = (lines.map (·.line_total)).sum := by
  obtain ⟨_, -, h⟩ := bind_eq_ok.mp h
  obtain ⟨_, -, h⟩ := bind_eq_ok.mp h
  obtain ⟨lines', hlines, h⟩ := bind_eq_ok.mp h
  obtain ⟨rfl, rfl⟩ := Prod.mk.inj (pure_eq_ok.mp h)
  refine ⟨fun line hline => ?_, rfl⟩
  obtain ⟨command, -, hcommand⟩ := exists_of_mem_right (mapM_eq_ok.mp hlines) hline
  exact order_line_ok hcommand

/-- The items part of an update writes the items of a draft, or leaves the amounts as they are. -/
theorem update_items_amounts {command : UpdateOrder} {order order' : Order}
    (h : update_items command db order = .ok (db', order')) :
    order'.SameAmounts order ∨ (order.status = .DRAFT ∧ ∃ lines, Written db order' lines) := by
  unfold update_items at h
  cases hitems : command.items with
  | none =>
    simp only [hitems] at h
    obtain ⟨-, rfl⟩ := Prod.mk.inj (pure_eq_ok.mp h)
    exact Or.inl ⟨rfl, rfl, rfl⟩
  -- The items are replaced only while the order is a draft, and then the amounts are their sum.
  | some items =>
    simp only [hitems] at h
    obtain ⟨_, hdraft, h⟩ := bind_eq_ok.mp h
    obtain ⟨⟨lines, subtotal⟩, hlines, h⟩ := bind_eq_ok.mp h
    obtain ⟨_, -, h⟩ := bind_eq_ok.mp h
    obtain ⟨-, rfl⟩ := Prod.mk.inj (pure_eq_ok.mp h)
    obtain ⟨hpriced, hsum⟩ := build_order_items_ok hlines
    exact Or.inr ⟨ensure_eq_ok.mp hdraft, lines, rfl, fun line hline => (hpriced line hline).1,
      fun line hline => (hpriced line hline).2, hsum, hsum⟩

/-- The part of an update between the status and the items leaves the amounts as they are. -/
theorem update_details_amounts {lib : Library} {command : UpdateOrder} {order order' : Order}
    (h : update_details lib command order = .ok order') : order'.SameAmounts order := by
  obtain ⟨_, -, h⟩ := bind_eq_ok.mp h
  rw [← pure_eq_ok.mp h]
  exact ⟨rfl, rfl, rfl⟩

/-- No transition leads back to a draft. -/
theorem draft_not_mem_transitions (status : OrderStatus) : .DRAFT ∉ ORDER_TRANSITIONS status := by
  cases status <;> decide

/-- Only a completion announces a completed order, with its total. -/
theorem completed_payload_total {order : Order} {order_id : ℕ} {total : ℚ} {created_at : Timestamp}
    (h : status_payload order = some (.order_completed order_id total created_at)) :
    order.status = .COMPLETED ∧ order.total = total := by
  unfold status_payload at h
  cases hstatus : order.status with
  | COMPLETED =>
    simp only [hstatus] at h
    exact ⟨rfl, (Payload.order_completed.inj (Option.some.inj h)).2.1⟩
  | _ => simp [hstatus] at h

/-- No status announces a deleted order. -/
theorem status_payload_not_deleted {order : Order} {order_id : ℕ} {status : OrderStatus} {total : ℚ}
    {created_at : Timestamp} :
    status_payload order ≠ some (.order_deleted order_id status total created_at) := by
  unfold status_payload
  cases order.status <;> simp

/-- The same amounts, one after the other. -/
theorem Order.SameAmounts.trans {order₁ order₂ order₃ : Order} (h₁ : order₂.SameAmounts order₁)
    (h₂ : order₃.SameAmounts order₂) : order₃.SameAmounts order₁ :=
  ⟨h₂.1.trans h₁.1, h₂.2.trans h₁.2, h₂.3.trans h₁.3⟩

/-- An order with the amounts of a written one is written. -/
theorem Written.of_same {order other : Order} {lines : List OrderLine}
    (h : Written db other lines) (hsame : order.SameAmounts other) : Written db order lines :=
  ⟨hsame.items.trans h.items, h.priced, h.multiplied, hsame.subtotal.trans h.subtotal,
    hsame.total.trans h.total⟩

/-- What is written depends on the menu items and the key of the next order item alone. -/
theorem Written.of_menu_items {order : Order} {lines : List OrderLine} {db₁ : Branch}
    (h : Written db₁ order lines) (hitems : db₁.menu_items = db.menu_items)
    (hnext : db₁.next_order_item_id = db.next_order_item_id) : Written db order lines := by
  refine ⟨?_, fun line hline => ?_, h.multiplied, h.subtotal, h.total⟩
  · rw [h.items, hnext]
  · obtain ⟨item, hitem, hpriced⟩ := h.priced line hline
    unfold menu_item at hitem
    rw [hitems] at hitem
    exact ⟨item, hitem, hpriced⟩

end Orders

variable {db db' : Branch} {context : AccessContext} {draw : Draw}

/-! ## The order service -/

namespace OrderService

/-- Creating an order writes the items of a draft. Or it is a replay, and nothing is written. -/
theorem create_items {lib : Library} {command : CreateOrder} {snapshot : OrderSnapshot}
    (h : create lib context command draw db = .ok (db', snapshot)) :
    db' = db ∨ ∃ order lines, db'.orders = db.orders ++ [order] ∧ db.next_order_id ≤ order.order_id ∧
      order.status = .DRAFT ∧ Written db order lines ∧ columns_hold order := by
  obtain ⟨_, -, h⟩ := bind_eq_ok.mp h
  obtain ⟨_, -, h⟩ := bind_eq_ok.mp h
  obtain ⟨_, -, h⟩ := bind_eq_ok.mp h
  -- A replayed submission returns the stored order and writes nothing.
  cases hreplay : submission db command.idempotency_key with
  | some found =>
    simp only [hreplay] at h
    obtain ⟨_, -, h⟩ := bind_eq_ok.mp h
    obtain ⟨rfl, -⟩ := Prod.mk.inj (pure_eq_ok.mp h)
    exact Or.inl rfl
  | none =>
    simp only [hreplay] at h
    obtain ⟨⟨lines, subtotal⟩, hlines, h⟩ := bind_eq_ok.mp h
    obtain ⟨_, -, h⟩ := bind_eq_ok.mp h
    obtain ⟨_, hcolumns, h⟩ := bind_eq_ok.mp h
    -- A new order is written with the lines that were priced in this transaction.
    obtain ⟨rfl, -⟩ := Prod.mk.inj (pure_eq_ok.mp h)
    obtain ⟨hpriced, hsum⟩ := build_order_items_ok hlines
    exact Or.inr ⟨_, lines, rfl, Nat.le_add_right _ _, rfl, ⟨rfl,
      fun line hline => (hpriced line hline).1, fun line hline => (hpriced line hline).2, hsum, hsum⟩,
      ensure_eq_ok.mp hcolumns⟩

/-- Updating an order writes the items of a draft, or leaves the amounts as they are. The four parts
of the update are followed in order, and only the items part touches the amounts. -/
theorem update_amounts {lib : Library} {order_id : ℕ} {command : UpdateOrder} {after : Order}
    (hsane : db.Sane) (h : update lib context order_id command draw db = .ok (db', after)) :
    ∃ before, Keyed.lookup Order.order_id order_id db.orders = some before ∧ columns_hold after ∧
      (after.SameAmounts before ∨ (after.status = .DRAFT ∧ before.status = .DRAFT ∧
        ∃ lines, Written db after lines)) := by
  obtain ⟨before, db₁, order₁, order₂, db₂, order₃, hbefore, -, hstatus, hdetails, hitems, hrevision,
    hcolumns, -⟩ := update_parts h
  obtain ⟨horganization, hlookup⟩ := get_order_or_error_ok hbefore
  obtain ⟨hpath, hcase⟩ := update_status_ok horganization hsane.range hstatus
  obtain ⟨-, -, -, hstatus₃, -⟩ := update_items_ok hitems
  obtain ⟨-, -, hstatus₂, -⟩ := update_details_ok hdetails
  -- Neither the status part nor the details touch the amounts.
  have hsame₁ : order₁.SameAmounts before := by
    rcases hcase with ⟨-, -, horder, -⟩ | ⟨-, horder, -⟩
    · rw [horder]
      exact ⟨rfl, rfl, rfl⟩
    · rw [horder]
      exact ⟨rfl, rfl, rfl⟩
  -- The last part moves the revision only.
  have hrevised : after.SameAmounts order₃ ∧ after.status = order₃.status := by
    rcases update_revision_ok hrevision with ⟨-, rfl⟩ | ⟨-, rfl⟩
    · exact ⟨⟨rfl, rfl, rfl⟩, rfl⟩
    · exact ⟨⟨rfl, rfl, rfl⟩, rfl⟩
  refine ⟨before, hlookup, hcolumns, ?_⟩
  -- The items part is skipped, or it has written the items of a draft.
  rcases update_items_amounts hitems with hsame | ⟨hdraft, lines, hwritten⟩
  · exact Or.inl (((hsame₁.trans (update_details_amounts hdetails)).trans hsame).trans hrevised.1)
  · have hdraft₁ : order₁.status = .DRAFT := hstatus₂ ▸ hdraft
    -- Only a draft is a draft after the status part.
    have hbefore_draft : before.status = .DRAFT := by
      rcases hpath with heq | hmem
      · exact heq ▸ hdraft₁
      · rw [hdraft₁] at hmem
        exact absurd hmem (draft_not_mem_transitions _)
    -- The prices used are those the request has read: acceptance leaves the menu alone.
    have hrows : db₁.menu_items = db.menu_items ∧
        db₁.next_order_item_id = db.next_order_item_id := by
      rcases hcase with ⟨-, -, -, ws, hwrites, -⟩ | ⟨-, -, rfl⟩
      · exact ⟨hwrites.frame.menu_items, hwrites.frame.next_order_item_id⟩
      · exact ⟨rfl, rfl⟩
    refine Or.inr ⟨?_, hbefore_draft, lines,
      (hwritten.of_menu_items hrows.1 hrows.2).of_same hrevised.1⟩
    rw [hrevised.2, hstatus₃, hdraft]

end OrderService

/-- A command that is not of the order service leaves the orders as they are. -/
theorem Effect.orders_kept {command : Command} (h : Effect db command db')
    (hcommand : command.is_order = false) : db'.orders = db.orders := by
  cases h with
  | replayed => rfl
  | stock _ ws hwrites hdirect => exact hwrites.frame.orders
  | initialized _ hfresh ws hwrites => exact hwrites.frame.orders
  | catalog _ events hrest hevents horders => exact horders
  | order_created hc => rw [hc] at hcommand; cases hcommand
  | order_updated hc => rw [hc] at hcommand; cases hcommand
  | order_deleted hc => rw [hc] at hcommand; cases hcommand

/-- A command that returns does to the amounts of every order what `ItemsStep` says. -/
theorem exec_items {lib : Library} {command : Command} {response : Response} (hsane : db.Sane)
    (hbelow : ∀ order ∈ db.orders, order.order_id < db.next_order_id)
    (h : exec lib command draw db = .ok (db', response)) (id : ℕ) :
    ItemsStep db (Keyed.lookup Order.order_id id db.orders)
      (Keyed.lookup Order.order_id id db'.orders) := by
  -- An order that the command does not concern is kept as it is.
  have hkept : ∀ order : Option Order, ItemsStep db order order := by
    intro order
    cases order with
    | none => exact .gone none
    | some order => exact .kept order order ⟨rfl, rfl, rfl⟩
  have heffect := exec_effect hsane.keys hsane.range h
  -- Commands of the other services leave the orders alone.
  cases hcommand : command.is_order with
  | false =>
    rw [heffect.orders_kept hcommand]
    exact hkept _
  | true =>
    cases command with
    -- A new order has a fresh key, so no other order is affected.
    | create_order context command =>
      obtain ⟨⟨db₁, snapshot⟩, hcreate, h⟩ := bind_eq_ok.mp h
      obtain ⟨rfl, -⟩ := Prod.mk.inj (pure_eq_ok.mp h)
      rcases OrderService.create_items hcreate with rfl |
        ⟨order, lines, horders, hfresh, hdraft, hwritten, -⟩
      · exact hkept _
      · rw [horders, Keyed.lookup_append]
        by_cases hid : order.order_id = id
        · have hnone : Keyed.lookup Order.order_id id db.orders = none := by
            refine Keyed.lookup_eq_none.mpr fun other hother => ?_
            have := hbelow other hother
            omega
          rw [hnone, if_pos hid, Option.none_or]
          exact .written none order hdraft (by simp) lines hwritten
        · rw [if_neg hid, Option.or_none]
          exact hkept _
    -- The update writes the order under its own key.
    | update_order context order_id command =>
      obtain ⟨⟨db₁, after⟩, hupdate, h⟩ := bind_eq_ok.mp h
      obtain ⟨rfl, -⟩ := Prod.mk.inj (pure_eq_ok.mp h)
      obtain ⟨before, hlookup, -, hamounts⟩ := OrderService.update_amounts hsane hupdate
      obtain ⟨before', -, -, -, hlookup', hupdated, -, -, -, -, -, horders, -⟩ :=
        OrderService.update_ok hsane.range hupdate
      obtain rfl := Option.some.inj (hlookup.symm.trans hlookup')
      have hkey : after.order_id = order_id :=
        hupdated.order_id.trans (Keyed.lookup_key hlookup)
      rw [horders]
      by_cases hid : id = after.order_id
      · rw [hid, Keyed.lookup_put_self (hkey ▸ hlookup), hkey, hlookup]
        rcases hamounts with hsame | ⟨hafter, hbefore, lines, hwritten⟩
        · exact .kept before after hsame
        · exact .written (some before) after hafter (by simpa using hbefore) lines hwritten
      · rw [Keyed.lookup_put_ne hid]
        exact hkept _
    -- A deletion removes the order under its key.
    | delete_order context order_id =>
      obtain ⟨db₁, hdelete, h⟩ := bind_eq_ok.mp h
      obtain ⟨rfl, -⟩ := Prod.mk.inj (pure_eq_ok.mp h)
      obtain ⟨order, event, -, -, -, -, -, horders, -⟩ := OrderService.delete_ok hdelete
      rw [horders]
      by_cases hid : id = order_id
      · rw [hid, Keyed.lookup_remove_self]
        exact .gone _
      · rw [Keyed.lookup_remove_ne hid]
        exact hkept _
    | _ => cases hcommand

/-! ## Runs -/

/-- The rows of a restaurant of the legacy database, with balanced orders. -/
structure MoneyBranch extends LegacyBranch where
  /-- The amounts of the orders are those of their items. -/
  balanced : ∀ order ∈ orders, order.Balanced

/-- The small restaurant with an order is one. -/
instance : Nonempty MoneyBranch := by
  refine ⟨⟨⟨Branch.small_served, Branch.small_served_legacy⟩, fun order horder => ?_⟩⟩
  rw [List.mem_singleton.mp horder]
  constructor <;> norm_num [OrderLine.Multiplied]

variable (lib : Library) (start : ℕ → MoneyBranch)

/-- The rows of a restaurant after a run. -/
def money_rows (acts : List Act) (k : ℕ) : Branch :=
  (run lib (fun k => (start k).toLegacyBranch) acts).rows k

/-- The order of a key after a run. -/
def order_at (acts : List Act) (k id : ℕ) : Option Order :=
  Keyed.lookup Order.order_id id (money_rows lib start acts k).orders

/-- A step of the run has written the items and the amounts of an order, from the menu items as they
were in its transaction. -/
def WrittenIn (acts : List Act) (k id : ℕ) (order : Order) : Prop :=
  ∃ pre a post written lines, acts = pre ++ a :: post ∧
    order_at lib start (pre ++ [a]) k id = some written ∧ order.SameAmounts written ∧
    Written (money_rows lib start pre k) order lines

/-- A step of a run does to the amounts of an order what `ItemsStep` says. -/
theorem run_items_step (acts : List Act) (a : Act) (k id : ℕ) :
    ItemsStep (money_rows lib start acts k) (order_at lib start acts k id)
      (order_at lib start (acts ++ [a]) k id) := by
  unfold order_at money_rows
  rcases run_step_exec lib (fun k => (start k).toLegacyBranch) acts a k with hsame |
    ⟨i, request, draw, value, response, -, -, -, -, hexec, hrows⟩
  · rw [hsame]
    cases Keyed.lookup Order.order_id id _ with
    | none => exact .gone none
    | some order => exact .kept order order ⟨rfl, rfl, rfl⟩
  · rw [hrows]
    exact exec_items (run_sane lib _ acts k) (run_order_book lib _ acts k).below hexec id

variable {lib start}

/-- What is written in a run is written in a longer one. -/
theorem WrittenIn.later {acts : List Act} {k id : ℕ} {order order' : Order}
    (h : WrittenIn lib start acts k id order) (hsame : order'.SameAmounts order) (a : Act) :
    WrittenIn lib start (acts ++ [a]) k id order' := by
  obtain ⟨pre, a', post, written, lines, rfl, hlookup, hwritten, hlines⟩ := h
  exact ⟨pre, a', post ++ [a], written, lines, by simp, hlookup, hwritten.trans hsame,
    hlines.of_same hsame⟩

variable (lib start)

/-- In every reachable state an order is balanced, and its items and amounts are those it had at the
start, or a step of the run has written them. The induction is on the run, and provenance is carried
to the next state by the amounts the order keeps. -/
theorem run_balanced (acts : List Act) (k id : ℕ) (order : Order)
    (horder : order_at lib start acts k id = some order) :
    order.Balanced ∧ ((∃ old, order_at lib start [] k id = some old ∧ order.SameAmounts old) ∨
      WrittenIn lib start acts k id order) := by
  induction acts using List.reverseRecOn generalizing order with
  | nil =>
    exact ⟨(start k).balanced order (Keyed.lookup_mem horder), Or.inl ⟨order, horder, rfl, rfl, rfl⟩⟩
  | append_singleton acts a ih =>
    have hstep := run_items_step lib start acts a k id
    rw [horder] at hstep
    generalize hbefore : order_at lib start acts k id = before at hstep
    cases hstep with
    -- A kept order has the amounts, and hence the provenance, that it had before.
    | kept before _ hsame =>
      obtain ⟨hbalanced, hold | hwritten⟩ := ih before hbefore
      · obtain ⟨old, hlookup, hamounts⟩ := hold
        exact ⟨hsame.balanced hbalanced, Or.inl ⟨old, hlookup, hamounts.trans hsame⟩⟩
      · exact ⟨hsame.balanced hbalanced, Or.inr (hwritten.later hsame a)⟩
    -- The last step has written the amounts itself.
    | written _ _ hdraft hother lines hwritten =>
      exact ⟨hwritten.balanced, Or.inr ⟨acts, a, [], order, lines, rfl, horder, ⟨rfl, rfl, rfl⟩,
        hwritten⟩⟩

/-- An order that has left DRAFT keeps its items and its amounts for good. -/
theorem run_amounts_frozen (acts later : List Act) (k id : ℕ) (order : Order)
    (horder : order_at lib start acts k id = some order) (hstatus : order.status ≠ .DRAFT) :
    ∀ order' ∈ order_at lib start (acts ++ later) k id,
      order'.SameAmounts order ∧ order'.status ≠ .DRAFT := by
  induction later using List.reverseRecOn with
  | nil =>
    rw [List.append_nil, horder]
    intro order' heq
    rw [← Option.mem_some_iff.mp heq]
    exact ⟨⟨rfl, rfl, rfl⟩, hstatus⟩
  | append_singleton later a ih =>
    -- Every step is either an update that keeps the amounts or one that writes a draft.
    intro after hafter
    rw [← List.append_assoc] at hafter
    have hstep := run_items_step lib start (acts ++ later) a k id
    obtain ⟨events, -, hstatuses⟩ :=
      run_order_step lib (fun k => (start k).toLegacyBranch) (acts ++ later) a k id
    change OrderStep (order_at lib start (acts ++ later) k id)
      (order_at lib start (acts ++ later ++ [a]) k id) events at hstatuses
    rw [Option.mem_def.mp hafter] at hstep hstatuses
    cases hbefore : order_at lib start (acts ++ later) k id with
    | none =>
      -- An order that is gone does not come back.
      have hsome : order_at lib start acts k id ≠ none := by
        rw [horder]
        exact Option.some_ne_none order
      have hgone := (@run_order_gone lib (fun k => (start k).toLegacyBranch) k id acts
        (acts ++ later) a (List.prefix_append acts later) hsome hbefore).1
      exact absurd (hgone.symm.trans hafter) (Option.some_ne_none after).symm
    | some before =>
      obtain ⟨hsame, hdraft⟩ := ih before hbefore
      rw [hbefore] at hstep hstatuses
      cases hstep with
      | kept _ _ hkept =>
        refine ⟨hsame.trans hkept, fun hafter => ?_⟩
        -- An order that is no draft does not become one again.
        cases hstatuses with
        | updated _ _ hupdated =>
          rcases hupdated.status with heq | hmem
          · exact hdraft (heq ▸ hafter)
          · rw [hafter] at hmem
            exact draft_not_mem_transitions _ hmem
      -- Items are written for a draft only, and by the induction hypothesis the order is none.
      | written _ _ _ hbefore => exact absurd (hbefore before rfl) hdraft

/-- The events about an order after a run. -/
def order_events_at (acts : List Act) (k id : ℕ) : List (EventEnvelope Payload) :=
  (money_rows lib start acts k).order_events id

/-- Nothing has been announced about an order that a step creates. -/
theorem run_created_silent (acts : List Act) (a : Act) (k id : ℕ)
    (hnone : order_at lib start acts k id = none)
    (hsome : order_at lib start (acts ++ [a]) k id ≠ none) :
    order_events_at lib start acts k id = [] := by
  have hbook := run_order_book lib (fun k => (start k).toLegacyBranch) acts k
  -- The order has appeared in this step, so its key is fresh, and fresh keys have no events.
  rcases run_step lib (fun k => (start k).toLegacyBranch) acts a k with hsame | ⟨command, heffect⟩
  · refine absurd ?_ hsome
    unfold order_at money_rows at hnone ⊢
    rw [hsame, hnone]
  · obtain ⟨order, horder⟩ := Option.ne_none_iff_exists'.mp hsome
    obtain ⟨-, -, hkeys⟩ := heffect.order_keys hbook.unique hbook.below
    obtain rfl : order.order_id = id := Keyed.lookup_key horder
    rcases (hkeys order (Keyed.lookup_mem horder)).2 with ⟨other, hother, hkey⟩ | hfresh
    · exact absurd hkey (Keyed.lookup_eq_none.mp hnone other hother)
    · exact hbook.silent order.order_id hfresh

/-- The completion of an order announces the total of its items, for good. -/
theorem run_completed_total (acts : List Act) (k id : ℕ) :
    ∀ event ∈ order_events_at lib start acts k id, ∀ order_id total created_at,
      event.payload = .order_completed order_id total created_at →
      ∀ order ∈ order_at lib start acts k id, order.status ≠ .DRAFT ∧ order.total = total := by
  induction acts using List.reverseRecOn with
  | nil =>
    intro event hevent
    unfold order_events_at money_rows Branch.order_events at hevent
    rw [show (run lib (fun k => (start k).toLegacyBranch) []).rows k = (start k).toBranch from rfl,
      (start k).legacy.events, about_nil] at hevent
    exact absurd hevent List.not_mem_nil
  | append_singleton acts a ih =>
    intro event hevent order_id total created_at hpayload after hafter
    obtain ⟨events, hevents, hstatuses⟩ :=
      run_order_step lib (fun k => (start k).toLegacyBranch) acts a k id
    change order_events_at lib start (acts ++ [a]) k id =
      order_events_at lib start acts k id ++ events at hevents
    change OrderStep (order_at lib start acts k id) (order_at lib start (acts ++ [a]) k id) events
      at hstatuses
    rw [hevents] at hevent
    -- The completion was announced before this step, or in it.
    rcases List.mem_append.mp hevent with hold | hnew
    · cases hbefore : order_at lib start acts k id with
      | none =>
        -- An order that has just appeared has no earlier event.
        have hsilent := run_created_silent lib start acts a k id hbefore
          (by rw [Option.mem_def.mp hafter]; exact Option.some_ne_none after)
        rw [hsilent] at hold
        exact absurd hold List.not_mem_nil
      | some before =>
        obtain ⟨hstatus, htotal⟩ := ih event hold order_id total created_at hpayload before hbefore
        -- After its completion the order is frozen.
        obtain ⟨hsame, hstatus'⟩ :=
          run_amounts_frozen lib start acts [a] k id before hbefore hstatus after hafter
        exact ⟨hstatus', hsame.total.trans htotal⟩
    · rw [Option.mem_def.mp hafter] at hstatuses
      generalize order_at lib start acts k id = before at hstatuses
      cases hstatuses with
      | created => exact absurd hnew List.not_mem_nil
      -- The event of this step carries the total that the order has now.
      | updated before _ hupdated _ hstatus_events =>
        have hmem : event.payload ∈ events.map (·.payload) := List.mem_map_of_mem hnew
        rw [hstatus_events.payloads, hpayload] at hmem
        split_ifs at hmem
        · obtain ⟨hcompleted, htotal⟩ := completed_payload_total (Option.mem_toList.mp hmem)
          exact ⟨by rw [hcompleted]; decide, htotal⟩
        · exact absurd hmem List.not_mem_nil

/-- The deletion of an order announces the total of the items that it removes. The order that the
deletion removes is the one found just before the step. -/
theorem run_deleted_total (acts : List Act) (k id : ℕ) :
    ∀ event ∈ order_events_at lib start acts k id, ∀ order_id status total created_at,
      event.payload = .order_deleted order_id status total created_at →
      ∃ pre a post order, acts = pre ++ a :: post ∧ order_at lib start pre k id = some order ∧
        order_at lib start (pre ++ [a]) k id = none ∧ order.total = total := by
  induction acts using List.reverseRecOn with
  | nil =>
    intro event hevent
    unfold order_events_at money_rows Branch.order_events at hevent
    rw [show (run lib (fun k => (start k).toLegacyBranch) []).rows k = (start k).toBranch from rfl,
      (start k).legacy.events, about_nil] at hevent
    exact absurd hevent List.not_mem_nil
  -- The deletion was announced before this step, or in it.
  | append_singleton acts a ih =>
    intro event hevent order_id status total created_at hpayload
    obtain ⟨events, hevents, hstatuses⟩ :=
      run_order_step lib (fun k => (start k).toLegacyBranch) acts a k id
    change order_events_at lib start (acts ++ [a]) k id =
      order_events_at lib start acts k id ++ events at hevents
    change OrderStep (order_at lib start acts k id) (order_at lib start (acts ++ [a]) k id) events
      at hstatuses
    rw [hevents] at hevent
    rcases List.mem_append.mp hevent with hold | hnew
    · obtain ⟨pre, a', post, order, rfl, hrest⟩ :=
        ih event hold order_id status total created_at hpayload
      exact ⟨pre, a', post ++ [a], order, by simp, hrest⟩
    · generalize hbefore : order_at lib start acts k id = before at hstatuses
      generalize hafter : order_at lib start (acts ++ [a]) k id = after at hstatuses
      cases hstatuses with
      | absent => exact absurd hnew List.not_mem_nil
      | created => exact absurd hnew List.not_mem_nil
      -- An update announces statuses only.
      | updated before after hupdated _ hstatus_events =>
        have hmem : event.payload ∈ events.map (·.payload) := List.mem_map_of_mem hnew
        rw [hstatus_events.payloads, hpayload] at hmem
        split_ifs at hmem
        · exact absurd (Option.mem_toList.mp hmem) status_payload_not_deleted
        · exact absurd hmem List.not_mem_nil
      -- The row that the deletion removes gives the total of its event.
      | deleted order _ hdeleted hrevision =>
        rw [List.mem_singleton.mp hnew, hdeleted] at hpayload
        obtain ⟨-, -, htotal, -⟩ := Payload.order_deleted.inj hpayload
        exact ⟨acts, a, [], order, rfl, hbefore, hafter, htotal⟩

/-- In every run: an order is balanced in every reachable state, and its items and amounts are those
of the start or have been written, in one step of the run, from the menu items as they were in the
transaction of that step; an order that has left DRAFT keeps its items and its amounts; the total of
its completion is the sum of its stored items; and the total of its deletion is the sum of the items
that the deletion has removed. -/
theorem order_money_invariant :
    (∀ acts k id, ∀ order ∈ order_at lib start acts k id, order.Balanced ∧
      ((∃ old, order_at lib start [] k id = some old ∧ order.SameAmounts old) ∨
        WrittenIn lib start acts k id order)) ∧
    (∀ acts later k id, ∀ order ∈ order_at lib start acts k id, order.status ≠ .DRAFT →
      ∀ order' ∈ order_at lib start (acts ++ later) k id, order'.SameAmounts order) ∧
    (∀ acts k id, ∀ event ∈ order_events_at lib start acts k id, ∀ order_id total created_at,
      event.payload = .order_completed order_id total created_at →
      ∀ order ∈ order_at lib start acts k id, total = (order.items.map (·.line_total)).sum) ∧
    ∀ acts k id, ∀ event ∈ order_events_at lib start acts k id, ∀ order_id status total created_at,
      event.payload = .order_deleted order_id status total created_at →
      ∃ pre a post order, acts = pre ++ a :: post ∧ order_at lib start pre k id = some order ∧
        order_at lib start (pre ++ [a]) k id = none ∧
        total = (order.items.map (·.line_total)).sum := by
  refine ⟨fun acts k id order horder => run_balanced lib start acts k id order horder,
    fun acts later k id order horder hstatus order' horder' =>
      (run_amounts_frozen lib start acts later k id order horder hstatus order' horder').1,
    fun acts k id event hevent order_id total created_at hpayload order horder => ?_,
    fun acts k id event hevent order_id status total created_at hpayload => ?_⟩
  · -- The announced total is the total of the order, which is the sum of its items.
    obtain ⟨-, htotal⟩ :=
      run_completed_total lib start acts k id event hevent order_id total created_at hpayload order horder
    rw [← htotal, (run_balanced lib start acts k id order horder).1.total]
  · obtain ⟨pre, a, post, order, hacts, hbefore, hafter, htotal⟩ :=
      run_deleted_total lib start acts k id event hevent order_id status total created_at hpayload
    refine ⟨pre, a, post, order, hacts, hbefore, hafter, ?_⟩
    rw [← htotal, (run_balanced lib start pre k id order hbefore).1.total]

end RestaurantOS
