import RestaurantOS.Envelopes
import RestaurantOS.Orders.History

/-!
# What the outbox tells about sales

The completion and the deletion of an order are announced once each, the completion with the total
and the time of creation that the order keeps from then on, and the deletion last of all (`Sale`).
Where no orders were there at the start, every completed order has been announced
(`run_sale`). -/

namespace RestaurantOS

open Events Orders

namespace Orders

/-- What the events of an order tell about its sale. -/
structure Sale (order : Option Order) (events : List (EventEnvelope Payload)) : Prop where
  /-- A completed order is announced as it is. -/
  completed : ∀ o ∈ order, ∀ event ∈ events, event.payload.event_type = .order_completed →
    o.status = .COMPLETED ∧ event.payload = .order_completed o.order_id o.total o.created_at
  /-- Every completed order is. -/
  announced : ∀ o ∈ order, o.status = .COMPLETED →
    ∃ event ∈ events, event.payload.event_type = .order_completed
  /-- An order that is there has not been deleted. -/
  kept : ∀ o ∈ order, ∀ event ∈ events, event.payload.event_type ≠ .order_deleted
  /-- One that is gone has. -/
  gone : order = none → events = [] ∨ ∃ event ∈ events, event.payload.event_type = .order_deleted
  /-- An order is completed once. -/
  single : ∀ event ∈ events, ∀ event' ∈ events, event.payload.event_type = .order_completed →
    event'.payload.event_type = .order_completed → event = event'
  /-- The deletion is the last event. -/
  last : ∀ deletion ∈ events, deletion.payload.event_type = .order_deleted →
    ∀ event ∈ events, event = deletion ∨ event.aggregate_revision < deletion.aggregate_revision

/-- An order about which nothing has been announced. -/
theorem Sale.of_nil {order : Option Order} (h : ∀ o ∈ order, o.status ≠ .COMPLETED) :
    Sale order [] :=
  ⟨by simp, fun o ho hstatus => absurd hstatus (h o ho), by simp, fun _ => Or.inl rfl, by simp,
    by simp⟩

/-- A new status is announced by the event of the status alone. -/
theorem StatusEvents.type {before after : Order} {events : List (EventEnvelope Payload)}
    (h : StatusEvents before after events) {event : EventEnvelope Payload} (hevent : event ∈ events) :
    after.status ≠ before.status ∧ status_payload after = some event.payload ∧ events = [event] := by
  have hpayloads := h.payloads
  -- Without a new status there is no event at all.
  split_ifs at hpayloads with hstatus
  · cases hpayload : status_payload after with
    | none =>
      rw [hpayload] at hpayloads
      rw [List.map_eq_nil_iff.mp hpayloads] at hevent
      exact absurd hevent List.not_mem_nil
    | some payload =>
      rw [hpayload] at hpayloads
      obtain ⟨event', rfl, hevent'⟩ := List.map_eq_singleton_iff.mp hpayloads
      obtain rfl := List.mem_singleton.mp hevent
      exact ⟨hstatus, by rw [hevent'], rfl⟩
  · rw [List.map_eq_nil_iff.mp hpayloads] at hevent
    exact absurd hevent List.not_mem_nil

/-- The event of the status COMPLETED. No other status has that event. -/
theorem status_payload_completed {order : Order} {payload : Payload}
    (h : status_payload order = some payload) (htype : payload.event_type = .order_completed) :
    order.status = .COMPLETED ∧
      payload = .order_completed order.order_id order.total order.created_at := by
  -- Only COMPLETED is announced with this type of event.
  unfold status_payload at h
  split at h
  · obtain rfl := Option.some.inj h
    cases htype
  · obtain rfl := Option.some.inj h
    cases htype
  · rename_i hstatus
    exact ⟨hstatus, (Option.some.inj h).symm⟩
  · obtain rfl := Option.some.inj h
    cases htype
  · cases h

/-- No status is announced by a deletion. -/
theorem status_payload_ne_deleted {order : Order} {payload : Payload}
    (h : status_payload order = some payload) : payload.event_type ≠ .order_deleted := by
  unfold status_payload at h
  split at h
  all_goals cases h
  all_goals exact nofun

/-- The sale of an order that is there after an update. -/
theorem Sale.updated {before after : Order} {events old : List (EventEnvelope Payload)}
    (h : Sale (some before) old) (hupdated : Updated before after)
    (hevents : StatusEvents before after events) : Sale (some after) (old ++ events) := by
  -- The status COMPLETED is final, and a completed order keeps its total.
  have hfinal : before.status = .COMPLETED → after.status = .COMPLETED ∧ events = [] := by
    intro hstatus
    have hsame : after.status = before.status := by
      rcases hupdated.status with hsame | hmove
      · exact hsame
      · rw [hstatus] at hmove
        exact absurd hmove List.not_mem_nil
    refine ⟨hsame.trans hstatus, List.eq_nil_iff_forall_not_mem.mpr fun event hevent => ?_⟩
    exact (hevents.type hevent).1 hsame
  have hold : ∀ event ∈ old, event.payload.event_type = .order_completed →
      after.status = .COMPLETED ∧ events = [] ∧
        event.payload = .order_completed after.order_id after.total after.created_at := by
    intro event hevent htype
    obtain ⟨hstatus, hpayload⟩ := h.completed before rfl event hevent htype
    obtain ⟨hstatus', hnone⟩ := hfinal hstatus
    have htotal : after.total = before.total := hupdated.total (by rw [hstatus']; exact nofun)
    refine ⟨hstatus', hnone, ?_⟩
    rw [hpayload, hupdated.order_id, htotal, hupdated.created_at]
  have hnew : ∀ event ∈ events, event.payload.event_type = .order_completed →
      after.status = .COMPLETED ∧
        event.payload = .order_completed after.order_id after.total after.created_at :=
    fun event hevent htype => status_payload_completed (hevents.type hevent).2.1 htype
  -- An update never announces a deletion, so the sale of a live order is open.
  have hkept : ∀ event ∈ old ++ events, event.payload.event_type ≠ .order_deleted := by
    intro event hevent
    rcases List.mem_append.mp hevent with hevent | hevent
    · exact h.kept before rfl event hevent
    · exact status_payload_ne_deleted (hevents.type hevent).2.1
  refine ⟨?_, ?_, ?_, fun hnone => absurd hnone (Option.some_ne_none after), ?_,
    fun deletion hmem htype => absurd htype (hkept deletion hmem)⟩
  · -- A completion on record was there before, or this update is the completion.
    rintro o ho event hevent htype
    obtain rfl := Option.some.inj (Option.mem_def.mp ho)
    rcases List.mem_append.mp hevent with hevent | hevent
    · obtain ⟨hstatus, -, hpayload⟩ := hold event hevent htype
      exact ⟨hstatus, hpayload⟩
    · exact hnew event hevent htype
  · -- A completed order has its completion on record, old or new.
    rintro o ho hstatus
    obtain rfl := Option.some.inj (Option.mem_def.mp ho)
    by_cases hbefore : before.status = .COMPLETED
    · obtain ⟨event, hevent, htype⟩ := h.announced before rfl hbefore
      exact ⟨event, List.mem_append_left _ hevent, htype⟩
    · have hpayloads := hevents.payloads
      have hpayload : status_payload after =
          some (.order_completed after.order_id after.total after.created_at) := by
        unfold status_payload
        rw [hstatus]
      rw [if_pos fun hsame => hbefore (hsame.symm.trans hstatus), hpayload] at hpayloads
      obtain ⟨event, rfl, hevent⟩ := List.map_eq_singleton_iff.mp hpayloads
      exact ⟨event, List.mem_append_right _ List.mem_cons_self, by rw [hevent]; rfl⟩
  · exact fun o _ => hkept
  · -- There is at most one completion: an old one makes the order final and rules out a new one.
    intro event hevent event' hevent' htype htype'
    rcases List.mem_append.mp hevent with hevent | hevent
    · obtain ⟨-, hnone, -⟩ := hold event hevent htype
      rw [hnone, List.append_nil] at hevent'
      exact h.single event hevent event' hevent' htype htype'
    · -- An old completion excludes a new one, whichever of the two events is taken first.
      rcases List.mem_append.mp hevent' with hevent' | hevent'
      · obtain ⟨-, hnone, -⟩ := hold event' hevent' htype'
        rw [hnone] at hevent
        exact absurd hevent List.not_mem_nil
      · rw [(hevents.type hevent).2.2] at hevent'
        exact (List.mem_singleton.mp hevent').symm

/-- A step keeps what the events of an order tell about its sale. -/
theorem Sale.step {before after : Option Order} {events old : List (EventEnvelope Payload)}
    (h : Sale before old) (hstep : OrderStep before after events)
    (hfresh : before = none → after ≠ none → old = [])
    (hlatest : ∀ order ∈ before, ∀ event ∈ old, event.aggregate_revision ≤ order.revision) :
    Sale after (old ++ events) := by
  cases hstep with
  | absent =>
    rw [List.append_nil]
    exact h
  -- The order is a draft, and nothing has been announced under its fresh key.
  | created order hstatus =>
    rw [hfresh rfl (Option.some_ne_none order), List.append_nil]
    refine .of_nil fun o ho => ?_
    rw [← Option.some.inj (Option.mem_def.mp ho), hstatus]
    exact nofun
  | updated before after hupdated events hevents => exact h.updated hupdated hevents
  | deleted order event hpayload hrevision =>
    have htype : event.payload.event_type = .order_deleted := by
      rw [hpayload]
      rfl
    -- The deletion carries a revision above everything announced before.
    have hlater : ∀ earlier ∈ old, earlier.aggregate_revision < event.aggregate_revision := by
      intro earlier hearlier
      have := hlatest order rfl earlier hearlier
      omega
    refine ⟨fun o ho => absurd ho (Option.not_mem_none o), fun o ho => absurd ho (Option.not_mem_none o),
      fun o ho => absurd ho (Option.not_mem_none o),
      fun _ => Or.inr ⟨event, List.mem_append_right _ List.mem_cons_self, htype⟩, ?_, ?_⟩
    · -- The deletion adds no completion, so there is still at most one.
      intro e he e' he' hcompleted hcompleted'
      have hearlier : ∀ e ∈ old ++ [event], e.payload.event_type = .order_completed → e ∈ old := by
        intro e he hcompleted
        rcases List.mem_append.mp he with he | he
        · exact he
        · rw [List.mem_singleton.mp he, htype] at hcompleted
          cases hcompleted
      exact h.single e (hearlier e he hcompleted) e' (hearlier e' he' hcompleted') hcompleted
        hcompleted'
    · -- The order was live until now, so this is the only deletion.
      intro deletion hdeletion hdeleted e he
      have heq : deletion = event := by
        rcases List.mem_append.mp hdeletion with hmem | hmem
        · exact absurd hdeleted (h.kept order rfl deletion hmem)
        · exact List.mem_singleton.mp hmem
      rw [heq]
      rcases List.mem_append.mp he with he | he
      · exact Or.inr (hlater e he)
      · exact Or.inl (List.mem_singleton.mp he)

end Orders

section Legacy

variable (lib : Library) (start : ℕ → LegacyBranch) (acts : List Act) (k id : ℕ)

/-- About an order that appears nothing has been announced. Its key is fresh, since the keys of
orders are never used again. -/
theorem run_order_fresh (a : Act)
    (hnone : Keyed.lookup Order.order_id id ((run lib start acts).rows k).orders = none)
    (hsome : Keyed.lookup Order.order_id id ((run lib start (acts ++ [a])).rows k).orders ≠ none) :
    ((run lib start acts).rows k).order_events id = [] := by
  rcases run_step lib start acts a k with hsame | ⟨command, heffect⟩
  · rw [hsame] at hsome
    exact absurd hnone hsome
  · have hbook := run_order_book lib start acts k
    obtain ⟨order, horder⟩ := Option.ne_none_iff_exists'.mp hsome
    obtain ⟨-, -, hbelow⟩ := heffect.order_keys hbook.unique hbook.below
    rcases (hbelow order (Keyed.lookup_mem horder)).2 with ⟨other, hother, hkey⟩ | hfresh
    · exact absurd (hkey.trans (Keyed.lookup_key horder)) (Keyed.lookup_eq_none.mp hnone other hother)
    · exact hbook.silent id (Keyed.lookup_key horder ▸ hfresh)

/-- An order that is there has not been deleted, in every reachable state. -/
theorem run_order_kept :
    ∀ order ∈ Keyed.lookup Order.order_id id ((run lib start acts).rows k).orders,
      ∀ event ∈ ((run lib start acts).rows k).order_events id,
        event.payload.event_type ≠ .order_deleted := by
  induction acts using List.reverseRecOn with
  -- A legacy restaurant starts without events.
  | nil =>
    have hevents : ((run lib start []).rows k).order_events id = [] := by
      show (start k).toBranch.order_events id = []
      unfold Branch.order_events
      rw [(start k).legacy.events, about_nil]
    rw [hevents]
    exact fun _ _ event hevent => absurd hevent List.not_mem_nil
  | append_singleton acts a ih =>
    obtain ⟨events, hevents, hstep⟩ := run_order_step lib start acts a k id
    have hfresh := run_order_fresh lib start acts k id a
    rw [hevents]
    generalize Keyed.lookup Order.order_id id ((run lib start acts).rows k).orders = before at *
    generalize Keyed.lookup Order.order_id id ((run lib start (acts ++ [a])).rows k).orders = after
      at *
    cases hstep with
    | absent => exact fun order horder => absurd horder (Option.not_mem_none order)
    -- A created order starts with no event at all.
    | created order =>
      rw [hfresh rfl (Option.some_ne_none order)]
      exact fun _ _ event hevent => absurd hevent List.not_mem_nil
    -- Updates announce statuses only.
    | updated before after hupdated events hstatus =>
      intro order _ event hevent
      rcases List.mem_append.mp hevent with hold | hnew
      · exact ih before rfl event hold
      · exact status_payload_ne_deleted (hstatus.type hnew).2.1
    | deleted order event => exact fun order horder => absurd horder (Option.not_mem_none order)

end Legacy

/-- A restaurant before its first order. Its menus and ingredients may have been there before. -/
structure NewBranch extends LegacyBranch where
  /-- There are no orders. -/
  no_orders : orders = []
  /-- The sequence of their keys starts with a positive number. -/
  order_keys : 0 < next_order_id

/-- The small restaurant is one. It shows that the conditions can be met. -/
def NewBranch.small : NewBranch := ⟨⟨Branch.small, Branch.small_legacy⟩, rfl, Nat.one_pos⟩

/-- The small restaurant is one. -/
instance : Nonempty NewBranch := ⟨.small⟩

section Runs

variable (lib : Library) (start : ℕ → NewBranch) (acts : List Act) (k id : ℕ)

/-- The restaurants before their first orders, as legacy ones. -/
abbrev legacy (start : ℕ → NewBranch) (k : ℕ) : LegacyBranch := (start k).toLegacyBranch

/-- The events of an order tell about its sale, in every reachable state. -/
theorem run_sale : Sale
    (Keyed.lookup Order.order_id id ((run lib (legacy start) acts).rows k).orders)
    (((run lib (legacy start) acts).rows k).order_events id) := by
  induction acts using List.reverseRecOn with
  -- Before the first order there is nothing to tell.
  | nil =>
    have hevents : ((run lib (legacy start) []).rows k).order_events id = [] := by
      show (start k).toBranch.order_events id = []
      unfold Branch.order_events
      rw [(start k).legacy.events, about_nil]
    have horder : Keyed.lookup Order.order_id id ((run lib (legacy start) []).rows k).orders = none := by
      show Keyed.lookup Order.order_id id (start k).orders = none
      rw [(start k).no_orders]
      rfl
    rw [hevents, horder]
    exact .of_nil fun o ho => absurd ho (Option.not_mem_none o)
  | append_singleton acts a ih =>
    obtain ⟨events, hevents, hstep⟩ := run_order_step lib (legacy start) acts a k id
    rw [hevents]
    exact ih.step hstep (run_order_fresh lib (legacy start) acts k id a)
      fun order horder => (run_order_book lib (legacy start) acts k).latest id order horder

/-- The keys of orders are positive, and so are their revisions. -/
theorem run_order_positive : 0 < ((run lib (legacy start) acts).rows k).next_order_id ∧
    ∀ order ∈ ((run lib (legacy start) acts).rows k).orders,
      0 < order.order_id ∧ 1 ≤ order.revision := by
  refine @run_branch lib (legacy start) (fun db => 0 < db.next_order_id ∧
    ∀ order ∈ db.orders, 0 < order.order_id ∧ 1 ≤ order.revision) k ?_ ?_ acts
  · -- At the start there are no orders, and the sequence is positive.
    refine ⟨(start k).order_keys, fun order horder => ?_⟩
    have hnone : (start k).orders = [] := (start k).no_orders
    rw [show (legacy start k).toBranch.orders = [] from hnone] at horder
    exact absurd horder List.not_mem_nil
  · rintro db command db' hsane heffect ⟨hnext, horders⟩
    cases heffect with
    | replayed => exact ⟨hnext, horders⟩
    | stock hcommand ws hwrites =>
      rw [hwrites.frame.orders, hwrites.frame.next_order_id]
      exact ⟨hnext, horders⟩
    | @initialized hcommand hfresh ws db₁ hwrites =>
      have hrows := hwrites.frame.orders
      have hkeys := hwrites.frame.next_order_id
      exact ⟨hkeys ▸ hnext, fun order horder => horders order (hrows ▸ horder)⟩
    | catalog hcommand events hrest hevents horders' hnext' =>
      rw [horders', hnext']
      exact ⟨hnext, horders⟩
    -- The new key is taken from the sequence, which then moves on.
    | order_created hcommand order hfresh hstatus hprocessed hrevision hrest horders' hnext' =>
      rw [horders', hnext']
      refine ⟨by omega, fun other hother => ?_⟩
      rcases List.mem_append.mp hother with hother | hother
      · exact horders other hother
      · rw [List.mem_singleton.mp hother, hrevision]
        exact ⟨by omega, le_rfl⟩
    | order_updated hcommand before after hlookup hupdated ws hwrites haccepts hother events hevents
        hrest horders' hnext' =>
      rw [horders', hnext']
      refine ⟨hnext, fun order horder => ?_⟩
      rcases Keyed.mem_put horder with ⟨horder, -⟩ | rfl
      · exact horders order horder
      · obtain ⟨hid, hrevision⟩ := horders before (Keyed.lookup_mem hlookup)
        rw [hupdated.order_id]
        refine ⟨hid, ?_⟩
        rcases hupdated.revision with ⟨-, heq⟩ | ⟨-, heq⟩ <;> omega
    | order_deleted hcommand order hlookup hhistory event hpayload hrevision hrest horders' hnext' =>
      rw [horders', hnext']
      exact ⟨hnext, fun other hother => horders other (List.mem_filter.mp hother).1⟩

/-- What holds of the orders and the outbox of a restaurant whose orders all are its own. -/
structure Branch.Sales (db : Branch) : Prop where
  /-- The keys and revisions are in order. -/
  book : db.OrderBook
  /-- The events tell about the sales. -/
  sale : ∀ id, Sale (Keyed.lookup Order.order_id id db.orders) (db.order_events id)
  /-- Keys and revisions are positive. -/
  positive : ∀ order ∈ db.orders, 0 < order.order_id ∧ 1 ≤ order.revision
  /-- The events are valid envelopes. -/
  enveloped : ∀ event ∈ db.events, Enveloped db.organization_id db.restaurant_id event

/-- So it is in every reachable state. -/
theorem run_sales : ((run lib (legacy start) acts).rows k).Sales := by
  obtain ⟨horganization, hrestaurant, henveloped⟩ := run_enveloped lib (legacy start) acts k
  refine ⟨run_order_book lib (legacy start) acts k, run_sale lib start acts k,
    (run_order_positive lib start acts k).2, ?_⟩
  rw [horganization, hrestaurant]
  exact henveloped

end Runs

end RestaurantOS
