import RestaurantOS.Outbox

/-!
# The events of an order follow its history

Along every run, an order and the events about it go through the steps of `OrderStep`. The keys of
orders are drawn from a sequence and are not used again, and the events of an order carry increasing
revisions, none above the revision of the order (`Branch.OrderBook`). -/

namespace RestaurantOS

open Events Orders

/-- The keys of the orders, and the revisions of the events about them. -/
structure Branch.OrderBook (db : Branch) : Prop where
  /-- No two orders share a key. -/
  unique : Keyed.Unique Order.order_id db.orders
  /-- The sequence has passed the keys of the orders. -/
  below : ∀ order ∈ db.orders, order.order_id < db.next_order_id
  /-- Nothing is announced about a key that the sequence has not passed. -/
  silent : ∀ id, db.next_order_id ≤ id → db.order_events id = []
  /-- The events about an order carry increasing revisions. -/
  increasing : ∀ id, (db.order_events id).Pairwise fun event later =>
    event.aggregate_revision < later.aggregate_revision
  /-- No event about an order has a later revision than the order. -/
  latest : ∀ id order, Keyed.lookup Order.order_id id db.orders = some order →
    ∀ event ∈ db.order_events id, event.aggregate_revision ≤ order.revision

namespace Orders

/-- A list of at most one element is ordered in every way. -/
theorem pairwise_of_length_le_one {α : Type} {R : α → α → Prop} :
    ∀ {xs : List α}, xs.length ≤ 1 → xs.Pairwise R
  | [], _ => .nil
  | [x], _ => List.pairwise_singleton R x

variable {before after : Option Order} {events old : List (EventEnvelope Payload)}

/-- The events of a step carry later revisions than those before. By what the last revision of the
earlier events is bounded with, which the order book keeps. -/
theorem OrderStep.increasing (h : OrderStep before after events)
    (hold : old.Pairwise fun event later => event.aggregate_revision < later.aggregate_revision)
    (hlatest : ∀ order ∈ before, ∀ event ∈ old, event.aggregate_revision ≤ order.revision) :
    (old ++ events).Pairwise fun event later =>
      event.aggregate_revision < later.aggregate_revision := by
  rw [List.pairwise_append]
  cases h with
  | absent => exact ⟨hold, .nil, by simp⟩
  | created => exact ⟨hold, .nil, by simp⟩
  | updated before after hupdated events hevents =>
    have hpayloads := hevents.payloads
    split_ifs at hpayloads with hstatus
    · -- A new status is a new state, so the order has a new revision.
      have hrevision : after.revision = before.revision + 1 := by
        rcases hupdated.revision with ⟨hsame, -⟩ | ⟨-, hrevision⟩
        · have heq : (order_state after).status = (order_state before).status := by rw [hsame]
          exact absurd heq hstatus
        · exact hrevision
      have hlength : events.length ≤ 1 := by
        rw [← List.length_map, hpayloads]
        exact Option.length_toList_le
      refine ⟨hold, pairwise_of_length_le_one hlength, fun event hevent later hlater => ?_⟩
      have hle := hlatest before rfl event hevent
      rw [hevents.revisions later hlater, hrevision]
      omega
    · rw [List.map_eq_nil_iff.mp hpayloads]
      exact ⟨hold, .nil, by simp⟩
  -- The event of a deletion carries the next revision.
  | deleted order event hpayload hrevision =>
    refine ⟨hold, List.pairwise_singleton _ _, fun earlier hearlier later hlater => ?_⟩
    have hle := hlatest order rfl earlier hearlier
    rw [List.mem_singleton.mp hlater, hrevision]
    omega

/-- No event after a step has a later revision than the order. -/
theorem OrderStep.latest (h : OrderStep before after events)
    (hlatest : ∀ order ∈ before, ∀ event ∈ old, event.aggregate_revision ≤ order.revision)
    (hnew : before = none → old = []) :
    ∀ order ∈ after, ∀ event ∈ old ++ events, event.aggregate_revision ≤ order.revision := by
  cases h with
  | absent => simp
  | created => simp [hnew rfl]
  | updated before after hupdated events hevents =>
    intro order horder event hevent
    obtain rfl := Option.some.inj (Option.mem_def.mp horder)
    have hle : before.revision ≤ after.revision := by
      rcases hupdated.revision with ⟨-, heq⟩ | ⟨-, heq⟩ <;> omega
    rcases List.mem_append.mp hevent with hevent | hevent
    · have := hlatest before rfl event hevent
      omega
    · rw [hevents.revisions event hevent]
  | deleted => simp

end Orders

variable {db db' : Branch} {command : Command}

/-- An effect keeps the keys of the orders in order, and uses no key again. New orders take keys
from the sequence, which a failed insertion may also have moved on. -/
theorem Effect.order_keys (h : Effect db command db')
    (hunique : Keyed.Unique Order.order_id db.orders)
    (hbelow : ∀ order ∈ db.orders, order.order_id < db.next_order_id) :
    Keyed.Unique Order.order_id db'.orders ∧ db.next_order_id ≤ db'.next_order_id ∧
      ∀ order ∈ db'.orders, order.order_id < db'.next_order_id ∧
        ((∃ other ∈ db.orders, other.order_id = order.order_id) ∨
          db.next_order_id ≤ order.order_id) := by
  have hkept : db'.orders = db.orders → db'.next_order_id = db.next_order_id →
      Keyed.Unique Order.order_id db'.orders ∧ db.next_order_id ≤ db'.next_order_id ∧
        ∀ order ∈ db'.orders, order.order_id < db'.next_order_id ∧
          ((∃ other ∈ db.orders, other.order_id = order.order_id) ∨
            db.next_order_id ≤ order.order_id) := by
    intro horders hnext
    rw [horders, hnext]
    exact ⟨hunique, le_rfl, fun order horder => ⟨hbelow order horder, Or.inl ⟨order, horder, rfl⟩⟩⟩
  cases h with
  | replayed => exact hkept rfl rfl
  | stock hcommand ws hwrites hdirect => exact hkept hwrites.frame.orders hwrites.frame.next_order_id
  | initialized hcommand hfresh ws hwrites hbaseline hcovered =>
    exact hkept hwrites.frame.orders hwrites.frame.next_order_id
  | catalog hcommand events hrest hevents horders hnext => exact hkept horders hnext
  | order_created hcommand order hfresh hstatus hprocessed hrevision hrest horders hnext =>
    rw [horders, hnext]
    refine ⟨hunique.append fun other hother => ?_, by omega, fun other hother => ?_⟩
    · exact ((hbelow other hother).trans_le hfresh).ne
    · rcases List.mem_append.mp hother with hother | hother
      · have := hbelow other hother
        exact ⟨by omega, Or.inl ⟨other, hother, rfl⟩⟩
      · rw [List.mem_singleton.mp hother]
        exact ⟨by omega, Or.inr hfresh⟩
  -- An update writes the order under the key that it had.
  | order_updated hcommand before after hlookup hupdated ws hwrites haccepts hother events hevents
      hrest horders hnext =>
    rw [horders, hnext]
    refine ⟨hunique.put after, le_rfl, fun order horder => ?_⟩
    have hmem := Keyed.lookup_mem hlookup
    have hkey : before.order_id = after.order_id := Keyed.lookup_key hlookup
    rcases Keyed.mem_put horder with ⟨horder, -⟩ | rfl
    · exact ⟨hbelow order horder, Or.inl ⟨order, horder, rfl⟩⟩
    · exact ⟨hkey ▸ hbelow before hmem, Or.inl ⟨before, hmem, hkey⟩⟩
  | order_deleted hcommand order hlookup hhistory event hpayload hrevision hrest horders hnext =>
    rw [horders, hnext]
    refine ⟨hunique.filter _, le_rfl, fun other hother => ?_⟩
    have hmem := (List.mem_filter.mp hother).1
    exact ⟨hbelow other hmem, Or.inl ⟨other, hmem, rfl⟩⟩

/-- An effect keeps the order book. The five fields are the two about keys and the three about the
events of each order. -/
theorem Effect.order_book (h : Effect db command db') (hkeys : db.Keys) (hbook : db.OrderBook) :
    db'.OrderBook := by
  obtain ⟨hunique, hnext, hbelow⟩ := h.order_keys hbook.unique hbook.below
  have hstep := h.order_step hkeys hbook.below
  refine ⟨hunique, fun order horder => (hbelow order horder).1, fun id hid => ?_, fun id => ?_,
    fun id order horder => ?_⟩
  · -- An order whose key has not been drawn has no event.
    obtain ⟨events, hevents, hstep⟩ := hstep id
    have hbefore : Keyed.lookup Order.order_id id db.orders = none := by
      refine Keyed.lookup_eq_none.mpr fun order horder => ?_
      have := hbook.below order horder
      omega
    have hafter : Keyed.lookup Order.order_id id db'.orders = none := by
      refine Keyed.lookup_eq_none.mpr fun order horder => ?_
      have := (hbelow order horder).1
      omega
    rw [hbefore, hafter] at hstep
    rw [hevents, hbook.silent id (hnext.trans hid)]
    cases hstep
    rfl
  · obtain ⟨events, hevents, hstep⟩ := hstep id
    rw [hevents]
    exact hstep.increasing (hbook.increasing id) fun order horder => hbook.latest id order horder
  · obtain ⟨events, hevents, hstep⟩ := hstep id
    rw [hevents]
    refine hstep.latest (fun order horder => hbook.latest id order horder) (fun hnone => ?_) order horder
    -- An order that appears has a key that the sequence has just passed.
    rcases (hbelow order (Keyed.lookup_mem horder)).2 with ⟨other, hother, hkey⟩ | hfresh
    · exact absurd (hkey.trans (Keyed.lookup_key horder)) (Keyed.lookup_eq_none.mp hnone other hother)
    · exact hbook.silent id (Keyed.lookup_key horder ▸ hfresh)

/-- The order book is in order in every reachable state. -/
theorem run_order_book (lib : Library) (start : ℕ → LegacyBranch) (acts : List Act) (k : ℕ) :
    ((run lib start acts).rows k).OrderBook := by
  refine run_branch k ?_ (fun db command db' hsane heffect hbook =>
    heffect.order_book hsane.keys hbook) acts
  have hnone : ∀ id, (start k).toBranch.order_events id = [] := by
    intro id
    unfold Branch.order_events
    rw [(start k).legacy.events, about_nil]
  refine ⟨(start k).legacy.orders, (start k).legacy.orders_below, fun id _ => hnone id, fun id => ?_,
    fun id order _ event hevent => ?_⟩
  · rw [hnone id]
    exact .nil
  · rw [hnone id] at hevent
    exact absurd hevent List.not_mem_nil

/-- A step of a run does to an order what `OrderStep` says. -/
theorem run_order_step (lib : Library) (start : ℕ → LegacyBranch) (acts : List Act) (a : Act)
    (k id : ℕ) :
    ∃ events, ((run lib start (acts ++ [a])).rows k).order_events id =
        ((run lib start acts).rows k).order_events id ++ events ∧
      OrderStep (Keyed.lookup Order.order_id id ((run lib start acts).rows k).orders)
        (Keyed.lookup Order.order_id id ((run lib start (acts ++ [a])).rows k).orders) events := by
  rcases run_step lib start acts a k with hsame | ⟨command, heffect⟩
  · rw [hsame]
    exact ⟨[], (List.append_nil _).symm, .kept _⟩
  · exact heffect.order_step (run_sane lib start acts k).keys (run_order_book lib start acts k).below id

section Gone

variable {lib : Library} {start : ℕ → LegacyBranch} {k id : ℕ}

/-- The sequence has passed the key of every order that has been there. -/
theorem run_order_passed {pre acts : List Act} (hpre : pre <+: acts)
    (hsome : Keyed.lookup Order.order_id id ((run lib start pre).rows k).orders ≠ none) :
    id < ((run lib start acts).rows k).next_order_id := by
  obtain ⟨rest, rfl⟩ := hpre
  induction rest using List.reverseRecOn with
  | nil =>
    obtain ⟨order, horder⟩ := Option.ne_none_iff_exists'.mp hsome
    rw [List.append_nil, ← Keyed.lookup_key horder]
    exact (run_order_book lib start pre k).below order (Keyed.lookup_mem horder)
  | append_singleton rest a ih =>
    rw [← List.append_assoc]
    rcases run_step lib start (pre ++ rest) a k with hsame | ⟨command, heffect⟩
    · rw [hsame]
      exact ih
    · have hbook := run_order_book lib start (pre ++ rest) k
      exact ih.trans_le (heffect.order_keys hbook.unique hbook.below).2.1

/-- An order that has been there and is gone does not come back, and nothing is announced about it. -/
theorem run_order_gone {pre acts : List Act} {a : Act} (hpre : pre <+: acts)
    (hsome : Keyed.lookup Order.order_id id ((run lib start pre).rows k).orders ≠ none)
    (hnone : Keyed.lookup Order.order_id id ((run lib start acts).rows k).orders = none) :
    Keyed.lookup Order.order_id id ((run lib start (acts ++ [a])).rows k).orders = none ∧
      ((run lib start (acts ++ [a])).rows k).order_events id =
        ((run lib start acts).rows k).order_events id := by
  have hpassed := run_order_passed hpre hsome
  rcases run_step lib start acts a k with hsame | ⟨command, heffect⟩
  · rw [hsame]
    exact ⟨hnone, rfl⟩
  · have hbook := run_order_book lib start acts k
    obtain ⟨-, -, hbelow⟩ := heffect.order_keys hbook.unique hbook.below
    have hgone : Keyed.lookup Order.order_id id ((run lib start (acts ++ [a])).rows k).orders = none := by
      refine Keyed.lookup_eq_none.mpr fun order horder hid => ?_
      rcases (hbelow order horder).2 with ⟨other, hother, hkey⟩ | hfresh
      · exact Keyed.lookup_eq_none.mp hnone other hother (hkey.trans hid)
      · omega
    obtain ⟨events, hevents, hstep⟩ := run_order_step lib start acts a k id
    rw [hnone, hgone] at hstep
    refine ⟨hgone, ?_⟩
    rw [hevents]
    cases hstep
    rw [List.append_nil]

end Gone

/-- The events of an order follow its history. In every step of a run the order and its events go
through `OrderStep`: its revision grows by one exactly if its state changes, each new status with an
event is announced once under the new revision, and so is the deletion; the revisions of the events
increase; and about a deleted order nothing is announced any more. The last part says that a key
that has been given up is never used again, so that its events are complete. -/
theorem order_events_follow_history (lib : Library) (start : ℕ → LegacyBranch) (acts : List Act)
    (k id : ℕ) :
    (∀ pre a, pre ++ [a] <+: acts → ∃ events,
      ((run lib start (pre ++ [a])).rows k).order_events id =
        ((run lib start pre).rows k).order_events id ++ events ∧
      OrderStep (Keyed.lookup Order.order_id id ((run lib start pre).rows k).orders)
        (Keyed.lookup Order.order_id id ((run lib start (pre ++ [a])).rows k).orders) events) ∧
    (((run lib start acts).rows k).order_events id).Pairwise (fun event later =>
      event.aggregate_revision < later.aggregate_revision) ∧
    (∀ pre mid, pre <+: mid → mid <+: acts →
      Keyed.lookup Order.order_id id ((run lib start pre).rows k).orders ≠ none →
      Keyed.lookup Order.order_id id ((run lib start mid).rows k).orders = none →
        Keyed.lookup Order.order_id id ((run lib start acts).rows k).orders = none ∧
        ((run lib start acts).rows k).order_events id =
          ((run lib start mid).rows k).order_events id) := by
  refine ⟨fun pre a _ => run_order_step lib start pre a k id,
    (run_order_book lib start acts k).increasing id, fun pre mid hpre hmid hsome hnone => ?_⟩
  obtain ⟨rest, rfl⟩ := hmid
  -- By induction on what happens after the deletion.
  induction rest using List.reverseRecOn with
  | nil =>
    rw [List.append_nil]
    exact ⟨hnone, rfl⟩
  | append_singleton rest a ih =>
    rw [← List.append_assoc]
    obtain ⟨hgone, hevents⟩ := ih
    obtain ⟨hgone', hevents'⟩ :=
      run_order_gone (a := a) (hpre.trans (List.prefix_append mid rest)) hsome hgone
    exact ⟨hgone', hevents'.trans hevents⟩

end RestaurantOS
