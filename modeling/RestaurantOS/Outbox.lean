import RestaurantOS.Runs

/-!
# The events of an order and of an ingredient

The outbox of a restaurant, split by what an event is about. A write appends events about its
ingredient only, so the events of an ingredient grow with its own changes (`Effect.ingredient_step`)
and those of an order with its own (`Effect.order_step`). Both lemmas say all that a command does to
its subject; what follows from them about runs is proved in later modules. -/

namespace RestaurantOS

open Fallible Catalog Events Inventory Orders Tenancy

namespace Events

/-- The order that an event is about. Catalog and inventory events are about none. -/
def Payload.order_id : Payload → Option ℕ
  | order_submitted id | order_accepted id | order_completed id _ _ | order_cancelled id
  | order_deleted id _ _ _ => some id
  | _ => none

/-- The ingredient that an event is about. Order and catalog events are about none. -/
def Payload.ingredient_id : Payload → Option ℕ
  | inventory_state_changed payload => some payload.ingredient_id
  | inventory_low payload => some payload.ingredient_id
  | _ => none

/-- The events about one subject. They are in the order in which they were emitted. -/
def about (subject : Payload → Option ℕ) (id : ℕ) (events : List (EventEnvelope Payload)) :
    List (EventEnvelope Payload) :=
  events.filter fun event => subject event.payload = some id

variable {subject : Payload → Option ℕ} {id : ℕ} {events events' : List (EventEnvelope Payload)}

/-- Without events none is about the subject. -/
@[simp] theorem about_nil : about subject id [] = [] := rfl

/-- Events are selected one by one. -/
@[simp] theorem about_append :
    about subject id (events ++ events') = about subject id events ++ about subject id events' :=
  List.filter_append _ _

/-- An event about a subject is one of the events. -/
@[simp] theorem mem_about {event : EventEnvelope Payload} :
    event ∈ about subject id events ↔ event ∈ events ∧ subject event.payload = some id := by
  simp [about]

/-- Events about the subject only. -/
theorem about_eq_self (h : ∀ event ∈ events, subject event.payload = some id) :
    about subject id events = events := by
  refine List.filter_eq_self.mpr fun event hevent => ?_
  simpa using h event hevent

/-- Events about other subjects only. -/
theorem about_eq_nil (h : ∀ event ∈ events, subject event.payload ≠ some id) :
    about subject id events = [] := by
  refine List.filter_eq_nil_iff.mpr fun event hevent => ?_
  simpa using h event hevent

/-- An event about an ingredient is not about an order. -/
theorem Payload.order_id_of_ingredient {payload : Payload} {id : ℕ}
    (h : payload.ingredient_id = some id) : payload.order_id = none := by
  cases payload <;> first | rfl | cases h

/-- An event about an order is not about an ingredient. -/
theorem Payload.ingredient_id_of_order {payload : Payload} {id : ℕ}
    (h : payload.order_id = some id) : payload.ingredient_id = none := by
  cases payload <;> first | rfl | cases h

end Events

/-- The events about an order. They are those that analytics and the history of the order see. -/
def Branch.order_events (db : Branch) (order_id : ℕ) : List (EventEnvelope Payload) :=
  about Payload.order_id order_id db.events

/-- The events about an ingredient. They are those that alerts and notifications see. -/
def Branch.ingredient_events (db : Branch) (ingredient_id : ℕ) : List (EventEnvelope Payload) :=
  about Payload.ingredient_id ingredient_id db.events

/-! ## Ingredients -/

namespace Inventory

section Change

variable {organization_id : UUID} {restaurant_id : ℕ} {episode_id : UUID}
  {events : List (EventEnvelope Payload)}

/-- The events of a recorded transition are about its ingredient. There are at most two: that of the
new state, and that of the opened episode. -/
theorem Recorded.about {record record' : IngredientRecord} {balance : InventoryBalance}
    {before : Option InventoryStateSnapshot}
    (h : Recorded organization_id restaurant_id episode_id record balance before record' events) :
    ∀ event ∈ events, event.payload.ingredient_id = some record'.id := by
  have hstate : ∀ {transition : InventoryTransition},
      transition.state =
        inventory_state_snapshot organization_id restaurant_id record'.item balance →
      (state_changed_payload transition).ingredient_id = some record'.id := by
    rintro transition htransition
    rw [show (state_changed_payload transition).ingredient_id = some transition.state.ingredient_id
      from rfl, htransition]
    rfl
  cases h with
  | unchanged => simp
  | changed hchanged _ hrevision hitem hbalance hmovements boundary hcrossing hepisodes events
      hannounced hrevisions =>
    intro event hevent
    have hmem : event.payload ∈ events.map (·.payload) := List.mem_map_of_mem hevent
    generalize events.map (·.payload) = payloads at hannounced hmem
    cases hannounced with
    | state transition htransition hfact hid hedge =>
      rw [List.mem_singleton.mp hmem]
      exact hstate htransition
    | low transition htransition hfact hid hedge facts hfacts =>
      rcases List.mem_pair.mp hmem with heq | heq
      · rw [heq]
        exact hstate htransition
      · rw [heq]
        -- Only an opened episode is announced, and it is an episode of the ingredient.
        cases hcrossing with
        | opened =>
          have hid : facts.episode.ingredient_id = record'.item.id := by
            rw [← Option.some.inj hfacts]
            rfl
          exact congrArg some hid
        | resolved _ _ _ _ _ _ _ _ fact hkind => simp [hkind.1] at hedge
        | untracked => simp at hedge
        | level => simp at hedge

/-- The events of a change are about its ingredient. -/
theorem Change.about {old : Option IngredientRecord} {purpose : Purpose} {record' : IngredientRecord}
    (h : Change organization_id restaurant_id episode_id old purpose record' events) :
    ∀ event ∈ events, event.payload.ingredient_id = some record'.id := by
  cases h with
  | created item movement hrevision hafter hversion hrange h => exact h.about
  | rewritten record balance hbalance record₁ balance₁ hid hrevision hepisodes hposting h =>
    exact h.about
  | baseline => simp

end Change

variable {db db' : Branch} {ws : List (ℕ × Purpose)} {id : ℕ} {purpose : Purpose}

/-- A write appends events about its ingredient. -/
theorem Write.appended (h : Write db id purpose db') (hkeys : db.Keys) :
    ∃ events, db'.events = db.events ++ events ∧
      ∀ event ∈ events, event.payload.ingredient_id = some id := by
  obtain ⟨record', events, hlookup, hchange, hevents, -⟩ := h.change hkeys
  refine ⟨events, hevents, ?_⟩
  have habout := hchange.about
  rwa [Keyed.lookup_key hlookup] at habout

/-- Writes append events about their ingredients. No other row of the outbox is written or removed.
-/
theorem Writes.appended (h : Writes db ws db') (hkeys : db.Keys) :
    ∃ events, db'.events = db.events ++ events ∧
      ∀ event ∈ events, ∃ id ∈ ws.map Prod.fst, event.payload.ingredient_id = some id := by
  induction h with
  | nil => exact ⟨[], (List.append_nil _).symm, by simp⟩
  | @snoc ws db₁ db₂ id purpose h hnew hwrite ih =>
    obtain ⟨events, hevents, habout⟩ := ih
    obtain ⟨events', hevents', habout'⟩ := hwrite.appended (h.keys hkeys)
    refine ⟨events ++ events', by rw [hevents', hevents, List.append_assoc], fun event hmem => ?_⟩
    rcases List.mem_append.mp hmem with hmem | hmem
    · obtain ⟨id', hid', heq⟩ := habout event hmem
      exact ⟨id', by simp [hid'], heq⟩
    · exact ⟨id, by simp, habout' event hmem⟩

/-- Writes append nothing about an order. Their payloads name an ingredient and no order. -/
theorem Writes.order_events (h : Writes db ws db') (hkeys : db.Keys) (order_id : ℕ) :
    db'.order_events order_id = db.order_events order_id := by
  obtain ⟨events, hevents, habout⟩ := h.appended hkeys
  have hnone : Events.about Payload.order_id order_id events = [] := by
    refine about_eq_nil fun event hevent => ?_
    obtain ⟨id, -, hid⟩ := habout event hevent
    rw [Payload.order_id_of_ingredient hid]
    exact Option.some_ne_none _ |>.symm
  unfold Branch.order_events
  rw [hevents, about_append, hnone, List.append_nil]

/-- Writes append nothing about another ingredient. Each event names the ingredient of the write
that appended it. -/
theorem Writes.ingredient_events_of_not_mem (h : Writes db ws db') (hkeys : db.Keys)
    (hid : id ∉ ws.map Prod.fst) : db'.ingredient_events id = db.ingredient_events id := by
  obtain ⟨events, hevents, habout⟩ := h.appended hkeys
  have hnone : Events.about Payload.ingredient_id id events = [] := by
    refine about_eq_nil fun event hevent heq => ?_
    obtain ⟨id', hmem, hid'⟩ := habout event hevent
    obtain rfl := Option.some.inj (hid'.symm.trans heq)
    exact hid hmem
  unfold Branch.ingredient_events
  rw [hevents, about_append, hnone, List.append_nil]

/-- Writes change each of their ingredients once, and append the events of the change. Writes of a
request are to different ingredients, so each of these finds its row as it was before the request.
-/
theorem Writes.ingredient_step (h : Writes db ws db') (hkeys : db.Keys) (hmem : (id, purpose) ∈ ws) :
    ∃ record' events episode_id, db.next_uuid ≤ episode_id ∧
      Keyed.lookup IngredientRecord.id id db'.ingredients = some record' ∧
      Change db.organization_id db.restaurant_id episode_id
        (Keyed.lookup IngredientRecord.id id db.ingredients) purpose record' events ∧
      db'.ingredient_events id = db.ingredient_events id ++ events := by
  induction h with
  | nil => simp at hmem
  | @snoc ws db₁ db₂ id' purpose' h hnew hwrite ih =>
    rcases List.mem_append.mp hmem with hmem | hmem
    · have hid : id ∈ ws.map Prod.fst := List.mem_map_of_mem hmem
      have hne : id ≠ id' := fun heq => hnew (heq ▸ hid)
      obtain ⟨record', events, episode_id, hfresh, hlookup, hchange, hevents⟩ := ih hmem
      refine ⟨record', events, episode_id, hfresh, ?_, hchange, ?_⟩
      · rw [hwrite.lookup_ne hne, hlookup]
      · rw [← hevents]
        exact hwrite.writes.ingredient_events_of_not_mem (h.keys hkeys) (by simpa using hne)
    · obtain ⟨rfl, rfl⟩ := Prod.mk.inj (List.mem_singleton.mp hmem)
      obtain ⟨record', events, hlookup, hchange, hevents, -⟩ := hwrite.change (h.keys hkeys)
      have habout := hchange.about
      rw [Keyed.lookup_key hlookup] at habout
      rw [h.lookup_of_not_mem hnew, h.frame.organization_id, h.frame.restaurant_id] at hchange
      refine ⟨record', events, _, h.frame.next_uuid, hlookup, hchange, ?_⟩
      rw [← h.ingredient_events_of_not_mem hkeys hnew]
      unfold Branch.ingredient_events
      rw [hevents, about_append, about_eq_self habout]

end Inventory

variable {db db' : Branch} {command : Command}

/-- What the rest of a command appends is not about an ingredient. -/
theorem Branch.Rest.ingredient_events {events : List (EventEnvelope Payload)}
    (h : db.Rest db' events) (hevents : ∀ event ∈ events, event.payload.ingredient_id = none)
    (id : ℕ) : db'.ingredient_events id = db.ingredient_events id := by
  have hnone : about Payload.ingredient_id id events = [] := by
    refine about_eq_nil fun event hevent => ?_
    rw [hevents event hevent]
    exact Option.some_ne_none _ |>.symm
  unfold Branch.ingredient_events
  rw [h.events, about_append, hnone, List.append_nil]

/-- The events of a new status are about the order. -/
theorem Orders.StatusEvents.about {before after : Order} {events : List (EventEnvelope Payload)}
    (h : StatusEvents before after events) :
    ∀ event ∈ events, event.payload.order_id = some after.order_id := by
  intro event hevent
  have hmem : event.payload ∈ events.map (·.payload) := List.mem_map_of_mem hevent
  rw [h.payloads] at hmem
  split_ifs at hmem
  · unfold status_payload at hmem
    split at hmem <;> simp_all [Payload.order_id]
  · simp at hmem

/-- What a request does to an ingredient: it leaves the rows and the events as they are, or it
changes the rows and appends the events of the change. -/
inductive Inventory.IngredientStep (db db' : Branch) (id : ℕ) : Prop
  | kept (hlookup : Keyed.lookup IngredientRecord.id id db'.ingredients =
        Keyed.lookup IngredientRecord.id id db.ingredients)
      (hevents : db'.ingredient_events id = db.ingredient_events id)
  | changed (purpose : Purpose) (record' : IngredientRecord) (events : List (EventEnvelope Payload))
      (episode_id : UUID) (hfresh : db.next_uuid ≤ episode_id)
      (hlookup : Keyed.lookup IngredientRecord.id id db'.ingredients = some record')
      (hchange : Change db.organization_id db.restaurant_id episode_id
        (Keyed.lookup IngredientRecord.id id db.ingredients) purpose record' events)
      (hevents : db'.ingredient_events id = db.ingredient_events id ++ events)

/-- An effect does to an ingredient what `IngredientStep` says. Exactly one of the writes, at most,
is about it. -/
theorem Effect.ingredient_step (h : Effect db command db') (hkeys : db.Keys) (id : ℕ) :
    IngredientStep db db' id := by
  -- Every effect is a list of writes, and a rest that appends nothing about an ingredient.
  have hmain : ∀ {ws db₁ events}, Writes db ws db₁ → db₁.Rest db' events →
      (∀ event ∈ events, event.payload.ingredient_id = none) → IngredientStep db db' id := by
    intro ws db₁ events hwrites hrest hnone
    have hevents := hrest.ingredient_events hnone id
    by_cases hid : id ∈ ws.map Prod.fst
    · obtain ⟨⟨id, purpose⟩, hmem, rfl⟩ := List.mem_map.mp hid
      obtain ⟨record', events', episode_id, hfresh, hlookup, hchange, happended⟩ :=
        hwrites.ingredient_step hkeys hmem
      refine .changed purpose record' events' episode_id hfresh ?_ hchange ?_
      · rw [hrest.ingredients, hlookup]
      · rw [hevents, happended]
    · refine .kept ?_ ?_
      · rw [hrest.ingredients, hwrites.lookup_of_not_mem hid]
      · rw [hevents, hwrites.ingredient_events_of_not_mem hkeys hid]
  have horder : ∀ {events : List (EventEnvelope Payload)} {order_id : ℕ},
      (∀ event ∈ events, event.payload.order_id = some order_id) →
        ∀ event ∈ events, event.payload.ingredient_id = none :=
    fun habout event hevent => Payload.ingredient_id_of_order (habout event hevent)
  cases h with
  | replayed => exact .kept rfl rfl
  | stock hcommand ws hwrites hdirect =>
    exact hmain hwrites ⟨rfl, rfl, rfl, rfl, le_rfl, (List.append_nil _).symm⟩ (by simp)
  | initialized hcommand hfresh ws hwrites hbaseline hcovered =>
    exact hmain hwrites ⟨rfl, rfl, rfl, rfl, le_rfl, (List.append_nil _).symm⟩ (by simp)
  | catalog hcommand events hrest hevents horders hnext hinitialized =>
    refine hmain .nil hrest fun event hevent => ?_
    obtain ⟨operation, target, id', menu_id, affected, hpayload⟩ := hevents event hevent
    rw [hpayload]
    rfl
  | order_created hcommand order hfresh hstatus hprocessed hrevision hrest =>
    exact hmain .nil hrest (by simp)
  | order_updated hcommand before after hlookup hupdated ws hwrites haccepts hother events hevents
      hrest => exact hmain hwrites hrest (horder hevents.about)
  | order_deleted hcommand order hlookup hhistory event hpayload hrevision hrest =>
    refine hmain .nil hrest (@horder _ order.order_id fun e he => ?_)
    rw [List.mem_singleton.mp he, hpayload]
    rfl

/-! ## Orders -/

/-- What a request does to an order, and the events about the order that it appends. An order that
the request does not touch has the same state and revision afterwards. -/
inductive Orders.OrderStep : Option Order → Option Order → List (EventEnvelope Payload) → Prop
  | absent : OrderStep none none []
  | created (order : Order) (hstatus : order.status = .DRAFT)
      (hprocessed : order.inventory_processed = false) (hrevision : order.revision = 1) :
    OrderStep none (some order) []
  | updated (before after : Order) (hupdated : Updated before after)
      (events : List (EventEnvelope Payload)) (hevents : StatusEvents before after events) :
    OrderStep (some before) (some after) events
  | deleted (order : Order) (event : EventEnvelope Payload)
      (hpayload : event.payload =
        .order_deleted order.order_id order.status order.total order.created_at)
      (hrevision : event.aggregate_revision = (order.revision + 1 : ℕ)) :
    OrderStep (some order) none [event]

/-- A request that leaves an order as it is. It is a step without an event, whatever the request
does elsewhere. -/
theorem Orders.OrderStep.kept (order : Option Order) : OrderStep order order [] := by
  cases order with
  | none => exact .absent
  | some order =>
    refine .updated order order ⟨rfl, rfl, Or.inl rfl, ?_, Or.inl ⟨rfl, rfl⟩, fun _ => rfl⟩ [] ⟨?_, ?_⟩
    · simp only [ne_eq, iff_self_or, and_imp]
      exact fun hne heq => absurd heq hne
    · rw [if_neg (not_not.mpr rfl), List.map_nil]
    · simp

/-- An effect does to an order what `OrderStep` says, and appends the events about it. -/
theorem Effect.order_step (h : Effect db command db') (hkeys : db.Keys)
    (horders : ∀ order ∈ db.orders, order.order_id < db.next_order_id) (id : ℕ) :
    ∃ events, db'.order_events id = db.order_events id ++ events ∧
      OrderStep (Keyed.lookup Order.order_id id db.orders) (Keyed.lookup Order.order_id id db'.orders)
        events := by
  -- Where the rows of the order and its events stay, it is kept.
  have hkept : Keyed.lookup Order.order_id id db'.orders = Keyed.lookup Order.order_id id db.orders →
      db'.order_events id = db.order_events id →
      ∃ events, db'.order_events id = db.order_events id ++ events ∧
        OrderStep (Keyed.lookup Order.order_id id db.orders)
          (Keyed.lookup Order.order_id id db'.orders) events := by
    intro hlookup hevents
    refine ⟨[], by rw [hevents, List.append_nil], ?_⟩
    rw [hlookup]
    exact .kept _
  have hrest : ∀ {ws db₁ events}, Writes db ws db₁ → db₁.Rest db' events →
      db'.order_events id = db.order_events id ++ about Payload.order_id id events := by
    intro ws db₁ events hwrites hrest
    rw [← hwrites.order_events hkeys id]
    unfold Branch.order_events
    rw [hrest.events, about_append]
  cases h with
  | replayed => exact hkept rfl rfl
  | stock hcommand ws hwrites hdirect =>
    exact hkept (by rw [hwrites.frame.orders]) (hwrites.order_events hkeys id)
  | @initialized hcommand hfresh ws db₁ hwrites hbaseline hcovered =>
    refine hkept ?_ (hwrites.order_events hkeys id)
    rw [show ({ db₁ with initialized := true } : Branch).orders = db₁.orders from rfl,
      hwrites.frame.orders]
  | catalog hcommand events hrest' hevents horders hnext hinitialized =>
    refine hkept (by rw [horders]) ?_
    rw [hrest .nil hrest', about_eq_nil, List.append_nil]
    intro event hevent
    obtain ⟨operation, target, id', menu_id, affected, hpayload⟩ := hevents event hevent
    rw [hpayload]
    exact Option.some_ne_none _ |>.symm
  | order_created hcommand order hfresh hstatus hprocessed hrevision hrest' horders' =>
    have hevents := hrest .nil hrest'
    rw [about_nil, List.append_nil] at hevents
    by_cases hid : order.order_id = id
    · have hnone : Keyed.lookup Order.order_id id db.orders = none := by
        refine Keyed.lookup_eq_none.mpr fun other hother => ?_
        have := horders other hother
        omega
      refine ⟨[], by rw [hevents, List.append_nil], ?_⟩
      rw [horders', Keyed.lookup_append, hnone, if_pos hid, Option.none_or]
      exact .created order hstatus hprocessed hrevision
    · refine hkept ?_ hevents
      rw [horders', Keyed.lookup_append, if_neg hid, Option.or_none]
  | order_updated hcommand before after hlookup hupdated ws hwrites haccepts hother events hevents
      hrest' horders' =>
    have happended := hrest hwrites hrest'
    by_cases hid : after.order_id = id
    · subst hid
      rw [about_eq_self hevents.about] at happended
      refine ⟨events, happended, ?_⟩
      rw [horders', hlookup, Keyed.lookup_put_self hlookup]
      exact .updated before after hupdated events hevents
    · rw [about_eq_nil, List.append_nil] at happended
      · refine hkept ?_ happended
        rw [horders', Keyed.lookup_put_ne (Ne.symm hid)]
      · intro event hevent heq
        rw [hevents.about event hevent] at heq
        exact hid (Option.some.inj heq)
  | order_deleted hcommand order hlookup hhistory event hpayload hrevision hrest' horders' =>
    have happended := hrest .nil hrest'
    have hsubject : event.payload.order_id = some order.order_id := by
      rw [hpayload]
      rfl
    by_cases hid : order.order_id = id
    · subst hid
      rw [about_eq_self (by simpa using hsubject)] at happended
      refine ⟨[event], happended, ?_⟩
      rw [horders', hlookup, Keyed.lookup_remove_self]
      exact .deleted order event hpayload hrevision
    · rw [about_eq_nil, List.append_nil] at happended
      · refine hkept ?_ happended
        rw [horders', Keyed.lookup_remove_ne (Ne.symm hid)]
      · simpa [hsubject] using hid

end RestaurantOS
