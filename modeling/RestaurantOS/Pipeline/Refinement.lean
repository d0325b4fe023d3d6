import RestaurantOS.Pipeline.System

/-!
# What a run of the pipeline is

A run of the pipeline is several runs at once (`History`): one of the commands, one of the worker
processes, and for each consumer one of the restaurant with the rows of that consumer, in which the
commands are the same. `Refines` says so of a state, and every action has its counterpart in each of
these runs (`step_refines`). What is proved of them then holds of the pipeline (`run_refines`).

What ties them together is the outbox: the rows of the restaurant in it are the events of its commands,
each with the deliveries that its type asks for (`Stored`), and the events that a consumer has processed
are those whose effect is committed (`Processed`). -/

namespace RestaurantOS.Pipeline

open Fallible Events

/-! ## The events of the restaurant in the outbox -/

/-- A decoded envelope has the restaurant of its row. It is copied from the column. -/
theorem restaurant_of_deserialize {π ρ : Type} {validate_python : OutboxEvent π → Validation ρ}
    {row : OutboxEvent π} {event : EventEnvelope ρ}
    (h : deserialize_event validate_python row = .ok event) :
    event.restaurant_id = row.restaurant_id := by
  unfold deserialize_event at h
  split at h
  · cases h
  · split_ifs at h
    split at h
    · cases h
      rfl
    · cases h
    · cases h

/-- The rows of a restaurant in the outbox are its events, each with its deliveries. -/
structure Stored (setup : Setup) (organization_id : UUID) (restaurant_id : ℕ)
    (events : List (EventEnvelope Payload)) (database : Database Fields) : Prop where
  /-- An event is that of the restaurant. -/
  enveloped : ∀ event ∈ events, Enveloped organization_id restaurant_id event
  /-- Its columns can hold it. -/
  storable : ∀ event ∈ events, Contract.storable event = true
  /-- Its key is its own. -/
  unique : Keyed.Unique EventEnvelope.event_id events
  /-- The keys of the rows are unique. -/
  rows : Keyed.Unique OutboxEvent.event_id database.events
  /-- An event has a row. -/
  stored : ∀ event ∈ events, ∃ traceparent, setup.outbox_event traceparent event ∈ database.events
  /-- A row of the restaurant is that of an event. -/
  own : ∀ row ∈ database.events, row.restaurant_id = restaurant_id →
    ∃ traceparent, ∃ event ∈ events, row = setup.outbox_event traceparent event
  /-- An event has one delivery for each consumer of its type. -/
  routes : ∀ event ∈ events, ∀ consumer,
    (event.event_id, consumer) ∈ database.deliveries.map DeliveryRecord.route ↔
      consumer ∈ SUBSCRIPTIONS event.event_type

/-- A consumer subscribes once. -/
theorem subscriptions_nodup (event_type : EventType) : (SUBSCRIPTIONS event_type).Nodup := by
  cases event_type <;> decide

namespace Setup

variable (setup : Setup) {organization_id : UUID} {restaurant_id : ℕ}
  {event : EventEnvelope Payload}

/-- The row of an event is decoded to the event. -/
theorem decodes (henveloped : Enveloped organization_id restaurant_id event)
    (hstorable : Contract.storable event = true) (traceparent : Option String) :
    deserialize_event setup.deployment.validate_python (setup.outbox_event traceparent event) =
      .ok event := by
  have hidentified : Contract.Identified event :=
    ⟨henveloped.event_type, henveloped.aggregate_type, henveloped.aggregate_id⟩
  exact Contract.deserialize_outbox_event setup.py hidentified henveloped.valid hstorable traceparent

end Setup

namespace Stored

variable {setup : Setup} {organization_id : UUID} {restaurant_id : ℕ}
  {events : List (EventEnvelope Payload)} {database database' : Database Fields}

/-- Only the rows and the routes matter. The other columns of a delivery say nothing about what was
appended. -/
theorem congr (h : Stored setup organization_id restaurant_id events database)
    (hevents : database'.events = database.events)
    (hroutes : database'.deliveries.map DeliveryRecord.route =
      database.deliveries.map DeliveryRecord.route) :
    Stored setup organization_id restaurant_id events database' := by
  refine ⟨h.enveloped, h.storable, h.unique, ?_, ?_, ?_, ?_⟩
  · rw [hevents]
    exact h.rows
  · rw [hevents]
    exact h.stored
  · rw [hevents]
    exact h.own
  · rw [hroutes]
    exact h.routes

/-- The key of a new row is not that of an event. -/
theorem ne_of_new (h : Stored setup organization_id restaurant_id events database) {event_id : UUID}
    (hnew : Keyed.lookup OutboxEvent.event_id event_id database.events = none)
    {event : EventEnvelope Payload} (hevent : event ∈ events) : event.event_id ≠ event_id := by
  rintro rfl
  obtain ⟨traceparent, hrow⟩ := h.stored event hevent
  exact Keyed.lookup_eq_none.mp hnew _ hrow rfl

/-- Inserting a row of another restaurant. The tables of the outbox are shared, and a foreign row
matters only by its key. -/
theorem foreign (h : Stored setup organization_id restaurant_id events database)
    {row : OutboxEvent Fields} (hrow : row.restaurant_id ≠ restaurant_id) (consumers : List ConsumerName)
    (now : Timestamp) :
    Stored setup organization_id restaurant_id events (database.persist row consumers now) := by
  by_cases hnodup : consumers.Nodup
  · -- The insertion fails on a key that exists.
    rcases database.persist_cases row hnodup now with ⟨-, hsame⟩ | ⟨hnew, hevents, hroutes⟩
    · rw [hsame]
      exact h
    refine ⟨h.enveloped, h.storable, h.unique, ?_, fun event hevent => ?_, fun row' hrow' hown => ?_,
      fun event hevent consumer => ?_⟩
    · rw [hevents]
      exact h.rows.append (Keyed.lookup_eq_none.mp hnew)
    · -- Each event of the restaurant still has its row.
      obtain ⟨traceparent, hmem⟩ := h.stored event hevent
      rw [hevents]
      exact ⟨traceparent, List.mem_append_left _ hmem⟩
    · rw [hevents] at hrow'
      rcases List.mem_append.mp hrow' with hold | hlast
      · exact h.own row' hold hown
      · rw [List.mem_singleton.mp hlast] at hown
        exact absurd hown hrow
    · -- A delivery of the new row is one of none of the restaurant's events.
      rw [hroutes, List.mem_append, ← h.routes event hevent consumer]
      refine or_iff_left fun hmem => ?_
      obtain ⟨other, -, hroute⟩ := List.mem_map.mp hmem
      exact h.ne_of_new hnew hevent (congrArg Prod.fst hroute).symm
  · -- A list of consumers with duplicates violates the constraint of the deliveries.
    unfold Database.persist
    rw [if_pos (Or.inr hnodup)]
    exact h

/-- Inserting an event of the restaurant with its deliveries. The row is the one `append_event`
builds, and the deliveries are those of the subscriptions of its type. -/
theorem append (h : Stored setup organization_id restaurant_id events database)
    (hinv : DatabaseInv setup.policy database) {event : EventEnvelope Payload}
    (henveloped : Enveloped organization_id restaurant_id event)
    (hstorable : Contract.storable event = true)
    (hnew : Keyed.lookup OutboxEvent.event_id event.event_id database.events = none)
    (traceparent : Option String) (now : Timestamp) :
    Stored setup organization_id restaurant_id (events ++ [event])
      (database.persist (setup.outbox_event traceparent event) (SUBSCRIPTIONS event.event_type)
        now) := by
  have hid : (setup.outbox_event traceparent event).event_id = event.event_id := rfl
  -- The key is new, so the insertion does not fail.
  rcases database.persist_cases (setup.outbox_event traceparent event)
    (subscriptions_nodup event.event_type) now with ⟨hold, -⟩ | ⟨-, hevents, hroutes⟩
  · rw [hid, hnew] at hold
    cases hold
  rw [hid] at hroutes
  refine ⟨fun other hother => ?_, fun other hother => ?_, ?_, ?_, fun other hother => ?_,
    fun row hrow hown => ?_, fun other hother consumer => ?_⟩
  · -- The fields are checked in the order of the structure, each for the old events and for the new
    -- one.
    rcases List.mem_append.mp hother with hold | hlast
    · exact h.enveloped other hold
    · rwa [List.mem_singleton.mp hlast]
  · rcases List.mem_append.mp hother with hold | hlast
    · exact h.storable other hold
    · rwa [List.mem_singleton.mp hlast]
  · exact h.unique.append fun other hother => h.ne_of_new hnew hother
  · rw [hevents]
    exact h.rows.append (hid ▸ Keyed.lookup_eq_none.mp hnew)
  · rw [hevents]
    rcases List.mem_append.mp hother with hold | hlast
    · obtain ⟨traceparent', hmem⟩ := h.stored other hold
      exact ⟨traceparent', List.mem_append_left _ hmem⟩
    · rw [List.mem_singleton.mp hlast]
      exact ⟨traceparent, List.mem_append_right _ List.mem_cons_self⟩
  · rw [hevents] at hrow
    rcases List.mem_append.mp hrow with hold | hlast
    · obtain ⟨traceparent', other, hother, hrow⟩ := h.own row hold hown
      exact ⟨traceparent', other, List.mem_append_left _ hother, hrow⟩
    · exact ⟨traceparent, event, List.mem_append_right _ List.mem_cons_self, List.mem_singleton.mp hlast⟩
  · -- The routes of the old events stay, and those of the new one are its subscriptions.
    rw [hroutes, List.mem_append]
    rcases List.mem_append.mp hother with hold | hlast
    · rw [← h.routes other hold consumer]
      refine or_iff_left fun hmem => ?_
      obtain ⟨consumer', -, hroute⟩ := List.mem_map.mp hmem
      exact h.ne_of_new hnew hold (congrArg Prod.fst hroute).symm
    · -- No delivery refers to the key of the new event.
      obtain rfl := List.mem_singleton.mp hlast
      have hnone : (other.event_id, consumer) ∉ database.deliveries.map DeliveryRecord.route := by
        intro hmem
        obtain ⟨r, hr, hroute⟩ := List.mem_map.mp hmem
        have hevent := hinv.events r hr
        rw [show r.delivery.event_id = other.event_id from congrArg Prod.fst hroute, hnew] at hevent
        cases hevent
      rw [or_iff_right hnone, List.mem_map]
      constructor
      · rintro ⟨consumer', hsubscribed, hroute⟩
        rwa [← show consumer' = consumer from congrArg Prod.snd hroute]
      · exact fun hsubscribed => ⟨consumer, hsubscribed, rfl⟩

/-- The event of a claim for the restaurant is one of its events. -/
theorem claimed (h : Stored setup organization_id restaurant_id events database)
    {claim : AttemptClaim Payload} (hclaim : claim.Decoded setup.deployment database)
    (hown : claim.event.restaurant_id = restaurant_id) : claim.event ∈ events := by
  obtain ⟨row, hrow, hdecoded⟩ := hclaim.event
  have hrestaurant : row.restaurant_id = restaurant_id :=
    (restaurant_of_deserialize hdecoded).symm.trans hown
  obtain ⟨traceparent, event, hevent, rfl⟩ := h.own row hrow hrestaurant
  have hdecodes := setup.decodes (h.enveloped event hevent) (h.storable event hevent) traceparent
  rwa [Except.ok.inj (hdecoded.symm.trans hdecodes)]

/-- The key of the event of another claim is not that of an event. -/
theorem claimed_other (h : Stored setup organization_id restaurant_id events database)
    {claim : AttemptClaim Payload} (hclaim : claim.Decoded setup.deployment database)
    (hother : claim.event.restaurant_id ≠ restaurant_id) {event : EventEnvelope Payload}
    (hevent : event ∈ events) : event.event_id ≠ claim.event.event_id := by
  intro hid
  obtain ⟨row, hrow, hdecoded⟩ := hclaim.event
  obtain ⟨traceparent, hstored⟩ := h.stored event hevent
  have hsame : row = setup.outbox_event traceparent event :=
    h.rows.eq_of_key hrow hstored ((deserialize_event_ok hdecoded).1.symm.trans hid.symm)
  refine hother ?_
  rw [restaurant_of_deserialize hdecoded, hsame]
  exact (h.enveloped event hevent).restaurant_id

end Stored

/-! ## Inserting the events of a command -/

/-- The action that stores an event. It is what the transaction of a command adds to the run of the
worker system. -/
def announce (setup : Setup) (traceparent : Option String) (lag : ℕ)
    (event : EventEnvelope Payload) : Events.Act Fields :=
  .persist (setup.outbox_event traceparent event) (SUBSCRIPTIONS event.event_type) lag

/-- Storing events is a run of the worker system. Each event is one `persist` of that system, under
the clock of the transaction. -/
theorem store_eq_run (setup : Setup) (w : World) (traceparent : Option String) (lag : ℕ)
    (events : List (EventEnvelope Payload)) :
    ({ w.worker with
        database := events.foldl (w.append_event setup traceparent lag) w.worker.database } :
        Events.World Fields Payload) =
      Transition.run setup.deployment.step w.worker (events.map (announce setup traceparent lag)) := by
  -- The clock stands still, so the induction on the events can be done with any worker of that
  -- clock.
  have hgeneral : ∀ worker : Events.World Fields Payload, worker.now = w.worker.now →
      ({ worker with
          database := events.foldl (w.append_event setup traceparent lag) worker.database } :
          Events.World Fields Payload) =
        Transition.run setup.deployment.step worker (events.map (announce setup traceparent lag)) := by
    induction events with
    | nil => exact fun worker _ => rfl
    | cons event events ih =>
      intro worker hnow
      have hstep : setup.deployment.step worker (announce setup traceparent lag event) =
          { worker with database := w.append_event setup traceparent lag worker.database event } := by
        unfold World.append_event
        rw [← hnow]
        rfl
      rw [List.map_cons, Transition.run_cons, List.foldl_cons, hstep]
      exact ih { worker with
        database := w.append_event setup traceparent lag worker.database event } hnow
  exact hgeneral w.worker rfl

/-- Storing the events of a command, whose keys are new. The induction is on the events; the keys
that are left stay new as they are distinct. -/
theorem Stored.store {setup : Setup} {organization_id : UUID} {restaurant_id : ℕ} {w : World}
    {traceparent : Option String} {lag : ℕ} {database : Database Fields}
    {events new : List (EventEnvelope Payload)}
    (h : Stored setup organization_id restaurant_id events database)
    (hinv : DatabaseInv setup.policy database)
    (henveloped : ∀ event ∈ new, Enveloped organization_id restaurant_id event)
    (hstorable : ∀ event ∈ new, Contract.storable event = true)
    (hnodup : (new.map EventEnvelope.event_id).Nodup)
    (hnew : ∀ event ∈ new,
      Keyed.lookup OutboxEvent.event_id event.event_id database.events = none) :
    Stored setup organization_id restaurant_id (events ++ new)
        (new.foldl (w.append_event setup traceparent lag) database) ∧
      (new.foldl (w.append_event setup traceparent lag) database).effects = database.effects := by
  induction new generalizing events database with
  | nil =>
    rw [List.append_nil]
    exact ⟨h, rfl⟩
  | cons event new ih =>
    have hfirst := List.mem_cons_self (a := event) (l := new)
    obtain ⟨hnotin, hnodup'⟩ := List.nodup_cons.mp hnodup
    have happend := h.append hinv (henveloped event hfirst) (hstorable event hfirst)
      (hnew event hfirst) traceparent (w.worker.now - lag)
    have hinv' := hinv.persist (setup.outbox_event traceparent event)
      (SUBSCRIPTIONS event.event_type) (w.worker.now - lag)
    -- The other keys are still new, since an event that is inserted takes no key but its own.
    have hrest : ∀ other ∈ new, Keyed.lookup OutboxEvent.event_id other.event_id
        (w.append_event setup traceparent lag database event).events = none := by
      intro other hother
      have hid : (setup.outbox_event traceparent event).event_id = event.event_id := rfl
      have hne : (setup.outbox_event traceparent event).event_id ≠ other.event_id := by
        rw [hid]
        exact fun heq => hnotin (heq ▸ List.mem_map_of_mem hother)
      have hold := hnew other (List.mem_cons_of_mem _ hother)
      unfold World.append_event
      rcases database.persist_cases (setup.outbox_event traceparent event)
        (subscriptions_nodup event.event_type) (w.worker.now - lag) with ⟨-, hsame⟩ | ⟨-, hevents, -⟩
      · rw [hsame, hold]
      · rw [hevents, Keyed.lookup_append, hold, if_neg hne]
        rfl
    obtain ⟨hstored, heffects⟩ := ih happend hinv'
      (fun other hother => henveloped other (List.mem_cons_of_mem _ hother))
      (fun other hother => hstorable other (List.mem_cons_of_mem _ hother)) hnodup' hrest
    rw [List.append_assoc] at hstored
    exact ⟨hstored, heffects.trans (Database.effects_persist _ _ _ _)⟩

/-! ## The events that a consumer has processed -/

/-- The events that a consumer has processed are those whose effect is committed, and each is there
once. -/
structure Processed (effects : List (UUID × ConsumerName)) (events : List (EventEnvelope Payload))
    (consumer : ConsumerName) (processed : List (EventEnvelope Payload)) : Prop where
  /-- They are events of the restaurant. -/
  emitted : ∀ event ∈ processed, event ∈ events
  /-- Their effects are committed. -/
  committed : ∀ event ∈ events, event ∈ processed ↔ (event.event_id, consumer) ∈ effects
  /-- Each is processed once. -/
  once : processed.Nodup

namespace Processed

variable {effects : List (UUID × ConsumerName)} {events processed : List (EventEnvelope Payload)}
  {consumer : ConsumerName}

/-- New events have not been processed. No effect of theirs is recorded, so the processed events are
the same. -/
theorem emit (h : Processed effects events consumer processed) {new : List (EventEnvelope Payload)}
    (hnew : ∀ event ∈ new, (event.event_id, consumer) ∉ effects) :
    Processed effects (events ++ new) consumer processed := by
  refine ⟨fun event hevent => List.mem_append_left _ (h.emitted event hevent),
    fun event hevent => ?_, h.once⟩
  rcases List.mem_append.mp hevent with hold | hlast
  · exact h.committed event hold
  · refine iff_of_false (fun hprocessed => ?_) (hnew event hlast)
    exact hnew event hlast ((h.committed event (h.emitted event hprocessed)).mp hprocessed)

/-- An effect for another consumer, or of an event of another restaurant, is none of these. -/
theorem other (h : Processed effects events consumer processed) {route : UUID × ConsumerName}
    (hroute : ∀ event ∈ events, (event.event_id, consumer) ≠ route) :
    Processed (effects ++ [route]) events consumer processed := by
  refine ⟨h.emitted, fun event hevent => ?_, h.once⟩
  rw [h.committed event hevent, List.mem_append, List.mem_singleton]
  exact (or_iff_left (hroute event hevent)).symm

/-- An effect that is committed for an event is its first. -/
theorem commit (h : Processed effects events consumer processed)
    (hunique : Keyed.Unique EventEnvelope.event_id events) {event : EventEnvelope Payload}
    (hevent : event ∈ events) (hfirst : (event.event_id, consumer) ∉ effects) :
    Processed (effects ++ [(event.event_id, consumer)]) events consumer (processed ++ [event]) := by
  refine ⟨fun other hother => ?_, fun other hother => ?_, ?_⟩
  · rcases List.mem_append.mp hother with hold | hlast
    · exact h.emitted other hold
    · rwa [List.mem_singleton.mp hlast]
  · rw [List.mem_append, List.mem_append, h.committed other hother, List.mem_singleton,
      List.mem_singleton, Prod.mk.injEq]
    refine or_congr_right ⟨fun hsame => ⟨congrArg EventEnvelope.event_id hsame, rfl⟩, fun hsame => ?_⟩
    exact hunique.eq_of_key hother hevent hsame.1
  · refine List.nodup_append.mpr ⟨h.once, List.nodup_singleton event, ?_⟩
    rintro other hother _ hlast rfl
    rw [List.mem_singleton.mp hlast] at hother
    exact hfirst ((h.committed event hevent).mp hother)

end Processed

/-! ## The refinement -/

/-- The runs that a run of the pipeline consists of. -/
structure History where
  /-- The commands. -/
  requests : List RestaurantOS.Act
  /-- The worker processes. -/
  worker : List (Events.Act Fields)
  /-- The restaurant with its analytics projection. -/
  analytics : List Analytics.Op
  /-- The restaurant with its alert projection. -/
  alerts : List Alerts.Op
  /-- The restaurant with its notification sink. -/
  sink : List Notifications.Op

/-! ### Handling an event is a step of a consumer -/

section Consumers

variable {lib : Library} {k : ℕ} {event : EventEnvelope Payload}

/-- Analytics has subscribed to the events that it can process. -/
theorem analytic_of_subscribed (h : .analytics ∈ SUBSCRIPTIONS event.payload.event_type) :
    Analytics.analytic event := by
  unfold Analytics.analytic
  generalize event.payload.event_type = event_type at h ⊢
  revert h
  cases event_type <;> decide

/-- The alerts have subscribed to the events about ingredients. -/
theorem ingredient_of_subscribed {payload : Payload}
    (h : .alerts ∈ SUBSCRIPTIONS payload.event_type) : payload.ingredient_id.isSome := by
  cases payload with
  | inventory_state_changed payload => rfl
  | inventory_low payload => rfl
  | _ => simp [Payload.event_type, SUBSCRIPTIONS] at h

/-- Handling an event is a step of the analytics projection. -/
theorem analytics_step {start : ℕ → NewBranch} {site : Analytics.Site}
    (hevent : event ∈ (site.db lib start k).events) (hanalytic : Analytics.analytic event)
    {projection : Analytics.Projection} {outcome : Analytics.Outcome}
    (happly : Analytics.apply_order_event event site.projection = .ok (projection, outcome)) :
    ∃ op, Analytics.Site.step lib start k site op =
      { site with
        projection := projection
        processed := site.processed ++ [event] } := by
  have hmem : event ∈ Analytics.analytic_events (site.db lib start k) :=
    List.mem_filter.mpr ⟨hevent, decide_eq_true hanalytic⟩
  obtain ⟨position, hposition⟩ := List.mem_iff_getElem?.mp hmem
  refine ⟨.process position, ?_⟩
  unfold Analytics.Site.step
  simp only
  rw [hposition]
  simp only
  rw [happly]

/-- Handling an event is a step of the alert projection. -/
theorem alerts_step {start : ℕ → LegacyBranch} {site : Alerts.Site}
    (hevent : event ∈ (site.db lib start k).events) (hsome : event.payload.ingredient_id.isSome)
    {projection : Alerts.AlertProjection} {outcome : Alerts.Outcome}
    (happly : Alerts.apply_alert_event (site.db lib start k) event site.projection =
      .ok (projection, outcome)) :
    ∃ op, Alerts.Site.step lib start k site op =
      { site with
        projection := projection
        processed := site.processed ++ [event] } := by
  have hmem : event ∈ Alerts.inventory_events (site.db lib start k) :=
    List.mem_filter.mpr ⟨hevent, hsome⟩
  obtain ⟨position, hposition⟩ := List.mem_iff_getElem?.mp hmem
  refine ⟨.process position, ?_⟩
  unfold Alerts.Site.step
  simp only
  rw [hposition]
  simp only
  rw [happly]

/-- Handling an event is a step of the sink. What the sink stores is what `apply_notification_event`
returns. -/
theorem sink_step {start : ℕ → LegacyBranch} {site : Notifications.Site}
    (hevent : event ∈ (site.db lib start k).events)
    (hsubscribed : .notification_sink ∈ SUBSCRIPTIONS event.payload.event_type) {now : Timestamp}
    {sink : Notifications.NotificationSink} {outcome : Alerts.Outcome}
    (happly : Notifications.apply_notification_event (site.db lib start k) now event site.sink =
      .ok (sink, outcome)) :
    ∃ op, Notifications.Site.step lib start k site op =
      { site with
        sink := sink
        processed := site.processed ++ [event] } := by
  obtain ⟨position, hposition⟩ := List.mem_iff_getElem?.mp hevent
  refine ⟨.process position now, ?_⟩
  unfold Notifications.Site.step
  simp only
  rw [hposition]
  simp only
  rw [if_pos hsubscribed, happly]

end Consumers

namespace Setup

variable (setup : Setup)

/-- The restaurant with its analytics projection after a run. -/
def analytics_site (ops : List Analytics.Op) : Analytics.Site :=
  Analytics.Site.run setup.lib setup.start setup.restaurant_id ops

/-- The restaurant with its alert projection after a run. -/
def alerts_site (ops : List Alerts.Op) : Alerts.Site :=
  Alerts.Site.run setup.lib (legacy setup.start) setup.restaurant_id ops

/-- The restaurant with its notification sink after a run. -/
def sink_site (ops : List Notifications.Op) : Notifications.Site :=
  Notifications.Site.run setup.lib (legacy setup.start) setup.restaurant_id ops

/-- The restaurant after the commands of a run. -/
def branch (requests : List RestaurantOS.Act) : Branch :=
  (RestaurantOS.run setup.lib (legacy setup.start) requests).rows setup.restaurant_id

/-- One more step of the analytics projection. -/
theorem analytics_site_concat (ops : List Analytics.Op) (op : Analytics.Op) :
    setup.analytics_site (ops ++ [op]) =
      Analytics.Site.step setup.lib setup.start setup.restaurant_id (setup.analytics_site ops) op :=
  Transition.run_concat _ _ ops op

/-- One more step of the alert projection. -/
theorem alerts_site_concat (ops : List Alerts.Op) (op : Alerts.Op) :
    setup.alerts_site (ops ++ [op]) =
      Alerts.Site.step setup.lib (legacy setup.start) setup.restaurant_id (setup.alerts_site ops) op :=
  Transition.run_concat _ _ ops op

/-- One more step of the sink. -/
theorem sink_site_concat (ops : List Notifications.Op) (op : Notifications.Op) :
    setup.sink_site (ops ++ [op]) =
      Notifications.Site.step setup.lib (legacy setup.start) setup.restaurant_id
        (setup.sink_site ops) op :=
  Transition.run_concat _ _ ops op

end Setup

/-- The rows of a consumer are where a run of its own leads, which has seen the commands. -/
structure Agrees {σ : Type} (setup : Setup) (database : Database Fields)
    (requests : List RestaurantOS.Act) (consumer : ConsumerName) (rows : σ)
    (seen : List RestaurantOS.Act) (site_rows : σ) (processed : List (EventEnvelope Payload)) :
    Prop where
  /-- The commands. -/
  commands : seen = requests
  /-- The rows. -/
  rows : site_rows = rows
  /-- The events. -/
  processed : Processed database.effects (setup.branch requests).events consumer processed

/-- A state of the pipeline is that of its history. -/
structure Refines (setup : Setup) (now : Timestamp) (w : World) (h : History) : Prop where
  /-- The commands. -/
  business : w.business = RestaurantOS.run setup.lib (legacy setup.start) h.requests
  /-- The worker processes. -/
  worker : w.worker = setup.deployment.run now h.worker
  /-- The outbox. -/
  stored : Stored setup (setup.start setup.restaurant_id).organization_id
    (setup.start setup.restaurant_id).restaurant_id (setup.branch h.requests).events
    w.worker.database
  /-- The analytics projection. -/
  analytics : Agrees setup w.worker.database h.requests .analytics w.consumers.analytics
    (setup.analytics_site h.analytics).requests (setup.analytics_site h.analytics).projection
    (setup.analytics_site h.analytics).processed
  /-- The alert projection. -/
  alerts : Agrees setup w.worker.database h.requests .alerts w.consumers.alerts
    (setup.alerts_site h.alerts).requests (setup.alerts_site h.alerts).projection
    (setup.alerts_site h.alerts).processed
  /-- The sink. -/
  sink : Agrees setup w.worker.database h.requests .notification_sink w.consumers.sink
    (setup.sink_site h.sink).requests (setup.sink_site h.sink).sink
    (setup.sink_site h.sink).processed

namespace Agrees

variable {σ : Type} {setup : Setup} {database database' : Database Fields}
  {requests : List RestaurantOS.Act} {consumer : ConsumerName} {rows rows' : σ}
  {seen : List RestaurantOS.Act} {site_rows : σ} {processed : List (EventEnvelope Payload)}

/-- Where no effect is committed, nothing is processed. -/
theorem congr (h : Agrees setup database requests consumer rows seen site_rows processed)
    (heffects : database'.effects = database.effects) :
    Agrees setup database' requests consumer rows seen site_rows processed :=
  ⟨h.commands, h.rows, heffects ▸ h.processed⟩

/-- An effect of another route leaves the consumer. -/
theorem other (h : Agrees setup database requests consumer rows seen site_rows processed)
    {route : UUID × ConsumerName} (heffects : database'.effects = database.effects ++ [route])
    (hroute : ∀ event ∈ (setup.branch requests).events, (event.event_id, consumer) ≠ route) :
    Agrees setup database' requests consumer rows seen site_rows processed :=
  ⟨h.commands, h.rows, heffects ▸ h.processed.other hroute⟩

end Agrees

/-- What running an effect does: it commits the effect of an event of the restaurant with the rows
that the handler has written, or it leaves the rows of the consumers. Which of the two depends on
the answer of the handler, on the restaurant and on the fate of the transaction. -/
theorem World.effect_spec (setup : Setup) (w : World) {execution : ℕ} {settings : ServiceSettings}
    {claim : AttemptClaim Payload}
    (hphase : w.worker.phase execution = some (.claimed settings claim))
    (interrupted : Option RaisedError) (other : HandlerResult) (fate : Fate) :
    ∃ handler, let worker := setup.deployment.effect w.worker execution handler fate
      (claim.event.restaurant_id = (w.db setup).restaurant_id ∧ ∃ consumers outcome,
        handle (w.db setup) w.worker.now claim.event w.consumers claim.consumer =
            .ok (consumers, outcome) ∧
          worker.database.effects ≠ w.worker.database.effects ∧
          w.effect setup execution interrupted other fate =
            { w with worker := worker, consumers := consumers }) ∨
      ((worker.database.effects = w.worker.database.effects ∨
          claim.event.restaurant_id ≠ (w.db setup).restaurant_id) ∧
        w.effect setup execution interrupted other fate = { w with worker := worker }) := by
  -- A handler that raises commits nothing.
  have hraised : ∀ error, (setup.deployment.effect w.worker execution (.raised error)
      fate).database.effects = w.worker.database.effects := by
    intro error
    rcases setup.deployment.effect_effects hphase (.raised error) fate with hsame | ⟨-, _, hreturned⟩
    · exact hsame
    · cases hreturned
  unfold World.effect
  rw [hphase]
  -- The execution is interrupted before or during its effect, or runs to its answer.
  cases interrupted with
  | some error =>
    refine ⟨.raised error, Or.inr ⟨Or.inl (hraised error), ?_⟩⟩
    dsimp only
    rw [if_neg fun hcommitted => hcommitted.2 (hraised error)]
  | none =>
    dsimp only
    -- The handler works on the rows of the restaurant that is followed; for another one its answer
    -- is any.
    by_cases hown : claim.event.restaurant_id = (w.db setup).restaurant_id
    · rw [if_pos hown]
      cases hhandle : handle (w.db setup) w.worker.now claim.event w.consumers claim.consumer with
      | error failure =>
        refine ⟨.raised (raised_error failure), Or.inr ⟨Or.inl (hraised _), ?_⟩⟩
        rw [if_neg fun hcommitted => hcommitted.2 (hraised _)]
        rfl
      | ok result =>
        refine ⟨handler_result (.ok result), ?_⟩
        -- An answer without a new effect was lost with its transaction.
        by_cases hsame : (setup.deployment.effect w.worker execution (handler_result (.ok result))
            fate).database.effects = w.worker.database.effects
        · exact Or.inr ⟨Or.inl hsame, by rw [if_neg fun hcommitted => hcommitted.2 hsame]⟩
        · exact Or.inl ⟨hown, result.1, result.2, rfl, hsame, by rw [if_pos ⟨hown, hsame⟩]⟩
    · rw [if_neg hown]
      refine ⟨other, Or.inr ⟨Or.inr hown, ?_⟩⟩
      rw [if_neg fun hcommitted => hown hcommitted.1]

namespace Refines

variable {setup : Setup} {now : Timestamp} {w : World} {h : History}

/-- The rows of the restaurant. -/
theorem db_eq (href : Refines setup now w h) : w.db setup = setup.branch h.requests := by
  unfold World.db Setup.branch
  rw [href.business]

/-- The restaurant is the one that is followed. -/
theorem restaurant_id_eq (href : Refines setup now w h) :
    (w.db setup).restaurant_id = (setup.start setup.restaurant_id).restaurant_id := by
  rw [href.db_eq]
  exact (run_enveloped setup.lib (legacy setup.start) h.requests setup.restaurant_id).2.1

/-- The invariant of the worker processes. -/
theorem worker_inv (href : Refines setup now w h) : WorldInv setup.deployment w.worker := by
  rw [href.worker]
  exact setup.deployment.run_inv now h.worker

/-- The claims are decoded. -/
theorem worker_decoded (href : Refines setup now w h) : w.worker.Decoded setup.deployment := by
  rw [href.worker]
  exact setup.deployment.run_decoded now h.worker

/-! ## Commands -/

/-- A command goes on. It reaches the four systems that are refined: the worker stores its events,
and the three consumers see the request. -/
theorem request (href : Refines setup now w h) (a : RestaurantOS.Act) (traceparent : Option String)
    (lag : ℕ) : ∃ h', Refines setup now (w.request setup a traceparent lag) h' := by
  unfold World.request
  dsimp only
  split_ifs with hadmits
  · obtain ⟨hstorable, hnodup, hnew⟩ := hadmits
    -- The events that the command has emitted.
    have hbusiness : w.business.step (system setup.lib) a =
        RestaurantOS.run setup.lib (legacy setup.start) (h.requests ++ [a]) := by
      rw [href.business]
      exact (Transition.run_concat _ _ h.requests a).symm
    obtain ⟨events, hevents⟩ :=
      run_events_append setup.lib (legacy setup.start) h.requests a setup.restaurant_id
    have hdrop : ((w.business.step (system setup.lib) a).rows setup.restaurant_id).events.drop
        (w.db setup).events.length = events := by
      rw [hbusiness, hevents, href.db_eq]
      exact List.drop_left
    rw [hdrop] at hstorable hnodup hnew ⊢
    have henveloped : ∀ event ∈ events, Enveloped (setup.start setup.restaurant_id).organization_id
        (setup.start setup.restaurant_id).restaurant_id event := by
      intro event hevent
      refine (run_enveloped setup.lib (legacy setup.start) (h.requests ++ [a])
        setup.restaurant_id).2.2 event ?_
      rw [hevents]
      exact List.mem_append_right _ hevent
    have hbranch : (setup.branch (h.requests ++ [a])).events =
        (setup.branch h.requests).events ++ events := hevents
    obtain ⟨hstored, heffects⟩ := @Stored.store _ _ _ w traceparent lag _ _ _ href.stored
      href.worker_inv.database henveloped hstorable hnodup hnew
    -- They have not been processed.
    have hfresh : ∀ consumer, ∀ event ∈ events,
        (event.event_id, consumer) ∉ w.worker.database.effects := by
      intro consumer event hevent hmem
      have hrow := href.worker_inv.database.effect_of_event hmem
      rw [hnew event hevent] at hrow
      cases hrow
    have hprocessed : ∀ {consumer processed}, Processed w.worker.database.effects
        (setup.branch h.requests).events consumer processed →
          Processed (events.foldl (w.append_event setup traceparent lag) w.worker.database).effects
            (setup.branch (h.requests ++ [a])).events consumer processed := by
      intro consumer processed hprocessed
      rw [hbranch, heffects]
      exact hprocessed.emit (hfresh consumer)
    -- The history of each of the four is extended, and each condition is read off its own step.
    refine ⟨⟨h.requests ++ [a], h.worker ++ events.map (announce setup traceparent lag),
      h.analytics ++ [.request a], h.alerts ++ [.request a], h.sink ++ [.request a]⟩,
      hbusiness, ?_, ?_, ?_, ?_, ?_⟩
    · show ({ w.worker with database := _ } : Events.World Fields Payload) = _
      rw [store_eq_run]
      unfold Deployment.run
      rw [Transition.run_append, href.worker]
      rfl
    · dsimp only
      rw [hbranch]
      exact hstored
    · rw [setup.analytics_site_concat]
      exact ⟨congrArg (· ++ [a]) href.analytics.commands, href.analytics.rows,
        hprocessed href.analytics.processed⟩
    · rw [setup.alerts_site_concat]
      exact ⟨congrArg (· ++ [a]) href.alerts.commands, href.alerts.rows,
        hprocessed href.alerts.processed⟩
    · rw [setup.sink_site_concat]
      exact ⟨congrArg (· ++ [a]) href.sink.commands, href.sink.rows,
        hprocessed href.sink.processed⟩
  · -- The database refuses the events, and with them the command.
    exact ⟨h, href⟩

/-! ## Worker processes -/

/-- An action of the worker processes that stores no event. -/
theorem moved (href : Refines setup now w h) {a : Events.Act Fields}
    (hpersist : ∀ event consumers lag, a ≠ .persist event consumers lag) :
    setup.deployment.step w.worker a = setup.deployment.run now (h.worker ++ [a]) ∧
      Stored setup (setup.start setup.restaurant_id).organization_id
        (setup.start setup.restaurant_id).restaurant_id (setup.branch h.requests).events
        (setup.deployment.step w.worker a).database := by
  have hevents := setup.deployment.step_outbox (w := w.worker) a hpersist
  have hstep := (setup.deployment.step_action href.worker_inv a).database
  refine ⟨?_, href.stored.congr hevents (hstep.routes href.worker_inv.database hevents)⟩
  rw [href.worker]
  exact (Transition.run_concat _ _ h.worker a).symm

/-- An action of the worker processes without an effect. The history gets no event that the
projections have not seen. -/
theorem worker_step (href : Refines setup now w h) (a : Events.Act Fields)
    (hallows : w.allows setup a = true) :
    ∃ h', Refines setup now { w with worker := setup.deployment.step w.worker a } h' := by
  have heffects : (setup.deployment.step w.worker a).database.effects =
      w.worker.database.effects := by
    refine setup.deployment.step_effects a ?_
    rintro execution handler fate rfl
    cases hallows
  have hmoved : setup.deployment.step w.worker a = setup.deployment.run now (h.worker ++ [a]) ∧
      Stored setup (setup.start setup.restaurant_id).organization_id
        (setup.start setup.restaurant_id).restaurant_id (setup.branch h.requests).events
        (setup.deployment.step w.worker a).database := by
    by_cases hpersist : ∃ event consumers lag, a = .persist event consumers lag
    · obtain ⟨event, consumers, lag, rfl⟩ := hpersist
      have hforeign : event.restaurant_id ≠ (setup.start setup.restaurant_id).restaurant_id := by
        rw [← href.restaurant_id_eq]
        exact of_decide_eq_true hallows
      refine ⟨?_, href.stored.foreign hforeign consumers _⟩
      rw [href.worker]
      exact (Transition.run_concat _ _ h.worker _).symm
    · exact href.moved fun event consumers lag heq => hpersist ⟨event, consumers, lag, heq⟩
  exact ⟨{ h with worker := h.worker ++ [a] }, href.business, hmoved.1, hmoved.2,
    href.analytics.congr heffects, href.alerts.congr heffects, href.sink.congr heffects⟩

/-- An action that stores no event and commits an effect of another restaurant. -/
theorem effect_other (href : Refines setup now w h) {a : Events.Act Fields}
    (hpersist : ∀ event consumers lag, a ≠ .persist event consumers lag)
    {route : UUID × ConsumerName}
    (heffects : (setup.deployment.step w.worker a).database.effects =
      w.worker.database.effects ++ [route])
    (hroute : ∀ event ∈ (setup.branch h.requests).events, event.event_id ≠ route.1) :
    ∃ h', Refines setup now { w with worker := setup.deployment.step w.worker a } h' := by
  obtain ⟨hworker, hstored⟩ := href.moved hpersist
  have hne : ∀ consumer, ∀ event ∈ (setup.branch h.requests).events,
      (event.event_id, consumer) ≠ route :=
    fun consumer event hevent heq => hroute event hevent (congrArg Prod.fst heq)
  exact ⟨{ h with worker := h.worker ++ [a] }, href.business, hworker, hstored,
    href.analytics.other heffects (hne .analytics), href.alerts.other heffects (hne .alerts),
    href.sink.other heffects (hne .notification_sink)⟩

/-- An action that stores no event and commits an effect of the restaurant with the rows that the
handler has written. One of the three consumers takes a step of its own, and the other two see an
effect that is none of theirs. -/
theorem effect_own (href : Refines setup now w h) {a : Events.Act Fields}
    (hpersist : ∀ event consumers lag, a ≠ .persist event consumers lag)
    {event : EventEnvelope Payload} {consumer : ConsumerName}
    (hevent : event ∈ (setup.branch h.requests).events)
    (hsubscribed : consumer ∈ SUBSCRIPTIONS event.event_type)
    (heffects : (setup.deployment.step w.worker a).database.effects =
      w.worker.database.effects ++ [(event.event_id, consumer)])
    {time : Timestamp} {consumers : Consumers} {outcome : EffectOutcome}
    (hhandle : handle (w.db setup) time event w.consumers consumer = .ok (consumers, outcome)) :
    ∃ h', Refines setup now
      { w with
        worker := setup.deployment.step w.worker a
        consumers := consumers } h' := by
  obtain ⟨hworker, hstored⟩ := href.moved hpersist
  have htype : event.event_type = event.payload.event_type :=
    (href.stored.enveloped event hevent).event_type
  -- No effect has been committed for the route.
  have hfirst : (event.event_id, consumer) ∉ w.worker.database.effects := by
    have hnodup := (setup.deployment.step_inv w.worker a href.worker_inv).database.effects_nodup
    rw [heffects] at hnodup
    exact fun hmem => (List.nodup_append.mp hnodup).2.2 _ hmem _ (List.mem_singleton_self _) rfl
  -- The event joins those that its consumer has processed.
  have hcommit : ∀ {processed}, Processed w.worker.database.effects (setup.branch h.requests).events
      consumer processed → Processed (setup.deployment.step w.worker a).database.effects
        (setup.branch h.requests).events consumer (processed ++ [event]) := by
    intro processed hprocessed
    rw [heffects]
    exact hprocessed.commit href.stored.unique hevent hfirst
  have hne : ∀ {consumer'}, consumer' ≠ consumer → ∀ other ∈ (setup.branch h.requests).events,
      (other.event_id, consumer') ≠ (event.event_id, consumer) :=
    fun hne other _ heq => hne (congrArg Prod.snd heq)
  rw [href.db_eq] at hhandle
  -- The cases are the consumers; each opens what `handle` has called for it.
  cases consumer with
  | analytics =>
    obtain ⟨⟨analytics, result⟩, happly, hpure⟩ := bind_eq_ok.mp hhandle
    obtain ⟨rfl, -⟩ := Prod.mk.inj (pure_eq_ok.mp hpure)
    rw [← href.analytics.rows] at happly
    have hmem : event ∈ ((setup.analytics_site h.analytics).db setup.lib setup.start
        setup.restaurant_id).events := by
      unfold Analytics.Site.db
      rw [href.analytics.commands]
      exact hevent
    obtain ⟨op, hop⟩ := analytics_step hmem (analytic_of_subscribed (htype ▸ hsubscribed)) happly
    refine ⟨{ h with worker := h.worker ++ [a], analytics := h.analytics ++ [op] }, href.business,
      hworker, hstored, ?_, href.alerts.other heffects (hne nofun),
      href.sink.other heffects (hne nofun)⟩
    rw [setup.analytics_site_concat, hop]
    exact ⟨href.analytics.commands, rfl, hcommit href.analytics.processed⟩
  | alerts =>
    obtain ⟨⟨alerts, result⟩, happly, hpure⟩ := bind_eq_ok.mp hhandle
    obtain ⟨rfl, -⟩ := Prod.mk.inj (pure_eq_ok.mp hpure)
    have hdb : (setup.alerts_site h.alerts).db setup.lib (legacy setup.start) setup.restaurant_id =
        setup.branch h.requests := by
      unfold Alerts.Site.db
      rw [href.alerts.commands]
      rfl
    rw [← href.alerts.rows, ← hdb] at happly
    obtain ⟨op, hop⟩ := alerts_step (by rw [hdb]; exact hevent)
      (ingredient_of_subscribed (htype ▸ hsubscribed)) happly
    refine ⟨{ h with worker := h.worker ++ [a], alerts := h.alerts ++ [op] }, href.business,
      hworker, hstored, href.analytics.other heffects (hne nofun), ?_,
      href.sink.other heffects (hne nofun)⟩
    rw [setup.alerts_site_concat, hop]
    exact ⟨href.alerts.commands, rfl, hcommit href.alerts.processed⟩
  | notification_sink =>
    obtain ⟨⟨sink, result⟩, happly, hpure⟩ := bind_eq_ok.mp hhandle
    obtain ⟨rfl, -⟩ := Prod.mk.inj (pure_eq_ok.mp hpure)
    have hdb : (setup.sink_site h.sink).db setup.lib (legacy setup.start) setup.restaurant_id =
        setup.branch h.requests := by
      unfold Notifications.Site.db
      rw [href.sink.commands]
      rfl
    rw [← href.sink.rows, ← hdb] at happly
    obtain ⟨op, hop⟩ := sink_step (by rw [hdb]; exact hevent) (htype ▸ hsubscribed) happly
    refine ⟨{ h with worker := h.worker ++ [a], sink := h.sink ++ [op] }, href.business,
      hworker, hstored, href.analytics.other heffects (hne nofun),
      href.alerts.other heffects (hne nofun), ?_⟩
    rw [setup.sink_site_concat, hop]
    exact ⟨href.sink.commands, rfl, hcommit href.sink.processed⟩

/-- An execution runs its effect. An effect of the restaurant is a step of its consumer, and an
effect of another restaurant touches only the worker. -/
theorem effect (href : Refines setup now w h) (execution : ℕ) (interrupted : Option RaisedError)
    (other : HandlerResult) (fate : Fate) :
    ∃ h', Refines setup now (w.effect setup execution interrupted other fate) h' := by
  have hpersist : ∀ handler event consumers lag,
      (.effect execution handler fate : Events.Act Fields) ≠ .persist event consumers lag :=
    fun _ _ _ _ heq => Events.Act.noConfusion rfl (heq_of_eq heq)
  -- Without a committed effect the consumers are as they were.
  have hkept : ∀ handler, (setup.deployment.effect w.worker execution handler fate).database.effects =
      w.worker.database.effects →
        ∃ h', Refines setup now
          { w with worker := setup.deployment.effect w.worker execution handler fate } h' := by
    intro handler heffects
    obtain ⟨hworker, hstored⟩ := href.moved (hpersist handler)
    exact ⟨{ h with worker := h.worker ++ [_] }, href.business, hworker, hstored,
      href.analytics.congr heffects, href.alerts.congr heffects, href.sink.congr heffects⟩
  -- Without a claim there is no effect to run.
  by_cases hclaimed : ∃ settings claim, w.worker.phase execution = some (.claimed settings claim)
  · obtain ⟨settings, claim, hphase⟩ := hclaimed
    have hdecoded := href.worker_decoded execution settings claim hphase
    have hrestaurant := href.restaurant_id_eq
    obtain ⟨handler, hcases⟩ := w.effect_spec setup hphase interrupted other fate
    have heffects := setup.deployment.effect_effects hphase handler fate
    -- The rows were written by the handler, or nothing of the restaurant was committed.
    rcases hcases with ⟨hown, consumers, outcome, hhandle, hne, heq⟩ | ⟨hnone, heq⟩
    · rw [heq]
      obtain ⟨hcommitted, -⟩ := heffects.resolve_left hne
      have hevent := href.stored.claimed hdecoded (hrestaurant ▸ hown)
      exact href.effect_own (hpersist handler) hevent hdecoded.subscribed hcommitted hhandle
    · rw [heq]
      -- The effect may still be one of another restaurant.
      rcases heffects with hsame | ⟨hcommitted, -⟩
      · exact hkept handler hsame
      · rcases hnone with hsame | hother
        · exact hkept handler hsame
        · rw [hrestaurant] at hother
          refine href.effect_other (hpersist handler) hcommitted fun event hevent => ?_
          exact href.stored.claimed_other hdecoded hother hevent
  · refine ⟨h, ?_⟩
    unfold World.effect
    split
    · rename_i settings claim hphase
      exact absurd ⟨settings, claim, hphase⟩ hclaimed
    · exact href

/-- A rebuild of the analytics projection. It is computed from the business tables, like a rebuild
on its own. -/
theorem rebuild_analytics (href : Refines setup now w h) :
    ∃ h', Refines setup now (w.rebuild_analytics setup) h' := by
  have hdb : (setup.analytics_site h.analytics).db setup.lib setup.start setup.restaurant_id =
      w.db setup := by
    unfold Analytics.Site.db
    rw [href.analytics.commands, href.db_eq]
    rfl
  unfold World.rebuild_analytics
  dsimp only
  split
  · rename_i analytics hrebuild
    refine ⟨{ h with analytics := h.analytics ++ [.rebuild] }, href.business, href.worker,
      href.stored, ?_, href.alerts, href.sink⟩
    rw [setup.analytics_site_concat]
    unfold Analytics.Site.step
    simp only
    rw [hdb, href.analytics.rows, hrebuild]
    exact ⟨href.analytics.commands, rfl, href.analytics.processed⟩
  · exact ⟨h, href⟩

/-- A rebuild of the alert projection. Its time is the one that the alerts are then dated with. -/
theorem rebuild_alerts (href : Refines setup now w h) (time : Timestamp) :
    ∃ h', Refines setup now (w.rebuild_alerts setup time) h' := by
  have hdb : (setup.alerts_site h.alerts).db setup.lib (legacy setup.start) setup.restaurant_id =
      w.db setup := by
    unfold Alerts.Site.db
    rw [href.alerts.commands, href.db_eq]
    rfl
  unfold World.rebuild_alerts
  dsimp only
  split
  · rename_i alerts hrebuild
    refine ⟨{ h with alerts := h.alerts ++ [.rebuild time] }, href.business, href.worker,
      href.stored, href.analytics, ?_, href.sink⟩
    rw [setup.alerts_site_concat]
    unfold Alerts.Site.step
    simp only
    rw [hdb, href.alerts.rows, hrebuild]
    exact ⟨href.alerts.commands, rfl, href.alerts.processed⟩
  · exact ⟨h, href⟩

/-! ## Runs -/

/-- Every step of the pipeline is a step of the runs that it consists of. -/
theorem step (href : Refines setup now w h) (a : Act) :
    ∃ h', Refines setup now (Pipeline.step setup w a) h' := by
  cases a with
  | request a traceparent lag => exact href.request a traceparent lag
  | worker a =>
    unfold Pipeline.step
    dsimp only
    split_ifs with hallows
    · exact href.worker_step a hallows
    · exact ⟨h, href⟩
  | effect execution interrupted other fate => exact href.effect execution interrupted other fate
  | rebuild_analytics => exact href.rebuild_analytics
  | rebuild_alerts time => exact href.rebuild_alerts time

end Refines

/-- The start of the pipeline is that of the runs that it consists of. -/
theorem initial_refines (setup : Setup) (now : Timestamp) :
    Refines setup now (initial setup now) ⟨[], [], [], [], []⟩ := by
  have hevents : (setup.branch []).events = [] := (setup.start setup.restaurant_id).legacy.events
  have hprocessed : ∀ consumer, Processed [] (setup.branch []).events consumer [] := by
    intro consumer
    rw [hevents]
    exact ⟨by simp, by simp, List.nodup_nil⟩
  refine ⟨rfl, rfl, ?_, ⟨rfl, rfl, hprocessed _⟩, ⟨rfl, rfl, hprocessed _⟩, ⟨rfl, rfl, hprocessed _⟩⟩
  rw [hevents]
  refine ⟨?_, ?_, List.nodup_nil, List.nodup_nil, ?_, ?_, ?_⟩
  all_goals exact fun _ hmem => absurd hmem List.not_mem_nil

/-- A run of the pipeline refines a run of the commands, one of the worker processes and one of each
consumer. -/
theorem run_refines (setup : Setup) (now : Timestamp) (acts : List Act) :
    ∃ h, Refines setup now (run setup now acts) h := by
  have hstep : ∀ (w : World) (a : Act), (∃ h, Refines setup now w h) →
      ∃ h, Refines setup now (Pipeline.step setup w a) h := by
    rintro w a ⟨h, href⟩
    exact href.step a
  have hinitial : ∃ h, Refines setup now (initial setup now) h :=
    ⟨⟨[], [], [], [], []⟩, initial_refines setup now⟩
  exact Transition.run_invariant hstep hinitial acts

end RestaurantOS.Pipeline
