import RestaurantOS.Pipeline.Refinement

/-!
# From a command to the rows of the consumers

What the consumers hold in a state of the pipeline, whatever became of the deliveries until then. An
event of the restaurant has a delivery for each consumer of its type, whose handler's rows are written
at most once; when the deliveries to a consumer have succeeded, its rows are those of the orders or of
the ingredients (`consumers_converge`). -/

namespace RestaurantOS.Pipeline

open Fallible Events

variable {setup : Setup} {now : Timestamp} {w : World} {h : History}

/-- The deliveries of the restaurant's events to a consumer have succeeded. -/
def World.delivered (setup : Setup) (w : World) (consumer : ConsumerName) : Prop :=
  ∀ event ∈ (w.db setup).events, ∀ r ∈ w.worker.database.deliveries,
    r.route = (event.event_id, consumer) → r.delivery.status = .succeeded

namespace Refines

/-- The effect of an event is committed when it is delivered. -/
theorem committed_of_delivered (href : Refines setup now w h) {consumer : ConsumerName}
    (hdelivered : w.delivered setup consumer) {event : EventEnvelope Payload}
    (hevent : event ∈ (setup.branch h.requests).events)
    (hsubscribed : consumer ∈ SUBSCRIPTIONS event.event_type) :
    (event.event_id, consumer) ∈ w.worker.database.effects := by
  have hroute := (href.stored.routes event hevent consumer).mpr hsubscribed
  obtain ⟨r, hr, hroute⟩ := List.mem_map.mp hroute
  rw [← hroute]
  refine href.worker_inv.database.effect_of_succeeded hr ?_
  exact hdelivered event (by rw [href.db_eq]; exact hevent) r hr hroute

/-- The type of an event is that of its payload. -/
theorem event_type_eq (href : Refines setup now w h) {event : EventEnvelope Payload}
    (hevent : event ∈ (setup.branch h.requests).events) :
    event.event_type = event.payload.event_type :=
  (href.stored.enveloped event hevent).event_type

/-! ## Analytics -/

/-- The totals are those of the completed orders when the deliveries to analytics have succeeded. -/
theorem analytics_authoritative (href : Refines setup now w h)
    (hdelivered : w.delivered setup .analytics) :
    (∀ day, w.consumers.analytics.daily day = Analytics.authoritative (w.db setup).orders day) ∧
      Analytics.reconcile (w.db setup).orders w.consumers.analytics = [] := by
  have hsound := Analytics.run_sound setup.lib setup.start setup.restaurant_id h.analytics
  have hfollows := hsound.follows
  unfold Analytics.Site.db at hfollows
  rw [show (Analytics.Site.run setup.lib setup.start setup.restaurant_id h.analytics).requests =
    h.requests from href.analytics.commands] at hfollows
  have hsales := run_sales setup.lib setup.start h.requests setup.restaurant_id
  have hdaily : ∀ day, w.consumers.analytics.daily day =
      Analytics.authoritative (w.db setup).orders day := by
    intro day
    rw [href.db_eq, ← href.analytics.rows]
    refine hfollows.authoritative hsales (fun event hevent => ?_) day
    obtain ⟨hmem, hanalytic⟩ := List.mem_filter.mp hevent
    have hsubscribed : .analytics ∈ SUBSCRIPTIONS event.event_type := by
      rw [href.event_type_eq hmem]
      rcases of_decide_eq_true hanalytic with htype | htype <;> rw [htype] <;> decide
    exact Or.inl ((href.analytics.processed.committed event hmem).mpr
      (href.committed_of_delivered hdelivered hmem hsubscribed))
  exact ⟨hdaily, Analytics.reconcile_eq_nil hdaily⟩

/-! ## Alerts -/

/-- The alert projection mirrors the ingredients, and has processed what was delivered. -/
theorem alerts_delivered (href : Refines setup now w h) (hdelivered : w.delivered setup .alerts)
    {event : EventEnvelope Payload}
    (hevent : event ∈ Alerts.inventory_events (setup.branch h.requests)) :
    event ∈ (setup.alerts_site h.alerts).processed := by
  obtain ⟨hmem, hsome⟩ := List.mem_filter.mp hevent
  have hsubscribed : .alerts ∈ SUBSCRIPTIONS event.event_type := by
    rw [href.event_type_eq hmem]
    cases hpayload : event.payload with
    | inventory_state_changed payload => exact List.mem_cons_self
    | inventory_low payload => exact List.mem_cons_self
    | _ =>
      rw [hpayload] at hsome
      cases hsome
  exact (href.alerts.processed.committed event hmem).mpr
    (href.committed_of_delivered hdelivered hmem hsubscribed)

/-- When the deliveries to the alerts have succeeded, the projected states are the live ones, and
the episodes about which somebody is told are there with the facts of the inventory. A succeeded
delivery has committed its effect, so the alert projection has processed every event of the
restaurant. -/
theorem alerts_live (href : Refines setup now w h) (hdelivered : w.delivered setup .alerts) :
    (∀ id, (w.db setup).ingredient_events id ≠ [] → ∃ row ∈ w.consumers.alerts.states, ∃ record,
      row.ingredient_id = id ∧
      Keyed.lookup Inventory.IngredientRecord.id id (w.db setup).ingredients = some record ∧
      Alerts.Shows row record) ∧
    ∀ episode ∈ Alerts.episodes (w.db setup), (episode.notification_suppressed = false ∨
      ∃ event ∈ Alerts.inventory_events (w.db setup),
        Inventory.Resolves event.payload episode.episode_id) →
      Alerts.AlertEpisode.of_facts episode ∈ w.consumers.alerts.episodes := by
  -- The projection is one that a site of its own module could have, and the theorems about sites
  -- apply.
  have hsound := Alerts.run_sound setup.lib (legacy setup.start) setup.restaurant_id h.alerts
  have hdb : (setup.alerts_site h.alerts).db setup.lib (legacy setup.start) setup.restaurant_id =
      setup.branch h.requests := by
    unfold Alerts.Site.db
    rw [href.alerts.commands]
    rfl
  -- All deliveries to the alerts have succeeded.
  have hall : ∀ event ∈ Alerts.inventory_events ((setup.alerts_site h.alerts).db setup.lib
      (legacy setup.start) setup.restaurant_id), event ∈ (setup.alerts_site h.alerts).processed := by
    rw [hdb]
    exact fun event => href.alerts_delivered hdelivered
  rw [href.db_eq, ← href.alerts.rows, ← hdb]
  refine ⟨fun id hevents => hsound.live hevents fun event hevent => hall event ?_,
    fun episode hepisode htold => hsound.episode hepisode hall htold⟩
  -- The events about one ingredient are among all events of the inventory.
  obtain ⟨hmem, hid⟩ := List.mem_filter.mp hevent
  refine List.mem_filter.mpr ⟨hmem, ?_⟩
  rw [of_decide_eq_true hid, Option.isSome_some]

/-! ## Notifications -/

/-- An episode has one stub at most, each comes from an event of the restaurant that has been
handled, and each other event that has been handled has one diagnostic row. The sink is one of a
site of its own module, whose processed events are those with a committed effect. -/
theorem sink_rows_once (href : Refines setup now w h) :
    Keyed.Unique Notifications.NotificationStub.episode_id w.consumers.sink.stubs ∧
    (∀ stub ∈ w.consumers.sink.stubs, ∃ event ∈ (w.db setup).events,
      Notifications.Opens event stub.episode_id ∧
        (event.event_id, .notification_sink) ∈ w.worker.database.effects) ∧
    (∀ event ∈ (w.db setup).events, (event.event_id, .notification_sink) ∈ w.worker.database.effects →
      (∀ episode_id, Notifications.Opens event episode_id →
        ∃ stub ∈ w.consumers.sink.stubs, stub.episode_id = episode_id) ∧
      (w.consumers.sink.diagnostics.map Notifications.EventDiagnostic.event_id).count event.event_id =
        if Notifications.diagnosed event then 1 else 0) := by
  have hsound := Notifications.run_sound setup.lib (legacy setup.start) setup.restaurant_id h.sink
  have hdiagnostics :=
    Notifications.run_diagnostics setup.lib (legacy setup.start) setup.restaurant_id h.sink
  have hprocessed := href.sink.processed
  rw [href.db_eq, ← href.sink.rows]
  refine ⟨hsound.sink.stubs, fun stub hstub => ?_, fun event hevent hcommitted => ?_⟩
  · -- A stub was told by a processed event, which has been emitted and committed.
    obtain ⟨event, hevent, hopens⟩ := hsound.told stub hstub
    have hemitted := hprocessed.emitted event hevent
    exact ⟨event, hemitted, hopens, (hprocessed.committed event hemitted).mp hevent⟩
  · -- An event with a committed effect has been processed.
    have hmem := (hprocessed.committed event hevent).mpr hcommitted
    refine ⟨hsound.stubbed event hmem, ?_⟩
    -- No two processed events share a key.
    have hkeys : ∀ event ∈ (setup.sink_site h.sink).processed,
        ∀ other ∈ (setup.sink_site h.sink).processed, event.event_id = other.event_id →
          event = other :=
      fun event hevent other hother =>
        href.stored.unique.eq_of_key (hprocessed.emitted event hevent)
          (hprocessed.emitted other hother)
    have hunique : (((setup.sink_site h.sink).processed.filter Notifications.diagnosed).map
        EventEnvelope.event_id).Nodup :=
      (hprocessed.once.filter _).map_on fun event hevent other hother =>
        hkeys event (List.mem_filter.mp hevent).1 other (List.mem_filter.mp hother).1
    unfold Setup.sink_site at hunique hmem hkeys ⊢
    -- Each key occurs once among the diagnostics, so counting is membership.
    rw [hdiagnostics, hunique.count]
    refine if_congr ?_ rfl rfl
    rw [List.mem_map]
    constructor
    · rintro ⟨other, hother, hid⟩
      obtain ⟨hother, hdiagnosed⟩ := List.mem_filter.mp hother
      rwa [hkeys other hother event hmem hid] at hdiagnosed
    · exact fun hdiagnosed => ⟨event, List.mem_filter.mpr ⟨hmem, hdiagnosed⟩, rfl⟩

end Refines

/-- The pipeline converges. In every state that commands, worker processes with lost, repeated or wrong
references, failures, crashes, replays and rebuilds lead to, an event that a command of the restaurant
has emitted has one delivery for each consumer of its type and none for another, and its handler's rows
are written at most once for each. When the deliveries to analytics have succeeded, the daily totals are
those of the completed orders, and reconciling finds no difference. When those to the alerts have, the
state of every ingredient that has emitted one is the live one, and the episodes that somebody is told
of have the facts of the inventory. In the sink an episode has one stub at most, and an event that has
been handled has its stub, or else one diagnostic row. -/
theorem consumers_converge (setup : Setup) (now : Timestamp) (acts : List Act) :
    let w := run setup now acts
    let db := w.db setup
    let database := w.worker.database
    (∀ event ∈ db.events, ∀ consumer,
      (database.deliveries.map DeliveryRecord.route).count (event.event_id, consumer) =
          (if consumer ∈ SUBSCRIPTIONS event.event_type then 1 else 0) ∧
        database.effects.count (event.event_id, consumer) ≤ 1) ∧
    (w.delivered setup .analytics →
      (∀ day, w.consumers.analytics.daily day = Analytics.authoritative db.orders day) ∧
        Analytics.reconcile db.orders w.consumers.analytics = []) ∧
    (w.delivered setup .alerts →
      (∀ id, db.ingredient_events id ≠ [] → ∃ row ∈ w.consumers.alerts.states, ∃ record,
        row.ingredient_id = id ∧
        Keyed.lookup Inventory.IngredientRecord.id id db.ingredients = some record ∧
        Alerts.Shows row record) ∧
      ∀ episode ∈ Alerts.episodes db, (episode.notification_suppressed = false ∨
        ∃ event ∈ Alerts.inventory_events db,
          Inventory.Resolves event.payload episode.episode_id) →
        Alerts.AlertEpisode.of_facts episode ∈ w.consumers.alerts.episodes) ∧
    Keyed.Unique Notifications.NotificationStub.episode_id w.consumers.sink.stubs ∧
    (∀ stub ∈ w.consumers.sink.stubs, ∃ event ∈ db.events,
      Notifications.Opens event stub.episode_id ∧
        (event.event_id, .notification_sink) ∈ database.effects) ∧
    (w.delivered setup .notification_sink →
      ∀ event ∈ db.events, .notification_sink ∈ SUBSCRIPTIONS event.event_type →
        (∀ episode_id, Notifications.Opens event episode_id →
          ∃ stub ∈ w.consumers.sink.stubs, stub.episode_id = episode_id) ∧
        (w.consumers.sink.diagnostics.map Notifications.EventDiagnostic.event_id).count
            event.event_id = if Notifications.diagnosed event then 1 else 0) := by
  intro w db database
  -- Everything is read off the histories that the run refines to.
  obtain ⟨h, href⟩ := run_refines setup now acts
  have hinv : DatabaseInv setup.policy database := href.worker_inv.database
  obtain ⟨hstubs, htold, hrows⟩ := href.sink_rows_once
  refine ⟨fun event hevent consumer => ⟨?_, hinv.effects_le_one _⟩, href.analytics_authoritative,
    href.alerts_live, hstubs, htold, fun hdelivered event hevent hsubscribed => ?_⟩
  · -- No two deliveries share a route, so counting is membership, and the routes are the
    -- subscriptions.
    have hroutes : (database.deliveries.map DeliveryRecord.route).Nodup := hinv.routes
    rw [hroutes.count]
    refine if_congr ?_ rfl rfl
    exact href.stored.routes event (href.db_eq ▸ hevent) consumer
  · -- A succeeded delivery has committed its effect.
    have hmem : event ∈ (setup.branch h.requests).events := href.db_eq ▸ hevent
    exact hrows event hevent (href.committed_of_delivered hdelivered hmem hsubscribed)

end RestaurantOS.Pipeline
