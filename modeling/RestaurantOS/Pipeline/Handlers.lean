import RestaurantOS.Alerts.Acceptance
import RestaurantOS.Events.Claiming
import RestaurantOS.Pipeline.Refinement

/-!
# The handlers accept the events of the restaurant

An event that the restaurant has emitted and a consumer has not handled yet is one that the handler of
the consumer accepts, at any time and in any order (`Refines.handles`): no constraint, no check and no
missing row makes it fail. So an execution that has claimed a delivery of the restaurant, and is not
interrupted while its lease lives, commits the effect (`handlers_accept`). -/

namespace RestaurantOS.Pipeline

open Fallible Events

/-- A setup in which the rows of the restaurant at the start meet the constraints of their tables. -/
structure GuardedSetup extends Setup where
  /-- `str.strip` leaves nothing of a blank text. -/
  strips : ∀ text, Inventory.blank text = true → lib.strip text = ""
  /-- The rows at the start. -/
  guarded : (start restaurant_id).toBranch.Guarded

/-- The small restaurant is one, with the functions of ASCII on texts. -/
theorem exists_guarded_setup (lib : Library) :
    ∃ setup : GuardedSetup, setup.toSetup = .small (StrippingLibrary.ascii lib).toLibrary := by
  obtain ⟨start, hstart⟩ := exists_guarded_small
  have hguarded : Branch.small.Guarded := hstart ▸ start.guarded
  exact ⟨{ Setup.small (StrippingLibrary.ascii lib).toLibrary with
    strips := (StrippingLibrary.ascii lib).strips
    guarded := hguarded }, rfl⟩

/-- The small setup is one, with the functions on texts of ASCII. -/
instance : Nonempty GuardedSetup :=
  (exists_guarded_setup (Classical.choice (inferInstance : Nonempty DigestLibrary)).1).nonempty

/-- The library functions of the commands. They are those of the setup, with the property that
blanks are stripped. -/
def GuardedSetup.stripping (setup : GuardedSetup) : StrippingLibrary := ⟨setup.lib, setup.strips⟩

namespace Refines

variable {setup : GuardedSetup} {now : Timestamp} {w : World} {h : History}
  {event : EventEnvelope Payload}

/-- The analytics handler accepts an event that it has subscribed to. -/
theorem analytics_handles (href : Refines setup.toSetup now w h)
    (hevent : event ∈ (setup.branch h.requests).events)
    (hsubscribed : .analytics ∈ SUBSCRIPTIONS event.event_type) :
    ∃ result, Analytics.apply_order_event event w.consumers.analytics = .ok result := by
  have hsound := Analytics.run_sound setup.lib setup.start setup.restaurant_id h.analytics
  have hfollows := hsound.follows
  unfold Analytics.Site.db at hfollows
  rw [show (Analytics.Site.run setup.lib setup.start setup.restaurant_id h.analytics).requests =
    h.requests from href.analytics.commands] at hfollows
  have hsales := run_sales setup.lib setup.start h.requests setup.restaurant_id
  have htype := (href.stored.enveloped event hevent).event_type
  obtain ⟨p', outcome, happly, -⟩ :=
    hfollows.apply hsales hevent (analytic_of_subscribed (htype ▸ hsubscribed))
  rw [← href.analytics.rows]
  exact ⟨_, happly⟩

/-- The handler of the alerts accepts an event that it has subscribed to. -/
theorem alerts_handles (href : Refines setup.toSetup now w h)
    (hevent : event ∈ (setup.branch h.requests).events)
    (hsubscribed : .alerts ∈ SUBSCRIPTIONS event.event_type) :
    ∃ result, Alerts.apply_alert_event (setup.branch h.requests) event w.consumers.alerts =
      .ok result := by
  have hsound := Alerts.run_sound setup.lib (legacy setup.start) setup.restaurant_id h.alerts
  have hmirrors := hsound.mirrors
  rw [show (Alerts.Site.run setup.lib (legacy setup.start) setup.restaurant_id h.alerts).requests =
    h.requests from href.alerts.commands] at hmirrors
  have htype := (href.stored.enveloped event hevent).event_type
  rw [← href.alerts.rows]
  exact @Alerts.accepts_event setup.stripping (legacy setup.start) setup.restaurant_id h.requests _
    setup.guarded hmirrors event (ingredient_of_subscribed (htype ▸ hsubscribed)) hevent

/-- The handler of the sink accepts an event that it has subscribed to and not handled yet. A low
event is accepted at any time; for any other one the primary key of the diagnostics must be free,
which it is as long as the event has not been handled. -/
theorem sink_handles (href : Refines setup.toSetup now w h)
    (hevent : event ∈ (setup.branch h.requests).events)
    (hsubscribed : .notification_sink ∈ SUBSCRIPTIONS event.event_type)
    (hnew : (event.event_id, .notification_sink) ∉ w.worker.database.effects) (time : Timestamp) :
    ∃ result, Notifications.apply_notification_event (setup.branch h.requests) time event
      w.consumers.sink = .ok result := by
  have hsound := Notifications.run_sound setup.lib (legacy setup.start) setup.restaurant_id h.sink
  have hdb : (setup.sink_site h.sink).db setup.lib (legacy setup.start) setup.restaurant_id =
      setup.branch h.requests := by
    unfold Notifications.Site.db
    rw [href.sink.commands]
    rfl
  have htype := (href.stored.enveloped event hevent).event_type
  have hprocessed := href.sink.processed
  have hemitted : event ∈ ((setup.sink_site h.sink).db setup.lib (legacy setup.start)
      setup.restaurant_id).events := by
    rw [hdb]
    exact hevent
  -- The sink of the pipeline is that of a site of its own module.
  rw [← href.sink.rows, ← hdb]
  refine hsound.handles hemitted (htype ▸ hsubscribed) (fun hmem => hnew ?_) time
  -- A diagnostic row with its key is that of an event that has been handled, which is this one.
  rw [Notifications.run_diagnostics setup.lib (legacy setup.start) setup.restaurant_id h.sink] at hmem
  obtain ⟨other, hother, hid⟩ := List.mem_map.mp hmem
  have hother := (List.mem_filter.mp hother).1
  have hsame := href.stored.unique.eq_of_key (hprocessed.emitted other hother) hevent hid
  rw [hsame] at hother
  exact (hprocessed.committed event hevent).mp hother

/-- The handler of a consumer accepts an event that it has subscribed to and not handled yet. -/
theorem handles (href : Refines setup.toSetup now w h) (hevent : event ∈ (w.db setup.toSetup).events)
    {consumer : ConsumerName} (hsubscribed : consumer ∈ SUBSCRIPTIONS event.event_type)
    (hnew : (event.event_id, consumer) ∉ w.worker.database.effects) (time : Timestamp) :
    ∃ consumers outcome, handle (w.db setup.toSetup) time event w.consumers consumer =
      .ok (consumers, outcome) := by
  rw [href.db_eq] at hevent ⊢
  cases consumer with
  | analytics =>
    obtain ⟨result, happly⟩ := href.analytics_handles hevent hsubscribed
    exact ⟨_, _, bind_eq_ok.mpr ⟨result, happly, rfl⟩⟩
  | alerts =>
    obtain ⟨result, happly⟩ := href.alerts_handles hevent hsubscribed
    exact ⟨_, _, bind_eq_ok.mpr ⟨result, happly, rfl⟩⟩
  | notification_sink =>
    obtain ⟨result, happly⟩ := href.sink_handles hevent hsubscribed hnew time
    exact ⟨_, _, bind_eq_ok.mpr ⟨result, happly, rfl⟩⟩

/-- An execution that has claimed a delivery of the restaurant commits the effect, if it is not
interrupted and its lease lives. The handler accepts the event, and the receipt and the rows are
committed together. -/
theorem effect_commits (href : Refines setup.toSetup now w h) {execution : ℕ}
    {settings : ServiceSettings} {claim : AttemptClaim Payload} {r : DeliveryRecord}
    (hphase : w.worker.phase execution = some (.claimed settings claim))
    (hown : claim.event.restaurant_id = (w.db setup.toSetup).restaurant_id)
    (hr : r ∈ w.worker.database.deliveries) (hroute : r.route = claim.route)
    (howned : r.owned_by claim = true)
    (hlease : ∃ expires, r.delivery.claim_expires_at = some expires ∧ w.worker.now < expires)
    (hregistry : settings.registry claim.consumer = true) (other : HandlerResult) :
    (w.effect setup.toSetup execution none other .committed).worker.database.effects =
      w.worker.database.effects ++ [claim.route] := by
  have hdecoded := href.worker_decoded execution settings claim hphase
  -- A claim carries the event of a stored row, and the row is one of the restaurant.
  have hevent : claim.event ∈ (w.db setup.toSetup).events := by
    rw [href.db_eq]
    refine href.stored.claimed hdecoded ?_
    rw [hown, href.restaurant_id_eq]
  -- The delivery has no receipt, so its effect is not committed yet.
  have hnew : (claim.event.event_id, claim.consumer) ∉ w.worker.database.effects := by
    intro hmem
    obtain ⟨r', hlock, hstatus⟩ := href.worker_inv.database.succeeded_of_effect hmem
    have hsame := href.worker_inv.database.routes.eq_of_key (Keyed.lookup_mem hlock) hr
      ((Keyed.lookup_key hlock).trans hroute.symm)
    rw [hsame, of_decide_eq_true (Bool.and_eq_true_iff.mp howned).1] at hstatus
    cases hstatus
  -- So the handler returns, and the worker commits what it has returned.
  obtain ⟨consumers, outcome, hhandle⟩ :=
    href.handles hevent hdecoded.subscribed hnew w.worker.now
  have hcommits := Deployment.effect_commits href.worker_inv hphase hr hroute howned hlease hregistry
    outcome
  unfold World.effect
  rw [hphase]
  dsimp only
  rw [hhandle, if_pos hown]
  -- The consumers may have written rows or not; the worker is the same.
  split_ifs
  · exact hcommits
  · exact hcommits

end Refines

/-- In every state of the pipeline, the handler of a consumer accepts every event of the restaurant that
it has subscribed to and not handled yet, at any time; and an execution that has claimed a delivery of
the restaurant commits the effect and the delivery succeeds, if the execution is not interrupted and
its lease lives. -/
theorem handlers_accept (setup : GuardedSetup) (now : Timestamp) (acts : List Act) :
    let w := run setup.toSetup now acts
    let db := w.db setup.toSetup
    (∀ event ∈ db.events, ∀ consumer ∈ SUBSCRIPTIONS event.event_type,
      (event.event_id, consumer) ∉ w.worker.database.effects → ∀ time,
        ∃ consumers outcome, handle db time event w.consumers consumer = .ok (consumers, outcome)) ∧
    ∀ (execution : ℕ) (settings : ServiceSettings) (claim : AttemptClaim Payload) (r : DeliveryRecord),
      w.worker.phase execution = some (.claimed settings claim) →
      claim.event.restaurant_id = db.restaurant_id → settings.registry claim.consumer = true →
      w.worker.database.lock_delivery claim.route = some r → r.owned_by claim = true →
      (∃ expires, r.delivery.claim_expires_at = some expires ∧ w.worker.now < expires) →
      ∀ other, let database :=
          (step setup.toSetup w (.effect execution none other .committed)).worker.database
        database.effects = w.worker.database.effects ++ [claim.route] ∧
        ∃ r', database.lock_delivery claim.route = some r' ∧ r'.delivery.status = .succeeded := by
  intro w db
  obtain ⟨h, href⟩ : ∃ h, Refines setup.toSetup now w h := run_refines setup.toSetup now acts
  -- The first part is `handles`, for every refined state.
  refine ⟨fun event hevent consumer hsubscribed hnew time => href.handles hevent hsubscribed hnew time,
    fun execution settings claim r hphase hown hregistry hlock howned hlease other => ?_⟩
  have hr := Keyed.lookup_mem hlock
  have hcommits := href.effect_commits hphase hown hr (Keyed.lookup_key hlock) howned hlease hregistry
    other
  obtain ⟨h', href'⟩ := href.step (.effect execution none other .committed)
  -- With its effect committed a delivery has succeeded.
  refine ⟨hcommits, href'.worker_inv.database.succeeded_of_effect ?_⟩
  show claim.route ∈ (w.effect setup.toSetup execution none other .committed).worker.database.effects
  rw [hcommits]
  exact List.mem_append_right _ (List.mem_singleton_self _)

end RestaurantOS.Pipeline
