import RestaurantOS.Events.Handling
import RestaurantOS.Events.Unclaimed

/-!
# What can be done with a delivery

A delivery without a receipt is never stuck. Once it is due, routing a correct reference claims it, or
fails it where its cycle has no attempt left (`route_claims`, `route_limits`); a failed one can be
replayed, and is due again (`replay_restarts`); and the effect of a claim whose lease lives is committed
if its handler returns an outcome (`effect_commits`). -/

namespace RestaurantOS.Events

variable {π ρ : Type}

/-! ## Starting -/

namespace ConsumerExecutionService

variable (service : ConsumerExecutionService π ρ) {event : OutboxEvent π} {r : DeliveryRecord}
  {envelope : EventEnvelope ρ} {now : Timestamp}

/-- `_start` goes on with a delivery that is due, released if its claim has expired, unless the cycle of
an expired one has no attempt left. -/
theorem start_locked_of_due (hdue : r.Due now) (worker_id : String) (fresh : UUID) :
    ∃ released, (released = r ∨ released = r.release_expired now) ∧
      released.delivery.status = .pending ∧
      (r.delivery.attempt_count < service.policy.max_attempts →
        service.start_locked event r worker_id now fresh =
          service.start_attempt event released worker_id now fresh) ∧
      (service.policy.max_attempts ≤ r.delivery.attempt_count →
        service.start_locked event r worker_id now fresh =
            service.start_attempt event released worker_id now fresh ∨
          ∃ result, service.start_locked event r worker_id now fresh =
            some (released.fail_attempt_limit, .result result)) := by
  obtain ⟨hreceipt, hnext, hpending | ⟨hprocessing, hexpired⟩⟩ := hdue
  · -- A pending delivery passes the guards and goes on as it is.
    have hstart : service.start_locked event r worker_id now fresh =
        service.start_attempt event r worker_id now fresh := by
      unfold start_locked
      simp only [hreceipt, hpending, not_lt.mpr hnext, Option.isSome_none, Bool.false_eq_true,
        false_and, or_self, reduceCtorEq, if_false]
    exact ⟨r, Or.inl rfl, hpending, fun _ => hstart, fun _ => Or.inl hstart⟩
  · -- An expired claim is released first, unless the attempts are used up.
    refine ⟨r.release_expired now, Or.inr rfl, rfl, fun hcount => ?_, fun hcount => Or.inr ?_⟩
    · unfold start_locked
      simp only [hreceipt, hprocessing, not_lt.mpr hnext, hexpired, Option.isSome_none,
        Bool.false_eq_true, false_and, or_self, reduceCtorEq, if_false, if_true,
        if_neg (not_le.mpr hcount)]
    · refine ⟨⟨.durable_failure_acknowledged, true, some (safe_identifier event.correlation_id)⟩, ?_⟩
      unfold start_locked
      simp only [hreceipt, hprocessing, not_lt.mpr hnext, hexpired, Option.isSome_none,
        Bool.false_eq_true, false_and, or_self, reduceCtorEq, if_false, if_true, if_pos hcount]

/-- A delivery that is taken back, if it is, stays the same one with the same count of attempts. -/
theorem released_kept {released : DeliveryRecord}
    (h : released = r ∨ released = r.release_expired now) :
    released.id = r.id ∧ released.route = r.route ∧
      released.delivery.consumer_name = r.delivery.consumer_name ∧
      released.delivery.attempt_count = r.delivery.attempt_count := by
  rcases h with rfl | rfl
  · exact ⟨rfl, rfl, rfl, rfl⟩
  · exact ⟨rfl, rfl, rfl, rfl⟩

/-- `_start` decodes what `deserialize_event` accepts. -/
theorem decode_deserialized (hdecode : deserialize_event service.validate_python event = .ok envelope) :
    service.decode event = some (.ok envelope) := by
  unfold decode
  rw [hdecode]

/-- `_start` claims a delivery that is due, if its cycle has an attempt left, its event is decoded and
its consumer has subscribed and has a handler. -/
theorem start_locked_claims (hdue : r.Due now)
    (hcount : r.delivery.attempt_count < service.policy.max_attempts)
    (hdecode : deserialize_event service.validate_python event = .ok envelope)
    (hsubscribed : r.delivery.consumer_name ∈ SUBSCRIPTIONS envelope.event_type)
    (hregistry : service.registry r.delivery.consumer_name = true) (worker_id : String)
    (fresh : UUID) :
    ∃ row claim, service.start_locked event r worker_id now fresh = some (row, .claimed claim) ∧
      row.id = r.id ∧ row.route = r.route ∧ row.owned_by claim = true ∧ claim.event = envelope ∧
      claim.consumer = r.delivery.consumer_name ∧
      row.delivery.claim_expires_at = some (now + timedelta_seconds service.lease_seconds) := by
  -- The delivery goes on to the second half, where each check is passed.
  obtain ⟨released, hreleased, hstatus, hstart, -⟩ :=
    @start_locked_of_due _ _ service event r now hdue worker_id fresh
  obtain ⟨hid, hroute, hconsumer, hattempts⟩ := released_kept hreleased
  have hok := service.decode_deserialized hdecode
  let claim : AttemptClaim ρ :=
    { event := envelope, consumer := r.delivery.consumer_name, token := fresh,
      attempt_id := fresh + 1, attempt_number := released.next_attempt_number,
      retry_cycle := released.delivery.retry_cycle, replay_id := released.replay_identity,
      traceparent := event.traceparent }
  refine ⟨released.begin_attempt fresh (fresh + 1) worker_id now
    (now + timedelta_seconds service.lease_seconds) none, claim, ?_, hid, hroute, ?_, rfl, rfl, rfl⟩
  · -- The checks of the second half are those of the hypotheses.
    rw [hstart hcount]
    unfold start_attempt
    rw [hok]
    dsimp only
    rw [hconsumer, hattempts, if_neg (not_not.mpr hsubscribed), hregistry, if_neg (not_le.mpr hcount)]
    rfl
  · unfold DeliveryRecord.owned_by
    exact Bool.and_eq_true_iff.mpr ⟨decide_eq_true rfl, decide_eq_true rfl⟩

/-- It fails one whose cycle has no attempt left. No attempt is started, and the reference is
acknowledged. -/
theorem start_locked_limits (hdue : r.Due now)
    (hcount : service.policy.max_attempts ≤ r.delivery.attempt_count)
    (hdecode : deserialize_event service.validate_python event = .ok envelope)
    (hsubscribed : r.delivery.consumer_name ∈ SUBSCRIPTIONS envelope.event_type)
    (hregistry : service.registry r.delivery.consumer_name = true) (worker_id : String)
    (fresh : UUID) :
    ∃ row result, service.start_locked event r worker_id now fresh = some (row, .result result) ∧
      row.id = r.id ∧ row.route = r.route ∧ row.delivery.status = .failed := by
  obtain ⟨released, hreleased, hstatus, -, hstart⟩ :=
    @start_locked_of_due _ _ service event r now hdue worker_id fresh
  obtain ⟨hid, hroute, hconsumer, hattempts⟩ := released_kept hreleased
  have hok := service.decode_deserialized hdecode
  rcases hstart hcount with hstart | ⟨result, hstart⟩
  · refine ⟨released.fail_attempt_limit,
      ⟨.durable_failure_acknowledged, true, some (safe_identifier event.correlation_id)⟩, ?_, hid,
      hroute, rfl⟩
    rw [hstart]
    unfold start_attempt
    rw [hok]
    dsimp only
    rw [hconsumer, hattempts, if_neg (not_not.mpr hsubscribed), hregistry, if_pos hcount]
    rfl
  · exact ⟨_, _, hstart, hid, hroute, rfl⟩

end ConsumerExecutionService

/-- A delivery whose effect is committed has succeeded. -/
theorem DatabaseInv.succeeded_of_effect {policy : RetryPolicy} {db : Database π}
    (h : DatabaseInv policy db) {route : UUID × ConsumerName} (hroute : route ∈ db.effects) :
    ∃ r, db.lock_delivery route = some r ∧ r.delivery.status = .succeeded := by
  have hcount := List.count_pos_iff.mpr hroute
  rw [h.effects, List.countP_pos_iff] at hcount
  obtain ⟨r, hr, hmatch⟩ := hcount
  rw [Bool.and_eq_true, decide_eq_true_eq] at hmatch
  exact ⟨r, h.routes.lookup_eq_some.mpr ⟨hr, hmatch.1⟩, ((h.records r hr).receipt).mp hmatch.2⟩

/-! ## One delivery of the database -/

namespace Deployment

variable {deployment : Deployment π ρ} {w : World π ρ} {message : StreamMessage}
  {settings : ServiceSettings} {event : OutboxEvent π} {r : DeliveryRecord}
  {envelope : EventEnvelope ρ}

/-- What routing a reference to a delivery needs: the reference is that of the row, which is decoded,
and the consumer of the delivery has subscribed and has a handler. -/
structure Routable (deployment : Deployment π ρ) (w : World π ρ) (message : StreamMessage)
    (settings : ServiceSettings) (event : OutboxEvent π) (envelope : EventEnvelope ρ)
    (r : DeliveryRecord) : Prop where
  /-- The identifier of the reference. -/
  parses : deployment.parse_uuid (message.fields.event_id.getD "") = some event.event_id
  /-- The row. -/
  row : event ∈ w.database.events
  /-- The keys of the rows are unique. -/
  unique : Keyed.Unique OutboxEvent.event_id w.database.events
  /-- The other fields of the reference. -/
  same : deployment.reference_matches message.fields event = true
  /-- The delivery. -/
  delivery : r ∈ w.database.deliveries
  /-- It is one of the row. -/
  event_id : r.delivery.event_id = event.event_id
  /-- The envelope. -/
  decodes : deserialize_event deployment.validate_python event = .ok envelope
  /-- The subscription. -/
  subscribed : r.delivery.consumer_name ∈ SUBSCRIPTIONS envelope.event_type
  /-- The handler. -/
  registry : settings.registry r.delivery.consumer_name = true

/-- A row that is written over one with its key is one of the deliveries. -/
theorem mem_write {db : Database π} {r row : DeliveryRecord} (hr : r ∈ db.deliveries)
    (hid : row.id = r.id) : row ∈ (db.write (some row)).deliveries := by
  have hsome : (Keyed.lookup DeliveryRecord.id row.id db.deliveries).isSome := by
    unfold Keyed.lookup
    rw [List.find?_isSome]
    exact ⟨r, hr, decide_eq_true hid.symm⟩
  obtain ⟨old, hold⟩ := Option.isSome_iff_exists.mp hsome
  exact Keyed.lookup_mem (Keyed.lookup_put_self hold)

/-- What `_start` makes of a delivery, routing a reference to it leaves in the database. -/
theorem start_of_locked (hinv : WorldInv deployment w)
    (h : deployment.Routable w message settings event envelope r) {worker_id : String}
    {row : DeliveryRecord} {started : Started ρ}
    (hstart : (deployment.service settings).start_locked event r worker_id w.now
      w.database.next_uuid = some (row, started)) :
    deployment.start w.database w.now event.event_id r.delivery.consumer_name message.fields settings
      worker_id false =
        some ({ w.database.write (some row) with next_uuid := w.database.next_uuid + 2 }, started) := by
  have hevent : Keyed.lookup OutboxEvent.event_id event.event_id w.database.events = some event :=
    h.unique.lookup_eq_some.mpr ⟨h.row, rfl⟩
  have hlock : w.database.lock_delivery (event.event_id, r.delivery.consumer_name) = some r := by
    refine hinv.database.routes.lookup_eq_some.mpr ⟨h.delivery, ?_⟩
    unfold DeliveryRecord.route
    rw [h.event_id]
  unfold start
  rw [hevent]
  dsimp only
  rw [h.same, hlock]
  simp only [Bool.not_true, Bool.false_eq_true, if_false]
  rw [hstart]

/-- Routing a reference to a delivery that is due, and whose cycle has an attempt left, claims it. -/
theorem route_claims (hinv : WorldInv deployment w)
    (h : deployment.Routable w message settings event envelope r) (hdue : r.Due w.now)
    (hcount : r.delivery.attempt_count < deployment.policy.max_attempts) (worker_id : String) :
    let w' :=
      deployment.route w message r.delivery.consumer_name settings worker_id false .committed
    ∃ claim row, w'.phase w.executions.length = some (.claimed settings claim) ∧ claim.event = envelope ∧
      claim.consumer = r.delivery.consumer_name ∧ w'.now = w.now ∧ row ∈ w'.database.deliveries ∧
      row.route = r.route ∧ row.owned_by claim = true ∧
      row.delivery.claim_expires_at = some (w.now + timedelta_seconds settings.lease_seconds) := by
  obtain ⟨row, claim, hstart, hid, hroute, howned, hclaim, hconsumer, hlease⟩ :=
    (deployment.service settings).start_locked_claims hdue hcount h.decodes h.subscribed h.registry
      worker_id w.database.next_uuid
  refine ⟨claim, row, ?_⟩
  unfold route
  rw [h.parses]
  dsimp only
  rw [start_of_locked hinv h hstart]
  refine ⟨?_, hclaim, hconsumer, rfl, mem_write h.delivery hid, hroute, howned, hlease⟩
  unfold World.phase
  simp

/-- Routing a reference to one whose cycle has no attempt left fails it. -/
theorem route_limits (hinv : WorldInv deployment w)
    (h : deployment.Routable w message settings event envelope r) (hdue : r.Due w.now)
    (hcount : deployment.policy.max_attempts ≤ r.delivery.attempt_count) (worker_id : String) :
    let w' :=
      deployment.route w message r.delivery.consumer_name settings worker_id false .committed
    ∃ row, w'.now = w.now ∧ row ∈ w'.database.deliveries ∧ row.route = r.route ∧
      row.delivery.status = .failed := by
  obtain ⟨row, result, hstart, hid, hroute, hfailed⟩ :=
    (deployment.service settings).start_locked_limits hdue hcount h.decodes h.subscribed h.registry
      worker_id w.database.next_uuid
  refine ⟨row, ?_⟩
  unfold route
  rw [h.parses]
  dsimp only
  rw [start_of_locked hinv h hstart]
  exact ⟨rfl, mem_write h.delivery hid, hroute, hfailed⟩

/-- A failed delivery can be replayed, and is due again with all its attempts. -/
theorem replay_restarts (hinv : WorldInv deployment w) (hr : r ∈ w.database.deliveries)
    (hfailed : r.delivery.status = .failed) {operator reason : String}
    (hreason : deployment.strip reason ≠ "" ∧ reason.length ≤ 1000 ∧
      reason.toList.any (·.val < 32) = false) :
    let w' := deployment.step w (.replay r.id operator reason)
    ∃ row, w'.now = w.now ∧ row ∈ w'.database.deliveries ∧ row.route = r.route ∧ row.Due w.now ∧
      row.delivery.attempt_count = 0 := by
  -- A failed delivery has no receipt.
  have hreceipt : r.receipt = none := by
    rw [← Option.not_isSome_iff_eq_none, (hinv.database.records r hr).receipt, hfailed]
    exact nofun
  obtain ⟨event, hevent⟩ := Option.isSome_iff_exists.mp (hinv.database.events r hr)
  -- The reason passes the checks of the operator's request, and the delivery those of its state.
  have hreplay : replay_locked w.database.events
      (Keyed.lookup DeliveryRecord.id r.id w.database.deliveries) deployment.strip operator reason
      w.now w.database.next_uuid =
        .ok (r.start_cycle w.database.next_uuid operator (deployment.strip reason)
          event.correlation_id w.now) := by
    have hlookup := hinv.database.ids.lookup_eq_some.mpr ⟨hr, rfl⟩
    unfold replay_locked
    rw [if_neg (by simp [hreason.1, hreason.2.1, hreason.2.2]), hlookup]
    dsimp only
    rw [if_neg (by simp [hfailed, hreceipt]), hevent]
  refine ⟨r.start_cycle w.database.next_uuid operator (deployment.strip reason) event.correlation_id
    w.now, ?_⟩
  unfold step
  dsimp only
  rw [hreplay]
  exact ⟨rfl, mem_write hr rfl, rfl, ⟨hreceipt, le_rfl, Or.inl rfl⟩, rfl⟩

/-- The effect of a claim whose lease lives is committed if its handler returns an outcome. -/
theorem effect_commits (hinv : WorldInv deployment w) {execution : ℕ} {claim : AttemptClaim ρ}
    (hphase : w.phase execution = some (.claimed settings claim)) (hr : r ∈ w.database.deliveries)
    (hroute : r.route = claim.route) (howned : r.owned_by claim = true)
    (hlease : ∃ expires, r.delivery.claim_expires_at = some expires ∧ w.now < expires)
    (hregistry : settings.registry claim.consumer = true) (outcome : EffectOutcome) :
    (deployment.effect w execution (.returned outcome) .committed).database.effects =
      w.database.effects ++ [claim.route] := by
  obtain ⟨e, he, hphase'⟩ := Option.map_eq_some_iff.mp hphase
  have hclaim := (hinv.executions e (List.mem_of_getElem? he)).claim claim (by rw [hphase']; rfl)
  -- The claim owns the row, so the row is being processed under its token.
  obtain ⟨hstatus, htoken⟩ := Bool.and_eq_true_iff.mp howned
  have hstatus := of_decide_eq_true hstatus
  have htoken := of_decide_eq_true htoken
  have hrecord := hinv.database.records r hr
  have hreceipt : r.receipt = none := by
    rw [← Option.not_isSome_iff_eq_none, hrecord.receipt, hstatus]
    exact nofun
  -- The running attempt is that of the claim.
  have hattempt : r.has_attempt claim.attempt_id = true := by
    obtain ⟨a, hrunning, -, hsame, -⟩ := hrecord.processing hstatus
    have ha : a ∈ r.attempts :=
      (List.mem_filter.mp (hrunning ▸ List.mem_singleton_self a)).1
    have hid := hclaim.attempt r hr a ha (hsame.trans htoken)
    unfold DeliveryRecord.has_attempt
    rw [← hid, hrecord.attempt_ids.lookup_eq_some.mpr ⟨ha, rfl⟩]
    rfl
  obtain ⟨expires, hexpires, hlive⟩ := hlease
  -- The row is locked by its route.
  have hlock : w.database.lock_delivery claim.route = some r :=
    hinv.database.routes.lookup_eq_some.mpr ⟨hr, hroute⟩
  -- All guards of `_effect` are passed, so the row is written.
  have heffect : (deployment.service settings).effect (w.database.lock_delivery claim.route) claim w.now
      (.returned outcome) = .ok (some (r.commit_effect claim.attempt_id outcome w.now),
        ⟨.consumer_committed, true, some claim.event.correlation_id⟩) := by
    have hregistry : (deployment.service settings).registry claim.consumer = true := hregistry
    unfold ConsumerExecutionService.effect
    rw [hlock, Option.filter_some, if_pos howned]
    dsimp only
    rw [hexpires, Option.all_some, if_neg (by simpa using hlive), hregistry, hreceipt, hattempt]
    rfl
  unfold effect
  rw [hphase]
  dsimp only
  rw [heffect]
  show w.database.effects ++ [r.route] = _
  rw [hroute]

end Deployment

end RestaurantOS.Events
