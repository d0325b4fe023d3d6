import Mathlib.Data.Prod.Lex
import RestaurantOS.Events.Execution

/-!
# The relay's operations and the operator's replay

The fenced PostgreSQL operations of the transport worker (`worker_queries.py`) and
`EventOperatorService.replay`. `func.now()` is the time at which a transaction began; it is the
argument `now` of each operation here, while `clock` of `replay` is read under the row lock.
-/

namespace RestaurantOS.Events

/-- `DeliveryClaim`: what the relay keeps of a claimed delivery. -/
structure DeliveryClaim where
  /-- The claimed delivery. -/
  delivery_id : UUID
  /-- Its event. -/
  event_id : UUID
  /-- Its consumer. -/
  consumer_name : ConsumerName
  /-- The text of the event's type. -/
  event_type : String
  /-- The version of the event's contract. -/
  schema_version : ℤ
  /-- The correlation of the event. -/
  correlation_id : String
  /-- The claim token. -/
  claim_token : UUID
  /-- The claiming relay. -/
  claim_owner : String
  /-- The trace context of the event. -/
  traceparent : Option String

/-! ## `claim_due_deliveries` -/

/-- The route filter of the relay: the event's type is known and the consumer subscribed to it. -/
def subscribed_route {π : Type} (events : List (OutboxEvent π)) (d : EventDelivery) : Bool :=
  (Keyed.lookup OutboxEvent.event_id d.event_id events).any fun event =>
    (consumers_for event.event_type).any (d.consumer_name ∈ ·)

/-- The `WHERE` clause of `claim_due_deliveries`. A pending row that is due, not claimed, and not
published recently. -/
def claim_due {π : Type} (events : List (OutboxEvent π)) (republish_after_seconds : ℤ)
    (now : Timestamp) (r : DeliveryRecord) : Bool :=
  r.delivery.status = .pending && decide (r.delivery.next_attempt_at ≤ now) &&
    (r.delivery.claim_token.isNone || r.delivery.claim_expires_at.any (· ≤ now)) &&
    (r.delivery.published_at.isNone ||
      r.delivery.published_at.any (· ≤ now - timedelta_seconds republish_after_seconds)) &&
    subscribed_route events r.delivery

/-- The order of `claim_due_deliveries`. The earliest due first, and ties by creation and key. -/
def claim_order (a b : DeliveryRecord) : Prop :=
  toLex (a.delivery.next_attempt_at, toLex (a.delivery.created_at, a.delivery.id)) ≤
    toLex (b.delivery.next_attempt_at, toLex (b.delivery.created_at, b.delivery.id))

/-- Times and keys are compared in turn. -/
instance : DecidableRel claim_order := fun a b =>
  inferInstanceAs (Decidable
    (toLex (a.delivery.next_attempt_at, toLex (a.delivery.created_at, a.delivery.id)) ≤
      toLex (b.delivery.next_attempt_at, toLex (b.delivery.created_at, b.delivery.id))))

/-- The rows `claim_due_deliveries` selects: the due ones that no other transaction has locked, in
its order, at most `limit`. -/
def claim_rows {π : Type} (events : List (OutboxEvent π)) (deliveries : List DeliveryRecord)
    (republish_after_seconds : ℤ) (now : Timestamp) (limit : ℕ) (locked : List UUID) :
    List DeliveryRecord :=
  ((deliveries.filter fun r =>
    claim_due events republish_after_seconds now r && decide (r.id ∉ locked)).insertionSort
      claim_order).take limit

/-- The claim fields of a selected row are set. -/
def DeliveryRecord.relay_claim (r : DeliveryRecord) (token : UUID) (owner : String)
    (lease_seconds : ℤ) (now : Timestamp) : DeliveryRecord :=
  { r with delivery := r.delivery.set_claim token owner now (now + timedelta_seconds lease_seconds) }

/-- `claim_due_deliveries`: the rows after the claim. The selected rows draw the tokens `next_uuid`,
`next_uuid + 1`, … in their order. -/
def claim_due_deliveries {π : Type} (events : List (OutboxEvent π))
    (deliveries : List DeliveryRecord) (owner : String) (lease_seconds republish_after_seconds : ℤ)
    (now : Timestamp) (limit : ℕ) (locked : List UUID) (next_uuid : UUID) : List DeliveryRecord :=
  let ids := (claim_rows events deliveries republish_after_seconds now limit locked).map (·.id)
  deliveries.map fun r =>
    if r.id ∈ ids then r.relay_claim (next_uuid + ids.idxOf r.id) owner lease_seconds now else r

/-! ## `observe_publication` and `defer_claim_after_transport_failure` -/

/-- The `WHERE` clause of the two ownership-fenced updates. -/
def relay_owns (claim : DeliveryClaim) (now : Timestamp) (r : DeliveryRecord) : Bool :=
  r.id = claim.delivery_id && r.delivery.status = .pending &&
    r.delivery.claim_token = some claim.claim_token &&
    r.delivery.claim_owner = some claim.claim_owner &&
    r.delivery.claim_expires_at.any (now < ·)

/-- The update of `observe_publication`. The claim of the relay ends. -/
def DeliveryRecord.observe (r : DeliveryRecord) (now : Timestamp) : DeliveryRecord :=
  { r with delivery :=
      { r.delivery with published_at := some now, last_error_category := none }.clear_claim }

/-- `observe_publication`. Only the relay that holds the claim observes. -/
def observe_publication (deliveries : List DeliveryRecord) (claim : DeliveryClaim)
    (now : Timestamp) : List DeliveryRecord :=
  deliveries.map fun r => if relay_owns claim now r then r.observe now else r

/-- The update of `defer_claim_after_transport_failure`. The claim lasts until the transport is
tried again. -/
def DeliveryRecord.defer_claim (r : DeliveryRecord) (retry_after_ms : ℤ)
    (failure_category : ErrorCategory) (now : Timestamp) : DeliveryRecord :=
  { r with delivery :=
      { r.delivery with claim_expires_at := some (now + timedelta_milliseconds retry_after_ms),
                        last_error_category := some failure_category } }

/-- `defer_claim_after_transport_failure`. Only the relay that holds the claim defers it. -/
def defer_claim_after_transport_failure (deliveries : List DeliveryRecord) (claim : DeliveryClaim)
    (retry_after_ms : ℤ) (failure_category : ErrorCategory) (now : Timestamp) :
    List DeliveryRecord :=
  deliveries.map fun r =>
    if relay_owns claim now r then r.defer_claim retry_after_ms failure_category now else r

/-! ## `reset_observations_before` -/

/-- The `WHERE` clause of `reset_observations_before`. The row was published before Redis lost what
it had been told. -/
def reset_due (cutoff now : Timestamp) (r : DeliveryRecord) : Bool :=
  r.delivery.status = .pending && decide (r.delivery.next_attempt_at ≤ now) &&
    r.delivery.published_at.any (· ≤ cutoff) &&
    (r.delivery.claim_token.isNone || r.delivery.claim_expires_at.any (· ≤ now))

/-- The update of `reset_observations_before` on one selected row. -/
def DeliveryRecord.reset_observation (r : DeliveryRecord) : DeliveryRecord :=
  { r with delivery :=
      { r.delivery with published_at := none,
                        last_error_category := some .redis_stream_recovered }.clear_claim }

/-- The order of `reset_observations_before`. The earliest publication first, and ties by the key.
-/
def reset_order (a b : DeliveryRecord) : Prop :=
  toLex (a.delivery.published_at.getD 0, a.id) ≤ toLex (b.delivery.published_at.getD 0, b.id)

/-- Times and keys are compared in turn. -/
instance : DecidableRel reset_order := fun a b =>
  inferInstanceAs (Decidable
    (toLex (a.delivery.published_at.getD 0, a.id) ≤ toLex (b.delivery.published_at.getD 0, b.id)))

/-- The rows `reset_observations_before` selects. Rows that are locked are passed over. -/
def reset_rows (deliveries : List DeliveryRecord) (cutoff now : Timestamp) (limit : ℕ)
    (locked : List UUID) : List DeliveryRecord :=
  ((deliveries.filter fun r => reset_due cutoff now r && decide (r.id ∉ locked)).insertionSort
    reset_order).take limit

/-- `reset_observations_before`. They are due for publication again. -/
def reset_observations_before (deliveries : List DeliveryRecord) (cutoff now : Timestamp)
    (limit : ℕ) (locked : List UUID) : List DeliveryRecord :=
  let ids := (reset_rows deliveries cutoff now limit locked).map (·.id)
  deliveries.map fun r => if r.id ∈ ids then r.reset_observation else r

/-! ## `EventOperatorService.replay` -/

/-- What `replay` raises; each is a `ValueError`. The comments are the messages of the source. -/
inductive ReplayError
  /-- Replay reason must be 1–1000 characters without control characters. -/
  | invalid_reason
  /-- Delivery not found. -/
  | delivery_not_found
  /-- Replay requires exactly one failed delivery without a receipt. -/
  | not_replayable
  /-- Event not found. -/
  | event_not_found
  deriving DecidableEq, Repr

/-- The row after a replay: a new cycle that is due at once. -/
def DeliveryRecord.start_cycle (r : DeliveryRecord) (replay_id : UUID) (operator reason : String)
    (correlation_id : String) (clock : Timestamp) : DeliveryRecord :=
  { r with
    replays := r.replays ++
      [{ replay_id := replay_id, from_cycle := r.delivery.retry_cycle,
         to_cycle := r.delivery.retry_cycle + 1, operator := operator, reason := reason,
         correlation_id := correlation_id, requested_at := clock }]
    delivery :=
      { r.delivery with retry_cycle := r.delivery.retry_cycle + 1, attempt_count := 0,
                        status := .pending, next_attempt_at := clock, published_at := none,
                        last_error_category := none }.clear_claim }

/-- `replay` on the locked row, after the check of the reason. `strip` is `str.strip`. -/
def replay_locked {π : Type} (events : List (OutboxEvent π)) (row : Option DeliveryRecord)
    (strip : String → String) (operator reason : String) (clock : Timestamp) (next_uuid : UUID) :
    Except ReplayError DeliveryRecord :=
  if strip reason = "" ∨ 1000 < reason.length ∨ reason.toList.any (·.val < 32) then
    .error .invalid_reason
  else
    match row with
    | none => .error .delivery_not_found
    | some r =>
      if r.delivery.status ≠ .failed ∨ r.receipt.isSome then .error .not_replayable
      else
        match Keyed.lookup OutboxEvent.event_id r.delivery.event_id events with
        | none => .error .event_not_found
        | some event =>
          .ok (r.start_cycle next_uuid operator (strip reason) event.correlation_id clock)

end RestaurantOS.Events
