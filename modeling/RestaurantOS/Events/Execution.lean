import Mathlib.Data.List.Sort
import RestaurantOS.Events.Deliveries

/-!
# Consumer execution

The three transactions of `ConsumerExecutionService` on a delivery: `_start` claims an attempt,
`_effect` runs the handler and commits its receipt, `_finish_failure` settles a failed attempt; and
the recovery of expired claims. Each is a function from the locked row to the row it writes. A
transaction that raises returns an error and writes nothing, and the nondeterminism of the
environment (the handler's result, the drawn jitter, the rows other transactions hold locked) is an
argument.
-/

namespace RestaurantOS.Events

/-- The outcomes an execution reports. Each says what has become of one reference. -/
inductive Outcome
  | event_not_found
  | reference_conflict
  | unsubscribed_acknowledged
  | delivery_missing_or_busy
  | durable_receipt_acknowledged
  | durable_failure_acknowledged
  | inconsistent_receipt_retained
  | subscribed_delivery_not_due
  | consumer_claim_active
  | subscription_conflict
  | handler_unavailable
  /-- The failure category of an event that no handler can be given. -/
  | contract_rejected (failure_category : ErrorCategory)
  | claim_superseded
  | claim_expired
  | consumer_committed
  | consumer_failed
  | consumer_retry_scheduled
  deriving DecidableEq, Repr

/-- `ExecutionResult`. The consumer loop logs it, and acknowledges the reference if it says so. -/
structure ExecutionResult where
  /-- What happened. -/
  outcome : Outcome
  /-- Whether the consumer loop acknowledges the reference. -/
  acknowledge : Bool
  /-- The correlation of the event, where it is known. -/
  correlation_id : Option String
  deriving DecidableEq

/-- `AttemptClaim`: what an execution keeps between its transactions. -/
structure AttemptClaim (ρ : Type) where
  /-- The decoded event. -/
  event : EventEnvelope ρ
  /-- The consumer. -/
  consumer : ConsumerName
  /-- The claim token. -/
  token : UUID
  /-- The attempt. -/
  attempt_id : UUID
  /-- Its number in the cycle. -/
  attempt_number : ℤ
  /-- Its retry cycle. -/
  retry_cycle : ℤ
  /-- The replay that started the cycle. -/
  replay_id : Option UUID
  /-- The trace context of the event. -/
  traceparent : Option String

/-- The delivery an execution has claimed. It identifies the delivery row. -/
def AttemptClaim.route {ρ : Type} (claim : AttemptClaim ρ) : UUID × ConsumerName :=
  (claim.event.event_id, claim.consumer)

/-- The settings of a `ConsumerExecutionService`, and the contract validation of the process. -/
structure ConsumerExecutionService (π ρ : Type) where
  /-- The retry policy. -/
  policy : RetryPolicy
  /-- The lease of a claim, in seconds. -/
  lease_seconds : ℤ
  /-- The delay after an outage, in seconds. -/
  infrastructure_delay_seconds : ℚ
  /-- Which consumers have a handler in this service. -/
  registry : ConsumerName → Bool
  /-- The validation of an event row. -/
  validate_python : OutboxEvent π → Validation ρ

/-- What awaiting a handler gives. An exception is known by its class and its SQL state. -/
inductive HandlerResult
  | returned (outcome : EffectOutcome)
  /-- A value that is neither durable outcome. -/
  | returned_other
  | raised (error : RaisedError)

/-- An exception without database codes, such as `ValueError` or `AssertionError`. -/
def RaisedError.plain : RaisedError := ⟨.Exception, false, none, none⟩

/-- The violation of a unique constraint. The second insertion of a receipt raises it. -/
def RaisedError.unique_violation : RaisedError := ⟨.IntegrityError, false, some "23505", none⟩

/-- What `_start` returns. Either the attempt that is to be executed, or the result at once. -/
inductive Started (ρ : Type)
  | claimed (claim : AttemptClaim ρ)
  | result (result : ExecutionResult)

namespace DeliveryRecord

/-- An expired claim is released: its running attempts are interrupted and the delivery is pending
again. -/
def release_expired (r : DeliveryRecord) (now : Timestamp) : DeliveryRecord :=
  let r := r.interrupt_attempts now
  { r with delivery := { r.delivery with status := .pending }.clear_claim }

/-- The delivery is failed because its cycle has no attempt left. -/
def fail_attempt_limit (r : DeliveryRecord) : DeliveryRecord :=
  { r with delivery :=
      { r.delivery with status := .failed,
                        last_error_category := some .attempt_limit }.clear_claim }

/-- The attempt that `_start` inserts: running, or failed at once with a category. -/
def new_attempt (r : DeliveryRecord) (token attempt_id : UUID) (now : Timestamp)
    (failure_category : Option ErrorCategory) : EventDeliveryAttempt :=
  { id := attempt_id, retry_cycle := r.delivery.retry_cycle,
    attempt_number := r.next_attempt_number,
    status := if failure_category.isSome then .failed else .running,
    claim_token := some token, started_at := now,
    finished_at := if failure_category.isSome then some now else none,
    error_category := failure_category }

/-- The delivery is claimed under `token` and charged with a new attempt. -/
def begin_attempt (r : DeliveryRecord) (token attempt_id : UUID) (worker_id : String)
    (now claim_expires_at : Timestamp) (failure_category : Option ErrorCategory) :
    DeliveryRecord :=
  { r with
    attempts := r.attempts ++ [r.new_attempt token attempt_id now failure_category]
    delivery :=
      { r.delivery with
          attempt_count := r.delivery.attempt_count + 1
          status := if failure_category.isSome then .failed else .processing
          last_error_category := failure_category }.set_claim token worker_id now
        claim_expires_at }

/-- The claim fields of the delivery are cleared. -/
def clear_claim (r : DeliveryRecord) : DeliveryRecord :=
  { r with delivery := r.delivery.clear_claim }

/-- The effect is committed: the receipt is inserted and the attempt and the delivery succeed. -/
def commit_effect (r : DeliveryRecord) (attempt_id : UUID) (outcome : EffectOutcome)
    (now : Timestamp) : DeliveryRecord :=
  { r.modify_attempt attempt_id fun a =>
      { a with status := if outcome = .skipped then .skipped else .succeeded,
               finished_at := some now } with
    receipt := some ⟨outcome, now⟩
    delivery :=
      { r.delivery with status := .succeeded, last_error_category := none }.clear_claim }

/-- The attempt is settled as failed and the delivery is scheduled again or failed. -/
def settle_failure (r : DeliveryRecord) (attempt_id : UUID) (failure : Failure)
    (terminal : Bool) (attempt_count : ℤ) (delay : ℚ) (now : Timestamp) : DeliveryRecord :=
  { r.modify_attempt attempt_id fun a =>
      { a with status := .failed, error_category := some failure.category,
               finished_at := some now } with
    delivery :=
      { r.delivery with
          attempt_count := attempt_count
          status := if terminal then .failed else .pending
          last_error_category := some failure.category
          next_attempt_at := now + timedelta_seconds delay
          published_at := none }.clear_claim }

/-- The row fencing of `_effect` and `_finish_failure`: the delivery is processing under the
claim's token. -/
def owned_by {ρ : Type} (r : DeliveryRecord) (claim : AttemptClaim ρ) : Bool :=
  r.delivery.status = .processing && r.delivery.claim_token = some claim.token

end DeliveryRecord

namespace ConsumerExecutionService

variable {π ρ : Type} (service : ConsumerExecutionService π ρ)

/-! ## `_start` -/

/-- The `try` block of `_start`: the failure category of an event that cannot be decoded, or its
envelope. An exception that is no `ValueError` is not handled and ends the transaction (`none`). -/
def decode (event : OutboxEvent π) : Option (Except ErrorCategory (EventEnvelope ρ)) :=
  match deserialize_event service.validate_python event with
  | .ok envelope => some (.ok envelope)
  | .error .unsupported_event_version => some (.error .unsupported_version)
  | .error .value_error => some (.error .invalid_payload)
  | .error .other => none

/-- The second half of `_start`, once no other claim stands: decode the event, check the route and
the attempt limit, and claim the delivery. The token and the attempt's identifier are drawn as
`next_uuid` and `next_uuid + 1`. -/
def start_attempt (event : OutboxEvent π) (r : DeliveryRecord) (worker_id : String)
    (now : Timestamp) (next_uuid : UUID) : Option (DeliveryRecord × Started ρ) :=
  let correlation := some (safe_identifier event.correlation_id)
  let claim_expires_at := now + timedelta_seconds service.lease_seconds
  match service.decode event with
  | none => none
  | some (.ok envelope) =>
    if r.delivery.consumer_name ∉ SUBSCRIPTIONS envelope.event_type then
      some (r, .result ⟨.subscription_conflict, false, correlation⟩)
    else if !service.registry r.delivery.consumer_name then
      some (r, .result ⟨.handler_unavailable, false, correlation⟩)
    else if service.policy.max_attempts ≤ r.delivery.attempt_count then
      some (r.fail_attempt_limit, .result ⟨.durable_failure_acknowledged, true, correlation⟩)
    else
      let attempt := r.new_attempt next_uuid (next_uuid + 1) now none
      some (r.begin_attempt next_uuid (next_uuid + 1) worker_id now claim_expires_at none,
        .claimed
          { event := envelope, consumer := r.delivery.consumer_name, token := next_uuid,
            attempt_id := attempt.id, attempt_number := attempt.attempt_number,
            retry_cycle := r.delivery.retry_cycle, replay_id := r.replay_identity,
            traceparent := event.traceparent })
  | some (.error failure_category) =>
    if service.policy.max_attempts ≤ r.delivery.attempt_count then
      some (r.fail_attempt_limit, .result ⟨.durable_failure_acknowledged, true, correlation⟩)
    else
      some ((r.begin_attempt next_uuid (next_uuid + 1) worker_id now claim_expires_at
          (some failure_category)).clear_claim,
        .result ⟨.contract_rejected failure_category, true, correlation⟩)

/-- `_start` on the locked row: the row it writes and what it returns, `none` where an exception
ends the transaction. -/
def start_locked (event : OutboxEvent π) (r : DeliveryRecord) (worker_id : String)
    (now : Timestamp) (next_uuid : UUID) : Option (DeliveryRecord × Started ρ) :=
  let correlation := some (safe_identifier event.correlation_id)
  if r.receipt.isSome ∧ r.delivery.status = .succeeded then
    some (r, .result ⟨.durable_receipt_acknowledged, true, correlation⟩)
  else if r.delivery.status = .failed then
    some (r, .result ⟨.durable_failure_acknowledged, true, correlation⟩)
  else if r.delivery.status = .succeeded ∨ r.receipt.isSome then
    some (r, .result ⟨.inconsistent_receipt_retained, false, correlation⟩)
  else if now < r.delivery.next_attempt_at then
    some (r, .result ⟨.subscribed_delivery_not_due, false, correlation⟩)
  else if r.delivery.status = .processing then
    if r.delivery.claim_expires_at.any (now < ·) then
      some (r, .result ⟨.consumer_claim_active, false, correlation⟩)
    else if service.policy.max_attempts ≤ r.delivery.attempt_count then
      some ((r.release_expired now).fail_attempt_limit,
        .result ⟨.durable_failure_acknowledged, true, correlation⟩)
    else service.start_attempt event (r.release_expired now) worker_id now next_uuid
  else service.start_attempt event r worker_id now next_uuid

/-! ## `_effect` and `_finish_failure` -/

/-- `_effect` on the locked row: the row it writes, if any, and its result; or the exception that
rolls it back. -/
def effect (row : Option DeliveryRecord) (claim : AttemptClaim ρ) (now : Timestamp)
    (handler : HandlerResult) : Except RaisedError (Option DeliveryRecord × ExecutionResult) :=
  match row.filter (·.owned_by claim) with
  | none => .ok (none, ⟨.claim_superseded, false, none⟩)
  | some r =>
    if r.delivery.claim_expires_at.all (· ≤ now) then .ok (none, ⟨.claim_expired, false, none⟩)
    else if !service.registry claim.consumer then .error .plain
    else
      match handler with
      | .raised error => .error error
      | .returned_other => .error .plain
      | .returned outcome =>
        -- The receipt's primary key is the delivery's route.
        if r.receipt.isSome then .error .unique_violation
        else if !r.has_attempt claim.attempt_id then .error .plain
        else
          .ok (some (r.commit_effect claim.attempt_id outcome now),
            ⟨.consumer_committed, true, some claim.event.correlation_id⟩)

/-- What `_finish_failure` can raise by itself. They end the execution without a settlement. -/
inductive SettlementError
  /-- The claimed attempt does not exist. -/
  | attempt_missing
  /-- `RetryPolicy.delay_seconds` rejects its input. -/
  | invalid_retry_policy_input
  deriving DecidableEq

/-- The charged attempts after a failure: an outage gives the attempt back. -/
def settled_count (failure : Failure) (attempt_count : ℤ) : ℤ :=
  if failure.infrastructure then attempt_count - 1 else attempt_count

/-- Whether a failure is terminal, with the attempts charged after it. -/
def terminal (failure : Failure) (attempt_count : ℤ) : Bool :=
  failure.permanent ||
    (!failure.infrastructure && decide (service.policy.max_attempts ≤ attempt_count))

/-- The delay before the next attempt, in seconds; `none` is the `ValueError` of the policy. -/
def retry_delay (failure : Failure) (attempt_count : ℤ) (jitter : Jitter) : Option ℚ :=
  if failure.infrastructure then some service.infrastructure_delay_seconds
  else service.policy.delay_seconds attempt_count jitter

/-- `_finish_failure` on the locked row: the row it writes, if any, and its result. -/
def finish_failure (row : Option DeliveryRecord) (claim : AttemptClaim ρ) (failure : Failure)
    (now : Timestamp) (jitter : Jitter) :
    Except SettlementError (Option DeliveryRecord × ExecutionResult) :=
  match row.filter (·.owned_by claim) with
  | none => .ok (none, ⟨.claim_superseded, false, none⟩)
  | some r =>
    if !r.has_attempt claim.attempt_id then .error .attempt_missing
    else
      let attempt_count := settled_count failure r.delivery.attempt_count
      let terminal := service.terminal failure attempt_count
      match service.retry_delay failure attempt_count jitter with
      | none => .error .invalid_retry_policy_input
      | some delay =>
        .ok (some (r.settle_failure claim.attempt_id failure terminal attempt_count delay now),
          ⟨if terminal then .consumer_failed else .consumer_retry_scheduled, terminal,
            some claim.event.correlation_id⟩)

/-! ## `recover_expired` -/

/-- The `WHERE` clause of `recover_expired`. The lease of a claimed delivery has run out. -/
def recovery_due (now : Timestamp) (r : DeliveryRecord) : Bool :=
  r.delivery.status = .processing && r.delivery.claim_expires_at.any (· ≤ now)

/-- `recover_expired` on one selected row. The attempt stays charged, so the last one of a cycle
fails the delivery. -/
def recover (r : DeliveryRecord) (now : Timestamp) : DeliveryRecord :=
  let r := r.interrupt_attempts now
  { r with delivery :=
      { r.delivery with
          status := if service.policy.max_attempts ≤ r.delivery.attempt_count then .failed
            else .pending
          last_error_category := some .worker_interrupted
          next_attempt_at := now
          published_at := none }.clear_claim }

/-- The rows `recover_expired` selects: the due ones that no other transaction has locked, ordered
by the end of their lease, at most `limit`. Which of two rows with the same end comes first is left
open by the query; here `locked` decides, since a row outside the limit may as well be locked. -/
def recovery_rows (deliveries : List DeliveryRecord) (now : Timestamp) (limit : ℕ)
    (locked : List UUID) : List DeliveryRecord :=
  ((deliveries.filter fun r => recovery_due now r && decide (r.id ∉ locked)).insertionSort
    fun a b => a.delivery.claim_expires_at.getD 0 ≤ b.delivery.claim_expires_at.getD 0).take limit

/-- `recover_expired`. Rows that are locked are passed over. -/
def recover_expired (deliveries : List DeliveryRecord) (now : Timestamp) (limit : ℕ)
    (locked : List UUID) : List DeliveryRecord :=
  let ids := (recovery_rows deliveries now limit locked).map (·.id)
  deliveries.map fun r => if r.id ∈ ids then service.recover r now else r

end ConsumerExecutionService

end RestaurantOS.Events
