import RestaurantOS.Lib.Rows
import RestaurantOS.Events.Contracts
import RestaurantOS.Events.Retries

/-!
# Deliveries and their history

The rows of one delivery: the delivery itself, its attempts, its replays, and the receipt of its
consumer. The foreign keys of attempts, replays and receipts are restricted, so every such row
belongs to one delivery; `DeliveryRecord` keeps them with it, and the queries of
`delivery_queries.py` that filter by the delivery read the record. A database transaction of the
worker acts on one record under its row lock, or on several that it has locked.
-/

namespace RestaurantOS.Events

/-- The status of a delivery. Only `succeeded` and `failed` are final, and a replay ends `failed`.
-/
inductive DeliveryStatus
  | pending
  | processing
  | succeeded
  | failed
  deriving DecidableEq, Repr

/-- The status of an attempt. A running one belongs to the claim that is held, or its worker has
died. -/
inductive AttemptStatus
  | running
  | succeeded
  | failed
  | skipped
  deriving DecidableEq, Repr

/-- What a handler reports as its durable outcome. -/
inductive EffectOutcome
  | processed
  | skipped
  deriving DecidableEq, Repr

/-- A row of `event_deliveries`. The columns that the relay and the execution read or write. -/
structure EventDelivery where
  /-- The primary key. -/
  id : UUID
  /-- The delivered event. -/
  event_id : UUID
  /-- The consumer it is delivered to. -/
  consumer_name : ConsumerName
  /-- The status. -/
  status : DeliveryStatus
  /-- The charged attempts of the current cycle. -/
  attempt_count : ℤ
  /-- The current retry cycle. -/
  retry_cycle : ℤ
  /-- When the next attempt may start. -/
  next_attempt_at : Timestamp
  /-- When the relay last observed a publication. -/
  published_at : Option Timestamp
  /-- The token of the current claim. -/
  claim_token : Option UUID
  /-- The worker that holds the claim. -/
  claim_owner : Option String
  /-- When the claim was taken. -/
  claimed_at : Option Timestamp
  /-- When the claim's lease ends. -/
  claim_expires_at : Option Timestamp
  /-- The category of the last failure. -/
  last_error_category : Option ErrorCategory
  /-- When the delivery was inserted. -/
  created_at : Timestamp

/-- A row of `event_delivery_attempts`. One attempt at a delivery, with how it has ended. -/
structure EventDeliveryAttempt where
  /-- The primary key. -/
  id : UUID
  /-- The retry cycle of the attempt. -/
  retry_cycle : ℤ
  /-- The number of the attempt in its cycle. -/
  attempt_number : ℤ
  /-- The status. -/
  status : AttemptStatus
  /-- The claim token under which it runs. -/
  claim_token : Option UUID
  /-- When it started. -/
  started_at : Timestamp
  /-- When it was settled. -/
  finished_at : Option Timestamp
  /-- The category of its failure. -/
  error_category : Option ErrorCategory

/-- A row of `event_receipts`. It exists exactly for the deliveries whose effect is committed. -/
structure EventReceipt where
  /-- The handler's outcome. -/
  outcome : EffectOutcome
  /-- When the effect was processed. -/
  processed_at : Timestamp

/-- A row of `event_delivery_replays`. It records who has started another cycle, and why. -/
structure EventDeliveryReplay where
  /-- The primary key. -/
  replay_id : UUID
  /-- The cycle the replay ends. -/
  from_cycle : ℤ
  /-- The cycle the replay starts. -/
  to_cycle : ℤ
  /-- The authenticated operator. -/
  operator : String
  /-- The recorded reason. -/
  reason : String
  /-- The correlation of the event. -/
  correlation_id : String
  /-- When the replay was requested. -/
  requested_at : Timestamp

/-- A delivery with the rows that refer to it. -/
structure DeliveryRecord where
  /-- The delivery row. -/
  delivery : EventDelivery
  /-- Its attempts, in order of insertion. -/
  attempts : List EventDeliveryAttempt
  /-- The receipt of its event and consumer. -/
  receipt : Option EventReceipt
  /-- Its replays, in order of insertion. -/
  replays : List EventDeliveryReplay

namespace EventDelivery

/-- `_clear_claim`: the claim fields are set to `NULL`. -/
def clear_claim (d : EventDelivery) : EventDelivery :=
  { d with claim_token := none, claim_owner := none, claimed_at := none, claim_expires_at := none }

/-- The claim fields are set for a claim of `owner` under `token`. -/
def set_claim (d : EventDelivery) (token : UUID) (owner : String) (claimed_at : Timestamp)
    (claim_expires_at : Timestamp) : EventDelivery :=
  { d with claim_token := some token, claim_owner := some owner, claimed_at := some claimed_at,
           claim_expires_at := some claim_expires_at }

/-- The row `append_event` inserts: the column defaults of a delivery that is due at once. -/
def inserted (id event_id : UUID) (consumer_name : ConsumerName) (now : Timestamp) :
    EventDelivery :=
  { id := id, event_id := event_id, consumer_name := consumer_name, status := .pending,
    attempt_count := 0, retry_cycle := 0, next_attempt_at := now, published_at := none,
    claim_token := none, claim_owner := none, claimed_at := none, claim_expires_at := none,
    last_error_category := none, created_at := now }

end EventDelivery

namespace DeliveryRecord

/-- The primary key of the delivery. The tables of attempts, receipts and replays refer to it. -/
def id (r : DeliveryRecord) : UUID := r.delivery.id

/-- The unique key of the delivery: its event and its consumer. -/
def route (r : DeliveryRecord) : UUID × ConsumerName :=
  (r.delivery.event_id, r.delivery.consumer_name)

/-- `running_attempts`. There is at most one in every reachable state. -/
def running_attempts (r : DeliveryRecord) : List EventDeliveryAttempt :=
  r.attempts.filter fun a => a.status = .running

/-- The attempts of one retry cycle. Their numbers start at one in each cycle. -/
def cycle_attempts (r : DeliveryRecord) (cycle : ℤ) : List EventDeliveryAttempt :=
  r.attempts.filter fun a => a.retry_cycle = cycle

/-- `next_attempt_number`: one more than the greatest number of the current cycle. -/
def next_attempt_number (r : DeliveryRecord) : ℤ :=
  ((r.cycle_attempts r.delivery.retry_cycle).map (·.attempt_number)).foldl max 0 + 1

/-- `replay_identity`: the replay that started the current cycle. -/
def replay_identity (r : DeliveryRecord) : Option UUID :=
  (r.replays.find? fun p => p.to_cycle = r.delivery.retry_cycle).map (·.replay_id)

/-- The running attempts are failed as interrupted. The worker that ran them has lost its lease. -/
def interrupt_attempts (r : DeliveryRecord) (now : Timestamp) : DeliveryRecord :=
  { r with attempts := r.attempts.map fun a =>
      if a.status = .running then
        { a with status := .failed, error_category := some .worker_interrupted,
                 finished_at := some now }
      else a }

/-- The attempt with the key `attempt_id` is changed by `f`. -/
def modify_attempt (r : DeliveryRecord) (attempt_id : UUID)
    (f : EventDeliveryAttempt → EventDeliveryAttempt) : DeliveryRecord :=
  { r with attempts := Keyed.modify EventDeliveryAttempt.id attempt_id f r.attempts }

/-- Whether the table holds an attempt with the key `attempt_id`. -/
def has_attempt (r : DeliveryRecord) (attempt_id : UUID) : Bool :=
  (Keyed.lookup EventDeliveryAttempt.id attempt_id r.attempts).isSome

end DeliveryRecord

end RestaurantOS.Events
