import RestaurantOS.Events.Runs
import RestaurantOS.Lib.ConsumerGroups

/-!
# The transport

The worker processes of `Worker`, together with what carries the references between them: the relays,
which publish the deliveries they have claimed, and one Redis stream, which each consumer group reads.
Here a message is no longer an argument: a process routes what Redis has handed to its group, it
acknowledges the message it has routed, and a relay observes the publication it has made.

Redis is a log with consumer groups. It may answer a command without the process learning of it, refuse
it, be written to by others, and fall back at any time to an earlier state, in which case it has
forgotten what came after. Which consumer of a group holds a pending message, and for how long, is left
open: any consumer may be handed any pending message at any time. -/

namespace RestaurantOS.Events

variable {π ρ : Type}

/-! ## Claims and references -/

/-- The claims that `claim_due_deliveries` returns, one for each row that it selects. -/
def claimed_deliveries (events : List (OutboxEvent π)) (deliveries : List DeliveryRecord)
    (owner : String) (republish_after_seconds : ℤ) (now : Timestamp) (limit : ℕ)
    (locked : List UUID) (next_uuid : UUID) : List DeliveryClaim :=
  let rows := claim_rows events deliveries republish_after_seconds now limit locked
  rows.filterMap fun r =>
    (Keyed.lookup OutboxEvent.event_id r.delivery.event_id events).map fun event =>
      { delivery_id := r.id, event_id := event.event_id, consumer_name := r.delivery.consumer_name,
        event_type := event.event_type, schema_version := event.schema_version,
        correlation_id := event.correlation_id,
        claim_token := next_uuid + (rows.map (·.id)).idxOf r.id, claim_owner := owner,
        traceparent := event.traceparent }

/-- The fields that `publish` adds to the stream. -/
def Deployment.reference (deployment : Deployment π ρ) (claim : DeliveryClaim) : Reference :=
  { event_id := some (deployment.str_uuid claim.event_id), event_type := some claim.event_type,
    schema_version := some (toString claim.schema_version),
    correlation_id := some claim.correlation_id }

/-- The actions of `Worker` that no command of Redis is part of. -/
def Act.local : Act π → Bool
  | .route .. | .acknowledge .. | .claim_due .. | .observe .. | .defer_claim .. => false
  | _ => true

namespace Transport

/-! ## The state -/

/-- The stream of references. Its groups are the consumers. -/
abbrev EventStream := ConsumerGroups.Log StreamMessage String ConsumerName

/-- Where `_publish_observed` is with a claim. Each phase ends at a command to Redis or a
transaction. -/
inductive PublicationPhase
  | claimed
  /-- `publish` has returned the identifier of the message. -/
  | published (message_id : String)
  /-- `publish` has raised `WorkerRedisFailure`. -/
  | failed
  | finished

/-- One call of `_publish_observed`. Its claim is held by the relay that makes it. -/
structure Publication where
  /-- The claim. -/
  claim : DeliveryClaim
  /-- Where the call is. -/
  phase : PublicationPhase

/-- How a command that writes to Redis ends. -/
inductive Reply
  | answered
  /-- It is executed, and the process sees a failure. -/
  | unanswered
  /-- It is not executed, and the process sees a failure. -/
  | refused
  deriving DecidableEq

/-- The state of the system. What Redis forgets is kept in the last fields for the statements. -/
structure World (π ρ : Type) where
  /-- The processes and the database. -/
  workers : Events.World π ρ
  /-- The stream. -/
  stream : EventStream
  /-- The earlier states of the stream. -/
  snapshots : List EventStream
  /-- All messages that were ever added to the stream. -/
  messages : List StreamMessage
  /-- The publications of the relays. -/
  publications : List Publication
  /-- The messages that Redis has handed to consumers, with their groups. -/
  handed : List (ConsumerName × StreamMessage)

/-- The actions of the system. Each is one command of Redis, one transaction or one event of the
environment. -/
inductive Act (π : Type)
  /-- An action of the processes that no command of Redis is part of. -/
  | work (act : {act : Events.Act π // act.local = true})
  /-- `claim_due_deliveries`, and whether its answer reaches the relay. -/
  | claim_due (owner : String) (lease_seconds republish_after_seconds : ℤ) (lag limit : ℕ)
      (locked : List UUID) (answered : Bool)
  /-- `XADD` of a publication, under an identifier that Redis draws. -/
  | publish (publication : ℕ) (message_id : String) (reply : Reply)
  /-- `observe_publication` of a publication, which may fail. -/
  | observe (publication : ℕ) (lag : ℕ) (committed : Bool)
  /-- `defer_claim_after_transport_failure` of a publication, which may fail. -/
  | defer_claim (publication : ℕ) (retry_after_ms : ℤ) (failure_category : ErrorCategory) (lag : ℕ)
      (committed : Bool)
  /-- The process of a publication ends. -/
  | abandon (publication : ℕ)
  /-- Somebody else adds a message. -/
  | foreign (message : StreamMessage)
  /-- `ensure_groups`, for one group. -/
  | ensure_group (group : ConsumerName)
  /-- `read_new`, and whether its answer reaches the consumer. -/
  | read_new (group : ConsumerName) (count : ℕ) (answered : Bool)
  /-- `claim_pending`. -/
  | claim_pending (group : ConsumerName) (message_ids : List String)
  /-- The `XRANGE` of `pending_reference`. -/
  | pending_reference (group : ConsumerName) (message_id : String)
  /-- `_route_message` of a message that was handed out, up to the end of `_start`. -/
  | route (handed : ℕ) (settings : ServiceSettings) (worker_id : String) (locked : Bool) (fate : Fate)
  /-- The end of `_route_message`, and whether Redis executes its `XACK`. -/
  | acknowledge (execution : ℕ) (executed : Bool)
  /-- Redis falls back to an earlier state. -/
  | fall_back (state : ℕ)

/-- Whether Redis loses what it was told. An action of this kind takes it back to an earlier state.
-/
def Act.falls_back : Act π → Bool
  | .fall_back _ => true
  | _ => false

namespace World

/-- The stream changes. The old one is kept, as Redis may fall back to it. -/
def set_stream (w : World π ρ) (stream : EventStream) : World π ρ :=
  { w with stream := stream, snapshots := w.snapshots ++ [w.stream] }

/-- A message is added, unless its identifier was drawn before. -/
def add (w : World π ρ) (message : StreamMessage) : World π ρ :=
  if message.message_id ∈ w.messages.map (·.message_id) then w
  else { w.set_stream (w.stream.add message) with messages := w.messages ++ [message] }

/-- The phase of a publication is set. The other publications stay. -/
def set_phase (w : World π ρ) (publication : ℕ) (phase : PublicationPhase) : World π ρ :=
  { w with publications := w.publications.modify publication fun p => { p with phase := phase } }

/-- Messages are handed to a consumer of a group. -/
def hand (w : World π ρ) (group : ConsumerName) (messages : List StreamMessage) : World π ρ :=
  { w with handed := w.handed ++ messages.map fun message => (group, message) }

end World

/-! ## Steps -/

section Steps

variable (deployment : Deployment π ρ) (w : World π ρ)

/-- An action of the processes. It touches neither the stream nor the publications. -/
def work (act : Events.Act π) : World π ρ := { w with workers := deployment.step w.workers act }

/-- `claim_due_deliveries` of a relay. An answer that is lost leaves the claims to their expiry. -/
def claim_due (owner : String) (lease_seconds republish_after_seconds : ℤ) (lag limit : ℕ)
    (locked : List UUID) (answered : Bool) : World π ρ :=
  let db := w.workers.database
  let claims := claimed_deliveries db.events db.deliveries owner republish_after_seconds
    (w.workers.now - lag) limit locked db.next_uuid
  let publications := if answered then claims.map fun claim => ⟨claim, .claimed⟩ else []
  { work deployment w
      (.claim_due owner lease_seconds republish_after_seconds lag limit locked) with
    publications := w.publications ++ publications }

/-- `publish` of a claimed delivery. Its outcome tells the relay whether Redis has answered, and not
whether it has added the message. -/
def publish (publication : ℕ) (message_id : String) (reply : Reply) : World π ρ :=
  match w.publications[publication]? with
  | some ⟨claim, .claimed⟩ =>
    if message_id ∈ w.messages.map (·.message_id) then w
    else
      match reply with
      | .answered =>
        (w.add ⟨message_id, deployment.reference claim⟩).set_phase publication (.published message_id)
      | .unanswered =>
        (w.add ⟨message_id, deployment.reference claim⟩).set_phase publication .failed
      | .refused => w.set_phase publication .failed
  | _ => w

/-- `observe_publication` of a published delivery. The publication is over whether or not the commit
succeeds. -/
def observe (publication : ℕ) (lag : ℕ) (committed : Bool) : World π ρ :=
  match w.publications[publication]? with
  | some ⟨claim, .published _⟩ =>
    (if committed then work deployment w (.observe claim lag) else w).set_phase publication .finished
  | _ => w

/-- `defer_claim_after_transport_failure` of a delivery whose publication has failed. -/
def defer_claim (publication : ℕ) (retry_after_ms : ℤ) (failure_category : ErrorCategory)
    (lag : ℕ) (committed : Bool) : World π ρ :=
  match w.publications[publication]? with
  | some ⟨claim, .failed⟩ =>
    (if committed then work deployment w (.defer_claim claim retry_after_ms failure_category lag)
      else w).set_phase publication .finished
  | _ => w

/-- `read_new`. The group owns what it has read, even if the answer is lost. -/
def read_new (group : ConsumerName) (count : ℕ) (answered : Bool) : World π ρ :=
  let messages := if answered then w.stream.next_entries group count else []
  (w.set_stream (w.stream.read StreamMessage.message_id group count)).hand group messages

/-- The `XRANGE` of `pending_reference`. It gives the message if the stream still has it. -/
def pending_reference (group : ConsumerName) (message_id : String) : World π ρ :=
  w.hand group (Keyed.lookup StreamMessage.message_id message_id w.stream.entries).toList

/-- `_route_message` of a message that was handed out. -/
def route (handed : ℕ) (settings : ServiceSettings) (worker_id : String) (locked : Bool)
    (fate : Fate) : World π ρ :=
  match w.handed[handed]? with
  | some (group, message) =>
    work deployment w (.route message group settings worker_id locked fate)
  | none => w

/-- The end of `_route_message`. Where Redis does not execute the `XACK`, the reference is left
pending. -/
def acknowledge (execution : ℕ) (executed : Bool) : World π ρ :=
  match w.workers.executions[execution]? with
  | some ⟨_, group, message_id, .returned result⟩ =>
    if result.acknowledge then
      if executed then
        (work deployment w (.acknowledge execution)).set_stream
          (w.stream.acknowledge group message_id)
      else work deployment w (.crash execution)
    else work deployment w (.acknowledge execution)
  | _ => w

/-- Redis falls back to an earlier state. Any state that it was in before is possible. -/
def fall_back (state : ℕ) : World π ρ :=
  match w.snapshots[state]? with
  | some stream => w.set_stream stream
  | none => w

/-- One action. An action that cannot be taken changes nothing. -/
def step : Act π → World π ρ
  | .work act => work deployment w act.1
  | .claim_due owner lease_seconds republish_after_seconds lag limit locked answered =>
    claim_due deployment w owner lease_seconds republish_after_seconds lag limit locked answered
  | .publish publication message_id reply => publish deployment w publication message_id reply
  | .observe publication lag committed => observe deployment w publication lag committed
  | .defer_claim publication retry_after_ms failure_category lag committed =>
    defer_claim deployment w publication retry_after_ms failure_category lag committed
  | .abandon publication => w.set_phase publication .finished
  | .foreign message => w.add message
  | .ensure_group group => w.set_stream (w.stream.create_group group)
  | .read_new group count answered => read_new w group count answered
  | .claim_pending group message_ids =>
    w.hand group (w.stream.pending_entries StreamMessage.message_id group message_ids)
  | .pending_reference group message_id => pending_reference w group message_id
  | .route handed settings worker_id locked fate =>
    route deployment w handed settings worker_id locked fate
  | .acknowledge execution executed => acknowledge deployment w execution executed
  | .fall_back state => fall_back w state

end Steps

/-- The system before its first action. The stream has neither entries nor groups. -/
def initial (now : Timestamp) : World π ρ := ⟨Deployment.initial now, .empty, [], [], [], []⟩

/-- The state after a run of the system from its start. -/
def run (deployment : Deployment π ρ) (now : Timestamp) (acts : List (Act π)) : World π ρ :=
  Transition.run (step deployment) (initial now) acts

end Transport

end RestaurantOS.Events
