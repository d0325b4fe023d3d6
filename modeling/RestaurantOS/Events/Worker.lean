import RestaurantOS.Lib.Run
import RestaurantOS.Events.Relay

/-!
# The worker processes and the database

The system of any number of worker processes over one PostgreSQL database. A process is known by the
executions it has started; its relay, recovery and operator operations keep no state that the
database does not fence. Each action is one database transaction, one acknowledgement, the end of a
process, or the passage of time, so a run is any interleaving of these. Redis is not part of the
state: a reference arrives as the argument of `route`, whatever it holds, and a publication that is
lost, duplicated or stale is one that is followed by no, several or wrong references.

A transaction may also fail outside the modelled statements. Its `Fate` says whether the commit took
place and what the process learned of it.
-/

namespace RestaurantOS.Events

/-- How a transaction whose statements have all run ends. -/
inductive Fate
  | committed
  /-- It is committed, and the process sees an error instead of the answer. -/
  | unacknowledged (error : RaisedError)
  /-- It is rolled back, and the process sees an error. -/
  | rolled_back (error : RaisedError)
  /-- The process ends, before or after the commit. -/
  | died (persisted : Bool)

/-- Whether the commit took place. A worker that has died may have committed before. -/
def Fate.persisted : Fate → Bool
  | .committed => true
  | .unacknowledged _ => true
  | .rolled_back _ => false
  | .died persisted => persisted

/-- The database. `effects` has one entry for each handler run whose transaction is committed, in the
order of the commits. -/
structure Database (π : Type) where
  /-- The rows of `outbox_events`. -/
  events : List (OutboxEvent π)
  /-- The deliveries with their history. -/
  deliveries : List DeliveryRecord
  /-- The committed handler effects. -/
  effects : List (UUID × ConsumerName)
  /-- The number of identifiers drawn so far. -/
  next_uuid : UUID

/-- The reference fields of a stream message. They are the texts that the relay has written and the
consumer reads back. -/
structure Reference where
  /-- The text of the event's identifier. -/
  event_id : Option String
  /-- The text of the event's type. -/
  event_type : Option String
  /-- The text of the contract's version. -/
  schema_version : Option String
  /-- The correlation of the event. -/
  correlation_id : Option String

/-- `StreamMessage`. An entry of the stream as the consumer receives it. -/
structure StreamMessage where
  /-- The identifier in the stream. -/
  message_id : String
  /-- The reference. -/
  fields : Reference

/-- The settings in which the execution services of the processes may differ. -/
structure ServiceSettings where
  /-- The lease of a claim, in seconds. -/
  lease_seconds : ℤ
  /-- The delay after an outage, in seconds. -/
  infrastructure_delay_seconds : ℚ
  /-- Which consumers have a handler. -/
  registry : ConsumerName → Bool

/-- What all processes share: the retry policy, the contracts, and the library functions on texts. -/
structure Deployment (π ρ : Type) where
  /-- The retry policy. -/
  policy : RetryPolicy
  /-- The validation of an event row. -/
  validate_python : OutboxEvent π → Validation ρ
  /-- `UUID(text)`; `none` is its `ValueError`. -/
  parse_uuid : String → Option UUID
  /-- `str(uuid)`. -/
  str_uuid : UUID → String
  /-- `str.strip`. -/
  strip : String → String

/-- Where an execution is between its transactions. Other processes may act between any two of them.
-/
inductive Phase (ρ : Type)
  /-- `_start` is committed and the effect has not run. -/
  | claimed (settings : ServiceSettings) (claim : AttemptClaim ρ)
  /-- The effect raised; the failure is in `_unsettled` until it is settled. -/
  | unsettled (settings : ServiceSettings) (claim : AttemptClaim ρ) (failure : Failure)
  /-- `execute` has returned to `_route_message`. -/
  | returned (result : ExecutionResult)
  | finished

/-- One call of `execute` by `_route_message`. It keeps what the source has in local variables. -/
structure Execution (ρ : Type) where
  /-- The referenced event. -/
  event_id : UUID
  /-- The consumer group. -/
  group : ConsumerName
  /-- The routed message. -/
  message_id : String
  /-- Where the execution is. -/
  phase : Phase ρ

/-- Who settles a failure: the execution itself, or `settle_failures`, which removes the entry from
`_unsettled`; the execution may then still be about to settle it itself. -/
inductive Settler
  | own
  | settle_failures (still_running : Bool)

/-- The state of the system. Processes are told apart by their executions only. -/
structure World (π ρ : Type) where
  /-- The database clock. -/
  now : Timestamp
  /-- The committed state of PostgreSQL. -/
  database : Database π
  /-- The executions started so far. -/
  executions : List (Execution ρ)
  /-- The references acknowledged so far, each as the route of its delivery. -/
  acknowledged : List (UUID × ConsumerName)

/-- The actions of the system. `lag` is how long before its statements a transaction began, and
`locked` the rows that other transactions hold. -/
inductive Act (π : Type)
  /-- Time passes. -/
  | tick (elapsed : ℕ)
  /-- An event and deliveries of it are inserted. -/
  | persist (event : OutboxEvent π) (consumers : List ConsumerName) (lag : ℕ)
  /-- `_route_message` routes a message and `_start` runs. -/
  | route (message : StreamMessage) (group : ConsumerName) (settings : ServiceSettings)
      (worker_id : String) (locked : Bool) (fate : Fate)
  /-- `_effect` of an execution. -/
  | effect (execution : ℕ) (handler : HandlerResult) (fate : Fate)
  /-- `_finish_failure` of an execution. -/
  | settle (execution : ℕ) (settler : Settler) (jitter : Jitter) (fate : Fate)
  /-- The consumer loop acknowledges the reference of an execution that has returned. -/
  | acknowledge (execution : ℕ)
  /-- The process of an execution ends. -/
  | crash (execution : ℕ)
  /-- `recover_expired`. -/
  | recover_expired (settings : ServiceSettings) (limit : ℕ) (locked : List UUID)
  /-- `claim_due_deliveries`. -/
  | claim_due (owner : String) (lease_seconds republish_after_seconds : ℤ) (lag limit : ℕ)
      (locked : List UUID)
  /-- `observe_publication` with any claim. -/
  | observe (claim : DeliveryClaim) (lag : ℕ)
  /-- `defer_claim_after_transport_failure` with any claim. -/
  | defer_claim (claim : DeliveryClaim) (retry_after_ms : ℤ) (failure_category : ErrorCategory)
      (lag : ℕ)
  /-- `reset_observations_before`. -/
  | reset_observations (cutoff : Timestamp) (lag limit : ℕ) (locked : List UUID)
  /-- `replay`. -/
  | replay (delivery_id : UUID) (operator reason : String)

variable {π ρ : Type}

namespace Database

/-- The row of a route, as `lock_delivery` selects it. -/
def lock_delivery (db : Database π) (route : UUID × ConsumerName) : Option DeliveryRecord :=
  Keyed.lookup DeliveryRecord.route route db.deliveries

/-- A written row replaces the row with its primary key. -/
def write (db : Database π) : Option DeliveryRecord → Database π
  | none => db
  | some r => { db with deliveries := Keyed.put DeliveryRecord.id r db.deliveries }

/-- The write of an effect transaction, with the handler's own effect. -/
def write_effect (db : Database π) : Option DeliveryRecord → Database π
  | none => db
  | some r => { db.write (some r) with effects := db.effects ++ [r.route] }

/-- The deliveries of a new event, under fresh identifiers from `next_uuid` on. -/
def inserted_deliveries (event_id : UUID) (now : Timestamp) (next_uuid : UUID) :
    List ConsumerName → List DeliveryRecord
  | [] => []
  | consumer :: consumers =>
    ⟨.inserted next_uuid event_id consumer now, [], none, []⟩ ::
      inserted_deliveries event_id now (next_uuid + 1) consumers

/-- `append_event` and its fan-out: nothing is inserted where a unique key would be violated. -/
def persist (db : Database π) (event : OutboxEvent π) (consumers : List ConsumerName)
    (now : Timestamp) : Database π :=
  if (Keyed.lookup OutboxEvent.event_id event.event_id db.events).isSome ∨ ¬consumers.Nodup then db
  else
    { db with
      events := db.events ++ [event]
      deliveries := db.deliveries ++ inserted_deliveries event.event_id now db.next_uuid consumers
      next_uuid := db.next_uuid + consumers.length }

end Database

namespace World

/-- The phase of the execution with a given number. -/
def phase (w : World π ρ) (execution : ℕ) : Option (Phase ρ) :=
  (w.executions[execution]?).map Execution.phase

/-- The phase of an execution is set. The other executions stay. -/
def set_phase (w : World π ρ) (execution : ℕ) (phase : Phase ρ) : World π ρ :=
  { w with executions := w.executions.modify execution fun e => { e with phase := phase } }

/-- The end of `_route_message`: the reference is acknowledged if the result says so. -/
def acknowledge (w : World π ρ) (execution : ℕ) : World π ρ :=
  match w.executions[execution]? with
  | some ⟨event_id, group, _, .returned result⟩ =>
    if result.acknowledge then
      { w with acknowledged := w.acknowledged ++ [(event_id, group)] }.set_phase execution .finished
    else w.set_phase execution .finished
  | _ => w

end World

namespace Deployment

variable (deployment : Deployment π ρ)

/-- The execution service of a process. Policy and validation are those of the deployment. -/
def service (settings : ServiceSettings) : ConsumerExecutionService π ρ :=
  { policy := deployment.policy, lease_seconds := settings.lease_seconds,
    infrastructure_delay_seconds := settings.infrastructure_delay_seconds,
    registry := settings.registry, validate_python := deployment.validate_python }

/-- The comparison of a reference with the referenced row. -/
def reference_matches (fields : Reference) (event : OutboxEvent π) : Bool :=
  fields.event_id = some (deployment.str_uuid event.event_id) &&
    fields.event_type = some event.event_type &&
    fields.schema_version = some (toString event.schema_version) &&
    fields.correlation_id = some event.correlation_id

/-- `_start`: the database it leaves and what it returns, `none` where an exception ends the
transaction. -/
def start (db : Database π) (now : Timestamp) (event_id : UUID) (consumer : ConsumerName)
    (fields : Reference) (settings : ServiceSettings) (worker_id : String) (locked : Bool) :
    Option (Database π × Started ρ) :=
  match Keyed.lookup OutboxEvent.event_id event_id db.events with
  | none => some (db, .result ⟨.event_not_found, false, none⟩)
  | some event =>
    if !deployment.reference_matches fields event then
      some (db, .result ⟨.reference_conflict, false, none⟩)
    else
      match if locked then none else db.lock_delivery (event_id, consumer) with
      | none =>
        let unsubscribed := (consumers_for event.event_type).any (consumer ∉ ·)
        some (db, .result
          ⟨if unsubscribed then .unsubscribed_acknowledged else .delivery_missing_or_busy,
            unsubscribed, some (safe_identifier event.correlation_id)⟩)
      | some r =>
        match (deployment.service settings).start_locked event r worker_id now db.next_uuid with
        | none => none
        | some (row, started) =>
          some ({ db.write (some row) with next_uuid := db.next_uuid + 2 }, started)

/-- `_route_message` up to the end of `_start`. A reference without a valid identifier is left
pending, and an exception of `_start` is left to the consumer loop. -/
def route (w : World π ρ) (message : StreamMessage) (group : ConsumerName)
    (settings : ServiceSettings) (worker_id : String) (locked : Bool) (fate : Fate) : World π ρ :=
  match deployment.parse_uuid (message.fields.event_id.getD "") with
  | none => w
  | some event_id =>
    match deployment.start w.database w.now event_id group message.fields settings worker_id locked with
    | none => w
    | some (db, started) =>
      match fate with
      | .committed =>
        let phase := match started with
          | .claimed claim => .claimed settings claim
          | .result result => .returned result
        { w with database := db,
                 executions := w.executions ++ [⟨event_id, group, message.message_id, phase⟩] }
      | fate => if fate.persisted then { w with database := db } else w

/-- The `try` block of `_execute_claim`: the effect, and the failure that an exception leaves in
`_unsettled`. -/
def effect (w : World π ρ) (execution : ℕ) (handler : HandlerResult) (fate : Fate) : World π ρ :=
  match w.phase execution with
  | some (.claimed settings claim) =>
    match (deployment.service settings).effect (w.database.lock_delivery claim.route) claim w.now
      handler with
    | .error error =>
      match fate with
      | .died _ => w.set_phase execution .finished
      | _ => w.set_phase execution (.unsettled settings claim (classify_failure error))
    | .ok (row, result) =>
      let db := if fate.persisted then w.database.write_effect row else w.database
      let phase := match fate with
        | .committed => .returned result
        | .unacknowledged error => .unsettled settings claim (classify_failure error)
        | .rolled_back error => .unsettled settings claim (classify_failure error)
        | .died _ => .finished
      { w with database := db }.set_phase execution phase
  | _ => w

/-- `_finish_failure`, in the `except` block of `_execute_claim` or in `settle_failures`. An outage
is raised again as `DependencyUnavailable` once it is settled. -/
def settle (w : World π ρ) (execution : ℕ) (settler : Settler) (jitter : Jitter) (fate : Fate) :
    World π ρ :=
  match w.phase execution with
  | some (.unsettled settings claim failure) =>
    match (deployment.service settings).finish_failure (w.database.lock_delivery claim.route) claim
      failure w.now jitter with
    | .error _ => w
    | .ok (row, result) =>
      let db := if fate.persisted then w.database.write row else w.database
      let phase := match fate, settler with
        | .committed, .own => if failure.infrastructure then .finished else .returned result
        | .committed, .settle_failures still_running =>
          if still_running then .unsettled settings claim failure else .finished
        | .unacknowledged _, _ => .unsettled settings claim failure
        | .rolled_back _, _ => .unsettled settings claim failure
        | .died _, _ => .finished
      { w with database := db }.set_phase execution phase
  | _ => w

/-- One action. An action that cannot be taken changes nothing. -/
def step (w : World π ρ) : Act π → World π ρ
  | .tick elapsed => { w with now := w.now + elapsed }
  | .persist event consumers lag =>
    { w with database := w.database.persist event consumers (w.now - lag) }
  | .route message group settings worker_id locked fate =>
    deployment.route w message group settings worker_id locked fate
  | .effect execution handler fate => deployment.effect w execution handler fate
  | .settle execution settler jitter fate => deployment.settle w execution settler jitter fate
  | .acknowledge execution => w.acknowledge execution
  | .crash execution => w.set_phase execution .finished
  | .recover_expired settings limit locked =>
    { w with database :=
        { w.database with deliveries :=
            (deployment.service settings).recover_expired w.database.deliveries w.now limit locked } }
  | .claim_due owner lease_seconds republish_after_seconds lag limit locked =>
    { w with database :=
        { w.database with
          deliveries := claim_due_deliveries w.database.events w.database.deliveries owner
            lease_seconds republish_after_seconds (w.now - lag) limit locked w.database.next_uuid
          next_uuid := w.database.next_uuid + w.database.deliveries.length } }
  | .observe claim lag =>
    { w with database :=
        { w.database with
          deliveries := observe_publication w.database.deliveries claim (w.now - lag) } }
  | .defer_claim claim retry_after_ms failure_category lag =>
    { w with database :=
        { w.database with
          deliveries := defer_claim_after_transport_failure w.database.deliveries claim
            retry_after_ms failure_category (w.now - lag) } }
  | .reset_observations cutoff lag limit locked =>
    { w with database :=
        { w.database with
          deliveries := reset_observations_before w.database.deliveries cutoff (w.now - lag) limit
            locked } }
  | .replay delivery_id operator reason =>
    match replay_locked w.database.events
      (Keyed.lookup DeliveryRecord.id delivery_id w.database.deliveries) deployment.strip operator
      reason w.now w.database.next_uuid with
    | .error _ => w
    | .ok r =>
      { w with database :=
          { w.database.write (some r) with next_uuid := w.database.next_uuid + 1 } }

/-- The system before its first action, at any time. -/
def initial (now : Timestamp) : World π ρ := ⟨now, ⟨[], [], [], 0⟩, [], []⟩

/-- The state after a run of the system from its start. -/
def run (now : Timestamp) (acts : List (Act π)) : World π ρ :=
  Transition.run deployment.step (initial now) acts

end Deployment

end RestaurantOS.Events
