import RestaurantOS.Analytics.Rebuild
import RestaurantOS.Events.Handling
import RestaurantOS.Events.Producers
import RestaurantOS.Idempotency
import RestaurantOS.Notifications.Diagnostics

/-!
# The whole pipeline

The commands of the restaurants, the outbox with its deliveries, the worker processes and the rows of
the three consumers, in one system. A command that commits inserts its events with their deliveries in
the same transaction. The worker processes run as they do in `Events`, but for two things: an event
that is inserted from outside is one of another restaurant, and an effect runs the handler that is
registered for its consumer on the rows of the restaurant, which are written with the receipt.

One restaurant is followed. The events of the others are there with their deliveries, and what their
handlers do is left open. -/

namespace RestaurantOS.Pipeline

open Fallible Events

/-- The rows of the consumers. They belong to the restaurant that is followed. -/
structure Consumers where
  /-- The analytics projection. -/
  analytics : Analytics.Projection
  /-- The alert projection. -/
  alerts : Alerts.AlertProjection
  /-- The notification sink. -/
  sink : Notifications.NotificationSink

/-- What a run starts from: the library functions, the legacy rows, the restaurant that is followed and
the settings of the worker processes. -/
structure Setup where
  /-- The library functions of the commands. -/
  lib : Library
  /-- The rows at the start. -/
  start : ℕ → NewBranch
  /-- The restaurant. -/
  restaurant_id : ℕ
  /-- The library of the contract models. -/
  py : LawfulPydantic
  /-- The retry policy. -/
  policy : RetryPolicy
  /-- `UUID(text)`. -/
  parse_uuid : String → Option UUID
  /-- `str(uuid)`. -/
  str_uuid : UUID → String
  /-- `str.strip`. -/
  strip : String → String

/-- The small restaurant with some library, numerals for identifiers and the default policy. -/
def Setup.small (lib : Library) : Setup where
  lib := lib
  start := fun _ => .small
  restaurant_id := 1
  py := Pydantic.strict
  policy := .default
  parse_uuid := fun text => Numerals.digits_value (fun _ => none) 0 text.toList
  str_uuid := Nat.repr
  strip := lib.strip

/-- The small setup is one, with any library without collisions. -/
instance : Nonempty Setup :=
  ⟨.small (Classical.choice (inferInstance : Nonempty DigestLibrary)).1⟩

/-- The row that `append_event` inserts for an event, with the trace context of the command. -/
def Setup.outbox_event (setup : Setup) (traceparent : Option String) (event : EventEnvelope Payload) :
    OutboxEvent Fields :=
  Contract.outbox_event setup.py.1 traceparent (Contract.envelope event)

/-- What the worker processes share. Policy and validation are the same for all of them. -/
def Setup.deployment (setup : Setup) : Deployment Fields Payload :=
  { policy := setup.policy, validate_python := Contract.validate_python setup.py.1,
    parse_uuid := setup.parse_uuid, str_uuid := setup.str_uuid, strip := setup.strip }

/-! ## The registered handlers -/

/-- `apply_order_event` reports an outcome. The worker records it with the receipt. -/
def analytics_outcome : Analytics.Outcome → EffectOutcome
  | .processed => .processed
  | .skipped => .skipped

/-- So do the other handlers. The names of the outcomes are the same. -/
def alerts_outcome : Alerts.Outcome → EffectOutcome
  | .processed => .processed
  | .skipped => .skipped

/-- The handler of a consumer, on the rows of the restaurant and of the consumers. -/
def handle (db : Branch) (now : Timestamp) (event : EventEnvelope Payload) (consumers : Consumers) :
    ConsumerName → Except Failure (Consumers × EffectOutcome)
  | .analytics => do
    let (analytics, outcome) ← Analytics.apply_order_event event consumers.analytics
    pure ({ consumers with analytics := analytics }, analytics_outcome outcome)
  | .alerts => do
    let (alerts, outcome) ← Alerts.apply_alert_event db event consumers.alerts
    pure ({ consumers with alerts := alerts }, alerts_outcome outcome)
  | .notification_sink => do
    let (sink, outcome) ← Notifications.apply_notification_event db now event consumers.sink
    pure ({ consumers with sink := sink }, alerts_outcome outcome)

/-- What a failing handler raises: the violation of a constraint, or a `ValueError`. -/
def raised_error : Failure → RaisedError
  | .DatabaseError => ⟨.IntegrityError, false, some "23514", none⟩
  | _ => .plain

/-- What awaiting a handler gives. A failure of a handler is known by its class. -/
def handler_result : Except Failure (Consumers × EffectOutcome) → HandlerResult
  | .ok (_, outcome) => .returned outcome
  | .error failure => .raised (raised_error failure)

/-! ## The system -/

/-- The state. It joins the systems of the earlier modules. -/
structure World where
  /-- The rows of the restaurants, and the commands. -/
  business : Serial.World ℕ Branch Request RestaurantOS.Failure Response
  /-- The outbox, the deliveries and the worker processes. -/
  worker : Events.World Fields Payload
  /-- The rows of the consumers of the restaurant. -/
  consumers : Consumers

/-- What happens next. Commands, worker processes and operators may act in any order. -/
inductive Act
  /-- A command goes on; if it commits, its events are stored with its trace context. -/
  | request (a : RestaurantOS.Act) (traceparent : Option String) (lag : ℕ)
  /-- A worker process goes on, or an event of another restaurant is stored. -/
  | worker (a : Events.Act Fields)
  /-- An execution runs its effect. Its handler may be interrupted by an error, and for another
  restaurant it does anything. -/
  | effect (execution : ℕ) (interrupted : Option RaisedError) (other : HandlerResult) (fate : Fate)
  /-- The analytics projection is rebuilt. -/
  | rebuild_analytics
  /-- The alert projection is rebuilt. -/
  | rebuild_alerts (now : Timestamp)

namespace World

variable (setup : Setup) (w : World)

/-- The rows of the restaurant. They are those that the commands have committed. -/
def db : Branch := w.business.rows setup.restaurant_id

/-- `append_event`. The event is stored with a delivery for each of its subscribers. -/
def append_event (traceparent : Option String) (lag : ℕ) (database : Database Fields)
    (event : EventEnvelope Payload) : Database Fields :=
  database.persist (setup.outbox_event traceparent event) (SUBSCRIPTIONS event.event_type)
    (w.worker.now - lag)

/-- The events can be stored, under keys that are new. -/
def admits (events : List (EventEnvelope Payload)) : Prop :=
  (∀ event ∈ events, Contract.storable event = true) ∧
    (events.map EventEnvelope.event_id).Nodup ∧
    ∀ event ∈ events, Keyed.lookup OutboxEvent.event_id event.event_id w.worker.database.events = none

/-- Each event and each key is checked. -/
instance (events : List (EventEnvelope Payload)) : Decidable (w.admits events) :=
  inferInstanceAs (Decidable (_ ∧ _ ∧ _))

/-- A command goes on. It does not commit if one of its events cannot be stored. -/
def request (a : RestaurantOS.Act) (traceparent : Option String) (lag : ℕ) : World :=
  let business := w.business.step (system setup.lib) a
  let events := (business.rows setup.restaurant_id).events.drop (w.db setup).events.length
  if w.admits events then
    { w with
      business := business
      worker := { w.worker with
        database := events.foldl (w.append_event setup traceparent lag) w.worker.database } }
  else w

/-- The actions of the worker processes that are as in `Events`. -/
def allows : Events.Act Fields → Bool
  | .persist event _ _ => event.restaurant_id ≠ (w.db setup).restaurant_id
  | .effect .. => false
  | _ => true

/-- An execution runs its effect. The rows of the consumers change exactly with the effect that is
committed. -/
def effect (execution : ℕ) (interrupted : Option RaisedError) (other : HandlerResult) (fate : Fate) :
    World :=
  match w.worker.phase execution with
  | some (.claimed _ claim) =>
    let own := claim.event.restaurant_id = (w.db setup).restaurant_id
    let handled := handle (w.db setup) w.worker.now claim.event w.consumers claim.consumer
    let handler := match interrupted with
      | some error => .raised error
      | none => if own then handler_result handled else other
    let worker := setup.deployment.effect w.worker execution handler fate
    -- The rows of the consumer are committed with the receipt.
    if own ∧ worker.database.effects ≠ w.worker.database.effects then
      match handled with
      | .ok (consumers, _) => { w with worker := worker, consumers := consumers }
      | .error _ => { w with worker := worker }
    else { w with worker := worker }
  | _ => w

/-- `rebuild_analytics_projection`. A rebuild that fails changes nothing. -/
def rebuild_analytics : World :=
  let db := w.db setup
  match Analytics.rebuild_analytics_projection db.organization_id db.restaurant_id db.orders db.events
      w.consumers.analytics with
  | .ok analytics => { w with consumers := { w.consumers with analytics := analytics } }
  | .error _ => w

/-- `AlertProjectionService.rebuild`. A rebuild that fails changes nothing. -/
def rebuild_alerts (now : Timestamp) : World :=
  let db := w.db setup
  match Alerts.rebuild db db.organization_id now w.consumers.alerts with
  | .ok alerts => { w with consumers := { w.consumers with alerts := alerts } }
  | .error _ => w

end World

/-- A step of the system. A step that cannot be taken changes nothing. -/
def step (setup : Setup) (w : World) : Act → World
  | .request a traceparent lag => w.request setup a traceparent lag
  | .worker a =>
    if w.allows setup a then { w with worker := setup.deployment.step w.worker a } else w
  | .effect execution interrupted other fate => w.effect setup execution interrupted other fate
  | .rebuild_analytics => w.rebuild_analytics setup
  | .rebuild_alerts now => w.rebuild_alerts setup now

/-- The start: the legacy rows, an empty outbox and empty rows of the consumers. -/
def initial (setup : Setup) (now : Timestamp) : World :=
  { business := Serial.World.initial fun restaurant_id => (setup.start restaurant_id).toBranch
    worker := Deployment.initial now
    consumers :=
      { analytics :=
          ⟨(setup.start setup.restaurant_id).organization_id,
            (setup.start setup.restaurant_id).restaurant_id, [], []⟩
        alerts := ⟨[], []⟩
        sink := ⟨[], [], 0⟩ } }

/-- The state after a run. It starts from the first request of the restaurant. -/
def run (setup : Setup) (now : Timestamp) (acts : List Act) : World :=
  Transition.run (step setup) (initial setup now) acts

end RestaurantOS.Pipeline
