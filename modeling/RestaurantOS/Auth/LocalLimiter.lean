import Mathlib.Algebra.Order.Floor.Semiring
import Mathlib.Data.Rat.Floor
import RestaurantOS.Auth.RateLimit
import RestaurantOS.Lib.Dicts

/-!
# The limiter of a process

`AuthLimiter` admits and settles attempts by the scripts of `RateLimit` while Redis answers. Once a
command fails the limiter is degraded: it admits by buckets in memory, and it probes Redis from time
to time until three probes in a row have succeeded. This module is the state of the limiter, what its
critical sections do to it, and the calls of `admit` and `finalize` that run over it.

Calls run concurrently. Between two critical sections of a call, and while it waits for Redis, the
other calls go on; a command that was sent may be executed or not, at any time, also after its caller
has stopped waiting. Times of the monotonic clock are in seconds.
-/

namespace RestaurantOS.Auth.LocalLimiter

open RateLimit (Script Execution Mode)

/-! ## Buckets in memory -/

/-- The bounds of a bucket. They add the smaller maximum that holds while Redis is away. -/
structure Limit extends RateLimit.Limit where
  /-- The most attempts it admits in memory. -/
  local_maximum : ℕ
  /-- It admits something. -/
  local_maximum_pos : 0 < local_maximum

/-- `Bucket`. A bucket of Redis with its maximum in memory. -/
structure Bucket extends RateLimit.Bucket where
  /-- The most attempts it admits in memory. -/
  local_maximum : ℕ

/-- The bucket with its bounds. The policy of the source is a function of the kind of key. -/
def Limit.bucket (policy : String → Limit) (key : String) : Bucket :=
  ⟨⟨key, (policy key).maximum, (policy key).window⟩, (policy key).local_maximum⟩

/-- `LEASE_SECONDS`. The time within which an admitted attempt is to be finalized. -/
def LEASE_SECONDS : ℕ := 10

/-- `LocalBucket`: the times up to which failures count and reservations hold. -/
structure LocalBucket where
  /-- The failures by admission. -/
  failures : Dict String ℚ
  /-- The reservations by admission. -/
  reservations : Dict String ℚ

namespace LocalBucket

/-- A new bucket. It has neither failures nor reservations. -/
def empty : LocalBucket := ⟨Dict.empty, Dict.empty⟩

/-- `len(entry.failures) + len(entry.reservations)`. Both take room in the bucket. -/
def size (entry : LocalBucket) : ℕ := entry.failures.size + entry.reservations.size

/-- The bucket without what has expired. An entry is there until the clock has reached its time. -/
def cleaned (now : ℚ) (entry : LocalBucket) : LocalBucket :=
  ⟨entry.failures.keep fun _ expires => now < expires,
    entry.reservations.keep fun _ expires => now < expires⟩

/-- When the first failure or reservation expires. It tells how long a refused attempt has to wait.
-/
def first_expiry (entry : LocalBucket) : Option ℚ :=
  (entry.failures.values ++ entry.reservations.values).min?

end LocalBucket

/-- The buckets in memory. Under each key its failures and reservations, in the order of insertion.
-/
abbrev Entries := Dict String LocalBucket

/-- `_clean`. Buckets without an unexpired entry are dropped. -/
def clean (now : ℚ) (entries : Entries) : Entries :=
  (entries.map_values (LocalBucket.cleaned now)).keep fun _ entry => entry.size ≠ 0

/-- A bucket is in memory. It has an entry that was not expired when the buckets were last cleaned.
-/
def known (entries : Entries) (key : String) : Bool := (entries.get key).isSome

/-- The admission counts as a failure of the bucket. -/
def counts (entries : Entries) (key identifier : String) : Bool :=
  (entries.get key).any fun entry => (entry.failures.get identifier).isSome

/-- The buckets that `_local_admit` reserves: under a guard those in memory, and none in which the
admission counts already. -/
def tracked (entries : Entries) (buckets : List Bucket) (identifier : String) (guard : Bool) :
    List Bucket :=
  buckets.filter fun bucket =>
    (!guard || known entries bucket.key) && !counts entries bucket.key identifier

/-- How long the full ones among some buckets stay full. -/
def local_retry (now : ℚ) (entries : Entries) (buckets : List Bucket) : ℚ :=
  buckets.foldl (fun retry bucket =>
    match entries.get bucket.key with
    | some entry =>
      if bucket.local_maximum ≤ entry.size then max retry (entry.first_expiry.getD now - now)
      else retry
    | none => retry) 0

/-- A reservation is written to a bucket. A missing bucket is made for it. -/
def reserve (expires : ℚ) (identifier : String) (entries : Entries) (bucket : Bucket) : Entries :=
  let entry := (entries.get bucket.key).getD LocalBucket.empty
  entries.set bucket.key { entry with reservations := entry.reservations.set identifier expires }

/-- `_local_admit`: it fails with the seconds to wait, or says whether anything was reserved. -/
def local_admit (auth_local_max_entries : ℕ) (now : ℚ) (buckets : List Bucket) (identifier : String)
    (guard : Bool) (entries : Entries) : Except ℕ Bool × Entries :=
  let entries := clean now entries
  let tracked := tracked entries buckets identifier guard
  let retry := local_retry now entries tracked
  if 0 < retry then (.error (max 1 ⌈retry⌉₊), entries)
  else
    let missing := (tracked.filter fun bucket => !known entries bucket.key).length
    if auth_local_max_entries < entries.size + missing then (.error LEASE_SECONDS, entries)
    else (.ok !tracked.isEmpty, tracked.foldl (reserve (now + LEASE_SECONDS) identifier) entries)

/-- `Admission`. What `admit` returns and `finalize` is given. -/
structure Admission where
  /-- The identifier. -/
  id : String
  /-- The keys of the buckets. -/
  keys : List String
  /-- Whether it was admitted by Redis. -/
  redis : Bool
  /-- Whether it was admitted in memory. -/
  is_local : Bool
  deriving DecidableEq

/-- The rest of the fixed window in which the wall clock stands. -/
def window_rest (window : ℕ) (wall : ℚ) : ℚ := window - (wall - window * ⌊wall / window⌋)

/-- One bucket in the loop of `_local_finalize`, with the admissions that were counted in it. -/
def settle (now : ℚ) (wall : String → ℚ) (id : String) (count discard : Bool)
    (acc : Entries × List (String × String)) (bucket : Bucket) : Entries × List (String × String) :=
  match acc.1.get bucket.key with
  | none => acc
  | some entry =>
    let failures := if discard then entry.failures.pop id else entry.failures
    if (entry.reservations.get id).isNone then
      (acc.1.set bucket.key { entry with failures := failures }, acc.2)
    else
      let reservations := entry.reservations.pop id
      if count then
        let expires := now + window_rest bucket.window (wall bucket.key)
        (acc.1.set bucket.key ⟨failures.set id expires, reservations⟩, acc.2 ++ [(bucket.key, id)])
      else (acc.1.set bucket.key ⟨failures, reservations⟩, acc.2)

/-- `_local_finalize`: the buckets, and those in which the admission was counted as a failure. -/
def local_finalize (now : ℚ) (wall : String → ℚ) (id : String) (buckets : List Bucket)
    (count discard : Bool) (entries : Entries) : Entries × List (String × String) :=
  let settled := buckets.foldl (settle now wall id count discard) (clean now entries, [])
  (clean now settled.1, settled.2)

/-! ## The state of the limiter -/

/-- The fields of `AuthLimiter`. They change only in critical sections, each of which runs without
an `await`. -/
structure State where
  /-- `_entries`. -/
  entries : Entries
  /-- `_degraded_at`. -/
  degraded_at : Option ℚ
  /-- `_next_probe`. -/
  next_probe : ℚ
  /-- `_probing`. -/
  probing : Bool
  /-- `_successes`. -/
  successes : ℕ
  /-- `_generation`. -/
  generation : ℕ

/-- The state of a new limiter. It is not degraded, and Redis is tried first. -/
def State.initial : State := ⟨Dict.empty, none, 0, false, 0, 0⟩

/-- Two readings of the monotonic clock in a critical section, and the wall clock while a bucket is
settled. -/
structure Reading where
  /-- The first reading. -/
  first : ℚ
  /-- The second reading. -/
  second : ℚ
  /-- `_wall`. -/
  wall : String → ℚ

/-- `_degrade`. A limiter that is degraded already keeps the time since when it is, and the next
probe is put off. -/
def State.degrade (state : State) (reading : Reading) : State :=
  { state with
    generation := state.generation + 1
    degraded_at := state.degraded_at.or (some reading.first)
    successes := 0
    next_probe := reading.second + 5 }

/-- The decision of `_mode` to send a probe. -/
def State.probe (state : State) (reading : Reading) : Bool :=
  state.degraded_at.isSome && !state.probing && decide (state.next_probe ≤ reading.first)

/-- A probe has succeeded that was sent in the given generation. -/
def State.succeed (state : State) (generation : ℕ) : State :=
  if generation = state.generation then
    { state with
      successes := state.successes + 1
      degraded_at := if state.successes + 1 = 3 then none else state.degraded_at }
  else state

/-! ## Calls -/

/-- A call of the limiter. Its arguments, with what it draws from the source of randomness. -/
inductive Request
  /-- `admit`, with the identifier that it draws, and the one of the probe that it may send. -/
  | admission (identifier probe_identifier : String) (keys : List String)
  /-- `finalize`. -/
  | finalize (admission : Admission) (count discard : Bool)

/-- Where a call is. Each phase ends at an `await` or at a boundary between critical sections. -/
inductive Phase
  /-- It has been entered. -/
  | entered
  /-- `_mode` waits for the probe that it has sent in a generation. -/
  | probing (generation : ℕ)
  /-- The outcome of the probe is recorded; `raises` says whether `_mode` raises it. -/
  | probed (raises : Bool)
  /-- `_probing` is cleared. -/
  | cleared
  /-- `_mode` has returned. -/
  | chosen (degraded : Bool)
  /-- `admit` waits for Redis. -/
  | admitting (is_local : Bool)
  /-- `admit` was rejected or cancelled, and gives its local reservations back. -/
  | withdrawing
  /-- The Redis command of `admit` has failed; it gives its local reservations back. -/
  | failing
  /-- `admit` asks the buckets in memory. -/
  | falling
  /-- `finalize` waits for Redis. -/
  | finalizing
  /-- The Redis command of a counting `finalize` has failed; it reserves what is not counted. -/
  | recounting
  /-- It counts what it has reserved. -/
  | recounted
  /-- The call has returned. -/
  | returned
  /-- The call has raised an exception. -/
  | raised
  deriving DecidableEq

/-- A call with its command, as long as it has not been executed, and then the answer of Redis with
the time of its execution. -/
structure Call where
  /-- The call. -/
  request : Request
  /-- Where it is. -/
  phase : Phase
  /-- A command that has been sent and not been executed. -/
  sent : Option Script
  /-- The result of the executed command, and when it was executed. -/
  answer : Option (ℕ × ℕ)

/-- What a call gets from Redis. A failed command may have been executed or not. -/
inductive Reply
  /-- The answer of its command. -/
  | answer
  /-- Something that is no answer. -/
  | garbage
  /-- A failure of the command or of the connection, or that the time is over. -/
  | failure
  /-- The call is cancelled while it waits. -/
  | cancelled
  deriving DecidableEq

/-- The most milliseconds that the adapter waits for Redis. -/
def REDIS_OPERATION_BUDGET_MS : ℕ := 100

/-- The settings. They do not change during a run. -/
structure Config where
  /-- The bounds of the buckets. -/
  policy : String → Limit
  /-- `auth_local_max_entries`. -/
  auth_local_max_entries : ℕ
  /-- The key of the probe bucket of the process. -/
  probe_key : String

/-- The bounds with which the scripts are called. -/
def Config.limits (config : Config) (key : String) : RateLimit.Limit :=
  if key = config.probe_key then ⟨1, 60, by decide, by decide⟩ else (config.policy key).toLimit

/-- The buckets of some keys. They are in the order in which the buckets are checked and reserved.
-/
def Config.buckets (config : Config) (keys : List String) : List Bucket :=
  keys.map (Limit.bucket config.policy)

/-- What happens to the mode of a limiter. -/
inductive Event
  /-- A degradation. -/
  | degraded (time : ℚ)
  /-- A call sends a probe. -/
  | probe_started (call : ℕ) (time : ℚ)
  /-- The probe of a call succeeds. -/
  | probe_succeeded (call : ℕ) (time : ℚ)

/-- The limiter, Redis and the calls, with the history that the statements speak of. -/
structure World where
  /-- The last reading of the monotonic clock. -/
  now : ℚ
  /-- The state. -/
  state : State
  /-- Redis. -/
  redis : RateLimit.World
  /-- The calls. -/
  calls : List Call
  /-- The identifiers that were drawn. -/
  identifiers : List String
  /-- The admissions that were returned. -/
  admissions : List Admission
  /-- The buckets and admissions that were counted as local failures. -/
  counted : List (String × String)
  /-- The events, the latest first. -/
  events : List Event

/-- Nothing has happened. The limiter is new, no call has been entered and Redis is empty. -/
def World.initial : World := ⟨0, .initial, .initial, [], [], [], [], []⟩

namespace World

/-- A call moves on. What else it has written stays. -/
def move (w : World) (i : ℕ) (phase : Phase) : World :=
  { w with calls := w.calls.modify i fun call => { call with phase := phase } }

/-- A call sends a command and waits. The answer it waits for is that of this command. -/
def send (w : World) (i : ℕ) (phase : Phase) (script : Script) : World :=
  { w with calls := w.calls.modify i fun call =>
      { call with phase := phase, sent := some script, answer := none } }

/-- `_local_admit` for a call, which goes on as its outcome says. -/
def admit_locally (config : Config) (w : World) (reading : Reading) (keys : List String)
    (identifier : String) (guard : Bool) (next : Bool → World → World) (rejected : World → World) :
    World :=
  let outcome := local_admit config.auth_local_max_entries reading.first (config.buckets keys)
    identifier guard w.state.entries
  let w := { w with state := { w.state with entries := outcome.2 } }
  match outcome.1 with
  | .ok is_local => next is_local w
  | .error _ => rejected w

/-- `_local_finalize` for a call. The failures that it counts are recorded for the statements about
windows. -/
def finalize_locally (config : Config) (w : World) (reading : Reading) (id : String)
    (keys : List String) (count discard : Bool) : World :=
  let outcome := local_finalize reading.first reading.wall id (config.buckets keys) count discard
    w.state.entries
  { w with
    state := { w.state with entries := outcome.1 }
    counted := w.counted ++ outcome.2 }

/-- `_degrade`. The time of the event is that of the second reading of the clock. -/
def degrade (w : World) (reading : Reading) : World :=
  { w with
    state := w.state.degrade reading
    events := .degraded reading.second :: w.events }

/-- A call of `admit` returns an admission. The limiter forgets the call, and its caller has the
admission. -/
def return_admission (w : World) (i : ℕ) (admission : Admission) : World :=
  { w with admissions := w.admissions ++ [admission] }.move i .returned

/-- The next critical section of a call. Between two of them other calls may run theirs. -/
def critical (config : Config) (w : World) (i : ℕ) (reading : Reading) : Request → Phase → World
  -- The first section decides whether this call probes Redis.
  | .admission _ probe_identifier _, .entered =>
    if w.state.probe reading then
      { w with
        state := { w.state with
          probing := true
          next_probe := reading.second + 5 }
        events := .probe_started i reading.second :: w.events }.send i
          (.probing w.state.generation) (.admission probe_identifier [config.probe_key] true)
    else w.move i (.chosen w.state.degraded_at.isSome)
  -- After the probe the flag is taken down, however the probe has ended.
  | .admission _ _ _, .probed raises =>
    { w with state := { w.state with probing := false } }.move i
      (if raises then .raised else .cleared)
  | .admission _ _ _, .cleared => w.move i (.chosen w.state.degraded_at.isSome)
  -- While Redis is unavailable the admission is a local one.
  | .admission identifier _ keys, .chosen true =>
    w.admit_locally config reading keys identifier false
      (fun _ w => w.return_admission i ⟨identifier, keys, false, true⟩) (·.move i .raised)
  -- With Redis the local reservation comes first and is settled by what Redis answers.
  | .admission identifier _ keys, .chosen false =>
    w.admit_locally config reading keys identifier true
      (fun is_local w => w.send i (.admitting is_local) (.admission identifier keys false))
      (·.move i .raised)
  | .admission identifier _ keys, .withdrawing =>
    (w.finalize_locally config reading identifier keys false false).move i .raised
  | .admission identifier _ keys, .failing =>
    (w.finalize_locally config reading identifier keys false false).move i .falling
  | .admission identifier _ keys, .falling =>
    w.admit_locally config reading keys identifier false
      (fun _ w => w.return_admission i ⟨identifier, keys, false, true⟩) (·.move i .raised)
  -- The local buckets are settled before the script is sent.
  | .finalize admission count discard, .entered =>
    let w := w.finalize_locally config reading admission.id admission.keys count discard
    if admission.redis then
      w.send i .finalizing (.finalize admission.id admission.keys
        (if discard then .discard else if count then .count else .release))
    else w.move i .returned
  | .finalize admission _ _, .recounting =>
    w.admit_locally config reading admission.keys admission.id false
      (fun _ w => w.move i .recounted) (·.move i .returned)
  | .finalize admission _ _, .recounted =>
    (w.finalize_locally config reading admission.id admission.keys true false).move i .returned
  | _, _ => w

/-- A call gets a reply; an answer has a result. -/
def reply (w : World) (i : ℕ) (reading : Reading) (reply : Reply) (result : ℕ) :
    Request → Phase → World
  | .admission _ _ _, .probing generation =>
    match reply with
    | .answer =>
      if result = 0 then
        { w with
          state := w.state.succeed generation
          events := .probe_succeeded i reading.second :: w.events }.move i (.probed false)
      else (w.degrade reading).move i (.probed false)
    | .garbage | .failure => (w.degrade reading).move i (.probed false)
    | .cancelled => (w.degrade reading).move i (.probed true)
  | .admission identifier _ keys, .admitting is_local =>
    match reply with
    | .answer =>
      if result = 0 then w.return_admission i ⟨identifier, keys, true, is_local⟩
      else w.move i .withdrawing
    | .garbage | .failure => (w.degrade reading).move i .failing
    | .cancelled => w.move i .withdrawing
  | .finalize _ count _, .finalizing =>
    match reply with
    | .answer | .garbage => w.move i .returned
    | .failure => (w.degrade reading).move i (if count then .recounting else .returned)
    | .cancelled => w.move i .raised
  | _, _ => w

/-- A command is executed: the result that `ADMIT` returns, which is zero for `FINALIZE`. -/
def result (config : Config) (redis : RateLimit.World) (now : ℕ) : Script → ℕ
  | .admission id keys probe =>
    (RateLimit.ADMIT now id (keys.map (RateLimit.Limit.bucket config.limits)) probe
      redis.limiter.redis).1
  | .finalize _ _ _ => 0

end World

/-- An admission has an identifier that is new to Redis. -/
def is_new (redis : RateLimit.World) : Script → Bool
  | .admission id _ _ => id ∉ redis.admitted
  | .finalize _ _ _ => true

/-- The actions. They interleave the calls of one limiter with what Redis and the clock do. -/
inductive Act
  /-- A call is entered. -/
  | call (request : Request)
  /-- A call runs its next critical section. -/
  | proceed (call : ℕ) (reading : Reading)
  /-- Redis executes the command of a call. -/
  | execute (call : ℕ) (now : ℕ)
  /-- Redis executes a command of another process. -/
  | other (execution : Execution)
  /-- A call gets a reply, at a time of the Redis clock. -/
  | reply (call : ℕ) (reply : Reply) (reading : Reading) (redis_now : ℕ)

namespace World

/-- The clock has been read at later and later times. -/
def reads (w : World) (reading : Reading) : Prop :=
  w.now ≤ reading.first ∧ reading.first ≤ reading.second

/-- Readings of the clock are compared. -/
instance (w : World) (reading : Reading) : Decidable (w.reads reading) :=
  inferInstanceAs (Decidable (_ ∧ _))

/-- A call may be entered: identifiers are new, and an admission has been returned before it is
settled. -/
def may_enter (w : World) : Request → Prop
  | .admission identifier probe_identifier _ =>
    identifier ≠ probe_identifier ∧ identifier ∉ w.identifiers ∧ probe_identifier ∉ w.identifiers
  | .finalize admission _ _ => admission ∈ w.admissions

/-- Identifiers and admissions are looked up in the history. -/
instance (w : World) : ∀ request, Decidable (w.may_enter request)
  | .admission _ _ _ => inferInstanceAs (Decidable (_ ∧ _))
  | .finalize _ _ _ => inferInstanceAs (Decidable (_ ∈ _))

/-- The identifiers that a call draws. Only an admission draws any. -/
def drawn : Request → List String
  | .admission identifier probe_identifier _ => [identifier, probe_identifier]
  | .finalize _ _ _ => []

/-- One action. The clocks do not go back; identifiers are not drawn twice, and other processes do
not know those of this one; and the adapter waits no longer than its budget for an answer. -/
def step (config : Config) (w : World) : Act → World
  | .call request =>
    if w.may_enter request then
      { w with
        calls := w.calls ++ [⟨request, .entered, none, none⟩]
        identifiers := w.identifiers ++ drawn request }
    else w
  | .proceed i reading =>
    match w.calls[i]? with
    | some call =>
      if w.reads reading then
        { w with now := reading.second }.critical config i reading call.request call.phase
      else w
    | none => w
  | .execute i now =>
    match w.calls[i]? with
    | some ⟨_, _, some script, _⟩ =>
      if w.redis.clock ≤ now ∧ is_new w.redis script then
        { w with
          redis := w.redis.step config.limits ⟨now, script⟩
          calls := w.calls.modify i fun call =>
            { call with sent := none, answer := some (result config w.redis now script, now) } }
      else w
    | _ => w
  | .other execution =>
    if execution.script.id ∈ w.identifiers then w
    else { w with redis := w.redis.step config.limits execution }
  | .reply i reply reading redis_now =>
    match w.calls[i]? with
    | some call =>
      if w.reads reading then
        match reply, call.answer with
        | .answer, none => w
        | .answer, some (result, executed_at) =>
          if w.redis.clock ≤ redis_now ∧ redis_now ≤ executed_at + REDIS_OPERATION_BUDGET_MS then
            { w with now := reading.second }.reply i reading .answer result call.request call.phase
          else w
        | reply, _ =>
          { w with now := reading.second }.reply i reading reply 0 call.request call.phase
      else w
    | none => w

/-- The world after a run. It starts with a new limiter. -/
def run (config : Config) (acts : List Act) : World :=
  Transition.run (step config) initial acts

end World

end RestaurantOS.Auth.LocalLimiter
