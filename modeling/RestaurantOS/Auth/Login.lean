import RestaurantOS.Auth.LocalLimiter
import RestaurantOS.Auth.Sessions

/-!
# Logins under the limiter

`login` reserves the buckets of its address pair and of its network address, looks the user up and
verifies the password within a deadline, and settles the reservation on every way out: it is counted
if and only if an `AuthenticationError` leaves the deadline. Logins run concurrently; between two
awaits a login runs alone. An await may be interrupted by an error of the database, by the timer of
the deadline, by a cancellation, of which a login gets one, or by another exception.

Redis answers here, so the limiter is healthy and holds nothing in memory; then `admit` and `finalize`
do nothing but send their scripts (`healthy_admit`, `healthy_finalize`), and a login has three
commands at most. A command that was sent may be executed after its login has been cancelled.
-/

namespace RestaurantOS.Auth.Login

open RateLimit (Script Execution)

/-! ## A healthy limiter -/

section Healthy

open LocalLimiter

variable {w : LocalLimiter.World} {config : Config} {reading : Reading} {i : ℕ}

/-- Nothing is in memory after cleaning if nothing was. -/
theorem clean_empty (now : ℚ) : clean now Dict.empty = Dict.empty := rfl

/-- Under a guard nothing is reserved where nothing is in memory. -/
theorem local_admit_empty (auth_local_max_entries : ℕ) (now : ℚ) (buckets : List Bucket)
    (identifier : String) : local_admit auth_local_max_entries now buckets identifier true Dict.empty =
      (.ok false, Dict.empty) := by
  have htracked : tracked Dict.empty buckets identifier true = [] :=
    List.filter_eq_nil_iff.mpr fun _ _ => Bool.false_ne_true
  unfold local_admit
  rw [clean_empty]
  dsimp only
  rw [htracked]
  rfl

/-- Nothing is settled where nothing is in memory. The induction is on the buckets. -/
theorem local_finalize_empty (now : ℚ) (wall : String → ℚ) (id : String) (buckets : List Bucket)
    (count discard : Bool) :
    local_finalize now wall id buckets count discard Dict.empty = (Dict.empty, []) := by
  have hall : buckets.foldl (settle now wall id count discard) (Dict.empty, []) = (Dict.empty, []) := by
    induction buckets with
    | nil => rfl
    | cons bucket buckets ih => exact ih
  unfold local_finalize
  rw [clean_empty, hall]
  rfl

/-- While the limiter is healthy and holds nothing in memory, `admit` sends its script, and returns an
admission exactly if the answer is zero. -/
theorem healthy_admit (hentries : w.state.entries = Dict.empty) (hhealthy : w.state.degraded_at = none)
    (identifier probe_identifier : String) (keys : List String) :
    let request := LocalLimiter.Request.admission identifier probe_identifier keys
    w.critical config i reading request .entered = w.move i (.chosen false) ∧
    w.critical config i reading request (.chosen false) =
      w.send i (.admitting false) (.admission identifier keys false) ∧
    ∀ result, w.reply i reading .answer result request (.admitting false) =
      if result = 0 then w.return_admission i ⟨identifier, keys, true, false⟩
      else w.move i .withdrawing := by
  obtain ⟨now, ⟨entries, degraded_at, next_probe, probing, successes, generation⟩, redis, calls,
    identifiers, admissions, counted, events⟩ := w
  dsimp only at hentries hhealthy
  subst hentries hhealthy
  refine ⟨rfl, ?_, fun result => rfl⟩
  unfold World.critical World.admit_locally
  dsimp only
  rw [local_admit_empty]

/-- While the limiter holds nothing in memory, `finalize` only sends its script. -/
theorem healthy_finalize (hentries : w.state.entries = Dict.empty) (id : String) (keys : List String)
    (is_local count discard : Bool) :
    w.critical config i reading (.finalize ⟨id, keys, true, is_local⟩ count discard) .entered =
      w.send i .finalizing (.finalize id keys
        (if discard then .discard else if count then .count else .release)) := by
  obtain ⟨now, ⟨entries, degraded_at, next_probe, probing, successes, generation⟩, redis, calls,
    identifiers, admissions, counted, events⟩ := w
  dsimp only at hentries
  subst hentries
  unfold World.critical World.finalize_locally
  dsimp only
  rw [local_finalize_empty, if_pos rfl, List.append_nil]

end Healthy

/-! ## The settings and the library -/

/-- The bounds of the two buckets of a login. -/
structure Settings where
  /-- The bounds of the pair of addresses: `auth_login_email_limit` and `auth_login_window_seconds`. -/
  pair : RateLimit.Limit
  /-- The bounds of the network address: `auth_login_ip_limit` and `auth_login_ip_window_seconds`. -/
  ip : RateLimit.Limit
  /-- The bounds of the buckets of other kinds. -/
  other : String → RateLimit.Limit

/-- The functions that the service takes from libraries. -/
structure Library where
  /-- `str.strip`. -/
  strip : String → String
  /-- `str.casefold`. -/
  casefold : String → String
  /-- The keyed digest of a text. -/
  digest : String → String
  /-- `verify_and_update` of the hasher, for a password and a hash. -/
  verify_and_update : String → String → Bool × Option String
  /-- The hash for accounts that are unknown. -/
  dummy_hash : String

/-- `normalize_email`. Addresses that differ in case or in blanks at the ends are one account. -/
def normalize_email (lib : Library) (email : String) : String := lib.casefold (lib.strip email)

/-- `verify_password`. An unknown account is verified against a dummy hash, so that it takes as
long. -/
def verify_password (lib : Library) (password : String) (password_hash : Option String) :
    Bool × Option String :=
  let outcome := lib.verify_and_update password
    ((password_hash.filter (· ≠ "")).getD lib.dummy_hash)
  (outcome.1 && password_hash.isSome, outcome.2)

/-- `_key`. The kind is readable, and the identifiers are framed and hashed. -/
def _key (lib : Library) (kind : String) (identifiers : List String) : String :=
  let payload := String.join (identifiers.map fun value => toString value.length ++ ":" ++ value)
  kind ++ ":" ++ lib.digest (kind ++ ":" ++ payload)

/-- The kind of a bucket, which stands in its key before the colon. -/
def kind (key : String) : String := String.ofList (key.toList.takeWhile (· ≠ ':'))

/-- The bounds of a bucket. It depends on the kind of its key only. -/
def Settings.policy (settings : Settings) (key : String) : RateLimit.Limit :=
  if kind key = "login-pair" then settings.pair
  else if kind key = "login-ip" then settings.ip
  else settings.other key

/-- The key of the bucket of an address and a network address. -/
def pair_key (lib : Library) (email ip : String) : String := _key lib "login-pair" [email, ip]

/-- The key of the bucket of a network address. -/
def ip_key (lib : Library) (ip : String) : String := _key lib "login-ip" [ip]

/-- `login_buckets`. The pair of account and address comes first, then the address alone. -/
def login_buckets (settings : Settings) (lib : Library) (email ip : String) :
    List LocalLimiter.Bucket :=
  [⟨⟨pair_key lib email ip, settings.pair.maximum, settings.pair.window⟩, 3⟩,
    ⟨⟨ip_key lib ip, settings.ip.maximum, settings.ip.window⟩, 10⟩]

/-! ## A login -/

/-- An exception inside the deadline. They are what the awaits of a login may raise. -/
inductive Raised
  /-- `AuthenticationError`. -/
  | authentication
  /-- `SQLAlchemyError`. -/
  | database
  /-- `TimeoutError`, by the timer or by a check. -/
  | timeout
  /-- `CancelledError`. -/
  | cancelled
  /-- Any other exception. -/
  | other
  deriving DecidableEq

/-- How a login ends. Every login that ends does so in one of these ways. -/
inductive Outcome
  /-- It returns a session. -/
  | success
  /-- It raises `AuthenticationError`. -/
  | authentication_error
  /-- It raises `AuthStorageError`. -/
  | storage_error
  /-- It raises `RateLimitError` with the seconds to wait. -/
  | rate_limited (retry : ℕ)
  /-- It raises `CancelledError`. -/
  | cancelled
  /-- It raises another exception. -/
  | error
  deriving DecidableEq

/-- Where a login is. Each phase is an `await` of the source or the code up to the next one. -/
inductive Phase
  /-- It waits for `admit`. -/
  | admitting
  /-- It waits for `find_by_email`. -/
  | finding
  /-- It waits for `verify_password`. -/
  | verifying (user : Option User)
  /-- It waits for the family to be written. -/
  | flushing
  /-- It leaves the transaction, which is committed, or rolled back for an exception. -/
  | leaving_transaction (raised : Option Raised)
  /-- It leaves the database session. -/
  | closing_session (raised : Option Raised)
  /-- It waits for `finalize`. -/
  | finishing (outcome : Outcome)
  /-- It waits for the compensation of a cancelled `finalize`. -/
  | compensating
  /-- It has ended. -/
  | ended (outcome : Outcome)

/-- Whether a command was sent or executed, with its result and the time of the Redis clock. -/
inductive Command
  | unsent
  | sent
  | executed (result now : ℕ)
  deriving DecidableEq

/-- A login. It has the arguments, the local variables and the state of its three commands. -/
structure State where
  /-- The normalized address. -/
  email : String
  /-- The password. -/
  password : String
  /-- The network address. -/
  ip : String
  /-- The identifier of its admission. -/
  identifier : String
  /-- Where it is. -/
  phase : Phase
  /-- `ADMIT`. -/
  admission : Command
  /-- `FINALIZE`, which counts or releases. -/
  finalization : Command
  /-- `FINALIZE`, which discards. -/
  compensation : Command
  /-- `count`. -/
  count : Bool
  /-- The end of the deadline on the monotonic clock. -/
  expires : ℚ
  /-- The login has been cancelled. -/
  was_cancelled : Bool
  /-- The password has been given to `verify_password`. -/
  evaluated : Bool

/-- `AUTH_OPERATION_SECONDS`. The deadline of a login, in seconds. -/
def AUTH_OPERATION_SECONDS : ℕ := 8

namespace State

/-- The keys of the buckets of a login. -/
def keys (lib : Library) (l : State) : List String := [pair_key lib l.email l.ip, ip_key lib l.ip]

/-- `check` raises. The clock has reached the deadline. -/
def late (l : State) (now : ℚ) : Bool := decide (l.expires ≤ now)

/-- What leaves `authentication_deadline` and the handlers of `login`. -/
def surfaces : Option Raised → Outcome
  | none => .success
  | some .authentication => .authentication_error
  | some .database | some .timeout | some .cancelled => .storage_error
  | some .other => .error

/-- The end of the deadline, which is checked, and the beginning of `finish_admissions`. -/
def finish (l : State) (now : ℚ) (raised : Option Raised) : State :=
  let outcome := surfaces (if l.late now then some .timeout else raised)
  { l with
    phase := .finishing outcome
    count := decide (outcome = .authentication_error)
    finalization := .sent }

/-- A login goes on after an await: `now` is the monotonic clock, and `found` the row that
`find_by_email` returns. It waits as long as its command was not executed. -/
def proceed (lib : Library) (l : State) (now : ℚ) (found : Option User) : State :=
  match l.phase with
  | .admitting =>
    match l.admission with
    | .executed 0 _ => { l with phase := .finding, expires := now + AUTH_OPERATION_SECONDS }
    | .executed retry _ => { l with phase := .ended (.rate_limited retry) }
    | _ => l
  | .finding =>
    if l.late now then { l with phase := .leaving_transaction (some .timeout) }
    else { l with phase := .verifying found, evaluated := true }
  | .verifying user =>
    let valid := (verify_password lib l.password (user.map (·.password_hash))).1
    if l.late now then { l with phase := .leaving_transaction (some .timeout) }
    else if !(user.any fun user => valid && user.status = .active) then
      { l with phase := .leaving_transaction (some .authentication) }
    else { l with phase := .flushing }
  | .flushing =>
    if l.late now then { l with phase := .leaving_transaction (some .timeout) }
    else { l with phase := .leaving_transaction none }
  | .leaving_transaction raised =>
    { l with phase := .closing_session (if raised = none ∧ l.late now then some .timeout else raised) }
  | .closing_session raised => l.finish now raised
  | .finishing outcome =>
    match l.finalization with
    | .executed _ _ =>
      { l with phase := .ended (if outcome = .success ∧ l.late now then .storage_error else outcome) }
    | _ => l
  | .compensating =>
    match l.compensation with
    | .executed _ _ => { l with phase := .ended .storage_error }
    | _ => l
  | .ended _ => l

/-- An await is interrupted by an exception. The `finally` blocks and the compensation of the source
run from where it was. -/
def interrupt (l : State) (now : ℚ) (raised : Raised) : State :=
  let l := { l with was_cancelled := l.was_cancelled || decide (raised = Raised.cancelled) }
  match l.phase with
  | .admitting => if raised = .cancelled then { l with phase := .ended .cancelled } else l
  | .finding | .verifying _ | .flushing => { l with phase := .leaving_transaction (some raised) }
  | .leaving_transaction _ => { l with phase := .closing_session (some raised) }
  | .closing_session _ => l.finish now (some raised)
  | .finishing _ =>
    if raised = .cancelled then { l with phase := .compensating, compensation := .sent } else l
  | .compensating | .ended _ => l

/-- An exception may interrupt the login: the timer after the deadline, a cancellation once. -/
def may_interrupt (l : State) (now : ℚ) : Raised → Bool
  | .authentication => false
  | .timeout => l.late now
  | .cancelled => !l.was_cancelled
  | .database | .other => true

end State

/-! ## Concurrent logins -/

/-- The three commands of a login. `admit`, `finalize` and the `finalize` that takes a failure back.
-/
inductive Which
  | admission
  | finalization
  | compensation

/-- The logins and Redis. The logins run in any number of processes, with one Redis. -/
structure World where
  /-- The monotonic clock. -/
  now : ℚ
  /-- Redis. -/
  redis : RateLimit.World
  /-- The logins. -/
  logins : List State
  /-- The identifiers of their admissions. -/
  identifiers : List String

/-- Nobody has logged in. The clock is at zero and Redis is empty. -/
def World.initial : World := ⟨0, .initial, [], []⟩

/-- The actions. They interleave the logins with what Redis and the timers do. -/
inductive Act
  /-- `login` is called; its admission draws an identifier. -/
  | login (email password ip identifier : String)
  /-- A login goes on. -/
  | proceed (login : ℕ) (now : ℚ) (found : Option User)
  /-- An await of a login is interrupted. -/
  | interrupt (login : ℕ) (now : ℚ) (raised : Raised)
  /-- Redis executes a command of a login. -/
  | execute (login : ℕ) (which : Which) (now : ℕ)
  /-- Redis executes another command. -/
  | other (execution : Execution)

namespace State

/-- The state of a command. It is absent, sent, or executed with what it returned. -/
def command (l : State) : Which → Command
  | .admission => l.admission
  | .finalization => l.finalization
  | .compensation => l.compensation

/-- A command was executed. The login may or may not still wait for it. -/
def set_executed (l : State) (result now : ℕ) : Which → State
  | .admission => { l with admission := .executed result now }
  | .finalization => { l with finalization := .executed result now }
  | .compensation => { l with compensation := .executed result now }

/-- The script of a command. Its arguments are those of the login, and the compensation discards. -/
def script (lib : Library) (l : State) : Which → Script
  | .admission => .admission l.identifier (l.keys lib) false
  | .finalization => .finalize l.identifier (l.keys lib) (if l.count then .count else .release)
  | .compensation => .finalize l.identifier (l.keys lib) .discard

/-- Every admitted call finalizes within its lease. A finalization that comes later finds the
reservation gone. -/
def in_lease (l : State) (now : ℕ) : Which → Bool
  | .finalization =>
    match l.admission with
    | .executed _ admitted_at => decide (now < admitted_at + 10000)
    | _ => false
  | _ => true

end State

namespace World

/-- The result of a command: the one of `ADMIT`, and zero for `FINALIZE`. -/
def result (settings : Settings) (lib : Library) (redis : RateLimit.World) (now : ℕ) (l : State) :
    Which → ℕ
  | .admission => (RateLimit.ADMIT now l.identifier
      ((l.keys lib).map (RateLimit.Limit.bucket settings.policy)) false redis.limiter.redis).1
  | _ => 0

/-- One action. The clocks do not go back, and identifiers are not drawn twice. -/
def step (settings : Settings) (lib : Library) (w : World) : Act → World
  | .login email password ip identifier =>
    if identifier ∈ w.identifiers ∨ identifier ∈ w.redis.admitted then w
    else
      { w with
        logins := w.logins ++
          [{ email := normalize_email lib email, password := password, ip := ip,
             identifier := identifier, phase := .admitting, admission := .sent,
             finalization := .unsent, compensation := .unsent, count := false, expires := 0,
             was_cancelled := false, evaluated := false }]
        identifiers := w.identifiers ++ [identifier] }
  | .proceed i now found =>
    if w.now ≤ now then
      { w with now := now, logins := w.logins.modify i (State.proceed lib · now found) }
    else w
  | .interrupt i now raised =>
    if w.now ≤ now then
      { w with
        now := now
        logins := w.logins.modify i fun l =>
          if l.may_interrupt now raised then l.interrupt now raised else l }
    else w
  | .execute i which now =>
    match w.logins[i]? with
    | some l =>
      if l.command which = .sent ∧ w.redis.clock ≤ now ∧ l.in_lease now which then
        { w with
          redis := w.redis.step settings.policy ⟨now, l.script lib which⟩
          logins := w.logins.modify i
            (State.set_executed · (result settings lib w.redis now l which) now which) }
      else w
    | none => w
  | .other execution =>
    if execution.script.id ∈ w.identifiers then w
    else { w with redis := w.redis.step settings.policy execution }

/-- The world after a run. It starts before any login. -/
def run (settings : Settings) (lib : Library) (acts : List Act) : World :=
  Transition.run (step settings lib) initial acts

end World

end RestaurantOS.Auth.Login
