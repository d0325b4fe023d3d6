import Mathlib.Tactic.Linarith
import RestaurantOS.Core.Time

/-!
# Retry policy and failure classification

`RetryPolicy` bounds the attempts of a retry cycle and spaces them out; `classify_failure` maps what
a handler raised to the category that settlement records. The policy's floating-point seconds are
rationals here.
-/

namespace RestaurantOS.Events

/-- `WorkerFailureKind`: how a Redis operation of the worker failed. -/
inductive WorkerFailureKind
  | timeout
  | connection
  | command
  deriving DecidableEq, Repr

/-- The categories a delivery or an attempt records for a failure. -/
inductive ErrorCategory
  | unsupported_version
  | invalid_payload
  | event_constraint
  | event_transient
  | handler_failure
  | worker_interrupted
  | attempt_limit
  | postgres_unavailable
  | dependency_unavailable
  | redis (kind : WorkerFailureKind)
  | redis_stream_recovered
  deriving DecidableEq, Repr

/-- The two categories of an outage that is not the event's: attempts that end with one of them are
not charged. -/
def ErrorCategory.infrastructure : ErrorCategory → Bool
  | .postgres_unavailable | .dependency_unavailable => true
  | _ => false

/-! ## Classification -/

/-- The exception classes that `classify_failure` tells apart. `IntegrityError` is a subclass of
`DBAPIError`. -/
inductive ErrorClass
  | DependencyUnavailable
  | PoolTimeout
  | OSError
  | TimeoutError
  | DBAPIError
  | IntegrityError
  | EventTransientFailure
  | Exception
  deriving DecidableEq, Repr

/-- An exception raised inside an effect transaction, with the codes of its `orig` for a
`DBAPIError` and its own for another one. -/
structure RaisedError where
  /-- The class of the exception. -/
  class_name : ErrorClass
  /-- `connection_invalidated` of a `DBAPIError`. -/
  connection_invalidated : Bool
  /-- The `sqlstate` attribute. -/
  sqlstate : Option String
  /-- The `pgcode` attribute. -/
  pgcode : Option String

/-- `code.startswith(text)`. Codes are compared by their prefix. -/
def startswith (code text : String) : Bool := text.toList.isPrefixOf code.toList

namespace RaisedError

/-- `isinstance(error, DBAPIError)`. `IntegrityError` is one of its subclasses. -/
def is_dbapi (error : RaisedError) : Bool :=
  error.class_name = .DBAPIError || error.class_name = .IntegrityError

/-- `getattr(original, "sqlstate", None) or getattr(original, "pgcode", None)`. An empty code counts
as none. -/
def code (error : RaisedError) : Option String :=
  match error.sqlstate with
  | some text => if text = "" then error.pgcode else some text
  | none => error.pgcode

end RaisedError

/-- `Failure`: how settlement treats a failed attempt. It decides about the status, the counts and
the next time. -/
structure Failure where
  /-- The recorded category. -/
  category : ErrorCategory
  /-- Whether the failure is an outage and the attempt is given back. -/
  infrastructure : Bool
  /-- Whether no retry can help. -/
  permanent : Bool
  deriving DecidableEq, Repr

/-- The codes of a lost or starved PostgreSQL. -/
def outage_code (code : String) : Bool :=
  startswith code "08" || startswith code "28" || startswith code "53" ||
    code = "57P01" || code = "57P02" || code = "57P03" || code = "58030"

/-- `classify_failure`. Outages are told from failures of the handler by class and SQL state. -/
def classify_failure (error : RaisedError) : Failure :=
  if error.class_name = .DependencyUnavailable then ⟨.dependency_unavailable, true, false⟩
  else if error.class_name = .PoolTimeout || error.class_name = .OSError ||
      error.class_name = .TimeoutError then ⟨.postgres_unavailable, true, false⟩
  else if (error.is_dbapi && error.connection_invalidated) || error.code.any outage_code then
    ⟨.postgres_unavailable, true, false⟩
  else if error.class_name = .IntegrityError || error.code.any (startswith · "23") then
    ⟨.event_constraint, false, true⟩
  else if error.code = some "40001" || error.code = some "40P01" then
    ⟨.event_transient, false, false⟩
  else if error.class_name = .EventTransientFailure then ⟨.event_transient, false, false⟩
  else ⟨.handler_failure, false, false⟩

/-- A failure is marked as an outage exactly if its category is one of the two outage categories. -/
theorem classify_failure_infrastructure (error : RaisedError) :
    (classify_failure error).infrastructure = (classify_failure error).category.infrastructure := by
  unfold classify_failure
  split_ifs <;> rfl

/-! ## Back-off -/

/-- `RetryPolicy`, with the check of its `__post_init__`. A policy that is out of these bounds
cannot be built. -/
structure RetryPolicy where
  /-- How many attempts of one retry cycle may be charged. -/
  max_attempts : ℤ
  /-- At least one attempt. -/
  one_le : 1 ≤ max_attempts
  /-- At most a hundred. -/
  le_hundred : max_attempts ≤ 100

/-- The policy of the service's default arguments. It allows eight charged attempts. -/
def RetryPolicy.default : RetryPolicy := ⟨8, by decide, by decide⟩

/-- A value of `random.random`: at least 0 and below 1. -/
abbrev Jitter := {j : ℚ // 0 ≤ j ∧ j < 1}

/-- `RetryPolicy.delay_seconds`; `none` is its `ValueError`. It doubles up to a minute, with a tenth
of jitter at most. -/
def RetryPolicy.delay_seconds (_ : RetryPolicy) (attempt_count : ℤ) (jitter : ℚ) : Option ℚ :=
  if attempt_count < 1 ∨ ¬(0 ≤ jitter ∧ jitter ≤ 1) then none
  else
    let base : ℚ := min 60 (2 ^ (min (attempt_count - 1) 6).toNat)
    some (min 60 (base * (1 + 1 / 10 * jitter)))

/-- The delay is defined for every charged attempt and every drawn jitter. -/
theorem RetryPolicy.delay_seconds_isSome (policy : RetryPolicy) {attempt_count : ℤ}
    (h : 1 ≤ attempt_count) (jitter : Jitter) :
    (policy.delay_seconds attempt_count jitter).isSome := by
  obtain ⟨j, hj0, hj1⟩ := jitter
  simpa [delay_seconds] using ⟨h, hj0, hj1.le⟩

end RestaurantOS.Events
