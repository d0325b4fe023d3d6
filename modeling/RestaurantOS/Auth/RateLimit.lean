import RestaurantOS.Lib.Run
import RestaurantOS.Lib.SortedSets

/-!
# The rate-limit scripts

The two scripts by which the authentication limiter admits an attempt and settles it
(`auth/rate_limit.py`). A bucket is a key with a sorted set: an attempt that is under way holds its
reservation `r:id` there for ten seconds, and an attempt that failed is counted as `f:id` until the
fixed window in which it was recorded ends. Times are the milliseconds of the Redis clock, which
does not move within a script. `Limiter` adds to the keys the history of the failures that `FINALIZE`
has written to them, and `World.step` executes one script.
-/

namespace RestaurantOS.Auth.RateLimit

open SortedSets

/-- The keys of the Redis namespace. A missing key is the empty sorted set. -/
abbrev Redis := String → SortedKey String

/-- A bucket of the limiter, as `admit` and `finalize` pass it to the scripts. -/
structure Bucket where
  /-- The key of its sorted set. -/
  key : String
  /-- The most attempts it admits in a window. -/
  maximum : ℕ
  /-- The length of a window in seconds. -/
  window : ℕ

/-- The member by which an attempt holds its place. -/
def reservation (id : String) : String := "r:" ++ id

/-- The member by which a failed attempt is counted. -/
def failure (id : String) : String := "f:" ++ id

/-- The member of a reservation determines its attempt. -/
@[simp] theorem reservation_inj {id id' : String} : reservation id = reservation id' ↔ id = id' := by
  unfold reservation
  rw [← String.toList_inj, String.toList_append, String.toList_append, List.append_cancel_left_eq,
    String.toList_inj]

/-- The member of a failure determines its attempt. -/
@[simp] theorem failure_inj {id id' : String} : failure id = failure id' ↔ id = id' := by
  unfold failure
  rw [← String.toList_inj, String.toList_append, String.toList_append, List.append_cancel_left_eq,
    String.toList_inj]

/-- Failures and reservations are told apart by the first character. -/
@[simp] theorem failure_ne_reservation (id id' : String) : failure id ≠ reservation id' := by
  unfold failure reservation
  intro h
  have hlist := congrArg String.toList h
  rw [String.toList_append, String.toList_append] at hlist
  exact absurd (List.cons.inj hlist).1 (by decide)

/-! ## Admission -/

/-- One bucket in the first loop of `ADMIT`: a full one makes the caller wait for its first member
to leave. -/
def ADMIT.check (now : ℕ) (acc : ℕ × Redis) (bucket : Bucket) : ℕ × Redis :=
  let key := (acc.2 bucket.key).pruned now
  let retry :=
    if bucket.maximum ≤ key.zcard then max acc.1 (key.first_score.getD now - now) else acc.1
  (retry, Function.update acc.2 bucket.key key)

/-- One key in the second loop of `ADMIT`. -/
def ADMIT.reserve (now : ℕ) (id : String) (probe : Bool) (key : SortedKey String) :
    SortedKey String :=
  let key := (key.zadd (now + 10000) (reservation id)).expire_with_last now
  if probe then key.zrem (reservation id) else key

/-- The script `ADMIT`: the seconds to wait, or zero once every bucket holds a reservation. -/
def ADMIT (now : ℕ) (id : String) (buckets : List Bucket) (probe : Bool) (redis : Redis) :
    ℕ × Redis :=
  let checked := buckets.foldl (ADMIT.check now) (0, redis)
  if 0 < checked.1 then (max 1 ((checked.1 + 999) / 1000), checked.2)
  else (0, update_each (ADMIT.reserve now id probe) (buckets.map Bucket.key) checked.2)

/-! ## Settlement -/

/-- What `FINALIZE` does with a reservation. It is the last argument of the script. -/
inductive Mode
  /-- `0`: it is released. -/
  | release
  /-- `1`: it is counted as a failure. -/
  | count
  /-- `2`: it is released, with the failure that may have been counted for it. -/
  | discard
  deriving DecidableEq

/-- A failure that was written to a bucket. -/
structure Recorded where
  /-- The key of the bucket. -/
  key : String
  /-- The admission. -/
  id : String
  /-- When it was written. -/
  recorded_at : ℕ
  deriving DecidableEq

/-- The keys, and the history of the failures in them. -/
structure Limiter where
  /-- The sorted sets. -/
  redis : Redis
  /-- Every failure that was written. -/
  recorded : List Recorded
  /-- The failures that were written and not discarded since. -/
  counted : List Recorded

/-- The end of the window of `window` milliseconds in which `now` lies. -/
def window_end (window now : ℕ) : ℕ := (now / window + 1) * window

/-- One bucket in the loop of `FINALIZE`. The key is pruned first, so an expired reservation is not
counted. -/
def FINALIZE.settle (now : ℕ) (id : String) (mode : Mode) (limiter : Limiter) (bucket : Bucket) :
    Limiter :=
  let key := (limiter.redis bucket.key).pruned now
  let removed := (key.zscore (reservation id)).isSome
  let key := key.zrem (reservation id)
  let key := if mode = .discard then key.zrem (failure id) else key
  let counted := limiter.counted.filter fun r =>
    ¬(mode = .discard ∧ r.key = bucket.key ∧ r.id = id)
  if removed ∧ mode = .count then
    let key := key.zadd (window_end (bucket.window * 1000) now) (failure id)
    { redis := Function.update limiter.redis bucket.key (key.expire_with_last now)
      recorded := limiter.recorded ++ [⟨bucket.key, id, now⟩]
      counted := counted ++ [⟨bucket.key, id, now⟩] }
  else
    { redis := Function.update limiter.redis bucket.key (key.expire_with_last now)
      recorded := limiter.recorded
      counted := counted }

/-- The script `FINALIZE`. It settles the bucket of each key in turn. -/
def FINALIZE (now : ℕ) (id : String) (buckets : List Bucket) (mode : Mode) (limiter : Limiter) :
    Limiter :=
  buckets.foldl (FINALIZE.settle now id mode) limiter

/-! ## Executions -/

/-- The bounds of a bucket, the same in every script. -/
structure Limit where
  /-- The most attempts it admits in a window. -/
  maximum : ℕ
  /-- The length of a window in seconds. -/
  window : ℕ
  /-- A bucket admits something. -/
  maximum_pos : 0 < maximum
  /-- A window lasts. -/
  window_pos : 0 < window

/-- The bucket with its bounds, as it is passed to the scripts. -/
def Limit.bucket (policy : String → Limit) (key : String) : Bucket :=
  ⟨key, (policy key).maximum, (policy key).window⟩

/-- The aligned window in which a failure was written. -/
def Recorded.window (policy : String → Limit) (r : Recorded) : ℕ :=
  r.recorded_at / ((policy r.key).window * 1000)

/-- A script with its arguments. The buckets follow from the keys by the policy. -/
inductive Script
  /-- `ADMIT`, for an attempt or as the probe of a recovering process. -/
  | admission (id : String) (keys : List String) (probe : Bool)
  /-- `FINALIZE`. -/
  | finalize (id : String) (keys : List String) (mode : Mode)

/-- The identifier of the attempt. The members of the sorted sets are named after it. -/
def Script.id : Script → String
  | .admission id _ _ => id
  | .finalize id _ _ => id

/-- The execution of a script at a time of the Redis clock. -/
structure Execution where
  /-- The time of the clock. -/
  now : ℕ
  /-- What is executed. -/
  script : Script

/-- The limiter with the last time of the clock and the identifiers of the admissions. -/
structure World where
  /-- The keys and their history. -/
  limiter : Limiter
  /-- When the last script ran. -/
  clock : ℕ
  /-- The identifiers that were used. -/
  admitted : List String

/-- Nothing is stored. Neither Redis nor the history has an entry. -/
def World.initial : World := ⟨⟨fun _ => .missing, [], []⟩, 0, []⟩

/-- One execution. The clock does not go back, and every admission draws a new identifier: other
executions do not happen. -/
def World.step (policy : String → Limit) (w : World) (execution : Execution) : World :=
  if execution.now < w.clock then w
  else match execution.script with
  | .admission id keys probe =>
    if id ∈ w.admitted then w
    else
      let outcome := ADMIT execution.now id (keys.map (Limit.bucket policy)) probe w.limiter.redis
      { limiter := { w.limiter with redis := outcome.2 }
        clock := execution.now
        admitted := id :: w.admitted }
  | .finalize id keys mode =>
    { w with
      limiter := FINALIZE execution.now id (keys.map (Limit.bucket policy)) mode w.limiter
      clock := execution.now }

/-- The world after some executions. The scripts are executed one after the other, each at a time of
its own. -/
def World.scripts (policy : String → Limit) (executions : List Execution) : World :=
  Transition.run (World.step policy) World.initial executions

end RestaurantOS.Auth.RateLimit
