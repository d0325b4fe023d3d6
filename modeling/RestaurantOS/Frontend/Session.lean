import RestaurantOS.Lib.Run
import Mathlib.Data.List.Basic
import Mathlib.Data.Nat.Notation

/-!
# The session of a browser tab

The module state of `lib/api/client.ts` in one document, and what its calls do between their awaits:
`apiFetch`, `login`, `logout`, and `renewSession`, which `apiFetch` and a page call. The promise that
`renewSession` makes is an entry of `renewals`, known by its index, so a call that awaits it names it.
`navigator.locks` has one holder at a time, a renewal, a call or another tab, and grants the lock in any
order; a lock is released at some time after its operation has ended. Requests end in any way: with a
response or without one. `history` is what has happened, the last event first. A call whose path
`request` refuses sends nothing and changes nothing here.
-/

namespace RestaurantOS.Frontend.Session

/-! ## Responses and errors -/

/-- What a promise is rejected with. JavaScript may throw any value. -/
inductive Thrown
  /-- `ApiError`. -/
  | api_error (message : String) (status : ℕ)
  /-- Any other `Error`. -/
  | error (message : String)
  /-- A value that is no `Error`. -/
  | value
deriving DecidableEq

/-- How a promise settles: it is fulfilled, or rejected. -/
abbrev Outcome := Option Thrown

/-- A response, with the `detail` of its body. -/
structure Response where
  /-- The status. -/
  status : ℕ
  /-- `body.detail`, if it is a string. -/
  detail : Option String
deriving DecidableEq

/-- `response.ok`. The status is one of success. -/
def Response.ok (response : Response) : Bool := 200 ≤ response.status ∧ response.status ≤ 299

/-- `checkResponse`. An error carries the detail of the body, or a standard message. -/
def checkResponse (response : Response) : Outcome :=
  if response.ok then none
  else some (.api_error (response.detail.getD "The request could not be completed.") response.status)

/-- How a request ends. `fetch` is fulfilled with a response, or rejected. -/
inductive Reply
  | response (response : Response)
  | failed (failure : Thrown)
deriving DecidableEq

/-- The request has succeeded. A rejection is none. -/
def Reply.ok : Reply → Bool
  | .response answer => answer.ok
  | .failed _ => false

/-- What `failedRefresh` is set to. A value that is no error is replaced by one. -/
def Thrown.as_error : Thrown → Thrown
  | .value => .error "Session renewal failed. Please sign in again."
  | failure => failure

/-- The error of a browser without `navigator.locks`. Without locks the session is never renewed. -/
def no_locks : Thrown :=
  .api_error "Please sign in again to renew your session in this browser." 401

/-! ## The state of the tab -/

/-- A promise of `renewSession`. Each phase ends at an `await`. -/
inductive Renewal
  /-- It waits for the lock. -/
  | waiting
  /-- `/auth/me` is in flight. -/
  | asking
  /-- The body of its answer is read. -/
  | reading_current (response : Response)
  /-- The `POST` of `/auth/refresh` is in flight. -/
  | refreshing
  /-- The body of its answer is read. -/
  | reading_refreshed (response : Response)
  /-- The operation has ended, and `finally` has not run. -/
  | settling (outcome : Outcome)
  /-- It is settled. -/
  | settled (outcome : Outcome)
deriving DecidableEq

/-- `apiFetch`. Each phase ends at an `await`. -/
inductive Fetch
  /-- Its first request is in flight. -/
  | first
  /-- It awaits a renewal. -/
  | renewing (renewal : ℕ)
  /-- Its second request is in flight. -/
  | again
  /-- The body of the answer is read. -/
  | reading (response : Response)
  /-- It has ended. -/
  | ended (outcome : Outcome)
deriving DecidableEq

/-- `login` or `logout`. Each phase ends at an `await`. -/
inductive Mutation
  /-- It waits for the lock. -/
  | waiting
  /-- Its request is in flight. -/
  | sent
  /-- The body of an error is read. -/
  | reading (response : Response)
  /-- The body of the user is read. -/
  | parsing
  /-- It has ended. -/
  | ended (outcome : Outcome)
deriving DecidableEq

/-- A call. Calls run concurrently, and each awaits one promise at a time. -/
inductive Call
  | fetch (phase : Fetch)
  /-- A page calls `renewSession`, and awaits a renewal. -/
  | renew (renewal : ℕ)
  /-- Its promise has settled. -/
  | renewed (outcome : Outcome)
  | login (phase : Mutation)
  | logout (phase : Mutation)
deriving DecidableEq

/-- Who holds the lock. The lock is shared by the tabs of a browser. -/
inductive Holder
  | renewal (renewal : ℕ)
  | call (call : ℕ)
  /-- Another tab. -/
  | other
deriving DecidableEq

/-- What has happened. Events are recorded for the statements, the latest first. -/
inductive Event
  | lock_acquired (holder : Holder)
  | lock_released
  /-- A renewal sends its request of `/auth/me`. -/
  | current_sent (renewal : ℕ)
  | current_answered (renewal : ℕ) (reply : Reply)
  /-- A renewal sends its `POST` of `/auth/refresh`. -/
  | refresh_sent (renewal : ℕ)
  | refresh_answered (renewal : ℕ) (reply : Reply)
  | settled (renewal : ℕ) (outcome : Outcome)
  /-- A call of `apiFetch` sends its request. -/
  | request_sent (call : ℕ)
  | request_answered (call : ℕ) (reply : Reply)
  /-- A call goes on after a renewal it awaited. -/
  | resumed (call renewal : ℕ) (outcome : Outcome)
  /-- The page is replaced by the one for signing in. -/
  | redirected (call : ℕ)
  | login_answered (call : ℕ) (reply : Reply)
deriving DecidableEq

/-- A tab. The variables of the module, with the calls and their history. -/
structure World where
  /-- `failedRefresh`. -/
  failedRefresh : Option Thrown
  /-- `pendingRefresh`. -/
  pendingRefresh : Option ℕ
  /-- The promises of `renewSession`. -/
  renewals : List Renewal
  /-- The calls. -/
  calls : List Call
  /-- Who holds the lock. -/
  holder : Option Holder
  /-- The events, the last one first. -/
  history : List Event

namespace World

/-- A tab as its document is loaded. No call has been made and nobody holds the lock. -/
def loaded : World := ⟨none, none, [], [], none, []⟩

variable (w : World)

/-- An event happens. Only the history changes. -/
def record (event : Event) : World := { w with history := event :: w.history }

/-- A call begins. It is the last of the list. -/
def call (call : Call) : World := { w with calls := w.calls ++ [call] }

/-- A call goes on. The other calls stay. -/
def set_call (c : ℕ) (call : Call) : World := { w with calls := w.calls.set c call }

/-- A renewal goes on. The other renewals stay. -/
def set_renewal (i : ℕ) (renewal : Renewal) : World :=
  { w with renewals := w.renewals.set i renewal }

/-- Another tab may let go of the lock at any time; an operation of this one must have ended. -/
def ended : Holder → Bool
  | .renewal i =>
    match w.renewals[i]? with
    | some (.settling _) | some (.settled _) => true
    | _ => false
  | .call c =>
    match w.calls[c]? with
    | some (.login (.ended _)) | some (.logout (.ended _)) => true
    | _ => false
  | .other => true

/-! ## Renewals -/

/-- `renewSession`: a rejection, or a promise. A promise that is pending is shared, and a remembered
failure is thrown at once. -/
def renewSession (locks : Bool) : World × (Thrown ⊕ ℕ) :=
  match w.failedRefresh with
  | some failure => (w, .inl failure)
  | none =>
    match w.pendingRefresh with
    | some renewal => (w, .inr renewal)
    | none =>
      let renewal := if locks then .waiting else .settling (some no_locks)
      ({ w with
        renewals := w.renewals ++ [renewal]
        pendingRefresh := some w.renewals.length }, .inr w.renewals.length)

/-- The operation of a renewal begins. It runs under the lock, and a failure that was remembered
meanwhile ends it. -/
def begin_renewal (i : ℕ) : World :=
  match w.failedRefresh with
  | some failure => w.set_renewal i (.settling (some failure))
  | none => (w.set_renewal i .asking).record (.current_sent i)

/-- The operation goes on after `/auth/me` was answered. -/
def after_current (i : ℕ) : Reply → World
  | .failed failure => w.set_renewal i (.settling (some failure))
  | .response response =>
    if response.ok then w.set_renewal i (.settling none)
    else if response.status ≠ 401 then w.set_renewal i (.reading_current response)
    else (w.set_renewal i .refreshing).record (.refresh_sent i)

/-- The handler of the operation: no later request sends the token again. -/
def fail_refresh (i : ℕ) (failure : Thrown) : World :=
  { w.set_renewal i (.settling (some failure.as_error)) with failedRefresh := some failure.as_error }

/-- The operation goes on after `/auth/refresh` was answered. -/
def after_refresh (i : ℕ) : Reply → World
  | .failed failure => w.fail_refresh i failure
  | .response response =>
    if response.ok then w.set_renewal i (.settling none)
    else w.set_renewal i (.reading_refreshed response)

/-! ## Calls -/

/-- `apiFetch` ends with an error of its `try`. -/
def fetch_fails (c : ℕ) (failure : Thrown) : World :=
  let w := w.set_call c (.fetch (.ended (some failure)))
  match failure with
  | .api_error _ 401 => w.record (.redirected c)
  | _ => w

/-- The end of `apiFetch`. A refusal sends the page to the login. -/
def fetch_ends (c : ℕ) (response : Response) : World :=
  let w := if response.status = 401 then w.record (.redirected c) else w
  w.set_call c (.fetch (if response.ok then .ended none else .reading response))

/-- `apiFetch` goes on after its first request. A refusal asks for a renewal, and everything else
ends the call. -/
def after_first (locks : Bool) (c : ℕ) : Reply → World
  | .failed failure => w.set_call c (.fetch (.ended (some failure)))
  | .response response =>
    if response.status = 401 then
      match w.renewSession locks with
      | (w, .inl failure) => w.fetch_fails c failure
      | (w, .inr renewal) => w.set_call c (.fetch (.renewing renewal))
    else w.fetch_ends c response

/-- `apiFetch` goes on after its second request. A second refusal ends the call as well. -/
def after_again (c : ℕ) : Reply → World
  | .failed failure => w.fetch_fails c failure
  | .response response => w.fetch_ends c response

/-- `apiFetch` goes on after a renewal. The request is sent again exactly if the renewal has
succeeded. -/
def after_renewal (c : ℕ) : Outcome → World
  | some failure => w.fetch_fails c failure
  | none => (w.set_call c (.fetch .again)).record (.request_sent c)

/-- `login` goes on after its request. A success forgets the failed attempt. -/
def after_login (c : ℕ) : Reply → World
  | .failed failure => w.set_call c (.login (.ended (some failure)))
  | .response response =>
    if response.ok then { w.set_call c (.login .parsing) with failedRefresh := none }
    else w.set_call c (.login (.reading response))

/-- `logout` goes on after its request. It leaves the remembered failure alone. -/
def after_logout (c : ℕ) : Reply → World
  | .failed failure => w.set_call c (.logout (.ended (some failure)))
  | .response response =>
    w.set_call c (.logout (if response.ok then .ended none else .reading response))

end World

/-! ## Steps -/

/-- What happens next. Replies, locks and calls may come in any order. -/
inductive Act
  /-- `apiFetch` is called. -/
  | apiFetch
  /-- A page calls `renewSession`. -/
  | renewSession
  /-- `login` is called. -/
  | login
  /-- `logout` is called. -/
  | logout
  /-- The lock is granted. -/
  | acquire (holder : Holder)
  /-- The request of the lock is rejected. -/
  | refuse (holder : Holder) (failure : Thrown)
  /-- The lock is released. -/
  | release
  /-- The request of a renewal ends. -/
  | answer_renewal (renewal : ℕ) (reply : Reply)
  /-- The body that a renewal waits for is there. -/
  | read_renewal (renewal : ℕ)
  /-- `finally` runs, and the promise is settled. -/
  | settle (renewal : ℕ)
  /-- The request of a call ends. -/
  | answer (call : ℕ) (reply : Reply)
  /-- The body that a call waits for is there, or that of a user is none. -/
  | read (call : ℕ) (failure : Option Thrown)
  /-- A call goes on after the renewal that it awaits. -/
  | resume (call : ℕ)

namespace World

variable (w : World)

/-- A page calls `renewSession`. It awaits the promise as any other call does. -/
def renew (locks : Bool) : World :=
  match w.renewSession locks with
  | (w, .inl failure) => w.call (.renewed (some failure))
  | (w, .inr renewal) => w.call (.renew renewal)

/-- The lock is granted to a holder that waits for it. -/
def grant (holder : Holder) : World :=
  let acquired := { w with holder := some holder }.record (.lock_acquired holder)
  match holder with
  | .other => acquired
  | .renewal i => if w.renewals[i]? = some .waiting then acquired.begin_renewal i else w
  | .call c =>
    match w.calls[c]? with
    | some (.login .waiting) => acquired.set_call c (.login .sent)
    | some (.logout .waiting) => acquired.set_call c (.logout .sent)
    | _ => w

/-- The lock is granted while it is free. -/
def acquire (holder : Holder) : World := if w.holder = none then w.grant holder else w

/-- The lock is released. It is released only when the operation under it has ended. -/
def release : World :=
  match w.holder with
  | some holder => if w.ended holder then { w with holder := none }.record .lock_released else w
  | none => w

/-- The request of the lock is rejected. The operation then never begins. -/
def refuse (holder : Holder) (failure : Thrown) : World :=
  match holder with
  | .other => w
  | .renewal i =>
    if w.renewals[i]? = some .waiting then w.set_renewal i (.settling (some failure)) else w
  | .call c =>
    match w.calls[c]? with
    | some (.login .waiting) => w.set_call c (.login (.ended (some failure)))
    | some (.logout .waiting) => w.set_call c (.logout (.ended (some failure)))
    | _ => w

/-- The request of a renewal ends. Which request it is follows from the phase. -/
def answer_renewal (i : ℕ) (reply : Reply) : World :=
  match w.renewals[i]? with
  | some .asking => (w.record (.current_answered i reply)).after_current i reply
  | some .refreshing => (w.record (.refresh_answered i reply)).after_refresh i reply
  | _ => w

/-- The body that a renewal waits for is there. -/
def read_renewal (i : ℕ) : World :=
  match w.renewals[i]? with
  | some (.reading_current response) => w.set_renewal i (.settling (checkResponse response))
  | some (.reading_refreshed response) =>
    match checkResponse response with
    | some failure => w.fail_refresh i failure
    | none => w.set_renewal i (.settling none)
  | _ => w

/-- `finally` runs, and the promise is settled. The slot of the pending promise is emptied first. -/
def settle (i : ℕ) : World :=
  match w.renewals[i]? with
  | some (.settling outcome) =>
    { w.set_renewal i (.settled outcome) with pendingRefresh := none }.record (.settled i outcome)
  | _ => w

/-- The request of a call ends. Which request it is follows from the phase. -/
def answer (locks : Bool) (c : ℕ) (reply : Reply) : World :=
  match w.calls[c]? with
  | some (.fetch .first) => (w.record (.request_answered c reply)).after_first locks c reply
  | some (.fetch .again) => (w.record (.request_answered c reply)).after_again c reply
  | some (.login .sent) => (w.record (.login_answered c reply)).after_login c reply
  | some (.logout .sent) => w.after_logout c reply
  | _ => w

/-- The body that a call waits for is there. -/
def read (c : ℕ) (failure : Option Thrown) : World :=
  match w.calls[c]? with
  | some (.fetch (.reading response)) => w.set_call c (.fetch (.ended (checkResponse response)))
  | some (.login (.reading response)) => w.set_call c (.login (.ended (checkResponse response)))
  | some (.login .parsing) => w.set_call c (.login (.ended failure))
  | some (.logout (.reading response)) => w.set_call c (.logout (.ended (checkResponse response)))
  | _ => w

/-- A call goes on after the renewal that it awaits, once that is settled. -/
def resume (c : ℕ) : World :=
  match w.calls[c]? with
  | some (.fetch (.renewing i)) =>
    match w.renewals[i]? with
    | some (.settled outcome) => (w.record (.resumed c i outcome)).after_renewal c outcome
    | _ => w
  | some (.renew i) =>
    match w.renewals[i]? with
    | some (.settled outcome) => (w.record (.resumed c i outcome)).set_call c (.renewed outcome)
    | _ => w
  | _ => w

end World

/-- A step of a tab, in a browser with or without `navigator.locks`. What is not possible changes
nothing. -/
def step (locks : Bool) (w : World) : Act → World
  | .apiFetch => (w.call (.fetch .first)).record (.request_sent w.calls.length)
  | .renewSession => w.renew locks
  | .login => w.call (.login (if locks then .waiting else .sent))
  | .logout => w.call (.logout (if locks then .waiting else .sent))
  | .acquire holder => w.acquire holder
  | .refuse holder failure => w.refuse holder failure
  | .release => w.release
  | .answer_renewal i reply => w.answer_renewal i reply
  | .read_renewal i => w.read_renewal i
  | .settle i => w.settle i
  | .answer c reply => w.answer locks c reply
  | .read c failure => w.read c failure
  | .resume c => w.resume c

/-- A run of a tab. It may start in any state. -/
def run (locks : Bool) (w : World) (acts : List Act) : World := Transition.run (step locks) w acts

end RestaurantOS.Frontend.Session
