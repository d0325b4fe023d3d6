import RestaurantOS.Lib.Locks
import RestaurantOS.Lib.Run
import RestaurantOS.Auth.Sessions

/-!
# The authentication service

The requests of the authentication service as concurrent processes over the committed database. A
process is between two of its statements in a `Phase`, which keeps the rows it has read; an action
lets one process do its next statement. A row lock is held from the statement that takes it to the
end of the transaction (`Phase.locks`), and a statement that needs a lock held elsewhere does not
proceed. Nothing a transaction writes is visible before its commit, so the writes of a process are
one value, applied when it commits.

A deadline, a cancellation or a storage error may end a request in any phase, before its commit or
after it (`Act.abort`); the points at which the code checks the deadline are among these. A unique
key that an insertion violates ends the transaction. The partial unique index on the unconsumed
tokens of a family is not checked here: the invariant of the families shows that it never fires.
-/

namespace RestaurantOS.Auth

/-- The library functions on texts. Nothing is assumed of them. -/
structure Library where
  /-- `token_digest`. -/
  token_digest : String → String
  /-- `decode_access`: the user and the family of a valid access token. -/
  decode_access : String → Option (UUID × UUID)
  /-- `normalize_email`. -/
  normalize_email : String → String

/-- `IssuedSession`: the principal, what its access token says, and the refresh token. -/
structure IssuedSession where
  /-- The user. -/
  user_id : UUID
  /-- The user's address. -/
  email : String
  /-- The family. -/
  session_id : UUID
  /-- The refresh token handed out. -/
  refresh_token : String
  /-- When the family ends. -/
  expires_at : Timestamp

/-- A request. They are the requests that read or write a family of sessions. -/
inductive Request
  | login (email : String)
  | refresh_session (refresh : Option String)
  | logout (refresh access : Option String)
  | disable_user (email : String)

/-- The resources that a transaction locks. They are rows selected `FOR UPDATE`. -/
inductive LockKey
  | user (id : UUID)
  | session (id : UUID)
  deriving DecidableEq

/-- The lock of a selected user row. No row means no lock. -/
def user_locks (user : Option User) : List LockKey := user.toList.map fun u => .user u.id

/-- The lock of a selected family row. No row means no lock. -/
def family_locks (family : Option AuthSession) : List LockKey :=
  family.toList.map fun f => .session f.id

/-- Where a request is between its statements. Other transactions may run between any two of them.
-/
inductive Phase
  | started
  /-- The user and the family are known. -/
  | identified (user_id session_id : UUID)
  /-- `lock_family` has locked the user. -/
  | user_locked (session_id user_id : UUID) (user : Option User)
  /-- `lock_family` has locked the family, too. -/
  | family_locked (user : Option User) (family : Option AuthSession)
  /-- `find_by_email` has locked the user. -/
  | account_locked (user : User)
  /-- All statements have run; the transaction has only to be committed. -/
  | decided (locks : List LockKey) (writes : Writes) (result : Option IssuedSession)
  | committed (result : Option IssuedSession)
  /-- The session was returned to the caller. -/
  | delivered (session : IssuedSession)
  /-- The request has ended without a session. -/
  | ended

/-- The locks a process holds. They are held until the transaction ends. -/
def Phase.locks : Phase → List LockKey
  | .user_locked _ _ user => user_locks user
  | .family_locked user family => user_locks user ++ family_locks family
  | .account_locked user => [.user user.id]
  | .decided locks _ _ => locks
  | _ => []

/-- A running request. It keeps what it has read under its locks. -/
structure Process where
  /-- The request. -/
  request : Request
  /-- Where it is. -/
  phase : Phase

/-- What a statement draws from its environment: the clock, fresh identifiers and a fresh refresh
token, and for a login the outcome of `verify_password` and the length of a session. -/
structure Draw where
  /-- `datetime.now`. -/
  now : Timestamp
  /-- A fresh identifier for a token. -/
  token_id : UUID
  /-- A fresh identifier for a family. -/
  family_id : UUID
  /-- `new_refresh_token`. -/
  refresh_token : String
  /-- Whether the password is valid. -/
  valid : Bool
  /-- The replacement of an outdated password hash. -/
  replacement : Option String
  /-- The lifetime of a new family. -/
  session_lifetime : Timedelta

/-- The state of the service. What a transaction has not committed is in its process only. -/
structure World where
  /-- The committed database. -/
  database : Database
  /-- The requests so far. -/
  processes : List Process

/-- The actions. They may come in any order. -/
inductive Act
  /-- `create_user`. -/
  | create_user (user : User)
  /-- A request arrives. -/
  | request (request : Request)
  /-- A process does its next statement. -/
  | advance (process : ℕ) (draw : Draw)
  /-- A request is ended by its deadline, a cancellation or an error. -/
  | abort (process : ℕ)

namespace Database

/-- The identity that `logout` acts on: that of the refresh token, or else of the access token. -/
def logout_identity (db : Database) (lib : Library) (refresh access : Option String) :
    Option (UUID × UUID) :=
  let identity := match refresh with
    | some refresh =>
      if refresh ≠ "" ∧ refresh.length ≤ 128 then db.token_identity (lib.token_digest refresh)
      else none
    | none => none
  match identity with
  | some identity => some identity
  | none => access.bind fun access => if access = "" then none else lib.decode_access access

end Database

/-- `refresh_session` once user and family are locked and the token is read: what it writes and the
session it is about to return. -/
def refresh_decision (lib : Library) (user : Option User) (family : Option AuthSession)
    (token : Option RefreshToken) (draw : Draw) : Writes × Option IssuedSession :=
  match user, family, token with
  | some user, some family, some token =>
    if session_valid user.status family.revoked_at family.expires_at draw.now ∧
        draw.now < token.expires_at then
      if token.consumed_at.isSome then (.revoke family.id draw.now .refresh_replay, none)
      else
        (.rotate token.id draw.now
            { id := draw.token_id, session_id := family.id,
              digest := lib.token_digest draw.refresh_token, issued_at := draw.now,
              expires_at := family.expires_at, consumed_at := none, successor_id := none },
          some ⟨user.id, user.email, family.id, draw.refresh_token, family.expires_at⟩)
    else (.unchanged, none)
  | _, _, _ => (.unchanged, none)

/-- `logout` once user and family are locked. It revokes a family that is not revoked yet, and
answers alike in any case. -/
def logout_decision (family : Option AuthSession) (draw : Draw) : Writes :=
  match family with
  | some family =>
    if family.revoked_at.isNone then .revoke family.id draw.now .logout else .unchanged
  | none => .unchanged

/-- `login` once the user is locked and the password is verified. -/
def login_decision (lib : Library) (user : User) (draw : Draw) : Writes × IssuedSession :=
  let family : AuthSession :=
    { id := draw.family_id, user_id := user.id, created_at := draw.now,
      expires_at := draw.now + draw.session_lifetime, revoked_at := none, revoked_reason := none }
  let token : RefreshToken :=
    { id := draw.token_id, session_id := family.id, digest := lib.token_digest draw.refresh_token,
      issued_at := draw.now, expires_at := family.expires_at, consumed_at := none,
      successor_id := none }
  (.open_session user.id draw.replacement family token,
    ⟨user.id, user.email, family.id, draw.refresh_token, family.expires_at⟩)

/-- The phase after the next statement of a request, other than a commit. `free` tells which locks no
process holds; a statement that waits for a lock leaves the phase as it is. -/
def next_phase (lib : Library) (db : Database) (free : LockKey → Bool) (request : Request)
    (draw : Draw) : Phase → Phase
  | .started =>
    match request with
    | .refresh_session none => .ended
    | .refresh_session (some refresh) =>
      if refresh = "" ∨ 128 < refresh.length then .ended
      else
        match db.token_identity (lib.token_digest refresh) with
        | none => .ended
        | some (user_id, session_id) => .identified user_id session_id
    | .logout refresh access =>
      match db.logout_identity lib refresh access with
      | none => .ended
      | some (user_id, session_id) => .identified user_id session_id
    | .disable_user email | .login email =>
      match db.find_by_email (lib.normalize_email email) with
      | none => .ended
      | some user => if free (.user user.id) then .account_locked user else .started
  -- The user is locked before the family, in every request.
  | .identified user_id session_id =>
    let user := db.select_user user_id
    if (user_locks user).all free then .user_locked session_id user_id user
    else .identified user_id session_id
  | .user_locked session_id user_id user =>
    let family := db.select_family user_id session_id
    if (family_locks family).all free then .family_locked user family
    else .user_locked session_id user_id user
  | .family_locked user family =>
    let locks := user_locks user ++ family_locks family
    match request with
    | .refresh_session (some refresh) =>
      let decision :=
        refresh_decision lib user family (db.find_token (lib.token_digest refresh)) draw
      .decided locks decision.1 decision.2
    | .logout _ _ => .decided locks (logout_decision family draw) none
    | _ => .ended
  | .account_locked user =>
    match request with
    | .disable_user _ =>
      let families := db.families_of user.id
      let locks := families.map fun family => .session family.id
      -- All families of the user are locked before one of them is revoked.
      if locks.all free then
        .decided (.user user.id :: locks)
          (.disable user.id ((families.filter fun family => family.revoked_at.isNone).map (·.id))
            draw.now) none
      else .account_locked user
    | .login _ =>
      if !draw.valid || user.status ≠ .active then .ended
      else
        let decision := login_decision lib user draw
        .decided [.user user.id] decision.1 (some decision.2)
    | _ => .ended
  | .committed (some session) => .delivered session
  | .committed none => .ended
  | phase => phase

namespace World

/-- The locks of the process with a given number. -/
def held (w : World) (process : ℕ) : List LockKey :=
  ((w.processes[process]?).map fun p => p.phase.locks).getD []

/-- No process holds a lock. A lock that is not free makes the next statement wait. -/
def free (w : World) (key : LockKey) : Bool := w.processes.all fun p => key ∉ p.phase.locks

/-- The phase of a process is set. The database and the other processes stay. -/
def set_phase (w : World) (process : ℕ) (phase : Phase) : World :=
  { w with processes := w.processes.modify process fun p => { p with phase := phase } }

/-- The next statement of a process. A commit applies its writes, unless a unique key is violated. -/
def advance (w : World) (lib : Library) (process : ℕ) (draw : Draw) : World :=
  match w.processes[process]? with
  | none => w
  | some p =>
    match p.phase with
    | .decided _ writes result =>
      if w.database.violates writes then w.set_phase process .ended
      else
        { w with database := w.database.apply writes }.set_phase process (.committed result)
    | phase => w.set_phase process (next_phase lib w.database w.free p.request draw phase)

/-- One action. An action that cannot be taken changes nothing. -/
def step (lib : Library) (w : World) : Act → World
  | .create_user user =>
    if w.database.users.any fun user' => user'.id = user.id || user'.email = user.email then w
    else { w with database := { w.database with users := w.database.users ++ [user] } }
  | .request request => { w with processes := w.processes ++ [⟨request, .started⟩] }
  | .advance process draw => w.advance lib process draw
  | .abort process => w.set_phase process .ended

/-- The service with an empty database. No request has been made. -/
def initial : World := ⟨⟨[], [], []⟩, []⟩

/-- The state after a run of the service from its start. -/
def run (lib : Library) (acts : List Act) : World := Transition.run (step lib) initial acts

end World

/-- `get_current_principal`: the user row is read from one committed state and the family row from a
later one. The result is the principal's user and family. -/
def get_current_principal (lib : Library) (users_read sessions_read : Database)
    (access : Option String) (now : Timestamp) : Option (UUID × UUID) :=
  match access with
  | none => none
  | some access =>
    if access = "" ∨ 4096 < access.length then none
    else
      match lib.decode_access access with
      | none => none
      | some (user_id, session_id) =>
        match Keyed.lookup User.id user_id users_read.users,
          Keyed.lookup AuthSession.id session_id sessions_read.sessions with
        | some user, some family =>
          if family.user_id = user.id ∧
              session_valid user.status family.revoked_at family.expires_at now then
            some (user.id, family.id)
          else none
        | _, _ => none

end RestaurantOS.Auth
