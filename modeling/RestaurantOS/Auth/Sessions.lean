import RestaurantOS.Core.Time
import RestaurantOS.Lib.Rows

/-!
# Users, session families and refresh tokens

The rows behind a signed-in session: the user, the session family that one login opens, and the
refresh tokens of the family. `Writes` lists what a transaction of the authentication service may
write, with the values it has computed; `Database.apply` is the effect of committing it.
-/

namespace RestaurantOS.Auth

/-- The status of a user. A disabled user has no valid session. -/
inductive UserStatus
  | active
  | disabled
  deriving DecidableEq, Repr

/-- A row of `users`. The address is unique, and the status decides whether sessions are valid. -/
structure User where
  /-- The primary key. -/
  id : UUID
  /-- The normalized address. -/
  email : String
  /-- The hash of the password. -/
  password_hash : String
  /-- The status. -/
  status : UserStatus

/-- Why a family was revoked. The first reason stays, since a revoked family is not revoked again.
-/
inductive RevokedReason
  | refresh_replay
  | logout
  | user_disabled
  deriving DecidableEq, Repr

/-- A row of `auth_sessions`: a family of refresh tokens. -/
structure AuthSession where
  /-- The primary key. -/
  id : UUID
  /-- The signed-in user. -/
  user_id : UUID
  /-- When the login opened the family. -/
  created_at : Timestamp
  /-- When the family ends. -/
  expires_at : Timestamp
  /-- When the family was revoked. -/
  revoked_at : Option Timestamp
  /-- Why it was revoked. -/
  revoked_reason : Option RevokedReason

/-- A row of `auth_refresh_tokens`. The token itself is not stored, only its digest. -/
structure RefreshToken where
  /-- The primary key. -/
  id : UUID
  /-- The family. -/
  session_id : UUID
  /-- The digest of the token, which is unique. -/
  digest : String
  /-- When the token was issued. -/
  issued_at : Timestamp
  /-- When it ends. -/
  expires_at : Timestamp
  /-- When it was exchanged for its successor. -/
  consumed_at : Option Timestamp
  /-- The token it was exchanged for. -/
  successor_id : Option UUID

/-- `session_valid`. The user is active and the family neither revoked nor expired. -/
def session_valid (status : UserStatus) (revoked_at : Option Timestamp) (expires_at now : Timestamp) :
    Bool :=
  status = .active && revoked_at.isNone && decide (now < expires_at)

/-- The committed rows of the three tables, each in order of insertion. -/
structure Database where
  /-- The users. -/
  users : List User
  /-- The session families. -/
  sessions : List AuthSession
  /-- The refresh tokens. -/
  tokens : List RefreshToken

/-- What a transaction writes when it is committed. -/
inductive Writes
  | unchanged
  /-- The token is consumed and `next` becomes its successor. -/
  | rotate (token_id : UUID) (consumed_at : Timestamp) (next : RefreshToken)
  /-- The family is revoked. -/
  | revoke (session_id : UUID) (revoked_at : Timestamp) (reason : RevokedReason)
  /-- The user is disabled and the listed families are revoked. -/
  | disable (user_id : UUID) (session_ids : List UUID) (revoked_at : Timestamp)
  /-- A login inserts a family with its first token, and may replace the password hash. -/
  | open_session (user_id : UUID) (password_hash : Option String) (family : AuthSession)
      (token : RefreshToken)

namespace Database

/-- `token_identity`: the user and the family of the token with a digest. -/
def token_identity (db : Database) (digest : String) : Option (UUID × UUID) :=
  (Keyed.lookup RefreshToken.digest digest db.tokens).bind fun token =>
    (Keyed.lookup AuthSession.id token.session_id db.sessions).map fun family =>
      (family.user_id, family.id)

/-- `find_token`. The token of a digest, consumed or not. -/
def find_token (db : Database) (digest : String) : Option RefreshToken :=
  Keyed.lookup RefreshToken.digest digest db.tokens

/-- `find_by_email`. The address is the normalized one. -/
def find_by_email (db : Database) (email : String) : Option User :=
  Keyed.lookup User.email email db.users

/-- The user row that `lock_family` selects. It selects by the key alone. -/
def select_user (db : Database) (user_id : UUID) : Option User :=
  Keyed.lookup User.id user_id db.users

/-- The family row that `lock_family` selects. A family of another user is not selected. -/
def select_family (db : Database) (user_id session_id : UUID) : Option AuthSession :=
  (Keyed.lookup AuthSession.id session_id db.sessions).filter fun family => family.user_id = user_id

/-- The families of a user. Disabling a user revokes all of them. -/
def families_of (db : Database) (user_id : UUID) : List AuthSession :=
  db.sessions.filter fun family => family.user_id = user_id

/-- The tokens of a family, the oldest first. -/
def tokens_of (db : Database) (session_id : UUID) : List RefreshToken :=
  db.tokens.filter fun token => token.session_id = session_id

/-- The families with the listed keys are revoked. -/
def revoke_sessions (db : Database) (session_ids : List UUID) (revoked_at : Timestamp)
    (reason : RevokedReason) : Database :=
  { db with sessions := db.sessions.map fun family =>
      if family.id ∈ session_ids then
        { family with revoked_at := some revoked_at, revoked_reason := some reason }
      else family }

/-- The database after a commit of `writes`. All of them are written or none is. -/
def apply (db : Database) : Writes → Database
  | .unchanged => db
  | .rotate token_id consumed_at next =>
    { db with tokens := Keyed.modify RefreshToken.id token_id (fun token =>
        { token with consumed_at := some consumed_at, successor_id := some next.id }) db.tokens ++
          [next] }
  | .revoke session_id revoked_at reason => db.revoke_sessions [session_id] revoked_at reason
  | .disable user_id session_ids revoked_at =>
    { db.revoke_sessions session_ids revoked_at .user_disabled with
      users := Keyed.modify User.id user_id (fun user => { user with status := .disabled }) db.users }
  | .open_session user_id password_hash family token =>
    { users := Keyed.modify User.id user_id (fun user =>
        { user with password_hash := password_hash.getD user.password_hash }) db.users
      sessions := db.sessions ++ [family]
      tokens := db.tokens ++ [token] }

/-- A commit of `writes` would violate a unique key of an inserted row. -/
def violates (db : Database) : Writes → Bool
  | .rotate _ _ next =>
    db.tokens.any fun token => token.id = next.id || token.digest = next.digest
  | .open_session _ _ family token =>
    (db.sessions.any fun family' => family'.id = family.id) ||
      db.tokens.any fun token' => token'.id = token.id || token'.digest = token.digest
  | _ => false

end Database

end RestaurantOS.Auth
