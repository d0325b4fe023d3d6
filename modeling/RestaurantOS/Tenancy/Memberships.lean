import Mathlib.Data.List.Sort
import RestaurantOS.Auth.Sessions
import RestaurantOS.Commands
import RestaurantOS.Lib.ReadCommitted

/-!
# Membership administration

`create_membership` and `update_membership` (`tenancy/service.py`), statement by statement, over the
tables of the tenancy module. A statement reads what is committed by then; the first one only finds
the organization, whose row is locked next, and what decides is read again under that lock.

A statement that locks rows finds them first, waits for the lock of each, and reads each again once
it has it: a row that no longer meets the condition of the statement is dropped. Audit entries are
left out, and so are the locks that foreign keys take, which can only delay a transaction or end
it. -/

namespace RestaurantOS.Tenancy

open Fallible ReadCommitted
open Auth (User)

/-! ## The tables -/

/-- The status of an organization. Nobody has rights in an archived one. -/
inductive OrganizationStatus
  | active
  | archived
  deriving DecidableEq, Repr

/-- A row of `organizations`. Memberships and restaurants belong to one. -/
structure Organization where
  /-- The primary key. -/
  id : UUID
  /-- The status. -/
  status : OrganizationStatus

/-- The status of a membership. A revoked one is kept, and gives no rights. -/
inductive MembershipStatus
  | active
  | revoked
  deriving DecidableEq, Repr

/-- A row of `memberships`. It gives its user a role in an organization. -/
structure Membership where
  /-- The primary key. -/
  id : UUID
  /-- The user, who has no other membership. -/
  user_id : UUID
  /-- The organization. -/
  organization_id : UUID
  /-- The role. -/
  role : MembershipRole
  /-- The status. -/
  status : MembershipStatus

/-- A row of `restaurants`. Its organization never changes. -/
structure Restaurant where
  /-- The primary key. -/
  id : ℕ
  /-- The organization. -/
  organization_id : UUID

/-- A row of `restaurant_assignments`. It opens a restaurant to the member. -/
structure RestaurantAssignment where
  /-- The membership. -/
  membership_id : UUID
  /-- The restaurant. -/
  restaurant_id : ℕ
  /-- The organization of both. -/
  organization_id : UUID

/-- The tables, with the business rows of each restaurant. -/
structure Database where
  /-- The organizations. -/
  organizations : List Organization
  /-- The users. -/
  users : List User
  /-- The memberships. -/
  memberships : List Membership
  /-- The restaurants. -/
  restaurants : List Restaurant
  /-- The assignments. -/
  assignments : List RestaurantAssignment
  /-- The business rows. -/
  branches : ℕ → Branch
  /-- The primary key of the memberships. -/
  unique_id : Keyed.Unique Membership.id memberships
  /-- `uq_memberships_user`. -/
  unique_user : Keyed.Unique Membership.user_id memberships

/-! ## The repositories -/

namespace Database

/-- The account of a user is active. A user without an account is not active. -/
def user_active (db : Database) (user_id : UUID) : Bool :=
  (Keyed.lookup User.id user_id db.users).any fun user => user.status = .active

/-- An organization is active. An unknown organization is not active. -/
def organization_active (db : Database) (organization_id : UUID) : Bool :=
  (Keyed.lookup Organization.id organization_id db.organizations).any fun organization =>
    organization.status = .active

/-- The first statement of `AccessRepository.current`: the active membership of a user in an active
organization. -/
def active_membership (db : Database) (principal : UUID) : Except Failure Membership :=
  match Keyed.lookup Membership.user_id principal db.memberships with
  | some membership => do
    ensure (membership.status = .active ∧ db.organization_active membership.organization_id)
      (.ForbiddenError "Active organization membership required")
    pure membership
  | none => throw (.ForbiddenError "Active organization membership required")

/-- The condition on the membership that the first statement has found and locked. -/
def still_active (db : Database) (membership_id principal : UUID) : Except Failure Membership :=
  match Keyed.lookup Membership.id membership_id db.memberships with
  | some membership => do
    ensure (membership.user_id = principal ∧ membership.status = .active)
      (.ForbiddenError "Active organization membership required")
    pure membership
  | none => throw (.ForbiddenError "Active organization membership required")

/-- The second one: the assigned restaurants. Only those of the same organization count. -/
def assigned (db : Database) (membership : Membership) : List ℕ :=
  (db.assignments.filter fun row => row.membership_id = membership.id ∧
    row.organization_id = membership.organization_id).map (·.restaurant_id)

/-- `active_account_id`. An account that is disabled is not found. -/
def active_account_id (db : Database) (email : String) : Option UUID :=
  (Keyed.lookup User.email email db.users).bind fun user =>
    if user.status = .active then some user.id else none

/-- `MembershipRepository.for_user`. A user has one membership at most. -/
def for_user (db : Database) (user_id : UUID) : Option Membership :=
  Keyed.lookup Membership.user_id user_id db.memberships

/-- `MembershipRepository.get`. A membership of another organization is not found. -/
def get (db : Database) (membership_id organization_id : UUID) : Except Failure Membership :=
  match Keyed.lookup Membership.id membership_id db.memberships with
  | some member => do
    ensure (member.organization_id = organization_id) (.NotFoundError "Membership not found")
    pure member
  | none => throw (.NotFoundError "Membership not found")

/-- `MembershipRepository.owner_count`. Only active memberships of active accounts count. -/
def owner_count (db : Database) (organization_id : UUID) : ℕ :=
  (db.memberships.filter fun member => member.organization_id = organization_id ∧
    member.status = .active ∧ member.role = .OWNER ∧ db.user_active member.user_id = true).length

/-- The insertion of a membership. A key or a user that exists already violates a constraint. -/
def insert (member : Membership) (integrity : Failure) (db : Database) : Except Failure Database :=
  if h : ∀ row ∈ db.memberships, row.id ≠ member.id ∧ row.user_id ≠ member.user_id then
    .ok { db with
      memberships := db.memberships ++ [member]
      unique_id := db.unique_id.append fun row hrow => (h row hrow).1
      unique_user := db.unique_user.append fun row hrow => (h row hrow).2 }
  else .error integrity

/-- The update of role and status of a membership. -/
def update (membership_id : UUID) (role : Option MembershipRole) (revoke : Bool) (db : Database) :
    Database :=
  { db with
    memberships := Keyed.modify Membership.id membership_id (fun row =>
      { row with
        role := role.getD row.role
        status := if revoke then .revoked else row.status }) db.memberships
    unique_id := db.unique_id.modify fun _ hid => hid
    unique_user := db.unique_user.map fun row _ => by split_ifs <;> rfl }

/-- The assignments of a membership are replaced; a restaurant that is gone by then violates the
foreign key. -/
def replace_assignments (member : Membership) (ids : List ℕ) (integrity : Failure) (db : Database) :
    Except Failure Database := do
  ensure (∀ id ∈ ids, ∃ restaurant ∈ db.restaurants, restaurant.id = id ∧
    restaurant.organization_id = member.organization_id) integrity
  pure { db with
    assignments := (db.assignments.filter fun row => row.membership_id ≠ member.id) ++
      (ids.insertionSort (· ≤ ·)).map fun id => ⟨member.id, id, member.organization_id⟩ }

end Database

/-! ## The locks -/

/-- The rows that are locked. They are locked by `FOR UPDATE`, or shared by a reader. -/
inductive Key
  | organization (id : UUID)
  | membership (id : UUID)
  | assignment (membership_id : UUID) (restaurant_id : ℕ)
  | restaurant (id : ℕ)
  deriving DecidableEq, Repr

/-- A transaction of the service. Its statements are those of the source, one by one. -/
abbrev Transaction := Program Key Database Failure

/-- Each of the assignments of a membership is locked; one that is gone by then is dropped. -/
def share_assignments (membership : Membership) : List ℕ → Transaction (List ℕ)
  | [] => pure []
  | restaurant_id :: rest => do
    Program.take (.assignment membership.id restaurant_id) .share
    let assigned ← Program.read fun db => .ok (db.assigned membership)
    let others ← share_assignments membership rest
    pure (if restaurant_id ∈ assigned then restaurant_id :: others else others)

/-- `AccessRepository.current`. Its two statements may see different states. -/
def current (principal : UUID) : Transaction AccessContext := do
  let membership ← Program.read fun db => db.active_membership principal
  let restaurant_ids ← Program.read fun db => .ok (db.assigned membership)
  pure ⟨principal, membership.organization_id, membership.role, restaurant_ids⟩

/-- `AccessRepository.current` with `lock`: the membership and its assignments are shared. -/
def current_locked (principal : UUID) : Transaction AccessContext := do
  let found ← Program.read fun db => db.active_membership principal
  Program.take (.membership found.id) .share
  let membership ← Program.read fun db => db.still_active found.id principal
  let assigned ← Program.read fun db => .ok (db.assigned membership)
  let restaurant_ids ← share_assignments membership assigned
  pure ⟨principal, membership.organization_id, membership.role, restaurant_ids⟩

/-- `MembershipRepository.get`: the membership is locked. It is read again under the lock. -/
def get (membership_id organization_id : UUID) : Transaction Membership := do
  let found ← Program.read fun db => db.get membership_id organization_id
  Program.take (.membership found.id) .exclusive
  Program.read fun db => db.get membership_id organization_id

/-- The assignments that are deleted are locked. The order is that of the list. -/
def take_assignments (membership_id : UUID) : List ℕ → Transaction Unit
  | [] => pure ()
  | restaurant_id :: rest => do
    Program.take (.assignment membership_id restaurant_id) .exclusive
    take_assignments membership_id rest

/-- `MembershipRepository.assign`. `integrity` is what a violated constraint is reported as. -/
def assign (member : Membership) (restaurant_ids : List ℕ) (integrity : Failure) :
    Transaction Bool := do
  let ids := restaurant_ids.dedup
  let allowed ← Program.read fun db => .ok ((db.restaurants.filter fun restaurant =>
    restaurant.organization_id = member.organization_id ∧ restaurant.id ∈ ids).map (·.id))
  if ids.toFinset ≠ allowed.toFinset then pure false
  else do
    let assigned ← Program.read fun db => .ok (db.assigned member)
    take_assignments member.id assigned
    Program.put (Database.replace_assignments member ids integrity)
    pure true

/-! ## The service -/

namespace TenancyService

/-- `_owner`. The organization is locked before the context is read again. -/
def owner (principal : UUID) : Transaction AccessContext := do
  let context ← current principal
  Program.take (.organization context.organization_id) .exclusive
  let context ← current_locked principal
  Program.lift (context.require .staff_manage)
  pure context

/-- `create_membership`; `id` is the drawn key. A new row is its transaction's own. -/
def create_membership (normalize_email : String → String) (principal : UUID) (email : String)
    (role : MembershipRole) (restaurant_ids : List ℕ) (id : UUID) : Transaction Membership := do
  let context ← owner principal
  let user_id ← Program.read fun db =>
    match db.active_account_id (normalize_email email) with
    | some user_id => .ok user_id
    | none => .error (.NotFoundError "Active provisioned account not found")
  Program.read fun db =>
    ensure (db.for_user user_id).isNone (.ConflictError "User already belongs to an organization")
  let member : Membership := ⟨id, user_id, context.organization_id, role, .active⟩
  let integrity := Failure.ConflictError "User already belongs to an organization"
  Program.take (.membership id) .exclusive
  Program.put (Database.insert member integrity)
  let assigned ← assign member restaurant_ids integrity
  Program.lift (ensure (assigned = true) (.NotFoundError "Restaurant not found"))
  pure member

/-- The guard of `update_membership`: the last active owner stays. -/
def keep_owner (organization_id : UUID) (member : Membership) (role : Option MembershipRole)
    (revoke : Bool) : Transaction Unit :=
  if member.role = .OWNER ∧ member.status = .active ∧
      (revoke = true ∨ ¬ (role = none ∨ role = some .OWNER)) then do
    let count ← Program.read fun db => .ok (db.owner_count organization_id)
    Program.lift (ensure (¬ count ≤ 1)
      (.ConflictError "Cannot remove or demote the last active owner"))
  else pure ()

/-- The assignments that `update_membership` is given, if any. -/
def update_assignments (member : Membership) : Option (List ℕ) → Transaction Unit
  | none => pure ()
  | some restaurant_ids => do
    let assigned ← assign member restaurant_ids .DatabaseError
    Program.lift (ensure (assigned = true) (.NotFoundError "Restaurant not found"))

/-- `update_membership`. The last owner is neither revoked nor given another role. -/
def update_membership (principal membership_id : UUID) (role : Option MembershipRole)
    (restaurant_ids : Option (List ℕ)) (revoke : Bool) : Transaction Membership := do
  let context ← owner principal
  let member ← get membership_id context.organization_id
  keep_owner context.organization_id member role revoke
  Program.put fun db => .ok (db.update member.id role revoke)
  update_assignments member restaurant_ids
  pure { member with
    role := role.getD member.role
    status := if revoke then .revoked else member.status }

end TenancyService

end RestaurantOS.Tenancy
