import Mathlib.Data.Finset.Image
import RestaurantOS.Tenancy.Memberships

/-!
# Business writes beside membership administration

The commands of the inventory, order, catalog and recipe services as transactions that read their
access context with `lock`, together with the requests of `TenancyService`. A write shares the rows of
its membership, locks its restaurant, and runs its command on the rows of the restaurant
(`exec`). -/

namespace RestaurantOS.Tenancy

open Catalog Fallible Inventory Orders ReadCommitted

/-- The commands, before their access context is read. -/
inductive Write
  | create_ingredient (data : CreateIngredient)
  | update_ingredient (ingredient_id : ℕ) (data : UpdateIngredient)
  | change_stock (ingredient_id : ℕ) (data : ChangeStock)
  | create_order (command : CreateOrder)
  | update_order (order_id : ℕ) (command : UpdateOrder)
  | delete_order (order_id : ℕ)
  | create_menu (command : CreateMenu)
  | update_menu (menu_id : ℕ) (command : UpdateMenu)
  | delete_menu (menu_id : ℕ)
  | create_menu_item (menu_id : ℕ) (command : CreateMenuItem)
  | update_menu_item (menu_item_id : ℕ) (command : UpdateMenuItem)
  | delete_menu_item (menu_item_id : ℕ)
  | replace_recipe (menu_item_id : ℕ) (command : ReplaceRecipe)

/-- The command in a context. The context is the one that the transaction has read. -/
def Write.within (context : AccessContext) : Write → Command
  | .create_ingredient data => .create_ingredient context data
  | .update_ingredient ingredient_id data => .update_ingredient context ingredient_id data
  | .change_stock ingredient_id data => .change_stock context ingredient_id data
  | .create_order command => .create_order context command
  | .update_order order_id command => .update_order context order_id command
  | .delete_order order_id => .delete_order context order_id
  | .create_menu command => .create_menu context command
  | .update_menu menu_id command => .update_menu context menu_id command
  | .delete_menu menu_id => .delete_menu context menu_id
  | .create_menu_item menu_id command => .create_menu_item context menu_id command
  | .update_menu_item menu_item_id command => .update_menu_item context menu_item_id command
  | .delete_menu_item menu_item_id => .delete_menu_item context menu_item_id
  | .replace_recipe menu_item_id command => .replace_recipe context menu_item_id command

/-- The capabilities that a command requires. An update of an order requires those of the fields
that it sets. -/
def Write.capabilities : Write → Finset Capability
  | .create_ingredient _ | .update_ingredient .. | .change_stock .. => {.inventory_manage}
  | .create_order _ => {.order_create}
  | .update_order _ command => command.fields.image OrderField.capability
  | .delete_order _ => {.order_delete}
  | .create_menu _ | .update_menu .. | .delete_menu _ | .create_menu_item ..
  | .update_menu_item .. | .delete_menu_item _ | .replace_recipe .. => {.menu_manage}

/-- What a transaction returns. It is returned after the commit. -/
inductive Reply
  | member (member : Membership)
  | response (response : Response)

/-- The business rows of a restaurant are replaced. -/
def Database.put_branch (db : Database) (restaurant_id : ℕ) (branch : Branch) : Database :=
  { db with branches := Function.update db.branches restaurant_id branch }

/-- A business write. The rights are read before the restaurant is locked, and stay shared until the
commit. -/
def write (lib : Library) (principal : UUID) (restaurant_id : ℕ) (command : Write) (draw : Draw) :
    Transaction Response := do
  let context ← current_locked principal
  Program.take (.restaurant restaurant_id) .exclusive
  let result ← Program.read fun db =>
    exec lib (command.within context) draw (db.branches restaurant_id)
  Program.put fun db => .ok (db.put_branch restaurant_id result.1)
  pure result.2

/-! ## The system -/

/-- The requests, with the user who makes them. -/
inductive Request
  | create_membership (principal : UUID) (email : String) (role : MembershipRole)
    (restaurant_ids : List ℕ) (id : UUID)
  | update_membership (principal membership_id : UUID) (role : Option MembershipRole)
    (restaurant_ids : Option (List ℕ)) (revoke : Bool)
  | write (principal : UUID) (restaurant_id : ℕ) (command : Write) (draw : Draw)

/-- The user who makes a request. The rights that are checked are those of this user. -/
def Request.principal : Request → UUID
  | .create_membership principal .. | .update_membership principal .. | .write principal .. =>
    principal

/-- A request changes memberships. Such a request needs an owner. -/
def Request.administrative : Request → Bool
  | .create_membership .. | .update_membership .. => true
  | .write .. => false

/-- What the environment provides. Nothing is assumed of it. -/
structure Environment where
  /-- `normalize_email`. -/
  normalize_email : String → String
  /-- The library functions of the commands. -/
  library : Library

/-- The transaction of a request. Its statements are those of the service. -/
def Request.transaction (env : Environment) : Request → Transaction Reply
  | .create_membership principal email role restaurant_ids id => do
    let member ← TenancyService.create_membership env.normalize_email principal email role
      restaurant_ids id
    pure (.member member)
  | .update_membership principal membership_id role restaurant_ids revoke => do
    let member ← TenancyService.update_membership principal membership_id role restaurant_ids revoke
    pure (.member member)
  | .write principal restaurant_id command draw => do
    let response ← Tenancy.write env.library principal restaurant_id command draw
    pure (.response response)

/-- The memberships of an organization, with the activity of their users, which only the operator
changes. -/
def members (organization_id : UUID) (db : Database) : List (Membership × Bool) :=
  (db.memberships.filter fun member => member.organization_id = organization_id).map fun member =>
    (member, db.user_active member.user_id)

/-- The assignments of a membership. They are the restaurants that are open to the member. -/
def assignments_of (membership_id : UUID) (db : Database) : List RestaurantAssignment :=
  db.assignments.filter fun row => row.membership_id = membership_id

/-- What a lock protects. It depends on the kind of the key. -/
inductive View
  | members (value : List (Membership × Bool))
  | rights (membership : Option Membership) (assignments : List RestaurantAssignment)
  | nothing
  | branch (branch : Branch)

/-- The lock on an organization protects its memberships, the lock on a membership the row and its
assignments, and the lock on a restaurant its business rows. The lock on an assignment protects
nothing beyond that. -/
def view : Key → Database → View
  | .organization id, db => .members (members id db)
  | .membership id, db =>
    .rights (Keyed.lookup Membership.id id db.memberships) (assignments_of id db)
  | .assignment .., _ => .nothing
  | .restaurant id, db => .branch (db.branches id)

/-- No user leaves an organization: the row of a membership stays, with its user and organization. -/
def Stay (db db' : Database) : Prop :=
  ∀ member ∈ db.memberships, ∃ member' ∈ db'.memberships, member'.id = member.id ∧
    member'.user_id = member.user_id ∧ member'.organization_id = member.organization_id

/-- What the transactions rely on. Each lock protects its view, and memberships are never deleted.
-/
def discipline : Discipline Key Database View where
  view := view
  keeps := Stay
  refl _ member hmember := ⟨member, hmember, rfl, rfl, rfl⟩
  trans h h' member hmember := by
    obtain ⟨member', hmember', hid, huser, horganization⟩ := h member hmember
    obtain ⟨member'', hmember'', hid', huser', horganization'⟩ := h' member' hmember'
    exact ⟨member'', hmember'', hid'.trans hid, huser'.trans huser,
      horganization'.trans horganization⟩

/-- The actions. What others do leaves what the locks protect: memberships, assignments, the activity
of the users of memberships, and business rows. -/
abbrev Act := ReadCommitted.Act Request (Interference discipline)

/-- The state after a run. The transactions interleave statement by statement. -/
def run (env : Environment) (start : Database) (acts : List Act) :
    World Key Database Request Failure Reply :=
  World.run (Request.transaction env) discipline start acts

end RestaurantOS.Tenancy
