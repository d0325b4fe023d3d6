import Mathlib.Data.Finset.Basic
import RestaurantOS.Core.Errors
import RestaurantOS.Core.Time

/-!
# Capabilities and branch scope

The three roles, what each may do, and the restaurants a member may act on. An `AccessContext` is
what `AccessService.current` has read from the membership rows of the caller.
-/

namespace RestaurantOS.Tenancy

open Fallible

/-- The capabilities. They are the values of the enumeration. -/
inductive Capability
  | restaurant_read
  | menu_read
  | order_read
  | order_status_update
  | restaurant_update
  | menu_manage
  | order_create
  | order_details_update
  | order_items_manage
  | order_payment_update
  | order_cancel
  | analytics_read
  | inventory_read
  | inventory_manage
  | restaurant_create
  | restaurant_delete
  | order_delete
  | staff_manage
  | audit_read
  deriving DecidableEq, Repr

/-- `MembershipRole`. A membership has one of them. -/
inductive MembershipRole
  | OWNER
  | MANAGER
  | EMPLOYEE
  deriving DecidableEq, Repr

/-- `READ_CAPABILITIES`. Every role has these. -/
def READ_CAPABILITIES : List Capability :=
  [.restaurant_read, .menu_read, .order_read, .order_status_update]

/-- `MANAGER_CAPABILITIES`. They include those of reading. -/
def MANAGER_CAPABILITIES : List Capability :=
  READ_CAPABILITIES ++
    [.restaurant_update, .menu_manage, .order_create, .order_details_update, .order_items_manage,
      .order_payment_update, .order_cancel, .analytics_read, .inventory_read, .inventory_manage]

/-- `ROLE_CAPABILITIES`. The owner has all of them. -/
def ROLE_CAPABILITIES : MembershipRole → List Capability
  | .OWNER =>
    MANAGER_CAPABILITIES ++
      [.restaurant_create, .restaurant_delete, .order_delete, .staff_manage, .audit_read]
  | .MANAGER => MANAGER_CAPABILITIES
  | .EMPLOYEE => READ_CAPABILITIES

/-- `AccessContext`: who acts, for which organization, and in which restaurants. -/
structure AccessContext where
  /-- The user. -/
  user_id : UUID
  /-- The organization. -/
  organization_id : UUID
  /-- The role of the membership. -/
  role : MembershipRole
  /-- The restaurants assigned to the membership. -/
  restaurant_ids : List ℕ

namespace AccessContext

/-- `require`. The role of the context decides. -/
def require (context : AccessContext) (capability : Capability) : Except Failure Unit :=
  ensure (capability ∈ ROLE_CAPABILITIES context.role) (.ForbiddenError "Permission denied")

/-- `restaurant_scope`: the rows of a restaurant are visible in the context. -/
def restaurant_scope (context : AccessContext) (organization_id : UUID) (restaurant_id : ℕ) : Bool :=
  organization_id = context.organization_id &&
    (context.role = .OWNER || restaurant_id ∈ context.restaurant_ids)

end AccessContext

end RestaurantOS.Tenancy
