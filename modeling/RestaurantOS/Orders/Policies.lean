import Mathlib.Data.Finset.Basic
import RestaurantOS.Tenancy.Policies

/-!
# The lifecycle of an order

Order statuses, the transitions between them, and who may ask for which. The texts of requests are
normalized by `strip` and `upper`; since both leave the canonical statuses as they are, the stored
status of an order is a value of `OrderStatus` and needs no normalization.
-/

namespace RestaurantOS

/-- The functions of Python on texts that the code uses. -/
structure Text where
  /-- `str.strip`. -/
  strip : String → String
  /-- `str.upper`. -/
  upper : String → String
  /-- `str.casefold`. -/
  casefold : String → String

end RestaurantOS

namespace RestaurantOS.Orders

open Fallible Tenancy

/-- The statuses of an order. The last two are final. -/
inductive OrderStatus
  | DRAFT
  | SUBMITTED
  | ACCEPTED
  | PREPARING
  | READY
  | COMPLETED
  | CANCELLED
  deriving DecidableEq, Repr

namespace OrderStatus

/-- The text of a status. It is the text that the column holds. -/
def value : OrderStatus → String
  | DRAFT => "DRAFT"
  | SUBMITTED => "SUBMITTED"
  | ACCEPTED => "ACCEPTED"
  | PREPARING => "PREPARING"
  | READY => "READY"
  | COMPLETED => "COMPLETED"
  | CANCELLED => "CANCELLED"

end OrderStatus

/-- `ORDER_TRANSITIONS`. The statuses that may follow another one. -/
def ORDER_TRANSITIONS : OrderStatus → List OrderStatus
  | .DRAFT => [.SUBMITTED, .CANCELLED]
  | .SUBMITTED => [.ACCEPTED, .CANCELLED]
  | .ACCEPTED => [.PREPARING, .CANCELLED]
  | .PREPARING => [.READY, .CANCELLED]
  | .READY => [.COMPLETED, .CANCELLED]
  | .COMPLETED => []
  | .CANCELLED => []

/-- The payment statuses. An order is created unpaid. -/
inductive PaymentStatus
  | UNPAID
  | PAID
  | VOID
  deriving DecidableEq, Repr

/-- The text of a payment status. It is the text that the column holds. -/
def PaymentStatus.value : PaymentStatus → String
  | UNPAID => "UNPAID"
  | PAID => "PAID"
  | VOID => "VOID"

/-- `ORDER_STATUS_ALIASES`. They are the old names of two statuses. -/
def ORDER_STATUS_ALIASES (normalized : String) : String :=
  if normalized = "PENDING" then "DRAFT"
  else if normalized = "COMPLETE" then "COMPLETED"
  else normalized

/-- `normalize_order_status`. Case and blanks at the ends do not matter. -/
def normalize_order_status (text : Text) (value : String) : String :=
  ORDER_STATUS_ALIASES (text.upper (text.strip value))

/-- `ensure_valid_order_transition`: repeating the current status is allowed. Any other text than
that of a following status is refused. -/
def ensure_valid_order_transition (text : Text) (current : OrderStatus) (requested : String) :
    Except Failure OrderStatus :=
  let normalized := normalize_order_status text requested
  if normalized = current.value then pure current
  else
    match (ORDER_TRANSITIONS current).find? fun next => next.value = normalized with
    | some next => pure next
    | none => throw (.ConflictError
        ("Invalid order status transition from " ++ current.value ++ " to " ++ normalized))

/-- `ensure_valid_payment_status`. Case and blanks at the ends do not matter. -/
def ensure_valid_payment_status (text : Text) (value : String) : Except Failure PaymentStatus :=
  let normalized := text.upper (text.strip value)
  match [PaymentStatus.UNPAID, .PAID, .VOID].find? fun status => status.value = normalized with
  | some status => pure status
  | none => throw (.ValidationError "Invalid payment status")

/-- `ensure_order_items_mutable`. Any other status is a conflict. -/
def ensure_order_items_mutable (status : OrderStatus) : Except Failure Unit :=
  ensure (status = .DRAFT)
    (.ConflictError "Order items can only be changed while an order is in DRAFT")

/-- `next_order_revision`. Revisions are contiguous. -/
def next_order_revision (current_revision : ℕ) : Except Failure ℕ := do
  ensure (1 ≤ current_revision) .InvalidRevision
  pure (current_revision + 1)

/-- The names of the fields of an update. -/
inductive OrderField
  | status
  | payment_status
  | items
  | table_number
  | customer_name
  | notes
  deriving DecidableEq, Repr

/-- The capability that each field of an update needs. -/
def OrderField.capability : OrderField → Capability
  | .status => .order_status_update
  | .payment_status => .order_payment_update
  | .items => .order_items_manage
  | .table_number => .order_details_update
  | .customer_name => .order_details_update
  | .notes => .order_details_update

/-- `EMPLOYEE_TRANSITIONS`. The only changes of status that an employee may request. -/
def EMPLOYEE_TRANSITIONS : List (OrderStatus × String) :=
  [(.ACCEPTED, "PREPARING"), (.PREPARING, "READY")]

/-- `authorize_order_update`. The capabilities of the fields come first, and then what an employee
may do. -/
def authorize_order_update (text : Text) (context : AccessContext) (fields : Finset OrderField)
    (current : OrderStatus) (requested : Option String) : Except Failure Unit := do
  ensure (∀ field ∈ fields, field.capability ∈ ROLE_CAPABILITIES context.role)
    (.ForbiddenError "Permission denied")
  ensure (context.role = .EMPLOYEE → fields = {.status} ∧
      ∃ value ∈ requested, (current, text.upper (text.strip value)) ∈ EMPLOYEE_TRANSITIONS)
    (.ForbiddenError "Employees may only start preparation or mark an order ready")

/-- A valid transition repeats the status or is one of `ORDER_TRANSITIONS`. -/
theorem ensure_valid_order_transition_ok {text : Text} {current next : OrderStatus}
    {requested : String} (h : ensure_valid_order_transition text current requested = .ok next) :
    next = current ∨ next ∈ ORDER_TRANSITIONS current := by
  simp only [ensure_valid_order_transition] at h
  split_ifs at h
  · -- The status is repeated, which is always allowed.
    exact Or.inl (pure_eq_ok.mp h).symm
  · right
    cases hfind : (ORDER_TRANSITIONS current).find?
        (fun status => status.value = normalize_order_status text requested) with
    | none => simp [hfind] at h
    | some status =>
      simp only [hfind] at h
      rw [← pure_eq_ok.mp h]
      exact List.mem_of_find?_eq_some hfind

end RestaurantOS.Orders
