import Mathlib.Data.Rat.Init
import RestaurantOS.Lib.Fallible

/-!
# Failures of a command

Every failure ends the transaction of a command without a trace. The classes of `DomainError` carry
the message of the source; the message of a refused order, which lists every shortage, is kept as
its data. The other failures are exceptions that no handler of the command expects.
-/

namespace RestaurantOS

/-- Why a required quantity is not available. The two texts of the shortage in the error of an
order. -/
inductive ShortageState
  | inactive_or_missing_balance
  | insufficient_stock
  deriving DecidableEq, Repr

/-- One entry of "Insufficient tracked stock":
`{label}: requires {required} {unit}, has {available} ({state})`. -/
structure Shortage where
  /-- The name of the ingredient. -/
  label : String
  /-- What the order needs. -/
  required : ℚ
  /-- The unit of the ingredient. -/
  unit : String
  /-- What is available. -/
  available : ℚ
  /-- Why it is not more. -/
  state : ShortageState
  deriving DecidableEq

/-- Why a command fails. The exceptions of the services that answer a request, with their messages.
-/
inductive Failure
  | NotFoundError (message : String)
  | ConflictError (message : String)
  /-- `ConflictError` with the message "Insufficient tracked stock: ...". -/
  | InsufficientStock (shortages : List Shortage)
  | ValidationError (message : String)
  | ForbiddenError (message : String)
  | RuntimeError (message : String)
  /-- A `ValueError` of the inventory facts. -/
  | ValueError (message : String)
  /-- The `ValueError` "event envelope failed contract validation". -/
  | ContractError
  /-- `EventScopeMismatch`. -/
  | EventScopeMismatch
  /-- The `ValueError` "order revision must be a positive integer". -/
  | InvalidRevision
  /-- A key that a dictionary lacks. -/
  | KeyError
  /-- A value that its column cannot hold. -/
  | DatabaseError
  deriving DecidableEq

/-- The failures that report a broken invariant of the inventory. -/
def Failure.is_inventory_fault : Failure → Prop
  | .RuntimeError _ | .ValueError _ => True
  | _ => False

end RestaurantOS
