import Mathlib.Data.List.Sort
import RestaurantOS.Events.Payloads
import RestaurantOS.Lib.RowSums

/-!
# The analytics projection

The projection of a restaurant keeps one contribution for each order and the totals of the completed
orders of each day. An order event moves the totals by what it changes in the contribution of its
order (`apply_order_event`), a rebuild replays the contributions of the orders themselves
(`rebuild_analytics_projection`), and `reconcile` compares the totals with the orders. The tables
hold the rows of all restaurants under keys that start with the restaurant; every statement selects
one restaurant, so a `Projection` holds the rows of one. A row that breaks a constraint of its table
fails at the latest with the `flush` at the end. -/

namespace RestaurantOS.Analytics

open Fallible Events Orders

/-- A date, in days since the epoch. The source has `date`, and the calendar is only needed for its
text. -/
abbrev Date := ℤ

/-- The states of a contribution. Only a completed one counts, and a deleted one is never replaced.
-/
inductive ContributionState
  | completed
  | inactive
  | deleted
  deriving DecidableEq, Repr

/-- `Contribution`, and a row of `analytics_order_contributions`. It is what an order adds to the
totals, at the revision of the event or the row. -/
structure Contribution where
  /-- The order. -/
  order_id : ℕ
  /-- The revision of the order. -/
  revision : ℤ
  /-- The day on which the order was created. -/
  creation_date : Date
  /-- The total of the order. -/
  total : ℚ
  /-- Whether the order counts. -/
  state : ContributionState
  deriving DecidableEq

/-- `Contribution.count`. The number of orders it stands for, one or zero. -/
def Contribution.count (contribution : Contribution) : ℤ :=
  if contribution.state = .completed then 1 else 0

/-- `creation_date`: the UTC date of an instant. Python's `astimezone(UTC).date()`, as the division
of the microseconds by a day. -/
def creation_date (created_at : Timestamp) : Date := created_at / (24 * 60 * 60 * 1000000)

/-- `should_apply`. A later revision replaces an earlier one, and nothing replaces a deletion. -/
def should_apply (current : Option Contribution) (incoming : Contribution) : Bool :=
  match current with
  | none => true
  | some current => current.state ≠ .deleted && incoming.revision > current.revision

/-- A row of `analytics_daily_sales`. The totals of a day on which completed orders were created. -/
structure DailySales where
  /-- The day. -/
  creation_date : Date
  /-- The number of completed orders. -/
  order_count : ℤ
  /-- The sum of their totals. -/
  sales : ℚ
  deriving DecidableEq

/-- The projection of a restaurant. The source keeps the rows of all restaurants in one table and
selects them by these keys. -/
@[ext]
structure Projection where
  /-- The organization of the restaurant. -/
  organization_id : UUID
  /-- The restaurant. -/
  restaurant_id : ℤ
  /-- Its rows of `analytics_order_contributions`. -/
  contributions : List Contribution
  /-- Its rows of `analytics_daily_sales`. -/
  daily_sales : List DailySales

/-- What became of an event. A stale event is skipped, and the worker records it as such. -/
inductive Outcome
  | processed
  | skipped
  deriving DecidableEq, Repr

/-! ## `ProjectionRepository` -/

namespace Projection

/-- `scope`. An event or a rebuild of another restaurant is refused with this message. -/
def scope (db : Projection) (organization_id : UUID) (restaurant_id : ℤ) : Except Failure Unit :=
  ensure (restaurant_id = db.restaurant_id ∧ organization_id = db.organization_id)
    (.ValueError "Unknown analytics scope")

/-- `get`. The row of an order, or `none` before its first event. -/
def get (db : Projection) (order_id : ℕ) : Option Contribution :=
  Keyed.lookup Contribution.order_id order_id db.contributions

/-- `store`. It inserts a row, or updates the one that was read. -/
def store (db : Projection) (incoming : Contribution) (row : Option Contribution) : Projection :=
  match row with
  | none => { db with contributions := db.contributions ++ [incoming] }
  | some _ => { db with contributions := Keyed.put Contribution.order_id incoming db.contributions }

/-- `delta`. It adds to the row of the day, which it inserts if there is none. -/
def delta (db : Projection) (day : Date) (count : ℤ) (sales : ℚ) : Projection :=
  match Keyed.lookup DailySales.creation_date day db.daily_sales with
  | none => { db with daily_sales := db.daily_sales ++ [⟨day, 0 + count, 0 + sales⟩] }
  | some row =>
    { db with
      daily_sales := Keyed.put DailySales.creation_date
        ⟨day, row.order_count + count, row.sales + sales⟩ db.daily_sales }

/-- `daily().get(day, (0, Decimal("0.00")))`. What the row of the day says, or zero without one. -/
def daily (db : Projection) (day : Date) : ℤ × ℚ :=
  match Keyed.lookup DailySales.creation_date day db.daily_sales with
  | none => (0, 0)
  | some row => (row.order_count, row.sales)

/-- `clear_daily`. A rebuild deletes all rows of the days before it replays the contributions. -/
def clear_daily (db : Projection) : Projection := { db with daily_sales := [] }

/-- The constraints of the two tables. Revisions and keys are positive, sums and counts not
negative, and only a completed order has a total. -/
def constraints (db : Projection) : Prop :=
  (∀ row ∈ db.contributions, 1 ≤ row.revision ∧ 0 < row.order_id ∧ 0 ≤ row.total ∧
    (row.state = .completed ∨ row.total = 0)) ∧
  ∀ row ∈ db.daily_sales, 0 ≤ row.order_count ∧ 0 ≤ row.sales

/-- The constraints are comparisons of columns, over finitely many rows. -/
instance (db : Projection) : Decidable db.constraints := inferInstanceAs (Decidable (_ ∧ _))

/-- `session.flush`. It raises where a row violates a constraint. -/
def flush (db : Projection) : Except Failure Projection := do
  ensure db.constraints .DatabaseError
  pure db

end Projection

/-- `authoritative().get(day, (0, Decimal("0.00")))`: the completed orders of a day. -/
def authoritative (orders : List Order) (day : Date) : ℤ × ℚ :=
  let completed := orders.filter fun order =>
    order.status = .COMPLETED ∧ creation_date order.created_at = day
  (completed.length, (completed.map (·.total)).sum)

/-- The contribution of a live order. It has the revision of the row, which is that of its last
event. -/
def live_contribution (order : Order) : Contribution :=
  { order_id := order.order_id, revision := order.revision,
    creation_date := creation_date order.created_at,
    total := if order.status = .COMPLETED then order.total else 0,
    state := if order.status = .COMPLETED then .completed else .inactive }

/-- What a retained deletion does to the baseline. -/
def baseline_deletion (values : List Contribution) (row : EventEnvelope Payload) :
    List Contribution :=
  match row.payload with
  | .order_deleted order_id _ _ created_at =>
    let incoming : Contribution :=
      ⟨order_id, row.aggregate_revision, creation_date created_at, 0, .deleted⟩
    match Keyed.lookup Contribution.order_id order_id values with
    | none => values ++ [incoming]
    | some old =>
      if row.aggregate_revision > old.revision then Keyed.put Contribution.order_id incoming values
      else values
  | _ => values

/-- `baseline`: the contributions of the live orders, and of the deleted ones by their retained
events. The payloads of the outbox are valid, so their validation has nothing to find. -/
def baseline (orders : List Order) (events : List (EventEnvelope Payload)) : List Contribution :=
  let values := orders.foldl (fun values order =>
    Keyed.upsert Contribution.order_id (live_contribution order) values) []
  events.foldl baseline_deletion values

/-! ## The service -/

/-- The contribution of an order event. Events of other types are an error of the caller. -/
def incoming (event : EventEnvelope Payload) : Except Failure Contribution :=
  match event.payload with
  | .order_completed order_id total created_at => pure
    ⟨order_id, event.aggregate_revision, creation_date created_at, total, .completed⟩
  | .order_deleted order_id _ _ created_at => pure
    ⟨order_id, event.aggregate_revision, creation_date created_at, 0, .deleted⟩
  | _ => throw (.ValueError "Unsupported analytics event")

/-- The part of `apply_order_event` that moves the totals. -/
def move_totals (db : Projection) (current : Option Contribution) (incoming : Contribution) :
    Projection :=
  let db := match current with
    | some current =>
      if current.count ≠ 0 then db.delta current.creation_date (-1) (-current.total) else db
    | none => db
  if incoming.count ≠ 0 then db.delta incoming.creation_date 1 incoming.total else db

/-- `apply_order_event`. It moves the totals from the old contribution to the new one and stores the
new one. -/
def apply_order_event (event : EventEnvelope Payload) (db : Projection) :
    Except Failure (Projection × Outcome) := do
  let incoming ← incoming event
  db.scope event.organization_id event.restaurant_id
  let row := db.get incoming.order_id
  if !should_apply row incoming then pure (db, .skipped)
  else do
    let db := move_totals db row incoming
    let db ← (db.store incoming row).flush
    pure (db, .processed)

/-- An existing contribution joins the baseline: nothing is known of its order any more, which is
safe for a deleted order only. -/
def keep_watermark (values : List Contribution) (row : Contribution) :
    Except Failure (List Contribution) :=
  match Keyed.lookup Contribution.order_id row.order_id values with
  | some _ => pure values
  | none => do
    ensure (row.state = .deleted) (.ValueError "Missing authoritative order/deletion fact")
    pure (values ++ [row])

/-- One contribution of the baseline is stored and counted. `existing` are the contributions before
the rebuild. -/
def replay (existing : List Contribution) (db : Projection) (value : Contribution) : Projection :=
  let db := db.store value (Keyed.lookup Contribution.order_id value.order_id existing)
  if value.count ≠ 0 then db.delta value.creation_date 1 value.total else db

/-- `rebuild_analytics_projection` on the live orders and the retained events of the restaurant. -/
def rebuild_analytics_projection (organization_id : UUID) (restaurant_id : ℤ) (orders : List Order)
    (events : List (EventEnvelope Payload)) (db : Projection) : Except Failure Projection := do
  db.scope organization_id restaurant_id
  let existing := db.contributions.insertionSort fun row row' => row.order_id ≤ row'.order_id
  let values ← existing.foldlM keep_watermark (baseline orders events)
  (values.foldl (replay existing) db.clear_daily).flush

/-- `reconcile`: the days whose totals differ, with both. -/
def reconcile (orders : List Order) (db : Projection) : List (Date × (ℤ × ℚ) × (ℤ × ℚ)) :=
  let days := db.daily_sales.map (·.creation_date) ++ (orders.filter fun order =>
    order.status = .COMPLETED).map fun order => creation_date order.created_at
  (days.dedup.insertionSort (· ≤ ·)).filterMap fun day =>
    let actual := authoritative orders day
    let derived := db.daily day
    if actual ≠ derived then some (day, actual, derived) else none

end RestaurantOS.Analytics
