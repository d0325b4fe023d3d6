import RestaurantOS.Analytics.Projection
import RestaurantOS.Core.DecimalContext
import RestaurantOS.Core.IsoTime
import RestaurantOS.Events.Validators
import RestaurantOS.Lib.Dicts
import RestaurantOS.Orders.Storage

/-!
# The dashboard

`get_restaurant_dashboard_analytics` reads the orders themselves: the completed orders of a day, those
of the seven days that end with it by their date, and the lines of the latter by menu item and name. The
averages and the percentages are computed in the decimal context, which `percent_change` can leave with
`InvalidOperation`. Each statement of the request reads the rows as they are when it runs, so that other
requests may commit between two of them. -/

namespace RestaurantOS.Analytics

open Fallible Tenancy Orders
open Events.Pydantic (quantize)
open DecimalContext (context)

/-! ## Days -/

/-- A date that has a week before it in the calendar. -/
structure ReportDate where
  /-- The date. -/
  day : Date
  /-- The week before it. -/
  week : 312 ≤ day + IsoTime.epoch
  /-- The last year is 9999. -/
  last : day + IsoTime.epoch ≤ 3652364

/-- `start_of_day`. The first instant of a day in UTC. -/
def start_of_day (value : Date) : Timestamp := value * IsoTime.day_length

/-- `end_of_day`. The last one, a microsecond before the next day begins. -/
def end_of_day (value : Date) : Timestamp := value * IsoTime.day_length + (IsoTime.day_length - 1)

/-- `isoformat`, and the text of a date that the database returns. -/
def isoformat (value : Date) : String :=
  String.ofList (IsoTime.date_text (Calendar.date (value + IsoTime.epoch)))

/-! ## Queries -/

/-- `CompletedTotals`. The figures of the completed orders in a range of time. -/
structure CompletedTotals where
  /-- The sum of the totals. -/
  sales : ℚ
  /-- The number of orders. -/
  order_count : ℤ

/-- `SalesGraphRow`. The figures of one day on which an order was completed. -/
structure SalesGraphRow where
  /-- The text of the date. -/
  date : String
  /-- The sum of the totals. -/
  sales : ℚ
  /-- The number of orders. -/
  order_count : ℤ

/-- `TopSellingItemRow`. The figures of a group of order lines. -/
structure TopSellingItemRow where
  /-- The menu item, unless it has been deleted. -/
  menu_item_id : Option ℕ
  /-- The name on the lines. -/
  name : String
  /-- The number of portions. -/
  quantity_sold : ℕ
  /-- The sum of the line totals. -/
  sales : ℚ
  deriving DecidableEq

/-- What lines are grouped by. Lines of a deleted menu item are grouped by their name alone. -/
def TopSellingItemRow.key (row : TopSellingItemRow) : Option ℕ × String := (row.menu_item_id, row.name)

/-- The order in which the database comes by the groups of a query. -/
structure Arrangement where
  /-- The groups in this order. -/
  arrange : List TopSellingItemRow → List TopSellingItemRow
  /-- None is lost or invented. -/
  perm : ∀ rows, (arrange rows).Perm rows

/-- The `WHERE` clause of the queries. The completed orders of a restaurant the caller may read, by
the time of their creation. -/
def completed_between (db : Branch) (context : AccessContext) (start_at end_at : Timestamp) :
    List Order :=
  db.orders.filter fun order =>
    context.restaurant_scope db.organization_id db.restaurant_id ∧ order.status = .COMPLETED ∧
      start_at ≤ order.created_at ∧ order.created_at ≤ end_at

/-- `get_completed_totals`. Without an order the sum is zero, as `coalesce` makes it. -/
def get_completed_totals (db : Branch) (context : AccessContext) (start_at end_at : Timestamp) :
    CompletedTotals :=
  let completed := completed_between db context start_at end_at
  ⟨(completed.map (·.total)).sum, completed.length⟩

/-- `get_sales_graph`. Its rows are read by their date, so their order is of no account. -/
def get_sales_graph (db : Branch) (context : AccessContext) (start_at end_at : Timestamp) :
    List SalesGraphRow :=
  let completed := completed_between db context start_at end_at
  (completed.map fun order => creation_date order.created_at).dedup.map fun day =>
    let orders := completed.filter fun order => creation_date order.created_at = day
    ⟨isoformat day, (orders.map (·.total)).sum, orders.length⟩

/-- The group of the lines of one menu item under one name. -/
def sold_row (lines : List OrderItem) (key : Option ℕ × String) : TopSellingItemRow :=
  let sold := lines.filter fun line => (line.menu_item_id, line.item_name) = key
  ⟨key.1, key.2, (sold.map (·.quantity)).sum, (sold.map (·.line_total)).sum⟩

/-- The groups of lines. One for each menu item and name, in the order of their first lines. -/
def sold_rows (lines : List OrderItem) : List TopSellingItemRow :=
  (lines.map fun line => (line.menu_item_id, line.item_name)).dedup.map (sold_row lines)

/-- `get_top_selling_items`. Which of several groups with the same number of portions comes first is up
to the arrangement. -/
def get_top_selling_items (arrangement : Arrangement) (db : Branch) (context : AccessContext)
    (start_at end_at : Timestamp) (limit : ℕ) : List TopSellingItemRow :=
  let lines := (completed_between db context start_at end_at).flatMap (·.items)
  ((arrangement.arrange (sold_rows lines)).insertionSort
    fun row row' => row'.quantity_sold ≤ row.quantity_sold).take limit

/-! ## Values -/

/-- `DashboardMetricData`. A figure of today, and how it compares with yesterday. -/
structure DashboardMetricData where
  /-- The value. -/
  value : ℚ
  /-- Its change since the day before, in percent. -/
  change_percent : ℚ

/-- `SalesPointData`. A day of the sales graph, also one without orders. -/
structure SalesPointData where
  /-- The text of the date. -/
  date : String
  /-- The sales. -/
  sales : ℚ
  /-- The number of orders. -/
  orders : ℤ
  deriving DecidableEq

/-- `TopSellingItemData`. One of the items that sold best during the week. -/
structure TopSellingItemData where
  /-- The menu item, or zero. -/
  menu_item_id : ℕ
  /-- The name. -/
  name : String
  /-- The number of portions. -/
  quantity_sold : ℕ
  /-- The sales. -/
  sales : ℚ

/-- `RestaurantDashboardAnalyticsData`. The data of the response, in the fields of the response
model. -/
structure RestaurantDashboardAnalyticsData where
  /-- The sales of the day. -/
  sales : DashboardMetricData
  /-- The orders of the day. -/
  orders : DashboardMetricData
  /-- The average order of the day. -/
  average_order : DashboardMetricData
  /-- The week. -/
  sales_graph : List SalesPointData
  /-- What sold best in the week. -/
  top_selling_items : List TopSellingItemData

/-- The rows that the statements of a request read, one after another. -/
structure Snapshots where
  /-- The check of the access. -/
  access : Branch
  /-- `restaurant_exists`. -/
  restaurant_exists : Branch
  /-- `get_completed_totals` of the day. -/
  today_totals : Branch
  /-- `get_completed_totals` of the day before. -/
  yesterday_totals : Branch
  /-- `get_sales_graph`. -/
  sales_graph : Branch
  /-- `get_top_selling_items`. -/
  top_selling_items : Branch

/-- What the dashboard raises. Either a failure of a service or an exception of the decimal
arithmetic. -/
inductive DashboardError
  | service (failure : Failure)
  /-- `decimal.InvalidOperation`. -/
  | InvalidOperation

/-- `percent_change`; `none` is `InvalidOperation`. Each operation rounds to the context, and the
result to two places. -/
def percent_change (current previous : ℚ) : Option ℚ :=
  if previous = 0 then some 0
  else quantize 2 (context (context (context (current - previous) / previous) * 100))

/-- The average order of a day, before it is rounded for display. -/
def average_order (totals : CompletedTotals) : ℚ :=
  if 0 < totals.order_count then context (totals.sales / totals.order_count) else 0

/-- The point of a day of the week. -/
def sales_point (graph_by_date : Dict String SalesGraphRow) (graph_date : Date) : SalesPointData :=
  match graph_by_date.get (isoformat graph_date) with
  | some row => ⟨isoformat graph_date, row.sales, row.order_count⟩
  | none => ⟨isoformat graph_date, 0, 0⟩

/-- A metric, whose change may be an `InvalidOperation`. -/
def metric (value current previous : ℚ) : Except DashboardError DashboardMetricData :=
  match percent_change current previous with
  | some change_percent => pure ⟨value, change_percent⟩
  | none => throw .InvalidOperation

/-- A check of the service. Its failure goes through unchanged. -/
def check (result : Except Failure Unit) : Except DashboardError Unit :=
  match result with
  | .ok () => pure ()
  | .error failure => throw (.service failure)

/-- `get_restaurant_dashboard_analytics`. Each of its statements reads a snapshot of its own. -/
def get_restaurant_dashboard_analytics (arrangement : Arrangement) (db : Snapshots)
    (context : AccessContext) (today : ReportDate) :
    Except DashboardError RestaurantDashboardAnalyticsData := do
  -- The restaurant of the context, the permission and the restaurant itself are three checks, in
  -- this order.
  check (db.access.restaurant context)
  check (context.require .analytics_read)
  check (db.restaurant_exists.restaurant context)
  let report_date := today.day
  let yesterday := report_date - 1
  -- Yesterday is a day of its own, not the window of the last 24 hours.
  let today_totals :=
    get_completed_totals db.today_totals context (start_of_day report_date) (end_of_day report_date)
  let yesterday_totals :=
    get_completed_totals db.yesterday_totals context (start_of_day yesterday) (end_of_day yesterday)
  let today_average_order := average_order today_totals
  let yesterday_average_order := average_order yesterday_totals
  -- Both the graph and the top items are about the seven days up to today.
  let graph_start := report_date - 6
  let graph_rows :=
    get_sales_graph db.sales_graph context (start_of_day graph_start) (end_of_day report_date)
  let graph_by_date := Dict.index SalesGraphRow.date graph_rows
  let sales_graph := (List.range 7).map fun (offset : ℕ) =>
    sales_point graph_by_date (graph_start + offset)
  let top_item_rows := get_top_selling_items arrangement db.top_selling_items context
    (start_of_day graph_start) (end_of_day report_date) 5
  let top_selling_items := top_item_rows.map fun row =>
    -- A line whose menu item has been deleted is reported under 0.
    ⟨row.menu_item_id.getD 0, row.name, row.quantity_sold, row.sales⟩
  let sales ← metric today_totals.sales today_totals.sales yesterday_totals.sales
  let orders ← metric today_totals.order_count today_totals.order_count yesterday_totals.order_count
  -- `quantize` raises only for an amount that has no room for two decimal places.
  match quantize 2 today_average_order with
  | none => throw .InvalidOperation
  | some value =>
    let average_order ← metric value today_average_order yesterday_average_order
    pure
      { sales := sales, orders := orders, average_order := average_order,
        sales_graph := sales_graph, top_selling_items := top_selling_items }

end RestaurantOS.Analytics
