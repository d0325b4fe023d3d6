import Mathlib.Algebra.Order.Field.Rat
import RestaurantOS.Orders.Policies

/-!
# Order rows

The rows of orders and of their submissions, and the commands on orders. The items of an order are
rows that belong to it alone; a command's items have passed the request schema, which demands
positive quantities.
-/

namespace RestaurantOS.Orders

/-- A row of `order_items`, but for its key: what `_order_state` compares of an item. -/
structure OrderLine where
  /-- The menu item, unless it has been deleted. -/
  menu_item_id : Option ℕ
  /-- The name of the menu item when the line was written. -/
  item_name : String
  /-- The number of portions. -/
  quantity : ℕ
  /-- The price of the menu item when the line was written. -/
  unit_price : ℚ
  /-- The price of all portions. -/
  line_total : ℚ
  /-- Notes. -/
  notes : Option String
  deriving DecidableEq

/-- A row of `order_items`. It has the fields of the line with the key of the row. -/
structure OrderItem extends OrderLine where
  /-- The primary key. -/
  order_item_id : ℕ

/-- A row of `orders`. The restaurant is that of the rows it is kept with. -/
structure Order where
  /-- The primary key. -/
  order_id : ℕ
  /-- The table. -/
  table_number : Option String
  /-- The customer. -/
  customer_name : Option String
  /-- The status. -/
  status : OrderStatus
  /-- The payment status. -/
  payment_status : PaymentStatus
  /-- Notes. -/
  notes : Option String
  /-- The sum of the lines. -/
  subtotal : ℚ
  /-- The total. -/
  total : ℚ
  /-- Whether acceptance has evaluated the stock of the order. -/
  inventory_processed : Bool
  /-- The revision. -/
  revision : ℕ
  /-- When the order was created, in UTC. -/
  created_at : Timestamp
  /-- The items. -/
  items : List OrderItem

/-- What `creation_response_snapshot` returns: the public fields of an order at its creation. -/
structure OrderSnapshot where
  /-- The order. -/
  order_id : ℕ
  /-- The restaurant. -/
  restaurant_id : ℕ
  /-- The table. -/
  table_number : Option String
  /-- The customer. -/
  customer_name : Option String
  /-- The status. -/
  status : OrderStatus
  /-- The payment status. -/
  payment_status : PaymentStatus
  /-- Notes. -/
  notes : Option String
  /-- The sum of the lines. -/
  subtotal : ℚ
  /-- The total. -/
  total : ℚ
  /-- When the order was created. -/
  created_at : Timestamp
  /-- The items. -/
  items : List OrderItem

/-- `creation_response_snapshot`. It is stored with the submission and returned to every replay. -/
def creation_response_snapshot (restaurant_id : ℕ) (order : Order) : OrderSnapshot :=
  { order_id := order.order_id, restaurant_id := restaurant_id,
    table_number := order.table_number, customer_name := order.customer_name,
    status := order.status, payment_status := order.payment_status, notes := order.notes,
    subtotal := order.subtotal, total := order.total, created_at := order.created_at,
    items := order.items }

/-- A row of `order_submissions`. It ties an idempotency key to the first response. -/
structure OrderSubmission where
  /-- The key of the request. -/
  idempotency_key : String
  /-- The order, unless it has been deleted. -/
  order_id : Option ℕ
  /-- The fingerprint of the request. -/
  request_fingerprint : String
  /-- The response. -/
  response_snapshot : OrderSnapshot

/-- `OrderItemCommand`, as the request schema admits it. The quantity is positive by the last field.
-/
structure OrderItemCommand where
  /-- The menu item. -/
  menu_item_id : ℕ
  /-- The number of portions. -/
  quantity : ℕ
  /-- Notes. -/
  notes : Option String
  /-- The schema demands a positive number. -/
  positive : 0 < quantity

/-- `CreateOrder`. The fields of the command as the service receives it. -/
structure CreateOrder where
  /-- The table. -/
  table_number : Option String
  /-- The customer. -/
  customer_name : Option String
  /-- Notes. -/
  notes : Option String
  /-- The items. -/
  items : List OrderItemCommand
  /-- The key of the request. -/
  idempotency_key : String

/-- `UpdateOrder`. A field that is `None` stays as it is. -/
structure UpdateOrder where
  /-- The new table. -/
  table_number : Option String
  /-- The new customer. -/
  customer_name : Option String
  /-- The requested status. -/
  status : Option String
  /-- The new notes. -/
  notes : Option String
  /-- The new items. -/
  items : Option (List OrderItemCommand)
  /-- The requested payment status. -/
  payment_status : Option String
  /-- The names of the supplied fields. -/
  fields : Finset OrderField

/-- The largest number of an integer column. A sequence that has passed it makes the insertion fail.
-/
def MAX_INTEGER : ℕ := 2147483647

/-- The largest number of a money column. An amount beyond it makes the flush fail. -/
def MAX_MONEY : ℚ := 9999999999 / 100

end RestaurantOS.Orders
