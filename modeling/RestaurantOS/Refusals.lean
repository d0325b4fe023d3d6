import RestaurantOS.Commands

/-!
# What a request is refused with

The checks of a request that only read: what they fail with is an answer to the caller or a storage
error (`Failure.Refuses`), never a broken invariant of the inventory and never an event that its
contract rejects. The statements here hold for every set `E` of failures that contains these answers,
so that a proof about other failures of a command can use them for its own `E`. -/

namespace RestaurantOS

open Fallible Catalog Inventory Orders Tenancy

/-- The failures that answer a request. The other ones would be errors of the server. -/
def Failure.Refuses : Failure → Prop
  | .RuntimeError _ | .ValueError _ | .ContractError | .EventScopeMismatch => False
  | _ => True

/-- The failures of `E` include every answer to a request. -/
class AllowsRefusals (E : Failure → Prop) : Prop where
  /-- An answer is one of them. -/
  allows : ∀ {failure : Failure}, failure.Refuses → E failure

/-- The failures that answer a request before anything is stored. -/
def Failure.Answers : Failure → Prop
  | .DatabaseError => False
  | failure => failure.Refuses

/-- The failures of `E` include every answer that is given before anything is stored. -/
class AllowsAnswers (E : Failure → Prop) : Prop where
  /-- An answer is one of them. -/
  allows : ∀ {failure : Failure}, failure.Answers → E failure

/-- Failures that include every refusal include the answers, which are refusals. -/
instance {E : Failure → Prop} [AllowsRefusals E] : AllowsAnswers E where
  allows := fun {failure} h => AllowsRefusals.allows <| by
    cases failure with
    | DatabaseError => exact h.elim
    | _ => exact h

/-- A failure other than that of the storage. -/
def Failure.NotStorage : Failure → Prop
  | .DatabaseError => False
  | _ => True

/-- An answer is given before anything is stored. -/
instance : AllowsAnswers Failure.NotStorage where
  allows := fun {failure} h => by
    cases failure with
    | DatabaseError => exact h
    | _ => exact trivial

/-- A guard on what is stored. -/
theorem stores_ensure {E : Failure → Prop} [AllowsRefusals E] {p : Prop} [Decidable p] :
    Fails E (ensure p .DatabaseError) :=
  fails_ensure fun _ => AllowsRefusals.allows trivial

variable {E : Failure → Prop} [AllowsAnswers E]

/-- A guard that refuses. -/
theorem refuses_ensure {p : Prop} [Decidable p] {failure : Failure}
    (h : failure.Answers) : Fails E (ensure p failure) :=
  fails_ensure fun _ => AllowsAnswers.allows h

/-- A refusal. -/
theorem refuses_throw {α : Type} {failure : Failure}
    (h : failure.Answers) :
    Fails E (throw failure : Except Failure α) :=
  fails_throw (AllowsAnswers.allows h)

variable {lib : Library} {context : AccessContext} {db : Branch}

/-! ## Inventory -/

/-- Finding the restaurant. -/
theorem Branch.restaurant_fails : Fails E (db.restaurant context) := refuses_ensure trivial

/-- Demanding a capability. -/
theorem require_fails (capability : Capability) : Fails E (context.require capability) :=
  refuses_ensure trivial

/-- Finding an ingredient. -/
theorem Branch.ingredient_fails (db : Branch) (id : ℕ) : Fails E (db.ingredient id) := by
  unfold Branch.ingredient
  split
  · exact refuses_throw trivial
  · split
    · exact refuses_throw trivial
    · exact fails_pure _

/-- Checking a quantity. -/
theorem quantity_fails (value : Decimal) (positive : Bool) : Fails E (quantity value positive) := by
  unfold quantity
  cases value.value with
  | none => exact refuses_throw trivial
  | some number => exact fails_bind (refuses_ensure trivial) fun _ _ => fails_pure _

/-- Preparing an inventory request. -/
theorem prepare_fails (capability : Capability) :
    Fails E (InventoryService.prepare db context capability) :=
  fails_bind Branch.restaurant_fails fun _ _ => require_fails capability

/-- Checking an ingredient. -/
theorem validate_ingredient_fails (text : Text) (name unit : String) :
    Fails E (validate_ingredient text name unit) := by
  unfold validate_ingredient
  cases InventoryUnit.parse unit with
  | none => exact refuses_throw trivial
  | some unit => exact fails_bind (refuses_ensure trivial) fun _ _ => fails_pure _

/-- Working out the change of a quantity. -/
theorem stock_delta_fails (kind : MovementKind) (amount : ℚ) (expected_version : Option ℤ)
    (balance : InventoryBalance) :
    Fails E (InventoryService.stock_delta kind amount expected_version balance) := by
  unfold InventoryService.stock_delta
  split
  · exact fails_bind (refuses_ensure trivial) fun _ _ => fails_pure _
  · exact fails_pure _
  · exact fails_pure _

/-! ## Orders -/

namespace Orders

/-- Gathering what an order needs. It reads rows and raises errors of the orders only. -/
theorem stock_rows_fails (lines : List OrderLine) : Fails E (stock_rows db lines) := by
  refine fails_bind (fails_mapM fun line _ => ?_) fun portions _ => ?_
  · unfold line_portions
    split
    · exact refuses_throw trivial
    · exact fails_pure _
  refine fails_bind (refuses_ensure trivial) fun _ _ => ?_
  refine fails_bind (refuses_ensure trivial) fun _ _ => ?_
  refine fails_bind (fails_mapM fun item _ => ?_) fun recipes _ => ?_
  · exact fails_bind (refuses_ensure trivial) fun _ _ => fails_pure _
  refine fails_bind (refuses_ensure trivial) fun _ _ => ?_
  refine fails_bind (fails_mapM fun id _ => ?_) fun rows _ => ?_
  · unfold required_row
    split
    · exact fails_pure _
    · exact refuses_throw trivial
  refine fails_bind (refuses_ensure trivial) fun _ _ => ?_
  refine fails_mapM fun row _ => ?_
  unfold balance_row
  split
  · exact fails_pure _
  · exact refuses_throw trivial

/-- Checking the stock for an order. -/
theorem check_stock_fails (lines : List OrderLine) : Fails E (check_stock db lines) :=
  fails_bind (stock_rows_fails lines) fun _ _ => fails_pure _

/-- Finding an order. -/
theorem get_order_or_error_fails (order_id : ℕ) : Fails E (get_order_or_error db context order_id) := by
  refine fails_bind (refuses_ensure trivial) fun _ _ => ?_
  split
  · exact fails_pure _
  · exact refuses_throw trivial

/-- Authorizing an update. -/
theorem authorize_order_update_fails (text : Text) (fields : Finset OrderField) (current : OrderStatus)
    (requested : Option String) :
    Fails E (authorize_order_update text context fields current requested) :=
  fails_bind (refuses_ensure trivial) fun _ _ => refuses_ensure trivial

/-- Checking a requested status. -/
theorem ensure_valid_order_transition_fails (text : Text) (current : OrderStatus) (requested : String) :
    Fails E (ensure_valid_order_transition text current requested) := by
  simp only [ensure_valid_order_transition]
  split_ifs
  · exact fails_pure _
  · split
    · exact fails_pure _
    · exact refuses_throw trivial

/-- The part of an update between the status and the items. -/
theorem update_details_fails (command : UpdateOrder) (order : Order) :
    Fails E (update_details lib command order) := by
  refine fails_bind ?_ fun _ _ => fails_pure _
  unfold update_payment
  split
  · simp only [ensure_valid_payment_status]
    split
    · exact fails_pure _
    · exact refuses_throw trivial
  · exact fails_pure _

/-- Building the lines of an order. Each line is checked against its item. -/
theorem build_order_items_fails (commands : List OrderItemCommand) :
    Fails E (build_order_items db commands) := by
  refine fails_bind (refuses_ensure trivial) fun _ _ => ?_
  refine fails_bind (refuses_ensure trivial) fun _ _ => ?_
  refine fails_bind (fails_mapM fun command _ => ?_) fun _ _ => fails_pure _
  unfold order_line
  split
  · exact refuses_throw trivial
  · exact fails_pure _

/-- The items part of an update. -/
theorem update_items_fails (command : UpdateOrder) (order : Order) :
    Fails E (update_items command db order) := by
  unfold update_items
  split
  · exact fails_pure _
  · refine fails_bind (refuses_ensure trivial) fun _ _ => ?_
    refine fails_bind (build_order_items_fails _) fun _ _ => ?_
    exact fails_bind (check_stock_fails _) fun _ _ => fails_pure _

/-- The next revision of an order. -/
theorem next_order_revision_fails (revision : ℕ) : Fails E (next_order_revision revision) :=
  fails_bind (refuses_ensure trivial) fun _ _ => fails_pure _

/-- The revision of an updated order. -/
theorem update_revision_fails (before after : Order) : Fails E (update_revision before after) := by
  unfold update_revision
  split_ifs
  · exact fails_bind (next_order_revision_fails _) fun _ _ => fails_pure _
  · exact fails_pure _

end Orders

/-- Creating an order. The columns may refuse the order, which is why the error of the storage is
allowed. -/
theorem OrderService.create_fails {draw : Draw} (hstorage : E .DatabaseError) (command : CreateOrder) :
    Fails E (create lib context command draw db) := by
  refine fails_bind Branch.restaurant_fails fun _ _ => ?_
  refine fails_bind (require_fails _) fun _ _ => ?_
  refine fails_bind (refuses_ensure trivial) fun _ _ => ?_
  split
  · exact fails_bind (refuses_ensure trivial) fun _ _ => fails_pure _
  · refine fails_bind (build_order_items_fails _) fun _ _ => ?_
    refine fails_bind (check_stock_fails _) fun _ _ => ?_
    exact fails_bind (fails_ensure fun _ => hstorage) fun _ _ => fails_pure _

/-! ## The catalog -/

/-- Finding a menu. -/
theorem get_menu_by_id_fails (menu_id : ℕ) : Fails E (get_menu_by_id db context menu_id) := by
  refine fails_bind (refuses_ensure trivial) fun _ _ => ?_
  split
  · exact fails_pure _
  · exact refuses_throw trivial

/-- Finding a menu item. -/
theorem get_menu_item_by_id_fails (menu_item_id : ℕ) :
    Fails E (get_menu_item_by_id db context menu_item_id) := by
  refine fails_bind (refuses_ensure trivial) fun _ _ => ?_
  split
  · exact fails_pure _
  · exact refuses_throw trivial

/-- Checking a price. -/
theorem validate_menu_price_fails (price : Decimal) : Fails E (validate_menu_price price) := by
  unfold validate_menu_price
  cases price.value with
  | none => exact refuses_throw trivial
  | some number => exact fails_bind (refuses_ensure trivial) fun _ _ => fails_pure _

/-- The price of an item after an update. -/
theorem requested_price_fails (command : UpdateMenuItem) (item : MenuItem) :
    Fails E (CatalogService.requested_price command item) := by
  unfold CatalogService.requested_price
  split
  · exact validate_menu_price_fails _
  · exact fails_pure _

/-- Replacing a recipe. The item, the ingredients and the quantities are checked before the write.
-/
theorem RecipesService.replace_fails (menu_item_id : ℕ) (command : ReplaceRecipe) :
    Fails E (replace context menu_item_id command db) := by
  refine fails_bind (get_menu_item_by_id_fails _) fun _ _ => ?_
  refine fails_bind (require_fails _) fun _ _ => ?_
  refine fails_bind (refuses_ensure trivial) fun _ _ => ?_
  refine fails_bind (refuses_ensure trivial) fun _ _ => ?_
  refine fails_bind (fails_mapM fun component _ => ?_) fun _ _ => ?_
  · exact fails_bind (quantity_fails _ _) fun _ _ => fails_pure _
  refine fails_bind (refuses_ensure trivial) fun _ _ => ?_
  exact fails_bind (refuses_ensure trivial) fun _ _ => fails_pure _

end RestaurantOS
