import Mathlib.Algebra.Order.Ring.Rat
import Mathlib.Algebra.Order.BigOperators.Group.List
import Mathlib.Tactic.Linarith
import RestaurantOS.Inventory.Requests
import RestaurantOS.Orders.Service

/-!
# What an order needs of the stock

`_stock_rows` gathers the portions of each menu item and then, component by component, what the
tracked items need of each ingredient. The result is what one would compute line by line
(`requirement`): for every ingredient that a line uses, the sum over the lines of recipe quantity
times portions (`stock_rows_ok`). -/

namespace RestaurantOS

open Fallible Catalog Events Inventory Orders Tenancy

namespace Orders

/-- Orders of a menu item consume stock. The flag of the stored item decides, and an unknown item is
not tracked. -/
def is_tracked (db : Branch) (menu_item_id : ℕ) : Bool :=
  (menu_item db menu_item_id).any fun item => item.inventory_tracking

/-- What the recipe of a menu item needs of an ingredient for one portion. -/
def recipe_quantity (db : Branch) (ingredient_id menu_item_id : ℕ) : ℚ :=
  ((db.recipe_components.filter fun component =>
    component.menu_item_id = menu_item_id ∧ component.ingredient_id = ingredient_id).map
      (·.quantity)).sum

/-- What the portions of a line need of an ingredient. -/
def line_requirement (db : Branch) (ingredient_id : ℕ) (line : OrderLine) : ℚ :=
  match line.menu_item_id with
  | some id => if is_tracked db id then recipe_quantity db ingredient_id id * line.quantity else 0
  | none => 0

/-- What the lines of an order need of an ingredient. -/
def requirement (db : Branch) (lines : List OrderLine) (ingredient_id : ℕ) : ℚ :=
  (lines.map (line_requirement db ingredient_id)).sum

/-- A line is of a tracked menu item whose recipe has the ingredient. -/
def uses (db : Branch) (lines : List OrderLine) (ingredient_id : ℕ) : Prop :=
  ∃ line ∈ lines, ∃ id, line.menu_item_id = some id ∧ is_tracked db id = true ∧
    ∃ component ∈ db.recipe_components,
      component.menu_item_id = id ∧ component.ingredient_id = ingredient_id

/-! ## Recipes -/

/-- The portions of the lines, line by line. A line of an item that has been deleted is refused
before. -/
theorem line_portions_ok {lines : List OrderLine} {portions : List (ℕ × ℕ)}
    (h : lines.mapM line_portions = .ok portions) :
    List.Forall₂ (fun line portion => line.menu_item_id = some portion.1 ∧
      line.quantity = portion.2) lines portions := by
  refine (mapM_eq_ok.mp h).imp fun line portion hportion => ?_
  unfold line_portions at hportion
  cases hid : line.menu_item_id with
  | none => simp [hid] at hportion
  | some id =>
    simp only [hid] at hportion
    rw [← pure_eq_ok.mp hportion]
    exact ⟨rfl, rfl⟩

/-- The tracked items among those of the keys. The others have no recipe to look at. -/
theorem tracked_items (db : Branch) {ids : List ℕ} (hids : ∀ id ∈ ids, (menu_item db id).isSome) :
    ((ids.filterMap (menu_item db)).filter (·.inventory_tracking)).map (·.menu_item_id) =
      ids.filter (is_tracked db) := by
  induction ids with
  | nil => rfl
  | cons id ids ih =>
    obtain ⟨item, hitem⟩ := Option.isSome_iff_exists.mp (hids id List.mem_cons_self)
    have hkey : item.menu_item_id = id := Keyed.lookup_key hitem
    have hrest := ih fun id' h => hids id' (List.mem_cons_of_mem id h)
    have htracked : is_tracked db id = item.inventory_tracking := by
      unfold is_tracked
      rw [hitem, Option.any_some]
    rw [List.filterMap_cons_some hitem, List.filter_cons, List.filter_cons, htracked]
    split_ifs
    · rw [List.map_cons, hkey, hrest]
    · exact hrest

/-- The recipes of tracked items have positive components. An empty recipe is refused before. -/
theorem tracked_recipes_ok {db : Branch} {items : List MenuItem}
    {recipes : List (ℕ × List (RecipeComponent × IngredientRecord))}
    (h : (items.mapM fun item => tracked_recipe db item.menu_item_id) = .ok recipes) :
    recipes = (items.map (·.menu_item_id)).map (fun id => (id, get_recipe_components db id)) ∧
      ∀ recipe ∈ recipes, ∀ component ∈ recipe.2, 0 < component.1.quantity := by
  have hall := mapM_eq_ok.mp h
  induction hall with
  | nil => exact ⟨rfl, by simp⟩
  | @cons item recipe items recipes hrecipe hrest ih =>
    obtain ⟨heq, hpos⟩ := ih (mapM_eq_ok.mpr hrest)
    obtain ⟨_, hpositive, hpure⟩ := bind_eq_ok.mp hrecipe
    obtain rfl := pure_eq_ok.mp hpure
    refine ⟨by rw [heq]; rfl, fun recipe hmem => ?_⟩
    rcases List.mem_cons.mp hmem with rfl | hmem
    · exact ensure_eq_ok.mp hpositive
    · exact hpos recipe hmem

/-- What the components of a recipe need of an ingredient of the restaurant. The components of the
recipe are summed over those with this ingredient, and the others contribute nothing. -/
theorem total_components {db : Branch} {ingredient_id : ℕ} {record : IngredientRecord}
    (hrecord : Keyed.lookup IngredientRecord.id ingredient_id db.ingredients = some record)
    (menu_item_id : ℕ) (portions : ℚ) :
    Aggregate.total ingredient_id ((get_recipe_components db menu_item_id).map
        fun (component, record) => (record.id, component.quantity * portions)) =
      recipe_quantity db ingredient_id menu_item_id * portions := by
  unfold get_recipe_components recipe_quantity
  induction db.recipe_components with
  | nil => simp
  | cons component components ih =>
    -- A component of the item counts if it is of the ingredient; its record is then this one.
    by_cases hmenu : component.menu_item_id = menu_item_id
    · rw [List.filter_cons_of_pos (by simpa using hmenu)]
      by_cases hingredient : component.ingredient_id = ingredient_id
      · have hkey : record.id = ingredient_id := Keyed.lookup_key hrecord
        rw [List.filterMap_cons_some (by rw [hingredient, hrecord]; rfl), List.map_cons,
          Aggregate.total_cons, if_pos hkey, ih,
          List.filter_cons_of_pos (by simp [hmenu, hingredient]), List.map_cons, List.sum_cons,
          add_mul]
      · rw [List.filter_cons_of_neg (by simp [hingredient])]
        cases hlookup : Keyed.lookup IngredientRecord.id component.ingredient_id db.ingredients with
        | none => rw [List.filterMap_cons_none (by rw [hlookup]; rfl), ih]
        | some other =>
          have hne : other.id ≠ ingredient_id := (Keyed.lookup_key hlookup).trans_ne hingredient
          rw [List.filterMap_cons_some (by rw [hlookup]; rfl), List.map_cons, Aggregate.total_cons,
            if_neg hne, zero_add, ih]
    · -- A component of another item is filtered out on both sides.
      rw [List.filter_cons_of_neg (by simpa using hmenu),
        List.filter_cons_of_neg (by simp [hmenu]), ih]

/-- A recipe has a component of an ingredient of the restaurant exactly if one is stored. -/
theorem mem_components {db : Branch} {ingredient_id : ℕ} {record : IngredientRecord}
    (hrecord : Keyed.lookup IngredientRecord.id ingredient_id db.ingredients = some record)
    (menu_item_id : ℕ) :
    (∃ component ∈ get_recipe_components db menu_item_id, component.2.id = ingredient_id) ↔
      ∃ component ∈ db.recipe_components,
        component.menu_item_id = menu_item_id ∧ component.ingredient_id = ingredient_id := by
  unfold get_recipe_components
  constructor
  · rintro ⟨pair, hpair, hid⟩
    obtain ⟨component, hcomponent, hlookup⟩ := List.mem_filterMap.mp hpair
    obtain ⟨hmem, hmenu⟩ := List.mem_filter.mp hcomponent
    obtain ⟨record', hrecord', rfl⟩ := Option.map_eq_some_iff.mp hlookup
    exact ⟨component, hmem, by simpa using hmenu, (Keyed.lookup_key hrecord').symm.trans hid⟩
  · rintro ⟨component, hmem, hmenu, hid⟩
    refine ⟨(component, record), List.mem_filterMap.mpr ⟨component, ?_, ?_⟩,
      Keyed.lookup_key hrecord⟩
    · exact List.mem_filter.mpr ⟨hmem, by simpa using hmenu⟩
    · rw [hid, hrecord]
      rfl

/-! ## Requirements -/

/-- The requirement of an ingredient, gathered item by item, is the sum over the lines. The service
first gathers the portions of each item and then the needs of each ingredient; this shows that the
order of gathering does not matter. -/
theorem total_stock_needs {db : Branch} {lines : List OrderLine} {portions : List (ℕ × ℕ)}
    (hportions : lines.mapM line_portions = .ok portions) {ingredient_id : ℕ}
    {record : IngredientRecord}
    (hrecord : Keyed.lookup IngredientRecord.id ingredient_id db.ingredients = some record) :
    Aggregate.total ingredient_id (stock_needs portions
        (((Aggregate.keys portions).filter (is_tracked db)).map
          fun id => (id, get_recipe_components db id))) =
      requirement db lines ingredient_id := by
  -- What one portion of a menu item needs, as an additive function of the portions.
  let need (id : ℕ) : ℕ →+ ℚ := (AddMonoidHom.mulLeft
    (if is_tracked db id then recipe_quantity db ingredient_id id else 0)).comp (Nat.castAddMonoidHom ℚ)
  have hneed : ∀ id n, need id n =
      (if is_tracked db id then recipe_quantity db ingredient_id id else 0) * (n : ℚ) :=
    fun _ _ => rfl
  -- The untracked items count nothing, so they can be added to the sum.
  have hkeys : ∀ ids : List ℕ, ((ids.filter (is_tracked db)).map fun id =>
      recipe_quantity db ingredient_id id * ((Aggregate.total id portions : ℕ) : ℚ)).sum =
        (ids.map fun id => need id (Aggregate.total id portions)).sum := by
    intro ids
    induction ids with
    | nil => rfl
    | cons id ids ih =>
      rw [List.map_cons, List.sum_cons, ← ih, hneed, List.filter_cons]
      split_ifs
      · rw [List.map_cons, List.sum_cons]
      · rw [zero_mul, zero_add]
  -- Line by line, the need is that of the requirement.
  have hlines : (portions.map fun portion => need portion.1 portion.2).sum =
      requirement db lines ingredient_id := by
    unfold requirement
    congr 1
    have hall := line_portions_ok hportions
    clear hportions hkeys
    induction hall with
    | nil => rfl
    | cons hline hrest ih =>
      rw [List.map_cons, List.map_cons, ih]
      congr 1
      rw [hneed, line_requirement, hline.1, hline.2]
      simp only
      split_ifs
      · rfl
      · rw [zero_mul]
  calc Aggregate.total ingredient_id _
      = (((Aggregate.keys portions).filter (is_tracked db)).map fun id =>
          recipe_quantity db ingredient_id id * ((Aggregate.total id portions : ℕ) : ℚ)).sum := by
        unfold stock_needs
        rw [Aggregate.total_flatMap, List.map_map]
        congr 1
        exact List.map_congr_left fun id _ => total_components hrecord id _
    _ = ((Aggregate.keys portions).map fun id => need id (Aggregate.total id portions)).sum :=
        hkeys _
    _ = (portions.map fun portion => need portion.1 portion.2).sum :=
        Aggregate.sum_total need portions
    _ = requirement db lines ingredient_id := hlines

/-- An ingredient of the restaurant is required exactly if a line uses it. It is what makes the
consumption touch exactly the ingredients that some line uses. -/
theorem mem_stock_needs {db : Branch} {lines : List OrderLine} {portions : List (ℕ × ℕ)}
    (hportions : lines.mapM line_portions = .ok portions) {ingredient_id : ℕ}
    {record : IngredientRecord}
    (hrecord : Keyed.lookup IngredientRecord.id ingredient_id db.ingredients = some record) :
    ingredient_id ∈ Aggregate.keys (stock_needs portions
        (((Aggregate.keys portions).filter (is_tracked db)).map
          fun id => (id, get_recipe_components db id))) ↔ uses db lines ingredient_id := by
  have hall := line_portions_ok hportions
  have hline : ∀ id, id ∈ Aggregate.keys portions ↔
      ∃ line ∈ lines, line.menu_item_id = some id := by
    intro id
    rw [Aggregate.mem_keys]
    constructor
    · rintro ⟨portion, hportion, rfl⟩
      obtain ⟨line, hmem, hrel⟩ := exists_of_mem_right hall hportion
      exact ⟨line, hmem, hrel.1⟩
    · rintro ⟨line, hmem, hid⟩
      obtain ⟨portion, hportion, hrel⟩ := exists_of_mem_left hall hmem
      exact ⟨portion, hportion, Option.some.inj (hrel.1.symm.trans hid)⟩
  rw [Aggregate.mem_keys]
  unfold stock_needs uses
  constructor
  · -- A need comes from a tracked item that some line orders.
    rintro ⟨need, hmem, hid⟩
    obtain ⟨recipe, hrecipe, hmem⟩ := List.mem_flatMap.mp hmem
    obtain ⟨id, hmemid, rfl⟩ := List.mem_map.mp hrecipe
    obtain ⟨hkey, htracked⟩ := List.mem_filter.mp hmemid
    obtain ⟨component, hcomponent, rfl⟩ := List.mem_map.mp hmem
    obtain ⟨line, hline', hitem⟩ := (hline id).mp hkey
    exact ⟨line, hline', id, hitem, htracked,
      (mem_components hrecord id).mp ⟨component, hcomponent, hid⟩⟩
  · -- And a line with a tracked item leads to a need for each of its components.
    rintro ⟨line, hmem, id, hitem, htracked, hcomponent⟩
    obtain ⟨component, hcomponent, hid⟩ := (mem_components hrecord id).mpr hcomponent
    have hrecipe : (id, get_recipe_components db id) ∈
        ((Aggregate.keys portions).filter (is_tracked db)).map
          fun id => (id, get_recipe_components db id) :=
      List.mem_map_of_mem (List.mem_filter.mpr ⟨(hline id).mpr ⟨line, hmem, hitem⟩, htracked⟩)
    exact ⟨_, List.mem_flatMap.mpr ⟨_, hrecipe, List.mem_map_of_mem hcomponent⟩, hid⟩

/-! ## Rows -/

/-- The required rows are the ingredients of their keys, with the totals. -/
theorem required_rows_ok {db : Branch} {needs : List (ℕ × ℚ)} {ids : List ℕ}
    {rows : List (IngredientRecord × ℚ)} (h : ids.mapM (required_row db needs) = .ok rows) :
    rows.map (·.1.id) = ids ∧ ∀ row ∈ rows,
      Keyed.lookup IngredientRecord.id row.1.id db.ingredients = some row.1 ∧
        row.2 = Aggregate.total row.1.id needs := by
  have hall := mapM_eq_ok.mp h
  clear h
  induction hall with
  | nil => simp
  | @cons id row ids rows hrow hrest ih =>
    obtain ⟨hids, hrows⟩ := ih
    unfold required_row at hrow
    cases hlookup : Keyed.lookup IngredientRecord.id id db.ingredients with
    | none => simp [hlookup] at hrow
    | some record =>
      simp only [hlookup] at hrow
      obtain rfl := pure_eq_ok.mp hrow
      obtain rfl : record.id = id := Keyed.lookup_key hlookup
      refine ⟨by rw [List.map_cons, hids], fun row hmem => ?_⟩
      rcases List.mem_cons.mp hmem with rfl | hmem
      · exact ⟨hlookup, rfl⟩
      · exact hrows row hmem

/-- The required rows with their balances. A row without a balance is refused. -/
theorem balance_rows_ok {rows : List (IngredientRecord × ℚ)}
    {result : List (IngredientRecord × InventoryBalance × ℚ)}
    (h : rows.mapM balance_row = .ok result) :
    List.Forall₂ (fun row row' => row'.1 = row.1 ∧ row.1.balance = some row'.2.1 ∧ row'.2.2 = row.2)
      rows result := by
  refine (mapM_eq_ok.mp h).imp fun row row' hrow => ?_
  unfold balance_row at hrow
  cases hbalance : row.1.balance with
  | none => simp [hbalance] at hrow
  | some balance =>
    simp only [hbalance] at hrow
    rw [← pure_eq_ok.mp hrow]
    exact ⟨rfl, rfl, rfl⟩

/-- The balances are added to the rows in order. -/
theorem map_fst_of_balance_rows {rows : List (IngredientRecord × ℚ)}
    {result : List (IngredientRecord × InventoryBalance × ℚ)}
    (h : List.Forall₂ (fun row row' => row'.1 = row.1 ∧ row.1.balance = some row'.2.1 ∧
      row'.2.2 = row.2) rows result) : result.map (·.1.id) = rows.map (·.1.id) := by
  induction h with
  | nil => rfl
  | cons hrow hrest ih => rw [List.map_cons, List.map_cons, ih, hrow.1]

/-- An ingredient that is not short covers a positive requirement. -/
theorem le_of_shortage_none {record : IngredientRecord} {balance : InventoryBalance} {required : ℚ}
    (hbalance : record.balance = some balance) (hnonneg : 0 ≤ balance.quantity)
    (h : shortage record required = none) : required ≤ balance.quantity := by
  unfold shortage at h
  simp only [hbalance] at h
  split_ifs at h with hactive hlt hlt
  · exact not_lt.mp hlt
  · exact (not_lt.mp hlt).trans hnonneg

/-- What `_stock_rows` returns: one row for each ingredient that a line uses, with its balance and
what the lines need of it, which the balance covers. -/
structure StockRows (db : Branch) (lines : List OrderLine)
    (rows : List (IngredientRecord × InventoryBalance × ℚ)) : Prop where
  /-- The ingredients are different. -/
  nodup : (rows.map (·.1.id)).Nodup
  /-- A row is an ingredient of the restaurant. -/
  lookup : ∀ row ∈ rows, Keyed.lookup IngredientRecord.id row.1.id db.ingredients = some row.1
  /-- It has a balance. -/
  balance : ∀ row ∈ rows, row.1.balance = some row.2.1
  /-- The required quantity is that of the lines. -/
  required : ∀ row ∈ rows, row.2.2 = requirement db lines row.1.id
  /-- It is not negative, and covered. -/
  covered : ∀ row ∈ rows, 0 ≤ row.2.2 ∧ row.2.2 ≤ row.2.1.quantity
  /-- The ingredients are those that a line uses. -/
  uses : ∀ ingredient_id record,
    Keyed.lookup IngredientRecord.id ingredient_id db.ingredients = some record →
      ((∃ row ∈ rows, row.1.id = ingredient_id) ↔ Orders.uses db lines ingredient_id)

/-- A gathered need is not negative. Every part of it is a quantity times a positive number of
portions. -/
theorem stock_needs_nonneg {portions : List (ℕ × ℕ)}
    {recipes : List (ℕ × List (RecipeComponent × IngredientRecord))}
    (hpos : ∀ recipe ∈ recipes, ∀ component ∈ recipe.2, 0 < component.1.quantity)
    (ingredient_id : ℕ) : 0 ≤ Aggregate.total ingredient_id (stock_needs portions recipes) := by
  unfold Aggregate.total
  refine List.sum_nonneg fun amount hamount => ?_
  obtain ⟨need, hneed, rfl⟩ := List.mem_map.mp hamount
  obtain ⟨recipe, hrecipe, hmem⟩ := List.mem_flatMap.mp (List.mem_filter.mp hneed).1
  obtain ⟨component, hcomponent, rfl⟩ := List.mem_map.mp hmem
  exact mul_nonneg (le_of_lt (hpos recipe hrecipe component hcomponent)) (Nat.cast_nonneg _)

/-- `_stock_rows` returns what its contract says. The checks of the service, one after the other,
are turned into the fields of the contract. -/
theorem stock_rows_ok {db : Branch} {lines : List OrderLine}
    {rows : List (IngredientRecord × InventoryBalance × ℚ)}
    (hrange : ∀ record ∈ db.ingredients, ∀ balance ∈ record.balance, 0 ≤ balance.quantity)
    (h : stock_rows db lines = .ok rows) : StockRows db lines rows := by
  obtain ⟨portions, hportions, h⟩ := bind_eq_ok.mp h
  obtain ⟨_, hmissing, h⟩ := bind_eq_ok.mp h
  obtain ⟨_, -, h⟩ := bind_eq_ok.mp h
  obtain ⟨recipes, hrecipes, h⟩ := bind_eq_ok.mp h
  obtain ⟨_, -, h⟩ := bind_eq_ok.mp h
  obtain ⟨required, hrequired, h⟩ := bind_eq_ok.mp h
  obtain ⟨_, hshortages, h⟩ := bind_eq_ok.mp h
  -- No line names an item that is not there.
  have hitems : ∀ id ∈ Aggregate.keys portions, (menu_item db id).isSome := by
    intro id hid
    have hnone := List.filter_eq_nil_iff.mp (ensure_eq_ok.mp hmissing) id hid
    rw [Bool.not_eq_true, Option.isNone_eq_false_iff] at hnone
    exact hnone
  obtain ⟨hrecipes, hpos⟩ := tracked_recipes_ok hrecipes
  rw [tracked_items db hitems] at hrecipes
  obtain ⟨hids, hrows⟩ := required_rows_ok hrequired
  have hall := balance_rows_ok h
  -- The rows come in the order of the requirement, one for each ingredient.
  have hids' : rows.map (·.1.id) = Aggregate.keys (stock_needs portions recipes) := by
    rw [← hids]
    exact map_fst_of_balance_rows hall
  -- Every row is a required row with its balance.
  have hrow : ∀ row ∈ rows, Keyed.lookup IngredientRecord.id row.1.id db.ingredients = some row.1 ∧
      row.1.balance = some row.2.1 ∧
      row.2.2 = Aggregate.total row.1.id (stock_needs portions recipes) ∧
      shortage row.1 row.2.2 = none := by
    intro row hmem
    obtain ⟨row₀, hmem₀, hrecord, hbalance, hamount⟩ := exists_of_mem_right hall hmem
    obtain ⟨hlookup, htotal⟩ := hrows row₀ hmem₀
    have hnone := List.filterMap_eq_nil_iff.mp (ensure_eq_ok.mp hshortages) row₀ hmem₀
    rw [hrecord, hamount]
    exact ⟨hlookup, hbalance, htotal, hnone⟩
  subst hrecipes
  constructor
  · rw [hids']
    exact Aggregate.nodup_keys _
  · exact fun row hmem => (hrow row hmem).1
  · exact fun row hmem => (hrow row hmem).2.1
  · -- The amount of a row is the requirement of its ingredient.
    intro row hmem
    obtain ⟨hlookup, -, htotal, -⟩ := hrow row hmem
    rw [htotal]
    exact total_stock_needs hportions hlookup
  · -- It is not negative, and the balance covers it since no shortage was found.
    intro row hmem
    obtain ⟨hlookup, hbalance, htotal, hnone⟩ := hrow row hmem
    have hnonneg := hrange row.1 (Keyed.lookup_mem hlookup) row.2.1 hbalance
    refine ⟨?_, le_of_shortage_none hbalance hnonneg hnone⟩
    rw [htotal]
    exact stock_needs_nonneg hpos _
  · -- The rows are those of the ingredients that a line uses.
    intro ingredient_id record hrecord
    rw [← mem_stock_needs hportions hrecord, ← hids', List.mem_map]

/-! ## Consumption -/

/-- The movement that acceptance posts to an ingredient. -/
def consumption (context : AccessContext) (draw : Draw) (order_id : ℕ)
    (row : IngredientRecord × InventoryBalance × ℚ) : InventoryMovement :=
  { kind := .consumption, quantity_delta := -row.2.2, balance_after := row.2.1.quantity - row.2.2,
    version_after := row.2.1.version + 1, actor_user_id := some context.user_id,
    order_id := some order_id, reason := s!"Order {order_id} accepted", idempotency_key := none,
    request_fingerprint := none, occurred_at := draw.now row.1.id }

/-- What acceptance writes: one consumption for each ingredient that a line uses. -/
structure Consumes (db : Branch) (order : Order) (ws : List (ℕ × Purpose)) :
    Prop where
  /-- Every write posts a consumption of the order, by what its lines need. -/
  posts : ∀ id purpose, (id, purpose) ∈ ws → ∃ movement, purpose = .stock (some movement) ∧
    movement.kind = .consumption ∧ movement.order_id = some order.order_id ∧
      movement.idempotency_key = none ∧
      movement.quantity_delta = -requirement db (order.items.map (·.toOrderLine)) id
  /-- The written ingredients are those of the restaurant that a line uses. -/
  uses : ∀ id, id ∈ ws.map Prod.fst ↔
    (∃ record, Keyed.lookup IngredientRecord.id id db.ingredients = some record) ∧
      Orders.uses db (order.items.map (·.toOrderLine)) id

/-- One ingredient's part of the consumption is one write. It lowers the balance by the need, and
posts the movement of the order. -/
theorem consume_ok {context : AccessContext} {draw : Draw} {order_id : ℕ} {db db' : Branch}
    {row : IngredientRecord × InventoryBalance × ℚ}
    (horganization : context.organization_id = db.organization_id)
    (hlookup : Keyed.lookup IngredientRecord.id row.1.id db.ingredients = some row.1)
    (hbalance : row.1.balance = some row.2.1) (hcovered : 0 ≤ row.2.2 ∧ row.2.2 ≤ row.2.1.quantity)
    (hmax : row.2.1.quantity ≤ MAX_QUANTITY)
    (h : consume context draw order_id db row = .ok db') :
    Write db row.1.id (.stock (some (consumption context draw order_id row))) db' := by
  obtain ⟨record, balance, required⟩ := row
  simp only [consume, horganization] at h
  refine write_of_recorded h hlookup hbalance rfl rfl rfl
    (.posted (consumption context draw order_id (record, balance, required)) ?_ rfl ?_) (Or.inl rfl)
  · exact sub_eq_add_neg _ _
  · obtain ⟨hnonneg, hle⟩ := hcovered
    simp only at hnonneg hle hmax
    constructor
    · show 0 ≤ balance.quantity - required
      linarith
    · show balance.quantity - required ≤ MAX_QUANTITY
      linarith

/-- The write to the ingredient of a row. -/
def consumption_write (context : AccessContext) (draw : Draw) (order_id : ℕ)
    (row : IngredientRecord × InventoryBalance × ℚ) : ℕ × Purpose :=
  (row.1.id, .stock (some (consumption context draw order_id row)))

/-- The written ingredients are those of the rows. -/
theorem map_fst_consumption_write (context : AccessContext) (draw : Draw) (order_id : ℕ)
    (rows : List (IngredientRecord × InventoryBalance × ℚ)) :
    (rows.map (consumption_write context draw order_id)).map Prod.fst = rows.map (·.1.id) := by
  rw [List.map_map]
  rfl

/-- No ingredient comes twice, so the rows of the next one are still as they were read. -/
theorem StockRows.next {context : AccessContext} {draw : Draw} {order_id : ℕ} {db db₁ : Branch}
    {lines : List OrderLine} {rows done : List (IngredientRecord × InventoryBalance × ℚ)}
    {row : IngredientRecord × InventoryBalance × ℚ} (h : StockRows db lines rows) (hmem : row ∈ rows)
    (hpart : done ++ [row] <+: rows)
    (hwrites : Writes db (done.map (consumption_write context draw order_id)) db₁) :
    row.1.id ∉ (done.map (consumption_write context draw order_id)).map Prod.fst ∧
      Keyed.lookup IngredientRecord.id row.1.id db₁.ingredients = some row.1 := by
  have hnew : row.1.id ∉ (done.map (consumption_write context draw order_id)).map Prod.fst := by
    have hnodup := h.nodup.sublist (hpart.sublist.map _)
    rw [List.map_append, List.nodup_append] at hnodup
    rw [map_fst_consumption_write]
    exact fun hmem => hnodup.2.2 _ hmem _ (by simp) rfl
  exact ⟨hnew, (hwrites.lookup_of_not_mem hnew).trans (h.lookup row hmem)⟩

/-- Consuming the rows one by one writes one ingredient after the other. -/
theorem StockRows.consume {context : AccessContext} {draw : Draw} {order_id : ℕ} {db db₁ db₂ : Branch}
    {lines : List OrderLine} {rows done : List (IngredientRecord × InventoryBalance × ℚ)}
    {row : IngredientRecord × InventoryBalance × ℚ} (h : StockRows db lines rows)
    (horganization : context.organization_id = db.organization_id)
    (hrange : ∀ record ∈ db.ingredients, ∀ balance ∈ record.balance,
      0 ≤ balance.quantity ∧ balance.quantity ≤ MAX_QUANTITY) (hmem : row ∈ rows)
    (hpart : done ++ [row] <+: rows)
    (hwrites : Writes db (done.map (consumption_write context draw order_id)) db₁)
    (hconsume : Orders.consume context draw order_id db₁ row = .ok db₂) :
    Writes db ((done ++ [row]).map (consumption_write context draw order_id)) db₂ := by
  obtain ⟨hnew, hlookup⟩ := h.next hmem hpart hwrites
  have hmax := (hrange row.1 (Keyed.lookup_mem (h.lookup row hmem)) _ (h.balance row hmem)).2
  have horganization₁ : context.organization_id = db₁.organization_id := by
    rw [horganization, hwrites.frame.organization_id]
  rw [List.map_append]
  exact .snoc hwrites hnew (consume_ok horganization₁ hlookup (h.balance row hmem)
    (h.covered row hmem) hmax hconsume)

/-- Acceptance consumes what the lines of the order need. Each row of the requirement becomes one
movement, and they are written one after the other. -/
theorem consume_order_stock_ok {context : AccessContext} {draw : Draw} {order : Order}
    {db db' : Branch} (horganization : context.organization_id = db.organization_id)
    (hrange : ∀ record ∈ db.ingredients, ∀ balance ∈ record.balance,
      0 ≤ balance.quantity ∧ balance.quantity ≤ MAX_QUANTITY)
    (h : consume_order_stock context draw order db = .ok db') :
    ∃ ws, Writes db ws db' ∧ Consumes db order ws := by
  obtain ⟨rows, hrows, h⟩ := bind_eq_ok.mp h
  have hrows := stock_rows_ok (fun record hr balance hb => (hrange record hr balance hb).1) hrows
  -- The writes: by the fold over the rows, each of which finds its ingredient as it was loaded.
  refine ⟨rows.map (consumption_write context draw order.order_id), ?_, ?_, ?_⟩
  · exact foldlM_invariant
      (fun done db₁ => Writes db (done.map (consumption_write context draw order.order_id)) db₁) h .nil
      fun done row db₁ db₂ hmem hpart hwrites hconsume =>
        hrows.consume horganization hrange hmem hpart hwrites hconsume
  · intro id purpose hmem
    obtain ⟨row, hrow, heq⟩ := List.mem_map.mp hmem
    obtain ⟨rfl, rfl⟩ := Prod.mk.inj heq
    refine ⟨_, rfl, rfl, rfl, rfl, ?_⟩
    rw [← hrows.required row hrow]
    rfl
  · -- The ingredients: exactly those that a line uses.
    intro id
    rw [map_fst_consumption_write, List.mem_map]
    constructor
    · rintro ⟨row, hrow, rfl⟩
      have hlookup := hrows.lookup row hrow
      exact ⟨⟨row.1, hlookup⟩, (hrows.uses _ _ hlookup).mp ⟨row, hrow, rfl⟩⟩
    · rintro ⟨⟨record, hlookup⟩, huses⟩
      exact (hrows.uses id record hlookup).mpr huses

end Orders

end RestaurantOS
