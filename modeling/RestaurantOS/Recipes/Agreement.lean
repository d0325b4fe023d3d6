import RestaurantOS.Recipes.Availability

/-!
# Availability agrees with acceptance

`_stock_rows` returns exactly if every line names an available item, every tracked item has a recipe,
and no ingredient that a line uses is short of what the lines need of it (`stock_rows_iff`). For the
portions of one item this says that each component allows them (`covers_iff`), which is what
`for_menu_items` reports (`le_available_portions`); and several items need of an ingredient at least
what each of them does. -/

namespace RestaurantOS

open Fallible Catalog Events Inventory Orders Recipes Tenancy

namespace Orders

/-- What `_stock_rows` asks of the lines of an order. -/
structure Covered (db : Branch) (lines : List OrderLine) : Prop where
  /-- Every line is of an available item. -/
  items : ∀ line ∈ lines, ∃ id item, line.menu_item_id = some id ∧ menu_item db id = some item ∧
    item.is_available = true
  /-- A tracked item has a recipe, whose components need something. -/
  recipes : ∀ line ∈ lines, ∀ id ∈ line.menu_item_id, is_tracked db id = true →
    get_recipe_components db id ≠ [] ∧ ∀ component ∈ get_recipe_components db id, 0 < component.1.quantity
  /-- No used ingredient is short. -/
  stock : ∀ ingredient_id record,
    Keyed.lookup IngredientRecord.id ingredient_id db.ingredients = some record →
      uses db lines ingredient_id →
        shortage record (requirement db lines ingredient_id) = none ∧ record.balance.isSome = true

/-- An ingredient of a recipe is one of the restaurant. -/
theorem lookup_of_mem_components {db : Branch} {id : ℕ} {pair : RecipeComponent × IngredientRecord}
    (h : pair ∈ get_recipe_components db id) :
    Keyed.lookup IngredientRecord.id pair.1.ingredient_id db.ingredients = some pair.2 ∧
      pair.1 ∈ db.recipe_components ∧ pair.1.menu_item_id = id := by
  obtain ⟨component, hcomponent, hlookup⟩ := List.mem_filterMap.mp h
  obtain ⟨record, hrecord, rfl⟩ := Option.map_eq_some_iff.mp hlookup
  obtain ⟨hmem, hmenu⟩ := List.mem_filter.mp hcomponent
  exact ⟨hrecord, hmem, of_decide_eq_true hmenu⟩

/-- The keys of the gathered portions are the items of the lines. -/
theorem mem_keys_portions {lines : List OrderLine} {portions : List (ℕ × ℕ)}
    (hportions : lines.mapM line_portions = .ok portions) {id : ℕ} :
    id ∈ Aggregate.keys portions ↔ ∃ line ∈ lines, line.menu_item_id = some id := by
  have hall := line_portions_ok hportions
  rw [Aggregate.mem_keys]
  constructor
  · rintro ⟨portion, hportion, rfl⟩
    obtain ⟨line, hmem, hrel⟩ := exists_of_mem_right hall hportion
    exact ⟨line, hmem, hrel.1⟩
  · rintro ⟨line, hmem, hid⟩
    obtain ⟨portion, hportion, hrel⟩ := exists_of_mem_left hall hmem
    exact ⟨portion, hportion, Option.some.inj (hrel.1.symm.trans hid)⟩

/-- `_stock_rows` returns only where the lines are covered. Each of its checks gives one part of
what being covered means. -/
theorem covered_of_stock_rows {db : Branch} {lines : List OrderLine}
    {rows : List (IngredientRecord × InventoryBalance × ℚ)} (h : stock_rows db lines = .ok rows) :
    Covered db lines := by
  obtain ⟨portions, hportions, h⟩ := bind_eq_ok.mp h
  obtain ⟨_, hmissing, h⟩ := bind_eq_ok.mp h
  obtain ⟨_, hunavailable, h⟩ := bind_eq_ok.mp h
  obtain ⟨recipes, hrecipes, h⟩ := bind_eq_ok.mp h
  obtain ⟨_, hempty, h⟩ := bind_eq_ok.mp h
  obtain ⟨required, hrequired, h⟩ := bind_eq_ok.mp h
  obtain ⟨_, hshortages, h⟩ := bind_eq_ok.mp h
  have hkeys : ∀ id, id ∈ Aggregate.keys portions ↔ ∃ line ∈ lines, line.menu_item_id = some id :=
    fun _ => mem_keys_portions hportions
  -- The first check leaves no item that is missing.
  have hitems : ∀ id ∈ Aggregate.keys portions, (menu_item db id).isSome := by
    intro id hid
    have hnone := List.filter_eq_nil_iff.mp (ensure_eq_ok.mp hmissing) id hid
    rw [Bool.not_eq_true, Option.isNone_eq_false_iff] at hnone
    exact hnone
  obtain ⟨hrecipes, hpositive⟩ := tracked_recipes_ok hrecipes
  rw [tracked_items db hitems] at hrecipes
  -- The recipe of each tracked item is among those read.
  have hrecipe : ∀ id ∈ Aggregate.keys portions, is_tracked db id = true →
      (id, get_recipe_components db id) ∈ recipes := by
    intro id hid htracked
    rw [hrecipes]
    exact List.mem_map_of_mem (List.mem_filter.mpr ⟨hid, htracked⟩)
  obtain ⟨hids, hrows⟩ := required_rows_ok hrequired
  have hall := balance_rows_ok h
  refine ⟨fun line hline => ?_, fun line hline id hid htracked => ?_,
    fun ingredient_id record hrecord huses => ?_⟩
  · -- The item of a line is stored and available.
    obtain ⟨portion, -, hid, -⟩ := exists_of_mem_left (line_portions_ok hportions) hline
    have hkey := (hkeys portion.1).mpr ⟨line, hline, hid⟩
    obtain ⟨item, hitem⟩ := Option.isSome_iff_exists.mp (hitems _ hkey)
    refine ⟨portion.1, item, hid, hitem, ?_⟩
    -- An unavailable item would be among those that the second check names.
    by_contra hno
    have hmem : item.menu_item_id ∈ (((Aggregate.keys portions).filterMap (menu_item db)).filter
        fun item => !item.is_available).map (·.menu_item_id) := by
      refine List.mem_map_of_mem (List.mem_filter.mpr ⟨?_, by simpa using hno⟩)
      exact List.mem_filterMap.mpr ⟨_, hkey, hitem⟩
    rw [ensure_eq_ok.mp hunavailable] at hmem
    exact List.not_mem_nil hmem
  · -- A recipe without components would be among those that the third check names.
    have hmem := hrecipe id ((hkeys id).mpr ⟨line, hline, hid⟩) htracked
    refine ⟨fun hnil => ?_, hpositive _ hmem⟩
    have hin : id ∈ (recipes.filter fun recipe => recipe.2.isEmpty).map (·.1) :=
      List.mem_map.mpr ⟨_, List.mem_filter.mpr ⟨hmem, by simp [hnil]⟩, rfl⟩
    rw [ensure_eq_ok.mp hempty] at hin
    exact List.not_mem_nil hin
  · -- The ingredient is among the required ones, and the last check has found no shortage of it.
    subst hrecipes
    have hkey := (mem_stock_needs hportions hrecord).mpr huses
    rw [← hids] at hkey
    obtain ⟨row, hrow, hid⟩ := List.mem_map.mp hkey
    obtain ⟨hlookup, htotal⟩ := hrows row hrow
    rw [hid] at hlookup htotal
    have hsame : row.1 = record := Option.some.inj (hlookup.symm.trans hrecord)
    have hnone := List.filterMap_eq_nil_iff.mp (ensure_eq_ok.mp hshortages) row hrow
    rw [hsame, htotal, total_stock_needs hportions hrecord] at hnone
    obtain ⟨row', -, -, hbalance, -⟩ := exists_of_mem_left hall hrow
    rw [hsame] at hbalance
    exact ⟨hnone, by rw [hbalance]; rfl⟩

/-- Every line that is covered names its item, so its portions are known. The items are there, and
available. -/
theorem Covered.line_portions {db : Branch} {lines : List OrderLine} (h : Covered db lines) :
    ∃ portions, lines.mapM line_portions = .ok portions ∧
      ∀ id ∈ Aggregate.keys portions, ∃ item, menu_item db id = some item ∧
        item.is_available = true := by
  obtain ⟨portions, hportions⟩ : ∃ portions, lines.mapM Orders.line_portions = .ok portions := by
    refine exists_mapM fun line hline => ?_
    obtain ⟨id, item, hid, -⟩ := h.items line hline
    exact ⟨(id, line.quantity), by unfold Orders.line_portions; rw [hid]; rfl⟩
  refine ⟨portions, hportions, fun id hid => ?_⟩
  obtain ⟨line, hline, hid⟩ := (mem_keys_portions hportions).mp hid
  obtain ⟨id', item, hid', hitem⟩ := h.items line hline
  obtain rfl := Option.some.inj (hid.symm.trans hid')
  exact ⟨item, hitem⟩

/-- What is needed is an ingredient of the restaurant. The components of a recipe are joined with
their ingredients. -/
theorem lookup_of_mem_stock_needs {db : Branch} {portions : List (ℕ × ℕ)} {ids : List ℕ}
    {ingredient_id : ℕ}
    (h : ingredient_id ∈ Aggregate.keys
      (stock_needs portions (ids.map fun id => (id, get_recipe_components db id)))) :
    ∃ record, Keyed.lookup IngredientRecord.id ingredient_id db.ingredients = some record := by
  obtain ⟨need, hneed, rfl⟩ := Aggregate.mem_keys.mp h
  obtain ⟨recipe, hrecipe, hmem⟩ := List.mem_flatMap.mp hneed
  obtain ⟨id, -, rfl⟩ := List.mem_map.mp hrecipe
  obtain ⟨pair, hpair, rfl⟩ := List.mem_map.mp hmem
  obtain ⟨hlookup, -⟩ := lookup_of_mem_components hpair
  refine ⟨pair.2, ?_⟩
  show Keyed.lookup IngredientRecord.id pair.2.id db.ingredients = some pair.2
  rwa [Keyed.lookup_key hlookup]

/-- Where the lines are covered, `_stock_rows` returns. The checks are passed one after the other,
in the order of the function. -/
theorem stock_rows_of_covered {db : Branch} {lines : List OrderLine} (h : Covered db lines) :
    ∃ rows, stock_rows db lines = .ok rows := by
  obtain ⟨portions, hportions, hkeys⟩ := h.line_portions
  have hsome : ∀ id ∈ Aggregate.keys portions, (menu_item db id).isSome := by
    intro id hid
    obtain ⟨item, hitem, -⟩ := hkeys id hid
    rw [hitem]
    rfl
  -- A tracked item of a line has a recipe, and its quantities are positive.
  have htracked : ∀ id ∈ (Aggregate.keys portions).filter (is_tracked db),
      get_recipe_components db id ≠ [] ∧
        ∀ component ∈ get_recipe_components db id, 0 < component.1.quantity := by
    intro id hid
    obtain ⟨hkey, hyes⟩ := List.mem_filter.mp hid
    obtain ⟨line, hline, hid⟩ := (mem_keys_portions hportions).mp hkey
    exact h.recipes line hline id hid hyes
  set items := ((Aggregate.keys portions).filterMap (menu_item db)).filter (·.inventory_tracking)
    with hitems
  have hids : items.map (·.menu_item_id) = (Aggregate.keys portions).filter (is_tracked db) :=
    tracked_items db hsome
  -- The recipes can be read, as no quantity is refused.
  obtain ⟨recipes, hrecipes⟩ :
      ∃ recipes, (items.mapM fun item => tracked_recipe db item.menu_item_id) = .ok recipes := by
    refine exists_mapM fun item hitem => ?_
    have hmem : item.menu_item_id ∈ (Aggregate.keys portions).filter (is_tracked db) :=
      hids ▸ List.mem_map_of_mem hitem
    refine ⟨(item.menu_item_id, get_recipe_components db item.menu_item_id), ?_⟩
    unfold tracked_recipe
    exact ensure_bind (htracked _ hmem).2 _
  have hform := (tracked_recipes_ok hrecipes).1
  rw [hids] at hform
  set needs := stock_needs portions recipes with hneeds
  -- The row of every required ingredient is there.
  obtain ⟨required, hrequired⟩ :
      ∃ required, (Aggregate.keys needs).mapM (required_row db needs) = .ok required := by
    refine exists_mapM fun id hid => ?_
    rw [hneeds, hform] at hid
    obtain ⟨record, hrecord⟩ := lookup_of_mem_stock_needs hid
    exact ⟨(record, Aggregate.total id needs), by unfold required_row; rw [hrecord]; rfl⟩
  obtain ⟨hrow_ids, hrows⟩ := required_rows_ok hrequired
  -- No row is short, and each has a balance.
  have hstock : ∀ row ∈ required, shortage row.1 row.2 = none ∧ row.1.balance.isSome = true := by
    intro row hrow
    obtain ⟨hlookup, htotal⟩ := hrows row hrow
    have hkey : row.1.id ∈ Aggregate.keys needs := hrow_ids ▸ List.mem_map_of_mem hrow
    rw [hneeds, hform] at hkey htotal
    rw [htotal, total_stock_needs hportions hlookup]
    exact h.stock _ _ hlookup ((mem_stock_needs hportions hlookup).mp hkey)
  -- The balances can be read.
  obtain ⟨rows, hrows⟩ : ∃ rows, required.mapM balance_row = .ok rows := by
    refine exists_mapM fun row hrow => ?_
    obtain ⟨balance, hbalance⟩ := Option.isSome_iff_exists.mp (hstock row hrow).2
    exact ⟨(row.1, balance, row.2), by unfold balance_row; rw [hbalance]; rfl⟩
  -- With these facts no check has anything to name.
  have hmissing : ((Aggregate.keys portions).filter fun id => (menu_item db id).isNone) = [] := by
    refine List.filter_eq_nil_iff.mpr fun id hid => ?_
    rw [Bool.not_eq_true, Option.isNone_eq_false_iff]
    exact hsome id hid
  have hunavailable : ((((Aggregate.keys portions).filterMap (menu_item db)).filter
      fun item => !item.is_available).map (·.menu_item_id)) = [] := by
    refine List.map_eq_nil_iff.mpr (List.filter_eq_nil_iff.mpr fun item hitem => ?_)
    obtain ⟨id, hid, hlookup⟩ := List.mem_filterMap.mp hitem
    obtain ⟨item', hitem', havailable⟩ := hkeys id hid
    obtain rfl := Option.some.inj (hitem'.symm.trans hlookup)
    simp [havailable]
  have hempty : (recipes.filter fun recipe => recipe.2.isEmpty).map (·.1) = [] := by
    refine List.map_eq_nil_iff.mpr (List.filter_eq_nil_iff.mpr fun recipe hrecipe => ?_)
    rw [hform] at hrecipe
    obtain ⟨id, hid, rfl⟩ := List.mem_map.mp hrecipe
    simpa using (htracked id hid).1
  have hshortages : (required.filterMap fun row => shortage row.1 row.2) = [] :=
    List.filterMap_eq_nil_iff.mpr fun row hrow => (hstock row hrow).1
  refine ⟨rows, ?_⟩
  unfold stock_rows
  rw [ok_bind hportions, ensure_bind hmissing, ensure_bind hunavailable, ok_bind hrecipes,
    ensure_bind hempty, ok_bind hrequired, ensure_bind hshortages, hrows]

/-- `_stock_rows` returns exactly where the lines are covered. -/
theorem stock_rows_iff {db : Branch} {lines : List OrderLine} :
    (∃ rows, stock_rows db lines = .ok rows) ↔ Covered db lines :=
  ⟨fun ⟨_, h⟩ => covered_of_stock_rows h, stock_rows_of_covered⟩

/-- What the lines need of an ingredient is not negative, and no less than what some of them need. -/
theorem requirement_filter_le {db : Branch} (hpositive : ∀ component ∈ db.recipe_components,
    0 < component.quantity) (lines : List OrderLine) (p : OrderLine → Bool) (ingredient_id : ℕ) :
    requirement db (lines.filter p) ingredient_id ≤ requirement db lines ingredient_id := by
  -- The requirement of one line is a product of numbers that are not negative.
  have hline : ∀ line, 0 ≤ line_requirement db ingredient_id line := by
    intro line
    unfold line_requirement recipe_quantity
    split
    · split_ifs
      · refine mul_nonneg (List.sum_nonneg fun amount hamount => ?_) (Nat.cast_nonneg _)
        obtain ⟨component, hcomponent, rfl⟩ := List.mem_map.mp hamount
        exact (hpositive component (List.mem_filter.mp hcomponent).1).le
      · exact le_rfl
    · exact le_rfl
  unfold requirement
  -- Leaving out a line only lowers the sum.
  induction lines with
  | nil => exact le_rfl
  | cons line lines ih =>
    have hhead := hline line
    rw [List.filter_cons, List.map_cons, List.sum_cons]
    split_ifs
    · rw [List.map_cons, List.sum_cons]
      linarith
    · linarith

/-- The portions of the lines. They are counted over all lines of an order. -/
def total_portions (lines : List OrderLine) : ℕ := (lines.map (·.quantity)).sum

/-- Lines of one tracked item need of an ingredient what its recipe says, once for each portion. -/
theorem requirement_of_item {db : Branch} {id : ℕ} (htracked : is_tracked db id = true)
    {lines : List OrderLine} (hlines : ∀ line ∈ lines, line.menu_item_id = some id)
    (ingredient_id : ℕ) : requirement db lines ingredient_id =
      recipe_quantity db ingredient_id id * (total_portions lines : ℕ) := by
  unfold requirement total_portions
  induction lines with
  | nil => simp
  | cons line lines ih =>
    have hhead : line_requirement db ingredient_id line =
        recipe_quantity db ingredient_id id * (line.quantity : ℕ) := by
      unfold line_requirement
      rw [hlines line List.mem_cons_self]
      simp only [htracked, if_true]
    have hrest := ih fun line' h => hlines line' (List.mem_cons_of_mem line h)
    rw [List.map_cons, List.sum_cons, hrest, hhead, List.map_cons, List.sum_cons, Nat.cast_add,
      mul_add]

/-- A recipe needs of an ingredient what its one component says. -/
theorem recipe_quantity_eq {db : Branch} (hrecipes : db.Recipes) {component : RecipeComponent}
    (hmem : component ∈ db.recipe_components) :
    recipe_quantity db component.ingredient_id component.menu_item_id = component.quantity := by
  have hfilter : (db.recipe_components.filter fun other =>
      other.menu_item_id = component.menu_item_id ∧ other.ingredient_id = component.ingredient_id) =
      [component] := by
    rw [← Keyed.filter_key hrecipes.unique hmem]
    exact List.filter_congr fun other _ => by simp only [Prod.mk.injEq]
  unfold recipe_quantity
  rw [hfilter, List.map_singleton, List.sum_singleton]

/-- A positive requirement is met exactly by the balance of an active ingredient. -/
theorem shortage_eq_none_iff {record : IngredientRecord} {required : ℚ} (hpositive : 0 < required) :
    (shortage record required = none ∧ record.balance.isSome = true) ↔
      ∃ balance, record.balance = some balance ∧ record.item.is_active = true ∧
        required ≤ balance.quantity := by
  unfold shortage
  cases hbalance : record.balance with
  | none => simp
  | some balance =>
    cases hactive : record.item.is_active with
    | false => simp [hpositive]
    | true => simp

/-- What covers a requirement covers a smaller one. The rows are the same, and only the number
falls. -/
theorem shortage_eq_none_of_le {record : IngredientRecord} {required required' : ℚ}
    (h : shortage record required = none) (hle : required' ≤ required) :
    shortage record required' = none := by
  unfold shortage at h ⊢
  cases hbalance : record.balance with
  | none =>
    simp only [hbalance, ite_eq_right_iff, reduceCtorEq, imp_false, not_lt] at h ⊢
    exact hle.trans h
  | some balance =>
    simp only [hbalance, ite_eq_right_iff, reduceCtorEq, imp_false, not_lt] at h ⊢
    exact hle.trans h

end Orders

namespace Recipes

/-! ## Portions -/

/-- The whole quotient is at least a number exactly if the balance covers as many portions. -/
theorem le_whole_portions {balance required : ℚ} (hbalance : 0 ≤ balance) (hrequired : 0 < required)
    (portions : ℕ) : (portions : ℤ) ≤ whole_portions balance required ↔
      required * portions ≤ balance := by
  have hquotient : 0 ≤ balance / required := div_nonneg hbalance hrequired.le
  have hfloor : whole_portions balance required = ⌊balance / required⌋ := by
    unfold whole_portions
    rw [Int.tdiv_eq_ediv_of_nonneg (Rat.num_nonneg.mpr hquotient), Rat.floor_def']
  rw [hfloor, Int.le_floor, Int.cast_natCast, le_div_iff₀ hrequired, mul_comm]

/-- A component allows some portions exactly if its ingredient is active and covers them. -/
theorem component_allows {db : Branch} (hrange : ∀ record ∈ db.ingredients,
    ∀ balance ∈ record.balance, 0 ≤ balance.quantity) {component : RecipeComponent}
    (hpositive : 0 < component.quantity) {record : IngredientRecord}
    (hrecord : Keyed.lookup IngredientRecord.id component.ingredient_id db.ingredients = some record)
    (portions : ℕ) :
    (∃ n, component_portions db component = some n ∧ (portions : ℤ) ≤ n) ↔
      ∃ balance, record.balance = some balance ∧ record.item.is_active = true ∧
        component.quantity * portions ≤ balance.quantity := by
  unfold component_portions
  rw [hrecord]
  cases hbalance : record.balance with
  | none => simp [hbalance]
  | some balance =>
    have hnonneg := hrange record (Keyed.lookup_mem hrecord) balance hbalance
    cases hactive : record.item.is_active with
    | false => simp [hbalance, hactive]
    | true => simp [hbalance, hactive, hpositive, le_whole_portions hnonneg hpositive]

/-- The portions that a component allows are not negative. The balance is not negative, and the
quantity of the component is positive. -/
theorem component_portions_nonneg {db : Branch} (hrange : ∀ record ∈ db.ingredients,
    ∀ balance ∈ record.balance, 0 ≤ balance.quantity) {component : RecipeComponent} {n : ℤ}
    (h : component_portions db component = some n) : 0 ≤ n := by
  unfold component_portions at h
  split at h
  · cases h
  · rename_i record hrecord
    split at h
    · cases h
    · rename_i balance hbalance
      split_ifs at h with hcase
      have hnonneg := hrange record (Keyed.lookup_mem hrecord) balance hbalance
      have hzero := (le_whole_portions hnonneg hcase.2 0).mpr (by simpa using hnonneg)
      rw [← Option.some.inj h]
      exact_mod_cast hzero

/-- The least number of some options is at least a number exactly if each of them is there and at
least that number. -/
theorem le_least {α : Type} (f : α → Option ℤ) (xs : List α) {p : ℤ} (hp : 0 < p) :
    p ≤ (if (xs.isEmpty || xs.any fun x => (f x).isNone) then 0
      else ((xs.filterMap f).min?).getD 0) ↔
      xs ≠ [] ∧ ∀ x ∈ xs, ∃ n, f x = some n ∧ p ≤ n := by
  split_ifs with hunavailable
  · -- Then the number is zero, and an option is missing.
    refine ⟨fun hle => absurd hp (not_lt.mpr hle), fun ⟨hne, hall⟩ => ?_⟩
    rcases Bool.or_eq_true_iff.mp hunavailable with hempty | hany
    · exact absurd (List.isEmpty_iff.mp hempty) hne
    · obtain ⟨x, hx, hnone⟩ := List.any_eq_true.mp hany
      obtain ⟨n, hn, -⟩ := hall x hx
      rw [hn] at hnone
      cases hnone
  · -- All the options are there, so the least of them is the number.
    rw [Bool.not_eq_true, Bool.or_eq_false_iff] at hunavailable
    obtain ⟨hempty, hany⟩ := hunavailable
    have hne : xs ≠ [] := by
      intro hnil
      rw [hnil] at hempty
      cases hempty
    have hsome : ∀ x ∈ xs, ∃ n, f x = some n := by
      intro x hx
      have hnone := List.any_eq_false.mp hany x hx
      exact Option.ne_none_iff_exists'.mp fun heq => hnone (by rw [heq]; rfl)
    -- The list is not empty, so it has a least number.
    have hfound : ∃ n, (xs.filterMap f).min? = some n := by
      refine Option.ne_none_iff_exists'.mp fun hmin => ?_
      obtain ⟨x, rest, rfl⟩ := List.exists_cons_of_ne_nil hne
      obtain ⟨n, hn⟩ := hsome x List.mem_cons_self
      rw [List.min?_eq_none_iff, List.filterMap_cons_some hn] at hmin
      cases hmin
    obtain ⟨n, hn⟩ := hfound
    rw [hn, Option.getD_some, List.le_min?_iff hn]
    constructor
    · intro hall
      refine ⟨hne, fun x hx => ?_⟩
      obtain ⟨m, hm⟩ := hsome x hx
      exact ⟨m, hm, hall m (List.mem_filterMap.mpr ⟨x, hx, hm⟩)⟩
    · rintro ⟨-, hall⟩ m hm
      obtain ⟨x, hx, hfx⟩ := List.mem_filterMap.mp hm
      obtain ⟨m', hm', hle⟩ := hall x hx
      rw [hfx] at hm'
      rwa [Option.some.inj hm']

/-- The stored components of a menu item. There is one for each ingredient of its recipe. -/
def stored_recipe (db : Branch) (id : ℕ) : List RecipeComponent :=
  db.recipe_components.filter fun component => component.menu_item_id = id

/-- Every component of the recipe of an item, which has one, allows some portions. -/
def Allows (db : Branch) (id portions : ℕ) : Prop :=
  stored_recipe db id ≠ [] ∧ ∀ component ∈ stored_recipe db id,
    ∃ n, component_portions db component = some n ∧ (portions : ℤ) ≤ n

/-- A stored component has an ingredient of the restaurant. -/
theorem known_component {db : Branch} (hkeys : db.Keys) (hrecipes : db.Recipes)
    {component : RecipeComponent} (hmem : component ∈ db.recipe_components) :
    ∃ record, Keyed.lookup IngredientRecord.id component.ingredient_id db.ingredients = some record := by
  obtain ⟨record, hrecord, hid⟩ := hrecipes.known component hmem
  exact ⟨record, hkeys.unique.lookup_eq_some.mpr ⟨hrecord, hid⟩⟩

/-- A recipe has components exactly if some are stored. Their ingredients are found, so the join
drops none of them. -/
theorem components_ne_nil_iff {db : Branch} (hkeys : db.Keys) (hrecipes : db.Recipes) (id : ℕ) :
    get_recipe_components db id ≠ [] ↔ stored_recipe db id ≠ [] := by
  constructor
  · intro hne hnil
    refine hne ?_
    unfold get_recipe_components
    unfold stored_recipe at hnil
    rw [hnil, List.filterMap_nil]
  · intro hne
    obtain ⟨component, hcomponent⟩ := List.exists_mem_of_ne_nil _ hne
    obtain ⟨record, hrecord⟩ := known_component hkeys hrecipes (List.mem_filter.mp hcomponent).1
    have hmem : (component, record) ∈ get_recipe_components db id :=
      List.mem_filterMap.mpr ⟨component, hcomponent, by rw [hrecord]; rfl⟩
    exact List.ne_nil_of_mem hmem

variable {db : Branch} (hsane : db.Sane) (hrecipes : db.Recipes)
include hsane hrecipes

/-- Lines of one tracked item are covered only if its components allow their portions. -/
theorem allows_of_covered {id : ℕ} (htracked : is_tracked db id = true) {lines : List OrderLine}
    (hlines : ∀ line ∈ lines, line.menu_item_id = some id) (hportions : 0 < total_portions lines)
    (h : Covered db lines) : Allows db id (total_portions lines) := by
  -- Some line asks for portions of the item.
  obtain ⟨line, hline⟩ : ∃ line, line ∈ lines := by
    refine List.exists_mem_of_ne_nil lines fun hnil => ?_
    rw [hnil] at hportions
    exact absurd hportions (lt_irrefl 0)
  obtain ⟨hne, -⟩ := h.recipes line hline id (hlines line hline) htracked
  refine ⟨(components_ne_nil_iff hsane.keys hrecipes id).mp hne, fun component hcomponent => ?_⟩
  obtain ⟨hmem, hmenu⟩ := List.mem_filter.mp hcomponent
  obtain rfl := of_decide_eq_true hmenu
  obtain ⟨record, hrecord⟩ := known_component hsane.keys hrecipes hmem
  have hpositive := hrecipes.positive component hmem
  -- The ingredient of the component is used by that line.
  have hstock := h.stock _ record hrecord
    ⟨line, hline, _, hlines line hline, htracked, component, hmem, rfl, rfl⟩
  rw [requirement_of_item htracked hlines, recipe_quantity_eq hrecipes hmem] at hstock
  -- The quantity of one portion times the portions is what the lines need of the ingredient.
  have hrequired : 0 < component.quantity * (total_portions lines : ℕ) :=
    mul_pos hpositive (Nat.cast_pos.mpr hportions)
  exact (component_allows (fun r hr b hb => (hsane.range r hr b hb).1) hpositive hrecord _).mpr
    ((shortage_eq_none_iff hrequired).mp hstock)

/-- Lines of one tracked item are covered if it is available and its components allow their
portions. -/
theorem covered_of_allows {id : ℕ} {item : MenuItem} (hitem : menu_item db id = some item)
    (havailable : item.is_available = true) {lines : List OrderLine}
    (hlines : ∀ line ∈ lines, line.menu_item_id = some id) (hportions : 0 < total_portions lines)
    (htracked : is_tracked db id = true) (h : Allows db id (total_portions lines)) :
    Covered db lines := by
  refine ⟨fun line hline => ⟨id, item, hlines line hline, hitem, havailable⟩,
    fun line hline id' hid' _ => ?_, fun ingredient_id record hrecord huses => ?_⟩
  · -- Each line has this item, whose recipe is in order.
    obtain rfl := Option.some.inj ((hlines line hline).symm.trans hid')
    refine ⟨(components_ne_nil_iff hsane.keys hrecipes id).mpr h.1, fun component hcomponent => ?_⟩
    exact hrecipes.positive _ (lookup_of_mem_components hcomponent).2.1
  · -- An ingredient that is used is that of a component, which allows the portions.
    obtain ⟨line, hline, id', hid', -, component, hmem, hmenu, rfl⟩ := huses
    obtain rfl := Option.some.inj ((hlines line hline).symm.trans hid')
    obtain rfl := hmenu
    have hpositive := hrecipes.positive component hmem
    have hallowed := h.2 component (List.mem_filter.mpr ⟨hmem, by simp⟩)
    rw [component_allows (fun r hr b hb => (hsane.range r hr b hb).1) hpositive hrecord] at hallowed
    rw [requirement_of_item htracked hlines, recipe_quantity_eq hrecipes hmem]
    exact (shortage_eq_none_iff (mul_pos hpositive (Nat.cast_pos.mpr hportions))).mpr hallowed

omit hsane in
/-- The lines of one item are covered where the whole order is. -/
theorem covered_filter {lines : List OrderLine} (h : Covered db lines) (p : OrderLine → Bool) :
    Covered db (lines.filter p) := by
  have hmem : ∀ line ∈ lines.filter p, line ∈ lines := fun line hline => (List.mem_filter.mp hline).1
  refine ⟨fun line hline => h.items line (hmem line hline),
    fun line hline => h.recipes line (hmem line hline), fun ingredient_id record hrecord huses => ?_⟩
  obtain ⟨line, hline, huses⟩ := huses
  obtain ⟨hnone, hbalance⟩ := h.stock ingredient_id record hrecord ⟨line, hmem line hline, huses⟩
  refine ⟨?_, hbalance⟩
  have hle := requirement_filter_le hrecipes.positive lines p ingredient_id
  exact shortage_eq_none_of_le hnone hle

omit hrecipes in
/-- What is reported of a tracked item: the number of portions that its components allow. -/
theorem item_availability_tracked {item : MenuItem} (htracked : item.inventory_tracking = true) :
    ∃ n, (item_availability db item).available_portions = some n ∧ 0 ≤ n ∧
      ((item_availability db item).out_of_stock = true ↔ n = 0) ∧
      ∀ portions : ℕ, 0 < portions → ((portions : ℤ) ≤ n ↔ Allows db item.menu_item_id portions) := by
  unfold item_availability
  rw [if_pos htracked]
  refine ⟨_, rfl, ?_, ?_, fun portions hportions => ?_⟩
  · -- The number is zero or the least of numbers that are not negative.
    split_ifs
    · exact le_rfl
    · cases hmin : ((stored_recipe db item.menu_item_id).filterMap (component_portions db)).min? with
      | none => exact (congrArg (·.getD 0) hmin).ge
      | some n =>
        obtain ⟨component, -, hn⟩ := List.mem_filterMap.mp (List.min?_mem hmin)
        have hnonneg := component_portions_nonneg (fun r hr b hb => (hsane.range r hr b hb).1) hn
        exact hnonneg.trans_eq (congrArg (·.getD 0) hmin).symm
  · -- Out of stock means no recipe that can be computed, or no portions.
    simp only [Bool.or_eq_true, decide_eq_true_eq]
    constructor
    · rintro (hunavailable | hzero)
      · exact if_pos (by simpa using hunavailable)
      · exact hzero
    · exact Or.inr
  · -- A number of portions is allowed exactly if every component allows it.
    have hp : (0 : ℤ) < portions := by exact_mod_cast hportions
    exact le_least (component_portions db) (stored_recipe db item.menu_item_id) hp

omit hsane hrecipes in
/-- What is reported under a key is the availability of the stored item. -/
theorem mem_for_menu_items {menu_items : List MenuItem} {expected_menu_id : Option ℕ} {id : ℕ}
    {status : MenuItemAvailability} (h : (id, status) ∈ for_menu_items db menu_items expected_menu_id) :
    ∃ item, menu_item db id = some item ∧ item.menu_item_id = id ∧
      status = item_availability db item := by
  obtain ⟨item, -, hentry⟩ := List.mem_filterMap.mp h
  split at hentry
  · cases hentry
  · rename_i stored hstored
    split_ifs at hentry
    obtain ⟨rfl, rfl⟩ := Prod.mk.inj (Option.some.inj hentry)
    exact ⟨stored, hstored, Keyed.lookup_key hstored, rfl⟩

omit hsane hrecipes in
/-- Exactly the stored items are reported that the list asks for. -/
theorem for_menu_items_reported (hmenus : db.OnMenus) (menu_items : List MenuItem)
    (expected_menu_id : Option ℕ) (id : ℕ) :
    (∃ status, (id, status) ∈ for_menu_items db menu_items expected_menu_id) ↔
      ∃ stored, menu_item db id = some stored ∧ Asks menu_items expected_menu_id stored := by
  constructor
  · -- An entry comes from an item of the list whose stored row is still there.
    rintro ⟨status, hstatus⟩
    obtain ⟨item, hitem, hentry⟩ := List.mem_filterMap.mp hstatus
    split at hentry
    · cases hentry
    · rename_i stored hstored
      split_ifs at hentry with hcase
      obtain ⟨rfl, -⟩ := Prod.mk.inj (Option.some.inj hentry)
      exact ⟨stored, hstored, ⟨item, hitem, (Keyed.lookup_key hstored).symm, hcase.2.2.symm⟩, hcase.2.1⟩
  · rintro ⟨stored, hstored, ⟨item, hitem, hid, hmenu⟩, hexpected⟩
    -- The join with the menus leaves the stored item in.
    obtain ⟨menu, hmem, hmenu_id⟩ := hmenus stored (Keyed.lookup_mem hstored)
    have hjoined : (Keyed.lookup Menu.menu_id stored.menu_id db.menus).isSome = true := by
      rw [Option.isSome_iff_ne_none]
      exact fun hnone => Keyed.lookup_eq_none.mp hnone menu hmem hmenu_id
    have hkey : item.menu_item_id = id := hid.trans (Keyed.lookup_key hstored)
    refine ⟨item_availability db stored, List.mem_filterMap.mpr ⟨item, hitem, ?_⟩⟩
    rw [hkey, hstored]
    exact if_pos ⟨hjoined, hexpected, hmenu.symm⟩

omit hsane hrecipes in
/-- An item is reported tracked exactly if it is. -/
theorem item_availability_tracking (item : MenuItem) :
    (item_availability db item).inventory_tracking = item.inventory_tracking := by
  unfold item_availability
  cases item.inventory_tracking <;> rfl

omit hrecipes in
/-- Lines of one item without tracking need nothing. Their item is not among the tracked ones, whose
recipes are gathered. -/
theorem stock_rows_untracked {id : ℕ} {item : MenuItem} (hitem : menu_item db id = some item)
    (havailable : item.is_available = true) (htracking : item.inventory_tracking = false)
    {lines : List OrderLine} (hlines : ∀ line ∈ lines, line.menu_item_id = some id) :
    stock_rows db lines = .ok [] := by
  have huntracked : is_tracked db id = false := by
    unfold is_tracked
    rw [hitem, Option.any_some, htracking]
  -- No line has a tracked item, so no ingredient is used.
  have huses : ∀ ingredient_id, ¬ uses db lines ingredient_id := by
    rintro ingredient_id ⟨line, hline, id', hid', htracked, -⟩
    obtain rfl := Option.some.inj ((hlines line hline).symm.trans hid')
    rw [huntracked] at htracked
    cases htracked
  have hcovered : Covered db lines := by
    refine ⟨fun line hline => ⟨id, item, hlines line hline, hitem, havailable⟩,
      fun line hline id' hid' htracked => ?_, fun ingredient_id _ _ h => absurd h (huses ingredient_id)⟩
    obtain rfl := Option.some.inj ((hlines line hline).symm.trans hid')
    rw [huntracked] at htracked
    cases htracked
  obtain ⟨rows, hrows⟩ := stock_rows_of_covered hcovered
  -- A row would be of an ingredient that a line uses.
  have hstock := stock_rows_ok (fun r hr b hb => (hsane.range r hr b hb).1) hrows
  have hempty : rows = [] := List.eq_nil_iff_forall_not_mem.mpr fun row hrow =>
    huses _ ((hstock.uses _ _ (hstock.lookup row hrow)).mp ⟨row, hrow, rfl⟩)
  rw [hrows, hempty]

end Recipes

/-- Availability agrees with acceptance in a state of a restaurant. -/
structure AvailabilityAgrees (db : Branch) : Prop where
  /-- Of the stored items exactly those are reported that are asked for, as tracked if they are, and each
  with one status. -/
  reported : ∀ menu_items expected_menu_id id,
    ((∃ status, (id, status) ∈ for_menu_items db menu_items expected_menu_id) ↔
      ∃ stored, menu_item db id = some stored ∧ Asks menu_items expected_menu_id stored) ∧
    ∀ status, (id, status) ∈ for_menu_items db menu_items expected_menu_id →
      status.inventory_tracking = is_tracked db id ∧
      ∀ status', (id, status') ∈ for_menu_items db menu_items expected_menu_id → status' = status
  /-- An available item that is reported tracked: any number of portions of it, in one line or more,
  can be accepted exactly up to the reported number, and none is out of stock. -/
  tracked : ∀ menu_items expected_menu_id id status item,
    (id, status) ∈ for_menu_items db menu_items expected_menu_id → menu_item db id = some item →
    item.is_available = true → status.inventory_tracking = true →
    ∃ n, status.available_portions = some n ∧ 0 ≤ n ∧ (status.out_of_stock = true ↔ n = 0) ∧
      ∀ lines : List OrderLine, (∀ line ∈ lines, line.menu_item_id = some id) →
        0 < total_portions lines →
          ((∃ rows, stock_rows db lines = .ok rows) ↔ (total_portions lines : ℤ) ≤ n)
  /-- An available item that is reported untracked: any number of portions of it needs nothing. -/
  untracked : ∀ menu_items expected_menu_id id status item,
    (id, status) ∈ for_menu_items db menu_items expected_menu_id → menu_item db id = some item →
    item.is_available = true → status.inventory_tracking = false →
    status.available_portions = none ∧ ∀ lines : List OrderLine,
      (∀ line ∈ lines, line.menu_item_id = some id) → stock_rows db lines = .ok []
  /-- Several items: of each that is tracked, an order that can be accepted has at most the reported
  number of portions. -/
  several : ∀ lines rows, stock_rows db lines = .ok rows →
    ∀ menu_items expected_menu_id id status,
    (id, status) ∈ for_menu_items db menu_items expected_menu_id → status.inventory_tracking = true →
    ∃ n, status.available_portions = some n ∧
      (total_portions (lines.filter fun line => line.menu_item_id = some id) : ℤ) ≤ n
  /-- That number is there: every line of such an order names a stored, available item, and if it is
  tracked, whoever asks for it is told a number, which its portions in the order do not exceed. -/
  ordered : ∀ lines rows, stock_rows db lines = .ok rows → ∀ line ∈ lines, ∃ id stored,
    line.menu_item_id = some id ∧ menu_item db id = some stored ∧ stored.is_available = true ∧
    (stored.inventory_tracking = true → ∀ menu_items expected_menu_id,
      Asks menu_items expected_menu_id stored → ∃ status n,
        (id, status) ∈ for_menu_items db menu_items expected_menu_id ∧
        status.inventory_tracking = true ∧ status.available_portions = some n ∧
        (total_portions (lines.filter fun line => line.menu_item_id = some id) : ℤ) ≤ n)

/-- The number of portions that `for_menu_items` reports agrees with what acceptance finds, in every
reachable state of a restaurant. -/
theorem availability_agrees (lib : Library) (start : ℕ → StockedBranch) (acts : List Act) (k : ℕ) :
    AvailabilityAgrees ((run lib (fun k => (start k).toLegacyBranch) acts).rows k) := by
  have hsane := run_sane lib (fun k => (start k).toLegacyBranch) acts k
  have hrecipes : ((run lib (fun k => (start k).toLegacyBranch) acts).rows k).Recipes :=
    run_later (List.nil_prefix : [] <+: acts) (start k).recipes fun hsane h hrecipes =>
      hrecipes.exec hsane h
  have hmenus : ((run lib (fun k => (start k).toLegacyBranch) acts).rows k).OnMenus :=
    run_later (List.nil_prefix : [] <+: acts) (start k).on_menus fun hsane h hmenus =>
      hmenus.exec hsane h
  set db := (run lib (fun k => (start k).toLegacyBranch) acts).rows k with hdb
  have htracked : ∀ {id : ℕ} {item : MenuItem}, menu_item db id = some item →
      is_tracked db id = item.inventory_tracking := by
    intro id item hitem
    unfold is_tracked
    rw [hitem, Option.any_some]
  -- For several items of an order, the lines of one of them are covered alone.
  have hseveral : ∀ lines rows, stock_rows db lines = .ok rows →
      ∀ menu_items expected_menu_id id status,
      (id, status) ∈ for_menu_items db menu_items expected_menu_id →
      status.inventory_tracking = true → ∃ n, status.available_portions = some n ∧
        (total_portions (lines.filter fun line => line.menu_item_id = some id) : ℤ) ≤ n := by
    intro lines rows hrows menu_items expected_menu_id id status hmem htracking
    obtain ⟨stored, hstored, rfl, rfl⟩ := mem_for_menu_items hmem
    rw [item_availability_tracking] at htracking
    obtain ⟨n, hn, hnonneg, -, hportions⟩ := item_availability_tracked hsane htracking
    refine ⟨n, hn, ?_⟩
    set own := lines.filter fun line => line.menu_item_id = some stored.menu_item_id with hown
    rcases Nat.eq_zero_or_pos (total_portions own) with hzero | hpos
    · rw [hzero]
      exact hnonneg
    · have hlines : ∀ line ∈ own, line.menu_item_id = some stored.menu_item_id := fun line hline =>
        of_decide_eq_true (List.mem_filter.mp hline).2
      have hcovered := covered_filter hrecipes (covered_of_stock_rows hrows)
        fun line => line.menu_item_id = some stored.menu_item_id
      exact (hportions _ hpos).mpr
        (allows_of_covered hsane hrecipes ((htracked hstored).trans htracking) hlines hpos hcovered)
  refine ⟨fun menu_items expected_menu_id id => ⟨?_, fun status hstatus => ⟨?_, ?_⟩⟩, ?_, ?_,
    hseveral, ?_⟩
  · exact for_menu_items_reported hmenus menu_items expected_menu_id id
  · obtain ⟨stored, hstored, -, rfl⟩ := mem_for_menu_items hstatus
    rw [item_availability_tracking, htracked hstored]
  · intro status' hstatus'
    -- Two entries of one item are computed from the same stored row.
    obtain ⟨stored, hstored, -, rfl⟩ := mem_for_menu_items hstatus
    obtain ⟨stored', hstored', -, rfl⟩ := mem_for_menu_items hstatus'
    rw [Option.some.inj (hstored'.symm.trans hstored)]
  · intro menu_items expected_menu_id id status item hmem hitem havailable htracking
    -- A tracked item: the number that is reported is the one the recipes allow.
    obtain ⟨stored, hstored, rfl, rfl⟩ := mem_for_menu_items hmem
    obtain rfl := Option.some.inj (hstored.symm.trans hitem)
    rw [item_availability_tracking] at htracking
    obtain ⟨n, hn, hnonneg, hzero, hportions⟩ := item_availability_tracked hsane htracking
    refine ⟨n, hn, hnonneg, hzero, fun lines hlines hpos => ?_⟩
    have hyes := (htracked hitem).trans htracking
    rw [stock_rows_iff, hportions _ hpos]
    exact ⟨allows_of_covered hsane hrecipes hyes hlines hpos,
      covered_of_allows hsane hrecipes hitem havailable hlines hpos hyes⟩
  · intro menu_items expected_menu_id id status item hmem hitem havailable htracking
    -- An item without tracking has no number, and its lines need nothing.
    obtain ⟨stored, hstored, rfl, rfl⟩ := mem_for_menu_items hmem
    obtain rfl := Option.some.inj (hstored.symm.trans hitem)
    rw [item_availability_tracking] at htracking
    refine ⟨?_, fun lines hlines => stock_rows_untracked hsane hitem havailable htracking hlines⟩
    unfold item_availability
    rw [htracking]
    rfl
  · intro lines rows hrows line hline
    -- Where acceptance finds the stock, each line has a stored and available item.
    obtain ⟨id, stored, hid, hstored, havailable⟩ := (covered_of_stock_rows hrows).items line hline
    refine ⟨id, stored, hid, hstored, havailable, fun htracking menu_items expected_menu_id hasks => ?_⟩
    -- The list asks for the item, so its availability is reported.
    obtain ⟨status, hstatus⟩ :=
      (for_menu_items_reported hmenus menu_items expected_menu_id id).mpr ⟨stored, hstored, hasks⟩
    obtain ⟨stored', hstored', -, rfl⟩ := mem_for_menu_items hstatus
    obtain rfl := Option.some.inj (hstored'.symm.trans hstored)
    rw [← @item_availability_tracking db] at htracking
    obtain ⟨n, hn, hle⟩ := hseveral lines rows hrows menu_items expected_menu_id id _ hstatus htracking
    exact ⟨_, n, hstatus, htracking, hn, hle⟩

end RestaurantOS
