import Mathlib.Data.Rat.Floor
import RestaurantOS.Catalog.Changes

/-!
# Stock availability of menu items

`for_menu_items` reports for how many portions of a tracked item the stock suffices: the least of the
whole quotients of balance and recipe quantity. Accepting an order sums up what its lines need of each
ingredient and compares the sums with the balances. Both speak of the same portions: for one item,
`_stock_rows` returns exactly up to the reported number (`AvailabilityAgrees`). -/

namespace RestaurantOS

open Fallible Catalog Events Inventory Orders Tenancy

namespace Recipes

/-- `MenuItemAvailability`. What the interface shows of the stock behind an item. -/
structure MenuItemAvailability where
  /-- The restaurant. -/
  restaurant_id : ℕ
  /-- Whether orders of the item consume stock. -/
  inventory_tracking : Bool
  /-- Whether the stock does not suffice for one portion. -/
  out_of_stock : Bool
  /-- For how many portions it suffices. -/
  available_portions : Option ℤ

/-- `int(balance // required)`: the quotient without its fraction. -/
def whole_portions (balance required : ℚ) : ℤ :=
  (balance / required).num.tdiv (balance / required).den

/-- The portions that one component allows, unless it is unavailable: its ingredient is not one of
the restaurant, is archived or has no balance, or the component needs nothing. -/
def component_portions (db : Branch) (component : RecipeComponent) : Option ℤ :=
  match Keyed.lookup IngredientRecord.id component.ingredient_id db.ingredients with
  | none => none
  | some record =>
    match record.balance with
    | none => none
    | some balance =>
      if record.item.is_active = true ∧ 0 < component.quantity then
        some (whole_portions balance.quantity component.quantity)
      else none

/-- The availability of a stored item. The scarcest component decides, and a recipe that is empty or
has a component out of use gives none. -/
def item_availability (db : Branch) (item : MenuItem) : MenuItemAvailability :=
  if item.inventory_tracking then
    let recipe := db.recipe_components.filter fun component =>
      component.menu_item_id = item.menu_item_id
    let portions := recipe.filterMap (component_portions db)
    let has_unavailable_component :=
      recipe.isEmpty || recipe.any fun component => (component_portions db component).isNone
    let available_portions := if has_unavailable_component then 0 else (portions.min?).getD 0
    { restaurant_id := db.restaurant_id, inventory_tracking := true,
      out_of_stock := has_unavailable_component || decide (available_portions = 0),
      available_portions := some available_portions }
  else
    { restaurant_id := db.restaurant_id, inventory_tracking := false, out_of_stock := false,
      available_portions := none }

/-- `for_menu_items`: the entries of the dictionary, under the keys of the items. The items may be
cached; one that has been deleted or moved to another menu since is left out. -/
def for_menu_items (db : Branch) (menu_items : List MenuItem) (expected_menu_id : Option ℕ) :
    List (ℕ × MenuItemAvailability) :=
  menu_items.filterMap fun item =>
    match menu_item db item.menu_item_id with
    | none => none
    | some stored =>
      if (Keyed.lookup Menu.menu_id stored.menu_id db.menus).isSome ∧
          (∀ menu_id ∈ expected_menu_id, stored.menu_id = menu_id) ∧ stored.menu_id = item.menu_id then
        some (item.menu_item_id, item_availability db stored)
      else none

/-- A list of items, which may be cached, asks for a stored one: it has an item with its key on the menu
that the stored one is on, and no other menu is expected. -/
def Asks (menu_items : List MenuItem) (expected_menu_id : Option ℕ) (stored : MenuItem) : Prop :=
  (∃ item ∈ menu_items, item.menu_item_id = stored.menu_item_id ∧ item.menu_id = stored.menu_id) ∧
    ∀ menu_id ∈ expected_menu_id, stored.menu_id = menu_id

end Recipes

/-! ## Menus and recipes in reachable states -/

/-- Every menu item is on a menu of the restaurant, as the foreign key of `menu_items` asks for. -/
def Branch.OnMenus (db : Branch) : Prop :=
  ∀ item ∈ db.menu_items, ∃ menu ∈ db.menus, menu.menu_id = item.menu_id

/-- The recipes of the restaurant. The conditions are those that the constraints of the table and
the command ensure. -/
structure Branch.Recipes (db : Branch) : Prop where
  /-- A recipe has an ingredient once. -/
  unique : Keyed.Unique (fun component : RecipeComponent =>
    (component.menu_item_id, component.ingredient_id)) db.recipe_components
  /-- A component needs something. -/
  positive : ∀ component ∈ db.recipe_components, 0 < component.quantity
  /-- Its ingredient is one of the restaurant. -/
  known : ∀ component ∈ db.recipe_components, ∃ record ∈ db.ingredients,
    record.id = component.ingredient_id

/-- A legacy branch with its menu items on menus and its recipes in order. -/
structure StockedBranch extends LegacyBranch where
  /-- The items are on menus. -/
  on_menus : toBranch.OnMenus
  /-- The recipes are in order. -/
  recipes : toBranch.Recipes

/-- The small restaurant is one. -/
instance : Nonempty StockedBranch :=
  ⟨{ toBranch := Branch.small
     legacy := Branch.small_legacy
     on_menus := by simp [Branch.OnMenus, Branch.small]
     recipes := by constructor <;> simp [Branch.small, Keyed.Unique, IngredientRecord.id] }⟩

/-- Components are removed from recipes, and no ingredient is. So each component that is left still
names an ingredient. -/
theorem Branch.Recipes.sublist {db db' : Branch} (h : db.Recipes)
    (hcomponents : db'.recipe_components.Sublist db.recipe_components)
    (hingredients : ∀ record ∈ db.ingredients, ∃ record' ∈ db'.ingredients, record'.id = record.id) :
    db'.Recipes := by
  refine ⟨h.unique.sublist (hcomponents.map _), fun component hmem => ?_, fun component hmem => ?_⟩
  · exact h.positive component (hcomponents.subset hmem)
  · obtain ⟨record, hrecord, hid⟩ := h.known component (hcomponents.subset hmem)
    obtain ⟨record', hrecord', hid'⟩ := hingredients record hrecord
    exact ⟨record', hrecord', hid'.trans hid⟩

/-- As many ingredients as keys without repetition are found only if every key is. -/
theorem known_of_length {db : Branch} (hkeys : db.Keys) {ids : List ℕ}
    (hlength : (db.ingredients.filter fun record => record.id ∈ ids).length = ids.length) :
    ∀ id ∈ ids, ∃ record ∈ db.ingredients, record.id = id := by
  set found := (db.ingredients.filter fun record => record.id ∈ ids).map IngredientRecord.id with hfound
  have hnodup : found.Nodup := hkeys.unique.sublist (List.filter_sublist.map _)
  have hsubset : found ⊆ ids := by
    intro id hid
    obtain ⟨record, hrecord, rfl⟩ := List.mem_map.mp hid
    exact of_decide_eq_true (List.mem_filter.mp hrecord).2
  have hperm : found.Perm ids :=
    (List.subperm_of_subset hnodup hsubset).perm_of_length_le (by rw [hfound, List.length_map, hlength])
  intro id hid
  obtain ⟨record, hrecord, rfl⟩ := List.mem_map.mp (hperm.mem_iff.mpr hid)
  exact ⟨record, (List.mem_filter.mp hrecord).1, rfl⟩

/-- The components of a replacement have the ingredients of its inputs. -/
theorem map_ingredient_id_of_inputs {menu_item_id : ℕ} {inputs : List RecipeComponentInput}
    {components : List RecipeComponent}
    (h : List.Forall₂ (fun input component => component.menu_item_id = menu_item_id ∧
      component.ingredient_id = input.ingredient_id ∧ 0 < component.quantity) inputs components) :
    components.map (·.ingredient_id) = inputs.map (·.ingredient_id) := by
  induction h with
  | nil => rfl
  | cons hinput hrest ih => rw [List.map_cons, List.map_cons, ih, hinput.2.1]

/-- A replacement leaves the recipes in order. The new components are those of the inputs, each with
an ingredient that was found. -/
theorem Branch.Recipes.replace {db db' : Branch} {menu_item_id : ℕ}
    {inputs : List RecipeComponentInput} {components : List RecipeComponent} (hkeys : db.Keys)
    (hrecipes : db.Recipes) (h : Replaces db menu_item_id inputs components)
    (hingredients : db'.ingredients = db.ingredients)
    (hcomponents : db'.recipe_components = (db.recipe_components.filter fun component =>
      component.menu_item_id ≠ menu_item_id) ++ components) : db'.Recipes := by
  have hknown := known_of_length hkeys h.found
  have hids := map_ingredient_id_of_inputs h.inputs
  -- The new components are those of the request, with its positive quantities and known
  -- ingredients.
  have hnew : ∀ component ∈ components, component.menu_item_id = menu_item_id ∧
      0 < component.quantity ∧ ∃ record ∈ db.ingredients, record.id = component.ingredient_id := by
    intro component hmem
    obtain ⟨input, hinput, hmenu, hid, hpositive⟩ := exists_of_mem_right h.inputs hmem
    exact ⟨hmenu, hpositive, hid ▸ hknown _ (List.mem_map_of_mem hinput)⟩
  constructor
  · -- Keys are unique among the old components and among the new ones, and these are of different
    -- items.
    unfold Keyed.Unique
    rw [hcomponents, List.map_append, List.nodup_append]
    refine ⟨hrecipes.unique.sublist (List.filter_sublist.map _), ?_, ?_⟩
    · have hnodup := h.nodup
      rw [← hids] at hnodup
      refine List.Nodup.of_map Prod.snd ?_
      rwa [List.map_map]
    · -- The components that stay are of other items.
      intro key hold key' hnew' heq
      obtain ⟨component, hcomponent, rfl⟩ := List.mem_map.mp hold
      obtain ⟨component', hcomponent', rfl⟩ := List.mem_map.mp hnew'
      have hother := of_decide_eq_true (List.mem_filter.mp hcomponent).2
      exact hother ((Prod.mk.inj heq).1.trans (hnew component' hcomponent').1)
  · -- A component is an old one or a new one, and both have a positive quantity.
    intro component hmem
    rw [hcomponents] at hmem
    rcases List.mem_append.mp hmem with hmem | hmem
    · exact hrecipes.positive component (List.mem_filter.mp hmem).1
    · exact (hnew component hmem).2.1
  · -- Both belong to stored ingredients.
    intro component hmem
    rw [hcomponents] at hmem
    rw [hingredients]
    rcases List.mem_append.mp hmem with hmem | hmem
    · exact hrecipes.known component (List.mem_filter.mp hmem).1
    · exact (hnew component hmem).2.2

/-- Every command keeps the components of the recipes, removes some, or replaces a recipe. Deleting
a menu item removes its components with it. -/
theorem exec_components {lib : Library} {command : Command} {draw : Draw} {db db' : Branch}
    {response : Response} (hsane : db.Sane) (h : exec lib command draw db = .ok (db', response)) :
    db'.recipe_components.Sublist db.recipe_components ∨
      ∃ context id data, command = .replace_recipe context id data := by
  have hkept : db'.recipe_components = db.recipe_components →
      db'.recipe_components.Sublist db.recipe_components ∨
        ∃ context id data, command = .replace_recipe context id data := fun hsame =>
    Or.inl (hsame ▸ List.Sublist.refl _)
  cases command with
  | create_order context data =>
    obtain ⟨⟨db₁, snapshot⟩, hcreate, h⟩ := bind_eq_ok.mp h
    obtain ⟨rfl, -⟩ := Prod.mk.inj (pure_eq_ok.mp h)
    rcases OrderService.create_ok hcreate with ⟨-, rfl⟩ |
      ⟨-, order, -, -, -, -, -, -, -, -, -, -, hcomponents⟩
    · exact hkept rfl
    · exact hkept hcomponents
  -- The orders have no part in the recipes.
  | delete_order context order_id =>
    obtain ⟨db₁, hdelete, h⟩ := bind_eq_ok.mp h
    obtain ⟨rfl, -⟩ := Prod.mk.inj (pure_eq_ok.mp h)
    obtain ⟨order, event, -, -, -, -, -, -, -, -, -, hcomponents⟩ := OrderService.delete_ok hdelete
    exact hkept hcomponents
  | update_order context order_id data =>
    obtain ⟨⟨db₁, order⟩, hupdate, h⟩ := bind_eq_ok.mp h
    obtain ⟨rfl, -⟩ := Prod.mk.inj (pure_eq_ok.mp h)
    obtain ⟨-, -, -, -, -, -, -, -, -, -, -, -, -, -, -, hcomponents⟩ :=
      OrderService.update_ok hsane.range hupdate
    exact hkept hcomponents
  -- The stock has none either.
  | create_ingredient context data =>
    obtain ⟨⟨db₁, view⟩, hcreate, h⟩ := bind_eq_ok.mp h
    obtain ⟨rfl, -⟩ := Prod.mk.inj (pure_eq_ok.mp h)
    obtain ⟨-, -, -, -, -, ⟨-, rfl⟩ | ⟨-, movement, -, -, -, -, -, hwrite⟩⟩ :=
      InventoryService.create_ok hsane.keys hcreate
    · exact hkept rfl
    · exact hkept hwrite.frame.recipe_components
  | update_ingredient context ingredient_id data =>
    obtain ⟨⟨db₁, view⟩, hupdate, h⟩ := bind_eq_ok.mp h
    obtain ⟨rfl, -⟩ := Prod.mk.inj (pure_eq_ok.mp h)
    exact hkept (InventoryService.update_ok hupdate).frame.recipe_components
  | change_stock context ingredient_id data =>
    obtain ⟨⟨db₁, movement⟩, hchange, h⟩ := bind_eq_ok.mp h
    obtain ⟨rfl, -⟩ := Prod.mk.inj (pure_eq_ok.mp h)
    obtain ⟨record, kind, amount, -, -, -, -, -, ⟨-, rfl⟩ | ⟨-, -, -, -, hwrite⟩⟩ :=
      InventoryService.change_ok hchange
    · exact hkept rfl
    · exact hkept hwrite.frame.recipe_components
  -- The initialization writes the ingredients only.
  | maintenance_initialization organization_id =>
    obtain ⟨db₁, hmaintenance, h⟩ := bind_eq_ok.mp h
    obtain ⟨rfl, -⟩ := Prod.mk.inj (pure_eq_ok.mp h)
    rcases maintenance_initialization_writes hsane.keys hmaintenance with ⟨-, rfl⟩ |
      ⟨-, ws, db₂, hwrites, -, -, rfl⟩
    · exact hkept rfl
    · exact hkept hwrites.frame.recipe_components
  | create_menu | update_menu | delete_menu | create_menu_item | update_menu_item
  | delete_menu_item | replace_recipe => exact (exec_catalog rfl h).2.2

/-- Every command leaves the recipes in order. Recipes are written by a replacement, and shortened
by the deletion of an item. -/
theorem Branch.Recipes.exec {lib : Library} {command : Command} {draw : Draw} {db db' : Branch}
    {response : Response} (hrecipes : db.Recipes) (hsane : db.Sane)
    (h : exec lib command draw db = .ok (db', response)) : db'.Recipes := by
  have heffect := exec_effect hsane.keys hsane.range h
  rcases exec_components hsane h with hcomponents | ⟨context, id, data, rfl⟩
  · exact hrecipes.sublist hcomponents fun record hrecord =>
      heffect.keeps_ingredients hsane.keys hrecord
  · obtain ⟨context, -, hwrite⟩ := exec_catalog_write rfl h
    cases hwrite with
    | recipe_replaced _ _ _ _ hcomponents => exact hrecipes.replace hsane.keys hcomponents rfl rfl
    | item_written _ _ _ _ hcommand | item_kept _ hcommand =>
      obtain ⟨_, hcommand⟩ | hcommand := hcommand
      · cases hcommand
      · cases hcommand

/-- A menu item that is written again stays on its menu. -/
theorem Branch.OnMenus.put {db : Branch} (h : db.OnMenus) {before after : MenuItem}
    (hbefore : Keyed.lookup MenuItem.menu_item_id before.menu_item_id db.menu_items = some before)
    (hmenu : after.menu_id = before.menu_id) :
    ∀ item ∈ Keyed.put MenuItem.menu_item_id after db.menu_items,
      ∃ menu ∈ db.menus, menu.menu_id = item.menu_id := by
  intro item hitem
  rcases Keyed.mem_put hitem with ⟨hitem, -⟩ | rfl
  · exact h item hitem
  · rw [hmenu]
    exact h before (Keyed.lookup_mem hbefore)

/-- A menu is written again, and its key stays. So the items of the menu still have one. -/
theorem Branch.OnMenus.put_menu {db : Branch} (h : db.OnMenus) (menu : Menu) :
    ∀ item ∈ db.menu_items, ∃ other ∈ Keyed.put Menu.menu_id menu db.menus,
      other.menu_id = item.menu_id := by
  intro item hitem
  obtain ⟨other, hother, hid⟩ := h item hitem
  have hkey : other.menu_id ∈ db.menus.map Menu.menu_id := List.mem_map_of_mem hother
  rw [← Keyed.keys_put menu db.menus] at hkey
  obtain ⟨other', hother', hid'⟩ := List.mem_map.mp hkey
  exact ⟨other', hother', hid'.trans hid⟩

/-- Every command keeps the menu items on menus: an item is created on a menu that is there, and a menu
is deleted only when no item is on it. -/
theorem Branch.OnMenus.exec {lib : Library} {command : Command} {draw : Draw} {db db' : Branch}
    {response : Response} (hmenus : db.OnMenus) (hsane : db.Sane)
    (h : exec lib command draw db = .ok (db', response)) : db'.OnMenus := by
  cases hcommand : command.is_catalog with
  -- Other commands leave menus and items as they are.
  | false =>
    intro item hitem
    have hkept := exec_catalog_kept hsane hcommand h
    rw [hkept.menu_items] at hitem
    rw [hkept.menus]
    exact hmenus item hitem
  | true =>
    obtain ⟨context, -, hwrite⟩ := exec_catalog_write hcommand h
    cases hwrite with
    | menu_created _ menu _ hemit =>
      obtain ⟨event, -, -, rfl⟩ := emit_change_ok hemit
      intro item hitem
      obtain ⟨other, hother, hid⟩ := hmenus item hitem
      exact ⟨other, List.mem_append_left _ hother, hid⟩
    -- An edited menu keeps its key.
    | menu_edited _ _ after hemit =>
      obtain ⟨event, -, -, rfl⟩ := emit_change_ok hemit
      exact hmenus.put_menu after
    | menu_kept _ menu => exact hmenus.put_menu menu
    -- The menu that is deleted has no item.
    | menu_deleted menu _ hempty hemit =>
      obtain ⟨event, -, -, rfl⟩ := emit_change_ok hemit
      intro item hitem
      obtain ⟨other, hother, hid⟩ := hmenus item hitem
      refine ⟨other, List.mem_filter.mpr ⟨hother, decide_eq_true ?_⟩, hid⟩
      rw [hid]
      exact hempty item hitem
    -- The item is created on a menu that has been found.
    | item_created _ menu item hmenu _ _ hemit =>
      obtain ⟨event, -, -, rfl⟩ := emit_change_ok hemit
      intro other hother
      rcases List.mem_append.mp hother with hother | hother
      · exact hmenus other hother
      · rw [List.mem_singleton.mp hother]
        exact ⟨menu, Keyed.lookup_mem hmenu, Keyed.lookup_key hmenu⟩
    -- An item stays on its menu when it is written.
    | item_written _ _ _ hemit _ hbefore _ hmenu =>
      obtain ⟨event, -, -, rfl⟩ := emit_change_ok hemit
      exact hmenus.put hbefore hmenu
    | item_kept item _ hitem => exact hmenus.put hitem rfl
    | item_deleted _ _ hemit =>
      obtain ⟨event, -, -, rfl⟩ := emit_change_ok hemit
      exact fun other hother => hmenus other (List.mem_filter.mp hother).1
    | recipe_replaced _ item _ hitem => exact hmenus.put hitem rfl

end RestaurantOS
