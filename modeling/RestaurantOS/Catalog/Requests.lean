import RestaurantOS.Commands
import RestaurantOS.Inventory.Recording

/-!
# What catalog requests write

Every command on menus, menu items and recipes that returns has written rows in one of nine ways
(`CatalogWrite`), and all but three of them announce the change with one event. Each service function
has one lemma here that says which of these it is, and `exec_catalog_write` is the only statement about
their code; what the commands do to the prices, to the lists of the restaurant, to the recipes and to the
events is proved by cases on it. -/

namespace RestaurantOS

open Fallible Catalog Events Inventory Orders Tenancy

namespace Catalog

/-! ## What the catalog shows -/

/-- What the catalog shows of a menu or of a menu item. -/
inductive CatalogFacts
  | menu (name : String) (description : Option String)
  | menu_item (name : String) (description : Option String) (price : ℚ) (is_available : Bool)

/-- The subject is not withdrawn: only a menu item can be, by taking its availability away. -/
def CatalogFacts.is_available : CatalogFacts → Bool
  | .menu .. => true
  | .menu_item _ _ _ is_available => is_available

/-- What the catalog shows of a menu. They change only with a revision. -/
def Menu.facts (menu : Menu) : CatalogFacts := .menu menu.name menu.description

/-- What the catalog shows of a menu item. -/
def MenuItem.facts (item : MenuItem) : CatalogFacts :=
  .menu_item item.name item.description item.price item.is_available

/-- What a request does to a menu or a menu item, and the operations that it announces. -/
inductive CatalogStep : Option CatalogFacts → Option CatalogFacts → List CatalogOperation → Prop
  | kept (facts : Option CatalogFacts) : CatalogStep facts facts []
  | created (after : CatalogFacts) : CatalogStep none (some after) [.created]
  | edited (before after : CatalogFacts) (hchanged : after ≠ before)
      (hactive : ¬ (before.is_available = true ∧ after.is_available = false)) :
    CatalogStep (some before) (some after) [.edited]
  | deactivated (before after : CatalogFacts) (hbefore : before.is_available = true)
      (hafter : after.is_available = false) :
    CatalogStep (some before) (some after) [.deactivated]
  | deleted (before : CatalogFacts) : CatalogStep (some before) none [.deleted]

/-- A price that the column of menu items admits. -/
def price_valid (price : ℚ) : Prop := 0 ≤ price ∧ price ≤ MAX_MENU_PRICE ∧ has_decimal_places 2 price

/-- A checked price is valid. The check compares it with both bounds and its decimal places. -/
theorem validate_menu_price_ok {price : Decimal} {number : ℚ}
    (h : validate_menu_price price = .ok number) : price_valid number := by
  unfold validate_menu_price at h
  cases hvalue : price.value with
  | none => simp [hvalue] at h
  | some value =>
    simp only [hvalue] at h
    obtain ⟨_, hensure, h⟩ := bind_eq_ok.mp h
    rw [← pure_eq_ok.mp h]
    have hvalid := ensure_eq_ok.mp hensure
    exact hvalid

variable {db db' : Branch} {context : AccessContext} {draw : Draw}

/-! ## Targets and events -/

/-- A menu found under the lock is a row, and the restaurant is in the scope of the caller. -/
theorem get_menu_by_id_ok {menu_id : ℕ} {menu : Menu}
    (h : get_menu_by_id db context menu_id = .ok menu) :
    context.restaurant_scope db.organization_id db.restaurant_id = true ∧
      Keyed.lookup Menu.menu_id menu_id db.menus = some menu := by
  obtain ⟨_, hscope, h⟩ := bind_eq_ok.mp h
  refine ⟨ensure_eq_ok.mp hscope, ?_⟩
  cases hlookup : Keyed.lookup Menu.menu_id menu_id db.menus with
  | none => simp [hlookup] at h
  | some menu' =>
    simp only [hlookup] at h
    rw [pure_eq_ok.mp h]

/-- A menu item found under the lock is a row, and the restaurant is in the scope of the caller. -/
theorem get_menu_item_by_id_ok {menu_item_id : ℕ} {item : MenuItem}
    (h : get_menu_item_by_id db context menu_item_id = .ok item) :
    context.restaurant_scope db.organization_id db.restaurant_id = true ∧
      Keyed.lookup MenuItem.menu_item_id menu_item_id db.menu_items = some item := by
  obtain ⟨_, hscope, h⟩ := bind_eq_ok.mp h
  refine ⟨ensure_eq_ok.mp hscope, ?_⟩
  cases hlookup : Keyed.lookup MenuItem.menu_item_id menu_item_id db.menu_items with
  | none => simp [hlookup] at h
  | some item' =>
    simp only [hlookup] at h
    rw [pure_eq_ok.mp h]

/-- The subject of a change: the item, or the menu where there is none. -/
def subject (menu_id : ℕ) : Option MenuItem → CatalogTarget × ℕ
  | none => (.menu, menu_id)
  | some item => (.menu_item, item.menu_item_id)

/-- Announcing a change appends one event about its subject, under the next revision of the subject's
events, and writes no row besides. -/
theorem emit_change_ok {menu_id : ℕ} {operation : CatalogOperation} {item : Option MenuItem}
    (h : emit_change db draw context menu_id operation item = .ok db') :
    ∃ event : EventEnvelope Payload,
      (∃ affected, event.payload = .menu_updated operation (subject menu_id item).1
        (subject menu_id item).2 menu_id affected) ∧
      event.aggregate_revision =
        next_catalog_revision db (subject menu_id item).1 (subject menu_id item).2 ∧
      db' = { db with
        events := db.events ++ [event]
        next_uuid := db.next_uuid + 1 } := by
  obtain ⟨event, hpayload, hrevision, -, rfl⟩ := Branch.append_ok h
  cases item with
  | none => exact ⟨event, ⟨_, hpayload⟩, hrevision, rfl⟩
  | some item => exact ⟨event, ⟨_, hpayload⟩, hrevision, rfl⟩

/-- An item without order history is on no order, so cutting its links changes none. This is why the
deletion of an item without history can be described without the orders. -/
theorem orders_unlinked {menu_item_id : ℕ}
    (hhistory : menu_item_has_order_history db menu_item_id = false) :
    (db.orders.map fun order =>
      { order with items := order.items.map fun item =>
          if item.menu_item_id = some menu_item_id then { item with menu_item_id := none }
          else item }) = db.orders := by
  unfold menu_item_has_order_history at hhistory
  rw [List.any_eq_false] at hhistory
  conv_rhs => rw [← List.map_id db.orders]
  refine List.map_congr_left fun order horder => ?_
  -- No item of the order refers to the menu item.
  have hnone : ∀ item ∈ order.items, item.menu_item_id ≠ some menu_item_id := by
    simpa using hhistory order horder
  have hitems : (order.items.map fun item =>
      if item.menu_item_id = some menu_item_id then { item with menu_item_id := none } else item) =
        order.items := by
    conv_rhs => rw [← List.map_id order.items]
    exact List.map_congr_left fun item hitem => if_neg (hnone item hitem)
  simp only [hitems, id_eq]

end Catalog

/-! ## The writes -/

/-- The commands of the catalog and of the recipes. -/
def Command.is_catalog : Command → Bool
  | .create_menu .. | .update_menu .. | .delete_menu .. | .create_menu_item ..
  | .update_menu_item .. | .delete_menu_item .. | .replace_recipe .. => true
  | _ => false

/-- The components of a recipe that replaces one: an ingredient of the restaurant for each input, once,
and more than nothing of it. -/
structure Catalog.Replaces (db : Branch) (menu_item_id : ℕ) (data : List RecipeComponentInput)
    (components : List RecipeComponent) : Prop where
  /-- No ingredient is named twice. -/
  nodup : (data.map (·.ingredient_id)).Nodup
  /-- A component for each input. -/
  inputs : List.Forall₂ (fun input component => component.menu_item_id = menu_item_id ∧
    component.ingredient_id = input.ingredient_id ∧ 0 < component.quantity) data components
  /-- As many ingredients have been found as are named. -/
  found : (db.ingredients.filter fun record =>
    record.id ∈ data.map (·.ingredient_id)).length = (data.map (·.ingredient_id)).length

/-- What a command of the catalog that returns has written. An announced change is stated by the call of
`_emit_change` on the rows that the command has written before it. -/
inductive CatalogWrite (db : Branch) (draw : Draw) (context : AccessContext) :
    Command → Branch → Prop
  | menu_created (command : CreateMenu) (menu : Menu) (hfresh : db.next_menu_id ≤ menu.menu_id)
      {db' : Branch}
      (hemit : emit_change { db with
        menus := db.menus ++ [menu]
        next_menu_id := menu.menu_id + 1 } draw context menu.menu_id .created none = .ok db') :
    CatalogWrite db draw context (.create_menu context command) db'
  | menu_edited (command : UpdateMenu) (before after : Menu) {db' : Branch}
      (hemit : emit_change { db with menus := Keyed.put Menu.menu_id after db.menus } draw context
        before.menu_id .edited none = .ok db')
      (hbefore : Keyed.lookup Menu.menu_id before.menu_id db.menus = some before)
      (hid : after.menu_id = before.menu_id) (hchanged : after.facts ≠ before.facts) :
    CatalogWrite db draw context (.update_menu context before.menu_id command) db'
  | menu_kept (command : UpdateMenu) (menu : Menu)
      (hmenu : Keyed.lookup Menu.menu_id menu.menu_id db.menus = some menu) :
    CatalogWrite db draw context (.update_menu context menu.menu_id command)
      { db with menus := Keyed.put Menu.menu_id menu db.menus }
  | menu_deleted (menu : Menu) (hmenu : Keyed.lookup Menu.menu_id menu.menu_id db.menus = some menu)
      (hempty : ∀ item ∈ db.menu_items, item.menu_id ≠ menu.menu_id) {db₁ : Branch}
      (hemit : emit_change db draw context menu.menu_id .deleted none = .ok db₁) :
    CatalogWrite db draw context (.delete_menu context menu.menu_id)
      { db₁ with menus := db₁.menus.filter fun other => other.menu_id ≠ menu.menu_id }
  | item_created (command : CreateMenuItem) (menu : Menu) (item : MenuItem)
      (hmenu : Keyed.lookup Menu.menu_id item.menu_id db.menus = some menu)
      (hprice : price_valid item.price) (hfresh : db.next_menu_item_id ≤ item.menu_item_id)
      {db' : Branch}
      (hemit : emit_change { db with
        menu_items := db.menu_items ++ [item]
        next_menu_item_id := item.menu_item_id + 1 } draw context menu.menu_id .created (some item) =
          .ok db') :
    CatalogWrite db draw context (.create_menu_item context item.menu_id command) db'
  | item_written {command : Command} (before after : MenuItem) (operation : CatalogOperation)
      {db' : Branch}
      (hemit : emit_change { db with
        menu_items := Keyed.put MenuItem.menu_item_id after db.menu_items } draw context
          before.menu_id operation (some after) = .ok db')
      (hcommand : (∃ data, command = .update_menu_item context before.menu_item_id data) ∨
        command = .delete_menu_item context before.menu_item_id)
      (hbefore : Keyed.lookup MenuItem.menu_item_id before.menu_item_id db.menu_items = some before)
      (hid : after.menu_item_id = before.menu_item_id) (hmenu : after.menu_id = before.menu_id)
      (hprice : after.price = before.price ∨ price_valid after.price)
      (hstep : CatalogStep (some before.facts) (some after.facts) [operation]) :
    CatalogWrite db draw context command db'
  | item_kept {command : Command} (item : MenuItem)
      (hcommand : (∃ data, command = .update_menu_item context item.menu_item_id data) ∨
        command = .delete_menu_item context item.menu_item_id)
      (hitem : Keyed.lookup MenuItem.menu_item_id item.menu_item_id db.menu_items = some item) :
    CatalogWrite db draw context command
      { db with menu_items := Keyed.put MenuItem.menu_item_id item db.menu_items }
  | item_deleted (item : MenuItem)
      (hitem : Keyed.lookup MenuItem.menu_item_id item.menu_item_id db.menu_items = some item)
      {db₁ : Branch}
      (hemit : emit_change db draw context item.menu_id .deleted (some item) = .ok db₁) :
    CatalogWrite db draw context (.delete_menu_item context item.menu_item_id)
      { db₁ with
        menu_items := db₁.menu_items.filter fun other => other.menu_item_id ≠ item.menu_item_id
        recipe_components := db₁.recipe_components.filter fun component =>
          component.menu_item_id ≠ item.menu_item_id }
  | recipe_replaced (command : ReplaceRecipe) (item : MenuItem) (components : List RecipeComponent)
      (hitem : Keyed.lookup MenuItem.menu_item_id item.menu_item_id db.menu_items = some item)
      (hcomponents : Replaces db item.menu_item_id command.components components) :
    CatalogWrite db draw context (.replace_recipe context item.menu_item_id command)
      { db with
        menu_items := Keyed.put MenuItem.menu_item_id
          { item with inventory_tracking := command.inventory_tracking } db.menu_items
        recipe_components := (db.recipe_components.filter fun component =>
          component.menu_item_id ≠ item.menu_item_id) ++ components }

variable {db db' : Branch} {context : AccessContext} {draw : Draw}

/-! ## The service functions -/

namespace CatalogService

/-- Creating a menu inserts a row under the next key of the sequence. -/
theorem create_menu_ok {command : CreateMenu} {menu : Menu}
    (h : create_menu context command draw db = .ok (db', menu)) :
    context.restaurant_scope db.organization_id db.restaurant_id = true ∧
      CatalogWrite db draw context (.create_menu context command) db' := by
  obtain ⟨_, hscope, h⟩ := bind_eq_ok.mp h
  obtain ⟨_, -, h⟩ := bind_eq_ok.mp h
  obtain ⟨_, -, h⟩ := bind_eq_ok.mp h
  obtain ⟨db₁, hemit, h⟩ := bind_eq_ok.mp h
  obtain ⟨rfl, -⟩ := Prod.mk.inj (pure_eq_ok.mp h)
  exact ⟨ensure_eq_ok.mp hscope, .menu_created command _ (Nat.le_add_right _ _) hemit⟩

/-- Updating a menu writes its row, and announces the edit if name or description has changed. -/
theorem update_menu_ok {menu_id : ℕ} {command : UpdateMenu} {menu : Menu}
    (h : update_menu context menu_id command draw db = .ok (db', menu)) :
    context.restaurant_scope db.organization_id db.restaurant_id = true ∧
      CatalogWrite db draw context (.update_menu context menu_id command) db' := by
  obtain ⟨before, hfound, h⟩ := bind_eq_ok.mp h
  obtain ⟨_, -, h⟩ := bind_eq_ok.mp h
  obtain ⟨hscope, hbefore⟩ := get_menu_by_id_ok hfound
  obtain rfl := Keyed.lookup_key hbefore
  simp only at h
  split_ifs at h with hchanged
  · -- Something of the menu has changed, so the edit is announced.
    obtain ⟨db₁, hemit, h⟩ := bind_eq_ok.mp h
    obtain ⟨rfl, -⟩ := Prod.mk.inj (pure_eq_ok.mp h)
    refine ⟨hscope, .menu_edited command before _ hemit hbefore rfl fun heq => ?_⟩
    obtain ⟨hname, hdescription⟩ := CatalogFacts.menu.inj heq
    exact hchanged.elim (fun hne => hne hname) fun hne => hne hdescription
  · -- The row that is written is the one that has been read.
    obtain ⟨rfl, -⟩ := Prod.mk.inj (pure_eq_ok.mp h)
    obtain ⟨hname, hdescription⟩ := not_or.mp hchanged
    rw [not_not.mp hname, not_not.mp hdescription]
    exact ⟨hscope, .menu_kept command before hbefore⟩

/-- Deleting a menu announces it and removes its row; the menu has no items left. -/
theorem delete_menu_ok {menu_id : ℕ} (h : delete_menu context menu_id draw db = .ok db') :
    context.restaurant_scope db.organization_id db.restaurant_id = true ∧
      CatalogWrite db draw context (.delete_menu context menu_id) db' := by
  obtain ⟨menu, hfound, h⟩ := bind_eq_ok.mp h
  obtain ⟨_, -, h⟩ := bind_eq_ok.mp h
  obtain ⟨_, hempty, h⟩ := bind_eq_ok.mp h
  obtain ⟨db₁, hemit, h⟩ := bind_eq_ok.mp h
  obtain ⟨hscope, hmenu⟩ := get_menu_by_id_ok hfound
  obtain rfl := Keyed.lookup_key hmenu
  rw [← pure_eq_ok.mp h]
  exact ⟨hscope, .menu_deleted menu hmenu (ensure_eq_ok.mp hempty) hemit⟩

/-- Creating a menu item inserts a row of an existing menu under the next key of the sequence. -/
theorem create_menu_item_ok {menu_id : ℕ} {command : CreateMenuItem} {item : MenuItem}
    (h : create_menu_item context menu_id command draw db = .ok (db', item)) :
    context.restaurant_scope db.organization_id db.restaurant_id = true ∧
      CatalogWrite db draw context (.create_menu_item context menu_id command) db' := by
  obtain ⟨menu, hfound, h⟩ := bind_eq_ok.mp h
  obtain ⟨_, -, h⟩ := bind_eq_ok.mp h
  obtain ⟨price, hprice, h⟩ := bind_eq_ok.mp h
  obtain ⟨_, -, h⟩ := bind_eq_ok.mp h
  obtain ⟨db₁, hemit, h⟩ := bind_eq_ok.mp h
  obtain ⟨rfl, rfl⟩ := Prod.mk.inj (pure_eq_ok.mp h)
  obtain ⟨hscope, hmenu⟩ := get_menu_by_id_ok hfound
  have hvalid := validate_menu_price_ok hprice
  exact ⟨hscope, .item_created command menu _ hmenu hvalid (Nat.le_add_right _ _) hemit⟩

/-- The price after an update is the one before or a checked one. -/
theorem requested_price_ok {command : UpdateMenuItem} {item : MenuItem} {price : ℚ}
    (h : requested_price command item = .ok price) : price = item.price ∨ price_valid price := by
  unfold requested_price at h
  split at h
  · exact Or.inr (validate_menu_price_ok h)
  · exact Or.inl (pure_eq_ok.mp h).symm

/-- Updating a menu item writes its row, and announces a withdrawal or an edit if what the catalog shows
of it has changed. -/
theorem update_menu_item_ok {menu_item_id : ℕ} {command : UpdateMenuItem} {item : MenuItem}
    (h : update_menu_item context menu_item_id command draw db = .ok (db', item)) :
    context.restaurant_scope db.organization_id db.restaurant_id = true ∧
      CatalogWrite db draw context (.update_menu_item context menu_item_id command) db' := by
  obtain ⟨before, hfound, hbody⟩ := bind_eq_ok.mp h
  obtain ⟨_, -, hbody⟩ := bind_eq_ok.mp hbody
  obtain ⟨price, hprice, hbody⟩ := bind_eq_ok.mp hbody
  obtain ⟨hscope, hbefore⟩ := get_menu_item_by_id_ok hfound
  obtain rfl := Keyed.lookup_key hbefore
  have hprice := requested_price_ok hprice
  simp only at hbody
  split_ifs at hbody with hchanged hwithdrawn
  · -- The item was available and is no more, so this is a withdrawal.
    obtain ⟨db₁, hemit, hbody⟩ := bind_eq_ok.mp hbody
    obtain ⟨rfl, -⟩ := Prod.mk.inj (pure_eq_ok.mp hbody)
    rw [Bool.and_eq_true, Bool.not_eq_true'] at hwithdrawn
    exact ⟨hscope, .item_written before _ .deactivated hemit (Or.inl ⟨command, rfl⟩) hbefore rfl rfl
      hprice (.deactivated _ _ hwithdrawn.1 hwithdrawn.2)⟩
  · -- Any other change is an edit, and what has changed is one of the four facts.
    obtain ⟨db₁, hemit, hbody⟩ := bind_eq_ok.mp hbody
    obtain ⟨rfl, -⟩ := Prod.mk.inj (pure_eq_ok.mp hbody)
    rw [Bool.and_eq_true, Bool.not_eq_true'] at hwithdrawn
    refine ⟨hscope, .item_written before _ .edited hemit (Or.inl ⟨command, rfl⟩) hbefore rfl rfl
      hprice (.edited _ _ (fun heq => ?_) hwithdrawn)⟩
    obtain ⟨hname, hdescription, hprice, havailable⟩ := CatalogFacts.menu_item.inj heq
    rcases hchanged with hne | hne | hne | hne
    · exact hne hname
    · exact hne hdescription
    · exact hne hprice
    · exact hne havailable
  · -- Nothing that the catalog shows has changed, so the row is written as it was.
    obtain ⟨rfl, -⟩ := Prod.mk.inj (pure_eq_ok.mp hbody)
    simp only [not_or, not_not] at hchanged
    obtain ⟨hname, hdescription, hprice, havailable⟩ := hchanged
    rw [hname, hdescription, hprice, havailable]
    exact ⟨hscope, .item_kept before (Or.inl ⟨command, rfl⟩) hbefore⟩

/-- Deleting a menu item withdraws one with order history, and removes any other with its recipe. -/
theorem delete_menu_item_ok {menu_item_id : ℕ}
    (h : delete_menu_item context menu_item_id draw db = .ok db') :
    context.restaurant_scope db.organization_id db.restaurant_id = true ∧
      CatalogWrite db draw context (.delete_menu_item context menu_item_id) db' := by
  obtain ⟨before, hfound, hbody⟩ := bind_eq_ok.mp h
  obtain ⟨_, -, hbody⟩ := bind_eq_ok.mp hbody
  obtain ⟨hscope, hbefore⟩ := get_menu_item_by_id_ok hfound
  obtain rfl := Keyed.lookup_key hbefore
  split_ifs at hbody with hhistory havailable
  · -- The item has a history and is still available: it is withdrawn.
    exact ⟨hscope, .item_written before _ .deactivated hbody (Or.inr rfl) hbefore rfl rfl (Or.inl rfl)
      (.deactivated _ _ havailable rfl)⟩
  · -- The item has been withdrawn before.
    rw [← pure_eq_ok.mp hbody, ← Bool.eq_false_of_not_eq_true havailable]
    exact ⟨hscope, .item_kept before (Or.inr rfl) hbefore⟩
  · -- The item has no history: it is removed and its last event says so.
    obtain ⟨db₁, hemit, hbody⟩ := bind_eq_ok.mp hbody
    have hdeleted := CatalogWrite.item_deleted before hbefore hemit
    obtain ⟨event, -, -, rfl⟩ := emit_change_ok hemit
    rw [← pure_eq_ok.mp hbody]
    dsimp only
    rw [@orders_unlinked db before.menu_item_id (Bool.eq_false_of_not_eq_true hhistory)]
    exact ⟨hscope, hdeleted⟩

end CatalogService

/-- Replacing a recipe writes the tracking of its item and exchanges the components. -/
theorem RecipesService.replace_ok {menu_item_id : ℕ} {command : ReplaceRecipe}
    (h : replace context menu_item_id command db = .ok db') :
    context.restaurant_scope db.organization_id db.restaurant_id = true ∧
      CatalogWrite db draw context (.replace_recipe context menu_item_id command) db' := by
  obtain ⟨item, hfound, h⟩ := bind_eq_ok.mp h
  obtain ⟨_, -, h⟩ := bind_eq_ok.mp h
  obtain ⟨_, hnodup, h⟩ := bind_eq_ok.mp h
  obtain ⟨_, -, h⟩ := bind_eq_ok.mp h
  obtain ⟨components, hcomponents, h⟩ := bind_eq_ok.mp h
  obtain ⟨_, hlength, h⟩ := bind_eq_ok.mp h
  obtain ⟨_, -, h⟩ := bind_eq_ok.mp h
  obtain ⟨hscope, hitem⟩ := get_menu_item_by_id_ok hfound
  obtain rfl := Keyed.lookup_key hitem
  rw [← pure_eq_ok.mp h]
  refine ⟨hscope, .recipe_replaced command item components hitem
    ⟨ensure_eq_ok.mp hnodup, ?_, ensure_eq_ok.mp hlength⟩⟩
  -- Every component has the quantity that the request gives for it.
  refine (mapM_eq_ok.mp hcomponents).imp fun input component hinput => ?_
  obtain ⟨number, hnumber, hinput⟩ := bind_eq_ok.mp hinput
  rw [← pure_eq_ok.mp hinput]
  exact ⟨rfl, rfl, (quantity_ok hnumber).2.2 rfl⟩

/-- A command of the catalog that returns has been sent within the scope of its caller, and has
written what `CatalogWrite` says. Each command is the service function of its name, whose lemma says
what it has written. -/
theorem exec_catalog_write {lib : Library} {command : Command} {response : Response}
    (hcommand : command.is_catalog = true) (h : exec lib command draw db = .ok (db', response)) :
    ∃ context, context.restaurant_scope db.organization_id db.restaurant_id = true ∧
      CatalogWrite db draw context command db' := by
  cases command with
  | create_menu context command =>
    obtain ⟨⟨db₁, menu⟩, hcreate, h⟩ := bind_eq_ok.mp h
    obtain ⟨rfl, -⟩ := Prod.mk.inj (pure_eq_ok.mp h)
    exact ⟨context, CatalogService.create_menu_ok hcreate⟩
  | update_menu context id command =>
    obtain ⟨⟨db₁, menu⟩, hupdate, h⟩ := bind_eq_ok.mp h
    obtain ⟨rfl, -⟩ := Prod.mk.inj (pure_eq_ok.mp h)
    exact ⟨context, CatalogService.update_menu_ok hupdate⟩
  | delete_menu context id =>
    obtain ⟨db₁, hdelete, h⟩ := bind_eq_ok.mp h
    obtain ⟨rfl, -⟩ := Prod.mk.inj (pure_eq_ok.mp h)
    exact ⟨context, CatalogService.delete_menu_ok hdelete⟩
  | create_menu_item context id command =>
    obtain ⟨⟨db₁, item⟩, hcreate, h⟩ := bind_eq_ok.mp h
    obtain ⟨rfl, -⟩ := Prod.mk.inj (pure_eq_ok.mp h)
    exact ⟨context, CatalogService.create_menu_item_ok hcreate⟩
  | update_menu_item context id command =>
    obtain ⟨⟨db₁, item⟩, hupdate, h⟩ := bind_eq_ok.mp h
    obtain ⟨rfl, -⟩ := Prod.mk.inj (pure_eq_ok.mp h)
    exact ⟨context, CatalogService.update_menu_item_ok hupdate⟩
  | delete_menu_item context id =>
    obtain ⟨db₁, hdelete, h⟩ := bind_eq_ok.mp h
    obtain ⟨rfl, -⟩ := Prod.mk.inj (pure_eq_ok.mp h)
    exact ⟨context, CatalogService.delete_menu_item_ok hdelete⟩
  | replace_recipe context id command =>
    obtain ⟨db₁, hreplace, h⟩ := bind_eq_ok.mp h
    obtain ⟨rfl, -⟩ := Prod.mk.inj (pure_eq_ok.mp h)
    exact ⟨context, RecipesService.replace_ok hreplace⟩
  | _ => cases hcommand

end RestaurantOS
