import RestaurantOS.Catalog.Reads
import RestaurantOS.Envelopes

/-!
# What the lists show

The list of menus of a restaurant and the list of items of a menu show the stored fields of rows. A
command changes the rows of menus and menu items in one of a few ways (`ListChange`), so a list shows
after a command what it showed before, or the command invalidates its key (`ListChange.menus_kept`,
`ListChange.items_kept`): the other changes are of fields that are read live. -/

namespace RestaurantOS

open Fallible Catalog Inventory MenuCache Orders Reads Tenancy

namespace Branch

/-- The stored fields of an item. They are what the response shows, apart from what the recipe makes
available. -/
def cached_item (db : Branch) (item : MenuItem) : CachedMenuItem :=
  ⟨item.menu_item_id, item.menu_id, db.restaurant_id, item.name, item.description, item.price,
    item.is_available⟩

/-- The menus of the restaurant. They are in the form in which the cache stores them. -/
def listed_menus (db : Branch) : List CachedMenu := db.menus.map (menu_response db)

/-- The items of a menu. They are in the form in which the cache stores them. -/
def listed_items (db : Branch) (menu_id : ℕ) : List CachedMenuItem :=
  (db.menu_items.filter fun item => item.menu_id = menu_id).map db.cached_item

end Branch

variable {lib : Library} {command : Command} {context : AccessContext} {draw : Draw}
  {db db' : Branch} {response : Response}

/-- A restaurant in scope is one of the organization. -/
theorem organization_of_scope (h : context.restaurant_scope db.organization_id db.restaurant_id = true) :
    db.organization_id = context.organization_id := by
  simp only [AccessContext.restaurant_scope, Bool.and_eq_true, decide_eq_true_eq] at h
  exact h.1

/-! ## What commands do to the rows -/

/-- What a command does to the rows of menus and menu items. -/
inductive ListChange (db : Branch) (command : Command) (db' : Branch) : Prop
  | kept (hmenus : db'.menus = db.menus) (hitems : db'.menu_items = db.menu_items)
      (hnext : db'.next_menu_item_id = db.next_menu_item_id)
  | menus (context : AccessContext) (horganization : db.organization_id = context.organization_id)
      (hcommand : (∃ data, command = .create_menu context data) ∨
        (∃ id data, command = .update_menu context id data) ∨
        ∃ id, command = .delete_menu context id)
      (hitems : db'.menu_items = db.menu_items)
      (hnext : db'.next_menu_item_id = db.next_menu_item_id)
  | inserted (context : AccessContext) (horganization : db.organization_id = context.organization_id)
      (item : MenuItem) (data : CreateMenuItem)
      (hmenus : db'.menus = db.menus) (hitems : db'.menu_items = db.menu_items ++ [item])
      (hcommand : command = .create_menu_item context item.menu_id data)
      (hfresh : db.next_menu_item_id ≤ item.menu_item_id)
      (hnext : db'.next_menu_item_id = item.menu_item_id + 1)
  | tracking (before : MenuItem) (inventory_tracking : Bool)
      (hbefore : Keyed.lookup MenuItem.menu_item_id before.menu_item_id db.menu_items = some before)
      (hmenus : db'.menus = db.menus)
      (hitems : db'.menu_items = Keyed.put MenuItem.menu_item_id
        { before with inventory_tracking := inventory_tracking } db.menu_items)
      (hnext : db'.next_menu_item_id = db.next_menu_item_id)
  | written (context : AccessContext) (horganization : db.organization_id = context.organization_id)
      (before after : MenuItem)
      (hcommand : (∃ data, command = .update_menu_item context before.menu_item_id data) ∨
        command = .delete_menu_item context before.menu_item_id)
      (hbefore : Keyed.lookup MenuItem.menu_item_id before.menu_item_id db.menu_items = some before)
      (hmenus : db'.menus = db.menus)
      (hitems : db'.menu_items = Keyed.put MenuItem.menu_item_id after db.menu_items)
      (hid : after.menu_item_id = before.menu_item_id) (hmenu : after.menu_id = before.menu_id)
      (hnext : db'.next_menu_item_id = db.next_menu_item_id)
  | removed (context : AccessContext) (horganization : db.organization_id = context.organization_id)
      (before : MenuItem) (hcommand : command = .delete_menu_item context before.menu_item_id)
      (hbefore : Keyed.lookup MenuItem.menu_item_id before.menu_item_id db.menu_items = some before)
      (hmenus : db'.menus = db.menus)
      (hitems : db'.menu_items =
        db.menu_items.filter fun item => item.menu_item_id ≠ before.menu_item_id)
      (hnext : db'.next_menu_item_id = db.next_menu_item_id)

/-- A command of the catalog changes the lists in one of these ways. -/
theorem CatalogWrite.list_change
    (hscope : context.restaurant_scope db.organization_id db.restaurant_id = true)
    (h : CatalogWrite db draw context command db') : ListChange db command db' := by
  have horganization := organization_of_scope hscope
  cases h with
  -- Creations, edits and deletions of menus change their list.
  | menu_created data _ _ hemit =>
    obtain ⟨event, -, -, rfl⟩ := emit_change_ok hemit
    exact .menus context horganization (Or.inl ⟨data, rfl⟩) rfl rfl
  | menu_edited data before _ hemit =>
    obtain ⟨event, -, -, rfl⟩ := emit_change_ok hemit
    exact .menus context horganization (Or.inr (Or.inl ⟨before.menu_id, data, rfl⟩)) rfl rfl
  | menu_kept data menu =>
    exact .menus context horganization (Or.inr (Or.inl ⟨menu.menu_id, data, rfl⟩)) rfl rfl
  | menu_deleted menu _ _ hemit =>
    obtain ⟨event, -, -, rfl⟩ := emit_change_ok hemit
    exact .menus context horganization (Or.inr (Or.inr ⟨menu.menu_id, rfl⟩)) rfl rfl
  -- The commands of menu items change the list of their menu.
  | item_created data _ item _ _ hfresh hemit =>
    obtain ⟨event, -, -, rfl⟩ := emit_change_ok hemit
    exact .inserted context horganization item data rfl rfl rfl hfresh rfl
  | item_written before after _ hemit hcommand hbefore hid hmenu =>
    obtain ⟨event, -, -, rfl⟩ := emit_change_ok hemit
    exact .written context horganization before after hcommand hbefore rfl rfl hid hmenu rfl
  | item_kept item hcommand hitem =>
    exact .written context horganization item item hcommand hitem rfl rfl rfl rfl rfl
  | item_deleted item hitem hemit =>
    obtain ⟨event, -, -, rfl⟩ := emit_change_ok hemit
    exact .removed context horganization item rfl hitem rfl rfl rfl
  -- A recipe writes only the tracking of its item, which the list does not show.
  | recipe_replaced data item _ hitem => exact .tracking item _ hitem rfl rfl rfl

/-- What a command that returns does to the rows of menus and menu items. -/
theorem exec_list_change (hsane : db.Sane) (h : exec lib command draw db = .ok (db', response)) :
    ListChange db command db' := by
  cases hcommand : command.is_catalog with
  | false =>
    have hkept := exec_catalog_kept hsane hcommand h
    exact .kept hkept.menus hkept.menu_items hkept.next_menu_item_id
  | true =>
    obtain ⟨context, hscope, hwrite⟩ := exec_catalog_write hcommand h
    exact hwrite.list_change hscope

/-! ## What the lists show after a command -/

/-- The key of the menus is invalidated where they change. -/
theorem ListChange.menus_kept (h : ListChange db command db') (services : Services)
    (restaurant_id : ℕ) :
    db'.menus = db.menus ∨ services.key db.organization_id restaurant_id ∈
      services.invalidated_keys restaurant_id db command := by
  cases h with
  | kept hmenus => exact Or.inl hmenus
  | menus context horganization hcommand =>
    rw [horganization]
    -- Each of the three commands invalidates the key of the list first.
    rcases hcommand with ⟨data, rfl⟩ | ⟨id, data, rfl⟩ | ⟨id, rfl⟩
    · exact Or.inr List.mem_cons_self
    · exact Or.inr List.mem_cons_self
    · exact Or.inr List.mem_cons_self
  | inserted _ _ _ _ hmenus => exact Or.inl hmenus
  | tracking _ _ _ hmenus => exact Or.inl hmenus
  | written _ _ _ _ _ _ hmenus => exact Or.inl hmenus
  | removed _ _ _ _ _ hmenus => exact Or.inl hmenus

/-- The key of the items of a menu is invalidated where what their list shows changes. -/
theorem ListChange.items_kept (h : ListChange db command db')
    (hunique : Keyed.Unique MenuItem.menu_item_id db.menu_items) (services : Services)
    (restaurant_id menu_id : ℕ) :
    (db'.menu_items.filter fun item => item.menu_id = menu_id).map db.cached_item =
        db.listed_items menu_id ∨
      services.menu_items_key db.organization_id menu_id ∈
        services.invalidated_keys restaurant_id db command := by
  unfold Branch.listed_items
  cases h with
  | kept _ hitems => exact Or.inl (by rw [hitems])
  | menus _ _ _ hitems => exact Or.inl (by rw [hitems])
  -- An inserted item shows in the list of its own menu, whose key is invalidated.
  | inserted context horganization item data _ hitems hcommand =>
    by_cases hmenu : item.menu_id = menu_id
    · rw [horganization, hcommand, ← hmenu]
      exact Or.inr List.mem_cons_self
    · rw [hitems, List.filter_append, List.filter_cons_of_neg (by simpa using hmenu), List.filter_nil,
        List.append_nil]
      exact Or.inl rfl
  -- The tracking of an item is not part of what the list shows.
  | tracking before inventory_tracking hbefore _ hitems =>
    rw [hitems]
    generalize hafter : { before with inventory_tracking := inventory_tracking } = after
    have hkey : after.menu_item_id = before.menu_item_id := by rw [← hafter]
    refine Or.inl (Keyed.map_filter_put hunique (hkey ▸ hbefore) ?_ fun _ => ?_)
    · rw [← hafter]
    · rw [← hafter]
      rfl
  -- An item that is written stays in its menu, so only the list of this menu changes.
  | written context horganization before after hcommand hbefore _ hitems hid hmenu =>
    by_cases heq : before.menu_id = menu_id
    · rw [horganization, ← heq]
      refine Or.inr ?_
      rcases hcommand with ⟨data, rfl⟩ | rfl
      · simp [Services.invalidated_keys, hbefore]
      · simp [Services.invalidated_keys, hbefore]
    · rw [hitems]
      refine Or.inl (Keyed.map_filter_put hunique (hid ▸ hbefore) ?_ fun htrue => ?_)
      · rw [hmenu]
      · exact absurd (of_decide_eq_true htrue) heq
  -- A removed item leaves the list of its menu only.
  | removed context horganization before hcommand hbefore _ hitems =>
    by_cases heq : before.menu_id = menu_id
    · rw [horganization, ← heq, hcommand]
      simp [Services.invalidated_keys, hbefore]
    · refine Or.inl ?_
      rw [hitems, List.filter_filter]
      congr 1
      refine List.filter_congr fun item hitem => ?_
      by_cases hid : item.menu_item_id = before.menu_item_id
      · obtain rfl := hunique.eq_of_key hitem (Keyed.lookup_mem hbefore) hid
        simp [heq]
      · simp [hid]

/-- The keys of the menu items stay unique and below the next one. -/
theorem ListChange.unique (h : ListChange db command db')
    (hunique : Keyed.Unique MenuItem.menu_item_id db.menu_items)
    (hbelow : ∀ item ∈ db.menu_items, item.menu_item_id < db.next_menu_item_id) :
    Keyed.Unique MenuItem.menu_item_id db'.menu_items ∧
      ∀ item ∈ db'.menu_items, item.menu_item_id < db'.next_menu_item_id := by
  -- Writing a row under the key of a stored one keeps the bound.
  have hput : ∀ after before : MenuItem, before ∈ db.menu_items →
      after.menu_item_id = before.menu_item_id →
      ∀ item ∈ Keyed.put MenuItem.menu_item_id after db.menu_items,
        item.menu_item_id < db.next_menu_item_id := by
    intro after before hbefore hid item hitem
    rcases Keyed.mem_put hitem with ⟨hitem, -⟩ | rfl
    · exact hbelow item hitem
    · rw [hid]
      exact hbelow before hbefore
  cases h with
  | kept _ hitems hnext =>
    rw [hitems, hnext]
    exact ⟨hunique, hbelow⟩
  | menus _ _ _ hitems hnext =>
    rw [hitems, hnext]
    exact ⟨hunique, hbelow⟩
  -- The new key comes from the sequence.
  | inserted _ _ item _ _ hitems _ hfresh hnext =>
    rw [hitems, hnext]
    refine ⟨hunique.append fun other hother => ?_, fun other hother => ?_⟩
    · have := hbelow other hother
      omega
    · rcases List.mem_append.mp hother with hother | hother
      · have := hbelow other hother
        omega
      · rw [List.mem_singleton.mp hother]
        omega
  | tracking before _ hbefore _ hitems hnext =>
    rw [hitems, hnext]
    exact ⟨hunique.put _, hput _ before (Keyed.lookup_mem hbefore) rfl⟩
  | written _ _ before after _ hbefore _ hitems hid _ hnext =>
    rw [hitems, hnext]
    exact ⟨hunique.put _, hput after before (Keyed.lookup_mem hbefore) hid⟩
  | removed _ _ before _ hbefore _ hitems hnext =>
    rw [hitems, hnext]
    exact ⟨hunique.filter _, fun item hitem => hbelow item (List.mem_filter.mp hitem).1⟩

/-! ## Rows along a run -/

/-- What holds of the rows of a restaurant after commands on the rows that it started with. -/
structure Branch.Listed (origin db : Branch) : Prop where
  /-- The keys of the ingredients are in order, and their balances in range. -/
  sane : db.Sane
  /-- The prices are those that their column admits. -/
  prices : db.PricesValid
  /-- The keys of the menu items are unique. -/
  unique : Keyed.Unique MenuItem.menu_item_id db.menu_items
  /-- The sequence has passed the keys of the menu items. -/
  below : ∀ item ∈ db.menu_items, item.menu_item_id < db.next_menu_item_id
  /-- The organization is the same. -/
  organization_id : db.organization_id = origin.organization_id
  /-- The restaurant is the same. -/
  restaurant_id : db.restaurant_id = origin.restaurant_id

/-- The rows at the start. -/
theorem Catalog.Reads.ListedBranch.listed (start : ListedBranch) : start.toBranch.Listed start.toBranch :=
  ⟨start.toLegacyBranch.sane, start.prices, start.legacy.menu_items, start.legacy.menu_items_below, rfl,
    rfl⟩

/-- A command keeps this. -/
theorem Branch.Listed.exec {origin : Branch} (hlisted : origin.Listed db)
    (h : RestaurantOS.exec lib command draw db = .ok (db', response)) : origin.Listed db' := by
  have happends := exec_appends command _ h
  obtain ⟨hunique, hbelow⟩ := (exec_list_change hlisted.sane h).unique hlisted.unique hlisted.below
  exact ⟨(exec_effect hlisted.sane.keys hlisted.sane.range h).sane hlisted.sane,
    exec_prices hlisted.sane hlisted.prices h, hunique, hbelow,
    happends.organization_id.trans hlisted.organization_id,
    happends.restaurant_id.trans hlisted.restaurant_id⟩

/-- The statement of `list_menus` in scope. -/
theorem list_menus_of_scope
    (h : context.restaurant_scope db.organization_id db.restaurant_id = true) :
    list_menus_for_restaurant db context = db.listed_menus := if_pos h

/-- The statement of `list_menu_items` in scope. -/
theorem list_menu_items_of_scope (menu_id : ℕ)
    (h : context.restaurant_scope db.organization_id db.restaurant_id = true) :
    list_menu_items_for_menu db context menu_id =
      db.menu_items.filter fun item => item.menu_id = menu_id := if_pos h

end RestaurantOS
