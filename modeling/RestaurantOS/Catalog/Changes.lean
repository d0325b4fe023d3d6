import RestaurantOS.Idempotency
import RestaurantOS.Outbox

/-!
# What a command does to the catalog

The catalog shows a menu or a menu item by its name and description, and an item by its price and
availability too. A command leaves all of this as it is and announces nothing, or it changes what the
catalog shows of one subject and appends one event about it (`CatalogEffect`). Only the six commands
on menus and menu items do the latter; `exec_catalog_effect` puts the commands together. -/

namespace RestaurantOS

open Fallible Catalog Events Inventory Orders Tenancy

namespace Events

/-- The menu or the menu item that an event is about. -/
def Payload.catalog_id (target : CatalogTarget) : Payload → Option ℕ
  | menu_updated _ target' id _ _ => if target' = target then some id else none
  | _ => none

/-- The operation that an event announces. Only `menu.updated.v1` announces one. -/
def Payload.operation : Payload → Option CatalogOperation
  | menu_updated operation .. => some operation
  | _ => none

/-- An event about an ingredient is not about the catalog. -/
theorem Payload.catalog_id_of_ingredient {payload : Payload} {id : ℕ} (target : CatalogTarget)
    (h : payload.ingredient_id = some id) : payload.catalog_id target = none := by
  cases payload <;> first | rfl | cases h

/-- An event about an order is not about the catalog. -/
theorem Payload.catalog_id_of_order {payload : Payload} {id : ℕ} (target : CatalogTarget)
    (h : payload.order_id = some id) : payload.catalog_id target = none := by
  cases payload <;> first | rfl | cases h

end Events

namespace Branch

/-- What the catalog shows under a key. It is `none` where there is no row, and does not depend on
other rows. -/
def catalog_facts (db : Branch) : CatalogTarget → ℕ → Option CatalogFacts
  | .menu, id => (Keyed.lookup Menu.menu_id id db.menus).map Menu.facts
  | .menu_item, id => (Keyed.lookup MenuItem.menu_item_id id db.menu_items).map MenuItem.facts

/-- The key that the sequence gives next. It has never been used before. -/
def next_catalog_id (db : Branch) : CatalogTarget → ℕ
  | .menu => db.next_menu_id
  | .menu_item => db.next_menu_item_id

/-- The events about a menu or a menu item. -/
def catalog_events (db : Branch) (target : CatalogTarget) (id : ℕ) : List (EventEnvelope Payload) :=
  about (Payload.catalog_id target) id db.events

/-- The catalog is as before, and nothing is announced about it. -/
structure CatalogKept (db db' : Branch) : Prop where
  /-- The menus. -/
  menus : db'.menus = db.menus
  /-- The menu items. -/
  menu_items : db'.menu_items = db.menu_items
  /-- The key of the next menu. -/
  next_menu_id : db'.next_menu_id = db.next_menu_id
  /-- The key of the next menu item. -/
  next_menu_item_id : db'.next_menu_item_id = db.next_menu_item_id
  /-- The events about the catalog. -/
  events : ∀ target id, db'.catalog_events target id = db.catalog_events target id

/-- Nothing changes by itself. -/
theorem CatalogKept.refl (db : Branch) : db.CatalogKept db := ⟨rfl, rfl, rfl, rfl, fun _ _ => rfl⟩

/-- Two changes that leave the catalog as it is. -/
theorem CatalogKept.trans {db₁ db₂ db₃ : Branch} (h₁ : db₁.CatalogKept db₂)
    (h₂ : db₂.CatalogKept db₃) : db₁.CatalogKept db₃ :=
  ⟨h₂.1.trans h₁.1, h₂.2.trans h₁.2, h₂.3.trans h₁.3, h₂.4.trans h₁.4,
    fun target id => (h₂.5 target id).trans (h₁.5 target id)⟩

/-- Events about other subjects than the catalog. They do not concern the history of any subject of
it. -/
theorem catalog_events_append {db db' : Branch} {events : List (EventEnvelope Payload)}
    (h : db'.events = db.events ++ events)
    (hevents : ∀ event ∈ events, ∀ target, event.payload.catalog_id target = none)
    (target : CatalogTarget) (id : ℕ) :
    db'.catalog_events target id = db.catalog_events target id := by
  have hnone : about (Payload.catalog_id target) id events = [] := by
    refine about_eq_nil fun event hevent heq => ?_
    rw [hevents event hevent target] at heq
    cases heq
  unfold catalog_events
  rw [h, about_append, hnone, List.append_nil]

end Branch

/-! ## What a request does to the catalog -/

/-- An event announces a change of a menu or a menu item, under the next revision of its events. -/
structure AnnouncesChange (db : Branch) (target : CatalogTarget) (id : ℕ) (operation : CatalogOperation)
    (event : EventEnvelope Payload) : Prop where
  /-- The operation. -/
  operation : event.payload.operation = some operation
  /-- The subject, and no other. -/
  subject : ∀ target', event.payload.catalog_id target' = if target = target' then some id else none
  /-- The revision. -/
  revision : event.aggregate_revision = next_catalog_revision db target id

/-- What a request does to the catalog: nothing, or it changes one subject and announces it. -/
inductive CatalogEffect (db db' : Branch) : Prop
  | kept (hnext : ∀ target, db'.next_catalog_id target = db.next_catalog_id target)
      (hfacts : ∀ target id, db'.catalog_facts target id = db.catalog_facts target id)
      (hevents : ∀ target id, db'.catalog_events target id = db.catalog_events target id)
  | changed (target : CatalogTarget) (id : ℕ) (operation : CatalogOperation)
      (event : EventEnvelope Payload) (hevent : AnnouncesChange db target id operation event)
      (hevents : db'.events = db.events ++ [event])
      (hnext : ∀ target, db.next_catalog_id target ≤ db'.next_catalog_id target)
      (hothers : ∀ target' id', ¬ (target' = target ∧ id' = id) →
        db'.catalog_facts target' id' = db.catalog_facts target' id')
      (hstep : CatalogStep (db.catalog_facts target id) (db'.catalog_facts target id) [operation])
      (hfresh : db.catalog_facts target id = none →
        db.next_catalog_id target ≤ id ∧ id < db'.next_catalog_id target)

/-- Where the rows of the catalog are as before, so is what it shows. -/
theorem Branch.CatalogKept.effect {db db' : Branch} (h : db.CatalogKept db') :
    CatalogEffect db db' := by
  refine .kept (fun target => ?_) (fun target id => ?_) h.events
  · cases target
    · exact h.next_menu_id
    · exact h.next_menu_item_id
  · cases target
    · exact congrArg (fun rows => (Keyed.lookup Menu.menu_id id rows).map Menu.facts) h.menus
    · exact congrArg (fun rows => (Keyed.lookup MenuItem.menu_item_id id rows).map MenuItem.facts)
        h.menu_items

namespace Inventory

/-- A write to an ingredient leaves the catalog as it is. -/
theorem Write.catalog_kept {db db' : Branch} {id : ℕ} {purpose : Purpose}
    (h : Write db id purpose db') : db.CatalogKept db' := by
  have habout : ∀ {old record' events}, Change db.organization_id db.restaurant_id db.next_uuid old
      purpose record' events → ∀ event ∈ events, ∀ target, event.payload.catalog_id target = none :=
    fun hchange event hevent target =>
      Payload.catalog_id_of_ingredient target (hchange.about event hevent)
  cases h with
  | insert hfresh hid hchange hnext hepisodes =>
    exact ⟨rfl, rfl, rfl, rfl, Branch.catalog_events_append rfl (habout hchange)⟩
  | update hlookup hchange hnext hepisodes =>
    exact ⟨rfl, rfl, rfl, rfl, Branch.catalog_events_append rfl (habout hchange)⟩

/-- Writes to ingredients leave the catalog as it is. -/
theorem Writes.catalog_kept {db db' : Branch} {ws : List (ℕ × Purpose)} (h : Writes db ws db') :
    db.CatalogKept db' :=
  h.invariant (.refl db) fun _ _ _ _ hwrite hkept => hkept.trans hwrite.catalog_kept

end Inventory

variable {db db' : Branch} {context : AccessContext} {draw : Draw}

/-! ## Orders and initialization -/

/-- Creating an order leaves the catalog as it is. It writes orders and submissions only. -/
theorem OrderService.create_catalog {lib : Library} {command : CreateOrder} {snapshot : OrderSnapshot}
    (h : create lib context command draw db = .ok (db', snapshot)) : db.CatalogKept db' := by
  obtain ⟨_, -, h⟩ := bind_eq_ok.mp h
  obtain ⟨_, -, h⟩ := bind_eq_ok.mp h
  obtain ⟨_, -, h⟩ := bind_eq_ok.mp h
  cases hreplay : submission db command.idempotency_key with
  -- A replay writes nothing.
  | some found =>
    simp only [hreplay] at h
    obtain ⟨_, -, h⟩ := bind_eq_ok.mp h
    obtain ⟨rfl, -⟩ := Prod.mk.inj (pure_eq_ok.mp h)
    exact .refl db
  | none =>
    simp only [hreplay] at h
    obtain ⟨⟨lines, subtotal⟩, -, h⟩ := bind_eq_ok.mp h
    obtain ⟨_, -, h⟩ := bind_eq_ok.mp h
    obtain ⟨_, -, h⟩ := bind_eq_ok.mp h
    obtain ⟨rfl, -⟩ := Prod.mk.inj (pure_eq_ok.mp h)
    -- A new order is written next to the catalog, and no event is appended.
    exact ⟨rfl, rfl, rfl, rfl, fun _ _ => rfl⟩

/-- Updating an order leaves the catalog as it is. It writes the order, its items and stock, and
events about these. -/
theorem OrderService.update_catalog {lib : Library} {order_id : ℕ} {command : UpdateOrder}
    {after : Order} (hsane : db.Sane)
    (h : update lib context order_id command draw db = .ok (db', after)) : db.CatalogKept db' := by
  obtain ⟨before, db₁, order₁, order₂, db₂, order₃, hbefore, -, hstatus, -, hitems, -, -, hevents⟩ :=
    update_parts h
  obtain ⟨horganization, -⟩ := get_order_or_error_ok hbefore
  -- The stock that an acceptance consumes is written to the ingredients.
  have hstock : db.CatalogKept db₁ := by
    obtain ⟨-, hcase⟩ := update_status_ok horganization hsane.range hstatus
    rcases hcase with ⟨-, -, -, ws, hwrites, -⟩ | ⟨-, -, rfl⟩
    · exact hwrites.catalog_kept
    · exact .refl db₁
  obtain ⟨⟨n, rfl⟩, -⟩ := update_items_ok hitems
  obtain ⟨events, next_uuid, -, hannounced, rfl⟩ := append_status_ok hevents
  -- The event of the status is about the order, hence about no subject of the catalog.
  refine hstock.trans ⟨rfl, rfl, rfl, rfl, Branch.catalog_events_append rfl fun event hevent target => ?_⟩
  exact Payload.catalog_id_of_order target (hannounced.about event hevent)

/-- Deleting an order leaves the catalog as it is. It writes the order, the link of its submission,
and an event about it. -/
theorem OrderService.delete_catalog {order_id : ℕ}
    (h : delete context order_id draw db = .ok db') : db.CatalogKept db' := by
  obtain ⟨order, -, h⟩ := bind_eq_ok.mp h
  obtain ⟨_, -, h⟩ := bind_eq_ok.mp h
  obtain ⟨_, -, h⟩ := bind_eq_ok.mp h
  obtain ⟨revision, -, h⟩ := bind_eq_ok.mp h
  obtain ⟨db₁, happend, h⟩ := bind_eq_ok.mp h
  obtain ⟨event, hpayload, -, -, rfl⟩ := Branch.append_ok happend
  rw [← pure_eq_ok.mp h]
  refine ⟨rfl, rfl, rfl, rfl, Branch.catalog_events_append rfl fun e he target => ?_⟩
  rw [List.mem_singleton.mp he, hpayload]
  rfl

/-- The initialization of a restaurant leaves the catalog as it is. -/
theorem maintenance_initialization_catalog {organization_id : UUID} (hsane : db.Sane)
    (h : maintenance_initialization organization_id draw db = .ok db') : db.CatalogKept db' := by
  rcases maintenance_initialization_writes hsane.keys h with ⟨-, rfl⟩ |
    ⟨-, ws, db₁, hwrites, -, -, rfl⟩
  · exact .refl db'
  · exact hwrites.catalog_kept.trans ⟨rfl, rfl, rfl, rfl, fun _ _ => rfl⟩

/-! ## The catalog -/

namespace Catalog

/-- The event of a change announces it; the rows that the change has written before do not matter for
the revision. -/
theorem emit_change_event (db : Branch) {db₁ : Branch} {menu_id : ℕ} {operation : CatalogOperation}
    {item : Option MenuItem} (h : emit_change db₁ draw context menu_id operation item = .ok db')
    (hevents : db₁.events = db.events) :
    ∃ event : EventEnvelope Payload,
      AnnouncesChange db (subject menu_id item).1 (subject menu_id item).2 operation event ∧
        db' = { db₁ with
          events := db.events ++ [event]
          next_uuid := db₁.next_uuid + 1 } := by
  obtain ⟨event, ⟨affected, hpayload⟩, hrevision, rfl⟩ := emit_change_ok h
  refine ⟨event, ⟨by rw [hpayload]; rfl, fun target => by rw [hpayload]; rfl, ?_⟩, by rw [hevents]⟩
  unfold next_catalog_revision at hrevision ⊢
  rw [hrevision, hevents]

variable {operation : CatalogOperation} {event : EventEnvelope Payload}

/-- The announced change of a menu. Nothing else in the catalog has changed. -/
theorem menu_changed (menu_id : ℕ) (before after : Option Menu)
    (hevent : AnnouncesChange db .menu menu_id operation event)
    (hevents : db'.events = db.events ++ [event]) (hitems : db'.menu_items = db.menu_items)
    (hnext_item : db'.next_menu_item_id = db.next_menu_item_id)
    (hnext : db.next_menu_id ≤ db'.next_menu_id)
    (hbefore : Keyed.lookup Menu.menu_id menu_id db.menus = before)
    (hafter : Keyed.lookup Menu.menu_id menu_id db'.menus = after)
    (hothers : ∀ id, id ≠ menu_id →
      Keyed.lookup Menu.menu_id id db'.menus = Keyed.lookup Menu.menu_id id db.menus)
    (hstep : CatalogStep (before.map Menu.facts) (after.map Menu.facts) [operation])
    (hfresh : before = none → db.next_menu_id ≤ menu_id ∧ menu_id < db'.next_menu_id) :
    CatalogEffect db db' := by
  have hfacts : ∀ db : Branch, db.catalog_facts .menu menu_id =
      (Keyed.lookup Menu.menu_id menu_id db.menus).map Menu.facts := fun _ => rfl
  refine .changed .menu menu_id operation event hevent hevents ?_ ?_ ?_ ?_
  · -- The sequences of both tables only move on.
    intro target
    cases target
    · exact hnext
    · exact hnext_item.ge
  · -- The facts of the other subjects: other menus by hypothesis, and every menu item.
    intro target id hne
    cases target
    · exact congrArg (Option.map Menu.facts) (hothers id fun heq => hne ⟨rfl, heq⟩)
    · exact congrArg (fun rows => (Keyed.lookup MenuItem.menu_item_id id rows).map MenuItem.facts)
        hitems
  · rwa [hfacts, hfacts, hbefore, hafter]
  · -- A menu that appears has a key of the sequence.
    intro hnone
    rw [hfacts, hbefore] at hnone
    exact hfresh (Option.map_eq_none_iff.mp hnone)

/-- The announced change of a menu item. Nothing else in the catalog has changed. -/
theorem menu_item_changed (menu_item_id : ℕ) (before after : Option MenuItem)
    (hevent : AnnouncesChange db .menu_item menu_item_id operation event)
    (hevents : db'.events = db.events ++ [event]) (hmenus : db'.menus = db.menus)
    (hnext_menu : db'.next_menu_id = db.next_menu_id)
    (hnext : db.next_menu_item_id ≤ db'.next_menu_item_id)
    (hbefore : Keyed.lookup MenuItem.menu_item_id menu_item_id db.menu_items = before)
    (hafter : Keyed.lookup MenuItem.menu_item_id menu_item_id db'.menu_items = after)
    (hothers : ∀ id, id ≠ menu_item_id → Keyed.lookup MenuItem.menu_item_id id db'.menu_items =
      Keyed.lookup MenuItem.menu_item_id id db.menu_items)
    (hstep : CatalogStep (before.map MenuItem.facts) (after.map MenuItem.facts) [operation])
    (hfresh : before = none →
      db.next_menu_item_id ≤ menu_item_id ∧ menu_item_id < db'.next_menu_item_id) :
    CatalogEffect db db' := by
  have hfacts : ∀ db : Branch, db.catalog_facts .menu_item menu_item_id =
      (Keyed.lookup MenuItem.menu_item_id menu_item_id db.menu_items).map MenuItem.facts :=
    fun _ => rfl
  refine .changed .menu_item menu_item_id operation event hevent hevents ?_ ?_ ?_ ?_
  · -- The sequences of both tables only move on.
    intro target
    cases target
    · exact hnext_menu.ge
    · exact hnext
  · -- The facts of the other subjects: every menu, and other menu items by hypothesis.
    intro target id hne
    cases target
    · exact congrArg (fun rows => (Keyed.lookup Menu.menu_id id rows).map Menu.facts) hmenus
    · exact congrArg (Option.map MenuItem.facts) (hothers id fun heq => hne ⟨rfl, heq⟩)
  · rwa [hfacts, hfacts, hbefore, hafter]
  · intro hnone
    rw [hfacts, hbefore] at hnone
    exact hfresh (Option.map_eq_none_iff.mp hnone)

/-- A menu is written with an announced change. Its facts after the change are those that the event
announces. -/
theorem menu_edited {before after : Menu} {next_uuid : UUID}
    (hlookup : Keyed.lookup Menu.menu_id after.menu_id db.menus = some before)
    (hevent : AnnouncesChange db .menu after.menu_id .edited event) (hchanged : after.facts ≠ before.facts) :
    CatalogEffect db { db with
      menus := Keyed.put Menu.menu_id after db.menus
      events := db.events ++ [event]
      next_uuid := next_uuid } := by
  refine menu_changed after.menu_id (some before) (some after) hevent rfl rfl rfl le_rfl hlookup
    (Keyed.lookup_put_self hlookup) (fun id hne => Keyed.lookup_put_ne hne db.menus)
    (.edited _ _ hchanged ?_) (fun hnone => by cases hnone)
  rintro ⟨-, hwithdrawn⟩
  cases hwithdrawn

/-- A menu is written again as it was. No event is emitted, and no fact changes. -/
theorem menu_kept {before after : Menu}
    (hlookup : Keyed.lookup Menu.menu_id after.menu_id db.menus = some before)
    (hfacts : after.facts = before.facts) :
    CatalogEffect db { db with menus := Keyed.put Menu.menu_id after db.menus } := by
  refine .kept (fun target => by cases target <;> rfl) (fun target id => ?_) fun _ _ => rfl
  cases target with
  | menu_item => rfl
  | menu =>
    by_cases hid : id = after.menu_id
    · rw [hid]
      simp only [Branch.catalog_facts, Keyed.lookup_put_self hlookup, hlookup, Option.map_some, hfacts]
    · exact congrArg (Option.map Menu.facts) (Keyed.lookup_put_ne hid db.menus)

/-- A menu item is written with an announced change. Its facts after the change are those that the
event announces. -/
theorem menu_item_edited {before after : MenuItem} {next_uuid : UUID}
    (hlookup : Keyed.lookup MenuItem.menu_item_id after.menu_item_id db.menu_items = some before)
    (hevent : AnnouncesChange db .menu_item after.menu_item_id operation event)
    (hstep : CatalogStep (some before.facts) (some after.facts) [operation]) :
    CatalogEffect db { db with
      menu_items := Keyed.put MenuItem.menu_item_id after db.menu_items
      events := db.events ++ [event]
      next_uuid := next_uuid } :=
  menu_item_changed after.menu_item_id (some before) (some after) hevent rfl rfl rfl le_rfl hlookup
    (Keyed.lookup_put_self hlookup) (fun id hne => Keyed.lookup_put_ne hne db.menu_items) hstep
    (fun hnone => by cases hnone)

/-- A menu item is written again without a change that the catalog shows. -/
theorem menu_item_kept {before after : MenuItem} {recipe_components : List RecipeComponent}
    (hlookup : Keyed.lookup MenuItem.menu_item_id after.menu_item_id db.menu_items = some before)
    (hfacts : after.facts = before.facts) :
    CatalogEffect db { db with
      menu_items := Keyed.put MenuItem.menu_item_id after db.menu_items
      recipe_components := recipe_components } := by
  refine .kept (fun target => by cases target <;> rfl) (fun target id => ?_) fun _ _ => rfl
  cases target with
  | menu => rfl
  | menu_item =>
    by_cases hid : id = after.menu_item_id
    · rw [hid]
      simp only [Branch.catalog_facts, Keyed.lookup_put_self hlookup, hlookup, Option.map_some, hfacts]
    · exact congrArg (Option.map MenuItem.facts) (Keyed.lookup_put_ne hid db.menu_items)

end Catalog

/-- The sequences have passed the keys of the catalog. -/
structure Branch.CatalogKeys (db : Branch) : Prop where
  /-- The keys of the menus. -/
  menus : ∀ menu ∈ db.menus, menu.menu_id < db.next_menu_id
  /-- The keys of the menu items. -/
  menu_items : ∀ item ∈ db.menu_items, item.menu_item_id < db.next_menu_item_id

/-- What a command of the catalog that returns does to what the catalog shows. -/
theorem CatalogWrite.catalog_effect {command : Command} (hkeys : db.CatalogKeys)
    (h : CatalogWrite db draw context command db') : CatalogEffect db db' := by
  cases h with
  -- Its key is taken from the sequence, so no menu had it before.
  | menu_created data menu hfresh hemit =>
    obtain ⟨event, hevent, rfl⟩ := emit_change_event db hemit rfl
    have hnone : Keyed.lookup Menu.menu_id menu.menu_id db.menus = none :=
      Keyed.lookup_eq_none.mpr fun other hother => ((hkeys.menus other hother).trans_le hfresh).ne
    refine menu_changed menu.menu_id none (some menu) hevent rfl rfl rfl (hfresh.trans (Nat.le_succ _))
      hnone ?_ (fun id hne => ?_) (.created _) fun _ => ⟨hfresh, Nat.lt_succ_self _⟩
    · rw [Keyed.lookup_append, hnone, Option.none_or, if_pos rfl]
    · rw [Keyed.lookup_append, if_neg (Ne.symm hne), Option.or_none]
  -- The menu is written under its own key, with other facts.
  | menu_edited data before after hemit hbefore hid hchanged =>
    obtain ⟨event, hevent, rfl⟩ := emit_change_event db hemit rfl
    rw [← hid] at hbefore hevent
    exact Catalog.menu_edited hbefore hevent hchanged
  | menu_kept data menu hmenu => exact Catalog.menu_kept hmenu rfl
  -- The empty menu is removed, and its last event says so.
  | menu_deleted menu hmenu hempty hemit =>
    obtain ⟨event, hevent, rfl⟩ := emit_change_event db hemit rfl
    exact menu_changed menu.menu_id (some menu) none hevent rfl rfl rfl le_rfl hmenu
      (Keyed.lookup_remove_self _ _) (fun id hne => Keyed.lookup_remove_ne hne db.menus) (.deleted _)
      (fun hnone => by cases hnone)
  -- As for a menu, the key is a new one.
  | item_created data menu item hmenu hprice hfresh hemit =>
    obtain ⟨event, hevent, rfl⟩ := emit_change_event db hemit rfl
    have hnone : Keyed.lookup MenuItem.menu_item_id item.menu_item_id db.menu_items = none :=
      Keyed.lookup_eq_none.mpr fun other hother =>
        ((hkeys.menu_items other hother).trans_le hfresh).ne
    refine menu_item_changed item.menu_item_id none (some item) hevent rfl rfl rfl
      (hfresh.trans (Nat.le_succ _)) hnone ?_ (fun id hne => ?_) (.created _)
      fun _ => ⟨hfresh, Nat.lt_succ_self _⟩
    · rw [Keyed.lookup_append, hnone, Option.none_or, if_pos rfl]
    · rw [Keyed.lookup_append, if_neg (Ne.symm hne), Option.or_none]
  -- An edit or a withdrawal of an item, according to its operation.
  | item_written before after operation hemit hcommand hbefore hid hmenu hprice hstep =>
    obtain ⟨event, hevent, rfl⟩ := emit_change_event db hemit rfl
    rw [← hid] at hbefore
    exact menu_item_edited hbefore hevent hstep
  | item_kept item hcommand hitem => exact menu_item_kept hitem rfl
  -- The item is removed, and its last event says so.
  | item_deleted item hitem hemit =>
    obtain ⟨event, hevent, rfl⟩ := emit_change_event db hemit rfl
    exact menu_item_changed item.menu_item_id (some item) none hevent rfl rfl rfl le_rfl hitem
      (Keyed.lookup_remove_self _ _) (fun id hne => Keyed.lookup_remove_ne hne db.menu_items)
      (.deleted _) (fun hnone => by cases hnone)
  -- The catalog does not show whether an item is tracked.
  | recipe_replaced data item components hitem =>
    rw [show item.menu_item_id = MenuItem.menu_item_id
      { item with inventory_tracking := data.inventory_tracking } from rfl] at hitem
    exact menu_item_kept hitem rfl

/-- A command that is not of the catalog leaves it as it is. -/
theorem exec_catalog_kept {lib : Library} {command : Command} {response : Response} (hsane : db.Sane)
    (hcommand : command.is_catalog = false)
    (h : exec lib command draw db = .ok (db', response)) : db.CatalogKept db' := by
  -- Direct changes of the stock write the ingredients and their events.
  cases command with
  | create_ingredient context data =>
    obtain ⟨⟨db₁, view⟩, hcreate, h⟩ := bind_eq_ok.mp h
    obtain ⟨rfl, -⟩ := Prod.mk.inj (pure_eq_ok.mp h)
    obtain ⟨-, opening, threshold, -, -, ⟨-, rfl⟩ | ⟨-, movement, -, -, -, -, -, hwrite⟩⟩ :=
      InventoryService.create_ok hsane.keys hcreate
    · exact .refl _
    · exact hwrite.catalog_kept
  | update_ingredient context id data =>
    obtain ⟨⟨db₁, view⟩, hupdate, h⟩ := bind_eq_ok.mp h
    obtain ⟨rfl, -⟩ := Prod.mk.inj (pure_eq_ok.mp h)
    exact (InventoryService.update_ok hupdate).catalog_kept
  | change_stock context id data =>
    obtain ⟨⟨db₁, movement⟩, hchange, h⟩ := bind_eq_ok.mp h
    obtain ⟨rfl, -⟩ := Prod.mk.inj (pure_eq_ok.mp h)
    obtain ⟨record, kind, amount, -, -, -, -, -, ⟨-, rfl⟩ | ⟨-, -, -, -, hwrite⟩⟩ :=
      InventoryService.change_ok hchange
    · exact .refl _
    · exact hwrite.catalog_kept
  -- The requests to the order service.
  | create_order context command =>
    obtain ⟨⟨db₁, snapshot⟩, hcreate, h⟩ := bind_eq_ok.mp h
    obtain ⟨rfl, -⟩ := Prod.mk.inj (pure_eq_ok.mp h)
    exact OrderService.create_catalog hcreate
  | update_order context id command =>
    obtain ⟨⟨db₁, after⟩, hupdate, h⟩ := bind_eq_ok.mp h
    obtain ⟨rfl, -⟩ := Prod.mk.inj (pure_eq_ok.mp h)
    exact OrderService.update_catalog hsane hupdate
  | delete_order context id =>
    obtain ⟨db₁, hdelete, h⟩ := bind_eq_ok.mp h
    obtain ⟨rfl, -⟩ := Prod.mk.inj (pure_eq_ok.mp h)
    exact OrderService.delete_catalog hdelete
  -- The initialization writes baselines for the stock and nothing else.
  | maintenance_initialization organization_id =>
    obtain ⟨db₁, hinitialize, h⟩ := bind_eq_ok.mp h
    obtain ⟨rfl, -⟩ := Prod.mk.inj (pure_eq_ok.mp h)
    exact maintenance_initialization_catalog hsane hinitialize
  | _ => cases hcommand

/-- A command that returns does to the catalog what `CatalogEffect` says. -/
theorem exec_catalog_effect {lib : Library} {command : Command} {response : Response} (hsane : db.Sane)
    (hkeys : db.CatalogKeys) (h : exec lib command draw db = .ok (db', response)) :
    CatalogEffect db db' := by
  cases hcommand : command.is_catalog with
  | false => exact (exec_catalog_kept hsane hcommand h).effect
  | true =>
    obtain ⟨context, -, hwrite⟩ := exec_catalog_write hcommand h
    exact hwrite.catalog_effect hkeys

/-! ## Prices -/

/-- The prices of the menu items are valid. -/
def Branch.PricesValid (db : Branch) : Prop := ∀ item ∈ db.menu_items, price_valid item.price

/-- The small restaurant has a valid price. -/
theorem Branch.small_prices : Branch.small.PricesValid := by
  norm_num [Branch.PricesValid, Branch.small, price_valid, MAX_MENU_PRICE, has_decimal_places]

/-- Every command keeps the prices valid. Only two commands write a price, and each has validated
it. -/
theorem exec_prices {lib : Library} {command : Command} {response : Response} (hsane : db.Sane)
    (hprices : db.PricesValid) (h : exec lib command draw db = .ok (db', response)) :
    db'.PricesValid := by
  -- Replacing a row by one with a valid price.
  have hput : ∀ item : MenuItem, price_valid item.price →
      ∀ other ∈ Keyed.put MenuItem.menu_item_id item db.menu_items, price_valid other.price := by
    intro item hitem other hother
    rcases Keyed.mem_put hother with ⟨hmem, -⟩ | rfl
    · exact hprices other hmem
    · exact hitem
  cases hcommand : command.is_catalog with
  -- The command is not of the catalog.
  | false =>
    intro item hitem
    rw [(exec_catalog_kept hsane hcommand h).menu_items] at hitem
    exact hprices item hitem
  -- Every write of the catalog stores a price that was stored before or has been checked.
  | true =>
    obtain ⟨context, -, hwrite⟩ := exec_catalog_write hcommand h
    cases hwrite with
    | menu_created _ _ _ hemit | menu_edited _ _ _ hemit | menu_deleted _ _ _ hemit =>
      obtain ⟨event, -, -, rfl⟩ := emit_change_ok hemit
      exact hprices
    | menu_kept => exact hprices
    | item_created _ _ item _ hprice _ hemit =>
      obtain ⟨event, -, -, rfl⟩ := emit_change_ok hemit
      intro other hother
      rcases List.mem_append.mp hother with hother | hother
      · exact hprices other hother
      · rw [List.mem_singleton.mp hother]
        exact hprice
    | item_written before after _ hemit _ hbefore _ _ hprice =>
      obtain ⟨event, -, -, rfl⟩ := emit_change_ok hemit
      -- The price is the one before or has been checked.
      refine hput after (hprice.elim (fun hsame => ?_) id)
      rw [hsame]
      exact hprices before (Keyed.lookup_mem hbefore)
    | item_kept item _ hitem => exact hput item (hprices item (Keyed.lookup_mem hitem))
    | item_deleted item _ hemit =>
      obtain ⟨event, -, -, rfl⟩ := emit_change_ok hemit
      exact fun other hother => hprices other (List.mem_filter.mp hother).1
    | recipe_replaced _ item _ hitem => exact hput _ (hprices item (Keyed.lookup_mem hitem) :)

end RestaurantOS
