import RestaurantOS.Catalog.Requests
import RestaurantOS.Orders.Changes

/-!
# What a command does

Every command that returns does one of seven things to the rows of its restaurant (`Effect`): it
replays an earlier request, writes ingredients, initializes the restaurant, changes the catalog, or
creates, updates or deletes an order. `exec_effect` is the only statement here about the code of the
services; the invariants of the restaurant are proved by cases on it. -/

namespace RestaurantOS

open Fallible Catalog Events Inventory Orders Tenancy

/-- The commands of the order service. Only they write orders. -/
def Command.is_order : Command → Bool
  | .create_order .. | .update_order .. | .delete_order .. => true
  | _ => false

/-- What a command does to the rows of its restaurant. -/
inductive Effect (db : Branch) : Command → Branch → Prop
  | replayed (command : Command) : Effect db command db
  | stock {command : Command} (hcommand : command.is_order = false)
      (ws : List (ℕ × Purpose)) {db' : Branch} (hwrites : Writes db ws db')
      (hdirect : ∀ id purpose, (id, purpose) ∈ ws → ∃ posting, purpose = .stock posting ∧
        ∀ movement ∈ posting, movement.is_direct) :
    Effect db command db'
  | initialized {command : Command} (hcommand : command.is_order = false)
      (hfresh : db.initialized = false) (ws : List (ℕ × Purpose)) {db₁ : Branch}
      (hwrites : Writes db ws db₁) (hbaseline : ∀ id purpose, (id, purpose) ∈ ws → purpose = .baseline)
      (hcovered : ∀ record ∈ db₁.ingredients, record.is_low = true →
        unresolved record.episodes ≠ none)
      (hmaintenance : ∃ organization_id, command = .maintenance_initialization organization_id) :
    Effect db command { db₁ with initialized := true }
  | catalog {command : Command} (hcommand : command.is_order = false)
      (events : List (EventEnvelope Payload)) {db' : Branch} (hrest : db.Rest db' events)
      (hevents : ∀ event ∈ events, ∃ operation target id menu_id affected,
        event.payload = .menu_updated operation target id menu_id affected)
      (horders : db'.orders = db.orders)
      (hnext : db'.next_order_id = db.next_order_id) (hinitialized : db'.initialized = db.initialized) :
    Effect db command db'
  | order_created {command : Command} (hcommand : command.is_order = true) (order : Order)
      (hfresh : db.next_order_id ≤ order.order_id) (hstatus : order.status = .DRAFT)
      (hprocessed : order.inventory_processed = false) (hrevision : order.revision = 1)
      {db' : Branch} (hrest : db.Rest db' []) (horders : db'.orders = db.orders ++ [order])
      (hnext : db'.next_order_id = order.order_id + 1)
      (hinitialized : db'.initialized = db.initialized) :
    Effect db command db'
  | order_updated {command : Command} (hcommand : command.is_order = true) (before after : Order)
      (hlookup : Keyed.lookup Order.order_id after.order_id db.orders = some before)
      (hupdated : Updated before after) (ws : List (ℕ × Purpose)) {db₁ : Branch}
      (hwrites : Writes db ws db₁) (haccepts : accepts before after → Consumes db before ws)
      (hother : ¬ accepts before after → ws = []) (events : List (EventEnvelope Payload))
      (hevents : StatusEvents before after events) {db' : Branch} (hrest : db₁.Rest db' events)
      (horders : db'.orders = Keyed.put Order.order_id after db.orders)
      (hnext : db'.next_order_id = db.next_order_id)
      (hinitialized : db'.initialized = db.initialized) :
    Effect db command db'
  | order_deleted {command : Command} (hcommand : command.is_order = true) (order : Order)
      (hlookup : Keyed.lookup Order.order_id order.order_id db.orders = some order)
      (hhistory : has_order_history db order.order_id = false) (event : EventEnvelope Payload)
      (hpayload : event.payload =
        .order_deleted order.order_id order.status order.total order.created_at)
      (hrevision : event.aggregate_revision = (order.revision + 1 : ℕ)) {db' : Branch}
      (hrest : db.Rest db' [event])
      (horders : db'.orders = db.orders.filter fun other => other.order_id ≠ order.order_id)
      (hnext : db'.next_order_id = db.next_order_id)
      (hinitialized : db'.initialized = db.initialized) :
    Effect db command db'

/-! ## The catalog -/

/-- A catalog change without an event. -/
theorem Effect.catalog_silent {db db' : Branch} {command : Command}
    (hcommand : command.is_order = false) (hrest : db.Rest db' []) (horders : db'.orders = db.orders)
    (hnext : db'.next_order_id = db.next_order_id) (hinitialized : db'.initialized = db.initialized) :
    Effect db command db' :=
  .catalog hcommand [] hrest (by simp) horders hnext hinitialized

/-- A catalog change with an event. It is the effect of a command that is none of the order service.
-/
theorem Effect.catalog_event {db db' : Branch} {command : Command} {event : EventEnvelope Payload}
    (hcommand : command.is_order = false) (hrest : db.Rest db' [event])
    (hevent : ∃ operation target id menu_id affected,
      event.payload = .menu_updated operation target id menu_id affected)
    (horders : db'.orders = db.orders)
    (hnext : db'.next_order_id = db.next_order_id) (hinitialized : db'.initialized = db.initialized) :
    Effect db command db' := by
  refine .catalog hcommand [event] hrest (fun e he => ?_) horders hnext hinitialized
  rw [List.mem_singleton.mp he]
  exact hevent

variable {db db' : Branch} {context : AccessContext} {draw : Draw}

/-- A command of the catalog changes nothing that the stock or the orders depend on. -/
theorem CatalogWrite.effect {command : Command} (h : CatalogWrite db draw context command db') :
    Effect db command db' := by
  have hcatalog : ∀ {c : Command} {id : ℕ}, (∃ data, c = .update_menu_item context id data) ∨
      c = .delete_menu_item context id → c.is_order = false := by
    rintro c id (⟨data, rfl⟩ | rfl)
    · rfl
    · rfl
  have hrest : db.Rest db [] := ⟨rfl, rfl, rfl, rfl, le_rfl, (List.append_nil _).symm⟩
  cases h with
  | menu_created _ _ _ hemit | menu_edited _ _ _ hemit | menu_deleted _ _ _ hemit
  | item_created _ _ _ _ _ _ hemit | item_deleted _ _ hemit =>
    obtain ⟨event, ⟨_, hevent⟩, -, rfl⟩ := emit_change_ok hemit
    exact .catalog_event rfl ⟨rfl, rfl, rfl, rfl, Nat.le_succ _, rfl⟩ ⟨_, _, _, _, _, hevent⟩ rfl rfl
      rfl
  | item_written _ _ _ hemit hcommand =>
    obtain ⟨event, ⟨_, hevent⟩, -, rfl⟩ := emit_change_ok hemit
    exact .catalog_event (hcatalog hcommand) ⟨rfl, rfl, rfl, rfl, Nat.le_succ _, rfl⟩
      ⟨_, _, _, _, _, hevent⟩ rfl rfl rfl
  -- Without an announcement nothing but the rows of the catalog is written.
  | menu_kept | recipe_replaced =>
    exact .catalog_silent rfl ⟨rfl, rfl, rfl, rfl, le_rfl, hrest.events⟩ rfl rfl rfl
  | item_kept _ hcommand =>
    exact .catalog_silent (hcatalog hcommand) ⟨rfl, rfl, rfl, rfl, le_rfl, hrest.events⟩ rfl rfl rfl

/-! ## Initialization -/

/-- A loaded state is the snapshot of its record, with its open episode. -/
theorem load_state_ok {organization_id : UUID} {record : IngredientRecord}
    {balance : InventoryBalance} {transition : InventoryTransition}
    (h : load_state db organization_id record balance = .ok transition) :
    transition.state =
        inventory_state_snapshot organization_id db.restaurant_id record.item balance ∧
      transition.episode_id = (unresolved record.episodes).map (·.episode_id) := by
  obtain ⟨hstate, -, -, hid⟩ := transition_snapshot_ok h
  refine ⟨hstate, hid.trans ?_⟩
  rw [Option.map_none, Option.or_none]
  rfl

/-- The loaded states are those of the ingredients with a balance. The service loads them in the
order of the records, and an ingredient without a balance is left out, for it has no state. -/
theorem load_inventory_restaurant_states_ok {organization_id : UUID}
    {states : List InventoryTransition} (hkeys : db.Keys)
    (h : load_inventory_restaurant_states db organization_id = .ok states) :
    (states.map (·.state.ingredient_id)).Nodup ∧
      (∀ transition ∈ states, ∃ record, Keyed.lookup IngredientRecord.id
          transition.state.ingredient_id db.ingredients = some record ∧
        transition.state.is_low = record.is_low ∧
        transition.episode_id = (unresolved record.episodes).map (·.episode_id)) ∧
      (∀ record ∈ db.ingredients, record.is_low = true →
        record.id ∈ states.map (·.state.ingredient_id)) := by
  have hall := mapM_eq_ok.mp h
  set pairs := db.ingredients.filterMap fun record => record.balance.map fun balance =>
    (record, balance) with hpairs
  -- The states and the pairs of rows that they are loaded from come in the same order.
  have hids : states.map (·.state.ingredient_id) = pairs.map (·.1.id) := by
    clear hpairs
    clear_value pairs
    clear h
    induction hall with
    | nil => rfl
    | cons hload hrest ih =>
      rw [List.map_cons, List.map_cons, ih, (load_state_ok hload).1]
      rfl
  have hmem : ∀ pair, pair ∈ pairs ↔ pair.1 ∈ db.ingredients ∧ pair.1.balance = some pair.2 := by
    intro pair
    rw [hpairs, List.mem_filterMap]
    constructor
    · rintro ⟨record, hrecord, hpair⟩
      obtain ⟨balance, hbalance, rfl⟩ := Option.map_eq_some_iff.mp hpair
      exact ⟨hrecord, hbalance⟩
    · rintro ⟨hrecord, hbalance⟩
      exact ⟨pair.1, hrecord, by rw [hbalance]; rfl⟩
  -- The keys differ as those of the records do.
  refine ⟨?_, ?_, ?_⟩
  · rw [hids, hpairs]
    refine (hkeys.unique).sublist ?_
    clear hpairs hids hmem hall h
    clear_value pairs
    induction db.ingredients with
    | nil => exact List.Sublist.refl _
    | cons record records ih =>
      cases hbalance : record.balance with
      | none =>
        rw [List.filterMap_cons_none (by rw [hbalance]; rfl)]
        exact ih.cons _
      | some balance =>
        rw [List.filterMap_cons_some (by rw [hbalance]; rfl)]
        exact ih.cons_cons _
  · -- A state has the level and the open episode of its record.
    intro transition htransition
    obtain ⟨⟨record, balance⟩, hpair, hload⟩ := exists_of_mem_right hall htransition
    obtain ⟨hrecord, hbalance⟩ := (hmem _).mp hpair
    obtain ⟨hstate, hid⟩ := load_state_ok hload
    refine ⟨record, hkeys.unique.lookup_eq_some.mpr ⟨hrecord, by rw [hstate]; rfl⟩, ?_, hid⟩
    unfold IngredientRecord.is_low
    simp only at hbalance
    rw [hstate, hbalance]
    rfl
  · -- A low ingredient has a balance, so it has been loaded.
    intro record hrecord hlow
    rw [hids]
    cases hbalance : record.balance with
    | none => simp [IngredientRecord.is_low, hbalance] at hlow
    | some balance => exact List.mem_map.mpr ⟨(record, balance), (hmem _).mpr ⟨hrecord, hbalance⟩, rfl⟩

/-- Initialization adds a baseline episode to every low ingredient without an open one, once. The
states are loaded once, before the first baseline, so the proof has to see that each row is still
the one that was loaded when its turn comes. -/
theorem maintenance_initialization_writes {organization_id : UUID} (hkeys : db.Keys)
    (h : maintenance_initialization organization_id draw db = .ok db') :
    (db.initialized = true ∧ db' = db) ∨ (db.initialized = false ∧ ∃ ws db₁, Writes db ws db₁ ∧
      (∀ id purpose, (id, purpose) ∈ ws → purpose = .baseline) ∧
      (∀ record ∈ db₁.ingredients, record.is_low = true → unresolved record.episodes ≠ none) ∧
      db' = { db₁ with initialized := true }) := by
  obtain ⟨_, horganization, h⟩ := bind_eq_ok.mp h
  obtain rfl := ensure_eq_ok.mp horganization
  obtain ⟨states, hstates, h⟩ := bind_eq_ok.mp h
  obtain ⟨hnodup, hstate, hlow⟩ := load_inventory_restaurant_states_ok hkeys hstates
  split_ifs at h with hinitialized
  · exact Or.inl ⟨hinitialized, (pure_eq_ok.mp h).symm⟩
  obtain ⟨db₁, hfold, h⟩ := bind_eq_ok.mp h
  obtain rfl := pure_eq_ok.mp h
  -- What holds when the states `done` are done: their ingredients are the only ones written, and
  -- those that are low have an open episode.
  let P (done : List InventoryTransition) (db₁ : Branch) : Prop :=
    ∃ ws, Writes db ws db₁ ∧ (∀ id purpose, (id, purpose) ∈ ws → purpose = .baseline) ∧
      (∀ id ∈ ws.map Prod.fst, id ∈ done.map (·.state.ingredient_id)) ∧
      ∀ id ∈ done.map (·.state.ingredient_id), ∀ record,
        Keyed.lookup IngredientRecord.id id db₁.ingredients = some record → record.is_low = true →
          unresolved record.episodes ≠ none
  have hdone : P states db₁ := by
    -- By induction along the fold: the next state is one whose ingredient has not been written.
    refine foldlM_invariant P hfold ⟨[], .nil, by simp, by simp, by simp⟩ ?_
    rintro done transition db₁ db₂ hmem hpart ⟨ws, hwrites, hnone, hids, hcovered⟩ hbody
    set id := transition.state.ingredient_id with hid
    have hnew : id ∉ done.map (·.state.ingredient_id) := by
      have hpart := hnodup.sublist (hpart.sublist.map _)
      rw [List.map_append, List.nodup_append] at hpart
      exact fun hmem => hpart.2.2 _ hmem _ (by simp [hid]) rfl
    have hids' : ∀ ws' : List (ℕ × Purpose), ws' = ws ∨ ws' = ws ++ [(id, .baseline)] →
        ∀ id' ∈ ws'.map Prod.fst, id' ∈ (done ++ [transition]).map (·.state.ingredient_id) := by
      rintro ws' (rfl | rfl) id' hid'
      · rw [List.map_append]
        exact List.mem_append_left _ (hids id' hid')
      · rw [List.map_append, List.mem_append] at hid' ⊢
        rcases hid' with hid' | hid'
        · exact Or.inl (hids id' hid')
        · exact Or.inr (by simpa [hid] using hid')
    -- So its row is the loaded one.
    obtain ⟨record, hlookup, hislow, hepisode⟩ := hstate transition hmem
    have hsame := hwrites.lookup_of_not_mem fun hmem => hnew (hids id hmem)
    rw [hlookup] at hsame
    have hcovered' : ∀ db₂ : Branch, (∀ id' ≠ id, Keyed.lookup IngredientRecord.id id'
          db₂.ingredients = Keyed.lookup IngredientRecord.id id' db₁.ingredients) →
        (∀ record, Keyed.lookup IngredientRecord.id id db₂.ingredients = some record →
          record.is_low = true → unresolved record.episodes ≠ none) →
        ∀ id' ∈ (done ++ [transition]).map (·.state.ingredient_id), ∀ record,
          Keyed.lookup IngredientRecord.id id' db₂.ingredients = some record →
            record.is_low = true → unresolved record.episodes ≠ none := by
      intro db₂ hframe hself id' hid' record hlookup
      by_cases heq : id' = id
      · exact hself record (heq ▸ hlookup)
      · rw [hframe id' heq] at hlookup
        rw [List.map_append, List.mem_append] at hid'
        rcases hid' with hid' | hid'
        · exact hcovered id' hid' record hlookup
        · exact absurd (by simpa [hid] using hid') heq
    split_ifs at hbody with hcase
    · -- The loaded state is low without an episode: a baseline is recorded, unless the row says
      -- otherwise.
      rw [← hwrites.frame.organization_id] at hbody
      obtain ⟨record', hlookup', hbaseline⟩ := record_baseline_inventory_episode_ok hbody
      obtain rfl : record = record' := Option.some.inj (hsame.symm.trans hlookup')
      rcases hbaseline with ⟨-, -, hwrite, record', hlookup', hopen⟩ | ⟨hneither, rfl⟩
      · refine ⟨ws ++ [(id, .baseline)], .snoc hwrites (fun hmem => hnew (hids id hmem)) hwrite, ?_,
          hids' _ (Or.inr rfl), hcovered' db₂ (fun id' hne => hwrite.lookup_ne hne) ?_⟩
        · intro id' purpose hmem
          rcases List.mem_append.mp hmem with hmem | hmem
          · exact hnone id' purpose hmem
          · exact (Prod.mk.inj (List.mem_singleton.mp hmem)).2
        · intro record₂ hlookup₂ _
          rw [hlookup'] at hlookup₂
          rw [← Option.some.inj hlookup₂]
          exact hopen
      · refine ⟨ws, hwrites, hnone, hids' _ (Or.inl rfl), hcovered' db₂ (fun _ _ => rfl) ?_⟩
        intro record₂ hlookup₂ hlow₂ hnone₂
        obtain rfl := Option.some.inj (hsame.symm.trans hlookup₂)
        exact hneither ⟨hnone₂, hlow₂⟩
    · -- It is not: the row is not low or has an open episode.
      rw [← pure_eq_ok.mp hbody]
      refine ⟨ws, hwrites, hnone, hids' _ (Or.inl rfl), hcovered' db₁ (fun _ _ => rfl) ?_⟩
      intro record₂ hlookup₂ hlow₂ hnone₂
      obtain rfl := Option.some.inj (hsame.symm.trans hlookup₂)
      exact hcase ⟨hislow.trans hlow₂, by rw [hepisode, hnone₂]; rfl⟩
  obtain ⟨ws, hwrites, hnone, hids, hcovered⟩ := hdone
  refine Or.inr ⟨by simpa using hinitialized, ws, db₁, hwrites, hnone, ?_, rfl⟩
  intro record hrecord hrecordlow
  have hlookup := (hwrites.keys hkeys).unique.lookup_eq_some.mpr ⟨hrecord, rfl⟩
  by_cases hdone : record.id ∈ states.map (·.state.ingredient_id)
  · exact hcovered record.id hdone record hlookup hrecordlow
  · -- An ingredient that is not among the states is as it was, and not low.
    rw [hwrites.lookup_of_not_mem fun hmem => hdone (hids _ hmem)] at hlookup
    exact absurd (hlow record (Keyed.lookup_mem hlookup) hrecordlow) hdone

/-- Initialization is a replay or an initialization. -/
theorem maintenance_initialization_ok {organization_id : UUID} (hkeys : db.Keys)
    (h : maintenance_initialization organization_id draw db = .ok db') :
    Effect db (.maintenance_initialization organization_id) db' := by
  rcases maintenance_initialization_writes hkeys h with ⟨-, rfl⟩ |
    ⟨hfresh, ws, db₁, hwrites, hnone, hcovered, rfl⟩
  · exact .replayed _
  · exact .initialized rfl hfresh ws hwrites hnone hcovered ⟨organization_id, rfl⟩

/-! ## Every command -/

/-- A command that returns does what `Effect` says. The case split over the services is made here
once, and no later lemma looks into them. -/
theorem exec_effect {lib : Library} {command : Command} {response : Response} (hkeys : db.Keys)
    (hrange : ∀ record ∈ db.ingredients, ∀ balance ∈ record.balance,
      0 ≤ balance.quantity ∧ balance.quantity ≤ MAX_QUANTITY)
    (h : exec lib command draw db = .ok (db', response)) : Effect db command db' := by
  -- The three inventory services write to one ingredient each.
  have hsingle : ∀ {c : Command} {id posting} {db' : Branch}, c.is_order = false →
      Write db id (.stock posting) db' → (∀ movement ∈ posting, movement.is_direct) →
        Effect db c db' := by
    intro c id posting db' hc hwrite hdirect
    refine .stock hc [(id, .stock posting)] hwrite.writes fun id' purpose hmem => ?_
    exact ⟨posting, (Prod.mk.inj (List.mem_singleton.mp hmem)).2, hdirect⟩
  cases command with
  | create_ingredient context data =>
    obtain ⟨⟨db₁, view⟩, hcreate, h⟩ := bind_eq_ok.mp h
    obtain ⟨rfl, -⟩ := Prod.mk.inj (pure_eq_ok.mp h)
    obtain ⟨-, opening, threshold, -, -, ⟨-, rfl⟩ | ⟨-, movement, -, -, -, -, hdirect, hwrite⟩⟩ :=
      InventoryService.create_ok hkeys hcreate
    · exact .replayed _
    · exact hsingle rfl hwrite fun m hm => by rwa [← Option.mem_some_iff.mp hm]
  | update_ingredient context id data =>
    obtain ⟨⟨db₁, view⟩, hupdate, h⟩ := bind_eq_ok.mp h
    obtain ⟨rfl, -⟩ := Prod.mk.inj (pure_eq_ok.mp h)
    exact hsingle rfl (InventoryService.update_ok hupdate) (by simp)
  | change_stock context id data =>
    obtain ⟨⟨db₁, movement⟩, hchange, h⟩ := bind_eq_ok.mp h
    obtain ⟨rfl, -⟩ := Prod.mk.inj (pure_eq_ok.mp h)
    obtain ⟨record, kind, amount, -, -, -, -, -, ⟨-, rfl⟩ | ⟨-, -, -, hdirect, hwrite⟩⟩ :=
      InventoryService.change_ok hchange
    · exact .replayed _
    · exact hsingle rfl hwrite fun m hm => by rwa [← Option.mem_some_iff.mp hm]
  | create_order context command =>
    obtain ⟨⟨db₁, snapshot⟩, hcreate, h⟩ := bind_eq_ok.mp h
    obtain ⟨rfl, -⟩ := Prod.mk.inj (pure_eq_ok.mp h)
    rcases OrderService.create_ok hcreate with ⟨-, rfl⟩ |
      ⟨-, order, hfresh, hstatus, hprocessed, hrevision, hrest, horders, hnext, hinitialized, -⟩
    · exact .replayed _
    · exact .order_created rfl order hfresh hstatus hprocessed hrevision hrest horders hnext
        hinitialized
  | update_order context id command =>
    obtain ⟨⟨db₁, after⟩, hupdate, h⟩ := bind_eq_ok.mp h
    obtain ⟨rfl, -⟩ := Prod.mk.inj (pure_eq_ok.mp h)
    obtain ⟨before, ws, db₂, events, hlookup, hupdated, hwrites, haccepts, hother, hevents, hrest,
      horders, hnext, hinitialized, -⟩ := OrderService.update_ok hrange hupdate
    have hid : after.order_id = id := hupdated.order_id.trans (Keyed.lookup_key hlookup)
    exact .order_updated rfl before after (hid ▸ hlookup) hupdated ws hwrites haccepts hother events
      hevents hrest horders hnext hinitialized
  | delete_order context id =>
    obtain ⟨db₁, hdelete, h⟩ := bind_eq_ok.mp h
    obtain ⟨rfl, -⟩ := Prod.mk.inj (pure_eq_ok.mp h)
    obtain ⟨order, event, hlookup, hhistory, hpayload, hrevision, hrest, horders, hnext,
      hinitialized, -⟩ := OrderService.delete_ok hdelete
    obtain rfl : order.order_id = id := Keyed.lookup_key hlookup
    exact .order_deleted rfl order hlookup hhistory event hpayload hrevision hrest horders hnext
      hinitialized
  -- The catalog and recipe services share one description of what they write.
  | create_menu | update_menu | delete_menu | create_menu_item | update_menu_item
  | delete_menu_item | replace_recipe =>
    obtain ⟨context, -, hwrite⟩ := exec_catalog_write rfl h
    exact hwrite.effect
  | maintenance_initialization organization_id =>
    obtain ⟨db₁, hmaintenance, h⟩ := bind_eq_ok.mp h
    obtain ⟨rfl, -⟩ := Prod.mk.inj (pure_eq_ok.mp h)
    exact maintenance_initialization_ok hkeys hmaintenance

end RestaurantOS
