import RestaurantOS.Alerts.Convergence
import RestaurantOS.Analytics.Rebuild
import RestaurantOS.Inventory.LowStock
import RestaurantOS.Maintenance.Service

/-!
# Initialization

The operation `initialize` is a command on the inventory (`maintenance_initialization`), together with
a rebuild of the two projections in the same transaction. On the inventory it only adds baselines
(`Writes.baselines`); an alert projection that mirrors the restaurant is the exact image of its facts
after a rebuild (`Alerts.Mirrors.rebuild_exact`), and the totals of a rebuilt analytics projection are
those of the live orders (`Analytics.Rebuilt.authoritative`). -/

namespace RestaurantOS

open Fallible Inventory
open Events (DeliveryRecord EventEnvelope Payload)

/-! ## Baselines -/

namespace Inventory

/-- Initialization leaves the rows of an ingredient, but that a low one without an open episode gets
a suppressed baseline at its revision. -/
structure Baselined (before after : IngredientRecord) : Prop where
  /-- The row of the ingredient stays, its revision with it. -/
  item : after.item = before.item
  /-- The balance stays. -/
  balance : after.balance = before.balance
  /-- The movements stay. -/
  movements : after.movements = before.movements
  /-- The episodes stay, or a baseline is added. -/
  episodes : after.episodes = before.episodes ∨ ∃ episode : InventoryLowStockEpisode,
    after.episodes = before.episodes ++ [episode] ∧ before.is_low = true ∧
      unresolved before.episodes = none ∧ episode.notification_suppressed = true ∧
        episode.opening_source = .maintenance_initialization ∧
          episode.opening_revision = before.revision ∧ episode.resolved_at = none

/-- A record that is not written. -/
theorem Baselined.refl (record : IngredientRecord) : Baselined record record :=
  ⟨rfl, rfl, rfl, Or.inl rfl⟩

/-- A write of a baseline. -/
theorem Change.baselined {organization_id : UUID} {restaurant_id : ℕ} {episode_id : UUID}
    {old : Option IngredientRecord} {record' : IngredientRecord} {events : List (EventEnvelope Payload)}
    (h : Change organization_id restaurant_id episode_id old .baseline record' events) :
    events = [] ∧ ∃ record, old = some record ∧ Baselined record record' := by
  cases h with
  | baseline record balance hbalance hlow hnone opened_at =>
    exact ⟨rfl, record, rfl, rfl, rfl, rfl,
      Or.inr ⟨_, rfl, hlow, hnone, rfl, rfl, rfl, rfl⟩⟩

variable {db db₁ : Branch} {ws : List (ℕ × Purpose)}

/-- Writes of baselines change nothing but rows of ingredients, and add or remove none. -/
theorem Writes.baselines_frame (h : Writes db ws db₁)
    (hbaseline : ∀ id purpose, (id, purpose) ∈ ws → purpose = .baseline) :
    db₁ = { db with
      ingredients := db₁.ingredients
      next_uuid := db₁.next_uuid } ∧
    db₁.ingredients.map IngredientRecord.id = db.ingredients.map IngredientRecord.id := by
  induction h with
  | nil => exact ⟨rfl, rfl⟩
  | @snoc ws db₁ db₂ id purpose h hnew hwrite ih =>
    obtain ⟨hframe, hids⟩ :=
      ih fun id' purpose' hmem => hbaseline id' purpose' (List.mem_append_left _ hmem)
    obtain rfl : purpose = .baseline :=
      hbaseline id purpose (List.mem_append_right _ (List.mem_singleton.mpr rfl))
    cases hwrite with
    | insert hfresh hid hchange =>
      obtain ⟨-, record, hnone, -⟩ := hchange.baselined
      cases hnone
    | @update record hlookup record' events next_uuid hchange =>
      obtain ⟨rfl, -⟩ := hchange.baselined
      refine ⟨?_, (Keyed.keys_put record' db₁.ingredients).trans hids⟩
      rw [hframe]
      unfold Branch.write
      rw [List.append_nil]
      rfl

/-- Every ingredient is baselined. Every write of the transaction is a baseline. -/
theorem Writes.baselines (h : Writes db ws db₁) (hkeys : db.Keys)
    (hbaseline : ∀ id purpose, (id, purpose) ∈ ws → purpose = .baseline)
    {record : IngredientRecord} (hrecord : record ∈ db.ingredients) :
    ∃ record' ∈ db₁.ingredients, Baselined record record' := by
  have hlookup := hkeys.unique.lookup_eq_some.mpr ⟨hrecord, rfl⟩
  by_cases hid : record.id ∈ ws.map Prod.fst
  · obtain ⟨⟨id, purpose⟩, hmem, rfl : id = record.id⟩ := List.mem_map.mp hid
    obtain rfl := hbaseline _ _ hmem
    obtain ⟨record', events, episode_id, -, hlookup', hchange⟩ := h.change hkeys hmem
    obtain ⟨-, old, hold, hbaselined⟩ := hchange.baselined
    obtain rfl := Option.some.inj (hlookup.symm.trans hold)
    exact ⟨record', Keyed.lookup_mem hlookup', hbaselined⟩
  · rw [← h.lookup_of_not_mem hid] at hlookup
    exact ⟨record, Keyed.lookup_mem hlookup, .refl record⟩

end Inventory

/-- What the command `maintenance_initialization` does to a restaurant that is not initialized. -/
theorem maintenance_initialization_frame {organization_id : UUID} {draw : Draw} {db db' : Branch}
    (hkeys : db.Keys) (hfresh : db.initialized = false)
    (h : maintenance_initialization organization_id draw db = .ok db') :
    db' = { db with
      ingredients := db'.ingredients
      next_uuid := db'.next_uuid
      initialized := true } ∧
    db'.ingredients.map IngredientRecord.id = db.ingredients.map IngredientRecord.id ∧
    ∀ record ∈ db.ingredients, ∃ record' ∈ db'.ingredients, Baselined record record' := by
  rcases maintenance_initialization_writes hkeys h with ⟨htrue, -⟩ |
    ⟨-, ws, db₁, hwrites, hbaseline, -, rfl⟩
  · rw [hfresh] at htrue
    cases htrue
  · obtain ⟨hframe, hids⟩ := hwrites.baselines_frame hbaseline
    refine ⟨?_, hids, fun record hrecord => hwrites.baselines hkeys hbaseline hrecord⟩
    exact congrArg (fun db : Branch => { db with initialized := true }) hframe

namespace Maintenance

/-! ## The image of a restaurant -/

/-- The live state of an ingredient as a row of the alert projection. -/
def live_state (db : Branch) (record : IngredientRecord) (balance : InventoryBalance)
    (occurred_at : Timestamp) : Alerts.AlertIngredientState :=
  { organization_id := db.organization_id, restaurant_id := db.restaurant_id,
    ingredient_id := record.id, revision := record.revision, ingredient_name := record.item.name,
    unit := record.item.unit, quantity := balance.quantity,
    reorder_threshold := record.item.reorder_threshold, is_active := record.item.is_active,
    is_low := record.is_low,
    episode_id :=
      if record.is_low then (unresolved record.episodes).map (·.episode_id) else none,
    occurred_at := occurred_at }

/-- A loaded state is the live one. Both are built from the row, its balance and its open episode.
-/
theorem of_transition_load_state {db : Branch} {record : IngredientRecord} {balance : InventoryBalance}
    {current : InventoryTransition} (hbalance : record.balance = some balance)
    (h : load_state db db.organization_id record balance = .ok current) (occurred_at : Timestamp) :
    Alerts.AlertIngredientState.of_transition current occurred_at =
      live_state db record balance occurred_at := by
  obtain ⟨hstate, hepisode⟩ := load_state_ok h
  have hlow := is_low_eq hbalance db.organization_id db.restaurant_id
  unfold Alerts.AlertIngredientState.of_transition live_state
  rw [hstate, hepisode, hlow]
  rfl

/-- The loaded states of a restaurant are the live ones of the ingredients with a balance. -/
theorem mem_loaded_states {db : Branch} {states : List InventoryTransition}
    (h : load_inventory_restaurant_states db db.organization_id = .ok states)
    {row : Alerts.AlertIngredientState} {now : Timestamp} :
    (∃ current ∈ states, row = .of_transition current now) ↔
      ∃ record ∈ db.ingredients, ∃ balance ∈ record.balance, row = live_state db record balance now := by
  constructor
  · rintro ⟨current, hcurrent, rfl⟩
    obtain ⟨record, hrecord, balance, hbalance, hload⟩ := Alerts.loaded_state h hcurrent
    exact ⟨record, hrecord, balance, hbalance, of_transition_load_state hbalance hload now⟩
  · rintro ⟨record, hrecord, balance, hbalance, rfl⟩
    have hpair : (record, balance) ∈ db.ingredients.filterMap fun record =>
        record.balance.map fun balance => (record, balance) :=
      List.mem_filterMap.mpr ⟨record, hrecord, by rw [Option.mem_def.mp hbalance]; rfl⟩
    obtain ⟨current, hcurrent, hload⟩ := exists_of_mem_left (mapM_eq_ok.mp h) hpair
    exact ⟨current, hcurrent, (of_transition_load_state hbalance hload now).symm⟩

/-- What an initialization leaves of a restaurant that is not initialized. -/
structure Initialized (now : Timestamp) (before after : Database) : Prop where
  /-- The operation is recorded, as the first of its kind. -/
  operations : before.initialization = none ∧ ∃ operation : MaintenanceOperation,
    operation.kind = .initialization ∧ after.operations = before.operations ++ [operation]
  /-- An ingredient is low exactly if one episode is open. -/
  low : ∀ record ∈ after.rows.ingredients, (record.is_low = true ↔
    record.episodes.countP (fun episode => episode.resolved_at.isNone) = 1)
  /-- The ingredients are the same. -/
  ids : after.rows.ingredients.map IngredientRecord.id =
    before.rows.ingredients.map IngredientRecord.id
  /-- Only baselines are added to their rows. -/
  baselined : ∀ record ∈ before.rows.ingredients, ∃ record' ∈ after.rows.ingredients,
    Baselined record record'
  /-- Nothing else of the rows of the commands changes, the outbox among them. -/
  rows : after.rows = { before.rows with
    ingredients := after.rows.ingredients
    next_uuid := after.rows.next_uuid
    initialized := true }
  /-- The daily totals are those of the live completed orders. -/
  totals : ∀ day, after.analytics.daily day = Analytics.authoritative after.rows.orders day
  /-- The projected episodes are those of the restaurant, each once. -/
  episodes : Keyed.Unique Alerts.AlertEpisode.episode_id after.alerts.episodes ∧
    ∀ row, row ∈ after.alerts.episodes ↔
      ∃ episode ∈ Alerts.episodes after.rows, row = .of_facts episode
  /-- The projected states are the live ones of the ingredients with a balance, each once. -/
  states : Keyed.Unique Alerts.AlertIngredientState.ingredient_id after.alerts.states ∧
    ∀ row, row ∈ after.alerts.states ↔ ∃ record ∈ after.rows.ingredients,
      ∃ balance ∈ record.balance, row = live_state after.rows record balance now
  /-- The deliveries stay, with their attempts, replays and receipts. -/
  deliveries : after.deliveries = before.deliveries
  /-- The notification sink stays. -/
  sink : after.sink = before.sink

/-! ## What an operation does -/

/-- What an operation that returns has done. The cases say which rows it has read and what it
leaves. -/
inductive Ran (request : MaintenanceRequest) (draw : MaintenanceDraw) (database : Database) :
    Database → MaintenanceOutcome → Prop
  /-- The restaurant has been initialized before. -/
  | already (hkind : request.kind = .initialization)
      (hmarker : database.initialization.isSome = true) :
    Ran request draw database database .already_initialized
  /-- The restaurant is initialized. -/
  | initialized (hkind : request.kind = .initialization)
      (hmarker : database.rows.initialized = false) (analytics : Analytics.Projection)
      (hanalytics : Analytics.rebuild_analytics_projection request.organization_id
        request.restaurant_id database.rows.orders database.rows.events database.analytics =
          .ok analytics)
      (rows : Branch)
      (hrows : maintenance_initialization request.organization_id draw.draw database.rows = .ok rows)
      (alerts : Alerts.AlertProjection)
      (halerts : Alerts.rebuild rows request.organization_id draw.now database.alerts = .ok alerts)
      (operation : MaintenanceOperation) (hoperation : operation.kind = .initialization) :
    Ran request draw database
      { database with
        rows := rows
        analytics := analytics
        alerts := alerts
        operations := database.operations ++ [operation] } .completed
  /-- The analytics projection is rebuilt. -/
  | rebuilt (hkind : request.kind = .analytics_rebuild) (analytics : Analytics.Projection)
      (hanalytics : Analytics.rebuild_analytics_projection request.organization_id
        request.restaurant_id database.rows.orders database.rows.events database.analytics =
          .ok analytics)
      (operation : MaintenanceOperation) (hoperation : operation.kind = .analytics_rebuild) :
    Ran request draw database
      { database with
        analytics := analytics
        operations := database.operations ++ [operation] } .completed

/-- What the operation does. It finds the marker, or it initializes, or it rebuilds the analytics;
everything before the choice is a check. -/
theorem run_ran {text : Text} {request : MaintenanceRequest} {draw : MaintenanceDraw}
    {database database' : Database} {result : MaintenanceResult}
    (hmarked : database.rows.initialized = database.initialization.isSome)
    (h : EventMaintenanceService.run text request draw database = .ok (database', result)) :
    Ran request draw database database' result.outcome := by
  -- The scope, the lock and the readiness of the restaurant are checked in the order of the source.
  obtain ⟨_, -, h⟩ := bind_eq_ok.mp h
  obtain ⟨_, -, h⟩ := bind_eq_ok.mp h
  obtain ⟨_, -, h⟩ := bind_eq_ok.mp h
  obtain ⟨_, horganization, h⟩ := bind_eq_ok.mp h
  have horganization := ensure_eq_ok.mp horganization
  obtain ⟨states, hstates, h⟩ := bind_eq_ok.mp h
  split_ifs at h with hmarker
  · -- The marker is there, and nothing is written.
    obtain ⟨rfl, rfl⟩ := Prod.mk.inj (pure_eq_ok.mp h)
    exact .already hmarker.1 hmarker.2
  obtain ⟨_, hready, h⟩ := bind_eq_ok.mp h
  obtain ⟨analytics, hanalytics, h⟩ := bind_eq_ok.mp h
  cases hkind : request.kind with
  | initialization =>
    -- The marker of the branch and the row of the operation agree.
    have hfresh : database.rows.initialized = false := by
      rw [hmarked]
      simpa [hkind] using hmarker
    simp only [hkind] at h
    obtain ⟨initialized, hinitialized, h⟩ := bind_eq_ok.mp h
    obtain ⟨rows, hrows, hinitialized⟩ := bind_eq_ok.mp hinitialized
    obtain ⟨alerts, halerts, hinitialized⟩ := bind_eq_ok.mp hinitialized
    obtain rfl := pure_eq_ok.mp hinitialized
    obtain ⟨rfl, rfl⟩ := Prod.mk.inj (pure_eq_ok.mp h)
    -- The baselines are those of the command, and the marker is set with them.
    have hcommand : maintenance_initialization request.organization_id draw.draw database.rows =
        .ok { rows with initialized := true } := by
      unfold maintenance_initialization
      rw [ensure_bind horganization, ok_bind hstates, if_neg (by rw [hfresh]; exact Bool.false_ne_true)]
      exact ok_bind hrows _
    exact .initialized hkind hfresh analytics hanalytics _ hcommand alerts halerts _ rfl
  -- The other kind writes the analytics only.
  | analytics_rebuild =>
    simp only [hkind] at h
    obtain ⟨rebuilt, hrebuilt, h⟩ := bind_eq_ok.mp h
    obtain rfl := pure_eq_ok.mp hrebuilt
    obtain ⟨rfl, rfl⟩ := Prod.mk.inj (pure_eq_ok.mp h)
    exact .rebuilt hkind analytics hanalytics _ rfl

end Maintenance

end RestaurantOS
