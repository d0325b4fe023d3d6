import Mathlib.Data.List.TakeWhile
import RestaurantOS.Alerts.Convergence
import RestaurantOS.Idempotency

/-!
# The tables of the inventory accept what the service writes

The migrations put check constraints on the tables of the inventory and a trigger on
`inventory_low_stock_episodes`: an episode keeps its opening, is resolved once, and is never deleted.
The service does not rely on them. Every row of a reachable state meets the constraints, and every
command changes the rows as the trigger allows (`inventory_rows_accepted`), so neither ever fails a
transaction. -/

namespace RestaurantOS

open Fallible Catalog Events Inventory Orders Tenancy

namespace Inventory

/-! ## The constraints -/

/-- `length(trim(text)) > 0` fails. PostgreSQL trims blanks and no other white space. -/
def blank (text : String) : Bool := text.toList.all (· = ' ')

/-- The range of a quantity. It is that of the columns with three decimal places. -/
def in_range (value : ℚ) : Prop := 0 ≤ value ∧ value ≤ MAX_QUANTITY

/-- Bounds are compared. -/
instance (value : ℚ) : Decidable (in_range value) := inferInstanceAs (Decidable (_ ∧ _))

/-- The check constraints of `inventory_ingredients`. They are the range of the threshold and the
first revision. -/
def Ingredient.constraints (item : Ingredient) : Prop :=
  in_range item.reorder_threshold ∧ 1 ≤ item.state_revision

/-- The check constraints of `inventory_balances`. They are the first version and the range of the
quantity. -/
def InventoryBalance.constraints (balance : InventoryBalance) : Prop :=
  1 ≤ balance.version ∧ in_range balance.quantity

/-- The resolution of an episode is complete, or there is none. -/
def InventoryLowStockEpisode.resolution_complete (episode : InventoryLowStockEpisode) : Prop :=
  (episode.resolved_at = none ∧ episode.resolution_reason = none ∧ episode.closing_quantity = none ∧
    episode.closing_reorder_threshold = none ∧ episode.closing_is_active = none ∧
    episode.resolution_revision = none ∧ episode.resolution_source = none ∧
    episode.resolution_actor_user_id = none ∧ episode.resolution_order_id = none) ∨
  (episode.resolved_at.isSome ∧ episode.resolution_reason.isSome ∧ episode.closing_quantity.isSome ∧
    episode.closing_reorder_threshold.isSome ∧ episode.closing_is_active.isSome ∧
    episode.resolution_revision.isSome ∧ episode.resolution_source.isSome)

/-- The check constraints of `inventory_low_stock_episodes`. The resolution is complete or absent,
and lies after the opening. -/
def InventoryLowStockEpisode.constraints (episode : InventoryLowStockEpisode) : Prop :=
  0 < episode.restaurant_id ∧ 0 < episode.ingredient_id ∧ blank episode.ingredient_name = false ∧
    in_range episode.opening_quantity ∧ in_range episode.opening_reorder_threshold ∧
    episode.opening_quantity ≤ episode.opening_reorder_threshold ∧ 1 ≤ episode.opening_revision ∧
    (episode.opening_source = .order_acceptance ↔ episode.opening_order_id.isSome) ∧
    (episode.notification_suppressed → episode.opening_source = .maintenance_initialization) ∧
    episode.resolution_complete ∧
    (episode.resolution_source = some .order_acceptance ↔ episode.resolution_order_id.isSome) ∧
    (∀ revision ∈ episode.resolution_revision, episode.opening_revision < revision) ∧
    (episode.resolved_at.isSome → episode.closing_is_active = some true →
      ∀ quantity ∈ episode.closing_quantity, ∀ threshold ∈ episode.closing_reorder_threshold,
        threshold < quantity)

/-- The constraints are comparisons of columns. -/
instance (item : Ingredient) : Decidable item.constraints := inferInstanceAs (Decidable (_ ∧ _))

/-- The constraints are comparisons of columns. -/
instance (balance : InventoryBalance) : Decidable balance.constraints :=
  inferInstanceAs (Decidable (_ ∧ _))

/-- The constraints are comparisons of columns. -/
instance (episode : InventoryLowStockEpisode) : Decidable episode.constraints := by
  unfold InventoryLowStockEpisode.constraints InventoryLowStockEpisode.resolution_complete
  infer_instance

/-- `guard_inventory_low_stock_episode_facts`: whether the trigger lets a row be updated. -/
def guard_inventory_low_stock_episode_facts (old new : InventoryLowStockEpisode) : Bool :=
  new.opening = old.opening && old.resolved_at.isNone && new.resolved_at.isSome

/-! ## What the service keeps -/

/-- An order is named exactly by the source that is one. -/
def Linked (source : InventoryTransitionSource) (order_id : Option ℕ) : Prop :=
  source = .order_acceptance ↔ order_id.isSome

/-- What the constraints of an episode ask for beyond its check. -/
structure InventoryLowStockEpisode.Guarded (episode : InventoryLowStockEpisode) : Prop where
  /-- The name. -/
  name : blank episode.ingredient_name = false
  /-- The quantity. -/
  quantity : in_range episode.opening_quantity
  /-- The threshold. -/
  threshold : in_range episode.opening_reorder_threshold
  /-- It opens low. -/
  low : episode.opening_quantity ≤ episode.opening_reorder_threshold
  /-- The order that opened it. -/
  opening : Linked episode.opening_source episode.opening_order_id
  /-- The resolution. -/
  complete : episode.resolution_complete
  /-- The order that resolved it. -/
  resolution : episode.resolution_source = some .order_acceptance ↔ episode.resolution_order_id.isSome
  /-- It is resolved when the ingredient is not low. -/
  recovered : episode.resolved_at.isSome → episode.closing_is_active = some true →
    ∀ quantity ∈ episode.closing_quantity, ∀ threshold ∈ episode.closing_reorder_threshold,
      threshold < quantity

/-- What the constraints ask of an ingredient and its episodes. -/
structure IngredientRecord.Guarded (record : IngredientRecord) : Prop where
  /-- The name of the ingredient. -/
  name : blank record.item.name = false
  /-- Its threshold. -/
  threshold : in_range record.item.reorder_threshold
  /-- Its balance. -/
  balance : ∀ balance ∈ record.balance, balance.constraints
  /-- Its episodes. -/
  episodes : ∀ episode ∈ record.episodes, episode.Guarded

end Inventory

/-- Every ingredient of a restaurant is guarded. Every command keeps it, so no insertion or update
violates a constraint. -/
def Branch.Guarded (db : Branch) : Prop := ∀ record ∈ db.ingredients, record.Guarded

namespace Inventory

/-- The opening of an episode of a low ingredient. The name, the numbers and the link to an order
are those that the state has checked. -/
theorem opening_guarded {state : InventoryStateSnapshot} (hname : blank state.ingredient_name = false)
    (hquantity : in_range state.quantity) (hthreshold : in_range state.reorder_threshold)
    (hlow : state.is_low = true) (episode_id : UUID) (opened_at : Timestamp)
    {source : InventoryTransitionSource} (actor_user_id : Option UUID) {order_id : Option ℕ}
    (hlinked : Linked source order_id) (suppressed : Bool) :
    (opening_facts state episode_id opened_at source actor_user_id order_id suppressed).Guarded := by
  have hle : state.quantity ≤ state.reorder_threshold := by
    unfold InventoryStateSnapshot.is_low at hlow
    simpa using (Bool.and_eq_true_iff.mp hlow).2
  refine ⟨hname, hquantity, hthreshold, hle, hlinked, Or.inl ?_, ?_, ?_⟩
  · exact ⟨rfl, rfl, rfl, rfl, rfl, rfl, rfl, rfl, rfl⟩
  · exact iff_of_false nofun nofun
  · exact nofun

/-- The resolution of an episode when the ingredient is not low. -/
theorem closing_guarded {episode : InventoryLowStockEpisode} (h : episode.Guarded)
    {state : InventoryStateSnapshot} (hlow : state.is_low = false) (resolved_at : Timestamp)
    (reason : EpisodeResolutionReason) {source : InventoryTransitionSource}
    (actor_user_id : Option UUID) {order_id : Option ℕ} (hlinked : Linked source order_id) :
    (closing_facts episode state resolved_at reason source actor_user_id order_id).Guarded := by
  refine ⟨h.name, h.quantity, h.threshold, h.low, h.opening, Or.inr ?_, ?_, ?_⟩
  · exact ⟨rfl, rfl, rfl, rfl, rfl, rfl, rfl⟩
  · show some source = some .order_acceptance ↔ order_id.isSome
    rw [Option.some.injEq]
    exact hlinked
  · intro _ hactive quantity hquantity threshold hthreshold
    cases hquantity
    cases hthreshold
    have hactive : state.is_active = true := Option.some.inj hactive
    unfold InventoryStateSnapshot.is_low at hlow
    rw [hactive, Bool.true_and, decide_eq_false_iff_not, not_le] at hlow
    exact hlow

/-- The edges of the low predicate. -/
theorem low_of_transition {before : Option InventoryStateSnapshot} {after : InventoryStateSnapshot} :
    (low_episode_transition before after = some .opened → after.is_low = true) ∧
      (low_episode_transition before after = some .resolved → after.is_low = false) := by
  unfold low_episode_transition
  cases before with
  | none => cases after.is_low <;> simp
  | some before => cases before.is_low <;> cases after.is_low <;> simp

/-- Crossing a boundary leaves guarded episodes. An opened episode is linked to its order by the
source, and a resolved one as well. -/
theorem cross_boundary_guarded {episodes : List InventoryLowStockEpisode}
    {before : Option InventoryStateSnapshot} {after : InventoryStateSnapshot} {episode_id : UUID}
    {timestamp : Timestamp} {source : InventoryTransitionSource} {actor_user_id : Option UUID}
    {order_id : Option ℕ} {boundary : Boundary}
    (h : cross_boundary episodes (unresolved episodes) before after episode_id timestamp source
      actor_user_id order_id = .ok boundary) (hlinked : Linked source order_id)
    (hname : blank after.ingredient_name = false) (hquantity : in_range after.quantity)
    (hthreshold : in_range after.reorder_threshold)
    (hepisodes : ∀ episode ∈ episodes, episode.Guarded) :
    ∀ episode ∈ boundary.episodes, episode.Guarded := by
  unfold cross_boundary at h
  cases hedge : low_episode_transition before after with
  | none =>
    simp only [hedge] at h
    rw [← pure_eq_ok.mp h]
    exact hepisodes
  | some kind =>
    cases kind with
    -- The opening carries the facts of the ingredient, which meet the constraints.
    | opened =>
      simp only [hedge] at h
      obtain ⟨_, -, h⟩ := bind_eq_ok.mp h
      obtain ⟨fact, -, h⟩ := bind_eq_ok.mp h
      rw [← pure_eq_ok.mp h]
      intro episode hepisode
      rcases List.mem_append.mp hepisode with hold | hnew
      · exact hepisodes episode hold
      · rw [List.mem_singleton.mp hnew]
        exact opening_guarded hname hquantity hthreshold (low_of_transition.1 hedge) _ _ _ hlinked _
    -- The closing changes the fields of the resolution only.
    | resolved =>
      simp only [hedge] at h
      split at h
      · rename_i before' open_episode hopen
        obtain ⟨reason, -, h⟩ := bind_eq_ok.mp h
        obtain ⟨fact, -, h⟩ := bind_eq_ok.mp h
        rw [← pure_eq_ok.mp h]
        intro episode hepisode
        rcases Keyed.mem_put hepisode with ⟨hold, -⟩ | rfl
        · exact hepisodes episode hold
        · have hmem := (unresolved_mem hopen).1
          exact closing_guarded (hepisodes open_episode hmem) (low_of_transition.2 hedge) _ _ _ hlinked
      · rw [← pure_eq_ok.mp h]
        exact hepisodes

/-- Recording a transition of a guarded ingredient leaves guarded ingredients. The item keeps its
name and threshold, the balance meets its constraints by assumption, and the episodes are those of
the boundary. -/
theorem record_guarded {db db' : Branch} {draw : Draw} {organization_id : UUID}
    {record : IngredientRecord} {balance : InventoryBalance} {before : Option InventoryStateSnapshot}
    {source : InventoryTransitionSource} {actor_user_id : Option UUID} {order_id : Option ℕ}
    (h : record_inventory_transition db draw organization_id record balance before source actor_user_id
      order_id = .ok db') (hdb : db.Guarded) (hlinked : Linked source order_id)
    (hrecord : record.Guarded) (hconstraints : balance.constraints) : db'.Guarded := by
  have hbalance : ∀ balance' ∈ some balance, balance'.constraints := by
    intro balance' hmem
    rw [← Option.mem_some_iff.mp hmem]
    exact hconstraints
  -- Writing a guarded row leaves the other rows.
  have hput : ∀ {db₁ : Branch} {record' : IngredientRecord}, db₁.ingredients = db.ingredients →
      record'.Guarded → (db₁.put record').Guarded := by
    intro db₁ record' hsame hrecord' other hother
    rcases Keyed.mem_put hother with ⟨hold, -⟩ | rfl
    · exact hdb other (hsame ▸ hold)
    · exact hrecord'
  simp only [record_inventory_transition] at h
  split_ifs at h with hchanged
  · obtain ⟨state_revision, -, h⟩ := bind_eq_ok.mp h
    obtain ⟨boundary, hboundary, h⟩ := bind_eq_ok.mp h
    obtain ⟨transition, -, h⟩ := bind_eq_ok.mp h
    obtain ⟨db₁, hdb₁, h⟩ := bind_eq_ok.mp h
    have hepisodes := cross_boundary_guarded hboundary hlinked hrecord.name hconstraints.2
      hrecord.threshold hrecord.episodes
    have hguarded : (({ db with next_uuid := db.next_uuid + 1 } : Branch).put
        { item := { record.item with state_revision := state_revision }, balance := some balance,
          movements := record.movements, episodes := boundary.episodes }).Guarded :=
      hput rfl ⟨hrecord.name, hrecord.threshold, hbalance, hepisodes⟩
    -- Appending an event touches no row of an ingredient.
    have happend : ∀ {db₂ db₃ : Branch} {revision : ℕ} {payload : Payload},
        db₂.append draw organization_id revision payload = .ok db₃ → db₂.Guarded → db₃.Guarded := by
      intro db₂ db₃ revision payload hevent hdb₂
      obtain ⟨event, -, -, -, rfl⟩ := Branch.append_ok hevent
      exact hdb₂
    have hdb₁ := happend hdb₁ hguarded
    unfold append_low at h
    split at h
    · split at h
      · exact happend h hdb₁
      · cases h
    · rw [← pure_eq_ok.mp h]
      exact hdb₁
  · rw [← pure_eq_ok.mp h]
    exact hput rfl ⟨hrecord.name, hrecord.threshold, hbalance, hrecord.episodes⟩

end Inventory

section Requests

variable {lib : Library} {context : AccessContext} {draw : Draw} {db : Branch}

/-- A valid name is not blank. It is its own stripped text, and that is not empty. -/
theorem validate_ingredient_name {text : Text} (hstrip : ∀ text', blank text' = true → text.strip text' = "")
    {name unit : String} {parsed : InventoryUnit} (h : validate_ingredient text name unit = .ok parsed) :
    blank name = false := by
  unfold validate_ingredient at h
  dsimp only at h
  split at h
  · cases h
  · obtain ⟨_, hvalid, -⟩ := bind_eq_ok.mp h
    obtain ⟨hstripped, hne, -⟩ := ensure_eq_ok.mp hvalid
    cases hblank : blank name with
    | false => rfl
    | true => exact absurd (hstripped.trans (hstrip name hblank)) hne

/-- A loaded ingredient is guarded. -/
theorem Branch.Guarded.ingredient (h : db.Guarded) {id : ℕ} {record : IngredientRecord}
    {balance : InventoryBalance} (hingredient : db.ingredient id = .ok (record, balance)) :
    record.Guarded ∧ balance.constraints := by
  obtain ⟨hlookup, hbalance⟩ := Branch.ingredient_ok hingredient
  have hrecord := h record (Keyed.lookup_mem hlookup)
  exact ⟨hrecord, hrecord.balance balance hbalance⟩

/-- Creating an ingredient. Its name has been stripped by the validation, so it is not blank; its
quantities have passed the range checks. -/
theorem InventoryService.create_guarded
    (hstrip : ∀ text, blank text = true → lib.strip text = "") (h : db.Guarded)
    (data : CreateIngredient) :
    Returns (fun result => result.1.Guarded) (create lib context data draw db) := by
  refine returns_bind fun _ _ => returns_bind fun unit hunit => returns_bind fun opening hopening =>
    returns_bind fun threshold hthreshold => returns_bind fun _ _ => ?_
  split
  · exact returns_bind fun _ _ => returns_bind fun _ _ => returns_pure h
  · refine returns_bind fun _ _ => returns_bind fun _ _ => returns_bind fun db₁ hrecord =>
      returns_pure ?_
    obtain ⟨hopening, hopening_le, -⟩ := quantity_ok hopening
    obtain ⟨hthreshold, hthreshold_le, -⟩ := quantity_ok hthreshold
    -- The row that is inserted, before and after its transition has been recorded.
    have hnew : ∀ record : IngredientRecord, record.item.name = data.name →
        record.item.reorder_threshold = threshold →
          (∀ balance ∈ record.balance, balance = ⟨opening, 1⟩) → record.episodes = [] →
            record.Guarded := by
      intro record hname hthreshold' hbalance hepisodes
      refine ⟨?_, ?_, fun balance hmem => ?_, by simp [hepisodes]⟩
      · rw [hname]
        exact validate_ingredient_name hstrip hunit
      · rw [hthreshold']
        exact ⟨hthreshold, hthreshold_le⟩
      · rw [hbalance balance hmem]
        exact ⟨le_rfl, hopening, hopening_le⟩
    have hbalance : ∀ balance ∈ some (⟨opening, 1⟩ : InventoryBalance), balance = ⟨opening, 1⟩ :=
      fun balance hmem => (Option.mem_some_iff.mp hmem).symm
    refine record_guarded hrecord (fun record hmem => ?_) (iff_of_false nofun nofun)
      (hnew _ rfl rfl hbalance rfl) ⟨le_rfl, hopening, hopening_le⟩
    rcases List.mem_append.mp hmem with hold | hlast
    · exact h record hold
    · rw [List.mem_singleton.mp hlast]
      exact hnew _ rfl rfl hbalance rfl

/-- Updating an ingredient. The name is checked, and the state is written by the recorder. -/
theorem InventoryService.update_guarded
    (hstrip : ∀ text, blank text = true → lib.strip text = "") (h : db.Guarded) (id : ℕ)
    (data : UpdateIngredient) :
    Returns (fun result => result.1.Guarded) (update lib context id data draw db) := by
  refine returns_bind fun _ _ => returns_bind fun ⟨record, balance⟩ hingredient =>
    returns_bind fun unit hunit => returns_bind fun _ _ => returns_bind fun _ _ =>
      returns_bind fun _ _ => returns_bind fun threshold hthreshold =>
        returns_bind fun db₁ hrecord => returns_pure ?_
  obtain ⟨hthreshold, hthreshold_le, -⟩ := quantity_ok hthreshold
  obtain ⟨hold, hbalance⟩ := h.ingredient hingredient
  exact record_guarded hrecord h (iff_of_false nofun nofun)
    ⟨validate_ingredient_name hstrip hunit, ⟨hthreshold, hthreshold_le⟩, hold.balance, hold.episodes⟩
    hbalance

/-- Changing the stock of an ingredient. The new balance is in range, and the movement links no
order. -/
theorem InventoryService.change_guarded (h : db.Guarded) (id : ℕ) (data : ChangeStock) :
    Returns (fun result => result.1.Guarded) (change lib context id data draw db) := by
  refine returns_bind fun _ _ => returns_bind fun ⟨record, balance⟩ hingredient => ?_
  simp only
  cases stock_kind data.kind with
  | none => exact returns_throw
  | some kind =>
    refine returns_bind fun _ _ => returns_bind fun _ _ => returns_bind fun _ _ =>
      returns_bind fun _ _ => ?_
    split
    · exact returns_bind fun _ _ => returns_pure h
    · refine returns_bind fun _ _ => returns_bind fun _ _ => returns_bind fun _ hafter =>
        returns_bind fun _ hrange => returns_bind fun db₁ hrecord => returns_pure ?_
      have hold := (h.ingredient hingredient).1
      exact record_guarded hrecord h (iff_of_false (by rintro ⟨⟩) (by rintro ⟨⟩))
        ⟨hold.name, hold.threshold, hold.balance, hold.episodes⟩
        ⟨Nat.le_add_left 1 _, ensure_eq_ok.mp hafter, (ensure_eq_ok.mp hrange).1⟩

/-- Recording a baseline. The opening states the facts that the row has. -/
theorem record_baseline_guarded (h : db.Guarded) (organization_id : UUID) (id : ℕ)
    (observed_at : Timestamp) :
    Returns Branch.Guarded
      (record_baseline_inventory_episode db organization_id id observed_at) := by
  refine returns_bind fun ⟨record, balance⟩ hingredient => ?_
  simp only
  split_ifs with hbaseline
  · refine returns_bind fun _ _ => returns_pure fun other hother => ?_
    obtain ⟨hold, hrange⟩ := h.ingredient hingredient
    have hopened := @opening_guarded (inventory_state_snapshot organization_id db.restaurant_id
      record.item balance) hold.name hrange.2 hold.threshold hbaseline.2 db.next_uuid observed_at
        .maintenance_initialization none none (iff_of_false nofun nofun) true
    rcases Keyed.mem_put hother with ⟨hmem, -⟩ | rfl
    · exact h other hmem
    · refine ⟨hold.name, hold.threshold, hold.balance, fun episode hepisode => ?_⟩
      rcases List.mem_append.mp hepisode with hmem | hlast
      · exact hold.episodes episode hmem
      · rw [List.mem_singleton.mp hlast]
        exact hopened
  · exact returns_bind fun _ _ => returns_pure h

/-- Initializing a restaurant. Each low ingredient gets its baseline in turn. -/
theorem maintenance_initialization_guarded (h : db.Guarded) (organization_id : UUID) :
    Returns Branch.Guarded (maintenance_initialization organization_id draw db) := by
  refine returns_bind fun _ _ => returns_bind fun states _ => ?_
  split
  · exact returns_pure h
  · refine returns_bind fun db₁ hfold => returns_pure ?_
    have hguarded : db₁.Guarded := by
      refine foldlM_invariant (fun _ db₁ => db₁.Guarded) hfold h ?_
      intro done transition db₁ db₂ _ _ hdb₁ hstep
      split at hstep
      · exact record_baseline_guarded hdb₁ _ _ _ db₂ hstep
      · rw [← pure_eq_ok.mp hstep]
        exact hdb₁
    exact hguarded

/-- Consuming the stock of an order. Every movement of it links the order. -/
theorem consume_order_stock_guarded (h : db.Guarded) (order : Order) :
    Returns Branch.Guarded (consume_order_stock context draw order db) := by
  refine returns_bind fun rows hrows db' hfold => ?_
  have hrows := stock_rows_ok (fun record hrecord balance hbalance =>
    ((h record hrecord).balance balance hbalance).2.1) hrows
  refine foldlM_invariant (fun _ db₁ => db₁.Guarded) hfold h ?_
  intro done row db₁ db₂ hrow _ hdb₁ hstep
  obtain ⟨record, balance, required⟩ := row
  have hold := h record (Keyed.lookup_mem (hrows.lookup _ hrow))
  obtain ⟨hnonneg, hcovered⟩ := hrows.covered _ hrow
  have hbalance := (hold.balance balance (hrows.balance _ hrow)).2.2
  -- The balance covers what is required, so it stays in range.
  have hrange : in_range (balance.quantity - required) :=
    ⟨sub_nonneg.mpr hcovered, (sub_le_self _ hnonneg).trans hbalance⟩
  exact record_guarded hstep hdb₁ (iff_of_true rfl rfl)
    ⟨hold.name, hold.threshold, hold.balance, hold.episodes⟩
    ⟨Nat.le_add_left 1 _, hrange⟩

/-- Updating an order. Only the acceptance of the order writes to the ingredients. -/
theorem OrderService.update_guarded (h : db.Guarded) (order_id : ℕ) (command : UpdateOrder) :
    Returns (fun result => result.1.Guarded) (update lib context order_id command draw db) := by
  refine returns_bind fun _ _ => returns_bind fun _ _ => returns_bind fun result hstatus =>
    returns_bind fun _ _ => returns_bind fun result' hitems => returns_bind fun _ _ =>
      returns_bind fun _ _ => returns_bind fun db₁ hevent => returns_pure ?_
  -- The part of the status, which may consume stock.
  have hstatus : result.1.Guarded := by
    unfold update_status at hstatus
    cases hcommand : command.status with
    | none =>
      simp only [hcommand] at hstatus
      rw [← pure_eq_ok.mp hstatus]
      exact h
    | some status =>
      simp only [hcommand] at hstatus
      obtain ⟨requested, -, hstatus⟩ := bind_eq_ok.mp hstatus
      split_ifs at hstatus
      · obtain ⟨_, -, hstatus⟩ := bind_eq_ok.mp hstatus
        rw [← pure_eq_ok.mp hstatus]
        exact h
      · obtain ⟨db₂, hconsume, hstatus⟩ := bind_eq_ok.mp hstatus
        rw [← pure_eq_ok.mp hstatus]
        exact consume_order_stock_guarded h _ db₂ hconsume
      · rw [← pure_eq_ok.mp hstatus]
        exact h
  obtain ⟨⟨_, hnext⟩, -⟩ := update_items_ok hitems
  -- The items of an order are no rows of the inventory.
  have hitems : result'.1.ingredients = result.1.ingredients := by rw [hnext]
  have hrows : ∀ {db' : Branch}, db'.ingredients = result'.1.ingredients → db'.Guarded := by
    intro db' hsame record hrecord
    rw [hsame, hitems] at hrecord
    exact hstatus record hrecord
  unfold append_status at hevent
  split at hevent
  · split at hevent
    · obtain ⟨event, -, -, -, rfl⟩ := Branch.append_ok hevent
      exact hrows rfl
    · rw [← pure_eq_ok.mp hevent]
      exact hrows rfl
  · rw [← pure_eq_ok.mp hevent]
    exact hrows rfl

/-- Rows with the same ingredients. -/
theorem Branch.Guarded.of_ingredients {db db' : Branch} (h : db.Guarded)
    (hsame : db'.ingredients = db.ingredients) : db'.Guarded := by
  intro record hrecord
  rw [hsame] at hrecord
  exact h record hrecord

/-- Every command leaves the ingredients guarded. One lemma for each service function that writes to
the inventory; the others leave its rows as they are. -/
theorem exec_guarded (hstrip : ∀ text, blank text = true → lib.strip text = "") (h : db.Guarded)
    (command : Command) : Returns (fun result => result.1.Guarded) (exec lib command draw db) := by
  cases command with
  | create_ingredient context data =>
    refine returns_bind fun result hresult => returns_pure ?_
    exact InventoryService.create_guarded hstrip h data _ hresult
  | update_ingredient context id data =>
    refine returns_bind fun result hresult => returns_pure ?_
    exact InventoryService.update_guarded hstrip h id data _ hresult
  | change_stock context id data =>
    refine returns_bind fun result hresult => returns_pure ?_
    exact InventoryService.change_guarded h id data _ hresult
  | create_order context command =>
    refine returns_bind fun result hresult => returns_pure ?_
    rcases OrderService.create_ok hresult with ⟨-, hsame⟩ | ⟨-, _, -, -, -, -, hrest, -⟩
    · rw [hsame]
      exact h
    · exact h.of_ingredients hrest.ingredients
  | update_order context id command =>
    refine returns_bind fun result hresult => returns_pure ?_
    exact OrderService.update_guarded h id command _ hresult
  | delete_order context id =>
    refine returns_bind fun result hresult => returns_pure ?_
    obtain ⟨_, _, -, -, -, -, hrest, -⟩ := OrderService.delete_ok hresult
    exact h.of_ingredients hrest.ingredients
  -- The catalog holds no ingredient.
  | create_menu | update_menu | delete_menu | create_menu_item | update_menu_item
  | delete_menu_item | replace_recipe =>
    exact fun result hresult => h.of_ingredients (exec_catalog rfl hresult).1
  | maintenance_initialization organization_id =>
    refine returns_bind fun result hresult => returns_pure ?_
    exact maintenance_initialization_guarded h organization_id _ hresult

/-- Every command keeps the normalized names of the ingredients different. -/
theorem exec_names {command : Command} {db' : Branch} {response : Response} (hsane : db.Sane)
    (hnames : db.NamesUnique) (h : exec lib command draw db = .ok (db', response)) :
    db'.NamesUnique := by
  have hsame : ∀ {db₁ db₂ : Branch}, db₁.NamesUnique → db₂.ingredients = db₁.ingredients →
      db₂.NamesUnique := by
    intro db₁ db₂ hnames hsame
    unfold Branch.NamesUnique
    rw [hsame]
    exact hnames
  cases exec_effect hsane.keys hsane.range h with
  | replayed => exact hnames
  | stock _ ws hwrites => exact hwrites.names hsane.keys hnames
  | initialized _ _ ws hwrites => exact hsame (hwrites.names hsane.keys hnames) rfl
  | catalog _ _ hrest => exact hsame hnames hrest.ingredients
  | order_created _ _ _ _ _ _ hrest => exact hsame hnames hrest.ingredients
  | order_updated _ _ _ _ _ ws hwrites _ _ _ _ hrest =>
    exact hsame (hwrites.names hsane.keys hnames) hrest.ingredients
  | order_deleted _ _ _ _ _ _ _ hrest => exact hsame hnames hrest.ingredients

end Requests

/-! ## Runs -/

/-- A library whose `str.strip` strips blanks. It is what the checks of the service and those of the
table have in common. -/
structure StrippingLibrary extends Library where
  /-- Nothing is left of a blank text. -/
  strips : ∀ text, blank text = true → strip text = ""

/-- `str.strip` of a text without other white space than blanks. -/
def strip_blanks (text : String) : String :=
  String.ofList ((text.toList.dropWhile (· = ' ')).reverse.dropWhile (· = ' ')).reverse

/-- Nothing is left of blanks. -/
theorem strip_blanks_blank (text : String) (h : blank text = true) : strip_blanks text = "" := by
  have hblank : text.toList.dropWhile (· = ' ') = [] :=
    List.dropWhile_eq_nil_iff.mpr (List.all_eq_true.mp h)
  unfold strip_blanks
  rw [hblank]
  rfl

/-- A text without blanks stays as it is. There is nothing to strip at its ends. -/
theorem strip_blanks_word (text : String) (h : ∀ c ∈ text.toList, c ≠ ' ') :
    strip_blanks text = text := by
  have hkeeps : ∀ chars : List Char, (∀ c ∈ chars, c ≠ ' ') → chars.dropWhile (· = ' ') = chars := by
    intro chars hchars
    cases chars with
    | nil => rfl
    | cons c chars => exact List.dropWhile_cons_of_neg (by simpa using hchars c List.mem_cons_self)
  unfold strip_blanks
  rw [hkeeps _ h, hkeeps _ fun c hc => h c (List.mem_reverse.mp hc), List.reverse_reverse,
    String.ofList_toList]

/-- The functions on texts of ASCII. It shows that the property can be met. -/
def StrippingLibrary.ascii (lib : Library) : StrippingLibrary :=
  { lib with strip := strip_blanks, strips := strip_blanks_blank }

/-- The functions on texts of ASCII are one. -/
instance : Nonempty StrippingLibrary :=
  ⟨.ascii (Classical.choice (inferInstance : Nonempty DigestLibrary)).1⟩

/-- The rows of a restaurant of the legacy database: the names are those that the service has
validated, and the rest is what the constraints of the legacy tables ask for. -/
structure GuardedBranch extends LegacyBranch where
  /-- The names. -/
  names : ∀ record ∈ ingredients, blank record.item.name = false
  /-- The normalized names are different. -/
  names_unique : toBranch.NamesUnique
  /-- The thresholds. -/
  thresholds : ∀ record ∈ ingredients, in_range record.item.reorder_threshold
  /-- The versions of the balances. -/
  versions : ∀ record ∈ ingredients, ∀ balance ∈ record.balance, 1 ≤ balance.version

/-- The small restaurant is one. -/
theorem exists_guarded_small : ∃ start : GuardedBranch, start.toBranch = Branch.small :=
  ⟨{ toBranch := Branch.small
     legacy := Branch.small_legacy
     names := by decide
     names_unique := by simp [Branch.NamesUnique, Branch.small, Keyed.Unique]
     thresholds := by norm_num [Branch.small, in_range, MAX_QUANTITY]
     versions := by decide }, rfl⟩

/-- The small restaurant is one. -/
instance : Nonempty GuardedBranch := exists_guarded_small.nonempty

/-- The legacy rows are guarded. -/
theorem GuardedBranch.guarded (start : GuardedBranch) : start.toBranch.Guarded := by
  intro record hrecord
  have hnone := start.legacy.episodes record hrecord
  refine ⟨start.names record hrecord, start.thresholds record hrecord, fun balance hbalance => ?_,
    by simp [hnone]⟩
  exact ⟨start.versions record hrecord balance hbalance,
    start.legacy.balances record hrecord balance hbalance⟩

/-- The tables accept the rows of a restaurant: every row meets the check constraints of its table,
and the unique indexes hold. -/
structure Branch.Accepted (db : Branch) : Prop where
  /-- The ingredients. -/
  ingredients : ∀ record ∈ db.ingredients, record.item.constraints
  /-- Their primary key. -/
  ingredient_ids : Keyed.Unique IngredientRecord.id db.ingredients
  /-- `uq_inventory_ingredient_name`. -/
  ingredient_names : db.NamesUnique
  /-- The balances. -/
  balances : ∀ record ∈ db.ingredients, ∀ balance ∈ record.balance, balance.constraints
  /-- The episodes. -/
  episodes : ∀ record ∈ db.ingredients, ∀ episode ∈ record.episodes, episode.constraints
  /-- Their primary key. -/
  episode_ids : Keyed.Unique InventoryLowStockEpisode.episode_id
    (db.ingredients.flatMap (·.episodes))
  /-- `uq_inventory_open_episode_per_ingredient`. -/
  unresolved : ∀ record ∈ db.ingredients, ∀ episode ∈ record.episodes, ∀ other ∈ record.episodes,
    episode.resolved_at = none → other.resolved_at = none → episode = other

/-- The trigger permits the change of the episodes: none is deleted, and one is updated only as
`guard_inventory_low_stock_episode_facts` lets it. -/
def Branch.Permitted (db db' : Branch) : Prop :=
  ∀ record ∈ db.ingredients, ∃ record' ∈ db'.ingredients, record'.id = record.id ∧
    ∀ episode ∈ record.episodes, ∃ episode' ∈ record'.episodes,
      episode'.episode_id = episode.episode_id ∧
        (episode' = episode ∨ guard_inventory_low_stock_episode_facts episode episode' = true)

/-- The ingredients of a restaurant that starts guarded are guarded in every reachable state. -/
theorem run_guarded (lib : StrippingLibrary) {start : ℕ → LegacyBranch} {k : ℕ}
    (hstart : (start k).toBranch.Guarded) (acts : List Act) :
    ((run lib.toLibrary start acts).rows k).Guarded := by
  induction acts using List.reverseRecOn with
  | nil => exact hstart
  | append_singleton acts a ih =>
    rcases run_step_exec lib.toLibrary start acts a k with hsame |
      ⟨i, request, draw, value, response, -, -, -, -, hexec, hrows⟩
    · rw [hsame]
      exact ih
    · rw [hrows]
      exact exec_guarded lib.strips ih request.command _ hexec

section Runs

variable (lib : StrippingLibrary) (start : ℕ → GuardedBranch)

/-- The rows of a restaurant after a run. -/
def guarded_rows (acts : List Act) (k : ℕ) : Branch :=
  (run lib.toLibrary (fun k => (start k).toLegacyBranch) acts).rows k

/-- The tables accept the rows of every reachable state. Every check and every unique index of them
is met. -/
theorem run_accepted (acts : List Act) (k : ℕ) : (guarded_rows lib start acts k).Accepted := by
  have hguarded : (guarded_rows lib start acts k).Guarded :=
    run_guarded lib (start k).guarded acts
  have hepisodic := run_episodic lib.toLibrary (fun k => (start k).toLegacyBranch) acts k
  have hkeys := (run_sane lib.toLibrary (fun k => (start k).toLegacyBranch) acts k).keys
  have hnames : (guarded_rows lib start acts k).NamesUnique :=
    run_later (List.nil_prefix : [] <+: acts) (start k).names_unique fun hsane h hnames =>
      exec_names hsane hnames h
  refine ⟨fun record hrecord => ?_, hkeys.unique, hnames, fun record hrecord =>
    (hguarded record hrecord).balance, fun record hrecord episode hepisode => ?_,
    Alerts.episodes_unique hepisodic hkeys, fun record hrecord episode hepisode other hother hopen
      hopen' => ?_⟩
  · have hsound := hepisodic.sound record hrecord
    exact ⟨(hguarded record hrecord).threshold, hsound.revision_positive⟩
  · have hepisode' := (hguarded record hrecord).episodes episode hepisode
    have hchecked := (hepisodic.sound record hrecord).checked episode hepisode
    obtain ⟨⟨hrestaurant, hingredient⟩, hopening, -, hlater, hsuppressed⟩ := episode_check_ok.mp hchecked
    exact ⟨hrestaurant, hingredient, hepisode'.name, hepisode'.quantity, hepisode'.threshold,
      hepisode'.low, hopening, hepisode'.opening, hsuppressed, hepisode'.complete,
      hepisode'.resolution, hlater, hepisode'.recovered⟩
  · have hsingle := (hepisodic.sound record hrecord).single
    have hsame := (hsingle episode hepisode hopen).symm.trans (hsingle other hother hopen')
    exact Option.some.inj hsame

/-- The trigger permits what a step of a run does. An episode is there still, with the same opening,
and is changed only by its resolution. -/
theorem run_permitted (acts : List Act) (a : Act) (k : ℕ) :
    (guarded_rows lib start acts k).Permitted (guarded_rows lib start (acts ++ [a]) k) := by
  intro record hrecord
  have hkeys := (run_sane lib.toLibrary (fun k => (start k).toLegacyBranch) acts k).keys
  have hlookup := hkeys.unique.lookup_eq_some.mpr ⟨hrecord, rfl⟩
  obtain ⟨record', hlookup', hadvances⟩ := run_advances lib.toLibrary
    (fun k => (start k).toLegacyBranch) acts k record.id [a] hlookup
  refine ⟨record', Keyed.lookup_mem hlookup', Keyed.lookup_key hlookup', fun episode hepisode => ?_⟩
  obtain ⟨episode', hepisode', hopening, hkept⟩ := hadvances.episodes episode hepisode
  have hid : episode'.episode_id = episode.episode_id :=
    (congrArg InventoryLowStockEpisode.episode_id hopening :)
  have hsettled := fun (acts : List Act) => (run_recounted lib.toLibrary
    (fun k => (start k).toLegacyBranch) acts k record.id).settled
  refine ⟨episode', hepisode', hid, ?_⟩
  -- A resolved episode is kept as it is.
  cases hresolved : episode.resolved_at with
  | some resolved_at => exact Or.inl (hkept (by rw [hresolved, Option.isSome_some]))
  | none =>
    -- One that is resolved by the step is changed in the fields that the trigger lets change.
    cases hresolved' : episode'.resolved_at with
    | some resolved_at =>
      refine Or.inr ?_
      unfold guard_inventory_low_stock_episode_facts
      rw [hopening, hresolved, hresolved']
      simp
    -- One that stays unresolved has all its fields from its opening.
    | none =>
      have hold := hsettled acts record hlookup episode hepisode hresolved
      have hnew := hsettled (acts ++ [a]) record' hlookup' episode' hepisode' hresolved'
      exact Or.inl ((hnew.trans hopening).trans hold.symm)

/-- In every reachable state the tables of the inventory accept the rows, and the trigger permits what
any further step does to them: neither a check constraint, nor a unique index, nor the trigger fails a
transaction. -/
theorem inventory_rows_accepted (acts : List Act) (k : ℕ) :
    (guarded_rows lib start acts k).Accepted ∧
      ∀ a, (guarded_rows lib start acts k).Permitted (guarded_rows lib start (acts ++ [a]) k) :=
  ⟨run_accepted lib start acts k, fun a => run_permitted lib start acts a k⟩

end Runs

end RestaurantOS
