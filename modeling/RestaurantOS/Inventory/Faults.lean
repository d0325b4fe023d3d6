import RestaurantOS.Inventory.Episodes
import RestaurantOS.Refusals

/-!
# The fault checks of the inventory are never met

`record_inventory_transition` raises where the revision of an ingredient has changed outside its
lock, or an episode is unresolved that should not be; the fact classes raise on facts that do not fit
together. Where the episodes of an ingredient are sound (`Sound`), none of these checks fails, so no
command ends in such a fault in a restaurant whose episodes are (`exec_fails`). -/

namespace RestaurantOS

open EdgeIntervals Fallible Catalog Events Inventory Orders Tenancy

/-- The failures that do not report a broken invariant of the inventory. -/
def Failure.NoFault (failure : Failure) : Prop := ¬ failure.is_inventory_fault

/-- No refusal is a fault. -/
instance : AllowsRefusals Failure.NoFault where
  allows := fun {failure} h => by
    cases failure <;> first | exact h.elim | exact fun hfault => hfault

namespace Inventory

variable {E : Failure → Prop}

/-- A built transition that has its reason exactly if it is a resolution. -/
theorem episode_transition_fails {episode_id : UUID} {kind : EpisodeTransitionKind}
    {occurred_at : Timestamp} {reason : Option EpisodeResolutionReason}
    (h : kind = .opened ↔ reason = none) :
    Fails E (episode_transition episode_id kind occurred_at reason) := by
  have hcheck : transition_check kind reason = .ok () := by
    refine bind_eq_ok.mpr ⟨(), ensure_eq_ok.mpr ?_, ensure_eq_ok.mpr ?_⟩
    · rintro ⟨hopened, hreason⟩
      rw [h.mp hopened] at hreason
      cases hreason
    · rintro ⟨hresolved, hreason⟩
      rw [h.mpr (Option.isNone_iff_eq_none.mp hreason)] at hresolved
      cases hresolved
  unfold episode_transition
  split
  · exact fails_ok _
  · rename_i heq
    rw [hcheck] at heq
    cases heq

/-- The facts of a checked episode. They are valid themselves, so nothing is raised. -/
theorem current_facts_fails {episode : Option InventoryLowStockEpisode}
    (h : ∀ e ∈ episode, episode_check e = .ok ()) : Fails E (current_facts episode) := by
  cases episode with
  | none => exact fails_pure _
  | some episode =>
    refine fails_bind ?_ fun _ _ => fails_pure _
    unfold episode_facts
    split
    · exact fails_ok _
    · rename_i heq
      rw [h episode rfl] at heq
      cases heq

/-- A built transition whose facts pass their check. The checks of its other fields hold of any
snapshot. -/
theorem inventory_transition_fails {state : InventoryStateSnapshot} {episode_id : Option UUID}
    {fact : Option InventoryEpisodeTransition} {facts : Option InventoryEpisodeFacts}
    (h : state_check state episode_id fact facts = .ok ()) :
    Fails E (inventory_transition state episode_id fact facts) := by
  unfold inventory_transition
  split
  · exact fails_ok _
  · rename_i heq
    rw [h] at heq
    cases heq

/-- A snapshot of a state whose facts fit together. These facts are what the constructors check, so
building the transition raises none of their errors. -/
theorem transition_snapshot_fails {state : InventoryStateSnapshot}
    {episode : Option InventoryLowStockEpisode} {fact : Option InventoryEpisodeTransition}
    (hpositive : 0 < state.restaurant_id ∧ 0 < state.ingredient_id) (hrevision : 1 ≤ state.state_revision)
    (hcheck : ∀ e ∈ episode, episode_check e = .ok ())
    (hid : ∀ f ∈ fact, ∀ e ∈ episode, e.episode_id = f.episode_id)
    (hopened : ∀ f ∈ fact, f.kind = .opened → state.is_low = true)
    (hresolved : ∀ f ∈ fact, f.kind = .resolved → ¬ state.is_low = true) :
    Fails E (transition_snapshot state episode fact) := by
  refine fails_bind (current_facts_fails hcheck) fun facts hfacts => ?_
  have hcopy := current_facts_ok hfacts
  refine inventory_transition_fails ?_
  unfold state_check
  simp only [bind_eq_ok, ensure_eq_ok, exists_const]
  -- The identity of the episode, and then its direction against the level.
  refine ⟨hpositive, hrevision, fun f hf => ?_, fun copy hc => ?_, hopened, hresolved⟩
  · rw [Option.mem_def.mp hf]
    cases episode with
    | none => rfl
    | some e => exact congrArg some (hid f hf e rfl)
  · rw [Option.mem_def.mp hc] at hcopy
    rw [← hcopy]
    rfl

/-- Crossing a boundary, where no episode is unresolved at a rising edge. A fault would be a second
episode, or a resolution without a state before. -/
theorem cross_boundary_fails {episodes : List InventoryLowStockEpisode}
    {before : Option InventoryStateSnapshot} {after : InventoryStateSnapshot} {episode_id : UUID}
    {timestamp : Timestamp} {source : InventoryTransitionSource} {actor_user_id : Option UUID}
    {order_id : Option ℕ}
    (hrise : low_episode_transition before after = some .opened → unresolved episodes = none) :
    Fails Failure.NoFault (cross_boundary episodes (unresolved episodes) before after episode_id
      timestamp source actor_user_id order_id) := by
  unfold cross_boundary
  cases hedge : low_episode_transition before after with
  | none => exact fails_pure _
  | some kind =>
    cases kind with
    | opened =>
      refine fails_bind (fails_ensure fun hsome => ?_) fun _ _ => ?_
      · -- At a rising edge there is no episode yet, so the check passes.
        exact absurd (by rw [hrise hedge]; rfl) hsome
      · exact fails_bind (episode_transition_fails (by simp)) fun _ _ => fails_pure _
    | resolved =>
      -- A falling edge has a state before it.
      cases before with
      | none => exact absurd hedge low_episode_transition_none.2.1
      | some before =>
        cases unresolved episodes with
        | none => exact fails_pure _
        | some episode =>
          obtain ⟨hwas, hlow⟩ := low_episode_transition_some.2.1.mp hedge
          refine fails_bind ?_ fun _ _ => ?_
          · refine fails_bind (fails_ensure fun hnot => ?_) fun _ _ => ?_
            · exact absurd ⟨hwas, by simp [hlow]⟩ hnot
            · split_ifs
              · exact fails_pure _
              · exact fails_pure _
              · exact fails_pure _
          · exact fails_bind (episode_transition_fails (by simp)) fun _ _ => fails_pure _

/-- Recording a transition of an ingredient with sound episodes. The three kinds of facts that it
needs are about the revision, the earlier episodes and the rising edge. -/
theorem record_fails {db : Branch} {draw : Draw} {record : IngredientRecord}
    {balance : InventoryBalance} {before : Option InventoryStateSnapshot}
    {source : InventoryTransitionSource} {actor_user_id : Option UUID} {order_id : Option ℕ}
    (hrestaurant : 0 < db.restaurant_id) (hid : 0 < record.id)
    (hnext : Fails Failure.NoFault (next_state_revision record.item before))
    (hlater : ∀ revision, next_state_revision record.item before = .ok revision →
      1 ≤ revision ∧ ∀ episode ∈ record.episodes, episode.opening_revision < revision)
    (hchecked : ∀ episode ∈ record.episodes, episode_check episode = .ok ())
    (hrise : (∀ snapshot ∈ before, snapshot.is_low = false) → unresolved record.episodes = none) :
    Fails Failure.NoFault (record_inventory_transition db draw db.organization_id record balance
      before source actor_user_id order_id) := by
  simp only [record_inventory_transition]
  split_ifs
  · -- The edge first: at a rising edge the state before is not low, so nothing is unresolved.
    refine fails_bind hnext fun revision hrevision => ?_
    obtain ⟨hpositive, hopening⟩ := hlater revision hrevision
    refine fails_bind (cross_boundary_fails fun hedge => hrise fun snapshot hs => ?_)
      fun boundary hboundary => ?_
    · rw [Option.mem_def.mp hs] at hedge
      exact (low_episode_transition_some.1.mp hedge).1
    have hcrossing := cross_boundary_ok hboundary
    refine fails_bind ?_ fun transition htransition => ?_
    · refine transition_snapshot_fails ⟨hrestaurant, hid⟩ hpositive ?_ ?_ ?_ ?_
      · -- The current episode passes its check.
        intro episode hepisode
        cases hcrossing with
        | opened hedge hnone =>
          rw [← Option.mem_some_iff.mp hepisode]
          exact opening_facts_check hrestaurant hid hpositive (by simp)
        | resolved hedge current hopen =>
          obtain ⟨hmem, -⟩ := unresolved_mem hopen
          rw [← Option.mem_some_iff.mp hepisode]
          exact closing_facts_check (hchecked current hmem) (hopening current hmem)
        | untracked => cases hepisode
        | level => exact hchecked episode (unresolved_mem hepisode).1
      · -- The identity of the announced episode is the one of the row.
        intro fact hfact episode hepisode
        cases hcrossing with
        | opened hedge hnone _ _ _ _ fact' hfact' =>
          rw [← Option.mem_some_iff.mp hepisode, ← Option.mem_some_iff.mp hfact, hfact'.2.1]
          rfl
        | resolved hedge current hopen _ _ _ _ _ fact' hfact' =>
          rw [← Option.mem_some_iff.mp hepisode, ← Option.mem_some_iff.mp hfact, hfact'.2.1]
          rfl
        | untracked => cases hfact
        | level => cases hfact
      · -- An announced opening means that the level is low now.
        intro fact hfact hkind
        cases hcrossing with
        | opened hedge hnone =>
          cases before with
          | none => exact low_episode_transition_none.1.mp hedge
          | some before => exact (low_episode_transition_some.1.mp hedge).2
        | resolved hedge current hopen _ _ _ _ _ fact' hfact' =>
          rw [← Option.mem_some_iff.mp hfact, hfact'.1] at hkind
          cases hkind
        | untracked => cases hfact
        | level => cases hfact
      · -- An announced resolution means that it is not.
        intro fact hfact hkind
        cases hcrossing with
        | opened hedge hnone _ _ _ _ fact' hfact' =>
          rw [← Option.mem_some_iff.mp hfact, hfact'.1] at hkind
          cases hkind
        | resolved hedge =>
          cases before with
          | none => exact absurd hedge low_episode_transition_none.2.1
          | some before => simp [(low_episode_transition_some.2.1.mp hedge).2]
        | untracked => cases hfact
        | level => cases hfact
    · -- The events are appended without a fault, since an opening has its facts.
      obtain ⟨-, -, hfacts, -⟩ := transition_snapshot_ok htransition
      refine fails_bind (Branch.append_fails _ _ _ _ _) fun _ _ => ?_
      unfold append_low
      split_ifs with hopened
      · cases hcopy : transition.episode_facts with
        | some facts => exact Branch.append_fails _ _ _ _ _
        | none =>
          -- A boundary that opens an episode has it.
          rw [hcopy, Option.map_none] at hfacts
          cases hcrossing with
          | opened => cases hfacts
          | resolved => cases hfacts
          | untracked => cases hopened
          | level => cases hopened
      · exact fails_pure _
  · exact fails_pure _

/-- Recording the rewriting of an ingredient with sound episodes. The stock commands and updates of
an ingredient rewrite it, so this is the case of all of them. -/
theorem record_rewritten_fails {db : Branch} {draw : Draw} {record record₁ : IngredientRecord}
    {balance balance₁ : InventoryBalance} {source : InventoryTransitionSource}
    {actor_user_id : Option UUID} {order_id : Option ℕ} (hdb : db.Episodic)
    (hlookup : Keyed.lookup IngredientRecord.id record.id db.ingredients = some record)
    (hbalance : record.balance = some balance) (hid : record₁.id = record.id)
    (hrevision : record₁.item.state_revision = record.item.state_revision)
    (hepisodes : record₁.episodes = record.episodes) :
    Fails Failure.NoFault (record_inventory_transition db draw db.organization_id record₁ balance₁
      (some (inventory_state_snapshot db.organization_id db.restaurant_id record.item balance)) source
      actor_user_id order_id) := by
  have hsound := hdb.sound record (Keyed.lookup_mem hlookup)
  refine record_fails hdb.restaurant (hid ▸ hsound.positive) ?_ ?_ (hepisodes ▸ hsound.checked) ?_
  · exact fails_bind (fails_ensure fun hne => absurd hrevision hne) fun _ _ => fails_pure _
  · -- The new revision is the next one, after every opening so far.
    intro revision hnext
    obtain ⟨_, -, hnext⟩ := bind_eq_ok.mp hnext
    have hnext : record.revision + 1 = revision := pure_eq_ok.mp hnext
    refine ⟨by omega, fun episode hmem => ?_⟩
    have := (hsound.bounded episode (hepisodes ▸ hmem)).1
    omega
  · intro hlow
    rw [hepisodes]
    exact hsound.not_low ((is_low_eq hbalance _ _).trans (hlow _ rfl))

/-- Recording the creation of an ingredient. It has no episode yet, so nothing can contradict its
state. -/
theorem record_created_fails {db : Branch} {draw : Draw} {record : IngredientRecord}
    {balance : InventoryBalance} {source : InventoryTransitionSource}
    {actor_user_id : Option UUID} {order_id : Option ℕ} (hrestaurant : 0 < db.restaurant_id)
    (hid : 0 < record.id) (hepisodes : record.episodes = []) :
    Fails Failure.NoFault (record_inventory_transition db draw db.organization_id record balance none
      source actor_user_id order_id) := by
  refine record_fails hrestaurant hid (fails_pure _) (fun revision hnext => ?_) (by simp [hepisodes])
    fun _ => by rw [hepisodes]; rfl
  have hnext : max 1 record.item.state_revision = revision := pure_eq_ok.mp hnext
  exact ⟨by omega, by simp [hepisodes]⟩

/-- Loading the state of an ingredient with sound episodes. -/
theorem load_state_fails {db : Branch} {record : IngredientRecord} {balance : InventoryBalance}
    (hrestaurant : 0 < db.restaurant_id)
    (hsound : record.Sound db.organization_id db.restaurant_id) :
    Fails E (load_state db db.organization_id record balance) := by
  refine transition_snapshot_fails ⟨hrestaurant, hsound.positive⟩ hsound.revision_positive ?_
    (by simp) (by simp) (by simp)
  exact fun episode hepisode => hsound.checked episode (unresolved_mem hepisode).1

/-- Adding a baseline episode. The ingredient is low and has no open episode, which is what the
baseline needs. -/
theorem record_baseline_fails {db : Branch} (hdb : db.Episodic) (id : ℕ) (observed_at : Timestamp) :
    Fails Failure.NoFault (record_baseline_inventory_episode db db.organization_id id observed_at) := by
  refine fails_bind (Branch.ingredient_fails db id) fun pair hpair => ?_
  obtain ⟨record, balance⟩ := pair
  obtain ⟨hlookup, hbalance⟩ := Branch.ingredient_ok hpair
  have hsound := hdb.sound record (Keyed.lookup_mem hlookup)
  simp only
  split_ifs
  · refine fails_bind ?_ fun _ _ => fails_pure _
    refine transition_snapshot_fails ⟨hdb.restaurant, hsound.positive⟩ hsound.revision_positive ?_
      (by simp) (by simp) (by simp)
    intro episode hepisode
    rw [← Option.mem_some_iff.mp hepisode]
    exact opening_facts_check hdb.restaurant hsound.positive hsound.revision_positive fun _ => rfl
  · exact fails_bind (load_state_fails hdb.restaurant hsound) fun _ _ => fails_pure _

end Inventory

/-! ## Checks of requests -/

variable {db : Branch} {context : AccessContext} {draw : Draw} {lib : Library}

/-! ## Inventory requests -/

/-- Creating an ingredient. It can only fail as the source says: a taken name, a used key or an
unauthorized user. -/
theorem InventoryService.create_fails (hdb : db.Episodic) (hkeys : db.Keys)
    (data : CreateIngredient) : Fails Failure.NoFault (create lib context data draw db) := by
  refine fails_bind (prepare_fails _) fun _ hprepare => ?_
  refine fails_bind (validate_ingredient_fails _ _ _) fun unit _ => ?_
  refine fails_bind (quantity_fails _ _) fun opening _ => ?_
  refine fails_bind (quantity_fails _ _) fun threshold _ => ?_
  refine fails_bind (refuses_ensure trivial) fun _ _ => ?_
  split
  · refine fails_bind (refuses_ensure trivial) fun _ _ => ?_
    exact fails_bind (Branch.ingredient_fails _ _) fun _ _ => fails_pure _
  · refine fails_bind (refuses_ensure trivial) fun _ _ => ?_
    refine fails_bind stores_ensure fun _ _ => ?_
    rw [prepare_ok hprepare]
    refine fails_bind ?_ fun _ _ => fails_pure _
    exact record_created_fails hdb.restaurant (Nat.add_pos_left hkeys.next _) rfl

/-- Updating an ingredient. The ingredient may be missing, and its name may be taken. -/
theorem InventoryService.update_fails (hdb : db.Episodic) (id : ℕ) (data : UpdateIngredient) :
    Fails Failure.NoFault (update lib context id data draw db) := by
  refine fails_bind (prepare_fails _) fun _ hprepare => ?_
  refine fails_bind (Branch.ingredient_fails _ _) fun pair hpair => ?_
  obtain ⟨record, balance⟩ := pair
  obtain ⟨hlookup, hbalance⟩ := Branch.ingredient_ok hpair
  obtain rfl : record.id = id := Keyed.lookup_key hlookup
  refine fails_bind (validate_ingredient_fails _ _ _) fun unit _ => ?_
  refine fails_bind (refuses_ensure trivial) fun _ _ => ?_
  refine fails_bind (refuses_ensure trivial) fun _ _ => ?_
  refine fails_bind (refuses_ensure trivial) fun _ _ => ?_
  refine fails_bind (quantity_fails _ _) fun threshold _ => ?_
  rw [prepare_ok hprepare]
  refine fails_bind ?_ fun _ _ => fails_pure _
  exact record_rewritten_fails hdb hlookup hbalance rfl rfl rfl

/-- Changing the stock of an ingredient. What is checked before the posting refuses the request; it
raises no fault. -/
theorem InventoryService.change_fails (hdb : db.Episodic) (id : ℕ) (data : ChangeStock) :
    Fails Failure.NoFault (change lib context id data draw db) := by
  refine fails_bind (prepare_fails _) fun _ hprepare => ?_
  refine fails_bind (Branch.ingredient_fails _ _) fun pair hpair => ?_
  obtain ⟨record, balance⟩ := pair
  obtain ⟨hlookup, hbalance⟩ := Branch.ingredient_ok hpair
  obtain rfl : record.id = id := Keyed.lookup_key hlookup
  simp only
  split
  · exact refuses_throw trivial
  · refine fails_bind (refuses_ensure trivial) fun _ _ => ?_
    refine fails_bind (quantity_fails _ _) fun amount _ => ?_
    refine fails_bind (refuses_ensure trivial) fun _ _ => ?_
    refine fails_bind (refuses_ensure trivial) fun _ _ => ?_
    split
    · exact fails_bind (refuses_ensure trivial) fun _ _ => fails_pure _
    · refine fails_bind (refuses_ensure trivial) fun _ _ => ?_
      refine fails_bind (stock_delta_fails _ _ _ _) fun delta _ => ?_
      refine fails_bind (refuses_ensure trivial) fun _ _ => ?_
      refine fails_bind (refuses_ensure trivial) fun _ _ => ?_
      rw [prepare_ok hprepare]
      refine fails_bind ?_ fun _ _ => fails_pure _
      exact record_rewritten_fails hdb hlookup hbalance rfl rfl rfl

/-- Initializing a restaurant. Each ingredient is found, and a low one gets its baseline. -/
theorem maintenance_initialization_fails (hdb : db.Episodic) (hkeys : db.Keys)
    (organization_id : UUID) :
    Fails Failure.NoFault (maintenance_initialization organization_id draw db) := by
  refine fails_bind (refuses_ensure trivial) fun _ horganization => ?_
  obtain rfl := ensure_eq_ok.mp horganization
  -- Loading the states raises nothing, for every record is sound.
  refine fails_bind (fails_mapM fun pair hpair => ?_) fun states _ => ?_
  · obtain ⟨record, hrecord, hbalance⟩ := List.mem_filterMap.mp hpair
    obtain ⟨balance, -, rfl⟩ := Option.map_eq_some_iff.mp hbalance
    exact load_state_fails hdb.restaurant (hdb.sound record hrecord)
  split_ifs
  · exact fails_pure _
  · refine fails_bind ?_ fun _ _ => fails_pure _
    have hbaseline : ∀ {db₁ db₂ : Branch} {transition : InventoryTransition},
        db₁.organization_id = db.organization_id ∧ db₁.Keys ∧ db₁.Episodic →
          record_baseline_inventory_episode db₁ db.organization_id transition.state.ingredient_id
            (draw.now 0) = .ok db₂ →
              db₂.organization_id = db.organization_id ∧ db₂.Keys ∧ db₂.Episodic := by
      rintro db₁ db₂ transition ⟨horganization, hkeys, hdb⟩ h
      rw [← horganization] at h
      obtain ⟨record, -, ⟨-, -, hwrite, -⟩ | ⟨-, rfl⟩⟩ := record_baseline_inventory_episode_ok h
      · exact ⟨hwrite.frame.organization_id.trans horganization, hwrite.keys hkeys,
          hwrite.episodic hkeys hdb⟩
      · exact ⟨horganization, hkeys, hdb⟩
    -- Each baseline is recorded in a sound restaurant, which it leaves sound.
    refine fails_foldlM (fun _ db₁ => db₁.organization_id = db.organization_id ∧ db₁.Keys ∧
      db₁.Episodic) ⟨rfl, hkeys, hdb⟩ ?_ ?_
    · intro done transition db₁ db₂ _ _ hinv hbody
      split_ifs at hbody
      · exact hbaseline hinv hbody
      · rw [← pure_eq_ok.mp hbody]
        exact hinv
    · rintro done transition db₁ - - ⟨horganization, -, hdb₁⟩
      split_ifs
      · rw [← horganization]
        exact record_baseline_fails hdb₁ _ _
      · exact fails_pure _

/-! ## Order requests -/

namespace Orders

/-- Consuming the stock of an order. The stock may be too low, which is a refusal and no fault. -/
theorem consume_order_stock_fails (hdb : db.Episodic) (hsane : db.Sane)
    (horganization : context.organization_id = db.organization_id) (order : Order) :
    Fails Failure.NoFault (consume_order_stock context draw order db) := by
  refine fails_bind (stock_rows_fails _) fun rows hrows => ?_
  have hrows := stock_rows_ok (fun record hr balance hb => (hsane.range record hr balance hb).1) hrows
  refine fails_foldlM
    (fun done db₁ => Writes db (done.map (consumption_write context draw order.order_id)) db₁) .nil
    (fun done row db₁ db₂ hmem hpart hwrites hconsume =>
      hrows.consume horganization hsane.range hmem hpart hwrites hconsume) ?_
  intro done row db₁ hmem hpart hwrites
  obtain ⟨-, hlookup⟩ := hrows.next hmem hpart hwrites
  have hbalance := hrows.balance row hmem
  obtain ⟨-, hdb₁⟩ := hwrites.invariant (P := fun db => db.Keys ∧ db.Episodic) ⟨hsane.keys, hdb⟩
    fun _ _ _ _ hwrite hdb => ⟨hwrite.keys hdb.1, hwrite.episodic hdb.1 hdb.2⟩
  obtain ⟨record, balance, required⟩ := row
  simp only [consume, horganization]
  rw [← hwrites.frame.organization_id]
  exact record_rewritten_fails hdb₁ hlookup hbalance rfl rfl rfl

/-- The status part of an update. An accepted order consumes its stock, and any other status writes
no stock. -/
theorem update_status_fails (hdb : db.Episodic) (hsane : db.Sane)
    (horganization : context.organization_id = db.organization_id) (command : UpdateOrder)
    (order : Order) :
    Fails Failure.NoFault (update_status lib context command draw db order) := by
  unfold update_status
  split
  · exact fails_pure _
  · refine fails_bind (ensure_valid_order_transition_fails _ _ _) fun requested _ => ?_
    · split_ifs
      · exact fails_bind (check_stock_fails _) fun _ _ => fails_pure _
      · exact fails_bind (consume_order_stock_fails hdb hsane horganization order) fun _ _ =>
          fails_pure _
      · exact fails_pure _

end Orders

/-- Updating an order. The items and the status are checked before anything is written. -/
theorem OrderService.update_fails (hdb : db.Episodic) (hsane : db.Sane) (order_id : ℕ)
    (command : UpdateOrder) :
    Fails Failure.NoFault (update lib context order_id command draw db) := by
  refine fails_bind (get_order_or_error_fails _) fun before hbefore => ?_
  obtain ⟨horganization, -⟩ := get_order_or_error_ok hbefore
  refine fails_bind (authorize_order_update_fails _ _ _ _) fun _ _ => ?_
  refine fails_bind (update_status_fails hdb hsane horganization _ _) fun _ _ => ?_
  refine fails_bind (update_details_fails _ _) fun _ _ => ?_
  refine fails_bind (update_items_fails _ _) fun _ _ => ?_
  refine fails_bind (update_revision_fails _ _) fun _ _ => ?_
  refine fails_bind stores_ensure fun _ _ => ?_
  refine fails_bind ?_ fun _ _ => fails_pure _
  unfold append_status
  split_ifs
  · split
    · exact Branch.append_fails _ _ _ _ _
    · exact fails_pure _
  · exact fails_pure _

/-- Deleting an order. -/
theorem OrderService.delete_fails (order_id : ℕ) :
    Fails Failure.NoFault (delete context order_id draw db) := by
  refine fails_bind (get_order_or_error_fails _) fun _ _ => ?_
  refine fails_bind (require_fails _) fun _ _ => ?_
  refine fails_bind (refuses_ensure trivial) fun _ _ => ?_
  refine fails_bind (next_order_revision_fails _) fun _ _ => ?_
  exact fails_bind (Branch.append_fails _ _ _ _ _) fun _ _ => fails_pure _

/-! ## Catalog requests -/

/-- Announcing a catalog change. -/
theorem emit_change_fails (db : Branch) (menu_id : ℕ) (operation : CatalogOperation)
    (item : Option MenuItem) :
    Fails Failure.NoFault (emit_change db draw context menu_id operation item) :=
  Branch.append_fails _ _ _ _ _

/-- Every request of the catalog service. The service writes no stock, so no fault of the inventory
can come from it. -/
theorem catalog_fails (command : Command)
    (h : match command with
      | .create_menu .. | .update_menu .. | .delete_menu .. | .create_menu_item ..
      | .update_menu_item .. | .delete_menu_item .. => True
      | _ => False) : Fails Failure.NoFault (exec lib command draw db) := by
  cases command with
  | create_menu context command =>
    refine fails_bind ?_ fun _ _ => fails_pure _
    refine fails_bind Branch.restaurant_fails fun _ _ => ?_
    refine fails_bind (require_fails _) fun _ _ => ?_
    refine fails_bind stores_ensure fun _ _ => ?_
    exact fails_bind (emit_change_fails _ _ _ _) fun _ _ => fails_pure _
  | update_menu context id command =>
    refine fails_bind ?_ fun _ _ => fails_pure _
    refine fails_bind (get_menu_by_id_fails _) fun _ _ => ?_
    refine fails_bind (require_fails _) fun _ _ => ?_
    simp only
    split_ifs
    · exact fails_bind (emit_change_fails _ _ _ _) fun _ _ => fails_pure _
    · exact fails_pure _
  | delete_menu context id =>
    refine fails_bind ?_ fun _ _ => fails_pure _
    refine fails_bind (get_menu_by_id_fails _) fun _ _ => ?_
    refine fails_bind (require_fails _) fun _ _ => ?_
    refine fails_bind (refuses_ensure trivial) fun _ _ => ?_
    exact fails_bind (emit_change_fails _ _ _ _) fun _ _ => fails_pure _
  | create_menu_item context id command =>
    refine fails_bind ?_ fun _ _ => fails_pure _
    refine fails_bind (get_menu_by_id_fails _) fun _ _ => ?_
    refine fails_bind (require_fails _) fun _ _ => ?_
    refine fails_bind (validate_menu_price_fails _) fun _ _ => ?_
    refine fails_bind stores_ensure fun _ _ => ?_
    exact fails_bind (emit_change_fails _ _ _ _) fun _ _ => fails_pure _
  | update_menu_item context id command =>
    refine fails_bind ?_ fun _ _ => fails_pure _
    refine fails_bind (get_menu_item_by_id_fails _) fun _ _ => ?_
    refine fails_bind (require_fails _) fun _ _ => ?_
    refine fails_bind (requested_price_fails _ _) fun _ _ => ?_
    simp only
    split
    · exact fails_bind (emit_change_fails _ _ _ _) fun _ _ => fails_pure _
    · exact fails_pure _
  | delete_menu_item context id =>
    refine fails_bind ?_ fun _ _ => fails_pure _
    refine fails_bind (get_menu_item_by_id_fails _) fun _ _ => ?_
    refine fails_bind (require_fails _) fun _ _ => ?_
    split
    · simp only
      split
      · exact emit_change_fails _ _ _ _
      · exact fails_pure _
    · exact fails_bind (emit_change_fails _ _ _ _) fun _ _ => fails_pure _
  | _ => exact h.elim

/-- No command ends in a fault in a restaurant with sound episodes. -/
theorem exec_fails (hdb : db.Episodic) (hsane : db.Sane) (command : Command) :
    Fails Failure.NoFault (exec lib command draw db) := by
  cases command with
  | create_ingredient context data =>
    exact fails_bind (InventoryService.create_fails hdb hsane.keys data) fun _ _ => fails_pure _
  | update_ingredient context id data =>
    exact fails_bind (InventoryService.update_fails hdb id data) fun _ _ => fails_pure _
  | change_stock context id data =>
    exact fails_bind (InventoryService.change_fails hdb id data) fun _ _ => fails_pure _
  | create_order context command =>
    exact fails_bind (OrderService.create_fails (fun hfault => hfault) command) fun _ _ => fails_pure _
  | update_order context id command =>
    exact fails_bind (OrderService.update_fails hdb hsane id command) fun _ _ => fails_pure _
  | delete_order context id =>
    exact fails_bind (OrderService.delete_fails id) fun _ _ => fails_pure _
  | replace_recipe context id command =>
    exact fails_bind (RecipesService.replace_fails id command) fun _ _ => fails_pure _
  | maintenance_initialization organization_id =>
    exact fails_bind (maintenance_initialization_fails hdb hsane.keys organization_id) fun _ _ =>
      fails_pure _
  | create_menu context command => exact catalog_fails _ trivial
  | update_menu context id command => exact catalog_fails _ trivial
  | delete_menu context id => exact catalog_fails _ trivial
  | create_menu_item context id command => exact catalog_fails _ trivial
  | update_menu_item context id command => exact catalog_fails _ trivial
  | delete_menu_item context id => exact catalog_fails _ trivial

end RestaurantOS
