import RestaurantOS.Runs

/-!
# The outbox holds valid envelopes

Every event of the outbox has gone through `append`, so it meets its contract, it belongs to the
restaurant, and its type and aggregate are those of its payload (`Enveloped`). A command appends
events to the outbox and leaves the restaurant where it is (`exec_appends`), so the same holds of
every event in every reachable state (`run_enveloped`). -/

namespace RestaurantOS

open Fallible Catalog Events Inventory Orders Tenancy

/-- An event of a restaurant that meets its contract. -/
structure Enveloped (organization_id : UUID) (restaurant_id : ℕ) (event : EventEnvelope Payload) :
    Prop where
  /-- The contract. -/
  valid : envelope_valid event
  /-- The organization. -/
  organization_id : event.organization_id = organization_id
  /-- The restaurant. -/
  restaurant_id : event.restaurant_id = restaurant_id
  /-- The type is that of the payload. -/
  event_type : event.event_type = event.payload.event_type
  /-- So is the kind of the aggregate. -/
  aggregate_type : event.aggregate_type = event.payload.aggregate.1
  /-- And its key. -/
  aggregate_id : event.aggregate_id = toString event.payload.aggregate.2

/-- The restaurant stays where it is, and the outbox gets valid envelopes. -/
structure Branch.Appends (db db' : Branch) : Prop where
  /-- The organization. -/
  organization_id : db'.organization_id = db.organization_id
  /-- The restaurant. -/
  restaurant_id : db'.restaurant_id = db.restaurant_id
  /-- The outbox. -/
  events : ∃ events, db'.events = db.events ++ events ∧
    ∀ event ∈ events, Enveloped db.organization_id db.restaurant_id event

/-- Appending nothing. -/
theorem Branch.Appends.of_eq {db db' : Branch} (horganization : db'.organization_id = db.organization_id)
    (hrestaurant : db'.restaurant_id = db.restaurant_id) (hevents : db'.events = db.events) :
    db.Appends db' :=
  ⟨horganization, hrestaurant, [], by rw [hevents, List.append_nil], by simp⟩

/-- A branch as it is. -/
theorem Branch.Appends.refl (db : Branch) : db.Appends db := .of_eq rfl rfl rfl

/-- One after the other. The events of both are appended. -/
theorem Branch.Appends.trans {db₁ db₂ db₃ : Branch} (h₁ : db₁.Appends db₂) (h₂ : db₂.Appends db₃) :
    db₁.Appends db₃ := by
  obtain ⟨events₁, hevents₁, henveloped₁⟩ := h₁.events
  obtain ⟨events₂, hevents₂, henveloped₂⟩ := h₂.events
  refine ⟨h₂.organization_id.trans h₁.organization_id, h₂.restaurant_id.trans h₁.restaurant_id,
    events₁ ++ events₂, by rw [hevents₂, hevents₁, List.append_assoc], fun event hevent => ?_⟩
  rcases List.mem_append.mp hevent with hevent | hevent
  · exact henveloped₁ event hevent
  · have h := henveloped₂ event hevent
    rwa [h₁.organization_id, h₁.restaurant_id] at h

/-- `append` validates the event. It is the last of the events, and all of them are of the
restaurant. -/
theorem Branch.Appends.append {db db₁ db₂ : Branch} {draw : Draw} {organization_id : UUID}
    {revision : ℕ} {payload : Payload}
    (hevent : db₁.append draw organization_id revision payload = .ok db₂) (h : db.Appends db₁) :
    db.Appends db₂ := by
  refine h.trans ?_
  obtain ⟨_, hvalid, hevent⟩ := bind_eq_ok.mp hevent
  obtain ⟨_, horganization, hevent⟩ := bind_eq_ok.mp hevent
  rw [← pure_eq_ok.mp hevent]
  refine ⟨rfl, rfl, [_], rfl, fun event hmem => ?_⟩
  obtain rfl := List.mem_singleton.mp hmem
  exact ⟨ensure_eq_ok.mp hvalid, ensure_eq_ok.mp horganization, rfl, rfl, rfl, rfl⟩

section Requests

variable {lib : Library} {context : AccessContext} {draw : Draw} {db db₁ db₂ : Branch}

/-- Recording a transition. It appends the event of the state and perhaps the one of the opened
episode. -/
theorem Branch.Appends.record {organization_id : UUID} {record : IngredientRecord}
    {balance : InventoryBalance} {before : Option InventoryStateSnapshot}
    {source : InventoryTransitionSource} {actor_user_id : Option UUID} {order_id : Option ℕ}
    (hrecord : record_inventory_transition db₁ draw organization_id record balance before source
      actor_user_id order_id = .ok db₂) (h : db.Appends db₁) : db.Appends db₂ := by
  have hput : ∀ {db' : Branch}, db'.organization_id = db₁.organization_id →
      db'.restaurant_id = db₁.restaurant_id → db'.events = db₁.events → db.Appends db' :=
    fun horganization hrestaurant hevents => h.trans (.of_eq horganization hrestaurant hevents)
  unfold record_inventory_transition at hrecord
  simp only at hrecord
  split at hrecord
  · obtain ⟨_, -, hrecord⟩ := bind_eq_ok.mp hrecord
    obtain ⟨boundary, -, hrecord⟩ := bind_eq_ok.mp hrecord
    obtain ⟨transition, -, hrecord⟩ := bind_eq_ok.mp hrecord
    obtain ⟨db₃, hstate, hrecord⟩ := bind_eq_ok.mp hrecord
    have happended : db.Appends db₃ := Branch.Appends.append hstate (hput rfl rfl rfl)
    unfold append_low at hrecord
    split at hrecord
    · split at hrecord
      · exact happended.append hrecord
      · cases hrecord
    · rw [← pure_eq_ok.mp hrecord]
      exact happended
  · rw [← pure_eq_ok.mp hrecord]
    exact hput rfl rfl rfl

/-- Recording a baseline. It appends the event of the opened episode, if there is one. -/
theorem Branch.Appends.baseline {organization_id : UUID} {id : ℕ} {observed_at : Timestamp}
    (hbaseline : record_baseline_inventory_episode db₁ organization_id id observed_at = .ok db₂)
    (h : db.Appends db₁) : db.Appends db₂ := by
  refine h.trans ?_
  revert hbaseline
  refine (?_ : Returns (fun db₂ => db₁.Appends db₂) _) db₂
  refine returns_bind fun _ _ => ?_
  simp only
  split
  · exact returns_bind fun _ _ => returns_pure (.of_eq rfl rfl rfl)
  · exact returns_bind fun _ _ => returns_pure (.refl _)

/-- Creating an ingredient. It emits the state of the new ingredient. -/
theorem InventoryService.create_appends (data : CreateIngredient) :
    Returns (fun result => db.Appends result.1) (create lib context data draw db) := by
  refine returns_bind fun _ _ => returns_bind fun _ _ => returns_bind fun _ _ =>
    returns_bind fun _ _ => returns_bind fun _ _ => ?_
  split
  · exact returns_bind fun _ _ => returns_bind fun _ _ => returns_pure (.refl _)
  · refine returns_bind fun _ _ => returns_bind fun _ _ =>
      returns_bind fun db₁ hrecord => returns_pure ?_
    exact Branch.Appends.record hrecord (.of_eq rfl rfl rfl)

/-- Updating an ingredient. -/
theorem InventoryService.update_appends (id : ℕ) (data : UpdateIngredient) :
    Returns (fun result => db.Appends result.1) (update lib context id data draw db) := by
  refine returns_bind fun _ _ => returns_bind fun _ _ => returns_bind fun _ _ =>
    returns_bind fun _ _ => returns_bind fun _ _ => returns_bind fun _ _ => returns_bind fun _ _ =>
      returns_bind fun db₁ hrecord => returns_pure ?_
  exact (Branch.Appends.refl db).record hrecord

/-- Changing the stock of an ingredient. It emits the new state, unless the request is a replay. -/
theorem InventoryService.change_appends (id : ℕ) (data : ChangeStock) :
    Returns (fun result => db.Appends result.1) (change lib context id data draw db) := by
  refine returns_bind fun _ _ => returns_bind fun _ _ => ?_
  simp only
  cases stock_kind data.kind with
  | none => exact returns_throw
  | some kind =>
    refine returns_bind fun _ _ => returns_bind fun _ _ => returns_bind fun _ _ =>
      returns_bind fun _ _ => ?_
    split
    · exact returns_bind fun _ _ => returns_pure (.refl _)
    · refine returns_bind fun _ _ => returns_bind fun _ _ => returns_bind fun _ _ =>
        returns_bind fun _ _ => returns_bind fun db₁ hrecord => returns_pure ?_
      exact (Branch.Appends.refl db).record hrecord

/-- Initializing a restaurant. Every baseline appends its own events. -/
theorem maintenance_initialization_appends (organization_id : UUID) :
    Returns (fun db' => db.Appends db') (maintenance_initialization organization_id draw db) := by
  refine returns_bind fun _ _ => returns_bind fun states _ => ?_
  split
  · exact returns_pure (.refl _)
  · refine returns_bind fun db₁ hfold => returns_pure ?_
    have hbaselines : db.Appends db₁ := by
      refine foldlM_invariant (fun _ db₁ => db.Appends db₁) hfold (.refl db) ?_
      intro done transition db₁ db₂ _ _ h hstep
      split at hstep
      · exact h.baseline hstep
      · rw [← pure_eq_ok.mp hstep]
        exact h
    exact hbaselines.trans (.of_eq rfl rfl rfl)

/-- Consuming the stock of an order. -/
theorem consume_order_stock_appends (order : Order) :
    Returns (fun db' => db.Appends db') (consume_order_stock context draw order db) := by
  refine returns_bind fun rows _ db' hfold => ?_
  refine foldlM_invariant (fun _ db₁ => db.Appends db₁) hfold (.refl db) ?_
  intro done row db₁ db₂ _ _ h hstep
  exact h.record hstep

/-- Creating an order. -/
theorem OrderService.create_appends (command : CreateOrder) :
    Returns (fun result => db.Appends result.1) (create lib context command draw db) := by
  refine returns_bind fun _ _ => returns_bind fun _ _ => returns_bind fun _ _ => ?_
  split
  · exact returns_bind fun _ _ => returns_pure (.refl _)
  · exact returns_bind fun _ _ => returns_bind fun _ _ => returns_bind fun _ _ =>
      returns_pure (.of_eq rfl rfl rfl)

/-- The status part of an update. Accepting consumes stock, which emits the states of the
ingredients. -/
theorem update_status_appends (command : UpdateOrder) (order : Order) :
    Returns (fun result => db.Appends result.1) (update_status lib context command draw db order) := by
  unfold update_status
  split
  · exact returns_pure (.refl _)
  · refine returns_bind fun _ _ => ?_
    split
    · exact returns_bind fun _ _ => returns_pure (.refl _)
    · split
      · refine returns_bind fun db₁ hconsume => returns_pure ?_
        exact consume_order_stock_appends _ _ hconsume
      · exact returns_pure (.refl _)

/-- Updating an order. The status comes last, after the events of the stock. -/
theorem OrderService.update_appends (order_id : ℕ) (command : UpdateOrder) :
    Returns (fun result => db.Appends result.1) (update lib context order_id command draw db) := by
  refine returns_bind fun _ _ => returns_bind fun _ _ => returns_bind fun result hstatus =>
    returns_bind fun _ _ => returns_bind fun result' hitems => returns_bind fun _ _ =>
      returns_bind fun _ _ => returns_bind fun db₁ hevent => returns_pure ?_
  have hstatus : db.Appends result.1 := update_status_appends _ _ _ hstatus
  obtain ⟨⟨_, hnext⟩, -⟩ := update_items_ok hitems
  have hitems : result.1.Appends result'.1 := by
    rw [hnext]
    exact .of_eq rfl rfl rfl
  have hput : ∀ {db' : Branch}, db'.organization_id = result'.1.organization_id →
      db'.restaurant_id = result'.1.restaurant_id → db'.events = result'.1.events →
        db.Appends db' := fun horganization hrestaurant hevents =>
    hstatus.trans (hitems.trans (.of_eq horganization hrestaurant hevents))
  unfold append_status at hevent
  split at hevent
  · split at hevent
    · exact Branch.Appends.append hevent (hput rfl rfl rfl)
    · rw [← pure_eq_ok.mp hevent]
      exact hput rfl rfl rfl
  · rw [← pure_eq_ok.mp hevent]
    exact hput rfl rfl rfl

/-- Deleting an order. -/
theorem OrderService.delete_appends (order_id : ℕ) :
    Returns (fun db' => db.Appends db') (delete context order_id draw db) := by
  refine returns_bind fun _ _ => returns_bind fun _ _ => returns_bind fun _ _ =>
    returns_bind fun _ _ => returns_bind fun db₁ hevent => returns_pure ?_
  exact ((Branch.Appends.refl db).append hevent).trans (.of_eq rfl rfl rfl)

/-- Announcing a catalog change. -/
theorem Branch.Appends.emit {menu_id : ℕ} {operation : CatalogOperation} {item : Option MenuItem}
    (hevent : emit_change db₁ draw context menu_id operation item = .ok db₂) (h : db.Appends db₁) :
    db.Appends db₂ :=
  h.append hevent

/-- A command of the catalog. -/
theorem CatalogWrite.appends {command : Command} {db' : Branch}
    (h : CatalogWrite db draw context command db') : db.Appends db' := by
  cases h with
  | menu_created _ _ _ hemit | menu_edited _ _ _ hemit | item_created _ _ _ _ _ _ hemit
  | item_written _ _ _ hemit => exact Branch.Appends.emit hemit (.of_eq rfl rfl rfl)
  | menu_deleted _ _ _ hemit | item_deleted _ _ hemit =>
    exact (Branch.Appends.emit hemit (.refl db)).trans (.of_eq rfl rfl rfl)
  | menu_kept | item_kept | recipe_replaced => exact .of_eq rfl rfl rfl

/-- Every command appends valid envelopes. One lemma for each service that emits events; each shows
the fields that the contract checks. -/
theorem exec_appends (command : Command) :
    Returns (fun result => db.Appends result.1) (exec lib command draw db) := by
  cases command with
  | create_ingredient context data =>
    refine returns_bind fun result h => returns_pure ?_
    exact InventoryService.create_appends data _ h
  | update_ingredient context id data =>
    refine returns_bind fun result h => returns_pure ?_
    exact InventoryService.update_appends id data _ h
  | change_stock context id data =>
    refine returns_bind fun result h => returns_pure ?_
    exact InventoryService.change_appends id data _ h
  | create_order context command =>
    refine returns_bind fun result h => returns_pure ?_
    exact OrderService.create_appends command _ h
  | update_order context id command =>
    refine returns_bind fun result h => returns_pure ?_
    exact OrderService.update_appends id command _ h
  | delete_order context id =>
    refine returns_bind fun result h => returns_pure ?_
    exact OrderService.delete_appends id _ h
  | create_menu | update_menu | delete_menu | create_menu_item | update_menu_item
  | delete_menu_item | replace_recipe =>
    intro result h
    obtain ⟨context, -, hwrite⟩ := exec_catalog_write rfl h
    exact hwrite.appends
  | maintenance_initialization organization_id =>
    refine returns_bind fun result h => returns_pure ?_
    exact maintenance_initialization_appends organization_id _ h

end Requests

/-! ## Runs -/

/-- Every event of the outbox is a valid envelope, in every reachable state. The scope of the
envelopes is that of the restaurant, which no command changes. -/
theorem run_enveloped (lib : Library) (start : ℕ → LegacyBranch) (acts : List Act) (k : ℕ) :
    ((run lib start acts).rows k).organization_id = (start k).organization_id ∧
      ((run lib start acts).rows k).restaurant_id = (start k).restaurant_id ∧
      ∀ event ∈ ((run lib start acts).rows k).events,
        Enveloped (start k).organization_id (start k).restaurant_id event := by
  induction acts using List.reverseRecOn with
  | nil =>
    refine ⟨rfl, rfl, fun event hevent => ?_⟩
    have hnone : ((run lib start []).rows k).events = [] := (start k).legacy.events
    rw [hnone] at hevent
    exact absurd hevent List.not_mem_nil
  | append_singleton acts a ih =>
    rcases run_step_exec lib start acts a k with hsame |
      ⟨i, request, draw, value, response, -, -, -, -, hexec, hrows⟩
    · rw [hsame]
      exact ih
    · obtain ⟨horganization, hrestaurant, hold⟩ := ih
      -- The committed command appends valid envelopes of its own scope.
      have happends := exec_appends request.command _ hexec
      obtain ⟨events, hevents, hnew⟩ := happends.events
      rw [hrows]
      refine ⟨happends.organization_id.trans horganization,
        happends.restaurant_id.trans hrestaurant, fun event hevent => ?_⟩
      rw [hevents] at hevent
      rcases List.mem_append.mp hevent with hevent | hevent
      · exact hold event hevent
      · have henveloped := hnew event hevent
        rwa [horganization, hrestaurant] at henveloped

/-- The events of the outbox stay. -/
theorem run_events_append (lib : Library) (start : ℕ → LegacyBranch) (acts : List Act) (a : Act)
    (k : ℕ) : ∃ events, ((run lib start (acts ++ [a])).rows k).events =
      ((run lib start acts).rows k).events ++ events := by
  rcases run_step_exec lib start acts a k with hsame |
    ⟨i, request, draw, value, response, -, -, -, -, hexec, hrows⟩
  · exact ⟨[], by rw [hsame, List.append_nil]⟩
  · obtain ⟨events, hevents, -⟩ := (exec_appends request.command _ hexec).events
    exact ⟨events, by rw [hrows, hevents]⟩

end RestaurantOS
