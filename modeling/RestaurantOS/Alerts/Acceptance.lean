import RestaurantOS.Inventory.Faults
import RestaurantOS.Schema

/-!
# The alert consumer accepts the events of its restaurant

What the projection holds are facts of the inventory, present or past, and those meet the constraints
of its tables (`Mirrors.constraints`). So an event that the restaurant has emitted can be processed at
any time (`accepts_event`): the ingredient is there with its balance, the facts of its episodes
pass their check, and the flush fails on nothing. -/

namespace RestaurantOS.Alerts

open Fallible Events Inventory

/-! ## The constraints -/

/-- An episode that the inventory's tables accept is one that the projection accepts, with its
resolution or without. -/
theorem of_facts_constraints {episode : InventoryLowStockEpisode} (hguarded : episode.Guarded)
    (hcheck : episode_check episode = .ok ()) :
    (AlertEpisode.of_facts episode).constraints ∧
      (AlertEpisode.of_facts episode.opening).constraints := by
  obtain ⟨⟨-, hingredient⟩, hopening, -, hlater, -⟩ := episode_check_ok.mp hcheck
  refine ⟨⟨hingredient, hopening, hguarded.quantity, hguarded.threshold, fun revision hrevision => ?_⟩,
    ⟨hingredient, hopening, hguarded.quantity, hguarded.threshold, fun revision hrevision => ?_⟩⟩
  · exact (hlater revision hrevision).le
  · exact absurd hrevision (Option.not_mem_none _)

/-- So is the state of an ingredient. The record is guarded, and the row has its quantity, threshold
and revision. -/
theorem Shows.constraints {row : AlertIngredientState} {record : IngredientRecord}
    (h : Shows row record) (hguarded : record.Guarded) (hid : 0 < row.ingredient_id)
    (hrevision : 1 ≤ record.revision) : row.constraints := by
  have hstate := h.state
  unfold IngredientRecord.state at hstate
  rw [Prod.mk.injEq, Prod.mk.injEq] at hstate
  obtain ⟨hquantity, hthreshold, hactive⟩ := hstate
  obtain ⟨balance, hbalance, hsame⟩ := Option.map_eq_some_iff.mp hquantity
  have hrange := (hguarded.balance balance hbalance).2
  have hlow : record.is_low = (row.is_active && decide (row.quantity ≤ row.reorder_threshold)) := by
    unfold IngredientRecord.is_low
    rw [hbalance, ← hsame, ← hthreshold, ← hactive]
  refine ⟨hid, h.revision ▸ hrevision, ⟨?_, ?_⟩, h.is_low.trans hlow⟩
  · rw [← hsame]
    exact hrange.1
  · rw [← hthreshold]
    exact hguarded.threshold.1

section Runs

variable {lib : StrippingLibrary} {start : ℕ → LegacyBranch} {k : ℕ} {requests : List Act}
  {p : AlertProjection}

/-- A projection that mirrors a guarded restaurant meets the constraints of its tables. -/
theorem Mirrors.constraints (hstart : (start k).toBranch.Guarded)
    (h : Mirrors lib.toLibrary start k requests p) :
    (∀ row ∈ p.episodes, row.constraints) ∧ ∀ row ∈ p.states, row.constraints := by
  refine ⟨fun row hrow => ?_, fun row hrow => ?_⟩
  · obtain ⟨episode, hepisode, hfacts⟩ := h.episodes row hrow
    obtain ⟨record, hrecord, hmem⟩ := mem_episodes.mp hepisode
    have hguarded := (run_guarded lib hstart requests record hrecord).episodes episode hmem
    have hsound := (run_episodic lib.toLibrary start requests k).sound record hrecord
    obtain ⟨hwhole, hopening⟩ := of_facts_constraints hguarded (hsound.checked episode hmem)
    rcases hfacts with rfl | rfl
    · exact hwhole
    · exact hopening
  · obtain ⟨pre, -, record, hlookup, hshows⟩ := h.states row hrow
    have hrecord := Keyed.lookup_mem hlookup
    have hsound := (run_episodic lib.toLibrary start pre k).sound record hrecord
    refine hshows.constraints (run_guarded lib hstart pre record hrecord) ?_ hsound.revision_positive
    rw [← Keyed.lookup_key hlookup]
    exact hsound.positive

/-- So it can be flushed. -/
theorem Mirrors.flush (hstart : (start k).toBranch.Guarded)
    (h : Mirrors lib.toLibrary start k requests p) : p.flush = .ok p := by
  unfold AlertProjection.flush
  rw [ensure_bind (h.constraints hstart)]
  rfl

/-- An episode of the restaurant can be synchronized. Its facts load, as every episode of the
restaurant passes its check. -/
theorem Mirrors.syncs (h : Mirrors lib.toLibrary start k requests p) (episode_id : UUID) :
    ∃ p', p.sync_episode ((run lib.toLibrary start requests).rows k) episode_id = .ok p' ∧
      Mirrors lib.toLibrary start k requests p' := by
  have hepisodic := run_episodic lib.toLibrary start requests k
  have hloads : ∃ facts, load_inventory_episode_facts ((run lib.toLibrary start requests).rows k)
      episode_id = .ok facts := by
    refine exists_of_fails (current_facts_fails fun episode hepisode => ?_)
    obtain ⟨record, hrecord, hmem⟩ := mem_episodes.mp (Keyed.lookup_mem (Option.mem_def.mp hepisode))
    exact (hepisodic.sound record hrecord).checked episode hmem
  obtain ⟨facts, hfacts⟩ := hloads
  have hsync : ∃ p', p.sync_episode ((run lib.toLibrary start requests).rows k) episode_id = .ok p' := by
    unfold AlertProjection.sync_episode
    rw [hfacts]
    cases facts with
    | none => exact ⟨p, rfl⟩
    | some facts => exact ⟨p.store_episode_facts facts, rfl⟩
  obtain ⟨p', hsync⟩ := hsync
  exact ⟨p', hsync, (h.sync_episode hsync).1⟩

/-- The state of an ingredient that an event is about can be loaded. The event has been emitted
about a record with a balance, and neither is ever deleted. -/
theorem loads_inventory_state {event : EventEnvelope Payload} {id : ℕ}
    (hid : event.payload.ingredient_id = some id)
    (hevent : event ∈ ((run lib.toLibrary start requests).rows k).events) :
    ∃ current, load_inventory_state ((run lib.toLibrary start requests).rows k) event.organization_id
      event.restaurant_id id = .ok current := by
  have hepisodic := run_episodic lib.toLibrary start requests k
  obtain ⟨horganization, hrestaurant, hall⟩ := run_enveloped lib.toLibrary start requests k
  have henveloped := hall event hevent
  have hemitted : event ∈ ((run lib.toLibrary start requests).rows k).ingredient_events id :=
    List.mem_filter.mpr ⟨hevent, decide_eq_true hid⟩
  obtain ⟨record, hlookup, -, hsome, -⟩ :=
    (run_recounted lib.toLibrary start requests k id).backed event hemitted
  obtain ⟨balance, hbalance⟩ := Option.isSome_iff_exists.mp hsome
  -- An emitted event carries the identifiers of its restaurant.
  have hscope : event.restaurant_id = ((run lib.toLibrary start requests).rows k).restaurant_id ∧
      event.organization_id = ((run lib.toLibrary start requests).rows k).organization_id := by
    rw [horganization, hrestaurant]
    exact ⟨henveloped.restaurant_id, henveloped.organization_id⟩
  have hingredient : ((run lib.toLibrary start requests).rows k).ingredient id =
      .ok (record, balance) := by
    unfold Branch.ingredient
    rw [hlookup]
    simp only [hbalance]
    rfl
  -- Loading fails only where the record or its facts are missing.
  obtain ⟨current, hcurrent⟩ := exists_of_fails (@load_state_fails _ _ record balance
    hepisodic.restaurant (hepisodic.sound record (Keyed.lookup_mem hlookup)))
  refine ⟨current, ?_⟩
  unfold load_inventory_state
  rw [ensure_bind hscope, ok_bind hingredient, hscope.2]
  exact hcurrent

/-- An event that the restaurant has emitted can be processed. Loading finds the live state, and the
rows that are stored meet the constraints of the projection. -/
theorem accepts_event (hstart : (start k).toBranch.Guarded)
    (h : Mirrors lib.toLibrary start k requests p) {event : EventEnvelope Payload}
    (hsome : event.payload.ingredient_id.isSome)
    (hevent : event ∈ ((run lib.toLibrary start requests).rows k).events) :
    ∃ result, apply_alert_event ((run lib.toLibrary start requests).rows k) event p = .ok result := by
  obtain ⟨id, hid⟩ := Option.isSome_iff_exists.mp hsome
  obtain ⟨current, hcurrent⟩ := loads_inventory_state hid hevent
  obtain ⟨record, hrecord, -, hshows⟩ := load_inventory_state_shows hcurrent
  unfold apply_alert_event
  -- The cases are the events of an ingredient.
  cases hpayload : event.payload with
  | inventory_low payload =>
    rw [hpayload] at hid
    obtain rfl : payload.ingredient_id = id := Option.some.inj hid
    obtain ⟨p₁, hsync, hmirrors⟩ := h.syncs payload.episode_id
    dsimp only
    rw [ok_bind hcurrent, ok_bind hsync, ok_bind (hmirrors.flush hstart)]
    exact ⟨_, rfl⟩
  | inventory_state_changed payload =>
    rw [hpayload] at hid
    obtain rfl : payload.ingredient_id = id := Option.some.inj hid
    -- The transition stores an episode of the producer or nothing.
    have htransition : ∃ p₁, p.sync_transition ((run lib.toLibrary start requests).rows k) payload =
        .ok p₁ ∧ Mirrors lib.toLibrary start k requests p₁ := by
      unfold AlertProjection.sync_transition
      split
      · exact h.syncs _
      · exact ⟨p, rfl, h⟩
    obtain ⟨p₁, hsync, hmirrors⟩ := htransition
    dsimp only
    rw [ok_bind hcurrent, ok_bind hsync]
    split_ifs
    · rw [ok_bind (hmirrors.flush hstart)]
      exact ⟨_, rfl⟩
    · -- The state is stored with the live revision.
      have hstored := fun occurred_at =>
        (hmirrors.store_state ((hshows occurred_at).2.symm ▸ hrecord) (hshows occurred_at).1).1
      exact ⟨_, bind_eq_ok.mpr ⟨_, (hstored _).flush hstart, rfl⟩⟩
  -- No other event is about an ingredient.
  | _ =>
    rw [hpayload] at hid
    cases hid

end Runs

end RestaurantOS.Alerts
