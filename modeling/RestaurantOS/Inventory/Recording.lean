import RestaurantOS.Inventory.Service

/-!
# What recording a transition does

`record_inventory_transition` writes one record of the branch, appends the events of the change, and
touches nothing else (`record_inventory_transition_ok`). What it leaves of the record is `Recorded`:
the revision goes up exactly if the state has changed, and what happens to the episodes depends on
the edge of the low predicate alone (`Crossing`). -/

namespace RestaurantOS

open Fallible Events Inventory

/-- An appended event is one more event at the end of the outbox. -/
theorem Branch.append_ok {db db' : Branch} {draw : Draw} {organization_id : UUID} {revision : ℕ}
    {payload : Payload} (h : db.append draw organization_id revision payload = .ok db') :
    ∃ event : EventEnvelope Payload, event.payload = payload ∧
      event.aggregate_revision = revision ∧ event.occurred_at = draw.occurred_at ∧
        db' = { db with
          events := db.events ++ [event]
          next_uuid := db.next_uuid + 1 } := by
  obtain ⟨_, -, h⟩ := bind_eq_ok.mp h
  obtain ⟨_, -, h⟩ := bind_eq_ok.mp h
  exact ⟨_, rfl, rfl, rfl, (pure_eq_ok.mp h).symm⟩

/-- What `append` may fail with. -/
theorem Branch.append_fails (db : Branch) (draw : Draw) (organization_id : UUID) (revision : ℕ)
    (payload : Payload) :
    Fails (fun failure => ¬ failure.is_inventory_fault)
      (db.append draw organization_id revision payload) := by
  refine fails_bind (fails_ensure fun _ => id) fun _ _ => ?_
  exact fails_bind (fails_ensure fun _ => id) fun _ _ => fails_pure _

/-- The branch after a record is written and events are appended. -/
def Branch.write (db : Branch) (record : IngredientRecord)
    (events : List (EventEnvelope Payload)) (next_uuid : UUID) : Branch :=
  { db.put record with
    events := db.events ++ events
    next_uuid := next_uuid }

namespace Inventory

/-- The unresolved episode of a list. The first one is the only one in every reachable state. -/
def unresolved (episodes : List InventoryLowStockEpisode) : Option InventoryLowStockEpisode :=
  episodes.find? fun episode => episode.resolved_at.isNone

/-- The ingredient of a record is low. It is in use, and its balance has reached the threshold. -/
def IngredientRecord.is_low (record : IngredientRecord) : Bool :=
  match record.balance with
  | some balance => record.item.is_active && decide (balance.quantity ≤ record.item.reorder_threshold)
  | none => false

/-- What recording a change does to the episodes of an ingredient: a rising edge of the low predicate
opens an episode, where none is open, and a falling edge resolves the open one, if there is one. -/
inductive Crossing (episodes : List InventoryLowStockEpisode)
    (before : Option InventoryStateSnapshot) (after : InventoryStateSnapshot) (episode_id : UUID) :
    Boundary → Prop
  | opened (hedge : low_episode_transition before after = some .opened)
    (hnone : unresolved episodes = none) (timestamp : Timestamp)
    (source : InventoryTransitionSource) (actor_user_id : Option UUID) (order_id : Option ℕ)
    (fact : InventoryEpisodeTransition)
    (hfact : fact.kind = .opened ∧ fact.episode_id = episode_id ∧ fact.resolution_reason = none) :
    Crossing episodes before after episode_id
      ⟨episodes ++ [opening_facts after episode_id timestamp source actor_user_id order_id false],
        some (opening_facts after episode_id timestamp source actor_user_id order_id false), some fact⟩
  | resolved (hedge : low_episode_transition before after = some .resolved)
    (episode : InventoryLowStockEpisode) (hopen : unresolved episodes = some episode)
    (timestamp : Timestamp) (reason : EpisodeResolutionReason) (source : InventoryTransitionSource)
    (actor_user_id : Option UUID) (order_id : Option ℕ) (fact : InventoryEpisodeTransition)
    (hfact : fact.kind = .resolved ∧ fact.episode_id = episode.episode_id ∧
      fact.resolution_reason = some reason) :
    Crossing episodes before after episode_id
      ⟨Keyed.put InventoryLowStockEpisode.episode_id
          (closing_facts episode after timestamp reason source actor_user_id order_id) episodes,
        some (closing_facts episode after timestamp reason source actor_user_id order_id), some fact⟩
  | untracked (hedge : low_episode_transition before after = some .resolved)
    (hnone : unresolved episodes = none) :
    Crossing episodes before after episode_id ⟨episodes, none, none⟩
  | level (hedge : low_episode_transition before after = none) :
    Crossing episodes before after episode_id ⟨episodes, unresolved episodes, none⟩

/-- A built transition carries the values it is built from. -/
theorem episode_transition_ok {episode_id : UUID} {kind : EpisodeTransitionKind}
    {occurred_at : Timestamp} {reason : Option EpisodeResolutionReason}
    {fact : InventoryEpisodeTransition}
    (h : episode_transition episode_id kind occurred_at reason = .ok fact) :
    fact.kind = kind ∧ fact.episode_id = episode_id ∧ fact.resolution_reason = reason := by
  unfold episode_transition at h
  split at h
  · cases h
    exact ⟨rfl, rfl, rfl⟩
  · cases h

/-- Built facts are a copy of the episode. -/
theorem episode_facts_ok {episode : InventoryLowStockEpisode} {facts : InventoryEpisodeFacts}
    (h : episode_facts episode = .ok facts) : facts.episode = episode := by
  unfold episode_facts at h
  split at h
  · cases h
    rfl
  · cases h

/-- The facts of the current episode are a copy of it. -/
theorem current_facts_ok {episode : Option InventoryLowStockEpisode}
    {facts : Option InventoryEpisodeFacts} (h : current_facts episode = .ok facts) :
    facts.map (·.episode) = episode := by
  cases episode with
  | none =>
    obtain rfl := pure_eq_ok.mp h
    rfl
  | some episode =>
    obtain ⟨copy, hcopy, h⟩ := bind_eq_ok.mp h
    obtain rfl := pure_eq_ok.mp h
    exact congrArg some (episode_facts_ok hcopy)

/-- A built state carries the values it is built from. -/
theorem inventory_transition_ok {state : InventoryStateSnapshot} {episode_id : Option UUID}
    {fact : Option InventoryEpisodeTransition} {facts : Option InventoryEpisodeFacts}
    {transition : InventoryTransition}
    (h : inventory_transition state episode_id fact facts = .ok transition) :
    transition.state = state ∧ transition.episode_id = episode_id ∧
      transition.episode_transition = fact ∧ transition.episode_facts = facts := by
  unfold inventory_transition at h
  split at h
  · cases h
    exact ⟨rfl, rfl, rfl, rfl⟩
  · cases h

/-- A snapshot carries the state, the boundary and the episode it is taken of. -/
theorem transition_snapshot_ok {state : InventoryStateSnapshot}
    {episode : Option InventoryLowStockEpisode} {fact : Option InventoryEpisodeTransition}
    {transition : InventoryTransition}
    (h : transition_snapshot state episode fact = .ok transition) :
    transition.state = state ∧ transition.episode_transition = fact ∧
      transition.episode_facts.map (·.episode) = episode ∧
      transition.episode_id =
        (episode.map (·.episode_id)).or (fact.map (·.episode_id)) := by
  unfold transition_snapshot at h
  obtain ⟨facts, hfacts, h⟩ := bind_eq_ok.mp h
  obtain ⟨hstate, hid, hfact, hcopy⟩ := inventory_transition_ok h
  refine ⟨hstate, hfact, hcopy ▸ current_facts_ok hfacts, hid.trans ?_⟩
  cases episode <;> cases fact <;> rfl

/-- Crossing a boundary does to the episodes what `Crossing` says. -/
theorem cross_boundary_ok {episodes : List InventoryLowStockEpisode}
    {before : Option InventoryStateSnapshot} {after : InventoryStateSnapshot} {episode_id : UUID}
    {timestamp : Timestamp} {source : InventoryTransitionSource} {actor_user_id : Option UUID}
    {order_id : Option ℕ} {boundary : Boundary}
    (h : cross_boundary episodes (unresolved episodes) before after episode_id timestamp source
      actor_user_id order_id = .ok boundary) :
    Crossing episodes before after episode_id boundary := by
  unfold cross_boundary at h
  cases hedge : low_episode_transition before after with
  | none =>
    simp only [hedge] at h
    rw [← pure_eq_ok.mp h]
    exact .level hedge
  | some kind =>
    cases kind with
    | opened =>
      simp only [hedge] at h
      obtain ⟨_, hnone, h⟩ := bind_eq_ok.mp h
      obtain ⟨fact, hfact, h⟩ := bind_eq_ok.mp h
      rw [← pure_eq_ok.mp h]
      exact .opened hedge (by simpa using hnone) timestamp source actor_user_id order_id fact
        (episode_transition_ok hfact)
    | resolved =>
      simp only [hedge] at h
      -- Without a state before, the low predicate has no falling edge.
      cases before with
      | none =>
        simp [low_episode_transition] at hedge
      | some before =>
        cases hopen : unresolved episodes with
        | none =>
          simp only [hopen] at h
          rw [← pure_eq_ok.mp h]
          exact .untracked hedge hopen
        | some episode =>
          simp only [hopen] at h
          obtain ⟨reason, -, h⟩ := bind_eq_ok.mp h
          obtain ⟨fact, hfact, h⟩ := bind_eq_ok.mp h
          rw [← pure_eq_ok.mp h]
          exact .resolved hedge episode hopen timestamp reason source actor_user_id order_id fact
            (episode_transition_ok hfact)

/-- The events of a recorded change: the new state, and the opening of an episode. -/
inductive Announced (after : InventoryStateSnapshot) (boundary : Boundary) :
    List Payload → Prop
  | state (transition : InventoryTransition) (hstate : transition.state = after)
    (hfact : transition.episode_transition = boundary.fact)
    (hid : transition.episode_id = (boundary.episode.map (·.episode_id)).or
      (boundary.fact.map (·.episode_id)))
    (hedge : boundary.fact.map (·.kind) ≠ some .opened) :
    Announced after boundary [state_changed_payload transition]
  | low (transition : InventoryTransition) (hstate : transition.state = after)
    (hfact : transition.episode_transition = boundary.fact)
    (hid : transition.episode_id = (boundary.episode.map (·.episode_id)).or
      (boundary.fact.map (·.episode_id)))
    (hedge : boundary.fact.map (·.kind) = some .opened) (facts : InventoryEpisodeFacts)
    (hfacts : boundary.episode = some facts.episode) :
    Announced after boundary [state_changed_payload transition, low_payload facts]

/-- What `record_inventory_transition` leaves of a record, and the events it appends. -/
inductive Recorded (organization_id : UUID) (restaurant_id : ℕ) (episode_id : UUID)
    (record : IngredientRecord) (balance : InventoryBalance)
    (before : Option InventoryStateSnapshot) :
    IngredientRecord → List (EventEnvelope Payload) → Prop
  | unchanged
    (hsame : inventory_state_changed before
      (inventory_state_snapshot organization_id restaurant_id record.item balance) = false) :
    Recorded organization_id restaurant_id episode_id record balance before
      { record with balance := some balance } []
  | changed
    (hchanged : inventory_state_changed before
      (inventory_state_snapshot organization_id restaurant_id record.item balance) = true)
    (record' : IngredientRecord)
    (hrevision : next_state_revision record.item before = .ok record'.item.state_revision)
    (hitem : record'.item = { record.item with state_revision := record'.item.state_revision })
    (hbalance : record'.balance = some balance) (hmovements : record'.movements = record.movements)
    (boundary : Boundary)
    (hcrossing : Crossing record.episodes before
      (inventory_state_snapshot organization_id restaurant_id record'.item balance) episode_id boundary)
    (hepisodes : record'.episodes = boundary.episodes) (events : List (EventEnvelope Payload))
    (hannounced : Announced
      (inventory_state_snapshot organization_id restaurant_id record'.item balance) boundary
      (events.map (·.payload)))
    (hrevisions : ∀ event ∈ events, event.aggregate_revision = record'.item.state_revision) :
    Recorded organization_id restaurant_id episode_id record balance before record' events

/-- Recording a transition writes one record and appends events. The record is the one that
`Recorded` describes, and the events are its own. -/
theorem record_inventory_transition_ok {db db' : Branch} {draw : Draw}
    {record : IngredientRecord} {balance : InventoryBalance}
    {before : Option InventoryStateSnapshot} {source : InventoryTransitionSource}
    {actor_user_id : Option UUID} {order_id : Option ℕ}
    (h : record_inventory_transition db draw db.organization_id record balance before source
      actor_user_id order_id = .ok db') :
    ∃ record' events next_uuid, Recorded db.organization_id db.restaurant_id db.next_uuid record
      balance before record' events ∧ db.next_uuid ≤ next_uuid ∧
        (record'.episodes = record.episodes ∨ db.next_uuid < next_uuid) ∧
          db' = db.write record' events next_uuid := by
  simp only [record_inventory_transition] at h
  split_ifs at h with hchanged
  · obtain ⟨state_revision, hrevision, h⟩ := bind_eq_ok.mp h
    obtain ⟨boundary, hboundary, h⟩ := bind_eq_ok.mp h
    obtain ⟨transition, htransition, h⟩ := bind_eq_ok.mp h
    obtain ⟨db₁, hdb₁, h⟩ := bind_eq_ok.mp h
    have hcrossing := cross_boundary_ok hboundary
    obtain ⟨hstate, hfact, hfacts, hid⟩ := transition_snapshot_ok htransition
    obtain ⟨event, hpayload, hrevision₁, -, hdb₁⟩ := Branch.append_ok hdb₁
    unfold append_low at h
    split_ifs at h with hedge
    · cases hcopy : transition.episode_facts with
      | none => simp [hcopy] at h
      | some facts =>
        simp only [hcopy] at h
        obtain ⟨event', hpayload', hrevision', -, hdb'⟩ := Branch.append_ok h
        have hepisode : boundary.episode = some facts.episode := by
          rw [← hfacts, hcopy, Option.map_some]
        -- The opened episode starts at the new revision.
        have hopening : facts.episode.opening_revision = state_revision := by
          cases hcrossing with
          | opened => rw [← Option.some.inj hepisode]; rfl
          | resolved _ _ _ _ _ _ _ _ fact hkind => simp [hkind.1] at hedge
          | untracked => simp at hedge
          | level => simp at hedge
        refine ⟨_, [event, event'], db.next_uuid + 3, .changed hchanged
          ⟨{ record.item with state_revision := state_revision }, some balance, record.movements,
            boundary.episodes⟩ hrevision rfl rfl rfl boundary hcrossing rfl _ ?_ ?_, by lia,
          Or.inr (by lia), ?_⟩
        · rw [List.map_cons, List.map_singleton, hpayload, hpayload']
          exact .low transition hstate hfact hid hedge facts hepisode
        · intro e he
          rcases List.mem_pair.mp he with rfl | rfl
          · exact hrevision₁
          · rw [hrevision', hopening]
        · rw [hdb', hdb₁]
          simp [Branch.write, Branch.put]
    · obtain rfl := pure_eq_ok.mp h
      refine ⟨_, [event], db.next_uuid + 2, .changed hchanged
        ⟨{ record.item with state_revision := state_revision }, some balance, record.movements,
          boundary.episodes⟩ hrevision rfl rfl rfl boundary hcrossing rfl _ ?_ ?_, by lia,
        Or.inr (by lia), ?_⟩
      · rw [List.map_singleton, hpayload]
        exact .state transition hstate hfact hid hedge
      · intro e he
        rw [List.mem_singleton.mp he, hrevision₁]
      · rw [hdb₁]
        simp [Branch.write, Branch.put]
  · refine ⟨_, [], db.next_uuid, .unchanged (by simpa using hchanged), le_rfl, Or.inl rfl, ?_⟩
    rw [← pure_eq_ok.mp h]
    simp [Branch.write, Branch.put]

end Inventory

end RestaurantOS
