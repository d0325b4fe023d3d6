import RestaurantOS.Alerts.Projection
import RestaurantOS.Envelopes

/-!
# The alert projection converges

What the consumer stores are facts of the inventory: a projected episode is an episode of the
restaurant, with its resolution or without (`Mirrors.episodes`), and a projected state is one that
the ingredient has had (`Mirrors.states`). Storing live facts only moves a projection forward
(`Grown`), so whatever the order of events and rebuilds, what an event demands holds from the time it
is processed (`Covered`). -/

namespace RestaurantOS.Alerts

open Fallible Events Inventory

/-! ## The episodes of a restaurant -/

/-- An episode of a restaurant is that of a record. -/
theorem mem_episodes {db : Branch} {episode : InventoryLowStockEpisode} :
    episode ∈ episodes db ↔ ∃ record ∈ db.ingredients, episode ∈ record.episodes :=
  List.mem_flatMap

/-- No two episodes share a key. It holds across ingredients, as each identifier is drawn once. -/
theorem episode_unique {db : Branch} (hepisodic : db.Episodic) (hkeys : db.Keys)
    {episode episode' : InventoryLowStockEpisode} (hmem : episode ∈ episodes db)
    (hmem' : episode' ∈ episodes db) (hid : episode.episode_id = episode'.episode_id) :
    episode = episode' := by
  obtain ⟨record, hrecord, hepisode⟩ := mem_episodes.mp hmem
  obtain ⟨record', hrecord', hepisode'⟩ := mem_episodes.mp hmem'
  have hsame := hepisodic.distinct record hrecord record' hrecord' episode hepisode episode'
    hepisode' hid
  obtain rfl := hkeys.unique.eq_of_key hrecord hrecord' hsame
  exact (hepisodic.sound record hrecord).ids.eq_of_key hepisode hepisode' hid

/-- The keys of the episodes of a restaurant are unique. -/
theorem episodes_unique {db : Branch} (hepisodic : db.Episodic) (hkeys : db.Keys) :
    Keyed.Unique InventoryLowStockEpisode.episode_id (episodes db) := by
  unfold Keyed.Unique episodes
  rw [List.map_flatMap, List.nodup_flatMap]
  refine ⟨fun record hrecord => (hepisodic.sound record hrecord).ids, ?_⟩
  have hpairwise := List.pairwise_map.mp hkeys.unique
  refine hpairwise.imp_of_mem fun {record record'} hrecord hrecord' hne => ?_
  refine List.disjoint_left.mpr fun id hid hid' => hne ?_
  obtain ⟨episode, hepisode, rfl⟩ := List.mem_map.mp hid
  obtain ⟨episode', hepisode', hsame⟩ := List.mem_map.mp hid'
  exact hepisodic.distinct record hrecord record' hrecord' episode hepisode episode' hepisode'
    hsame.symm

/-- Finding an episode by its key. -/
theorem lookup_episode {db : Branch} (hepisodic : db.Episodic) (hkeys : db.Keys)
    {episode : InventoryLowStockEpisode} (hmem : episode ∈ episodes db) :
    Keyed.lookup InventoryLowStockEpisode.episode_id episode.episode_id (episodes db) =
      some episode := by
  refine find?_eq_some_of_unique hmem (decide_eq_true rfl) fun other hother hid => ?_
  exact episode_unique hepisodic hkeys hother hmem (of_decide_eq_true hid)

/-! ## What is stored -/

/-- A projected state shows an ingredient. All that the row says about it agrees with the record,
which may be that of an earlier time. -/
structure Shows (row : AlertIngredientState) (record : IngredientRecord) : Prop where
  /-- Its revision. -/
  revision : row.revision = record.revision
  /-- Quantity, threshold and activity. -/
  state : record.state = (some row.quantity, row.reorder_threshold, row.is_active)
  /-- Whether it is low. -/
  is_low : row.is_low = record.is_low

/-- A projection that moves forward. The order is reflexive and transitive, and each step of the
projection is in it. -/
structure Grown (p p' : AlertProjection) : Prop where
  /-- Revisions do not decrease. -/
  states : ∀ row ∈ p.states, ∃ row' ∈ p'.states, row'.ingredient_id = row.ingredient_id ∧
    row.revision ≤ row'.revision
  /-- Episodes stay, and resolved ones do not change. -/
  episodes : ∀ row ∈ p.episodes, ∃ row' ∈ p'.episodes, row'.episode_id = row.episode_id ∧
    (row.resolved_at.isSome → row' = row)

/-- Standing still. -/
theorem Grown.refl (p : AlertProjection) : Grown p p :=
  ⟨fun row hrow => ⟨row, hrow, rfl, le_rfl⟩, fun row hrow => ⟨row, hrow, rfl, fun _ => rfl⟩⟩

/-- Moving forward is transitive. A revision grows twice, and a resolved row stays the same twice.
-/
theorem Grown.trans {p₁ p₂ p₃ : AlertProjection} (h₁ : Grown p₁ p₂) (h₂ : Grown p₂ p₃) :
    Grown p₁ p₃ := by
  refine ⟨fun row hrow => ?_, fun row hrow => ?_⟩
  · obtain ⟨row', hrow', hid, hle⟩ := h₁.states row hrow
    obtain ⟨row'', hrow'', hid', hle'⟩ := h₂.states row' hrow'
    exact ⟨row'', hrow'', hid'.trans hid, hle.trans hle'⟩
  · obtain ⟨row', hrow', hid, hsame⟩ := h₁.episodes row hrow
    obtain ⟨row'', hrow'', hid', hsame'⟩ := h₂.episodes row' hrow'
    refine ⟨row'', hrow'', hid'.trans hid, fun hsome => ?_⟩
    have heq := hsame hsome
    rw [hsame' (heq ▸ hsome), heq]

/-- What the projection has to hold once an event with a payload is processed. -/
def Covered (p : AlertProjection) (revision : ℤ) : Payload → Prop
  | .inventory_state_changed payload =>
    (∃ row ∈ p.states, row.ingredient_id = payload.ingredient_id ∧ revision ≤ row.revision) ∧
    ∀ kind ∈ payload.episode_transition, ∀ episode_id ∈ payload.episode_id,
      ∃ row ∈ p.episodes, row.episode_id = episode_id ∧ (kind = .resolved → row.resolved_at.isSome)
  | .inventory_low payload => ∃ row ∈ p.episodes, row.episode_id = payload.episode_id
  | _ => True

/-- What is covered stays covered. A row that covers the event is followed by one that does. -/
theorem Covered.grown {p p' : AlertProjection} {revision : ℤ} {payload : Payload}
    (h : Covered p revision payload) (hgrown : Grown p p') : Covered p' revision payload := by
  cases payload with
  | inventory_state_changed payload =>
    obtain ⟨⟨row, hrow, hid, hle⟩, hepisode⟩ := h
    obtain ⟨row', hrow', hid', hle'⟩ := hgrown.states row hrow
    refine ⟨⟨row', hrow', hid'.trans hid, hle.trans (by exact_mod_cast hle')⟩,
      fun kind hkind episode_id hepisode_id => ?_⟩
    obtain ⟨row, hrow, hid, hresolved⟩ := hepisode kind hkind episode_id hepisode_id
    obtain ⟨row', hrow', hid', hsame⟩ := hgrown.episodes row hrow
    refine ⟨row', hrow', hid'.trans hid, fun hkind => ?_⟩
    rw [hsame (hresolved hkind)]
    exact hresolved hkind
  | inventory_low payload =>
    obtain ⟨row, hrow, hid⟩ := h
    obtain ⟨row', hrow', hid', -⟩ := hgrown.episodes row hrow
    exact ⟨row', hrow', hid'.trans hid⟩
  | _ => trivial

section Mirrors

variable (lib : Library) (start : ℕ → LegacyBranch) (k : ℕ) (requests : List Act)

/-- The projection holds facts of the restaurant, now or earlier. -/
structure Mirrors (p : AlertProjection) : Prop where
  /-- An ingredient has one state. -/
  unique_states : Keyed.Unique AlertIngredientState.ingredient_id p.states
  /-- An episode has one row. -/
  unique_episodes : Keyed.Unique AlertEpisode.episode_id p.episodes
  /-- A state is one that the ingredient has had. -/
  states : ∀ row ∈ p.states, ∃ pre, pre <+: requests ∧ ∃ record,
    Keyed.lookup IngredientRecord.id row.ingredient_id ((run lib start pre).rows k).ingredients =
      some record ∧ Shows row record
  /-- An episode is one of the restaurant, with its resolution or without. -/
  episodes : ∀ row ∈ p.episodes, ∃ episode ∈ episodes ((run lib start requests).rows k),
    row = .of_facts episode ∨ row = .of_facts episode.opening

variable {lib start k requests} {p : AlertProjection}

/-- A projected state is not ahead of its ingredient, and shows it if it is not behind either. -/
theorem Mirrors.live (h : Mirrors lib start k requests p) {row : AlertIngredientState}
    (hrow : row ∈ p.states) : ∃ record, Keyed.lookup IngredientRecord.id row.ingredient_id
      ((run lib start requests).rows k).ingredients = some record ∧ row.revision ≤ record.revision ∧
        (row.revision = record.revision → record.state =
          (some row.quantity, row.reorder_threshold, row.is_active)) := by
  obtain ⟨pre, ⟨later, rfl⟩, record, hrecord, hshows⟩ := h.states row hrow
  obtain ⟨record', hrecord', hadvances⟩ := run_advances lib start pre k row.ingredient_id later hrecord
  refine ⟨record', hrecord', hshows.revision.le.trans hadvances.revision, fun heq => ?_⟩
  rw [hadvances.state (heq.symm.trans hshows.revision), hshows.state]

/-- Storing an episode of the restaurant. The stored row is that of the episode as the producer has
it now, so it never takes a resolution back. -/
theorem Mirrors.store_episode_facts (h : Mirrors lib start k requests p)
    {facts : InventoryEpisodeFacts}
    (hmem : facts.episode ∈ Alerts.episodes ((run lib start requests).rows k)) :
    Mirrors lib start k requests (p.store_episode_facts facts) ∧
      Grown p (p.store_episode_facts facts) ∧
      AlertEpisode.of_facts facts.episode ∈ (p.store_episode_facts facts).episodes := by
  have hlookup : Keyed.lookup AlertEpisode.episode_id facts.episode.episode_id
      (p.store_episode_facts facts).episodes = some (.of_facts facts.episode) :=
    Keyed.lookup_upsert_self (AlertEpisode.of_facts facts.episode) p.episodes
  -- The rows that were there stay, and the one of the episode is replaced.
  refine ⟨⟨h.unique_states, h.unique_episodes.upsert _, h.states, fun row hrow => ?_⟩,
    ⟨(Grown.refl p).states, fun row hrow => ?_⟩, Keyed.lookup_mem hlookup⟩
  · -- A row is an old one or the new one.
    rcases Keyed.mem_upsert hrow with ⟨hold, -⟩ | rfl
    · exact h.episodes row hold
    · exact ⟨facts.episode, hmem, Or.inl rfl⟩
  · -- A row of the same episode is followed by the new one.
    by_cases hid : row.episode_id = facts.episode.episode_id
    · refine ⟨_, Keyed.lookup_mem hlookup, hid.symm, fun hsome => ?_⟩
      -- A resolved row has the facts of its episode already.
      obtain ⟨episode, hepisode, rfl | rfl⟩ := h.episodes row hrow
      · rw [episode_unique (run_episodic lib start requests k) (run_sane lib start requests k).keys
          hepisode hmem hid]
      · cases hsome
    · -- The rows of other episodes are untouched.
      refine ⟨row, ?_, rfl, fun _ => rfl⟩
      have hkept : Keyed.lookup AlertEpisode.episode_id row.episode_id
          (p.store_episode_facts facts).episodes =
            Keyed.lookup AlertEpisode.episode_id row.episode_id p.episodes :=
        @Keyed.lookup_upsert_ne _ _ _ AlertEpisode.episode_id (.of_facts facts.episode) _ hid
          p.episodes
      exact Keyed.lookup_mem (hkept.trans (h.unique_episodes.lookup_eq_some.mpr ⟨hrow, rfl⟩))

/-- Storing the live state of an ingredient over one that is not ahead of it. -/
theorem Mirrors.store_state (h : Mirrors lib start k requests p) {row : AlertIngredientState}
    {record : IngredientRecord}
    (hrecord : Keyed.lookup IngredientRecord.id row.ingredient_id
      ((run lib start requests).rows k).ingredients = some record) (hshows : Shows row record) :
    Mirrors lib start k requests (p.store_state row) ∧ Grown p (p.store_state row) ∧
      row ∈ (p.store_state row).states := by
  have hlookup : Keyed.lookup AlertIngredientState.ingredient_id row.ingredient_id
      (p.store_state row).states = some row := Keyed.lookup_upsert_self row p.states
  refine ⟨⟨h.unique_states.upsert _, h.unique_episodes, fun other hother => ?_, h.episodes⟩,
    ⟨fun other hother => ?_, (Grown.refl p).episodes⟩, Keyed.lookup_mem hlookup⟩
  · rcases Keyed.mem_upsert hother with ⟨hold, -⟩ | rfl
    · exact h.states other hold
    · exact ⟨requests, List.prefix_rfl, record, hrecord, hshows⟩
  · by_cases hid : other.ingredient_id = row.ingredient_id
    · obtain ⟨record', hrecord', hle, -⟩ := h.live hother
      rw [hid, hrecord] at hrecord'
      obtain rfl := Option.some.inj hrecord'
      exact ⟨row, Keyed.lookup_mem hlookup, hid.symm, hle.trans hshows.revision.ge⟩
    · refine ⟨other, ?_, rfl, le_rfl⟩
      have hkept : Keyed.lookup AlertIngredientState.ingredient_id other.ingredient_id
          (p.store_state row).states =
            Keyed.lookup AlertIngredientState.ingredient_id other.ingredient_id p.states :=
        Keyed.lookup_upsert_ne hid p.states
      exact Keyed.lookup_mem (hkept.trans (h.unique_states.lookup_eq_some.mpr ⟨hother, rfl⟩))

/-- A request leaves the projection with facts that the restaurant has or has had. -/
theorem Mirrors.request (h : Mirrors lib start k requests p) (a : Act) :
    Mirrors lib start k (requests ++ [a]) p := by
  refine ⟨h.unique_states, h.unique_episodes, fun row hrow => ?_, fun row hrow => ?_⟩
  · obtain ⟨pre, hpre, hfact⟩ := h.states row hrow
    exact ⟨pre, hpre.trans (List.prefix_append requests [a]), hfact⟩
  · obtain ⟨episode, hepisode, hrow⟩ := h.episodes row hrow
    obtain ⟨record, hrecord, hmem⟩ := mem_episodes.mp hepisode
    have hlookup := (run_sane lib start requests k).keys.unique.lookup_eq_some.mpr ⟨hrecord, rfl⟩
    obtain ⟨record', hlookup', hadvances⟩ := run_advances lib start requests k record.id [a] hlookup
    obtain ⟨episode', hmem', hopening, hsame⟩ := hadvances.episodes episode hmem
    refine ⟨episode', mem_episodes.mpr ⟨record', Keyed.lookup_mem hlookup', hmem'⟩, ?_⟩
    rcases hrow with rfl | rfl
    · cases hresolved : episode.resolved_at with
      | some resolved_at =>
        left
        rw [hsame (by rw [hresolved, Option.isSome_some])]
      | none =>
        right
        have hsettled := (run_recounted lib start requests k record.id).settled record hlookup
          episode hmem hresolved
        rw [hopening, ← hsettled]
    · exact Or.inr (by rw [hopening])

/-- So do several. -/
theorem Mirrors.served (h : Mirrors lib start k requests p) (acts : List Act) :
    Mirrors lib start k (requests ++ acts) p := by
  induction acts using List.reverseRecOn with
  | nil => rwa [List.append_nil]
  | append_singleton acts a ih =>
    rw [← List.append_assoc]
    exact ih.request a

/-! ## The consumer -/

/-- A flush that succeeds changes nothing. -/
theorem flush_ok {p p' : AlertProjection} (h : p.flush = .ok p') : p = p' := by
  obtain ⟨-, -, h⟩ := bind_eq_ok.mp h
  exact pure_eq_ok.mp h

/-- The loaded state of a record shows it. Loading copies the columns, and whether it is low is
computed in the same way. -/
theorem load_state_shows {db : Branch} {organization_id : UUID} {record : IngredientRecord}
    {balance : InventoryBalance} {current : InventoryTransition}
    (hbalance : record.balance = some balance)
    (h : load_state db organization_id record balance = .ok current) (occurred_at : Timestamp) :
    Shows (.of_transition current occurred_at) record ∧
      (AlertIngredientState.of_transition current occurred_at).ingredient_id = record.id ∧
        current.state.state_revision = record.revision := by
  obtain ⟨hstate, -⟩ := transition_snapshot_ok h
  unfold AlertIngredientState.of_transition
  rw [hstate]
  refine ⟨⟨rfl, ?_, ?_⟩, rfl, rfl⟩
  · unfold IngredientRecord.state
    rw [hbalance]
    rfl
  · rw [is_low_eq hbalance organization_id db.restaurant_id]

/-- The loaded state of an ingredient shows the live one. -/
theorem load_inventory_state_shows {db : Branch} {organization_id : UUID} {restaurant_id : ℤ}
    {ingredient_id : ℕ} {current : InventoryTransition}
    (h : load_inventory_state db organization_id restaurant_id ingredient_id = .ok current) :
    ∃ record, Keyed.lookup IngredientRecord.id ingredient_id db.ingredients = some record ∧
      current.state.state_revision = record.revision ∧ ∀ occurred_at,
        Shows (.of_transition current occurred_at) record ∧
          (AlertIngredientState.of_transition current occurred_at).ingredient_id = ingredient_id := by
  obtain ⟨-, -, h⟩ := bind_eq_ok.mp h
  obtain ⟨⟨record, balance⟩, hrecord, h⟩ := bind_eq_ok.mp h
  obtain ⟨hlookup, hbalance⟩ := Branch.ingredient_ok hrecord
  refine ⟨record, hlookup, (load_state_shows hbalance h 0).2.2, fun occurred_at => ?_⟩
  obtain ⟨hshows, hid, -⟩ := load_state_shows hbalance h occurred_at
  exact ⟨hshows, hid.trans (Keyed.lookup_key hlookup)⟩

/-- Synchronizing an episode of the restaurant stores it. If there is no such episode, nothing is
stored. -/
theorem Mirrors.sync_episode (h : Mirrors lib start k requests p) {p' : AlertProjection}
    {episode_id : UUID}
    (hsync : p.sync_episode ((run lib start requests).rows k) episode_id = .ok p') :
    Mirrors lib start k requests p' ∧ Grown p p' ∧
      ∀ episode ∈ Alerts.episodes ((run lib start requests).rows k),
        episode.episode_id = episode_id → AlertEpisode.of_facts episode ∈ p'.episodes := by
  obtain ⟨loaded, hload, hsync⟩ := bind_eq_ok.mp hsync
  have hfound := current_facts_ok hload
  cases loaded with
  | none =>
    obtain rfl := pure_eq_ok.mp hsync
    refine ⟨h, .refl p, fun episode hmem hid => ?_⟩
    rw [← hid, lookup_episode (run_episodic lib start requests k)
      (run_sane lib start requests k).keys hmem] at hfound
    cases hfound
  | some facts =>
    obtain rfl := pure_eq_ok.mp hsync
    have hlookup : Keyed.lookup InventoryLowStockEpisode.episode_id episode_id
        (Alerts.episodes ((run lib start requests).rows k)) = some facts.episode := hfound.symm
    obtain ⟨hmirrors, hgrown, hstored⟩ := h.store_episode_facts (Keyed.lookup_mem hlookup)
    refine ⟨hmirrors, hgrown, fun episode hmem hid => ?_⟩
    rw [← hid, lookup_episode (run_episodic lib start requests k)
      (run_sane lib start requests k).keys hmem] at hlookup
    rwa [Option.some.inj hlookup]

/-- The consumer refuses events that are not about an ingredient. -/
theorem ingredient_of_apply {db : Branch} {event : EventEnvelope Payload} {p : AlertProjection}
    {result : AlertProjection × Outcome} (h : apply_alert_event db event p = .ok result) :
    ∃ id, event.payload.ingredient_id = some id := by
  unfold Alerts.apply_alert_event at h
  cases hpayload : event.payload with
  | inventory_low payload => exact ⟨payload.ingredient_id, rfl⟩
  | inventory_state_changed payload => exact ⟨payload.ingredient_id, rfl⟩
  | _ =>
    rw [hpayload] at h
    cases h

/-- An event of an ingredient that is processed moves the projection forward and is covered then.
The live state and the episode named by the event are loaded from the producer, so what is stored is
at least as new as the event. -/
theorem Mirrors.apply_alert_event (h : Mirrors lib start k requests p)
    {event : EventEnvelope Payload} {id : ℕ} (hid : event.payload.ingredient_id = some id)
    (hevent : event ∈ ((run lib start requests).rows k).events) {p' : AlertProjection}
    {outcome : Outcome}
    (happly : apply_alert_event ((run lib start requests).rows k) event p = .ok (p', outcome)) :
    Mirrors lib start k requests p' ∧ Grown p p' ∧
      Covered p' event.aggregate_revision event.payload := by
  have hemitted : event ∈ ((run lib start requests).rows k).ingredient_events id :=
    List.mem_filter.mpr ⟨hevent, decide_eq_true hid⟩
  -- The event tells about a record that the producer still has.
  obtain ⟨record, hrecord, hbacked, -, hrevision⟩ :=
    (run_recounted lib start requests k id).backed event hemitted
  have hepisodes : ∀ episode ∈ record.episodes,
      episode ∈ Alerts.episodes ((run lib start requests).rows k) :=
    fun episode hmem => mem_episodes.mpr ⟨record, Keyed.lookup_mem hrecord, hmem⟩
  unfold Alerts.apply_alert_event at happly
  cases hpayload : event.payload with
  -- A low-stock event only stores its episode.
  | inventory_low payload =>
    rw [hpayload] at happly hbacked
    obtain ⟨current, -, happly⟩ := bind_eq_ok.mp happly
    obtain ⟨p₁, hsync, happly⟩ := bind_eq_ok.mp happly
    obtain ⟨p₂, hflush, happly⟩ := bind_eq_ok.mp happly
    obtain ⟨rfl, -⟩ := Prod.mk.inj (pure_eq_ok.mp happly)
    obtain rfl := flush_ok hflush
    obtain ⟨hmirrors, hgrown, hstored⟩ := h.sync_episode hsync
    obtain ⟨episode, hmem, hepisode⟩ := hbacked
    exact ⟨hmirrors, hgrown, _, hstored episode (hepisodes episode hmem) hepisode, hepisode⟩
  -- A change stores the episode it names, if any, and then the live state unless it is fenced.
  | inventory_state_changed payload =>
    rw [hpayload] at happly hbacked hid
    obtain rfl : payload.ingredient_id = id := Option.some.inj hid
    obtain ⟨current, hload, happly⟩ := bind_eq_ok.mp happly
    obtain ⟨p₁, hsync, happly⟩ := bind_eq_ok.mp happly
    obtain ⟨record', hrecord', hcurrent, hshows⟩ := load_inventory_state_shows hload
    obtain rfl := Option.some.inj (hrecord.symm.trans hrecord')
    -- The episode that the event names is stored first.
    have hfirst : Mirrors lib start k requests p₁ ∧ Grown p p₁ ∧
        ∀ kind ∈ payload.episode_transition, ∀ episode_id ∈ payload.episode_id,
          ∃ row ∈ p₁.episodes, row.episode_id = episode_id ∧
            (kind = .resolved → row.resolved_at.isSome) := by
      unfold AlertProjection.sync_transition at hsync
      -- Without an episode, or without a transition of it, nothing is stored first.
      cases hepisode_id : payload.episode_id with
      | none =>
        rw [hepisode_id] at hsync
        obtain rfl := pure_eq_ok.mp hsync
        exact ⟨h, .refl p, fun _ _ _ hnone => absurd hnone (Option.not_mem_none _)⟩
      | some episode_id =>
        cases htransition : payload.episode_transition with
        | none =>
          rw [hepisode_id, htransition] at hsync
          obtain rfl := pure_eq_ok.mp hsync
          exact ⟨h, .refl p, fun _ hnone => absurd hnone (Option.not_mem_none _)⟩
        | some kind =>
          rw [hepisode_id, htransition] at hsync
          obtain ⟨hmirrors, hgrown, hstored⟩ := h.sync_episode hsync
          refine ⟨hmirrors, hgrown, fun kind' hkind' episode_id' hid' => ?_⟩
          obtain ⟨episode, hmem, hepisode, hresolved⟩ := hbacked kind' (htransition ▸ hkind')
          obtain rfl := Option.mem_some_iff.mp hid'
          have hsame := Option.some.inj (hepisode_id.symm.trans hepisode)
          exact ⟨_, hstored episode (hepisodes episode hmem) hsame.symm, hsame.symm, hresolved⟩
    obtain ⟨hmirrors₁, hgrown₁, hepisode₁⟩ := hfirst
    simp only at happly
    split_ifs at happly with hfence
    · -- The projection is not behind the live state.
      obtain ⟨p₂, hflush, happly⟩ := bind_eq_ok.mp happly
      obtain ⟨rfl, -⟩ := Prod.mk.inj (pure_eq_ok.mp happly)
      obtain rfl := flush_ok hflush
      refine ⟨hmirrors₁, hgrown₁, ?_, hepisode₁⟩
      cases hrow : p₁.state payload.ingredient_id with
      | none =>
        rw [hrow] at hfence
        cases hfence
      | some row =>
        rw [hrow, Option.any_some, decide_eq_true_eq, hcurrent] at hfence
        exact ⟨row, Keyed.lookup_mem hrow, Keyed.lookup_key hrow,
          hrevision.trans (by exact_mod_cast hfence)⟩
    · obtain ⟨p₂, hflush, happly⟩ := bind_eq_ok.mp happly
      obtain ⟨rfl, -⟩ := Prod.mk.inj (pure_eq_ok.mp happly)
      obtain rfl := flush_ok hflush
      -- Whenever the change is said to have occurred, the state that is stored is the live one.
      have hstore := fun occurred_at =>
        hmirrors₁.store_state ((hshows occurred_at).2.symm ▸ hrecord) (hshows occurred_at).1
      refine ⟨(hstore _).1, hgrown₁.trans (hstore _).2.1,
        ⟨_, (hstore _).2.2, (hshows _).2, ?_⟩, ?_⟩
      · rw [(hshows _).1.revision]
        exact hrevision
      · exact hepisode₁
  | _ =>
    rw [hpayload] at hid
    cases hid

/-- The facts of episodes are those episodes. -/
theorem history_episodes {rows : List InventoryLowStockEpisode} {history : List InventoryEpisodeFacts}
    (h : rows.mapM episode_facts = .ok history) : history.map (·.episode) = rows := by
  have hcopies := mapM_eq_ok.mp h
  clear h
  induction hcopies with
  | nil => rfl
  | cons hcopy _ ih => rw [List.map_cons, ih, episode_facts_ok hcopy]

/-- What a rebuild reads and writes. The states are loaded before the first row is written. -/
theorem rebuild_ok {db : Branch} {organization_id : UUID} {now : Timestamp} {p p' : AlertProjection}
    (h : rebuild db organization_id now p = .ok p') :
    ∃ (states : List InventoryTransition) (history : List InventoryEpisodeFacts),
      load_inventory_restaurant_states db organization_id = .ok states ∧
      (history.map (·.episode)).Perm (Alerts.episodes db) ∧
      p' = states.foldl (refresh now) (history.foldl AlertProjection.store_episode_facts p) := by
  obtain ⟨-, -, h⟩ := bind_eq_ok.mp h
  obtain ⟨states, hstates, h⟩ := bind_eq_ok.mp h
  obtain ⟨history, hhistory, h⟩ := bind_eq_ok.mp h
  refine ⟨states, history, hstates, ?_, (flush_ok h).symm⟩
  rw [history_episodes hhistory]
  exact List.mergeSort_perm _ _

/-- A loaded state is that of an ingredient with its balance. -/
theorem loaded_state {db : Branch} {organization_id : UUID} {states : List InventoryTransition}
    (h : load_inventory_restaurant_states db organization_id = .ok states)
    {current : InventoryTransition} (hcurrent : current ∈ states) :
    ∃ record ∈ db.ingredients, ∃ balance ∈ record.balance,
      load_state db organization_id record balance = .ok current := by
  obtain ⟨⟨record, balance⟩, hpair, hok⟩ := exists_of_mem_right (mapM_eq_ok.mp h) hcurrent
  obtain ⟨record', hrecord', hsome⟩ := List.mem_filterMap.mp hpair
  obtain ⟨balance', hbalance, heq⟩ := Option.map_eq_some_iff.mp hsome
  obtain ⟨rfl, rfl⟩ := Prod.mk.inj heq
  exact ⟨record', hrecord', balance', hbalance, hok⟩

/-- Storing episodes of the restaurant. The induction is on their list, one upsert at a time. -/
theorem Mirrors.store_history (h : Mirrors lib start k requests p)
    {history : List InventoryEpisodeFacts}
    (hhistory : ∀ facts ∈ history, facts.episode ∈ Alerts.episodes ((run lib start requests).rows k)) :
    Mirrors lib start k requests (history.foldl AlertProjection.store_episode_facts p) ∧
      Grown p (history.foldl AlertProjection.store_episode_facts p) := by
  induction history generalizing p with
  | nil => exact ⟨h, .refl p⟩
  | cons facts history ih =>
    obtain ⟨hmirrors, hgrown, -⟩ := h.store_episode_facts (hhistory facts List.mem_cons_self)
    obtain ⟨hmirrors', hgrown'⟩ :=
      ih hmirrors fun other hother => hhistory other (List.mem_cons_of_mem _ hother)
    exact ⟨hmirrors', hgrown.trans hgrown'⟩

/-- The projection is not ahead of a loaded state, so a refresh stores it. -/
theorem Mirrors.refresh (h : Mirrors lib start k requests p) {organization_id : UUID}
    {current : InventoryTransition} {record : IngredientRecord} {balance : InventoryBalance}
    (hrecord : record ∈ ((run lib start requests).rows k).ingredients)
    (hbalance : record.balance = some balance)
    (hload : load_state ((run lib start requests).rows k) organization_id record balance =
      .ok current) (now : Timestamp) :
    Alerts.refresh now p current = p.store_state (.of_transition current now) ∧
      Mirrors lib start k requests (p.store_state (.of_transition current now)) ∧
        Grown p (p.store_state (.of_transition current now)) := by
  obtain ⟨hshows, hid, hrevision⟩ := load_state_shows hbalance hload now
  have hlookup := (run_sane lib start requests k).keys.unique.lookup_eq_some.mpr
    ⟨hrecord, hid.symm⟩
  obtain ⟨hmirrors, hgrown, -⟩ := h.store_state hlookup hshows
  refine ⟨?_, hmirrors, hgrown⟩
  unfold Alerts.refresh
  refine if_neg ?_
  cases hstate : p.state current.state.ingredient_id with
  | none => exact Bool.false_ne_true
  | some row =>
    obtain ⟨record', hrecord', hle, -⟩ := h.live (Keyed.lookup_mem hstate)
    have hsame : row.ingredient_id = current.state.ingredient_id := Keyed.lookup_key hstate
    rw [hsame] at hrecord'
    obtain rfl := Option.some.inj (hlookup.symm.trans hrecord')
    rw [Option.any_some, decide_eq_true_eq, hrevision]
    omega

/-- Refreshing loaded states stores them. None of them is fenced, since no row is ahead of the live
state. -/
theorem Mirrors.refresh_states (h : Mirrors lib start k requests p) {organization_id : UUID}
    (now : Timestamp) {states : List InventoryTransition}
    (hstates : ∀ current ∈ states, ∃ record ∈ ((run lib start requests).rows k).ingredients,
      ∃ balance ∈ record.balance,
        load_state ((run lib start requests).rows k) organization_id record balance = .ok current) :
    states.foldl (Alerts.refresh now) p =
        states.foldl (fun p current => p.store_state (.of_transition current now)) p ∧
      Mirrors lib start k requests (states.foldl (Alerts.refresh now) p) ∧
        Grown p (states.foldl (Alerts.refresh now) p) := by
  induction states generalizing p with
  | nil => exact ⟨rfl, h, .refl p⟩
  | cons current states ih =>
    obtain ⟨record, hrecord, balance, hbalance, hload⟩ := hstates current List.mem_cons_self
    obtain ⟨hrefresh, hmirrors, hgrown⟩ := h.refresh hrecord hbalance hload now
    obtain ⟨hsame, hmirrors', hgrown'⟩ :=
      ih hmirrors fun other hother => hstates other (List.mem_cons_of_mem _ hother)
    rw [List.foldl_cons, List.foldl_cons, hrefresh]
    exact ⟨hsame, hmirrors', hgrown.trans hgrown'⟩

/-- A rebuild moves the projection forward. Whatever it stores are facts of the producer, at the
live revision. -/
theorem Mirrors.rebuild (h : Mirrors lib start k requests p) {organization_id : UUID}
    {now : Timestamp} {p' : AlertProjection}
    (hrebuild : rebuild ((run lib start requests).rows k) organization_id now p = .ok p') :
    Mirrors lib start k requests p' ∧ Grown p p' := by
  obtain ⟨states, history, hstates, hhistory, rfl⟩ := rebuild_ok hrebuild
  obtain ⟨hmirrors, hgrown⟩ := h.store_history fun facts hfacts =>
    hhistory.mem_iff.mp (List.mem_map_of_mem hfacts)
  obtain ⟨-, hmirrors', hgrown'⟩ := hmirrors.refresh_states now fun current hcurrent =>
    loaded_state hstates hcurrent
  exact ⟨hmirrors', hgrown.trans hgrown'⟩

/-- After a rebuild the projection is the image of the restaurant: the facts of its episodes, and
the live states of its ingredients. What the rebuild stores is a fold of upserts over the producer's
rows; the rows that were projected before all have one of these keys, so none survives with old
facts. -/
theorem Mirrors.rebuild_exact (h : Mirrors lib start k requests p) {organization_id : UUID}
    {now : Timestamp} {p' : AlertProjection}
    (hrebuild : Alerts.rebuild ((run lib start requests).rows k) organization_id now p = .ok p') :
    (∀ row, row ∈ p'.episodes ↔
      ∃ episode ∈ Alerts.episodes ((run lib start requests).rows k), row = .of_facts episode) ∧
    ∃ states, load_inventory_restaurant_states ((run lib start requests).rows k) organization_id =
      .ok states ∧ ∀ row, row ∈ p'.states ↔ ∃ current ∈ states, row = .of_transition current now := by
  have hepisodic := run_episodic lib start requests k
  have hkeys := (run_sane lib start requests k).keys
  obtain ⟨states, history, hstates, hhistory, rfl⟩ := rebuild_ok hrebuild
  obtain ⟨hmirrors, -⟩ := h.store_history fun facts hfacts =>
    hhistory.mem_iff.mp (List.mem_map_of_mem hfacts)
  obtain ⟨hsame, -⟩ := hmirrors.refresh_states now fun current hcurrent =>
    loaded_state hstates hcurrent
  rw [hsame]
  -- The two folds of the rebuild, read as folds over the rows they store.
  have hstored : ∀ (states : List InventoryTransition) (q : AlertProjection),
      states.foldl (fun q current => q.store_state (.of_transition current now)) q =
        ⟨q.episodes, (states.map fun current => AlertIngredientState.of_transition current now).foldl
          (fun rows row => Keyed.upsert AlertIngredientState.ingredient_id row rows) q.states⟩ := by
    intro states
    induction states with
    | nil => exact fun q => rfl
    | cons current states ih => exact fun q => ih _
  have hfacts : ∀ (history : List InventoryEpisodeFacts) (q : AlertProjection),
      history.foldl AlertProjection.store_episode_facts q =
        ⟨((history.map (·.episode)).map AlertEpisode.of_facts).foldl
          (fun rows row => Keyed.upsert AlertEpisode.episode_id row rows) q.episodes, q.states⟩ := by
    intro history
    induction history with
    | nil => exact fun q => rfl
    | cons facts history ih => exact fun q => ih _
  rw [hstored, hfacts]
  refine ⟨fun row => ?_, states, hstates, fun row => ?_⟩
  · have hunique : Keyed.Unique AlertEpisode.episode_id
        ((history.map (·.episode)).map AlertEpisode.of_facts) := by
      unfold Keyed.Unique
      rw [List.map_map]
      exact (hhistory.map InventoryLowStockEpisode.episode_id).nodup_iff.mpr
        (episodes_unique hepisodic hkeys)
    -- After upserts with distinct keys that cover the old ones exactly the new rows are left.
    rw [Keyed.mem_foldl_upsert h.unique_episodes hunique, List.mem_map]
    · exact ⟨fun ⟨episode, hmem, heq⟩ => ⟨episode, hhistory.mem_iff.mp hmem, heq.symm⟩,
        fun ⟨episode, hmem, heq⟩ => ⟨episode, hhistory.mem_iff.mpr hmem, heq.symm⟩⟩
    · intro other hother
      obtain ⟨episode, hepisode, heq⟩ := h.episodes other hother
      refine ⟨.of_facts episode, List.mem_map_of_mem (hhistory.mem_iff.mpr hepisode), ?_⟩
      rcases heq with rfl | rfl <;> rfl
  · have hunique : Keyed.Unique AlertIngredientState.ingredient_id
        (states.map fun current => AlertIngredientState.of_transition current now) := by
      unfold Keyed.Unique
      rw [List.map_map]
      exact (load_inventory_restaurant_states_ok hkeys hstates).1
    rw [Keyed.mem_foldl_upsert h.unique_states hunique, List.mem_map]
    · exact ⟨fun ⟨current, hmem, heq⟩ => ⟨current, hmem, heq.symm⟩,
        fun ⟨current, hmem, heq⟩ => ⟨current, hmem, heq.symm⟩⟩
    · -- The ingredient of a projected state still has a balance, so its state is loaded.
      intro other hother
      obtain ⟨pre, ⟨later, rfl⟩, record, hrecord, hshows⟩ := h.states other hother
      obtain ⟨record', hrecord', hadvances⟩ :=
        run_advances lib start pre k other.ingredient_id later hrecord
      have hbalance : record.balance.isSome := by
        have hquantity : record.balance.map (·.quantity) = some other.quantity :=
          congrArg Prod.fst hshows.state
        cases hbalance : record.balance with
        | none =>
          rw [hbalance] at hquantity
          cases hquantity
        -- Balances are never taken away again.
        | some balance => rfl
      obtain ⟨balance, hbalance⟩ := Option.isSome_iff_exists.mp (hadvances.balance hbalance)
      have hpair : (record', balance) ∈ ((run lib start (pre ++ later)).rows k).ingredients.filterMap
          fun record => record.balance.map fun balance => (record, balance) :=
        List.mem_filterMap.mpr ⟨record', Keyed.lookup_mem hrecord', by rw [hbalance]; rfl⟩
      obtain ⟨current, hcurrent, hload⟩ := exists_of_mem_left (mapM_eq_ok.mp hstates) hpair
      refine ⟨_, List.mem_map_of_mem hcurrent, ?_⟩
      exact (load_state_shows hbalance hload now).2.1.trans (Keyed.lookup_key hrecord')

end Mirrors

/-! ## Runs -/

/-- The events of the outbox that the consumer processes. -/
def inventory_events (db : Branch) : List (EventEnvelope Payload) :=
  db.events.filter fun event => event.payload.ingredient_id.isSome

/-- What happens to a restaurant and its projection. -/
inductive Op
  /-- A request is served. -/
  | request (a : Act)
  /-- One of the emitted events is processed. -/
  | process (position : ℕ)
  /-- The projection is rebuilt. -/
  | rebuild (now : Timestamp)

/-- A restaurant with its projection, and the events that have been processed. -/
structure Site where
  /-- The steps of the requests so far. -/
  requests : List Act
  /-- The projection. -/
  projection : AlertProjection
  /-- The events that have been processed. -/
  processed : List (EventEnvelope Payload)

section Site

variable (lib : Library) (start : ℕ → LegacyBranch) (k : ℕ)

/-- The rows of the restaurant. They are those after the commands that the site has seen, whatever
has been processed. -/
def Site.db (site : Site) : Branch := (RestaurantOS.run lib start site.requests).rows k

/-- The restaurant before its first request. Nothing is projected and nothing has been processed. -/
def Site.new : Site := ⟨[], ⟨[], []⟩, []⟩

/-- One step. A transaction that fails leaves no trace. -/
def Site.step (site : Site) : Op → Site
  | .request a => { site with requests := site.requests ++ [a] }
  | .process position =>
    match (inventory_events (site.db lib start k))[position]? with
    | none => site
    | some event =>
      match apply_alert_event (site.db lib start k) event site.projection with
      | .ok (projection, _) =>
        { site with
          projection := projection
          processed := site.processed ++ [event] }
      | .error _ => site
  | .rebuild now =>
    let db := site.db lib start k
    match rebuild db db.organization_id now site.projection with
    | .ok projection => { site with projection := projection }
    | .error _ => site

/-- The site after a run. It starts from the restaurant before its first request. -/
def Site.run (ops : List Op) : Site := Transition.run (Site.step lib start k) Site.new ops

/-- The projection mirrors the restaurant, and what has been processed is covered. -/
structure Site.Sound (site : Site) : Prop where
  /-- It mirrors the restaurant. -/
  mirrors : Mirrors lib start k site.requests site.projection
  /-- Processed events are covered. -/
  covered : ∀ event ∈ site.processed,
    Covered site.projection event.aggregate_revision event.payload

variable {lib start k} {site : Site}

/-- Every step keeps the site sound, and moves its projection forward. A request only adds what is
to be covered later; processing and rebuilding store facts of the producer. -/
theorem Site.Sound.step (h : site.Sound lib start k) (op : Op) :
    (Site.step lib start k site op).Sound lib start k ∧
      Grown site.projection (Site.step lib start k site op).projection := by
  -- The cases are the operations of the site.
  cases op with
  | request a => exact ⟨⟨h.mirrors.request a, h.covered⟩, .refl _⟩
  | process position =>
    unfold Site.step
    simp only
    split
    · -- A position past the end, or an event that fails, changes nothing.
      exact ⟨h, .refl _⟩
    · rename_i event hevent
      split
      · rename_i projection outcome happly
        obtain ⟨hmem, hsome⟩ := List.mem_filter.mp (List.mem_of_getElem? hevent)
        obtain ⟨id, hid⟩ := Option.isSome_iff_exists.mp hsome
        obtain ⟨hmirrors, hgrown, hcovered⟩ := h.mirrors.apply_alert_event hid hmem happly
        -- The event is covered now, and what was covered stays so as the projection grows.
        refine ⟨⟨hmirrors, fun other hother => ?_⟩, hgrown⟩
        rcases List.mem_append.mp hother with hold | hnew
        · exact (h.covered other hold).grown hgrown
        · rw [List.mem_singleton.mp hnew]
          exact hcovered
      · exact ⟨h, .refl _⟩
  | rebuild now =>
    unfold Site.step
    simp only
    split
    · rename_i projection hrebuild
      obtain ⟨hmirrors, hgrown⟩ := h.mirrors.rebuild hrebuild
      exact ⟨⟨hmirrors, fun event hevent => (h.covered event hevent).grown hgrown⟩, hgrown⟩
    · exact ⟨h, .refl _⟩

/-- The site is sound before its first request. -/
theorem sound_new : Site.new.Sound lib start k :=
  ⟨⟨List.nodup_nil, List.nodup_nil, fun _ hrow => absurd hrow List.not_mem_nil,
    fun _ hrow => absurd hrow List.not_mem_nil⟩, fun _ hevent => absurd hevent List.not_mem_nil⟩

variable (lib start k)

/-- The site is sound in every reachable state. -/
theorem run_sound (ops : List Op) : (Site.run lib start k ops).Sound lib start k :=
  @Transition.run_invariant _ _ (Site.step lib start k) (fun site => site.Sound lib start k)
    (fun _ op h => (h.step op).1) _ sound_new ops

/-- The projection only moves forward. -/
theorem run_grown (ops later : List Op) : Grown (Site.run lib start k ops).projection
    (Site.run lib start k (ops ++ later)).projection := by
  unfold Site.run
  rw [Transition.run_append]
  exact @Transition.run_related _ _ (Site.step lib start k) (fun site => site.Sound lib start k)
    (fun site site' => Grown site.projection site'.projection) (fun _ => .refl _)
    (fun _ _ _ h h' => h.trans h') (fun _ op h => (h.step op).1) (fun _ op h => (h.step op).2) _
    (run_sound lib start k ops) later

/-- A state determines whether the ingredient is low. -/
theorem is_low_of_state {record record' : IngredientRecord} (h : record'.state = record.state) :
    record'.is_low = record.is_low := by
  obtain ⟨hquantity, hrest⟩ := Prod.mk.inj h
  obtain ⟨hthreshold, hactive⟩ := Prod.mk.inj hrest
  unfold IngredientRecord.is_low
  rw [hthreshold, hactive]
  cases hbalance : record.balance <;> cases hbalance' : record'.balance <;>
    simp_all

/-- A revision determines the state, at any two times of a run. -/
theorem shows_of_revision {requests pre pre' : List Act} (hpre : pre <+: requests)
    (hpre' : pre' <+: requests) {row : AlertIngredientState} {record record' : IngredientRecord}
    (hrecord : Keyed.lookup IngredientRecord.id row.ingredient_id
      ((RestaurantOS.run lib start pre).rows k).ingredients = some record)
    (hrecord' : Keyed.lookup IngredientRecord.id row.ingredient_id
      ((RestaurantOS.run lib start pre').rows k).ingredients = some record')
    (hrevision : record'.revision = record.revision) (hshows : Shows row record) :
    Shows row record' := by
  have hstate : record'.state = record.state := by
    rcases List.prefix_or_prefix_of_prefix hpre hpre' with ⟨later, rfl⟩ | ⟨later, rfl⟩
    · obtain ⟨record₁, hrecord₁, hadvances⟩ :=
        run_advances lib start pre k row.ingredient_id later hrecord
      obtain rfl := Option.some.inj (hrecord'.symm.trans hrecord₁)
      exact hadvances.state hrevision
    · obtain ⟨record₁, hrecord₁, hadvances⟩ :=
        run_advances lib start pre' k row.ingredient_id later hrecord'
      obtain rfl := Option.some.inj (hrecord.symm.trans hrecord₁)
      exact (hadvances.state hrevision.symm).symm
  exact ⟨hshows.revision.trans hrevision.symm, hstate.trans hshows.state,
    hshows.is_low.trans (is_low_of_state hstate).symm⟩

variable {lib start k}

/-- Where the events about an ingredient have been processed, its projected state is the live one.
The latest change of the ingredient carries its revision, and the projected revision has reached it
without passing the live one. -/
theorem Site.Sound.live (h : site.Sound lib start k) {id : ℕ}
    (hevents : (site.db lib start k).ingredient_events id ≠ [])
    (hall : ∀ event ∈ (site.db lib start k).ingredient_events id, event ∈ site.processed) :
    ∃ row ∈ site.projection.states, ∃ record, row.ingredient_id = id ∧
      Keyed.lookup IngredientRecord.id id (site.db lib start k).ingredients = some record ∧
        Shows row record := by
  have hrecounted : Recounted id (site.db lib start k) := run_recounted lib start site.requests k id
  obtain ⟨event₀, hevent₀⟩ := List.exists_mem_of_ne_nil _ hevents
  obtain ⟨record, hrecord, -⟩ := hrecounted.backed event₀ hevent₀
  -- The latest state event of the ingredient has the revision of the record.
  obtain ⟨event, hevent, ⟨payload, hpayload⟩, hrevision⟩ := hrecounted.latest record hrecord hevents
  have hcovered := h.covered event (hall event hevent)
  rw [hpayload] at hcovered
  obtain ⟨⟨row, hrow, hid, hle⟩, -⟩ := hcovered
  have habout : payload.ingredient_id = id := by
    have hsome := of_decide_eq_true (List.mem_filter.mp hevent).2
    rw [hpayload] at hsome
    exact Option.some.inj hsome
  obtain ⟨record', hrecord', hle', -⟩ := h.mirrors.live hrow
  rw [hid, habout] at hrecord'
  obtain rfl := Option.some.inj (hrecord.symm.trans hrecord')
  -- The projected state was that of the record at some earlier prefix of the requests.
  obtain ⟨pre, hpre, record', hrecord', hshows⟩ := h.mirrors.states row hrow
  refine ⟨row, hrow, record, hid.trans habout, hrecord, ?_⟩
  refine shows_of_revision lib start k hpre List.prefix_rfl hrecord' ?_ ?_ hshows
  · rw [hid, habout]
    exact hrecord
  · -- It has the same revision now, and a revision determines the facts.
    rw [hrevision] at hle
    have hle : record.revision ≤ row.revision := by exact_mod_cast hle
    have heq := hshows.revision
    omega

/-- Where the events about an episode have been processed, its row has the facts of its producer.
Somebody has been notified of the opening, or the resolution was emitted; either event has stored
the row. -/
theorem Site.Sound.episode (h : site.Sound lib start k) {episode : InventoryLowStockEpisode}
    (hepisode : episode ∈ episodes (site.db lib start k))
    (hall : ∀ event ∈ inventory_events (site.db lib start k), event ∈ site.processed)
    (htold : episode.notification_suppressed = false ∨
      ∃ event ∈ inventory_events (site.db lib start k),
        Resolves event.payload episode.episode_id) :
    AlertEpisode.of_facts episode ∈ site.projection.episodes := by
  have hepisodic : (site.db lib start k).Episodic := run_episodic lib start site.requests k
  have hkeys : (site.db lib start k).Keys := (run_sane lib start site.requests k).keys
  obtain ⟨record, hrecord, hmem⟩ := mem_episodes.mp hepisode
  have hlookup := hkeys.unique.lookup_eq_some.mpr ⟨hrecord, rfl⟩
  have hrecounted : Recounted record.id (site.db lib start k) :=
    run_recounted lib start site.requests k record.id
  have hprocessed : ∀ event ∈ (site.db lib start k).ingredient_events record.id,
      Covered site.projection event.aggregate_revision event.payload := by
    intro event hevent
    obtain ⟨hmem, hid⟩ := List.mem_filter.mp hevent
    refine h.covered event (hall event (List.mem_filter.mpr ⟨hmem, ?_⟩))
    rw [of_decide_eq_true hid, Option.isSome_some]
  -- A row of the episode is the episode, with its resolution or without.
  have hrow : ∀ row ∈ site.projection.episodes, row.episode_id = episode.episode_id →
      row = .of_facts episode ∨ row = .of_facts episode.opening := by
    intro row hrow hid
    obtain ⟨other, hother, heq⟩ := h.mirrors.episodes row hrow
    have hsame : other = episode := by
      refine episode_unique hepisodic hkeys hother hepisode ?_
      rcases heq with rfl | rfl <;> exact hid
    rwa [hsame] at heq
  -- An event that resolves the episode has left it with its resolution.
  have hresolves : ∀ event : EventEnvelope Payload, Resolves event.payload episode.episode_id →
      Covered site.projection event.aggregate_revision event.payload →
        AlertEpisode.of_facts episode ∈ site.projection.episodes := by
    intro event hresolves hcovered
    cases hpayload : event.payload with
    | inventory_state_changed payload =>
      rw [hpayload] at hresolves hcovered
      obtain ⟨row, hmem, hid, hsome⟩ :=
        hcovered.2 _ hresolves.1 _ hresolves.2
      rcases hrow row hmem hid with rfl | rfl
      · exact hmem
      · exact absurd (hsome rfl) (by simp [AlertEpisode.of_facts])
    | _ =>
      rw [hpayload] at hresolves
      exact hresolves.elim
  -- A resolved episode has emitted its resolution.
  cases hresolved : episode.resolved_at with
  | some resolved_at =>
    obtain ⟨event, hevent, htells⟩ := hrecounted.told record hlookup episode hmem
      (by rw [hresolved, Option.isSome_some])
    exact hresolves event htells (hprocessed event hevent)
  | none =>
    -- An open episode is covered by the event of its opening, or by one that would have resolved
    -- it.
    rcases htold with hnotified | ⟨event, hevent, htells⟩
    · -- The opening of the episode has been published.
      have hopening : (opening_payload episode, (episode.opening_revision : ℤ)) ∈
          openings record.episodes :=
        List.mem_map.mpr ⟨episode, List.mem_filter.mpr ⟨hmem, by rw [hnotified]; rfl⟩, rfl⟩
      rw [← (run_published lib start site.requests k record.id).lows record hlookup] at hopening
      obtain ⟨event, hevent, heq⟩ := List.mem_map.mp (List.mem_filter.mp hopening).1
      have hcovered := hprocessed event hevent
      rw [show event.payload = opening_payload episode from congrArg Prod.fst heq] at hcovered
      obtain ⟨row, hmem', hid⟩ := hcovered
      have hsettled := hrecounted.settled record hlookup episode hmem hresolved
      rcases hrow row hmem' hid with rfl | rfl
      · exact hmem'
      · rwa [← hsettled] at hmem'
    · exact hresolves event htells (h.covered event (hall event hevent))

variable (lib start k)

/-- The alert projection converges. In every state that requests, processed events and rebuilds lead
to, a projected state is one that its ingredient has had at its revision, which the live one has
reached; a projected episode has the facts of its producer, with its resolution or without; in every
later state the revisions are no smaller and the resolved episodes the same. Once every emitted event
has been processed, the state of every ingredient that has emitted one is the live one, and every
episode about which somebody is notified or whose resolution was emitted is projected with the facts
of its producer. -/
theorem alert_projection_converges (ops later : List Op) :
    let site := Site.run lib start k ops
    let db := site.db lib start k
    let p := site.projection
    Keyed.Unique AlertIngredientState.ingredient_id p.states ∧
    Keyed.Unique AlertEpisode.episode_id p.episodes ∧
    (∀ row ∈ p.states,
      (∃ record, Keyed.lookup IngredientRecord.id row.ingredient_id db.ingredients = some record ∧
        row.revision ≤ record.revision) ∧
      (∃ pre, pre <+: site.requests ∧ ∃ record, Keyed.lookup IngredientRecord.id row.ingredient_id
        ((RestaurantOS.run lib start pre).rows k).ingredients = some record ∧ Shows row record) ∧
      ∀ pre, pre <+: site.requests → ∀ record, Keyed.lookup IngredientRecord.id row.ingredient_id
        ((RestaurantOS.run lib start pre).rows k).ingredients = some record →
          record.revision = row.revision → Shows row record) ∧
    (∀ row ∈ p.episodes, ∃ episode ∈ episodes db,
      row = .of_facts episode ∨ row = .of_facts episode.opening) ∧
    Grown p (Site.run lib start k (ops ++ later)).projection ∧
    ((∀ event ∈ inventory_events db, event ∈ site.processed) →
      (∀ id, db.ingredient_events id ≠ [] → ∃ row ∈ p.states, ∃ record, row.ingredient_id = id ∧
        Keyed.lookup IngredientRecord.id id db.ingredients = some record ∧ Shows row record) ∧
      ∀ episode ∈ episodes db, (episode.notification_suppressed = false ∨
        ∃ event ∈ inventory_events db, Resolves event.payload episode.episode_id) →
          AlertEpisode.of_facts episode ∈ p.episodes) := by
  intro site db p
  -- The induction over the operations is `run_sound`.
  have hsound := run_sound lib start k ops
  refine ⟨hsound.mirrors.unique_states, hsound.mirrors.unique_episodes, fun row hrow => ?_,
    hsound.mirrors.episodes, run_grown lib start k ops later, fun hall => ⟨fun id hne => ?_,
      fun episode hepisode htold => hsound.episode hepisode hall htold⟩⟩
  · -- A projected state is that of the record at its revision, at whichever prefix this was
    -- reached.
    obtain ⟨record, hrecord, hle, -⟩ := hsound.mirrors.live hrow
    obtain ⟨pre, hpre, record', hrecord', hshows⟩ := hsound.mirrors.states row hrow
    refine ⟨⟨record, hrecord, hle⟩, ⟨pre, hpre, record', hrecord', hshows⟩,
      fun pre' hpre' record'' hrecord'' hrevision => ?_⟩
    exact shows_of_revision lib start k hpre hpre' hrecord' hrecord''
      (hrevision.trans hshows.revision) hshows
  · -- The events about one ingredient are among all events.
    refine hsound.live hne fun event hevent => hall event ?_
    obtain ⟨hmem, hid⟩ := List.mem_filter.mp hevent
    refine List.mem_filter.mpr ⟨hmem, ?_⟩
    rw [of_decide_eq_true hid, Option.isSome_some]

end Site

end RestaurantOS.Alerts
