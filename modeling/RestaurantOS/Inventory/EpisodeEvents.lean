import RestaurantOS.Inventory.StateEvents

/-!
# Episodes and the events about them

An episode is never removed: its opening stays, and once it is resolved nothing about it changes
(`Grows`). The events of an ingredient and its episodes fit together (`Backed`, `Told`): the episode
that an event names is there, resolved if the event says so, and every resolved episode has been
announced by an event. -/

namespace RestaurantOS

open Fallible Events Inventory

namespace Inventory

/-- An episode without its resolution. It is the row as it was when the episode opened. -/
def InventoryLowStockEpisode.opening (episode : InventoryLowStockEpisode) :
    InventoryLowStockEpisode :=
  { episode with
    resolved_at := none
    resolution_reason := none
    closing_quantity := none
    closing_reorder_threshold := none
    closing_is_active := none
    resolution_revision := none
    resolution_source := none
    resolution_actor_user_id := none
    resolution_order_id := none }

/-- An opening has no resolution to lose. -/
@[simp] theorem opening_opening (episode : InventoryLowStockEpisode) :
    episode.opening.opening = episode.opening := rfl

/-- An opening is not resolved. -/
@[simp] theorem resolved_at_opening (episode : InventoryLowStockEpisode) :
    episode.opening.resolved_at = none := rfl

/-- The key of an episode is part of its opening. -/
theorem episode_id_of_opening {episode episode' : InventoryLowStockEpisode}
    (h : episode'.opening = episode.opening) : episode'.episode_id = episode.episode_id :=
  show episode'.opening.episode_id = episode.opening.episode_id from congrArg _ h

/-- Episodes stay: their openings do not change, and resolved ones not at all. -/
def Grows (episodes episodes' : List InventoryLowStockEpisode) : Prop :=
  ∀ episode ∈ episodes, ∃ episode' ∈ episodes', episode'.opening = episode.opening ∧
    (episode.resolved_at.isSome → episode' = episode)

/-- An unresolved episode has no facts about a resolution. -/
def Settled (episodes : List InventoryLowStockEpisode) : Prop :=
  ∀ episode ∈ episodes, episode.resolved_at = none → episode = episode.opening

/-- Kept episodes stay. -/
theorem Grows.refl (episodes : List InventoryLowStockEpisode) : Grows episodes episodes :=
  fun episode hmem => ⟨episode, hmem, rfl, fun _ => rfl⟩

/-- Staying is transitive. An episode stays over the one step and then over the other. -/
theorem Grows.trans {episodes₁ episodes₂ episodes₃ : List InventoryLowStockEpisode}
    (h₁ : Grows episodes₁ episodes₂) (h₂ : Grows episodes₂ episodes₃) :
    Grows episodes₁ episodes₃ := by
  intro episode hmem
  obtain ⟨episode', hmem', hopening, hresolved⟩ := h₁ episode hmem
  obtain ⟨episode'', hmem'', hopening', hresolved'⟩ := h₂ episode' hmem'
  refine ⟨episode'', hmem'', hopening'.trans hopening, fun hsome => ?_⟩
  have heq := hresolved hsome
  rw [hresolved' (heq ▸ hsome), heq]

/-- What a payload says of the episodes of its ingredient. -/
def Backed (payload : Payload) (episodes : List InventoryLowStockEpisode) : Prop :=
  match payload with
  | .inventory_state_changed payload => ∀ kind ∈ payload.episode_transition,
      ∃ episode ∈ episodes, payload.episode_id = some episode.episode_id ∧
        (kind = .resolved → episode.resolved_at.isSome)
  | .inventory_low payload => ∃ episode ∈ episodes, episode.episode_id = payload.episode_id
  | _ => True

/-- A payload announces the resolution of an episode. -/
def Resolves (payload : Payload) (episode_id : UUID) : Prop :=
  match payload with
  | .inventory_state_changed payload =>
    payload.episode_transition = some .resolved ∧ payload.episode_id = some episode_id
  | _ => False

/-- What a payload says stays true. The episode that it names is still there, and its opening is the
same. -/
theorem Backed.grows {payload : Payload} {episodes episodes' : List InventoryLowStockEpisode}
    (h : Backed payload episodes) (hgrows : Grows episodes episodes') :
    Backed payload episodes' := by
  unfold Backed at h ⊢
  split
  · intro kind hkind
    obtain ⟨episode, hmem, hid, hresolved⟩ := h kind hkind
    obtain ⟨episode', hmem', hopening, hsame⟩ := hgrows episode hmem
    refine ⟨episode', hmem', hid.trans (congrArg some (episode_id_of_opening hopening).symm),
      fun hkind => ?_⟩
    rw [hsame (hresolved hkind)]
    exact hresolved hkind
  · obtain ⟨episode, hmem, hid⟩ := h
    obtain ⟨episode', hmem', hopening, -⟩ := hgrows episode hmem
    exact ⟨episode', hmem', (episode_id_of_opening hopening).trans hid⟩
  · trivial

/-- What a request does to the episodes of an ingredient, with the payloads it publishes. -/
structure EpisodeStep (episodes episodes' : List InventoryLowStockEpisode) (payloads : List Payload) :
    Prop where
  /-- The episodes stay. -/
  grows : Grows episodes episodes'
  /-- What is resolved now is announced. -/
  told : ∀ episode ∈ episodes', episode.resolved_at.isSome → episode ∈ episodes ∨
    ∃ payload ∈ payloads, Resolves payload episode.episode_id
  /-- What is announced is there. -/
  backed : ∀ payload ∈ payloads, Backed payload episodes'
  /-- Unresolved episodes are settled. -/
  settled : Settled episodes → Settled episodes'

/-- Nothing happens to the episodes. -/
theorem EpisodeStep.refl (episodes : List InventoryLowStockEpisode) :
    EpisodeStep episodes episodes [] :=
  ⟨.refl episodes, fun _ hmem _ => Or.inl hmem, by simp, fun h => h⟩

/-- An unresolved episode is appended. The opening event is backed by the episode that it opened. -/
theorem EpisodeStep.append {episodes : List InventoryLowStockEpisode}
    {opened : InventoryLowStockEpisode} (hopen : opened = opened.opening) {payloads : List Payload}
    (hbacked : ∀ payload ∈ payloads, Backed payload (episodes ++ [opened])) :
    EpisodeStep episodes (episodes ++ [opened]) payloads := by
  refine ⟨fun episode hmem => ⟨episode, List.mem_append_left _ hmem, rfl, fun _ => rfl⟩,
    fun episode hmem hsome => ?_, hbacked, fun hsettled episode hmem => ?_⟩
  · rcases List.mem_append.mp hmem with hmem | hmem
    · exact Or.inl hmem
    · rw [List.mem_singleton.mp hmem, hopen] at hsome
      cases hsome
  · rcases List.mem_append.mp hmem with hmem | hmem
    · exact hsettled episode hmem
    · rw [List.mem_singleton.mp hmem]
      exact fun _ => hopen

/-- An unresolved episode is resolved and announced. The other episodes stay as they are, and
nothing that was resolved is changed. -/
theorem EpisodeStep.put {episodes : List InventoryLowStockEpisode}
    (hids : Keyed.Unique InventoryLowStockEpisode.episode_id episodes)
    {current closed : InventoryLowStockEpisode} (hmem : current ∈ episodes)
    (hopen : current.resolved_at = none) (hopening : closed.opening = current.opening)
    {payloads : List Payload} (hresolves : ∃ payload ∈ payloads, Resolves payload closed.episode_id)
    (hclosed : closed.resolved_at.isSome)
    (hbacked : ∀ payload ∈ payloads,
      Backed payload (Keyed.put InventoryLowStockEpisode.episode_id closed episodes)) :
    EpisodeStep episodes (Keyed.put InventoryLowStockEpisode.episode_id closed episodes) payloads := by
  have hkey : current.episode_id = closed.episode_id := (episode_id_of_opening hopening).symm
  have hput : closed ∈ Keyed.put InventoryLowStockEpisode.episode_id closed episodes :=
    Keyed.lookup_mem (Keyed.lookup_put_self (hids.lookup_eq_some.mpr ⟨hmem, hkey⟩))
  refine ⟨fun episode hepisode => ?_, fun episode hepisode hsome => ?_, hbacked,
    fun hsettled episode hepisode hnone => ?_⟩
  · -- The opening of each episode is kept, that of the resolved one by `hopening`.
    by_cases hsame : episode.episode_id = closed.episode_id
    · obtain rfl := hids.eq_of_key hepisode hmem (hsame.trans hkey.symm)
      exact ⟨closed, hput, hopening, fun hsome => by rw [hopen] at hsome; cases hsome⟩
    · refine ⟨episode, ?_, rfl, fun _ => rfl⟩
      have hlookup := hids.lookup_eq_some.mpr ⟨hepisode, rfl⟩
      exact Keyed.lookup_mem ((Keyed.lookup_put_ne hsame episodes).trans hlookup)
  · -- An episode that is resolved now was so before, or is the one of the announcement.
    rcases Keyed.mem_put hepisode with ⟨hold, -⟩ | rfl
    · exact Or.inl hold
    · exact Or.inr hresolves
  · rcases Keyed.mem_put hepisode with ⟨hold, -⟩ | rfl
    · exact hsettled episode hold hnone
    · rw [hnone] at hclosed
      cases hclosed

section Change

variable {organization_id : UUID} {restaurant_id : ℕ} {episode_id : UUID}
  {events : List (EventEnvelope Payload)}

/-- A crossed boundary, with the payloads that announce it. Every payload about an episode is backed
by a row, and every resolution is told by a payload. -/
theorem Crossing.episode_step {episodes : List InventoryLowStockEpisode}
    {before : Option InventoryStateSnapshot} {after : InventoryStateSnapshot} {boundary : Boundary}
    (h : Crossing episodes before after episode_id boundary)
    (hids : Keyed.Unique InventoryLowStockEpisode.episode_id episodes) {payloads : List Payload}
    (hannounced : Announced after boundary payloads) :
    EpisodeStep episodes boundary.episodes payloads := by
  -- The payload of the new state tells the boundary and its episode.
  have hstate : ∃ transition : InventoryTransition, transition.episode_transition = boundary.fact ∧
      transition.episode_id = (boundary.episode.map (·.episode_id)).or
        (boundary.fact.map (·.episode_id)) ∧
      state_changed_payload transition ∈ payloads ∧ ∀ payload ∈ payloads,
        payload = state_changed_payload transition ∨
          boundary.fact.map (·.kind) = some .opened ∧ ∃ facts : InventoryEpisodeFacts,
            boundary.episode = some facts.episode ∧ payload = low_payload facts := by
    cases hannounced with
    | state transition _ hfact hid hedge =>
      exact ⟨transition, hfact, hid, List.mem_singleton_self _,
        fun payload hmem => Or.inl (List.mem_singleton.mp hmem)⟩
    | low transition _ hfact hid hedge facts hfacts =>
      refine ⟨transition, hfact, hid, List.mem_cons_self, fun payload hmem => ?_⟩
      rcases List.mem_pair.mp hmem with rfl | rfl
      · exact Or.inl rfl
      · exact Or.inr ⟨hedge, facts, hfacts, rfl⟩
  obtain ⟨transition, hfact, hid, hmem, hall⟩ := hstate
  -- Without a boundary nothing is said about an episode.
  have hlevel : boundary.fact = none → ∀ payload ∈ payloads, Backed payload boundary.episodes := by
    intro hnone payload hpayload
    rcases hall payload hpayload with rfl | ⟨hopened, -⟩
    · intro kind hkind
      rw [hfact, hnone] at hkind
      cases hkind
    · rw [hnone] at hopened
      cases hopened
  cases h with
  -- The opened episode is the one that both payloads are about.
  | opened hedge hnone timestamp source actor_user_id order_id fact hkind =>
    refine .append rfl fun payload hpayload => ?_
    rcases hall payload hpayload with rfl | ⟨-, facts, hfacts, rfl⟩
    · intro kind hsome
      refine ⟨_, List.mem_append_right _ (List.mem_singleton_self _), hid, fun hresolved => ?_⟩
      rw [hfact, Option.map_some, hkind.1, hresolved] at hsome
      cases hsome
    · refine ⟨_, List.mem_append_right _ (List.mem_singleton_self _), ?_⟩
      exact congrArg InventoryLowStockEpisode.episode_id (Option.some.inj hfacts)
  -- The resolved one is the one that the payload of the state names.
  | resolved hedge current hopen timestamp reason source actor_user_id order_id fact hkind =>
    obtain ⟨hcurrent, hunresolved⟩ := unresolved_mem hopen
    have hopening : (closing_facts current after timestamp reason source actor_user_id
        order_id).opening = current.opening := rfl
    refine .put hids hcurrent hunresolved hopening ⟨_, hmem, ?_, hid⟩ rfl fun payload hpayload => ?_
    · rw [hfact, Option.map_some, hkind.1]
    · rcases hall payload hpayload with rfl | ⟨hopened, -⟩
      · intro kind _
        refine ⟨_, ?_, hid, fun _ => rfl⟩
        exact Keyed.lookup_mem (Keyed.lookup_put_self (r := current)
          (hids.lookup_eq_some.mpr ⟨hcurrent, rfl⟩))
      · rw [Option.map_some, hkind.1] at hopened
        cases hopened
  | untracked hedge hnone =>
    exact ⟨.refl episodes, fun _ hepisode _ => Or.inl hepisode, hlevel rfl, fun hsettled => hsettled⟩
  | level hedge =>
    exact ⟨.refl episodes, fun _ hepisode _ => Or.inl hepisode, hlevel rfl, fun hsettled => hsettled⟩

/-- What a recorded transition does to the episodes. It opens one, resolves the open one, or leaves
them as they are. -/
theorem Recorded.episode_step {record record' : IngredientRecord} {balance : InventoryBalance}
    {before : Option InventoryStateSnapshot}
    (h : Recorded organization_id restaurant_id episode_id record balance before record' events)
    (hids : Keyed.Unique InventoryLowStockEpisode.episode_id record.episodes) :
    EpisodeStep record.episodes record'.episodes (events.map (·.payload)) := by
  cases h with
  | unchanged => exact .refl _
  | changed hchanged _ hrevision hitem hbalance hmovements boundary hcrossing hepisodes events
      hannounced hrevisions =>
    rw [hepisodes]
    exact hcrossing.episode_step hids hannounced

/-- What a change does to the episodes. An ingredient that is new has none yet. -/
theorem Change.episode_step {old : Option IngredientRecord} {purpose : Purpose}
    {record' : IngredientRecord}
    (h : Change organization_id restaurant_id episode_id old purpose record' events)
    (hsound : ∀ record ∈ old, record.Sound organization_id restaurant_id) :
    EpisodeStep ((old.map (·.episodes)).getD []) record'.episodes (events.map (·.payload)) ∧
      record'.balance.isSome := by
  cases h with
  | created item movement hrevision hafter hversion hrange h =>
    exact ⟨h.episode_step List.nodup_nil, by rw [h.rows.1, Option.isSome_some]⟩
  | rewritten record balance hbalance record₁ balance₁ hid hrevision hepisodes hposting h =>
    refine ⟨?_, by rw [h.rows.1, Option.isSome_some]⟩
    have hstep := h.episode_step (hepisodes ▸ (hsound record rfl).ids)
    rwa [hepisodes] at hstep
  | baseline record balance hbalance hlow hnone opened_at =>
    exact ⟨.append rfl (by simp), by rw [hbalance, Option.isSome_some]⟩

end Change

/-! ## What is known of an ingredient -/

/-- An ingredient stays: its revision does not decrease and determines its state, and its episodes
stay. -/
structure Advances (record record' : IngredientRecord) : Prop where
  /-- The revision. -/
  revision : record.revision ≤ record'.revision
  /-- The state. -/
  state : record'.revision = record.revision → record'.state = record.state
  /-- The episodes. -/
  episodes : Grows record.episodes record'.episodes
  /-- The balance. -/
  balance : record.balance.isSome → record'.balance.isSome

/-- A kept ingredient stays. -/
theorem Advances.refl (record : IngredientRecord) : Advances record record :=
  ⟨le_rfl, fun _ => rfl, .refl _, fun h => h⟩

/-- Staying is transitive. -/
theorem Advances.trans {record₁ record₂ record₃ : IngredientRecord} (h₁ : Advances record₁ record₂)
    (h₂ : Advances record₂ record₃) : Advances record₁ record₃ := by
  refine ⟨h₁.revision.trans h₂.revision, fun heq => ?_, h₁.episodes.trans h₂.episodes,
    fun hsome => h₂.balance (h₁.balance hsome)⟩
  have hle₁ := h₁.revision
  have hle₂ := h₂.revision
  exact (h₂.state (by omega)).trans (h₁.state (by omega))

/-- How the events of an ingredient fit its rows. -/
structure Recounted (id : ℕ) (db : Branch) : Prop where
  /-- What an event says is so. -/
  backed : ∀ event ∈ db.ingredient_events id, ∃ record,
    Keyed.lookup IngredientRecord.id id db.ingredients = some record ∧
      Backed event.payload record.episodes ∧ record.balance.isSome ∧
        event.aggregate_revision ≤ record.revision
  /-- A resolved episode has been announced. -/
  told : ∀ record, Keyed.lookup IngredientRecord.id id db.ingredients = some record →
    ∀ episode ∈ record.episodes, episode.resolved_at.isSome →
      ∃ event ∈ db.ingredient_events id, Resolves event.payload episode.episode_id
  /-- Unresolved episodes are settled. -/
  settled : ∀ record, Keyed.lookup IngredientRecord.id id db.ingredients = some record →
    Settled record.episodes
  /-- The last event is about the current revision. -/
  latest : ∀ record, Keyed.lookup IngredientRecord.id id db.ingredients = some record →
    db.ingredient_events id ≠ [] → ∃ event ∈ db.ingredient_events id,
      (∃ payload, event.payload = .inventory_state_changed payload) ∧
        event.aggregate_revision = record.revision

/-- What a step does to an ingredient keeps what its events tell. What the events of one ingredient
tell: that they are backed, that the resolutions are told, that the unresolved is settled, and that
the last one is of the last revision. -/
theorem Recounted.step {id : ℕ} {db db' : Branch} (h : Recounted id db)
    {events : List (EventEnvelope Payload)} {record' : IngredientRecord}
    (hevents : db'.ingredient_events id = db.ingredient_events id ++ events)
    (hnew : Keyed.lookup IngredientRecord.id id db'.ingredients = some record')
    (hadvances : ∀ record, Keyed.lookup IngredientRecord.id id db.ingredients = some record →
      Advances record record')
    (hepisodes : EpisodeStep
      (((Keyed.lookup IngredientRecord.id id db.ingredients).map (·.episodes)).getD [])
      record'.episodes (events.map (·.payload)))
    (hbalance : events ≠ [] → record'.balance.isSome)
    (hrevisions : ∀ event ∈ events, event.aggregate_revision = record'.revision)
    (hlatest : events ≠ [] → ∃ event ∈ events,
      ∃ payload, event.payload = .inventory_state_changed payload)
    (hkept : events = [] → ∀ record,
      Keyed.lookup IngredientRecord.id id db.ingredients = some record →
        record'.revision = record.revision)
    (hborn : Keyed.lookup IngredientRecord.id id db.ingredients = none →
      db.ingredient_events id = []) : Recounted id db' := by
  have hrecord : ∀ record, Keyed.lookup IngredientRecord.id id db'.ingredients = some record →
      record = record' := fun record hrecord => Option.some.inj (hrecord.symm.trans hnew)
  refine ⟨fun event hevent => ⟨record', hnew, ?_⟩, fun record heq => ?_, fun record heq => ?_,
    fun record heq hne => ?_⟩
  · rw [hevents] at hevent
    -- An earlier event is backed still, since the rows of its episodes only advance.
    rcases List.mem_append.mp hevent with hold | hfresh
    · obtain ⟨record, hlookup, hbacked, hsome, hle⟩ := h.backed event hold
      have hadvance := hadvances record hlookup
      refine ⟨hbacked.grows hadvance.episodes, hadvance.balance hsome, hle.trans ?_⟩
      exact_mod_cast hadvance.revision
    · exact ⟨hepisodes.backed _ (List.mem_map_of_mem hfresh), hbalance (List.ne_nil_of_mem hfresh),
        (hrevisions event hfresh).le⟩
  · -- A resolution is an earlier one, which has been told, or is told by one of the new events.
    obtain rfl := hrecord record heq
    intro episode hmem hresolved
    rcases hepisodes.told episode hmem hresolved with hold | ⟨payload, hpayload, hresolves⟩
    · cases hlookup : Keyed.lookup IngredientRecord.id id db.ingredients with
      | none =>
        rw [hlookup] at hold
        exact absurd hold List.not_mem_nil
      | some before =>
        rw [hlookup] at hold
        obtain ⟨event, hevent, hresolves⟩ := h.told before hlookup episode hold hresolved
        exact ⟨event, hevents ▸ List.mem_append_left _ hevent, hresolves⟩
    · obtain ⟨event, hevent, rfl⟩ := List.mem_map.mp hpayload
      exact ⟨event, hevents ▸ List.mem_append_right _ hevent, hresolves⟩
  · obtain rfl := hrecord record heq
    refine hepisodes.settled ?_
    cases hlookup : Keyed.lookup IngredientRecord.id id db.ingredients with
    | none => exact fun episode hmem => absurd hmem List.not_mem_nil
    | some before => exact h.settled before hlookup
  · -- The latest revision: a step without events has not changed it.
    obtain rfl := hrecord record heq
    by_cases hnil : events = []
    · rw [hnil, List.append_nil] at hevents
      rw [hevents] at hne ⊢
      cases hlookup : Keyed.lookup IngredientRecord.id id db.ingredients with
      | none => exact absurd (hborn hlookup) hne
      | some before =>
        rw [hkept hnil before hlookup]
        exact h.latest before hlookup hne
    · obtain ⟨event, hevent, hstate⟩ := hlatest hnil
      exact ⟨event, hevents ▸ List.mem_append_right _ hevent, hstate, hrevisions event hevent⟩

/-- The revisions of published events, and the first one. The opening has the same revision as the
state that caused it. -/
theorem published_facts {events : List (EventEnvelope Payload)} {payload : Payload} {revision : ℤ}
    {opened : Option Payload}
    (h : published events = (payload, revision) :: opened.toList.map fun opened => (opened, revision)) :
    (∀ event ∈ events, event.aggregate_revision = revision) ∧
      ∃ event ∈ events, event.payload = payload := by
  constructor
  · intro event hevent
    have hmem : (event.payload, event.aggregate_revision) ∈ published events :=
      List.mem_map.mpr ⟨event, hevent, rfl⟩
    rw [h] at hmem
    rcases List.mem_cons.mp hmem with heq | hopened
    · exact congrArg Prod.snd heq
    · obtain ⟨_, -, heq⟩ := List.mem_map.mp hopened
      exact (congrArg Prod.snd heq).symm
  · have hmem : (payload, revision) ∈ published events := h ▸ List.mem_cons_self
    obtain ⟨event, hevent, heq⟩ := List.mem_map.mp hmem
    exact ⟨event, hevent, congrArg Prod.fst heq⟩

/-- What a step tells of the revision of an ingredient. It is what the announcements have in common
with the steps of the row. -/
theorem StateStep.facts {old : Option IngredientRecord} {record' : IngredientRecord}
    {events : List (EventEnvelope Payload)} (h : StateStep old (some record') events) :
    (∀ record ∈ old, record.revision ≤ record'.revision ∧
        (record'.revision = record.revision → record'.state = record.state)) ∧
      (∀ event ∈ events, event.aggregate_revision = record'.revision) ∧
      (events ≠ [] → ∃ event ∈ events,
        ∃ payload, event.payload = .inventory_state_changed payload) ∧
      (events = [] → ∀ record ∈ old, record'.revision = record.revision) := by
  cases h with
  | created _ hrevision payload hannounces opened hopened _ hevents =>
    obtain ⟨hrevisions, event, hevent, hpayload⟩ := published_facts hevents
    refine ⟨by simp, fun e he => ?_, fun _ => ⟨event, hevent, payload, hpayload⟩, by simp⟩
    rw [hrevisions e he, hrevision]
    rfl
  | kept record _ hid hstate hrevision hopenings =>
    refine ⟨fun before hbefore => ?_, by simp, fun hne => absurd rfl hne, fun _ before hbefore => ?_⟩
    · obtain rfl := Option.mem_some_iff.mp hbefore
      exact ⟨hrevision.ge, fun _ => hstate⟩
    · obtain rfl := Option.mem_some_iff.mp hbefore
      exact hrevision
  | changed record _ hid hstate hrevision payload hannounces opened hopened _ hevents =>
    obtain ⟨hrevisions, event, hevent, hpayload⟩ := published_facts hevents
    refine ⟨fun before hbefore => ?_, hrevisions, fun _ => ⟨event, hevent, payload, hpayload⟩,
      fun hnil => ?_⟩
    · obtain rfl := Option.mem_some_iff.mp hbefore
      exact ⟨by omega, fun heq => by omega⟩
    · rw [hnil] at hevent
      exact absurd hevent List.not_mem_nil

end Inventory

/-! ## Runs -/

section Runs

variable (lib : Library) (start : ℕ → LegacyBranch) (acts : List Act) (k id : ℕ)

/-- A step of a run leaves an ingredient and its events as they are, or changes them. -/
theorem run_change (a : Act) :
    let db := (run lib start acts).rows k
    let db' := (run lib start (acts ++ [a])).rows k
    (Keyed.lookup IngredientRecord.id id db'.ingredients =
        Keyed.lookup IngredientRecord.id id db.ingredients ∧
      db'.ingredient_events id = db.ingredient_events id) ∨
    ∃ purpose record' events episode_id,
      Keyed.lookup IngredientRecord.id id db'.ingredients = some record' ∧
      Change db.organization_id db.restaurant_id episode_id
        (Keyed.lookup IngredientRecord.id id db.ingredients) purpose record' events ∧
      db'.ingredient_events id = db.ingredient_events id ++ events := by
  intro db db'
  rcases run_step lib start acts a k with hsame | ⟨command, heffect⟩
  · left
    rw [show db' = db from hsame]
    exact ⟨rfl, rfl⟩
  · cases heffect.ingredient_step (run_sane lib start acts k).keys id with
    | kept hlookup hevents => exact Or.inl ⟨hlookup, hevents⟩
    | changed purpose record' events episode_id hfresh hlookup hchange hevents =>
      exact Or.inr ⟨purpose, record', events, episode_id, hlookup, hchange, hevents⟩

/-- A step of a run keeps an ingredient, and what its events tell. One action is no change of the
ingredient, or the change of one command. -/
theorem run_episode_step (a : Act) (h : Recounted id ((run lib start acts).rows k)) :
    Recounted id ((run lib start (acts ++ [a])).rows k) ∧
      ∀ record, Keyed.lookup IngredientRecord.id id ((run lib start acts).rows k).ingredients =
        some record → ∃ record', Keyed.lookup IngredientRecord.id id
          ((run lib start (acts ++ [a])).rows k).ingredients = some record' ∧
            Advances record record' := by
  have hsilent := (run_published lib start acts k id).silent
  have hepisodic := run_episodic lib start acts k
  rcases run_change lib start acts k id a with ⟨hlookup, hevents⟩ |
    ⟨purpose, record', events, episode_id, hlookup, hchange, hevents⟩
  · refine ⟨⟨?_, ?_, ?_, ?_⟩, fun record hrecord => ⟨record, hlookup.trans hrecord, .refl record⟩⟩
    all_goals simp only [hlookup, hevents]
    · exact h.backed
    · exact h.told
    · exact h.settled
    · exact h.latest
  · have hsound : ∀ record ∈ Keyed.lookup IngredientRecord.id id
        ((run lib start acts).rows k).ingredients,
          record.Sound ((run lib start acts).rows k).organization_id
            ((run lib start acts).rows k).restaurant_id :=
      fun record hrecord => hepisodic.sound record (Keyed.lookup_mem hrecord)
    obtain ⟨hbefore, hrevisions, hlatest, hkept⟩ := (hchange.state_step hsound).facts
    -- The step of its episodes and that of its revision are put together.
    obtain ⟨hepisodes, hbalance⟩ := hchange.episode_step hsound
    have hadvances : ∀ record, Keyed.lookup IngredientRecord.id id
        ((run lib start acts).rows k).ingredients = some record → Advances record record' := by
      intro record hrecord
      obtain ⟨hle, hstate⟩ := hbefore record hrecord
      have hgrows := hepisodes.grows
      rw [hrecord] at hgrows
      exact ⟨hle, hstate, hgrows, fun _ => hbalance⟩
    exact ⟨h.step hevents hlookup hadvances hepisodes (fun _ => hbalance) hrevisions hlatest hkept
      fun hnone => (hsilent hnone).1, fun record hrecord =>
        ⟨record', hlookup, hadvances record hrecord⟩⟩

/-- In every reachable state the events of an ingredient fit its rows. -/
theorem run_recounted : Recounted id ((run lib start acts).rows k) := by
  induction acts using List.reverseRecOn with
  | nil =>
    have hnone : (start k).toBranch.ingredient_events id = [] := by
      unfold Branch.ingredient_events
      rw [(start k).legacy.events, about_nil]
    have hepisodes : ∀ record, Keyed.lookup IngredientRecord.id id (start k).ingredients =
        some record → record.episodes = [] :=
      fun record hrecord => (start k).legacy.episodes record (Keyed.lookup_mem hrecord)
    show Recounted id (start k).toBranch
    refine ⟨fun event hevent => ?_, fun record hrecord episode hmem => ?_,
      fun record hrecord episode hmem => ?_, fun record hrecord hne => absurd hnone hne⟩
    · rw [hnone] at hevent
      exact absurd hevent List.not_mem_nil
    all_goals
      rw [hepisodes record hrecord] at hmem
      exact absurd hmem List.not_mem_nil
  | append_singleton acts a ih => exact (run_episode_step lib start acts k id a ih).1

/-- Along a run an ingredient stays. It keeps its key and its episodes, and its revision does not
fall. -/
theorem run_advances (later : List Act) {record : IngredientRecord}
    (hrecord : Keyed.lookup IngredientRecord.id id ((run lib start acts).rows k).ingredients =
      some record) : ∃ record', Keyed.lookup IngredientRecord.id id
        ((run lib start (acts ++ later)).rows k).ingredients = some record' ∧
          Advances record record' := by
  induction later using List.reverseRecOn with
  | nil => exact ⟨record, by rwa [List.append_nil], .refl record⟩
  | append_singleton later a ih =>
    obtain ⟨record₁, hrecord₁, hadvances₁⟩ := ih
    obtain ⟨record₂, hrecord₂, hadvances₂⟩ := (run_episode_step lib start (acts ++ later) k id a
      (run_recounted lib start (acts ++ later) k id)).2 record₁ hrecord₁
    rw [List.append_assoc] at hrecord₂
    exact ⟨record₂, hrecord₂, hadvances₁.trans hadvances₂⟩

end Runs

end RestaurantOS
