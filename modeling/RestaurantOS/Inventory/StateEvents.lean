import RestaurantOS.Inventory.Episodes
import RestaurantOS.Outbox

/-!
# The events of an ingredient follow its revisions

Along every run, an ingredient and the events about it go through the steps of `StateStep`: a request
that changes its quantity, threshold or activity gives it the next revision and publishes it, with the
episode it has opened, if any; every other request does neither. -/

namespace RestaurantOS

open Fallible Events Inventory

namespace Inventory

/-- What makes a revision: quantity, threshold and activity. -/
def IngredientRecord.state (record : IngredientRecord) : Option ℚ × ℚ × Bool :=
  (record.balance.map (·.quantity), record.item.reorder_threshold, record.item.is_active)

/-- The episode that has been resolved at the current revision. -/
def IngredientRecord.resolved_now (record : IngredientRecord) : Option InventoryLowStockEpisode :=
  record.episodes.find? fun episode => episode.resolution_revision = some record.revision

/-- What `inventory.state_changed.v1` tells of an ingredient. Name and unit may change without an
event, so they are those at the time of the change. -/
structure Announces (record : IngredientRecord) (payload : InventoryStateChangedPayload) : Prop where
  /-- The ingredient. -/
  ingredient_id : payload.ingredient_id = record.id
  /-- Its name. -/
  ingredient_name : payload.ingredient_name = record.item.name
  /-- Its unit. -/
  unit : payload.unit = record.item.unit
  /-- Quantity, threshold and activity. -/
  state : record.state = (some payload.quantity, payload.reorder_threshold, payload.is_active)
  /-- Whether it is low. -/
  is_low : payload.is_low = record.is_low
  /-- The open episode, or the one that has just been resolved. -/
  episode_id : payload.episode_id =
    ((unresolved record.episodes).or record.resolved_now).map (·.episode_id)
  /-- An episode has been opened. -/
  opened : payload.episode_transition = some .opened ↔
    ∃ episode ∈ record.episodes, episode.opening_revision = record.revision
  /-- An episode has been resolved. -/
  resolved : payload.episode_transition = some .resolved ↔ record.resolved_now.isSome
  /-- And why. -/
  resolution_reason : payload.resolution_reason = record.resolved_now.bind (·.resolution_reason)

/-- The payload of `inventory.low.v1` for an episode. It is built from the columns of the opening,
which never change. -/
def opening_payload (episode : InventoryLowStockEpisode) : Payload :=
  .inventory_low
    { ingredient_id := episode.ingredient_id, episode_id := episode.episode_id,
      ingredient_name := episode.ingredient_name, unit := episode.unit,
      opening_quantity := episode.opening_quantity,
      reorder_threshold := episode.opening_reorder_threshold, opened_at := episode.opened_at }

/-- The openings of the episodes about which somebody is notified, with their revisions. -/
def openings (episodes : List InventoryLowStockEpisode) : List (Payload × ℤ) :=
  (episodes.filter fun episode => !episode.notification_suppressed).map fun episode =>
    (opening_payload episode, (episode.opening_revision : ℤ))

/-- The payloads of events with their revisions. The order is that of the outbox. -/
def published (events : List (EventEnvelope Payload)) : List (Payload × ℤ) :=
  events.map fun event => (event.payload, event.aggregate_revision)

/-- What a request does to an ingredient, and the events about it that it appends. -/
inductive StateStep : Option IngredientRecord → Option IngredientRecord →
    List (EventEnvelope Payload) → Prop
  | absent : StateStep none none []
  | created (record : IngredientRecord) (hrevision : record.revision = 1)
      (payload : InventoryStateChangedPayload) (hannounces : Announces record payload)
      (opened : Option Payload)
      (hopened : openings record.episodes = opened.toList.map fun opened => (opened, 1))
      (events : List (EventEnvelope Payload))
      (hevents : published events =
        (.inventory_state_changed payload, 1) :: opened.toList.map fun opened => (opened, 1)) :
    StateStep none (some record) events
  | kept (record record' : IngredientRecord) (hid : record'.id = record.id)
      (hstate : record'.state = record.state) (hrevision : record'.revision = record.revision)
      (hopenings : openings record'.episodes = openings record.episodes) :
    StateStep (some record) (some record') []
  | changed (record record' : IngredientRecord) (hid : record'.id = record.id)
      (hstate : record'.state ≠ record.state) (hrevision : record'.revision = record.revision + 1)
      (payload : InventoryStateChangedPayload) (hannounces : Announces record' payload)
      (opened : Option Payload)
      (hopened : openings record'.episodes = openings record.episodes ++
        opened.toList.map fun opened => (opened, (record'.revision : ℤ)))
      (events : List (EventEnvelope Payload))
      (hevents : published events = (.inventory_state_changed payload, (record'.revision : ℤ)) ::
        opened.toList.map fun opened => (opened, (record'.revision : ℤ))) :
    StateStep (some record) (some record') events

/-! ## One change -/

/-- Openings are selected episode by episode. -/
@[simp] theorem openings_append (episodes episodes' : List InventoryLowStockEpisode) :
    openings (episodes ++ episodes') = openings episodes ++ openings episodes' := by
  unfold openings
  rw [List.filter_append, List.map_append]

/-- Resolving an episode does not change what its opening was. What was announced at the opening is
a matter of fields that a resolution leaves. -/
theorem openings_put {episodes : List InventoryLowStockEpisode}
    (hids : Keyed.Unique InventoryLowStockEpisode.episode_id episodes)
    {episode closed : InventoryLowStockEpisode} (hmem : episode ∈ episodes)
    (hkey : closed.episode_id = episode.episode_id)
    (hsuppressed : closed.notification_suppressed = episode.notification_suppressed)
    (hpayload : opening_payload closed = opening_payload episode)
    (hopening : closed.opening_revision = episode.opening_revision) :
    openings (Keyed.put InventoryLowStockEpisode.episode_id closed episodes) = openings episodes := by
  unfold openings Keyed.put Keyed.modify
  rw [List.filter_map, List.map_map]
  have hsame : ∀ other ∈ episodes, other.episode_id = closed.episode_id → other = episode :=
    fun other hother heq => hids.eq_of_key hother hmem (heq.trans hkey)
  -- The same episodes are announced, for the flag of the resolved one is kept.
  have hfilter : episodes.filter ((fun e => !e.notification_suppressed) ∘ fun other =>
      if other.episode_id = closed.episode_id then closed else other) =
        episodes.filter fun e => !e.notification_suppressed := by
    refine List.filter_congr fun other hother => ?_
    simp only [Function.comp]
    split_ifs with heq
    · rw [hsame other hother heq, hsuppressed]
    · rfl
  rw [hfilter]
  refine List.map_congr_left fun other hother => ?_
  simp only [Function.comp]
  split_ifs with heq
  · rw [hsame other (List.mem_filter.mp hother).1 heq, hpayload, hopening]
  · rfl

/-- The only element with a property is the one that is found. -/
theorem find?_eq_some_of_unique {α : Type} {p : α → Bool} {x : α} {xs : List α} (hmem : x ∈ xs)
    (hp : p x = true) (hunique : ∀ y ∈ xs, p y = true → y = x) : xs.find? p = some x := by
  cases hfind : xs.find? p with
  | none => exact absurd hp (by simpa using List.find?_eq_none.mp hfind x hmem)
  | some y => rw [hunique y (List.mem_of_find?_eq_some hfind) (List.find?_some hfind)]

/-- The boundary of a change, told by the episodes afterwards. -/
structure Boundary.Shown (boundary : Boundary) (record record' : IngredientRecord) : Prop where
  /-- The current episode. -/
  episode_id : (boundary.episode.map (·.episode_id)).or (boundary.fact.map (·.episode_id)) =
    ((unresolved record'.episodes).or record'.resolved_now).map (·.episode_id)
  /-- An episode has been opened. -/
  opened : boundary.fact.map (·.kind) = some .opened ↔
    ∃ episode ∈ record'.episodes, episode.opening_revision = record'.revision
  /-- An episode has been resolved. -/
  resolved : boundary.fact.map (·.kind) = some .resolved ↔ record'.resolved_now.isSome
  /-- And why. -/
  reason : boundary.fact.bind (·.resolution_reason) =
    record'.resolved_now.bind (·.resolution_reason)
  /-- The opened episode is one more opening. -/
  opening : boundary.fact.map (·.kind) = some .opened → ∀ episode ∈ boundary.episode,
    openings record'.episodes =
      openings record.episodes ++ [(opening_payload episode, (record'.revision : ℤ))]
  /-- Otherwise there is none. -/
  none_opened : boundary.fact.map (·.kind) ≠ some .opened →
    openings record'.episodes = openings record.episodes

/-- The facts about the episodes before a change that the events of the change rely on. -/
structure Earlier (episodes : List InventoryLowStockEpisode) (revision : ℕ) : Prop where
  /-- No two share a key. -/
  ids : Keyed.Unique InventoryLowStockEpisode.episode_id episodes
  /-- Their boundaries are earlier. -/
  bounded : ∀ episode ∈ episodes, episode.opening_revision < revision ∧
    episode.resolution_revision ≠ some revision
  /-- At most one is unresolved. -/
  single : ∀ episode ∈ episodes, episode.resolved_at = none → unresolved episodes = some episode

/-- Sound episodes are earlier than the next revision. An episode is opened and resolved at
revisions that have been. -/
theorem Sound.earlier {organization_id : UUID} {restaurant_id id revision : ℕ} {low : Bool}
    {episodes : List InventoryLowStockEpisode}
    (h : Sound organization_id restaurant_id id revision low episodes) :
    Earlier episodes (revision + 1) := by
  refine ⟨h.ids, fun episode hmem => ?_, h.single⟩
  obtain ⟨hopening, hresolution⟩ := h.bounded episode hmem
  refine ⟨by omega, fun heq => ?_⟩
  have := hresolution (revision + 1) heq
  omega

section Crossing

variable {record record' : IngredientRecord} {before : Option InventoryStateSnapshot}
  {after : InventoryStateSnapshot} {episode_id : UUID} {boundary : Boundary}

/-- No earlier episode has been resolved now. -/
theorem Earlier.resolved_now_none (h : Earlier record.episodes record'.revision)
    (hepisodes : ∀ episode ∈ record'.episodes, episode ∈ record.episodes ∨
      episode.resolution_revision = none) : record'.resolved_now = none := by
  refine List.find?_eq_none.mpr fun episode hmem => ?_
  rcases hepisodes episode hmem with hold | hnone
  · simpa using (h.bounded episode hold).2
  · simp [hnone]

/-- Where the episodes stay, no boundary has been crossed now. -/
theorem Earlier.shown_kept (h : Earlier record.episodes record'.revision)
    (hepisodes : record'.episodes = record.episodes) :
    Boundary.Shown ⟨record.episodes, unresolved record.episodes, none⟩ record record' := by
  have hnow : record'.resolved_now = none :=
    h.resolved_now_none fun episode hmem => Or.inl (hepisodes ▸ hmem)
  have hno : ¬ ∃ episode ∈ record'.episodes, episode.opening_revision = record'.revision := by
    rintro ⟨episode, hmem, hopening⟩
    exact (h.bounded episode (hepisodes ▸ hmem)).1.ne hopening
  refine ⟨?_, iff_of_false (by simp) hno, ?_, ?_, by simp, fun _ => by rw [hepisodes]⟩
  · rw [hepisodes, hnow]
    simp
  · simp [hnow]
  · simp [hnow]

/-- A boundary that opens an episode. The episode is the last one, unresolved, and its opening is
announced. -/
theorem Earlier.shown_opened (h : Earlier record.episodes record'.revision)
    (hnone : unresolved record.episodes = none) {new : InventoryLowStockEpisode}
    (hepisodes : record'.episodes = record.episodes ++ [new])
    (hopening : new.opening_revision = record'.revision) (hopen : new.resolved_at = none)
    (hrevision : new.resolution_revision = none) (hsuppressed : new.notification_suppressed = false)
    {fact : InventoryEpisodeTransition}
    (hfact : fact.kind = .opened ∧ fact.episode_id = new.episode_id ∧ fact.resolution_reason = none) :
    Boundary.Shown ⟨record.episodes ++ [new], some new, some fact⟩ record record' := by
  obtain ⟨hkind, hid, hreason⟩ := hfact
  have hnow : record'.resolved_now = none := by
    refine h.resolved_now_none fun episode hmem => ?_
    rw [hepisodes] at hmem
    rcases List.mem_append.mp hmem with hmem | hmem
    · exact Or.inl hmem
    · rw [List.mem_singleton.mp hmem]
      exact Or.inr hrevision
  have hopenings : openings record'.episodes =
      openings record.episodes ++ [(opening_payload new, (record'.revision : ℤ))] := by
    rw [hepisodes, openings_append, ← hopening]
    unfold openings
    rw [List.filter_singleton, hsuppressed]
    rfl
  refine ⟨?_, ?_, ?_, ?_, ?_, fun hne => ?_⟩
  · rw [hepisodes, unresolved_append hnone hopen]
    rfl
  · refine iff_of_true (by rw [Option.map_some, hkind]) ⟨new, ?_, hopening⟩
    rw [hepisodes]
    simp
  · rw [hnow, Option.map_some, hkind]
    simp
  · rw [hnow, Option.bind_some, hreason]
    rfl
  · rintro - episode hepisode
    rw [← Option.mem_some_iff.mp hepisode]
    exact hopenings
  · rw [Option.map_some, hkind] at hne
    exact absurd rfl hne

/-- A boundary that resolves the current episode. The resolved episode is the one that has ended at
this revision. -/
theorem Earlier.shown_resolved (h : Earlier record.episodes record'.revision)
    {current closed : InventoryLowStockEpisode} (hopen : unresolved record.episodes = some current)
    (hepisodes : record'.episodes =
      Keyed.put InventoryLowStockEpisode.episode_id closed record.episodes)
    (hkey : closed.episode_id = current.episode_id)
    (hsuppressed : closed.notification_suppressed = current.notification_suppressed)
    (hpayload : opening_payload closed = opening_payload current)
    (hopening : closed.opening_revision = current.opening_revision)
    (hrevision : closed.resolution_revision = some record'.revision)
    (hresolved : closed.resolved_at.isSome = true) {fact : InventoryEpisodeTransition}
    (hfact : fact.kind = .resolved ∧ fact.episode_id = current.episode_id ∧
      fact.resolution_reason = closed.resolution_reason) :
    Boundary.Shown ⟨Keyed.put InventoryLowStockEpisode.episode_id closed record.episodes, some closed,
      some fact⟩ record record' := by
  obtain ⟨hkind, hid, hreason⟩ := hfact
  obtain ⟨hmem, -⟩ := unresolved_mem hopen
  have hput : ∀ episode ∈ record'.episodes,
      (episode ∈ record.episodes ∧ episode.episode_id ≠ closed.episode_id) ∨ episode = closed := by
    intro episode hepisode
    rw [hepisodes] at hepisode
    exact Keyed.mem_put hepisode
  have hclosed : closed ∈ record'.episodes := by
    rw [hepisodes]
    exact Keyed.lookup_mem (Keyed.lookup_put_self (h.ids.lookup_eq_some.mpr ⟨hmem, hkey.symm⟩))
  have hnow : record'.resolved_now = some closed := by
    refine find?_eq_some_of_unique hclosed (decide_eq_true hrevision) fun episode hepisode hp => ?_
    rcases hput episode hepisode with ⟨hold, -⟩ | heq
    · exact absurd (by simpa using hp) (h.bounded episode hold).2
    · exact heq
  have hnone : unresolved record'.episodes = none := by
    refine unresolved_eq_none.mpr fun episode hepisode hopen' => ?_
    rcases hput episode hepisode with ⟨hold, hne⟩ | heq
    · have hcurrent := (h.single episode hold hopen').symm.trans hopen
      exact hne (by rw [Option.some.inj hcurrent, hkey])
    · rw [← heq, hopen'] at hresolved
      cases hresolved
  have hopenings : openings record'.episodes = openings record.episodes := by
    rw [hepisodes]
    exact openings_put h.ids hmem hkey hsuppressed hpayload hopening
  refine ⟨?_, ?_, ?_, ?_, ?_, fun _ => hopenings⟩
  · rw [hnone, hnow]
    rfl
  · rw [Option.map_some, hkind]
    refine iff_of_false (by simp) ?_
    rintro ⟨episode, hepisode, heq⟩
    rcases hput episode hepisode with ⟨hold, -⟩ | rfl
    · exact (h.bounded episode hold).1.ne heq
    · exact (h.bounded current hmem).1.ne (hopening.symm.trans heq)
  · rw [hnow, Option.map_some, hkind]
    simp
  · rw [hnow, Option.bind_some, hreason]
    rfl
  · intro hopened
    rw [Option.map_some, hkind] at hopened
    cases hopened

/-- The episodes after a change show what boundary it has crossed. The facts of the event are
computed from the boundary, and these are the facts that the rows show. -/
theorem Crossing.shown (h : Crossing record.episodes before after episode_id boundary)
    (hepisodes : record'.episodes = boundary.episodes)
    (hrevision : after.state_revision = record'.revision)
    (hearlier : Earlier record.episodes record'.revision) : boundary.Shown record record' := by
  cases h with
  | opened hedge hnone timestamp source actor_user_id order_id fact hfact =>
    exact hearlier.shown_opened hnone hepisodes hrevision rfl rfl rfl hfact
  | resolved hedge current hopen timestamp reason source actor_user_id order_id fact hfact =>
    exact hearlier.shown_resolved hopen hepisodes rfl rfl rfl rfl (congrArg some hrevision) rfl hfact
  -- A falling edge of an untracked ingredient and no edge at all leave the episodes.
  | untracked hedge hnone =>
    have hshown := hearlier.shown_kept hepisodes
    rwa [hnone] at hshown
  | level hedge => exact hearlier.shown_kept hepisodes

end Crossing

section Change

variable {organization_id : UUID} {restaurant_id : ℕ} {episode_id : UUID}
  {events : List (EventEnvelope Payload)}

/-- The events of a recorded change of the state. It has one event for the state, and one more if an
episode has opened. -/
theorem Announced.announces {record record' : IngredientRecord} {balance : InventoryBalance}
    {boundary : Boundary}
    (h : Announced (inventory_state_snapshot organization_id restaurant_id record'.item balance)
      boundary (events.map (·.payload)))
    (hrevisions : ∀ event ∈ events, event.aggregate_revision = record'.item.state_revision)
    (hbalance : record'.balance = some balance) (hshown : boundary.Shown record record') :
    ∃ payload, ∃ opened : Option Payload, Announces record' payload ∧
      openings record'.episodes = openings record.episodes ++
        opened.toList.map (fun opened => (opened, (record'.revision : ℤ))) ∧
      published events = (.inventory_state_changed payload, (record'.revision : ℤ)) ::
        opened.toList.map fun opened => (opened, (record'.revision : ℤ)) := by
  -- All events carry the new revision.
  have hpublished : published events =
      (events.map (·.payload)).map fun payload => (payload, (record'.revision : ℤ)) := by
    unfold published
    rw [List.map_map]
    exact List.map_congr_left fun event hevent => by rw [hrevisions event hevent]; rfl
  -- Whatever the transition is, its payload carries the facts that the row shows.
  have hannounces : ∀ transition : InventoryTransition,
      transition.state = inventory_state_snapshot organization_id restaurant_id record'.item balance →
      transition.episode_transition = boundary.fact →
      transition.episode_id = (boundary.episode.map (·.episode_id)).or
        (boundary.fact.map (·.episode_id)) →
      ∃ payload, state_changed_payload transition = .inventory_state_changed payload ∧
        Announces record' payload := by
    intro transition hstate hfact hid
    refine ⟨_, rfl, ?_, ?_, ?_, ?_, ?_, ?_, ?_, ?_, ?_⟩
    · rw [hstate]
      rfl
    · rw [hstate]
      rfl
    · rw [hstate]
      rfl
    · rw [hstate]
      unfold IngredientRecord.state
      rw [hbalance]
      rfl
    · rw [hstate, is_low_eq hbalance organization_id restaurant_id]
    · rw [hid, hshown.episode_id]
    · rw [hfact, hshown.opened]
    · rw [hfact, hshown.resolved]
    · rw [hfact, hshown.reason]
  rw [hpublished]
  generalize events.map (·.payload) = payloads at h
  -- With a second event or without one, as the boundary has opened an episode or not.
  cases h with
  | state transition hstate hfact hid hedge =>
    obtain ⟨payload, hpayload, hannounces⟩ := hannounces transition hstate hfact hid
    refine ⟨payload, none, hannounces, ?_, by rw [hpayload]; rfl⟩
    rw [hshown.none_opened hedge]
    exact (List.append_nil _).symm
  | low transition hstate hfact hid hedge facts hfacts =>
    obtain ⟨payload, hpayload, hannounces⟩ := hannounces transition hstate hfact hid
    refine ⟨payload, some (opening_payload facts.episode), hannounces,
      hshown.opening hedge facts.episode hfacts, ?_⟩
    rw [hpayload]
    rfl

/-- A state has not changed exactly if quantity, threshold and activity are the same. -/
theorem state_unchanged_iff {before after : InventoryStateSnapshot} :
    inventory_state_changed (some before) after = false ↔ after.quantity = before.quantity ∧
      after.reorder_threshold = before.reorder_threshold ∧ after.is_active = before.is_active := by
  simp only [inventory_state_changed, Bool.or_eq_false_iff, decide_eq_false_iff_not, not_not,
    and_assoc]
  exact and_congr eq_comm (and_congr eq_comm eq_comm)

/-- A state has changed exactly if quantity, threshold or activity has. -/
theorem state_changed_iff {record record' : IngredientRecord} {item : Ingredient}
    {balance balance' : InventoryBalance} (hbalance : record.balance = some balance)
    (hbalance' : record'.balance = some balance')
    (hitem : record'.item.reorder_threshold = item.reorder_threshold ∧
      record'.item.is_active = item.is_active) :
    inventory_state_changed
        (some (inventory_state_snapshot organization_id restaurant_id record.item balance))
        (inventory_state_snapshot organization_id restaurant_id item balance') = true ↔
      record'.state ≠ record.state := by
  rw [ne_eq, ← not_iff_not, Bool.not_eq_true, not_not, state_unchanged_iff]
  unfold IngredientRecord.state
  rw [hbalance, hbalance', hitem.1, hitem.2, Prod.mk.injEq, Prod.mk.injEq]
  exact and_congr_left' (Option.some_inj (a := balance'.quantity)).symm

/-- What a change does to an ingredient, and the events it appends. A baseline is silent, since its
episode was low before it was tracked. -/
theorem Change.state_step {old : Option IngredientRecord} {purpose : Purpose}
    {record' : IngredientRecord}
    (h : Change organization_id restaurant_id episode_id old purpose record' events)
    (hsound : ∀ record ∈ old, record.Sound organization_id restaurant_id) :
    StateStep old (some record') events := by
  cases h with
  | created item movement hrevision hafter hversion hrange h =>
    cases h with
    | unchanged hsame => simp [inventory_state_changed] at hsame
    | changed hchanged _ hnext hitem hbalance hmovements boundary hcrossing hboundary events hannounced
        hrevisions =>
      have hone : record'.revision = 1 := by
        have hmax := pure_eq_ok.mp hnext
        rw [← show max 1 item.state_revision = 1 by rw [hrevision]; rfl, hmax]
        rfl
      have hshown := hcrossing.shown hboundary rfl ⟨by simp [Keyed.Unique], by simp, by simp⟩
      obtain ⟨payload, opened, hannounces, hopened, hpublished⟩ :=
        hannounced.announces hrevisions hbalance hshown
      rw [hone] at hopened hpublished
      exact .created record' hone payload hannounces opened hopened events hpublished
  -- A rewritten ingredient: the revision stays if the state does, and advances by one otherwise.
  | rewritten record balance hbalance record₁ balance₁ hid hrevision hepisodes hposting h =>
    have hid' : record'.id = record.id := h.id.trans hid
    cases h with
    | unchanged hsame =>
      refine .kept record _ hid' ?_ hrevision (by simp only [hepisodes])
      by_contra hne
      have hchanged := (@state_changed_iff organization_id restaurant_id record
        { record₁ with balance := some balance₁ } record₁.item balance balance₁ hbalance rfl
          ⟨rfl, rfl⟩).mpr hne
      rw [hsame] at hchanged
      cases hchanged
    | changed hchanged _ hnext hitem hbalance' hmovements boundary hcrossing hboundary events
        hannounced hrevisions =>
      obtain ⟨_, -, hnext⟩ := bind_eq_ok.mp hnext
      have hnext : record'.revision = record.revision + 1 := (pure_eq_ok.mp hnext).symm
      have hearlier : Earlier record₁.episodes record'.revision := by
        rw [hnext, hepisodes]
        exact (hsound record rfl).earlier
      obtain ⟨payload, opened, hannounces, hopened, hpublished⟩ :=
        hannounced.announces hrevisions hbalance' (hcrossing.shown hboundary rfl hearlier)
      rw [hepisodes] at hopened
      refine .changed record record' hid' ?_ hnext payload hannounces opened hopened events hpublished
      refine (state_changed_iff hbalance hbalance' ?_).mp hchanged
      rw [hitem]
      exact ⟨rfl, rfl⟩
  -- The episode of a baseline is marked as one that is not announced.
  | baseline record balance hbalance hlow hnone opened_at =>
    refine .kept record _ rfl rfl rfl ?_
    rw [openings_append]
    simp [openings, opening_facts]

end Change

/-! ## The published revisions -/

/-- The published states. The other events are left out. -/
def state_events (events : List (EventEnvelope Payload)) : List (Payload × ℤ) :=
  (published events).filter fun event => event.1.event_type = .inventory_state_changed

/-- The published openings. The other events are left out. -/
def low_events (events : List (EventEnvelope Payload)) : List (Payload × ℤ) :=
  (published events).filter fun event => event.1.event_type = .inventory_low

/-- Payloads are listed event by event. -/
@[simp] theorem published_append (events events' : List (EventEnvelope Payload)) :
    published (events ++ events') = published events ++ published events' := List.map_append

/-- State events are selected event by event. -/
@[simp] theorem state_events_append (events events' : List (EventEnvelope Payload)) :
    state_events (events ++ events') = state_events events ++ state_events events' := by
  unfold state_events
  rw [published_append, List.filter_append]

/-- Low-stock events are selected event by event. -/
@[simp] theorem low_events_append (events events' : List (EventEnvelope Payload)) :
    low_events (events ++ events') = low_events events ++ low_events events' := by
  unfold low_events
  rw [published_append, List.filter_append]

/-- An opening is published as `inventory.low.v1`. -/
theorem event_type_of_mem_openings {episodes : List InventoryLowStockEpisode}
    {event : Payload × ℤ} (h : event ∈ openings episodes) :
    event.1.event_type = .inventory_low := by
  obtain ⟨episode, -, rfl⟩ := List.mem_map.mp h
  rfl

/-- The published states and openings of a changed state. The state comes first, and the opening has
an event type of its own. -/
theorem events_of_published {events : List (EventEnvelope Payload)}
    {payload : InventoryStateChangedPayload} {revision : ℤ} {opened : List (Payload × ℤ)}
    (h : published events = (.inventory_state_changed payload, revision) :: opened)
    (hopened : ∀ event ∈ opened, event.1.event_type = .inventory_low) :
    state_events events = [(.inventory_state_changed payload, revision)] ∧
      low_events events = opened := by
  constructor
  · unfold state_events
    rw [h, List.filter_cons_of_pos (by rfl)]
    refine congrArg _ (List.filter_eq_nil_iff.mpr fun event hevent => ?_)
    rw [hopened event hevent]
    decide
  · unfold low_events
    rw [h, List.filter_cons_of_neg (by simp [Payload.event_type])]
    exact List.filter_eq_self.mpr fun event hevent => decide_eq_true (hopened event hevent)

/-- A step that leaves an ingredient either keeps its revision and publishes nothing, or gives it the
next revision and publishes it. -/
theorem StateStep.revision {old : Option IngredientRecord} {record : IngredientRecord}
    {events : List (EventEnvelope Payload)} (h : StateStep old (some record) events) :
    (∃ before, old = some before ∧ events = [] ∧ record.revision = before.revision ∧
      openings record.episodes = openings before.episodes) ∨
    record.revision = (old.map (·.revision)).getD 0 + 1 ∧
      ∃ payload, ∃ opened : Option Payload, Announces record payload ∧
        openings record.episodes = (old.map fun before => openings before.episodes).getD [] ++
          opened.toList.map (fun opened => (opened, (record.revision : ℤ))) ∧
        state_events events = [(.inventory_state_changed payload, (record.revision : ℤ))] ∧
        low_events events = opened.toList.map fun opened => (opened, (record.revision : ℤ)) := by
  cases h with
  | created _ hrevision payload hannounces opened hopened _ hevents =>
    obtain ⟨hstates, hlows⟩ := events_of_published hevents fun event hevent =>
      event_type_of_mem_openings (hopened ▸ hevent)
    rw [hrevision]
    exact Or.inr ⟨rfl, payload, opened, hannounces, hopened, hstates, hlows⟩
  | kept before _ hid hstate hrevision hopenings =>
    exact Or.inl ⟨before, rfl, rfl, hrevision, hopenings⟩
  | changed before _ hid hstate hrevision payload hannounces opened hopened _ hevents =>
    obtain ⟨hstates, hlows⟩ := events_of_published hevents fun event hevent =>
      event_type_of_mem_openings (hopened ▸ List.mem_append_right _ hevent)
    exact Or.inr ⟨hrevision, payload, opened, hannounces, hopened, hstates, hlows⟩

/-- The events of an ingredient are its revisions since the start, at which it had the revision
`base`, and its openings. -/
structure Published (base id : ℕ) (db : Branch) : Prop where
  /-- Before there is an ingredient there is no event about it. -/
  silent : Keyed.lookup IngredientRecord.id id db.ingredients = none →
    db.ingredient_events id = [] ∧ base = 0
  /-- One published state for each revision. -/
  states : ∀ record, Keyed.lookup IngredientRecord.id id db.ingredients = some record →
    base ≤ record.revision ∧ (state_events (db.ingredient_events id)).map Prod.snd =
      (List.range' (base + 1) (record.revision - base)).map fun n : ℕ => (n : ℤ)
  /-- One published opening for each episode about which somebody is notified. -/
  lows : ∀ record, Keyed.lookup IngredientRecord.id id db.ingredients = some record →
    low_events (db.ingredient_events id) = openings record.episodes
  /-- No two under one revision. -/
  increasing : (low_events (db.ingredient_events id)).Pairwise fun event later => event.2 < later.2
  /-- None under a revision to come. -/
  bounded : ∀ record, Keyed.lookup IngredientRecord.id id db.ingredients = some record →
    ∀ event ∈ low_events (db.ingredient_events id), event.2 ≤ record.revision

/-- The revisions after one more. As integers, which is what an envelope carries. -/
theorem range'_succ_map {base revision : ℕ} (h : base ≤ revision) :
    ((List.range' (base + 1) (revision + 1 - base)).map fun n : ℕ => (n : ℤ)) =
      ((List.range' (base + 1) (revision - base)).map fun n : ℕ => (n : ℤ)) ++
        [((revision + 1 : ℕ) : ℤ)] := by
  rw [Nat.sub_add_comm h, List.range'_concat, List.map_append]
  congr 2
  have hlast : base + 1 + 1 * (revision - base) = revision + 1 := by omega
  rw [hlast]
  rfl

/-- A new revision is published after the earlier ones. The parts are the list of the published
revisions, which grows by the new one, and that of the openings. -/
theorem Published.next {base id revision : ℕ} {db db' : Branch} {record : IngredientRecord}
    {events : List (EventEnvelope Payload)} {payload : InventoryStateChangedPayload}
    {before : List (Payload × ℤ)} {opened : Option Payload}
    (hevents : db'.ingredient_events id = db.ingredient_events id ++ events)
    (hrecord : Keyed.lookup IngredientRecord.id id db'.ingredients = some record)
    (hrevision : record.revision = revision + 1) (hbase : base ≤ revision)
    (hstates : (state_events (db.ingredient_events id)).map Prod.snd =
      (List.range' (base + 1) (revision - base)).map fun n : ℕ => (n : ℤ))
    (hlows : low_events (db.ingredient_events id) = before)
    (hincreasing : before.Pairwise fun event later => event.2 < later.2)
    (hbounded : ∀ event ∈ before, event.2 ≤ revision)
    (hopenings : openings record.episodes =
      before ++ opened.toList.map fun opened => (opened, (record.revision : ℤ)))
    (hstate : state_events events = [(.inventory_state_changed payload, (record.revision : ℤ))])
    (hlow : low_events events = opened.toList.map fun opened => (opened, (record.revision : ℤ))) :
    Published base id db' := by
  have hlows' : low_events (db'.ingredient_events id) = openings record.episodes := by
    rw [hevents, low_events_append, hlows, hlow, hopenings]
  have hnew : ∀ event ∈ opened.toList.map (fun opened => (opened, (record.revision : ℤ))),
      event.2 = record.revision := by
    intro event hevent
    obtain ⟨_, -, rfl⟩ := List.mem_map.mp hevent
    rfl
  refine ⟨fun hnone => ?_, fun other hother => ?_, fun other hother => ?_, ?_,
    fun other hother event hevent => ?_⟩
  · rw [hrecord] at hnone
    cases hnone
  · -- The revisions up to the new one, without a gap.
    obtain rfl : record = other := Option.some.inj (hrecord.symm.trans hother)
    rw [hevents, state_events_append, List.map_append, hstates, hstate, hrevision,
      range'_succ_map hbase]
    exact ⟨by omega, rfl⟩
  · obtain rfl : record = other := Option.some.inj (hrecord.symm.trans hother)
    exact hlows'
  · -- The openings are at increasing revisions, for the earlier ones are below the new revision.
    rw [hlows', hopenings]
    refine List.pairwise_append.mpr ⟨hincreasing, ?_, fun event hevent later hlater => ?_⟩
    · cases opened with
      | none => exact .nil
      | some payload => exact List.pairwise_singleton _ _
    · have hearlier := hbounded event hevent
      rw [hnew later hlater]
      omega
  · obtain rfl : record = other := Option.some.inj (hrecord.symm.trans hother)
    rw [hlows', hopenings] at hevent
    rcases List.mem_append.mp hevent with hevent | hevent
    · have hearlier := hbounded event hevent
      omega
    · exact (hnew event hevent).le

/-- A step keeps the correspondence. A step that changes no state publishes none, and any other
publishes the next revision. -/
theorem Published.step {base id : ℕ} {db db' : Branch} {events : List (EventEnvelope Payload)}
    (h : Published base id db)
    (hevents : db'.ingredient_events id = db.ingredient_events id ++ events)
    (hstep : StateStep (Keyed.lookup IngredientRecord.id id db.ingredients)
      (Keyed.lookup IngredientRecord.id id db'.ingredients) events) : Published base id db' := by
  generalize hold : Keyed.lookup IngredientRecord.id id db.ingredients = old at hstep
  generalize hnew : Keyed.lookup IngredientRecord.id id db'.ingredients = new at hstep
  cases new with
  | none =>
    cases hstep
    rw [List.append_nil] at hevents
    refine ⟨fun _ => hevents ▸ h.silent hold, fun record hrecord => ?_, fun record hrecord => ?_,
      hevents ▸ h.increasing, fun record hrecord => ?_⟩
    all_goals
      rw [hnew] at hrecord
      cases hrecord
  | some record =>
    rcases hstep.revision with ⟨before, rfl, rfl, hrevision, hopenings⟩ |
      ⟨hrevision, payload, opened, -, hopenings, hstate, hlow⟩
    · rw [List.append_nil] at hevents
      refine ⟨fun hnone => ?_, fun other hother => ?_, fun other hother => ?_, hevents ▸ h.increasing,
        fun other hother => ?_⟩
      · rw [hnew] at hnone
        cases hnone
      all_goals obtain rfl : record = other := Option.some.inj (hnew.symm.trans hother)
      · rw [hevents, hrevision]
        exact h.states before hold
      · rw [hevents, hopenings]
        exact h.lows before hold
      · rw [hevents, hrevision]
        exact h.bounded before hold
    · cases old with
      | none =>
        obtain ⟨hsilent, rfl⟩ := h.silent hold
        refine Published.next hevents hnew hrevision le_rfl ?_ rfl h.increasing ?_ ?_ hstate hlow
        · rw [hsilent]
          rfl
        · rw [hsilent]
          exact fun event hevent => absurd hevent List.not_mem_nil
        · rw [hsilent]
          exact hopenings
      | some before =>
        obtain ⟨hbase, hstates⟩ := h.states before hold
        exact Published.next hevents hnew hrevision hbase hstates (h.lows before hold)
          (h.lows before hold ▸ h.increasing) (h.lows before hold ▸ h.bounded before hold) hopenings
          hstate hlow

end Inventory

/-! ## Runs -/

section Runs

variable (lib : Library) (start : ℕ → LegacyBranch) (acts : List Act) (k id : ℕ)

/-- A step of a run does to an ingredient what `StateStep` says. -/
theorem run_state_step (a : Act) :
    ∃ events, ((run lib start (acts ++ [a])).rows k).ingredient_events id =
        ((run lib start acts).rows k).ingredient_events id ++ events ∧
      StateStep (Keyed.lookup IngredientRecord.id id ((run lib start acts).rows k).ingredients)
        (Keyed.lookup IngredientRecord.id id ((run lib start (acts ++ [a])).rows k).ingredients)
        events := by
  have hkept : ∀ old : Option IngredientRecord, StateStep old old [] := by
    intro old
    cases old with
    | none => exact .absent
    | some record => exact .kept record record rfl rfl rfl rfl
  rcases run_step lib start acts a k with hsame | ⟨command, heffect⟩
  · rw [hsame]
    exact ⟨[], (List.append_nil _).symm, hkept _⟩
  · cases heffect.ingredient_step (run_sane lib start acts k).keys id with
    | kept hlookup hevents =>
      rw [hlookup, hevents]
      exact ⟨[], (List.append_nil _).symm, hkept _⟩
    | changed purpose record' events episode_id hfresh hlookup hchange hevents =>
      refine ⟨events, hevents, ?_⟩
      rw [hlookup]
      exact hchange.state_step fun record hrecord =>
        (run_episodic lib start acts k).sound record (Keyed.lookup_mem hrecord)

/-- The revision of an ingredient before its first event. -/
def base_revision : ℕ :=
  ((Keyed.lookup IngredientRecord.id id (start k).ingredients).map (·.revision)).getD 0

/-- Every run publishes every revision of an ingredient once. From the revision that the ingredient
had at the start, if it was there. -/
theorem run_published : Published (base_revision start k id) id ((run lib start acts).rows k) := by
  induction acts using List.reverseRecOn with
  | nil =>
    have hnone : (start k).toBranch.ingredient_events id = [] := by
      unfold Branch.ingredient_events
      rw [(start k).legacy.events, about_nil]
    show Published (base_revision start k id) id (start k).toBranch
    refine ⟨fun hlookup => ⟨hnone, ?_⟩, fun record hlookup => ?_, fun record hlookup => ?_, ?_,
      fun record hlookup event hevent => ?_⟩
    · unfold base_revision
      rw [hlookup]
      rfl
    · have hbase : base_revision start k id = record.revision := by
        unfold base_revision
        rw [hlookup]
        rfl
      rw [hnone, hbase, Nat.sub_self]
      exact ⟨le_rfl, rfl⟩
    · rw [hnone, (start k).legacy.episodes record (Keyed.lookup_mem hlookup)]
      rfl
    · rw [hnone]
      exact .nil
    · rw [hnone] at hevent
      exact absurd hevent List.not_mem_nil
  | append_singleton acts a ih =>
    obtain ⟨events, hevents, hstep⟩ := run_state_step lib start acts k id a
    exact ih.step hevents hstep

/-- A published state was the state of the ingredient at its revision. -/
theorem run_facts {event : Payload × ℤ}
    (h : event ∈ state_events (((run lib start acts).rows k).ingredient_events id)) :
    ∃ pre, pre <+: acts ∧ ∃ record payload,
      Keyed.lookup IngredientRecord.id id ((run lib start pre).rows k).ingredients = some record ∧
        event = (.inventory_state_changed payload, (record.revision : ℤ)) ∧
          Announces record payload := by
  induction acts using List.reverseRecOn with
  | nil =>
    have hnone : ((run lib start []).rows k).ingredient_events id = [] := by
      show (start k).toBranch.ingredient_events id = []
      unfold Branch.ingredient_events
      rw [(start k).legacy.events, about_nil]
    rw [hnone] at h
    exact absurd h List.not_mem_nil
  | append_singleton acts a ih =>
    obtain ⟨events, hevents, hstep⟩ := run_state_step lib start acts k id a
    rw [hevents, state_events_append] at h
    rcases List.mem_append.mp h with h | h
    · obtain ⟨pre, hpre, hfact⟩ := ih h
      exact ⟨pre, hpre.trans (List.prefix_append acts [a]), hfact⟩
    · cases hnew : Keyed.lookup IngredientRecord.id id
          ((run lib start (acts ++ [a])).rows k).ingredients with
      | none =>
        rw [hnew] at hstep
        generalize Keyed.lookup IngredientRecord.id id ((run lib start acts).rows k).ingredients
          = old at hstep
        cases hstep
        exact absurd h List.not_mem_nil
      | some record =>
        rw [hnew] at hstep
        rcases hstep.revision with ⟨-, -, rfl, -⟩ | ⟨-, payload, _, hannounces, -, hstate, -⟩
        · exact absurd h List.not_mem_nil
        · rw [hstate] at h
          exact ⟨acts ++ [a], List.prefix_rfl, record, payload, hnew, List.mem_singleton.mp h,
            hannounces⟩

/-- The events of an ingredient follow its revisions. In every step of a run the ingredient and its
events go through `StateStep`: a changed state gets the next revision, and nothing else does; the
published states carry exactly the revisions since the start, in order and each once, with the state
the ingredient had; and the published openings are those of the episodes about which somebody is
notified, each once. -/
theorem state_events_follow_revisions :
    (∀ pre a, pre ++ [a] <+: acts → ∃ events,
      ((run lib start (pre ++ [a])).rows k).ingredient_events id =
        ((run lib start pre).rows k).ingredient_events id ++ events ∧
      StateStep (Keyed.lookup IngredientRecord.id id ((run lib start pre).rows k).ingredients)
        (Keyed.lookup IngredientRecord.id id ((run lib start (pre ++ [a])).rows k).ingredients)
        events) ∧
    Published (base_revision start k id) id ((run lib start acts).rows k) ∧
    (∀ event ∈ state_events (((run lib start acts).rows k).ingredient_events id),
      ∃ pre, pre <+: acts ∧ ∃ record payload,
        Keyed.lookup IngredientRecord.id id ((run lib start pre).rows k).ingredients = some record ∧
          event = (.inventory_state_changed payload, (record.revision : ℤ)) ∧
            Announces record payload) :=
  ⟨fun pre a _ => run_state_step lib start pre k id a, run_published lib start acts k id,
    fun _ hevent => run_facts lib start acts k id hevent⟩

end Runs

end RestaurantOS
