import RestaurantOS.Lib.EdgeIntervals
import RestaurantOS.Runs

/-!
# Low-stock episodes

The episodes of an ingredient, as half-open intervals of revisions, follow the edges of the low
predicate: what a write does to them is `Evolves`, or `Marked` for a
baseline. The facts that the fault
checks of the service rely on hold of every ingredient (`Sound`): its episodes pass their check, at
most one is unresolved, and none is while the ingredient is not low. -/

namespace RestaurantOS

open EdgeIntervals Fallible Events

namespace Inventory

/-- The revisions of an episode. It is open on the right while the episode is. -/
def InventoryLowStockEpisode.interval (episode : InventoryLowStockEpisode) : Interval :=
  ⟨episode.opening_revision, episode.resolution_revision⟩

/-- The revisions of the episodes of an ingredient. -/
def IngredientRecord.intervals (record : IngredientRecord) : List Interval :=
  record.episodes.map (·.interval)

/-- The revision of an ingredient. It counts the changes of its state. -/
def IngredientRecord.revision (record : IngredientRecord) : ℕ := record.item.state_revision

/-! ## The check of an episode -/

/-- An episode passes its check exactly if its facts are in order. -/
theorem episode_check_ok {episode : InventoryLowStockEpisode} {u : Unit} :
    episode_check episode = .ok u ↔
      (0 < episode.restaurant_id ∧ 0 < episode.ingredient_id) ∧ 1 ≤ episode.opening_revision ∧
        ¬ ([episode.resolved_at.isSome, episode.resolution_reason.isSome,
            episode.closing_quantity.isSome, episode.closing_reorder_threshold.isSome,
            episode.closing_is_active.isSome, episode.resolution_revision.isSome,
            episode.resolution_source.isSome].any id = true ∧
          ¬ [episode.resolved_at.isSome, episode.resolution_reason.isSome,
            episode.closing_quantity.isSome, episode.closing_reorder_threshold.isSome,
            episode.closing_is_active.isSome, episode.resolution_revision.isSome,
            episode.resolution_source.isSome].all id = true) ∧
        (∀ revision ∈ episode.resolution_revision, episode.opening_revision < revision) ∧
        (episode.notification_suppressed → episode.opening_source = .maintenance_initialization) := by
  simp only [episode_check, bind_eq_ok, ensure_eq_ok, exists_const]

/-- A checked episode is resolved exactly if it has a resolution revision. -/
theorem resolved_iff_of_check {episode : InventoryLowStockEpisode} {u : Unit}
    (h : episode_check episode = .ok u) :
    episode.resolved_at = none ↔ episode.resolution_revision = none := by
  obtain ⟨-, -, hcomplete, -, -⟩ := episode_check_ok.mp h
  cases hresolved : episode.resolved_at <;> cases hrevision : episode.resolution_revision <;>
    simp [hresolved, hrevision] at hcomplete ⊢

/-- An opening with positive keys and revision passes its check. -/
theorem opening_facts_check {state : InventoryStateSnapshot} {episode_id : UUID}
    {opened_at : Timestamp} {source : InventoryTransitionSource} {actor_user_id : Option UUID}
    {order_id : Option ℕ} {suppressed : Bool} (hrestaurant : 0 < state.restaurant_id)
    (hingredient : 0 < state.ingredient_id) (hrevision : 1 ≤ state.state_revision)
    (hsuppressed : suppressed = true → source = .maintenance_initialization) :
    episode_check (opening_facts state episode_id opened_at source actor_user_id order_id
      suppressed) = .ok () :=
  episode_check_ok.mpr ⟨⟨hrestaurant, hingredient⟩, hrevision, by simp [opening_facts],
    by simp [opening_facts], hsuppressed⟩

/-- The resolution of a checked episode at a later revision passes its check. -/
theorem closing_facts_check {episode : InventoryLowStockEpisode} {state : InventoryStateSnapshot}
    {resolved_at : Timestamp} {reason : EpisodeResolutionReason} {source : InventoryTransitionSource}
    {actor_user_id : Option UUID} {order_id : Option ℕ} (h : episode_check episode = .ok ())
    (hlater : episode.opening_revision < state.state_revision) :
    episode_check (closing_facts episode state resolved_at reason source actor_user_id order_id) =
      .ok () := by
  obtain ⟨hpositive, hopening, -, -, hsuppressed⟩ := episode_check_ok.mp h
  refine episode_check_ok.mpr ⟨hpositive, hopening, by simp [closing_facts], ?_, hsuppressed⟩
  intro revision hrevision
  rw [← Option.mem_some_iff.mp hrevision]
  exact hlater

/-! ## Unresolved episodes -/

/-- No episode is unresolved exactly if all are resolved. -/
theorem unresolved_eq_none {episodes : List InventoryLowStockEpisode} :
    unresolved episodes = none ↔ ∀ episode ∈ episodes, episode.resolved_at ≠ none := by
  unfold unresolved
  rw [List.find?_eq_none]
  simp

/-- The unresolved episode is one of the episodes, and unresolved. -/
theorem unresolved_mem {episodes : List InventoryLowStockEpisode}
    {episode : InventoryLowStockEpisode} (h : unresolved episodes = some episode) :
    episode ∈ episodes ∧ episode.resolved_at = none :=
  ⟨List.mem_of_find?_eq_some h, by simpa using List.find?_some h⟩

/-- An unresolved episode that is appended to resolved ones is the unresolved one. -/
theorem unresolved_append {episodes : List InventoryLowStockEpisode}
    {episode : InventoryLowStockEpisode} (hnone : unresolved episodes = none)
    (hopen : episode.resolved_at = none) : unresolved (episodes ++ [episode]) = some episode := by
  unfold unresolved at hnone ⊢
  rw [List.find?_append, hnone, Option.none_or, List.find?_singleton, if_pos (by rw [hopen]; rfl)]

/-! ## Sound episodes -/

/-- The facts about the episodes of an ingredient that the service relies on. -/
structure Sound (organization_id : UUID) (restaurant_id id revision : ℕ) (low : Bool)
    (episodes : List InventoryLowStockEpisode) : Prop where
  /-- The key of the ingredient is positive. -/
  positive : 0 < id
  /-- So is its revision. -/
  revision_positive : 1 ≤ revision
  /-- Every episode passes its check. -/
  checked : ∀ episode ∈ episodes, episode_check episode = .ok ()
  /-- Every episode is of this ingredient. -/
  identity : ∀ episode ∈ episodes, episode.organization_id = organization_id ∧
    episode.restaurant_id = restaurant_id ∧ episode.ingredient_id = id
  /-- No two episodes share a key. -/
  ids : Keyed.Unique InventoryLowStockEpisode.episode_id episodes
  /-- No boundary of an episode lies in the future. -/
  bounded : ∀ episode ∈ episodes, episode.opening_revision ≤ revision ∧
    ∀ resolution ∈ episode.resolution_revision, resolution ≤ revision
  /-- At most one episode is unresolved. -/
  single : ∀ episode ∈ episodes, episode.resolved_at = none → unresolved episodes = some episode
  /-- None is while the ingredient is not low. -/
  not_low : low = false → unresolved episodes = none

variable {organization_id : UUID} {restaurant_id id revision : ℕ} {low : Bool}
  {episodes : List InventoryLowStockEpisode}

/-- An ingredient without episodes. -/
theorem Sound.nil (hid : 0 < id) (hrevision : 1 ≤ revision) (low : Bool) :
    Sound organization_id restaurant_id id revision low [] :=
  ⟨hid, hrevision, by simp, by simp, by simp [Keyed.Unique], by simp, by simp, fun _ => rfl⟩

/-- The episodes stay sound at a later revision. -/
theorem Sound.later (h : Sound organization_id restaurant_id id revision low episodes)
    {revision' : ℕ} (hle : revision ≤ revision') {low' : Bool}
    (hlow : low' = false → unresolved episodes = none) :
    Sound organization_id restaurant_id id revision' low' episodes := by
  refine ⟨h.positive, h.revision_positive.trans hle, h.checked, h.identity, h.ids,
    fun episode hmem => ?_, h.single, hlow⟩
  obtain ⟨hopening, hresolution⟩ := h.bounded episode hmem
  exact ⟨hopening.trans hle, fun resolution hr => (hresolution resolution hr).trans hle⟩

/-- The episodes stay sound when another one is opened. It is opened at a later revision than any
other, and no other is open. -/
theorem Sound.open (h : Sound organization_id restaurant_id id revision low episodes)
    (hnone : unresolved episodes = none) {revision' : ℕ} (hle : revision ≤ revision')
    {episode : InventoryLowStockEpisode} (hchecked : episode_check episode = .ok ())
    (hidentity : episode.organization_id = organization_id ∧
      episode.restaurant_id = restaurant_id ∧ episode.ingredient_id = id)
    (hfresh : ∀ other ∈ episodes, other.episode_id ≠ episode.episode_id)
    (hinterval : episode.interval = ⟨revision', none⟩) :
    Sound organization_id restaurant_id id revision' true (episodes ++ [episode]) := by
  have hopening : episode.opening_revision = revision' := congrArg Interval.start hinterval
  have hstop : episode.resolution_revision = none := congrArg Interval.stop hinterval
  have hopen : episode.resolved_at = none := (resolved_iff_of_check hchecked).mpr hstop
  have hlater : Sound organization_id restaurant_id id revision' true episodes :=
    h.later hle (by simp)
  -- What holds of the old episodes and of the new one holds of all.
  have hall : ∀ {P : InventoryLowStockEpisode → Prop}, (∀ e ∈ episodes, P e) → P episode →
      ∀ e ∈ episodes ++ [episode], P e := by
    intro P hrest hlast e he
    rcases List.mem_append.mp he with he | he
    · exact hrest e he
    · rw [List.mem_singleton.mp he]
      exact hlast
  refine ⟨h.positive, hlater.revision_positive, hall h.checked hchecked, hall h.identity hidentity,
    h.ids.append hfresh, hall hlater.bounded ?_, hall ?_ ?_, by simp⟩
  · exact ⟨hopening.le, by simp [hstop]⟩
  · -- The single open episode is the new one, for none was open before.
    exact fun e he hresolved => absurd hresolved (unresolved_eq_none.mp hnone e he)
  · exact fun _ => unresolved_append hnone hopen

/-- The resolution of the open episode, as an episode. -/
theorem closing_facts_interval {episode : InventoryLowStockEpisode} {state : InventoryStateSnapshot}
    {resolved_at : Timestamp} {reason : EpisodeResolutionReason} {source : InventoryTransitionSource}
    {actor_user_id : Option UUID} {order_id : Option ℕ} (hopen : episode.resolution_revision = none) :
    (closing_facts episode state resolved_at reason source actor_user_id order_id).interval =
      episode.interval.close state.state_revision := by
  unfold InventoryLowStockEpisode.interval Interval.close
  rw [hopen]
  rfl

/-- The episodes stay sound when the open one is resolved, and its interval is closed. It is the
only one that was open, so nothing is open afterwards. -/
theorem Sound.resolve (h : Sound organization_id restaurant_id id revision low episodes)
    {episode : InventoryLowStockEpisode} (hopen : unresolved episodes = some episode)
    {closed : InventoryLowStockEpisode} {revision' : ℕ} (hlt : revision < revision')
    (hclosed : ∃ state resolved_at reason source actor_user_id order_id,
      closed = closing_facts episode state resolved_at reason source actor_user_id order_id ∧
        state.state_revision = revision') :
    Sound organization_id restaurant_id id revision' false
        (Keyed.put InventoryLowStockEpisode.episode_id closed episodes) ∧
      (Keyed.put InventoryLowStockEpisode.episode_id closed episodes).map (·.interval) =
        (episodes.map (·.interval)).map (Interval.close revision') := by
  obtain ⟨state, resolved_at, reason, source, actor_user_id, order_id, rfl, rfl⟩ := hclosed
  obtain ⟨hmem, hresolved⟩ := unresolved_mem hopen
  have hchecked := h.checked episode hmem
  have hstop := (resolved_iff_of_check hchecked).mp hresolved
  have hopening := (h.bounded episode hmem).1
  have hlater : Sound organization_id restaurant_id id state.state_revision true
      episodes := h.later hlt.le (by simp)
  set closed := closing_facts episode state resolved_at reason source actor_user_id order_id
  have hid : closed.episode_id = episode.episode_id := rfl
  -- An episode afterwards is a resolved one from before, or the closed one.
  have hput : ∀ e ∈ Keyed.put InventoryLowStockEpisode.episode_id closed episodes,
      (e ∈ episodes ∧ e.resolved_at ≠ none) ∨ e = closed := by
    intro e he
    rcases Keyed.mem_put he with ⟨he, hne⟩ | rfl
    · refine Or.inl ⟨he, fun hnone => hne ?_⟩
      -- An unresolved episode is the one that is resolved.
      have hsame := (h.single e he hnone).symm.trans hopen
      rw [Option.some.inj hsame, hid]
    · exact Or.inr rfl
  have hall : ∀ {P : InventoryLowStockEpisode → Prop}, (∀ e ∈ episodes, P e) → P closed →
      ∀ e ∈ Keyed.put InventoryLowStockEpisode.episode_id closed episodes, P e := by
    intro P hrest hlast e he
    rcases hput e he with ⟨he, -⟩ | rfl
    · exact hrest e he
    · exact hlast
  have hnone : unresolved (Keyed.put InventoryLowStockEpisode.episode_id closed episodes) = none := by
    refine unresolved_eq_none.mpr fun e he => ?_
    rcases hput e he with ⟨-, hne⟩ | rfl
    · exact hne
    · exact Option.some_ne_none _
  refine ⟨⟨h.positive, hlater.revision_positive, hall h.checked ?_, hall h.identity ?_, h.ids.put _,
    hall hlater.bounded ?_, fun e he hnone' => ?_, fun _ => hnone⟩, ?_⟩
  · exact closing_facts_check hchecked (by omega)
  · exact h.identity episode hmem
  · refine ⟨hopening.trans hlt.le, fun resolution hresolution => ?_⟩
    rw [← Option.mem_some_iff.mp hresolution]
  · exact absurd hnone' (unresolved_eq_none.mp hnone e he)
  · -- The intervals: only that of the closed episode gets an end.
    unfold Keyed.put Keyed.modify
    rw [List.map_map, List.map_map]
    refine List.map_congr_left fun e he => ?_
    simp only [Function.comp]
    split_ifs with hkey
    · have hsame : e = episode := h.ids.eq_of_key he hmem hkey
      rw [hsame]
      exact closing_facts_interval hstop
    · -- Every other episode is resolved already.
      have hne : e.resolved_at ≠ none := by
        intro hnone
        have hsame : e = episode := Option.some.inj ((h.single e he hnone).symm.trans hopen)
        exact hkey (by rw [hsame, hid])
      have hstop' := (resolved_iff_of_check (h.checked e he)).not.mp hne
      obtain ⟨stop, hstop'⟩ := Option.ne_none_iff_exists'.mp hstop'
      simp [InventoryLowStockEpisode.interval, Interval.close, hstop']

/-- The episodes of an ingredient are sound. They are intervals of its revisions that cover exactly
the low ones. -/
def IngredientRecord.Sound (organization_id : UUID) (restaurant_id : ℕ) (record : IngredientRecord) :
    Prop :=
  Inventory.Sound organization_id restaurant_id record.id record.revision record.is_low
    record.episodes

/-! ## What a write does -/

/-- What a change of the stock does to the state and the episodes of an ingredient. -/
inductive Evolves (record record' : IngredientRecord) : Prop
  | kept (hrevision : record'.revision = record.revision) (hlow : record'.is_low = record.is_low)
      (hepisodes : record'.episodes = record.episodes)
  | advanced (hrevision : record'.revision = record.revision + 1)
      (hlow : record'.is_low = record.is_low) (hepisodes : record'.episodes = record.episodes)
  | opened (hrevision : record'.revision = record.revision + 1) (hwas : record.is_low = false)
      (hlow : record'.is_low = true) (episode : InventoryLowStockEpisode)
      (hinterval : episode.interval = ⟨record.revision + 1, none⟩)
      (hepisodes : record'.episodes = record.episodes ++ [episode])
  | resolved (hrevision : record'.revision = record.revision + 1) (hwas : record.is_low = true)
      (hlow : record'.is_low = false) (hopen : unresolved record.episodes ≠ none)
      (hintervals : record'.intervals = record.intervals.map (Interval.close (record.revision + 1)))
  | untracked (hrevision : record'.revision = record.revision + 1) (hwas : record.is_low = true)
      (hlow : record'.is_low = false) (hnone : unresolved record.episodes = none)
      (hepisodes : record'.episodes = record.episodes)

/-- A baseline opens an episode at the present revision of a low ingredient without one. -/
structure Marked (record record' : IngredientRecord) : Prop where
  /-- The state stays. -/
  item : record'.item = record.item
  /-- The balance stays. -/
  balance : record'.balance = record.balance
  /-- The ingredient is low. -/
  low : record.is_low = true
  /-- It had no unresolved episode. -/
  unresolved : unresolved record.episodes = none
  /-- Now it has one. -/
  episodes : ∃ episode : InventoryLowStockEpisode, episode.interval = ⟨record.revision, none⟩ ∧
    record'.episodes = record.episodes ++ [episode]

/-- The low predicate of a record with a balance is that of its snapshot. -/
theorem is_low_eq {record : IngredientRecord} {balance : InventoryBalance}
    (hbalance : record.balance = some balance) (organization_id : UUID) (restaurant_id : ℕ) :
    record.is_low =
      (inventory_state_snapshot organization_id restaurant_id record.item balance).is_low := by
  unfold IngredientRecord.is_low
  rw [hbalance]
  rfl

/-- The edges of the low predicate. -/
theorem low_episode_transition_some {before after : InventoryStateSnapshot} :
    (low_episode_transition (some before) after = some .opened ↔
      before.is_low = false ∧ after.is_low = true) ∧
    (low_episode_transition (some before) after = some .resolved ↔
      before.is_low = true ∧ after.is_low = false) ∧
    (low_episode_transition (some before) after = none ↔ before.is_low = after.is_low) := by
  unfold low_episode_transition
  cases hbefore : before.is_low <;> cases hafter : after.is_low <;> simp [hbefore]

/-- A new ingredient has a rising edge exactly if it is low. -/
theorem low_episode_transition_none {after : InventoryStateSnapshot} :
    (low_episode_transition none after = some .opened ↔ after.is_low = true) ∧
    low_episode_transition none after ≠ some .resolved ∧
    (low_episode_transition none after = none ↔ after.is_low = false) := by
  unfold low_episode_transition
  cases after.is_low <;> simp

/-- An unchanged state has the same low predicate. -/
theorem is_low_of_unchanged {before after : InventoryStateSnapshot}
    (h : inventory_state_changed (some before) after = false) : after.is_low = before.is_low := by
  simp only [inventory_state_changed, Bool.or_eq_false_iff, decide_eq_false_iff_not, not_not] at h
  obtain ⟨⟨hquantity, hthreshold⟩, hactive⟩ := h
  unfold InventoryStateSnapshot.is_low
  rw [hquantity, hthreshold, hactive]

/-- The state after a change belongs to the ingredient, at its new revision. -/
structure Belongs (organization_id : UUID) (restaurant_id id revision : ℕ)
    (after : InventoryStateSnapshot) : Prop where
  /-- The organization. -/
  organization_id : after.organization_id = organization_id
  /-- The restaurant. -/
  restaurant_id : after.restaurant_id = restaurant_id
  /-- The ingredient. -/
  ingredient_id : after.ingredient_id = id
  /-- The revision. -/
  revision : after.state_revision = revision

/-- A rising edge keeps the episodes sound. The new episode starts after all the resolved ones. -/
theorem Sound.opening (h : Sound organization_id restaurant_id id revision low episodes)
    (hnone : unresolved episodes = none) {after : InventoryStateSnapshot} {revision' : ℕ}
    (hafter : Belongs organization_id restaurant_id id revision' after) (hle : revision ≤ revision')
    (hrestaurant : 0 < restaurant_id) {episode_id : UUID}
    (hfresh : ∀ episode ∈ episodes, episode.episode_id ≠ episode_id) {opened_at : Timestamp}
    {source : InventoryTransitionSource} {actor_user_id : Option UUID} {order_id : Option ℕ}
    {suppressed : Bool} (hsuppressed : suppressed = true → source = .maintenance_initialization) :
    (opening_facts after episode_id opened_at source actor_user_id order_id suppressed).interval =
        ⟨revision', none⟩ ∧
      Sound organization_id restaurant_id id revision' true (episodes ++
        [opening_facts after episode_id opened_at source actor_user_id order_id suppressed]) := by
  have hinterval : (opening_facts after episode_id opened_at source actor_user_id order_id
      suppressed).interval = ⟨revision', none⟩ := by
    rw [← hafter.revision]
    rfl
  refine ⟨hinterval, h.open hnone hle (opening_facts_check ?_ ?_ ?_ hsuppressed) ?_ hfresh hinterval⟩
  · rw [hafter.restaurant_id]
    exact hrestaurant
  · rw [hafter.ingredient_id]
    exact h.positive
  · rw [hafter.revision]
    exact h.revision_positive.trans hle
  · exact ⟨hafter.organization_id, hafter.restaurant_id, hafter.ingredient_id⟩

/-- Crossing a boundary keeps the episodes sound, and moves their intervals with the edge. The four
cases are the four ways in which `low_stock_episodes` can see an ingredient evolve. -/
theorem Crossing.evolves {before after : InventoryStateSnapshot} {episode_id : UUID}
    {boundary : Boundary} (h : Crossing episodes (some before) after episode_id boundary)
    (hsound : Sound organization_id restaurant_id id revision before.is_low episodes)
    (hafter : Belongs organization_id restaurant_id id (revision + 1) after)
    (hrestaurant : 0 < restaurant_id)
    (hfresh : ∀ episode ∈ episodes, episode.episode_id ≠ episode_id) :
    Sound organization_id restaurant_id id (revision + 1) after.is_low boundary.episodes ∧
      ((before.is_low = false ∧ after.is_low = true ∧ ∃ episode : InventoryLowStockEpisode,
          episode.interval = ⟨revision + 1, none⟩ ∧ boundary.episodes = episodes ++ [episode]) ∨
        (before.is_low = true ∧ after.is_low = false ∧ unresolved episodes ≠ none ∧
          boundary.episodes.map (·.interval) =
            (episodes.map (·.interval)).map (Interval.close (revision + 1))) ∨
        (before.is_low = true ∧ after.is_low = false ∧ unresolved episodes = none ∧
          boundary.episodes = episodes) ∨
        (after.is_low = before.is_low ∧ boundary.episodes = episodes)) := by
  have hle : revision ≤ revision + 1 := Nat.le_succ revision
  cases h with
  -- A rising edge opens an episode at the new revision.
  | opened hedge hnone timestamp source actor_user_id order_id fact hfact =>
    obtain ⟨hwas, hlow⟩ := low_episode_transition_some.1.mp hedge
    rw [hlow]
    refine ⟨?_, Or.inl ⟨hwas, rfl, _, ?_, rfl⟩⟩
    · exact (hsound.opening hnone hafter hle hrestaurant hfresh (by simp)).2
    · exact (hsound.opening hnone hafter hle hrestaurant hfresh (by simp)).1
  -- A falling edge closes the open one.
  | resolved hedge episode hopen timestamp reason source actor_user_id order_id fact hfact =>
    obtain ⟨hwas, hlow⟩ := low_episode_transition_some.2.1.mp hedge
    obtain ⟨hsound', hintervals⟩ := hsound.resolve hopen (Nat.lt_succ_self revision)
      ⟨after, timestamp, reason, source, actor_user_id, order_id, rfl, hafter.revision⟩
    rw [hlow]
    exact ⟨hsound', Or.inr (Or.inl ⟨hwas, rfl, by simp [hopen], hintervals⟩)⟩
  -- A falling edge of an ingredient that is not tracked leaves its episodes, which are none.
  | untracked hedge hnone =>
    obtain ⟨hwas, hlow⟩ := low_episode_transition_some.2.1.mp hedge
    exact ⟨hsound.later hle fun _ => hnone, Or.inr (Or.inr (Or.inl ⟨hwas, hlow, hnone, rfl⟩))⟩
  | level hedge =>
    have hsame := low_episode_transition_some.2.2.mp hedge
    refine ⟨hsound.later hle fun hlow => hsound.not_low ?_, Or.inr (Or.inr (Or.inr ⟨hsame.symm, rfl⟩))⟩
    rw [hsame, hlow]

/-- What recording a transition of an ingredient does to its episodes. This is `Crossing.evolves`
for a row, where a change that is no change of the state leaves the revision. -/
theorem Recorded.evolves {record record₁ record' : IngredientRecord}
    {balance balance₁ : InventoryBalance} {episode_id : UUID} {events : List (EventEnvelope Payload)}
    (h : Recorded organization_id restaurant_id episode_id record₁ balance₁
      (some (inventory_state_snapshot organization_id restaurant_id record.item balance)) record'
      events)
    (hbalance : record.balance = some balance) (hid : record₁.id = record.id)
    (hrevision : record₁.item.state_revision = record.item.state_revision)
    (hepisodes : record₁.episodes = record.episodes)
    (hsound : record.Sound organization_id restaurant_id) (hrestaurant : 0 < restaurant_id)
    (hfresh : ∀ episode ∈ record.episodes, episode.episode_id ≠ episode_id) :
    Evolves record record' ∧ record'.Sound organization_id restaurant_id := by
  have hwas := is_low_eq hbalance organization_id restaurant_id
  have hid' : record'.id = record.id := h.id.trans hid
  cases h with
  -- Nothing that the state shows has changed, so the revision and the level stay.
  | unchanged hsame =>
    have hlow : IngredientRecord.is_low { record₁ with balance := some balance₁ } = record.is_low := by
      rw [is_low_eq rfl organization_id restaurant_id, hwas]
      exact is_low_of_unchanged hsame
    refine ⟨.kept hrevision hlow hepisodes, ?_⟩
    unfold IngredientRecord.Sound
    rw [hlow, hid']
    unfold IngredientRecord.revision
    simp only [hrevision, hepisodes]
    exact hsound
  -- The revision advances by one, and the episodes as the crossing says.
  | changed hchanged _ hnext hitem hbalance' hmovements boundary hcrossing hboundary =>
    obtain ⟨_, -, hnext⟩ := bind_eq_ok.mp hnext
    have hnext : record'.revision = record.revision + 1 := (pure_eq_ok.mp hnext).symm
    have hlow := is_low_eq hbalance' organization_id restaurant_id
    unfold IngredientRecord.Sound at hsound ⊢
    rw [hwas] at hsound
    rw [hepisodes] at hcrossing
    obtain ⟨hsound', hcases⟩ := hcrossing.evolves hsound ⟨rfl, rfl, hid', hnext⟩ hrestaurant hfresh
    rw [← hwas, ← hlow, ← hboundary] at hcases
    rw [← hlow, ← hboundary, ← hnext, ← hid'] at hsound'
    refine ⟨?_, hsound'⟩
    rcases hcases with ⟨hbefore, hafter, episode, hinterval, heq⟩ |
      ⟨hbefore, hafter, hopen, hintervals⟩ | ⟨hbefore, hafter, hnone, heq⟩ | ⟨hsame, heq⟩
    · exact .opened hnext hbefore hafter episode hinterval heq
    · exact .resolved hnext hbefore hafter hopen hintervals
    · exact .untracked hnext hbefore hafter hnone heq
    · exact .advanced hnext hsame heq

/-- What a write to an ingredient does to its episodes. A command on the stock evolves it, a
baseline opens the episode of a low one that has none. -/
theorem Change.evolves {record record' : IngredientRecord} {episode_id : UUID} {purpose : Purpose}
    {events : List (EventEnvelope Payload)}
    (h : Change organization_id restaurant_id episode_id (some record) purpose record' events)
    (hsound : record.Sound organization_id restaurant_id) (hrestaurant : 0 < restaurant_id)
    (hfresh : ∀ episode ∈ record.episodes, episode.episode_id ≠ episode_id) :
    record'.Sound organization_id restaurant_id ∧
      (((∃ posting, purpose = .stock posting) ∧ Evolves record record') ∨
        (purpose = .baseline ∧ Marked record record')) := by
  cases h with
  | rewritten _ balance hbalance record₁ balance₁ hid hrevision hepisodes hposting h =>
    obtain ⟨hevolves, hsound'⟩ :=
      h.evolves hbalance hid hrevision hepisodes hsound hrestaurant hfresh
    exact ⟨hsound', Or.inl ⟨⟨_, rfl⟩, hevolves⟩⟩
  | baseline _ balance hbalance hlow hnone opened_at =>
    unfold IngredientRecord.Sound at hsound ⊢
    have hlow' : ∀ episodes, IngredientRecord.is_low { record with episodes := episodes } = true :=
      fun _ => hlow
    rw [hlow']
    have hbelongs : Belongs organization_id restaurant_id record.id record.revision
        (inventory_state_snapshot organization_id restaurant_id record.item balance) :=
      ⟨rfl, rfl, rfl, rfl⟩
    refine ⟨?_, Or.inr ⟨rfl, rfl, rfl, hlow, hnone, _, ?_, rfl⟩⟩
    · exact (hsound.opening hnone hbelongs le_rfl hrestaurant hfresh fun _ => rfl).2
    · exact (hsound.opening hnone hbelongs le_rfl hrestaurant hfresh fun _ => rfl).1

/-- A created ingredient starts at revision 1, with an episode exactly if it is low. Its level has
no past, so there is no edge: an episode opens if it starts low. -/
theorem Change.created_sound {record' : IngredientRecord} {episode_id : UUID} {purpose : Purpose}
    {events : List (EventEnvelope Payload)}
    (h : Change organization_id restaurant_id episode_id none purpose record' events)
    (hid : 0 < record'.id) (hrestaurant : 0 < restaurant_id) :
    record'.Sound organization_id restaurant_id ∧ record'.revision = 1 ∧
      ((record'.is_low = false ∧ record'.episodes = []) ∨
        (record'.is_low = true ∧ ∃ episode : InventoryLowStockEpisode,
          episode.interval = ⟨1, none⟩ ∧ record'.episodes = [episode])) := by
  cases h with
  | created item movement hrevision hafter hversion hrange h =>
    cases h with
    | unchanged hsame => simp [inventory_state_changed] at hsame
    | changed hchanged _ hnext hitem hbalance hmovements boundary hcrossing hboundary =>
      have hnext : record'.revision = 1 := by
        have hmax := pure_eq_ok.mp hnext
        rw [← show max 1 item.state_revision = 1 by rw [hrevision]; rfl, hmax]
        rfl
      have hlow := is_low_eq hbalance organization_id restaurant_id
      have hbelongs : Belongs organization_id restaurant_id record'.id 1
          (inventory_state_snapshot organization_id restaurant_id record'.item
            ⟨movement.balance_after, movement.version_after⟩) := ⟨rfl, rfl, rfl, hnext⟩
      have hempty : Inventory.Sound organization_id restaurant_id record'.id 1 false [] :=
        .nil hid le_rfl false
      unfold IngredientRecord.Sound
      rw [hnext, hlow, hboundary]
      cases hcrossing with
      | opened hedge hnone =>
        rw [low_episode_transition_none.1.mp hedge]
        refine ⟨?_, rfl, Or.inr ⟨rfl, _, ?_, rfl⟩⟩
        · exact (hempty.opening rfl hbelongs le_rfl hrestaurant (by simp) (by simp)).2
        · exact (hempty.opening rfl hbelongs le_rfl hrestaurant (by simp) (by simp)).1
      -- There is no state before, so nothing can be resolved.
      | resolved hedge => exact absurd hedge low_episode_transition_none.2.1
      | untracked hedge => exact absurd hedge low_episode_transition_none.2.1
      | level hedge =>
        rw [low_episode_transition_none.2.2.mp hedge]
        exact ⟨hempty, rfl, Or.inl ⟨rfl, rfl⟩⟩

/-- The key of an episode after crossing a boundary was there before, or is the fresh one. -/
theorem Crossing.episode_ids {before : Option InventoryStateSnapshot}
    {after : InventoryStateSnapshot} {episode_id : UUID} {boundary : Boundary}
    (h : Crossing episodes before after episode_id boundary) :
    ∀ episode ∈ boundary.episodes, episode.episode_id = episode_id ∨
      ∃ other ∈ episodes, other.episode_id = episode.episode_id := by
  intro episode hmem
  cases h with
  | opened =>
    rcases List.mem_append.mp hmem with hmem | hmem
    · exact Or.inr ⟨episode, hmem, rfl⟩
    · rw [List.mem_singleton.mp hmem]
      exact Or.inl rfl
  | resolved hedge current hopen =>
    rcases Keyed.mem_put hmem with ⟨hmem, -⟩ | rfl
    · exact Or.inr ⟨episode, hmem, rfl⟩
    · exact Or.inr ⟨current, (unresolved_mem hopen).1, rfl⟩
  | untracked => exact Or.inr ⟨episode, hmem, rfl⟩
  | level => exact Or.inr ⟨episode, hmem, rfl⟩

/-- The key of an episode after a write was there before, or is the fresh one. So a key is never
used for two episodes. -/
theorem Change.episode_ids {old : Option IngredientRecord} {record' : IngredientRecord}
    {episode_id : UUID} {purpose : Purpose} {events : List (EventEnvelope Payload)}
    (h : Change organization_id restaurant_id episode_id old purpose record' events) :
    ∀ episode ∈ record'.episodes, episode.episode_id = episode_id ∨
      ∃ record ∈ old, ∃ other ∈ record.episodes, other.episode_id = episode.episode_id := by
  have hrecorded : ∀ {record₁ : IngredientRecord} {balance : InventoryBalance}
      {before : Option InventoryStateSnapshot},
      Recorded organization_id restaurant_id episode_id record₁ balance before record' events →
        ∀ episode ∈ record'.episodes, episode.episode_id = episode_id ∨
          ∃ other ∈ record₁.episodes, other.episode_id = episode.episode_id := by
    intro record₁ balance before h
    cases h with
    | unchanged => exact fun episode hmem => Or.inr ⟨episode, hmem, rfl⟩
    | changed hchanged _ hnext hitem hbalance hmovements boundary hcrossing hboundary =>
      rw [hboundary]
      exact hcrossing.episode_ids
  -- A created or rewritten ingredient through its transition, a baseline through the one new
  -- episode.
  intro episode hmem
  cases h with
  | created item movement hrevision hafter hversion hrange h =>
    rcases hrecorded h episode hmem with heq | ⟨other, hother, -⟩
    · exact Or.inl heq
    · exact absurd hother List.not_mem_nil
  | rewritten record balance hbalance record₁ balance₁ hid hrevision hepisodes hposting h =>
    rcases hrecorded h episode hmem with heq | ⟨other, hother, heq⟩
    · exact Or.inl heq
    · exact Or.inr ⟨record, rfl, other, hepisodes ▸ hother, heq⟩
  | baseline record balance hbalance hlow hnone opened_at =>
    rcases List.mem_append.mp hmem with hmem | hmem
    · exact Or.inr ⟨record, rfl, episode, hmem, rfl⟩
    · rw [List.mem_singleton.mp hmem]
      exact Or.inl rfl

end Inventory

/-! ## The episodes of a restaurant -/

/-- The episodes of all ingredients are sound, and no two share a key. -/
structure Branch.Episodic (db : Branch) : Prop where
  /-- The key of the restaurant is positive. -/
  restaurant : 0 < db.restaurant_id
  /-- The episodes of every ingredient are sound. -/
  sound : ∀ record ∈ db.ingredients, record.Sound db.organization_id db.restaurant_id
  /-- Their keys have been drawn. -/
  drawn : ∀ record ∈ db.ingredients, ∀ episode ∈ record.episodes, episode.episode_id < db.next_uuid
  /-- Episodes of different ingredients have different keys. -/
  distinct : ∀ record ∈ db.ingredients, ∀ record' ∈ db.ingredients, ∀ episode ∈ record.episodes,
    ∀ episode' ∈ record'.episodes, episode.episode_id = episode'.episode_id → record.id = record'.id

namespace Inventory

/-- A write keeps the episodes of a restaurant sound. The episodes of the written ingredient are the
ones that can change; the others stay, and keep their keys. -/
theorem Write.episodic {db db' : Branch} {id : ℕ} {purpose : Purpose} (h : Write db id purpose db')
    (hkeys : db.Keys) (hdb : db.Episodic) : db'.Episodic := by
  have hkeys' := h.keys hkeys
  obtain ⟨record', events, hlookup', hchange, -, huuid⟩ := h.change hkeys
  have hrecord' := Keyed.lookup_mem hlookup'
  have hid' : record'.id = id := Keyed.lookup_key hlookup'
  -- The written ingredient: created, or changed from a sound one.
  have hsound' : record'.Sound db.organization_id db.restaurant_id := by
    cases hold : Keyed.lookup IngredientRecord.id id db.ingredients with
    | none =>
      rw [hold] at hchange
      exact (hchange.created_sound (hkeys'.below _ hrecord').1 hdb.restaurant).1
    | some record =>
      rw [hold] at hchange
      have hrecord := Keyed.lookup_mem hold
      refine (hchange.evolves (hdb.sound record hrecord) hdb.restaurant fun episode hmem => ?_).1
      exact ne_of_lt (hdb.drawn record hrecord episode hmem)
  -- A record after the write is the written one or was there before.
  have hcases : ∀ record ∈ db'.ingredients, record = record' ∨ record ∈ db.ingredients ∧
      record.id ≠ id := by
    intro record hrecord
    by_cases hid : record.id = id
    · exact Or.inl (hkeys'.unique.eq_of_key hrecord hrecord' (hid.trans hid'.symm))
    · have hlookup := hkeys'.unique.lookup_eq_some.mpr ⟨hrecord, rfl⟩
      rw [h.lookup_ne hid] at hlookup
      exact Or.inr ⟨Keyed.lookup_mem hlookup, hid⟩
  -- The keys of its episodes are old ones of the same ingredient, or the fresh one.
  have hids : ∀ episode ∈ record'.episodes, episode.episode_id = db.next_uuid ∨
      ∃ record ∈ db.ingredients, record.id = id ∧
        ∃ other ∈ record.episodes, other.episode_id = episode.episode_id := by
    intro episode hmem
    rcases hchange.episode_ids episode hmem with heq | ⟨record, hold, other, hother, heq⟩
    · exact Or.inl heq
    · exact Or.inr ⟨record, Keyed.lookup_mem hold, Keyed.lookup_key hold, other, hother, heq⟩
  have hframe := h.frame
  refine ⟨?_, fun record hrecord => ?_, fun record hrecord episode hmem => ?_, ?_⟩
  · rw [hframe.restaurant_id]
    exact hdb.restaurant
  · rw [hframe.organization_id, hframe.restaurant_id]
    rcases hcases record hrecord with rfl | ⟨hrecord, -⟩
    · exact hsound'
    · exact hdb.sound record hrecord
  · -- The keys drawn so far are below the next one.
    rcases hcases record hrecord with rfl | ⟨hrecord, -⟩
    · rcases huuid with hlt | hold
      · rcases hids episode hmem with heq | ⟨old, hold, -, other, hother, heq⟩
        · rw [heq]
          exact hlt
        · rw [← heq]
          exact (hdb.drawn old hold other hother).trans hlt
      · obtain ⟨old, hlookup, hmem⟩ := hold episode hmem
        exact (hdb.drawn old (Keyed.lookup_mem hlookup) episode hmem).trans_le hframe.next_uuid
    · exact (hdb.drawn record hrecord episode hmem).trans_le hframe.next_uuid
  · -- The key of an episode of the written ingredient is not that of another's.
    have hother : ∀ record ∈ db.ingredients, record.id ≠ id → ∀ episode ∈ record.episodes,
        ∀ episode' ∈ record'.episodes, episode.episode_id ≠ episode'.episode_id := by
      intro record hrecord hne episode hmem episode' hmem' heq
      rcases hids episode' hmem' with hnew | ⟨old, hold, hid, other, hother, hsame⟩
      · exact absurd (heq.trans hnew) (ne_of_lt (hdb.drawn record hrecord episode hmem))
      · have hid' := hdb.distinct record hrecord old hold episode hmem other hother
          (heq.trans hsame.symm)
        exact hne (hid'.trans hid)
    intro record₁ hrecord₁ record₂ hrecord₂ episode₁ hmem₁ episode₂ hmem₂ heq
    rcases hcases record₁ hrecord₁ with rfl | ⟨hrecord₁, hne₁⟩
    · rcases hcases record₂ hrecord₂ with rfl | ⟨hrecord₂, hne₂⟩
      · rfl
      · exact absurd heq.symm (hother record₂ hrecord₂ hne₂ episode₂ hmem₂ episode₁ hmem₁)
    · rcases hcases record₂ hrecord₂ with rfl | ⟨hrecord₂, hne₂⟩
      · exact absurd heq (hother record₁ hrecord₁ hne₁ episode₁ hmem₁ episode₂ hmem₂)
      · exact hdb.distinct record₁ hrecord₁ record₂ hrecord₂ episode₁ hmem₁ episode₂ hmem₂ heq

end Inventory

/-- A command keeps the episodes of its restaurant sound. Only what it writes is touched, and each
write keeps the episodes sound. -/
theorem Effect.episodic {db db' : Branch} {command : Command} (h : Effect db command db')
    (hkeys : db.Keys) (hdb : db.Episodic) : db'.Episodic := by
  obtain ⟨ws, db₁, events, hwrites, hrest⟩ := h.writes
  obtain ⟨-, hsound⟩ : db₁.Keys ∧ db₁.Episodic := by
    refine hwrites.invariant (P := fun db => db.Keys ∧ db.Episodic) ⟨hkeys, hdb⟩ ?_
    exact fun _ _ _ _ hwrite hdb => ⟨hwrite.keys hdb.1, hwrite.episodic hdb.1 hdb.2⟩
  refine ⟨?_, ?_, ?_, ?_⟩
  · rw [hrest.restaurant_id]
    exact hsound.restaurant
  · rw [hrest.ingredients, hrest.organization_id, hrest.restaurant_id]
    exact hsound.sound
  · rw [hrest.ingredients]
    exact fun record hrecord episode hmem =>
      (hsound.drawn record hrecord episode hmem).trans_le hrest.next_uuid
  · rw [hrest.ingredients]
    exact hsound.distinct

/-- The legacy database has no episodes. They are opened when the restaurant is initialized. -/
theorem LegacyBranch.episodic (start : LegacyBranch) : start.toBranch.Episodic := by
  have hempty := start.legacy.episodes
  refine ⟨start.legacy.restaurant, fun record hrecord => ?_, fun record hrecord episode hmem => ?_,
    fun record hrecord _ _ episode hmem => ?_⟩
  · unfold Inventory.IngredientRecord.Sound
    rw [hempty record hrecord]
    exact .nil (start.legacy.ingredients_below record hrecord).1
      (start.legacy.revisions record hrecord) _
  · rw [hempty record hrecord] at hmem
    exact absurd hmem List.not_mem_nil
  · rw [hempty record hrecord] at hmem
    exact absurd hmem List.not_mem_nil

/-- The episodes of every restaurant are sound in every reachable state. -/
theorem run_episodic (lib : Library) (start : ℕ → LegacyBranch) (acts : List Act) (k : ℕ) :
    ((run lib start acts).rows k).Episodic :=
  run_branch k (start k).episodic (fun _ _ _ hsane heffect hdb => heffect.episodic hsane.keys hdb) acts

end RestaurantOS
