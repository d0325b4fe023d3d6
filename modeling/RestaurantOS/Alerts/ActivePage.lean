import RestaurantOS.Alerts.Convergence

/-!
# The active alert page

`active_page` joins the projected episodes with the live rows of the inventory. The join fences what
the projection has not learned yet: a row is shown only while its producer episode is open, and a
restaurant has one open episode for a low ingredient, so the page cannot repeat an ingredient. What
the projection lacks is the opening of an episode, and it is there once its event is processed. -/

namespace RestaurantOS.Alerts

open Fallible Events Inventory

/-- `ActiveAlert`: a row of the page. It has columns of the projected episode, of the ingredient and
of its balance. -/
structure ActiveAlert where
  /-- The episode. -/
  episode_id : UUID
  /-- The ingredient. -/
  ingredient_id : ℕ
  /-- Its name. -/
  ingredient_name : String
  /-- Its unit. -/
  unit : InventoryUnit
  /-- The quantity on hand. -/
  quantity : ℚ
  /-- The threshold. -/
  reorder_threshold : ℚ
  /-- When the episode opened. -/
  opened_at : Timestamp
  /-- Whether it is a baseline. -/
  notification_suppressed : Bool
  deriving DecidableEq

/-- A row of the join: a projected episode, its ingredient with the balance, and the episode of the
producer. -/
structure Joined where
  /-- The row of `alert_episodes`. -/
  row : AlertEpisode
  /-- The row of `inventory_ingredients`. -/
  item : Ingredient
  /-- The row of `inventory_balances`. -/
  balance : InventoryBalance
  /-- The row of `inventory_low_stock_episodes`. -/
  episode : InventoryLowStockEpisode

/-- The selected columns. Quantity, threshold, name and unit are live, and the opening is the
projected one. -/
def Joined.alert (joined : Joined) : ActiveAlert :=
  { episode_id := joined.row.episode_id, ingredient_id := joined.item.id,
    ingredient_name := joined.item.name, unit := joined.item.unit,
    quantity := joined.balance.quantity, reorder_threshold := joined.item.reorder_threshold,
    opened_at := joined.row.opened_at,
    notification_suppressed := joined.row.notification_suppressed }

section Page

variable (db : Branch) (organization_id : UUID) (restaurant_id : ℤ)

/-- The joins of a projected episode: on the key of its ingredient, on the balance of the ingredient
and on the key of the episode. -/
def join (row : AlertEpisode) : List Joined :=
  (db.ingredients.filter fun record => record.id = row.ingredient_id).flatMap fun record =>
    record.balance.toList.flatMap fun balance =>
      ((episodes db).filter fun episode => episode.episode_id = row.episode_id).map fun episode =>
        ⟨row, record.item, balance, episode⟩

/-- The condition of the query. All ingredients of a branch have its restaurant. -/
def Joined.is_active (joined : Joined) : Bool :=
  joined.row.organization_id = organization_id && joined.row.restaurant_id = restaurant_id &&
    db.restaurant_id = restaurant_id && joined.episode.organization_id = organization_id &&
    joined.episode.restaurant_id = restaurant_id && joined.episode.ingredient_id = joined.item.id &&
    joined.episode.resolved_at.isNone && joined.item.is_active &&
    joined.balance.quantity ≤ joined.item.reorder_threshold

/-- The rows of the query. The joined rows of all projected episodes, filtered by the `WHERE`
clause. -/
def active_rows (p : AlertProjection) : List ActiveAlert :=
  ((p.episodes.flatMap (join db)).filter
    (Joined.is_active db organization_id restaurant_id)).map Joined.alert

/-- The order of the page: `opened_at` descending, then `episode_id` descending. -/
def ActiveAlert.before (alert alert' : ActiveAlert) : Bool :=
  alert'.opened_at < alert.opened_at ||
    (alert.opened_at = alert'.opened_at && alert'.episode_id ≤ alert.episode_id)

/-- `active_page`: a page and the total. The total is the number of all rows, whatever the limit and
the offset are. -/
def active_page (limit offset : ℕ) (p : AlertProjection) : List ActiveAlert × ℕ :=
  let rows := active_rows db organization_id restaurant_id p
  (((rows.mergeSort ActiveAlert.before).drop offset).take limit, rows.length)

/-- The pages of a reader who goes on where the last page ended, each with a limit of its own. -/
def pages (p : AlertProjection) (offset : ℕ) : List ℕ → List ActiveAlert
  | [] => []
  | limit :: limits =>
    (active_page db organization_id restaurant_id limit offset p).1 ++
      pages p (offset + limit) limits

variable {db organization_id restaurant_id}

/-- The pages are the rows from the first offset on, as many as the limits allow. -/
theorem pages_eq (p : AlertProjection) (offset : ℕ) (limits : List ℕ) :
    pages db organization_id restaurant_id p offset limits =
      (((active_rows db organization_id restaurant_id p).mergeSort ActiveAlert.before).drop
        offset).take limits.sum := by
  induction limits generalizing offset with
  | nil => rw [List.sum_nil, List.take_zero]; rfl
  | cons limit limits ih =>
    rw [pages, ih, List.sum_cons, List.take_add, List.drop_drop]
    rfl

/-- What a row of the join comes from. The ingredient, its balance and the episode are those of one
record of the restaurant. -/
theorem mem_join {row : AlertEpisode} {joined : Joined} :
    joined ∈ join db row ↔ joined.row = row ∧ ∃ record ∈ db.ingredients, record.item = joined.item ∧
      record.id = row.ingredient_id ∧ record.balance = some joined.balance ∧
        joined.episode ∈ episodes db ∧ joined.episode.episode_id = row.episode_id := by
  unfold join
  simp only [List.mem_flatMap, List.mem_filter, List.mem_map, decide_eq_true_eq,
    Option.mem_toList]
  constructor
  · rintro ⟨record, ⟨hrecord, hid⟩, balance, hbalance, episode, ⟨hepisode, hkey⟩, rfl⟩
    exact ⟨rfl, record, hrecord, rfl, hid, hbalance, hepisode, hkey⟩
  · rintro ⟨rfl, record, hrecord, hitem, hid, hbalance, hepisode, hkey⟩
    refine ⟨record, ⟨hrecord, hid⟩, joined.balance, hbalance, joined.episode,
      ⟨hepisode, hkey⟩, ?_⟩
    rw [hitem]

/-- What the condition of the query says. Each part compares columns of the projection with those of
the producer. -/
theorem is_active_iff {joined : Joined} :
    joined.is_active db organization_id restaurant_id = true ↔
      joined.row.organization_id = organization_id ∧ joined.row.restaurant_id = restaurant_id ∧
      db.restaurant_id = restaurant_id ∧ joined.episode.organization_id = organization_id ∧
      joined.episode.restaurant_id = restaurant_id ∧
      joined.episode.ingredient_id = joined.item.id ∧ joined.episode.resolved_at = none ∧
      joined.item.is_active = true ∧ joined.balance.quantity ≤ joined.item.reorder_threshold := by
  unfold Joined.is_active
  simp only [Bool.and_eq_true, decide_eq_true_eq, Option.isNone_iff_eq_none, and_assoc]

end Page

section Keys

variable {db : Branch} (hepisodic : db.Episodic) (hkeys : db.Keys)

include hepisodic hkeys

/-- A projected episode is joined with at most one ingredient and one episode. -/
theorem join_length_le (row : AlertEpisode) : (join db row).length ≤ 1 := by
  unfold join
  rw [hkeys.unique.filter_eq, (episodes_unique hepisodic hkeys).filter_eq]
  cases Keyed.lookup IngredientRecord.id row.ingredient_id db.ingredients with
  | none => exact Nat.zero_le 1
  | some record =>
    cases hbalance : record.balance <;>
      cases Keyed.lookup InventoryLowStockEpisode.episode_id row.episode_id (episodes db) <;>
        simp [hbalance]

/-- The episode of an active row is one of its ingredient. -/
theorem joined_episode {organization_id : UUID} {restaurant_id : ℤ} {row : AlertEpisode}
    {joined : Joined} (hjoin : joined ∈ join db row)
    (hactive : joined.is_active db organization_id restaurant_id = true) :
    ∃ record ∈ db.ingredients, record.item = joined.item ∧ record.balance = some joined.balance ∧
      joined.episode ∈ record.episodes ∧ joined.episode.episode_id = row.episode_id := by
  obtain ⟨-, record, hrecord, hitem, -, hbalance, hepisode, hkey⟩ := mem_join.mp hjoin
  obtain ⟨-, -, -, -, -, hingredient, -⟩ := is_active_iff.mp hactive
  obtain ⟨record', hrecord', hmem⟩ := mem_episodes.mp hepisode
  obtain ⟨-, -, hid⟩ := (hepisodic.sound record' hrecord').identity joined.episode hmem
  have hsame : record'.id = record.id := by
    rw [← hid, hingredient, ← hitem]
    rfl
  obtain rfl := hkeys.unique.eq_of_key hrecord' hrecord hsame
  exact ⟨record', hrecord, hitem, hbalance, hmem, hkey⟩

end Keys

/-- An ingredient has one unresolved episode at most. -/
theorem open_unique {db : Branch} (hepisodic : db.Episodic) {record : IngredientRecord}
    (hrecord : record ∈ db.ingredients) {episode episode' : InventoryLowStockEpisode}
    (hmem : episode ∈ record.episodes) (hopen : episode.resolved_at = none)
    (hmem' : episode' ∈ record.episodes) (hopen' : episode'.resolved_at = none) :
    episode = episode' := by
  have hsound := hepisodic.sound record hrecord
  have hfirst := hsound.single episode hmem hopen
  exact Option.some.inj (hfirst.symm.trans (hsound.single episode' hmem' hopen'))

/-- An alert shows an ingredient with its live state and an episode of it. -/
def ActiveAlert.of_record (record : IngredientRecord) (balance : InventoryBalance)
    (episode : InventoryLowStockEpisode) : ActiveAlert :=
  { episode_id := episode.episode_id, ingredient_id := record.id,
    ingredient_name := record.item.name, unit := record.item.unit, quantity := balance.quantity,
    reorder_threshold := record.item.reorder_threshold, opened_at := episode.opened_at,
    notification_suppressed := episode.notification_suppressed }

section Site

variable {lib : Library} {start : ℕ → LegacyBranch} {k : ℕ} {site : Site}
  {organization_id : UUID} {restaurant_id : ℤ}

/-- What an active row shows. The query joins the row with the producer's episode, ingredient and
balance, so all it shows but the columns of the projection is live. -/
theorem Site.Sound.active_row (h : site.Sound lib start k) {alert : ActiveAlert}
    (halert : alert ∈ active_rows (site.db lib start k) organization_id restaurant_id
      site.projection) :
    ∃ record ∈ (site.db lib start k).ingredients, ∃ balance ∈ record.balance,
      ∃ episode ∈ record.episodes, episode.resolved_at = none ∧ record.item.is_active = true ∧
        balance.quantity ≤ record.item.reorder_threshold ∧
        (site.db lib start k).organization_id = organization_id ∧
        (site.db lib start k).restaurant_id = restaurant_id ∧
        alert = .of_record record balance episode := by
  have hepisodic : (site.db lib start k).Episodic := run_episodic lib start site.requests k
  have hkeys : (site.db lib start k).Keys := (run_sane lib start site.requests k).keys
  -- A shown alert is a joined row that passes the filter.
  obtain ⟨joined, hjoined, rfl⟩ := List.mem_map.mp halert
  obtain ⟨hmem, hactive⟩ := List.mem_filter.mp hjoined
  obtain ⟨row, hrow, hjoin⟩ := List.mem_flatMap.mp hmem
  obtain ⟨record, hrecord, hitem, hbalance, hepisode, hkey⟩ :=
    joined_episode hepisodic hkeys hjoin hactive
  -- The filter compares with the producer's episode and with the live quantity.
  obtain ⟨-, -, hrestaurant, horganization, -, -, hopen, hin_use, hlow⟩ := is_active_iff.mp hactive
  obtain ⟨horganization', -, -⟩ := (hepisodic.sound record hrecord).identity _ hepisode
  rw [← hitem] at hin_use hlow
  refine ⟨record, hrecord, joined.balance, hbalance, joined.episode, hepisode, hopen, hin_use,
    hlow, horganization'.symm.trans horganization, hrestaurant, ?_⟩
  -- The columns of the projection are facts of the producer episode, resolved or not.
  obtain ⟨other, hother, hfacts⟩ := h.mirrors.episodes row hrow
  have hsame : other = joined.episode := by
    refine episode_unique hepisodic hkeys hother (mem_episodes.mpr ⟨record, hrecord, hepisode⟩) ?_
    rw [hkey]
    rcases hfacts with rfl | rfl <;> rfl
  have hrow_eq : joined.row = row := (mem_join.mp hjoin).1
  unfold Joined.alert ActiveAlert.of_record
  rw [hrow_eq, hkey, ← hitem, ← hsame]
  rcases hfacts with rfl | rfl <;> rfl

/-- No ingredient is shown by two rows. A row is shown once at most, and the rows of one ingredient
would share its open episode. -/
theorem Site.Sound.active_rows_nodup (h : site.Sound lib start k) :
    ((active_rows (site.db lib start k) organization_id restaurant_id site.projection).map
      ActiveAlert.ingredient_id).Nodup := by
  have hepisodic : (site.db lib start k).Episodic := run_episodic lib start site.requests k
  have hkeys : (site.db lib start k).Keys := (run_sane lib start site.requests k).keys
  unfold active_rows
  -- Two shown rows come from one projected row or from two different ones.
  rw [List.map_map, List.Nodup, List.pairwise_map, List.pairwise_filter, List.pairwise_flatMap]
  refine ⟨fun row _ => ?_, ?_⟩
  · have hlength := join_length_le hepisodic hkeys row
    match hjoin : join (site.db lib start k) row with
    | [] => exact .nil
    | [joined] => exact List.pairwise_singleton _ _
    | _ :: _ :: _ => simp [hjoin] at hlength
  · -- Rows of one ingredient are joined with its open episode, whose row is one.
    have hrows := List.pairwise_map.mp h.mirrors.unique_episodes
    refine hrows.imp fun {row row'} hne joined hjoin joined' hjoin' hactive hactive' hsame => ?_
    obtain ⟨record, hrecord, hitem, -, hepisode, hkey⟩ :=
      joined_episode hepisodic hkeys hjoin hactive
    obtain ⟨record', hrecord', hitem', -, hepisode', hkey'⟩ :=
      -- Both show the same ingredient.
      joined_episode hepisodic hkeys hjoin' hactive'
    have hid : record.id = record'.id := by
      unfold IngredientRecord.id
      rw [hitem, hitem']
      exact hsame
    obtain rfl := hkeys.unique.eq_of_key hrecord hrecord' hid
    -- It has only one open episode, hence one row.
    obtain ⟨-, -, -, -, -, -, hopen, -⟩ := is_active_iff.mp hactive
    obtain ⟨-, -, -, -, -, -, hopen', -⟩ := is_active_iff.mp hactive'
    have hsame := open_unique hepisodic hrecord hepisode hopen hepisode' hopen'
    exact hne (by rw [← hkey, ← hkey', hsame])

/-- A low ingredient whose open episode is projected with the facts of its producer is shown. -/
theorem active_row_of_projected {record : IngredientRecord} {episode : InventoryLowStockEpisode}
    (hrecord : record ∈ (site.db lib start k).ingredients) (hlow : record.is_low = true)
    (hepisode : episode ∈ record.episodes) (hopen : episode.resolved_at = none)
    (hprojected : AlertEpisode.of_facts episode ∈ site.projection.episodes) :
    ∃ balance ∈ record.balance, ActiveAlert.of_record record balance episode ∈
      active_rows (site.db lib start k) (site.db lib start k).organization_id
        (site.db lib start k).restaurant_id site.projection := by
  have hepisodic : (site.db lib start k).Episodic := run_episodic lib start site.requests k
  obtain ⟨horganization, hrestaurant, hingredient⟩ :=
    (hepisodic.sound record hrecord).identity episode hepisode
  unfold IngredientRecord.is_low at hlow
  cases hbalance : record.balance with
  | none =>
    rw [hbalance] at hlow
    cases hlow
  | some balance =>
    rw [hbalance] at hlow
    obtain ⟨hin_use, hle⟩ := Bool.and_eq_true_iff.mp hlow
    refine ⟨balance, rfl, List.mem_map.mpr
      ⟨⟨.of_facts episode, record.item, balance, episode⟩, List.mem_filter.mpr ⟨?_, ?_⟩, rfl⟩⟩
    · refine List.mem_flatMap.mpr ⟨_, hprojected, mem_join.mpr ⟨rfl, record, hrecord, rfl, ?_⟩⟩
      exact ⟨hingredient.symm, hbalance, mem_episodes.mpr ⟨record, hrecord, hepisode⟩, rfl⟩
    · exact is_active_iff.mpr ⟨horganization, by rw [← hrestaurant]; rfl, rfl, horganization,
        by rw [hrestaurant], hingredient, hopen, hin_use, of_decide_eq_true hle⟩

variable (lib start k)

/-- The active page is sound in every state that requests, processed events and rebuilds lead to: a
row shows an active ingredient of the restaurant with its live quantity and threshold, which make it
low, and the one open episode of its producer. Whoever reads page after page with any limits sees no
ingredient twice, and sees as many rows as every page reports once the limits add up to that total.
When every emitted event has been processed, every low ingredient whose open episode is not a
suppressed baseline is among them. The pages may be read with any limits, all of them against one
state. -/
theorem active_page_sound_and_complete (ops : List Op) :
    let site := Site.run lib start k ops
    let db := site.db lib start k
    let p := site.projection
    (∀ organization_id restaurant_id limit offset,
      ∀ alert ∈ (active_page db organization_id restaurant_id limit offset p).1,
        ∃ record ∈ db.ingredients, ∃ balance ∈ record.balance, ∃ episode ∈ record.episodes,
          db.organization_id = organization_id ∧ db.restaurant_id = restaurant_id ∧
          record.item.is_active = true ∧ balance.quantity ≤ record.item.reorder_threshold ∧
          alert = .of_record record balance episode ∧ episode.resolved_at = none ∧
          ∀ other ∈ record.episodes, other.resolved_at = none → other = episode) ∧
    (∀ organization_id restaurant_id limits,
      let alerts := pages db organization_id restaurant_id p 0 limits
      (alerts.map ActiveAlert.ingredient_id).Nodup ∧
      ∀ limit offset, (active_page db organization_id restaurant_id limit offset p).2 ≤ limits.sum →
        alerts.length = (active_page db organization_id restaurant_id limit offset p).2) ∧
    ((∀ event ∈ inventory_events db, event ∈ site.processed) →
      ∀ record ∈ db.ingredients, record.is_low = true → ∀ episode ∈ record.episodes,
        episode.resolved_at = none → episode.notification_suppressed = false →
        ∀ limits limit offset,
          (active_page db db.organization_id db.restaurant_id limit offset p).2 ≤ limits.sum →
          ∃ balance ∈ record.balance, ActiveAlert.of_record record balance episode ∈
            pages db db.organization_id db.restaurant_id p 0 limits) := by
  intro site db p
  have hsound : site.Sound lib start k := run_sound lib start k ops
  have hepisodic : db.Episodic := run_episodic lib start site.requests k
  -- The pages up to the total are all rows, in order.
  have hpages : ∀ organization_id restaurant_id (limits : List ℕ),
      (active_rows db organization_id restaurant_id p).length ≤ limits.sum →
        pages db organization_id restaurant_id p 0 limits =
          (active_rows db organization_id restaurant_id p).mergeSort ActiveAlert.before := by
    intro organization_id restaurant_id limits hle
    rw [pages_eq, List.drop_zero, List.take_of_length_le (by rwa [List.length_mergeSort])]
  refine ⟨?_, fun organization_id restaurant_id limits => ⟨?_, fun limit offset htotal => ?_⟩, ?_⟩
  · -- A row of a page is an active row.
    intro organization_id restaurant_id limit offset alert halert
    have hmem := List.mem_mergeSort.mp (List.mem_of_mem_drop (List.mem_of_mem_take halert))
    obtain ⟨record, hrecord, balance, hbalance, episode, hepisode, hopen, hin_use, hlow,
      horganization, hrestaurant, heq⟩ := hsound.active_row hmem
    refine ⟨record, hrecord, balance, hbalance, episode, hepisode, horganization, hrestaurant,
      hin_use, hlow, heq, hopen, fun other hother hopen' => ?_⟩
    exact open_unique hepisodic hrecord hother hopen' hepisode hopen
  · -- The pages are a prefix of the sorted rows.
    have hperm := (List.mergeSort_perm (active_rows db organization_id restaurant_id p)
      ActiveAlert.before).map ActiveAlert.ingredient_id
    rw [pages_eq, List.drop_zero]
    exact (hperm.nodup_iff.mpr hsound.active_rows_nodup).sublist
      ((List.take_sublist _ _).map _)
  · -- The count of the page is that of all active rows.
    rw [hpages organization_id restaurant_id limits htotal, List.length_mergeSort]
    rfl
  · -- A low ingredient has its open episode projected, and the filter lets it through.
    intro hall record hrecord hlow episode hepisode hopen hnotified limits limit offset htotal
    have hprojected := hsound.episode (mem_episodes.mpr ⟨record, hrecord, hepisode⟩) hall
      (Or.inl hnotified)
    obtain ⟨balance, hbalance, hmem⟩ :=
      active_row_of_projected hrecord hlow hepisode hopen hprojected
    refine ⟨balance, hbalance, ?_⟩
    rw [hpages _ _ limits htotal]
    exact List.mem_mergeSort.mpr hmem

end Site

end RestaurantOS.Alerts
