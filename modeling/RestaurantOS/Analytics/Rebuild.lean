import RestaurantOS.Analytics.Convergence

/-!
# A rebuild commutes with queued events

A rebuild reads the live orders and the retained deletions, and covers every event that the outbox
holds by then, whether or not it has been processed: a queued event that arrives later finds a
contribution with its revision or a greater one (`Follows.rebuild`). So a run with rebuilds counts
the orders as a run without them does (`rebuild_commutes`). -/

namespace RestaurantOS.Analytics

open Fallible Events Orders

/-! ## The baseline -/

/-- A deletion of an order. At most one event of a history is one. -/
def deletes (id : ℕ) (event : EventEnvelope Payload) : Prop :=
  event.payload.order_id = some id ∧ event.payload.event_type = .order_deleted

/-- What the baseline does for an order with the events about others. -/
theorem lookup_baseline_deletion {id : ℕ} {values : List Contribution}
    {event : EventEnvelope Payload} (h : ¬ deletes id event) :
    Keyed.lookup Contribution.order_id id (baseline_deletion values event) =
      Keyed.lookup Contribution.order_id id values := by
  cases hpayload : event.payload
  case order_deleted order_id prior_status total created_at =>
    have hne : id ≠ order_id := by
      rintro rfl
      refine h ⟨?_, ?_⟩ <;> rw [hpayload] <;> rfl
    unfold baseline_deletion
    rw [hpayload]
    simp only
    split
    · rw [Keyed.lookup_append, if_neg hne.symm, Option.or_none]
    · split_ifs
      · exact Keyed.lookup_put_ne hne _
      · rfl
  all_goals
    unfold baseline_deletion
    rw [hpayload]

/-- The events about other orders leave the baseline of an order. -/
theorem lookup_foldl_other {id : ℕ} {events : List (EventEnvelope Payload)}
    (h : ∀ event ∈ events, ¬ deletes id event) (values : List Contribution) :
    Keyed.lookup Contribution.order_id id (events.foldl baseline_deletion values) =
      Keyed.lookup Contribution.order_id id values := by
  induction events generalizing values with
  | nil => rfl
  | cons event events ih =>
    rw [List.foldl_cons, ih fun e he => h e (List.mem_cons_of_mem event he),
      lookup_baseline_deletion (h event List.mem_cons_self)]

/-- The baseline of a deleted order after one of its deletions, where all tell the same. The list is
either still without the order, with a deletion to come, or has the deletion already. -/
theorem lookup_foldl_deleted {id : ℕ} {contribution : Contribution}
    (hstate : contribution.order_id = id) {events : List (EventEnvelope Payload)}
    (h : ∀ event ∈ events, deletes id event → incoming event = .ok contribution)
    {values : List Contribution}
    (hvalues : Keyed.lookup Contribution.order_id id values = none ∧
        (∃ event ∈ events, deletes id event) ∨
      Keyed.lookup Contribution.order_id id values = some contribution) :
    Keyed.lookup Contribution.order_id id (events.foldl baseline_deletion values) =
      some contribution := by
  -- The induction is on the events that are still to be replayed.
  induction events generalizing values with
  -- Without events left the deletion must have been stored.
  | nil =>
    rcases hvalues with ⟨-, event, hevent, -⟩ | hsome
    · exact absurd hevent List.not_mem_nil
    · exact hsome
  | cons event events ih =>
    refine ih (fun e he => h e (List.mem_cons_of_mem event he)) ?_
    by_cases hdeletes : deletes id event
    · -- The first deletion is stored, and those after it carry no greater revision.
      right
      have hincoming := h event List.mem_cons_self hdeletes
      obtain ⟨prior_status, total, created_at, hpayload⟩ := deletion_payload hdeletes.1 hdeletes.2
      obtain rfl := Except.ok.inj ((incoming_deleted hpayload).symm.trans hincoming)
      unfold baseline_deletion
      rw [hpayload]
      simp only
      rcases hvalues with ⟨hnone, -⟩ | hsome
      · rw [hnone]
        simp only
        rw [Keyed.lookup_append, hnone, if_pos rfl, Option.none_or]
      · rw [hsome]
        simp only [gt_iff_lt, lt_irrefl, if_false]
        exact hsome
    · rw [lookup_baseline_deletion hdeletes]
      -- An event that does not delete the order leaves its row alone.
      rcases hvalues with ⟨hnone, other, hother, hdeletes'⟩ | hsome
      · rcases List.mem_cons.mp hother with rfl | hother
        · exact absurd hdeletes' hdeletes
        · exact Or.inl ⟨hnone, other, hother, hdeletes'⟩
      · exact Or.inr hsome

/-- The contributions of the live orders. The order's own row comes last, if it is live. -/
theorem lookup_live {orders : List Order} (hunique : Keyed.Unique Order.order_id orders) (id : ℕ)
    (values : List Contribution) :
    Keyed.lookup Contribution.order_id id (orders.foldl (fun values order =>
        Keyed.upsert Contribution.order_id (live_contribution order) values) values) =
      ((Keyed.lookup Order.order_id id orders).map live_contribution).or
        (Keyed.lookup Contribution.order_id id values) := by
  have hfold : orders.foldl (fun values order =>
      Keyed.upsert Contribution.order_id (live_contribution order) values) values =
        (orders.map live_contribution).foldl (fun values value =>
          Keyed.upsert Contribution.order_id value values) values := by rw [List.foldl_map]
  rw [hfold, Keyed.lookup_foldl_upsert]
  · congr 1
    unfold Keyed.lookup
    rw [List.find?_map]
    rfl
  · unfold Keyed.Unique
    rw [List.map_map]
    exact hunique

section Baseline

variable {db : Branch} {id : ℕ}

/-- The baseline of a live order is its row. None of its events deletes it, so no other row replaces
it. -/
theorem lookup_baseline_live (hunique : Keyed.Unique Order.order_id db.orders)
    (hkept : ∀ event ∈ db.order_events id, event.payload.event_type ≠ .order_deleted) {order : Order}
    (horder : Keyed.lookup Order.order_id id db.orders = some order) :
    Keyed.lookup Contribution.order_id id (baseline db.orders db.events) =
      some (live_contribution order) := by
  -- No deletion of a live order is retained.
  have hnone : ∀ event ∈ db.events, ¬ deletes id event := by
    rintro event hevent ⟨hid, htype⟩
    exact hkept event (mem_order_events hevent hid) htype
  unfold baseline
  simp only
  rw [lookup_foldl_other hnone, lookup_live hunique, horder]
  rfl

/-- The baseline of an order that is gone is its deletion, if it has ever been there. The fold over
the live orders leaves nothing for the order, and the fold over the events stores its only deletion.
-/
theorem lookup_baseline_gone (hsales : db.Sales)
    (hnone : Keyed.lookup Order.order_id id db.orders = none) :
    (db.order_events id = [] →
      Keyed.lookup Contribution.order_id id (baseline db.orders db.events) = none) ∧
    (∀ deletion ∈ db.order_events id, ∀ prior_status total created_at,
      deletion.payload = .order_deleted id prior_status total created_at →
        Keyed.lookup Contribution.order_id id (baseline db.orders db.events) =
          some ⟨id, deletion.aggregate_revision, creation_date created_at, 0, .deleted⟩) := by
  have hfacts := facts_of_sales hsales id
  unfold baseline
  simp only
  generalize hvalues : db.orders.foldl (fun values order =>
    Keyed.upsert Contribution.order_id (live_contribution order) values) [] = values
  -- No live order has the identifier.
  have hstart : Keyed.lookup Contribution.order_id id values = none := by
    rw [← hvalues, lookup_live hsales.book.unique, hnone]
    rfl
  refine ⟨fun hevents => ?_, fun deletion hdeletion prior_status total created_at hpayload => ?_⟩
  · rw [lookup_foldl_other, hstart]
    rintro event hevent ⟨hid, -⟩
    have hmem := mem_order_events hevent hid
    rw [hevents] at hmem
    exact absurd hmem List.not_mem_nil
  · have htype : deletion.payload.event_type = .order_deleted := by
      rw [hpayload]
      rfl
    have hdeletes : ∃ event ∈ db.events, deletes id event :=
      ⟨deletion, (List.mem_filter.mp hdeletion).1, hfacts.about deletion hdeletion, htype⟩
    refine @lookup_foldl_deleted id _ rfl _ (fun event hevent hdeletes => ?_) _
      (Or.inl ⟨hstart, hdeletes⟩)
    -- All deletions of the order are one event, so they tell the same.
    rw [hfacts.deletion_unique (mem_order_events hevent hdeletes.1) hdeletion hdeletes.2 htype]
    exact incoming_deleted hpayload

/-- The baseline has no sale of an order that is gone. Whatever the fold over the events finds or
stores for the order has been made by a deletion. -/
theorem lookup_baseline_deleted (hunique : Keyed.Unique Order.order_id db.orders)
    (hnone : Keyed.lookup Order.order_id id db.orders = none) {value : Contribution}
    (hvalue : Keyed.lookup Contribution.order_id id (baseline db.orders db.events) = some value) :
    value.state = .deleted := by
  have hlive : Keyed.lookup Contribution.order_id id (db.orders.foldl (fun values order =>
      Keyed.upsert Contribution.order_id (live_contribution order) values) []) = none := by
    rw [lookup_live hunique, hnone]
    rfl
  unfold baseline at hvalue
  simp only at hvalue
  revert hvalue
  generalize db.orders.foldl (fun values order =>
    Keyed.upsert Contribution.order_id (live_contribution order) values) [] = values at hlive
  -- A value of the order can only come from a deletion.
  have hdeleted : ∀ value, Keyed.lookup Contribution.order_id id values = some value →
      value.state = .deleted := by simp [hlive]
  clear hlive
  -- The induction is on the events, from any list in which the order is deleted or missing.
  induction db.events generalizing values with
  | nil => exact hdeleted value
  | cons event events ih =>
    refine ih _ fun other hother => ?_
    by_cases hdeletes : deletes id event
    · obtain ⟨prior_status, total, created_at, hpayload⟩ := deletion_payload hdeletes.1 hdeletes.2
      unfold baseline_deletion at hother
      rw [hpayload] at hother
      simp only at hother
      split at hother
      · rename_i hlookup
        rw [Keyed.lookup_append, hlookup, if_pos rfl, Option.none_or] at hother
        rw [← Option.some.inj hother]
      · rename_i old hlookup
        split_ifs at hother
        · rcases Keyed.mem_put (Keyed.lookup_mem hother) with ⟨hmem, hne⟩ | rfl
          · exact absurd (Keyed.lookup_key hother) hne
          · rfl
        · exact hdeleted other hother
    · rw [lookup_baseline_deletion hdeletes] at hother
      exact hdeleted other hother

end Baseline

/-! ## The rebuild -/

/-- A rebuild leaves the totals of the completed orders. The order is either live, when its own row
is the baseline, or gone, when the baseline is a deletion or nothing and no contribution kept from
before can be a sale. -/
theorem Rebuilt.authoritative {db : Branch} {p p' : Projection} {values : List Contribution}
    (h : Rebuilt db.orders db.events p p' values)
    (hcontributions : Keyed.Unique Contribution.order_id p.contributions)
    (hunique : Keyed.Unique Order.order_id db.orders)
    (hkept : ∀ id, ∀ order ∈ Keyed.lookup Order.order_id id db.orders,
      ∀ event ∈ db.order_events id, event.payload.event_type ≠ .order_deleted) (day : Date) :
    p'.daily day = authoritative db.orders day := by
  -- The totals are those of the contributions, so it is enough to compare order by order.
  refine (h.balanced hcontributions).daily_authoritative hunique (fun id => ?_) day
  rw [h.get id]
  cases horder : Keyed.lookup Order.order_id id db.orders with
  -- No deletion event follows the row of a live order.
  | some order =>
    rw [h.joined.kept id _ (lookup_baseline_live hunique (hkept id order horder) horder)]
    rfl
  | none =>
    -- What is left of an order that is gone counts as nothing.
    have hstate : ∀ value, Keyed.lookup Contribution.order_id id values = some value →
        value.state = .deleted := by
      intro value hvalue
      cases hbaseline : Keyed.lookup Contribution.order_id id (baseline db.orders db.events) with
      | some value' =>
        obtain rfl := Option.some.inj (hvalue.symm.trans (h.joined.kept id value' hbaseline))
        exact lookup_baseline_deleted hunique horder hbaseline
      | none => exact (h.joined.added id value hbaseline hvalue).2
    cases hvalue : Keyed.lookup Contribution.order_id id values with
    | none => rfl
    | some value =>
      show (if value.state = .completed then _ else _) = _
      rw [hstate value hvalue]
      rfl

/-- Every contribution of the baseline meets the constraints. They come from a row of the orders
table or from an event, both of which have been validated. -/
theorem baseline_valid {db : Branch} (hsales : db.Sales) {id : ℕ} {value : Contribution}
    (h : Keyed.lookup Contribution.order_id id (baseline db.orders db.events) = some value) :
    1 ≤ value.revision ∧ 0 < value.order_id ∧ 0 ≤ value.total ∧
      (value.state = .completed ∨ value.total = 0) := by
  have hfacts := facts_of_sales hsales id
  -- An emitted event has a positive revision and a valid payload.
  have hvalid : ∀ event ∈ db.order_events id, 1 ≤ event.aggregate_revision ∧ event.payload.valid := by
    intro event hevent
    obtain ⟨-, -, -, hrevision, -, hpayload⟩ :=
      (hsales.enveloped event (List.mem_filter.mp hevent).1).valid
    exact ⟨hrevision, hpayload⟩
  cases horder : Keyed.lookup Order.order_id id db.orders with
  | some order =>
    rw [lookup_baseline_live hsales.book.unique ((hsales.sale id).kept order horder) horder] at h
    obtain rfl := Option.some.inj h
    obtain ⟨hid, hrevision⟩ := hsales.positive order (Keyed.lookup_mem horder)
    refine ⟨?_, hid, ?_, ?_⟩
    · show (1 : ℤ) ≤ order.revision
      omega
    · -- A completed order has announced its total, and the payload of the announcement bounds it.
      show 0 ≤ if order.status = .COMPLETED then order.total else 0
      split_ifs with hstatus
      · obtain ⟨event, hevent, htype⟩ := hfacts.sale.announced order horder hstatus
        obtain ⟨-, hpayload⟩ := hfacts.sale.completed order horder event hevent htype
        obtain ⟨-, hmoney⟩ := hpayload ▸ (hvalid event hevent).2
        exact hmoney.1
      · exact le_rfl
    · show (if order.status = .COMPLETED then ContributionState.completed else .inactive) = .completed ∨
        (if order.status = .COMPLETED then order.total else 0) = 0
      split_ifs with hstatus
      · exact Or.inl rfl
      · exact Or.inr rfl
  | none =>
    obtain ⟨hnever, hdeleted⟩ := lookup_baseline_gone hsales horder
    -- Without any event there is no baseline for the order at all.
    rcases hfacts.sale.gone horder with hnil | ⟨deletion, hdeletion, htype⟩
    · rw [hnever hnil] at h
      cases h
    · obtain ⟨prior_status, total, created_at, hpayload⟩ :=
        deletion_payload (hfacts.about deletion hdeletion) htype
      rw [hdeleted deletion hdeletion _ _ _ hpayload] at h
      obtain rfl := Option.some.inj h
      obtain ⟨hrevision, hpositive⟩ := hvalid deletion hdeletion
      obtain ⟨hid, -⟩ := hpayload ▸ hpositive
      exact ⟨hrevision, hid, le_rfl, Or.inr rfl⟩

/-- Nothing joins a baseline that has every existing contribution. Every row that is walked over has
been found, so none is added. -/
theorem foldlM_keep_watermark {existing values : List Contribution}
    (h : ∀ row ∈ existing, Keyed.lookup Contribution.order_id row.order_id values ≠ none) :
    existing.foldlM keep_watermark values = .ok values := by
  induction existing with
  | nil => rfl
  | cons row existing ih =>
    obtain ⟨value, hvalue⟩ := Option.ne_none_iff_exists'.mp (h row List.mem_cons_self)
    have hkeep : keep_watermark values row = .ok values := by
      unfold keep_watermark
      rw [hvalue]
      rfl
    rw [List.foldlM_cons, hkeep]
    exact ih fun other hother => h other (List.mem_cons_of_mem row hother)

/-- A rebuild leaves the restaurant of the projection. -/
theorem same_scope_replay (existing values : List Contribution) (p : Projection) :
    Projection.SameScope (values.foldl (replay existing) p) p := by
  induction values generalizing p with
  | nil => exact ⟨rfl, rfl⟩
  | cons value values ih =>
    have hstep : Projection.SameScope (replay existing p value) p :=
      (Projection.same_scope_move_totals _ none value).trans (Projection.same_scope_store p value _)
    exact (ih (replay existing p value)).trans hstep

/-- The days after a replay depend on the days before it and on what is replayed. -/
theorem replay_daily_sales (existing existing' values : List Contribution) {p q : Projection}
    (h : p.daily_sales = q.daily_sales) :
    (values.foldl (replay existing) p).daily_sales =
      (values.foldl (replay existing') q).daily_sales := by
  induction values generalizing p q with
  | nil => exact h
  | cons value values ih =>
    have hdelta : ∀ {p q : Projection}, p.daily_sales = q.daily_sales → ∀ day count sales,
        (p.delta day count sales).daily_sales = (q.delta day count sales).daily_sales := by
      intro p q h day count sales
      rw [Projection.delta_daily_sales, Projection.delta_daily_sales, h]
      unfold Projection.daily
      rw [h]
    refine ih ?_
    unfold replay
    simp only
    split_ifs
    · refine hdelta ?_ _ _ _
      rw [Projection.store_daily_sales, Projection.store_daily_sales, h]
    · rw [Projection.store_daily_sales, Projection.store_daily_sales, h]

section Rebuild

variable {db : Branch} {covered covered' : EventEnvelope Payload → Prop} {p : Projection}

/-- An order with a contribution has been there. -/
theorem Tracks.known {rebuilt : Prop} {id : ℕ} {order : Option Order}
    {events : List (EventEnvelope Payload)} {value : Contribution}
    (h : Tracks rebuilt id order events covered (some value)) : order ≠ none ∨ events ≠ [] := by
  cases h with
  | inactive hrebuilt hknown => exact hknown
  | completed event hmem => exact Or.inr (List.ne_nil_of_mem hmem)
  | deleted event hmem => exact Or.inr (List.ne_nil_of_mem hmem)

/-- The baseline has every order that has been there. It is live or has a deletion event, and either
makes a row. -/
theorem baseline_known (hsales : db.Sales) {id : ℕ}
    (h : Keyed.lookup Order.order_id id db.orders ≠ none ∨ db.order_events id ≠ []) :
    Keyed.lookup Contribution.order_id id (baseline db.orders db.events) ≠ none := by
  cases horder : Keyed.lookup Order.order_id id db.orders with
  | some order =>
    rw [lookup_baseline_live hsales.book.unique ((hsales.sale id).kept order horder) horder]
    exact Option.some_ne_none _
  | none =>
    have hevents := h.resolve_left (not_not.mpr horder)
    have hfacts := facts_of_sales hsales id
    rcases hfacts.sale.gone horder with hnil | ⟨deletion, hdeletion, htype⟩
    · exact absurd hnil hevents
    · obtain ⟨prior_status, total, created_at, hpayload⟩ :=
        deletion_payload (hfacts.about deletion hdeletion) htype
      rw [(lookup_baseline_gone hsales horder).2 deletion hdeletion _ _ _ hpayload]
      exact Option.some_ne_none _

/-- The baseline covers every event. Each order is live, gone with a deletion, or has never been
there. -/
theorem tracks_baseline (hsales : db.Sales) (hcovered : ∀ event ∈ db.events, covered event) (id : ℕ) :
    Tracks True id (Keyed.lookup Order.order_id id db.orders) (db.order_events id) covered
      (Keyed.lookup Contribution.order_id id (baseline db.orders db.events)) := by
  have hfacts := facts_of_sales hsales id
  have hall : ∀ event ∈ db.order_events id, covered event :=
    fun event hevent => hcovered event (List.mem_filter.mp hevent).1
  obtain ⟨hlive, hnever⟩ := hfacts.tracks_baseline trivial hall
  cases horder : Keyed.lookup Order.order_id id db.orders with
  | some order =>
    rw [lookup_baseline_live hsales.book.unique ((hsales.sale id).kept order horder) horder, ← horder]
    exact hlive order horder
  | none =>
    obtain ⟨hnone, hdeleted⟩ := lookup_baseline_gone hsales horder
    rcases hfacts.sale.gone horder with hnil | ⟨deletion, hdeletion, htype⟩
    · rw [hnone hnil, ← horder]
      exact hnever horder hnil
    · obtain ⟨prior_status, total, created_at, hpayload⟩ :=
        deletion_payload (hfacts.about deletion hdeletion) htype
      rw [hdeleted deletion hdeletion _ _ _ hpayload]
      exact .deleted deletion hdeletion (hall deletion hdeletion) _ _ _ hpayload

/-- A rebuild succeeds and covers every event; what it leaves is the replay of the baseline. No
contribution of the projection is unknown to the baseline, so joining the old contributions to it
adds nothing. -/
theorem Follows.rebuild (h : Follows True db covered p) (hsales : db.Sales)
    (hcovered : ∀ event ∈ db.events, covered' event) :
    ∃ existing p', rebuild_analytics_projection db.organization_id db.restaurant_id db.orders db.events
        p = .ok p' ∧
      Follows True db covered' p' ∧
      Rebuilt db.orders db.events p p' (baseline db.orders db.events) ∧
      p'.daily_sales =
        ((baseline db.orders db.events).foldl (replay existing) p.clear_daily).daily_sales := by
  set existing := p.contributions.insertionSort fun row row' => row.order_id ≤ row'.order_id
  set p' := (baseline db.orders db.events).foldl (replay existing) p.clear_daily with hp'
  have hunique := h.represents.contributions
  -- Every stored contribution is tracked, hence known to the baseline.
  have hkeep : existing.foldlM keep_watermark (baseline db.orders db.events) =
      .ok (baseline db.orders db.events) := by
    refine foldlM_keep_watermark fun row hrow => baseline_known hsales ?_
    have hget : p.get row.order_id = some row :=
      hunique.lookup_eq_some.mpr ⟨(List.mem_insertionSort _).mp hrow, rfl⟩
    have htracks := h.tracks row.order_id
    rw [hget] at htracks
    exact htracks.known
  have hrebuilt : Rebuilt db.orders db.events p p' (baseline db.orders db.events) :=
    rebuilt_of_joined hunique hkeep
  have hbalanced := hrebuilt.balanced hunique
  -- The constraints hold of the baseline, and the rebuilt rows are the rows of the baseline.
  have hconstraints : p'.constraints := by
    refine hbalanced.constraints fun row hrow => ?_
    have hget : p'.get row.order_id = some row :=
      hbalanced.contributions.lookup_eq_some.mpr ⟨hrow, rfl⟩
    exact baseline_valid hsales (hrebuilt.get row.order_id ▸ hget)
  have hscope : p.scope db.organization_id db.restaurant_id = .ok () :=
    ensure_eq_ok.mpr ⟨h.restaurant_id.symm, h.organization_id.symm⟩
  have hsame : Projection.SameScope p' p.clear_daily := same_scope_replay existing _ _
  refine ⟨existing, p', ?_, ⟨⟨hbalanced, hconstraints⟩, hsame.organization_id.trans h.organization_id,
    hsame.restaurant_id.trans h.restaurant_id, fun id => ?_⟩, hrebuilt, rfl⟩
  · unfold rebuild_analytics_projection
    rw [hscope]
    show (existing.foldlM keep_watermark (baseline db.orders db.events) >>= fun values =>
      (values.foldl (replay existing) p.clear_daily).flush) = _
    rw [hkeep]
    show (ensure p'.constraints Failure.DatabaseError >>= fun _ => pure p') = _
    rw [(ensure_eq_ok.mpr hconstraints : ensure p'.constraints _ = .ok ())]
    rfl
  · -- Every event is covered now, so each order is where the rebuild has put it.
    rw [hrebuilt.get id]
    exact tracks_baseline hsales hcovered id

/-- A second rebuild changes nothing. The baseline is the same, and what is stored already are its
rows. -/
theorem Follows.rebuild_twice (h : Follows True db covered p) (hsales : db.Sales) {p' : Projection}
    (hrebuild : rebuild_analytics_projection db.organization_id db.restaurant_id db.orders db.events p =
      .ok p') :
    rebuild_analytics_projection db.organization_id db.restaurant_id db.orders db.events p' =
      .ok p' := by
  obtain ⟨existing, p₁, hok, h', hrebuilt, hdays⟩ :=
    @Follows.rebuild db covered (fun _ => True) p h hsales fun _ _ => trivial
  obtain rfl : p₁ = p' := Except.ok.inj (hok.symm.trans hrebuild)
  obtain ⟨existing', p'', hok', h'', hrebuilt', hdays'⟩ :=
    @Follows.rebuild db _ (fun _ => True) p₁ h' hsales fun _ _ => trivial
  rw [hok']
  -- The second replay stores what is there and counts it the same way.
  refine congrArg Except.ok (Projection.ext ?_ ?_ ?_ ?_)
  · exact h''.organization_id.trans h'.organization_id.symm
  · exact h''.restaurant_id.trans h'.restaurant_id.symm
  · rw [hrebuilt'.contributions]
    refine Keyed.foldl_upsert_of_lookup h'.represents.contributions fun value hvalue => ?_
    exact (hrebuilt.get value.order_id).trans
      ((unique_baseline db.orders db.events).lookup_eq_some.mpr ⟨hvalue, rfl⟩)
  · rw [hdays', hdays]
    exact replay_daily_sales _ _ _ rfl

end Rebuild

/-! ## Runs -/

/-- What happens to a restaurant and its projection. -/
inductive Op
  /-- A request is served. -/
  | request (a : Act)
  /-- One of the emitted events is processed. -/
  | process (position : ℕ)
  /-- The projection is rebuilt. -/
  | rebuild

/-- A restaurant with its projection, and what has been done with its events. -/
structure Site where
  /-- The steps of the requests so far. -/
  requests : List Act
  /-- The projection. -/
  projection : Projection
  /-- The events that have been processed. -/
  processed : List (EventEnvelope Payload)
  /-- The outbox at the last rebuild. -/
  reflected : List (EventEnvelope Payload)

section Site

variable (lib : Library) (start : ℕ → NewBranch) (k : ℕ)

/-- The rows of the restaurant. They are those after the commands that the site has seen, whatever
has been processed. -/
def Site.db (site : Site) : Branch := (run lib (legacy start) site.requests).rows k

/-- The restaurant before its first request. Nothing is projected, processed or reflected. -/
def Site.new : Site := ⟨[], ⟨(start k).organization_id, (start k).restaurant_id, [], []⟩, [], []⟩

/-- One step. A transaction that fails leaves no trace. -/
def Site.step (site : Site) : Op → Site
  | .request a => { site with requests := site.requests ++ [a] }
  | .process position =>
    match (analytic_events (site.db lib start k))[position]? with
    | none => site
    | some event =>
      match apply_order_event event site.projection with
      | .ok (projection, _) =>
        { site with
          projection := projection
          processed := site.processed ++ [event] }
      | .error _ => site
  | .rebuild =>
    let db := site.db lib start k
    match rebuild_analytics_projection db.organization_id db.restaurant_id db.orders db.events
        site.projection with
    | .ok projection =>
      { site with
        projection := projection
        reflected := db.events }
    | .error _ => site

/-- The events that the projection has covered. Either it has been processed, or the last rebuild
has found it in the outbox. -/
def Site.covered (site : Site) (event : EventEnvelope Payload) : Prop :=
  event ∈ site.processed ∨ event ∈ site.reflected

/-- The projection follows the restaurant, and no event is covered before it is emitted. -/
structure Site.Sound (site : Site) : Prop where
  /-- It follows. -/
  follows : Follows True (site.db lib start k) site.covered site.projection
  /-- Covered events are emitted. -/
  emitted : ∀ event, site.covered event → event ∈ (site.db lib start k).events
  /-- Only events that concern analytics are processed. -/
  processed : ∀ event ∈ site.processed, analytic event

variable {lib start k} {site : Site}

/-- A request keeps the site sound. The events the projection has seen stay emitted, and the ones
the request adds are not among them. -/
theorem Site.Sound.request (h : site.Sound lib start k) (a : Act) :
    (Site.step lib start k site (.request a)).Sound lib start k := by
  have hsales := run_sales lib start site.requests k
  have hsales' := run_sales lib start (site.requests ++ [a]) k
  obtain ⟨horganization, hrestaurant, -⟩ := run_enveloped lib (legacy start) site.requests k
  obtain ⟨horganization', hrestaurant', -⟩ :=
    run_enveloped lib (legacy start) (site.requests ++ [a]) k
  refine ⟨⟨h.follows.represents, ?_, ?_, fun id => ?_⟩, fun event hcovered => ?_, h.processed⟩
  · -- A command changes neither the organization nor the restaurant of the branch.
    exact h.follows.organization_id.trans (horganization.trans horganization'.symm)
  · refine h.follows.restaurant_id.trans ?_
    exact congrArg Nat.cast (hrestaurant.trans hrestaurant'.symm)
  · -- An order takes one step of its own, and its events are appended.
    obtain ⟨events, hevents, hstep⟩ := run_order_step lib (legacy start) site.requests a k id
    have hfacts' := facts_of_sales hsales' id
    rw [hevents] at hfacts'
    show Tracks True id
      (Keyed.lookup Order.order_id id ((run lib (legacy start) (site.requests ++ [a])).rows k).orders)
      (((run lib (legacy start) (site.requests ++ [a])).rows k).order_events id)
      site.covered (site.projection.get id)
    rw [hevents]
    refine (h.follows.tracks id).request (facts_of_sales hsales id) hstep
      (run_order_fresh lib (legacy start) site.requests k id a) hfacts' fun event hcovered hnew => ?_
    -- The revisions increase, so no new event is among those that have been emitted.
    have hold : event ∈ ((run lib (legacy start) site.requests).rows k).order_events id :=
      mem_order_events (h.emitted event hcovered) (hfacts'.about event (List.mem_append_right _ hnew))
    have hlt := (List.pairwise_append.mp hfacts'.increasing).2.2 event hold event hnew
    omega
  · -- The outbox only grows.
    obtain ⟨events, hevents⟩ := run_events_append lib (legacy start) site.requests a k
    show event ∈ ((run lib (legacy start) (site.requests ++ [a])).rows k).events
    rw [hevents]
    exact List.mem_append_left _ (h.emitted event hcovered)

/-- An emitted event can be processed, which keeps the site sound. Which event is taken is given by
a position among the analytic events of the outbox. -/
theorem Site.Sound.process (h : site.Sound lib start k) (position : ℕ) :
    (Site.step lib start k site (.process position)).Sound lib start k := by
  have hsales : (site.db lib start k).Sales := run_sales lib start site.requests k
  unfold Site.step
  simp only
  split
  · -- A position past the end does nothing.
    exact h
  · rename_i event hevent
    obtain ⟨hmem, hanalytic⟩ := List.mem_filter.mp (List.mem_of_getElem? hevent)
    -- The event is one of the outbox, hence it can be processed and is covered afterwards.
    obtain ⟨p', outcome, happly, hfollows⟩ := h.follows.apply hsales hmem (by simpa using hanalytic)
    rw [happly]
    refine ⟨⟨hfollows.represents, hfollows.organization_id, hfollows.restaurant_id, fun id => ?_⟩,
      fun other hcovered => ?_, fun other hprocessed => ?_⟩
    · refine (hfollows.tracks id).congr fun other _ _ => ?_
      unfold Site.covered
      simp only [List.mem_append, List.mem_singleton]
      exact or_right_comm
    · -- Everything that has been processed or reflected was emitted.
      rcases hcovered with hprocessed | hreflected
      · rcases List.mem_append.mp hprocessed with hprocessed | hnew
        · exact h.emitted other (Or.inl hprocessed)
        · rw [List.mem_singleton.mp hnew]
          exact hmem
      · exact h.emitted other (Or.inr hreflected)
    · rcases List.mem_append.mp hprocessed with hprocessed | hnew
      · exact h.processed other hprocessed
      · rw [List.mem_singleton.mp hnew]
        simpa using hanalytic

/-- A rebuild succeeds, and keeps the site sound. The site has then reflected every event that the
outbox holds. -/
theorem Site.Sound.rebuild (h : site.Sound lib start k) :
    (Site.step lib start k site .rebuild).Sound lib start k := by
  have hsales : (site.db lib start k).Sales := run_sales lib start site.requests k
  obtain ⟨-, p', hok, hfollows, -⟩ := @Follows.rebuild _ _ (fun event =>
    event ∈ site.processed ∨ event ∈ (site.db lib start k).events) _ h.follows hsales
      fun event hevent => Or.inr hevent
  unfold Site.step
  simp only
  rw [hok]
  refine ⟨hfollows, fun event hcovered => ?_, h.processed⟩
  rcases hcovered with hprocessed | hreflected
  · exact h.emitted event (Or.inl hprocessed)
  · exact hreflected

/-- Every step keeps the site sound. -/
theorem Site.Sound.step (h : site.Sound lib start k) (op : Op) :
    (Site.step lib start k site op).Sound lib start k := by
  cases op with
  | request a => exact h.request a
  | process position => exact h.process position
  | rebuild => exact h.rebuild

/-- The site is sound before its first request. -/
theorem sound_new : (Site.new start k).Sound lib start k := by
  have hempty := follows_empty True ((Site.new start k).db lib start k)
  have hnone : ∀ event, ¬ (Site.new start k).covered event := by
    rintro event (hevent | hevent) <;> exact absurd hevent List.not_mem_nil
  refine ⟨⟨hempty.represents, rfl, rfl, fun id => (hempty.tracks id).congr fun event _ _ => ?_⟩,
    fun event hcovered => absurd hcovered (hnone event),
    fun event hevent => absurd (Or.inl hevent) (hnone event)⟩
  exact iff_of_false (hnone event) not_false

variable (lib start k)

/-- The site after a run. It starts from the restaurant before its first request. -/
def Site.run (ops : List Op) : Site := Transition.run (Site.step lib start k) (Site.new start k) ops

/-- The site is sound in every reachable state. -/
theorem run_sound (ops : List Op) : (Site.run lib start k ops).Sound lib start k :=
  @Transition.run_invariant _ _ (Site.step lib start k) (fun site => site.Sound lib start k)
    (fun _ op h => h.step op) _ sound_new ops

/-- A rebuild of the analytics projection commutes with queued events. In every state that requests,
processed events and rebuilds lead to, every emitted event can be processed; a rebuild succeeds,
leaves the totals of the completed orders, and a second one changes nothing; and once the events that
the last rebuild has found are processed, the completed contributions and the totals are those of
processing the same events, in any order and without a rebuild. -/
theorem rebuild_commutes (ops : List Op) :
    let site := Site.run lib start k ops
    let db := site.db lib start k
    let rebuild := rebuild_analytics_projection db.organization_id db.restaurant_id db.orders db.events
    (∀ event ∈ analytic_events db, ∃ p outcome,
      apply_order_event event site.projection = .ok (p, outcome)) ∧
    (∃ p, rebuild site.projection = .ok p ∧ (∀ day, p.daily day = authoritative db.orders day) ∧
      reconcile db.orders p = [] ∧ rebuild p = .ok p) ∧
    ((∀ event ∈ site.reflected, analytic event → event ∈ site.processed) →
      ∀ events, (∀ event, event ∈ events ↔ event ∈ site.processed) →
        ∃ p, process events ⟨db.organization_id, db.restaurant_id, [], []⟩ = .ok p ∧
          (∀ id, sold (p.get id) = sold (site.projection.get id)) ∧
          ∀ day, p.daily day = site.projection.daily day) := by
  intro site db rebuild
  -- The induction over the run is `run_sound`.
  have hsound := run_sound lib start k ops
  have hsales : db.Sales := run_sales lib start site.requests k
  refine ⟨fun event hevent => ?_, ?_, fun hreflected events hevents => ?_⟩
  · obtain ⟨hmem, hanalytic⟩ := List.mem_filter.mp hevent
    obtain ⟨p, outcome, happly, -⟩ := hsound.follows.apply hsales hmem (by simpa using hanalytic)
    exact ⟨p, outcome, happly⟩
  · obtain ⟨-, p, hok, hfollows, -⟩ :=
      @Follows.rebuild db _ (fun _ => True) _ hsound.follows hsales fun _ _ => trivial
    have hdaily := hfollows.authoritative hsales fun _ _ => trivial
    exact ⟨p, hok, hdaily, reconcile_eq_nil hdaily, hsound.follows.rebuild_twice hsales hok⟩
  · -- Both sides follow the same branch, one with a rebuild and one without.
    have hanalytic : ∀ event ∈ events, event ∈ analytic_events db := by
      intro event hevent
      have hprocessed := (hevents event).mp hevent
      exact List.mem_filter.mpr ⟨hsound.emitted event (Or.inl hprocessed),
        decide_eq_true (hsound.processed event hprocessed)⟩
    obtain ⟨p, hprocess, hfollows⟩ := (follows_empty False db).process hsales hanalytic
    -- What a rebuild has found has been processed as well.
    have hsame : ∀ event ∈ analytic_events db, (False ∨ event ∈ events) ↔ site.covered event := by
      intro event hevent
      rw [false_or, hevents]
      refine ⟨Or.inl, ?_⟩
      rintro (hprocessed | hfound)
      · exact hprocessed
      · exact hreflected event hfound (by simpa using (List.mem_filter.mp hevent).2)
    obtain ⟨hsold, hdaily, -⟩ := hfollows.agree hsound.follows hsales hsame
    exact ⟨p, hprocess, hsold, hdaily⟩

end Site

end RestaurantOS.Analytics
