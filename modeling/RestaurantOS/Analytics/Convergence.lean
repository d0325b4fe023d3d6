import RestaurantOS.Analytics.Tracking

/-!
# The projection converges

Processing events of the outbox, in any order and any number of times, gives every order the
contribution that its covered events determine (`Follows`), so the order of processing does not
matter. When all events have been processed, the totals are those of the orders. -/

namespace RestaurantOS.Analytics

open Fallible Events Orders

/-- The type of the payload decides. -/
instance (event : EventEnvelope Payload) : Decidable (analytic event) :=
  inferInstanceAs (Decidable (_ ∨ _))

/-- The events of the outbox that the projection consumes. -/
def analytic_events (db : Branch) : List (EventEnvelope Payload) :=
  db.events.filter fun event => analytic event

/-- The order that an event is about. Both kinds carry the order in the payload, so the contribution
is of the same order. -/
theorem analytic_order {event : EventEnvelope Payload} (h : analytic event) :
    ∃ id new, event.payload.order_id = some id ∧ incoming event = .ok new ∧ new.order_id = id ∧
      new.revision = event.aggregate_revision ∧ (new.state = .completed ∨ new.total = 0) ∧
        (event.payload.valid → 0 < id ∧ 0 ≤ new.total) := by
  cases hpayload : event.payload
  case order_completed id total created_at =>
    refine ⟨id, _, rfl, incoming_completed hpayload, rfl, rfl, Or.inl rfl, ?_⟩
    rintro ⟨hid, hmoney⟩
    exact ⟨hid, hmoney.1⟩
  case order_deleted id prior_status total created_at =>
    refine ⟨id, _, rfl, incoming_deleted hpayload, rfl, rfl, Or.inr rfl, ?_⟩
    rintro ⟨hid, -⟩
    exact ⟨hid, le_rfl⟩
  all_goals
    rcases h with h | h <;> rw [hpayload] at h <;> cases h

/-- What is known of an order of a restaurant. -/
theorem facts_of_sales {db : Branch} (h : db.Sales) (id : ℕ) :
    Facts id (Keyed.lookup Order.order_id id db.orders) (db.order_events id) := by
  refine ⟨h.sale id, fun event hevent => ?_, h.book.increasing id,
    fun o ho => h.book.latest id o ho, fun o ho => Keyed.lookup_key ho⟩
  simpa using (List.mem_filter.mp hevent).2

/-- An event of the outbox is one of the events about its order. -/
theorem mem_order_events {db : Branch} {event : EventEnvelope Payload} {id : ℕ}
    (hevent : event ∈ db.events) (hid : event.payload.order_id = some id) :
    event ∈ db.order_events id :=
  List.mem_filter.mpr ⟨hevent, by simpa using hid⟩

/-! ## Balanced projections -/

section Balance

variable {p q : Projection}

/-- A balanced projection meets its constraints if its contributions do. -/
theorem Balanced.constraints (h : Balanced p)
    (hrows : ∀ row ∈ p.contributions, 1 ≤ row.revision ∧ 0 < row.order_id ∧ 0 ≤ row.total ∧
      (row.state = .completed ∨ row.total = 0)) : p.constraints := by
  refine ⟨hrows, fun row hrow => ?_⟩
  have hdaily : p.daily row.creation_date = (row.order_count, row.sales) := by
    unfold Projection.daily
    rw [h.daily_sales.lookup_eq_some.mpr ⟨hrow, rfl⟩]
  have htotals := h.totals row.creation_date
  rw [hdaily, sum_share] at htotals
  obtain ⟨hcount, hsales⟩ := Prod.mk.inj htotals
  rw [hcount, hsales]
  refine ⟨Int.natCast_nonneg _, List.sum_nonneg fun total htotal => ?_⟩
  obtain ⟨c, hc, rfl⟩ := List.mem_map.mp htotal
  exact (hrows c (List.mem_filter.mp hc).1).2.2.1

/-- Projections that count the orders alike have the same totals. -/
theorem Balanced.daily_eq (h : Balanced p) (h' : Balanced q)
    (hsold : ∀ id, sold (p.get id) = sold (q.get id)) (day : Date) : p.daily day = q.daily day := by
  rw [h.totals, h'.totals]
  refine h.contributions.sum_eq h'.contributions fun id => ?_
  have hid := hsold id
  unfold Projection.get at hid
  rw [share_of_sold, share_of_sold, hid]

/-- A projection that counts the orders as they are has the authoritative totals. -/
theorem Balanced.daily_authoritative (h : Balanced p) {orders : List Order}
    (hunique : Keyed.Unique Order.order_id orders)
    (hsold : ∀ id, sold (p.get id) =
      sold ((Keyed.lookup Order.order_id id orders).map live_contribution)) (day : Date) :
    p.daily day = authoritative orders day := by
  rw [h.totals, authoritative_eq]
  refine h.contributions.sum_eq hunique fun id => ?_
  have hid := hsold id
  unfold Projection.get at hid
  rw [share_of_sold, hid, ← share_of_sold]
  cases Keyed.lookup Order.order_id id orders <;> rfl

/-- Where the totals are authoritative, reconciling finds no difference. -/
theorem reconcile_eq_nil {orders : List Order} (h : ∀ day, p.daily day = authoritative orders day) :
    reconcile orders p = [] := by
  refine List.filterMap_eq_nil_iff.mpr fun day _ => ?_
  simp only
  rw [if_neg (not_not.mpr (h day).symm)]

end Balance

/-! ## Processing -/

/-- The projection of a restaurant knows of its orders what the covered events tell. -/
structure Follows (rebuilt : Prop) (db : Branch) (covered : EventEnvelope Payload → Prop)
    (p : Projection) : Prop where
  /-- The totals represent the contributions. -/
  represents : Represents p
  /-- The organization. -/
  organization_id : p.organization_id = db.organization_id
  /-- The restaurant. -/
  restaurant_id : p.restaurant_id = db.restaurant_id
  /-- The contribution of each order. -/
  tracks : ∀ id, Tracks rebuilt id (Keyed.lookup Order.order_id id db.orders) (db.order_events id)
    covered (p.get id)

/-- Nothing has been covered yet. -/
theorem follows_empty (rebuilt : Prop) (db : Branch) :
    Follows rebuilt db (fun _ => False) ⟨db.organization_id, db.restaurant_id, [], []⟩ :=
  ⟨⟨⟨.nil, .nil, fun _ => rfl⟩, by simp, by simp⟩, rfl, rfl,
    fun _ => .unseen fun _ _ _ => not_false⟩

section Processing

variable {rebuilt : Prop} {db : Branch} {covered : EventEnvelope Payload → Prop} {p : Projection}

/-- An event of the outbox can be processed, and is covered then. It meets the scope check, since a
branch writes only its own identifiers, and it meets the constraints of the tables, since its
payload is valid. -/
theorem Follows.apply (h : Follows rebuilt db covered p) (hsales : db.Sales)
    {event : EventEnvelope Payload} (hevent : event ∈ db.events) (hanalytic : analytic event) :
    ∃ p' outcome, apply_order_event event p = .ok (p', outcome) ∧
      Follows rebuilt db (fun e => covered e ∨ e = event) p' := by
  obtain ⟨id, new, hid, hnew, horder, hrevision, hstate, hvalid⟩ := analytic_order hanalytic
  have henveloped := hsales.enveloped event hevent
  obtain ⟨-, -, -, hpositive, -, hpayload⟩ := henveloped.valid
  -- `_scope` compares the identifiers of the projection with those of the event.
  have hscope : p.scope event.organization_id event.restaurant_id = .ok () := by
    refine ensure_eq_ok.mpr ⟨?_, ?_⟩
    · rw [henveloped.restaurant_id, h.restaurant_id]
    · rw [henveloped.organization_id, h.organization_id]
  -- The order the event is about is tracked with the event covered.
  have hself := (h.tracks id).apply (facts_of_sales hsales id) (mem_order_events hevent hid) hanalytic hnew
  -- For another order nothing is covered that was not covered before.
  have hothers : ∀ id', id' ≠ id → Tracks rebuilt id' (Keyed.lookup Order.order_id id' db.orders)
      (db.order_events id') (fun e => covered e ∨ e = event) (p.get id') := by
    intro id' hne
    refine (h.tracks id').congr fun e he _ => or_iff_left ?_
    rintro rfl
    have habout := (facts_of_sales hsales id').about e he
    rw [hid] at habout
    exact hne (Option.some.inj habout).symm
  unfold apply_order_event
  rw [hnew]
  show ∃ p' outcome, (p.scope event.organization_id event.restaurant_id >>= _) = _ ∧ _
  rw [hscope]
  -- The event is stale or is applied, as `_should_apply` says.
  cases happly : should_apply (p.get new.order_id) new with
  | false =>
    refine ⟨p, .skipped, ?_, h.represents, h.organization_id, h.restaurant_id, fun id' => ?_⟩
    · show (if (!should_apply (p.get new.order_id) new) = true then _ else _) = _
      rw [happly]
      rfl
    · by_cases hid' : id' = id
      · rw [hid']
        rw [horder] at happly
        rwa [happly, if_neg Bool.false_ne_true] at hself
      · exact hothers id' hid'
  | true =>
    set p' := (move_totals p (p.get new.order_id) new).store new (p.get new.order_id) with hp'
    have hbalanced : Balanced p' := h.represents.toBalanced.apply new
    have hcontributions : p'.contributions =
        Keyed.upsert Contribution.order_id new p.contributions := contributions_apply p new
    -- The `CHECK` constraints hold of the rows that were there, and of the new one by its payload.
    have hconstraints : p'.constraints := by
      refine hbalanced.constraints fun row hrow => ?_
      rw [hcontributions] at hrow
      rcases Keyed.mem_upsert hrow with ⟨hrow, -⟩ | rfl
      · exact h.represents.constraints.1 row hrow
      · obtain ⟨hpos, htotal⟩ := hvalid hpayload
        exact ⟨by omega, by omega, htotal, hstate⟩
    obtain ⟨horganization, hrestaurant⟩ := (Projection.same_scope_store
      (move_totals p (p.get new.order_id) new) new (p.get new.order_id)).trans
        (Projection.same_scope_move_totals p (p.get new.order_id) new)
    refine ⟨p', .processed, ?_, ⟨hbalanced, hconstraints⟩,
      horganization.trans h.organization_id, hrestaurant.trans h.restaurant_id, fun id' => ?_⟩
    · show (if (!should_apply (p.get new.order_id) new) = true then _ else p'.flush >>= _) = _
      rw [happly]
      have hflush : p'.flush = .ok p' := by
        unfold Projection.flush
        rw [(ensure_eq_ok.mpr hconstraints : ensure p'.constraints _ = .ok ())]
        rfl
      show (p'.flush >>= fun db => pure (db, Outcome.processed)) = _
      rw [hflush]
      rfl
    · -- The contribution of the order is the new one, and those of the others stay.
      have hget : p'.get id' = if id' = new.order_id then some new else p.get id' := by
        unfold Projection.get
        rw [hcontributions, Keyed.lookup_upsert]
      rw [hget, horder]
      split_ifs with hid'
      · rw [hid']
        rw [horder] at happly
        rwa [happly, if_pos rfl] at hself
      · exact hothers id' hid'

/-- Processing a list of events, one after the other. -/
def process (events : List (EventEnvelope Payload)) (p : Projection) : Except Failure Projection :=
  events.foldlM (fun p event => do
    let (p, _) ← apply_order_event event p
    pure p) p

/-- Events of the outbox can be processed in any order, and are covered then. -/
theorem Follows.process (h : Follows rebuilt db covered p) (hsales : db.Sales)
    {events : List (EventEnvelope Payload)} (hevents : ∀ event ∈ events, event ∈ analytic_events db) :
    ∃ p', process events p = .ok p' ∧
      Follows rebuilt db (fun e => covered e ∨ e ∈ events) p' := by
  induction events generalizing covered p with
  | nil =>
    refine ⟨p, rfl, h.represents, h.organization_id, h.restaurant_id, fun id => ?_⟩
    exact (h.tracks id).congr fun e _ _ => or_iff_left List.not_mem_nil
  | cons event events ih =>
    obtain ⟨hmem, hanalytic⟩ := List.mem_filter.mp (hevents event List.mem_cons_self)
    obtain ⟨p₁, outcome, happly, h₁⟩ := h.apply hsales hmem (by simpa using hanalytic)
    obtain ⟨p', hprocess, h'⟩ := ih h₁ fun e he => hevents e (List.mem_cons_of_mem event he)
    refine ⟨p', ?_, h'.represents, h'.organization_id, h'.restaurant_id, fun id => ?_⟩
    · unfold Analytics.process at hprocess ⊢
      rw [List.foldlM_cons, happly]
      exact hprocess
    · refine (h'.tracks id).congr fun e _ _ => ?_
      rw [List.mem_cons, or_assoc]

/-- Where the same events are covered, the orders count alike, and the totals are the same. -/
theorem Follows.agree {rebuilt' : Prop} {covered' : EventEnvelope Payload → Prop} {q : Projection}
    (h : Follows rebuilt db covered p) (h' : Follows rebuilt' db covered' q) (hsales : db.Sales)
    (hsame : ∀ event ∈ analytic_events db, covered event ↔ covered' event) :
    (∀ id, sold (p.get id) = sold (q.get id)) ∧ (∀ day, p.daily day = q.daily day) ∧
      (¬ rebuilt → ¬ rebuilt' → ∀ id, p.get id = q.get id) := by
  have hagree : ∀ id, sold (p.get id) = sold (q.get id) ∧
      (¬ rebuilt → ¬ rebuilt' → p.get id = q.get id) := by
    intro id
    refine (h.tracks id).agree ?_ (facts_of_sales hsales id)
    refine (h'.tracks id).congr fun e he hanalytic => hsame e ?_
    exact List.mem_filter.mpr ⟨(List.mem_filter.mp he).1, by simpa using hanalytic⟩
  have hsold := fun id => (hagree id).1
  exact ⟨hsold, h.represents.toBalanced.daily_eq h'.represents.toBalanced hsold,
    fun hno hno' id => (hagree id).2 hno hno'⟩

/-- Where all events are covered, the totals are authoritative. Each order counts as its row does,
and the totals add up the contributions. -/
theorem Follows.authoritative (h : Follows rebuilt db covered p) (hsales : db.Sales)
    (hcovered : ∀ event ∈ analytic_events db, covered event) (day : Date) :
    p.daily day = authoritative db.orders day := by
  refine h.represents.toBalanced.daily_authoritative hsales.book.unique (fun id => ?_) day
  -- Covering the other events as well does not change what is known.
  have htracks : Tracks rebuilt id (Keyed.lookup Order.order_id id db.orders) (db.order_events id)
      (fun _ => True) (p.get id) :=
    (h.tracks id).congr fun e he hanalytic => (iff_true_intro (hcovered e
      (List.mem_filter.mpr ⟨(List.mem_filter.mp he).1, by simpa using hanalytic⟩))).symm
  exact htracks.sold_eq (facts_of_sales hsales id) fun _ _ => trivial

end Processing

/-- The analytics projection converges. After any history of a restaurant, the events of its outbox
that concern analytics can be processed in any order and any number of times. Two lists with the same
events lead to the same contribution of every order and to the same totals, and once every event has
been processed the totals are those of the completed orders. -/
theorem projection_converges (lib : Library) (start : ℕ → NewBranch) (acts : List Act) (k : ℕ)
    (events events' : List {event // event ∈ analytic_events ((run lib (legacy start) acts).rows k)}) :
    let db := (run lib (legacy start) acts).rows k
    let empty : Projection := ⟨db.organization_id, db.restaurant_id, [], []⟩
    ∃ p p', process (events.map Subtype.val) empty = .ok p ∧
      process (events'.map Subtype.val) empty = .ok p' ∧
      ((∀ event, event ∈ events ↔ event ∈ events') →
        (∀ id, p.get id = p'.get id) ∧ ∀ day, p.daily day = p'.daily day) ∧
      ((∀ event, event ∈ events) →
        (∀ day, p.daily day = authoritative db.orders day) ∧ reconcile db.orders p = []) := by
  intro db empty
  -- What the projection follows from here on is what the commands leave in the branch.
  have hsales : db.Sales := run_sales lib start acts k
  have hmem : ∀ {events : List {event // event ∈ analytic_events db}} {event},
      event ∈ events.map Subtype.val → event ∈ analytic_events db := by
    intro events event hevent
    obtain ⟨emitted, -, rfl⟩ := List.mem_map.mp hevent
    exact emitted.2
  obtain ⟨p, hprocess, h⟩ := (follows_empty False db).process hsales fun event => @hmem events event
  obtain ⟨p', hprocess', h'⟩ :=
    (follows_empty False db).process hsales fun event => @hmem events' event
  refine ⟨p, p', hprocess, hprocess', fun hsame => ?_, fun hall => ?_⟩
  · -- Two lists with the same events cover the same events.
    have hcovered : ∀ event ∈ analytic_events db, (False ∨ event ∈ events.map Subtype.val) ↔
        (False ∨ event ∈ events'.map Subtype.val) := by
      intro event hevent
      have hsubtype : ∀ list : List {event // event ∈ analytic_events db},
          event ∈ list.map Subtype.val ↔ ⟨event, hevent⟩ ∈ list := by
        intro list
        rw [List.mem_map]
        constructor
        · rintro ⟨⟨_, _⟩, hmem, rfl⟩
          exact hmem
        · exact fun hmem => ⟨_, hmem, rfl⟩
      rw [hsubtype, hsubtype, hsame]
    obtain ⟨-, hdaily, hget⟩ := h.agree h' hsales hcovered
    exact ⟨hget not_false not_false, hdaily⟩
  · -- Once every event is in the list, every event is covered.
    have hdaily := h.authoritative hsales fun event hevent =>
      Or.inr (List.mem_map.mpr ⟨⟨event, hevent⟩, hall _, rfl⟩)
    exact ⟨hdaily, reconcile_eq_nil hdaily⟩

end RestaurantOS.Analytics
