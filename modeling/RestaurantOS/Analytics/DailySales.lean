import Mathlib.Algebra.Order.BigOperators.Group.List
import RestaurantOS.Analytics.Projection
import RestaurantOS.Lib.Run

/-!
# The daily totals represent the contributions

Every event and every rebuild keeps the totals of each day equal to the number and the sum of the
completed contributions of that day (`Represents`). An event moves the totals by the difference
between the new contribution of its order and the old one; a rebuild counts the contributions anew,
and stores them over all that were there. -/

namespace RestaurantOS.Analytics

open Fallible Events Orders

/-- What a contribution adds to the totals of a day. -/
def share (day : Date) (contribution : Contribution) : ℤ × ℚ :=
  if contribution.state = .completed ∧ contribution.creation_date = day then (1, contribution.total)
  else 0

/-- The totals are those of the contributions. The invariant of the projection; every transaction of
`ProjectionAct` keeps it. -/
structure Balanced (db : Projection) : Prop where
  /-- One contribution for each order. -/
  contributions : Keyed.Unique Contribution.order_id db.contributions
  /-- One row for each day. -/
  daily_sales : Keyed.Unique DailySales.creation_date db.daily_sales
  /-- The totals are those of the completed contributions. -/
  totals : ∀ day, db.daily day = (db.contributions.map (share day)).sum

/-- The totals represent the contributions, and the rows meet the constraints. -/
structure Represents (db : Projection) : Prop extends Balanced db where
  /-- The constraints of the tables. -/
  constraints : db.constraints

/-- What a contribution adds, by its count. -/
theorem share_count (day : Date) (contribution : Contribution) :
    share day contribution = if contribution.count ≠ 0 then
      if day = contribution.creation_date then (1, contribution.total) else 0 else 0 := by
  unfold share Contribution.count
  by_cases hstate : contribution.state = .completed
  · rw [if_pos hstate, if_pos one_ne_zero]
    simp only [hstate, true_and, eq_comm]
  · rw [if_neg hstate, if_neg (not_not.mpr rfl), if_neg fun hboth => hstate hboth.1]

/-- The shares of contributions in a day are their number and their sum. -/
theorem sum_share (day : Date) (contributions : List Contribution) :
    (contributions.map (share day)).sum =
      (((contributions.filter fun c => c.state = .completed ∧ c.creation_date = day).length : ℤ),
        ((contributions.filter fun c => c.state = .completed ∧ c.creation_date = day).map
          (·.total)).sum) := by
  induction contributions with
  | nil => rfl
  | cons c contributions ih =>
    rw [List.map_cons, List.sum_cons, ih]
    by_cases hday : c.state = .completed ∧ c.creation_date = day
    · rw [List.filter_cons_of_pos (by simpa using hday), List.length_cons, List.map_cons,
        List.sum_cons, share, if_pos hday, Prod.mk_add_mk]
      push_cast
      rw [add_comm (1 : ℤ)]
    · rw [List.filter_cons_of_neg (by simpa using hday), share, if_neg hday, zero_add]

namespace Projection

variable {db db' : Projection}

/-! ## Moving the totals -/

/-- The rows of days after a move. -/
theorem delta_daily_sales (db : Projection) (day : Date) (count : ℤ) (sales : ℚ) :
    (db.delta day count sales).daily_sales = Keyed.upsert DailySales.creation_date
      ⟨day, (db.daily day).1 + count, (db.daily day).2 + sales⟩ db.daily_sales := by
  unfold delta daily Keyed.upsert
  cases h : Keyed.lookup DailySales.creation_date day db.daily_sales with
  | none => rfl
  | some row => rfl

/-- The totals of a day are moved without touching a contribution. -/
@[simp] theorem delta_contributions (db : Projection) (day : Date) (count : ℤ) (sales : ℚ) :
    (db.delta day count sales).contributions = db.contributions := by
  unfold delta
  split <;> rfl

/-- A move adds to the totals of its day. The totals of the other days stay, and a missing row
counts as zero. -/
theorem daily_delta (db : Projection) (day day' : Date) (count : ℤ) (sales : ℚ) :
    (db.delta day count sales).daily day' =
      db.daily day' + if day' = day then (count, sales) else 0 := by
  have hlookup : Keyed.lookup DailySales.creation_date day' (db.delta day count sales).daily_sales =
      if day' = day then some ⟨day, (db.daily day).1 + count, (db.daily day).2 + sales⟩
      else Keyed.lookup DailySales.creation_date day' db.daily_sales := by
    rw [delta_daily_sales, Keyed.lookup_upsert]
  unfold daily at hlookup ⊢
  rw [hlookup]
  split_ifs with hday
  · rw [hday]
    rfl
  · rw [add_zero]

/-- The totals after the moves of an event. What the event takes back is the share of the
contribution it replaces, and what it adds is its own. -/
theorem daily_move_totals (db : Projection) (current : Option Contribution)
    (incoming : Contribution) (day : Date) :
    (move_totals db current incoming).daily day + current.elim 0 (share day) =
      db.daily day + share day incoming := by
  -- The first two updates of `_move_totals`, each skipped when the contribution counts nothing.
  have hcurrent : ∀ c : Contribution,
      (if c.count ≠ 0 then db.delta c.creation_date (-1) (-c.total) else db).daily day + share day c =
        db.daily day := by
    intro c
    rw [share_count]
    split_ifs with hcount hday
    · rw [daily_delta, if_pos hday, add_assoc]
      simp
    · rw [daily_delta, if_neg hday, add_zero, add_zero]
    · rw [add_zero]
  have hincoming : ∀ db : Projection,
      (if incoming.count ≠ 0 then db.delta incoming.creation_date 1 incoming.total else db).daily day =
        db.daily day + share day incoming := by
    intro db
    rw [share_count]
    split_ifs with hcount hday
    · rw [daily_delta, if_pos hday]
    · rw [daily_delta, if_neg hday]
    · rw [add_zero]
  -- Without a current contribution only the second update is made.
  unfold move_totals
  rw [hincoming]
  cases current with
  | none => exact add_zero _
  | some c =>
    rw [add_right_comm]
    exact congrArg (· + share day incoming) (hcurrent c)

/-- The moves of an event leave the contributions. -/
@[simp] theorem move_totals_contributions (db : Projection) (current : Option Contribution)
    (incoming : Contribution) :
    (move_totals db current incoming).contributions = db.contributions := by
  unfold move_totals
  cases current with
  | none => simp only [apply_ite Projection.contributions, delta_contributions, ite_self]
  | some c => simp only [apply_ite Projection.contributions, delta_contributions, ite_self]

/-- The moves of an event keep one row for each day. -/
theorem move_totals_unique (h : Keyed.Unique DailySales.creation_date db.daily_sales)
    (current : Option Contribution) (incoming : Contribution) :
    Keyed.Unique DailySales.creation_date (move_totals db current incoming).daily_sales := by
  have hdelta : ∀ {db : Projection} (count day n sales),
      Keyed.Unique DailySales.creation_date db.daily_sales →
        Keyed.Unique DailySales.creation_date
          (if count ≠ (0 : ℤ) then db.delta day n sales else db).daily_sales := by
    intro db count day n sales h
    split_ifs
    · rw [delta_daily_sales]
      exact h.upsert _
    · exact h
  unfold move_totals
  cases current with
  | none => exact hdelta _ _ _ _ h
  | some c => exact hdelta _ _ _ _ (hdelta _ _ _ _ h)

/-- Two projections of the same restaurant. None of the writes of this module changes the keys of
the restaurant. -/
structure SameScope (db' db : Projection) : Prop where
  /-- The organization. -/
  organization_id : db'.organization_id = db.organization_id
  /-- The restaurant. -/
  restaurant_id : db'.restaurant_id = db.restaurant_id

/-- One after the other. -/
theorem SameScope.trans {db₁ db₂ db₃ : Projection} (h : SameScope db₃ db₂) (h' : SameScope db₂ db₁) :
    SameScope db₃ db₁ :=
  ⟨h.organization_id.trans h'.organization_id, h.restaurant_id.trans h'.restaurant_id⟩

/-- The moves of an event leave the restaurant. Only rows of the days are written. -/
theorem same_scope_move_totals (db : Projection) (current : Option Contribution)
    (incoming : Contribution) : SameScope (move_totals db current incoming) db := by
  have hmove : ∀ (db : Projection) (count : ℤ) day n sales,
      SameScope (if count ≠ 0 then db.delta day n sales else db) db := by
    intro db count day n sales
    split_ifs
    · unfold delta
      split <;> exact ⟨rfl, rfl⟩
    · exact ⟨rfl, rfl⟩
  unfold move_totals
  cases current with
  | none => exact hmove _ _ _ _ _
  | some c => exact (hmove _ _ _ _ _).trans (hmove db c.count c.creation_date (-1) (-c.total))

/-- So does storing a contribution. -/
theorem same_scope_store (db : Projection) (incoming : Contribution) (row : Option Contribution) :
    SameScope (db.store incoming row) db := by
  unfold store
  split <;> exact ⟨rfl, rfl⟩

/-! ## Storing a contribution -/

/-- Storing under the row that is there. It inserts where the lookup has found nothing and updates
where it has found a row. -/
theorem store_contributions (db : Projection) (incoming : Contribution) (row : Option Contribution)
    (hrow : row.isSome = (db.get incoming.order_id).isSome) :
    (db.store incoming row).contributions =
      Keyed.upsert Contribution.order_id incoming db.contributions := by
  unfold store Keyed.upsert
  unfold get at hrow
  cases h : Keyed.lookup Contribution.order_id incoming.order_id db.contributions with
  | none =>
    rw [h] at hrow
    rw [Option.isSome_eq_false_iff.mp hrow |> Option.isNone_iff_eq_none.mp]
  | some old =>
    rw [h] at hrow
    obtain ⟨current, hcurrent⟩ := Option.isSome_iff_exists.mp hrow
    rw [hcurrent]

/-- A contribution is stored without touching the totals. -/
@[simp] theorem store_daily_sales (db : Projection) (incoming : Contribution)
    (row : Option Contribution) : (db.store incoming row).daily_sales = db.daily_sales := by
  unfold store
  split <;> rfl

/-- A flush checks the constraints. -/
theorem flush_ok (h : db.flush = .ok db') : db.constraints ∧ db' = db := by
  obtain ⟨_, hconstraints, h⟩ := bind_eq_ok.mp h
  exact ⟨ensure_eq_ok.mp hconstraints, (pure_eq_ok.mp h).symm⟩

end Projection

/-! ## An event -/

/-- What an event that is applied does. It is skipped and nothing changes, or it moves the totals
and meets the constraints. -/
theorem apply_order_event_ok {event : EventEnvelope Payload} {db db' : Projection}
    {outcome : Outcome} (h : apply_order_event event db = .ok (db', outcome)) :
    ∃ new, incoming event = .ok new ∧
      ((should_apply (db.get new.order_id) new = false ∧ db' = db) ∨
        (should_apply (db.get new.order_id) new = true ∧
          db' = (move_totals db (db.get new.order_id) new).store new (db.get new.order_id) ∧
          db'.constraints)) := by
  obtain ⟨new, hnew, h⟩ := bind_eq_ok.mp h
  obtain ⟨_, -, h⟩ := bind_eq_ok.mp h
  refine ⟨new, hnew, ?_⟩
  cases happly : should_apply (db.get new.order_id) new with
  | false =>
    simp only [happly, Bool.not_false, if_true] at h
    exact Or.inl ⟨rfl, (Prod.mk.inj (pure_eq_ok.mp h)).1.symm⟩
  | true =>
    simp only [happly, Bool.not_true, Bool.false_eq_true, if_false] at h
    obtain ⟨flushed, hflush, h⟩ := bind_eq_ok.mp h
    obtain ⟨hconstraints, rfl⟩ := Projection.flush_ok hflush
    obtain rfl := (Prod.mk.inj (pure_eq_ok.mp h)).1
    exact Or.inr ⟨rfl, rfl, hconstraints⟩

/-- The rows of contributions after the moves and the store of an event. -/
theorem contributions_apply (db : Projection) (new : Contribution) :
    ((move_totals db (db.get new.order_id) new).store new (db.get new.order_id)).contributions =
      Keyed.upsert Contribution.order_id new db.contributions := by
  have hget : (move_totals db (db.get new.order_id) new).get new.order_id = db.get new.order_id := by
    unfold Projection.get
    rw [Projection.move_totals_contributions]
  rw [Projection.store_contributions _ _ _ (by rw [hget]), Projection.move_totals_contributions]

/-- The moves and the store of an event keep the totals in balance. -/
theorem Balanced.apply {db : Projection} (h : Balanced db) (new : Contribution) :
    Balanced ((move_totals db (db.get new.order_id) new).store new (db.get new.order_id)) := by
  refine ⟨?_, ?_, fun day => ?_⟩
  · rw [contributions_apply]
    exact h.contributions.upsert new
  · rw [Projection.store_daily_sales]
    exact Projection.move_totals_unique h.daily_sales _ _
  · rw [contributions_apply]
    -- The totals and the sum of the shares change by the same difference.
    have hmoved := Projection.daily_move_totals db (db.get new.order_id) new day
    have hstored := Keyed.sum_upsert (w := share day) h.contributions new
    rw [← h.totals day, ← hmoved] at hstored
    have hdaily : ((move_totals db (db.get new.order_id) new).store new
        (db.get new.order_id)).daily day =
          (move_totals db (db.get new.order_id) new).daily day := by
      unfold Projection.daily
      rw [Projection.store_daily_sales]
    rw [hdaily]
    exact (add_right_cancel hstored).symm

/-- An event keeps the representation. -/
theorem Represents.apply {event : EventEnvelope Payload} {db db' : Projection} {outcome : Outcome}
    (h : Represents db) (happly : apply_order_event event db = .ok (db', outcome)) :
    Represents db' := by
  obtain ⟨new, -, ⟨-, rfl⟩ | ⟨-, rfl, hconstraints⟩⟩ := apply_order_event_ok happly
  · exact h
  · exact ⟨h.toBalanced.apply new, hconstraints⟩

/-! ## A rebuild -/

/-- The contributions of the live orders are unique. The baseline is built from the live orders by
upserts, and every deletion event then changes or appends one row. -/
theorem unique_baseline (orders : List Order) (events : List (EventEnvelope Payload)) :
    Keyed.Unique Contribution.order_id (baseline orders events) := by
  -- First over the live orders, by induction on their list.
  have hlive : ∀ (orders : List Order) (values : List Contribution),
      Keyed.Unique Contribution.order_id values →
        Keyed.Unique Contribution.order_id (orders.foldl (fun values order =>
          Keyed.upsert Contribution.order_id (live_contribution order) values) values) := by
    intro orders
    induction orders with
    | nil => exact fun values h => h
    | cons order orders ih => exact fun values h => ih _ (h.upsert _)
  -- A deletion appends a row only where the lookup finds none.
  have hdeletion : ∀ (values : List Contribution) (event : EventEnvelope Payload),
      Keyed.Unique Contribution.order_id values →
        Keyed.Unique Contribution.order_id (baseline_deletion values event) := by
    intro values event h
    unfold baseline_deletion
    split
    · split
      · rename_i hlookup
        exact h.append (Keyed.lookup_eq_none.mp hlookup)
      · split_ifs
        · exact h.put _
        · exact h
    · exact h
  -- Then over the deletion events, from any unique start.
  unfold baseline
  generalize hvalues : orders.foldl (fun values order =>
    Keyed.upsert Contribution.order_id (live_contribution order) values) [] = values
  have hunique : Keyed.Unique Contribution.order_id values := hvalues ▸ hlive orders [] .nil
  clear hvalues
  induction events generalizing values with
  | nil => exact hunique
  | cons event events ih => exact ih _ (hdeletion values event hunique)

/-- The baseline after the existing contributions have joined it: a contribution is from the baseline,
or it is one of a deleted order, and none of the existing is missing. -/
structure Joined (existing values joined : List Contribution) : Prop where
  /-- One contribution for each order. -/
  unique : Keyed.Unique Contribution.order_id joined
  /-- The baseline stays. -/
  kept : ∀ id value, Keyed.lookup Contribution.order_id id values = some value →
    Keyed.lookup Contribution.order_id id joined = some value
  /-- Other contributions are existing ones of deleted orders. -/
  added : ∀ id value, Keyed.lookup Contribution.order_id id values = none →
    Keyed.lookup Contribution.order_id id joined = some value →
      value ∈ existing ∧ value.state = .deleted
  /-- No order is forgotten. -/
  covered : ∀ row ∈ existing, Keyed.lookup Contribution.order_id row.order_id joined ≠ none

/-- Joining the existing contributions. `_keep_watermarks` walks over the old contributions: the
ones the baseline has stay as they are, the others are added, and one of them that is not a deletion
is an error. -/
theorem keep_watermark_ok {existing values joined : List Contribution}
    (hunique : Keyed.Unique Contribution.order_id values)
    (h : existing.foldlM keep_watermark values = .ok joined) : Joined existing values joined := by
  -- The invariant says what joining the rows walked over so far has done. Before the walk the joined
  -- list is the baseline itself.
  refine foldlM_invariant (fun done joined => Joined done values joined) h
    ⟨hunique, fun id value hvalue => hvalue, fun id value hnone hsome => ?_, by simp⟩ ?_
  · rw [hnone] at hsome
    cases hsome
  · intro done row joined joined' _ _ ih hstep
    unfold keep_watermark at hstep
    cases hlookup : Keyed.lookup Contribution.order_id row.order_id joined with
    -- The baseline has the order, and the row is dropped.
    | some value =>
      simp only [hlookup] at hstep
      obtain rfl := pure_eq_ok.mp hstep
      refine ⟨ih.unique, ih.kept, fun id value hnone hsome => ?_, fun other hother => ?_⟩
      · obtain ⟨hmem, hstate⟩ := ih.added id value hnone hsome
        exact ⟨List.mem_append_left _ hmem, hstate⟩
      · rcases List.mem_append.mp hother with hother | hother
        · exact ih.covered other hother
        · rw [List.mem_singleton.mp hother, hlookup]
          exact Option.some_ne_none value
    -- The row is added; the check on its state is the error path of the source.
    | none =>
      simp only [hlookup] at hstep
      obtain ⟨_, hstate, hstep⟩ := bind_eq_ok.mp hstep
      obtain rfl := pure_eq_ok.mp hstep
      have hadded := fun id => @Keyed.lookup_append _ _ _ Contribution.order_id id joined row
      refine ⟨ih.unique.append (Keyed.lookup_eq_none.mp hlookup), fun id value hvalue => ?_,
        fun id value hnone hsome => ?_, fun other hother => ?_⟩
      · rw [hadded, ih.kept id value hvalue, Option.some_or]
      · rw [hadded] at hsome
        cases hold : Keyed.lookup Contribution.order_id id joined with
        | some old =>
          rw [hold, Option.some_or] at hsome
          obtain ⟨hmem, hdeleted⟩ := ih.added id value hnone (hold.trans hsome)
          exact ⟨List.mem_append_left _ hmem, hdeleted⟩
        | none =>
          rw [hold, Option.none_or] at hsome
          split_ifs at hsome with hid
          obtain rfl := Option.some.inj hsome
          exact ⟨List.mem_append_right _ List.mem_cons_self, ensure_eq_ok.mp hstate⟩
      · rw [hadded]
        rcases List.mem_append.mp hother with hother | hother
        · obtain ⟨old, hold⟩ := Option.ne_none_iff_exists'.mp (ih.covered other hother)
          rw [hold, Option.some_or]
          exact Option.some_ne_none old
        · rw [List.mem_singleton.mp hother, hlookup, Option.none_or, if_pos rfl]
          exact Option.some_ne_none row

/-- Replaying contributions stores each of them and counts it. The condition on the stored rows says
that `store` inserts and updates where the source does. -/
theorem replay_contributions {existing values : List Contribution} {db : Projection}
    (hunique : Keyed.Unique Contribution.order_id values)
    (hdaily : Keyed.Unique DailySales.creation_date db.daily_sales)
    (hpresent : ∀ value ∈ values,
      (Keyed.lookup Contribution.order_id value.order_id existing).isSome =
        (db.get value.order_id).isSome) :
    (values.foldl (replay existing) db).contributions =
        values.foldl (fun rows value => Keyed.upsert Contribution.order_id value rows)
          db.contributions ∧
      Keyed.Unique DailySales.creation_date (values.foldl (replay existing) db).daily_sales ∧
      ∀ day, (values.foldl (replay existing) db).daily day =
        db.daily day + (values.map (share day)).sum := by
  -- The induction is on the list of contributions, with the database general.
  induction values generalizing db with
  | nil => exact ⟨rfl, hdaily, fun day => (add_zero _).symm⟩
  | cons value values ih =>
    obtain ⟨hnew, hvalues⟩ := List.nodup_cons.mp hunique
    set stored := db.store value (Keyed.lookup Contribution.order_id value.order_id existing)
    -- A replayed contribution is an incoming one without a current one.
    have hreplay : replay existing db value = move_totals stored none value := rfl
    have hstored : stored.contributions =
        Keyed.upsert Contribution.order_id value db.contributions :=
      Projection.store_contributions _ _ _ (hpresent value List.mem_cons_self)
    have hdays : stored.daily_sales = db.daily_sales := Projection.store_daily_sales _ _ _
    have hcontributions : (replay existing db value).contributions =
        Keyed.upsert Contribution.order_id value db.contributions := by
      rw [hreplay, Projection.move_totals_contributions, hstored]
    have hunique' : Keyed.Unique DailySales.creation_date (replay existing db value).daily_sales := by
      rw [hreplay]
      exact Projection.move_totals_unique (hdays ▸ hdaily) _ _
    have htotals : ∀ day, (replay existing db value).daily day = db.daily day + share day value := by
      intro day
      have hmoved := Projection.daily_move_totals stored none value day
      have hsame : stored.daily day = db.daily day := by
        unfold Projection.daily
        rw [hdays]
      rw [← hreplay, hsame] at hmoved
      exact (add_zero _).symm.trans hmoved
    -- The condition holds for the rest, whose orders differ from the one just stored.
    obtain ⟨hcontributions', hunique'', htotals'⟩ := ih hvalues hunique' (by
      intro other hother
      have hne : other.order_id ≠ value.order_id := fun heq =>
        hnew (List.mem_map.mpr ⟨other, hother, heq⟩)
      rw [hpresent other (List.mem_cons_of_mem value hother)]
      unfold Projection.get
      rw [hcontributions, Keyed.lookup_upsert_ne hne])
    refine ⟨?_, hunique'', fun day => ?_⟩
    · rw [List.foldl_cons, hcontributions', hcontributions, List.foldl_cons]
    · rw [List.foldl_cons, htotals', htotals, List.map_cons, List.sum_cons, add_assoc]

/-- What a rebuild leaves: the joined baseline, and its totals. -/
structure Rebuilt (orders : List Order) (events : List (EventEnvelope Payload))
    (db db' : Projection) (values : List Contribution) : Prop where
  /-- The baseline with the existing contributions. -/
  joined : Joined (db.contributions.insertionSort fun row row' => row.order_id ≤ row'.order_id)
    (baseline orders events) values
  /-- The contributions are those of the baseline. -/
  contributions : db'.contributions =
    values.foldl (fun rows value => Keyed.upsert Contribution.order_id value rows) db.contributions
  /-- One row for each day. -/
  daily_sales : Keyed.Unique DailySales.creation_date db'.daily_sales
  /-- The totals are those of the baseline. -/
  totals : ∀ day, db'.daily day = (values.map (share day)).sum

/-- Replaying the joined baseline. The rebuild clears the daily rows and replays the joined list in
the order of its ids. -/
theorem rebuilt_of_joined {orders : List Order} {events : List (EventEnvelope Payload)}
    {db : Projection} {values : List Contribution}
    (hunique : Keyed.Unique Contribution.order_id db.contributions)
    (hvalues : (db.contributions.insertionSort fun row row' => row.order_id ≤ row'.order_id).foldlM
      keep_watermark (baseline orders events) = .ok values) :
    Rebuilt orders events db
      (values.foldl (replay (db.contributions.insertionSort fun row row' =>
        row.order_id ≤ row'.order_id)) db.clear_daily) values := by
  set existing := db.contributions.insertionSort fun row row' => row.order_id ≤ row'.order_id
  have hjoined := keep_watermark_ok (unique_baseline orders events) hvalues
  have hperm : existing.Perm db.contributions := List.perm_insertionSort _ _
  have hsorted : Keyed.Unique Contribution.order_id existing :=
    (hperm.map Contribution.order_id).nodup_iff.mpr hunique
  -- Sorting the rows does not change what is looked up.
  have hsame : ∀ id, Keyed.lookup Contribution.order_id id existing = db.get id := by
    intro id
    unfold Projection.get
    cases hlookup : Keyed.lookup Contribution.order_id id db.contributions with
    | none =>
      exact Keyed.lookup_eq_none.mpr fun row hrow =>
        Keyed.lookup_eq_none.mp hlookup row (hperm.mem_iff.mp hrow)
    | some row =>
      exact hsorted.lookup_eq_some.mpr
        ⟨hperm.mem_iff.mpr (Keyed.lookup_mem hlookup), Keyed.lookup_key hlookup⟩
  -- The totals start from the cleared table, hence from zero.
  obtain ⟨hcontributions, hdaily, htotals⟩ := @replay_contributions existing values
    db.clear_daily hjoined.unique .nil fun value _ => by rw [hsame]; rfl
  refine ⟨hjoined, hcontributions, hdaily, fun day => ?_⟩
  rw [htotals day]
  exact zero_add _

/-- A rebuild that succeeds. Its result meets the constraints and is the replay of the joined
baseline. -/
theorem rebuild_ok {organization_id : UUID} {restaurant_id : ℤ} {orders : List Order}
    {events : List (EventEnvelope Payload)} {db db' : Projection}
    (hunique : Keyed.Unique Contribution.order_id db.contributions)
    (h : rebuild_analytics_projection organization_id restaurant_id orders events db = .ok db') :
    db'.constraints ∧ ∃ values, Rebuilt orders events db db' values := by
  obtain ⟨_, -, h⟩ := bind_eq_ok.mp h
  obtain ⟨values, hvalues, h⟩ := bind_eq_ok.mp h
  obtain ⟨hconstraints, rfl⟩ := Projection.flush_ok h
  exact ⟨hconstraints, values, rebuilt_of_joined hunique hvalues⟩

section Rebuilt

variable {orders : List Order} {events : List (EventEnvelope Payload)} {db db' : Projection}
  {values : List Contribution}

/-- After a rebuild an order has the contribution of the joined baseline. -/
theorem Rebuilt.get (h : Rebuilt orders events db db' values) (id : ℕ) :
    db'.get id = Keyed.lookup Contribution.order_id id values := by
  unfold Projection.get
  rw [h.contributions, Keyed.lookup_foldl_upsert h.joined.unique]
  cases hvalue : Keyed.lookup Contribution.order_id id values with
  | some value => rfl
  | none =>
    -- An existing contribution would be one of the joined baseline.
    rw [Option.none_or]
    refine Keyed.lookup_eq_none.mpr fun row hrow hid => ?_
    have hcovered := h.joined.covered row ((List.mem_insertionSort _).mpr hrow)
    rw [hid] at hcovered
    exact hcovered hvalue

/-- A rebuild brings the totals into balance. -/
theorem Rebuilt.balanced (h : Rebuilt orders events db db' values)
    (hunique : Keyed.Unique Contribution.order_id db.contributions) : Balanced db' := by
  have hunique' : Keyed.Unique Contribution.order_id db'.contributions := by
    rw [h.contributions]
    exact hunique.foldl_upsert values
  refine ⟨hunique', h.daily_sales, fun day => ?_⟩
  rw [h.totals day]
  exact h.joined.unique.sum_eq hunique' fun id => by rw [← h.get id]; rfl

/-- A rebuild establishes the representation. -/
theorem Represents.rebuild {organization_id : UUID} {restaurant_id : ℤ} (h : Represents db)
    (hrebuild : rebuild_analytics_projection organization_id restaurant_id orders events db =
      .ok db') : Represents db' := by
  obtain ⟨hconstraints, values, hrebuilt⟩ := rebuild_ok h.contributions hrebuild
  exact ⟨hrebuilt.balanced h.contributions, hconstraints⟩

end Rebuilt

/-! ## Runs -/

/-- The transactions on the projections. They may concern any restaurant, in any order. -/
inductive ProjectionAct
  /-- An event is processed. -/
  | apply (event : EventEnvelope Payload)
  /-- The projection of a restaurant is rebuilt from its live orders and retained events. -/
  | rebuild (organization_id : UUID) (restaurant_id : ℤ) (orders : List Order)
    (events : List (EventEnvelope Payload))

/-- A transaction commits, or it fails and leaves the projection as it is. -/
def committed (db : Projection) : Except Failure Projection → Projection
  | .ok db' => db'
  | .error _ => db

/-- The projections of all restaurants after a transaction. -/
def step (rows : ℤ → Projection) : ProjectionAct → ℤ → Projection
  | .apply event => Function.update rows event.restaurant_id
      (committed (rows event.restaurant_id) do
        let (db, _) ← apply_order_event event (rows event.restaurant_id)
        pure db)
  | .rebuild organization_id restaurant_id orders events => Function.update rows restaurant_id
      (committed (rows restaurant_id)
        (rebuild_analytics_projection organization_id restaurant_id orders events
          (rows restaurant_id)))

/-- The projections before anything has been projected. There is one for each restaurant, under the
organization that owns it. -/
def empty (owner : ℤ → UUID) (restaurant_id : ℤ) : Projection :=
  ⟨owner restaurant_id, restaurant_id, [], []⟩

/-- Nothing represents nothing. -/
theorem represents_empty (owner : ℤ → UUID) (k : ℤ) : Represents (empty owner k) :=
  ⟨⟨.nil, .nil, fun _ => rfl⟩, by simp [empty], by simp [empty]⟩

/-- A transaction keeps the representation. Only the projection that the transaction is about
changes. -/
theorem step_represents {rows : ℤ → Projection} (h : ∀ k, Represents (rows k)) (a : ProjectionAct) (k : ℤ) :
    Represents (step rows a k) := by
  have hupdate : ∀ {k' : ℤ} {result : Except Failure Projection},
      (∀ db, result = .ok db → Represents db) →
        Represents (Function.update rows k' (committed (rows k') result) k) := by
    intro k' result hresult
    by_cases hk : k = k'
    · subst hk
      rw [Function.update_self]
      cases hcase : result with
      | ok db => exact hresult db hcase
      | error e => exact h k
    · rw [Function.update_of_ne hk]
      exact h k
  cases a with
  | apply event =>
    refine hupdate fun db hdb => ?_
    obtain ⟨⟨db', outcome⟩, happly, hdb⟩ := bind_eq_ok.mp hdb
    rw [← pure_eq_ok.mp hdb]
    exact (h event.restaurant_id).apply happly
  | rebuild organization_id restaurant_id orders events =>
    exact hupdate fun db hdb => (h restaurant_id).rebuild hdb

/-- The daily totals represent the contributions. After every sequence of order events and rebuilds,
whatever they carry, the totals of each restaurant and day are the number and the sum of the totals
of its completed contributions of that day; neither is negative, and a day without completed
contributions shows zero. -/
theorem daily_totals_represent_contributions (owner : ℤ → UUID) (acts : List ProjectionAct) (k : ℤ)
    (day : Date) :
    let db := Transition.run step (empty owner) acts k
    let completed := db.contributions.filter fun c => c.state = .completed ∧ c.creation_date = day
    Keyed.Unique Contribution.order_id db.contributions ∧
      db.daily day = ((completed.length : ℤ), (completed.map (·.total)).sum) ∧
      0 ≤ (db.daily day).1 ∧ 0 ≤ (db.daily day).2 ∧ (completed = [] → db.daily day = (0, 0)) := by
  intro db completed
  have hrepresents : Represents db :=
    @Transition.run_invariant _ _ step (fun rows => ∀ k, Represents (rows k))
      (fun rows a h k => step_represents h a k) _ (represents_empty owner) acts k
  have hdaily : db.daily day = ((completed.length : ℤ), (completed.map (·.total)).sum) := by
    rw [hrepresents.totals day, sum_share]
  have htotals : ∀ total ∈ completed.map (·.total), 0 ≤ total := by
    intro total htotal
    obtain ⟨c, hc, rfl⟩ := List.mem_map.mp htotal
    exact (hrepresents.constraints.1 c (List.mem_filter.mp hc).1).2.2.1
  refine ⟨hrepresents.contributions, hdaily, ?_, ?_, fun hnone => ?_⟩
  · rw [hdaily]
    exact Int.natCast_nonneg _
  · rw [hdaily]
    exact List.sum_nonneg htotals
  · rw [hdaily, hnone]
    rfl

end RestaurantOS.Analytics
