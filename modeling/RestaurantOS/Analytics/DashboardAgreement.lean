import RestaurantOS.Analytics.DashboardFigures
import RestaurantOS.Envelopes

/-!
# The dashboard agrees with the orders

In every reachable state the dashboard of a caller who may see it is computed without an exception, and
each of its figures is that of the completed orders which its statement reads (`Reports`): no order is
missed or counted twice at a border between days, the percentages and the average are the exact ones
rounded, and the items are the best selling groups of lines. -/

namespace RestaurantOS.Analytics

open Fallible Tenancy Orders Events
open Events.Pydantic (quantize)
open DecimalContext (context context_exact)

/-! ## Days -/

variable {first last day : Date}

/-- An instant is within days exactly if its date is. -/
theorem within_days (instant : Timestamp) :
    start_of_day first ≤ instant ∧ instant ≤ end_of_day last ↔
      first ≤ creation_date instant ∧ creation_date instant ≤ last := by
  unfold start_of_day end_of_day creation_date IsoTime.day_length
  lia

/-- Different days have different texts. -/
theorem isoformat_inj (hfirst : 306 ≤ first + IsoTime.epoch) (hlast : first + IsoTime.epoch ≤ 3652364)
    (hday : 306 ≤ day + IsoTime.epoch) (hday' : day + IsoTime.epoch ≤ 3652364)
    (h : isoformat first = isoformat day) : first = day := by
  have htext := String.ofList_injective h
  have hread := IsoTime.read_date_text hfirst hlast []
  rw [htext, IsoTime.read_date_text hday hday' []] at hread
  have hsame := (Prod.mk.inj (Option.some.inj hread)).1
  lia

/-! ## The orders of days -/

/-- The completed orders of some days. The days are those on which the orders were created, both
ends included. -/
def completed_in (orders : List Order) (first last : Date) : List Order :=
  orders.filter fun order => order.status = .COMPLETED ∧ first ≤ creation_date order.created_at ∧
    creation_date order.created_at ≤ last

/-- The number of completed orders of a day. -/
def count_of (orders : List Order) (day : Date) : ℤ := (authoritative orders day).1

/-- The sum of their totals. The exact sum of the completed orders of a day. -/
def sales_of (orders : List Order) (day : Date) : ℚ := (authoritative orders day).2

/-- Their average; without orders it is zero. It is the exact quotient, before any rounding. -/
def average_of (orders : List Order) (day : Date) : ℚ :=
  if count_of orders day = 0 then 0 else sales_of orders day / count_of orders day

variable {db : Branch} {access : AccessContext}

/-- The rows of the queries. -/
theorem completed_between_days
    (hscope : access.restaurant_scope db.organization_id db.restaurant_id = true) (first last : Date) :
    completed_between db access (start_of_day first) (end_of_day last) =
      completed_in db.orders first last := by
  refine List.filter_congr fun order _ => decide_eq_decide.mpr ?_
  rw [← within_days]
  exact and_iff_right hscope

/-- Among the orders of some days are those of one of them. -/
theorem completed_in_day (hfirst : first ≤ day) (hlast : day ≤ last) (orders : List Order) :
    ((completed_in orders first last).filter fun order => creation_date order.created_at = day) =
      orders.filter fun order => order.status = .COMPLETED ∧ creation_date order.created_at = day := by
  unfold completed_in
  rw [List.filter_filter]
  refine List.filter_congr fun order _ => ?_
  rw [Bool.eq_iff_iff]
  simp only [Bool.and_eq_true, decide_eq_true_eq]
  constructor
  · exact fun h => ⟨h.2.1, h.1⟩
  · rintro ⟨hstatus, rfl⟩
    exact ⟨rfl, hstatus, hfirst, hlast⟩

/-- The totals of a day. The orders created between its first and its last instant are those of the
day. -/
theorem get_completed_totals_day
    (hscope : access.restaurant_scope db.organization_id db.restaurant_id = true) (day : Date) :
    get_completed_totals db access (start_of_day day) (end_of_day day) =
      ⟨sales_of db.orders day, count_of db.orders day⟩ := by
  have hday : completed_in db.orders day day = db.orders.filter fun order =>
      order.status = .COMPLETED ∧ creation_date order.created_at = day := by
    refine List.filter_congr fun order _ => decide_eq_decide.mpr ?_
    rw [← le_antisymm_iff, eq_comm (a := day)]
  unfold get_completed_totals sales_of count_of authoritative
  rw [completed_between_days hscope, hday]

/-! ## The week -/

/-- The row of a day. The day is written as in the text of the response. -/
def day_row (orders : List Order) (day : Date) : SalesGraphRow :=
  ⟨isoformat day, sales_of orders day, count_of orders day⟩

/-- The rows of the graph are those of the days on which there were orders. -/
theorem get_sales_graph_days
    (hscope : access.restaurant_scope db.organization_id db.restaurant_id = true) (first last : Date) :
    get_sales_graph db access (start_of_day first) (end_of_day last) =
      ((completed_in db.orders first last).map fun order =>
        creation_date order.created_at).dedup.map (day_row db.orders) := by
  unfold get_sales_graph
  rw [completed_between_days hscope]
  refine List.map_congr_left fun day hday => ?_
  obtain ⟨order, horder, rfl⟩ := List.mem_map.mp (List.mem_dedup.mp hday)
  obtain ⟨-, hfirst, hlast⟩ := of_decide_eq_true (List.mem_filter.mp horder).2
  dsimp only
  rw [completed_in_day hfirst hlast]
  rfl

/-- The point of a day has the figures of the day, also where the graph has no row for it. The dates
of the graph are written in the ISO format and looked up by their text, so the proof needs that two
days of the range never have the same text. -/
theorem sales_point_day
    (hscope : access.restaurant_scope db.organization_id db.restaurant_id = true)
    (hmin : 306 ≤ first + IsoTime.epoch) (hmax : last + IsoTime.epoch ≤ 3652364)
    (hfirst : first ≤ day) (hlast : day ≤ last) :
    sales_point (Dict.index SalesGraphRow.date
        (get_sales_graph db access (start_of_day first) (end_of_day last))) day =
      ⟨isoformat day, sales_of db.orders day, count_of db.orders day⟩ := by
  rw [get_sales_graph_days hscope]
  -- The rows of the graph are the days on which an order was completed.
  set days := ((completed_in db.orders first last).map fun order =>
    creation_date order.created_at).dedup with hdays
  have hwithin : ∀ day ∈ days, first ≤ day ∧ day ≤ last := by
    intro day hday
    obtain ⟨order, horder, rfl⟩ := List.mem_map.mp (List.mem_dedup.mp hday)
    exact (of_decide_eq_true (List.mem_filter.mp horder).2).2
  -- The range stays within the years of four digits.
  have hinj : ∀ day ∈ days, ∀ day', first ≤ day' ∧ day' ≤ last → isoformat day = isoformat day' →
      day = day' := by
    intro day hday day' hday' htext
    obtain ⟨hlow, hhigh⟩ := hwithin day hday
    exact isoformat_inj (by lia) (by lia) (by lia) (by lia) htext
  have hunique : Keyed.Unique SalesGraphRow.date (days.map (day_row db.orders)) := by
    unfold Keyed.Unique
    rw [List.map_map]
    exact List.Nodup.map_on (fun day hday day' hday' htext => hinj day hday day' (hwithin day' hday') htext)
      (List.nodup_dedup _)
  unfold sales_point
  rw [Dict.get_index hunique]
  by_cases hday : day ∈ days
  · have hlookup : Keyed.lookup SalesGraphRow.date (isoformat day) (days.map (day_row db.orders)) =
        some (day_row db.orders day) :=
      hunique.lookup_eq_some.mpr ⟨List.mem_map_of_mem hday, rfl⟩
    rw [hlookup]
    rfl
  · -- A day that is not among the rows has no row under its text either.
    have hlookup : Keyed.lookup SalesGraphRow.date (isoformat day) (days.map (day_row db.orders)) =
        none := by
      rw [Keyed.lookup_eq_none, List.forall_mem_map]
      intro day' hday' htext
      exact hday (hinj day' hday' day ⟨hfirst, hlast⟩ htext ▸ hday')
    -- A day without a row is a day without orders.
    have hempty : (db.orders.filter fun order =>
        order.status = .COMPLETED ∧ creation_date order.created_at = day) = [] := by
      rw [← completed_in_day hfirst hlast, List.filter_eq_nil_iff]
      intro order horder hcreated
      refine hday (List.mem_dedup.mpr (List.mem_map.mpr ⟨order, horder, ?_⟩))
      exact of_decide_eq_true hcreated
    rw [hlookup]
    unfold sales_of count_of authoritative
    rw [hempty]
    rfl

/-- The figures of consecutive days add up to those of their orders. Every order of the range falls
on exactly one of the days. -/
theorem sum_days (orders : List Order) (first : Date) (n : ℕ) :
    ((List.range n).map fun i : ℕ => sales_of orders (first + i)).sum =
        ((completed_in orders first (first + n - 1)).map (·.total)).sum ∧
      ((List.range n).map fun i : ℕ => count_of orders (first + i)).sum =
        ((completed_in orders first (first + n - 1)).length : ℤ) := by
  -- The days are distinct and cover the range.
  have hnodup : ((List.range n).map fun i : ℕ => first + (i : ℤ)).Nodup := by
    refine List.nodup_range.map fun i j hij => ?_
    have hsame : first + (i : ℤ) = first + j := hij
    lia
  have hmem : ∀ order ∈ completed_in orders first (first + n - 1),
      creation_date order.created_at ∈ (List.range n).map fun i : ℕ => first + (i : ℤ) := by
    intro order horder
    obtain ⟨-, hlow, hhigh⟩ := of_decide_eq_true (List.mem_filter.mp horder).2
    refine List.mem_map.mpr ⟨(creation_date order.created_at - first).toNat, ?_, ?_⟩
    · rw [List.mem_range]
      lia
    · lia
  -- On a day of the range the orders of the range are all the orders of the day.
  have hday : ∀ i ∈ List.range n, ((completed_in orders first (first + n - 1)).filter fun order =>
      creation_date order.created_at = first + (i : ℤ)) = orders.filter fun order =>
        order.status = .COMPLETED ∧ creation_date order.created_at = first + (i : ℤ) := by
    intro i hi
    rw [List.mem_range] at hi
    exact completed_in_day (by lia) (by lia) orders
  constructor
  · rw [← Keyed.sum_groups hnodup hmem, List.map_map]
    refine congrArg List.sum (List.map_congr_left fun i hi => ?_)
    dsimp only [Function.comp_apply]
    rw [hday i hi]
    rfl
  · -- The number of orders is the sum of as many ones.
    have hlength : ∀ orders : List Order, (orders.length : ℤ) = (orders.map fun _ => (1 : ℤ)).sum := by
      intro orders
      rw [List.map_const', List.sum_replicate]
      simp
    rw [hlength, ← Keyed.sum_groups hnodup hmem, List.map_map]
    refine congrArg List.sum (List.map_congr_left fun i hi => ?_)
    dsimp only [Function.comp_apply]
    rw [hday i hi, ← hlength]
    rfl

/-! ## The items -/

/-- The lines of the completed orders of some days. -/
def lines_in (orders : List Order) (first last : Date) : List OrderItem :=
  (completed_in orders first last).flatMap (·.items)

/-- The best selling groups of lines: at most five, by their portions, and none that is left out has
sold more than one of them. -/
structure BestSelling (lines : List OrderItem) (rows : List TopSellingItemRow) : Prop where
  /-- Each row is the group of the lines of its menu item and name. -/
  groups : ∀ row ∈ rows, row = sold_row lines row.key ∧
    ∃ line ∈ lines, (line.menu_item_id, line.item_name) = row.key
  /-- No group is there twice. -/
  unique : Keyed.Unique TopSellingItemRow.key rows
  /-- The rows are in the order of their portions. -/
  sorted : rows.Pairwise fun row row' => row'.quantity_sold ≤ row.quantity_sold
  /-- A group that is left out has not sold more, and is left out for five others. -/
  best : ∀ line ∈ lines, (line.menu_item_id, line.item_name) ∈ rows.map (·.key) ∨
    rows.length = 5 ∧ ∀ row ∈ rows,
      (sold_row lines (line.menu_item_id, line.item_name)).quantity_sold ≤ row.quantity_sold
  /-- There are at most five. -/
  limit : rows.length ≤ 5

/-- The keys of groups are those of the lines. -/
theorem map_key_sold_rows (lines : List OrderItem) : (sold_rows lines).map (·.key) =
    (lines.map fun line => (line.menu_item_id, line.item_name)).dedup := by
  unfold sold_rows
  rw [List.map_map]
  exact List.map_id _

/-- The rows of the query are the best selling groups. The database may arrange equal quantities as
it likes; the stable sort on the quantity then decides the rest. -/
theorem get_top_selling_items_best
    (hscope : access.restaurant_scope db.organization_id db.restaurant_id = true)
    (arrangement : Arrangement) (first last : Date) :
    BestSelling (lines_in db.orders first last) (get_top_selling_items arrangement db access
      (start_of_day first) (end_of_day last) 5) := by
  unfold get_top_selling_items
  rw [completed_between_days hscope]
  show BestSelling _ ((List.insertionSort _ (arrangement.arrange (sold_rows
    (lines_in db.orders first last)))).take 5)
  generalize lines_in db.orders first last = lines
  -- The order of the query compares the quantity only.
  set r : TopSellingItemRow → TopSellingItemRow → Prop :=
    fun row row' => row'.quantity_sold ≤ row.quantity_sold with hr
  have : Std.Total r := ⟨fun row row' => Nat.le_total _ _⟩
  have : IsTrans TopSellingItemRow r := ⟨fun row row' row'' h h' => Nat.le_trans h' h⟩
  set sorted := (arrangement.arrange (sold_rows lines)).insertionSort r with hsorted
  have hperm : sorted.Perm (sold_rows lines) :=
    (List.perm_insertionSort r _).trans (arrangement.perm _)
  have hpairwise : sorted.Pairwise r := List.pairwise_insertionSort r _
  -- Grouping makes one row for each menu item and name.
  have hunique : Keyed.Unique TopSellingItemRow.key sorted := by
    have hkeys := (hperm.map TopSellingItemRow.key).nodup_iff.mpr
    refine hkeys ?_
    rw [map_key_sold_rows]
    exact List.nodup_dedup _
  -- What is reported comes before what is left out.
  have hsplit : sorted.take 5 ++ sorted.drop 5 = sorted := List.take_append_drop 5 sorted
  have hsublist : (sorted.take 5).Sublist sorted := List.take_sublist 5 sorted
  refine ⟨fun row hrow => ?_, hunique.sublist (hsublist.map _), hpairwise.sublist hsublist,
    fun line hline => ?_, List.length_take_le 5 sorted⟩
  · -- A reported row is a group of lines.
    have hmem : row ∈ sold_rows lines := hperm.mem_iff.mp (hsublist.subset hrow)
    obtain ⟨key, hkey, rfl⟩ := List.mem_map.mp hmem
    obtain ⟨line, hline, heq⟩ := List.mem_map.mp (List.mem_dedup.mp hkey)
    exact ⟨rfl, line, hline, heq⟩
  · -- The group of a line is either reported or left out, and then five rows are reported and none
    -- of them sold less.
    have hgroup : sold_row lines (line.menu_item_id, line.item_name) ∈ sorted := by
      refine hperm.mem_iff.mpr (List.mem_map_of_mem (List.mem_dedup.mpr ?_))
      exact List.mem_map.mpr ⟨line, hline, rfl⟩
    rw [← hsplit] at hgroup
    rcases List.mem_append.mp hgroup with htop | hrest
    · exact Or.inl (List.mem_map.mpr ⟨_, htop, rfl⟩)
    · refine Or.inr ⟨?_, fun row hrow => ?_⟩
      · have hlong : 0 < (sorted.drop 5).length := List.length_pos_of_mem hrest
        rw [List.length_drop] at hlong
        rw [List.length_take]
        omega
      · rw [← hsplit, List.pairwise_append] at hpairwise
        exact hpairwise.2.2 row hrow _ hrest

/-! ## The amounts -/

/-- What the figures need of stored orders. Every stored order has these by the checks of the
commands and the constraints of the table. -/
structure Countable (orders : List Order) : Prop where
  /-- Their keys are different. -/
  unique : Keyed.Unique Order.order_id orders
  /-- They fit their column. -/
  keys : ∀ order ∈ orders, order.order_id ≤ MAX_INTEGER
  /-- The totals are amounts of money. -/
  totals : ∀ order ∈ orders, Payload.money_value order.total

variable {orders : List Order}

/-- There are no more orders than keys. -/
theorem Countable.length_le (h : Countable orders) : orders.length ≤ MAX_INTEGER + 1 := by
  have hsubset : orders.map (·.order_id) ⊆ List.range (MAX_INTEGER + 1) := by
    intro id hid
    obtain ⟨order, horder, rfl⟩ := List.mem_map.mp hid
    exact List.mem_range.mpr (Nat.lt_succ_of_le (h.keys order horder))
  have hle := (List.subperm_of_subset h.unique hsubset).length_le
  rwa [List.length_map, List.length_range] at hle

/-- The figures of a day are a number of orders and a sum in cents. They are what the rounding
lemmas need: the sum is a whole number of cents, bounded by the number of orders. -/
theorem Countable.cents (h : Countable orders) (day : Date) : ∃ (n : ℕ) (c : ℤ),
    count_of orders day = n ∧ n ≤ MAX_INTEGER + 1 ∧ sales_of orders day = c / 10 ^ 2 ∧ 0 ≤ c ∧
      c ≤ 9999999999 * n := by
  set completed := orders.filter fun order =>
    order.status = .COMPLETED ∧ creation_date order.created_at = day with hcompleted
  -- Every total is a valid amount of money.
  have hmoney : ∀ total ∈ completed.map (·.total), Payload.money_value total := by
    rw [List.forall_mem_map]
    exact fun order horder => h.totals order (List.mem_filter.mp horder).1
  obtain ⟨c, hc⟩ := has_decimal_places_iff.mp
    (has_decimal_places_sum fun total htotal => (hmoney total htotal).2.2)
  have hnonneg : 0 ≤ (completed.map (·.total)).sum :=
    List.sum_nonneg fun total htotal => (hmoney total htotal).1
  -- The sum of the totals is at most the number of orders times the greatest amount.
  have hle : (completed.map (·.total)).sum ≤ completed.length • MAX_MONEY := by
    have hbound := List.sum_le_card_nsmul (completed.map (·.total)) MAX_MONEY
      fun total htotal => (hmoney total htotal).2.1
    rwa [List.length_map] at hbound
  rw [nsmul_eq_mul] at hle
  unfold MAX_MONEY at hle
  refine ⟨completed.length, c, rfl, (List.length_filter_le _ _).trans h.length_le, ?_, ?_, ?_⟩
  · show (completed.map (·.total)).sum = c / 10 ^ 2
    rw [← hc, mul_div_cancel_right₀ _ (by norm_num)]
  · have hcast : (0 : ℚ) ≤ c := by
      rw [← hc]
      exact mul_nonneg hnonneg (by norm_num)
    exact_mod_cast hcast
  · have hcast : (c : ℚ) ≤ (9999999999 * completed.length : ℤ) := by
      rw [← hc]
      push_cast
      linarith
    exact_mod_cast hcast

/-- The change of the sales. Both sums are in cents, so the change is rounded once only. -/
theorem Countable.sales_change {orders' : List Order} (h : Countable orders) (h' : Countable orders')
    (day day' : Date) : percent_change (sales_of orders day) (sales_of orders' day') =
      some (to_cents (exact_percent_change (sales_of orders day) (sales_of orders' day'))) := by
  obtain ⟨n, c, -, hn, hsales, hc, hcn⟩ := h.cents day
  obtain ⟨n', c', -, hn', hsales', hc', hcn'⟩ := h'.cents day'
  have hcents : ∀ c : ℤ, (c : ℚ) / 10 ^ 2 = c * 10 ^ (-2 : ℤ) := by
    intro c
    rw [zpow_neg, div_eq_mul_inv]
    rfl
  unfold MAX_INTEGER at hn hn'
  rw [hsales, hsales', hcents, hcents]
  exact percent_change_exact (-2) hc (by omega) hc' (by omega)

/-- The change of the number of orders. Both are whole numbers, so the change is rounded once only.
-/
theorem Countable.count_change {orders' : List Order} (h : Countable orders) (h' : Countable orders')
    (day day' : Date) : percent_change (count_of orders day) (count_of orders' day') =
      some (to_cents (exact_percent_change (count_of orders day) (count_of orders' day'))) := by
  obtain ⟨n, -, hcount, hn, -⟩ := h.cents day
  obtain ⟨n', -, hcount', hn', -⟩ := h'.cents day'
  unfold MAX_INTEGER at hn hn'
  have hexact := @percent_change_exact n n' 0 (by omega) (by omega) (by omega) (by omega)
  rw [zpow_zero, mul_one, mul_one] at hexact
  rw [hcount, hcount']
  exact hexact

/-- The average of a day before it is rounded. The code divides with 28 digits, and by zero it does
not divide. -/
theorem Countable.average_order (h : Countable orders) (day : Date) :
    average_order ⟨sales_of orders day, count_of orders day⟩ = context (average_of orders day) := by
  obtain ⟨n, -, hcount, -⟩ := h.cents day
  unfold Analytics.average_order average_of
  rw [hcount]
  rcases Nat.eq_zero_or_pos n with rfl | hpos
  · rw [if_neg (by simp), if_pos (by simp)]
    simpa using (context_exact (m := 0) (k := 0) (by norm_num)).symm
  · have hcount : (0 : ℤ) < n := by exact_mod_cast hpos
    rw [if_pos (by exact hcount), if_neg hcount.ne']

/-- The average of a day, rounded. The sum is in cents and the number bounded, so nothing is lost
before the last rounding. -/
theorem Countable.average_value (h : Countable orders) (day : Date) :
    quantize 2 (context (average_of orders day)) = some (to_cents (average_of orders day)) := by
  obtain ⟨n, c, hcount, hn, hsales, hc, hcn⟩ := h.cents day
  unfold average_of
  rw [hcount, hsales]
  unfold MAX_INTEGER at hn
  rcases Nat.eq_zero_or_pos n with rfl | hpos
  · rw [if_pos (by simp)]
    have hzero := @average_exact 0 1 le_rfl (by norm_num) Nat.one_pos
    simpa using hzero
  · rw [if_neg (by exact_mod_cast hpos.ne'), Int.cast_natCast]
    exact average_exact hc (by omega) hpos

/-- The change of the average. An average is 0 or not below a trillionth, and at most the greatest
total, so that the ratio of two averages is bounded. -/
theorem Countable.average_change {orders' : List Order} (h : Countable orders) (h' : Countable orders')
    (day day' : Date) : ∃ change,
      percent_change (context (average_of orders day)) (context (average_of orders' day')) = some change ∧
        |change - exact_percent_change (average_of orders day) (average_of orders' day')| < 1 / 100 := by
  -- The bounds hold of each of the two days.
  have hcents : ∀ {orders : List Order} (day : Date), Countable orders →
      0 ≤ average_of orders day ∧ average_of orders day ≤ 10 ^ 8 ∧
        (0 < average_of orders day → 1 / 10 ^ 12 ≤ average_of orders day) := by
    intro orders day h
    obtain ⟨n, c, hcount, hn, hsales, hc, hcn⟩ := h.cents day
    unfold average_of
    rw [hcount, hsales, Int.cast_natCast]
    unfold MAX_INTEGER at hn
    rcases Nat.eq_zero_or_pos n with rfl | hpos
    · rw [if_pos (by simp)]
      exact ⟨le_rfl, by norm_num, fun hzero => absurd hzero (lt_irrefl _)⟩
    · rw [if_neg (by exact_mod_cast hpos.ne')]
      have hnpos : (0 : ℚ) < n := by exact_mod_cast hpos
      have hn' : (n : ℚ) ≤ 2147483648 := by exact_mod_cast hn
      have hcn' : (c : ℚ) ≤ 9999999999 * n := by exact_mod_cast hcn
      have hc' : (0 : ℚ) ≤ c := by exact_mod_cast hc
      refine ⟨div_nonneg (div_nonneg hc' (by norm_num)) hnpos.le, ?_, fun hav => ?_⟩
      · rw [div_le_iff₀ hnpos]
        linarith
      · -- An average above 0 has at least one cent behind it.
        have hcpos : 0 < c := by
          by_contra hzero
          obtain rfl : c = 0 := by omega
          simp at hav
        have hone : (1 : ℚ) ≤ c := by exact_mod_cast hcpos
        rw [le_div_iff₀ hnpos]
        linarith
  obtain ⟨ha, hlarge, -⟩ := hcents day h
  obtain ⟨hp, -, hsmall⟩ := hcents day' h'
  refine percent_change_close ha hp fun hpos => ?_
  have := hsmall hpos
  linarith

/-! ## The dashboard -/

/-- The data are what the orders come to which the statements read. -/
structure Reports (db : Snapshots) (today : Date) (data : RestaurantDashboardAnalyticsData) : Prop where
  /-- The sales of the day. -/
  sales : data.sales.value = sales_of db.today_totals.orders today
  /-- Their change since the day before. -/
  sales_change : data.sales.change_percent = to_cents (exact_percent_change
    (sales_of db.today_totals.orders today) (sales_of db.yesterday_totals.orders (today - 1)))
  /-- The orders of the day. -/
  orders : data.orders.value = count_of db.today_totals.orders today
  /-- Their change. -/
  orders_change : data.orders.change_percent = to_cents (exact_percent_change
    (count_of db.today_totals.orders today) (count_of db.yesterday_totals.orders (today - 1)))
  /-- The average order of the day. -/
  average : data.average_order.value = to_cents (average_of db.today_totals.orders today)
  /-- Its change, which is less than a hundredth off. -/
  average_change : |data.average_order.change_percent - exact_percent_change
    (average_of db.today_totals.orders today) (average_of db.yesterday_totals.orders (today - 1))| <
      1 / 100
  /-- The seven days up to the day, one after another. -/
  sales_graph : data.sales_graph = (List.range 7).map fun (i : ℕ) =>
    ⟨isoformat (today - 6 + i), sales_of db.sales_graph.orders (today - 6 + i),
      count_of db.sales_graph.orders (today - 6 + i)⟩
  /-- Their sales are those of the completed orders of the week. -/
  graph_sales : (data.sales_graph.map (·.sales)).sum =
    ((completed_in db.sales_graph.orders (today - 6) today).map (·.total)).sum
  /-- Their orders are the completed orders of the week. -/
  graph_orders : (data.sales_graph.map (·.orders)).sum =
    (completed_in db.sales_graph.orders (today - 6) today).length
  /-- What sold best in the week. -/
  top_selling_items : ∃ rows,
    BestSelling (lines_in db.top_selling_items.orders (today - 6) today) rows ∧
      data.top_selling_items = rows.map fun row =>
        ⟨row.menu_item_id.getD 0, row.name, row.quantity_sold, row.sales⟩

/-- The orders that the statements read are countable, and the restaurant is one and the same. -/
structure Readable (organization_id : UUID) (restaurant_id : ℕ) (db : Branch) : Prop where
  /-- The organization. -/
  organization_id : db.organization_id = organization_id
  /-- The restaurant. -/
  restaurant_id : db.restaurant_id = restaurant_id
  /-- The orders. -/
  orders : Countable db.orders

/-- The restaurant of readable rows. -/
theorem Readable.restaurant {organization_id : UUID} {restaurant_id : ℕ}
    (h : Readable organization_id restaurant_id db) : db.restaurant access =
      ensure (access.restaurant_scope organization_id restaurant_id = true)
        (.NotFoundError "Restaurant not found") := by
  unfold Branch.restaurant
  rw [h.organization_id, h.restaurant_id]

/-- The dashboard of a caller who may see it. Each statement reads a database of its own, as they
may lie apart in time. -/
theorem get_restaurant_dashboard_analytics_reports {organization_id : UUID} {restaurant_id : ℕ}
    {db : Snapshots} (today : ReportDate) (arrangement : Arrangement)
    (haccess : Readable organization_id restaurant_id db.access)
    (hexists : Readable organization_id restaurant_id db.restaurant_exists)
    (htoday : Readable organization_id restaurant_id db.today_totals)
    (hyesterday : Readable organization_id restaurant_id db.yesterday_totals)
    (hgraph : Readable organization_id restaurant_id db.sales_graph)
    (hitems : Readable organization_id restaurant_id db.top_selling_items)
    (hscope : access.restaurant_scope organization_id restaurant_id = true)
    (hgranted : access.require .analytics_read = .ok ()) :
    ∃ data, get_restaurant_dashboard_analytics arrangement db access today = .ok data ∧
      Reports db today.day data := by
  -- All of them belong to the restaurant the caller may see.
  have hvisible : ∀ db, Readable organization_id restaurant_id db → db.restaurant access = .ok () := by
    intro db hdb
    rw [hdb.restaurant]
    exact ensure_eq_ok.mpr hscope
  have hreads : ∀ db, Readable organization_id restaurant_id db →
      access.restaurant_scope db.organization_id db.restaurant_id = true := by
    intro db hdb
    rw [hdb.organization_id, hdb.restaurant_id]
    exact hscope
  obtain ⟨average_change, haverage_change, hclose⟩ :=
    htoday.orders.average_change hyesterday.orders today.day (today.day - 1)
  -- First what the code answers, in terms of the rows it reads.
  have hdata : get_restaurant_dashboard_analytics arrangement db access today = .ok
      { sales := ⟨sales_of db.today_totals.orders today.day, to_cents (exact_percent_change
          (sales_of db.today_totals.orders today.day)
          (sales_of db.yesterday_totals.orders (today.day - 1)))⟩
        orders := ⟨count_of db.today_totals.orders today.day, to_cents (exact_percent_change
          (count_of db.today_totals.orders today.day)
          (count_of db.yesterday_totals.orders (today.day - 1)))⟩
        average_order := ⟨to_cents (average_of db.today_totals.orders today.day), average_change⟩
        sales_graph := (List.range 7).map fun (i : ℕ) => sales_point (Dict.index SalesGraphRow.date
          (get_sales_graph db.sales_graph access (start_of_day (today.day - 6)) (end_of_day today.day)))
          (today.day - 6 + i)
        top_selling_items := (get_top_selling_items arrangement db.top_selling_items access
          (start_of_day (today.day - 6)) (end_of_day today.day) 5).map fun row =>
            ⟨row.menu_item_id.getD 0, row.name, row.quantity_sold, row.sales⟩ } := by
    unfold get_restaurant_dashboard_analytics
    rw [hvisible _ haccess, hgranted, hvisible _ hexists]
    dsimp only
    rw [get_completed_totals_day (hreads _ htoday), get_completed_totals_day (hreads _ hyesterday)]
    dsimp only
    rw [htoday.orders.average_order, hyesterday.orders.average_order]
    unfold metric
    rw [htoday.orders.sales_change hyesterday.orders, htoday.orders.count_change hyesterday.orders,
      htoday.orders.average_value, haverage_change]
    rfl
  -- Then the points of the graph, day by day.
  have hpoints : ((List.range 7).map fun (i : ℕ) => sales_point (Dict.index SalesGraphRow.date
      (get_sales_graph db.sales_graph access (start_of_day (today.day - 6)) (end_of_day today.day)))
      (today.day - 6 + i)) = (List.range 7).map fun (i : ℕ) =>
        ⟨isoformat (today.day - 6 + i), sales_of db.sales_graph.orders (today.day - 6 + i),
          count_of db.sales_graph.orders (today.day - 6 + i)⟩ := by
    have hweek := today.week
    have hlast := today.last
    refine List.map_congr_left fun i hi => ?_
    rw [List.mem_range] at hi
    exact sales_point_day (hreads _ hgraph) (by lia) (by lia) (by lia) (by lia)
  -- The sums of the points are those of the seven days.
  obtain ⟨hsales, hcount⟩ := sum_days db.sales_graph.orders (today.day - 6) 7
  have hend : today.day - 6 + (7 : ℕ) - 1 = today.day := by
    push_cast
    lia
  rw [hend] at hsales hcount
  refine ⟨_, hdata, ⟨rfl, rfl, rfl, rfl, rfl, hclose, hpoints, ?_, ?_,
    _, get_top_selling_items_best (hreads _ hitems) arrangement _ _, rfl⟩⟩
  · dsimp only
    rw [hpoints, List.map_map]
    exact hsales
  · dsimp only
    rw [hpoints, List.map_map]
    exact hcount

/-! ## Runs -/

/-- The steps of other requests before a statement of the dashboard, which may run between two of its
statements. -/
def steps_before (acts : ℕ → List Act) (statement : ℕ) : List Act :=
  (List.range (statement + 1)).flatMap acts

/-- What the statements read in a run. Steps of other requests may lie before and between the
statements. -/
def snapshots (lib : Library) (start : ℕ → StorageBranch) (acts : ℕ → List Act) (k : ℕ) : Snapshots :=
  { access := storage_rows lib start (steps_before acts 0) k
    restaurant_exists := storage_rows lib start (steps_before acts 1) k
    today_totals := storage_rows lib start (steps_before acts 2) k
    yesterday_totals := storage_rows lib start (steps_before acts 3) k
    sales_graph := storage_rows lib start (steps_before acts 4) k
    top_selling_items := storage_rows lib start (steps_before acts 5) k }

/-- The rows of every reachable state are readable. -/
theorem run_readable (lib : Library) (start : ℕ → StorageBranch) (acts : List Act) (k : ℕ) :
    Readable (start k).organization_id (start k).restaurant_id (storage_rows lib start acts k) := by
  obtain ⟨horganization, hrestaurant, -⟩ :=
    run_enveloped lib (fun k => (start k).toLegacyBranch) acts k
  obtain ⟨-, -, hstored⟩ := run_storable lib start acts k
  have hbook := run_order_book lib (fun k => (start k).toLegacyBranch) acts k
  exact ⟨horganization, hrestaurant, hbook.unique, fun order horder => (hstored order horder).columns.1,
    fun order horder => (hstored order horder).total⟩

/-- In every run, with the steps of other requests before and between the statements of the
dashboard: who may not see the restaurant is told that there is none, and who may but has not been
granted the analytics is refused. Everyone else gets the data, without an exception of the decimal
arithmetic: the figures of the completed orders which the statements read, the seven days of the
week and what sold best in it. The snapshots are those of the statements, each of which may read a
later state of the run. -/
theorem dashboard_reports_orders (lib : Library) (start : ℕ → StorageBranch) (acts : ℕ → List Act) (k : ℕ)
    (arrangement : Arrangement) (access : AccessContext) (today : ReportDate) :
    let db := snapshots lib start acts k
    let visible := access.restaurant_scope (start k).organization_id (start k).restaurant_id
    let result := get_restaurant_dashboard_analytics arrangement db access today
    (visible = false → result = .error (.service (.NotFoundError "Restaurant not found"))) ∧
      (visible = true → .analytics_read ∉ ROLE_CAPABILITIES access.role →
        result = .error (.service (.ForbiddenError "Permission denied"))) ∧
      (visible = true → .analytics_read ∈ ROLE_CAPABILITIES access.role →
        ∃ data, result = .ok data ∧ Reports db today.day data) := by
  intro db visible result
  -- Every statement reads a readable state of the same restaurant.
  have hreadable : ∀ i, Readable (start k).organization_id (start k).restaurant_id
      (storage_rows lib start (steps_before acts i) k) :=
    fun i => run_readable lib start (steps_before acts i) k
  have haccess : db.access.restaurant access =
      ensure (visible = true) (.NotFoundError "Restaurant not found") := (hreadable 0).restaurant
  refine ⟨fun hhidden => ?_, fun hvisible hdenied => ?_, fun hvisible hgranted => ?_⟩
  · -- The first check hides the restaurant.
    show get_restaurant_dashboard_analytics arrangement db access today = _
    unfold get_restaurant_dashboard_analytics
    rw [haccess, hhidden]
    rfl
  · -- The second one refuses the capability.
    have hrequire : access.require .analytics_read = .error (.ForbiddenError "Permission denied") := by
      unfold AccessContext.require ensure
      rw [if_neg hdenied]
    show get_restaurant_dashboard_analytics arrangement db access today = _
    unfold get_restaurant_dashboard_analytics
    rw [haccess, hvisible, hrequire]
    rfl
  · exact get_restaurant_dashboard_analytics_reports today arrangement (hreadable 0) (hreadable 1)
      (hreadable 2) (hreadable 3) (hreadable 4) (hreadable 5) hvisible (ensure_eq_ok.mpr hgranted)

end RestaurantOS.Analytics
