import RestaurantOS.Auth.RateLimit

/-!
# The window bound of the limiter

What the scripts of the limiter keep, in every sequence of executions. `Sound` is the invariant of
the keys and of their history: a bucket holds at most its maximum, its key lives as long as its last
member, a reservation belongs to an admission, and a failure that is counted stands in its bucket
until its window ends. The failures of the current window are therefore members of the bucket, which
bounds them, and those of other windows can only become fewer.
-/

namespace RestaurantOS.Auth.RateLimit

open SortedSets SortedKey

variable {policy : String → Limit} {redis : Redis} {limiter : Limiter} {now : ℕ} {id : String}

/-! ## The first loop of `ADMIT` -/

/-- A bucket has no room at `now`. Its unexpired members are at least as many as its maximum. -/
def Full (policy : String → Limit) (redis : Redis) (now : ℕ) (key : String) : Prop :=
  (policy key).maximum ≤ ((redis key).pruned now).zcard

/-- Members are counted. -/
instance (policy : String → Limit) (redis : Redis) (now : ℕ) (key : String) :
    Decidable (Full policy redis now key) :=
  inferInstanceAs (Decidable (_ ≤ _))

/-- A bucket in the first loop. -/
theorem check_bucket (retry : ℕ) (key : String) :
    ADMIT.check now (retry, redis) (Limit.bucket policy key) =
      (if Full policy redis now key then
          max retry (((redis key).pruned now).first_score.getD now - now)
        else retry,
        Function.update redis key ((redis key).pruned now)) := rfl

/-- The first loop prunes each key. -/
theorem foldl_check_snd (buckets : List Bucket) (acc : ℕ × Redis) :
    (buckets.foldl (ADMIT.check now) acc).2 =
      update_each (SortedKey.pruned · now) (buckets.map Bucket.key) acc.2 := by
  induction buckets generalizing acc with
  | nil => rfl
  | cons bucket buckets ih => exact ih (ADMIT.check now acc bucket)

variable (policy now) in
/-- The keys after the first loop. Each key of the list is pruned, and the others are not touched.
-/
theorem foldl_check_apply (redis : Redis) (keys : List String) (retry : ℕ) (key : String) :
    ((keys.map (Limit.bucket policy)).foldl (ADMIT.check now) (retry, redis)).2 key =
      if key ∈ keys then (redis key).pruned now else redis key := by
  have hkeys : (keys.map (Limit.bucket policy)).map Bucket.key = keys := by
    rw [List.map_map]
    exact List.map_id keys
  rw [foldl_check_snd, hkeys]
  split_ifs with hkey
  · refine update_each_of_mem (P := (· = (redis key).pruned now)) hkey rfl fun b hb => ?_
    rw [hb]
    exact pruned_pruned now
  · exact update_each_of_not_mem hkey redis

/-- Pruning one key does not change what pruning finds in another. -/
theorem pruned_update (key other : String) :
    (Function.update redis key ((redis key).pruned now) other).pruned now =
      (redis other).pruned now := by
  by_cases hkey : other = key
  · rw [hkey, Function.update_self, pruned_pruned]
  · rw [Function.update_of_ne hkey]

variable (policy now) in
/-- The wait of the first loop covers the first member of every full bucket. -/
theorem foldl_check_fst (keys : List String) (retry : ℕ) (redis : Redis) :
    let outcome := ((keys.map (Limit.bucket policy)).foldl (ADMIT.check now) (retry, redis)).1
    retry ≤ outcome ∧
      (∀ key ∈ keys, Full policy redis now key →
        ((redis key).pruned now).first_score.getD now ≤ now + outcome) ∧
      (retry < outcome → ∃ key ∈ keys, Full policy redis now key) := by
  -- The induction follows the loop over the keys, with the wait found so far.
  induction keys generalizing retry redis with
  | nil => exact ⟨le_refl _, by simp, fun h => absurd h (lt_irrefl _)⟩
  | cons key keys ih =>
    rw [List.map_cons, List.foldl_cons, check_bucket]
    -- The other buckets are as full as they were, and their first members the same.
    have hfull : ∀ other, Full policy (Function.update redis key ((redis key).pruned now)) now other ↔
        Full policy redis now other := by
      intro other
      unfold Full
      rw [pruned_update]
    -- A full bucket raises the wait to the time of its first member.
    by_cases hkey : Full policy redis now key
    · rw [if_pos hkey]
      obtain ⟨hle, hwait, -⟩ := ih (max retry (((redis key).pruned now).first_score.getD now - now))
        (Function.update redis key ((redis key).pruned now))
      refine ⟨le_of_max_le_left hle, fun other hother hother_full => ?_,
        fun _ => ⟨key, List.mem_cons_self, hkey⟩⟩
      rcases List.mem_cons.mp hother with rfl | hother
      · have hhead := le_of_max_le_right hle
        omega
      · have hother_wait := hwait other hother ((hfull other).mpr hother_full)
        rwa [pruned_update] at hother_wait
    · -- A bucket with room leaves the wait as it is.
      rw [if_neg hkey]
      obtain ⟨hle, hwait, hsome⟩ := ih retry (Function.update redis key ((redis key).pruned now))
      refine ⟨hle, fun other hother hother_full => ?_, fun hlt => ?_⟩
      · rcases List.mem_cons.mp hother with rfl | hother
        · exact absurd hother_full hkey
        · have hother_wait := hwait other hother ((hfull other).mpr hother_full)
          rwa [pruned_update] at hother_wait
      · obtain ⟨other, hother, hother_full⟩ := hsome hlt
        exact ⟨other, List.mem_cons_of_mem _ hother, (hfull other).mp hother_full⟩

/-- The first member of a full bucket leaves later. -/
theorem Full.exists_first {key : String} (h : Full policy redis now key) : ∃ member score,
    ((redis key).pruned now).first_score = some score ∧
      ((redis key).pruned now).zscore member = some score ∧ now < score := by
  have hpositive : 0 < ((redis key).pruned now).zcard := (policy key).maximum_pos.trans_le h
  obtain ⟨member, score, hfirst, hscore⟩ := exists_first_score hpositive
  exact ⟨member, score, hfirst, hscore, after_pruned now member score hscore⟩

/-- The first loop asks to wait when a bucket is full. -/
theorem wait_pos_iff (keys : List String) (redis : Redis) :
    0 < ((keys.map (Limit.bucket policy)).foldl (ADMIT.check now) (0, redis)).1 ↔
      ∃ key ∈ keys, Full policy redis now key := by
  obtain ⟨-, hwait, hsome⟩ := foldl_check_fst policy now keys 0 redis
  refine ⟨hsome, ?_⟩
  rintro ⟨key, hkey, hfull⟩
  obtain ⟨-, score, hfirst, -, hlt⟩ := hfull.exists_first
  have hle := hwait key hkey hfull
  rw [hfirst, Option.getD_some] at hle
  omega

/-! ## The second loop of `ADMIT` -/

/-- A key with a new reservation. A probe leaves no reservation, so its key is as it was. -/
structure Reserves (now : ℕ) (id : String) (probe : Bool) (before key : SortedKey String) : Prop where
  /-- The reservation is there, unless it was a probe, and the other members are as they were. -/
  zscore : ∀ member, key.zscore member =
    if member = reservation id ∧ probe = false then some (now + 10000) else before.zscore member
  /-- The reservation of an attempt is one member more. -/
  zcard : key.zcard ≤ before.zcard + (!probe).toNat
  /-- The key lives as long as its last member. -/
  lasting : key.Lasting
  /-- No member has left. -/
  after : key.After now

/-- Reserving in a key where the identifier is new, or again. -/
theorem reserve_reserves {probe : Bool} {before key : SortedKey String} (hafter : key.After now)
    (hnew : before.zscore (reservation id) = none)
    (hother : ∀ member, member ≠ reservation id → key.zscore member = before.zscore member)
    (hcard : key.zcard ≤ before.zcard ∨
      probe = false ∧ (key.zscore (reservation id)).isSome ∧ key.zcard ≤ before.zcard + 1) :
    Reserves now id probe before (ADMIT.reserve now id probe key) := by
  -- The reservation is the member that expires last.
  have hadded : (key.zadd (now + 10000) (reservation id)).After now := hafter.zadd (by omega) _
  have hscore := zscore_expire_with_last hadded
  have hlasting := hadded.lasting
  have hafter' : ((key.zadd (now + 10000) (reservation id)).expire_with_last now).After now :=
    fun member score h => hadded member score ((hscore member).symm.trans h)
  have hle := zcard_expire_with_last_le (k := key.zadd (now + 10000) (reservation id)) now
  have hadd := zcard_zadd_le (k := key) (now + 10000) (reservation id)
  unfold ADMIT.reserve
  cases probe with
  -- An admission keeps the reservation for the time of the lease.
  | false =>
    refine ⟨fun member => ?_, ?_, hlasting, hafter'⟩
    · rw [if_neg Bool.false_ne_true, hscore, zscore_zadd]
      split_ifs with hmember hboth hboth
      · rfl
      · exact absurd ⟨hmember, rfl⟩ hboth
      · exact absurd hboth.1 hmember
      · exact hother member hmember
    · rw [if_neg Bool.false_ne_true, Bool.not_false, Bool.toNat_true]
      rcases hcard with hcard | ⟨-, hsome, hcard⟩
      · omega
      · rw [zcard_zadd_of_mem hsome] at hle
        omega
  -- A probe takes it away again, so nothing but the expiry has changed.
  | true =>
    refine ⟨fun member => ?_, ?_, hlasting.zrem _, hafter'.zrem _⟩
    · rw [if_pos rfl, if_neg fun h : member = reservation id ∧ true = false =>
        Bool.noConfusion h.2, zscore_zrem]
      split_ifs with hmember
      · rw [hmember, hnew]
      · rw [hscore, zscore_zadd, if_neg hmember]
        exact hother member hmember
    · rw [if_pos rfl, Bool.not_true, Bool.toNat_false]
      have hsome : (((key.zadd (now + 10000) (reservation id)).expire_with_last now).zscore
          (reservation id)).isSome := by
        rw [hscore, zscore_zadd, if_pos rfl, Option.isSome_some]
      have hlt := zcard_zrem_lt hsome
      rcases hcard with hcard | ⟨hprobe, -⟩
      · omega
      · exact absurd hprobe (by decide)

/-- What `ADMIT` does for a new identifier: either every bucket has room and gets the reservation,
or the keys are only pruned. -/
theorem admit_cases (policy : String → Limit) (now : ℕ) (keys : List String) (probe : Bool)
    (hnew : ∀ key, (redis key).zscore (reservation id) = none)
    (hlasting : ∀ key, (redis key).Lasting) :
    let outcome := ADMIT now id (keys.map (Limit.bucket policy)) probe redis
    (outcome.1 = 0 ∧ (∀ key ∈ keys, ¬Full policy redis now key) ∧
        (∀ key ∈ keys, Reserves now id probe ((redis key).pruned now) (outcome.2 key)) ∧
        ∀ key, key ∉ keys → outcome.2 key = redis key) ∨
      (0 < outcome.1 ∧ (∃ key ∈ keys, Full policy redis now key) ∧
        (∀ key ∈ keys, Full policy redis now key → ∃ member score,
          ((redis key).pruned now).zscore member = some score ∧ score ≤ now + 1000 * outcome.1) ∧
        ∀ key, outcome.2 key = if key ∈ keys then (redis key).pruned now else redis key) := by
  intro outcome
  -- The keys of the buckets are the keys of the call.
  have hkeys : (keys.map (Limit.bucket policy)).map Bucket.key = keys := by
    rw [List.map_map]
    exact List.map_id keys
  have hpruned := foldl_check_apply policy now redis keys 0
  by_cases hwait : 0 < ((keys.map (Limit.bucket policy)).foldl (ADMIT.check now) (0, redis)).1
  · -- Some bucket is full, and the loop only prunes.
    right
    have houtcome : outcome = (max 1 ((((keys.map (Limit.bucket policy)).foldl (ADMIT.check now)
        (0, redis)).1 + 999) / 1000), ((keys.map (Limit.bucket policy)).foldl (ADMIT.check now)
        (0, redis)).2) := if_pos hwait
    rw [houtcome]
    refine ⟨lt_max_of_lt_left Nat.one_pos, (wait_pos_iff keys redis).mp hwait,
      fun key hkey hfull => ?_, hpruned⟩
    obtain ⟨member, score, hfirst, hscore, -⟩ := hfull.exists_first
    have hle := (foldl_check_fst policy now keys 0 redis).2.1 key hkey hfull
    rw [hfirst, Option.getD_some] at hle
    exact ⟨member, score, hscore, by dsimp only; omega⟩
  · -- No bucket is full, so the second loop reserves in each of them.
    left
    have houtcome : outcome = (0, update_each (ADMIT.reserve now id probe) keys
        ((keys.map (Limit.bucket policy)).foldl (ADMIT.check now) (0, redis)).2) :=
      (if_neg hwait).trans (by rw [hkeys])
    rw [houtcome]
    have hroom : ∀ key ∈ keys, ¬Full policy redis now key := fun key hkey hfull =>
      hwait ((wait_pos_iff keys redis).mpr ⟨key, hkey, hfull⟩)
    refine ⟨rfl, hroom, fun key hkey => ?_, fun key hkey => ?_⟩
    · -- The identifier is new, and if a key is named twice, the second time it is there already.
      have hnone : ((redis key).pruned now).zscore (reservation id) = none := by
        rw [(hlasting key).zscore_pruned, hnew, Option.filter_none]
      refine update_each_of_mem hkey ?_ fun b hb => ?_
      · rw [hpruned, if_pos hkey]
        exact reserve_reserves (after_pruned now) hnone (fun _ _ => rfl) (Or.inl (le_refl _))
      · refine reserve_reserves hb.after hnone (fun member hmember => ?_) ?_
        · rw [hb.zscore, if_neg fun h => hmember h.1]
        · cases probe with
          | false =>
            refine Or.inr ⟨rfl, ?_, hb.zcard⟩
            rw [hb.zscore, if_pos ⟨rfl, rfl⟩, Option.isSome_some]
          | true => exact Or.inl hb.zcard
    · dsimp only
      rw [update_each_of_not_mem hkey, hpruned, if_neg hkey]

/-! ## The invariant -/

/-- The end of the window in which a failure was written. -/
def Recorded.window_end (policy : String → Limit) (r : Recorded) : ℕ :=
  RateLimit.window_end ((policy r.key).window * 1000) r.recorded_at

/-- The failures of a bucket in one window, of those in a list. -/
def failures_in (policy : String → Limit) (key : String) (window : ℕ) (rs : List Recorded) :
    List Recorded :=
  rs.filter fun r => r.key = key ∧ r.window policy = window

/-- The reservation of an admission is still held in a bucket at `now`. -/
def Held (redis : Redis) (key id : String) (now : ℕ) : Prop :=
  (((redis key).pruned now).zscore (reservation id)).isSome

/-- The invariant of the keys and their history at time `now`, after the admissions `admitted`. -/
structure Sound (policy : String → Limit) (now : ℕ) (admitted : List String) (limiter : Limiter) :
    Prop where
  /-- No bucket holds more than its maximum. -/
  bounded : ∀ key, (limiter.redis key).zcard ≤ (policy key).maximum
  /-- The keys live as long as their members. -/
  lasting : ∀ key, (limiter.redis key).Lasting
  /-- A reservation is that of an admission. -/
  reserved : ∀ key id, ((limiter.redis key).zscore (reservation id)).isSome → id ∈ admitted
  /-- A failure is that of an admission. -/
  known : ∀ r ∈ limiter.recorded, r.id ∈ admitted
  /-- The reservation for which a failure was written is gone. -/
  spent : ∀ r ∈ limiter.recorded, (limiter.redis r.key).zscore (reservation r.id) = none
  /-- An admission has one failure in a bucket. -/
  once : (limiter.recorded.map fun r => (r.key, r.id)).Nodup
  /-- What is counted was written. -/
  counted : limiter.counted.Sublist limiter.recorded
  /-- A counted failure stands in its bucket until its window ends. -/
  standing : ∀ r ∈ limiter.counted, now < r.window_end policy →
    (limiter.redis r.key).zscore (failure r.id) = some (r.window_end policy)
  /-- In no window are more failures counted than the bucket admits. -/
  quota : ∀ key window,
    (failures_in policy key window limiter.counted).length ≤ (policy key).maximum

/-- The invariant holds at a later time. -/
theorem Sound.later {clock : ℕ} {admitted : List String} (h : Sound policy clock admitted limiter)
    (hle : clock ≤ now) : Sound policy now admitted limiter :=
  { h with standing := fun r hr hlt => h.standing r hr (hle.trans_lt hlt) }

/-- Counted failures whose windows have not ended are members of their bucket, so it bounds them. -/
theorem length_le_maximum {rs : List Recorded} {key : String}
    (hnodup : (rs.map fun r => (r.key, r.id)).Nodup) (hkey : ∀ r ∈ rs, r.key = key)
    (hstanding : ∀ r ∈ rs, ((redis key).zscore (failure r.id)).isSome)
    (hbounded : (redis key).zcard ≤ (policy key).maximum) : rs.length ≤ (policy key).maximum := by
  have hnames : (rs.map fun r => failure r.id).Nodup := by
    refine List.Nodup.of_map (fun name => (key, name)) ?_
    rw [List.map_map]
    refine (List.nodup_map_iff_inj_on (List.Nodup.of_map _ hnodup)).mpr fun r hr r' hr' heq => ?_
    refine List.inj_on_of_nodup_map hnodup hr hr' ?_
    have hid : failure r.id = failure r'.id := congrArg Prod.snd heq
    rw [hkey r hr, hkey r' hr', failure_inj.mp hid]
  calc rs.length = (rs.map fun r => failure r.id).length := (List.length_map _).symm
    _ ≤ (redis key).zcard := by
        refine length_le_zcard hnames fun member hmember => ?_
        obtain ⟨r, hr, rfl⟩ := List.mem_map.mp hmember
        exact hstanding r hr
    _ ≤ (policy key).maximum := hbounded

/-- A time lies before the end of its window. -/
theorem lt_window_end {window : ℕ} (hpos : 0 < window) (now : ℕ) : now < window_end window now := by
  unfold window_end
  rw [Nat.mul_comm]
  exact Nat.lt_mul_div_succ now hpos

/-! ## Admissions keep the invariant -/

/-- The keys after `ADMIT`: the members other than the new reservation are those before it, up to
those that have left. -/
theorem Sound.admit_zscore {admitted : List String} (h : Sound policy now admitted limiter)
    (hnew : id ∉ admitted) (keys : List String) (probe : Bool) (key member : String) :
    let outcome := ADMIT now id (keys.map (Limit.bucket policy)) probe limiter.redis
    member ≠ reservation id →
      (outcome.2 key).zscore member = (limiter.redis key).zscore member ∨
        (outcome.2 key).zscore member = ((limiter.redis key).zscore member).filter (now < ·) := by
  intro outcome hmember
  have hnone : ∀ key, (limiter.redis key).zscore (reservation id) = none := fun key =>
    Option.not_isSome_iff_eq_none.mp fun hsome => hnew (h.reserved key id hsome)
  rcases admit_cases policy now keys probe hnone h.lasting
    with ⟨-, -, hin, hout⟩ | ⟨-, -, -, hall⟩
  · by_cases hkey : key ∈ keys
    · right
      rw [(hin key hkey).zscore, if_neg fun hboth => hmember hboth.1, (h.lasting key).zscore_pruned]
    · exact Or.inl (congrArg (zscore · member) (hout key hkey))
  · by_cases hkey : key ∈ keys
    · right
      rw [hall, if_pos hkey, (h.lasting key).zscore_pruned]
    · left
      rw [hall, if_neg hkey]

/-- `ADMIT` keeps the invariant. The first loop only prunes, and the second one reserves if there is
room in every bucket. -/
theorem Sound.admission {admitted : List String} (h : Sound policy now admitted limiter)
    (hnew : id ∉ admitted) (keys : List String) (probe : Bool) :
    Sound policy now (id :: admitted)
      { limiter with
        redis := (ADMIT now id (keys.map (Limit.bucket policy)) probe limiter.redis).2 } := by
  -- No bucket holds a reservation of the new identifier.
  have hnone : ∀ key, (limiter.redis key).zscore (reservation id) = none := fun key =>
    Option.not_isSome_iff_eq_none.mp fun hsome => hnew (h.reserved key id hsome)
  have hzscore := h.admit_zscore hnew keys probe
  -- The bounds are those of each bucket.
  have hbucket : ∀ key, ((ADMIT now id (keys.map (Limit.bucket policy)) probe limiter.redis).2
      key).zcard ≤ (policy key).maximum ∧
      ((ADMIT now id (keys.map (Limit.bucket policy)) probe limiter.redis).2 key).Lasting := by
    intro key
    rcases admit_cases policy now keys probe hnone
      h.lasting with ⟨-, hroom, hin, hout⟩ | ⟨-, -, -, hall⟩
    · by_cases hkey : key ∈ keys
      · have hlt := Nat.lt_of_not_le (hroom key hkey)
        have hcard := (hin key hkey).zcard
        have hone := Bool.toNat_le (!probe)
        exact ⟨by omega, (hin key hkey).lasting⟩
      · rw [hout key hkey]
        exact ⟨h.bounded key, h.lasting key⟩
    · -- A refused admission only prunes.
      rw [hall]
      split_ifs
      · exact ⟨(zcard_pruned_le now).trans (h.bounded key), (h.lasting key).pruned now⟩
      · exact ⟨h.bounded key, h.lasting key⟩
  have hne : ∀ {id'}, id' ∈ admitted → reservation id' ≠ reservation id := fun hid heq =>
    hnew (reservation_inj.mp heq ▸ hid)
  refine ⟨fun key => (hbucket key).1, fun key => (hbucket key).2, fun key id' hsome => ?_,
    fun r hr => List.mem_cons_of_mem _ (h.known r hr), fun r hr => ?_, h.once, h.counted,
    fun r hr hlt => ?_, h.quota⟩
  · -- A reservation that is there now was there before, or is the new one.
    by_cases hid : id' = id
    · exact hid ▸ List.mem_cons_self
    · refine List.mem_cons_of_mem _ (h.reserved key id' ?_)
      rcases hzscore key (reservation id') (fun heq => hid (reservation_inj.mp heq)) with heq | heq
      · rwa [← heq]
      · rw [heq] at hsome
        obtain ⟨score, hscore⟩ := Option.isSome_iff_exists.mp hsome
        rw [(Option.filter_eq_some_iff.mp hscore).1, Option.isSome_some]
  · -- What has been settled stays settled.
    rcases hzscore r.key (reservation r.id) (hne (h.known r hr)) with heq | heq
    · exact heq.trans (h.spent r hr)
    · exact heq.trans (by rw [h.spent r hr, Option.filter_none])
  · -- A failure of the current window stays in its bucket.
    have hstanding := h.standing r hr hlt
    rcases hzscore r.key (failure r.id) (failure_ne_reservation _ _) with heq | heq
    · exact heq.trans hstanding
    · refine heq.trans ?_
      rw [hstanding, Option.filter_some, if_pos (decide_eq_true hlt)]

/-! ## Settlements keep the invariant -/

/-- One step of the loop of `FINALIZE`. The bucket of a key is cleaned, and the reservation of the
attempt is settled in it. -/
abbrev settled (policy : String → Limit) (now : ℕ) (id : String) (mode : Mode) (limiter : Limiter)
    (key : String) : Limiter :=
  FINALIZE.settle now id mode limiter (Limit.bucket policy key)

/-- The failure that settling writes to a bucket, if any. -/
def written (now : ℕ) (id : String) (mode : Mode) (limiter : Limiter) (key : String) :
    List Recorded :=
  if (((limiter.redis key).pruned now).zscore (reservation id)).isSome ∧ mode = .count
  then [⟨key, id, now⟩] else []

variable (policy limiter now id) in
/-- The history after settling a bucket. What is recorded grows, and what is counted loses the
attempt where it is discarded. -/
theorem settle_history (mode : Mode) (key : String) :
    (settled policy now id mode limiter key).recorded =
        limiter.recorded ++ written now id mode limiter key ∧
      (settled policy now id mode limiter key).counted =
        (limiter.counted.filter fun r => ¬(mode = .discard ∧ r.key = key ∧ r.id = id)) ++
          written now id mode limiter key := by
  unfold settled FINALIZE.settle written Limit.bucket
  dsimp only
  by_cases hcount : (((limiter.redis key).pruned now).zscore (reservation id)).isSome ∧
      mode = .count
  · rw [if_pos hcount, if_pos hcount]
    exact ⟨rfl, rfl⟩
  · rw [if_neg hcount, if_neg hcount]
    exact ⟨(List.append_nil _).symm, (List.append_nil _).symm⟩

/-- Other keys are not settled. -/
theorem settle_other (mode : Mode) {key other : String} (hother : other ≠ key) :
    (settled policy now id mode limiter key).redis other = limiter.redis other := by
  unfold settled FINALIZE.settle
  dsimp only
  split_ifs <;> exact Function.update_of_ne hother _ _

variable (policy limiter now id) in
/-- The bucket that is settled. Its reservation is gone, a counted failure is there until the end of
its window, and a discarded one is gone. -/
theorem settle_self (mode : Mode) (key : String) :
    let after := (settled policy now id mode limiter key).redis key
    after.Lasting ∧ after.zcard ≤ (limiter.redis key).zcard ∧
      ∀ member, after.zscore member =
        if member = reservation id then none
        else if member = failure id ∧ written now id mode limiter key ≠ [] then
          some (window_end ((policy key).window * 1000) now)
        else if member = failure id ∧ mode = .discard then none
        else ((limiter.redis key).pruned now).zscore member := by
  have hwindow := (policy key).window_pos
  -- The window ends after now, so a failure that is written lasts.
  have hend : now < window_end ((policy key).window * 1000) now := lt_window_end (by omega) now
  have hafter := (after_pruned (k := limiter.redis key) now).zrem (reservation id)
  have hcard := zcard_pruned_le (k := limiter.redis key) now
  have hrem := zcard_zrem_le (k := (limiter.redis key).pruned now) (reservation id)
  unfold settled FINALIZE.settle written Limit.bucket
  dsimp only
  -- The reservation is held and the failure counts: it takes the place of the reservation.
  by_cases hcount : (((limiter.redis key).pruned now).zscore (reservation id)).isSome ∧
      mode = .count
  · have hadded := hafter.zadd hend (failure id)
    have hlt := zcard_zrem_lt hcount.1
    have hmode : mode ≠ .discard := by rw [hcount.2]; decide
    rw [if_pos hcount, if_pos hcount, if_neg hmode]
    dsimp only
    rw [Function.update_self]
    refine ⟨hadded.lasting, ?_, fun member => ?_⟩
    · have hexpire := zcard_expire_with_last_le (k := (((limiter.redis key).pruned now).zrem
        (reservation id)).zadd (window_end ((policy key).window * 1000) now) (failure id)) now
      have hadd := zcard_zadd_le (k := ((limiter.redis key).pruned now).zrem (reservation id))
        (window_end ((policy key).window * 1000) now) (failure id)
      omega
    · rw [zscore_expire_with_last hadded, zscore_zadd, zscore_zrem]
      rcases eq_or_ne member (failure id) with rfl | hfailure
      · simp
      · simp [hfailure]
  · -- Nothing is counted; a discarded failure is removed with the reservation.
    rw [if_neg hcount, if_neg hcount]
    dsimp only
    rw [Function.update_self]
    by_cases hmode : mode = .discard
    · have hremoved := hafter.zrem (failure id)
      rw [if_pos hmode]
      refine ⟨hremoved.lasting, ?_, fun member => ?_⟩
      · exact (zcard_expire_with_last_le now).trans ((zcard_zrem_le _).trans (hrem.trans hcard))
      · rw [zscore_expire_with_last hremoved, zscore_zrem, zscore_zrem]
        rcases eq_or_ne member (failure id) with rfl | hfailure
        · simp [hmode]
        · simp [hfailure]
    · rw [if_neg hmode]
      refine ⟨hafter.lasting, ?_, fun member => ?_⟩
      · exact (zcard_expire_with_last_le now).trans (hrem.trans hcard)
      · rw [zscore_expire_with_last hafter, zscore_zrem]
        simp [hmode]

/-- A reservation that is there after settling a bucket was there before it, and is another one. -/
theorem settle_reservation {mode : Mode} {key other id' : String} {score : ℕ}
    (hlasting : (limiter.redis key).Lasting)
    (hscore : ((settled policy now id mode limiter key).redis other).zscore (reservation id') =
      some score) :
    (limiter.redis other).zscore (reservation id') = some score ∧ (other = key → id' ≠ id) := by
  by_cases hkey : other = key
  · subst hkey
    rw [(settle_self policy limiter now id mode other).2.2] at hscore
    split_ifs at hscore with hreservation hfailure hdiscard
    · exact absurd hfailure.1.symm (failure_ne_reservation _ _)
    · rw [hlasting.zscore_pruned, Option.filter_eq_some_iff] at hscore
      exact ⟨hscore.1, fun _ hid => hreservation (congrArg reservation hid)⟩
  · rw [settle_other mode hkey] at hscore
    exact ⟨hscore, fun heq => absurd heq hkey⟩

/-- What settling writes is the failure of an admission whose reservation is held. -/
theorem mem_written {mode : Mode} {key : String} {r : Recorded}
    (hr : r ∈ written now id mode limiter key) :
    r = ⟨key, id, now⟩ ∧ mode = .count ∧ Held limiter.redis key id now := by
  unfold written at hr
  split_ifs at hr with hcount
  · exact ⟨List.mem_singleton.mp hr, hcount.2, hcount.1⟩
  · exact absurd hr List.not_mem_nil

/-- A held reservation is a member. -/
theorem Held.isSome {key : String} (h : Held redis key id now) (hlasting : (redis key).Lasting) :
    ((redis key).zscore (reservation id)).isSome := by
  unfold Held at h
  obtain ⟨score, hscore⟩ := Option.isSome_iff_exists.mp h
  rw [hlasting.zscore_pruned, Option.filter_eq_some_iff] at hscore
  rw [hscore.1, Option.isSome_some]

/-- A failure is written for an admission that has none in the bucket. -/
theorem Sound.written_fresh {admitted : List String} (h : Sound policy now admitted limiter)
    {mode : Mode} {key : String} {r : Recorded} (hr : r ∈ written now id mode limiter key) :
    r = ⟨key, id, now⟩ ∧ id ∈ admitted ∧
      ∀ old ∈ limiter.recorded, old.key = key → old.id ≠ id := by
  obtain ⟨heq, -, hheld⟩ := mem_written hr
  have hsome := hheld.isSome (h.lasting key)
  refine ⟨heq, h.reserved key id hsome, fun old hold hkey hid => ?_⟩
  have hnone := h.spent old hold
  rw [hkey, hid] at hnone
  exact absurd hsome (by simp [hnone])

/-- After settling a bucket the counted failures stand. The failure is the one that has just been
written, or an older one that stays. -/
theorem Sound.settle_standing {admitted : List String} (h : Sound policy now admitted limiter)
    {mode : Mode} {key : String} {r : Recorded}
    (hr : r ∈ (settled policy now id mode limiter key).counted) (hlt : now < r.window_end policy) :
    ((settled policy now id mode limiter key).redis r.key).zscore (failure r.id) =
      some (r.window_end policy) := by
  have hself := (settle_self policy limiter now id mode key).2.2
  rw [(settle_history policy limiter now id mode key).2] at hr
  rcases List.mem_append.mp hr with hold | hnew
  · obtain ⟨hmem, hkept⟩ := List.mem_filter.mp hold
    have hstands := h.standing r hmem hlt
    by_cases hkey : r.key = key
    · -- A failure that is kept is not the one that is written or discarded.
      rw [hkey] at hstands ⊢
      rw [hself, if_neg (failure_ne_reservation _ _), if_neg, if_neg, (h.lasting key).zscore_pruned,
        hstands, Option.filter_some, if_pos (decide_eq_true hlt)]
      · exact fun hboth => of_decide_eq_true hkept ⟨hboth.2, hkey, failure_inj.mp hboth.1⟩
      · rintro ⟨hid, hne⟩
        obtain ⟨new, hnew⟩ := List.exists_mem_of_ne_nil _ hne
        exact (h.written_fresh hnew).2.2 r (h.counted.subset hmem) hkey (failure_inj.mp hid)
    · rw [settle_other mode hkey]
      exact hstands
  · rw [(h.written_fresh hnew).1]
    rw [hself, if_neg (failure_ne_reservation _ _), if_pos ⟨rfl, List.ne_nil_of_mem hnew⟩]
    rfl

/-- Settling a bucket keeps the failures of an admission unique. -/
theorem Sound.settle_once {admitted : List String} (h : Sound policy now admitted limiter)
    (mode : Mode) (key : String) :
    ((settled policy now id mode limiter key).recorded.map fun r => (r.key, r.id)).Nodup := by
  rw [(settle_history policy limiter now id mode key).1, List.map_append]
  refine List.nodup_append.mpr ⟨h.once, ?_, fun pair hold pair' hnew heq => ?_⟩
  · unfold written
    split_ifs <;> simp
  · obtain ⟨old, holdmem, rfl⟩ := List.mem_map.mp hold
    obtain ⟨new, hnewmem, rfl⟩ := List.mem_map.mp hnew
    obtain ⟨rfl, -, hfresh⟩ := h.written_fresh hnewmem
    exact hfresh old holdmem (congrArg Prod.fst heq) (congrArg Prod.snd heq)

/-- Settling a bucket writes failures of the current window only. -/
theorem settle_failures_in {mode : Mode} {key key' : String} {window : ℕ}
    (hwindow : window ≠ now / ((policy key').window * 1000)) :
    (failures_in policy key' window (settled policy now id mode limiter key).counted).length ≤
      (failures_in policy key' window limiter.counted).length := by
  rw [(settle_history policy limiter now id mode key).2]
  have hnil : failures_in policy key' window (written now id mode limiter key) = [] := by
    refine List.filter_eq_nil_iff.mpr fun r hr hin => ?_
    obtain ⟨rfl, -, -⟩ := mem_written hr
    obtain ⟨rfl, rfl⟩ := of_decide_eq_true hin
    exact hwindow rfl
  have hsub := (List.filter_sublist (l := limiter.counted)
    (p := fun r => ¬(mode = .discard ∧ r.key = key ∧ r.id = id))).filter
      (fun r => r.key = key' ∧ r.window policy = window)
  calc (failures_in policy key' window ((limiter.counted.filter fun r =>
        ¬(mode = .discard ∧ r.key = key ∧ r.id = id)) ++ written now id mode limiter key)).length
      = (failures_in policy key' window (limiter.counted.filter fun r =>
          ¬(mode = .discard ∧ r.key = key ∧ r.id = id))).length := by
        unfold failures_in at hnil ⊢
        rw [List.filter_append, hnil, List.append_nil]
    _ ≤ (failures_in policy key' window limiter.counted).length := hsub.length_le

variable (id) in
/-- Settling one bucket keeps the invariant. The bucket that is settled has one member fewer or as
many, and the other buckets stay. -/
theorem Sound.settle {admitted : List String} (h : Sound policy now admitted limiter)
    (mode : Mode) (key : String) :
    Sound policy now admitted (settled policy now id mode limiter key) := by
  obtain ⟨hlasting, hcard, -⟩ := settle_self policy limiter now id mode key
  obtain ⟨hrecorded, hcounted⟩ := settle_history policy limiter now id mode key
  -- What is counted is a part of what has been recorded.
  have hsub : (settled policy now id mode limiter key).counted.Sublist
      (settled policy now id mode limiter key).recorded := by
    rw [hcounted, hrecorded]
    exact (List.filter_sublist.trans h.counted).append_right _
  have hbounded : ∀ key', ((settled policy now id mode limiter key).redis key').zcard ≤
      (policy key').maximum := by
    intro key'
    by_cases hkey : key' = key
    · rw [hkey]
      exact hcard.trans (h.bounded key)
    · rw [settle_other mode hkey]
      exact h.bounded key'
  refine ⟨hbounded, fun key' => ?_, fun key' id' hsome => ?_, fun r hr => ?_, fun r hr => ?_,
    h.settle_once mode key, hsub, fun r hr => h.settle_standing hr, fun key' window => ?_⟩
  · -- The settled bucket is bounded and lasts, and the others are as they were.
    by_cases hkey : key' = key
    · exact hkey ▸ hlasting
    · rw [settle_other mode hkey]
      exact h.lasting key'
  · obtain ⟨score, hscore⟩ := Option.isSome_iff_exists.mp hsome
    have hbefore := (settle_reservation (h.lasting key) hscore).1
    exact h.reserved key' id' (Option.isSome_iff_exists.mpr ⟨score, hbefore⟩)
  · -- What is recorded was recorded before, or belongs to this admission.
    rw [hrecorded] at hr
    rcases List.mem_append.mp hr with hold | hnew
    · exact h.known r hold
    · obtain ⟨rfl, hadmitted, -⟩ := h.written_fresh hnew
      exact hadmitted
  · -- The reservation is gone from the buckets in which a failure has been recorded.
    refine Option.eq_none_iff_forall_ne_some.mpr fun score hscore => ?_
    obtain ⟨hbefore, hother⟩ := settle_reservation (h.lasting key) hscore
    rw [hrecorded] at hr
    rcases List.mem_append.mp hr with hold | hnew
    · rw [h.spent r hold] at hbefore
      exact absurd hbefore (by simp)
    · obtain ⟨rfl, -, -⟩ := h.written_fresh hnew
      exact hother rfl rfl
  · by_cases hwindow : window = now / ((policy key').window * 1000)
    · -- The failures of the current window stand in the bucket.
      have hin : ∀ r ∈ failures_in policy key' window
          (settled policy now id mode limiter key).counted,
            r ∈ (settled policy now id mode limiter key).counted ∧ r.key = key' ∧
              now < r.window_end policy := by
        intro r hr
        obtain ⟨hmem, hin⟩ := List.mem_filter.mp hr
        obtain ⟨hkey, hwin⟩ := of_decide_eq_true hin
        have hlt : now < window_end ((policy key').window * 1000) now :=
          lt_window_end (Nat.mul_pos (policy key').window_pos (Nat.succ_pos _)) now
        refine ⟨hmem, hkey, ?_⟩
        unfold Recorded.window at hwin
        unfold Recorded.window_end
        unfold window_end at hlt ⊢
        rwa [hwin, hkey, hwindow]
      refine length_le_maximum ?_ (fun r hr => (hin r hr).2.1) (fun r hr => ?_) (hbounded key')
      · exact (h.settle_once mode key).sublist ((List.filter_sublist.trans hsub).map _)
      · obtain ⟨hmem, hkey, hlt⟩ := hin r hr
        rw [← hkey, h.settle_standing hmem hlt, Option.isSome_some]
    · -- Another window keeps the failures it had.
      exact (settle_failures_in hwindow).trans (h.quota key' window)

/-- `FINALIZE` keeps the invariant. -/
theorem Sound.finalize {admitted : List String} (h : Sound policy now admitted limiter)
    (keys : List String) (mode : Mode) :
    Sound policy now admitted (FINALIZE now id (keys.map (Limit.bucket policy)) mode limiter) := by
  induction keys generalizing limiter with
  | nil => exact h
  | cons key keys ih => exact ih (h.settle id mode key)

/-- A reservation that is held after settling a bucket was held before it. -/
theorem Held.before_settle {admitted : List String} (h : Sound policy now admitted limiter)
    {mode : Mode} {key other id' : String}
    (hheld : Held (settled policy now id mode limiter key).redis other id' now) :
    Held limiter.redis other id' now := by
  unfold Held at hheld ⊢
  obtain ⟨score, hscore⟩ := Option.isSome_iff_exists.mp hheld
  rw [((h.settle id mode key).lasting other).zscore_pruned, Option.filter_eq_some_iff] at hscore
  have hbefore := (settle_reservation (h.lasting key) hscore.1).1
  rw [(h.lasting other).zscore_pruned, hbefore, Option.filter_some, if_pos hscore.2,
    Option.isSome_some]

/-- The failures that `FINALIZE` writes are those of its admission, in its buckets, where the
reservation is still held. -/
theorem Sound.finalize_recorded {admitted : List String} (h : Sound policy now admitted limiter)
    (keys : List String) (mode : Mode) : ∃ new,
      (FINALIZE now id (keys.map (Limit.bucket policy)) mode limiter).recorded =
        limiter.recorded ++ new ∧
      ∀ r ∈ new, r.id = id ∧ r.key ∈ keys ∧ r.recorded_at = now ∧ mode = .count ∧
        Held limiter.redis r.key id now := by
  induction keys generalizing limiter with
  | nil => exact ⟨[], (List.append_nil _).symm, by simp⟩
  | cons key keys ih =>
    obtain ⟨new, hnew, hall⟩ := ih (h.settle id mode key)
    refine ⟨written now id mode limiter key ++ new, ?_, fun r hr => ?_⟩
    · refine hnew.trans ?_
      rw [(settle_history policy limiter now id mode key).1, List.append_assoc]
    · rcases List.mem_append.mp hr with hwritten | hlater
      · obtain ⟨rfl, hmode, hheld⟩ := mem_written hwritten
        exact ⟨rfl, List.mem_cons_self, rfl, hmode, hheld⟩
      · obtain ⟨hid, hkey, hat, hmode, hheld⟩ := hall r hlater
        exact ⟨hid, List.mem_cons_of_mem _ hkey, hat, hmode, hheld.before_settle h⟩

/-- Settling a bucket for another admission keeps a reservation that has not expired. -/
theorem settle_zscore {mode : Mode} {key other id' : String} {score : ℕ} (hne : id' ≠ id)
    (hlasting : (limiter.redis key).Lasting)
    (hscore : (limiter.redis other).zscore (reservation id') = some score) (hlt : now < score) :
    ((settled policy now id mode limiter key).redis other).zscore (reservation id') = some score := by
  by_cases hkey : other = key
  · subst hkey
    rw [(settle_self policy limiter now id mode other).2.2, if_neg fun heq => hne (reservation_inj.mp heq),
      if_neg fun h => failure_ne_reservation _ _ h.1.symm,
      if_neg fun h => failure_ne_reservation _ _ h.1.symm, hlasting.zscore_pruned, hscore,
      Option.filter_some, if_pos (decide_eq_true hlt)]
  · rw [settle_other mode hkey]
    exact hscore

/-- `FINALIZE` for another admission keeps a reservation that has not expired. -/
theorem Sound.finalize_zscore {admitted : List String} (h : Sound policy now admitted limiter)
    (keys : List String) (mode : Mode) {other id' : String} {score : ℕ} (hne : id' ≠ id)
    (hscore : (limiter.redis other).zscore (reservation id') = some score) (hlt : now < score) :
    ((FINALIZE now id (keys.map (Limit.bucket policy)) mode limiter).redis other).zscore
      (reservation id') = some score := by
  induction keys generalizing limiter with
  | nil => exact hscore
  | cons key keys ih => exact ih (h.settle id mode key) (settle_zscore hne (h.lasting key) hscore hlt)

/-! ## Runs -/

/-- The invariant of a world. It is that of the limiter, with what has been admitted so far. -/
def World.Sound (policy : String → Limit) (w : World) : Prop :=
  RateLimit.Sound policy w.clock w.admitted w.limiter

/-- Nothing is counted at first. -/
theorem World.initial_sound : World.Sound policy World.initial :=
  ⟨fun _ => Nat.zero_le _, fun _ => lasting_missing, by simp [World.initial], by simp [World.initial],
    by simp [World.initial], List.nodup_nil, List.Sublist.refl _, by simp [World.initial],
    fun _ _ => Nat.zero_le _⟩

/-- An execution keeps the invariant. One that comes with an old time or identifier changes nothing.
-/
theorem World.Sound.step {w : World} (h : w.Sound policy) (execution : Execution) :
    (w.step policy execution).Sound policy := by
  unfold World.step
  split_ifs with hclock
  · exact h
  · have hlater := Sound.later h (Nat.le_of_not_lt hclock)
    cases hscript : execution.script with
    | admission id keys probe =>
      dsimp only
      split_ifs with hknown
      · exact h
      · exact hlater.admission hknown keys probe
    | finalize id keys mode => exact hlater.finalize keys mode

/-- The invariant holds after every sequence of executions. -/
theorem scripts_sound (executions : List Execution) :
    (World.scripts policy executions).Sound policy :=
  Transition.run_invariant (fun _ execution h => h.step execution) World.initial_sound executions

/-- A reservation that has not expired is kept by the executions of other admissions. -/
theorem World.Sound.step_zscore {w : World} (h : w.Sound policy) {execution : Execution}
    (hne : id ≠ execution.script.id) {key : String} {score : ℕ}
    (hscore : (w.limiter.redis key).zscore (reservation id) = some score)
    (hlt : (w.step policy execution).clock < score) :
    ((w.step policy execution).limiter.redis key).zscore (reservation id) = some score := by
  unfold World.step at hlt ⊢
  split_ifs at hlt ⊢ with hclock
  · exact hscore
  · have hlater := Sound.later h (Nat.le_of_not_lt hclock)
    cases hscript : execution.script with
    | admission id' keys probe =>
      rw [hscript] at hlt hne
      dsimp only at hlt ⊢
      split_ifs at hlt ⊢ with hknown
      · exact hscore
      · rcases hlater.admit_zscore hknown keys probe key (reservation id)
          (fun heq => hne (reservation_inj.mp heq)) with heq | heq
        · exact heq.trans hscore
        · refine heq.trans ?_
          rw [hscore, Option.filter_some, if_pos (decide_eq_true hlt)]
    | finalize id' keys mode =>
      rw [hscript] at hlt hne
      exact hlater.finalize_zscore keys mode hne hscore hlt

/-- The keys as `ADMIT` finds them: the members that have left are dropped from its own. -/
def pruned_keys (keys : List String) (now : ℕ) (redis : Redis) (key : String) : SortedKey String :=
  if key ∈ keys then (redis key).pruned now else redis key

/-- **The window bound.** After every sequence of executions no bucket holds more than its maximum,
no key expires before its last member leaves, no window has more failures counted than its bucket
admits, and an admission has at most one failure in a bucket. The next `ADMIT` answers zero if and
only if all its buckets have room, and then each of them, and no other, gets the reservation (which
a probe gives back); otherwise it adds nothing and asks to wait for at least a second, after which,
if nothing else happens, every bucket that was full has lost a member. The next `FINALIZE` writes
failures for its own admission only, in its own buckets, where the reservation was still held. -/
theorem window_bound (policy : String → Limit) (executions : List Execution) :
    let w := World.scripts policy executions
    (∀ key, (w.limiter.redis key).zcard ≤ (policy key).maximum ∧ (w.limiter.redis key).Lasting) ∧
    (∀ key window,
      (failures_in policy key window w.limiter.counted).length ≤ (policy key).maximum) ∧
    (w.limiter.recorded.map fun r => (r.key, r.id)).Nodup ∧
    (∀ (now : ℕ) (id : String) (keys : List String) (probe : Bool), w.clock ≤ now →
      id ∉ w.admitted →
        let outcome := ADMIT now id (keys.map (Limit.bucket policy)) probe w.limiter.redis
        let before := pruned_keys keys now w.limiter.redis
        (outcome.1 = 0 ↔ ∀ key ∈ keys, ¬Full policy w.limiter.redis now key) ∧
          (outcome.1 = 0 → ∀ key member, (outcome.2 key).zscore member =
            if key ∈ keys ∧ member = reservation id ∧ probe = false then some (now + 10000)
            else (before key).zscore member) ∧
          (outcome.1 ≠ 0 → outcome.2 = before ∧ 1 ≤ outcome.1 ∧
            ∀ key ∈ keys, Full policy w.limiter.redis now key → ∀ later,
              now + 1000 * outcome.1 ≤ later →
                ((outcome.2 key).pruned later).zcard < (outcome.2 key).zcard)) ∧
    ∀ (now : ℕ) (id : String) (keys : List String) (mode : Mode), w.clock ≤ now → ∃ new,
      (FINALIZE now id (keys.map (Limit.bucket policy)) mode w.limiter).recorded =
        w.limiter.recorded ++ new ∧
      ∀ r ∈ new, r.id = id ∧ r.key ∈ keys ∧ r.recorded_at = now ∧ mode = .count ∧
        Held w.limiter.redis r.key id now := by
  intro w
  have hw : w.Sound policy := scripts_sound executions
  refine ⟨fun key => ⟨hw.bounded key, hw.lasting key⟩, hw.quota, hw.once,
    fun now id keys probe _ hnew => ?_,
    fun now id keys mode hclock => (hw.later hclock).finalize_recorded keys mode⟩
  intro outcome before
  have hnone : ∀ key, (w.limiter.redis key).zscore (reservation id) = none := fun key =>
    Option.not_isSome_iff_eq_none.mp fun hsome => hnew (hw.reserved key id hsome)
  -- What `ADMIT` does is either to reserve everywhere or to prune.
  rcases admit_cases policy now keys probe hnone hw.lasting with
    ⟨hzero, hroom, hin, hout⟩ | ⟨hpos, hfull, hwait, hall⟩
  · refine ⟨⟨fun _ => hroom, fun _ => hzero⟩, fun _ key member => ?_, fun hne => absurd hzero hne⟩
    by_cases hkey : key ∈ keys
    · have hbefore : before key = (w.limiter.redis key).pruned now := if_pos hkey
      rw [hbefore, (hin key hkey).zscore]
      simp only [hkey, true_and]
    · have hbefore : before key = w.limiter.redis key := if_neg hkey
      rw [hbefore, if_neg fun h => hkey h.1]
      exact congrArg (zscore · member) (hout key hkey)
  · -- By the end of the wait the first member of each full bucket has left.
    obtain ⟨full, hfull_mem, hfull⟩ := hfull
    have hne : outcome.1 ≠ 0 := Nat.pos_iff_ne_zero.mp hpos
    refine ⟨⟨fun hzero => absurd hzero hne, fun hroom => absurd hfull (hroom full hfull_mem)⟩,
      fun hzero => absurd hzero hne,
      fun _ => ⟨funext hall, hpos, fun key hkey hkey_full later hlater => ?_⟩⟩
    obtain ⟨member, score, hscore, hle⟩ := hwait key hkey hkey_full
    have hafter : outcome.2 key = (w.limiter.redis key).pruned now := (hall key).trans (if_pos hkey)
    rw [hafter]
    exact zcard_pruned_lt hscore (hle.trans hlater)

/-- A bucket for one failure is full until the window of the failure ends. -/
example :
    let policy : String → Limit := fun _ => ⟨1, 60, by decide, by decide⟩
    let w := World.scripts policy
      [⟨5000, .admission "a" ["k"] false⟩, ⟨6000, .finalize "a" ["k"] .count⟩]
    let retry := fun now => (ADMIT now "b" [Limit.bucket policy "k"] false w.limiter.redis).1
    (retry 7000, retry 59999, retry 60000) = (53, 1, 0) := by
  decide

end RestaurantOS.Auth.RateLimit
