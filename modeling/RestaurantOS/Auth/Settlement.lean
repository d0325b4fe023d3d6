import RestaurantOS.Auth.Admission

/-!
# What the scripts do for one admission

The scripts of an admission touch its own reservation and its own failures only. `FINALIZE` takes the
reservation away whatever its mode, and it counts a failure exactly where the reservation was still
held; a failure that stands in a bucket is one that was counted and not discarded since.
-/

namespace RestaurantOS.Auth.RateLimit

open SortedSets SortedKey

variable {policy : String → Limit} {limiter : Limiter} {now : ℕ} {id : String}
  {admitted : List String} {w : World}

/-! ## Settling -/

/-- A reservation is held as long as it has not expired. -/
theorem held_of_zscore {redis : Redis} {key : String} {score : ℕ} (hlasting : (redis key).Lasting)
    (hscore : (redis key).zscore (reservation id) = some score) (hlt : now < score) :
    Held redis key id now := by
  unfold Held
  rw [hlasting.zscore_pruned, hscore, Option.filter_some, if_pos (decide_eq_true hlt)]
  rfl

/-- Settling one bucket leaves what is held in another. -/
theorem held_settled {mode : Mode} {key other : String} (hne : other ≠ key) :
    Held (settled policy now id mode limiter key).redis other id now ↔
      Held limiter.redis other id now := by
  unfold Held
  rw [settle_other mode hne]

/-- The failures that are counted after a bucket is settled. -/
theorem mem_settled_counted {mode : Mode} {key : String} {r : Recorded} :
    r ∈ (settled policy now id mode limiter key).counted ↔
      (r ∈ limiter.counted ∧ ¬(mode = .discard ∧ r.key = key ∧ r.id = id)) ∨
        (mode = .count ∧ r = ⟨key, id, now⟩ ∧ Held limiter.redis key id now) := by
  rw [(settle_history policy limiter now id mode key).2, List.mem_append, List.mem_filter,
    decide_eq_true_eq]
  refine or_congr_right ?_
  unfold written Held
  split_ifs with h
  · rw [List.mem_singleton]
    exact ⟨fun heq => ⟨h.2, heq, h.1⟩, fun hr => hr.2.1⟩
  · exact ⟨fun hmem => absurd hmem List.not_mem_nil, fun hr => absurd ⟨hr.2.2, hr.1⟩ h⟩

/-- The failures that are counted after `FINALIZE`. The induction is on the keys, each of which is
settled once. -/
theorem mem_finalize_counted (keys : List String) {mode : Mode} {r : Recorded} :
    r ∈ (FINALIZE now id (keys.map (Limit.bucket policy)) mode limiter).counted ↔
      (r ∈ limiter.counted ∧ ¬(mode = .discard ∧ r.key ∈ keys ∧ r.id = id)) ∨
        (mode = .count ∧ r.key ∈ keys ∧ r = ⟨r.key, id, now⟩ ∧ Held limiter.redis r.key id now) := by
  -- The induction follows the keys in the order in which they are settled.
  induction keys generalizing limiter with
  | nil =>
    refine ⟨fun hmem => Or.inl ⟨hmem, fun h => List.not_mem_nil h.2.1⟩, ?_⟩
    rintro (⟨hmem, -⟩ | ⟨-, hmem, -⟩)
    · exact hmem
    · exact absurd hmem List.not_mem_nil
  | cons key keys ih =>
    have hrest : r ∈ (FINALIZE now id ((key :: keys).map (Limit.bucket policy)) mode limiter).counted ↔
        r ∈ (FINALIZE now id (keys.map (Limit.bucket policy)) mode
          (settled policy now id mode limiter key)).counted := Iff.rfl
    rw [hrest, ih, mem_settled_counted]
    by_cases hkey : r.key = key
    · -- The bucket itself: after it is settled nothing is held there.
      have hgone : ¬Held (settled policy now id mode limiter key).redis r.key id now := by
        intro hheld
        unfold Held at hheld
        obtain ⟨hlasting, -, hself⟩ := settle_self policy limiter now id mode key
        rw [hkey, hlasting.zscore_pruned, hself, if_pos rfl, Option.filter_none] at hheld
        cases hheld
      rw [hkey] at hgone ⊢
      simp only [List.mem_cons, true_or, true_and, hgone, and_false, or_false]
      constructor
      · rintro ⟨⟨hmem, hkept⟩ | hnew, -⟩
        · exact Or.inl ⟨hmem, hkept⟩
        · exact Or.inr hnew
      · rintro (⟨hmem, hkept⟩ | hnew)
        · exact ⟨Or.inl ⟨hmem, hkept⟩, fun h => hkept ⟨h.1, h.2.2⟩⟩
        · refine ⟨Or.inr hnew, fun h => ?_⟩
          rw [h.1] at hnew
          cases hnew.1
    · -- Another bucket: settling the first one changes neither its failures nor its reservations.
      have hnew : r ≠ ⟨key, id, now⟩ := fun heq => hkey (congrArg Recorded.key heq)
      rw [held_settled hkey]
      simp only [List.mem_cons, hkey, hnew, false_or, false_and, and_false, not_false_eq_true, and_true,
        or_false]

/-- Settling keeps the keys alive as long as their members. -/
theorem settled_lasting {mode : Mode} {key : String} (h : ∀ key, (limiter.redis key).Lasting)
    (other : String) : ((settled policy now id mode limiter key).redis other).Lasting := by
  by_cases hkey : other = key
  · rw [hkey]
    exact (settle_self policy limiter now id mode key).1
  · rw [settle_other mode hkey]
    exact h other

/-- A reservation that is there after `FINALIZE` was there before it, and is not the one that was
settled. -/
theorem finalize_reservation (keys : List String) {mode : Mode} {other id' : String} {score : ℕ}
    (hlasting : ∀ key, (limiter.redis key).Lasting)
    (hscore : ((FINALIZE now id (keys.map (Limit.bucket policy)) mode limiter).redis other).zscore
      (reservation id') = some score) :
    (limiter.redis other).zscore (reservation id') = some score ∧ (other ∈ keys → id' ≠ id) := by
  induction keys generalizing limiter with
  | nil => exact ⟨hscore, fun hmem => absurd hmem List.not_mem_nil⟩
  | cons key keys ih =>
    obtain ⟨hsettled, hrest⟩ := ih (settled_lasting hlasting) hscore
    obtain ⟨hbefore, hself⟩ := settle_reservation (hlasting key) hsettled
    refine ⟨hbefore, fun hmem => ?_⟩
    rcases List.mem_cons.mp hmem with heq | hmem
    · exact hself heq
    · exact hrest hmem

/-! ## Failures that stand -/

/-- A failure that stands in a bucket is counted. -/
def Backed (limiter : Limiter) : Prop :=
  ∀ key id, ((limiter.redis key).zscore (failure id)).isSome = true →
    ∃ r ∈ limiter.counted, r.key = key ∧ r.id = id

/-- Settling a bucket keeps failures backed. The bucket settled counts what it has written, and in
the other buckets nothing changes. -/
theorem Backed.settle (h : Backed limiter) (hlasting : ∀ key, (limiter.redis key).Lasting)
    (mode : Mode) (key : String) : Backed (settled policy now id mode limiter key) := by
  intro other id' hsome
  by_cases hkey : other = key
  · subst hkey
    rw [(settle_self policy limiter now id mode other).2.2,
      if_neg (failure_ne_reservation _ _)] at hsome
    split_ifs at hsome with hwritten hdiscard
    · obtain ⟨r, hr⟩ := List.exists_mem_of_ne_nil _ hwritten.2
      obtain ⟨rfl, hmode, hheld⟩ := mem_written hr
      exact ⟨_, mem_settled_counted.mpr (Or.inr ⟨hmode, rfl, hheld⟩), rfl,
        (failure_inj.mp hwritten.1).symm⟩
    · cases hsome
    · rw [(hlasting other).zscore_pruned] at hsome
      obtain ⟨r, hr, hrkey, hrid⟩ := h other id' (Option.isSome_of_isSome_filter _ _ hsome)
      refine ⟨r, mem_settled_counted.mpr (Or.inl ⟨hr, fun hall => hdiscard ⟨?_, hall.1⟩⟩), hrkey, hrid⟩
      rw [← hrid, hall.2.2]
  · rw [settle_other mode hkey] at hsome
    obtain ⟨r, hr, hrkey, hrid⟩ := h other id' hsome
    exact ⟨r, mem_settled_counted.mpr (Or.inl ⟨hr, fun hall => hkey (hrkey ▸ hall.2.1)⟩), hrkey, hrid⟩

/-- `FINALIZE` keeps failures backed. -/
theorem Backed.finalize (h : Backed limiter) (hlasting : ∀ key, (limiter.redis key).Lasting)
    (keys : List String) (mode : Mode) :
    Backed (FINALIZE now id (keys.map (Limit.bucket policy)) mode limiter) := by
  induction keys generalizing limiter with
  | nil => exact h
  | cons key keys ih => exact ih (h.settle hlasting mode key) (settled_lasting hlasting)

/-! ## Executions -/

/-- An admission with a new identifier is executed. Its time is not before that of the last
execution. -/
theorem World.step_admission {keys : List String} {probe : Bool} (hclock : w.clock ≤ now)
    (hnew : id ∉ w.admitted) : w.step policy ⟨now, .admission id keys probe⟩ =
      { limiter := { w.limiter with
          redis := (ADMIT now id (keys.map (Limit.bucket policy)) probe w.limiter.redis).2 }
        clock := now
        admitted := id :: w.admitted } := by
  unfold World.step
  rw [if_neg (Nat.not_lt_of_le hclock)]
  exact if_neg hnew

/-- A settlement is executed. -/
theorem World.step_finalize {keys : List String} {mode : Mode} (hclock : w.clock ≤ now) :
    w.step policy ⟨now, .finalize id keys mode⟩ =
      { w with
        limiter := FINALIZE now id (keys.map (Limit.bucket policy)) mode w.limiter
        clock := now } := by
  unfold World.step
  rw [if_neg (Nat.not_lt_of_le hclock)]

/-- An execution happens, or it changes nothing. It changes nothing with an old time or a used
identifier. -/
theorem World.step_cases (policy : String → Limit) (w : World) (execution : Execution) :
    w.step policy execution = w ∨ w.clock ≤ execution.now ∧
      ∀ id keys probe, execution.script = .admission id keys probe → id ∉ w.admitted := by
  unfold World.step
  by_cases hclock : execution.now < w.clock
  · rw [if_pos hclock]
    exact Or.inl rfl
  · rw [if_neg hclock]
    have hle := Nat.le_of_not_lt hclock
    cases hscript : execution.script with
    | admission id keys probe =>
      by_cases hknown : id ∈ w.admitted
      · exact Or.inl (if_pos hknown)
      · refine Or.inr ⟨hle, ?_⟩
        rintro _ _ _ ⟨⟩
        exact hknown
    | finalize id keys mode => exact Or.inr ⟨hle, nofun⟩

/-- The keys after an admission: its own reservation is there only if it is admitted, for the lease. -/
theorem World.Sound.admission_reservation (h : w.Sound policy) (hnew : id ∉ w.admitted)
    (keys : List String) (probe : Bool) {key : String} {score : ℕ}
    (hscore : ((ADMIT now id (keys.map (Limit.bucket policy)) probe w.limiter.redis).2 key).zscore
      (reservation id) = some score) :
    (ADMIT now id (keys.map (Limit.bucket policy)) probe w.limiter.redis).1 = 0 ∧
      score = now + 10000 := by
  -- The identifier is new, so no bucket has held its reservation before.
  have hnone : ∀ key, (w.limiter.redis key).zscore (reservation id) = none := fun key =>
    Option.not_isSome_iff_eq_none.mp fun hsome => hnew (h.reserved key id hsome)
  have hpruned : ∀ key, ((w.limiter.redis key).pruned now).zscore (reservation id) = none :=
    fun key => by rw [(h.lasting key).zscore_pruned, hnone, Option.filter_none]
  rcases admit_cases policy now keys probe hnone h.lasting with
    ⟨hzero, -, hin, hout⟩ | ⟨-, -, -, hall⟩
  · refine ⟨hzero, ?_⟩
    by_cases hkey : key ∈ keys
    · rw [(hin key hkey).zscore] at hscore
      split_ifs at hscore with hprobe
      · exact (Option.some_inj.mp hscore).symm
      · rw [hpruned] at hscore
        cases hscore
    · rw [hout key hkey, hnone] at hscore
      cases hscore
  · -- A refused admission adds no reservation.
    rw [hall] at hscore
    split_ifs at hscore with hkey
    · rw [hpruned] at hscore
      cases hscore
    · rw [hnone] at hscore
      cases hscore

/-- What an execution for one admission does to another: its failures are counted as before, and its
reservations only expire. -/
theorem World.Sound.step_other (h : w.Sound policy) {execution : Execution}
    (hne : id ≠ execution.script.id) :
    (∀ r : Recorded, r.id = id →
      (r ∈ (w.step policy execution).limiter.counted ↔ r ∈ w.limiter.counted)) ∧
    ∀ key score, ((w.step policy execution).limiter.redis key).zscore (reservation id) = some score →
      (w.limiter.redis key).zscore (reservation id) = some score := by
  obtain ⟨now, script⟩ := execution
  -- The execution has no effect, or it is a later one with a new identifier.
  rcases World.step_cases policy w ⟨now, script⟩ with heq | ⟨hclock, hnew⟩
  · rw [heq]
    exact ⟨fun _ _ => Iff.rfl, fun _ _ hscore => hscore⟩
  · cases script with
    | admission id' keys probe =>
      have hnew' := hnew id' keys probe rfl
      rw [World.step_admission hclock hnew']
      refine ⟨fun _ _ => Iff.rfl, fun key score hscore => ?_⟩
      rcases (Sound.later h hclock).admit_zscore hnew' keys probe key (reservation id)
        (fun heq => hne (reservation_inj.mp heq)) with heq | heq
      · exact heq.symm.trans hscore
      · exact (Option.filter_eq_some_iff.mp (heq.symm.trans hscore)).1
    | finalize id' keys mode =>
      rw [World.step_finalize hclock]
      refine ⟨fun r hr => ?_, fun key score hscore => (finalize_reservation keys h.lasting hscore).1⟩
      -- A failure of another admission is neither written nor discarded.
      have hid : r.id ≠ id' := fun heq => hne (hr.symm.trans heq)
      have hnew : r ≠ ⟨r.key, id', now⟩ := fun heq => hid (congrArg Recorded.id heq)
      dsimp only
      rw [mem_finalize_counted]
      simp only [hid, hnew, and_false, false_and, not_false_eq_true, and_true, or_false]

/-- The clock does not go back. An execution at an earlier time is ignored. -/
theorem World.clock_le_step (policy : String → Limit) (w : World) (execution : Execution) :
    w.clock ≤ (w.step policy execution).clock := by
  obtain ⟨now, script⟩ := execution
  rcases World.step_cases policy w ⟨now, script⟩ with heq | ⟨hclock, hnew⟩
  · rw [heq]
  · cases script with
    | admission id keys probe =>
      rw [World.step_admission hclock (hnew id keys probe rfl)]
      exact hclock
    | finalize id keys mode =>
      rw [World.step_finalize hclock]
      exact hclock

/-- Every bucket holds the reservation up to a time, if the clock has not reached it. -/
def Reserved (w : World) (keys : List String) (id : String) (expires : ℕ) : Prop :=
  ∀ key ∈ keys, w.clock < expires →
    (w.limiter.redis key).zscore (reservation id) = some expires

/-- An execution for another admission keeps a reservation. -/
theorem World.Sound.step_reserved (h : w.Sound policy) {execution : Execution} {keys : List String}
    {expires : ℕ} (hreserved : Reserved w keys id expires) (hne : id ≠ execution.script.id) :
    Reserved (w.step policy execution) keys id expires := fun key hkey hlt =>
  h.step_zscore hne (hreserved key hkey ((World.clock_le_step policy w execution).trans_lt hlt)) hlt

/-- An admission that is answered with zero is reserved for the lease. -/
theorem World.Sound.admission_reserved (h : w.Sound policy) {keys : List String}
    (hclock : w.clock ≤ now) (hnew : id ∉ w.admitted)
    (hzero : (ADMIT now id (keys.map (Limit.bucket policy)) false w.limiter.redis).1 = 0) :
    Reserved (w.step policy ⟨now, .admission id keys false⟩) keys id (now + 10000) := by
  intro key hkey _
  have hnone : ∀ key, (w.limiter.redis key).zscore (reservation id) = none := fun key =>
    Option.not_isSome_iff_eq_none.mp fun hsome => hnew (h.reserved key id hsome)
  rw [World.step_admission hclock hnew]
  rcases admit_cases policy now keys false hnone h.lasting with ⟨-, -, hin, -⟩ | ⟨hpos, -⟩
  · rw [(hin key hkey).zscore, if_pos ⟨rfl, rfl⟩]
  · exact absurd hzero (Nat.pos_iff_ne_zero.mp hpos)

/-- Executions keep failures backed. Admissions leave the failures alone, and a finalization settles
key by key. -/
theorem World.Sound.step_backed (h : w.Sound policy) (hbacked : Backed w.limiter)
    (execution : Execution) : Backed (w.step policy execution).limiter := by
  obtain ⟨now, script⟩ := execution
  rcases World.step_cases policy w ⟨now, script⟩ with heq | ⟨hclock, hnew⟩
  · rw [heq]
    exact hbacked
  · cases script with
    | admission id keys probe =>
      have hnew' := hnew id keys probe rfl
      rw [World.step_admission hclock hnew']
      intro key id' hsome
      refine hbacked key id' ?_
      rcases (Sound.later h hclock).admit_zscore hnew' keys probe key (failure id')
        (failure_ne_reservation _ _) with heq | heq
      · exact heq ▸ hsome
      · exact Option.isSome_of_isSome_filter _ _ (heq ▸ hsome)
    | finalize id keys mode =>
      rw [World.step_finalize hclock]
      exact hbacked.finalize h.lasting keys mode

end RestaurantOS.Auth.RateLimit
