import Mathlib.Tactic.Linarith
import RestaurantOS.Auth.LocalLimiter
import RestaurantOS.Lib.Run

/-!
# The buckets in memory

What `_clean`, `_local_admit` and `_local_finalize` do, in terms of what is read under a bucket and an
admission: the time up to which its failure counts (`failure`), and the one up to which its
reservation holds (`held`). `Bounded` is the invariant of the buckets: none is fuller than its local
maximum, no admission stands in one twice, and there are not too many.
-/

namespace RestaurantOS.Auth.LocalLimiter

/-! ## Reading the buckets -/

/-- When the failure of an admission in a bucket expires. -/
def failure (entries : Entries) (key id : String) : Option ℚ :=
  (entries.get key).bind fun entry => entry.failures.get id

/-- When the reservation of an admission in a bucket expires. -/
def held (entries : Entries) (key id : String) : Option ℚ :=
  (entries.get key).bind fun entry => entry.reservations.get id

/-- A bucket with nothing in it has no failure and no reservation. -/
theorem LocalBucket.get_of_size_zero {entry : LocalBucket} (h : entry.size = 0) (id : String) :
    entry.failures.get id = none ∧ entry.reservations.get id = none := by
  unfold LocalBucket.size at h
  constructor
  · refine Option.not_isSome_iff_eq_none.mp fun hsome => ?_
    have hpos := Dict.size_pos hsome
    omega
  · refine Option.not_isSome_iff_eq_none.mp fun hsome => ?_
    have hpos := Dict.size_pos hsome
    omega

/-- A bucket after cleaning. -/
theorem get_clean (now : ℚ) (entries : Entries) (key : String) :
    (clean now entries).get key =
      ((entries.get key).map (LocalBucket.cleaned now)).filter fun entry => entry.size ≠ 0 := by
  unfold clean
  rw [Dict.get_keep, Dict.get_map_values]

/-- What is read from a bucket after cleaning, where an empty bucket gives nothing. -/
theorem bind_get_clean (now : ℚ) (entries : Entries) (key : String) (f : LocalBucket → Option ℚ)
    (hf : ∀ entry : LocalBucket, entry.size = 0 → f entry = none) :
    ((clean now entries).get key).bind f =
      (entries.get key).bind fun entry => f (entry.cleaned now) := by
  rw [get_clean]
  cases entries.get key with
  | none => rfl
  | some entry =>
    rw [Option.map_some, Option.filter_some]
    by_cases hsize : (entry.cleaned now).size = 0
    · rw [if_neg (by simp [hsize])]
      exact (hf _ hsize).symm
    · rw [if_pos (by simp [hsize])]
      rfl

/-- Cleaning drops the failures that have expired, and no others. -/
theorem failure_clean (now : ℚ) (entries : Entries) (key id : String) :
    failure (clean now entries) key id = (failure entries key id).filter (now < ·) := by
  unfold failure
  rw [bind_get_clean now entries key _ fun entry h => (entry.get_of_size_zero h id).1]
  cases entries.get key with
  | none => rfl
  | some entry => exact Dict.get_keep _ id

/-- Cleaning drops the reservations that have expired, and no others. -/
theorem held_clean (now : ℚ) (entries : Entries) (key id : String) :
    held (clean now entries) key id = (held entries key id).filter (now < ·) := by
  unfold held
  rw [bind_get_clean now entries key _ fun entry h => (entry.get_of_size_zero h id).2]
  cases entries.get key with
  | none => rfl
  | some entry => exact Dict.get_keep _ id

/-- What is in a bucket after cleaning has not expired, and there is something. -/
theorem live_of_get_clean {now : ℚ} {entries : Entries} {key : String} {entry : LocalBucket}
    (h : (clean now entries).get key = some entry) :
    entry.size ≠ 0 ∧ ∀ expires ∈ entry.failures.values ++ entry.reservations.values,
      now < expires := by
  rw [get_clean, Option.filter_eq_some_iff, Option.map_eq_some_iff] at h
  obtain ⟨⟨before, -, rfl⟩, hsize⟩ := h
  refine ⟨of_decide_eq_true hsize, fun expires hmem => ?_⟩
  rcases List.mem_append.mp hmem with hmem | hmem
  · obtain ⟨item, hitem, rfl⟩ := List.mem_map.mp hmem
    exact of_decide_eq_true (List.mem_filter.mp hitem).2
  · obtain ⟨item, hitem, rfl⟩ := List.mem_map.mp hmem
    exact of_decide_eq_true (List.mem_filter.mp hitem).2

/-! ## The invariant -/

/-- The bounds of the buckets in memory. No call breaks it at any time, as each critical section
keeps it. -/
structure Bounded (config : Config) (entries : Entries) : Prop where
  /-- No bucket is fuller than its local maximum. -/
  size : ∀ key entry, entries.get key = some entry →
    entry.size ≤ (config.policy key).local_maximum
  /-- No admission is both a failure and a reservation of a bucket. -/
  disjoint : ∀ key id, (failure entries key id).isSome = true → held entries key id = none
  /-- There are not too many buckets. -/
  total : entries.size ≤ config.auth_local_max_entries

variable {config : Config} {entries : Entries} {now : ℚ}

/-- There are no buckets at first. -/
theorem Bounded.empty (config : Config) : Bounded config Dict.empty :=
  ⟨fun _ _ h => (by cases h), fun _ _ h => (by cases h), Nat.zero_le _⟩

/-- Cleaning keeps the invariant. It only drops entries and empty buckets. -/
theorem Bounded.clean (h : Bounded config entries) (now : ℚ) : Bounded config (clean now entries) := by
  refine ⟨fun key entry hentry => ?_, fun key id hsome => ?_, ?_⟩
  · rw [get_clean, Option.filter_eq_some_iff, Option.map_eq_some_iff] at hentry
    obtain ⟨⟨before, hbefore, rfl⟩, -⟩ := hentry
    have hle := h.size key before hbefore
    have hfailures : (before.cleaned now).failures.size ≤ before.failures.size := Dict.size_keep_le _
    have hreservations : (before.cleaned now).reservations.size ≤ before.reservations.size :=
      Dict.size_keep_le _
    unfold LocalBucket.size at hle ⊢
    omega
  · rw [failure_clean] at hsome
    obtain ⟨expires, hexpires⟩ := Option.isSome_iff_exists.mp hsome
    have hbefore := (Option.filter_eq_some_iff.mp hexpires).1
    rw [held_clean, h.disjoint key id (by rw [hbefore]; rfl), Option.filter_none]
  · exact (Dict.size_keep_le _).trans ((Dict.size_map_values _).le.trans h.total)

/-! ## Local admission -/

/-- A fold whose steps do not decrease is at least what it starts from. -/
theorem le_foldl {α : Type*} {step : ℚ → α → ℚ} (h : ∀ retry a, retry ≤ step retry a) (as : List α)
    (retry : ℚ) : retry ≤ as.foldl step retry := by
  induction as generalizing retry with
  | nil => exact le_rfl
  | cons a as ih => exact (h retry a).trans (ih _)

/-- A bucket that is full after cleaning makes the caller wait. -/
theorem local_retry_pos {buckets : List Bucket} {bucket : Bucket} {entry : LocalBucket}
    (hbucket : bucket ∈ buckets) (hentry : (clean now entries).get bucket.key = some entry)
    (hfull : bucket.local_maximum ≤ entry.size) :
    0 < local_retry now (clean now entries) buckets := by
  -- A bucket that cleaning has left is not empty and has live entries only.
  obtain ⟨hsize, hlive⟩ := live_of_get_clean hentry
  -- Its first expiry is therefore in the future.
  have hexpiry : now < entry.first_expiry.getD now := by
    unfold LocalBucket.first_expiry
    cases hmin : (entry.failures.values ++ entry.reservations.values).min? with
    | none =>
      have hnil := congrArg List.length (List.min?_eq_none_iff.mp hmin)
      rw [List.length_append] at hnil
      unfold Dict.values at hnil
      rw [List.length_map, List.length_map] at hnil
      exact absurd hnil hsize
    | some expires => exact hlive expires (List.min?_mem hmin)
  unfold local_retry
  -- The loop has taken this bucket into account, and later ones only raise the wait.
  obtain ⟨before, after, rfl⟩ := List.append_of_mem hbucket
  rw [List.foldl_append, List.foldl_cons]
  refine lt_of_lt_of_le ?_ (le_foldl (fun retry bucket => ?_) after _)
  swap
  · split
    · split_ifs
      · exact le_max_left _ _
      · exact le_rfl
    · exact le_rfl
  rw [hentry]
  dsimp only
  rw [if_pos hfull]
  exact lt_max_of_lt_right (sub_pos.mpr hexpiry)

/-- A bucket with a new reservation. The reservation ends when the lease does. -/
def LocalBucket.reserving (expires : ℚ) (id : String) (entry : LocalBucket) : LocalBucket :=
  { entry with reservations := entry.reservations.set id expires }

/-- The buckets after some are reserved. The induction is on their list, as the loop of the source
goes. -/
theorem get_foldl_reserve (expires : ℚ) (id : String) (buckets : List Bucket) (entries : Entries)
    (key : String) :
    (buckets.foldl (reserve expires id) entries).get key =
      if key ∈ buckets.map (·.key) then
        some (((entries.get key).getD .empty).reserving expires id)
      else entries.get key := by
  -- The induction is on the buckets, each of which writes its own key.
  induction buckets generalizing entries with
  | nil => rfl
  | cons bucket buckets ih =>
    have hget : (reserve expires id entries bucket).get key =
        if key = bucket.key then some (((entries.get bucket.key).getD .empty).reserving expires id)
        else entries.get key := Dict.get_set _ _ _
    rw [List.foldl_cons, ih, hget, List.map_cons]
    by_cases hkey : key = bucket.key
    · subst hkey
      rw [if_pos rfl, if_pos List.mem_cons_self]
      split_ifs
      · -- Reserving again changes nothing.
        refine congrArg some ?_
        unfold LocalBucket.reserving
        rw [Option.getD_some]
        exact congrArg (LocalBucket.mk _) (Dict.set_of_get (Dict.get_set_self _ _))
      · rfl
    · rw [if_neg hkey]
      by_cases hmem : key ∈ buckets.map (·.key)
      · rw [if_pos hmem, if_pos (List.mem_cons_of_mem _ hmem)]
      · rw [if_neg hmem, if_neg (List.not_mem_cons_of_ne_of_not_mem hkey hmem)]

/-- Reserving adds no more buckets than were missing. A bucket that is there is replaced, and each
missing one is added once. -/
theorem size_foldl_reserve (expires : ℚ) (id : String) (buckets : List Bucket) (entries : Entries) :
    (buckets.foldl (reserve expires id) entries).size ≤
      entries.size + (buckets.filter fun bucket => !known entries bucket.key).length := by
  induction buckets generalizing entries with
  | nil => exact le_rfl
  | cons bucket buckets ih =>
    -- Reserving in a bucket makes no other one unknown.
    have hknown : ∀ key, known entries key = true →
        known (reserve expires id entries bucket) key = true := fun key hkey => by
      unfold known reserve
      rw [Dict.get_set]
      split_ifs
      · rfl
      · exact hkey
    have hmissing : (buckets.filter fun other =>
          !known (reserve expires id entries bucket) other.key).length ≤
        (buckets.filter fun other => !known entries other.key).length := by
      refine (List.monotone_filter_right buckets fun other hother => ?_).length_le
      rw [Bool.not_eq_true'] at hother ⊢
      refine Bool.eq_false_iff.mpr fun hbefore => ?_
      rw [hknown other.key hbefore] at hother
      cases hother
    -- The bucket itself is new or has been there.
    have hsize : (reserve expires id entries bucket).size ≤
        entries.size + (!known entries bucket.key).toNat := by
      unfold reserve
      by_cases hbucket : known entries bucket.key = true
      · rw [Dict.size_set_of_mem hbucket]
        exact Nat.le_add_right _ _
      · rw [Bool.not_eq_true] at hbucket
        rw [hbucket]
        exact Dict.size_set_le _ _
    have hrest := ih (reserve expires id entries bucket)
    rw [List.foldl_cons, List.filter_cons]
    by_cases hbucket : known entries bucket.key = true
    · rw [hbucket] at hsize
      rw [if_neg (by rw [hbucket]; exact Bool.false_ne_true)]
      simp only [Bool.not_true, Bool.toNat_false] at hsize
      omega
    · rw [Bool.not_eq_true] at hbucket
      rw [hbucket] at hsize
      rw [if_pos (by rw [hbucket]; rfl), List.length_cons]
      simp only [Bool.not_false, Bool.toNat_true] at hsize
      omega

/-- `_local_admit` reserves a bucket. A guarded admission passes over buckets that are not in
memory, and all pass over those that have counted the attempt. -/
def Tracks (entries : Entries) (keys : List String) (id : String) (guard : Bool) (key : String) :
    Prop :=
  key ∈ keys ∧ (guard = true → known entries key = true) ∧ failure entries key id = none

/-- The buckets that are reserved. They are the ones of the keys that pass the two tests of the
source. -/
theorem mem_tracked {keys : List String} {id : String} {guard : Bool} {key : String} :
    key ∈ (tracked entries (config.buckets keys) id guard).map (·.key) ↔
      Tracks entries keys id guard key := by
  have hcounts : counts entries key id = false ↔ failure entries key id = none := by
    unfold counts failure
    cases entries.get key with
    | none => simp
    | some entry => simp
  unfold tracked Config.buckets Tracks
  rw [List.filter_map, List.map_map]
  constructor
  · intro hmem
    obtain ⟨other, hother, rfl⟩ := List.mem_map.mp hmem
    obtain ⟨hkeys, hp⟩ := List.mem_filter.mp hother
    rw [Function.comp_apply, Bool.and_eq_true, Bool.not_eq_true'] at hp
    refine ⟨hkeys, fun hguard => ?_, hcounts.mp hp.2⟩
    rw [hguard] at hp
    exact hp.1
  · rintro ⟨hkeys, hguard, hfailure⟩
    refine List.mem_map.mpr ⟨key, List.mem_filter.mpr ⟨hkeys, ?_⟩, rfl⟩
    rw [Function.comp_apply, Bool.and_eq_true, Bool.not_eq_true']
    refine ⟨?_, hcounts.mpr hfailure⟩
    cases guard with
    | false => rfl
    | true => exact hguard rfl

/-- What `_local_admit` does: it is rejected and only cleans, or it reserves the buckets that it
tracks, each of which had room. -/
inductive Admits (config : Config) (now : ℚ) (entries : Entries) (keys : List String) (id : String)
    (guard : Bool) : Except ℕ Bool × Entries → Prop
  | rejected (retry : ℕ) : Admits config now entries keys id guard (.error retry, clean now entries)
  | reserved (is_local : Bool) (after : Entries)
      (hroom : ∀ key entry, Tracks (clean now entries) keys id guard key →
        (clean now entries).get key = some entry → entry.size < (config.policy key).local_maximum)
      (htracked : ∀ key, Tracks (clean now entries) keys id guard key → after.get key =
        some ((((clean now entries).get key).getD .empty).reserving (now + LEASE_SECONDS) id))
      (hother : ∀ key, ¬Tracks (clean now entries) keys id guard key →
        after.get key = (clean now entries).get key)
      (htotal : after.size ≤ config.auth_local_max_entries) :
      Admits config now entries keys id guard (.ok is_local, after)

/-- `_local_admit` does this. Its three outcomes are those of the source: admitted, full, or out of
room. -/
theorem local_admit_admits (config : Config) (now : ℚ) (keys : List String) (id : String)
    (guard : Bool) (entries : Entries) :
    Admits config now entries keys id guard
      ( local_admit config.auth_local_max_entries now (config.buckets keys) id guard entries) := by
  unfold local_admit
  dsimp only
  split_ifs with hretry htotal
  · exact .rejected _
  · exact .rejected _
  · have hget := get_foldl_reserve (now + LEASE_SECONDS) id
      (tracked (clean now entries) (config.buckets keys) id guard) (clean now entries)
    refine .reserved _ _ (fun key entry htracks hentry => ?_) (fun key htracks => ?_)
      (fun key htracks => ?_) ?_
    · have hmem : key ∈ (tracked (clean now entries) (config.buckets keys) id guard).map (·.key) :=
        mem_tracked.mpr htracks
      obtain ⟨bucket, hbucket, rfl⟩ := List.mem_map.mp hmem
      obtain ⟨other, -, rfl⟩ := List.mem_map.mp (List.mem_filter.mp hbucket).1
      by_contra hfull
      exact hretry (local_retry_pos hbucket hentry (Nat.le_of_not_lt hfull))
    · rw [hget, if_pos (mem_tracked.mpr htracks)]
    · rw [hget, if_neg fun hmem => htracks (mem_tracked.mp hmem)]
    · exact (size_foldl_reserve _ _ _ _).trans (Nat.le_of_not_lt htotal)

namespace Admits

variable {keys : List String} {id : String} {guard : Bool} {outcome : Except ℕ Bool × Entries}

/-- The failures after a local admission are those that have not expired. -/
theorem failure_eq (h : Admits config now entries keys id guard outcome) (key other : String) :
    failure outcome.2 key other = failure (clean now entries) key other := by
  cases h with
  | rejected retry => rfl
  | reserved is_local after hroom htracked hother htotal =>
    unfold failure
    by_cases htracks : Tracks (clean now entries) keys id guard key
    · rw [htracked key htracks]
      cases (clean now entries).get key <;> rfl
    · rw [hother key htracks]

/-- The reservations after a local admission: those that have not expired, and the new ones. -/
theorem held_cases (h : Admits config now entries keys id guard outcome) (key other : String) :
    held outcome.2 key other = held (clean now entries) key other ∨
      other = id ∧ Tracks (clean now entries) keys id guard key := by
  cases h with
  | rejected retry => exact Or.inl rfl
  | reserved is_local after hroom htracked hother htotal =>
    by_cases htracks : Tracks (clean now entries) keys id guard key
    · by_cases hid : other = id
      · exact Or.inr ⟨hid, htracks⟩
      · left
        unfold held
        rw [htracked key htracks, Option.bind_some]
        refine (Dict.get_set _ _ _).trans ?_
        rw [if_neg hid]
        cases (clean now entries).get key <;> rfl
    · left
      unfold held
      rw [hother key htracks]

/-- Every bucket that is tracked holds the reservation for the lease. -/
theorem held_tracked {is_local : Bool} {after : Entries}
    (h : Admits config now entries keys id guard (.ok is_local, after)) {key : String}
    (htracks : Tracks (clean now entries) keys id guard key) :
    held after key id = some (now + LEASE_SECONDS) := by
  cases h with
  | reserved _ _ hroom htracked hother htotal =>
    unfold held
    rw [htracked key htracks, Option.bind_some]
    exact Dict.get_set_self _ _

/-- A local admission keeps the invariant. Where it admits, each bucket had room for one more, and
the table had room for the new ones. -/
theorem bounded (h : Admits config now entries keys id guard outcome) (hb : Bounded config entries) :
    Bounded config outcome.2 := by
  have hclean := hb.clean now
  refine ⟨fun key entry hentry => ?_, fun key other hsome => ?_, ?_⟩
  · cases h with
    | rejected retry => exact hclean.size key entry hentry
    | reserved is_local after hroom htracked hother htotal =>
      -- A tracked bucket gets one entry more, for which there was room.
      by_cases htracks : Tracks (clean now entries) keys id guard key
      · dsimp only at hentry
        rw [htracked key htracks, Option.some_inj] at hentry
        rw [← hentry]
        have hadd : ∀ before : LocalBucket,
            (before.reserving (now + LEASE_SECONDS) id).size ≤ before.size + 1 := fun before => by
          have hset : (before.reservations.set id (now + LEASE_SECONDS)).size ≤
              before.reservations.size + 1 := Dict.size_set_le _ _
          unfold LocalBucket.reserving LocalBucket.size
          dsimp only
          omega
        refine (hadd _).trans ?_
        cases hbefore : (clean now entries).get key with
        | none => exact (config.policy key).local_maximum_pos
        | some before => exact hroom key before htracks hbefore
      · exact hclean.size key entry ((hother key htracks).symm.trans hentry)
  · -- The failures are those from before; a reservation that is new is of an identifier without
    -- failures.
    rw [h.failure_eq] at hsome
    rcases h.held_cases key other with heq | ⟨rfl, -, -, hnone⟩
    · rw [heq]
      exact hclean.disjoint key other hsome
    · rw [hnone] at hsome
      cases hsome
  · cases h with
    | rejected retry => exact hclean.total
    | reserved is_local after hroom htracked hother htotal => exact htotal

end Admits

/-! ## Local finalization -/

/-- The bucket after it is settled. The reservation is gone, and a counted one has become a failure
of the window. -/
def LocalBucket.settled (now : ℚ) (rest : ℚ) (id : String) (count discard : Bool)
    (entry : LocalBucket) : LocalBucket :=
  let failures := if discard then entry.failures.pop id else entry.failures
  if (entry.reservations.get id).isNone then { entry with failures := failures }
  else
    ⟨if count then failures.set id (now + rest) else failures, entry.reservations.pop id⟩

/-- Settling changes one bucket, and counts a failure where the reservation is held. -/
theorem settle_eq (now : ℚ) (wall : String → ℚ) (id : String) (count discard : Bool)
    (acc : Entries × List (String × String)) (bucket : Bucket) :
    settle now wall id count discard acc bucket =
      match acc.1.get bucket.key with
      | none => acc
      | some entry =>
        (acc.1.set bucket.key
          (entry.settled now (window_rest bucket.window (wall bucket.key)) id count discard),
          if (held acc.1 bucket.key id).isSome && count then acc.2 ++ [(bucket.key, id)] else acc.2) := by
  unfold settle held
  cases acc.1.get bucket.key with
  | none => rfl
  | some entry =>
    dsimp only
    unfold LocalBucket.settled
    rw [Option.bind_some]
    cases entry.reservations.get id with
    | none => rfl
    | some expires => cases count <;> rfl

section Settled

variable (now rest : ℚ) (id : String) (count discard : Bool) (entry : LocalBucket)

/-- Settling gives the reservation of the admission back, and no other. -/
theorem LocalBucket.settled_reservations (other : String) :
    (entry.settled now rest id count discard).reservations.get other =
      if other = id then none else entry.reservations.get other := by
  unfold LocalBucket.settled
  dsimp only
  by_cases hnone : (entry.reservations.get id).isNone = true
  · rw [if_pos hnone]
    dsimp only
    split_ifs with hid
    · rw [hid]
      exact Option.isNone_iff_eq_none.mp hnone
    · rfl
  · rw [if_neg hnone]
    exact Dict.get_pop id other

/-- Settling writes no failure but one for a reservation that is counted. -/
theorem LocalBucket.settled_failures {other : String}
    (h : ((entry.settled now rest id count discard).failures.get other).isSome = true) :
    (entry.failures.get other).isSome = true ∨
      other = id ∧ ((entry.reservations.get id).isSome && count) = true := by
  -- Discarding a failure writes none.
  have hpop : ((if discard then entry.failures.pop id else entry.failures).get other).isSome = true →
      (entry.failures.get other).isSome = true := by
    intro hsome
    split_ifs at hsome
    · rw [Dict.get_pop] at hsome
      split_ifs at hsome with hid
      · cases hsome
      · exact hsome
    · exact hsome
  unfold LocalBucket.settled at h
  dsimp only at h
  by_cases hnone : (entry.reservations.get id).isNone = true
  · rw [if_pos hnone] at h
    exact Or.inl (hpop h)
  · rw [if_neg hnone] at h
    rw [Option.isNone_iff_eq_none, ← ne_eq, Option.ne_none_iff_isSome] at hnone
    cases count with
    | false => exact Or.inl (hpop h)
    -- The failure takes the place of the reservation.
    | true =>
      by_cases hid : other = id
      · exact Or.inr ⟨hid, by rw [hnone]; rfl⟩
      · left
        refine hpop ?_
        dsimp only at h
        rwa [if_pos rfl, Dict.get_set, if_neg hid] at h

/-- Settling makes no bucket fuller. A reservation becomes a failure or nothing. -/
theorem LocalBucket.settled_size : (entry.settled now rest id count discard).size ≤ entry.size := by
  -- Discarding makes the bucket smaller at most.
  have hpop : (if discard then entry.failures.pop id else entry.failures).size ≤
      entry.failures.size := by
    split_ifs
    · exact Dict.size_pop_le id
    · exact le_rfl
  unfold LocalBucket.settled LocalBucket.size
  dsimp only
  by_cases hnone : (entry.reservations.get id).isNone = true
  · rw [if_pos hnone]
    dsimp only
    omega
  · rw [if_neg hnone]
    rw [Option.isNone_iff_eq_none, ← ne_eq, Option.ne_none_iff_isSome] at hnone
    -- The reservation that is removed makes room for the failure.
    have hlt : (entry.reservations.pop id).size < entry.reservations.size := Dict.size_pop_lt hnone
    cases count with
    | false =>
      dsimp only
      rw [if_neg Bool.false_ne_true]
      omega
    | true =>
      have hset := Dict.size_set_le (d := if discard then entry.failures.pop id else entry.failures)
        id (now + rest)
      dsimp only
      rw [if_pos rfl]
      omega

end Settled

section SettledBucket

variable {entries : Entries} {entry : LocalBucket} {key : String} (now rest : ℚ) (id : String)
  (count discard : Bool)

/-- Settling a bucket gives back the reservation of the identifier in this bucket, and no other
one. -/
theorem held_set_settled (hentry : entries.get key = some entry) (key' other : String) :
    held (entries.set key (entry.settled now rest id count discard)) key' other =
      if key' = key ∧ other = id then none else held entries key' other := by
  unfold held
  rw [Dict.get_set]
  by_cases hkey : key' = key
  · subst hkey
    rw [if_pos rfl, Option.bind_some, LocalBucket.settled_reservations, hentry, Option.bind_some]
    simp only [true_and]
  · rw [if_neg hkey, if_neg fun hboth => hkey hboth.1]

/-- A failure that is there after a bucket has been settled was there before, or has taken the place of
the reservation. -/
theorem failure_set_settled (hentry : entries.get key = some entry) {key' other : String}
    (hsome : (failure (entries.set key (entry.settled now rest id count discard)) key' other).isSome =
      true) :
    (failure entries key' other).isSome = true ∨
      (key' = key ∧ other = id) ∧ ((held entries key id).isSome && count) = true := by
  unfold failure held at *
  rw [Dict.get_set] at hsome
  by_cases hkey : key' = key
  · rw [if_pos hkey, Option.bind_some] at hsome
    rw [hkey, hentry, Option.bind_some, Option.bind_some]
    rcases entry.settled_failures now rest id count discard hsome with hbefore | ⟨hid, hcount⟩
    · exact Or.inl hbefore
    · exact Or.inr ⟨⟨rfl, hid⟩, hcount⟩
  · rw [if_neg hkey] at hsome
    exact Or.inl hsome

/-- Settling a bucket keeps the bounds. The bucket is no fuller than before, and nothing is reserved
and failed at once. -/
theorem Bounded.set_settled (h : Bounded config entries) (hentry : entries.get key = some entry) :
    Bounded config (entries.set key (entry.settled now rest id count discard)) := by
  refine ⟨fun key' after hget => ?_, fun key' other hsome => ?_, ?_⟩
  · rw [Dict.get_set] at hget
    split_ifs at hget with hkey
    · rw [← Option.some_inj.mp hget, hkey]
      exact (entry.settled_size now rest id count discard).trans (h.size _ entry hentry)
    · exact h.size key' after hget
  · rw [held_set_settled now rest id count discard hentry]
    split_ifs with hboth
    · rfl
    · rcases failure_set_settled now rest id count discard hentry hsome with hbefore | ⟨heq, -⟩
      · exact h.disjoint key' other hbefore
      · exact absurd heq hboth
  · rw [Dict.size_set_of_mem (by rw [hentry]; rfl)]
    exact h.total

end SettledBucket

/-- What a local finalization keeps from bucket to bucket: the buckets `start` that it found, those it
has reached, and where it has counted a failure. -/
structure Settling (config : Config) (id : String) (count : Bool) (start : Entries)
    (acc : Entries × List (String × String)) : Prop where
  /-- The bounds of the buckets. -/
  bounded : Bounded config acc.1
  /-- Reservations are only given back. -/
  held_le : ∀ key other, (held acc.1 key other).isSome = true →
    (held start key other).isSome = true
  /-- A new failure was counted. -/
  failure_le : ∀ key other, (failure acc.1 key other).isSome = true →
    (failure start key other).isSome = true ∨ (key, other) ∈ acc.2
  /-- A failure is counted for a reservation, which is given back. -/
  counts : ∀ pair ∈ acc.2, pair.2 = id ∧ count = true ∧ (held start pair.1 id).isSome = true ∧
    held acc.1 pair.1 id = none
  /-- No failure is counted twice. -/
  nodup : acc.2.Nodup

/-- One bucket of a local finalization. The failure is counted where the reservation was, and
nowhere else. -/
theorem Settling.step {id : String} {count : Bool} {start : Entries}
    {acc : Entries × List (String × String)} (h : Settling config id count start acc)
    (wall : String → ℚ) (discard : Bool) (bucket : Bucket) :
    Settling config id count start (settle now wall id count discard acc bucket) := by
  rw [settle_eq]
  -- A bucket that is not there is not settled.
  cases hentry : acc.1.get bucket.key with
  | none => exact h
  | some entry =>
    dsimp only
    generalize window_rest bucket.window (wall bucket.key) = rest
    have hafter := held_set_settled now rest id count discard hentry
    refine ⟨h.bounded.set_settled now rest id count discard hentry, fun key other hsome => ?_,
      fun key other hsome => ?_, fun pair hpair => ?_, ?_⟩
    · rw [hafter] at hsome
      split_ifs at hsome with hboth
      · cases hsome
      · exact h.held_le key other hsome
    · -- A failure that was not there at the start is among those counted.
      dsimp only
      rcases failure_set_settled now rest id count discard hentry hsome with hbefore |
        ⟨⟨rfl, rfl⟩, hcount⟩
      · refine (h.failure_le key other hbefore).imp_right fun hmem => ?_
        split_ifs
        · exact List.mem_append_left _ hmem
        · exact hmem
      · rw [if_pos hcount]
        exact Or.inr (List.mem_append_right _ List.mem_cons_self)
    · -- What has been counted had its reservation at the start and has it no more.
      dsimp only at hpair ⊢
      have hold : pair ∈ acc.2 → pair.2 = id ∧ count = true ∧ (held start pair.1 id).isSome = true ∧
          held (acc.1.set bucket.key (entry.settled now rest id count discard)) pair.1 id = none := by
        intro hmem
        obtain ⟨hid, hcount, hstart, hnone⟩ := h.counts pair hmem
        refine ⟨hid, hcount, hstart, ?_⟩
        rw [hafter, hnone, ite_self]
      split_ifs at hpair with hcount
      · rcases List.mem_append.mp hpair with hmem | hmem
        · exact hold hmem
        · rw [List.mem_singleton.mp hmem]
          rw [Bool.and_eq_true] at hcount
          exact ⟨rfl, hcount.2, h.held_le _ _ hcount.1, by rw [hafter, if_pos ⟨rfl, rfl⟩]⟩
      · exact hold hpair
    · -- A bucket is counted once, because its reservation is gone afterwards.
      dsimp only
      split_ifs with hcount
      · refine List.nodup_append.mpr ⟨h.nodup, List.nodup_singleton _, fun pair hmem pair' hnew => ?_⟩
        rw [List.mem_singleton.mp hnew]
        rintro rfl
        rw [Bool.and_eq_true, (h.counts _ hmem).2.2.2] at hcount
        cases hcount.1
      · exact h.nodup

/-- What `_local_finalize` does to the buckets, and where it counts a failure. -/
theorem local_finalize_settling (h : Bounded config entries) (now : ℚ) (wall : String → ℚ)
    (id : String) (keys : List String) (count discard : Bool) :
    Settling config id count entries
      (local_finalize now wall id (config.buckets keys) count discard entries) := by
  -- Cleaning only removes what has expired.
  have hstart : Settling config id count entries (clean now entries, []) := by
    refine ⟨h.clean now, fun key other hsome => ?_, fun key other hsome => Or.inl ?_,
      fun pair hpair => absurd hpair List.not_mem_nil, List.nodup_nil⟩
    · rw [held_clean] at hsome
      exact Option.isSome_of_isSome_filter _ _ hsome
    · rw [failure_clean] at hsome
      exact Option.isSome_of_isSome_filter _ _ hsome
  -- Each bucket of the call is settled in turn.
  have hall : Settling config id count entries
      ((config.buckets keys).foldl (settle now wall id count discard) (clean now entries, [])) :=
    Transition.run_invariant (fun acc bucket hacc => hacc.step wall discard bucket) hstart
      (config.buckets keys)
  -- Cleaning once more at the end removes entries and adds none.
  refine ⟨hall.bounded.clean now, fun key other hsome => hall.held_le key other ?_,
    fun key other hsome => hall.failure_le key other ?_, fun pair hpair => ?_, hall.nodup⟩
  · unfold local_finalize at hsome
    rw [held_clean] at hsome
    exact Option.isSome_of_isSome_filter _ _ hsome
  · unfold local_finalize at hsome
    rw [failure_clean] at hsome
    exact Option.isSome_of_isSome_filter _ _ hsome
  · obtain ⟨hid, hcount, hheld, hnone⟩ := hall.counts pair hpair
    refine ⟨hid, hcount, hheld, ?_⟩
    unfold local_finalize
    rw [held_clean, hnone, Option.filter_none]

end RestaurantOS.Auth.LocalLimiter
