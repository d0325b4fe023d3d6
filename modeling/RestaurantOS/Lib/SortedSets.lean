import Mathlib.Data.List.MinMax
import Mathlib.Data.List.Perm.Subperm
import Mathlib.Order.MinMax
import RestaurantOS.Lib.RowSums

/-!
# Sorted sets that expire

The keys of a store that hold sorted sets, with the commands that programs run on them: members are
written and removed by name (`zadd`, `zrem`), read by score (`zrange`) and dropped up to a score
(`zremrangebyscore`), and a key may be given a time to live (`pexpire`). Times and scores are
numbers on one scale. A program that uses scores as deadlines prunes a key before it reads it
(`pruned`) and lets it live until its last member has left (`Lasting`); then the time to live drops
nothing that the scores would have kept (`Lasting.zscore_pruned`).
-/

namespace SortedSets

variable {μ : Type*}

/-- A key that holds a sorted set: the members with their scores, and the time at which the key
expires, if it does. A key without members does not exist. -/
@[ext]
structure SortedKey (μ : Type*) where
  /-- The members and their scores. -/
  members : List (μ × ℕ)
  /-- The time up to which the key lives. -/
  expires_at : Option ℕ
  /-- A member has one score. -/
  unique : Keyed.Unique Prod.fst members
  /-- A key that does not exist has no expiry. -/
  absent : members = [] → expires_at = none

namespace SortedKey

/-- A key that does not exist. Redis treats it as an empty sorted set. -/
def missing : SortedKey μ := ⟨[], none, List.nodup_nil, fun _ => rfl⟩

/-- A key with these members: it is removed with its expiry when it has none. -/
def stored (members : List (μ × ℕ)) (expires_at : Option ℕ) (unique : Keyed.Unique Prod.fst members) :
    SortedKey μ :=
  ⟨members, if members = [] then none else expires_at, unique, fun h => if_pos h⟩

variable (k : SortedKey μ)

/-- `ZCARD`. It is zero for a key that does not exist. -/
def zcard : ℕ := k.members.length

/-- The score of `ZRANGE 0 0 WITHSCORES`. It is the smallest score of a member. -/
def first_score : Option ℕ := (k.members.map Prod.snd).min?

/-- The score of `ZRANGE -1 -1 WITHSCORES`. It is the greatest score of a member. -/
def last_score : Option ℕ := (k.members.map Prod.snd).max?

/-- `ZREMRANGEBYSCORE -inf bound`. The bound itself is removed as well. -/
def zremrangebyscore (bound : ℕ) : SortedKey μ :=
  stored (k.members.filter fun entry => bound < entry.2) k.expires_at (k.unique.filter _)

/-- `PEXPIRE` at time `now`: a time to live that is not positive removes the key. -/
def pexpire (now ttl : ℕ) : SortedKey μ :=
  if ttl = 0 then missing else stored k.members (some (now + ttl)) k.unique

/-- The key as a command finds it at time `now`: an expired one is gone. -/
def live (now : ℕ) : SortedKey μ :=
  match k.expires_at with
  | none => k
  | some expires_at => if expires_at < now then missing else k

/-- The key at time `now` after its members with scores up to `now` are removed. -/
def pruned (now : ℕ) : SortedKey μ := (k.live now).zremrangebyscore now

/-- `PEXPIRE` to the score of the last member. -/
def expire_with_last (now : ℕ) : SortedKey μ :=
  match k.last_score with
  | none => k
  | some last => k.pexpire now (last - now)

/-- A missing key has no members. -/
@[simp] theorem members_missing : (missing : SortedKey μ).members = [] := rfl

/-- What is stored are the members. -/
@[simp] theorem members_stored (members : List (μ × ℕ)) (expires_at : Option ℕ)
    (unique : Keyed.Unique Prod.fst members) :
    (stored members expires_at unique).members = members := rfl

/-- The expiry of a key with members. -/
theorem expires_at_stored {members : List (μ × ℕ)} (expires_at : Option ℕ)
    (unique : Keyed.Unique Prod.fst members) (h : members ≠ []) :
    (stored members expires_at unique).expires_at = expires_at := if_neg h

variable {k}

/-- Pruning adds no member. -/
theorem zcard_zremrangebyscore_le (bound : ℕ) : (k.zremrangebyscore bound).zcard ≤ k.zcard :=
  List.length_filter_le ..

/-- An expired key has no more members than the one that was there. -/
theorem zcard_live_le (now : ℕ) : (k.live now).zcard ≤ k.zcard := by
  unfold live
  cases k.expires_at with
  | none => exact le_refl _
  | some expires_at =>
    dsimp only
    split_ifs
    · exact Nat.zero_le _
    · exact le_refl _

/-- Pruning adds no member. -/
theorem zcard_pruned_le (now : ℕ) : (k.pruned now).zcard ≤ k.zcard :=
  (zcard_zremrangebyscore_le now).trans (zcard_live_le now)

/-- A time to live adds no member. One that is over already removes them all. -/
theorem zcard_expire_with_last_le (now : ℕ) : (k.expire_with_last now).zcard ≤ k.zcard := by
  unfold expire_with_last
  cases k.last_score with
  | none => exact le_refl _
  | some last =>
    simp only [pexpire]
    split_ifs
    · exact Nat.zero_le _
    · exact le_refl _

variable [DecidableEq μ] (k)

/-- `ZSCORE`. A member that is not there has none. -/
def zscore (member : μ) : Option ℕ := (Keyed.lookup Prod.fst member k.members).map Prod.snd

/-- `ZADD`. A member that is there gets the new score. -/
def zadd (score : ℕ) (member : μ) : SortedKey μ :=
  stored (Keyed.upsert Prod.fst (member, score) k.members) k.expires_at (k.unique.upsert _)

/-- `ZREM`. A key without members ceases to exist. -/
def zrem (member : μ) : SortedKey μ :=
  stored (k.members.filter fun entry => entry.1 ≠ member) k.expires_at (k.unique.filter _)

/-- The key does not expire before its last member has left. -/
def Lasting : Prop :=
  ∀ member score, k.zscore member = some score → ∃ expires_at,
    k.expires_at = some expires_at ∧ score ≤ expires_at

/-- The members all leave after `now`. It is what pruning at `now` leaves. -/
def After (now : ℕ) : Prop := ∀ member score, k.zscore member = some score → now < score

variable {k}

/-! ## Members and scores -/

/-- A missing key has no scores. -/
@[simp] theorem zscore_missing (member : μ) : (missing : SortedKey μ).zscore member = none := rfl

/-- A member is there with its score. No member is there twice. -/
theorem zscore_eq_some {member : μ} {score : ℕ} :
    k.zscore member = some score ↔ (member, score) ∈ k.members := by
  unfold zscore
  rw [Option.map_eq_some_iff]
  constructor
  · rintro ⟨⟨other, score'⟩, hlookup, rfl⟩
    obtain ⟨hmem, rfl⟩ := k.unique.lookup_eq_some.mp hlookup
    exact hmem
  · exact fun hmem => ⟨(member, score), k.unique.lookup_eq_some.mpr ⟨hmem, rfl⟩, rfl⟩

/-- The scores after `ZADD`. -/
theorem zscore_zadd (score : ℕ) (member other : μ) :
    (k.zadd score member).zscore other =
      if other = member then some score else k.zscore other := by
  unfold zscore zadd
  rw [members_stored, Keyed.lookup_upsert]
  split_ifs <;> rfl

/-- The scores after `ZREM`. -/
theorem zscore_zrem (member other : μ) :
    (k.zrem member).zscore other = if other = member then none else k.zscore other := by
  unfold zscore zrem
  rw [members_stored]
  split_ifs with h
  · rw [h, Keyed.lookup_remove_self, Option.map_none]
  · rw [Keyed.lookup_remove_ne h]

/-- The members with scores up to the bound are gone. -/
theorem zscore_zremrangebyscore (bound : ℕ) (member : μ) :
    (k.zremrangebyscore bound).zscore member = (k.zscore member).filter (bound < ·) := by
  refine Option.ext fun score => ?_
  rw [zscore_eq_some, Option.filter_eq_some_iff, zscore_eq_some, zremrangebyscore, members_stored,
    List.mem_filter]

/-- A time to live changes no score of a key whose members leave later. -/
theorem zscore_expire_with_last {now : ℕ} (hafter : k.After now) (member : μ) :
    (k.expire_with_last now).zscore member = k.zscore member := by
  unfold expire_with_last
  cases hlast : k.last_score with
  | none => rfl
  | some last =>
    obtain ⟨⟨other, score⟩, hmem, rfl⟩ := List.mem_map.mp (List.max?_mem hlast)
    have hlt : now < score := hafter other score (zscore_eq_some.mpr hmem)
    simp only [pexpire]
    rw [if_neg (by omega)]
    rfl

/-! ## Cardinality -/

/-- `ZADD` adds at most one member. -/
theorem zcard_zadd_le (score : ℕ) (member : μ) : (k.zadd score member).zcard ≤ k.zcard + 1 := by
  unfold zcard zadd
  rw [members_stored]
  unfold Keyed.upsert
  cases Keyed.lookup Prod.fst member k.members with
  | none => simp
  | some old => simp [Keyed.put, Keyed.modify]

/-- `ZADD` of a member that is there adds none. Its score is moved, and that is all. -/
theorem zcard_zadd_of_mem {member : μ} (h : (k.zscore member).isSome) (score : ℕ) :
    (k.zadd score member).zcard = k.zcard := by
  unfold zcard zadd
  rw [members_stored]
  unfold Keyed.upsert
  cases hlookup : Keyed.lookup Prod.fst member k.members with
  | none =>
    unfold zscore at h
    rw [hlookup] at h
    exact absurd h (by simp)
  | some old => simp [Keyed.put, Keyed.modify]

/-- `ZREM` adds no member. -/
theorem zcard_zrem_le (member : μ) : (k.zrem member).zcard ≤ k.zcard :=
  List.length_filter_le ..

/-- `ZREM` removes a member that is there. -/
theorem zcard_zrem_lt {member : μ} (h : (k.zscore member).isSome) :
    (k.zrem member).zcard < k.zcard := by
  obtain ⟨score, hscore⟩ := Option.isSome_iff_exists.mp h
  refine List.length_filter_lt_length_iff_exists.mpr ⟨(member, score), zscore_eq_some.mp hscore, ?_⟩
  simp

/-- Distinct members are counted. -/
theorem length_le_zcard {names : List μ} (hnodup : names.Nodup)
    (h : ∀ member ∈ names, (k.zscore member).isSome) : names.length ≤ k.zcard := by
  have hsub : names ⊆ k.members.map Prod.fst := by
    intro member hmember
    obtain ⟨score, hscore⟩ := Option.isSome_iff_exists.mp (h member hmember)
    exact List.mem_map.mpr ⟨(member, score), zscore_eq_some.mp hscore, rfl⟩
  calc names.length ≤ (k.members.map Prod.fst).length := (hnodup.subperm hsub).length_le
    _ = k.zcard := List.length_map ..

/-! ## Deadlines -/

/-- The key that does not exist. -/
theorem lasting_missing : (missing : SortedKey μ).Lasting := nofun

/-- `ZREM` keeps a key lasting. -/
theorem Lasting.zrem (h : k.Lasting) (member : μ) : (k.zrem member).Lasting := by
  intro other score hscore
  have hmem : (other, score) ∈ k.members.filter fun entry => entry.1 ≠ member :=
    zscore_eq_some.mp hscore
  have hne := List.ne_nil_of_mem hmem
  obtain ⟨expires_at, hexpires, hle⟩ :=
    h other score (zscore_eq_some.mpr (List.mem_of_mem_filter hmem))
  exact ⟨expires_at, (expires_at_stored _ _ hne).trans hexpires, hle⟩

/-- An expired key has only members that have left. -/
theorem Lasting.zscore_live (h : k.Lasting) {now score : ℕ} {member : μ}
    (hscore : k.zscore member = some score) (hlt : now < score) : k.live now = k := by
  obtain ⟨expires_at, hexpires, hle⟩ := h member score hscore
  unfold live
  rw [hexpires]
  exact if_neg (by omega)

/-- The expiry of a lasting key drops no member that has not left. So the lifetime of the key as a
whole, which Redis keeps with it, is never what removes an entry early. -/
theorem Lasting.zscore_pruned (h : k.Lasting) (now : ℕ) (member : μ) :
    (k.pruned now).zscore member = (k.zscore member).filter (now < ·) := by
  unfold pruned
  rw [zscore_zremrangebyscore]
  refine Option.ext fun score => ?_
  rw [Option.filter_eq_some_iff, Option.filter_eq_some_iff]
  refine and_congr_left fun hlt => ?_
  have hlt : now < score := of_decide_eq_true hlt
  -- A key that has expired shows nothing; one that lasts expires after its last member.
  constructor
  · intro hscore
    unfold live at hscore
    cases hexpires : k.expires_at with
    | none => simpa [hexpires] using hscore
    | some expires_at =>
      rw [hexpires] at hscore
      dsimp only at hscore
      split_ifs at hscore
      · exact absurd hscore (by simp)
      · exact hscore
  · intro hscore
    rw [h.zscore_live hscore hlt]
    exact hscore

/-- After pruning, the members leave later. -/
theorem after_pruned (now : ℕ) : (k.pruned now).After now := by
  intro member score hscore
  unfold pruned at hscore
  rw [zscore_zremrangebyscore, Option.filter_eq_some_iff] at hscore
  exact of_decide_eq_true hscore.2

/-- A member that leaves later keeps its key after the time. -/
theorem After.zadd {now score : ℕ} (h : k.After now) (hlt : now < score) (member : μ) :
    (k.zadd score member).After now := by
  intro other score' hscore
  rw [zscore_zadd] at hscore
  split_ifs at hscore
  · exact Option.some.inj hscore ▸ hlt
  · exact h other score' hscore

/-- Without a member the others still leave later. -/
theorem After.zrem {now : ℕ} (h : k.After now) (member : μ) : (k.zrem member).After now := by
  intro other score hscore
  rw [zscore_zrem] at hscore
  split_ifs at hscore
  exact h other score hscore

/-- Pruning keeps a key lasting. Only members are removed, and the time to live stays. -/
theorem Lasting.pruned (h : k.Lasting) (now : ℕ) : (k.pruned now).Lasting := by
  intro member score hscore
  have hlt : now < score := after_pruned now member score hscore
  have hold : k.zscore member = some score := by
    rw [h.zscore_pruned, Option.filter_eq_some_iff] at hscore
    exact hscore.1
  obtain ⟨expires_at, hexpires, hle⟩ := h member score hold
  refine ⟨expires_at, ?_, hle⟩
  have hne := List.ne_nil_of_mem (zscore_eq_some.mp hscore)
  unfold SortedKey.pruned at hne ⊢
  rw [h.zscore_live hold hlt] at hne ⊢
  exact (expires_at_stored _ _ hne).trans hexpires

/-- A time to live to the score of the last member makes a key lasting. -/
theorem After.lasting {now : ℕ} (hafter : k.After now) : (k.expire_with_last now).Lasting := by
  intro member score hscore
  rw [zscore_expire_with_last hafter] at hscore
  have hmem := zscore_eq_some.mp hscore
  unfold expire_with_last
  cases hlast : k.last_score with
  | none =>
    rw [last_score, List.max?_eq_none_iff, List.map_eq_nil_iff] at hlast
    exact absurd hlast (List.ne_nil_of_mem hmem)
  | some last =>
    have hle : score ≤ last :=
      (List.max?_le_iff hlast).mp le_rfl score
        (List.mem_map.mpr ⟨(member, score), hmem, rfl⟩)
    have hlt : now < score := hafter member score hscore
    refine ⟨now + (last - now), ?_, by omega⟩
    simp only [pexpire]
    rw [if_neg (by omega)]
    exact expires_at_stored _ _ (List.ne_nil_of_mem hmem)

/-- Pruning twice at one time is pruning once. What the first leaves is later than the bound. -/
theorem pruned_pruned (now : ℕ) : (k.pruned now).pruned now = k.pruned now := by
  have hlive : (k.pruned now).live now = k.pruned now := by
    unfold SortedKey.live
    cases hexpires : (k.pruned now).expires_at with
    | none => rfl
    | some expires_at =>
      refine if_neg fun hlt => ?_
      -- An expiry of the pruned key was one of a key that had not expired.
      have hsome : (if ((k.live now).members.filter fun entry => now < entry.2) = [] then none
          else (k.live now).expires_at) = some expires_at := hexpires
      split_ifs at hsome
      unfold SortedKey.live at hsome
      cases hold : k.expires_at with
      | none => simp [hold] at hsome
      | some expires_at' =>
        rw [hold] at hsome
        dsimp only at hsome
        split_ifs at hsome with hexpired
        · exact absurd hsome (by simp [missing])
        · rw [hold] at hsome
          exact hexpired (Option.some.inj hsome ▸ hlt)
  have hmembers : ((k.pruned now).zremrangebyscore now).members = (k.pruned now).members := by
    refine List.filter_eq_self.mpr fun entry hentry => decide_eq_true ?_
    exact after_pruned now entry.1 entry.2 (zscore_eq_some.mpr hentry)
  calc (k.pruned now).pruned now = (k.pruned now).zremrangebyscore now := by
        rw [SortedKey.pruned, hlive]
    _ = k.pruned now := by
        refine SortedKey.ext hmembers ?_
        change (if ((k.pruned now).zremrangebyscore now).members = [] then none
          else (k.pruned now).expires_at) = _
        rw [hmembers]
        split_ifs with hnil
        · exact ((k.pruned now).absent hnil).symm
        · rfl

/-- The first score of a key that is not empty is the score of a member. -/
theorem exists_first_score (h : 0 < k.zcard) : ∃ member score,
    k.first_score = some score ∧ k.zscore member = some score := by
  cases hfirst : k.first_score with
  | none =>
    rw [first_score, List.min?_eq_none_iff, List.map_eq_nil_iff] at hfirst
    rw [zcard, hfirst] at h
    exact absurd h (lt_irrefl 0)
  | some score =>
    obtain ⟨⟨member, score'⟩, hmem, rfl⟩ := List.mem_map.mp (List.min?_mem hfirst)
    exact ⟨member, score', rfl, zscore_eq_some.mpr hmem⟩

/-- Where a member has left, pruning leaves fewer. The member is counted before and not afterwards.
-/
theorem zcard_pruned_lt {now score : ℕ} {member : μ} (hscore : k.zscore member = some score)
    (hle : score ≤ now) : (k.pruned now).zcard < k.zcard := by
  unfold pruned live
  have hpositive : 0 < k.zcard := List.length_pos_of_mem (zscore_eq_some.mp hscore)
  have hfewer : (k.zremrangebyscore now).zcard < k.zcard :=
    List.length_filter_lt_length_iff_exists.mpr
      ⟨(member, score), zscore_eq_some.mp hscore, by simpa using hle⟩
  cases k.expires_at with
  | none => exact hfewer
  | some expires_at =>
    dsimp only
    split_ifs
    · exact hpositive
    · exact hfewer

end SortedKey

/-! ## Loops over keys -/

section Loops

variable {κ β : Type*} [DecidableEq κ] (f : β → β)

/-- The values of `keys` changed one after the other. -/
def update_each (keys : List κ) (s : κ → β) : κ → β :=
  keys.foldl (fun s key => Function.update s key (f (s key))) s

variable {f}

/-- Other values stay. -/
theorem update_each_of_not_mem {keys : List κ} {key : κ} (h : key ∉ keys) (s : κ → β) :
    update_each f keys s key = s key := by
  induction keys generalizing s with
  | nil => rfl
  | cons first keys ih =>
    obtain ⟨hne, hnot⟩ := not_or.mp (mt List.mem_cons.mpr h)
    exact (ih hnot _).trans (Function.update_of_ne hne _ _)

/-- What the first change of a value establishes and further changes keep holds of it in the end. -/
theorem update_each_of_mem {P : β → Prop} {keys : List κ} {key : κ} (h : key ∈ keys) {s : κ → β}
    (hfirst : P (f (s key))) (hagain : ∀ b, P b → P (f b)) : P (update_each f keys s key) := by
  induction keys generalizing s with
  | nil => exact absurd h List.not_mem_nil
  | cons first keys ih =>
    have hstep : update_each f (first :: keys) s =
        update_each f keys (Function.update s first (f (s first))) := rfl
    rw [hstep]
    by_cases hkey : key = first
    · subst hkey
      by_cases hmem : key ∈ keys
      · refine ih hmem ?_
        rw [Function.update_self]
        exact hagain _ hfirst
      · rw [update_each_of_not_mem hmem, Function.update_self]
        exact hfirst
    · refine ih (List.mem_of_ne_of_mem hkey h) ?_
      rwa [Function.update_of_ne hkey]

end Loops

end SortedSets
