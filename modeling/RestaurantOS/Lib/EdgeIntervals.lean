import Mathlib.Data.List.Pairwise
import Mathlib.Data.Set.Insert
import Mathlib.Tactic.SplitIfs

/-!
# Intervals between the edges of a level

A level is sampled at the revisions of a counter. A rising edge opens an interval at the revision
from which the level is high, and a falling edge closes the open interval at the revision from which
it is low again, so the half-open intervals are a compressed record of the samples. `Tracks` says
that a list of intervals is the record of a set of high revisions: the intervals are proper, follow
one another, and cover exactly the high revisions up to the present one, and one of them is open
exactly if the level is high now. Each of the four things that happen between two samples keeps it.
-/

namespace EdgeIntervals

/-- A half-open interval of revisions, without an end while it is open. -/
structure Interval where
  /-- The first revision. -/
  start : ℕ
  /-- The first revision after it. -/
  stop : Option ℕ

/-- A revision lies in an interval. The start belongs to it, and the end does not. -/
def Interval.Covers (i : Interval) (n : ℕ) : Prop := i.start ≤ n ∧ ∀ s ∈ i.stop, n < s

/-- An open interval is closed. One that is closed already stays as it is. -/
def Interval.close (r : ℕ) (i : Interval) : Interval := { i with stop := some (i.stop.getD r) }

/-- The high revisions after a sample at `r`. -/
def sample (high : Set ℕ) (r : ℕ) (level : Bool) : Set ℕ := {n | n ∈ high ∨ n = r ∧ level = true}

/-- The intervals are the record of the high revisions up to the present one. -/
structure Tracks (intervals : List Interval) (revision : ℕ) (level : Bool) (high : Set ℕ) : Prop where
  /-- An interval ends after it starts. -/
  proper : ∀ i ∈ intervals, ∀ s ∈ i.stop, i.start < s
  /-- An interval starts when those before it have ended. -/
  ordered : intervals.Pairwise fun i j => ∃ s ∈ i.stop, s ≤ j.start
  /-- No boundary lies in the future. -/
  bounded : ∀ i ∈ intervals, i.start ≤ revision ∧ ∀ s ∈ i.stop, s ≤ revision
  /-- The level is high exactly if an interval is open. -/
  level_iff : level = true ↔ ∃ i ∈ intervals, i.stop = none
  /-- The intervals cover the high revisions. -/
  covers_iff : ∀ n ≤ revision, (∃ i ∈ intervals, i.Covers n) ↔ n ∈ high
  /-- No high revision lies in the future. -/
  high_le : ∀ n ∈ high, n ≤ revision

variable {intervals : List Interval} {revision : ℕ} {level : Bool} {high : Set ℕ}

/-- An earlier high revision stays one, and no sample is taken of the past. -/
theorem mem_sample_of_le {n : ℕ} (hn : n ≤ revision) :
    n ∈ sample high (revision + 1) level ↔ n ∈ high := by
  constructor
  · rintro (hmem | ⟨rfl, -⟩)
    · exact hmem
    · omega
  · exact Or.inl

/-- The revision of a sample is high exactly if the level is. -/
theorem mem_sample_self (h : ∀ n ∈ high, n ≤ revision) :
    revision + 1 ∈ sample high (revision + 1) level ↔ level = true := by
  constructor
  · rintro (hmem | ⟨-, hlevel⟩)
    · have := h _ hmem
      omega
    · exact hlevel
  · exact fun hlevel => Or.inr ⟨rfl, hlevel⟩

/-- No high revision after a sample lies in the future. -/
theorem sample_le (h : ∀ n ∈ high, n ≤ revision) :
    ∀ n ∈ sample high (revision + 1) level, n ≤ revision + 1 := by
  rintro n (hmem | ⟨rfl, -⟩)
  · have := h n hmem
    omega
  · exact le_rfl

/-- Without intervals, the level has never been high. -/
theorem Tracks.empty (revision : ℕ) : Tracks [] revision false ∅ := by
  constructor <;> simp

/-- Of a high level without a history, the present revision is recorded. -/
theorem Tracks.mark (revision : ℕ) : Tracks [⟨revision, none⟩] revision true {revision} := by
  constructor
  · simp
  · simp
  · simp
  · simp
  · intro n hn
    simp only [List.mem_singleton, exists_eq_left, Interval.Covers, Option.mem_def,
      Set.mem_singleton_iff]
    constructor
    · exact fun h => le_antisymm hn h.1
    · rintro rfl
      exact ⟨le_rfl, fun s hs => by cases hs⟩
  · simp

/-- Past the boundaries, a revision is covered exactly if an interval is open. -/
theorem Tracks.covers_next (h : Tracks intervals revision level high) :
    (∃ i ∈ intervals, i.Covers (revision + 1)) ↔ level = true := by
  rw [h.level_iff]
  constructor
  · rintro ⟨i, hi, -, hstop⟩
    refine ⟨i, hi, Option.eq_none_iff_forall_not_mem.mpr fun s hs => ?_⟩
    have h1 := hstop s hs
    have h2 := (h.bounded i hi).2 s hs
    omega
  · rintro ⟨i, hi, hopen⟩
    have hstart := (h.bounded i hi).1
    exact ⟨i, hi, by omega, fun s hs => by rw [hopen] at hs; cases hs⟩

/-- While the level is high, the present revision is a high one. -/
theorem Tracks.mem_high (h : Tracks intervals revision level high) (hlevel : level = true) :
    revision ∈ high := by
  obtain ⟨i, hi, hopen⟩ := h.level_iff.mp hlevel
  rw [← h.covers_iff revision le_rfl]
  exact ⟨i, hi, (h.bounded i hi).1, fun s hs => by rw [hopen] at hs; cases hs⟩

/-- Another sample at the present revision changes nothing. -/
theorem Tracks.sample_eq (h : Tracks intervals revision level high) :
    sample high revision level = high := by
  ext n
  constructor
  · rintro (hmem | ⟨rfl, hlevel⟩)
    · exact hmem
    · exact h.mem_high hlevel
  · exact Or.inl

/-- The level stays as it is at the next revision. -/
theorem Tracks.advance (h : Tracks intervals revision level high) :
    Tracks intervals (revision + 1) level (sample high (revision + 1) level) := by
  constructor
  · exact h.proper
  · exact h.ordered
  · intro i hi
    obtain ⟨hstart, hstop⟩ := h.bounded i hi
    exact ⟨by omega, fun s hs => by have := hstop s hs; omega⟩
  · exact h.level_iff
  · intro n hn
    rcases Nat.lt_or_ge revision n with hlt | hle
    · obtain rfl : n = revision + 1 := by omega
      rw [h.covers_next, mem_sample_self h.high_le]
    · rw [h.covers_iff n hle, mem_sample_of_le hle]
  · exact sample_le h.high_le

/-- A low level rises at the next revision. An interval is opened there, and it is the only one that
is open. -/
theorem Tracks.rise (h : Tracks intervals revision false high) :
    Tracks (intervals ++ [⟨revision + 1, none⟩]) (revision + 1) true
      (sample high (revision + 1) true) := by
  -- While the level is low every interval has ended, so the new one comes after all of them.
  have hclosed : ∀ i ∈ intervals, ∃ s ∈ i.stop, s ≤ revision := by
    intro i hi
    obtain ⟨s, hs⟩ := Option.ne_none_iff_exists'.mp fun hnone =>
      Bool.false_ne_true (h.level_iff.mpr ⟨i, hi, hnone⟩)
    exact ⟨s, hs, (h.bounded i hi).2 s hs⟩
  constructor
  · intro i hi s hs
    rcases List.mem_append.mp hi with hi | hi
    · exact h.proper i hi s hs
    · rw [List.mem_singleton.mp hi] at hs
      cases hs
  · rw [List.pairwise_append]
    refine ⟨h.ordered, List.pairwise_singleton _ _, fun i hi j hj => ?_⟩
    obtain ⟨s, hs, hle⟩ := hclosed i hi
    rw [List.mem_singleton.mp hj]
    exact ⟨s, hs, Nat.le_succ_of_le hle⟩
  · intro i hi
    rcases List.mem_append.mp hi with hi | hi
    · obtain ⟨hstart, hstop⟩ := h.bounded i hi
      exact ⟨by omega, fun s hs => by have := hstop s hs; omega⟩
    · rw [List.mem_singleton.mp hi]
      exact ⟨le_rfl, fun s hs => by cases hs⟩
  · simp
  · -- What is covered: the new revision by the new interval, an earlier one by the interval as
    -- before.
    intro n hn
    rcases Nat.lt_or_ge revision n with hlt | hle
    · obtain rfl : n = revision + 1 := by omega
      rw [mem_sample_self h.high_le]
      simp only [iff_true]
      exact ⟨⟨revision + 1, none⟩, by simp, le_rfl, fun s hs => by cases hs⟩
    · rw [mem_sample_of_le hle, ← h.covers_iff n hle]
      constructor
      · rintro ⟨i, hi, hcovers⟩
        rcases List.mem_append.mp hi with hi | hi
        · exact ⟨i, hi, hcovers⟩
        · -- The new interval starts later.
          rw [List.mem_singleton.mp hi] at hcovers
          have : revision + 1 ≤ n := hcovers.1
          omega
      · rintro ⟨i, hi, hcovers⟩
        exact ⟨i, List.mem_append_left _ hi, hcovers⟩
  · exact sample_le h.high_le

/-- A high level falls at the next revision. The open interval is closed there, and nothing else
changes. -/
theorem Tracks.fall (h : Tracks intervals revision true high) :
    Tracks (intervals.map (Interval.close (revision + 1))) (revision + 1) false
      (sample high (revision + 1) false) := by
  -- An end of a closed interval is one that it had, or the new one.
  have hstop : ∀ i : Interval, ∀ s ∈ (i.close (revision + 1)).stop,
      s ∈ i.stop ∨ i.stop = none ∧ s = revision + 1 := by
    rintro ⟨start, _ | stop⟩ s hs
    · exact Or.inr ⟨rfl, (Option.some.inj hs).symm⟩
    · exact Or.inl hs
  constructor
  · intro i hi s hs
    obtain ⟨j, hj, rfl⟩ := List.mem_map.mp hi
    have hstart := (h.bounded j hj).1
    rcases hstop j s hs with hs | ⟨-, rfl⟩
    · exact h.proper j hj s hs
    · exact Nat.lt_succ_of_le hstart
  · rw [List.pairwise_map]
    refine h.ordered.imp fun {i j} => ?_
    rintro ⟨s, hs, hle⟩
    exact ⟨s, by simp [Interval.close, Option.mem_def.mp hs], hle⟩
  · intro i hi
    obtain ⟨j, hj, rfl⟩ := List.mem_map.mp hi
    obtain ⟨hstart, hle⟩ := h.bounded j hj
    refine ⟨Nat.le_succ_of_le hstart, fun s hs => ?_⟩
    rcases hstop j s hs with hs | ⟨-, rfl⟩
    · exact Nat.le_succ_of_le (hle s hs)
    · exact le_rfl
  · simp [Interval.close]
  · -- What is covered: the new revision by none, since the ends are exclusive; an earlier one as
    -- before.
    intro n hn
    rcases Nat.lt_or_ge revision n with hlt | hle
    · obtain rfl : n = revision + 1 := by omega
      rw [mem_sample_self h.high_le]
      simp only [Bool.false_eq_true, iff_false]
      rintro ⟨i, hi, -, hlt'⟩
      obtain ⟨j, hj, rfl⟩ := List.mem_map.mp hi
      -- Every interval has ended by now.
      have hend := hlt' _ rfl
      cases hj' : j.stop with
      | none => simp [hj'] at hend
      | some s =>
        have := (h.bounded j hj).2 s hj'
        simp only [hj', Option.getD_some] at hend
        omega
    · rw [mem_sample_of_le hle, ← h.covers_iff n hle]
      have hsame : ∀ i : Interval, (i.close (revision + 1)).Covers n ↔ i.Covers n := by
        rintro ⟨start, _ | stop⟩
        · simp only [Interval.Covers, Interval.close, Option.getD_none, Option.mem_def,
            Option.some.injEq, forall_eq', reduceCtorEq, false_implies, implies_true, and_true]
          omega
        · rfl
      simp [hsame]
  · exact sample_le h.high_le

/-- At most one interval is open, so the level is high exactly if one is. This is the form in which
a table of episodes with a partial unique index states it. -/
theorem Tracks.count_open (h : Tracks intervals revision level high) :
    level = true ↔ intervals.countP (fun i => i.stop.isNone) = 1 := by
  have hcount : ∀ l : List Interval, l.Pairwise (fun i j => ∃ s ∈ i.stop, s ≤ j.start) →
      ((∃ i ∈ l, i.stop = none) ↔ l.countP (fun i => i.stop.isNone) = 1) := by
    -- By induction from the left: an interval with a later one has ended.
    intro l
    induction l with
    | nil => simp
    | cons i l ih =>
      intro hl
      obtain ⟨hi, hl⟩ := List.pairwise_cons.mp hl
      rw [List.countP_cons]
      cases hstop : i.stop with
      | none =>
        -- An open interval is the last one.
        have hnil : l = [] := by
          refine List.eq_nil_iff_forall_not_mem.mpr fun j hj => ?_
          obtain ⟨s, hs, -⟩ := hi j hj
          rw [hstop] at hs
          cases hs
        simp [hnil, hstop]
      | some s => simpa [hstop] using ih hl
  rw [h.level_iff, hcount intervals h.ordered]

end EdgeIntervals
