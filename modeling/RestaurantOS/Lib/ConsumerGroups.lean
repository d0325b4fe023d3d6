import Mathlib.Data.List.Basic
import Mathlib.Logic.Function.Basic

/-!
# Logs with consumer groups

A log is an append-only list of entries, each with its own identifier, that groups of consumers read. A
group is given each entry once. From then on the entry is pending for the group until a consumer
acknowledges it, and while it is pending any consumer of the group can ask for it again. A group may be
created when the log already has entries, and reads it from its start.

An entry is `Outstanding` for a group as long as the group has not acknowledged it: reading, new
entries, new groups and the acknowledgement of anything else keep it outstanding.
-/

namespace ConsumerGroups

variable {α ι γ : Type*}

/-- What a log keeps for a group. Entries move from the first to the second when they are read. -/
structure Group (α ι : Type*) where
  /-- The entries it has not been given yet. -/
  unread : List α
  /-- The identifiers of the entries it was given and has not acknowledged. -/
  pending : List ι

/-- A log and its groups. Groups read the same entries independently of each other. -/
structure Log (α ι γ : Type*) where
  /-- The entries, in the order in which they were added. -/
  entries : List α
  /-- The groups that exist. -/
  groups : γ → Option (Group α ι)

namespace Log

/-- The empty log, without groups. A group is created when it first reads. -/
def empty : Log α ι γ := ⟨[], fun _ => none⟩

/-- An entry is added. Every group that exists will read it. -/
def add (log : Log α ι γ) (entry : α) : Log α ι γ :=
  { entries := log.entries ++ [entry],
    groups := fun g => (log.groups g).map fun group =>
      { group with unread := group.unread ++ [entry] } }

/-- A new entry is the last one. -/
@[simp] theorem add_entries (log : Log α ι γ) (entry : α) :
    (log.add entry).entries = log.entries ++ [entry] := rfl

variable [DecidableEq γ] (key : α → ι)

/-- The state of a group is set. The entries and the other groups stay. -/
def set_group (log : Log α ι γ) (g : γ) (group : Group α ι) : Log α ι γ :=
  { log with groups := Function.update log.groups g (some group) }

/-- A group that does not exist is created at the start of the log. -/
def create_group (log : Log α ι γ) (g : γ) : Log α ι γ :=
  match log.groups g with
  | none => log.set_group g ⟨log.entries, []⟩
  | some _ => log

/-- The next entries that `read` gives to a group. -/
def next_entries (log : Log α ι γ) (g : γ) (count : ℕ) : List α :=
  match log.groups g with
  | none => []
  | some group => group.unread.take count

/-- A group is given its next entries, and they are pending. -/
def read (log : Log α ι γ) (g : γ) (count : ℕ) : Log α ι γ :=
  match log.groups g with
  | none => log
  | some group => log.set_group g
    ⟨group.unread.drop count, group.pending ++ (group.unread.take count).map key⟩

/-- The pending entries of a group among some. -/
def pending_entries [DecidableEq ι] (log : Log α ι γ) (g : γ) (ids : List ι) : List α :=
  match log.groups g with
  | none => []
  | some group => log.entries.filter fun entry => key entry ∈ group.pending ∧ key entry ∈ ids

/-- A pending entry of a group is acknowledged. -/
def acknowledge [DecidableEq ι] (log : Log α ι γ) (g : γ) (id : ι) : Log α ι γ :=
  match log.groups g with
  | none => log
  | some group => log.set_group g { group with pending := group.pending.filter (· ≠ id) }

/-- The entries that groups have not been given yet are entries of the log. -/
def Sound (log : Log α ι γ) : Prop :=
  ∀ g group, log.groups g = some group → ∀ entry ∈ group.unread, entry ∈ log.entries

/-- The log holds an entry that a group has not acknowledged: it is still to be given to the group, or
it is pending. -/
def Outstanding (log : Log α ι γ) (g : γ) (id : ι) : Prop :=
  id ∈ log.entries.map key ∧
    ∀ group, log.groups g = some group → id ∈ group.unread.map key ∨ id ∈ group.pending

variable {key} {log : Log α ι γ} {g g' : γ} {id id' : ι} {group : Group α ι}

/-! ## The entries -/

/-- Creating a group adds no entry. -/
@[simp] theorem create_group_entries (log : Log α ι γ) (g : γ) :
    (log.create_group g).entries = log.entries := by
  unfold create_group
  split <;> rfl

/-- Reading takes no entry out of the log. -/
@[simp] theorem read_entries (log : Log α ι γ) (g : γ) (count : ℕ) :
    (log.read key g count).entries = log.entries := by
  unfold read
  split <;> rfl

/-- Acknowledging takes no entry out of the log. -/
@[simp] theorem acknowledge_entries [DecidableEq ι] (log : Log α ι γ) (g : γ) (id : ι) :
    (log.acknowledge g id).entries = log.entries := by
  unfold acknowledge
  split <;> rfl

omit [DecidableEq γ] in
/-- The pending entries are entries of the log. -/
theorem mem_of_pending [DecidableEq ι] {ids : List ι} {entry : α}
    (h : entry ∈ log.pending_entries key g ids) :
    entry ∈ log.entries := by
  unfold pending_entries at h
  split at h
  · exact absurd h List.not_mem_nil
  · exact List.mem_of_mem_filter h

omit [DecidableEq γ] in
/-- A log without groups has nothing unread. -/
theorem sound_empty : (empty : Log α ι γ).Sound := nofun

omit [DecidableEq γ] in
/-- A new entry is unread in every group, and an entry of the log. -/
theorem Sound.add (h : log.Sound) (entry : α) : (log.add entry).Sound := by
  intro g group hgroup e he
  obtain ⟨old, hold, rfl⟩ := Option.map_eq_some_iff.mp hgroup
  rw [add_entries]
  exact (List.mem_append.mp he).elim (fun he => List.mem_append_left _ (h g old hold e he))
    (List.mem_append_right _)

/-- Setting a group to unread entries of the log keeps it sound. -/
theorem Sound.set_group (h : log.Sound) (hgroup : ∀ entry ∈ group.unread, entry ∈ log.entries) :
    (log.set_group g group).Sound := by
  intro g' state hstate
  replace hstate : Function.update log.groups g (some group) g' = some state := hstate
  by_cases hg : g' = g
  · subst hg
    rw [Function.update_self, Option.some.injEq] at hstate
    exact hstate ▸ hgroup
  · rw [Function.update_of_ne hg] at hstate
    exact h g' state hstate

/-- A new group has the entries of the log before it. -/
theorem Sound.create_group (h : log.Sound) (g : γ) : (log.create_group g).Sound := by
  unfold Log.create_group
  split
  · exact h.set_group fun _ he => he
  · exact h

/-- Reading only shortens what is unread. -/
theorem Sound.read (h : log.Sound) (g : γ) (count : ℕ) : (log.read key g count).Sound := by
  unfold Log.read
  split
  · exact h
  · rename_i group hgroup
    exact h.set_group fun e he => h g group hgroup e (List.mem_of_mem_drop he)

/-- Acknowledging leaves what is unread as it is. -/
theorem Sound.acknowledge [DecidableEq ι] (h : log.Sound) (g : γ) (id : ι) :
    (log.acknowledge g id).Sound := by
  unfold Log.acknowledge
  split
  · exact h
  · rename_i group hgroup
    exact h.set_group (h g group hgroup)

omit [DecidableEq γ] in
/-- A group is given entries of the log. -/
theorem Sound.mem_of_next (h : log.Sound) {count : ℕ} {entry : α}
    (hentry : entry ∈ log.next_entries g count) : entry ∈ log.entries := by
  unfold next_entries at hentry
  split at hentry
  · exact absurd hentry List.not_mem_nil
  · rename_i group hgroup
    exact h g group hgroup entry (List.mem_of_mem_take hentry)

/-! ## What keeps an entry outstanding -/

/-- Changing a group to one that still has an entry unread or pending. -/
theorem Outstanding.set_group (h : log.Outstanding key g id)
    (hgroup : g = g' → id ∈ group.unread.map key ∨ id ∈ group.pending) :
    (log.set_group g' group).Outstanding key g id := by
  refine ⟨h.1, fun state hstate => ?_⟩
  replace hstate : Function.update log.groups g' (some group) g = some state := hstate
  by_cases hg : g = g'
  · subst hg
    rw [Function.update_self, Option.some.injEq] at hstate
    exact hstate ▸ hgroup rfl
  · rw [Function.update_of_ne hg] at hstate
    exact h.2 state hstate

omit [DecidableEq γ] in
/-- Adding another entry. The old entries are in front of it. -/
theorem Outstanding.add (h : log.Outstanding key g id) (entry : α) :
    (log.add entry).Outstanding key g id := by
  refine ⟨?_, fun group hgroup => ?_⟩
  · rw [add_entries, List.map_append]
    exact List.mem_append_left _ h.1
  · obtain ⟨old, hold, rfl⟩ := Option.map_eq_some_iff.mp hgroup
    refine (h.2 old hold).imp_left fun hunread => ?_
    rw [List.map_append]
    exact List.mem_append_left _ hunread

omit [DecidableEq γ] in
/-- A new entry is outstanding for every group. -/
theorem outstanding_add (log : Log α ι γ) (g : γ) (entry : α) :
    (log.add entry).Outstanding key g (key entry) := by
  refine ⟨?_, fun group hgroup => Or.inl ?_⟩
  · rw [add_entries, List.map_append]
    exact List.mem_append_right _ (List.mem_singleton_self _)
  · obtain ⟨old, -, rfl⟩ := Option.map_eq_some_iff.mp hgroup
    rw [List.map_append]
    exact List.mem_append_right _ (List.mem_singleton_self _)

/-- Creating a group: it starts before the entry. -/
theorem Outstanding.create_group (h : log.Outstanding key g id) (g' : γ) :
    (log.create_group g').Outstanding key g id := by
  unfold Log.create_group
  split
  · exact h.set_group fun _ => Or.inl h.1
  · exact h

/-- Reading: what the group is given is pending. What is pending already stays pending. -/
theorem Outstanding.read (h : log.Outstanding key g id) (g' : γ) (count : ℕ) :
    (log.read key g' count).Outstanding key g id := by
  unfold Log.read
  split
  · exact h
  · rename_i group hgroup
    refine h.set_group fun hg => ?_
    subst hg
    rcases h.2 group hgroup with hunread | hpending
    · rw [← List.take_append_drop count group.unread, List.map_append] at hunread
      rcases List.mem_append.mp hunread with hgiven | hleft
      · exact Or.inr (List.mem_append_right _ hgiven)
      · exact Or.inl hleft
    · exact Or.inr (List.mem_append_left _ hpending)

/-- Acknowledging another entry, or for another group. Only what is acknowledged leaves the pending
entries. -/
theorem Outstanding.acknowledge [DecidableEq ι] (h : log.Outstanding key g id) (hne : ¬(g = g' ∧ id = id')) :
    (log.acknowledge g' id').Outstanding key g id := by
  unfold Log.acknowledge
  split
  · exact h
  · rename_i group hgroup
    refine h.set_group fun hg => ?_
    subst hg
    refine (h.2 group hgroup).imp_right fun hpending => List.mem_filter.mpr ⟨hpending, ?_⟩
    exact decide_eq_true fun heq => hne ⟨rfl, heq⟩

omit [DecidableEq γ] in
/-- A consumer of a group can obtain an outstanding entry: it is pending, or the group is given it once
it reads as many entries as it has not been given. -/
theorem Outstanding.obtainable [DecidableEq ι] (h : log.Outstanding key g id) (hsound : log.Sound)
    (hgroup : log.groups g = some group) {count : ℕ} (hcount : group.unread.length ≤ count) :
    ∃ entry ∈ log.entries, key entry = id ∧
      (entry ∈ log.next_entries g count ∨ entry ∈ log.pending_entries key g [id]) := by
  unfold next_entries pending_entries
  rw [hgroup]
  dsimp only
  rcases h.2 group hgroup with hunread | hpending
  · obtain ⟨entry, hentry, rfl⟩ := List.mem_map.mp hunread
    refine ⟨entry, hsound g group hgroup entry hentry, rfl, Or.inl ?_⟩
    rwa [List.take_of_length_le hcount]
  · obtain ⟨entry, hentry, rfl⟩ := List.mem_map.mp h.1
    refine ⟨entry, hentry, rfl, Or.inr (List.mem_filter.mpr ⟨hentry, ?_⟩)⟩
    exact decide_eq_true ⟨hpending, List.mem_singleton_self _⟩

/-- What is pending stays pending when a group reads. Only an acknowledgement takes it away. -/
theorem pending_read [DecidableEq ι] {ids : List ι} {entry : α}
    (h : entry ∈ log.pending_entries key g ids) (count : ℕ) :
    entry ∈ (log.read key g count).pending_entries key g ids := by
  unfold pending_entries at h
  split at h
  · exact absurd h List.not_mem_nil
  · rename_i group hgroup
    obtain ⟨hentry, hpending⟩ := List.mem_filter.mp h
    obtain ⟨hpending, hid⟩ := of_decide_eq_true hpending
    -- A reading appends to what is pending what it hands out.
    have hread : (log.read key g count).groups g =
        some ⟨group.unread.drop count, group.pending ++ (group.unread.take count).map key⟩ := by
      unfold Log.read
      rw [hgroup]
      exact Function.update_self ..
    unfold pending_entries
    rw [hread]
    dsimp only
    rw [read_entries]
    refine List.mem_filter.mpr ⟨hentry, decide_eq_true ⟨?_, hid⟩⟩
    exact List.mem_append_left _ hpending

/-- A group that was created exists. -/
theorem create_group_groups (log : Log α ι γ) (g : γ) :
    ∃ group, (log.create_group g).groups g = some group := by
  unfold create_group
  split
  · exact ⟨_, Function.update_self ..⟩
  · exact ⟨_, by assumption⟩

end Log

end ConsumerGroups
