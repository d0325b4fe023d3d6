import RestaurantOS.Tenancy.Preconditions

/-!
# The last owner stays

From the moment a request has locked its organization, the memberships are as it has read them, so
the owners it counts are those of the commit, and who is left is at least one. -/

namespace RestaurantOS.Tenancy

open ReadCommitted

variable (env : Environment) (start : Database)

/-- Rows with the same members have the same owners. -/
theorem owner_count_of_members {db db' : Database} {organization_id : UUID}
    (h : members organization_id db' = members organization_id db) :
    db'.owner_count organization_id = db.owner_count organization_id := by
  rw [owner_count_eq, owner_count_eq, h]

/-- An organization with an owner keeps one in every step. Only a commit can change the members of
an organization: what others do leaves what the locks protect. -/
theorem step_owned (acts : List Act) (a : Act) {organization_id : UUID}
    (h : 0 < (run env start acts).rows.owner_count organization_id) :
    0 < (run env start (acts ++ [a])).rows.owner_count organization_id := by
  have hstep : run env start (acts ++ [a]) =
      (run env start acts).step (Request.transaction env) discipline a :=
    Transition.run_concat _ _ acts a
  have hinv := run_inv env start acts
  have hstepped := step_stepped (run env start acts) (Request.transaction env) a
  rw [hstep]
  generalize (run env start acts).step (Request.transaction env) discipline a = w' at hstepped
  cases hstepped with
  | stuck => exact h
  | moved => exact h
  | locked => exact h
  | failed => exact h
  | committed i request change response hphase rows hrows =>
    -- The commit is one of the good ones, whose effect on the owners is part of what they
    -- guarantee.
    obtain ⟨-, keys, -, hgood⟩ := hinv.commit hphase hrows
    exact hgood.owned organization_id h
  -- A change from outside shows the same members, and so the same owners.
  | interfered change =>
    have hsame := View.members.inj ((change.2 (run env start acts).rows).2 (.organization organization_id))
    rw [← owner_count_of_members hsame] at h
    exact h

/-- The last owner is protected. In every run of membership requests, of business writes, and of
changes by others that leave what the locks protect, an organization with an active owner whose user is
active has one in every later state. A membership request that is committed has held the lock of an
organization until then, and in every state in which it has held it, from the one in which it took it,
the user of the request had the same active membership as an owner of that organization. -/
theorem last_owner_protected (acts later : List Act) :
    (∀ organization_id, 0 < (run env start acts).rows.owner_count organization_id →
      0 < (run env start (acts ++ later)).rows.owner_count organization_id) ∧
    ∀ process request reply, request.administrative = true →
      (run env start acts).phases process = .committed request reply →
        ∃ organization_id member,
          (∃ pre, pre ++ [.step process] <+: acts ∧ commits env start pre process request reply ∧
            holds env start pre process (.organization organization_id) .exclusive) ∧
          member.user_id = request.principal ∧ member.organization_id = organization_id ∧
          member.status = .active ∧ member.role = .OWNER ∧
          ∀ mid, mid <+: acts → holds env start mid process (.organization organization_id) .exclusive →
            member ∈ (run env start mid).rows.memberships := by
  refine ⟨fun organization_id h => ?_, fun process request reply hadministrative hcommitted => ?_⟩
  · -- The owners: by induction on what comes later.
    induction later using List.reverseRecOn with
    | nil => rwa [List.append_nil]
    | append_singleton later a ih =>
      rw [← List.append_assoc]
      exact step_owned env start (acts ++ later) a ih
  · -- The authority: what was known at the commit, carried back to every state under the same lock.
    obtain ⟨pre, hpre, hcommits⟩ := exists_commits hcommitted
    obtain ⟨keys, hlocks, hgood⟩ := commits_good hcommits
    obtain ⟨organization_id, hkey, member, active, hmember, huser, horganization, hstatus, hrole⟩ :=
      hgood.authorized hadministrative
    have hheld := (hlocks _ _).mpr hkey
    refine ⟨organization_id, member, ⟨pre, hpre, hcommits, hheld⟩, huser, horganization, hstatus,
      hrole, fun mid hmid hholds => ?_⟩
    have hbefore := held_before_commit hpre hcommits hmid hholds
    -- The view of the organization is the same in all these states.
    have hsame := (held_later hbefore (commits_over hcommits List.prefix_rfl) hholds).2
    rw [View.members.inj hsame] at hmember
    exact (mem_members.mp hmember).1

end RestaurantOS.Tenancy
