import RestaurantOS.Tenancy.Permissions
import RestaurantOS.Tenancy.Preconditions

/-!
# Revocation fences writes

A write shares its membership from before it reads its rights until it is committed, and an update
has the membership for itself, so the rights that a write has read are those in force when it is
committed. -/

namespace RestaurantOS.Tenancy

open ReadCommitted

variable (env : Environment) (start : Database)

/-- The membership whose rights a committed write has used. -/
structure Fenced (acts pre : List Act) (process : ℕ) (principal : UUID) (restaurant_id : ℕ)
    (command : Write) (draw : Draw) (reply : Reply) (membership : Membership) : Prop where
  /-- The write is committed at this point. -/
  commits : pre ++ [.step process] <+: acts ∧
    commits env start pre process (.write principal restaurant_id command draw) reply
  /-- It shares the membership then. -/
  shared : holds env start pre process (.membership membership.id) .share
  /-- It runs its command in the context of the membership, on the rows that are committed. -/
  runs : ∃ branch response,
    exec env.library (command.within ((run env start pre).rows.context membership)) draw
      ((run env start pre).rows.branches restaurant_id) = .ok (branch, response) ∧
    reply = .response response ∧
    (run env start (pre ++ [.step process])).rows =
      (run env start pre).rows.put_branch restaurant_id branch
  /-- The context permits the command. -/
  permits : Permits ((run env start pre).rows.context membership)
    ((run env start pre).rows.branches restaurant_id) command.capabilities
  /-- From the moment it shares the membership until it is committed, it shares it all the time, the
  membership is the active one of its user with the same role and restaurants, and nobody has it for
  themselves. -/
  fenced : ∀ mid, mid <+: acts → holds env start mid process (.membership membership.id) .share →
    mid <+: pre ∧ ∀ later, mid <+: later → later <+: pre →
      holds env start later process (.membership membership.id) .share ∧
      InForce (run env start later).rows principal membership ∧
      (run env start later).rows.context membership = (run env start pre).rows.context membership ∧
      ∀ other, other ≠ process →
        ¬ holds env start later other (.membership membership.id) .exclusive

variable {env start}

/-- A membership whose row and assignments are the same gives the same rights. -/
theorem rights_of_view {db db' : Database} {principal : UUID} {membership : Membership}
    (h : InForce db principal membership)
    (hview : view (.membership membership.id) db' = view (.membership membership.id) db) :
    InForce db' principal membership ∧ db'.context membership = db.context membership := by
  obtain ⟨hrow, hassignments⟩ := View.rights.inj hview
  have hlookup : Keyed.lookup Membership.id membership.id db.memberships = some membership :=
    db.unique_id.lookup_eq_some.mpr ⟨h.mem, rfl⟩
  rw [hlookup] at hrow
  refine ⟨⟨Keyed.lookup_mem hrow, h.user, h.active⟩, ?_⟩
  unfold Database.context
  rw [assigned_eq, assigned_eq, hassignments]

variable (env start)

/-- Revocation fences writes. Every committed business write was authorized by an active membership
whose role and restaurants were in force from the moment it shared the membership until its commit;
and every committed update of a membership has had that membership for itself when it was committed. -/
theorem revocation_fences_writes (acts : List Act) :
    (∀ process principal restaurant_id command draw reply,
      (run env start acts).phases process =
        .committed (.write principal restaurant_id command draw) reply →
      ∃ pre membership, InForce (run env start pre).rows principal membership ∧
        Fenced env start acts pre process principal restaurant_id command draw reply membership) ∧
    ∀ process principal membership_id role restaurant_ids revoke reply,
      (run env start acts).phases process =
        .committed (.update_membership principal membership_id role restaurant_ids revoke) reply →
      ∃ pre, pre ++ [.step process] <+: acts ∧
        commits env start pre process
          (.update_membership principal membership_id role restaurant_ids revoke) reply ∧
        holds env start pre process (.membership membership_id) .exclusive := by
  constructor
  · intro process principal restaurant_id command draw reply hcommitted
    obtain ⟨pre, hpre, hcommits⟩ := exists_commits hcommitted
    obtain ⟨keys, hlocks, hgood⟩ := commits_good hcommits
    obtain ⟨membership, hwrites⟩ := hgood.writes principal restaurant_id command draw rfl
    obtain ⟨branch, response, hexec, hreply, hrows⟩ := hwrites.runs
    -- The write has shared the membership under which it is authorized.
    have hshared := (hlocks _ _).mpr hwrites.shared
    refine ⟨pre, membership, hwrites.in_force, ⟨hpre, hcommits⟩, hshared,
      ⟨branch, response, hexec, hreply, hrows⟩, exec_permits hexec, fun mid hmid hholds => ?_⟩
    have hbefore := held_before_commit hpre hcommits hmid hholds
    refine ⟨hbefore, fun later hlater hlast => ?_⟩
    obtain ⟨hkept, -⟩ := held_later hlater (commits_over hcommits hlast) hholds
    -- The rights are those of the commit, since the membership is shared until then.
    obtain ⟨-, hview⟩ := held_later hlast (commits_over hcommits List.prefix_rfl) hkept
    obtain ⟨hforce, hcontext⟩ := rights_of_view hwrites.in_force hview.symm
    -- And no other transaction holds the membership for itself in between.
    refine ⟨hkept, hforce, hcontext, fun other hother hexclusive => hother ?_⟩
    exact ((run_inv env start later).alone _ _ _ _ hexclusive hkept).symm
  · -- An update holds its membership exclusively at its commit, as its guarantee says.
    intro process principal membership_id role restaurant_ids revoke reply hcommitted
    obtain ⟨pre, hpre, hcommits⟩ := exists_commits hcommitted
    obtain ⟨keys, hlocks, hgood⟩ := commits_good hcommits
    exact ⟨pre, hpre, hcommits, (hlocks _ _).mpr (hgood.updates membership_id rfl)⟩

end RestaurantOS.Tenancy
