import RestaurantOS.Tenancy.Writes

/-!
# Members and owners

What the lock on an organization protects: its members, and among them its owners. An insertion and
an update leave the members of other organizations, and who is left when an owner goes is at least
one (`owned_update`). -/

namespace RestaurantOS.Tenancy

open Fallible

/-- A member counts as an owner. The second component says whether the account is active. -/
def is_owner (member : Membership × Bool) : Bool :=
  member.1.status = .active && member.1.role = .OWNER && member.2

/-- The owners are counted among the members. Both count active owners of the organization. -/
theorem owner_count_eq (db : Database) (organization_id : UUID) :
    db.owner_count organization_id = (members organization_id db).countP is_owner := by
  unfold Database.owner_count members
  rw [List.countP_map, List.countP_filter, List.countP_eq_length_filter]
  congr 1
  refine List.filter_congr fun member _ => ?_
  rw [Bool.eq_iff_iff]
  simp only [is_owner, Function.comp, decide_eq_true_eq, Bool.and_eq_true]
  tauto

section Tables

variable {db db' : Database}

/-- The members are read off the memberships and the users. -/
theorem members_congr (hmemberships : db'.memberships = db.memberships) (husers : db'.users = db.users)
    (organization_id : UUID) : members organization_id db' = members organization_id db := by
  unfold members Database.user_active
  rw [hmemberships, husers]

/-- A member is a membership of its organization. The flag says whether its user is active. -/
theorem mem_members {organization_id : UUID} {member : Membership} {active : Bool} :
    (member, active) ∈ members organization_id db ↔ member ∈ db.memberships ∧
      member.organization_id = organization_id ∧ db.user_active member.user_id = active := by
  unfold members
  rw [List.mem_map]
  constructor
  · rintro ⟨member', hmember', heq⟩
    obtain ⟨rfl, hactive⟩ := Prod.mk.inj heq
    obtain ⟨hmember, horganization⟩ := List.mem_filter.mp hmember'
    exact ⟨hmember, of_decide_eq_true horganization, hactive⟩
  · rintro ⟨hmember, horganization, rfl⟩
    exact ⟨member, List.mem_filter.mpr ⟨hmember, decide_eq_true horganization⟩, rfl⟩

variable {member : Membership}

/-- An insertion leaves the members of other organizations. The new membership belongs to another
one. -/
theorem members_insert_ne {integrity : Failure} (h : db.insert member integrity = .ok db')
    {organization_id : UUID} (hne : organization_id ≠ member.organization_id) :
    members organization_id db' = members organization_id db := by
  unfold Database.insert at h
  split_ifs at h
  obtain rfl := Except.ok.inj h
  unfold members Database.user_active
  rw [List.filter_append, List.filter_cons_of_neg (by simpa using Ne.symm hne), List.filter_nil,
    List.append_nil]

/-- An insertion leaves the owners. -/
theorem owner_count_insert {integrity : Failure} (h : db.insert member integrity = .ok db')
    (organization_id : UUID) : db.owner_count organization_id ≤ db'.owner_count organization_id := by
  unfold Database.insert at h
  split_ifs at h
  obtain rfl := Except.ok.inj h
  unfold Database.owner_count Database.user_active
  rw [List.filter_append, List.length_append]
  exact Nat.le_add_right _ _

/-- An insertion leaves the memberships. -/
theorem stay_insert {integrity : Failure} (h : db.insert member integrity = .ok db') :
    Stay db db' := by
  unfold Database.insert at h
  split_ifs at h
  obtain rfl := Except.ok.inj h
  exact fun other hother => ⟨other, List.mem_append_left _ hother, rfl, rfl, rfl⟩

/-- The role and the status that an update leaves. -/
def updated (member : Membership) (role : Option MembershipRole) (revoke : Bool) : Membership :=
  { member with
    role := role.getD member.role
    status := if revoke then .revoked else member.status }

/-- An update leaves the members of other organizations. So a request on one organization is never
seen under the lock of another. -/
theorem members_update_ne (hmember : member ∈ db.memberships) (role : Option MembershipRole)
    (revoke : Bool) {organization_id : UUID} (hne : organization_id ≠ member.organization_id) :
    members organization_id (db.update member.id role revoke) = members organization_id db := by
  unfold members Database.update Keyed.modify
  simp only
  rw [List.filter_map, List.map_map]
  -- The row that is updated is of another organization.
  have hkept : ∀ row ∈ db.memberships, row.organization_id = organization_id →
      row.id ≠ member.id := by
    intro row hrow horganization hid
    rw [db.unique_id.eq_of_key hrow hmember hid] at horganization
    exact hne horganization.symm
  -- The selection is unchanged, for an update keeps the organization of a row.
  have hfilter : (db.memberships.filter ((fun row => decide (row.organization_id = organization_id)) ∘
      fun row => if row.id = member.id then
        { row with
          role := role.getD row.role
          status := if revoke then .revoked else row.status } else row)) =
        db.memberships.filter fun row => row.organization_id = organization_id := by
    refine List.filter_congr fun row _ => ?_
    simp only [Function.comp]
    split_ifs <;> rfl
  rw [hfilter]
  refine List.map_congr_left fun row hrow => ?_
  obtain ⟨hrow, horganization⟩ := List.mem_filter.mp hrow
  simp only [Function.comp, if_neg (hkept row hrow (of_decide_eq_true horganization))]
  rfl

/-- An update leaves users and organizations of the memberships. -/
theorem stay_update (membership_id : UUID) (role : Option MembershipRole) (revoke : Bool) :
    Stay db (db.update membership_id role revoke) := by
  intro row hrow
  refine ⟨_, List.mem_map_of_mem hrow, ?_, ?_, ?_⟩
  · split_ifs <;> rfl
  · split_ifs <;> rfl
  · split_ifs <;> rfl

/-- A membership is that of an owner. It is what `owner_count` counts. -/
def owns (db : Database) (organization_id : UUID) (member : Membership) : Bool :=
  member.organization_id = organization_id ∧ member.status = .active ∧ member.role = .OWNER ∧
    db.user_active member.user_id = true

/-- An update changes the owners by its member. It is counted before with the old values, and
afterwards with the new ones. -/
theorem owner_count_update (hmember : member ∈ db.memberships) (role : Option MembershipRole)
    (revoke : Bool) (organization_id : UUID) :
    (db.update member.id role revoke).owner_count organization_id +
        (owns db organization_id member).toNat =
      db.owner_count organization_id + (owns db organization_id (updated member role revoke)).toNat := by
  have hcount := Keyed.countP_modify db.unique_id hmember (fun row => updated row role revoke)
    (owns db organization_id)
  rw [List.countP_eq_length_filter, List.countP_eq_length_filter] at hcount
  exact hcount

/-- An update that does not take the last owner leaves one. The guard of the service is the
hypothesis `hkept`; the counts before and after are related by `owner_count_update`. -/
theorem owned_update (hmember : member ∈ db.memberships) {role : Option MembershipRole}
    {revoke : Bool}
    (hkept : member.role = .OWNER ∧ member.status = .active ∧
      (revoke = true ∨ ¬ (role = none ∨ role = some .OWNER)) →
        1 < db.owner_count member.organization_id) {organization_id : UUID}
    (howned : 0 < db.owner_count organization_id) :
    0 < (db.update member.id role revoke).owner_count organization_id := by
  have hcount := owner_count_update hmember role revoke organization_id
  by_cases hremoves : member.role = .OWNER ∧ member.status = .active ∧
      (revoke = true ∨ ¬ (role = none ∨ role = some .OWNER))
  · -- One owner goes, of two at least.
    by_cases hsame : organization_id = member.organization_id
    · have hmore := hkept hremoves
      rw [← hsame] at hmore
      have hone := Bool.toNat_le (owns db organization_id member)
      omega
    · -- The member is of another organization, whose count is not touched.
      have hnot : owns db organization_id member = false := by
        simp [owns, Ne.symm hsame]
      rw [hnot, Bool.toNat_false] at hcount
      omega
  · -- An owner that is updated otherwise is one afterwards.
    have hle : (owns db organization_id member).toNat ≤
        (owns db organization_id (updated member role revoke)).toNat := by
      refine Bool.toNat_le_toNat fun howns => ?_
      obtain ⟨horganization, hstatus, hrole, hactive⟩ := of_decide_eq_true howns
      have hno : revoke = false ∧ (role = none ∨ role = some .OWNER) := by
        simpa [hrole, hstatus, imp_iff_not_or] using hremoves
      obtain ⟨rfl, hnone | hsome⟩ := hno
      · simp [owns, updated, hnone, horganization, hstatus, hrole, hactive]
      · simp [owns, updated, hsome, horganization, hstatus, hactive]
    omega

/-- Rows with the memberships and users of others have their owners. -/
theorem owner_count_congr (hmemberships : db'.memberships = db.memberships)
    (husers : db'.users = db.users) (organization_id : UUID) :
    db'.owner_count organization_id = db.owner_count organization_id := by
  rw [owner_count_eq, owner_count_eq, members_congr hmemberships husers]

/-! ## The rights of a membership -/

/-- The restaurants that assignments give to a membership. -/
def assigned_in (membership : Membership) (assignments : List RestaurantAssignment) : List ℕ :=
  (assignments.filter fun row => row.organization_id = membership.organization_id).map
    (·.restaurant_id)

/-- The restaurants of a membership are read off its assignments. -/
theorem assigned_eq (db : Database) (membership : Membership) :
    db.assigned membership = assigned_in membership (assignments_of membership.id db) := by
  unfold Database.assigned assigned_in assignments_of
  rw [List.filter_filter]
  congr 1
  refine List.filter_congr fun row _ => ?_
  rw [Bool.and_comm, Bool.decide_and]

/-- An insertion leaves the assignments and the business rows. -/
theorem insert_frame {integrity : Failure} (h : db.insert member integrity = .ok db') :
    db'.assignments = db.assignments ∧ db'.branches = db.branches := by
  unfold Database.insert at h
  split_ifs at h
  obtain rfl := Except.ok.inj h
  exact ⟨rfl, rfl⟩

/-- An insertion leaves the rows of other memberships. -/
theorem lookup_insert_ne {integrity : Failure} (h : db.insert member integrity = .ok db')
    {membership_id : UUID} (hne : membership_id ≠ member.id) :
    Keyed.lookup Membership.id membership_id db'.memberships =
      Keyed.lookup Membership.id membership_id db.memberships := by
  unfold Database.insert at h
  split_ifs at h
  obtain rfl := Except.ok.inj h
  rw [Keyed.lookup_append, if_neg (Ne.symm hne), Option.or_none]

/-- An update leaves the rows of other memberships. -/
theorem lookup_update_ne (role : Option MembershipRole) (revoke : Bool) {membership_id : UUID}
    (hne : membership_id ≠ member.id) :
    Keyed.lookup Membership.id membership_id (db.update member.id role revoke).memberships =
      Keyed.lookup Membership.id membership_id db.memberships := by
  have hid : ∀ row : Membership, row.id = member.id → (updated row role revoke).id = member.id :=
    fun _ hid => hid
  exact Keyed.lookup_modify_ne hid hne db.memberships

/-- A replacement of assignments leaves those of other memberships. The new rows are all of the one
membership, and the rows that are deleted were. -/
theorem assignments_replace_ne {restaurant_ids : List ℕ} {integrity : Failure}
    (h : db.replace_assignments member restaurant_ids integrity = .ok db') {membership_id : UUID}
    (hne : membership_id ≠ member.id) :
    assignments_of membership_id db' = assignments_of membership_id db := by
  obtain ⟨_, -, hreplaced⟩ := bind_eq_ok.mp h
  obtain rfl := pure_eq_ok.mp hreplaced
  unfold assignments_of
  simp only
  rw [List.filter_append, List.filter_filter]
  have hnew : ((restaurant_ids.insertionSort (· ≤ ·)).map fun id =>
      (⟨member.id, id, member.organization_id⟩ : RestaurantAssignment)).filter
        (fun row => row.membership_id = membership_id) = [] := by
    rw [List.filter_eq_nil_iff]
    intro row hrow
    obtain ⟨id, -, rfl⟩ := List.mem_map.mp hrow
    simpa using Ne.symm hne
  -- What is kept of the old rows is all that the other membership had.
  rw [hnew, List.append_nil]
  refine List.filter_congr fun row _ => ?_
  rw [Bool.eq_iff_iff]
  simp only [decide_eq_true_eq, Bool.and_eq_true]
  constructor
  · exact fun hrow => hrow.1
  · rintro rfl
    exact ⟨rfl, hne⟩

end Tables

end RestaurantOS.Tenancy
