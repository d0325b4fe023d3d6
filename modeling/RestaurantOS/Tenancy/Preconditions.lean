import RestaurantOS.Tenancy.Owners

/-!
# What the transactions guarantee

A request of an administrator finds its organization before it locks it, but a user never leaves an
organization (`Stay`), so what it reads again after that is about the organization it has locked
(`owner_ensures`). A membership that a transaction shares keeps its row and its assignments, so the
access context that has been read from them is the one in force as long as they are shared
(`current_locked_ensures`). -/

namespace RestaurantOS.Tenancy

open Fallible ReadCommitted

/-- What transactions know. They are what it has seen under the locks that it holds. -/
abbrev Known := List ((Key × Mode) × View)

/-! ## What is good -/

/-- A user is an active owner of an organization with the given members. -/
def Authorized (principal organization_id : UUID) (value : List (Membership × Bool)) : Prop :=
  ∃ member active, (member, active) ∈ value ∧ member.user_id = principal ∧
    member.organization_id = organization_id ∧ member.status = .active ∧ member.role = .OWNER

/-- A request updates a membership. It is the only kind that may revoke one or change its role. -/
def Request.updates (membership_id : UUID) : Request → Prop
  | .update_membership _ id .. => id = membership_id
  | _ => False

/-- A membership gives its user an access context. -/
def Database.context (db : Database) (membership : Membership) : AccessContext :=
  ⟨membership.user_id, membership.organization_id, membership.role, db.assigned membership⟩

/-- The active membership of a user. It is unique, as a user has one membership at most. -/
structure InForce (db : Database) (principal : UUID) (membership : Membership) : Prop where
  /-- It is a row. -/
  mem : membership ∈ db.memberships
  /-- It is that of the user. -/
  user : membership.user_id = principal
  /-- It is not revoked. -/
  active : membership.status = .active

/-- A write runs its command in the context of a membership that it shares. -/
structure Writes (env : Environment) (principal : UUID) (restaurant_id : ℕ) (command : Write)
    (draw : Draw) (reply : Reply) (keys : List (Key × Mode)) (db db' : Database)
    (membership : Membership) : Prop where
  /-- The membership is shared. -/
  shared : (.membership membership.id, .share) ∈ keys
  /-- It is in force. -/
  in_force : InForce db principal membership
  /-- The command runs in its context, and its result is committed. -/
  runs : ∃ branch response, exec env.library (command.within (db.context membership)) draw
    (db.branches restaurant_id) = .ok (branch, response) ∧ reply = .response response ∧
      db' = db.put_branch restaurant_id branch

/-- What a request does that is committed under some locks. -/
structure Good (env : Environment) (request : Request) (reply : Reply) (keys : List (Key × Mode))
    (db db' : Database) : Prop where
  /-- An organization with an owner keeps one. -/
  owned : ∀ organization_id, 0 < db.owner_count organization_id →
    0 < db'.owner_count organization_id
  /-- The user of a request that changes memberships is an active owner of a locked organization. -/
  authorized : request.administrative = true →
    ∃ organization_id, (.organization organization_id, .exclusive) ∈ keys ∧
      Authorized request.principal organization_id (members organization_id db)
  /-- A membership that is updated is locked. -/
  updates : ∀ membership_id, request.updates membership_id →
    (.membership membership_id, .exclusive) ∈ keys
  /-- A write runs in the context of a membership. -/
  writes : ∀ principal restaurant_id command draw,
    request = .write principal restaurant_id command draw →
      ∃ membership, Writes env principal restaurant_id command draw reply keys db db' membership

/-! ## The statements -/

/-- The membership that `current` reads is that of the user. -/
theorem active_membership_ok {db : Database} {principal : UUID} {member : Membership}
    (h : db.active_membership principal = .ok member) :
    member ∈ db.memberships ∧ member.user_id = principal ∧ member.status = .active := by
  unfold Database.active_membership at h
  split at h
  · rename_i row hrow
    obtain ⟨_, hactive, h⟩ := bind_eq_ok.mp h
    obtain rfl := pure_eq_ok.mp h
    exact ⟨Keyed.lookup_mem hrow, Keyed.lookup_key hrow, (ensure_eq_ok.mp hactive).1⟩
  · cases h

/-- The membership that is read again is the active one of the user, under the same key. -/
theorem still_active_ok {db : Database} {membership_id principal : UUID} {member : Membership}
    (h : db.still_active membership_id principal = .ok member) :
    Keyed.lookup Membership.id membership_id db.memberships = some member ∧
      member.user_id = principal ∧ member.status = .active := by
  unfold Database.still_active at h
  split at h
  · rename_i row hrow
    obtain ⟨_, hactive, h⟩ := bind_eq_ok.mp h
    obtain rfl := pure_eq_ok.mp h
    exact ⟨hrow, ensure_eq_ok.mp hactive⟩
  · cases h

/-- The member that `get` reads is one of the organization. -/
theorem get_ok {db : Database} {membership_id organization_id : UUID} {member : Membership}
    (h : db.get membership_id organization_id = .ok member) :
    member ∈ db.memberships ∧ member.id = membership_id ∧
      member.organization_id = organization_id := by
  unfold Database.get at h
  split at h
  · rename_i row hrow
    obtain ⟨_, horganization, h⟩ := bind_eq_ok.mp h
    obtain rfl := pure_eq_ok.mp h
    exact ⟨Keyed.lookup_mem hrow, Keyed.lookup_key hrow, ensure_eq_ok.mp horganization⟩
  · cases h

section Transactions

variable {known : Known} {seen : Database} {change : Database → Except Failure Database}

/-- The context that `current` returns is that of a membership that it has seen. -/
theorem current_ensures {principal : UUID}
    {post : Known → Database → (Database → Except Failure Database) → AccessContext → Prop}
    (h : ∀ rows rows₁ rows₂ member context, Stay seen rows → change rows = .ok rows₁ →
      rows₁.active_membership principal = .ok member →
        context.organization_id = member.organization_id → Stay rows rows₂ →
          post known rows₂ change context) :
    (current principal).Ensures discipline post known seen change := by
  refine (Program.ensures_bind _ _).mpr (Program.ensures_read ?_)
  intro rows rows₁ member hstay hagrees hchange hmember
  refine (Program.ensures_bind _ _).mpr (Program.ensures_read ?_)
  intro rows₂ rows₃ restaurant_ids hstay₂ hagrees₂ hchange₂ hrestaurants
  exact h rows rows₁ rows₂ member _ hstay hchange hmember rfl hstay₂

/-- The assignments of a membership that is held are found again. They are read one by one, and each
is looked up where the lock on the membership protects it. -/
theorem share_assignments_ensures {membership : Membership} {mode : Mode} {row : Option Membership}
    {assignments : List RestaurantAssignment} {ids : List ℕ}
    {post : Known → Database → (Database → Except Failure Database) → List ℕ → Prop}
    (hids : ∀ id ∈ ids, id ∈ assigned_in membership assignments)
    (hknown : ((.membership membership.id, mode), .rights row assignments) ∈ known)
    (h : ∀ known' seen', known ⊆ known' → Stay seen seen' → post known' seen' .ok ids) :
    (share_assignments membership ids).Ensures discipline post known seen .ok := by
  -- By induction on the ids; the view of the membership stays known throughout.
  induction ids generalizing known seen post with
  | nil => exact h known seen (List.Subset.refl known) (discipline.refl seen)
  | cons id ids ih =>
    refine (Program.ensures_bind _ _).mpr fun value => ?_
    refine (Program.ensures_bind _ _).mpr (Program.ensures_read ?_)
    rintro rows rows' assigned hstay hagrees hrows hassigned
    obtain rfl := Except.ok.inj hrows
    obtain rfl := Except.ok.inj hassigned
    have hold := List.mem_cons_of_mem ((Key.assignment membership.id id, Mode.share), value) hknown
    refine (Program.ensures_bind _ _).mpr (ih (fun id' hid' => hids id' (List.mem_cons_of_mem _ hid'))
      hold fun known' seen' hsub hstay' => ?_)
    -- The assignment is still there, since the membership is held.
    have hsame : assignments_of membership.id rows = assignments :=
      (View.rights.inj (hagrees _ hold)).2
    have hmem : id ∈ rows.assigned membership := by
      rw [assigned_eq, hsame]
      exact hids id List.mem_cons_self
    rw [if_pos hmem]
    exact h known' seen' (fun entry hentry => hsub (List.mem_cons_of_mem _ hentry))
      (discipline.trans hstay hstay')

/-- The context that `current` returns under the lock is that of an active membership that is shared
from then on. The row is read once without the lock and once under it, and what counts is what the
second reading finds. -/
theorem current_locked_ensures {principal : UUID}
    {post : Known → Database → (Database → Except Failure Database) → AccessContext → Prop}
    (h : ∀ known' rows seen' membership assignments, known ⊆ known' → Stay seen rows →
      Agrees discipline known rows → membership ∈ rows.memberships → Stay rows seen' →
      ((.membership membership.id, .share), .rights (some membership) assignments) ∈ known' →
      membership.user_id = principal → membership.status = .active →
        post known' seen' .ok ⟨membership.user_id, membership.organization_id, membership.role,
          assigned_in membership assignments⟩) :
    (current_locked principal).Ensures discipline post known seen .ok := by
  refine (Program.ensures_bind _ _).mpr (Program.ensures_read ?_)
  rintro rows rows' found hstay - hrows hfound
  obtain rfl := Except.ok.inj hrows
  refine (Program.ensures_bind _ _).mpr fun value => ?_
  refine (Program.ensures_bind _ _).mpr (Program.ensures_read ?_)
  rintro rows₁ rows₁' membership hstay₁ hagrees₁ hrows₁ hmembership
  obtain rfl := Except.ok.inj hrows₁
  -- The second reading finds the row active, under the same key as the first.
  obtain ⟨hlookup, huser, hactive⟩ := still_active_ok hmembership
  have hid : membership.id = found.id := Keyed.lookup_key hlookup
  refine (Program.ensures_bind _ _).mpr (Program.ensures_read ?_)
  rintro rows₂ rows₂' assigned hstay₂ hagrees₂ hrows₂ hassigned
  obtain rfl := Except.ok.inj hrows₂
  obtain rfl := Except.ok.inj hassigned
  -- What the lock protects has been the same for the last two statements.
  have hvalue : view (.membership found.id) rows₁ = value := hagrees₁ _ List.mem_cons_self
  have hvalue₂ : view (.membership found.id) rows₂ = value := hagrees₂ _ List.mem_cons_self
  have hknown : ((Key.membership membership.id, Mode.share),
      View.rights (some membership) (assignments_of membership.id rows₂)) ∈
        ((Key.membership found.id, Mode.share), value) :: known := by
    have hrights : value = .rights (some membership) (assignments_of membership.id rows₂) := by
      have hsame : view (.membership found.id) rows₂ = view (.membership found.id) rows₁ :=
        hvalue₂.trans hvalue.symm
      obtain ⟨hrow, -⟩ := View.rights.inj hsame
      rw [← hvalue₂, hid]
      show View.rights _ _ = _
      rw [hrow, hlookup]
    rw [hrights, hid]
    exact List.mem_cons_self
  -- From here on the assignments are those that the view shows.
  refine (Program.ensures_bind _ _).mpr (share_assignments_ensures (fun id hmem => ?_) hknown
    fun known' seen' hsub hstay₃ => ?_)
  · rwa [assigned_eq] at hmem
  · rw [assigned_eq, ← huser]
    exact h known' rows₁ seen' membership _ (fun entry hentry => hsub (List.mem_cons_of_mem _ hentry))
      (discipline.trans hstay hstay₁) (fun entry hentry => hagrees₁ entry (List.mem_cons_of_mem _ hentry))
      (Keyed.lookup_mem hlookup) (discipline.trans hstay₂ hstay₃) (hsub hknown) huser hactive

/-- After `_owner`, the organization of the user is locked, and the user is one of its owners. The
members are known from the lock on, so whoever is an owner then is one at the commit. -/
theorem owner_ensures {principal : UUID}
    {post : Known → Database → (Database → Except Failure Database) → AccessContext → Prop}
    (h : ∀ known' seen' value context,
      ((.organization context.organization_id, .exclusive), .members value) ∈ known' →
        Authorized principal context.organization_id value → post known' seen' .ok context) :
    (TenancyService.owner principal).Ensures discipline post [] seen .ok := by
  refine (Program.ensures_bind _ _).mpr (current_ensures ?_)
  rintro rows rows' seen member context - hrows hmember horganization hstay
  obtain rfl := Except.ok.inj hrows
  obtain ⟨hmember, huser, -⟩ := active_membership_ok hmember
  refine (Program.ensures_bind _ _).mpr fun value => ?_
  refine (Program.ensures_bind _ _).mpr (current_locked_ensures ?_)
  rintro known' rows₁ seen₁ member₁ assignments hsub hstay₁ hagrees hmember₁ - - huser₁ hactive
  -- The user has not left the organization that is locked.
  have hsame : member₁.organization_id = context.organization_id := by
    obtain ⟨member₂, hmember₂, -, huser₂, horganization₂⟩ :=
      discipline.trans hstay hstay₁ member hmember
    rw [horganization, ← horganization₂]
    exact congrArg Membership.organization_id
      (rows₁.unique_user.eq_of_key hmember₁ hmember₂ (huser₁.trans (huser.symm.trans huser₂.symm)))
  -- The capability is checked on the row that the lock protects.
  refine (Program.ensures_bind _ _).mpr (Program.ensures_lift fun _ hrequire => ?_)
  have hvalue : View.members (members context.organization_id rows₁) = value :=
    hagrees _ List.mem_cons_self
  refine h known' seen₁ (members context.organization_id rows₁) _ ?_
    ⟨member₁, rows₁.user_active member₁.user_id, ?_, huser₁, rfl, hactive, ?_⟩
  · rw [hvalue, hsame]
    exact hsub List.mem_cons_self
  · exact mem_members.mpr ⟨hmember₁, hsame, rfl⟩
  · -- Only an owner manages the staff.
    have hcapable : Capability.staff_manage ∈ ROLE_CAPABILITIES member₁.role :=
      ensure_eq_ok.mp hrequire
    cases hcase : member₁.role with
    | OWNER => rfl
    | MANAGER =>
      rw [hcase] at hcapable
      exact absurd hcapable (by decide)
    | EMPLOYEE =>
      rw [hcase] at hcapable
      exact absurd hcapable (by decide)

/-- The member that `get` returns is locked. The row is read after the lock, so nobody else can
change it. -/
theorem get_ensures {membership_id organization_id : UUID}
    {post : Known → Database → (Database → Except Failure Database) → Membership → Prop}
    (h : ∀ rows member value, Agrees discipline known rows → member ∈ rows.memberships →
      member.id = membership_id → member.organization_id = organization_id →
        post (((.membership membership_id, .exclusive), value) :: known) rows .ok member) :
    (get membership_id organization_id).Ensures discipline post known seen .ok := by
  refine (Program.ensures_bind _ _).mpr (Program.ensures_read ?_)
  rintro rows rows' found - - hrows hfound
  obtain rfl := Except.ok.inj hrows
  obtain ⟨-, hid, -⟩ := get_ok hfound
  refine (Program.ensures_bind _ _).mpr fun value => Program.ensures_read ?_
  rintro rows₁ rows₁' member - hagrees hrows₁ hmember
  obtain rfl := Except.ok.inj hrows₁
  obtain ⟨hmember, hid', horganization⟩ := get_ok hmember
  rw [hid]
  exact h rows₁ member value (fun entry hentry => hagrees entry (List.mem_cons_of_mem _ hentry))
    hmember hid' horganization

/-- Rows in which the assignments of a membership are replaced. -/
structure Assigned (membership_id : UUID) (db db' : Database) : Prop where
  /-- The memberships are the same. -/
  memberships : db'.memberships = db.memberships
  /-- The users are the same. -/
  users : db'.users = db.users
  /-- The business rows are the same. -/
  branches : db'.branches = db.branches
  /-- The assignments of other memberships are the same. -/
  assignments : ∀ id, id ≠ membership_id → assignments_of id db' = assignments_of id db

/-- A change goes on after another one, and replaces at most the assignments of a membership. -/
def Extends (membership_id : UUID) (change change' : Database → Except Failure Database) : Prop :=
  ∀ rows rows', change' rows = .ok rows' → ∃ rows₁, change rows = .ok rows₁ ∧
    Assigned membership_id rows₁ rows'

/-- Nothing goes on. -/
theorem Extends.refl (membership_id : UUID) (change : Database → Except Failure Database) :
    Extends membership_id change change :=
  fun _ rows' h => ⟨rows', h, rfl, rfl, rfl, fun _ _ => rfl⟩

/-- The assignments that are deleted are locked, and nothing else happens. -/
theorem take_assignments_ensures {membership_id : UUID} {ids : List ℕ}
    {post : Known → Database → (Database → Except Failure Database) → Unit → Prop}
    (h : ∀ known', known ⊆ known' → post known' seen change ()) :
    (take_assignments membership_id ids).Ensures discipline post known seen change := by
  induction ids generalizing known with
  | nil => exact h known (List.Subset.refl known)
  | cons id ids ih =>
    refine (Program.ensures_bind _ _).mpr fun value => ih fun known' hsub => h known' ?_
    exact fun entry hentry => hsub (List.mem_cons_of_mem _ hentry)

/-- `assign` replaces the assignments of its membership only. An assignment outside the organization
is refused before anything is written. -/
theorem assign_ensures {member : Membership} {restaurant_ids : List ℕ} {integrity : Failure}
    {post : Known → Database → (Database → Except Failure Database) → Bool → Prop}
    (h : ∀ known' seen' change' assigned, known ⊆ known' → Extends member.id change change' →
      post known' seen' change' assigned) :
    (assign member restaurant_ids integrity).Ensures discipline post known seen change := by
  refine (Program.ensures_bind _ _).mpr (Program.ensures_read ?_)
  intro rows rows' allowed hstay hagrees hchange hallowed
  by_cases hids : restaurant_ids.dedup.toFinset ≠ allowed.toFinset
  · -- The restaurants are not all of the organization: nothing is assigned.
    rw [if_pos hids]
    exact h known rows change false (List.Subset.refl known) (.refl member.id change)
  · rw [if_neg hids]
    refine (Program.ensures_bind _ _).mpr (Program.ensures_read ?_)
    intro rows₁ rows₁' assigned hstay₁ hagrees₁ hchange₁ hassigned
    refine (Program.ensures_bind _ _).mpr (take_assignments_ensures fun known' hsub => ?_)
    refine (Program.ensures_bind _ _).mpr (h known' rows₁ _ true hsub ?_)
    -- Otherwise the assignments are replaced, after whatever the transaction had written before.
    intro rows₂ rows₃ hrows₃
    obtain ⟨rows₄, hrows₄, hreplaced⟩ := bind_eq_ok.mp hrows₃
    refine ⟨rows₄, hrows₄, ?_⟩
    have hassignments : ∀ id, id ≠ member.id → assignments_of id rows₃ = assignments_of id rows₄ :=
      fun id hne => assignments_replace_ne hreplaced hne
    obtain ⟨_, -, hreplaced⟩ := bind_eq_ok.mp hreplaced
    obtain rfl := pure_eq_ok.mp hreplaced
    exact ⟨rfl, rfl, rfl, hassignments⟩

end Transactions

/-! ## The requests -/

section Requests

variable (env : Environment)

/-- What a request may do to its organization and one of its members. -/
structure Administered (organization_id membership_id : UUID) (db db' : Database) : Prop where
  /-- The memberships stay. -/
  stay : Stay db db'
  /-- The members of other organizations are the same. -/
  members : ∀ id, id ≠ organization_id → members id db' = members id db
  /-- Other memberships are the same. -/
  rows : ∀ id, id ≠ membership_id →
    Keyed.lookup Membership.id id db'.memberships = Keyed.lookup Membership.id id db.memberships
  /-- The assignments of other memberships are the same. -/
  assignments : ∀ id, id ≠ membership_id → assignments_of id db' = assignments_of id db
  /-- The business rows are the same. -/
  branches : db'.branches = db.branches
  /-- An organization with an owner keeps one. -/
  owned : ∀ id, 0 < db.owner_count id → 0 < db'.owner_count id

/-- Such a change may be followed by a replacement of assignments. -/
theorem Administered.assign {organization_id membership_id : UUID} {db db' db'' : Database}
    (h : Administered organization_id membership_id db db') (ha : Assigned membership_id db' db'') :
    Administered organization_id membership_id db db'' where
  stay row hrow := by
    obtain ⟨row', hrow', hsame⟩ := h.stay row hrow
    exact ⟨row', ha.memberships ▸ hrow', hsame⟩
  members id hid := (members_congr ha.memberships ha.users id).trans (h.members id hid)
  rows id hid := by
    rw [ha.memberships]
    exact h.rows id hid
  assignments id hid := (ha.assignments id hid).trans (h.assignments id hid)
  branches := ha.branches.trans h.branches
  owned id howned := by
    rw [owner_count_congr ha.memberships ha.users]
    exact h.owned id howned

/-- A request that has locked its organization and its member guarantees what is required. What is
left to each request is the effect of its own writes, `h`. -/
theorem Administered.guarantees (request : Request) (hadministrative : request.administrative = true)
    {organization_id membership_id : UUID} (hupdates : ∀ id, request.updates id → id = membership_id)
    {known : Known} {value : List (Membership × Bool)} {seen : Database}
    {change : Database → Except Failure Database} {reply : Reply}
    (horganization : ((.organization organization_id, .exclusive), .members value) ∈ known)
    (hauthorized : Authorized request.principal organization_id value)
    (hmembership : (.membership membership_id, .exclusive) ∈ known.map Prod.fst)
    (h : ∀ rows rows', Agrees discipline known rows → change rows = .ok rows' →
      Administered organization_id membership_id rows rows') :
    Guarantees discipline (Good env) request known seen change reply := by
  rintro rows rows' - hagrees hrows
  have hchange := h rows rows' hagrees hrows
  have hlocked : (.organization organization_id, .exclusive) ∈ known.map Prod.fst :=
    List.mem_map.mpr ⟨_, horganization, rfl⟩
  have hvalue : View.members (Tenancy.members organization_id rows) = .members value :=
    hagrees _ horganization
  refine ⟨hchange.stay, fun key hkey => ?_, hchange.owned, fun _ => ?_, fun id hid => ?_, ?_⟩
  · -- A key that the request has not locked exclusively shows what it showed.
    cases key with
    | organization id =>
      have hne : id ≠ organization_id := by
        rintro rfl
        exact hkey hlocked
      exact congrArg View.members (hchange.members id hne)
    | membership id =>
      have hne : id ≠ membership_id := by
        rintro rfl
        exact hkey hmembership
      exact congrArg₂ View.rights (hchange.rows id hne) (hchange.assignments id hne)
    | assignment => rfl
    | restaurant id => exact congrArg View.branch (congrFun hchange.branches id)
  · -- The authority, the lock on the member, and that a business write is no such request.
    exact ⟨organization_id, hlocked, View.members.inj hvalue ▸ hauthorized⟩
  · rw [hupdates id hid]
    exact hmembership
  · rintro principal restaurant_id command draw rfl
    cases hadministrative

/-- `update_membership` meets what is required of the requests. It locks the organization, checks
that the user owns it, locks the member, counts the owners if one goes, and writes. -/
theorem update_membership_ensures (principal membership_id : UUID) (role : Option MembershipRole)
    (restaurant_ids : Option (List ℕ)) (revoke : Bool) (seen : Database) :
    ((Request.update_membership principal membership_id role restaurant_ids revoke).transaction
      env).Ensures discipline (Guarantees discipline (Good env)
        (.update_membership principal membership_id role restaurant_ids revoke)) [] seen .ok := by
  -- First the lock on the organization, with the authority of the user.
  refine (Program.ensures_bind _ _).mpr ((Program.ensures_bind _ _).mpr
    (owner_ensures fun known seen value context hlocked hauthorized => ?_))
  refine (Program.ensures_bind _ _).mpr (get_ensures ?_)
  intro rows member rights hagrees hmember hid horganization
  -- The member is one of those that the first lock protects.
  have hvalue : View.members (members context.organization_id rows) = .members value :=
    hagrees _ hlocked
  have hin : (member, rows.user_active member.user_id) ∈ value := by
    rw [← View.members.inj hvalue]
    exact mem_members.mpr ⟨hmember, horganization, rfl⟩
  have hlocked₁ := List.mem_cons_of_mem
    ((Key.membership membership_id, Mode.exclusive), rights) hlocked
  -- What holds once the guard has passed: if an owner goes, there are two.
  have hrest : ∀ seen : Database, (member.role = .OWNER ∧ member.status = .active ∧
      (revoke = true ∨ ¬ (role = none ∨ role = some .OWNER)) → 1 < value.countP is_owner) →
      ((do
        Program.put fun db => .ok (db.update member.id role revoke)
        TenancyService.update_assignments member restaurant_ids
        pure { member with
          role := role.getD member.role
          status := if revoke then .revoked else member.status }) : Transaction Membership).Ensures
        discipline (fun known seen change member =>
          (pure (Reply.member member) : Transaction Reply).Ensures discipline
            (Guarantees discipline (Good env)
              (.update_membership principal membership_id role restaurant_ids revoke)) known seen
                change)
        (((Key.membership membership_id, Mode.exclusive), rights) :: known) seen .ok := by
    intro seen hkept
    have hdone : ∀ (known' : Known) (seen : Database)
        (change : Database → Except Failure Database) (reply : Reply),
        ((Key.membership membership_id, Mode.exclusive), rights) :: known ⊆ known' →
        Extends member.id
          (fun rows => Except.ok rows >>= fun db => .ok (db.update member.id role revoke)) change →
        Guarantees discipline (Good env)
          (.update_membership principal membership_id role restaurant_ids revoke) known' seen change
          reply := by
      -- What has been written when the request returns, with or without new assignments.
      intro known' seen change reply hsub hextends
      refine Administered.guarantees env
        (.update_membership principal membership_id role restaurant_ids revoke) rfl
        (fun id (hupdates : membership_id = id) => hupdates.symm) (hsub hlocked₁) hauthorized
        (List.mem_map.mpr ⟨_, hsub List.mem_cons_self, rfl⟩) fun rows₁ rows₂ hagrees hrows₂ => ?_
      obtain ⟨rows₃, hrows₃, hassigned⟩ := hextends rows₁ rows₂ hrows₂
      obtain rfl : rows₁.update member.id role revoke = rows₃ := Except.ok.inj hrows₃
      have hvalue₁ : View.members (members context.organization_id rows₁) = .members value :=
        hagrees _ (hsub hlocked₁)
      have hsame := View.members.inj hvalue₁
      have hmember₁ : member ∈ rows₁.memberships := (mem_members.mp (hsame ▸ hin)).1
      rw [← hid]
      refine Administered.assign ⟨stay_update member.id role revoke, fun id hne => ?_, fun id hne => ?_,
        fun _ _ => rfl, rfl, fun id howned => ?_⟩ hassigned
      · -- Only this organization, this membership and its assignments change, and an owner is left.
        exact members_update_ne hmember₁ role revoke (horganization ▸ hne)
      · exact lookup_update_ne role revoke hne
      · refine owned_update hmember₁ (fun hremoves => ?_) howned
        rw [owner_count_eq, horganization, hsame]
        exact hkept hremoves
    refine (Program.ensures_bind _ _).mpr ?_
    refine (Program.ensures_bind _ _).mpr ?_
    cases restaurant_ids with
    | none => exact hdone _ _ _ _ (List.Subset.refl _) (.refl _ _)
    | some restaurant_ids =>
      refine (Program.ensures_bind _ _).mpr
        (assign_ensures fun known' seen change assigned hsub hextends => ?_)
      exact Program.ensures_lift fun _ _ => hdone _ _ _ _ hsub hextends
  refine (Program.ensures_bind _ _).mpr ?_
  -- The guard counts the owners only where the update takes one away.
  by_cases hremoves : member.role = .OWNER ∧ member.status = .active ∧
      (revoke = true ∨ ¬ (role = none ∨ role = some .OWNER))
  · rw [TenancyService.keep_owner, if_pos hremoves]
    refine (Program.ensures_bind _ _).mpr (Program.ensures_read ?_)
    rintro rows₁ rows₁' count - hagrees₁ hrows₁ hcount
    obtain rfl := Except.ok.inj hrows₁
    obtain rfl := Except.ok.inj hcount
    refine Program.ensures_lift fun _ hmore => hrest rows₁ fun _ => ?_
    -- The count is that of the members that the lock protects.
    have hvalue₁ : View.members (members context.organization_id rows₁) = .members value :=
      hagrees₁ _ hlocked₁
    have hmore := ensure_eq_ok.mp hmore
    rw [owner_count_eq, View.members.inj hvalue₁] at hmore
    omega
  · rw [TenancyService.keep_owner, if_neg hremoves]
    exact hrest rows fun h => absurd h hremoves

/-- `create_membership` meets what is required of the requests. It only adds an owner or none, so
nothing is counted here. -/
theorem create_membership_ensures (principal : UUID) (email : String) (role : MembershipRole)
    (restaurant_ids : List ℕ) (id : UUID) (seen : Database) :
    ((Request.create_membership principal email role restaurant_ids id).transaction env).Ensures
      discipline (Guarantees discipline (Good env)
        (.create_membership principal email role restaurant_ids id)) [] seen .ok := by
  refine (Program.ensures_bind _ _).mpr ((Program.ensures_bind _ _).mpr
    (owner_ensures fun known seen value context hlocked hauthorized => ?_))
  refine (Program.ensures_bind _ _).mpr (Program.ensures_read ?_)
  rintro rows rows' user_id - - - -
  refine (Program.ensures_bind _ _).mpr (Program.ensures_read ?_)
  rintro rows₁ rows₁' _ - - - -
  refine (Program.ensures_bind _ _).mpr fun rights => ?_
  refine (Program.ensures_bind _ _).mpr ?_
  refine (Program.ensures_bind _ _).mpr
    (assign_ensures fun known' seen change assigned hsub hextends => ?_)
  refine (Program.ensures_bind _ _).mpr (Program.ensures_lift fun _ _ => ?_)
  refine Administered.guarantees env (.create_membership principal email role restaurant_ids id) rfl
    (fun _ (hupdates : False) => hupdates.elim) (hsub (List.mem_cons_of_mem _ hlocked)) hauthorized
    (List.mem_map.mpr ⟨_, hsub List.mem_cons_self, rfl⟩) fun rows₂ rows₃ hagrees hrows₃ => ?_
  obtain ⟨rows₄, hrows₄, hassigned⟩ := hextends rows₂ rows₃ hrows₃
  -- A new row is seen under the two locks only, and takes no owner away.
  have hinsert : rows₂.insert ⟨id, user_id, context.organization_id, role, .active⟩
      (.ConflictError "User already belongs to an organization") = .ok rows₄ := hrows₄
  refine Administered.assign ⟨stay_insert hinsert, fun key hne => members_insert_ne hinsert hne,
    fun key hne => lookup_insert_ne hinsert hne, ?_, ?_, fun key howned => ?_⟩ hassigned
  · intro key _
    unfold assignments_of
    rw [(insert_frame hinsert).1]
  · exact (insert_frame hinsert).2
  · exact howned.trans_le (owner_count_insert hinsert key)

/-- A write meets what is required of the requests. It reads the membership under a share lock, then
the restaurant under an exclusive one, and commits what the command has made of its rows. -/
theorem write_ensures (principal : UUID) (restaurant_id : ℕ) (command : Write) (draw : Draw)
    (seen : Database) : ((Request.write principal restaurant_id command draw).transaction
      env).Ensures discipline (Guarantees discipline (Good env)
        (.write principal restaurant_id command draw)) [] seen .ok := by
  refine (Program.ensures_bind _ _).mpr ((Program.ensures_bind _ _).mpr (current_locked_ensures ?_))
  rintro known rows seen membership assignments - - - - - hrights huser hactive
  refine (Program.ensures_bind _ _).mpr fun branch => ?_
  refine (Program.ensures_bind _ _).mpr (Program.ensures_read ?_)
  rintro rows₁ rows₁' result - hagrees₁ hrows₁ hresult
  obtain rfl := Except.ok.inj hrows₁
  rintro rows₂ rows₃ - hagrees hrows₃
  -- What the commit writes are the rows that the command has returned.
  obtain rfl : rows₂.put_branch restaurant_id result.1 = rows₃ := Except.ok.inj hrows₃
  have hrights₂ : view (.membership membership.id) rows₂ = .rights (some membership) assignments :=
    hagrees _ (List.mem_cons_of_mem _ hrights)
  obtain ⟨hrow, hassignments⟩ := View.rights.inj hrights₂
  -- The restaurant is locked, so its rows are those that the command has read.
  have hbranch : rows₂.branches restaurant_id = rows₁.branches restaurant_id := by
    have hsame : view (.restaurant restaurant_id) rows₂ = view (.restaurant restaurant_id) rows₁ :=
      (hagrees _ List.mem_cons_self).trans (hagrees₁ _ List.mem_cons_self).symm
    exact View.branch.inj hsame
  refine ⟨fun row hrow => ⟨row, hrow, rfl, rfl, rfl⟩, fun key hkey => ?_, fun id howned => howned,
    fun hadministrative => (by cases hadministrative), fun _ hupdates => (by cases hupdates), ?_⟩
  · -- Only the rows of the restaurant change, which is locked.
    cases key with
    | organization id => rfl
    | membership id => rfl
    | assignment => rfl
    | restaurant id =>
      have hne : id ≠ restaurant_id := by
        rintro rfl
        exact hkey List.mem_cons_self
      exact congrArg View.branch (Function.update_of_ne hne _ _)
  · -- The context of the command is the one that the shared membership gives at the commit.
    rintro _ _ _ _ heq
    obtain ⟨rfl, rfl, rfl, rfl⟩ := Request.write.inj heq
    refine ⟨membership, List.mem_map.mpr ⟨_, List.mem_cons_of_mem _ hrights, rfl⟩,
      ⟨Keyed.lookup_mem hrow, huser, hactive⟩, result.1, result.2, ?_, rfl, rfl⟩
    have hcontext : rows₂.context membership = ⟨membership.user_id, membership.organization_id,
        membership.role, assigned_in membership assignments⟩ := by
      unfold Database.context
      rw [assigned_eq]
      exact congrArg _ (congrArg _ hassignments)
    rw [hcontext, hbranch]
    exact hresult

/-- Every request meets what is required. By cases on the request, each of which locks what it
relies on. -/
theorem transaction_ensures (request : Request) (seen : Database) :
    (request.transaction env).Ensures discipline (Guarantees discipline (Good env) request) [] seen
      .ok := by
  cases request with
  | create_membership principal email role restaurant_ids id =>
    exact create_membership_ensures env principal email role restaurant_ids id seen
  | update_membership principal membership_id role restaurant_ids revoke =>
    exact update_membership_ensures env principal membership_id role restaurant_ids revoke seen
  | write principal restaurant_id command draw =>
    exact write_ensures env principal restaurant_id command draw seen

end Requests

/-! ## Runs -/

section Runs

variable (env : Environment) (start : Database)

/-- The invariant holds in every reachable state. -/
theorem run_inv (acts : List Act) : Inv discipline (Good env) (run env start acts) :=
  ReadCommitted.run_inv _ discipline start (transaction_ensures env) acts

/-- A transaction holds a key after a run. -/
def holds (acts : List Act) (process : ℕ) (key : Key) (mode : Mode) : Prop :=
  (process, mode) ∈ (run env start acts).locks key

/-- A transaction is committed by its next action after a run. -/
def commits (pre : List Act) (process : ℕ) (request : Request) (reply : Reply) : Prop :=
  (run env start (pre ++ [.step process])).phases process = .committed request reply ∧
    ∀ request' reply', (run env start pre).phases process ≠ .committed request' reply'

variable {env start}

/-- A committed transaction has been committed by one of the actions. -/
theorem exists_commits {acts : List Act} {process : ℕ} {request : Request} {reply : Reply}
    (h : (run env start acts).phases process = .committed request reply) :
    ∃ pre, pre ++ [.step process] <+: acts ∧ commits env start pre process request reply := by
  obtain ⟨pre, change, hpre, hphase, hafter⟩ := run_committed _ _ _ h
  refine ⟨pre, hpre, hafter, fun request' reply' hcommitted => ?_⟩
  have hsame : (run env start pre).phases process = .running request change (.done reply) := hphase
  rw [hsame] at hcommitted
  cases hcommitted

/-- What a transaction does that is committed is good under its locks, and the rows afterwards are
what it has committed. It joins the invariant of the machine with the place in the run at which the
transaction is committed. -/
theorem commits_good {pre : List Act} {process : ℕ} {request : Request} {reply : Reply}
    (h : commits env start pre process request reply) :
    ∃ keys, (∀ key mode, holds env start pre process key mode ↔ (key, mode) ∈ keys) ∧
      Good env request reply keys (run env start pre).rows
        (run env start (pre ++ [.step process])).rows := by
  obtain ⟨hafter, hbefore⟩ := h
  obtain ⟨pre', change, hpre, hphase, hcommitted⟩ := run_committed _ _ _ hafter
  -- It is committed by the last action, since it was not before.
  -- An earlier commit would have been seen before, by `hbefore`.
  have hsame : pre' = pre := by
    obtain ⟨later, hlater⟩ := hpre
    rcases List.eq_nil_or_concat later with rfl | ⟨rest, a, rfl⟩
    · rw [List.append_nil] at hlater
      exact List.append_inj_left' hlater rfl
    · refine absurd ?_ (hbefore request reply)
      have hearlier : pre' ++ [.step process] <+: pre := by
        refine ⟨rest, ?_⟩
        rw [List.concat_eq_append, ← List.append_assoc] at hlater
        exact List.append_inj_left' hlater rfl
      exact (run_over _ discipline start hearlier (congrArg Phase.over hcommitted)).trans hcommitted
  subst hsame
  have hstep : run env start (pre' ++ [.step process]) =
      (run env start pre').step (Request.transaction env) discipline (.step process) :=
    Transition.run_concat _ _ pre' _
  rw [hstep] at hafter ⊢
  obtain ⟨rows, hrows, hfinish⟩ := committed_rows hphase ⟨request, reply, hafter⟩
  obtain ⟨-, keys, hlocks, hgood⟩ := (run_inv env start pre').commit hphase hrows
  have hfinal : ((run env start pre').step (Request.transaction env) discipline
      (.step process)).rows = rows := congrArg World.rows hfinish
  rw [hfinal]
  exact ⟨keys, hlocks, hgood⟩

/-- A key that a transaction holds is held, with the same view, as long as the transaction is not
over. -/
theorem held_later {mid later : List Act} {process : ℕ} (hlater : mid <+: later)
    (hover : ((run env start later).phases process).over = false) {key : Key} {mode : Mode}
    (hholds : holds env start mid process key mode) :
    holds env start later process key mode ∧
      view key (run env start later).rows = view key (run env start mid).rows := by
  refine (run_held _ discipline start (transaction_ensures env) hlater hholds).resolve_right ?_
  intro hdone
  exact Bool.false_ne_true (hover.symm.trans hdone)

/-- A transaction that is committed by its next action is not over before it. -/
theorem commits_over {pre mid : List Act} {process : ℕ} {request : Request} {reply : Reply}
    (hcommits : commits env start pre process request reply) (hmid : mid <+: pre) :
    ((run env start mid).phases process).over = false := by
  by_contra hover
  have hdone := Bool.eq_true_of_not_eq_false hover
  have hpre := run_over (Request.transaction env) discipline start hmid hdone
  have hafter := run_over (Request.transaction env) discipline start
    (hmid.trans (List.prefix_append pre [.step process])) hdone
  exact hcommits.2 request reply (hpre.trans (hafter.symm.trans hcommits.1))

/-- A key that a transaction holds at some point of a run is held until the transaction is committed
and not after that. -/
theorem held_before_commit {acts pre mid : List Act} {process : ℕ} {request : Request} {reply : Reply}
    (hpre : pre ++ [.step process] <+: acts) (hcommits : commits env start pre process request reply)
    (hmid : mid <+: acts) {key : Key} {mode : Mode} (hholds : holds env start mid process key mode) :
    mid <+: pre := by
  have hover := congrArg Phase.over hcommits.1
  have hcases := List.prefix_or_prefix_of_prefix hmid hpre
  rw [List.prefix_concat_iff] at hcases
  obtain (rfl | hbefore) | hlate := hcases
  · exact absurd hholds ((run_inv env start _).released hover _ _)
  · exact hbefore
  · have hkept := run_over (Request.transaction env) discipline start hlate hover
    refine absurd hholds ((run_inv env start mid).released ?_ _ _)
    exact congrArg Phase.over (hkept.trans hcommits.1)

end Runs

end RestaurantOS.Tenancy
