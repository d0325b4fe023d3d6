import RestaurantOS.Auth.Families
import RestaurantOS.Auth.Service

/-!
# Transactions under their locks

What a request has read stays as it was until its transaction ends, because the rows are locked: a
commit of another process keeps every row under the locks of this one (`apply_kept`). `ProcessInv`
states, for each phase of a request, what it therefore still knows of the committed database, up to
the decision of a refresh (`RefreshDecision`); `next_phase_inv` and `ProcessInv.kept` show that its
own statements and the commits of others keep it.
-/

namespace RestaurantOS.Auth

variable {db db' : Database}

/-- The rows under `locks` are as they were. -/
structure Kept (locks : List LockKey) (db db' : Database) : Prop where
  /-- The locked users. -/
  user : ∀ u ∈ db.users, .user u.id ∈ locks → u ∈ db'.users
  /-- The locked families. -/
  session : ∀ f ∈ db.sessions, .session f.id ∈ locks → f ∈ db'.sessions
  /-- The tokens of the locked families. -/
  token : ∀ t ∈ db.tokens, .session t.session_id ∈ locks → t ∈ db'.tokens

/-- The locks under which a transaction may write. -/
def Writes.Covered (locks : List LockKey) : Writes → Prop
  | .unchanged => True
  | .rotate _ _ next => .session next.session_id ∈ locks
  | .revoke session_id _ _ => .session session_id ∈ locks
  | .disable user_id session_ids _ =>
    .user user_id ∈ locks ∧ ∀ session_id ∈ session_ids, .session session_id ∈ locks
  | .open_session user_id _ _ _ => .user user_id ∈ locks

/-- No row is removed: a token keeps its digest and its family, and once consumed it stays consumed; a
family keeps its user. -/
structure Grows (db db' : Database) : Prop where
  /-- The tokens. -/
  tokens : ∀ t ∈ db.tokens, ∃ t' ∈ db'.tokens, t'.digest = t.digest ∧ t'.session_id = t.session_id ∧
    (t.consumed_at.isSome → t'.consumed_at.isSome)
  /-- The families. -/
  sessions : ∀ f ∈ db.sessions, ∃ f' ∈ db'.sessions, f'.id = f.id ∧ f'.user_id = f.user_id
  /-- The users. -/
  users : ∀ u ∈ db.users, ∃ u' ∈ db'.users, u'.id = u.id

/-- A database grows by nothing. -/
theorem Grows.refl (db : Database) : Grows db db :=
  ⟨fun t ht => ⟨t, ht, rfl, rfl, id⟩, fun f hf => ⟨f, hf, rfl, rfl⟩, fun u hu => ⟨u, hu, rfl⟩⟩

/-- The token with a digest belongs to a family of a user. -/
structure TokenOf (db : Database) (digest : String) (user_id session_id : UUID) : Prop where
  /-- The token. -/
  token : ∃ t ∈ db.tokens, t.digest = digest ∧ t.session_id = session_id
  /-- The family. -/
  session : ∃ f ∈ db.sessions, f.id = session_id ∧ f.user_id = user_id
  /-- The user. -/
  user : ∃ u ∈ db.users, u.id = user_id

/-- The token with a digest is consumed. A consumed token is never valid again, and presenting it
revokes its family. -/
def Consumed (db : Database) (digest : String) : Prop :=
  ∃ t ∈ db.tokens, t.digest = digest ∧ t.consumed_at.isSome

/-- A growing database keeps the family of a token and its user. -/
theorem TokenOf.grow {digest : String} {user_id session_id : UUID}
    (h : TokenOf db digest user_id session_id) (hgrow : Grows db db') :
    TokenOf db' digest user_id session_id := by
  obtain ⟨⟨t, ht, hdigest, hsession⟩, ⟨f, hf, hid, howner⟩, u, hu, huser⟩ := h
  obtain ⟨t', ht', hdigest', hsession', -⟩ := hgrow.tokens t ht
  obtain ⟨f', hf', hid', howner'⟩ := hgrow.sessions f hf
  obtain ⟨u', hu', huser'⟩ := hgrow.users u hu
  exact ⟨⟨t', ht', hdigest'.trans hdigest, hsession'.trans hsession⟩,
    ⟨f', hf', hid'.trans hid, howner'.trans howner⟩, u', hu', huser'.trans huser⟩

/-- A growing database keeps a token consumed. -/
theorem Consumed.grow {digest : String} (h : Consumed db digest) (hgrow : Grows db db') :
    Consumed db' digest := by
  obtain ⟨t, ht, hdigest, hconsumed⟩ := h
  obtain ⟨t', ht', hdigest', -, hconsumed'⟩ := hgrow.tokens t ht
  exact ⟨t', ht', hdigest'.trans hdigest, hconsumed' hconsumed⟩

/-! ## Commits and locks -/

/-- Revoking families keeps those under other locks. -/
theorem revoke_sessions_kept {session_ids : List UUID} {locks : List LockKey}
    (hdisjoint : ∀ session_id ∈ session_ids, LockKey.session session_id ∉ locks)
    (revoked_at : Timestamp) (reason : RevokedReason) :
    Kept locks db (db.revoke_sessions session_ids revoked_at reason) := by
  refine ⟨fun _ hu _ => hu, fun f hf hlock => ?_, fun _ ht _ => ht⟩
  exact List.mem_map.mpr ⟨f, hf, if_neg fun hmem => hdisjoint f.id hmem hlock⟩

/-- A commit keeps every row under locks that are disjoint from those that cover it. -/
theorem apply_kept (hinv : DatabaseInv db) {writes : Writes} {own locks : List LockKey}
    (hpre : writes.Pre db) (hcovered : writes.Covered own) (hdisjoint : ∀ k ∈ own, k ∉ locks) :
    Kept locks db (db.apply writes) := by
  -- A user under another lock is not the one that is written.
  have huser : ∀ {user_id : UUID} (f : User → User), LockKey.user user_id ∈ own →
      ∀ u ∈ db.users, LockKey.user u.id ∈ locks → u ∈ Keyed.modify User.id user_id f db.users := by
    intro user_id f hown u hu hlock
    refine List.mem_map.mpr ⟨u, hu, if_neg fun hid => ?_⟩
    exact hdisjoint _ hown (hid ▸ hlock)
  cases writes with
  | unchanged => exact ⟨fun _ hu _ => hu, fun _ hf _ => hf, fun _ ht _ => ht⟩
  -- The family that is revoked is locked by its own lock.
  | revoke session_id revoked_at reason =>
    refine revoke_sessions_kept (fun s hs => ?_) revoked_at reason
    rw [List.mem_singleton.mp hs]
    exact hdisjoint _ hcovered
  | disable user_id session_ids revoked_at =>
    have hkept : Kept locks db (db.revoke_sessions session_ids revoked_at .user_disabled) :=
      revoke_sessions_kept (fun s hs => hdisjoint _ (hcovered.2 s hs)) revoked_at .user_disabled
    exact ⟨huser _ hcovered.1, hkept.session, hkept.token⟩
  -- The token is locked through its family.
  | rotate token_id consumed_at next =>
    obtain ⟨token, htoken, rfl, -, hsession, -⟩ := hpre
    refine ⟨fun _ hu _ => hu, fun _ hf _ => hf, fun t ht hlock => List.mem_append_left _ ?_⟩
    refine List.mem_map.mpr ⟨t, ht, if_neg fun hid => ?_⟩
    rw [hinv.tokens.eq_of_key ht htoken hid, ← hsession] at hlock
    exact hdisjoint _ hcovered hlock
  -- A new session only adds rows.
  | open_session user_id password_hash family token =>
    exact ⟨huser _ hcovered, fun _ hf _ => List.mem_append_left _ hf,
      fun _ ht _ => List.mem_append_left _ ht⟩

/-- Revoking families removes no row. -/
theorem revoke_sessions_grow (session_ids : List UUID) (revoked_at : Timestamp)
    (reason : RevokedReason) : Grows db (db.revoke_sessions session_ids revoked_at reason) where
  tokens := (Grows.refl db).tokens
  sessions f hf := ⟨_, List.mem_map_of_mem hf, revoke_sessions_key session_ids revoked_at reason f,
    revoke_sessions_user session_ids revoked_at reason f⟩
  users := (Grows.refl db).users

/-- A commit removes no row. Tokens and families are updated in place, and a successor is appended.
-/
theorem apply_grow (writes : Writes) : Grows db (db.apply writes) := by
  -- A user that is written keeps its key.
  have husers : ∀ (user_id : UUID) (f : User → User), (∀ u, (f u).id = u.id) →
      ∀ u ∈ db.users, ∃ u' ∈ Keyed.modify User.id user_id f db.users, u'.id = u.id :=
    fun user_id f hf u hu => exists_user_modify ⟨u, hu, rfl⟩ user_id hf
  cases writes with
  | unchanged => exact .refl db
  | revoke session_id revoked_at reason => exact revoke_sessions_grow _ revoked_at reason
  | disable user_id session_ids revoked_at =>
    have hrevoked : Grows db (db.revoke_sessions session_ids revoked_at .user_disabled) :=
      revoke_sessions_grow session_ids revoked_at .user_disabled
    exact ⟨hrevoked.tokens, hrevoked.sessions, husers user_id _ fun _ => rfl⟩
  | rotate token_id consumed_at next =>
    refine ⟨fun t ht => ⟨_, List.mem_append_left _ (List.mem_map_of_mem ht), ?_⟩,
      (Grows.refl db).sessions, (Grows.refl db).users⟩
    split_ifs
    · exact ⟨rfl, rfl, fun _ => rfl⟩
    · exact ⟨rfl, rfl, id⟩
  | open_session user_id password_hash family token =>
    exact ⟨fun t ht => ⟨t, List.mem_append_left _ ht, rfl, rfl, id⟩,
      fun f hf => ⟨f, List.mem_append_left _ hf, rfl, rfl⟩, husers user_id _ fun _ => rfl⟩

/-! ## What a request knows -/

/-- The decision of a refresh at a time with the token of a digest: it rotates the unconsumed token of
a valid session, it revokes the family of a consumed token whose session is still valid, or it writes
nothing because the session is not valid. Only a rotation returns a session. -/
inductive RefreshDecision (lib : Library) (db : Database) (digest : String) (locks : List LockKey)
    (now : Timestamp) : Writes → Option IssuedSession → Prop
  | rotate {user : User} {family : AuthSession} {token : RefreshToken} (token_id : UUID)
    (refresh_token : String) (huser : user ∈ db.users ∧ .user user.id ∈ locks)
    (hfamily : family ∈ db.sessions ∧ .session family.id ∈ locks) (howner : family.user_id = user.id)
    (htoken : token ∈ db.tokens ∧ token.digest = digest ∧ token.session_id = family.id)
    (hvalid : session_valid user.status family.revoked_at family.expires_at now = true ∧
      now < token.expires_at)
    (hopen : token.consumed_at = none) :
    RefreshDecision lib db digest locks now
      (.rotate token.id now
        { id := token_id, session_id := family.id, digest := lib.token_digest refresh_token,
          issued_at := now, expires_at := family.expires_at, consumed_at := none,
          successor_id := none })
      (some ⟨user.id, user.email, family.id, refresh_token, family.expires_at⟩)
  | revoke {user : User} {family : AuthSession} {token : RefreshToken}
    (huser : user ∈ db.users ∧ .user user.id ∈ locks)
    (hfamily : family ∈ db.sessions ∧ .session family.id ∈ locks) (howner : family.user_id = user.id)
    (htoken : token ∈ db.tokens ∧ token.digest = digest ∧ token.session_id = family.id)
    (hvalid : session_valid user.status family.revoked_at family.expires_at now = true ∧
      now < token.expires_at)
    (hconsumed : token.consumed_at.isSome) :
    RefreshDecision lib db digest locks now (.revoke family.id now .refresh_replay) none
  | unchanged {user : User} {family : AuthSession} {token : RefreshToken}
    (huser : user ∈ db.users ∧ .user user.id ∈ locks)
    (hfamily : family ∈ db.sessions ∧ .session family.id ∈ locks) (howner : family.user_id = user.id)
    (htoken : token ∈ db.tokens ∧ token.digest = digest ∧ token.session_id = family.id)
    (hinvalid : ¬ (session_valid user.status family.revoked_at family.expires_at now = true ∧
      now < token.expires_at)) :
    RefreshDecision lib db digest locks now .unchanged none

/-- Rows that are kept leave a decision as it is. -/
theorem RefreshDecision.kept {lib : Library} {digest : String} {locks : List LockKey} {now : Timestamp}
    {writes : Writes} {result : Option IssuedSession} (hkept : Kept locks db db')
    (h : RefreshDecision lib db digest locks now writes result) :
    RefreshDecision lib db' digest locks now writes result := by
  cases h with
  | unchanged huser hfamily howner htoken hinvalid =>
    exact .unchanged ⟨hkept.user _ huser.1 huser.2, huser.2⟩
      ⟨hkept.session _ hfamily.1 hfamily.2, hfamily.2⟩ howner
      ⟨hkept.token _ htoken.1 (htoken.2.2 ▸ hfamily.2), htoken.2⟩ hinvalid
  | rotate token_id refresh_token huser hfamily howner htoken hvalid hopen =>
    exact .rotate token_id refresh_token ⟨hkept.user _ huser.1 huser.2, huser.2⟩
      ⟨hkept.session _ hfamily.1 hfamily.2, hfamily.2⟩ howner
      ⟨hkept.token _ htoken.1 (htoken.2.2 ▸ hfamily.2), htoken.2⟩ hvalid hopen
  | revoke huser hfamily howner htoken hvalid hconsumed =>
    exact .revoke ⟨hkept.user _ huser.1 huser.2, huser.2⟩
      ⟨hkept.session _ hfamily.1 hfamily.2, hfamily.2⟩ howner
      ⟨hkept.token _ htoken.1 (htoken.2.2 ▸ hfamily.2), htoken.2⟩ hvalid hconsumed

/-- The precondition of writes is about locked rows. The rows stay the same as long as their locks
are held. -/
theorem Writes.Pre.kept {writes : Writes} {locks : List LockKey} (hkept : Kept locks db db')
    (hcovered : writes.Covered locks) (h : writes.Pre db) : writes.Pre db' := by
  cases writes with
  | unchanged => trivial
  | rotate token_id consumed_at next =>
    obtain ⟨token, htoken, hid, hopen, hsession, hnext, hsucc, family, hfamily, hfid, hnone⟩ := h
    have hlock : LockKey.session token.session_id ∈ locks := hsession ▸ hcovered
    exact ⟨token, hkept.token _ htoken hlock, hid, hopen, hsession, hnext, hsucc, family,
      hkept.session _ hfamily (hfid ▸ hlock), hfid, hnone⟩
  | revoke session_id revoked_at reason =>
    obtain ⟨family, hfamily, rfl, hnone⟩ := h
    exact ⟨family, hkept.session _ hfamily hcovered, rfl, hnone⟩
  | disable user_id session_ids revoked_at =>
    intro s hs
    obtain ⟨family, hfamily, rfl, hnone⟩ := h s hs
    exact ⟨family, hkept.session _ hfamily (hcovered.2 _ hs), rfl, hnone⟩
  | open_session user_id password_hash family token =>
    obtain ⟨hsession, hopen, hsuccessor, howner, user, huser, hid⟩ := h
    exact ⟨hsession, hopen, hsuccessor, howner, user,
      hkept.user user huser (hid.symm ▸ hcovered), hid⟩

/-- The refresh token that a request presents. Only a refresh presents one, and only if the request
carries it. -/
def Request.presents (lib : Library) : Request → Option String
  | .refresh_session (some refresh) => some (lib.token_digest refresh)
  | _ => none

/-- What a request knows of the committed database, in each phase. -/
def ProcessInv (lib : Library) (db : Database) (p : Process) : Prop :=
  match p.phase with
  | .identified user_id session_id =>
    ∀ digest, p.request.presents lib = some digest → TokenOf db digest user_id session_id
  | .user_locked session_id user_id user =>
    (∀ digest, p.request.presents lib = some digest →
      TokenOf db digest user_id session_id ∧ user.isSome) ∧
      ∀ u, user = some u → u ∈ db.users ∧ u.id = user_id
  | .family_locked user family =>
    (∀ u, user = some u → u ∈ db.users) ∧
      (∀ f, family = some f → f ∈ db.sessions ∧ ∀ u, user = some u → f.user_id = u.id) ∧
      ∀ digest, p.request.presents lib = some digest → user.isSome ∧
        ∃ f, family = some f ∧ TokenOf db digest f.user_id f.id
  | .account_locked user => user ∈ db.users
  | .decided locks writes result => writes.Pre db ∧ writes.Covered locks ∧
    ∀ digest, p.request.presents lib = some digest →
      ∃ now, RefreshDecision lib db digest locks now writes result
  | .committed (some _) | .delivered _ =>
    ∀ digest, p.request.presents lib = some digest → Consumed db digest
  | _ => True

/-- What a request knows stays true while its rows are kept. The phases that know a row hold its
lock, and the other facts only grow. -/
theorem ProcessInv.kept {lib : Library} {p : Process} (h : ProcessInv lib db p)
    (hkept : Kept p.phase.locks db db') (hgrow : Grows db db') : ProcessInv lib db' p := by
  obtain ⟨request, phase⟩ := p
  cases phase with
  | started | ended => trivial
  | identified user_id session_id => exact fun digest hd => (h digest hd).grow hgrow
  | user_locked session_id user_id user =>
    refine ⟨fun digest hd => ⟨(h.1 digest hd).1.grow hgrow, (h.1 digest hd).2⟩, fun u hu => ?_⟩
    subst hu
    exact ⟨hkept.user u (h.2 u rfl).1 (by simp [Phase.locks, user_locks]), (h.2 u rfl).2⟩
  | family_locked user family =>
    refine ⟨fun u hu => ?_, fun f hf => ?_, fun digest hd => ?_⟩
    · subst hu
      exact hkept.user u (h.1 u rfl) (by simp [Phase.locks, user_locks])
    · subst hf
      exact ⟨hkept.session f (h.2.1 f rfl).1 (by simp [Phase.locks, family_locks]), (h.2.1 f rfl).2⟩
    · obtain ⟨huser, f, hf, htoken⟩ := h.2.2 digest hd
      exact ⟨huser, f, hf, htoken.grow hgrow⟩
  | account_locked user => exact hkept.user user h (by simp [Phase.locks])
  -- The decision was made on rows that are still locked.
  | decided locks writes result =>
    refine ⟨h.1.kept hkept h.2.1, h.2.1, fun digest hd => ?_⟩
    obtain ⟨now, hdecision⟩ := h.2.2 digest hd
    exact ⟨now, hdecision.kept hkept⟩
  | committed result =>
    cases result with
    | none => trivial
    | some session => exact fun digest hd => (h digest hd).grow hgrow
  | delivered session => exact fun digest hd => (h digest hd).grow hgrow

/-! ## Statements -/

/-- A valid session is not revoked. -/
theorem session_valid_revoked {status : UserStatus} {revoked_at : Option Timestamp}
    {expires_at now : Timestamp} (h : session_valid status revoked_at expires_at now = true) :
    revoked_at = none := by
  simp only [session_valid, Bool.and_eq_true, Option.isNone_iff_eq_none] at h
  exact h.1.2

/-- The user that `lock_family` selects. -/
theorem select_user_spec {user_id : UUID} {u : User} (h : db.select_user user_id = some u) :
    u ∈ db.users ∧ u.id = user_id :=
  ⟨Keyed.lookup_mem h, Keyed.lookup_key h⟩

/-- The family that `lock_family` selects. -/
theorem select_family_spec {user_id session_id : UUID} {f : AuthSession}
    (h : db.select_family user_id session_id = some f) :
    f ∈ db.sessions ∧ f.id = session_id ∧ f.user_id = user_id := by
  obtain ⟨hlookup, howner⟩ := Option.filter_eq_some_iff.mp h
  exact ⟨Keyed.lookup_mem hlookup, Keyed.lookup_key hlookup, by simpa using howner⟩

/-- What `token_identity` finds is the family of the token and its user. -/
theorem token_identity_spec (hdb : DatabaseInv db) {digest : String} {user_id session_id : UUID}
    (h : db.token_identity digest = some (user_id, session_id)) :
    TokenOf db digest user_id session_id := by
  obtain ⟨t, ht, hfamily⟩ := Option.bind_eq_some_iff.mp h
  obtain ⟨f, hf, hpair⟩ := Option.map_eq_some_iff.mp hfamily
  obtain ⟨rfl, rfl⟩ := Prod.mk.inj hpair
  have hmem : f ∈ db.sessions := Keyed.lookup_mem hf
  exact ⟨⟨t, Keyed.lookup_mem ht, Keyed.lookup_key ht, (Keyed.lookup_key hf).symm⟩, ⟨f, hmem, rfl, rfl⟩,
    hdb.accounts f hmem⟩

/-- The user of a token is selected. -/
theorem TokenOf.select_user (hdb : DatabaseInv db) {digest : String} {user_id session_id : UUID}
    (h : TokenOf db digest user_id session_id) : (db.select_user user_id).isSome := by
  obtain ⟨u, hu, hid⟩ := h.user
  rw [show db.select_user user_id = some u from hdb.users.lookup_eq_some.mpr ⟨hu, hid⟩]
  rfl

/-- So is its family. -/
theorem TokenOf.select_family (hdb : DatabaseInv db) {digest : String} {user_id session_id : UUID}
    (h : TokenOf db digest user_id session_id) :
    ∃ f, db.select_family user_id session_id = some f := by
  obtain ⟨f, hf, hid, howner⟩ := h.session
  refine ⟨f, Option.filter_eq_some_iff.mpr ⟨hdb.sessions.lookup_eq_some.mpr ⟨hf, hid⟩, ?_⟩⟩
  exact decide_eq_true howner

/-- A refresh decides on the rows it has locked and on the token it was presented. -/
theorem refresh_decision_spec (hdb : DatabaseInv db) (lib : Library) {user : User}
    {family : AuthSession} (digest : String) (draw : Draw) (huser : user ∈ db.users)
    (hfamily : family ∈ db.sessions) (howner : family.user_id = user.id)
    (htoken : TokenOf db digest family.user_id family.id) :
    let decision := refresh_decision lib (some user) (some family) (db.find_token digest) draw
    let locks := user_locks (some user) ++ family_locks (some family)
    decision.1.Pre db ∧ decision.1.Covered locks ∧
      RefreshDecision lib db digest locks draw.now decision.1 decision.2 := by
  intro decision locks
  -- The token is found by its digest, as digests are unique.
  obtain ⟨t, hmem, hdigest, hsession⟩ := htoken.token
  have hfind : db.find_token digest = some t := hdb.digests.lookup_eq_some.mpr ⟨hmem, hdigest⟩
  have hulock : LockKey.user user.id ∈ locks := by simp [locks, user_locks]
  have hflock : LockKey.session family.id ∈ locks := by simp [locks, family_locks]
  -- The source looks at the session and at the token, and then at the consumption.
  by_cases hvalid : session_valid user.status family.revoked_at family.expires_at draw.now = true ∧
      draw.now < t.expires_at
  · have hnone : family.revoked_at = none := session_valid_revoked hvalid.1
    -- A consumed token in a valid family revokes the family.
    cases hconsumed : t.consumed_at with
    | some consumed_at =>
      have hd : decision = (.revoke family.id draw.now .refresh_replay, none) := by
        simp [decision, refresh_decision, hfind, hvalid, hconsumed]
      rw [hd]
      exact ⟨⟨family, hfamily, rfl, hnone⟩, hflock, .revoke ⟨huser, hulock⟩
        ⟨hfamily, hflock⟩ howner ⟨hmem, hdigest, hsession⟩ hvalid (by rw [hconsumed]; rfl)⟩
    -- An unconsumed one is rotated.
    | none =>
      have hd : decision = (.rotate t.id draw.now
          { id := draw.token_id, session_id := family.id,
            digest := lib.token_digest draw.refresh_token, issued_at := draw.now,
            expires_at := family.expires_at, consumed_at := none, successor_id := none },
          some ⟨user.id, user.email, family.id, draw.refresh_token, family.expires_at⟩) := by
        simp [decision, refresh_decision, hfind, hvalid, hconsumed]
      rw [hd]
      exact ⟨⟨t, hmem, rfl, hconsumed, hsession.symm, rfl, rfl, family, hfamily, hsession.symm, hnone⟩,
        hflock, .rotate draw.token_id draw.refresh_token ⟨huser, hulock⟩ ⟨hfamily, hflock⟩ howner
          ⟨hmem, hdigest, hsession⟩ hvalid hconsumed⟩
  · -- Anything else changes nothing.
    have hd : decision = (.unchanged, none) := by
      simp only [decision, refresh_decision, hfind, if_neg hvalid]
    rw [hd]
    exact ⟨trivial, trivial, .unchanged ⟨huser, hulock⟩ ⟨hfamily, hflock⟩ howner
      ⟨hmem, hdigest, hsession⟩ hvalid⟩

/-- A logout revokes at most the family it has locked. -/
theorem logout_decision_spec (user : Option User) {family : Option AuthSession} (draw : Draw)
    (hfamily : ∀ f, family = some f → f ∈ db.sessions) :
    (logout_decision family draw).Pre db ∧
      (logout_decision family draw).Covered (user_locks user ++ family_locks family) := by
  unfold logout_decision
  cases hf : family with
  | none => exact ⟨trivial, trivial⟩
  | some f =>
    dsimp only
    split_ifs with hnone
    · exact ⟨⟨f, hfamily f hf, rfl, by simpa using hnone⟩,
        by simp [Writes.Covered, family_locks]⟩
    · exact ⟨trivial, trivial⟩

/-- Disabling a user revokes the families it has locked. The families are those of the user, which
no other transaction can revoke meanwhile. -/
theorem disable_spec (db : Database) (user : User) (now : Timestamp) :
    let families := db.families_of user.id
    let writes : Writes :=
      .disable user.id ((families.filter fun family => family.revoked_at.isNone).map (·.id)) now
    writes.Pre db ∧
      writes.Covered (.user user.id :: families.map fun family => .session family.id) := by
  intro families writes
  have hmem : ∀ session_id ∈ (families.filter fun family => family.revoked_at.isNone).map (·.id),
      ∃ family ∈ families, family.id = session_id ∧ family.revoked_at = none := by
    intro session_id hs
    obtain ⟨family, hfamily, hid⟩ := List.mem_map.mp hs
    obtain ⟨hfamily, hnone⟩ := List.mem_filter.mp hfamily
    exact ⟨family, hfamily, hid, by simpa using hnone⟩
  refine ⟨fun session_id hs => ?_, List.mem_cons_self, fun session_id hs => ?_⟩
  · obtain ⟨family, hfamily, hid, hnone⟩ := hmem session_id hs
    exact ⟨family, (List.mem_filter.mp hfamily).1, hid, hnone⟩
  · obtain ⟨family, hfamily, rfl, -⟩ := hmem session_id hs
    exact List.mem_cons_of_mem _ (List.mem_map_of_mem hfamily)

/-- The first statement of a login knows the account that it locks. -/
theorem find_account_inv {lib : Library} {request : Request} (free : LockKey → Bool) (email : String) :
    ProcessInv lib db ⟨request,
      match db.find_by_email email with
      | none => .ended
      | some user => if free (.user user.id) then .account_locked user else .started⟩ := by
  cases hfind : db.find_by_email email with
  | none => trivial
  | some user =>
    dsimp only
    split_ifs
    · exact Keyed.lookup_mem hfind
    · trivial

/-- A statement keeps what a request knows. It reads under its locks, so what it has read stays true
until it commits. -/
theorem next_phase_inv {lib : Library} (hdb : DatabaseInv db) (free : LockKey → Bool)
    {request : Request} (draw : Draw) {phase : Phase} (h : ProcessInv lib db ⟨request, phase⟩) :
    ProcessInv lib db ⟨request, next_phase lib db free request draw phase⟩ := by
  cases phase with
  | started =>
    -- Only a refresh presents a token; the others need no fact at this point.
    cases request with
    | login email | disable_user email => exact find_account_inv free (lib.normalize_email email)
    | logout refresh access =>
      simp only [next_phase]
      cases db.logout_identity lib refresh access with
      | none => trivial
      | some identity => exact fun digest hd => by cases hd
    | refresh_session refresh =>
      cases refresh with
      | none => trivial
      | some refresh =>
        simp only [next_phase]
        split_ifs
        · trivial
        · cases hidentity : db.token_identity (lib.token_digest refresh) with
          | none => trivial
          | some identity =>
            intro digest hd
            cases hd
            exact token_identity_spec hdb hidentity
  -- The user of the session is read and locked.
  | identified user_id session_id =>
    simp only [next_phase]
    split_ifs
    · exact ⟨fun digest hd => ⟨h digest hd, (h digest hd).select_user hdb⟩,
        fun u hu => select_user_spec hu⟩
    · exact h
  -- Then the family is read and locked.
  | user_locked session_id user_id user =>
    simp only [next_phase]
    split_ifs
    · refine ⟨fun u hu => (h.2 u hu).1, fun f hf => ?_, fun digest hd => ?_⟩
      · obtain ⟨hmem, -, howner⟩ := select_family_spec hf
        exact ⟨hmem, fun u hu => howner.trans (h.2 u hu).2.symm⟩
      · obtain ⟨htoken, huser⟩ := h.1 digest hd
        obtain ⟨f, hf⟩ := htoken.select_family hdb
        obtain ⟨-, hid, howner⟩ := select_family_spec hf
        exact ⟨huser, f, hf, hid ▸ howner ▸ htoken⟩
    · exact h
  -- On the locked rows the decision is made.
  | family_locked user family =>
    cases request with
    | login | disable_user => trivial
    | logout refresh access =>
      obtain ⟨hpre, hcovered⟩ := logout_decision_spec user draw fun f hf => (h.2.1 f hf).1
      exact ⟨hpre, hcovered, fun digest hd => by cases hd⟩
    | refresh_session refresh =>
      cases refresh with
      | none => trivial
      | some refresh =>
        obtain ⟨husers, hfamilies, hpresented⟩ := h
        obtain ⟨hsome, f, rfl, htoken⟩ := hpresented _ rfl
        obtain ⟨u, rfl⟩ := Option.isSome_iff_exists.mp hsome
        obtain ⟨hfamily, howner⟩ := hfamilies f rfl
        obtain ⟨hpre, hcovered, hdecision⟩ := refresh_decision_spec hdb lib
          (lib.token_digest refresh) draw (husers u rfl) hfamily (howner u rfl) htoken
        refine ⟨hpre, hcovered, fun digest hd => ⟨draw.now, ?_⟩⟩
        cases hd
        exact hdecision
  | account_locked user =>
    cases request with
    | refresh_session | logout => trivial
    | login email =>
      simp only [next_phase]
      split_ifs
      · trivial
      · exact ⟨⟨rfl, rfl, rfl, rfl, user, h, rfl⟩, List.mem_cons_self, fun digest hd => by cases hd⟩
    -- The families of the user are locked before they are revoked.
    | disable_user email =>
      simp only [next_phase]
      split_ifs
      · obtain ⟨hpre, hcovered⟩ := disable_spec db user draw.now
        exact ⟨hpre, hcovered, fun digest hd => by cases hd⟩
      · exact h
  | decided | ended | delivered => exact h
  | committed result =>
    cases result with
    | none => trivial
    | some session => exact h

/-- The first statement of a login takes only a free lock. -/
theorem find_account_locks {found : Option User} {free : LockKey → Bool} {k : LockKey}
    (hk : k ∈ (match found with
      | none => Phase.ended
      | some user => if free (.user user.id) then .account_locked user else .started).locks) :
    free k = true := by
  cases found with
  | none => simp [Phase.locks] at hk
  | some user =>
    dsimp only at hk
    split_ifs at hk with hfree
    · rw [List.mem_singleton.mp hk]
      exact hfree
    · simp [Phase.locks] at hk

/-- A statement takes only free locks. A statement that would need a lock held by another waits, and
keeps its phase. -/
theorem next_phase_locks (lib : Library) (db : Database) (free : LockKey → Bool) (request : Request)
    (draw : Draw) (phase : Phase) :
    ∀ k ∈ (next_phase lib db free request draw phase).locks, k ∈ phase.locks ∨ free k = true := by
  intro k hk
  cases phase with
  | started =>
    cases request with
    | login email | disable_user email => exact Or.inr (find_account_locks hk)
    | logout refresh access =>
      simp only [next_phase] at hk
      cases hidentity : db.logout_identity lib refresh access <;>
        simp [hidentity, Phase.locks] at hk
    | refresh_session refresh =>
      cases refresh with
      | none => simp [next_phase, Phase.locks] at hk
      | some refresh =>
        simp only [next_phase] at hk
        split_ifs at hk
        · simp [Phase.locks] at hk
        · cases hidentity : db.token_identity (lib.token_digest refresh) <;>
            simp [hidentity, Phase.locks] at hk
  | identified user_id session_id =>
    simp only [next_phase] at hk
    split_ifs at hk with hfree
    · exact Or.inr (List.all_eq_true.mp hfree k hk)
    · simp [Phase.locks] at hk
  | user_locked session_id user_id user =>
    simp only [next_phase] at hk
    split_ifs at hk with hfree
    · rcases List.mem_append.mp hk with hk | hk
      · exact Or.inl hk
      · exact Or.inr (List.all_eq_true.mp hfree k hk)
    · exact Or.inl hk
  | family_locked user family =>
    cases request with
    | login | disable_user => simp [next_phase, Phase.locks] at hk
    | logout => exact Or.inl hk
    | refresh_session refresh =>
      cases refresh with
      | none => simp [next_phase, Phase.locks] at hk
      | some refresh => exact Or.inl hk
  | account_locked user =>
    cases request with
    | refresh_session | logout => simp [next_phase, Phase.locks] at hk
    | login email =>
      simp only [next_phase] at hk
      split_ifs at hk
      · simp [Phase.locks] at hk
      · exact Or.inl hk
    | disable_user email =>
      simp only [next_phase] at hk
      split_ifs at hk with hfree
      · rcases List.mem_cons.mp hk with rfl | hk
        · exact Or.inl (List.mem_singleton_self _)
        · exact Or.inr (List.all_eq_true.mp hfree k hk)
      · exact Or.inl hk
  | decided | ended | delivered => exact Or.inl hk
  | committed result => cases result <;> simp [next_phase, Phase.locks] at hk

end RestaurantOS.Auth
