import RestaurantOS.Auth.Sessions

/-!
# Families of refresh tokens

`Linear` says that a list of tokens is one chain: each token is consumed and names the next one as
its successor, but for the last, which is unconsumed and has none. `DatabaseInv` says that the tokens
of every family form such a chain and that the keys are unique. Writes that meet their precondition
(`Writes.Pre`) keep it (`DatabaseInv.apply`) and leave a revoked family and its tokens as they are
(`apply_revoked`).
-/

namespace RestaurantOS.Auth

/-- The tokens form a chain from the first, of which only the last is unconsumed. -/
def Linear : List RefreshToken → Prop
  | [] => False
  | [token] => token.consumed_at = none ∧ token.successor_id = none
  | token :: next :: rest =>
    token.consumed_at.isSome ∧ token.successor_id = some next.id ∧ Linear (next :: rest)

/-- Exactly one token of a chain is unconsumed. It is the last one, since each of the others has a
successor. -/
theorem Linear.countP_unconsumed {tokens : List RefreshToken} (h : Linear tokens) :
    tokens.countP (fun token => token.consumed_at.isNone) = 1 := by
  induction tokens with
  | nil => exact h.elim
  | cons token rest ih =>
    cases rest with
    | nil => simp [h.1]
    | cons next rest =>
      obtain ⟨hconsumed, -, hrest⟩ := h
      have hnot : token.consumed_at.isNone = false := by
        simpa using hconsumed
      rw [List.countP_cons, ih hrest, hnot]
      rfl

/-- Rotating the unconsumed token of a chain extends the chain. -/
theorem Linear.rotate {tokens : List RefreshToken} (h : Linear tokens)
    (hids : Keyed.Unique RefreshToken.id tokens) {token : RefreshToken} (hmem : token ∈ tokens)
    (hopen : token.consumed_at = none) (consumed_at : Timestamp) {next : RefreshToken}
    (hnext : next.consumed_at = none ∧ next.successor_id = none) :
    Linear (Keyed.modify RefreshToken.id token.id (fun t =>
      { t with consumed_at := some consumed_at, successor_id := some next.id }) tokens ++ [next]) := by
  -- The induction follows the chain up to the token that is rotated, which is its last one.
  induction tokens with
  | nil => exact h.elim
  | cons first rest ih =>
    cases rest with
    | nil =>
      rw [List.mem_singleton] at hmem
      subst hmem
      simpa [Keyed.modify, Linear] using hnext
    | cons second rest =>
      obtain ⟨hconsumed, hsuccessor, hrest⟩ := h
      -- The first token is consumed, so it is another one.
      have hne : token ≠ first := by
        rintro rfl
        rw [hopen] at hconsumed
        cases hconsumed
      have hmem' : token ∈ second :: rest := (List.mem_cons.mp hmem).resolve_left hne
      have hid : first.id ≠ token.id := fun heq =>
        hne (hids.eq_of_key hmem List.mem_cons_self heq.symm)
      have hih := ih hrest (List.nodup_cons.mp hids).2 hmem'
      simp only [Keyed.modify, List.map_cons, if_neg hid, List.cons_append] at hih ⊢
      refine ⟨hconsumed, ?_, hih⟩
      -- The link of the first token leads to the second one, whose identifier stays.
      rw [hsuccessor]
      split_ifs <;> rfl

/-- The invariant of the database. The keys are unique, and the rows refer to each other as the
foreign keys say. -/
structure DatabaseInv (db : Database) : Prop where
  /-- The keys of the users are unique. -/
  users : Keyed.Unique User.id db.users
  /-- The keys of the families are unique. -/
  sessions : Keyed.Unique AuthSession.id db.sessions
  /-- The keys of the tokens are unique. -/
  tokens : Keyed.Unique RefreshToken.id db.tokens
  /-- The digests of the tokens are unique. -/
  digests : Keyed.Unique RefreshToken.digest db.tokens
  /-- Every token belongs to a family. -/
  owned : ∀ token ∈ db.tokens, ∃ family ∈ db.sessions, family.id = token.session_id
  /-- The tokens of every family form a chain. -/
  linear : ∀ family ∈ db.sessions, Linear (db.tokens_of family.id)
  /-- Every family belongs to a user. -/
  accounts : ∀ family ∈ db.sessions, ∃ user ∈ db.users, user.id = family.user_id

/-- What must hold of the database for a transaction to commit its writes. -/
def Writes.Pre (db : Database) : Writes → Prop
  | .unchanged => True
  | .rotate token_id _ next =>
    ∃ token ∈ db.tokens, token.id = token_id ∧ token.consumed_at = none ∧
      next.session_id = token.session_id ∧ next.consumed_at = none ∧ next.successor_id = none ∧
      ∃ family ∈ db.sessions, family.id = token.session_id ∧ family.revoked_at = none
  | .revoke session_id _ _ => ∃ family ∈ db.sessions, family.id = session_id ∧ family.revoked_at = none
  | .disable _ session_ids _ => ∀ session_id ∈ session_ids,
      ∃ family ∈ db.sessions, family.id = session_id ∧ family.revoked_at = none
  | .open_session user_id _ family token =>
    token.session_id = family.id ∧ token.consumed_at = none ∧ token.successor_id = none ∧
      family.user_id = user_id ∧ ∃ user ∈ db.users, user.id = user_id

variable {db : Database}

/-! ## Revocation -/

/-- Revoking families changes no key. -/
theorem revoke_sessions_key (session_ids : List UUID) (revoked_at : Timestamp)
    (reason : RevokedReason) (family : AuthSession) :
    (if family.id ∈ session_ids then
      { family with revoked_at := some revoked_at, revoked_reason := some reason }
      else family).id = family.id := by
  split_ifs <;> rfl

/-- Nor does it change whose they are. -/
theorem revoke_sessions_user (session_ids : List UUID) (revoked_at : Timestamp)
    (reason : RevokedReason) (family : AuthSession) :
    (if family.id ∈ session_ids then
      { family with revoked_at := some revoked_at, revoked_reason := some reason }
      else family).user_id = family.user_id := by
  split_ifs <;> rfl

/-- A user stays one when rows are changed but for their keys. -/
theorem exists_user_modify {users : List User} {user_id : UUID}
    (h : ∃ user ∈ users, user.id = user_id) (changed : UUID) {f : User → User}
    (hf : ∀ user, (f user).id = user.id) :
    ∃ user ∈ Keyed.modify User.id changed f users, user.id = user_id := by
  obtain ⟨user, huser, rfl⟩ := h
  refine ⟨_, List.mem_map_of_mem huser, ?_⟩
  split_ifs
  · exact hf user
  · rfl

/-- Revoking families keeps the invariant. Only the columns of the revocation change, and no key or
reference does. -/
theorem DatabaseInv.revoke_sessions (h : DatabaseInv db) (session_ids : List UUID)
    (revoked_at : Timestamp) (reason : RevokedReason) :
    DatabaseInv (db.revoke_sessions session_ids revoked_at reason) := by
  have hkey := revoke_sessions_key session_ids revoked_at reason
  refine ⟨h.users, h.sessions.map fun family _ => hkey family, h.tokens, h.digests, ?_, ?_, ?_⟩
  · intro token htoken
    obtain ⟨family, hfamily, hid⟩ := h.owned token htoken
    exact ⟨_, List.mem_map_of_mem hfamily, (hkey family).trans hid⟩
  · intro family' hfamily'
    obtain ⟨family, hfamily, rfl⟩ := List.mem_map.mp hfamily'
    simp only [hkey]
    exact h.linear family hfamily
  · intro family' hfamily'
    obtain ⟨family, hfamily, rfl⟩ := List.mem_map.mp hfamily'
    rw [revoke_sessions_user session_ids revoked_at reason family]
    exact h.accounts family hfamily

/-- Revoking families that are not revoked leaves the revoked ones as they are. -/
theorem revoke_sessions_revoked (h : DatabaseInv db) {session_ids : List UUID}
    (hpre : ∀ session_id ∈ session_ids,
      ∃ family ∈ db.sessions, family.id = session_id ∧ family.revoked_at = none)
    (revoked_at : Timestamp) (reason : RevokedReason) {family : AuthSession}
    (hfamily : family ∈ db.sessions) (hrevoked : family.revoked_at.isSome) :
    family ∈ (db.revoke_sessions session_ids revoked_at reason).sessions := by
  refine List.mem_map.mpr ⟨family, hfamily, if_neg fun hmem => ?_⟩
  obtain ⟨other, hother, hid, hnone⟩ := hpre family.id hmem
  rw [h.sessions.eq_of_key hother hfamily hid] at hnone
  rw [hnone] at hrevoked
  cases hrevoked

/-! ## Committing writes -/

/-- The tokens of a family after a rotation: the family's chain is rotated, and the others stay. -/
theorem tokens_of_rotate (h : DatabaseInv db) {token : RefreshToken} (htoken : token ∈ db.tokens)
    {next : RefreshToken} (hnext : next.session_id = token.session_id) (consumed_at : Timestamp)
    (session_id : UUID) :
    (db.apply (.rotate token.id consumed_at next)).tokens_of session_id =
      if token.session_id = session_id then
        Keyed.modify RefreshToken.id token.id (fun t =>
          { t with consumed_at := some consumed_at, successor_id := some next.id })
            (db.tokens_of session_id) ++ [next]
      else db.tokens_of session_id := by
  -- The rotation keeps the family of every token.
  have hsession : ∀ t : RefreshToken, (if t.id = token.id then
      { t with consumed_at := some consumed_at, successor_id := some next.id } else t).session_id =
        t.session_id := by
    intro t
    split_ifs <;> rfl
  simp only [Database.tokens_of, Database.apply, List.filter_append, Keyed.modify, List.filter_map,
    Function.comp_def, hsession, List.filter_singleton, hnext]
  split_ifs with heq
  · simp [heq]
  · -- No token of another family has the identifier of the rotated one.
    simp only [heq, decide_false, cond_false, List.append_nil]
    conv_rhs => rw [← List.map_id (db.tokens.filter fun t => t.session_id = session_id)]
    refine List.map_congr_left fun t ht => if_neg fun hid => heq ?_
    obtain ⟨hmem, hts⟩ := List.mem_filter.mp ht
    rw [← h.tokens.eq_of_key hmem htoken hid]
    simpa using hts

/-- Committing writes that meet their precondition keeps the invariant. The precondition says which
rows are still as they were read. -/
theorem DatabaseInv.apply (h : DatabaseInv db) {writes : Writes} (hpre : writes.Pre db)
    (hunique : db.violates writes = false) : DatabaseInv (db.apply writes) := by
  cases writes with
  | unchanged => exact h
  | revoke session_id revoked_at reason => exact h.revoke_sessions _ _ _
  | disable user_id session_ids revoked_at =>
    have hrevoked := h.revoke_sessions session_ids revoked_at .user_disabled
    exact ⟨h.users.modify fun _ hid => hid, hrevoked.sessions, h.tokens, h.digests, hrevoked.owned,
      hrevoked.linear, fun family hfamily =>
        exists_user_modify (hrevoked.accounts family hfamily) user_id fun _ => rfl⟩
  -- The preconditions of a rotation are those under which the chain can be extended.
  | rotate token_id consumed_at next =>
    obtain ⟨token, htoken, rfl, hopen, hsession, hnext, hsuccessor, family, hfamily, hfid, -⟩ := hpre
    simp only [Database.violates, List.any_eq_false, Bool.or_eq_true, decide_eq_true_eq,
      not_or] at hunique
    have hmodify : ∀ t : RefreshToken, (if t.id = token.id then
        { t with consumed_at := some consumed_at, successor_id := some next.id } else t).id = t.id ∧
        (if t.id = token.id then
        { t with consumed_at := some consumed_at, successor_id := some next.id } else t).digest =
          t.digest ∧
        (if t.id = token.id then
        { t with consumed_at := some consumed_at, successor_id := some next.id } else t).session_id =
          t.session_id := by
      intro t
      split_ifs <;> exact ⟨rfl, rfl, rfl⟩
    refine ⟨h.users, h.sessions, ?_, ?_, ?_, ?_, h.accounts⟩
    · -- The identifiers of the tokens stay unique, as the new one is unused.
      refine (h.tokens.map fun t _ => (hmodify t).1).append fun t ht => ?_
      obtain ⟨t₀, ht₀, rfl⟩ := List.mem_map.mp ht
      rw [(hmodify t₀).1]
      exact (hunique t₀ ht₀).1
    · -- So do their digests.
      refine (h.digests.map fun t _ => (hmodify t).2.1).append fun t ht => ?_
      obtain ⟨t₀, ht₀, rfl⟩ := List.mem_map.mp ht
      rw [(hmodify t₀).2.1]
      exact (hunique t₀ ht₀).2
    · intro t ht
      rcases List.mem_append.mp ht with ht | ht
      · obtain ⟨t₀, ht₀, rfl⟩ := List.mem_map.mp ht
        rw [(hmodify t₀).2.2]
        exact h.owned t₀ ht₀
      · rw [List.mem_singleton.mp ht, hsession]
        exact ⟨family, hfamily, hfid⟩
    · -- The chain of the family is extended, and the other chains are as they were.
      intro f hf
      rw [tokens_of_rotate h htoken hsession]
      split_ifs with heq
      · have hmem : token ∈ db.tokens_of f.id := List.mem_filter.mpr ⟨htoken, by simpa using heq⟩
        have hids : Keyed.Unique RefreshToken.id (db.tokens_of f.id) :=
          h.tokens.sublist (List.Sublist.map _ List.filter_sublist)
        exact (h.linear f hf).rotate hids hmem hopen consumed_at ⟨hnext, hsuccessor⟩
      · exact h.linear f hf
  | open_session user_id password_hash family token =>
    obtain ⟨hsession, hopen, hsuccessor, howner, huser⟩ := hpre
    simp only [Database.violates, Bool.or_eq_false_iff, List.any_eq_false, Bool.or_eq_true,
      decide_eq_true_eq, not_or] at hunique
    obtain ⟨hfamily, htoken⟩ := hunique
    -- The family is new, so no token belongs to it yet.
    have hnone : db.tokens_of family.id = [] := by
      rw [Database.tokens_of, List.filter_eq_nil_iff]
      intro t ht heq
      obtain ⟨f, hf, hfid⟩ := h.owned t ht
      exact hfamily f hf (hfid.trans (by simpa using heq))
    refine ⟨h.users.modify fun _ hid => hid, h.sessions.append hfamily,
      h.tokens.append fun t ht => (htoken t ht).1, h.digests.append fun t ht => (htoken t ht).2,
      ?_, ?_, ?_⟩
    · intro t ht
      rcases List.mem_append.mp ht with ht | ht
      · obtain ⟨f, hf, hfid⟩ := h.owned t ht
        exact ⟨f, List.mem_append_left _ hf, hfid⟩
      · rw [List.mem_singleton.mp ht]
        exact ⟨family, List.mem_append_right _ (List.mem_singleton_self _), hsession.symm⟩
    · -- The new family has the one token that opens it.
      intro f hf
      have htokens : ∀ session_id, (db.apply (.open_session user_id password_hash family
          token)).tokens_of session_id = db.tokens_of session_id ++
            if family.id = session_id then [token] else [] := by
        intro session_id
        simp only [Database.tokens_of, Database.apply, List.filter_append, List.filter_singleton,
          hsession]
        split_ifs with heq <;> simp [heq]
      rw [htokens]
      rcases List.mem_append.mp hf with hf | hf
      · rw [if_neg fun heq => hfamily f hf heq.symm, List.append_nil]
        exact h.linear f hf
      · rw [List.mem_singleton.mp hf, hnone, if_pos rfl]
        exact ⟨hopen, hsuccessor⟩
    · intro f hf
      refine exists_user_modify ?_ user_id fun _ => rfl
      rcases List.mem_append.mp hf with hf | hf
      · exact h.accounts f hf
      · rw [List.mem_singleton.mp hf, howner]
        exact huser

/-- Committed writes leave a revoked family and its tokens as they are. Each kind of writes names
its families, and a revoked one is never among them. -/
theorem apply_revoked (h : DatabaseInv db) {writes : Writes} (hpre : writes.Pre db)
    (hunique : db.violates writes = false) {family : AuthSession} (hfamily : family ∈ db.sessions)
    (hrevoked : family.revoked_at.isSome) :
    family ∈ (db.apply writes).sessions ∧
      (db.apply writes).tokens_of family.id = db.tokens_of family.id := by
  cases writes with
  | unchanged => exact ⟨hfamily, rfl⟩
  | revoke session_id revoked_at reason =>
    refine ⟨revoke_sessions_revoked h (fun s hs => ?_) revoked_at reason hfamily hrevoked, rfl⟩
    rw [List.mem_singleton.mp hs]
    exact hpre
  | disable user_id session_ids revoked_at =>
    exact ⟨revoke_sessions_revoked h hpre revoked_at .user_disabled hfamily hrevoked, rfl⟩
  -- A rotation requires that the family is not revoked.
  | rotate token_id consumed_at next =>
    obtain ⟨token, htoken, rfl, -, hsession, -, -, family', hfamily', hfid, hnone⟩ := hpre
    refine ⟨hfamily, ?_⟩
    rw [tokens_of_rotate h htoken hsession, if_neg]
    intro heq
    rw [h.sessions.eq_of_key hfamily' hfamily (hfid.trans heq)] at hnone
    rw [hnone] at hrevoked
    cases hrevoked
  -- The session that is opened is another family.
  | open_session user_id password_hash family' token =>
    simp only [Database.violates, Bool.or_eq_false_iff, List.any_eq_false, decide_eq_true_eq]
      at hunique
    refine ⟨List.mem_append_left _ hfamily, ?_⟩
    have hne : token.session_id ≠ family.id := by
      rw [hpre.1]
      exact fun heq => hunique.1 family hfamily heq.symm
    simp [Database.tokens_of, Database.apply, List.filter_append, hne]

end RestaurantOS.Auth
