import RestaurantOS.Auth.Locking

/-!
# Families stay linear under concurrent requests

`WorldInv` joins the invariant of the database, the exclusiveness of the row locks, what every
running request knows, and that no refresh token yields two sessions. Every action keeps it
(`step_inv`): a statement by `next_phase_inv`, and a commit because the rows of the other requests
are under other locks. The last theorem collects what follows for every run.
-/

namespace RestaurantOS.Auth

/-- The session that a request has obtained, once its transaction is committed. -/
def Phase.session : Phase → Option IssuedSession
  | .committed result => result
  | .delivered session => some session
  | _ => none

/-- The presented token was valid and unconsumed; it is consumed and gets its one successor. -/
def Rotates (db db' : Database) (digest : String) : Prop :=
  ∃ token ∈ db.tokens, token.digest = digest ∧ token.consumed_at = none ∧
    ∃ (now : Timestamp) (next : RefreshToken), next.session_id = token.session_id ∧
      next.consumed_at = none ∧ next.successor_id = none ∧
        db' = db.apply (.rotate token.id now next)

/-- The presented token was already consumed and its family still valid; the family is revoked. -/
def Revokes (db db' : Database) (digest : String) : Prop :=
  ∃ token ∈ db.tokens, token.digest = digest ∧ token.consumed_at.isSome ∧
    ∃ family ∈ db.sessions, family.id = token.session_id ∧
      ∃ user ∈ db.users, user.id = family.user_id ∧ ∃ now : Timestamp,
        session_valid user.status family.revoked_at family.expires_at now = true ∧
          db' = db.apply (.revoke family.id now .refresh_replay)

/-- What holds of the service at any time. -/
structure WorldInv (lib : Library) (w : World) : Prop where
  /-- The database keeps its invariant. -/
  database : DatabaseInv w.database
  /-- No row is locked twice. -/
  exclusive : Locks.Exclusive w.held
  /-- What the requests know is true. -/
  processes : ∀ p ∈ w.processes, ProcessInv lib w.database p
  /-- A refresh token yields at most one session. -/
  single : ∀ (i j : ℕ) (p q : Process) (digest : String), w.processes[i]? = some p →
    w.processes[j]? = some q → p.request.presents lib = some digest →
      q.request.presents lib = some digest → p.phase.session.isSome → q.phase.session.isSome → i = j

variable {lib : Library} {w : World}

/-! ## Processes and their locks -/

/-- A process after the phase of one is set. -/
theorem set_phase_getElem {i j : ℕ} {phase : Phase} {q : Process}
    (h : (w.set_phase i phase).processes[j]? = some q) :
    ∃ p, w.processes[j]? = some p ∧ q = if i = j then { p with phase := phase } else p := by
  simp only [World.set_phase, List.getElem?_modify] at h
  obtain ⟨p, hp, rfl⟩ := Option.map_eq_some_iff.mp h
  exact ⟨p, hp, rfl⟩

/-- The locks after the phase of a process is set. -/
theorem held_set_phase {i : ℕ} {p : Process} (hp : w.processes[i]? = some p) (phase : Phase) :
    (w.set_phase i phase).held = Function.update w.held i phase.locks := by
  funext j
  simp only [World.held, World.set_phase, List.getElem?_modify]
  by_cases hij : i = j
  · subst hij
    simp [hp]
  · rw [Function.update_of_ne (Ne.symm hij)]
    simp [World.held, hij]

/-- No process holds a free lock. -/
theorem free_spec {key : LockKey} (h : w.free key = true) (j : ℕ) : key ∉ w.held j := by
  unfold World.held
  cases hj : w.processes[j]? with
  | none => exact List.not_mem_nil
  | some p => simpa using List.all_eq_true.mp h p (List.mem_of_getElem? hj)

/-- The locks of a process of the list. -/
theorem held_of_getElem {i : ℕ} {p : Process} (hp : w.processes[i]? = some p) :
    w.held i = p.phase.locks := by
  simp [World.held, hp]

/-! ## Steps -/

/-- What an action does to the database and to the processes. -/
inductive Effect (lib : Library) (w : World) : World → Prop
  /-- A user is inserted. -/
  | create_user (user : User) (hfresh : ∀ user' ∈ w.database.users, user'.id ≠ user.id) :
    Effect lib w { w with database := { w.database with users := w.database.users ++ [user] } }
  /-- A request arrives. -/
  | request (request : Request) :
    Effect lib w { w with processes := w.processes ++ [⟨request, .started⟩] }
  /-- A process moves on, with locks it held before or that were free. -/
  | move {i : ℕ} {p : Process} (hp : w.processes[i]? = some p) (phase : Phase)
    (hlocks : ∀ k ∈ phase.locks, k ∈ w.held i ∨ ∀ j, k ∉ w.held j)
    (hinv : DatabaseInv w.database → ProcessInv lib w.database p →
      ProcessInv lib w.database ⟨p.request, phase⟩)
    (hsession : phase.session.isSome → p.phase.session.isSome) :
    Effect lib w (w.set_phase i phase)
  /-- A process commits its writes. -/
  | commit {i : ℕ} {p : Process} (hp : w.processes[i]? = some p) {locks : List LockKey}
    {writes : Writes} {result : Option IssuedSession} (hphase : p.phase = .decided locks writes result)
    (hunique : w.database.violates writes = false) :
    Effect lib w
      ({ w with database := w.database.apply writes }.set_phase i (.committed result))
  /-- Nothing changes. -/
  | idle : Effect lib w w

/-- The first statement of a login obtains no session. -/
theorem find_account_session (found : Option User) (free : LockKey → Bool) :
    (match found with
      | none => Phase.ended
      | some user => if free (.user user.id) then .account_locked user else .started).session =
      none := by
  cases found with
  | none => rfl
  | some user => dsimp only; split_ifs <;> rfl

/-- A statement obtains no session. A session is obtained by a decision and by its commit alone. -/
theorem next_phase_session {db : Database} {free : LockKey → Bool} {request : Request} {draw : Draw}
    {phase : Phase} (h : (next_phase lib db free request draw phase).session.isSome) :
    phase.session.isSome := by
  cases phase with
  | committed result => cases result <;> simp_all [next_phase, Phase.session]
  | delivered => rfl
  | ended | decided => simp [next_phase, Phase.session] at h
  | identified | user_locked =>
    simp only [next_phase] at h
    split_ifs at h <;> simp [Phase.session] at h
  | started =>
    cases request with
    | login email =>
      have hnone : (next_phase lib db free (.login email) draw .started).session = none :=
        find_account_session _ free
      rw [hnone] at h
      cases h
    | disable_user email =>
      have hnone : (next_phase lib db free (.disable_user email) draw .started).session = none :=
        find_account_session _ free
      rw [hnone] at h
      cases h
    | logout refresh access =>
      simp only [next_phase] at h
      cases hidentity : db.logout_identity lib refresh access <;>
        simp [hidentity, Phase.session] at h
    | refresh_session refresh =>
      cases refresh with
      | none => simp [next_phase, Phase.session] at h
      | some refresh =>
        simp only [next_phase] at h
        split_ifs at h
        · simp [Phase.session] at h
        · cases hidentity : db.token_identity (lib.token_digest refresh) <;>
            simp [hidentity, Phase.session] at h
  | family_locked =>
    cases request with
    | login | disable_user | logout => simp [next_phase, Phase.session] at h
    | refresh_session refresh => cases refresh <;> simp [next_phase, Phase.session] at h
  | account_locked =>
    cases request with
    | refresh_session | logout => simp [next_phase, Phase.session] at h
    | login | disable_user =>
      simp only [next_phase] at h
      split_ifs at h <;> simp [Phase.session] at h

/-- Every action has one of the effects. The effects are those on the database: nothing, a new user,
or the commit of a decision. -/
theorem step_effect (lib : Library) (w : World) (a : Act) : Effect lib w (w.step lib a) := by
  cases a with
  | create_user user =>
    simp only [World.step]
    split_ifs with h
    · exact .idle
    · refine .create_user user fun user' huser' hid => h ?_
      exact List.any_eq_true.mpr ⟨user', huser', by simp [hid]⟩
  | request request => exact .request request
  -- An aborted request lets its locks go.
  | abort i =>
    cases hp : w.processes[i]? with
    | none =>
      have hstep : w.step lib (.abort i) = w := by
        have hmodify : w.processes.modify i (fun p => { p with phase := .ended }) = w.processes :=
          List.modify_eq_self (List.getElem?_eq_none_iff.mp hp)
        simp only [World.step, World.set_phase, hmodify]
      rw [hstep]
      exact .idle
    | some p =>
      exact .move hp .ended (fun k hk => absurd hk List.not_mem_nil) (fun _ _ => trivial)
        fun h => by cases h
  | advance i draw =>
    simp only [World.step, World.advance]
    cases hp : w.processes[i]? with
    | none => exact .idle
    | some p =>
      dsimp only
      -- A decision is committed, unless a unique index refuses it.
      split
      next locks writes result hphase =>
        split_ifs with hunique
        · exact .move hp .ended (fun k hk => absurd hk List.not_mem_nil) (fun _ _ => trivial)
            fun h => by cases h
        · exact .commit hp hphase (by simpa using hunique)
      -- Every other phase moves on by one statement.
      next =>
        refine .move hp _ (fun k hk => ?_)
          (fun hdb hknown => next_phase_inv hdb w.free draw hknown) next_phase_session
        rw [held_of_getElem hp]
        exact (next_phase_locks lib w.database w.free p.request draw p.phase k hk).imp_right
          fun hfree => free_spec hfree

/-! ## The invariant -/

/-- A request whose commit obtains a session found its token unconsumed and consumes it. -/
theorem commit_rotates {db : Database} {digest : String} {locks : List LockKey} {writes : Writes}
    {session : IssuedSession} {now : Timestamp} (hdb : DatabaseInv db)
    (h : RefreshDecision lib db digest locks now writes (some session)) :
    ¬ Consumed db digest ∧ Consumed (db.apply writes) digest := by
  cases h with
  | rotate token_id refresh_token huser hfamily howner htoken hvalid hopen =>
    obtain ⟨hmem, hdigest, hsession⟩ := htoken
    constructor
    · rintro ⟨t, ht, htdigest, hconsumed⟩
      rw [hdb.digests.eq_of_key ht hmem (htdigest.trans hdigest.symm), hopen] at hconsumed
      cases hconsumed
    · refine ⟨_, List.mem_append_left _ (List.mem_map_of_mem hmem), ?_⟩
      rw [if_pos rfl]
      exact ⟨hdigest, rfl⟩

/-- A request that has obtained a session has consumed its token. -/
theorem ProcessInv.consumed {db : Database} {p : Process} {digest : String}
    (h : ProcessInv lib db p) (hsession : p.phase.session.isSome)
    (hpresents : p.request.presents lib = some digest) : Consumed db digest := by
  obtain ⟨request, phase⟩ := p
  cases phase with
  | delivered session => exact h digest hpresents
  | committed result =>
    cases result with
    | none => cases hsession
    | some session => exact h digest hpresents
  | started | identified | user_locked | family_locked | account_locked | decided | ended =>
    cases hsession

/-- Inserting a user keeps every row. -/
theorem create_user_kept (db : Database) (user : User) (locks : List LockKey) :
    Kept locks db { db with users := db.users ++ [user] } :=
  ⟨fun _ hu _ => List.mem_append_left _ hu, fun _ hf _ => hf, fun _ ht _ => ht⟩

/-- It removes none. -/
theorem create_user_grow (db : Database) (user : User) :
    Grows db { db with users := db.users ++ [user] } :=
  { Grows.refl db with users := fun u hu => ⟨u, List.mem_append_left _ hu, rfl⟩ }

/-- Inserting a user under a new key keeps the invariant of the database. -/
theorem DatabaseInv.create_user {db : Database} (h : DatabaseInv db) {user : User}
    (hfresh : ∀ user' ∈ db.users, user'.id ≠ user.id) :
    DatabaseInv { db with users := db.users ++ [user] } :=
  { h with
    users := h.users.append hfresh
    accounts := fun family hfamily => by
      obtain ⟨owner, howner, hid⟩ := h.accounts family hfamily
      exact ⟨owner, List.mem_append_left _ howner, hid⟩ }

/-- Inserting a user keeps the invariant. -/
theorem WorldInv.create_user (h : WorldInv lib w) {user : User}
    (hfresh : ∀ user' ∈ w.database.users, user'.id ≠ user.id) :
    WorldInv lib { w with database := { w.database with users := w.database.users ++ [user] } } :=
  ⟨h.database.create_user hfresh, h.exclusive,
    fun p hp => (h.processes p hp).kept (create_user_kept _ _ _) (create_user_grow _ _), h.single⟩

/-- A new request keeps the invariant: it holds nothing, knows nothing and has no session. -/
theorem WorldInv.request (h : WorldInv lib w) (request : Request) :
    WorldInv lib { w with processes := w.processes ++ [⟨request, .started⟩] } := by
  have hget : ∀ {i : ℕ} {p : Process}, (w.processes ++ [⟨request, .started⟩])[i]? = some p →
      w.processes[i]? = some p ∨ p = ⟨request, .started⟩ := by
    intro i p hp
    rw [List.getElem?_append] at hp
    split_ifs at hp
    · exact Or.inl hp
    · exact Or.inr (List.mem_singleton.mp (List.mem_of_getElem? hp))
  have hheld : ∀ i k, k ∈ World.held { w with processes := w.processes ++ [⟨request, .started⟩] } i →
      k ∈ w.held i := by
    intro i k hk
    unfold World.held at hk
    cases hp : (w.processes ++ [⟨request, .started⟩])[i]? with
    | none => simp [hp] at hk
    | some p =>
      rcases hget hp with hold | rfl
      · simpa [held_of_getElem hold, hp] using hk
      · simp [hp, Phase.locks] at hk
  refine ⟨h.database, fun i j k hi hj => h.exclusive i j k (hheld i k hi) (hheld j k hj),
    fun p hp => ?_, fun i j p q digest hp hq hpd hqd hps hqs => ?_⟩
  · rcases List.mem_append.mp hp with hp | hp
    · exact h.processes p hp
    · rw [List.mem_singleton.mp hp]
      trivial
  · rcases hget hp with hp | rfl
    · rcases hget hq with hq | rfl
      · exact h.single i j p q digest hp hq hpd hqd hps hqs
      · cases hqs
    · cases hps

/-- A statement of a process that takes only free locks, knows what it read and obtains no session
keeps the invariant. A request that moves on reads rows under locks of its own. -/
theorem WorldInv.move (h : WorldInv lib w) {i : ℕ} {p : Process} (hp : w.processes[i]? = some p)
    {phase : Phase} (hlocks : ∀ k ∈ phase.locks, k ∈ w.held i ∨ ∀ j, k ∉ w.held j)
    (hknown : ProcessInv lib w.database ⟨p.request, phase⟩)
    (hsession : phase.session.isSome → p.phase.session.isSome) :
    WorldInv lib (w.set_phase i phase) := by
  refine ⟨h.database, ?_, fun q hq => ?_, fun j j' q q' digest hq hq' hqd hqd' hqs hqs' => ?_⟩
  · rw [held_set_phase hp]
    exact h.exclusive.update hlocks
  · -- The request that has moved knows what its statement read, and the others what they knew.
    obtain ⟨j, hj⟩ := List.mem_iff_getElem?.mp hq
    obtain ⟨r, hr, rfl⟩ := set_phase_getElem hj
    split_ifs with hij
    · subst hij
      obtain rfl : r = p := Option.some.inj (hr.symm.trans hp)
      exact hknown
    · exact h.processes r (List.mem_of_getElem? hr)
  · -- Moving on obtains no session, so both processes had theirs before.
    have hbefore : ∀ {j : ℕ} {q : Process}, (w.set_phase i phase).processes[j]? = some q →
        q.phase.session.isSome →
          ∃ r, w.processes[j]? = some r ∧ r.request = q.request ∧ r.phase.session.isSome := by
      intro j q hq hqs
      obtain ⟨r, hr, rfl⟩ := set_phase_getElem hq
      split_ifs at hqs ⊢ with hij
      · subst hij
        obtain rfl : r = p := Option.some.inj (hr.symm.trans hp)
        exact ⟨r, hr, rfl, hsession hqs⟩
      · exact ⟨r, hr, rfl, hqs⟩
    obtain ⟨r, hr, hrequest, hrs⟩ := hbefore hq hqs
    obtain ⟨r', hr', hrequest', hrs'⟩ := hbefore hq' hqs'
    exact h.single j j' r r' digest hr hr' (hrequest ▸ hqd) (hrequest' ▸ hqd') hrs hrs'

/-- A process that commits has the first session for its token: with an earlier one of another process
the token would have been consumed. -/
theorem WorldInv.first_session (h : WorldInv lib w) {digest : String} {locks : List LockKey}
    {writes : Writes} {result : Option IssuedSession} {now : Timestamp}
    (hdecision : RefreshDecision lib w.database digest locks now writes result)
    (hresult : result.isSome) {j : ℕ} {q : Process} (hq : w.processes[j]? = some q)
    (hpresents : q.request.presents lib = some digest) : ¬ q.phase.session.isSome := by
  intro hsession
  obtain ⟨session, hsome⟩ := Option.isSome_iff_exists.mp hresult
  refine (commit_rotates h.database (hsome ▸ hdecision)).1 ?_
  exact (h.processes q (List.mem_of_getElem? hq)).consumed hsession hpresents

/-- The commit of a process keeps the invariant: the rows of the others are under other locks. -/
theorem WorldInv.commit (h : WorldInv lib w) {i : ℕ} {p : Process} (hp : w.processes[i]? = some p)
    {locks : List LockKey} {writes : Writes} {result : Option IssuedSession}
    (hphase : p.phase = .decided locks writes result) (hunique : w.database.violates writes = false) :
    WorldInv lib
      ({ w with database := w.database.apply writes }.set_phase i (.committed result)) := by
  have hknown := h.processes p (List.mem_of_getElem? hp)
  simp only [ProcessInv, hphase] at hknown
  obtain ⟨hpre, hcovered, hdecision⟩ := hknown
  have hheld : w.held i = locks := by rw [held_of_getElem hp, hphase]; rfl
  set w₁ : World := { w with database := w.database.apply writes } with hw₁
  have hp₁ : w₁.processes[i]? = some p := hp
  refine ⟨h.database.apply hpre hunique, ?_, fun q hq => ?_,
    fun j j' q q' digest hq hq' hqd hqd' hqs hqs' => ?_⟩
  · rw [held_set_phase hp₁]
    exact h.exclusive.update fun k hk => absurd hk List.not_mem_nil
  · -- The process that has committed knows that its token is consumed, and the others keep their
    -- rows.
    obtain ⟨j, hj⟩ := List.mem_iff_getElem?.mp hq
    obtain ⟨r, hr, rfl⟩ := set_phase_getElem hj
    split_ifs with hij
    · subst hij
      obtain rfl : r = p := Option.some.inj (hr.symm.trans hp)
      cases result with
      | none => trivial
      | some session =>
        intro digest hd
        obtain ⟨now, hrotate⟩ := hdecision digest hd
        exact (commit_rotates h.database hrotate).2
    · -- The locks of two processes are disjoint.
      have hdisjoint : ∀ k ∈ locks, k ∉ r.phase.locks := by
        intro k hk
        rw [← held_of_getElem hr]
        exact h.exclusive.disjoint hij k (hheld ▸ hk)
      exact (h.processes r (List.mem_of_getElem? hr)).kept
        (apply_kept h.database hpre hcovered hdisjoint) (apply_grow writes)
  · obtain ⟨r, hr, rfl⟩ := set_phase_getElem hq
    obtain ⟨r', hr', rfl⟩ := set_phase_getElem hq'
    -- Of the two processes one may be the one that commits.
    by_cases hij : i = j
    · by_cases hij' : i = j'
      · exact hij.symm.trans hij'
      · subst hij
        obtain rfl : r = p := Option.some.inj (hr.symm.trans hp)
        simp only [if_neg hij', reduceIte] at hqd hqs hqd' hqs'
        obtain ⟨now, hfirst⟩ := hdecision digest hqd
        -- This is the first session for the token, so no other process has one.
        exact absurd hqs' (h.first_session hfirst hqs hr' hqd')
    · by_cases hij' : i = j'
      · subst hij'
        obtain rfl : r' = p := Option.some.inj (hr'.symm.trans hp)
        simp only [if_neg hij, reduceIte] at hqd hqs hqd' hqs'
        obtain ⟨now, hfirst⟩ := hdecision digest hqd'
        exact absurd hqs (h.first_session hfirst hqs' hr hqd)
      · simp only [if_neg hij, if_neg hij'] at hqd hqs hqd' hqs'
        exact h.single j j' r r' digest hr hr' hqd hqd' hqs hqs'

/-- Every action keeps the invariant. The statements of one request leave the knowledge of the
others alone, as their locks differ. -/
theorem step_inv (h : WorldInv lib w) (a : Act) : WorldInv lib (w.step lib a) := by
  have heffect := step_effect lib w a
  generalize w.step lib a = w' at heffect
  cases heffect with
  | idle => exact h
  | create_user user hfresh => exact h.create_user hfresh
  | request request => exact h.request request
  | move hp phase hlocks hknown hsession =>
    exact h.move hp hlocks (hknown h.database (h.processes _ (List.mem_of_getElem? hp))) hsession
  | commit hp hphase hunique => exact h.commit hp hphase hunique

/-- Every run keeps the invariant. The induction is on the run. -/
theorem run_inv (lib : Library) (acts : List Act) : WorldInv lib (World.run lib acts) := by
  refine Transition.run_invariant (fun w a (h : WorldInv lib w) => step_inv h a) ?_ acts
  refine ⟨⟨List.nodup_nil, List.nodup_nil, List.nodup_nil, List.nodup_nil, ?_, ?_, ?_⟩, ?_, ?_, ?_⟩
  · exact fun _ h => absurd h List.not_mem_nil
  · exact fun _ h => absurd h List.not_mem_nil
  · exact fun _ h => absurd h List.not_mem_nil
  · exact Locks.exclusive_nil
  · exact fun _ h => absurd h List.not_mem_nil
  · exact fun _ _ _ _ _ hp => by cases hp

/-! ## Consequences for runs -/

/-- An action removes no row. -/
theorem step_grow (lib : Library) (w : World) (a : Act) :
    Grows w.database (w.step lib a).database := by
  have heffect := step_effect lib w a
  generalize w.step lib a = w' at heffect
  cases heffect with
  | commit => exact apply_grow _
  | idle | request | move => exact .refl _
  | create_user => exact create_user_grow _ _

/-- A revoked family and its tokens stay as they are. -/
def RevokedKept (db db' : Database) : Prop :=
  ∀ family ∈ db.sessions, family.revoked_at.isSome →
    family ∈ db'.sessions ∧ db'.tokens_of family.id = db.tokens_of family.id

/-- An action leaves the revoked families and their tokens as they are. -/
theorem step_revoked (h : WorldInv lib w) (a : Act) :
    RevokedKept w.database (w.step lib a).database := by
  intro family hfamily hrevoked
  have heffect := step_effect lib w a
  generalize w.step lib a = w' at heffect
  cases heffect with
  | commit hp hphase hunique =>
    have hknown := h.processes _ (List.mem_of_getElem? hp)
    simp only [ProcessInv, hphase] at hknown
    exact apply_revoked h.database hknown.1 hunique hfamily hrevoked
  | idle | request | move => exact ⟨hfamily, rfl⟩
  | create_user => exact ⟨hfamily, rfl⟩

/-- No request of number `i` that presents the token of a digest has a session, and the token is
consumed. -/
def Refused (lib : Library) (digest : String) (i : ℕ) (w : World) : Prop :=
  Consumed w.database digest ∧ ∀ p, w.processes[i]? = some p →
    p.request.presents lib = some digest → p.phase.session = none

/-- A request that presents a consumed token obtains no session in the next action. -/
theorem step_refused (h : WorldInv lib w) {digest : String} {i : ℕ}
    (hrefused : Refused lib digest i w) (a : Act) : Refused lib digest i (w.step lib a) := by
  refine ⟨hrefused.1.grow (step_grow lib w a), ?_⟩
  have heffect := step_effect lib w a
  generalize w.step lib a = w' at heffect
  obtain ⟨hconsumed, hnone⟩ := hrefused
  cases heffect with
  | idle => exact hnone
  | create_user => exact hnone
  -- A new request has no session yet.
  | request request =>
    intro p hp hpd
    rw [List.getElem?_append] at hp
    split_ifs at hp
    · exact hnone p hp hpd
    · rw [List.mem_singleton.mp (List.mem_of_getElem? hp)]
      rfl
  -- A statement obtains no session.
  | @move j p hp phase hlocks hknown hsession =>
    intro q hq hqd
    obtain ⟨r, hr, rfl⟩ := set_phase_getElem hq
    split_ifs at hqd ⊢ with hij
    · subst hij
      obtain rfl : r = p := Option.some.inj (hr.symm.trans hp)
      have hbefore := hnone r hr hqd
      by_contra hsome
      have hsome' := hsession (Option.isSome_iff_ne_none.mpr hsome)
      rw [hbefore] at hsome'
      cases hsome'
    · exact hnone r hr hqd
  -- A commit that obtains one has consumed the token itself, which was consumed before.
  | @commit j p hp locks writes result hphase hunique =>
    intro q hq hqd
    obtain ⟨r, hr, rfl⟩ := set_phase_getElem hq
    split_ifs at hqd ⊢ with hij
    · subst hij
      obtain rfl : r = p := Option.some.inj (hr.symm.trans hp)
      have hknown := h.processes r (List.mem_of_getElem? hr)
      simp only [ProcessInv, hphase] at hknown
      cases result with
      | none => rfl
      | some session =>
        obtain ⟨now, hrotate⟩ := hknown.2.2 digest hqd
        exact absurd hconsumed (commit_rotates h.database hrotate).1
    · exact hnone r hr hqd

/-- The access token of a revoked family is not accepted. -/
theorem principal_revoked {db : Database} (hdb : DatabaseInv db) {family : AuthSession}
    (hfamily : family ∈ db.sessions) (hrevoked : family.revoked_at.isSome) {access : String}
    {user_id : UUID} (hdecode : lib.decode_access access = some (user_id, family.id))
    (users_read : Database) (now : Timestamp) :
    get_current_principal lib users_read db (some access) now = none := by
  have hlookup : Keyed.lookup AuthSession.id family.id db.sessions = some family :=
    (Keyed.Unique.lookup_eq_some hdb.sessions).mpr ⟨hfamily, rfl⟩
  simp only [get_current_principal, hdecode, hlookup]
  split_ifs
  · rfl
  · cases Keyed.lookup User.id user_id users_read.users with
    | none => rfl
    | some user =>
      refine if_neg fun hvalid => ?_
      rw [session_valid_revoked hvalid.2] at hrevoked
      cases hrevoked

/-- The three outcomes of a refresh exclude each other. -/
theorem rotates_not_revokes {db db₁ db₂ : Database} (hdb : DatabaseInv db) {digest : String}
    (h : Rotates db db₁ digest) : ¬ Revokes db db₂ digest := by
  obtain ⟨t, ht, hdigest, hopen, -⟩ := h
  rintro ⟨t', ht', hdigest', hconsumed, -⟩
  rw [hdb.digests.eq_of_key ht' ht (hdigest'.trans hdigest.symm), hopen] at hconsumed
  cases hconsumed

/-- A rotation changes the database. -/
theorem rotates_ne {db db' : Database} {digest : String} (h : Rotates db db' digest) : db' ≠ db := by
  obtain ⟨t, -, -, -, now, next, -, -, -, rfl⟩ := h
  intro heq
  have hlength := congrArg (fun db => db.tokens.length) heq
  simp [Database.apply, Keyed.modify] at hlength

/-- A revocation changes the database. The family was not revoked before. -/
theorem revokes_ne {db db' : Database} (hdb : DatabaseInv db) {digest : String}
    (h : Revokes db db' digest) : db' ≠ db := by
  obtain ⟨t, -, -, -, family, hfamily, -, user, -, -, now, hvalid, rfl⟩ := h
  intro heq
  set revoked : AuthSession :=
    { family with revoked_at := some now, revoked_reason := some .refresh_replay } with hrevoked
  have hmem : revoked ∈ db.sessions := by
    rw [← congrArg Database.sessions heq]
    exact List.mem_map.mpr ⟨family, hfamily, if_pos (List.mem_singleton_self _)⟩
  have hsame : revoked = family := hdb.sessions.eq_of_key hmem hfamily rfl
  have hnone : revoked.revoked_at = none := hsame ▸ session_valid_revoked hvalid
  cases hnone

/-- What a decided refresh commits is a rotation with a session, a revocation or nothing. -/
theorem RefreshDecision.outcome {db : Database} {digest : String} {locks : List LockKey}
    {now : Timestamp} {writes : Writes} {result : Option IssuedSession}
    (h : RefreshDecision lib db digest locks now writes result) :
    (Rotates db (db.apply writes) digest ∧ result.isSome) ∨
      (Revokes db (db.apply writes) digest ∧ result = none) ∨
        (db.apply writes = db ∧ result = none) := by
  cases h with
  | rotate token_id refresh_token huser hfamily howner htoken hvalid hopen =>
    obtain ⟨hmem, hdigest, hsession⟩ := htoken
    exact Or.inl ⟨⟨_, hmem, hdigest, hopen, _, _, hsession.symm, rfl, rfl, rfl⟩, rfl⟩
  | revoke huser hfamily howner htoken hvalid hconsumed =>
    obtain ⟨hmem, hdigest, hsession⟩ := htoken
    exact Or.inr (Or.inl ⟨⟨_, hmem, hdigest, hconsumed, _, hfamily.1, hsession.symm, _, huser.1,
      howner.symm, now, hvalid.1, rfl⟩, rfl⟩)
  | unchanged => exact Or.inr (Or.inr ⟨rfl, rfl⟩)

/-- At a time, the token of a digest has not expired and its session is valid. -/
def Live (db : Database) (digest : String) (now : Timestamp) : Prop :=
  ∃ token ∈ db.tokens, token.digest = digest ∧ ∃ family ∈ db.sessions, family.id = token.session_id ∧
    ∃ user ∈ db.users, user.id = family.user_id ∧
      session_valid user.status family.revoked_at family.expires_at now = true ∧
        now < token.expires_at

/-- What a refresh that reads the clock at a time makes of the token of a digest. -/
structure Decides (db db' : Database) (digest : String) (now : Timestamp)
    (result : Option IssuedSession) : Prop where
  /-- An unconsumed token of a valid session is rotated. -/
  rotates : Live db digest now → ¬ Consumed db digest → Rotates db db' digest ∧ result.isSome
  /-- A consumed one revokes the family. -/
  revokes : Live db digest now → Consumed db digest → Revokes db db' digest ∧ result = none
  /-- The token of another session changes nothing. -/
  unchanged : ¬ Live db digest now → db' = db ∧ result = none

/-- Whether a token is live is told by its rows, which are its own. -/
theorem live_iff {db : Database} (hdb : DatabaseInv db) {user : User} {family : AuthSession}
    {token : RefreshToken} {now : Timestamp} (huser : user ∈ db.users) (hfamily : family ∈ db.sessions)
    (howner : family.user_id = user.id) (htoken : token ∈ db.tokens)
    (hsession : token.session_id = family.id) :
    Live db token.digest now ↔ session_valid user.status family.revoked_at family.expires_at now = true ∧
      now < token.expires_at := by
  constructor
  · rintro ⟨t, ht, hdigest, f, hf, hid, u, hu, howned, hvalid⟩
    obtain rfl : t = token := hdb.digests.eq_of_key ht htoken hdigest
    obtain rfl : f = family := hdb.sessions.eq_of_key hf hfamily (hid.trans hsession)
    obtain rfl : u = user := hdb.users.eq_of_key hu huser (howned.trans howner)
    exact hvalid
  · exact fun hvalid => ⟨token, htoken, rfl, family, hfamily, hsession.symm, user, huser, howner.symm,
      hvalid⟩

/-- A decision is the one that the state of the token and the time call for. -/
theorem RefreshDecision.decides {db : Database} (hdb : DatabaseInv db) {digest : String}
    {locks : List LockKey} {now : Timestamp} {writes : Writes} {result : Option IssuedSession}
    (h : RefreshDecision lib db digest locks now writes result) :
    Decides db (db.apply writes) digest now result := by
  have houtcome := h.outcome
  cases h with
  -- The token is live and unconsumed, so it is rotated and none of the other cases applies.
  | rotate token_id refresh_token huser hfamily howner htoken hvalid hopen =>
    obtain ⟨hmem, rfl, hsession⟩ := htoken
    have hlive := (live_iff hdb huser.1 hfamily.1 howner hmem hsession).mpr hvalid
    refine ⟨fun _ _ => ?_, fun _ hconsumed => ?_, fun hnot => absurd hlive hnot⟩
    · rcases houtcome with hrotates | ⟨-, hnone⟩ | ⟨-, hnone⟩
      · exact hrotates
      · cases hnone
      · cases hnone
    · obtain ⟨t, ht, hdigest, hsome⟩ := hconsumed
      rw [hdb.digests.eq_of_key ht hmem hdigest, hopen] at hsome
      cases hsome
  -- The token is live and consumed, so its family is revoked.
  | revoke huser hfamily howner htoken hvalid hconsumed =>
    obtain ⟨hmem, rfl, hsession⟩ := htoken
    have hlive := (live_iff hdb huser.1 hfamily.1 howner hmem hsession).mpr hvalid
    refine ⟨fun _ hnot => absurd ⟨_, hmem, rfl, hconsumed⟩ hnot, fun _ _ => ⟨?_, rfl⟩,
      fun hnot => absurd hlive hnot⟩
    exact ⟨_, hmem, rfl, hconsumed, _, hfamily.1, hsession.symm, _, huser.1, howner.symm, now,
      hvalid.1, rfl⟩
  -- The session of the token is not live, so nothing happens.
  | unchanged huser hfamily howner htoken hinvalid =>
    obtain ⟨hmem, rfl, hsession⟩ := htoken
    have hnot := mt (live_iff hdb huser.1 hfamily.1 howner hmem hsession).mp hinvalid
    exact ⟨fun hlive _ => absurd hlive hnot, fun hlive _ => absurd hlive hnot, fun _ => ⟨rfl, rfl⟩⟩

/-- The commit of a decided transaction. -/
theorem advance_decided {i : ℕ} {p : Process} (hp : w.processes[i]? = some p)
    {locks : List LockKey} {writes : Writes} {result : Option IssuedSession}
    (hphase : p.phase = .decided locks writes result)
    (hunique : w.database.violates writes = false) (draw : Draw) :
    w.step lib (.advance i draw) =
      { w with database := w.database.apply writes }.set_phase i (.committed result) := by
  simp only [World.step, World.advance, hp, hphase, hunique, Bool.false_eq_true, if_false]

/-- A refresh that holds the locks of its token's family decides at the time it reads. The decision
is the one of `refresh_decision` on the rows that are locked. -/
theorem advance_decides (h : WorldInv lib w) {i : ℕ} {p : Process} (hp : w.processes[i]? = some p)
    {digest : String} (hpresents : p.request.presents lib = some digest) {user : Option User}
    {family : Option AuthSession} (hphase : p.phase = .family_locked user family) (draw : Draw) :
    ∃ locks writes result,
      w.step lib (.advance i draw) = w.set_phase i (.decided locks writes result) ∧
        RefreshDecision lib w.database digest locks draw.now writes result := by
  have hknown := h.processes p (List.mem_of_getElem? hp)
  simp only [ProcessInv, hphase] at hknown
  obtain ⟨husers, hfamilies, hpresented⟩ := hknown
  obtain ⟨hsome, f, rfl, htoken⟩ := hpresented digest hpresents
  obtain ⟨u, rfl⟩ := Option.isSome_iff_exists.mp hsome
  obtain ⟨hfamily, howner⟩ := hfamilies f rfl
  -- Only a refresh presents a token.
  obtain ⟨refresh, hrequest, rfl⟩ : ∃ refresh, p.request = .refresh_session (some refresh) ∧
      lib.token_digest refresh = digest := by
    cases hrequest : p.request with
    | refresh_session refresh =>
      rw [hrequest] at hpresents
      cases refresh with
      | none => cases hpresents
      | some refresh => exact ⟨refresh, rfl, Option.some.inj hpresents⟩
    | login | disable_user | logout =>
      rw [hrequest] at hpresents
      cases hpresents
  obtain ⟨-, -, hdecision⟩ := refresh_decision_spec h.database lib (lib.token_digest refresh) draw
    (husers u rfl) hfamily (howner u rfl) htoken
  refine ⟨_, _, _, ?_, hdecision⟩
  simp only [World.step, World.advance, hp, hphase, hrequest, next_phase]

/-- Refresh-token families are linear. In every run, whatever requests arrive and however their
statements, commits and failures interleave:

* the tokens of every family form one chain, of which exactly the last is unconsumed; keys and
  digests of tokens are unique, and every token belongs to a family;
* a commit of a refresh with a token does exactly one of three things: it rotates the unconsumed
  token and yields a session, it revokes the family of the consumed token, or it changes nothing;
  the last two yield no session;
* which of them follows from the token: at the time that the refresh reads with the rows locked, an
  unconsumed token of a valid session is rotated, a consumed one revokes the family, and the token of
  another session changes nothing; so it is when the decision is made, and still at the commit;
* two requests with the same token do not both obtain a session, and a request that has not
  obtained one when its token is consumed never obtains one;
* a revoked family stays as it is, so do its tokens, and no access token bound to it is accepted. -/
theorem refresh_families_linear (lib : Library) (acts : List Act) :
    let w := World.run lib acts
    (∀ family ∈ w.database.sessions, Linear (w.database.tokens_of family.id) ∧
      (w.database.tokens_of family.id).countP (fun token => token.consumed_at.isNone) = 1) ∧
    (Keyed.Unique RefreshToken.id w.database.tokens ∧
      Keyed.Unique RefreshToken.digest w.database.tokens ∧
        ∀ token ∈ w.database.tokens, ∃ family ∈ w.database.sessions,
          family.id = token.session_id) ∧
    (∀ (i : ℕ) (p : Process) (digest : String) (locks : List LockKey) (writes : Writes)
      (result : Option IssuedSession) (draw : Draw), w.processes[i]? = some p →
      p.request.presents lib = some digest → p.phase = .decided locks writes result →
      w.database.violates writes = false →
        let w' := World.run lib (acts ++ [.advance i draw])
        w'.processes[i]? = some { p with phase := .committed result } ∧
        ((Rotates w.database w'.database digest ∧ result.isSome ∧
            ¬ Revokes w.database w'.database digest ∧ w'.database ≠ w.database) ∨
          (Revokes w.database w'.database digest ∧ result = none ∧
            ¬ Rotates w.database w'.database digest ∧ w'.database ≠ w.database) ∨
          (w'.database = w.database ∧ result = none ∧
            ¬ Rotates w.database w'.database digest ∧ ¬ Revokes w.database w'.database digest)) ∧
        ∃ now, Decides w.database w'.database digest now result) ∧
    (∀ (i : ℕ) (p : Process) (digest : String) (user : Option User) (family : Option AuthSession)
      (draw : Draw), w.processes[i]? = some p → p.request.presents lib = some digest →
      p.phase = .family_locked user family →
        let w' := World.run lib (acts ++ [.advance i draw])
        w'.database = w.database ∧ ∃ locks writes result,
          w'.processes[i]? = some { p with phase := .decided locks writes result } ∧
            Decides w.database (w.database.apply writes) digest draw.now result) ∧
    (∀ (i j : ℕ) (p q : Process) (digest : String), w.processes[i]? = some p →
      w.processes[j]? = some q → p.request.presents lib = some digest →
      q.request.presents lib = some digest → p.phase.session.isSome → q.phase.session.isSome →
        i = j) ∧
    (∀ (i : ℕ) (digest : String) (later : List Act), Refused lib digest i w →
      Refused lib digest i (World.run lib (acts ++ later))) ∧
    (∀ (family : AuthSession) (later : List Act), family ∈ w.database.sessions →
      family.revoked_at.isSome →
        let w' := World.run lib (acts ++ later)
        family ∈ w'.database.sessions ∧
          w'.database.tokens_of family.id = w.database.tokens_of family.id ∧
          ∀ (users_read : Database) (access : String) (user_id : UUID) (now : Timestamp),
            lib.decode_access access = some (user_id, family.id) →
              get_current_principal lib users_read w'.database (some access) now = none) := by
  intro w
  have hw : WorldInv lib w := run_inv lib acts
  have hlater : ∀ later, World.run lib (acts ++ later) = Transition.run (World.step lib) w later :=
    fun later => Transition.run_append _ _ _ _
  refine ⟨fun family hfamily => ?_, ⟨hw.database.tokens, hw.database.digests, hw.database.owned⟩,
    fun i p digest locks writes result draw hp hpd hphase hunique => ?_,
    fun i p digest user family draw hp hpd hphase => ?_, hw.single,
    fun i digest later hrefused => ?_, fun family later hfamily hrevoked => ?_⟩
  · -- Exactly the last token of a chain is unconsumed.
    have hlinear := hw.database.linear family hfamily
    exact ⟨hlinear, hlinear.countP_unconsumed⟩
  · -- The commit writes what was decided, and the three outcomes exclude each other.
    have hstep : World.run lib (acts ++ [.advance i draw]) =
        { w with database := w.database.apply writes }.set_phase i (.committed result) := by
      rw [hlater, Transition.run_cons, Transition.run_nil, advance_decided hp hphase hunique]
    rw [hstep]
    have hknown := hw.processes p (List.mem_of_getElem? hp)
    simp only [ProcessInv, hphase] at hknown
    obtain ⟨now, hdecision⟩ := hknown.2.2 digest hpd
    have houtcome := hdecision.outcome
    refine ⟨by simp [World.set_phase, hp], ?_, now, hdecision.decides hw.database⟩
    change (Rotates w.database (w.database.apply writes) digest ∧ _) ∨
      (Revokes w.database (w.database.apply writes) digest ∧ _) ∨
        (w.database.apply writes = w.database ∧ _)
    rcases houtcome with ⟨hrotates, hresult⟩ | ⟨hrevokes, hresult⟩ | ⟨heq, hresult⟩
    · exact Or.inl ⟨hrotates, hresult, rotates_not_revokes hw.database hrotates,
        rotates_ne hrotates⟩
    · exact Or.inr (Or.inl ⟨hrevokes, hresult,
        fun hrotates => rotates_not_revokes hw.database hrotates hrevokes,
        revokes_ne hw.database hrevokes⟩)
    · exact Or.inr (Or.inr ⟨heq, hresult, fun hrotates => rotates_ne hrotates heq,
        fun hrevokes => revokes_ne hw.database hrevokes heq⟩)
  · -- The statement decides and writes nothing.
    obtain ⟨locks, writes, result, hstep, hdecision⟩ := advance_decides hw hp hpd hphase draw
    have hrun : World.run lib (acts ++ [.advance i draw]) =
        w.set_phase i (.decided locks writes result) := by
      rw [hlater, Transition.run_cons, Transition.run_nil, hstep]
    rw [hrun]
    exact ⟨rfl, locks, writes, result, by simp [World.set_phase, hp], hdecision.decides hw.database⟩
  · -- A refused request stays refused, along the whole run.
    rw [hlater]
    exact (Transition.run_invariant
      (fun w a (h : WorldInv lib w ∧ Refused lib digest i w) =>
        And.intro (step_inv h.1 a) (step_refused h.1 h.2 a)) ⟨hw, hrefused⟩ later).2
  · intro w'
    have hw' : WorldInv lib w' := run_inv lib (acts ++ later)
    -- Steps keep revoked families, and so do runs of them.
    have hkept : RevokedKept w.database w'.database := by
      have hrel := Transition.run_related (R := fun w w' : World =>
        RevokedKept w.database w'.database) (fun w family hf _ => ⟨hf, rfl⟩)
        (fun w₁ w₂ w₃ h₁₂ h₂₃ family hf hr => ?_) (fun w a (h : WorldInv lib w) => step_inv h a)
        (fun w a h => step_revoked h a) hw later
      · rwa [← hlater] at hrel
      · obtain ⟨hf₂, htokens₂⟩ := h₁₂ family hf hr
        obtain ⟨hf₃, htokens₃⟩ := h₂₃ family hf₂ hr
        exact ⟨hf₃, htokens₃.trans htokens₂⟩
    obtain ⟨hfamily', htokens⟩ := hkept family hfamily hrevoked
    exact ⟨hfamily', htokens, fun users_read access user_id now hdecode =>
      principal_revoked hw'.database hfamily' hrevoked hdecode users_read now⟩

/-- A login, a rotation of its token, and a replay of that token: the replay revokes the family. -/
example :
    let lib : Library := ⟨id, fun _ => none, id⟩
    let draw (token : String) (id : UUID) : Draw := ⟨0, id, 7, token, true, none, 100⟩
    let refresh (i : ℕ) : List Act :=
      .request (.refresh_session (some "a")) :: List.replicate 5 (.advance i (draw "b" 2))
    let w := World.run lib ([.create_user ⟨1, "u", "", .active⟩, .request (.login "u")] ++
      List.replicate 3 (.advance 0 (draw "a" 1)) ++ refresh 1 ++ refresh 2)
    w.database.sessions.map (·.revoked_reason) = [some .refresh_replay] ∧
      w.database.tokens.map (·.successor_id) = [some 2, none] ∧
        w.processes.map (fun p => p.phase.session.isSome) = [true, true, false] := by
  decide

end RestaurantOS.Auth
