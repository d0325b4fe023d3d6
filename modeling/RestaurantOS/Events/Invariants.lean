import RestaurantOS.Events.Accounting

/-!
# Invariants of the worker system

`DatabaseStep` says what an action can do to the database: change delivery records by elementary
changes, insert an event with its deliveries, or commit one effect. `DatabaseInv` holds in every
state that such steps reach: the keys are unique, every record has the accounting invariant, and the
committed effects are exactly the receipts. `WorldInv` adds what ties the claims that executions hold
in memory to the rows: an identifier of a claim is never drawn again, so a claim that has lost its
delivery never owns it again. `step_database` and `WorldInv.step` show that every action keeps both.
-/

namespace RestaurantOS.Events

variable {π ρ : Type}

/-! ## What an action can do to the database -/

/-- The changes of the database by one action. -/
inductive DatabaseStep (policy : RetryPolicy) : Database π → Database π → Prop
  /-- Delivery records are changed by elementary changes. -/
  | rows {db : Database π} (next : UUID) (f : DeliveryRecord → DeliveryRecord)
    (hnext : db.next_uuid ≤ next)
    (hf : ∀ r ∈ db.deliveries, RecordSteps policy db.next_uuid next r (f r)) :
    DatabaseStep policy db { db with deliveries := db.deliveries.map f, next_uuid := next }
  /-- An event is inserted with deliveries to different consumers. -/
  | inserted {db : Database π} (event : OutboxEvent π) (consumers : List ConsumerName)
    (now : Timestamp) : DatabaseStep policy db (db.persist event consumers now)
  /-- An effect is committed. -/
  | committed {db : Database π} {r r' : DeliveryRecord} (hr : r ∈ db.deliveries)
    (hcommit : CommitStep r r') : DatabaseStep policy db (db.write_effect (some r'))

/-- The identifiers in a record have been drawn. -/
def DeliveryRecord.Drawn (next : UUID) (r : DeliveryRecord) : Prop :=
  (∀ token, r.delivery.claim_token = some token → token < next) ∧
    ∀ a ∈ r.attempts, a.id < next ∧ ∀ token, a.claim_token = some token → token < next

/-- The invariant of the database. It is about the rows alone, and every transaction keeps it. -/
structure DatabaseInv (policy : RetryPolicy) (db : Database π) : Prop where
  /-- The primary keys of the deliveries are unique. -/
  ids : Keyed.Unique DeliveryRecord.id db.deliveries
  /-- There is one delivery for an event and a consumer. -/
  routes : Keyed.Unique DeliveryRecord.route db.deliveries
  /-- Every delivery has the accounting invariant. -/
  records : ∀ r ∈ db.deliveries, RecordInv policy r
  /-- Every identifier has been drawn. -/
  drawn : ∀ r ∈ db.deliveries, r.id < db.next_uuid ∧ r.Drawn db.next_uuid
  /-- Every delivery refers to an event. -/
  events : ∀ r ∈ db.deliveries,
    (Keyed.lookup OutboxEvent.event_id r.delivery.event_id db.events).isSome
  /-- The committed effects of a route are its receipts. -/
  effects : ∀ route, db.effects.count route =
    db.deliveries.countP fun r => r.route = route && r.receipt.isSome

/-- The invariant of a claim that an execution of `route` holds: it is a claim of that delivery, and
the attempt under its token is its own. -/
structure ClaimInv (db : Database π) (route : UUID × ConsumerName) (claim : AttemptClaim ρ) :
    Prop where
  /-- The claimed delivery. -/
  route_eq : claim.route = route
  /-- The token has been drawn. -/
  drawn : claim.token < db.next_uuid
  /-- No other attempt has the token. -/
  attempt : ∀ r ∈ db.deliveries, ∀ a ∈ r.attempts, a.claim_token = some claim.token →
    a.id = claim.attempt_id

/-! ## The records under elementary changes -/

section Records

variable {policy : RetryPolicy} {fresh next : UUID} {r r' : DeliveryRecord}

/-- Where the attempts of a record come from: each was there with its identifier and its token, or
has a token that the transaction drew. -/
theorem RecordStep.attempts (h : RecordStep policy fresh next r r') :
    ∀ a ∈ r'.attempts, (∃ b ∈ r.attempts, a.id = b.id ∧ a.claim_token = b.claim_token) ∨
      (a.id < next ∧ ∃ token, a.claim_token = some token ∧ fresh ≤ token ∧ token < next) := by
  cases h with
  | released now | recovered service now =>
    intro a ha
    obtain ⟨b, hb, rfl⟩ := List.mem_map.mp ha
    exact Or.inl ⟨b, hb, by split_ifs <;> rfl, by split_ifs <;> rfl⟩
  -- Finishing an attempt keeps its identifier and its token.
  | settled attempt_id =>
    intro a ha
    obtain ⟨b, hb, rfl⟩ := List.mem_map.mp ha
    exact Or.inl ⟨b, hb, by split_ifs <;> rfl, by split_ifs <;> rfl⟩
  -- The attempt that is charged takes its token and identifier from the transaction.
  | begun token attempt_id _ _ _ _ _ htoken hattempt
  | rejected token attempt_id _ _ _ _ _ _ _ htoken hattempt =>
    intro a ha
    rcases List.mem_append.mp ha with ha | ha
    · exact Or.inl ⟨a, ha, rfl, rfl⟩
    · rw [List.mem_singleton.mp ha]
      exact Or.inr ⟨hattempt, token, rfl, htoken⟩
  | _ => exact fun a ha => Or.inl ⟨a, ha, rfl, rfl⟩

/-- Where the claim token of a record comes from. It is released, kept by a pending row, or drawn by
the change itself. -/
theorem RecordStep.claim_token (h : RecordStep policy fresh next r r') :
    r'.delivery.claim_token = none ∨
      (r'.delivery.claim_token = r.delivery.claim_token ∧ r'.delivery.status = .pending) ∨
      ∃ token, r'.delivery.claim_token = some token ∧ fresh ≤ token ∧ token < next := by
  cases h with
  | begun token _ _ _ _ _ _ htoken => exact Or.inr (Or.inr ⟨token, rfl, htoken⟩)
  | relay_claimed token _ _ _ _ htoken => exact Or.inr (Or.inr ⟨token, rfl, htoken⟩)
  | deferred _ _ _ hstatus => exact Or.inr (Or.inl ⟨rfl, hstatus⟩)
  | _ => exact Or.inl rfl

/-- The identifiers of a changed record have been drawn after the change. -/
theorem RecordStep.drawn (h : RecordStep policy fresh next r r') (hr : r.Drawn next) :
    r'.Drawn next := by
  refine ⟨fun token htoken => ?_, fun a ha => ?_⟩
  · rcases h.claim_token with hnone | ⟨hsame, -⟩ | ⟨new, hnew, -, hlt⟩
    · rw [hnone] at htoken
      cases htoken
    · exact hr.1 token (hsame ▸ htoken)
    · rw [hnew] at htoken
      cases htoken
      exact hlt
  · rcases h.attempts a ha with ⟨b, hb, hid, htok⟩ | ⟨hid, new, hnew, -, hlt⟩
    · rw [hid, htok]
      exact hr.2 b hb
    · refine ⟨hid, fun token htoken => ?_⟩
      rw [hnew] at htoken
      cases htoken
      exact hlt

/-- A claim that does not own a record still does not own it after a change: a record is claimed for
processing only under a new token. -/
theorem RecordStep.not_owned (h : RecordStep policy fresh next r r') {claim : AttemptClaim ρ}
    (hdrawn : claim.token < fresh) : r'.owned_by claim = false := by
  rw [DeliveryRecord.owned_by, Bool.and_eq_false_iff, decide_eq_false_iff_not,
    decide_eq_false_iff_not]
  rcases h.claim_token with hnone | ⟨-, hpending⟩ | ⟨new, hnew, hle, -⟩
  · right
    rw [hnone]
    rintro ⟨⟩
  · left
    rw [hpending]
    rintro ⟨⟩
  · right
    rw [hnew]
    intro heq
    cases heq
    exact absurd hdrawn (not_lt.mpr hle)

/-- A claim that does not own a record does not own it after any changes. -/
theorem RecordSteps.not_owned (h : RecordSteps policy fresh next r r') {claim : AttemptClaim ρ}
    (hdrawn : claim.token < fresh) (hr : r.owned_by claim = false) : r'.owned_by claim = false := by
  cases h with
  | refl => exact hr
  | tail _ hlast => exact hlast.not_owned hdrawn

/-- A sequence of changes keeps the receipt. -/
theorem RecordSteps.receipt (h : RecordSteps policy fresh next r r') : r'.receipt = r.receipt :=
  h.keeps (P := fun x => x.receipt = r.receipt) (fun hstep hx => hstep.receipt.2.trans hx) rfl

/-- A delivery that has succeeded is not changed. -/
theorem RecordSteps.succeeded (h : RecordSteps policy fresh next r r')
    (hr : r.delivery.status = .succeeded) : r' = r := by
  cases h using Relation.ReflTransGen.head_induction_on with
  | refl => rfl
  | head hfirst => exact absurd hr hfirst.not_succeeded

/-- Attempts under a drawn token keep their identifiers, and no attempt is added under it. -/
theorem RecordSteps.attempts_of_token (h : RecordSteps policy fresh next r r') {token : UUID}
    {id : UUID} (hdrawn : token < fresh)
    (hr : ∀ a ∈ r.attempts, a.claim_token = some token → a.id = id) :
    ∀ a ∈ r'.attempts, a.claim_token = some token → a.id = id := by
  refine h.keeps (P := fun x => ∀ a ∈ x.attempts, a.claim_token = some token → a.id = id) ?_ hr
  intro x x' hstep hx a ha htoken
  rcases hstep.attempts a ha with ⟨b, hb, hid, htok⟩ | ⟨-, new, hnew, hle, -⟩
  · rw [hid]
    exact hx b hb (htok ▸ htoken)
  · rw [hnew] at htoken
    cases htoken
    exact absurd hdrawn (not_lt.mpr hle)

/-- A committed effect keeps the identity of the delivery and its attempts' identifiers. -/
theorem CommitStep.frame (h : CommitStep r r') : r'.id = r.id ∧ r'.route = r.route ∧
    r'.delivery.claim_token = none ∧ r'.delivery.status = .succeeded ∧ r'.receipt.isSome ∧
    ∀ a ∈ r'.attempts, ∃ b ∈ r.attempts, a.id = b.id ∧ a.claim_token = b.claim_token := by
  obtain ⟨attempt_id, outcome, now, -, rfl⟩ := h.commit
  refine ⟨rfl, rfl, rfl, rfl, rfl, fun a ha => ?_⟩
  obtain ⟨b, hb, rfl⟩ := List.mem_map.mp ha
  exact ⟨b, hb, by split_ifs <;> rfl, by split_ifs <;> rfl⟩

end Records

/-! ## The database -/

namespace Database

variable {policy : RetryPolicy} {db : Database π}

/-- A written row replaces the one it was read from. -/
theorem write_eq (r : DeliveryRecord) :
    (db.write (some r)).deliveries = db.deliveries.map fun x => if x.id = r.id then r else x := rfl

/-- The deliveries of a new event: one for each consumer, under the next identifiers, without
history. -/
theorem mem_inserted {event_id next : UUID} {now : Timestamp} {consumers : List ConsumerName}
    {r : DeliveryRecord} (h : r ∈ inserted_deliveries event_id now next consumers) :
    r.id < next + consumers.length ∧
      ∃ id consumer, r = ⟨.inserted id event_id consumer now, [], none, []⟩ := by
  induction consumers generalizing next with
  | nil => cases h
  | cons consumer consumers ih =>
    rw [List.length_cons]
    rcases List.mem_cons.mp h with rfl | h
    · refine ⟨?_, next, consumer, rfl⟩
      show next < _
      lia
    · obtain ⟨hid, hr⟩ := ih h
      exact ⟨by lia, hr⟩

/-- The identifiers of the new deliveries are consecutive. -/
theorem inserted_ids (event_id next : UUID) (now : Timestamp) (consumers : List ConsumerName) :
    (inserted_deliveries event_id now next consumers).map DeliveryRecord.id =
      List.range' next consumers.length := by
  induction consumers generalizing next with
  | nil => rfl
  | cons consumer consumers ih =>
    rw [inserted_deliveries, List.map_cons, ih, List.length_cons, List.range'_succ]
    rfl

/-- The routes of the new deliveries. -/
theorem inserted_routes (event_id next : UUID) (now : Timestamp) (consumers : List ConsumerName) :
    (inserted_deliveries event_id now next consumers).map DeliveryRecord.route =
      consumers.map fun consumer => (event_id, consumer) := by
  induction consumers generalizing next with
  | nil => rfl
  | cons consumer consumers ih =>
    rw [inserted_deliveries, List.map_cons, ih, List.map_cons]
    rfl

end Database

namespace DatabaseStep

variable {policy : RetryPolicy} {db : Database π}

/-- An action that leaves the database as it is. -/
theorem refl (db : Database π) : DatabaseStep policy db db := by
  have h : DatabaseStep policy db
      { db with deliveries := db.deliveries.map id, next_uuid := db.next_uuid } :=
    .rows db.next_uuid id le_rfl fun _ _ => .refl
  rwa [List.map_id] at h

/-- A row is read and written back with elementary changes. -/
theorem write (hinv : DatabaseInv policy db) {next : UUID} (hnext : db.next_uuid ≤ next)
    {r r' : DeliveryRecord} (hr : r ∈ db.deliveries)
    (hsteps : RecordSteps policy db.next_uuid next r r') :
    DatabaseStep policy db { db.write (some r') with next_uuid := next } := by
  refine .rows next (fun x => if x.id = r'.id then r' else x) hnext fun x hx => ?_
  split_ifs with hid
  · have : x = r := hinv.ids.eq_of_key hx hr (hid.trans hsteps.identity.1)
    rw [this]
    exact hsteps
  · exact .refl

end DatabaseStep

namespace DatabaseInv

variable {policy : RetryPolicy} {db db' : Database π}

/-- The empty database has the invariant. -/
theorem initial (policy : RetryPolicy) : DatabaseInv policy (⟨[], [], [], 0⟩ : Database π) :=
  ⟨List.nodup_nil, List.nodup_nil, by simp, by simp, by simp, by simp⟩

/-- A route has at most one committed effect. The effects are listed without duplicates. -/
theorem effects_le_one (h : DatabaseInv policy db) (route : UUID × ConsumerName) :
    db.effects.count route ≤ 1 := by
  rw [h.effects]
  calc (db.deliveries.countP fun r => r.route = route && r.receipt.isSome)
      ≤ db.deliveries.countP fun r => r.route = route :=
        List.countP_mono_left fun r _ hr => by simp_all
    _ = (db.deliveries.map DeliveryRecord.route).count route := by
        rw [List.count, List.countP_map]
        exact List.countP_congr fun r _ => by simp
    _ ≤ 1 := List.nodup_iff_count_le_one.mp h.routes route

/-- Changing records by elementary changes keeps the invariant. No route changes, and every
identifier that is drawn is new. -/
theorem rows (h : DatabaseInv policy db) {next : UUID} {f : DeliveryRecord → DeliveryRecord}
    (hnext : db.next_uuid ≤ next)
    (hf : ∀ r ∈ db.deliveries, RecordSteps policy db.next_uuid next r (f r)) :
    DatabaseInv policy { db with deliveries := db.deliveries.map f, next_uuid := next } := by
  refine ⟨h.ids.map fun r hr => (hf r hr).identity.1, h.routes.map fun r hr => (hf r hr).identity.2,
    ?_, ?_, ?_, ?_⟩
  · -- The records keep their invariant through the elementary changes.
    intro r' hr'
    obtain ⟨r, hr, rfl⟩ := List.mem_map.mp hr'
    exact (hf r hr).keeps (fun hstep hx => hx.step hstep) (h.records r hr)
  · -- What has been drawn lies below the next identifier, before and after.
    intro r' hr'
    obtain ⟨r, hr, rfl⟩ := List.mem_map.mp hr'
    obtain ⟨hid, hdrawn⟩ := h.drawn r hr
    refine ⟨?_, (hf r hr).keeps (fun hstep hx => hstep.drawn hx) ?_⟩
    · rw [(hf r hr).identity.1]
      exact hid.trans_le hnext
    · exact ⟨fun t ht => (hdrawn.1 t ht).trans_le hnext, fun a ha =>
        ⟨(hdrawn.2 a ha).1.trans_le hnext, fun t ht => ((hdrawn.2 a ha).2 t ht).trans_le hnext⟩⟩
  · -- The rows keep their events.
    intro r' hr'
    obtain ⟨r, hr, rfl⟩ := List.mem_map.mp hr'
    have hevent : (f r).delivery.event_id = r.delivery.event_id :=
      congrArg Prod.fst (hf r hr).identity.2
    rw [hevent]
    exact h.events r hr
  · -- No elementary change writes a receipt, so the log of effects still agrees.
    intro route
    rw [h.effects, List.countP_map]
    refine List.countP_congr fun r hr => ?_
    simp [(hf r hr).identity.2, (hf r hr).receipt]

/-- Inserting an event with its deliveries keeps the invariant. A key that exists already violates a
constraint, and nothing is inserted. -/
theorem persist (h : DatabaseInv policy db) (event : OutboxEvent π) (consumers : List ConsumerName)
    (now : Timestamp) : DatabaseInv policy (db.persist event consumers now) := by
  unfold Database.persist
  split_ifs with hguard
  · exact h
  push Not at hguard
  obtain ⟨hnew, hnodup⟩ := hguard
  have hnew : Keyed.lookup OutboxEvent.event_id event.event_id db.events = none := by
    simpa using hnew
  -- No delivery refers to the new event yet.
  have hfresh : ∀ r ∈ db.deliveries, r.delivery.event_id ≠ event.event_id := by
    intro r hr heq
    have := h.events r hr
    rw [heq, hnew] at this
    cases this
  refine ⟨?_, ?_, ?_, ?_, ?_, ?_⟩
  · -- The identifiers of the new rows lie above those given out before.
    rw [Keyed.Unique, List.map_append, Database.inserted_ids, List.nodup_append]
    refine ⟨h.ids, List.nodup_range', ?_⟩
    rintro id hid id' hid' rfl
    obtain ⟨r, hr, rfl⟩ := List.mem_map.mp hid
    have hlt : r.id < db.next_uuid := (h.drawn r hr).1
    have hle : db.next_uuid ≤ r.id := (List.mem_range'_1.mp hid').1
    lia
  · -- The routes of the new rows are of the new event.
    rw [Keyed.Unique, List.map_append, Database.inserted_routes, List.nodup_append]
    refine ⟨h.routes, hnodup.map fun c c' hc => congrArg Prod.snd hc, ?_⟩
    rintro route hroute route' hroute' rfl
    obtain ⟨r, hr, rfl⟩ := List.mem_map.mp hroute
    obtain ⟨consumer, -, hc⟩ := List.mem_map.mp hroute'
    exact hfresh r hr (congrArg Prod.fst hc).symm
  · intro r hr
    rcases List.mem_append.mp hr with hr | hr
    · exact h.records r hr
    · obtain ⟨-, id, consumer, rfl⟩ := Database.mem_inserted hr
      exact RecordInv.inserted ..
  · intro r hr
    rcases List.mem_append.mp hr with hr | hr
    · obtain ⟨hid, htoken, hattempts⟩ := h.drawn r hr
      have hle : db.next_uuid ≤ db.next_uuid + consumers.length := by lia
      exact ⟨hid.trans_le hle, fun t ht => (htoken t ht).trans_le hle, fun a ha =>
        ⟨(hattempts a ha).1.trans_le hle, fun t ht => ((hattempts a ha).2 t ht).trans_le hle⟩⟩
    · obtain ⟨hid, id, consumer, rfl⟩ := Database.mem_inserted hr
      exact ⟨hid, nofun, fun a ha => absurd ha List.not_mem_nil⟩
  · intro r hr
    rw [Keyed.lookup_append]
    rcases List.mem_append.mp hr with hr | hr
    · rw [Option.isSome_or, h.events r hr, Bool.true_or]
    · obtain ⟨-, id, consumer, rfl⟩ := Database.mem_inserted hr
      simp [EventDelivery.inserted]
  · -- A new row has no receipt.
    intro route
    have hnone : (Database.inserted_deliveries event.event_id now db.next_uuid consumers).countP
        (fun r => r.route = route && r.receipt.isSome) = 0 := by
      rw [List.countP_eq_zero]
      intro r hr
      obtain ⟨-, id, consumer, rfl⟩ := Database.mem_inserted hr
      simp
    rw [h.effects, List.countP_append, hnone, add_zero]

/-- Committing an effect keeps the invariant. The receipt of the row is new, so the effect is not
listed yet. -/
theorem committed (h : DatabaseInv policy db) {r r' : DeliveryRecord} (hr : r ∈ db.deliveries)
    (hcommit : CommitStep r r') : DatabaseInv policy (db.write_effect (some r')) := by
  obtain ⟨hid, hroute, htoken, -, hreceipt, hattempts⟩ := hcommit.frame
  -- The only row under this key is the one that the effect was committed on.
  have hkey : ∀ x ∈ db.deliveries, x.id = r'.id → x = r := fun x hx hxid =>
    h.ids.eq_of_key hx hr (hxid.trans hid)
  have hmem : ∀ x ∈ (db.write_effect (some r')).deliveries, x ∈ db.deliveries ∨ x = r' := by
    intro x hx
    rcases Keyed.mem_put hx with ⟨hx, -⟩ | rfl
    · exact Or.inl hx
    · exact Or.inr rfl
  refine ⟨h.ids.put r', ?_, ?_, ?_, ?_, ?_⟩
  · -- The routes are those from before.
    refine h.routes.map fun x hx => ?_
    split_ifs with hxid
    · rw [hkey x hx hxid, hroute]
    · rfl
  · intro x hx
    rcases hmem x hx with hx | rfl
    · exact h.records x hx
    · exact (h.records r hr).commit hcommit
  · -- Committing draws no identifier.
    intro x hx
    rcases hmem x hx with hx | rfl
    · exact h.drawn x hx
    · obtain ⟨hlt, -, hdrawn⟩ := h.drawn r hr
      refine ⟨hid ▸ hlt, fun t ht => ?_, fun a ha => ?_⟩
      · rw [htoken] at ht
        cases ht
      · obtain ⟨b, hb, haid, hatok⟩ := hattempts a ha
        rw [haid, hatok]
        exact hdrawn b hb
  · intro x hx
    rcases hmem x hx with hx | rfl
    · exact h.events x hx
    · have hevent : x.delivery.event_id = r.delivery.event_id := congrArg Prod.fst hroute
      rw [hevent]
      exact h.events r hr
  · intro route
    -- The written row gains its receipt where the log gains its effect.
    have hcount := Keyed.countP_modify h.ids hr (fun _ => r') fun x =>
      decide (x.route = route) && x.receipt.isSome
    rw [← hid] at hcount
    simp only [hcommit.receipt, hreceipt, hroute, Option.isSome_none, Bool.and_false, Bool.and_true,
      Bool.toNat_false, add_zero] at hcount
    show (db.effects ++ [r'.route]).count route = _
    rw [List.count_append, h.effects]
    refine Eq.trans ?_ hcount.symm
    rw [hroute, List.count_singleton]
    by_cases hx : r.route = route <;> simp [hx]

/-- Every action on the database keeps the invariant. -/
theorem step (h : DatabaseInv policy db) (hstep : DatabaseStep policy db db') :
    DatabaseInv policy db' := by
  cases hstep with
  | rows next f hnext hf => exact h.rows hnext hf
  | inserted event consumers now => exact h.persist event consumers now
  | committed hr hcommit => exact h.committed hr hcommit

end DatabaseInv

/-! ## What actions on the database cannot undo -/

namespace DatabaseStep

variable {policy : RetryPolicy} {db db' : Database π}

/-- Identifiers are drawn in order. No transaction gives one back. -/
theorem next_uuid_le (hstep : DatabaseStep policy db db') : db.next_uuid ≤ db'.next_uuid := by
  cases hstep with
  | rows next f hnext hf => exact hnext
  | inserted event consumers now =>
    unfold Database.persist
    split_ifs
    · exact le_rfl
    · exact Nat.le_add_right _ _
  | committed hr hcommit => exact le_rfl

/-- The new state of a delivery record: the old one after elementary changes, or after a committed
effect; a record that was not there has just been inserted. -/
theorem mem_after (hstep : DatabaseStep policy db db') {r' : DeliveryRecord}
    (hr' : r' ∈ db'.deliveries) :
    (∃ r ∈ db.deliveries, (∃ next, RecordSteps policy db.next_uuid next r r') ∨ CommitStep r r') ∨
      ∃ id event_id consumer now, r' = ⟨.inserted id event_id consumer now, [], none, []⟩ := by
  cases hstep with
  | rows next f hnext hf =>
    obtain ⟨r, hr, rfl⟩ := List.mem_map.mp hr'
    exact Or.inl ⟨r, hr, Or.inl ⟨next, hf r hr⟩⟩
  | inserted event consumers now =>
    unfold Database.persist at hr'
    split_ifs at hr'
    · exact Or.inl ⟨r', hr', Or.inl ⟨0, .refl⟩⟩
    · rcases List.mem_append.mp hr' with hr' | hr'
      · exact Or.inl ⟨r', hr', Or.inl ⟨0, .refl⟩⟩
      · obtain ⟨-, id, consumer, rfl⟩ := Database.mem_inserted hr'
        exact Or.inr ⟨id, _, consumer, now, rfl⟩
  -- The rows but one are kept, and that one has a committed effect.
  | @committed r _ hr hcommit =>
    rcases Keyed.mem_put hr' with ⟨hr', -⟩ | rfl
    · exact Or.inl ⟨r', hr', Or.inl ⟨0, .refl⟩⟩
    · exact Or.inl ⟨r, hr, Or.inr hcommit⟩

/-- A delivery that has succeeded stays as it is. No elementary change applies to it. -/
theorem succeeded (hinv : DatabaseInv policy db) (hstep : DatabaseStep policy db db')
    {r : DeliveryRecord} (hr : r ∈ db.deliveries) (hsucc : r.delivery.status = .succeeded) :
    r ∈ db'.deliveries := by
  cases hstep with
  | rows next f hnext hf =>
    rw [← (hf r hr).succeeded hsucc]
    exact List.mem_map_of_mem hr
  | inserted event consumers now =>
    unfold Database.persist
    split_ifs
    · exact hr
    · exact List.mem_append_left _ hr
  | @committed x x' hx hcommit =>
    have hne : r.id ≠ x'.id := by
      intro hid
      have hrx : r = x := hinv.ids.eq_of_key hr hx (hid.trans hcommit.frame.1)
      rw [hrx, hcommit.status] at hsucc
      cases hsucc
    exact List.mem_map.mpr ⟨r, hr, if_neg hne⟩

/-- No action gives the delivery of a route back to a claim that does not own it. -/
theorem not_owned (hstep : DatabaseStep policy db db') {claim : AttemptClaim ρ}
    (hdrawn : claim.token < db.next_uuid) {route : UUID × ConsumerName}
    (hstale : ∀ r ∈ db.deliveries, r.route = route → r.owned_by claim = false) :
    ∀ r ∈ db'.deliveries, r.route = route → r.owned_by claim = false := by
  intro r' hr' hroute
  rcases hstep.mem_after hr' with ⟨r, hr, ⟨next, hsteps⟩ | hcommit⟩ | ⟨_, _, _, _, rfl⟩
  · exact hsteps.not_owned hdrawn (hstale r hr (hsteps.identity.2.symm.trans hroute))
  · rw [DeliveryRecord.owned_by, hcommit.frame.2.2.2.1]
    rfl
  · rfl

end DatabaseStep

namespace ClaimInv

variable {policy : RetryPolicy} {db db' : Database π} {route : UUID × ConsumerName}
  {claim : AttemptClaim ρ}

/-- Every action on the database keeps the invariant of the claims. -/
theorem step (h : ClaimInv db route claim) (hstep : DatabaseStep policy db db') :
    ClaimInv db' route claim := by
  refine ⟨h.route_eq, h.drawn.trans_le hstep.next_uuid_le, fun r' hr' => ?_⟩
  rcases hstep.mem_after hr' with ⟨r, hr, ⟨next, hsteps⟩ | hcommit⟩ | ⟨_, _, _, _, rfl⟩
  · exact hsteps.attempts_of_token h.drawn (h.attempt r hr)
  · intro a ha htoken
    obtain ⟨b, hb, hid, htok⟩ := hcommit.frame.2.2.2.2.2 a ha
    rw [hid]
    exact h.attempt r hr b hb (htok ▸ htoken)
  · exact fun a ha => absurd ha List.not_mem_nil

/-- The running attempt of a delivery that a claim owns is the claim's. -/
theorem running (h : ClaimInv db route claim) (hinv : DatabaseInv policy db) {r : DeliveryRecord}
    (hr : r ∈ db.deliveries) (howned : r.owned_by claim = true) :
    ∀ a ∈ r.running_attempts, a.id = claim.attempt_id := by
  simp only [DeliveryRecord.owned_by, Bool.and_eq_true, decide_eq_true_eq] at howned
  obtain ⟨b, hrunning, -, htoken, -⟩ := (hinv.records r hr).processing howned.1
  intro a ha
  have hab : a = b := by
    rw [hrunning] at ha
    exact List.mem_singleton.mp ha
  subst hab
  exact h.attempt r hr a (List.mem_filter.mp ha).1 (htoken.trans howned.2)

/-- The attempt of a claim that owns its delivery exists. -/
theorem has_attempt (h : ClaimInv db route claim) (hinv : DatabaseInv policy db)
    {r : DeliveryRecord} (hr : r ∈ db.deliveries) (howned : r.owned_by claim = true) :
    r.has_attempt claim.attempt_id = true := by
  have hstatus : r.delivery.status = .processing := by
    simp only [DeliveryRecord.owned_by, Bool.and_eq_true, decide_eq_true_eq] at howned
    exact howned.1
  obtain ⟨b, hrunning, -⟩ := (hinv.records r hr).processing hstatus
  have hb : b ∈ r.running_attempts := by rw [hrunning]; exact List.mem_singleton_self b
  have hlookup := (hinv.records r hr).attempt_ids.lookup_eq_some.mpr
    ⟨(List.mem_filter.mp hb).1, h.running hinv hr howned b hb⟩
  rw [DeliveryRecord.has_attempt, hlookup]
  rfl

end ClaimInv

end RestaurantOS.Events
