import RestaurantOS.Events.Handling
import RestaurantOS.Events.Publications
import RestaurantOS.Lib.Numerals

/-!
# The reference of an open delivery is outstanding

While a delivery is open and observed as published, the stream holds a message that refers to it and
that its group has not acknowledged, unless Redis has forgotten the message. The invariant of the system
says so of the delivery rows, and of the publications that a relay has not observed yet: as long as its
claim stands, the message that it has added is outstanding. Every action keeps it (`Inv.step`).
-/

namespace RestaurantOS.Events

variable {π ρ : Type}

/-- No action changes an event. Rows of the outbox are inserted and never changed. -/
theorem DatabaseStep.lookup_event {policy : RetryPolicy} {db db' : Database π}
    (h : DatabaseStep policy db db') {event_id : UUID} {event : OutboxEvent π}
    (hevent : Keyed.lookup OutboxEvent.event_id event_id db.events = some event) :
    Keyed.lookup OutboxEvent.event_id event_id db'.events = some event := by
  cases h with
  | rows next f hnext hf => exact hevent
  | inserted event' consumers now =>
    unfold Database.persist
    split_ifs
    · exact hevent
    · rw [Keyed.lookup_append, hevent]
      rfl
  | committed hr hcommit => exact hevent

namespace Transport

/-- A deployment in which the text of an identifier is read back as the identifier. -/
structure LawfulDeployment (π ρ : Type) extends Deployment π ρ where
  /-- `UUID(str(id)) == id`. -/
  parse_str : ∀ id, parse_uuid (str_uuid id) = some id

/-- There is one for every validation of rows, with numerals for identifiers. -/
def LawfulDeployment.numeral (validate_python : OutboxEvent π → Validation ρ) :
    LawfulDeployment π ρ where
  policy := .default
  validate_python := validate_python
  parse_uuid := fun text => Numerals.digits_value (fun _ => none) 0 text.toList
  str_uuid := Nat.repr
  strip := id
  parse_str := Numerals.digits_value_repr fun _ => none

/-- Texts of numerals, with a validation that refuses everything, are one. -/
instance : Nonempty (LawfulDeployment π ρ) := ⟨.numeral fun _ => .validation_error⟩

/-- The fields of a message refer to a delivery, whose consumer has subscribed to its event. -/
structure Refers (deployment : Deployment π ρ) (db : Database π) (fields : Reference)
    (r : DeliveryRecord) : Prop where
  /-- The identifier is that of the event. -/
  parses : deployment.parse_uuid (fields.event_id.getD "") = some r.delivery.event_id
  /-- The other fields are those of the row. -/
  row : ∃ event consumers,
    Keyed.lookup OutboxEvent.event_id r.delivery.event_id db.events = some event ∧
      deployment.reference_matches fields event = true ∧
      consumers_for event.event_type = some consumers ∧ r.delivery.consumer_name ∈ consumers

namespace Refers

variable {deployment : Deployment π ρ} {db db' : Database π} {fields : Reference}
  {r r' : DeliveryRecord}

/-- The consumer has subscribed. -/
theorem subscribed (h : Refers deployment db fields r) : ¬db.not_subscribed r.route := by
  rintro ⟨event, hevent, consumers, hconsumers, hnot⟩
  obtain ⟨event', consumers', hevent', -, hconsumers', hmem⟩ := h.row
  obtain rfl : event' = event := Option.some.inj (hevent'.symm.trans hevent)
  obtain rfl : consumers' = consumers := Option.some.inj (hconsumers'.symm.trans hconsumers)
  exact hnot hmem

/-- It still refers to the delivery after an action. The event is still there, and the route stays.
-/
theorem step {policy : RetryPolicy} (h : Refers deployment db fields r)
    (hstep : DatabaseStep policy db db') (hroute : r'.route = r.route) :
    Refers deployment db' fields r' := by
  have hevent : r'.delivery.event_id = r.delivery.event_id := congrArg Prod.fst hroute
  have hconsumer : r'.delivery.consumer_name = r.delivery.consumer_name := congrArg Prod.snd hroute
  obtain ⟨event, consumers, hlookup, hmatches, hconsumers, hmem⟩ := h.row
  refine ⟨hevent ▸ h.parses, event, consumers, ?_, hmatches, hconsumers, hconsumer ▸ hmem⟩
  rw [hevent]
  exact hstep.lookup_event hlookup

end Refers

/-! ## The invariant -/

/-- A message is outstanding for a group in every state of the stream that holds it, and no execution
for the group is about to acknowledge it. -/
def Live (w : World π ρ) (group : ConsumerName) (message_id : String) : Prop :=
  (∀ stream, stream = w.stream ∨ stream ∈ w.snapshots →
    message_id ∈ stream.entries.map StreamMessage.message_id →
      stream.Outstanding StreamMessage.message_id group message_id) ∧
    w.workers.Unanswered group message_id

/-- The invariant of a publication: its claim refers to the claimed delivery, and the message that it has
added is live as long as the claim stands. -/
structure PublicationInv (deployment : Deployment π ρ) (w : World π ρ) (p : Publication) : Prop where
  /-- The identifiers of the claim have been drawn. -/
  drawn : p.claim.claim_token < w.workers.database.next_uuid ∧
    p.claim.delivery_id < w.workers.database.next_uuid
  /-- The claimed delivery. -/
  refers : ∀ r ∈ w.workers.database.deliveries, r.id = p.claim.delivery_id →
    Refers deployment w.workers.database (deployment.reference p.claim) r
  /-- The message. -/
  published : ∀ message_id, p.phase = .published message_id →
    ⟨message_id, deployment.reference p.claim⟩ ∈ w.messages ∧
      ∀ r ∈ w.workers.database.deliveries, r.id = p.claim.delivery_id →
        r.delivery.status = .pending → r.delivery.claim_token = some p.claim.claim_token →
          Live w r.delivery.consumer_name message_id

/-- The invariant of the system. It says what Redis owes to the deliveries that have been published.
-/
structure Inv (deployment : Deployment π ρ) (w : World π ρ) : Prop where
  /-- The invariant of the processes and the database. -/
  workers : WorldInv deployment w.workers
  /-- No identifier of a message is drawn twice. -/
  ids : Keyed.Unique StreamMessage.message_id w.messages
  /-- The stream holds messages that were added. -/
  logs : ∀ stream, stream = w.stream ∨ stream ∈ w.snapshots →
    stream.Sound ∧ ∀ message ∈ stream.entries, message ∈ w.messages
  /-- So do the consumers. -/
  handed : ∀ p ∈ w.handed, p.2 ∈ w.messages
  /-- Each execution is one of the event that its message names. -/
  executions : ∀ e ∈ w.workers.executions, ∃ message ∈ w.messages,
    message.message_id = e.message_id ∧
      deployment.parse_uuid (message.fields.event_id.getD "") = some e.event_id
  /-- The publications. -/
  publications : ∀ p ∈ w.publications, PublicationInv deployment w p
  /-- The deliveries that are open and published. -/
  rows : ∀ r ∈ w.workers.database.deliveries, r.is_open → r.delivery.published_at.isSome →
    ∃ message ∈ w.messages, Refers deployment w.workers.database message.fields r ∧
      Live w r.delivery.consumer_name message.message_id

variable {deployment : Deployment π ρ} {w : World π ρ}

/-! ## Actions of the processes -/

/-- What an action of the processes may do to a delivery: it keeps its reference, or has it rely on a
message that is live. -/
structure Carries (deployment : Deployment π ρ) (w : World π ρ) (r r' : DeliveryRecord) : Prop where
  /-- The delivery is the same. -/
  identity : r'.id = r.id ∧ r'.route = r.route
  /-- Its publication is an old one, or that of a live message. -/
  published : r'.is_open → r'.delivery.published_at.isSome →
    ∃ message ∈ w.messages, Refers deployment w.workers.database message.fields r ∧
      Live w r.delivery.consumer_name message.message_id
  /-- Its relay claim is an old one or a new one. -/
  claimed : ∀ token < w.workers.database.next_uuid, r'.delivery.status = .pending →
    r'.delivery.claim_token = some token →
      r.delivery.status = .pending ∧ r.delivery.claim_token = some token

/-- A delivery that keeps its reference. -/
theorem Inv.carries (h : Inv deployment w) {r r' : DeliveryRecord}
    (hr : r ∈ w.workers.database.deliveries)
    (hkeeps : KeepsReference w.workers.database.next_uuid r r') : Carries deployment w r r' := by
  refine ⟨hkeeps.identity, fun hopen hpublished => ?_, hkeeps.claimed⟩
  obtain ⟨hopen', hpublished'⟩ := hkeeps.published hopen hpublished
  exact h.rows r hr hopen' hpublished'

/-- An action of the processes that routes only messages of the stream. -/
theorem Inv.work (h : Inv deployment w) (a : Events.Act π)
    (hroute : ∀ message group settings worker_id locked fate,
      a = .route message group settings worker_id locked fate → message ∈ w.messages)
    (hrows : ∀ r' ∈ (deployment.step w.workers a).database.deliveries,
      (∃ r ∈ w.workers.database.deliveries, Carries deployment w r r') ∨
        w.workers.database.next_uuid ≤ r'.id ∧ r'.delivery.published_at = none) :
    Inv deployment (Transport.work deployment w a) := by
  have hstep := (deployment.step_action h.workers a).database
  -- The executions are of messages of the stream, the old ones and the new one.
  have hexecutions : ∀ e ∈ (deployment.step w.workers a).executions, ∃ message ∈ w.messages,
      message.message_id = e.message_id ∧
        deployment.parse_uuid (message.fields.event_id.getD "") = some e.event_id := by
    intro e' he'
    rcases deployment.step_executions h.workers a he' with ⟨e, he, hsame, -⟩ |
      ⟨⟨message, group, settings, worker_id, locked, fate, ha, hid, -, hparse⟩, -⟩
    · obtain ⟨message, hmessage, hid, hparse⟩ := h.executions e he
      exact ⟨message, hmessage, hid.trans hsame.1.symm, hsame.2.2 ▸ hparse⟩
    · exact ⟨message, hroute message group settings worker_id locked fate ha, hid.symm, hparse⟩
  -- A live message that an open delivery relies on stays live.
  have hlive : ∀ (fields : Reference) (message_id : String) (r' : DeliveryRecord),
      r' ∈ (deployment.step w.workers a).database.deliveries → r'.is_open →
      ⟨message_id, fields⟩ ∈ w.messages →
      Refers deployment (deployment.step w.workers a).database fields r' →
      Live w r'.delivery.consumer_name message_id →
      Live (Transport.work deployment w a) r'.delivery.consumer_name message_id := by
    intro fields message_id r' hr' hopen hmessage hrefers hlive
    refine ⟨hlive.1, deployment.unanswered_step h.workers a hlive.2 hr' hopen hrefers.subscribed ?_⟩
    -- The executions of the message are of the event that the message refers to.
    intro e he hid
    obtain ⟨message', hmessage', hid', hparse⟩ := hexecutions e he
    obtain rfl : message' = ⟨message_id, fields⟩ :=
      h.ids.eq_of_key hmessage' hmessage (hid'.trans hid)
    exact Option.some.inj (hparse.symm.trans hrefers.parses)
  refine ⟨deployment.step_inv w.workers a h.workers, h.ids, h.logs, h.handed, hexecutions, ?_, ?_⟩
  · intro p hp
    -- A publication under way stays sound: its delivery is the one claimed, and its message is
    -- live.
    have hpub := h.publications p hp
    -- The claimed delivery was there before.
    have hold : ∀ r' ∈ (deployment.step w.workers a).database.deliveries,
        r'.id = p.claim.delivery_id → ∃ r ∈ w.workers.database.deliveries,
          Carries deployment w r r' ∧ r.id = p.claim.delivery_id := by
      intro r' hr' hid
      rcases hrows r' hr' with ⟨r, hr, hcarries⟩ | ⟨hnew, -⟩
      · exact ⟨r, hr, hcarries, hcarries.identity.1.symm.trans hid⟩
      · exact absurd hnew (not_le.mpr (hid ▸ hpub.drawn.2))
    have hrefers : ∀ r' ∈ (deployment.step w.workers a).database.deliveries,
        r'.id = p.claim.delivery_id →
          Refers deployment (deployment.step w.workers a).database (deployment.reference p.claim)
            r' := by
      intro r' hr' hid
      obtain ⟨r, hr, hcarries, hrid⟩ := hold r' hr' hid
      exact (hpub.refers r hr hrid).step hstep hcarries.identity.2
    refine ⟨⟨hpub.drawn.1.trans_le hstep.next_uuid_le, hpub.drawn.2.trans_le hstep.next_uuid_le⟩,
      hrefers, fun message_id hphase => ?_⟩
    obtain ⟨hmessage, hpublished⟩ := hpub.published message_id hphase
    refine ⟨hmessage, fun r' hr' hid hpending htoken => ?_⟩
    obtain ⟨r, hr, hcarries, hrid⟩ := hold r' hr' hid
    obtain ⟨hpending', htoken'⟩ := hcarries.claimed _ hpub.drawn.1 hpending htoken
    have hconsumer : r'.delivery.consumer_name = r.delivery.consumer_name :=
      congrArg Prod.snd hcarries.identity.2
    refine hlive _ message_id r' hr' (Or.inl hpending) hmessage (hrefers r' hr' hid) ?_
    rw [hconsumer]
    exact hpublished r hr hrid hpending' htoken'
  · -- A published delivery that is open relies on a live message, old or new.
    intro r' hr' hopen hsome
    rcases hrows r' hr' with ⟨r, hr, hcarries⟩ | ⟨-, hnone⟩
    · obtain ⟨message, hmessage, hrefers, hbefore⟩ := hcarries.published hopen hsome
      have hconsumer : r'.delivery.consumer_name = r.delivery.consumer_name :=
        congrArg Prod.snd hcarries.identity.2
      have hrefers' := hrefers.step hstep hcarries.identity.2
      refine ⟨message, hmessage, hrefers', ?_⟩
      refine hlive message.fields message.message_id r' hr' hopen hmessage hrefers' ?_
      rw [hconsumer]
      exact hbefore
    · rw [hnone] at hsome
      cases hsome

/-- An action of the processes that observes no publication. -/
theorem Inv.work_keeps (h : Inv deployment w) (a : Events.Act π)
    (hroute : ∀ message group settings worker_id locked fate,
      a = .route message group settings worker_id locked fate → message ∈ w.messages)
    (ha : Deployment.observes a = false) : Inv deployment (Transport.work deployment w a) := by
  refine h.work a hroute fun r' hr' => ?_
  rcases deployment.step_references h.workers a ha r' hr' with ⟨r, hr, hkeeps⟩ | hnew
  · exact Or.inl ⟨r, hr, h.carries hr hkeeps⟩
  · exact Or.inr hnew

/-! ## The stream -/

/-- A live message stays live under a change of the stream that leaves it outstanding. -/
theorem Live.set_stream {group : ConsumerName} {message_id : String} {stream : EventStream}
    (h : Live w group message_id)
    (hstream : message_id ∈ stream.entries.map StreamMessage.message_id →
      stream.Outstanding StreamMessage.message_id group message_id) :
    Live (w.set_stream stream) group message_id := by
  refine ⟨fun stream' hstream' => ?_, h.2⟩
  rcases hstream' with rfl | hsnapshot
  · exact hstream
  · rcases List.mem_append.mp hsnapshot with hold | hlast
    · exact h.1 stream' (Or.inr hold)
    · exact h.1 stream' (Or.inl (List.mem_singleton.mp hlast))

/-- A change of the stream that leaves every live message outstanding. -/
theorem Inv.set_stream (h : Inv deployment w) {stream : EventStream} (hsound : stream.Sound)
    (hentries : ∀ message ∈ stream.entries, message ∈ w.messages)
    (hlive : ∀ group message_id, Live w group message_id →
      message_id ∈ stream.entries.map StreamMessage.message_id →
        stream.Outstanding StreamMessage.message_id group message_id) :
    Inv deployment (w.set_stream stream) := by
  refine ⟨h.workers, h.ids, ?_, h.handed, h.executions, fun p hp => ?_, fun r hr hopen hsome => ?_⟩
  · intro stream' hstream'
    rcases hstream' with rfl | hsnapshot
    · exact ⟨hsound, hentries⟩
    · rcases List.mem_append.mp hsnapshot with hold | hlast
      · exact h.logs stream' (Or.inr hold)
      · exact h.logs stream' (Or.inl (List.mem_singleton.mp hlast))
  · have hpub := h.publications p hp
    refine ⟨hpub.drawn, hpub.refers, fun message_id hphase => ?_⟩
    obtain ⟨hmessage, hpublished⟩ := hpub.published message_id hphase
    refine ⟨hmessage, fun r hr hid hpending htoken => ?_⟩
    have hbefore := hpublished r hr hid hpending htoken
    exact hbefore.set_stream (hlive _ _ hbefore)
  · obtain ⟨message, hmessage, hrefers, hbefore⟩ := h.rows r hr hopen hsome
    exact ⟨message, hmessage, hrefers, hbefore.set_stream (hlive _ _ hbefore)⟩

/-- A message that was not drawn before is in no state of the stream, and no execution has it. -/
theorem Inv.fresh (h : Inv deployment w) {message_id : String}
    (hfresh : message_id ∉ w.messages.map StreamMessage.message_id) :
    (∀ stream, stream = w.stream ∨ stream ∈ w.snapshots →
      message_id ∉ stream.entries.map StreamMessage.message_id) ∧
    ∀ e ∈ w.workers.executions, e.message_id ≠ message_id := by
  refine ⟨fun stream hstream hmem => hfresh ?_, fun e he heq => hfresh ?_⟩
  · obtain ⟨message, hmessage, rfl⟩ := List.mem_map.mp hmem
    exact List.mem_map_of_mem ((h.logs stream hstream).2 message hmessage)
  · obtain ⟨message, hmessage, hid, -⟩ := h.executions e he
    exact heq ▸ hid ▸ List.mem_map_of_mem hmessage

/-- A new message. A message with an identifier already in use is not added. -/
theorem Inv.add (h : Inv deployment w) (message : StreamMessage) : Inv deployment (w.add message) := by
  unfold World.add
  split_ifs with hdrawn
  · exact h
  · let w' : World π ρ := { w with messages := w.messages ++ [message] }
    -- The messages are more; nothing else depends on them.
    have hmore : Inv deployment w' := by
      refine ⟨h.workers, h.ids.append ?_, fun stream hstream => ?_, fun p hp => ?_, fun e he => ?_,
        fun p hp => ?_, fun r hr hopen hsome => ?_⟩
      · exact fun m hm hid => hdrawn (hid ▸ List.mem_map_of_mem hm)
      · obtain ⟨hsound, hentries⟩ := h.logs stream hstream
        exact ⟨hsound, fun m hm => List.mem_append_left _ (hentries m hm)⟩
      · exact List.mem_append_left _ (h.handed p hp)
      · obtain ⟨m, hm, hsame⟩ := h.executions e he
        exact ⟨m, List.mem_append_left _ hm, hsame⟩
      · have hpub := h.publications p hp
        refine ⟨hpub.drawn, hpub.refers, fun message_id hphase => ?_⟩
        obtain ⟨hm, hpublished⟩ := hpub.published message_id hphase
        exact ⟨List.mem_append_left _ hm, hpublished⟩
      · obtain ⟨m, hm, hrow⟩ := h.rows r hr hopen hsome
        exact ⟨m, List.mem_append_left _ hm, hrow⟩
    -- The log of the stream gets the message as its last entry.
    refine @Inv.set_stream _ _ deployment w' hmore (w.stream.add message)
      ((h.logs w.stream (Or.inl rfl)).1.add message) ?_ fun group message_id hlive hmem => ?_
    · intro m hm
      rw [ConsumerGroups.Log.add_entries] at hm
      refine (List.mem_append.mp hm).elim (fun hm => ?_) (List.mem_append_right _)
      exact List.mem_append_left _ ((h.logs w.stream (Or.inl rfl)).2 m hm)
    · -- The new message is outstanding for every group, and the others are as they were.
      by_cases hid : message_id = message.message_id
      · rw [hid]
        exact ConsumerGroups.Log.outstanding_add _ _ _
      · rw [ConsumerGroups.Log.add_entries, List.map_append] at hmem
        refine (hlive.1 w.stream (Or.inl rfl) ((List.mem_append.mp hmem).resolve_right ?_)).add message
        exact fun hlast => hid (List.mem_singleton.mp hlast)

/-- A new message is live for every group. No group has been given it, as its identifier is new. -/
theorem Inv.live_add (h : Inv deployment w) {message : StreamMessage}
    (hfresh : message.message_id ∉ w.messages.map StreamMessage.message_id) (group : ConsumerName) :
    Live (w.add message) group message.message_id := by
  obtain ⟨hlogs, hexecutions⟩ := h.fresh hfresh
  have hlive : Live w group message.message_id :=
    ⟨fun stream hstream hmem => absurd hmem (hlogs stream hstream), fun e he hid =>
      absurd hid (hexecutions e he)⟩
  unfold World.add
  rw [if_neg hfresh]
  exact hlive.set_stream fun _ => ConsumerGroups.Log.outstanding_add _ _ _

/-- Messages of the stream are handed out. Each of them is one that was added and not removed. -/
theorem Inv.hand (h : Inv deployment w) {group : ConsumerName} {messages : List StreamMessage}
    (hmessages : ∀ message ∈ messages, message ∈ w.stream.entries) :
    Inv deployment (w.hand group messages) := by
  refine ⟨h.workers, h.ids, h.logs, fun p hp => ?_, h.executions, fun p hp => ?_, h.rows⟩
  · rcases List.mem_append.mp hp with hold | hnew
    · exact h.handed p hold
    · obtain ⟨message, hmessage, rfl⟩ := List.mem_map.mp hnew
      exact (h.logs w.stream (Or.inl rfl)).2 message (hmessages message hmessage)
  · have hpub := h.publications p hp
    exact ⟨hpub.drawn, hpub.refers, hpub.published⟩

/-! ## The publications -/

/-- The phase of a publication changes; where it becomes `published`, its message is live. -/
theorem Inv.set_phase (h : Inv deployment w) {i : ℕ} {p : Publication}
    (hp : w.publications[i]? = some p) {phase : PublicationPhase}
    (hphase : ∀ message_id, phase = .published message_id →
      ⟨message_id, deployment.reference p.claim⟩ ∈ w.messages ∧
        ∀ group, Live w group message_id) : Inv deployment (w.set_phase i phase) := by
  refine ⟨h.workers, h.ids, h.logs, h.handed, h.executions, fun p' hp' => ?_, h.rows⟩
  obtain ⟨j, hj⟩ := List.mem_iff_getElem?.mp hp'
  rw [World.set_phase, List.getElem?_modify] at hj
  by_cases hij : i = j
  · subst hij
    rw [hp] at hj
    simp only [if_true, Option.map_eq_map, Option.map_some, Option.some.injEq] at hj
    subst hj
    have hpub := h.publications p (List.mem_of_getElem? hp)
    refine ⟨hpub.drawn, hpub.refers, fun message_id heq => ?_⟩
    obtain ⟨hmessage, hlive⟩ := hphase message_id heq
    exact ⟨hmessage, fun r _ _ _ _ => hlive _⟩
  · simp only [if_neg hij, Option.map_eq_map, Option.map_id_fun', id_eq] at hj
    have hpub := h.publications p' (List.mem_of_getElem? hj)
    exact ⟨hpub.drawn, hpub.refers, hpub.published⟩

/-- A publication ends. No publication that is observed depends on it any more. -/
theorem Inv.finish (h : Inv deployment w) (i : ℕ) : Inv deployment (w.set_phase i .finished) := by
  cases hp : w.publications[i]? with
  | some p => exact h.set_phase hp fun _ heq => by cases heq
  | none =>
    have hsame : w.set_phase i .finished = w := by
      unfold World.set_phase
      rw [List.modify_eq_self (List.getElem?_eq_none_iff.mp hp)]
    rw [hsame]
    exact h

/-- The claims that a relay is given refer to their deliveries. -/
theorem claimed_refers (deployment : LawfulDeployment π ρ) {db : Database π}
    (hinv : DatabaseInv deployment.policy db) {owner : String} {republish_after_seconds : ℤ}
    {now : Timestamp} {limit : ℕ} {locked : List UUID} {claim : DeliveryClaim}
    (hclaim : claim ∈ claimed_deliveries db.events db.deliveries owner republish_after_seconds now
      limit locked db.next_uuid) :
    (claim.claim_token < db.next_uuid + db.deliveries.length ∧ claim.delivery_id < db.next_uuid) ∧
      ∃ r ∈ db.deliveries, r.id = claim.delivery_id ∧
        Refers deployment.toDeployment db (deployment.reference claim) r := by
  obtain ⟨r, hr, hmap⟩ := List.mem_filterMap.mp hclaim
  obtain ⟨event, hevent, rfl⟩ := Option.map_eq_some_iff.mp hmap
  obtain ⟨hmem, hdue⟩ := List.mem_filter.mp
    ((List.mem_insertionSort claim_order).mp (List.mem_of_mem_take hr))
  simp only [Events.claim_due, Bool.and_eq_true, decide_eq_true_eq] at hdue
  have hroute : subscribed_route db.events r.delivery = true := hdue.1.2
  have hid : event.event_id = r.delivery.event_id := Keyed.lookup_key hevent
  have hlength : (claim_rows db.events db.deliveries republish_after_seconds now limit locked).length ≤
      db.deliveries.length := by
    rw [claim_rows, List.length_take, List.length_insertionSort]
    exact (min_le_right _ _).trans (List.length_filter_le _ _)
  have hindex := List.idxOf_lt_length_of_mem (List.mem_map_of_mem (f := (·.id)) hr)
  rw [List.length_map] at hindex
  refine ⟨⟨Nat.add_lt_add_left (hindex.trans_le hlength) _, (hinv.drawn r hmem).1⟩, r, hmem, rfl, ?_⟩
  refine ⟨?_, ?_⟩
  · rw [← hid]
    exact deployment.parse_str event.event_id
  · unfold subscribed_route at hroute
    rw [hevent, Option.any_some] at hroute
    obtain ⟨consumers, hconsumers, hsubscribed⟩ := (Option.any_eq_true _ _).mp hroute
    refine ⟨event, consumers, hevent, ?_, hconsumers, by simpa using hsubscribed⟩
    unfold Deployment.reference_matches Deployment.reference
    simp

/-! ## Every action and every run -/

section Runs

variable (deployment : LawfulDeployment π ρ) {w : World π ρ}

/-- A relay claims deliveries. Claimed rows are not observed, so nothing is owed to them. -/
theorem Inv.claim_due (h : Inv deployment.toDeployment w) (owner : String)
    (lease_seconds republish_after_seconds : ℤ) (lag limit : ℕ) (locked : List UUID)
    (answered : Bool) :
    Inv deployment.toDeployment (Transport.claim_due deployment.toDeployment w owner lease_seconds
      republish_after_seconds lag limit locked answered) := by
  let a : Events.Act π :=
    .claim_due owner lease_seconds republish_after_seconds lag limit locked
  have hwork := h.work_keeps a (fun _ _ _ _ _ _ heq => by dsimp only [a] at heq; cases heq) rfl
  refine ⟨hwork.workers, hwork.ids, hwork.logs, hwork.handed, hwork.executions, fun p hp => ?_,
    hwork.rows⟩
  -- A publication that was under way keeps what it knew.
  rcases List.mem_append.mp hp with hold | hnew
  · have hpub := hwork.publications p hold
    exact ⟨hpub.drawn, hpub.refers, hpub.published⟩
  · -- Without an answer the relay knows no claim.
    cases answered with
    | false => exact absurd hnew List.not_mem_nil
    | true =>
      -- A claim that has been answered refers to the row that it was made of.
      obtain ⟨claim, hclaim, rfl⟩ := List.mem_map.mp hnew
      obtain ⟨hdrawn, r, hr, hid, hrefers⟩ :=
        claimed_refers deployment h.workers.database hclaim
      refine ⟨⟨hdrawn.1, hdrawn.2.trans_le (Nat.le_add_right _ _)⟩, fun r' hr' hid' => ?_,
        fun _ heq => by cases heq⟩
      rcases deployment.step_references h.workers a rfl r' hr' with ⟨r₀, hr₀, hkeeps⟩ | ⟨hle, -⟩
      · obtain rfl : r₀ = r := h.workers.database.ids.eq_of_key hr₀ hr
          (hkeeps.identity.1.symm.trans (hid'.trans hid.symm))
        exact hrefers.step (deployment.step_action h.workers a).database hkeeps.identity.2
      · exact absurd hle (not_le.mpr (hid' ▸ hdrawn.2))

/-- A relay publishes a delivery. The message refers to the delivery and is live before the
publication is observed. -/
theorem Inv.publish (h : Inv deployment.toDeployment w) (publication : ℕ) (message_id : String)
    (reply : Reply) :
    Inv deployment.toDeployment
      (Transport.publish deployment.toDeployment w publication message_id reply) := by
  unfold Transport.publish
  split
  · rename_i claim hp
    split_ifs with hdrawn
    · exact h
    · have hadd : ∀ message, (w.add message).publications = w.publications := by
        intro message
        unfold World.add
        split_ifs <;> rfl
      have hadded := h.add ⟨message_id, deployment.reference claim⟩
      cases reply with
      | answered =>
        refine hadded.set_phase (by rw [hadd]; exact hp) fun message_id' heq => ?_
        obtain rfl : message_id = message_id' := by
          cases heq
          rfl
        -- The message that has been added is live for every group.
        refine ⟨?_, fun group => h.live_add hdrawn group⟩
        unfold World.add
        rw [if_neg hdrawn]
        exact List.mem_append_right _ (List.mem_singleton_self _)
      -- An unanswered command has added the message too, but the publication ends.
      | unanswered => exact hadded.set_phase (by rw [hadd]; exact hp) fun _ heq => by cases heq
      | refused => exact h.set_phase hp fun _ heq => by cases heq
  · exact h

/-- A relay observes a publication: the delivery relies on the message that it has added. -/
theorem Inv.observe (h : Inv deployment.toDeployment w) (publication lag : ℕ) (committed : Bool) :
    Inv deployment.toDeployment
      (Transport.observe deployment.toDeployment w publication lag committed) := by
  unfold Transport.observe
  split
  · rename_i claim message_id hp
    refine Inv.finish ?_ publication
    split_ifs with hcommitted
    · have hpub := h.publications _ (List.mem_of_getElem? hp)
      refine h.work (.observe claim lag) (fun _ _ _ _ _ _ heq => by cases heq) fun r' hr' => Or.inl ?_
      obtain ⟨r, hr, rfl⟩ := List.mem_map.mp hr'
      refine ⟨r, hr, ?_⟩
      split_ifs with howns
      · simp only [relay_owns, Bool.and_eq_true, decide_eq_true_eq] at howns
        obtain ⟨⟨⟨⟨hid, hpending⟩, htoken⟩, -⟩, -⟩ := howns
        refine ⟨⟨rfl, rfl⟩, fun _ _ => ?_, fun _ _ _ hnone => by cases hnone⟩
        obtain ⟨hmessage, hlive⟩ := hpub.published message_id rfl
        exact ⟨_, hmessage, hpub.refers r hr hid, hlive r hr hid hpending htoken⟩
      · exact h.carries hr (.refl r)
    · exact h
  · exact h

/-- A relay defers its claim. Its delivery stays unobserved. -/
theorem Inv.defer_claim (h : Inv deployment.toDeployment w) (publication : ℕ) (retry_after_ms : ℤ)
    (failure_category : ErrorCategory) (lag : ℕ) (committed : Bool) :
    Inv deployment.toDeployment (Transport.defer_claim deployment.toDeployment w publication
      retry_after_ms failure_category lag committed) := by
  unfold Transport.defer_claim
  split
  · refine Inv.finish ?_ publication
    split_ifs
    · exact h.work_keeps _ (fun _ _ _ _ _ _ heq => by cases heq) rfl
    · exact h
  · exact h

/-- A consumer routes a message that it was handed. The message refers to an event of the outbox, or
to nothing. -/
theorem Inv.route (h : Inv deployment.toDeployment w) (handed : ℕ) (settings : ServiceSettings)
    (worker_id : String) (locked : Bool) (fate : Fate) :
    Inv deployment.toDeployment
      (Transport.route deployment.toDeployment w handed settings worker_id locked fate) := by
  unfold Transport.route
  split
  · rename_i group message hhanded
    refine h.work_keeps _ (fun _ _ _ _ _ _ heq => ?_) rfl
    cases heq
    exact h.handed _ (List.mem_of_getElem? hhanded)
  · exact h

/-- Redis falls back. A message that an earlier state holds was not acknowledged in it either. -/
theorem Inv.fall_back (h : Inv deployment.toDeployment w) (state : ℕ) :
    Inv deployment.toDeployment (Transport.fall_back w state) := by
  unfold Transport.fall_back
  split
  · rename_i stream hsnapshot
    have hmem := List.mem_of_getElem? hsnapshot
    obtain ⟨hsound, hentries⟩ := h.logs stream (Or.inr hmem)
    exact h.set_stream hsound hentries fun _ _ hlive => hlive.1 stream (Or.inr hmem)
  · exact h

/-- The end of a routing. Only a message that is not live is acknowledged. -/
theorem Inv.acknowledge (h : Inv deployment.toDeployment w) (execution : ℕ) (executed : Bool) :
    Inv deployment.toDeployment
      (Transport.acknowledge deployment.toDeployment w execution executed) := by
  unfold Transport.acknowledge
  split
  · rename_i event_id group message_id result he
    split_ifs with hack hexecuted
    · have hstream : Inv deployment.toDeployment
          (w.set_stream (w.stream.acknowledge group message_id)) := by
        obtain ⟨hsound, hentries⟩ := h.logs w.stream (Or.inl rfl)
        refine h.set_stream (hsound.acknowledge group message_id) ?_ fun group' id hlive hmem => ?_
        · rw [ConsumerGroups.Log.acknowledge_entries]
          exact hentries
        · rw [ConsumerGroups.Log.acknowledge_entries] at hmem
          refine (hlive.1 w.stream (Or.inl rfl) hmem).acknowledge ?_
          rintro ⟨rfl, rfl⟩
          exact hlive.2 _ (List.mem_of_getElem? he) rfl rfl ⟨result, rfl, hack⟩
      exact hstream.work_keeps (.acknowledge execution) (fun _ _ _ _ _ _ heq => by cases heq) rfl
    · exact h.work_keeps (.crash execution) (fun _ _ _ _ _ _ heq => by cases heq) rfl
    · exact h.work_keeps (.acknowledge execution) (fun _ _ _ _ _ _ heq => by cases heq) rfl
  · exact h

/-- Every action keeps the invariant. Each case is one command or one transaction. -/
theorem Inv.step (w : World π ρ) (a : Act π) (h : Inv deployment.toDeployment w) :
    Inv deployment.toDeployment (Transport.step deployment.toDeployment w a) := by
  have hstream := h.logs w.stream (Or.inl rfl)
  cases a with
  -- The actions of the processes route no message by themselves.
  | work act =>
    obtain ⟨act, hlocal⟩ := act
    refine h.work_keeps act (fun _ _ _ _ _ _ heq => ?_) ?_
    · subst heq
      cases hlocal
    · cases act <;> first | rfl | cases hlocal
  | claim_due owner lease_seconds republish_after_seconds lag limit locked answered =>
    exact h.claim_due deployment owner lease_seconds republish_after_seconds lag limit locked answered
  | publish publication message_id reply => exact h.publish deployment publication message_id reply
  | observe publication lag committed => exact h.observe deployment publication lag committed
  | defer_claim publication retry_after_ms failure_category lag committed =>
    exact h.defer_claim deployment publication retry_after_ms failure_category lag committed
  | abandon publication => exact h.finish publication
  | foreign message => exact h.add message
  -- A new group has everything before it.
  | ensure_group group =>
    refine h.set_stream (hstream.1.create_group group) ?_ fun group' id hlive hmem => ?_
    · rw [ConsumerGroups.Log.create_group_entries]
      exact hstream.2
    · rw [ConsumerGroups.Log.create_group_entries] at hmem
      exact (hlive.1 w.stream (Or.inl rfl) hmem).create_group group
  -- Reading hands out entries of the stream.
  | read_new group count answered =>
    refine Inv.hand (h.set_stream (hstream.1.read group count) ?_ fun group' id hlive hmem => ?_) ?_
    · rw [ConsumerGroups.Log.read_entries]
      exact hstream.2
    · rw [ConsumerGroups.Log.read_entries] at hmem
      exact (hlive.1 w.stream (Or.inl rfl) hmem).read group count
    · intro message hmessage
      cases answered with
      | false => exact absurd hmessage List.not_mem_nil
      | true =>
        show message ∈ (w.stream.read StreamMessage.message_id group count).entries
        rw [ConsumerGroups.Log.read_entries]
        exact hstream.1.mem_of_next hmessage
  -- So does claiming pending references.
  | claim_pending group message_ids =>
    exact h.hand fun _ hmessage => ConsumerGroups.Log.mem_of_pending hmessage
  | pending_reference group message_id =>
    exact h.hand fun _ hmessage => Keyed.lookup_mem (Option.mem_toList.mp hmessage)
  | route handed settings worker_id locked fate =>
    exact h.route deployment handed settings worker_id locked fate
  | acknowledge execution executed => exact h.acknowledge deployment execution executed
  | fall_back state =>
    exact h.fall_back deployment state

/-- The invariant holds after every run. -/
theorem Inv.run (now : Timestamp) (acts : List (Act π)) :
    Inv deployment.toDeployment (Transport.run deployment.toDeployment now acts) := by
  refine Transition.run_invariant (fun w a h => h.step deployment w a) ?_ acts
  refine ⟨deployment.initial_inv now, List.nodup_nil, fun stream hstream => ?_,
    fun _ h => absurd h List.not_mem_nil, fun _ h => absurd h List.not_mem_nil,
    fun _ h => absurd h List.not_mem_nil, fun _ h => absurd h List.not_mem_nil⟩
  obtain rfl := hstream.resolve_right List.not_mem_nil
  exact ⟨ConsumerGroups.Log.sound_empty, fun _ h => absurd h List.not_mem_nil⟩

/-- Nothing leaves the stream unless Redis falls back. -/
def Kept (w : World π ρ) : Prop := ∀ message ∈ w.messages, message ∈ w.stream.entries

/-- Every other action keeps what was added. The stream loses entries only when Redis falls back. -/
theorem Kept.step (deployment : Deployment π ρ) (a : Act π) (ha : a.falls_back = false)
    (h : Kept w) : Kept (Transport.step deployment w a) := by
  have hadd : ∀ message, Kept (w.add message) := by
    intro message
    unfold World.add
    split_ifs
    · exact h
    · intro m hm
      rcases List.mem_append.mp hm with hold | hnew
      · exact List.mem_append_left _ (h m hold)
      · exact List.mem_append_right _ hnew
  have hset : ∀ stream : EventStream, stream.entries = w.stream.entries →
      Kept (w.set_stream stream) := by
    intro stream hentries m hm
    show m ∈ stream.entries
    rw [hentries]
    exact h m hm
  cases a with
  -- A publication adds its message at most.
  | publish publication message_id reply =>
    show Kept (Transport.publish deployment w publication message_id reply)
    unfold Transport.publish
    split
    · split_ifs
      · exact h
      · cases reply with
        | answered | unanswered => exact hadd _
        | refused => exact h
    · exact h
  | observe publication lag committed =>
    show Kept (Transport.observe deployment w publication lag committed)
    unfold Transport.observe
    split
    · cases committed <;> exact h
    · exact h
  | defer_claim publication retry_after_ms failure_category lag committed =>
    show Kept (Transport.defer_claim deployment w publication retry_after_ms failure_category lag
      committed)
    unfold Transport.defer_claim
    split
    · cases committed <;> exact h
    · exact h
  | foreign message => exact hadd message
  | ensure_group group => exact hset _ (ConsumerGroups.Log.create_group_entries _ _)
  | read_new group count answered => exact hset _ (ConsumerGroups.Log.read_entries _ _ _)
  | route handed settings worker_id locked fate =>
    show Kept (Transport.route deployment w handed settings worker_id locked fate)
    unfold Transport.route
    split <;> exact h
  -- Acknowledging removes a reference and no entry.
  | acknowledge execution executed =>
    show Kept (Transport.acknowledge deployment w execution executed)
    unfold Transport.acknowledge
    split
    · split_ifs
      · exact hset _ (ConsumerGroups.Log.acknowledge_entries _ _ _)
      · exact h
      · exact h
    · exact h
  | fall_back state => cases ha
  | _ => exact h

/-! ## What a consumer can have -/

/-- A consumer of a group is handed an outstanding message by three commands. -/
theorem handed_of_outstanding (deployment : Deployment π ρ) (hsound : w.stream.Sound)
    {group : ConsumerName} {message_id : String}
    (h : w.stream.Outstanding StreamMessage.message_id group message_id) :
    ∃ message ∈ w.stream.entries, message.message_id = message_id ∧ ∃ count,
      (group, message) ∈ (Transition.run (Transport.step deployment) w
        [.ensure_group group, .read_new group count true, .claim_pending group [message_id]]).handed := by
  have hcreated := h.create_group group
  obtain ⟨state, hstate⟩ := ConsumerGroups.Log.create_group_groups w.stream group
  obtain ⟨message, hmessage, hid, hgiven⟩ :=
    hcreated.obtainable (hsound.create_group group) hstate (le_refl state.unread.length)
  rw [ConsumerGroups.Log.create_group_entries] at hmessage
  refine ⟨message, hmessage, hid, state.unread.length, ?_⟩
  rcases hgiven with hnext | hpending
  · refine List.mem_append_left _ (List.mem_append_right _ ?_)
    exact List.mem_map.mpr ⟨message, hnext, rfl⟩
  · refine List.mem_append_right _ (List.mem_map.mpr ⟨message, ?_, rfl⟩)
    exact ConsumerGroups.Log.pending_read hpending _

/-- In every run of any processes over PostgreSQL and Redis, in which commands fail, answers are lost,
claims expire, processes end, others write to the stream and Redis falls back to earlier states: a
delivery that is open and observed as published relies on a message that refers to it, and if the stream
still holds the message, its group has not acknowledged it, and three commands hand it to a consumer of
the group. Unless Redis has fallen back, the stream holds it. -/
theorem published_references_outstanding (deployment : LawfulDeployment π ρ) (now : Timestamp)
    (acts : List (Act π)) :
    let w := Transport.run deployment.toDeployment now acts
    (∀ r ∈ w.workers.database.deliveries, r.is_open → r.delivery.published_at.isSome →
      ∃ message ∈ w.messages, Refers deployment.toDeployment w.workers.database message.fields r ∧
        (message ∈ w.stream.entries →
          w.stream.Outstanding StreamMessage.message_id r.delivery.consumer_name message.message_id ∧
          ∃ count, (r.delivery.consumer_name, message) ∈
            (Transition.run (Transport.step deployment.toDeployment) w
              [.ensure_group r.delivery.consumer_name, .read_new r.delivery.consumer_name count true,
                .claim_pending r.delivery.consumer_name [message.message_id]]).handed)) ∧
    ((∀ a ∈ acts, a.falls_back = false) → ∀ message ∈ w.messages, message ∈ w.stream.entries) := by
  have hinv := Inv.run deployment now acts
  obtain ⟨hsound, hentries⟩ := hinv.logs _ (Or.inl rfl)
  refine ⟨fun r hr hopen hsome => ?_, fun hacts => ?_⟩
  · -- The row relies on a live message.
    obtain ⟨message, hmessage, hrefers, hlive⟩ := hinv.rows r hr hopen hsome
    refine ⟨message, hmessage, hrefers, fun hheld => ?_⟩
    have houtstanding := hlive.1 _ (Or.inl rfl) (List.mem_map_of_mem hheld)
    refine ⟨houtstanding, ?_⟩
    -- Three commands are enough: the group is there, the new entries are read, and the pending ones
    -- claimed.
    obtain ⟨message', hheld', hid, hhanded⟩ :=
      handed_of_outstanding deployment.toDeployment hsound houtstanding
    obtain rfl : message' = message := hinv.ids.eq_of_key (hentries _ hheld') hmessage hid
    exact hhanded
  · -- Without a fallback no action of the run removes an entry.
    refine @Transition.run_invariant_of _ _ _ _ (fun _ a => a.falls_back = false)
      (fun w a ha h => Kept.step deployment.toDeployment a ha h) _ (fun _ h => absurd h List.not_mem_nil)
      acts fun pre a hpre => hacts a ?_
    exact hpre.subset (List.mem_append_right _ (List.mem_singleton_self a))

end Runs

end Transport

end RestaurantOS.Events
