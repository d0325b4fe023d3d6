import RestaurantOS.Frontend.Session
import Mathlib.Data.List.Infix
import Mathlib.Data.List.Count

/-!
# The renewals of a tab

Two invariants of a tab. `Renewing` is about the promises of `renewSession`: one that is not settled is
the pending one, one whose requests are in flight holds the lock, and `/auth/refresh` is sent only after
`/auth/me` was refused under the same hold and no earlier attempt has failed since the last login.
`Calling` is about the calls of `apiFetch`: the second request comes after a refusal of the first and a
renewal. The statements about a run are read off its history.
-/

namespace RestaurantOS.Frontend.Session

/-! ## Reading a history -/

/-- What has happened in the current hold of the lock, the last event first. -/
def hold : List Event → List Event
  | [] => []
  | .lock_acquired holder :: _ => [.lock_acquired holder]
  | .lock_released :: _ => []
  | event :: past => event :: hold past

/-- A `POST` of `/auth/refresh` has failed, and no login has succeeded since. -/
def blocked : List Event → Bool
  | [] => false
  | .refresh_answered _ reply :: past => !reply.ok || blocked past
  | .login_answered _ reply :: past => !reply.ok && blocked past
  | _ :: past => blocked past

/-- Between a failed `POST` and a time that is not blocked a login has succeeded. -/
theorem exists_login {between past : List Event} {j : ℕ} {reply : Reply} (hfailed : reply.ok = false)
    (h : blocked (between ++ .refresh_answered j reply :: past) = false) :
    ∃ c reply', reply'.ok = true ∧ .login_answered c reply' ∈ between := by
  -- The latest answer that settles whether the time is blocked is at the head of `between`, if any.
  induction between with
  | nil =>
    rw [List.nil_append, blocked, hfailed] at h
    cases h
  | cons event between ih =>
    have htail : blocked (between ++ .refresh_answered j reply :: past) = false →
        ∃ c reply', reply'.ok = true ∧ .login_answered c reply' ∈ event :: between := fun hb =>
      have ⟨c, reply', hok, hmem⟩ := ih hb
      ⟨c, reply', hok, List.mem_cons_of_mem _ hmem⟩
    cases event with
    | login_answered c reply' =>
      cases hok : reply'.ok with
      | true => exact ⟨c, reply', hok, List.mem_cons_self⟩
      | false =>
        rw [List.cons_append, blocked, hok] at h
        exact htail h
    | refresh_answered i reply' =>
      rw [List.cons_append, blocked, Bool.or_eq_false_iff] at h
      exact htail h.2
    | _ => exact htail h

/-- The events that neither move the lock nor are about `/auth/refresh` or the end of a renewal. -/
def Event.plain : Event → Bool
  | .lock_acquired _ | .lock_released | .refresh_sent _ | .refresh_answered .. | .settled .. => false
  | _ => true

/-- A plain event neither takes nor releases the lock, so it is part of the current hold. -/
theorem hold_plain {event : Event} (h : event.plain = true) (past : List Event) :
    hold (event :: past) = event :: hold past := by
  cases event <;> first | rfl | cases h

/-- A plain event does not block the renewals; a login may lift the block. -/
theorem blocked_plain {event : Event} (h : event.plain = true) {past : List Event}
    (hb : blocked past = false) : blocked (event :: past) = false := by
  cases event with
  | login_answered c reply => rw [blocked, hb, Bool.and_false]
  | _ => first | exact hb | cases h

/-! ## The promises -/

/-- It is not settled. Only `finally` settles it. -/
def Renewal.pending : Renewal → Bool
  | .settled _ => false
  | _ => true

/-- A request of it is in flight or its answer is read. -/
def Renewal.holds : Renewal → Bool
  | .asking | .reading_current _ | .refreshing | .reading_refreshed _ => true
  | _ => false

/-- Its `POST` is in flight. The request was sent and its answer has not been read. -/
def Renewal.refreshes : Renewal → Bool
  | .refreshing | .reading_refreshed _ => true
  | _ => false

/-- Only the body of an error is read. -/
def Renewal.reads_error : Renewal → Bool
  | .reading_current response | .reading_refreshed response => !response.ok
  | _ => true

/-- It has succeeded. It is settled without a failure, or about to be. -/
def Renewal.succeeds : Renewal → Bool
  | .settling none | .settled none => true
  | _ => false

/-- What had happened before a renewal sends its `POST`: in the same hold of the lock its request of
`/auth/me` was refused, and no attempt has failed since the last login. -/
def MaySend (i : ℕ) (past : List Event) : Prop :=
  (∃ response : Response, response.status = 401 ∧
    ([.current_answered i (.response response), .current_sent i, .lock_acquired (.renewal i)] :
      List Event).Sublist (hold past)) ∧
    blocked past = false

/-- A request of a renewal has succeeded. Either the session was found valid or it was refreshed. -/
def Renewed (i : ℕ) (past : List Event) : Prop :=
  ∃ reply : Reply, reply.ok = true ∧
    (.current_answered i reply ∈ past ∨ .refresh_answered i reply ∈ past)

/-- The invariant of the promises. It relates the promises, the module variables and the lock to the
history. -/
structure Renewing (renewals : List Renewal) (pendingRefresh : Option ℕ)
    (failedRefresh : Option Thrown) (holder : Option Holder) (history : List Event) : Prop where
  /-- A promise that is not settled is the pending one. -/
  pending : ∀ (i : ℕ) (renewal : Renewal), renewals[i]? = some renewal → renewal.pending = true →
    pendingRefresh = some i
  /-- One with a request in flight holds the lock. -/
  holder : ∀ (i : ℕ) (renewal : Renewal), renewals[i]? = some renewal → renewal.holds = true →
    holder = some (.renewal i)
  /-- `/auth/me` was asked under the hold, while no attempt had failed. -/
  asked : ∀ i, renewals[i]? = some .asking →
    ([.current_sent i, .lock_acquired (.renewal i)] : List Event).Sublist (hold history) ∧
      blocked history = false
  /-- A failed attempt is remembered, or its answer is still read. -/
  remembered : blocked history = true → failedRefresh.isSome ∨
    ∃ (i : ℕ) (response : Response), renewals[i]? = some (.reading_refreshed response)
  /-- Only the bodies of errors are read. -/
  reads : ∀ (i : ℕ) (renewal : Renewal), renewals[i]? = some renewal → renewal.reads_error = true
  /-- A `POST` was allowed. -/
  sent : ∀ i past, .refresh_sent i :: past <:+ history → MaySend i past
  /-- How promises were settled. -/
  settled : ∀ i outcome, .settled i outcome ∈ history ↔ renewals[i]? = some (.settled outcome)
  /-- A renewal that succeeds had a request that did. -/
  renewed : ∀ (i : ℕ) (renewal : Renewal), renewals[i]? = some renewal →
    renewal.succeeds = true → Renewed i history

/-- The promises of `w` have the invariant. It is the invariant of the fields that belong to them.
-/
abbrev World.Renewing (w : World) : Prop :=
  Session.Renewing w.renewals w.pendingRefresh w.failedRefresh w.holder w.history

section
variable {w : World} {i : ℕ} {renewal : Renewal} {event : Event}

/-- What is read in a list after an entry is set. -/
theorem get_set {α : Type*} {l : List α} {i j : ℕ} {a b : α} (h : (l.set i a)[j]? = some b) :
    (j = i ∧ b = a) ∨ (j ≠ i ∧ l[j]? = some b) := by
  rw [List.getElem?_set] at h
  split_ifs at h with heq hlt
  · exact Or.inl ⟨heq.symm, (Option.some.inj h).symm⟩
  · exact Or.inr ⟨fun hji => heq hji.symm, h⟩

/-- What is read in a list after an entry is added. -/
theorem get_append {α : Type*} {l : List α} {j : ℕ} {a b : α} (h : (l ++ [a])[j]? = some b) :
    (j = l.length ∧ b = a) ∨ l[j]? = some b := by
  rw [List.getElem?_append] at h
  split_ifs at h with hlt
  · exact Or.inr h
  · rw [List.getElem?_singleton] at h
    split_ifs at h with hzero
    exact Or.inl ⟨by omega, (Option.some.inj h).symm⟩

/-- A success stays one. -/
theorem Renewed.cons {past : List Event} (h : Renewed i past) (event : Event) :
    Renewed i (event :: past) := by
  obtain ⟨reply, hok, hmem⟩ := h
  exact ⟨reply, hok, hmem.imp (List.mem_cons_of_mem _) (List.mem_cons_of_mem _)⟩

/-- Two promises that are not settled are one. -/
theorem Renewing.eq_of_pending (h : w.Renewing) {j : ℕ} {renewal' : Renewal}
    (hi : w.renewals[i]? = some renewal) (hj : w.renewals[j]? = some renewal')
    (hpending : renewal.pending = true) (hpending' : renewal'.pending = true) : i = j :=
  Option.some.inj ((h.pending i _ hi hpending).symm.trans (h.pending j _ hj hpending'))

/-! ### What happens to them -/

/-- A tab is loaded with no promise. Nothing has been asked for, and nobody waits for the lock. -/
theorem renewing_loaded : World.loaded.Renewing where
  pending _ _ h := by cases h
  holder _ _ h := by cases h
  asked _ h := by cases h
  remembered h := by cases h
  reads _ _ h := by cases h
  sent _ _ h := absurd (List.suffix_nil.mp h) (List.cons_ne_nil _ _)
  settled _ _ := ⟨fun h => (by cases h), fun h => (by cases h)⟩
  renewed _ _ h := by cases h

/-- A plain event changes nothing. Plain events are those that none of the conditions of the
invariant speaks of. -/
theorem Renewing.record (h : w.Renewing) (hplain : event.plain = true) :
    (w.record event).Renewing where
  pending := h.pending
  holder := h.holder
  asked i hi := by
    obtain ⟨hsub, hb⟩ := h.asked i hi
    refine ⟨?_, blocked_plain hplain hb⟩
    show List.Sublist _ (hold (event :: w.history))
    rw [hold_plain hplain]
    exact hsub.cons _
  -- A block that is there now was there before.
  remembered hb := by
    refine h.remembered (Bool.not_eq_false _ |>.mp fun hfalse => ?_)
    rw [World.record, blocked_plain hplain hfalse] at hb
    cases hb
  reads := h.reads
  sent i past hsuffix := by
    rcases List.suffix_cons_iff.mp hsuffix with heq | htail
    · rw [← (List.cons.inj heq).1] at hplain
      cases hplain
    · exact h.sent i past htail
  -- The event is not the settling of a promise.
  settled i outcome := by
    refine Iff.trans ?_ (h.settled i outcome)
    refine List.mem_cons.trans (or_iff_right ?_)
    rintro rfl
    cases hplain
  renewed i renewal hi hs := (h.renewed i renewal hi hs).cons _

/-- A promise goes on: only `finally` settles it, no request of it begins here, and it forgets a
failed attempt only when that is remembered. The hypotheses are what the steps of the operation have
in common, and each of them uses one of the following fields. -/
theorem Renewing.set (h : w.Renewing) (hget : w.renewals[i]? = some renewal) {next : Renewal}
    (hpending : renewal.pending = true) (hnext : next.pending = true) (hask : next ≠ .asking)
    (hholds : next.holds = true → renewal.holds = true)
    (hread : ∀ response, renewal = .reading_refreshed response → w.failedRefresh.isSome)
    (herror : next.reads_error = true)
    (hsucceeds : next.succeeds = true → Renewed i w.history) : (w.set_renewal i next).Renewing where
  -- Each field is about the promise itself or about another one, which stays.
  pending j other hj hp := by
    rcases get_set hj with ⟨rfl, rfl⟩ | ⟨-, hj⟩
    · exact h.pending j renewal hget hpending
    · exact h.pending j other hj hp
  holder j other hj hp := by
    rcases get_set hj with ⟨rfl, rfl⟩ | ⟨-, hj⟩
    · exact h.holder j renewal hget (hholds hp)
    · exact h.holder j other hj hp
  asked j hj := by
    rcases get_set hj with ⟨-, heq⟩ | ⟨-, hj⟩
    · exact absurd heq.symm hask
    · exact h.asked j hj
  remembered hb := by
    rcases h.remembered hb with hsome | ⟨j, response, hj⟩
    · exact Or.inl hsome
    · -- The promise that still reads its failed answer is this one.
      have hji : j = i := h.eq_of_pending hj hget rfl hpending
      rw [hji, hget] at hj
      exact Or.inl (hread response (Option.some.inj hj))
  reads j other hj := by
    rcases get_set hj with ⟨-, rfl⟩ | ⟨-, hj⟩
    · exact herror
    · exact h.reads j other hj
  sent := h.sent
  settled j outcome := by
    -- It is settled neither before nor after, and the others are as they were.
    refine (h.settled j outcome).trans ⟨fun hj => ?_, fun hj => ?_⟩
    · have hne : j ≠ i := by
        rintro rfl
        rw [← Option.some.inj (hj.symm.trans hget)] at hpending
        cases hpending
      exact (List.getElem?_set_ne hne.symm).trans hj
    · rcases get_set hj with ⟨-, heq⟩ | ⟨-, hj⟩
      · rw [← heq] at hnext
        cases hnext
      · exact hj
  renewed j other hj hs := by
    rcases get_set hj with ⟨rfl, rfl⟩ | ⟨-, hj⟩
    · exact hsucceeds hs
    · exact h.renewed j other hj hs

/-- The operation of a renewal asks for the user, under its hold of the lock. This is the only way a
promise comes to `asking`, from where the `POST` is sent. -/
theorem Renewing.ask (h : w.Renewing) (hget : w.renewals[i]? = some .waiting)
    (hholder : w.holder = some (.renewal i))
    (hhold : ([.lock_acquired (.renewal i)] : List Event).Sublist (hold w.history))
    (hfailed : w.failedRefresh = none) :
    ((w.set_renewal i .asking).record (.current_sent i)).Renewing := by
  -- No attempt has failed: the failure would be remembered, or its answer be read by this promise.
  have hblocked : blocked w.history = false := by
    refine Bool.not_eq_true _ |>.mp fun hb => ?_
    rcases h.remembered hb with hsome | ⟨j, response, hj⟩
    · rw [hfailed] at hsome
      cases hsome
    · have hji : j = i := h.eq_of_pending hj hget rfl rfl
      rw [hji, hget] at hj
      cases hj
  refine ⟨fun j other hj hp => ?_, fun j other hj hp => ?_, fun j hj => ?_, fun hb => ?_,
    fun j other hj => ?_, fun j past hsuffix => ?_, fun j outcome => ?_, fun j other hj hs => ?_⟩
  · -- Each condition is about the promise that asks, or about another one.
    rcases get_set hj with ⟨rfl, -⟩ | ⟨-, hj⟩
    · exact h.pending j .waiting hget rfl
    · exact h.pending j other hj hp
  · rcases get_set hj with ⟨rfl, -⟩ | ⟨-, hj⟩
    · exact hholder
    · exact h.holder j other hj hp
  · rcases get_set hj with ⟨rfl, -⟩ | ⟨hne, hj⟩
    · exact ⟨hhold.cons_cons _, hblocked⟩
    · exact absurd (h.eq_of_pending hj hget rfl rfl) hne
  · -- It has just been shown that nothing blocks.
    exact absurd (hblocked.symm.trans hb) (by decide)
  · rcases get_set hj with ⟨-, rfl⟩ | ⟨-, hj⟩
    · rfl
    · exact h.reads j other hj
  · rcases List.suffix_cons_iff.mp hsuffix with heq | htail
    · cases heq
    · exact h.sent j past htail
  · -- No promise is settled by this event.
    have hmem : Event.settled j outcome ∈ Event.current_sent i :: w.history ↔
        Event.settled j outcome ∈ w.history :=
      List.mem_cons.trans (or_iff_right fun heq => (by cases heq))
    refine hmem.trans ((h.settled j outcome).trans ?_)
    rcases eq_or_ne j i with rfl | hne
    · have hself : (w.renewals.set j .asking)[j]? = some .asking :=
        List.getElem?_set_self (List.getElem?_eq_some_iff.mp hget).1
      rw [hget]
      exact iff_of_false (fun heq => (by cases heq)) fun heq => (by cases hself.symm.trans heq)
    · exact (by rw [← List.getElem?_set_ne hne.symm]; rfl)
  · rcases get_set hj with ⟨-, rfl⟩ | ⟨-, hj⟩
    · cases hs
    · exact (h.renewed j other hj hs).cons _

/-- The lock changes hands while no request of a renewal is in flight. -/
theorem Renewing.lock (h : w.Renewing)
    (hnone : ∀ (j : ℕ) (other : Renewal), w.renewals[j]? = some other → other.holds = false)
    (holder : Option Holder)
    (hevent : event = .lock_released ∨ ∃ holder, event = .lock_acquired holder) :
    ({ w with holder := holder }.record event).Renewing where
  pending := h.pending
  holder j other hj hp := by
    rw [hnone j other hj] at hp
    cases hp
  asked j hj := absurd (hnone j _ hj) (by decide)
  remembered hb := by
    refine h.remembered ?_
    rcases hevent with rfl | ⟨holder', rfl⟩ <;> exact hb
  reads := h.reads
  sent j past hsuffix := by
    rcases List.suffix_cons_iff.mp hsuffix with heq | htail
    · rcases hevent with rfl | ⟨holder', rfl⟩ <;> cases heq
    · exact h.sent j past htail
  settled j outcome := by
    refine Iff.trans (List.mem_cons.trans (or_iff_right ?_)) (h.settled j outcome)
    rcases hevent with rfl | ⟨holder', rfl⟩ <;> exact fun heq => (by cases heq)
  renewed j other hj hs := (h.renewed j other hj hs).cons _

/-- Nobody has a request in flight while the lock is free. -/
theorem Renewing.free (h : w.Renewing) (hfree : w.holder = none) (j : ℕ) (other : Renewal)
    (hj : w.renewals[j]? = some other) : other.holds = false := by
  refine Bool.not_eq_true _ |>.mp fun hholds => ?_
  rw [h.holder j other hj hholds] at hfree
  cases hfree

/-- A `POST` is sent when it may be. The renewal is the only one, and it has asked for the session
before. -/
theorem Renewing.send (h : w.Renewing) (hmay : MaySend i w.history) :
    (w.record (.refresh_sent i)).Renewing where
  pending := h.pending
  holder := h.holder
  asked j hj := ⟨(h.asked j hj).1.cons _, (h.asked j hj).2⟩
  remembered := h.remembered
  reads := h.reads
  sent j past hsuffix := by
    rcases List.suffix_cons_iff.mp hsuffix with heq | htail
    · obtain ⟨hevent, rfl⟩ := List.cons.inj heq
      rw [Event.refresh_sent.inj hevent]
      exact hmay
    · exact h.sent j past htail
  settled j outcome :=
    (List.mem_cons.trans (or_iff_right fun heq => (by cases heq))).trans (h.settled j outcome)
  renewed j other hj hs := (h.renewed j other hj hs).cons _

/-- A `POST` is answered: a failure is remembered, or its answer is still read. The invariant allows
for one moment in which the failure is only in the answer that the promise is about to read. -/
theorem Renewing.answered (h : w.Renewing) (hget : w.renewals[i]? = some renewal)
    (hpending : renewal.pending = true) (hask : renewal ≠ .asking) {reply : Reply}
    (hfailed : reply.ok = false → w.failedRefresh.isSome ∨ ∃ response,
      renewal = .reading_refreshed response) :
    (w.record (.refresh_answered i reply)).Renewing where
  pending := h.pending
  holder := h.holder
  asked j hj := by
    have hji : j = i := h.eq_of_pending hj hget rfl hpending
    rw [hji] at hj
    exact absurd (Option.some.inj (hget.symm.trans hj)) hask
  -- The answer is a failure or it is none.
  remembered hb := by
    cases hok : reply.ok with
    | true =>
      refine h.remembered ?_
      rw [World.record, blocked, hok] at hb
      exact hb
    -- Only the promise that has the answer reads it.
    | false =>
      refine (hfailed hok).imp_right fun ⟨response, heq⟩ => ⟨i, response, ?_⟩
      rw [← heq]
      exact hget
  reads := h.reads
  sent j past hsuffix := by
    rcases List.suffix_cons_iff.mp hsuffix with heq | htail
    · cases heq
    · exact h.sent j past htail
  settled j outcome :=
    (List.mem_cons.trans (or_iff_right fun heq => (by cases heq))).trans (h.settled j outcome)
  renewed j other hj hs := (h.renewed j other hj hs).cons _

/-- A failure is remembered. -/
theorem Renewing.remember (h : w.Renewing) (failure : Thrown) :
    { w with failedRefresh := some failure }.Renewing :=
  { h with remembered := fun _ => Or.inl rfl }

/-- After a login there is none to remember. -/
theorem Renewing.forget (h : w.Renewing) (hblocked : blocked w.history = false) :
    { w with failedRefresh := none }.Renewing :=
  { h with remembered := fun hb => absurd (hblocked.symm.trans hb) (by decide) }

/-- `finally` settles a promise, and the next call makes another one. `pendingRefresh` is emptied in
the same step, so that no settled promise is handed out again. -/
theorem Renewing.settle (h : w.Renewing) {outcome : Outcome}
    (hget : w.renewals[i]? = some (.settling outcome)) :
    ({ w.set_renewal i (.settled outcome) with pendingRefresh := none }.record
      (.settled i outcome)).Renewing := by
  -- The promise was the only one that was not settled, so the slot is free for the next.
  have hothers : ∀ (j : ℕ) (other : Renewal), (w.renewals.set i (.settled outcome))[j]? = some other →
      other.pending = true → False := fun j other hj hp => by
    rcases get_set hj with ⟨rfl, rfl⟩ | ⟨hne, hj⟩
    · cases hp
    · exact hne (h.eq_of_pending hj hget hp rfl)
  have hself : (w.renewals.set i (.settled outcome))[i]? = some (.settled outcome) :=
    List.getElem?_set_self (List.getElem?_eq_some_iff.mp hget).1
  -- A failure is remembered already, as the promise is past its answer.
  refine ⟨fun j other hj hp => (hothers j other hj hp).elim, fun j other hj hp => ?_,
    fun j hj => (hothers j _ hj rfl).elim, fun hb => ?_, fun j other hj => ?_,
    fun j past hsuffix => ?_, fun j outcome' => ?_, fun j other hj hs => ?_⟩
  · refine (hothers j other hj ?_).elim
    cases other <;> first | rfl | cases hp
  · refine (h.remembered hb).imp_right fun ⟨j, response, hj⟩ => ?_
    have hji : j = i := h.eq_of_pending hj hget rfl rfl
    rw [hji, hget] at hj
    cases hj
  · rcases get_set hj with ⟨-, rfl⟩ | ⟨-, hj⟩
    · rfl
    · exact h.reads j other hj
  · rcases List.suffix_cons_iff.mp hsuffix with heq | htail
    · cases heq
    · exact h.sent j past htail
  · show _ ∈ Event.settled i outcome :: w.history ↔ (w.renewals.set i (.settled outcome))[j]? = _
    rw [List.mem_cons, h.settled j outcome']
    -- Exactly the events about this promise are new.
    rcases eq_or_ne j i with rfl | hne
    · rw [hself, hget]
      constructor
      · rintro (heq | heq)
        · rw [(Event.settled.inj heq).2]
        · cases heq
      · exact fun heq => Or.inl (by rw [Renewal.settled.inj (Option.some.inj heq)])
    · rw [List.getElem?_set_ne hne.symm]
      exact or_iff_right fun heq => hne (Event.settled.inj heq).1
  · -- A promise that settles with success has renewed the session before.
    rcases get_set hj with ⟨rfl, rfl⟩ | ⟨-, hj⟩
    · refine Renewed.cons (h.renewed j _ hget ?_) _
      cases outcome <;> first | rfl | cases hs
    · exact (h.renewed j other hj hs).cons _

/-- A promise is made while none is pending. It is the last of the list and the only one that is
pending; it has not asked for anything yet. -/
theorem Renewing.make (h : w.Renewing) (hnone : w.pendingRefresh = none)
    (hpending : renewal.pending = true) (hholds : renewal.holds = false)
    (herror : renewal.reads_error = true) (hsucceeds : renewal.succeeds = false) :
    { w with
      renewals := w.renewals ++ [renewal]
      pendingRefresh := some w.renewals.length }.Renewing where
  -- Another pending promise would fill the slot.
  pending j other hj hp := by
    rcases get_append hj with ⟨rfl, -⟩ | hj
    · rfl
    · exact absurd ((h.pending j other hj hp).symm.trans hnone) (by simp)
  holder j other hj hp := by
    rcases get_append hj with ⟨-, rfl⟩ | hj
    · rw [hholds] at hp
      cases hp
    · exact h.holder j other hj hp
  -- A promise without the lock is not asking.
  asked j hj := by
    rcases get_append hj with ⟨-, rfl⟩ | hj
    · cases hholds
    · exact h.asked j hj
  remembered hb := by
    refine (h.remembered hb).imp_right fun ⟨j, response, hj⟩ => ⟨j, response, ?_⟩
    exact (List.getElem?_append_left (List.getElem?_eq_some_iff.mp hj).1).trans hj
  reads j other hj := by
    rcases get_append hj with ⟨-, rfl⟩ | hj
    · exact herror
    · exact h.reads j other hj
  sent := h.sent
  -- The new promise is pending, hence not settled.
  settled j outcome := by
    refine (h.settled j outcome).trans ⟨fun hj => ?_, fun hj => ?_⟩
    · exact (List.getElem?_append_left (List.getElem?_eq_some_iff.mp hj).1).trans hj
    · rcases get_append hj with ⟨-, rfl⟩ | hj
      · cases hpending
      · exact hj
  renewed j other hj hs := by
    rcases get_append hj with ⟨-, rfl⟩ | hj
    · rw [hsucceeds] at hs
      cases hs
    · exact h.renewed j other hj hs

/-! ### The functions of the client -/

/-- A renewal ends with an error. -/
theorem Renewing.reject (h : w.Renewing) (hget : w.renewals[i]? = some renewal)
    (hpending : renewal.pending = true)
    (hread : ∀ response, renewal = .reading_refreshed response → w.failedRefresh.isSome)
    (failure : Thrown) : (w.set_renewal i (.settling (some failure))).Renewing :=
  h.set hget hpending rfl (by simp) (fun hp => (by cases hp)) hread rfl fun hs => (by cases hs)

/-- `renewSession` returns the pending promise, or makes one. A promise is made only when none is
pending, so two renewals never run at once. -/
theorem Renewing.renewSession (h : w.Renewing) (locks : Bool) : (w.renewSession locks).1.Renewing := by
  unfold World.renewSession
  split
  · exact h
  · split
    · exact h
    · rename_i hnone
      dsimp only
      split_ifs
      · exact h.make hnone rfl rfl rfl rfl
      · exact h.make hnone rfl rfl rfl rfl

/-- A request of `/auth/me` is answered. A session that is still valid ends the renewal, and any
other answer sends the `POST`. -/
theorem Renewing.after_current (h : w.Renewing) (hget : w.renewals[i]? = some .asking) (reply : Reply) :
    ((w.record (.current_answered i reply)).after_current i reply).Renewing := by
  have hrecord : (w.record (.current_answered i reply)).Renewing := h.record rfl
  unfold World.after_current
  split
  · exact hrecord.reject hget rfl (fun _ heq => (by cases heq)) _
  · rename_i response
    split_ifs with hok hstatus
    · exact hrecord.set hget rfl rfl (by simp) (fun hp => (by cases hp)) (fun _ heq => (by cases heq))
        rfl fun _ => ⟨.response response, hok, Or.inl List.mem_cons_self⟩
    · have herror : Renewal.reads_error (.reading_current response) = true := by
        simpa [Renewal.reads_error] using hok
      exact hrecord.set hget rfl rfl (by simp) (fun _ => rfl) (fun _ heq => (by cases heq)) herror
        fun hs => (by cases hs)
    · have hset : ((w.record (.current_answered i (.response response))).set_renewal i
          .refreshing).Renewing :=
        hrecord.set hget rfl rfl (by simp) (fun _ => rfl) (fun _ heq => (by cases heq)) rfl
          fun hs => (by cases hs)
      -- The hold goes on, so its events are those since the request of `/auth/me`, and the answer.
      obtain ⟨hsub, hblocked⟩ := h.asked i hget
      exact hset.send ⟨⟨response, not_not.mp hstatus, hsub.cons_cons _⟩, hblocked⟩

/-- A request of `/auth/refresh` is answered. Whatever it says, the request is over and the lock can
be released. -/
theorem Renewing.after_refresh (h : w.Renewing) (hget : w.renewals[i]? = some .refreshing)
    (reply : Reply) : ((w.record (.refresh_answered i reply)).after_refresh i reply).Renewing := by
  have hself : ∀ next : Renewal, (w.renewals.set i next)[i]? = some next := fun next =>
    List.getElem?_set_self (List.getElem?_eq_some_iff.mp hget).1
  unfold World.after_refresh
  split
  · rename_i failure
    -- The order in which the failure is remembered and recorded does not matter.
    have hset := (h.remember failure.as_error).reject hget rfl (fun _ _ => rfl) failure.as_error
    exact hset.answered (hself _) rfl (by simp) fun _ => Or.inl rfl
  · rename_i response
    split_ifs with hok
    · have hanswered : (w.record (.refresh_answered i (.response response))).Renewing :=
        h.answered hget rfl (by simp) fun hfailed => absurd (hfailed.symm.trans hok) (by decide)
      exact hanswered.set hget rfl rfl (by simp) (fun hp => (by cases hp))
        (fun _ heq => (by cases heq)) rfl
        fun _ => ⟨.response response, hok, Or.inr List.mem_cons_self⟩
    · have herror : Renewal.reads_error (.reading_refreshed response) = true := by
        simpa [Renewal.reads_error] using hok
      have hset : (w.set_renewal i (.reading_refreshed response)).Renewing :=
        h.set hget rfl rfl (by simp) (fun _ => rfl) (fun _ heq => (by cases heq)) herror
          fun hs => (by cases hs)
      exact hset.answered (hself _) rfl (by simp) fun _ => Or.inr ⟨response, rfl⟩

/-- An answer that is no success raises an error. -/
theorem checkResponse_isSome {response : Response} (h : response.ok = false) :
    ∃ failure, checkResponse response = some failure := by
  unfold checkResponse
  rw [h]
  exact ⟨_, rfl⟩

/-- The body of an answer is there. Only then is the promise settled. -/
theorem Renewing.read_renewal (h : w.Renewing) (i : ℕ) : (w.read_renewal i).Renewing := by
  unfold World.read_renewal
  split
  · rename_i response hget
    have hnot : response.ok = false := by simpa [Renewal.reads_error] using h.reads i _ hget
    obtain ⟨failure, hcheck⟩ := checkResponse_isSome hnot
    rw [hcheck]
    exact h.reject hget rfl (fun _ heq => (by cases heq)) failure
  · rename_i response hget
    have hnot : response.ok = false := by simpa [Renewal.reads_error] using h.reads i _ hget
    obtain ⟨failure, hcheck⟩ := checkResponse_isSome hnot
    rw [hcheck]
    exact (h.remember failure.as_error).reject hget rfl (fun _ _ => rfl) failure.as_error
  · exact h

/-- The request of a renewal ends. The renewal that awaits it reads its status, and goes on from
there. -/
theorem Renewing.answer_renewal (h : w.Renewing) (i : ℕ) (reply : Reply) :
    (w.answer_renewal i reply).Renewing := by
  unfold World.answer_renewal
  split
  · rename_i hget
    exact h.after_current hget reply
  · rename_i hget
    exact h.after_refresh hget reply
  · exact h

/-- The operation of a renewal begins, under its hold of the lock. -/
theorem Renewing.begin_renewal (h : w.Renewing) (hget : w.renewals[i]? = some .waiting)
    (hholder : w.holder = some (.renewal i))
    (hhold : ([.lock_acquired (.renewal i)] : List Event).Sublist (hold w.history)) :
    (w.begin_renewal i).Renewing := by
  unfold World.begin_renewal
  split
  · exact h.reject hget rfl (fun _ heq => (by cases heq)) _
  · rename_i hfailed
    exact h.ask hget hholder hhold hfailed

/-- The lock is granted. Whoever holds it is the only one who renews. -/
theorem Renewing.acquire (h : w.Renewing) (holder : Holder) : (w.acquire holder).Renewing := by
  unfold World.acquire
  split_ifs with hfree
  · have hacquired : ({ w with holder := some holder }.record (.lock_acquired holder)).Renewing :=
      h.lock (h.free hfree) (some holder) (Or.inr ⟨holder, rfl⟩)
    unfold World.grant
    split
    · exact hacquired
    · rename_i i
      split_ifs with hget
      · exact hacquired.begin_renewal hget rfl (List.Sublist.refl _)
      · exact h
    · dsimp only
      split
      · exact hacquired
      · exact hacquired
      · exact h
  · exact h

/-- The request of the lock is rejected. The renewal fails, and its promise with it. -/
theorem Renewing.refuse (h : w.Renewing) (holder : Holder) (failure : Thrown) :
    (w.refuse holder failure).Renewing := by
  unfold World.refuse
  split
  · exact h
  · split_ifs with hget
    · exact h.reject hget rfl (fun _ heq => (by cases heq)) failure
    · exact h
  · split <;> exact h

/-- The lock is released. The first one in the queue gets it. -/
theorem Renewing.release (h : w.Renewing) : w.release.Renewing := by
  unfold World.release
  split
  · rename_i holder hholder
    split_ifs with hended
    · refine h.lock (fun j other hj => Bool.not_eq_true _ |>.mp fun hholds => ?_) none (Or.inl rfl)
      obtain rfl : holder = .renewal j :=
        Option.some.inj (hholder.symm.trans (h.holder j other hj hholds))
      simp only [World.ended, hj] at hended
      cases other <;> 
        first | exact absurd hholds Bool.false_ne_true | exact absurd hended Bool.false_ne_true
    · exact h
  · exact h

/-- `apiFetch` ends. -/
theorem Renewing.fetch_fails (h : w.Renewing) (c : ℕ) (failure : Thrown) :
    (w.fetch_fails c failure).Renewing := by
  unfold World.fetch_fails
  dsimp only
  split
  · exact Renewing.record (w := w.set_call c _) h rfl
  · exact h

/-- The end of a call does not concern the promises, whether or not the page is redirected. -/
theorem Renewing.fetch_ends (h : w.Renewing) (c : ℕ) (response : Response) :
    (w.fetch_ends c response).Renewing := by
  have hrecord : (if response.status = 401 then w.record (.redirected c) else w).Renewing := by
    split_ifs
    · exact h.record rfl
    · exact h
  exact hrecord

/-- The request of a call ends. What follows depends on which request of the call it is: the first,
the repeated one, the login or the logout. -/
theorem Renewing.answer (h : w.Renewing) (locks : Bool) (c : ℕ) (reply : Reply) :
    (w.answer locks c reply).Renewing := by
  unfold World.answer
  split
  · have hrecord : (w.record (.request_answered c reply)).Renewing := h.record rfl
    -- A refused first request renews the session; every other answer ends the call.
    unfold World.after_first
    split
    · exact hrecord
    · split_ifs
      · have hrenew := hrecord.renewSession locks
        split
        · rename_i w' failure heq
          rw [heq] at hrenew
          exact hrenew.fetch_fails c failure
        · rename_i w' renewal heq
          rw [heq] at hrenew
          exact hrenew
      · exact hrecord.fetch_ends c _
  · have hrecord : (w.record (.request_answered c reply)).Renewing := h.record rfl
    -- The repeated request ends the call in any case.
    unfold World.after_again
    split
    · exact hrecord.fetch_fails c _
    · exact hrecord.fetch_ends c _
  · have hrecord : (w.record (.login_answered c reply)).Renewing := h.record rfl
    unfold World.after_login
    -- A login lifts the block exactly if it has succeeded.
    split
    · exact hrecord
    · rename_i response
      split_ifs with hok
      · -- The login itself lifts the block.
        refine hrecord.forget ?_
        show (!response.ok && blocked w.history) = false
        rw [hok]
        rfl
      · exact hrecord
  · -- A logout changes nothing here.
    unfold World.after_logout
    split <;> exact h
  · exact h

/-- A call goes on after a renewal. It awaits no promise any more, and no renewal is touched. -/
theorem Renewing.resume (h : w.Renewing) (c : ℕ) : (w.resume c).Renewing := by
  unfold World.resume
  split
  · rename_i i hcall
    split
    · rename_i outcome hget
      have hrecord : (w.record (.resumed c i outcome)).Renewing := h.record rfl
      unfold World.after_renewal
      split
      · exact hrecord.fetch_fails c _
      · exact Renewing.record (w := (w.record _).set_call c _) hrecord rfl
    · exact h
  · split
    · exact h.record rfl
    · exact h
  · exact h

/-- Every step keeps the invariant. The cases are the acts of the tab, each with its own lemma. -/
theorem Renewing.step (locks : Bool) (w : World) (act : Act) (h : w.Renewing) :
    (step locks w act).Renewing := by
  cases act with
  | apiFetch => exact Renewing.record (w := w.call (.fetch .first)) h rfl
  | renewSession =>
    -- A direct renewal is a call that waits for nothing.
    have hrenew := h.renewSession locks
    show (w.renew locks).Renewing
    unfold World.renew
    split <;> rename_i heq <;> rw [heq] at hrenew <;> exact hrenew
  | login => exact h
  | logout => exact h
  | acquire holder => exact h.acquire holder
  | refuse holder failure => exact h.refuse holder failure
  | release => exact h.release
  | answer_renewal i reply => exact h.answer_renewal i reply
  | read_renewal i => exact h.read_renewal i
  | settle i =>
    -- Only a promise that is settling can settle.
    show (w.settle i).Renewing
    unfold World.settle
    split
    · rename_i hget
      exact h.settle hget
    · exact h
  | answer c reply => exact h.answer locks c reply
  | read c failure =>
    show (w.read c failure).Renewing
    unfold World.read
    split <;> exact h
  | resume c => exact h.resume c

end

/-! ## The calls -/

/-- What had happened before a call of `apiFetch` sends its request again: it was sent once and refused,
and a renewal that the call awaited has succeeded. -/
def MayRepeat (c : ℕ) (past : List Event) : Prop :=
  past.count (.request_sent c) = 1 ∧ ∃ (response : Response) (i : ℕ), response.status = 401 ∧
    ([.resumed c i none, .request_answered c (.response response), .request_sent c] :
      List Event).Sublist past ∧
    Renewed i past

/-- What a call has sent so far. A call that has not begun or is none of `apiFetch` has sent
nothing. -/
def Call.Ok (history : List Event) (c : ℕ) : Option Call → Prop
  | some (.fetch .first) => history.count (.request_sent c) = 1
  | some (.fetch (.renewing _)) =>
    history.count (.request_sent c) = 1 ∧ ∃ response : Response, response.status = 401 ∧
      ([.request_answered c (.response response), .request_sent c] : List Event).Sublist history
  | some (.fetch _) => history.count (.request_sent c) ≤ 2
  | _ => history.count (.request_sent c) = 0

/-- The invariant of the calls. It counts the requests in the history and says what came before the
second one. -/
structure Calling (calls : List Call) (history : List Event) : Prop where
  /-- A call goes on only after a renewal that was settled so. -/
  resumed : ∀ c i outcome, .resumed c i outcome ∈ history → .settled i outcome ∈ history
  /-- What the calls have sent. -/
  calls : ∀ c, Call.Ok history c calls[c]?
  /-- A request is sent again when it may be. -/
  repeated : ∀ c past, .request_sent c :: past <:+ history → .request_sent c ∈ past →
    MayRepeat c past

/-- The calls of `w` have the invariant. It is the invariant of the fields that belong to them. -/
abbrev World.Calling (w : World) : Prop := Session.Calling w.calls w.history

/-- The events that are about neither a request of a call nor the end of its waiting. -/
def Event.silent : Event → Bool
  | .request_sent _ | .resumed .. => false
  | _ => true

section
variable {calls : List Call} {history : List Event} {w : World} {c : ℕ} {next : Call} {event : Event}

/-- Other events leave what a call has sent as it is. -/
theorem Call.Ok.cons {entry : Option Call} (h : Call.Ok history c entry)
    (hevent : event ≠ .request_sent c) : Call.Ok (event :: history) c entry := by
  have hcount : (event :: history).count (.request_sent c) = history.count (.request_sent c) :=
    List.count_cons_of_ne hevent
  unfold Call.Ok at h ⊢
  split at h
  · exact hcount.trans h
  · obtain ⟨hone, response, hstatus, hsub⟩ := h
    exact ⟨hcount.trans hone, response, hstatus, hsub.cons _⟩
  · exact hcount.le.trans h
  · exact hcount.trans h

/-- A call has sent at most two requests. -/
theorem Call.Ok.count_le {entry : Option Call} (h : Call.Ok history c entry) :
    history.count (.request_sent c) ≤ 2 := by
  unfold Call.Ok at h
  split at h
  · exact h.le.trans (by decide)
  · exact h.1.le.trans (by decide)
  · exact h
  · exact h.le.trans (by decide)

/-- A tab is loaded with no call. -/
theorem calling_loaded : World.loaded.Calling where
  resumed _ _ _ h := by cases h
  calls _ := rfl
  repeated _ _ h := absurd (List.suffix_nil.mp h) (List.cons_ne_nil _ _)

/-- Other events leave the calls as they are. A silent event is no request of a call and no settled
renewal. -/
theorem Calling.record (h : Calling calls history) (hsilent : event.silent = true) :
    Calling calls (event :: history) where
  resumed c i outcome hmem := by
    rcases List.mem_cons.mp hmem with rfl | hmem
    · cases hsilent
    · exact List.mem_cons_of_mem _ (h.resumed c i outcome hmem)
  calls c := (h.calls c).cons (by rintro rfl; cases hsilent)
  repeated c past hsuffix hmem := by
    rcases List.suffix_cons_iff.mp hsuffix with heq | htail
    · rw [← (List.cons.inj heq).1] at hsilent
      cases hsilent
    · exact h.repeated c past htail hmem

/-- A call goes on. The call is at its new place what the history allows, and the others are as they
were. -/
theorem Calling.set (h : Calling calls history) (hok : Call.Ok history c (some next)) :
    Calling (calls.set c next) history :=
  { h with
    calls := fun d => by
      rw [List.getElem?_set]
      split_ifs with heq hlt
      · exact heq ▸ hok
      · have hnone : calls[d]? = none := List.getElem?_eq_none (heq ▸ not_lt.mp hlt)
        exact hnone ▸ h.calls d
      · exact h.calls d }

/-- A call has sent nothing before it begins. -/
theorem Calling.count_length (h : Calling calls history) :
    history.count (.request_sent calls.length) = 0 := by
  have hnone : calls[calls.length]? = none := List.getElem?_eq_none le_rfl
  have hok := h.calls calls.length
  rw [hnone] at hok
  exact hok

/-- A call begins that sends no request. Its place in the list is its number. -/
theorem Calling.call (h : Calling calls history)
    (hok : Call.Ok history calls.length (some next)) : Calling (calls ++ [next]) history :=
  { h with
    calls := fun d => by
      rcases lt_trichotomy d calls.length with hlt | rfl | hgt
      · rw [List.getElem?_append_left hlt]
        exact h.calls d
      · rw [List.getElem?_concat_length]
        exact hok
      · have hnone : (calls ++ [next])[d]? = none :=
          List.getElem?_eq_none (by rw [List.length_append]; exact hgt)
        rw [hnone, ← List.getElem?_eq_none hgt.le]
        exact h.calls d }

/-- A call of `apiFetch` begins, and sends its request. The number is new, so the history has no
other request of the call. -/
theorem Calling.fetch (h : Calling calls history) :
    Calling (calls ++ [.fetch .first]) (.request_sent calls.length :: history) where
  resumed c i outcome hmem := by
    rcases List.mem_cons.mp hmem with heq | hmem
    · cases heq
    · exact List.mem_cons_of_mem _ (h.resumed c i outcome hmem)
  calls d := by
    rcases lt_trichotomy d calls.length with hlt | rfl | hgt
    · rw [List.getElem?_append_left hlt]
      exact (h.calls d).cons fun heq => hlt.ne' (Event.request_sent.inj heq)
    · rw [List.getElem?_concat_length]
      show List.count _ (_ :: history) = 1
      rw [List.count_cons_self, h.count_length]
    · have hnone : (calls ++ [.fetch .first])[d]? = none :=
        List.getElem?_eq_none (by rw [List.length_append]; exact hgt)
      rw [hnone, ← List.getElem?_eq_none hgt.le]
      exact (h.calls d).cons fun heq => hgt.ne (Event.request_sent.inj heq)
  repeated c past hsuffix hmem := by
    rcases List.suffix_cons_iff.mp hsuffix with heq | htail
    · obtain ⟨hevent, rfl⟩ := List.cons.inj heq
      rw [Event.request_sent.inj hevent] at hmem
      exact absurd hmem (List.count_eq_zero.mp h.count_length)
    · exact h.repeated c past htail hmem

/-- A call of `apiFetch` sends its request again. It had sent one before, and a renewal has
succeeded since then. -/
theorem Calling.again (h : Calling calls history) (hrepeat : MayRepeat c history) :
    Calling (calls.set c (.fetch .again)) (.request_sent c :: history) where
  resumed d i outcome hmem := by
    rcases List.mem_cons.mp hmem with heq | hmem
    · cases heq
    · exact List.mem_cons_of_mem _ (h.resumed d i outcome hmem)
  calls d := by
    rw [List.getElem?_set]
    split_ifs with heq hlt
    · subst heq
      show List.count _ (_ :: history) ≤ 2
      rw [List.count_cons_self, hrepeat.1]
    · have hnone : calls[c]? = none := List.getElem?_eq_none (not_lt.mp hlt)
      have hok := h.calls c
      rw [hnone] at hok
      exact absurd (hrepeat.1.symm.trans hok) (by decide)
    · exact (h.calls d).cons fun hevent => heq (Event.request_sent.inj hevent)
  repeated d past hsuffix hmem := by
    rcases List.suffix_cons_iff.mp hsuffix with heq | htail
    · obtain ⟨hevent, rfl⟩ := List.cons.inj heq
      rw [Event.request_sent.inj hevent]
      exact hrepeat
    · exact h.repeated d past htail hmem

/-- A call goes on after a renewal that was settled. -/
theorem Calling.resumed_cons (h : Calling calls history) {i : ℕ} {outcome : Outcome}
    (hsettled : .settled i outcome ∈ history) : Calling calls (.resumed c i outcome :: history) where
  resumed d j outcome' hmem := by
    rcases List.mem_cons.mp hmem with heq | hmem
    · obtain ⟨-, rfl, rfl⟩ := Event.resumed.inj heq
      exact List.mem_cons_of_mem _ hsettled
    · exact List.mem_cons_of_mem _ (h.resumed d j outcome' hmem)
  calls d := (h.calls d).cons (by simp)
  repeated d past hsuffix hmem := by
    rcases List.suffix_cons_iff.mp hsuffix with heq | htail
    · cases heq
    · exact h.repeated d past htail hmem

/-! ### The functions of the client -/

/-- `renewSession` is about no call. -/
theorem Calling.renewSession (h : w.Calling) (locks : Bool) : (w.renewSession locks).1.Calling := by
  unfold World.renewSession
  split
  · exact h
  · split <;> exact h

/-- Making or sharing a promise is no event. -/
theorem renewSession_history (locks : Bool) : (w.renewSession locks).1.history = w.history := by
  unfold World.renewSession
  split
  · rfl
  · split <;> rfl

/-- `apiFetch` ends. -/
theorem Calling.fetch_fails (h : w.Calling) (hcount : w.history.count (.request_sent c) ≤ 2)
    (failure : Thrown) : (w.fetch_fails c failure).Calling := by
  have hset : (w.set_call c (.fetch (.ended (some failure)))).Calling := h.set hcount
  unfold World.fetch_fails
  dsimp only
  split
  · exact hset.record rfl
  · exact hset

/-- The end of a call sends no request, whether or not the page is redirected. -/
theorem Calling.fetch_ends (h : w.Calling) (hcount : w.history.count (.request_sent c) ≤ 2)
    (response : Response) : (w.fetch_ends c response).Calling := by
  have hset : ∀ v : World, v.Calling → v.history.count (.request_sent c) ≤ 2 →
      (v.set_call c (.fetch (if response.ok then .ended none else .reading response))).Calling :=
    fun v hv hle => hv.set (by split_ifs <;> exact hle)
  have hrecord : (if response.status = 401 then w.record (.redirected c) else w).Calling ∧
      (if response.status = 401 then w.record (.redirected c) else w).history.count
        (.request_sent c) ≤ 2 := by
    split_ifs
    · exact ⟨h.record rfl, (List.count_cons_of_ne (by simp)).le.trans hcount⟩
    · exact ⟨h, hcount⟩
  exact hset _ hrecord.1 hrecord.2

/-- The request of a renewal ends. No call is touched before the promise is settled. -/
theorem Calling.answer_renewal (h : w.Calling) (i : ℕ) (reply : Reply) :
    (w.answer_renewal i reply).Calling := by
  unfold World.answer_renewal
  split
  · have hrecord : (w.record (.current_answered i reply)).Calling := h.record rfl
    unfold World.after_current
    split
    · exact hrecord
    · split_ifs
      · exact hrecord
      · exact hrecord
      · exact hrecord.record rfl
  · have hrecord : (w.record (.refresh_answered i reply)).Calling := h.record rfl
    unfold World.after_refresh
    split
    · exact hrecord
    · split_ifs <;> exact hrecord
  · exact h

/-- The body of an answer is there. -/
theorem Calling.read_renewal (h : w.Calling) (i : ℕ) : (w.read_renewal i).Calling := by
  unfold World.read_renewal
  split
  · exact h
  · split <;> exact h
  · exact h

/-- What is known of a call. -/
theorem Calling.ok (h : w.Calling) {entry : Call} (hget : w.calls[c]? = some entry) :
    Call.Ok w.history c (some entry) := by
  rw [← hget]
  exact h.calls c

/-- A call goes on that has sent what it had. -/
theorem Calling.goes_on (h : w.Calling) {entry : Call} (hget : w.calls[c]? = some entry)
    (hok : Call.Ok w.history c (some entry) → Call.Ok w.history c (some next)) :
    (w.set_call c next).Calling := h.set (hok (h.ok hget))

/-- The operation of a renewal begins. -/
theorem Calling.begin_renewal (h : w.Calling) (i : ℕ) : (w.begin_renewal i).Calling := by
  unfold World.begin_renewal
  split
  · exact h
  · exact h.record rfl

/-- The lock is granted. The holder asks for the session, which is no request of a call. -/
theorem Calling.acquire (h : w.Calling) (holder : Holder) : (w.acquire holder).Calling := by
  unfold World.acquire
  split_ifs
  · have hacquired : ({ w with holder := some holder }.record (.lock_acquired holder)).Calling :=
      h.record rfl
    unfold World.grant
    split
    · exact hacquired
    · split_ifs
      · exact hacquired.begin_renewal _
      · exact h
    · dsimp only
      split
      · rename_i hget
        exact hacquired.goes_on hget id
      · rename_i hget
        exact hacquired.goes_on hget id
      · exact h
  · exact h

/-- The request of the lock is rejected. The promise of the renewal is settled with the failure. -/
theorem Calling.refuse (h : w.Calling) (holder : Holder) (failure : Thrown) :
    (w.refuse holder failure).Calling := by
  unfold World.refuse
  split
  · exact h
  · split_ifs <;> exact h
  · split
    · rename_i hget
      exact h.goes_on hget id
    · rename_i hget
      exact h.goes_on hget id
    · exact h

/-- The lock is released. -/
theorem Calling.release (h : w.Calling) : w.release.Calling := by
  unfold World.release
  split
  · split_ifs
    · exact h.record rfl
    · exact h
  · exact h

/-- The request of a call ends. The number of requests a call has sent is counted in the history,
which the answer itself does not change. -/
theorem Calling.answer (h : w.Calling) (locks : Bool) (c : ℕ) (reply : Reply) :
    (w.answer locks c reply).Calling := by
  unfold World.answer
  split
  · rename_i hget
    have hrecord : (w.record (.request_answered c reply)).Calling := h.record rfl
    -- The first request is the only one so far.
    have hone : (w.record (.request_answered c reply)).history.count (.request_sent c) = 1 :=
      hrecord.ok hget
    have hle : (w.record (.request_answered c reply)).history.count (.request_sent c) ≤ 2 :=
      hone.le.trans (by decide)
    unfold World.after_first
    split
    · exact hrecord.set hle
    · rename_i response
      split_ifs with hstatus
      · have hrenew := hrecord.renewSession locks
        -- Making a promise writes nothing into the history.
        have hhistory :=
          @renewSession_history (w.record (.request_answered c (.response response))) locks
        split
        · rename_i w' failure heq
          rw [heq] at hrenew hhistory
          exact hrenew.fetch_fails (hhistory ▸ hle) failure
        · -- The call waits, and has been refused.
          rename_i w' renewal heq
          rw [heq] at hrenew hhistory
          refine hrenew.set ?_
          dsimp only at hhistory
          rw [hhistory]
          refine ⟨hone, response, hstatus, List.Sublist.cons_cons _ ?_⟩
          have hmem : Event.request_sent c ∈ w.history :=
            List.count_pos_iff.mp (Nat.lt_of_lt_of_eq Nat.one_pos (h.ok hget).symm)
          exact List.singleton_sublist.mpr hmem
      · exact hrecord.fetch_ends hle response
  · rename_i hget
    have hrecord : (w.record (.request_answered c reply)).Calling := h.record rfl
    have hle : (w.record (.request_answered c reply)).history.count (.request_sent c) ≤ 2 :=
      hrecord.ok hget
    -- After the second request the call ends.
    unfold World.after_again
    split
    · exact hrecord.fetch_fails hle _
    · exact hrecord.fetch_ends hle _
  · rename_i hget
    have hrecord : (w.record (.login_answered c reply)).Calling := h.record rfl
    -- Logging in and out sends no request of the call.
    unfold World.after_login
    split
    · exact hrecord.goes_on hget id
    · split_ifs
      · exact hrecord.goes_on hget id
      · exact hrecord.goes_on hget id
  · rename_i hget
    unfold World.after_logout
    split
    · exact h.goes_on hget id
    · split_ifs <;> exact h.goes_on hget id
  · exact h

/-- A call goes on after a renewal. What it returns or sends is decided by how the renewal ended. -/
theorem Calling.resume (h : w.Calling) (hrenewing : w.Renewing) (c : ℕ) : (w.resume c).Calling := by
  unfold World.resume
  split
  · rename_i i hcall
    split
    · rename_i outcome hget
      have hsettled := (hrenewing.settled i outcome).mpr hget
      have hrecord : (w.record (.resumed c i outcome)).Calling := h.resumed_cons hsettled
      obtain ⟨hone, -⟩ := hrecord.ok hcall
      obtain ⟨-, response, hstatus, hsub⟩ := h.ok hcall
      unfold World.after_renewal
      split
      · exact hrecord.fetch_fails (hone.le.trans (by decide)) _
      · -- The promise that the call awaited is fulfilled, so one of its requests has succeeded.
        exact hrecord.again ⟨hone, response, i, hstatus, hsub.cons_cons _,
          (hrenewing.renewed i _ hget rfl).cons _⟩
    · exact h
  · rename_i i hcall
    split
    · rename_i outcome hget
      have hrecord : (w.record (.resumed c i outcome)).Calling :=
        h.resumed_cons ((hrenewing.settled i outcome).mpr hget)
      exact hrecord.goes_on hcall id
    · exact h
  · exact h

/-- Every step keeps the invariant. The cases are the acts of the tab; resuming a call is where the
second request is sent. -/
theorem Calling.step (locks : Bool) (w : World) (act : Act) (hrenewing : w.Renewing) (h : w.Calling) :
    (step locks w act).Calling := by
  cases act with
  | apiFetch => exact h.fetch
  | renewSession =>
    have hrenew := h.renewSession locks
    show (w.renew locks).Calling
    unfold World.renew
    split <;> rename_i heq <;> rw [heq] at hrenew <;> exact hrenew.call hrenew.count_length
  | login => exact h.call h.count_length
  | logout => exact h.call h.count_length
  | acquire holder => exact h.acquire holder
  | refuse holder failure => exact h.refuse holder failure
  | release => exact h.release
  | answer_renewal i reply => exact h.answer_renewal i reply
  | read_renewal i => exact h.read_renewal i
  | settle i =>
    show (w.settle i).Calling
    unfold World.settle
    split
    · exact h.record rfl
    · exact h
  | answer c reply => exact h.answer locks c reply
  | read c failure =>
    show (w.read c failure).Calling
    -- Reading an answer ends the call, whichever it is.
    unfold World.read
    split
    · rename_i hget
      exact h.goes_on hget id
    · rename_i hget
      exact h.goes_on hget id
    · rename_i hget
      exact h.goes_on hget id
    · rename_i hget
      exact h.goes_on hget id
    · exact h
  | resume c => exact h.resume hrenewing c

end

/-! ## Runs -/

/-- Both invariants hold in every state of every run. -/
theorem run_sound (locks : Bool) (acts : List Act) :
    (run locks World.loaded acts).Renewing ∧ (run locks World.loaded acts).Calling :=
  @Transition.run_invariant _ _ (step locks) (fun w => w.Renewing ∧ w.Calling)
    (fun w act h => ⟨h.1.step locks w act, h.2.step locks w act h.1⟩) _
    ⟨renewing_loaded, calling_loaded⟩ acts

/-- In every state of every run of a tab at most one `POST` of `/auth/refresh` is in flight. Before a
`POST` was sent, `/auth/me` was asked and refused in the same hold of the lock, and after a failed one a
login had succeeded. No call has sent its request more than twice, and the second time only after a
refusal of the first and a renewal that succeeded. The calls that awaited one renewal went on with one
outcome. -/
theorem session_renewal (locks : Bool) (acts : List Act) :
    let w := run locks World.loaded acts
    (∀ (i j : ℕ) (renewal renewal' : Renewal), w.renewals[i]? = some renewal →
      renewal.refreshes = true → w.renewals[j]? = some renewal' → renewal'.refreshes = true → i = j) ∧
    (∀ i past, .refresh_sent i :: past <:+ w.history →
      ∃ response : Response, response.status = 401 ∧
        ([.current_answered i (.response response), .current_sent i, .lock_acquired (.renewal i)] :
          List Event).Sublist (hold past)) ∧
    (∀ i j reply between past,
      .refresh_sent i :: (between ++ .refresh_answered j reply :: past) <:+ w.history →
        reply.ok = false → ∃ c reply', reply'.ok = true ∧ .login_answered c reply' ∈ between) ∧
    (∀ c, w.history.count (.request_sent c) ≤ 2 ∧
      ∀ past, .request_sent c :: past <:+ w.history → .request_sent c ∈ past → MayRepeat c past) ∧
    ∀ i c c' outcome outcome', .resumed c i outcome ∈ w.history →
      .resumed c' i outcome' ∈ w.history → outcome = outcome' := by
  intro w
  -- Both invariants hold after every run.
  obtain ⟨hrenewing, hcalling⟩ : w.Renewing ∧ w.Calling := run_sound locks acts
  have hpending : ∀ renewal : Renewal, renewal.refreshes = true → renewal.pending = true :=
    fun renewal h => by cases renewal <;> first | rfl | exact absurd h Bool.false_ne_true
  refine ⟨fun i j renewal renewal' hi hrefreshes hj hrefreshes' => ?_,
    fun i past hsuffix => (hrenewing.sent i past hsuffix).1,
    fun i j reply between past hsuffix hfailed => ?_,
    fun c => ⟨(hcalling.calls c).count_le, fun past hsuffix => hcalling.repeated c past hsuffix⟩,
    fun i c c' outcome outcome' h h' => ?_⟩
  · -- Two promises that refresh are both pending, and only one can be.
    exact hrenewing.eq_of_pending hi hj (hpending _ hrefreshes) (hpending _ hrefreshes')
  · exact exists_login hfailed (hrenewing.sent i _ hsuffix).2
  · -- One promise has one outcome, and both calls have gone on with it.
    have hsettled := (hrenewing.settled i outcome).mp (hcalling.resumed c i outcome h)
    have hsettled' := (hrenewing.settled i outcome').mp (hcalling.resumed c' i outcome' h')
    exact Renewal.settled.inj (Option.some.inj (hsettled.symm.trans hsettled'))

/-- A call whose session has run out sends its request again after a `POST` of `/auth/refresh`. -/
example :
    (run true World.loaded
      [.apiFetch, .answer 0 (.response ⟨401, none⟩), .acquire (.renewal 0),
        .answer_renewal 0 (.response ⟨401, none⟩), .answer_renewal 0 (.response ⟨200, none⟩),
        .settle 0, .resume 0]).history =
      [.request_sent 0, .resumed 0 0 none, .settled 0 none, .refresh_answered 0 (.response ⟨200, none⟩),
        .refresh_sent 0, .current_answered 0 (.response ⟨401, none⟩), .current_sent 0,
        .lock_acquired (.renewal 0), .request_answered 0 (.response ⟨401, none⟩),
        .request_sent 0] := by decide

end RestaurantOS.Frontend.Session
