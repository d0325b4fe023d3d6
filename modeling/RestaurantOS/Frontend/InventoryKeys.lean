import RestaurantOS.Core.Time
import RestaurantOS.Lib.JsonText
import RestaurantOS.Lib.Run

/-!
# The keys of inventory submissions

The inventory manager of the browser sends each creation and each stock change with an idempotency
key, which `keyFor` keeps in one slot, `pending`, under the text of the payload. While an action runs
the forms are locked, so actions follow one another; when access is lost they are gone. `run` empties
the slot after a success and after an answer that refuses the action, and keeps it after an uncertain
end. It does so for every action, also for those that take no key and for other payloads: a payload
that ended uncertainly keeps its key exactly until such an action (`Retained`, `Forgotten`).
-/

namespace RestaurantOS.Frontend.InventoryKeys

open JsonText SelfDelimiting

/-! ## Payloads -/

/-- A payload that is sent with a key, as it is passed to `keyFor`. -/
inductive Payload
  /-- The creation of an ingredient. -/
  | create (name unit reorder_threshold opening_quantity : String)
  /-- A stock change of an ingredient. -/
  | stock (ingredient_id : ℕ) (kind quantity reason : String) (expected_version : Option ℤ)

/-- The characters that `JSON.stringify` writes as they are, apart from its short escapes. -/
def plain (c : Char) : Bool := decide (32 ≤ c.toNat)

/-- The text of a payload: `JSON.stringify`. Two payloads with the same text are the same. -/
def signature : Payload → List Char
  | .create name unit reorder_threshold opening_quantity =>
    "\x7b\"operation\":\"create\",\"name\":".toList ++ (quoted plain name ++
      (",\"unit\":".toList ++ (quoted plain unit ++
      (",\"reorder_threshold\":".toList ++ (quoted plain reorder_threshold ++
      (",\"opening_quantity\":".toList ++ (quoted plain opening_quantity ++ "\x7d".toList)))))))
  | .stock ingredient_id kind quantity reason expected_version =>
    "\x7b\"ingredient_id\":".toList ++ ((optional_number (some ingredient_id) ++ [',']) ++
      ("\"kind\":".toList ++ (quoted plain kind ++
      (",\"quantity\":".toList ++ (quoted plain quantity ++
      (",\"reason\":".toList ++ (quoted plain reason ++
      (",\"expected_version\":".toList ++ (optional_number expected_version ++ ['\x7d'])))))))))

/-- The fields of a creation can be read from its text. -/
theorem create_selfDelimiting :
    SelfDelimiting fun p : String × String × String × String =>
      signature (.create p.1 p.2.1 p.2.2.1 p.2.2.2) := by
  have hquoted := quoted_selfDelimiting plain
  have hlast := (hquoted.append_const "\x7d".toList).const_append ",\"opening_quantity\":".toList
  have hthreshold := (hquoted.append hlast).const_append ",\"reorder_threshold\":".toList
  have hunit := (hquoted.append hthreshold).const_append ",\"unit\":".toList
  exact (hquoted.append hunit).const_append "\x7b\"operation\":\"create\",\"name\":".toList

/-- The fields of a stock change can be read from its text. -/
theorem stock_selfDelimiting :
    SelfDelimiting fun p : ℕ × String × String × String × Option ℤ =>
      signature (.stock p.1 p.2.1 p.2.2.1 p.2.2.2.1 p.2.2.2.2) := by
  have hquoted := quoted_selfDelimiting plain
  have hcomma := @optional_number_selfDelimiting ',' ⟨by decide, rfl⟩
  have hbrace := @optional_number_selfDelimiting '\x7d' ⟨by decide, rfl⟩
  have hid := hcomma.comp (f := fun n : ℕ => some (n : ℤ))
    fun _ _ h => Nat.cast_injective (Option.some.inj h)
  have hreason := hquoted.append (hbrace.const_append ",\"expected_version\":".toList)
  have hquantity := hquoted.append (hreason.const_append ",\"reason\":".toList)
  have hkind := hquoted.append (hquantity.const_append ",\"quantity\":".toList)
  exact (hid.append (hkind.const_append "\"kind\":".toList)).const_append
    "\x7b\"ingredient_id\":".toList

/-- How the text of a creation begins. -/
theorem take_signature_create (name unit reorder_threshold opening_quantity : String) :
    (signature (.create name unit reorder_threshold opening_quantity)).take 3 = ['\x7b', '"', 'o'] := by
  have hlength : 3 ≤ "\x7b\"operation\":\"create\",\"name\":".toList.length := by decide +kernel
  have htake : "\x7b\"operation\":\"create\",\"name\":".toList.take 3 = ['\x7b', '"', 'o'] := by
    decide +kernel
  exact (List.take_append_of_le_length hlength).trans htake

/-- How the text of a stock change begins. -/
theorem take_signature_stock (ingredient_id : ℕ) (kind quantity reason : String)
    (expected_version : Option ℤ) :
    (signature (.stock ingredient_id kind quantity reason expected_version)).take 3 =
      ['\x7b', '"', 'i'] := by
  have hlength : 3 ≤ "\x7b\"ingredient_id\":".toList.length := by decide +kernel
  have htake : "\x7b\"ingredient_id\":".toList.take 3 = ['\x7b', '"', 'i'] := by decide +kernel
  exact (List.take_append_of_le_length hlength).trans htake

/-- The text of a creation is not that of a stock change. -/
theorem signature_create_ne_stock (name unit reorder_threshold opening_quantity : String)
    (ingredient_id : ℕ) (kind quantity reason : String) (expected_version : Option ℤ) :
    signature (.create name unit reorder_threshold opening_quantity) ≠
      signature (.stock ingredient_id kind quantity reason expected_version) := by
  intro h
  have hthird := congrArg (List.take 3) h
  rw [take_signature_create, take_signature_stock] at hthird
  exact absurd hthird (by decide)

/-- Different payloads have different texts. Every field is quoted, so the text can be read back. -/
theorem signature_injective : Function.Injective signature := by
  intro payload payload' h
  cases payload with
  | create =>
    cases payload' with
    | create =>
      have hfields := @SelfDelimiting.injective _ _ _ create_selfDelimiting (_, _, _, _) (_, _, _, _) h
      simp only [Prod.mk.injEq] at hfields
      obtain ⟨rfl, rfl, rfl, rfl⟩ := hfields
      rfl
    | stock => exact absurd h (signature_create_ne_stock _ _ _ _ _ _ _ _ _)
  | stock =>
    cases payload' with
    | create => exact absurd h.symm (signature_create_ne_stock _ _ _ _ _ _ _ _ _)
    | stock =>
      have hfields :=
        @SelfDelimiting.injective _ _ _ stock_selfDelimiting (_, _, _, _, _) (_, _, _, _, _) h
      simp only [Prod.mk.injEq] at hfields
      obtain ⟨rfl, rfl, rfl, rfl, rfl⟩ := hfields
      rfl

/-! ## Actions -/

/-- How the request of an action ends. The manager decides by it whether to keep the key. -/
inductive Outcome
  | success
  /-- An answer that is no success: `ApiError` with its status. -/
  | refused (status : ℕ)
  /-- Any other error: no answer came. -/
  | lost

/-- The statuses after which the manager has lost access. -/
def Outcome.denies : Outcome → Bool
  | .refused status => status = 401 ∨ status = 403 ∨ status = 404
  | .success | .lost => false

/-- It is open whether the request has taken effect. -/
def Outcome.uncertain : Outcome → Bool
  | .refused status => 500 ≤ status
  | .lost => true
  | .success => false

/-- What an action requests. Only a submission has a payload and a key. -/
inductive Request
  /-- A payload is sent with a key. -/
  | submit (payload : Payload)
  /-- An update, an archival or a restoration of an ingredient, or a refresh of a count. -/
  | other

/-- `pending`. The payload whose outcome is not certain, with its key. -/
structure Pending where
  /-- The text of the payload. -/
  signature : List Char
  /-- Its key. -/
  key : UUID

/-- A submission that was sent. It is recorded with the key that was sent. -/
structure Submission where
  /-- The payload. -/
  payload : Payload
  /-- The key. -/
  key : UUID
  /-- How it ended. -/
  outcome : Outcome

/-- The inventory manager. The state of the component, with what it has sent. -/
structure Manager where
  /-- The slot for a key. -/
  pending : Option Pending
  /-- `accessLost`: the forms are gone. -/
  access_lost : Bool
  /-- The next value of `crypto.randomUUID`. -/
  next_uuid : UUID
  /-- The submissions so far. -/
  submissions : List Submission

/-- What a user does, or what happens between two actions. -/
inductive Act
  /-- An action with its end; `polled` says that a poll has found access lost meanwhile, `reloaded`
  that access was still there when the list had been loaded again after a success. -/
  | run (request : Request) (outcome : Outcome) (polled reloaded : Bool)
  /-- A poll finds access lost. -/
  | poll

namespace Manager

/-- The manager as it is mounted. No key is pending and nothing has been sent. -/
def mounted : Manager := ⟨none, false, 0, []⟩

variable (m : Manager)

/-- `keyFor`. The pending key is used again for the same text, and a new one is drawn for another.
-/
def keyFor (payload : Payload) : UUID × Manager :=
  match m.pending with
  | some pending =>
    if pending.signature = signature payload then (pending.key, m)
    else (m.next_uuid, { m with
      pending := some ⟨signature payload, m.next_uuid⟩
      next_uuid := m.next_uuid + 1 })
  | none => (m.next_uuid, { m with
      pending := some ⟨signature payload, m.next_uuid⟩
      next_uuid := m.next_uuid + 1 })

/-- The request of an action. A payload is sent with the key of the slot. -/
def send (outcome : Outcome) : Request → Manager
  | .submit payload =>
    let (key, m) := m.keyFor payload
    { m with submissions := m.submissions ++ [⟨payload, key, outcome⟩] }
  | .other => m

/-- `run`, once its action has ended. A certain outcome clears the slot, whatever the action was. -/
def settle (outcome : Outcome) (polled reloaded : Bool) : Manager :=
  match outcome with
  | .success =>
    if polled then { m with access_lost := true }
    else { m with pending := none, access_lost := !reloaded }
  | .refused status =>
    if outcome.denies then { m with access_lost := true }
    else { m with
      pending := if status < 500 then none else m.pending
      access_lost := polled }
  | .lost => { m with access_lost := polled }

end Manager

/-- A step of the manager. Without access there is nothing to act on. -/
def step (m : Manager) (act : Act) : Manager :=
  if m.access_lost then m
  else
    match act with
    | .run request outcome polled reloaded => (m.send outcome request).settle outcome polled reloaded
    | .poll => { m with access_lost := true }

/-- A run of the manager. It may start in any state. -/
def run (m : Manager) (acts : List Act) : Manager := Transition.run step m acts

/-- An action after which a payload has lost its key: a submission of another payload, or an action
without a key that ends definitely. -/
def Act.clears (payload : Payload) : Act → Prop
  | .run (.submit payload') _ _ _ => payload' ≠ payload
  | .run .other outcome _ _ => outcome.uncertain = false
  | .poll => False

/-- A submission of the payload that ends definitely. -/
def Act.settles (payload : Payload) : Act → Prop
  | .run (.submit payload') outcome _ _ => payload' = payload ∧ outcome.uncertain = false
  | .run .other _ _ _ | .poll => False


/-! ## What `keyFor` and `run` do to the slot -/

variable {m : Manager} {payload payload' : Payload}

/-- After `keyFor` the slot holds the payload under the key that it returned. -/
theorem keyFor_pending (m : Manager) (payload : Payload) :
    (m.keyFor payload).2.pending = some ⟨signature payload, (m.keyFor payload).1⟩ := by
  unfold Manager.keyFor
  cases hpending : m.pending with
  | none => rfl
  | some pending =>
    dsimp only
    split_ifs with h
    · rw [hpending, ← h]
    · rfl

/-- `keyFor` returns the key in the slot if the slot holds the payload, and a new key otherwise. -/
theorem keyFor_cases (m : Manager) (payload : Payload) :
    (m.pending = some ⟨signature payload, (m.keyFor payload).1⟩ ∧ (m.keyFor payload).2 = m) ∨
      ((∀ pending ∈ m.pending, pending.signature ≠ signature payload) ∧
        (m.keyFor payload).1 = m.next_uuid ∧
        (m.keyFor payload).2.next_uuid = m.next_uuid + 1 ∧
        (m.keyFor payload).2.submissions = m.submissions) := by
  unfold Manager.keyFor
  cases hpending : m.pending with
  | none => exact Or.inr ⟨fun _ h => (by cases h), rfl, rfl, rfl⟩
  | some pending =>
    dsimp only
    split_ifs with h
    · exact Or.inl ⟨by rw [← h], rfl⟩
    · refine Or.inr ⟨fun pending' h' => ?_, rfl, rfl, rfl⟩
      obtain rfl := Option.some.inj h'
      exact h

/-- `run` keeps the slot or empties it, and draws and sends nothing. -/
theorem settle_facts (m : Manager) (outcome : Outcome) (polled reloaded : Bool) :
    ((m.settle outcome polled reloaded).pending = m.pending ∨
      (m.settle outcome polled reloaded).pending = none) ∧
      (m.settle outcome polled reloaded).next_uuid = m.next_uuid ∧
      (m.settle outcome polled reloaded).submissions = m.submissions := by
  cases outcome with
  | success => cases polled <;> simp [Manager.settle]
  | refused status =>
    unfold Manager.settle
    dsimp only
    split_ifs
    · exact ⟨Or.inl rfl, rfl, rfl⟩
    · exact ⟨Or.inr rfl, rfl, rfl⟩
    · exact ⟨Or.inl rfl, rfl, rfl⟩
  | lost => exact ⟨Or.inl rfl, rfl, rfl⟩

/-- While access is kept, `run` keeps the slot after an uncertain end and empties it otherwise. -/
theorem settle_pending {outcome : Outcome} {polled reloaded : Bool}
    (h : (m.settle outcome polled reloaded).access_lost = false) :
    (m.settle outcome polled reloaded).pending =
      if outcome.uncertain then m.pending else none := by
  cases outcome with
  | success =>
    cases polled with
    | true => cases h
    | false => rfl
  | refused status =>
    unfold Manager.settle at h ⊢
    dsimp only at h ⊢
    split_ifs at h ⊢ with hdenies hlt huncertain hcertain
    · exact absurd huncertain (by simpa [Outcome.uncertain] using hlt)
    · rfl
    · rfl
    · exact absurd hcertain (by simpa [Outcome.uncertain] using hlt)
  | lost => rfl

/-- The slot after the request of an action. -/
theorem send_pending (m : Manager) (outcome : Outcome) (request : Request) :
    (m.send outcome request).pending = match request with
      | .submit payload => some ⟨signature payload, (m.keyFor payload).1⟩
      | .other => m.pending := by
  cases request with
  | submit payload => exact keyFor_pending m payload
  | other => rfl

/-! ## Keys are shared by one payload only -/

/-- The keys that were drawn are below the next one, the key in the slot was sent with its payload
only, and no key was sent with two payloads. -/
structure Sound (m : Manager) : Prop where
  /-- The key in the slot has been drawn. -/
  pending_lt : ∀ pending ∈ m.pending, pending.key < m.next_uuid
  /-- The keys that were sent have been drawn. -/
  sent_lt : ∀ submission ∈ m.submissions, submission.key < m.next_uuid
  /-- The key in the slot belongs to its payload. -/
  pending_sent : ∀ pending ∈ m.pending, ∀ submission ∈ m.submissions,
    submission.key = pending.key → signature submission.payload = pending.signature
  /-- A key belongs to one payload. -/
  sent_unique : ∀ submission ∈ m.submissions, ∀ submission' ∈ m.submissions,
    submission.key = submission'.key → submission.payload = submission'.payload

/-- `keyFor` keeps this. A new key is drawn above all others, and is the one pending. -/
theorem Sound.keyFor (h : Sound m) (payload : Payload) : Sound (m.keyFor payload).2 := by
  rcases keyFor_cases m payload with ⟨-, hsame⟩ | ⟨-, hkey, hnext, hsent⟩
  · rw [hsame]
    exact h
  · have hpending := keyFor_pending m payload
    rw [hkey] at hpending
    refine ⟨fun pending hp => ?_, fun submission hs => ?_, fun pending hp submission hs heq => ?_,
      fun submission hs submission' hs' => ?_⟩
    · obtain rfl := Option.some.inj (hpending.symm.trans hp)
      rw [hnext]
      exact Nat.lt_succ_self _
    · rw [hsent] at hs
      rw [hnext]
      exact Nat.lt_succ_of_lt (h.sent_lt submission hs)
    · -- The key is new, so no submission has it.
      obtain rfl := Option.some.inj (hpending.symm.trans hp)
      rw [hsent] at hs
      exact absurd heq (Nat.ne_of_lt (h.sent_lt submission hs))
    · rw [hsent] at hs hs'
      exact h.sent_unique submission hs submission' hs'

/-- The request of an action keeps this. `keyFor` has put the payload into the pending slot, so the
submission that goes out carries the key of the slot. -/
theorem Sound.send (h : Sound m) (outcome : Outcome) (request : Request) :
    Sound (m.send outcome request) := by
  cases request with
  -- An action without a payload sends no key.
  | other => exact h
  | submit payload =>
    have hkept := h.keyFor payload
    have hpending := keyFor_pending m payload
    -- What has been sent is what was sent before, and this submission.
    have hmem : ∀ submission ∈ (m.send outcome (.submit payload)).submissions,
        submission ∈ (m.keyFor payload).2.submissions ∨
          submission = ⟨payload, (m.keyFor payload).1, outcome⟩ :=
      fun submission hs => (List.mem_append.mp hs).imp_right List.mem_singleton.mp
    -- A key that was sent before with the same value belongs to the same payload.
    have hkey : ∀ submission ∈ (m.keyFor payload).2.submissions,
        submission.key = (m.keyFor payload).1 → submission.payload = payload :=
      fun submission hs heq => signature_injective (hkept.pending_sent _ hpending submission hs heq)
    refine ⟨hkept.pending_lt, fun submission hs => ?_, fun pending hp submission hs heq => ?_,
      fun submission hs submission' hs' heq => ?_⟩
    · rcases hmem submission hs with hs | rfl
      · exact hkept.sent_lt submission hs
      · exact hkept.pending_lt _ hpending
    · rcases hmem submission hs with hs | rfl
      · exact hkept.pending_sent pending hp submission hs heq
      · obtain rfl := Option.some.inj (hpending.symm.trans hp)
        rfl
    · -- Two submissions with one key: both old, one of them new, or both this one.
      rcases hmem submission hs with hs | rfl
      · rcases hmem submission' hs' with hs' | rfl
        · exact hkept.sent_unique submission hs submission' hs' heq
        · exact hkey submission hs heq
      · rcases hmem submission' hs' with hs' | rfl
        · exact (hkey submission' hs' heq.symm).symm
        · rfl

/-- `run` keeps this. A success forgets the pending key, and everything else keeps it. -/
theorem Sound.settle (h : Sound m) (outcome : Outcome) (polled reloaded : Bool) :
    Sound (m.settle outcome polled reloaded) := by
  obtain ⟨hpending, hnext, hsent⟩ := settle_facts m outcome polled reloaded
  have hmem : ∀ pending ∈ (m.settle outcome polled reloaded).pending, pending ∈ m.pending := by
    intro pending hp
    rcases hpending with hsame | hnone
    · rwa [hsame] at hp
    · rw [hnone] at hp
      cases hp
  refine ⟨fun pending hp => ?_, ?_, fun pending hp => ?_, ?_⟩
  · rw [hnext]
    exact h.pending_lt pending (hmem pending hp)
  · rw [hnext, hsent]
    exact h.sent_lt
  · rw [hsent]
    exact h.pending_sent pending (hmem pending hp)
  · rw [hsent]
    exact h.sent_unique

/-- A step keeps this. -/
theorem Sound.step (h : Sound m) (act : Act) : Sound (step m act) := by
  unfold InventoryKeys.step
  split_ifs
  · exact h
  · cases act with
    | run request outcome polled reloaded => exact (h.send outcome request).settle ..
    | poll => exact ⟨h.pending_lt, h.sent_lt, h.pending_sent, h.sent_unique⟩

/-- It holds in every state that the manager reaches. -/
theorem run_sound (acts : List Act) : Sound (run Manager.mounted acts) := by
  have hmounted : Sound Manager.mounted :=
    ⟨fun _ h => (by cases h), fun _ h => (by cases h), fun _ h => (by cases h),
      fun _ h => (by cases h)⟩
  exact @Transition.run_invariant _ _ step Sound (fun _ act h => h.step act) _ hmounted acts

/-! ## Keys after an uncertain end -/

/-- The slot holds the payload under the key. -/
def Retained (payload : Payload) (key : UUID) (m : Manager) : Prop :=
  key < m.next_uuid ∧ m.pending = some ⟨signature payload, key⟩

/-- The key is not in the slot and will not be drawn again. -/
def Forgotten (key : UUID) (m : Manager) : Prop :=
  key < m.next_uuid ∧ ∀ pending ∈ m.pending, pending.key ≠ key

/-- Access is not regained. -/
theorem access_of_step {act : Act} (h : (step m act).access_lost = false) :
    m.access_lost = false := by
  by_contra hlost
  rw [Bool.not_eq_false] at hlost
  unfold step at h
  rw [if_pos hlost, hlost] at h
  cases h

/-- An action while access is there. -/
theorem step_run (hm : m.access_lost = false) (request : Request) (outcome : Outcome)
    (polled reloaded : Bool) : step m (.run request outcome polled reloaded) =
      (m.send outcome request).settle outcome polled reloaded := by
  unfold step
  rw [if_neg (Bool.eq_false_iff.mp hm)]

/-- Access is not regained. -/
theorem access_of_run {acts : List Act} (h : (run m acts).access_lost = false) :
    m.access_lost = false := by
  induction acts generalizing m with
  | nil => exact h
  | cons act acts ih => exact access_of_step (ih h)

/-- A key that has been forgotten stays forgotten. `keyFor` returns the pending key or a new one,
and it is neither. -/
theorem Forgotten.keyFor {key : UUID} (h : Forgotten key m) (payload : Payload) :
    (m.keyFor payload).1 ≠ key ∧ Forgotten key (m.keyFor payload).2 := by
  rcases keyFor_cases m payload with ⟨hpending, hsame⟩ | ⟨-, hkey, hnext, -⟩
  · rw [hsame]
    exact ⟨h.2 _ hpending, h⟩
  · have hne : (m.keyFor payload).1 ≠ key := by
      rw [hkey]
      exact Nat.ne_of_gt h.1
    refine ⟨hne, hnext ▸ Nat.lt_succ_of_lt h.1, fun pending hp => ?_⟩
    obtain rfl := Option.some.inj ((keyFor_pending m payload).symm.trans hp)
    exact hne

/-- A key that has been forgotten stays forgotten. No step makes a key pending again that is not. -/
theorem Forgotten.step {key : UUID} (h : Forgotten key m) (act : Act) :
    Forgotten key (step m act) := by
  unfold InventoryKeys.step
  split_ifs
  · exact h
  · cases act with
    | poll => exact h
    | run request outcome polled reloaded =>
      have hsent : Forgotten key (m.send outcome request) := by
        cases request with
        | submit payload => exact (h.keyFor payload).2
        | other => exact h
      obtain ⟨hpending, hnext, -⟩ := settle_facts (m.send outcome request) outcome polled reloaded
      refine ⟨hnext ▸ hsent.1, fun pending hp => ?_⟩
      rcases hpending with hsame | hnone
      · exact hsent.2 pending (hsame ▸ hp)
      · rw [hnone] at hp
        cases hp

/-- A step that neither clears nor settles a payload keeps its key; one that clears it forgets the
key. The action decides: an uncertain outcome leaves the slot as it is, a certain one or another
payload empties or replaces it. -/
theorem Retained.step {key : UUID} (h : Retained payload key m) {act : Act}
    (haccess : (step m act).access_lost = false) (hsettles : ¬ act.settles payload) :
    (¬ act.clears payload ∧ Retained payload key (step m act)) ∨
      (act.clears payload ∧ Forgotten key (step m act)) := by
  have hm : m.access_lost = false := access_of_step haccess
  cases act with
  -- A poll that the tab has ignored so far ends the access, which the hypothesis excludes.
  | poll =>
    unfold InventoryKeys.step at haccess
    rw [if_neg (Bool.eq_false_iff.mp hm)] at haccess
    cases haccess
  | run request outcome polled reloaded =>
    rw [step_run hm] at haccess ⊢
    -- What is pending after the request settles.
    have hpending := settle_pending haccess
    obtain ⟨-, hnext, -⟩ := settle_facts (m.send outcome request) outcome polled reloaded
    -- The action sends no payload, or a payload that may be this one.
    cases request with
    | other =>
      cases hcertain : outcome.uncertain with
      | true =>
        rw [hcertain, if_pos rfl] at hpending
        refine Or.inl ⟨?_, hnext ▸ h.1, hpending.trans h.2⟩
        show ¬ outcome.uncertain = false
        rw [hcertain]
        exact Bool.noConfusion
      -- Any certain outcome clears the slot, also that of an action which is not about the payload.
      | false =>
        rw [hcertain, if_neg Bool.false_ne_true] at hpending
        refine Or.inr ⟨hcertain, hnext ▸ h.1, fun pending hp => ?_⟩
        rw [hpending] at hp
        cases hp
    | submit payload' =>
      rcases keyFor_cases m payload' with ⟨hslot, hsame⟩ | ⟨hslot, hkey, hdrawn, -⟩
      · -- The slot holds this payload, so it is the same one.
        have hboth := Option.some.inj (hslot.symm.trans h.2)
        obtain rfl : payload' = payload := signature_injective (congrArg Pending.signature hboth)
        have hkey : (m.keyFor payload').1 = key := congrArg Pending.key hboth
        -- A certain outcome would settle the payload.
        have huncertain : outcome.uncertain = true := by
          by_contra hcertain
          exact hsettles ⟨rfl, Bool.not_eq_true _ ▸ hcertain⟩
        have hlt : key < (m.keyFor payload').2.next_uuid := by
          rw [hsame]
          exact h.1
        rw [huncertain, if_pos rfl, send_pending] at hpending
        refine Or.inl ⟨fun hne => hne rfl, hnext ▸ hlt, hpending.trans ?_⟩
        rw [← hkey]
      · -- Another payload takes the slot with a new key.
        have hne : payload' ≠ payload := by
          rintro rfl
          exact hslot _ h.2 rfl
        have hlt : key < (m.keyFor payload').2.next_uuid := hdrawn ▸ Nat.lt_succ_of_lt h.1
        refine Or.inr ⟨hne, hnext ▸ hlt, fun pending hp => ?_⟩
        rw [hpending] at hp
        split_ifs at hp
        · rw [send_pending] at hp
          obtain rfl := Option.some.inj hp
          show (m.keyFor payload').1 ≠ key
          rw [hkey]
          exact Nat.ne_of_gt h.1
        · cases hp

/-- Along a run a payload keeps its key for as long as nothing clears it. -/
theorem Retained.run {key : UUID} {acts : List Act} (h : Retained payload key m)
    (haccess : (run m acts).access_lost = false) (hsettles : ∀ act ∈ acts, ¬ act.settles payload) :
    ((∀ act ∈ acts, ¬ act.clears payload) ∧ Retained payload key (run m acts)) ∨
      ((∃ act ∈ acts, act.clears payload) ∧ Forgotten key (run m acts)) := by
  induction acts generalizing m with
  | nil => exact Or.inl ⟨fun act hact => absurd hact List.not_mem_nil, h⟩
  | cons act acts ih =>
    have haccess' : (InventoryKeys.step m act).access_lost = false := access_of_run haccess
    have hrest : ∀ act ∈ acts, ¬ act.settles payload :=
      fun act' hact => hsettles act' (List.mem_cons_of_mem act hact)
    rcases h.step haccess' (hsettles act List.mem_cons_self) with ⟨hkeeps, hretained⟩ |
      ⟨hclears, hforgotten⟩
    · rcases ih hretained haccess hrest with ⟨hall, hend⟩ | ⟨⟨act', hact', hclears⟩, hend⟩
      · exact Or.inl ⟨List.forall_mem_cons.mpr ⟨hkeeps, hall⟩, hend⟩
      · exact Or.inr ⟨⟨act', List.mem_cons_of_mem act hact', hclears⟩, hend⟩
    · refine Or.inr ⟨⟨act, List.mem_cons_self, hclears⟩, ?_⟩
      exact Transition.run_invariant (fun _ act' hend => hend.step act') hforgotten acts

/-- A submission that ends uncertainly leaves its payload in the slot. -/
theorem retained_of_uncertain (h : Sound m) {outcome : Outcome} {polled reloaded : Bool}
    (huncertain : outcome.uncertain = true)
    (haccess : (step m (.run (.submit payload) outcome polled reloaded)).access_lost = false) :
    Retained payload (m.keyFor payload).1
      (step m (.run (.submit payload) outcome polled reloaded)) := by
  have hm : m.access_lost = false := access_of_step haccess
  rw [step_run hm] at haccess ⊢
  have hpending := settle_pending haccess
  obtain ⟨-, hnext, -⟩ :=
    settle_facts (m.send outcome (.submit payload)) outcome polled reloaded
  rw [huncertain, if_pos rfl, send_pending] at hpending
  refine ⟨?_, hpending⟩
  rw [hnext]
  exact (h.keyFor payload).pending_lt _ (keyFor_pending m payload)

/-- In every run, submissions with one key have one payload. And after a submission of a payload has
ended uncertainly, and for as long as none has ended definitely, the payload is sent with the same key
exactly if in the meantime no other payload was submitted and no action without a key has ended
definitely. -/
theorem inventory_keys_retained_iff (before : List Act) (payload : Payload) (outcome : Outcome)
    (polled reloaded : Bool) (meantime : List Act) :
    let first := run Manager.mounted before
    let next := run first (.run (.submit payload) outcome polled reloaded :: meantime)
    (∀ submission ∈ first.submissions, ∀ submission' ∈ first.submissions,
      submission.key = submission'.key → submission.payload = submission'.payload) ∧
      (outcome.uncertain = true → next.access_lost = false →
        (∀ act ∈ meantime, ¬ act.settles payload) →
          ((next.keyFor payload).1 = (first.keyFor payload).1 ↔
            ∀ act ∈ meantime, ¬ act.clears payload)) := by
  intro first next
  refine ⟨(run_sound before).sent_unique, fun huncertain haccess hsettles => ?_⟩
  have hretained := retained_of_uncertain (run_sound before) huncertain (access_of_run haccess)
  rcases hretained.run haccess hsettles with ⟨hall, -, hend⟩ | ⟨⟨act, hact, hclears⟩, hend⟩
  · refine iff_of_true ?_ hall
    rcases keyFor_cases next payload with ⟨hslot, -⟩ | ⟨hslot, -⟩
    · exact congrArg Pending.key (Option.some.inj (hslot.symm.trans hend))
    · exact absurd rfl (hslot _ hend)
  · refine iff_of_false (hend.keyFor payload).1 fun hall => hall act hact hclears

/-- After a refresh of the count, a receipt whose answer was lost is sent with another key. -/
theorem refreshed_receipt_changes_key :
    ¬ ∀ (before : List Act) (payload : Payload) (outcome : Outcome) (polled reloaded : Bool)
        (meantime : List Act),
        let first := run Manager.mounted before
        let next := run first (.run (.submit payload) outcome polled reloaded :: meantime)
        outcome.uncertain = true → next.access_lost = false →
          (∀ act ∈ meantime, ¬ act.settles payload) →
            (next.keyFor payload).1 = (first.keyFor payload).1 := by
  intro h
  have hkeys := h [] (.stock 1 "receipt" "5" "delivery" none) .lost false true
    [.run .other .success false true] rfl rfl (by simp [Act.settles])
  exact absurd hkeys (by decide)

end RestaurantOS.Frontend.InventoryKeys
