import RestaurantOS.Events.Worker
import RestaurantOS.Lib.Dicts

/-!
# The consumer loop

One run of `_consumer_loop` for a group. The loop keeps two tables of references that it will visit
again: `retries` after an infrastructure failure, `busy_retries` while another transaction holds the
delivery. It runs alone between its awaits, so it is a state machine over them: `Phase` says what the
loop awaits, and a step is the end of that await. What Redis answers and how a reference is routed is
up to the step; a read answers at most what it was asked for. `visits` is the history of the visits to
references, the last one first.
-/

namespace RestaurantOS.Events.ConsumerLoop

/-! ## Tables -/

/-- `_ReferenceRetry`. There is one for each reference whose visit has failed or found a busy
delivery. -/
structure ReferenceRetry where
  /-- How many failures, or busy visits, in a row. -/
  failure_count : ℕ
  /-- When to visit the reference again, on the clock of the event loop. -/
  ready_at : ℚ

/-- The entry with the smallest `ready_at`, the first of several. -/
def earliest (table : Dict String ReferenceRetry) : Option (String × ReferenceRetry) :=
  table.items.foldl (fun best entry =>
    match best with
    | none => some entry
    | some best => if entry.2.ready_at < best.2.ready_at then some entry else some best) none

/-- The settings of the loop. The bounds are those that the configuration validates. -/
structure Settings where
  /-- `event_worker_recovery_batch_size`. -/
  event_worker_recovery_batch_size : ℕ
  /-- It is positive. -/
  batch_pos : 0 < event_worker_recovery_batch_size
  /-- `event_worker_pending_idle_ms`. -/
  event_worker_pending_idle_ms : ℕ
  /-- `event_worker_redis_block_ms`. -/
  event_worker_redis_block_ms : ℕ
  /-- `event_worker_infra_backoff_initial_ms`. -/
  event_worker_infra_backoff_initial_ms : ℕ
  /-- `event_worker_infra_backoff_max_ms`. -/
  event_worker_infra_backoff_max_ms : ℕ

namespace Settings

variable (settings : Settings)

/-- `_initial_backoff`. The delay after the first failure. -/
def initial_backoff : ℕ := settings.event_worker_infra_backoff_initial_ms

/-- `_next_backoff`. It doubles the delay, between the initial and the greatest one. -/
def next_backoff (current : ℕ) : ℕ :=
  min settings.event_worker_infra_backoff_max_ms (max settings.initial_backoff (current * 2))

/-- `_reference_retry_delay`. It doubles with each failure, at most sixteen times. -/
def reference_retry_delay (failure_count : ℕ) : ℕ :=
  settings.next_backoff^[min (failure_count - 1) 16] settings.initial_backoff

end Settings

/-- `PendingMessage`. An entry of the stream that a consumer has read and not acknowledged. -/
structure PendingMessage where
  /-- The identifier in the stream. -/
  message_id : String
  /-- How long it has been idle. -/
  idle_ms : ℕ

/-- An exception of an awaited call. The loop handles the first three alike and ends with any other.
-/
inductive Raised
  /-- `WorkerRedisFailure`. -/
  | redis (kind : WorkerFailureKind)
  /-- `SQLAlchemyError`. -/
  | database
  /-- `DependencyUnavailable`, `OSError` or `TimeoutError`. -/
  | unavailable
  /-- Any other exception. -/
  | internal
  /-- `CancelledError`. -/
  | cancelled
deriving DecidableEq

/-- The exceptions after which a reference is visited again. -/
def Raised.infrastructure : Raised → Bool
  | .redis _ | .database | .unavailable => true
  | .internal | .cancelled => false

/-! ## The state of the loop -/

/-- What the loop awaits. Replies come one at a time, since the loop awaits one call after the
other. -/
inductive Phase
  /-- Nothing: it is at its head. -/
  | head
  /-- `ensure_groups`. -/
  | ensuring
  /-- `_wait`, after which it is at its head again. -/
  | waiting (delay_ms : ℕ)
  /-- `pending_reference` for an entry of `retries`. -/
  | retrying (message_id : String)
  /-- The routing of that reference. -/
  | routing_retry (message : StreamMessage)
  /-- `pending_reference` for an entry that was taken from `busy_retries`. -/
  | revisiting (message_id : String) (retry : ReferenceRetry)
  /-- The routing of that reference. -/
  | routing_busy (message : StreamMessage) (busy_count : ℕ)
  /-- `pending_page`. -/
  | paging
  /-- `_claim_abandoned`. -/
  | claiming (abandoned : List String)
  /-- The routing of a claimed reference, before the rest of them. -/
  | routing_claimed (message : StreamMessage) (rest : List StreamMessage)
  /-- `read_new`. -/
  | reading (block_ms : ℕ)
  /-- The routing of a new reference, before the rest of them. -/
  | routing_new (message : StreamMessage) (rest : List StreamMessage)
  /-- It has ended. -/
  | ended

/-- A visit to a reference. Visits are recorded for the statements about what is visited how often.
-/
structure Visit where
  /-- The reference. -/
  message_id : String
  /-- Whether it was taken from `busy_retries`. -/
  revisit : Bool

/-- The loop. Its local variables, with the visits since the last read of new references. -/
structure World where
  /-- The clock of the event loop, in seconds. -/
  now : ℚ
  /-- `stop` is set. -/
  stopped : Bool
  /-- The cursor of the pending pages. -/
  cursor : String
  /-- The delay after the next failure of the loop. -/
  backoff : ℕ
  /-- The references to visit again after an infrastructure failure. -/
  retries : Dict String ReferenceRetry
  /-- The references to visit again because their delivery was busy. -/
  busy_retries : Dict String ReferenceRetry
  /-- What is awaited. -/
  phase : Phase
  /-- The visits, the last one first. -/
  visits : List Visit

namespace World

variable (settings : Settings) (w : World)

/-- The loop as it starts. Nothing is to be retried and the cursor is at the beginning. -/
def started (now : ℚ) : World :=
  ⟨now, false, "-", settings.initial_backoff, Dict.empty, Dict.empty, .head, []⟩

/-- `_schedule_reference_retry`. Failures in a row are counted for the delay. -/
def schedule_reference_retry (message_id : String) : World :=
  let count := match w.retries.get message_id with
    | some previous => previous.failure_count + 1
    | none => 1
  let retry : ReferenceRetry := ⟨count, w.now + settings.reference_retry_delay count / 1000⟩
  { w with retries := w.retries.set message_id retry }

/-- The delay of the next visit to a busy reference, in milliseconds. -/
def busy_delay (count : ℕ) : ℕ := min (50 * 2 ^ min (count - 1) 3) 250

/-- `route`, once the reference was routed: a busy one is visited again. -/
def routed (message_id : String) (busy : Bool) (busy_count : ℕ) : World :=
  let count := busy_count + 1
  if busy ∧ count ≤ 20 ∧ w.busy_retries.size < settings.event_worker_recovery_batch_size then
    let retry : ReferenceRetry := ⟨count, w.now + busy_delay count / 1000⟩
    { w with busy_retries := w.busy_retries.set message_id retry }
  else w

/-- A visit to a reference begins. It is recorded before the reference is routed. -/
def visit (message_id : String) (revisit : Bool) (phase : Phase) : World :=
  { w with visits := ⟨message_id, revisit⟩ :: w.visits, phase := phase }

/-- `continue`. The loop is at its head again. -/
def again : World := { w with phase := .head }

/-- `backoff = self._initial_backoff()` and the end of the body of the loop. -/
def finished : World := { w with backoff := settings.initial_backoff, phase := .head }

/-- The handlers around the body of the loop. -/
def failed (raised : Raised) : World :=
  match raised with
  | .cancelled => { w with phase := .ended }
  | _ => { w with backoff := settings.next_backoff w.backoff, phase := .waiting w.backoff }

/-- The body of the loop after `ensure_groups`. Failed references come first, then busy ones, then
pending pages and new references. -/
def choose : World :=
  match earliest w.retries with
  | some (message_id, retry) =>
    let remaining_ms := ⌊(retry.ready_at - w.now) * 1000⌋.toNat
    if remaining_ms ≠ 0 then { w with phase := .waiting remaining_ms }
    else { w with phase := .retrying message_id }
  | none =>
    match earliest w.busy_retries with
    | some (message_id, retry) =>
      if retry.ready_at ≤ w.now then
        { w with busy_retries := w.busy_retries.pop message_id }.visit message_id true
          (.revisiting message_id retry)
      else { w with phase := .paging }
    | none => { w with phase := .paging }

/-- After the pending page: new references are read unless one is to be retried. -/
def after_pages : World :=
  if w.retries.size ≠ 0 then w.again
  else
    let block_ms := settings.event_worker_redis_block_ms
    match earliest w.busy_retries with
    | some (_, retry) =>
      { w with phase := .reading (min block_ms ⌈(retry.ready_at - w.now) * 1000⌉.toNat) }
    | none => { w with phase := .reading block_ms }

/-- After a visit to a busy reference. While a reference waits for its retry the loop goes back to
its head. -/
def after_busy : World := if w.retries.size ≠ 0 then w.again else { w with phase := .paging }

/-- The claimed references in turn, except those that are in `busy_retries`. -/
def next_claimed : List StreamMessage → World
  | [] => w.after_pages settings
  | message :: rest =>
    if (w.busy_retries.get message.message_id).isSome then next_claimed rest
    else w.visit message.message_id false (.routing_claimed message rest)

/-- The new references in turn. Each is visited, and after the last one the loop goes on. -/
def next_new : List StreamMessage → World
  | [] => w.finished settings
  | message :: rest => w.visit message.message_id false (.routing_new message rest)

end World

/-! ## Steps -/

/-- What happens next: the end of what is awaited, or something that no await depends on. -/
inductive Act
  /-- Time passes, up to a later reading of the clock. -/
  | tick (later : ℚ)
  /-- `stop` is set. -/
  | stop
  /-- The loop goes on from its head, or after waiting. -/
  | go
  /-- `ensure_groups` returns. -/
  | ensured
  /-- `pending_reference` returns the reference, with its fields, or that it is not pending. -/
  | pending_reference (fields : Option Reference)
  /-- `pending_page` returns. -/
  | pending_page (pending : List PendingMessage)
  /-- `claim_pending` returns. -/
  | claimed (messages : List StreamMessage)
  /-- `read_new` returns. -/
  | read (messages : List StreamMessage)
  /-- `_route_message` returns whether the delivery was missing or busy. -/
  | routed (busy : Bool)
  /-- The awaited call raises. -/
  | raise (raised : Raised)

/-- The end of the awaited call by an exception. -/
def World.raise (settings : Settings) (w : World) (raised : Raised) : World :=
  match w.phase with
  | .head | .ended => w
  | .waiting _ => if raised = .cancelled then w.failed settings raised else w
  | .ensuring | .paging | .claiming _ | .reading _ => w.failed settings raised
  | .retrying message_id =>
    if raised.infrastructure then
      (w.schedule_reference_retry settings message_id).finished settings
    else w.failed settings raised
  | .routing_retry message =>
    if raised.infrastructure then
      (w.schedule_reference_retry settings message.message_id).finished settings
    else w.failed settings raised
  | .revisiting message_id _ =>
    if raised.infrastructure then (w.schedule_reference_retry settings message_id).after_busy
    else w.failed settings raised
  | .routing_busy message _ =>
    if raised.infrastructure then (w.schedule_reference_retry settings message.message_id).after_busy
    else w.failed settings raised
  | .routing_claimed message rest =>
    if raised.infrastructure then
      (w.schedule_reference_retry settings message.message_id).next_claimed settings rest
    else w.failed settings raised
  | .routing_new message rest =>
    if raised.infrastructure then
      (w.schedule_reference_retry settings message.message_id).next_new settings rest
    else w.failed settings raised

/-- The end of the routing of a reference. -/
def World.route (settings : Settings) (w : World) (busy : Bool) : World :=
  match w.phase with
  | .routing_retry message =>
    let w := w.routed settings message.message_id busy 0
    { w with retries := w.retries.pop message.message_id }.finished settings
  | .routing_busy message busy_count =>
    (w.routed settings message.message_id busy busy_count).after_busy
  | .routing_claimed message rest =>
    (w.routed settings message.message_id busy 0).next_claimed settings rest
  | .routing_new message rest => (w.routed settings message.message_id busy 0).next_new settings rest
  | _ => w

/-- A step of the loop. An act that does not end what is awaited changes nothing, and neither does a
read that answers more than it was asked for. -/
def step (settings : Settings) (w : World) (act : Act) : World :=
  match act, w.phase with
  | .tick later, _ => { w with now := max w.now later }
  | .stop, _ => { w with stopped := true }
  | .go, .head => { w with phase := if w.stopped then .ended else .ensuring }
  | .go, .waiting _ => w.again
  | .ensured, .ensuring => w.choose
  | .pending_reference none, .retrying message_id =>
    { w with retries := w.retries.pop message_id }.finished settings
  | .pending_reference (some fields), .retrying message_id =>
    w.visit message_id false (.routing_retry ⟨message_id, fields⟩)
  | .pending_reference none, .revisiting _ _ => w.after_busy
  | .pending_reference (some fields), .revisiting message_id retry =>
    { w with phase := .routing_busy ⟨message_id, fields⟩ retry.failure_count }
  | .pending_page pending, .paging =>
    if settings.event_worker_recovery_batch_size < pending.length then w
    else
      match pending.getLast? with
      | none => { w with cursor := "-" }.after_pages settings
      | some last =>
        let w := { w with cursor := "(" ++ last.message_id }
        let abandoned := pending.filter fun message =>
          settings.event_worker_pending_idle_ms ≤ message.idle_ms
        -- Nothing is claimed, and nothing awaited, if nothing is abandoned.
        if abandoned.isEmpty then w.after_pages settings
        else { w with phase := .claiming (abandoned.map (·.message_id)) }
  | .claimed messages, .claiming abandoned =>
    if abandoned.length < messages.length then w else w.next_claimed settings messages
  | .read messages, .reading _ =>
    if settings.event_worker_recovery_batch_size < messages.length then w
    else w.next_new settings messages
  | .routed busy, _ => w.route settings busy
  | .raise raised, _ => w.raise settings raised
  | _, _ => w

/-- A run of the loop. The loop may start in any state. -/
def run (settings : Settings) (w : World) (acts : List Act) : World :=
  Transition.run (step settings) w acts

/-! ## The table of the earliest entry -/

/-- The step of `earliest`. The first entry with the smallest time is kept. -/
private def Earlier (best : Option (String × ReferenceRetry)) (entry : String × ReferenceRetry) :
    Option (String × ReferenceRetry) :=
  match best with
  | none => some entry
  | some best => if entry.2.ready_at < best.2.ready_at then some entry else some best

/-- What the search for the earliest entry returns was its start or is an entry. -/
private theorem earlier_mem (items : List (String × ReferenceRetry))
    (best : Option (String × ReferenceRetry)) (h : items ≠ [] ∨ best.isSome) :
    ∃ entry, items.foldl Earlier best = some entry ∧ (entry ∈ items ∨ best = some entry) := by
  induction items generalizing best with
  | nil =>
    obtain ⟨entry, rfl⟩ := Option.isSome_iff_exists.mp (h.resolve_left (by simp))
    exact ⟨entry, rfl, Or.inr rfl⟩
  | cons head items ih =>
    -- One comparison always leaves some entry.
    have hsome : (Earlier best head).isSome := by
      unfold Earlier
      split
      · rfl
      · split_ifs <;> rfl
    obtain ⟨entry, heq, hmem⟩ := ih (Earlier best head) (Or.inr hsome)
    refine ⟨entry, heq, ?_⟩
    -- The entry is from the rest of the list, or it is the better of the head and the start.
    rcases hmem with hmem | hbest
    · exact Or.inl (List.mem_cons_of_mem _ hmem)
    · unfold Earlier at hbest
      split at hbest
      · exact Or.inl (by rw [Option.some.inj hbest]; exact List.mem_cons_self)
      · split_ifs at hbest
        · exact Or.inl (by rw [Option.some.inj hbest]; exact List.mem_cons_self)
        · exact Or.inr hbest

/-- The earliest entry is an entry. The minimum over the table is one of its entries. -/
theorem get_of_earliest {table : Dict String ReferenceRetry} {message_id : String}
    {retry : ReferenceRetry} (h : earliest table = some (message_id, retry)) :
    table.get message_id = some retry := by
  have hne : table.items ≠ [] := by
    rintro hnil
    unfold earliest at h
    rw [hnil] at h
    cases h
  obtain ⟨entry, heq, hmem⟩ := earlier_mem table.items none (Or.inl hne)
  obtain rfl : entry = (message_id, retry) := Option.some.inj (heq.symm.trans h)
  exact Dict.get_eq_some.mpr (hmem.resolve_right (by simp))

/-- Only an empty table has no earliest entry. -/
theorem size_of_earliest {table : Dict String ReferenceRetry} (h : earliest table = none) :
    table.size = 0 := by
  by_contra hne
  have hitems : table.items ≠ [] := fun hnil => hne (by unfold Dict.size; rw [hnil]; rfl)
  obtain ⟨entry, heq, -⟩ := earlier_mem table.items none (Or.inl hitems)
  exact absurd (heq.symm.trans h) (by simp)

/-! ## What the tables keep -/

/-- The revisits of a reference in a row: since it was last visited otherwise. -/
def revisits (message_id : String) : List Visit → ℕ
  | [] => 0
  | visit :: earlier =>
    if visit.message_id = message_id then
      if visit.revisit then revisits message_id earlier + 1 else 0
    else revisits message_id earlier

/-- The bounds on the tables. The count of an entry of `busy_retries` is more than the revisits made
so far, so it stops them before it passes 20 itself. -/
structure Bounded (settings : Settings) (retries busy_retries : Dict String ReferenceRetry)
    (visits : List Visit) : Prop where
  /-- `retries` has no more entries than a page. -/
  retries_le : retries.size ≤ settings.event_worker_recovery_batch_size
  /-- `busy_retries` has no more entries than a page. -/
  busy_le : busy_retries.size ≤ settings.event_worker_recovery_batch_size
  /-- The count of a busy reference. -/
  count : ∀ message_id retry, busy_retries.get message_id = some retry →
    revisits message_id visits < retry.failure_count ∧ retry.failure_count ≤ 20
  /-- No reference is revisited more than 20 times in a row. -/
  revisits_le : ∀ message_id, revisits message_id visits ≤ 20

/-- What holds of the tables while something is awaited: nothing is read and no busy reference is
visited before `retries` is empty, and there is room in it for what was read. -/
def Phase.Ok (settings : Settings) (retries : Dict String ReferenceRetry) (visits : List Visit) :
    Phase → Prop
  | .head | .ensuring | .waiting _ | .ended => True
  | .retrying message_id => (retries.get message_id).isSome
  | .routing_retry message =>
    (retries.get message.message_id).isSome ∧ revisits message.message_id visits = 0
  | .revisiting message_id retry =>
    retries.size = 0 ∧ revisits message_id visits ≤ retry.failure_count
  | .routing_busy message busy_count =>
    retries.size = 0 ∧ revisits message.message_id visits ≤ busy_count
  | .paging | .reading _ => retries.size = 0
  | .claiming abandoned =>
    retries.size = 0 ∧ abandoned.length ≤ settings.event_worker_recovery_batch_size
  | .routing_claimed message rest | .routing_new message rest =>
    retries.size + 1 + rest.length ≤ settings.event_worker_recovery_batch_size ∧
      revisits message.message_id visits = 0

/-- The invariant of the loop. It bounds the tables and says what the phase has to do with them. -/
structure Sound (settings : Settings) (w : World) : Prop where
  /-- The tables are bounded. -/
  bounded : Bounded settings w.retries w.busy_retries w.visits
  /-- The phase agrees with them. -/
  phase : w.phase.Ok settings w.retries w.visits

section
variable {settings : Settings} {w : World}

/-- The tables of `w` are bounded. It is the part of the invariant that the steps argue with. -/
private abbrev Tables (settings : Settings) (w : World) : Prop :=
  Bounded settings w.retries w.busy_retries w.visits

/-! ### The operations of the loop -/

/-- The loop starts with empty tables. -/
theorem sound_started (settings : Settings) (now : ℚ) :
    Sound settings (World.started settings now) where
  bounded := ⟨Nat.zero_le _, Nat.zero_le _, fun _ _ h => (by cases h), fun _ => Nat.zero_le _⟩
  phase := trivial

/-- A retry is scheduled where there is room or the reference already has an entry. -/
theorem Bounded.schedule {message_id : String} (h : Tables settings w)
    (hroom : (w.retries.get message_id).isSome ∨
      w.retries.size + 1 ≤ settings.event_worker_recovery_batch_size) :
    Tables settings (w.schedule_reference_retry settings message_id) := by
  refine ⟨?_, h.busy_le, h.count, h.revisits_le⟩
  rcases hroom with hmem | hlt
  · exact (Dict.size_set_of_mem hmem _).le.trans h.retries_le
  · exact (Dict.size_set_le _ _).trans hlt

/-- Scheduling a retry adds at most one entry. -/
theorem schedule_size (message_id : String) :
    (w.schedule_reference_retry settings message_id).retries.size ≤ w.retries.size + 1 :=
  Dict.size_set_le _ _

/-- A busy reference is entered with a count above its revisits, and only where there is room. -/
theorem Bounded.routed {message_id : String} {busy : Bool} {busy_count : ℕ}
    (h : Tables settings w) (hcount : revisits message_id w.visits ≤ busy_count) :
    Tables settings (w.routed settings message_id busy busy_count) := by
  unfold World.routed
  dsimp only
  split_ifs with hbusy
  · obtain ⟨-, hle, hroom⟩ := hbusy
    refine ⟨h.retries_le, (Dict.size_set_le _ _).trans hroom, fun other retry hget => ?_, h.revisits_le⟩
    rw [Dict.get_set] at hget
    split_ifs at hget with heq
    · subst heq
      obtain rfl := Option.some.inj hget
      exact ⟨Nat.lt_succ_of_le hcount, hle⟩
    · exact h.count other retry hget
  · exact h

/-- A routed reference leaves the failed ones alone, as it concerns the busy ones only. -/
@[simp] theorem routed_retries (message_id : String) (busy : Bool) (busy_count : ℕ) :
    (w.routed settings message_id busy busy_count).retries = w.retries := by
  unfold World.routed
  dsimp only
  split_ifs <;> rfl

/-- Only a revisit makes the revisits in a row more. -/
theorem revisits_visit_le (message_id other : String) (visits : List Visit) :
    revisits other (⟨message_id, false⟩ :: visits) ≤ revisits other visits := by
  rw [revisits]
  split_ifs with h hrevisit
  · cases hrevisit
  · exact Nat.zero_le _
  · exact le_rfl

/-- After any other visit there are none. -/
theorem revisits_visit_self (message_id : String) (visits : List Visit) :
    revisits message_id (⟨message_id, false⟩ :: visits) = 0 := by
  rw [revisits, if_pos rfl]
  rfl

/-- A visit that is no revisit keeps the bounds. -/
theorem Bounded.visit {message_id : String} {phase : Phase} (h : Tables settings w) :
    Tables settings (w.visit message_id false phase) where
  retries_le := h.retries_le
  busy_le := h.busy_le
  count other retry hget :=
    have hcount := h.count other retry hget
    ⟨(revisits_visit_le message_id other w.visits).trans_lt hcount.1, hcount.2⟩
  revisits_le other := (revisits_visit_le message_id other w.visits).trans (h.revisits_le other)

/-- A revisit keeps the bounds: the entry of the reference is taken away, and its count says how many
revisits there were before. -/
theorem Bounded.revisit {message_id : String} {retry : ReferenceRetry} {phase : Phase}
    (h : Tables settings w) (hget : w.busy_retries.get message_id = some retry) :
    Tables settings
      ({ w with busy_retries := w.busy_retries.pop message_id }.visit message_id true phase) := by
  -- The visit is counted for its own reference and for no other.
  have hself : revisits message_id (⟨message_id, true⟩ :: w.visits) =
      revisits message_id w.visits + 1 := by
    rw [revisits, if_pos rfl, if_pos rfl]
  have hother : ∀ other, other ≠ message_id →
      revisits other (⟨message_id, true⟩ :: w.visits) = revisits other w.visits :=
    fun other hne => by rw [revisits, if_neg hne.symm]
  obtain ⟨hlt, hle⟩ := h.count message_id retry hget
  refine ⟨h.retries_le, (Dict.size_pop_le _).trans h.busy_le, fun other retry' hget' => ?_,
    fun other => ?_⟩
  · -- The other entries are as they were, and so are the counts of their references.
    change (w.busy_retries.pop message_id).get other = some retry' at hget'
    rw [Dict.get_pop] at hget'
    split_ifs at hget' with heq
    show revisits other (_ :: w.visits) < _ ∧ _
    rw [hother other heq]
    exact h.count other retry' hget'
  · show revisits other (_ :: w.visits) ≤ 20
    -- A reference that was revisited less often than its count has one revisit left.
    rcases eq_or_ne other message_id with rfl | hne
    · rw [hself]
      exact hlt.trans_le hle
    · rw [hother other hne]
      exact h.revisits_le other

/-! ### The parts of the body -/

/-- After the pending page `retries` is empty, or the loop goes back to its head. -/
theorem Sound.after_pages (h : Tables settings w) : Sound settings (w.after_pages settings) := by
  unfold World.after_pages
  split_ifs with hne
  · exact ⟨h, trivial⟩
  · dsimp only
    have hsize : w.retries.size = 0 := not_not.mp hne
    split
    · exact ⟨h, hsize⟩
    · exact ⟨h, hsize⟩

/-- So it is after a visit to a busy reference. -/
theorem Sound.after_busy (h : Tables settings w) : Sound settings w.after_busy := by
  unfold World.after_busy
  split_ifs with hne
  · exact ⟨h, trivial⟩
  · exact ⟨h, not_not.mp hne⟩

/-- The claimed references fit into `retries` while they are routed. -/
theorem Sound.next_claimed {messages : List StreamMessage} (h : Tables settings w)
    (hroom : w.retries.size + messages.length ≤ settings.event_worker_recovery_batch_size) :
    Sound settings (w.next_claimed settings messages) := by
  induction messages with
  | nil => exact Sound.after_pages h
  | cons message rest ih =>
    have hlength : (message :: rest).length = rest.length + 1 := List.length_cons
    unfold World.next_claimed
    split_ifs
    · exact ih (by omega)
    · have hfits : w.retries.size + 1 + rest.length ≤ settings.event_worker_recovery_batch_size := by
        omega
      exact ⟨h.visit, hfits, revisits_visit_self _ _⟩

/-- So do the new references. They are no more than the room in `retries` allows. -/
theorem Sound.next_new {messages : List StreamMessage} (h : Tables settings w)
    (hroom : w.retries.size + messages.length ≤ settings.event_worker_recovery_batch_size) :
    Sound settings (w.next_new settings messages) := by
  cases messages with
  | nil => exact ⟨h, trivial⟩
  | cons message rest =>
    have hlength : (message :: rest).length = rest.length + 1 := List.length_cons
    have hfits : w.retries.size + 1 + rest.length ≤ settings.event_worker_recovery_batch_size := by
      omega
    exact ⟨h.visit, hfits, revisits_visit_self _ _⟩

/-- The body begins with the earliest entry of `retries`, and turns to a busy reference only if there
is none. -/
theorem Sound.choose (h : Tables settings w) : Sound settings w.choose := by
  unfold World.choose
  split
  · rename_i message_id retry hearliest
    dsimp only
    split_ifs
    · exact ⟨h, trivial⟩
    · exact ⟨h, by rw [Phase.Ok, get_of_earliest hearliest]; rfl⟩
  · rename_i hretries
    have hsize : w.retries.size = 0 := size_of_earliest hretries
    split
    · rename_i message_id retry hearliest
      have hget := get_of_earliest hearliest
      split_ifs
      · refine ⟨h.revisit hget, hsize, ?_⟩
        show revisits message_id (_ :: w.visits) ≤ retry.failure_count
        rw [revisits, if_pos rfl, if_pos rfl]
        exact (h.count message_id retry hget).1
      · exact ⟨h, hsize⟩
    · exact ⟨h, hsize⟩

/-- An exception that reaches the handlers of the loop leaves the tables as they are. -/
theorem Sound.failed {raised : Raised} (h : Tables settings w) :
    Sound settings (w.failed settings raised) := by
  cases raised <;> exact ⟨h, trivial⟩

/-- An exception of the awaited call keeps the invariant. A failed visit adds its reference to
`retries`, for which there is room. -/
theorem Sound.raise (h : Sound settings w) (raised : Raised) :
    Sound settings (w.raise settings raised) := by
  obtain ⟨hb, hphase⟩ := h
  have hpos := settings.batch_pos
  unfold World.raise
  -- The phases are taken in the order of the source; only four of them schedule the reference
  -- again.
  split <;> rename_i heq <;> rw [heq] at hphase
  · exact ⟨hb, by rw [heq]; trivial⟩
  · exact ⟨hb, by rw [heq]; trivial⟩
  · split_ifs
    · exact Sound.failed hb
    · exact ⟨hb, by rw [heq]; trivial⟩
  · exact Sound.failed hb
  · exact Sound.failed hb
  · exact Sound.failed hb
  · exact Sound.failed hb
  · -- The reference that was being visited is put back, so there is room for it.
    split_ifs
    · exact ⟨hb.schedule (Or.inl hphase), trivial⟩
    · exact Sound.failed hb
  · split_ifs
    · exact ⟨hb.schedule (Or.inl hphase.1), trivial⟩
    · exact Sound.failed hb
  · -- While a page is routed the table is empty, so one entry more fits.
    obtain ⟨hempty, -⟩ := hphase
    split_ifs
    · exact Sound.after_busy (hb.schedule (Or.inr (by omega)))
    · exact Sound.failed hb
  · obtain ⟨hempty, -⟩ := hphase
    split_ifs
    · exact Sound.after_busy (hb.schedule (Or.inr (by omega)))
    · exact Sound.failed hb
  · rename_i message rest
    obtain ⟨hroom, -⟩ := hphase
    have hsize := @schedule_size settings w message.message_id
    -- The page has room for the reference and the rest.
    split_ifs
    · exact Sound.next_claimed (hb.schedule (Or.inr (by omega))) (by omega)
    · exact Sound.failed hb
  · rename_i message rest
    obtain ⟨hroom, -⟩ := hphase
    have hsize := @schedule_size settings w message.message_id
    split_ifs
    · exact Sound.next_new (hb.schedule (Or.inr (by omega))) (by omega)
    · exact Sound.failed hb

/-- The end of the routing of a reference keeps the invariant. -/
theorem Sound.route (h : Sound settings w) (busy : Bool) : Sound settings (w.route settings busy) := by
  obtain ⟨hb, hphase⟩ := h
  unfold World.route
  split <;> (try rename_i heq; rw [heq] at hphase)
  · obtain ⟨-, hfresh⟩ := hphase
    have hrouted : Tables settings (w.routed settings _ busy 0) := hb.routed hfresh.le
    exact ⟨{ hrouted with retries_le := (Dict.size_pop_le _).trans hrouted.retries_le }, trivial⟩
  · exact Sound.after_busy (hb.routed hphase.2)
  · obtain ⟨hroom, hfresh⟩ := hphase
    refine Sound.next_claimed (hb.routed hfresh.le) ?_
    rw [routed_retries]
    omega
  · obtain ⟨hroom, hfresh⟩ := hphase
    refine Sound.next_new (hb.routed hfresh.le) ?_
    rw [routed_retries]
    omega
  · exact ⟨hb, hphase⟩

/-- Every step keeps the invariant. Each case is one reply to what the loop awaits. -/
theorem Sound.step (w : World) (act : Act) (h : Sound settings w) :
    Sound settings (step settings w act) := by
  obtain ⟨hb, hphase⟩ := h
  unfold ConsumerLoop.step
  split
  · -- Time and the request to stop change no table.
    exact ⟨hb, hphase⟩
  · exact ⟨hb, hphase⟩
  · exact ⟨hb, by dsimp only; split_ifs <;> trivial⟩
  · exact ⟨hb, trivial⟩
  · exact Sound.choose hb
  · -- A reference that is gone is taken out of its table.
    exact ⟨{ hb with retries_le := (Dict.size_pop_le _).trans hb.retries_le }, trivial⟩
  · rename_i heq
    rw [heq] at hphase
    exact ⟨hb.visit, hphase, revisits_visit_self _ _⟩
  · -- The round goes on after the busy references.
    exact Sound.after_busy hb
  · rename_i heq
    rw [heq] at hphase
    exact ⟨hb, hphase⟩
  · rename_i pending heq
    rw [heq] at hphase
    split_ifs with hlong
    · exact ⟨hb, by rw [heq]; exact hphase⟩
    split
    · -- A page without abandoned references ends the paging.
      exact Sound.after_pages hb
    · dsimp only
      split_ifs
      · exact Sound.after_pages hb
      · -- No more are claimed than the page has.
        refine ⟨hb, hphase, ?_⟩
        rw [List.length_map]
        exact (List.length_filter_le _ _).trans (not_lt.mp hlong)
  · rename_i heq
    rw [heq] at hphase
    obtain ⟨hempty, hle⟩ := hphase
    split_ifs
    · exact ⟨hb, by rw [heq]; exact ⟨hempty, hle⟩⟩
    · -- No more come back than were asked for.
      exact Sound.next_claimed hb (by omega)
  · rename_i heq
    rw [heq] at hphase
    have hempty : w.retries.size = 0 := hphase
    split_ifs
    · exact ⟨hb, by rw [heq]; exact hempty⟩
    · -- New references are read while nothing is to be retried.
      exact Sound.next_new hb (by omega)
  · exact Sound.route ⟨hb, hphase⟩ _
  · exact Sound.raise ⟨hb, hphase⟩ _
  · exact ⟨hb, hphase⟩

/-- So does every run. -/
theorem sound_run (settings : Settings) (now : ℚ) (acts : List Act) :
    Sound settings (run settings (World.started settings now) acts) :=
  @Transition.run_invariant _ _ (ConsumerLoop.step settings) (Sound settings)
    (fun w act => Sound.step w act) _ (sound_started settings now) acts

/-! ## How an entry leaves `retries` -/

/-- The parts of the body after a visit leave `retries` as it is. -/
@[simp] theorem after_pages_retries : (w.after_pages settings).retries = w.retries := by
  unfold World.after_pages
  split_ifs
  · rfl
  · dsimp only
    split <;> rfl

/-- The failed references stay. -/
@[simp] theorem after_busy_retries : w.after_busy.retries = w.retries := by
  unfold World.after_busy
  split_ifs <;> rfl

/-- The failed references stay, as none of these visits has failed yet. -/
@[simp] theorem next_claimed_retries (messages : List StreamMessage) :
    (w.next_claimed settings messages).retries = w.retries := by
  induction messages with
  | nil => exact after_pages_retries
  | cons message rest ih =>
    unfold World.next_claimed
    split_ifs
    · exact ih
    · rfl

/-- The failed references stay, as none of these visits has failed yet. -/
@[simp] theorem next_new_retries (messages : List StreamMessage) :
    (w.next_new settings messages).retries = w.retries := by
  cases messages <;> rfl

/-- The choice of the next visit leaves the failed references alone. -/
@[simp] theorem choose_retries : w.choose.retries = w.retries := by
  unfold World.choose
  split
  · dsimp only
    split_ifs <;> rfl
  · split
    · split_ifs <;> rfl
    · rfl

/-- An exception of the loop itself leaves the failed references alone. -/
@[simp] theorem failed_retries (raised : Raised) : (w.failed settings raised).retries = w.retries := by
  cases raised <;> rfl

/-- An entry of `retries` stays while a retry is scheduled. -/
theorem schedule_keeps {message_id other : String} (h : (w.retries.get other).isSome) :
    ((w.schedule_reference_retry settings message_id).retries.get other).isSome := by
  show ((w.retries.set message_id _).get other).isSome
  rw [Dict.get_set]
  split_ifs
  · rfl
  · exact h

/-- An exception takes no entry out of `retries`. It adds one, or ends the loop with the tables as
they are. -/
theorem raise_keeps {message_id : String} (raised : Raised) (h : (w.retries.get message_id).isSome) :
    ((w.raise settings raised).retries.get message_id).isSome := by
  unfold World.raise
  split <;> (try split_ifs) <;>
    first
    | exact h
    | (simp only [failed_retries]; exact h)
    | (simp only [next_claimed_retries, next_new_retries, after_busy_retries]; exact schedule_keeps h)
    | exact schedule_keeps h

/-- An entry leaves `retries` because its reference is no longer pending, or was routed. -/
def Leaves (w : World) (act : Act) (message_id : String) : Prop :=
  (w.phase = .retrying message_id ∧ act = .pending_reference none) ∨
    ∃ message busy, w.phase = .routing_retry message ∧ message.message_id = message_id ∧
      act = .routed busy

/-- A removal takes away one key. -/
private theorem get_pop_isSome {table : Dict String ReferenceRetry} {message_id other : String}
    (h : (table.get other).isSome) :
    ((table.pop message_id).get other).isSome ∨ message_id = other := by
  rw [Dict.get_pop]
  split_ifs with heq
  · exact Or.inr heq.symm
  · exact Or.inl h

/-- The end of a routing takes at most the entry that was visited out of `retries`. -/
theorem route_keeps {message_id : String} (busy : Bool) (h : (w.retries.get message_id).isSome) :
    ((w.route settings busy).retries.get message_id).isSome ∨
      ∃ message, w.phase = .routing_retry message ∧ message.message_id = message_id := by
  unfold World.route
  split
  · rename_i message hphase
    have hrouted : ((w.routed settings message.message_id busy 0).retries.get message_id).isSome := by
      rw [routed_retries]
      exact h
    exact (get_pop_isSome hrouted).imp_right fun heq => ⟨message, hphase, heq⟩
  · exact Or.inl (by rw [after_busy_retries, routed_retries]; exact h)
  · exact Or.inl (by rw [next_claimed_retries, routed_retries]; exact h)
  · exact Or.inl (by rw [next_new_retries, routed_retries]; exact h)
  · exact Or.inl h

/-- A step takes an entry out of `retries` in no other way. This is what the leaving condition of a
reference rests on. -/
theorem step_keeps {message_id : String} (act : Act) (h : (w.retries.get message_id).isSome) :
    ((step settings w act).retries.get message_id).isSome ∨ Leaves w act message_id := by
  unfold step
  split
  · exact Or.inl h
  · exact Or.inl h
  · exact Or.inl h
  · exact Or.inl h
  · exact Or.inl (by rw [choose_retries]; exact h)
  · rename_i hphase
    exact (get_pop_isSome h).imp_right fun heq => Or.inl ⟨by rw [← heq]; exact hphase, rfl⟩
  · exact Or.inl h
  · exact Or.inl (by rw [after_busy_retries]; exact h)
  · exact Or.inl h
  · left
    split_ifs
    · exact h
    split
    · rw [after_pages_retries]
      exact h
    · dsimp only
      split_ifs
      · rw [after_pages_retries]
        exact h
      · exact h
  · left
    split_ifs
    · exact h
    · rw [next_claimed_retries]
      exact h
  · left
    split_ifs
    · exact h
    · rw [next_new_retries]
      exact h
  · rename_i busy
    refine (route_keeps _ h).imp_right fun hrouted => Or.inr ?_
    obtain ⟨message, hphase, heq⟩ := hrouted
    exact ⟨message, busy, hphase, heq, rfl⟩
  · exact Or.inl (raise_keeps _ h)
  · exact Or.inl h

end

/-! ## The bookkeeping -/

/-- References are read: from the pending page on, until they are there. -/
def Phase.reads : Phase → Bool
  | .paging | .claiming _ | .reading _ => true
  | _ => false

/-- In every state of every run neither table has more entries than a page, references are read only
while `retries` is empty, an entry leaves `retries` only because its reference was routed without
failure or is no longer pending, and no reference is revisited more than 20 times in a row for being
busy. -/
theorem consumer_loop_bookkeeping (settings : Settings) (now : ℚ) (acts : List Act) :
    let w := run settings (World.started settings now) acts
    (w.retries.size ≤ settings.event_worker_recovery_batch_size ∧
        w.busy_retries.size ≤ settings.event_worker_recovery_batch_size) ∧
      (w.phase.reads = true → w.retries.size = 0) ∧
      (∀ act message_id, (w.retries.get message_id).isSome →
        (step settings w act).retries.get message_id = none → Leaves w act message_id) ∧
      ∀ message_id, revisits message_id w.visits ≤ 20 := by
  intro w
  obtain ⟨hb, hphase⟩ : Sound settings w := sound_run settings now acts
  refine ⟨⟨hb.retries_le, hb.busy_le⟩, fun hreads => ?_, fun act message_id hmem hgone => ?_,
    hb.revisits_le⟩
  · -- The three reading phases are entered with an empty table, and keep it empty.
    unfold Phase.reads at hreads
    split at hreads
    · rename_i heq
      rw [heq] at hphase
      exact hphase
    · rename_i heq
      rw [heq] at hphase
      exact hphase.1
    · rename_i heq
      rw [heq] at hphase
      exact hphase
    · cases hreads
  · refine (@step_keeps settings w message_id act hmem).resolve_left fun hkept => ?_
    rw [hgone] at hkept
    cases hkept

end RestaurantOS.Events.ConsumerLoop
