import RestaurantOS.Auth.LocalBuckets
import RestaurantOS.Auth.Settlement

/-!
# The bounds of the limiter in memory

What every run of the limiter keeps. A step is one of a few changes (`Change`): a call is entered, a
call takes a turn, in which it touches the buckets in one of five ways (`Touches`), or Redis executes
a command. The identifier of an admission belongs to one call until it is returned, and then to those
that settle it (`Identified`), so that no other call can take its reservation away before.

An admission is counted once in a bucket as long as `_local_admit` finds the failure that was counted
for it. It does not where the failure has expired while the limiter waited for Redis.
-/

namespace RestaurantOS.Auth.LocalLimiter

open RateLimit (Script Execution Mode)

/-! ## What a step does -/

/-- A call acts for an admission. It will settle it, or has yet to return it. -/
def Call.acts_for (call : Call) (id : String) : Prop :=
  match call.request with
  | .admission identifier _ _ => identifier = id ∧ call.phase ≠ .returned
  | .finalize admission _ _ => admission.id = id

/-- A request may use an identifier. An admission draws two, and a finalization brings the one of
its admission. -/
def Request.uses : Request → String → Prop
  | .admission identifier probe_identifier _, id => id = identifier ∨ id = probe_identifier
  | .finalize returned _ _, id => id = returned.id

/-- A call takes a turn: it keeps its request, it stays where it is once it has returned, and it keeps
its command and the answer unless it sends another. -/
structure Turn (w w' : World) (i : ℕ) (call call' : Call) : Prop where
  /-- Where it was. -/
  found : w.calls[i]? = some call
  /-- Where it is. -/
  calls : w'.calls = w.calls.set i call'
  /-- The request is the same. -/
  request : call'.request = call.request
  /-- A call that has returned takes no more turns. -/
  stays : call.phase = .returned → call' = call
  /-- What the call sends. -/
  sends : (call'.sent = call.sent ∧ call'.answer = call.answer ∧
      ((∃ is_local, call'.phase = .admitting is_local) → call' = call)) ∨
    ∃ script, call'.sent = some script ∧ call'.answer = none ∧ call.request.uses script.id ∧
      ((∃ is_local, call'.phase = .admitting is_local) → ∃ identifier probe_identifier keys,
        call.request = .admission identifier probe_identifier keys ∧
          script = .admission identifier keys false)
  /-- Redis is not touched. -/
  redis : w'.redis = w.redis
  /-- No identifier is drawn. -/
  identifiers : w'.identifiers = w.identifiers

/-- The time of the Redis clock at which an action happens, as far as it says. -/
def Act.redis_now : Act → ℕ
  | .reply _ _ _ redis_now => redis_now
  | .execute _ now => now
  | .other execution => execution.now
  | _ => 0

/-- What a turn does to the buckets in memory, and the admission that it returns. -/
inductive Touches (config : Config) (w w' : World) (a : Act) (call call' : Call) : Prop
  | kept (hentries : w'.state.entries = w.state.entries) (hcounted : w'.counted = w.counted)
      (hadmissions : w'.admissions = w.admissions)
  | returned_redis (identifier probe_identifier : String) (keys : List String) (is_local : Bool)
      (executed_at : ℕ) (hrequest : call.request = .admission identifier probe_identifier keys)
      (hphase : call.phase = .admitting is_local) (hphase' : call'.phase = .returned)
      (hanswer : call.answer = some (0, executed_at)) (hclock : w.redis.clock ≤ a.redis_now)
      (hbudget : a.redis_now ≤ executed_at + REDIS_OPERATION_BUDGET_MS)
      (hentries : w'.state.entries = w.state.entries) (hcounted : w'.counted = w.counted)
      (hadmissions : w'.admissions = w.admissions ++ [⟨identifier, keys, true, is_local⟩])
  | returned_local (identifier probe_identifier : String) (keys : List String) (now : ℚ)
      (is_local : Bool) (after : Entries)
      (hrequest : call.request = .admission identifier probe_identifier keys)
      (hphase : call.phase ≠ .returned) (hphase' : call'.phase = .returned) (hnow : w.now ≤ now)
      (hadmits : Admits config now w.state.entries keys identifier false (.ok is_local, after))
      (hentries : w'.state.entries = after) (hcounted : w'.counted = w.counted)
      (hadmissions : w'.admissions = w.admissions ++ [⟨identifier, keys, false, true⟩])
  | admitted (id : String) (keys : List String) (now : ℚ) (guard : Bool)
      (outcome : Except ℕ Bool × Entries) (hacts : call.acts_for id)
      (hrecounting : ∀ admission count discard, call.request = .finalize admission count discard →
        keys = admission.keys ∧ call.phase = .recounting ∧
          ∃ i reading, a = .proceed i reading ∧ reading.first = now ∧ w.calls[i]? = some call)
      (hadmits : Admits config now w.state.entries keys id guard outcome)
      (hentries : w'.state.entries = outcome.2) (hcounted : w'.counted = w.counted)
      (hadmissions : w'.admissions = w.admissions)
  | settled (id : String) (count : Bool) (outcome : Entries × List (String × String))
      (hacts : call.acts_for id)
      (hcount : count = true → ∃ admission counts discard,
        call.request = .finalize admission counts discard)
      (hsettling : Bounded config w.state.entries →
        Settling config id count w.state.entries outcome)
      (hentries : w'.state.entries = outcome.1) (hcounted : w'.counted = w.counted ++ outcome.2)
      (hadmissions : w'.admissions = w.admissions)

/-- What a step does. The cases are those of the step function, each with all that it changes. -/
inductive Change (config : Config) (w w' : World) (a : Act) : Prop
  | nothing (h : w' = w)
  | entered (request : Request) (hmay : w.may_enter request)
      (h : w' = { w with
        calls := w.calls ++ [⟨request, .entered, none, none⟩]
        identifiers := w.identifiers ++ World.drawn request })
  | turn (i : ℕ) (call call' : Call) (hturn : Turn w w' i call call')
      (htouches : Touches config w w' a call call')
  | executed (i now : ℕ) (call : Call) (script : Script) (hcall : w.calls[i]? = some call)
      (hsent : call.sent = some script) (hclock : w.redis.clock ≤ now)
      (hnew : is_new w.redis script = true)
      (h : w' = { w with
        redis := w.redis.step config.limits ⟨now, script⟩
        calls := w.calls.set i { call with
          sent := none
          answer := some (World.result config w.redis now script, now) } })
  | other (execution : Execution) (hother : execution.script.id ∉ w.identifiers)
      (h : w' = { w with redis := w.redis.step config.limits execution })

variable {config : Config} {w : World} {reading : Reading} {i : ℕ} {call : Call}

/-- A modified element that is there is set. The element is the one that was looked up. -/
theorem modify_eq_set {calls : List Call} (hcall : calls[i]? = some call) (f : Call → Call) :
    calls.modify i f = calls.set i (f call) := by
  refine List.ext_getElem? fun j => ?_
  by_cases hij : i = j
  · subst hij
    obtain ⟨hlt, -⟩ := List.getElem?_eq_some_iff.mp hcall
    rw [List.getElem?_modify_eq, hcall, List.getElem?_set_self hlt]
    rfl
  · rw [List.getElem?_modify_ne f calls hij, List.getElem?_set_ne hij]

/-- A call moves on. What it has sent stays, and it waits for nothing new. -/
theorem turn_move (hcall : w.calls[i]? = some call) (hphase : call.phase ≠ .returned) {v : World}
    {p : Phase} (hp : ∀ is_local, p ≠ .admitting is_local) (hcalls : v.calls = w.calls := by rfl)
    (hredis : v.redis = w.redis := by rfl) (hidentifiers : v.identifiers = w.identifiers := by rfl) :
    Turn w (v.move i p) i call { call with phase := p } where
  found := hcall
  calls := by
    unfold World.move
    dsimp only
    rw [hcalls]
    exact modify_eq_set hcall _
  request := rfl
  stays h := absurd h hphase
  sends := Or.inl ⟨rfl, rfl, fun ⟨is_local, h⟩ => absurd h (hp is_local)⟩
  redis := hredis
  identifiers := hidentifiers

/-- A call sends a command. The command carries an identifier of the call. -/
theorem turn_send (hcall : w.calls[i]? = some call) (hphase : call.phase ≠ .returned) {v : World}
    {p : Phase} {script : Script}
    (huses : call.request.uses script.id)
    (hp : (∃ is_local, p = .admitting is_local) → ∃ identifier probe_identifier keys,
      call.request = .admission identifier probe_identifier keys ∧
        script = .admission identifier keys false)
    (hcalls : v.calls = w.calls := by rfl) (hredis : v.redis = w.redis := by rfl)
    (hidentifiers : v.identifiers = w.identifiers := by rfl) :
    Turn w (v.send i p script) i call
      { call with phase := p, sent := some script, answer := none } where
  found := hcall
  calls := by
    unfold World.send
    dsimp only
    rw [hcalls]
    exact modify_eq_set hcall _
  request := rfl
  stays h := absurd h hphase
  sends := Or.inr ⟨script, rfl, rfl, huses, hp⟩
  redis := hredis
  identifiers := hidentifiers

/-- A call waits. It stays at its phase, with whatever else has changed. -/
theorem turn_idle (hcall : w.calls[i]? = some call) {v : World} (hcalls : v.calls = w.calls)
    (hredis : v.redis = w.redis) (hidentifiers : v.identifiers = w.identifiers) :
    Turn w v i call call where
  found := hcall
  calls := by
    rw [hcalls]
    refine (List.ext_getElem? fun j => ?_).symm
    rw [List.getElem?_set]
    split_ifs with hij hlt
    · rw [← hij, hcall]
    · rw [← hij, List.getElem?_eq_none (Nat.le_of_not_lt hlt)]
    · rfl
  request := rfl
  stays _ := rfl
  sends := Or.inl ⟨rfl, rfl, fun _ => rfl⟩
  redis := hredis
  identifiers := hidentifiers

/-- `_local_admit` of a call, and how it goes on. Either it is admitted and goes on, or it is
rejected; a property of both holds of the result. -/
theorem admit_locally_admits {P : World → Prop} {keys : List String} {identifier : String}
    {guard : Bool} {next : Bool → World → World} {rejected : World → World}
    (hnext : ∀ is_local after, Admits config reading.first w.state.entries keys identifier guard
        (.ok is_local, after) → P (next is_local { w with state := { w.state with entries := after } }))
    (hrejected : ∀ retry after, Admits config reading.first w.state.entries keys identifier guard
        (.error retry, after) → P (rejected { w with state := { w.state with entries := after } })) :
    P (w.admit_locally config reading keys identifier guard next rejected) := by
  have h := local_admit_admits config reading.first keys identifier guard w.state.entries
  unfold World.admit_locally
  dsimp only
  generalize local_admit config.auth_local_max_entries reading.first (config.buckets keys) identifier
    guard w.state.entries = outcome at h ⊢
  obtain ⟨result, after⟩ := outcome
  cases result with
  | ok is_local => exact hnext is_local after h
  | error retry => exact hrejected retry after h

/-- A section that does nothing is a turn. Only the clock has moved on. -/
theorem idle_change (hcall : w.calls[i]? = some call) {a : Act} :
    Change config w { w with now := reading.second } a :=
  .turn i _ _ (turn_idle hcall rfl rfl rfl) (.kept rfl rfl rfl)

section Admission

variable {identifier probe_identifier : String} {keys : List String} {phase : Phase}
  {sent : Option Script} {answer : Option (ℕ × ℕ)}

/-- A local admission of a call is a turn. The call has the admission, or is refused. -/
theorem local_admission_change
    (hcall : w.calls[i]? =
      some ⟨.admission identifier probe_identifier keys, phase, sent, answer⟩)
    (hreads : w.reads reading) (hphase : phase ≠ .returned) :
    Change config w ({ w with now := reading.second }.admit_locally config reading keys identifier false
      (fun _ w => w.return_admission i ⟨identifier, keys, false, true⟩) (·.move i .raised))
      (.proceed i reading) := by
  refine admit_locally_admits (P := fun w' => Change config w w' (.proceed i reading))
    (fun is_local after h => ?_) (fun retry after h => ?_)
  · exact .turn i _ _ (turn_move hcall hphase (by simp))
      (.returned_local identifier probe_identifier keys reading.first is_local after rfl hphase
        rfl hreads.1 h rfl rfl rfl)
  · exact .turn i _ _ (turn_move hcall hphase (by simp))
      (.admitted identifier keys reading.first false _ ⟨rfl, hphase⟩ (by simp) h rfl rfl rfl)

/-- Giving a local reservation back is a turn. No failure is counted for it. -/
theorem withdrawal_change
    (hcall : w.calls[i]? =
      some ⟨.admission identifier probe_identifier keys, phase, sent, answer⟩)
    (hphase : phase ≠ .returned) {p : Phase} (hp : ∀ is_local, p ≠ .admitting is_local) :
    Change config w (({ w with now := reading.second }.finalize_locally config reading identifier keys
      false false).move i p) (.proceed i reading) :=
  .turn i _ _ (turn_move hcall hphase hp)
    (.settled identifier false _ ⟨rfl, hphase⟩ (by simp)
      (fun h => local_finalize_settling h reading.first reading.wall identifier keys false false)
      rfl rfl rfl)

/-- A critical section of an admission is a turn. The cases follow its phases in the order of the
source. -/
theorem admission_change
    (hcall : w.calls[i]? =
      some ⟨.admission identifier probe_identifier keys, phase, sent, answer⟩)
    (hreads : w.reads reading) :
    Change config w ({ w with now := reading.second }.critical config i reading
      (.admission identifier probe_identifier keys) phase) (.proceed i reading) := by
  cases phase with
  -- The probe is sent, or the call goes on without one.
  | entered =>
    unfold World.critical
    dsimp only
    split_ifs
    · exact .turn i _ _ (turn_send hcall (by simp) (Or.inr rfl) (by simp))
        (.kept rfl rfl rfl)
    · exact .turn i _ _ (turn_move hcall (by simp) (by simp)) (.kept rfl rfl rfl)
  | probed raises =>
    refine .turn i _ _ (turn_move hcall (by simp) ?_) (.kept rfl rfl rfl)
    cases raises <;> simp
  | cleared =>
    exact .turn i _ _ (turn_move hcall (by simp) (by simp)) (.kept rfl rfl rfl)
  | chosen degraded =>
    cases degraded with
    -- The local admission is returned, or refused to the caller.
    | true => exact local_admission_change hcall hreads (by simp)
    -- The reservation is kept in memory while Redis is asked.
    | false =>
      unfold World.critical
      refine admit_locally_admits (P := fun w' => Change config w w' (.proceed i reading))
        (fun is_local after h => ?_) (fun retry after h => ?_)
      · exact .turn i _ _ (turn_send hcall (by simp) (Or.inl rfl)
          fun _ => ⟨identifier, probe_identifier, keys, rfl, rfl⟩)
          (.admitted identifier keys reading.first true _ ⟨rfl, by simp⟩ (by simp) h rfl rfl rfl)
      · exact .turn i _ _ (turn_move hcall (by simp) (by simp))
          (.admitted identifier keys reading.first true _ ⟨rfl, by simp⟩ (by simp) h rfl rfl rfl)
  -- Redis has refused, so the local reservation is given back.
  | withdrawing => exact withdrawal_change hcall (by simp) (by simp)
  -- Redis has failed, so the reservation is given back before the local admission.
  | failing => exact withdrawal_change hcall (by simp) (by simp)
  | falling => exact local_admission_change hcall hreads (by simp)
  | _ => exact idle_change hcall

end Admission

/-- A critical section of a finalization is a turn. The cases follow its phases in the order of the
source. -/
theorem finalize_change {admission : Admission} {count discard : Bool} {phase : Phase}
    {sent : Option Script} {answer : Option (ℕ × ℕ)}
    (hcall : w.calls[i]? = some ⟨.finalize admission count discard, phase, sent, answer⟩) :
    Change config w ({ w with now := reading.second }.critical config i reading
      (.finalize admission count discard) phase) (.proceed i reading) := by
  have hacts : Call.acts_for ⟨.finalize admission count discard, phase, sent, answer⟩ admission.id :=
    rfl
  cases phase with
  -- The local buckets are settled, and the script follows if the admission was made in Redis.
  | entered =>
    have hsettling := fun h : Bounded config w.state.entries =>
      local_finalize_settling h reading.first reading.wall admission.id admission.keys count discard
    change Change config w (if admission.redis then _ else _) _
    by_cases hredis : admission.redis
    · rw [if_pos hredis]
      exact .turn i _ _ (turn_send hcall (by simp) rfl (by simp))
        (.settled admission.id count _ hacts (fun _ => ⟨admission, count, discard, rfl⟩) hsettling rfl
          rfl rfl)
    · rw [if_neg hredis]
      exact .turn i _ _ (turn_move hcall (by simp) (by simp))
        (.settled admission.id count _ hacts (fun _ => ⟨admission, count, discard, rfl⟩) hsettling rfl
          rfl rfl)
  -- Redis has failed to settle, so the failure is reserved once more in memory.
  | recounting =>
    have hrecounting : ∀ other counts discards,
        Request.finalize admission count discard = .finalize other counts discards →
          admission.keys = other.keys ∧ Phase.recounting = .recounting ∧
            ∃ j reads, Act.proceed i reading = .proceed j reads ∧ reads.first = reading.first ∧
              w.calls[j]? = some ⟨.finalize admission count discard, .recounting, sent, answer⟩ := by
      rintro _ _ _ ⟨⟩
      exact ⟨rfl, rfl, i, reading, rfl, rfl, hcall⟩
    unfold World.critical
    refine admit_locally_admits (P := fun w' => Change config w w' (.proceed i reading))
      (fun is_local after h => ?_) (fun retry after h => ?_)
    · exact .turn i _ _ (turn_move hcall (by simp) (by simp))
        (.admitted admission.id admission.keys reading.first false _ hacts hrecounting h rfl rfl rfl)
    · exact .turn i _ _ (turn_move hcall (by simp) (by simp))
        (.admitted admission.id admission.keys reading.first false _ hacts hrecounting h rfl rfl rfl)
  -- What was reserved again is counted.
  | recounted =>
    exact .turn i _ _ (turn_move hcall (by simp) (by simp))
      (.settled admission.id true _ hacts (fun _ => ⟨admission, count, discard, rfl⟩)
        (fun h => local_finalize_settling h reading.first reading.wall admission.id admission.keys true
          false) rfl rfl rfl)
  | _ => exact idle_change hcall

/-- A critical section of a call is a turn. It is one of an admission or of a finalization. -/
theorem critical_change (hcall : w.calls[i]? = some call) (hreads : w.reads reading) :
    Change config w ({ w with now := reading.second }.critical config i reading call.request call.phase)
      (.proceed i reading) := by
  obtain ⟨request, phase, sent, answer⟩ := call
  cases request with
  | admission identifier probe_identifier keys => exact admission_change hcall hreads
  | finalize admission count discard => exact finalize_change hcall

/-- A success does not touch the buckets. -/
theorem State.succeed_entries (state : State) (generation : ℕ) :
    (state.succeed generation).entries = state.entries := by
  unfold State.succeed
  by_cases h : generation = state.generation
  · rw [if_pos h]
  · rw [if_neg h]

/-- A reply to a call is a turn, where an answer comes within the budget of the adapter. -/
theorem reply_change (hcall : w.calls[i]? = some call) {reply : Reply} {result redis_now : ℕ}
    (hanswer : reply = .answer → ∃ executed_at, call.answer = some (result, executed_at) ∧
      w.redis.clock ≤ redis_now ∧ redis_now ≤ executed_at + REDIS_OPERATION_BUDGET_MS) :
    Change config w ({ w with now := reading.second }.reply i reading reply result call.request
      call.phase) (.reply i reply reading redis_now) := by
  obtain ⟨request, phase, sent, answer⟩ := call
  dsimp only
  cases request with
  | admission identifier probe_identifier keys =>
    -- A probe that is answered may end the degraded time.
    cases phase with
    | probing generation =>
      cases reply with
      | answer =>
        unfold World.reply
        dsimp only
        split_ifs
        · exact .turn i _ _ (turn_move hcall (by simp) (by simp))
            (.kept (State.succeed_entries _ _) rfl rfl)
        · exact .turn i _ _ (turn_move hcall (by simp) (by simp)) (.kept rfl rfl rfl)
      | _ => exact .turn i _ _ (turn_move hcall (by simp) (by simp)) (.kept rfl rfl rfl)
    -- An answer of zero admits; anything else withdraws the local reservation.
    | admitting is_local =>
      cases reply with
      | answer =>
        obtain ⟨executed_at, hexecuted, hclock, hbudget⟩ := hanswer rfl
        unfold World.reply
        dsimp only
        split_ifs with hzero
        · rw [hzero] at hexecuted
          exact .turn i _ _ (turn_move hcall (by simp) (by simp))
            (.returned_redis identifier probe_identifier keys is_local executed_at rfl rfl rfl hexecuted
              hclock hbudget rfl rfl rfl)
        · exact .turn i _ _ (turn_move hcall (by simp) (by simp)) (.kept rfl rfl rfl)
      | _ => exact .turn i _ _ (turn_move hcall (by simp) (by simp)) (.kept rfl rfl rfl)
    | _ => exact idle_change hcall
  | finalize admission count discard =>
    cases phase with
    -- A finalization that has failed in Redis counts in memory, if it counts.
    | finalizing =>
      cases reply with
      | failure =>
        refine .turn i _ _ (turn_move hcall (by simp) ?_) (.kept rfl rfl rfl)
        cases count <;> simp
      | _ => exact .turn i _ _ (turn_move hcall (by simp) (by simp)) (.kept rfl rfl rfl)
    | _ => exact idle_change hcall

/-- Every step is one of the changes. What the guards of the source refuse is the change that does
nothing. -/
theorem step_change (config : Config) (w : World) (a : Act) : Change config w (w.step config a) a := by
  cases a with
  | call request =>
    unfold World.step
    dsimp only
    split_ifs with hmay
    · exact .entered request hmay rfl
    · exact .nothing rfl
  | proceed i reading =>
    unfold World.step
    dsimp only
    split
    · rename_i call hcall
      split_ifs with hreads
      · exact critical_change hcall hreads
      · exact .nothing rfl
    · exact .nothing rfl
  -- The script runs at a time that is not before those of Redis.
  | execute i now =>
    unfold World.step
    dsimp only
    split
    · rename_i request phase script answer hcall
      split_ifs with hexecutes
      · refine .executed i now _ script hcall rfl hexecutes.1 hexecutes.2 ?_
        rw [modify_eq_set hcall]
      · exact .nothing rfl
    · exact .nothing rfl
  -- Other processes act for identifiers that are not of this one.
  | other execution =>
    unfold World.step
    dsimp only
    split_ifs with hmem
    · exact .nothing rfl
    · exact .other execution hmem rfl
  -- An answer is taken only within the budget of the adapter.
  | reply i reply reading redis_now =>
    unfold World.step
    dsimp only
    split
    · rename_i call hcall
      split_ifs with hreads
      · split
        · exact .nothing rfl
        · rename_i result executed_at hanswer
          split_ifs with hbudget
          · exact reply_change hcall fun _ => ⟨executed_at, hanswer, hbudget⟩
          · exact .nothing rfl
        · rename_i hnone hsome
          refine reply_change hcall fun hreply => ?_
          cases hanswer : call.answer with
          | none => exact (hnone hreply hanswer).elim
          | some pair => exact (hsome pair.1 pair.2 hreply hanswer).elim
      · exact .nothing rfl
    · exact .nothing rfl

/-! ## Whose an identifier is -/

/-- The identifier of an admission is that of one call, which has returned it once others have it. -/
structure Identified (w : World) : Prop where
  /-- The identifiers are those that the calls draw. -/
  identifiers : w.identifiers = (w.calls.map (·.request)).flatMap World.drawn
  /-- None is drawn twice. -/
  nodup : w.identifiers.Nodup
  /-- An admission was returned by a call. -/
  returned : ∀ admission ∈ w.admissions, ∃ (i : ℕ) (call : Call) (probe_identifier : String)
    (keys : List String), w.calls[i]? = some call ∧
      call.request = .admission admission.id probe_identifier keys ∧ call.phase = .returned
  /-- What is settled was returned. -/
  settled : ∀ (i : ℕ) (call : Call) (admission : Admission) (count discard : Bool),
    w.calls[i]? = some call → call.request = .finalize admission count discard →
      admission ∈ w.admissions
  /-- A command is that of its call. -/
  sent : ∀ (i : ℕ) (call : Call) (script : Script), w.calls[i]? = some call →
    call.sent = some script → call.request.uses script.id

/-- The calls after one has moved. -/
theorem getElem?_set_of_found {calls : List Call} (hcall : calls[i]? = some call) (call' : Call)
    (j : ℕ) : (calls.set i call')[j]? = if i = j then some call' else calls[j]? := by
  obtain ⟨hlt, -⟩ := List.getElem?_eq_some_iff.mp hcall
  by_cases hij : i = j
  · rw [if_pos hij, ← hij, List.getElem?_set_self hlt]
  · rw [if_neg hij, List.getElem?_set_ne hij]

/-- The requests after a call has moved. A call never changes its request. -/
theorem map_request_set {calls : List Call} (hcall : calls[i]? = some call) {call' : Call}
    (hrequest : call'.request = call.request) :
    (calls.set i call').map (·.request) = calls.map (·.request) := by
  obtain ⟨hlt, hget⟩ := List.getElem?_eq_some_iff.mp hcall
  have hlt' : i < (calls.map (·.request)).length := by
    rw [List.length_map]
    exact hlt
  have hsame : (calls.map (·.request))[i] = call.request := by
    rw [List.getElem_map, hget]
  rw [List.map_set, hrequest, ← hsame]
  exact List.set_getElem_self hlt'

namespace Identified

/-- Nothing has been drawn at first. -/
theorem initial : Identified .initial where
  identifiers := rfl
  nodup := List.nodup_nil
  returned admission h := absurd h List.not_mem_nil
  settled i call admission count discard h := by cases h
  sent i call script h := by cases h

/-- Two calls that draw an identifier are one. Identifiers are drawn once. -/
theorem same_call (h : Identified w) {j : ℕ} {call other : Call} (id : String)
    (hcall : w.calls[i]? = some call) (hother : w.calls[j]? = some other)
    (hdrawn : id ∈ World.drawn call.request) (hdrawn' : id ∈ World.drawn other.request) : i = j := by
  have hnodup := h.nodup
  rw [h.identifiers, List.flatMap_map, List.nodup_flatMap, List.pairwise_iff_getElem] at hnodup
  obtain ⟨hi, rfl⟩ := List.getElem?_eq_some_iff.mp hcall
  obtain ⟨hj, rfl⟩ := List.getElem?_eq_some_iff.mp hother
  rcases lt_trichotomy i j with hlt | heq | hgt
  · exact absurd hdrawn' (hnodup.2 i j hi hj hlt hdrawn)
  · exact heq
  · exact absurd hdrawn (hnodup.2 j i hj hi hgt hdrawn')

/-- The identifier of a call that has not returned is that of no admission. -/
theorem not_returned (h : Identified w) {identifier probe_identifier : String} {keys : List String}
    (hcall : w.calls[i]? = some call)
    (hrequest : call.request = .admission identifier probe_identifier keys)
    (hphase : call.phase ≠ .returned) {admission : Admission} (hmem : admission ∈ w.admissions) :
    admission.id ≠ identifier := by
  intro heq
  obtain ⟨j, other, probe_identifier', keys', hother, hrequest', hphase'⟩ := h.returned admission hmem
  have hij : i = j := by
    refine h.same_call identifier hcall hother ?_ ?_
    · rw [hrequest]
      exact List.mem_cons_self
    · rw [hrequest', heq]
      exact List.mem_cons_self
  subst hij
  rw [hcall, Option.some_inj] at hother
  rw [← hother] at hphase'
  exact hphase hphase'

/-- The identifier of a call that has not returned is used by this call only. -/
theorem sole (h : Identified w) {identifier probe_identifier : String} {keys : List String}
    (hcall : w.calls[i]? = some call)
    (hrequest : call.request = .admission identifier probe_identifier keys)
    (hphase : call.phase ≠ .returned) {j : ℕ} {other : Call} (hother : w.calls[j]? = some other)
    (huses : other.request.uses identifier) : i = j := by
  cases hcase : other.request with
  | admission identifier' probe_identifier' keys' =>
    rw [hcase] at huses
    refine h.same_call identifier hcall hother ?_ ?_
    · rw [hrequest]
      exact List.mem_cons_self
    · rw [hcase]
      rcases huses with heq | heq
      · rw [heq]
        exact List.mem_cons_self
      · rw [heq]
        exact List.mem_cons_of_mem _ List.mem_cons_self
  | finalize admission count discard =>
    rw [hcase] at huses
    exact absurd huses.symm (h.not_returned hcall hrequest hphase
      (h.settled j other admission count discard hother hcase))

/-- A call that moves on keeps identifiers apart. Its request and its identifiers stay, and it does
not come back after it has returned. -/
theorem set {w' : World} (h : Identified w) {call' : Call} (hcall : w.calls[i]? = some call)
    (hcalls : w'.calls = w.calls.set i call') (hrequest : call'.request = call.request)
    (hstays : call.phase = .returned → call'.phase = .returned)
    (hsent : ∀ script, call'.sent = some script → call.sent = some script ∨
      call.request.uses script.id)
    (hidentifiers : w'.identifiers = w.identifiers)
    (hadmissions : w'.admissions = w.admissions ∨ ∃ admission probe_identifier keys,
      w'.admissions = w.admissions ++ [admission] ∧
        call.request = .admission admission.id probe_identifier keys ∧ call'.phase = .returned) :
    Identified w' := by
  have hget := fun j => getElem?_set_of_found hcall call' j
  have hsub : ∀ admission ∈ w.admissions, admission ∈ w'.admissions := by
    intro admission hmem
    rcases hadmissions with heq | ⟨new, -, -, heq, -⟩
    · rw [heq]
      exact hmem
    · rw [heq]
      exact List.mem_append_left _ hmem
  refine ⟨?_, by rw [hidentifiers]; exact h.nodup, fun admission hmem => ?_,
    fun j other admission count discard hother hcase => ?_, fun j other script hother hscript => ?_⟩
  · -- The requests of the calls are the same, so the identifiers that they have drawn are.
    rw [hidentifiers, hcalls, map_request_set hcall hrequest]
    exact h.identifiers
  · -- An admission that was returned still belongs to its call.
    have hold : admission ∈ w.admissions → ∃ (i : ℕ) (call : Call) (probe_identifier : String)
        (keys : List String), w'.calls[i]? = some call ∧
          call.request = .admission admission.id probe_identifier keys ∧ call.phase = .returned := by
      intro hmem
      obtain ⟨j, other, probe_identifier, keys, hother, hcase, hphase⟩ := h.returned admission hmem
      by_cases hij : i = j
      · subst hij
        rw [hcall, Option.some_inj] at hother
        subst hother
        exact ⟨i, call', probe_identifier, keys, by rw [hcalls, hget, if_pos rfl],
          hrequest.trans hcase, hstays hphase⟩
      · exact ⟨j, other, probe_identifier, keys, by rw [hcalls, hget, if_neg hij, hother], hcase,
          hphase⟩
    rcases hadmissions with heq | ⟨new, probe_identifier, keys, heq, hcase, hphase⟩
    · rw [heq] at hmem
      exact hold hmem
    · rw [heq] at hmem
      rcases List.mem_append.mp hmem with hmem | hmem
      · exact hold hmem
      · rw [List.mem_singleton.mp hmem]
        exact ⟨i, call', probe_identifier, keys, by rw [hcalls, hget, if_pos rfl],
          hrequest.trans hcase, hphase⟩
  · -- A finalization settles an admission that has been returned.
    rw [hcalls, hget] at hother
    split_ifs at hother with hij
    · rw [← Option.some_inj.mp hother, hrequest] at hcase
      exact hsub _ (h.settled i call admission count discard hcall hcase)
    · exact hsub _ (h.settled j other admission count discard hother hcase)
  · -- What the call has sent is for its own identifier.
    rw [hcalls, hget] at hother
    split_ifs at hother with hij
    · rw [← Option.some_inj.mp hother] at hscript ⊢
      rw [hrequest]
      rcases hsent script hscript with hold | huses
      · exact h.sent i call script hcall hold
      · exact huses
    · exact h.sent j other script hother hscript

/-- Every step keeps identifiers apart. A new call draws new identifiers, and the others keep
theirs. -/
theorem change {w' : World} {a : Act} (h : Identified w) (hchange : Change config w w' a) :
    Identified w' := by
  cases hchange with
  | nothing heq => exact heq ▸ h
  -- The identifiers of a new call are fresh, and a finalization draws none.
  | entered request hmay heq =>
    subst heq
    have hget : ∀ {j : ℕ} {other : Call},
        (w.calls ++ [(⟨request, .entered, none, none⟩ : Call)])[j]? = some other →
          w.calls[j]? = some other ∨ other = ⟨request, .entered, none, none⟩ := by
      intro j other hother
      rw [List.getElem?_append] at hother
      split_ifs at hother with hlt
      · exact Or.inl hother
      · exact Or.inr (List.mem_singleton.mp (List.mem_of_getElem? hother))
    refine ⟨?_, ?_, fun admission hmem => ?_, fun j other admission count discard hother hcase => ?_,
      fun j other script hother hscript => ?_⟩
    · dsimp only
      rw [List.map_append, List.flatMap_append, ← h.identifiers, List.map_singleton,
        List.flatMap_singleton]
    · -- The new identifiers differ from each other and from all before.
      refine List.nodup_append.mpr ⟨h.nodup, ?_, fun id hid id' hid' hsame => ?_⟩
      · cases request with
        | admission identifier probe_identifier keys =>
          exact List.nodup_cons.mpr ⟨fun hmem => hmay.1 (List.mem_singleton.mp hmem),
            List.nodup_singleton _⟩
        | finalize admission count discard => exact List.nodup_nil
      · rw [← hsame] at hid'
        cases request with
        | admission identifier probe_identifier keys =>
          rcases List.mem_cons.mp hid' with rfl | hid'
          · exact hmay.2.1 hid
          · rw [List.mem_singleton.mp hid'] at hid
            exact hmay.2.2 hid
        | finalize admission count discard => exact List.not_mem_nil hid'
    · obtain ⟨j, other, probe_identifier, keys, hother, hcase, hphase⟩ := h.returned admission hmem
      obtain ⟨hlt, -⟩ := List.getElem?_eq_some_iff.mp hother
      exact ⟨j, other, probe_identifier, keys, (List.getElem?_append_left hlt).trans hother, hcase,
        hphase⟩
    · rcases hget hother with hold | rfl
      · exact h.settled j other admission count discard hold hcase
      · subst hcase
        exact hmay
    · rcases hget hother with hold | rfl
      · exact h.sent j other script hold hscript
      · cases hscript
  -- A turn changes one call, which keeps its request.
  | turn i call call' hturn htouches =>
    refine h.set hturn.found hturn.calls hturn.request (fun hphase => hturn.stays hphase ▸ hphase)
      (fun script hscript => ?_) hturn.identifiers ?_
    · rcases hturn.sends with ⟨hkept, -, -⟩ | ⟨new, hnew, -, huses, -⟩
      · exact Or.inl (hkept ▸ hscript)
      · rw [hnew, Option.some_inj] at hscript
        exact Or.inr (hscript ▸ huses)
    · cases htouches with
      | kept hentries hcounted hadmissions => exact Or.inl hadmissions
      | returned_redis identifier probe_identifier keys is_local executed_at hrequest hphase hphase'
          hanswer hclock hbudget hentries hcounted hadmissions =>
        exact Or.inr ⟨_, probe_identifier, keys, hadmissions, hrequest, hphase'⟩
      | returned_local identifier probe_identifier keys now is_local after hrequest hphase hphase' hnow
          hadmits hentries hcounted hadmissions =>
        exact Or.inr ⟨_, probe_identifier, keys, hadmissions, hrequest, hphase'⟩
      | admitted id keys now guard outcome hacts hrecounting hadmits hentries hcounted hadmissions =>
        exact Or.inl hadmissions
      | settled id count outcome hacts hcount hsettling hentries hcounted hadmissions =>
        exact Or.inl hadmissions
  | executed i now call script hcall hsent hclock hnew heq =>
    subst heq
    exact h.set hcall rfl rfl id (fun _ hscript => by cases hscript) rfl (Or.inl rfl)
  | other execution hother heq =>
    subst heq
    exact ⟨h.identifiers, h.nodup, h.returned, h.settled, h.sent⟩

end Identified

/-! ## The bounds are kept -/

/-- The bounds of the buckets, where only admissions that were returned are counted. -/
structure Kept (config : Config) (w : World) : Prop where
  /-- Identifiers are apart. -/
  identified : Identified w
  /-- The bounds hold. -/
  bounded : Bounded config w.state.entries
  /-- A failure is that of an admission. -/
  failures : ∀ key id, (failure w.state.entries key id).isSome = true →
    ∃ admission ∈ w.admissions, admission.id = id
  /-- What was counted was an admission. -/
  counted : ∀ pair ∈ w.counted, ∃ admission ∈ w.admissions, admission.id = pair.2

namespace Kept

/-- There is nothing at first. -/
theorem initial (config : Config) : Kept config .initial :=
  ⟨.initial, .empty config, fun _ _ h => (by cases h), fun _ h => absurd h List.not_mem_nil⟩

/-- The admission of a call that has not returned is not counted. -/
theorem uncounted (h : Kept config w) {identifier probe_identifier : String} {keys : List String}
    (hcall : w.calls[i]? = some call)
    (hrequest : call.request = .admission identifier probe_identifier keys)
    (hphase : call.phase ≠ .returned) (key : String) :
    failure w.state.entries key identifier = none ∧ (key, identifier) ∉ w.counted := by
  constructor
  · refine Option.not_isSome_iff_eq_none.mp fun hsome => ?_
    obtain ⟨admission, hmem, heq⟩ := h.failures key identifier hsome
    exact h.identified.not_returned hcall hrequest hphase hmem heq
  · intro hmem
    obtain ⟨admission, hadmission, heq⟩ := h.counted _ hmem
    exact h.identified.not_returned hcall hrequest hphase hadmission heq

/-- The bounds hold with more admissions, where the buckets have no new failures. -/
theorem later {w' : World} (h : Kept config w) (hidentified : Identified w')
    (hbounded : Bounded config w'.state.entries)
    (hfailures : ∀ key id, (failure w'.state.entries key id).isSome = true →
      (failure w.state.entries key id).isSome = true)
    (hcounted : w'.counted = w.counted)
    (hadmissions : ∀ admission ∈ w.admissions, admission ∈ w'.admissions) : Kept config w' := by
  refine ⟨hidentified, hbounded, fun key id hsome => ?_, fun pair hmem => ?_⟩
  · obtain ⟨admission, hadmission, heq⟩ := h.failures key id (hfailures key id hsome)
    exact ⟨admission, hadmissions admission hadmission, heq⟩
  · rw [hcounted] at hmem
    obtain ⟨admission, hadmission, heq⟩ := h.counted pair hmem
    exact ⟨admission, hadmissions admission hadmission, heq⟩

/-- A turn keeps the bounds. Failures and counts are only of admissions that have been returned. -/
theorem turn {w' : World} {a : Act} {call' : Call} (h : Kept config w) (hidentified : Identified w')
    (hturn : Turn w w' i call call') (htouches : Touches config w w' a call call') :
    Kept config w' := by
  -- An admission writes no failure.
  have hcleaned : ∀ {now : ℚ} {keys : List String} {id : String} {guard : Bool}
      {outcome : Except ℕ Bool × Entries},
      Admits config now w.state.entries keys id guard outcome → ∀ key other,
        (failure outcome.2 key other).isSome = true →
          (failure w.state.entries key other).isSome = true := by
    intro now keys id guard outcome hadmits key other hsome
    rw [hadmits.failure_eq, failure_clean] at hsome
    exact Option.isSome_of_isSome_filter _ _ hsome
  cases htouches with
  | kept hentries hcounted hadmissions =>
    exact h.later hidentified (hentries ▸ h.bounded) (fun key id hsome => hentries ▸ hsome) hcounted
      fun admission hmem => hadmissions ▸ hmem
  | returned_redis identifier probe_identifier keys is_local executed_at hrequest hphase hphase' hanswer
      hclock hbudget hentries hcounted hadmissions =>
    exact h.later hidentified (hentries ▸ h.bounded) (fun key id hsome => hentries ▸ hsome) hcounted
      fun admission hmem => hadmissions ▸ List.mem_append_left _ hmem
  | returned_local identifier probe_identifier keys now is_local after hrequest hphase hphase' hnow
      hadmits hentries hcounted hadmissions =>
    exact h.later hidentified (hentries ▸ hadmits.bounded h.bounded)
      (fun key id hsome => hcleaned hadmits key id (hentries ▸ hsome)) hcounted
      fun admission hmem => hadmissions ▸ List.mem_append_left _ hmem
  | admitted id keys now guard outcome hacts hrecounting hadmits hentries hcounted hadmissions =>
    exact h.later hidentified (hentries ▸ hadmits.bounded h.bounded)
      (fun key id hsome => hcleaned hadmits key id (hentries ▸ hsome)) hcounted
      fun admission hmem => hadmissions ▸ hmem
  | settled id count outcome hacts hcount hsettling hentries hcounted hadmissions =>
    have hsettled := hsettling h.bounded
    -- A failure is counted for the admission that the call settles.
    have hreturned : ∀ pair ∈ outcome.2, ∃ admission ∈ w.admissions, admission.id = pair.2 := by
      intro pair hpair
      obtain ⟨hid, hcounts, -, -⟩ := hsettled.counts pair hpair
      obtain ⟨admission, counts, discard, hrequest⟩ := hcount hcounts
      unfold Call.acts_for at hacts
      rw [hrequest] at hacts
      exact ⟨admission, h.identified.settled i call admission counts discard hturn.found hrequest,
        hacts.trans hid.symm⟩
    -- A failure is an old one, or one that this call counts.
    refine ⟨hidentified, hentries ▸ hsettled.bounded, fun key other hsome => ?_, fun pair hpair => ?_⟩
    · rw [hentries] at hsome
      rw [hadmissions]
      rcases hsettled.failure_le key other hsome with hbefore | hnew
      · exact h.failures key other hbefore
      · exact hreturned _ hnew
    · rw [hadmissions]
      rw [hcounted] at hpair
      rcases List.mem_append.mp hpair with hold | hnew
      · exact h.counted pair hold
      · exact hreturned pair hnew

/-- Every step keeps the bounds. Each critical section cleans the buckets before it adds to one. -/
theorem change {w' : World} {a : Act} (h : Kept config w) (hchange : Change config w w' a) :
    Kept config w' := by
  have hidentified := h.identified.change hchange
  cases hchange with
  | nothing heq => exact heq ▸ h
  | entered request hmay heq =>
    subst heq
    exact ⟨hidentified, h.bounded, h.failures, h.counted⟩
  | turn i call call' hturn htouches => exact h.turn hidentified hturn htouches
  | executed i now call script hcall hsent hclock hnew heq =>
    subst heq
    exact ⟨hidentified, h.bounded, h.failures, h.counted⟩
  | other execution hother heq =>
    subst heq
    exact ⟨hidentified, h.bounded, h.failures, h.counted⟩

/-- The bounds hold in every run. -/
theorem run (config : Config) (acts : List Act) : Kept config (.run config acts) :=
  Transition.run_invariant (fun w a h => h.change (step_change config w a)) (initial config) acts

end Kept

/-! ## Counting once -/

/-- Where a failed finalization reserves again, each bucket in which the admission was counted still
has its failure. -/
def Accounted (w : World) : Act → Prop
  | .proceed i reading => ∀ (call : Call) (admission : Admission) (count discard : Bool),
      w.calls[i]? = some call → call.request = .finalize admission count discard →
      call.phase = .recounting → ∀ key ∈ admission.keys, (key, admission.id) ∈ w.counted →
        (failure (clean reading.first w.state.entries) key admission.id).isSome = true
  | _ => True

/-- An admission that holds a reservation in a bucket has not been counted there. -/
structure Once (config : Config) (w : World) : Prop where
  /-- The bounds are kept. -/
  kept : Kept config w
  /-- What is reserved is not counted. -/
  held : ∀ key id, (held w.state.entries key id).isSome = true → (key, id) ∉ w.counted
  /-- Nothing is counted twice. -/
  nodup : w.counted.Nodup

namespace Once

/-- A local admission reserves where the admission is not counted. -/
theorem admission {w' : World} {keys : List String} {id : String} {guard : Bool} {now : ℚ}
    {outcome : Except ℕ Bool × Entries} (h : Once config w) (hkept : Kept config w')
    (hadmits : Admits config now w.state.entries keys id guard outcome)
    (hentries : w'.state.entries = outcome.2) (hcounted : w'.counted = w.counted)
    (hfresh : ∀ key, Tracks (clean now w.state.entries) keys id guard key → (key, id) ∉ w.counted) :
    Once config w' := by
  refine ⟨hkept, fun key other hsome => ?_, hcounted ▸ h.nodup⟩
  rw [hcounted]
  rw [hentries] at hsome
  rcases hadmits.held_cases key other with heq | ⟨rfl, htracks⟩
  · rw [heq, held_clean] at hsome
    exact h.held key other (Option.isSome_of_isSome_filter _ _ hsome)
  · exact hfresh key htracks

/-- A turn that meets the condition counts nothing twice. A bucket that counts the attempt has
released its reservation. -/
theorem turn {w' : World} {a : Act} {call' : Call} (h : Once config w) (hok : Accounted w a)
    (hkept : Kept config w') (hturn : Turn w w' i call call')
    (htouches : Touches config w w' a call call') : Once config w' := by
  cases htouches with
  | kept hentries hcounted hadmissions =>
    exact ⟨hkept, by rw [hentries, hcounted]; exact h.held, hcounted ▸ h.nodup⟩
  | returned_redis identifier probe_identifier keys is_local executed_at hrequest hphase hphase' hanswer
      hclock hbudget hentries hcounted hadmissions =>
    exact ⟨hkept, by rw [hentries, hcounted]; exact h.held, hcounted ▸ h.nodup⟩
  -- The call has not returned so far, so nothing has been counted for its identifier.
  | returned_local identifier probe_identifier keys now is_local after hrequest hphase hphase' hnow
      hadmits hentries hcounted hadmissions =>
    exact h.admission hkept hadmits hentries hcounted fun key _ =>
      (h.kept.uncounted hturn.found hrequest hphase key).2
  -- Reserving is safe where nothing has been counted yet.
  | admitted id keys now guard outcome hacts hrecounting hadmits hentries hcounted hadmissions =>
    refine h.admission hkept hadmits hentries hcounted fun key htracks => ?_
    unfold Call.acts_for at hacts
    cases hrequest : call.request with
    -- The admission has not returned, so nothing has been counted for it.
    | admission identifier probe_identifier keys' =>
      rw [hrequest] at hacts
      obtain ⟨rfl, hphase⟩ := hacts
      exact (h.kept.uncounted hturn.found hrequest hphase key).2
    -- A finalization reserves again only where the failure is accounted, which is the condition.
    | finalize admission count discard =>
      rw [hrequest] at hacts
      obtain ⟨rfl, hphase, j, reading, rfl, rfl, hcall⟩ := hrecounting admission count discard hrequest
      intro hmem
      obtain ⟨hkey, -, hnone⟩ := htracks
      have hsome := hok call admission count discard hcall hrequest hphase key hkey (hacts ▸ hmem)
      rw [show admission.id = id from hacts, hnone] at hsome
      cases hsome
  -- What is counted now had its reservation, and had therefore not been counted before.
  | settled id count outcome hacts hcount hsettling hentries hcounted hadmissions =>
    have hsettled := hsettling h.kept.bounded
    refine ⟨hkept, fun key other hsome => ?_, ?_⟩
    · rw [hcounted]
      rw [hentries] at hsome
      intro hmem
      rcases List.mem_append.mp hmem with hold | hnew
      · exact h.held key other (hsettled.held_le key other hsome) hold
      · obtain ⟨hid, -, -, hnone⟩ := hsettled.counts _ hnew
        dsimp only at hid hnone
        rw [hid, hnone] at hsome
        cases hsome
    · rw [hcounted]
      refine List.nodup_append.mpr ⟨h.nodup, hsettled.nodup, fun pair hold pair' hnew heq => ?_⟩
      subst heq
      obtain ⟨hid, -, hheld, -⟩ := hsettled.counts _ hnew
      rw [← hid] at hheld
      exact h.held _ _ hheld hold

/-- Every step that meets the condition counts nothing twice. Only the turn of a finalization
counts, and it does so where a reservation is. -/
theorem change {w' : World} {a : Act} (h : Once config w) (hok : Accounted w a)
    (hchange : Change config w w' a) : Once config w' := by
  have hkept := h.kept.change hchange
  cases hchange with
  | nothing heq => exact heq ▸ h
  | entered request hmay heq =>
    subst heq
    exact ⟨hkept, h.held, h.nodup⟩
  | turn i call call' hturn htouches => exact h.turn hok hkept hturn htouches
  | executed i now call script hcall hsent hclock hnew heq =>
    subst heq
    exact ⟨hkept, h.held, h.nodup⟩
  | other execution hother heq =>
    subst heq
    exact ⟨hkept, h.held, h.nodup⟩

/-- Nothing is counted twice in a run whose steps meet the condition. -/
theorem run (config : Config) (acts : List Act)
    (hok : ∀ pre a, pre ++ [a] <+: acts → Accounted (.run config pre) a) :
    Once config (.run config acts) :=
  Transition.run_invariant_of (fun w a hok h => h.change hok (step_change config w a))
    ⟨.initial config, fun _ _ h => (by cases h), List.nodup_nil⟩ acts hok

end Once

/-! ## Reservations in Redis -/

/-- The reservations of the calls that wait for Redis. -/
structure InRedis (config : Config) (w : World) : Prop where
  /-- The scripts are sound. -/
  sound : w.redis.Sound config.limits
  /-- A call that waits for its admission has sent it, or it was executed. -/
  sent : ∀ (i : ℕ) (call : Call) (identifier probe_identifier : String) (keys : List String)
    (is_local : Bool), w.calls[i]? = some call →
      call.request = .admission identifier probe_identifier keys → call.phase = .admitting is_local →
      (∃ script, call.sent = some script) →
        call.sent = some (.admission identifier keys false) ∧ call.answer = none
  /-- An admission that was answered with zero is reserved for the lease. -/
  answered : ∀ (i : ℕ) (call : Call) (identifier probe_identifier : String) (keys : List String)
    (is_local : Bool) (executed_at : ℕ), w.calls[i]? = some call →
      call.request = .admission identifier probe_identifier keys → call.phase = .admitting is_local →
      call.answer = some (0, executed_at) → RateLimit.Reserved w.redis keys identifier
        (executed_at + 10000)

namespace InRedis

/-- Nothing is reserved at first. -/
theorem initial (config : Config) : InRedis config .initial where
  sound := RateLimit.World.initial_sound
  sent i call identifier probe_identifier keys is_local hcall := by cases hcall
  answered i call identifier probe_identifier keys is_local executed_at hcall := by cases hcall

/-- A turn keeps the reservations. It may settle reservations of its own admission only. -/
theorem turn {w' : World} {call' : Call} (h : InRedis config w) (hturn : Turn w w' i call call') :
    InRedis config w' := by
  have hget := fun j => getElem?_set_of_found hturn.found call' j
  refine ⟨hturn.redis ▸ h.sound, fun j other identifier probe_identifier keys is_local hother hrequest
    hphase hsent => ?_, fun j other identifier probe_identifier keys is_local executed_at hother hrequest
    hphase hanswer => ?_⟩
  · rw [hturn.calls, hget] at hother
    split_ifs at hother with hij
    · rw [Option.some_inj] at hother
      subst hother
      -- The call has sent nothing in this turn, or it has just sent its admission.
      rcases hturn.sends with ⟨-, -, hsame⟩ | ⟨script, hscript, hnone, -, hadmission⟩
      · have hkept := hsame ⟨is_local, hphase⟩
        rw [hkept] at hrequest hphase hsent ⊢
        exact h.sent i call identifier probe_identifier keys is_local hturn.found hrequest hphase hsent
      · obtain ⟨identifier', probe_identifier', keys', hcase, hadmission⟩ := hadmission ⟨is_local, hphase⟩
        rw [hturn.request, hcase] at hrequest
        obtain ⟨rfl, -, rfl⟩ := Request.admission.inj hrequest
        exact ⟨hscript.trans (congrArg some hadmission), hnone⟩
    · exact h.sent j other identifier probe_identifier keys is_local hother hrequest hphase hsent
  · rw [hturn.redis]
    rw [hturn.calls, hget] at hother
    split_ifs at hother with hij
    · rw [Option.some_inj] at hother
      subst hother
      -- A call that has just sent something has no answer.
      rcases hturn.sends with ⟨-, -, hsame⟩ | ⟨script, -, hnone, -⟩
      · have hkept := hsame ⟨is_local, hphase⟩
        rw [hkept] at hrequest hphase hanswer
        exact h.answered i call identifier probe_identifier keys is_local executed_at hturn.found
          hrequest hphase hanswer
      · rw [hnone] at hanswer
        cases hanswer
    · exact h.answered j other identifier probe_identifier keys is_local executed_at hother hrequest
        hphase hanswer

/-- Every step keeps the reservations. Commands of other processes concern other identifiers. -/
theorem change {w' : World} {a : Act} (h : InRedis config w) (hidentified : Identified w)
    (hchange : Change config w w' a) : InRedis config w' := by
  cases hchange with
  | nothing heq => exact heq ▸ h
  -- A new call has sent nothing.
  | entered request hmay heq =>
    subst heq
    have hget : ∀ {j : ℕ} {other : Call} {is_local : Bool},
        (w.calls ++ [(⟨request, .entered, none, none⟩ : Call)])[j]? = some other →
          other.phase = .admitting is_local → w.calls[j]? = some other := by
      intro j other is_local hother hphase
      rw [List.getElem?_append] at hother
      split_ifs at hother with hlt
      · exact hother
      · rw [List.mem_singleton.mp (List.mem_of_getElem? hother)] at hphase
        cases hphase
    refine ⟨h.sound, fun j other identifier probe_identifier keys is_local hother hrequest hphase =>
      h.sent j other identifier probe_identifier keys is_local (hget hother hphase) hrequest hphase,
      fun j other identifier probe_identifier keys is_local executed_at hother hrequest hphase =>
      h.answered j other identifier probe_identifier keys is_local executed_at (hget hother hphase)
        hrequest hphase⟩
  | turn i call call' hturn htouches => exact h.turn hturn
  | executed i now call script hcall hsent hclock hnew heq =>
    subst heq
    have hget := fun j => getElem?_set_of_found hcall
      { call with
        sent := none
        answer := some (World.result config w.redis now script, now) } j
    refine ⟨h.sound.step _, fun j other identifier probe_identifier keys is_local hother hrequest hphase
      hscript => ?_, fun j other identifier probe_identifier keys is_local executed_at hother hrequest
      hphase hanswer => ?_⟩
    · -- The call whose script runs waits for its answer and no longer for Redis.
      rw [hget] at hother
      split_ifs at hother with hij
      · rw [← Option.some_inj.mp hother] at hscript
        obtain ⟨script', hscript⟩ := hscript
        cases hscript
      · exact h.sent j other identifier probe_identifier keys is_local hother hrequest hphase hscript
    · rw [hget] at hother
      split_ifs at hother with hij
      · -- The command is the admission of the call.
        rw [← Option.some_inj.mp hother] at hrequest hphase hanswer
        have hadmission := (h.sent i call identifier probe_identifier keys is_local hcall hrequest hphase
          ⟨script, hsent⟩).1
        rw [hsent, Option.some_inj] at hadmission
        subst hadmission
        obtain ⟨hzero, rfl⟩ := Prod.mk.inj (Option.some_inj.mp hanswer)
        exact h.sound.admission_reserved hclock (of_decide_eq_true hnew) hzero
      · -- The script is of another admission, so it takes no reservation of this one.
        refine h.sound.step_reserved (h.answered j other identifier probe_identifier keys is_local
          executed_at hother hrequest hphase hanswer) fun heq => hij ?_
        refine (hidentified.sole hother hrequest (by rw [hphase]; simp) hcall ?_).symm
        exact heq ▸ hidentified.sent i call script hcall hsent
  -- What other processes execute is for identifiers that are not of this one.
  | other execution hother heq =>
    subst heq
    refine ⟨h.sound.step _, h.sent, fun j call identifier probe_identifier keys is_local executed_at
      hcall hrequest hphase hanswer => ?_⟩
    refine h.sound.step_reserved (h.answered j call identifier probe_identifier keys is_local executed_at
      hcall hrequest hphase hanswer) fun heq => hother ?_
    rw [← heq, hidentified.identifiers]
    refine List.mem_flatMap.mpr ⟨call.request, List.mem_map_of_mem (List.mem_of_getElem? hcall), ?_⟩
    rw [hrequest]
    exact List.mem_cons_self

/-- The reservations are kept in every run. -/
theorem run (config : Config) (acts : List Act) : InRedis config (.run config acts) := by
  have hstep : ∀ w a, Identified w ∧ InRedis config w →
      Identified (w.step config a) ∧ InRedis config (w.step config a) := fun w a h =>
    ⟨h.1.change (step_change config w a), h.2.change h.1 (step_change config w a)⟩
  exact (Transition.run_invariant hstep ⟨.initial, initial config⟩ acts).2

end InRedis

/-! ## The bounds of the limiter -/

/-- What an admission holds when a step returns it: its reservation in every bucket in Redis, beyond
the time of the Redis clock, or in every bucket in memory, for the lease. -/
def HoldsOnReturn (w w' : World) (a : Act) (admission : Admission) : Prop :=
  if admission.redis then
    ∀ key ∈ admission.keys, ∃ expires, a.redis_now < expires ∧
      (w'.redis.limiter.redis key).zscore (RateLimit.reservation admission.id) = some expires
  else
    ∀ key ∈ admission.keys, ∃ expires, w.now + LEASE_SECONDS ≤ expires ∧
      held w'.state.entries key admission.id = some expires

/-- The admissions that a step returns hold their reservations. The reservation is in memory or in
Redis, as the admission says. -/
theorem holds_on_return {w' : World} {a : Act} (hkept : Kept config w) (hredis : InRedis config w)
    (hchange : Change config w w' a) : ∃ returned, w'.admissions = w.admissions ++ returned ∧
      ∀ admission ∈ returned, HoldsOnReturn w w' a admission := by
  -- A step that returns no admission.
  have hnone : w'.admissions = w.admissions → ∃ returned, w'.admissions = w.admissions ++ returned ∧
      ∀ admission ∈ returned, HoldsOnReturn w w' a admission := fun heq =>
    ⟨[], heq.trans (List.append_nil _).symm, fun _ hmem => absurd hmem List.not_mem_nil⟩
  cases hchange with
  | nothing heq => exact hnone (heq ▸ rfl)
  | entered request hmay heq => exact hnone (heq ▸ rfl)
  | turn i call call' hturn htouches =>
    cases htouches with
    | kept hentries hcounted hadmissions => exact hnone hadmissions
    -- The answer came within the budget, so the lease in Redis has not run out.
    | returned_redis identifier probe_identifier keys is_local executed_at hrequest hphase hphase'
        hanswer hclock hbudget hentries hcounted hadmissions =>
      refine ⟨_, hadmissions, fun admission hmem => ?_⟩
      rw [List.mem_singleton.mp hmem]
      unfold HoldsOnReturn
      rw [if_pos rfl, hturn.redis]
      intro key hkey
      unfold REDIS_OPERATION_BUDGET_MS at hbudget
      exact ⟨executed_at + 10000, by omega, hredis.answered i call identifier probe_identifier keys
        is_local executed_at hturn.found hrequest hphase hanswer key hkey (by omega)⟩
    -- The reservation in memory was made in the section that returns, for the lease.
    | returned_local identifier probe_identifier keys now is_local after hrequest hphase hphase' hnow
        hadmits hentries hcounted hadmissions =>
      refine ⟨_, hadmissions, fun admission hmem => ?_⟩
      rw [List.mem_singleton.mp hmem]
      unfold HoldsOnReturn
      rw [if_neg Bool.false_ne_true]
      intro key hkey
      have hfresh := (hkept.uncounted hturn.found hrequest hphase key).1
      rw [hentries]
      refine ⟨now + LEASE_SECONDS, by linarith, hadmits.held_tracked ⟨hkey, nofun, ?_⟩⟩
      rw [failure_clean, hfresh, Option.filter_none]
    | admitted id keys now guard outcome hacts hrecounting hadmits hentries hcounted hadmissions =>
      exact hnone hadmissions
    | settled id count outcome hacts hcount hsettling hentries hcounted hadmissions =>
      exact hnone hadmissions
  | executed i now call script hcall hsent hclock hnew heq => exact hnone (heq ▸ rfl)
  | other execution hother heq => exact hnone (heq ▸ rfl)

/-- In every run: no bucket in memory is fuller than its local maximum, and no admission stands in one
twice; there are not too many buckets; a rejected local admission only drops what has expired; an
admission that is returned holds its reservation in all of its buckets; and an admission is counted
as a failure of a bucket at most once, if every failed finalization that reserves again finds the
failure that was counted before. -/
theorem local_limiter_bounds (config : Config) (acts : List Act) :
    let w := World.run config acts
    (∀ key entry, w.state.entries.get key = some entry →
      entry.size ≤ (config.policy key).local_maximum ∧
        ∀ id, (entry.failures.get id).isSome = true → entry.reservations.get id = none) ∧
    w.state.entries.size ≤ config.auth_local_max_entries ∧
    (∀ now keys id guard retry after, local_admit config.auth_local_max_entries now
        (config.buckets keys) id guard w.state.entries = (.error retry, after) →
      ∀ key other,
        failure after key other = (failure w.state.entries key other).filter (now < ·) ∧
        held after key other = (held w.state.entries key other).filter (now < ·)) ∧
    (∀ a, ∃ returned, (w.step config a).admissions = w.admissions ++ returned ∧
      ∀ admission ∈ returned, HoldsOnReturn w (w.step config a) a admission) ∧
    ((∀ pre a, pre ++ [a] <+: acts → Accounted (.run config pre) a) → w.counted.Nodup) := by
  intro w
  have hkept : Kept config w := .run config acts
  refine ⟨fun key entry hentry => ⟨hkept.bounded.size key entry hentry, fun id hsome => ?_⟩,
    hkept.bounded.total, fun now keys id guard retry after heq key other => ?_,
    fun a => holds_on_return hkept (.run config acts) (step_change config w a),
    fun hok => (Once.run config acts hok).nodup⟩
  · have hheld := hkept.bounded.disjoint key id
    unfold failure held at hheld
    rw [hentry] at hheld
    exact hheld hsome
  · have hadmits := local_admit_admits config now keys id guard w.state.entries
    rw [heq] at hadmits
    cases hadmits
    exact ⟨failure_clean now _ key other, held_clean now _ key other⟩

/-! ## Where an admission is counted twice -/

/-- A bucket for five failures admits something. -/
theorem minute_maximum_pos : 0 < 5 := by decide

/-- A minute lasts. -/
theorem minute_window_pos : 0 < 60 := by decide

/-- Buckets for five failures a minute. A configuration for the examples of this module. -/
def minute_limits : Config where
  policy _ := ⟨⟨5, 60, minute_maximum_pos, minute_window_pos⟩, 5, minute_maximum_pos⟩
  auth_local_max_entries := 100
  probe_key := "probe:1"

/-- The clocks at a time, where the wall clock is 39.95 seconds ahead. -/
def clocks (now : ℚ) : Reading := ⟨now, now, fun _ => now + 799 / 20⟩

/-- A failed call and its failure in memory, three probes, a call admitted by Redis and in memory, and
its failure, which is counted at 59.95 seconds past the minute and again at 0.01 past the next one,
since Redis has failed in the meantime. -/
def late_failure : List Act :=
  [.call (.admission "a" "pa" ["k"]), .proceed 0 (clocks 0), .proceed 0 (clocks 0),
    .reply 0 .failure (clocks 1) 1000, .proceed 0 (clocks 1), .proceed 0 (clocks 1),
    .call (.finalize ⟨"a", ["k"], false, true⟩ true false), .proceed 1 (clocks 1),
    .call (.admission "b" "pb" ["k"]), .proceed 2 (clocks 6), .execute 2 6000,
    .reply 2 .answer (clocks 6) 6000, .proceed 2 (clocks 6),
    .call (.admission "c" "pc" ["k"]), .proceed 3 (clocks 11), .execute 3 11000,
    .reply 3 .answer (clocks 11) 11000, .proceed 3 (clocks 11),
    .call (.admission "d" "pd" ["k"]), .proceed 4 (clocks 16), .execute 4 16000,
    .reply 4 .answer (clocks 16) 16000, .proceed 4 (clocks 16),
    .call (.admission "e" "pe" ["k"]), .proceed 5 (clocks 17), .proceed 5 (clocks 17),
    .execute 5 17000, .reply 5 .answer (clocks 17) 17000,
    .call (.finalize ⟨"e", ["k"], true, true⟩ true false), .proceed 6 (clocks 20),
    .reply 6 .failure (clocks (1003 / 50)) 20060, .proceed 6 (clocks (1003 / 50)),
    .proceed 6 (clocks (1003 / 50))]

/-- The failure of one admission is counted twice in a bucket. -/
theorem late_failure_counted_twice :
    (World.run minute_limits late_failure).counted = [("k", "a"), ("k", "e"), ("k", "e")] ∧
      ¬(World.run minute_limits late_failure).counted.Nodup := by
  decide +kernel

end RestaurantOS.Auth.LocalLimiter
