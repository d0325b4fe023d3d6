import RestaurantOS.Lib.Locks
import RestaurantOS.Lib.Run

/-!
# Transactions under one exclusive lock

A store keeps a value of `σ` for each key of `κ`, and requests of `α` run as concurrent transactions
over it. The first thing a transaction does is to lock the key it is about; between the lock and the
commit it reads the value under the key and computes a new one, with a draw of `δ` for what it takes
from its environment; the commit replaces the value, and a failure discards it. The steps of
different transactions interleave in any order, and a transaction may be ended at any point.

Because the lock is exclusive, what a transaction has read is still the committed value when it
commits (`Inv.fresh`). A step of the concurrent system therefore leaves the value under a key as it
is, or is one whole request executed on it (`step_rows`): each key sees a serial run of the requests
that are committed. -/

namespace Serial

/-- What a transaction does: the key it locks, and the new value and the response it computes from
the value under the key. -/
structure System (κ σ α δ ε ω : Type) where
  /-- The key that a request locks. -/
  key : α → κ
  /-- The body of the transaction. -/
  exec : α → δ → σ → Except ε (σ × ω)

/-- Where a transaction is. The lock is held from `locked` to the end. -/
inductive Phase (σ ε ω : Type)
  /-- It waits for its lock. -/
  | waiting
  /-- It holds its lock. -/
  | locked
  /-- Its body has run. -/
  | executed (outcome : Except ε (σ × ω))
  /-- It is committed. -/
  | committed (response : ω)
  /-- It has failed, with the failure of its body, if that has failed. -/
  | failed (failure : Option ε)

/-- A transaction. It runs one request under the lock of its key. -/
structure Process (σ α ε ω : Type) where
  /-- The request. -/
  request : α
  /-- Where it is. -/
  phase : Phase σ ε ω

/-- The store and the transactions so far. What is not committed is in the processes only. -/
structure World (κ σ α ε ω : Type) where
  /-- The committed value under each key. -/
  rows : κ → σ
  /-- The transactions. -/
  processes : List (Process σ α ε ω)

/-- The actions. They interleave the transactions of all keys. -/
inductive Act (α δ : Type)
  /-- A request arrives. -/
  | request (request : α)
  /-- A transaction takes its lock, if it is free. -/
  | lock (process : ℕ)
  /-- The body of a transaction runs. -/
  | execute (process : ℕ) (draw : δ)
  /-- A transaction whose body has run is committed, or rolled back if the body has failed. -/
  | finish (process : ℕ)
  /-- A transaction is ended by an error of its environment. -/
  | abort (process : ℕ)

variable {κ σ α δ ε ω : Type}

/-- The transaction that an action is about; a request only starts one. -/
def Act.process : Act α δ → Option ℕ
  | .request _ => none
  | .lock i | .execute i _ | .finish i | .abort i => some i

/-- The locks that a transaction holds. There is one at most. -/
def Process.locks (system : System κ σ α δ ε ω) (p : Process σ α ε ω) : List κ :=
  match p.phase with
  | .locked | .executed _ => [system.key p.request]
  | _ => []

namespace World

variable [DecidableEq κ] (system : System κ σ α δ ε ω)

/-- The locks of the transaction with a given number. -/
def held (w : World κ σ α ε ω) (process : ℕ) : List κ :=
  ((w.processes[process]?).map (Process.locks system)).getD []

/-- No transaction holds a lock. A key that is not free makes the next transaction wait. -/
def free (w : World κ σ α ε ω) (key : κ) : Bool :=
  w.processes.all fun p => key ∉ p.locks system

/-- The phase of a transaction is set. The other transactions and the store stay. -/
def set_phase (w : World κ σ α ε ω) (process : ℕ) (phase : Phase σ ε ω) : World κ σ α ε ω :=
  { w with processes := w.processes.modify process fun p => { p with phase := phase } }

/-- One action. An action that cannot be taken changes nothing. -/
def step (w : World κ σ α ε ω) : Act α δ → World κ σ α ε ω
  | .request request => { w with processes := w.processes ++ [⟨request, .waiting⟩] }
  | .lock i =>
    match w.processes[i]? with
    | some ⟨request, .waiting⟩ =>
      if w.free system (system.key request) then w.set_phase i .locked else w
    | _ => w
  | .execute i draw =>
    match w.processes[i]? with
    | some ⟨request, .locked⟩ =>
      w.set_phase i (.executed (system.exec request draw (w.rows (system.key request))))
    | _ => w
  | .finish i =>
    match w.processes[i]? with
    | some ⟨request, .executed (.ok (value, response))⟩ =>
      { w with rows := Function.update w.rows (system.key request) value }.set_phase i
        (.committed response)
    | some ⟨_, .executed (.error failure)⟩ => w.set_phase i (.failed (some failure))
    | _ => w
  | .abort i =>
    match w.processes[i]? with
    | some ⟨_, .waiting⟩ | some ⟨_, .locked⟩ | some ⟨_, .executed _⟩ => w.set_phase i (.failed none)
    | _ => w

/-- The store before any request. Nobody has requested anything. -/
def initial (rows : κ → σ) : World κ σ α ε ω := ⟨rows, []⟩

/-- The state after a run from a store. -/
def run (rows : κ → σ) (acts : List (Act α δ)) : World κ σ α ε ω :=
  Transition.run (step system) (initial rows) acts

end World

/-- The invariant of the concurrent system. Together they make every commit the run of a body on the
committed value. -/
structure Inv [DecidableEq κ] (system : System κ σ α δ ε ω) (w : World κ σ α ε ω) : Prop where
  /-- No key is locked twice. -/
  exclusive : Locks.Exclusive (w.held system)
  /-- What a body has computed, it would compute from the committed value. -/
  fresh : ∀ p ∈ w.processes, ∀ outcome, p.phase = .executed outcome →
    ∃ draw, outcome = system.exec p.request draw (w.rows (system.key p.request))

variable [DecidableEq κ] {system : System κ σ α δ ε ω} {w : World κ σ α ε ω}

/-! ## Locks -/

omit [DecidableEq κ] in
/-- The locks after the phase of a transaction is set. -/
theorem held_set_phase {i : ℕ} {p : Process σ α ε ω} (hp : w.processes[i]? = some p)
    (phase : Phase σ ε ω) : (w.set_phase i phase).held system =
      Function.update (w.held system) i (Process.locks system ⟨p.request, phase⟩) := by
  funext j
  unfold World.held World.set_phase
  rw [List.getElem?_modify]
  by_cases hij : i = j
  · subst hij
    simp [hp]
  · rw [Function.update_of_ne (Ne.symm hij)]
    simp [hij]

/-- No transaction holds a free lock. -/
theorem free_spec {key : κ} (h : w.free system key = true) (j : ℕ) : key ∉ w.held system j := by
  unfold World.held
  cases hj : w.processes[j]? with
  | none => exact List.not_mem_nil
  | some p => simpa using List.all_eq_true.mp h p (List.mem_of_getElem? hj)

omit [DecidableEq κ] in
/-- A transaction after the phase of one is set. It is the one that was set, or one that was there.
-/
theorem mem_set_phase {i : ℕ} {phase : Phase σ ε ω} {q : Process σ α ε ω}
    (h : q ∈ (w.set_phase i phase).processes) :
    ∃ j p, w.processes[j]? = some p ∧
      ((i = j ∧ q = { p with phase := phase }) ∨ (i ≠ j ∧ q = p)) := by
  obtain ⟨j, hj⟩ := List.mem_iff_getElem?.mp h
  rw [World.set_phase, List.getElem?_modify] at hj
  obtain ⟨p, hp, rfl⟩ := Option.map_eq_some_iff.mp hj
  refine ⟨j, p, hp, ?_⟩
  by_cases hij : i = j
  · exact Or.inl ⟨hij, if_pos hij⟩
  · exact Or.inr ⟨hij, if_neg hij⟩

/-! ## Steps -/

/-- A transaction that moves on without a commit keeps the invariant, where it holds no lock but the
one it held or a free one. -/
theorem Inv.move (h : Inv system w) {i : ℕ} {p : Process σ α ε ω} (hp : w.processes[i]? = some p)
    {phase : Phase σ ε ω}
    (hlocks : ∀ k ∈ Process.locks system ⟨p.request, phase⟩,
      k ∈ w.held system i ∨ ∀ j, k ∉ w.held system j)
    (hfresh : ∀ outcome, phase = .executed outcome →
      ∃ draw, outcome = system.exec p.request draw (w.rows (system.key p.request))) :
    Inv system (w.set_phase i phase) := by
  constructor
  · rw [held_set_phase hp]
    exact h.exclusive.update hlocks
  · intro q hq outcome houtcome
    obtain ⟨j, r, hr, ⟨hij, rfl⟩ | ⟨hij, rfl⟩⟩ := mem_set_phase hq
    · subst hij
      rw [hp] at hr
      cases hr
      exact hfresh outcome houtcome
    · exact h.fresh q (List.mem_of_getElem? hr) outcome houtcome

/-- A transaction that commits keeps the invariant: the other transactions that have run their body
hold other locks. So what they have computed from their own rows is still what they would compute
now. -/
theorem Inv.commit (h : Inv system w) {i : ℕ} {p : Process σ α ε ω}
    (hp : w.processes[i]? = some p) {value : σ} {response : ω}
    (hphase : p.phase = .executed (.ok (value, response))) :
    Inv system ({ w with rows := Function.update w.rows (system.key p.request) value }.set_phase i
      (.committed response)) := by
  have hheld : system.key p.request ∈ w.held system i := by
    simp [World.held, hp, Process.locks, hphase]
  set w₁ : World κ σ α ε ω :=
    { w with rows := Function.update w.rows (system.key p.request) value }
  have hp₁ : w₁.processes[i]? = some p := hp
  constructor
  · -- The process holds nothing any more.
    rw [held_set_phase hp₁]
    exact h.exclusive.update fun k hk => absurd hk List.not_mem_nil
  · -- Another process that has run its body did so on rows that this commit does not touch.
    intro q hq outcome houtcome
    obtain ⟨j, r, hr, ⟨hij, rfl⟩ | ⟨hij, rfl⟩⟩ := mem_set_phase hq
    · cases houtcome
    · obtain ⟨draw, hdraw⟩ := h.fresh q (List.mem_of_getElem? hr) outcome houtcome
      have hheld' : system.key q.request ∈ w.held system j := by
        have hq' : w.processes[j]? = some q := hr
        simp [World.held, hq', Process.locks, houtcome]
      have hne : system.key q.request ≠ system.key p.request := by
        intro heq
        exact hij (h.exclusive i j _ hheld (heq ▸ hheld'))
      have hrows : w₁.rows (system.key q.request) = w.rows (system.key q.request) :=
        Function.update_of_ne hne _ _
      refine ⟨draw, ?_⟩
      rw [hdraw, ← hrows]
      rfl

/-- Every action keeps the invariant. A request, a wait, an execution and an abort change no rows; a
commit does, under its own lock. -/
theorem step_inv (h : Inv system w) (a : Act α δ) : Inv system (w.step system a) := by
  have hnone : ∀ {i : ℕ} {request : α} {phase : Phase σ ε ω},
      Process.locks system ⟨request, phase⟩ = [] →
        ∀ k ∈ Process.locks system ⟨request, phase⟩,
          k ∈ w.held system i ∨ ∀ j, k ∉ w.held system j := by
    intro i request phase hlocks k hk
    rw [hlocks] at hk
    exact absurd hk List.not_mem_nil
  cases a with
  | request request =>
    constructor
    · -- The new transaction holds no lock.
      have hheld : World.held system { w with processes := w.processes ++ [⟨request, .waiting⟩] } =
          w.held system := by
        funext j
        unfold World.held
        rw [List.getElem?_append]
        split_ifs with hj
        · rfl
        · rw [List.getElem?_eq_none (Nat.le_of_not_lt hj), List.getElem?_singleton]
          split_ifs <;> rfl
      exact hheld ▸ h.exclusive
    · -- A new transaction has computed nothing yet, so there is no outcome to be fresh.
      intro p hp outcome houtcome
      rcases List.mem_append.mp hp with hp | hp
      · exact h.fresh p hp outcome houtcome
      · rw [List.mem_singleton.mp hp] at houtcome
        cases houtcome
  | lock i =>
    simp only [World.step]
    split
    next request hp =>
      split_ifs with hfree
      · -- The lock is taken only where no other process holds it.
        refine h.move hp (fun k hk => Or.inr ?_) (fun _ hphase => by cases hphase)
        rw [List.mem_singleton.mp hk]
        exact free_spec hfree
      · exact h
    next => exact h
  | execute i draw =>
    simp only [World.step]
    split
    next request hp =>
      -- The body runs on the rows as they are now, so its outcome is fresh by definition.
      refine h.move hp (fun k hk => Or.inl ?_) fun outcome hphase => ?_
      · simpa [World.held, hp, Process.locks] using hk
      · cases hphase
        exact ⟨draw, rfl⟩
    next => exact h
  | finish i =>
    simp only [World.step]
    split
    next request value response hp => exact h.commit hp rfl
    next request failure hp => exact h.move hp (hnone rfl) fun _ hphase => by cases hphase
    next => exact h
  | abort i =>
    simp only [World.step]
    split
    next request hp => exact h.move hp (hnone rfl) fun _ hphase => by cases hphase
    next request hp => exact h.move hp (hnone rfl) fun _ hphase => by cases hphase
    next request outcome hp => exact h.move hp (hnone rfl) fun _ hphase => by cases hphase
    next => exact h

/-- Every run keeps the invariant. -/
theorem run_inv (system : System κ σ α δ ε ω) (rows : κ → σ) (acts : List (Act α δ)) :
    Inv system (World.run system rows acts) := by
  refine Transition.run_invariant (fun w a (h : Inv system w) => step_inv h a) ?_ acts
  exact ⟨Locks.exclusive_nil, fun p hp => absurd hp List.not_mem_nil⟩

/-- An action leaves the value under a key as it is, or it commits a request that is executed as a
whole on that value. This is what the claims about single commands are lifted with to runs of any
interleaving. -/
theorem step_rows (h : Inv system w) (a : Act α δ) (key : κ) :
    (w.step system a).rows key = w.rows key ∨
      ∃ (i : ℕ) (request : α) (draw : δ) (value : σ) (response : ω), a = .finish i ∧
        w.processes[i]? = some ⟨request, .executed (.ok (value, response))⟩ ∧
        system.key request = key ∧
        system.exec request draw (w.rows key) = .ok (value, response) ∧
        (w.step system a).rows key = value := by
  cases a with
  | request => exact Or.inl rfl
  | lock i =>
    left
    simp only [World.step]
    split
    · split_ifs <;> rfl
    · rfl
  | execute i draw =>
    left
    simp only [World.step]
    split <;> rfl
  | abort i =>
    left
    simp only [World.step]
    split <;> rfl
  | finish i =>
    simp only [World.step]
    split
    next request value response hp =>
      -- The outcome was computed earlier; that it is fresh says that it is what the rows now give.
      obtain ⟨draw, hdraw⟩ := h.fresh _ (List.mem_of_getElem? hp) _ rfl
      by_cases hkey : system.key request = key
      · subst hkey
        exact Or.inr ⟨i, request, draw, value, response, rfl, hp, rfl, hdraw.symm,
          Function.update_self ..⟩
      · exact Or.inl (Function.update_of_ne (Ne.symm hkey) _ _)
    next => exact Or.inl rfl
    next => exact Or.inl rfl

/-- A committed transaction stays committed. Its response is its last word, whatever the other
transactions do. -/
theorem step_committed {i : ℕ} {request : α} {response : ω}
    (h : w.processes[i]? = some ⟨request, .committed response⟩) (a : Act α δ) :
    (w.step system a).processes[i]? = some ⟨request, .committed response⟩ := by
  -- An action is about another transaction, or finds this one in no phase it could end.
  have hother : ∀ (w' : World κ σ α ε ω) (j : ℕ) (phase : Phase σ ε ω),
      w'.processes = w.processes → i ≠ j →
        (w'.set_phase j phase).processes[i]? = some ⟨request, .committed response⟩ := by
    intro w' j phase hw hij
    simp only [World.set_phase, hw, List.getElem?_modify, if_neg (Ne.symm hij)]
    rw [h]
    rfl
  -- A process in a phase that can still move is not this one.
  have hne : ∀ {j : ℕ} {q : Process σ α ε ω}, w.processes[j]? = some q →
      (∀ response, q.phase ≠ .committed response) → i ≠ j := by
    rintro j q hq hphase rfl
    rw [h] at hq
    exact hphase response (Option.some.inj hq ▸ rfl)
  cases a with
  | request request' =>
    obtain ⟨hlt, -⟩ := List.getElem?_eq_some_iff.mp h
    simp only [World.step, List.getElem?_append_left hlt, h]
  | lock j =>
    simp only [World.step]
    split
    next hq =>
      split_ifs
      · exact hother w j _ rfl (hne hq (by simp))
      · exact h
    next => exact h
  | execute j draw =>
    simp only [World.step]
    split
    next hq => exact hother w j _ rfl (hne hq (by simp))
    next => exact h
  | finish j =>
    simp only [World.step]
    split
    next hq => exact hother _ j _ rfl (hne hq (by simp))
    next hq => exact hother w j _ rfl (hne hq (by simp))
    next => exact h
  | abort j =>
    simp only [World.step]
    split
    next hq => exact hother w j _ rfl (hne hq (by simp))
    next hq => exact hother w j _ rfl (hne hq (by simp))
    next hq => exact hother w j _ rfl (hne hq (by simp))
    next => exact h

/-- A transaction after an action has been there before, and is the same if it was committed; or the
action has started it. So the processes of a world are the requests that have been made, each in its
own place. -/
theorem step_processes {a : Act α δ} {q : Process σ α ε ω} (h : q ∈ (w.step system a).processes) :
    (∃ request, a = .request request ∧ q = ⟨request, .waiting⟩) ∨
      ∃ p ∈ w.processes, q.request = p.request ∧
        ∀ response, p.phase = .committed response → q = p := by
  have hkept : ∀ q ∈ w.processes, ∃ p ∈ w.processes, q.request = p.request ∧
      ∀ response, p.phase = .committed response → q = p :=
    fun q hq => ⟨q, hq, rfl, fun _ _ => rfl⟩
  -- A phase is only set of a transaction that is not committed.
  have hset : ∀ (w' : World κ σ α ε ω) (i : ℕ) (phase : Phase σ ε ω) (request : α)
      (phase' : Phase σ ε ω), w'.processes = w.processes →
      w.processes[i]? = some ⟨request, phase'⟩ → (∀ response, phase' ≠ .committed response) →
        q ∈ (w'.set_phase i phase).processes → ∃ p ∈ w.processes, q.request = p.request ∧
          ∀ response, p.phase = .committed response → q = p := by
    intro w' i phase request phase' hw hp hphase hq
    obtain ⟨j, p, hj, ⟨rfl, rfl⟩ | ⟨-, rfl⟩⟩ := mem_set_phase hq
    · rw [hw, hp] at hj
      obtain rfl := Option.some.inj hj
      exact ⟨_, List.mem_of_getElem? hp, rfl, fun response heq => absurd heq (hphase response)⟩
    · exact hkept _ (hw ▸ List.mem_of_getElem? hj)
  cases a with
  | request request =>
    rcases List.mem_append.mp h with hold | hnew
    · exact Or.inr (hkept q hold)
    · exact Or.inl ⟨request, rfl, List.mem_singleton.mp hnew⟩
  | lock i =>
    right
    simp only [World.step] at h
    split at h
    next hp =>
      split_ifs at h
      · exact hset w i _ _ _ rfl hp (by simp) h
      · exact hkept q h
    next => exact hkept q h
  | execute i draw =>
    right
    simp only [World.step] at h
    split at h
    next hp => exact hset w i _ _ _ rfl hp (by simp) h
    next => exact hkept q h
  | finish i =>
    right
    simp only [World.step] at h
    split at h
    next hp => exact hset _ i _ _ _ rfl hp (by simp) h
    next hp => exact hset w i _ _ _ rfl hp (by simp) h
    next => exact hkept q h
  | abort i =>
    right
    simp only [World.step] at h
    split at h
    next hp => exact hset w i _ _ _ rfl hp (by simp) h
    next hp => exact hset w i _ _ _ rfl hp (by simp) h
    next hp => exact hset w i _ _ _ rfl hp (by simp) h
    next => exact hkept q h

/-- The end of a transaction whose body has returned is its commit. -/
theorem step_finish {i : ℕ} {request : α} {value : σ} {response : ω}
    (h : w.processes[i]? = some ⟨request, .executed (.ok (value, response))⟩) :
    (w.step system (.finish i : Act α δ)).processes[i]? = some ⟨request, .committed response⟩ := by
  simp only [World.step, h, World.set_phase, List.getElem?_modify, if_true]
  rfl

/-- No action of a transaction that fails changes a value. Either it took no step that writes, or it
committed, and then it has not failed. -/
theorem run_failed {rows : κ → σ} {acts : List (Act α δ)} {i : ℕ} {request : α} {failure : Option ε}
    (h : (World.run system rows acts).processes[i]? = some ⟨request, .failed failure⟩)
    {pre : List (Act α δ)} {a : Act α δ} (hpre : pre ++ [a] <+: acts) (ha : a.process = some i) :
    (World.run system rows (pre ++ [a])).rows = (World.run system rows pre).rows := by
  have hstep : World.run system rows (pre ++ [a]) = (World.run system rows pre).step system a :=
    Transition.run_concat _ _ pre a
  obtain ⟨rest, rfl⟩ := hpre
  funext key
  rcases step_rows (run_inv system rows pre) a key with hsame |
    ⟨j, request', draw, value, response, rfl, hprocess, -, -, -⟩
  · rw [hstep, hsame]
  · -- The transaction would be committed, and stay so.
    obtain rfl : j = i := Option.some.inj ha
    have hcommitted : (World.run system rows (pre ++ [.finish j])).processes[j]? =
        some ⟨request', .committed response⟩ := by rw [hstep, step_finish hprocess]
    have hstays := @Transition.run_invariant _ _ (World.step system)
      (fun w => w.processes[j]? = some ⟨request', .committed response⟩)
      (fun w a hw => step_committed hw a) _ hcommitted rest
    unfold World.run at h hstays
    rw [← Transition.run_append, h] at hstays
    cases hstays

/-! ## A transaction on its own -/

/-- The actions of a transaction that no other interrupts, where `process` transactions have been
before it. -/
def Act.alone (request : α) (draw : δ) (process : ℕ) : List (Act α δ) :=
  [.request request, .lock process, .execute process draw, .finish process]

omit [DecidableEq κ] in
/-- Setting the phase of the last transaction. -/
theorem set_phase_last (rows : κ → σ) (processes : List (Process σ α ε ω)) (request : α)
    (phase phase' : Phase σ ε ω) :
    World.set_phase ⟨rows, processes ++ [⟨request, phase⟩]⟩ processes.length phase' =
      ⟨rows, processes ++ [⟨request, phase'⟩]⟩ := by
  unfold World.set_phase
  simp only [List.modify_eq_set_getElem?, List.getElem?_concat_length,
    List.set_append_right _ _ le_rfl, Nat.sub_self, List.set_cons_zero]
  rfl

/-- Where its lock is free, a transaction on its own executes its request on the value under its
key. -/
theorem run_alone {request : α} {draw : δ} {value : σ} {response : ω}
    (hfree : w.free system (system.key request) = true)
    (hexec : system.exec request draw (w.rows (system.key request)) = .ok (value, response)) :
    Transition.run (World.step system) w (Act.alone request draw w.processes.length) =
      ⟨Function.update w.rows (system.key request) value,
        w.processes ++ [⟨request, .committed response⟩]⟩ := by
  have hlock : World.free system ⟨w.rows, w.processes ++ [⟨request, .waiting⟩]⟩
      (system.key request) = true := by
    unfold World.free at hfree ⊢
    rw [List.all_append, hfree]
    simp [Process.locks]
  unfold Act.alone
  simp only [Transition.run_cons, Transition.run_nil, World.step, List.getElem?_concat_length, hlock,
    if_true, set_phase_last, hexec]

end Serial
