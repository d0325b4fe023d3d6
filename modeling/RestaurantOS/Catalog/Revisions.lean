import RestaurantOS.Catalog.Changes
import Mathlib.Data.List.Range

/-!
# The revisions of the catalog

A menu or a menu item has no revision of its own: the revision of an event about it is one more than
the last one in the outbox. So the events about a subject carry the revisions from one on, provided
that every change of the subject is announced once, and that the key of a deleted row is not used
again (`Branch.CatalogBook`). A key that the sequence has not passed has no events, which is why the
deletion of a row ends the events about it. -/

namespace RestaurantOS

open Fallible Catalog Events Inventory Orders Tenancy

/-- The revisions of `n` events, from one on. -/
def first_revisions (n : ℕ) : List ℤ := (List.range n).map fun i => ((i + 1 : ℕ) : ℤ)

/-- The revisions with one more. -/
theorem first_revisions_succ (n : ℕ) :
    first_revisions (n + 1) = first_revisions n ++ [((n + 1 : ℕ) : ℤ)] := by
  unfold first_revisions
  rw [List.range_succ, List.map_append, List.map_singleton]

/-- The greatest of the first revisions. -/
theorem foldr_max_first_revisions (n m : ℕ) :
    ((first_revisions n).map Int.toNat).foldr max m = max n m := by
  induction n generalizing m with
  | zero => exact (Nat.zero_max m).symm
  | succ n ih =>
    rw [first_revisions_succ, List.map_append, List.foldr_append, ih]
    simp only [List.map_cons, List.map_nil, List.foldr_cons, List.foldr_nil, Int.toNat_natCast]
    omega

variable {db db' : Branch} {command : Command}

/-- The revisions that the next one is computed from are those of the events about the subject. -/
theorem catalog_revisions_eq (target : CatalogTarget) (id : ℕ)
    (events : List (EventEnvelope Payload)) :
    (events.filterMap fun event =>
      match event.payload with
      | .menu_updated _ target' id' _ _ =>
        if target' = target ∧ id' = id then some event.aggregate_revision.toNat else none
      | _ => none) =
    ((about (Payload.catalog_id target) id events).map (·.aggregate_revision)).map Int.toNat := by
  induction events with
  | nil => rfl
  | cons event events ih =>
    unfold about at ih ⊢
    rw [List.filterMap_cons, List.filter_cons, ih]
    -- The event of a change counts for its own subject, and every other event for none.
    cases event.payload with
    | menu_updated operation target' id' menu_id affected =>
      by_cases htarget : target' = target
      · by_cases hid : id' = id <;> simp [Payload.catalog_id, htarget, hid]
      · simp [Payload.catalog_id, htarget]
    | _ => simp [Payload.catalog_id]

/-- The next revision of a subject follows those of its events. -/
theorem next_catalog_revision_eq {target : CatalogTarget} {id n : ℕ}
    (h : (db.catalog_events target id).map (·.aggregate_revision) = first_revisions n) :
    next_catalog_revision db target id = n + 1 := by
  have hrevisions := (catalog_revisions_eq target id db.events).trans (congrArg (List.map Int.toNat) h)
  have hlast := congrArg (List.foldr max 0) hrevisions
  rw [foldr_max_first_revisions, Nat.max_zero] at hlast
  exact congrArg Nat.succ hlast

/-- The keys of the catalog, and the revisions of the events about it. -/
structure Branch.CatalogBook (db : Branch) : Prop where
  /-- The catalog shows nothing under a key that the sequence has not passed. -/
  keys : ∀ target id, db.next_catalog_id target ≤ id → db.catalog_facts target id = none
  /-- Nothing is announced about such a key. -/
  silent : ∀ target id, db.next_catalog_id target ≤ id → db.catalog_events target id = []
  /-- The events about a subject carry the revisions from one on. -/
  revisions : ∀ target id, (db.catalog_events target id).map (·.aggregate_revision) =
    first_revisions (db.catalog_events target id).length
  /-- A subject whose deletion has been announced is gone. -/
  gone : ∀ target id, ∀ event ∈ db.catalog_events target id,
    event.payload.operation = some .deleted → db.catalog_facts target id = none

/-- The rows of the catalog have keys that the sequences have passed. -/
theorem Branch.CatalogBook.catalog_keys (h : db.CatalogBook) : db.CatalogKeys := by
  constructor
  · intro menu hmenu
    by_contra hle
    have hnone : (Keyed.lookup Menu.menu_id menu.menu_id db.menus).map Menu.facts = none :=
      h.keys .menu menu.menu_id (not_lt.mp hle)
    exact Keyed.lookup_eq_none.mp (Option.map_eq_none_iff.mp hnone) menu hmenu rfl
  · intro item hitem
    by_contra hle
    have hnone : (Keyed.lookup MenuItem.menu_item_id item.menu_item_id db.menu_items).map
        MenuItem.facts = none := h.keys .menu_item item.menu_item_id (not_lt.mp hle)
    exact Keyed.lookup_eq_none.mp (Option.map_eq_none_iff.mp hnone) item hitem rfl

/-- What a request does to a subject: it leaves it as it is, or it changes it and announces the
change under the next revision. -/
structure SubjectStep (before after : Option CatalogFacts)
    (old events : List (EventEnvelope Payload)) (operations : List CatalogOperation) : Prop where
  /-- The change. -/
  step : CatalogStep before after operations
  /-- The announced operations. -/
  operations : events.map (·.payload.operation) = operations.map some
  /-- The revisions. -/
  revisions : events = [] ∨ ∃ event, events = [event] ∧ event.aggregate_revision = (old.length + 1 : ℕ)

/-- An effect does to every subject what `SubjectStep` says. The subject that is changed makes one
step, and all others make none. -/
theorem CatalogEffect.subject_step (h : CatalogEffect db db') (hbook : db.CatalogBook)
    (target : CatalogTarget) (id : ℕ) :
    ∃ events operations, db'.catalog_events target id = db.catalog_events target id ++ events ∧
      SubjectStep (db.catalog_facts target id) (db'.catalog_facts target id)
        (db.catalog_events target id) events operations := by
  -- A subject that the effect does not touch.
  have hkept : db'.catalog_events target id = db.catalog_events target id →
      db'.catalog_facts target id = db.catalog_facts target id →
      ∃ events operations, db'.catalog_events target id = db.catalog_events target id ++ events ∧
        SubjectStep (db.catalog_facts target id) (db'.catalog_facts target id)
          (db.catalog_events target id) events operations := by
    intro hevents hfacts
    refine ⟨[], [], by rw [hevents, List.append_nil], ?_, rfl, Or.inl rfl⟩
    rw [hfacts]
    exact .kept _
  cases h with
  | kept hnext hfacts hevents => exact hkept (hevents target id) (hfacts target id)
  | changed target' id' operation event hevent hevents hnext hothers hstep hfresh =>
    have hsubject := hevent.subject target
    -- The effect is the change of this subject, or of another one.
    by_cases hsame : target = target' ∧ id = id'
    · obtain ⟨rfl, rfl⟩ := hsame
      rw [if_pos rfl] at hsubject
      -- The event is about this subject, so it is appended to its events.
      have habout : db'.catalog_events target id = db.catalog_events target id ++ [event] := by
        have hself : about (Payload.catalog_id target) id [event] = [event] :=
          about_eq_self fun e he => by rw [List.mem_singleton.mp he, hsubject]
        unfold Branch.catalog_events
        rw [hevents, about_append, hself]
      refine ⟨[event], [operation], habout, hstep, ?_, Or.inr ⟨event, rfl, ?_⟩⟩
      · rw [List.map_singleton, List.map_singleton, hevent.operation]
      · rw [hevent.revision, next_catalog_revision_eq (hbook.revisions target id)]
    · -- The event is about another subject and is not seen here.
      have habout : db'.catalog_events target id = db.catalog_events target id := by
        have hnone : about (Payload.catalog_id target) id [event] = [] := by
          refine about_eq_nil fun e he heq => hsame ?_
          rw [List.mem_singleton.mp he, hsubject] at heq
          split_ifs at heq with htarget
          exact ⟨htarget.symm, (Option.some.inj heq).symm⟩
        unfold Branch.catalog_events
        rw [hevents, about_append, hnone, List.append_nil]
      exact hkept habout (hothers target id hsame)

/-- The sequences of an effect only move on, and what it creates has a key that they pass. -/
theorem CatalogEffect.next (h : CatalogEffect db db') (target : CatalogTarget) :
    db.next_catalog_id target ≤ db'.next_catalog_id target ∧
      ∀ id, db.catalog_facts target id = none → db'.catalog_facts target id ≠ none →
        db.next_catalog_id target ≤ id ∧ id < db'.next_catalog_id target := by
  cases h with
  | kept hnext hfacts hevents =>
    refine ⟨(hnext target).ge, fun id hnone hsome => absurd ?_ hsome⟩
    rw [hfacts, hnone]
  | changed target' id' operation event hevent hevents hnext hothers hstep hfresh =>
    refine ⟨hnext target, fun id hnone hsome => ?_⟩
    by_cases hsame : target = target' ∧ id = id'
    · obtain ⟨rfl, rfl⟩ := hsame
      exact hfresh hnone
    · refine absurd ?_ hsome
      rw [hothers target id hsame, hnone]

/-- An effect keeps the book. The four parts are kept one by one: keys not yet given out are unused,
they are silent, revisions count from one, and what is deleted is gone. -/
theorem CatalogEffect.book (h : CatalogEffect db db') (hbook : db.CatalogBook) : db'.CatalogBook := by
  -- Only a key below the sequence of the new state can have appeared.
  have hkeys : ∀ target id, db'.next_catalog_id target ≤ id → db'.catalog_facts target id = none := by
    intro target id hle
    obtain ⟨hnext, hcreated⟩ := h.next target
    by_contra hsome
    have := (hcreated id (hbook.keys target id (hnext.trans hle)) hsome).2
    omega
  -- A key that is still to be given out has no events.
  refine ⟨hkeys, fun target id hle => ?_, fun target id => ?_, fun target id event hevent hdeleted => ?_⟩
  · obtain ⟨hnext, -⟩ := h.next target
    obtain ⟨events, operations, hevents, hsubject⟩ := h.subject_step hbook target id
    have hstep := hsubject.step
    rw [hbook.keys target id (hnext.trans hle), hkeys target id hle] at hstep
    have hnone : events.map (·.payload.operation) = [] := by
      rw [hsubject.operations]
      cases hstep
      rfl
    rw [hevents, hbook.silent target id (hnext.trans hle), List.map_eq_nil_iff.mp hnone]
    rfl
  · -- The new revision continues the count.
    obtain ⟨events, operations, hevents, hsubject⟩ := h.subject_step hbook target id
    rw [hevents, List.map_append, hbook.revisions target id]
    rcases hsubject.revisions with rfl | ⟨event, rfl, hrevision⟩
    · rw [List.map_nil, List.append_nil, List.append_nil]
    · rw [List.map_singleton, hrevision, List.length_append, List.length_singleton,
        first_revisions_succ]
  · obtain ⟨events, operations, hevents, hsubject⟩ := h.subject_step hbook target id
    rw [hevents] at hevent
    rcases List.mem_append.mp hevent with hold | hnew
    · -- The subject is gone, and it does not come back: its key has been used.
      have hnone := hbook.gone target id event hold hdeleted
      by_contra hsome
      obtain ⟨hle, -⟩ := (h.next target).2 id hnone hsome
      rw [hbook.silent target id hle] at hold
      exact absurd hold List.not_mem_nil
    · -- The new event is the deletion, whose step ends without the subject.
      have hmem : some CatalogOperation.deleted ∈ operations.map some := by
        rw [← hsubject.operations, ← hdeleted]
        exact List.mem_map_of_mem hnew
      have hstep := hsubject.step
      generalize db.catalog_facts target id = before at hstep
      generalize db'.catalog_facts target id = after at hstep ⊢
      cases hstep with
      | deleted => rfl
      | _ => simp at hmem

/-! ## Runs -/

/-- The rows of a restaurant of the legacy database, where the sequence has passed the keys of the
menus. -/
structure CatalogBranch extends LegacyBranch where
  /-- The keys of the menus. -/
  menus_below : ∀ menu ∈ menus, menu.menu_id < next_menu_id

/-- The small restaurant is one. -/
instance : Nonempty CatalogBranch :=
  ⟨⟨⟨Branch.small, Branch.small_legacy⟩, by simp [Branch.small]⟩⟩

/-- The book is in order at the start. Nothing has been announced, and no key has been used. -/
theorem CatalogBranch.book (start : CatalogBranch) : start.toBranch.CatalogBook := by
  have hnone : ∀ target id, start.toBranch.catalog_events target id = [] := by
    intro target id
    unfold Branch.catalog_events
    rw [start.legacy.events, about_nil]
  refine ⟨fun target id hle => ?_, fun target id _ => hnone target id, fun target id => ?_,
    fun target id event hevent => ?_⟩
  · -- The keys of the stored rows lie below their sequences.
    cases target with
    | menu =>
      have hle : start.next_menu_id ≤ id := hle
      refine Option.map_eq_none_iff.mpr (Keyed.lookup_eq_none.mpr fun menu hmenu => ?_)
      exact ((start.menus_below menu hmenu).trans_le hle).ne
    | menu_item =>
      have hle : start.next_menu_item_id ≤ id := hle
      refine Option.map_eq_none_iff.mpr (Keyed.lookup_eq_none.mpr fun item hitem => ?_)
      exact ((start.legacy.menu_items_below item hitem).trans_le hle).ne
  · rw [hnone]
    rfl
  · rw [hnone] at hevent
    exact absurd hevent List.not_mem_nil

variable (lib : Library) (start : ℕ → CatalogBranch)

/-- The rows of a restaurant after a run. -/
def catalog_rows (acts : List Act) (k : ℕ) : Branch :=
  (run lib (fun k => (start k).toLegacyBranch) acts).rows k

/-- The book is in order in every reachable state. The induction is on the run of requests, each of
which commits one effect. -/
theorem run_catalog_book (acts : List Act) (k : ℕ) : (catalog_rows lib start acts k).CatalogBook := by
  induction acts using List.reverseRecOn with
  | nil => exact (start k).book
  | append_singleton acts a ih =>
    rcases run_step_exec lib (fun k => (start k).toLegacyBranch) acts a k with hsame |
      ⟨i, request, draw, value, response, -, -, -, -, hexec, hrows⟩
    · unfold catalog_rows
      rw [hsame]
      exact ih
    · unfold catalog_rows
      rw [hrows]
      exact (exec_catalog_effect (run_sane lib _ acts k) ih.catalog_keys hexec).book ih

/-- A step of a run does to a subject what `SubjectStep` says. -/
theorem run_subject_step (acts : List Act) (a : Act) (k : ℕ) (target : CatalogTarget) (id : ℕ) :
    ∃ events operations, (catalog_rows lib start (acts ++ [a]) k).catalog_events target id =
        (catalog_rows lib start acts k).catalog_events target id ++ events ∧
      SubjectStep ((catalog_rows lib start acts k).catalog_facts target id)
        ((catalog_rows lib start (acts ++ [a]) k).catalog_facts target id)
        ((catalog_rows lib start acts k).catalog_events target id) events operations := by
  have hbook := run_catalog_book lib start acts k
  rcases run_step_exec lib (fun k => (start k).toLegacyBranch) acts a k with hsame |
    ⟨i, request, draw, value, response, -, -, -, -, hexec, hrows⟩
  · -- The step does not touch this restaurant.
    refine ⟨[], [], ?_, ?_, rfl, Or.inl rfl⟩
    · unfold catalog_rows
      rw [hsame, List.append_nil]
    · unfold catalog_rows
      rw [hsame]
      exact .kept _
  · -- The step commits a command, whose effect on the subject is known.
    have heffect := exec_catalog_effect (run_sane lib _ acts k) hbook.catalog_keys hexec
    rw [← hrows] at heffect
    exact heffect.subject_step hbook target id

/-- A subject whose deletion has been announced has no further events. -/
theorem run_deleted (acts later : List Act) (k : ℕ) (target : CatalogTarget) (id : ℕ)
    (hdeleted : ∃ event ∈ (catalog_rows lib start acts k).catalog_events target id,
      event.payload.operation = some .deleted) :
    (catalog_rows lib start (acts ++ later) k).catalog_events target id =
      (catalog_rows lib start acts k).catalog_events target id := by
  induction later using List.reverseRecOn with
  | nil => rw [List.append_nil]
  | append_singleton later a ih =>
    rw [← List.append_assoc]
    obtain ⟨event, hevent, hoperation⟩ := hdeleted
    rw [← ih] at hevent
    have hbook := run_catalog_book lib start (acts ++ later) k
    have hbook' := run_catalog_book lib start (acts ++ later ++ [a]) k
    obtain ⟨events, operations, hevents, hsubject⟩ :=
      run_subject_step lib start (acts ++ later) a k target id
    have hmem : event ∈ (catalog_rows lib start (acts ++ later ++ [a]) k).catalog_events target id := by
      rw [hevents]
      exact List.mem_append_left _ hevent
    -- The subject is absent before and after, so the step has announced nothing.
    have hstep := hsubject.step
    rw [hbook.gone target id event hevent hoperation,
      hbook'.gone target id event hmem hoperation] at hstep
    have hnone : events.map (·.payload.operation) = [] := by
      rw [hsubject.operations]
      cases hstep
      rfl
    rw [hevents, List.map_eq_nil_iff.mp hnone, List.append_nil, ih]

/-- In every run: the events about a menu or a menu item carry the revisions from one on, in the order
of their commits; a step that is not a request that has succeeded leaves the subject and its events as
they are, and a request that has changes the subject with one event that tells how, or leaves both as
they are; and nothing follows the event of a deletion. -/
theorem catalog_revisions_contiguous :
    (∀ acts k target id,
      ((catalog_rows lib start acts k).catalog_events target id).map (·.aggregate_revision) =
        first_revisions ((catalog_rows lib start acts k).catalog_events target id).length) ∧
    (∀ acts a k target id, ∃ events operations,
      (catalog_rows lib start (acts ++ [a]) k).catalog_events target id =
        (catalog_rows lib start acts k).catalog_events target id ++ events ∧
      events.map (·.payload.operation) = operations.map some ∧
      CatalogStep ((catalog_rows lib start acts k).catalog_facts target id)
        ((catalog_rows lib start (acts ++ [a]) k).catalog_facts target id) operations ∧
      (catalog_rows lib start (acts ++ [a]) k = catalog_rows lib start acts k ∨
        ∃ i request response, a = .finish i ∧ request.restaurant_id = k ∧
          (run lib (fun k => (start k).toLegacyBranch) (acts ++ [a])).processes[i]? =
            some ⟨request, .committed response⟩)) ∧
    ∀ acts later k target id,
      (∃ event ∈ (catalog_rows lib start acts k).catalog_events target id,
        event.payload.operation = some .deleted) →
      (catalog_rows lib start (acts ++ later) k).catalog_events target id =
        (catalog_rows lib start acts k).catalog_events target id := by
  refine ⟨fun acts k target id => (run_catalog_book lib start acts k).revisions target id,
    fun acts a k target id => ?_, run_deleted lib start⟩
  obtain ⟨events, operations, hevents, hsubject⟩ := run_subject_step lib start acts a k target id
  refine ⟨events, operations, hevents, hsubject.operations, hsubject.step, ?_⟩
  -- A step that changes the rows is the commit of a request.
  rcases run_step_exec lib (fun k => (start k).toLegacyBranch) acts a k with hsame |
    ⟨i, request, draw, value, response, ha, hkey, -, hcommitted, -, -⟩
  · exact Or.inl hsame
  · exact Or.inr ⟨i, request, response, ha, hkey, hcommitted⟩

end RestaurantOS
