import RestaurantOS.Notifications.Stubs

/-!
# Diagnostics

The sink has one diagnostic row for each processed event that is no low event, in the order of
processing (`run_diagnostics`). An event that has not been processed can be, whatever it is about
(`Site.Sound.handles`). -/

namespace RestaurantOS.Notifications

open Fallible Alerts Events Inventory

/-- Whether an event leaves a diagnostic row. A low-stock event leaves a stub instead. -/
def diagnosed (event : EventEnvelope Payload) : Bool :=
  match event.payload with
  | .inventory_low _ => false
  | _ => true

/-- A low event leaves none. -/
theorem not_diagnosed {event : EventEnvelope Payload} {low : InventoryLowPayload}
    (h : event.payload = .inventory_low low) : ¬diagnosed event = true := by
  unfold diagnosed
  rw [h]
  exact Bool.false_ne_true

/-- Any other event does. -/
theorem diagnosed_other {event : EventEnvelope Payload}
    (h : ∀ low, event.payload ≠ .inventory_low low) : diagnosed event = true := by
  unfold diagnosed
  cases hpayload : event.payload with
  | inventory_low low => exact absurd hpayload (h low)
  | _ => rfl

/-- The facts of an event that the sink has subscribed to. -/
theorem diagnostic_facts_ok {payload : Payload}
    (hsubscribed : .notification_sink ∈ SUBSCRIPTIONS payload.event_type)
    (hlow : ∀ low, payload ≠ .inventory_low low) : ∃ facts, diagnostic_facts payload = .ok facts := by
  cases payload with
  | inventory_state_changed payload => simp [Payload.event_type, SUBSCRIPTIONS] at hsubscribed
  | inventory_low payload => exact absurd rfl (hlow payload)
  | _ => exact ⟨_, rfl⟩

variable {db : Branch} {now : Timestamp} {event : EventEnvelope Payload}
  {sink sink' : NotificationSink}

/-- What the handler does to the diagnostics. A low event leaves them alone, and any other event
that is handled appends its own row. -/
theorem apply_notification_event_diagnostics {outcome : Alerts.Outcome}
    (h : apply_notification_event db now event sink = .ok (sink', outcome)) :
    sink'.diagnostics.map EventDiagnostic.event_id =
      sink.diagnostics.map EventDiagnostic.event_id ++
        if diagnosed event then [event.event_id] else [] := by
  unfold apply_notification_event at h
  split at h
  · rename_i payload hpayload
    rw [if_neg (not_diagnosed hpayload), List.append_nil]
    obtain ⟨current, -, h⟩ := bind_eq_ok.mp h
    -- An episode with a stub is skipped, and otherwise a stub is added.
    split_ifs at h
    · obtain ⟨rfl, -⟩ := Prod.mk.inj (pure_eq_ok.mp h)
      rfl
    · obtain ⟨facts, -, h⟩ := bind_eq_ok.mp h
      obtain ⟨flushed, hflush, h⟩ := bind_eq_ok.mp h
      obtain ⟨rfl, -⟩ := Prod.mk.inj (pure_eq_ok.mp h)
      obtain ⟨rfl, -⟩ := flush_eq_ok.mp hflush
      rfl
  · -- The facts are projected and the row is appended.
    rename_i hother
    obtain ⟨facts, -, h⟩ := bind_eq_ok.mp h
    obtain ⟨flushed, hflush, h⟩ := bind_eq_ok.mp h
    obtain ⟨rfl, -⟩ := Prod.mk.inj (pure_eq_ok.mp h)
    obtain ⟨rfl, -⟩ := flush_eq_ok.mp hflush
    rw [List.map_append, if_pos (diagnosed_other hother)]
    rfl

/-- An event without a diagnostic row can be handled, if it is no low event. -/
theorem apply_notification_event_diagnosed (hsound : sink.Sound)
    (hsubscribed : .notification_sink ∈ SUBSCRIPTIONS event.payload.event_type)
    (hlow : ∀ low, event.payload ≠ .inventory_low low)
    (hnew : event.event_id ∉ sink.diagnostics.map EventDiagnostic.event_id) :
    ∃ result, apply_notification_event db now event sink = .ok result := by
  obtain ⟨facts, hfacts⟩ := diagnostic_facts_ok hsubscribed hlow
  unfold apply_notification_event
  split
  · rename_i payload hpayload
    exact absurd hpayload (hlow payload)
  · rw [ok_bind hfacts]
    refine ⟨_, bind_eq_ok.mpr ⟨_, flush_eq_ok.mpr ⟨rfl, hsound.stubs, hsound.positive, ?_⟩, rfl⟩⟩
    refine hsound.diagnostics.append fun row hrow hsame => hnew ?_
    exact List.mem_map.mpr ⟨row, hrow, hsame⟩

section Site

variable (lib : Library) (start : ℕ → LegacyBranch) (k : ℕ)

/-- The diagnostic rows are those of the processed events that are no low events. Each step appends
to both sides or to neither. -/
theorem run_diagnostics (ops : List Op) :
    (Site.run lib start k ops).sink.diagnostics.map EventDiagnostic.event_id =
      ((Site.run lib start k ops).processed.filter diagnosed).map EventEnvelope.event_id := by
  -- One step first; the run is `Transition.run_invariant`.
  have hstep : ∀ (site : Site) (op : Op),
      site.sink.diagnostics.map EventDiagnostic.event_id =
          (site.processed.filter diagnosed).map EventEnvelope.event_id →
        (Site.step lib start k site op).sink.diagnostics.map EventDiagnostic.event_id =
          ((Site.step lib start k site op).processed.filter diagnosed).map
            EventEnvelope.event_id := by
    intro site op hsite
    cases op with
    | request a => exact hsite
    -- An event is handled, or fails, or is none of the sink's.
    | process position now =>
      unfold Site.step
      simp only
      split
      · exact hsite
      · rename_i event hevent
        split_ifs
        · split
          · rename_i sink outcome happly
            rw [apply_notification_event_diagnostics happly, hsite, List.filter_append,
              List.map_append, List.filter_singleton]
            cases diagnosed event <;> rfl
          · exact hsite
        · exact hsite
  exact Transition.run_invariant hstep rfl ops

variable {lib start k} {site : Site}

/-- An emitted low event can be handled at any time, any other as long as it has no diagnostic row.
The primary key of the diagnostics is the event, so a second row would be refused. -/
theorem Site.Sound.handles (h : site.Sound) {event : EventEnvelope Payload}
    (hevent : event ∈ (site.db lib start k).events)
    (hsubscribed : .notification_sink ∈ SUBSCRIPTIONS event.payload.event_type)
    (hnew : event.event_id ∉ site.sink.diagnostics.map EventDiagnostic.event_id) (now : Timestamp) :
    ∃ result, apply_notification_event (site.db lib start k) now event site.sink = .ok result := by
  by_cases hlow : ∃ low, event.payload = .inventory_low low
  · obtain ⟨payload, hpayload⟩ := hlow
    obtain ⟨horganization, hrestaurant, hall⟩ := run_enveloped lib start site.requests k
    have henveloped := hall event hevent
    -- A low event is about an ingredient with a record and a balance.
    have habout : event ∈ (site.db lib start k).ingredient_events payload.ingredient_id := by
      refine List.mem_filter.mpr ⟨hevent, ?_⟩
      rw [hpayload]
      exact decide_eq_true rfl
    obtain ⟨record, hlookup, -, hbalance, -⟩ :=
      (run_recounted lib start site.requests k payload.ingredient_id).backed event habout
    -- The validation of the payload has checked the identifier.
    have hpositive : 0 < payload.ingredient_id := by
      have hvalid := henveloped.valid.2.2.2.2.2
      rw [hpayload] at hvalid
      exact hvalid.1
    refine apply_notification_event_ok (run_episodic lib start site.requests k) h.sink hpayload
      ⟨?_, ?_⟩ hpositive hlookup hbalance
    · rw [henveloped.restaurant_id]
      exact congrArg Nat.cast hrestaurant.symm
    · exact henveloped.organization_id.trans horganization.symm
  · -- Any other event gets a row of its own.
    exact apply_notification_event_diagnosed h.sink hsubscribed
      (fun low hpayload => hlow ⟨low, hpayload⟩) hnew

end Site

end RestaurantOS.Notifications
