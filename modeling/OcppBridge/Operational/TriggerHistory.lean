import OcppBridge.Operational.ResultHistory

namespace OcppBridge.Operational

open Keyed Storage Transaction Relation

variable {P : Type}

namespace CommandResult

variable {p q r : CommandResult}

structure Unsent (p : CommandResult) : Prop where
  rejected : p.lifecycle.isRejected
  trigger : p.triggerObservation = none
  trigger201 : p.triggerObservation201 = none

theorem Advances.lifecycle_of_rejected (h : Advances p q) (hp : p.lifecycle.isRejected) :
    q.lifecycle = p.lifecycle := by
  cases hl : p.lifecycle with
  | rejected error =>
      rcases h.settled (by rw [hl]; rfl) with heq | ⟨huncertain, _⟩
      · exact heq.trans hl
      · simp [hl, CommandLifecycle.isTransmissionUncertain] at huncertain
  | admitted | dispatched | protocolResponse | transmissionUncertain => simp [hl, CommandLifecycle.isRejected] at hp

section Merge

theorem mergeEvidence_triggers [Wire P] {retire : Bool} (hp : p.Unsent) (h : mergeEvidence P p q = .ok (r, retire)) :
    r.triggerObservation = q.triggerObservation ∧ r.triggerObservation201 = none := by
  obtain ⟨i, i', h16, h201, hkept⟩ := mergeEvidence_eq_ok h
  rw [Trigger.merge, hp.trigger, pure_eq_ok] at h16
  rw [Trigger201.merge, hp.trigger201, if_pos hp.rejected, pure_eq_ok, Prod.mk.injEq] at h201
  obtain ⟨rfl, -⟩ := h201
  exact ⟨hkept.triggerObservation.trans (h16 ▸ rfl), hkept.triggerObservation201⟩

theorem merge_unsent [Wire P] {retire : Bool} (hp : p.Unsent) (hq : q.triggerObservation = none)
    (h : merge P p q = .ok (r, retire)) : r.Unsent := by
  have hlifecycle := (merge_advances h).lifecycle_of_rejected hp.rejected
  simp only [merge, bind_eq_ok, pure_eq_ok, Prod.mk.injEq] at h
  obtain ⟨_, _, ⟨incoming, _⟩, hmerge, rfl, _⟩ := h
  obtain ⟨ht, ht'⟩ := mergeEvidence_triggers hp hmerge
  refine ⟨hlifecycle ▸ hp.rejected, ?_, ?_⟩
  · split_ifs <;> exact ht.trans hq
  · split_ifs <;> exact ht'

end Merge

theorem Unsent.core (hp : p.Unsent) (h : Core p q) : q.Unsent :=
  ⟨h.lifecycle ▸ hp.rejected, h.triggerObservation.trans hp.trigger, h.triggerObservation201.trans hp.trigger201⟩

theorem Unsent.edit (hp : p.Unsent) (h : Edit p q) : q.Unsent := by
  cases h with
  | configuration | deviceModel | chargingProfiles | none => exact ⟨hp.rejected, hp.trigger, hp.trigger201⟩
  | trigger hsome => cases hp.trigger.symm.trans hsome
  | trigger201 hsome => cases hp.trigger201.symm.trans hsome

end CommandResult

open CommandResult

section Runs

variable [Wire P] {s s' : Store P} {sent : CommandResult → Prop} {request : RequestId}

theorem Revises.unsent {p q : CommandResult} (h : Revises P sent request p q)
    (hsent : ∀ incoming, sent incoming → incoming.request = request → incoming.triggerObservation = none)
    (hp : p.Unsent) : q.Unsent := by
  cases h with
  | kept h => exact hp.core h
  | edited h => exact hp.edit h
  | merged hsource hpublished hmerge hbound =>
      refine (merge_unsent hp (hpublished.triggerObservation.trans ?_) hmerge).core hbound
      rcases hsource with ⟨hin, hrequest⟩ | hrework
      · exact hsent _ hin hrequest
      · exact hrework.triggerObservation.trans hp.trigger

omit [Wire P] in
theorem not_mem_candidates {j : Journal P} {p : CommandResult} (hstored : j.result? request = some p) (hp : p.Unsent)
    (after : Option RequestId) (limit : Nat) : request ∉ Trigger.candidates j after limit := by
  intro hmem
  obtain ⟨row, hrow, hrequest, rfl⟩ := Journal.result?_eq_some.mp hstored
  have hmem := List.mem_of_mem_take hmem
  simp only [List.mem_mergeSort, List.mem_map, List.mem_filter, Bool.and_eq_true] at hmem
  obtain ⟨row', ⟨hrow', -, hawaits⟩, hrequest'⟩ := hmem
  obtain rfl : row' = row := Table.eq_of_key hrow' hrow (hrequest'.trans hrequest.symm)
  simp [Trigger.awaits, hp.trigger, hp.trigger201] at hawaits

/-- A rejected result without a trigger expectation never gets one back, as long as no later writer of the request
brings one. -/
theorem run_rejected_trigger (s : Store P) (requests : List (Request P)) (request : RequestId) {old : CommandResult}
    (hretained : ∀ before, before <+: requests → (s.run before).journal.result? request ≠ none)
    (hold : s.journal.result? request = some old) (hrejected : old.lifecycle.isRejected)
    (htrigger : old.triggerObservation = none) (htrigger201 : old.triggerObservation201 = none)
    (hwriters : ∀ r ∈ requests, ∀ incoming, r.brings incoming → incoming.request = request →
      incoming.triggerObservation = none) :
    ∃ new, (s.run requests).journal.result? request = some new ∧ new.triggerObservation = none ∧
      new.triggerObservation201 = none ∧
        ∀ after limit, request ∉ Trigger.candidates (s.run requests).journal after limit := by
  obtain ⟨new, hnew⟩ := Option.ne_none_iff_exists'.mp (hretained requests (List.prefix_refl _))
  have hunsent : new.Unsent := Follows.run (R := fun p q => p.Unsent → q.Unsent)
    ⟨fun _ => id, fun h h' => h' ∘ h, fun hr h => h.unsent (hwriters _ hr)⟩ hretained hold hnew
      ⟨hrejected, htrigger, htrigger201⟩
  exact ⟨new, hnew, hunsent.trigger, hunsent.trigger201, not_mem_candidates hnew hunsent⟩

end Runs

section Sample

def sampleExpectation : TriggerObservation where
  requestedClass := .heartbeat
  nativeScope := none
  expectedTargets := [0]
  dispatchStartedAt := 0
  deadline := 60
  nativeResponse := none
  observed := []
  status := .pending

def sampleDispatch : CommandResult :=
  { sampleResult .dispatched with schemaVersion := .v1Trigger, triggerObservation := some sampleExpectation }

def sampleRejection : CommandResult := sampleResult (.rejected ⟨.stationDisconnected, none⟩)

def sampleUnsent : List (Request Document) :=
  [sampleAdmission, .write none { commandResult := some sampleDispatch },
    .write none { commandResult := some sampleRejection }]

theorem sample_rejected_trigger :
    (Store.empty.run sampleUnsent).journal.result? "request" = some sampleRejection ∧
      "request" ∉ Trigger.candidates ((Store.empty.run sampleUnsent).run sampleWrites).journal none 1 := by
  have hall : ∀ before ∈ sampleWrites.inits,
      ((Store.empty.run sampleUnsent).run before).journal.result? "request" ≠ none := by decide +kernel
  have hold : (Store.empty.run sampleUnsent).journal.result? "request" = some sampleRejection := by decide +kernel
  obtain ⟨_, _, _, _, h⟩ := run_rejected_trigger (Store.empty.run sampleUnsent) sampleWrites "request"
    (fun before h => hall before ((List.mem_inits before sampleWrites).mpr h)) hold rfl rfl rfl
    (by simp [sampleWrites, Request.brings, sampleResult])
  exact ⟨hold, h none 1⟩

/-- A stale copy of the dispatch gives the rejected result its expectation back, and the request is reconciled again. -/
theorem stale_dispatch_resurrects :
    ((Store.empty.run sampleUnsent).journal.result? "request").map (fun r => (r.lifecycle, r.triggerObservation)) =
        some (sampleRejection.lifecycle, none) ∧
      let store := (Store.empty.run sampleUnsent).run [.write none { commandResult := some sampleDispatch }]
      (store.journal.result? "request").map (fun r => (r.lifecycle, r.triggerObservation)) =
          some (sampleRejection.lifecycle, some sampleExpectation) ∧
        "request" ∈ Trigger.candidates store.journal none 1 := by
  decide +kernel

end Sample

end OcppBridge.Operational
