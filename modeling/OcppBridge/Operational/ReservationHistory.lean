import OcppBridge.Revisions
import OcppBridge.Operational.Change

namespace OcppBridge.Operational

open Storage Transaction Relation Desk Revisions

variable {P π τ ε : Type}

namespace ReservationEdition

variable {edition : ReservationEdition P π τ ε}

open ReservationRecord

def policy : Policy (ReservationRecord π ε) Int where
  slot r := r.reservationId
  live r := r.state.live = true
  active r := r.state = .active
  busy _ := False
  fresh _ := True
  follows := Keeps

theorem policy_lawful : (policy (π := π) (ε := ε)).Lawful where
  refl := .refl
  trans := .trans
  slot h := h.reservation
  live h := h.live
  busy _ := id
  fresh _ := id
  activeLive h := by
    simp only [policy] at h ⊢
    rw [h]
    rfl

theorem rules_obey : (rules (π := π) (ε := ε)).Obey policy := by
  refine ⟨policy_lawful, id, fun hfresh => ⟨trivial, fun hactive => ?_⟩⟩
  exact absurd (hfresh.symm.trans hactive) (by simp)

variable [Wire P] {desk desk' : edition.Records}

theorem finished_steps {request : RequestId} {r : ReservationRecord π ε}
    (h : Finished rules owns request desk desk' r) :
    ReflTransGen (Step (tracking (policy (π := π) (ε := ε)))) desk.rows desk'.rows := by
  refine h.steps rules_obey fun hown => ⟨hown.1, fun ha => (hown.2 ha).imp id fun hdisplaced b hb hlt => ?_⟩
  simp only [policy, Bool.not_eq_true]
  exact hdisplaced b hb hlt.1 hlt.2.1 hlt.2.2

omit [Wire P] in
/-- What a later state of a reservation ledger owes to an earlier one. -/
structure History (past now : Table edition.shape.key) : Prop where
  inflight : ∀ e ∈ now, ∀ f ∈ now, e.record.station.key = f.record.station.key → e.inflight = true → f.inflight = true →
    e = f
  revision : ∀ f ∈ now,
    (∃ e ∈ past, e.record.station.key = f.record.station.key ∧ e.record.revision = f.record.revision ∧
      e.record.requestId = f.record.requestId) ∨
    ∀ e ∈ past, e.record.station.key = f.record.station.key → e.record.revision < f.record.revision
  settled : ∀ e ∈ past, ∀ f ∈ now, e.record.station.key = f.record.station.key → e.record.revision = f.record.revision →
    e.record.state.live = false → f.record.state.live = false
  clock : ∀ e ∈ past, ∀ f ∈ now, e.record.station.key = f.record.station.key → e.record.revision = f.record.revision →
    e.record.changedAt ≤ f.record.changedAt
  active : ∀ e ∈ now, ∀ f ∈ now, e.record.station.key = f.record.station.key →
    e.record.reservationId = f.record.reservationId → e.record.state = .active → f.record.state = .active → e = f

omit [Wire P] in
theorem history_of_steps {past now : Table edition.shape.key}
    (hpast : ReflTransGen (Step (tracking policy)) .empty past)
    (hnow : ReflTransGen (Step (tracking policy)) past now) : History past now := by
  have hlaw := tracking_lawful (policy_lawful (π := π) (ε := ε))
  have hsound := (Step.run hlaw (hpast.trans hnow)).2 .empty
  have hsucceeds := (Step.run hlaw hnow).1
  refine ⟨hsound.single, fun f hf => ?_, fun e he f hf hs hr hdead => ?_, fun e he f hf hs hr => ?_,
    fun e he f hf hs hid => hsound.active_unique hlaw he hf hs hid⟩
  · rcases hsucceeds.origin f hf with ⟨e, he, hk, hfollows⟩ | ⟨-, hnew⟩
    · exact .inl ⟨e, he, congrArg Prod.fst hk, congrArg Prod.snd hk, hfollows.1.request.symm⟩
    · exact .inr hnew
  · have hfollows := hsucceeds.follows he hf (Prod.ext hs hr)
    rw [← Bool.not_eq_true] at hdead ⊢
    exact fun hlive => hdead (hfollows.1.live hlive)
  · exact (hsucceeds.follows he hf (Prod.ext hs hr)).1.changed

end ReservationEdition

section Runs

open ReservationEdition

variable [Wire P]

structure ReservationSteps (s s' : Store P) : Prop where
  reservations16 : ReflTransGen (Step (tracking policy)) s.reservations16 s'.reservations16
  reservations201 : ReflTransGen (Step (tracking policy)) s.reservations201 s'.reservations201

theorem ReservationSteps.refl (s : Store P) : ReservationSteps s s := ⟨.refl, .refl⟩

theorem ReservationSteps.trans {s s' s'' : Store P} (h : ReservationSteps s s') (h' : ReservationSteps s' s'') :
    ReservationSteps s s'' :=
  ⟨h.1.trans h'.1, h.2.trans h'.2⟩

theorem publishes_reservations {s s' : Store P} {i i' : CommandResult} (h : Publishes (s, i) (s', i')) :
    ReservationSteps s s' := by
  cases h with
  | intro hp h =>
      cases hp with
      | reservation16 => exact ⟨finished_steps h, .refl⟩
      | reservation201 => exact ⟨.refl, finished_steps h⟩
      | firmware16 | firmware201 | diagnostics16 | diagnostics201 => exact ⟨.refl, .refl⟩

theorem move_reservations {s : Store P} {ρ : Type} {shape : Shape ρ} {drawer : Drawer P shape} {rules : Desk.Rules ρ}
    {d : Desk P shape} (hf : Family drawer rules) (h : Move rules (drawer.desk s) d) :
    ReservationSteps s (drawer.file d s) := by
  cases hf with
  | reservation16 => exact ⟨h.steps rules_obey, .refl⟩
  | reservation201 => exact ⟨.refl, h.steps rules_obey⟩
  | firmware16 | firmware201 | diagnostics16 | diagnostics201 => exact ⟨.refl, .refl⟩

theorem change_reservations {s s' : Store P} {sent : CommandResult → Prop} (h : Change sent s s') :
    ReservationSteps s s' :=
  h.ledgers_rel .trans (fun h => ⟨by rw [h.reservations16], by rw [h.reservations201]⟩) move_reservations
    publishes_reservations

/-- In every run from an empty store, each reservation ledger has one mutation in flight for each station, numbers its
revisions upwards, never revives a settled record, and has one active record for each reservation. -/
theorem run_reservation_history (requests more : List (Request P)) :
    History ((Store.empty : Store P).run requests).reservations16
      (((Store.empty : Store P).run requests).run more).reservations16 ∧
    History ((Store.empty : Store P).run requests).reservations201
      (((Store.empty : Store P).run requests).run more).reservations201 := by
  have hrun : ∀ (s : Store P) requests, ReservationSteps s (s.run requests) :=
    Store.run_rel .refl .trans change_reservations fun _ _ => ⟨.refl, .refl⟩
  have hpast := hrun .empty requests
  have hnow := hrun (Store.empty.run requests) more
  exact ⟨history_of_steps hpast.1 hnow.1, history_of_steps hpast.2 hnow.2⟩

end Runs

end OcppBridge.Operational
