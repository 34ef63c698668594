import OcppBridge.Revisions
import OcppBridge.Operational.Change

namespace OcppBridge.Operational

open Transaction Relation Revisions Desk

namespace JobFamily

open JobRecord

variable {P κ δ ι α β π τ υ : Type} [Wire P] {family : JobFamily P κ δ ι α β π τ υ} {desk desk' : family.Records}
  {sound : JobRecord κ π τ υ → JobRecord κ π τ υ → Prop}

abbrev keeping : Policy (JobRecord κ π τ υ) Unit := plain Keeps fun _ => True

theorem keeping_lawful : (keeping (κ := κ) (π := π) (τ := τ) (υ := υ)).Lawful := by
  refine plain_lawful (fun r => (Quiet.refl r).toKeeps) (fun h h' => ?_) fun _ => id
  exact ⟨h'.station.trans h.station, h'.requestId.trans h.requestId, h'.request.trans h.request,
    h'.revision.trans h.revision, h'.admitted.trans h.admitted, h.changed.trans h'.changed⟩

theorem rules_obey : (rules sound).Obey keeping := ⟨keeping_lawful, fun h => ⟨h.1, id⟩, fun _ => ⟨trivial, id⟩⟩

theorem finished_steps {request : RequestId} {r : JobRecord κ π τ υ}
    (h : Finished (rules sound) (fun _ e f => Quiet e.record f.record) request desk desk' r) :
    ReflTransGen (Step (tracking keeping)) desk.rows desk'.rows :=
  h.steps rules_obey fun h => ⟨h.toKeeps, False.elim⟩

omit [Wire P] in
structure History {shape : Shape (JobRecord κ π τ υ)} (past now : Table shape.key) : Prop where
  inflight : ∀ e ∈ now, ∀ f ∈ now, (shape.key e).1 = (shape.key f).1 → e.inflight = true → f.inflight = true → e = f
  kept : ∀ e ∈ past, ∀ f ∈ now, shape.key e = shape.key f → Keeps e.record f.record
  fresh : ∀ f ∈ now, (∃ e ∈ past, shape.key e = shape.key f) ∨
    ∀ e ∈ past, (shape.key e).1 = (shape.key f).1 → (shape.key e).2 < (shape.key f).2
  newest : ∀ e ∈ past, ∃ f ∈ now, (shape.key f).1 = (shape.key e).1 ∧ (shape.key e).2 ≤ (shape.key f).2

omit [Wire P] in
theorem history_of_steps {shape : Shape (JobRecord κ π τ υ)} {past now : Table shape.key}
    (hpast : ReflTransGen (Step (tracking keeping)) .empty past)
    (hnow : ReflTransGen (Step (tracking keeping)) past now) : History past now := by
  have hsound := (Step.run (tracking_lawful keeping_lawful) (hpast.trans hnow)).2 .empty
  have hsucceeds := (Step.run (tracking_lawful keeping_lawful) hnow).1
  refine ⟨hsound.single, fun e he f hf hk => (hsucceeds.follows he hf hk).1, fun f hf => ?_, hsucceeds.head⟩
  exact (hsucceeds.origin f hf).imp (fun ⟨e, he, hk, _⟩ => ⟨e, he, hk⟩) And.right

end JobFamily

section Runs

open JobFamily JobRecord

variable {P : Type} [Wire P]

structure JobSteps (s s' : Store P) : Prop where
  firmware16 : ReflTransGen (Step (tracking keeping)) s.firmware16 s'.firmware16
  firmware201 : ReflTransGen (Step (tracking keeping)) s.firmware201 s'.firmware201
  diagnostics16 : ReflTransGen (Step (tracking keeping)) s.diagnostics16 s'.diagnostics16
  diagnostics201 : ReflTransGen (Step (tracking keeping)) s.diagnostics201 s'.diagnostics201

theorem JobSteps.trans {s s' s'' : Store P} (h : JobSteps s s') (h' : JobSteps s' s'') : JobSteps s s'' :=
  ⟨h.1.trans h'.1, h.2.trans h'.2, h.3.trans h'.3, h.4.trans h'.4⟩

theorem publishes_jobs {s s' : Store P} {i i' : CommandResult} (h : Publishes (s, i) (s', i')) : JobSteps s s' := by
  cases h with
  | intro hp h =>
      cases hp with
      | reservation16 | reservation201 => exact ⟨.refl, .refl, .refl, .refl⟩
      | firmware16 => exact ⟨finished_steps h, .refl, .refl, .refl⟩
      | firmware201 => exact ⟨.refl, finished_steps h, .refl, .refl⟩
      | diagnostics16 => exact ⟨.refl, .refl, finished_steps h, .refl⟩
      | diagnostics201 => exact ⟨.refl, .refl, .refl, finished_steps h⟩

theorem move_jobs {s : Store P} {ρ : Type} {shape : Shape ρ} {drawer : Drawer P shape} {rules : Desk.Rules ρ}
    {d : Desk P shape} (hf : Family drawer rules) (h : Move rules (drawer.desk s) d) :
    JobSteps s (drawer.file d s) := by
  cases hf with
  | reservation16 | reservation201 => exact ⟨.refl, .refl, .refl, .refl⟩
  | firmware16 => exact ⟨h.steps rules_obey, .refl, .refl, .refl⟩
  | firmware201 => exact ⟨.refl, h.steps rules_obey, .refl, .refl⟩
  | diagnostics16 => exact ⟨.refl, .refl, h.steps rules_obey, .refl⟩
  | diagnostics201 => exact ⟨.refl, .refl, .refl, h.steps rules_obey⟩

/-- In every run from an empty store, each job ledger has one request in flight for each station, gives out every
revision once and in increasing order, and never changes what a revision was issued for or moves its time back. -/
theorem run_job_history (requests more : List (Request P)) :
    let past := (Store.empty : Store P).run requests
    let now := past.run more
    History past.firmware16 now.firmware16 ∧ History past.firmware201 now.firmware201 ∧
      History past.diagnostics16 now.diagnostics16 ∧ History past.diagnostics201 now.diagnostics201 := by
  have hrun : ∀ (s : Store P) requests, JobSteps s (s.run requests) := by
    refine Store.run_rel (fun _ => ⟨.refl, .refl, .refl, .refl⟩) .trans (fun h => ?_)
      fun _ _ => ⟨.refl, .refl, .refl, .refl⟩
    refine h.ledgers_rel .trans (fun h => ?_) move_jobs publishes_jobs
    exact ⟨by rw [h.firmware16], by rw [h.firmware201], by rw [h.diagnostics16], by rw [h.diagnostics201]⟩
  intro past now
  have hpast : JobSteps .empty past := hrun .empty requests
  have hnow : JobSteps past now := hrun past more
  exact ⟨history_of_steps hpast.1 hnow.1, history_of_steps hpast.2 hnow.2, history_of_steps hpast.3 hnow.3,
    history_of_steps hpast.4 hnow.4⟩

end Runs

end OcppBridge.Operational
