import Mathlib.Data.List.Infix
import OcppBridge.Operational.Change

namespace OcppBridge.Operational

open Keyed Storage Transaction Relation Table

variable {P : Type} {row : ResultRow}

theorem CommandLifecycle.rank_le (l : CommandLifecycle) : l.rank ≤ 2 := by cases l <;> simp [rank]

namespace CommandResult

variable {p q r : CommandResult}

/-- The versions that the evidence of ledgers and reports raises a result to. -/
def evidenceVersions : List ContractVersion :=
  [.v1DeviceModel201, .v1Reservation16, .v1Reservation201, .v1Schedules201, .v1Firmware16, .v1Firmware201,
    .v1Diagnostics16, .v1Diagnostics201]

/-- What evidence leaves alone in a result, that of triggers apart; the version may become one of `versions`. -/
structure Kept (versions : List ContractVersion) (p q : CommandResult) : Prop where
  returnRoute : q.returnRoute = p.returnRoute
  resource : q.resource = p.resource
  triggerObservation : q.triggerObservation = p.triggerObservation
  triggerObservation201 : q.triggerObservation201 = p.triggerObservation201
  version : q.schemaVersion = p.schemaVersion ∨ versions.contains q.schemaVersion = true

section Kept

variable {versions : List ContractVersion}

theorem Kept.refl (p : CommandResult) : Kept versions p p := ⟨rfl, rfl, rfl, rfl, .inl rfl⟩

theorem Kept.trans (h : Kept versions p q) (h' : Kept versions q r) : Kept versions p r :=
  ⟨h'.1.trans h.1, h'.2.trans h.2, h'.3.trans h.3, h'.4.trans h.4, h'.5.elim (fun heq => heq ▸ h.5) .inr⟩

theorem Kept.cons (h : Kept versions p q) (version : ContractVersion) : Kept (version :: versions) p q :=
  ⟨h.1, h.2, h.3, h.4, h.5.imp_right fun hmem => by rw [List.contains_cons, hmem, Bool.or_true]⟩

theorem Kept.raise (h : Kept versions p q) {version : ContractVersion} (hversion : versions.contains version = true) :
    Kept versions p { q with schemaVersion := version } :=
  ⟨h.1, h.2, h.3, h.4, .inr hversion⟩

end Kept

/-- What the ledgers and the report bounds leave alone in a result. -/
structure Core (p q : CommandResult) : Prop extends Kept evidenceVersions p q where
  lifecycle : q.lifecycle = p.lifecycle
  recordedAt : q.recordedAt = p.recordedAt
  observedEffects : q.observedEffects = p.observedEffects
  configurationObservations : q.configurationObservations = p.configurationObservations

theorem Core.refl (p : CommandResult) : Core p p := ⟨.refl p, rfl, rfl, rfl, rfl⟩

theorem Core.trans (h : Core p q) (h' : Core q r) : Core p r :=
  ⟨h.1.trans h'.1, h'.2.trans h.2, h'.3.trans h.3, h'.4.trans h.4, h'.5.trans h.5⟩

/-- The lifecycle never falls back, a settled one changes only from uncertain to answered, and evidence accumulates. -/
structure Advances (p q : CommandResult) : Prop where
  rank : p.lifecycle.rank ≤ q.lifecycle.rank
  settled : p.lifecycle.rank = 2 →
    q.lifecycle = p.lifecycle ∨ (p.lifecycle.isTransmissionUncertain ∧ q.lifecycle.isProtocolResponse)
  effects : p.observedEffects.map (·.eventId) ⊆ q.observedEffects.map (·.eventId)
  reads : p.configurationObservations.map (·.readRequestId) ⊆ q.configurationObservations.map (·.readRequestId)

theorem Core.advances (h : Core p q) : Advances p q where
  rank := by rw [h.lifecycle]
  settled _ := .inl h.lifecycle
  effects := by rw [h.observedEffects]; exact List.Subset.refl _
  reads := by rw [h.configurationObservations]; exact List.Subset.refl _

theorem Advances.trans (h : Advances p q) (h' : Advances q r) : Advances p r where
  rank := le_trans h.rank h'.rank
  settled hp := by
    have hq : q.lifecycle.rank = 2 := by
      have hle := h.rank
      have := q.lifecycle.rank_le
      omega
    rcases h.settled hp with heq | ⟨hp', hq'⟩
    · simpa only [heq] using h'.settled hq
    · rcases h'.settled hq with heq | ⟨hq'', _⟩
      · exact .inr ⟨hp', heq ▸ hq'⟩
      · cases hlq : q.lifecycle <;> simp [hlq, CommandLifecycle.isProtocolResponse,
          CommandLifecycle.isTransmissionUncertain] at hq' hq''
  effects := List.Subset.trans h.effects h'.effects
  reads := List.Subset.trans h.reads h'.reads

section Core

variable [Wire P]

theorem refresh_core {ρ : Type} {shape : Shape ρ} {drawer : Drawer P shape} {rules : Desk.Rules ρ}
    (hf : Family drawer rules) {record : ρ} (h : shape.refresh record p = some q) : Core p q := by
  cases hf
  all_goals
    obtain ⟨evidence, _, rfl⟩ := Option.map_eq_some_iff.mp h
    exact ⟨⟨rfl, rfl, rfl, rfl, .inl rfl⟩, rfl, rfl, rfl, rfl⟩

theorem publish_core {ρ : Type} {shape : Shape ρ} {drawer : Drawer P shape} {rules : Desk.Rules ρ}
    {own : Table shape.key → Entry ρ → Entry ρ → Prop} {publish : ρ → CommandResult → CommandResult}
    (hp : Publisher drawer rules own publish) (record : ρ) (p : CommandResult) : Core p (publish record p) := by
  cases hp <;> exact ⟨⟨rfl, rfl, rfl, rfl, .inr rfl⟩, rfl, rfl, rfl, rfl⟩

theorem publishes_core {a b : Store P × CommandResult} (h : ReflTransGen Publishes a b) : Core a.2 b.2 := by
  induction h with
  | refl => exact .refl _
  | tail _ hlast ih =>
      cases hlast with
      | intro hp _ => exact ih.trans (publish_core hp _ _)

theorem finalizeLifecycle_core (p : CommandResult) : Core p (DeviceModel201.finalizeLifecycle p) := by
  unfold DeviceModel201.finalizeLifecycle
  split
  · exact .refl p
  · split_ifs
    · exact .refl p
    · exact ⟨⟨rfl, rfl, rfl, rfl, .inl rfl⟩, rfl, rfl, rfl, rfl⟩

theorem deviceBound_core (h : DeviceModel201.boundOutput P p = .ok q) : Core p q := by
  unfold DeviceModel201.boundOutput at h
  split at h
  · cases h
    exact .refl p
  · split_ifs at h
    · cases h
      exact .refl p
    · simp only [bind_eq_ok, pure_eq_ok] at h
      obtain ⟨_, _, rfl⟩ := h
      split <;> exact ⟨⟨rfl, rfl, rfl, rfl, .inl rfl⟩, rfl, rfl, rfl, rfl⟩

theorem profilesBound_core (p : CommandResult) : Core p (ChargingProfiles201.boundOutput P p) := by
  unfold ChargingProfiles201.boundOutput
  split
  · split
    · split_ifs
      · exact .refl p
      · exact ⟨⟨rfl, rfl, rfl, rfl, .inl rfl⟩, rfl, rfl, rfl, rfl⟩
    · exact .refl p
  · exact .refl p

theorem boundResult_core (h : Store.boundResult (P := P) p = .ok q) : Core p q := by
  simp only [Store.boundResult, bind_eq_ok, pure_eq_ok] at h
  obtain ⟨bounded, hbound, _, _, rfl⟩ := h
  exact ((finalizeLifecycle_core p).trans (deviceBound_core hbound)).trans (profilesBound_core bounded)

end Core

section Merge

theorem deviceModel_merge_kept (h : DeviceModel201.merge p q = .ok r) : Kept evidenceVersions q r := by
  unfold DeviceModel201.merge at h
  split at h
  · cases h
    exact .refl q
  · cases h
    exact ⟨rfl, rfl, rfl, rfl, .inr rfl⟩
  · simp only [bind_eq_ok, pure_eq_ok] at h
    obtain ⟨_, _, _, _, _, _, rfl⟩ := h
    exact ⟨rfl, rfl, rfl, rfl, .inr rfl⟩

theorem chargingProfiles_merge_kept (h : ChargingProfiles201.merge p q = .ok r) : Kept evidenceVersions q r := by
  unfold ChargingProfiles201.merge at h
  split at h
  · cases h
    exact .refl q
  · cases h
    exact ⟨rfl, rfl, rfl, rfl, .inr rfl⟩
  · simp only [bind_eq_ok, pure_eq_ok] at h
    obtain ⟨_, _, rfl⟩ := h
    exact ⟨rfl, rfl, rfl, rfl, .inr rfl⟩

theorem localAuthorization_merge_kept {σ : Type} [DecidableEq σ] {edition : LocalAuthorization P σ}
    (hset : ∀ e p, Kept evidenceVersions p (edition.setEvidence e p))
    (h : LocalAuthorization.merge edition p q = .ok r) : Kept (p.schemaVersion :: evidenceVersions) q r := by
  unfold LocalAuthorization.merge at h
  split at h
  · cases h
    exact .refl q
  · simp only [bind_eq_ok, pure_eq_ok] at h
    obtain ⟨_, _, rfl⟩ := h
    exact ⟨(hset _ q).1, (hset _ q).2, (hset _ q).3, (hset _ q).4, .inr (by simp)⟩

theorem reservation_merge_kept [Wire P] {π τ ε : Type} [DecidableEq π] [DecidableEq τ] [DecidableEq ε]
    {edition : ReservationEdition P π τ ε} (hset : ∀ e p, Kept evidenceVersions p (edition.setEvidence e p))
    (hversion : evidenceVersions.contains edition.version = true) (h : edition.merge p q = .ok r) :
    Kept evidenceVersions q r := by
  unfold ReservationEdition.merge at h
  split at h
  · cases h
    exact .refl q
  · rw [pure_eq_ok] at h
    subst h
    exact (hset _ q).raise hversion
  · simp only [bind_eq_ok, pure_eq_ok] at h
    obtain ⟨_, _, _, _, rfl⟩ := h
    exact hset _ q
  · simp only [bind_eq_ok, pure_eq_ok] at h
    obtain ⟨_, _, _, _, rfl⟩ := h
    exact hset _ q
  · cases h

theorem job_merge_kept {κ δ ι α ρ π τ υ : Type} [DecidableEq ι] [DecidableEq α] [DecidableEq ρ]
    {family : JobFamily P κ δ ι α ρ π τ υ} (hset : ∀ e p, Kept evidenceVersions p (family.setEvidence e p))
    (hversion : evidenceVersions.contains family.version = true) (h : family.merge p q = .ok r) :
    Kept evidenceVersions q r := by
  unfold JobFamily.merge at h
  split at h
  · cases h
    exact .refl q
  · rw [pure_eq_ok] at h
    subst h
    exact (hset _ q).raise hversion
  · simp only [bind_eq_ok, pure_eq_ok] at h
    obtain ⟨_, _, rfl⟩ := h
    exact hset _ q

theorem mergeEvidence_eq_ok [Wire P] {retire : Bool} (h : mergeEvidence P p q = .ok (r, retire)) :
    ∃ i i', Trigger.merge p q = .ok i ∧ Trigger201.merge p i = .ok (i', retire) ∧
      Kept (p.schemaVersion :: evidenceVersions) i' r := by
  simp only [mergeEvidence, bind_eq_ok, pure_eq_ok, Prod.mk.injEq] at h
  obtain ⟨i, h16, ⟨i', _⟩, h201, _, h₁, _, h₂, _, h₃, _, h₄, _, h₅, _, h₆, _, h₇, _, h₈, _, h₉, _, h₁₀, rfl, rfl⟩ := h
  have hreports := (deviceModel_merge_kept h₁).trans (chargingProfiles_merge_kept h₂)
  have hlists := (localAuthorization_merge_kept (fun _ _ => ⟨rfl, rfl, rfl, rfl, .inl rfl⟩) h₃).trans
    (localAuthorization_merge_kept (fun _ _ => ⟨rfl, rfl, rfl, rfl, .inl rfl⟩) h₄)
  have hreservations := (reservation_merge_kept (fun _ _ => ⟨rfl, rfl, rfl, rfl, .inl rfl⟩) rfl h₅).trans
    (reservation_merge_kept (fun _ _ => ⟨rfl, rfl, rfl, rfl, .inl rfl⟩) rfl h₆)
  have hfirmware := (job_merge_kept (fun _ _ => ⟨rfl, rfl, rfl, rfl, .inl rfl⟩) rfl h₇).trans
    (job_merge_kept (fun _ _ => ⟨rfl, rfl, rfl, rfl, .inl rfl⟩) rfl h₈)
  have hdiagnostics := (job_merge_kept (fun _ _ => ⟨rfl, rfl, rfl, rfl, .inl rfl⟩) rfl h₉).trans
    (job_merge_kept (fun _ _ => ⟨rfl, rfl, rfl, rfl, .inl rfl⟩) rfl h₁₀)
  have hledgers := (hreservations.trans hfirmware).trans hdiagnostics
  exact ⟨i, i', h16, h201, ((hreports.cons _).trans hlists).trans (hledgers.cons _)⟩

theorem settled_of_not_outranks (h : outranks p q = false) :
    p.lifecycle.rank ≤ q.lifecycle.rank ∧ (p.lifecycle.rank = 2 →
      p.lifecycle.isTransmissionUncertain ∧ q.lifecycle.isProtocolResponse) := by
  simp only [outranks, Bool.or_eq_false_iff, decide_eq_false_iff_not, not_lt, Bool.and_eq_false_iff,
    Bool.not_eq_false'] at h
  refine ⟨h.1, fun hp => ?_⟩
  have hq : q.lifecycle.rank = 2 := le_antisymm q.lifecycle.rank_le (hp ▸ h.1)
  have hreply : correlatedReply p q = true := by simpa [hp, hq] using h.2
  simp only [correlatedReply, Bool.and_eq_true] at hreply
  exact ⟨hreply.1.1, hreply.1.2⟩

theorem merge_advances [Wire P] {retire : Bool} (h : merge P p q = .ok (r, retire)) : Advances p r := by
  simp only [merge, bind_eq_ok, pure_eq_ok, Prod.mk.injEq] at h
  obtain ⟨_, _, ⟨incoming, _⟩, _, rfl, _⟩ := h
  have heffects : p.observedEffects.map (·.eventId) ⊆
      (pushAbsent (·.eventId) incoming.observedEffects p.observedEffects).map (·.eventId) :=
    keys_subset_pushAbsent _ _
  split_ifs with houtranks
  · exact ⟨le_refl _, fun _ => .inl rfl, heffects, keys_subset_pushAbsent _ _⟩
  · obtain ⟨hrank, hsettled⟩ := settled_of_not_outranks (by simpa using houtranks)
    exact ⟨hrank, fun h => .inr (hsettled h), heffects, keys_subset_pushAbsent _ _⟩

end Merge

theorem edit_advances (h : Edit p q) : Advances p q := by
  cases h with
  | configuration =>
      refine ⟨le_refl _, fun _ => .inl rfl, List.Subset.refl _, ?_⟩
      rw [List.map_append]
      exact List.subset_append_left _ _
  | trigger | trigger201 | deviceModel | chargingProfiles | none =>
      exact ⟨le_refl _, fun _ => .inl rfl, List.Subset.refl _, List.Subset.refl _⟩

end CommandResult

open CommandResult

section Rows

/-- The same row, with its result brought up to date by a ledger. -/
structure Touched (row row' : ResultRow) : Prop where
  request : row'.request = row.request
  reportPending : row'.reportPending = row.reportPending
  active : row'.triggerReconcileActive = row.triggerReconcileActive
  core : Core row.payload row'.payload

theorem Touched.refl (row : ResultRow) : Touched row row := ⟨rfl, rfl, rfl, .refl _⟩

theorem Touched.trans {row' row'' : ResultRow} (h : Touched row row') (h' : Touched row' row'') : Touched row row'' :=
  ⟨h'.1.trans h.1, h'.2.trans h.2, h'.3.trans h.3, h.core.trans h'.core⟩

/-- Both journals hold the same rows, up to what the ledgers brought up to date. -/
structure Synced (j j' : Journal P) : Prop where
  commands : j'.commands = j.commands
  forward : ∀ row ∈ j.results, ∃ row' ∈ j'.results, Touched row row'
  backward : ∀ row' ∈ j'.results, ∃ row ∈ j.results, Touched row row'

theorem Synced.refl (j : Journal P) : Synced j j :=
  ⟨rfl, fun row h => ⟨row, h, .refl row⟩, fun row h => ⟨row, h, .refl row⟩⟩

theorem Synced.trans {j j' j'' : Journal P} (h : Synced j j') (h' : Synced j' j'') : Synced j j'' := by
  refine ⟨h'.commands.trans h.commands, fun row hrow => ?_, fun row'' hrow'' => ?_⟩
  · obtain ⟨row', hrow', ht⟩ := h.forward row hrow
    obtain ⟨row'', hrow'', ht'⟩ := h'.forward row' hrow'
    exact ⟨row'', hrow'', ht.trans ht'⟩
  · obtain ⟨row', hrow', ht'⟩ := h'.backward row'' hrow''
    obtain ⟨row, hrow, ht⟩ := h.backward row' hrow'
    exact ⟨row, hrow, ht.trans ht'⟩

theorem synced_setPayload {j : Journal P} {payload : CommandResult} (hrow : row ∈ j.results)
    (hcore : Core row.payload payload) : Synced j (j.setPayload row.request payload) := by
  rw [Journal.setPayload_of_mem hrow]
  refine ⟨rfl, fun row' hrow' => ?_, fun row' hrow' => ?_⟩
  · by_cases hk : row'.request = row.request
    · obtain rfl : row' = row := eq_of_key hrow' hrow hk
      exact ⟨_, mem_replace.mpr (.inr ⟨rfl, row', hrow', rfl⟩), rfl, rfl, rfl, hcore⟩
    · exact ⟨row', mem_replace.mpr (.inl ⟨hrow', hk⟩), .refl row'⟩
  · rcases mem_replace.mp hrow' with ⟨hrow', _⟩ | ⟨rfl, _⟩
    · exact ⟨row', hrow', .refl row'⟩
    · exact ⟨row, hrow, rfl, rfl, rfl, hcore⟩

variable [Wire P] {ρ : Type} {shape : Shape ρ} {drawer : Drawer P shape} {rules : Desk.Rules ρ} {d d' : Desk P shape}

theorem move_synced (hf : Family drawer rules) (h : Desk.Move rules d d') : Synced d.journal d'.journal := by
  rcases h.journal_eq with heq | ⟨e, _, payload, result, hresult, hrefresh, heq⟩
  · rw [heq]
    exact .refl _
  · obtain ⟨row, hrow, hrequest, rfl⟩ := Journal.result?_eq_some.mp hresult
    rw [heq, ← hrequest]
    exact synced_setPayload hrow (refresh_core hf hrefresh)

theorem moves_synced (hf : Family drawer rules) (h : Desk.Moves rules d d') : Synced d.journal d'.journal := by
  induction h with
  | refl => exact .refl _
  | tail _ hmove ih => exact ih.trans (move_synced hf hmove)

theorem publishes_synced {a b : Store P × CommandResult} (h : ReflTransGen Publishes a b) :
    Synced a.1.journal b.1.journal := by
  induction h with
  | refl => exact .refl _
  | tail _ hlast ih =>
      cases hlast with
      | intro hp hfinished =>
          cases hfinished with
          | intro _ _ hmoves he hs _ _ hsave =>
              have hjournal := (Desk.save_of_mem he hs.1 hsave).2
              have hsynced := moves_synced hp.family hmoves
              rw [← hjournal] at hsynced
              cases hp <;> exact ih.trans hsynced

end Rows

section Runs

variable [Wire P] {s s' : Store P} {sent : CommandResult → Prop}

theorem commandResult_of_mem {request : RequestId} {previous : Option CommandResult} (hrow : row ∈ s.journal.results)
    (hrequest : row.request = request) (h : s.commandResult request = .ok previous) : previous = some row.payload := by
  have hresult : s.journal.result? request = some row.payload :=
    Journal.result?_eq_some.mpr ⟨row, hrow, hrequest, rfl⟩
  simp only [Store.commandResult, hresult, bind_eq_ok, pure_eq_ok] at h
  obtain ⟨_, hdecode, rfl⟩ := h
  rw [(Store.decodeStoredResult_eq_ok.mp hdecode).2.2.2]

/-- What a primitive change does to the stored result of a request: nothing but bring it up to date, edit it, or merge
an incoming result into it. -/
inductive Revises (P : Type) [Wire P] (sent : CommandResult → Prop) (request : RequestId) (p q : CommandResult) : Prop
  | kept (h : Core p q)
  | edited (h : Edit p q)
  | merged {incoming published merged : CommandResult} {retire : Bool}
      (hsource : sent incoming ∧ incoming.request = request ∨ Rework p incoming) (hpublished : Core incoming published)
      (hmerge : merge P p published = .ok (merged, retire)) (hbound : Core merged q)

theorem change_revises (h : Change sent s s') (hrow : row ∈ s.journal.results) :
    ∃ row' ∈ s'.journal.results, row'.request = row.request ∧
      Revises P sent row.request row.payload row'.payload := by
  cases h with
  | outside | admission | fence | retireEnded | reserve => exact ⟨row, hrow, rfl, .kept (.refl _)⟩
  | @edit edited _ _ _ hrow' _ hedit _ =>
      by_cases hk : row.request = edited.request
      · obtain rfl : row = edited := eq_of_key hrow hrow' hk
        exact ⟨_, mem_replace.mpr (.inr ⟨rfl, row, hrow, rfl⟩), rfl, .edited hedit⟩
      · exact ⟨row, mem_replace.mpr (.inl ⟨hrow, hk⟩), rfl, .kept (.refl _)⟩
  | move hf hmove =>
      have hsynced := move_synced hf hmove
      cases hf
      all_goals
        obtain ⟨row', hrow', ht⟩ := hsynced.forward row hrow
        exact ⟨row', hrow', ht.request, .kept ht.core⟩
  | result h hsource =>
      rename_i incoming request
      cases Store.writeResultValue_written h with
      | intro hprevious hpublish hmerge hbound _ _ =>
          by_cases hk : row.request = request
          · obtain rfl := commandResult_of_mem hrow hk hprevious
            refine ⟨_, mem_put.mpr (.inr rfl), hk.symm,
              .merged ?_ (publishes_core hpublish) hmerge (boundResult_core hbound)⟩
            rcases hsource with ⟨hin, hwritten⟩ | ⟨stored, hstored, hrework⟩
            · exact .inl ⟨hin, hwritten.symm.trans hk.symm⟩
            · obtain ⟨row', hrow', hrequest', rfl⟩ := Journal.result?_eq_some.mp hstored
              obtain rfl : row' = row := eq_of_key hrow' hrow (hrequest'.trans hk.symm)
              exact .inr hrework
          · obtain ⟨row', hrow', ht⟩ := (publishes_synced hpublish).forward row hrow
            refine ⟨row', mem_put.mpr (.inl ⟨hrow', ?_⟩), ht.request, .kept ht.core⟩
            exact fun h => hk (ht.request.symm.trans h)

theorem Revises.advances {request : RequestId} {p q : CommandResult} (h : Revises P sent request p q) :
    Advances p q := by
  cases h with
  | kept h => exact h.advances
  | edited h => exact edit_advances h
  | merged _ _ hmerge hbound => exact (merge_advances hmerge).trans hbound.advances

/-- A preorder on the stored result of a request that every primitive change of a run respects. -/
structure Follows (requests : List (Request P)) (request : RequestId) (R : CommandResult → CommandResult → Prop) :
    Prop where
  refl : ∀ p, R p p
  trans : ∀ {p q r}, R p q → R q r → R p r
  revise : ∀ {r p q}, r ∈ requests → Revises P r.brings request p q → R p q

namespace Follows

variable {requests : List (Request P)} {request : RequestId} {R : CommandResult → CommandResult → Prop} {r : Request P}

section

variable (hR : Follows requests request R)

include hR

theorem changes (hr : r ∈ requests) (h : Changes r.brings s s')
    (hrow : row ∈ s.journal.results) (hrequest : row.request = request) :
    ∃ row' ∈ s'.journal.results, row'.request = request ∧ R row.payload row'.payload := by
  induction h with
  | refl => exact ⟨row, hrow, hrequest, hR.refl _⟩
  | tail _ hchange ih =>
      obtain ⟨mid, hmid, rfl, hrel⟩ := ih
      obtain ⟨row', hrow', hrequest', hrevises⟩ := change_revises hchange hmid
      exact ⟨row', hrow', hrequest', hR.trans hrel (hR.revise hr hrevises)⟩

theorem step (hr : r ∈ requests) {old new : CommandResult}
    (hold : s.journal.result? request = some old) (hnew : (s.step r).journal.result? request = some new) :
    R old new := by
  obtain ⟨row, hrow, hrequest, rfl⟩ := Journal.result?_eq_some.mp hold
  obtain ⟨row', hrow', hrequest', rfl⟩ := Journal.result?_eq_some.mp hnew
  have hsame : ∀ {j : Journal P}, row ∈ j.results → row' ∈ j.results → R row.payload row'.payload := by
    intro j hrow hrow'
    obtain rfl : row' = row := eq_of_key hrow' hrow (hrequest'.trans hrequest.symm)
    exact hR.refl _
  unfold Store.step at hrow'
  split at hrow'
  · next s' h =>
      rcases Store.handle_changes h with h | ⟨now, _, rfl⟩
      · obtain ⟨row'', hrow'', hrequest'', hrel⟩ := hR.changes hr h hrow hrequest
        obtain rfl : row'' = row' := eq_of_key hrow'' hrow' (hrequest''.trans hrequest'.symm)
        exact hrel
      · exact hsame hrow (mem_keep.mp hrow').1
  · exact hsame hrow hrow'

theorem run {old new : CommandResult}
    (hretained : ∀ before, before <+: requests → (s.run before).journal.result? request ≠ none)
    (hold : s.journal.result? request = some old) (hnew : (s.run requests).journal.result? request = some new) :
    R old new := by
  induction requests generalizing s old with
  | nil =>
      obtain rfl := Option.some.inj (hold.symm.trans hnew)
      exact hR.refl _
  | cons r requests ih =>
      obtain ⟨mid, hmid⟩ := Option.ne_none_iff_exists'.mp (hretained [r] (by simp))
      have htail : Follows requests request R := ⟨hR.refl, hR.trans, fun hr => hR.revise (.tail _ hr)⟩
      refine hR.trans (hR.step (.head _) hold hmid) (ih htail (fun before hbefore => ?_) hmid hnew)
      exact hretained (r :: before) (List.cons_prefix_cons.mpr ⟨rfl, hbefore⟩)

end

end Follows

/-- Over requests that do not forget a result, its lifecycle never falls back in rank, once settled it changes only from
uncertain to answered, and the recorded effects only grow. -/
theorem run_result_advances (s : Store P) (requests : List (Request P)) (request : RequestId) {old new : CommandResult}
    (hretained : ∀ before, before <+: requests → (s.run before).journal.result? request ≠ none)
    (hold : s.journal.result? request = some old) (hnew : (s.run requests).journal.result? request = some new) :
    Advances old new :=
  Follows.run ⟨fun p => (Core.refl p).advances, Advances.trans, fun _ h => h.advances⟩ hretained hold hnew

end Runs

section Sample

def sampleCommand : Command Document where
  schemaVersion := .v1Initial
  requestId := "request"
  correlationId := none
  resource := ⟨"bridge", "station", none, none⟩
  operation := .ocpp ⟨.ocpp16j, "TriggerMessage", "urn:OCPP:1.6:2019:12:TriggerMessageRequest", .empty⟩
  expiresAt := 0
  origin := .management "principal"
  admittedAt := 0

def sampleResult (lifecycle : CommandLifecycle) : CommandResult where
  schemaVersion := .v1Initial
  correlationId := none
  resource := sampleCommand.resource
  returnRoute := sampleCommand.returnRoute
  lifecycle := lifecycle
  recordedAt := 0

def sampleAdmission : Request Document :=
  .write none { command := some sampleCommand, commandResult := some (sampleResult .admitted) }

def sampleWrites : List (Request Document) :=
  [.write none { commandResult := some (sampleResult .dispatched) },
    .write none { commandResult := some (sampleResult (.transmissionUncertain "lost")) },
    .write none { commandResult := some (sampleResult .dispatched) }]

theorem sample_result_advances : Advances (sampleResult .admitted) (sampleResult (.transmissionUncertain "lost")) := by
  refine run_result_advances (Store.empty.run [sampleAdmission]) sampleWrites "request" (fun before h => ?_)
    (by decide +kernel) (by decide +kernel)
  have hall : ∀ before ∈ sampleWrites.inits,
      ((Store.empty.run [sampleAdmission]).run before).journal.result? "request" ≠ none := by decide +kernel
  exact hall before ((List.mem_inits before sampleWrites).mpr h)

end Sample

end OcppBridge.Operational
