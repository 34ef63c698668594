import OcppBridge.Operational.JobMoves
import OcppBridge.Operational.ReservationMoves
import OcppBridge.Operational.Worker

namespace OcppBridge.Operational

open Storage Transaction Relation

variable {P : Type}

namespace Journal

theorem result?_eq_some {j : Journal P} {request : RequestId} {payload : CommandResult} :
    j.result? request = some payload ↔ ∃ row ∈ j.results, row.request = request ∧ row.payload = payload := by
  simp only [result?, Option.map_eq_some_iff, Table.find?_eq_some, and_assoc]

theorem setPayload_of_mem {j : Journal P} {row : ResultRow} (hrow : row ∈ j.results) (payload : CommandResult) :
    j.setPayload row.request payload = { j with results := j.results.replace { row with payload } } := by
  rw [setPayload, Table.find?_eq_some.mpr ⟨hrow, rfl⟩]

end Journal

variable [Wire P]

/-- The ledgers of the store, with the rules that each one obeys. -/
inductive Family : {ρ : Type} → {shape : Shape ρ} → Drawer P shape → Desk.Rules ρ → Prop
  | reservation16 : Family Drawers.reservation16 ReservationEdition.rules
  | reservation201 : Family Drawers.reservation201 ReservationEdition.rules
  | firmware16 : Family Drawers.firmware16 (JobFamily.rules (Firmware16.sound P))
  | firmware201 : Family Drawers.firmware201 (JobFamily.rules fun _ _ => True)
  | diagnostics16 : Family Drawers.diagnostics16 (JobFamily.rules fun _ _ => True)
  | diagnostics201 : Family Drawers.diagnostics201 (JobFamily.rules fun _ _ => True)

variable {ρ : Type} {shape : Shape ρ} {drawer : Drawer P shape} {rules : Desk.Rules ρ}

namespace Family

section

variable (hf : Family drawer rules)

include hf

theorem desk_file (d : Desk P shape) (s : Store P) : drawer.desk (drawer.file d s) = d := by
  cases hf <;> rfl

theorem file_file (d d' : Desk P shape) (s : Store P) :
    drawer.file d' (drawer.file d s) = drawer.file d' s := by
  cases hf <;> rfl

theorem file_desk (s : Store P) : drawer.file (drawer.desk s) s = s := by
  cases hf <;> rfl

theorem file_profiles (d : Desk P shape) (s : Store P) :
    (drawer.file d s).profiles = s.profiles := by
  cases hf <;> rfl

end

end Family

/-- How the ledgers take part in writing a result: each one rewrites the record of the request and publishes it. -/
inductive Publisher : {ρ : Type} → {shape : Shape ρ} → Drawer P shape → Desk.Rules ρ →
    (Table shape.key → Entry ρ → Entry ρ → Prop) → (ρ → CommandResult → CommandResult) → Prop
  | reservation16 : Publisher Drawers.reservation16 ReservationEdition.rules ReservationEdition.owns
      (Reservation16.edition (P := P)).publish
  | reservation201 : Publisher Drawers.reservation201 ReservationEdition.rules ReservationEdition.owns
      (Reservation201.edition (P := P)).publish
  | firmware16 : Publisher Drawers.firmware16 (JobFamily.rules (Firmware16.sound P))
      (fun _ e f => e.record.Quiet f.record) (Firmware16.family (P := P)).publish
  | firmware201 : Publisher Drawers.firmware201 (JobFamily.rules fun _ _ => True)
      (fun _ e f => e.record.Quiet f.record) (Firmware201.family (P := P)).publish
  | diagnostics16 : Publisher Drawers.diagnostics16 (JobFamily.rules fun _ _ => True)
      (fun _ e f => e.record.Quiet f.record) (Diagnostics16.family (P := P)).publish
  | diagnostics201 : Publisher Drawers.diagnostics201 (JobFamily.rules fun _ _ => True)
      (fun _ e f => e.record.Quiet f.record) (Diagnostics201.family (P := P)).publish

theorem Publisher.family {ρ : Type} {shape : Shape ρ} {drawer : Drawer P shape} {rules : Desk.Rules ρ}
    {own : Table shape.key → Entry ρ → Entry ρ → Prop} {publish : ρ → CommandResult → CommandResult}
    (h : Publisher drawer rules own publish) : Family drawer rules := by
  cases h with
  | reservation16 => exact .reservation16
  | reservation201 => exact .reservation201
  | firmware16 => exact .firmware16
  | firmware201 => exact .firmware201
  | diagnostics16 => exact .diagnostics16
  | diagnostics201 => exact .diagnostics201

inductive Publishes : Store P × CommandResult → Store P × CommandResult → Prop
  | intro {s : Store P} {incoming : CommandResult} {ρ : Type} {shape : Shape ρ} {drawer : Drawer P shape}
      {rules : Desk.Rules ρ} {own : Table shape.key → Entry ρ → Entry ρ → Prop}
      {publish : ρ → CommandResult → CommandResult} {d : Desk P shape} {r : ρ}
      (hp : Publisher drawer rules own publish) (h : Desk.Finished rules own incoming.request (drawer.desk s) d r) :
      Publishes (s, incoming) (drawer.file d s, publish r incoming)

inductive Written (s : Store P) (incoming : CommandResult) (request : RequestId) : Store P → Prop
  | intro {mid : Store P} {previous : Option CommandResult} {published merged bounded : CommandResult} {retire : Bool}
      {profiles : ProfileLedger} (hprevious : s.commandResult request = .ok previous)
      (hpublish : ReflTransGen Publishes (s, incoming) (mid, published))
      (hmerge : CommandResult.mergeStored P previous published = .ok (merged, retire))
      (hbound : Store.boundResult (P := P) merged = .ok bounded)
        (hprofiles : mid.profiles.finish bounded = .ok profiles)
      (hvalid : { mid with profiles }.validateStored bounded = .ok ()) :
      Written s incoming request ({ mid with profiles }.persistResult bounded request retire)

/-- How a stored result is edited in place, outside the writing of results. -/
inductive Edit : CommandResult → CommandResult → Prop
  | configuration {result : CommandResult} {observation : ConfigurationObservation}
      (h : result.configuration.isSome) :
      Edit result { result with configurationObservations := result.configurationObservations ++ [observation] }
  | trigger {result : CommandResult} {old new : TriggerObservation} (h : result.triggerObservation = some old) :
      Edit result { result with triggerObservation := some new }
  | trigger201 {result : CommandResult} {old new : TriggerObservation201}
      (h : result.triggerObservation201 = some old) : Edit result { result with triggerObservation201 := some new }
  | deviceModel {result : CommandResult} {old new : DeviceModelResult201} (h : result.deviceModel201 = some old) :
      Edit result { result with deviceModel201 := some new }
  | chargingProfiles {result : CommandResult} {old new : ChargingProfilesResult201}
      (h : result.chargingProfiles201 = some old) : Edit result { result with chargingProfiles201 := some new }
  | none {result : CommandResult} : Edit result result

/-- A stored result that the store itself writes back, with a new lifecycle or new report evidence. -/
structure Rework (stored incoming : CommandResult) : Prop where
  returnRoute : incoming.returnRoute = stored.returnRoute
  resource : incoming.resource = stored.resource
  schemaVersion : incoming.schemaVersion = stored.schemaVersion ∨ incoming.schemaVersion = .v1Schedules201
  observedEffects : incoming.observedEffects = stored.observedEffects
  triggerObservation : incoming.triggerObservation = stored.triggerObservation
  triggerObservation201 : incoming.triggerObservation201 = stored.triggerObservation201

/-- The primitive changes that every request but the forgetting of commands is made of. -/
inductive Change (sent : CommandResult → Prop) : Store P → Store P → Prop
  | outside {s : Store P} (events : List JournalEvent) (releaseJobs : List ReleaseJob) (staging : Staging)
      (snapshots : Table StationSnapshot.key) : Change sent s { s with events, releaseJobs, staging, snapshots }
  | admission {s : Store P} {command : Command P} (h : s.journal.command? command.requestId = none) :
      Change sent s { s with journal := { s.journal with commands := s.journal.commands.put ⟨command, true⟩ } }
  | edit {s : Store P} {row : ResultRow} {payload : CommandResult} {pending active : Bool}
      (hrow : row ∈ s.journal.results) (hdecode : decodeResult P row.payload = .ok row.payload)
      (hedit : Edit row.payload payload) (hactive : active = true → row.triggerReconcileActive = true) :
      Change sent s { s with
        journal := { s.journal with results := s.journal.results.replace ⟨row.request, payload, pending, active⟩ } }
  | fence {s : Store P} {row : MutationRow} (h : row ∈ s.profiles.mutations) :
      Change sent s { s with profiles := s.profiles.fence row }
  | retireEnded {s : Store P} {snapshot : StationSnapshot} {profiles : ProfileLedger}
      (h : s.profiles.retireEnded snapshot = .ok profiles) : Change sent s { s with profiles }
  | reserve {s : Store P} {station : StationKey} {reservation : ProfileReservation} (resourceGrant : Bool)
      {profiles : ProfileLedger}
      (hset : ∀ footprint fullNative, reservation.mutation = .set footprint fullNative →
        s.profiles.validateSet station resourceGrant (s.snapshots.find? station) reservation.requiresBaseline footprint
          fullNative = .ok ())
      (h : s.profiles.insert station reservation = .ok profiles) : Change sent s { s with profiles }
  | move {s : Store P} {ρ : Type} {shape : Shape ρ} {drawer : Drawer P shape} {rules : Desk.Rules ρ} {d : Desk P shape}
      (hf : Family drawer rules) (h : Desk.Move rules (drawer.desk s) d) : Change sent s (drawer.file d s)
  | result {s s' : Store P} {incoming : CommandResult} {request : RequestId}
      (h : s.writeResultValue incoming request = .ok s')
      (hsource : (sent incoming ∧ request = incoming.request) ∨
        ∃ stored, s.journal.result? request = some stored ∧ Rework stored incoming) :
      Change sent s s'

abbrev Changes (sent : CommandResult → Prop) : Store P → Store P → Prop := ReflTransGen (Change sent)

def Request.brings : Request P → CommandResult → Prop
  | .write _ w, incoming => w.commandResult = some incoming
  | _, _ => False

variable {s s' : Store P} {sent : CommandResult → Prop}

namespace Store

section Reading

variable {result : CommandResult}

theorem decodeResult_eq_ok {payload : CommandResult} :
    decodeResult P payload = .ok result ↔ validateResultEvidence P payload = .ok () ∧ payload = result := by
  simp only [decodeResult, bind_eq_ok, pure_eq_ok]
  constructor
  · rintro ⟨_, hvalid, rfl⟩
    exact ⟨hvalid, rfl⟩
  · rintro ⟨hvalid, rfl⟩
    exact ⟨_, hvalid, rfl⟩

theorem decodeStoredResult_eq_ok {payload : CommandResult} {request : RequestId} :
    s.decodeStoredResult payload request = .ok result ↔
      decodeResult P payload = .ok payload ∧ payload.request = request ∧ s.validateStored payload = .ok () ∧
        payload = result := by
  simp only [decodeStoredResult, bind_eq_ok, require_eq_ok, pure_eq_ok]
  constructor
  · rintro ⟨_, hdecode, _, hrequest, _, hvalid, rfl⟩
    obtain ⟨_, rfl⟩ := decodeResult_eq_ok.mp hdecode
    exact ⟨hdecode, hrequest, hvalid, rfl⟩
  · rintro ⟨hdecode, hrequest, hvalid, rfl⟩
    exact ⟨payload, hdecode, (), hrequest, (), hvalid, rfl⟩

theorem commandResult_eq_some {request : RequestId} :
    s.commandResult request = .ok (some result) ↔
      s.journal.result? request = some result ∧ s.decodeStoredResult result request = .ok result := by
  unfold commandResult
  split
  · next hnone => simp [hnone]
  · next payload hsome =>
      simp only [bind_eq_ok, pure_eq_ok, Option.some.injEq, hsome]
      constructor
      · rintro ⟨_, hdecode, rfl⟩
        obtain ⟨_, _, _, rfl⟩ := decodeStoredResult_eq_ok.mp hdecode
        exact ⟨rfl, hdecode⟩
      · rintro ⟨rfl, hdecode⟩
        exact ⟨_, hdecode, rfl⟩

end Reading

section Ledgers

theorem moves_changes (hf : Family drawer rules) {d : Desk P shape} (h : Desk.Moves rules (drawer.desk s) d) :
    Changes sent s (drawer.file d s) := by
  induction h with
  | refl => rw [hf.file_desk]
  | @tail d d' _ hmove ih =>
      refine ih.tail ?_
      rw [← hf.file_file d d' s]
      exact .move hf (by rw [hf.desk_file]; exact hmove)

theorem run_changes (hf : Family drawer rules) {act : Desk P shape → Except StorageError (Desk P shape)}
    (hact : ∀ d d', act d = .ok d' → Desk.Moves rules d d') (h : drawer.run act s = .ok s') : Changes sent s s' := by
  simp only [Drawer.run, bind_eq_ok, pure_eq_ok] at h
  obtain ⟨d, hd, rfl⟩ := h
  exact moves_changes hf (hact _ _ hd)

end Ledgers

section Results

variable {own : Table shape.key → Entry ρ → Entry ρ → Prop} {publish : ρ → CommandResult → CommandResult}
  {incoming : CommandResult} {published : CommandResult}

theorem finish_publishes (hp : Publisher drawer rules own publish)
    {act : Desk P shape → CommandResult → Except StorageError (Desk P shape × CommandResult)}
    (hact : ∀ {d d' : Desk P shape} {out : CommandResult}, act d incoming = .ok (d', out) →
      (d' = d ∧ out = incoming) ∨
        ∃ r, Desk.Finished rules own incoming.request d d' r ∧ out = publish r incoming)
    (h : drawer.finish act s incoming = .ok (s', published)) :
    ReflTransGen Publishes (s, incoming) (s', published) := by
  simp only [Drawer.finish, bind_eq_ok, pure_eq_ok, Prod.mk.injEq] at h
  obtain ⟨⟨d, out⟩, hd, rfl, rfl⟩ := h
  rcases hact hd with ⟨rfl, rfl⟩ | ⟨r, hfinished, rfl⟩
  · rw [hp.family.file_desk]
  · exact .single (.intro hp hfinished)

theorem finish_quietly {κ δ ι α β π τ υ : Type} [DecidableEq π] {family : JobFamily P κ δ ι α β π τ υ}
    {rules : Desk.Rules (JobRecord κ π τ υ)} (hrules : family.Admits rules) {d d' : family.Records}
    (h : family.finish d incoming = .ok (d', published)) :
    (d' = d ∧ published = incoming) ∨
      ∃ r, Desk.Finished rules (fun _ e f => e.record.Quiet f.record) incoming.request d d' r ∧
        published = family.publish r incoming := by
  rcases JobFamily.finish_eq_ok hrules h with hsame | ⟨r, hfinished, hpublished⟩
  · exact .inl hsame
  · exact .inr ⟨r, hfinished.imp fun _ _ _ hcalm => hcalm.toQuiet, hpublished⟩

theorem finishLedgers_publishes (h : s.finishLedgers incoming = .ok (s', published)) :
    ReflTransGen Publishes (s, incoming) (s', published) := by
  simp only [finishLedgers, bind_eq_ok] at h
  obtain ⟨⟨s₁, i₁⟩, h₁, ⟨s₂, i₂⟩, h₂, ⟨s₃, i₃⟩, h₃, ⟨s₄, i₄⟩, h₄, ⟨s₅, i₅⟩, h₅, h₆⟩ := h
  calc ReflTransGen Publishes (s, incoming) (s₁, i₁) :=
      finish_publishes .reservation16 ReservationEdition.finish_eq_ok h₁
    ReflTransGen Publishes (s₁, i₁) (s₂, i₂) := finish_publishes .reservation201 ReservationEdition.finish_eq_ok h₂
    ReflTransGen Publishes (s₂, i₂) (s₃, i₃) :=
      finish_publishes .firmware16 (finish_quietly Firmware16.admits) h₃
    ReflTransGen Publishes (s₃, i₃) (s₄, i₄) := finish_publishes .firmware201 (finish_quietly JobFamily.plain_admits) h₄
    ReflTransGen Publishes (s₄, i₄) (s₅, i₅) :=
      finish_publishes .diagnostics16 (finish_quietly JobFamily.plain_admits) h₅
    ReflTransGen Publishes (s₅, i₅) (s', published) :=
      finish_publishes .diagnostics201 (finish_quietly JobFamily.plain_admits) h₆

theorem writeResultValue_written {request : RequestId} (h : s.writeResultValue incoming request = .ok s') :
    Written s incoming request s' := by
  simp only [writeResultValue, bind_eq_ok] at h
  obtain ⟨_, _, _, _, previous, hprevious, ⟨mid, published⟩, hpublish, ⟨merged, retire⟩, hmerge, bounded,
    hbound, profiles, hprofiles, _, hvalid, h⟩ := h
  cases h
  exact .intro hprevious (finishLedgers_publishes hpublish) hmerge hbound hprofiles hvalid

end Results

section Parts

theorem perform_changes {α : Type} {act : Store P → α → Except StorageError (Store P)} {part : Option α}
    (hact : ∀ {s s' a}, part = some a → act s a = .ok s' → Changes sent s s') (h : perform act s part = .ok s') :
    Changes sent s s' := by
  cases part with
  | none =>
      rw [perform, pure_eq_ok] at h
      exact h ▸ .refl
  | some part => exact hact rfl h

theorem foldlM_changes {α : Type} {act : Store P → α → Except StorageError (Store P)}
    (hact : ∀ {s s' part}, act s part = .ok s' → Changes sent s s') {parts : List α} (h : parts.foldlM act s = .ok s') :
    Changes sent s s' := by
  refine foldlM_rel (R := Changes sent) (fun _ => .refl) (fun _ _ _ => .trans) parts ?_ h
  intro part _ s s' hpart
  exact hact hpart

theorem admit_changes {command : Option (Command P)} {outcome : Option CommandAdmissionOutcome}
    (h : s.admitCommand command = .ok (s', outcome)) : Changes sent s s' := by
  unfold admitCommand at h
  split at h
  · simp only [pure_eq_ok, Prod.mk.injEq] at h
    exact h.1 ▸ .refl
  · split at h
    · simp only [bind_eq_ok, pure_eq_ok, Prod.mk.injEq] at h
      obtain ⟨_, _, _, _, rfl, _⟩ := h
      exact .refl
    · next hnone =>
        simp only [pure_eq_ok, Prod.mk.injEq] at h
        exact h.1 ▸ .single (.admission hnone)

theorem retire_changes {row : MutationRow} (hrow : row ∈ s.profiles.mutations) (h : s.retire row = .ok s') :
    Changes sent s s' := by
  unfold retire at h
  split at h
  · cases h
    exact .single (.fence hrow)
  · next payload hpayload =>
      simp only [bind_eq_ok] at h
      obtain ⟨_, hdecode, h⟩ := h
      obtain ⟨_, rfl⟩ := decodeResult_eq_ok.mp hdecode
      exact .head (.fence hrow) (.single (.result h (.inr ⟨payload, hpayload, rfl, rfl, .inl rfl, rfl, rfl, rfl⟩)))

theorem recoverProfiles_changes (h : s.recoverProfiles = .ok s') : Changes sent s s' := by
  refine foldlM_changes ?_ h
  intro s s' request hs
  unfold retireRequest at hs
  split at hs
  · cases hs
    exact .refl
  · next row hfind => exact retire_changes (Table.find?_eq_some.mp hfind).1 hs

theorem admitMutation_changes {station : StationKey} {reservation : ProfileReservation}
    (h : s.admitMutation station reservation = .ok s') : Changes sent s s' := by
  unfold admitMutation at h
  split at h
  · cases h
    exact .refl
  · next row _ hlive _ =>
      split_ifs at h
      exact retire_changes (List.mem_of_find?_eq_some hlive) h
  · cases h

theorem reserveProfile_changes {reservation : ProfileReservation} (h : s.reserveProfile reservation = .ok s') :
    Changes sent s s' := by
  simp only [reserveProfile, bind_eq_ok, require_eq_ok] at h
  obtain ⟨station, _, command, _, _, _, _, _, admitted, hgranted, h⟩ := h
  refine (admitMutation_changes hgranted).trans (.single ?_)
  cases hmutation : reservation.mutation with
  | set footprint fullNative =>
      simp only [hmutation, bind_eq_ok, pure_eq_ok] at h
      obtain ⟨_, hvalid, profiles, hinsert, rfl⟩ := h
      refine .reserve command.resource.resource.isSome ?_ hinsert
      rintro f n hset
      obtain ⟨rfl, rfl⟩ := ProfileMutation.set.inj (hmutation.symm.trans hset)
      exact hvalid
  | clear request =>
      simp only [hmutation, bind_eq_ok, pure_eq_ok] at h
      obtain ⟨profiles, hinsert, rfl⟩ := h
      refine .reserve command.resource.resource.isSome ?_ hinsert
      intro f n hset
      cases hmutation.symm.trans hset

theorem writeSnapshot_changes {snapshot : StationSnapshot} (h : s.writeSnapshot snapshot = .ok s') :
    Changes sent s s' := by
  simp only [writeSnapshot, bind_eq_ok, pure_eq_ok] at h
  obtain ⟨profiles, hretire, rfl⟩ := h
  exact .head (.retireEnded hretire) (.single (.outside s.events s.releaseJobs s.staging (s.snapshots.put snapshot)))

theorem writeEvent_changes {event : JournalEvent} (h : s.writeEvent event = .ok s') : Changes sent s s' := by
  simp only [writeEvent, bind_eq_ok, pure_eq_ok] at h
  obtain ⟨_, _, rfl⟩ := h
  exact .single (.outside (s.events ++ [event]) s.releaseJobs s.staging s.snapshots)

theorem writeResult_changes {incoming : CommandResult} (hsent : sent incoming) (h : s.writeResult incoming = .ok s') :
    Changes sent s s' := by
  simp only [writeResult, bind_eq_ok] at h
  obtain ⟨_, hdecode, h⟩ := h
  obtain ⟨_, rfl⟩ := decodeResult_eq_ok.mp hdecode
  exact .single (.result h (.inl ⟨hsent, rfl⟩))

end Parts

section Requests

theorem writeLedgers_changes {write : Write P} (h : s.writeLedgers write = .ok s') : Changes sent s s' := by
  simp only [writeLedgers, bind_eq_ok] at h
  obtain ⟨s₀, h₀, s₁, h₁, s₂, h₂, s₃, h₃, s₄, h₄, s₅, h₅, s₆, h₆, s₇, h₇, s₈, h₈, s₉, h₉, s₁₀, h₁₀, s₁₁, h₁₁,
    h₁₂⟩ := h
  calc Changes sent s s₀ := perform_changes (fun _ => reserveProfile_changes) h₀
    Changes sent s₀ s₁ :=
      perform_changes (fun _ => run_changes .reservation16 fun _ _ => ReservationEdition.reserve_moves) h₁
    Changes sent s₁ s₂ := foldlM_changes (run_changes .reservation16 fun _ _ => Reservation16.observe_moves) h₂
    Changes sent s₂ s₃ :=
      perform_changes (fun _ => run_changes .reservation201 fun _ _ => ReservationEdition.reserve_moves) h₃
    Changes sent s₃ s₄ := foldlM_changes (run_changes .reservation201 fun _ _ => Reservation201.observe_moves) h₄
    Changes sent s₄ s₅ :=
      perform_changes (fun _ => run_changes .firmware16 fun _ _ => JobFamily.reserve_moves Firmware16.admits) h₅
    Changes sent s₅ s₆ := foldlM_changes (run_changes .firmware16 fun _ _ => Firmware16.observe_moves) h₆
    Changes sent s₆ s₇ :=
      perform_changes (fun _ => run_changes .firmware201 fun _ _ => JobFamily.reserve_moves JobFamily.plain_admits) h₇
    Changes sent s₇ s₈ := foldlM_changes (run_changes .firmware201 fun _ _ => Firmware201.observe_moves) h₈
    Changes sent s₈ s₉ :=
      perform_changes (fun _ => run_changes .diagnostics16 fun _ _ => JobFamily.reserve_moves JobFamily.plain_admits) h₉
    Changes sent s₉ s₁₀ := foldlM_changes (run_changes .diagnostics16 fun _ _ => Diagnostics16.observe_moves) h₁₀
    Changes sent s₁₀ s₁₁ :=
      perform_changes (fun _ => run_changes .diagnostics201 fun _ _ =>
        JobFamily.reserve_moves JobFamily.plain_admits) h₁₁
    Changes sent s₁₁ s' := foldlM_changes (run_changes .diagnostics201 fun _ _ => Diagnostics201.observe_moves) h₁₂

theorem writeAtomic_changes {write : Write P} {outcome : Option CommandAdmissionOutcome}
    (hsent : ∀ incoming, write.commandResult = some incoming → sent incoming)
    (h : s.writeAtomic write = .ok (s', outcome)) : Changes sent s s' := by
  simp only [writeAtomic, bind_eq_ok] at h
  obtain ⟨_, _, ⟨admitted, _⟩, hgranted, h⟩ := h
  refine (admit_changes hgranted).trans ?_
  simp only at h
  split at h
  · simp only [pure_eq_ok, Prod.mk.injEq] at h
    exact h.1 ▸ .refl
  · simp only [bind_eq_ok, pure_eq_ok, Prod.mk.injEq] at h
    obtain ⟨s₁, h₁, s₂, h₂, s₃, h₃, s₄, h₄, rfl, _⟩ := h
    calc Changes sent admitted s₁ := writeLedgers_changes h₁
      Changes sent s₁ s₂ := perform_changes (fun _ => writeSnapshot_changes) h₂
      Changes sent s₂ s₃ := perform_changes (fun hpart => writeResult_changes (hsent _ hpart)) h₃
      Changes sent s₃ s₄ := foldlM_changes writeEvent_changes h₄

theorem appendConfigurationObservation_changes {writeId : RequestId} {observation : ConfigurationObservation}
    (h : s.appendConfigurationObservation writeId observation = .ok s') : Changes sent s s' := by
  simp only [appendConfigurationObservation, bind_eq_ok] at h
  obtain ⟨stored, hstored, h⟩ := h
  split at h
  · cases h
    exact .refl
  · next result =>
      obtain ⟨hresult, hdecode⟩ := commandResult_eq_some.mp hstored
      obtain ⟨row, hrow, rfl, rfl⟩ := Journal.result?_eq_some.mp hresult
      split at h
      · next key value hconfiguration =>
          simp only [bind_eq_ok, require_eq_ok] at h
          obtain ⟨_, _, h⟩ := h
          split_ifs at h
          · cases h
            exact .refl
          · simp only [bind_eq_ok, pure_eq_ok] at h
            obtain ⟨_, _, rfl⟩ := h
            rw [Journal.setPayload_of_mem hrow]
            exact .single
              (.edit hrow (decodeStoredResult_eq_ok.mp hdecode).1 (.configuration (by simp [hconfiguration])) id)
      · cases h

variable {request : RequestId} {now : UtcTimestamp}

theorem reconcileTrigger_changes (h : s.reconcileTrigger request now = .ok s') : Changes sent s s' := by
  simp only [reconcileTrigger, bind_eq_ok, pure_eq_ok] at h
  obtain ⟨⟨journal, _⟩, h, rfl⟩ := h
  unfold Trigger.reconcile at h
  split at h
  · cases h
    exact .refl
  · next row hfind =>
      have hrow := (Table.find?_eq_some.mp hfind).1
      -- Both editions decode the row and, while it is active, settle it with the evidence found.
      split_ifs at h
      all_goals
        simp only [Trigger201.reconcile, Trigger.reconcile16, bind_eq_ok, require_eq_ok, pure_eq_ok, Prod.mk.injEq] at h
        obtain ⟨⟨_, _⟩, ⟨stored, hdecode, _, _, _, _, h⟩, rfl, _⟩ := h
        obtain ⟨_, rfl⟩ := decodeResult_eq_ok.mp hdecode
        split at h
        · cases h
          exact .refl
        · next old hold =>
            split_ifs at h with hactive
            · cases h
              exact .refl
            · simp only [bind_eq_ok, require_eq_ok] at h
              obtain ⟨_, _, observed, _, h⟩ := h
              split_ifs at h
              · cases h
                refine .single (.edit hrow hdecode ?_ fun _ => by simpa using hactive)
                first
                  | exact .trigger hold
                  | exact .trigger201 hold
              · cases h
                exact .refl

theorem finishDeviceReport_changes {evidence : DeviceModelResult201} {lifecycle : Option CommandLifecycle}
    (h : s.finishDeviceReport request evidence lifecycle now = .ok s') : Changes sent s s' := by
  simp only [finishDeviceReport, bind_eq_ok] at h
  obtain ⟨stored, hstored, h⟩ := h
  split at h
  · cases h
    exact .refl
  · next result =>
      have hresult := (commandResult_eq_some.mp hstored).1
      split at h
      · cases h
      · simp only [bind_eq_ok] at h
        obtain ⟨⟨staging, evidence⟩, _, h⟩ := h
        split_ifs at h
        · cases h
          exact .refl
        · exact .head (.outside s.events s.releaseJobs staging s.snapshots)
            (.single (.result h (.inr ⟨result, hresult, rfl, rfl, .inl rfl, rfl, rfl, rfl⟩)))

theorem finishChargingProfiles_changes {evidence : ChargingProfilesResult201} {lifecycle : Option CommandLifecycle}
    (h : s.finishChargingProfiles request evidence lifecycle now = .ok s') : Changes sent s s' := by
  simp only [finishChargingProfiles, bind_eq_ok] at h
  obtain ⟨stored, hstored, h⟩ := h
  split at h
  · cases h
    exact .refl
  · next result =>
      have hresult := (commandResult_eq_some.mp hstored).1
      split at h
      · split_ifs at h
        · exact .single (.result h (.inr ⟨result, hresult, rfl, rfl, .inr rfl, rfl, rfl, rfl⟩))
        · cases h
          exact .refl
        · exact .single (.result h (.inr ⟨result, hresult, rfl, rfl, .inr rfl, rfl, rfl, rfl⟩))
      · split_ifs at h
        exact .single (.result h (.inr ⟨result, hresult, rfl, rfl, .inr rfl, rfl, rfl, rfl⟩))

theorem interruptRow_changes {row : ResultRow} {journal : Journal P} {staging : Staging}
    (hrow : row ∈ s.journal.results)
    (h : DeviceModel201.interruptRow s.journal s.staging row = .ok (journal, staging)) :
    Changes sent s { s with journal, staging } := by
  simp only [DeviceModel201.interruptRow, bind_eq_ok, pure_eq_ok, Prod.mk.injEq] at h
  obtain ⟨_, hdecode, payload, hinterrupt, rfl, rfl⟩ := h
  obtain ⟨_, rfl⟩ := decodeResult_eq_ok.mp hdecode
  have hedit : Edit row.payload payload := by
    unfold DeviceModel201.interruptResult at hinterrupt
    split at hinterrupt
    · next old hold =>
        cases hinterrupt
        exact .deviceModel hold
    · unfold ChargingProfiles201.interrupt at hinterrupt
      split at hinterrupt
      · cases hinterrupt
      · next old hold =>
          rw [pure_eq_ok] at hinterrupt
          split_ifs at hinterrupt
          · exact hinterrupt ▸ .chargingProfiles hold
          · exact hinterrupt ▸ .none
  exact .head (.edit hrow hdecode hedit id) (.single (.outside s.events s.releaseJobs _ s.snapshots))

theorem interruptLoop_changes (fuel : Nat) {journal : Journal P} {staging : Staging}
    (h : DeviceModel201.interruptLoop fuel s.journal s.staging = (journal, staging)) :
    Changes sent s { s with journal, staging } := by
  induction fuel generalizing s with
  | zero =>
      obtain ⟨rfl, rfl⟩ := Prod.mk.inj h
      exact .refl
  | succ fuel ih =>
      unfold DeviceModel201.interruptLoop at h
      split at h
      · obtain ⟨rfl, rfl⟩ := Prod.mk.inj h
        exact .refl
      · next row hnext =>
          have hmem := List.mem_of_mem_head? hnext
          rw [List.mem_mergeSort, List.mem_filter] at hmem
          split at h
          · obtain ⟨rfl, rfl⟩ := Prod.mk.inj h
            exact .refl
          · next j st hinterrupt =>
              exact (interruptRow_changes hmem.1 hinterrupt).trans (ih (s := { s with journal := j, staging := st }) h)

theorem handle_changes {request : Request P} (h : s.handle request = .ok s') :
    Changes request.brings s s' ∨ ∃ now, request = .pruneCommands now ∧ s' = s.pruneCommands now := by
  cases request with
  | pruneCommands now =>
      rw [handle, pure_eq_ok] at h
      exact .inr ⟨now, rfl, h.symm⟩
  | write refusal write =>
      simp only [handle, bind_eq_ok, pure_eq_ok] at h
      obtain ⟨_, _, ⟨_, _⟩, h, rfl⟩ := h
      exact .inl (writeAtomic_changes (fun _ => id) h)
  | maintainReservations16 now startup =>
      exact .inl (run_changes .reservation16 (fun _ _ => ReservationEdition.maintain_moves) h)
  | maintainReservations201 now startup =>
      exact .inl (run_changes .reservation201 (fun _ _ => ReservationEdition.maintain_moves) h)
  | maintainFirmware16 now startup =>
      exact .inl (run_changes .firmware16 (fun _ _ => JobFamily.maintain_moves Firmware16.admits) h)
  | maintainFirmware201 now startup =>
      exact .inl (run_changes .firmware201 (fun _ _ => JobFamily.maintain_moves JobFamily.plain_admits) h)
  | bindDiagnosticsUpload16 request uploadId =>
      exact .inl (run_changes .diagnostics16 (fun _ _ => JobFamily.bindUpload_moves JobFamily.plain_admits) h)
  | maintainDiagnostics16 now startup =>
      exact .inl (run_changes .diagnostics16 (fun _ _ => JobFamily.maintain_moves JobFamily.plain_admits) h)
  | bindDiagnosticsUpload201 request uploadId =>
      exact .inl (run_changes .diagnostics201 (fun _ _ => JobFamily.bindUpload_moves JobFamily.plain_admits) h)
  | maintainDiagnostics201 now startup =>
      exact .inl (run_changes .diagnostics201 (fun _ _ => JobFamily.maintain_moves JobFamily.plain_admits) h)
  | interruptChargingProfiles => exact .inl (recoverProfiles_changes h)
  | appendConfigurationObservation writeId observation => exact .inl (appendConfigurationObservation_changes h)
  | reconcileTrigger request now => exact .inl (reconcileTrigger_changes h)
  | deviceReport request evidence lifecycle now => exact .inl (finishDeviceReport_changes h)
  | interruptDeviceReports =>
      rw [handle, pure_eq_ok] at h
      exact .inl (h ▸ interruptLoop_changes _ rfl)
  | chargingProfilesReport request evidence lifecycle now => exact .inl (finishChargingProfiles_changes h)
  | maintainRetention retained =>
      rw [handle, pure_eq_ok] at h
      exact .inl (h ▸ .single (.outside _ s.releaseJobs s.staging s.snapshots))
  | startJob job =>
      simp only [handle, startJob, bind_eq_ok, pure_eq_ok] at h
      obtain ⟨_, _, _, _, rfl⟩ := h
      exact .inl (.single (.outside s.events _ s.staging s.snapshots))
  | finishJob id =>
      rw [handle, pure_eq_ok] at h
      exact .inl (h ▸ .single (.outside s.events _ s.staging s.snapshots))

theorem run_rel {R : Store P → Store P → Prop} (hrefl : ∀ s, R s s) (htrans : ∀ {s t u}, R s t → R t u → R s u)
    (hchange : ∀ {sent s s'}, Change sent s s' → R s s') (hprune : ∀ s now, R s (s.pruneCommands now)) (s : Store P)
    (requests : List (Request P)) : R s (s.run requests) := by
  have hchanges : ∀ {sent s s'}, Changes sent s s' → R s s' := by
    intro sent s s' h
    induction h with
    | refl => exact hrefl _
    | tail _ hstep ih => exact htrans ih (hchange hstep)
  induction requests generalizing s with
  | nil => exact hrefl s
  | cons request requests ih =>
      refine htrans (step_rel hrefl fun s' h => ?_) (ih (s.step request))
      rcases handle_changes h with h | ⟨now, _, rfl⟩
      · exact hchanges h
      · exact hprune s now

end Requests

end Store

section Views

structure SameLedgers (s s' : Store P) : Prop where
  reservations16 : s'.reservations16 = s.reservations16
  reservations201 : s'.reservations201 = s.reservations201
  firmware16 : s'.firmware16 = s.firmware16
  firmware201 : s'.firmware201 = s.firmware201
  diagnostics16 : s'.diagnostics16 = s.diagnostics16
  diagnostics201 : s'.diagnostics201 = s.diagnostics201

variable {R : Store P → Store P → Prop}

theorem Change.ledgers_rel (htrans : ∀ {s t u}, R s t → R t u → R s u) (hsame : ∀ {s s'}, SameLedgers s s' → R s s')
    (hmove : ∀ {s : Store P} {ρ : Type} {shape : Shape ρ} {drawer : Drawer P shape} {rules : Desk.Rules ρ}
      {d : Desk P shape}, Family drawer rules → Desk.Move rules (drawer.desk s) d → R s (drawer.file d s))
    (hpublish : ∀ {s s' i i'}, Publishes (s, i) (s', i') → R s s') (h : Change sent s s') : R s s' := by
  cases h with
  | outside | admission | edit | fence | retireEnded | reserve => exact hsame ⟨rfl, rfl, rfl, rfl, rfl, rfl⟩
  | move hf h => exact hmove hf h
  | result h _ =>
      cases Store.writeResultValue_written h with
      | intro _ hpublishes _ _ _ _ =>
          have hmid : ∀ {a b}, ReflTransGen Publishes a b → R a.1 b.1 := by
            intro a b hab
            induction hab with
            | refl => exact hsame ⟨rfl, rfl, rfl, rfl, rfl, rfl⟩
            | tail _ hlast ih => exact htrans ih (hpublish hlast)
          exact htrans (hmid hpublishes) (hsame ⟨rfl, rfl, rfl, rfl, rfl, rfl⟩)

end Views

end OcppBridge.Operational
