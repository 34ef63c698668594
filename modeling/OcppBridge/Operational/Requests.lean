import OcppBridge.Operational.Results

namespace OcppBridge.Operational

open Storage Transaction

variable {P : Type} [Wire P]

def commandDeduplicationRetentionSeconds : Int := 7 * 24 * 60 * 60

namespace Command

def validateConfiguration (command : Command P) : Except StorageError Unit :=
  match command.operation with
  | .ocpp operation =>
      if operation.protocol ≠ .ocpp16j then pure ()
      else match operation.action with
        | "ChangeConfiguration" =>
            require (operation.payloadSchema = "urn:uob:ocpp16:ChangeConfigurationReference:1" ∧
                Wire.fieldCount operation.payload = some 2 ∧
                (Wire.text "key" operation.payload).any fun key =>
                  (Wire.text "valueReference" operation.payload).any (validConfigurationChange key))
              ⟨.invalidRequest, "invalid configuration payload"⟩
        | "GetConfiguration" =>
            require (operation.payloadSchema = "urn:OCPP:1.6:2019:12:GetConfigurationRequest" ∧
                (Wire.fieldCount operation.payload = some 0 ∨ (Wire.fieldCount operation.payload = some 1 ∧
                  (Wire.keys operation.payload).any fun keys =>
                    keys.length ≤ 256 && keys.all fun key => key.any (·.toList.length ≤ 50))))
              ⟨.invalidRequest, "invalid configuration payload"⟩
        | _ => pure ()
  | _ => pure ()

def validateEvidence (command : Command P) : Except StorageError Unit := do
  Configuration201.validateCommand command
  LocalAuthorization16.validateCommand command
  Reservation16.validateCommand command
  Reservation201.validateCommand command
  Firmware16.validateCommand command
  Firmware201.validateCommand command
  Diagnostics16.validateCommand command
  Diagnostics201.validateCommand command

def fingerprint (command : Command P) : String := "sha256:" ++ Wire.sha256Hex P (Wire.normalized command)

def retainUntil (command : Command P) : Int :=
  command.admittedAt / nanosecondsPerSecond + commandDeduplicationRetentionSeconds

end Command

/-- One atomic write; its authorization changes, deliveries and records do not touch the modelled tables. -/
structure Write (P : Type) where
  stationSnapshot : Option StationSnapshot := none
  command : Option (Command P) := none
  commandResult : Option CommandResult := none
  chargingProfile201 : Option ProfileReservation := none
  reservation16 : Option (ReservationMutation Nat) := none
  reservationObservations16 : List Reservation16.Observation := []
  reservation201 : Option (ReservationMutation Reservation201.Place) := none
  reservationObservations201 : List Reservation201.Observation := []
  firmware16 : Option (JobMutation Firmware16.Request) := none
  firmwareObservations16 : List Firmware16.Observation := []
  firmware201 : Option (JobMutation Firmware201.Request) := none
  firmwareObservations201 : List Firmware201.Observation := []
  diagnostics16 : Option (JobMutation DiagnosticsVariant16) := none
  diagnosticsObservations16 : List Diagnostics16.Observation := []
  diagnostics201 : Option (JobMutation LogIdentity201) := none
  diagnosticsObservations201 : List Diagnostics201.Observation := []
  journalEvents : List JournalEvent := []

inductive CommandAdmissionOutcome
  | admitted
  | duplicate (result : Option CommandResult)
  deriving DecidableEq, Repr

def Write.encode (write : Write P) : Except StorageError Unit := do
  write.stationSnapshot.forM fun snapshot => do
    let _ ← stationKey snapshot.station
  write.command.forM fun command => do
    command.validateConfiguration
    command.validateEvidence
  write.commandResult.forM (validateResultEvidence P)
  write.journalEvents.forM fun event => do
    let _ ← eventStreamKey event.resource

namespace Store

def admitCommand (store : Store P) (command : Option (Command P)) :
    Except StorageError (Store P × Option CommandAdmissionOutcome) :=
  match command with
  | none => pure (store, none)
  | some command =>
      match store.journal.command? command.requestId with
      | some existing => do
          require (existing.fingerprint = command.fingerprint)
            (conflict "request ID is already associated with another command")
          let result ← store.commandResult command.requestId
          pure (store, some (.duplicate result))
      | none =>
          pure ({ store with
            journal := { store.journal with commands := store.journal.commands.put ⟨command, true⟩ } }, some .admitted)

def interrupted (row : MutationRow) (result : CommandResult) : CommandResult :=
  { result with
    lifecycle := if row.started then
        .transmissionUncertain "profile mutation interrupted; explicit reconciliation required"
      else .rejected ⟨.stationDisconnected, some "profile mutation interrupted before dispatch"⟩
    chargingProfile201 := none }

/-- Fencing ends a live mutation without replaying it and rewrites its result accordingly. -/
def retire (store : Store P) (row : MutationRow) : Except StorageError (Store P) :=
  match store.journal.result? row.request with
  | none => pure { store with profiles := store.profiles.fence row }
  | some payload => do
      let result ← decodeResult P payload
      let store := { store with profiles := store.profiles.fence row }
      store.writeResultValue (interrupted row result) row.request

def retireRequest (store : Store P) (request : RequestId) : Except StorageError (Store P) :=
  match store.profiles.mutations.find? request with
  | none => pure store
  | some row => store.retire row

def recoverProfiles (store : Store P) : Except StorageError (Store P) :=
  (store.profiles.mutations.rows.map (·.request)).foldlM retireRequest store

def admitMutation (store : Store P) (station : StationKey) (reservation : ProfileReservation) :
    Except StorageError (Store P) :=
  match store.profiles.live station, reservation.mutation with
  | none, _ => pure store
  | some row, .clear _ =>
      if row.connection = reservation.connection then .error (conflict "station profile mutation busy")
      else store.retire row
  | some _, .set _ _ => .error (conflict "station profile mutation busy")

def reserveProfile (store : Store P) (reservation : ProfileReservation) : Except StorageError (Store P) := do
  let station ← ProfileLedger.stationScope reservation.station
  let command ← store.journal.owner reservation.requestId
  command.validateEvidence
  require (command.resource.key = reservation.station.key) (conflict "profile reservation station mismatch")
  let store ← store.admitMutation station reservation
  match reservation.mutation with
  | .set footprint fullNative =>
      store.profiles.validateSet station command.resource.resource.isSome (store.snapshots.find? station)
        reservation.requiresBaseline footprint fullNative
  | .clear _ => pure ()
  let profiles ← store.profiles.insert station reservation
  pure { store with profiles }

def writeSnapshot (store : Store P) (snapshot : StationSnapshot) : Except StorageError (Store P) := do
  let profiles ← store.profiles.retireEnded snapshot
  pure { store with profiles, snapshots := store.snapshots.put snapshot }

def writeEvent (store : Store P) (event : JournalEvent) : Except StorageError (Store P) := do
  require (∀ e ∈ store.events, e.eventId ≠ event.eventId ∧
      (e.resource.key, e.resource.resource, e.sequence) ≠ (event.resource.key, event.resource.resource, event.sequence))
    constraintViolation
  pure { store with events := store.events ++ [event] }

def perform {α : Type} (act : Store P → α → Except StorageError (Store P)) (store : Store P) :
    Option α → Except StorageError (Store P)
  | none => pure store
  | some part => act store part

def writeLedgers (store : Store P) (write : Write P) : Except StorageError (Store P) := do
  let store ← perform reserveProfile store write.chargingProfile201
  let store ← perform (fun s m => Drawers.reservation16.run (Reservation16.edition.reserve · m) s) store
    write.reservation16
  let store ← write.reservationObservations16.foldlM
    (fun s o => Drawers.reservation16.run (Reservation16.observe · o) s) store
  let store ← perform (fun s m => Drawers.reservation201.run (Reservation201.edition.reserve · m) s) store
    write.reservation201
  let store ← write.reservationObservations201.foldlM
    (fun s o => Drawers.reservation201.run (Reservation201.observe · o) s) store
  let store ← perform (fun s m => Drawers.firmware16.run (Firmware16.family.reserve · m) s) store write.firmware16
  let store ← write.firmwareObservations16.foldlM (fun s o => Drawers.firmware16.run (Firmware16.observe · o) s) store
  let store ← perform (fun s m => Drawers.firmware201.run (Firmware201.family.reserve · m) s) store write.firmware201
  let store ← write.firmwareObservations201.foldlM
    (fun s o => Drawers.firmware201.run (Firmware201.observe · o) s) store
  let store ← perform (fun s m => Drawers.diagnostics16.run (Diagnostics16.family.reserve · m) s) store
    write.diagnostics16
  let store ← write.diagnosticsObservations16.foldlM
    (fun s o => Drawers.diagnostics16.run (Diagnostics16.observe · o) s) store
  let store ← perform (fun s m => Drawers.diagnostics201.run (Diagnostics201.family.reserve · m) s) store
    write.diagnostics201
  write.diagnosticsObservations201.foldlM (fun s o => Drawers.diagnostics201.run (Diagnostics201.observe · o) s) store

def writeAtomic (store : Store P) (write : Write P) :
    Except StorageError (Store P × Option CommandAdmissionOutcome) := do
  write.encode
  let (store, outcome) ← store.admitCommand write.command
  match outcome with
  | some (.duplicate _) => pure (store, outcome)
  | _ => do
      let store ← store.writeLedgers write
      let store ← perform writeSnapshot store write.stationSnapshot
      let store ← perform writeResult store write.commandResult
      let store ← write.journalEvents.foldlM writeEvent store
      pure (store, outcome)

def pruneCommands (store : Store P) (now : Int) : Store P :=
  let expired (row : CommandRow P) : Bool :=
    !row.unresolved && row.command.retainUntil ≤ now &&
      (store.journal.results.find? row.request).all (!·.reportPending)
  let forgotten (request : RequestId) : Bool := (store.journal.commands.find? request).any expired
  { store with
    journal := {
      commands := store.journal.commands.keep (!expired ·)
      results := store.journal.results.keep (!forgotten ·.request) }
    staging := store.staging.keep (!forgotten ·.request) }

def appendConfigurationObservation (store : Store P) (writeId : RequestId) (observation : ConfigurationObservation) :
    Except StorageError (Store P) := do
  let stored ← store.commandResult writeId
  match stored with
  | none => pure store
  | some result =>
      match result.configuration with
      | some (.write key _) => do
          require (key = observation.key.key ∧ result.request = writeId)
            (integrityFailure "configuration observation write identity mismatch")
          if result.configurationObservations.any (·.readRequestId = observation.readRequestId) then pure store
          else do
            require (result.configurationObservations.length < 128)
              (integrityFailure "configuration observations exceed retained bound")
            let result := { result with
              configurationObservations := result.configurationObservations ++ [observation] }
            pure { store with journal := store.journal.setPayload writeId result }
      | _ => .error (integrityFailure "configuration observation requires a completed write")

def reconcileTrigger (store : Store P) (request : RequestId) (now : UtcTimestamp) : Except StorageError (Store P) := do
  let (journal, _) ← Trigger.reconcile store.journal store.events request now
  pure { store with journal }

def finishDeviceReport (store : Store P) (request : RequestId) (evidence : DeviceModelResult201)
    (lifecycle : Option CommandLifecycle) (now : UtcTimestamp) : Except StorageError (Store P) := do
  let stored ← store.commandResult request
  match stored with
  | none => pure store
  | some result =>
      match result.deviceModel201 with
      | none => .error DeviceModel201.integrity
      | some old => do
          let enrich := DeviceModel201.enrichable old.report && (DeviceModel201.acceptedProgress evidence.report).isSome
          let (staging, evidence) ← DeviceModel201.prepare P store.staging request old evidence
            (lifecycle.getD result.lifecycle)
          if !old.report.isPending ∧ lifecycle = none ∧ !enrich then pure store
          else
            let store := { store with staging }
            store.writeResultValue
              { result with
                deviceModel201 := some evidence
                recordedAt := now
                lifecycle := lifecycle.getD result.lifecycle } request

def interruptDeviceReports (store : Store P) : Store P :=
  let (journal, staging) := DeviceModel201.interrupt store.journal store.staging
  { store with journal, staging }

def finishChargingProfiles (store : Store P) (request : RequestId) (evidence : ChargingProfilesResult201)
    (lifecycle : Option CommandLifecycle) (now : UtcTimestamp) : Except StorageError (Store P) := do
  let stored ← store.commandResult request
  match stored with
  | none => pure store
  | some result =>
      let write (lifecycle : CommandLifecycle) := store.writeResultValue
        { result with
          lifecycle
          chargingProfiles201 := some evidence
          schemaVersion := .v1Schedules201
          recordedAt := now } request
      match lifecycle with
      | some lifecycle =>
          if result.lifecycle = .admitted ∨ result.lifecycle = .dispatched then write lifecycle
          else if result.chargingProfiles201.isNone then pure store
          else write result.lifecycle
      | none =>
          if result.chargingProfiles201.isNone then .error ChargingProfiles201.integrity
          else write result.lifecycle

def startJob (store : Store P) (job : ReleaseJob) : Except StorageError (Store P) := do
  require (store.releaseJobs.length < maxReleaseJobs) ⟨.busy, "stateful job inventory full"⟩
  require (∀ j ∈ store.releaseJobs, j.id ≠ job.id) constraintViolation
  pure { store with releaseJobs := store.releaseJobs ++ [job] }

end Store

end OcppBridge.Operational
