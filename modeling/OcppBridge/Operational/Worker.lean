import OcppBridge.Operational.Requests

namespace OcppBridge.Operational

open Storage Transaction

variable {P : Type} [Wire P]

/-- The requests that can change the modelled tables. What is not modelled of an atomic write can only refuse it. -/
inductive Request (P : Type)
  | write (refusal : Option StorageError) (write : Write P)
  | maintainReservations16 (now : UtcTimestamp) (startup : Bool)
  | maintainReservations201 (now : UtcTimestamp) (startup : Bool)
  | maintainFirmware16 (now : UtcTimestamp) (startup : Bool)
  | maintainFirmware201 (now : UtcTimestamp) (startup : Bool)
  | bindDiagnosticsUpload16 (request : RequestId) (uploadId : String)
  | maintainDiagnostics16 (now : UtcTimestamp) (startup : Bool)
  | bindDiagnosticsUpload201 (request : RequestId) (uploadId : String)
  | maintainDiagnostics201 (now : UtcTimestamp) (startup : Bool)
  | interruptChargingProfiles
  | appendConfigurationObservation (writeId : RequestId) (observation : ConfigurationObservation)
  | reconcileTrigger (request : RequestId) (now : UtcTimestamp)
  | deviceReport (request : RequestId) (evidence : DeviceModelResult201) (lifecycle : Option CommandLifecycle)
      (now : UtcTimestamp)
  | interruptDeviceReports
  | chargingProfilesReport (request : RequestId) (evidence : ChargingProfilesResult201)
      (lifecycle : Option CommandLifecycle) (now : UtcTimestamp)
  | pruneCommands (now : Int)
  | maintainRetention (retained : EventId → Bool)
  | startJob (job : ReleaseJob)
  | finishJob (id : String)

namespace Store

def handle (store : Store P) : Request P → Except StorageError (Store P)
  | .write refusal write => do
      refusal.forM (.error ·)
      let (store, _) ← store.writeAtomic write
      pure store
  | .maintainReservations16 now startup =>
      Drawers.reservation16.run (Reservation16.edition.maintain · now startup) store
  | .maintainReservations201 now startup =>
      Drawers.reservation201.run (Reservation201.edition.maintain · now startup) store
  | .maintainFirmware16 now startup => Drawers.firmware16.run (Firmware16.family.maintain · now startup) store
  | .maintainFirmware201 now startup => Drawers.firmware201.run (Firmware201.family.maintain · now startup) store
  | .bindDiagnosticsUpload16 request uploadId =>
      Drawers.diagnostics16.run (Diagnostics16.family.bindUpload · request uploadId) store
  | .maintainDiagnostics16 now startup => Drawers.diagnostics16.run (Diagnostics16.family.maintain · now startup) store
  | .bindDiagnosticsUpload201 request uploadId =>
      Drawers.diagnostics201.run (Diagnostics201.family.bindUpload · request uploadId) store
  | .maintainDiagnostics201 now startup =>
      Drawers.diagnostics201.run (Diagnostics201.family.maintain · now startup) store
  | .interruptChargingProfiles => store.recoverProfiles
  | .appendConfigurationObservation writeId observation => store.appendConfigurationObservation writeId observation
  | .reconcileTrigger request now => store.reconcileTrigger request now
  | .deviceReport request evidence lifecycle now => store.finishDeviceReport request evidence lifecycle now
  | .interruptDeviceReports => pure store.interruptDeviceReports
  | .chargingProfilesReport request evidence lifecycle now =>
      store.finishChargingProfiles request evidence lifecycle now
  | .pruneCommands now => pure (store.pruneCommands now)
  | .maintainRetention retained => pure { store with events := store.events.filter (retained ·.eventId) }
  | .startJob job => store.startJob job
  | .finishJob id => pure { store with releaseJobs := store.releaseJobs.filter (·.id ≠ id) }

def step (store : Store P) (request : Request P) : Store P :=
  match store.handle request with
  | .ok store => store
  | .error _ => store

def run (store : Store P) (requests : List (Request P)) : Store P := requests.foldl step store

theorem step_rel {R : Store P → Store P → Prop} (hrefl : ∀ s, R s s) {store : Store P} {request : Request P}
    (hok : ∀ s, store.handle request = .ok s → R store s) : R store (store.step request) := by
  unfold step
  split
  · next s hs => exact hok s hs
  · exact hrefl store

end Store

end OcppBridge.Operational
