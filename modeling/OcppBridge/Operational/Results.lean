import OcppBridge.Operational.Store

namespace OcppBridge.Operational

open Keyed Storage Transaction

variable {P : Type} [Wire P]

def CommandLifecycle.rank : CommandLifecycle → Nat
  | admitted => 0
  | dispatched => 1
  | rejected _ | protocolResponse _ _ | transmissionUncertain _ => 2

def JobResult.settled {ι α ρ π τ υ : Type} (old new : Option (JobResult ι α ρ π τ υ)) :
    Option (JobResult ι α ρ π τ υ) :=
  match old, new with
  | some old, some new => some { old with job := new.job }
  | _, new => new

namespace CommandResult

def correlatedReply (previous incoming : CommandResult) : Bool :=
  previous.lifecycle.isTransmissionUncertain && incoming.lifecycle.isProtocolResponse &&
    ((previous.triggerObservation.isSome && incoming.triggerObservation.any (·.nativeResponse.isSome)) ||
      (previous.triggerObservation201.isSome && incoming.triggerObservation201.any (·.nativeResponse.isSome)) ||
      incoming.reservation16.any (·.hasNativeStatus) || incoming.reservation201.any (·.hasNativeStatus))

def outranks (previous incoming : CommandResult) : Bool :=
  incoming.lifecycle.rank < previous.lifecycle.rank ||
    (previous.lifecycle.rank = 2 && incoming.lifecycle.rank = 2 && !correlatedReply previous incoming)

def keepSettled (previous incoming : CommandResult) : CommandResult :=
  { incoming with
    lifecycle := previous.lifecycle
    recordedAt := previous.recordedAt
    schemaVersion := previous.schemaVersion
    configuration := previous.configuration
    compositeSchedule16 := previous.compositeSchedule16
    compositeSchedule201 := previous.compositeSchedule201
    chargingProfile16 := previous.chargingProfile16
    chargingProfile201 := previous.chargingProfile201
    configuration201 := previous.configuration201
    localAuthorization16 := previous.localAuthorization16
    localAuthorization201 := previous.localAuthorization201
    reservation16 := incoming.reservation16 <|> previous.reservation16
    reservation201 := incoming.reservation201 <|> previous.reservation201
    firmware16 := JobResult.settled previous.firmware16 incoming.firmware16
    firmware201 := JobResult.settled previous.firmware201 incoming.firmware201
    diagnostics16 := JobResult.settled previous.diagnostics16 incoming.diagnostics16
    diagnostics201 := JobResult.settled previous.diagnostics201 incoming.diagnostics201 }

variable (P) in
/-- What every workflow preserves of the evidence it recorded. -/
def mergeEvidence (previous incoming : CommandResult) : Except StorageError (CommandResult × Bool) := do
  let incoming ← Trigger.merge previous incoming
  let (incoming, retire) ← Trigger201.merge previous incoming
  let incoming ← DeviceModel201.merge previous incoming
  let incoming ← ChargingProfiles201.merge previous incoming
  let incoming ← LocalAuthorization.merge (P := P) LocalAuthorization16.edition previous incoming
  let incoming ← LocalAuthorization.merge (P := P) LocalAuthorization201.edition previous incoming
  let incoming ← (Reservation16.edition (P := P)).merge previous incoming
  let incoming ← (Reservation201.edition (P := P)).merge previous incoming
  let incoming ← (Firmware16.family (P := P)).merge previous incoming
  let incoming ← (Firmware201.family (P := P)).merge previous incoming
  let incoming ← (Diagnostics16.family (P := P)).merge previous incoming
  let incoming ← (Diagnostics201.family (P := P)).merge previous incoming
  pure (incoming, retire)

variable (P) in
def merge (previous incoming : CommandResult) : Except StorageError (CommandResult × Bool) := do
  require (previous.returnRoute = incoming.returnRoute ∧ previous.resource = incoming.resource)
    (integrityFailure "command result identity changed")
  let (incoming, retire) ← mergeEvidence P previous incoming
  let incoming := { incoming with
    observedEffects := pushAbsent (·.eventId) incoming.observedEffects previous.observedEffects }
  let incoming := if outranks previous incoming then keepSettled previous incoming else incoming
  pure ({ incoming with
    configurationObservations :=
      pushAbsent (·.readRequestId) incoming.configurationObservations previous.configurationObservations }, retire)

def opened (incoming : CommandResult) : CommandResult :=
  { incoming with
    triggerObservation := incoming.triggerObservation.map (·.refreshStatus incoming.recordedAt)
    triggerObservation201 := incoming.triggerObservation201.map (·.refreshStatus incoming.recordedAt) }

variable (P) in
/-- The result to store over `previous`, if there is one. -/
def mergeStored (previous : Option CommandResult) (incoming : CommandResult) :
    Except StorageError (CommandResult × Bool) :=
  match previous with
  | some previous => merge P previous incoming
  | none => pure (incoming.opened, false)

end CommandResult

namespace Store

def finishLedgers (store : Store P) (incoming : CommandResult) : Except StorageError (Store P × CommandResult) := do
  let (store, incoming) ← Drawers.reservation16.finish Reservation16.edition.finish store incoming
  let (store, incoming) ← Drawers.reservation201.finish Reservation201.edition.finish store incoming
  let (store, incoming) ← Drawers.firmware16.finish Firmware16.family.finish store incoming
  let (store, incoming) ← Drawers.firmware201.finish Firmware201.family.finish store incoming
  let (store, incoming) ← Drawers.diagnostics16.finish Diagnostics16.family.finish store incoming
  Drawers.diagnostics201.finish Diagnostics201.family.finish store incoming

/-- A result row is written over the old one. -/
def persistResult (store : Store P) (incoming : CommandResult) (request : RequestId) (retire : Bool) : Store P :=
  let active := match store.journal.results.find? request with
    | some row => row.triggerReconcileActive && !retire
    | none => !retire
  { store with
    journal := {
      results := store.journal.results.put ⟨request, incoming, incoming.reportPending, active⟩
      commands := store.journal.commands.update
        (fun row => if row.request = request then { row with unresolved := incoming.lifecycle.unresolved } else row)
        fun row => by split_ifs <;> rfl } }

def boundResult (incoming : CommandResult) : Except StorageError CommandResult := do
  let incoming ← DeviceModel201.boundOutput P (DeviceModel201.finalizeLifecycle incoming)
  let incoming := ChargingProfiles201.boundOutput P incoming
  ChargingProfiles201.validateStored incoming
  pure incoming

/-- Every family validates against the same transaction before the merged result is persisted. -/
def writeResultValue (store : Store P) (incoming : CommandResult) (request : RequestId) :
    Except StorageError (Store P) := do
  Configuration201.validateStored store.journal incoming
  LocalAuthorization16.validateStored store.journal incoming
  let previous ← store.commandResult request
  let (store, incoming) ← store.finishLedgers incoming
  let (incoming, retire) ← CommandResult.mergeStored P previous incoming
  let incoming ← boundResult (P := P) incoming
  let profiles ← store.profiles.finish incoming
  let store := { store with profiles }
  store.validateStored incoming
  pure (store.persistResult incoming request retire)

def writeResult (store : Store P) (incoming : CommandResult) : Except StorageError (Store P) := do
  let incoming ← decodeResult P incoming
  store.writeResultValue incoming incoming.request

end Store

end OcppBridge.Operational
