import OcppBridge.Operational.Recovery

namespace OcppBridge.Operational

open Storage Transaction

variable {P : Type}

structure CommandRequest (P : Type) where
  requestId : RequestId
  correlationId : Option String
  resource : ResourceRef
  operation : CommandOperation P
  expiresAt : UtcTimestamp
  deriving DecidableEq, Repr

/-- A request with the origin that the adapter's port attached to it. -/
structure ExternalCommand (P : Type) where
  request : CommandRequest P
  origin : AuthenticatedCommandOrigin
  deriving DecidableEq, Repr

def ExternalCommand.admitAt (external : ExternalCommand P) (admittedAt : UtcTimestamp) : Command P where
  schemaVersion := .v1Initial
  requestId := external.request.requestId
  correlationId := external.request.correlationId
  resource := external.request.resource
  operation := external.request.operation
  expiresAt := external.request.expiresAt
  origin := external.origin
  admittedAt

inductive Operation
  | start
  | stop
  | setChargingLimit
  | changeAvailability
  | reset
  | unlockConnector
  | protocolAction (protocol : ProtocolEdition) (action : String)
  deriving DecidableEq, Repr

def CommandOperation.requiredCapability : CommandOperation P → Operation
  | start _ => .start
  | stop _ => .stop
  | setChargingLimit _ => .setChargingLimit
  | ocpp operation => .protocolAction operation.protocol operation.action

section Port

inductive CommandRefusal
  | originMismatch
  | notAdvertised
  | encodingFailed
  | tooLarge
  | capacity
  deriving DecidableEq, Repr

structure GuardedCommandPort where
  targetInstanceId : String
  supportedOperations : List Operation
  maximumCommandBytes : Nat
  deriving DecidableEq, Repr

def AuthenticatedCommandOrigin.isTarget (target : String) : AuthenticatedCommandOrigin → Bool
  | .target targetInstanceId _ => targetInstanceId = target
  | _ => false

/-- `encoded` is the size of the command as JSON, `permits` how many commands may still be in flight. -/
def GuardedCommandPort.submit (port : GuardedCommandPort) (encoded : Option Nat) (permits : Nat)
    (external : ExternalCommand P) : Except CommandRefusal Unit := do
  require (external.origin.isTarget port.targetInstanceId = true) .originMismatch
  require (external.request.operation.requiredCapability ∈ port.supportedOperations) .notAdvertised
  require (encoded ≠ none) .encodingFailed
  require (∀ size ∈ encoded, size ≤ port.maximumCommandBytes) .tooLarge
  require (0 < permits) .capacity

end Port

section Coordinator

/-- The window of a trigger expectation, started at its dispatch. -/
inductive TriggerWindow
  | ocpp16 (observation : TriggerObservation)
  | ocpp201 (observation : TriggerObservation201)
  deriving DecidableEq, Repr

def TriggerWindow.start (window : TriggerWindow) (result : CommandResult) : CommandResult :=
  match window with
  | ocpp16 observation => { result with schemaVersion := .v1Trigger, triggerObservation := some observation }
  | ocpp201 observation => { result with schemaVersion := .v1Trigger201, triggerObservation201 := some observation }

/-- Only a native trigger has an expectation; `prepare` is what the session makes of its payload. -/
def Command.triggerExpectation (prepare : PrivilegedOcppOperation P → Option TriggerWindow) (command : Command P) :
    Option TriggerWindow :=
  match command.operation with
  | .ocpp operation => if operation.action = "TriggerMessage" then prepare operation else none
  | _ => none

inductive DispatchEvidence
  | configuration (evidence : ConfigurationResult)
  | compositeSchedule16 (evidence : Encoded)
  | deviceModel201 (evidence : DeviceModelResult201)
  | chargingProfile16 (evidence : Encoded)
  | chargingProfile201 (evidence : ChargingProfileResult201)
  | configuration201 (evidence : ConfigurationResult201)
  | localAuthorization16 (evidence : LocalAuthorizationResult16)
  | localAuthorization201 (evidence : LocalAuthorizationResult201)
  | reservation16 (evidence : ReservationResult16)
  | reservation201 (evidence : ReservationResult201)
  | compositeSchedule201 (evidence : Encoded)
  | chargingProfiles201 (evidence : ChargingProfilesResult201)
  | firmware16 (evidence : FirmwareResult16)
  | firmware201 (evidence : FirmwareResult201)
  | diagnostics16 (evidence : DiagnosticsResult16)
  | diagnostics201 (evidence : DiagnosticsResult201)
  deriving DecidableEq, Repr

def DispatchEvidence.attach (result : CommandResult) : DispatchEvidence → CommandResult
  | configuration e => { result with schemaVersion := .v1Configuration, configuration := some e }
  | compositeSchedule16 e => { result with schemaVersion := .v1CompositeSchedule16, compositeSchedule16 := some e }
  | deviceModel201 e => { result with schemaVersion := .v1DeviceModel201, deviceModel201 := some e }
  | chargingProfile16 e => { result with schemaVersion := .v1ChargingProfile16, chargingProfile16 := some e }
  | chargingProfile201 e => { result with schemaVersion := .v1ChargingProfile201, chargingProfile201 := some e }
  | configuration201 e => { result with schemaVersion := .v1Configuration201, configuration201 := some e }
  | localAuthorization16 e => { result with schemaVersion := .v1LocalAuthorization16, localAuthorization16 := some e }
  | localAuthorization201 e =>
      { result with schemaVersion := .v1LocalAuthorization201, localAuthorization201 := some e }
  | reservation16 e => { result with schemaVersion := .v1Reservation16, reservation16 := some e }
  | reservation201 e => { result with schemaVersion := .v1Reservation201, reservation201 := some e }
  | compositeSchedule201 e => { result with schemaVersion := .v1Schedules201, compositeSchedule201 := some e }
  | chargingProfiles201 e => { result with schemaVersion := .v1Schedules201, chargingProfiles201 := some e }
  | firmware16 e => { result with schemaVersion := .v1Firmware16, firmware16 := some e }
  | firmware201 e => { result with schemaVersion := .v1Firmware201, firmware201 := some e }
  | diagnostics16 e => { result with schemaVersion := .v1Diagnostics16, diagnostics16 := some e }
  | diagnostics201 e => { result with schemaVersion := .v1Diagnostics201, diagnostics201 := some e }

def Command.dispatched (command : Command P) (device : Option DeviceModelResult201) (trigger : Option TriggerWindow)
    (now : UtcTimestamp) : CommandResult :=
  let result := (device.map DispatchEvidence.deviceModel201).elim (command.result .dispatched now)
    (DispatchEvidence.attach (command.result .dispatched now))
  trigger.elim result (·.start result)

/-- Recorded when the dispatch has come back. -/
def Command.finalized (command : Command P) (lifecycle : CommandLifecycle) (evidence : Option DispatchEvidence)
    (trigger : Option TriggerWindow) (now : UtcTimestamp) : CommandResult :=
  let result := evidence.elim (command.result lifecycle now) (DispatchEvidence.attach (command.result lifecycle now))
  if lifecycle.isRejected then result else trigger.elim result (·.start result)

inductive Resent (command : Command P) (stored : CommandResult) : CommandResult → Prop
  | restarted (now : UtcTimestamp) : Resent command stored (stored.restarted now)
  | observed (effect : ObservedCommandEffect) :
      Resent command stored { stored with observedEffects := stored.observedEffects ++ [effect] }
  | lateReservation16 {operation : PrivilegedOcppOperation P} (h : command.operation = .ocpp operation)
      (evidence : ReservationResult16) (lifecycle : CommandLifecycle) (now : UtcTimestamp) :
      Resent command stored
        (DispatchEvidence.attach { stored with lifecycle, recordedAt := now } (.reservation16 evidence))
  | lateReservation201 {operation : PrivilegedOcppOperation P} (h : command.operation = .ocpp operation)
      (evidence : ReservationResult201) (lifecycle : CommandLifecycle) (now : UtcTimestamp) :
      Resent command stored
        (DispatchEvidence.attach { stored with lifecycle, recordedAt := now } (.reservation201 evidence))

variable [Wire P]

/-- The results that the host writes for a command: its own of every stage, and copies of what it has read before. -/
inductive Sent (command : Command P) (read : CommandResult → Prop) : CommandResult → Prop
  | admitted (now : UtcTimestamp) : Sent command read (command.result .admitted now)
  | dispatched (prepare : PrivilegedOcppOperation P → Option TriggerWindow) (device : Option DeviceModelResult201)
      (now : UtcTimestamp) : Sent command read (command.dispatched device (command.triggerExpectation prepare) now)
  | finalized (prepare : PrivilegedOcppOperation P → Option TriggerWindow) (lifecycle : CommandLifecycle)
      (evidence : Option DispatchEvidence) (now : UtcTimestamp) :
      Sent command read (command.finalized lifecycle evidence (command.triggerExpectation prepare) now)
  | resent {stored result : CommandResult} (hread : read stored) (h : Resent command stored result) :
      Sent command read result
  | unrecorded {result : CommandResult} (now : UtcTimestamp)
      (h : Resent command (command.result .admitted now) result) : Sent command read result

def Store.Returned (requests : List (Request P)) (request : RequestId) (result : CommandResult) : Prop :=
  ∃ before, before <+: requests ∧ (Store.empty.run before).commandResult request = .ok (some result)

/-- Runs of the store in which the results written for the command are the host's; everything else is arbitrary. -/
inductive Hosted (command : Command P) : List (Request P) → Prop
  | start : Hosted command []
  | step {requests : List (Request P)} {request : Request P} (h : Hosted command requests)
      (hsent : ∀ incoming, request.brings incoming → incoming.request = command.requestId →
        Sent command (Store.Returned requests command.requestId) incoming) :
      Hosted command (requests ++ [request])

end Coordinator

end OcppBridge.Operational
