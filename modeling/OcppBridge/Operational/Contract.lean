import OcppBridge.Storage
import OcppBridge.Text

namespace OcppBridge.Operational

open Storage Transaction

abbrev RequestId := String

abbrev BridgeId := String

abbrev StationId := String

abbrev EventId := String

abbrev UtcTimestamp := Int

def nanosecondsPerSecond : Int := 1000000000

def operationalHistoryRetentionSeconds : Int := 7 * 24 * 60 * 60

structure ContractVersion where
  major : Nat
  revision : Nat
  deriving DecidableEq, Repr

namespace ContractVersion

def v1Initial : ContractVersion := ⟨1, 0⟩
def v1Configuration : ContractVersion := ⟨1, 1⟩
def v1Trigger : ContractVersion := ⟨1, 2⟩
def v1Trigger201 : ContractVersion := ⟨1, 3⟩
def v1CompositeSchedule16 : ContractVersion := ⟨1, 4⟩
def v1DeviceModel201 : ContractVersion := ⟨1, 5⟩
def v1ChargingProfile16 : ContractVersion := ⟨1, 6⟩
def v1ChargingProfile201 : ContractVersion := ⟨1, 7⟩
def v1Configuration201 : ContractVersion := ⟨1, 8⟩
def v1LocalAuthorization16 : ContractVersion := ⟨1, 9⟩
def v1LocalAuthorization201 : ContractVersion := ⟨1, 10⟩
def v1Reservation16 : ContractVersion := ⟨1, 11⟩
def v1Reservation201 : ContractVersion := ⟨1, 12⟩
def v1Schedules201 : ContractVersion := ⟨1, 13⟩
def v1Firmware16 : ContractVersion := ⟨1, 14⟩
def v1Firmware201 : ContractVersion := ⟨1, 15⟩
def v1Diagnostics16 : ContractVersion := ⟨1, 16⟩
def v1Diagnostics201 : ContractVersion := ⟨1, 17⟩

end ContractVersion

inductive ProtocolEdition
  | ocpp16j
  | ocpp201
  deriving DecidableEq, Repr

inductive CanonicalResource
  | connector (connectorId : String)
  | evse (evseId : String) (connectorId : Option String)
  deriving DecidableEq, Repr

inductive NativeProtocolReference
  | ocpp16 (connectorId : Nat)
  | ocpp201 (evseId : Nat) (connectorId : Option Nat)
  deriving DecidableEq, Repr

structure ResourceRef where
  bridgeId : BridgeId
  stationId : StationId
  resource : Option CanonicalResource
  nativeProtocolReference : Option NativeProtocolReference
  deriving DecidableEq, Repr

/-- The key under which the tables file a station: its bridge-qualified logical identity. -/
structure StationKey where
  bridgeId : BridgeId
  stationId : StationId
  deriving DecidableEq, Repr

def ResourceRef.key (r : ResourceRef) : StationKey := ⟨r.bridgeId, r.stationId⟩

def NativeProtocolReference.isStation : Option NativeProtocolReference → Bool
  | none | some (.ocpp16 0) | some (.ocpp201 0 none) => true
  | _ => false

def stationKey (r : ResourceRef) : Except StorageError StationKey := do
  require (r.resource = none ∧ NativeProtocolReference.isStation r.nativeProtocolReference)
    ⟨.invalidRequest, "snapshot scope must contain station-only canonical references"⟩
  pure r.key

structure PrivilegedOcppOperation (P : Type) where
  protocol : ProtocolEdition
  action : String
  payloadSchema : String
  payload : P
  deriving DecidableEq, Repr

/-- The limit of a charging-limit command is an exact decimal with its unit and phase count. -/
structure ChargingLimit where
  value : String
  unit : String
  phases : Option Nat
  deriving DecidableEq, Repr

inductive CommandOperation (P : Type)
  | start (authorizationReference : Option String)
  | stop (transactionId : String)
  | setChargingLimit (limit : ChargingLimit)
  | ocpp (operation : PrivilegedOcppOperation P)
  deriving DecidableEq, Repr

inductive AuthenticatedCommandOrigin
  | management (principalId : String)
  | target (targetInstanceId principalId : String)
  | bridge (principalId : String)
  deriving DecidableEq, Repr

structure CommandReturnRoute where
  requestId : RequestId
  origin : AuthenticatedCommandOrigin
  deriving DecidableEq, Repr

structure Command (P : Type) where
  schemaVersion : ContractVersion
  requestId : RequestId
  correlationId : Option String
  resource : ResourceRef
  operation : CommandOperation P
  expiresAt : UtcTimestamp
  origin : AuthenticatedCommandOrigin
  admittedAt : UtcTimestamp
  deriving DecidableEq, Repr

def Command.returnRoute {P : Type} (command : Command P) : CommandReturnRoute :=
  ⟨command.requestId, command.origin⟩

inductive CommandErrorCode
  | unauthorized
  | invalidParameters
  | expired
  | unsupportedOperation
  | stationDisconnected
  | policyRejected
  | protocolRejected
  deriving DecidableEq, Repr

structure CommandError where
  code : CommandErrorCode
  detail : Option String
  deriving DecidableEq, Repr

inductive CommandLifecycle
  | admitted
  | rejected (error : CommandError)
  | dispatched
  | protocolResponse (accepted : Bool) (error : Option CommandError)
  | transmissionUncertain (detail : String)
  deriving DecidableEq, Repr

namespace CommandLifecycle

def isRejected : CommandLifecycle → Bool
  | rejected _ => true
  | _ => false

def isProtocolResponse : CommandLifecycle → Bool
  | protocolResponse _ _ => true
  | _ => false

def isTransmissionUncertain : CommandLifecycle → Bool
  | transmissionUncertain _ => true
  | _ => false

def answered (accepted : Bool) : CommandLifecycle → Bool
  | protocolResponse a _ => a = accepted
  | _ => false

def unresolved : CommandLifecycle → Bool
  | admitted | dispatched | transmissionUncertain _ => true
  | _ => false

/-- A native answer recorded as `accepted`, with the only error such an answer may carry. -/
def agrees (accepted : Bool) : CommandLifecycle → Bool
  | protocolResponse a error =>
      a = accepted ∧ ∀ e ∈ error, a = false ∧ e.code = .protocolRejected ∧ e.detail = none
  | _ => true

end CommandLifecycle

structure ObservedCommandEffect where
  eventId : EventId
  eventType : String
  observedAt : UtcTimestamp
  deriving DecidableEq, Repr

end OcppBridge.Operational
