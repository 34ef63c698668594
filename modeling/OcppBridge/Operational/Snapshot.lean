import OcppBridge.Operational.Contract

namespace OcppBridge.Operational

inductive TypedValue
  | boolean (value : Bool)
  | signedInteger (value : Int)
  | unsignedInteger (value : Nat)
  | decimal (value : String)
  | text (value : String)
  | namedEnum (value : String)
  deriving DecidableEq, Repr

structure MeasurementMetadata where
  originalValue : String
  originalUnit : Option String
  measurand : Option String
  phase : Option String
  context : Option String
  location : Option String
  protocolReference : Option NativeProtocolReference
  deriving DecidableEq, Repr

structure DataPointDescriptor where
  pointId : String
  resource : ResourceRef
  deriving DecidableEq, Repr

structure DataPointValue where
  pointId : String
  value : Option TypedValue
  sourceTime : Option UtcTimestamp
  observedAt : UtcTimestamp
  measurement : Option MeasurementMetadata
  deriving DecidableEq, Repr

structure ChargingResourceSnapshot where
  resource : ResourceRef
  dataPoints : List DataPointDescriptor
  currentValues : List DataPointValue
  deriving DecidableEq, Repr

structure Ocpp16TransactionEvidence where
  transactionId : Int
  startMessageId : String
  startFingerprint : String
  authorizationStatus : String
  authorizationExpiry : Option UtcTimestamp
  identityReference : Option String
  meterStart : Int
  reservationId : Option Int
  stopMessageId : Option String
  stopFingerprint : Option String
  stopIdentityFingerprint : Option String
  meterStop : Option Int
  stopReason : Option String
  transactionData : List DataPointValue
  signedValues : List String
  deriving DecidableEq, Repr

inductive TransactionState
  | pending
  | active
  | suspended
  | ended
  | uncertain
  deriving DecidableEq, Repr

structure TransactionProtocolState where
  remoteStartId : Option Int
  protocol : ProtocolEdition
  nativeTransactionId : String
  nativeResource : NativeProtocolReference
  lastSequenceNumber : UInt32
  lastEvent : String
  lastTriggerReason : String
  lastEventAt : UtcTimestamp
  lastEventFingerprint : String
  deriving DecidableEq

structure TransactionSnapshot where
  ocpp16 : Option Ocpp16TransactionEvidence
  transactionId : String
  resource : ResourceRef
  state : TransactionState
  startedAt : UtcTimestamp
  endedAt : Option UtcTimestamp
  protocolState : Option TransactionProtocolState
  deriving DecidableEq

inductive Connectivity
  | disconnected
  | connecting
  | connected (protocol : ProtocolEdition) (connectedAt : UtcTimestamp) (lastMessageAt : Option UtcTimestamp)
  deriving DecidableEq, Repr

structure StationSnapshot where
  schemaVersion : ContractVersion
  station : ResourceRef
  observedAt : UtcTimestamp
  connectivity : Connectivity
  resources : List ChargingResourceSnapshot
  transactions : List TransactionSnapshot
  currentValues : List DataPointValue
  deriving DecidableEq

def DataPointValue.time (v : DataPointValue) : UtcTimestamp := v.sourceTime.getD v.observedAt

def TransactionSnapshot.native201 (t : TransactionSnapshot) : Option String :=
  (t.protocolState.filter (·.protocol = .ocpp201)).map (·.nativeTransactionId)

def StationSnapshot.resourceAt (s : StationSnapshot) (native : NativeProtocolReference) : Option ResourceRef :=
  (s.resources.find? fun r => r.resource.nativeProtocolReference = some native).map (·.resource)

end OcppBridge.Operational
