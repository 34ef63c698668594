import OcppBridge.Delimited
import OcppBridge.Operational.Result
import OcppBridge.Operational.Snapshot
import Mathlib.Data.List.Sort
import Mathlib.Data.String.Basic

namespace OcppBridge.Mqtt

open Delimited (hexByte)
open Operational
open Transaction

section Text

inductive Environment
  | production
  | staging
  | demo
  deriving DecidableEq, Repr

def environmentName : Environment → String
  | .production => "production"
  | .staging => "staging"
  | .demo => "demo"

def maxTopicBytes : Nat := 65535

def bytes (value : String) : List UInt8 := value.toByteArray.data.toList

def isUnreserved (byte : UInt8) : Bool :=
  (Char.ofNat byte.toNat).isAlphanum || [45, 46, 95, 126].contains byte

def upperHexDigit (n : Nat) : Char := if n < 10 then Char.ofNat (48 + n) else Char.ofNat (55 + n)

def encodeByte (byte : UInt8) : List Char :=
  if isUnreserved byte then [Char.ofNat byte.toNat]
  else ['%', upperHexDigit (byte.toNat / 16), upperHexDigit (byte.toNat % 16)]

def encodeSegment (value : String) : String := String.ofList ((bytes value).flatMap encodeByte)

def hexIdentifier (value : String) : String := String.ofList ((bytes value).flatMap hexByte)

end Text

inductive MappingError
  | identityMismatch
  | encodingFailed
  | payloadTooLarge
  | topicTooLong
  deriving DecidableEq, Repr

structure WirePublication where
  topic : String
  retain : Bool
  payload : List UInt8
  deriving DecidableEq, Repr

/-- A serialization goes into a buffer of at most `maximum` bytes. -/
def encode (serialized : Option (List UInt8)) (maximum : Nat) : Except MappingError (List UInt8) :=
  match serialized with
  | none => .error .encodingFailed
  | some payload => if payload.length ≤ maximum then .ok payload else .error .payloadTooLarge

section Messages

structure DomainEvent where
  schemaVersion : ContractVersion
  environment : Environment
  resource : ResourceRef
  eventId : String
  deriving DecidableEq, Repr

structure TraceTarget where
  instanceId : String
  kind : String
  deriving DecidableEq, Repr

structure DiagnosticTrace where
  schemaVersion : ContractVersion
  target : Option TraceTarget
  traceId : String
  deriving DecidableEq, Repr

inductive TargetMessage
  | stationSnapshot (snapshot : StationSnapshot)
  | domainEvent (event : DomainEvent)
  | commandResult (result : CommandResult)
  | diagnostic (trace : DiagnosticTrace)
  deriving DecidableEq

structure TargetDelivery where
  targetInstanceId : String
  targetConfigurationRevision : Nat
  stationOrderingKey : ResourceRef
  message : TargetMessage
  deriving DecidableEq

def mqttTargetKind : String := "mqtt"

/-- The JSON documents of the payloads, which the topics do not depend on. -/
structure Documents where
  message : TargetMessage → Option (List UInt8)
  descriptor : DataPointDescriptor → Option (List UInt8)
  value : DataPointValue → Option (List UInt8)
  connectivity : StationSnapshot → Option (List UInt8)
  sensor : StationSnapshot → DataPointValue → Option (List UInt8)
  availability : String → Bool → List UInt8

end Messages

def supportedResultVersion (version : ContractVersion) : Bool :=
  version = .v1Initial || version = .v1Configuration || version = .v1CompositeSchedule16 ||
    version = .v1DeviceModel201 || version = .v1ChargingProfile16 || version = .v1ChargingProfile201 ||
    version = .v1Configuration201 || version = .v1LocalAuthorization16 || version = .v1LocalAuthorization201 ||
    version = .v1Reservation16 || version = .v1Reservation201 || version = .v1Schedules201 ||
    version = .v1Firmware16 || version = .v1Firmware201 || version = .v1Diagnostics16 || version = .v1Diagnostics201

def namespaceBase (environment : Environment) (bridgeId : BridgeId) : String :=
  "uob/v1/" ++ environmentName environment ++ "/" ++ encodeSegment bridgeId

/-- The namespace of every outbound mapping, with the prefix computed once. -/
structure TopicNamespace where
  environment : Environment
  bridgeId : BridgeId
  base : String
  based : base = namespaceBase environment bridgeId

namespace TopicNamespace

variable (ns : TopicNamespace)

def availability : String := ns.base ++ "/availability"

def commandTopicMatches (topic : String) (resource : ResourceRef) (requestId : RequestId) : Bool :=
  resource.bridgeId = ns.bridgeId &&
    topic = ns.base ++ "/commands/" ++ encodeSegment resource.stationId ++ "/" ++ encodeSegment requestId

def messageTopic (category stationId : String) (identity : Option String) : Except MappingError String := do
  let topic := ns.base ++ "/" ++ category ++ "/" ++ encodeSegment stationId
  let topic := match identity with
    | some identity => topic ++ "/" ++ encodeSegment identity
    | none => topic
  require (topic.utf8ByteSize ≤ maxTopicBytes) .topicTooLong
  pure topic

def ownedBy (target : String) (result : CommandResult) : Bool :=
  match result.returnRoute.origin with
  | .target targetInstanceId _ => targetInstanceId = target
  | _ => false

def commandResult (documents : Documents) (target : String) (result : CommandResult) (maximum : Nat) :
    Except MappingError WirePublication := do
  require (supportedResultVersion result.schemaVersion = true ∧ result.resource.bridgeId = ns.bridgeId ∧
    ownedBy target result = true) .identityMismatch
  let topic ← ns.messageTopic "results" result.resource.stationId (some result.returnRoute.requestId)
  let payload ← encode (documents.message (.commandResult result)) maximum
  pure ⟨topic, false, payload⟩

/-- What a delivered message checks of itself, and the parts of its topic. -/
def describe (target : String) (delivery : TargetDelivery) :
    Except MappingError (String × String × Option String × Bool) :=
  match delivery.message with
  | .stationSnapshot snapshot => do
      require (snapshot.schemaVersion = .v1Initial ∧ snapshot.station = delivery.stationOrderingKey) .identityMismatch
      pure ("state", snapshot.station.stationId, none, true)
  | .domainEvent event => do
      require (event.schemaVersion = .v1Initial ∧ event.environment = ns.environment ∧
        event.resource = delivery.stationOrderingKey) .identityMismatch
      pure ("events", event.resource.stationId, some event.eventId, false)
  | .commandResult result => do
      require (supportedResultVersion result.schemaVersion = true ∧ result.resource = delivery.stationOrderingKey ∧
        ownedBy target result = true) .identityMismatch
      pure ("results", result.resource.stationId, some result.returnRoute.requestId, false)
  | .diagnostic trace => do
      require (trace.schemaVersion = .v1Initial ∧
        ∀ t ∈ trace.target, t.instanceId = target ∧ t.kind = mqttTargetKind) .identityMismatch
      pure ("traces", delivery.stationOrderingKey.stationId, some trace.traceId, false)

def map (documents : Documents) (target : String) (revision : Nat) (delivery : TargetDelivery) (maximum : Nat) :
    Except MappingError WirePublication := do
  require (delivery.targetInstanceId = target ∧ delivery.targetConfigurationRevision = revision ∧
    delivery.stationOrderingKey.bridgeId = ns.bridgeId) .identityMismatch
  let (category, stationId, identity, retain) ← ns.describe target delivery
  let payload ← encode (documents.message delivery.message) maximum
  let topic ← ns.messageTopic category stationId identity
  pure ⟨topic, retain, payload⟩

def availabilityPublication (documents : Documents) (target : String) (online : Bool) : WirePublication :=
  ⟨ns.availability, true, documents.availability target online⟩

end TopicNamespace

/-- The entries of an ordered map filled by `entry(..).or_insert(..)`. -/
def firstEntries {α : Type} (key : α → String) (values : List α) : List α :=
  (values.foldl (fun found v => if found.any (key · = key v) then found else found ++ [v]) []).insertionSort
    (key · ≤ key ·)

def descriptors (snapshot : StationSnapshot) : List DataPointDescriptor :=
  firstEntries DataPointDescriptor.pointId (snapshot.resources.flatMap (·.dataPoints))

def latestValues (snapshot : StationSnapshot) : List DataPointValue :=
  firstEntries DataPointValue.pointId (snapshot.currentValues ++ snapshot.resources.flatMap (·.currentValues))

namespace Points

def publication (base category station pointId : String) (document : Option (List UInt8)) (maximum : Nat) :
    Except MappingError WirePublication := do
  let topic := base ++ "/" ++ category ++ "/" ++ station ++ "/" ++ encodeSegment pointId
  require (topic.utf8ByteSize ≤ maxTopicBytes) .topicTooLong
  let payload ← encode document maximum
  pure ⟨topic, true, payload⟩

def publications (documents : Documents) (bridgeId : BridgeId) (base : String) (snapshot : StationSnapshot)
    (maximum : Nat) : Except MappingError (List WirePublication) := do
  require (snapshot.station.bridgeId = bridgeId) .identityMismatch
  let station := encodeSegment snapshot.station.stationId
  require (∀ r ∈ snapshot.resources,
    (r.resource.bridgeId = bridgeId ∧ r.resource.stationId = snapshot.station.stationId) ∧
      ∀ d ∈ r.dataPoints, d.resource = r.resource) .identityMismatch
  let points ← (descriptors snapshot).mapM fun d =>
    publication base "points" station d.pointId (documents.descriptor d) maximum
  let latest ← (latestValues snapshot).mapM fun v =>
    publication base "values" station v.pointId (documents.value v) maximum
  pure (points ++ latest)

end Points

namespace Discovery

def publication (component nodeId objectId : String) (document : Option (List UInt8)) (maximum : Nat) :
    Except MappingError WirePublication := do
  let topic := "homeassistant/" ++ component ++ "/" ++ nodeId ++ "/" ++ objectId ++ "/config"
  require (topic.utf8ByteSize ≤ maxTopicBytes) .topicTooLong
  let payload ← encode document maximum
  pure ⟨topic, true, payload⟩

def publications (documents : Documents) (environment : Environment) (bridgeId : BridgeId) (snapshot : StationSnapshot)
    (maximum : Nat) : Except MappingError (List WirePublication) := do
  require (snapshot.station.bridgeId = bridgeId) .identityMismatch
  let bridgeKey := hexIdentifier bridgeId
  let stationKey := hexIdentifier snapshot.station.stationId
  let nodeId := "uob_" ++ environmentName environment ++ "_" ++ bridgeKey
  let connectivity ← publication "binary_sensor" nodeId ("station_" ++ stationKey ++ "_connectivity")
    (documents.connectivity snapshot) maximum
  let sensors ← (latestValues snapshot).mapM fun p =>
    publication "sensor" nodeId ("station_" ++ stationKey ++ "_point_" ++ hexIdentifier p.pointId)
      (documents.sensor snapshot p) maximum
  pure (connectivity :: sensors)

end Discovery

namespace TopicNamespace

def pointCatalog (ns : TopicNamespace) (documents : Documents) (snapshot : StationSnapshot) (maximum : Nat) :
    Except MappingError (List WirePublication) :=
  Points.publications documents ns.bridgeId ns.base snapshot maximum

def homeAssistantDiscovery (ns : TopicNamespace) (documents : Documents) (snapshot : StationSnapshot) (maximum : Nat) :
    Except MappingError (List WirePublication) :=
  Discovery.publications documents ns.environment ns.bridgeId snapshot maximum

end TopicNamespace

end OcppBridge.Mqtt
