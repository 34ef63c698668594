import OcppBridge.Operational.Result

namespace OcppBridge.Operational

open Text

def validReference (scheme : String) (length : Nat) (value : String) : Bool :=
  value.utf8ByteSize = length &&
    match stripPrefix scheme value with
    | some rest => rest.all fun c => c.isDigit || ('a' ≤ c && c ≤ 'f') || ('A' ≤ c && c ≤ 'F')
    | none => false

def validReservationReference16 : String → Bool := validReference "reserve16:" 74

def validReservationReference201 : String → Bool := validReference "reserve201:" 75

def validConfigurationReference201 : String → Bool := validReference "cfg201:" 71

def validLocalListReference16 : String → Bool := validReference "list16:" 71

def validLocalListReference201 : String → Bool := validReference "list201:" 72

def validConfigurationChange (key reference : String) : Bool :=
  key.toList.length ≤ 50 && validReference "cfg:" 68 reference

def isAsciiAlphanumeric (c : Char) : Bool :=
  c.isDigit || ('a' ≤ c && c ≤ 'z') || ('A' ≤ c && c ≤ 'Z')

def validFirmwareArtifactReference (value : String) : Bool :=
  1 ≤ value.utf8ByteSize && value.utf8ByteSize ≤ 128 && value.toList.head? ≠ some '.' &&
    value.toList.all fun c => isAsciiAlphanumeric c || c == '.' || c == '_' || c == '-'

def validUploadId (value : String) : Bool :=
  value ≠ "" && value.utf8ByteSize ≤ 64 &&
    value.toList.all fun c => isAsciiAlphanumeric c || c == '-' || c == '_'

def validSha256 (value : String) : Bool :=
  value.utf8ByteSize = 64 && value.toList.all fun c => c.isDigit || ('a' ≤ c && c ≤ 'f')

def validReasonCode201 (value : String) : Bool :=
  1 ≤ value.utf8ByteSize && value.utf8ByteSize ≤ 20 && value.toList.all fun c => '!' ≤ c && c ≤ '~'

def validLogFileName (value : String) : Bool :=
  value.utf8ByteSize ≤ 255 && value.toList.all fun c => ' ' ≤ c && c ≤ '~'

def maxNativeInteger : Nat := 2147483647

def nativeCount (value : Option Nat) : Bool := value.all (· ≤ maxNativeInteger)

def window (oldest latest : Option UtcTimestamp) : Bool :=
  oldest.all fun o => latest.all (o ≤ ·)

structure ReserveNowReference16 where
  connectorId : Nat
  expiryDate : UtcTimestamp
  reservationId : Int
  reservationReference : String
  deriving DecidableEq, Repr

inductive ReservationConnectorType201
  | cCcs1 | cCcs2 | cG105 | cTesla | cType1 | cType2
  | s309OnePhase16A | s309OnePhase32A | s309ThreePhase16A | s309ThreePhase32A
  | sBs1361 | sCee77 | sType2 | sType3
  | other1PhMax16A | other1PhOver16A | other3Ph
  | pan | wInductive | wResonant | undetermined | unknown
  deriving DecidableEq, Repr

structure ReserveNowReference201 where
  id : Int
  expiryDateTime : UtcTimestamp
  evseId : Option Nat
  connectorType : Option ReservationConnectorType201
  reservationReference : String
  deriving DecidableEq, Repr

structure UpdateFirmwareReference16 where
  artifactReference : String
  retrieveDate : UtcTimestamp
  retries : Option Nat
  retryInterval : Option Nat
  deriving DecidableEq, Repr

/-- The signed update of the 1.6 security extension and the 2.0.1 update have one shape. -/
structure UpdateFirmwareReference where
  requestId : Int
  artifactReference : String
  retrieveDateTime : UtcTimestamp
  installDateTime : Option UtcTimestamp
  retries : Option Nat
  retryInterval : Option Nat
  deriving DecidableEq, Repr

structure GetDiagnosticsReference16 where
  startTime : Option UtcTimestamp
  stopTime : Option UtcTimestamp
  retries : Option Nat
  retryInterval : Option Nat
  deriving DecidableEq, Repr

structure GetLogReference where
  logType : LogType
  requestId : Int
  oldestTimestamp : Option UtcTimestamp
  latestTimestamp : Option UtcTimestamp
  retries : Option Nat
  retryInterval : Option Nat
  deriving DecidableEq, Repr

structure SendLocalListReference where
  version : Int
  updateType : LocalListUpdateType
  updateReference : String
  deriving DecidableEq, Repr

structure SetVariableReference201 where
  component : DeviceComponent201
  variableOf : DeviceVariable201
  attributeType : Option DeviceAttributeType201
  valueReference : String
  deriving DecidableEq, Repr

structure SetNetworkProfileReference201 where
  configurationSlot : Int
  profileReference : String
  deriving DecidableEq, Repr

/-- What the JSON, digest and case-folding libraries give for the payloads and records of the store. -/
class Wire (P : Type) where
  fieldCount : P → Option Nat
  reservationId : P → Option Int
  text : String → P → Option String
  keys : P → Option (List (Option String))
  reserveNow16 : P → Option ReserveNowReference16
  reserveNow201 : P → Option ReserveNowReference201
  updateFirmware16 : P → Option UpdateFirmwareReference16
  updateFirmware : P → Option UpdateFirmwareReference
  getDiagnostics16 : P → Option GetDiagnosticsReference16
  getLog : P → Option GetLogReference
  sendLocalList16 : P → Option SendLocalListReference
  sendLocalList201 : P → Option SendLocalListReference
  setVariables201 : P → Option (List SetVariableReference201)
  setNetworkProfile201 : P → Option SetNetworkProfileReference201
  /-- A command without its request ID and admission time, as JSON with sorted keys. -/
  normalized : Command P → String
  caseFold : String → String
  sha256Hex : String → String
  resultSize : CommandResult → Nat
  deviceReportSize : DeviceReportState201 → Nat
  profileReportSize : ChargingProfileReportState201 → Nat

inductive Document
  | empty
  | reserveNow16 (r : ReserveNowReference16)
  | cancelReservation (reservationId : Int)
  | updateFirmware16 (r : UpdateFirmwareReference16)
  deriving DecidableEq, Repr

instance : Wire Document where
  fieldCount
    | .empty => some 0
    | .cancelReservation _ => some 1
    | _ => none
  reservationId
    | .cancelReservation id => some id
    | .reserveNow16 r => some r.reservationId
    | _ => none
  text _ _ := none
  keys _ := none
  reserveNow16
    | .reserveNow16 r => some r
    | _ => none
  reserveNow201 _ := none
  updateFirmware16
    | .updateFirmware16 r => some r
    | _ => none
  updateFirmware _ := none
  getDiagnostics16 _ := none
  getLog _ := none
  sendLocalList16 _ := none
  sendLocalList201 _ := none
  setVariables201 _ := none
  setNetworkProfile201 _ := none
  normalized command := match command.operation with
    | .ocpp operation => operation.action
    | _ => ""
  caseFold := id
  sha256Hex := id
  resultSize _ := 0
  deviceReportSize _ := 0
  profileReportSize _ := 0

section Decoding

variable {P : Type} [Wire P]

def decodeReserveNow16 (payload : P) : Option ReserveNowReference16 :=
  (Wire.reserveNow16 payload).filter fun r => validReservationReference16 r.reservationReference

def decodeReserveNow201 (payload : P) : Option ReserveNowReference201 :=
  (Wire.reserveNow201 payload).filter fun r =>
    validReservationReference201 r.reservationReference && r.evseId.all fun id => id ≠ 0 && id ≤ maxNativeInteger

def decodeUpdateFirmware16 (payload : P) : Option UpdateFirmwareReference16 :=
  (Wire.updateFirmware16 payload).filter fun r =>
    validFirmwareArtifactReference r.artifactReference && nativeCount r.retries && nativeCount r.retryInterval

def decodeUpdateFirmware (payload : P) : Option UpdateFirmwareReference :=
  (Wire.updateFirmware payload).filter fun r =>
    r.installDateTime.all (r.retrieveDateTime ≤ ·) && validFirmwareArtifactReference r.artifactReference &&
      nativeCount r.retries && nativeCount r.retryInterval

def decodeGetDiagnostics16 (payload : P) : Option GetDiagnosticsReference16 :=
  (Wire.getDiagnostics16 payload).filter fun r =>
    window r.startTime r.stopTime && nativeCount r.retries && nativeCount r.retryInterval

def decodeGetLog (payload : P) : Option GetLogReference :=
  (Wire.getLog payload).filter fun r =>
    window r.oldestTimestamp r.latestTimestamp && nativeCount r.retries && nativeCount r.retryInterval

def decodeSendLocalList16 (payload : P) : Option SendLocalListReference :=
  (Wire.sendLocalList16 payload).filter fun r =>
    r.version ≠ -1 && r.version ≠ 0 && validLocalListReference16 r.updateReference

def decodeSendLocalList201 (payload : P) : Option SendLocalListReference :=
  (Wire.sendLocalList201 payload).filter fun r => 0 < r.version && validLocalListReference201 r.updateReference

end Decoding

end OcppBridge.Operational
