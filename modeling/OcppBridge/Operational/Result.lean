import OcppBridge.Operational.Evidence

namespace OcppBridge.Operational

section Jobs

/-- States of a firmware or log upload job. -/
inductive JobState (π : Type)
  | pending
  | uncertain
  | accepted
  | timedOut
  | rejected
  | notSent
  | cancelled
  | superseded
  | stationIdle
  | native (progress : π)
  deriving DecidableEq, Repr

structure JobEvidence (π τ υ : Type) where
  revision : Nat
  state : JobState π
  deadline : UtcTimestamp
  observedAt : UtcTimestamp
  lastStatus : Option τ
  lastStatusAt : Option UtcTimestamp
  notifications : Nat
  rejectedTransitions : Nat
  upload : Option υ
  deriving DecidableEq, Repr

/-- `ι` is the native identity of the request, `α` the artifact or destination offered with it. -/
structure JobResult (ι α ρ π τ υ : Type) where
  identity : ι
  offer : Option α
  reply : Option ρ
  job : JobEvidence π τ υ
  deriving DecidableEq, Repr

inductive FirmwareProgress
  | downloadScheduled
  | downloading
  | downloadPaused
  | downloaded
  | signatureVerified
  | installScheduled
  | installRebooting
  | installing
  | installed
  | downloadFailed
  | installationFailed
  | installVerificationFailed
  | invalidSignature
  deriving DecidableEq, Repr

inductive FirmwareStatus
  | downloaded
  | downloadFailed
  | downloading
  | downloadScheduled
  | downloadPaused
  | idle
  | installationFailed
  | installing
  | installed
  | installRebooting
  | installScheduled
  | installVerificationFailed
  | invalidSignature
  | signatureVerified
  deriving DecidableEq, Repr

structure FirmwareArtifact where
  artifactReference : String
  sha256 : String
  sizeBytes : Nat
  signed : Bool
  testOnly : Bool
  deriving DecidableEq, Repr

inductive UpdateFirmwareStatus
  | accepted
  | rejected
  | acceptedCanceled
  | invalidCertificate
  | revokedCertificate
  deriving DecidableEq, Repr

inductive CallError16
  | formationViolation
  | genericError
  | internalError
  | notImplemented
  | notSupported
  | occurrenceConstraintViolation
  | propertyConstraintViolation
  | protocolError
  | securityError
  | typeConstraintViolation
  deriving DecidableEq, Repr

inductive CallError201
  | formatViolation
  | genericError
  | internalError
  | messageTypeNotSupported
  | notImplemented
  | notSupported
  | occurrenceConstraintViolation
  | propertyConstraintViolation
  | protocolError
  | rpcFrameworkError
  | securityError
  | typeConstraintViolation
  deriving DecidableEq, Repr

inductive FirmwareVariant16
  | legacy
  | signed (requestId : Int)
  deriving DecidableEq, Repr

inductive FirmwareReply16
  | acknowledged
  | status (status : UpdateFirmwareStatus)
  | callError (code : CallError16)
  deriving DecidableEq, Repr

structure FirmwareIdentity201 where
  requestId : Int
  secure : Bool
  deriving DecidableEq, Repr

inductive FirmwareReply201
  | status (status : UpdateFirmwareStatus) (reasonCode : Option String)
  | callError (code : CallError201)
  deriving DecidableEq, Repr

inductive LogType
  | diagnosticsLog
  | securityLog
  deriving DecidableEq, Repr

inductive LogProgress16
  | uploading
  | uploaded
  | uploadUnconfirmed
  | uploadFailed
  | badMessage
  | notSupportedOperation
  | permissionDenied
  | noLogAvailable
  deriving DecidableEq, Repr

inductive LogProgress201
  | uploading
  | uploaded
  | uploadUnconfirmed
  | uploadFailed
  | badMessage
  | notSupportedOperation
  | permissionDenied
  deriving DecidableEq, Repr

inductive LogUploadStatus16
  | badMessage
  | idle
  | notSupportedOperation
  | permissionDenied
  | uploaded
  | uploadFailed
  | uploadFailure
  | uploading
  deriving DecidableEq, Repr

inductive LogUploadStatus201
  | badMessage
  | idle
  | notSupportedOperation
  | permissionDenied
  | uploaded
  | uploadFailure
  | uploading
  | acceptedCanceled
  deriving DecidableEq, Repr

structure DiagnosticsUpload where
  sha256 : String
  sizeBytes : Nat
  deriving DecidableEq, Repr

structure DiagnosticsDestination where
  logType : LogType
  maximumBytes : Nat
  testOnly : Bool
  deriving DecidableEq, Repr

inductive GetLogStatus
  | accepted
  | rejected
  | acceptedCanceled
  deriving DecidableEq, Repr

inductive DiagnosticsVariant16
  | diagnostics
  | log (logType : LogType) (requestId : Int)
  deriving DecidableEq, Repr

inductive DiagnosticsReply16
  | diagnostics (fileName : Option String)
  | log (status : GetLogStatus) (fileName : Option String)
  | callError (code : CallError16)
  deriving DecidableEq, Repr

structure LogIdentity201 where
  logType : LogType
  requestId : Int
  deriving DecidableEq, Repr

inductive DiagnosticsReply201
  | status (status : GetLogStatus) (fileName reasonCode : Option String)
  | callError (code : CallError201)
  deriving DecidableEq, Repr

abbrev FirmwareResult16 :=
  JobResult FirmwareVariant16 FirmwareArtifact FirmwareReply16 FirmwareProgress FirmwareStatus Empty

abbrev FirmwareResult201 :=
  JobResult FirmwareIdentity201 FirmwareArtifact FirmwareReply201 FirmwareProgress FirmwareStatus Empty

abbrev DiagnosticsResult16 :=
  JobResult DiagnosticsVariant16 DiagnosticsDestination DiagnosticsReply16 LogProgress16 LogUploadStatus16
    DiagnosticsUpload

abbrev DiagnosticsResult201 :=
  JobResult LogIdentity201 DiagnosticsDestination DiagnosticsReply201 LogProgress201 LogUploadStatus201
    DiagnosticsUpload

end Jobs

section LocalAuthorization

inductive LocalListUpdateType
  | full
  | differential
  deriving DecidableEq, Repr

inductive SendLocalListStatus16
  | accepted
  | failed
  | notSupported
  | versionMismatch
  deriving DecidableEq, Repr

inductive SendLocalListStatus201
  | accepted
  | failed
  | versionMismatch
  deriving DecidableEq, Repr

inductive ClearCacheStatus
  | accepted
  | rejected
  deriving DecidableEq, Repr

inductive LocalAuthorizationResult (σ : Type)
  | getLocalListVersion (version : Int)
  | sendLocalList (version : Int) (updateType : LocalListUpdateType) (status : σ)
  | clearCache (status : ClearCacheStatus)
  deriving DecidableEq, Repr

abbrev LocalAuthorizationResult16 := LocalAuthorizationResult SendLocalListStatus16

abbrev LocalAuthorizationResult201 := LocalAuthorizationResult SendLocalListStatus201

def LocalAuthorizationResult16.accepted : LocalAuthorizationResult16 → Bool
  | .getLocalListVersion _ => true
  | .sendLocalList _ _ status => status = .accepted
  | .clearCache status => status = .accepted

def LocalAuthorizationResult201.accepted : LocalAuthorizationResult201 → Bool
  | .getLocalListVersion _ => true
  | .sendLocalList _ _ status => status = .accepted
  | .clearCache status => status = .accepted

end LocalAuthorization

section Configuration

structure DeviceEvse201 where
  id : Int
  connectorId : Option Int
  deriving DecidableEq, Repr

structure DeviceComponent201 where
  name : String
  instanceName : Option String
  evse : Option DeviceEvse201
  deriving DecidableEq, Repr

structure DeviceVariable201 where
  name : String
  instanceName : Option String
  deriving DecidableEq, Repr

inductive DeviceAttributeType201
  | actual
  | target
  | minSet
  | maxSet
  deriving DecidableEq, Repr

inductive SetVariableStatus201
  | accepted
  | rejected
  | unknownComponent
  | unknownVariable
  | notSupportedAttributeType
  | rebootRequired
  deriving DecidableEq, Repr

inductive SetNetworkProfileStatus201
  | accepted
  | rejected
  | failed
  deriving DecidableEq, Repr

structure SetVariableResult201 where
  component : DeviceComponent201
  variableOf : DeviceVariable201
  attributeType : DeviceAttributeType201
  status : SetVariableStatus201
  deriving DecidableEq, Repr

inductive ConfigurationResult201
  | setVariables (entries : List SetVariableResult201)
  | setNetworkProfile (configurationSlot : Int) (status : SetNetworkProfileStatus201) (staged : Bool)
  deriving DecidableEq, Repr

def SetVariableStatus201.accepts : SetVariableStatus201 → Bool
  | accepted | rebootRequired => true
  | _ => false

def ConfigurationResult201.accepted : ConfigurationResult201 → Bool
  | setVariables entries => entries ≠ [] ∧ ∀ v ∈ entries, v.status.accepts
  | setNetworkProfile _ status _ => status = .accepted

end Configuration

section Reports

structure ReportProgress where
  fragments : Nat
  items : Nat
  bytes : Nat
  deriving DecidableEq, Repr

/-- A multipart report: `φ` says why it may be incomplete, `β` is what a complete one holds. -/
inductive ReportState (φ β : Type)
  | pending
  | complete (progress : ReportProgress) (body : β)
  | incomplete (reason : φ) (progress : Option ReportProgress)
  | notExpected
  deriving DecidableEq, Repr

def ReportState.isPending {φ β : Type} : ReportState φ β → Bool
  | pending => true
  | _ => false

inductive DeviceReportFailure201
  | timeout
  | byteLimit
  | itemLimit
  | fragmentLimit
  | capacity
  | duplicateSequence
  | outOfOrderSequence
  | correlation
  | invalidFragment
  | disconnected
  | interrupted
  | outputLimit
  | storageUnavailable
  | notTransmitted
  | nativeRejected
  | missingAcknowledgement
  deriving DecidableEq, Repr

abbrev DeviceReportState201 := ReportState DeviceReportFailure201 Encoded

inductive DeviceModelQuery201
  | getVariables (entries : Encoded)
  | getBaseReport (requestId : Int) (reportBase : Encoded)
  | getReport (requestId : Int) (selectors criteria : Encoded)
  deriving DecidableEq, Repr

def DeviceModelQuery201.requestId : DeviceModelQuery201 → Option Int
  | getVariables _ => none
  | getBaseReport requestId _ | getReport requestId _ _ => some requestId

inductive DeviceReportAck201
  | accepted
  | rejected
  | notSupported
  | emptyResultSet
  deriving DecidableEq, Repr

structure DeviceModelResult201 where
  query : DeviceModelQuery201
  connection : String
  generation : Nat
  dispatchRecordedAt : UtcTimestamp
  nativeAck : Option DeviceReportAck201
  variableResults : List Encoded
  report : DeviceReportState201
  deriving DecidableEq, Repr

inductive ChargingProfilesStatus201
  | accepted
  | noProfiles
  deriving DecidableEq, Repr

inductive ChargingProfileReportFailure201
  | timeout
  | byteLimit
  | itemLimit
  | fragmentLimit
  | capacity
  | correlation
  | invalidFragment
  | disconnected
  | interrupted
  | outputLimit
  | storageUnavailable
  deriving DecidableEq, Repr

abbrev ChargingProfileReportState201 := ReportState ChargingProfileReportFailure201 Encoded

structure ChargingProfilesResult201 where
  query : Encoded
  status : ChargingProfilesStatus201
  reasonCode : Option Encoded
  report : ChargingProfileReportState201
  deriving DecidableEq, Repr

end Reports

section ChargingProfile

inductive ChargingProfilePurpose201
  | chargingStationMaxProfile
  | txDefaultProfile
  | txProfile
  deriving DecidableEq, Repr

/-- A native profile; its kind, recurrency and schedule are kept as one document. -/
structure ChargingProfile201 where
  id : Int
  stackLevel : Int
  chargingProfilePurpose : ChargingProfilePurpose201
  transactionId : Option String
  validFrom : Option UtcTimestamp
  validTo : Option UtcTimestamp
  schedule : Encoded
  deriving DecidableEq, Repr

structure SetChargingProfileRequest201 where
  evseId : Int
  chargingProfile : ChargingProfile201
  deriving DecidableEq, Repr

structure ChargingProfileCriteria201 where
  evseId : Option Int
  chargingProfilePurpose : Option ChargingProfilePurpose201
  stackLevel : Option Int
  deriving DecidableEq, Repr

structure ClearChargingProfileRequest201 where
  chargingProfileId : Option Int
  chargingProfileCriteria : Option ChargingProfileCriteria201
  deriving DecidableEq, Repr

inductive SetChargingProfileStatus201
  | accepted
  | rejected
  deriving DecidableEq, Repr

inductive ClearChargingProfileStatus201
  | accepted
  | unknown
  deriving DecidableEq, Repr

inductive ChargingProfileReason201
  | notSupported
  | invalidValue
  | notFound
  deriving DecidableEq, Repr

inductive ChargingProfileResult201
  | setChargingProfile (request : SetChargingProfileRequest201) (status : SetChargingProfileStatus201)
      (reasonCode : Option ChargingProfileReason201)
  | clearChargingProfile (request : ClearChargingProfileRequest201) (status : ClearChargingProfileStatus201)
      (reasonCode : Option ChargingProfileReason201)
  deriving DecidableEq, Repr

def ChargingProfileResult201.accepted : ChargingProfileResult201 → Bool
  | setChargingProfile _ status _ => status = .accepted
  | clearChargingProfile _ status _ => status = .accepted

end ChargingProfile

structure CommandResult where
  schemaVersion : ContractVersion
  correlationId : Option String
  resource : ResourceRef
  returnRoute : CommandReturnRoute
  lifecycle : CommandLifecycle
  recordedAt : UtcTimestamp
  observedEffects : List ObservedCommandEffect := []
  configuration : Option ConfigurationResult := none
  configurationObservations : List ConfigurationObservation := []
  triggerObservation : Option TriggerObservation := none
  triggerObservation201 : Option TriggerObservation201 := none
  compositeSchedule16 : Option Encoded := none
  deviceModel201 : Option DeviceModelResult201 := none
  chargingProfile16 : Option Encoded := none
  chargingProfile201 : Option ChargingProfileResult201 := none
  configuration201 : Option ConfigurationResult201 := none
  localAuthorization16 : Option LocalAuthorizationResult16 := none
  localAuthorization201 : Option LocalAuthorizationResult201 := none
  reservation16 : Option ReservationResult16 := none
  reservation201 : Option ReservationResult201 := none
  compositeSchedule201 : Option Encoded := none
  chargingProfiles201 : Option ChargingProfilesResult201 := none
  firmware16 : Option FirmwareResult16 := none
  firmware201 : Option FirmwareResult201 := none
  diagnostics16 : Option DiagnosticsResult16 := none
  diagnostics201 : Option DiagnosticsResult201 := none
  deriving DecidableEq, Repr

def CommandResult.request (result : CommandResult) : RequestId := result.returnRoute.requestId

end OcppBridge.Operational
