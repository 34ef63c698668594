import OcppBridge.Operational.JobLedger

namespace OcppBridge.Operational

open Storage Transaction

variable {P : Type} [Wire P]

inductive UploadOutcome
  | received (facts : DiagnosticsUpload)
  | missing
  deriving DecidableEq, Repr

structure UploadCheck where
  uploadId : String
  outcome : UploadOutcome
  deriving DecidableEq, Repr

namespace Diagnostics

variable {κ π τ : Type}

def confirmedUpload (uploadId : Option String) (check : Option UploadCheck) : Option DiagnosticsUpload :=
  match check with
  | some ⟨checked, .received facts⟩ => if uploadId = some checked then some facts else none
  | _ => none

abbrev Record (κ π τ : Type) := JobRecord κ π τ DiagnosticsUpload

def uploadsWellFormed [DecidableEq π] (uploaded : π) (record : Record κ π τ) : Bool :=
  record.uploadId.all validUploadId && (record.uploadId = none || record.started) &&
    record.upload.isSome = (record.state = .native uploaded) && record.upload.all fun u => validSha256 u.sha256

def answered [DecidableEq π] (uploading : π) (state : JobState π) : Bool :=
  state = .accepted || state = .native uploading || state = .timedOut

end Diagnostics

namespace LogProgress16

def settled : LogProgress16 → Bool
  | uploading => false
  | _ => true

end LogProgress16

namespace LogProgress201

def settled : LogProgress201 → Bool
  | uploading => false
  | _ => true

end LogProgress201

namespace LogUploadStatus16

def diagnostics : LogUploadStatus16 → Bool
  | idle | uploaded | uploadFailed | uploading => true
  | _ => false

def log : LogUploadStatus16 → Bool
  | uploadFailed => false
  | _ => true

def state (upload : Option DiagnosticsUpload) : LogUploadStatus16 → JobState LogProgress16
  | uploading => .native .uploading
  | uploaded => if upload.isSome then .native .uploaded else .native .uploadUnconfirmed
  | uploadFailed | uploadFailure => .native .uploadFailed
  | badMessage => .native .badMessage
  | notSupportedOperation => .native .notSupportedOperation
  | permissionDenied => .native .permissionDenied
  | idle => .stationIdle

end LogUploadStatus16

namespace LogUploadStatus201

def state (upload : Option DiagnosticsUpload) : LogUploadStatus201 → JobState LogProgress201
  | uploading => .native .uploading
  | uploaded => if upload.isSome then .native .uploaded else .native .uploadUnconfirmed
  | uploadFailure => .native .uploadFailed
  | badMessage => .native .badMessage
  | notSupportedOperation => .native .notSupportedOperation
  | permissionDenied => .native .permissionDenied
  | acceptedCanceled => .cancelled
  | idle => .stationIdle

end LogUploadStatus201

namespace Diagnostics16

def diagnosticsSchema : String := "urn:uob:ocpp16:GetDiagnosticsReference:1"

def logSchema : String := "urn:uob:ocpp16:GetLogReference:1"

def request (command : Command P) : Option DiagnosticsVariant16 :=
  match command.operation with
  | .ocpp operation =>
      match operation.action with
      | "GetDiagnostics" =>
          if operation.payloadSchema = diagnosticsSchema then
            (decodeGetDiagnostics16 operation.payload).map fun _ => .diagnostics
          else none
      | "GetLog" =>
          if operation.payloadSchema = logSchema then
            (decodeGetLog operation.payload).map fun r => .log r.logType r.requestId
          else none
      | _ => none
  | _ => none

/-- The 2.0.1 `GetLog` belongs to its own edition; `GetDiagnostics` exists only in 1.6. -/
def validateCommand (command : Command P) : Except StorageError Unit :=
  match command.operation with
  | .ocpp operation =>
      if operation.action = "GetDiagnostics" ∨ (operation.action = "GetLog" ∧ operation.protocol = .ocpp16j) then
        require (operation.protocol = .ocpp16j ∧ stationScope16 command.resource ∧ (request command).isSome)
          (conflict "invalid protected diagnostics command")
      else pure ()
  | _ => pure ()

abbrev Record := Diagnostics.Record DiagnosticsVariant16 LogProgress16 LogUploadStatus16

def statusBelongs (variant : DiagnosticsVariant16) (status : LogUploadStatus16) : Bool :=
  match variant with
  | .diagnostics => status.diagnostics
  | .log _ _ => status.log

def active : JobState LogProgress16 → Bool
  | .pending | .accepted => true
  | .native progress => !progress.settled
  | _ => false

/-- OCPP 1.6 defines no cancellation of a legacy upload; a new `GetLog` may cancel an ongoing log upload. -/
def blocked (values : List Record) (variant : DiagnosticsVariant16) : Option String :=
  match variant with
  | .diagnostics => if values.any fun record => active record.state then some "log upload already active" else none
  | .log _ requestId =>
      if values.any fun record => record.request = .diagnostics && active record.state then
        some "log upload already active"
      else if values.any fun record => match record.request with
          | .log _ used => used = requestId
          | .diagnostics => false
      then some "log requestId already used" else none

def family : JobFamily P DiagnosticsVariant16 DiagnosticsVariant16 DiagnosticsVariant16 DiagnosticsDestination
    DiagnosticsReply16 LogProgress16 LogUploadStatus16 DiagnosticsUpload where
  noun := "diagnostics"
  label := "diagnostics"
  title := "diagnostics"
  kind := "diagnostics"
  scheme := "diagnostics16/"
  version := .v1Diagnostics16
  settled := LogProgress16.settled
  wellFormed record :=
    record.lastStatus ≠ some .idle && record.lastStatus.all (statusBelongs record.request) &&
      Diagnostics.uploadsWellFormed .uploaded record
  evidence := (·.diagnostics16)
  setEvidence evidence result := { result with diagnostics16 := some evidence }
  validateCommand := validateCommand
  validateResult := validateResult
  request := request
  requests := id
  identity := id
  describes request evidence := evidence.identity = request
  confirms := none
  accepted := accepted
  cancelsPrevious reply := match reply with | .log .acceptedCanceled _ => true | _ => false
  -- No file name means the station has no diagnostics to upload.
  refusal reply := if reply = .diagnostics none then .native .noLogAvailable else .rejected
  blocked := blocked

/-- `Uploaded` is taken over only when the provider holds a complete file for the job's own destination. -/
def applyStatus (resolved : JobState LogProgress16 → Bool) (status : LogUploadStatus16) (check : Option UploadCheck)
    (observedAt : UtcTimestamp) (record : Record) : Record :=
  let record := { record with notifications := countedUp record.notifications }
  let upload := Diagnostics.confirmedUpload record.uploadId check
  if resolved record.state then record
  else if statusBelongs record.request status then
    { record with
      lastStatus := if status = .idle then record.lastStatus else some status
      lastStatusAt := if status = .idle then record.lastStatusAt else some observedAt
      upload := if status = .uploaded then upload <|> record.upload else record.upload
      state := status.state upload
      changedAt := max record.changedAt observedAt }
  else { record with rejectedTransitions := countedUp record.rejectedTransitions }

inductive ObservationKind
  | status (status : LogUploadStatus16) (log : Bool) (requestId : Option Int) (upload : Option UploadCheck)
  | expiry
  deriving DecidableEq, Repr

abbrev Observation := StationObservation ObservationKind

def attributed (resolved : JobState LogProgress16 → Bool) (status : LogUploadStatus16) (log : Bool)
    (requestId : Option Int) (record : Record) : Bool :=
  match log, requestId, record.request with
  | false, _, .diagnostics => !resolved record.state
  | true, some wanted, .log _ requestId => requestId = wanted
  | true, none, .log _ _ => status = .idle && Diagnostics.answered .uploading record.state
  | _, _, _ => false

def observe (desk : (family (P := P)).Records) (observation : Observation) :
    Except StorageError (family (P := P)).Records :=
  let resolved := (family (P := P)).resolved
  match observation.kind with
  | .expiry => family.expire desk observation.station observation.observedAt
  | .status status log requestId upload =>
      family.report desk observation.station (attributed resolved status log requestId)
        (applyStatus resolved status upload observation.observedAt)

end Diagnostics16

namespace Diagnostics201

def logSchema : String := "urn:uob:ocpp201:GetLogReference:1"

def request (command : Command P) : Option LogIdentity201 :=
  match command.operation with
  | .ocpp operation =>
      if operation.action = "GetLog" ∧ operation.payloadSchema = logSchema then
        (decodeGetLog operation.payload).map fun r => ⟨r.logType, r.requestId⟩
      else none
  | _ => none

def validateCommand (command : Command P) : Except StorageError Unit :=
  match command.operation with
  | .ocpp operation =>
      if operation.protocol = .ocpp201 ∧ operation.action = "GetLog" then
        require (stationScope201 command.resource ∧ (request command).isSome)
          (conflict "invalid protected log command")
      else pure ()
  | _ => pure ()

abbrev Record := Diagnostics.Record LogIdentity201 LogProgress201 LogUploadStatus201

def family : JobFamily P LogIdentity201 LogIdentity201 LogIdentity201 DiagnosticsDestination DiagnosticsReply201
    LogProgress201 LogUploadStatus201 DiagnosticsUpload where
  noun := "log"
  label := "log job"
  title := "log upload"
  kind := "diagnostics"
  scheme := "diagnostics201/"
  version := .v1Diagnostics201
  settled := LogProgress201.settled
  wellFormed record := record.lastStatus ≠ some .idle && Diagnostics.uploadsWellFormed .uploaded record
  evidence := (·.diagnostics201)
  setEvidence evidence result := { result with diagnostics201 := some evidence }
  validateCommand := validateCommand
  validateResult := validateResult
  request := request
  requests := id
  identity := id
  describes request evidence := evidence.identity = request
  confirms := none
  accepted := accepted
  cancelsPrevious reply := match reply with | .status .acceptedCanceled _ _ => true | _ => false
  refusal _ := .rejected
  -- Reports are matched by `requestId` alone, so a retained one cannot be reused.
  blocked values request :=
    if values.any (·.request.requestId = request.requestId) then some "log requestId already used" else none

def applyStatus (resolved : JobState LogProgress201 → Bool) (status : LogUploadStatus201) (check : Option UploadCheck)
    (observedAt : UtcTimestamp) (record : Record) : Record :=
  let record := { record with notifications := countedUp record.notifications }
  let upload := Diagnostics.confirmedUpload record.uploadId check
  if resolved record.state then record
  else
    { record with
      lastStatus := if status = .idle then record.lastStatus else some status
      lastStatusAt := if status = .idle then record.lastStatusAt else some observedAt
      upload := if status = .uploaded then upload <|> record.upload else record.upload
      state := status.state upload
      changedAt := max record.changedAt observedAt }

inductive ObservationKind
  | status (status : LogUploadStatus201) (requestId : Option Int) (upload : Option UploadCheck)
  | expiry
  deriving DecidableEq, Repr

abbrev Observation := StationObservation ObservationKind

/-- An identity-free `Idle` leaves alone a job whose request the station may not have seen. -/
def attributed (status : LogUploadStatus201) (requestId : Option Int) (record : Record) : Bool :=
  match requestId with
  | some wanted => record.request.requestId = wanted
  | none => status = .idle && Diagnostics.answered .uploading record.state

def observe (desk : (family (P := P)).Records) (observation : Observation) :
    Except StorageError (family (P := P)).Records :=
  match observation.kind with
  | .expiry => family.expire desk observation.station observation.observedAt
  | .status status requestId upload =>
      family.report desk observation.station (attributed status requestId)
        (applyStatus (family (P := P)).resolved status upload observation.observedAt)

end Diagnostics201

end OcppBridge.Operational
