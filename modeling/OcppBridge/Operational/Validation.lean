import OcppBridge.Operational.Payload

namespace OcppBridge.Operational

open Storage Transaction

def conflict (detail : String) : StorageError := ⟨.conflict, detail⟩

def integrityFailure (detail : String) : StorageError := ⟨.integrityFailure, detail⟩

namespace CommandResult

def unprotected (r : CommandResult) : Bool :=
  r.configuration.isSome || !r.configurationObservations.isEmpty || r.compositeSchedule16.isSome ||
    r.deviceModel201.isSome || r.chargingProfile16.isSome || r.chargingProfile201.isSome ||
    r.triggerObservation.isSome || r.triggerObservation201.isSome

def besideReservation (r : CommandResult) : Bool :=
  r.unprotected || r.configuration201.isSome || r.localAuthorization16.isSome || r.localAuthorization201.isSome

def besideJob (r : CommandResult) : Bool :=
  r.besideReservation || r.compositeSchedule201.isSome || r.chargingProfiles201.isSome ||
    r.reservation16.isSome || r.reservation201.isSome

end CommandResult

namespace Reservation

variable {τ ε : Type}

def validateResult (version : ContractVersion) (evidence : Option (ReservationResult τ ε)) (foreign : Bool)
    (result : CommandResult) : Except StorageError Unit :=
  match evidence with
  | none => pure ()
  | some evidence => do
      require (result.schemaVersion = version ∧ foreign = false ∧
          evidence.hasNativeStatus = result.lifecycle.isProtocolResponse)
        (conflict "invalid reservation result evidence")
      require (result.lifecycle.agrees evidence.accepted)
        (conflict "reservation native status and lifecycle disagree")

end Reservation

def Reservation16.validateResult (result : CommandResult) : Except StorageError Unit :=
  Reservation.validateResult .v1Reservation16 result.reservation16
    (result.besideReservation || result.reservation201.isSome) result

def Reservation201.validateResult (result : CommandResult) : Except StorageError Unit :=
  Reservation.validateResult .v1Reservation201 result.reservation201
    (result.besideReservation || result.reservation16.isSome) result

namespace Job

variable {ι α ρ π τ υ : Type}

def validateResult (noun : String) (version : ContractVersion) (evidence : Option (JobResult ι α ρ π τ υ))
    (foreign : Bool) (wellFormed : JobResult ι α ρ π τ υ → Bool) (accepted : ρ → Bool)
    (result : CommandResult) : Except StorageError Unit :=
  match evidence with
  | none => pure ()
  | some evidence => do
      require (result.schemaVersion = version ∧ foreign = false ∧
          evidence.reply.isSome = result.lifecycle.isProtocolResponse ∧ wellFormed evidence)
        (conflict ("invalid " ++ noun ++ " result evidence"))
      require (result.lifecycle.agrees (evidence.reply.any accepted))
        (conflict (noun ++ " native reply and lifecycle disagree"))

end Job

def UpdateFirmwareStatus.accepts : UpdateFirmwareStatus → Bool
  | accepted | acceptedCanceled => true
  | _ => false

def GetLogStatus.accepts : GetLogStatus → Bool
  | accepted | acceptedCanceled => true
  | _ => false

def FirmwareArtifact.wellFormed (artifact : FirmwareArtifact) (signed : Bool) : Bool :=
  validFirmwareArtifactReference artifact.artifactReference && artifact.sizeBytes ≠ 0 &&
    validSha256 artifact.sha256 && artifact.signed = signed

namespace Firmware16

def accepted : FirmwareReply16 → Bool
  | .acknowledged => true
  | .status status => status.accepts
  | .callError _ => false

def wellFormed (evidence : FirmwareResult16) : Bool :=
  evidence.offer.all (·.wellFormed (evidence.identity ≠ .legacy)) &&
    match evidence.identity, evidence.reply with
    | .legacy, some (.status _) | .signed _, some .acknowledged => false
    | _, _ => true

def validateResult (result : CommandResult) : Except StorageError Unit :=
  Job.validateResult "firmware" .v1Firmware16 result.firmware16
    (result.besideJob || result.firmware201.isSome || result.diagnostics16.isSome || result.diagnostics201.isSome)
    wellFormed accepted result

end Firmware16

namespace Firmware201

def accepted : FirmwareReply201 → Bool
  | .status status _ => status.accepts
  | .callError _ => false

def wellFormed (evidence : FirmwareResult201) : Bool :=
  evidence.offer.all (·.wellFormed evidence.identity.secure) &&
    match evidence.reply with
    | some (.status _ (some code)) => validReasonCode201 code
    | _ => true

def validateResult (result : CommandResult) : Except StorageError Unit :=
  Job.validateResult "firmware" .v1Firmware201 result.firmware201
    (result.besideJob || result.firmware16.isSome || result.diagnostics16.isSome || result.diagnostics201.isSome)
    wellFormed accepted result

end Firmware201

namespace Diagnostics16

def accepted : DiagnosticsReply16 → Bool
  | .diagnostics fileName => fileName.isSome
  | .log status _ => status.accepts
  | .callError _ => false

def logType : DiagnosticsVariant16 → LogType
  | .diagnostics => .diagnosticsLog
  | .log logType _ => logType

def replyMatches (evidence : DiagnosticsResult16) : Bool :=
  match evidence.identity, evidence.reply with
  | _, none | _, some (.callError _) => true
  | .diagnostics, some (.diagnostics fileName) | .log _ _, some (.log _ fileName) => fileName.all validLogFileName
  | _, _ => false

def wellFormed (evidence : DiagnosticsResult16) : Bool :=
  replyMatches evidence &&
    evidence.offer.all (fun d => d.maximumBytes ≠ 0 && d.logType = logType evidence.identity) &&
    evidence.job.upload.all fun u => validSha256 u.sha256

def validateResult (result : CommandResult) : Except StorageError Unit :=
  Job.validateResult "diagnostics" .v1Diagnostics16 result.diagnostics16
    (result.besideJob || result.firmware16.isSome || result.firmware201.isSome || result.diagnostics201.isSome)
    wellFormed accepted result

end Diagnostics16

namespace Diagnostics201

def accepted : DiagnosticsReply201 → Bool
  | .status status _ _ => status.accepts
  | .callError _ => false

def wellFormed (evidence : DiagnosticsResult201) : Bool :=
  (match evidence.reply with
    | some (.status _ fileName reasonCode) => fileName.all validLogFileName && reasonCode.all validReasonCode201
    | _ => true) &&
    evidence.offer.all (fun d => d.maximumBytes ≠ 0 && d.logType = evidence.identity.logType) &&
    evidence.job.upload.all fun u => validSha256 u.sha256

def validateResult (result : CommandResult) : Except StorageError Unit :=
  Job.validateResult "log" .v1Diagnostics201 result.diagnostics201
    (result.besideJob || result.firmware16.isSome || result.firmware201.isSome || result.diagnostics16.isSome)
    wellFormed accepted result

end Diagnostics201

end OcppBridge.Operational
