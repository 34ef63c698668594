import OcppBridge.Operational.JobLedger

namespace OcppBridge.Operational

open Storage Transaction

variable {P : Type} [Wire P]

namespace FirmwareProgress

def settled : FirmwareProgress → Bool
  | installed | downloadFailed | installationFailed | installVerificationFailed | invalidSignature => true
  | _ => false

end FirmwareProgress

namespace FirmwareStatus

def legacy : FirmwareStatus → Bool
  | downloaded | downloadFailed | downloading | idle | installationFailed | installing | installed => true
  | _ => false

def signature : FirmwareStatus → Bool
  | signatureVerified | invalidSignature => true
  | _ => false

def phase : FirmwareStatus → Nat
  | idle => 0
  | downloadScheduled => 1
  | downloading | downloadPaused => 2
  | downloaded | downloadFailed => 3
  | signatureVerified | invalidSignature => 4
  | installScheduled => 5
  | installRebooting | installing | installVerificationFailed => 6
  | installed | installationFailed => 7

def state : FirmwareStatus → JobState FirmwareProgress
  | downloaded => .native .downloaded
  | downloadFailed => .native .downloadFailed
  | downloading => .native .downloading
  | downloadScheduled => .native .downloadScheduled
  | downloadPaused => .native .downloadPaused
  | idle => .stationIdle
  | installationFailed => .native .installationFailed
  | installing => .native .installing
  | installed => .native .installed
  | installRebooting => .native .installRebooting
  | installScheduled => .native .installScheduled
  | installVerificationFailed => .native .installVerificationFailed
  | invalidSignature => .native .invalidSignature
  | signatureVerified => .native .signatureVerified

def follows (status : FirmwareStatus) (last : Option FirmwareStatus) : Bool :=
  let floor := (last.map phase).getD 0
  match status with
  | idle | installed | installationFailed => true
  | downloadFailed => floor ≤ 2
  | invalidSignature => floor ≤ 3
  | installVerificationFailed => floor ≤ 6
  | progress => floor ≤ progress.phase

end FirmwareStatus

namespace Firmware

variable {κ : Type}

abbrev Record (κ : Type) := JobRecord κ FirmwareProgress FirmwareStatus Empty

/-- Progress never moves to an earlier phase, and a resolved job counts the fact without being revived. -/
def applyStatus (resolved : JobState FirmwareProgress → Bool) (permitted : κ → FirmwareStatus → Bool)
    (status : FirmwareStatus) (observedAt : UtcTimestamp) (record : Record κ) : Record κ :=
  let record := { record with notifications := countedUp record.notifications }
  if resolved record.state then record
  else if permitted record.request status && status.follows record.lastStatus then
    { record with
      lastStatus := if status = .idle then record.lastStatus else some status
      lastStatusAt := if status = .idle then record.lastStatusAt else some observedAt
      state := status.state
      changedAt := max record.changedAt observedAt }
  else { record with rejectedTransitions := countedUp record.rejectedTransitions }

end Firmware

namespace Firmware16

structure Request where
  variant : FirmwareVariant16
  artifactReference : String
  deriving DecidableEq, Repr

def updateSchema : String := "urn:uob:ocpp16:UpdateFirmwareReference:1"

def signedUpdateSchema : String := "urn:uob:ocpp16:SignedUpdateFirmwareReference:1"

def request (command : Command P) : Option Request :=
  match command.operation with
  | .ocpp operation =>
      match operation.action with
      | "UpdateFirmware" =>
          if operation.payloadSchema = updateSchema then
            (decodeUpdateFirmware16 operation.payload).map fun r => ⟨.legacy, r.artifactReference⟩
          else none
      | "SignedUpdateFirmware" =>
          if operation.payloadSchema = signedUpdateSchema then
            (decodeUpdateFirmware operation.payload).map fun r => ⟨.signed r.requestId, r.artifactReference⟩
          else none
      | _ => none
  | _ => none

/-- The 2.0.1 `UpdateFirmware` is validated by its own edition. -/
def validateCommand (command : Command P) : Except StorageError Unit :=
  match command.operation with
  | .ocpp operation =>
      if (operation.action = "UpdateFirmware" ∧ operation.protocol ≠ .ocpp201) ∨
          operation.action = "SignedUpdateFirmware" then
        require (operation.protocol = .ocpp16j ∧ stationScope16 command.resource ∧ (request command).isSome)
          (conflict "invalid protected firmware command")
      else pure ()
  | _ => pure ()

def blocked (values : List (Firmware.Record Request)) (request : Request) : Option String :=
  match request.variant with
  | .legacy =>
      if values.any fun record => match record.state with
        | .pending | .accepted => true
        | .native progress => !progress.settled
        | _ => false
      then some "firmware update already active" else none
  | .signed requestId =>
      if values.any fun record => record.request.variant = .signed requestId then
        some "firmware requestId already used" else none

def family : JobFamily P Request Request FirmwareVariant16 FirmwareArtifact FirmwareReply16 FirmwareProgress
    FirmwareStatus Empty where
  noun := "firmware"
  label := "firmware"
  title := "firmware"
  kind := "firmware"
  scheme := "firmware16/"
  version := .v1Firmware16
  settled := FirmwareProgress.settled
  wellFormed record :=
    validFirmwareArtifactReference record.request.artifactReference && record.lastStatus ≠ some .idle &&
      (record.request.variant ≠ .legacy || record.lastStatus.all (·.legacy))
  evidence := (·.firmware16)
  setEvidence evidence result := { result with firmware16 := some evidence }
  validateCommand := validateCommand
  validateResult := validateResult
  request := request
  requests := id
  identity := (·.variant)
  describes request evidence :=
    evidence.identity = request.variant && evidence.offer.all (·.artifactReference = request.artifactReference)
  confirms := none
  accepted := accepted
  cancelsPrevious reply := reply = .status .acceptedCanceled
  refusal _ := .rejected
  blocked := blocked

def permitted (request : Request) (status : FirmwareStatus) : Bool := request.variant ≠ .legacy || status.legacy

inductive ObservationKind
  | status (status : FirmwareStatus) (signed : Bool) (requestId : Option Int)
  | expiry
  deriving DecidableEq, Repr

abbrev Observation := StationObservation ObservationKind

/-- Legacy notifications carry no identity and belong to the newest unresolved legacy job. -/
def attributed (resolved : JobState FirmwareProgress → Bool) (status : FirmwareStatus) (signed : Bool)
    (requestId : Option Int) (record : Firmware.Record Request) : Bool :=
  match signed, requestId with
  | false, _ => record.request.variant = .legacy && !resolved record.state
  | true, some requestId => record.request.variant = .signed requestId
  | true, none => status = .idle && record.request.variant ≠ .legacy && !resolved record.state

def observe (desk : (family (P := P)).Records) (observation : Observation) :
    Except StorageError (family (P := P)).Records :=
  let resolved := (family (P := P)).resolved
  match observation.kind with
  | .expiry => family.expire desk observation.station observation.observedAt
  | .status status signed requestId =>
      family.report desk observation.station (attributed resolved status signed requestId)
        (Firmware.applyStatus resolved permitted status observation.observedAt)

end Firmware16

namespace Firmware201

structure Request where
  nativeRequestId : Int
  secure : Bool
  artifactReference : String
  deriving DecidableEq, Repr

def updateSchema : String := "urn:uob:ocpp201:UpdateFirmwareReference:1"

def request (command : Command P) : Option (Int × String) :=
  match command.operation with
  | .ocpp operation =>
      if operation.action = "UpdateFirmware" ∧ operation.payloadSchema = updateSchema then
        (decodeUpdateFirmware operation.payload).map fun r => (r.requestId, r.artifactReference)
      else none
  | _ => none

def validateCommand (command : Command P) : Except StorageError Unit :=
  match command.operation with
  | .ocpp operation =>
      if operation.protocol = .ocpp201 ∧ operation.action = "UpdateFirmware" then
        require (stationScope201 command.resource ∧ (request command).isSome)
          (conflict "invalid protected firmware command")
      else pure ()
  | _ => pure ()

def family : JobFamily P Request (Int × String) FirmwareIdentity201 FirmwareArtifact FirmwareReply201 FirmwareProgress
    FirmwareStatus Empty where
  noun := "firmware"
  label := "firmware"
  title := "firmware"
  kind := "firmware"
  scheme := "firmware201/"
  version := .v1Firmware201
  settled := FirmwareProgress.settled
  wellFormed record :=
    validFirmwareArtifactReference record.request.artifactReference && record.lastStatus ≠ some .idle &&
      (record.request.secure || record.lastStatus.all (!·.signature))
  evidence := (·.firmware201)
  setEvidence evidence result := { result with firmware201 := some evidence }
  validateCommand := validateCommand
  validateResult := validateResult
  request := request
  requests request := (request.nativeRequestId, request.artifactReference)
  identity request := ⟨request.nativeRequestId, request.secure⟩
  describes request evidence :=
    evidence.identity.requestId = request.1 && evidence.offer.all (·.artifactReference = request.2)
  confirms := some fun request evidence => request.secure = evidence.identity.secure
  accepted := accepted
  cancelsPrevious reply := match reply with | .status .acceptedCanceled _ => true | _ => false
  refusal _ := .rejected
  -- Station reports are matched by `requestId` alone, so it must stay unique.
  blocked values request :=
    if values.any (·.request.nativeRequestId = request.nativeRequestId) then some "firmware requestId already used"
    else none

def permitted (request : Request) (status : FirmwareStatus) : Bool := request.secure || !status.signature

inductive ObservationKind
  | status (status : FirmwareStatus) (requestId : Option Int)
  | expiry
  deriving DecidableEq, Repr

abbrev Observation := StationObservation ObservationKind

/-- An identity-free `Idle` settles the newest job the station has answered. -/
def attributed (resolved : JobState FirmwareProgress → Bool) (status : FirmwareStatus) (requestId : Option Int)
    (record : Firmware.Record Request) : Bool :=
  match requestId with
  | some requestId => record.request.nativeRequestId = requestId
  | none => status = .idle && !resolved record.state && !record.state.unanswered

def observe (desk : (family (P := P)).Records) (observation : Observation) :
    Except StorageError (family (P := P)).Records :=
  let resolved := (family (P := P)).resolved
  match observation.kind with
  | .expiry => family.expire desk observation.station observation.observedAt
  | .status status requestId =>
      family.report desk observation.station (attributed resolved status requestId)
        (Firmware.applyStatus resolved permitted status observation.observedAt)

end Firmware201

end OcppBridge.Operational
