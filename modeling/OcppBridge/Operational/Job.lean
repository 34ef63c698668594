import OcppBridge.Operational.Ledger

namespace OcppBridge.Operational

open Storage Transaction

/-- A durable job; `κ` is the immutable native request it was admitted for. -/
structure JobRecord (κ π τ υ : Type) where
  station : ResourceRef
  requestId : RequestId
  request : κ
  revision : Nat
  state : JobState π
  admittedAt : UtcTimestamp
  changedAt : UtcTimestamp
  deadline : UtcTimestamp
  /-- Whether dispatch started. -/
  started : Bool
  uploadId : Option String
  lastStatus : Option τ
  lastStatusAt : Option UtcTimestamp
  notifications : Nat
  rejectedTransitions : Nat
  upload : Option υ
  deriving DecidableEq, Repr

structure JobMutation (κ : Type) where
  station : ResourceRef
  requestId : RequestId
  request : κ
  admittedAt : UtcTimestamp
  deadline : UtcTimestamp
  deriving DecidableEq, Repr

def JobRecord.evidence {κ π τ υ : Type} (record : JobRecord κ π τ υ) : JobEvidence π τ υ where
  revision := record.revision
  state := record.state
  deadline := record.deadline
  observedAt := record.changedAt
  lastStatus := record.lastStatus
  lastStatusAt := record.lastStatusAt
  notifications := record.notifications
  rejectedTransitions := record.rejectedTransitions
  upload := record.upload

def maxJobs : Nat := 64

def maxReleaseJobs : Nat := 128

/-- What distinguishes the job ledgers: firmware and log uploads, in both protocol editions. -/
structure JobFamily (P κ δ ι α ρ π τ υ : Type) where
  noun : String
  label : String
  title : String
  kind : String
  scheme : String
  version : ContractVersion
  settled : π → Bool
  wellFormed : JobRecord κ π τ υ → Bool
  evidence : CommandResult → Option (JobResult ι α ρ π τ υ)
  setEvidence : JobResult ι α ρ π τ υ → CommandResult → CommandResult
  validateCommand : Command P → Except StorageError Unit
  validateResult : CommandResult → Except StorageError Unit
  /-- The immutable native request of a stored command. -/
  request : Command P → Option δ
  requests : κ → δ
  identity : κ → ι
  describes : δ → JobResult ι α ρ π τ υ → Bool
  /-- Evidence that only the job, not the command, can confirm. -/
  confirms : Option (κ → JobResult ι α ρ π τ υ → Bool)
  accepted : ρ → Bool
  cancelsPrevious : ρ → Bool
  refusal : ρ → JobState π
  /-- Why a new request may not be admitted beside the retained jobs. -/
  blocked : List (JobRecord κ π τ υ) → κ → Option String

namespace JobFamily

variable {P κ δ ι α ρ π τ υ : Type}

section Definitions

variable (family : JobFamily P κ δ ι α ρ π τ υ)

def resolved : JobState π → Bool
  | .rejected | .notSent | .cancelled | .superseded | .stationIdle => true
  | .pending | .uncertain | .accepted | .timedOut => false
  | .native progress => family.settled progress

variable (P) in
def releaseJobId [Wire P] (scheme : String) (request : RequestId) : String := scheme ++ Wire.sha256Hex P request

def shape [Wire P] : Shape (JobRecord κ π τ υ) where
  station := (·.station)
  revision := (·.revision)
  requestId := (·.requestId)
  decodable record :=
    0 < record.revision && record.station.resource = none && record.admittedAt ≤ record.changedAt &&
      record.lastStatus.isSome = record.lastStatusAt.isSome && family.wellFormed record
  malformed := "invalid " ++ family.title ++ " job record"
  limit := maxJobs
  overflow := family.title ++ " job history exceeds bounded capacity"
  exhausted := family.label ++ " revision exhausted"
  ownerChanged := family.noun ++ " job owner changed"
  closes record :=
    if family.resolved record.state then some (releaseJobId P family.scheme record.requestId) else none
  refresh record result :=
    (family.evidence result).map fun stored => family.setEvidence { stored with job := record.evidence } result

end Definitions

variable [Wire P] (family : JobFamily P κ δ ι α ρ π τ υ)

abbrev Records (family : JobFamily P κ δ ι α ρ π τ υ) := Desk P family.shape

def owner (journal : Journal P) (request : RequestId) : Except StorageError (Command P) := do
  let command ← journal.owner request
  family.validateCommand command
  pure command

def validateMutation [DecidableEq δ] (journal : Journal P) (mutation : JobMutation κ) : Except StorageError Unit := do
  let command ← family.owner journal mutation.requestId
  require (command.resource.key = mutation.station.key ∧ mutation.station.resource = none ∧
      command.admittedAt = mutation.admittedAt ∧ family.request command = some (family.requests mutation.request))
    (conflict (family.noun ++ " job changed immutable request"))

def confirmed (desk : family.Records) (request : RequestId) (evidence : JobResult ι α ρ π τ υ) :
    Except StorageError Bool :=
  match family.confirms with
  | none => pure true
  | some confirms => do
      let job ← (desk.ofRequest request).mapM fun entry => family.shape.decode entry.record
      pure (job.all fun job => confirms job.request evidence)

def correlate (desk : family.Records) (result : CommandResult) : Except StorageError Unit := do
  let command ← family.owner desk.journal result.request
  require (result.answers command) (conflict (family.noun ++ " result owner changed"))
  match family.evidence result with
  | none => pure ()
  | some evidence => do
      family.validateResult result
      match family.request command with
      | none => .error (conflict ("not a " ++ family.noun ++ " owner"))
      | some request => do
          let confirmed ← family.confirmed desk result.request evidence
          require (family.describes request evidence ∧ confirmed)
            (conflict (family.noun ++ " result changed immutable request"))

def merge [DecidableEq ι] [DecidableEq α] [DecidableEq ρ] (previous incoming : CommandResult) :
    Except StorageError CommandResult :=
  match family.evidence previous, family.evidence incoming with
  | none, _ => pure incoming
  | some old, none => pure { family.setEvidence old incoming with schemaVersion := family.version }
  | some old, some new => do
      require (old.identity = new.identity ∧ (old.reply = none ∨ new.reply = none ∨ old.reply = new.reply) ∧
          (old.offer = none ∨ new.offer = none ∨ old.offer = new.offer))
        (conflict (family.noun ++ " native reply is immutable"))
      pure (family.setEvidence { new with reply := new.reply <|> old.reply, offer := new.offer <|> old.offer } incoming)

def validateStored [DecidableEq π] [DecidableEq τ] [DecidableEq υ] (desk : family.Records) (result : CommandResult) :
    Except StorageError Unit :=
  match family.evidence result with
  | none => pure ()
  | some stored => do
      (family.correlate desk result).mapError fun _ =>
        integrityFailure ("invalid stored " ++ family.noun ++ " result owner")
      match desk.ofRequest result.request with
      | none => .error (integrityFailure ("stored " ++ family.noun ++ " result lacks durable job"))
      | some entry => do
          let record ← family.shape.decode entry.record
          require (stored.job = record.evidence ∧ family.confirms.all (· record.request stored))
            (integrityFailure ("stored " ++ family.noun ++ " job evidence changed"))

end JobFamily

end OcppBridge.Operational
