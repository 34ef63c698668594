import OcppBridge.Operational.Job

namespace OcppBridge.Operational

open Storage Transaction

def JobState.unanswered {π : Type} : JobState π → Bool
  | .pending | .uncertain => true
  | _ => false

def countedUp (count : Nat) : Nat := min (count + 1) (2 ^ 32 - 1)

def registerReleaseJob (jobs : List ReleaseJob) (job : ReleaseJob) (bounded : Bool) :
    Except StorageError (List ReleaseJob) := do
  require (bounded → jobs.length < maxReleaseJobs) (conflict "stateful job inventory full")
  pure (if jobs.any (·.id = job.id) then jobs else jobs ++ [job])

namespace JobFamily

variable {P κ δ ι α ρ π τ υ : Type} [Wire P] [DecidableEq π] (family : JobFamily P κ δ ι α ρ π τ υ)

def register (desk : family.Records) (request : RequestId) (bounded : Bool) : Except StorageError family.Records := do
  let releaseJobs ← registerReleaseJob desk.releaseJobs ⟨releaseJobId P family.scheme request, family.kind⟩ bounded
  pure { desk with releaseJobs }

def overdue (record : JobRecord κ π τ υ) (observedAt : UtcTimestamp) : Bool :=
  !family.resolved record.state && record.state ≠ .pending && record.state ≠ .timedOut && record.deadline ≤ observedAt

def expire (desk : family.Records) (station : ResourceRef) (observedAt : UtcTimestamp) :
    Except StorageError family.Records := do
  let station ← stationKey station
  let records ← desk.readKey station
  let (desk, _) ← Desk.sweep (Desk.amend none)
    (fun record =>
      if family.overdue record observedAt then
        some { record with state := .timedOut, changedAt := max record.changedAt observedAt }
      else none) desk records
  pure desk

def report (desk : family.Records) (station : ResourceRef) (attributed : JobRecord κ π τ υ → Bool)
    (apply : JobRecord κ π τ υ → JobRecord κ π τ υ) : Except StorageError family.Records := do
  let station ← stationKey station
  let records ← desk.readKey station
  match records.reverse.find? attributed with
  | none => pure desk
  | some record => desk.amend none (apply record)

/-- Resolved revisions whose public result is gone are dropped. -/
def prune (desk : family.Records) (station : StationKey) : Except StorageError family.Records := do
  let values ← desk.readKey station
  (values.dropLast.filter fun record => family.resolved record.state).foldlM
    (fun desk record => do
      let (desk, _) ← desk.delete station record
      pure desk) desk

def reserve [DecidableEq δ] (desk : family.Records) (mutation : JobMutation κ) :
    Except StorageError family.Records := do
  family.validateMutation desk.journal mutation
  let station ← stationKey mutation.station
  let desk ← family.expire desk mutation.station mutation.admittedAt
  let desk ← family.prune desk station
  require (desk.inflight station = false) (conflict ("station " ++ family.noun ++ " request already in flight"))
  let values ← desk.readKey station
  match family.blocked values mutation.request with
  | some detail => .error (conflict detail)
  | none => do
      require (values.length < maxJobs) (conflict (family.noun ++ " job history capacity exhausted"))
      require (mutation.admittedAt < mutation.deadline) (conflict (family.label ++ " deadline elapsed"))
      let desk ← family.register desk mutation.requestId true
      desk.insert station
        { station := mutation.station
          requestId := mutation.requestId
          request := mutation.request
          revision := (values.getLast?.map (·.revision + 1)).getD 1
          state := .pending
          admittedAt := mutation.admittedAt
          changedAt := mutation.admittedAt
          deadline := mutation.deadline
          started := false
          uploadId := none
          lastStatus := none
          lastStatusAt := none
          notifications := 0
          rejectedTransitions := 0
          upload := none }

def displace (record : JobRecord κ π τ υ) (cancelled : Bool) (at_ : UtcTimestamp) (older : JobRecord κ π τ υ) :
    Option (JobRecord κ π τ υ) :=
  if record.revision ≤ older.revision ∨ family.resolved older.state then none
  else some { older with
    state := if cancelled then .cancelled else .superseded
    changedAt := max older.changedAt at_ }

/-- An accepted request ends every older unresolved job of the station. -/
def retireOlder (desk : family.Records) (record : JobRecord κ π τ υ) (cancelled : Bool) (at_ : UtcTimestamp) :
    Except StorageError family.Records := do
  let station ← stationKey record.station
  let values ← desk.readKey station
  let (desk, _) ← Desk.sweep (Desk.amend (some false)) (family.displace record cancelled at_) desk values
  pure desk

/-- What one result lifecycle does to its own job, and whether the request stays in flight. -/
def advance (desk : family.Records) (entry : Entry (JobRecord κ π τ υ)) (reply : Option ρ) (incoming : CommandResult) :
    Except StorageError (family.Records × JobRecord κ π τ υ × Bool) :=
  let record := entry.record
  match incoming.lifecycle with
  | .admitted => pure (desk, record, entry.inflight)
  | .dispatched => pure (desk, { record with started := true }, entry.inflight)
  | .transmissionUncertain _ =>
      pure (desk, if record.state = .pending then { record with state := .uncertain } else record, false)
  | .rejected _ =>
      pure (desk, if record.state = .pending then { record with state := .notSent } else record, false)
  | .protocolResponse _ _ =>
      match reply with
      | none => pure (desk, record, false)
      | some reply =>
          if family.accepted reply then do
            let desk ← family.retireOlder desk record (family.cancelsPrevious reply) incoming.recordedAt
            pure (desk, if record.state.unanswered then { record with state := .accepted } else record, false)
          else
            pure (desk,
              if record.state.unanswered then { record with state := family.refusal reply } else record, false)

def publish (record : JobRecord κ π τ υ) (incoming : CommandResult) : CommandResult :=
  let result := match family.evidence incoming with
    | some result => { result with job := record.evidence }
    | none => { identity := family.identity record.request, offer := none, reply := none, job := record.evidence }
  { family.setEvidence result incoming with schemaVersion := family.version }

def finish (desk : family.Records) (incoming : CommandResult) : Except StorageError (family.Records × CommandResult) :=
  match desk.ofRequest incoming.request with
  | none => do
      require ((family.evidence incoming).isNone) (conflict (family.noun ++ " reply lacks durable job owner"))
      pure (desk, incoming)
  | some entry => do
      let record ← family.shape.decode entry.record
      family.correlate desk incoming
      let reply := (family.evidence incoming).bind (·.reply)
      require (incoming.lifecycle.isProtocolResponse = reply.isSome)
        (conflict (family.noun ++ " protocol response lacks native reply"))
      let (desk, changed, inflight) ← family.advance desk entry reply incoming
      let changed :=
        if changed.state ≠ record.state then { changed with changedAt := max changed.changedAt incoming.recordedAt }
        else changed
      let desk ← desk.save changed (some inflight)
      pure (desk, family.publish changed incoming)

/-- A job that was not sent is known as such after a restart, any other one is uncertain. -/
def recovered (record : JobRecord κ π τ υ) (now : UtcTimestamp) : JobRecord κ π τ υ :=
  if record.state = .pending then
    { record with
      state := if record.started then .uncertain else .notSent
      changedAt := max record.changedAt now }
  else record

def readopt (desk : family.Records) (record : JobRecord κ π τ υ) : Except StorageError family.Records := do
  let desk ← if family.resolved record.state then pure desk else family.register desk record.requestId false
  desk.amend (some false) record

def restart (now : UtcTimestamp) (startup : Bool) (desk : family.Records) (station : StationKey)
    (records : List (JobRecord κ π τ υ)) : Except StorageError family.Records :=
  if startup then do
    let (desk, _) ← Desk.sweep family.readopt
      (fun record => if family.resolved record.state then none else some (recovered record now))
      (desk.land station) records
    pure desk
  else pure desk

def maintainStation (now : UtcTimestamp) (startup : Bool) (desk : family.Records) (station : StationKey) :
    Except StorageError family.Records := do
  let records ← desk.readKey station
  let desk ← family.restart now startup desk station records
  match records.head? with
  | some record => family.expire desk record.station now
  | none => pure desk

def maintain (desk : family.Records) (now : UtcTimestamp) (startup : Bool) : Except StorageError family.Records :=
  desk.stations.foldlM (family.maintainStation now startup) desk

/-- Bind the provider destination to a pending, unsent job before dispatch may send it. -/
def bindUpload (desk : family.Records) (request : RequestId) (uploadId : String) : Except StorageError family.Records :=
  match desk.ofRequest request with
  | none => .error (conflict (family.noun ++ " job is not awaiting dispatch"))
  | some entry => do
      require entry.inflight (conflict (family.noun ++ " job is not awaiting dispatch"))
      let record ← family.shape.decode entry.record
      require (record.state = .pending ∧ record.uploadId = none)
        (conflict (family.noun ++ " job is not awaiting dispatch"))
      require (validUploadId uploadId) (integrityFailure family.shape.malformed)
      desk.save { record with uploadId := some uploadId, started := true } none

end JobFamily

end OcppBridge.Operational
