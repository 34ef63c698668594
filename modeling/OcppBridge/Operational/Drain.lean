import OcppBridge.Operational.Worker

namespace OcppBridge.Operational

open Storage Transaction

variable {P : Type} [Wire P]

abbrev DrainId := Nat

abbrev Instant := Nat

structure DrainObservation where
  window : DrainId
  revision : Nat
  activeTransactions : Nat
  unresolvedCommands : Nat
  statefulJobs : Nat
  deriving DecidableEq, Repr

def DrainObservation.isIdle (o : DrainObservation) : Bool :=
  o.activeTransactions = 0 && o.unresolvedCommands = 0 && o.statefulJobs = 0

structure DrainWindow where
  id : DrainId
  deadline : Instant
  sealed : Bool
  deriving DecidableEq, Repr

structure Drain where
  window : Option DrainWindow := none
  revision : Nat := 0
  /-- How many windows were opened so far. -/
  issued : DrainId := 0
  deriving DecidableEq, Repr

inductive DrainOperation
  | begin (duration : Nat)
  | observe (id : DrainId)
  | seal (observed : DrainObservation)
  | cancel (id : DrainId)
  deriving DecidableEq, Repr

inductive DrainOutcome
  | window (id : DrainId)
  | observation (observation : DrainObservation)
  | done
  deriving DecidableEq, Repr

def busy (detail : String) : StorageError := ⟨.busy, detail⟩

def maxDrainWindow : Nat := 24 * 60 * 60 * 1000000000

def maxDrainRevision : Nat := 2 ^ 64 - 1

def validJobId (id : String) : Bool :=
  !id.isEmpty && id.utf8ByteSize ≤ 128 &&
    id.toList.all fun c => c.toNat < 128 && (c.isAlphanum || c = '-' || c = '_' || c = '/' || c = '.')

namespace Store

def inventory (store : Store P) (window : DrainId) (revision : Nat) : DrainObservation where
  window := window
  revision := revision
  activeTransactions :=
    (store.snapshots.rows.map fun snapshot => (snapshot.transactions.filter (·.state ≠ .ended)).length).sum
  unresolvedCommands := (store.journal.commands.rows.filter (·.unresolved)).length
  statefulJobs := store.releaseJobs.length

end Store

namespace Drain

def expire (drain : Drain) (now : Instant) : Drain :=
  if drain.window.any (·.deadline ≤ now) then { drain with window := none } else drain

def sealed (drain : Drain) : Bool := drain.window.any (·.sealed)

def changed (drain : Drain) : Drain × Except StorageError Unit :=
  if drain.revision < maxDrainRevision then ({ drain with revision := drain.revision + 1 }, .ok ())
  else (drain, .error (busy "drain revision exhausted"))

def refuse (drain : Drain) (detail : String) : Drain × Except StorageError Unit :=
  match drain.changed with
  | (drain, .ok ()) => (drain, .error (busy detail))
  | refused => refused

def checkRemoteWrite (drain : Drain) (now : Instant) (start : Bool) : Drain × Except StorageError Unit :=
  let drain := drain.expire now
  if drain.window.any fun window => window.sealed || start then
    drain.refuse "remote command blocked by release drain"
  else drain.changed

/-- A station report is retained during a drain, so that it invalidates idle. -/
def checkWriteAdmission (drain : Drain) (now : Instant) (requiresStartAdmission : Bool) :
    Drain × Except StorageError Unit :=
  let drain := drain.expire now
  match drain.window with
  | none => (drain, .ok ())
  | some window =>
      if window.sealed then drain.refuse "release idle boundary sealed; retry after maintenance"
      else if requiresStartAdmission then (drain, .error (busy "new starts disabled for release drain"))
      else (drain, .ok ())

def checkWrite (drain : Drain) (now : Instant) (requiresStartAdmission : Bool) : Drain × Except StorageError Unit :=
  match drain.checkWriteAdmission now requiresStartAdmission with
  | (drain, .ok ()) => drain.changed
  | refused => refused

/-- Starting and finishing of stateful jobs. -/
def checkJob (drain : Drain) (now : Instant) (id : String) (full : Bool) : Drain × Except StorageError Unit :=
  let drain := drain.expire now
  if !validJobId id then (drain, .error ⟨.invalidRequest, "invalid stateful job identity"⟩)
  else if drain.sealed then drain.refuse "release idle boundary sealed"
  else if full then (drain, .error (busy "stateful job inventory full"))
  else drain.changed

def require (drain : Drain) (id : DrainId) : Except StorageError Unit :=
  Transaction.require (drain.window.any (·.id = id)) (busy "release drain expired or belongs to another process/window")

def operation (drain : Drain) (now : Instant) (store : Store P) (op : DrainOperation) :
    Drain × Except StorageError DrainOutcome :=
  let drain := drain.expire now
  match op with
  | .begin duration =>
      if duration = 0 ∨ maxDrainWindow < duration then
        (drain, .error ⟨.invalidRequest, "maintenance window must be within one day"⟩)
      else if drain.window.isSome then (drain, .error (busy "release drain already owned"))
      else
        ({ drain with window := some ⟨drain.issued, now + duration, false⟩, issued := drain.issued + 1 },
          .ok (.window drain.issued))
  | .observe id => (drain, do
      drain.require id
      pure (.observation (store.inventory id drain.revision)))
  | .seal observed =>
      match drain.require observed.window with
      | .error e => (drain, .error e)
      | .ok () =>
          if observed.revision ≠ drain.revision ∨ !(store.inventory observed.window drain.revision).isIdle then
            (drain, .error (busy "late state change invalidated release idle observation"))
          else ({ drain with window := drain.window.map ({ · with sealed := true }) }, .ok .done)
  | .cancel id =>
      -- a delayed cancellation must never reopen a newer owner's window
      (if drain.window.any (·.id = id) then { drain with window := none } else drain, .ok .done)

end Drain

def Write.requiresStartAdmission (write : Write P) : Bool :=
  write.command.any fun command => match command.operation with
    | .start _ | .ocpp _ => true
    | .stop _ | .setChargingLimit _ => false

inductive RemoteControlOperation
  | reserve (request : RequestId)
  | response (request : RequestId) (status : String) (nativeTransactionId : Option String)
  | read (request : RequestId)
  deriving DecidableEq, Repr

/-- Everything that the worker of the store is asked for. `other` stands for requests that do not touch the modelled
tables. -/
inductive WorkerRequest (P : Type)
  | drain (operation : DrainOperation)
  | remoteControl (operation : RemoteControlOperation)
  | store (request : Request P)
  | targetDisposition
  | retentionStatus
  | other

/-- Everything but retention, which only takes away what nobody waits for. -/
def Request.operational : Request P → Bool
  | .pruneCommands _ | .maintainRetention _ => false
  | _ => true

def WorkerRequest.operational : WorkerRequest P → Bool
  | .remoteControl (.reserve _) | .remoteControl (.response ..) | .targetDisposition => true
  | .store request => request.operational
  | .remoteControl (.read _) | .drain _ | .retentionStatus | .other => false

/-- The requests that the worker shows to the drain before it carries them out. -/
def Request.tracked : Request P → Bool
  | .interruptDeviceReports => false
  | request => request.operational

def WorkerRequest.tracked : WorkerRequest P → Bool
  | .store request => request.tracked
  | request => request.operational

structure Office (P : Type) [Wire P] where
  drain : Drain
  store : Store P

namespace Office

def check (office : Office P) (now : Instant) : Request P → Drain × Except StorageError Unit
  | .write _ write => office.drain.checkWrite now write.requiresStartAdmission
  | .startJob job => office.drain.checkJob now job.id (maxReleaseJobs ≤ office.store.releaseJobs.length)
  | .finishJob id => office.drain.checkJob now id false
  | .interruptDeviceReports | .pruneCommands _ => (office.drain, .ok ())
  | .maintainRetention _ => (office.drain.expire now, .ok ())
  | _ => office.drain.checkWrite now false

def admission (office : Office P) (now : Instant) : WorkerRequest P → Drain × Except StorageError Unit
  | .drain _ | .remoteControl (.read _) | .other => (office.drain, .ok ())
  | .remoteControl (.reserve _) => office.drain.checkRemoteWrite now true
  | .remoteControl (.response ..) => office.drain.checkRemoteWrite now false
  | .store request => office.check now request
  | .targetDisposition => office.drain.checkWrite now false
  | .retentionStatus => (office.drain.expire now, .ok ())

def carryOut (office : Office P) (now : Instant) : WorkerRequest P → Office P × Except StorageError DrainOutcome
  | .drain op =>
      let (drain, outcome) := office.drain.operation now office.store op
      ({ office with drain }, outcome)
  | .store request =>
      match office.store.handle request with
      | .ok store => ({ office with store }, .ok .done)
      | .error e => (office, .error e)
  | _ => (office, .ok .done)

def handle (office : Office P) (now : Instant) (request : WorkerRequest P) :
    Office P × Except StorageError DrainOutcome :=
  match office.admission now request with
  | (drain, .ok ()) => { office with drain }.carryOut now request
  | (drain, .error e) => ({ office with drain }, .error e)

def run (office : Office P) (requests : List (Instant × WorkerRequest P)) : Office P :=
  requests.foldl (fun office request => (office.handle request.1 request.2).1) office

end Office

end OcppBridge.Operational
