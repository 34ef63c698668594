import OcppBridge.Outbox.Store

namespace OcppBridge.Outbox

open Storage Text
open Spool (Durability)

inductive DeliveryOutcome
  | locallyExposed (surface : String)
  | acknowledged (peer scope : String)
  | retryableFailure (reason : String)
  | permanentFailure (reason : String)
  | uncertain (reason : String)
  deriving DecidableEq, Repr

structure DeliveryReport where
  deliveryId : String
  outcome : DeliveryOutcome
  reportedAt : Stamp
  deriving DecidableEq, Repr

inductive DeliverySemantic
  | localExposure
  | namedPeerAcknowledgement
  | uncertainHandoff
  deriving DecidableEq, Repr

/-- Retry and completion rules of one delivery class, in nanoseconds. -/
structure DeliveryRetryPolicy where
  completion : DeliverySemantic
  initialBackoff : Nat
  maximumBackoff : Nat
  positive : 0 < initialBackoff
  ordered : initialBackoff ≤ maximumBackoff

structure TargetDeliveryWorkerOptions where
  pageLimit : Nat
  durable : DeliveryRetryPolicy
  replaceableLatestState : DeliveryRetryPolicy

/-- What a worker runs on: its destination and options, the limits of the store and the text of an outcome. -/
structure Host where
  policy : RetentionPolicy
  destination : TargetDeliveryDestination
  options : TargetDeliveryWorkerOptions
  encodeOutcome : DeliveryOutcome → String

def completes (required : DeliverySemantic) : DeliveryOutcome → Bool
  | .permanentFailure _ => true
  | .acknowledged peer scope => !isBlank peer && !isBlank scope
  | .locallyExposed _ => required = .localExposure
  | .uncertain _ => required = .uncertainHandoff
  | .retryableFailure _ => false

def retryAt (reportedAt : Stamp) (policy : DeliveryRetryPolicy) (attemptCount : Nat) (deadline : Stamp) : Stamp :=
  let delay := min (policy.initialBackoff * 2 ^ min attemptCount 31) policy.maximumBackoff
  if h : reportedAt.nanoseconds + delay < deadline.nanoseconds then
    ⟨reportedAt.nanoseconds + delay, by have := reportedAt.low; omega, by have := deadline.high; omega⟩
  else deadline

/-- An entry of the worker's map. The program keeps no serial number and no lane; nothing is decided by them. -/
structure InFlight where
  deliveryId : String
  attemptCount : Nat
  durability : Durability
  deadline : Stamp
  serial : Nat
  lane : String × Nat × String
  deriving DecidableEq, Repr

inductive TargetDeliveryWorkerError
  | storage (error : StorageError)
  | unexpectedReport
  | reportChannelClosed
  deriving DecidableEq, Repr

/-- Where the worker stands. In every phase but the first and the last it goes on by itself. -/
inductive Phase
  | waiting
  | expiring (now : Stamp) (deliveryIds : List String)
  | polling (now : Stamp)
  | admitting (now : Stamp) (rows : List DeliveryRow)
  | recording (report : DeliveryReport) (resolution : DeliveryAttemptResolution)
  | tracing (deliveryId : String)
  | stopped (error : Option TargetDeliveryWorkerError)
  deriving DecidableEq, Repr

structure Worker where
  inFlight : List InFlight
  phase : Phase
  deriving DecidableEq, Repr

def Worker.start : Worker := ⟨[], .waiting⟩

namespace Worker

variable (host : Host)

def stop (worker : Worker) (error : TargetDeliveryWorkerError) : Worker :=
  { worker with phase := .stopped (some error) }

def remove (worker : Worker) (deliveryId : String) : List InFlight :=
  worker.inFlight.filter (·.deliveryId ≠ deliveryId)

def encodeAttempt (report : DeliveryReport) (resolution : DeliveryAttemptResolution) : EncodedDeliveryAttempt where
  deliveryId := report.deliveryId
  outcome := host.encodeOutcome report.outcome
  reportedAt := report.reportedAt
  resolution
  retainUntil := report.reportedAt.nanoseconds / Operational.nanosecondsPerSecond +
    Operational.operationalHistoryRetentionSeconds

def expiry (deliveryId : String) (now : Stamp) : EncodedDeliveryAttempt :=
  encodeAttempt host ⟨deliveryId, .permanentFailure "target.delivery_deadline_expired", now⟩ .final

def policyOf (durability : Durability) : DeliveryRetryPolicy :=
  match durability with
  | .critical => host.options.durable
  | .bestEffortTelemetry => host.options.replaceableLatestState

def resolve (state : InFlight) (report : DeliveryReport) : DeliveryAttemptResolution :=
  let policy := policyOf host state.durability
  if completes policy.completion report.outcome then .final
  else .retryAt (retryAt report.reportedAt policy state.attemptCount state.deadline)

/-- A report arrives. An entry leaves the map before its report is recorded; a late report is looked up first. -/
def receive (worker : Worker) (report : DeliveryReport) : Worker :=
  match worker.inFlight.find? (·.deliveryId = report.deliveryId) with
  | none => { worker with phase := .tracing report.deliveryId }
  | some state => ⟨worker.remove report.deliveryId, .recording report (resolve host state report)⟩

def tick (worker : Worker) (now : Stamp) : Worker :=
  let expired := worker.inFlight.filter (·.deadline.nanoseconds ≤ now.nanoseconds)
  { worker with phase := .expiring now (expired.map (·.deliveryId)) }

def enter (row : DeliveryRow) : InFlight :=
  ⟨row.deliveryId, row.attemptCount, row.durability, row.deadline, row.serial, row.lane⟩

def proceed (db : Database) (worker : Worker) (accepted : Bool) : Database × Worker :=
  match worker.phase with
  | .waiting | .stopped _ => (db, worker)
  | .expiring now [] => (db, { worker with phase := .polling now })
  | .expiring now (deliveryId :: deliveryIds) =>
      match recordAttempt db (expiry host deliveryId now) with
      | .ok db => (db, ⟨worker.remove deliveryId, .expiring now deliveryIds⟩)
      | .error error => (db, worker.stop (.storage error))
  | .polling now =>
      match readPending db host.destination now host.options.pageLimit with
      | .ok rows => (db, { worker with phase := .admitting now rows })
      | .error error => (db, worker.stop (.storage error))
  | .admitting _ [] => (db, { worker with phase := .waiting })
  | .admitting now (row :: rows) =>
      if worker.inFlight.any (·.deliveryId = row.deliveryId) then (db, { worker with phase := .admitting now rows })
      else if row.deadline.nanoseconds ≤ now.nanoseconds then
        match recordAttempt db (expiry host row.deliveryId now) with
        | .ok db => (db, { worker with phase := .admitting now rows })
        | .error error => (db, worker.stop (.storage error))
      else if accepted then (db, ⟨worker.inFlight ++ [enter row], .admitting now rows⟩)
      else (db, { worker with phase := .admitting now rows })
  | .recording report resolution =>
      match recordAttempt db (encodeAttempt host report resolution) with
      | .ok db => (db, { worker with phase := .waiting })
      | .error error => (db, worker.stop (.storage error))
  | .tracing deliveryId =>
      if (readAttempts db deliveryId 1).any (·.resolution = .final) then (db, { worker with phase := .waiting })
      else (db, worker.stop .unexpectedReport)

end Worker

/-- What others ask of the store while the worker runs. -/
inductive Traffic
  | write (refusal : Option StorageError) (write : EncodedWrite)
  | maintain (now : Int)
  | authorize (auditEventId : String) (request : DeliveryDispositionRequest)

def Traffic.request : Traffic → Request
  | .write refusal encoded => .write refusal encoded
  | .maintain now => .maintain now
  | .authorize auditEventId disposition => .authorize auditEventId disposition

inductive Event
  | traffic (traffic : Traffic)
  | tick (now : Stamp)
  | report (report : DeliveryReport)
  | proceed (accepted : Bool)
  | shutdown
  | close

/-- The store and the worker. -/
structure System where
  db : Database
  worker : Worker
  shed : List Nat

namespace System

def sheds (host : Host) (db : Database) (traffic : Traffic) : List Nat :=
  (db.deliveries.filter fun row =>
    (db.step host.policy traffic.request).deliveries.all (·.serial ≠ row.serial)).map (·.serial)

def step (host : Host) (s : System) : Event → System
  | .traffic traffic =>
      { s with db := s.db.step host.policy traffic.request, shed := s.shed ++ sheds host s.db traffic }
  | .proceed accepted =>
      let (db, worker) := s.worker.proceed host s.db accepted
      { s with db, worker }
  | .tick now => if s.worker.phase = .waiting then { s with worker := s.worker.tick now } else s
  | .report report => if s.worker.phase = .waiting then { s with worker := s.worker.receive host report } else s
  | .shutdown =>
      if s.worker.phase = .waiting then { s with worker := { s.worker with phase := .stopped none } } else s
  | .close => if s.worker.phase = .waiting then { s with worker := s.worker.stop .reportChannelClosed } else s

def run (host : Host) (s : System) (events : List Event) : System := events.foldl (step host) s

def start (db : Database) : System := ⟨db, .start, []⟩

end System

end OcppBridge.Outbox
