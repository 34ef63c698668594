import Mathlib.Data.Fintype.Basic
import OcppBridge.Outbox.Contract

namespace OcppBridge.Outbox

open Storage Text Transaction
open Spool (Durability)
open Export (Source EncodedRecord makeRoom retainFitting retainFittingRecords)
open Operational (UtcTimestamp)

structure RetentionPolicy where
  budgetBytes : Nat
  activeSessionReserveBytes : Nat
  fits : budgetBytes < 2 ^ 64
  reserved : activeSessionReserveBytes < budgetBytes
  deriving DecidableEq, Repr

def RetentionPolicy.startLimit (policy : RetentionPolicy) : Nat := policy.budgetBytes - policy.activeSessionReserveBytes

def RetentionPolicy.limit (policy : RetentionPolicy) : StorageWritePurpose → Nat
  | .routine | .newSessionStart => policy.startLimit
  | .activeSessionCompletion => policy.budgetBytes

def accountingExceeded : StorageError :=
  ⟨.integrityFailure, "operational storage accounting exceeds supported range"⟩

def checked (bytes : Nat) : Except StorageError Nat :=
  if bytes < 2 ^ 64 then .ok bytes else .error accountingExceeded

def maxSqlInteger : Nat := 2 ^ 63 - 1

def usedBytes (db : Database) : Except StorageError Nat := do
  require (db.sqlBytes ≤ maxSqlInteger) unavailable
  pure db.sqlBytes

section Writing

def EncodedWrite.criticalDeliveries (write : EncodedWrite) : List EncodedDelivery :=
  write.deliveries.filter (·.durability = .critical)

def EncodedWrite.criticalRecords (write : EncodedWrite) : List EncodedRecord :=
  write.records.filter (·.durability = .critical)

def EncodedWrite.criticalBytes (write : EncodedWrite) : Nat :=
  (write.events.map (·.bytes)).sum + (write.criticalDeliveries.map (·.bytes)).sum +
    (write.criticalRecords.map (·.recordBytes)).sum

def shedExistingBestEffort (db : Database) : Database :=
  let kept := db.deliveries.filter (·.durability ≠ .bestEffortTelemetry)
  let source := Export.shedExistingBestEffort db.source
  { db with
    deliveries := kept
    source
    stats := { db.stats with
      droppedTelemetry := db.stats.droppedTelemetry + (db.source.records.length - source.records.length)
      droppedDeliveries := db.stats.droppedDeliveries + (db.deliveries.length - kept.length) } }

def retainFittingDeliveries : Nat → List EncodedDelivery → List EncodedDelivery × Nat :=
  retainFitting (·.durability) (·.bytes)

def prepareWrite (policy : RetentionPolicy) (db : Database) (write : EncodedWrite) :
    Except StorageError (Database × EncodedWrite) := do
  let limit := policy.limit write.purpose
  let critical ← checked write.criticalBytes
  let mustFit := decide (0 < critical) || write.purpose = .newSessionStart
  let (db, remaining) ← makeRoom usedBytes shedExistingBestEffort limit critical mustFit db
  let (deliveries, remaining) := retainFittingDeliveries remaining write.deliveries
  let (records, _) := retainFittingRecords remaining write.records
  pure ({ db with
      stats := { db.stats with
        droppedDeliveries := db.stats.droppedDeliveries + (write.deliveries.length - deliveries.length)
        droppedTelemetry := db.stats.droppedTelemetry + (write.records.length - records.length) } },
    { write with deliveries, records })

def writeEvent (db : Database) (value : EncodedEvent) : Except StorageError Database := do
  require (db.lastEventRow < maxSqlInteger) unavailable
  require (∀ row ∈ db.events, row.eventId ≠ value.eventId ∧
      (row.resource, row.sequence) ≠ (value.resource, value.sequence)) constraintViolation
  pure { db with
    events := db.events ++
      [⟨db.lastEventRow + 1, value.eventId, value.resource, value.sequence, value.payload, some value.retainUntil⟩]
    lastEventRow := db.lastEventRow + 1 }

def nextRowId (rows : List DeliveryRow) : Nat := (rows.map (·.rowId)).foldr max 0 + 1

def writeDelivery (db : Database) (value : EncodedDelivery) : Except StorageError Database := do
  require (∀ row ∈ db.deliveries, row.deliveryId ≠ value.deliveryId ∧
      (row.destination, row.eventId) ≠ (value.destination, value.eventId)) constraintViolation
  pure { db with
    deliveries := db.deliveries ++ [{ value with
      rowId := nextRowId db.deliveries
      attemptCount := 0
      nextAttemptAt := none
      serial := db.inserted }]
    inserted := db.inserted + 1 }

def writeRecord (db : Database) (value : EncodedRecord) : Except StorageError Database := do
  let source ← Export.writeRecord db.source value
  pure { db with source }

/-- A database file ends far below the sums that SQLite can form, so that a transaction beyond them is refused. -/
def insertRows (db : Database) (write : EncodedWrite) : Except StorageError Database := do
  let db ← write.events.foldlM writeEvent db
  let db ← write.deliveries.foldlM writeDelivery db
  let db ← write.records.foldlM writeRecord db
  require (db.sqlBytes ≤ maxSqlInteger) unavailable
  pure db

end Writing

def maintain (db : Database) (now : Int) : Database :=
  let due (retainUntil : Option Int) : Bool := retainUntil.any (· ≤ now)
  let events := db.events.filter fun e => !(due e.retainUntil && db.deliveries.all (·.eventId ≠ e.eventId))
  let attempts := db.attempts.filter fun a => !(due a.retainUntil && db.deliveries.all (·.deliveryId ≠ a.deliveryId))
  { db with
    events
    attempts
    source := Export.maintain db.source now
    stats := { db.stats with
      prunedEvents := db.stats.prunedEvents + (db.events.length - events.length)
      prunedAttempts := db.stats.prunedAttempts + (db.attempts.length - attempts.length) } }

section Deliveries

def DeliveryRow.readyAt (row : DeliveryRow) (instant : Stamp) : Bool :=
  row.nextAttemptAt.all fun next => textLe next.json instant.json

def isHead (rows : List DeliveryRow) (row : DeliveryRow) : Bool :=
  rows.all fun prior => !(prior.lane = row.lane && prior.rowId < row.rowId)

def readyHeads (db : Database) (destination : TargetDeliveryDestination) (readyAt : Stamp) : List DeliveryRow :=
  db.deliveries.filter fun row => row.destination = destination && row.readyAt readyAt && isHead db.deliveries row

def readPending (db : Database) (destination : TargetDeliveryDestination) (readyAt : Stamp) (limit : Nat) :
    Except StorageError (List DeliveryRow) := do
  let rows := ((readyHeads db destination readyAt).mergeSort fun a b => a.rowId ≤ b.rowId).take limit
  require (∀ row ∈ rows, row.attemptCount < 2 ^ 32) ⟨.integrityFailure, "delivery attempt count is outside u32 range"⟩
  pure rows

def reportMismatch : StorageError := ⟨.conflict, "delivery report does not match pending work"⟩

def recordAttempt (db : Database) (attempt : EncodedDeliveryAttempt) : Except StorageError Database := do
  require (∃ row ∈ db.deliveries, row.deliveryId = attempt.deliveryId) reportMismatch
  pure { db with
    attempts := db.attempts ++
      [⟨attempt.deliveryId, attempt.outcome, attempt.reportedAt, attempt.resolution, some attempt.retainUntil⟩]
    deliveries := match attempt.resolution with
      | .final => db.deliveries.filter (·.deliveryId ≠ attempt.deliveryId)
      | .retryAt instant => db.deliveries.map fun row =>
          if row.deliveryId = attempt.deliveryId then
            { row with attemptCount := row.attemptCount + 1, nextAttemptAt := some instant }
          else row }

def readAttempts (db : Database) (deliveryId : String) (limit : Nat) : List AttemptRow :=
  ((db.attempts.filter (·.deliveryId = deliveryId)).reverse).take limit

end Deliveries

section Events

def retainedEventCursorPrefix : String := "uob:event:"

structure RetainedEventPage where
  events : List EventRow
  resumeCursor : Option String
  hasMore : Bool
  deriving DecidableEq, Repr

def cursorExpired : StorageError := ⟨.cursorExpired, "durable event cursor expired; fetch a fresh snapshot"⟩

def eventCursor : Option String → Except StorageError (Option Nat)
  | none => pure none
  | some cursor =>
      match (stripPrefix retainedEventCursorPrefix cursor).bind parseSigned with
      | some position => do
          require (0 < position) cursorExpired
          pure (some position.toNat)
      | none => .error cursorExpired

def cursorAt (position : Nat) : String := retainedEventCursorPrefix ++ toString position

def eventsAfter (db : Database) (resource : String) (after : Nat) : List EventRow :=
  (db.events.filter fun row => row.resource = resource && after < row.rowId).mergeSort fun a b => a.rowId ≤ b.rowId

def readEvents (db : Database) (resource : String) (cursor : Option String) (limit : Nat) :
    Except StorageError RetainedEventPage := do
  let after ← eventCursor cursor
  after.forM fun position =>
    require (∃ row ∈ db.events, row.resource = resource ∧ row.rowId = position) cursorExpired
  let rows := (eventsAfter db resource (after.getD 0)).take (limit + 1)
  let events := rows.take limit
  pure {
    events
    resumeCursor := ((events.getLast?.map (·.rowId)) <|> after).map cursorAt
    hasMore := decide (limit < rows.length) }

end Events

section Dispositions

def encodeTimestamp (instant : UtcTimestamp) : Except StorageError Stamp :=
  if h : -62167219200000000000 ≤ instant ∧ instant < 253402300800000000000 then .ok ⟨instant, h.1, h.2⟩
  else .error ⟨.invalidRequest, "disposition timestamp cannot be encoded"⟩

def maxPendingTargetDispositions : Nat := 64

def dispositionBound : StorageError := ⟨.capacityExhausted, "target disposition bound exceeded"⟩

def destinationCounts (db : Database) (destination : TargetDeliveryDestination) : Nat × Nat :=
  let rows := db.deliveries.filter (·.destination = destination)
  ((rows.filter (·.durability = .critical)).length, rows.length)

def authorizedDispositions (db : Database) : List DeliveryDispositionRecord :=
  (db.dispositions.filter (·.state = .authorized)).take maxPendingTargetDispositions

def authorize (db : Database) (auditEventId : String) (request : DeliveryDispositionRequest) :
    Except StorageError (Database × DeliveryDispositionRecord) := do
  require (request.destination.configurationRevision ≤ maxSqlInteger)
    ⟨.invalidRequest, "target revision exceeds SQLite integer range"⟩
  require ((destinationCounts db request.destination).1 ≠ 0)
    ⟨.conflict, "destination has no pending critical deliveries"⟩
  require (∀ row ∈ db.dispositions, ¬(row.state = .authorized ∧ row.destination = request.destination))
    ⟨.conflict, "destination already has an unsettled disposition"⟩
  require ((db.dispositions.filter (·.state = .authorized)).length < maxPendingTargetDispositions) dispositionBound
  require (∀ row ∈ db.dispositions, row.auditEventId ≠ auditEventId) constraintViolation
  let authorizedAt ← encodeTimestamp request.authorizedAt
  let record : DeliveryDispositionRecord :=
    { auditEventId
      destination := request.destination
      action := request.action
      principalId := request.principalId
      authorizedAt
      state := .authorized
      settledAt := none
      criticalDeliveries := none
      deliveries := none }
  pure ({ db with dispositions := db.dispositions ++ [record] }, record)

def updateDisposition (db : Database) (auditEventId : String)
    (change : DeliveryDispositionRecord → DeliveryDispositionRecord) : Database :=
  { db with dispositions := db.dispositions.map fun row => if row.auditEventId = auditEventId then change row else row }

def DeliveryDispositionRecord.supersede (now : Stamp) (record : DeliveryDispositionRecord) :
    DeliveryDispositionRecord :=
  { record with state := .superseded, settledAt := some now }

def DeliveryDispositionRecord.executed (now : Stamp) (critical total : Nat) (record : DeliveryDispositionRecord) :
    DeliveryDispositionRecord :=
  { record with
    state := .executed
    settledAt := some now
    criticalDeliveries := some critical
    deliveries := some total }

def pendingFor (db : Database) (destination : TargetDeliveryDestination) : List DeliveryRow :=
  (db.deliveries.filter (·.destination = destination)).mergeSort fun a b => a.rowId ≤ b.rowId

def execute (db : Database) (record : DeliveryDispositionRecord) (now : Stamp) : Database :=
  let (critical, total) := destinationCounts db record.destination
  let archived := match record.action with
    | .archive => (pendingFor db record.destination).map fun row =>
        ⟨record.auditEventId, row.toEncodedDelivery, row.attemptCount, now⟩
    | .discard => []
  updateDisposition
    { db with
      archive := db.archive ++ archived
      deliveries := db.deliveries.filter (·.destination ≠ record.destination) }
    record.auditEventId (·.executed now critical total)

/-- Settle one authorized disposition at a start that selects `selected`. -/
def settleOne (selected : Option TargetDeliveryDestination) (now : Stamp)
    (state : Database × List DeliveryDispositionRecord) (record : DeliveryDispositionRecord) :
    Database × List DeliveryDispositionRecord :=
  let (db, settled) := state
  if selected = some record.destination then
    (updateDisposition db record.auditEventId (·.supersede now), settled ++ [record.supersede now])
  else
    let (critical, total) := destinationCounts db record.destination
    (execute db record now, settled ++ [record.executed now critical total])

def settle (db : Database) (selected : Option TargetDeliveryDestination) (settledAt : UtcTimestamp) :
    Except StorageError (Database × List DeliveryDispositionRecord) := do
  let now ← encodeTimestamp settledAt
  pure ((authorizedDispositions db).foldl (settleOne selected now) (db, []))

end Dispositions

/-- The requests that can change these tables. What is not modelled here of an atomic write can only refuse it. -/
inductive Request
  | write (refusal : Option StorageError) (write : EncodedWrite)
  | maintain (now : Int)
  | recordAttempt (attempt : EncodedDeliveryAttempt)
  | authorize (auditEventId : String) (request : DeliveryDispositionRequest)
  | settle (selected : Option TargetDeliveryDestination) (settledAt : UtcTimestamp)

namespace Database

def write (policy : RetentionPolicy) (db : Database) (refusal : Option StorageError) (write : EncodedWrite) :
    Except StorageError Database := do
  let (db, write) ← prepareWrite policy db write
  refusal.forM (.error ·)
  insertRows db write

def handle (policy : RetentionPolicy) (db : Database) : Request → Except StorageError Database
  | .write refusal write => db.write policy refusal write
  | .maintain now => pure (Outbox.maintain db now)
  | .recordAttempt attempt => Outbox.recordAttempt db attempt
  | .authorize auditEventId request => Prod.fst <$> Outbox.authorize db auditEventId request
  | .settle selected settledAt => Prod.fst <$> Outbox.settle db selected settledAt

def step (policy : RetentionPolicy) (db : Database) (request : Request) : Database :=
  match db.handle policy request with
  | .ok db => db
  | .error _ => db

def run (policy : RetentionPolicy) (db : Database) (requests : List Request) : Database :=
  requests.foldl (step policy) db

end Database

end OcppBridge.Outbox
