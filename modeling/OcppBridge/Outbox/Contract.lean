import OcppBridge.Export.Source
import OcppBridge.Outbox.Timestamp

namespace OcppBridge.Outbox

open Storage
open Spool (Durability)
open Export (Source EncodedRecord)
open Operational (UtcTimestamp)

inductive StorageWritePurpose
  | routine
  | newSessionStart
  | activeSessionCompletion
  deriving DecidableEq, Repr

structure EncodedEvent where
  eventId : String
  resource : String
  sequence : Nat
  payload : String
  retainUntil : Int
  deriving DecidableEq, Repr

/-- A row of `journal_events`. -/
structure EventRow where
  rowId : Nat
  eventId : String
  resource : String
  sequence : Nat
  payload : String
  retainUntil : Option Int
  deriving DecidableEq, Repr

structure EncodedDelivery where
  targetInstanceId : String
  targetRevision : Nat
  eventId : String
  deliveryId : String
  orderingKey : String
  deadline : Stamp
  durability : Durability
  payload : String
  deriving DecidableEq, Repr

def EncodedDelivery.lane (d : EncodedDelivery) : String × Nat × String :=
  (d.targetInstanceId, d.targetRevision, d.orderingKey)

/-- A row of `target_deliveries`. The database has no serial number, and nothing is decided by it. -/
structure DeliveryRow extends EncodedDelivery where
  rowId : Nat
  attemptCount : Nat
  nextAttemptAt : Option Stamp
  serial : Nat
  deriving DecidableEq, Repr

inductive DeliveryAttemptResolution
  | retryAt (instant : Stamp)
  | final
  deriving DecidableEq, Repr

def DeliveryAttemptResolution.retry : DeliveryAttemptResolution → Option Stamp
  | .retryAt instant => some instant
  | .final => none

structure EncodedDeliveryAttempt where
  deliveryId : String
  outcome : String
  reportedAt : Stamp
  resolution : DeliveryAttemptResolution
  retainUntil : Int
  deriving DecidableEq, Repr

/-- A row of `target_delivery_attempts`. -/
structure AttemptRow where
  deliveryId : String
  outcome : String
  reportedAt : Stamp
  resolution : DeliveryAttemptResolution
  retainUntil : Option Int
  deriving DecidableEq, Repr

structure EncodedWrite where
  purpose : StorageWritePurpose
  events : List EncodedEvent
  deliveries : List EncodedDelivery
  records : List EncodedRecord

structure TargetDeliveryDestination where
  targetInstanceId : String
  configurationRevision : Nat
  deriving DecidableEq, Repr

def EncodedDelivery.destination (d : EncodedDelivery) : TargetDeliveryDestination :=
  ⟨d.targetInstanceId, d.targetRevision⟩

inductive DeliveryDispositionAction
  | archive
  | discard
  deriving DecidableEq, Repr

inductive DeliveryDispositionState
  | authorized
  | executed
  | superseded
  deriving DecidableEq, Repr

/-- A row of `target_delivery_dispositions`. -/
structure DeliveryDispositionRecord where
  auditEventId : String
  destination : TargetDeliveryDestination
  action : DeliveryDispositionAction
  principalId : String
  authorizedAt : Stamp
  state : DeliveryDispositionState
  settledAt : Option Stamp
  criticalDeliveries : Option Nat
  deliveries : Option Nat
  deriving DecidableEq, Repr

structure DeliveryDispositionRequest where
  destination : TargetDeliveryDestination
  action : DeliveryDispositionAction
  principalId : String
  authorizedAt : UtcTimestamp
  deriving DecidableEq, Repr

/-- A row of `target_delivery_archive`. -/
structure ArchivedDelivery where
  auditEventId : String
  delivery : EncodedDelivery
  attemptCount : Nat
  archivedAt : Stamp
  deriving DecidableEq, Repr

structure RetentionStats where
  droppedTelemetry : Nat := 0
  droppedDeliveries : Nat := 0
  prunedEvents : Nat := 0
  prunedAttempts : Nat := 0
  deriving DecidableEq, Repr

/-- The journal, the outbox and the committed records of the operational database. -/
@[ext]
structure Database where
  events : List EventRow
  lastEventRow : Nat
  deliveries : List DeliveryRow
  inserted : Nat
  attempts : List AttemptRow
  source : Source
  dispositions : List DeliveryDispositionRecord
  archive : List ArchivedDelivery
  stats : RetentionStats

def Database.empty (source : Source) : Database := ⟨[], 0, [], 0, [], source, [], [], {}⟩

section Sizes

def blobLength (text : String) : Nat := text.toUTF8.size

def EncodedEvent.bytes (e : EncodedEvent) : Nat :=
  e.eventId.utf8ByteSize + e.resource.utf8ByteSize + e.payload.utf8ByteSize + 24

def EncodedDelivery.bytes (d : EncodedDelivery) : Nat :=
  d.targetInstanceId.utf8ByteSize + d.eventId.utf8ByteSize + d.deliveryId.utf8ByteSize + d.orderingKey.utf8ByteSize +
    d.deadline.json.utf8ByteSize + d.payload.utf8ByteSize + 40

def EventRow.sqlBytes (e : EventRow) : Nat := blobLength e.eventId + blobLength e.resource + blobLength e.payload + 24

def EncodedDelivery.sqlBytes (d : EncodedDelivery) : Nat :=
  blobLength d.targetInstanceId + blobLength d.eventId + blobLength d.deliveryId + blobLength d.orderingKey +
    blobLength d.deadline.json + blobLength d.payload + 40

def AttemptRow.sqlBytes (a : AttemptRow) : Nat :=
  blobLength a.deliveryId + blobLength a.outcome + blobLength a.reportedAt.json +
    (a.resolution.retry.map (blobLength ·.json)).getD 0 + 24

def ArchivedDelivery.sqlBytes (a : ArchivedDelivery) : Nat :=
  blobLength a.auditEventId + blobLength a.delivery.targetInstanceId + blobLength a.delivery.eventId +
    blobLength a.delivery.deliveryId + blobLength a.delivery.orderingKey + blobLength a.delivery.deadline.json +
    blobLength a.delivery.payload + blobLength a.archivedAt.rfc3339 + 40

def Database.sqlBytes (db : Database) : Nat :=
  (db.events.map (·.sqlBytes)).sum + (db.deliveries.map (·.sqlBytes)).sum + (db.attempts.map (·.sqlBytes)).sum +
    db.source.usedBytes + (db.archive.map (·.sqlBytes)).sum

end Sizes

end OcppBridge.Outbox
