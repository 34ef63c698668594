import OcppBridge.Text
import OcppBridge.Transaction

namespace OcppBridge.Spool

inductive Durability
  | critical
  | bestEffortTelemetry
  deriving DecidableEq, Repr

inductive ExportGapReason
  | sourceExpired
  | telemetryDropped
  | telemetryEvicted
  deriving DecidableEq, Repr

inductive ExportSpoolErrorCode
  | invalidRequest
  | namespaceConflict
  | checkpointConflict
  | backpressure
  | deliveryLimitExceeded
  | summaryFull
  | busy
  | unavailable
  | integrityFailure
  | pendingExpired
  deriving DecidableEq, Repr

structure ExportSpoolError where
  code : ExportSpoolErrorCode
  detail : String
  deriving DecidableEq, Repr

structure ExportDestination where
  destinationId : String
  configurationRevision : Nat
  deriving DecidableEq, Repr

structure ExportSpoolNamespace where
  destination : ExportDestination
  providerKind : String
  sourceGeneration : String
  deriving DecidableEq, Repr

structure ExportSourceCheckpoint where
  cursor : String
  sequence : Nat
  deriving DecidableEq, Repr

structure ExportGap where
  durability : Durability
  first : Nat
  last : Nat
  reason : ExportGapReason
  deriving DecidableEq, Repr

def ExportGap.count (gap : ExportGap) : Nat := gap.last + 1 - gap.first

structure ExportPendingDescriptor where
  durability : Durability
  sequence : Nat
  rowId : Nat
  recordIdLen : Nat
  committedAtLen : Nat
  payloadLen : Nat
  deriving DecidableEq, Repr

structure ExportSpoolStatus where
  destination : ExportDestination
  providerKind : String
  sourceGeneration : String
  critical : Option ExportSourceCheckpoint
  telemetry : Option ExportSourceCheckpoint
  criticalHighWater : Nat
  telemetryHighWater : Nat
  pendingRecords : Nat
  lastConfirmedBatch : Option String
  confirmedRecords : Nat
  gaps : List ExportGap
  incomplete : Bool
  legacyBaselineIncomplete : Bool
  deriving DecidableEq, Repr

structure ExportSpoolGapCommit where
  space : ExportSpoolNamespace
  durability : Durability
  expected : Option ExportSourceCheckpoint
  next : ExportSourceCheckpoint
  highWater : Nat
  gaps : List ExportGap
  legacyBaselineIncomplete : Bool
  deriving DecidableEq, Repr

structure FieldSizes where
  recordId : Nat
  committedAt : Nat
  payload : Nat
  deriving DecidableEq, Repr

structure CommittedRecordReadToken where
  generation : String
  durability : Durability
  sequence : Nat
  rowId : Nat
  lengths : FieldSizes
  deriving DecidableEq, Repr

structure CommittedRecordDescriptor where
  token : CommittedRecordReadToken
  durability : Durability
  sequence : Nat
  cursor : String
  recordIdLen : Nat
  committedAtLen : Nat
  payloadLen : Nat
  deriving DecidableEq, Repr

def CommittedRecordDescriptor.lengths (d : CommittedRecordDescriptor) : FieldSizes :=
  ⟨d.recordIdLen, d.committedAtLen, d.payloadLen⟩

structure ExportSpoolRecordBegin where
  progress : ExportSpoolGapCommit
  descriptor : CommittedRecordDescriptor
  deriving DecidableEq, Repr

inductive CommittedRecordField
  | recordId
  | committedAt
  | payload
  deriving DecidableEq, Repr

def FieldSizes.get (n : FieldSizes) : CommittedRecordField → Nat
  | .recordId => n.recordId
  | .committedAt => n.committedAt
  | .payload => n.payload

def FieldSizes.set (n : FieldSizes) (field : CommittedRecordField) (value : Nat) : FieldSizes :=
  match field with
  | .recordId => { n with recordId := value }
  | .committedAt => { n with committedAt := value }
  | .payload => { n with payload := value }

def FieldSizes.sum (n : FieldSizes) : Nat := n.recordId + n.committedAt + n.payload

def exportRecordChunkBytes : Nat := 64 * 1024

/-- One field range; `reserved` is the size of the memory admission it carries. -/
structure BudgetedRecordChunk where
  field : CommittedRecordField
  offset : Nat
  bytes : List UInt8
  nextOffset : Nat
  endOfField : Bool
  reserved : Nat
  deriving DecidableEq, Repr

def BudgetedRecordChunk.isValidFor (chunk : BudgetedRecordChunk) (fieldLen : Nat) : Bool :=
  let nextOffset := chunk.offset + chunk.bytes.length
  decide (nextOffset < 2 ^ 64) && decide (chunk.bytes.length ≤ exportRecordChunkBytes) &&
    decide (chunk.bytes.length ≤ chunk.reserved) && chunk.nextOffset == nextOffset &&
    decide (nextOffset ≤ fieldLen) && chunk.endOfField == (nextOffset == fieldLen)

structure ExportRecordIdentity where
  recordId : String
  subrecordId : Option String
  deriving DecidableEq, Repr

/-- Provider verdict on a batch. -/
inductive ExportOutcome
  | committed
  | retryable
  | permanent
  | uncertain
  | partialCommit
  deriving DecidableEq, Repr

structure ExportReport where
  batchId : String
  destination : ExportDestination
  recordIds : List ExportRecordIdentity
  outcome : ExportOutcome
  deriving DecidableEq, Repr

structure ExportDeliveryClaim where
  batchId : String
  items : List ExportPendingDescriptor
  deriving DecidableEq, Repr

structure Limits where
  mainBytes : Nat
  gapSlots : Nat
  deriving DecidableEq, Repr

def maxGaps : Nat := 512

end OcppBridge.Spool
