import OcppBridge.Storage
import OcppBridge.Spool.Store

namespace OcppBridge.Export

open Text Transaction Storage
open Spool (Durability FieldSizes CommittedRecordField CommittedRecordReadToken CommittedRecordDescriptor)
open Spool (BudgetedRecordChunk stream maxPosition exportRecordChunkBytes)

/-- Text of a stored column: identities and JSON are never empty, and SQLite bounds their length. -/
def Column : Type := { bytes : List UInt8 // 0 < bytes.length ∧ bytes.length < 2 ^ 31 }
  deriving DecidableEq

structure EncodedRecord where
  recordId : Column
  durability : Durability
  committedAt : Column
  payload : Column
  retainUntil : Int
  deriving DecidableEq

/-- A row of `committed_records`. -/
structure CommittedRow where
  rowId : Nat
  recordId : Column
  durability : Durability
  committedAt : Column
  payload : Column
  retainUntil : Option Int
  sequence : Nat
  deriving DecidableEq

def CommittedRow.lengths (row : CommittedRow) : FieldSizes :=
  ⟨row.recordId.1.length, row.committedAt.1.length, row.payload.1.length⟩

/-- A row of `committed_source_streams`; SQLite stores positions as signed 64-bit integers. -/
structure SourceStream where
  highWater : Nat
  expiredPrefix : Nat
  fits : highWater ≤ maxPosition
  deriving DecidableEq

structure Source where
  generation : String
  legacyBaselineIncomplete : Bool
  streams : Durability → SourceStream
  records : List CommittedRow
  lastRowId : Nat

def Source.highWater (s : Source) (d : Durability) : Nat := (s.streams d).highWater

/-- The source still retains the record at position `p`. -/
def Source.Retains (s : Source) (d : Durability) (p : Nat) : Prop :=
  ∃ row ∈ s.records, row.durability = d ∧ row.sequence = p

def updateSourcePrefix (s : Source) : Source :=
  { s with streams := fun d =>
      let first := ((s.records.filter (·.durability = d)).map (·.sequence)).min?
      { s.streams d with
        expiredPrefix := max (s.streams d).expiredPrefix ((first.map (· - 1)).getD (s.highWater d)) } }

def shedExistingBestEffort (s : Source) : Source :=
  updateSourcePrefix { s with records := s.records.filter (·.durability ≠ .bestEffortTelemetry) }

def EncodedRecord.recordBytes (r : EncodedRecord) : Nat :=
  r.recordId.1.length + r.committedAt.1.length + r.payload.1.length + 24

def Source.usedBytes (s : Source) : Nat := (s.records.map fun row => row.lengths.sum + 24).sum

/-- What surrounds the records of one write: its limit, and the bytes of the other tables, events and deliveries. -/
structure WriteLoad where
  limit : Nat
  newSessionStart : Bool
  otherBytes : Nat
  otherBytesShed : Nat
  critical : Nat
  fittingDeliveries : Nat

def retainFitting {α : Type} (durability : α → Durability) (bytes : α → Nat) : Nat → List α → List α × Nat
  | remaining, [] => ([], remaining)
  | remaining, value :: values =>
      if durability value = .critical then
        let (kept, left) := retainFitting durability bytes remaining values
        (value :: kept, left)
      else
        let size := min (bytes value) (2 ^ 64 - 1)
        if size ≤ remaining then
          let (kept, left) := retainFitting durability bytes (remaining - size) values
          (value :: kept, left)
        else retainFitting durability bytes remaining values

def retainFittingRecords : Nat → List EncodedRecord → List EncodedRecord × Nat :=
  retainFitting (·.durability) (·.recordBytes)

def capacityExhausted : StorageError :=
  ⟨.capacityExhausted, "critical operational storage capacity cannot be maintained"⟩

/-- The first half of `prepare_write`: what has to fit may shed what is stored. It leaves the bytes that a write can
fill with best-effort rows. -/
def makeRoom {S : Type} (usedBytes : S → Except StorageError Nat) (shed : S → S) (limit critical : Nat) (mustFit : Bool)
    (s : S) : Except StorageError (S × Nat) := do
  let used ← usedBytes s
  let s := if mustFit ∧ limit < saturatingAdd used critical then shed s else s
  let used ← usedBytes s
  require (¬(mustFit ∧ limit < saturatingAdd used critical)) capacityExhausted
  pure (s, limit - saturatingAdd used critical)

def prepareWrite (load : WriteLoad) (s : Source) (records : List EncodedRecord) :
    Except StorageError (Source × List EncodedRecord) := do
  let critical := load.critical + ((records.filter (·.durability = .critical)).map EncodedRecord.recordBytes).sum
  let ((s, _), remaining) ← makeRoom (fun (s, otherBytes) => pure (otherBytes + s.usedBytes))
    (fun (s, _) => (shedExistingBestEffort s, load.otherBytesShed)) load.limit critical
    (decide (0 < critical) || load.newSessionStart) (s, load.otherBytes)
  pure (s, (retainFittingRecords (remaining - load.fittingDeliveries) records).1)

def writeRecord (s : Source) (value : EncodedRecord) : Except StorageError Source :=
  if room : s.highWater value.durability < maxPosition then do
    require (∀ row ∈ s.records, row.recordId ≠ value.recordId) constraintViolation
    let sequence := s.highWater value.durability + 1
    pure { s with
      streams := Function.update s.streams value.durability
        { s.streams value.durability with highWater := sequence, fits := room }
      records := s.records ++ [⟨s.lastRowId + 1, value.recordId, value.durability, value.committedAt, value.payload,
        some value.retainUntil, sequence⟩]
      lastRowId := s.lastRowId + 1 }
  else .error unavailable

def writeRecords (load : WriteLoad) (s : Source) (records : List EncodedRecord) : Except StorageError Source := do
  let (s, records) ← prepareWrite load s records
  records.foldlM writeRecord s

def maintain (s : Source) (now : Int) : Source :=
  updateSourcePrefix { s with records := s.records.filter fun row => ¬∃ t ∈ row.retainUntil, t ≤ now }

structure CommittedRecordQuery where
  after : Option String
  limit : Nat
  durability : Durability
  deriving DecidableEq, Repr

structure CommittedRecordPage where
  items : List CommittedRecordDescriptor
  sourceGeneration : String
  resumeCursor : String
  hasMore : Bool
  highWater : Nat
  expiredPrefix : Nat
  lostRecords : Nat
  legacyBaselineIncomplete : Bool
  deriving DecidableEq, Repr

def integrity : StorageError := ⟨.integrityFailure, "committed source row identity is inconsistent"⟩

def cursorOutside : StorageError :=
  ⟨.cursorExpired, "committed-record cursor is outside the retained source stream"⟩

def sourceCursorPrefix : String := "uob:record:v1:"

def cursorFront (generation : String) (d : Durability) : String :=
  sourceCursorPrefix ++ generation ++ ":" ++ toString (stream d) ++ ":"

def position (s : Source) (d : Durability) : Option String → Except StorageError Nat
  | none => pure 0
  | some cursor =>
      match (stripPrefix (cursorFront s.generation d) cursor).bind parseSigned with
      | some p => do
          require (0 ≤ p ∧ p ≤ s.highWater d) cursorOutside
          pure p.toNat
      | none => .error cursorOutside

def CommittedRow.descriptor (generation : String) (row : CommittedRow) : CommittedRecordDescriptor where
  token := ⟨generation, row.durability, row.sequence, row.rowId, row.lengths⟩
  durability := row.durability
  sequence := row.sequence
  cursor := cursorFront generation row.durability ++ toString row.sequence
  recordIdLen := row.recordId.1.length
  committedAtLen := row.committedAt.1.length
  payloadLen := row.payload.1.length

/-- Turn at most `limit` rows into descriptors. -/
def collectDescriptors (generation : String) (highWater : Nat) :
    Nat → Nat → List CommittedRow → Except StorageError (List CommittedRecordDescriptor × Nat × Bool)
  | _, last, [] => pure ([], last, false)
  | 0, last, _ :: _ => pure ([], last, true)
  | limit + 1, last, row :: rows => do
      require (row.rowId ≠ 0 ∧ last < row.sequence ∧ row.sequence ≤ highWater) integrity
      let (items, last, hasMore) ← collectDescriptors generation highWater limit row.sequence rows
      pure (row.descriptor generation :: items, last, hasMore)

def rowsAfter (s : Source) (d : Durability) (after : Nat) : List CommittedRow :=
  (s.records.filter fun row => row.durability = d ∧ after < row.sequence).insertionSort
    fun a b => a.sequence ≤ b.sequence

def readRecords (s : Source) (query : CommittedRecordQuery) : Except StorageError CommittedRecordPage := do
  require (s.generation.utf8ByteSize ≤ 128) integrity
  let highWater := s.highWater query.durability
  let expiredPrefix := (s.streams query.durability).expiredPrefix
  require (expiredPrefix ≤ highWater) integrity
  let after ← position s query.durability query.after
  let (items, last, hasMore) ← collectDescriptors s.generation highWater query.limit after
    ((rowsAfter s query.durability after).take (query.limit + 1))
  let checkpoint := if hasMore then last else highWater
  require (after + items.length ≤ checkpoint) integrity
  pure { items, sourceGeneration := s.generation,
         resumeCursor := cursorFront s.generation query.durability ++ toString checkpoint, hasMore, highWater,
         expiredPrefix, lostRecords := checkpoint - after - items.length,
         legacyBaselineIncomplete := s.legacyBaselineIncomplete }

end OcppBridge.Export
