import OcppBridge.Spool.Store

namespace OcppBridge.Spool

open Text Transaction

def invalidProgress : ExportSpoolError := ⟨.invalidRequest, "invalid export source progress"⟩

def blocked : ExportSpoolError := ⟨.backpressure, "export record deferred at source checkpoint"⟩

def checkpointChanged : ExportSpoolError := ⟨.checkpointConflict, "source checkpoint changed"⟩

def invalidGap : ExportSpoolError := ⟨.invalidRequest, "invalid export gap interval"⟩

def sqlitePosition (position : Nat) : Except ExportSpoolError Unit :=
  require (position ≤ maxPosition) invalidProgress

def cursorPrefix (generation : String) (d : Durability) : String :=
  "uob:record:v1:" ++ generation ++ ":" ++ toString (stream d) ++ ":"

def checkCursor (ns : ExportSpoolNamespace) (d : Durability) (point : ExportSourceCheckpoint) :
    Except ExportSpoolError Unit :=
  require ((stripPrefix (cursorPrefix ns.sourceGeneration d) point.cursor).bind (parseUnsigned (2 ^ 64)) =
    some point.sequence) invalidProgress

def checkGaps (d : Durability) : Nat → List ExportGap → Except ExportSpoolError Nat
  | covered, [] => pure covered
  | covered, gap :: gaps => do
      require (gap.durability = d ∧ gap.reason = .sourceExpired ∧ covered + 1 < 2 ^ 64 ∧
        gap.first = covered + 1 ∧ gap.first ≤ gap.last) invalidProgress
      checkGaps d gap.last gaps

def checkDescriptor (progress : ExportSpoolGapCommit) (covered : Nat) (record : CommittedRecordDescriptor) :
    Except ExportSpoolError Nat := do
  require (record.durability = progress.durability ∧ covered + 1 < 2 ^ 64 ∧
    record.sequence = covered + 1 ∧ record.cursor = progress.next.cursor ∧
    record.token.generation = progress.space.sourceGeneration ∧
    record.token.sequence = record.sequence ∧ record.token.durability = record.durability ∧
    record.token.lengths = record.lengths) invalidProgress
  pure record.sequence

def previousSequence (progress : ExportSpoolGapCommit) : Nat :=
  (progress.expected.map (·.sequence)).getD 0

def checkExpected (progress : ExportSpoolGapCommit) : Except ExportSpoolError Unit :=
  match progress.expected with
  | none => pure ()
  | some expected => checkCursor progress.space progress.durability expected

def checkRecord (progress : ExportSpoolGapCommit) (covered : Nat) :
    Option CommittedRecordDescriptor → Except ExportSpoolError Nat
  | none => pure covered
  | some record => checkDescriptor progress covered record

def validate (progress : ExportSpoolGapCommit) (record : Option CommittedRecordDescriptor) :
    Except ExportSpoolError Unit := do
  validateNamespace progress.space
  sqlitePosition progress.highWater
  sqlitePosition progress.next.sequence
  checkExpected progress
  checkCursor progress.space progress.durability progress.next
  require (progress.next.sequence ≤ progress.highWater ∧
    previousSequence progress ≤ progress.next.sequence ∧ progress.gaps.length ≤ 101) invalidProgress
  let covered ← checkGaps progress.durability (previousSequence progress) progress.gaps
  let covered ← checkRecord progress covered record
  require (covered = progress.next.sequence) invalidProgress

def ExportGap.overlaps (g gap : ExportGap) : Prop :=
  g.durability = gap.durability ∧ g.first ≤ gap.last ∧ gap.first ≤ g.last

instance (g gap : ExportGap) : Decidable (g.overlaps gap) := inferInstanceAs (Decidable (_ ∧ _ ∧ _))

def checkGapCapacity (limits : Limits) (gaps : List ExportGap) (reason : ExportGapReason) :
    Except ExportSpoolError Unit :=
  let source := gaps.countP (·.reason = .sourceExpired)
  let permitted := if reason = .sourceExpired then limits.gapSlots else limits.gapSlots - (2 - source)
  require (gaps.length < permitted) ⟨.summaryFull, "exact export gap summary reserve is full"⟩

def lowerGap (gaps : List ExportGap) (gap : ExportGap) : Option ExportGap :=
  (gaps.find? fun g => g.durability = gap.durability ∧ g.last = gap.first - 1).filter (·.reason = gap.reason)

def upperGap (gaps : List ExportGap) (gap : ExportGap) : Option ExportGap :=
  if gap.last < maxPosition then
    (gaps.find? fun g => g.durability = gap.durability ∧ g.first = gap.last + 1).filter (·.reason = gap.reason)
  else none

def deleteGap (gaps : List ExportGap) : Option ExportGap → List ExportGap
  | none => gaps
  | some g => gaps.filter fun x => ¬(x.durability = g.durability ∧ x.first = g.first)

def insertGap (limits : Limits) (db : Database) (gap : ExportGap) : Except ExportSpoolError Database := do
  require (gap.first ≤ maxPosition ∧ gap.last ≤ maxPosition ∧ gap.first ≠ 0 ∧ gap.first ≤ gap.last) invalidGap
  require (¬∃ g ∈ db.gaps, g.overlaps gap) ⟨.checkpointConflict, "overlapping committed export gaps"⟩
  let lower := lowerGap db.gaps gap
  let upper := upperGap db.gaps gap
  let rest := deleteGap (deleteGap db.gaps lower) upper
  checkGapCapacity limits rest gap.reason
  pure { db with
    gaps := rest ++ [⟨gap.durability, (lower.map (·.first)).getD gap.first, (upper.map (·.last)).getD gap.last,
      gap.reason⟩] }

def prepare (limits : Limits) (db : Database) (progress : ExportSpoolGapCommit) :
    Except ExportSpoolError Database := do
  let db ← ensureBinding db progress.space
  let existing ← status db progress.space
  require (existing.checkpoint progress.durability = progress.expected) checkpointChanged
  progress.gaps.foldlM (insertGap limits) db

def complete (db : Database) (progress : ExportSpoolGapCommit) : Except ExportSpoolError Database := do
  sqlitePosition progress.next.sequence
  sqlitePosition progress.highWater
  pure { db with
    binding := db.binding.map fun b =>
      { b.setColumn progress.durability ⟨some progress.next.cursor, progress.next.sequence,
          max (b.column progress.durability).high progress.highWater⟩ with
        incomplete := b.incomplete || !db.gaps.isEmpty || progress.legacyBaselineIncomplete
        legacy := b.legacy || progress.legacyBaselineIncomplete } }

def observe (db : Database) (ns : ExportSpoolNamespace) (d : Durability) (highWater : Nat) (legacy : Bool) :
    Except ExportSpoolError Database := do
  validateNamespace ns
  sqlitePosition ns.destination.configurationRevision
  sqlitePosition highWater
  let db ← ensureBinding db ns
  pure { db with
    binding := db.binding.map fun b =>
      { b.setColumn d { b.column d with high := max (b.column d).high highWater } with
        incomplete := b.incomplete || legacy
        legacy := b.legacy || legacy } }

def commitGaps (limits : Limits) (db : Database) (progress : ExportSpoolGapCommit) :
    Except ExportSpoolError Database := do
  validate progress none
  let db ← prepare limits db progress
  complete db progress

def evictOldestTelemetry (limits : Limits) (db : Database) : Except ExportSpoolError (Option (Database × Nat)) :=
  match db.ordered.find? fun row => row.durability = .bestEffortTelemetry ∧ row.rowId ∉ db.deliveryItems with
  | none => pure none
  | some row => do
      let db ← insertGap limits db ⟨.bestEffortTelemetry, row.sequence, row.sequence, .telemetryEvicted⟩
      pure (some ({ db with
        pending := db.pending.filter fun r => ¬(r.durability = .bestEffortTelemetry ∧ r.sequence = row.sequence) },
        row.bytes))

structure ActiveRecord where
  progress : ExportSpoolGapCommit
  rowId : Nat
  lengths : FieldSizes
  offsets : FieldSizes
  deriving DecidableEq, Repr

structure Admission where
  lengths : FieldSizes
  capacity : Nat
  feasible : Bool
  deriving DecidableEq, Repr

def admission (record : CommittedRecordDescriptor) (limits : Limits) : Except ExportSpoolError Admission := do
  let lengths := record.lengths
  require (¬(lengths.recordId = 0 ∨ lengths.committedAt = 0 ∨ lengths.payload = 0)) invalidProgress
  require (lengths.sum < 2 ^ 64) invalidProgress
  let reserve := max (limits.mainBytes / 16) (128 * 1024)
  let capacity := limits.mainBytes - (reserve + 64 * 1024)
  pure ⟨lengths, capacity, decide (lengths.sum ≤ capacity ∧ lengths.recordId < 2 ^ 31 ∧
    lengths.committedAt < 2 ^ 31 ∧ lengths.payload < 2 ^ 31)⟩

/-- How SQLite's pages answer one attempt to insert the record's row. -/
inductive Probe
  | room (rowId : Nat)
  | tight
  | rolledBack
  | failed
  deriving DecidableEq, Repr

def zeroblob (n : Nat) : List UInt8 := List.replicate n 0

def insertPending (db : Database) (row : PendingRow) : Except ExportSpoolError Database := do
  require (row.rowId ≠ 0 ∧ row.sequence ≠ 0 ∧ ∀ r ∈ db.pending, r.rowId ≠ row.rowId ∧
    ¬(r.durability = row.durability ∧ r.sequence = row.sequence)) sqliteFailure
  pure { db with pending := db.pending ++ [row] }

def attemptBegin (db : Database) (request : ExportSpoolRecordBegin) (adm : Admission) (used : Nat)
    (probe : Probe) : Except ExportSpoolError (Option (Database × Nat)) :=
  if adm.feasible ∧ used + adm.lengths.sum < 2 ^ 64 ∧ used + adm.lengths.sum ≤ adm.capacity then
    match probe with
    | .room rowId => do
        let db ← insertPending db ⟨rowId, request.progress.durability, request.descriptor.sequence,
          zeroblob adm.lengths.recordId, zeroblob adm.lengths.committedAt, zeroblob adm.lengths.payload⟩
        pure (some (db, rowId))
    | .tight => pure none
    | .rolledBack => .error blocked
    | .failed => .error sqliteFailure
  else pure none

inductive BeginResult
  | transfer (working : Database) (active : ActiveRecord)
  | telemetryDropped (db : Database)

/-- Insert the record's row, giving up telemetry rows for a critical record while space is short. -/
def beginLoop (limits : Limits) (request : ExportSpoolRecordBegin) (adm : Admission) (probe : Nat → Probe) :
    Nat → Nat → Nat → Database → Except ExportSpoolError BeginResult
  | 0, _, _, _ => .error blocked
  | fuel + 1, attempt, used, db => do
      match ← attemptBegin db request adm used (probe attempt) with
      | some (working, rowId) =>
          pure (.transfer working ⟨request.progress, rowId, adm.lengths, ⟨0, 0, 0⟩⟩)
      | none =>
          if request.progress.durability = .bestEffortTelemetry then do
            let db ← insertGap limits db ⟨request.progress.durability, request.descriptor.sequence,
              request.descriptor.sequence, .telemetryDropped⟩
            let db ← complete db request.progress
            pure (.telemetryDropped db)
          else
            match evictOldestTelemetry limits db with
            | .ok (some (db, freed)) =>
                if freed ≤ used then beginLoop limits request adm probe fuel (attempt + 1) (used - freed) db
                else .error ⟨.integrityFailure, "invalid durable pending byte count"⟩
            | .ok none => .error blocked
            | .error e => if e.code = .summaryFull then .error blocked else .error e

def pendingBytes (db : Database) : Nat := (db.pending.map PendingRow.bytes).sum

def checkCriticalCheckpoint (db : Database) (progress : ExportSpoolGapCommit) : Except ExportSpoolError Unit := do
  let existing ← status db progress.space
  require (existing.critical = progress.expected) checkpointChanged

def begin (limits : Limits) (probe : Nat → Probe) (db : Database) (request : ExportSpoolRecordBegin) :
    Except ExportSpoolError BeginResult := do
  validate request.progress (some request.descriptor)
  let adm ← admission request.descriptor limits
  if adm.feasible = false ∧ request.progress.durability = .critical then do
    checkCriticalCheckpoint db request.progress
    .error blocked
  else do
    let db ← prepare limits db request.progress
    beginLoop limits request adm probe (db.pending.length + 1) 0 (pendingBytes db) db

def writeAt (old : List UInt8) (offset : Nat) (bytes : List UInt8) : List UInt8 :=
  old.take offset ++ bytes ++ old.drop (offset + bytes.length)

def PendingRow.write (row : PendingRow) (chunk : BudgetedRecordChunk) : PendingRow :=
  match chunk.field with
  | .recordId => { row with recordId := writeAt row.recordId chunk.offset chunk.bytes }
  | .committedAt => { row with committedAt := writeAt row.committedAt chunk.offset chunk.bytes }
  | .payload => { row with payload := writeAt row.payload chunk.offset chunk.bytes }

def ActiveRecord.expects (active : ActiveRecord) : CommittedRecordField → Prop
  | .recordId => active.offsets.committedAt = 0 ∧ active.offsets.payload = 0
  | .committedAt => active.offsets.recordId = active.lengths.recordId ∧ active.offsets.payload = 0
  | .payload => active.offsets.recordId = active.lengths.recordId ∧
      active.offsets.committedAt = active.lengths.committedAt

instance (active : ActiveRecord) : (field : CommittedRecordField) → Decidable (active.expects field)
  | .recordId | .committedAt | .payload => inferInstanceAs (Decidable (_ ∧ _))

def append (working : Database) (active : ActiveRecord) (chunk : BudgetedRecordChunk) :
    Except ExportSpoolError (Database × ActiveRecord) := do
  require (active.expects chunk.field ∧ chunk.offset = active.offsets.get chunk.field ∧ chunk.bytes ≠ [] ∧
    chunk.isValidFor (active.lengths.get chunk.field)) invalidProgress
  require (∃ row ∈ working.pending, row.rowId = active.rowId) sqliteFailure
  pure ({ working with
      pending := working.pending.map fun row => if row.rowId = active.rowId then row.write chunk else row },
    { active with offsets := active.offsets.set chunk.field chunk.nextOffset })

/-- `occupied` tells whether the written pages leave the reserve free. -/
def finish (working : Database) (active : ActiveRecord) (occupied : Bool) : Except ExportSpoolError Database := do
  require (active.lengths = active.offsets) invalidProgress
  require occupied blocked
  complete working active.progress

end OcppBridge.Spool
