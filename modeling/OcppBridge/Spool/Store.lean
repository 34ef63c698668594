import OcppBridge.Spool.Contract
import Mathlib.Data.List.Sort

namespace OcppBridge.Spool

open Text Transaction

structure PendingRow where
  rowId : Nat
  durability : Durability
  sequence : Nat
  recordId : List UInt8
  committedAt : List UInt8
  payload : List UInt8
  deriving DecidableEq, Repr

def PendingRow.bytes (row : PendingRow) : Nat :=
  row.recordId.length + row.committedAt.length + row.payload.length

def PendingRow.descriptor (row : PendingRow) : ExportPendingDescriptor :=
  ⟨row.durability, row.sequence, row.rowId, row.recordId.length, row.committedAt.length, row.payload.length⟩

structure StreamColumns where
  cursor : Option String
  seq : Nat
  high : Nat
  deriving DecidableEq, Repr

structure Binding where
  destination : String
  revision : Nat
  kind : String
  generation : String
  critical : StreamColumns
  telemetry : StreamColumns
  incomplete : Bool
  legacy : Bool
  nextDeliveryId : Nat
  lastConfirmedBatch : Option String
  confirmedRecords : Nat
  deriving DecidableEq, Repr

def Binding.column (b : Binding) : Durability → StreamColumns
  | .critical => b.critical
  | .bestEffortTelemetry => b.telemetry

def Binding.setColumn (b : Binding) (d : Durability) (c : StreamColumns) : Binding :=
  match d with
  | .critical => { b with critical := c }
  | .bestEffortTelemetry => { b with telemetry := c }

/-- The tables of the export database. `deliveryItems` lists row ids by ordinal. -/
structure Database where
  binding : Option Binding
  pending : List PendingRow
  gaps : List ExportGap
  delivery : Option String
  deliveryItems : List Nat
  deriving DecidableEq, Repr

def Database.empty : Database := ⟨none, [], [], none, []⟩

def Database.checkpoint (db : Database) (d : Durability) : Nat :=
  (db.binding.map fun b => (b.column d).seq).getD 0

def Database.incomplete (db : Database) : Bool := (db.binding.map (·.incomplete)).getD false

def Database.confirmedRecords (db : Database) : Nat := (db.binding.map (·.confirmedRecords)).getD 0

def sqliteFailure : ExportSpoolError := ⟨.unavailable, "export spool SQLite operation failed"⟩

def maxPosition : Nat := 2 ^ 63 - 1

def stream : Durability → Nat
  | .critical => 0
  | .bestEffortTelemetry => 1

def validateNamespace (ns : ExportSpoolNamespace) : Except ExportSpoolError Unit :=
  require (¬(isBlank ns.providerKind ∨ ns.providerKind.utf8ByteSize > 128 ∨
      isBlank ns.sourceGeneration ∨ ns.sourceGeneration.utf8ByteSize > 128 ∨
      ':' ∈ ns.sourceGeneration.toList ∨ ns.destination.destinationId.utf8ByteSize > 256 ∨
      ns.destination.configurationRevision > maxPosition))
    ⟨.invalidRequest, "invalid or oversized export namespace"⟩

def Binding.owns (b : Binding) (ns : ExportSpoolNamespace) : Prop :=
  b.destination = ns.destination.destinationId ∧ b.revision = ns.destination.configurationRevision ∧
    b.kind = ns.providerKind ∧ b.generation = ns.sourceGeneration

instance (b : Binding) (ns : ExportSpoolNamespace) : Decidable (b.owns ns) :=
  inferInstanceAs (Decidable (_ ∧ _ ∧ _ ∧ _))

def binding (db : Database) (ns : ExportSpoolNamespace) : Except ExportSpoolError Bool :=
  match db.binding with
  | none => .ok false
  | some b => do
      require (b.owns ns)
        ⟨.namespaceConflict, "pending export data belongs to a different destination or source"⟩
      pure true

def newBinding (ns : ExportSpoolNamespace) : Binding where
  destination := ns.destination.destinationId
  revision := ns.destination.configurationRevision
  kind := ns.providerKind
  generation := ns.sourceGeneration
  critical := ⟨none, 0, 0⟩
  telemetry := ⟨none, 0, 0⟩
  incomplete := false
  legacy := false
  nextDeliveryId := 0
  lastConfirmedBatch := none
  confirmedRecords := 0

def ensureBinding (db : Database) (ns : ExportSpoolNamespace) : Except ExportSpoolError Database := do
  if ← binding db ns then pure db else pure { db with binding := some (newBinding ns) }

def checkpoint (c : StreamColumns) : Except ExportSpoolError (Option ExportSourceCheckpoint) :=
  match c.cursor with
  | none => .ok none
  | some cursor => do
      require (¬isBlank cursor) ⟨.integrityFailure, "invalid durable source checkpoint"⟩
      pure (some ⟨cursor, c.seq⟩)

def gapBefore (a b : ExportGap) : Prop :=
  stream a.durability < stream b.durability ∨ (a.durability = b.durability ∧ a.first ≤ b.first)

instance : DecidableRel gapBefore := fun _ _ => inferInstanceAs (Decidable (_ ∨ _))

def readGaps (db : Database) : Except ExportSpoolError (List ExportGap) := do
  require (db.gaps.length ≤ maxGaps)
    ⟨.integrityFailure, "durable export summaries exceed their bounded capacity"⟩
  require (∀ gap ∈ db.gaps, gap.first ≠ 0 ∧ gap.first ≤ gap.last)
    ⟨.integrityFailure, "durable export gap interval is invalid"⟩
  pure (db.gaps.insertionSort gapBefore)

def unboundStatus (ns : ExportSpoolNamespace) : ExportSpoolStatus where
  destination := ns.destination
  providerKind := ns.providerKind
  sourceGeneration := ns.sourceGeneration
  critical := none
  telemetry := none
  criticalHighWater := 0
  telemetryHighWater := 0
  pendingRecords := 0
  lastConfirmedBatch := none
  confirmedRecords := 0
  gaps := []
  incomplete := false
  legacyBaselineIncomplete := false

def boundStatus (db : Database) (ns : ExportSpoolNamespace) (b : Binding) :
    Except ExportSpoolError ExportSpoolStatus := do
  let critical ← checkpoint b.critical
  let telemetry ← checkpoint b.telemetry
  require (∀ id ∈ b.lastConfirmedBatch, ¬isBlank id)
    ⟨.integrityFailure, "invalid durable pending record"⟩
  let gaps ← readGaps db
  pure { unboundStatus ns with
    critical, telemetry, criticalHighWater := b.critical.high, telemetryHighWater := b.telemetry.high,
    pendingRecords := db.pending.length, lastConfirmedBatch := b.lastConfirmedBatch,
    confirmedRecords := b.confirmedRecords, gaps, incomplete := b.incomplete,
    legacyBaselineIncomplete := b.legacy }

def status (db : Database) (ns : ExportSpoolNamespace) : Except ExportSpoolError ExportSpoolStatus := do
  validateNamespace ns
  let _ ← binding db ns
  match db.binding with
  | none => pure (unboundStatus ns)
  | some b => boundStatus db ns b

def ExportSpoolStatus.checkpoint (s : ExportSpoolStatus) : Durability → Option ExportSourceCheckpoint
  | .critical => s.critical
  | .bestEffortTelemetry => s.telemetry

def PendingRow.before (a b : PendingRow) : Prop :=
  stream a.durability < stream b.durability ∨ (a.durability = b.durability ∧ a.sequence ≤ b.sequence)

instance : DecidableRel PendingRow.before := fun _ _ => inferInstanceAs (Decidable (_ ∨ _))

def Database.ordered (db : Database) : List PendingRow := db.pending.insertionSort PendingRow.before

/-- First `limit` pending rows; `admitted` tells whether metadata memory was available. -/
def pending (db : Database) (ns : ExportSpoolNamespace) (limit : Nat) (admitted : Bool) :
    Except ExportSpoolError (List PendingRow) := do
  let _ ← binding db ns
  require admitted ⟨.backpressure, "pending metadata memory unavailable"⟩
  pure (db.ordered.take limit)

end OcppBridge.Spool
