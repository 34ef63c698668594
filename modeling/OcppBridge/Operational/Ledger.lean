import OcppBridge.Table
import OcppBridge.Operational.Protected
import Mathlib.Data.List.Sort

namespace OcppBridge.Operational

open Storage Transaction

variable {P ρ : Type}

structure CommandRow (P : Type) where
  command : Command P
  unresolved : Bool
  deriving DecidableEq

def CommandRow.request (row : CommandRow P) : RequestId := row.command.requestId

structure ResultRow where
  request : RequestId
  payload : CommandResult
  reportPending : Bool
  triggerReconcileActive : Bool
  deriving DecidableEq

structure Journal (P : Type) where
  commands : Table (CommandRow.request (P := P))
  results : Table ResultRow.request

namespace Journal

def empty : Journal P := ⟨.empty, .empty⟩

def command? (j : Journal P) (request : RequestId) : Option (Command P) := (j.commands.find? request).map (·.command)

def result? (j : Journal P) (request : RequestId) : Option CommandResult := (j.results.find? request).map (·.payload)

def owner (j : Journal P) (request : RequestId) : Except StorageError (Command P) :=
  match j.command? request with
  | some command => pure command
  | none => .error unavailable

def setPayload (j : Journal P) (request : RequestId) (payload : CommandResult) : Journal P :=
  match j.results.find? request with
  | some row => { j with results := j.results.replace { row with payload } }
  | none => j

end Journal

structure ReleaseJob where
  id : String
  kind : String
  deriving DecidableEq, Repr

structure Entry (ρ : Type) where
  record : ρ
  inflight : Bool
  deriving DecidableEq, Repr

/-- What the revision ledgers of the store share: how a family files, checks and publishes its records. -/
structure Shape (ρ : Type) where
  station : ρ → ResourceRef
  revision : ρ → Nat
  requestId : ρ → RequestId
  decodable : ρ → Bool
  malformed : String
  limit : Nat
  overflow : String
  exhausted : String
  ownerChanged : String
  /-- The release job that ends when the record is saved. -/
  closes : ρ → Option String
  /-- The result with this record's evidence brought up to date, if it carries any. -/
  refresh : ρ → CommandResult → Option CommandResult

namespace Shape

variable (shape : Shape ρ)

def key (entry : Entry ρ) : StationKey × Nat := ((shape.station entry.record).key, shape.revision entry.record)

def decode (record : ρ) : Except StorageError ρ := do
  require (shape.decodable record) (integrityFailure shape.malformed)
  pure record

end Shape

def maxPosition : Nat := 2 ^ 63 - 1

structure Desk (P : Type) {ρ : Type} (shape : Shape ρ) where
  journal : Journal P
  rows : Table shape.key
  releaseJobs : List ReleaseJob

namespace Desk

variable {shape : Shape ρ}

def entries (desk : Desk P shape) (station : StationKey) : List (Entry ρ) :=
  (desk.rows.rows.filter fun e => (shape.station e.record).key = station).mergeSort
    fun a b => shape.revision a.record ≤ shape.revision b.record

def readKey (desk : Desk P shape) (station : StationKey) : Except StorageError (List ρ) := do
  let values ← ((desk.entries station).take (shape.limit + 1)).mapM fun e => shape.decode e.record
  require (values.length ≤ shape.limit) (integrityFailure shape.overflow)
  pure values

/-- Persist one revision; `inflight` is kept when it is not given. -/
def save (desk : Desk P shape) (record : ρ) (inflight : Option Bool) : Except StorageError (Desk P shape) := do
  let station ← stationKey (shape.station record)
  require (shape.revision record ≤ maxPosition) (conflict shape.exhausted)
  match desk.rows.find? (station, shape.revision record) with
  | none => .error (conflict shape.ownerChanged)
  | some entry =>
      pure { desk with
        rows := desk.rows.replace ⟨record, inflight.getD entry.inflight⟩
        releaseJobs := desk.releaseJobs.filter fun job => some job.id ≠ shape.closes record }

section Sync

variable [Wire P]

/-- Bring the retained public result up to date with an independent change of its record. -/
def syncResult (desk : Desk P shape) (record : ρ) : Except StorageError (Desk P shape) :=
  match desk.journal.result? (shape.requestId record) with
  | none => pure desk
  | some payload => do
      let result ← decodeResult P payload
      match shape.refresh record result with
      | none => pure desk
      | some result => pure { desk with journal := desk.journal.setPayload (shape.requestId record) result }

def amend (inflight : Option Bool) (desk : Desk P shape) (record : ρ) : Except StorageError (Desk P shape) := do
  let desk ← desk.save record inflight
  desk.syncResult record

end Sync

/-- Walk over the records of a station, writing those that `change` rewrites. -/
def sweep (act : Desk P shape → ρ → Except StorageError (Desk P shape)) (change : ρ → Option ρ) :
    Desk P shape → List ρ → Except StorageError (Desk P shape × List ρ)
  | desk, [] => pure (desk, [])
  | desk, record :: records =>
      match change record with
      | none => do
          let (desk, records) ← sweep act change desk records
          pure (desk, record :: records)
      | some changed => do
          let desk ← act desk changed
          let (desk, records) ← sweep act change desk records
          pure (desk, changed :: records)

/-- Drop a settled revision whose public result is gone. -/
def delete (desk : Desk P shape) (station : StationKey) (record : ρ) : Except StorageError (Desk P shape × Bool) := do
  require (shape.revision record ≤ maxPosition) (conflict shape.exhausted)
  if (desk.journal.results.find? (shape.requestId record)).isNone ∧
      (desk.rows.find? (station, shape.revision record)).any (!·.inflight) then
    pure ({ desk with rows := desk.rows.keep fun e => shape.key e ≠ (station, shape.revision record) }, true)
  else pure (desk, false)

def insert (desk : Desk P shape) (station : StationKey) (record : ρ) : Except StorageError (Desk P shape) := do
  require (shape.revision record ≤ maxPosition) (conflict shape.exhausted)
  require (∀ e ∈ desk.rows.rows, shape.key e ≠ (station, shape.revision record) ∧
      shape.requestId e.record ≠ shape.requestId record ∧
      ¬(e.inflight = true ∧ (shape.station e.record).key = station)) constraintViolation
  pure { desk with rows := desk.rows.put ⟨record, true⟩ }

def inflight (desk : Desk P shape) (station : StationKey) : Bool :=
  desk.rows.rows.any fun e => e.inflight && (shape.station e.record).key = station

def land (desk : Desk P shape) (station : StationKey) : Desk P shape :=
  { desk with
    rows := desk.rows.update
      (fun e => if (shape.station e.record).key = station then { e with inflight := false } else e)
      fun e => by split_ifs <;> rfl }

def ofRequest (desk : Desk P shape) (request : RequestId) : Option (Entry ρ) :=
  desk.rows.rows.find? fun e => shape.requestId e.record = request

def stations (desk : Desk P shape) : List StationKey :=
  (desk.rows.rows.map fun e => (shape.station e.record).key).dedup

end Desk

/-- Something about a station that its ledgers follow. -/
structure StationObservation (κ : Type) where
  station : ResourceRef
  observedAt : UtcTimestamp
  kind : κ
  deriving DecidableEq, Repr

end OcppBridge.Operational
