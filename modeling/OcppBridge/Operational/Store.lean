import OcppBridge.Operational.Diagnostics
import OcppBridge.Operational.Firmware
import OcppBridge.Operational.Profile
import OcppBridge.Operational.Reconcile
import OcppBridge.Operational.Reports
import OcppBridge.Operational.Reservations

namespace OcppBridge.Operational

open Storage Transaction

def StationSnapshot.key (snapshot : StationSnapshot) : StationKey := snapshot.station.key

/-- The operational database, as far as commands, their results and the ledgers behind them go. -/
structure Store (P : Type) [Wire P] where
  journal : Journal P
  events : List JournalEvent
  releaseJobs : List ReleaseJob
  staging : Staging
  snapshots : Table StationSnapshot.key
  profiles : ProfileLedger
  reservations16 : Table (Reservation16.edition (P := P)).shape.key
  reservations201 : Table (Reservation201.edition (P := P)).shape.key
  firmware16 : Table (Firmware16.family (P := P)).shape.key
  firmware201 : Table (Firmware201.family (P := P)).shape.key
  diagnostics16 : Table (Diagnostics16.family (P := P)).shape.key
  diagnostics201 : Table (Diagnostics201.family (P := P)).shape.key

variable {P : Type} [Wire P]

def Store.empty : Store P where
  journal := .empty
  events := []
  releaseJobs := []
  staging := .empty
  snapshots := .empty
  profiles := .empty
  reservations16 := .empty
  reservations201 := .empty
  firmware16 := .empty
  firmware201 := .empty
  diagnostics16 := .empty
  diagnostics201 := .empty

structure Drawer (P : Type) [Wire P] {ρ : Type} (shape : Shape ρ) where
  rows : Store P → Table shape.key
  setRows : Table shape.key → Store P → Store P

namespace Drawer

variable {ρ : Type} {shape : Shape ρ} (drawer : Drawer P shape)

def desk (store : Store P) : Desk P shape := ⟨store.journal, drawer.rows store, store.releaseJobs⟩

def file (desk : Desk P shape) (store : Store P) : Store P :=
  { drawer.setRows desk.rows store with journal := desk.journal, releaseJobs := desk.releaseJobs }

def run (act : Desk P shape → Except StorageError (Desk P shape)) (store : Store P) :
    Except StorageError (Store P) := do
  let desk ← act (drawer.desk store)
  pure (drawer.file desk store)

def finish (act : Desk P shape → CommandResult → Except StorageError (Desk P shape × CommandResult)) (store : Store P)
    (incoming : CommandResult) : Except StorageError (Store P × CommandResult) := do
  let (desk, incoming) ← act (drawer.desk store) incoming
  pure (drawer.file desk store, incoming)

end Drawer

namespace Drawers

def reservation16 : Drawer P (Reservation16.edition (P := P)).shape :=
  ⟨Store.reservations16, fun rows store => { store with reservations16 := rows }⟩

def reservation201 : Drawer P (Reservation201.edition (P := P)).shape :=
  ⟨Store.reservations201, fun rows store => { store with reservations201 := rows }⟩

def firmware16 : Drawer P (Firmware16.family (P := P)).shape :=
  ⟨Store.firmware16, fun rows store => { store with firmware16 := rows }⟩

def firmware201 : Drawer P (Firmware201.family (P := P)).shape :=
  ⟨Store.firmware201, fun rows store => { store with firmware201 := rows }⟩

def diagnostics16 : Drawer P (Diagnostics16.family (P := P)).shape :=
  ⟨Store.diagnostics16, fun rows store => { store with diagnostics16 := rows }⟩

def diagnostics201 : Drawer P (Diagnostics201.family (P := P)).shape :=
  ⟨Store.diagnostics201, fun rows store => { store with diagnostics201 := rows }⟩

end Drawers

namespace Configuration201

def validateStored (journal : Journal P) (result : CommandResult) : Except StorageError Unit :=
  if result.configuration201.isNone then pure ()
  else match journal.command? result.request with
    | none => .error invalid
    | some command => correlate command result

end Configuration201

namespace LocalAuthorization

def validateStored {σ : Type} (edition : LocalAuthorization P σ)
    (validateCommand : Command P → Except StorageError Unit) (journal : Journal P) (result : CommandResult) :
    Except StorageError Unit :=
  if (edition.evidence result).isNone then pure ()
  else match journal.command? result.request with
    | none => .error invalid
    | some command => correlate edition validateCommand command result

end LocalAuthorization

def LocalAuthorization16.validateStored : Journal P → CommandResult → Except StorageError Unit :=
  LocalAuthorization.validateStored LocalAuthorization16.edition LocalAuthorization16.validateCommand

def LocalAuthorization201.validateStored : Journal P → CommandResult → Except StorageError Unit :=
  LocalAuthorization.validateStored LocalAuthorization201.edition LocalAuthorization201.validateCommand

namespace Store

def validateStored (store : Store P) (result : CommandResult) : Except StorageError Unit := do
  Configuration201.validateStored store.journal result
  LocalAuthorization16.validateStored store.journal result
  LocalAuthorization201.validateStored store.journal result
  Reservation16.edition.validateStored (Drawers.reservation16.desk store) result
  Reservation201.edition.validateStored (Drawers.reservation201.desk store) result
  Firmware16.family.validateStored (Drawers.firmware16.desk store) result
  Firmware201.family.validateStored (Drawers.firmware201.desk store) result
  Diagnostics16.family.validateStored (Drawers.diagnostics16.desk store) result
  Diagnostics201.family.validateStored (Drawers.diagnostics201.desk store) result

def decodeStoredResult (store : Store P) (payload : CommandResult) (request : RequestId) :
    Except StorageError CommandResult := do
  let result ← decodeResult P payload
  require (result.request = request) (integrityFailure "stored command result request identity changed")
  store.validateStored result
  pure result

def commandResult (store : Store P) (request : RequestId) : Except StorageError (Option CommandResult) :=
  match store.journal.result? request with
  | none => pure none
  | some payload => do
      let result ← store.decodeStoredResult payload request
      pure (some result)

end Store

end OcppBridge.Operational
