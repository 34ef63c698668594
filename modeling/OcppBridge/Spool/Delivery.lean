import OcppBridge.Spool.Progress

namespace OcppBridge.Spool

open Text Transaction

def maxRecords : Nat := 100

def maxBatchBytes : Nat := 256 * 1024

def recordOverhead : Nat := 4096

def claimChanged : ExportSpoolError := ⟨.checkpointConflict, "delivery claim changed"⟩

def invalidBatchLimit : ExportSpoolError := ⟨.invalidRequest, "invalid delivery batch limit"⟩

def claimIntegrity : ExportSpoolError := ⟨.integrityFailure, "invalid durable delivery claim"⟩

def oversized : ExportSpoolError :=
  ⟨.deliveryLimitExceeded, "pending record or pinned claim exceeds delivery batch limit"⟩

def memoryPressure : ExportSpoolError := ⟨.backpressure, "delivery claim memory unavailable"⟩

def rowById (db : Database) (rowId : Nat) : Option PendingRow := db.pending.find? (·.rowId = rowId)

def pinnedRows (db : Database) : List PendingRow := db.deliveryItems.filterMap (rowById db)

def existing (db : Database) : Except ExportSpoolError (Option (String × List PendingRow)) :=
  match db.delivery with
  | none => pure none
  | some batchId => do
      require (¬isBlank batchId) claimIntegrity
      require (pinnedRows db ≠ [] ∧ (pinnedRows db).length ≤ maxRecords) claimIntegrity
      pure (some (batchId, pinnedRows db))

def recordIdentity (row : PendingRow) : Except ExportSpoolError String :=
  match String.fromUTF8? ⟨row.recordId.toArray⟩ with
  | none => .error claimIntegrity
  | some id => do
      require (¬isBlank id) claimIntegrity
      pure id

def estimate (row : PendingRow) : Nat := row.bytes * 6 + recordOverhead

/-- Memory admissions met while claiming: for the page of candidates and for the claim itself. -/
structure ClaimBudget where
  page : Bool
  claim : Bool
  deriving DecidableEq, Repr

def replayClaim (batchId : String) (items : List PendingRow) (limit maxBytes : Nat) (budget : ClaimBudget) :
    Except ExportSpoolError ExportDeliveryClaim := do
  require (items.length ≤ limit) oversized
  require (256 + (items.map estimate).sum < 2 ^ 64) oversized
  require (256 + (items.map estimate).sum ≤ maxBytes) oversized
  require budget.claim memoryPressure
  pure ⟨batchId, items.map PendingRow.descriptor⟩

def selectItems (maxBytes : Nat) :
    List PendingRow → Nat → List String → List PendingRow → Except ExportSpoolError (List PendingRow)
  | [], _, _, selected => pure selected
  | row :: rows, estimated, identities, selected => do
      require (estimated + estimate row < 2 ^ 64) oversized
      if maxBytes < estimated + estimate row then
        if selected = [] then .error oversized else pure selected
      else do
        let id ← recordIdentity row
        require (id ∉ identities) claimIntegrity
        selectItems maxBytes rows (estimated + estimate row) (id :: identities) (selected ++ [row])

def batchPrefix (destination : String) (revision : Nat) (generation : String) : String :=
  "uob:delivery:v1:" ++ destination ++ ":" ++ toString revision ++ ":" ++ generation ++ ":"

def batchIdOf (ns : ExportSpoolNamespace) (next : Nat) : String :=
  batchPrefix ns.destination.destinationId ns.destination.configurationRevision ns.sourceGeneration ++ toString next

def persistClaim (db : Database) (ns : ExportSpoolNamespace) (selected : List PendingRow) :
    Except ExportSpoolError (Database × String) :=
  match db.binding with
  | none => .error sqliteFailure
  | some b => do
      let next := b.nextDeliveryId + 1
      require (next ≤ maxPosition) claimIntegrity
      let batchId := batchIdOf ns next
      require (¬isBlank batchId) claimIntegrity
      require (db.delivery = none ∧ (selected.map (·.rowId)).Nodup ∧
        ∀ row ∈ selected, row.rowId ∉ db.deliveryItems) sqliteFailure
      pure ({ db with
        binding := some { b with nextDeliveryId := next }
        delivery := some batchId
        deliveryItems := db.deliveryItems ++ selected.map (·.rowId) }, batchId)

def claimInTransaction (db : Database) (ns : ExportSpoolNamespace) (limit maxBytes : Nat)
    (budget : ClaimBudget) : Except ExportSpoolError (Database × Option ExportDeliveryClaim) := do
  let bound ← binding db ns
  match ← existing db with
  | some (batchId, items) => do
      let claim ← replayClaim batchId items limit maxBytes budget
      pure (db, some claim)
  | none =>
      if bound then do
        let page ← pending db ns limit budget.page
        let selected ← selectItems maxBytes page 256 [] []
        if selected = [] then pure (db, none)
        else do
          let (db, batchId) ← persistClaim db ns selected
          require budget.claim memoryPressure
          pure (db, some ⟨batchId, selected.map PendingRow.descriptor⟩)
      else pure (db, none)

def claim (db : Database) (ns : ExportSpoolNamespace) (limit maxBytes : Nat) (budget : ClaimBudget) :
    Except ExportSpoolError (Database × Option ExportDeliveryClaim) := do
  validateNamespace ns
  require (limit ≠ 0 ∧ limit ≤ maxRecords ∧ 1 ≤ maxBytes ∧ maxBytes ≤ maxBatchBytes) invalidBatchLimit
  claimInTransaction db ns limit maxBytes budget

def matchIdentities : List ExportRecordIdentity → List PendingRow → Except ExportSpoolError Unit
  | identity :: identities, row :: rows => do
      require (identity.subrecordId = none) claimChanged
      let id ← recordIdentity row
      require (identity.recordId = id) claimChanged
      matchIdentities identities rows
  | _, _ => pure ()

def confirm (db : Database) (batchId : String) (items : List PendingRow) : Except ExportSpoolError Database :=
  match db.binding with
  | none => .error claimIntegrity
  | some b => do
      require (∀ row ∈ items, row ∈ db.pending) claimIntegrity
      pure { db with
        binding := some { b with
          lastConfirmedBatch := some batchId
          confirmedRecords := b.confirmedRecords + items.length }
        pending := db.pending.filter fun row => row.rowId ∉ items.map (·.rowId)
        delivery := none
        deliveryItems := [] }

def settle (db : Database) (ns : ExportSpoolNamespace) (report : ExportReport) :
    Except ExportSpoolError (Database × List PendingRow) := do
  validateNamespace ns
  let _ ← binding db ns
  match ← existing db with
  | none => .error claimChanged
  | some (batchId, items) => do
      require (report.destination = ns.destination ∧ report.batchId = batchId ∧
        report.recordIds.length = items.length) claimChanged
      matchIdentities report.recordIds items
      require (report.outcome ≠ .partialCommit)
        ⟨.invalidRequest, "partial remote reports require independent reconciliation"⟩
      if report.outcome = .committed then do
        let db ← confirm db batchId items
        pure (db, items)
      else pure (db, [])

end OcppBridge.Spool
