import OcppBridge.Operational.Requests
import OcppBridge.Outbox.Change

namespace OcppBridge.Outbox

open Storage Transaction Operational
open Spool (Durability)
open Export (EncodedRecord CommittedRow retainFitting retainFittingRecords)
open Operational (Wire Write CommandAdmissionOutcome)

section Retention

variable {α : Type} {durability : α → Durability} {bytes : α → Nat}

section

variable (remaining : Nat)

include remaining

theorem retainFitting_cons (value : α) (values : List α) :
    retainFitting durability bytes remaining (value :: values) =
      if durability value = .critical then
        (value :: (retainFitting durability bytes remaining values).1,
          (retainFitting durability bytes remaining values).2)
      else if min (bytes value) (2 ^ 64 - 1) ≤ remaining then
        (value :: (retainFitting durability bytes (remaining - min (bytes value) (2 ^ 64 - 1)) values).1,
          (retainFitting durability bytes (remaining - min (bytes value) (2 ^ 64 - 1)) values).2)
      else retainFitting durability bytes remaining values := rfl

theorem retainFitting_sublist (values : List α) :
    (retainFitting durability bytes remaining values).1.Sublist values := by
  induction values generalizing remaining with
  | nil => exact .slnil
  | cons value values ih =>
      rw [retainFitting_cons]
      split_ifs
      · exact (ih remaining).cons_cons value
      · exact (ih _).cons_cons value
      · exact (ih remaining).cons value

theorem retainFitting_critical (values : List α) :
    (retainFitting durability bytes remaining values).1.filter (durability · = .critical) =
      values.filter (durability · = .critical) := by
  induction values generalizing remaining with
  | nil => rfl
  | cons value values ih =>
      rw [retainFitting_cons]
      split_ifs with hcritical
      · simp [hcritical, ih remaining]
      · simpa [hcritical] using ih _
      · simp [hcritical, ih remaining]

theorem retainFitting_le (values : List α) :
    (retainFitting durability bytes remaining values).2 ≤ remaining := by
  induction values generalizing remaining with
  | nil => exact le_rfl
  | cons value values ih =>
      rw [retainFitting_cons]
      split_ifs
      · exact ih remaining
      · exact (ih _).trans (Nat.sub_le _ _)
      · exact ih remaining

theorem retainFitting_bytes (values : List α)
    (hsmall : ((retainFitting durability bytes remaining values).1.map bytes).sum < 2 ^ 64) :
    ((retainFitting durability bytes remaining values).1.map bytes).sum +
      (retainFitting durability bytes remaining values).2 =
        ((values.filter (durability · = .critical)).map bytes).sum + remaining := by
  induction values generalizing remaining with
  | nil => rfl
  | cons value values ih =>
      rw [retainFitting_cons] at hsmall ⊢
      split_ifs at hsmall ⊢ with hcritical hfits
      · simp only [List.map_cons, List.sum_cons] at hsmall
        have hrest := ih remaining (by omega)
        simp only [hcritical, List.filter_cons, decide_true, if_true, List.map_cons, List.sum_cons]
        omega
      · simp only [List.map_cons, List.sum_cons] at hsmall
        have hrest := ih (remaining - min (bytes value) (2 ^ 64 - 1)) (by omega)
        simp only [hcritical, List.filter_cons, decide_false, Bool.false_eq_true, if_false, List.map_cons,
          List.sum_cons]
        omega
      · have hrest := ih remaining hsmall
        simp only [hcritical, List.filter_cons, decide_false, Bool.false_eq_true, if_false]
        omega

theorem retainFittingDeliveries_bytes (values : List EncodedDelivery)
    (hsmall : ((retainFittingDeliveries remaining values).1.map (·.bytes)).sum < 2 ^ 64) :
    ((retainFittingDeliveries remaining values).1.map (·.bytes)).sum + (retainFittingDeliveries remaining values).2 =
      ((values.filter (·.durability = .critical)).map (·.bytes)).sum + remaining :=
  retainFitting_bytes remaining values hsmall

theorem retainFittingRecords_bytes (values : List EncodedRecord)
    (hsmall : ((retainFittingRecords remaining values).1.map (·.recordBytes)).sum < 2 ^ 64) :
    ((retainFittingRecords remaining values).1.map (·.recordBytes)).sum + (retainFittingRecords remaining values).2 =
      ((values.filter (·.durability = .critical)).map (·.recordBytes)).sum + remaining :=
  retainFitting_bytes remaining values hsmall

end

end Retention

section Insertion

variable {db db' : Database} {value : EncodedDelivery}

structure EventRow.Stores (row : EventRow) (value : EncodedEvent) : Prop where
  eventId : row.eventId = value.eventId
  resource : row.resource = value.resource
  sequence : row.sequence = value.sequence
  payload : row.payload = value.payload
  retainUntil : row.retainUntil = some value.retainUntil

structure DeliveryRow.Stores (row : DeliveryRow) (value : EncodedDelivery) : Prop where
  delivery : row.toEncodedDelivery = value
  attemptCount : row.attemptCount = 0
  nextAttemptAt : row.nextAttemptAt = none

structure RecordStored (row : CommittedRow) (value : EncodedRecord) : Prop where
  recordId : row.recordId = value.recordId
  durability : row.durability = value.durability
  committedAt : row.committedAt = value.committedAt
  payload : row.payload = value.payload
  retainUntil : row.retainUntil = some value.retainUntil

/-- The rows of a write stand behind those that were there, and nothing else has changed. -/
structure Inserted (write : EncodedWrite) (db db' : Database) : Prop where
  events : ∃ new, db'.events = db.events ++ new ∧ List.Forall₂ EventRow.Stores new write.events
  deliveries : ∃ new, db'.deliveries = db.deliveries ++ new ∧ List.Forall₂ DeliveryRow.Stores new write.deliveries
  records : ∃ new, db'.source.records = db.source.records ++ new ∧ List.Forall₂ RecordStored new write.records
  attempts : db'.attempts = db.attempts
  dispositions : db'.dispositions = db.dispositions
  archive : db'.archive = db.archive
  stats : db'.stats = db.stats

theorem writeDelivery_keeps (h : writeDelivery db value = .ok db') :
    (db'.events, db'.source, db'.attempts, db'.dispositions, db'.archive, db'.stats) =
      (db.events, db.source, db.attempts, db.dispositions, db.archive, db.stats) := by
  obtain ⟨_, rfl⟩ := writeDelivery_eq_ok h
  rfl

theorem writeEvent_keeps {value : EncodedEvent} (h : writeEvent db value = .ok db') :
    (db'.deliveries, db'.source, db'.attempts, db'.dispositions, db'.archive, db'.stats) =
      (db.deliveries, db.source, db.attempts, db.dispositions, db.archive, db.stats) := by
  obtain ⟨_, _, rfl⟩ := writeEvent_eq_ok h
  rfl

theorem writeRecord_keeps {value : EncodedRecord} (h : writeRecord db value = .ok db') :
    (db'.events, db'.deliveries, db'.attempts, db'.dispositions, db'.archive, db'.stats) =
      (db.events, db.deliveries, db.attempts, db.dispositions, db.archive, db.stats) := by
  obtain ⟨_, _, rfl⟩ := writeRecord_eq_ok h
  rfl

theorem writeEvent_stores {value : EncodedEvent} (h : writeEvent db value = .ok db') :
    ∃ row, db'.events = db.events ++ [row] ∧ row.Stores value := by
  obtain ⟨_, _, rfl⟩ := writeEvent_eq_ok h
  exact ⟨_, rfl, rfl, rfl, rfl, rfl, rfl⟩

theorem writeDelivery_stores (h : writeDelivery db value = .ok db') :
    ∃ row, db'.deliveries = db.deliveries ++ [row] ∧ row.Stores value := by
  obtain ⟨_, rfl⟩ := writeDelivery_eq_ok h
  exact ⟨_, rfl, rfl, rfl, rfl⟩

theorem writeRecord_stores {value : EncodedRecord} (h : writeRecord db value = .ok db') :
    ∃ row, db'.source.records = db.source.records ++ [row] ∧ RecordStored row value := by
  obtain ⟨source, hsource, rfl⟩ := writeRecord_eq_ok h
  unfold Export.writeRecord at hsource
  split_ifs at hsource
  simp only [bind_eq_ok, require_eq_ok, pure_eq_ok] at hsource
  obtain ⟨_, _, rfl⟩ := hsource
  exact ⟨_, rfl, rfl, rfl, rfl, rfl, rfl⟩

theorem insertRows_inserted {write : EncodedWrite} (h : insertRows db write = .ok db') : Inserted write db db' := by
  obtain ⟨d₁, d₂, h₁, h₂, h₃, _⟩ := insertRows_eq_ok h
  have hkept₁ := foldlM_keeps h₁ writeEvent_keeps
  have hkept₂ := foldlM_keeps h₂ writeDelivery_keeps
  have hkept₃ := foldlM_keeps h₃ writeRecord_keeps
  simp only [Prod.mk.injEq] at hkept₁ hkept₂ hkept₃
  obtain ⟨hdeliveries₁, hsource₁, hattempts₁, hdispositions₁, harchive₁, hstats₁⟩ := hkept₁
  obtain ⟨hevents₂, hsource₂, hattempts₂, hdispositions₂, harchive₂, hstats₂⟩ := hkept₂
  obtain ⟨hevents₃, hdeliveries₃, hattempts₃, hdispositions₃, harchive₃, hstats₃⟩ := hkept₃
  constructor
  · obtain ⟨new, hnew, hstored⟩ := foldlM_appends h₁ writeEvent_stores
    exact ⟨new, (hevents₃.trans hevents₂).trans hnew, hstored⟩
  · obtain ⟨new, hnew, hstored⟩ := foldlM_appends h₂ writeDelivery_stores
    exact ⟨new, hdeliveries₃.trans (hdeliveries₁ ▸ hnew), hstored⟩
  · obtain ⟨new, hnew, hstored⟩ := foldlM_appends h₃ writeRecord_stores
    exact ⟨new, (hsource₂.trans hsource₁) ▸ hnew, hstored⟩
  · exact (hattempts₃.trans hattempts₂).trans hattempts₁
  · exact (hdispositions₃.trans hdispositions₂).trans hdispositions₁
  · exact (harchive₃.trans harchive₂).trans harchive₁
  · exact (hstats₃.trans hstats₂).trans hstats₁

def EncodedWrite.bytes (write : EncodedWrite) : Nat :=
  (write.events.map (·.bytes)).sum + (write.deliveries.map (·.bytes)).sum + (write.records.map (·.recordBytes)).sum

theorem sum_stored {ρ α : Type} {Stores : ρ → α → Prop} {stored : ρ → Nat} {encoded : α → Nat} {rows : List ρ}
    {values : List α} (h : List.Forall₂ Stores rows values)
    (hsize : ∀ {row value}, Stores row value → stored row = encoded value) :
    (rows.map stored).sum = (values.map encoded).sum := by
  induction h with
  | nil => rfl
  | cons hstores _ ih => simp only [List.map_cons, List.sum_cons, hsize hstores, ih]

theorem EventRow.Stores.sqlBytes_eq {row : EventRow} {value : EncodedEvent} (h : row.Stores value) :
    row.sqlBytes = value.bytes := by
  rw [EventRow.sqlBytes, h.eventId, h.resource, h.payload]
  rfl

theorem DeliveryRow.Stores.sqlBytes_eq {row : DeliveryRow} (h : row.Stores value) : row.sqlBytes = value.bytes := by
  rw [h.delivery]
  rfl

theorem RecordStored.sqlBytes_eq {row : CommittedRow} {value : EncodedRecord} (h : RecordStored row value) :
    row.lengths.sum + 24 = value.recordBytes := by
  rw [CommittedRow.lengths, h.recordId, h.committedAt, h.payload]
  rfl

theorem Inserted.sqlBytes_eq {write : EncodedWrite} (h : Inserted write db db') :
    db'.sqlBytes = db.sqlBytes + write.bytes := by
  obtain ⟨events, hevents, hstoredEvents⟩ := h.events
  obtain ⟨deliveries, hdeliveries, hstoredDeliveries⟩ := h.deliveries
  obtain ⟨records, hrecords, hstoredRecords⟩ := h.records
  have hsumEvents : (events.map (·.sqlBytes)).sum = (write.events.map (·.bytes)).sum :=
    sum_stored hstoredEvents EventRow.Stores.sqlBytes_eq
  have hsumDeliveries : (deliveries.map (·.sqlBytes)).sum = (write.deliveries.map (·.bytes)).sum :=
    sum_stored hstoredDeliveries DeliveryRow.Stores.sqlBytes_eq
  have hsumRecords : (records.map (·.lengths.sum + 24)).sum = (write.records.map (·.recordBytes)).sum :=
    sum_stored hstoredRecords RecordStored.sqlBytes_eq
  simp only [Database.sqlBytes, Export.Source.usedBytes, EncodedWrite.bytes, hevents, hdeliveries, hrecords,
    h.attempts, h.archive, List.map_append, List.sum_append]
  omega

end Insertion

section Atomic

variable {P : Type} [Wire P] {policy : RetentionPolicy}

structure Tables (P : Type) [Wire P] where
  ledgers : Store P
  outbox : Database

namespace Tables

def writeAtomic (policy : RetentionPolicy) (write : Write P) (encoded : EncodedWrite) (tables : Tables P) :
    Except StorageError (Tables P × Option CommandAdmissionOutcome) := do
  write.encode
  let (ledgers, outcome) ← tables.ledgers.admitCommand write.command
  match outcome with
  | some (.duplicate _) => pure (tables, outcome)
  | _ => do
      let (outbox, encoded) ← prepareWrite policy tables.outbox encoded
      let ledgers ← ledgers.writeLedgers write
      let ledgers ← Store.perform Store.writeSnapshot ledgers write.stationSnapshot
      let ledgers ← Store.perform Store.writeResult ledgers write.commandResult
      let ledgers ← write.journalEvents.foldlM Store.writeEvent ledgers
      let outbox ← insertRows outbox encoded
      pure (⟨ledgers, outbox⟩, outcome)

def write (policy : RetentionPolicy) (tables : Tables P) (write : Write P) (encoded : EncodedWrite) :
    Tables P × Except StorageError (Option CommandAdmissionOutcome) :=
  transact (writeAtomic policy write encoded) tables

theorem admitCommand_duplicate {store store' : Store P} {command : Option (Command P)} {result : Option CommandResult}
    (h : store.admitCommand command = .ok (store', some (.duplicate result))) : store' = store := by
  cases command with
  | none => cases h
  | some command =>
      cases hfind : store.journal.command? command.requestId with
      | none =>
          simp only [Store.admitCommand, hfind] at h
          cases h
      | some existing =>
          simp only [Store.admitCommand, hfind, bind_eq_ok, pure_eq_ok, Prod.mk.injEq] at h
          obtain ⟨_, _, _, _, rfl, _⟩ := h
          rfl

theorem writeAtomic_projects {write : Write P} {encoded : EncodedWrite} {tables tables' : Tables P}
    {outcome : Option CommandAdmissionOutcome} (h : tables.writeAtomic policy write encoded = .ok (tables', outcome)) :
    tables.ledgers.writeAtomic write = .ok (tables'.ledgers, outcome) ∧
      ((∃ result, outcome = some (.duplicate result)) ∧ tables' = tables ∨
        tables.outbox.write policy none encoded = .ok tables'.outbox) := by
  simp only [writeAtomic, bind_eq_ok] at h
  obtain ⟨_, hencode, ⟨ledgers, admission⟩, hgranted, h⟩ := h
  simp only [Store.writeAtomic, Database.write, bind_eq_ok]
  obtain - | - | result := admission
  case some.duplicate =>
    cases h
    cases admitCommand_duplicate hgranted
    exact ⟨⟨(), hencode, _, hgranted, rfl⟩, .inl ⟨⟨result, rfl⟩, rfl⟩⟩
  -- Without a command and with a new one, the rest of the transaction is the same.
  all_goals
    simp only [bind_eq_ok, pure_eq_ok] at h
    obtain ⟨prepared, hprepare, s₁, h₁, s₂, h₂, s₃, h₃, s₄, h₄, outbox, hinsert, htables⟩ := h
    cases htables
    exact ⟨⟨(), hencode, _, hgranted, bind_eq_ok.mpr ⟨s₁, h₁, bind_eq_ok.mpr ⟨s₂, h₂, bind_eq_ok.mpr ⟨s₃, h₃,
      bind_eq_ok.mpr ⟨s₄, h₄, rfl⟩⟩⟩⟩⟩, .inr ⟨prepared, hprepare, (), rfl, hinsert⟩⟩

end Tables

theorem prepareWrite_kept {db db' : Database} {write kept : EncodedWrite}
    (h : prepareWrite policy db write = .ok (db', kept)) :
    kept.events = write.events ∧ kept.deliveries.Sublist write.deliveries ∧ kept.records.Sublist write.records ∧
      kept.criticalDeliveries = write.criticalDeliveries ∧ kept.criticalRecords = write.criticalRecords := by
  obtain ⟨_, _, _, remaining, _, _, _, _, _, _, rfl⟩ := prepareWrite_eq_ok h
  exact ⟨rfl, retainFitting_sublist _ _, retainFitting_sublist _ _, retainFitting_critical _ _,
    retainFitting_critical _ _⟩

theorem prepareWrite_bytes {db db' : Database} {write kept : EncodedWrite}
    (h : prepareWrite policy db write = .ok (db', kept)) (hsmall : kept.bytes ≤ maxSqlInteger) :
    ∃ used, usedBytes db' = .ok used ∧ write.criticalBytes ≤ kept.bytes ∧
      kept.bytes ≤ write.criticalBytes + (policy.limit write.purpose - saturatingAdd used write.criticalBytes) := by
  obtain ⟨base, stats, used, remaining, _, rfl, hused, _, _, hremaining, rfl⟩ := prepareWrite_eq_ok h
  refine ⟨used, hused, ?_⟩
  rw [← hremaining]
  have hmax : maxSqlInteger < 2 ^ 64 := by decide
  simp only [EncodedWrite.bytes] at hsmall ⊢
  have hdeliveries := retainFittingDeliveries_bytes remaining write.deliveries (by omega)
  have hrecords := retainFittingRecords_bytes (retainFittingDeliveries remaining write.deliveries).2 write.records
    (by omega)
  have hleft : (retainFittingDeliveries remaining write.deliveries).2 ≤ remaining := retainFitting_le _ _
  have hleft' : (retainFittingRecords (retainFittingDeliveries remaining write.deliveries).2 write.records).2 ≤
      (retainFittingDeliveries remaining write.deliveries).2 := retainFitting_le _ _
  simp only [EncodedWrite.criticalBytes, EncodedWrite.criticalDeliveries, EncodedWrite.criticalRecords]
  omega

/-- The account of an atomic write that is no duplicate, and of one that is refused. -/
theorem write_accounting (policy : RetentionPolicy) (tables : Tables P) (write : Write P) (encoded : EncodedWrite) :
    (∀ tables' outcome, tables.write policy write encoded = (tables', .ok outcome) →
      (∀ result, outcome ≠ some (.duplicate result)) →
      ∃ base used, ∃ kept : EncodedWrite, (base = tables.outbox ∨ base = shedExistingBestEffort tables.outbox) ∧
        usedBytes base = .ok used ∧ usedBytes tables'.outbox = .ok (used + kept.bytes) ∧
        (∃ new, tables'.outbox.events = base.events ++ new ∧ List.Forall₂ EventRow.Stores new kept.events) ∧
        (∃ new, tables'.outbox.deliveries = base.deliveries ++ new ∧
          List.Forall₂ DeliveryRow.Stores new kept.deliveries) ∧
        (∃ new, tables'.outbox.source.records = base.source.records ++ new ∧
          List.Forall₂ RecordStored new kept.records) ∧
        kept.events = encoded.events ∧ kept.deliveries.Sublist encoded.deliveries ∧
        kept.records.Sublist encoded.records ∧ kept.criticalDeliveries = encoded.criticalDeliveries ∧
        kept.criticalRecords = encoded.criticalRecords ∧
        (encoded.MustFit → used + kept.bytes ≤ policy.limit encoded.purpose) ∧
        (¬encoded.MustFit → base = tables.outbox ∧ used + kept.bytes ≤ max (policy.limit encoded.purpose) used)) ∧
    (∀ tables' error, tables.write policy write encoded = (tables', .error error) → tables' = tables) := by
  refine ⟨fun tables' outcome hwrite hnew => ?_, fun tables' error hwrite => transact_eq_error hwrite⟩
  obtain ⟨_, ⟨⟨result, hduplicate⟩, _⟩ | hwritten⟩ := Tables.writeAtomic_projects (transact_eq_ok.mp hwrite)
  · exact absurd hduplicate (hnew result)
  obtain ⟨mid, kept, hprepare, hinsert⟩ := write_eq_ok hwritten
  obtain ⟨hevents, hdeliveries, hrecords, hcriticalDeliveries, hcriticalRecords⟩ := prepareWrite_kept hprepare
  have hinserted := insertRows_inserted hinsert
  obtain ⟨_, _, _, _, _, hfits⟩ := insertRows_eq_ok hinsert
  have hbytes := hinserted.sqlBytes_eq
  obtain ⟨used, hused, hcritical, hroom⟩ := prepareWrite_bytes hprepare (by omega)
  obtain ⟨base, stats, used', _, hbase, rfl, hused', _, hmust, _, _⟩ := prepareWrite_eq_ok hprepare
  cases hused.symm.trans hused'
  obtain ⟨hcounted, rfl⟩ := usedBytes_eq_ok.mp hused'
  have hbytes : tables'.outbox.sqlBytes = base.sqlBytes + kept.bytes := hbytes
  have hmax : maxSqlInteger < 2 ^ 64 := by decide
  simp only [saturatingAdd] at hroom hmust
  refine ⟨base, _, kept, hbase.imp And.left And.left, hused', usedBytes_eq_ok.mpr ⟨hfits, hbytes⟩, hinserted.events,
    hinserted.deliveries, hinserted.records, hevents, hdeliveries, hrecords, hcriticalDeliveries, hcriticalRecords,
    fun h => ?_, fun h => ?_⟩
  · have hlimit := hmust h
    omega
  · have hnone : encoded.criticalBytes = 0 := Nat.eq_zero_of_not_pos fun hpos => h (.inl hpos)
    refine ⟨(hbase.resolve_right fun hshed => h hshed.2.1).1, ?_⟩
    omega

end Atomic

end OcppBridge.Outbox
