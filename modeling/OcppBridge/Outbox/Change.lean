import OcppBridge.Export.Reader
import OcppBridge.Outbox.Store
import OcppBridge.Transition

namespace OcppBridge.Outbox

open Relation Storage Transaction
open Spool (Durability)
open Export (EncodedRecord makeRoom_eq_ok retainFittingRecords)
open Operational (UtcTimestamp)

variable {policy : RetentionPolicy} {db db' db'' : Database}

/-- The primitive changes that every request but maintenance is made of. -/
inductive Change : Database → Database → Prop
  | counted {db : Database} (stats : RetentionStats) : Change db { db with stats }
  | shed {db : Database} : Change db (shedExistingBestEffort db)
  | event {db db' : Database} {value : EncodedEvent} (h : writeEvent db value = .ok db') : Change db db'
  | delivery {db db' : Database} {value : EncodedDelivery} (h : writeDelivery db value = .ok db') : Change db db'
  | exported {db : Database} (source : Export.Source) : Change db { db with source }
  | attempt {db db' : Database} {attempt : EncodedDeliveryAttempt} (h : recordAttempt db attempt = .ok db') :
      Change db db'
  | disposed {db : Database} (dispositions : List DeliveryDispositionRecord) : Change db { db with dispositions }
  | execute {db : Database} (record : DeliveryDispositionRecord) (now : Stamp) : Change db (execute db record now)

abbrev Changes : Database → Database → Prop := ReflTransGen Change

section Writes

/-- A write that has to fit before it is accepted: it carries critical bytes or starts a session. -/
def EncodedWrite.MustFit (write : EncodedWrite) : Prop := 0 < write.criticalBytes ∨ write.purpose = .newSessionStart

/-- It has to fit, and does not fit beside what is stored. -/
def EncodedWrite.NeedsRoom (write : EncodedWrite) (policy : RetentionPolicy) (db : Database) : Prop :=
  write.MustFit ∧ policy.limit write.purpose < saturatingAdd db.sqlBytes write.criticalBytes

theorem usedBytes_eq_ok {used : Nat} : usedBytes db = .ok used ↔ db.sqlBytes ≤ maxSqlInteger ∧ db.sqlBytes = used := by
  simp only [usedBytes, bind_eq_ok, require_eq_ok, pure_eq_ok, exists_const]

variable {write : EncodedWrite}

theorem prepareWrite_eq_ok {kept : EncodedWrite} (h : prepareWrite policy db write = .ok (db', kept)) :
    ∃ base stats used remaining,
      (base = db ∧ ¬write.NeedsRoom policy db ∨ base = shedExistingBestEffort db ∧ write.NeedsRoom policy db) ∧
      db' = { base with stats } ∧ usedBytes base = .ok used ∧ write.criticalBytes < 2 ^ 64 ∧
      (write.MustFit → saturatingAdd used write.criticalBytes ≤ policy.limit write.purpose) ∧
      remaining = policy.limit write.purpose - saturatingAdd used write.criticalBytes ∧
      kept = { write with
        deliveries := (retainFittingDeliveries remaining write.deliveries).1
        records := (retainFittingRecords (retainFittingDeliveries remaining write.deliveries).2 write.records).1 } := by
  simp only [prepareWrite, bind_eq_ok, pure_eq_ok, Prod.mk.injEq] at h
  obtain ⟨critical, hcritical, ⟨base, remaining⟩, hroom, rfl, rfl⟩ := h
  obtain ⟨hsmall, rfl⟩ : write.criticalBytes < 2 ^ 64 ∧ write.criticalBytes = critical := by
    unfold checked at hcritical
    split_ifs at hcritical with hsmall
    exact ⟨hsmall, Except.ok.inj hcritical⟩
  have hmust : (decide (0 < write.criticalBytes) || write.purpose = .newSessionStart) = true ↔ write.MustFit := by
    simp [EncodedWrite.MustFit]
  obtain ⟨before, used, hbefore, hused, hbase, hfits, rfl⟩ := makeRoom_eq_ok hroom
  obtain ⟨-, rfl⟩ := usedBytes_eq_ok.mp hbefore
  rw [hmust] at hfits
  refine ⟨base, _, used, _, ?_, rfl, hused, hsmall, fun h => not_lt.mp fun hover => hfits ⟨h, hover⟩, rfl, rfl⟩
  split_ifs at hbase with hneeds
  · exact .inr ⟨hbase, hmust.mp hneeds.1, hneeds.2⟩
  · exact .inl ⟨hbase, fun h => hneeds ⟨hmust.mpr h.1, h.2⟩⟩

theorem writeEvent_eq_ok {value : EncodedEvent} (h : writeEvent db value = .ok db') :
    db.lastEventRow < maxSqlInteger ∧
      (∀ row ∈ db.events, row.eventId ≠ value.eventId ∧
        (row.resource, row.sequence) ≠ (value.resource, value.sequence)) ∧
      db' = { db with
        events := db.events ++ [⟨db.lastEventRow + 1, value.eventId, value.resource, value.sequence, value.payload,
          some value.retainUntil⟩]
        lastEventRow := db.lastEventRow + 1 } := by
  simp only [writeEvent, bind_eq_ok, require_eq_ok, pure_eq_ok] at h
  obtain ⟨_, hrange, _, hfresh, rfl⟩ := h
  exact ⟨hrange, hfresh, rfl⟩

def Database.newRow (db : Database) (value : EncodedDelivery) : DeliveryRow :=
  { value with rowId := nextRowId db.deliveries, attemptCount := 0, nextAttemptAt := none, serial := db.inserted }

theorem writeDelivery_eq_ok {value : EncodedDelivery} (h : writeDelivery db value = .ok db') :
    (∀ row ∈ db.deliveries, row.deliveryId ≠ value.deliveryId ∧
        (row.destination, row.eventId) ≠ (value.destination, value.eventId)) ∧
      db' = { db with deliveries := db.deliveries ++ [db.newRow value], inserted := db.inserted + 1 } := by
  simp only [writeDelivery, bind_eq_ok, require_eq_ok, pure_eq_ok] at h
  obtain ⟨_, hfresh, rfl⟩ := h
  exact ⟨hfresh, rfl⟩

theorem writeRecord_eq_ok {value : EncodedRecord} (h : writeRecord db value = .ok db') :
    ∃ source, Export.writeRecord db.source value = .ok source ∧ db' = { db with source } := by
  simp only [writeRecord, bind_eq_ok, pure_eq_ok] at h
  obtain ⟨source, hsource, rfl⟩ := h
  exact ⟨source, hsource, rfl⟩

theorem insertRows_eq_ok (h : insertRows db write = .ok db') :
    ∃ d₁ d₂, write.events.foldlM writeEvent db = .ok d₁ ∧ write.deliveries.foldlM writeDelivery d₁ = .ok d₂ ∧
      write.records.foldlM writeRecord d₂ = .ok db' ∧ db'.sqlBytes ≤ maxSqlInteger := by
  simp only [insertRows, bind_eq_ok, require_eq_ok, pure_eq_ok] at h
  obtain ⟨d₁, h₁, d₂, h₂, d₃, h₃, _, hsize, rfl⟩ := h
  exact ⟨d₁, d₂, h₁, h₂, h₃, hsize⟩

theorem write_eq_ok {refusal : Option StorageError} (h : db.write policy refusal write = .ok db') :
    ∃ mid kept, prepareWrite policy db write = .ok (mid, kept) ∧ insertRows mid kept = .ok db' := by
  simp only [Database.write, bind_eq_ok] at h
  obtain ⟨⟨mid, kept⟩, hprepare, _, _, hinsert⟩ := h
  exact ⟨mid, kept, hprepare, hinsert⟩

end Writes

section Others

def EncodedDeliveryAttempt.row (attempt : EncodedDeliveryAttempt) : AttemptRow :=
  ⟨attempt.deliveryId, attempt.outcome, attempt.reportedAt, attempt.resolution, some attempt.retainUntil⟩

def DeliveryRow.retry (row : DeliveryRow) (instant : Stamp) : DeliveryRow :=
  { row with attemptCount := row.attemptCount + 1, nextAttemptAt := some instant }

theorem recordAttempt_eq_ok {attempt : EncodedDeliveryAttempt} (h : recordAttempt db attempt = .ok db') :
    (∃ row ∈ db.deliveries, row.deliveryId = attempt.deliveryId) ∧
      ((attempt.resolution = .final ∧ db' = { db with
          attempts := db.attempts ++ [attempt.row]
          deliveries := db.deliveries.filter (·.deliveryId ≠ attempt.deliveryId) }) ∨
        ∃ instant, attempt.resolution = .retryAt instant ∧ db' = { db with
          attempts := db.attempts ++ [attempt.row]
          deliveries := db.deliveries.map fun row =>
            if row.deliveryId = attempt.deliveryId then row.retry instant else row }) := by
  simp only [recordAttempt, bind_eq_ok, require_eq_ok, pure_eq_ok] at h
  obtain ⟨_, hfound, rfl⟩ := h
  refine ⟨hfound, ?_⟩
  cases hresolution : attempt.resolution with
  | final => exact .inl ⟨rfl, by simp only [EncodedDeliveryAttempt.row, hresolution]⟩
  | retryAt instant =>
      exact .inr ⟨instant, rfl, by simp only [EncodedDeliveryAttempt.row, DeliveryRow.retry, hresolution]⟩

theorem authorize_eq_ok {auditEventId : String} {request : DeliveryDispositionRequest}
    {record : DeliveryDispositionRecord} (h : authorize db auditEventId request = .ok (db', record)) :
    (destinationCounts db request.destination).1 ≠ 0 ∧
      (∀ row ∈ db.dispositions, ¬(row.state = .authorized ∧ row.destination = request.destination)) ∧
      (db.dispositions.filter (·.state = .authorized)).length < maxPendingTargetDispositions ∧
      (∀ row ∈ db.dispositions, row.auditEventId ≠ auditEventId) ∧
      record.auditEventId = auditEventId ∧ record.destination = request.destination ∧
      record.action = request.action ∧ record.state = .authorized ∧
      db' = { db with dispositions := db.dispositions ++ [record] } := by
  simp only [authorize, bind_eq_ok, require_eq_ok, pure_eq_ok, Prod.mk.injEq] at h
  obtain ⟨_, _, _, hpending, _, hnone, _, hbound, _, hfresh, _, _, rfl, rfl⟩ := h
  exact ⟨hpending, hnone, hbound, hfresh, rfl, rfl, rfl, rfl, rfl⟩

theorem settle_eq_ok {selected : Option TargetDeliveryDestination} {settledAt : UtcTimestamp}
    {result : Database × List DeliveryDispositionRecord} (h : settle db selected settledAt = .ok result) :
    ∃ now, encodeTimestamp settledAt = .ok now ∧
      (authorizedDispositions db).foldl (settleOne selected now) (db, []) = result := by
  simp only [settle, bind_eq_ok, pure_eq_ok] at h
  exact h

end Others

section Runs

theorem foldlM_changes {α : Type} {f : Database → α → Except StorageError Database} {parts : List α}
    (h : parts.foldlM f db = .ok db') (hf : ∀ {db db' a}, f db a = .ok db' → Change db db') : Changes db db' := by
  refine foldlM_rel (fun _ => .refl) (fun _ _ _ => ReflTransGen.trans) parts ?_ h
  intro a _ db db' ha
  exact .single (hf ha)

theorem insertRows_changes {write : EncodedWrite} (h : insertRows db write = .ok db') : Changes db db' := by
  obtain ⟨d₁, d₂, h₁, h₂, h₃, _⟩ := insertRows_eq_ok h
  have hevents : Changes db d₁ := foldlM_changes h₁ .event
  have hdeliveries : Changes d₁ d₂ := foldlM_changes h₂ .delivery
  have hrecords : Changes d₂ db' := foldlM_changes h₃ fun h => by
    obtain ⟨source, _, rfl⟩ := writeRecord_eq_ok h
    exact .exported source
  exact (hevents.trans hdeliveries).trans hrecords

theorem prepareWrite_changes {write kept : EncodedWrite} (h : prepareWrite policy db write = .ok (db', kept)) :
    Changes db db' := by
  obtain ⟨base, stats, _, _, hbase, rfl, _⟩ := prepareWrite_eq_ok h
  rcases hbase with ⟨rfl, -⟩ | ⟨rfl, -⟩
  · exact .single (.counted stats)
  · exact .head .shed (.single (.counted stats))

theorem settle_changes {selected : Option TargetDeliveryDestination} {now : Stamp}
    (records settled : List DeliveryDispositionRecord) (db : Database) :
    Changes db (records.foldl (settleOne selected now) (db, settled)).1 := by
  induction records generalizing db settled with
  | nil => exact .refl
  | cons record records ih =>
      rw [List.foldl_cons, settleOne]
      split_ifs
      · exact .head (.disposed _) (ih _ _)
      · exact .head (.execute record now) (ih _ _)

theorem handle_changes {request : Request} (h : db.handle policy request = .ok db') :
    Changes db db' ∨ ∃ now, request = .maintain now ∧ db' = maintain db now := by
  cases request with
  | write refusal write =>
      obtain ⟨mid, kept, hprepare, hinsert⟩ := write_eq_ok h
      exact .inl ((prepareWrite_changes hprepare).trans (insertRows_changes hinsert))
  | maintain now => exact .inr ⟨now, rfl, (pure_eq_ok.mp h).symm⟩
  | recordAttempt attempt => exact .inl (.single (.attempt h))
  | authorize auditEventId request =>
      obtain ⟨⟨db', record⟩, hauthorize, rfl⟩ := map_eq_ok.mp h
      obtain ⟨-, -, -, -, -, -, -, -, rfl⟩ := authorize_eq_ok hauthorize
      exact .inl (.single (.disposed _))
  | settle selected settledAt =>
      obtain ⟨⟨db', settled⟩, hsettle, rfl⟩ := map_eq_ok.mp h
      obtain ⟨now, _, hfold⟩ := settle_eq_ok hsettle
      rw [← hfold]
      exact .inl (settle_changes _ _ db)

theorem step_changes (policy : RetentionPolicy) (db : Database) (request : Request) :
    Changes db (db.step policy request) ∨
      ∃ now, request = .maintain now ∧ db.step policy request = maintain db now := by
  unfold Database.step
  split
  · next h => exact handle_changes h
  · exact .inl .refl

theorem run_keeps {Inv : Database → Prop} (hchange : ∀ {db db'}, Change db db' → Inv db → Inv db')
    (hmaintain : ∀ {db} now, Inv db → Inv (maintain db now)) (hdb : Inv db) (requests : List Request) :
    Inv (db.run policy requests) := by
  refine Transition.run_invariant (P := Inv) ?_ requests hdb
  intro db request hdb
  rcases step_changes policy db request with hchanges | ⟨now, -, hmaintained⟩
  · exact Transition.steps_rel (R := fun a b => Inv a → Inv b) (fun _ => id) (fun h h' => h' ∘ h) hchange hchanges hdb
  · exact hmaintained ▸ hmaintain now hdb

end Runs

section Sample

def samplePolicy : RetentionPolicy := ⟨100000, 1000, by decide, by decide⟩

def sampleSource : Export.Source := .create (.replicate 16 0)

instance neZero_million : NeZero 1000000 := ⟨by decide⟩

def sampleInstant (milliseconds : Fin 1000000) : Stamp :=
  ⟨253402297200000000000 + milliseconds * 1000000, by omega, by omega⟩

end Sample

end OcppBridge.Outbox
