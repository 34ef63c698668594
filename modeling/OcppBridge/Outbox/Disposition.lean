import OcppBridge.Outbox.Accounting
import OcppBridge.Outbox.Queue

namespace OcppBridge.Outbox

open Storage Transaction Transition Database
open Operational (UtcTimestamp)

variable {policy : RetentionPolicy} {db db' : Database} {selected : Option TargetDeliveryDestination} {now : Stamp}
  {records : List DeliveryDispositionRecord} {record : DeliveryDispositionRecord}

section Settling

def settlement (selected : Option TargetDeliveryDestination) (db : Database) (now : Stamp)
    (record : DeliveryDispositionRecord) : DeliveryDispositionRecord :=
  if selected = some record.destination then record.supersede now
  else record.executed now (destinationCounts db record.destination).1 (destinationCounts db record.destination).2

def archived (db : Database) (now : Stamp) (record : DeliveryDispositionRecord) : List ArchivedDelivery :=
  match record.action with
  | .archive => (pendingFor db record.destination).map fun row =>
      ⟨record.auditEventId, row.toEncodedDelivery, row.attemptCount, now⟩
  | .discard => []

def removes (selected : Option TargetDeliveryDestination) (records : List DeliveryDispositionRecord)
    (row : DeliveryRow) : Bool :=
  records.any fun record => record.destination = row.destination && selected ≠ some record.destination

/-- The database after the settlement of these dispositions, in terms of the database before. -/
def settledBy (selected : Option TargetDeliveryDestination) (now : Stamp) (db : Database)
    (records : List DeliveryDispositionRecord) : Database :=
  { db with
    deliveries := db.deliveries.filter fun row => !removes selected records row
    archive := db.archive ++ records.flatMap fun record =>
      if selected = some record.destination then [] else archived db now record
    dispositions := db.dispositions.map fun row =>
      if row.auditEventId ∈ records.map (·.auditEventId) then settlement selected db now row else row }

theorem pending_settledBy (h : ∀ other ∈ records, other.destination ≠ record.destination) :
    (settledBy selected now db records).deliveries.filter (·.destination = record.destination) =
      db.deliveries.filter (·.destination = record.destination) := by
  rw [settledBy, List.filter_filter]
  refine List.filter_congr fun row _ => ?_
  by_cases hrow : row.destination = record.destination
  · have hkept : removes selected records row = false := by
      refine List.any_eq_false.mpr fun other hother => ?_
      simp [hrow, h other hother]
    simp [hrow, hkept]
  · simp [hrow]

theorem removes_concat (row : DeliveryRow) : removes selected (records ++ [record]) row =
    (removes selected records row ||
      (decide (record.destination = row.destination) && selected ≠ some record.destination)) := by
  simp [removes]

theorem settlement_auditEventId : (settlement selected db now record).auditEventId = record.auditEventId := by
  unfold settlement
  split_ifs
  · rfl
  · rfl

theorem updateDisposition_settledBy {base : Database} {change : DeliveryDispositionRecord → DeliveryDispositionRecord}
    (hbase : base.dispositions = (settledBy selected now db records).dispositions)
    (hids : (db.dispositions.map (·.auditEventId)).Nodup) (hrecord : record ∈ db.dispositions)
    (hfresh : ∀ other ∈ records, other.auditEventId ≠ record.auditEventId)
    (hchange : change record = settlement selected db now record) :
    (updateDisposition base record.auditEventId change).dispositions =
      (settledBy selected now db (records ++ [record])).dispositions := by
  simp only [updateDisposition, hbase, settledBy, List.map_map]
  refine List.map_congr_left fun row hrow => ?_
  have hconcat : row.auditEventId ∈ (records ++ [record]).map (·.auditEventId) ↔
      row.auditEventId ∈ records.map (·.auditEventId) ∨ row.auditEventId = record.auditEventId := by simp
  by_cases hid : row.auditEventId = record.auditEventId
  · obtain rfl : row = record := List.inj_on_of_nodup_map hids hrow hrecord hid
    have hother : row.auditEventId ∉ records.map (·.auditEventId) := by
      intro hmem
      obtain ⟨other, hother, heq⟩ := List.mem_map.mp hmem
      exact hfresh other hother heq
    rw [Function.comp_apply, if_neg hother, if_pos rfl, if_pos (hconcat.mpr (.inr rfl)), hchange]
  · rw [Function.comp_apply]
    by_cases hother : row.auditEventId ∈ records.map (·.auditEventId)
    · rw [if_pos hother, settlement_auditEventId, if_neg hid, if_pos (hconcat.mpr (.inl hother))]
    · rw [if_neg hother, if_neg hid, if_neg (hconcat.not.mpr (not_or.mpr ⟨hother, hid⟩))]

theorem counts_settledBy (hfresh : ∀ other ∈ records, other.destination ≠ record.destination) :
    destinationCounts (settledBy selected now db records) record.destination =
      destinationCounts db record.destination := by
  simp only [destinationCounts, pending_settledBy hfresh]

section

variable (hids : (db.dispositions.map (·.auditEventId)).Nodup)

include hids

section

variable (hrecord : record ∈ db.dispositions)

include hrecord

theorem supersede_settledBy
    (hfresh : ∀ other ∈ records, other.auditEventId ≠ record.auditEventId)
    (hselected : selected = some record.destination) :
    updateDisposition (settledBy selected now db records) record.auditEventId (·.supersede now) =
      settledBy selected now db (records ++ [record]) := by
  have hsettled : record.supersede now = settlement selected db now record := (if_pos hselected).symm
  have hremoves : ∀ row, removes selected (records ++ [record]) row = removes selected records row := by
    intro row
    simp [removes_concat, hselected]
  refine Database.ext rfl rfl ?_ rfl rfl rfl ?_ ?_ rfl
  · simp only [updateDisposition, settledBy, hremoves]
  · exact updateDisposition_settledBy rfl hids hrecord hfresh hsettled
  · simp [updateDisposition, settledBy, hselected]

theorem execute_settledBy
    (hfresh : ∀ other ∈ records, other.auditEventId ≠ record.auditEventId ∧ other.destination ≠ record.destination)
    (hselected : selected ≠ some record.destination) :
    execute (settledBy selected now db records) record now = settledBy selected now db (records ++ [record]) := by
  have hother : ∀ other ∈ records, other.destination ≠ record.destination := fun other hmem => (hfresh other hmem).2
  have hsettled : record.executed now (destinationCounts (settledBy selected now db records) record.destination).1
      (destinationCounts (settledBy selected now db records) record.destination).2 =
        settlement selected db now record := by
    rw [counts_settledBy hother, settlement, if_neg hselected]
  refine Database.ext rfl rfl ?_ rfl rfl rfl ?_ ?_ rfl
  · simp only [execute, updateDisposition, settledBy, List.filter_filter]
    refine List.filter_congr fun row _ => ?_
    simp [removes_concat, hselected, eq_comm, Bool.and_comm]
  · exact updateDisposition_settledBy rfl hids hrecord (fun other hother => (hfresh other hother).1) hsettled
  · have harchived : (pendingFor (settledBy selected now db records) record.destination) =
        pendingFor db record.destination := by
      simp only [pendingFor, pending_settledBy hother]
    cases haction : record.action with
    | archive =>
        simp only [execute, updateDisposition, haction, harchived]
        simp [settledBy, hselected, archived, haction]
    | discard => simp [execute, updateDisposition, settledBy, hselected, archived, haction]

theorem settleOne_settledBy {settled : List DeliveryDispositionRecord}
    (hfresh : ∀ other ∈ records, other.auditEventId ≠ record.auditEventId ∧ other.destination ≠ record.destination) :
    settleOne selected now (settledBy selected now db records, settled) record =
      (settledBy selected now db (records ++ [record]), settled ++ [settlement selected db now record]) := by
  by_cases hselected : selected = some record.destination
  · rw [settleOne, if_pos hselected, settlement, if_pos hselected,
      supersede_settledBy hids hrecord (fun other hother => (hfresh other hother).1) hselected]
  · rw [settleOne, if_neg hselected, settlement, if_neg hselected, execute_settledBy hids hrecord hfresh hselected,
      counts_settledBy fun other hother => (hfresh other hother).2]

end

theorem foldl_settleOne
    (hrecords : ∀ record ∈ records, record ∈ db.dispositions)
    (hfresh : records.Pairwise fun a b => a.auditEventId ≠ b.auditEventId ∧ a.destination ≠ b.destination) :
    records.foldl (settleOne selected now) (db, []) =
      (settledBy selected now db records, records.map (settlement selected db now)) := by
  induction records using List.reverseRecOn with
  | nil =>
      refine Prod.ext (Database.ext rfl rfl ?_ rfl rfl rfl ?_ ?_ rfl) rfl
      · simp [settledBy, removes]
      · simp [settledBy]
      · simp [settledBy]
  | append_singleton records record ih =>
      obtain ⟨hfront, _, hlast⟩ := List.pairwise_append.mp hfresh
      have hstart := ih (fun r hr => hrecords r (List.mem_append_left _ hr)) hfront
      rw [List.foldl_append, hstart, List.foldl_cons, List.foldl_nil, List.map_append]
      refine settleOne_settledBy hids (hrecords record (by simp)) fun other hother => ?_
      exact hlast other hother record List.mem_cons_self

end

end Settling

section Runs

def unsettled (db : Database) : List DeliveryDispositionRecord := db.dispositions.filter (·.state = .authorized)

structure Disposed (db : Database) : Prop where
  ids : (db.dispositions.map (·.auditEventId)).Nodup
  single : (unsettled db).Pairwise (·.destination ≠ ·.destination)
  bounded : (unsettled db).length ≤ maxPendingTargetDispositions
  archive : ∀ row ∈ db.archive, ∃ record ∈ db.dispositions, record.auditEventId = row.auditEventId ∧
    record.state ≠ .authorized

theorem mem_unsettled : record ∈ unsettled db ↔ record ∈ db.dispositions ∧ record.state = .authorized := by
  simp [unsettled]

theorem settlement_state : (settlement selected db now record).state ≠ .authorized := by
  unfold settlement
  split_ifs
  · exact nofun
  · exact nofun

theorem auditEventId_of_mem_archived {row : ArchivedDelivery} (h : row ∈ archived db now record) :
    row.auditEventId = record.auditEventId := by
  cases haction : record.action with
  | archive =>
      simp only [archived, haction] at h
      obtain ⟨_, _, rfl⟩ := List.mem_map.mp h
      rfl
  | discard =>
      simp only [archived, haction] at h
      cases h

theorem settledBy_dispositions (hids : (db.dispositions.map (·.auditEventId)).Nodup) :
    (settledBy selected now db (unsettled db)).dispositions =
      db.dispositions.map fun record =>
        if record.state = .authorized then settlement selected db now record else record := by
  refine List.map_congr_left fun record hrecord => ?_
  refine if_congr ?_ rfl rfl
  constructor
  · intro hmem
    obtain ⟨other, hother, hid⟩ := List.mem_map.mp hmem
    obtain ⟨hother, hstate⟩ := mem_unsettled.mp hother
    exact List.inj_on_of_nodup_map hids hother hrecord hid ▸ hstate
  · intro hstate
    exact List.mem_map_of_mem (mem_unsettled.mpr ⟨hrecord, hstate⟩)

namespace Disposed

variable (h : Disposed db)

include h

theorem settle (selected : Option TargetDeliveryDestination) {settledAt : UtcTimestamp}
    {result : Database × List DeliveryDispositionRecord} (hsettle : settle db selected settledAt = .ok result) :
    ∃ now, encodeTimestamp settledAt = .ok now ∧ result =
      (settledBy selected now db (unsettled db), (unsettled db).map (settlement selected db now)) := by
  obtain ⟨now, hnow, hfold⟩ := settle_eq_ok hsettle
  have hall : authorizedDispositions db = unsettled db := List.take_of_length_le h.bounded
  have hids : (unsettled db).Pairwise (·.auditEventId ≠ ·.auditEventId) := (List.pairwise_map.mp h.ids).filter _
  have hrecords : ∀ record ∈ unsettled db, record ∈ db.dispositions := fun record hrecord =>
    (mem_unsettled.mp hrecord).1
  rw [hall, foldl_settleOne h.ids hrecords (hids.and h.single)] at hfold
  exact ⟨now, hnow, hfold.symm⟩

theorem settledBy (selected : Option TargetDeliveryDestination) (now : Stamp) :
    Disposed (settledBy selected now db (unsettled db)) := by
  have hdispositions : (Outbox.settledBy selected now db (unsettled db)).dispositions = db.dispositions.map _ :=
    settledBy_dispositions h.ids
  have hnone : unsettled (Outbox.settledBy selected now db (unsettled db)) = [] := by
    refine List.filter_eq_nil_iff.mpr fun record hrecord => ?_
    rw [hdispositions] at hrecord
    obtain ⟨old, _, rfl⟩ := List.mem_map.mp hrecord
    split_ifs with hstate
    · simpa using settlement_state
    · simpa using hstate
  refine ⟨?_, hnone ▸ .nil, hnone ▸ Nat.zero_le _, fun row hrow => ?_⟩
  · have hids : (Outbox.settledBy selected now db (unsettled db)).dispositions.map (·.auditEventId) =
        db.dispositions.map (·.auditEventId) := by
      rw [hdispositions, List.map_map]
      refine List.map_congr_left fun record _ => ?_
      simp only [Function.comp_apply]
      split_ifs
      · exact settlement_auditEventId
      · rfl
    exact hids ▸ h.ids
  · rw [hdispositions]
    rcases List.mem_append.mp hrow with hrow | hrow
    · obtain ⟨record, hrecord, hid, hstate⟩ := h.archive row hrow
      exact ⟨record, List.mem_map.mpr ⟨record, hrecord, if_neg hstate⟩, hid, hstate⟩
    · obtain ⟨record, hrecord, hrow⟩ := List.mem_flatMap.mp hrow
      obtain ⟨hrecord, hstate⟩ := mem_unsettled.mp hrecord
      refine ⟨_, List.mem_map.mpr ⟨record, hrecord, if_pos hstate⟩, ?_, settlement_state⟩
      rw [settlement_auditEventId]
      split_ifs at hrow
      · cases hrow
      · exact (auditEventId_of_mem_archived hrow).symm

theorem authorize {auditEventId : String} {request : DeliveryDispositionRequest}
    (hauthorize : authorize db auditEventId request = .ok (db', record)) : Disposed db' := by
  obtain ⟨-, hnone, hbound, hfresh, rfl, hdestination, -, hstate, rfl⟩ := authorize_eq_ok hauthorize
  have hunsettled : unsettled { db with dispositions := db.dispositions ++ [record] } = unsettled db ++ [record] := by
    simp [unsettled, hstate]
  refine ⟨?_, ?_, ?_, fun row hrow => ?_⟩
  · rw [List.map_append]
    refine List.nodup_append.mpr ⟨h.ids, List.nodup_singleton _, ?_⟩
    intro id hid other hother heq
    obtain ⟨row, hrow, rfl⟩ := List.mem_map.mp hid
    refine hfresh row hrow ?_
    simpa [heq] using hother
  · rw [hunsettled]
    refine List.pairwise_append.mpr ⟨h.single, List.pairwise_singleton _ _, fun row hrow new hnew heq => ?_⟩
    obtain ⟨hrow, hauthorized⟩ := mem_unsettled.mp hrow
    rw [List.mem_singleton.mp hnew] at heq
    exact hnone row hrow ⟨hauthorized, heq.trans hdestination⟩
  · rw [hunsettled, List.length_append, List.length_singleton]
    exact hbound
  · obtain ⟨old, hold, hid, hsettled⟩ := h.archive row hrow
    exact ⟨old, List.mem_append_left _ hold, hid, hsettled⟩

theorem of_eq (hdispositions : db'.dispositions = db.dispositions)
    (harchive : db'.archive = db.archive) : Disposed db' := by
  have hunsettled : unsettled db' = unsettled db := by rw [unsettled, hdispositions, unsettled]
  exact ⟨hdispositions ▸ h.ids, hunsettled ▸ h.single, hunsettled ▸ h.bounded, hdispositions ▸ harchive ▸ h.archive⟩

end Disposed

inductive Disposes (db db' : Database) : Prop
  | nothing (hdispositions : db'.dispositions = db.dispositions) (harchive : db'.archive = db.archive)
  | authorized {auditEventId : String} {request : DeliveryDispositionRequest} {record : DeliveryDispositionRecord}
      (h : authorize db auditEventId request = .ok (db', record))
  | settled (selected : Option TargetDeliveryDestination) (now : Stamp)
      (h : db' = settledBy selected now db (unsettled db))

theorem write_frame {refusal : Option StorageError} {write : EncodedWrite}
    (h : db.write policy refusal write = .ok db') : db'.dispositions = db.dispositions ∧ db'.archive = db.archive := by
  obtain ⟨mid, kept, hprepare, hinsert⟩ := write_eq_ok h
  obtain ⟨base, stats, _, _, hbase, rfl, _⟩ := prepareWrite_eq_ok hprepare
  have hinserted := insertRows_inserted hinsert
  rcases hbase with ⟨rfl, -⟩ | ⟨rfl, -⟩
  · exact ⟨hinserted.dispositions, hinserted.archive⟩
  · exact ⟨hinserted.dispositions, hinserted.archive⟩

theorem step_disposes (policy : RetentionPolicy) (h : Disposed db) (request : Request) :
    Disposes db (db.step policy request) := by
  unfold step
  split
  · next db' hhandle =>
      cases request with
      | write refusal write => exact .nothing (write_frame hhandle).1 (write_frame hhandle).2
      | maintain now =>
          cases hhandle
          exact .nothing rfl rfl
      | recordAttempt attempt =>
          obtain ⟨_, ⟨_, rfl⟩ | ⟨_, _, rfl⟩⟩ := recordAttempt_eq_ok hhandle
          · exact .nothing rfl rfl
          · exact .nothing rfl rfl
      | authorize auditEventId request =>
          obtain ⟨⟨db', record⟩, hauthorize, rfl⟩ := map_eq_ok.mp hhandle
          exact .authorized hauthorize
      | settle selected settledAt =>
          obtain ⟨result, hsettle, rfl⟩ := map_eq_ok.mp hhandle
          obtain ⟨now, _, rfl⟩ := h.settle selected hsettle
          exact .settled selected now rfl
  · exact .nothing rfl rfl

theorem Disposed.step (policy : RetentionPolicy) (h : Disposed db) (request : Request) :
    Disposed (db.step policy request) := by
  cases step_disposes policy h request with
  | nothing hdispositions harchive => exact h.of_eq hdispositions harchive
  | authorized hauthorize => exact h.authorize hauthorize
  | settled selected now heq => exact heq ▸ h.settledBy selected now

theorem Disposed.run (policy : RetentionPolicy) (source : Export.Source) (requests : List Request) :
    Disposed ((empty source).run policy requests) :=
  run_invariant (P := Disposed) (fun _ request h => h.step policy request) requests
    ⟨.nil, .nil, Nat.zero_le _, by simp [empty]⟩

theorem step_keeps_settled (h : Disposed db) (request : Request) (hrecord : record ∈ db.dispositions)
    (hstate : record.state ≠ .authorized) : record ∈ (db.step policy request).dispositions := by
  cases step_disposes policy h request with
  | nothing hdispositions _ => exact hdispositions ▸ hrecord
  | authorized hauthorize =>
      obtain ⟨-, -, -, -, -, -, -, -, heq⟩ := authorize_eq_ok hauthorize
      rw [heq]
      exact List.mem_append_left _ hrecord
  | settled selected now heq =>
      rw [heq, settledBy_dispositions h.ids]
      exact List.mem_map.mpr ⟨record, hrecord, if_neg hstate⟩

theorem archive_settledBy (h : Disposed db) (hrecord : record ∈ db.dispositions) (hstate : record.state = .authorized)
    (hselected : selected ≠ some record.destination) :
    (settledBy selected now db (unsettled db)).archive.filter (·.auditEventId = record.auditEventId) =
      archived db now record := by
  have hunique : ∀ other ∈ db.dispositions, other.auditEventId = record.auditEventId → other = record :=
    fun other hother hid => List.inj_on_of_nodup_map h.ids hother hrecord hid
  have hbefore : db.archive.filter (·.auditEventId = record.auditEventId) = [] := by
    refine List.filter_eq_nil_iff.mpr fun row hrow hid => ?_
    obtain ⟨other, hother, hother_id, hsettled⟩ := h.archive row hrow
    rw [hunique other hother (hother_id.trans (by simpa using hid))] at hsettled
    exact hsettled hstate
  -- Among the settled dispositions only this one archives under its identifier.
  obtain ⟨front, back, hsplit⟩ := List.append_of_mem (mem_unsettled.mpr ⟨hrecord, hstate⟩)
  have hids : (unsettled db).Pairwise (·.auditEventId ≠ ·.auditEventId) := (List.pairwise_map.mp h.ids).filter _
  rw [hsplit, List.pairwise_append, List.pairwise_cons] at hids
  obtain ⟨-, ⟨hback, -⟩, hfront⟩ := hids
  have hothers : ∀ others : List DeliveryDispositionRecord,
      (∀ other ∈ others, other.auditEventId ≠ record.auditEventId) →
      (others.flatMap fun other => if selected = some other.destination then [] else archived db now other).filter
        (·.auditEventId = record.auditEventId) = [] := by
    intro others hne
    refine List.filter_eq_nil_iff.mpr fun row hrow hid => ?_
    obtain ⟨other, hother, hrow⟩ := List.mem_flatMap.mp hrow
    split_ifs at hrow
    · cases hrow
    · exact hne other hother ((auditEventId_of_mem_archived hrow).symm.trans (by simpa using hid))
  have hown : (archived db now record).filter (·.auditEventId = record.auditEventId) = archived db now record :=
    List.filter_eq_self.mpr fun row hrow => by simpa using auditEventId_of_mem_archived hrow
  simp only [settledBy, hsplit, List.flatMap_append, List.flatMap_cons, List.filter_append, hbefore, List.nil_append,
    if_neg hselected, hown]
  rw [hothers front fun other hother => hfront other hother record List.mem_cons_self,
    hothers back fun other hother => (hback other hother).symm, List.nil_append, List.append_nil]

theorem deliveries_settledBy {destination : TargetDeliveryDestination}
    (h : ∀ record ∈ db.dispositions, record.state = .authorized → record.destination = destination →
      selected = some destination) :
    (settledBy selected now db (unsettled db)).deliveries.filter (·.destination = destination) =
      db.deliveries.filter (·.destination = destination) := by
  rw [settledBy, List.filter_filter]
  refine List.filter_congr fun row _ => ?_
  by_cases hrow : row.destination = destination
  · have hkept : removes selected (unsettled db) row = false := by
      refine List.any_eq_false.mpr fun record hrecord => ?_
      obtain ⟨hrecord, hstate⟩ := mem_unsettled.mp hrecord
      by_cases hdestination : record.destination = destination
      · simp [hrow, hdestination, h record hrecord hstate hdestination]
      · simp [hrow, hdestination]
    simp [hrow, hkept]
  · simp [hrow]

theorem not_pending_settledBy (hrecord : record ∈ db.dispositions) (hstate : record.state = .authorized)
    (hselected : selected ≠ some record.destination) :
    ∀ row ∈ (settledBy selected now db (unsettled db)).deliveries, row.destination ≠ record.destination := by
  intro row hrow hdestination
  have hkept := (List.mem_filter.mp hrow).2
  have hremoved : removes selected (unsettled db) row = true := by
    refine List.any_eq_true.mpr ⟨record, mem_unsettled.mpr ⟨hrecord, hstate⟩, ?_⟩
    simp [hdestination, hselected]
  simp [hremoved] at hkept

theorem length_le_one {destination : TargetDeliveryDestination} (hne : records.Pairwise (·.destination ≠ ·.destination))
    (hall : ∀ record ∈ records, record.destination = destination) : records.length ≤ 1 := by
  cases records with
  | nil => exact Nat.zero_le _
  | cons first rest =>
      cases rest with
      | nil => exact le_rfl
      | cons second rest =>
          have hfirst := hall first List.mem_cons_self
          have hsecond := hall second (List.mem_cons_of_mem _ List.mem_cons_self)
          exact absurd (hfirst.trans hsecond.symm) (List.rel_of_pairwise_cons hne List.mem_cons_self)

theorem Disposed.single_length (h : Disposed db) (destination : TargetDeliveryDestination) :
    (db.dispositions.filter fun record =>
      record.state = .authorized && record.destination = destination).length ≤ 1 := by
  have hfilter : (db.dispositions.filter fun record => record.state = .authorized && record.destination = destination) =
      (unsettled db).filter (·.destination = destination) := by
    rw [unsettled, List.filter_filter]
    exact List.filter_congr fun record _ => Bool.and_comm _ _
  rw [hfilter]
  apply length_le_one (h.single.filter _)
  intro record hrecord
  exact of_decide_eq_true (List.mem_filter.mp hrecord).2

theorem run_keeps_settled {source : Export.Source} {before requests : List Request} (hbefore : before <+: requests)
    (hrecord : record ∈ ((empty source).run policy before).dispositions)
    (hstate : record.state ≠ .authorized) : record ∈ ((empty source).run policy requests).dispositions := by
  obtain ⟨after, rfl⟩ := hbefore
  rw [run, List.foldl_append]
  have hstart := Disposed.run policy source before
  refine (run_invariant (P := fun db => Disposed db ∧ record ∈ db.dispositions) ?_ after ⟨hstart, hrecord⟩).2
  intro db request h
  exact ⟨h.1.step policy request, step_keeps_settled h.1 request h.2 hstate⟩

/-- Dispositions and what their settlements do, in every state that is reached. -/
theorem run_dispositions (policy : RetentionPolicy) (source : Export.Source) (requests : List Request) :
    let db := (empty source).run policy requests
    (∀ destination, (db.dispositions.filter fun record =>
      record.state = .authorized && record.destination = destination).length ≤ 1) ∧
    (∀ selected settledAt db' settled, settle db selected settledAt = .ok (db', settled) →
      ∃ now, encodeTimestamp settledAt = .ok now ∧
        (db'.dispositions = db.dispositions.map fun record =>
          if record.state = .authorized then
            if selected = some record.destination then record.supersede now
            else record.executed now
              ((db.deliveries.filter (·.destination = record.destination)).filter (·.durability = .critical)).length
              (db.deliveries.filter (·.destination = record.destination)).length
          else record) ∧
        (∀ record ∈ db.dispositions, record.state = .authorized → selected ≠ some record.destination →
          (∀ row ∈ db'.deliveries, row.destination ≠ record.destination) ∧
          db'.archive.filter (·.auditEventId = record.auditEventId) = match record.action with
            | .archive => (db.deliveries.filter (·.destination = record.destination)).map fun row =>
                ⟨record.auditEventId, row.toEncodedDelivery, row.attemptCount, now⟩
            | .discard => []) ∧
        (∀ destination, (∀ record ∈ db.dispositions, record.state = .authorized → record.destination = destination →
            selected = some destination) →
          db'.deliveries.filter (·.destination = destination) = db.deliveries.filter (·.destination = destination)) ∧
        db'.deliveries.Sublist db.deliveries ∧
        ∃ new, db'.archive = db.archive ++ new ∧ ∀ row ∈ new, ∃ record ∈ db.dispositions,
          record.state = .authorized ∧ selected ≠ some record.destination ∧
            record.auditEventId = row.auditEventId) ∧
    (∀ before, before <+: requests → ∀ record ∈ ((empty source).run policy before).dispositions,
      record.state ≠ .authorized → ∀ later ∈ db.dispositions, later.auditEventId = record.auditEventId →
        later = record) ∧
    (∀ selected settledAt error, settle db selected settledAt = .error error →
      db.step policy (.settle selected settledAt) = db) := by
  intro db
  have h : Disposed db := Disposed.run policy source requests
  have hqueued : Queued db := (Queued.empty source).run policy requests
  refine ⟨h.single_length, fun selected settledAt db' settled hsettle => ?_, fun before hbefore record hrecord hstate
    later hlater hid => ?_, fun selected settledAt error hsettle => ?_⟩
  · obtain ⟨now, hnow, hresult⟩ := h.settle selected hsettle
    obtain ⟨rfl, rfl⟩ := Prod.mk.inj hresult
    refine ⟨now, hnow, settledBy_dispositions h.ids, fun record hrecord hstate hselected => ⟨?_, ?_⟩,
      fun destination => deliveries_settledBy, List.filter_sublist, _, rfl, fun row hrow => ?_⟩
    · exact not_pending_settledBy hrecord hstate hselected
    · rw [archive_settledBy h hrecord hstate hselected, archived, pendingFor,
        Queued.mergeSort_eq (hqueued.sorted.filter _)]
    · obtain ⟨record, hrecord, hrow⟩ := List.mem_flatMap.mp hrow
      obtain ⟨hrecord, hstate⟩ := mem_unsettled.mp hrecord
      split_ifs at hrow with hselected
      · cases hrow
      · exact ⟨record, hrecord, hstate, hselected, (auditEventId_of_mem_archived hrow).symm⟩
  · have hkept := run_keeps_settled hbefore hrecord hstate
    exact List.inj_on_of_nodup_map h.ids hlater hkept hid
  · simp only [step, handle, hsettle]
    rfl

end Runs

end OcppBridge.Outbox
