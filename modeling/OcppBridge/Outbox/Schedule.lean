import OcppBridge.Outbox.Queue

namespace OcppBridge.Outbox

open Storage Transaction Database

variable {db db' : Database} {row : DeliveryRow} {readyAt : Stamp}

def lastResolution (db : Database) (deliveryId : String) : Option DeliveryAttemptResolution :=
  (db.attempts.filter (·.deliveryId = deliveryId)).getLast?.map (·.resolution)

/-- What the latest attempt on this very row asked for. -/
def DeliveryRow.lastResolution (row : DeliveryRow) (db : Database) : Option DeliveryAttemptResolution :=
  (readAttempts db row.deliveryId row.attemptCount).head?.map (·.resolution)

def RowScheduled (db : Database) (row : DeliveryRow) : Prop :=
  (row.attemptCount = 0 ∧ row.nextAttemptAt = none) ∨
    ∃ instant, row.nextAttemptAt = some instant ∧ lastResolution db row.deliveryId = some (.retryAt instant)

def Scheduled (db : Database) : Prop := ∀ row ∈ db.deliveries, RowScheduled db row

theorem RowScheduled.congr (h : RowScheduled db row)
    (hlast : lastResolution db' row.deliveryId = lastResolution db row.deliveryId) : RowScheduled db' row := by
  rcases h with hnone | ⟨instant, hnext, hresolution⟩
  · exact .inl hnone
  · exact .inr ⟨instant, hnext, hlast.trans hresolution⟩

theorem lastResolution_append {attempt : EncodedDeliveryAttempt} {deliveryId : String}
    (h : db'.attempts = db.attempts ++ [attempt.row]) :
    lastResolution db' deliveryId =
      if attempt.deliveryId = deliveryId then some attempt.resolution else lastResolution db deliveryId := by
  unfold lastResolution
  rw [h, List.filter_append]
  split_ifs with hid
  · simp [EncodedDeliveryAttempt.row, hid]
  · simp [EncodedDeliveryAttempt.row, hid]

namespace Scheduled

theorem subset (h : Scheduled db) (hattempts : db'.attempts = db.attempts)
    (hdeliveries : ∀ row ∈ db'.deliveries, row ∈ db.deliveries) : Scheduled db' := by
  intro row hrow
  refine (h row (hdeliveries row hrow)).congr ?_
  rw [lastResolution, hattempts, lastResolution]

theorem lastResolution_maintain (now : Int) (hrow : row ∈ db.deliveries) :
    lastResolution (maintain db now) row.deliveryId = lastResolution db row.deliveryId := by
  have hkept : ∀ attempt ∈ db.attempts, attempt.deliveryId = row.deliveryId →
      db.deliveries.all (·.deliveryId ≠ attempt.deliveryId) = false := by
    intro attempt _ hid
    refine List.all_eq_false.mpr ⟨row, hrow, ?_⟩
    simp [hid]
  unfold lastResolution maintain
  dsimp only
  rw [List.filter_filter]
  congr 2
  refine List.filter_congr fun attempt hattempt => ?_
  by_cases hid : attempt.deliveryId = row.deliveryId
  · rw [hkept attempt hattempt hid]
    simp [hid]
  · simp [hid]

theorem insert (h : Scheduled db) {value : EncodedDelivery} (hwrite : writeDelivery db value = .ok db') :
    Scheduled db' := by
  obtain ⟨_, rfl⟩ := writeDelivery_eq_ok hwrite
  intro row hrow
  rcases List.mem_append.mp hrow with hrow | hrow
  · exact (h row hrow).congr rfl
  · rw [List.mem_singleton.mp hrow]
    exact .inl ⟨rfl, rfl⟩

theorem attempt (h : Scheduled db) {attempt : EncodedDeliveryAttempt} (hattempt : recordAttempt db attempt = .ok db') :
    Scheduled db' := by
  obtain ⟨_, ⟨_, rfl⟩ | ⟨instant, hresolution, rfl⟩⟩ := recordAttempt_eq_ok hattempt
  · intro row hrow
    obtain ⟨hrow, hid⟩ := List.mem_filter.mp hrow
    refine (h row hrow).congr ?_
    rw [lastResolution_append rfl, if_neg]
    exact fun heq => absurd heq.symm (by simpa using hid)
  · intro row hrow
    obtain ⟨old, hold, rfl⟩ := List.mem_map.mp hrow
    by_cases hid : old.deliveryId = attempt.deliveryId
    · rw [if_pos hid]
      refine .inr ⟨instant, rfl, ?_⟩
      rw [lastResolution_append rfl, hresolution]
      exact if_pos hid.symm
    · rw [if_neg hid]
      refine (h old hold).congr ?_
      rw [lastResolution_append rfl, if_neg (Ne.symm hid)]

theorem change (hchange : Change db db') (h : Scheduled db) : Scheduled db' := by
  cases hchange with
  | counted | exported | disposed => exact h
  | shed | execute => exact h.subset rfl fun row hrow => List.mem_of_mem_filter hrow
  | delivery hwrite => exact h.insert hwrite
  | attempt hattempt => exact h.attempt hattempt
  | event hwrite =>
      obtain ⟨_, _, rfl⟩ := writeEvent_eq_ok hwrite
      exact h

theorem run (policy : RetentionPolicy) (source : Export.Source) (requests : List Request) :
    Scheduled ((empty source).run policy requests) :=
  run_keeps Scheduled.change (fun now h row hrow => (h row hrow).congr (lastResolution_maintain now hrow))
    (by simp [Scheduled, empty]) requests

theorem nextAttemptAt_eq (h : Scheduled db) {instant : Stamp} (hrow : row ∈ db.deliveries)
    (hlast : row.lastResolution db = some (.retryAt instant)) : row.nextAttemptAt = some instant := by
  rw [DeliveryRow.lastResolution, readAttempts, List.head?_take] at hlast
  rcases h row hrow with ⟨hcount, _⟩ | ⟨next, hnext, hresolution⟩
  · simp [hcount] at hlast
  · split_ifs at hlast
    · cases hlast
    · rw [List.head?_reverse] at hlast
      rw [hnext]
      have heq := hresolution.symm.trans hlast
      simpa using heq

end Scheduled

theorem mem_readyHeads (hrow : row ∈ db.deliveries) (hhead : isHead db.deliveries row) :
    row ∈ readyHeads db row.destination readyAt ↔ row.readyAt readyAt := by
  simp [readyHeads, hrow, hhead]

theorem readyAt_iff {instant : Stamp} (hnext : row.nextAttemptAt = some instant) :
    row.readyAt readyAt ↔ (instant.nanoseconds ≤ readyAt.nanoseconds ↔ instant.Comparable readyAt) := by
  rw [DeliveryRow.readyAt, hnext, Option.all_some, decide_eq_true_iff]
  exact Stamp.json_le_iff

theorem Queued.mem_readPending (h : Queued db) (hcounts : ∀ other ∈ db.deliveries, other.attemptCount < 2 ^ 32)
    (hrow : row ∈ db.deliveries) (hhead : isHead db.deliveries row) {limit : Nat} :
    (∃ rows, readPending db row.destination readyAt limit = .ok rows ∧ row ∈ rows) ↔
      row.readyAt readyAt ∧ (readyHeads db row.destination readyAt).idxOf row < limit := by
  rw [← mem_readyHeads hrow hhead]
  constructor
  · rintro ⟨rows, hrows, hmem⟩
    obtain ⟨rfl, _⟩ := h.readPending_eq_ok.mp hrows
    have hready := List.mem_of_mem_take hmem
    exact ⟨hready, (List.mem_take_iff_idxOf_lt hready).mp hmem⟩
  · rintro ⟨hready, hindex⟩
    refine ⟨_, h.readPending_eq_ok.mpr ⟨rfl, fun other hother => ?_⟩, ?_⟩
    · exact hcounts other (List.mem_of_mem_filter (List.mem_of_mem_take hother))
    · exact (List.mem_take_iff_idxOf_lt hready).mpr hindex

/-- The head of a lane that waits for an instant is read at another if it is due and the texts of the two compare as the
instants do, or if neither is so. A page with room for it has it exactly when it is due where the texts are comparable,
and only there. -/
theorem run_readPending (policy : RetentionPolicy) (source : Export.Source) (requests : List Request)
    {instant readyAt : Stamp} {limit : Nat} (hrow : row ∈ ((empty source).run policy requests).deliveries)
    (hhead : isHead ((empty source).run policy requests).deliveries row)
    (hlast : row.lastResolution ((empty source).run policy requests) = some (.retryAt instant))
    (hcounts : ∀ other ∈ ((empty source).run policy requests).deliveries, other.attemptCount < 2 ^ 32) :
    ((∃ rows, readPending ((empty source).run policy requests) row.destination readyAt limit = .ok rows ∧
        row ∈ rows) ↔
      (instant.nanoseconds ≤ readyAt.nanoseconds ↔ instant.Comparable readyAt) ∧
        (readyHeads ((empty source).run policy requests) row.destination readyAt).idxOf row < limit) ∧
    (((empty source).run policy requests).deliveries.length ≤ limit →
      (((∃ rows, readPending ((empty source).run policy requests) row.destination readyAt limit = .ok rows ∧
        row ∈ rows) ↔ instant.nanoseconds ≤ readyAt.nanoseconds) ↔ instant.Comparable readyAt)) := by
  have hqueued := (Queued.empty source).run policy requests
  have hnext := (Scheduled.run policy source requests).nextAttemptAt_eq hrow hlast
  rw [hqueued.mem_readPending hcounts hrow hhead, readyAt_iff hnext]
  refine ⟨Iff.rfl, fun hroom => ?_⟩
  have hpage : (instant.nanoseconds ≤ readyAt.nanoseconds ↔ instant.Comparable readyAt) →
      (readyHeads ((empty source).run policy requests) row.destination readyAt).idxOf row < limit := by
    intro hready
    have hmem := (mem_readyHeads hrow hhead).mpr ((readyAt_iff hnext).mpr hready)
    exact (List.idxOf_lt_length_of_mem hmem).trans_le ((List.length_filter_le _ _).trans hroom)
  rw [and_iff_left_of_imp hpage]
  by_cases hdue : instant.nanoseconds ≤ readyAt.nanoseconds
  · simp [hdue]
  · simp [hdue]

section Sample

def sampleDelivery : EncodedDelivery where
  targetInstanceId := "mqtt"
  targetRevision := 1
  eventId := "event"
  deliveryId := "delivery"
  orderingKey := "station"
  deadline := sampleInstant 900000
  durability := .critical
  payload := ""

def retryRequests (instant : Stamp) : List Request :=
  [.write none ⟨.routine, [], [sampleDelivery], []⟩,
    .recordAttempt ⟨"delivery", "\"offline\"", sampleInstant 0, .retryAt instant, 0⟩]

def retried (instant : Stamp) : Database := (empty sampleSource).run samplePolicy (retryRequests instant)

def retriedRow (instant : Stamp) : DeliveryRow :=
  { sampleDelivery with rowId := 1, attemptCount := 1, nextAttemptAt := some instant, serial := 0 }

/-- `"9999-12-31T23:00:01.5Z"` sorts before `"9999-12-31T23:00:01Z"`, so that work is read too early or too late. -/
theorem retried_readPending_half_second :
    (retriedRow (sampleInstant 1500) ∈ (retried (sampleInstant 1500)).deliveries ∧
      isHead (retried (sampleInstant 1500)).deliveries (retriedRow (sampleInstant 1500)) ∧
      (retriedRow (sampleInstant 1500)).lastResolution (retried (sampleInstant 1500)) =
        some (.retryAt (sampleInstant 1500)) ∧
      (readPending (retried (sampleInstant 1500)) sampleDelivery.destination (sampleInstant 1000) 1).toOption =
        some [retriedRow (sampleInstant 1500)]) ∧
    retriedRow (sampleInstant 1000) ∈ (retried (sampleInstant 1000)).deliveries ∧
      isHead (retried (sampleInstant 1000)).deliveries (retriedRow (sampleInstant 1000)) ∧
      (retriedRow (sampleInstant 1000)).lastResolution (retried (sampleInstant 1000)) =
        some (.retryAt (sampleInstant 1000)) ∧
      (readPending (retried (sampleInstant 1000)) sampleDelivery.destination (sampleInstant 1500) 1).toOption =
        some [] := by
  decide +kernel

theorem retried_readPending_whole_second :
    ((∃ rows, readPending (retried (sampleInstant 2000)) (retriedRow (sampleInstant 2000)).destination
        (sampleInstant 5000) 1 = .ok rows ∧ retriedRow (sampleInstant 2000) ∈ rows) ↔
      (sampleInstant 2000).nanoseconds ≤ (sampleInstant 5000).nanoseconds) ↔
        (sampleInstant 2000).Comparable (sampleInstant 5000) :=
  (run_readPending samplePolicy sampleSource (retryRequests (sampleInstant 2000)) (by decide +kernel)
    (by decide +kernel) (by decide +kernel) (by decide +kernel)).2 (by decide +kernel)

end Sample

end OcppBridge.Outbox
