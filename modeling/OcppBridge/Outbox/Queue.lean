import Mathlib.Data.List.Basic
import OcppBridge.Outbox.Change

namespace OcppBridge.Outbox

open Storage Transaction

variable {db db' : Database} {row : DeliveryRow} {rows : List DeliveryRow}

/-- What sets two stored deliveries apart, the first one being the older. -/
structure Older (a b : DeliveryRow) : Prop where
  rowId : a.rowId < b.rowId
  serial : a.serial < b.serial
  deliveryId : a.deliveryId ≠ b.deliveryId

/-- The rows stand in the order of their insertion, and the row identifiers agree with it. -/
structure Queued (db : Database) : Prop where
  sorted : db.deliveries.Pairwise Older
  issued : ∀ row ∈ db.deliveries, row.serial < db.inserted

theorem lt_nextRowId (h : row ∈ rows) : row.rowId < nextRowId rows := by
  induction rows with
  | nil => cases h
  | cons r rows ih =>
      simp only [nextRowId, List.map_cons, List.foldr_cons] at ih ⊢
      rcases List.mem_cons.mp h with rfl | h
      · omega
      · have hlt := ih h
        omega

theorem Older.retry {a b : DeliveryRow} (h : Older a b) (f : DeliveryRow → Prop) [DecidablePred f] (instant : Stamp) :
    Older (if f a then a.retry instant else a) (if f b then b.retry instant else b) := by
  split_ifs
  · exact ⟨h.rowId, h.serial, h.deliveryId⟩
  · exact ⟨h.rowId, h.serial, h.deliveryId⟩
  · exact ⟨h.rowId, h.serial, h.deliveryId⟩
  · exact h

namespace Queued

theorem filter (h : Queued db) {p : DeliveryRow → Bool} (hdeliveries : db'.deliveries = db.deliveries.filter p)
    (hinserted : db'.inserted = db.inserted) : Queued db' := by
  refine ⟨hdeliveries ▸ h.sorted.filter p, fun row hrow => ?_⟩
  rw [hdeliveries] at hrow
  rw [hinserted]
  exact h.issued row (List.mem_of_mem_filter hrow)

theorem insert (h : Queued db) {value : EncodedDelivery} (hwrite : writeDelivery db value = .ok db') : Queued db' := by
  obtain ⟨hfresh, rfl⟩ := writeDelivery_eq_ok hwrite
  constructor
  · refine List.pairwise_append.mpr ⟨h.sorted, List.pairwise_singleton _ _, fun row hrow new hnew => ?_⟩
    rw [List.mem_singleton.mp hnew]
    exact ⟨lt_nextRowId hrow, h.issued row hrow, (hfresh row hrow).1⟩
  · intro row hrow
    show row.serial < db.inserted + 1
    rcases List.mem_append.mp hrow with hrow | hrow
    · exact Nat.lt_succ_of_lt (h.issued row hrow)
    · rw [List.mem_singleton.mp hrow]
      exact Nat.lt_succ_self _

theorem attempt (h : Queued db) {attempt : EncodedDeliveryAttempt} (hattempt : recordAttempt db attempt = .ok db') :
    Queued db' := by
  obtain ⟨_, ⟨_, rfl⟩ | ⟨instant, _, rfl⟩⟩ := recordAttempt_eq_ok hattempt
  · exact h.filter rfl rfl
  · constructor
    · refine List.pairwise_map.mpr (h.sorted.imp fun {a b} hab => ?_)
      exact hab.retry (·.deliveryId = attempt.deliveryId) instant
    · intro row hrow
      obtain ⟨old, hold, rfl⟩ := List.mem_map.mp hrow
      have hissued := h.issued old hold
      split_ifs
      · exact hissued
      · exact hissued

theorem change (hchange : Change db db') (h : Queued db) : Queued db' := by
  cases hchange with
  | counted | exported | disposed => exact ⟨h.sorted, h.issued⟩
  | shed | execute => exact h.filter rfl rfl
  | delivery hwrite => exact h.insert hwrite
  | attempt hattempt => exact h.attempt hattempt
  | event hwrite =>
      obtain ⟨_, _, rfl⟩ := writeEvent_eq_ok hwrite
      exact ⟨h.sorted, h.issued⟩

theorem empty (source : Export.Source) : Queued (Database.empty source) := ⟨.nil, by simp [Database.empty]⟩

theorem run (policy : RetentionPolicy) (h : Queued db) (requests : List Request) : Queued (db.run policy requests) :=
  run_keeps Queued.change (fun _ h => ⟨h.sorted, h.issued⟩) h requests

theorem mergeSort_eq (h : rows.Pairwise Older) : rows.mergeSort (fun a b => a.rowId ≤ b.rowId) = rows := by
  apply List.mergeSort_of_pairwise
  refine h.imp fun {a b} hab => ?_
  simpa using hab.rowId.le

theorem readPending_eq_ok (h : Queued db) {destination : TargetDeliveryDestination} {readyAt : Stamp} {limit : Nat} :
    readPending db destination readyAt limit = .ok rows ↔
      rows = (readyHeads db destination readyAt).take limit ∧ ∀ row ∈ rows, row.attemptCount < 2 ^ 32 := by
  have hsorted : (readyHeads db destination readyAt).Pairwise Older := h.sorted.filter _
  simp only [readPending, bind_eq_ok, require_eq_ok, pure_eq_ok, mergeSort_eq hsorted]
  constructor
  · rintro ⟨_, hcount, rfl⟩
    exact ⟨rfl, hcount⟩
  · rintro ⟨rfl, hcount⟩
    exact ⟨(), hcount, rfl⟩

end Queued

end OcppBridge.Outbox
