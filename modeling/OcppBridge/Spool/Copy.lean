import OcppBridge.Spool.Ingest

namespace OcppBridge.Spool

open Spans Transaction PendingRow

variable {limits : Limits} {durable db db' : Database} {confirmed : List (Durability × Nat)}
  {n : Durability → Nat} {d : Durability} {m : Nat} {request : ExportSpoolRecordBegin}

theorem Books.positions_nodup (hb : Books db confirmed n) : (db.pending.map position).Nodup := by
  refine nodup_of_streams fun d => ?_
  have hall := (hb.covered d).nodup_iff.mpr (nodup_span 1 (n d))
  exact hall.of_append_left.of_append_left

theorem evictOldestTelemetry_eq_ok {freed : Nat} (ht : GapTable db.gaps)
    (h : evictOldestTelemetry limits db = .ok (some (db', freed))) :
    ∃ row gaps, row ∈ db.pending ∧ row.durability = .bestEffortTelemetry ∧ row.rowId ∉ db.deliveryItems ∧
      GapsAdded db.gaps [⟨.bestEffortTelemetry, row.sequence, row.sequence, .telemetryEvicted⟩] gaps ∧
      db' = { db with pending := db.pending.filter fun r => r.position ≠ row.position, gaps } := by
  unfold evictOldestTelemetry at h
  split at h
  · simp at h
  · rename_i row hfind
    have hprop := List.find?_some hfind
    simp only [decide_eq_true_eq] at hprop
    have hmem := List.mem_of_find?_eq_some hfind
    simp only [Database.ordered, List.mem_insertionSort] at hmem
    simp only [bind_eq_ok, pure_eq_ok, Option.some.injEq, Prod.mk.injEq] at h
    obtain ⟨mid, hmid, rfl, -⟩ := h
    obtain ⟨gaps, rfl, hadded⟩ := insertGap_added ht hmid
    refine ⟨row, gaps, hmem, hprop.1, hprop.2, hadded, ?_⟩
    simp [position, hprop.1]

theorem Books.evict (hb : Books db confirmed n) {row : PendingRow} {gaps : List ExportGap}
    (hrow : row ∈ db.pending) (hd : row.durability = .bestEffortTelemetry) (hfree : row.rowId ∉ db.deliveryItems)
    (ha : GapsAdded db.gaps [⟨.bestEffortTelemetry, row.sequence, row.sequence, .telemetryEvicted⟩] gaps) :
    Books { db with pending := db.pending.filter fun r => r.position ≠ row.position, gaps } confirmed n := by
  have hperm := Keyed.perm_cons_delete hb.positions_nodup hrow
  refine { hb with table := ha.table, covered := ?_, reasons := ?_, rowIds := ?_, present := ?_ }
  · intro d
    refine List.Perm.trans ?_ (hb.covered d)
    have hrows := streamPositions_perm d (hperm.map position)
    have hgaps := ha.positions d
    rw [List.map_cons, ← List.singleton_append, streamPositions_append, streamPositions_singleton] at hrows
    rw [gapPositions_singleton] at hgaps
    simp only [position, hd, ExportGap.positions, span_self] at hrows hgaps
    rw [List.perm_iff_count] at hrows hgaps ⊢
    intro p
    have h1 := hrows p
    have h2 := hgaps p
    simp only [Database.positions, position, hd, List.count_append] at h1 h2 ⊢
    omega
  · intro g hg hcritical
    rcases ha.origin g hg with hold | ⟨x, hx, hgx⟩
    · exact hb.reasons g hold hcritical
    · simp_all
  · exact Keyed.nodup_delete hb.rowIds _
  · intro id hid
    obtain ⟨r, hr, hrid⟩ := hb.present id hid
    refine ⟨r, List.mem_filter.mpr ⟨hr, ?_⟩, hrid⟩
    have hne : r.position ≠ row.position := by
      intro heq
      have := Keyed.eq_of_key hb.positions_nodup hr hrow heq
      exact hfree (this ▸ hrid ▸ hid)
    simpa using hne

theorem evictOldestTelemetry_working {freed : Nat} (hw : Working durable db confirmed d m)
    (h : evictOldestTelemetry limits db = .ok (some (db', freed))) : Working durable db' confirmed d m := by
  obtain ⟨row, gaps, hrow, hd, hfree, hadded, rfl⟩ := evictOldestTelemetry_eq_ok hw.books.table h
  refine ⟨hw.books.evict hrow hd hfree hadded, hw.keeps.trans ?_, hw.checkpoint, hw.bound⟩
  refine ⟨rfl, rfl, ?_, fun b hb => ⟨b, hb, rfl, rfl, rfl, rfl⟩, id⟩
  intro r hr hid
  refine List.mem_filter.mpr ⟨hr, ?_⟩
  have hne : r.position ≠ row.position := by
    intro heq
    exact hfree (Keyed.eq_of_key hw.books.positions_nodup hr hrow heq ▸ hid)
  simpa using hne

theorem insertPending_working {row : PendingRow} (hw : Working durable db confirmed row.durability m)
    (hseq : row.sequence = m + 1) (h : insertPending db row = .ok db') :
    Working durable db' confirmed row.durability (m + 1) ∧ row.rowId ∉ db'.deliveryItems := by
  simp only [insertPending, bind_eq_ok, require_eq_ok, pure_eq_ok] at h
  obtain ⟨_, ⟨-, -, hfresh⟩, rfl⟩ := h
  have hnew : row.rowId ∉ db.deliveryItems := by
    intro hmem
    obtain ⟨r, hr, hid⟩ := hw.books.present _ hmem
    exact (hfresh r hr).1 hid
  refine ⟨⟨?_, hw.keeps.trans ?_, hw.checkpoint, hw.bound⟩, hnew⟩
  · refine { hw.books with covered := ?_, rowIds := ?_, present := ?_ }
    · intro d
      have hold := hw.books.covered d
      have hpos : Database.positions { db with pending := db.pending ++ [row] } =
          db.positions ++ [row.position] := by simp [Database.positions]
      rw [hpos, streamPositions_append, streamPositions_singleton]
      simp only [position, hseq]
      by_cases hd : d = row.durability
      · subst hd
        simp only [Function.update_self, if_true] at hold ⊢
        have hend : span 1 m ++ [m + 1] = span 1 (m + 1) := by
          rw [← span_self (m + 1)]
          exact span_append (by omega) (by omega)
        rw [← hend]
        rw [List.perm_iff_count] at hold ⊢
        intro p
        have := hold p
        simp only [List.count_append] at this ⊢
        omega
      · simp only [Function.update_of_ne hd] at hold ⊢
        simpa [Ne.symm hd] using hold
    · exact Keyed.nodup_append_singleton hw.books.rowIds fun r hr => (hfresh r hr).1
    · intro id hid
      obtain ⟨r, hr, hrid⟩ := hw.books.present id hid
      exact ⟨r, List.mem_append_left _ hr, hrid⟩
  · exact ⟨rfl, rfl, fun r hr _ => List.mem_append_left _ hr, fun b hb => ⟨b, hb, rfl, rfl, rfl, rfl⟩, id⟩

/-- A transfer in progress: its working tables account for the record being copied. -/
structure Copying (durable working : Database) (active : ActiveRecord) (confirmed : List (Durability × Nat)) :
    Prop where
  state : Working durable working confirmed active.progress.durability active.progress.next.sequence
  unclaimed : active.rowId ∉ working.deliveryItems

def BeginResult.Good (durable : Database) (confirmed : List (Durability × Nat)) : BeginResult → Prop
  | .transfer working active => Copying durable working active confirmed
  | .telemetryDropped db => Closed db confirmed ∧ Keeps durable db

theorem dropTelemetry_closed {mid : Database} (hw : Working durable db confirmed request.progress.durability m)
    (hd : request.progress.durability = .bestEffortTelemetry) (hseq : request.descriptor.sequence = m + 1)
    (hnext : request.progress.next.sequence = m + 1)
    (hgap : insertGap limits db ⟨request.progress.durability, request.descriptor.sequence,
      request.descriptor.sequence, .telemetryDropped⟩ = .ok mid) (hcomplete : complete mid request.progress = .ok db') :
    Closed db' confirmed ∧ Keeps durable db' := by
  obtain ⟨gaps, rfl, hadded⟩ := insertGap_added hw.books.table hgap
  have hkeeps : Keeps durable { db with gaps } := hw.keeps.trans (insertGaps_keeps db)
  refine complete_closed ⟨?_, hkeeps, hw.checkpoint, hw.bound⟩ hcomplete
  have hbooks := hw.books.addGaps hadded (d := request.progress.durability) (m := m + 1)
    (by simp) (by
      intro d'
      rw [gapPositions_singleton]
      simp only [ExportGap.positions, hseq, span_self, Function.update_self, eq_comm]) (by simp [hd])
  rwa [Function.update_idem, ← hnext] at hbooks

theorem beginLoop_good {adm : Admission} {probe : Nat → Probe} (hseq : request.descriptor.sequence = m + 1)
    (hnext : request.progress.next.sequence = m + 1) {fuel turn used : Nat} {result : BeginResult}
    (hw : Working durable db confirmed request.progress.durability m)
    (h : beginLoop limits request adm probe fuel turn used db = .ok result) : result.Good durable confirmed := by
  induction fuel generalizing turn used db with
  | zero => simp [beginLoop] at h
  | succ fuel ih =>
      simp only [beginLoop, bind_eq_ok] at h
      obtain ⟨tried, htried, h⟩ := h
      unfold attemptBegin at htried
      split at h
      · -- the row fits: the transfer works on the tables that hold it
        simp only [pure_eq_ok] at h
        subst h
        split at htried
        · split at htried <;> simp only [bind_eq_ok, pure_eq_ok, reduceCtorEq, Option.some.injEq,
            Prod.mk.injEq] at htried
          obtain ⟨mid, hmid, rfl, rfl⟩ := htried
          obtain ⟨hworking, hfree⟩ := insertPending_working hw hseq hmid
          exact ⟨hnext ▸ hworking, hfree⟩
        · simp at htried
      · split at h
        · simp only [bind_eq_ok, pure_eq_ok] at h
          obtain ⟨mid, hgap, last, hcomplete, rfl⟩ := h
          exact dropTelemetry_closed hw (by assumption) hseq hnext hgap hcomplete
        · split at h
          · rename_i hevict
            split at h
            · exact ih (evictOldestTelemetry_working hw hevict) h
            · simp at h
          · simp at h
          · split at h <;> simp at h

theorem begin_good {probe : Nat → Probe} {result : BeginResult} (hc : Closed db confirmed)
    (h : begin limits probe db request = .ok result) : result.Good db confirmed := by
  simp only [begin, bind_eq_ok] at h
  obtain ⟨_, hvalid, adm, -, h⟩ := h
  obtain ⟨last, hprogress, hseq, hnext⟩ := validate_record hvalid
  split at h
  · simp at h
  · simp only [bind_eq_ok] at h
    obtain ⟨mid, hprepare, hloop⟩ := h
    exact beginLoop_good hseq hnext (prepare_working hc.books hprogress hprepare) hloop

@[simp] theorem write_position (row : PendingRow) (chunk : BudgetedRecordChunk) :
    (row.write chunk).position = row.position := by
  unfold write
  split <;> rfl

@[simp] theorem write_rowId (row : PendingRow) (chunk : BudgetedRecordChunk) : (row.write chunk).rowId = row.rowId := by
  unfold write
  split <;> rfl

theorem append_copying {active active' : ActiveRecord} {chunk : BudgetedRecordChunk}
    (hc : Copying durable db active confirmed) (h : append db active chunk = .ok (db', active')) :
    Copying durable db' active' confirmed := by
  simp only [append, bind_eq_ok, require_eq_ok, pure_eq_ok, Prod.mk.injEq] at h
  obtain ⟨_, -, _, -, rfl, rfl⟩ := h
  have hpos : ∀ row : PendingRow, (if row.rowId = active.rowId then row.write chunk else row).position =
      row.position := fun row => by split <;> simp
  have hid : ∀ row : PendingRow, (if row.rowId = active.rowId then row.write chunk else row).rowId =
      row.rowId := fun row => by split <;> simp
  have hrow : ∀ row ∈ db.pending, row.rowId ∈ db.deliveryItems →
      row ∈ db.pending.map fun row => if row.rowId = active.rowId then row.write chunk else row := by
    intro row hrow hclaimed
    have hne : row.rowId ≠ active.rowId := fun heq => hc.unclaimed (heq ▸ hclaimed)
    exact List.mem_map.mpr ⟨row, hrow, by simp [hne]⟩
  refine ⟨⟨?_, hc.state.keeps.trans ?_, hc.state.checkpoint, hc.state.bound⟩, hc.unclaimed⟩
  · refine { hc.state.books with covered := ?_, rowIds := ?_, present := ?_ }
    · have hsame : Database.positions { db with pending := db.pending.map fun row =>
          if row.rowId = active.rowId then row.write chunk else row } = db.positions := by
        simp only [Database.positions, List.map_map, Function.comp_def, hpos]
      rw [hsame]
      exact hc.state.books.covered
    · rw [Keyed.map_key_update _ hid]
      exact hc.state.books.rowIds
    · intro id hmem
      obtain ⟨row, hin, rfl⟩ := hc.state.books.present id hmem
      exact ⟨row, hrow row hin hmem, rfl⟩
  · exact ⟨rfl, rfl, hrow, fun b hb => ⟨b, hb, rfl, rfl, rfl, rfl⟩, id⟩

theorem finish_closed {active : ActiveRecord} {occupied : Bool} (hc : Copying durable db active confirmed)
    (h : finish db active occupied = .ok db') : Closed db' confirmed ∧ Keeps durable db' := by
  simp only [finish, bind_eq_ok] at h
  obtain ⟨_, -, _, -, hcomplete⟩ := h
  exact complete_closed hc.state hcomplete

end OcppBridge.Spool
