import Mathlib.Data.List.Induction
import Mathlib.Logic.Function.Basic
import OcppBridge.Delimited
import OcppBridge.Export.Source
import OcppBridge.Spool.Worker
import OcppBridge.Transition

namespace OcppBridge.Export

open Text Transaction Transition Storage Source Function
open Spool (Durability CommittedRecordDescriptor maxPosition)

variable {s t : Source} {d : Durability} {after : Nat} {load : WriteLoad} {records : List EncodedRecord}

def Source.Absent (s : Source) (d : Durability) (p : Nat) : Prop := p ≤ s.highWater d ∧ ¬s.Retains d p

theorem mem_rowsAfter {row : CommittedRow} :
    row ∈ rowsAfter s d after ↔ row ∈ s.records ∧ row.durability = d ∧ after < row.sequence := by
  simp [rowsAfter, List.mem_insertionSort]

theorem rowsAfter_sorted (s : Source) (d : Durability) (after : Nat) :
    (rowsAfter s d after).Pairwise fun a b => a.sequence ≤ b.sequence := by
  have : Std.Total fun a b : CommittedRow => a.sequence ≤ b.sequence := ⟨fun a b => Nat.le_total _ _⟩
  have : IsTrans CommittedRow fun a b => a.sequence ≤ b.sequence := ⟨fun _ _ _ => Nat.le_trans⟩
  exact List.pairwise_insertionSort _ _

theorem position_eq_ok {cursor : Option String} (h : position s d cursor = .ok after) : after ≤ s.highWater d := by
  cases cursor with
  | none =>
      simp only [position, pure_eq_ok] at h
      omega
  | some cursor =>
      simp only [position] at h
      split at h
      · simp only [bind_eq_ok, require_eq_ok, pure_eq_ok] at h
        obtain ⟨_, hrange, rfl⟩ := h
        omega
      · simp at h

section Soundness

/-- Sequences are handed out densely and upwards, and the expired prefix stays below every retained record. -/
structure Source.Sound (s : Source) : Prop where
  generation : s.generation.utf8ByteSize ≤ 128
  expired : ∀ d, (s.streams d).expiredPrefix ≤ s.highWater d
  rows : ∀ row ∈ s.records, row.rowId ≠ 0 ∧ (s.streams row.durability).expiredPrefix < row.sequence ∧
    row.sequence ≤ s.highWater row.durability
  ordered : s.records.Pairwise fun a b => a.durability = b.durability → a.sequence < b.sequence

theorem Source.Sound.prune (h : s.Sound) (keep : CommittedRow → Bool) :
    (updateSourcePrefix { s with records := s.records.filter keep }).Sound := by
  refine ⟨h.generation, fun d => ?_, fun row hrow => ?_, h.ordered.sublist List.filter_sublist⟩
  · refine max_le (h.expired d) ?_
    cases hmin : (((s.records.filter keep).filter (·.durability = d)).map (·.sequence)).min? with
    | none => exact le_refl _
    | some first =>
        obtain ⟨row, hrow, rfl⟩ := List.mem_map.mp (List.min?_mem hmin)
        obtain ⟨hrow, hd⟩ := List.mem_filter.mp hrow
        obtain ⟨_, _, hhigh⟩ := h.rows row (List.mem_of_mem_filter hrow)
        have hd' : row.durability = d := by simpa using hd
        rw [hd'] at hhigh
        simp only [Option.map_some, Option.getD_some]
        exact (Nat.sub_le _ _).trans hhigh
  · have hmem := List.mem_of_mem_filter hrow
    obtain ⟨hid, hlow, hhigh⟩ := h.rows row hmem
    refine ⟨hid, max_lt hlow ?_, hhigh⟩
    have hin : row.sequence ∈ ((s.records.filter keep).filter (·.durability = row.durability)).map (·.sequence) :=
      List.mem_map.mpr ⟨row, List.mem_filter.mpr ⟨hrow, by simp⟩, rfl⟩
    cases hmin : (((s.records.filter keep).filter (·.durability = row.durability)).map (·.sequence)).min? with
    | none =>
        rw [List.min?_eq_none_iff.mp hmin] at hin
        cases hin
    | some first =>
        have hle : first ≤ row.sequence := (List.min?_eq_some_iff.mp hmin).2 _ hin
        simp only [Option.map_some, Option.getD_some]
        omega

theorem Source.Sound.writeRecord (h : s.Sound) {value : EncodedRecord} (hwrite : writeRecord s value = .ok t) :
    t.Sound := by
  unfold Export.writeRecord at hwrite
  split at hwrite
  · simp only [bind_eq_ok, pure_eq_ok] at hwrite
    obtain ⟨_, -, rfl⟩ := hwrite
    refine ⟨h.generation, fun d => ?_, fun row hrow => ?_, ?_⟩
    · by_cases hd : d = value.durability
      · subst hd
        simp only [highWater, update_self]
        exact (h.expired value.durability).trans (Nat.le_succ _)
      · simp only [highWater, update_of_ne hd]
        exact h.expired d
    · rcases List.mem_append.mp hrow with hrow | hrow
      · obtain ⟨hid, hlow, hhigh⟩ := h.rows row hrow
        refine ⟨hid, ?_⟩
        by_cases hd : row.durability = value.durability
        · simp only [highWater, hd, update_self] at hlow hhigh ⊢
          exact ⟨hlow, hhigh.trans (Nat.le_succ _)⟩
        · simp only [highWater, update_of_ne hd]
          exact ⟨hlow, hhigh⟩
      · rw [List.mem_singleton.mp hrow]
        simp only [highWater, update_self]
        exact ⟨Nat.succ_ne_zero _, Nat.lt_succ_of_le (h.expired value.durability), le_refl _⟩
    · refine List.pairwise_append.mpr ⟨h.ordered, List.pairwise_singleton _ _, fun a ha b hb hd => ?_⟩
      rw [List.mem_singleton.mp hb] at hd ⊢
      have hhigh := (h.rows a ha).2.2
      rw [hd] at hhigh
      exact Nat.lt_succ_of_le hhigh
  · cases hwrite

theorem makeRoom_eq_ok {S : Type} {usedBytes : S → Except StorageError Nat} {shed : S → S} {limit critical : Nat}
    {mustFit : Bool} {s t : S} {remaining : Nat}
    (h : makeRoom usedBytes shed limit critical mustFit s = .ok (t, remaining)) :
    ∃ before used, usedBytes s = .ok before ∧ usedBytes t = .ok used ∧
      t = (if mustFit ∧ limit < saturatingAdd before critical then shed s else s) ∧
      ¬(mustFit ∧ limit < saturatingAdd used critical) ∧ remaining = limit - saturatingAdd used critical := by
  simp only [makeRoom, bind_eq_ok, require_eq_ok, pure_eq_ok, Prod.mk.injEq] at h
  obtain ⟨before, hbefore, used, hused, _, hfits, rfl, rfl⟩ := h
  exact ⟨before, used, hbefore, hused, rfl, hfits, rfl⟩

theorem prepareWrite_eq_ok {kept : List EncodedRecord} (h : prepareWrite load s records = .ok (t, kept)) :
    t = s ∨ t = shedExistingBestEffort s := by
  simp only [prepareWrite, bind_eq_ok, pure_eq_ok, Prod.mk.injEq] at h
  obtain ⟨⟨⟨mid, otherBytes⟩, remaining⟩, hroom, rfl, -⟩ := h
  obtain ⟨_, _, -, -, hmid, -⟩ := makeRoom_eq_ok hroom
  split_ifs at hmid
  · exact .inr (congrArg Prod.fst hmid)
  · exact .inl (congrArg Prod.fst hmid)

theorem Source.Sound.writeRecords (h : s.Sound) (hwrite : writeRecords load s records = .ok t) : t.Sound := by
  simp only [Export.writeRecords, bind_eq_ok] at hwrite
  obtain ⟨⟨mid, kept⟩, hprepare, hfold⟩ := hwrite
  have hmid : mid.Sound := by
    rcases prepareWrite_eq_ok hprepare with rfl | rfl
    · exact h
    · exact h.prune _
  refine foldlM_invariant (P := Sound) hfold ?_ hmid
  intro value _ s t hst hs
  exact hs.writeRecord hst

end Soundness

section Pages

theorem length_le_of_increasing {xs : List Nat} {low high : Nat} (hle : low ≤ high) (hxs : xs.Pairwise (· < ·))
    (hrange : ∀ x ∈ xs, low < x ∧ x ≤ high) : low + xs.length ≤ high := by
  induction xs generalizing low with
  | nil => simpa using hle
  | cons x xs ih =>
      obtain ⟨hfirst, hrest⟩ := List.pairwise_cons.mp hxs
      obtain ⟨hlow, hhigh⟩ := hrange x (by simp)
      have hlen := ih hhigh hrest fun y hy => ⟨hfirst y hy, (hrange y (by simp [hy])).2⟩
      simp only [List.length_cons]
      omega

theorem rowsAfter_increasing (h : s.Sound) (d : Durability) (after : Nat) :
    (rowsAfter s d after).Pairwise fun a b => a.sequence < b.sequence := by
  have hdistinct : (rowsAfter s d after).Pairwise fun a b => a.sequence ≠ b.sequence := by
    refine (List.perm_insertionSort _ _).symm.pairwise ?_ Ne.symm
    have hkept : (s.records.filter fun row => row.durability = d ∧ after < row.sequence).Pairwise
        fun a b => a.durability = b.durability → a.sequence < b.sequence := h.ordered.sublist List.filter_sublist
    refine hkept.imp_of_mem fun ha hb hab => ?_
    simp only [List.mem_filter, decide_eq_true_eq] at ha hb
    exact (hab (ha.2.1.trans hb.2.1.symm)).ne
  exact ((rowsAfter_sorted s d after).and hdistinct).imp fun ⟨hle, hne⟩ => lt_of_le_of_ne hle hne

theorem collectDescriptors_eq {generation : String} {highWater : Nat} (limit last : Nat) {rows : List CommittedRow}
    (hincreasing : rows.Pairwise fun a b => a.sequence < b.sequence)
    (hrange : ∀ row ∈ rows, row.rowId ≠ 0 ∧ last < row.sequence ∧ row.sequence ≤ highWater) :
    collectDescriptors generation highWater limit last (rows.take (limit + 1)) =
      .ok ((rows.take limit).map (·.descriptor generation), ((rows.take limit).map (·.sequence)).getLastD last,
        decide (limit < rows.length)) := by
  induction limit generalizing last rows with
  | zero =>
      cases rows with
      | nil => rfl
      | cons row rows => simp [collectDescriptors, pure, Except.pure]
  | succ limit ih =>
      cases rows with
      | nil => rfl
      | cons row rows =>
          obtain ⟨hfirst, hrest⟩ := List.pairwise_cons.mp hincreasing
          have hrow := hrange row (by simp)
          have htail := ih row.sequence hrest fun r hr =>
            ⟨(hrange r (by simp [hr])).1, hfirst r hr, (hrange r (by simp [hr])).2.2⟩
          rw [List.take_succ_cons]
          simp only [collectDescriptors, bind_eq_ok, require_eq_ok, pure_eq_ok]
          refine ⟨(), hrow, _, htail, ?_⟩
          simp only [List.take_succ_cons, List.map_cons, List.getLastD_cons, List.length_cons, Nat.add_lt_add_iff_right]

/-- What a reader learns from the page that takes it from position `after` to position `next`. -/
structure Turn (s : Source) (d : Durability) (after next : Nat) (page : CommittedRecordPage) : Prop where
  resume : page.resumeCursor = cursorFront s.generation d ++ toString next
  range : after ≤ next ∧ next ≤ s.highWater d
  count : page.lostRecords + page.items.length = next - after
  increasing : (page.items.map (·.sequence)).Pairwise (· < ·)
  items : ∀ item ∈ page.items, after < item.sequence ∧ item.sequence ≤ next ∧
    ∃ row ∈ s.records, row.durability = d ∧ item = row.descriptor s.generation
  lost : ∀ p, after < p → p ≤ next → p ∉ page.items.map (·.sequence) → s.Absent d p

theorem sequence_descriptors (generation : String) (rows : List CommittedRow) :
    (rows.map (·.descriptor generation)).map (·.sequence) = rows.map (·.sequence) := by
  rw [List.map_map]
  rfl

theorem le_getLastD {xs : List Nat} {low : Nat} (hxs : xs.Pairwise (· < ·)) (hlow : ∀ x ∈ xs, low < x) :
    low ≤ xs.getLastD low ∧ ∀ x ∈ xs, x ≤ xs.getLastD low := by
  induction xs generalizing low with
  | nil => simp
  | cons x xs ih =>
      obtain ⟨hfirst, hrest⟩ := List.pairwise_cons.mp hxs
      obtain ⟨hx, hall⟩ := ih hrest hfirst
      rw [List.getLastD_cons]
      refine ⟨(hlow x (by simp)).le.trans hx, fun y hy => ?_⟩
      rcases List.mem_cons.mp hy with rfl | hy
      · exact hx
      · exact hall y hy

theorem Turn.of_rows {rows : List CommittedRow} {page : CommittedRecordPage} {next limit : Nat}
    (hincreasing : rows.Pairwise fun a b => a.sequence < b.sequence)
    (hrows : ∀ row, row ∈ rows ↔ row ∈ s.records ∧ row.durability = d ∧ after < row.sequence)
    (hhigh : ∀ row ∈ rows, row.sequence ≤ s.highWater d) (hafter : after ≤ s.highWater d)
    (hitems : page.items = (rows.take limit).map (·.descriptor s.generation))
    (hnext : next = if limit < rows.length then ((rows.take limit).map (·.sequence)).getLastD after else s.highWater d)
    (hresume : page.resumeCursor = cursorFront s.generation d ++ toString next)
    (hlost : page.lostRecords = next - after - page.items.length) : Turn s d after next page := by
  set taken := (rows.take limit).map (·.sequence)
  have hsequences : page.items.map (·.sequence) = taken := by
    rw [hitems, sequence_descriptors]
  have htaken : ∀ x ∈ taken, after < x ∧ x ≤ s.highWater d := by
    intro x hx
    obtain ⟨row, hrow, rfl⟩ := List.mem_map.mp hx
    exact ⟨((hrows row).mp (List.mem_of_mem_take hrow)).2.2, hhigh row (List.mem_of_mem_take hrow)⟩
  have hpairwise : taken.Pairwise (· < ·) :=
    List.pairwise_map.mpr (hincreasing.sublist (List.take_sublist _ _))
  obtain ⟨hlow, hlast⟩ := le_getLastD hpairwise fun x hx => (htaken x hx).1
  have hmember : taken.getLastD after ∈ after :: taken := List.getLastD_mem_cons
  have hbelow : taken.getLastD after ≤ s.highWater d := by
    rcases List.mem_cons.mp hmember with h | h
    · rw [h]
      exact hafter
    · exact (htaken _ h).2
  have hreach : after ≤ next ∧ next ≤ s.highWater d ∧ ∀ x ∈ taken, x ≤ next := by
    rw [hnext]
    split_ifs
    · exact ⟨hlow, hbelow, hlast⟩
    · exact ⟨hafter, le_refl _, fun x hx => (htaken x hx).2⟩
  refine ⟨hresume, ⟨hreach.1, hreach.2.1⟩, ?_, hsequences ▸ hpairwise, fun item hitem => ?_, fun p hp hle hnone => ?_⟩
  · have hlen := length_le_of_increasing hreach.1 hpairwise fun x hx => ⟨(htaken x hx).1, hreach.2.2 x hx⟩
    rw [← hsequences, List.length_map] at hlen
    omega
  · have hseq : item.sequence ∈ taken := hsequences ▸ List.mem_map_of_mem hitem
    rw [hitems] at hitem
    obtain ⟨row, hrow, rfl⟩ := List.mem_map.mp hitem
    obtain ⟨hmem, hd, _⟩ := (hrows row).mp (List.mem_of_mem_take hrow)
    exact ⟨(htaken _ hseq).1, hreach.2.2 _ hseq, row, hmem, hd, rfl⟩
  · refine ⟨hle.trans hreach.2.1, ?_⟩
    rintro ⟨row, hrow, hd, rfl⟩
    rw [hsequences] at hnone
    have hin : row ∈ rows := (hrows row).mpr ⟨hrow, hd, hp⟩
    rw [← List.take_append_drop limit rows] at hin hincreasing
    rcases List.mem_append.mp hin with hin | hin
    · exact hnone (List.mem_map_of_mem hin)
    · -- a row past the limit is beyond the checkpoint
      have hmore : limit < rows.length := by
        by_contra hge
        rw [List.drop_eq_nil_of_le (by omega)] at hin
        cases hin
      have hbeyond : taken.getLastD after < row.sequence := by
        rcases List.mem_cons.mp hmember with h | h
        · rw [h]
          exact hp
        · obtain ⟨earlier, hearlier, heq⟩ := List.mem_map.mp h
          rw [← heq]
          exact (List.pairwise_append.mp hincreasing).2.2 earlier hearlier row hin
      rw [hnext, if_pos hmore] at hle
      omega

theorem readRecords_turn (h : s.Sound) {query : CommittedRecordQuery}
    (hafter : position s query.durability query.after = .ok after) :
    ∃ next page, readRecords s query = .ok page ∧ Turn s query.durability after next page := by
  have hle : after ≤ s.highWater query.durability := position_eq_ok hafter
  have hincreasing := rowsAfter_increasing h query.durability after
  have hrange : ∀ row ∈ rowsAfter s query.durability after,
      row.rowId ≠ 0 ∧ after < row.sequence ∧ row.sequence ≤ s.highWater query.durability := by
    intro row hrow
    obtain ⟨hmem, hdur, hlow⟩ := mem_rowsAfter.mp hrow
    obtain ⟨hid, _, hhigh⟩ := h.rows row hmem
    exact ⟨hid, hlow, hdur ▸ hhigh⟩
  have hcollect : collectDescriptors s.generation (s.highWater query.durability) query.limit after
      ((rowsAfter s query.durability after).take (query.limit + 1)) = .ok _ :=
    collectDescriptors_eq query.limit after hincreasing hrange
  set rows := rowsAfter s query.durability after with hrows
  set next := if query.limit < rows.length then ((rows.take query.limit).map (·.sequence)).getLastD after
    else s.highWater query.durability with hnext
  let page : CommittedRecordPage := {
    items := (rows.take query.limit).map (·.descriptor s.generation)
    sourceGeneration := s.generation
    resumeCursor := cursorFront s.generation query.durability ++ toString next
    hasMore := decide (query.limit < rows.length)
    highWater := s.highWater query.durability
    expiredPrefix := (s.streams query.durability).expiredPrefix
    lostRecords := next - after - (rows.take query.limit).length
    legacyBaselineIncomplete := s.legacyBaselineIncomplete }
  have hturn : Turn s query.durability after next page :=
    .of_rows hincreasing (fun _ => mem_rowsAfter) (fun row hrow => (hrange row hrow).2.2) hle rfl hnext rfl
      (by simp [page])
  refine ⟨next, page, ?_, hturn⟩
  have hfits : after + (rows.take query.limit).length ≤ next := by
    have hcount : next - after - (rows.take query.limit).length + ((rows.take query.limit).map _).length =
      next - after :=
      hturn.count
    have hreach := hturn.range.1
    rw [List.length_map] at hcount
    omega
  simp only [readRecords, bind_eq_ok, require_eq_ok, pure_eq_ok]
  refine ⟨(), h.generation, (), h.expired _, after, hafter, _, hcollect, (), ?_, ?_⟩
  · simpa [hnext] using hfits
  · simp [page, hnext]

theorem readRecords_fails (h : s.Sound) (query : CommittedRecordQuery) :
    Fails (· = cursorOutside) (readRecords s query) := by
  intro e he
  cases hafter : position s query.durability query.after with
  | ok after =>
      obtain ⟨_, _, hok, _⟩ := readRecords_turn h hafter
      cases hok.symm.trans he
  | error e' =>
      have hposition : Fails (· = cursorOutside) (position s query.durability query.after) := by
        cases query.after with
        | none => exact .pure 0
        | some cursor =>
            simp only [position]
            split
            · exact .bind (.require fun _ => rfl) fun _ _ => .pure _
            · exact .error rfl
      have hread : readRecords s query = .error e' := by
        rw [readRecords, hafter]
        simp only [require, if_pos h.generation, if_pos (h.expired query.durability)]
        rfl
      obtain rfl : e' = e := by simpa using hread.symm.trans he
      exact hposition e' hafter

end Pages

section Growth

/-- The source keeps its identity, its positions stay handed out, and each new one was given to a record. -/
structure Extends (s t : Source) : Prop where
  generation : t.generation = s.generation
  high : ∀ d, s.highWater d ≤ t.highWater d
  filled : ∀ d p, s.highWater d < p → p ≤ t.highWater d → t.Retains d p

theorem Extends.refl (s : Source) : Extends s s :=
  ⟨rfl, fun _ => le_refl _, fun _ _ hlow hhigh => absurd hhigh (not_le_of_gt hlow)⟩

theorem Extends.prune (s : Source) (keep : CommittedRow → Bool) :
    Extends s (updateSourcePrefix { s with records := s.records.filter keep }) :=
  ⟨rfl, fun _ => le_refl _, fun _ _ hlow hhigh => absurd hhigh (not_le_of_gt hlow)⟩

theorem writeRecord_extends {value : EncodedRecord} (h : writeRecord s value = .ok t) :
    Extends s t ∧ s.records ⊆ t.records := by
  unfold writeRecord at h
  split at h
  · simp only [bind_eq_ok, pure_eq_ok] at h
    obtain ⟨_, -, rfl⟩ := h
    refine ⟨⟨rfl, fun d => ?_, fun d p hlow hhigh => ?_⟩, List.subset_append_left _ _⟩
    · by_cases hd : d = value.durability
      · subst hd
        simp [highWater]
      · simp [highWater, update_of_ne hd]
    · by_cases hd : d = value.durability
      · subst hd
        simp only [highWater, update_self] at hlow hhigh
        exact ⟨_, List.mem_append_right _ (List.mem_singleton_self _), rfl, by simp only [highWater]; omega⟩
      · simp only [highWater, update_of_ne hd] at hlow hhigh
        omega
  · cases h

theorem writeRecords_extends (h : writeRecords load s records = .ok t) : Extends s t := by
  simp only [writeRecords, bind_eq_ok] at h
  obtain ⟨⟨mid, kept⟩, hprepare, hfold⟩ := h
  have hmid : mid.generation = s.generation ∧ ∀ d, mid.highWater d = s.highWater d := by
    rcases prepareWrite_eq_ok hprepare with rfl | rfl
    · exact ⟨rfl, fun _ => rfl⟩
    · exact ⟨rfl, fun _ => rfl⟩
  have hwrites : Extends mid t ∧ mid.records ⊆ t.records := by
    refine foldlM_rel (R := fun s t => Extends s t ∧ s.records ⊆ t.records) ?_ ?_ kept ?_ hfold
    · exact fun s => ⟨.refl s, List.Subset.refl _⟩
    · rintro s t u ⟨h, hsub⟩ ⟨h', hsub'⟩
      refine ⟨⟨h'.generation.trans h.generation, fun d => (h.high d).trans (h'.high d), fun d p hlow hhigh => ?_⟩,
        List.Subset.trans hsub hsub'⟩
      by_cases hp : p ≤ t.highWater d
      · obtain ⟨row, hrow, hfound⟩ := h.filled d p hlow hp
        exact ⟨row, hsub' hrow, hfound⟩
      · exact h'.filled d p (by omega) hhigh
    · exact fun _ _ _ _ => writeRecord_extends
  obtain ⟨⟨hgeneration, hhigh, hfilled⟩, _⟩ := hwrites
  exact ⟨hgeneration.trans hmid.1, fun d => hmid.2 d ▸ hhigh d, fun d p => hmid.2 d ▸ hfilled d p⟩

end Growth

section Reading

/-- The source of a new database, named by sixteen random bytes in lower-case hexadecimal. -/
def Source.create (nonce : Vector UInt8 16) : Source where
  generation := String.ofList (nonce.toList.flatMap Delimited.hexByte)
  legacyBaselineIncomplete := false
  streams _ := ⟨0, 0, Nat.zero_le _⟩
  records := []
  lastRowId := 0

/-- The operational store writes and prunes while the reader follows one stream. -/
inductive Action
  | write (load : WriteLoad) (records : List EncodedRecord)
  | maintain (now : Int)
  | read (limit : Nat)

structure Reader where
  source : Source
  cursor : Option String
  items : List CommittedRecordDescriptor

namespace Reader

def start (nonce : Vector UInt8 16) : Reader := ⟨.create nonce, none, []⟩

def step (d : Durability) (r : Reader) : Action → Reader
  | .write load records =>
      match writeRecords load r.source records with
      | .ok source => { r with source }
      | .error _ => r
  | .maintain now => { r with source := Export.maintain r.source now }
  | .read limit =>
      match readRecords r.source ⟨r.cursor, limit, d⟩ with
      | .ok page => { r with cursor := some page.resumeCursor, items := r.items ++ page.items }
      | .error _ => r

def run (nonce : Vector UInt8 16) (d : Durability) (actions : List Action) : Reader :=
  actions.foldl (step d) (start nonce)

/-- The reader stands at position `at_` of the stream, behind which lies everything it was given. -/
structure Stands (d : Durability) (r : Reader) (at_ : Nat) : Prop where
  sound : r.source.Sound
  cursor : position r.source d r.cursor = .ok at_
  behind : ∀ item ∈ r.items, item.sequence ≤ at_
  increasing : (r.items.map (·.sequence)).Pairwise (· < ·)

theorem start_stands (nonce : Vector UInt8 16) (d : Durability) : Stands d (start nonce) 0 := by
  refine ⟨⟨?_, fun _ => le_refl _, fun _ h => absurd h List.not_mem_nil, .nil⟩, rfl,
    fun _ h => absurd h List.not_mem_nil, .nil⟩
  refine (utf8ByteSize_ofList_le _).trans ?_
  simp [List.length_flatMap, Delimited.hexByte]

variable {r : Reader} {at_ : Nat}

theorem Stands.extend (h : Stands d r at_) (hsound : t.Sound) (hextends : Extends r.source t) :
    Stands d { r with source := t } at_ := by
  refine ⟨hsound, ?_, h.behind, h.increasing⟩
  have hcursor := h.cursor
  cases hc : r.cursor with
  | none =>
      rw [hc] at hcursor
      exact hcursor
  | some cursor =>
      rw [hc] at hcursor
      simp only [position, hextends.generation] at hcursor ⊢
      split at hcursor
      · next p hp =>
          simp only [bind_eq_ok, require_eq_ok, pure_eq_ok] at hcursor
          obtain ⟨_, ⟨hlow, hhigh⟩, hat⟩ := hcursor
          have hle := hextends.high d
          simp only [hp, bind_eq_ok, require_eq_ok, pure_eq_ok]
          exact ⟨(), ⟨hlow, by omega⟩, hat⟩
      · cases hcursor

theorem position_front {next : Nat} (h : next ≤ s.highWater d) :
    position s d (some (cursorFront s.generation d ++ toString next)) = .ok next := by
  have hmax : s.highWater d ≤ 2 ^ 63 - 1 := (s.streams d).fits
  have hparse := parseSigned_repr (n := next) (by omega)
  simp only [position, stripPrefix_append, Option.bind_some, hparse, bind_eq_ok, require_eq_ok, pure_eq_ok]
  exact ⟨(), ⟨Int.natCast_nonneg next, Int.ofNat_le.mpr h⟩, rfl⟩

theorem Stands.read (h : Stands d r at_) {page : CommittedRecordPage} {next : Nat}
    (hturn : Turn r.source d at_ next page) :
    Stands d { r with cursor := some page.resumeCursor, items := r.items ++ page.items } next := by
  refine ⟨h.sound, ?_, fun item hitem => ?_, ?_⟩
  · rw [hturn.resume]
    exact position_front hturn.range.2
  · rcases List.mem_append.mp hitem with hitem | hitem
    · exact (h.behind item hitem).trans hturn.range.1
    · exact (hturn.items item hitem).2.1
  · rw [List.map_append]
    refine List.pairwise_append.mpr ⟨h.increasing, hturn.increasing, fun a ha b hb => ?_⟩
    obtain ⟨old, hold, rfl⟩ := List.mem_map.mp ha
    obtain ⟨new, hnew, rfl⟩ := List.mem_map.mp hb
    exact (h.behind old hold).trans_lt (hturn.items new hnew).1

theorem step_stands (h : Stands d r at_) (action : Action) :
    (∃ next, Stands d (r.step d action) next) ∧ Extends r.source (r.step d action).source := by
  cases action with
  | write load records =>
      simp only [step]
      split
      · next t ht => exact ⟨⟨at_, h.extend (h.sound.writeRecords ht) (writeRecords_extends ht)⟩,
          writeRecords_extends ht⟩
      · exact ⟨⟨at_, h⟩, .refl _⟩
  | maintain now => exact ⟨⟨at_, h.extend (h.sound.prune _) (.prune _ _)⟩, .prune _ _⟩
  | read limit =>
      obtain ⟨next, page, hread, hturn⟩ : ∃ next page, readRecords r.source ⟨r.cursor, limit, d⟩ = .ok page ∧
        Turn r.source d at_ next page := readRecords_turn h.sound h.cursor
      simp only [step, hread]
      exact ⟨⟨next, h.read hturn⟩, .refl _⟩

theorem run_stands (nonce : Vector UInt8 16) (d : Durability) (actions : List Action) :
    ∃ at_, Stands d (run nonce d actions) at_ := by
  refine run_invariant (P := fun r => ∃ at_, Stands d r at_) ?_ actions ⟨0, start_stands nonce d⟩
  rintro r action ⟨at_, h⟩
  exact (step_stands h action).1

theorem run_filled (nonce : Vector UInt8 16) (d : Durability) (actions : List Action) {p : Nat} (hp : 0 < p)
    (hle : p ≤ (run nonce d actions).source.highWater d) :
    ∃ before, before <+: actions ∧ (run nonce d before).source.Retains d p := by
  induction actions using List.reverseRecOn with
  | nil => exact absurd hle (by simp [run, start, create, highWater]; omega)
  | append_singleton actions action ih =>
      obtain ⟨at_, h⟩ := run_stands nonce d actions
      have hrun : run nonce d (actions ++ [action]) = (run nonce d actions).step d action := by
        simp [run, List.foldl_append]
      rw [hrun] at hle
      by_cases hold : p ≤ (run nonce d actions).source.highWater d
      · obtain ⟨before, hbefore, hretains⟩ := ih hold
        exact ⟨before, hbefore.trans (List.prefix_append _ _), hretains⟩
      · refine ⟨actions ++ [action], List.prefix_refl _, ?_⟩
        rw [hrun]
        exact (step_stands h action).2.filled d p (by omega) hle

/-- A reader that follows the resume cursor gets each record of its stream at most once and in order. -/
theorem run_reader (nonce : Vector UInt8 16) (d : Durability) (actions : List Action) :
    let r := run nonce d actions
    (r.items.map (·.sequence)).Pairwise (· < ·) ∧
    (∀ e, (r.source.streams e).expiredPrefix ≤ r.source.highWater e ∧
      ∀ row ∈ r.source.records, row.durability = e → (r.source.streams e).expiredPrefix < row.sequence) ∧
    (∀ query e, readRecords r.source query = .error e → e = cursorOutside) ∧
    (∀ limit, ∃ after next page, position r.source d r.cursor = .ok after ∧
      readRecords r.source ⟨r.cursor, limit, d⟩ = .ok page ∧
      position r.source d (some page.resumeCursor) = .ok next ∧ after ≤ next ∧
      page.lostRecords + page.items.length = next - after ∧
      (∀ item ∈ page.items, after < item.sequence ∧ item.sequence ≤ next ∧
        ∃ row ∈ r.source.records, row.durability = d ∧ item = row.descriptor r.source.generation) ∧
      ∀ p, after < p → p ≤ next → p ∉ page.items.map (·.sequence) →
        ¬r.source.Retains d p ∧ ∃ before, before <+: actions ∧ (run nonce d before).source.Retains d p) := by
  intro r
  obtain ⟨after, h⟩ := run_stands nonce d actions
  refine ⟨h.increasing, fun e => ⟨h.sound.expired e, ?_⟩, fun query e => readRecords_fails h.sound query e,
    fun limit => ?_⟩
  · rintro row hrow rfl
    exact (h.sound.rows row hrow).2.1
  · obtain ⟨next, page, hread, hturn⟩ : ∃ next page, readRecords r.source ⟨r.cursor, limit, d⟩ = .ok page ∧
      Turn r.source d after next page := readRecords_turn h.sound h.cursor
    refine ⟨after, next, page, h.cursor, hread, ?_, hturn.range.1, hturn.count, hturn.items,
      fun p hlow hhigh hnone => ?_⟩
    · rw [hturn.resume]
      exact position_front hturn.range.2
    · obtain ⟨hle, hgone⟩ := hturn.lost p hlow hhigh hnone
      exact ⟨hgone, run_filled nonce d actions (by omega) hle⟩

end Reader

end Reading

end OcppBridge.Export
