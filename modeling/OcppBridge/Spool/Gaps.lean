import OcppBridge.Keyed
import OcppBridge.Spans
import OcppBridge.Spool.Progress

namespace OcppBridge.Spool

open Spans Transaction ExportGap

def ExportGap.positions (gap : ExportGap) : List Nat := span gap.first gap.last

def gapPositions (gaps : List ExportGap) (d : Durability) : List Nat :=
  (gaps.filter (·.durability = d)).flatMap positions

/-- Recorded gaps are intervals of positive positions, and no position lies in two of them. -/
structure GapTable (gaps : List ExportGap) : Prop where
  proper : ∀ g ∈ gaps, 1 ≤ g.first ∧ g.first ≤ g.last
  nodup : ∀ d, (gapPositions gaps d).Nodup

@[simp] theorem gapPositions_nil (d : Durability) : gapPositions [] d = [] := rfl

@[simp] theorem gapPositions_append (xs ys : List ExportGap) (d : Durability) :
    gapPositions (xs ++ ys) d = gapPositions xs d ++ gapPositions ys d := by
  simp [gapPositions]

theorem gapPositions_singleton (g : ExportGap) (d : Durability) :
    gapPositions [g] d = if g.durability = d then g.positions else [] := by
  by_cases hd : g.durability = d <;> simp [gapPositions, hd]

theorem gapPositions_cons (g : ExportGap) (gaps : List ExportGap) (d : Durability) :
    gapPositions (g :: gaps) d = gapPositions [g] d ++ gapPositions gaps d :=
  gapPositions_append [g] gaps d

theorem gapPositions_perm {xs ys : List ExportGap} (h : xs.Perm ys) (d : Durability) :
    (gapPositions xs d).Perm (gapPositions ys d) :=
  (h.filter _).flatMap_right _

variable {gaps : List ExportGap} {g gap : ExportGap} {o : Option ExportGap} {limits : Limits}

theorem mem_gapPositions {d : Durability} {p : Nat} :
    p ∈ gapPositions gaps d ↔ ∃ g ∈ gaps, g.durability = d ∧ g.first ≤ p ∧ p ≤ g.last := by
  simp [gapPositions, positions, and_assoc]

def ExportGap.key (g : ExportGap) : Durability × Nat := (g.durability, g.first)

theorem GapTable.tail (h : GapTable (g :: gaps)) : GapTable gaps where
  proper x hx := h.proper x (by simp [hx])
  nodup d := by
    have hd := h.nodup d
    rw [gapPositions_cons] at hd
    exact hd.of_append_right

theorem GapTable.keys_nodup (h : GapTable gaps) : (gaps.map key).Nodup := by
  induction gaps with
  | nil => simp
  | cons g gaps ih =>
      rw [List.map_cons, List.nodup_cons]
      refine ⟨?_, ih h.tail⟩
      intro hmem
      obtain ⟨g', hg', hkey⟩ := List.mem_map.mp hmem
      simp only [key, Prod.mk.injEq] at hkey
      have hg := h.proper g (by simp)
      have hp := h.proper g' (by simp [hg'])
      have hd := h.nodup g.durability
      rw [gapPositions_cons, List.nodup_append] at hd
      have hfirst : g.first ∈ gapPositions [g] g.durability :=
        mem_gapPositions.mpr ⟨g, by simp, rfl, le_rfl, hg.2⟩
      have hfirst' : g.first ∈ gapPositions gaps g.durability :=
        mem_gapPositions.mpr ⟨g', hg', hkey.1, by omega, by omega⟩
      exact hd.2.2 _ hfirst _ hfirst' rfl

theorem deleteGap_perm (hk : (gaps.map key).Nodup) (ho : ∀ g ∈ o, g ∈ gaps) :
    gaps.Perm (o.toList ++ deleteGap gaps o) := by
  cases o with
  | none => simp [deleteGap]
  | some g =>
      have hperm := Keyed.perm_cons_delete hk (ho g rfl)
      simpa [deleteGap, key, Prod.ext_iff] using hperm

theorem mem_deleteGap (h : g ∈ deleteGap gaps o) : g ∈ gaps := by
  cases o with
  | none => exact h
  | some _ => exact List.mem_of_mem_filter h

theorem lowerGap_spec (h : g ∈ lowerGap gaps gap) :
    g ∈ gaps ∧ g.durability = gap.durability ∧ g.last = gap.first - 1 ∧ g.reason = gap.reason := by
  simp only [lowerGap, Option.mem_def, Option.filter_eq_some_iff, decide_eq_true_eq] at h
  obtain ⟨hfind, hreason⟩ := h
  have hprop := List.find?_some hfind
  simp only [decide_eq_true_eq] at hprop
  exact ⟨List.mem_of_find?_eq_some hfind, hprop.1, hprop.2, hreason⟩

theorem upperGap_spec (h : g ∈ upperGap gaps gap) :
    g ∈ gaps ∧ g.durability = gap.durability ∧ g.first = gap.last + 1 ∧ g.reason = gap.reason := by
  unfold upperGap at h
  split at h
  · simp only [Option.mem_def, Option.filter_eq_some_iff, decide_eq_true_eq] at h
    obtain ⟨hfind, hreason⟩ := h
    have hprop := List.find?_some hfind
    simp only [decide_eq_true_eq] at hprop
    exact ⟨List.mem_of_find?_eq_some hfind, hprop.1, hprop.2, hreason⟩
  · simp at h

/-- The gap row that replaces `gap` and its two absorbed neighbours. -/
def combined (gaps : List ExportGap) (gap : ExportGap) : ExportGap :=
  ⟨gap.durability, ((lowerGap gaps gap).map (·.first)).getD gap.first,
    ((upperGap gaps gap).map (·.last)).getD gap.last, gap.reason⟩

def uncombined (gaps : List ExportGap) (gap : ExportGap) : List ExportGap :=
  deleteGap (deleteGap gaps (lowerGap gaps gap)) (upperGap gaps gap)

theorem insertGap_eq_ok {db db' : Database} (h : insertGap limits db gap = .ok db') :
    (1 ≤ gap.first ∧ gap.first ≤ gap.last) ∧ (∀ g ∈ db.gaps, ¬g.overlaps gap) ∧
      db' = { db with gaps := uncombined db.gaps gap ++ [combined db.gaps gap] } := by
  simp only [insertGap, bind_eq_ok, require_eq_ok, pure_eq_ok] at h
  obtain ⟨_, hrange, _, hover, _, _, hdb⟩ := h
  refine ⟨⟨by omega, hrange.2.2.2⟩, ?_, hdb.symm⟩
  intro g hg hgap
  exact hover ⟨g, hg, hgap⟩

theorem combined_bounds (h : GapTable gaps) (hgap : 1 ≤ gap.first ∧ gap.first ≤ gap.last) :
    1 ≤ (combined gaps gap).first ∧ (combined gaps gap).first ≤ gap.first ∧
      gap.last ≤ (combined gaps gap).last := by
  refine ⟨?_, ?_, ?_⟩
  · cases hl : lowerGap gaps gap with
    | none => simpa [combined, hl] using hgap.1
    | some g => simpa [combined, hl] using (h.proper g (lowerGap_spec hl).1).1
  · cases hl : lowerGap gaps gap with
    | none => simp [combined, hl]
    | some g =>
        have hg := h.proper g (lowerGap_spec hl).1
        have hlast := (lowerGap_spec hl).2.2.1
        simp only [combined, hl, Option.map_some, Option.getD_some]
        omega
  · cases hu : upperGap gaps gap with
    | none => simp [combined, hu]
    | some g =>
        have hg := h.proper g (upperGap_spec hu).1
        have hfirst := (upperGap_spec hu).2.2.1
        simp only [combined, hu, Option.map_some, Option.getD_some]
        omega

theorem combined_positions (h : GapTable gaps) (hgap : 1 ≤ gap.first ∧ gap.first ≤ gap.last) :
    (combined gaps gap).positions = (lowerGap gaps gap).toList.flatMap positions ++
      gap.positions ++ (upperGap gaps gap).toList.flatMap positions := by
  have hlow : span ((lowerGap gaps gap).map (·.first) |>.getD gap.first) gap.last =
      (lowerGap gaps gap).toList.flatMap positions ++ gap.positions := by
    cases hl : lowerGap gaps gap with
    | none => simp [positions]
    | some g =>
        have hg := h.proper g (lowerGap_spec hl).1
        have hlast := (lowerGap_spec hl).2.2.1
        have hjoin : gap.first = g.last + 1 := by omega
        simp only [Option.map_some, Option.getD_some, Option.toList_some, List.flatMap_cons,
          List.flatMap_nil, List.append_nil, positions]
        rw [hjoin, span_append (by omega) (by omega)]
  cases hu : upperGap gaps gap with
  | none => simpa [combined, hu, positions] using hlow
  | some g =>
      have hg := h.proper g (upperGap_spec hu).1
      have hfirst := (upperGap_spec hu).2.2.1
      have hbounds := combined_bounds h hgap
      simp only [combined] at hbounds
      rw [← hlow]
      simp only [combined, hu, positions, Option.map_some, Option.getD_some, Option.toList_some,
        List.flatMap_cons, List.flatMap_nil, List.append_nil]
      rw [hfirst, span_append (by omega) (by omega)]

theorem uncombined_perm (h : GapTable gaps) (hgap : 1 ≤ gap.first ∧ gap.first ≤ gap.last) :
    gaps.Perm ((lowerGap gaps gap).toList ++ ((upperGap gaps gap).toList ++ uncombined gaps gap)) := by
  have hlower := deleteGap_perm h.keys_nodup (o := lowerGap gaps gap) fun g hg => (lowerGap_spec hg).1
  have hkeys : ((deleteGap gaps (lowerGap gaps gap)).map key).Nodup := by
    have := (hlower.map key).nodup_iff.mp h.keys_nodup
    rw [List.map_append] at this
    exact this.of_append_right
  have hupper := deleteGap_perm hkeys (o := upperGap gaps gap) (by
    intro g hg
    have hu := upperGap_spec hg
    rcases List.mem_append.mp (hlower.mem_iff.mp hu.1) with hmem | hmem
    · -- the lower neighbour ends before the gap, the upper one starts after it
      have hl := lowerGap_spec (Option.mem_toList.mp hmem)
      have hg := h.proper g hu.1
      omega
    · exact hmem)
  exact hlower.trans (hupper.append_left _)

theorem gapPositions_toList {d d' : Durability} (ho : ∀ g ∈ o, g.durability = d') :
    gapPositions o.toList d = if d' = d then o.toList.flatMap positions else [] := by
  cases o with
  | none => simp
  | some g =>
      rw [Option.toList_some, gapPositions_singleton, ho g rfl]
      simp

theorem insertGap_positions {db db' : Database} (ht : GapTable db.gaps) (h : insertGap limits db gap = .ok db')
    (d : Durability) : (gapPositions db'.gaps d).Perm (gapPositions db.gaps d ++ gapPositions [gap] d) := by
  obtain ⟨hgap, -, rfl⟩ := insertGap_eq_ok h
  have hold := gapPositions_perm (uncombined_perm ht hgap) d
  have hlower : gapPositions (lowerGap db.gaps gap).toList d = if gap.durability = d then
      (lowerGap db.gaps gap).toList.flatMap positions else [] :=
    gapPositions_toList fun g hg => (lowerGap_spec hg).2.1
  have hupper : gapPositions (upperGap db.gaps gap).toList d = if gap.durability = d then
      (upperGap db.gaps gap).toList.flatMap positions else [] :=
    gapPositions_toList fun g hg => (upperGap_spec hg).2.1
  have hnew : gapPositions [combined db.gaps gap] d =
      if gap.durability = d then (combined db.gaps gap).positions else [] := gapPositions_singleton _ _
  rw [gapPositions_append, gapPositions_append, hlower, hupper] at hold
  rw [gapPositions_append, hnew, gapPositions_singleton]
  by_cases hd : gap.durability = d
  · simp only [hd, if_true] at hold ⊢
    rw [combined_positions ht hgap]
    refine List.Perm.trans ?_ (hold.symm.append_right _)
    rw [List.perm_iff_count]
    intro p
    simp only [List.count_append]
    omega
  · simp only [hd, if_false, List.nil_append, List.append_nil] at hold ⊢
    exact hold.symm

theorem insertGap_table {db db' : Database} (ht : GapTable db.gaps) (h : insertGap limits db gap = .ok db') :
    GapTable db'.gaps := by
  have hpos := insertGap_positions ht h
  obtain ⟨hgap, hover, rfl⟩ := insertGap_eq_ok h
  refine ⟨?_, ?_⟩
  · intro g hg
    rcases List.mem_append.mp hg with hg | hg
    · exact ht.proper g (mem_deleteGap (mem_deleteGap hg))
    · have hbounds := combined_bounds ht hgap
      rw [List.mem_singleton.mp hg]
      omega
  · intro d
    rw [(hpos d).nodup_iff, List.nodup_append]
    refine ⟨ht.nodup d, ?_, ?_⟩
    · rw [gapPositions_singleton]
      split
      · exact nodup_span _ _
      · exact List.nodup_nil
    · intro p hp q hq hpq
      obtain ⟨g, hg, hgd, hgp⟩ := mem_gapPositions.mp hp
      obtain ⟨g', hg', hgd', hgp'⟩ := mem_gapPositions.mp hq
      rw [List.mem_singleton.mp hg'] at hgd' hgp'
      exact hover g hg ⟨hgd.trans hgd'.symm, by omega, by omega⟩

theorem insertGap_mem {db db' : Database} (h : insertGap limits db gap = .ok db') (hg : g ∈ db'.gaps) :
    g ∈ db.gaps ∨ (g.durability = gap.durability ∧ g.reason = gap.reason) := by
  obtain ⟨-, -, rfl⟩ := insertGap_eq_ok h
  rcases List.mem_append.mp hg with hg | hg
  · exact .inl (mem_deleteGap (mem_deleteGap hg))
  · rw [List.mem_singleton.mp hg]
    exact .inr ⟨rfl, rfl⟩

end OcppBridge.Spool
