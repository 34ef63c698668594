import OcppBridge.Spool.Gaps

namespace OcppBridge.Spool

open Spans Transaction

variable {limits : Limits} {db db' : Database} {gaps : List ExportGap} {gap g g' : ExportGap}

def sourceRows (gaps : List ExportGap) : Nat := gaps.countP (·.reason = .sourceExpired)

def otherRows (gaps : List ExportGap) : Nat := gaps.countP (·.reason ≠ .sourceExpired)

def Recorded (gaps : List ExportGap) (d : Durability) (reason : ExportGapReason) (p : Nat) : Prop :=
  ∃ g ∈ gaps, g.durability = d ∧ g.reason = reason ∧ g.first ≤ p ∧ p ≤ g.last

def ExportGap.meets (g g' : ExportGap) : Prop :=
  g.durability = g'.durability ∧ g.reason = g'.reason ∧ g.last + 1 = g'.first

structure Insertable (gaps : List ExportGap) (gap : ExportGap) : Prop where
  positive : 1 ≤ gap.first
  proper : gap.first ≤ gap.last
  bounded : gap.last ≤ maxPosition
  apart : ∀ g ∈ gaps, ¬g.overlaps gap

theorem length_rows : gaps.length = sourceRows gaps + otherRows gaps := by
  rw [sourceRows, otherRows, List.length_eq_countP_add_countP (·.reason = .sourceExpired)]
  simp

section Recorded

variable {d : Durability} {reason : ExportGapReason} {p : Nat}

theorem recorded_append {xs ys : List ExportGap} :
    Recorded (xs ++ ys) d reason p ↔ Recorded xs d reason p ∨ Recorded ys d reason p := by
  simp only [Recorded, List.mem_append, or_and_right, exists_or]

theorem recorded_perm {xs ys : List ExportGap} (h : xs.Perm ys) : Recorded xs d reason p ↔ Recorded ys d reason p := by
  simp only [Recorded, h.mem_iff]

theorem recorded_alike {xs : List ExportGap} (h : ∀ x ∈ xs, x.durability = gap.durability ∧ x.reason = gap.reason) :
    Recorded xs d reason p ↔ gap.durability = d ∧ gap.reason = reason ∧ p ∈ xs.flatMap ExportGap.positions := by
  simp only [Recorded, List.mem_flatMap, ExportGap.positions, mem_span]
  constructor
  · rintro ⟨x, hx, rfl, rfl, hp⟩
    exact ⟨(h x hx).1.symm, (h x hx).2.symm, x, hx, hp⟩
  · rintro ⟨rfl, rfl, x, hx, hp⟩
    exact ⟨x, hx, (h x hx).1, (h x hx).2, hp⟩

end Recorded

section Neighbours

theorem GapTable.eq_of_position (h : GapTable gaps) (hg : g ∈ gaps) (hg' : g' ∈ gaps)
    (hd : g.durability = g'.durability) {p : Nat} (hp : g.first ≤ p ∧ p ≤ g.last)
    (hp' : g'.first ≤ p ∧ p ≤ g'.last) : g = g' := by
  by_contra hne
  have hpairs := (List.nodup_flatMap.mp (h.nodup g.durability)).2
  have : Std.Symm (Function.onFun List.Disjoint ExportGap.positions) := ⟨fun _ _ hab _ hp hq => hab hq hp⟩
  have hdisjoint := hpairs.forall (List.mem_filter.mpr ⟨hg, decide_eq_true rfl⟩)
    (List.mem_filter.mpr ⟨hg', decide_eq_true hd.symm⟩) hne
  exact hdisjoint (mem_span.mpr hp) (mem_span.mpr hp')

theorem lowerGap_of_meets (h : GapTable gaps) (hg : g ∈ gaps) (hmeets : g.meets gap) : lowerGap gaps gap = some g := by
  obtain ⟨hd, hreason, hlast⟩ := hmeets
  have hproper := h.proper g hg
  have hfind : gaps.find? (fun x => x.durability = gap.durability ∧ x.last = gap.first - 1) = some g := by
    refine Keyed.find_of_unique hg (decide_eq_true ⟨hd, by omega⟩) fun x hx hfound => ?_
    obtain ⟨hxd, hxlast⟩ := of_decide_eq_true hfound
    have hx' := h.proper x hx
    exact h.eq_of_position hx hg (hxd.trans hd.symm) (p := g.last) ⟨by omega, by omega⟩ ⟨hproper.2, le_rfl⟩
  rw [lowerGap, hfind]
  simp [hreason]

theorem upperGap_of_meets (h : GapTable gaps) (hg : g ∈ gaps) (hbound : g.last ≤ maxPosition) (hmeets : gap.meets g) :
    upperGap gaps gap = some g := by
  obtain ⟨hd, hreason, hfirst⟩ := hmeets
  have hproper := h.proper g hg
  have hfind : gaps.find? (fun x => x.durability = gap.durability ∧ x.first = gap.last + 1) = some g := by
    refine Keyed.find_of_unique hg (decide_eq_true ⟨hd.symm, hfirst.symm⟩) fun x hx hfound => ?_
    obtain ⟨hxd, hxfirst⟩ := of_decide_eq_true hfound
    have hx' := h.proper x hx
    exact h.eq_of_position hx hg (hxd.trans hd) (p := g.first) ⟨by omega, by omega⟩ ⟨le_rfl, hproper.2⟩
  rw [upperGap, if_pos (by omega), hfind]
  simp [hreason]

end Neighbours

section Counts

theorem countP_uncombined (h : GapTable gaps) (hgap : 1 ≤ gap.first ∧ gap.first ≤ gap.last)
    (p : ExportGapReason → Bool) :
    gaps.countP (fun g => p g.reason) = (uncombined gaps gap).countP (fun g => p g.reason) +
      if p gap.reason then (lowerGap gaps gap).toList.length + (upperGap gaps gap).toList.length else 0 := by
  have hcount {o : Option ExportGap} (ho : ∀ g ∈ o, g.reason = gap.reason) :
      o.toList.countP (fun g => p g.reason) = if p gap.reason then o.toList.length else 0 := by
    cases o with
    | none => simp
    | some x => simp [List.countP_cons, ho x rfl]
  rw [(uncombined_perm h hgap).countP_eq, List.countP_append, List.countP_append,
    hcount fun g hg => (lowerGap_spec hg).2.2.2, hcount fun g hg => (upperGap_spec hg).2.2.2]
  split_ifs <;> omega

theorem checkGapCapacity_eq_ok {reason : ExportGapReason} :
    checkGapCapacity limits gaps reason = .ok () ↔
      gaps.length < if reason = .sourceExpired then limits.gapSlots else limits.gapSlots - (2 - sourceRows gaps) := by
  rw [checkGapCapacity, require_eq_ok]
  rfl

theorem insertGap_checked (h : insertGap limits db gap = .ok db') :
    Insertable db.gaps gap ∧ checkGapCapacity limits (uncombined db.gaps gap) gap.reason = .ok () := by
  have hover := (insertGap_eq_ok h).2.1
  simp only [insertGap, bind_eq_ok, require_eq_ok, pure_eq_ok] at h
  obtain ⟨_, hrange, _, _, _, hcapacity, _⟩ := h
  exact ⟨⟨by omega, hrange.2.2.2, hrange.2.1, hover⟩, hcapacity⟩

theorem insertGap_accepted (h : Insertable db.gaps gap)
    (hcapacity : checkGapCapacity limits (uncombined db.gaps gap) gap.reason = .ok ()) :
    ∃ db', insertGap limits db gap = .ok db' := by
  have hrange : gap.first ≤ maxPosition ∧ gap.last ≤ maxPosition ∧ gap.first ≠ 0 ∧ gap.first ≤ gap.last := by
    have := h.positive
    have := h.proper
    have := h.bounded
    omega
  have hover : ¬∃ g ∈ db.gaps, g.overlaps gap := fun ⟨g, hg, ho⟩ => h.apart g hg ho
  refine ⟨{ db with gaps := uncombined db.gaps gap ++ [combined db.gaps gap] }, ?_⟩
  simp only [insertGap, bind_eq_ok, require_eq_ok, pure_eq_ok]
  exact ⟨(), hrange, (), hover, (), hcapacity, rfl⟩

end Counts

structure GapSlots (limits : Limits) (gaps : List ExportGap) : Prop where
  table : GapTable gaps
  bounded : ∀ g ∈ gaps, g.last ≤ maxPosition
  total : gaps.length ≤ limits.gapSlots
  others : otherRows gaps ≤ limits.gapSlots - 2
  coalesced : ∀ g ∈ gaps, ∀ g' ∈ gaps, ¬g.meets g'

namespace GapSlots

theorem nil : GapSlots limits [] where
  table := ⟨fun _ h => absurd h List.not_mem_nil, fun _ => List.nodup_nil⟩
  bounded _ h := absurd h List.not_mem_nil
  total := Nat.zero_le _
  others := Nat.zero_le _
  coalesced _ h := absurd h List.not_mem_nil

variable (h : GapSlots limits gaps)
include h

theorem source_fits (hi : Insertable gaps gap) (hslots : 2 ≤ limits.gapSlots) (hsource : gap.reason = .sourceExpired)
    (hfew : sourceRows gaps < 2) : checkGapCapacity limits (uncombined gaps gap) gap.reason = .ok () := by
  have hlength := countP_uncombined h.table ⟨hi.positive, hi.proper⟩ fun _ => true
  simp only [List.countP_true, if_true] at hlength
  have hrows : gaps.length = sourceRows gaps + otherRows gaps := length_rows
  have hothers := h.others
  rw [checkGapCapacity_eq_ok, if_pos hsource]
  omega

theorem neighbour_fits (hi : Insertable gaps gap) (hg : g ∈ gaps) (hmeets : g.meets gap ∨ gap.meets g) :
    checkGapCapacity limits (uncombined gaps gap) gap.reason = .ok () := by
  have habsorbed : 0 < (lowerGap gaps gap).toList.length + (upperGap gaps gap).toList.length := by
    rcases hmeets with hlower | hupper
    · rw [lowerGap_of_meets h.table hg hlower, Option.toList_some, List.length_singleton]
      omega
    · rw [upperGap_of_meets h.table hg (h.bounded g hg) hupper, Option.toList_some, List.length_singleton]
      omega
  have hlength := countP_uncombined h.table ⟨hi.positive, hi.proper⟩ fun _ => true
  have hothers := countP_uncombined h.table ⟨hi.positive, hi.proper⟩ fun r => r ≠ .sourceExpired
  have hrows : (uncombined gaps gap).length = sourceRows (uncombined gaps gap) + otherRows (uncombined gaps gap) :=
    length_rows
  have htotal := h.total
  have hbound := h.others
  simp only [List.countP_true, if_true] at hlength
  rw [checkGapCapacity_eq_ok]
  simp only [otherRows] at hbound hrows
  split_ifs with hreason
  · omega
  · rw [if_pos (decide_eq_true hreason)] at hothers
    omega

end GapSlots

section Insertion

variable (hslots : 2 ≤ limits.gapSlots) (h : GapSlots limits db.gaps) (hinsert : insertGap limits db gap = .ok db')
include h hinsert

theorem insertGap_coalesced (hg : g ∈ db'.gaps) (hg' : g' ∈ db'.gaps) : ¬g.meets g' := by
  have hi := (insertGap_checked hinsert).1
  obtain ⟨hgap, _, rfl⟩ := insertGap_eq_ok hinsert
  have hbounds := combined_bounds h.table hgap
  have hkept {x : ExportGap} (hx : x ∈ uncombined db.gaps gap) : x ∈ db.gaps := mem_deleteGap (mem_deleteGap hx)
  rintro ⟨hd, hreason, hnext⟩
  rcases List.mem_append.mp hg with hold | hnew
  · rcases List.mem_append.mp hg' with hold' | hnew'
    · exact h.coalesced g (hkept hold) g' (hkept hold') ⟨hd, hreason, hnext⟩
    · -- the row below the new one would have been absorbed, or would have met the absorbed row
      rw [List.mem_singleton.mp hnew'] at hd hreason hnext
      cases hlower : lowerGap db.gaps gap with
      | none =>
          simp only [combined, hlower, Option.map_none, Option.getD_none] at hd hreason hnext
          rw [lowerGap_of_meets h.table (hkept hold) ⟨hd, hreason, hnext⟩] at hlower
          cases hlower
      | some l =>
          have hl := lowerGap_spec hlower
          simp only [combined, hlower, Option.map_some, Option.getD_some] at hd hreason hnext
          exact h.coalesced g (hkept hold) l hl.1 ⟨hd.trans hl.2.1.symm, hreason.trans hl.2.2.2.symm, hnext⟩
  · rw [List.mem_singleton.mp hnew] at hd hreason hnext
    rcases List.mem_append.mp hg' with hold' | hnew'
    · cases hupper : upperGap db.gaps gap with
      | none =>
          simp only [combined, hupper, Option.map_none, Option.getD_none] at hd hreason hnext
          rw [upperGap_of_meets h.table (hkept hold') (h.bounded _ (hkept hold')) ⟨hd, hreason, hnext⟩] at hupper
          cases hupper
      | some u =>
          have hu := upperGap_spec hupper
          simp only [combined, hupper, Option.map_some, Option.getD_some] at hd hreason hnext
          exact h.coalesced u hu.1 g' (hkept hold') ⟨hu.2.1.trans hd, hu.2.2.2.trans hreason, hnext⟩
    · rw [List.mem_singleton.mp hnew'] at hnext
      omega

theorem insertGap_bounded (hg : g ∈ db'.gaps) : g.last ≤ maxPosition := by
  have hi := (insertGap_checked hinsert).1
  obtain ⟨_, _, rfl⟩ := insertGap_eq_ok hinsert
  rcases List.mem_append.mp hg with hold | hnew
  · exact h.bounded g (mem_deleteGap (mem_deleteGap hold))
  · rw [List.mem_singleton.mp hnew]
    cases hupper : upperGap db.gaps gap with
    | none => simpa [combined, hupper] using hi.bounded
    | some u => simpa [combined, hupper] using h.bounded u (upperGap_spec hupper).1

include hslots in
theorem insertGap_slots : GapSlots limits db'.gaps := by
  have hcoalesced : ∀ g ∈ db'.gaps, ∀ g' ∈ db'.gaps, ¬g.meets g' :=
    fun g hg g' hg' => insertGap_coalesced h hinsert hg hg'
  have hbounded : ∀ g ∈ db'.gaps, g.last ≤ maxPosition := fun g hg => insertGap_bounded h hinsert hg
  have htable := insertGap_table h.table hinsert
  obtain ⟨_, hcapacity⟩ := insertGap_checked hinsert
  obtain ⟨hgap, _, rfl⟩ := insertGap_eq_ok hinsert
  have hothers := countP_uncombined h.table hgap fun r => r ≠ .sourceExpired
  have hrows : (uncombined db.gaps gap).length =
      sourceRows (uncombined db.gaps gap) + otherRows (uncombined db.gaps gap) := length_rows
  have hbound := h.others
  rw [checkGapCapacity_eq_ok] at hcapacity
  simp only [otherRows] at hbound hrows
  refine ⟨htable, hbounded, ?_, ?_, hcoalesced⟩
  · rw [List.length_append, List.length_singleton]
    split_ifs at hcapacity <;> omega
  · have hnew : (combined db.gaps gap).reason = gap.reason := rfl
    rw [otherRows, List.countP_append, List.countP_singleton, hnew]
    by_cases hreason : gap.reason = .sourceExpired
    · rw [if_neg (by simp [hreason])] at hothers ⊢
      omega
    · rw [if_neg hreason] at hcapacity
      rw [if_pos (decide_eq_true hreason)] at hothers ⊢
      omega

theorem insertGap_recorded (d : Durability) (reason : ExportGapReason) (p : Nat) :
    Recorded db'.gaps d reason p ↔ Recorded db.gaps d reason p ∨ Recorded [gap] d reason p := by
  obtain ⟨hgap, _, rfl⟩ := insertGap_eq_ok hinsert
  have hlower : Recorded (lowerGap db.gaps gap).toList d reason p ↔ _ :=
    recorded_alike fun x hx =>
      have hx := lowerGap_spec (Option.mem_toList.mp hx)
      ⟨hx.2.1, hx.2.2.2⟩
  have hupper : Recorded (upperGap db.gaps gap).toList d reason p ↔ _ :=
    recorded_alike fun x hx =>
      have hx := upperGap_spec (Option.mem_toList.mp hx)
      ⟨hx.2.1, hx.2.2.2⟩
  have hnew : Recorded [combined db.gaps gap] d reason p ↔ gap.durability = d ∧ gap.reason = reason ∧ _ :=
    recorded_alike fun x hx => List.mem_singleton.mp hx ▸ ⟨rfl, rfl⟩
  have hgiven : Recorded [gap] d reason p ↔ gap.durability = d ∧ gap.reason = reason ∧ _ :=
    recorded_alike fun x hx => List.mem_singleton.mp hx ▸ ⟨rfl, rfl⟩
  rw [recorded_append, recorded_perm (uncombined_perm h.table hgap), recorded_append, recorded_append, hlower,
    hupper, hnew, hgiven]
  simp only [List.flatMap_cons, List.flatMap_nil, List.append_nil, combined_positions h.table hgap, List.mem_append]
  rw [← and_assoc, ← and_assoc, ← and_assoc, ← and_assoc]
  by_cases halike : gap.durability = d ∧ gap.reason = reason
  · simp only [halike, and_self, true_and]
    constructor
    · rintro (hkept | (hlow | hself) | hup)
      exacts [.inl (.inr (.inr hkept)), .inl (.inl hlow), .inr hself, .inl (.inr (.inl hup))]
    · rintro ((hlow | hup | hkept) | hself)
      exacts [.inr (.inl (.inl hlow)), .inr (.inr hup), .inl hkept, .inr (.inl (.inr hself))]
  · simp only [halike, false_and, or_false, false_or]

end Insertion

theorem insertGaps_slots (hslots : 2 ≤ limits.gapSlots) {inserted : List ExportGap} (h : GapSlots limits db.gaps)
    (hrun : inserted.foldlM (insertGap limits) db = .ok db') :
    GapSlots limits db'.gaps ∧ ∀ d reason p,
      Recorded db'.gaps d reason p ↔ Recorded db.gaps d reason p ∨ Recorded inserted d reason p := by
  induction inserted generalizing db with
  | nil =>
      rw [List.foldlM_nil, pure_eq_ok] at hrun
      subst hrun
      exact ⟨h, fun d reason p => by simp [Recorded]⟩
  | cons gap inserted ih =>
      rw [List.foldlM_cons, bind_eq_ok] at hrun
      obtain ⟨mid, hmid, hrest⟩ := hrun
      obtain ⟨hslots', hall⟩ := ih (insertGap_slots hslots h hmid) hrest
      refine ⟨hslots', fun d reason p => ?_⟩
      rw [hall, insertGap_recorded h hmid, or_assoc, ← recorded_append, List.singleton_append]

/-- The gap summary stays within its slots, keeps the reserve for source loss, and is exact. -/
theorem gap_summary_exact {limits : Limits} (hslots : 2 ≤ limits.gapSlots) (inserted : List ExportGap)
    {db db' : Database} (hempty : db.gaps = []) (hrun : inserted.foldlM (insertGap limits) db = .ok db') :
    db'.gaps.length ≤ limits.gapSlots ∧ otherRows db'.gaps ≤ limits.gapSlots - 2 ∧
    (∀ gap, gap.reason = .sourceExpired → sourceRows db'.gaps < 2 → Insertable db'.gaps gap →
      ∃ next, insertGap limits db' gap = .ok next) ∧
    (∀ gap, ∀ g ∈ db'.gaps, g.meets gap ∨ gap.meets g → Insertable db'.gaps gap →
      ∃ next, insertGap limits db' gap = .ok next) ∧
    (∀ g ∈ db'.gaps, ∀ g' ∈ db'.gaps, ¬g.meets g') ∧
    ∀ d reason p, Recorded db'.gaps d reason p ↔ Recorded inserted d reason p := by
  obtain ⟨h, hall⟩ := insertGaps_slots hslots (hempty ▸ GapSlots.nil) hrun
  refine ⟨h.total, h.others, fun gap hreason hfew hi => ?_, fun gap g hg hmeets hi => ?_, h.coalesced,
    fun d reason p => ?_⟩
  · exact insertGap_accepted hi (h.source_fits hi hslots hreason hfew)
  · exact insertGap_accepted hi (h.neighbour_fits hi hg hmeets)
  · rw [hall, hempty]
    simp [Recorded]

/-- With two slots both are reserved: source loss is recorded and absorbed, a dropped record is refused. -/
theorem sample_gap_summary :
    let limits : Limits := ⟨0, 2⟩
    let db' : Database := { Database.empty with gaps := [⟨.critical, 1, 9, .sourceExpired⟩] }
    [⟨.critical, 1, 4, .sourceExpired⟩, ⟨.critical, 5, 9, .sourceExpired⟩].foldlM (insertGap limits) .empty = .ok db' ∧
      db'.gaps.length ≤ limits.gapSlots ∧ otherRows db'.gaps ≤ 0 ∧
      insertGap limits db' ⟨.bestEffortTelemetry, 1, 1, .telemetryDropped⟩ =
        .error ⟨.summaryFull, "exact export gap summary reserve is full"⟩ := by
  intro limits db'
  have hrun : [⟨.critical, 1, 4, .sourceExpired⟩, ⟨.critical, 5, 9, .sourceExpired⟩].foldlM (insertGap limits) .empty =
      .ok db' := rfl
  have hexact := gap_summary_exact (by decide) _ rfl hrun
  exact ⟨hrun, hexact.1, hexact.2.1, rfl⟩

end OcppBridge.Spool
