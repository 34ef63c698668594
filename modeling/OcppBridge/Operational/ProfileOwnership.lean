import OcppBridge.Transition
import OcppBridge.Operational.Change

namespace OcppBridge.Operational

open Storage Transaction Relation Table

namespace ProfileFootprint

theorem conflicts_self (f : ProfileFootprint) : f.conflicts f = false := by simp [conflicts]

theorem conflicts_comm (f g : ProfileFootprint) : f.conflicts g = g.conflicts f := by
  have hoverlaps : f.overlaps g = g.overlaps f := Bool.and_comm _ _
  simp only [conflicts, hoverlaps]
  grind

end ProfileFootprint

namespace ProfileLedger

variable {l l' l'' : ProfileLedger} {state : ProfileOwnershipState} {result : CommandResult}

structure Sound (l : ProfileLedger) : Prop where
  bounded : ∀ station, (l.ofStation station).length ≤ maxProfileFootprints
  disjoint : ∀ r ∈ l.footprints, ∀ r' ∈ l.footprints, r.station = r'.station →
    r.footprint.conflicts r'.footprint = false
  single : ∀ m ∈ l.mutations, ∀ m' ∈ l.mutations, m.station = m'.station → m = m'
  reserved : ∀ r ∈ l.footprints, r.state = .reserved → ∃ m ∈ l.mutations, m.request = r.owner ∧ m.station = r.station ∧
    ∃ fullNative, m.mutation = .set r.footprint fullNative

theorem Sound.empty : Sound empty where
  bounded _ := Nat.zero_le _
  disjoint _ hr := absurd hr not_mem_empty
  single _ hm := absurd hm not_mem_empty
  reserved _ hr := absurd hr not_mem_empty

section Thinning

/-- Footprints are only dropped or given another state, and none is reserved again. -/
structure Thins (l l' : ProfileLedger) : Prop where
  length : ∀ station, (l'.ofStation station).length ≤ (l.ofStation station).length
  origin : ∀ r' ∈ l'.footprints, ∃ r ∈ l.footprints, r.station = r'.station ∧ r.owner = r'.owner ∧
    r.footprint = r'.footprint ∧ (r'.state = .reserved → r.state = .reserved)

theorem Thins.trans (h : Thins l l') (h' : Thins l' l'') : Thins l l'' := by
  refine ⟨fun station => le_trans (h'.length station) (h.length station), fun r'' hr'' => ?_⟩
  obtain ⟨r', hr', hs', ho', hf', hstate'⟩ := h'.origin r'' hr''
  obtain ⟨r, hr, hs, ho, hf, hstate⟩ := h.origin r' hr'
  exact ⟨r, hr, hs.trans hs', ho.trans ho', hf.trans hf', fun h => hstate (hstate' h)⟩

theorem keep_thins (l : ProfileLedger) (p : FootprintRow → Bool) :
    Thins l { l with footprints := l.footprints.keep p } :=
  ⟨fun _ => (List.filter_sublist.filter _).length_le, fun r hr => ⟨r, (mem_keep.mp hr).1, rfl, rfl, rfl, id⟩⟩

theorem mem_mark {row : MutationRow} {r' : FootprintRow} :
    r' ∈ (l.mark row state).footprints ↔
      ∃ r ∈ l.footprints, (if r.key = (row.station, row.request) then { r with state } else r) = r' :=
  List.mem_map

theorem mark_thins (l : ProfileLedger) (row : MutationRow) (hstate : state ≠ .reserved) :
    Thins l (l.mark row state) := by
  constructor
  · intro station
    simp only [mark, ofStation, update, List.filter_map, List.length_map]
    apply le_of_eq
    congr 1
    apply List.filter_congr
    intro r _
    simp only [Function.comp]
    split_ifs <;> rfl
  · intro r' hr'
    obtain ⟨r, hr, rfl⟩ := mem_mark.mp hr'
    refine ⟨r, hr, ?_⟩
    split_ifs
    · exact ⟨rfl, rfl, rfl, fun h => absurd h hstate⟩
    · exact ⟨rfl, rfl, rfl, id⟩

theorem releaseCandidate_thins (l : ProfileLedger) (row : MutationRow) : Thins l (l.releaseCandidate row) :=
  keep_thins l _

theorem finishSet_thins (l : ProfileLedger) (row : MutationRow) (profileId : Int) :
    Thins l (l.finishSet row profileId) :=
  (keep_thins l _).trans (mark_thins _ row (by simp))

theorem clearKnown_thins {row : MutationRow} {clear : ClearChargingProfileRequest201}
    (h : l.clearKnown row clear = .ok l') : Thins l l' ∧ l'.mutations = l.mutations := by
  simp only [clearKnown, bind_eq_ok, pure_eq_ok] at h
  obtain ⟨_, _, rfl⟩ := h
  obtain ⟨hlength, horigin⟩ := keep_thins l fun r => r.station ≠ row.station || !r.footprint.matchesClear clear
  exact ⟨⟨hlength, horigin⟩, rfl⟩

end Thinning

section Preservation

theorem Sound.of_thins (hs : Sound l) (ht : Thins l l')
    (hmutations : ∀ m' ∈ l'.mutations, ∃ m ∈ l.mutations, m.request = m'.request ∧ m.station = m'.station)
    (hreserved : ∀ r' ∈ l'.footprints, r'.state = .reserved → ∀ m ∈ l.mutations, m.request = r'.owner →
      m.station = r'.station → ∃ m' ∈ l'.mutations, m'.request = m.request ∧ m'.station = m.station ∧
        m'.mutation = m.mutation) : Sound l' where
  bounded station := le_trans (ht.length station) (hs.bounded station)
  disjoint r hr r' hr' hstation := by
    obtain ⟨q, hq, hqs, _, hqf, _⟩ := ht.origin r hr
    obtain ⟨q', hq', hqs', _, hqf', _⟩ := ht.origin r' hr'
    rw [← hqf, ← hqf']
    exact hs.disjoint q hq q' hq' (by rw [hqs, hqs', hstation])
  single m hm m' hm' hstation := by
    obtain ⟨n, hn, hnr, hns⟩ := hmutations m hm
    obtain ⟨n', hn', hnr', hns'⟩ := hmutations m' hm'
    have heq : n = n' := hs.single n hn n' hn' (by rw [hns, hns', hstation])
    exact eq_of_key hm hm' (by rw [← hnr, ← hnr', heq])
  reserved r' hr' hstate := by
    obtain ⟨r, hr, hrs, hro, hrf, hrstate⟩ := ht.origin r' hr'
    obtain ⟨m, hm, hmr, hms, fullNative, hset⟩ := hs.reserved r hr (hrstate hstate)
    obtain ⟨m', hm', hr, hs, hmutation⟩ := hreserved r' hr' hstate m hm (hmr.trans hro) (hms.trans hrs)
    exact ⟨m', hm', by rw [hr, hmr, hro], by rw [hs, hms, hrs], fullNative, by rw [hmutation, hset, hrf]⟩

variable {row : MutationRow} {station : StationKey}

theorem Sound.close (hs : Sound l) (ht : Thins l l') (hm : l'.mutations = l.mutations) (hrow : row ∈ l.mutations)
    (hown : ∀ r ∈ l'.footprints, r.key = (row.station, row.request) → r.state ≠ .reserved) : Sound (l'.close row) := by
  refine hs.of_thins ⟨ht.length, ht.origin⟩ ?_ ?_
  · intro m hm'
    have hmem := (mem_keep.mp hm').1
    rw [hm] at hmem
    exact ⟨m, hmem, rfl, rfl⟩
  · intro r hr hstate m hm' hmr hms
    refine ⟨m, mem_keep.mpr ⟨hm ▸ hm', ?_⟩, rfl, rfl, rfl⟩
    rw [decide_eq_true_eq]
    intro hrequest
    have heq : m = row := eq_of_key hm' hrow hrequest
    exact hown r hr (by rw [FootprintRow.key, ← hms, ← hmr, heq]) hstate

theorem mark_not_reserved (hstate : state ≠ .reserved) :
    ∀ r ∈ (l.mark row state).footprints, r.key = (row.station, row.request) → r.state ≠ .reserved := by
  intro r' hr' hkey
  obtain ⟨r, _, rfl⟩ := mem_mark.mp hr'
  split_ifs at hkey ⊢ with hk
  · exact hstate
  · exact absurd hkey hk

theorem releaseCandidate_not_reserved :
    ∀ r ∈ (l.releaseCandidate row).footprints, r.key = (row.station, row.request) → r.state ≠ .reserved := by
  intro r hr hkey
  have hkeep := (mem_keep.mp hr).2
  simpa [hkey] using hkeep

namespace Sound

variable (hs : Sound l)

include hs

theorem fence (hrow : row ∈ l.mutations) : Sound (l.fence row) := by
  unfold ProfileLedger.fence
  split_ifs
  · exact hs.close (mark_thins l row (by simp)) rfl hrow (mark_not_reserved (by simp))
  · exact hs.close (releaseCandidate_thins l row) rfl hrow releaseCandidate_not_reserved

theorem start (hrow : row ∈ l.mutations) : Sound (l.start row) := by
  refine hs.of_thins ⟨fun _ => le_refl _, fun r hr => ⟨r, hr, rfl, rfl, rfl, id⟩⟩ ?_ ?_
  · intro m hm
    rcases mem_replace.mp hm with ⟨hm, _⟩ | ⟨rfl, _⟩
    · exact ⟨m, hm, rfl, rfl⟩
    · exact ⟨row, hrow, rfl, rfl⟩
  · intro r _ _ m hm _ _
    by_cases hrequest : m.request = row.request
    · obtain rfl : m = row := eq_of_key hm hrow hrequest
      exact ⟨_, mem_replace.mpr (.inr ⟨rfl, m, hm, rfl⟩), rfl, rfl, rfl⟩
    · exact ⟨m, mem_replace.mpr (.inl ⟨hm, hrequest⟩), rfl, rfl, rfl⟩

theorem finishClear {clear : ClearChargingProfileRequest201} {accepted : Bool}
    {evidence : Option ChargingProfileResult201} (hrow : row ∈ l.mutations)
    (hclear : row.mutation = .clear clear) (h : l.finishClear row clear accepted evidence = .ok l') :
    Sound (l'.close row) := by
  have hthins : Thins l l' ∧ l'.mutations = l.mutations := by
    unfold ProfileLedger.finishClear at h
    split_ifs at h
    · exact clearKnown_thins h
    · cases h
      exact ⟨releaseCandidate_thins l row, rfl⟩
  refine hs.close hthins.1 hthins.2 hrow ?_
  intro r hr hkey hstate
  obtain ⟨q, hq, hqs, hqo, _, hqstate⟩ := hthins.1.origin r hr
  obtain ⟨m, hm, hmr, _, _, hset⟩ := hs.reserved q hq (hqstate hstate)
  have heq : m = row := eq_of_key hm hrow (by rw [hmr, hqo]; exact congrArg Prod.snd hkey)
  rw [heq, hclear] at hset
  cases hset

theorem finish (h : l.finish result = .ok l') : Sound l' := by
  unfold ProfileLedger.finish at h
  split at h
  · cases h
    exact hs
  · next row hfind =>
      have hrow := (find?_eq_some.mp hfind).1
      simp only [bind_eq_ok] at h
      obtain ⟨_, _, h⟩ := h
      split at h
      · cases h
        exact hs
      · cases h
        exact hs.start hrow
      · cases h
        exact hs.close (mark_thins l row (by simp)) rfl hrow (mark_not_reserved (by simp))
      · cases h
        exact hs.close (finishSet_thins l row _) rfl hrow (mark_not_reserved (by simp))
      · cases h
        exact hs.close (releaseCandidate_thins l row) rfl hrow releaseCandidate_not_reserved
      · next accepted error clear _ hclear =>
          simp only [bind_eq_ok, pure_eq_ok] at h
          obtain ⟨cleared, hfinish, rfl⟩ := h
          exact hs.finishClear hrow hclear hfinish
      · cases h
        exact hs.close (releaseCandidate_thins l row) rfl hrow releaseCandidate_not_reserved

theorem retireEnded {snapshot : StationSnapshot} (h : l.retireEnded snapshot = .ok l') : Sound l' := by
  simp only [ProfileLedger.retireEnded] at h
  split_ifs at h
  · cases h
    exact hs
  · simp only [bind_eq_ok, pure_eq_ok] at h
    obtain ⟨_, _, _, _, rfl⟩ := h
    exact hs.of_thins (keep_thins l _) (fun m hm => ⟨m, hm, rfl, rfl⟩) fun _ _ _ m hm _ _ => ⟨m, hm, rfl, rfl, rfl⟩

end Sound

theorem read_eq_ok {rows : List FootprintRow} (h : l.read station = .ok rows) : rows = l.ofStation station := by
  simp only [read, bind_eq_ok, require_eq_ok, pure_eq_ok] at h
  obtain ⟨_, hle, rfl⟩ := h
  apply List.take_of_length_le
  rw [List.length_take] at hle
  omega

theorem validateSet_eq_ok {resourceGrant requiresBaseline fullNative : Bool} {snapshot : Option StationSnapshot}
    {footprint : ProfileFootprint}
    (h : l.validateSet station resourceGrant snapshot requiresBaseline footprint fullNative = .ok ()) :
    (l.ofStation station).length < maxProfileFootprints ∧
      ∀ r ∈ l.ofStation station, r.footprint.conflicts footprint = false := by
  simp only [validateSet, bind_eq_ok, require_eq_ok] at h
  obtain ⟨_, _, rows, hread, _, hlength, _, _, _, _, _, hconflicts, _⟩ := h
  rw [read_eq_ok hread] at hlength hconflicts
  exact ⟨hlength, hconflicts⟩

theorem insert_eq_ok {reservation : ProfileReservation} (h : l.insert station reservation = .ok l') :
    (∀ m ∈ l.mutations, m.request ≠ reservation.requestId ∧ m.station ≠ station) ∧
      l'.baseline = l.baseline ∧
      l'.mutations = l.mutations.put ⟨reservation.requestId, station, reservation.connection, false,
        reservation.mutation⟩ ∧
      ((∃ footprint fullNative, reservation.mutation = .set footprint fullNative ∧
          l.footprints.find? (station, reservation.requestId) = none ∧
          l'.footprints = l.footprints.put ⟨station, reservation.requestId, .reserved, footprint⟩) ∨
        ((∃ clear, reservation.mutation = .clear clear) ∧ l'.footprints = l.footprints)) := by
  unfold insert at h
  cases hmutation : reservation.mutation with
  | set footprint fullNative =>
      simp only [hmutation, bind_eq_ok, require_eq_ok, pure_eq_ok] at h
      obtain ⟨_, hnone, _, rfl, _, hunique, rfl⟩ := h
      exact ⟨hunique, rfl, rfl, .inl ⟨footprint, fullNative, rfl, by simpa using hnone, rfl⟩⟩
  | clear clear =>
      simp only [hmutation, bind_eq_ok, require_eq_ok, pure_eq_ok] at h
      obtain ⟨_, rfl, _, hunique, rfl⟩ := h
      exact ⟨hunique, rfl, rfl, .inr ⟨⟨clear, rfl⟩, rfl⟩⟩

theorem Sound.insert {reservation : ProfileReservation} (hs : Sound l)
    (hset : ∀ footprint fullNative, reservation.mutation = .set footprint fullNative →
      (l.ofStation station).length < maxProfileFootprints ∧
        ∀ r ∈ l.ofStation station, r.footprint.conflicts footprint = false)
    (h : l.insert station reservation = .ok l') : Sound l' := by
  obtain ⟨hunique, _, hmutations, hfootprints⟩ := insert_eq_ok h
  have hmem : ∀ {m}, m ∈ l'.mutations ↔
      m ∈ l.mutations ∨ m = ⟨reservation.requestId, station, reservation.connection, false, reservation.mutation⟩ := by
    intro m
    rw [hmutations, mem_put]
    exact or_congr_left (and_iff_left_of_imp fun hm => (hunique m hm).1)
  have hsingle : ∀ m ∈ l'.mutations, ∀ m' ∈ l'.mutations, m.station = m'.station → m = m' := by
    intro m hm m' hm' hstation
    rcases hmem.mp hm with hm | rfl <;> rcases hmem.mp hm' with hm' | rfl
    · exact hs.single m hm m' hm' hstation
    · exact absurd hstation (hunique m hm).2
    · exact absurd hstation.symm (hunique m' hm').2
    · rfl
  have hold : ∀ r ∈ l.footprints, r.state = .reserved → ∃ m ∈ l'.mutations, m.request = r.owner ∧
      m.station = r.station ∧ ∃ fullNative, m.mutation = .set r.footprint fullNative := by
    intro r hr hstate
    obtain ⟨m, hm, hmr⟩ := hs.reserved r hr hstate
    exact ⟨m, hmem.mpr (.inl hm), hmr⟩
  rcases hfootprints with ⟨footprint, fullNative, hmutation, hnone, hput⟩ | ⟨_, hsame⟩
  · obtain ⟨hlength, hfree⟩ := hset footprint fullNative hmutation
    have hrows : l'.footprints.rows = l.footprints.rows ++
        [⟨station, reservation.requestId, .reserved, footprint⟩] := by
      rw [hput]
      exact rows_put hnone
    have hr' : ∀ {r}, r ∈ l'.footprints ↔
        r ∈ l.footprints ∨ r = ⟨station, reservation.requestId, .reserved, footprint⟩ := by
      intro r
      simp [mem_def, hrows]
    have hnew : ∀ r ∈ l.footprints, r.station = station → r.footprint.conflicts footprint = false :=
      fun r hr hstation => hfree r (List.mem_filter.mpr ⟨hr, by simpa using hstation⟩)
    refine ⟨fun st => ?_, fun r hr q hq hstation => ?_, hsingle, fun r hr hstate => ?_⟩
    · have hbound := hs.bounded st
      simp only [ofStation, hrows, List.filter_append, List.length_append] at hbound hlength ⊢
      by_cases hst : station = st
      · subst hst
        simp only [decide_true, List.filter_cons_of_pos, List.filter_nil, List.length_cons, List.length_nil]
        omega
      · simpa [hst] using hbound
    · rcases hr'.mp hr with hr | rfl <;> rcases hr'.mp hq with hq | rfl
      · exact hs.disjoint r hr q hq hstation
      · exact hnew r hr hstation
      · rw [ProfileFootprint.conflicts_comm]
        exact hnew q hq hstation.symm
      · exact ProfileFootprint.conflicts_self _
    · rcases hr'.mp hr with hr | rfl
      · exact hold r hr hstate
      · exact ⟨_, hmem.mpr (.inr rfl), rfl, rfl, fullNative, hmutation⟩
  · refine ⟨?_, ?_, hsingle, ?_⟩
    · simpa only [ofStation, hsame] using hs.bounded
    · simpa only [hsame] using hs.disjoint
    · simpa only [hsame] using hold

end Preservation

section Baseline

def NamesOnly (clear : ClearChargingProfileRequest201) (purpose : ChargingProfilePurpose201) : Prop :=
  clear.chargingProfileId = none ∧ clear.chargingProfileCriteria = some ⟨none, some purpose, none⟩

variable {clear : ClearChargingProfileRequest201}

theorem namesOnly_of_baselinePurpose {purpose : ChargingProfilePurpose201} (h : baselinePurpose clear = some purpose) :
    NamesOnly clear purpose := by
  unfold baselinePurpose at h
  split_ifs at h with hid
  obtain ⟨⟨evseId, named, stackLevel⟩, hcriteria, h⟩ := Option.bind_eq_some_iff.mp h
  split_ifs at h with hscope
  simp only [not_or, Option.not_isSome_iff_eq_none] at hid hscope
  obtain ⟨rfl, rfl⟩ := hscope
  exact ⟨hid, by rw [hcriteria]; simp_all⟩

def Answers (result : CommandResult) (clear : ClearChargingProfileRequest201) : Prop :=
  ∃ status reason, result.chargingProfile201 = some (.clearChargingProfile clear status reason) ∧
    result.lifecycle.answered (status = .accepted) = true

theorem clearKnown_baseline {row : MutationRow} (h : l.clearKnown row clear = .ok l') :
    l.baseline ⊆ l'.baseline ∧
      ∀ bit ∈ l'.baseline, bit ∉ l.baseline → bit.1 = row.station ∧ NamesOnly clear bit.2 := by
  simp only [clearKnown, bind_eq_ok, pure_eq_ok] at h
  obtain ⟨_, _, rfl⟩ := h
  simp only
  split
  · next purpose hpurpose =>
      split_ifs
      · exact ⟨List.Subset.refl _, fun _ hbit hnot => absurd hbit hnot⟩
      · refine ⟨List.subset_append_left _ _, fun bit hbit hnot => ?_⟩
        obtain rfl := List.mem_singleton.mp ((List.mem_append.mp hbit).resolve_left hnot)
        exact ⟨rfl, namesOnly_of_baselinePurpose hpurpose⟩
  · exact ⟨List.Subset.refl _, fun _ hbit hnot => absurd hbit hnot⟩

theorem answers_of_validate {accepted : Bool} {error : Option CommandError}
    (hlifecycle : result.lifecycle = .protocolResponse accepted error)
    (hvalid : validateAcknowledgement (.clear clear) result = .ok ())
    (h : (accepted || purposeUnknown clear result.chargingProfile201) = true) : Answers result clear := by
  simp only [validateAcknowledgement, bind_eq_ok, require_eq_ok] at hvalid
  obtain ⟨_, hall, hsome⟩ := hvalid
  cases hevidence : result.chargingProfile201 with
  | none =>
      simp only [hevidence, purposeUnknown, Bool.or_false] at h
      subst h
      simp [hlifecycle, hevidence, CommandLifecycle.answered, ProfileMutation.isCanonical] at hsome
  | some evidence =>
      simp only [hevidence, Option.all_some, Bool.and_eq_true] at hall
      cases evidence with
      | setChargingProfile => cases hall.1
      | clearChargingProfile request status reason =>
          obtain rfl : clear = request := by simpa [acknowledges] using hall.1
          exact ⟨status, reason, hevidence, hall.2⟩

theorem finish_baseline (h : l.finish result = .ok l') :
    l.baseline ⊆ l'.baseline ∧
      ∀ bit ∈ l'.baseline, bit ∉ l.baseline → ∃ m ∈ l.mutations, m.request = result.request ∧ m.station = bit.1 ∧
        ∃ clear, m.mutation = .clear clear ∧ NamesOnly clear bit.2 ∧ Answers result clear := by
  have hsame : ∀ {l'' : ProfileLedger}, l''.baseline = l.baseline → l.baseline ⊆ l''.baseline ∧
      ∀ bit ∈ l''.baseline, bit ∉ l.baseline → ∃ m ∈ l.mutations, m.request = result.request ∧ m.station = bit.1 ∧
        ∃ clear, m.mutation = .clear clear ∧ NamesOnly clear bit.2 ∧ Answers result clear := by
    intro l'' heq
    rw [heq]
    exact ⟨List.Subset.refl _, fun _ hbit hnot => absurd hbit hnot⟩
  unfold finish at h
  split at h
  · rw [pure_eq_ok] at h
    exact hsame (h ▸ rfl)
  · next row hfind =>
      obtain ⟨hrow, hrequest⟩ := find?_eq_some.mp hfind
      simp only [bind_eq_ok] at h
      obtain ⟨_, hvalid, h⟩ := h
      split at h
      all_goals try (rw [pure_eq_ok] at h; exact hsame (h ▸ rfl))
      · next accepted error clear hlifecycle hclear =>
          simp only [bind_eq_ok, pure_eq_ok] at h
          obtain ⟨cleared, hfinish, rfl⟩ := h
          unfold finishClear at hfinish
          split_ifs at hfinish with hproof
          · obtain ⟨hsub, hnew⟩ := clearKnown_baseline hfinish
            refine ⟨hsub, fun bit hbit hnot => ?_⟩
            obtain ⟨hstation, hnames⟩ := hnew bit hbit hnot
            rw [hclear] at hvalid
            exact ⟨row, hrow, hrequest, hstation.symm, clear, hclear, hnames,
              answers_of_validate hlifecycle hvalid hproof⟩
          · rw [pure_eq_ok] at hfinish
            exact hsame (hfinish ▸ rfl)

end Baseline

end ProfileLedger

section Runs

open ProfileLedger

variable {P : Type} [Wire P] {s s' : Store P} {sent : CommandResult → Prop}

theorem publishes_profiles {a b : Store P × CommandResult} (h : ReflTransGen Publishes a b) :
    b.1.profiles = a.1.profiles := by
  induction h with
  | refl => rfl
  | tail _ hlast ih =>
      cases hlast with
      | intro hp _ =>
          rw [← ih]
          exact hp.family.file_profiles _ _

theorem retireEnded_baseline {l l' : ProfileLedger} {snapshot : StationSnapshot} (h : l.retireEnded snapshot = .ok l') :
    l'.baseline = l.baseline := by
  simp only [retireEnded] at h
  split_ifs at h
  · cases h
    exact rfl
  · simp only [bind_eq_ok, pure_eq_ok] at h
    obtain ⟨_, _, _, _, rfl⟩ := h
    rfl

theorem fence_baseline (l : ProfileLedger) (row : MutationRow) : (l.fence row).baseline = l.baseline := by
  unfold fence
  split_ifs <;> rfl

theorem change_sound (h : Change sent s s') (hs : s.profiles.Sound) : s'.profiles.Sound := by
  cases h with
  | outside | admission | edit => exact hs
  | fence hrow => exact hs.fence hrow
  | retireEnded h => exact hs.retireEnded h
  | reserve resourceGrant hset h =>
      exact hs.insert (fun footprint fullNative hmutation => validateSet_eq_ok (hset footprint fullNative hmutation)) h
  | move hf _ =>
      rw [hf.file_profiles]
      exact hs
  | result h _ =>
      cases Store.writeResultValue_written h with
      | intro _ hpublish _ _ hprofiles _ =>
          rw [publishes_profiles hpublish] at hprofiles
          exact hs.finish hprofiles

/-- The change registers a native answer to a live clear of the station that named only this purpose. -/
def SetsBaseline (s s' : Store P) (bit : StationKey × ChargingProfilePurpose201) : Prop :=
  ∃ m ∈ s.profiles.mutations, m.station = bit.1 ∧ ∃ clear, m.mutation = .clear clear ∧ NamesOnly clear bit.2 ∧
    ∃ row ∈ s'.journal.results, row.payload.request = m.request ∧ Answers row.payload clear

theorem change_baseline (h : Change sent s s') :
    s.profiles.baseline ⊆ s'.profiles.baseline ∧
      ∀ bit ∈ s'.profiles.baseline, bit ∉ s.profiles.baseline → SetsBaseline s s' bit := by
  have hsame : s'.profiles.baseline = s.profiles.baseline → s.profiles.baseline ⊆ s'.profiles.baseline ∧
      ∀ bit ∈ s'.profiles.baseline, bit ∉ s.profiles.baseline → SetsBaseline s s' bit := by
    intro heq
    rw [heq]
    exact ⟨List.Subset.refl _, fun _ hbit hnot => absurd hbit hnot⟩
  cases h with
  | outside | admission | edit => exact hsame rfl
  | fence _ => exact hsame (fence_baseline _ _)
  | retireEnded h => exact hsame (retireEnded_baseline h)
  | reserve _ _ h => exact hsame (insert_eq_ok h).2.1
  | move hf _ => exact hsame (by rw [hf.file_profiles])
  | result h _ =>
      cases Store.writeResultValue_written h with
      | intro _ hpublish _ _ hprofiles _ =>
          rw [publishes_profiles hpublish] at hprofiles
          obtain ⟨hsub, hnew⟩ := finish_baseline hprofiles
          refine ⟨hsub, fun bit hbit hnot => ?_⟩
          obtain ⟨m, hm, hrequest, hstation, clear, hclear, hnames, hanswers⟩ := hnew bit hbit hnot
          exact ⟨m, hm, hstation, clear, hclear, hnames, _, mem_put.mpr (.inr rfl), hrequest.symm, hanswers⟩

/-- In every store that is reached, each station has at most 128 footprints, no two of them in conflict, and at most one
live mutation; a baseline bit is never taken back. -/
theorem run_profiles (requests : List (Request P)) :
    let s := (Store.empty : Store P).run requests
    (∀ station, (s.profiles.ofStation station).length ≤ maxProfileFootprints) ∧
    (∀ r ∈ s.profiles.footprints, ∀ r' ∈ s.profiles.footprints, r.station = r'.station →
      r.footprint.conflicts r'.footprint = false) ∧
    (∀ m ∈ s.profiles.mutations, ∀ m' ∈ s.profiles.mutations, m.station = m'.station → m = m') ∧
    (∀ r ∈ s.profiles.footprints, r.state = .reserved →
      ∃ m ∈ s.profiles.mutations, m.request = r.owner ∧ m.station = r.station) ∧
    (∀ more, s.profiles.baseline ⊆ (s.run more).profiles.baseline) ∧
    ∀ request, ∀ bit ∈ (s.step request).profiles.baseline, bit ∉ s.profiles.baseline →
      ∃ m m', Changes request.brings s m ∧ Change request.brings m m' ∧ Changes request.brings m' (s.step request) ∧
        SetsBaseline m m' bit := by
  intro s
  have hsound : s.profiles.Sound :=
    Store.run_rel (R := fun s s' : Store P => s.profiles.Sound → s'.profiles.Sound) (fun _ => id)
      (fun h h' hs => h' (h hs)) change_sound (fun _ _ => id) _ requests .empty
  refine ⟨hsound.bounded, hsound.disjoint, hsound.single, ?_, ?_, ?_⟩
  · intro r hr hstate
    obtain ⟨m, hm, hrequest, hstation, _⟩ := hsound.reserved r hr hstate
    exact ⟨m, hm, hrequest, hstation⟩
  · exact Store.run_rel (R := fun s s' : Store P => s.profiles.baseline ⊆ s'.profiles.baseline)
      (fun _ => List.Subset.refl _) (fun h h' => List.Subset.trans h h') (fun h => (change_baseline h).1)
      (fun _ _ => List.Subset.refl _) s
  · intro request bit hbit hnot
    have hstep : Changes request.brings s (s.step request) ∨ (s.step request).profiles = s.profiles := by
      refine Store.step_rel (R := fun s s' => Changes request.brings s s' ∨ s'.profiles = s.profiles)
        (fun _ => .inl .refl) ?_
      intro s' h
      rcases Store.handle_changes h with h | ⟨now, _, rfl⟩
      · exact .inl h
      · exact .inr rfl
    have hchanges := hstep.resolve_right fun hsame => hnot (hsame ▸ hbit)
    obtain ⟨m, m', hm, hchange, hm', hold, hnew⟩ :=
      Transition.exists_entry (P := fun s : Store P => bit ∈ s.profiles.baseline) hchanges hnot hbit
    exact ⟨m, m', hm, hchange, hm', (change_baseline hchange).2 bit hnew hold⟩

end Runs

end OcppBridge.Operational
