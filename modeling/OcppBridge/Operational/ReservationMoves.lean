import OcppBridge.Operational.Moves
import OcppBridge.Operational.Reservations

namespace OcppBridge.Operational

open Storage Transaction Relation Desk ReservationState

variable {P π τ ε : Type}

namespace ReservationRecord

structure Keeps (r r' : ReservationRecord π ε) : Prop where
  station : r'.station = r.station
  request : r'.requestId = r.requestId
  reservation : r'.reservationId = r.reservationId
  revision : r'.revision = r.revision
  candidate : r'.candidate = r.candidate
  admitted : r'.admittedAt = r.admittedAt
  live : r'.state.live → r.state.live
  changed : r.changedAt ≤ r'.changedAt
  certain : r'.state = .ambiguous → r.state = .ambiguous

variable {r r' r'' : ReservationRecord π ε}

theorem Keeps.refl (r : ReservationRecord π ε) : Keeps r r := ⟨rfl, rfl, rfl, rfl, rfl, rfl, id, le_refl _, id⟩

theorem Keeps.trans (h : Keeps r r') (h' : Keeps r' r'') : Keeps r r'' where
  station := h'.station.trans h.station
  request := h'.request.trans h.request
  reservation := h'.reservation.trans h.reservation
  revision := h'.revision.trans h.revision
  candidate := h'.candidate.trans h.candidate
  admitted := h'.admitted.trans h.admitted
  live hl := h.live (h'.live hl)
  changed := le_trans h.changed h'.changed
  certain hc := h.certain (h'.certain hc)

theorem settle_keeps {state : ReservationState ε} (time : UtcTimestamp) (hlive : state.live = false)
    (hcertain : state ≠ .ambiguous) (r : ReservationRecord π ε) : Keeps r (r.settle state time) :=
  ⟨rfl, rfl, rfl, rfl, rfl, rfl, fun h => absurd h (by simp [settle, hlive]), le_max_left _ _,
    fun h => absurd h hcertain⟩

theorem recover_keeps (now : UtcTimestamp) (r : ReservationRecord π ε) : Keeps r (r.recover now) := by
  by_cases hlive : r.state.live
  · cases hstarted : r.started <;> constructor <;> simp [recover, hlive, hstarted]
  · constructor <;> simp [recover, hlive]

end ReservationRecord

namespace ReservationEdition

variable {edition : ReservationEdition P π τ ε}
  {values values' : List (ReservationRecord π ε)} {r r' : ReservationRecord π ε}
  {recordedAt observedAt now : UtcTimestamp} {e : Entry (ReservationRecord π ε)} {inflight startup : Bool}
  {station : StationKey}

open ReservationRecord

theorem keeps_same (h : Keeps r r') : edition.shape.Same r r' :=
  ⟨by simp only [Shape.place, shape, h.station, h.revision], h.request⟩

def rules : Rules (ReservationRecord π ε) where
  allowed r r' := Keeps r r' ∧ (r'.state = .active → r.state = .active)
  fresh r := r.state = .pending

theorem consumed_keeps (fact : Attribution π) (observedAt : UtcTimestamp) (r : ReservationRecord π ε) :
    Keeps r (fact.consumed r observedAt) where
  station := rfl
  request := rfl
  reservation := rfl
  revision := rfl
  candidate := rfl
  admitted := rfl
  live h := absurd h (by simp [Attribution.consumed, live])
  changed := by
    simp only [Attribution.consumed]
    split_ifs
    · exact le_max_left _ _
    · exact le_refl _
  certain h := absurd h (by simp [Attribution.consumed])

theorem displace_eq_some {v v' : ReservationRecord π ε} (h : displace r recordedAt v = some v') :
    Keeps v v' ∧ v'.state.live = false ∧ v.revision < r.revision := by
  unfold displace at h
  split_ifs at h with hcond
  all_goals
    cases h
    exact ⟨settle_keeps recordedAt rfl (by simp) v, rfl, hcond.2.1⟩

theorem displace_eq_none {v : ReservationRecord π ε} (h : displace r recordedAt v = none)
    (hid : v.reservationId = r.reservationId) (hlt : v.revision < r.revision) : v.state.live = false := by
  simpa [displace, hid, hlt] using h

theorem acknowledged_keeps (recordedAt : UtcTimestamp) (r : ReservationRecord π ε) :
    Keeps r (acknowledged r recordedAt) := by
  unfold acknowledged
  split_ifs with hlive
  · refine ⟨rfl, rfl, rfl, rfl, rfl, rfl, fun _ => hlive, le_refl _, fun h => ?_⟩
    simp only at h
    split at h
    · split_ifs at h
    · cases h
  · exact .refl r

def Displaced (rows : Table edition.shape.key) (r : ReservationRecord π ε) : Prop :=
  ∀ b ∈ rows, b.record.station.key = r.station.key → b.record.reservationId = r.reservationId →
    b.record.revision < r.revision → b.record.state.live = false

def owns (rows : Table edition.shape.key) (e f : Entry (ReservationRecord π ε)) : Prop :=
  Keeps e.record f.record ∧ (f.record.state = .active → e.record.state = .active ∨ Displaced rows e.record)

theorem owns_of_keeps {rows : Table edition.shape.key} (hk : Keeps e.record r)
    (ha : r.state = .active → e.record.state = .active) : owns rows e ⟨r, inflight⟩ :=
  ⟨hk, fun h => .inl (ha h)⟩

variable [Wire P] {desk desk' : edition.Records}

theorem walk_moves {inflight : Option Bool} (hi : inflight ≠ some true)
    {change : ReservationRecord π ε → Option (ReservationRecord π ε)} (hl : desk.Lists values)
    (hc : ∀ r r', change r = some r' → Keeps r r' ∧ (r'.state = .active → r.state = .active))
    (h : sweep (Desk.amend inflight) change desk values = .ok (desk', values')) :
    Moves rules desk desk' ∧ desk'.Lists values' :=
  sweep_moves hi (amends_amend inflight) hl (fun r _ r' hr => ⟨keeps_same (hc r r' hr).1, hc r r' hr⟩) h

theorem expire_moves (hl : desk.Lists values) (h : edition.expire desk values observedAt = .ok (desk', values')) :
    Moves rules desk desk' ∧ desk'.Lists values' := by
  refine walk_moves (by simp) hl ?_ h
  intro r r' hr
  split_ifs at hr
  cases hr
  exact ⟨settle_keeps observedAt rfl (by simp) r, by simp [settle]⟩

theorem observeExpiry_moves {station : ResourceRef}
    (h : edition.observeExpiry desk station observedAt = .ok (desk', values')) :
    Moves rules desk desk' ∧ desk'.Lists values' := by
  simp only [observeExpiry, bind_eq_ok] at h
  obtain ⟨_, _, _, hread, h⟩ := h
  exact expire_moves (readKey_lists hread) h

theorem restart_moves (hl : desk.Lists values) (h : edition.restart now startup desk station values = .ok desk') :
    Moves rules desk desk' := by
  unfold restart at h
  split_ifs at h
  · simp only [bind_eq_ok, pure_eq_ok] at h
    obtain ⟨⟨_, _⟩, h, rfl⟩ := h
    refine .head (.land station) (walk_moves (by simp) (hl.land station) ?_ h).1
    intro r r' hr
    split_ifs at hr
    cases hr
    refine ⟨recover_keeps now r, fun hactive => ?_⟩
    by_cases hlive : r.state.live
    · cases hstarted : r.started <;> simp [recover, hlive, hstarted] at hactive
    · simpa [recover, hlive] using hactive
  · cases h
    exact .refl

theorem expireListed_moves (h : edition.expireListed now desk values = .ok desk') : Moves rules desk desk' := by
  unfold expireListed at h
  split at h
  · simp only [bind_eq_ok, pure_eq_ok] at h
    obtain ⟨⟨_, _⟩, h, rfl⟩ := h
    exact (observeExpiry_moves h).1
  · cases h
    exact .refl

theorem acknowledge_eq_ok {mid : edition.Records} (he : e ∈ desk.rows) (hstation : e.record.station.key = station)
    (hr : Keeps e.record r) (h : edition.acknowledge desk station r recordedAt = .ok (mid, r')) :
    Moves rules desk mid ∧ e ∈ mid.rows ∧ r' = acknowledged r recordedAt ∧ Displaced mid.rows e.record := by
  simp only [acknowledge, bind_eq_ok, pure_eq_ok, Prod.mk.injEq] at h
  obtain ⟨values, hread, ⟨_, _⟩, hsweep, rfl, rfl⟩ := h
  have hallowed : ∀ v ∈ values, ∀ c, displace r recordedAt v = some c → edition.shape.Same v c ∧ rules.allowed v c := by
    intro v _ c hc
    obtain ⟨hkeeps, hdead, _⟩ := displace_eq_some hc
    exact ⟨keeps_same hkeeps, hkeeps, fun hactive => by simp [hactive, live] at hdead⟩
  obtain ⟨hmoves, hswept, _⟩ :=
    sweep_eq_ok (by simp) (amends_amend (some false)) (readKey_lists hread) hallowed hsweep
  refine ⟨hmoves, ?_, rfl, ?_⟩
  · obtain ⟨e', he', _, hre⟩ := hswept.forward e he
    rcases hre with ⟨rfl, _⟩ | ⟨_, hsome⟩
    · exact he'
    · have hlt := (displace_eq_some hsome).2.2
      rw [hr.revision] at hlt
      exact absurd hlt (lt_irrefl _)
  · intro b hb hbs hbid hblt
    obtain ⟨b₀, hb₀, _, hre⟩ := hswept.origin b hb
    rcases hre with ⟨rfl, hnone⟩ | ⟨_, hsome⟩
    · have hmem : b.record ∈ values := (mem_readKey hread).mpr ⟨b, hb₀, hbs.trans hstation, rfl⟩
      exact displace_eq_none (hnone hmem) (hbid.trans hr.reservation.symm) (by rw [hr.revision]; exact hblt)
    · exact (displace_eq_some hsome).2.1

variable [DecidableEq ε]

theorem consume_moves {fact : Attribution π} (hl : desk.Lists values)
    (h : edition.consume desk values observedAt fact = .ok desk') : Moves rules desk desk' := by
  unfold consume at h
  split at h
  · simp only [bind_eq_ok, pure_eq_ok] at h
    obtain ⟨⟨_, _⟩, h, rfl⟩ := h
    refine (walk_moves (by simp) hl ?_ h).1
    intro r r' hr
    split_ifs at hr
    cases hr
    exact ⟨consumed_keeps fact observedAt r, by simp [Attribution.consumed]⟩
  · simp only [bind_eq_ok, pure_eq_ok] at h
    obtain ⟨⟨_, _⟩, h, rfl⟩ := h
    refine (walk_moves (by simp) hl ?_ h).1
    intro r r' hr
    split_ifs at hr
    cases hr
    exact ⟨⟨rfl, rfl, rfl, rfl, rfl, rfl, id, le_rfl, id⟩, id⟩

theorem prune_moves (h : edition.prune desk station now = .ok desk') : Moves rules desk desk' := by
  simp only [prune, bind_eq_ok] at h
  obtain ⟨values, hread, h⟩ := h
  split at h
  · cases h
    exact .refl
  · next head hhead =>
      obtain ⟨e, he, hstation, rfl⟩ := (mem_readKey hread).mp (List.mem_of_getLast? hhead)
      simp only [bind_eq_ok] at h
      obtain ⟨⟨mid, historyFloor⟩, hfold, h⟩ := h
      have hpruned : Pruned rules e desk mid := by
        refine foldlM_invariant (P := fun s => Pruned rules e desk s.1) hfold ?_ ⟨.refl, fun _ => id, he⟩
        rintro v hv ⟨d, floor⟩ ⟨d', floor'⟩ hstep hp
        split_ifs at hstep
        · cases hstep
          exact hp
        · simp only [bind_eq_ok, pure_eq_ok, Prod.mk.injEq] at hstep
          obtain ⟨⟨_, removed⟩, hdelete, rfl, _⟩ := hstep
          obtain ⟨f, hf, rfl, hfs, hlt⟩ := dropLast_readKey hread hhead v hv
          exact hp.delete hstation hf hfs hlt hdelete
      split_ifs at h
      · have hkeeps : Keeps e.record { e.record with historyFloor } := ⟨rfl, rfl, rfl, rfl, rfl, rfl, id, le_rfl, id⟩
        exact hpruned.moves.tail (.save hpruned.head (keeps_same hkeeps) ⟨hkeeps, id⟩ rfl h)
      · cases h
        exact hpruned.moves

theorem maintainStation_moves (h : edition.maintainStation now startup desk station = .ok desk') :
    Moves rules desk desk' := by
  simp only [maintainStation, bind_eq_ok] at h
  obtain ⟨values, hread, restarted, hrestart, expired, hexpire, hprune⟩ := h
  exact ((restart_moves (readKey_lists hread) hrestart).trans (expireListed_moves hexpire)).trans (prune_moves hprune)

theorem maintain_moves (h : edition.maintain desk now startup = .ok desk') : Moves rules desk desk' :=
  foldlM_rel (fun _ => .refl) (fun _ _ _ => .trans) _ (fun _ _ _ _ => maintainStation_moves) h

theorem reserve_moves {mutation : ReservationMutation π} (h : edition.reserve desk mutation = .ok desk') :
    Moves rules desk desk' := by
  simp only [reserve, bind_eq_ok, require_eq_ok] at h
  obtain ⟨_, _, station, hstation, ⟨expired, _⟩, hexpire, pruned, hprune, _, _, values, hread, _, _, _, _, h⟩ := h
  refine ((observeExpiry_moves hexpire).1.trans (prune_moves hprune)).tail (.insert ?_ ?_ ?_ h)
  · exact stationKey_eq_ok hstation
  · exact lt_next_readKey hread
  · rfl

theorem advance_eq_ok {mid : edition.Records} {accepted : Bool} {incoming : CommandResult} (he : e ∈ desk.rows)
    (hstation : e.record.station.key = station)
    (h : edition.advance desk station e accepted incoming = .ok (mid, r, inflight)) :
    Moves rules desk mid ∧ e ∈ mid.rows ∧ owns mid.rows e ⟨r, inflight⟩ ∧ (inflight = true → e.inflight = true) := by
  unfold advance at h
  split at h
  · cases h
    exact ⟨.refl, he, owns_of_keeps (.refl _) id, id⟩
  · cases h
    exact ⟨.refl, he, owns_of_keeps ⟨rfl, rfl, rfl, rfl, rfl, rfl, id, le_rfl, id⟩ id, id⟩
  · cases h
    refine ⟨.refl, he, ?_, by simp⟩
    split_ifs with hpending
    · exact owns_of_keeps ⟨rfl, rfl, rfl, rfl, rfl, rfl, fun _ => by rw [hpending]; rfl, le_refl _, by simp⟩ (by simp)
    · exact owns_of_keeps (.refl _) id
  · cases h
    refine ⟨.refl, he, ?_, by simp⟩
    split_ifs with hstate
    · exact owns_of_keeps ⟨rfl, rfl, rfl, rfl, rfl, rfl, fun h => absurd h (by simp [live]), le_refl _,
        by simp⟩ (by simp)
    · exact owns_of_keeps ⟨rfl, rfl, rfl, rfl, rfl, rfl, id, le_rfl, id⟩ id
  · have hsettled : Keeps e.record { e.record with unresolved := false } :=
      ⟨rfl, rfl, rfl, rfl, rfl, rfl, id, le_rfl, id⟩
    simp only at h
    split at h
    · simp only [bind_eq_ok, pure_eq_ok, Prod.mk.injEq] at h
      obtain ⟨⟨_, _⟩, hack, rfl, rfl, rfl⟩ := h
      obtain ⟨hmoves, hmem, rfl, hdisplaced⟩ := acknowledge_eq_ok he hstation hsettled hack
      exact ⟨hmoves, hmem, ⟨hsettled.trans (acknowledged_keeps _ _), fun _ => .inr hdisplaced⟩, by simp⟩
    · cases h
      refine ⟨.refl, he, ?_, by simp⟩
      split_ifs with hlive
      · exact owns_of_keeps ⟨rfl, rfl, rfl, rfl, rfl, rfl, fun _ => hlive, le_refl _, by simp⟩ (by simp)
      · exact owns_of_keeps hsettled id

omit [Wire P] in
theorem owns_touched {rows : Table edition.shape.key} (h : owns rows e ⟨r, inflight⟩) (recordedAt : UtcTimestamp) :
    owns rows e ⟨if r.state ≠ e.record.state then { r with changedAt := max r.changedAt recordedAt } else r,
      inflight⟩ := by
  split_ifs
  · refine ⟨h.1.trans ⟨rfl, rfl, rfl, rfl, rfl, rfl, id, le_max_left _ _, id⟩, h.2⟩
  · exact h

variable [DecidableEq τ]

theorem finish_eq_ok {incoming published : CommandResult} (h : edition.finish desk incoming = .ok (desk', published)) :
    (desk' = desk ∧ published = incoming) ∨
      ∃ r, Finished rules owns incoming.request desk desk' r ∧ published = edition.publish r incoming := by
  unfold finish at h
  split at h
  · simp only [bind_eq_ok, pure_eq_ok, Prod.mk.injEq] at h
    obtain ⟨_, _, rfl, rfl⟩ := h
    exact .inl ⟨rfl, rfl⟩
  · next e hfind =>
      simp only [bind_eq_ok, Shape.decode_eq_ok, pure_eq_ok, Prod.mk.injEq] at h
      obtain ⟨_, ⟨hdecodable, rfl⟩, _, _, station, hstation, accepted, _, ⟨mid, r, inflight⟩, hadvance, saved,
        hsave, rfl, rfl⟩ := h
      have he := (ofRequest_eq_some hfind).1
      obtain ⟨hmoves, hmem, howns, hinflight⟩ := advance_eq_ok he (stationKey_eq_ok hstation) hadvance
      have howns' := owns_touched howns incoming.recordedAt
      exact .inr ⟨_, .intro hfind hdecodable hmoves hmem (keeps_same howns'.1) howns' hinflight hsave, rfl⟩

end ReservationEdition

open ReservationEdition ReservationRecord

variable [Wire P]

namespace Reservation16

variable {desk desk' : (edition (P := P)).Records}

theorem statusChange_eq_some {connectorId : Nat} {state : ReservationState16} {sourceTime : Option UtcTimestamp}
    {anyEligible : Bool} {observedAt : UtcTimestamp} {r r' : Record} (hended : state.isEnded)
    (h : statusChange connectorId state sourceTime anyEligible observedAt r = some r') :
    Keeps r r' ∧ (r'.state = .active → r.state = .active) := by
  unfold statusChange at h
  split_ifs at h
  cases h
  cases state with
  | ended reason => exact ⟨⟨rfl, rfl, rfl, rfl, rfl, rfl, by simp [settle, live], le_max_left _ _,
      by simp [settle]⟩, by simp [settle]⟩
  | _ => cases hended

theorem observe_moves {observation : Observation} (h : observe desk observation = .ok desk') :
    Moves rules desk desk' := by
  simp only [observe, bind_eq_ok] at h
  obtain ⟨⟨expired, values⟩, hexpire, h⟩ := h
  obtain ⟨hmoves, hlists⟩ := observeExpiry_moves hexpire
  split at h
  · exact hmoves.trans (consume_moves hlists h)
  · simp only [bind_eq_ok, require_eq_ok, pure_eq_ok] at h
    obtain ⟨_, hended, ⟨_, _⟩, h, rfl⟩ := h
    exact hmoves.trans (walk_moves (by simp) hlists (fun _ _ => statusChange_eq_some hended) h).1
  · cases h
    exact hmoves

end Reservation16

namespace Reservation201

variable {desk desk' : (edition (P := P)).Records}

theorem update_moves {values : List Record} {observedAt : UtcTimestamp} {reservationId : Int} {status : UpdateStatus}
    (hl : desk.Lists values) (h : update desk values observedAt reservationId status = .ok desk') :
    Moves rules desk desk' := by
  simp only [update, bind_eq_ok, pure_eq_ok] at h
  obtain ⟨⟨_, _⟩, h, rfl⟩ := h
  refine (walk_moves (by simp) hl ?_ h).1
  intro r r' hr
  split_ifs at hr
  · cases hr
    cases status <;>
      exact ⟨⟨rfl, rfl, rfl, rfl, rfl, rfl, by simp [settle, UpdateStatus.state, live], le_max_left _ _,
        by simp [settle, UpdateStatus.state]⟩, by simp [settle, UpdateStatus.state]⟩
  · cases hr
    exact ⟨⟨rfl, rfl, rfl, rfl, rfl, rfl, id, le_rfl, id⟩, id⟩

theorem observe_moves {observation : Observation} (h : observe desk observation = .ok desk') :
    Moves rules desk desk' := by
  simp only [observe, bind_eq_ok] at h
  obtain ⟨⟨expired, values⟩, hexpire, h⟩ := h
  obtain ⟨hmoves, hlists⟩ := observeExpiry_moves hexpire
  split at h
  · exact hmoves.trans (consume_moves hlists h)
  · exact hmoves.trans (update_moves hlists h)
  · cases h
    exact hmoves

end Reservation201

end OcppBridge.Operational
