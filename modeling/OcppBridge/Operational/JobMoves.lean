import OcppBridge.Operational.Moves
import OcppBridge.Operational.Diagnostics
import OcppBridge.Operational.Firmware

namespace OcppBridge.Operational

open Storage Transaction Relation Desk Firmware

namespace JobRecord

variable {κ π τ υ : Type} {r r' r'' : JobRecord κ π τ υ}

structure Keeps (r r' : JobRecord κ π τ υ) : Prop where
  station : r'.station = r.station
  requestId : r'.requestId = r.requestId
  request : r'.request = r.request
  revision : r'.revision = r.revision
  admitted : r'.admittedAt = r.admittedAt
  changed : r.changedAt ≤ r'.changedAt

structure Quiet (r r' : JobRecord κ π τ υ) : Prop extends Keeps r r' where
  lastStatus : r'.lastStatus = r.lastStatus
  lastStatusAt : r'.lastStatusAt = r.lastStatusAt

theorem Quiet.trans (h : Quiet r r') (h' : Quiet r' r'') : Quiet r r'' where
  station := h'.station.trans h.station
  requestId := h'.requestId.trans h.requestId
  request := h'.request.trans h.request
  revision := h'.revision.trans h.revision
  admitted := h'.admitted.trans h.admitted
  changed := le_trans h.changed h'.changed
  lastStatus := h'.lastStatus.trans h.lastStatus
  lastStatusAt := h'.lastStatusAt.trans h.lastStatusAt

theorem Quiet.refl (r : JobRecord κ π τ υ) : Quiet r r := ⟨⟨rfl, rfl, rfl, rfl, rfl, le_refl _⟩, rfl, rfl⟩

end JobRecord

namespace JobFamily

variable {P κ δ ι α ρ π τ υ : Type} [Wire P] {family : JobFamily P κ δ ι α ρ π τ υ}
  {desk desk' : family.Records} {values values' : List (JobRecord κ π τ υ)} {r r' : JobRecord κ π τ υ}
  {sound : JobRecord κ π τ υ → JobRecord κ π τ υ → Prop}

open JobRecord

/-- `sound` is what a family adds to the rules that all job ledgers obey. -/
def rules (sound : JobRecord κ π τ υ → JobRecord κ π τ υ → Prop) : Rules (JobRecord κ π τ υ) where
  allowed r r' := Keeps r r' ∧ sound r r'
  fresh r := r.state = .pending

theorem keeps_same (h : Keeps r r') : family.shape.Same r r' :=
  ⟨by simp only [Shape.place, shape, h.station, h.revision], h.requestId⟩

/-- A rewriting that counts no report and leaves a resolved job alone. -/
structure Calm (family : JobFamily P κ δ ι α ρ π τ υ) (r r' : JobRecord κ π τ υ) : Prop extends Quiet r r' where
  notifications : r'.notifications = r.notifications
  rejected : r'.rejectedTransitions = r.rejectedTransitions
  resolved : family.resolved r.state = true → r'.state = r.state ∧ r'.changedAt = r.changedAt

omit [Wire P] in
theorem Calm.refl (r : JobRecord κ π τ υ) : family.Calm r r := ⟨.refl r, rfl, rfl, fun _ => ⟨rfl, rfl⟩⟩

omit [Wire P] in
theorem Calm.of_open (h : Quiet r r') (hn : r'.notifications = r.notifications)
    (hr : r'.rejectedTransitions = r.rejectedTransitions) (hopen : family.resolved r.state = false) :
    family.Calm r r' :=
  ⟨h, hn, hr, fun hresolved => absurd (hopen.symm.trans hresolved) Bool.false_ne_true⟩

omit [Wire P] in
theorem unresolved_of_unanswered {state : JobState π} (h : state.unanswered = true) :
    family.resolved state = false := by
  cases state with
  | pending | uncertain => rfl
  | _ => cases h

/-- Rules that leave the operations of a job ledger free, reports apart. -/
structure Admits (family : JobFamily P κ δ ι α ρ π τ υ) (rules : Rules (JobRecord κ π τ υ)) : Prop where
  calm : ∀ {r r'}, family.Calm r r' → rules.allowed r r'
  fresh : ∀ {r}, r.state = .pending → r.notifications = 0 → r.rejectedTransitions = 0 → rules.fresh r

omit [Wire P] in
theorem rules_admit (hsound : ∀ {r r'}, Quiet r r' → sound r r') : family.Admits (rules sound) :=
  ⟨fun h => ⟨h.toKeeps, hsound h.toQuiet⟩, fun hstate _ _ => hstate⟩

omit [Wire P] in
theorem plain_admits : family.Admits (rules fun _ _ => True) := rules_admit fun _ => trivial

variable {rules : Rules (JobRecord κ π τ υ)}

theorem walk_moves (hrules : family.Admits rules) {inflight : Option Bool} (hi : inflight ≠ some true)
    {act : family.Records → JobRecord κ π τ υ → Except StorageError family.Records} (hact : Amends inflight act)
    {change : JobRecord κ π τ υ → Option (JobRecord κ π τ υ)} (hl : desk.Lists values)
    (hc : ∀ r r', change r = some r' → family.Calm r r') (h : sweep act change desk values = .ok (desk', values')) :
    Moves rules desk desk' := by
  refine (sweep_moves hi hact hl (fun r _ r' hr => ?_) h).1
  have hcalm := hc r r' hr
  exact ⟨keeps_same hcalm.toKeeps, hrules.calm hcalm⟩

section Operations

variable [DecidableEq π] (hrules : family.Admits rules)
include hrules

theorem expire_moves {station : ResourceRef} {observedAt : UtcTimestamp}
    (h : family.expire desk station observedAt = .ok desk') : Moves rules desk desk' := by
  simp only [expire, bind_eq_ok, pure_eq_ok] at h
  obtain ⟨_, _, values, hread, ⟨_, _⟩, h, rfl⟩ := h
  refine walk_moves hrules (by simp) (amends_amend none) (readKey_lists hread) ?_ h
  intro r r' hr
  split_ifs at hr with hoverdue
  cases hr
  simp only [overdue, Bool.and_eq_true, Bool.not_eq_true'] at hoverdue
  exact .of_open ⟨⟨rfl, rfl, rfl, rfl, rfl, le_max_left _ _⟩, rfl, rfl⟩ rfl rfl hoverdue.1.1.1

omit [DecidableEq π] hrules in
theorem report_moves {station : ResourceRef} {attributed : JobRecord κ π τ υ → Bool}
    {apply : JobRecord κ π τ υ → JobRecord κ π τ υ} (hkeeps : ∀ r, Keeps r (apply r))
    (hsound : ∀ r, sound r (apply r))
    (h : family.report desk station attributed apply = .ok desk') : Moves (JobFamily.rules sound) desk desk' := by
  simp only [report, bind_eq_ok] at h
  obtain ⟨_, _, values, hread, h⟩ := h
  split at h
  · cases h
    exact .refl
  · next r hfind =>
      have hmem : r ∈ values := List.mem_reverse.mp (List.mem_of_find?_eq_some hfind)
      obtain ⟨e, he, _, rfl⟩ := (mem_readKey hread).mp hmem
      have hc := hkeeps e.record
      exact .single (.amend he (keeps_same hc) ⟨hc, hsound e.record⟩ (by simp) h)

omit [DecidableEq π] hrules in
theorem prune_moves {station : StationKey} (h : family.prune desk station = .ok desk') : Moves rules desk desk' := by
  simp only [prune, bind_eq_ok] at h
  obtain ⟨values, hread, h⟩ := h
  cases hhead : values.getLast? with
  | none =>
      rw [List.getLast?_eq_none_iff] at hhead
      subst hhead
      simp only [List.dropLast_nil, List.filter_nil, List.foldlM_nil, pure_eq_ok] at h
      exact h ▸ .refl
  | some head =>
      obtain ⟨e, he, hstation, rfl⟩ := (mem_readKey hread).mp (List.mem_of_getLast? hhead)
      refine (foldlM_invariant (P := Pruned rules e desk) h ?_ ⟨.refl, fun _ => id, he⟩).moves
      intro v hv d d' hstep hp
      simp only [bind_eq_ok, pure_eq_ok] at hstep
      obtain ⟨⟨_, _⟩, hdelete, rfl⟩ := hstep
      obtain ⟨f, hf, rfl, hfs, hlt⟩ := dropLast_readKey hread hhead v (List.mem_filter.mp hv).1
      exact hp.delete hstation hf hfs hlt hdelete

omit [DecidableEq π] hrules in
theorem register_eq_ok {request : RequestId} {bounded : Bool} (h : family.register desk request bounded = .ok desk') :
    ∃ jobs, desk' = { desk with releaseJobs := jobs } := by
  simp only [register, bind_eq_ok, pure_eq_ok] at h
  obtain ⟨jobs, _, rfl⟩ := h
  exact ⟨jobs, rfl⟩

theorem reserve_moves [DecidableEq δ] {mutation : JobMutation κ} (h : family.reserve desk mutation = .ok desk') :
    Moves rules desk desk' := by
  simp only [reserve, bind_eq_ok, require_eq_ok] at h
  obtain ⟨_, _, station, hstation, expired, hexpire, pruned, hprune, _, _, values, hread, h⟩ := h
  split at h
  · cases h
  simp only [bind_eq_ok, require_eq_ok] at h
  obtain ⟨_, _, _, _, registered, hregister, h⟩ := h
  obtain ⟨jobs, rfl⟩ := register_eq_ok hregister
  refine ((expire_moves hrules hexpire).trans (prune_moves hprune)).trans
    (.head (.register jobs) (.single (.insert ?_ ?_ ?_ h)))
  · exact stationKey_eq_ok hstation
  · exact lt_next_readKey hread
  · exact hrules.fresh rfl rfl rfl

omit [DecidableEq π] hrules in
theorem readopt_amends : Amends (some false) family.readopt := by
  intro desk r desk' h
  unfold readopt at h
  split_ifs at h
  · simp only [bind_eq_ok, pure_eq_ok] at h
    obtain ⟨_, rfl, h⟩ := h
    exact ⟨desk.releaseJobs, h⟩
  · simp only [bind_eq_ok] at h
    obtain ⟨registered, hregister, h⟩ := h
    obtain ⟨jobs, rfl⟩ := register_eq_ok hregister
    exact ⟨jobs, h⟩

omit hrules [Wire P] in
theorem recovered_calm (now : UtcTimestamp) (r : JobRecord κ π τ υ) : family.Calm r (recovered r now) := by
  unfold recovered
  split
  · next hpending =>
      exact .of_open ⟨⟨rfl, rfl, rfl, rfl, rfl, le_max_left _ _⟩, rfl, rfl⟩ rfl rfl (hpending ▸ rfl)
  · exact .refl r

theorem restart_moves {station : StationKey} {now : UtcTimestamp} {startup : Bool} (hl : desk.Lists values)
    (h : family.restart now startup desk station values = .ok desk') : Moves rules desk desk' := by
  unfold restart at h
  split_ifs at h
  · simp only [bind_eq_ok, pure_eq_ok] at h
    obtain ⟨⟨_, _⟩, h, rfl⟩ := h
    refine .head (.land station) (walk_moves hrules (by simp) readopt_amends (hl.land station) ?_ h)
    intro r r' hr
    split_ifs at hr
    cases hr
    exact recovered_calm now r
  · cases h
    exact .refl

theorem maintain_moves {now : UtcTimestamp} {startup : Bool} (h : family.maintain desk now startup = .ok desk') :
    Moves rules desk desk' := by
  refine foldlM_rel (fun _ => .refl) (fun _ _ _ => .trans) _ ?_ h
  intro station _ d d' hd
  simp only [maintainStation, bind_eq_ok] at hd
  obtain ⟨values, hread, restarted, hrestart, hd⟩ := hd
  refine (restart_moves hrules (readKey_lists hread) hrestart).trans ?_
  split at hd
  · exact expire_moves hrules hd
  · cases hd
    exact .refl

theorem bindUpload_moves {request : RequestId} {uploadId : String}
    (h : family.bindUpload desk request uploadId = .ok desk') : Moves rules desk desk' := by
  unfold bindUpload at h
  split at h
  · cases h
  · next e hfind =>
      simp only [bind_eq_ok, require_eq_ok, Shape.decode_eq_ok] at h
      obtain ⟨_, _, _, ⟨_, rfl⟩, _, _, _, _, h⟩ := h
      have hcalm : family.Calm e.record { e.record with uploadId := some uploadId, started := true } :=
        ⟨⟨⟨rfl, rfl, rfl, rfl, rfl, le_refl _⟩, rfl, rfl⟩, rfl, rfl, fun _ => ⟨rfl, rfl⟩⟩
      exact .single (.save (ofRequest_eq_some hfind).1 (keeps_same hcalm.toKeeps) (hrules.calm hcalm) rfl h)

omit hrules [Wire P] [DecidableEq π] in
theorem displace_eq_some {cancelled : Bool} {time : UtcTimestamp} {v v' : JobRecord κ π τ υ}
    (h : family.displace r cancelled time v = some v') : family.Calm v v' ∧ v.revision < r.revision := by
  unfold displace at h
  split at h
  · cases h
  · next hcond =>
      cases h
      push Not at hcond
      have hopen : family.resolved v.state = false := by simpa using hcond.2
      exact ⟨.of_open ⟨⟨rfl, rfl, rfl, rfl, rfl, le_max_left _ _⟩, rfl, rfl⟩ rfl rfl hopen, hcond.1⟩

omit [DecidableEq π] in
theorem retireOlder_eq_ok {e : Entry (JobRecord κ π τ υ)} {cancelled : Bool} {time : UtcTimestamp} (he : e ∈ desk.rows)
    (h : family.retireOlder desk e.record cancelled time = .ok desk') : Moves rules desk desk' ∧ e ∈ desk'.rows := by
  simp only [retireOlder, bind_eq_ok, pure_eq_ok] at h
  obtain ⟨_, _, values, hread, ⟨_, _⟩, h, rfl⟩ := h
  have hallowed : ∀ v ∈ values, ∀ c, family.displace e.record cancelled time v = some c →
      family.shape.Same v c ∧ rules.allowed v c := by
    intro v _ c hc
    have hcalm := (displace_eq_some hc).1
    exact ⟨keeps_same hcalm.toKeeps, hrules.calm hcalm⟩
  obtain ⟨hmoves, hswept, _⟩ := sweep_eq_ok (by simp) (amends_amend (some false)) (readKey_lists hread) hallowed h
  refine ⟨hmoves, ?_⟩
  obtain ⟨e', he', _, hre⟩ := hswept.forward e he
  rcases hre with ⟨rfl, _⟩ | ⟨_, hsome⟩
  · exact he'
  · exact absurd (displace_eq_some hsome).2 (lt_irrefl _)

theorem advance_eq_ok {mid : family.Records} {e : Entry (JobRecord κ π τ υ)} {reply : Option ρ}
    {incoming : CommandResult} {inflight : Bool} (he : e ∈ desk.rows)
    (h : family.advance desk e reply incoming = .ok (mid, r, inflight)) :
    Moves rules desk mid ∧ e ∈ mid.rows ∧ family.Calm e.record r ∧ (inflight = true → e.inflight = true) := by
  have hstate : ∀ (p : Prop) [Decidable p] (state : JobState π), (p → e.record.state.unanswered = true) →
      family.Calm e.record (if p then { e.record with state } else e.record) := by
    intro p _ state hp
    split_ifs with hcond
    · exact .of_open ⟨⟨rfl, rfl, rfl, rfl, rfl, le_refl _⟩, rfl, rfl⟩ rfl rfl (unresolved_of_unanswered (hp hcond))
    · exact .refl _
  have hpending : e.record.state = .pending → e.record.state.unanswered = true := fun h => h ▸ rfl
  unfold advance at h
  split at h
  · cases h
    exact ⟨.refl, he, .refl _, id⟩
  · cases h
    exact ⟨.refl, he, ⟨⟨⟨rfl, rfl, rfl, rfl, rfl, le_refl _⟩, rfl, rfl⟩, rfl, rfl, fun _ => ⟨rfl, rfl⟩⟩, id⟩
  · cases h
    exact ⟨.refl, he, hstate _ _ hpending, by simp⟩
  · cases h
    exact ⟨.refl, he, hstate _ _ hpending, by simp⟩
  · split at h
    · cases h
      exact ⟨.refl, he, .refl _, by simp⟩
    · split at h
      · simp only [bind_eq_ok, pure_eq_ok, Prod.mk.injEq] at h
        obtain ⟨_, hretire, rfl, rfl, rfl⟩ := h
        obtain ⟨hmoves, hmem⟩ := retireOlder_eq_ok hrules he hretire
        exact ⟨hmoves, hmem, hstate _ _ id, by simp⟩
      · cases h
        exact ⟨.refl, he, hstate _ _ id, by simp⟩

omit hrules [Wire P] in
theorem Calm.touched (h : family.Calm r r') (time : UtcTimestamp) :
    family.Calm r (if r'.state ≠ r.state then { r' with changedAt := max r'.changedAt time } else r') := by
  split_ifs with hstate
  · exact ⟨h.toQuiet.trans ⟨⟨rfl, rfl, rfl, rfl, rfl, le_max_left _ _⟩, rfl, rfl⟩, h.notifications, h.rejected,
      fun hresolved => absurd (h.resolved hresolved).1 hstate⟩
  · exact h

theorem finish_eq_ok {incoming published : CommandResult} (h : family.finish desk incoming = .ok (desk', published)) :
    (desk' = desk ∧ published = incoming) ∨
      ∃ r, Finished rules (fun _ e f => family.Calm e.record f.record) incoming.request desk desk' r ∧
        published = family.publish r incoming := by
  unfold finish at h
  split at h
  · simp only [bind_eq_ok, pure_eq_ok, Prod.mk.injEq] at h
    obtain ⟨_, _, rfl, rfl⟩ := h
    exact .inl ⟨rfl, rfl⟩
  · next e hfind =>
      simp only [bind_eq_ok, Shape.decode_eq_ok, pure_eq_ok, require_eq_ok, Prod.mk.injEq] at h
      obtain ⟨_, ⟨hdecodable, rfl⟩, _, _, _, _, ⟨mid, r, inflight⟩, hadvance, saved, hsave, rfl, rfl⟩ := h
      obtain ⟨hmoves, hmem, hcalm, hinflight⟩ := advance_eq_ok hrules (ofRequest_eq_some hfind).1 hadvance
      have htouched := hcalm.touched incoming.recordedAt
      exact .inr ⟨_, .intro hfind hdecodable hmoves hmem (keeps_same htouched.toKeeps) htouched hinflight hsave,
        rfl⟩

end Operations

end JobFamily

open JobRecord JobFamily

variable {P : Type} [Wire P]

namespace Firmware

theorem applyStatus_keeps {κ : Type} (resolved : JobState FirmwareProgress → Bool)
    (permitted : κ → FirmwareStatus → Bool) (status : FirmwareStatus) (observedAt : UtcTimestamp) (r : Record κ) :
    Keeps r (applyStatus resolved permitted status observedAt r) := by
  simp only [applyStatus]
  split_ifs
  all_goals exact ⟨rfl, rfl, rfl, rfl, rfl, by simp⟩

end Firmware

namespace Firmware16

variable {desk desk' : (family (P := P)).Records} {r r' : Record Request}

variable (P) in
def sound (r r' : Record Request) : Prop :=
  (family (P := P)).shape.decodable r → (family (P := P)).shape.decodable r'

theorem decodable_of_keeps (h : Keeps r r') (hat : r'.lastStatus.isSome = r'.lastStatusAt.isSome)
    (hlast : ∀ status, r'.lastStatus = some status →
      r.lastStatus = some status ∨ (status ≠ .idle ∧ permitted r.request status)) : sound P r r' := by
  intro hd
  simp only [JobFamily.shape, family, Bool.and_eq_true, decide_eq_true_eq, Bool.or_eq_true] at hd ⊢
  obtain ⟨⟨⟨⟨hrev, hstation⟩, hle⟩, _⟩, ⟨hartifact, hidle⟩, hlegacy⟩ := hd
  rw [h.revision, h.station, h.admitted, h.request]
  refine ⟨⟨⟨⟨hrev, hstation⟩, le_trans hle h.changed⟩, hat⟩, ⟨hartifact, fun hs => ?_⟩, ?_⟩
  · rcases hlast _ hs with hold | ⟨hne, _⟩
    · exact hidle hold
    · exact hne rfl
  · rw [or_iff_not_imp_left] at hlegacy ⊢
    intro hvariant
    cases hs : r'.lastStatus with
    | none => rfl
    | some status =>
        rcases hlast _ hs with hold | ⟨_, hpermitted⟩
        · simpa [hold] using hlegacy hvariant
        · simp only [permitted, Bool.or_eq_true, decide_eq_true_eq] at hpermitted
          exact hpermitted.resolve_left hvariant

theorem sound_of_quiet (h : Quiet r r') : sound P r r' := by
  intro hd
  have hat : r.lastStatus.isSome = r.lastStatusAt.isSome := by
    simp only [JobFamily.shape, Bool.and_eq_true, decide_eq_true_eq] at hd
    exact hd.1.2
  exact decodable_of_keeps h.toKeeps (by rw [h.lastStatus, h.lastStatusAt, hat])
    (fun status hs => .inl (h.lastStatus ▸ hs)) hd

theorem applyStatus_sound (resolved : JobState FirmwareProgress → Bool) (status : FirmwareStatus)
    (observedAt : UtcTimestamp) (r : Record Request) :
    sound P r (applyStatus resolved permitted status observedAt r) := by
  intro hd
  have hat : r.lastStatus.isSome = r.lastStatusAt.isSome := by
    simp only [JobFamily.shape, Bool.and_eq_true, decide_eq_true_eq] at hd
    exact hd.1.2
  have hkeeps := applyStatus_keeps resolved permitted status observedAt r
  refine decodable_of_keeps hkeeps ?_ ?_ hd
  · simp only [applyStatus]
    split_ifs <;> first | exact hat | rfl
  · intro last
    simp only [applyStatus]
    split_ifs with _ hpermitted hidle
    · exact .inl
    · exact .inl
    · rintro ⟨⟩
      simp only [Bool.and_eq_true] at hpermitted
      exact .inr ⟨hidle, hpermitted.1⟩
    · exact .inl

theorem admits : (family (P := P)).Admits (rules (sound P)) := rules_admit sound_of_quiet

theorem observe_moves {observation : Observation} (h : observe desk observation = .ok desk') :
    Moves (rules (sound P)) desk desk' := by
  unfold observe at h
  split at h
  · exact expire_moves admits h
  · exact report_moves (applyStatus_keeps _ permitted _ _) (applyStatus_sound _ _ _) h

end Firmware16

namespace Firmware201

theorem observe_moves {desk desk' : (family (P := P)).Records} {observation : Observation}
    (h : observe desk observation = .ok desk') : Moves (rules fun _ _ => True) desk desk' := by
  unfold observe at h
  split at h
  · exact expire_moves plain_admits h
  · exact report_moves (applyStatus_keeps _ permitted _ _) (fun _ => trivial) h

end Firmware201

namespace Diagnostics16

theorem applyStatus_keeps (resolved : JobState LogProgress16 → Bool) (status : LogUploadStatus16)
    (check : Option UploadCheck) (observedAt : UtcTimestamp) (r : Record) :
    Keeps r (applyStatus resolved status check observedAt r) := by
  simp only [applyStatus]
  split_ifs
  all_goals exact ⟨rfl, rfl, rfl, rfl, rfl, by simp⟩

theorem observe_moves {desk desk' : (family (P := P)).Records} {observation : Observation}
    (h : observe desk observation = .ok desk') : Moves (rules fun _ _ => True) desk desk' := by
  unfold observe at h
  split at h
  · exact expire_moves plain_admits h
  · exact report_moves (applyStatus_keeps _ _ _ _) (fun _ => trivial) h

end Diagnostics16

namespace Diagnostics201

theorem applyStatus_keeps (resolved : JobState LogProgress201 → Bool) (status : LogUploadStatus201)
    (check : Option UploadCheck) (observedAt : UtcTimestamp) (r : Record) :
    Keeps r (applyStatus resolved status check observedAt r) := by
  simp only [applyStatus]
  split_ifs
  all_goals exact ⟨rfl, rfl, rfl, rfl, rfl, by simp⟩

theorem observe_moves {desk desk' : (family (P := P)).Records} {observation : Observation}
    (h : observe desk observation = .ok desk') : Moves (rules fun _ _ => True) desk desk' := by
  unfold observe at h
  split at h
  · exact expire_moves plain_admits h
  · exact report_moves (applyStatus_keeps _ _ _ _) (fun _ => trivial) h

end Diagnostics201

end OcppBridge.Operational
