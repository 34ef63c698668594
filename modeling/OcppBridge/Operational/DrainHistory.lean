import OcppBridge.Operational.Drain
import OcppBridge.Operational.ResultHistory
import OcppBridge.Transition

namespace OcppBridge.Operational

open Storage Transaction Drain

variable {P : Type} [Wire P]

namespace Drain

variable {d : Drain} {now : Instant}

theorem expire_revision (d : Drain) (now : Instant) : (d.expire now).revision = d.revision := by
  unfold expire
  split_ifs <;> rfl

theorem expire_issued (d : Drain) (now : Instant) : (d.expire now).issued = d.issued := by
  unfold expire
  split_ifs <;> rfl

theorem expire_window (d : Drain) (now : Instant) :
    (d.expire now).window = none ∨ (d.expire now).window = d.window := by
  unfold expire
  split_ifs
  · exact .inl rfl
  · exact .inr rfl

/-- What a check makes of the drain: it may forget an expired window, and it counts. -/
structure Checked (d : Drain) (now : Instant) (r : Drain × Except StorageError Unit) : Prop where
  window : r.1.window = (d.expire now).window
  issued : r.1.issued = d.issued
  counted : d.revision ≤ r.1.revision
  passed : r.2 = .ok () → d.revision < r.1.revision ∧ (d.expire now).sealed = false

theorem changed_eq (d : Drain) :
    d.changed = ({ d with revision := d.revision + 1 }, .ok ()) ∨
      d.changed = (d, .error (busy "drain revision exhausted")) := by
  unfold changed
  split_ifs
  · exact .inl rfl
  · exact .inr rfl

theorem checked_changed (hsealed : (d.expire now).sealed = false) : Checked d now (d.expire now).changed := by
  rcases changed_eq (d.expire now) with h | h <;> rw [h]
  · refine ⟨rfl, expire_issued d now, ?_, fun _ => ⟨?_, hsealed⟩⟩ <;> simp [expire_revision]
  · exact ⟨rfl, expire_issued d now, (expire_revision d now).ge, by simp⟩

theorem checked_refuse (d : Drain) (now : Instant) (detail : String) :
    Checked d now ((d.expire now).refuse detail) := by
  rcases changed_eq (d.expire now) with h | h <;> simp only [refuse, h]
  · exact ⟨rfl, expire_issued d now, by simp [expire_revision], by simp⟩
  · exact ⟨rfl, expire_issued d now, (expire_revision d now).ge, by simp⟩

theorem checked_error (e : StorageError) : Checked d now (d.expire now, .error e) :=
  ⟨rfl, expire_issued d now, (expire_revision d now).ge, by simp⟩

theorem checkRemoteWrite_checked (start : Bool) : Checked d now (d.checkRemoteWrite now start) := by
  unfold checkRemoteWrite
  simp only
  split_ifs with hblocked
  · exact checked_refuse d now _
  · apply checked_changed
    rw [Bool.not_eq_true, Option.any_eq_false] at hblocked
    rw [sealed, Option.any_eq_false]
    intro window hwindow
    have hopen := hblocked window hwindow
    exact (Bool.or_eq_false_iff.mp (by simpa using hopen)).1

theorem checkWrite_checked (start : Bool) : Checked d now (d.checkWrite now start) := by
  unfold checkWrite checkWriteAdmission
  cases hwindow : (d.expire now).window with
  | none =>
      simp only [hwindow]
      exact checked_changed (by simp [sealed, hwindow])
  | some window =>
      simp only [hwindow]
      by_cases hsealed : window.sealed = true
      · simp only [hsealed, if_true]
        have hrefused := checked_refuse d now "release idle boundary sealed; retry after maintenance"
        rcases changed_eq (d.expire now) with h | h <;> simp only [refuse, h] at hrefused ⊢ <;> exact hrefused
      · cases start with
        | true =>
            simp only [hsealed, Bool.false_eq_true, if_false, if_true]
            exact checked_error _
        | false =>
            simp only [hsealed, Bool.false_eq_true, if_false]
            exact checked_changed (by simpa [sealed, hwindow] using hsealed)

theorem checkJob_checked (id : String) (full : Bool) : Checked d now (d.checkJob now id full) := by
  unfold checkJob
  simp only
  split_ifs with _ hsealed
  · exact checked_error _
  · exact checked_refuse d now _
  · exact checked_error _
  · exact checked_changed (by simpa using hsealed)

theorem sealed_of_window {d' : Drain} (h : d'.window = none ∨ d'.window = d.window) (hs : d'.sealed) : d.sealed := by
  rcases h with h | h
  · simp [sealed, h] at hs
  · rwa [sealed, h] at hs

end Drain

namespace Office

variable {k k' : Office P} {now : Instant} {r : WorkerRequest P}

theorem admission_checked (k : Office P) (now : Instant) (hr : r.tracked) :
    Checked k.drain now (k.admission now r) := by
  cases r with
  | drain | retentionStatus | other => cases hr
  | remoteControl op =>
      cases op with
      | reserve | response => exact checkRemoteWrite_checked _
      | read => cases hr
  | store request =>
      cases request with
      | interruptDeviceReports | pruneCommands | maintainRetention => cases hr
      | startJob | finishJob => exact checkJob_checked _ _
      | write | maintainReservations16 | maintainReservations201 | maintainFirmware16 | maintainFirmware201
      | bindDiagnosticsUpload16 | maintainDiagnostics16 | bindDiagnosticsUpload201 | maintainDiagnostics201
      | interruptChargingProfiles | appendConfigurationObservation | reconcileTrigger | deviceReport
      | chargingProfilesReport => exact checkWrite_checked _
  | targetDisposition => exact checkWrite_checked _

theorem admission_untracked (k : Office P) (now : Instant) (hr : r.tracked = false) :
    k.admission now r = (k.drain, .ok ()) ∨ k.admission now r = (k.drain.expire now, .ok ()) := by
  cases r with
  | drain | other => exact .inl rfl
  | retentionStatus => exact .inr rfl
  | remoteControl op =>
      cases op with
      | reserve | response => cases hr
      | read => exact .inl rfl
  | store request =>
      cases request with
      | interruptDeviceReports | pruneCommands => exact .inl rfl
      | maintainRetention => exact .inr rfl
      | _ => cases hr
  | targetDisposition => cases hr

theorem admission_window (k : Office P) (now : Instant) (r : WorkerRequest P) :
    (k.admission now r).1.window = none ∨ (k.admission now r).1.window = k.drain.window := by
  by_cases hr : r.tracked = true
  · rw [(admission_checked k now hr).window]
    exact expire_window k.drain now
  · rcases admission_untracked k now (by simpa using hr) with h | h <;> rw [h]
    · exact .inr rfl
    · exact expire_window k.drain now

def Guarded (k : Office P) : Prop := k.drain.sealed → (k.store.inventory 0 0).isIdle

theorem idle_iff (s : Store P) (window : DrainId) (revision : Nat) :
    (s.inventory window revision).isIdle ↔
      (s.inventory 0 0).activeTransactions = 0 ∧ (∀ row ∈ s.journal.commands, row.unresolved = false) ∧
        s.releaseJobs = [] := by
  have hcommands : ((s.journal.commands.rows.filter (·.unresolved)).length = 0) ↔
      ∀ row ∈ s.journal.commands, row.unresolved = false := by
    rw [List.length_eq_zero_iff, List.filter_eq_nil_iff]
    simp only [Bool.not_eq_true]
    rfl
  have hidle : (s.inventory window revision).isIdle ↔ (s.inventory window revision).activeTransactions = 0 ∧
      (s.inventory window revision).unresolvedCommands = 0 ∧ (s.inventory window revision).statefulJobs = 0 := by
    simp only [DrainObservation.isIdle, Bool.and_eq_true, decide_eq_true_eq, and_assoc]
  rw [hidle]
  exact and_congr Iff.rfl (and_congr hcommands List.length_eq_zero_iff)

theorem interruptLoop_commands (fuel : Nat) (j : Journal P) (staging : Staging) :
    (DeviceModel201.interruptLoop fuel j staging).1.commands = j.commands := by
  induction fuel generalizing j staging with
  | zero => rfl
  | succ fuel ih =>
      unfold DeviceModel201.interruptLoop
      split
      · rfl
      · split
        · rfl
        · next row _ _ _ hrow =>
            simp only [DeviceModel201.interruptRow, bind_eq_ok, pure_eq_ok, Prod.mk.injEq] at hrow
            obtain ⟨_, _, _, _, rfl, rfl⟩ := hrow
            exact ih _ _

theorem untracked_idle {s s' : Store P} {request : Request P} (hr : request.tracked = false)
    (h : s.handle request = .ok s') (hs : (s.inventory 0 0).isIdle) : (s'.inventory 0 0).isIdle := by
  rw [idle_iff] at hs ⊢
  cases request with
  | interruptDeviceReports =>
      rw [Store.handle, pure_eq_ok] at h
      subst h
      refine ⟨hs.1, ?_, hs.2.2⟩
      have hcommands : s.interruptDeviceReports.journal.commands = s.journal.commands := interruptLoop_commands _ _ _
      rw [hcommands]
      exact hs.2.1
  | pruneCommands now =>
      rw [Store.handle, pure_eq_ok] at h
      subst h
      exact ⟨hs.1, fun row hrow => hs.2.1 row (Table.mem_keep.mp hrow).1, hs.2.2⟩
  | maintainRetention retained =>
      rw [Store.handle, pure_eq_ok] at h
      subst h
      exact hs
  | _ => cases hr

theorem operation_sealed {d : Drain} {s : Store P} {op : DrainOperation} (h : (d.operation now s op).1.sealed) :
    d.sealed ∨ (s.inventory 0 0).isIdle := by
  have hexpired : (d.expire now).sealed → d.sealed := sealed_of_window (d.expire_window now)
  unfold operation at h
  cases op with
  | begin duration =>
      simp only at h
      split_ifs at h with _ hopen
      · exact .inl (hexpired h)
      · exact .inl (hexpired h)
      · cases h
  | observe id => exact .inl (hexpired h)
  | «seal» observed =>
      simp only at h
      split at h
      · exact .inl (hexpired h)
      · split_ifs at h with hstale
        · exact .inl (hexpired h)
        · push Not at hstale
          have hidle : (s.inventory observed.window (d.expire now).revision).isIdle = true := by simpa using hstale.2
          exact .inr hidle
  | cancel id =>
      simp only at h
      split_ifs at h
      · cases h
      · exact .inl (hexpired h)

theorem carryOut_drain (k : Office P) (now : Instant) (hr : ∀ op, r ≠ .drain op) :
    (k.carryOut now r).1.drain = k.drain := by
  cases r with
  | drain op => exact absurd rfl (hr op)
  | store request =>
      simp only [carryOut]
      split <;> rfl
  | remoteControl | targetDisposition | retentionStatus | other => rfl

omit [Wire P] in
theorem tracked_ne_drain (hr : r.tracked) (op : DrainOperation) : r ≠ .drain op := by
  rintro rfl
  cases hr

theorem handle_guarded (h : k.Guarded) (now : Instant) (r : WorkerRequest P) : (k.handle now r).1.Guarded := by
  have hwindow := admission_window k now r
  have hkeep : ∀ d, d.window = none ∨ d.window = k.drain.window → Guarded { k with drain := d } :=
    fun d hd hs => h (sealed_of_window hd hs)
  unfold handle
  split
  · next d hpass =>
      rw [hpass] at hwindow
      by_cases hr : r.tracked = true
      · have hchecked := admission_checked k now hr
        rw [hpass] at hchecked
        have hopen : d.sealed = false := by
          rw [sealed, hchecked.window]
          exact (hchecked.passed rfl).2
        intro hs
        rw [carryOut_drain _ _ (tracked_ne_drain hr), hopen] at hs
        cases hs
      · cases r with
        | drain op =>
            intro hs
            rcases operation_sealed hs with hs | hidle
            · exact hkeep d hwindow hs
            · exact hidle
        | store request =>
            simp only [carryOut]
            split
            · next s hs =>
                intro hsealed
                exact untracked_idle (Bool.eq_false_iff.mpr hr) hs (hkeep d hwindow hsealed)
            · exact hkeep d hwindow
        | remoteControl | retentionStatus | other | targetDisposition => exact hkeep d hwindow
  · next d e hrefused =>
      rw [hrefused] at hwindow
      exact hkeep d hwindow

theorem operation_counts (d : Drain) (now : Instant) (s : Store P) (op : DrainOperation) :
    (d.operation now s op).1.revision = d.revision ∧ d.issued ≤ (d.operation now s op).1.issued := by
  have hrevision := d.expire_revision now
  have hissued := (d.expire_issued now).ge
  unfold operation
  cases op with
  | begin duration =>
      simp only
      split_ifs
      · exact ⟨hrevision, hissued⟩
      · exact ⟨hrevision, hissued⟩
      · exact ⟨hrevision, by simp [expire_issued]⟩
  | observe id => exact ⟨hrevision, hissued⟩
  | «seal» observed =>
      simp only
      split
      · exact ⟨hrevision, hissued⟩
      · split_ifs <;> exact ⟨hrevision, hissued⟩
  | cancel id =>
      simp only
      split_ifs <;> exact ⟨hrevision, hissued⟩

theorem handle_counts (k : Office P) (now : Instant) (r : WorkerRequest P) :
    k.drain.revision ≤ (k.handle now r).1.drain.revision ∧ k.drain.issued ≤ (k.handle now r).1.drain.issued := by
  by_cases hr : r.tracked = true
  · have hchecked := admission_checked k now hr
    unfold handle
    split
    · next d hpass =>
        rw [hpass] at hchecked
        rw [carryOut_drain _ _ (tracked_ne_drain hr)]
        exact ⟨hchecked.counted, hchecked.issued.ge⟩
    · next d e hrefused =>
        rw [hrefused] at hchecked
        exact ⟨hchecked.counted, hchecked.issued.ge⟩
  · rw [Bool.not_eq_true] at hr
    have hcarry : ∀ d : Drain, d.revision = k.drain.revision → d.issued = k.drain.issued →
        k.drain.revision ≤ ({ k with drain := d }.carryOut now r).1.drain.revision ∧
          k.drain.issued ≤ ({ k with drain := d }.carryOut now r).1.drain.issued := by
      intro d hrevision hissued
      cases r with
      | drain op =>
          obtain ⟨h₁, h₂⟩ := operation_counts d now k.store op
          exact ⟨(h₁.trans hrevision).ge, hissued ▸ h₂⟩
      | store | remoteControl | retentionStatus | other | targetDisposition =>
          rw [carryOut_drain _ _ (by simp)]
          exact ⟨hrevision.ge, hissued.ge⟩
    rcases admission_untracked k now hr with h | h <;> simp only [handle, h]
    · exact hcarry _ rfl rfl
    · exact hcarry _ (k.drain.expire_revision now) (k.drain.expire_issued now)

theorem handle_counted (hr : r.tracked) (hpass : (k.admission now r).2 = .ok ()) :
    k.drain.revision < (k.handle now r).1.drain.revision := by
  have hchecked := admission_checked k now hr
  have hlt := (hchecked.passed hpass).1
  unfold handle
  split
  · next d h =>
      rw [h] at hlt
      rw [carryOut_drain _ _ (tracked_ne_drain hr)]
      exact hlt
  · next h =>
      rw [h] at hpass
      cases hpass

theorem run_counts (k : Office P) (requests : List (Instant × WorkerRequest P)) :
    k.drain.revision ≤ (k.run requests).drain.revision ∧ k.drain.issued ≤ (k.run requests).drain.issued := by
  refine Transition.run_invariant
    (P := fun k' : Office P => k.drain.revision ≤ k'.drain.revision ∧ k.drain.issued ≤ k'.drain.issued) ?_ requests
    ⟨le_rfl, le_rfl⟩
  rintro k' ⟨now, r⟩ ⟨hrevision, hissued⟩
  obtain ⟨hrevision', hissued'⟩ := handle_counts k' now r
  exact ⟨hrevision.trans hrevision', hissued.trans hissued'⟩

theorem run_guarded (h : k.Guarded) (requests : List (Instant × WorkerRequest P)) : (k.run requests).Guarded :=
  Transition.run_invariant (P := Guarded) (fun _ request hk => handle_guarded hk request.1 request.2) requests h

def next (k : Office P) (now : Instant) (r : WorkerRequest P) : Office P := (k.handle now r).1

def reply (k : Office P) (now : Instant) (r : WorkerRequest P) : Except StorageError DrainOutcome := (k.handle now r).2

theorem seal_done {o : DrainObservation} (h : k.reply now (.drain (.seal o)) = .ok .done) :
    o.revision = k.drain.revision ∧ (k.store.inventory o.window o.revision).isIdle := by
  simp only [reply, handle, admission, carryOut, operation] at h
  split at h
  · cases h
  · split_ifs at h with hstale
    push Not at hstale
    rw [expire_revision] at hstale
    refine ⟨hstale.1, ?_⟩
    rw [hstale.1]
    simpa using hstale.2

theorem observe_eq {id : DrainId} {o : DrainObservation}
    (h : k.reply now (.drain (.observe id)) = .ok (.observation o)) :
    o.revision = (k.next now (.drain (.observe id))).drain.revision := by
  simp only [reply, handle, admission, carryOut, operation, bind_eq_ok, pure_eq_ok, DrainOutcome.observation.injEq] at h
  obtain ⟨_, _, rfl⟩ := h
  rfl

theorem begin_eq {duration : Nat} {id : DrainId} (h : k.reply now (.drain (.begin duration)) = .ok (.window id)) :
    id = k.drain.issued ∧ (k.next now (.drain (.begin duration))).drain.issued = id + 1 := by
  simp only [reply, next, handle, admission, carryOut, operation] at h ⊢
  split_ifs at h ⊢
  cases h
  exact ⟨k.drain.expire_issued now, rfl⟩

omit [Wire P] in
theorem operational_iff : r.operational ↔ r.tracked ∨ r = .store .interruptDeviceReports := by
  cases r with
  | store request =>
      cases request with
      | interruptDeviceReports => exact iff_of_true rfl (.inr rfl)
      | _ => exact ⟨.inl, fun h => h.resolve_right (by simp)⟩
  | _ => exact ⟨.inl, fun h => h.resolve_right (by simp)⟩

/-- Nothing that works on the store passes while the revision stands, except that the reports of the stations are given
up without a look at the drain. -/
theorem run_stale (between : List (Instant × WorkerRequest P)) (h : (k.run between).drain.revision = k.drain.revision) :
    (∀ xs t r ys, between = xs ++ (t, r) :: ys → r.operational → ((k.run xs).admission t r).2 ≠ .ok ()) ↔
      ∀ request ∈ between, request.2 ≠ .store .interruptDeviceReports := by
  constructor
  · rintro hnone ⟨t, r⟩ hmem (rfl : r = _)
    obtain ⟨xs, ys, rfl⟩ := List.append_of_mem hmem
    exact hnone xs t _ ys rfl rfl rfl
  · rintro hnone xs t r ys rfl hr hpass
    have htracked := (operational_iff.mp hr).resolve_right (hnone (t, r) (by simp))
    have hbefore := (run_counts k xs).1
    have hcounted := handle_counted htracked hpass
    have hafter := (run_counts ((k.run xs).handle t r).1 ys).1
    have hrun : k.run (xs ++ (t, r) :: ys) = ((k.run xs).handle t r).1.run ys := by
      simp only [run, List.foldl_append, List.foldl_cons]
    rw [hrun] at h
    omega

/-- At any times, a sealed drain stands over a store without work, and since the observation that its seal names no
request that works on the store was let through, unless one gave up the reports of the stations. -/
theorem run_drain (store : Store P) (requests : List (Instant × WorkerRequest P)) :
    let k := Office.run ⟨{}, store⟩ requests
    (∀ w, k.drain.window = some w → w.sealed → (k.store.inventory w.id k.drain.revision).isIdle) ∧
    (∀ t o, k.reply t (.drain (.seal o)) = .ok .done → (k.store.inventory o.window o.revision).isIdle) ∧
    (∀ t id o between t', k.reply t (.drain (.observe id)) = .ok (.observation o) →
      ((k.next t (.drain (.observe id))).run between).reply t' (.drain (.seal o)) = .ok .done →
        ((∀ xs u r ys, between = xs ++ (u, r) :: ys → r.operational →
          (((k.next t (.drain (.observe id))).run xs).admission u r).2 ≠ .ok ()) ↔
            ∀ request ∈ between, request.2 ≠ .store .interruptDeviceReports)) ∧
    ∀ t duration older between t' duration' newer more t'' w,
      k.reply t (.drain (.begin duration)) = .ok (.window older) →
      ((k.next t (.drain (.begin duration))).run between).reply t' (.drain (.begin duration')) = .ok (.window newer) →
      let k' := (((k.next t (.drain (.begin duration))).run between).next t' (.drain (.begin duration'))).run more
      k'.drain.window = some w → w.id = newer → t'' < w.deadline →
        (k'.next t'' (.drain (.cancel older))).drain.window = some w := by
  intro k
  have hguarded : k.Guarded := run_guarded (fun hs => by cases hs) requests
  refine ⟨fun w hw hs => ?_, fun t o h => (seal_done h).2, ?_, ?_⟩
  · exact hguarded (by simp [sealed, hw, hs])
  · intro t id o between t' hobserve hseal
    exact run_stale between ((seal_done hseal).1.symm.trans (observe_eq hobserve))
  · intro t duration older between t' duration' newer more t'' w holder hnewer k' hw hid hdeadline
    obtain ⟨rfl, hissued⟩ := begin_eq holder
    obtain ⟨rfl, _⟩ := begin_eq hnewer
    have hle := (run_counts (k.next t (.drain (.begin duration))) between).2
    have hne : w.id ≠ k.drain.issued := by
      rw [hid]
      rw [hissued] at hle
      exact (Nat.lt_of_succ_le hle).ne'
    have hkept : k'.drain.expire t'' = k'.drain := by
      rw [expire, hw, if_neg (by simpa using hdeadline)]
    simp only [next, handle, admission, carryOut, operation, hkept, hw]
    rw [if_neg (by simpa using hne)]
    exact hw

/-- A privileged command that comes between the observation and the seal is denied. -/
theorem sample_drain :
    let k : Office Document := Office.run ⟨{}, .empty⟩ [(0, .drain (.begin 1000))]
    ((k.next 1 (.drain (.observe 0))).admission 2 (.store sampleAdmission)).2 ≠ .ok () :=
  ((run_drain .empty [(0, .drain (.begin 1000))]).2.2.1 1 0 ⟨0, 0, 0, 0, 0⟩ [(2, .store sampleAdmission)] 3
    (by decide +kernel) (by decide +kernel)).mpr (by simp [sampleAdmission]) [] 2 (.store sampleAdmission) [] rfl rfl

def sampleQueryCommand : Command Document :=
  { sampleCommand with
    operation := .ocpp ⟨.ocpp201, "GetBaseReport", "urn:OCPP:Cp:2:2020:3:GetBaseReportRequest", .empty⟩ }

def sampleQuery (report : DeviceReportState201) : CommandResult :=
  { sampleResult (.protocolResponse true none) with
    schemaVersion := .v1DeviceModel201
    deviceModel201 := some {
      query := .getBaseReport 1 "FullInventory"
      connection := "connection"
      generation := 0
      dispatchRecordedAt := 0
      nativeAck := some .accepted
      variableResults := []
      report := report } }

/-- A station accepted a query, and its report has not come yet. Nothing is left for the drain to wait for, it is
observed, the report is given up, which rewrites the result of the query, and the old observation still seals. -/
theorem interruption_passes_observation :
    let requests :=
      [(0, .store (.write none { command := some sampleQueryCommand, commandResult := some (sampleResult .admitted) })),
        (1, .store (.write none { commandResult := some (sampleQuery .pending) })), (2, .drain (.begin 1000))]
    let k : Office Document := Office.run ⟨{}, .empty⟩ requests
    let observed := k.next 3 (.drain (.observe 0))
    let interrupted := observed.next 4 (.store .interruptDeviceReports)
    k.reply 3 (.drain (.observe 0)) = .ok (.observation ⟨0, 2, 0, 0, 0⟩) ∧
    observed.reply 4 (.store .interruptDeviceReports) = .ok .done ∧
    observed.store.journal.result? "request" = some (sampleQuery .pending) ∧
    interrupted.store.journal.result? "request" = some (sampleQuery (.incomplete .interrupted none)) ∧
    interrupted.reply 5 (.drain (.seal ⟨0, 2, 0, 0, 0⟩)) = .ok .done := by
  decide +kernel

end Office

end OcppBridge.Operational
