import Mathlib.Data.List.Chain
import Mathlib.Tactic.IntervalCases
import OcppBridge.Supervision.Records

namespace OcppBridge.Supervision.Classifier

open Transaction
open Activation (InstallError)

structure Policy where
  startupSeconds : Nat
  exitWindowSeconds : Nat
  exitCount : Nat
  readinessGraceSeconds : Nat
  readinessIntervalSeconds : Nat
  readinessCount : Nat
  deriving DecidableEq, Repr

namespace Policy

def standard : Policy where
  startupSeconds := 30
  exitWindowSeconds := 120
  exitCount := 3
  readinessGraceSeconds := 30
  readinessIntervalSeconds := 10
  readinessCount := 3

def validate (p : Policy) : Except InstallError Unit :=
  require ((∀ v ∈ [p.startupSeconds, p.exitWindowSeconds, p.readinessIntervalSeconds], 1 ≤ v ∧ v ≤ 86400) ∧
      p.readinessGraceSeconds ≤ 86400 ∧ (1 ≤ p.exitCount ∧ p.exitCount ≤ 64) ∧
      1 ≤ p.readinessCount ∧ p.readinessCount ≤ 64)
    (.rejected "invalid failure policy")

end Policy

inductive Signal
  | started (invocation : Nat)
  | coreReady
  | startupPending
  | internalReadinessFailure
  | exit (desiredRunning unexpected : Bool)
  | watchdog
  | oom
  | fatalInvariant (dataValidAndCompatible : Bool)
  | mqttOutage
  | emsOutage
  | externalDatabaseOutage
  | credentialRejection
  | malformedChargerTraffic
  | noChargers
  | corruptStorage
  | fullStorage
  | osKernelFailure
  | bothVersionsFailed
  deriving DecidableEq, Repr

namespace Signal

def recovery : Signal → Bool
  | corruptStorage | fullStorage | osKernelFailure | bothVersionsFailed | fatalInvariant false => true
  | _ => false

def degradation : Signal → Bool
  | mqttOutage | emsOutage | externalDatabaseOutage | credentialRejection | malformedChargerTraffic | noChargers => true
  | _ => false

def pressure : Signal → Bool
  | internalReadinessFailure | startupPending | exit true true | oom | watchdog | fatalInvariant _ => true
  | _ => false

/-- What is classified after staging has been stopped: a dead process gives no further sample. -/
def outlivesStaging : Signal → Bool
  | exit _ _ | oom | watchdog | fatalInvariant _ => true
  | _ => false

end Signal

structure Observation where
  id : Nat
  atSeconds : Nat
  signal : Signal
  resourcePressure : Bool
  deriving DecidableEq, Repr

structure Audit where
  observation : Observation
  decision : Decision
  deriving DecidableEq, Repr

inductive Staging
  | unchecked
  | pending
  | stopped
  deriving DecidableEq, Repr

structure State where
  policy : Option Policy := none
  decision : Decision := .observe
  last : Option Observation := none
  invocation : Nat := 0
  startedAt : Option Nat := none
  coreReady : Bool := false
  exitRecorded : Bool := false
  exits : List Nat := []
  readinessFailures : List Nat := []
  staging : Staging := .unchecked
  pendingPressure : Option Observation := none
  trigger : Option Audit := none
  audit : List Audit := []
  deriving DecidableEq, Repr

def final (d : Decision) : Bool := d = .rollbackRequired || d = .recoveryRequired

namespace State

def Due (interval : Nat) (failures : List Nat) (at' : Nat) : Prop := ∀ last ∈ failures.getLast?, interval ≤ at' - last

instance (interval : Nat) (failures : List Nat) (at' : Nat) : Decidable (Due interval failures at') :=
  inferInstanceAs (Decidable (∀ last ∈ failures.getLast?, interval ≤ at' - last))

/-- The failures that count after one more; a missed scheduled check breaks the sequence. -/
def counted (interval : Nat) (failures : List Nat) (at' : Nat) : List Nat :=
  (if failures.getLast?.any fun last => interval < at' - last then [] else failures) ++ [at']

def evaluate (s : State) (p : Policy) (o : Observation) (started : Nat) : State × Decision :=
  match o.signal with
  | .coreReady => ({ s with coreReady := true, readinessFailures := [] }, .observe)
  | .startupPending =>
      (s, if !s.coreReady ∧ p.startupSeconds ≤ o.atSeconds - started then .rollbackRequired else .observe)
  | .internalReadinessFailure =>
      if p.readinessGraceSeconds ≤ o.atSeconds - started ∧
          Due p.readinessIntervalSeconds s.readinessFailures o.atSeconds then
        let failures := counted p.readinessIntervalSeconds s.readinessFailures o.atSeconds
        ({ s with readinessFailures := failures },
          if p.readinessCount ≤ failures.length then .rollbackRequired else .observe)
      else (s, .observe)
  | .exit true true | .watchdog | .oom =>
      if s.exitRecorded then (s, .observe)
      else
        let exits := s.exits.filter (fun at' => o.atSeconds - at' ≤ p.exitWindowSeconds) ++ [o.atSeconds]
        ({ s with exitRecorded := true, exits }, if p.exitCount ≤ exits.length then .rollbackRequired else .observe)
  | .fatalInvariant true => (s, .rollbackRequired)
  | _ => (s, .observe)

def classify (s : State) (p : Policy) (o : Observation) : Except InstallError (State × Decision) :=
  if o.signal.recovery || s.decision = .recoveryRequired then pure (s, .recoveryRequired)
  else if s.decision = .rollbackRequired then pure (s, .rollbackRequired)
  else if o.signal.degradation then pure (s, if s.staging = .pending then .stopStaging else .degraded)
  else match o.signal with
    | .started invocation => do
        require (s.staging ≠ .pending) (.rejected "resolve pending staging shutdown before a new invocation")
        require (s.invocation < invocation) (.rejected "stale invocation")
        pure ({ s with
          invocation, startedAt := some o.atSeconds, coreReady := false, exitRecorded := false
          readinessFailures := [] }, .observe)
    | signal =>
        match s.startedAt with
        | none => .error (.rejected "missing invocation start")
        | some started =>
            if s.staging = .pending ∨ (o.resourcePressure ∧ signal.pressure ∧ s.staging ≠ .stopped) then
              pure ({ s with
                staging := .pending, pendingPressure := s.pendingPressure.or (some o)
                readinessFailures := [] }, .stopStaging)
            else pure (s.evaluate p o started)

def recorded (s : State) (o : Observation) (decision : Decision) : State :=
  { s with
    decision
    last := some o
    trigger := if final decision ∧ s.decision ≠ decision then some ⟨o, decision⟩ else s.trigger
    audit := (if s.audit.length = 64 then s.audit.tail else s.audit) ++ [⟨o, decision⟩] }

def observe (s : State) (p : Policy) (o : Observation) : Except InstallError State := do
  p.validate
  require ((∀ q ∈ s.policy, q = p) ∧ o.id ≠ 0 ∧ ∀ last ∈ s.last, last.id < o.id ∧ last.atSeconds ≤ o.atSeconds)
    (.rejected "changed policy or reordered failure observation")
  let (next, decision) ← { s with policy := some p }.classify p o
  pure (next.recorded o decision)

/-- The outcome of stopping the staging slice. -/
def stagingStopped (s : State) (success : Bool) : State :=
  let stopped : State :=
    if success then { s with staging := .stopped, decision := .recheckAfterStaging, pendingPressure := none }
    else { s with staging := .pending, decision := .recoveryRequired }
  let evaluated : State :=
    match success, s.pendingPressure, s.policy, s.startedAt with
    | true, some o, some p, some started =>
        if o.signal.outlivesStaging then
          let (next, decision) := stopped.evaluate p o started
          { next with decision }
        else stopped
    | _, _, _, _ => stopped
  let triggered : State :=
    if final evaluated.decision then { evaluated with trigger := evaluated.last.map (⟨·, evaluated.decision⟩) }
    else evaluated
  { triggered with
    audit := match triggered.audit.getLast? with
      | some a => triggered.audit.dropLast ++ [{ a with decision := triggered.decision }]
      | none => [] }

def observeAll (s : State) (p : Policy) (os : List Observation) : Except InstallError State :=
  os.foldlM (fun s o => s.observe p o) s

section Readiness

variable {s s' : State} {p : Policy} {o : Observation} {os : List Observation} {start first k at' : Nat}

/-- One invocation is being watched: nothing final has been decided, and these readiness failures count so far. -/
structure Watching (s : State) (p : Policy) (start : Nat) (failures : List Nat) : Prop where
  valid : p.validate = .ok ()
  policy : ∀ q ∈ s.policy, q = p
  undecided : final s.decision = false
  started : s.startedAt = some start
  staging : s.staging ≠ .pending
  failures : s.readinessFailures = failures

def Follows (a b : Observation) : Prop := a.id < b.id ∧ a.atSeconds ≤ b.atSeconds

instance (a b : Observation) : Decidable (Follows a b) := inferInstanceAs (Decidable (_ ∧ _))

/-- Readiness failures alone, after the grace, at most an interval apart and over `readinessCount` intervals. -/
structure ReadinessFailures (s : State) (p : Policy) (start : Nat) (os : List Observation) : Prop where
  signal : ∀ o ∈ os, o.signal = .internalReadinessFailure
  nonzero : ∀ o ∈ os, o.id ≠ 0
  ordered : (s.last.toList ++ os).IsChain Follows
  pressure : ∀ o ∈ os, o.resourcePressure → s.staging = .stopped
  grace : ∀ o ∈ os, start + p.readinessGraceSeconds ≤ o.atSeconds
  gaps : os.IsChain fun a b => b.atSeconds ≤ a.atSeconds + p.readinessIntervalSeconds
  span : ∃ a ∈ os.head?, ∃ b ∈ os.getLast?,
    a.atSeconds + p.readinessCount * p.readinessIntervalSeconds ≤ b.atSeconds

/-- The samples that are due after `first`. -/
def schedule (p : Policy) (first k : Nat) : List Nat := (List.range k).map (first + · * p.readinessIntervalSeconds)

/-- Each of the `readinessCount` scheduled times, counted from the first observation, has been sampled. -/
def Scheduled (p : Policy) (os : List Observation) : Prop :=
  ∀ a ∈ os.head?, ∀ at' ∈ schedule p a.atSeconds p.readinessCount, ∃ o ∈ os, o.atSeconds = at'

theorem schedule_succ : schedule p first (k + 1) = schedule p first k ++ [first + k * p.readinessIntervalSeconds] := by
  simp [schedule, List.range_succ]

theorem schedule_length : (schedule p first k).length = k := by simp [schedule]

theorem schedule_getLast? : (schedule p first (k + 1)).getLast? = some (first + k * p.readinessIntervalSeconds) := by
  rw [schedule_succ, List.getLast?_concat]

theorem counted_schedule (hat : at' = first + k * p.readinessIntervalSeconds) :
    Due p.readinessIntervalSeconds (schedule p first k) at' ∧
      counted p.readinessIntervalSeconds (schedule p first k) at' = schedule p first (k + 1) := by
  cases k with
  | zero => simp [Due, counted, schedule, hat]
  | succ k =>
      have hdiff : at' - (first + k * p.readinessIntervalSeconds) = p.readinessIntervalSeconds := by
        rw [hat, Nat.succ_mul]
        omega
      simp only [Due, counted, schedule_getLast?, Option.mem_some_iff, forall_eq', hdiff, Option.any_some]
      refine ⟨Nat.le_refl _, ?_⟩
      rw [schedule_succ (k := k + 1), ← hat]
      simp

theorem not_due_schedule (hpos : 0 < p.readinessIntervalSeconds)
    (hlt : at' < first + (k + 1) * p.readinessIntervalSeconds) :
    ¬Due p.readinessIntervalSeconds (schedule p first (k + 1)) at' := by
  simp only [Due, schedule_getLast?, Option.mem_some_iff, forall_eq']
  rw [Nat.succ_mul] at hlt
  omega

def afterFailure (s : State) (p : Policy) (o : Observation) : State :=
  if Due p.readinessIntervalSeconds s.readinessFailures o.atSeconds then
    let failures := counted p.readinessIntervalSeconds s.readinessFailures o.atSeconds
    { s with policy := some p, readinessFailures := failures }.recorded o
      (if p.readinessCount ≤ failures.length then .rollbackRequired else .observe)
  else { s with policy := some p }.recorded o .observe

theorem observe_eq_ok : s.observe p o = .ok s' ↔
    p.validate = .ok () ∧ (∀ q ∈ s.policy, q = p) ∧ o.id ≠ 0 ∧ (∀ last ∈ s.last, Follows last o) ∧
      ∃ next d, { s with policy := some p }.classify p o = .ok (next, d) ∧ next.recorded o d = s' := by
  simp [observe, bind_eq_ok, require_eq_ok, Follows, and_assoc, Unique.exists_iff]

theorem observe_readinessFailure {failures : List Nat} (hw : s.Watching p start failures)
    (hsignal : o.signal = .internalReadinessFailure) (hid : o.id ≠ 0) (hlast : ∀ last ∈ s.last, Follows last o)
    (hpressure : o.resourcePressure → s.staging = .stopped) (hgrace : start + p.readinessGraceSeconds ≤ o.atSeconds) :
    s.observe p o = .ok (s.afterFailure p o) := by
  have hundecided := hw.undecided
  simp only [final, Bool.or_eq_false_iff, decide_eq_false_iff_not] at hundecided
  have hdefer : ¬(s.staging = .pending ∨ (o.resourcePressure ∧ s.staging ≠ .stopped)) := by
    rintro (h | ⟨h, hne⟩)
    · exact hw.staging h
    · exact hne (hpressure h)
  have helapsed : p.readinessGraceSeconds ≤ o.atSeconds - start := by omega
  have hclassify : { s with policy := some p }.classify p o = .ok ({ s with policy := some p }.evaluate p o start) := by
    simp [classify, hsignal, Signal.recovery, Signal.degradation, Signal.pressure, hundecided, hw.started, hdefer]
  refine observe_eq_ok.mpr ⟨hw.valid, hw.policy, hid, hlast, _, _, hclassify, ?_⟩
  by_cases hdue : Due p.readinessIntervalSeconds s.readinessFailures o.atSeconds
  · simp [hsignal, helapsed, hdue, afterFailure]
  · simp [hsignal, helapsed, hdue, afterFailure]

theorem observe_rollbackRequired (hvalid : p.validate = .ok ()) (hpolicy : ∀ q ∈ s.policy, q = p)
    (hdecision : s.decision = .rollbackRequired) (hsignal : o.signal = .internalReadinessFailure) (hid : o.id ≠ 0)
    (hlast : ∀ last ∈ s.last, Follows last o) :
    s.observe p o = .ok ({ s with policy := some p }.recorded o .rollbackRequired) := by
  have hclassify : { s with policy := some p }.classify p o = .ok ({ s with policy := some p }, .rollbackRequired) := by
    simp [classify, hsignal, Signal.recovery, hdecision, pure, Except.pure]
  exact observe_eq_ok.mpr ⟨hvalid, hpolicy, hid, hlast, _, _, hclassify, rfl⟩

theorem isChain_last (h : (s.last.toList ++ o :: os).IsChain Follows) :
    (∀ last ∈ s.last, Follows last o) ∧ (o :: os).IsChain Follows := by
  cases hlast : s.last with
  | none =>
      rw [hlast] at h
      exact ⟨nofun, h⟩
  | some last =>
      rw [hlast] at h
      obtain ⟨hfollows, hchain⟩ := List.isChain_cons_cons.mp h
      refine ⟨?_, hchain⟩
      rintro _ ⟨⟩
      exact hfollows

theorem observeAll_cons (h : s.observe p o = .ok s') : s.observeAll p (o :: os) = s'.observeAll p os := by
  simp only [observeAll, List.foldlM_cons, h]
  rfl

/-- What a list of readiness failures must satisfy to be accepted one after the other. -/
structure Acceptable (s : State) (os : List Observation) : Prop where
  signal : ∀ o ∈ os, o.signal = .internalReadinessFailure
  nonzero : ∀ o ∈ os, o.id ≠ 0
  ordered : (s.last.toList ++ os).IsChain Follows

theorem Acceptable.tail (h : s.Acceptable (o :: os)) (hlast : s'.last = some o) : s'.Acceptable os where
  signal := fun x hx => h.signal x (List.mem_cons_of_mem _ hx)
  nonzero := fun x hx => h.nonzero x (List.mem_cons_of_mem _ hx)
  ordered := by
    rw [hlast]
    exact (isChain_last h.ordered).2

theorem observeAll_rollbackRequired (hvalid : p.validate = .ok ()) (hpolicy : ∀ q ∈ s.policy, q = p)
    (hdecision : s.decision = .rollbackRequired) (hos : s.Acceptable os) :
    ∃ s', s.observeAll p os = .ok s' ∧ s'.decision = .rollbackRequired := by
  induction os generalizing s with
  | nil => exact ⟨s, rfl, hdecision⟩
  | cons o os ih =>
      have hobserve := observe_rollbackRequired hvalid hpolicy hdecision (hos.signal o List.mem_cons_self)
        (hos.nonzero o List.mem_cons_self) (isChain_last hos.ordered).1
      rw [observeAll_cons hobserve]
      apply ih
      · simp [recorded]
      · rfl
      · exact hos.tail rfl

/-- The rest of a run in which `k` scheduled samples have been counted. -/
structure Remaining (s : State) (p : Policy) (start first k : Nat) (os : List Observation) : Prop where
  watching : s.Watching p start (schedule p first k)
  acceptable : s.Acceptable os
  pressure : ∀ o ∈ os, o.resourcePressure → s.staging = .stopped
  grace : ∀ o ∈ os, start + p.readinessGraceSeconds ≤ o.atSeconds
  later : ∀ o ∈ os, first ≤ o.atSeconds
  sampled : ∀ j, k ≤ j → j < p.readinessCount → ∃ o ∈ os, o.atSeconds = first + j * p.readinessIntervalSeconds

theorem le_atSeconds (h : (o :: os).IsChain Follows) {x : Observation} (hx : x ∈ o :: os) :
    o.atSeconds ≤ x.atSeconds := by
  obtain rfl | hx := List.mem_cons.mp hx
  · exact Nat.le_refl _
  · have htrans : Trans Follows Follows Follows :=
      ⟨fun hab hbc => ⟨Nat.lt_trans hab.1 hbc.1, Nat.le_trans hab.2 hbc.2⟩⟩
    exact (List.pairwise_cons.mp h.pairwise).1 x hx |>.2

theorem Remaining.tail {k' : Nat} (h : s.Remaining p start first k (o :: os)) (hk : k ≤ k')
    (hw : s'.Watching p start (schedule p first k')) (hlast : s'.last = some o) (hstaging : s'.staging = s.staging)
    (hlate : o.atSeconds < first + k' * p.readinessIntervalSeconds) : s'.Remaining p start first k' os where
  watching := hw
  acceptable := h.acceptable.tail hlast
  pressure := by
    intro x hx hp
    rw [hstaging]
    exact h.pressure x (List.mem_cons_of_mem _ hx) hp
  grace := fun x hx => h.grace x (List.mem_cons_of_mem _ hx)
  later := fun x hx => h.later x (List.mem_cons_of_mem _ hx)
  sampled := by
    intro j hkj hj
    obtain ⟨x, hx, hxat⟩ := h.sampled j (Nat.le_trans hk hkj) hj
    obtain rfl | hx := List.mem_cons.mp hx
    · have := Nat.mul_le_mul_right p.readinessIntervalSeconds hkj
      omega
    · exact ⟨x, hx, hxat⟩

theorem Remaining.early (hinterval : 0 < p.readinessIntervalSeconds) (h : s.Remaining p start first k (o :: os))
    (hlt : o.atSeconds < first + k * p.readinessIntervalSeconds) :
    (s.afterFailure p o).Remaining p start first k os := by
  have hw := h.watching
  have hdue : ¬Due p.readinessIntervalSeconds s.readinessFailures o.atSeconds := by
    cases k with
    | zero =>
        have := h.later o List.mem_cons_self
        omega
    | succ k =>
        rw [hw.failures]
        exact not_due_schedule hinterval hlt
  have hafter : s.afterFailure p o = { s with policy := some p }.recorded o .observe := by
    rw [afterFailure, if_neg hdue]
  rw [hafter]
  exact h.tail (Nat.le_refl k) ⟨hw.valid, by simp [recorded], rfl, hw.started, hw.staging, hw.failures⟩ rfl rfl hlt

theorem Remaining.sample (hinterval : 0 < p.readinessIntervalSeconds) (h : s.Remaining p start first k (o :: os))
    (hat : o.atSeconds = first + k * p.readinessIntervalSeconds) :
    if p.readinessCount ≤ k + 1 then (s.afterFailure p o).decision = .rollbackRequired
    else (s.afterFailure p o).Remaining p start first (k + 1) os := by
  have hw := h.watching
  obtain ⟨hdue, hcounted⟩ := counted_schedule hat
  have hafter : s.afterFailure p o =
      { s with policy := some p, readinessFailures := schedule p first (k + 1) }.recorded o
        (if p.readinessCount ≤ k + 1 then .rollbackRequired else .observe) := by
    rw [afterFailure, hw.failures, if_pos hdue, hcounted]
    simp only [schedule_length]
  rw [hafter]
  split_ifs with hcount
  · rfl
  · refine h.tail (Nat.le_succ k) ⟨hw.valid, by simp [recorded], rfl, hw.started, hw.staging, rfl⟩ rfl rfl ?_
    rw [hat, Nat.succ_mul]
    omega

theorem afterFailure_policy : (s.afterFailure p o).policy = some p ∧ (s.afterFailure p o).last = some o := by
  unfold afterFailure
  split_ifs <;> exact ⟨rfl, rfl⟩

theorem Remaining.run (hinterval : 0 < p.readinessIntervalSeconds) (hk : k < p.readinessCount)
    (h : s.Remaining p start first k os) : ∃ s', s.observeAll p os = .ok s' ∧ s'.decision = .rollbackRequired := by
  induction os generalizing s k with
  | nil =>
      obtain ⟨_, hx, _⟩ := h.sampled k (Nat.le_refl k) hk
      cases hx
  | cons o os ih =>
      have hself : o ∈ o :: os := List.mem_cons_self
      obtain ⟨hlast, hchain⟩ := isChain_last h.acceptable.ordered
      have hobserve := observe_readinessFailure h.watching (h.acceptable.signal o hself) (h.acceptable.nonzero o hself)
        hlast (h.pressure o hself) (h.grace o hself)
      rw [observeAll_cons hobserve]
      -- the sample for the next scheduled time is still to come, so this observation is not after it
      obtain ⟨x, hx, hxat⟩ := h.sampled k (Nat.le_refl k) hk
      have hle : o.atSeconds ≤ first + k * p.readinessIntervalSeconds := hxat ▸ le_atSeconds hchain hx
      by_cases hat : o.atSeconds = first + k * p.readinessIntervalSeconds
      · have hsample := h.sample hinterval hat
        by_cases hcount : p.readinessCount ≤ k + 1
        · rw [if_pos hcount] at hsample
          apply observeAll_rollbackRequired h.watching.valid _ hsample (h.acceptable.tail afterFailure_policy.2)
          simp [afterFailure_policy.1]
        · rw [if_neg hcount] at hsample
          exact ih (by omega) hsample
      · exact ih hk (h.early hinterval (by omega))

/-- Sampling at every scheduled time, and as often as one likes in between, leads to the rollback decision. -/
theorem scheduled_failures_require_rollback (hw : s.Watching p start []) (hos : s.ReadinessFailures p start os)
    (hscheduled : Scheduled p os) : ∃ s', s.observeAll p os = .ok s' ∧ s'.decision = .rollbackRequired := by
  obtain ⟨hdurations, _, _, hcount, _⟩ := require_eq_ok.mp hw.valid
  have hinterval : 0 < p.readinessIntervalSeconds := (hdurations _ (by simp)).1
  obtain ⟨a, ha, _⟩ := hos.span
  cases os with
  | nil => cases ha
  | cons o os =>
      have hchain := (isChain_last hos.ordered).2
      have hremaining : s.Remaining p start o.atSeconds 0 (o :: os) := by
        refine ⟨hw, ⟨hos.signal, hos.nonzero, hos.ordered⟩, hos.pressure, hos.grace,
          fun x hx => le_atSeconds hchain hx, ?_⟩
        intro j _ hj
        exact hscheduled o rfl _ (List.mem_map.mpr ⟨j, List.mem_range.mpr hj, rfl⟩)
      exact hremaining.run hinterval hcount

def launched : State :=
  { policy := some .standard, invocation := 1, startedAt := some 0, last := some ⟨1, 0, .started 1, false⟩
    audit := [⟨⟨1, 0, .started 1, false⟩, .observe⟩] }

def failuresAt (times : List Nat) : List Observation :=
  times.mapIdx fun i at' => ⟨i + 2, at', .internalReadinessFailure, false⟩

theorem launched_watching : launched.Watching .standard 0 [] :=
  ⟨rfl, by decide, rfl, rfl, by decide, rfl⟩

theorem readinessFailures_fast :
    launched.ReadinessFailures .standard 0 (failuresAt [30, 35, 40, 45, 50, 55, 60]) :=
  ⟨by decide, by decide, by decide, by decide, by decide, by decide, _, rfl, _, rfl, by decide⟩

/-- Samples twice as fast as the interval. -/
theorem scheduled_failures_fast :
    (∃ s, ({} : State).observe .standard ⟨1, 0, .started 1, false⟩ = .ok s ∧ s = launched) ∧
    ∃ s', launched.observeAll .standard (failuresAt [30, 35, 40, 45, 50, 55, 60]) = .ok s' ∧
      s'.decision = .rollbackRequired :=
  ⟨⟨_, rfl, rfl⟩,
    scheduled_failures_require_rollback launched_watching readinessFailures_fast (by unfold Scheduled; decide)⟩

theorem readinessFailures_sevenths : launched.ReadinessFailures .standard 0 (failuresAt [30, 37, 44, 51, 58, 65, 72]) :=
  ⟨by decide, by decide, by decide, by decide, by decide, by decide, _, rfl, _, rfl, by decide⟩

/-- Samples every 7 seconds: one after 7 seconds is too early to count, one after 14 seconds is a missed check. -/
theorem unaligned_failures_never_count :
    launched.Watching .standard 0 [] ∧
    launched.ReadinessFailures .standard 0 (failuresAt [30, 37, 44, 51, 58, 65, 72]) ∧
    ∀ n ≤ 7, ∃ s, launched.observeAll .standard ((failuresAt [30, 37, 44, 51, 58, 65, 72]).take n) = .ok s ∧
      s.decision = .observe ∧ s.readinessFailures.length ≤ 1 := by
  refine ⟨launched_watching, readinessFailures_sevenths, ?_⟩
  intro n hn
  interval_cases n
  all_goals exact ⟨_, rfl, by decide, by decide⟩

end Readiness

end State

end OcppBridge.Supervision.Classifier
