import OcppBridge.Supervision.Classifier

namespace OcppBridge.Supervision.Classifier

open Transaction
open Activation (InstallError)

def Signal.internal : Signal → Bool
  | watchdog | oom | internalReadinessFailure | startupPending | fatalInvariant _ | exit true true => true
  | _ => false

/-- What is no failure of the service itself: a start, readiness, or an outage outside it. -/
def Signal.harmless : Signal → Bool
  | started _ | coreReady => true
  | signal => signal.degradation

namespace State

def Consistent (s : State) (p : Policy) (last : Observation) : Prop :=
  s.startedAt.isSome = decide (s.invocation ≠ 0) ∧
  (∀ o ∈ s.pendingPressure,
    (∃ at' ∈ s.startedAt, at' ≤ o.atSeconds) ∧ o.atSeconds ≤ last.atSeconds ∧ o.id ≤ last.id) ∧
  (s.staging = .pending → s.pendingPressure.isSome) ∧
  (∀ a ∈ s.trigger, a.observation.id ≤ last.id ∧ a.observation.atSeconds ≤ last.atSeconds ∧ final a.decision) ∧
  s.audit ≠ [] ∧ s.audit.length ≤ 64 ∧
  s.exits.length ≤ p.exitCount ∧ s.readinessFailures.length ≤ p.readinessCount ∧
  s.exits.IsChain (· ≤ ·) ∧ s.readinessFailures.IsChain (· < ·) ∧
  (∀ at' ∈ s.exits ++ s.readinessFailures, at' ≤ last.atSeconds) ∧
  (∀ at' ∈ s.startedAt, at' ≤ last.atSeconds) ∧
  (∃ a ∈ s.audit.getLast?, a.observation = last ∧ a.decision = s.decision) ∧
  (∀ a ∈ s.audit, a.observation.id ≠ 0) ∧
  s.audit.IsChain (fun a b => Follows a.observation b.observation) ∧
  (s.staging = .pending → s.decision = .stopStaging ∨ s.decision = .recoveryRequired)

instance (s : State) (p : Policy) (last : Observation) : Decidable (s.Consistent p last) := by
  unfold Consistent
  infer_instance

def invalid : InstallError := .rejected "invalid persistent failure state"

def validate (s : State) : Except InstallError Unit :=
  match s.policy with
  | none => .error invalid
  | some p => do
      p.validate
      match s.last with
      | none => .error invalid
      | some last => require (s.Consistent p last) invalid

def amended (audit : List Audit) (decision : Decision) : List Audit :=
  match audit.getLast? with
  | some a => audit.dropLast ++ [{ a with decision }]
  | none => []

def escalated (s : State) : State :=
  { s with decision := .recoveryRequired, audit := amended s.audit .recoveryRequired }

def evaluateChecked (s : State) (p : Policy) (o : Observation) (started : Nat) : Option (State × Decision) :=
  match o.signal with
  | .coreReady => some ({ s with coreReady := true, readinessFailures := [] }, .observe)
  | .startupPending =>
      if s.coreReady then some (s, .observe)
      else do
        let age ← elapsed o.atSeconds started
        some (s, if p.startupSeconds ≤ age then .rollbackRequired else .observe)
  | .internalReadinessFailure => do
      let age ← elapsed o.atSeconds started
      if p.readinessGraceSeconds ≤ age then do
        let gap ← s.readinessFailures.getLast?.mapM (elapsed o.atSeconds)
        if gap.all (p.readinessIntervalSeconds ≤ ·) then
          let failures := (if gap.any (p.readinessIntervalSeconds < ·) then [] else s.readinessFailures) ++
            [o.atSeconds]
          some ({ s with readinessFailures := failures },
            if p.readinessCount ≤ failures.length then .rollbackRequired else .observe)
        else some (s, .observe)
      else some (s, .observe)
  | .exit true true | .watchdog | .oom =>
      if s.exitRecorded then some (s, .observe)
      else do
        let aged ← s.exits.mapM fun at' => (elapsed o.atSeconds at').map (at', ·)
        let exits := (aged.filter (·.2 ≤ p.exitWindowSeconds)).map (·.1) ++ [o.atSeconds]
        some ({ s with exitRecorded := true, exits },
          if p.exitCount ≤ exits.length then .rollbackRequired else .observe)
  | .fatalInvariant true => some (s, .rollbackRequired)
  | _ => some (s, .observe)

end State

/-- The part of the supervisor's status that concerns failures: the incident, and whether the fallback was restored. -/
structure Incident where
  failures : Option State := none
  restored : Bool := false

/-- What happens to an incident. -/
inductive Event
  | observed (p : Policy) (o : Observation) (stop : Option Bool)
  | restored
  | restarted

def Event.harmless : Event → Prop
  | observed _ o _ => o.signal.harmless
  | restored => False
  | restarted => True

namespace Incident

def state (i : Incident) : State := i.failures.getD {}

def observeFailure (i : Incident) (p : Policy) (o : Observation) (stop : Option Bool) : Except InstallError State := do
  let next ← i.state.observe p o
  let next := if i.restored ∧ o.signal.internal then next.escalated else next
  match stop with
  | some success => pure (if next.decision = .stopStaging then next.stagingStopped success else next)
  | none => pure next

/-- A restart loads the persisted state. -/
def apply (i : Incident) : Event → Except InstallError Incident
  | .observed p o stop => do
      let next ← i.observeFailure p o stop
      pure { i with failures := some next }
  | .restored => do
      require (i.failures.any (·.decision = .rollbackRequired)) (.rejected "automatic rollback rejected")
      pure { i with restored := true }
  | .restarted => do
      i.failures.forM State.validate
      pure i

def run (i : Incident) (events : List Event) : Except InstallError Incident := events.foldlM apply i

end Incident

namespace State

variable {s next : State} {p : Policy} {o last : Observation} {d : Decision} {now id started : Nat}

section Evidence

theorem elapsed_eq {past : Nat} (h : past ≤ now) : elapsed now past = some (now - past) := if_pos h

theorem mapM_elapsed {times : List Nat} (h : ∀ at' ∈ times, at' ≤ now) :
    (times.mapM fun at' => (elapsed now at').map (at', ·)) = some (times.map fun at' => (at', now - at')) := by
  induction times with
  | nil => rfl
  | cons at' times ih =>
      have hrest := ih fun x hx => h x (List.mem_cons_of_mem _ hx)
      rw [List.mapM_cons, elapsed_eq (h at' List.mem_cons_self), hrest]
      rfl

theorem evaluateChecked_eq (hstarted : started ≤ o.atSeconds)
    (htimes : ∀ at' ∈ s.exits ++ s.readinessFailures, at' ≤ o.atSeconds) :
    s.evaluateChecked p o started = some (s.evaluate p o started) := by
  have hexits := mapM_elapsed fun x hx => htimes x (List.mem_append_left _ hx)
  have hkept : ((s.exits.map fun at' => (at', o.atSeconds - at')).filter (·.2 ≤ p.exitWindowSeconds)).map (·.1) =
      s.exits.filter (fun at' => o.atSeconds - at' ≤ p.exitWindowSeconds) := by
    rw [List.filter_map, List.map_map]
    exact List.map_id'' (fun _ => rfl) _
  cases hsignal : o.signal with
  | internalReadinessFailure =>
      have hgap : s.readinessFailures.getLast?.mapM (elapsed o.atSeconds) =
          some (s.readinessFailures.getLast?.map (o.atSeconds - ·)) := by
        cases hlast : s.readinessFailures.getLast? with
        | none => rfl
        | some failure =>
            have hfailure := htimes failure (List.mem_append_right _ (List.mem_of_getLast? hlast))
            simp [elapsed_eq hfailure]
      have hdue : (s.readinessFailures.getLast?.map (o.atSeconds - ·)).all (p.readinessIntervalSeconds ≤ ·) = true ↔
          Due p.readinessIntervalSeconds s.readinessFailures o.atSeconds := by
        cases hlast : s.readinessFailures.getLast? <;> simp [Due, hlast]
      have hmissed : (s.readinessFailures.getLast?.map (o.atSeconds - ·)).any (p.readinessIntervalSeconds < ·) =
          s.readinessFailures.getLast?.any fun last => p.readinessIntervalSeconds < o.atSeconds - last := by
        rw [Option.any_map]
      simp only [evaluateChecked, evaluate, hsignal, elapsed_eq hstarted, hgap, Option.bind_eq_bind,
        Option.bind_some, hdue, hmissed]
      by_cases hgrace : p.readinessGraceSeconds ≤ o.atSeconds - started
      · by_cases hd : Due p.readinessIntervalSeconds s.readinessFailures o.atSeconds
        · simp only [hgrace, hd, and_self, if_true]
          rfl
        · simp only [hgrace, hd, and_false, if_true, if_false]
      · simp only [hgrace, false_and, if_false]
  | exit desiredRunning unexpected =>
      cases desiredRunning <;> cases unexpected <;>
        simp only [evaluateChecked, evaluate, hsignal, hexits, hkept, Option.bind_eq_bind, Option.bind_some]
      split_ifs <;> rfl
  | watchdog | oom =>
      simp only [evaluateChecked, evaluate, hsignal, hexits, hkept, Option.bind_eq_bind, Option.bind_some]
      split_ifs <;> rfl
  | startupPending =>
      simp only [evaluateChecked, evaluate, hsignal, elapsed_eq hstarted, Option.bind_eq_bind, Option.bind_some]
      cases s.coreReady <;> simp
  | fatalInvariant compatible => cases compatible <;> simp only [evaluateChecked, evaluate, hsignal]
  | _ => simp only [evaluateChecked, evaluate, hsignal]

structure Evidence (s : State) (p : Policy) (now : Nat) : Prop where
  exits : s.exits.Pairwise (· ≤ ·)
  failures : s.readinessFailures.IsChain (· < ·)
  times : ∀ at' ∈ s.exits ++ s.readinessFailures, at' ≤ now
  exitCount : s.exits.length ≤ p.exitCount
  readinessCount : s.readinessFailures.length ≤ p.readinessCount

structure Open (s : State) (p : Policy) : Prop where
  exits : s.exits.length < p.exitCount
  failures : s.readinessFailures.length < p.readinessCount

theorem Evidence.mono {later : Nat} (h : s.Evidence p now) (hle : now ≤ later) : s.Evidence p later :=
  { h with times := fun x hx => (h.times x hx).trans hle }

theorem Evidence.cleared (h : s.Evidence p now) (hexits : next.exits = s.exits)
    (hfailures : next.readinessFailures = []) :
    next.Evidence p now where
  exits := hexits ▸ h.exits
  failures := by simp [hfailures]
  times x hx := h.times x (by simp_all)
  exitCount := hexits ▸ h.exitCount
  readinessCount := by simp [hfailures]

theorem Open.cleared (h : s.Open p) (hexits : next.exits = s.exits) (hfailures : next.readinessFailures = []) :
    next.Open p := by
  refine ⟨hexits ▸ h.exits, ?_⟩
  have := h.failures
  rw [hfailures, List.length_nil]
  omega

def Touches (s next : State) : Prop :=
  ∃ coreReady exitRecorded exits readinessFailures, next = { s with coreReady, exitRecorded, exits, readinessFailures }

/-- An evaluation extends the evidence by one time, and stops at the threshold. -/
structure Evaluated (s next : State) (p : Policy) (now : Nat) (d : Decision) : Prop where
  touches : s.Touches next
  evidence : next.Evidence p now
  decision : d = .observe ∧ next.Open p ∨ d = .rollbackRequired

variable (hvalid : p.validate = .ok ()) (he : s.Evidence p o.atSeconds) (hopen : s.Open p)
include he hopen

theorem evaluated_exit :
    let exits := s.exits.filter (fun at' => o.atSeconds - at' ≤ p.exitWindowSeconds) ++ [o.atSeconds]
    s.Evaluated { s with exitRecorded := true, exits } p o.atSeconds
      (if p.exitCount ≤ exits.length then .rollbackRequired else .observe) := by
  intro exits
  have hkept : (s.exits.filter (fun at' => o.atSeconds - at' ≤ p.exitWindowSeconds)).length ≤ s.exits.length :=
    List.length_filter_le _ _
  have hlength : exits.length ≤ p.exitCount := by
    have := hopen.exits
    simp only [exits, List.length_append, List.length_singleton]
    omega
  refine ⟨⟨_, _, _, _, rfl⟩, ⟨?_, he.failures, ?_, hlength, he.readinessCount⟩, ?_⟩
  · refine List.pairwise_append.mpr ⟨he.exits.filter _, List.pairwise_singleton _ _, fun x hx y hy => ?_⟩
    rw [List.mem_singleton.mp hy]
    exact he.times x (List.mem_append_left _ (List.mem_of_mem_filter hx))
  · intro x hx
    simp only [exits, List.mem_append, List.mem_singleton] at hx
    obtain (hx | rfl) | hx := hx
    · exact he.times x (List.mem_append_left _ (List.mem_of_mem_filter hx))
    · exact Nat.le_refl _
    · exact he.times x (List.mem_append_right _ hx)
  · split_ifs with hcount
    · exact .inr rfl
    · exact .inl ⟨rfl, Nat.lt_of_not_le hcount, hopen.failures⟩

include hvalid in
theorem evaluated_failure (hdue : Due p.readinessIntervalSeconds s.readinessFailures o.atSeconds) :
    let failures := counted p.readinessIntervalSeconds s.readinessFailures o.atSeconds
    s.Evaluated { s with readinessFailures := failures } p o.atSeconds
      (if p.readinessCount ≤ failures.length then .rollbackRequired else .observe) := by
  intro failures
  have hinterval : 0 < p.readinessIntervalSeconds := ((require_eq_ok.mp hvalid).1 _ (by simp)).1
  have hsub : ∀ x ∈ failures, x ∈ s.readinessFailures ∨ x = o.atSeconds := by
    intro x hx
    rcases List.mem_append.mp hx with hx | hx
    · split_ifs at hx
      · exact absurd hx List.not_mem_nil
      · exact .inl hx
    · exact .inr (List.mem_singleton.mp hx)
  have hlength : failures.length ≤ p.readinessCount := by
    have := hopen.failures
    simp only [failures, counted, List.length_append, List.length_singleton]
    split_ifs <;> simp <;> omega
  refine ⟨⟨_, _, _, _, rfl⟩, ⟨he.exits, ?_, ?_, he.exitCount, hlength⟩, ?_⟩
  · refine List.isChain_append.mpr ⟨?_, List.isChain_singleton _, ?_⟩
    · split_ifs
      · exact List.isChain_nil
      · exact he.failures
    · rintro x hx _ ⟨⟩
      split_ifs at hx
      · cases hx
      · have := hdue x hx
        omega
  · intro x hx
    rcases List.mem_append.mp hx with hx | hx
    · exact he.times x (List.mem_append_left _ hx)
    · obtain hx | rfl := hsub x hx
      · exact he.times x (List.mem_append_right _ hx)
      · exact Nat.le_refl _
  · split_ifs with hcount
    · exact .inr rfl
    · exact .inl ⟨rfl, hopen.exits, Nat.lt_of_not_le hcount⟩

omit he hopen in
theorem evaluated_same (he : s.Evidence p now) (hd : d = .observe ∧ s.Open p ∨ d = .rollbackRequired) :
    s.Evaluated s p now d := ⟨⟨_, _, _, _, rfl⟩, he, hd⟩

include hvalid in
theorem evaluate_spec (started : Nat) :
    s.Evaluated (s.evaluate p o started).1 p o.atSeconds (s.evaluate p o started).2 := by
  have hquiet : s.Evaluated s p o.atSeconds .observe := evaluated_same he (.inl ⟨rfl, hopen⟩)
  have hroll : s.Evaluated s p o.atSeconds .rollbackRequired := evaluated_same he (.inr rfl)
  unfold evaluate
  split
  · exact ⟨⟨_, _, _, _, rfl⟩, he.cleared rfl rfl, .inl ⟨rfl, hopen.cleared rfl rfl⟩⟩
  · dsimp only
    split_ifs
    · exact hroll
    · exact hquiet
  · split_ifs with hdue
    · exact evaluated_failure hvalid he hopen hdue.2
    · exact hquiet
  · split_ifs
    · exact hquiet
    · exact evaluated_exit he hopen
  · split_ifs
    · exact hquiet
    · exact evaluated_exit he hopen
  · split_ifs
    · exact hquiet
    · exact evaluated_exit he hopen
  · exact hroll
  · exact hquiet

end Evidence

section Invariant

/-- What holds of the state apart from its decision, as of an observation. -/
structure Core (s : State) (p : Policy) (o : Observation) : Prop where
  valid : p.validate = .ok ()
  policy : s.policy = some p
  started : s.startedAt.isSome = decide (s.invocation ≠ 0)
  launched : ∀ at' ∈ s.startedAt, at' ≤ o.atSeconds
  evidence : s.Evidence p o.atSeconds
  pressure : ∀ x ∈ s.pendingPressure, s.staging = .pending ∧ (∃ at' ∈ s.startedAt, at' ≤ x.atSeconds) ∧
    x.atSeconds ≤ o.atSeconds ∧ x.id ≤ o.id ∧ s.Evidence p x.atSeconds
  pending : s.staging = .pending → s.pendingPressure.isSome
  trigger : ∀ a ∈ s.trigger, a.observation.id ≤ o.id ∧ a.observation.atSeconds ≤ o.atSeconds ∧ final a.decision

structure Settled (s : State) (p : Policy) (d : Decision) : Prop where
  undecided : final d = false → s.Open p
  pending : s.staging = .pending → d = .stopStaging ∨ d = .recoveryRequired
  stopping : d = .stopStaging → s.staging = .pending

/-- The audit trail ends with the latest observation and its decision. -/
structure Trail (audit : List Audit) (last : Observation) (d : Decision) : Prop where
  latest : audit.getLast? = some ⟨last, d⟩
  bounded : audit.length ≤ 64
  nonzero : ∀ a ∈ audit, a.observation.id ≠ 0
  ordered : audit.IsChain fun a b => Follows a.observation b.observation

structure Sound (s : State) (p : Policy) (last : Observation) : Prop where
  core : s.Core p last
  settled : s.Settled p s.decision
  latest : s.last = some last
  trail : Trail s.audit last s.decision

theorem Core.mono (h : s.Core p last) (hid : last.id ≤ o.id) (hat : last.atSeconds ≤ o.atSeconds) : s.Core p o :=
  { h with
    launched := fun x hx => (h.launched x hx).trans hat
    evidence := h.evidence.mono hat
    pressure := fun x hx =>
      have ⟨hstaging, hstarted, htime, hident, hevidence⟩ := h.pressure x hx
      ⟨hstaging, hstarted, htime.trans hat, hident.trans hid, hevidence⟩
    trigger := fun a ha =>
      have ⟨hident, htime, hfinal⟩ := h.trigger a ha
      ⟨hident.trans hid, htime.trans hat, hfinal⟩ }

def labelled (s : State) (decision : Decision) (last : Option Observation) (trigger : Option Audit)
    (audit : List Audit) : State :=
  { s with decision, last, trigger, audit }

section Labels

variable {decision : Decision} {latest : Option Observation} {trigger : Option Audit} {audit : List Audit}

theorem Evidence.labelled (h : s.Evidence p now) : (s.labelled decision latest trigger audit).Evidence p now :=
  ⟨h.exits, h.failures, h.times, h.exitCount, h.readinessCount⟩

theorem Core.labelled (h : s.Core p o)
    (htrigger : ∀ a ∈ trigger, a.observation.id ≤ o.id ∧ a.observation.atSeconds ≤ o.atSeconds ∧ final a.decision) :
    (s.labelled decision latest trigger audit).Core p o where
  valid := h.valid
  policy := h.policy
  started := h.started
  launched := h.launched
  evidence := h.evidence.labelled
  pressure := fun x hx =>
    have ⟨hstaging, hstarted, htime, hid, hevidence⟩ := h.pressure x hx
    ⟨hstaging, hstarted, htime, hid, hevidence.labelled⟩
  pending := h.pending
  trigger := htrigger

theorem Settled.labelled (h : s.Settled p d) : (s.labelled decision latest trigger audit).Settled p d :=
  ⟨fun hd => ⟨(h.undecided hd).exits, (h.undecided hd).failures⟩, h.pending, h.stopping⟩

end Labels

theorem Core.pendingPressure (h : s.Core p o) (hstaging : s.staging ≠ .pending) : s.pendingPressure = none := by
  cases hpressure : s.pendingPressure with
  | none => rfl
  | some x => exact absurd (h.pressure x hpressure).1 hstaging

theorem Core.evaluated (h : s.Core p o) (hstaging : s.staging ≠ .pending) (he : s.Evaluated next p o.atSeconds d) :
    next.Core p o := by
  obtain ⟨⟨_, _, _, _, rfl⟩, hevidence, _⟩ := he
  refine ⟨h.valid, h.policy, h.started, h.launched, hevidence, fun x hx => ?_, fun hpending => absurd hpending hstaging,
    h.trigger⟩
  exact absurd ((h.pendingPressure hstaging).symm.trans hx) (Option.some_ne_none x).symm

theorem Settled.evaluated (hstaging : s.staging ≠ .pending) (he : s.Evaluated next p now d) : next.Settled p d := by
  obtain ⟨⟨_, _, _, _, rfl⟩, _, ⟨rfl, hopen⟩ | rfl⟩ := he
  · exact ⟨fun _ => hopen, fun hpending => absurd hpending hstaging, nofun⟩
  · exact ⟨nofun, fun hpending => absurd hpending hstaging, nofun⟩

structure Classified (s next : State) (p : Policy) (o : Observation) (d : Decision) : Prop where
  core : next.Core p o
  settled : next.Settled p d
  audit : next.audit = s.audit
  decision : next.decision = s.decision

theorem Classified.same (hcore : s.Core p o) (hsettled : s.Settled p d) : s.Classified s p o d :=
  ⟨hcore, hsettled, rfl, rfl⟩

theorem Settled.recovery : s.Settled p .recoveryRequired :=
  ⟨nofun, fun _ => .inr rfl, nofun⟩

theorem classified_started (hcore : s.Core p o) (hopen : s.Open p) (hstaging : s.staging ≠ .pending) {invocation : Nat}
    (hlt : s.invocation < invocation) :
    s.Classified { s with
      invocation, startedAt := some o.atSeconds, coreReady := false, exitRecorded := false
      readinessFailures := [] } p o .observe := by
  refine ⟨⟨hcore.valid, hcore.policy, ?_, ?_, hcore.evidence.cleared rfl rfl, ?_, ?_, hcore.trigger⟩, ?_, rfl, rfl⟩
  · have hne : invocation ≠ 0 := by omega
    exact (decide_eq_true hne).symm
  · rintro _ ⟨⟩
    exact Nat.le_refl _
  · intro x hx
    rw [hcore.pendingPressure hstaging] at hx
    exact absurd hx (Option.not_mem_none x)
  · exact fun hpending => absurd hpending hstaging
  · exact ⟨fun _ => hopen.cleared rfl rfl, fun hpending => absurd hpending hstaging, nofun⟩

theorem classified_pressure (hcore : s.Core p o) (hopen : s.Open p) (hstarted : s.startedAt = some started) :
    s.Classified { s with
      staging := .pending, pendingPressure := s.pendingPressure.or (some o)
      readinessFailures := [] } p o .stopStaging := by
  refine ⟨⟨hcore.valid, hcore.policy, hcore.started, hcore.launched, hcore.evidence.cleared rfl rfl, ?_, ?_,
    hcore.trigger⟩, ?_, rfl, rfl⟩
  · intro x hx
    refine ⟨rfl, ?_⟩
    cases hpressure : s.pendingPressure with
    | none =>
        simp only [hpressure, Option.none_or, Option.mem_def, Option.some.injEq] at hx
        subst hx
        exact ⟨⟨started, hstarted, hcore.launched started hstarted⟩, Nat.le_refl _, Nat.le_refl _,
          hcore.evidence.cleared rfl rfl⟩
    | some y =>
        simp only [hpressure, Option.some_or, Option.mem_def, Option.some.injEq] at hx
        subst hx
        obtain ⟨_, hat, htime, hid, hevidence⟩ := hcore.pressure y hpressure
        exact ⟨hat, htime, hid, hevidence.cleared rfl rfl⟩
  · intro _
    cases s.pendingPressure <;> rfl
  · exact ⟨fun _ => hopen.cleared rfl rfl, fun _ => .inl rfl, fun _ => rfl⟩

theorem classify_spec (hcore : s.Core p o) (hsettled : s.Settled p s.decision) (h : s.classify p o = .ok (next, d)) :
    s.Classified next p o d := by
  have hundecided (hrecovery : ¬(o.signal.recovery || decide (s.decision = .recoveryRequired)) = true)
      (hrollback : s.decision ≠ .rollbackRequired) : s.Open p := by
    apply hsettled.undecided
    simp only [Bool.or_eq_true, decide_eq_true_eq, not_or] at hrecovery
    simp [final, hrecovery.2, hrollback]
  unfold classify at h
  split_ifs at h with hrecovery hrollback hdegraded hpending
  · cases h
    exact .same hcore .recovery
  · cases h
    exact .same hcore (hrollback ▸ hsettled)
  · cases h
    exact .same hcore ⟨fun _ => hundecided hrecovery hrollback, fun _ => .inl rfl, fun _ => hpending⟩
  · cases h
    exact .same hcore ⟨fun _ => hundecided hrecovery hrollback, fun hp => absurd hp hpending,
      fun hstop => by cases hstop⟩
  · have hopen := hundecided hrecovery hrollback
    split at h
    · simp only [bind_eq_ok, require_eq_ok, pure_eq_ok, Prod.mk.injEq] at h
      obtain ⟨_, hstaging, _, hlt, rfl, rfl⟩ := h
      exact classified_started hcore hopen hstaging hlt
    · split at h
      · cases h
      · next started hstarted =>
          split_ifs at h with hpressure
          · cases h
            exact classified_pressure hcore hopen hstarted
          · have hstaging : s.staging ≠ .pending := fun hp => hpressure (.inl hp)
            have he := evaluate_spec hcore.valid hcore.evidence hopen started
            rw [pure_eq_ok.mp h] at he
            obtain ⟨_, _, _, _, rfl⟩ : s.Touches next := he.touches
            exact ⟨hcore.evaluated hstaging he, .evaluated hstaging he, rfl, rfl⟩

structure Precedes (audit : List Audit) (o : Observation) : Prop where
  bounded : audit.length ≤ 64
  nonzero : ∀ a ∈ audit, a.observation.id ≠ 0
  ordered : audit.IsChain fun a b => Follows a.observation b.observation
  latest : ∀ a ∈ audit.getLast?, Follows a.observation o

theorem Trail.precedes {audit : List Audit} (h : Trail audit last d) (hfollows : Follows last o) : Precedes audit o :=
  ⟨h.bounded, h.nonzero, h.ordered, by rw [h.latest]; rintro _ ⟨⟩; exact hfollows⟩

theorem Precedes.recorded {audit : List Audit} (h : Precedes audit o) (hid : o.id ≠ 0) :
    Trail ((if audit.length = 64 then audit.tail else audit) ++ [⟨o, d⟩]) o d := by
  have hkept : (if audit.length = 64 then audit.tail else audit) <:+ audit := by
    split_ifs
    · exact List.tail_suffix _
    · exact List.suffix_refl _
  have hlength : (if audit.length = 64 then audit.tail else audit).length ≤ 63 := by
    have := h.bounded
    split_ifs with hfull
    · rw [List.length_tail]
      omega
    · omega
  refine ⟨List.getLast?_concat .., ?_, ?_, ?_⟩
  · rw [List.length_append, List.length_singleton]
    omega
  · intro a ha
    rcases List.mem_append.mp ha with ha | ha
    · exact h.nonzero a (hkept.subset ha)
    · rw [List.mem_singleton.mp ha]
      exact hid
  · refine List.isChain_append.mpr ⟨h.ordered.suffix hkept, List.isChain_singleton _, ?_⟩
    rintro a ha _ ⟨⟩
    apply h.latest a
    obtain ⟨front, hfront⟩ := hkept
    rw [← hfront]
    exact List.mem_getLast?_append_of_mem_getLast? ha

theorem Trail.amended {audit : List Audit} (h : Trail audit last d) (d' : Decision) :
    Trail (amended audit d') last d' := by
  obtain ⟨front, hfront⟩ := List.getLast?_eq_some_iff.mp h.latest
  have hamended : State.amended audit d' = front ++ [⟨last, d'⟩] := by
    simp [State.amended, hfront]
  have hordered := h.ordered
  rw [hfront, List.isChain_append] at hordered
  rw [hamended]
  refine ⟨List.getLast?_concat .., ?_, ?_, ?_⟩
  · have := h.bounded
    rw [hfront, List.length_append, List.length_singleton] at this
    rwa [List.length_append, List.length_singleton]
  · intro a ha
    rcases List.mem_append.mp ha with ha | ha
    · exact h.nonzero a (hfront ▸ List.mem_append_left _ ha)
    · have hlast := h.nonzero ⟨last, d⟩ (hfront ▸ List.mem_append_right _ List.mem_cons_self)
      rw [List.mem_singleton.mp ha]
      exact hlast
  · refine List.isChain_append.mpr ⟨hordered.1, List.isChain_singleton _, ?_⟩
    rintro a ha _ ⟨⟩
    exact hordered.2.2 a ha ⟨last, d⟩ rfl

theorem Classified.recorded (h : s.Classified next p o d) (hid : o.id ≠ 0) (hprecedes : Precedes s.audit o) :
    (next.recorded o d).Sound p o := by
  refine ⟨h.core.labelled fun a ha => ?_, h.settled.labelled, rfl, ?_⟩
  · split_ifs at ha with hfinal
    · cases ha
      exact ⟨Nat.le_refl _, Nat.le_refl _, hfinal.1⟩
    · exact h.core.trigger a ha
  · simp only [State.recorded, h.audit]
    exact hprecedes.recorded hid

def Reached (s : State) : Prop := s = {} ∨ ∃ p last, s.Sound p last

theorem core_initial (hvalid : p.validate = .ok ()) : ({ policy := some p } : State).Core p o where
  valid := hvalid
  policy := rfl
  started := rfl
  launched := nofun
  evidence := ⟨.nil, .nil, nofun, Nat.zero_le _, Nat.zero_le _⟩
  pressure := nofun
  pending := nofun
  trigger := nofun

theorem settled_initial (hvalid : p.validate = .ok ()) : ({ policy := some p } : State).Settled p .observe := by
  obtain ⟨_, _, hexits, hfailures⟩ := require_eq_ok.mp hvalid
  exact ⟨fun _ => ⟨hexits.1, hfailures.1⟩, nofun, nofun⟩

theorem Reached.observe (h : s.Reached) (hobserve : s.observe p o = .ok next) : next.Sound p o := by
  obtain ⟨hvalid, hpolicy, hid, hlast, classified, d, hclassify, rfl⟩ := observe_eq_ok.mp hobserve
  obtain rfl | ⟨q, last, hsound⟩ := h
  · exact (classify_spec (core_initial hvalid) (settled_initial hvalid) hclassify).recorded hid
      ⟨Nat.zero_le _, nofun, .nil, nofun⟩
  · obtain rfl := hpolicy q hsound.core.policy
    have hfollows := hlast last hsound.latest
    have hsame : { s with policy := some q } = s := by rw [← hsound.core.policy]
    rw [hsame] at hclassify
    have hcore := hsound.core.mono hfollows.1.le hfollows.2
    exact (classify_spec hcore hsound.settled hclassify).recorded hid (hsound.trail.precedes hfollows)

theorem Sound.escalated (h : s.Sound p last) : s.escalated.Sound p last :=
  ⟨h.core.labelled h.core.trigger, Settled.recovery.labelled, h.latest, h.trail.amended _⟩

def concluded (s : State) : State :=
  let triggered : State := if final s.decision then { s with trigger := s.last.map (⟨·, s.decision⟩) } else s
  { triggered with audit := amended triggered.audit triggered.decision }

theorem Sound.concluded (h : s.Sound p last) (hcore : next.Core p last) (hsettled : next.Settled p next.decision)
    (hlatest : next.last = some last) (haudit : next.audit = s.audit) : next.concluded.Sound p last := by
  have htrail := h.trail.amended next.decision
  rw [← haudit] at htrail
  by_cases hfinal : final next.decision = true
  · simp only [State.concluded, if_pos hfinal]
    refine ⟨hcore.labelled fun a ha => ?_, hsettled.labelled, hlatest, htrail⟩
    rw [hlatest, Option.map_some, Option.mem_some_iff] at ha
    subst ha
    exact ⟨Nat.le_refl _, Nat.le_refl _, hfinal⟩
  · simp only [State.concluded, if_neg hfinal]
    exact ⟨hcore.labelled hcore.trigger, hsettled.labelled, hlatest, htrail⟩

def unblocked (s : State) : State :=
  { s with staging := .stopped, decision := .recheckAfterStaging, pendingPressure := none }

theorem Evidence.unblocked (h : s.Evidence p now) : s.unblocked.Evidence p now :=
  ⟨h.exits, h.failures, h.times, h.exitCount, h.readinessCount⟩

theorem Core.unblocked (h : s.Core p o) : s.unblocked.Core p o where
  valid := h.valid
  policy := h.policy
  started := h.started
  launched := h.launched
  evidence := h.evidence.unblocked
  pressure := nofun
  pending := nofun
  trigger := h.trigger

theorem stagingStopped_true (hpressure : s.pendingPressure = some o) (hpolicy : s.policy = some p)
    (hstarted : s.startedAt = some started) :
    s.stagingStopped true =
      if o.signal.outlivesStaging then
        let (next, decision) := s.unblocked.evaluate p o started
        { next with decision }.concluded
      else s.unblocked.concluded := by
  split_ifs with houtlives
  · simp only [stagingStopped, hpressure, hpolicy, hstarted, houtlives, if_true]
    simp only [unblocked, hpolicy, hstarted]
    rfl
  · simp only [stagingStopped, hpressure, hpolicy, hstarted, houtlives]
    simp only [unblocked, hpolicy, hstarted]
    rfl

theorem Sound.stagingStopped (h : s.Sound p last) (hstop : s.decision = .stopStaging) (success : Bool) :
    (s.stagingStopped success).Sound p last := by
  have hpending := h.settled.stopping hstop
  obtain ⟨x, hx⟩ := Option.isSome_iff_exists.mp (h.core.pending hpending)
  obtain ⟨_, ⟨started, hstarted, _⟩, htime, _, hevidence⟩ := h.core.pressure x hx
  have hopen := h.settled.undecided (by rw [hstop]; rfl)
  have hopen' : s.unblocked.Open p := ⟨hopen.exits, hopen.failures⟩
  have hfree : s.unblocked.staging ≠ .pending := nofun
  cases success with
  | false =>
      have hsame : ({ s with staging := .pending, decision := .recoveryRequired } : State) =
          s.labelled .recoveryRequired s.last s.trigger s.audit := by
        rw [← hpending]
        rfl
      have hcore : ({ s with staging := .pending, decision := .recoveryRequired } : State).Core p last :=
        hsame ▸ h.core.labelled h.core.trigger
      exact h.concluded hcore .recovery h.latest rfl
  | true =>
      rw [stagingStopped_true hx h.core.policy hstarted]
      split_ifs
      · -- the process died under pressure, so its observation is evaluated now
        have he := evaluate_spec h.core.valid hevidence.unblocked hopen' started
        cases heval : s.unblocked.evaluate p x started with
        | mk next decision =>
            rw [heval] at he
            have hlater : s.unblocked.Evaluated next p last.atSeconds decision :=
              { he with evidence := he.evidence.mono htime }
            have hcore := h.core.unblocked.evaluated hfree hlater
            have hsettled : (next.labelled decision next.last next.trigger next.audit).Settled p decision :=
              (Settled.evaluated hfree hlater).labelled
            obtain ⟨_, _, _, _, rfl⟩ := hlater.touches
            exact h.concluded (hcore.labelled hcore.trigger) hsettled h.latest rfl
      · exact h.concluded h.core.unblocked ⟨fun _ => hopen', fun hp => absurd hp hfree, nofun⟩ h.latest rfl

theorem Sound.validate (h : s.Sound p last) : s.validate = .ok () := by
  have hcore := h.core
  have hconsistent : s.Consistent p last := by
    refine ⟨hcore.started, ?_, hcore.pending, hcore.trigger, ?_, h.trail.bounded, hcore.evidence.exitCount,
      hcore.evidence.readinessCount, hcore.evidence.exits.isChain, hcore.evidence.failures, hcore.evidence.times,
      hcore.launched, ⟨_, h.trail.latest, rfl, rfl⟩, h.trail.nonzero, h.trail.ordered, h.settled.pending⟩
    · intro x hx
      obtain ⟨_, hstarted, htime, hid, _⟩ := hcore.pressure x hx
      exact ⟨hstarted, htime, hid⟩
    · intro hempty
      have hlatest := h.trail.latest
      rw [hempty] at hlatest
      cases hlatest
  simp only [State.validate, hcore.policy, h.latest, bind_eq_ok, require_eq_ok]
  exact ⟨(), hcore.valid, hconsistent⟩

/-- Every subtraction of the next evaluation, and of the one that waits for the staging slice, is defined. -/
structure Subtracts (s : State) : Prop where
  observing : ∀ p o next, s.observe p o = .ok next → ∀ started ∈ s.startedAt,
    { s with policy := some p }.evaluateChecked p o started = some ({ s with policy := some p }.evaluate p o started)
  stopping : ∀ o ∈ s.pendingPressure, ∀ p ∈ s.policy, ∀ started ∈ s.startedAt,
    s.unblocked.evaluateChecked p o started = some (s.unblocked.evaluate p o started)

theorem Reached.subtracts (h : s.Reached) : s.Subtracts := by
  obtain rfl | ⟨q, last, hsound⟩ := h
  · exact ⟨fun _ _ _ _ started hs => absurd hs (Option.not_mem_none started),
      fun o ho => absurd ho (Option.not_mem_none o)⟩
  · refine ⟨fun p o next hobserve started hstarted => ?_, fun o ho p _ started hstarted => ?_⟩
    · have hat := ((observe_eq_ok.mp hobserve).2.2.2.1 last hsound.latest).2
      exact evaluateChecked_eq ((hsound.core.launched started hstarted).trans hat) fun x hx =>
        (hsound.core.evidence.times x hx).trans hat
    · obtain ⟨_, ⟨at', hat', hbefore⟩, _, _, hevidence⟩ := hsound.core.pressure o ho
      rw [Option.mem_unique hstarted hat']
      exact evaluateChecked_eq hbefore hevidence.times

end Invariant

section Decisions

theorem classify_latched (h : s.classify p o = .ok (next, d)) :
    (s.decision = .recoveryRequired → d = .recoveryRequired) ∧
      (s.decision = .rollbackRequired → d = .rollbackRequired ∨ d = .recoveryRequired) := by
  unfold classify at h
  split_ifs at h with hrecovery hrollback
  · cases h
    exact ⟨fun _ => rfl, fun _ => .inr rfl⟩
  · cases h
    exact ⟨fun hr => absurd (hrollback.symm.trans hr) (by decide), fun _ => .inl rfl⟩
  all_goals
    simp only [Bool.or_eq_true, decide_eq_true_eq, not_or] at hrecovery
    exact ⟨fun hr => absurd hr hrecovery.2, fun hr => absurd hr hrollback⟩

theorem classify_harmless (hsignal : o.signal.harmless) (hstaging : s.staging ≠ .pending)
    (hfinal : final s.decision = false) (h : s.classify p o = .ok (next, d)) :
    next.staging ≠ .pending ∧ (d = .observe ∨ d = .degraded) := by
  simp only [final, Bool.or_eq_false_iff, decide_eq_false_iff_not] at hfinal
  cases hs : o.signal with
  | started invocation =>
      simp only [classify, hs, Signal.recovery, Signal.degradation, hfinal, Bool.false_or, decide_false,
        Bool.false_eq_true, if_false, bind_eq_ok, require_eq_ok, pure_eq_ok, Prod.mk.injEq] at h
      obtain ⟨_, _, _, _, rfl, rfl⟩ := h
      exact ⟨hstaging, .inl rfl⟩
  | coreReady =>
      simp only [classify, hs, Signal.recovery, Signal.degradation, Signal.pressure, hfinal, Bool.false_or,
        decide_false, Bool.false_eq_true, if_false, hstaging, false_and, and_false, or_self] at h
      split at h
      · cases h
      · simp only [pure_eq_ok, evaluate, hs, Prod.mk.injEq] at h
        obtain ⟨rfl, rfl⟩ := h
        exact ⟨hstaging, .inl rfl⟩
  | mqttOutage | emsOutage | externalDatabaseOutage | credentialRejection | malformedChargerTraffic | noChargers =>
      simp only [classify, hs, Signal.recovery, Signal.degradation, hfinal, hstaging, Bool.false_or, decide_false,
        Bool.false_eq_true, if_false, if_true, pure_eq_ok, Prod.mk.injEq] at h
      obtain ⟨rfl, rfl⟩ := h
      exact ⟨hstaging, .inr rfl⟩
  | _ =>
      rw [hs] at hsignal
      cases hsignal

end Decisions

end State

namespace Incident

variable {i i' : Incident} {p : Policy} {o : Observation} {stop : Option Bool} {next : State} {event : Event}

/-- What an accepted event makes of an incident. -/
inductive Applied (i : Incident) : Event → Incident → Prop
  | observed {p : Policy} {o : Observation} {stop : Option Bool} {s next : State} (hs : i.state.observe p o = .ok s)
      (hnext : next = s ∨ i.restored = true ∧ next = s.escalated ∨
        ∃ success, s.decision = .stopStaging ∧ next = s.stagingStopped success) :
      Applied i (.observed p o stop) { i with failures := some next }
  | restored : Applied i .restored { i with restored := true }
  | restarted : Applied i .restarted i

theorem observeFailure_eq_ok (h : i.observeFailure p o stop = .ok next) :
    ∃ s, i.state.observe p o = .ok s ∧ (next = s ∨ i.restored = true ∧ next = s.escalated ∨
      ∃ success, s.decision = .stopStaging ∧ next = s.stagingStopped success) := by
  simp only [observeFailure, bind_eq_ok] at h
  obtain ⟨s, hs, h⟩ := h
  refine ⟨s, hs, ?_⟩
  by_cases hrestored : i.restored ∧ o.signal.internal
  · have hrecovery : s.escalated.decision ≠ .stopStaging := by
      intro hstop
      cases hstop
    rw [if_pos hrestored] at h
    cases stop with
    | none => exact .inr (.inl ⟨hrestored.1, (pure_eq_ok.mp h).symm⟩)
    | some success =>
        simp only [if_neg hrecovery, pure_eq_ok] at h
        exact .inr (.inl ⟨hrestored.1, h.symm⟩)
  · rw [if_neg hrestored] at h
    cases stop with
    | none => exact .inl (pure_eq_ok.mp h).symm
    | some success =>
        simp only [pure_eq_ok] at h
        split_ifs at h with hstop
        · exact .inr (.inr ⟨success, hstop, h.symm⟩)
        · exact .inl h.symm

theorem apply_eq_ok (h : i.apply event = .ok i') : i.Applied event i' := by
  cases event with
  | observed p o stop =>
      simp only [Incident.apply, bind_eq_ok, pure_eq_ok] at h
      obtain ⟨next, hnext, rfl⟩ := h
      obtain ⟨s, hs, hcases⟩ := observeFailure_eq_ok hnext
      exact .observed hs hcases
  | restored =>
      simp only [Incident.apply, bind_eq_ok, require_eq_ok, pure_eq_ok] at h
      obtain ⟨_, _, rfl⟩ := h
      exact .restored
  | restarted =>
      simp only [Incident.apply, bind_eq_ok, pure_eq_ok] at h
      obtain ⟨_, _, rfl⟩ := h
      exact .restarted

def Reached (i : Incident) : Prop := ∀ s ∈ i.failures, ∃ p last, s.Sound p last

theorem Reached.state (h : i.Reached) : i.state.Reached := by
  cases hfailures : i.failures with
  | none => exact .inl (by rw [Incident.state, hfailures]; rfl)
  | some s => exact .inr (by rw [Incident.state, hfailures]; exact h s hfailures)

theorem Reached.apply (h : i.Reached) (happly : i.apply event = .ok i') : i'.Reached := by
  cases apply_eq_ok happly with
  | @observed p o stop s next hs hnext =>
      have hsound := h.state.observe hs
      rintro _ ⟨⟩
      obtain rfl | ⟨_, rfl⟩ | ⟨success, hstop, rfl⟩ := hnext
      · exact ⟨p, o, hsound⟩
      · exact ⟨p, o, hsound.escalated⟩
      · exact ⟨p, o, hsound.stagingStopped hstop success⟩
  | restored => exact h
  | restarted => exact h

theorem Reached.run {events : List Event} (h : i.Reached) (hrun : i.run events = .ok i') : i'.Reached :=
  foldlM_invariant hrun (fun _ _ _ _ hmid hreached => hreached.apply hmid) h

theorem Reached.restart (h : i.Reached) : i.apply .restarted = .ok i := by
  cases hfailures : i.failures with
  | none => simp [Incident.apply, hfailures]
  | some s =>
      obtain ⟨_, _, hsound⟩ := h s hfailures
      simp [Incident.apply, hfailures, hsound.validate]

theorem apply_latched (h : i.apply event = .ok i') :
    (i.state.decision = .recoveryRequired → i'.state.decision = .recoveryRequired) ∧
      (i.state.decision = .rollbackRequired →
        i'.state.decision = .rollbackRequired ∨ i'.state.decision = .recoveryRequired) := by
  cases apply_eq_ok h with
  | observed hs hnext =>
      obtain ⟨_, _, _, _, classified, d, hclassify, rfl⟩ := State.observe_eq_ok.mp hs
      obtain ⟨hrecovery, hrollback⟩ := State.classify_latched hclassify
      obtain rfl | ⟨_, rfl⟩ | ⟨success, hstop, rfl⟩ := hnext
      · exact ⟨hrecovery, hrollback⟩
      · exact ⟨fun _ => rfl, fun _ => .inr rfl⟩
      · have hd : d = .stopStaging := hstop
        refine ⟨fun hr => ?_, fun hr => ?_⟩
        · exact absurd (hd.symm.trans (hrecovery hr)) (by decide)
        · obtain hd' | hd' := hrollback hr
          · exact absurd (hd.symm.trans hd') (by decide)
          · exact absurd (hd.symm.trans hd') (by decide)
  | restored => exact ⟨id, .inl⟩
  | restarted => exact ⟨id, .inl⟩

/-- Without a restored fallback, and with nothing to stop, an observation is stored as it is. -/
theorem stored_as_observed {s : State} (hrestored : i.restored = false) (hstop : s.decision ≠ .stopStaging)
    (hnext : next = s ∨ i.restored = true ∧ next = s.escalated ∨
      ∃ success, s.decision = .stopStaging ∧ next = s.stagingStopped success) : next = s := by
  obtain hsame | ⟨hr, -⟩ | ⟨_, hs, -⟩ := hnext
  · exact hsame
  · exact absurd (hrestored.symm.trans hr) Bool.false_ne_true
  · exact absurd hs hstop

structure Untroubled (i : Incident) : Prop where
  staging : i.state.staging ≠ .pending
  decision : final i.state.decision = false
  restored : i.restored = false

theorem Untroubled.apply (h : i.Untroubled) (hharmless : event.harmless) (happly : i.apply event = .ok i') :
    i'.Untroubled := by
  cases apply_eq_ok happly with
  | @observed p o stop s next hs hnext =>
      obtain ⟨_, _, _, _, classified, d, hclassify, rfl⟩ := State.observe_eq_ok.mp hs
      have hfree : ({ i.state with policy := some p } : State).staging ≠ .pending := h.staging
      obtain ⟨hstaging, hd⟩ := State.classify_harmless hharmless hfree h.decision hclassify
      have hdecision : final d = false ∧ d ≠ .stopStaging := by
        obtain rfl | rfl := hd
        · decide
        · decide
      obtain rfl := stored_as_observed h.restored hdecision.2 hnext
      exact ⟨hstaging, hdecision.1, h.restored⟩
  | restored => exact hharmless.elim
  | restarted => exact h

theorem Untroubled.run {events : List Event} (h : i.Untroubled) (hharmless : ∀ event ∈ events, event.harmless)
    (hrun : i.run events = .ok i') : i'.Untroubled :=
  foldlM_invariant hrun (fun event hevent _ _ hmid hfree => hfree.apply (hharmless event hevent) hmid) h

/-- Every incident that can be reached is persisted and loaded without objection, its times never run backwards, and its
final decisions are kept. -/
theorem incident_closed {events : List Event} {i : Incident} (h : ({} : Incident).run events = .ok i) :
    (∀ s ∈ i.failures, s.validate = .ok ()) ∧ i.apply .restarted = .ok i ∧ i.state.Subtracts ∧
    (∀ event i', i.apply event = .ok i' →
      (i.state.decision = .recoveryRequired → i'.state.decision = .recoveryRequired) ∧
      (i.state.decision = .rollbackRequired →
        i'.state.decision = .rollbackRequired ∨ i'.state.decision = .recoveryRequired)) ∧
    ((∀ event ∈ events, event.harmless) →
      i.state.decision ≠ .rollbackRequired ∧ i.state.decision ≠ .recoveryRequired) := by
  have hreached : i.Reached := Reached.run (fun s hs => absurd hs (Option.not_mem_none s)) h
  refine ⟨fun s hs => ?_, hreached.restart, hreached.state.subtracts, fun event i' happly => apply_latched happly,
    fun hharmless => ?_⟩
  · obtain ⟨_, _, hsound⟩ := hreached s hs
    exact hsound.validate
  · have huntroubled : ({} : Incident).Untroubled := ⟨nofun, rfl, rfl⟩
    have hdecision := (huntroubled.run hharmless h).decision
    simpa [final] using hdecision

def samplePressure : List Event :=
  [.observed .standard ⟨1, 0, .started 1, false⟩ none, .observed .standard ⟨2, 5, .oom, true⟩ none, .restarted,
    .observed .standard ⟨3, 9, .mqttOutage, false⟩ (some true)]

theorem sample_incident_closed :
    ∃ i, ({} : Incident).run samplePressure = .ok i ∧ i.state.exits = [5] ∧ i.state.decision = .observe ∧
      i.apply .restarted = .ok i := by
  refine ⟨_, rfl, rfl, rfl, ?_⟩
  have hrun : ({} : Incident).run samplePressure = .ok _ := rfl
  exact (incident_closed hrun).2.1

end Incident

end OcppBridge.Supervision.Classifier
