import Mathlib.Algebra.Group.Nat.Defs
import OcppBridge.Supervision.Records
import OcppBridge.Transition

namespace OcppBridge.Supervision.Probation

open Transaction
open Activation (InstallError Phase Release State Transition digestName)

def rejected : InstallError := .rejected "production probation evidence rejected"

def minimumSeconds : Nat := 24 * 60 * 60

inductive Check
  | coreProgress
  | storageProgress
  | readiness
  | memoryBudget
  | cpuBudget
  | responseLatency
  deriving DecidableEq, Repr

def Check.required : List Check :=
  [.coreProgress, .storageProgress, .readiness, .memoryBudget, .cpuBudget, .responseLatency]

structure Policy where
  requiredSeconds : Nat
  maximumSampleGapSeconds : Nat
  profileDigest : String
  deriving DecidableEq, Repr

def Policy.validate (p : Policy) : Except InstallError Unit :=
  require (minimumSeconds ≤ p.requiredSeconds ∧ p.requiredSeconds ≤ 30 * minimumSeconds ∧
      (1 ≤ p.maximumSampleGapSeconds ∧ p.maximumSampleGapSeconds ≤ 300) ∧ digestName p.profileDigest) rejected

structure Observation where
  id : Nat
  unixSeconds : Nat
  uptimeSeconds : Nat
  invocation : String
  candidate : String
  configurationDigest : String
  checks : List (Check × Bool)
  deriving DecidableEq, Repr

def Observation.passed (o : Observation) : Bool := Check.required.all fun check => o.checks.lookup check = some true

structure Evidence where
  policy : Policy
  startedUnixSeconds : Nat
  verifiedSeconds : Nat
  interruptedIntervals : Nat
  last : Observation
  deriving DecidableEq, Repr

namespace Evidence

def validate (e : Evidence) : Except InstallError Unit := do
  e.policy.validate
  require (e.last.id ≠ 0 ∧ e.startedUnixSeconds ≤ e.last.unixSeconds ∧ e.verifiedSeconds ≤ e.policy.requiredSeconds ∧
      ∀ value ∈ [e.last.invocation, e.last.candidate, e.last.configurationDigest], digestName value) rejected

def covered (e : Evidence) (next : Observation) (continuous : Bool) : Bool :=
  continuous && next.invocation = e.last.invocation && e.last.passed && next.passed &&
    ((elapsed next.uptimeSeconds e.last.uptimeSeconds).any fun seconds =>
      0 < seconds && seconds ≤ e.policy.maximumSampleGapSeconds) &&
    next.unixSeconds - e.last.unixSeconds ≤ e.policy.maximumSampleGapSeconds

def observe (e : Evidence) (next : Observation) (continuous : Bool) : Except InstallError Evidence := do
  require (e.last.id < next.id ∧ e.last.unixSeconds ≤ next.unixSeconds) rejected
  let utcElapsed := next.unixSeconds - e.last.unixSeconds
  let seen : Evidence :=
    if e.covered next continuous then
      let uptime := (elapsed next.uptimeSeconds e.last.uptimeSeconds).getD 0
      { e with
        verifiedSeconds := min (min (e.verifiedSeconds + min uptime utcElapsed) (2 ^ 64 - 1)) e.policy.requiredSeconds
        last := next }
    else
      { e with
        interruptedIntervals := min (e.interruptedIntervals + 1) (2 ^ 64 - 1)
        -- what a supervisor restart interrupts stays verified, without the time in between
        verifiedSeconds :=
          if continuous || !next.passed || next.invocation ≠ e.last.invocation then 0 else e.verifiedSeconds
        last := next }
  seen.validate
  pure seen

def complete (e : Evidence) : Bool := e.policy.requiredSeconds ≤ e.verifiedSeconds && e.last.passed

end Evidence

/-- A check as it was recorded. -/
structure Recorded where
  observation : Observation
  continuous : Bool
  deriving DecidableEq, Repr

/-- The parts of the ledger that a probation reads, with the checks that it has recorded, the newest first. -/
structure Ledger where
  promotion : Option PromotionRecord := none
  failures : Option Decision := none
  evidence : Option Evidence := none
  checks : List Recorded := []
  deriving DecidableEq, Repr

namespace Ledger

def validate (l : Ledger) : Except InstallError Unit := do
  match l.evidence with
  | some e => do
      e.validate
      require (l.promotion.any fun r =>
          r.candidate = e.last.candidate && r.configurationDigest = e.last.configurationDigest)
        (.rejected "probation activation mismatch")
  | none => pure ()
  ifPresent (·.validate) l.promotion

def recordPromotion (l : Ledger) (r : PromotionRecord) : Ledger :=
  if r.step = .stopping then { l with promotion := some r, evidence := none, checks := [] }
  else { l with promotion := some r }

def recordProbation (l : Ledger) (e : Evidence) (continuous : Bool) : Ledger :=
  { l with evidence := some e, checks := ⟨e.last, continuous⟩ :: l.checks }

def failureBlocksActivation (l : Ledger) : Bool :=
  l.failures.any fun d => d = .rollbackRequired || d = .recoveryRequired

def promotionNeedsRecovery (l : Ledger) : Bool :=
  l.promotion.any fun r =>
    r.step = .stopping || r.step = .starting || r.step = .recoveredPrevious || r.step = .recoveryRequired

end Ledger

/-- How far the write of a ledger gets. -/
inductive Write
  | refused
  | unwritten (scratch : Bool)
  | unconfirmed
  | committed
  deriving DecidableEq, Repr

/-- A supervisor with the ledger as it is held and as it is stored. -/
structure Host where
  ledger : Ledger
  stored : Ledger
  scratch : Bool
  recovery : Bool
  continuous : Bool
  journal : State
  deriving DecidableEq, Repr

inductive Event
  | observeProbation (policy : Policy) (observation : Observation) (write : Write) (switched : Bool)
  | recordPromotion (record : PromotionRecord) (write : Write)
  | recordFailures (decision : Decision) (write : Write)
  | record (write : Write)
  | transition (transition : Transition)
  | observeInstalled (candidate : Option String)
  | restart (resolved : Bool)

namespace Host

def publish (h : Host) (next : Ledger) : Write → Except InstallError Unit × Host
  | .committed => (.ok (), { h with ledger := next, stored := next, recovery := false })
  | .unconfirmed => (.error .io, { h with stored := next, recovery := true })
  | .unwritten scratch => (.error .io, { h with scratch, recovery := true })
  | .refused => (.error .io, h)

def persist (h : Host) (next : Ledger) (write : Write) : Except InstallError Unit × Host :=
  match require (write ≠ .refused) (.rejected "supervisor ledger exceeds bound") >>= fun _ => next.validate with
  | .error e => (.error e, h)
  -- a scratch file that is there is not overwritten
  | .ok _ => if h.scratch then (.error .io, { h with recovery := true }) else h.publish next write

def assess (h : Host) (policy : Policy) (o : Observation) : Except InstallError (Evidence × Phase) := do
  policy.validate
  require (!h.recovery ∧ !h.ledger.promotionNeedsRecovery ∧ !h.ledger.failureBlocksActivation) rejected
  match h.ledger.promotion, h.journal.production with
  | some promotion, some production => do
      require (promotion.step = .probation ∧ o.candidate = promotion.candidate ∧
          o.configurationDigest = promotion.configurationDigest ∧ production.digest = o.candidate ∧
          (production.phase = .probation ∨ production.phase = .healthy)) rejected
      let evidence ← match h.ledger.evidence with
        | some e => do
            require (e.policy = policy) rejected
            e.observe o h.continuous
        | none => pure ⟨policy, o.unixSeconds, 0, 0, o⟩
      evidence.validate
      pure (evidence, production.phase)
  | _, _ => .error rejected

def markHealthy (h : Host) (switched : Bool) : Except InstallError Host := do
  require (switched = true) (.rejected "candidate observation expired")
  let journal ← h.journal.advance .markHealthy
  pure { h with journal }

def observeProbation (h : Host) (policy : Policy) (o : Observation) (write : Write) (switched : Bool) :
    Except InstallError Bool × Host :=
  match h.assess policy o with
  | .error e => (.error e, h)
  | .ok (_, .healthy) => (.ok true, h)
  | .ok (evidence, _) =>
      match h.persist (h.ledger.recordProbation evidence h.continuous) write with
      | (.error e, h') => (.error e, h')
      | (.ok _, h') =>
          let observed := { h' with continuous := true }
          if evidence.complete then
            match observed.markHealthy switched with
            | .ok healthy => (.ok true, healthy)
            | .error e => (.error e, observed)
          else (.ok false, observed)

def step (h : Host) : Event → Host
  | .observeProbation policy o write switched => (h.observeProbation policy o write switched).2
  | .recordPromotion r write => (h.persist (h.ledger.recordPromotion r) write).2
  | .recordFailures decision write => (h.persist { h.ledger with failures := some decision } write).2
  | .record write => (h.persist h.ledger write).2
  -- no other operation of the supervisor marks a release healthy
  | .transition .markHealthy => h
  | .transition t =>
      match h.journal.advance t with
      | .ok journal => { h with journal }
      | .error _ => h
  | .observeInstalled candidate =>
      match h.journal.observe candidate with
      | .ok journal => { h with journal }
      | .error _ => h
  | .restart resolved =>
      -- an operator may have removed the scratch file
      let scratch := h.scratch && !resolved
      { h with ledger := h.stored, scratch, recovery := scratch, continuous := false }

def run (h : Host) (es : List Event) : Host := es.foldl step h

def opened (journal : State) : Host where
  ledger := {}
  stored := {}
  scratch := false
  recovery := false
  continuous := false
  journal := journal

end Host

section Credit

variable {p : Policy} {e e' : Evidence} {next : Observation} {continuous : Bool} {cs : List Recorded}

def unbroken (before next : Observation) : Bool := before.passed && next.passed && next.invocation = before.invocation

/-- What an interval counts for: the smaller of what the two clocks show, if neither shows more than the allowed gap. -/
def credit (p : Policy) (before : Observation) (next : Recorded) : Nat :=
  let uptime := next.observation.uptimeSeconds - before.uptimeSeconds
  let utc := next.observation.unixSeconds - before.unixSeconds
  if next.continuous ∧ uptime ≤ p.maximumSampleGapSeconds ∧ utc ≤ p.maximumSampleGapSeconds then min uptime utc else 0

/-- The intervals since the last check that failed or followed a process change, the newest check first. -/
def credited (p : Policy) : List Recorded → Nat
  | next :: before :: cs =>
      if unbroken before.observation next.observation then
        credit p before.observation next + credited p (before :: cs)
      else 0
  | _ => 0

theorem credited_failed {c : Recorded} (h : c.observation.passed = false) : credited p (c :: cs) = 0 := by
  cases cs with
  | nil => rfl
  | cons before cs => simp [credited, unbroken, h]

theorem Evidence.observe_eq_ok (h : e.observe next continuous = .ok e') :
    e.last.id < next.id ∧ e.last.unixSeconds ≤ next.unixSeconds ∧ e'.policy = e.policy ∧ e'.last = next ∧
      e'.validate = .ok () ∧
      if e.covered next continuous then
        e'.verifiedSeconds ≤ e.verifiedSeconds + min (next.uptimeSeconds - e.last.uptimeSeconds)
          (next.unixSeconds - e.last.unixSeconds)
      else e'.verifiedSeconds =
        if continuous || !next.passed || next.invocation ≠ e.last.invocation then 0 else e.verifiedSeconds := by
  simp only [Evidence.observe, bind_eq_ok, require_eq_ok, pure_eq_ok] at h
  obtain ⟨_, ⟨hid, hunix⟩, _, hvalid, rfl⟩ := h
  refine ⟨hid, hunix, ?_⟩
  by_cases hcovered : e.covered next continuous
  · rw [if_pos hcovered] at hvalid ⊢
    refine ⟨rfl, rfl, hvalid, ?_⟩
    rw [if_pos hcovered]
    have huptime : (elapsed next.uptimeSeconds e.last.uptimeSeconds).getD 0 =
        next.uptimeSeconds - e.last.uptimeSeconds := by
      by_cases hle : e.last.uptimeSeconds ≤ next.uptimeSeconds
      · simp [elapsed, hle]
      · simp only [elapsed, hle, if_false, Option.getD_none]
        omega
    simp only [huptime]
    omega
  · rw [if_neg hcovered] at hvalid ⊢
    refine ⟨rfl, rfl, hvalid, ?_⟩
    rw [if_neg hcovered]

theorem Evidence.covered_iff : e.covered next continuous = true ↔
    continuous = true ∧ unbroken e.last next = true ∧ e.last.uptimeSeconds < next.uptimeSeconds ∧
      next.uptimeSeconds - e.last.uptimeSeconds ≤ e.policy.maximumSampleGapSeconds ∧
      next.unixSeconds - e.last.unixSeconds ≤ e.policy.maximumSampleGapSeconds := by
  have hany : ((elapsed next.uptimeSeconds e.last.uptimeSeconds).any fun seconds =>
      0 < seconds && seconds ≤ e.policy.maximumSampleGapSeconds) = true ↔
      e.last.uptimeSeconds < next.uptimeSeconds ∧
        next.uptimeSeconds - e.last.uptimeSeconds ≤ e.policy.maximumSampleGapSeconds := by
    by_cases hle : e.last.uptimeSeconds ≤ next.uptimeSeconds
    · simp only [elapsed, hle, if_true, Option.any_some, Bool.and_eq_true, decide_eq_true_eq]
      omega
    · simp only [elapsed, hle, if_false, Option.any_none]
      constructor
      · nofun
      · omega
  simp only [covered, unbroken, Bool.and_eq_true, hany, decide_eq_true_eq]
  tauto

theorem Evidence.observe_credited {c : Recorded} (h : e.observe next continuous = .ok e')
    (hlast : c.observation = e.last) (hearned : e.verifiedSeconds ≤ credited e.policy (c :: cs)) :
    e'.verifiedSeconds ≤ credited e'.policy (⟨next, continuous⟩ :: c :: cs) := by
  obtain ⟨_, _, hpolicy, _, _, hverified⟩ := Evidence.observe_eq_ok h
  rw [hpolicy, credited, hlast]
  by_cases hcovered : e.covered next continuous
  · obtain ⟨hcontinuous, hunbroken, _, hup, hutc⟩ := Evidence.covered_iff.mp hcovered
    rw [if_pos hcovered] at hverified
    rw [if_pos hunbroken, credit, if_pos ⟨hcontinuous, hup, hutc⟩]
    dsimp only
    omega
  · rw [if_neg hcovered] at hverified
    by_cases hreset : (continuous || !next.passed || decide (next.invocation ≠ e.last.invocation)) = true
    · rw [if_pos hreset] at hverified
      omega
    · rw [if_neg hreset] at hverified
      simp only [Bool.or_eq_true, not_or, Bool.not_eq_true', Bool.not_eq_false, decide_eq_true_eq, ne_eq,
        not_not] at hreset
      by_cases hpassed : e.last.passed
      · have hunbroken : unbroken e.last next = true := by simp [unbroken, hpassed, hreset]
        rw [if_pos hunbroken]
        omega
      · rw [credited_failed (by rw [hlast]; simpa using hpassed)] at hearned
        omega

end Credit

section Soundness

variable {l next : Ledger} {h h' : Host} {e : Evidence} {o : Observation} {policy : Policy} {write : Write}
  {j j' : State} {transition : Transition} {p : Release}

/-- The evidence in a ledger is what its recorded checks have earned, all of them for the promoted release. -/
structure Ledger.Sound (l : Ledger) : Prop where
  absent : l.evidence = none → l.checks = []
  newest : ∀ e ∈ l.evidence, ∃ c ∈ l.checks.head?, c.observation = e.last
  earned : ∀ e ∈ l.evidence, e.verifiedSeconds ≤ credited e.policy l.checks
  release : ∀ e ∈ l.evidence, ∀ c ∈ l.checks, c.observation.candidate = e.last.candidate
  promoted : ∀ e ∈ l.evidence, ∃ r ∈ l.promotion, r.candidate = e.last.candidate

theorem Ledger.validate_eq_ok (h : l.validate = .ok ()) :
    ∀ e ∈ l.evidence, e.validate = .ok () ∧ ∃ r ∈ l.promotion, r.candidate = e.last.candidate := by
  intro e he
  simp only [validate, Option.mem_def.mp he, bind_eq_ok, require_eq_ok] at h
  obtain ⟨_, hvalid, _, hany, _⟩ := h
  cases hr : l.promotion with
  | none => simp [hr] at hany
  | some r =>
      simp only [hr, Option.any_some, Bool.and_eq_true, decide_eq_true_eq] at hany
      exact ⟨hvalid, r, rfl, hany.1⟩

theorem Ledger.sound_recordPromotion {r : PromotionRecord} (hl : l.Sound)
    (hvalid : (l.recordPromotion r).validate = .ok ()) : (l.recordPromotion r).Sound := by
  have hpromoted := Ledger.validate_eq_ok hvalid
  unfold recordPromotion at hpromoted ⊢
  by_cases hstep : r.step = .stopping
  · rw [if_pos hstep]
    exact ⟨fun _ => rfl, nofun, nofun, nofun, nofun⟩
  · rw [if_neg hstep] at hpromoted ⊢
    exact ⟨hl.absent, hl.newest, hl.earned, hl.release, fun e he => (hpromoted e he).2⟩

theorem Ledger.sound_recordFailures {decision : Decision} (hl : l.Sound) :
    Ledger.Sound { l with failures := some decision } :=
  ⟨hl.absent, hl.newest, hl.earned, hl.release, hl.promoted⟩

structure Persisted (h : Host) (next : Ledger) (h' : Host) : Prop where
  journal : h'.journal = h.journal
  ledger : h'.ledger = h.ledger ∨ (next.validate = .ok () ∧ h'.ledger = next)
  stored : h'.stored = h.stored ∨ (next.validate = .ok () ∧ h'.stored = next)

theorem Host.persist_cases (h : Host) (next : Ledger) (write : Write) :
    (∃ error h', h.persist next write = (.error error, h') ∧ Persisted h next h') ∨
      next.validate = .ok () ∧
        h.persist next write = (.ok (), { h with ledger := next, stored := next, recovery := false }) := by
  unfold persist
  split
  · next error _ => exact .inl ⟨error, h, rfl, rfl, .inl rfl, .inl rfl⟩
  · next hvalid =>
      obtain ⟨_, hwrite, hvalid⟩ := bind_eq_ok.mp hvalid
      by_cases hscratch : h.scratch = true
      · rw [if_pos hscratch]
        exact .inl ⟨_, _, rfl, rfl, .inl rfl, .inl rfl⟩
      · rw [if_neg hscratch]
        cases write with
        | committed => exact .inr ⟨hvalid, rfl⟩
        | unconfirmed => exact .inl ⟨_, _, rfl, rfl, .inl rfl, .inr ⟨hvalid, rfl⟩⟩
        | unwritten scratch => exact .inl ⟨_, _, rfl, rfl, .inl rfl, .inl rfl⟩
        | refused => simp at hwrite

theorem Host.persist_persisted : Persisted h next (h.persist next write).2 := by
  obtain ⟨error, h', hp, hpersisted⟩ | ⟨hvalid, hp⟩ := h.persist_cases next write
  · rw [hp]
    exact hpersisted
  · rw [hp]
    exact ⟨rfl, .inr ⟨hvalid, rfl⟩, .inr ⟨hvalid, rfl⟩⟩

/-- Both copies of the ledger are sound, and a release that is being activated is the candidate. -/
structure Host.Sound (h : Host) : Prop where
  ledger : h.ledger.Sound
  stored : h.stored.Sound
  activated : ∀ p ∈ h.journal.production, p.phase = .promoting ∨ p.phase = .probation → h.journal.candidate = some p

theorem Host.Sound.persisted (hs : h.Sound) (hnext : next.validate = .ok () → next.Sound) (hp : Persisted h next h') :
    h'.Sound where
  ledger := by
    obtain heq | ⟨hvalid, heq⟩ := hp.ledger
    · exact heq ▸ hs.ledger
    · exact heq ▸ hnext hvalid
  stored := by
    obtain heq | ⟨hvalid, heq⟩ := hp.stored
    · exact heq ▸ hs.stored
    · exact heq ▸ hnext hvalid
  activated := hp.journal ▸ hs.activated

/-- What an accepted check says about the release, and where the evidence with it comes from. -/
structure Assessed (h : Host) (policy : Policy) (o : Observation) (e' : Evidence) (p : Release) : Prop where
  production : h.journal.production = some p
  digest : p.digest = o.candidate
  phase : p.phase = .probation ∨ p.phase = .healthy
  promotion : ∃ r, h.ledger.promotion = some r ∧ r.candidate = o.candidate
  policy : e'.policy = policy
  last : e'.last = o
  source : h.ledger.evidence = none ∧ e'.verifiedSeconds = 0 ∨
    ∃ e, h.ledger.evidence = some e ∧ e.observe o h.continuous = .ok e'

theorem Host.assess_eq_ok {e' : Evidence} {phase : Phase} (ha : h.assess policy o = .ok (e', phase)) :
    ∃ p, Assessed h policy o e' p ∧ p.phase = phase := by
  simp only [assess, bind_eq_ok, require_eq_ok] at ha
  obtain ⟨_, _, _, _, ha⟩ := ha
  split at ha
  · next r p hr hp =>
      cases hevidence : h.ledger.evidence with
      | none =>
          simp only [hevidence, bind_eq_ok, require_eq_ok, pure_eq_ok, Prod.mk.injEq] at ha
          obtain ⟨_, ⟨_, hcandidate, _, hdigest, hphase⟩, e, rfl, _, _, rfl, rfl⟩ := ha
          exact ⟨p, ⟨hp, hdigest, hphase, ⟨r, hr, hcandidate.symm⟩, rfl, rfl, .inl ⟨hevidence, rfl⟩⟩, rfl⟩
      | some e =>
          simp only [hevidence, bind_eq_ok, require_eq_ok, pure_eq_ok, Prod.mk.injEq] at ha
          obtain ⟨_, ⟨_, hcandidate, _, hdigest, hphase⟩, _, hpolicy, e', hobserve, _, _, rfl, rfl⟩ := ha
          obtain ⟨_, _, hkept, hlast, _⟩ := Evidence.observe_eq_ok hobserve
          exact ⟨p, ⟨hp, hdigest, hphase, ⟨r, hr, hcandidate.symm⟩, hkept.trans hpolicy, hlast,
            .inr ⟨e, hevidence, hobserve⟩⟩, rfl⟩
  · cases ha

theorem Assessed.sound {e' : Evidence} (ha : Assessed h policy o e' p) (hl : h.ledger.Sound) :
    (h.ledger.recordProbation e' h.continuous).Sound := by
  obtain ⟨r, hr, hcandidate⟩ := ha.promotion
  have hpromoted : ∃ r ∈ h.ledger.promotion, r.candidate = e'.last.candidate := ⟨r, hr, by rw [hcandidate, ha.last]⟩
  obtain ⟨hnone, hzero⟩ | ⟨e, he, hobserve⟩ := ha.source
  · have hchecks : h.ledger.checks = [] := hl.absent hnone
    constructor
    · nofun
    · rintro _ ⟨⟩
      exact ⟨_, rfl, rfl⟩
    · rintro _ ⟨⟩
      rw [hzero]
      exact Nat.zero_le _
    · rintro _ ⟨⟩ c hc
      rw [Ledger.recordProbation, hchecks, List.mem_singleton] at hc
      rw [hc]
    · rintro _ ⟨⟩
      exact hpromoted
  · obtain ⟨c, hc, hlast⟩ := hl.newest e he
    obtain ⟨cs, hcs⟩ := List.head?_eq_some_iff.mp hc
    have hearned := hl.earned e he
    rw [hcs] at hearned
    constructor
    · nofun
    · rintro _ ⟨⟩
      exact ⟨_, rfl, rfl⟩
    · rintro _ ⟨⟩
      rw [Ledger.recordProbation, hcs, ha.last]
      exact Evidence.observe_credited hobserve hlast hearned
    · rintro _ ⟨⟩ x hx
      obtain rfl | hx := List.mem_cons.mp hx
      · rfl
      · obtain ⟨r', hr', hold⟩ := hl.promoted e he
        obtain rfl : r = r' := Option.some.inj (hr.symm.trans hr')
        rw [hl.release e he x hx, ← hold, hcandidate, ha.last]
    · rintro _ ⟨⟩
      exact hpromoted

theorem Host.observeProbation_cases (h : Host) (policy : Policy) (o : Observation) (write : Write) (switched : Bool) :
    (h.observeProbation policy o write switched).2 = h ∨
      ∃ e' p, Assessed h policy o e' p ∧ ∃ h', Persisted h (h.ledger.recordProbation e' h.continuous) h' ∧
        ((h.observeProbation policy o write switched).2 = h' ∨
          p.phase = .probation ∧ e'.complete = true ∧ h'.ledger = h.ledger.recordProbation e' h.continuous ∧
            ∃ journal, h.journal.advance .markHealthy = .ok journal ∧
              (h.observeProbation policy o write switched).2 = { h' with journal }) := by
  unfold observeProbation
  split
  · exact .inl rfl
  · exact .inl rfl
  · next e' phase hphase ha =>
      obtain ⟨p, hassessed, hp⟩ := Host.assess_eq_ok ha
      refine .inr ⟨e', p, hassessed, ?_⟩
      obtain ⟨error, h', hw, hpersisted⟩ | ⟨hvalid, hw⟩ :=
        h.persist_cases (h.ledger.recordProbation e' h.continuous) write
      · rw [hw]
        exact ⟨h', hpersisted, .inl rfl⟩
      · rw [hw]
        refine ⟨{ h with
          ledger := h.ledger.recordProbation e' h.continuous, stored := h.ledger.recordProbation e' h.continuous
          recovery := false, continuous := true }, ⟨rfl, .inr ⟨hvalid, rfl⟩, .inr ⟨hvalid, rfl⟩⟩, ?_⟩
        dsimp only
        by_cases hcomplete : e'.complete
        · rw [if_pos hcomplete]
          split
          · next healthy hmark =>
              simp only [markHealthy, bind_eq_ok, require_eq_ok, pure_eq_ok] at hmark
              obtain ⟨_, _, journal, hjournal, rfl⟩ := hmark
              refine .inr ⟨?_, hcomplete, rfl, journal, hjournal, rfl⟩
              exact hassessed.phase.resolve_right fun hhealthy => hphase (hp ▸ hhealthy)
          · exact .inl rfl
        · rw [if_neg hcomplete]
          exact .inl rfl

theorem healthy_of_advance (ha : j.advance transition = .ok j') (ht : transition ≠ .markHealthy)
    (hp : j'.production = some p) (hhealthy : p.phase = .healthy) : j.production = some p := by
  obtain ⟨c, moved, _, hmoves, _, rfl, _⟩ := State.advance_eq_ok ha
  cases hmoves with
  | beginStaging | qualify | failStaging => exact hp
  | markHealthy => exact absurd rfl ht
  | firstPromotion | beginPromotion | beginProbation | beginRollback | finishRollback =>
      cases hp
      cases hhealthy

theorem production_of_observe {candidate : Option String} (ho : j.observe candidate = .ok j') :
    j'.production = j.production ∧ (j' = j ∨ j.busy = false) := by
  unfold State.observe at ho
  split_ifs at ho
  · cases ho
    exact ⟨rfl, .inl rfl⟩
  · simp only [bind_eq_ok, require_eq_ok, pure_eq_ok] at ho
    obtain ⟨_, hbusy, _, _, _, _, rfl⟩ := ho
    exact ⟨rfl, .inr (by simpa using hbusy)⟩

theorem Host.Sound.step (hs : h.Sound) (e : Event) : (h.step e).Sound := by
  cases e with
  | observeProbation policy o write switched =>
      obtain heq | ⟨e', p, hassessed, h', hpersisted, hcases⟩ := h.observeProbation_cases policy o write switched
      · rw [Host.step, heq]
        exact hs
      · have hs' : h'.Sound := hs.persisted (fun _ => hassessed.sound hs.ledger) hpersisted
        obtain heq | ⟨_, _, _, journal, hadvance, heq⟩ := hcases
        · rw [Host.step, heq]
          exact hs'
        · obtain ⟨_, _, _, _, _, _, hvalid⟩ := State.advance_eq_ok hadvance
          rw [Host.step, heq]
          exact ⟨hs'.ledger, hs'.stored, hvalid.activation⟩
  | recordPromotion r write =>
      exact hs.persisted (Ledger.sound_recordPromotion hs.ledger) Host.persist_persisted
  | recordFailures decision write =>
      exact hs.persisted (fun _ => Ledger.sound_recordFailures hs.ledger) Host.persist_persisted
  | record write => exact hs.persisted (fun _ => hs.ledger) Host.persist_persisted
  | transition t =>
      cases hadvance : h.journal.advance t with
      | error error => cases t <;> simpa only [Host.step, hadvance] using hs
      | ok journal =>
          obtain ⟨_, _, _, _, _, _, hvalid⟩ := State.advance_eq_ok hadvance
          have hmoved : Host.Sound { h with journal } := ⟨hs.ledger, hs.stored, hvalid.activation⟩
          cases t with
          | markHealthy => exact hs
          | _ => simpa only [Host.step, hadvance] using hmoved
  | observeInstalled candidate =>
      cases hobserve : h.journal.observe candidate with
      | error error => simpa only [Host.step, hobserve] using hs
      | ok journal =>
          obtain ⟨hproduction, hcandidate⟩ := production_of_observe hobserve
          have hmoved : Host.Sound { h with journal } := by
            refine ⟨hs.ledger, hs.stored, ?_⟩
            obtain heq | hidle := hcandidate
            · exact heq ▸ hs.activated
            · -- an activation in progress keeps its candidate
              intro p hp hphase
              rw [hproduction, Option.mem_def] at hp
              obtain hphase | hphase := hphase <;> simp [State.busy, hp, hphase] at hidle
          simpa only [Host.step, hobserve] using hmoved
  | restart resolved => exact ⟨hs.stored, hs.stored, hs.activated⟩

theorem Ledger.sound_empty : ({} : Ledger).Sound := ⟨fun _ => rfl, nofun, nofun, nofun, nofun⟩

namespace Host

theorem run_sound (active previousGood candidate : Option String) (es : List Event) :
    ((opened (State.initial active previousGood candidate)).run es).Sound := by
  apply Transition.run_invariant (P := Sound) (fun h e hs => hs.step e)
  refine ⟨Ledger.sound_empty, Ledger.sound_empty, ?_⟩
  intro p hp hphase
  obtain ⟨digest, _, rfl⟩ := Option.map_eq_some_iff.mp hp
  by_cases hgood : previousGood = some digest
  · simp [hgood] at hphase
  · simp [hgood] at hphase

theorem step_not_healthy {event : Event} (hphase : p.phase = .healthy) (hbefore : h.journal.production ≠ some p)
    (hafter : (h.step event).journal.production = some p) :
    ∃ policy o write switched, event = .observeProbation policy o write switched := by
  cases event with
  | observeProbation policy o write switched => exact ⟨policy, o, write, switched, rfl⟩
  | recordPromotion | recordFailures | record =>
      rw [step, persist_persisted.journal] at hafter
      exact absurd hafter hbefore
  | transition t =>
      cases hadvance : h.journal.advance t with
      | error error =>
          have hsame : (h.step (.transition t)).journal = h.journal := by cases t <;> simp only [step, hadvance]
          exact absurd (hsame ▸ hafter) hbefore
      | ok journal =>
          cases t with
          | markHealthy => exact absurd hafter hbefore
          | _ =>
              simp only [step, hadvance] at hafter
              exact absurd (healthy_of_advance hadvance nofun hafter hphase) hbefore
  | observeInstalled candidate =>
      cases hobserve : h.journal.observe candidate with
      | error error =>
          simp only [step, hobserve] at hafter
          exact absurd hafter hbefore
      | ok journal =>
          simp only [step, hobserve, (production_of_observe hobserve).1] at hafter
          exact absurd hafter hbefore
  | restart resolved => exact absurd hafter hbefore

/-- The step by which a release becomes healthy is a check of it, and the intervals since the last recorded failure or
process change are credited with the required time. -/
theorem healthy_earned (active previousGood candidate : Option String) (es : List Event) (event : Event)
    (p : Release) (hphase : p.phase = .healthy)
    (hbefore : ((opened (State.initial active previousGood candidate)).run es).journal.production ≠ some p)
    (hafter : (((opened (State.initial active previousGood candidate)).run es).step event).journal.production =
      some p) :
    ∃ policy o write switched, event = .observeProbation policy o write switched ∧
      let ledger := (((opened (State.initial active previousGood candidate)).run es).step event).ledger
      (∃ continuous cs, ledger.checks = ⟨o, continuous⟩ :: cs) ∧
      (∀ c ∈ ledger.checks, c.observation.candidate = p.digest) ∧
      policy.requiredSeconds ≤ credited policy ledger.checks := by
  have hs := run_sound active previousGood candidate es
  generalize (opened (State.initial active previousGood candidate)).run es = h at hs hbefore hafter
  obtain ⟨policy, o, write, switched, rfl⟩ := step_not_healthy hphase hbefore hafter
  have hs' := hs.step (.observeProbation policy o write switched)
  refine ⟨policy, o, write, switched, rfl, ?_⟩
  obtain heq | ⟨e', production, hassessed, h', hpersisted, hcases⟩ := h.observeProbation_cases policy o write switched
  · rw [step, heq] at hafter
    exact absurd hafter hbefore
  · obtain heq | ⟨hprobation, hcomplete, hledger, journal, hadvance, heq⟩ := hcases
    · rw [step, heq, hpersisted.journal] at hafter
      exact absurd hafter hbefore
    · have hstep : h.step (.observeProbation policy o write switched) = { h' with journal } := heq
      rw [hstep] at hs' hafter ⊢
      have hevidence : h'.ledger.evidence = some e' := by rw [hledger]; rfl
      -- the release that was in probation is the one that is marked
      have hdigest : p.digest = o.candidate := by
        obtain ⟨c, moved, hc, hmoves, _, rfl, _⟩ := State.advance_eq_ok hadvance
        rw [hs.activated production hassessed.production (.inr hprobation)] at hc
        cases hmoves
        cases hafter
        cases hc
        exact hassessed.digest
      refine ⟨⟨h.continuous, h.ledger.checks, by rw [hledger, Ledger.recordProbation, hassessed.last]⟩, ?_, ?_⟩
      · intro c hc
        rw [hs'.ledger.release e' hevidence c hc, hassessed.last, hdigest]
      · simp only [Evidence.complete, Bool.and_eq_true, decide_eq_true_eq] at hcomplete
        rw [← hassessed.policy]
        exact Nat.le_trans hcomplete.1 (hs'.ledger.earned e' hevidence)

end Host

end Soundness

section Day

open Activation (sampleDigest)

def dayPolicy : Policy := ⟨86400, 300, sampleDigest 'd'⟩

def dayObservation (passed : Bool) (id unixSeconds uptimeSeconds : Nat) : Observation :=
  ⟨id, unixSeconds, uptimeSeconds, sampleDigest 'e', sampleDigest 'a', sampleDigest 'c',
    Check.required.map fun check => (check, passed)⟩

def dayCheck (passed : Bool) (id unixSeconds uptimeSeconds : Nat) : Event :=
  .observeProbation dayPolicy (dayObservation passed id unixSeconds uptimeSeconds) .committed true

def dayPromotion : PromotionRecord where
  configurationDigest := sampleDigest 'c'
  productionInputsDigest := sampleDigest 'f'
  databaseDevice := 1
  databaseInode := 2
  candidate := sampleDigest 'a'
  previous := sampleDigest 'b'
  step := .probation
  recoveryAttempted := false

def dayStart : List Event :=
  [.transition .beginStaging, .transition .qualify, .transition .beginPromotion,
    .recordPromotion dayPromotion .committed, .transition .beginProbation]

/-- The checks of one process, 300 seconds apart, up to five minutes before the end of a day. -/
def dayChecks : List Event := (List.range 288).map fun n => dayCheck true (n + 1) (300 * n) (300 * n)

def dayInitial : Host :=
  Host.opened (State.initial (some (sampleDigest 'b')) (some (sampleDigest 'b')) (some (sampleDigest 'a')))

def dayLedger : Ledger where
  promotion := some dayPromotion
  evidence := some ⟨dayPolicy, 0, 86100, 0, dayObservation true 288 86100 86100⟩
  checks := (List.range 288).reverse.map fun n => ⟨dayObservation true (n + 1) (300 * n) (300 * n), 0 < n⟩

def dayHost : Host where
  ledger := dayLedger
  stored := dayLedger
  scratch := false
  recovery := false
  continuous := true
  journal := ⟨4, some ⟨sampleDigest 'a', .probation⟩, some (sampleDigest 'b'), some ⟨sampleDigest 'a', .probation⟩⟩

theorem day_run : dayInitial.run (dayStart ++ dayChecks) = dayHost := by decide +kernel

theorem day_healthy :
    (dayHost.step (dayCheck true 289 86400 86400)).journal.production = some ⟨sampleDigest 'a', .healthy⟩ := by
  decide +kernel

/-- A day of passed checks marks the release healthy. -/
theorem day_earned :
    (dayHost.step (dayCheck true 289 86400 86400)).journal.production = some ⟨sampleDigest 'a', .healthy⟩ ∧
      86400 ≤ credited dayPolicy (dayHost.step (dayCheck true 289 86400 86400)).ledger.checks := by
  have hearned := Host.healthy_earned (some (sampleDigest 'b')) (some (sampleDigest 'b')) (some (sampleDigest 'a'))
    (dayStart ++ dayChecks) (dayCheck true 289 86400 86400) ⟨sampleDigest 'a', .healthy⟩ rfl
  rw [show (Host.opened _).run _ = dayHost from day_run] at hearned
  obtain ⟨policy, _, _, _, hevent, _, _, hcredited⟩ := hearned (by decide +kernel) day_healthy
  obtain ⟨rfl, _⟩ := Event.observeProbation.inj hevent
  exact ⟨day_healthy, hcredited⟩

/-- A failed check whose wall clock is behind the last one is refused, and the credit of the run stands. -/
theorem refused_failure_keeps_credit :
    (dayObservation false 289 86099 86200).passed = false ∧
    ((dayInitial.run (dayStart ++ dayChecks)).observeProbation dayPolicy (dayObservation false 289 86099 86200)
      .committed true).1 = .error rejected ∧
    ((dayInitial.run (dayStart ++ dayChecks)).step (dayCheck false 289 86099 86200)).journal.production =
      some ⟨sampleDigest 'a', .probation⟩ ∧
    (((dayInitial.run (dayStart ++ dayChecks)).step (dayCheck false 289 86099 86200)).step
      (dayCheck true 290 86400 86400)).journal.production = some ⟨sampleDigest 'a', .healthy⟩ ∧
    credit dayPolicy (dayObservation true 288 86100 86100) ⟨dayObservation true 290 86400 86400, true⟩ = 300 := by
  rw [day_run]
  decide +kernel

end Day

end OcppBridge.Supervision.Probation
