import Mathlib.Algebra.Group.Nat.Defs
import OcppBridge.Transaction

namespace OcppBridge.Activation

open Transaction

inductive InstallError
  | io
  | json
  | rejected (reason : String)
  deriving DecidableEq, Repr

def digestName (value : String) : Bool :=
  value.utf8ByteSize = 64 && value.toUTF8.data.toList.all fun b => (48 ≤ b && b ≤ 57) || (97 ≤ b && b ≤ 102)

inductive Phase
  | installed
  | staging
  | qualified
  | promoting
  | probation
  | healthy
  | quarantined
  | rollingBack
  | previousGood
  deriving DecidableEq, Repr

def Phase.activated : Phase → Bool
  | .promoting | .probation | .healthy => true
  | _ => false

structure Release where
  digest : String
  phase : Phase
  deriving DecidableEq, Repr

structure State where
  sequence : Nat := 0
  production : Option Release := none
  previousGood : Option String := none
  candidate : Option Release := none
  deriving DecidableEq, Repr

inductive Transition
  | beginStaging
  | qualify
  | failStaging
  | beginPromotion
  | beginProbation
  | markHealthy
  | beginRollback
  | finishRollback
  deriving DecidableEq, Repr

def Transition.all : List Transition :=
  [.beginStaging, .qualify, .failStaging, .beginPromotion, .beginProbation, .markHealthy, .beginRollback,
    .finishRollback]

namespace State

def productionDigest (s : State) : Option String := s.production.map (·.digest)

def candidateDigest (s : State) : Option String := s.candidate.map (·.digest)

def digests (s : State) : List String := s.productionDigest.toList ++ s.previousGood.toList ++ s.candidateDigest.toList

def productionPhases : List Phase := [.installed, .promoting, .probation, .healthy, .rollingBack, .previousGood]

def validate (s : State) : Except InstallError Unit := do
  require (∀ digest ∈ s.digests, digestName digest) (.rejected "invalid release journal digest")
  require ((∀ p ∈ s.production, p.phase ∈ productionPhases) ∧
      ∀ c ∈ s.candidate, c.phase ≠ .rollingBack ∧ c.phase ≠ .previousGood) (.rejected "invalid release journal phase")
  require (∀ p ∈ s.production, p.phase = .promoting ∨ p.phase = .probation → s.candidate = some p)
    (.rejected "activation candidate mismatch")
  require (∀ p ∈ s.production, p.phase = .rollingBack ∨ p.phase = .previousGood → s.previousGood = some p.digest)
    (.rejected "rollback artifact mismatch")

def busy (s : State) : Bool :=
  s.production.any fun p => p.phase = .promoting || p.phase = .probation || p.phase = .rollingBack

def invalid : InstallError := .rejected "invalid release transition"

/-- `u64::checked_add` of one. -/
def nextSequence (s : State) (error : InstallError) : Except InstallError Nat :=
  if s.sequence + 1 < 2 ^ 64 then .ok (s.sequence + 1) else .error error

def move (s : State) (c : Release) : Transition → Except InstallError State
  | .beginStaging => do
      require (c.phase = .installed) invalid
      pure { s with candidate := some { c with phase := .staging } }
  | .qualify => do
      require (c.phase = .staging) invalid
      pure { s with candidate := some { c with phase := .qualified } }
  | .failStaging => do
      require (c.phase = .staging ∨ c.phase = .qualified) invalid
      pure { s with candidate := some { c with phase := .quarantined } }
  | .beginPromotion => do
      require (c.phase = .qualified ∧ !s.busy) invalid
      let promoted := { c with phase := .promoting }
      match s.production with
      | none => pure { s with candidate := some promoted, production := some promoted }
      | some p =>
          require (p.phase = .healthy ∨ p.phase = .previousGood) invalid
          require (p.digest ≠ c.digest) invalid
          pure { s with candidate := some promoted, production := some promoted, previousGood := some p.digest }
  | .beginProbation => do
      require (c.phase = .promoting) invalid
      let entered := { c with phase := .probation }
      pure { s with candidate := some entered, production := some entered }
  | .markHealthy => do
      require (c.phase = .probation) invalid
      let passed := { c with phase := .healthy }
      pure { s with candidate := some passed, production := some passed }
  | .beginRollback => do
      require c.phase.activated invalid
      match s.previousGood with
      | none => .error invalid
      | some digest => pure { s with
          candidate := some { c with phase := .quarantined }
          production := some ⟨digest, .rollingBack⟩ }
  | .finishRollback =>
      match s.production with
      | some ⟨digest, .rollingBack⟩ => pure { s with production := some ⟨digest, .previousGood⟩ }
      | _ => .error invalid

def advance (s : State) (transition : Transition) : Except InstallError State := do
  match s.candidate with
  | none => .error (.rejected "no candidate observation")
  | some c =>
      let moved ← s.move c transition
      let sequence ← s.nextSequence invalid
      let next := { moved with sequence }
      next.validate
      pure next

def observe (s : State) (candidate : Option String) : Except InstallError State :=
  if candidate = s.candidateDigest then pure s
  else do
    require (!s.busy) (.rejected "activation in progress")
    let sequence ← s.nextSequence (.rejected "release sequence exhausted")
    let next := { s with sequence, candidate := candidate.map (⟨·, .installed⟩) }
    next.validate
    pure next

def follows (next before : State) : Bool :=
  (!before.busy && before.production = next.production && before.previousGood = next.previousGood &&
      before.candidate ≠ next.candidate && next.candidate.all (·.phase = .installed) &&
      (before.sequence + 1 < 2 ^ 64 && before.sequence + 1 = next.sequence)) ||
    Transition.all.any fun transition => (before.advance transition).toOption = some next

def initial (active previousGood candidate : Option String) : State where
  sequence := 0
  production := active.map fun digest => ⟨digest, if previousGood = some digest then .previousGood else .installed⟩
  previousGood := previousGood
  candidate := candidate.map (⟨·, .installed⟩)

section Inversion

variable {s s' : State} {c : Release} {transition : Transition}

structure Valid (s : State) : Prop where
  digests : ∀ digest ∈ s.digests, digestName digest
  production : ∀ p ∈ s.production, p.phase ∈ productionPhases
  candidate : ∀ c ∈ s.candidate, c.phase ≠ .rollingBack ∧ c.phase ≠ .previousGood
  activation : ∀ p ∈ s.production, p.phase = .promoting ∨ p.phase = .probation → s.candidate = some p
  rollback : ∀ p ∈ s.production, p.phase = .rollingBack ∨ p.phase = .previousGood → s.previousGood = some p.digest

theorem validate_eq_ok {u : Unit} : s.validate = .ok u ↔ Valid s := by
  simp only [validate, bind_eq_ok, require_eq_ok]
  constructor
  · rintro ⟨_, hdigests, _, ⟨hproduction, hcandidate⟩, _, hactivation, hrollback⟩
    exact ⟨hdigests, hproduction, hcandidate, hactivation, hrollback⟩
  · rintro ⟨hdigests, hproduction, hcandidate, hactivation, hrollback⟩
    exact ⟨(), hdigests, (), ⟨hproduction, hcandidate⟩, (), hactivation, hrollback⟩

theorem nextSequence_eq_ok {error : InstallError} {n : Nat} :
    s.nextSequence error = .ok n ↔ s.sequence + 1 < 2 ^ 64 ∧ s.sequence + 1 = n := by
  rw [nextSequence]
  split_ifs with h
  · exact ⟨fun heq => ⟨h, Except.ok.inj heq⟩, fun heq => congrArg Except.ok heq.2⟩
  · exact ⟨nofun, fun heq => absurd heq.1 h⟩

inductive Moves (s : State) (c : Release) : Transition → State → Prop
  | beginStaging (h : c.phase = .installed) :
      Moves s c .beginStaging { s with candidate := some { c with phase := .staging } }
  | qualify (h : c.phase = .staging) : Moves s c .qualify { s with candidate := some { c with phase := .qualified } }
  | failStaging (h : c.phase = .staging ∨ c.phase = .qualified) :
      Moves s c .failStaging { s with candidate := some { c with phase := .quarantined } }
  | firstPromotion (h : c.phase = .qualified) (hproduction : s.production = none) :
      Moves s c .beginPromotion { s with
        candidate := some { c with phase := .promoting }
        production := some { c with phase := .promoting } }
  | beginPromotion {p : Release} (h : c.phase = .qualified) (hproduction : s.production = some p)
      (hphase : p.phase = .healthy ∨ p.phase = .previousGood) (hdigest : p.digest ≠ c.digest) :
      Moves s c .beginPromotion { s with
        candidate := some { c with phase := .promoting }
        production := some { c with phase := .promoting }
        previousGood := some p.digest }
  | beginProbation (h : c.phase = .promoting) :
      Moves s c .beginProbation { s with
        candidate := some { c with phase := .probation }
        production := some { c with phase := .probation } }
  | markHealthy (h : c.phase = .probation) :
      Moves s c .markHealthy { s with
        candidate := some { c with phase := .healthy }
        production := some { c with phase := .healthy } }
  | beginRollback {digest : String} (h : c.phase.activated) (hgood : s.previousGood = some digest) :
      Moves s c .beginRollback { s with
        candidate := some { c with phase := .quarantined }
        production := some ⟨digest, .rollingBack⟩ }
  | finishRollback {digest : String} (h : s.production = some ⟨digest, .rollingBack⟩) :
      Moves s c .finishRollback { s with production := some ⟨digest, .previousGood⟩ }

theorem move_moves (h : s.move c transition = .ok s') : Moves s c transition s' := by
  cases transition with
  | beginStaging | qualify | failStaging | beginProbation | markHealthy =>
      simp only [move, bind_eq_ok, require_eq_ok, pure_eq_ok] at h
      obtain ⟨_, hphase, rfl⟩ := h
      constructor
      exact hphase
  | beginPromotion =>
      simp only [move, bind_eq_ok, require_eq_ok] at h
      obtain ⟨_, ⟨hphase, _⟩, h⟩ := h
      split at h
      · next hproduction =>
          rw [← pure_eq_ok.mp h]
          exact .firstPromotion hphase hproduction
      · next p hproduction =>
          simp only [bind_eq_ok, require_eq_ok, pure_eq_ok] at h
          obtain ⟨_, hold, _, hdigest, rfl⟩ := h
          exact .beginPromotion hphase hproduction hold hdigest
  | beginRollback =>
      simp only [move, bind_eq_ok, require_eq_ok] at h
      obtain ⟨_, hphase, h⟩ := h
      split at h
      · cases h
      · next digest hgood =>
          rw [← pure_eq_ok.mp h]
          exact .beginRollback hphase hgood
  | finishRollback =>
      simp only [move] at h
      split at h
      · next digest hproduction =>
          rw [← pure_eq_ok.mp h]
          exact .finishRollback hproduction
      · cases h

theorem advance_eq_ok (h : s.advance transition = .ok s') :
    ∃ c moved, s.candidate = some c ∧ Moves s c transition moved ∧ s.sequence + 1 < 2 ^ 64 ∧
      s' = { moved with sequence := s.sequence + 1 } ∧ Valid s' := by
  unfold advance at h
  split at h
  · cases h
  · next c hc =>
      simp only [bind_eq_ok, pure_eq_ok, nextSequence_eq_ok, validate_eq_ok] at h
      obtain ⟨moved, hmove, _, ⟨hsequence, rfl⟩, _, hvalid, rfl⟩ := h
      exact ⟨c, moved, hc, move_moves hmove, hsequence, rfl, hvalid⟩

theorem observe_eq_ok {candidate : Option String} (h : s.observe candidate = .ok s') :
    (candidate = s.candidateDigest ∧ s' = s) ∨
      candidate ≠ s.candidateDigest ∧ s.busy = false ∧ s.sequence + 1 < 2 ^ 64 ∧ Valid s' ∧
        s' = { s with sequence := s.sequence + 1, candidate := candidate.map (⟨·, .installed⟩) } := by
  unfold observe at h
  split_ifs at h with hsame
  · exact .inl ⟨hsame, (pure_eq_ok.mp h).symm⟩
  · simp only [bind_eq_ok, require_eq_ok, nextSequence_eq_ok, validate_eq_ok, pure_eq_ok] at h
    obtain ⟨_, hidle, _, ⟨hsequence, rfl⟩, _, hvalid, rfl⟩ := h
    exact .inr ⟨hsame, by simpa using hidle, hsequence, hvalid, rfl⟩

end Inversion

end State

def sampleDigest (digit : Char) : String := String.ofList (List.replicate 64 digit)

end OcppBridge.Activation
