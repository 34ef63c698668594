import OcppBridge.Activation.Pruning
import OcppBridge.Transition

namespace OcppBridge.Activation

open Durable Transaction
open OcppBridge.Transition (run_invariant)

section History

/-- What happens to a journal: installations are observed and transitions asked for. -/
inductive Event
  | observe (candidate : Option String)
  | advance (transition : Transition)
  deriving DecidableEq, Repr

/-- The journal, and the digest of the release that the last promotion put aside. -/
structure Watched where
  state : State
  replaced : Option String
  deriving DecidableEq, Repr

namespace Watched

def step (w : Watched) : Event → Watched
  | .observe candidate =>
      match w.state.observe candidate with
      | .ok state => { w with state }
      | .error _ => w
  | .advance transition =>
      match w.state.advance transition with
      | .ok state => ⟨state, if transition = .beginPromotion then w.state.productionDigest else w.replaced⟩
      | .error _ => w

def run (state : State) (events : List Event) : Watched := events.foldl step ⟨state, none⟩

/-- The journal is valid and keeps what the last promotion put aside; from then on only production itself is an
activated candidate. -/
structure Sound (w : Watched) : Prop where
  valid : w.state.Valid
  kept : ∀ digest ∈ w.replaced, w.state.previousGood = some digest
  paired : ∀ digest ∈ w.replaced, ∀ c ∈ w.state.candidate, c.phase.activated → w.state.production = some c

theorem Sound.step {w : Watched} (h : w.Sound) (event : Event) : (w.step event).Sound := by
  cases event with
  | observe candidate =>
      simp only [Watched.step]
      split
      · next state hobserve =>
          rcases State.observe_eq_ok hobserve with ⟨_, rfl⟩ | ⟨_, _, _, hvalid, rfl⟩
          · exact h
          · refine ⟨hvalid, h.kept, fun _ _ c hc hactivated => ?_⟩
            obtain ⟨digest, _, rfl⟩ := Option.map_eq_some_iff.mp hc
            cases hactivated
      · exact h
  | advance transition =>
      simp only [Watched.step]
      split
      · next state hadvance =>
          obtain ⟨c, moved, hc, hmoves, _, rfl, hvalid⟩ := State.advance_eq_ok hadvance
          refine ⟨hvalid, fun digest hdigest => ?_, fun digest hdigest c' hc' hactivated => ?_⟩
          · cases hmoves with
            | firstPromotion _ hproduction => simp [State.productionDigest, hproduction] at hdigest
            | beginPromotion _ hproduction _ _ => simpa [State.productionDigest, hproduction] using hdigest
            | beginStaging | qualify | failStaging | beginProbation | markHealthy | beginRollback | finishRollback =>
                exact h.kept digest hdigest
          · cases hmoves with
            | firstPromotion | beginPromotion | beginProbation | markHealthy => exact hc'
            | beginStaging | qualify | failStaging | beginRollback =>
                cases hc'
                cases hactivated
            | finishRollback hproduction =>
                have hpaired := h.paired digest hdigest c' hc' hactivated
                rw [hproduction] at hpaired
                cases hpaired
                cases hactivated
      · exact h

theorem Sound.run {state : State} (hvalid : state.Valid) (events : List Event) : (Watched.run state events).Sound :=
  run_invariant (P := Sound) (fun _ event h => h.step event) events ⟨hvalid, by simp, by simp⟩

end Watched

end History

section Rollback

variable {artifacts : Artifacts} {files : Files} {s : State} {p : Release} {digest : String}

/-- `ActivationJournal::transition` of an owner that needs no recovery, up to its commit. -/
def transition (artifacts : Artifacts) (files : Files) (state : State) (transition : Transition) :
    Except InstallError State := do
  let _ ← artifacts.openStore files
  prepareTransition artifacts files state transition

def State.rolledBack (s : State) (quarantined previousGood : String) : State where
  sequence := s.sequence + 1
  production := some ⟨previousGood, .rollingBack⟩
  previousGood := some previousGood
  candidate := some ⟨quarantined, .quarantined⟩

open State

theorem State.Valid.rolledBack (h : s.Valid) (hproduction : s.production = some p)
    (hgood : s.previousGood = some digest) : (s.rolledBack p.digest digest).Valid := by
  refine ⟨fun d hd => h.digests d ?_, ?_, ?_, ?_, ?_⟩
  · simp only [State.digests, State.productionDigest, State.candidateDigest, State.rolledBack, Option.map_some,
      Option.toList_some, List.cons_append, List.nil_append, List.mem_cons, List.not_mem_nil, or_false] at hd
    simp only [State.digests, State.productionDigest, hproduction, hgood, Option.map_some, Option.toList_some,
      List.cons_append, List.nil_append, List.mem_cons]
    tauto
  · simp [State.rolledBack, State.productionPhases]
  · simp [State.rolledBack]
  · simp [State.rolledBack]
  · simp [State.rolledBack]

theorem State.advance_beginRollback (h : s.Valid) (hproduction : s.production = some p) (hphase : p.phase.activated)
    (hcandidate : s.candidate = some p) (hgood : s.previousGood = some digest) (hsequence : s.sequence + 1 < 2 ^ 64) :
    s.advance .beginRollback = .ok (s.rolledBack p.digest digest) := by
  simp only [advance, hcandidate, move, hphase, hgood, bind_eq_ok, require_eq_ok, pure_eq_ok,
    nextSequence_eq_ok, validate_eq_ok]
  exact ⟨_, ⟨(), trivial, rfl⟩, _, ⟨hsequence, rfl⟩, (), h.rolledBack hproduction hgood, rfl⟩

/-- Once the store and the journal agree, rollback asks for the production release in the candidate slot and behind the
candidate pointer, and for nothing else. -/
theorem run_beginRollback (state : State) (hstate : state.validate = .ok ()) (events : List Event) (p : Release)
    (hproduction : (Watched.run state events).state.production = some p) (hphase : p.phase.activated)
    (digest : String) (hover : (Watched.run state events).replaced = some digest)
    (hsequence : (Watched.run state events).state.sequence + 1 < 2 ^ 64)
    (artifacts : Artifacts) (files : Files) (retained : List String) (hopen : artifacts.openStore files = .ok retained)
    (hverify : verify artifacts files (Watched.run state events).state = .ok ()) :
    let s := (Watched.run state events).state
    (p.phase ≠ .healthy → s.candidate = some p) ∧
    (s.candidate = some p ∧ files .candidate = pointerFile (some p.digest) →
      transition artifacts files s .beginRollback = .ok (s.rolledBack p.digest digest)) ∧
    (¬(s.candidate = some p ∧ files .candidate = pointerFile (some p.digest)) →
      ∃ error, transition artifacts files s .beginRollback = .error error) := by
  intro s
  have hsound := Watched.Sound.run (validate_eq_ok.mp hstate) events
  have hgood := hsound.kept digest hover
  obtain ⟨_, _, hverified⟩ := verify_eq_ok.mp hverify
  refine ⟨fun hne => ?_, fun ⟨hcandidate, hpointer⟩ => ?_, fun hnot => ?_⟩
  · refine hsound.valid.activation p hproduction ?_
    cases hp : p.phase with
    | promoting => exact .inl rfl
    | probation => exact .inr rfl
    | healthy => exact absurd hp hne
    | installed | staging | qualified | quarantined | rollingBack | previousGood => simp [hp, Phase.activated] at hphase
  · have hadvance := advance_beginRollback hsound.valid hproduction hphase hcandidate hgood hsequence
    have hvalid := hsound.valid.rolledBack hproduction hgood
    have hdigest : s.candidateDigest = some p.digest := by rw [candidateDigest, hcandidate, Option.map_some]
    refine bind_eq_ok.mpr ⟨retained, hopen, ?_⟩
    simp only [prepareTransition, admission, bind_eq_ok, require_eq_ok, pointer_eq_ok, validate_eq_ok,
      forM_verifyInstalled_eq_ok, pure_eq_ok]
    refine ⟨(), hverify, s.candidateDigest, ⟨hdigest ▸ hpointer, fun d hd => hsound.valid.digests d ?_⟩, (), rfl, _,
      hadvance, (), hvalid, (), fun d hd => hverified d ?_, rfl⟩
    · exact mem_digests_candidate hd
    · simp only [digests, productionDigest, candidateDigest, rolledBack, Option.map_some,
        Option.toList_some, List.cons_append, List.nil_append, List.mem_cons, List.not_mem_nil, or_false] at hd
      simp only [productionDigest, hproduction, hgood, Option.map_some, Option.toList_some, List.cons_append,
        List.nil_append, List.mem_cons, List.not_mem_nil, or_false]
      tauto
  · cases htransition : transition artifacts files s .beginRollback with
    | error error => exact ⟨error, rfl⟩
    | ok after =>
        simp only [transition, prepareTransition, bind_eq_ok, require_eq_ok, pointer_eq_ok] at htransition
        obtain ⟨_, _, _, _, _, ⟨hpointer, _⟩, _, rfl, next, hadvance, _⟩ := htransition
        obtain ⟨c, moved, hc, hmoves, _⟩ := advance_eq_ok hadvance
        cases hmoves with
        | beginRollback hactivated =>
            have hpaired := hsound.paired digest hover c hc hactivated
            rw [hproduction] at hpaired
            cases hpaired
            refine absurd ⟨hc, ?_⟩ hnot
            rw [hpointer, candidateDigest, hc, Option.map_some]

section Sample

def promotion (digest : String) : List Event :=
  [.observe (some digest), .advance .beginStaging, .advance .qualify, .advance .beginPromotion,
    .advance .beginProbation, .advance .markHealthy]

def twoPromotions : List Event := promotion (sampleDigest 'a') ++ promotion (sampleDigest 'b')

def threeArtifacts : Artifacts := ⟨[sampleDigest 'a', sampleDigest 'b', sampleDigest 'c'], fun _ => none⟩

/-- The files of a journal at rest, with a candidate pointer. -/
def restingFiles (s : State) (candidate : String) : Files
  | .slot .state => stateFile s
  | .slot .active => pointerFile s.productionDigest
  | .slot .previousGood => pointerFile s.previousGood
  | .candidate => pointerFile (some candidate)
  | _ => none

/-- A third candidate keeps the healthy release from being rolled back: observed, it sits in the slot, and before that
its pointer is newer than the slot. -/
theorem observed_beginRollback :
    let healthy := Watched.run {} twoPromotions
    let observed := Watched.run {} (twoPromotions ++ [.observe (some (sampleDigest 'c'))])
    observed.state.production = some ⟨sampleDigest 'b', .healthy⟩ ∧ observed.replaced = some (sampleDigest 'a') ∧
    transition threeArtifacts (restingFiles observed.state (sampleDigest 'c')) observed.state .beginRollback =
      .error invalid ∧
    transition threeArtifacts (restingFiles healthy.state (sampleDigest 'c')) healthy.state .beginRollback =
      .error (.rejected "candidate observation expired") := by
  decide +kernel

theorem healthy_beginRollback :
    let s := (Watched.run {} twoPromotions).state
    transition threeArtifacts (restingFiles s (sampleDigest 'b')) s .beginRollback =
      .ok (s.rolledBack (sampleDigest 'b') (sampleDigest 'a')) :=
  (run_beginRollback {} rfl twoPromotions ⟨sampleDigest 'b', .healthy⟩ (by decide +kernel) rfl (sampleDigest 'a')
    (by decide +kernel) (by decide +kernel) threeArtifacts _ [sampleDigest 'b', sampleDigest 'a', sampleDigest 'b']
    (by decide +kernel) (by decide +kernel)).2.1 ⟨by decide +kernel, rfl⟩

end Sample

end Rollback

end OcppBridge.Activation
