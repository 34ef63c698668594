import Mathlib.Logic.Relation
import OcppBridge.Activation.Recovery

namespace OcppBridge.Activation

open Durable Transaction Artifacts

section Store

namespace Artifacts

def checkStoreConsistency (files : Files) : Except InstallError Unit := do
  match ← readState files with
  | some state => verifyPointers files state
  | none => pure ()

/-- `ArtifactStore::open`, up to the pruning: what must be kept. -/
def openStore (artifacts : Artifacts) (files : Files) : Except InstallError (List String) := do
  artifacts.openForRecovery files
  require (files (.slot .intent) = none ∧ files (.next .intent) = none)
    (.rejected "activation recovery required before artifact access")
  checkStoreConsistency files
  artifacts.references files

def installationBlocked (files : Files) : Except InstallError Bool := do
  let state ← readState files
  pure (state.any (·.busy))

/-- The checks of `ArtifactStore::install`, given the digest of an authenticated manifest. -/
def beginInstall (artifacts : Artifacts) (files : Files) (digest : String) : Except InstallError Unit := do
  let blocked ← installationBlocked files
  require (blocked = false) (.rejected "activation or probation owns the candidate slot")
  require (digestName digest) (.rejected "invalid bundle manifest")
  let _ ← artifacts.references files
  require (digest ∉ artifacts.installed) (.rejected "artifact already exists; immutable overwrite refused")

def publish (digest : String) : Update FileName Content := .write .candidate .candidateNext (.pointer digest)

end Artifacts

inductive Session
  | closed
  | pruning (retained : List String)
  | opened
  | receiving (digest : String)
  | placed (digest : String)

structure Host where
  d : Store
  artifacts : Artifacts
  session : Session

def Host.Prunes (h : Host) (digest : String) : Prop :=
  ∃ retained, h.session = .pruning retained ∧ digest ∈ h.artifacts.installed ∧ digestName digest ∧ digest ∉ retained

inductive Host.Doing (h : Host) : List (Update FileName Content) → Prop
  | nothing : Doing h []
  | commit {before after : State} (hsession : h.session = .opened)
      (hprepared : Prepared h.artifacts h.d.read before after) : Doing h (commit before after)
  | recovery {updates updates' : List (Update FileName Content)} {d : Store} (hsession : h.session = .closed)
      (hrecover : recover h.artifacts h.d.read = .ok updates) (hd : h.d.updates updates = some d)
      (hbootstrap : bootstrap h.artifacts d.read = .ok updates') : Doing h (updates ++ updates')
  | publish {digest : String} (hsession : h.session = .placed digest) : Doing h [publish digest]

/-- The store is opened, pruned and installed to, and the journal moves, each holding the lock. -/
inductive Host.Step : Host → Host → Prop
  | enter {h : Host} {retained : List String} (hsession : h.session = .closed)
      (hopen : h.artifacts.openStore h.d.read = .ok retained) : Step h { h with session := .pruning retained }
  | prune {h : Host} {digest : String} (hprunes : h.Prunes digest) :
      Step h { h with artifacts := { h.artifacts with installed := h.artifacts.installed.filter (· ≠ digest) } }
  | pruned {h : Host} {retained : List String} (hsession : h.session = .pruning retained) :
      Step h { h with session := .opened }
  | receive {h : Host} {digest : String} {d : Store} (hsession : h.session = .opened)
      (hbegin : h.artifacts.beginInstall h.d.read digest = .ok ())
      (hd : h.d.execs [.create .incoming, .sync] = some d) : Step h { h with d, session := .receiving digest }
  | abandon {h : Host} {digest : String} {d : Store} (hsession : h.session = .receiving digest)
      (hd : h.d.update (.remove .incoming) = some d) : Step h { h with d, session := .opened }
  | place {h : Host} {digest : String} {d : Store} (hsession : h.session = .receiving digest)
      (hd : h.d.update (.remove .incoming) = some d) :
      Step h {
        d, artifacts := { h.artifacts with installed := h.artifacts.installed ++ [digest] }, session := .placed digest }
  | publish {h : Host} {digest : String} {d : Store} {retained : List String} (hsession : h.session = .placed digest)
      (hd : h.d.update (publish digest) = some d) (hretained : h.artifacts.references d.read = .ok retained) :
      Step h { h with d, session := .pruning retained }
  | commit {h : Host} {before after : State} {d : Store} (hsession : h.session = .opened)
      (hprepared : Prepared h.artifacts h.d.read before after) (hd : h.d.updates (commit before after) = some d) :
      Step h { h with d }
  | journal {h : Host} {state : State} {d : Store} (hsession : h.session = .closed)
      (hopen : openJournal h.artifacts h.d = .ok (state, d)) : Step h { h with d }
  | close (h : Host) : Step h { h with session := .closed }
  | crash {h : Host} {updates : List (Update FileName Content)} {mid d : Store} (hdoing : h.Doing updates)
      (hreaches : h.d.Reaches updates mid) (hcrash : mid.Crash d) : Step h { h with d, session := .closed }

end Store

section Protection

variable {artifacts : Artifacts} {files : Files} {before after state : State} {h h' : Host}

/-- No commit is on its way, and the pointers agree with the journal, if there is one. -/
structure Consistent (files : Files) : Prop where
  intent : files (.slot .intent) = none
  pointers : ∀ state, readState files = .ok (some state) → Shows state files

theorem mem_references {retained : List String} (h : artifacts.references files = .ok retained) {name : FileName}
    (hname : name ∈ pointerNames) {digest : String} (hfile : files name = some (.whole (.pointer digest))) :
    digest ∈ retained := by
  simp only [references, bind_eq_ok, pure_eq_ok] at h
  obtain ⟨digests, hdigests, rfl⟩ := h
  generalize pointerNames = names at hname hdigests
  induction names generalizing digests with
  | nil => cases hname
  | cons other names ih =>
      simp only [List.mapM_cons, bind_eq_ok, pure_eq_ok] at hdigests
      obtain ⟨found, hfound, rest, hrest, rfl⟩ := hdigests
      rw [List.flatten_cons, List.mem_append]
      rcases List.mem_cons.mp hname with rfl | hname
      · simp only [reference, hfile, bind_eq_ok, require_eq_ok, pure_eq_ok] at hfound
        obtain ⟨_, _, _, _, rfl⟩ := hfound
        exact .inl (List.mem_singleton_self digest)
      · exact .inr (ih rest hname hrest)

theorem openStore_eq_ok {retained : List String} (h : artifacts.openStore files = .ok retained) :
    artifacts.references files = .ok retained ∧ Consistent files := by
  simp only [openStore, bind_eq_ok, require_eq_ok] at h
  obtain ⟨_, _, _, ⟨hintent, _⟩, _, hcheck, hretained⟩ := h
  refine ⟨hretained, hintent, fun state hread => ?_⟩
  simp only [checkStoreConsistency, bind_eq_ok] at hcheck
  obtain ⟨stored, hstored, hcheck⟩ := hcheck
  cases hread.symm.trans hstored
  simp only [verifyPointers, bind_eq_ok, require_eq_ok, pointer_eq_ok] at hcheck
  obtain ⟨_, ⟨hactive, _⟩, _, ⟨hgood, _⟩, rfl, rfl⟩ := hcheck
  exact ⟨(readState_eq_ok.mp hread).1, hactive, hgood⟩

theorem commit_consistent (h : Shows before files) : Consistent ((commit before after).foldl Update.apply files) := by
  have hmixed : Mixed before after ((atomic .intent (.intent before after)).apply files) := h.mixed
  have hshown := hmixed.foldl_apply
  rw [commit, List.foldl_cons, finish, List.foldl_append]
  refine ⟨by simp [Update.apply], fun state hread => ?_⟩
  obtain ⟨hfile, _⟩ := readState_eq_ok.mp hread
  have hstate : stateFile state = stateFile after := hfile.symm.trans hshown.state
  cases hstate
  exact ⟨hshown.state, hshown.active, hshown.previousGood⟩

theorem Consistent.of_eq {files' : Files} (h : Consistent files)
    (heq : ∀ slot, files' (.slot slot) = files (.slot slot)) : Consistent files' := by
  refine ⟨(heq _).trans h.intent, fun state hread => ?_⟩
  obtain ⟨hfile, hvalid⟩ := readState_eq_ok.mp hread
  have hshown := h.pointers state (readState_eq_ok.mpr ⟨(heq _).symm.trans hfile, hvalid⟩)
  exact ⟨hfile, (heq _).trans hshown.active, (heq _).trans hshown.previousGood⟩

/-- Whoever holds the lock finds the journal at rest, and what is kept while pruning is what the pointers name. -/
structure Guarded (h : Host) : Prop where
  settled : h.d.Settled
  consistent : h.session ≠ .closed → Consistent h.d.read
  retained : ∀ retained, h.session = .pruning retained → ∀ name ∈ pointerNames, ∀ digest,
    h.d.read name = some (.whole (.pointer digest)) → digest ∈ retained

theorem sane_commit {u : Update FileName Content} (hu : u ∈ commit before after) : u.Sane := by
  have hproper : Proper u := by
    rcases List.mem_cons.mp hu with rfl | hu
    · exact .inl ⟨_, _, rfl⟩
    · exact proper_finish hu
  rcases hproper with ⟨slot, content, rfl⟩ | ⟨slot, rfl⟩
  · exact fun h => by cases h
  · trivial

namespace Guarded

theorem retained_none (hretained : ∀ retained, h.session ≠ .pruning retained) :
    ∀ retained, h.session = .pruning retained → ∀ name ∈ pointerNames, ∀ digest,
      h.d.read name = some (.whole (.pointer digest)) → digest ∈ retained :=
  fun retained hsession => absurd hsession (hretained retained)

theorem step (hguarded : Guarded h) (hstep : h.Step h') : Guarded h' := by
  cases hstep with
  | enter hsession hopen =>
      obtain ⟨hretained, hconsistent⟩ := openStore_eq_ok hopen
      refine ⟨hguarded.settled, fun _ => hconsistent, ?_⟩
      rintro _ ⟨⟩ name hname digest hfile
      exact mem_references hretained hname hfile
  | prune hprunes => exact ⟨hguarded.settled, hguarded.consistent, hguarded.retained⟩
  | pruned hsession =>
      exact ⟨hguarded.settled, fun _ => hguarded.consistent (by simp [hsession]), retained_none (by simp)⟩
  | receive hsession hbegin hd =>
      obtain ⟨hsettled, hread⟩ := hguarded.settled.of_create hd
      refine ⟨hsettled, fun _ => ?_, retained_none (by simp)⟩
      exact (hguarded.consistent (by simp [hsession])).of_eq fun slot => hread _ (by simp)
  | abandon hsession hd | place hsession hd =>
      have hsane : (Update.remove .incoming : Update FileName Content).Sane := trivial
      obtain ⟨hsettled, hread⟩ := hguarded.settled.of_update hsane hd
      refine ⟨hsettled, fun _ => ?_, retained_none (by simp)⟩
      refine (hguarded.consistent (by simp [hsession])).of_eq fun slot => ?_
      rw [hread]
      simp [Update.apply]
  | publish hsession hd hretained =>
      obtain ⟨hsettled, hread⟩ := hguarded.settled.of_update (by simp [publish, Update.Sane]) hd
      refine ⟨hsettled, fun _ => ?_, ?_⟩
      · refine (hguarded.consistent (by simp [hsession])).of_eq fun slot => ?_
        rw [hread]
        simp [publish, Update.apply]
      · rintro _ ⟨⟩ name hname digest hfile
        exact mem_references hretained hname hfile
  | commit hsession hprepared hd =>
      obtain ⟨_, hshown, _⟩ := hprepared.permit
      obtain ⟨hsettled, hread⟩ := hguarded.settled.of_updates (fun u hu => sane_commit hu) hd
      refine ⟨hsettled, fun _ => hread ▸ commit_consistent hshown, retained_none (by simp [hsession])⟩
  | journal hsession hopen =>
      have hrests := openJournal_rests hguarded.settled hopen
      exact ⟨hrests.settled, fun hne => absurd hsession hne, retained_none (by simp [hsession])⟩
  | close => exact ⟨hguarded.settled, fun hne => absurd rfl hne, retained_none (by simp)⟩
  | crash hdoing hreaches hcrash =>
      refine ⟨(hguarded.settled.is_owned.reaches hreaches).crash hcrash, fun hne => absurd rfl hne,
        retained_none (by simp)⟩

theorem run (hguarded : Guarded h) (hrun : Relation.ReflTransGen Host.Step h h') : Guarded h' := by
  induction hrun with
  | refl => exact hguarded
  | tail _ hstep ih => exact ih.step hstep

end Guarded

/-- Pruning never takes out what the journal's production and previous good releases and the candidate pointer name. -/
theorem reachable_prunes (start h : Host) (hsettled : start.d.Settled) (hclosed : start.session = .closed)
    (hrun : Relation.ReflTransGen Host.Step start h) (digest : String) (hprunes : h.Prunes digest) :
    (∀ state, readState h.d.read = .ok (some state) →
      digest ∉ state.productionDigest ∧ digest ∉ state.previousGood ∧
        (h.d.read .candidate = pointerFile state.candidateDigest → digest ∉ state.candidateDigest)) ∧
      ∀ d, h.d.Crash d → d.read (.slot .intent) = none := by
  have hstart : Guarded start := ⟨hsettled, fun hne => absurd hclosed hne, Guarded.retained_none (by simp [hclosed])⟩
  have hguarded := hstart.run hrun
  obtain ⟨retained, hsession, _, _, hmissing⟩ := hprunes
  have hconsistent := hguarded.consistent (by simp [hsession])
  have hkept : ∀ name ∈ pointerNames, ∀ named : Option String, h.d.read name = pointerFile named →
      digest ∉ named := by
    rintro name hname _ hfile rfl
    exact hmissing (hguarded.retained retained hsession name hname digest hfile)
  refine ⟨fun state hread => ?_, fun d hcrash => ?_⟩
  · have hshown := hconsistent.pointers state hread
    exact ⟨hkept _ (by simp [pointerNames]) _ hshown.active,
      hkept _ (by simp [pointerNames]) _ hshown.previousGood,
      hkept _ (by simp [pointerNames]) _⟩
  · rw [hguarded.settled.crash_eq hcrash]
    exact hconsistent.intent

section Sample

/-- A second bundle is installed while the journal still knows the first one as its candidate. -/
def installedStore (d : Store) : Host :=
  ⟨d, { sampleArtifacts with installed := [sampleDigest 'a', sampleDigest 'b'] }, .pruning [sampleDigest 'b']⟩

theorem installed_prunes_candidate : ∃ d, Relation.ReflTransGen Host.Step ⟨sampleStore, sampleArtifacts, .closed⟩
      (installedStore d) ∧ (installedStore d).Prunes (sampleDigest 'a') ∧
    readState d.read = .ok (some sampleBefore) ∧ sampleDigest 'a' ∈ sampleBefore.candidateDigest := by
  have hsteps : Relation.ReflTransGen Host.Step ⟨sampleStore, sampleArtifacts, .closed⟩ (installedStore _) :=
    .tail (.tail (.tail (.tail (.single (.enter rfl rfl)) (.pruned rfl)) (.receive rfl rfl rfl)) (.place rfl rfl))
      (.publish rfl rfl rfl)
  exact ⟨_, hsteps, ⟨_, rfl, by decide, by decide, by decide⟩, rfl, rfl⟩

/-- A bundle that no pointer names is taken out when the store is opened. -/
theorem unreferenced_prunes :
    (installedStore sampleStore).artifacts.openStore sampleStore.read = .ok [sampleDigest 'a'] ∧
      sampleDigest 'b' ∉ sampleBefore.candidateDigest := by
  have hrun : Relation.ReflTransGen Host.Step ⟨sampleStore, (installedStore sampleStore).artifacts, .closed⟩
      ⟨sampleStore, (installedStore sampleStore).artifacts, .pruning [sampleDigest 'a']⟩ := .single (.enter rfl rfl)
  have hprunes := reachable_prunes _ _ sampleStore_settled rfl hrun (sampleDigest 'b')
    ⟨_, rfl, by decide, by decide, by decide⟩
  exact ⟨rfl, (hprunes.1 sampleBefore rfl).2.2 rfl⟩

end Sample

end Protection

end OcppBridge.Activation
