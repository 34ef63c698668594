import OcppBridge.Activation.Journal
import OcppBridge.Durable

namespace OcppBridge.Activation

open Durable Transaction

section Files

inductive Slot
  | state
  | intent
  | active
  | previousGood
  deriving DecidableEq, Repr

/-- The names in the store's directory. `next` is the scratch file of a slot, `candidateNext` that of the candidate. -/
inductive FileName
  | slot (slot : Slot)
  | next (slot : Slot)
  | candidate
  | candidateNext
  | incoming
  deriving DecidableEq, Repr

inductive Content
  | state (state : State)
  | intent (before after : State)
  | pointer (digest : String)
  | bundle
  deriving DecidableEq, Repr

abbrev Files := Directory FileName Content

abbrev Store := Disk FileName Content

def readState (files : Files) : Except InstallError (Option State) :=
  match files (.slot .state) with
  | none => pure none
  | some (.whole (.state state)) => do
      state.validate
      pure (some state)
  | some _ => .error .json

def pointer (files : Files) (name : FileName) : Except InstallError (Option String) :=
  match files name with
  | none => pure none
  | some (.whole (.pointer digest)) => do
      require (digestName digest) (.rejected "invalid release pointer")
      pure (some digest)
  | some _ => .error (.rejected "invalid release pointer")

end Files

section Artifacts

/-- The bundles below `artifacts`, and what is wrong with them under the current policy. -/
structure Artifacts where
  installed : List String
  fault : String → Option InstallError

namespace Artifacts

def verifyInstalled (artifacts : Artifacts) (digest : String) : Except InstallError Unit := do
  require (digestName digest) (.rejected "invalid artifact digest")
  require (digest ∈ artifacts.installed) .io
  (artifacts.fault digest).forM (.error ·)

def pointerNames : List FileName := [.slot .active, .slot .previousGood, .candidate]

def reference (artifacts : Artifacts) (files : Files) (name : FileName) : Except InstallError (List String) :=
  match files name with
  | none => pure []
  | some (.whole (.pointer digest)) => do
      require (digestName digest) (.rejected "invalid artifact pointer")
      require (digest ∈ artifacts.installed) .io
      pure [digest]
  | some _ => .error (.rejected "invalid artifact pointer")

def references (artifacts : Artifacts) (files : Files) : Except InstallError (List String) := do
  let digests ← pointerNames.mapM (artifacts.reference files)
  pure digests.flatten

def openForRecovery (artifacts : Artifacts) (files : Files) : Except InstallError Unit := do
  let _ ← artifacts.references files
  require (files .incoming = none ∧ files .candidateNext = none)
    (.rejected "incomplete installation; inspect private temporary state before retrying")

end Artifacts

end Artifacts

section Recovery

def verifyPointers (files : Files) (state : State) : Except InstallError Unit := do
  let active ← pointer files (.slot .active)
  let previousGood ← pointer files (.slot .previousGood)
  require (active = state.productionDigest ∧ previousGood = state.previousGood)
    (.rejected "release pointers disagree with journal")

def verify (artifacts : Artifacts) (files : Files) (state : State) : Except InstallError Unit := do
  state.validate
  let stored ← readState files
  require (stored = some state) (.rejected "release journal changed under owner")
  verifyPointers files state
  (state.productionDigest.toList ++ state.previousGood.toList).forM artifacts.verifyInstalled

def atomic (slot : Slot) (content : Content) : Update FileName Content := .write (.slot slot) (.next slot) content

def pointerChange (slot : Slot) (before after : Option String) : List (Update FileName Content) :=
  if before = after then []
  else
    match after with
    | some digest => [atomic slot (.pointer digest)]
    | none => [.remove (.slot slot)]

def apply (before after : State) : List (Update FileName Content) :=
  pointerChange .previousGood before.previousGood after.previousGood ++
    pointerChange .active before.productionDigest after.productionDigest ++ [atomic .state (.state after)]

def cleanTemporaries : List (Update FileName Content) :=
  [Slot.intent, .state, .active, .previousGood].map fun slot => .remove (.next slot)

def finish (before after : State) : List (Update FileName Content) := apply before after ++ [.remove (.slot .intent)]

def commit (before after : State) : List (Update FileName Content) :=
  atomic .intent (.intent before after) :: finish before after

def expectPointer (files : Files) (slot : Slot) (before after : Option String) : Except InstallError Unit := do
  let actual ← pointer files (.slot slot)
  require (actual = before ∨ actual = after) (.rejected "unexpected pointer during recovery")

def recover (artifacts : Artifacts) (files : Files) : Except InstallError (List (Update FileName Content)) :=
  match files (.slot .intent) with
  | none => pure cleanTemporaries
  | some (.whole (.intent before after)) => do
      before.validate
      after.validate
      require (after.follows before) (.rejected "invalid activation intent sequence")
      let current ← readState files
      require current.isSome (.rejected "intent without journal")
      require (current = some before ∨ current = some after) (.rejected "activation intent disagrees with journal")
      let candidate ← pointer files .candidate
      require (candidate = after.candidateDigest) (.rejected "activation candidate changed during recovery")
      after.digests.forM artifacts.verifyInstalled
      expectPointer files .previousGood before.previousGood after.previousGood
      expectPointer files .active before.productionDigest after.productionDigest
      pure (cleanTemporaries ++ finish before after)
  | some _ => .error .json

def bootstrap (artifacts : Artifacts) (files : Files) : Except InstallError (List (Update FileName Content)) := do
  match ← readState files with
  | some _ => pure []
  | none =>
      let active ← pointer files (.slot .active)
      let previousGood ← pointer files (.slot .previousGood)
      let candidate ← pointer files .candidate
      let state := State.initial active previousGood candidate
      state.validate
      state.digests.forM artifacts.verifyInstalled
      pure [atomic .state (.state state)]

def carryOut (d : Store) (updates : List (Update FileName Content)) : Except InstallError Store :=
  match d.updates updates with
  | some d => .ok d
  | none => .error .io

/-- `ActivationJournal::open`: the state that is exposed, and the store. -/
def openJournal (artifacts : Artifacts) (d : Store) : Except InstallError (State × Store) := do
  artifacts.openForRecovery d.read
  let updates ← recover artifacts d.read
  let d ← carryOut d updates
  let updates ← bootstrap artifacts d.read
  let d ← carryOut d updates
  let stored ← readState d.read
  let state := stored.getD {}
  verify artifacts d.read state
  pure (state, d)

end Recovery

section Preparation

def admission (artifacts : Artifacts) (next : State) : Except InstallError State := do
  next.validate
  next.digests.forM artifacts.verifyInstalled
  pure next

def prepareTransition (artifacts : Artifacts) (files : Files) (state : State) (transition : Transition) :
    Except InstallError State := do
  verify artifacts files state
  let candidate ← pointer files .candidate
  require (candidate = state.candidateDigest) (.rejected "candidate observation expired")
  let next ← state.advance transition
  admission artifacts next

def prepareObservation (artifacts : Artifacts) (files : Files) (state : State) :
    Except InstallError (Option State) := do
  verify artifacts files state
  let candidate ← pointer files .candidate
  if candidate = state.candidateDigest then pure none
  else do
    let next ← state.observe candidate
    some <$> admission artifacts next

/-- The journal is asked to go over to the next state and finds nothing wrong with it. -/
inductive Prepared (artifacts : Artifacts) (files : Files) (before : State) : State → Prop
  | transition {transition : Transition} {after : State}
      (h : prepareTransition artifacts files before transition = .ok after) : Prepared artifacts files before after
  | observation {after : State} (h : prepareObservation artifacts files before = .ok (some after)) :
      Prepared artifacts files before after

end Preparation

end OcppBridge.Activation
