import Mathlib.Logic.Function.Basic
import OcppBridge.Activation.Journal

namespace OcppBridge.Supervision

open Transaction
open Activation (InstallError Phase Release State Transition digestName)

/-- `u64::checked_sub`. -/
def elapsed (now past : Nat) : Option Nat := if past ≤ now then some (now - past) else none

inductive Code
  | ok
  | forbidden
  | invalidRequest
  | artifactRejected
  | qualificationRequired
  | evidenceRejected
  | preflightRejected
  | activationBlocked
  | recoveryRequired
  | storageFailure
  deriving DecidableEq, Repr

section Ledger

structure Qualified where
  candidateDigest : String
  evidenceDigest : String
  deriving DecidableEq, Repr

inductive Decision
  | observe
  | degraded
  | stopStaging
  | recheckAfterStaging
  | rollbackRequired
  | recoveryRequired
  deriving DecidableEq, Repr

/-- What identifies the configuration and the database that production is started with. -/
structure Inputs where
  configurationDigest : String
  productionInputsDigest : String
  databaseDevice : Nat
  databaseInode : Nat
  deriving DecidableEq, Repr

inductive PromotionStep
  | stopping
  | starting
  | probation
  | recoveredPrevious
  | recoveryRequired
  deriving DecidableEq, Repr

structure PromotionRecord extends Inputs where
  candidate : String
  previous : String
  step : PromotionStep
  recoveryAttempted : Bool
  deriving DecidableEq, Repr

def PromotionRecord.validate (r : PromotionRecord) : Except InstallError Unit :=
  require (r.candidate ≠ r.previous ∧
      ∀ d ∈ [r.candidate, r.previous, r.configurationDigest, r.productionInputsDigest], digestName d)
    (.rejected "invalid production activation record")

def ifPresent {α : Type} (validate : α → Except InstallError Unit) : Option α → Except InstallError Unit
  | some record => validate record
  | none => pure ()

end Ledger

end OcppBridge.Supervision
