import Mathlib.Data.List.Sort
import Mathlib.Data.Prod.Lex
import Mathlib.Data.String.Basic
import OcppBridge.CommandHistory.Query
import OcppBridge.Delimited
import OcppBridge.Operational.Requests
import OcppBridge.Paging

namespace OcppBridge.CommandHistory

open Operational Storage Transaction Paging

variable {P : Type}

structure PageLimit where
  value : Nat
  positive : 0 < value
  bounded : value ≤ 100
  deriving DecidableEq

inductive TargetPortErrorCode
  | unauthorized
  | unsupported
  | expired
  | busy
  | unavailable
  | invalidRequest
  | cursorExpired
  deriving DecidableEq, Repr

structure TargetPortError where
  code : TargetPortErrorCode
  context : String
  deriving DecidableEq, Repr

def storageError (error : StorageError) : TargetPortError :=
  let code : TargetPortErrorCode :=
    match error.code with
    | .invalidRequest => .invalidRequest
    | .cursorExpired => .cursorExpired
    | .busy | .capacityExhausted => .busy
    | .conflict | .unavailable | .integrityFailure => .unavailable
  ⟨code, "query.storage_unavailable"⟩

def operationNotGranted : TargetPortError := ⟨.unsupported, "query.operation_not_granted"⟩

def outsideScope : TargetPortError := ⟨.unauthorized, "query.result_outside_scope"⟩

end OcppBridge.CommandHistory
