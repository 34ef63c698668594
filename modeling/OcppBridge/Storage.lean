import Mathlib.Algebra.Group.Nat.Defs
import OcppBridge.Transaction

namespace OcppBridge.Storage

inductive StorageErrorCode
  | invalidRequest
  | conflict
  | cursorExpired
  | capacityExhausted
  | busy
  | unavailable
  | integrityFailure
  deriving DecidableEq, Repr

structure StorageError where
  code : StorageErrorCode
  detail : String
  deriving DecidableEq, Repr

def requestFailed (code : StorageErrorCode) : StorageError := ⟨code, "operational SQLite request failed"⟩

def unavailable : StorageError := requestFailed .unavailable

def constraintViolation : StorageError := requestFailed .conflict

def saturatingAdd (a b : Nat) : Nat := min (a + b) (2 ^ 64 - 1)

end OcppBridge.Storage
