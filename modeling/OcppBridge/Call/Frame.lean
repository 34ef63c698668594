import OcppBridge.Operational.Evidence
import OcppBridge.Text

namespace OcppBridge.Call

open Operational (ProtocolEdition)
open Text (isBlank)

/-- A parsed JSON value. Numbers that are not natural keep their text. -/
inductive Json
  | null
  | bool (value : Bool)
  | natural (value : Nat)
  | number (text : String)
  | string (value : String)
  | array (items : List Json)
  | object (fields : List (String × Json))
  deriving Repr

namespace Json

def asU64 : Json → Option Nat
  | .natural n => if n < 2 ^ 64 then some n else none
  | _ => none

def asStr : Json → Option String
  | .string value => some value
  | _ => none

def isObject : Json → Bool
  | .object _ => true
  | _ => false

def get? (key : String) : Json → Option Json
  | .object fields => (fields.find? (·.1 = key)).map (·.2)
  | _ => none

end Json

/-- The native report actions that the socket owner routes itself. -/
inductive ReportKind
  | device
  | chargingProfiles
  deriving DecidableEq, Repr

def ReportKind.fromAction : String → Option ReportKind
  | "NotifyReport" => some .device
  | "ReportChargingProfiles" => some .chargingProfiles
  | _ => none

inductive OcppErrorCode
  | formationViolation
  | internalError
  | notImplemented
  | occurrenceConstraintViolation
  | propertyConstraintViolation
  | protocolError
  deriving DecidableEq, Repr

def OcppErrorCode.asStr : OcppErrorCode → String
  | .formationViolation => "FormationViolation"
  | .internalError => "InternalError"
  | .notImplemented => "NotImplemented"
  | .occurrenceConstraintViolation => "OccurrenceConstraintViolation"
  | .propertyConstraintViolation => "PropertyConstraintViolation"
  | .protocolError => "ProtocolError"

structure OcppCallError where
  protocol : ProtocolEdition
  code : OcppErrorCode
  description : String
  fieldPath : Option String
  deriving DecidableEq, Repr

section Encode

def callFrame (messageId action : String) (payload : Json) : Json :=
  .array [.natural 2, .string messageId, .string action, payload]

def resultFrame (messageId : String) (payload : Json) : Json := .array [.natural 3, .string messageId, payload]

def errorFrame (messageId : String) (e : OcppCallError) : Json :=
  .array [.natural 4, .string messageId, .string e.code.asStr, .string e.description,
    .object (e.fieldPath.toList.map fun path => ("path", .string path))]

end Encode

inductive Frame
  | call (messageId : String) (value : Json) (bytes : Nat)
  | report (kind : ReportKind) (messageId : String) (payload : Json) (bytes : Nat)
  | result (messageId : String) (payload : Json)
  | error (messageId code : String) (details : Json)

structure FrameError where
  messageId : Option String
  fieldPath : String
  deriving DecidableEq, Repr

section Decode

def frameId (report : Bool) (id : Json) : Option String :=
  id.asStr.filter fun value => !isBlank value && (!report || value.utf8ByteSize ≤ 128)

def decodeCall (id action payload : Json) (bytes : Nat) : Except FrameError Frame :=
  let kind := action.asStr.bind ReportKind.fromAction
  match frameId kind.isSome id with
  | none => .error ⟨none, "/1"⟩
  | some messageId =>
      if action.asStr.all isBlank then .error ⟨some messageId, "/2"⟩
      else if !payload.isObject then .error ⟨some messageId, "/3"⟩
      else
        match kind with
        | some kind => .ok (.report kind messageId payload bytes)
        | none => .ok (.call messageId (.array [.natural 2, id, action, payload]) bytes)

def decodeResult (id payload : Json) : Except FrameError Frame :=
  match frameId false id with
  | none => .error ⟨none, "/1"⟩
  | some messageId =>
      if payload.isObject then .ok (.result messageId payload) else .error ⟨some messageId, "/2"⟩

def decodeError (id code description details : Json) : Except FrameError Frame :=
  match frameId false id with
  | none => .error ⟨none, "/1"⟩
  | some messageId =>
      match code.asStr.filter (!isBlank ·) with
      | none => .error ⟨some messageId, "/2"⟩
      | some code =>
          if description.asStr = none then .error ⟨some messageId, "/3"⟩
          else if !details.isObject then .error ⟨some messageId, "/4"⟩
          else .ok (.error messageId code details)

def decode (value : Option Json) (bytes : Nat) : Except FrameError Frame :=
  match value with
  | some (.array items) =>
      match items.head?.bind Json.asU64, items with
      | some 2, [_, id, action, payload] => decodeCall id action payload bytes
      | some 3, [_, id, payload] => decodeResult id payload
      | some 4, [_, id, code, description, details] => decodeError id code description details
      | kind, items =>
          let report := kind = some 2 && ((items[2]?.bind Json.asStr).bind ReportKind.fromAction).isSome
          .error ⟨items[1]?.bind (frameId report), "/0"⟩
  | _ => .error ⟨none, "/"⟩

end Decode

section Sanitizing

def safeRemoteCode (code : String) : String :=
  if code ∈ ["FormationViolation", "InternalError", "NotImplemented", "NotSupported", "OccurrenceConstraintViolation",
      "PropertyConstraintViolation", "ProtocolError", "SecurityError", "TypeConstraintViolation"]
  then code else "GenericError"

def isControl (c : Char) : Bool := c.toNat < 0x20 || (0x7F ≤ c.toNat && c.toNat < 0xA0)

def safeFieldPath (details : Json) : Option String :=
  ((details.get? "path").bind Json.asStr).filter fun path =>
    path.toList.head? = some '/' && path.utf8ByteSize ≤ 256 && !path.toList.any isControl

end Sanitizing

def protocolError (protocol : ProtocolEdition) (description : String) (fieldPath : Option String) : OcppCallError :=
  ⟨protocol, .protocolError, description, fieldPath⟩

end OcppBridge.Call
