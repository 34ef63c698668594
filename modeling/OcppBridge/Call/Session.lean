import OcppBridge.Call.Frame
import OcppBridge.Ordered
import OcppBridge.Resource.Admission

namespace OcppBridge.Call

open Operational (ProtocolEdition ReserveNowStatus)
open Resource (RuntimeResourceLimits AdmissionError AdmissionLimit Usage WorkClass reserveWithUsage
  validateOcppMessage usizeMax)
open Text (isBlank)
open Transaction

section Configuration

structure CallSessionConfiguration where
  pendingCallCapacity : Nat
  incomingCallCapacity : Nat
  diagnosticCapacity : Nat
  responseTimeout : Nat
  deriving DecidableEq, Repr

def CallSessionConfiguration.Valid (l : RuntimeResourceLimits) (c : CallSessionConfiguration) : Prop :=
  c.pendingCallCapacity ≠ 0 ∧ c.incomingCallCapacity ≠ 0 ∧ c.diagnosticCapacity ≠ 0 ∧ c.responseTimeout ≠ 0 ∧
    c.pendingCallCapacity ≤ l.queues.pendingRequests ∧ c.incomingCallCapacity ≤ l.queues.pendingRequests ∧
    c.diagnosticCapacity ≤ l.queues.diagnostics

instance (l : RuntimeResourceLimits) (c : CallSessionConfiguration) : Decidable (c.Valid l) :=
  inferInstanceAs (Decidable (_ ∧ _))

/-- What a session is started with and what it calls. -/
structure Setting where
  limits : RuntimeResourceLimits
  configuration : CallSessionConfiguration
  valid : configuration.Valid limits
  protocol : ProtocolEdition
  serialize : Json → String
  decodeTyped : Json → Except OcppCallError Unit
  nativeStatus201 : String → Json → Option ReserveNowStatus

end Configuration

abbrev Instant := Nat

structure OutboundCall where
  messageId : String
  action : String
  payload : Json
  correlationId : String

structure RemoteCallError where
  code : String
  fieldPath : Option String
  deriving DecidableEq, Repr

inductive TransmissionUncertainReason
  | writeFailed
  | disconnected
  | sessionStopped
  deriving DecidableEq, Repr

inductive SessionCallOutcome
  | result (payload : Json) (correlationId : String)
  | error (e : RemoteCallError) (correlationId : String)
  | timedOut (correlationId : String)
  | notTransmitted (reason : String) (correlationId : String)
  | transmissionUncertain (reason : TransmissionUncertainReason) (correlationId : String)

namespace SessionCallOutcome

def correlationId : SessionCallOutcome → String
  | .result _ id | .error _ id | .timedOut id | .notTransmitted _ id | .transmissionUncertain _ id => id

def isReply : SessionCallOutcome → Bool
  | .result _ _ | .error _ _ => true
  | _ => false

def claimsNotTransmitted : SessionCallOutcome → Bool
  | .notTransmitted _ _ => true
  | _ => false

end SessionCallOutcome

inductive SessionSubmitError
  | invalidRequest
  | resource (e : AdmissionError)
  | full
  | closed
  deriving DecidableEq, Repr

/-- Calls whose frame is built from protected material at the moment of sending. -/
inductive DeferredKind
  | configuration
  | configuration201
  | localAuthorization16
  | localAuthorization201
  | reservation16
  | reservation201
  deriving DecidableEq, Repr

def DeferredKind.unavailable : DeferredKind → String
  | .configuration | .configuration201 => "protected configuration reference unavailable before socket send"
  | .localAuthorization16 => "protected local authorization reference unavailable before socket send"
  | .localAuthorization201 => "protected local authorization authority unavailable before socket send"
  | .reservation16 | .reservation201 => "protected reservation authority unavailable before socket send"

/-- A deferred call with what its size checks answer when it is enqueued. -/
structure Deferred where
  kind : DeferredKind
  wireSize : Option Nat
  metadataSize : Option Nat
  deriving DecidableEq, Repr

inductive QueuedWire
  | ready (encoded : String)
  | deferred (kind : DeferredKind)
  deriving DecidableEq, Repr

/-- An admitted call. Calls are numbered in the order of their admission; nothing is decided by the number. -/
structure QueuedOutbound where
  number : Nat
  request : OutboundCall
  wire : QueuedWire
  sendBefore : Option Instant
  guarded : Bool

inductive ReservationAction
  | reserveNow
  | cancelReservation
  deriving DecidableEq, Repr

def ReservationAction.ofAction : String → Option ReservationAction
  | "ReserveNow" => some .reserveNow
  | "CancelReservation" => some .cancelReservation
  | _ => none

def ReservationAction.name : ReservationAction → String
  | .reserveNow => "ReserveNow"
  | .cancelReservation => "CancelReservation"

structure PendingEntry where
  number : Nat
  correlationId : String
  deadline : Instant
  guarded : Bool
  reservationAction : Option ReservationAction
  deriving DecidableEq, Repr

structure TimedOut where
  messageId : String
  correlationId : String
  action : Option ReservationAction
  deriving DecidableEq, Repr

inductive CallSessionDiagnostic
  | malformedFrame (messageId : Option String) (fieldPath : String)
  | duplicateIncomingCall (messageId : String)
  | unmatchedResponse (messageId : String)
  | lateResponse (messageId correlationId : String)
  | lateReservationResponse (messageId correlationId : String) (action : ReservationAction) (status : ReserveNowStatus)
  deriving DecidableEq, Repr

/-- The single-use capability to answer a delivered call, as long as it exists. -/
structure IncomingCallResponder where
  number : Nat
  messageId : String
  deriving DecidableEq, Repr

structure QueuedReply where
  number : Nat
  messageId : String
  encoded : String
  deriving DecidableEq, Repr

inductive Outgoing
  | call (number : Nat) (messageId encoded : String)
  | reply (number : Nat) (encoded : String)
  | direct (encoded : String)
  | close
  deriving DecidableEq, Repr

/-- The socket owner, its queues, and what it has given out. -/
structure Session where
  alive : Bool
  pending : List (String × PendingEntry)
  incomingIds : List String
  recentIncoming : List String
  timedOut : List TimedOut
  retiredOutbound : List String
  outbound : List QueuedOutbound
  incoming : List Nat
  incomingClosed : Bool
  responders : List IncomingCallResponder
  replies : List QueuedReply
  diagnostics : List CallSessionDiagnostic
  -- kept for what is said about runs
  enqueued : List OutboundCall
  outcomes : List (Nat × SessionCallOutcome)
  socket : List Outgoing
  delivered : List String
  queuedReplies : List Nat
  takenReplies : List Nat

namespace Session

def start : Session := ⟨true, [], [], [], [], [], [], [], false, [], [], [], [], [], [], [], [], []⟩

def complete (s : Session) (number : Nat) (outcome : SessionCallOutcome) : Session :=
  { s with outcomes := s.outcomes ++ [(number, outcome)] }

def hand (s : Session) (frame : Outgoing) : Session := { s with socket := s.socket ++ [frame] }

variable (g : Setting)

def emit (s : Session) (d : CallSessionDiagnostic) : Session :=
  if s.diagnostics.length < g.configuration.diagnosticCapacity then
    { s with diagnostics := s.diagnostics ++ [d] } else s

end Session

def retainRecent {α : Type} (capacity : Nat) (history : List α) (entry : α) : List α :=
  (if history.length = capacity then history.drop 1 else history) ++ [entry]

section Enqueue

variable (g : Setting)

def isGuarded (request : OutboundCall) : Bool :=
  g.protocol = .ocpp201 && request.action ∈ ["GetVariables", "GetBaseReport", "GetReport", "SetVariables",
    "SetNetworkProfile", "SendLocalList", "GetLocalListVersion", "ClearCache"]

def mustDefer (request : OutboundCall) : Bool :=
  match g.protocol with
  | .ocpp16j => request.action ∈ ["SendLocalList", "ReserveNow", "CancelReservation"]
  | .ocpp201 => request.action ∈ ["SetVariables", "SetNetworkProfile", "SendLocalList", "GetLocalListVersion",
      "ClearCache", "ReserveNow", "CancelReservation"]

def Deferred.bytes (d : Deferred) : Option Nat :=
  if d.kind = .configuration then some (d.wireSize.getD 0) else d.wireSize

def Deferred.metadata (d : Deferred) : Option Nat :=
  match d.kind with
  | .configuration | .configuration201 => some 0
  | _ => d.metadataSize

def prepareOutbound (request : OutboundCall) : Option Deferred → Except SessionSubmitError (QueuedWire × Nat)
  | some d =>
      match d.bytes with
      | some bytes => .ok (.deferred d.kind, bytes)
      | none => .error .invalidRequest
  | none =>
      if mustDefer g request then .error .invalidRequest
      else
        let encoded := g.serialize (callFrame request.messageId request.action request.payload)
        .ok (.ready encoded, encoded.utf8ByteSize)

def checkRequest (request : OutboundCall) : Except SessionSubmitError Unit :=
  require (!isBlank request.messageId ∧ request.payload.isObject ∧
    (isGuarded g request → request.messageId.utf8ByteSize ≤ 256)) .invalidRequest

def checkProfileBytes (request : OutboundCall) (bytes : Nat) : Except SessionSubmitError Unit :=
  require (request.action ∈ ["SetChargingProfile", "ClearChargingProfile"] → bytes ≤ 256 * 1024) .invalidRequest

def retainedBytes (deferred : Option Deferred) (bytes : Nat) : Except SessionSubmitError Nat :=
  match deferred.elim (some 0) Deferred.metadata with
  | some metadata => if bytes + metadata ≤ usizeMax then .ok (bytes + metadata) else .error .invalidRequest
  | none => .error .invalidRequest

def withResource {α : Type} (x : Except AdmissionError α) : Except SessionSubmitError α := x.mapError .resource

def enqueue (s : Session) (request : OutboundCall) (sendBefore : Option Instant) (deferred : Option Deferred)
    (usage : Usage) : Except SessionSubmitError Session := do
  checkRequest g request
  let (wire, bytes) ← prepareOutbound g request deferred
  checkProfileBytes request bytes
  withResource (validateOcppMessage g.limits bytes)
  let retained ← retainedBytes deferred bytes
  let _ ← withResource (reserveWithUsage g.limits usage .pendingRequest retained)
  require s.alive .closed
  require (s.outbound.length < g.configuration.pendingCallCapacity) .full
  pure { s with
    outbound := s.outbound ++ [⟨s.enqueued.length, request, wire, sendBefore, isGuarded g request⟩]
    enqueued := s.enqueued ++ [request] }

end Enqueue

/-- How a write to the socket ends. -/
inductive Written
  | sent
  | failed
  | aborted
  deriving DecidableEq, Repr

section Outbound

variable (g : Setting)

namespace Session

def uncertainAll (s : Session) (reason : TransmissionUncertainReason) : Session :=
  { s with
    pending := []
    outcomes := s.outcomes ++ s.pending.map fun (_, entry) =>
      (entry.number, .transmissionUncertain reason entry.correlationId) }

/-- The session task is gone. -/
def finish (s : Session) : Session :=
  let s := s.uncertainAll .sessionStopped
  { s with
    alive := false
    outbound := []
    outcomes := s.outcomes ++ s.outbound.map fun q =>
      (q.number, .transmissionUncertain .sessionStopped q.request.correlationId) }

def sendDirect (s : Session) (encoded : String) (written : Written) : Session :=
  let s := s.hand (.direct encoded)
  if written = .aborted then s.finish else s

end Session

def unavailableBeforeSend (s : Session) (queued : QueuedOutbound) (now : Instant) : Option String :=
  if queued.sendBefore.any (· ≤ now) then some "command expired before socket send"
  else if s.pending.length = g.configuration.pendingCallCapacity then some "pending call capacity exhausted"
  else if queued.request.messageId ∈ s.pending.map Prod.fst ∨
      queued.request.messageId ∈ s.timedOut.map TimedOut.messageId ∨
      queued.request.messageId ∈ s.retiredOutbound then some "duplicate or retired message ID"
  else none

/-- The frame of a queued call. -/
def QueuedWire.atSend (resolved : Option String) : QueuedWire → Except String String
  | .ready encoded => .ok encoded
  | .deferred kind =>
      match resolved with
      | some encoded => .ok encoded
      | none => .error kind.unavailable

def QueuedOutbound.entry (queued : QueuedOutbound) (now : Instant) : PendingEntry :=
  ⟨queued.number, queued.request.correlationId, now + g.configuration.responseTimeout, queued.guarded,
    ReservationAction.ofAction queued.request.action⟩

def finishNotTransmitted (s : Session) (queued : QueuedOutbound) (reason : String) : Session :=
  s.complete queued.number (.notTransmitted reason queued.request.correlationId)

def transmit (s : Session) (queued : QueuedOutbound) (encoded : String) (now : Instant) (written : Written) : Session :=
  let s := s.hand (.call queued.number queued.request.messageId encoded)
  match written with
  | .sent => { s with pending := Ordered.insert queued.request.messageId (queued.entry g now) s.pending }
  | .failed =>
      (s.complete queued.number (.transmissionUncertain .writeFailed queued.request.correlationId)).uncertainAll
        .disconnected
  | .aborted =>
      (s.complete queued.number (.transmissionUncertain .sessionStopped queued.request.correlationId)).finish

def sendOutbound (s : Session) (queued : QueuedOutbound) (now : Instant) (resolved : Option String)
    (written : Written) : Session :=
  match unavailableBeforeSend g s queued now with
  | some reason => finishNotTransmitted s queued reason
  | none =>
      match queued.wire.atSend resolved with
      | .error reason => finishNotTransmitted s queued reason
      | .ok encoded => transmit g s queued encoded now written

end Outbound

section Responses

variable (g : Setting)

def Session.entryFor (s : Session) (messageId : String) : Option PendingEntry :=
  (s.pending.find? (·.1 = messageId)).map (·.2)

def Session.forget (s : Session) (messageId : String) : Session :=
  { s with pending := s.pending.filter (·.1 ≠ messageId) }

def expireCall (s : Session) (messageId : String) : Session :=
  match s.entryFor messageId with
  | none => s
  | some entry =>
      let s := (s.forget messageId).complete entry.number (.timedOut entry.correlationId)
      { s with
        timedOut := retainRecent g.configuration.diagnosticCapacity s.timedOut
          ⟨messageId, entry.correlationId, entry.reservationAction⟩ }

def expireCalls (s : Session) (now : Instant) : Session :=
  ((s.pending.filter (·.2.deadline ≤ now)).map Prod.fst).foldl (expireCall g) s

def reservationStatus16 (action : ReservationAction) : SessionCallOutcome → Option ReserveNowStatus
  | .result (.object [("status", .string status)]) _ =>
      match status, action with
      | "Accepted", _ => some .accepted
      | "Rejected", _ => some .rejected
      | "Faulted", .reserveNow => some .faulted
      | "Occupied", .reserveNow => some .occupied
      | "Unavailable", .reserveNow => some .unavailable
      | _, _ => none
  | _ => none

def reservationStatus201 (action : ReservationAction) : SessionCallOutcome → Option ReserveNowStatus
  | .result payload _ => g.nativeStatus201 action.name payload
  | _ => none

def reservationStatus (action : ReservationAction) (outcome : SessionCallOutcome) : Option ReserveNowStatus :=
  match g.protocol with
  | .ocpp16j => reservationStatus16 action outcome
  | .ocpp201 => reservationStatus201 g action outcome

def keepReservation (s : Session) (messageId : String) (entry : PendingEntry)
    (outcome : SessionCallOutcome) : Session :=
  match entry.reservationAction with
  | some action =>
      if (reservationStatus g action outcome).isSome then s
      else
        { s with
          timedOut := retainRecent g.configuration.diagnosticCapacity s.timedOut
            ⟨messageId, outcome.correlationId, some action⟩ }
  | none => s

def retire (s : Session) (messageId : String) : Session :=
  { s with retiredOutbound := retainRecent g.configuration.diagnosticCapacity s.retiredOutbound messageId }

def answerPending (s : Session) (messageId : String) (entry : PendingEntry) (outcome : SessionCallOutcome) : Session :=
  let s := keepReservation g (s.forget messageId) messageId entry outcome
  retire g (s.complete entry.number outcome) messageId

def dropTimedOut (s : Session) (messageId : String) : Session :=
  { s with timedOut := s.timedOut.eraseP (·.messageId = messageId) }

/-- A late answer. One for a reservation counts only with a usable status; until then the ID stays open. -/
def answerLate (s : Session) (late : TimedOut) (outcome : SessionCallOutcome) : Session :=
  let s := retire g s late.messageId
  let diagnostic := .lateResponse late.messageId late.correlationId
  match late.action with
  | none => (dropTimedOut s late.messageId).emit g diagnostic
  | some action =>
      match reservationStatus g action outcome with
      | some status =>
          (dropTimedOut s late.messageId).emit g
            (.lateReservationResponse late.messageId late.correlationId action status)
      | none => s.emit g diagnostic

def finishResponse (s : Session) (messageId : String) (outcome : String → SessionCallOutcome) : Session :=
  match s.entryFor messageId with
  | some entry => answerPending g s messageId entry (outcome entry.correlationId)
  | none =>
      match s.timedOut.find? (·.messageId = messageId) with
      | some late => answerLate g s late (outcome late.correlationId)
      | none => s.emit g (.unmatchedResponse messageId)

end Responses

end OcppBridge.Call
