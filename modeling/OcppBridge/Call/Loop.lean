import OcppBridge.Call.Session

namespace OcppBridge.Call

open Operational (ProtocolEdition)
open Resource (AdmissionError Usage WorkClass reserveWithUsage validateOcppMessage saturatingAdd usizeMax)

section Incoming

variable (g : Setting)

def sendError (s : Session) (messageId : String) (e : OcppCallError) (written : Written) : Session :=
  s.sendDirect (g.serialize (errorFrame messageId e)) written

def sendCapacityError (s : Session) (messageId : String) (written : Written) : Session :=
  sendError g s messageId ⟨g.protocol, .internalError, "charger request queue unavailable", none⟩ written

def duplicateError : OcppCallError :=
  ⟨g.protocol, .occurrenceConstraintViolation, "duplicate OCPP CALL message ID", some "/1"⟩

def Session.knows (s : Session) (messageId : String) : Prop :=
  messageId ∈ s.incomingIds ∨ messageId ∈ s.recentIncoming

instance (s : Session) (messageId : String) : Decidable (s.knows messageId) := inferInstanceAs (Decidable (_ ∨ _))

def rememberIncoming (s : Session) (messageId : String) : Session :=
  { s with recentIncoming := retainRecent g.configuration.diagnosticCapacity s.recentIncoming messageId }

/-- A report fragment is answered at once; `routed` is what the report registry made of it. -/
def report (s : Session) (messageId : String) (routed : Option Bool) (written : Written) : Session :=
  if s.knows messageId then sendError g s messageId (duplicateError g) written
  else
    match (if g.protocol = .ocpp201 then routed else none) with
    | none =>
        sendError g s messageId ⟨g.protocol, .notImplemented, "native report handling is not enabled", none⟩ written
    | some true =>
        (rememberIncoming g s messageId).sendDirect (g.serialize (resultFrame messageId (.object []))) written
    | some false =>
        sendError g (rememberIncoming g s messageId) messageId
          (protocolError g.protocol "invalid native report fragment" none) written

def deliver (s : Session) (messageId : String) : Session :=
  let number := s.delivered.length
  rememberIncoming g
    { s with
      incoming := s.incoming ++ [number]
      responders := s.responders ++ [⟨number, messageId⟩]
      delivered := s.delivered ++ [messageId]
      incomingIds := s.incomingIds ++ [messageId] } messageId

def process (s : Session) (messageId : String) (value : Json) (bytes : Nat) (usage : Usage) (written : Written) :
    Session :=
  if s.knows messageId then
    sendError g (s.emit g (.duplicateIncomingCall messageId)) messageId (duplicateError g) written
  else
    match g.decodeTyped value with
    | .error e => sendError g s messageId e written
    | .ok () =>
        match reserveWithUsage g.limits usage .chargerRequest bytes with
        | .error _ => sendCapacityError g s messageId written
        | .ok _ =>
            if s.incomingClosed = false ∧ s.incoming.length < g.configuration.incomingCallCapacity then
              deliver g s messageId
            else sendCapacityError g s messageId written

/-- What the header probe reads off a frame before it is decoded. -/
structure Header where
  report : Bool
  responseId : Option String
  deriving DecidableEq, Repr

/-- A text message with what its parsers answer, and the shared budget at the two moments it is asked. -/
structure TextMessage where
  bytes : Nat
  header : Option Header
  value : Option Json
  routed : Option Bool
  decodeUsage : Usage
  deliveryUsage : Usage
  written : Written

def Session.isReporting (s : Session) (m : TextMessage) : Bool :=
  m.header.any fun header =>
    header.report || header.responseId.any fun id => (s.entryFor id).any (·.guarded)

def reserveDecode (s : Session) (m : TextMessage) : Except AdmissionError Usage := do
  validateOcppMessage g.limits m.bytes
  Transaction.require (s.isReporting m → m.bytes ≤ 256 * 1024) ⟨.ocppMessageBytes, 256 * 1024, m.bytes⟩
  reserveWithUsage g.limits m.decodeUsage (if s.isReporting m then .pendingRequest else .chargerRequest)
    (saturatingAdd (min (m.bytes * 8) usizeMax) 4096)

def rejectMalformedFrame (s : Session) (e : FrameError) (written : Written) : Session :=
  let s := s.emit g (.malformedFrame e.messageId e.fieldPath)
  match e.messageId with
  | none => s
  | some messageId =>
      sendError g s messageId (protocolError g.protocol "OCPP frame violates protocol shape" (some e.fieldPath)) written

def processFrame (s : Session) (m : TextMessage) : Session :=
  match reserveDecode g s m with
  | .error _ => s
  | .ok _ =>
      match decode m.value m.bytes with
      | .error e => rejectMalformedFrame g s e m.written
      | .ok (.call messageId value bytes) => process g s messageId value bytes m.deliveryUsage m.written
      | .ok (.report _ messageId _ _) => report g s messageId m.routed m.written
      | .ok (.result messageId payload) => finishResponse g s messageId (.result payload)
      | .ok (.error messageId code details) =>
          finishResponse g s messageId (.error ⟨safeRemoteCode code, safeFieldPath details⟩)

end Incoming

section Responder

variable (g : Setting)

def Session.removeResponder (s : Session) (number : Nat) : Session :=
  { s with responders := s.responders.filter (·.number ≠ number), incoming := s.incoming.filter (· ≠ number) }

def reserveReply (usage : Usage) (encoded : String) : Except AdmissionError Usage := do
  validateOcppMessage g.limits encoded.utf8ByteSize
  reserveWithUsage g.limits usage .criticalReport encoded.utf8ByteSize

def queueReply (s : Session) (r : IncomingCallResponder) (encoded : String) : Session :=
  let s := s.removeResponder r.number
  if s.alive ∧ s.replies.length < g.configuration.incomingCallCapacity then
    { s with
      replies := s.replies ++ [⟨r.number, r.messageId, encoded⟩]
      queuedReplies := s.queuedReplies ++ [r.number] }
  else s

inductive Answer
  | respond (payload : Json)
  | reject (e : OcppCallError)

def Answer.encoded (messageId : String) : Answer → String
  | .respond payload =>
      g.serialize <|
        if payload.isObject then resultFrame messageId payload
        else errorFrame messageId ⟨g.protocol, .internalError, "application response failed validation", some "/"⟩
  | .reject e => g.serialize (errorFrame messageId e)

def unavailableReply (messageId : String) : String :=
  g.serialize (errorFrame messageId ⟨g.protocol, .internalError, "application response unavailable", none⟩)

def dropResponder (s : Session) (r : IncomingCallResponder) (usage : Usage) : Session :=
  match reserveReply g usage (unavailableReply g r.messageId) with
  | .error _ => s.removeResponder r.number
  | .ok _ => queueReply g s r (unavailableReply g r.messageId)

/-- Use a responder. When the reply is not admitted the responder still has its sender, and is dropped at once. -/
def answer (s : Session) (r : IncomingCallResponder) (a : Answer) (usage dropUsage : Usage) : Session :=
  match reserveReply g usage (a.encoded g r.messageId) with
  | .error _ => dropResponder g s r dropUsage
  | .ok _ => queueReply g s r (a.encoded g r.messageId)

def sendReply (s : Session) (written : Written) : Session :=
  match s.replies with
  | [] => s
  | reply :: rest =>
      let s : Session :=
        { s with
          replies := rest
          takenReplies := s.takenReplies ++ [reply.number]
          incomingIds := s.incomingIds.filter (· ≠ reply.messageId) }
      let s := s.hand (.reply reply.number reply.encoded)
      match written with
      | .sent => s
      | .failed => (s.uncertainAll .disconnected).finish
      | .aborted => s.finish

end Responder

/-- Everything that happens to a session: the arms of its loop, its callers and the application. -/
inductive Event
  | enqueue (request : OutboundCall) (sendBefore : Option Instant) (deferred : Option Deferred) (usage : Usage)
  | outbound (now : Instant) (resolved : Option String) (written : Written)
  | text (m : TextMessage)
  | binary
  | ping
  | disconnected
  | reply (written : Written)
  | deadline (now : Instant)
  | shutdown
  | abort
  | receiveCall
  | closeIncoming
  | answer (number : Nat) (a : Answer) (usage dropUsage : Usage)
  | drop (number : Nat) (usage : Usage)
  | receiveDiagnostic

namespace Session

variable (g : Setting)

def turn (s : Session) : Event → Session
  | .outbound now resolved written =>
      match s.outbound with
      | [] => s
      | queued :: rest => sendOutbound g { s with outbound := rest } queued now resolved written
  | .text m => processFrame g s m
  | .binary => (((s.emit g (.malformedFrame none "/")).uncertainAll .disconnected).hand .close).finish
  | .disconnected => (s.uncertainAll .disconnected).finish
  | .reply written => sendReply s written
  | .deadline now => expireCalls g s now
  | .shutdown => ((s.uncertainAll .sessionStopped).hand .close).finish
  | .abort => s.finish
  | _ => s

/-- Callers and the application, whether the session runs or has ended. -/
def outside (s : Session) : Event → Session
  | .enqueue request sendBefore deferred usage =>
      match Call.enqueue g s request sendBefore deferred usage with
      | .ok s' => s'
      | .error _ => s
  | .receiveCall => { s with incoming := s.incoming.drop 1 }
  | .closeIncoming => { s with incomingClosed := true }
  | .answer number a usage dropUsage =>
      match s.responders.find? (·.number = number) with
      | some r => if number ∈ s.incoming then s else Call.answer g s r a usage dropUsage
      | none => s
  | .drop number usage =>
      match s.responders.find? (·.number = number) with
      | some r => if number ∈ s.incoming ∧ s.incomingClosed = false then s else dropResponder g s r usage
      | none => s
  | .receiveDiagnostic => { s with diagnostics := s.diagnostics.drop 1 }
  | _ => s

def step (s : Session) (e : Event) : Session := (if s.alive then s.turn g e else s).outside g e

def run (events : List Event) : Session := events.foldl (step g) start

end Session

end OcppBridge.Call
