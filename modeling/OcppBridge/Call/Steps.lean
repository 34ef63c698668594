import OcppBridge.Call.Loop
import OcppBridge.Transition

namespace OcppBridge.Call

open Transaction Session

def Outgoing.call? : Outgoing → Option (Nat × String)
  | .call number messageId _ => some (number, messageId)
  | _ => none

namespace Session

def handed (s : Session) : List (Nat × String) := s.socket.filterMap Outgoing.call?

structure Core where
  alive : Bool
  pending : List (String × PendingEntry)
  timedOut : List TimedOut
  retiredOutbound : List String
  recentIncoming : List String
  outbound : List QueuedOutbound
  enqueued : List OutboundCall
  outcomes : List (Nat × SessionCallOutcome)
  handed : List (Nat × String)

def core (s : Session) : Core :=
  ⟨s.alive, s.pending, s.timedOut, s.retiredOutbound, s.recentIncoming, s.outbound, s.enqueued, s.outcomes, s.handed⟩

end Session

def Event.isEnqueue : Event → Bool
  | .enqueue _ _ _ _ => true
  | _ => false

def Event.isOutbound : Event → Bool
  | .outbound _ _ _ => true
  | _ => false

def TextMessage.repliesTo (m : TextMessage) (messageId : String) : Prop :=
  (∃ payload, decode m.value m.bytes = .ok (.result messageId payload)) ∨
    ∃ code details, decode m.value m.bytes = .ok (.error messageId code details)

/-- What it takes for a step from `s₀` to end in `P`, by what a step does to the calls. -/
structure Preserves (g : Setting) (s₀ : Session) (e : Event) (P : Session → Prop) : Prop where
  idle : (e.isOutbound → s₀.alive → s₀.outbound = []) → P s₀
  side : ∀ {s s' : Session}, P s → s'.core = s.core → P s'
  uncertain : ∀ {s : Session} (reason : TransmissionUncertainReason), P s → P (s.uncertainAll reason)
  finish : ∀ {s : Session}, P s → P s.finish
  remember : ∀ {s : Session} (messageId : String), P s → P (rememberIncoming g s messageId)
  retire : ∀ {s : Session} (messageId : String), P s → P (retire g s messageId)
  dropTimedOut : ∀ {s : Session} (messageId : String), P s → P (dropTimedOut s messageId)
  expire : ∀ {s : Session} (messageId : String), P s → P (expireCall g s messageId)
  enqueue : ∀ q : QueuedOutbound, e.isEnqueue → s₀.alive → s₀.outbound.length < g.configuration.pendingCallCapacity →
    q.number = s₀.enqueued.length →
    P { s₀ with outbound := s₀.outbound ++ [q], enqueued := s₀.enqueued ++ [q.request] }
  refuse : ∀ {now resolved written} (q : QueuedOutbound) (rest : List QueuedOutbound) (reason : String),
    e = .outbound now resolved written → s₀.alive → s₀.outbound = q :: rest →
    P (finishNotTransmitted { s₀ with outbound := rest } q reason)
  transmit : ∀ {now resolved written} (q : QueuedOutbound) (rest : List QueuedOutbound) (encoded : String),
    e = .outbound now resolved written → s₀.alive → s₀.outbound = q :: rest →
    unavailableBeforeSend g s₀ q now = none → P (transmit g { s₀ with outbound := rest } q encoded now written)
  answer : ∀ {m : TextMessage} {messageId : String} {entry : PendingEntry} {o : SessionCallOutcome},
    e = .text m → m.repliesTo messageId → (messageId, entry) ∈ s₀.pending → o.correlationId = entry.correlationId →
    o.isReply → P (answerPending g s₀ messageId entry o)

section Preserves

variable {g : Setting} {s₀ s : Session} {e : Event} {P : Session → Prop}

theorem entryFor_eq_some {id : String} {entry : PendingEntry} (h : s.entryFor id = some entry) :
    (id, entry) ∈ s.pending := by
  obtain ⟨⟨k, e⟩, hfind, rfl⟩ := Option.map_eq_some_iff.mp h
  have hk : k = id := by simpa using List.find?_some hfind
  exact hk ▸ List.mem_of_find?_eq_some hfind

theorem enqueue_eq_ok {request : OutboundCall} {sendBefore : Option Instant} {deferred : Option Deferred}
    {usage : Resource.Usage} {s' : Session} (h : enqueue g s request sendBefore deferred usage = .ok s') :
    s.alive ∧ s.outbound.length < g.configuration.pendingCallCapacity ∧ ∃ wire, s' = { s with
      outbound := s.outbound ++ [⟨s.enqueued.length, request, wire, sendBefore, isGuarded g request⟩]
      enqueued := s.enqueued ++ [request] } := by
  simp only [enqueue, bind_eq_ok, require_eq_ok, pure_eq_ok] at h
  obtain ⟨-, -, ⟨wire, bytes⟩, -, -, -, -, -, -, -, -, -, -, halive, -, hroom, rfl⟩ := h
  exact ⟨halive, hroom, wire, rfl⟩

theorem handed_hand {frame : Outgoing} (h : frame.call? = none) : (s.hand frame).handed = s.handed := by
  simp [handed, hand, List.filterMap_append, h]

theorem handed_handCall (n : Nat) (id encoded : String) :
    (s.hand (.call n id encoded)).handed = s.handed ++ [(n, id)] := by
  simp [handed, hand, List.filterMap_append, Outgoing.call?]

namespace Preserves

variable (h : Preserves g s₀ e P)

include h

theorem hand (hs : P s) (frame : Outgoing) (hframe : frame.call? = none) : P (s.hand frame) := by
  refine h.side hs ?_
  simp only [core, handed_hand hframe]
  rfl

theorem emit (hs : P s) (d : CallSessionDiagnostic) : P (s.emit g d) := by
  rw [Session.emit]
  split
  · exact h.side hs rfl
  · exact hs

theorem sendDirect (hs : P s) (encoded : String) (written : Written) :
    P (s.sendDirect encoded written) := by
  have hh := h.hand hs (.direct encoded) rfl
  rw [Session.sendDirect]
  split
  · exact h.finish hh
  · exact hh

theorem sendOutbound {q : QueuedOutbound} {rest : List QueuedOutbound} {now : Instant}
    {resolved : Option String} {written : Written} (he : e = .outbound now resolved written) (halive : s₀.alive)
    (hq : s₀.outbound = q :: rest) : P (sendOutbound g { s₀ with outbound := rest } q now resolved written) := by
  rw [Call.sendOutbound]
  split
  · exact h.refuse q rest _ he halive hq
  · rename_i hfree
    split
    · exact h.refuse q rest _ he halive hq
    · exact h.transmit q rest _ he halive hq hfree

theorem finishResponse (hs : P s₀) {m : TextMessage} {id : String}
    {o : String → SessionCallOutcome} (he : e = .text m) (hid : m.repliesTo id)
    (hcorr : ∀ c, (o c).correlationId = c) (hreply : ∀ c, (o c).isReply) : P (finishResponse g s₀ id o) := by
  rw [Call.finishResponse]
  split
  · rename_i entry hentry
    exact h.answer he hid (entryFor_eq_some hentry) (hcorr _) (hreply _)
  · split
    · rename_i late hlate
      have hr := h.retire late.messageId hs
      have hd := h.dropTimedOut late.messageId hr
      simp only [answerLate]
      split
      · exact h.emit hd _
      · split
        · exact h.emit hd _
        · exact h.emit hr _
    · exact h.emit hs _

theorem process (hs : P s) (id : String) (value : Json) (bytes : Nat) (usage : Resource.Usage)
    (written : Written) : P (process g s id value bytes usage written) := by
  rw [Call.process]
  split
  · exact h.sendDirect (h.emit hs _) _ written
  · split
    · exact h.sendDirect hs _ written
    · split
      · exact h.sendDirect hs _ written
      · split
        · exact h.remember id (h.side hs rfl)
        · exact h.sendDirect hs _ written

theorem report (hs : P s) (id : String) (routed : Option Bool) (written : Written) :
    P (report g s id routed written) := by
  have hr := h.remember id hs
  rw [Call.report]
  split
  · exact h.sendDirect hs _ written
  · split
    · exact h.sendDirect hs _ written
    · exact h.sendDirect hr _ written
    · exact h.sendDirect hr _ written

theorem processFrame (hs : P s₀) {m : TextMessage} (he : e = .text m) :
    P (processFrame g s₀ m) := by
  rw [Call.processFrame]
  split
  · exact hs
  · split
    · simp only [rejectMalformedFrame]
      split
      · exact h.emit hs _
      · exact h.sendDirect (h.emit hs _) _ m.written
    · exact h.process hs _ _ _ _ _
    · exact h.report hs _ _ _
    · rename_i id payload hdecode
      exact h.finishResponse hs he (.inl ⟨payload, hdecode⟩) (fun _ => rfl) (fun _ => rfl)
    · rename_i id code details hdecode
      exact h.finishResponse hs he (.inr ⟨code, details, hdecode⟩) (fun _ => rfl) (fun _ => rfl)

theorem sendReply (hs : P s) (written : Written) : P (sendReply s written) := by
  rw [Call.sendReply]
  split
  · exact hs
  · rename_i reply rest hreplies
    have hs' : P ({ s with
        replies := rest
        takenReplies := s.takenReplies ++ [reply.number]
        incomingIds := s.incomingIds.filter (· ≠ reply.messageId) } : Session) := h.side hs rfl
    have hh := h.hand hs' (.reply reply.number reply.encoded) rfl
    cases written with
    | sent => exact hh
    | failed => exact h.finish (h.uncertain _ hh)
    | aborted => exact h.finish hh

theorem turn (halive : s₀.alive) : P (s₀.turn g e) := by
  cases e with
  | outbound now resolved written =>
      simp only [turn]
      split
      · exact h.idle fun _ _ => ‹_›
      · exact h.sendOutbound rfl halive ‹_›
  | text m => exact h.processFrame (h.idle nofun) rfl
  | binary => exact h.finish (h.hand (h.uncertain _ (h.emit (h.idle nofun) _)) .close rfl)
  | disconnected => exact h.finish (h.uncertain _ (h.idle nofun))
  | reply written => exact h.sendReply (h.idle nofun) written
  | deadline now =>
      exact Transition.run_invariant (P := P) (fun _ id hs => h.expire id hs) _ (h.idle nofun)
  | shutdown => exact h.finish (h.hand (h.uncertain _ (h.idle nofun)) .close rfl)
  | abort => exact h.finish (h.idle nofun)
  | enqueue | ping | receiveCall | closeIncoming | answer | drop | receiveDiagnostic => exact h.idle nofun

theorem queueReply (hs : P s) (r : IncomingCallResponder) (encoded : String) :
    P (queueReply g s r encoded) := by
  simp only [Call.queueReply]
  split
  all_goals exact h.side hs rfl

theorem dropResponder (hs : P s) (r : IncomingCallResponder) (usage : Resource.Usage) :
    P (dropResponder g s r usage) := by
  rw [Call.dropResponder]
  split
  · exact h.side hs rfl
  · exact h.queueReply hs r _

theorem outside (hs : P s) (henqueue : e.isEnqueue → s = s₀) : P (s.outside g e) := by
  cases e with
  | enqueue request sendBefore deferred usage =>
      obtain rfl := henqueue rfl
      simp only [outside]
      split
      · rename_i hok
        obtain ⟨halive, hroom, wire, rfl⟩ := enqueue_eq_ok hok
        exact h.enqueue _ rfl halive hroom rfl
      · exact hs
  | answer number a usage dropUsage =>
      simp only [outside]
      split
      · split
        · exact hs
        · rw [Call.answer]
          split
          · exact h.dropResponder hs _ _
          · exact h.queueReply hs _ _
      · exact hs
  | drop number usage =>
      simp only [outside]
      split
      · split
        · exact hs
        · exact h.dropResponder hs _ _
      · exact hs
  | receiveCall | closeIncoming | receiveDiagnostic => exact h.side hs rfl
  | outbound | text | binary | ping | disconnected | reply | deadline | shutdown | abort => exact hs

theorem step : P (s₀.step g e) := by
  rw [Session.step]
  split
  · refine h.outside (h.turn ‹_›) fun he => ?_
    cases e with
    | enqueue => rfl
    | _ => simp [Event.isEnqueue] at he
  · rename_i hdead
    exact h.outside (h.idle fun _ ha => absurd ha hdead) fun _ => rfl

end Preserves

theorem run_preserves (hstep : ∀ s e, P s → Preserves g s e P) (hstart : P .start) (events : List Event) :
    P (.run g events) :=
  Transition.run_invariant (P := P) (fun s e hs => (hstep s e hs).step) events hstart

end Preserves

end OcppBridge.Call
