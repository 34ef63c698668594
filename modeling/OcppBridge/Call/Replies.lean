import OcppBridge.Call.Steps
import OcppBridge.Keyed
import Mathlib.Data.List.Range

namespace OcppBridge.Call

open Session

/-- The part of a session that delivered calls and their replies depend on. -/
structure Exchange where
  incomingIds : List String
  responders : List IncomingCallResponder
  replies : List QueuedReply
  delivered : List String
  queuedReplies : List Nat
  takenReplies : List Nat

namespace Exchange

def deliver (x : Exchange) (id : String) : Exchange :=
  { x with
    incomingIds := x.incomingIds ++ [id]
    responders := x.responders ++ [⟨x.delivered.length, id⟩]
    delivered := x.delivered ++ [id] }

def queue (x : Exchange) (r : IncomingCallResponder) (encoded : String) : Exchange :=
  { x with
    responders := x.responders.filter (·.number ≠ r.number)
    replies := x.replies ++ [⟨r.number, r.messageId, encoded⟩]
    queuedReplies := x.queuedReplies ++ [r.number] }

def take (x : Exchange) (reply : QueuedReply) (rest : List QueuedReply) : Exchange :=
  { x with
    incomingIds := x.incomingIds.filter (· ≠ reply.messageId)
    replies := rest
    takenReplies := x.takenReplies ++ [reply.number] }

end Exchange

def Session.exchange (s : Session) : Exchange :=
  ⟨s.incomingIds, s.responders, s.replies, s.delivered, s.queuedReplies, s.takenReplies⟩

/-- What a step of a living session does to the exchange when no reply is refused. -/
inductive Exchanged (s s' : Session) : Prop
  | same (h : s'.exchange = s.exchange)
  | deliver (id : String) (hnew : id ∉ s.incomingIds) (h : s'.exchange = s.exchange.deliver id)
  | queue (r : IncomingCallResponder) (encoded : String) (hr : r ∈ s.responders)
      (h : s'.exchange = s.exchange.queue r encoded)
  | take (reply : QueuedReply) (rest : List QueuedReply) (hreplies : s.replies = reply :: rest)
      (h : s'.exchange = s.exchange.take reply rest)

section Steps

variable {g : Setting} {s : Session}

@[simp] theorem exchange_emit (d : CallSessionDiagnostic) : (s.emit g d).exchange = s.exchange := by
  rw [emit]
  split <;> rfl

@[simp] theorem exchange_sendDirect (encoded : String) (written : Written) :
    (s.sendDirect encoded written).exchange = s.exchange := by
  rw [sendDirect]
  split <;> rfl

@[simp] theorem exchange_expireCall (id : String) : (expireCall g s id).exchange = s.exchange := by
  rw [expireCall]
  split <;> rfl

theorem exchange_expireCalls (now : Instant) : (expireCalls g s now).exchange = s.exchange := by
  rw [expireCalls]
  induction (s.pending.filter (·.2.deadline ≤ now)).map Prod.fst generalizing s with
  | nil => rfl
  | cons id ids ih => rw [List.foldl_cons, ih, exchange_expireCall]

theorem exchange_sendOutbound (q : QueuedOutbound) (now : Instant) (resolved : Option String) (written : Written) :
    (sendOutbound g s q now resolved written).exchange = s.exchange := by
  rw [sendOutbound]
  split
  · rfl
  · split
    · rfl
    · cases written <;> rfl

theorem exchange_finishResponse (id : String) (o : String → SessionCallOutcome) :
    (finishResponse g s id o).exchange = s.exchange := by
  rw [finishResponse]
  split
  · rw [answerPending, keepReservation]
    split
    · split <;> rfl
    · rfl
  · split
    · simp only [answerLate]
      split
      · exact exchange_emit _
      · split <;> exact exchange_emit _
    · exact exchange_emit _

theorem report_exchange (id : String) (routed : Option Bool) (written : Written) :
    (report g s id routed written).exchange = s.exchange := by
  rw [report]
  split
  · exact exchange_sendDirect _ written
  · split <;> exact exchange_sendDirect _ written

theorem process_exchanged (id : String) (value : Json) (bytes : Nat) (usage : Resource.Usage) (written : Written) :
    Exchanged s (process g s id value bytes usage written) := by
  rw [process]
  split
  · exact .same (by simp [sendError])
  · rename_i hnew
    split
    · exact .same (exchange_sendDirect _ written)
    · split
      · exact .same (exchange_sendDirect _ written)
      · split
        · exact .deliver id (fun h => hnew (.inl h)) rfl
        · exact .same (exchange_sendDirect _ written)

theorem processFrame_exchanged (m : TextMessage) : Exchanged s (processFrame g s m) := by
  rw [processFrame]
  split
  · exact .same rfl
  · split
    · simp only [rejectMalformedFrame]
      split
      · exact .same (exchange_emit _)
      · exact .same (by simp [sendError])
    · exact process_exchanged _ _ _ _ _
    · exact .same (report_exchange _ _ _)
    · exact .same (exchange_finishResponse _ _)
    · exact .same (exchange_finishResponse _ _)

theorem sendReply_exchanged (written : Written) : Exchanged s (sendReply s written) := by
  rw [sendReply]
  split
  · exact .same rfl
  · rename_i reply rest hreplies
    refine .take reply rest hreplies ?_
    cases written <;> rfl

theorem turn_exchanged (e : Event) : Exchanged s (s.turn g e) := by
  cases e with
  | outbound now resolved written =>
      simp only [turn]
      split
      · exact .same rfl
      · exact .same (exchange_sendOutbound _ _ _ _)
  | text m => exact processFrame_exchanged m
  | binary => exact .same (exchange_emit _)
  | reply written => exact sendReply_exchanged written
  | deadline now => exact .same (exchange_expireCalls now)
  | disconnected | shutdown | abort => exact .same rfl
  | enqueue | ping | receiveCall | closeIncoming | answer | drop | receiveDiagnostic => exact .same rfl

end Steps

section Room

variable (g : Setting) {r : IncomingCallResponder}

/-- Whenever a responder is used or dropped, the reply queue and the shared budget admit the reply or its stand-in. -/
def Roomy (s : Session) : Event → Prop
  | .answer number a usage dropUsage => ∀ r ∈ s.responders, r.number = number →
      s.replies.length < g.configuration.incomingCallCapacity ∧
        ((reserveReply g usage (a.encoded g r.messageId)).isOk ∨
          (reserveReply g dropUsage (unavailableReply g r.messageId)).isOk)
  | .drop number usage => ∀ r ∈ s.responders, r.number = number →
      s.replies.length < g.configuration.incomingCallCapacity ∧
        (reserveReply g usage (unavailableReply g r.messageId)).isOk
  | _ => True

def RoomyRun : Session → List Event → Prop
  | _, [] => True
  | s, e :: events => Roomy g s e ∧ RoomyRun (s.step g e) events

instance (s : Session) (e : Event) : Decidable (Roomy g s e) :=
  match e with
  | .answer number _ _ _ => inferInstanceAs (Decidable (∀ r ∈ s.responders, r.number = number → _ ∧ (_ ∨ _)))
  | .drop number _ => inferInstanceAs (Decidable (∀ r ∈ s.responders, r.number = number → _ ∧ _))
  | .enqueue _ _ _ _ | .outbound _ _ _ | .text _ | .binary | .ping | .disconnected | .reply _ | .deadline _
  | .shutdown | .abort | .receiveCall | .closeIncoming | .receiveDiagnostic => inferInstanceAs (Decidable True)

instance decidableRoomyRun : (s : Session) → (events : List Event) → Decidable (RoomyRun g s events)
  | _, [] => inferInstanceAs (Decidable True)
  | s, e :: events =>
      have := decidableRoomyRun (s.step g e) events
      inferInstanceAs (Decidable (Roomy g s e ∧ RoomyRun g (s.step g e) events))

variable {g} {s : Session} {e : Event}

theorem queueReply_exchange (halive : s.alive) (hroom : s.replies.length < g.configuration.incomingCallCapacity)
    (encoded : String) : (queueReply g s r encoded).exchange = s.exchange.queue r encoded := by
  have hopen : (s.removeResponder r.number).alive ∧
      (s.removeResponder r.number).replies.length < g.configuration.incomingCallCapacity := ⟨halive, hroom⟩
  simp only [queueReply, if_pos hopen]
  rfl

theorem dropResponder_exchange {usage : Resource.Usage} (halive : s.alive)
    (hroom : s.replies.length < g.configuration.incomingCallCapacity)
    (hbudget : (reserveReply g usage (unavailableReply g r.messageId)).isOk) :
    (dropResponder g s r usage).exchange = s.exchange.queue r (unavailableReply g r.messageId) := by
  rw [dropResponder]
  split
  · rename_i herror
    simp [herror, Except.isOk, Except.toBool] at hbudget
  · exact queueReply_exchange halive hroom _

theorem find_responder {number : Nat} (h : s.responders.find? (·.number = number) = some r) :
    r ∈ s.responders ∧ r.number = number :=
  ⟨List.mem_of_find?_eq_some h, by simpa using List.find?_some h⟩

theorem outside_exchanged (halive : s.alive) (hroom : Roomy g s e) : Exchanged s (s.outside g e) := by
  cases e with
  | enqueue request sendBefore deferred usage =>
      simp only [outside]
      split
      · rename_i hok
        obtain ⟨-, -, wire, rfl⟩ := enqueue_eq_ok hok
        exact .same rfl
      · exact .same rfl
  | answer number a usage dropUsage =>
      simp only [outside]
      split
      · rename_i r hfind
        obtain ⟨hr, hnumber⟩ := find_responder hfind
        obtain ⟨hqueue, hbudget⟩ := hroom r hr hnumber
        split
        · exact .same rfl
        · rw [answer]
          split
          · rename_i herror
            have hdrop : (reserveReply g dropUsage (unavailableReply g r.messageId)).isOk := by
              simpa [herror, Except.isOk, Except.toBool] using hbudget
            exact .queue r _ hr (dropResponder_exchange halive hqueue hdrop)
          · exact .queue r _ hr (queueReply_exchange halive hqueue _)
      · exact .same rfl
  | drop number usage =>
      simp only [outside]
      split
      · rename_i r hfind
        obtain ⟨hr, hnumber⟩ := find_responder hfind
        obtain ⟨hqueue, hbudget⟩ := hroom r hr hnumber
        split
        · exact .same rfl
        · exact .queue r _ hr (dropResponder_exchange halive hqueue hbudget)
      · exact .same rfl
  | receiveCall | closeIncoming | receiveDiagnostic => exact .same rfl
  | outbound | text | binary | ping | disconnected | reply | deadline | shutdown | abort => exact .same rfl

theorem turn_or_outside (s : Session) (e : Event) : (∀ t : Session, t.outside g e = t) ∨ s.turn g e = s := by
  cases e with
  | outbound | text | binary | ping | disconnected | reply | deadline | shutdown | abort => exact .inl fun _ => rfl
  | enqueue | receiveCall | closeIncoming | answer | drop | receiveDiagnostic => exact .inr rfl

theorem step_exchanged (halive : s.alive) (hroom : Roomy g s e) : Exchanged s (s.step g e) := by
  rw [step, if_pos halive]
  obtain houtside | hturn := turn_or_outside (g := g) s e
  · rw [houtside]
    exact turn_exchanged e
  · rw [hturn]
    exact outside_exchanged halive hroom

theorem outside_alive (s : Session) (e : Event) : (s.outside g e).alive = s.alive := by
  cases e with
  | enqueue request sendBefore deferred usage =>
      simp only [outside]
      split
      · rename_i hok
        obtain ⟨-, -, wire, rfl⟩ := enqueue_eq_ok hok
        rfl
      · rfl
  | answer number a usage dropUsage =>
      simp only [outside]
      split
      · split
        · rfl
        · simp only [answer, dropResponder, queueReply]
          repeat' split
          all_goals rfl
      · rfl
  | drop number usage =>
      simp only [outside]
      split
      · split
        · rfl
        · simp only [dropResponder, queueReply]
          repeat' split
          all_goals rfl
      · rfl
  | _ => rfl

theorem alive_of_run (events : List Event) (h : (events.foldl (step g) s).alive) : s.alive := by
  induction events generalizing s with
  | nil => exact h
  | cons e events ih =>
      have hstep := ih h
      by_contra hdead
      rw [step, if_neg hdead, outside_alive] at hstep
      exact hdead hstep

end Room

/-- The books of the exchange: who still has a responder, whose reply was queued, and which IDs are outstanding. -/
structure Exchange.Kept (x : Exchange) : Prop where
  tickets : (x.responders.map (·.number) ++ x.queuedReplies).Perm (List.range x.delivered.length)
  queue : x.queuedReplies = x.takenReplies ++ x.replies.map (·.number)
  responders : ∀ r ∈ x.responders, x.delivered[r.number]? = some r.messageId
  replies : ∀ r ∈ x.replies, x.delivered[r.number]? = some r.messageId
  outstanding : ∀ id, id ∈ x.incomingIds ↔ ∃ n, x.delivered[n]? = some id ∧ n ∉ x.takenReplies
  distinct : ∀ n m id, x.delivered[n]? = some id → x.delivered[m]? = some id → n ∉ x.takenReplies →
    m ∉ x.takenReplies → n = m

section Kept

variable {x : Exchange}

theorem getElem?_snoc {α : Type} {xs : List α} {a b : α} {n : Nat} :
    (xs ++ [a])[n]? = some b ↔ xs[n]? = some b ∨ n = xs.length ∧ a = b := by
  by_cases hn : n < xs.length
  · rw [List.getElem?_append_left hn]
    exact ⟨.inl, fun h => h.resolve_right fun h => by omega⟩
  · rw [List.getElem?_append_right (by omega), List.getElem?_eq_none (by omega : xs.length ≤ n)]
    rw [List.getElem?_singleton]
    by_cases hz : n - xs.length = 0
    · simp [show n = xs.length by omega]
    · simp [hz, show n ≠ xs.length by omega]

namespace Exchange

variable (h : x.Kept)

include h

theorem Kept.taken_lt {n : Nat} (hn : n ∈ x.takenReplies) : n < x.delivered.length := by
  refine List.mem_range.mp (h.tickets.mem_iff.mp (List.mem_append_right _ ?_))
  rw [h.queue]
  exact List.mem_append_left _ hn

theorem Kept.deliver {id : String} (hnew : id ∉ x.incomingIds) : (x.deliver id).Kept := by
  have hfresh : ∀ n, x.delivered[n]? = some id → n ∈ x.takenReplies := by
    intro n hn
    by_contra hout
    exact hnew ((h.outstanding id).mpr ⟨n, hn, hout⟩)
  have hlast : x.delivered.length ∉ x.takenReplies := fun hmem => Nat.lt_irrefl _ (h.taken_lt hmem)
  refine ⟨?_, h.queue, ?_, ?_, ?_, ?_⟩
  · simp only [Exchange.deliver, List.map_append, List.map_cons, List.map_nil, List.length_append,
      List.length_singleton, List.range_succ, List.append_assoc]
    refine .trans ?_ (h.tickets.append_right _)
    rw [List.append_assoc]
    exact List.perm_append_comm.append_left _
  · intro r hr
    obtain hr | hr := List.mem_append.mp hr
    · exact getElem?_snoc.mpr (.inl (h.responders r hr))
    · obtain rfl := List.mem_singleton.mp hr
      exact getElem?_snoc.mpr (.inr ⟨rfl, rfl⟩)
  · intro r hr
    exact getElem?_snoc.mpr (.inl (h.replies r hr))
  · intro id'
    simp only [Exchange.deliver, List.mem_append, List.mem_singleton, getElem?_snoc]
    constructor
    · rintro (hold | rfl)
      · obtain ⟨n, hn, hout⟩ := (h.outstanding id').mp hold
        exact ⟨n, .inl hn, hout⟩
      · exact ⟨x.delivered.length, .inr ⟨rfl, rfl⟩, hlast⟩
    · rintro ⟨n, hn | ⟨-, rfl⟩, hout⟩
      · exact .inl ((h.outstanding id').mpr ⟨n, hn, hout⟩)
      · exact .inr rfl
  · intro n m id' hn hm hnout hmout
    simp only [Exchange.deliver, getElem?_snoc] at hn hm
    obtain hn | ⟨rfl, rfl⟩ := hn
    · obtain hm | ⟨rfl, rfl⟩ := hm
      · exact h.distinct n m id' hn hm hnout hmout
      · exact absurd (hfresh n hn) hnout
    · obtain hm | ⟨rfl, -⟩ := hm
      · exact absurd (hfresh m hm) hmout
      · rfl

theorem Kept.numbers : (x.responders.map (·.number)).Nodup :=
  (List.nodup_append.mp (h.tickets.nodup_iff.mpr List.nodup_range)).1

theorem Kept.put {r : IncomingCallResponder} (hr : r ∈ x.responders) (encoded : String) :
    (x.queue r encoded).Kept := by
  have hperm := Keyed.perm_cons_delete h.numbers hr
  refine ⟨?_, ?_, fun r' hr' => h.responders r' (List.mem_of_mem_filter hr'), ?_, h.outstanding, h.distinct⟩
  · refine .trans ?_ h.tickets
    refine .trans ?_ ((hperm.map _).append_right _).symm
    simp only [Exchange.queue, List.map_cons, List.cons_append]
    rw [← List.append_assoc]
    exact List.perm_append_comm
  · simp only [Exchange.queue, h.queue, List.map_append, List.map_cons, List.map_nil, List.append_assoc]
  · intro r' hr'
    obtain hr' | hr' := List.mem_append.mp hr'
    · exact h.replies r' hr'
    · obtain rfl := List.mem_singleton.mp hr'
      exact h.responders r hr

theorem Kept.take {reply : QueuedReply} {rest : List QueuedReply}
    (hreplies : x.replies = reply :: rest) : (x.take reply rest).Kept := by
  have hid := h.replies reply (by simp [hreplies])
  have hout : reply.number ∉ x.takenReplies := by
    have hnodup := (List.nodup_append.mp (h.tickets.nodup_iff.mpr List.nodup_range)).2.1
    rw [h.queue, hreplies] at hnodup
    intro hmem
    exact (List.nodup_append.mp hnodup).2.2 _ hmem _ (by simp) rfl
  refine ⟨h.tickets, ?_, h.responders, fun r hr => h.replies r (hreplies ▸ List.mem_cons_of_mem reply hr), ?_, ?_⟩
  · simp [Exchange.take, h.queue, hreplies]
  · intro id
    simp only [Exchange.take, List.mem_filter, h.outstanding, decide_eq_true_eq, List.mem_append, List.mem_singleton,
      not_or]
    constructor
    · rintro ⟨⟨n, hn, hnout⟩, hne⟩
      refine ⟨n, hn, hnout, ?_⟩
      rintro rfl
      exact hne (Option.some.inj (hn.symm.trans hid))
    · rintro ⟨n, hn, hnout, hne⟩
      refine ⟨⟨n, hn, hnout⟩, ?_⟩
      rintro rfl
      exact hne (h.distinct n reply.number reply.messageId hn hid hnout hout)
  · intro n m id hn hm hnout hmout
    simp only [Exchange.take, List.mem_append, not_or] at hnout hmout
    exact h.distinct n m id hn hm hnout.1 hmout.1

end Exchange

theorem Exchanged.kept {s s' : Session} (h : Exchanged s s') (hs : s.exchange.Kept) : s'.exchange.Kept := by
  cases h with
  | same h => exact h ▸ hs
  | deliver id hnew h => exact h ▸ hs.deliver hnew
  | queue r encoded hr h => exact h ▸ hs.put hr encoded
  | take reply rest hreplies h => exact h ▸ hs.take hreplies

theorem run_kept {g : Setting} {s : Session} {events : List Event} (hroom : RoomyRun g s events)
    (halive : (events.foldl (step g) s).alive) (hs : s.exchange.Kept) : (events.foldl (step g) s).exchange.Kept := by
  induction events generalizing s with
  | nil => exact hs
  | cons e events ih =>
      have hstep := step_exchanged (alive_of_run (e :: events) halive) hroom.1
      exact ih hroom.2 halive (hstep.kept hs)

end Kept

structure Answered (s : Session) : Prop where
  /-- A call whose responder was used or dropped has exactly one reply queued. -/
  replied : ∀ n < s.delivered.length, s.queuedReplies.count n = if n ∈ s.responders.map (·.number) then 0 else 1
  /-- Replies leave the queue in the order they entered it. -/
  queue : s.queuedReplies = s.takenReplies ++ s.replies.map (·.number)
  /-- The outstanding IDs are those of the delivered calls whose reply was not taken from the queue. -/
  outstanding : ∀ id, id ∈ s.incomingIds ↔ ∃ n, s.delivered[n]? = some id ∧ n ∉ s.takenReplies
  /-- No ID is outstanding when every call was answered and its reply taken. -/
  settled : s.responders = [] → s.replies = [] → s.incomingIds = []

theorem Exchange.Kept.answered {s : Session} (h : s.exchange.Kept) : Answered s := by
  refine ⟨fun n hn => ?_, h.queue, h.outstanding, fun hresponders hreplies => ?_⟩
  · have hcount := h.tickets.count_eq n
    have hin : n ∈ List.range s.exchange.delivered.length := List.mem_range.mpr hn
    rw [List.count_append, List.nodup_range.count, if_pos hin, h.numbers.count] at hcount
    have hone : (if n ∈ s.responders.map (·.number) then 1 else 0) + s.queuedReplies.count n = 1 := hcount
    by_cases hr : n ∈ s.responders.map (·.number)
    · rw [if_pos hr] at hone ⊢
      omega
    · rw [if_neg hr] at hone ⊢
      omega
  · refine List.eq_nil_iff_forall_not_mem.mpr fun id hid => ?_
    obtain ⟨n, hn, hout⟩ := (h.outstanding id).mp hid
    have hlt := List.mem_range.mpr (List.getElem?_eq_some_iff.mp hn).1
    have hmem := h.tickets.mem_iff.mpr hlt
    rw [h.queue] at hmem
    simp [exchange, hresponders, hreplies] at hmem
    exact hout hmem

/-- As long as every reply finds room, a living session answers each delivered call exactly once. -/
theorem run_answered (g : Setting) (events : List Event) (hroom : RoomyRun g .start events)
    (halive : (run g events).alive) : Answered (.run g events) := by
  refine (run_kept hroom halive ⟨.refl _, rfl, ?_, ?_, ?_, ?_⟩).answered <;> simp [exchange, start]

section Sample

def sampleSerialize : Json → String
  | .array [.natural 3, .string id, .object []] => "[3,\"" ++ id ++ "\",\x7b\x7d]"
  | _ => "[]"

def sampleSetting : Setting where
  limits := {}
  configuration := ⟨1, 1, 1, 1⟩
  valid := by decide
  protocol := .ocpp16j
  serialize := sampleSerialize
  decodeTyped _ := .ok ()
  nativeStatus201 _ _ := none

def heartbeat (id : String) : Event :=
  .text ⟨24, some ⟨false, none⟩, some (callFrame id "Heartbeat" (.object [])), none, .zero, .zero, .sent⟩

def acknowledge (number : Nat) : Event := .answer number (.respond (.object [])) .zero .zero

def calmReplies : List Event :=
  [heartbeat "a", .receiveCall, acknowledge 0, .reply .sent, heartbeat "b", .receiveCall, .drop 1 .zero, .reply .sent]

/-- With room for every reply both calls are answered, the second one by the error that a dropped responder sends. -/
theorem calm_answered :
    RoomyRun sampleSetting .start calmReplies ∧ (run sampleSetting calmReplies).alive ∧
      (run sampleSetting calmReplies).queuedReplies = [0, 1] ∧
      Answered (.run sampleSetting calmReplies) :=
  ⟨by decide +kernel, by decide +kernel, by decide +kernel,
    run_answered sampleSetting calmReplies (by decide +kernel) (by decide +kernel)⟩

/-- Two calls are received one after the other, and both answered before the session sends the first reply. -/
def crowdedReplies : List Event :=
  [heartbeat "a", .receiveCall, heartbeat "b", .receiveCall, acknowledge 0, acknowledge 1, .reply .sent, .reply .sent]

/-- The second reply is refused and lost with its responder: the call stays unanswered and its ID outstanding. -/
theorem crowded_reply_lost :
    (run sampleSetting crowdedReplies).alive ∧
      (run sampleSetting crowdedReplies).delivered = ["a", "b"] ∧
      (run sampleSetting crowdedReplies).responders = [] ∧
      (run sampleSetting crowdedReplies).replies = [] ∧
      (run sampleSetting crowdedReplies).queuedReplies = [0] ∧
      (run sampleSetting crowdedReplies).incomingIds = ["b"] := by
  decide +kernel

end Sample

end OcppBridge.Call
