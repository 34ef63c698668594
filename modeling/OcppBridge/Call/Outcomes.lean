import OcppBridge.Call.Steps
import OcppBridge.Keyed
import Mathlib.Data.List.Range

namespace OcppBridge.Call

open Transaction SessionCallOutcome Session

namespace Session

def tickets (held : List Nat) (s : Session) : List Nat :=
  held ++ s.outbound.map (·.number) ++ s.pending.map (·.2.number) ++ s.outcomes.map (·.1)

end Session

/-- Every admitted call has exactly one ticket, and what is kept about it belongs to it. -/
structure Ledger (held : List Nat) (s : Session) : Prop where
  tickets : (s.tickets held).Perm (List.range s.enqueued.length)
  keys : (s.pending.map Prod.fst).Nodup
  queued : ∀ q ∈ s.outbound, s.enqueued[q.number]? = some q.request
  pending : ∀ p ∈ s.pending, ∃ r, s.enqueued[p.2.number]? = some r ∧ r.messageId = p.1 ∧
    r.correlationId = p.2.correlationId
  outcomes : ∀ x ∈ s.outcomes, ∃ r, s.enqueued[x.1]? = some r ∧ r.correlationId = x.2.correlationId
  handed : ∀ n id, (n, id) ∈ s.handed → n < s.enqueued.length ∧ n ∉ s.outbound.map (·.number) ∧
    ∀ x ∈ s.outcomes, x.1 = n → x.2.claimsNotTransmitted = false
  ended : s.alive = false → s.outbound = [] ∧ s.pending = []

variable {g : Setting} {s : Session} {e : Event} {n : Nat} {o : SessionCallOutcome} {now : Instant}

section Ledger

variable {held : List Nat} {q : QueuedOutbound}

theorem Ledger.nodup (h : Ledger held s) : (s.tickets held).Nodup := h.tickets.nodup_iff.mpr List.nodup_range

theorem start_ledger : Ledger [] .start := by
  refine ⟨.refl _, List.nodup_nil, ?_, ?_, ?_, ?_, ?_⟩ <;> simp [start, handed]

theorem Ledger.congr {s' : Session} (h : Ledger held s) (hcore : s'.core = s.core) : Ledger held s' := by
  simp only [Session.core, Session.Core.mk.injEq] at hcore
  obtain ⟨halive, hpending, -, -, -, houtbound, henqueued, houtcomes, hhanded⟩ := hcore
  refine ⟨?_, hpending ▸ h.keys, ?_, ?_, ?_, ?_, ?_⟩
  · simpa only [Session.tickets, houtbound, hpending, houtcomes, henqueued] using h.tickets
  · simpa only [houtbound, henqueued] using h.queued
  · simpa only [hpending, henqueued] using h.pending
  · simpa only [houtcomes, henqueued] using h.outcomes
  · simpa only [hhanded, henqueued, houtbound, houtcomes] using h.handed
  · simpa only [halive, houtbound, hpending] using h.ended

theorem Ledger.complete (h : Ledger (n :: held) s) {r : OutboundCall} (hr : s.enqueued[n]? = some r)
    (hcorr : r.correlationId = o.correlationId) (hclaim : o.claimsNotTransmitted → ∀ id, (n, id) ∉ s.handed) :
    Ledger held (s.complete n o) := by
  refine ⟨?_, h.keys, h.queued, h.pending, ?_, ?_, h.ended⟩
  · refine .trans ?_ h.tickets
    simp only [Session.tickets, Session.complete, List.map_append, List.map_cons, List.map_nil, List.cons_append]
    rw [← List.append_assoc]
    exact List.perm_append_comm
  · intro x hx
    simp only [Session.complete, List.mem_append, List.mem_singleton] at hx
    obtain hx | rfl := hx
    · exact h.outcomes x hx
    · exact ⟨r, hr, hcorr⟩
  · intro m id hm
    obtain ⟨hbound, hqueue, hclaims⟩ := h.handed m id hm
    refine ⟨hbound, hqueue, fun x hx hxm => ?_⟩
    simp only [Session.complete, List.mem_append, List.mem_singleton] at hx
    obtain hx | rfl := hx
    · exact hclaims x hx hxm
    · subst hxm
      exact Bool.eq_false_iff.mpr fun hc => hclaim hc id hm

theorem Ledger.uncertainAll (h : Ledger held s) (reason : TransmissionUncertainReason) :
    Ledger held (s.uncertainAll reason) := by
  refine ⟨?_, List.nodup_nil, h.queued, by simp [Session.uncertainAll], ?_, ?_, fun ha => ⟨(h.ended ha).1, rfl⟩⟩
  · refine .trans ?_ h.tickets
    simp only [Session.tickets, Session.uncertainAll, List.map_append, List.map_nil, List.map_map, List.append_nil,
      List.append_assoc]
    exact (List.perm_append_comm.append_left _).append_left _
  · intro x hx
    simp only [Session.uncertainAll, List.mem_append, List.mem_map] at hx
    obtain hx | ⟨p, hp, rfl⟩ := hx
    · exact h.outcomes x hx
    · obtain ⟨r, hr, -, hcorr⟩ := h.pending p hp
      exact ⟨r, hr, hcorr⟩
  · intro m id hm
    obtain ⟨hbound, hqueue, hclaims⟩ := h.handed m id hm
    refine ⟨hbound, hqueue, fun x hx hxm => ?_⟩
    simp only [Session.uncertainAll, List.mem_append, List.mem_map] at hx
    obtain hx | ⟨p, hp, rfl⟩ := hx
    · exact hclaims x hx hxm
    · rfl

theorem Ledger.finish (h : Ledger [] s) : Ledger [] s.finish := by
  have hu := h.uncertainAll .sessionStopped
  refine ⟨?_, List.nodup_nil, by simp [Session.finish], by simp [Session.finish, Session.uncertainAll], ?_, ?_,
    fun _ => ⟨rfl, rfl⟩⟩
  · refine .trans ?_ hu.tickets
    simp only [Session.tickets, Session.finish, Session.uncertainAll, List.map_append, List.map_nil, List.map_map,
      List.nil_append, List.append_nil]
    exact List.perm_append_comm
  · intro x hx
    simp only [Session.finish, List.mem_append, List.mem_map] at hx
    obtain hx | ⟨q, hq, rfl⟩ := hx
    · exact hu.outcomes x hx
    · exact ⟨q.request, h.queued q hq, rfl⟩
  · intro m id hm
    obtain ⟨hbound, -, hclaims⟩ := hu.handed m id hm
    refine ⟨hbound, by simp [Session.finish], fun x hx hxm => ?_⟩
    simp only [Session.finish, List.mem_append, List.mem_map] at hx
    obtain hx | ⟨q, hq, rfl⟩ := hx
    · exact hclaims x hx hxm
    · rfl

theorem Ledger.handCall (h : Ledger (n :: held) s) (id encoded : String) :
    Ledger (n :: held) (s.hand (.call n id encoded)) := by
  refine ⟨h.tickets, h.keys, h.queued, h.pending, h.outcomes, ?_, h.ended⟩
  have hnodup := h.nodup
  simp only [Session.tickets, List.cons_append, List.nodup_cons, List.mem_append, not_or] at hnodup
  intro m id' hm
  rw [handed_handCall, List.mem_append, List.mem_singleton, Prod.mk.injEq] at hm
  obtain hm | ⟨rfl, -⟩ := hm
  · exact h.handed m id' hm
  · refine ⟨List.mem_range.mp (h.tickets.mem_iff.mp (by simp [Session.tickets])), hnodup.1.1.1.2, fun x hx hxn => ?_⟩
    exact absurd (List.mem_map.mpr ⟨x, hx, hxn⟩) hnodup.1.2

theorem Ledger.pop {rest : List QueuedOutbound} (h : Ledger [] s) (hq : s.outbound = q :: rest) :
    Ledger [q.number] { s with outbound := rest } := by
  refine ⟨?_, h.keys, fun q' hq' => h.queued q' (by simp [hq, hq']), h.pending, h.outcomes, ?_, fun ha => ?_⟩
  · have ht := h.tickets
    simp only [Session.tickets, hq, List.map_cons, List.nil_append] at ht
    exact ht
  · intro n id hn
    obtain ⟨hbound, hqueue, hclaim⟩ := h.handed n id hn
    rw [hq, List.map_cons, List.mem_cons, not_or] at hqueue
    exact ⟨hbound, hqueue.2, hclaim⟩
  · exact absurd (h.ended ha).1 (by simp [hq])

theorem finishNotTransmitted_ledger (h : Ledger [q.number] s) (hr : s.enqueued[q.number]? = some q.request)
    (hnew : ∀ id, (q.number, id) ∉ s.handed) (reason : String) : Ledger [] (finishNotTransmitted s q reason) :=
  h.complete hr rfl fun _ => hnew

theorem Ledger.insert (h : Ledger [q.number] s) (hr : s.enqueued[q.number]? = some q.request)
    (hfresh : q.request.messageId ∉ s.pending.map Prod.fst) (halive : s.alive) (now : Instant) :
    Ledger [] { s with pending := Ordered.insert q.request.messageId (q.entry g now) s.pending } := by
  have hperm := Ordered.insert_perm hfresh (q.entry g now)
  refine ⟨?_, ?_, h.queued, ?_, h.outcomes, h.handed, fun ha => by simp [halive] at ha⟩
  · refine .trans ?_ h.tickets
    simp only [Session.tickets, List.nil_append, List.cons_append]
    refine .trans (((hperm.map _).append_left _).append_right _) ?_
    simp only [List.map_cons, List.append_assoc, List.cons_append]
    exact List.perm_middle
  · refine (hperm.map Prod.fst).nodup_iff.mpr ?_
    exact List.nodup_cons.mpr ⟨hfresh, h.keys⟩
  · intro p hp
    obtain rfl | hp := List.mem_cons.mp (hperm.mem_iff.mp hp)
    · exact ⟨q.request, hr, rfl, rfl⟩
    · exact h.pending p hp

theorem unavailableBeforeSend_eq_none (h : unavailableBeforeSend g s q now = none) :
    s.pending.length ≠ g.configuration.pendingCallCapacity ∧ q.request.messageId ∉ s.pending.map Prod.fst ∧
      q.request.messageId ∉ s.timedOut.map TimedOut.messageId ∧ q.request.messageId ∉ s.retiredOutbound := by
  simp only [unavailableBeforeSend] at h
  split_ifs at h with hexpired hfull hdup
  simp only [not_or] at hdup
  exact ⟨hfull, hdup⟩

theorem transmit_ledger (h : Ledger [q.number] s) (hr : s.enqueued[q.number]? = some q.request)
    (hfresh : q.request.messageId ∉ s.pending.map Prod.fst) (halive : s.alive) (encoded : String) (now : Instant)
    (written : Written) : Ledger [] (transmit g s q encoded now written) := by
  have hh := h.handCall q.request.messageId encoded
  cases written with
  | sent => exact hh.insert hr hfresh halive now
  | failed =>
      have hc : Ledger [] ((s.hand (.call q.number q.request.messageId encoded)).complete q.number
          (.transmissionUncertain .writeFailed q.request.correlationId)) := hh.complete hr rfl nofun
      exact hc.uncertainAll .disconnected
  | aborted =>
      have hc : Ledger [] ((s.hand (.call q.number q.request.messageId encoded)).complete q.number
          (.transmissionUncertain .sessionStopped q.request.correlationId)) := hh.complete hr rfl nofun
      exact hc.finish

section

variable (h : Ledger [] s)

include h

theorem Ledger.forget {id : String} {entry : PendingEntry} (he : (id, entry) ∈ s.pending) :
    Ledger [entry.number] (s.forget id) := by
  have hperm := Keyed.perm_cons_delete h.keys he
  refine ⟨?_, h.keys.sublist (List.filter_sublist.map _), h.queued, fun p hp => h.pending p (List.mem_of_mem_filter hp),
    h.outcomes, h.handed, fun ha => ?_⟩
  · refine .trans ?_ h.tickets
    simp only [Session.tickets, Session.forget, List.nil_append, List.cons_append]
    refine .trans ?_ (((hperm.map _).append_left _).append_right _).symm
    simp only [List.map_cons, List.append_assoc, List.cons_append]
    exact List.perm_middle.symm
  · obtain ⟨-, hnil⟩ := h.ended ha
    rw [hnil] at he
    exact absurd he List.not_mem_nil

theorem expireCall_ledger (id : String) : Ledger [] (expireCall g s id) := by
  rw [expireCall]
  split
  · exact h
  · rename_i entry he
    have hmem := entryFor_eq_some he
    obtain ⟨r, hr, -, hcorr⟩ := h.pending _ hmem
    have hc : Ledger [] ((s.forget id).complete entry.number (.timedOut entry.correlationId)) :=
      (h.forget hmem).complete hr hcorr nofun
    exact ⟨hc.tickets, hc.keys, hc.queued, hc.pending, hc.outcomes, hc.handed, hc.ended⟩

theorem answerPending_ledger {id : String} {entry : PendingEntry} (he : (id, entry) ∈ s.pending)
    (hcorr : o.correlationId = entry.correlationId) (hreply : o.isReply) :
    Ledger [] (answerPending g s id entry o) := by
  obtain ⟨r, hr, -, hcorr'⟩ := h.pending _ he
  have hf := h.forget he
  have hkeep : Ledger [entry.number] (keepReservation g (s.forget id) id entry o) ∧
      (keepReservation g (s.forget id) id entry o).enqueued = s.enqueued := by
    rw [keepReservation]
    split
    · split
      · exact ⟨hf, rfl⟩
      · exact ⟨⟨hf.tickets, hf.keys, hf.queued, hf.pending, hf.outcomes, hf.handed, hf.ended⟩, rfl⟩
    · exact ⟨hf, rfl⟩
  have hc := hkeep.1.complete (o := o) (hkeep.2 ▸ hr) (hcorr'.trans hcorr.symm) (by cases o <;> simp_all
    [claimsNotTransmitted, isReply])
  exact ⟨hc.tickets, hc.keys, hc.queued, hc.pending, hc.outcomes, hc.handed, hc.ended⟩

theorem Ledger.enqueue (halive : s.alive) (hnumber : q.number = s.enqueued.length) :
    Ledger [] { s with outbound := s.outbound ++ [q], enqueued := s.enqueued ++ [q.request] } := by
  have hold : ∀ {n : Nat} {r : OutboundCall}, s.enqueued[n]? = some r → (s.enqueued ++ [q.request])[n]? = some r := by
    intro n r hn
    rw [List.getElem?_append_left (List.getElem?_eq_some_iff.mp hn).1]
    exact hn
  refine ⟨?_, h.keys, ?_, ?_, ?_, ?_, fun ha => by simp [halive] at ha⟩
  · simp only [List.length_append, List.length_singleton, List.range_succ]
    refine .trans ?_ (h.tickets.append_right [s.enqueued.length])
    simp only [Session.tickets, List.map_append, List.map_cons, List.map_nil, List.nil_append, List.append_assoc,
      hnumber]
    refine List.Perm.append_left _ ?_
    rw [← List.append_assoc (s.pending.map _)]
    exact List.perm_append_comm
  · intro q' hq'
    obtain hq' | hq' := List.mem_append.mp hq'
    · exact hold (h.queued q' hq')
    · obtain rfl := List.mem_singleton.mp hq'
      simp [hnumber]
  · intro p hp
    obtain ⟨r, hr, hid, hcorr⟩ := h.pending p hp
    exact ⟨r, hold hr, hid, hcorr⟩
  · intro x hx
    obtain ⟨r, hr, hcorr⟩ := h.outcomes x hx
    exact ⟨r, hold hr, hcorr⟩
  · intro n id hn
    obtain ⟨hbound, hqueue, hclaim⟩ := h.handed n id hn
    simp only [List.length_append, List.length_singleton, List.map_append, List.map_cons, List.map_nil,
      List.mem_append, List.mem_singleton, not_or]
    exact ⟨by omega, ⟨hqueue, by omega⟩, hclaim⟩

theorem Ledger.preserves (e : Event) : Preserves g s e (Ledger []) where
  idle _ := h
  side hs hcore := hs.congr hcore
  uncertain reason hs := hs.uncertainAll reason
  finish hs := hs.finish
  remember _ hs := ⟨hs.tickets, hs.keys, hs.queued, hs.pending, hs.outcomes, hs.handed, hs.ended⟩
  retire _ hs := ⟨hs.tickets, hs.keys, hs.queued, hs.pending, hs.outcomes, hs.handed, hs.ended⟩
  dropTimedOut _ hs := ⟨hs.tickets, hs.keys, hs.queued, hs.pending, hs.outcomes, hs.handed, hs.ended⟩
  expire id hs := expireCall_ledger hs id
  enqueue q _ halive _ hnumber := h.enqueue halive hnumber
  refuse q rest reason _ _ hq := by
    have hmem : q ∈ s.outbound := by simp [hq]
    refine finishNotTransmitted_ledger (h.pop hq) (h.queued q hmem) (fun id hn => ?_) reason
    exact (h.handed _ id hn).2.1 (List.mem_map_of_mem hmem)
  transmit q rest encoded _ halive hq hfree := by
    have hmem : q ∈ s.outbound := by simp [hq]
    exact transmit_ledger (h.pop hq) (h.queued q hmem) (unavailableBeforeSend_eq_none hfree).2.1 halive _ _ _
  answer _ _ hentry hcorr hreply := answerPending_ledger h hentry hcorr hreply

end

theorem run_ledger (g : Setting) (events : List Event) : Ledger [] (.run g events) :=
  run_preserves (fun _ e hs => hs.preserves e) start_ledger events

end Ledger

/-- The map of pending calls and the histories are within their capacities. -/
structure Bounded (g : Setting) (s : Session) : Prop where
  pending : s.pending.length ≤ g.configuration.pendingCallCapacity
  timedOut : s.timedOut.length ≤ g.configuration.diagnosticCapacity
  retiredOutbound : s.retiredOutbound.length ≤ g.configuration.diagnosticCapacity
  recentIncoming : s.recentIncoming.length ≤ g.configuration.diagnosticCapacity

section Bounded

theorem length_retainRecent_le {α : Type} {capacity : Nat} {history : List α} (hpos : capacity ≠ 0)
    (h : history.length ≤ capacity) (entry : α) : (retainRecent capacity history entry).length ≤ capacity := by
  rw [retainRecent]
  split
  · simp only [List.length_append, List.length_drop, List.length_singleton]
    omega
  · simp only [List.length_append, List.length_singleton]
    omega

theorem Setting.diagnosticCapacity_ne (g : Setting) : g.configuration.diagnosticCapacity ≠ 0 := g.valid.2.2.1

namespace Bounded

variable (h : Bounded g s)

include h

theorem transmit {q : QueuedOutbound} (hfree : unavailableBeforeSend g s q now = none)
    (rest : List QueuedOutbound) (encoded : String) (written : Written) :
    Bounded g (transmit g { s with outbound := rest } q encoded now written) := by
  obtain ⟨hroom, hfresh, -, -⟩ := unavailableBeforeSend_eq_none hfree
  cases written with
  | sent =>
      refine ⟨?_, h.timedOut, h.retiredOutbound, h.recentIncoming⟩
      have hlen := (Ordered.insert_perm hfresh (q.entry g now)).length_eq
      have hle := h.pending
      simp only [List.length_cons] at hlen
      simp only [Call.transmit, hand]
      omega
  | failed | aborted => exact ⟨Nat.zero_le _, h.timedOut, h.retiredOutbound, h.recentIncoming⟩

theorem expireCall (id : String) : Bounded g (expireCall g s id) := by
  rw [Call.expireCall]
  split
  · exact h
  · exact ⟨Nat.le_trans (List.length_filter_le _ _) h.pending,
      length_retainRecent_le g.diagnosticCapacity_ne h.timedOut _, h.retiredOutbound, h.recentIncoming⟩

theorem answerPending (id : String) (entry : PendingEntry) (o : SessionCallOutcome) :
    Bounded g (answerPending g s id entry o) := by
  have hpending : (s.forget id).pending.length ≤ g.configuration.pendingCallCapacity :=
    Nat.le_trans (List.length_filter_le _ _) h.pending
  have hkeep : Bounded g (keepReservation g (s.forget id) id entry o) := by
    rw [keepReservation]
    split
    · split
      · exact ⟨hpending, h.timedOut, h.retiredOutbound, h.recentIncoming⟩
      · exact ⟨hpending, length_retainRecent_le g.diagnosticCapacity_ne h.timedOut _, h.retiredOutbound,
          h.recentIncoming⟩
    · exact ⟨hpending, h.timedOut, h.retiredOutbound, h.recentIncoming⟩
  exact ⟨hkeep.pending, hkeep.timedOut, length_retainRecent_le g.diagnosticCapacity_ne hkeep.retiredOutbound _,
    hkeep.recentIncoming⟩

theorem preserves (e : Event) : Preserves g s e (Bounded g) where
  idle _ := h
  side hs hcore := by
    simp only [core, Core.mk.injEq] at hcore
    obtain ⟨-, hpending, htimedOut, hretired, hrecent, -⟩ := hcore
    exact ⟨hpending ▸ hs.pending, htimedOut ▸ hs.timedOut, hretired ▸ hs.retiredOutbound, hrecent ▸ hs.recentIncoming⟩
  uncertain _ hs := ⟨Nat.zero_le _, hs.timedOut, hs.retiredOutbound, hs.recentIncoming⟩
  finish hs := ⟨Nat.zero_le _, hs.timedOut, hs.retiredOutbound, hs.recentIncoming⟩
  remember _ hs :=
    ⟨hs.pending, hs.timedOut, hs.retiredOutbound, length_retainRecent_le g.diagnosticCapacity_ne hs.recentIncoming _⟩
  retire _ hs :=
    ⟨hs.pending, hs.timedOut, length_retainRecent_le g.diagnosticCapacity_ne hs.retiredOutbound _, hs.recentIncoming⟩
  dropTimedOut _ hs :=
    ⟨hs.pending, Nat.le_trans List.eraseP_sublist.length_le hs.timedOut, hs.retiredOutbound, hs.recentIncoming⟩
  expire id hs := hs.expireCall id
  enqueue _ _ _ _ _ := ⟨h.pending, h.timedOut, h.retiredOutbound, h.recentIncoming⟩
  refuse _ _ _ _ _ _ := ⟨h.pending, h.timedOut, h.retiredOutbound, h.recentIncoming⟩
  transmit _ rest encoded _ _ _ hfree := h.transmit hfree rest encoded _
  answer _ _ _ _ _ := h.answerPending _ _ _

end Bounded

theorem run_bounded (g : Setting) (events : List Event) : Bounded g (.run g events) :=
  run_preserves (fun _ e hs => hs.preserves e) ⟨Nat.zero_le _, Nat.zero_le _, Nat.zero_le _, Nat.zero_le _⟩ events

end Bounded

section Attribution

variable {s' : Session}

/-- An outcome that a step gives because of a reply belongs to the pending call that the reply names. -/
def Attributed (s : Session) (e : Event) (x : Nat × SessionCallOutcome) : Prop :=
  x.2.isReply → ∃ m id entry, e = .text m ∧ m.repliesTo id ∧ (id, entry) ∈ s.pending ∧ entry.number = x.1

def Adds (Q : Nat × SessionCallOutcome → Prop) (s s' : Session) : Prop :=
  ∀ x ∈ s'.outcomes, x ∈ s.outcomes ∨ Q x

theorem Adds.append {Q : Nat × SessionCallOutcome → Prop} (h : Adds Q s s') {new : List (Nat × SessionCallOutcome)}
    (hnew : ∀ x ∈ new, Q x) : ∀ x ∈ s'.outcomes ++ new, x ∈ s.outcomes ∨ Q x := by
  intro x hx
  obtain hx | hx := List.mem_append.mp hx
  · exact h x hx
  · exact .inr (hnew x hx)

namespace Adds

variable (h : Adds (Attributed s e) s s')

include h

theorem uncertainAll (reason : TransmissionUncertainReason) :
    Adds (Attributed s e) s (s'.uncertainAll reason) := by
  refine h.append fun x hx => ?_
  obtain ⟨p, -, rfl⟩ := List.mem_map.mp hx
  exact nofun

theorem finish : Adds (Attributed s e) s s'.finish := by
  refine (h.uncertainAll .sessionStopped).append fun x hx => ?_
  obtain ⟨q, -, rfl⟩ := List.mem_map.mp hx
  exact nofun

theorem complete (ho : Attributed s e (n, o)) :
    Adds (Attributed s e) s (s'.complete n o) :=
  h.append (by simpa using ho)

end Adds

theorem adds_refl (s : Session) (e : Event) : Adds (Attributed s e) s s := fun _ hx => .inl hx

theorem attributed_preserves (g : Setting) (s : Session) (e : Event) : Preserves g s e (Adds (Attributed s e) s) where
  idle _ := adds_refl s e
  side := by
    intro t t' ht hcore x hx
    have houtcomes : t'.outcomes = t.outcomes := congrArg Core.outcomes hcore
    exact ht x (houtcomes ▸ hx)
  uncertain reason hs := hs.uncertainAll reason
  finish hs := hs.finish
  remember _ hs := hs
  retire _ hs := hs
  dropTimedOut _ hs := hs
  expire id hs := by
    rw [expireCall]
    split
    · exact hs
    · exact hs.append (by simp [Attributed, isReply])
  enqueue _ _ _ _ _ := adds_refl s e
  refuse _ _ _ _ _ _ := (adds_refl s e).append (by simp [Attributed, isReply])
  transmit := by
    intro now resolved written q rest encoded _ _ _ _
    have hs : Adds (Attributed s e) s
        (hand { s with outbound := rest } (.call q.number q.request.messageId encoded)) := adds_refl s e
    have hlost : ∀ reason c, Attributed s e (q.number, .transmissionUncertain reason c) := fun _ _ => nofun
    cases written with
    | sent => exact hs
    | failed => exact (hs.complete (hlost _ _)).uncertainAll _
    | aborted => exact (hs.complete (hlost _ _)).finish
  answer := by
    intro m id entry o he hid hentry _ _
    have hkeep : (keepReservation g (s.forget id) id entry o).outcomes = s.outcomes := by
      rw [keepReservation]
      split
      · split <;> rfl
      · rfl
    refine Adds.append (fun x hx => .inl (hkeep ▸ hx)) ?_
    intro x hx _
    obtain rfl := List.mem_singleton.mp hx
    exact ⟨m, id, entry, he, hid, hentry, rfl⟩

end Attribution

section Freshness

def Fresh (s : Session) (messageId : String) : Prop :=
  messageId ∉ s.pending.map Prod.fst ∧ messageId ∉ s.timedOut.map TimedOut.messageId ∧ messageId ∉ s.retiredOutbound

def HandsFresh (s s' : Session) : Prop := ∀ y ∈ s'.handed, y ∈ s.handed ∨ Fresh s y.2

theorem handsFresh_refl (s : Session) : HandsFresh s s := fun _ hy => .inl hy

theorem handsFresh_preserves (g : Setting) (s : Session) (e : Event) : Preserves g s e (HandsFresh s) where
  idle _ := handsFresh_refl s
  side := by
    intro t t' ht hcore y hy
    have hhanded : t'.handed = t.handed := congrArg Core.handed hcore
    exact ht y (hhanded ▸ hy)
  uncertain _ hs := hs
  finish hs := hs
  remember _ hs := hs
  retire _ hs := hs
  dropTimedOut _ hs := hs
  expire id hs := by
    rw [expireCall]
    split <;> exact hs
  enqueue _ _ _ _ _ := handsFresh_refl s
  refuse _ _ _ _ _ _ := handsFresh_refl s
  transmit := by
    intro now resolved written q rest encoded _ _ _ hfree
    have hs : HandsFresh s (hand { s with outbound := rest } (.call q.number q.request.messageId encoded)) := by
      intro y hy
      rw [handed_handCall, List.mem_append, List.mem_singleton] at hy
      obtain hy | rfl := hy
      · exact .inl hy
      · exact .inr (unavailableBeforeSend_eq_none hfree).2
    cases written <;> exact hs
  answer := by
    intro m id entry o _ _ _ _ _
    rw [answerPending, keepReservation]
    split
    · split <;> exact handsFresh_refl s
    · exact handsFresh_refl s

end Freshness

/-- The first `N` calls are being worked off: at most `k` of them are queued, and what is pending expires by `T`. -/
structure Waiting (N k T : Nat) (s : Session) : Prop where
  queue : ∃ old new, s.outbound = old ++ new ∧ old.length ≤ k ∧ ∀ q ∈ new, N ≤ q.number
  deadlines : ∀ p ∈ s.pending, p.2.deadline ≤ T
  known : N ≤ s.enqueued.length
  ended : s.alive = false → s.outbound = []

section Progress

variable {N k T : Nat}

theorem Waiting.empty {s' : Session} (houtbound : s'.outbound = []) (hpending : s'.pending = [])
    (hknown : N ≤ s'.enqueued.length) : Waiting N k T s' :=
  ⟨⟨[], [], houtbound, Nat.zero_le _, nofun⟩, by simp [hpending], hknown, fun _ => houtbound⟩

section

variable (h : Waiting N k T s)

include h

theorem Waiting.pop {q : QueuedOutbound} {rest : List QueuedOutbound}
    (hq : s.outbound = q :: rest) : ∃ old new, rest = old ++ new ∧ old.length ≤ k - 1 ∧ ∀ q ∈ new, N ≤ q.number := by
  obtain ⟨old, new, hsplit, hlen, hnew⟩ := h.queue
  rw [hq] at hsplit
  cases old with
  | nil =>
      refine ⟨[], rest, rfl, Nat.zero_le _, fun q' hq' => hnew q' ?_⟩
      rw [List.nil_append] at hsplit
      exact hsplit ▸ List.mem_cons_of_mem q hq'
  | cons q' old =>
      rw [List.cons_append, List.cons.injEq] at hsplit
      rw [List.length_cons] at hlen
      exact ⟨old, new, hsplit.2, by omega, hnew⟩

theorem Waiting.idle (hidle : e.isOutbound → s.alive → s.outbound = []) :
    Waiting N (k - if e.isOutbound then 1 else 0) T s := by
  by_cases he : e.isOutbound
  · have houtbound : s.outbound = [] := by
      cases ha : s.alive with
      | true => exact hidle he ha
      | false => exact h.ended ha
    exact ⟨⟨[], [], houtbound, Nat.zero_le _, nofun⟩, h.deadlines, h.known, h.ended⟩
  · simpa [he] using h

theorem Waiting.expireCall (id : String) : Waiting N k T (expireCall g s id) := by
  rw [Call.expireCall]
  split
  · exact h
  · exact ⟨h.queue, fun p hp => h.deadlines p (List.mem_of_mem_filter hp), h.known, h.ended⟩

theorem Waiting.preserves
    (htime : ∀ now resolved written, e = .outbound now resolved written → now + g.configuration.responseTimeout ≤ T) :
    Preserves g s e (Waiting N (k - if e.isOutbound then 1 else 0) T) where
  idle hidle := h.idle hidle
  side := by
    intro t t' ht hcore
    simp only [core, Core.mk.injEq] at hcore
    obtain ⟨halive, hpending, -, -, -, houtbound, henqueued, -⟩ := hcore
    exact ⟨houtbound ▸ ht.queue, hpending ▸ ht.deadlines, henqueued ▸ ht.known, halive ▸ houtbound ▸ ht.ended⟩
  uncertain _ ht := ⟨ht.queue, List.forall_mem_nil _, ht.known, ht.ended⟩
  finish ht := .empty rfl rfl ht.known
  remember _ ht := ⟨ht.queue, ht.deadlines, ht.known, ht.ended⟩
  retire _ ht := ⟨ht.queue, ht.deadlines, ht.known, ht.ended⟩
  dropTimedOut _ ht := ⟨ht.queue, ht.deadlines, ht.known, ht.ended⟩
  expire id ht := ht.expireCall id
  enqueue q he halive _ hnumber := by
    have hidle := h.idle (e := e) (by cases e <;> simp_all [Event.isEnqueue, Event.isOutbound])
    obtain ⟨old, new, hsplit, hlen, hnew⟩ := hidle.queue
    refine ⟨⟨old, new ++ [q], by simp [hsplit], hlen, ?_⟩, h.deadlines, ?_, fun ha => by simp [halive] at ha⟩
    · intro q' hq'
      obtain hq' | hq' := List.mem_append.mp hq'
      · exact hnew q' hq'
      · obtain rfl := List.mem_singleton.mp hq'
        exact hnumber ▸ h.known
    · simp only [List.length_append, List.length_singleton]
      exact Nat.le_succ_of_le h.known
  refuse := by
    intro now resolved written q rest reason he halive hq
    subst he
    exact ⟨h.pop hq, h.deadlines, h.known, fun ha => absurd halive (by simpa [finishNotTransmitted, complete] using ha)⟩
  transmit := by
    intro now resolved written q rest encoded he halive hq hfree
    have hdeadline := htime now resolved written he
    subst he
    cases written with
    | sent =>
        refine ⟨h.pop hq, ?_, h.known, fun ha => absurd halive (by simpa [transmit, hand] using ha)⟩
        intro p hp
        have hperm := Ordered.insert_perm (unavailableBeforeSend_eq_none hfree).2.1 (q.entry g now)
        obtain rfl | hp := List.mem_cons.mp (hperm.mem_iff.mp hp)
        · exact hdeadline
        · exact h.deadlines p hp
    | failed =>
        exact ⟨h.pop hq, List.forall_mem_nil _, h.known, fun ha => absurd halive (by
          simpa [transmit, hand, complete, uncertainAll] using ha)⟩
    | aborted => exact .empty rfl rfl h.known
  answer := by
    intro m id entry o he _ _ _ _
    subst he
    have hkeep : Waiting N k T (keepReservation g (s.forget id) id entry o) := by
      have hforget : ∀ p ∈ (s.forget id).pending, p.2.deadline ≤ T :=
        fun p hp => h.deadlines p (List.mem_of_mem_filter hp)
      rw [keepReservation]
      split
      · split
        all_goals exact ⟨h.queue, hforget, h.known, h.ended⟩
      · exact ⟨h.queue, hforget, h.known, h.ended⟩
    exact ⟨hkeep.queue, hkeep.deadlines, hkeep.known, hkeep.ended⟩

theorem foldl_waiting {later : List Event}
    (htime : ∀ now resolved written, .outbound now resolved written ∈ later →
      now + g.configuration.responseTimeout ≤ T) :
    Waiting N (k - later.countP Event.isOutbound) T (later.foldl (step g) s) := by
  induction later generalizing s k with
  | nil => exact h
  | cons e later ih =>
      have hstep := (h.preserves (g := g) (e := e) fun now resolved written he =>
        htime now resolved written (by simp [he])).step
      have hrest := ih hstep fun now resolved written hmem => htime now resolved written (List.mem_cons_of_mem e hmem)
      rw [List.countP_cons, Nat.add_comm, ← Nat.sub_sub]
      exact hrest

end

theorem foldl_expireCall_pending (ids : List String) :
    (ids.foldl (expireCall g) s).pending = s.pending.filter (·.1 ∉ ids) := by
  induction ids generalizing s with
  | nil => simp
  | cons id ids ih =>
      have hone : (expireCall g s id).pending = s.pending.filter (·.1 ≠ id) := by
        rw [expireCall]
        split
        · rename_i hnone
          rw [entryFor, Option.map_eq_none_iff, List.find?_eq_none] at hnone
          exact (List.filter_eq_self.mpr (by simpa using hnone)).symm
        · rfl
      rw [List.foldl_cons, ih, hone, List.filter_filter]
      refine List.filter_congr fun p _ => ?_
      by_cases hp : p.1 = id <;> simp [hp]

theorem expireCalls_pending (h : ∀ p ∈ s.pending, p.2.deadline ≤ now) : (expireCalls g s now).pending = [] := by
  rw [expireCalls, foldl_expireCall_pending, List.filter_eq_nil_iff]
  intro p hp
  simp only [decide_eq_true_eq, not_not, List.mem_map, List.mem_filter]
  exact ⟨p, ⟨hp, by simpa using h p hp⟩, rfl⟩

theorem foldl_expireCall_outbound (ids : List String) : (ids.foldl (expireCall g) s).outbound = s.outbound := by
  refine Transition.run_invariant (P := fun t : Session => t.outbound = s.outbound) (fun t id ht => ?_) ids rfl
  rw [expireCall]
  split <;> exact ht

theorem Waiting.settled (h : Waiting N 0 T s) (hledger : Ledger [] s) (hn : n < N) :
    n ∈ (s.step g (.deadline T)).outcomes.map (·.1) := by
  have hstep : Ledger [] (s.step g (.deadline T)) := (hledger.preserves _).step
  have hnone : (s.step g (.deadline T)).pending = [] ∧ (s.step g (.deadline T)).outbound = s.outbound ∧
      (s.step g (.deadline T)).enqueued.length = s.enqueued.length := by
    cases ha : s.alive with
    | true =>
        simp only [step, ha, if_true, turn, outside]
        refine ⟨expireCalls_pending h.deadlines, foldl_expireCall_outbound _, ?_⟩
        refine Transition.run_invariant (P := fun t : Session => t.enqueued.length = s.enqueued.length)
          (fun t id ht => ?_) _ rfl
        rw [Call.expireCall]
        split <;> exact ht
    | false => simp [step, ha, outside, (hledger.ended ha).2]
  obtain ⟨hpending, houtbound, hlength⟩ := hnone
  have hmem : n ∈ (s.step g (.deadline T)).tickets [] := by
    rw [hstep.tickets.mem_iff, List.mem_range, hlength]
    exact Nat.lt_of_lt_of_le hn h.known
  simp only [tickets, hpending, houtbound, List.nil_append, List.map_nil, List.append_nil] at hmem
  obtain hqueued | hdone := List.mem_append.mp hmem
  · obtain ⟨old, new, hsplit, hlen, hnew⟩ := h.queue
    obtain rfl := List.length_eq_zero_iff.mp (Nat.le_zero.mp hlen)
    obtain ⟨q, hq, rfl⟩ := List.mem_map.mp hqueued
    rw [hsplit] at hq
    exact absurd (hnew q hq) (Nat.not_le.mpr hn)
  · exact hdone

end Progress

/-- What callers of a session can rely on, in every run and whatever the peer sends. -/
structure Reliable (g : Setting) (events : List Event) : Prop where
  /-- Each call is queued, waiting for its answer, or has one outcome, and only one of these. -/
  once : ((run g events).tickets []).Perm (List.range (run g events).enqueued.length)
  /-- When the session has ended every call has its outcome, also one that was still queued. -/
  ended : (run g events).alive = false → ∀ n < (run g events).enqueued.length,
    ∃! o, (n, o) ∈ (run g events).outcomes
  /-- A call gets its outcome once the loop has served the calls ahead of it and its deadline has passed. -/
  settled : ∀ later t, (run g events).outbound.length ≤ later.countP Event.isOutbound →
    (∀ p ∈ (run g events).pending, p.2.deadline ≤ t) →
    (∀ now resolved written, .outbound now resolved written ∈ later → now + g.configuration.responseTimeout ≤ t) →
    ∀ n < (run g events).enqueued.length, ∃! o, (n, o) ∈ (run g (events ++ later ++ [.deadline t])).outcomes
  /-- A call that is said not to be transmitted was never handed to the socket. -/
  notTransmitted : ∀ n reason c, (n, .notTransmitted reason c) ∈ (run g events).outcomes →
    ∀ id, (n, id) ∉ (run g events).handed
  /-- An outcome carries the correlation of its own call. -/
  correlated : ∀ x ∈ (run g events).outcomes, ∃ r, (run g events).enqueued[x.1]? = some r ∧
    r.correlationId = x.2.correlationId
  /-- A reply completes the pending call with its message ID and no other. -/
  attributed : ∀ e, ∀ x ∈ (run g (events ++ [e])).outcomes, x.2.isReply →
    x ∈ (run g events).outcomes ∨ ∃ m id entry r, e = .text m ∧ m.repliesTo id ∧
      (id, entry) ∈ (run g events).pending ∧ entry.number = x.1 ∧
      (run g events).enqueued[x.1]? = some r ∧ r.messageId = id
  bounded : Bounded g (.run g events)
  /-- An ID that is pending, timed out or in the recent history is not sent. -/
  fresh : ∀ e, ∀ y ∈ (run g (events ++ [e])).handed, y ∈ (run g events).handed ∨
    Fresh (.run g events) y.2

theorem run_append (g : Setting) (events later : List Event) :
    run g (events ++ later) = later.foldl (step g) (run g events) := List.foldl_append

theorem Ledger.existsUnique {s : Session} (h : Ledger [] s) (hn : n ∈ s.outcomes.map (·.1)) :
    ∃! o, (n, o) ∈ s.outcomes := by
  obtain ⟨⟨m, o⟩, hx, rfl⟩ := List.mem_map.mp hn
  have hnodup : (s.outcomes.map (·.1)).Nodup := (List.nodup_append.mp h.nodup).2.1
  refine ⟨o, hx, fun o' hx' => ?_⟩
  exact congrArg Prod.snd (Keyed.eq_of_key hnodup hx' hx rfl)

theorem Ledger.ended_mem {s : Session} (h : Ledger [] s) (halive : s.alive = false) (hn : n < s.enqueued.length) :
    n ∈ s.outcomes.map (·.1) := by
  obtain ⟨houtbound, hpending⟩ := h.ended halive
  have hmem := h.tickets.mem_iff.mpr (List.mem_range.mpr hn)
  simpa [Session.tickets, houtbound, hpending] using hmem

theorem run_reliable (g : Setting) (events : List Event) : Reliable g events where
  once := (run_ledger g events).tickets
  ended halive _ hn := (run_ledger g events).existsUnique ((run_ledger g events).ended_mem halive hn)
  settled later t hserved hdeadlines htime n hn := by
    have hledger := run_ledger g events
    have hstart : Waiting (run g events).enqueued.length (run g events).outbound.length t
        (.run g events) :=
      ⟨⟨_, [], (List.append_nil _).symm, Nat.le_refl _, nofun⟩, hdeadlines, Nat.le_refl _,
        fun ha => (hledger.ended ha).1⟩
    have hlater := foldl_waiting hstart htime
    rw [Nat.sub_eq_zero_of_le hserved, ← run_append] at hlater
    have hsettled := hlater.settled (run_ledger g _) hn (g := g)
    refine (run_ledger g _).existsUnique ?_
    rw [run_append]
    exact hsettled
  notTransmitted n reason c hx id hhanded := by
    have := ((run_ledger g events).handed n id hhanded).2.2 _ hx rfl
    simp [claimsNotTransmitted] at this
  correlated := (run_ledger g events).outcomes
  attributed e x hx hreply := by
    rw [run_append] at hx
    obtain hold | hnew := (attributed_preserves g (.run g events) e).step x hx
    · exact .inl hold
    · obtain ⟨m, id, entry, he, hid, hentry, hnumber⟩ := hnew hreply
      obtain ⟨r, hr, hmessage, -⟩ := (run_ledger g events).pending _ hentry
      exact .inr ⟨m, id, entry, r, he, hid, hentry, hnumber, hnumber ▸ hr, hmessage⟩
  bounded := run_bounded g events
  fresh e y hy := by
    rw [run_append] at hy
    exact (handsFresh_preserves g (.run g events) e).step y hy

end OcppBridge.Call
