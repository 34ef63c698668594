import OcppBridge.Call.Outcomes

namespace OcppBridge.Call

open Session

variable {g : Setting} {s s' : Session} {e : Event}

def Session.line (s : Session) : List Nat := s.handed.map Prod.fst ++ s.outbound.map QueuedOutbound.number

/-- The outcome leaves it open that the frame was written, so that it was, or the session ended before its turn. -/
def Session.Accounts (s : Session) (x : Nat × SessionCallOutcome) : Prop :=
  x.2.claimsNotTransmitted = true ∨ (∃ id, (x.1, id) ∈ s.handed) ∨ (s.alive = false ∧ ∀ y ∈ s.handed, y.1 < x.1)

structure InLine (s : Session) : Prop where
  increasing : s.line.Pairwise (· < ·)
  issued : ∀ n ∈ s.line, n < s.enqueued.length
  named : ∀ y ∈ s.handed, ∃ r, s.enqueued[y.1]? = some r ∧ r.messageId = y.2
  waiting : ∀ p ∈ s.pending, (p.2.number, p.1) ∈ s.handed
  reported : ∀ x ∈ s.outcomes, s.Accounts x

namespace InLine

variable {q : QueuedOutbound}

section

variable (h : InLine s)

include h

theorem handed_lt {y : Nat × String} (hy : y ∈ s.handed) (hq : q ∈ s.outbound) : y.1 < q.number :=
  (List.pairwise_append.mp h.increasing).2.2 _ (List.mem_map_of_mem hy) _ (List.mem_map_of_mem hq)

theorem settle (hhanded : s'.handed = s.handed) (hqueue : s'.outbound.Sublist s.outbound)
    (henqueued : s'.enqueued = s.enqueued) (hpending : ∀ p ∈ s'.pending, p ∈ s.pending)
    (halive : s.alive = false → s'.alive = false)
    (houtcomes : ∀ x ∈ s'.outcomes, x ∈ s.outcomes ∨ s'.Accounts x) : InLine s' := by
  have hline : s'.line.Sublist s.line := by
    rw [line, line, hhanded]
    exact (List.Sublist.refl _).append (hqueue.map _)
  refine ⟨h.increasing.sublist hline, fun n hn => ?_, ?_, fun p hp => ?_, fun x hx => ?_⟩
  · rw [henqueued]
    exact h.issued n (hline.subset hn)
  · rw [hhanded, henqueued]
    exact h.named
  · rw [hhanded]
    exact h.waiting p (hpending p hp)
  · obtain hx | hx := houtcomes x hx
    · refine (h.reported x hx).imp_right fun hopen => ?_
      rw [hhanded]
      exact hopen.imp_right fun hended => ⟨halive hended.1, hended.2⟩
    · exact hx

theorem side (hcore : s'.core = s.core) : InLine s' := by
  simp only [core, Core.mk.injEq] at hcore
  obtain ⟨halive, hpending, -, -, -, houtbound, henqueued, houtcomes, hhanded⟩ := hcore
  refine h.settle hhanded (houtbound ▸ .refl _) henqueued (fun p hp => hpending ▸ hp) (fun ha => halive ▸ ha) ?_
  intro x hx
  exact .inl (houtcomes ▸ hx)

theorem uncertainAll (reason : TransmissionUncertainReason) : InLine (s.uncertainAll reason) := by
  refine h.settle rfl (.refl _) rfl nofun id fun x hx => ?_
  obtain hx | hx := List.mem_append.mp hx
  · exact .inl hx
  · obtain ⟨p, hp, rfl⟩ := List.mem_map.mp hx
    exact .inr (.inr (.inl ⟨p.1, h.waiting p hp⟩))

theorem finish : InLine s.finish := by
  have hall := h.uncertainAll .sessionStopped
  refine hall.settle rfl (List.nil_sublist _) rfl (fun p hp => hp) (fun _ => rfl) fun x hx => ?_
  obtain hx | hx := List.mem_append.mp hx
  · exact .inl hx
  · obtain ⟨q, hq, rfl⟩ := List.mem_map.mp hx
    exact .inr (.inr (.inr ⟨rfl, fun y hy => h.handed_lt hy hq⟩))

theorem forget {id : String} {entry : PendingEntry} (hentry : (id, entry) ∈ s.pending)
    (o : SessionCallOutcome) : InLine ((s.forget id).complete entry.number o) := by
  refine h.settle rfl (.refl _) rfl (fun p hp => List.mem_of_mem_filter hp) (fun ha => ha) fun x hx => ?_
  obtain hx | hx := List.mem_append.mp hx
  · exact .inl hx
  · obtain rfl := List.mem_singleton.mp hx
    exact .inr (.inr (.inl ⟨id, h.waiting _ hentry⟩))

theorem handCall (halive : s.alive = true) (hledger : Ledger [] s) {rest : List QueuedOutbound}
    (hq : s.outbound = q :: rest) (encoded : String) :
    InLine (hand { s with outbound := rest } (.call q.number q.request.messageId encoded)) := by
  have hmem : q ∈ s.outbound := hq ▸ List.mem_cons_self
  have hhanded := handed_handCall (s := { s with outbound := rest }) q.number q.request.messageId encoded
  have hline : (hand { s with outbound := rest } (.call q.number q.request.messageId encoded)).line = s.line := by
    rw [line, hhanded, line, hq]
    simp [hand, handed]
  refine ⟨hline ▸ h.increasing, hline ▸ h.issued, ?_, fun p hp => ?_, fun x hx => ?_⟩
  · rw [hhanded]
    intro y hy
    obtain hy | hy := List.mem_append.mp hy
    · exact h.named y hy
    · obtain rfl := List.mem_singleton.mp hy
      exact ⟨q.request, hledger.queued q hmem, rfl⟩
  · rw [hhanded]
    exact List.mem_append_left _ (h.waiting p hp)
  · refine (h.reported x hx).imp_right ?_
    rintro (⟨id, hid⟩ | ⟨hended, -⟩)
    · exact .inl ⟨id, hhanded ▸ List.mem_append_left _ hid⟩
    · rw [halive] at hended
      cases hended

theorem transmit (halive : s.alive = true) (hledger : Ledger [] s) {rest : List QueuedOutbound}
    (hq : s.outbound = q :: rest) {now : Instant} (hfree : unavailableBeforeSend g s q now = none) (encoded : String)
    (written : Written) : InLine (transmit g { s with outbound := rest } q encoded now written) := by
  have hhand := h.handCall halive hledger hq encoded
  have hmine : (q.number, q.request.messageId) ∈
      (hand { s with outbound := rest } (.call q.number q.request.messageId encoded)).handed := by
    rw [handed_handCall]
    exact List.mem_append_right _ (List.mem_singleton_self _)
  have huncertain : ∀ reason, InLine ((hand { s with outbound := rest }
      (.call q.number q.request.messageId encoded)).complete q.number
        (.transmissionUncertain reason q.request.correlationId)) := by
    intro reason
    refine hhand.settle rfl (.refl _) rfl (fun p hp => hp) (fun ha => ha) fun x hx => ?_
    obtain hx | hx := List.mem_append.mp hx
    · exact .inl hx
    · obtain rfl := List.mem_singleton.mp hx
      exact .inr (.inr (.inl ⟨_, hmine⟩))
  cases written with
  | sent =>
      refine ⟨hhand.increasing, hhand.issued, hhand.named, fun p hp => ?_, hhand.reported⟩
      have hperm := Ordered.insert_perm (unavailableBeforeSend_eq_none hfree).2.1 (q.entry g now)
      obtain rfl | hp := List.mem_cons.mp (hperm.mem_iff.mp hp)
      · exact hmine
      · exact hhand.waiting p hp
  | failed => exact (huncertain _).uncertainAll _
  | aborted => exact (huncertain _).finish

theorem enqueue (q : QueuedOutbound) (hnumber : q.number = s.enqueued.length) :
    InLine { s with outbound := s.outbound ++ [q], enqueued := s.enqueued ++ [q.request] } := by
  have hline : line { s with outbound := s.outbound ++ [q], enqueued := s.enqueued ++ [q.request] } =
      s.line ++ [s.enqueued.length] := by
    simp [line, handed, hnumber]
  refine ⟨?_, ?_, fun y hy => ?_, h.waiting, h.reported⟩
  · rw [hline]
    refine List.pairwise_append.mpr ⟨h.increasing, List.pairwise_singleton _ _, fun n hn m hm => ?_⟩
    obtain rfl := List.mem_singleton.mp hm
    exact h.issued n hn
  · rw [hline, List.length_append, List.length_singleton]
    intro n hn
    obtain hn | hn := List.mem_append.mp hn
    · exact Nat.lt_succ_of_lt (h.issued n hn)
    · exact List.mem_singleton.mp hn ▸ Nat.lt_succ_self _
  · obtain ⟨r, hr, hid⟩ := h.named y hy
    exact ⟨r, List.getElem?_append_left (List.getElem?_eq_some_iff.mp hr).1 ▸ hr, hid⟩

theorem preserves (hledger : Ledger [] s) (e : Event) : Preserves g s e InLine where
  idle _ := h
  side hs hcore := hs.side hcore
  uncertain reason hs := hs.uncertainAll reason
  finish hs := hs.finish
  remember _ hs := ⟨hs.increasing, hs.issued, hs.named, hs.waiting, hs.reported⟩
  retire _ hs := ⟨hs.increasing, hs.issued, hs.named, hs.waiting, hs.reported⟩
  dropTimedOut _ hs := ⟨hs.increasing, hs.issued, hs.named, hs.waiting, hs.reported⟩
  expire id hs := by
    rw [expireCall]
    split
    · exact hs
    · rename_i entry hentry
      have hforget := hs.forget (entryFor_eq_some hentry) (.timedOut entry.correlationId)
      exact ⟨hforget.increasing, hforget.issued, hforget.named, hforget.waiting, hforget.reported⟩
  enqueue q _ _ _ hnumber := h.enqueue q hnumber
  refuse q rest reason _ _ hq := by
    refine h.settle rfl (hq ▸ List.sublist_cons_self _ _) rfl (fun p hp => hp) (fun ha => ha) fun x hx => ?_
    obtain hx | hx := List.mem_append.mp hx
    · exact .inl hx
    · obtain rfl := List.mem_singleton.mp hx
      exact .inr (.inl rfl)
  transmit q rest encoded _ halive hq hfree := h.transmit halive hledger hq hfree encoded _
  answer := by
    intro m id entry o _ _ hentry _ _
    have hforget := h.forget hentry o
    rw [answerPending, keepReservation]
    split
    · split
      all_goals exact ⟨hforget.increasing, hforget.issued, hforget.named, hforget.waiting, hforget.reported⟩
    · exact ⟨hforget.increasing, hforget.issued, hforget.named, hforget.waiting, hforget.reported⟩

end

end InLine

theorem run_inLine (g : Setting) (events : List Event) : InLine (.run g events) := by
  induction events using List.reverseRecOn with
  | nil =>
      refine ⟨.nil, ?_, ?_, ?_, ?_⟩ <;> simp [run, start, line, handed]
  | append_singleton events e ih =>
      rw [run_append]
      exact (ih.preserves (run_ledger g events) e).step

/-- Calls go out in the order of their admission, each at most once and under its own message ID, and none is passed
over unless it was reported as not sent. -/
theorem run_transmits_in_order (g : Setting) (events : List Event) :
    ((run g events).handed.map Prod.fst).Pairwise (· < ·) ∧
    (∀ y ∈ (run g events).handed,
      ∃ r, (run g events).enqueued[y.1]? = some r ∧ r.messageId = y.2) ∧
    ∀ y ∈ (run g events).handed, ∀ n < y.1, (∃ id, (n, id) ∈ (run g events).handed) ∨
      ∃ reason c, (n, .notTransmitted reason c) ∈ (run g events).outcomes := by
  have h := run_inLine g events
  have hledger := run_ledger g events
  refine ⟨(List.pairwise_append.mp h.increasing).1, h.named, fun y hy n hn => ?_⟩
  have hissued := h.issued y.1 (List.mem_append_left _ (List.mem_map_of_mem hy))
  have hticket := hledger.tickets.mem_iff.mpr (List.mem_range.mpr (hn.trans hissued))
  simp only [tickets, List.nil_append, List.mem_append, List.mem_map] at hticket
  obtain (⟨q, hq, rfl⟩ | ⟨p, hp, rfl⟩) | ⟨⟨m, o⟩, hx, rfl⟩ := hticket
  · exact absurd (h.handed_lt hy hq) (Nat.not_lt.mpr hn.le)
  · exact .inl ⟨p.1, h.waiting p hp⟩
  · obtain hclaim | hhanded | ⟨-, hlate⟩ := h.reported _ hx
    · cases o with
      | notTransmitted reason c => exact .inr ⟨reason, c, hx⟩
      | result | error | timedOut | transmissionUncertain => cases hclaim
    · exact .inl hhanded
    · exact absurd (hlate y hy) (Nat.not_lt.mpr hn.le)

end OcppBridge.Call
