import OcppBridge.Resource.Admission
import OcppBridge.Transition
import Mathlib.Algebra.BigOperators.Group.List.Basic
import Mathlib.Algebra.Ring.Nat

namespace OcppBridge.Resource

open Transaction Budget

section Sums

variable (p : WorkClass → Bool) (c : WorkClass)

def pick (n : Nat) : Nat := if p c then n else 0

def bytesOf (rs : List RuntimeReservation) : Nat := (rs.map fun r => pick p r.workClass r.bytes).sum

def itemsOf (rs : List RuntimeReservation) : Nat := rs.countP (·.workClass = c)

@[simp] theorem pick_zero : pick p c 0 = 0 := by simp [pick]

theorem pick_add (m n : Nat) : pick p c (m + n) = pick p c m + pick p c n := by
  by_cases h : p c <;> simp [pick, h]

theorem pick_true (n : Nat) : pick (fun _ => true) c n = n := if_pos rfl

@[simp] theorem bytesOf_nil : bytesOf p [] = 0 := rfl

@[simp] theorem bytesOf_cons (r : RuntimeReservation) (rs : List RuntimeReservation) :
    bytesOf p (r :: rs) = pick p r.workClass r.bytes + bytesOf p rs := List.sum_cons

@[simp] theorem itemsOf_nil : itemsOf c [] = 0 := rfl

@[simp] theorem itemsOf_cons (r : RuntimeReservation) (rs : List RuntimeReservation) :
    itemsOf c (r :: rs) = itemsOf c rs + if c = r.workClass then 1 else 0 := by
  simp [itemsOf, List.countP_cons, eq_comm]

variable {p c}

theorem bytesOf_erase {r : RuntimeReservation} {rs : List RuntimeReservation} (h : r ∈ rs) :
    pick p r.workClass r.bytes + bytesOf p (rs.erase r) = bytesOf p rs :=
  List.sum_map_erase (fun r : RuntimeReservation => pick p r.workClass r.bytes) h

theorem itemsOf_erase {r : RuntimeReservation} {rs : List RuntimeReservation} (h : r ∈ rs) :
    itemsOf c (rs.erase r) + (if c = r.workClass then 1 else 0) = itemsOf c rs := by
  have hperm := (List.perm_cons_erase h).countP_eq (·.workClass = c)
  rw [itemsOf, itemsOf, hperm, List.countP_cons]
  simp [eq_comm]

end Sums

section Deferred

variable (deferred : Slot → DeferredRelease) (p : WorkClass → Bool) (c : WorkClass)

def deferredBytes : Nat :=
  pick p .diagnostic (deferred .diagnostic).bytes + pick p .captureTrace (deferred .capture).bytes

def deferredItems : Nat :=
  (if c = .diagnostic then (deferred .diagnostic).items else 0) +
    if c = .captureTrace then (deferred .capture).items else 0

theorem deferredBytes_update (slot : Slot) (released : DeferredRelease) :
    deferredBytes (Function.update deferred slot released) p + pick p slot.workClass (deferred slot).bytes =
      deferredBytes deferred p + pick p slot.workClass released.bytes := by
  cases slot <;> simp [deferredBytes, Slot.workClass] <;> omega

theorem deferredItems_update (slot : Slot) (released : DeferredRelease) :
    deferredItems (Function.update deferred slot released) c +
      (if c = slot.workClass then (deferred slot).items else 0) =
      deferredItems deferred c + if c = slot.workClass then released.items else 0 := by
  cases slot <;> simp only [deferredItems, Slot.workClass] <;> split_ifs <;> simp_all [Nat.add_comm]

end Deferred

def Operation.inHand : Operation → List RuntimeReservation
  | .resize r _ => [r]
  | .release r => [r]
  | _ => []

def Operation.station : Operation → Nat
  | .dropStation => 1
  | _ => 0

def Progress.carried (p : WorkClass → Bool) : Progress → Nat
  | .swapItems slot bytes => pick p slot.workClass bytes
  | _ => 0

namespace Budget

variable (b : Budget) (p : WorkClass → Bool) (c : WorkClass)

def inHand : List RuntimeReservation := b.holder.elim [] (·.operation.inHand)

def carried : Nat := b.holder.elim 0 (·.progress.carried p)

def charged : Nat :=
  bytesOf p b.live + bytesOf p b.inHand + bytesOf p b.owedBytes + deferredBytes b.deferred p + b.carried p

def chargedItems : Nat := itemsOf c b.live + itemsOf c b.inHand + b.owedItems.count c + deferredItems b.deferred c

def chargedStations : Nat := b.stations + b.holder.elim 0 (·.operation.station)

/-- The reservations that are held by someone. -/
def reservations : List RuntimeReservation := b.holder.elim [] (·.operation.kept) ++ b.live

def Drained : Prop := b.holder = none ∧ b.owedBytes = [] ∧ b.owedItems = [] ∧ ∀ slot, b.deferred slot = {}

def settled : Usage where
  connectedStations := b.usage.connectedStations
  queuedPayloadBytes :=
    b.usage.queuedPayloadBytes - (deferredBytes b.deferred (fun _ => true) + b.carried fun _ => true)
  traceRingBytes :=
    b.usage.traceRingBytes - (deferredBytes b.deferred (· = .captureTrace) + b.carried (· = .captureTrace))
  items c := b.usage.items c - deferredItems b.deferred c

structure Owing : Prop where
  bytes : ∀ r ∈ b.owedBytes, r.workClass.isDeferred
  items : ∀ c ∈ b.owedItems, c.isDeferred

end Budget

theorem Slot.of_workClass {c : WorkClass} (h : c.isDeferred) : (Slot.of c).workClass = c := by
  cases c <;> first | rfl | simp [WorkClass.isDeferred] at h

inductive Books (l : RuntimeResourceLimits) (b b' : Budget) : Prop
  | same (usage : b'.usage = b.usage) (saturated : b'.saturated = b.saturated)
      (bytes : ∀ p, b'.charged p = b.charged p) (items : ∀ c, b'.chargedItems c = b.chargedItems c)
      (stations : b'.chargedStations = b.chargedStations)
  | charge (c : WorkClass) (n k : Nat) (admitted : admitBytes l b.usage c n = .ok ())
      (room : k = 0 ∨ b.usage.items c + k ≤ itemLimit l c)
      (usage : b'.usage = b.usage.charge c n k) (saturated : b'.saturated = b.saturated)
      (bytes : ∀ p, b'.charged p = b.charged p + pick p c n)
      (items : ∀ d, b'.chargedItems d = b.chargedItems d + if d = c then k else 0)
      (stations : b'.chargedStations = b.chargedStations)
  | discharge (c : WorkClass) (n k : Nat) (usage : b'.usage = b.usage.discharge c n k)
      (saturated : b'.saturated = (b.saturated || !decide (b.usage.Covers c n k)))
      (bytes : ∀ p, b'.charged p + pick p c n = b.charged p)
      (items : ∀ d, b'.chargedItems d + (if d = c then k else 0) = b.chargedItems d)
      (stations : b'.chargedStations = b.chargedStations)
  | admitStation (room : b.usage.connectedStations < l.maximumConnectedStations)
      (usage : b'.usage = { b.usage with connectedStations := b.usage.connectedStations + 1 })
      (saturated : b'.saturated = b.saturated) (bytes : ∀ p, b'.charged p = b.charged p)
      (items : ∀ c, b'.chargedItems c = b.chargedItems c) (stations : b'.chargedStations = b.chargedStations + 1)
  | dropStation (usage : b'.usage = { b.usage with connectedStations := b.usage.connectedStations - 1 })
      (saturated : b'.saturated = (b.saturated || b.usage.connectedStations == 0))
      (bytes : ∀ p, b'.charged p = b.charged p) (items : ∀ c, b'.chargedItems c = b.chargedItems c)
      (stations : b'.chargedStations + 1 = b.chargedStations)

structure Balanced (l : RuntimeResourceLimits) (b : Budget) : Prop where
  queued : b.usage.queuedPayloadBytes = b.charged fun _ => true
  trace : b.usage.traceRingBytes = b.charged (· = .captureTrace)
  items : ∀ c, b.usage.items c = b.chargedItems c
  stations : b.usage.connectedStations = b.chargedStations
  aggregate : b.usage.queuedPayloadBytes ≤ l.aggregateQueuedPayloadBytes
  noncritical :
    b.charged (!·.isCritical) ≤ l.aggregateQueuedPayloadBytes - l.reservedCriticalPayloadBytes
  itemLimits : ∀ c, b.usage.items c ≤ itemLimit l c
  stationLimit : b.usage.connectedStations ≤ l.maximumConnectedStations
  unsaturated : b.saturated = false

variable {l : RuntimeResourceLimits} {b b' : Budget} {c : WorkClass}

section Preservation

theorem admitBytes_eq_ok {u : Usage} {n : Nat} :
    admitBytes l u c n = .ok () ↔ (c = .captureTrace → saturatingAdd u.traceRingBytes n ≤ l.traceRingBytes) ∧
      u.queuedPayloadBytes + n ≤ usizeMax ∧ u.queuedPayloadBytes + n ≤ maximumBytes l c := by
  simp [admitBytes]

theorem charged_noncritical_le (b : Budget) : b.charged (!·.isCritical) ≤ b.charged fun _ => true := by
  have hpick : ∀ c n, pick (!·.isCritical) c n ≤ pick (fun _ => true) c n := by
    intro c n
    rw [pick_true]
    by_cases h : c.isCritical <;> simp [pick, h]
  have hbytes : ∀ rs, bytesOf (!·.isCritical) rs ≤ bytesOf (fun _ => true) rs := by
    intro rs
    induction rs with
    | nil => exact Nat.le_refl _
    | cons r rs ih =>
        rw [bytesOf_cons, bytesOf_cons]
        exact Nat.add_le_add (hpick _ _) ih
  have hcarried : b.carried (!·.isCritical) ≤ b.carried fun _ => true := by
    cases hh : b.holder with
    | none => simp [carried, hh]
    | some h => cases hp : h.progress <;> simp [carried, hh, hp, Progress.carried, hpick]
  have hdeferred : deferredBytes b.deferred (!·.isCritical) ≤ deferredBytes b.deferred fun _ => true :=
    Nat.add_le_add (hpick _ _) (hpick _ _)
  have h₁ := hbytes b.live
  have h₂ := hbytes b.inHand
  have h₃ := hbytes b.owedBytes
  simp only [charged]
  omega

theorem maximumBytes_le (l : RuntimeResourceLimits) (c : WorkClass) :
    maximumBytes l c ≤ l.aggregateQueuedPayloadBytes := by
  by_cases h : c.isCritical <;> simp [maximumBytes, h]

theorem Balanced.charge (hb : Balanced l b) {n k : Nat} (hgranted : admitBytes l b.usage c n = .ok ())
    (hroom : k = 0 ∨ b.usage.items c + k ≤ itemLimit l c) (husage : b'.usage = b.usage.charge c n k)
    (hsat : b'.saturated = b.saturated) (hbytes : ∀ p, b'.charged p = b.charged p + pick p c n)
    (hitems : ∀ d, b'.chargedItems d = b.chargedItems d + if d = c then k else 0)
    (hstations : b'.chargedStations = b.chargedStations) : Balanced l b' := by
  obtain ⟨-, -, hmax⟩ := admitBytes_eq_ok.mp hgranted
  have hq : b'.usage.queuedPayloadBytes = b.usage.queuedPayloadBytes + n := by rw [husage]; rfl
  have hi : ∀ d, b'.usage.items d = b.usage.items d + if d = c then k else 0 := by
    intro d
    rw [husage]
    by_cases h : d = c
    · subst h
      simp [Usage.charge]
    · simp [Usage.charge, h]
  refine ⟨?_, ?_, ?_, ?_, ?_, ?_, ?_, ?_, ?_⟩
  · rw [hq, hb.queued, hbytes, pick_true]
  · rw [hbytes, husage, ← hb.trace]
    by_cases h : c = .captureTrace <;> simp [Usage.charge, pick, h]
  · intro d
    rw [hi, hitems, hb.items]
  · rw [hstations, husage]
    exact hb.stations
  · rw [hq]
    exact Nat.le_trans hmax (maximumBytes_le l c)
  · rw [hbytes]
    cases hc : c.isCritical with
    | true => simpa [pick, hc] using hb.noncritical
    | false =>
        -- the check was made against the whole queue, so against its non-critical part too
        have hle := charged_noncritical_le b
        rw [← hb.queued] at hle
        simp only [maximumBytes, hc] at hmax
        simp only [pick, hc]
        simp at hmax ⊢
        omega
  · intro d
    rw [hi]
    have hlim := hb.itemLimits d
    by_cases h : d = c
    · subst h
      rw [if_pos rfl]
      rcases hroom with rfl | h
      · exact hlim
      · exact h
    · rw [if_neg h]
      exact hlim
  · rw [husage]
    exact hb.stationLimit
  · rw [hsat, hb.unsaturated]

theorem Balanced.discharge (hb : Balanced l b) {n k : Nat} (husage : b'.usage = b.usage.discharge c n k)
    (hsat : b'.saturated = (b.saturated || !decide (b.usage.Covers c n k)))
    (hbytes : ∀ p, b'.charged p + pick p c n = b.charged p)
    (hitems : ∀ d, b'.chargedItems d + (if d = c then k else 0) = b.chargedItems d)
    (hstations : b'.chargedStations = b.chargedStations) : Balanced l b' := by
  have hall := hbytes fun _ => true
  rw [pick_true, ← hb.queued] at hall
  have htrace := hbytes (· = .captureTrace)
  rw [← hb.trace] at htrace
  have hcovers : b.usage.Covers c n k := by
    refine ⟨by omega, fun h => ?_, ?_⟩
    · simp only [pick, h, decide_true, if_true] at htrace
      omega
    · have := hitems c
      rw [if_pos rfl, ← hb.items] at this
      omega
  have hq : b'.usage.queuedPayloadBytes = b.usage.queuedPayloadBytes - n := by rw [husage]; rfl
  have hi : ∀ d, b'.usage.items d = b.usage.items d - if d = c then k else 0 := by
    intro d
    rw [husage]
    by_cases h : d = c
    · subst h
      simp [Usage.discharge]
    · simp [Usage.discharge, h]
  refine ⟨?_, ?_, ?_, ?_, ?_, ?_, ?_, ?_, ?_⟩
  · omega
  · rw [husage]
    by_cases h : c = .captureTrace
    · simp only [pick, h, decide_true, if_true] at htrace
      simp only [Usage.discharge, h, if_true]
      omega
    · simp only [pick, h, decide_false] at htrace
      simp only [Usage.discharge, h, if_false]
      exact htrace.symm
  · intro d
    have := hitems d
    rw [hi, hb.items]
    omega
  · rw [hstations, husage]
    exact hb.stations
  · have := hb.aggregate
    omega
  · have := hbytes (!·.isCritical)
    have := hb.noncritical
    omega
  · intro d
    have := hb.itemLimits d
    rw [hi]
    omega
  · rw [husage]
    exact hb.stationLimit
  · rw [hsat, hb.unsaturated]
    simpa using hcovers

theorem Books.balanced (h : Books l b b') (hb : Balanced l b) : Balanced l b' := by
  cases h with
  | same husage hsat hbytes hitems hstations =>
      refine ⟨?_, ?_, ?_, ?_, ?_, ?_, ?_, ?_, hsat.trans hb.unsaturated⟩
      · rw [husage, hbytes, hb.queued]
      · rw [husage, hbytes, hb.trace]
      · exact fun c => by rw [husage, hitems, hb.items]
      · rw [husage, hstations, hb.stations]
      · exact husage ▸ hb.aggregate
      · exact hbytes _ ▸ hb.noncritical
      · exact husage ▸ hb.itemLimits
      · exact husage ▸ hb.stationLimit
  | charge c n k hgranted hroom husage hsat hbytes hitems hstations =>
      exact hb.charge hgranted hroom husage hsat hbytes hitems hstations
  | discharge c n k husage hsat hbytes hitems hstations =>
      exact hb.discharge husage hsat hbytes hitems hstations
  | admitStation hroom husage hsat hbytes hitems hstations =>
      refine ⟨?_, ?_, ?_, ?_, ?_, ?_, ?_, ?_, hsat.trans hb.unsaturated⟩
      · rw [husage, hbytes, ← hb.queued]
      · rw [husage, hbytes, ← hb.trace]
      · exact fun c => by rw [husage, hitems, ← hb.items]
      · rw [husage, hstations, ← hb.stations]
      · exact husage ▸ hb.aggregate
      · exact hbytes _ ▸ hb.noncritical
      · exact husage ▸ hb.itemLimits
      · exact husage ▸ hroom
  | dropStation husage hsat hbytes hitems hstations =>
      have hpos := hb.stations
      refine ⟨?_, ?_, ?_, ?_, ?_, ?_, ?_, ?_, ?_⟩
      · rw [husage, hbytes, ← hb.queued]
      · rw [husage, hbytes, ← hb.trace]
      · exact fun c => by rw [husage, hitems, ← hb.items]
      · rw [husage]
        simp only
        omega
      · exact husage ▸ hb.aggregate
      · exact hbytes _ ▸ hb.noncritical
      · exact husage ▸ hb.itemLimits
      · rw [husage]
        exact Nat.le_trans (Nat.sub_le _ _) hb.stationLimit
      · rw [hsat, hb.unsaturated]
        simp only [Bool.false_or, beq_eq_false_iff_ne]
        omega

end Preservation

section Step

variable {op : Operation} {r : RuntimeReservation} {n : Nat}

theorem Books.refl (l : RuntimeResourceLimits) (b : Budget) : Books l b b :=
  .same rfl rfl (fun _ => rfl) (fun _ => rfl) rfl

theorem lockUsage_books (hfree : b.holder = none) (hhand : op.inHand = []) (hstation : op.station = 0) :
    Books l b (b.lockUsage op) := by
  refine .same rfl rfl (fun p => ?_) (fun c => ?_) ?_
  · simp [charged, inHand, carried, lockUsage, Progress.carried, hfree, hhand]
  · simp [chargedItems, inHand, lockUsage, hfree, hhand]
  · simp [chargedStations, lockUsage, hfree, hstation]

theorem take_lockUsage_books (hfree : b.holder = none) (hr : r ∈ b.live) (hhand : op.inHand = [r])
    (hstation : op.station = 0) : Books l b ((b.take r).lockUsage op) := by
  refine .same rfl rfl (fun p => ?_) (fun c => ?_) ?_
  · have := bytesOf_erase (p := p) hr
    simp only [charged, inHand, carried, lockUsage, take,
      Progress.carried, hfree, hhand, Option.elim_some, Option.elim_none, bytesOf_cons, bytesOf_nil]
    omega
  · have := itemsOf_erase (c := c) hr
    simp only [chargedItems, inHand, lockUsage, take, hfree, hhand,
      Option.elim_some, Option.elim_none, itemsOf_cons, itemsOf_nil]
    omega
  · simp [chargedStations, lockUsage, take, hfree, hstation]

theorem drop_deferred_books (hr : r ∈ b.live) :
    Books l b { b.take r with owedBytes := r :: b.owedBytes, owedItems := r.workClass :: b.owedItems } := by
  refine .same rfl rfl (fun p => ?_) (fun c => ?_) rfl
  · have := bytesOf_erase (p := p) hr
    simp only [charged, inHand, carried, take, bytesOf_cons]
    omega
  · have := itemsOf_erase (c := c) hr
    simp only [chargedItems, inHand, take, List.count_cons, beq_iff_eq, eq_comm (b := c)]
    omega

theorem addBytes_books (howing : b.Owing) (hr : r ∈ b.owedBytes) : Books l b (b.step l (.addBytes r)) := by
  simp only [step, if_pos hr]
  refine .same rfl rfl (fun p => ?_) (fun c => ?_) rfl
  · have hd := deferredBytes_update b.deferred p (.of r.workClass)
      { b.deferred (.of r.workClass) with bytes := (b.deferred (.of r.workClass)).bytes + r.bytes }
    rw [Slot.of_workClass (howing.bytes r hr), pick_add] at hd
    have := bytesOf_erase (p := p) hr
    simp only [charged, inHand, carried, setDeferred] at hd ⊢
    omega
  · have hd := deferredItems_update b.deferred c (.of r.workClass)
      { b.deferred (.of r.workClass) with bytes := (b.deferred (.of r.workClass)).bytes + r.bytes }
    simp only [chargedItems, inHand, setDeferred] at hd ⊢
    omega

theorem addItem_books (howing : b.Owing) (hc : c ∈ b.owedItems) : Books l b (b.step l (.addItem c)) := by
  simp only [step, if_pos hc]
  refine .same rfl rfl (fun p => ?_) (fun d => ?_) rfl
  · have hd := deferredBytes_update b.deferred p (.of c)
      { b.deferred (.of c) with items := (b.deferred (.of c)).items + 1 }
    simp only [charged, inHand, carried, setDeferred] at hd ⊢
    omega
  · have hd := deferredItems_update b.deferred d (.of c)
      { b.deferred (.of c) with items := (b.deferred (.of c)).items + 1 }
    rw [Slot.of_workClass (howing.items c hc)] at hd
    have hcount : (b.owedItems.erase c).count d + (if d = c then 1 else 0) = b.owedItems.count d := by
      rw [(List.perm_cons_erase hc).count_eq d, List.count_cons]
      by_cases h : d = c
      · simp [h]
      · simp [h, Ne.symm h]
    simp only [chargedItems, inHand, setDeferred] at hd ⊢
    by_cases h : d = c
    · rw [if_pos h] at hd hcount
      rw [if_pos h] at hd
      omega
    · rw [if_neg h] at hd hcount
      rw [if_neg h] at hd
      omega

theorem reserveWithUsage_eq_ok {u u' : Usage} :
    reserveWithUsage l u c n = .ok u' ↔
      u.items c < itemLimit l c ∧ admitBytes l u c n = .ok () ∧ u.charge c n 1 = u' := by
  simp [reserveWithUsage, Unique.exists_iff]

theorem grow_eq_ok {u u' : Usage} : grow l u c n = .ok u' ↔ admitBytes l u c n = .ok () ∧ u.charge c n 0 = u' := by
  simp [grow, Unique.exists_iff]

theorem admitStation_eq_ok {u u' : Usage} :
    admitStation l u = .ok u' ↔ u.connectedStations < l.maximumConnectedStations ∧
      { u with connectedStations := u.connectedStations + 1 } = u' := by
  simp [admitStation]

theorem resize_books (hh : b.holder = some ⟨.resize r n, .body⟩) (h : b.perform l (.resize r n) = .ok b') :
    Books l b { b' with holder := none } := by
  simp only [perform] at h
  split at h
  · rename_i hlt
    simp only [bind_eq_ok, pure_eq_ok] at h
    obtain ⟨u, hu, rfl⟩ := h
    obtain ⟨hgranted, rfl⟩ := grow_eq_ok.mp hu
    refine .charge r.workClass (n - r.bytes) 0 hgranted (.inl rfl) rfl rfl (fun p => ?_) (fun c => ?_) ?_
    · have := pick_add p r.workClass r.bytes (n - r.bytes)
      rw [Nat.add_sub_cancel' (Nat.le_of_lt hlt)] at this
      simp [charged, inHand, carried, Progress.carried, Operation.inHand, hh]
      omega
    · simp [chargedItems, inHand, Operation.inHand, hh]
    · simp [chargedStations, hh, Operation.station]
  · rename_i hle
    rw [pure_eq_ok] at h
    subst h
    refine .discharge r.workClass (r.bytes - n) 0 rfl rfl (fun p => ?_) (fun c => ?_) ?_
    · have := pick_add p r.workClass n (r.bytes - n)
      rw [Nat.add_sub_cancel' (Nat.le_of_not_lt hle)] at this
      simp [charged, inHand, carried, discharge, Progress.carried, Operation.inHand, hh]
      omega
    · simp [chargedItems, inHand, discharge, Operation.inHand, hh]
    · simp [chargedStations, discharge, hh, Operation.station]

theorem perform_books (hh : b.holder = some ⟨op, .body⟩) (h : b.perform l op = .ok b') :
    Books l b { b' with holder := none } := by
  cases op with
  | reserve c n =>
      simp only [perform, bind_eq_ok, pure_eq_ok] at h
      obtain ⟨u, hu, rfl⟩ := h
      obtain ⟨hroom, hgranted, rfl⟩ := reserveWithUsage_eq_ok.mp hu
      refine .charge c n 1 hgranted (.inr hroom) rfl rfl (fun p => ?_) (fun d => ?_) ?_
      · simp [charged, inHand, carried, Progress.carried, Operation.inHand, hh]
        omega
      · simp [chargedItems, inHand, Operation.inHand, hh]
        omega
      · simp [chargedStations, hh, Operation.station]
  | resize r n => exact resize_books hh h
  | release r =>
      simp only [perform, pure_eq_ok] at h
      subst h
      refine .discharge r.workClass r.bytes 1 rfl rfl (fun p => ?_) (fun d => ?_) ?_
      · simp [charged, inHand, carried, discharge, Progress.carried, Operation.inHand, hh]
        omega
      · simp [chargedItems, inHand, discharge, Operation.inHand, hh]
        omega
      · simp [chargedStations, discharge, hh, Operation.station]
  | admitStation =>
      simp only [perform, bind_eq_ok, pure_eq_ok] at h
      obtain ⟨u, hu, rfl⟩ := h
      obtain ⟨hroom, rfl⟩ := admitStation_eq_ok.mp hu
      refine .admitStation hroom rfl rfl (fun p => ?_) (fun d => ?_) ?_
      · simp [charged, inHand, carried, Progress.carried, Operation.inHand, hh]
      · simp [chargedItems, inHand, Operation.inHand, hh]
      · simp [chargedStations, hh, Operation.station]
  | dropStation =>
      simp only [perform, pure_eq_ok] at h
      subst h
      refine .dropStation rfl rfl (fun p => ?_) (fun d => ?_) ?_
      · simp [charged, inHand, carried, Progress.carried, Operation.inHand, hh]
      · simp [chargedItems, inHand, Operation.inHand, hh]
      · simp [chargedStations, hh, Operation.station]
  | observe =>
      simp only [perform, pure_eq_ok] at h
      subst h
      refine .same rfl rfl (fun p => ?_) (fun d => ?_) ?_
      · simp [charged, inHand, carried, Progress.carried, Operation.inHand, hh]
      · simp [chargedItems, inHand, Operation.inHand, hh]
      · simp [chargedStations, hh, Operation.station]

theorem perform_error {e : AdmissionError} (h : b.perform l op = .error e) : op.inHand = op.kept ∧ op.station = 0 := by
  cases op with
  | release r => simp [perform, pure, Except.pure] at h
  | dropStation => simp [perform, pure, Except.pure] at h
  | _ => exact ⟨rfl, rfl⟩

theorem refused_books {e : AdmissionError} (hh : b.holder = some ⟨op, .body⟩) (h : b.perform l op = .error e) :
    Books l b { b with holder := none, live := op.kept ++ b.live, refusals := e :: b.refusals } := by
  obtain ⟨hkept, hstation⟩ := perform_error h
  refine .same rfl rfl (fun p => ?_) (fun d => ?_) ?_
  · simp [charged, inHand, carried, Progress.carried, hh, hkept, bytesOf]
    omega
  · simp [chargedItems, inHand, hh, hkept, itemsOf]
    omega
  · simp [chargedStations, hh, hstation]

theorem swapBytes_books {slot : Slot} (hh : b.holder = some ⟨op, .swapBytes slot⟩) : Books l b (b.proceed l) := by
  simp only [proceed, hh]
  refine .same rfl rfl (fun p => ?_) (fun c => ?_) ?_
  · have := deferredBytes_update b.deferred p slot { b.deferred slot with bytes := 0 }
    simp only [charged, inHand, carried, setDeferred, hh, Option.elim_some, Progress.carried, pick_zero] at this ⊢
    omega
  · have := deferredItems_update b.deferred c slot { b.deferred slot with bytes := 0 }
    simp only [chargedItems, inHand, setDeferred, hh, Option.elim_some] at this ⊢
    omega
  · simp [chargedStations, setDeferred, hh]

theorem Progress.carried_swapItems (slot : Slot) (n : Nat) (p : WorkClass → Bool) :
    (Progress.swapItems slot n).carried p = pick p slot.workClass n := rfl

theorem Slot.carried_next (slot : Slot) (p : WorkClass → Bool) : slot.next.carried p = 0 := by
  cases slot <;> rfl

theorem swapItems_books {slot : Slot} (hh : b.holder = some ⟨op, .swapItems slot n⟩) : Books l b (b.proceed l) := by
  simp only [proceed, hh]
  refine .discharge slot.workClass n (b.deferred slot).items rfl rfl (fun p => ?_) (fun c => ?_) ?_
  · have := deferredBytes_update b.deferred p slot { b.deferred slot with items := 0 }
    simp only [charged, inHand, carried, setDeferred, discharge, hh,
      Option.elim_some, Slot.carried_next, Progress.carried_swapItems] at this ⊢
    omega
  · have := deferredItems_update b.deferred c slot { b.deferred slot with items := 0 }
    simp only [chargedItems, inHand, setDeferred, discharge, hh, Option.elim_some, ite_self] at this ⊢
    omega
  · simp [chargedStations, setDeferred, discharge, hh]

theorem proceed_books (l : RuntimeResourceLimits) (b : Budget) : Books l b (b.proceed l) := by
  rcases hh : b.holder with - | ⟨op, progress⟩
  · simp only [proceed, hh]
    exact .refl l b
  · cases progress with
    | swapBytes slot => exact swapBytes_books hh
    | swapItems slot n => exact swapItems_books hh
    | body =>
        simp only [proceed, hh]
        cases h : b.perform l op with
        | ok b' => exact perform_books hh h
        | error e => exact refused_books hh h

theorem step_books (howing : b.Owing) (e : Event) : Books l b (b.step l e) := by
  cases e with
  | reserve c n =>
      simp only [step]
      split
      · exact lockUsage_books ‹_› rfl rfl
      · exact .refl l b
  | tryReserveDiagnostic c n =>
      simp only [step]
      split
      · exact lockUsage_books (And.right ‹_›) rfl rfl
      · exact .refl l b
  | tryResize r n =>
      simp only [step]
      split
      · exact take_lockUsage_books (And.right ‹_›) (And.left ‹_›) rfl rfl
      · exact .refl l b
  | drop r =>
      simp only [step]
      split
      · split
        · exact drop_deferred_books ‹_›
        · split
          · exact take_lockUsage_books ‹_› ‹_› rfl rfl
          · exact .refl l b
      · exact .refl l b
  | admitStation =>
      simp only [step]
      split
      · exact lockUsage_books ‹_› rfl rfl
      · exact .refl l b
  | dropStation =>
      simp only [step]
      split
      · rename_i h
        refine .same rfl rfl (fun p => ?_) (fun c => ?_) ?_
        · simp [charged, inHand, carried, lockUsage, Progress.carried, Operation.inHand, h.2]
        · simp [chargedItems, inHand, lockUsage, Operation.inHand, h.2]
        · simp only [chargedStations, lockUsage, Operation.station, h.2, Option.elim_some, Option.elim_none]
          omega
      · exact .refl l b
  | observe =>
      simp only [step]
      split
      · exact lockUsage_books ‹_› rfl rfl
      · exact .refl l b
  | proceed => exact proceed_books l b
  | addBytes r =>
      by_cases hr : r ∈ b.owedBytes
      · exact addBytes_books howing hr
      · simp only [step, if_neg hr]
        exact .refl l b
  | addItem c =>
      by_cases hc : c ∈ b.owedItems
      · exact addItem_books howing hc
      · simp only [step, if_neg hc]
        exact .refl l b

theorem perform_owed (h : b.perform l op = .ok b') : b'.owedBytes = b.owedBytes ∧ b'.owedItems = b.owedItems := by
  cases op with
  | resize r n =>
      simp only [perform] at h
      split at h
      · simp only [bind_eq_ok, pure_eq_ok] at h
        obtain ⟨u, -, rfl⟩ := h
        exact ⟨rfl, rfl⟩
      · rw [pure_eq_ok] at h
        subst h
        exact ⟨rfl, rfl⟩
  | reserve | admitStation =>
      simp only [perform, bind_eq_ok, pure_eq_ok] at h
      obtain ⟨u, -, rfl⟩ := h
      exact ⟨rfl, rfl⟩
  | release | dropStation | observe =>
      simp only [perform, pure_eq_ok] at h
      subst h
      exact ⟨rfl, rfl⟩

theorem proceed_owed (l : RuntimeResourceLimits) (b : Budget) :
    (b.proceed l).owedBytes = b.owedBytes ∧ (b.proceed l).owedItems = b.owedItems := by
  rcases hh : b.holder with - | ⟨op, progress⟩
  · simp only [proceed, hh, and_self]
  · cases progress with
    | swapBytes slot => simp [proceed, hh, setDeferred]
    | swapItems slot n => simp [proceed, hh, setDeferred, discharge]
    | body =>
        simp only [proceed, hh]
        cases h : b.perform l op with
        | ok b' =>
            obtain ⟨hbytes, hitems⟩ := perform_owed h
            exact ⟨hbytes, hitems⟩
        | error e => exact ⟨rfl, rfl⟩

theorem step_owing (howing : b.Owing) (e : Event) : (b.step l e).Owing := by
  cases e with
  | drop r =>
      simp only [step]
      split_ifs with hr hdeferred
      · refine ⟨fun r' hr' => ?_, fun c hc => ?_⟩
        · obtain rfl | hmem := List.mem_cons.mp hr'
          · exact hdeferred
          · exact howing.bytes r' hmem
        · obtain rfl | hmem := List.mem_cons.mp hc
          · exact hdeferred
          · exact howing.items c hmem
      all_goals exact ⟨howing.bytes, howing.items⟩
  | proceed =>
      obtain ⟨hbytes, hitems⟩ := proceed_owed l b
      exact ⟨fun r hr => howing.bytes r (hbytes ▸ hr), fun c hc => howing.items c (hitems ▸ hc)⟩
  | addBytes r =>
      simp only [step]
      split_ifs
      · exact ⟨fun r' hr' => howing.bytes r' (List.mem_of_mem_erase hr'), howing.items⟩
      · exact howing
  | addItem c =>
      simp only [step]
      split_ifs
      · exact ⟨howing.bytes, fun c' hc' => howing.items c' (List.mem_of_mem_erase hc')⟩
      · exact howing
  | reserve | tryReserveDiagnostic | tryResize | admitStation | dropStation | observe =>
      simp only [step]
      split_ifs
      all_goals exact ⟨howing.bytes, howing.items⟩

end Step

/-- What holds of the budget at every moment, whatever the limits are. -/
structure Accounted (l : RuntimeResourceLimits) (b : Budget) : Prop where
  liveBytes : bytesOf (fun _ => true) b.reservations ≤ b.usage.queuedPayloadBytes
  liveTrace : bytesOf (· = .captureTrace) b.reservations ≤ b.usage.traceRingBytes
  liveItems : ∀ c, itemsOf c b.reservations ≤ b.usage.items c
  drained : b.Drained → b.usage.queuedPayloadBytes = bytesOf (fun _ => true) b.live ∧
    b.usage.traceRingBytes = bytesOf (· = .captureTrace) b.live ∧ ∀ c, b.usage.items c = itemsOf c b.live
  unsaturated : b.saturated = false
  total : b.usage.queuedPayloadBytes = b.charged fun _ => true
  aggregate : b.usage.queuedPayloadBytes ≤ l.aggregateQueuedPayloadBytes
  noncritical : b.charged (!·.isCritical) ≤ l.aggregateQueuedPayloadBytes - l.reservedCriticalPayloadBytes
  items : ∀ c, b.usage.items c ≤ itemLimit l c
  refused : ∀ op e, b.holder = some ⟨op, .body⟩ → b.perform l op = .error e →
    (b.proceed l).usage = b.usage ∧ (b.proceed l).deferred = b.deferred ∧ (b.proceed l).reservations = b.reservations
  draining : ∀ op progress, b.holder = some ⟨op, progress⟩ → progress ≠ .body → (b.proceed l).settled = b.settled

section Accounting

theorem bytesOf_reservations_le (p : WorkClass → Bool) (b : Budget) : bytesOf p b.reservations ≤ b.charged p := by
  have hkept : bytesOf p (b.holder.elim [] (·.operation.kept)) ≤ bytesOf p b.inHand := by
    rcases hh : b.holder with - | ⟨op, progress⟩
    · simp [inHand, hh]
    · cases op <;> simp [inHand, hh, Operation.inHand, Operation.kept]
  have happ : bytesOf p b.reservations = bytesOf p (b.holder.elim [] (·.operation.kept)) + bytesOf p b.live := by
    simp [reservations, bytesOf]
  simp only [charged]
  omega

theorem itemsOf_reservations_le (c : WorkClass) (b : Budget) : itemsOf c b.reservations ≤ b.chargedItems c := by
  have hkept : itemsOf c (b.holder.elim [] (·.operation.kept)) ≤ itemsOf c b.inHand := by
    rcases hh : b.holder with - | ⟨op, progress⟩
    · simp [inHand, hh]
    · cases op <;> simp [inHand, hh, Operation.inHand, Operation.kept]
  have happ : itemsOf c b.reservations = itemsOf c (b.holder.elim [] (·.operation.kept)) + itemsOf c b.live := by
    simp [reservations, itemsOf]
  simp only [chargedItems]
  omega

theorem Budget.Drained.charged (h : b.Drained) (p : WorkClass → Bool) : b.charged p = bytesOf p b.live := by
  obtain ⟨hfree, hbytes, -, hdeferred⟩ := h
  simp [Budget.charged, Budget.inHand, Budget.carried, deferredBytes, hfree, hbytes, hdeferred]

theorem Budget.Drained.chargedItems (h : b.Drained) (c : WorkClass) : b.chargedItems c = itemsOf c b.live := by
  obtain ⟨hfree, -, hitems, hdeferred⟩ := h
  simp [Budget.chargedItems, Budget.inHand, deferredItems, hfree, hitems, hdeferred]

theorem Balanced.settled (hb : Balanced l b) :
    b.settled = ⟨b.chargedStations,
      bytesOf (fun _ => true) b.live + bytesOf (fun _ => true) b.inHand + bytesOf (fun _ => true) b.owedBytes,
      bytesOf (· = .captureTrace) b.live + bytesOf (· = .captureTrace) b.inHand +
        bytesOf (· = .captureTrace) b.owedBytes,
      fun c => itemsOf c b.live + itemsOf c b.inHand + b.owedItems.count c⟩ := by
  have hq := hb.queued
  have ht := hb.trace
  simp only [Budget.charged] at hq ht
  simp only [Budget.settled, Usage.mk.injEq]
  refine ⟨hb.stations, by omega, by omega, funext fun c => ?_⟩
  have hi := hb.items c
  simp only [Budget.chargedItems] at hi
  omega

theorem proceed_settled (hb : Balanced l b) {op : Operation} {progress : Progress}
    (hh : b.holder = some ⟨op, progress⟩) (hbody : progress ≠ .body) : (b.proceed l).settled = b.settled := by
  have hb' := (proceed_books l b).balanced hb
  rw [hb.settled, hb'.settled]
  cases progress with
  | body => exact absurd rfl hbody
  | swapBytes slot =>
      simp [proceed, hh, setDeferred, inHand, chargedStations]
  | swapItems slot n =>
      simp [proceed, hh, setDeferred, discharge, inHand, chargedStations]

theorem Balanced.accounted (hb : Balanced l b) : Accounted l b where
  liveBytes := hb.queued ▸ bytesOf_reservations_le _ b
  liveTrace := hb.trace ▸ bytesOf_reservations_le _ b
  liveItems c := hb.items c ▸ itemsOf_reservations_le c b
  drained h := ⟨hb.queued.trans (h.charged _), hb.trace.trans (h.charged _),
    fun c => (hb.items c).trans (h.chargedItems c)⟩
  unsaturated := hb.unsaturated
  total := hb.queued
  aggregate := hb.aggregate
  noncritical := hb.noncritical
  items := hb.itemLimits
  refused op e hh h := by
    simp [proceed, hh, h, reservations]
  draining op progress hh hbody := proceed_settled hb hh hbody

theorem new_balanced (l : RuntimeResourceLimits) : Balanced l .new := by
  refine ⟨rfl, rfl, fun c => ?_, rfl, Nat.zero_le _, Nat.zero_le _, fun c => Nat.zero_le _, Nat.zero_le _, rfl⟩
  cases c <;> rfl

end Accounting

/-- In every interleaving the counters cover the reservations that are held, no subtraction saturates, and the limits
hold. -/
theorem run_accounted (l : RuntimeResourceLimits) (events : List Event) : Accounted l (.run l events) := by
  have h : Balanced l (.run l events) ∧ (run l events).Owing :=
    Transition.run_invariant (P := fun b => Balanced l b ∧ b.Owing)
      (fun b e hb => ⟨(step_books hb.2 e).balanced hb.1, step_owing hb.2 e⟩) events
      ⟨new_balanced l, ⟨by simp [new], by simp [new]⟩⟩
  exact h.1.accounted

def droppedDiagnostic : List Event :=
  .reserve .diagnostic 10 :: List.replicate 5 .proceed ++
    [.drop ⟨.diagnostic, 10⟩, .addBytes ⟨.diagnostic, 10⟩, .addItem .diagnostic]

def oversizedReservation : List Event := .reserve .databaseWork (2 ^ 32) :: List.replicate 5 .proceed

/-- A refused reservation lowers the counters: the lock it takes drains the dropped record first. -/
theorem refused_reservation_drains :
    (run {} droppedDiagnostic).usage.queuedPayloadBytes = 10 ∧
      (run {} droppedDiagnostic).usage.items .diagnostic = 1 ∧
      (run {} (droppedDiagnostic ++ oversizedReservation)).refusals =
        [⟨.aggregatePayloadBytes, 16 * 1024 * 1024 - 512 * 1024, 2 ^ 32 + 0⟩] ∧
      (run {} (droppedDiagnostic ++ oversizedReservation)).usage.queuedPayloadBytes = 0 ∧
      (run {} (droppedDiagnostic ++ oversizedReservation)).usage.items .diagnostic = 0 := by
  decide +kernel

end OcppBridge.Resource
