import Mathlib.Algebra.Group.Nat.Defs
import OcppBridge.Transaction
import Mathlib.Logic.Function.Basic

namespace OcppBridge.Resource

open Transaction

inductive WorkClass
  | chargerRequest
  | databaseWork
  | subscriber
  | pendingRequest
  | multipartAssembly
  | targetIngress
  | targetEgress
  | targetRetry
  | criticalReport
  | diagnostic
  | exporterBatch
  | captureTrace
  deriving DecidableEq, Repr

def WorkClass.isCritical : WorkClass → Bool
  | .chargerRequest | .criticalReport => true
  | _ => false

def WorkClass.isDeferred : WorkClass → Bool
  | .diagnostic | .captureTrace => true
  | _ => false

structure RuntimeQueueLimits where
  databaseWork : Nat := 64
  subscribers : Nat := 16
  pendingRequests : Nat := 64
  multipartAssemblies : Nat := 4
  targetIngress : Nat := 64
  targetEgress : Nat := 64
  targetRetries : Nat := 64
  criticalReports : Nat := 64
  diagnostics : Nat := 128
  exporterBatches : Nat := 16
  captureRecords : Nat := 2000
  deriving DecidableEq, Repr

structure RuntimeResourceLimits where
  maximumConnectedStations : Nat := 16
  maximumOcppMessageBytes : Nat := 256 * 1024
  aggregateQueuedPayloadBytes : Nat := 16 * 1024 * 1024
  reservedCriticalPayloadBytes : Nat := 512 * 1024
  traceRingBytes : Nat := 8 * 1024 * 1024
  queues : RuntimeQueueLimits := {}
  deriving DecidableEq, Repr

inductive AdmissionLimit
  | configuration
  | connectedStations
  | ocppMessageBytes
  | aggregatePayloadBytes
  | queueItems (workClass : WorkClass)
  | traceRingBytes
  deriving DecidableEq, Repr

structure AdmissionError where
  limit : AdmissionLimit
  maximum : Nat
  requested : Nat
  deriving DecidableEq, Repr

def itemLimit (l : RuntimeResourceLimits) : WorkClass → Nat
  | .chargerRequest | .pendingRequest => l.queues.pendingRequests
  | .databaseWork => l.queues.databaseWork
  | .subscriber => l.queues.subscribers
  | .multipartAssembly => l.queues.multipartAssemblies
  | .targetIngress => l.queues.targetIngress
  | .targetEgress => l.queues.targetEgress
  | .targetRetry => l.queues.targetRetries
  | .criticalReport => l.queues.criticalReports
  | .diagnostic => l.queues.diagnostics
  | .exporterBatch => l.queues.exporterBatches
  | .captureTrace => l.queues.captureRecords

structure Usage where
  connectedStations : Nat
  queuedPayloadBytes : Nat
  traceRingBytes : Nat
  items : WorkClass → Nat

namespace Usage

def zero : Usage := ⟨0, 0, 0, fun _ => 0⟩

def charge (u : Usage) (c : WorkClass) (bytes items : Nat) : Usage where
  connectedStations := u.connectedStations
  queuedPayloadBytes := u.queuedPayloadBytes + bytes
  traceRingBytes := if c = .captureTrace then u.traceRingBytes + bytes else u.traceRingBytes
  items := Function.update u.items c (u.items c + items)

def discharge (u : Usage) (c : WorkClass) (bytes items : Nat) : Usage where
  connectedStations := u.connectedStations
  queuedPayloadBytes := u.queuedPayloadBytes - bytes
  traceRingBytes := if c = .captureTrace then u.traceRingBytes - bytes else u.traceRingBytes
  items := Function.update u.items c (u.items c - items)

/-- No subtraction of `discharge` saturates. -/
def Covers (u : Usage) (c : WorkClass) (bytes items : Nat) : Prop :=
  bytes ≤ u.queuedPayloadBytes ∧ (c = .captureTrace → bytes ≤ u.traceRingBytes) ∧ items ≤ u.items c

instance (u : Usage) (c : WorkClass) (bytes items : Nat) : Decidable (u.Covers c bytes items) :=
  inferInstanceAs (Decidable (_ ∧ _ ∧ _))

end Usage

section Admission

def usizeMax : Nat := 2 ^ 64 - 1

def saturatingAdd (a b : Nat) : Nat := min (a + b) usizeMax

def maximumBytes (l : RuntimeResourceLimits) (c : WorkClass) : Nat :=
  if c.isCritical then l.aggregateQueuedPayloadBytes
  else l.aggregateQueuedPayloadBytes - l.reservedCriticalPayloadBytes

variable (l : RuntimeResourceLimits) (u : Usage) (c : WorkClass) (bytes : Nat)

def validateOcppMessage : Except AdmissionError Unit :=
  require (bytes ≤ l.maximumOcppMessageBytes) ⟨.ocppMessageBytes, l.maximumOcppMessageBytes, bytes⟩

def admitBytes : Except AdmissionError Unit := do
  require (c = .captureTrace → saturatingAdd u.traceRingBytes bytes ≤ l.traceRingBytes)
    ⟨.traceRingBytes, l.traceRingBytes, saturatingAdd u.traceRingBytes bytes⟩
  require (u.queuedPayloadBytes + bytes ≤ usizeMax ∧ u.queuedPayloadBytes + bytes ≤ maximumBytes l c)
    ⟨.aggregatePayloadBytes, maximumBytes l c, saturatingAdd u.queuedPayloadBytes bytes⟩

def reserveWithUsage : Except AdmissionError Usage := do
  require (u.items c < itemLimit l c) ⟨.queueItems c, itemLimit l c, saturatingAdd (u.items c) 1⟩
  admitBytes l u c bytes
  pure (u.charge c bytes 1)

def grow : Except AdmissionError Usage := do
  admitBytes l u c bytes
  pure (u.charge c bytes 0)

def admitStation : Except AdmissionError Usage := do
  require (u.connectedStations < l.maximumConnectedStations)
    ⟨.connectedStations, l.maximumConnectedStations, saturatingAdd u.connectedStations 1⟩
  pure { u with connectedStations := u.connectedStations + 1 }

end Admission

section Machine

structure RuntimeReservation where
  workClass : WorkClass
  bytes : Nat
  deriving DecidableEq, Repr

/-- Released capacity that no operation under the lock has subtracted yet. -/
structure DeferredRelease where
  bytes : Nat := 0
  items : Nat := 0
  deriving DecidableEq, Repr

/-- The two deferred releases of `DiagnosticAccounting`, in the order they are drained. -/
inductive Slot
  | diagnostic
  | capture
  deriving DecidableEq, Repr

def Slot.workClass : Slot → WorkClass
  | .diagnostic => .diagnostic
  | .capture => .captureTrace

def Slot.of (c : WorkClass) : Slot := if c = .captureTrace then .capture else .diagnostic

/-- What is done under the lock. -/
inductive Operation
  | reserve (workClass : WorkClass) (bytes : Nat)
  | resize (r : RuntimeReservation) (bytes : Nat)
  | release (r : RuntimeReservation)
  | admitStation
  | dropStation
  | observe
  deriving DecidableEq, Repr

inductive Progress
  | swapBytes (slot : Slot)
  | swapItems (slot : Slot) (bytes : Nat)
  | body
  deriving DecidableEq, Repr

def Slot.next : Slot → Progress
  | .diagnostic => .swapBytes .capture
  | .capture => .body

def Operation.kept : Operation → List RuntimeReservation
  | .resize r _ => [r]
  | _ => []

structure Holder where
  operation : Operation
  progress : Progress
  deriving DecidableEq, Repr

/-- The shared budget. A dropped reservation of a deferred class owes its bytes and its item to the deferred counters;
the two additions are relaxed, so either may be seen first. -/
structure Budget where
  usage : Usage
  deferred : Slot → DeferredRelease
  holder : Option Holder
  live : List RuntimeReservation
  stations : Nat
  owedBytes : List RuntimeReservation
  owedItems : List WorkClass
  saturated : Bool
  refusals : List AdmissionError

inductive Event
  | reserve (workClass : WorkClass) (bytes : Nat)
  | tryReserveDiagnostic (workClass : WorkClass) (bytes : Nat)
  | tryResize (r : RuntimeReservation) (bytes : Nat)
  | drop (r : RuntimeReservation)
  | admitStation
  | dropStation
  | observe
  | proceed
  | addBytes (r : RuntimeReservation)
  | addItem (workClass : WorkClass)
  deriving DecidableEq, Repr

namespace Budget

def new : Budget := ⟨.zero, fun _ => {}, none, [], 0, [], [], false, []⟩

def lockUsage (b : Budget) (operation : Operation) : Budget :=
  { b with holder := some ⟨operation, .swapBytes .diagnostic⟩ }

def take (b : Budget) (r : RuntimeReservation) : Budget := { b with live := b.live.erase r }

def discharge (b : Budget) (c : WorkClass) (bytes items : Nat) : Budget :=
  { b with
    usage := b.usage.discharge c bytes items
    saturated := b.saturated || !decide (b.usage.Covers c bytes items) }

def setDeferred (b : Budget) (slot : Slot) (released : DeferredRelease) : Budget :=
  { b with deferred := Function.update b.deferred slot released }

def perform (l : RuntimeResourceLimits) (b : Budget) : Operation → Except AdmissionError Budget
  | .reserve c bytes => do
      let usage ← reserveWithUsage l b.usage c bytes
      pure { b with usage, live := ⟨c, bytes⟩ :: b.live }
  | .resize r bytes =>
      if r.bytes < bytes then do
        let usage ← grow l b.usage r.workClass (bytes - r.bytes)
        pure { b with usage, live := ⟨r.workClass, bytes⟩ :: b.live }
      else pure { b.discharge r.workClass (r.bytes - bytes) 0 with live := ⟨r.workClass, bytes⟩ :: b.live }
  | .release r => pure (b.discharge r.workClass r.bytes 1)
  | .admitStation => do
      let usage ← admitStation l b.usage
      pure { b with usage, stations := b.stations + 1 }
  | .dropStation =>
      pure { b with
        usage := { b.usage with connectedStations := b.usage.connectedStations - 1 }
        saturated := b.saturated || b.usage.connectedStations == 0 }
  | .observe => pure b

def proceed (l : RuntimeResourceLimits) (b : Budget) : Budget :=
  match b.holder with
  | none => b
  | some ⟨operation, .swapBytes slot⟩ =>
      { b.setDeferred slot { b.deferred slot with bytes := 0 } with
        holder := some ⟨operation, .swapItems slot (b.deferred slot).bytes⟩ }
  | some ⟨operation, .swapItems slot bytes⟩ =>
      { (b.discharge slot.workClass bytes (b.deferred slot).items).setDeferred slot
          { b.deferred slot with items := 0 } with
        holder := some ⟨operation, slot.next⟩ }
  | some ⟨operation, .body⟩ =>
      match b.perform l operation with
      | .ok b' => { b' with holder := none }
      | .error e => { b with holder := none, live := operation.kept ++ b.live, refusals := e :: b.refusals }

/-- Events that need the lock wait while it is taken; `tryReserveDiagnostic` gives up. -/
def step (l : RuntimeResourceLimits) (b : Budget) : Event → Budget
  | .reserve c bytes => if b.holder = none then b.lockUsage (.reserve c bytes) else b
  | .tryReserveDiagnostic c bytes =>
      if c.isDeferred ∧ b.holder = none then b.lockUsage (.reserve c bytes) else b
  | .tryResize r bytes =>
      if r ∈ b.live ∧ b.holder = none then (b.take r).lockUsage (.resize r bytes) else b
  | .drop r =>
      if r ∈ b.live then
        if r.workClass.isDeferred then
          { b.take r with owedBytes := r :: b.owedBytes, owedItems := r.workClass :: b.owedItems }
        else if b.holder = none then (b.take r).lockUsage (.release r)
        else b
      else b
  | .admitStation => if b.holder = none then b.lockUsage .admitStation else b
  | .dropStation =>
      if 0 < b.stations ∧ b.holder = none then { b with stations := b.stations - 1 }.lockUsage .dropStation else b
  | .observe => if b.holder = none then b.lockUsage .observe else b
  | .proceed => b.proceed l
  | .addBytes r =>
      if r ∈ b.owedBytes then
        let slot := Slot.of r.workClass
        { b.setDeferred slot { b.deferred slot with bytes := (b.deferred slot).bytes + r.bytes } with
          owedBytes := b.owedBytes.erase r }
      else b
  | .addItem c =>
      if c ∈ b.owedItems then
        let slot := Slot.of c
        { b.setDeferred slot { b.deferred slot with items := (b.deferred slot).items + 1 } with
          owedItems := b.owedItems.erase c }
      else b

def run (l : RuntimeResourceLimits) (events : List Event) : Budget := events.foldl (step l) new

end Budget

end Machine

end OcppBridge.Resource
