import OcppBridge.Operational.Trigger

namespace OcppBridge.Operational

open Storage Transaction

inductive EventOrigin
  | station
  | management
  | bridge
  | replay
  deriving DecidableEq, Repr

inductive StationEvent
  | triggerNotification (stationSnapshotInvalidated : StationId) (class_ : TriggerMessageClass)
      (connectorId : Option Nat)
  | triggerNotification201 (stationSnapshotInvalidated : StationId) (class_ : TriggerMessageClass201)
      (target : TriggerTarget201) (status : Option String)
  | other
  deriving DecidableEq, Repr

def StationEvent.invalidates : StationEvent → Option StationId
  | .triggerNotification station _ _ | .triggerNotification201 station _ _ _ => some station
  | .other => none

structure JournalEvent where
  eventId : EventId
  resource : ResourceRef
  sequence : Nat
  observedAt : UtcTimestamp
  origin : EventOrigin
  replayed : Bool
  payload : StationEvent
  deriving DecidableEq, Repr

/-- The durable stream of an event: canonical resource identities, without native addresses. -/
def eventStreamKey (r : ResourceRef) : Except StorageError (StationKey × Option CanonicalResource) :=
  match r.resource with
  | some resource => pure (r.key, some resource)
  | none => do
      let station ← stationKey r
      pure (station, none)

namespace Trigger

def julianday (time : UtcTimestamp) : Int := (time + 500000) / 1000000

def stationEvents (events : List JournalEvent) (station : StationKey) (start deadline : UtcTimestamp)
    (marks : StationEvent → Bool) : List JournalEvent :=
  ((events.filter fun e =>
      e.resource.resource = none && e.resource.key = station && marks e.payload &&
        julianday start ≤ julianday e.observedAt && julianday e.observedAt ≤ julianday deadline &&
        e.origin = .station && !e.replayed).mergeSort
    fun e e' => julianday e.observedAt ≤ julianday e'.observedAt).take 128

/-- The first event in the exact window. -/
def firstEvidence {τ : Type} (mismatch : String) (station : StationId) (start deadline : UtcTimestamp)
    (known : EventId → Bool) (target : τ) :
    List JournalEvent → Except StorageError (Option (TriggerObservedEvent τ))
  | [] => pure none
  | e :: events => do
      require (e.payload.invalidates = some station) (integrityFailure mismatch)
      if e.observedAt < start ∨ deadline < e.observedAt ∨ known e.eventId then
        firstEvidence mismatch station start deadline known target events
      else pure (some ⟨e.eventId, target, e.observedAt⟩)

def gather {τ : Type} [DecidableEq τ]
    (find : List (TriggerObservedEvent τ) → τ → Except StorageError (Option (TriggerObservedEvent τ))) :
    List τ → List (TriggerObservedEvent τ) → Except StorageError (List (TriggerObservedEvent τ))
  | [], observed => pure observed
  | target :: targets, observed =>
      if observed.any (·.target = target) then gather find targets observed
      else do
        let event ← find observed target
        gather find targets (observed ++ event.toList)

def matchingEvent (events : List JournalEvent) (resource : ResourceRef) (o : TriggerObservation) (target : Nat) :
    Except StorageError (Option (TriggerObservedEvent Nat)) :=
  let connector :=
    if o.requestedClass = .statusNotification ∨ o.requestedClass = .meterValues then some target else none
  firstEvidence "trigger evidence mismatch" resource.stationId o.dispatchStartedAt o.deadline (fun _ => false) target
    (stationEvents events resource.key o.dispatchStartedAt o.deadline fun payload =>
      match payload with
      | .triggerNotification _ class_ connectorId => class_ = o.requestedClass && connectorId = connector
      | _ => false)

variable {P : Type}

def commanded (journal : Journal P) (protocol : ProtocolEdition) (request : RequestId)
    (resource : ResourceRef) : Bool :=
  (journal.command? request).any fun command =>
    command.resource.key = resource.key &&
      match command.operation with
      | .ocpp operation => operation.protocol = protocol && operation.action = "TriggerMessage"
      | _ => false

def settle (journal : Journal P) (row : ResultRow) (result : CommandResult) (finalized : Bool) : Journal P :=
  { journal with
    results := journal.results.replace { row with payload := result, triggerReconcileActive := !finalized } }

variable [Wire P]

def reconcile16 (journal : Journal P) (events : List JournalEvent) (row : ResultRow) (now : UtcTimestamp) :
    Except StorageError (Journal P × CommandResult) := do
  let result ← decodeResult P row.payload
  require (result.request = row.request) (integrityFailure "trigger result identity mismatch")
  require (result.triggerObservation.isSome → commanded journal .ocpp16j row.request result.resource)
    (integrityFailure "trigger result has no matching OCPP 1.6 command")
  match result.triggerObservation with
  | none => pure (journal, result)
  | some o =>
      if row.triggerReconcileActive = false then pure (journal, result)
      else do
        require (o.expectedTargets ≠ [] ∧ o.expectedTargets.length ≤ maxTriggerTargets)
          (integrityFailure "trigger targets invalid")
        let observed ← gather (fun _ target => matchingEvent events result.resource o target)
          o.expectedTargets o.observed
        let next := { o with observed }.refreshStatus now
        let finalized : Bool := o.deadline ≤ now
        let result := { result with triggerObservation := some next }
        if o.observed.length < observed.length ∨ o.status ≠ next.status ∨ finalized then
          pure (settle journal row result finalized, result)
        else pure (journal, result)

end Trigger

namespace Trigger201

def matchingEvent (events : List JournalEvent) (resource : ResourceRef) (o : TriggerObservation201)
    (observed : List (TriggerObservedEvent TriggerTarget201)) (target : TriggerTarget201) :
    Except StorageError (Option (TriggerObservedEvent TriggerTarget201)) :=
  Trigger.firstEvidence "OCPP 2.0.1 trigger evidence mismatch" resource.stationId o.dispatchStartedAt o.deadline
    (fun id => observed.any (·.eventId = id)) target
    (Trigger.stationEvents events resource.key o.dispatchStartedAt o.deadline fun payload =>
      match payload with
      | .triggerNotification201 _ class_ actual status =>
          class_ = o.requestedClass && o.requestedClass.compatibleTarget target actual &&
            (class_ ≠ .transactionEvent || status = some "Trigger")
      | _ => false)

variable {P : Type} [Wire P]

/-- A scoped certificate request keeps the station's receipt without crediting it to its EVSE. -/
def gather (events : List JournalEvent) (resource : ResourceRef) (o : TriggerObservation201) :
    Except StorageError (List (TriggerObservedEvent TriggerTarget201)) := do
  let observed ← Trigger.gather (matchingEvent events resource o) o.expectedTargets o.observed
  if o.scopedCertificate ∧ !observed.any (·.target = .station) then do
    let event ← matchingEvent events resource o observed .station
    pure (observed ++ event.toList)
  else pure observed

def reconcile (journal : Journal P) (events : List JournalEvent) (row : ResultRow) (now : UtcTimestamp) :
    Except StorageError (Journal P × CommandResult) := do
  let result ← decodeResult P row.payload
  require (result.request = row.request) (integrityFailure "trigger result identity mismatch")
  require (result.triggerObservation201.isSome → Trigger.commanded journal .ocpp201 row.request result.resource)
    (integrityFailure "trigger result has no matching OCPP 2.0.1 command")
  match result.triggerObservation201 with
  | none => pure (journal, result)
  | some o =>
      if row.triggerReconcileActive = false then pure (journal, result)
      else do
        require (o.expectedTargets ≠ [] ∧ o.expectedTargets.length ≤ maxTriggerTargets ∧
            o.observed.length ≤ maxTriggerTargets + 1 ∧ o.dispatchStartedAt ≤ o.deadline)
          (integrityFailure "OCPP 2.0.1 trigger targets or window invalid")
        let observed ← gather events result.resource o
        let next := { o with observed }.refreshStatus now
        let finalized : Bool := o.deadline ≤ now || next.status = .observed
        let result := { result with triggerObservation201 := some next }
        if o.observed.length < observed.length ∨ o.status ≠ next.status ∨ finalized then
          pure (Trigger.settle journal row result finalized, result)
        else pure (journal, result)

end Trigger201

namespace Trigger

variable {P : Type}

def reconcile [Wire P] (journal : Journal P) (events : List JournalEvent) (request : RequestId) (now : UtcTimestamp) :
    Except StorageError (Journal P × Option CommandResult) :=
  match journal.results.find? request with
  | none => pure (journal, none)
  | some row => do
      let (journal, result) ←
        if row.payload.triggerObservation201.isSome then Trigger201.reconcile journal events row now
        else reconcile16 journal events row now
      pure (journal, some result)

def awaits (result : CommandResult) : Bool :=
  (result.triggerObservation.any fun o => o.status = .pending || o.status = .partly) ||
    result.triggerObservation201.any fun o => o.status = .pending || o.status = .partly || o.status = .unattributable

def candidates (journal : Journal P) (after : Option RequestId) (limit : Nat) : List RequestId :=
  (((journal.results.rows.filter fun row =>
      after.getD "" < row.request && row.triggerReconcileActive && awaits row.payload).map (·.request)).mergeSort
    (· ≤ ·)).take limit

end Trigger

end OcppBridge.Operational
