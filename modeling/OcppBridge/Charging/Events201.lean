import OcppBridge.Charging.Snapshot
import OcppBridge.Transaction

namespace OcppBridge.Charging

open FirstMatch Operational Transaction

section Measurements

structure MeasurementObservation where
  protocol : ProtocolEdition
  nativeResource : NativeProtocolReference
  nativeTransactionId : Option String
  sequenceNumber : Option UInt32
  values : List DataPointValue
  signedValues : List String
  deriving DecidableEq

inductive MeasurementApplyError
  | unknownResource
  deriving DecidableEq, Repr

def absorb (now : UtcTimestamp) (values : List DataPointValue) (sample : DataPointValue) : List DataPointValue :=
  let value := { sample with observedAt := now }
  upsert (·.pointId = value.pointId) (fun current => if current.time ≤ value.time then value else current) value values

def isStationMeter : NativeProtocolReference → Bool
  | .ocpp16 connectorId => connectorId = 0
  | .ocpp201 evseId _ => evseId = 0

def applyMeasurements (s : StationSnapshot) (o : MeasurementObservation) (now : UtcTimestamp) :
    Except MeasurementApplyError Unit × StationSnapshot :=
  if isStationMeter o.nativeResource then
    (.ok (), { s with currentValues := o.values.foldl (absorb now) s.currentValues, observedAt := now })
  else if s.resources.any fun r => r.resource.nativeProtocolReference = some o.nativeResource then
    (.ok (), { s with
      resources := replaceFirst (fun r => r.resource.nativeProtocolReference = some o.nativeResource)
        (fun r => { r with currentValues := o.values.foldl (absorb now) r.currentValues }) s.resources
      observedAt := now })
  else (.error .unknownResource, s)

end Measurements

inductive TransactionEventKind
  | started
  | updated
  | ended
  deriving DecidableEq, Repr

structure TransactionEventObservation where
  remoteStartId : Option Int
  protocol : ProtocolEdition
  event : TransactionEventKind
  nativeTransactionId : String
  nativeResource : NativeProtocolReference
  sequenceNumber : UInt32
  triggerReason : String
  chargingState : Option String
  occurredAt : UtcTimestamp
  measurements : Option MeasurementObservation
  payloadFingerprint : String
  deriving DecidableEq

inductive TransactionApplyOutcome
  | applied
  | duplicate
  deriving DecidableEq, Repr

inductive TransactionApplyError
  | unsupportedProtocol
  | unknownResource
  | invalidIdentity
  | missingStart
  | outOfOrder
  | conflictingReplay
  | alreadyEnded
  | invalidTransition
  | expiredStart
  | capacity
  deriving DecidableEq, Repr

def ocpp201ReplayFloor : String := "ocpp201/transactions/replay_floor_seconds"

def maxSnapshotTransactions : Nat := 128

def TransactionEventKind.name : TransactionEventKind → String
  | .started => "Started"
  | .updated => "Updated"
  | .ended => "Ended"

def TransactionEventObservation.transactionState (o : TransactionEventObservation) : TransactionState :=
  if o.event = .ended then .ended
  else match o.chargingState with
    | some "Charging" => .active
    | some "SuspendedEV" | some "SuspendedEVSE" => .suspended
    | _ => .pending

/-- `u32::saturating_add` of one. -/
def saturatingSucc (n : UInt32) : UInt32 := if n.toNat + 1 < 2 ^ 32 then n + 1 else n

def expiredEnded (t : TransactionSnapshot) (floor : Int) : Bool :=
  t.native201.isSome && t.state = .ended && unixTimestamp t.startedAt ≤ floor &&
    t.endedAt.any fun ended => unixTimestamp ended < floor

def repeats (state : TransactionProtocolState) (o : TransactionEventObservation) : Bool :=
  state.nativeResource = o.nativeResource && state.lastEvent = o.event.name &&
    state.lastTriggerReason = o.triggerReason && state.lastEventAt = o.occurredAt &&
    state.lastEventFingerprint = o.payloadFingerprint

def checkKnown (t : TransactionSnapshot) (state : TransactionProtocolState) (o : TransactionEventObservation) :
    Except TransactionApplyError (Option TransactionApplyOutcome) := do
  require (state.nativeResource = o.nativeResource ∧
      ∀ id ∈ o.remoteStartId, ∀ old ∈ state.remoteStartId, id = old) .conflictingReplay
  if o.sequenceNumber = state.lastSequenceNumber then do
    require (repeats state o) .conflictingReplay
    pure (some .duplicate)
  else do
    require (o.sequenceNumber = saturatingSucc state.lastSequenceNumber) .outOfOrder
    require (t.state ≠ .ended) .alreadyEnded
    require (o.event ≠ .started) .invalidTransition
    pure none

def checkTransactionLifecycle (current : Option TransactionSnapshot) (o : TransactionEventObservation) :
    Except TransactionApplyError (Option TransactionApplyOutcome) :=
  match current with
  | none => do
      require (o.event = .started) .missingStart
      pure none
  | some t =>
      match t.protocolState with
      | none => .error .invalidTransition
      | some state => checkKnown t state o

def TransactionEventObservation.concerns (o : TransactionEventObservation) (t : TransactionSnapshot) : Bool :=
  t.protocolState.any fun state => state.protocol = o.protocol && state.nativeTransactionId = o.nativeTransactionId

structure Admission where
  resource : ResourceRef
  current : Option TransactionSnapshot
  floor : Int

def checkEvent (s : StationSnapshot) (o : TransactionEventObservation) (now : UtcTimestamp) :
    Except TransactionApplyError (Option Admission) := do
  require (o.protocol = .ocpp201) .unsupportedProtocol
  require (!Text.isBlank o.nativeTransactionId) .invalidIdentity
  let resource ← (s.resourceAt o.nativeResource).elim (.error .unknownResource) .ok
  let current := s.transactions.find? o.concerns
  let outcome ← checkTransactionLifecycle current o
  match outcome with
  | some _ => pure none
  | none => do
      let floor := replayFloor ocpp201ReplayFloor s.currentValues now
      require (current = none → floor < unixTimestamp o.occurredAt) .expiredStart
      require ((s.transactions.filter fun t => !expiredEnded t floor).length + current.isNone.toNat ≤
        maxSnapshotTransactions) .capacity
      pure (some ⟨resource, current, floor⟩)

namespace TransactionEventObservation

def protocolState (o : TransactionEventObservation) (current : Option TransactionSnapshot) :
    TransactionProtocolState where
  remoteStartId := o.remoteStartId <|> (do (← (← current).protocolState).remoteStartId)
  protocol := o.protocol
  nativeTransactionId := o.nativeTransactionId
  nativeResource := o.nativeResource
  lastSequenceNumber := o.sequenceNumber
  lastEvent := o.event.name
  lastTriggerReason := o.triggerReason
  lastEventAt := o.occurredAt
  lastEventFingerprint := o.payloadFingerprint

def endedAt (o : TransactionEventObservation) : Option UtcTimestamp :=
  if o.event = .ended then some o.occurredAt else none

def advance (o : TransactionEventObservation) (current : Option TransactionSnapshot)
    (t : TransactionSnapshot) : TransactionSnapshot :=
  { t with state := o.transactionState, endedAt := o.endedAt, protocolState := some (o.protocolState current) }

def opened (o : TransactionEventObservation) (resource : ResourceRef) : TransactionSnapshot where
  ocpp16 := none
  transactionId := o.nativeTransactionId
  resource := resource
  state := o.transactionState
  startedAt := o.occurredAt
  endedAt := o.endedAt
  protocolState := some (o.protocolState none)

end TransactionEventObservation

def putTransaction (a : Admission) (o : TransactionEventObservation) (transactions : List TransactionSnapshot) :
    List TransactionSnapshot :=
  match a.current with
  | some _ => replaceFirst o.concerns (o.advance a.current) transactions
  | none => transactions ++ [o.opened a.resource]

/-- The transaction of the event is kept even if it has just ended and is old. -/
def applyAdmitted (s : StationSnapshot) (a : Admission) (o : TransactionEventObservation) (now : UtcTimestamp) :
    StationSnapshot :=
  { s with
    transactions := (putTransaction a o s.transactions).filter fun t =>
      t.native201 = some o.nativeTransactionId || !expiredEnded t a.floor
    currentValues := set s.currentValues ocpp201ReplayFloor (some (.signedInteger a.floor)) none now
    observedAt := now }

def applyTransactionEvent (s : StationSnapshot) (o : TransactionEventObservation) (now : UtcTimestamp) :
    Except TransactionApplyError TransactionApplyOutcome × StationSnapshot :=
  match checkEvent s o now with
  | .error e => (.error e, s)
  | .ok none => (.ok .duplicate, s)
  | .ok (some a) =>
      match o.measurements with
      | none => (.ok .applied, applyAdmitted s a o now)
      | some measurements =>
          match applyMeasurements s measurements now with
          | (.error _, measured) => (.error .unknownResource, measured)
          | (.ok (), measured) => (.ok .applied, applyAdmitted measured a o now)

end OcppBridge.Charging
