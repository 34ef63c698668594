import OcppBridge.Operational.Contract

namespace OcppBridge.Operational

abbrev Encoded := String

structure ConfigurationKey where
  key : String
  readonly : Bool
  value : Option String
  redacted : Bool
  deriving DecidableEq, Repr

inductive ConfigurationWriteStatus
  | accepted
  | rejected
  | rebootRequired
  | notSupported
  deriving DecidableEq, Repr

inductive ConfigurationResult
  | read (requestedKeys : Option (List String)) (keys : Option (List ConfigurationKey))
      (unknownKeys : Option (List String))
  | write (key : String) (status : ConfigurationWriteStatus)
  deriving DecidableEq, Repr

structure ConfigurationObservation where
  readRequestId : RequestId
  key : ConfigurationKey
  deriving DecidableEq, Repr

section Trigger

inductive TriggerMessageClass
  | bootNotification
  | diagnosticsStatusNotification
  | firmwareStatusNotification
  | heartbeat
  | meterValues
  | statusNotification
  deriving DecidableEq, Repr

inductive TriggerNativeResponse
  | accepted
  | rejected
  | notImplemented
  deriving DecidableEq, Repr

structure TriggerObservedEvent (τ : Type) where
  eventId : EventId
  target : τ
  observedAt : UtcTimestamp
  deriving DecidableEq, Repr

inductive TriggerObservationStatus
  | pending
  | partly
  | observed
  | absent
  | unsupported
  deriving DecidableEq, Repr

structure TriggerObservation where
  requestedClass : TriggerMessageClass
  nativeScope : Option Nat
  expectedTargets : List Nat
  dispatchStartedAt : UtcTimestamp
  deadline : UtcTimestamp
  nativeResponse : Option TriggerNativeResponse
  observed : List (TriggerObservedEvent Nat)
  status : TriggerObservationStatus
  deriving DecidableEq, Repr

inductive TriggerMessageClass201
  | bootNotification
  | logStatusNotification
  | firmwareStatusNotification
  | heartbeat
  | meterValues
  | signChargingStationCertificate
  | signV2GCertificate
  | statusNotification
  | transactionEvent
  | signCombinedCertificate
  | publishFirmwareStatusNotification
  deriving DecidableEq, Repr

structure TriggerEvse201 where
  id : Nat
  connectorId : Option Nat
  deriving DecidableEq, Repr

inductive TriggerTarget201
  | station
  | evse (id : Nat)
  | connector (id connectorId : Nat)
  deriving DecidableEq, Repr

structure TriggerStatusInfo201 where
  reasonCode : String
  additionalInfo : Option String
  deriving DecidableEq, Repr

structure TriggerNativeResponse201 where
  status : TriggerNativeResponse
  statusInfo : Option TriggerStatusInfo201
  deriving DecidableEq, Repr

inductive TriggerObservationStatus201
  | pending
  | partly
  | observed
  | absent
  | unsupported
  | unattributable
  deriving DecidableEq, Repr

structure TriggerObservation201 where
  requestedClass : TriggerMessageClass201
  nativeScope : Option TriggerEvse201
  expectedTargets : List TriggerTarget201
  dispatchStartedAt : UtcTimestamp
  deadline : UtcTimestamp
  nativeResponse : Option TriggerNativeResponse201
  observed : List (TriggerObservedEvent TriggerTarget201)
  status : TriggerObservationStatus201
  deriving DecidableEq, Repr

end Trigger

section Reservation

/-- States of a reservation revision. -/
inductive ReservationState (ε : Type)
  | pending
  | active
  | uncertain
  | rejected
  | consumed
  | cancelled
  | expired
  | superseded
  | ambiguous
  | ended (state : ε)
  deriving DecidableEq, Repr

inductive ReservationEnd16
  | faulted
  | unavailable
  deriving DecidableEq, Repr

inductive ReservationEnd201
  | removed
  deriving DecidableEq, Repr

abbrev ReservationState16 := ReservationState ReservationEnd16

abbrev ReservationState201 := ReservationState ReservationEnd201

inductive ReserveNowStatus
  | accepted
  | faulted
  | occupied
  | rejected
  | unavailable
  deriving DecidableEq, Repr

inductive CancelReservationStatus
  | accepted
  | rejected
  deriving DecidableEq, Repr

structure ReservationReconciliation (ε : Type) where
  revision : Nat
  state : ReservationState ε
  observedAt : UtcTimestamp
  sourceTime : Option UtcTimestamp
  deriving DecidableEq, Repr

/-- `τ` is how an edition names the reserved place: a connector, or an optional EVSE. -/
inductive ReservationResult (τ ε : Type)
  | reserveNow (reservationId : Int) (place : τ) (status : Option ReserveNowStatus)
      (reconciliation : ReservationReconciliation ε)
  | cancelReservation (reservationId : Int) (status : Option CancelReservationStatus)
      (reconciliation : ReservationReconciliation ε)
  deriving DecidableEq, Repr

abbrev ReservationResult16 := ReservationResult Nat ReservationEnd16

abbrev ReservationResult201 := ReservationResult (Option Nat) ReservationEnd201

namespace ReservationResult

variable {τ ε : Type}

def accepted : ReservationResult τ ε → Bool
  | reserveNow _ _ (some .accepted) _ | cancelReservation _ (some .accepted) _ => true
  | _ => false

def hasNativeStatus : ReservationResult τ ε → Bool
  | reserveNow _ _ status _ => status.isSome
  | cancelReservation _ status _ => status.isSome

def reconciliation : ReservationResult τ ε → ReservationReconciliation ε
  | reserveNow _ _ _ r | cancelReservation _ _ r => r

def setReconciliation (r : ReservationReconciliation ε) : ReservationResult τ ε → ReservationResult τ ε
  | reserveNow id place status _ => reserveNow id place status r
  | cancelReservation id status _ => cancelReservation id status r

end ReservationResult

end Reservation

end OcppBridge.Operational
