import OcppBridge.Operational.ReservationLedger

namespace OcppBridge.Operational

open Storage Transaction

variable {P : Type} [Wire P]

def ReservationCandidate.presents {π : Type} (candidate : ReservationCandidate π) (token : ReservationKey)
    (group : Option ReservationKey) : Bool :=
  candidate.tokenKey = token || (candidate.groupKey.isSome && candidate.groupKey = group)

def cancelsReservation (payload : P) : Bool :=
  Wire.fieldCount payload = some 1 &&
    (Wire.reservationId payload).any fun id => -(2 : Int) ^ 31 ≤ id && id < 2 ^ 31

namespace Reservation16

def reserveNowSchema : String := "urn:uob:ocpp16:ReserveNowReference:1"

def cancelSchema : String := "urn:OCPP:1.6:2019:12:CancelReservationRequest"

def connectorScope (r : ResourceRef) (connectorId : Nat) : Bool :=
  (match r.resource with | some (.connector _) => true | _ => false) &&
    r.nativeProtocolReference = some (.ocpp16 connectorId)

def validateCommand (command : Command P) : Except StorageError Unit :=
  match command.operation with
  | .ocpp operation =>
      if operation.protocol = .ocpp201 then pure ()
      else match operation.action with
        | "ReserveNow" =>
            require (operation.payloadSchema = reserveNowSchema ∧
                (decodeReserveNow16 operation.payload).any fun r =>
                  if r.connectorId = 0 then stationScope16 command.resource
                  else connectorScope command.resource r.connectorId)
              (conflict "invalid protected reservation command")
        | "CancelReservation" =>
            require (operation.payloadSchema = cancelSchema ∧ stationScope16 command.resource ∧
                cancelsReservation operation.payload)
              (conflict "invalid protected reservation command")
        | _ => pure ()
  | _ => pure ()

def edition : ReservationEdition P Nat Nat ReservationEnd16 where
  version := .v1Reservation16
  stationScope := stationScope16
  mutationScope r := r.resource = none
  validPlace _ := true
  target := id
  evidence := (·.reservation16)
  setEvidence reply result := { result with reservation16 := some reply }
  validateCommand := validateCommand
  validateResult := validateResult
  speaks _ := true
  reserves payload reservationId candidate :=
    (decodeReserveNow16 payload).any fun r =>
      r.reservationId = reservationId && r.connectorId = candidate.place && r.expiryDate = candidate.expiry
  names payload reservationId connectorId :=
    (decodeReserveNow16 payload).any fun r => r.reservationId = reservationId && r.connectorId = connectorId

abbrev Record := ReservationRecord Nat ReservationEnd16

def matchesCandidate (candidate : ReservationCandidate Nat) (connectorId : Nat) (token : ReservationKey)
    (group : Option ReservationKey) : Bool :=
  (candidate.place = 0 || candidate.place = connectorId) && candidate.presents token group

inductive ObservationKind
  | start (reservationId : Int) (connectorId : Nat) (tokenKey : ReservationKey) (groupKey : Option ReservationKey)
      (sourceTime : UtcTimestamp)
  | status (connectorId : Nat) (state : ReservationState16) (sourceTime : Option UtcTimestamp) (anyEligible : Bool)
  | expiry
  deriving DecidableEq, Repr

abbrev Observation := StationObservation ObservationKind

def statusChange (connectorId : Nat) (state : ReservationState16) (sourceTime : Option UtcTimestamp)
    (anyEligible : Bool) (observedAt : UtcTimestamp) (record : Record) : Option Record :=
  if record.candidate.any (fun c => c.place = connectorId || (c.place = 0 && !anyEligible)) ∧
      sourceTime.all (fun time => record.admittedAt ≤ time && record.changedAt ≤ time) ∧ record.state.live then
    some { record.settle state observedAt with sourceTime, sourceObservedAt := some observedAt }
  else none

def observe (desk : (edition (P := P)).Records) (observation : Observation) :
    Except StorageError (edition (P := P)).Records := do
  let observedAt := observation.observedAt
  let (desk, values) ← edition.observeExpiry desk observation.station observedAt
  match observation.kind with
  | .start reservationId connectorId tokenKey groupKey sourceTime =>
      edition.consume desk values observedAt
        ⟨reservationId, fun c => matchesCandidate c connectorId tokenKey groupKey, sourceTime⟩
  | .status connectorId state sourceTime anyEligible => do
      require state.isEnded (conflict "invalid reservation status transition")
      let (desk, _) ← Desk.sweep (Desk.amend none)
        (statusChange connectorId state sourceTime anyEligible observedAt) desk values
      pure desk
  | .expiry => pure desk

end Reservation16

namespace Reservation201

def reserveNowSchema : String := "urn:uob:ocpp201:ReserveNowReference:1"

def cancelSchema : String := "urn:OCPP:Cp:2:2020:3:CancelReservationRequest"

def evseScope (r : ResourceRef) (evseId : Nat) : Bool :=
  (match r.resource with | some (.evse _ none) => true | _ => false) &&
    r.nativeProtocolReference = some (.ocpp201 evseId none)

def validateCommand (command : Command P) : Except StorageError Unit :=
  match command.operation with
  | .ocpp operation =>
      if operation.protocol ≠ .ocpp201 then pure ()
      else match operation.action with
        | "ReserveNow" =>
            require (operation.payloadSchema = reserveNowSchema ∧
                (decodeReserveNow201 operation.payload).any fun r =>
                  match r.evseId with
                  | none => stationScope201 command.resource
                  | some evseId => evseScope command.resource evseId)
              (conflict "invalid protected reservation command")
        | "CancelReservation" =>
            require (operation.payloadSchema = cancelSchema ∧ stationScope201 command.resource ∧
                cancelsReservation operation.payload)
              (conflict "invalid protected reservation command")
        | _ => pure ()
  | _ => pure ()

structure Place where
  evseId : Option Nat
  connectorType : Option ReservationConnectorType201
  deriving DecidableEq, Repr

def edition : ReservationEdition P Place (Option Nat) ReservationEnd201 where
  version := .v1Reservation201
  stationScope := stationScope201
  mutationScope := stationScope201
  validPlace place := place.evseId.all fun id => id ≠ 0 && id ≤ maxNativeInteger
  target := (·.evseId)
  evidence := (·.reservation201)
  setEvidence reply result := { result with reservation201 := some reply }
  validateCommand := validateCommand
  validateResult := validateResult
  speaks protocol := protocol = .ocpp201
  reserves payload reservationId candidate :=
    (decodeReserveNow201 payload).any fun r =>
      r.id = reservationId && r.evseId = candidate.place.evseId && r.connectorType = candidate.place.connectorType &&
        r.expiryDateTime = candidate.expiry
  names payload reservationId evseId :=
    (decodeReserveNow201 payload).any fun r => r.id = reservationId && r.evseId = evseId

abbrev Record := ReservationRecord Place ReservationEnd201

/-- An absent presented token leaves attribution to the reservation identity the station names. -/
def matchesCandidate (candidate : ReservationCandidate Place) (evseId : Nat) (token group : Option ReservationKey) :
    Bool :=
  candidate.place.evseId.all (· = evseId) && token.all fun token => candidate.presents token group

inductive UpdateStatus
  | expired
  | removed
  deriving DecidableEq, Repr

def UpdateStatus.state : UpdateStatus → ReservationState201
  | expired => .expired
  | removed => .ended .removed

inductive ObservationKind
  | transaction (reservationId : Int) (evseId : Nat) (tokenKey groupKey : Option ReservationKey)
      (sourceTime : UtcTimestamp)
  | statusUpdate (reservationId : Int) (status : UpdateStatus)
  | expiry
  deriving DecidableEq, Repr

abbrev Observation := StationObservation ObservationKind

def subject (reservationId : Int) (record : Record) : Bool :=
  record.reservationId = reservationId && record.started && record.candidate.isSome && record.state.live

def update (desk : (edition (P := P)).Records) (values : List Record) (observedAt : UtcTimestamp) (reservationId : Int)
    (status : UpdateStatus) : Except StorageError (edition (P := P)).Records := do
  let single := (values.filter (subject reservationId)).length = 1
  let (desk, _) ← Desk.sweep (Desk.amend none)
    (fun record =>
      if subject reservationId record then
        if single then
          some { record.settle status.state observedAt with
            ambiguous := false, sourceTime := none, sourceObservedAt := some observedAt }
        else some { record with ambiguous := true, sourceObservedAt := some observedAt }
      else none) desk values
  pure desk

def observe (desk : (edition (P := P)).Records) (observation : Observation) :
    Except StorageError (edition (P := P)).Records := do
  let observedAt := observation.observedAt
  let (desk, values) ← edition.observeExpiry desk observation.station observedAt
  match observation.kind with
  | .transaction reservationId evseId tokenKey groupKey sourceTime =>
      edition.consume desk values observedAt
        ⟨reservationId, fun c => matchesCandidate c evseId tokenKey groupKey, sourceTime⟩
  | .statusUpdate reservationId status => update desk values observedAt reservationId status
  | .expiry => pure desk

end Reservation201

end OcppBridge.Operational
