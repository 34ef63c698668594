import OcppBridge.Operational.Ledger

namespace OcppBridge.Operational

open Storage Transaction

abbrev ReservationKey := List UInt8

/-- `π` says what an edition reserves. -/
structure ReservationCandidate (π : Type) where
  place : π
  expiry : UtcTimestamp
  tokenKey : ReservationKey
  groupKey : Option ReservationKey
  deriving DecidableEq, Repr

inductive ReservationMutationKind (π : Type)
  | reserve (candidate : ReservationCandidate π)
  | cancel
  deriving DecidableEq, Repr

structure ReservationMutation (π : Type) where
  station : ResourceRef
  requestId : RequestId
  reservationId : Int
  admittedAt : UtcTimestamp
  mutation : ReservationMutationKind π
  deriving DecidableEq, Repr

structure ReservationRecord (π ε : Type) where
  station : ResourceRef
  requestId : RequestId
  reservationId : Int
  revision : Nat
  candidate : Option (ReservationCandidate π)
  state : ReservationState ε
  admittedAt : UtcTimestamp
  changedAt : UtcTimestamp
  sourceTime : Option UtcTimestamp
  /-- Trusted receipt of the last source fact, separate from the ownership interval. -/
  sourceObservedAt : Option UtcTimestamp
  started : Bool
  unresolved : Bool
  ambiguous : Bool
  /-- Latest discarded terminal interval, carried by the newest revision of the station. -/
  historyFloor : Option UtcTimestamp
  deriving DecidableEq, Repr

def ReservationState.live {ε : Type} : ReservationState ε → Bool
  | pending | active | uncertain => true
  | _ => false

def ReservationState.isEnded {ε : Type} : ReservationState ε → Bool
  | ended _ => true
  | _ => false

def maxReservationRevisions : Nat := 256

/-- What distinguishes the reservation ledgers of the two protocol editions. -/
structure ReservationEdition (P π τ ε : Type) where
  version : ContractVersion
  stationScope : ResourceRef → Bool
  mutationScope : ResourceRef → Bool
  validPlace : π → Bool
  target : π → τ
  evidence : CommandResult → Option (ReservationResult τ ε)
  setEvidence : ReservationResult τ ε → CommandResult → CommandResult
  validateCommand : Command P → Except StorageError Unit
  validateResult : CommandResult → Except StorageError Unit
  speaks : ProtocolEdition → Bool
  /-- The stored request reserves this place until this time under this identity. -/
  reserves : P → Int → ReservationCandidate π → Bool
  /-- The stored request names this identity and place. -/
  names : P → Int → τ → Bool

namespace ReservationRecord

variable {π ε : Type}

def reconciliation (record : ReservationRecord π ε) : ReservationReconciliation ε where
  revision := record.revision
  state := if record.ambiguous then .ambiguous else record.state
  observedAt := (record.sourceObservedAt.map (max · record.changedAt)).getD record.changedAt
  sourceTime := record.sourceTime

def settle (record : ReservationRecord π ε) (state : ReservationState ε) (time : UtcTimestamp) :
    ReservationRecord π ε :=
  { record with state, changedAt := max record.changedAt time, unresolved := false }

def expired (record : ReservationRecord π ε) (time : UtcTimestamp) : Bool :=
  record.state.live && record.candidate.any (·.expiry ≤ time)

def historicalInterval (record : ReservationRecord π ε) (sourceTime : UtcTimestamp) : Bool :=
  record.admittedAt ≤ sourceTime && sourceTime < record.changedAt &&
    record.candidate.any (sourceTime < ·.expiry)

def recover (record : ReservationRecord π ε) (now : UtcTimestamp) : ReservationRecord π ε :=
  let record :=
    if record.state.live then
      { record with
        state := if record.started then .uncertain else .rejected
        changedAt := max record.changedAt now }
    else record
  { record with unresolved := record.started }

end ReservationRecord

namespace ReservationEdition

variable {P π τ ε : Type} (edition : ReservationEdition P π τ ε)

def decodable (record : ReservationRecord π ε) : Bool :=
  0 < record.revision && record.revision ≤ maxPosition && edition.stationScope record.station &&
    record.admittedAt ≤ record.changedAt && (match record.state with | .ambiguous => false | _ => true) &&
    record.candidate.all fun c => record.admittedAt < c.expiry && edition.validPlace c.place

def shape : Shape (ReservationRecord π ε) where
  station := (·.station)
  revision := (·.revision)
  requestId := (·.requestId)
  decodable := edition.decodable
  malformed := "invalid reservation workflow record"
  limit := maxReservationRevisions
  overflow := "reservation history exceeds bounded capacity"
  exhausted := "reservation revision exhausted"
  ownerChanged := "reservation workflow owner changed"
  closes _ := none
  refresh record result :=
    (edition.evidence result).map fun reply =>
      edition.setEvidence (reply.setReconciliation record.reconciliation) result

section Correlation

variable [Wire P] [DecidableEq τ]

def describes (operation : PrivilegedOcppOperation P) : ReservationResult τ ε → Bool
  | .reserveNow reservationId place _ _ =>
      operation.action = "ReserveNow" && edition.names operation.payload reservationId place
  | .cancelReservation reservationId _ _ =>
      operation.action = "CancelReservation" && Wire.reservationId operation.payload = some reservationId

def correlate (journal : Journal P) (result : CommandResult) : Except StorageError Unit := do
  let command ← journal.owner result.request
  edition.validateCommand command
  require (result.answers command) (conflict "reservation result owner changed")
  match edition.evidence result with
  | none => pure ()
  | some evidence => do
      edition.validateResult result
      match command.operation with
      | .ocpp operation =>
          require (edition.speaks operation.protocol ∧ edition.describes operation evidence)
            (conflict "reservation result changed immutable action")
      | _ => .error (conflict "reservation result lacks native owner")

def validateMutation (journal : Journal P) (mutation : ReservationMutation π) : Except StorageError Unit := do
  let command ← journal.owner mutation.requestId
  edition.validateCommand command
  require (command.resource.key = mutation.station.key ∧ edition.mutationScope mutation.station ∧
      command.admittedAt = mutation.admittedAt) (conflict "reservation mutation owner changed")
  match command.operation with
  | .ocpp operation => do
      require (edition.speaks operation.protocol) (conflict "invalid reservation protocol")
      match mutation.mutation with
      | .reserve candidate =>
          require (operation.action = "ReserveNow" ∧
              edition.reserves operation.payload mutation.reservationId candidate)
            (conflict "reservation mutation changed immutable request")
      | .cancel =>
          require (operation.action = "CancelReservation" ∧
              Wire.reservationId operation.payload = some mutation.reservationId)
            (conflict "reservation mutation changed immutable request")
  | _ => .error (conflict "reservation mutation lacks native action")

end Correlation

end ReservationEdition

end OcppBridge.Operational
