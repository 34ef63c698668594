import OcppBridge.Operational.Ledger
import OcppBridge.Operational.Snapshot

namespace OcppBridge.Operational

open Storage Transaction

def maxProfileFootprints : Nat := 128

/-- What a profile occupies on its station. -/
structure ProfileFootprint where
  id : Int
  evseId : Int
  purpose : ChargingProfilePurpose201
  stackLevel : Int
  transactionId : Option String
  validFrom : Option UtcTimestamp
  validTo : Option UtcTimestamp
  deriving DecidableEq, Repr

def SetChargingProfileRequest201.footprint (request : SetChargingProfileRequest201) : ProfileFootprint where
  id := request.chargingProfile.id
  evseId := request.evseId
  purpose := request.chargingProfile.chargingProfilePurpose
  stackLevel := request.chargingProfile.stackLevel
  transactionId := request.chargingProfile.transactionId
  validFrom := request.chargingProfile.validFrom
  validTo := request.chargingProfile.validTo

namespace ProfileFootprint

def precedes (f g : ProfileFootprint) : Bool := f.validTo.any fun stop => g.validFrom.any (stop ≤ ·)

def overlaps (f g : ProfileFootprint) : Bool := !f.precedes g && !g.precedes f

def conflicts (f g : ProfileFootprint) : Bool :=
  if f.id = g.id ∨ f.purpose ≠ g.purpose ∨ f.stackLevel ≠ g.stackLevel then false
  else if f.purpose = .txProfile ∧ f.transactionId = g.transactionId then true
  else
    (f.purpose = .txDefaultProfile && f.evseId ≠ g.evseId && (f.evseId = 0 || g.evseId = 0)) ||
      (f.evseId = g.evseId && f.overlaps g)

def matchesClear (f : ProfileFootprint) (request : ClearChargingProfileRequest201) : Bool :=
  match request.chargingProfileId with
  | some id => id = f.id
  | none => request.chargingProfileCriteria.any fun criteria =>
      criteria.evseId.all (· = f.evseId) && criteria.stackLevel.all (· = f.stackLevel) &&
        criteria.chargingProfilePurpose.all (· = f.purpose)

end ProfileFootprint

/-- A purpose-only clear is the sole explicit proof that no other profile of the purpose is installed. -/
def baselinePurpose (request : ClearChargingProfileRequest201) : Option ChargingProfilePurpose201 :=
  if request.chargingProfileId.isSome then none
  else request.chargingProfileCriteria.bind fun criteria =>
    if criteria.evseId.isSome ∨ criteria.stackLevel.isSome then none else criteria.chargingProfilePurpose

inductive ProfileMutation
  | set (footprint : ProfileFootprint) (fullNative : Bool)
  | clear (request : ClearChargingProfileRequest201)
  deriving DecidableEq, Repr

def ProfileMutation.isCanonical : ProfileMutation → Bool
  | .set _ fullNative => !fullNative
  | .clear _ => false

structure ProfileReservation where
  requestId : RequestId
  station : ResourceRef
  connection : String
  requiresBaseline : Bool
  mutation : ProfileMutation
  deriving DecidableEq, Repr

/-- Reserved while no native answer is recorded, owned once the station accepted, uncertain when the outcome is
unknown. -/
inductive ProfileOwnershipState
  | reserved
  | owned
  | uncertain
  deriving DecidableEq, Repr

structure FootprintRow where
  station : StationKey
  owner : RequestId
  state : ProfileOwnershipState
  footprint : ProfileFootprint
  deriving DecidableEq, Repr

def FootprintRow.key (row : FootprintRow) : StationKey × RequestId := (row.station, row.owner)

structure MutationRow where
  request : RequestId
  station : StationKey
  connection : String
  started : Bool
  mutation : ProfileMutation
  deriving DecidableEq, Repr

/-- Ownership of charging profiles, independent of the prunable command history. -/
structure ProfileLedger where
  baseline : List (StationKey × ChargingProfilePurpose201)
  footprints : Table FootprintRow.key
  mutations : Table MutationRow.request

namespace ProfileLedger

def empty : ProfileLedger := ⟨[], .empty, .empty⟩

def ofStation (ledger : ProfileLedger) (station : StationKey) : List FootprintRow :=
  ledger.footprints.rows.filter (·.station = station)

def read (ledger : ProfileLedger) (station : StationKey) : Except StorageError (List FootprintRow) := do
  let rows := (ledger.ofStation station).take (maxProfileFootprints + 1)
  require (rows.length ≤ maxProfileFootprints) (integrityFailure "profile ownership exceeds bound")
  pure rows

def known (ledger : ProfileLedger) (station : StationKey) (purpose : ChargingProfilePurpose201) : Bool :=
  (station, purpose) ∈ ledger.baseline

def live (ledger : ProfileLedger) (station : StationKey) : Option MutationRow :=
  ledger.mutations.rows.find? (·.station = station)

section Steps

variable (ledger : ProfileLedger) (row : MutationRow)

def mark (state : ProfileOwnershipState) : ProfileLedger :=
  { ledger with
    footprints := ledger.footprints.update
      (fun r => if r.key = (row.station, row.request) then { r with state } else r)
      fun r => by split_ifs <;> rfl }

def releaseCandidate : ProfileLedger :=
  { ledger with
    footprints := ledger.footprints.keep fun r => r.key ≠ (row.station, row.request) || r.state ≠ .reserved }

def start : ProfileLedger := { ledger with mutations := ledger.mutations.replace { row with started := true } }

def close : ProfileLedger := { ledger with mutations := ledger.mutations.keep (·.request ≠ row.request) }

def finishSet (profileId : Int) : ProfileLedger :=
  let replaced := { ledger with
    footprints := ledger.footprints.keep fun r =>
      r.station ≠ row.station || r.footprint.id ≠ profileId || r.owner = row.request }
  replaced.mark row .owned

def clearKnown (clear : ClearChargingProfileRequest201) : Except StorageError ProfileLedger := do
  let _ ← ledger.read row.station
  pure { ledger with
    footprints := ledger.footprints.keep fun r => r.station ≠ row.station || !r.footprint.matchesClear clear
    baseline := match baselinePurpose clear with
      | some purpose =>
          if ledger.known row.station purpose then ledger.baseline else ledger.baseline ++ [(row.station, purpose)]
      | none => ledger.baseline }

def purposeUnknown (clear : ClearChargingProfileRequest201) : Option ChargingProfileResult201 → Bool
  | some (.clearChargingProfile request .unknown _) => request = clear && (baselinePurpose clear).isSome
  | _ => false

def finishClear (clear : ClearChargingProfileRequest201) (accepted : Bool)
    (evidence : Option ChargingProfileResult201) : Except StorageError ProfileLedger :=
  if accepted || purposeUnknown clear evidence then ledger.clearKnown row clear
  else pure (ledger.releaseCandidate row)

end Steps

def acknowledges : ProfileMutation → ChargingProfileResult201 → Bool
  | .set footprint true, .setChargingProfile request _ _ => footprint = request.footprint
  | .clear clear, .clearChargingProfile request _ _ => clear = request
  | _, _ => false

def validateAcknowledgement (mutation : ProfileMutation) (result : CommandResult) : Except StorageError Unit := do
  require (result.chargingProfile201.all fun evidence =>
      acknowledges mutation evidence && result.lifecycle.answered evidence.accepted)
    (integrityFailure "profile acknowledgement changed reserved request")
  require (result.lifecycle.answered true → mutation.isCanonical ∨ result.chargingProfile201.isSome)
    (integrityFailure "native profile acceptance lacks acknowledgement")

def finish (ledger : ProfileLedger) (result : CommandResult) : Except StorageError ProfileLedger :=
  match ledger.mutations.find? result.request with
  | none => pure ledger
  | some row => do
      validateAcknowledgement row.mutation result
      match result.lifecycle, row.mutation with
      | .admitted, _ => pure ledger
      | .dispatched, _ => pure (ledger.start row)
      | .transmissionUncertain _, _ => pure ((ledger.mark row .uncertain).close row)
      | .protocolResponse true _, .set footprint _ => pure ((ledger.finishSet row footprint.id).close row)
      | .protocolResponse false _, .set _ _ => pure ((ledger.releaseCandidate row).close row)
      | .protocolResponse accepted _, .clear clear => do
          let ledger ← ledger.finishClear row clear accepted result.chargingProfile201
          pure (ledger.close row)
      | .rejected _, _ => pure ((ledger.releaseCandidate row).close row)

def fence (ledger : ProfileLedger) (row : MutationRow) : ProfileLedger :=
  (if row.started then ledger.mark row .uncertain else ledger.releaseCandidate row).close row

def stationScope (station : ResourceRef) : Except StorageError StationKey := do
  require (station.resource = none ∧ station.nativeProtocolReference = none)
    ⟨.invalidRequest, "profile ledger requires station scope"⟩
  stationKey station

def endedTransactions (snapshot : StationSnapshot) : List String :=
  (snapshot.transactions.filter (·.state = .ended)).filterMap (·.native201)

/-- Retire only on an explicit, actual end, never on a disconnect, missing state or pruned history. -/
def retireEnded (ledger : ProfileLedger) (snapshot : StationSnapshot) : Except StorageError ProfileLedger :=
  let ended := endedTransactions snapshot
  if ended = [] then pure ledger
  else do
    let station ← stationScope snapshot.station
    let _ ← ledger.read station
    pure { ledger with
      footprints := ledger.footprints.keep fun r =>
        r.station ≠ station || !r.footprint.transactionId.any (· ∈ ended) }

section Admission

def nativeTransaction (tx : TransactionSnapshot) : Option String :=
  if tx.state = .ended then none else tx.native201

def eligible (snapshot : StationSnapshot) (evseId : Int) (tx : TransactionSnapshot) : Bool :=
  (tx.state = .pending || tx.state = .active || tx.state = .suspended) && tx.resource.key = snapshot.station.key &&
    match tx.resource.nativeProtocolReference with
    | some (.ocpp201 id _) => (id : Int) = evseId
    | _ => false

/-- The footprint's transaction is the only one of its name and the only one running on its EVSE. -/
def transactionValid (snapshot : StationSnapshot) (footprint : ProfileFootprint) : Bool :=
  let native := snapshot.transactions.filter fun tx => (nativeTransaction tx).isSome
  let named := native.filter fun tx => nativeTransaction tx = footprint.transactionId
  let running := native.filter (eligible snapshot footprint.evseId)
  footprint.transactionId.isSome && named.length = 1 && running.length = 1 &&
    named.any (eligible snapshot footprint.evseId)

def validateSet (ledger : ProfileLedger) (station : StationKey) (resourceGrant : Bool)
    (snapshot : Option StationSnapshot) (requiresBaseline : Bool) (footprint : ProfileFootprint) (fullNative : Bool) :
    Except StorageError Unit := do
  require (requiresBaseline → ledger.known station .chargingStationMaxProfile ∧
      ledger.known station .txDefaultProfile ∧ ledger.known station .txProfile)
    (conflict "explicit charging profile baseline required")
  let existing ← ledger.read station
  require (existing.length < maxProfileFootprints) (conflict "charging profile ownership capacity exhausted")
  require (fullNative ∨ ∀ r ∈ existing, r.footprint.id = footprint.id → r.footprint = footprint)
    (conflict "canonical charging profile replacement exceeds authority")
  require (resourceGrant → ∀ r ∈ existing, r.footprint.id = footprint.id → r.footprint.evseId = footprint.evseId)
    (conflict "charging profile replacement exceeds resource authority")
  require (∀ r ∈ existing, r.footprint.conflicts footprint = false) (conflict "charging profile ownership conflict")
  require (footprint.transactionId.isSome → snapshot.any (transactionValid · footprint))
    (conflict "charging profile transaction unavailable")

def insert (ledger : ProfileLedger) (station : StationKey) (reservation : ProfileReservation) :
    Except StorageError ProfileLedger := do
  let request := reservation.requestId
  let ledger ←
    match reservation.mutation with
    | .set footprint _ => do
        require ((ledger.footprints.find? (station, request)).isNone) constraintViolation
        pure { ledger with footprints := ledger.footprints.put ⟨station, request, .reserved, footprint⟩ }
    | .clear _ => pure ledger
  require (∀ row ∈ ledger.mutations.rows, row.request ≠ request ∧ row.station ≠ station) constraintViolation
  pure { ledger with
    mutations := ledger.mutations.put ⟨request, station, reservation.connection, false, reservation.mutation⟩ }

end Admission

end ProfileLedger

end OcppBridge.Operational
