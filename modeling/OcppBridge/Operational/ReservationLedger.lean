import OcppBridge.Operational.Reservation

namespace OcppBridge.Operational

open Storage Transaction

namespace ReservationEdition

variable {P π τ ε : Type} [Wire P] [DecidableEq τ] [DecidableEq ε] (edition : ReservationEdition P π τ ε)

abbrev Records (edition : ReservationEdition P π τ ε) := Desk P edition.shape

def expire (desk : edition.Records) (values : List (ReservationRecord π ε)) (observedAt : UtcTimestamp) :
    Except StorageError (edition.Records × List (ReservationRecord π ε)) :=
  Desk.sweep (Desk.amend none)
    (fun record => if record.expired observedAt then some (record.settle .expired observedAt) else none) desk values

structure Attribution (π : Type) where
  reservationId : Int
  presented : ReservationCandidate π → Bool
  sourceTime : UtcTimestamp

def Attribution.concerns (fact : Attribution π) (record : ReservationRecord π ε) : Bool :=
  record.reservationId = fact.reservationId && record.started && record.state ≠ .rejected &&
    record.candidate.any fact.presented

def Attribution.selected (fact : Attribution π) (values : List (ReservationRecord π ε)) (observedAt : UtcTimestamp) :
    Option (ReservationRecord π ε) :=
  let tuples := values.filter fact.concerns
  let historical := tuples.filter fun r => !r.state.live && r.historicalInterval fact.sourceTime
  let olderClosed := tuples.all fun r => r.state.live || r.changedAt ≤ fact.sourceTime
  let floor := values.getLast?.bind (·.historyFloor)
  let outsideGap := floor.all (· < fact.sourceTime)
  match tuples.filter (·.state.live), historical with
  | [record], _ =>
      if (tuples.length = 1 ∧ floor = none) ∨
          (fact.sourceTime ≤ observedAt ∧ record.admittedAt ≤ fact.sourceTime ∧ olderClosed ∧
            historical = [] ∧ outsideGap) then some record else none
  | [], [record] => if outsideGap ∧ fact.sourceTime ≤ observedAt then some record else none
  | _, _ => none

def Attribution.consumed (fact : Attribution π) (record : ReservationRecord π ε) (observedAt : UtcTimestamp) :
    ReservationRecord π ε :=
  { record with
    changedAt := if record.state.live then max record.changedAt observedAt else record.changedAt
    state := .consumed
    unresolved := false
    ambiguous := false
    sourceTime := some fact.sourceTime
    sourceObservedAt := some observedAt }

def consume (desk : edition.Records) (values : List (ReservationRecord π ε)) (observedAt : UtcTimestamp)
    (fact : Attribution π) : Except StorageError edition.Records :=
  match fact.selected values observedAt with
  | some chosen => do
      let (desk, _) ← Desk.sweep (Desk.amend none)
        (fun record =>
          if record.revision = chosen.revision ∧ record.state ≠ .consumed then some (fact.consumed record observedAt)
          else none) desk values
      pure desk
  | none => do
      let (desk, _) ← Desk.sweep (Desk.amend none)
        (fun record =>
          if fact.concerns record ∧ (record.state.live ∨ record.historicalInterval fact.sourceTime) then
            some { record with
              ambiguous := true
              sourceTime := some fact.sourceTime
              sourceObservedAt := some observedAt }
          else none) desk values
      pure desk

/-- The opening of every observation: the station's records, with the elapsed ones expired. -/
def observeExpiry (desk : edition.Records) (station : ResourceRef) (observedAt : UtcTimestamp) :
    Except StorageError (edition.Records × List (ReservationRecord π ε)) := do
  let station ← stationKey station
  let values ← desk.readKey station
  edition.expire desk values observedAt

/-- Older terminal revisions whose result is gone are dropped. -/
def prune (desk : edition.Records) (station : StationKey) (now : UtcTimestamp) :
    Except StorageError edition.Records := do
  let values ← desk.readKey station
  match values.getLast? with
  | none => pure desk
  | some head => do
      let floor := now - operationalHistoryRetentionSeconds * nanosecondsPerSecond
      let (desk, historyFloor) ← values.dropLast.foldlM
        (fun (desk, historyFloor) record =>
          if record.unresolved ∨ record.state.live ∨ floor < record.changedAt then pure (desk, historyFloor)
          else do
            let (desk, removed) ← desk.delete station record
            pure (desk,
              if removed ∧ record.started ∧ record.candidate.isSome ∧ record.state ≠ .rejected then
                some ((historyFloor.map (max · record.changedAt)).getD record.changedAt)
              else historyFloor))
        (desk, head.historyFloor)
      if historyFloor ≠ head.historyFloor then desk.save { head with historyFloor } none else pure desk

def restart (now : UtcTimestamp) (startup : Bool) (desk : edition.Records) (station : StationKey)
    (records : List (ReservationRecord π ε)) : Except StorageError edition.Records :=
  if startup then do
    let (desk, _) ← Desk.sweep (Desk.amend (some false))
      (fun record => if record.unresolved then some (record.recover now) else none) (desk.land station) records
    pure desk
  else pure desk

def expireListed (now : UtcTimestamp) (desk : edition.Records) (records : List (ReservationRecord π ε)) :
    Except StorageError edition.Records :=
  match records.head? with
  | some record => do
      let (desk, _) ← edition.observeExpiry desk record.station now
      pure desk
  | none => pure desk

def maintainStation (now : UtcTimestamp) (startup : Bool) (desk : edition.Records) (station : StationKey) :
    Except StorageError edition.Records := do
  let records ← desk.readKey station
  let desk ← edition.restart now startup desk station records
  let desk ← edition.expireListed now desk records
  edition.prune desk station now

def maintain (desk : edition.Records) (now : UtcTimestamp) (startup : Bool) : Except StorageError edition.Records :=
  desk.stations.foldlM (edition.maintainStation now startup) desk

def reserve (desk : edition.Records) (mutation : ReservationMutation π) : Except StorageError edition.Records := do
  edition.validateMutation desk.journal mutation
  let station ← stationKey mutation.station
  let (desk, _) ← edition.observeExpiry desk mutation.station mutation.admittedAt
  let desk ← edition.prune desk station mutation.admittedAt
  require (desk.inflight station = false) (conflict "station reservation mutation already in flight")
  let values ← desk.readKey station
  require (values.length ≠ maxReservationRevisions) (conflict "reservation history capacity exhausted")
  let candidate := match mutation.mutation with
    | .reserve candidate => some candidate
    | .cancel => none
  require (candidate.all (mutation.admittedAt < ·.expiry)) (conflict "reservation expiry elapsed")
  desk.insert station
    { station := mutation.station
      requestId := mutation.requestId
      reservationId := mutation.reservationId
      revision := (values.getLast?.map (·.revision + 1)).getD 1
      candidate
      state := .pending
      admittedAt := mutation.admittedAt
      changedAt := mutation.admittedAt
      sourceTime := none
      sourceObservedAt := none
      started := false
      unresolved := true
      ambiguous := false
      historyFloor := values.getLast?.bind (·.historyFloor) }

def ownedBy (record : ReservationRecord π ε) (reply : ReservationResult τ ε) : Bool :=
  match reply, record.candidate with
  | .reserveNow reservationId place _ _, some candidate =>
      reservationId = record.reservationId && place = edition.target candidate.place
  | .cancelReservation reservationId _ _, none => reservationId = record.reservationId
  | _, _ => false

def validateReply (record : ReservationRecord π ε) (incoming : CommandResult) : Except StorageError Bool := do
  let reply := edition.evidence incoming
  let accepted := reply.any (·.accepted)
  let native := reply.filter (·.hasNativeStatus)
  require (native.all fun reply => edition.ownedBy record reply && incoming.lifecycle.answered accepted)
    (conflict "reservation acknowledgement changed reserved action")
  require (incoming.lifecycle.isProtocolResponse → native.isSome)
    (conflict "reservation protocol response lacks native status")
  pure accepted

def displace (record : ReservationRecord π ε) (recordedAt : UtcTimestamp) (previous : ReservationRecord π ε) :
    Option (ReservationRecord π ε) :=
  if previous.reservationId = record.reservationId ∧ previous.revision < record.revision ∧ previous.state.live then
    some (previous.settle
      (if record.candidate.isSome ∨ previous.candidate = none then .superseded else .cancelled) recordedAt)
  else none

def acknowledged (record : ReservationRecord π ε) (recordedAt : UtcTimestamp) : ReservationRecord π ε :=
  if record.state.live then
    { record with
      state := match record.candidate with
        | some candidate => if candidate.expiry ≤ recordedAt then .expired else .active
        | none => .cancelled }
  else record

def acknowledge (desk : edition.Records) (station : StationKey) (record : ReservationRecord π ε)
    (recordedAt : UtcTimestamp) : Except StorageError (edition.Records × ReservationRecord π ε) := do
  let values ← desk.readKey station
  let (desk, _) ← Desk.sweep (Desk.amend (some false)) (displace record recordedAt) desk values
  pure (desk, acknowledged record recordedAt)

/-- What one result lifecycle does to its own record, and whether the request stays in flight. -/
def advance (desk : edition.Records) (station : StationKey) (entry : Entry (ReservationRecord π ε)) (accepted : Bool)
    (incoming : CommandResult) : Except StorageError (edition.Records × ReservationRecord π ε × Bool) :=
  let record := entry.record
  match incoming.lifecycle with
  | .admitted => pure (desk, record, entry.inflight)
  | .dispatched => pure (desk, { record with started := true }, entry.inflight)
  | .transmissionUncertain _ =>
      pure (desk, if record.state = .pending then { record with state := .uncertain } else record, false)
  | .rejected _ =>
      pure (desk,
        { record with
          state := if record.state = .pending ∨ record.state = .uncertain then .rejected else record.state
          unresolved := false }, false)
  | .protocolResponse _ _ => do
      let record := { record with unresolved := false }
      if accepted then do
        let (desk, record) ← edition.acknowledge desk station record incoming.recordedAt
        pure (desk, record, false)
      else
        pure (desk, { record with state := if record.state.live then .rejected else record.state }, false)

def publish (record : ReservationRecord π ε) (incoming : CommandResult) : CommandResult :=
  let reply := match edition.evidence incoming, record.candidate with
    | some reply, _ => reply.setReconciliation record.reconciliation
    | none, some candidate =>
        .reserveNow record.reservationId (edition.target candidate.place) none record.reconciliation
    | none, none => .cancelReservation record.reservationId none record.reconciliation
  { edition.setEvidence reply incoming with schemaVersion := edition.version }

def finish (desk : edition.Records) (incoming : CommandResult) :
    Except StorageError (edition.Records × CommandResult) :=
  match desk.ofRequest incoming.request with
  | none => do
      require ((edition.evidence incoming).isNone) (conflict "reservation acknowledgement lacks durable owner")
      pure (desk, incoming)
  | some entry => do
      let record ← edition.shape.decode entry.record
      edition.correlate desk.journal incoming
      let station ← stationKey record.station
      let accepted ← edition.validateReply record incoming
      let (desk, changed, inflight) ← edition.advance desk station entry accepted incoming
      let changed :=
        if changed.state ≠ record.state then { changed with changedAt := max changed.changedAt incoming.recordedAt }
        else changed
      let desk ← desk.save changed (some inflight)
      pure (desk, edition.publish changed incoming)

def merge (previous incoming : CommandResult) : Except StorageError CommandResult :=
  match edition.evidence previous, edition.evidence incoming with
  | none, _ => pure incoming
  | some old, none => pure { edition.setEvidence old incoming with schemaVersion := edition.version }
  | some (.reserveNow oldId oldPlace oldStatus _), some (.reserveNow id place status reconciliation) => do
      require (oldId = id ∧ oldPlace = place) (conflict "reservation action identity changed")
      require (oldStatus = none ∨ status = none ∨ oldStatus = status)
        (conflict "reservation native status is immutable")
      pure (edition.setEvidence (.reserveNow id place (status <|> oldStatus) reconciliation) incoming)
  | some (.cancelReservation oldId oldStatus _), some (.cancelReservation id status reconciliation) => do
      require (oldId = id) (conflict "reservation action identity changed")
      require (oldStatus = none ∨ status = none ∨ oldStatus = status)
        (conflict "reservation native status is immutable")
      pure (edition.setEvidence (.cancelReservation id (status <|> oldStatus) reconciliation) incoming)
  | some _, some _ => .error (conflict "reservation action identity changed")

def validateStored (desk : edition.Records) (result : CommandResult) : Except StorageError Unit :=
  match edition.evidence result with
  | none => pure ()
  | some evidence => do
      (edition.correlate desk.journal result).mapError fun _ =>
        integrityFailure "invalid stored reservation result owner"
      match desk.ofRequest result.request with
      | none => .error (integrityFailure "stored reservation result lacks durable owner")
      | some entry => do
          let record ← edition.shape.decode entry.record
          require (evidence.reconciliation = record.reconciliation)
            (integrityFailure "stored reservation reconciliation changed")

end ReservationEdition

end OcppBridge.Operational
