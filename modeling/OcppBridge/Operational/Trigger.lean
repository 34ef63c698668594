import OcppBridge.Keyed
import OcppBridge.Operational.Ledger

namespace OcppBridge.Operational

open Keyed Storage Transaction

def maxTriggerTargets : Nat := 65

namespace TriggerObservation

def seen (o : TriggerObservation) : Nat :=
  (o.expectedTargets.zipIdx.filter fun (target, index) =>
    (o.observed.find? (·.target = target)).any fun event =>
      !(o.expectedTargets.take index).any fun previous =>
        o.observed.any fun prior => prior.target = previous && prior.eventId = event.eventId).length

def refreshedStatus (o : TriggerObservation) (now : UtcTimestamp) : TriggerObservationStatus :=
  if o.nativeResponse = some .rejected ∨ o.nativeResponse = some .notImplemented then .unsupported
  else if o.nativeResponse = some .accepted ∧ o.seen = o.expectedTargets.length ∧ o.seen ≠ 0 then .observed
  else if o.deadline ≤ now then if o.seen = 0 then .absent else .partly
  else if o.seen ≠ 0 ∧ o.nativeResponse = some .accepted then .partly
  else .pending

def refreshStatus (o : TriggerObservation) (now : UtcTimestamp) : TriggerObservation :=
  { o with status := o.refreshedStatus now }

def sameExpectation (o o' : TriggerObservation) : Bool :=
  o.requestedClass = o'.requestedClass && o.nativeScope = o'.nativeScope && o.expectedTargets = o'.expectedTargets &&
    o.dispatchStartedAt = o'.dispatchStartedAt && o.deadline = o'.deadline

end TriggerObservation

namespace TriggerMessageClass201

def isCertificate : TriggerMessageClass201 → Bool
  | signChargingStationCertificate | signV2GCertificate | signCombinedCertificate => true
  | _ => false

def isStationOnly : TriggerMessageClass201 → Bool
  | bootNotification | logStatusNotification | firmwareStatusNotification | heartbeat
  | signChargingStationCertificate | publishFirmwareStatusNotification => true
  | _ => false

def compatibleTarget (requested : TriggerMessageClass201) (expected observed : TriggerTarget201) : Bool :=
  expected = observed ||
    (requested = transactionEvent &&
      match expected, observed with
      | .evse expected, .connector actual _ => expected = actual
      | _, _ => false)

end TriggerMessageClass201

namespace TriggerObservation201

/-- `SignCertificate` carries no EVSE identity, so a scoped request cannot be attributed. -/
def scopedCertificate (o : TriggerObservation201) : Bool :=
  o.requestedClass.isCertificate && !o.requestedClass.isStationOnly && o.nativeScope.isSome

def seen (o : TriggerObservation201) : Nat :=
  (o.expectedTargets.zipIdx.filter fun (target, index) =>
    o.observed.any fun event =>
      !o.scopedCertificate && o.requestedClass.compatibleTarget target event.target &&
        !(o.expectedTargets.take index).any fun prior =>
          o.observed.any fun other =>
            o.requestedClass.compatibleTarget prior other.target && other.eventId = event.eventId).length

def stationCertificate (o : TriggerObservation201) : Bool :=
  o.scopedCertificate && o.observed.any (·.target = .station)

def accepted (o : TriggerObservation201) : Bool := o.nativeResponse.any (·.status = .accepted)

def refreshedStatus (o : TriggerObservation201) (now : UtcTimestamp) : TriggerObservationStatus201 :=
  if o.nativeResponse.any (·.status ≠ .accepted) then .unsupported
  else if o.accepted ∧ o.seen = o.expectedTargets.length ∧ o.seen ≠ 0 ∧ !o.stationCertificate then .observed
  else if o.stationCertificate then .unattributable
  else if o.deadline ≤ now then if o.seen = 0 then .absent else .partly
  else if o.seen ≠ 0 ∧ o.accepted then .partly
  else .pending

def refreshStatus (o : TriggerObservation201) (now : UtcTimestamp) : TriggerObservation201 :=
  { o with status := o.refreshedStatus now }

def sameExpectation (o o' : TriggerObservation201) : Bool :=
  o.requestedClass = o'.requestedClass && o.nativeScope = o'.nativeScope && o.expectedTargets = o'.expectedTargets &&
    o.dispatchStartedAt = o'.dispatchStartedAt && o.deadline = o'.deadline

end TriggerObservation201

namespace Trigger

def merge (previous incoming : CommandResult) : Except StorageError CommandResult :=
  match previous.triggerObservation with
  | none => pure incoming
  | some stored =>
      if incoming.lifecycle.isRejected ∧ incoming.triggerObservation = none then pure incoming
      else match incoming.triggerObservation with
        | none => pure { incoming with triggerObservation := some stored, schemaVersion := .v1Trigger }
        | some next => do
            require (stored.sameExpectation next) (integrityFailure "trigger dispatch expectation changed")
            require (stored.nativeResponse = none ∨ next.nativeResponse = none ∨
                stored.nativeResponse = next.nativeResponse) (integrityFailure "trigger native response changed")
            let next := { next with
              nativeResponse := next.nativeResponse <|> stored.nativeResponse
              observed := pushAbsent (·.eventId) next.observed stored.observed }
            require (next.observed.length ≤ maxTriggerTargets) (integrityFailure "trigger evidence bound exceeded")
            let at_ := max incoming.recordedAt
              (if stored.status = .absent then stored.deadline else stored.dispatchStartedAt)
            pure { incoming with
              triggerObservation := some (next.refreshStatus at_)
              schemaVersion := .v1Trigger }

end Trigger

namespace Trigger201

def merge (previous incoming : CommandResult) : Except StorageError (CommandResult × Bool) :=
  match previous.triggerObservation201 with
  | none =>
      -- A stale dispatch writer cannot resurrect an expectation after terminal rejection.
      pure (if previous.lifecycle.isRejected then { incoming with triggerObservation201 := none } else incoming, false)
  | some stored =>
      if previous.lifecycle = .dispatched ∧ stored.nativeResponse = none ∧ incoming.lifecycle.isRejected ∧
          incoming.triggerObservation201 = none then pure (incoming, true)
      else match incoming.triggerObservation201 with
        | none =>
            pure ({ incoming with triggerObservation201 := some stored, schemaVersion := .v1Trigger201 }, false)
        | some next => do
            require (stored.sameExpectation next) (integrityFailure "OCPP 2.0.1 trigger expectation changed")
            require (stored.nativeResponse = none ∨ next.nativeResponse = none ∨
                stored.nativeResponse = next.nativeResponse) (integrityFailure "OCPP 2.0.1 trigger response changed")
            require (∀ event ∈ next.observed, event ∈ stored.observed)
              (integrityFailure "OCPP 2.0.1 trigger evidence changed outside reconciliation")
            let next := { next with
              nativeResponse := next.nativeResponse <|> stored.nativeResponse
              observed := pushAbsent (·.eventId) next.observed stored.observed }
            require (next.observed.length ≤ maxTriggerTargets + stored.requestedClass.isCertificate.toNat)
              (integrityFailure "OCPP 2.0.1 trigger evidence bound exceeded")
            let at_ := max incoming.recordedAt
              (if stored.status = .absent then stored.deadline else stored.dispatchStartedAt)
            pure ({ incoming with
              triggerObservation201 := some (next.refreshStatus at_)
              schemaVersion := .v1Trigger201 }, false)

end Trigger201

end OcppBridge.Operational
