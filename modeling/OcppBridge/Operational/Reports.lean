import OcppBridge.Operational.Ledger

namespace OcppBridge.Operational

open Storage Transaction

def outputLimit : Nat := 1024 * 1024

/-- A complete report that arrived before its native acknowledgement. -/
structure StagedReport where
  request : RequestId
  report : DeviceReportState201
  progress : ReportProgress
  deriving DecidableEq, Repr

abbrev Staging := Table StagedReport.request

namespace DeviceModel201

def integrity : StorageError := integrityFailure "device-model evidence identity changed"

def acceptedProgress : DeviceReportState201 → Option ReportProgress
  | .complete progress _ => some progress
  | .incomplete _ progress => progress
  | _ => none

def enrichable : DeviceReportState201 → Bool
  | .incomplete .missingAcknowledgement none | .incomplete .nativeRejected none | .incomplete .notTransmitted none
  | .incomplete .disconnected none | .incomplete .capacity none | .incomplete .storageUnavailable none => true
  | _ => false

def sameQuery (old new : DeviceModelResult201) : Bool :=
  old.query = new.query && old.connection = new.connection && old.generation = new.generation &&
    old.dispatchRecordedAt = new.dispatchRecordedAt

def mergeReport (old new : DeviceReportState201) : DeviceReportState201 :=
  match old with
  | .pending => new
  | .incomplete reason progress =>
      .incomplete reason (if enrichable old then acceptedProgress new <|> progress else progress)
  | _ => old

def merge (previous incoming : CommandResult) : Except StorageError CommandResult :=
  match previous.deviceModel201, incoming.deviceModel201 with
  | none, _ => pure incoming
  | some old, none => pure { incoming with deviceModel201 := some old, schemaVersion := .v1DeviceModel201 }
  | some old, some new => do
      require (sameQuery old new) integrity
      require (old.nativeAck = none ∨ new.nativeAck = none ∨ old.nativeAck = new.nativeAck) integrity
      require (old.variableResults = [] ∨ new.variableResults = [] ∨
        old.variableResults = new.variableResults) integrity
      pure { incoming with
        deviceModel201 := some { new with
          nativeAck := old.nativeAck <|> new.nativeAck
          variableResults := if old.variableResults = [] then new.variableResults else old.variableResults
          report := mergeReport old.report new.report }
        schemaVersion := .v1DeviceModel201 }

/-- Why the report cannot follow any more, as far as the acknowledgement and the lifecycle say. -/
def reportFailure (ack : Option DeviceReportAck201) (lifecycle : CommandLifecycle) : Option DeviceReportFailure201 :=
  match ack, lifecycle with
  | some .rejected, _ | some .notSupported, _ => some .nativeRejected
  | some _, _ => none
  | none, .transmissionUncertain _ => some .missingAcknowledgement
  | none, .rejected _ => some .notTransmitted
  | none, .protocolResponse false _ => some .nativeRejected
  | none, _ => none

def isComplete : DeviceReportState201 → Bool
  | .complete _ _ => true
  | _ => false

def finalReport (evidence : DeviceModelResult201) (lifecycle : CommandLifecycle) : DeviceReportState201 :=
  if evidence.nativeAck = some .emptyResultSet then .notExpected
  else
    let failure := reportFailure evidence.nativeAck lifecycle <|>
      if evidence.nativeAck = none ∧ isComplete evidence.report then some .missingAcknowledgement else none
    match failure, evidence.report with
    | some reason, .complete progress _ => .incomplete reason (some progress)
    | some reason, .pending => .incomplete reason none
    | _, report => report

def finalizeLifecycle (result : CommandResult) : CommandResult :=
  match result.deviceModel201 with
  | none => result
  | some evidence =>
      if evidence.query.requestId = none then result
      else { result with deviceModel201 := some { evidence with report := finalReport evidence result.lifecycle } }

section Output

variable (P : Type) [Wire P]

def fits (result : CommandResult) : Bool := Wire.resultSize P result ≤ outputLimit

/-- A report that cannot be retained within the bound becomes an explicit output failure. -/
def boundOutput (result : CommandResult) : Except StorageError CommandResult :=
  match result.deviceModel201 with
  | none => pure result
  | some evidence =>
      if fits P result then pure result
      else do
        let bounded := match evidence.report with
          | .complete progress _ =>
              { result with
                deviceModel201 := some { evidence with report := .incomplete .outputLimit (some progress) } }
          | _ => result
        require (fits P bounded) ⟨.invalidRequest, "device-model result exceeds bounded output"⟩
        pure bounded

end Output

section Staging

def stagedProgress (staging : Staging) (request : RequestId) : Except StorageError (Option ReportProgress) :=
  match staging.find? request with
  | none => pure none
  | some staged => do
      let progress := staged.progress
      require (progress.fragments ≤ 256 ∧ progress.items ≤ 4096 ∧ progress.bytes ≤ outputLimit) integrity
      pure (some progress)

/-- A terminal report takes over accepted progress, its own or that of the staged report. -/
def prepareProgress (staging : Staging) (request : RequestId) (old incoming : DeviceReportState201) :
    Except StorageError DeviceReportState201 := do
  let report : DeviceReportState201 := match old, acceptedProgress incoming with
    | .incomplete reason _, some progress => if enrichable old then .incomplete reason (some progress) else incoming
    | _, _ => incoming
  match old, report with
  | .pending, .incomplete reason none => do
      let progress ← stagedProgress staging request
      pure (.incomplete reason progress)
  | _, _ => pure report

variable (P : Type) [Wire P]

def stage (staging : Staging) (request : RequestId) (ack : Option DeviceReportAck201) (lifecycle : CommandLifecycle)
    (report : DeviceReportState201) : Except StorageError (Staging × DeviceReportState201) :=
  match report with
  | .complete progress _ =>
      if ack = none ∧ (lifecycle = .admitted ∨ lifecycle = .dispatched) then do
        require (Wire.deviceReportSize P report ≤ outputLimit) integrity
        require (progress.fragments ≤ 256 ∧ progress.items ≤ 4096 ∧ progress.bytes ≤ outputLimit) constraintViolation
        pure (if (staging.find? request).isSome then staging else staging.put ⟨request, report, progress⟩, .pending)
      else pure (staging, report)
  | _ => pure (staging, report)

def unstage (staging : Staging) (request : RequestId) (ack : Option DeviceReportAck201)
    (report : DeviceReportState201) : Except StorageError DeviceReportState201 :=
  match staging.find? request with
  | some staged =>
      if report.isPending ∧ ack = some .accepted then do
        require (isComplete staged.report) integrity
        pure staged.report
      else pure report
  | none => pure report

/-- Reconcile an arriving report with the acknowledgement, the lifecycle and what was staged. -/
def prepare (staging : Staging) (request : RequestId) (old incoming : DeviceModelResult201)
    (lifecycle : CommandLifecycle) : Except StorageError (Staging × DeviceModelResult201) := do
  require (sameQuery old incoming) integrity
  require (old.nativeAck = none ∨ incoming.nativeAck = none ∨ old.nativeAck = incoming.nativeAck) integrity
  let ack := old.nativeAck <|> incoming.nativeAck
  let failure := reportFailure ack lifecycle
  let report ← prepareProgress staging request old.report incoming.report
  let (staging, report) ←
    if old.report.isPending then stage P staging request ack lifecycle report else pure (staging, report)
  let report ← if old.report.isPending then unstage staging request ack report else pure report
  let report ←
    match failure with
    | some reason =>
        if old.report.isPending ∧ report.isPending then do
          let progress ← stagedProgress staging request
          pure (.incomplete reason progress)
        else pure report
    | none => pure report
  let closed := !report.isPending || failure.isSome || ack = some .emptyResultSet
  pure (if closed then staging.keep (·.request ≠ request) else staging, { incoming with report })

end Staging

end DeviceModel201

namespace ChargingProfiles201

def integrity : StorageError := integrityFailure "installed-profile evidence identity changed"

def merge (previous incoming : CommandResult) : Except StorageError CommandResult :=
  match previous.chargingProfiles201, incoming.chargingProfiles201 with
  | none, _ => pure incoming
  | some old, none => pure { incoming with chargingProfiles201 := some old, schemaVersion := .v1Schedules201 }
  | some old, some new => do
      require (old.query = new.query ∧ old.status = new.status ∧ old.reasonCode = new.reasonCode) integrity
      pure { incoming with
        chargingProfiles201 := some (if old.report.isPending then new else { new with report := old.report })
        schemaVersion := .v1Schedules201 }

/-- Evidence exists only beside its native acknowledgement, and the report follows its status. -/
def validateStored (result : CommandResult) : Except StorageError Unit :=
  match result.chargingProfiles201 with
  | none => pure ()
  | some evidence =>
      require ((evidence.status = .noProfiles ↔ evidence.report = .notExpected) ∧
        result.schemaVersion = .v1Schedules201 ∧ result.lifecycle.isProtocolResponse) integrity

variable (P : Type) [Wire P] in
def boundOutput (result : CommandResult) : CommandResult :=
  match result.chargingProfiles201 with
  | some evidence =>
      match evidence.report with
      | .complete progress _ =>
          if Wire.profileReportSize P evidence.report ≤ outputLimit then result
          else
            { result with
              chargingProfiles201 := some { evidence with report := .incomplete .outputLimit (some progress) } }
      | _ => result
  | none => result

def pending (result : CommandResult) : Bool := result.chargingProfiles201.any (·.report.isPending)

def interrupt (result : CommandResult) : Except StorageError CommandResult :=
  match result.chargingProfiles201 with
  | none => .error integrity
  | some evidence =>
      pure (if evidence.report.isPending then
          { result with chargingProfiles201 := some { evidence with report := .incomplete .interrupted none } }
        else result)

end ChargingProfiles201

def CommandResult.reportPending (result : CommandResult) : Bool :=
  result.deviceModel201.any (·.report.isPending) || ChargingProfiles201.pending result

namespace DeviceModel201

variable {P : Type} [Wire P]

def interruptResult (result : CommandResult) : Except StorageError CommandResult :=
  match result.deviceModel201 with
  | some evidence =>
      pure { result with deviceModel201 := some { evidence with report := .incomplete .interrupted none } }
  | none => ChargingProfiles201.interrupt result

def nextPending (journal : Journal P) : Option ResultRow :=
  ((journal.results.rows.filter (·.reportPending)).mergeSort fun r r' => r.request ≤ r'.request).head?

def interruptRow (journal : Journal P) (staging : Staging) (row : ResultRow) :
    Except StorageError (Journal P × Staging) := do
  let result ← decodeResult P row.payload
  let result ← interruptResult result
  pure ({ journal with results := journal.results.replace { row with payload := result, reportPending := false } },
    staging.keep (·.request ≠ row.request))

/-- Every row is terminated in a transaction of its own. -/
def interruptLoop : Nat → Journal P → Staging → Journal P × Staging
  | 0, journal, staging => (journal, staging)
  | fuel + 1, journal, staging =>
      match nextPending journal with
      | none => (journal, staging)
      | some row =>
          match interruptRow journal staging row with
          | .error _ => (journal, staging)
          | .ok (journal, staging) => interruptLoop fuel journal staging

def interrupt (journal : Journal P) (staging : Staging) : Journal P × Staging :=
  interruptLoop (journal.results.rows.countP (·.reportPending)) journal staging

end DeviceModel201

end OcppBridge.Operational
