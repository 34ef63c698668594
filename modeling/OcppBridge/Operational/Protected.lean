import OcppBridge.Operational.Validation

namespace OcppBridge.Operational

open Storage Transaction

variable {P : Type} [Wire P]

def stationScope16 (r : ResourceRef) : Bool :=
  r.resource = none && (r.nativeProtocolReference = none || r.nativeProtocolReference = some (.ocpp16 0))

def stationScope201 (r : ResourceRef) : Bool :=
  r.resource = none && (r.nativeProtocolReference = none || r.nativeProtocolReference = some (.ocpp201 0 none))

def CommandResult.answers (result : CommandResult) (command : Command P) : Bool :=
  result.resource = command.resource && result.correlationId = command.correlationId &&
    result.returnRoute = command.returnRoute

namespace Configuration201

def invalid : StorageError := integrityFailure "invalid protected configuration identity or evidence"

def itemsLimit : Nat := 4096

def setVariablesSchema : String := "urn:uob:ocpp201:SetVariablesReference:1"

def setNetworkProfileSchema : String := "urn:uob:ocpp201:SetNetworkProfileReference:1"

/-- Two writes address the same attribute when they agree up to letter case. -/
structure Key where
  component : String
  componentInstance : Option String
  evse : Option DeviceEvse201
  variableName : String
  variableInstance : Option String
  attributeType : DeviceAttributeType201
  deriving DecidableEq

variable (P) in
def key (component : DeviceComponent201) (variableOf : DeviceVariable201) (attributeType : DeviceAttributeType201) :
    Key :=
  let fold := Wire.caseFold P
  ⟨fold component.name, component.instanceName.map fold, component.evse, fold variableOf.name,
    variableOf.instanceName.map fold, attributeType⟩

def contained (resource : ResourceRef) (component : DeviceComponent201) : Bool :=
  match resource.resource, resource.nativeProtocolReference with
  | none, none => true
  | some (.evse _ canonical), some (.ocpp201 evseId connectorId) =>
      canonical.isSome = connectorId.isSome &&
        component.evse.any fun evse =>
          evse.id = (evseId : Int) && connectorId.all fun id => evse.connectorId = some (id : Int)
  | _, _ => false

def bounded (value : String) : Bool := value.toList.length ≤ 50

def validEntry (resource : ResourceRef) (entry : SetVariableReference201) : Bool :=
  validConfigurationReference201 entry.valueReference && contained resource entry.component &&
    bounded entry.component.name && bounded entry.variableOf.name &&
    entry.component.instanceName.all bounded && entry.variableOf.instanceName.all bounded &&
    entry.component.evse.all fun evse => 0 < evse.id && evse.connectorId.all (0 < ·)

variable (P) in
def entryKey (entry : SetVariableReference201) : Key :=
  key P entry.component entry.variableOf (entry.attributeType.getD .actual)

def validOperation (resource : ResourceRef) (operation : PrivilegedOcppOperation P) : Bool :=
  match operation.action with
  | "SetVariables" =>
      operation.payloadSchema = setVariablesSchema &&
        (Wire.setVariables201 operation.payload).any fun entries =>
          entries ≠ [] && entries.length ≤ itemsLimit && entries.all (validEntry resource) &&
            (entries.map (entryKey P)).Nodup
  | "SetNetworkProfile" =>
      operation.payloadSchema = setNetworkProfileSchema && resource.resource = none &&
        resource.nativeProtocolReference = none &&
        (Wire.setNetworkProfile201 operation.payload).any fun request =>
          validConfigurationReference201 request.profileReference
  | _ => true

def validateCommand (command : Command P) : Except StorageError Unit :=
  match command.operation with
  | .ocpp operation =>
      require (operation.protocol = .ocpp201 → validOperation command.resource operation) invalid
  | _ => pure ()

variable (P) in
def wellFormed : ConfigurationResult201 → Bool
  | .setVariables entries =>
      entries ≠ [] && entries.length ≤ itemsLimit &&
        (entries.map fun e => key P e.component e.variableOf e.attributeType).Nodup
  | .setNetworkProfile _ status staged => staged = decide (status = .accepted)

variable (P) in
def validateResult (result : CommandResult) : Except StorageError Unit :=
  match result.configuration201 with
  | none => pure ()
  | some evidence =>
      require (result.schemaVersion = .v1Configuration201 ∧ result.lifecycle.isProtocolResponse ∧
          result.lifecycle.agrees evidence.accepted ∧ result.unprotected = false ∧ wellFormed P evidence) invalid

def describes (operation : PrivilegedOcppOperation P) : ConfigurationResult201 → Bool
  | .setVariables entries =>
      operation.action = "SetVariables" &&
        (Wire.setVariables201 operation.payload).any fun request =>
          request.map (fun r => (r.component, r.variableOf, r.attributeType.getD .actual)) =
            entries.map fun e => (e.component, e.variableOf, e.attributeType)
  | .setNetworkProfile configurationSlot _ _ =>
      operation.action = "SetNetworkProfile" &&
        (Wire.setNetworkProfile201 operation.payload).any fun request => configurationSlot = request.configurationSlot

def correlate (command : Command P) (result : CommandResult) : Except StorageError Unit := do
  validateCommand command
  validateResult P result
  require (result.answers command) invalid
  match result.configuration201, command.operation with
  | none, _ => pure ()
  | some evidence, .ocpp operation => require (operation.protocol = .ocpp201 ∧ describes operation evidence) invalid
  | some _, _ => .error invalid

end Configuration201

/-- How an edition validates its authorization list commands and answers. -/
structure LocalAuthorization (P σ : Type) where
  protocol : ProtocolEdition
  scope : ResourceRef → Bool
  sendListSchema : String
  getVersionSchema : String
  clearCacheSchema : String
  decode : P → Option SendLocalListReference
  version : ContractVersion
  evidence : CommandResult → Option (LocalAuthorizationResult σ)
  setEvidence : LocalAuthorizationResult σ → CommandResult → CommandResult
  foreign : CommandResult → Bool
  accepted : LocalAuthorizationResult σ → Bool
  validVersion : LocalAuthorizationResult σ → Bool

namespace LocalAuthorization

variable {σ : Type} [DecidableEq σ] (edition : LocalAuthorization P σ)

def invalid : StorageError := integrityFailure "invalid protected local authorization identity or evidence"

def validOperation (operation : PrivilegedOcppOperation P) : Bool :=
  match operation.action with
  | "SendLocalList" => operation.payloadSchema = edition.sendListSchema && (edition.decode operation.payload).isSome
  | "GetLocalListVersion" =>
      operation.payloadSchema = edition.getVersionSchema && Wire.fieldCount operation.payload = some 0
  | "ClearCache" => operation.payloadSchema = edition.clearCacheSchema && Wire.fieldCount operation.payload = some 0
  | _ => true

def validateCommand (command : Command P) : Except StorageError Unit :=
  match command.operation with
  | .ocpp operation =>
      if operation.action ∈ ["GetLocalListVersion", "SendLocalList", "ClearCache"] ∧
          operation.protocol = edition.protocol then
        require (edition.scope command.resource ∧ validOperation edition operation) invalid
      else pure ()
  | _ => pure ()

def validateResult (result : CommandResult) : Except StorageError Unit :=
  match edition.evidence result with
  | none => pure ()
  | some evidence =>
      require (result.schemaVersion = edition.version ∧ result.lifecycle.isProtocolResponse ∧
          result.lifecycle.agrees (edition.accepted evidence) ∧ edition.foreign result = false ∧
          edition.validVersion evidence) invalid

def describes (operation : PrivilegedOcppOperation P) : LocalAuthorizationResult σ → Bool
  | .getLocalListVersion _ => operation.action = "GetLocalListVersion"
  | .clearCache _ => operation.action = "ClearCache"
  | .sendLocalList version updateType _ =>
      operation.action = "SendLocalList" &&
        (edition.decode operation.payload).any fun r => r.version = version && r.updateType = updateType

def merge (previous incoming : CommandResult) : Except StorageError CommandResult :=
  match edition.evidence previous with
  | none => pure incoming
  | some evidence => do
      require ((edition.evidence incoming).all (· = evidence)) invalid
      let incoming := edition.setEvidence evidence incoming
      pure { incoming with
        schemaVersion := previous.schemaVersion
        lifecycle := previous.lifecycle
        recordedAt := previous.recordedAt }

end LocalAuthorization

def LocalAuthorization16.edition : LocalAuthorization P SendLocalListStatus16 where
  protocol := .ocpp16j
  scope := stationScope16
  sendListSchema := "urn:uob:ocpp16:SendLocalListReference:1"
  getVersionSchema := "urn:OCPP:1.6:2019:12:GetLocalListVersionRequest"
  clearCacheSchema := "urn:OCPP:1.6:2019:12:ClearCacheRequest"
  decode := decodeSendLocalList16
  version := .v1LocalAuthorization16
  evidence := (·.localAuthorization16)
  setEvidence evidence result := { result with localAuthorization16 := some evidence }
  foreign result := result.unprotected || result.configuration201.isSome || result.localAuthorization201.isSome
  accepted := LocalAuthorizationResult16.accepted
  validVersion
    | .sendLocalList version _ _ => version ≠ -1 && version ≠ 0
    | _ => true

def LocalAuthorization201.edition : LocalAuthorization P SendLocalListStatus201 where
  protocol := .ocpp201
  scope := stationScope201
  sendListSchema := "urn:uob:ocpp201:SendLocalListReference:1"
  getVersionSchema := "urn:OCPP:Cp:2:2020:3:GetLocalListVersionRequest"
  clearCacheSchema := "urn:OCPP:Cp:2:2020:3:ClearCacheRequest"
  decode := decodeSendLocalList201
  version := .v1LocalAuthorization201
  evidence := (·.localAuthorization201)
  setEvidence evidence result := { result with localAuthorization201 := some evidence }
  foreign result := result.unprotected || result.configuration201.isSome || result.localAuthorization16.isSome
  accepted := LocalAuthorizationResult201.accepted
  validVersion
    | .getLocalListVersion version => 0 ≤ version
    | .sendLocalList version _ _ => 0 < version
    | .clearCache _ => true

def LocalAuthorization201.validateCommand (command : Command P) : Except StorageError Unit :=
  LocalAuthorization.validateCommand LocalAuthorization201.edition command

def LocalAuthorization16.validateCommand (command : Command P) : Except StorageError Unit := do
  LocalAuthorization.validateCommand LocalAuthorization16.edition command
  LocalAuthorization201.validateCommand command

namespace LocalAuthorization

variable {σ : Type} (edition : LocalAuthorization P σ)

def correlate (validateCommand : Command P → Except StorageError Unit) (command : Command P) (result : CommandResult) :
    Except StorageError Unit := do
  validateCommand command
  validateResult edition result
  require (result.answers command) invalid
  match edition.evidence result, command.operation with
  | none, _ => pure ()
  | some evidence, .ocpp operation =>
      require (operation.protocol = edition.protocol ∧ describes edition operation evidence) invalid
  | some _, _ => .error invalid

end LocalAuthorization

variable (P) in
def validateResultEvidence (result : CommandResult) : Except StorageError Unit := do
  Configuration201.validateResult P result
  LocalAuthorization.validateResult (P := P) LocalAuthorization16.edition result
  LocalAuthorization.validateResult (P := P) LocalAuthorization201.edition result
  Reservation16.validateResult result
  Reservation201.validateResult result
  Firmware16.validateResult result
  Firmware201.validateResult result
  Diagnostics16.validateResult result
  Diagnostics201.validateResult result

variable (P) in
def decodeResult (result : CommandResult) : Except StorageError CommandResult := do
  validateResultEvidence P result
  pure result

end OcppBridge.Operational
