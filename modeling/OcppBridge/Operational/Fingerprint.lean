import OcppBridge.Call.Serde
import OcppBridge.Operational.Submission
import OcppBridge.Outbox.Timestamp

namespace OcppBridge.Operational

open Call Outbox Json Ordered ExternalCommand

section Encoding

def optionalMember (key : String) (value : Option Json) : List (String × Json) :=
  value.toList.map fun v => (key, v)

def ContractVersion.json (v : ContractVersion) : Json :=
  .object [("major", .natural v.major), ("revision", .natural v.revision)]

def CanonicalResource.json : CanonicalResource → Json
  | connector connectorId => .object [("kind", .string "connector"), ("connector_id", .string connectorId)]
  | evse evseId connectorId =>
      .object ([("kind", .string "evse"), ("evse_id", .string evseId)] ++
        optionalMember "connector_id" (connectorId.map .string))

def NativeProtocolReference.json : NativeProtocolReference → Json
  | ocpp16 connectorId => .object [("protocol", .string "ocpp16"), ("connector_id", .natural connectorId)]
  | ocpp201 evseId connectorId =>
      .object ([("protocol", .string "ocpp201"), ("evse_id", .natural evseId)] ++
        optionalMember "connector_id" (connectorId.map .natural))

def ResourceRef.json (r : ResourceRef) : Json :=
  .object ([("bridge_id", .string r.bridgeId), ("station_id", .string r.stationId)] ++
    optionalMember "resource" (r.resource.map CanonicalResource.json) ++
    optionalMember "native_protocol_reference" (r.nativeProtocolReference.map NativeProtocolReference.json))

def AuthenticatedCommandOrigin.json : AuthenticatedCommandOrigin → Json
  | management principalId => .object [("kind", .string "management"), ("principal_id", .string principalId)]
  | target targetInstanceId principalId =>
      .object [("kind", .string "target"), ("target_instance_id", .string targetInstanceId),
        ("principal_id", .string principalId)]
  | bridge principalId => .object [("kind", .string "bridge"), ("principal_id", .string principalId)]

def ProtocolEdition.name : ProtocolEdition → String
  | ocpp16j => "ocpp16j"
  | ocpp201 => "ocpp201"

def ChargingLimit.json (limit : ChargingLimit) : Json :=
  .object ([("value", .string limit.value), ("unit", .string limit.unit)] ++
    optionalMember "phases" (limit.phases.map .natural))

def PrivilegedOcppOperation.json (operation : PrivilegedOcppOperation Json) : Json :=
  .object [("protocol", .string operation.protocol.name), ("action", .string operation.action),
    ("payload_schema", .string operation.payloadSchema), ("payload", operation.payload)]

def CommandOperation.kind {P : Type} : CommandOperation P → String
  | start _ => "start"
  | stop _ => "stop"
  | setChargingLimit _ => "set_charging_limit"
  | ocpp _ => "ocpp"

def CommandOperation.parameters : CommandOperation Json → Json
  | start reference => .object (optionalMember "authorization_reference" (reference.map .string))
  | stop transactionId => .object [("transaction_id", .string transactionId)]
  | setChargingLimit limit => limit.json
  | ocpp operation => operation.json

def CommandOperation.json (operation : CommandOperation Json) : Json :=
  .object [("kind", .string operation.kind), ("parameters", operation.parameters)]

def UtcTimestamp.json? (t : UtcTimestamp) : Option Json :=
  if hlow : -62167219200000000000 ≤ t then
    if hhigh : t < 253402300800000000000 then some (.string (Stamp.mk t hlow hhigh).rfc3339) else none
  else
    none

def Command.json? (command : Command Json) : Option Json := do
  let expiresAt ← UtcTimestamp.json? command.expiresAt
  let admittedAt ← UtcTimestamp.json? command.admittedAt
  some (.object ([("schema_version", command.schemaVersion.json), ("request_id", .string command.requestId)] ++
    optionalMember "correlation_id" (command.correlationId.map .string) ++
    [("resource", command.resource.json), ("operation", command.operation.json), ("expires_at", expiresAt),
      ("origin", command.origin.json), ("admitted_at", admittedAt)]))

end Encoding

section Fingerprint

/-- The text under the digest: the stored command without its identity and time of admission, sorted. -/
def normalized (serde : Serde) (payload : List Char) : Option (List Char) :=
  match serde.parse payload with
  | some (.object fields) => some (serde.print (object (fields.filter fun field =>
      field.1 ≠ "request_id" ∧ field.1 ≠ "admitted_at")).sortJson)
  | _ => none

def commandFingerprint (serde : Serde) (sha256 : List Char → List UInt8) (payload : List Char) : Option String :=
  (normalized serde payload).map fun text => String.ofList ("sha256:".toList ++ (sha256 text).flatMap Delimited.hexByte)

def Command.payload? (serde : Serde) (command : Command Json) : Option (List Char) := command.json?.map serde.print

def Command.hashedText (serde : Serde) (command : Command Json) : Option (List Char) :=
  (command.payload? serde).bind (normalized serde)

def Command.storedFingerprint (serde : Serde) (sha256 : List Char → List UInt8) (command : Command Json) :
    Option String :=
  (command.payload? serde).bind (commandFingerprint serde sha256)

end Fingerprint

section Repetition

def PrivilegedOcppOperation.same (a b : PrivilegedOcppOperation Json) : Bool :=
  a.protocol = b.protocol && a.action = b.action && a.payloadSchema = b.payloadSchema && a.payload.same b.payload

def CommandOperation.same : CommandOperation Json → CommandOperation Json → Bool
  | start a, start b => a = b
  | stop a, stop b => a = b
  | setChargingLimit a, setChargingLimit b => a = b
  | ocpp a, ocpp b => a.same b
  | _, _ => false

def Command.same (a b : Command Json) : Bool :=
  a.schemaVersion = b.schemaVersion && a.requestId = b.requestId && a.correlationId = b.correlationId &&
    a.resource = b.resource && a.operation.same b.operation && a.expiresAt = b.expiresAt && a.origin = b.origin &&
    a.admittedAt = b.admittedAt

def CommandOperation.mapPayload (f : Json → Json) : CommandOperation Json → CommandOperation Json
  | ocpp operation => ocpp { operation with payload := f operation.payload }
  | operation => operation

def CommandOperation.payload? {P : Type} : CommandOperation P → Option P
  | ocpp operation => some operation.payload
  | _ => none

/-- The command as it is read from its row. -/
def Command.readBack (serde : Serde) (command : Command Json) : Command Json :=
  { command with operation := command.operation.mapPayload serde.reread }

def ExternalCommand.payload? {P : Type} (external : ExternalCommand P) : Option P := external.request.operation.payload?

def ExternalCommand.stamped (external : ExternalCommand Json) (t : Stamp) : Command Json :=
  external.admitAt t.nanoseconds

def ExternalCommand.withPayload (external : ExternalCommand Json) (payload : Json) : ExternalCommand Json :=
  { external with
    request := { external.request with operation := external.request.operation.mapPayload fun _ => payload } }

/-- The admission service's check of a request against the stored command of its request id. -/
def ExternalCommand.repeats (external : ExternalCommand Json) (existing : Command Json) : Bool :=
  let candidate := { external.admitAt existing.admittedAt with schemaVersion := existing.schemaVersion }
  candidate.same existing

end Repetition

section Instants

theorem tail_digits {t r : Stamp} (h : t.tail = r.tail) : t.digits = r.digits := by
  unfold Stamp.tail at h
  split_ifs at h with ht hr hr
  · rw [ht, hr]
  · cases h
  · cases h
  · exact List.append_cancel_right (List.cons.inj h).2

theorem rfc3339_inj {t r : Stamp} (h : t.rfc3339 = r.rfc3339) : t.nanoseconds = r.nanoseconds := by
  have hlists := String.ofList_injective h
  have hlen : (civil t.seconds).text.length = (civil r.seconds).text.length := by
    rw [Civil.length_text, Civil.length_text]
  obtain ⟨htext, htail⟩ := List.append_inj hlists hlen
  have hfraction := Stamp.fraction_eq_of_digits (tail_digits htail)
  have hforth := civil_text_lt_iff t.seconds_lt r.seconds_lt
  have hback := civil_text_lt_iff r.seconds_lt t.seconds_lt
  rw [htext] at hforth hback
  have hle := mt hforth.mpr (List.lt_irrefl _)
  have hge := mt hback.mpr (List.lt_irrefl _)
  have hlt := mt (Stamp.lt_iff (r := t) (t := r)).mp (by omega)
  have hgt := mt (Stamp.lt_iff (r := r) (t := t)).mp (by omega)
  omega

theorem UtcTimestamp.json?_inj {a b : UtcTimestamp} {j : Json} (ha : json? a = some j) (hb : json? b = some j) :
    a = b := by
  unfold json? at ha hb
  split_ifs at ha hb
  have htext := (Option.some.inj ha).trans (Option.some.inj hb).symm
  exact rfc3339_inj (string.inj htext)

theorem UtcTimestamp.json?_string {t : UtcTimestamp} {j : Json} (h : json? t = some j) : ∃ text, j = .string text := by
  unfold json? at h
  split_ifs at h
  exact ⟨_, (Option.some.inj h).symm⟩

end Instants

variable {operation : CommandOperation Json}

section Members

theorem get?_optionalMember (key other : String) (value : Option Json) :
    get? other (optionalMember key value) = if key = other then value else none := by
  cases value with
  | none => simp [optionalMember]
  | some v => simp [optionalMember, get?_cons]

/-- Well-formed JSON that tells values apart, whatever the order of its members. -/
structure Encodes {α : Type} (json : α → Json) : Prop where
  wellFormed : ∀ a, (json a).WellFormed
  injective : Function.Injective (sortJson ∘ json)

theorem Encodes.of_members {α : Type} {json : α → Json} (hwell : ∀ a, (json a).WellFormed)
    (h : ∀ a b, (∀ key, ((json a).get? key).map sortJson = ((json b).get? key).map sortJson) → a = b) : Encodes json :=
  ⟨hwell, fun a b heq => h a b (get?_of_sort_eq (hwell a) (hwell b) heq)⟩

theorem Encodes.optional_eq_iff {α : Type} {json : α → Json} (h : Encodes json) {a b : Option α} :
    Option.map (sortJson ∘ json) a = Option.map (sortJson ∘ json) b ↔ a = b :=
  (Option.map_injective h.injective).eq_iff

theorem encodes_string : Encodes string where
  wellFormed _ := by simp [WellFormed]
  injective a b h := by simpa [sortJson] using h

theorem encodes_natural : Encodes natural where
  wellFormed _ := by simp [WellFormed]
  injective a b h := by simpa [sortJson] using h

theorem encodes_version : Encodes ContractVersion.json := by
  apply Encodes.of_members
  · intro v
    simp [ContractVersion.json, WellFormed, WellFormedFields]
  · rintro ⟨major, revision⟩ ⟨major', revision'⟩ h
    have hmajor := h "major"
    have hrevision := h "revision"
    simp [ContractVersion.json, get?_object, get?_cons, sortJson] at hmajor hrevision
    rw [hmajor, hrevision]

theorem encodes_canonicalResource : Encodes CanonicalResource.json := by
  apply Encodes.of_members
  · intro r
    cases r with
    | connector c => simp [CanonicalResource.json, WellFormed, WellFormedFields]
    | evse e c => cases c <;> simp [CanonicalResource.json, WellFormed, WellFormedFields, optionalMember]
  · intro a b h
    have hkind := h "kind"
    have hconnector := h "connector_id"
    have hevse := h "evse_id"
    cases a <;> cases b <;>
      simp [CanonicalResource.json, get?_object, get?_cons, get?_optionalMember, sortJson,
        encodes_string.optional_eq_iff] at hkind hconnector hevse
    · rw [hconnector]
    · rw [hevse, hconnector]

theorem encodes_nativeReference : Encodes NativeProtocolReference.json := by
  apply Encodes.of_members
  · intro r
    cases r with
    | ocpp16 c => simp [NativeProtocolReference.json, WellFormed, WellFormedFields]
    | ocpp201 e c =>
        cases c <;> simp [NativeProtocolReference.json, WellFormed, WellFormedFields, optionalMember]
  · intro a b h
    have hprotocol := h "protocol"
    have hconnector := h "connector_id"
    have hevse := h "evse_id"
    cases a <;> cases b <;>
      simp [NativeProtocolReference.json, get?_object, get?_cons, get?_optionalMember, sortJson,
        encodes_natural.optional_eq_iff] at hprotocol hconnector hevse
    · rw [hconnector]
    · rw [hevse, hconnector]

theorem encodes_resource : Encodes ResourceRef.json := by
  apply Encodes.of_members
  · rintro ⟨bridge, station, resource, native⟩
    cases resource <;> cases native <;>
      simp [ResourceRef.json, WellFormed, WellFormedFields, optionalMember, encodes_canonicalResource.wellFormed,
        encodes_nativeReference.wellFormed]
  · rintro ⟨bridge, station, resource, native⟩ ⟨bridge', station', resource', native'⟩ h
    have hbridge := h "bridge_id"
    have hstation := h "station_id"
    have hresource := h "resource"
    have hnative := h "native_protocol_reference"
    simp [ResourceRef.json, get?_object, get?_cons, get?_append, get?_optionalMember, sortJson,
      encodes_canonicalResource.optional_eq_iff, encodes_nativeReference.optional_eq_iff]
      at hbridge hstation hresource hnative
    rw [hbridge, hstation, hresource, hnative]

theorem encodes_origin : Encodes AuthenticatedCommandOrigin.json := by
  apply Encodes.of_members
  · intro o
    cases o <;> simp [AuthenticatedCommandOrigin.json, WellFormed, WellFormedFields]
  · intro a b h
    have hkind := h "kind"
    have hprincipal := h "principal_id"
    have htarget := h "target_instance_id"
    cases a <;> cases b <;>
      simp [AuthenticatedCommandOrigin.json, get?_object, get?_cons, sortJson]
        at hkind hprincipal htarget
    · rw [hprincipal]
    · rw [htarget, hprincipal]
    · rw [hprincipal]

theorem encodes_limit : Encodes ChargingLimit.json := by
  apply Encodes.of_members
  · rintro ⟨value, unit, phases⟩
    cases phases <;> simp [ChargingLimit.json, WellFormed, WellFormedFields, optionalMember]
  · rintro ⟨value, unit, phases⟩ ⟨value', unit', phases'⟩ h
    have hvalue := h "value"
    have hunit := h "unit"
    have hphases := h "phases"
    simp [ChargingLimit.json, get?_object, get?_cons, get?_optionalMember, sortJson,
      encodes_natural.optional_eq_iff] at hvalue hunit hphases
    rw [hvalue, hunit, hphases]

theorem encodes_start :
    Encodes fun reference : Option String =>
      object (optionalMember "authorization_reference" (reference.map .string)) := by
  apply Encodes.of_members
  · intro reference
    cases reference <;> simp [WellFormed, WellFormedFields, optionalMember]
  · intro a b h
    have hreference := h "authorization_reference"
    simpa [get?_object, get?_optionalMember, encodes_string.optional_eq_iff] using hreference

theorem encodes_edition : Function.Injective ProtocolEdition.name := by
  intro a b h
  cases a <;> cases b <;> first | rfl | exact absurd h (by decide)

theorem parameters_wellFormed (h : ∀ p ∈ operation.payload?, p.WellFormed) : operation.parameters.WellFormed := by
  cases operation with
  | start reference => exact encodes_start.wellFormed reference
  | stop transactionId => simp [CommandOperation.parameters, WellFormed, WellFormedFields]
  | setChargingLimit limit => exact encodes_limit.wellFormed limit
  | ocpp operation =>
      have hpayload := h operation.payload rfl
      simpa [CommandOperation.parameters, PrivilegedOcppOperation.json, WellFormed, WellFormedFields] using hpayload

theorem operation_wellFormed (h : ∀ p ∈ operation.payload?, p.WellFormed) : operation.json.WellFormed := by
  have hparameters := parameters_wellFormed h
  simpa [CommandOperation.json, WellFormed, WellFormedFields] using hparameters

theorem privileged_sort_iff {a b : PrivilegedOcppOperation Json} (ha : a.payload.WellFormed)
    (hb : b.payload.WellFormed) : a.json.sortJson = b.json.sortJson ↔
      a.protocol = b.protocol ∧ a.action = b.action ∧ a.payloadSchema = b.payloadSchema ∧
        a.payload.sortJson = b.payload.sortJson := by
  constructor
  · intro h
    have hget := get?_of_sort_eq (v := a.json) (w := b.json)
      (by simpa [PrivilegedOcppOperation.json, WellFormed, WellFormedFields] using ha)
      (by simpa [PrivilegedOcppOperation.json, WellFormed, WellFormedFields] using hb) h
    have hprotocol := hget "protocol"
    have haction := hget "action"
    have hschema := hget "payload_schema"
    have hpayload := hget "payload"
    simp [PrivilegedOcppOperation.json, get?_object, get?_cons, sortJson]
      at hprotocol haction hschema hpayload
    exact ⟨encodes_edition hprotocol, haction, hschema, hpayload⟩
  · rintro ⟨hprotocol, haction, hschema, hpayload⟩
    simp only [PrivilegedOcppOperation.json, sortJson, sortFields, hprotocol, haction, hschema, hpayload]

theorem operation_sort_iff {a b : CommandOperation Json} (ha : ∀ p ∈ a.payload?, p.WellFormed)
    (hb : ∀ p ∈ b.payload?, p.WellFormed) :
    a.json.sortJson = b.json.sortJson ↔ a.kind = b.kind ∧ a.parameters.sortJson = b.parameters.sortJson := by
  constructor
  · intro h
    have hget := get?_of_sort_eq (operation_wellFormed ha) (operation_wellFormed hb) h
    have hkind := hget "kind"
    have hparameters := hget "parameters"
    simp [CommandOperation.json, get?_object, get?_cons, sortJson] at hkind hparameters
    exact ⟨hkind, hparameters⟩
  · rintro ⟨hkind, hparameters⟩
    simp only [CommandOperation.json, sortJson, sortFields, hkind, hparameters]

theorem operation_same_iff {a b : CommandOperation Json} (ha : ∀ p ∈ a.payload?, p.WellFormed)
    (hb : ∀ p ∈ b.payload?, p.WellFormed) : a.same b = true ↔ a.json.sortJson = b.json.sortJson := by
  rw [operation_sort_iff ha hb]
  cases a with
  | start reference =>
      cases b with
      | start reference' =>
          simp only [CommandOperation.same, decide_eq_true_iff, CommandOperation.kind, true_and,
            CommandOperation.parameters]
          exact encodes_start.injective.eq_iff.symm
      | _ => simp [CommandOperation.same, CommandOperation.kind]
  | stop transactionId =>
      cases b with
      | stop transactionId' =>
          simp [CommandOperation.same, CommandOperation.kind, CommandOperation.parameters, sortJson, sortFields, sort]
      | _ => simp [CommandOperation.same, CommandOperation.kind]
  | setChargingLimit limit =>
      cases b with
      | setChargingLimit limit' =>
          simp only [CommandOperation.same, decide_eq_true_iff, CommandOperation.kind, true_and,
            CommandOperation.parameters]
          exact encodes_limit.injective.eq_iff.symm
      | _ => simp [CommandOperation.same, CommandOperation.kind]
  | ocpp operation =>
      cases b with
      | ocpp operation' =>
          have hleft := ha operation.payload rfl
          have hright := hb operation'.payload rfl
          simp only [CommandOperation.same, CommandOperation.kind, true_and, CommandOperation.parameters,
            privileged_sort_iff hleft hright, PrivilegedOcppOperation.same, Bool.and_eq_true, decide_eq_true_iff,
            same_iff_sortJson hleft hright, and_assoc]
      | _ => simp [CommandOperation.same, CommandOperation.kind]

end Members

section Commands

def Command.members (command : Command Json) (expiresAt : Json) : List (String × Json) :=
  [("schema_version", command.schemaVersion.json)] ++
    optionalMember "correlation_id" (command.correlationId.map .string) ++
    [("resource", command.resource.json), ("operation", command.operation.json), ("expires_at", expiresAt),
      ("origin", command.origin.json)]

variable {command : Command Json}

theorem members_wellFormed (h : ∀ p ∈ command.operation.payload?, p.WellFormed) (text : String) :
    (object (command.members (.string text))).WellFormed := by
  have hoperation := operation_wellFormed h
  obtain ⟨version, requestId, correlation, resource, operation, expires, origin, admitted⟩ := command
  cases correlation <;>
    simpa [Command.members, optionalMember, WellFormed, WellFormedFields, encodes_version.wellFormed,
      encodes_resource.wellFormed, encodes_origin.wellFormed] using hoperation

theorem members_sort_iff {a b : Command Json} (ha : ∀ p ∈ a.operation.payload?, p.WellFormed)
    (hb : ∀ p ∈ b.operation.payload?, p.WellFormed) (text text' : String) :
    (object (a.members (.string text))).sortJson = (object (b.members (.string text'))).sortJson ↔
      a.schemaVersion = b.schemaVersion ∧ a.correlationId = b.correlationId ∧ a.resource = b.resource ∧
        a.operation.json.sortJson = b.operation.json.sortJson ∧ text = text' ∧ a.origin = b.origin := by
  constructor
  · intro h
    have hget := get?_of_sort_eq (members_wellFormed ha text) (members_wellFormed hb text') h
    have hversion := hget "schema_version"
    have hcorrelation := hget "correlation_id"
    have hresource := hget "resource"
    have hoperation := hget "operation"
    have hexpires := hget "expires_at"
    have horigin := hget "origin"
    simp [Command.members, get?_object, get?_cons, get?_append, get?_optionalMember,
      encodes_string.optional_eq_iff] at hversion hcorrelation hresource hoperation hexpires horigin
    exact ⟨encodes_version.injective hversion, hcorrelation, encodes_resource.injective hresource, hoperation,
      encodes_string.injective hexpires, encodes_origin.injective horigin⟩
  · rintro ⟨hversion, hcorrelation, hresource, hoperation, rfl, horigin⟩
    simp only [Command.members, sortJson, sortFields_eq_map, List.map_append, List.map_cons, hversion,
      hcorrelation, hresource, hoperation, horigin]

theorem json?_eq {expires admitted : String} (hexpires : UtcTimestamp.json? command.expiresAt = some (.string expires))
    (hadmitted : UtcTimestamp.json? command.admittedAt = some (.string admitted)) :
    ∃ fields, command.json? = some (.object fields) ∧
      fields.filter (fun field => decide (field.1 ≠ "request_id" ∧ field.1 ≠ "admitted_at")) =
        command.members (.string expires) ∧
      ((∀ p ∈ command.operation.payload?, p.WellFormed) → (object fields).WellFormed) := by
  refine ⟨_, by rw [Command.json?, hexpires, hadmitted]; rfl, ?_, fun h => ?_⟩
  · cases hcorrelation : command.correlationId <;> simp [Command.members, optionalMember, hcorrelation]
  · have hoperation := operation_wellFormed h
    cases hcorrelation : command.correlationId <;>
      simpa [optionalMember, WellFormed, WellFormedFields, encodes_version.wellFormed,
        encodes_resource.wellFormed, encodes_origin.wellFormed] using hoperation

theorem hashedText_eq (serde : Serde) {expires admitted : String}
    (hexpires : UtcTimestamp.json? command.expiresAt = some (.string expires))
    (hadmitted : UtcTimestamp.json? command.admittedAt = some (.string admitted))
    (h : ∀ p ∈ command.operation.payload?, p.WellFormed) :
    command.hashedText serde = some (serde.print (object (command.members (.string expires))).sortJson) := by
  obtain ⟨fields, hjson, hmembers, hwell⟩ := json?_eq hexpires hadmitted
  obtain ⟨w, hparse, hreordered⟩ := serde.parse_print (hwell h)
  obtain ⟨fields', rfl⟩ := hreordered.eq_object
  have hkeys := hwell h
  rw [WellFormed] at hkeys
  have hsort := sort_filter hkeys.1 (hreordered.sortJson_eq (hwell h))
    fun key => decide (key ≠ "request_id" ∧ key ≠ "admitted_at")
  rw [Command.hashedText, Command.payload?, hjson, Option.map_some, Option.bind_some, normalized, hparse, ← hmembers]
  exact congrArg (fun v => some (serde.print v)) hsort.symm

end Commands

section Digests

variable {serde : Serde} {sha256 : List Char → List UInt8}

theorem storedFingerprint_eq (command : Command Json) : command.storedFingerprint serde sha256 =
    (command.hashedText serde).map fun text =>
      String.ofList ("sha256:".toList ++ (sha256 text).flatMap Delimited.hexByte) := by
  rw [Command.hashedText, Option.map_bind]
  rfl

theorem hashedText_of_stored {command : Command Json} {stored : String}
    (h : command.storedFingerprint serde sha256 = some stored) : ∃ text, command.hashedText serde = some text := by
  rw [storedFingerprint_eq, Option.map_eq_some_iff] at h
  exact h.imp fun _ hx => hx.1

theorem storedFingerprint_eq_iff {a b : Command Json} {stored : String}
    (hstored : a.storedFingerprint serde sha256 = some stored)
    (hsha : ∀ x ∈ a.hashedText serde, ∀ y ∈ b.hashedText serde, sha256 x = sha256 y → x = y) :
    b.storedFingerprint serde sha256 = some stored ↔ b.hashedText serde = a.hashedText serde := by
  obtain ⟨x, hx⟩ := hashedText_of_stored hstored
  rw [← hstored, storedFingerprint_eq, storedFingerprint_eq, hx]
  constructor
  · intro h
    obtain ⟨y, hy, heq⟩ := Option.map_eq_some_iff.mp h
    have hdigest := Delimited.hexBytes_injective (List.append_cancel_left (String.ofList_injective heq))
    rw [hy, hsha x hx y hy hdigest.symm]
  · intro h
    rw [h]

end Digests

section Agreement

variable {serde : Serde} {sha256 : List Char → List UInt8}

theorem stamp_json? (t : Stamp) : UtcTimestamp.json? t.nanoseconds = some (.string t.rfc3339) := by
  rw [UtcTimestamp.json?, dif_pos t.low, dif_pos t.high]

theorem stamped_hashedText (serde : Serde) {external : ExternalCommand Json} (h : ∀ p ∈ external.payload?, p.WellFormed)
    (t : Stamp) : (external.stamped t).hashedText serde =
      (UtcTimestamp.json? external.request.expiresAt).map fun expires =>
        serde.print (object ((external.stamped t).members expires)).sortJson := by
  cases hexpires : UtcTimestamp.json? external.request.expiresAt with
  | none =>
      simp [Command.hashedText, Command.payload?, Command.json?, stamped, admitAt, hexpires]
  | some expires =>
      obtain ⟨text, rfl⟩ := UtcTimestamp.json?_string hexpires
      exact hashedText_eq serde hexpires (stamp_json? t) h

theorem hashedText_eq_iff {first second : ExternalCommand Json} (hfirst : ∀ p ∈ first.payload?, p.WellFormed)
    (hsecond : ∀ p ∈ second.payload?, p.WellFormed) (t u : Stamp) {text : List Char}
    (hwritten : (first.stamped t).hashedText serde = some text) :
    (second.stamped u).hashedText serde = (first.stamped t).hashedText serde ↔
      second.request.correlationId = first.request.correlationId ∧ second.request.resource = first.request.resource ∧
        second.request.operation.json.sortJson = first.request.operation.json.sortJson ∧
        second.request.expiresAt = first.request.expiresAt ∧ second.origin = first.origin := by
  rw [stamped_hashedText serde hfirst] at hwritten ⊢
  obtain ⟨expires, hexpires, -⟩ := Option.map_eq_some_iff.mp hwritten
  obtain ⟨instant, rfl⟩ := UtcTimestamp.json?_string hexpires
  rw [stamped_hashedText serde hsecond, hexpires]
  cases hother : UtcTimestamp.json? second.request.expiresAt with
  | none =>
      simp only [Option.map_none, Option.map_some, reduceCtorEq, false_iff]
      rintro ⟨_, _, _, hequal, _⟩
      rw [hequal, hexpires] at hother
      cases hother
  | some expires' =>
      obtain ⟨instant', rfl⟩ := UtcTimestamp.json?_string hother
      have hexpiry : instant' = instant ↔ second.request.expiresAt = first.request.expiresAt := by
        constructor
        · rintro rfl
          exact UtcTimestamp.json?_inj hother hexpires
        · intro hequal
          rw [hequal, hexpires] at hother
          exact (string.inj (Option.some.inj hother)).symm
      have ha : ∀ p ∈ (first.stamped t).operation.payload?, p.WellFormed := hfirst
      have hb : ∀ p ∈ (second.stamped u).operation.payload?, p.WellFormed := hsecond
      rw [Option.map_some, Option.map_some, Option.some.injEq,
        serde.print_sortJson_iff (members_wellFormed hb _) (members_wellFormed ha _), members_sort_iff hb ha, hexpiry]
      simp only [stamped, admitAt, true_and]

theorem reread_wellFormed (serde : Serde) (h : ∀ p ∈ operation.payload?, p.WellFormed) :
    ∀ p ∈ (operation.mapPayload serde.reread).payload?, p.WellFormed := by
  cases operation with
  | ocpp operation =>
      rintro p ⟨⟩
      exact (serde.reordered_reread (h _ rfl)).wellFormed (h _ rfl)
  | _ => exact h

/-- Members in another order do not change the sorted operation. -/
theorem mapPayload_sort {f : Json → Json} (h : ∀ p ∈ operation.payload?, p.WellFormed)
    (hf : ∀ p ∈ operation.payload?, Reordered p (f p)) :
    (operation.mapPayload f).json.sortJson = operation.json.sortJson := by
  cases operation with
  | ocpp operation =>
      have hsort := (hf _ rfl).sortJson_eq (h _ rfl)
      simp only [CommandOperation.mapPayload, CommandOperation.json, CommandOperation.parameters, CommandOperation.kind,
        PrivilegedOcppOperation.json, sortJson, sortFields, hsort]
  | _ => rfl

theorem repeats_iff {first second : ExternalCommand Json} (hid : second.request.requestId = first.request.requestId)
    (hfirst : ∀ p ∈ first.payload?, p.WellFormed) (hsecond : ∀ p ∈ second.payload?, p.WellFormed) (t : Stamp) :
    second.repeats ((first.stamped t).readBack serde) = true ↔
      second.request.correlationId = first.request.correlationId ∧ second.request.resource = first.request.resource ∧
        second.request.operation.json.sortJson = first.request.operation.json.sortJson ∧
          second.request.expiresAt = first.request.expiresAt ∧ second.origin = first.origin := by
  rw [← mapPayload_sort hfirst fun p hp => serde.reordered_reread (hfirst p hp),
    ← operation_same_iff hsecond (reread_wellFormed serde hfirst)]
  simp [repeats, Command.same, Command.readBack, stamped, admitAt, hid, and_assoc]

theorem withPayload_eq {external : ExternalCommand Json} {payload payload' : Json}
    (hpayload : external.payload? = some payload) (h : Reordered payload payload') (hwell : payload.WellFormed) :
    (∀ p ∈ (external.withPayload payload').payload?, p.WellFormed) ∧
      (external.withPayload payload').request.operation.json.sortJson = external.request.operation.json.sortJson := by
  have hreordered : ∀ p ∈ external.request.operation.payload?, p = payload := fun p hp =>
    Option.some.inj (hp.symm.trans hpayload)
  constructor
  · obtain ⟨⟨requestId, correlationId, resource, operation, expiresAt⟩, origin⟩ := external
    cases operation with
    | ocpp operation =>
        rintro p ⟨⟩
        exact h.wellFormed hwell
    | _ => cases hpayload
  · exact mapPayload_sort (fun p hp => hreordered p hp ▸ hwell) fun p hp => hreordered p hp ▸ h

/-- The admission service and the store find the same requests to repeat a stored command, and the order of the members
of its payload does not matter. -/
theorem duplicate_checks_agree (serde : Serde) (sha256 : List Char → List UInt8) (first second : ExternalCommand Json)
    (t u : Stamp) (hid : second.request.requestId = first.request.requestId)
    (hfirst : ∀ p ∈ first.payload?, p.WellFormed) (hsecond : ∀ p ∈ second.payload?, p.WellFormed) (stored : String)
    (hstored : (first.stamped t).storedFingerprint serde sha256 = some stored)
    (hsha : ∀ x ∈ (first.stamped t).hashedText serde, ∀ y ∈ (second.stamped u).hashedText serde,
      sha256 x = sha256 y → x = y) :
    (second.repeats ((first.stamped t).readBack serde) = true ↔
        (second.stamped u).storedFingerprint serde sha256 = some stored) ∧
      ∀ payload ∈ first.payload?, ∀ payload', Reordered payload payload' →
        ((first.withPayload payload').stamped t).storedFingerprint serde sha256 = some stored := by
  obtain ⟨text, htext⟩ := hashedText_of_stored hstored
  constructor
  · rw [storedFingerprint_eq_iff hstored hsha, hashedText_eq_iff hfirst hsecond t u htext,
      repeats_iff hid hfirst hsecond]
  · intro payload hpayload payload' hreordered
    obtain ⟨hwell, hsort⟩ := withPayload_eq hpayload hreordered (hfirst payload hpayload)
    rw [← hstored, storedFingerprint_eq, storedFingerprint_eq,
      (hashedText_eq_iff hfirst hwell t t htext).mpr ⟨rfl, rfl, hsort, rfl, rfl⟩]

def sampleDigest (text : List Char) : List UInt8 :=
  text.flatMap fun c => [UInt8.ofNat (c.toNat / 65536), UInt8.ofNat (c.toNat / 256), UInt8.ofNat c.toNat]

theorem sampleDigest_injective : Function.Injective sampleDigest := by
  apply Delimited.SelfDelimiting.flatMap_injective
  · intro c d x y h
    simp only [List.cons_append, List.nil_append, List.cons.injEq, ← UInt8.toNat_inj, UInt8.toNat_ofNat'] at h
    obtain ⟨hhigh, hmiddle, hlow, hxy⟩ := h
    have hbound : ∀ c : Char, c.toNat < 65536 * 256 := by
      intro c
      rcases c.valid with hvalid | ⟨_, hvalid⟩
      · exact hvalid.trans (by decide)
      · exact hvalid.trans (by decide)
    have hc := hbound c
    have hd := hbound d
    exact ⟨Char.toNat_inj.mp (by omega), hxy⟩
  · intro c
    exact List.cons_ne_nil _ _

def sampleStamp (seconds : Int) (h : 0 ≤ seconds ∧ seconds < 4000000000) : Stamp :=
  ⟨seconds * 1000000000, by omega, by omega⟩

def sampleMembers : List (String × Json) := [("vendorId", .string "vendor"), ("data", .number "-0.0")]

def sampleTransfer (payload : Json) : ExternalCommand Json where
  request :=
    { requestId := "request"
      correlationId := none
      resource := ⟨"bridge", "station", none, none⟩
      operation := .ocpp ⟨.ocpp201, "DataTransfer", "ocpp201.DataTransferRequest", payload⟩
      expiresAt := 1700000060000000000 }
  origin := .management "operator"

theorem sampleTransfer_wellFormed {payload : Json} (h : payload.WellFormed) :
    ∀ p ∈ (sampleTransfer payload).payload?, p.WellFormed := by
  rintro p ⟨⟩
  exact h

theorem sampleMembers_wellFormed : (object sampleMembers).WellFormed ∧ (object sampleMembers.reverse).WellFormed := by
  have hnumber : NumberText "-0.0" :=
    ⟨List.all_eq_true.mp (by decide), ⟨'.', by decide, by decide⟩, by decide⟩
  constructor
  · simpa [sampleMembers, WellFormed, WellFormedFields] using hnumber
  · simpa [sampleMembers, WellFormed, WellFormedFields] using hnumber

/-- A repetition whose members come in another order, sent half a minute later. -/
theorem duplicate_checks_agree_sample :
    let first := sampleTransfer (.object sampleMembers)
    let second := sampleTransfer (.object sampleMembers.reverse)
    ∃ stored, (first.stamped (sampleStamp 1700000000 (by decide))).storedFingerprint compact sampleDigest =
      some stored ∧ (second.repeats ((first.stamped (sampleStamp 1700000000 (by decide))).readBack compact) = true ↔
        (second.stamped (sampleStamp 1700000030 (by decide))).storedFingerprint compact sampleDigest =
          some stored) := by
  intro first second
  have hfirst := sampleTransfer_wellFormed sampleMembers_wellFormed.1
  have hsecond := sampleTransfer_wellFormed sampleMembers_wellFormed.2
  have hstored : ∃ stored, (first.stamped (sampleStamp 1700000000 (by decide))).storedFingerprint compact sampleDigest =
      some stored := by
    rw [storedFingerprint_eq, stamped_hashedText compact hfirst]
    exact ⟨_, rfl⟩
  obtain ⟨stored, hstored⟩ := hstored
  exact ⟨stored, hstored,
    (duplicate_checks_agree compact sampleDigest first second _ _ rfl hfirst hsecond stored hstored
      fun x _ y _ h => sampleDigest_injective h).1⟩

end Agreement

end OcppBridge.Operational
