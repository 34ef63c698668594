import OcppBridge.CommandHistory.Store
import OcppBridge.Integration.Catalog
import OcppBridge.Paging
import OcppBridge.Point.ExactRate
import OcppBridge.Snapshots.Keys

namespace OcppBridge.Integration

open Storage Transaction CommandHistory Paging
open Operational
open Snapshots (stationKeyText StationOnly)

section Access

inductive AccessPermission
  | read
  | control
  | privilegedControl
  | configurationRead
  | configurationWrite
  | destructiveDisposition
  deriving DecidableEq, Repr

inductive AccessResourceScope
  | bridge (bridgeId : BridgeId)
  | station (bridgeId : BridgeId) (stationId : StationId)
  | resource (granted : ResourceRef)
  deriving DecidableEq, Repr

def AccessResourceScope.allows (requested : ResourceRef) : AccessResourceScope → Bool
  | bridge bridgeId => requested.bridgeId = bridgeId
  | station bridgeId stationId => requested.bridgeId = bridgeId ∧ requested.stationId = stationId
  | resource granted => sameCanonicalResource granted requested

def AccessResourceScope.bridgeId : AccessResourceScope → BridgeId
  | bridge bridgeId | station bridgeId _ => bridgeId
  | resource granted => granted.bridgeId

structure AccessGrant where
  permissions : List AccessPermission
  resourceScopes : List AccessResourceScope
  granted : permissions ≠ []
  limited : resourceScopes ≠ []

namespace AccessGrant

variable (grant : AccessGrant)

def permits (permission : AccessPermission) (resource : ResourceRef) : Bool :=
  grant.permissions.contains permission && grant.resourceScopes.any (·.allows resource)

def permitsRead (resource : ResourceRef) : Bool := grant.permits .read resource

def intersectsStation (station : ResourceRef) : Bool :=
  grant.resourceScopes.any fun
    | .bridge bridgeId => bridgeId = station.bridgeId
    | .station bridgeId stationId => bridgeId = station.bridgeId ∧ stationId = station.stationId
    | .resource resource => resource.bridgeId = station.bridgeId ∧ resource.stationId = station.stationId

end AccessGrant

end Access

section Store

structure StoredSnapshot where
  key : String
  snapshot : StationSnapshot
  deriving DecidableEq

/-- The table of current snapshots, each under the canonical key of its station. Their points can be counted in a
`usize`. -/
structure SnapshotTable where
  serde : Call.Serde
  rows : List StoredSnapshot
  keyed : ∀ row ∈ rows, stationKeyText serde row.snapshot.station = .ok row.key
  distinct : (rows.map (·.key)).Nodup
  countable : (rows.flatMap fun row => points row.snapshot none).length < 2 ^ 64

structure Page (α : Type) where
  items : List α
  nextCursor : Option String
  deriving DecidableEq, Repr

structure SnapshotQuery where
  after : Option String
  limit : PageLimit

def newSnapshotCursor (value : String) : Except StorageError String := do
  require (¬Text.isBlank value) ⟨.invalidRequest, "SnapshotCursor cannot be empty"⟩
  pure value

def page (values : List StoredSnapshot) (limit : Nat) : Except StorageError (Page StationSnapshot) := do
  let kept := values.take limit
  let nextCursor ←
    if limit < values.length then
      match kept.getLast? with
      | some row => some <$> newSnapshotCursor row.key
      | none => pure none
    else pure none
  pure ⟨kept.map (·.snapshot), nextCursor⟩

namespace SnapshotTable

variable (table : SnapshotTable)

def scopedSnapshots (keys : List String) (after : Option String) (limit : Nat) :
    Except StorageError (Page StationSnapshot) :=
  let selected := table.rows.filter fun row => keys.contains row.key
  page ((above (·.key) (some (after.getD "")) selected).take (limit + 1)) limit

def readScopedSnapshots (query : SnapshotQuery) (stations : List ResourceRef) :
    Except StorageError (Page StationSnapshot) := do
  let keys ← stations.mapM (stationKeyText table.serde)
  table.scopedSnapshots keys query.after query.limit.value

def stationSnapshot (station : ResourceRef) : Except StorageError (Option StationSnapshot) := do
  let key ← stationKeyText table.serde station
  pure ((table.rows.find? fun row => row.key = key).map (·.snapshot))

end SnapshotTable

end Store

section Port

def sameStation (left right : ResourceRef) : Bool := left.bridgeId = right.bridgeId ∧ left.stationId = right.stationId

def stationRef (resource : ResourceRef) : Bool := StationOnly resource

/-- Station grants; a grant of a child resource does not open the snapshot of its station. -/
def stationResources (authorization : TargetQueryAuthorization) : List ResourceRef :=
  authorization.resourceScopes.filterMap fun
    | .station bridgeId stationId => some ⟨bridgeId, stationId, none, none⟩
    | .resource resource =>
        if StationOnly resource then some { resource with nativeProtocolReference := none } else none

def requireResource (authorization : TargetQueryAuthorization) (permission : TargetQueryPermission)
    (resource : ResourceRef) : Except TargetPortError Unit := do
  require (authorization.permits permission) operationNotGranted
  require (authorization.permitsResource resource) ⟨.unauthorized, "query.resource_outside_scope"⟩

def pageOutsideScope : TargetPortError := ⟨.unauthorized, "query.snapshot_page_outside_scope"⟩

variable (authorization : TargetQueryAuthorization) (table : SnapshotTable)

def sourceSnapshot (station : ResourceRef) : Except TargetPortError (Option StationSnapshot) := do
  require (stationRef station) ⟨.invalidRequest, "query.station_required"⟩
  require ((stationResources authorization).any fun granted => sameStation granted station) outsideScope
  let snapshot ← (table.stationSnapshot station).mapError storageError
  require (∀ s ∈ snapshot, stationRef s.station ∧ sameStation s.station station ∧
    authorization.permitsResource s.station) outsideScope
  pure snapshot

/-- One station through the scoped port, which checks the query before and the result after it. -/
def portSnapshot (station : ResourceRef) : Except TargetPortError (Option StationSnapshot) := do
  require (station.resource = none) ⟨.invalidRequest, "query.station_snapshot_requires_station"⟩
  requireResource authorization .stationSnapshots station
  let snapshot ← sourceSnapshot authorization table station
  require (∀ s ∈ snapshot, authorization.permitsResource s.station ∧
    sameCanonicalResource station s.station) outsideScope
  pure snapshot

/-- The management source on a page of stations. -/
def sourceSnapshots (query : SnapshotQuery) (scopes : List AccessResourceScope) :
    Except TargetPortError (Page StationSnapshot) := do
  let permitted := fun station => scopes.any (·.allows station)
  let stations := (stationResources authorization).filter permitted
  let page ← (table.readScopedSnapshots query stations).mapError storageError
  require (∀ s ∈ page.items, stationRef s.station ∧ authorization.permitsResource s.station ∧ permitted s.station)
    outsideScope
  pure page

def portSnapshots (query : SnapshotQuery) (scopes : List AccessResourceScope) :
    Except TargetPortError (Page StationSnapshot) := do
  require (authorization.permits .stationSnapshots) operationNotGranted
  require (authorization.resourceScopes ≠ []) ⟨.unauthorized, "query.no_resource_scope"⟩
  let page ← sourceSnapshots authorization table query scopes
  require (page.items.length ≤ query.limit.value) ⟨.invalidRequest, "query.source_exceeded_page_limit"⟩
  require (∀ s ∈ page.items, s.station.resource = none ∧ authorization.permitsResource s.station ∧
    scopes.any (·.allows s.station)) pageOutsideScope
  pure page

end Port

inductive IntegrationErrorCode
  | permissionDenied
  | capacityExhausted
  | invalidRequest
  | bridgeRequired
  | cursorExpired
  | expired
  | operationNotSupported
  | sourceUnavailable
  deriving DecidableEq, Repr

def integrationCode (error : TargetPortError) : IntegrationErrorCode :=
  match error.code with
  | .unauthorized => .permissionDenied
  | .unsupported => .operationNotSupported
  | .expired => .expired
  | .busy => .capacityExhausted
  | .unavailable => .sourceUnavailable
  | .invalidRequest => .invalidRequest
  | .cursorExpired => .cursorExpired

section Cursor

structure PointCursor where
  delivered : Nat
  after : Option String
  deriving DecidableEq, Repr

def pointCursorPrefix : String := "uob:point:"

namespace PointCursor

def start : PointCursor := ⟨0, none⟩

def resume (delivered : Nat) (after : Option String) : PointCursor := ⟨delivered, after⟩

def advance (after : String) : PointCursor := ⟨0, some after⟩

def encode (cursor : PointCursor) : String :=
  pointCursorPrefix ++ (toString cursor.delivered ++ (":" ++ cursor.after.getD ""))

def decode (value : String) : Except IntegrationErrorCode PointCursor :=
  match Text.stripPrefix pointCursorPrefix value with
  | none => .error .invalidRequest
  | some position =>
      match Point.splitOnce (· = ':') position with
      | none => .error .invalidRequest
      | some (delivered, after) =>
          match Text.parseUnsigned (2 ^ 64) delivered with
          | none => .error .invalidRequest
          | some delivered => .ok ⟨delivered, if after.isEmpty then none else some (String.ofList after)⟩

def requested : Option String → Except IntegrationErrorCode PointCursor
  | some after => decode after
  | none => .ok start

end PointCursor

def snapshotCursor : Option String → Except IntegrationErrorCode (Option String)
  | none => pure none
  | some value => do
      require (Text.stripPrefix pointCursorPrefix value).isNone .invalidRequest
      some <$> (newSnapshotCursor value).mapError fun _ => .invalidRequest

end Cursor

section Requests

structure PointPageParameters where
  after : Option String
  limit : Option Nat
  bridgeId : Option String
  stationId : Option String
  evseId : Option String
  connectorId : Option String
  deriving DecidableEq, Repr

def defaultPageSize : Nat := 25

def newPageLimit (limit : Nat) : Except IntegrationErrorCode PageLimit :=
  if h : 0 < limit ∧ limit ≤ 100 then .ok ⟨limit, h.1, h.2⟩ else .error .invalidRequest

def newIdentity (value : String) : Except IntegrationErrorCode String := do
  require (¬Text.isBlank value) .invalidRequest
  pure value

def dedup : List BridgeId → List BridgeId
  | a :: b :: rest => if a = b then dedup (b :: rest) else a :: dedup (b :: rest)
  | rest => rest

def grantedBridges (principal : AccessGrant) : List BridgeId :=
  (principal.resourceScopes.map (·.bridgeId)).insertionSort (· ≤ ·)

namespace PointPageParameters

variable (parameters : PointPageParameters)

def pageLimit : Except IntegrationErrorCode PageLimit := newPageLimit (parameters.limit.getD defaultPageSize)

def resolvedBridge (principal : AccessGrant) : Except IntegrationErrorCode BridgeId :=
  match parameters.bridgeId with
  | some bridgeId => newIdentity bridgeId
  | none =>
      match dedup (grantedBridges principal) with
      | [bridgeId] => .ok bridgeId
      | [] => .error .permissionDenied
      | _ => .error .bridgeRequired

def canonicalResource : Except IntegrationErrorCode (Option CanonicalResource) := do
  let connectorId ← parameters.connectorId.mapM newIdentity
  let evseId ← parameters.evseId.mapM newIdentity
  pure (match evseId, connectorId with
    | none, none => none
    | none, some connectorId => some (.connector connectorId)
    | some evseId, connectorId => some (.evse evseId connectorId))

def resource (principal : AccessGrant) : Except IntegrationErrorCode ResourceRef :=
  match parameters.stationId with
  | none => .error .invalidRequest
  | some stationId => do
      let stationId ← newIdentity stationId
      let bridgeId ← parameters.resolvedBridge principal
      let resource ← parameters.canonicalResource
      pure ⟨bridgeId, stationId, resource, none⟩

def narrowsResource : Bool := parameters.evseId.isSome || parameters.connectorId.isSome

end PointPageParameters

/-- The listener of one target: the roster is what the host authorizes the target for. -/
structure Listener where
  targetInstanceId : String
  roster : List ResourceRef
  manned : roster ≠ []
  table : SnapshotTable
  stationScanLimit : PageLimit

def Listener.authorization (listener : Listener) : TargetQueryAuthorization :=
  { targetInstanceId := listener.targetInstanceId
    permissions := [.stationSnapshots, .dataPoints, .capabilities, .commandStatus, .retainedEvents]
    resourceScopes := listener.roster.map fun resource => .station resource.bridgeId resource.stationId }

def stationReference (resource : ResourceRef) : ResourceRef := ⟨resource.bridgeId, resource.stationId, none, none⟩

variable (listener : Listener) (principal : AccessGrant)

/-- The points of one station that the credential may read. -/
def stationAvailable (addressed : ResourceRef) : Except IntegrationErrorCode (List PointView) :=
  let station := stationReference addressed
  if principal.intersectsStation station then do
    let snapshot ← (portSnapshot listener.authorization listener.table station).mapError integrationCode
    pure (match snapshot with
      | some snapshot => (points snapshot addressed.resource).filter fun point => principal.permitsRead point.resource
      | none => [])
  else pure []

def stationPoints (parameters : PointPageParameters) (cursor : PointCursor) (limit : Nat) :
    Except IntegrationErrorCode (List PointView × Option String) := do
  let addressed ← parameters.resource principal
  let available ← stationAvailable listener principal addressed
  pure (window available limit (fun consumed => (PointCursor.resume consumed none).encode) none cursor.delivered)

def bridgePoints (cursor : PointCursor) (limit : Nat) :
    Except IntegrationErrorCode (List PointView × Option String) := do
  let after ← snapshotCursor cursor.after
  let page ← (portSnapshots listener.authorization listener.table ⟨after, listener.stationScanLimit⟩
    principal.resourceScopes).mapError integrationCode
  let available := (page.items.flatMap fun snapshot => points snapshot none).filter fun point =>
    principal.permitsRead point.resource
  pure (window available limit (fun consumed => (PointCursor.resume consumed cursor.after).encode)
    (page.nextCursor.map fun next => (PointCursor.advance next).encode) cursor.delivered)

def requireReader : Option AccessGrant → Except IntegrationErrorCode AccessGrant
  | none => .error .permissionDenied
  | some principal => if principal.permissions.contains .read then .ok principal else .error .permissionDenied

def pointPage (credential : Option AccessGrant) (parameters : PointPageParameters) :
    Except IntegrationErrorCode (List PointView × Option String) := do
  let principal ← requireReader credential
  let limit ← parameters.pageLimit
  let cursor ← PointCursor.requested parameters.after
  if parameters.stationId.isSome then stationPoints listener principal parameters cursor limit.value
  else do
    -- An EVSE or connector is meaningful below a named station only.
    require (¬parameters.narrowsResource) .invalidRequest
    bridgePoints listener principal cursor limit.value

end Requests

end OcppBridge.Integration
