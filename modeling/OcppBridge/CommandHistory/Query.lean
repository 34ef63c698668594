import OcppBridge.Operational.Contract

namespace OcppBridge.CommandHistory

open Operational Storage Transaction

inductive TargetQueryPermission
  | stationSnapshots
  | dataPoints
  | capabilities
  | commandStatus
  | retainedEvents
  deriving DecidableEq, Repr

inductive TargetResourceScope
  | station (bridgeId : BridgeId) (stationId : StationId)
  | resource (granted : ResourceRef)
  deriving DecidableEq, Repr

def sameCanonicalResource (left right : ResourceRef) : Bool :=
  left.bridgeId = right.bridgeId ∧ left.stationId = right.stationId ∧ left.resource = right.resource

def TargetResourceScope.allows (requested : ResourceRef) : TargetResourceScope → Bool
  | station bridgeId stationId => requested.bridgeId = bridgeId ∧ requested.stationId = stationId
  | resource granted => sameCanonicalResource granted requested

structure TargetQueryAuthorization where
  targetInstanceId : String
  permissions : List TargetQueryPermission
  resourceScopes : List TargetResourceScope
  deriving DecidableEq, Repr

namespace TargetQueryAuthorization

variable (authorization : TargetQueryAuthorization)

def permits (permission : TargetQueryPermission) : Bool := authorization.permissions.contains permission

def permitsResource (resource : ResourceRef) : Bool := authorization.resourceScopes.any (·.allows resource)

end TargetQueryAuthorization

end OcppBridge.CommandHistory
