import OcppBridge.Operational.Fingerprint

namespace OcppBridge.Snapshots

open Storage Transaction Call Operational

variable (serde : Serde) {r : ResourceRef}

def resourceKey (r : ResourceRef) : String := String.ofList (serde.print r.json)

/-- Only the canonical identity. -/
def canonicalRef (r : ResourceRef) : ResourceRef := { r with nativeProtocolReference := none }

def StationOnly (r : ResourceRef) : Prop :=
  r.resource = none ∧ NativeProtocolReference.isStation r.nativeProtocolReference

instance (r : ResourceRef) : Decidable (StationOnly r) := inferInstanceAs (Decidable (_ ∧ _))

/-- The key of a station as it stands in the tables. -/
def stationKeyText (r : ResourceRef) : Except StorageError String :=
  (fun key => resourceKey serde ⟨key.bridgeId, key.stationId, none, none⟩) <$> stationKey r

def eventStreamKey (r : ResourceRef) : Except StorageError String :=
  match r.resource with
  | some resource =>
      pure (String.ofList (serde.print (.object [("bridge_id", .string r.bridgeId), ("station_id", .string r.stationId),
        ("resource", resource.json)])))
  | none => stationKeyText serde r

def StreamRef (r : ResourceRef) : Prop := r.resource.isSome ∨ StationOnly r

variable {serde}

theorem resourceKey_inj {r' : ResourceRef} (h : resourceKey serde r = resourceKey serde r') : r = r' :=
  encodes_resource.injective
    (serde.sortJson_of_print_eq (encodes_resource.wellFormed r) (encodes_resource.wellFormed r')
      (String.ofList_injective h))

theorem StationOnly.stream (h : StationOnly r) : StreamRef r := .inr h

theorem stationKeyText_eq (h : StationOnly r) : stationKeyText serde r = .ok (resourceKey serde (canonicalRef r)) := by
  obtain ⟨bridgeId, stationId, resource, native⟩ := r
  obtain ⟨rfl, hnative⟩ : resource = none ∧ NativeProtocolReference.isStation native = true := h
  rw [stationKeyText, stationKey, require, if_pos ⟨rfl, hnative⟩]
  rfl

theorem stationKeyText_of_not (h : ¬StationOnly r) :
    stationKeyText serde r = .error ⟨.invalidRequest,
      "snapshot scope must contain station-only canonical references"⟩ := by
  unfold StationOnly at h
  rw [stationKeyText, stationKey, require, if_neg h]
  rfl

theorem eventStreamKey_eq (h : StreamRef r) : eventStreamKey serde r = .ok (resourceKey serde (canonicalRef r)) := by
  obtain ⟨bridgeId, stationId, resource, native⟩ := r
  cases resource with
  | some resource => rfl
  | none => exact stationKeyText_eq (h.resolve_left Bool.false_ne_true)

theorem canonicalRef_of_key {r' : ResourceRef} (h : resourceKey serde r = resourceKey serde (canonicalRef r')) :
    canonicalRef r = r := by
  rw [resourceKey_inj h]
  rfl

end OcppBridge.Snapshots
