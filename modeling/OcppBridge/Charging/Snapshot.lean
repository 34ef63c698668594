import OcppBridge.FirstMatch
import OcppBridge.Operational.Snapshot

namespace OcppBridge.Charging

open FirstMatch Operational

def unixTimestamp (t : UtcTimestamp) : Int := t / nanosecondsPerSecond

section Values

def set (values : List DataPointValue) (id : String) (value : Option TypedValue) (sourceTime : Option UtcTimestamp)
    (observedAt : UtcTimestamp) : List DataPointValue :=
  let point := ⟨id, value, sourceTime, observedAt, none⟩
  upsert (·.pointId = id) (fun _ => point) point values

def integerOf (id : String) (v : DataPointValue) : Option Int :=
  if v.pointId = id then
    match v.value with
    | some (.signedInteger n) => some n
    | _ => none
  else none

def persistedFloor (name : String) (values : List DataPointValue) : Option Int := values.findSome? (integerOf name)

def retentionSeconds : Int := 7 * 24 * 60 * 60

def replayFloor (name : String) (values : List DataPointValue) (now : UtcTimestamp) : Int :=
  match persistedFloor name values with
  | none => unixTimestamp now - retentionSeconds
  | some persisted => max persisted (unixTimestamp now - retentionSeconds)

theorem persistedFloor_set (values : List DataPointValue) (name : String) (floor : Int)
    (sourceTime : Option UtcTimestamp) (now : UtcTimestamp) :
    persistedFloor name (set values name (some (.signedInteger floor)) sourceTime now) = some floor := by
  have hskip : ∀ {before : List DataPointValue}, (∀ v ∈ before, decide (v.pointId = name) = false) →
      before.findSome? (integerOf name) = none := by
    intro before hbefore
    rw [List.findSome?_eq_none_iff]
    intro v hv
    simp only [integerOf, of_decide_eq_false (hbefore v hv), if_false]
  rcases upsert_split (fun v : DataPointValue => decide (v.pointId = name))
      (fun _ => ⟨name, some (.signedInteger floor), sourceTime, now, none⟩)
      ⟨name, some (.signedInteger floor), sourceTime, now, none⟩ values with ⟨hnone, h⟩ |
        ⟨before, v, after, _, _, hbefore, h⟩
  · simp [persistedFloor, set, h, hskip hnone, integerOf]
  · simp [persistedFloor, set, h, hskip hbefore, integerOf]

theorem persistedFloor_le {name : String} {values : List DataPointValue} {now : UtcTimestamp} {floor : Int}
    (h : persistedFloor name values = some floor) : floor ≤ replayFloor name values now := by
  simp only [replayFloor, h]
  exact le_max_left _ _

end Values

end OcppBridge.Charging
