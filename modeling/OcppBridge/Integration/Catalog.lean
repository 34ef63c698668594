import Mathlib.Data.List.Flatten
import Mathlib.Data.String.Basic
import OcppBridge.Operational.Snapshot
import OcppBridge.Ordered

namespace OcppBridge.Integration

open Operational Ordered

structure PointView where
  pointId : String
  resource : ResourceRef
  descriptor : Option DataPointDescriptor
  value : Option DataPointValue
  deriving DecidableEq, Repr

def contains (filter : CanonicalResource) : Option CanonicalResource → Bool
  | none => false
  | some candidate =>
      match filter, candidate with
      | .evse evseId none, .evse candidateEvse _ => evseId = candidateEvse
      | filter, candidate => filter = candidate

section Collect

abbrev Joined := List (String × Option DataPointDescriptor × Option DataPointValue)

def entry (id : String) (joined : Joined) : Option DataPointDescriptor × Option DataPointValue :=
  (get? id joined).getD (none, none)

def describe (joined : Joined) (descriptor : DataPointDescriptor) : Joined :=
  let old := entry descriptor.pointId joined
  insert descriptor.pointId (old.1.or (some descriptor), old.2) joined

def observe (joined : Joined) (value : DataPointValue) : Joined :=
  let old := entry value.pointId joined
  insert value.pointId (old.1, old.2.or (some value)) joined

def join (descriptors : List DataPointDescriptor) (values : List DataPointValue) : Joined :=
  values.foldl observe (descriptors.foldl describe [])

def collect (resource : ResourceRef) (descriptors : List DataPointDescriptor) (values : List DataPointValue) :
    List PointView :=
  (join descriptors values).map fun (pointId, descriptor, value) => ⟨pointId, resource, descriptor, value⟩

end Collect

/-- The points of the station itself, then those of its resources, as far as the filter covers them. -/
def points (snapshot : StationSnapshot) (filter : Option CanonicalResource) : List PointView :=
  (if filter.isNone then collect snapshot.station [] snapshot.currentValues else []) ++
    (snapshot.resources.filter fun r => filter.all fun f => contains f r.resource.resource).flatMap fun r =>
      collect r.resource r.dataPoints r.currentValues

theorem points_sublist (snapshot : StationSnapshot) (filter : Option CanonicalResource) :
    (points snapshot filter).Sublist (points snapshot none) := by
  refine List.Sublist.append ?_ (List.Sublist.flatMap ?_ _)
  · cases filter <;> simp
  · simp only [Option.all_none, List.filter_true]
    exact List.filter_sublist

section Spec

variable (joined : Joined) (descriptors : List DataPointDescriptor) (values : List DataPointValue)
  {id : String}

/-- The points of one resource: in the order of their identities, each once with its first descriptor and value. -/
structure Lists (resource : ResourceRef) (views : List PointView) : Prop where
  ordered : views.Pairwise fun a b => a.pointId < b.pointId
  complete : ∀ view, view ∈ views ↔ view.resource = resource ∧
    view.descriptor = descriptors.find? (·.pointId = view.pointId) ∧
    view.value = values.find? (·.pointId = view.pointId) ∧ (view.descriptor.isSome ∨ view.value.isSome)

def merged (old : Option (Option DataPointDescriptor × Option DataPointValue)) (descriptor : Option DataPointDescriptor)
    (value : Option DataPointValue) : Option (Option DataPointDescriptor × Option DataPointValue) :=
  match old, descriptor, value with
  | none, none, none => none
  | old, descriptor, value => some ((old.getD (none, none)).1.or descriptor, (old.getD (none, none)).2.or value)

@[simp] theorem merged_none (old : Option (Option DataPointDescriptor × Option DataPointValue)) :
    merged old none none = old := by
  cases old with
  | none => rfl
  | some old => simp [merged]

theorem get?_describe (descriptor : DataPointDescriptor) :
    get? id (describe joined descriptor) =
      if descriptor.pointId = id then merged (get? id joined) (some descriptor) none
      else get? id joined := by
  by_cases h : descriptor.pointId = id
  · subst h
    simp [describe, get?_insert_self, entry, merged]
  · rw [if_neg h, describe, get?_insert_of_ne (Ne.symm h)]

theorem get?_observe (value : DataPointValue) :
    get? id (observe joined value) =
      if value.pointId = id then merged (get? id joined) none (some value) else get? id joined := by
  by_cases h : value.pointId = id
  · subst h
    simp [observe, get?_insert_self, entry, merged]
  · rw [if_neg h, observe, get?_insert_of_ne (Ne.symm h)]

theorem get?_foldl_describe :
    get? id (descriptors.foldl describe joined) =
      merged (get? id joined) (descriptors.find? (·.pointId = id)) none := by
  induction descriptors generalizing joined with
  | nil => simp
  | cons descriptor descriptors ih =>
      rw [List.foldl_cons, ih, get?_describe]
      by_cases h : descriptor.pointId = id
      · rw [if_pos h, List.find?_cons_of_pos (by simpa using h)]
        cases get? id joined <;> cases descriptors.find? (·.pointId = id) <;> simp [merged]
      · rw [if_neg h, List.find?_cons_of_neg (by simpa using h)]

theorem get?_foldl_observe :
    get? id (values.foldl observe joined) = merged (get? id joined) none (values.find? (·.pointId = id)) := by
  induction values generalizing joined with
  | nil => simp
  | cons value values ih =>
      rw [List.foldl_cons, ih, get?_observe]
      by_cases h : value.pointId = id
      · rw [if_pos h, List.find?_cons_of_pos (by simpa using h)]
        cases get? id joined <;> cases values.find? (·.pointId = id) <;> simp [merged]
      · rw [if_neg h, List.find?_cons_of_neg (by simpa using h)]

theorem get?_join :
    get? id (join descriptors values) =
      merged none (descriptors.find? (·.pointId = id)) (values.find? (·.pointId = id)) := by
  rw [join, get?_foldl_observe, get?_foldl_describe, get?_nil]
  cases descriptors.find? (·.pointId = id) <;> cases values.find? (·.pointId = id) <;> rfl

theorem string_total (p q : String) (hlt : ¬p < q) (hne : p ≠ q) : q < p :=
  lt_of_le_of_ne (not_lt.mp hlt) (Ne.symm hne)

theorem join_sorted : Sorted (join descriptors values) := by
  have hdescribed : ∀ joined : Joined, Sorted joined → Sorted (descriptors.foldl describe joined) := by
    induction descriptors with
    | nil => exact fun _ h => h
    | cons descriptor descriptors ih => exact fun joined h => ih _ (h.insert string_total _ _)
  have hobserved : ∀ joined : Joined, Sorted joined → Sorted (values.foldl observe joined) := by
    induction values with
    | nil => exact fun _ h => h
    | cons value values ih => exact fun joined h => ih _ (h.insert string_total _ _)
  exact hobserved _ (hdescribed [] List.Pairwise.nil)

theorem merged_eq_some {d d' : Option DataPointDescriptor} {v v' : Option DataPointValue} :
    merged none d v = some (d', v') ↔ d' = d ∧ v' = v ∧ (d'.isSome ∨ v'.isSome) := by
  cases d <;> cases v <;> simp [merged] <;> aesop

theorem mem_join {d : Option DataPointDescriptor} {v : Option DataPointValue} :
    (id, d, v) ∈ join descriptors values ↔ d = descriptors.find? (·.pointId = id) ∧
      v = values.find? (·.pointId = id) ∧ (d.isSome ∨ v.isSome) := by
  have hkeys : ((join descriptors values).map Prod.fst).Nodup :=
    List.pairwise_map.mpr ((join_sorted descriptors values).imp fun hlt => hlt.ne)
  rw [← get?_eq_some_iff hkeys, get?_join, merged_eq_some]

theorem collect_lists (resource : ResourceRef) :
    Lists descriptors values resource (collect resource descriptors values) := by
  constructor
  · rw [collect, List.pairwise_map]
    exact join_sorted descriptors values
  · intro view
    rw [collect, List.mem_map]
    constructor
    · rintro ⟨⟨id, d, v⟩, hmem, rfl⟩
      exact ⟨rfl, (mem_join descriptors values).mp hmem⟩
    · rintro ⟨hresource, hview⟩
      refine ⟨(view.pointId, view.descriptor, view.value), (mem_join descriptors values).mpr hview, ?_⟩
      rw [← hresource]

/-- The resources whose points a request lists, in the order of the snapshot. -/
def owners (snapshot : StationSnapshot) (filter : Option CanonicalResource) : List ChargingResourceSnapshot :=
  (if filter.isNone then [⟨snapshot.station, [], snapshot.currentValues⟩] else []) ++
    snapshot.resources.filter fun r => filter.all fun f => contains f r.resource.resource

def Catalogue (snapshot : StationSnapshot) (filter : Option CanonicalResource) (views : List PointView) : Prop :=
  ∃ lists, List.Forall₂ (fun owner => Lists owner.dataPoints owner.currentValues owner.resource)
    (owners snapshot filter) lists ∧ views = lists.flatten

theorem points_catalogue (snapshot : StationSnapshot) (filter : Option CanonicalResource) :
    Catalogue snapshot filter (points snapshot filter) := by
  refine ⟨(owners snapshot filter).map fun owner => collect owner.resource owner.dataPoints owner.currentValues, ?_, ?_⟩
  · rw [List.forall₂_map_right_iff]
    exact List.forall₂_same.mpr fun owner _ => collect_lists _ _ _
  · rw [points, owners, List.map_append, List.flatten_append, ← List.flatMap_def]
    congr 1
    cases filter <;> simp

end Spec

end OcppBridge.Integration
