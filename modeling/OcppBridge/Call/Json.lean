import OcppBridge.Call.Frame
import OcppBridge.Ordered
import Mathlib.Data.String.Basic
import Mathlib.Logic.Relation

namespace OcppBridge.Call.Json

open Ordered

@[elab_as_elim]
theorem induct {P : Json → Prop} (null : P .null) (bool : ∀ b, P (.bool b)) (natural : ∀ n, P (.natural n))
    (number : ∀ text, P (.number text)) (string : ∀ value, P (.string value))
    (array : ∀ items, (∀ v ∈ items, P v) → P (.array items))
    (object : ∀ fields, (∀ field ∈ fields, P field.2) → P (.object fields)) (v : Json) : P v :=
  @Json.rec P (fun items => ∀ v ∈ items, P v) (fun fields => ∀ field ∈ fields, P field.2) (fun field => P field.2)
    null bool natural number string array object (fun _ h => nomatch h)
    (fun _ _ hv hvs _ h => by rcases List.mem_cons.mp h with rfl | h; exacts [hv, hvs _ h]) (fun _ h => nomatch h)
    (fun _ _ hf hfs _ h => by rcases List.mem_cons.mp h with rfl | h; exacts [hf, hfs _ h]) (fun _ _ h => h) v

section Definitions

mutual

def sortJson : Json → Json
  | .array items => .array (sortItems items)
  | .object fields => .object (sort (sortFields fields))
  | v => v

def sortItems : List Json → List Json
  | [] => []
  | v :: vs => v.sortJson :: sortItems vs

def sortFields : List (String × Json) → List (String × Json)
  | [] => []
  | (k, v) :: rest => (k, v.sortJson) :: sortFields rest

end

def isNumeral (c : Char) : Bool := c.isDigit || c ∈ ['-', '+', '.', 'e', 'E']

mutual

/-- Equality of two values: objects are maps, and numbers are kept as their texts. -/
def same : Json → Json → Bool
  | .null, .null => true
  | .bool a, .bool b => a = b
  | .natural a, .natural b => a = b
  | .number a, .number b => a = b
  | .string a, .string b => a = b
  | .array a, .array b => sameItems a b
  | .object a, .object b => a.length = b.length && sameFields a b
  | _, _ => false

def sameItems : List Json → List Json → Bool
  | [], [] => true
  | v :: vs, w :: ws => v.same w && sameItems vs ws
  | _, _ => false

def sameFields : List (String × Json) → List (String × Json) → Bool
  | [], _ => true
  | (k, v) :: rest, b => (Ordered.get? k b).any v.same && sameFields rest b

end

/-- The text of a number that is not natural. The parser makes the natural number of a negative zero. -/
def NumberText (text : String) : Prop :=
  (∀ c ∈ text.toList, isNumeral c = true) ∧ (∃ c ∈ text.toList, c.isDigit = false) ∧ text ≠ "-0"

mutual

/-- What the parser guarantees of a value: a key occurs once, and numbers that are not natural can be told apart. -/
def WellFormed : Json → Prop
  | .number text => NumberText text
  | .array items => WellFormedItems items
  | .object fields => (fields.map Prod.fst).Nodup ∧ WellFormedFields fields
  | _ => True

def WellFormedItems : List Json → Prop
  | [] => True
  | v :: vs => v.WellFormed ∧ WellFormedItems vs

def WellFormedFields : List (String × Json) → Prop
  | [] => True
  | (_, v) :: rest => v.WellFormed ∧ WellFormedFields rest

end

end Definitions

section Equations

theorem sortItems_eq_map (items : List Json) : sortItems items = items.map sortJson := by
  induction items with
  | nil => rfl
  | cons v vs ih => rw [sortItems, ih, List.map_cons]

theorem sortFields_eq_map (fields : List (String × Json)) :
    sortFields fields = fields.map fun field => (field.1, field.2.sortJson) := by
  induction fields with
  | nil => rfl
  | cons field rest ih => rw [sortFields, ih, List.map_cons]

theorem wellFormedItems_iff (items : List Json) : WellFormedItems items ↔ ∀ v ∈ items, v.WellFormed := by
  induction items with
  | nil => simp [WellFormedItems]
  | cons v vs ih => rw [WellFormedItems, ih, List.forall_mem_cons]

theorem wellFormedFields_iff (fields : List (String × Json)) :
    WellFormedFields fields ↔ ∀ field ∈ fields, field.2.WellFormed := by
  induction fields with
  | nil => simp [WellFormedFields]
  | cons field rest ih => rw [WellFormedFields, ih, List.forall_mem_cons]

theorem sameItems_iff (a b : List Json) : sameItems a b = true ↔ List.Forall₂ (fun v w => v.same w = true) a b := by
  induction a generalizing b with
  | nil => cases b <;> simp [sameItems]
  | cons v vs ih => cases b <;> simp [sameItems, ih]

theorem sameFields_iff (a b : List (String × Json)) :
    sameFields a b = true ↔ ∀ field ∈ a, ∃ w, Ordered.get? field.1 b = some w ∧ field.2.same w = true := by
  induction a with
  | nil => simp [sameFields]
  | cons field rest ih => rw [sameFields, Bool.and_eq_true, ih, List.forall_mem_cons, Option.any_eq_true]

end Equations

section Sorting

theorem keys_sortFields (fields : List (String × Json)) : (sortFields fields).map Prod.fst = fields.map Prod.fst := by
  rw [sortFields_eq_map, List.map_map]
  rfl

theorem sortJson_wellFormed {v : Json} (h : v.WellFormed) : v.sortJson.WellFormed := by
  induction v using induct with
  | array items ih =>
      rw [WellFormed, wellFormedItems_iff] at h
      rw [sortJson, WellFormed, wellFormedItems_iff, sortItems_eq_map]
      intro w hw
      obtain ⟨v, hv, rfl⟩ := List.mem_map.mp hw
      exact ih v hv (h v hv)
  | object fields ih =>
      rw [WellFormed, wellFormedFields_iff] at h
      rw [sortJson, WellFormed, wellFormedFields_iff]
      have hperm := sort_perm (sortFields fields)
      constructor
      · rw [(hperm.map Prod.fst).nodup_iff, keys_sortFields]
        exact h.1
      · intro member hmember
        rw [hperm.mem_iff, sortFields_eq_map] at hmember
        obtain ⟨field, hfield, rfl⟩ := List.mem_map.mp hmember
        exact ih field hfield (h.2 field hfield)
  | _ => simpa only [sortJson] using h

theorem same_object_iff {a b : List (String × Json)} (hb : (b.map Prod.fst).Nodup) :
    (object a).same (object b) = true ↔
      a.length = b.length ∧ ∀ field ∈ a, ∃ other ∈ b, field.1 = other.1 ∧ field.2.same other.2 = true := by
  rw [same, Bool.and_eq_true, decide_eq_true_iff, sameFields_iff]
  refine and_congr_right fun _ => forall₂_congr fun field _ => ?_
  constructor
  · rintro ⟨w, hget, hsame⟩
    exact ⟨(field.1, w), (Ordered.get?_eq_some_iff hb).mp hget, rfl, hsame⟩
  · rintro ⟨other, hother, hkey, hsame⟩
    exact ⟨other.2, (Ordered.get?_eq_some_iff hb).mpr (hkey ▸ hother), hsame⟩

theorem sort_object_iff {a b : List (String × Json)} (ha : (a.map Prod.fst).Nodup) :
    (object a).sortJson = (object b).sortJson ↔
      a.length = b.length ∧ ∀ field ∈ a, ∃ other ∈ b, field.1 = other.1 ∧ field.2.sortJson = other.2.sortJson := by
  have hkeys : ((sortFields a).map Prod.fst).Nodup := by rwa [keys_sortFields]
  rw [sortJson, sortJson, object.injEq, sort_eq_iff hkeys]
  simp only [sortFields_eq_map] at hkeys ⊢
  constructor
  · intro hperm
    refine ⟨by simpa using hperm.length_eq, fun field hfield => ?_⟩
    obtain ⟨other, hother, heq⟩ := List.mem_map.mp (hperm.subset (List.mem_map_of_mem hfield))
    obtain ⟨hkey, hvalue⟩ := Prod.mk.inj heq
    exact ⟨other, hother, hkey.symm, hvalue.symm⟩
  · rintro ⟨hlen, hall⟩
    refine perm_of_subset hkeys (by simp [hlen]) fun pair hpair => ?_
    obtain ⟨field, hfield, rfl⟩ := List.mem_map.mp hpair
    obtain ⟨other, hother, hkey, hvalue⟩ := hall field hfield
    exact List.mem_map.mpr ⟨other, hother, by rw [hkey, hvalue]⟩

theorem lookup_of_sort_eq {a b : List (String × Json)} (ha : (a.map Prod.fst).Nodup) (hb : (b.map Prod.fst).Nodup)
    (h : (object a).sortJson = (object b).sortJson) (key : String) :
    (Ordered.get? key a).map sortJson = (Ordered.get? key b).map sortJson := by
  cases hget : Ordered.get? key a with
  | some v =>
      obtain ⟨other, hother, rfl, hvalue⟩ :=
        ((sort_object_iff ha).mp h).2 (key, v) ((Ordered.get?_eq_some_iff ha).mp hget)
      rw [(Ordered.get?_eq_some_iff hb).mpr hother, Option.map_some, Option.map_some, ← hvalue]
  | none =>
      cases hother : Ordered.get? key b with
      | none => rfl
      | some w =>
          obtain ⟨field, hfield, rfl, _⟩ :=
            ((sort_object_iff hb).mp h.symm).2 (key, w) ((Ordered.get?_eq_some_iff hb).mp hother)
          exact absurd (List.mem_map_of_mem hfield) (Ordered.get?_eq_none.mp hget)

theorem get?_object (key : String) (fields : List (String × Json)) :
    (object fields).get? key = Ordered.get? key fields :=
  rfl

theorem get?_of_sort_eq {v w : Json} (hv : v.WellFormed) (hw : w.WellFormed) (h : v.sortJson = w.sortJson)
    (key : String) : (v.get? key).map sortJson = (w.get? key).map sortJson := by
  cases v with
  | object a =>
      cases w with
      | object b =>
          rw [WellFormed] at hv hw
          exact lookup_of_sort_eq hv.1 hw.1 h key
      | _ => simp [sortJson] at h
  | _ => cases w <;> simp [sortJson, get?] at h ⊢

theorem sort_filter {a b : List (String × Json)} (ha : (a.map Prod.fst).Nodup)
    (h : (object a).sortJson = (object b).sortJson) (keep : String → Bool) :
    (object (a.filter fun field => keep field.1)).sortJson =
      (object (b.filter fun field => keep field.1)).sortJson := by
  have hkeys : ((sortFields a).map Prod.fst).Nodup := by rwa [keys_sortFields]
  have hcomm (fields : List (String × Json)) : sortFields (fields.filter fun field => keep field.1) =
      (sortFields fields).filter fun field => keep field.1 := by
    rw [sortFields_eq_map, sortFields_eq_map, List.filter_map]
    rfl
  rw [sortJson, sortJson, object.injEq, sort_eq_iff hkeys] at h
  rw [sortJson, sortJson, object.injEq, hcomm, hcomm]
  exact (sort_eq_iff (hkeys.sublist (List.filter_sublist.map _))).mpr (h.filter _)

theorem sortJson_sortJson {v : Json} (h : v.WellFormed) : v.sortJson.sortJson = v.sortJson := by
  induction v using induct with
  | array items ih =>
      rw [WellFormed, wellFormedItems_iff] at h
      simp only [sortJson, sortItems_eq_map, List.map_map, array.injEq]
      exact List.map_congr_left fun v hv => ih v hv (h v hv)
  | object fields ih =>
      have hsorted := sortJson_wellFormed h
      rw [sortJson, WellFormed] at hsorted
      rw [WellFormed, wellFormedFields_iff] at h
      have hperm := sort_perm (sortFields fields)
      have hlength : (sort (sortFields fields)).length = fields.length := by
        rw [hperm.length_eq, sortFields_eq_map, List.length_map]
      have hobject : (object (sort (sortFields fields))).sortJson = (object fields).sortJson := by
        refine (sort_object_iff hsorted.1).mpr ⟨hlength, fun member hmember => ?_⟩
        rw [hperm.mem_iff, sortFields_eq_map] at hmember
        obtain ⟨field, hfield, rfl⟩ := List.mem_map.mp hmember
        exact ⟨field, hfield, rfl, ih field hfield (h.2 field hfield)⟩
      nth_rewrite 2 [sortJson]
      exact hobject
  | _ => simp only [sortJson]

theorem same_iff_sortJson {v w : Json} (hv : v.WellFormed) (hw : w.WellFormed) :
    v.same w = true ↔ v.sortJson = w.sortJson := by
  induction v using induct generalizing w with
  | array items ih =>
      cases w with
      | array items' =>
          rw [WellFormed, wellFormedItems_iff] at hv hw
          rw [same, sameItems_iff, sortJson, sortJson, array.injEq, sortItems_eq_map, sortItems_eq_map]
          rw [← List.forall₂_eq_eq_eq, List.forall₂_map_left_iff, List.forall₂_map_right_iff,
            List.forall₂_iff_zip, List.forall₂_iff_zip]
          refine and_congr_right fun _ => ?_
          have hpair : ∀ {v w}, (v, w) ∈ items.zip items' → (v.same w = true ↔ v.sortJson = w.sortJson) := by
            intro v w hmem
            obtain ⟨hleft, hright⟩ := List.of_mem_zip hmem
            exact ih v hleft (hv v hleft) (hw w hright)
          exact ⟨fun h _ _ hmem => (hpair hmem).mp (h hmem), fun h _ _ hmem => (hpair hmem).mpr (h hmem)⟩
      | _ => simp [same, sortJson]
  | object fields ih =>
      cases w with
      | object fields' =>
          rw [WellFormed, wellFormedFields_iff] at hv hw
          rw [same_object_iff hw.1, sort_object_iff hv.1]
          refine and_congr_right fun _ => forall₂_congr fun field hfield => ?_
          refine exists_congr fun other => and_congr_right fun hother => and_congr_right fun _ => ?_
          exact ih field hfield (hv.2 field hfield) (hw.2 other hother)
      | _ => simp [same, sortJson]
  | _ => cases w <;> simp [same, sortJson]

inductive Reorder : Json → Json → Prop
  | members {a b : List (String × Json)} : a.Perm b → Reorder (.object a) (.object b)
  | item {v w : Json} (before after : List Json) :
      Reorder v w → Reorder (.array (before ++ v :: after)) (.array (before ++ w :: after))
  | member {v w : Json} (before after : List (String × Json)) (key : String) :
      Reorder v w → Reorder (.object (before ++ (key, v) :: after)) (.object (before ++ (key, w) :: after))

namespace Reorder

variable {v w : Json}

theorem wellFormed (h : Reorder v w) (hv : v.WellFormed) : w.WellFormed := by
  induction h with
  | members hperm =>
      rw [WellFormed, wellFormedFields_iff] at hv ⊢
      exact ⟨(hperm.map Prod.fst).nodup_iff.mp hv.1, fun field hfield => hv.2 field (hperm.mem_iff.mpr hfield)⟩
  | item before after _ ih =>
      rw [WellFormed, wellFormedItems_iff, List.forall_mem_append, List.forall_mem_cons] at hv ⊢
      exact ⟨hv.1, ih hv.2.1, hv.2.2⟩
  | member before after key _ ih =>
      rw [WellFormed, wellFormedFields_iff, List.forall_mem_append, List.forall_mem_cons] at hv ⊢
      refine ⟨?_, hv.2.1, ih hv.2.2.1, hv.2.2.2⟩
      simpa only [List.map_append, List.map_cons] using hv.1

theorem sortJson_eq (h : Reorder v w) (hv : v.WellFormed) : v.sortJson = w.sortJson := by
  induction h with
  | members hperm =>
      rw [WellFormed] at hv
      rw [sort_object_iff hv.1]
      exact ⟨hperm.length_eq, fun field hfield => ⟨field, hperm.mem_iff.mp hfield, rfl, rfl⟩⟩
  | item before after _ ih =>
      rw [WellFormed, wellFormedItems_iff, List.forall_mem_append, List.forall_mem_cons] at hv
      simp only [sortJson, sortItems_eq_map, List.map_append, List.map_cons, ih hv.2.1]
  | member before after key _ ih =>
      rw [WellFormed, wellFormedFields_iff, List.forall_mem_append, List.forall_mem_cons] at hv
      simp only [sortJson, sortFields_eq_map, List.map_append, List.map_cons, ih hv.2.2.1]

end Reorder

def Reordered : Json → Json → Prop := Relation.ReflTransGen Reorder

namespace Reordered

variable {v w : Json}

theorem wellFormed (h : Reordered v w) (hv : v.WellFormed) : w.WellFormed := by
  induction h with
  | refl => exact hv
  | tail _ hstep ih => exact hstep.wellFormed ih

theorem sortJson_eq (h : Reordered v w) (hv : v.WellFormed) : v.sortJson = w.sortJson := by
  induction h with
  | refl => rfl
  | tail hrun hstep ih => exact ih.trans (hstep.sortJson_eq (Reordered.wellFormed hrun hv))

theorem eq_string {s : String} (h : Reordered (.string s) w) : w = .string s := by
  induction h with
  | refl => rfl
  | tail _ hstep ih =>
      rw [ih] at hstep
      cases hstep

theorem eq_object {a : List (String × Json)} (h : Reordered (.object a) w) : ∃ b, w = .object b := by
  induction h with
  | refl => exact ⟨a, rfl⟩
  | tail _ hstep ih =>
      obtain ⟨b, rfl⟩ := ih
      cases hstep with
      | members => exact ⟨_, rfl⟩
      | member => exact ⟨_, rfl⟩

end Reordered

end Sorting

end OcppBridge.Call.Json
