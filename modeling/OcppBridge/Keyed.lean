import Mathlib.Data.List.Nodup
import Mathlib.Data.List.Perm.Basic

namespace OcppBridge.Keyed

variable {α κ : Type} {key : α → κ} {xs : List α} {x y : α}

theorem eq_of_key (hk : (xs.map key).Nodup) (hx : x ∈ xs) (hy : y ∈ xs) (hxy : key x = key y) : x = y :=
  List.inj_on_of_nodup_map hk hx hy hxy

theorem perm_cons_delete [DecidableEq κ] (hk : (xs.map key).Nodup) (hx : x ∈ xs) :
    xs.Perm (x :: xs.filter fun y => key y ≠ key x) := by
  induction xs with
  | nil => simp at hx
  | cons y ys ih =>
      simp only [List.map_cons, List.nodup_cons, List.mem_map, not_exists, not_and] at hk
      obtain ⟨hy, hys⟩ := hk
      rcases List.mem_cons.mp hx with rfl | hx
      · have hkeep : ys.filter (fun y => key y ≠ key x) = ys := by
          rw [List.filter_eq_self]
          intro z hz
          simpa using hy z hz
        rw [List.filter_cons_of_neg (by simp), hkeep]
      · have hne : key y ≠ key x := fun h => hy x hx h.symm
        rw [List.filter_cons_of_pos (by simpa using hne)]
        exact ((ih hys hx).cons y).trans (.swap x y _)

theorem nodup_delete (hk : (xs.map key).Nodup) (p : α → Bool) : ((xs.filter p).map key).Nodup :=
  hk.sublist (List.filter_sublist.map key)

theorem perm_append_delete [DecidableEq κ] {ys : List α} (hk : (xs.map key).Nodup) (hys : (ys.map key).Nodup)
    (hsub : ∀ y ∈ ys, y ∈ xs) : xs.Perm (ys ++ xs.filter fun x => key x ∉ ys.map key) := by
  induction ys generalizing xs with
  | nil => simp
  | cons y ys ih =>
      simp only [List.map_cons, List.nodup_cons] at hys
      have hfirst := perm_cons_delete hk (hsub y (by simp))
      have hkept : ∀ z ∈ ys, z ∈ xs.filter fun x => key x ≠ key y := by
        intro z hz
        refine List.mem_filter.mpr ⟨hsub z (by simp [hz]), ?_⟩
        simpa using fun h : key z = key y => hys.1 (h ▸ List.mem_map_of_mem hz)
      have hrest := ih (nodup_delete hk _) hys.2 hkept
      refine (hfirst.trans (hrest.cons y)).trans ?_
      rw [List.cons_append, List.filter_filter]
      refine List.Perm.cons y (List.Perm.append_left ys (List.Perm.of_eq ?_))
      apply List.filter_congr
      intro x _
      by_cases hx : key x = key y <;> simp [hx]

theorem nodup_append_singleton (hk : (xs.map key).Nodup) (hx : ∀ y ∈ xs, key y ≠ key x) :
    ((xs ++ [x]).map key).Nodup := by
  rw [List.map_append, List.nodup_append]
  refine ⟨hk, by simp, ?_⟩
  intro a ha b hb
  simp only [List.map_cons, List.map_nil, List.mem_singleton] at hb
  obtain ⟨y, hy, rfl⟩ := List.mem_map.mp ha
  exact hb ▸ hx y hy

theorem map_key_update (f : α → α) (hf : ∀ x, key (f x) = key x) : (xs.map f).map key = xs.map key := by
  simp [List.map_map, Function.comp_def, hf]

theorem find_of_unique {p : α → Bool} (hx : x ∈ xs) (hp : p x) (hunique : ∀ y ∈ xs, p y → y = x) :
    xs.find? p = some x := by
  cases hfind : xs.find? p with
  | none => exact absurd hp (List.find?_eq_none.mp hfind x hx)
  | some y => rw [hunique y (List.mem_of_find?_eq_some hfind) (List.find?_some hfind)]

theorem find_eq_some [DecidableEq κ] (hk : (xs.map key).Nodup) (hx : x ∈ xs) :
    xs.find? (fun y => key y = key x) = some x :=
  find_of_unique hx (decide_eq_true rfl) fun _ hy hkey => eq_of_key hk hy hx (of_decide_eq_true hkey)

section PushAbsent

variable [DecidableEq κ]

def pushAbsent (key : α → κ) (known new : List α) : List α :=
  new.foldl (fun known item => if known.any (key · = key item) then known else known ++ [item]) known

theorem subset_pushAbsent (known new : List α) : known ⊆ pushAbsent key known new := by
  induction new generalizing known with
  | nil => exact List.Subset.refl known
  | cons item new ih =>
      refine List.Subset.trans ?_ (ih _)
      beta_reduce
      split_ifs
      · exact List.Subset.refl known
      · exact List.subset_append_left known [item]

theorem keys_subset_pushAbsent (known new : List α) : new.map key ⊆ (pushAbsent key known new).map key := by
  induction new generalizing known with
  | nil => simp
  | cons item new ih =>
      rw [List.map_cons, List.cons_subset]
      refine ⟨?_, ih _⟩
      apply List.map_subset key (subset_pushAbsent _ new)
      beta_reduce
      split_ifs with h
      · simpa using h
      · simp

end PushAbsent

end OcppBridge.Keyed
