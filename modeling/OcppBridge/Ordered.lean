import Mathlib.Data.List.Perm.Subperm
import Mathlib.Data.List.Sort

namespace OcppBridge.Ordered

variable {κ α : Type} [LT κ] [DecidableLT κ] [DecidableEq κ]

def insert (k : κ) (a : α) : List (κ × α) → List (κ × α)
  | [] => [(k, a)]
  | (k', a') :: rest =>
      if k < k' then (k, a) :: (k', a') :: rest
      else if k = k' then (k, a) :: rest
      else (k', a') :: insert k a rest

theorem insert_perm {k : κ} {xs : List (κ × α)} (h : k ∉ xs.map Prod.fst) (a : α) :
    (insert k a xs).Perm ((k, a) :: xs) := by
  induction xs with
  | nil => exact .refl _
  | cons x xs ih =>
      obtain ⟨k', a'⟩ := x
      simp only [List.map_cons, List.mem_cons, not_or] at h
      simp only [insert, if_neg h.1]
      split
      · exact .refl _
      · exact ((ih h.2).cons (k', a')).trans (.swap _ _ _)

theorem mem_keys_insert {k k' : κ} {a : α} {xs : List (κ × α)} (h : k' ∈ (insert k a xs).map Prod.fst) :
    k' = k ∨ k' ∈ xs.map Prod.fst := by
  induction xs with
  | nil => exact .inl (by simpa [insert] using h)
  | cons x xs ih =>
      simp only [insert] at h
      split_ifs at h with hlt heq
      · simpa using h
      · simp only [List.map_cons, List.mem_cons] at h
        exact h.imp_right fun h => List.mem_cons_of_mem _ h
      · simp only [List.map_cons, List.mem_cons] at h
        rcases h with rfl | h
        · exact .inr (by simp)
        · exact (ih h).imp_right fun h => List.mem_cons_of_mem _ h

section Lookup

def get? (k : κ) (xs : List (κ × α)) : Option α := (xs.find? fun x => decide (x.1 = k)).map Prod.snd

omit [LT κ] [DecidableLT κ] in
@[simp] theorem get?_nil (k : κ) : get? k ([] : List (κ × α)) = none := rfl

omit [LT κ] [DecidableLT κ] in
theorem get?_cons (k : κ) (x : κ × α) (xs : List (κ × α)) :
    get? k (x :: xs) = if x.1 = k then some x.2 else get? k xs := by
  by_cases h : x.1 = k <;> simp [get?, h]

omit [LT κ] [DecidableLT κ] in
theorem get?_append (k : κ) (xs ys : List (κ × α)) : get? k (xs ++ ys) = (get? k xs).or (get? k ys) := by
  simp only [get?, List.find?_append, Option.map_or]

omit [LT κ] [DecidableLT κ] in
theorem get?_eq_none {k : κ} {xs : List (κ × α)} : get? k xs = none ↔ k ∉ xs.map Prod.fst := by
  induction xs with
  | nil => simp
  | cons x xs ih =>
      rw [get?_cons]
      by_cases h : x.1 = k
      · simp [h]
      · simp [h, ih, Ne.symm h]

theorem get?_insert_of_ne {k k' : κ} (h : k' ≠ k) (a : α) (xs : List (κ × α)) :
    get? k' (insert k a xs) = get? k' xs := by
  induction xs with
  | nil => simp [insert, get?_cons, h.symm]
  | cons x xs ih =>
      simp only [insert]
      split_ifs with hlt heq
      · simp [get?_cons, h.symm]
      · simp only [get?_cons, h.symm, if_false]
        rw [if_neg (heq ▸ h.symm)]
      · simp only [get?_cons, ih]

theorem get?_insert_self (k : κ) (a : α) (xs : List (κ × α)) : get? k (insert k a xs) = some a := by
  induction xs with
  | nil => simp [insert, get?_cons]
  | cons x xs ih =>
      simp only [insert]
      split_ifs with hlt heq
      · simp [get?_cons]
      · simp [get?_cons]
      · rw [get?_cons, if_neg (Ne.symm heq), ih]

def Sorted (xs : List (κ × α)) : Prop := xs.Pairwise fun x y => x.1 < y.1

variable [Trans (fun p q : κ => p < q) (fun p q : κ => p < q) (fun p q : κ => p < q)]
  (total : ∀ p q : κ, ¬p < q → p ≠ q → q < p)

include total in
theorem Sorted.insert {xs : List (κ × α)} (h : Sorted xs) (k : κ) (a : α) : Sorted (insert k a xs) := by
  induction xs with
  | nil => exact List.pairwise_singleton _ _
  | cons x xs ih =>
      obtain ⟨hhead, htail⟩ := List.pairwise_cons.mp h
      simp only [Ordered.insert]
      split_ifs with hlt heq
      · refine List.pairwise_cons.mpr ⟨fun y hy => ?_, h⟩
        rcases List.mem_cons.mp hy with rfl | hy
        · exact hlt
        · exact Trans.trans (r := fun p q : κ => p < q) (s := fun p q : κ => p < q) hlt (hhead y hy)
      · exact List.pairwise_cons.mpr ⟨fun y hy => heq ▸ hhead y hy, htail⟩
      · refine List.pairwise_cons.mpr ⟨fun y hy => ?_, ih htail⟩
        rcases mem_keys_insert (List.mem_map_of_mem hy) with hk | hk
        · exact hk ▸ total k x.1 hlt heq
        · obtain ⟨z, hz, hzy⟩ := List.mem_map.mp hk
          exact hzy ▸ hhead z hz

end Lookup

section Sorting

variable {κ α : Type} [LinearOrder κ]

def sort (xs : List (κ × α)) : List (κ × α) := xs.insertionSort (·.1 ≤ ·.1)

theorem sort_perm (xs : List (κ × α)) : (sort xs).Perm xs := List.perm_insertionSort _ xs

theorem pairwise_sort (xs : List (κ × α)) : (sort xs).Pairwise (·.1 ≤ ·.1) := by
  have htotal : Std.Total fun x y : κ × α => x.1 ≤ y.1 := ⟨fun x y => le_total x.1 y.1⟩
  have htrans : IsTrans (κ × α) fun x y => x.1 ≤ y.1 := ⟨fun _ _ _ => le_trans⟩
  exact List.pairwise_insertionSort _ xs

theorem sort_eq_iff {xs ys : List (κ × α)} (h : (xs.map Prod.fst).Nodup) : sort xs = sort ys ↔ xs.Perm ys := by
  constructor
  · intro hsort
    exact (sort_perm xs).symm.trans (hsort ▸ sort_perm ys)
  · intro hperm
    have hall : (sort xs).Perm (sort ys) := (sort_perm xs).trans (hperm.trans (sort_perm ys).symm)
    refine hall.eq_of_pairwise (fun x y hx hy hxy hyx => ?_) (pairwise_sort xs) (pairwise_sort ys)
    have hx' : x ∈ xs := (sort_perm xs).mem_iff.mp hx
    have hy' : y ∈ xs := hperm.mem_iff.mpr ((sort_perm ys).mem_iff.mp hy)
    exact List.inj_on_of_nodup_map h hx' hy' (le_antisymm hxy hyx)

omit [LinearOrder κ] in
theorem perm_of_subset {xs ys : List (κ × α)} (h : (xs.map Prod.fst).Nodup) (hlen : ys.length ≤ xs.length)
    (hsub : xs ⊆ ys) : xs.Perm ys :=
  (List.subperm_of_subset (List.Nodup.of_map _ h) hsub).perm_of_length_le hlen

theorem get?_eq_some_iff {k : κ} {a : α} {xs : List (κ × α)} (h : (xs.map Prod.fst).Nodup) :
    get? k xs = some a ↔ (k, a) ∈ xs := by
  induction xs with
  | nil => simp
  | cons x xs ih =>
      obtain ⟨hhead, htail⟩ := List.nodup_cons.mp (List.map_cons ▸ h)
      rw [get?_cons]
      by_cases hx : x.1 = k
      · have hrest : (k, a) ∉ xs := fun hmem => hhead (List.mem_map.mpr ⟨_, hmem, hx.symm⟩)
        simp only [hx, if_true, Option.some.injEq, List.mem_cons, hrest, or_false]
        constructor
        · rintro rfl
          exact Prod.ext hx.symm rfl
        · rintro rfl
          rfl
      · rw [if_neg hx, ih htail, List.mem_cons, or_iff_right]
        rintro rfl
        exact hx rfl

end Sorting

end OcppBridge.Ordered
