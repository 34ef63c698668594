import Mathlib.Data.List.Basic

namespace OcppBridge.FirstMatch

variable {α : Type} {p : α → Bool} {f : α → α} {xs : List α} {x new : α}

/-- Apply `f` to the first element that satisfies `p`. -/
def replaceFirst (p : α → Bool) (f : α → α) : List α → List α
  | [] => []
  | x :: xs => if p x then f x :: xs else x :: replaceFirst p f xs

/-- Apply `f` to the first element that satisfies `p`, or put `new` last. -/
def upsert (p : α → Bool) (f : α → α) (new : α) (xs : List α) : List α :=
  if xs.any p then replaceFirst p f xs else xs ++ [new]

theorem replaceFirst_append {before after : List α} (hbefore : ∀ y ∈ before, p y = false) (hx : p x) :
    replaceFirst p f (before ++ x :: after) = before ++ f x :: after := by
  induction before with
  | nil => simp [replaceFirst, hx]
  | cons y before ih =>
      have hy : p y = false := hbefore y (by simp)
      simp only [List.cons_append, replaceFirst, hy, Bool.false_eq_true, if_false]
      rw [ih fun z hz => hbefore z (by simp [hz])]

theorem find?_split (h : xs.find? p = some x) :
    ∃ before after, xs = before ++ x :: after ∧ p x ∧ (∀ y ∈ before, p y = false) ∧
      replaceFirst p f xs = before ++ f x :: after := by
  obtain ⟨hx, before, after, rfl, hbefore⟩ := List.find?_eq_some_iff_append.mp h
  have hbefore : ∀ y ∈ before, p y = false := fun y hy => by simpa using hbefore y hy
  exact ⟨before, after, rfl, hx, hbefore, replaceFirst_append hbefore hx⟩

theorem upsert_split (p : α → Bool) (f : α → α) (new : α) (xs : List α) :
    ((∀ y ∈ xs, p y = false) ∧ upsert p f new xs = xs ++ [new]) ∨
      ∃ before x after, xs = before ++ x :: after ∧ p x ∧ (∀ y ∈ before, p y = false) ∧
        upsert p f new xs = before ++ f x :: after := by
  cases hfind : xs.find? p with
  | none =>
      have hnone : ∀ y ∈ xs, p y = false := fun y hy => by simpa using List.find?_eq_none.mp hfind y hy
      have hany : xs.any p = false := by simpa using hnone
      exact .inl ⟨hnone, by simp [upsert, hany]⟩
  | some x =>
      obtain ⟨before, after, hsplit, hx, hbefore, hreplace⟩ := find?_split (f := f) hfind
      have hany : xs.any p = true := List.any_eq_true.mpr ⟨x, List.mem_of_find?_eq_some hfind, hx⟩
      exact .inr ⟨before, x, after, hsplit, hx, hbefore, by simp [upsert, hany, hreplace]⟩

end OcppBridge.FirstMatch
