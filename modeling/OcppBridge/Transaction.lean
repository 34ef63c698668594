import Mathlib.Data.List.Forall2

namespace OcppBridge.Transaction

variable {ε α β σ : Type} {x : Except ε α} {xs : List α} {f : σ → α → Except ε σ} {e : ε} {a : α}

/-- Refuse with `e` unless `p` holds. -/
def require (p : Prop) [Decidable p] (e : ε) : Except ε Unit := if p then .ok () else .error e

@[simp] theorem require_eq_ok {p : Prop} [Decidable p] {u : Unit} : require p e = .ok u ↔ p := by
  by_cases hp : p <;> simp [require, hp]

@[simp] theorem bind_eq_ok {f : α → Except ε β} {b : β} : x >>= f = .ok b ↔ ∃ a, x = .ok a ∧ f a = .ok b := by
  cases x with
  | error e => simp [bind, Except.bind]
  | ok a => simp [bind, Except.bind]

@[simp] theorem pure_eq_ok {b : α} : (pure a : Except ε α) = .ok b ↔ a = b := by
  simp [pure, Except.pure]

@[simp] theorem map_eq_ok {f : α → β} {b : β} : f <$> x = .ok b ↔ ∃ a, x = .ok a ∧ f a = b := by
  cases x with
  | error e => simp [Functor.map, Except.map]
  | ok a => simp [Functor.map, Except.map]

@[simp] theorem mapError_eq_ok {δ : Type} {f : ε → δ} : x.mapError f = .ok a ↔ x = .ok a := by
  cases x <;> simp [Except.mapError]

/-- Every failure of `x` satisfies `P`. -/
def Fails (P : ε → Prop) (x : Except ε α) : Prop := ∀ e, x = .error e → P e

section Fails

variable {P : ε → Prop}

theorem Fails.pure (a : α) : Fails P (Pure.pure a : Except ε α) := by
  intro e h
  simp [Pure.pure, Except.pure] at h

theorem Fails.error (h : P e) : Fails P (.error e : Except ε α) := by
  rintro _ ⟨⟩
  exact h

theorem Fails.require {p : Prop} [Decidable p] (h : ¬p → P e) : Fails P (require p e) := by
  intro e' he
  by_cases hp : p
  · simp [Transaction.require, hp] at he
  · simp only [Transaction.require, hp, if_false, Except.error.injEq] at he
    exact he ▸ h hp

theorem Fails.bind {f : α → Except ε β} (hx : Fails P x) (hf : ∀ a, x = .ok a → Fails P (f a)) :
    Fails P (x >>= f) := by
  cases x with
  | error e => exact fun e' he => hx e' (by simpa [Bind.bind, Except.bind] using he)
  | ok a => exact hf a rfl

end Fails

theorem mapM_eq_map {f : α → Except ε β} {g : α → β} (hf : ∀ {a b}, f a = .ok b → b = g a) {ys : List β}
    (h : xs.mapM f = .ok ys) : ys = xs.map g := by
  induction xs generalizing ys with
  | nil =>
      rw [List.mapM_nil, pure_eq_ok] at h
      exact h.symm
  | cons x xs ih =>
      simp only [List.mapM_cons, bind_eq_ok, pure_eq_ok] at h
      obtain ⟨y, hy, rest, hrest, rfl⟩ := h
      rw [List.map_cons, hf hy, ih hrest]

theorem foldlM_rel {R : σ → σ → Prop} (hrefl : ∀ s, R s s) (htrans : ∀ s t u, R s t → R t u → R s u) (xs : List α)
    (hf : ∀ x ∈ xs, ∀ s t, f s x = .ok t → R s t) {s t : σ} (h : xs.foldlM f s = .ok t) : R s t := by
  induction xs generalizing s with
  | nil =>
      simp only [List.foldlM_nil, pure_eq_ok] at h
      exact h ▸ hrefl s
  | cons x xs ih =>
      simp only [List.foldlM_cons, bind_eq_ok] at h
      obtain ⟨u, hu, ht⟩ := h
      exact htrans _ _ _ (hf x (by simp) s u hu) (ih (fun y hy => hf y (by simp [hy])) ht)

theorem foldlM_invariant {P : σ → Prop} {s t : σ} (h : xs.foldlM f s = .ok t)
    (hf : ∀ x ∈ xs, ∀ s t, f s x = .ok t → P s → P t) (hs : P s) : P t :=
  foldlM_rel (R := fun s t => P s → P t) (fun _ => id) (fun _ _ _ hst htu => htu ∘ hst) xs hf h hs

theorem foldlM_keeps {τ : Type} {g : σ → τ} {s t : σ} (h : xs.foldlM f s = .ok t)
    (hf : ∀ {s t x}, f s x = .ok t → g t = g s) : g t = g s :=
  foldlM_rel (R := fun s t => g t = g s) (fun _ => rfl) (fun _ _ _ hst htu => htu.trans hst) xs
    (fun _ _ _ _ hx => hf hx) h

theorem foldlM_appends {ρ : Type} {g : σ → List ρ} {Holds : ρ → α → Prop} {s t : σ} (h : xs.foldlM f s = .ok t)
    (hf : ∀ {s t x}, f s x = .ok t → ∃ row, g t = g s ++ [row] ∧ Holds row x) :
    ∃ new, g t = g s ++ new ∧ List.Forall₂ Holds new xs := by
  induction xs generalizing s with
  | nil =>
      simp only [List.foldlM_nil, pure_eq_ok] at h
      exact ⟨[], by simp [h], .nil⟩
  | cons x xs ih =>
      simp only [List.foldlM_cons, bind_eq_ok] at h
      obtain ⟨u, hu, ht⟩ := h
      obtain ⟨row, hrow, hholds⟩ := hf hu
      obtain ⟨new, hnew, hall⟩ := ih ht
      exact ⟨row :: new, by simp [hnew, hrow], .cons hholds hall⟩

def transact (act : σ → Except ε (σ × α)) (s : σ) : σ × Except ε α :=
  match act s with
  | .ok (t, a) => (t, .ok a)
  | .error e => (s, .error e)

theorem transact_eq_ok {act : σ → Except ε (σ × α)} {s t : σ} : transact act s = (t, .ok a) ↔ act s = .ok (t, a) := by
  unfold transact
  cases act s with
  | error e => simp
  | ok r => simp [Prod.ext_iff]

theorem transact_eq_error {act : σ → Except ε (σ × α)} {s t : σ} (h : transact act s = (t, .error e)) : t = s := by
  cases hact : act s with
  | error e' =>
      rw [transact, hact] at h
      exact (congrArg Prod.fst h).symm
  | ok r =>
      rw [transact, hact] at h
      cases congrArg Prod.snd h

end OcppBridge.Transaction
