import OcppBridge.Keyed

namespace OcppBridge

/-- A finite table whose rows are identified by `key`. -/
structure Table {ρ κ : Type} (key : ρ → κ) where
  rows : List ρ
  nodup : (rows.map key).Nodup

namespace Table

variable {ρ κ : Type} {key : ρ → κ} {t : Table key} {r : ρ} {k : κ} {x : ρ}

instance : Membership ρ (Table key) := ⟨fun t r => r ∈ t.rows⟩

theorem mem_def : r ∈ t ↔ r ∈ t.rows := Iff.rfl

def empty : Table key := ⟨[], List.nodup_nil⟩

@[simp] theorem not_mem_empty : r ∉ (empty : Table key) := List.not_mem_nil

theorem eq_of_key {y : ρ} (hx : x ∈ t) (hy : y ∈ t) (h : key x = key y) : x = y :=
  Keyed.eq_of_key t.nodup hx hy h

/-- Deletion of the rows that do not satisfy `p`. -/
def keep (t : Table key) (p : ρ → Bool) : Table key := ⟨t.rows.filter p, Keyed.nodup_delete t.nodup p⟩

@[simp] theorem mem_keep {p : ρ → Bool} : r ∈ t.keep p ↔ r ∈ t ∧ p r := List.mem_filter

def update (t : Table key) (f : ρ → ρ) (hf : ∀ r, key (f r) = key r) : Table key :=
  ⟨t.rows.map f, by rw [Keyed.map_key_update f hf]; exact t.nodup⟩

@[simp] theorem mem_update {f : ρ → ρ} {hf : ∀ r, key (f r) = key r} :
    r ∈ t.update f hf ↔ ∃ x ∈ t, f x = r := List.mem_map

variable [DecidableEq κ]

def find? (t : Table key) (k : κ) : Option ρ := t.rows.find? fun r => key r = k

theorem find?_eq_some : t.find? k = some r ↔ r ∈ t ∧ key r = k := by
  constructor
  · intro h
    exact ⟨List.mem_of_find?_eq_some h, by simpa using List.find?_some h⟩
  · rintro ⟨hr, rfl⟩
    exact Keyed.find_eq_some t.nodup hr

theorem find?_eq_none : t.find? k = none ↔ ∀ r ∈ t, key r ≠ k := by
  simp [find?, List.find?_eq_none, mem_def]

@[simp] theorem find?_empty : (empty : Table key).find? k = none := rfl

/-- Overwrite the row that has the key of `r`, if there is one. -/
def replace (t : Table key) (r : ρ) : Table key :=
  t.update (fun x => if key x = key r then r else x) fun x => by
    split_ifs with h
    · exact h.symm
    · rfl

theorem mem_replace : x ∈ t.replace r ↔ (x ∈ t ∧ key x ≠ key r) ∨ (x = r ∧ ∃ y ∈ t, key y = key r) := by
  simp only [replace, mem_update]
  constructor
  · rintro ⟨y, hy, rfl⟩
    by_cases h : key y = key r
    · exact .inr ⟨by simp [h], y, hy, h⟩
    · exact .inl (by simpa [h] using hy)
  · rintro (⟨hx, hk⟩ | ⟨rfl, y, hy, hk⟩)
    · exact ⟨x, hx, by simp [hk]⟩
    · exact ⟨y, hy, by simp [hk]⟩

/-- Overwrite the row that has the key of `r`, or append `r`. -/
def put (t : Table key) (r : ρ) : Table key :=
  if h : ∃ x ∈ t.rows, key x = key r then t.replace r
  else ⟨t.rows ++ [r], Keyed.nodup_append_singleton t.nodup fun x hx he => h ⟨x, hx, he⟩⟩

theorem mem_put : x ∈ t.put r ↔ (x ∈ t ∧ key x ≠ key r) ∨ x = r := by
  unfold put
  split_ifs with h
  · rw [mem_replace]
    have hex : (∃ y ∈ t, key y = key r) := h
    simp [hex]
  · simp only [mem_def, List.mem_append, List.mem_singleton]
    have hne : x ∈ t.rows → key x ≠ key r := fun hx he => h ⟨x, hx, he⟩
    tauto

theorem rows_put (h : t.find? (key r) = none) : (t.put r).rows = t.rows ++ [r] := by
  unfold put
  split_ifs with hex
  · obtain ⟨x, hx, hk⟩ := hex
    exact absurd hk (find?_eq_none.mp h x hx)
  · rfl

@[simp] theorem find?_put : (t.put r).find? k = if k = key r then some r else t.find? k := by
  apply Option.ext
  intro x
  rw [find?_eq_some, mem_put]
  split_ifs with hk
  · subst hk
    simp only [Option.some.injEq]
    constructor
    · rintro ⟨(⟨_, hne⟩ | rfl), he⟩
      · exact absurd he hne
      · rfl
    · rintro rfl
      exact ⟨.inr rfl, rfl⟩
  · rw [find?_eq_some]
    constructor
    · rintro ⟨(⟨hx, _⟩ | rfl), he⟩
      · exact ⟨hx, he⟩
      · exact absurd he.symm hk
    · rintro ⟨hx, he⟩
      exact ⟨.inl ⟨hx, fun h => hk (he ▸ h)⟩, he⟩

end Table

end OcppBridge
