import Mathlib.Data.List.Basic
import Mathlib.Data.List.Lex
import Mathlib.Algebra.Order.Group.Nat
import Mathlib.Data.Nat.Find

namespace OcppBridge.Numeral

/-! Decimal fields of fixed width, whose text order is their numerical order. -/

section Lists

variable {α : Type} [LT α] {a b x y : List α}

theorem append_lt_append_iff (hlen : a.length = b.length) : a ++ x < b ++ y ↔ a < b ∨ a = b ∧ x < y := by
  induction a generalizing b with
  | nil =>
      obtain rfl := List.length_eq_zero_iff.mp hlen.symm
      simp
  | cons c a ih =>
      cases b with
      | nil => cases hlen
      | cons d b =>
          have hrest := ih (b := b) (by simpa using hlen)
          simp only [List.cons_append, List.cons_lt_cons_iff, hrest, List.cons.injEq]
          tauto

theorem differ_lt_iff [Std.Irrefl fun p q : α => p < q] {c : List α} {p q : α} (hpq : p ≠ q) :
    c ++ p :: x < c ++ q :: y ↔ p < q := by
  rw [append_lt_append_iff rfl, List.cons_lt_cons_iff]
  simp only [hpq, false_and, or_false, true_and, or_iff_right_iff_imp]
  exact fun h => absurd h (List.lt_irrefl c)

theorem not_lt_replicate {p : α} (h : ∀ q ∈ a, ¬q < p) : ¬a < List.replicate a.length p := by
  induction a with
  | nil => exact List.not_lt_nil _
  | cons q a ih =>
      rw [List.length_cons, List.replicate_succ, List.cons_lt_cons_iff]
      rintro (hlt | ⟨_, hlt⟩)
      · exact h q List.mem_cons_self hlt
      · exact ih (fun q hq => h q (List.mem_cons_of_mem _ hq)) hlt

omit [LT α] in
theorem exists_difference [DecidableEq α] (hab : ¬a <+: b) (hba : ¬b <+: a) :
    ∃ c p q r s, p ≠ q ∧ a = c ++ p :: r ∧ b = c ++ q :: s := by
  induction a generalizing b with
  | nil => exact absurd (List.nil_prefix) hab
  | cons p a ih =>
      cases b with
      | nil => exact absurd (List.nil_prefix) hba
      | cons q b =>
          by_cases hpq : p = q
          · subst hpq
            rw [List.cons_prefix_cons] at hab hba
            obtain ⟨c, p', q', r, s, hne, ha, hb⟩ := ih (fun h => hab ⟨rfl, h⟩) (fun h => hba ⟨rfl, h⟩)
            exact ⟨p :: c, p', q', r, s, hne, by rw [ha]; rfl, by rw [hb]; rfl⟩
          · exact ⟨[], p, q, a, b, hpq, rfl, rfl⟩

end Lists

section Digits

theorem digitChar_lt {m n : Nat} (hm : m < 10) (hn : n < 10) : m.digitChar < n.digitChar ↔ m < n := by
  have hall : ∀ m < 10, ∀ n < 10, (m.digitChar < n.digitChar ↔ m < n) := by decide
  exact hall m hm n hn

theorem digitChar_inj {m n : Nat} (hm : m < 10) (hn : n < 10) (h : m.digitChar = n.digitChar) : m = n := by
  have hlt := digitChar_lt hm hn
  have hgt := digitChar_lt hn hm
  have hchar : ¬n.digitChar < n.digitChar := Char.lt_irrefl _
  rw [h] at hlt hgt
  have hle := mt hlt.mpr hchar
  have hge := mt hgt.mpr hchar
  omega

/-- The last `width` decimal digits of a number. -/
def padded : Nat → Nat → List Char
  | 0, _ => []
  | width + 1, n => (n / 10 ^ width).digitChar :: padded width (n % 10 ^ width)

@[simp] theorem length_padded (width n : Nat) : (padded width n).length = width := by
  induction width generalizing n with
  | zero => rfl
  | succ width ih => simp [padded, ih]

variable {width : Nat}

theorem digit_of_mem_padded {n : Nat} (hn : n < 10 ^ width) {c : Char} (h : c ∈ padded width n) :
    ¬c < '0' ∧ c < ':' := by
  have hdigit : ∀ d < 10, ¬d.digitChar < '0' ∧ d.digitChar < ':' := by decide
  induction width generalizing n with
  | zero => cases h
  | succ width ih =>
      rcases List.mem_cons.mp h with rfl | h
      · exact hdigit _ (Nat.div_lt_of_lt_mul (by rwa [← pow_succ]))
      · exact ih (Nat.mod_lt n (Nat.pow_pos (by decide))) h

theorem padded_lt_iff {m n : Nat} (hm : m < 10 ^ width) (hn : n < 10 ^ width) :
    padded width m < padded width n ↔ m < n := by
  induction width generalizing m n with
  | zero =>
      have hnil : ¬([] : List Char) < [] := List.not_lt_nil _
      simp only [padded, hnil, false_iff]
      omega
  | succ width ih =>
      have hpos : 0 < 10 ^ width := Nat.pow_pos (by decide)
      have hrest := ih (Nat.mod_lt m hpos) (Nat.mod_lt n hpos)
      have hdm : m / 10 ^ width < 10 := Nat.div_lt_of_lt_mul (by rwa [← pow_succ])
      have hdn : n / 10 ^ width < 10 := Nat.div_lt_of_lt_mul (by rwa [← pow_succ])
      simp only [padded, List.cons_lt_cons_iff, hrest, digitChar_lt hdm hdn]
      have hm' := Nat.div_add_mod m (10 ^ width)
      have hn' := Nat.div_add_mod n (10 ^ width)
      constructor
      · rintro (hlt | ⟨heq, hlt⟩)
        · have hmul : 10 ^ width * (m / 10 ^ width + 1) ≤ 10 ^ width * (n / 10 ^ width) := Nat.mul_le_mul_left _ hlt
          have hmod := Nat.mod_lt m hpos
          rw [Nat.mul_add] at hmul
          omega
        · rw [digitChar_inj hdm hdn heq] at hm'
          omega
      · intro hlt
        rcases Nat.lt_trichotomy (m / 10 ^ width) (n / 10 ^ width) with h | h | h
        · exact .inl h
        · refine .inr ⟨by rw [h], ?_⟩
          rw [h] at hm'
          omega
        · have hle : m / 10 ^ width ≤ n / 10 ^ width := Nat.div_le_div_right hlt.le
          omega

theorem padded_inj {m n : Nat} (hm : m < 10 ^ width) (hn : n < 10 ^ width) (h : padded width m = padded width n) :
    m = n := by
  have hlt := padded_lt_iff hm hn
  have hgt := padded_lt_iff hn hm
  have htext : ¬padded width n < padded width n := List.lt_irrefl _
  rw [h] at hlt hgt
  have hle := mt hlt.mpr htext
  have hge := mt hgt.mpr htext
  omega

theorem field_lt_iff {m n : Nat} {x y : List Char} (hm : m < 10 ^ width) (hn : n < 10 ^ width) (mark : Char) :
    padded width m ++ mark :: x < padded width n ++ mark :: y ↔ m < n ∨ m = n ∧ x < y := by
  rw [append_lt_append_iff (by simp), padded_lt_iff hm hn, List.cons_lt_cons_iff]
  constructor
  · rintro (h | ⟨h, hlt | ⟨_, hlt⟩⟩)
    · exact .inl h
    · exact absurd hlt (Char.lt_irrefl mark)
    · exact .inr ⟨padded_inj hm hn h, hlt⟩
  · rintro (h | ⟨rfl, hlt⟩)
    · exact .inl h
    · exact .inr ⟨rfl, .inr ⟨rfl, hlt⟩⟩

end Digits

section Tables

variable {start : Nat → Nat} {m n bound : Nat}

/-- The last entry of a table that starts at or before `n`. -/
def entry (start : Nat → Nat) (bound n : Nat) : Nat := Nat.findGreatest (fun i => start i ≤ n) bound

theorem entry_le : entry start bound n ≤ bound := Nat.findGreatest_le bound

theorem start_entry (hfirst : start 0 ≤ n) : start (entry start bound n) ≤ n :=
  Nat.findGreatest_spec (P := fun i => start i ≤ n) (Nat.zero_le bound) hfirst

theorem lt_start_succ (hlt : entry start bound n < bound) : n < start (entry start bound n + 1) :=
  Nat.lt_of_not_le (Nat.findGreatest_is_greatest (P := fun i => start i ≤ n) (Nat.lt_succ_self _) hlt)

theorem entry_mono (h : m ≤ n) : entry start bound m ≤ entry start bound n :=
  Nat.findGreatest_mono_left (fun _ hi => le_trans hi h) bound

theorem entry_lt_or (hfirst : start 0 ≤ m) (h : m < n) :
    entry start bound m < entry start bound n ∨
      entry start bound m = entry start bound n ∧
        m - start (entry start bound m) < n - start (entry start bound n) := by
  have hle : entry start bound m ≤ entry start bound n := entry_mono h.le
  rcases hle.lt_or_eq with hlt | heq
  · exact .inl hlt
  · refine .inr ⟨heq, ?_⟩
    have hm : start (entry start bound m) ≤ m := start_entry hfirst
    rw [← heq]
    omega

end Tables

end OcppBridge.Numeral
