import Mathlib.Algebra.Order.Field.Rat
import Mathlib.Data.Rat.Lemmas
import Mathlib.Tactic.FieldSimp
import Mathlib.Tactic.NormNum
import OcppBridge.Text

namespace OcppBridge.Decimal

variable {c c' : Int} {s s' : Nat}

section Values

/-- The number with this coefficient in units of `10 ^ -s`. -/
def value (c : Int) (s : Nat) : ℚ := c / 10 ^ s

def Normal (c : Int) (s : Nat) : Prop := 0 < s → ¬(10 : Int) ∣ c

theorem value_eq_iff : value c s = value c' s' ↔ c * 10 ^ s' = c' * 10 ^ s := by
  unfold value
  rw [div_eq_div_iff (by positivity) (by positivity)]
  exact_mod_cast Iff.rfl

theorem value_add (c : Int) (s n : Nat) : value (c * 10 ^ n) (s + n) = value c s := by
  rw [value_eq_iff, pow_add]
  ring

theorem value_eq_zero : value c s = 0 ↔ c = 0 := by
  unfold value
  rw [div_eq_zero_iff]
  have hpow : (10 : ℚ) ^ s ≠ 0 := by positivity
  simp [hpow]

theorem Normal.le (h : Normal c s) (heq : value c s = value c' s') : s ≤ s' := by
  by_contra hlt
  obtain ⟨n, rfl⟩ : ∃ n, s = s' + (n + 1) := ⟨s - s' - 1, by omega⟩
  refine h (by omega) ⟨c' * 10 ^ n, ?_⟩
  rw [← value_add c' s' (n + 1), value_eq_iff] at heq
  have hpow : (10 : Int) ^ (s' + (n + 1)) ≠ 0 := by positivity
  have hc := mul_right_cancel₀ hpow heq
  rw [hc, pow_succ]
  ring

theorem Normal.unique (h : Normal c s) (h' : Normal c' s') (heq : value c s = value c' s') : c = c' ∧ s = s' := by
  have hscale : s = s' := le_antisymm (h.le heq) (h'.le heq.symm)
  subst hscale
  have hpow : (10 : Int) ^ s ≠ 0 := by positivity
  exact ⟨mul_right_cancel₀ hpow (value_eq_iff.mp heq), rfl⟩

def strip : Int → Nat → Int × Nat
  | c, 0 => (c, 0)
  | c, s + 1 => if c.tmod 10 = 0 then strip (c.tdiv 10) s else (c, s + 1)

theorem value_strip (c : Int) (s : Nat) : value (strip c s).1 (strip c s).2 = value c s := by
  induction s generalizing c with
  | zero => rfl
  | succ s ih =>
      by_cases hc : c.tmod 10 = 0
      · have hmul : c.tdiv 10 * 10 = c := Int.tdiv_mul_cancel (Int.dvd_of_tmod_eq_zero hc)
        rw [strip, if_pos hc, ih, ← value_add _ s 1, pow_one, hmul]
      · rw [strip, if_neg hc]

theorem normal_strip (c : Int) (s : Nat) : Normal (strip c s).1 (strip c s).2 := by
  induction s generalizing c with
  | zero => exact fun h => absurd h (lt_irrefl 0)
  | succ s ih =>
      by_cases hc : c.tmod 10 = 0
      · rw [strip, if_pos hc]
        exact ih _
      · rw [strip, if_neg hc]
        exact fun _ hdvd => hc (Int.tmod_eq_zero_of_dvd hdvd)

theorem strip_bounds {low high : Int} (hlow : low ≤ 0) (hhigh : 0 < high) (hl : low ≤ c) (hh : c < high) (s : Nat) :
    low ≤ (strip c s).1 ∧ (strip c s).1 < high ∧ (strip c s).2 ≤ s := by
  induction s generalizing c with
  | zero => exact ⟨hl, hh, le_rfl⟩
  | succ s ih =>
      by_cases hc : c.tmod 10 = 0
      · have hmul : c.tdiv 10 * 10 = c := Int.tdiv_mul_cancel (Int.dvd_of_tmod_eq_zero hc)
        obtain ⟨hl', hh', hs⟩ := ih (c := c.tdiv 10) (by omega) (by omega)
        rw [strip, if_pos hc]
        exact ⟨hl', hh', hs.trans (Nat.le_succ s)⟩
      · rw [strip, if_neg hc]
        exact ⟨hl, hh, le_rfl⟩

end Values

section Numerals

def whole (cs : List Char) : Nat := Nat.ofDigitChars 10 cs 0

theorem whole_append (a b : List Char) : whole (a ++ b) = whole a * 10 ^ b.length + whole b := by
  unfold whole
  rw [Nat.ofDigitChars_append, Nat.ofDigitChars_eq_ofDigitChars_zero, Nat.mul_comm]

theorem whole_toDigits (n : Nat) : whole (Nat.toDigits 10 n) = n := Nat.ofDigitChars_ten_toDigits

theorem whole_zeros (n : Nat) : whole (List.replicate n '0') = 0 := by
  unfold whole
  rw [Nat.ofDigitChars_replicate_zero, Nat.mul_zero]

inductive Sign
  | bare
  | plus
  | minus
  deriving DecidableEq, Repr

def Sign.text : Sign → List Char
  | .bare => []
  | .plus => ['+']
  | .minus => ['-']

def Digits (cs : List Char) : Prop := cs ≠ [] ∧ ∀ c ∈ cs, c.isDigit = true

structure Numeral where
  sign : Sign
  integer : List Char
  fraction : Option (List Char)
  integer_digits : Digits integer
  fraction_digits : ∀ cs ∈ fraction, Digits cs

namespace Numeral

variable (n : Numeral)

def text : List Char :=
  n.sign.text ++ n.integer ++ match n.fraction with
    | none => []
    | some cs => '.' :: cs

def scale : Nat := (n.fraction.getD []).length

def signed : Int :=
  let magnitude : Int := whole (n.integer ++ n.fraction.getD [])
  if n.sign = .minus then -magnitude else magnitude

def number : ℚ :=
  let magnitude : ℚ := whole n.integer + whole (n.fraction.getD []) / 10 ^ n.scale
  if n.sign = .minus then -magnitude else magnitude

theorem number_eq : n.number = value n.signed n.scale := by
  have hmagnitude : (whole n.integer + whole (n.fraction.getD []) / 10 ^ n.scale : ℚ) =
      value (whole (n.integer ++ n.fraction.getD [])) n.scale := by
    unfold value
    rw [whole_append]
    have hpow : (10 : ℚ) ^ n.scale ≠ 0 := by positivity
    push_cast
    rw [scale] at hpow ⊢
    field_simp
  simp only [number, signed, hmagnitude]
  split_ifs
  · simp [value, neg_div]
  · rfl

end Numeral

end Numerals

end OcppBridge.Decimal
