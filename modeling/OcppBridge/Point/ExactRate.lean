import Mathlib.Data.List.Induction
import Mathlib.Data.List.TakeWhile
import OcppBridge.Point.ExactDecimal

namespace OcppBridge.Point

open Decimal I128 ExactDecimal

/-! Lossless native rates: the number is read off its JSON text. -/

def checkedI64 (n : Int) : Option Int := if -2 ^ 63 ≤ n ∧ n < 2 ^ 63 then some n else none

def U32.tryFrom (n : Int) : Option U32 := if 0 ≤ n then U32.checked n.toNat else none

/-- Split at the first character that satisfies `p`. -/
def splitOnce (p : Char → Bool) (cs : List Char) : Option (List Char × List Char) :=
  match cs.dropWhile fun c => !p c with
  | _ :: rest => some (cs.takeWhile fun c => !p c, rest)
  | [] => none

def isExponentMark (c : Char) : Bool := c = 'e' || c = 'E'

def pushDigit (coefficient : I128) (digit : Char) : Option I128 := do
  let shifted ← checked (coefficient.val * 10)
  checked (shifted.val + (digit.toNat - '0'.toNat : Nat))

def splitExponent (unsigned : List Char) : Option (List Char × Int) :=
  match splitOnce isExponentMark unsigned with
  | some (significand, exponent) => (Text.parseSigned exponent).map fun exponent => (significand, exponent)
  | none => some (unsigned, 0)

def raised (coefficient : I128) (scale : Int) : Option I128 :=
  if scale < 0 then do
    let power ← U32.tryFrom (← checkedI64 (-scale))
    let factor ← checked (10 ^ power.val)
    checked (coefficient.val * factor.val)
  else some coefficient

def scaledRate (coefficient : I128) (fraction trailing : Nat) (exponent : Int) : Option ExactDecimal := do
  let scale ← checkedI64 ((← checkedI64 fraction) - (← checkedI64 trailing))
  let scale ← checkedI64 (scale - exponent)
  if 1 < scale then none
  else do
    let coefficient ← raised coefficient scale
    if 2 ^ 96 - 1 < coefficient.val then none
    else do
      let scale ← U32.tryFrom (max scale 0)
      some (.new coefficient scale)

def zero : ExactDecimal := .new ⟨0, zero_bounds⟩ ⟨0, U32.zero_bound⟩

def exactRate (lexeme : List Char) : Option ExactDecimal := do
  let unsigned := if lexeme.head? = some '-' then lexeme.tail else lexeme
  let (significand, exponent) ← splitExponent unsigned
  let fraction := match splitOnce (· = '.') significand with
    | some (_, fraction) => fraction.length
    | none => 0
  let trailing := ((significand.reverse.filter (· ≠ '.')).takeWhile (· = '0')).length
  let digits := significand.filter (· ≠ '.')
  let digitCount := significand.length - (if '.' ∈ significand then 1 else 0)
  let coefficient ← (digits.take (digitCount - trailing)).foldlM pushDigit ⟨0, zero_bounds⟩
  if coefficient.val = 0 then some zero
  else if lexeme.head? = some '-' then none
  else scaledRate coefficient fraction trailing exponent

def isNumber (cs : List Char) : Bool :=
  let unsigned := if cs.head? = some '-' then cs.tail else cs
  let integer := unsigned.takeWhile Char.isDigit
  let rest := unsigned.dropWhile Char.isDigit
  let (fraction, rest) := match rest with
    | '.' :: rest => (some (rest.takeWhile Char.isDigit), rest.dropWhile Char.isDigit)
    | rest => (none, rest)
  integer ≠ [] && (integer.head? ≠ some '0' || integer = ['0']) && fraction.all (· ≠ []) &&
    match rest with
    | [] => true
    | mark :: exponent =>
        let digits := if exponent.head? = some '+' ∨ exponent.head? = some '-' then exponent.tail else exponent
        isExponentMark mark && digits ≠ [] && digits.all Char.isDigit

/-- The number handed to the native decoder: the original one, or a rewritten one. -/
inductive DecoderRate
  | borrowed
  | owned (lexeme : List Char)
  deriving DecidableEq, Repr

def decoderRate (lexeme : List Char) : Option DecoderRate :=
  let scientific := lexeme.any isExponentMark
  let largeInteger := (Text.parseUnsigned (2 ^ 128) lexeme).any fun integer => 2 ^ 64 - 1 < integer
  if scientific = false ∧ largeInteger = false then some .borrowed
  else do
    let rate ← exactRate lexeme
    let text := rate.display.toList
    let text := if rate.scale.val = 0 ∧ 2 ^ 64 - 1 < rate.coefficient.val then text ++ ['.', '0'] else text
    if isNumber text then some (.owned text) else none

section Coefficients

variable {q : I128} {fraction trailing : Nat} {exponent : Int} {d : ExactDecimal}

theorem checkedI64_eq_some {n m : Int} : checkedI64 n = some m ↔ (-2 ^ 63 ≤ n ∧ n < 2 ^ 63) ∧ n = m := by
  unfold checkedI64
  split_ifs with h
  · rw [Option.some.injEq]
    exact ⟨fun heq => ⟨h, heq⟩, And.right⟩
  · exact iff_of_false (by simp) fun h' => h h'.1

theorem tryFrom_eq_some {n : Int} {x : U32} : U32.tryFrom n = some x ↔ n = x.val := by
  unfold U32.tryFrom U32.checked
  split_ifs with hpos hlt
  · rw [Option.some.injEq, Subtype.ext_iff]
    change n.toNat = x.val ↔ _
    omega
  · refine iff_of_false (by simp) fun h => hlt ?_
    have hx := x.2
    omega
  · refine iff_of_false (by simp) fun h => hpos ?_
    omega

theorem raised_eq_some {scale : Int} {c : I128} (h : raised q scale = some c) :
    c.val = q.val * 10 ^ (-scale).toNat := by
  unfold raised at h
  split_ifs at h with hneg
  · simp only [Option.bind_eq_bind, Option.bind_eq_some_iff] at h
    obtain ⟨m, hm, power, hpower, factor, hfactor, hc⟩ := h
    obtain ⟨-, rfl⟩ := checkedI64_eq_some.mp hm
    rw [tryFrom_eq_some] at hpower
    rw [checked_eq_some] at hfactor hc
    rw [hc, hfactor, hpower, Int.toNat_natCast]
  · cases h
    rw [Int.toNat_of_nonpos (by omega), pow_zero, mul_one]

theorem power_lt {k : Nat} (h : (10 : Int) ^ k < 2 ^ 96) : k < 29 := by
  by_contra hk
  have hle : (10 : Int) ^ 29 ≤ 10 ^ k := pow_le_pow_right₀ (by decide) (by omega)
  exact absurd (lt_of_le_of_lt hle h) (by decide)

theorem raised_of_lt {scale : Int} (hq : 0 < q.val) (h : q.val * 10 ^ (-scale).toNat < 2 ^ 96) :
    ∃ c, raised q scale = some c ∧ c.val = q.val * 10 ^ (-scale).toNat := by
  have hpow : (10 : Int) ^ (-scale).toNat ≤ q.val * 10 ^ (-scale).toNat := le_mul_of_one_le_left (by positivity) hq
  have hsmall := power_lt (lt_of_le_of_lt hpow h)
  have hpos : (0 : Int) < 10 ^ (-scale).toNat := by positivity
  obtain ⟨power, hpower⟩ : ∃ power : U32, (-scale).toNat = power.val := ⟨⟨(-scale).toNat, by omega⟩, rfl⟩
  rw [hpower] at h hpow hpos ⊢
  obtain ⟨factor, hfactor⟩ : ∃ factor : I128, factor.val = 10 ^ power.val := ⟨⟨_, by omega, by omega⟩, rfl⟩
  obtain ⟨c, hc⟩ : ∃ c : I128, c.val = q.val * 10 ^ power.val := ⟨⟨_, by omega, by omega⟩, rfl⟩
  unfold raised
  split_ifs with hneg
  · have hneg64 : checkedI64 (-scale) = some (-scale) := checkedI64_eq_some.mpr ⟨by omega, rfl⟩
    have hu32 : U32.tryFrom (-scale) = some power := tryFrom_eq_some.mpr (by omega)
    rw [← hfactor] at hc ⊢
    refine ⟨c, ?_, hc⟩
    rw [hneg64, Option.bind_eq_bind, Option.bind_some, hu32, Option.bind_eq_bind, Option.bind_some,
      checked_eq_some.mpr hfactor, Option.bind_eq_bind, Option.bind_some, checked_eq_some.mpr hc]
  · refine ⟨q, rfl, ?_⟩
    rw [← hpower, Int.toNat_of_nonpos (by omega), pow_zero, mul_one]

theorem value_max (c : Int) (scale : Int) :
    Decimal.value (c * 10 ^ (-scale).toNat) (max scale 0).toNat = c * 10 ^ (-scale) := by
  rcases le_or_gt 0 scale with hpos | hneg
  · obtain ⟨n, rfl⟩ := Int.eq_ofNat_of_zero_le hpos
    rw [Int.toNat_of_nonpos (by omega), max_eq_left hpos, Int.toNat_natCast, zpow_neg, zpow_natCast, pow_zero, mul_one]
    rfl
  · obtain ⟨n, rfl⟩ : ∃ n : Nat, scale = -n := ⟨(-scale).toNat, by omega⟩
    rw [max_eq_right hneg.le, neg_neg, Int.toNat_natCast, zpow_natCast]
    simp [Decimal.value]

theorem normal_raised {q : Int} (hq : ¬(10 : Int) ∣ q) (scale : Int) :
    Normal (q * 10 ^ (-scale).toNat) (max scale 0).toNat := by
  intro hpos
  rw [Int.toNat_of_nonpos (by omega), pow_zero, mul_one]
  exact hq

theorem scaledRate_eq_some_iff (hpos : 0 < q.val) (hq : ¬(10 : Int) ∣ q.val) (hfraction : fraction < 2 ^ 63)
    (htrailing : trailing < 2 ^ 63) :
    scaledRate q fraction trailing exponent = some d ↔ (fraction : Int) - trailing - exponent ≤ 1 ∧
      d.value = q.val * 10 ^ (-((fraction : Int) - trailing - exponent)) ∧ d.coefficient.val < 2 ^ 96 := by
  have hfirst : checkedI64 fraction = some (fraction : Int) := checkedI64_eq_some.mpr ⟨by omega, rfl⟩
  have hsecond : checkedI64 trailing = some (trailing : Int) := checkedI64_eq_some.mpr ⟨by omega, rfl⟩
  have hthird : checkedI64 ((fraction : Int) - trailing) = some ((fraction : Int) - trailing) :=
    checkedI64_eq_some.mpr ⟨by omega, rfl⟩
  unfold scaledRate
  simp only [Option.bind_eq_bind, hfirst, hsecond, hthird, Option.bind_some]
  generalize (fraction : Int) - trailing - exponent = scale
  constructor
  · intro h
    simp only [Option.bind_eq_some_iff] at h
    obtain ⟨_, hscale, h⟩ := h
    obtain ⟨-, rfl⟩ := checkedI64_eq_some.mp hscale
    split_ifs at h with hlarge
    simp only [Option.bind_eq_some_iff] at h
    obtain ⟨c, hraised, h⟩ := h
    have hc := raised_eq_some hraised
    split_ifs at h with hbig
    simp only [Option.bind_eq_some_iff, tryFrom_eq_some] at h
    obtain ⟨s, hs, h⟩ := h
    cases h
    have hvalue : (new c s).value = q.val * 10 ^ (-scale) := by
      rw [value_new, hc, ← value_max, hs, Int.toNat_natCast]
    refine ⟨by omega, hvalue, ?_⟩
    have hnormal := normal_raised hq scale
    obtain ⟨hcoefficient, -⟩ := (new c s).normal.unique hnormal (hvalue.trans (value_max _ _).symm)
    rw [hcoefficient, ← hc]
    omega
  · rintro ⟨hscale, hvalue, hbig⟩
    have hnormal := normal_raised hq scale
    obtain ⟨hcoefficient, hs⟩ := d.normal.unique hnormal (hvalue.trans (value_max _ _).symm)
    rw [hcoefficient] at hbig
    obtain ⟨c, hraised, hc⟩ := raised_of_lt hpos hbig
    have hlow : checkedI64 scale = some scale := by
      have hpow : (10 : Int) ^ (-scale).toNat ≤ q.val * 10 ^ (-scale).toNat :=
        le_mul_of_one_le_left (by positivity) hpos
      have hsmall := power_lt (lt_of_le_of_lt hpow hbig)
      exact checkedI64_eq_some.mpr ⟨by omega, rfl⟩
    have hu32 : U32.tryFrom (max scale 0) = some d.scale := tryFrom_eq_some.mpr (by omega)
    rw [hlow, Option.bind_some, if_neg (not_lt.mpr hscale), hraised, Option.bind_some, if_neg (by omega), hu32,
      Option.bind_some]
    refine congrArg some ?_
    rw [value_inj, value_new, hvalue, hc, ← value_max, hs]

theorem tenths_iff {q : Int} (hq : ¬(10 : Int) ∣ q) (scale : Int) :
    (∃ k : Int, (q : ℚ) * 10 ^ (-scale) = k / 10) ↔ scale ≤ 1 := by
  constructor
  · rintro ⟨k, hk⟩
    by_contra hlarge
    obtain ⟨n, rfl⟩ : ∃ n : Nat, scale = n + 2 := ⟨(scale - 2).toNat, by omega⟩
    refine hq ⟨k * 10 ^ n, ?_⟩
    have hpow : (10 : ℚ) ^ (-((n : Int) + 2)) = (10 ^ (n + 2))⁻¹ := by
      rw [zpow_neg]
      exact_mod_cast rfl
    rw [hpow, pow_add] at hk
    field_simp at hk
    have hint : q = k * 10 ^ n * 10 := by
      have hcast : (q : ℚ) = k * 10 ^ n * 10 := by linarith
      exact_mod_cast hcast
    rw [hint]
    ring
  · intro h
    obtain ⟨n, hn⟩ : ∃ n : Nat, -scale = n - 1 := ⟨(1 - scale).toNat, by omega⟩
    refine ⟨q * 10 ^ n, ?_⟩
    rw [hn, zpow_sub₀ (by norm_num), zpow_natCast, zpow_one]
    push_cast
    ring

theorem checked_scaledRate_iff {q : Nat} (hpos : 0 < q) (hq : ¬(10 : Int) ∣ q) (hfraction : fraction < 2 ^ 63)
    (htrailing : trailing < 2 ^ 63) :
    ((checked q).bind fun coefficient =>
      if coefficient.val = 0 then some zero else scaledRate coefficient fraction trailing exponent) = some d ↔
    (∃ k : Int, ((q : Int) : ℚ) * 10 ^ (-((fraction : Int) - trailing - exponent)) = k / 10) ∧
      d.value = (q : Int) * 10 ^ (-((fraction : Int) - trailing - exponent)) ∧ d.coefficient.val < 2 ^ 96 := by
  cases hchecked : checked q with
  | some coefficient =>
      have hval := checked_eq_some.mp hchecked
      rw [Option.bind_some, if_neg (by omega), scaledRate_eq_some_iff (by omega) (hval ▸ hq) hfraction htrailing, hval,
        tenths_iff hq]
  | none =>
      rw [checked_eq_none] at hchecked
      refine iff_of_false (by simp) ?_
      rintro ⟨-, hvalue, hsmall⟩
      generalize (fraction : Int) - trailing - exponent = scale at hvalue
      obtain ⟨hcoefficient, -⟩ := d.normal.unique (normal_raised hq scale) (hvalue.trans (value_max _ _).symm)
      have hle : (q : Int) ≤ q * 10 ^ (-scale).toNat := le_mul_of_one_le_right (by omega) (one_le_pow₀ (by decide))
      omega

end Coefficients

section Digits

variable {cs : List Char}

def digitValue (c : Char) : Nat := c.toNat - '0'.toNat

theorem whole_snoc (cs : List Char) (c : Char) : whole (cs ++ [c]) = whole cs * 10 + digitValue c := by
  rw [whole_append, List.length_singleton, pow_one]
  simp [whole, digitValue, Nat.ofDigitChars_cons]

theorem foldlM_pushDigit (cs : List Char) : cs.foldlM pushDigit ⟨0, by decide⟩ = checked (whole cs) := by
  induction cs using List.reverseRecOn with
  | nil => rfl
  | append_singleton cs c ih =>
      rw [List.foldlM_append, ih, whole_snoc]
      have hgrows : ∀ n : Int, 0 ≤ n → checked n = none → checked (n + digitValue c) = none := by
        intro n hn hnone
        rw [checked_eq_none] at hnone ⊢
        omega
      push_cast
      cases hfirst : checked (whole cs) with
      | none =>
          have hshift : checked ((whole cs : Int) * 10) = none := by
            rw [checked_eq_none] at hfirst ⊢
            omega
          rw [hgrows _ (by omega) hshift]
          rfl
      | some coefficient =>
          have hval := checked_eq_some.mp hfirst
          simp only [Option.bind_eq_bind, Option.bind_some, List.foldlM_cons, List.foldlM_nil, Option.pure_def,
            Option.bind_fun_some, pushDigit, hval]
          cases hshift : checked ((whole cs : Int) * 10) with
          | none => rw [hgrows _ (by omega) hshift, Option.bind_none]
          | some shifted =>
              rw [Option.bind_some, checked_eq_some.mp hshift]
              rfl

def zerosOf (cs : List Char) : Nat := (cs.reverse.takeWhile (· = '0')).length

def coreOf (cs : List Char) : List Char := (cs.reverse.dropWhile (· = '0')).reverse

theorem core_append_zeros (cs : List Char) : coreOf cs ++ List.replicate (zerosOf cs) '0' = cs := by
  have hzeros : cs.reverse.takeWhile (· = '0') = List.replicate (zerosOf cs) '0' := by
    refine List.eq_replicate_iff.mpr ⟨rfl, fun c hc => ?_⟩
    simpa using List.mem_takeWhile_imp hc
  have hsplit := List.takeWhile_append_dropWhile (p := fun c => decide (c = '0')) (l := cs.reverse)
  rw [hzeros] at hsplit
  have hrev := congrArg List.reverse hsplit
  rw [List.reverse_append, List.reverse_replicate, List.reverse_reverse] at hrev
  exact hrev

theorem length_core (cs : List Char) : (coreOf cs).length = cs.length - zerosOf cs := by
  have hlen := congrArg List.length (core_append_zeros cs)
  rw [List.length_append, List.length_replicate] at hlen
  omega

theorem take_core (cs : List Char) : cs.take (cs.length - zerosOf cs) = coreOf cs := by
  have htake : (coreOf cs ++ List.replicate (zerosOf cs) '0').take (coreOf cs).length = coreOf cs := List.take_left
  rwa [core_append_zeros, length_core] at htake

theorem whole_core (cs : List Char) : whole cs = whole (coreOf cs) * 10 ^ zerosOf cs := by
  conv_lhs => rw [← core_append_zeros cs]
  rw [whole_append, List.length_replicate, whole_zeros, Nat.add_zero]

theorem core_indivisible (h : ∀ c ∈ cs, c.isDigit = true) : coreOf cs = [] ∨ ¬(10 : Int) ∣ whole (coreOf cs) := by
  cases hdrop : cs.reverse.dropWhile (· = '0') with
  | nil =>
      left
      rw [coreOf, hdrop, List.reverse_nil]
  | cons d ds =>
      right
      have hd : d ≠ '0' := by
        have hnot := List.head?_dropWhile_not (fun c => decide (c = '0')) cs.reverse
        rw [hdrop] at hnot
        simpa using hnot
      have hmem : d ∈ cs := by
        have hsub := (List.dropWhile_sublist (fun c => decide (c = '0')) (l := cs.reverse)).subset
        exact List.mem_reverse.mp (hsub (hdrop ▸ List.mem_cons_self))
      have hdigit := h d hmem
      have hrange : 1 ≤ digitValue d ∧ digitValue d ≤ 9 := by
        simp only [Char.isDigit, Bool.and_eq_true, decide_eq_true_eq] at hdigit
        have hzero : d.toNat ≠ 48 := fun heq => hd (Char.toNat_inj.mp heq)
        have hlow : 48 ≤ d.toNat := hdigit.1
        have hhigh : d.toNat ≤ 57 := hdigit.2
        have hval : digitValue d = d.toNat - 48 := rfl
        omega
      rw [coreOf, hdrop, List.reverse_cons, whole_snoc]
      push_cast
      omega

end Digits

section Lexemes

structure Exponent where
  mark : Char
  sign : Sign
  digits : List Char
  mark_valid : isExponentMark mark = true
  digits_valid : Digits digits

def Exponent.text (e : Exponent) : List Char := e.mark :: (e.sign.text ++ e.digits)

def Exponent.value (e : Exponent) : Int := if e.sign = .minus then -(whole e.digits : Int) else whole e.digits

structure Scientific where
  negative : Bool
  integer : List Char
  fraction : Option (List Char)
  exponent : Option Exponent
  integer_digits : Digits integer
  fraction_digits : ∀ cs ∈ fraction, Digits cs

open Scientific

namespace Scientific

variable (n : Scientific)

def significand : List Char := n.integer ++ pointed n.fraction

def unsigned : List Char := n.significand ++ ((n.exponent.map Exponent.text).getD [])

def text : List Char := (if n.negative then ['-'] else []) ++ n.unsigned

def digits : List Char := n.integer ++ n.fraction.getD []

def power : Int := (n.exponent.map Exponent.value).getD 0

def number : ℚ :=
  (if n.negative then -1 else 1) * (whole n.integer + whole (n.fraction.getD []) / 10 ^ (n.fraction.getD []).length) *
    10 ^ n.power

end Scientific

/-- The text of a JSON number in memory, where no text is longer than the largest signed index. -/
structure Lexeme extends Scientific where
  leading : integer.head? = some '0' → integer = ['0']
  short : toScientific.text.length < 2 ^ 63

variable {c : Char} {cs : List Char}

theorem splitOnce_append {p : Char → Bool} {a b : List Char} (ha : ∀ x ∈ a, p x = false) (hc : p c = true) :
    splitOnce p (a ++ c :: b) = some (a, b) := by
  have hall : ∀ x ∈ a, (!p x) = true := fun x hx => by rw [ha x hx]; rfl
  rw [splitOnce, List.dropWhile_append_of_pos hall, List.takeWhile_append_of_pos hall]
  simp [hc]

theorem splitOnce_none {p : Char → Bool} (h : ∀ x ∈ cs, p x = false) : splitOnce p cs = none := by
  have hnil : cs.dropWhile (fun c => !p c) = [] := List.dropWhile_eq_nil_iff.mpr fun x hx => by rw [h x hx]; rfl
  rw [splitOnce, hnil]

theorem parseSigned_exponent (e : Exponent) (h : -2 ^ 63 ≤ e.value ∧ e.value < 2 ^ 63) :
    Text.parseSigned (e.sign.text ++ e.digits) = some e.value := by
  have hdigits := digits_of_digits e.digits_valid
  unfold Exponent.value at h ⊢
  cases hsign : e.sign with
  | minus =>
      rw [hsign, if_pos rfl] at h
      have hfilter : (some (whole e.digits)).filter (fun m => decide (m ≤ 2 ^ 63)) = some (whole e.digits) := by
        rw [Option.filter_some, if_pos (decide_eq_true (by omega))]
      rw [Sign.text, List.singleton_append, Text.parseSigned, hdigits, hfilter, if_pos rfl]
      rfl
  | plus =>
      rw [hsign, if_neg (by decide)] at h
      have hfilter : (some (whole e.digits)).filter (fun m => decide (m < 2 ^ 63)) = some (whole e.digits) := by
        rw [Option.filter_some, if_pos (decide_eq_true (by omega))]
      rw [Sign.text, List.singleton_append, if_neg (by decide)]
      unfold Text.parseSigned
      split
      · next heq => exact absurd (List.cons.inj heq).1 (by decide)
      · unfold Text.parseUnsigned
        split
        · next heq =>
            rw [← (List.cons.inj heq).2, hdigits, hfilter]
            rfl
        · next hne => exact absurd rfl (hne e.digits)
  | bare =>
      rw [hsign, if_neg (by decide)] at h
      have hfilter : (some (whole e.digits)).filter (fun m => decide (m < 2 ^ 63)) = some (whole e.digits) := by
        rw [Option.filter_some, if_pos (decide_eq_true (by omega))]
      rw [Sign.text, List.nil_append, if_neg (by decide)]
      unfold Text.parseSigned
      split
      · exact absurd (sign_of_digits e.digits_valid (by assumption)) (by decide)
      · unfold Text.parseUnsigned
        split
        · exact absurd (sign_of_digits e.digits_valid (by assumption)) (by decide)
        · rw [hdigits, hfilter]
          rfl

variable (n : Scientific)

theorem digit_of_mem (h : Digits cs) (hc : c ∈ cs) : isExponentMark c = false ∧ c ≠ '.' := by
  have hdigit := h.2 c hc
  constructor
  · by_contra hmark
    simp only [isExponentMark, Bool.or_eq_true, decide_eq_true_eq, Bool.not_eq_false] at hmark
    rcases hmark with rfl | rfl <;> cases hdigit
  · rintro rfl
    cases hdigit

theorem mem_significand (hc : c ∈ n.significand) : isExponentMark c = false := by
  rcases List.mem_append.mp hc with hc | hc
  · exact (digit_of_mem n.integer_digits hc).1
  · cases hfraction : n.fraction with
    | none => rw [hfraction] at hc; cases hc
    | some cs =>
        rw [hfraction] at hc
        rcases List.mem_cons.mp hc with rfl | hc
        · rfl
        · exact (digit_of_mem (n.fraction_digits cs hfraction) hc).1

theorem splitExponent_unsigned (h : ∀ e ∈ n.exponent, -2 ^ 63 ≤ e.value ∧ e.value < 2 ^ 63) :
    splitExponent n.unsigned = some (n.significand, n.power) := by
  unfold unsigned power
  cases hexponent : n.exponent with
  | none =>
      rw [Option.map_none, Option.map_none, Option.getD_none, Option.getD_none, List.append_nil, splitExponent,
        splitOnce_none fun c hc => mem_significand n hc]
  | some e =>
      rw [Option.map_some, Option.map_some, Option.getD_some, Option.getD_some, Exponent.text, splitExponent,
        splitOnce_append (fun c hc => mem_significand n hc) e.mark_valid]
      simp only [parseSigned_exponent e (h e hexponent), Option.map_some]

theorem fraction_length : (match splitOnce (· = '.') n.significand with
    | some (_, fraction) => fraction.length
    | none => 0) = (n.fraction.getD []).length := by
  have hinteger : ∀ c ∈ n.integer, decide (c = '.') = false :=
    fun c hc => decide_eq_false (digit_of_mem n.integer_digits hc).2
  unfold significand
  cases n.fraction with
  | none => rw [pointed, List.append_nil, splitOnce_none hinteger]; rfl
  | some cs => rw [pointed, splitOnce_append hinteger rfl]; rfl

theorem filter_digits (h : Digits cs) : cs.filter (· ≠ '.') = cs :=
  List.filter_eq_self.mpr fun _ hc => decide_eq_true (digit_of_mem h hc).2

theorem filter_significand : n.significand.filter (· ≠ '.') = n.digits := by
  unfold significand digits
  rw [List.filter_append, filter_digits n.integer_digits]
  cases hfraction : n.fraction with
  | none => rfl
  | some cs =>
      rw [pointed, List.filter_cons, if_neg (by decide), filter_digits (n.fraction_digits cs hfraction)]
      rfl

theorem length_significand : n.significand.length - (if '.' ∈ n.significand then 1 else 0) = n.digits.length := by
  have hinteger : '.' ∉ n.integer := fun hmem => (digit_of_mem n.integer_digits hmem).2 rfl
  unfold significand digits
  cases n.fraction with
  | none =>
      rw [pointed, List.append_nil, if_neg hinteger]
      simp
  | some cs =>
      rw [pointed, if_pos (List.mem_append_right _ List.mem_cons_self)]
      simp

theorem head_text : n.text.head? = some '-' ↔ n.negative = true := by
  unfold text unsigned significand
  cases n.negative with
  | true => simp
  | false =>
      obtain ⟨c, cs, hcons⟩ := List.exists_cons_of_ne_nil n.integer_digits.1
      have hdigit := sign_of_digits n.integer_digits hcons
      refine iff_of_false (fun heq => ?_) (by decide)
      rw [hcons] at heq
      simp only [Bool.false_eq_true, if_false, List.nil_append, List.cons_append, List.head?_cons,
        Option.some.injEq] at heq
      rw [heq] at hdigit
      cases hdigit

theorem unsigned_text : (if n.text.head? = some '-' then n.text.tail else n.text) = n.unsigned := by
  by_cases hneg : n.negative = true
  · rw [if_pos ((head_text n).mpr hneg), text, if_pos hneg]
    rfl
  · rw [if_neg (mt (head_text n).mp hneg), text, if_neg hneg]
    rfl

theorem exactRate_text (h : ∀ e ∈ n.exponent, -2 ^ 63 ≤ e.value ∧ e.value < 2 ^ 63) :
    exactRate n.text = (checked (whole (coreOf n.digits))).bind fun coefficient =>
      if coefficient.val = 0 then some zero
      else if n.negative then none
      else scaledRate coefficient (n.fraction.getD []).length (zerosOf n.digits) n.power := by
  have hzeros : ((n.significand.reverse.filter (· ≠ '.')).takeWhile (· = '0')).length = zerosOf n.digits := by
    rw [List.filter_reverse, filter_significand]
    rfl
  unfold exactRate
  simp only [unsigned_text, splitExponent_unsigned n h, Option.bind_eq_bind, Option.bind_some]
  simp only [fraction_length, hzeros, filter_significand, length_significand, take_core, foldlM_pushDigit, head_text]

theorem number_core : n.number = (if n.negative then -1 else 1) *
    ((whole (coreOf n.digits) : Int) * 10 ^ (-(((n.fraction.getD []).length : Int) - zerosOf n.digits - n.power))) := by
  have hwhole : whole n.integer * 10 ^ (n.fraction.getD []).length + whole (n.fraction.getD []) =
      whole (coreOf n.digits) * 10 ^ zerosOf n.digits := by
    rw [← whole_core, digits, whole_append]
  have hrat : (whole n.integer : ℚ) * 10 ^ (n.fraction.getD []).length + whole (n.fraction.getD []) =
      whole (coreOf n.digits) * 10 ^ zerosOf n.digits := by exact_mod_cast hwhole
  have hzpow : (10 : ℚ) ^ (-(((n.fraction.getD []).length : Int) - zerosOf n.digits - n.power)) =
      10 ^ zerosOf n.digits / 10 ^ (n.fraction.getD []).length * 10 ^ n.power := by
    have hexp : -(((n.fraction.getD []).length : Int) - zerosOf n.digits - n.power) =
        (zerosOf n.digits : Int) - (n.fraction.getD []).length + n.power := by ring
    rw [hexp, zpow_add₀ (by norm_num), zpow_sub₀ (by norm_num), zpow_natCast, zpow_natCast]
  have hsum : (whole n.integer + whole (n.fraction.getD []) / 10 ^ (n.fraction.getD []).length : ℚ) =
      whole (coreOf n.digits) * 10 ^ zerosOf n.digits / 10 ^ (n.fraction.getD []).length := by
    rw [← hrat]
    field_simp
  rw [number, hsum, hzpow]
  push_cast
  ring

theorem digits_valid : ∀ c ∈ n.digits, c.isDigit = true := by
  intro c hc
  rcases List.mem_append.mp hc with hc | hc
  · exact n.integer_digits.2 c hc
  · cases hfraction : n.fraction with
    | none => rw [hfraction] at hc; cases hc
    | some cs => rw [hfraction] at hc; exact (n.fraction_digits cs hfraction).2 c hc

theorem length_digits_le : n.digits.length ≤ n.text.length := by
  have hsignificand : n.digits.length ≤ n.significand.length := by
    rw [← filter_significand]
    exact List.length_filter_le _ _
  unfold text unsigned
  simp only [List.length_append]
  omega

theorem fraction_length_le : (n.fraction.getD []).length ≤ n.digits.length := by
  rw [digits, List.length_append]
  omega

theorem zeros_le (cs : List Char) : zerosOf cs ≤ cs.length := by
  have hlen := congrArg List.length (core_append_zeros cs)
  rw [List.length_append, List.length_replicate] at hlen
  omega

theorem value_zero : zero.value = 0 := by
  unfold zero
  rw [value_new]
  simp [Decimal.value]

theorem exactRate_eq_some_iff (hshort : n.text.length < 2 ^ 63)
    (h : ∀ e ∈ n.exponent, -2 ^ 63 ≤ e.value ∧ e.value < 2 ^ 63) (d : ExactDecimal) : exactRate n.text = some d ↔
      0 ≤ n.number ∧ (∃ k : Int, n.number = k / 10) ∧ d.value = n.number ∧ d.coefficient.val < 2 ^ 96 := by
  have hlength := length_digits_le n
  have hfraction := fraction_length_le n
  have hzeros := zeros_le n.digits
  rw [exactRate_text n h, number_core n]
  generalize hscale : ((n.fraction.getD []).length : Int) - zerosOf n.digits - n.power = scale
  rcases core_indivisible (digits_valid n) with hnil | hindivisible
  · -- all digits are zeros
    have hzero : whole (coreOf n.digits) = 0 := by rw [hnil]; rfl
    have hchecked : checked ((0 : Nat) : Int) = some ⟨0, by decide⟩ := rfl
    rw [hzero, hchecked, Option.bind_some, if_pos rfl, Option.some.injEq]
    simp only [Nat.cast_zero, Int.cast_zero, zero_mul, mul_zero, le_refl, true_and]
    constructor
    · rintro rfl
      exact ⟨⟨0, by simp⟩, value_zero, by decide⟩
    · rintro ⟨-, hvalue, -⟩
      exact value_inj.mpr (value_zero.trans hvalue.symm)
  · generalize hq : whole (coreOf n.digits) = q at hindivisible ⊢
    have hpos : 0 < q := by
      rcases Nat.eq_zero_or_pos q with hzero | hpos
      · rw [hzero] at hindivisible
        exact absurd (dvd_zero _) hindivisible
      · exact hpos
    have hnumber : (0 : ℚ) < (q : Int) * 10 ^ (-scale) := by
      have hqpos : (0 : ℚ) < (q : Int) := by exact_mod_cast hpos
      exact mul_pos hqpos (zpow_pos (by norm_num) _)
    by_cases hneg : n.negative = true
    · have hfalse : ¬(0 : ℚ) ≤ (if n.negative = true then -1 else 1) * ((q : Int) * 10 ^ (-scale)) := by
        rw [if_pos hneg]
        linarith
      refine iff_of_false (fun hsome => ?_) fun hrate => hfalse hrate.1
      rw [Option.bind_eq_some_iff] at hsome
      obtain ⟨coefficient, hchecked, hsome⟩ := hsome
      rw [if_neg (by rw [checked_eq_some.mp hchecked]; omega), if_pos hneg] at hsome
      cases hsome
    · rw [if_neg hneg, one_mul]
      simp only [hneg, Bool.false_eq_true, if_false]
      rw [checked_scaledRate_iff hpos hindivisible (by omega) (by omega), hscale]
      exact (and_iff_right hnumber.le).symm

theorem nonneg_of_value {c : Int} {s : Nat} (h : 0 ≤ Decimal.value c s) : 0 ≤ c := by
  by_contra hneg
  have hlt : Decimal.value c s < 0 := by
    unfold Decimal.value
    have hcast : (c : ℚ) < 0 := by exact_mod_cast not_le.mp hneg
    rw [div_eq_mul_inv]
    exact mul_neg_of_neg_of_pos hcast (inv_pos.mpr (by positivity))
  exact absurd h (not_le.mpr hlt)

def ofDigits (integer : List Char) (fraction : Option (List Char)) (hinteger : Digits integer)
    (hfraction : ∀ cs ∈ fraction, Digits cs) : Scientific :=
  ⟨false, integer, fraction, none, hinteger, hfraction⟩

theorem number_ofDigits {m : Numeral} (hsign : m.sign = .bare) :
    (ofDigits m.integer m.fraction m.integer_digits m.fraction_digits).number = m.number := by
  simp [number, power, ofDigits, Numeral.number, hsign, Numeral.scale]

theorem rewritten_text (d : ExactDecimal) (hpos : 0 ≤ d.coefficient.val) :
    ∃ m : Scientific, m.exponent = none ∧ m.number = d.value ∧ m.text.length < 2 ^ 63 ∧
      (if d.scale.val = 0 ∧ 2 ^ 64 - 1 < d.coefficient.val then d.display.toList ++ ['.', '0'] else d.display.toList) =
        m.text := by
  obtain ⟨m, htext, hsign, hsigned, hscale⟩ := displayed_numeral d
  rw [signOf, if_neg (by omega)] at hsign
  have hlength := d.length_displayed_lt
  have hnumber : m.number = d.value := by rw [m.number_eq, hsigned, hscale]; rfl
  have hdisplay : d.display.toList = m.integer ++ pointed m.fraction := by
    rw [display, String.toList_ofList, htext, text_eq, hsign]
    rfl
  rw [htext, text_eq, hsign, Sign.text, List.nil_append] at hlength
  split_ifs with hlarge
  · have hfraction : m.fraction = none := by
      cases hfraction : m.fraction with
      | none => rfl
      | some cs =>
          have hempty : cs.length = 0 := by
            rw [Numeral.scale, hfraction, Option.getD_some] at hscale
            omega
          exact absurd (List.length_eq_zero_iff.mp hempty) (m.fraction_digits cs hfraction).1
    have hzero : Digits ['0'] := ⟨by simp, by simp⟩
    refine ⟨ofDigits m.integer (some ['0']) m.integer_digits fun _ h => Option.mem_some.mp h ▸ hzero, rfl, ?_, ?_, ?_⟩
    · rw [← hnumber, ← number_ofDigits hsign]
      have hwhole : whole ['0'] = 0 := whole_zeros 1
      have hnone : whole [] = 0 := rfl
      simp [number, power, ofDigits, hfraction, hwhole, hnone]
    · rw [hfraction] at hlength
      simp only [pointed, List.append_nil] at hlength
      simp [text, unsigned, significand, ofDigits, pointed]
      omega
    · rw [hdisplay, hfraction]
      simp [text, unsigned, significand, ofDigits, pointed]
  · refine ⟨ofDigits m.integer m.fraction m.integer_digits m.fraction_digits, rfl, ?_, ?_, ?_⟩
    · rw [number_ofDigits hsign, hnumber]
    · simp only [text, unsigned, significand, ofDigits, Bool.false_eq_true, if_false,
        List.nil_append, Option.map_none, Option.getD_none, List.append_nil]
      omega
    · rw [hdisplay]
      simp [text, unsigned, significand, ofDigits]

end Lexemes

/-- The rate read from a lexeme is its number exactly, and the native decoder gets a number of the same rate. -/
theorem exact_rates (l : Lexeme) (h : ∀ e ∈ l.exponent, -2 ^ 63 ≤ e.value ∧ e.value < 2 ^ 63) :
    ((exactRate l.text).isSome = true ↔ 0 ≤ l.number ∧ (∃ k : Int, l.number = k / 10) ∧
      ∃ c s, Normal c s ∧ Decimal.value c s = l.number ∧ c < 2 ^ 96) ∧
    (∀ d, exactRate l.text = some d → d.value = l.number) ∧
    ∀ text, decoderRate l.text = some (.owned text) → exactRate text = exactRate l.text := by
  have hrate := exactRate_eq_some_iff l.toScientific l.short h
  refine ⟨?_, fun d hd => ((hrate d).mp hd).2.2.1, fun text htext => ?_⟩
  · rw [Option.isSome_iff_exists]
    constructor
    · rintro ⟨d, hd⟩
      obtain ⟨hpos, htenth, hvalue, hsmall⟩ := (hrate d).mp hd
      exact ⟨hpos, htenth, d.coefficient.val, d.scale.val, d.normal, hvalue, hsmall⟩
    · rintro ⟨hpos, ⟨k, hk⟩, c, s, hnormal, hvalue, hsmall⟩
      have hc := nonneg_of_value (hvalue ▸ hpos)
      have htenth : Decimal.value c s = Decimal.value k 1 := by
        rw [hvalue, hk]
        simp [Decimal.value]
      have hs : s ≤ 1 := hnormal.le htenth
      refine ⟨⟨⟨c, by omega, by omega⟩, ⟨s, by omega⟩, hnormal⟩, (hrate _).mpr ⟨hpos, ⟨k, hk⟩, hvalue, hsmall⟩⟩
  · unfold decoderRate at htext
    simp only [Option.bind_eq_bind] at htext
    split_ifs at htext
    · cases htext
    · rw [Option.bind_eq_some_iff] at htext
      obtain ⟨rate, hsome, htext⟩ := htext
      obtain ⟨hpos, htenth, hvalue, hsmall⟩ := (hrate rate).mp hsome
      have hc : 0 ≤ rate.coefficient.val := nonneg_of_value (hvalue ▸ hpos)
      obtain ⟨m, hexponent, hnumber, hshort, heq⟩ := rewritten_text rate hc
      rw [heq] at htext
      split_ifs at htext
      cases htext
      have hfits : ∀ e ∈ m.exponent, -2 ^ 63 ≤ e.value ∧ e.value < 2 ^ 63 := by
        rw [hexponent]
        intro e he
        cases he
      rw [hsome, exactRate_eq_some_iff m hshort hfits, hnumber, hvalue]
      exact ⟨hpos, htenth, rfl, hsmall⟩

def sampleLexeme : Lexeme where
  negative := false
  integer := ['1']
  fraction := some ['5', '0']
  exponent := some ⟨'e', .bare, ['1'], rfl, by simp, by simp⟩
  integer_digits := ⟨by simp, by simp⟩
  fraction_digits := fun _ h => Option.mem_some.mp h ▸ ⟨by simp, by simp⟩
  leading := by simp
  short := by decide

theorem exact_rates_sample :
    (∀ e ∈ sampleLexeme.exponent, -2 ^ 63 ≤ e.value ∧ e.value < 2 ^ 63) ∧
      ∀ d, exactRate sampleLexeme.text = some d → d.value = sampleLexeme.number := by
  have hfits : ∀ e ∈ sampleLexeme.exponent, -2 ^ 63 ≤ e.value ∧ e.value < 2 ^ 63 := by decide
  exact ⟨hfits, (exact_rates sampleLexeme hfits).2.1⟩

end OcppBridge.Point
