import OcppBridge.Decimal

namespace OcppBridge.Point

open Decimal Text

inductive ExactDecimalError
  | invalidSyntax
  | overflow
  deriving DecidableEq, Repr

abbrev I128 := { c : Int // -2 ^ 127 ≤ c ∧ c < 2 ^ 127 }

def I128.checked (c : Int) : Option I128 := if h : -2 ^ 127 ≤ c ∧ c < 2 ^ 127 then some ⟨c, h⟩ else none

variable {c : Int}

theorem I128.checked_of_bounds (h : -2 ^ 127 ≤ c ∧ c < 2 ^ 127) : I128.checked c = some ⟨c, h⟩ := dif_pos h

theorem I128.checked_eq_none : I128.checked c = none ↔ ¬(-2 ^ 127 ≤ c ∧ c < 2 ^ 127) := by
  unfold checked
  split_ifs with h
  · exact iff_of_false (by simp) (not_not.mpr h)
  · exact iff_of_true rfl h

theorem I128.checked_eq_some {x : I128} : I128.checked c = some x ↔ x.val = c := by
  unfold checked
  split_ifs with h
  · rw [Option.some.injEq, Subtype.ext_iff, eq_comm]
  · refine iff_of_false (by simp) ?_
    rintro rfl
    exact h x.2

theorem I128.bounds_of_mul {p : Int} (hp : 1 ≤ p) (h : -2 ^ 127 ≤ c * p ∧ c * p < 2 ^ 127) :
    -2 ^ 127 ≤ c ∧ c < 2 ^ 127 := by
  rcases le_or_gt 0 c with hc | hc
  · have hle : c * 1 ≤ c * p := mul_le_mul_of_nonneg_left hp hc
    omega
  · have hle : c * p ≤ c * 1 := mul_le_mul_of_nonpos_left hp hc.le
    omega

theorem I128.zero_bounds : -2 ^ 127 ≤ (0 : Int) ∧ (0 : Int) < 2 ^ 127 := by decide

abbrev U32 := { n : Nat // n < 2 ^ 32 }

theorem U32.zero_bound : 0 < 2 ^ 32 := by decide

def U32.checked (n : Nat) : Option U32 := if h : n < 2 ^ 32 then some ⟨n, h⟩ else none

structure ExactDecimal where
  coefficient : I128
  scale : U32
  normal : Normal coefficient.val scale.val
  deriving DecidableEq

namespace ExactDecimal

def new (coefficient : I128) (scale : U32) : ExactDecimal :=
  if coefficient.val = 0 then ⟨⟨0, I128.zero_bounds⟩, ⟨0, U32.zero_bound⟩, fun h => absurd h (lt_irrefl 0)⟩
  else
    have hbounds := strip_bounds (by decide) (by decide) coefficient.2.1 coefficient.2.2 scale.val
    ⟨⟨(strip coefficient.val scale.val).1, hbounds.1, hbounds.2.1⟩,
      ⟨(strip coefficient.val scale.val).2, lt_of_le_of_lt hbounds.2.2 scale.2⟩, normal_strip _ _⟩

def checkedPowerOfTen : Nat → Except ExactDecimalError I128
  | 0 => .ok ⟨1, by decide⟩
  | n + 1 => do
      let value ← checkedPowerOfTen n
      match I128.checked (value.val * 10) with
      | some value => .ok value
      | none => .error .overflow

def checkedScaleByPowerOfTen (d : ExactDecimal) (exponent : Int32) : Except ExactDecimalError ExactDecimal :=
  if exponent.toInt = 0 ∨ d.coefficient.val = 0 then .ok d
  else if exponent.toInt < 0 then
    match U32.checked (d.scale.val + exponent.toInt.natAbs) with
    | some scale => .ok (new d.coefficient scale)
    | none => .error .overflow
  else do
    let removable := min exponent.toInt.natAbs d.scale.val
    let factor ← checkedPowerOfTen (exponent.toInt.natAbs - removable)
    match I128.checked (d.coefficient.val * factor.val) with
    | some coefficient => .ok (new coefficient ⟨d.scale.val - removable, lt_of_le_of_lt (Nat.sub_le _ _) d.scale.2⟩)
    | none => .error .overflow

def parseI128 (cs : List Char) : Option I128 :=
  (match cs with
    | '-' :: cs => (digits cs).map fun n : Nat => -(n : Int)
    | '+' :: cs => (digits cs).map Int.ofNat
    | cs => (digits cs).map Int.ofNat).bind I128.checked

def parseParts (negative : Bool) (integer : List Char) (fraction : Option (List Char)) :
    Except ExactDecimalError ExactDecimal :=
  if integer = [] ∨ integer.all Char.isDigit = false ∨
      fraction.any (fun digits => digits = [] ∨ digits.all Char.isDigit = false) = true then .error .invalidSyntax
  else
    let fraction := fraction.getD []
    match U32.checked fraction.length with
    | none => .error .overflow
    | some scale =>
        let digits := integer ++ fraction
        match parseI128 (if negative then '-' :: digits else digits) with
        | none => .error .overflow
        | some coefficient => .ok (new coefficient scale)

def stripSign : List Char → Bool × List Char
  | '-' :: unsigned => (true, unsigned)
  | '+' :: unsigned => (false, unsigned)
  | unsigned => (false, unsigned)

def parseUnsigned (negative : Bool) (unsigned : List Char) : Except ExactDecimalError ExactDecimal :=
  match split '.' unsigned with
  | [integer] => parseParts negative integer none
  | [integer, fraction] => parseParts negative integer (some fraction)
  | _ => .error .invalidSyntax

def parse (value : String) : Except ExactDecimalError ExactDecimal :=
  if value.toList = [] ∨ trim value.toList ≠ value.toList then .error .invalidSyntax
  else parseUnsigned (stripSign value.toList).1 (stripSign value.toList).2

def displayed (d : ExactDecimal) : List Char :=
  if d.scale.val = 0 then (toString d.coefficient.val).toList
  else
    let digits := (toString d.coefficient.val.natAbs).toList
    let scale := d.scale.val
    (if d.coefficient.val < 0 then ['-'] else []) ++
      if digits.length ≤ scale then '0' :: '.' :: (List.replicate (scale - digits.length) '0' ++ digits)
      else digits.take (digits.length - scale) ++ '.' :: digits.drop (digits.length - scale)

def display (d : ExactDecimal) : String := String.ofList d.displayed

def value (d : ExactDecimal) : ℚ := Decimal.value d.coefficient.val d.scale.val

section Values

variable {d d' : ExactDecimal} {coefficient : I128} {scale : U32}

theorem value_inj : d = d' ↔ d.value = d'.value := by
  constructor
  · rintro rfl
    rfl
  · intro h
    obtain ⟨hc, hs⟩ := d.normal.unique d'.normal h
    obtain ⟨c, s, _⟩ := d
    obtain ⟨c', s', _⟩ := d'
    obtain rfl : c = c' := Subtype.ext hc
    obtain rfl : s = s' := Subtype.ext hs
    rfl

theorem value_new (coefficient : I128) (scale : U32) :
    (new coefficient scale).value = Decimal.value coefficient.val scale.val := by
  unfold new
  split_ifs with hzero
  · rw [hzero]
    simp [value, Decimal.value]
  · exact value_strip coefficient.val scale.val

theorem new_self (d : ExactDecimal) : new d.coefficient d.scale = d := value_inj.mpr (value_new _ _)

end Values

section Scaling

variable {d d' : ExactDecimal} {exponent : Int32} {error : ExactDecimalError}

theorem checkedPowerOfTen_eq (n : Nat) : checkedPowerOfTen n =
    match I128.checked (10 ^ n) with
    | some power => .ok power
    | none => .error .overflow := by
  induction n with
  | zero => rfl
  | succ n ih =>
      have hpow : (10 : Int) ^ (n + 1) = 10 ^ n * 10 := pow_succ 10 n
      rw [checkedPowerOfTen, ih, hpow]
      cases hchecked : I128.checked (10 ^ n) with
      | some power =>
          rw [← I128.checked_eq_some.mp hchecked]
          rfl
      | none =>
          have hnext : I128.checked (10 ^ n * 10) = none := by
            rw [I128.checked_eq_none] at hchecked ⊢
            exact fun h => hchecked (I128.bounds_of_mul (by decide) h)
          rw [hnext]
          rfl

theorem value_shift (c : Int) {s k m : Nat} (hs : m ≤ s) (hk : m ≤ k) :
    Decimal.value (c * 10 ^ (k - m)) (s - m) = Decimal.value c s * 10 ^ k := by
  obtain ⟨s, rfl⟩ := Nat.exists_eq_add_of_le hs
  obtain ⟨k, rfl⟩ := Nat.exists_eq_add_of_le hk
  rw [Nat.add_sub_cancel_left, Nat.add_sub_cancel_left]
  unfold Decimal.value
  push_cast
  rw [pow_add, pow_add]
  field_simp

theorem zpow_toInt_of_nonneg (h : 0 ≤ exponent.toInt) : (10 : ℚ) ^ exponent.toInt = 10 ^ exponent.toInt.natAbs := by
  rw [← zpow_natCast, Int.natAbs_of_nonneg h]

theorem value_lower (c : Int) (s : Nat) (h : exponent.toInt < 0) :
    Decimal.value c (s + exponent.toInt.natAbs) = Decimal.value c s * 10 ^ exponent.toInt := by
  have hneg : exponent.toInt = -(exponent.toInt.natAbs : Int) := by omega
  rw [hneg, zpow_neg, zpow_natCast, Int.natAbs_neg, Int.natAbs_natCast]
  unfold Decimal.value
  rw [pow_add]
  field_simp

theorem unbounded_mul_power (hc : c ≠ 0) {k : Nat} (h : I128.checked (10 ^ k) = none) :
    ¬(-2 ^ 127 ≤ c * 10 ^ k ∧ c * 10 ^ k < 2 ^ 127) := by
  rw [I128.checked_eq_none] at h
  have hpos : (0 : Int) < 10 ^ k := by positivity
  have hlarge : (2 : Int) ^ 127 < 10 ^ k := by
    rcases lt_trichotomy ((10 : Int) ^ k) (2 ^ 127) with hlt | heq | hgt
    · exact absurd ⟨by omega, hlt⟩ h
    · cases k with
      | zero => simp at heq
      | succ k =>
          have hdvd : (10 : Int) ∣ 2 ^ 127 := heq ▸ Dvd.intro_left (10 ^ k) (pow_succ 10 k).symm
          exact absurd hdvd (by decide)
    · exact hgt
  rintro ⟨hlow, hhigh⟩
  rcases lt_or_gt_of_ne hc with hneg | hpos'
  · have hle : c * 10 ^ k ≤ (-1) * 10 ^ k := mul_le_mul_of_nonneg_right (by omega) hpos.le
    omega
  · have hle : 1 * 10 ^ k ≤ c * 10 ^ k := mul_le_mul_of_nonneg_right (by omega) hpos.le
    omega

inductive Scales (d : ExactDecimal) (exponent : Int32) : Except ExactDecimalError ExactDecimal → Prop
  | same (h : exponent.toInt = 0 ∨ d.coefficient.val = 0) : Scales d exponent (.ok d)
  | lowered {scale : U32} (h : exponent.toInt < 0) (hscale : scale.val = d.scale.val + exponent.toInt.natAbs) :
      Scales d exponent (.ok (new d.coefficient scale))
  | tooFine (hne : d.coefficient.val ≠ 0) (h : exponent.toInt < 0)
      (hscale : 2 ^ 32 ≤ d.scale.val + exponent.toInt.natAbs) : Scales d exponent (.error .overflow)
  | raised {coefficient : I128} {scale : U32} (h : 0 ≤ exponent.toInt)
      (hscale : scale.val = d.scale.val - min exponent.toInt.natAbs d.scale.val)
      (hcoefficient : coefficient.val =
        d.coefficient.val * 10 ^ (exponent.toInt.natAbs - min exponent.toInt.natAbs d.scale.val)) :
      Scales d exponent (.ok (new coefficient scale))
  | tooLarge (hne : d.coefficient.val ≠ 0) (h : 0 < exponent.toInt)
      (hlarge : ¬(-2 ^ 127 ≤ d.coefficient.val * 10 ^ (exponent.toInt.natAbs - d.scale.val) ∧
        d.coefficient.val * 10 ^ (exponent.toInt.natAbs - d.scale.val) < 2 ^ 127)) :
      Scales d exponent (.error .overflow)

theorem checkedScaleByPowerOfTen_scales (d : ExactDecimal) (exponent : Int32) :
    Scales d exponent (d.checkedScaleByPowerOfTen exponent) := by
  unfold checkedScaleByPowerOfTen
  split_ifs with hsame hneg
  · exact .same hsame
  · obtain ⟨-, hne⟩ := not_or.mp hsame
    unfold U32.checked
    split_ifs with hscale
    · exact .lowered hneg rfl
    · exact .tooFine hne hneg (not_lt.mp hscale)
  · obtain ⟨hexponent, hne⟩ := not_or.mp hsame
    have hpos : 0 < exponent.toInt := by omega
    simp only [checkedPowerOfTen_eq]
    -- a product that does not fit leaves no fraction digits
    have hlarge : ∀ m : Nat, m = min exponent.toInt.natAbs d.scale.val →
        ¬(-2 ^ 127 ≤ d.coefficient.val * 10 ^ (exponent.toInt.natAbs - m) ∧
          d.coefficient.val * 10 ^ (exponent.toInt.natAbs - m) < 2 ^ 127) →
        exponent.toInt.natAbs - m = exponent.toInt.natAbs - d.scale.val := by
      intro m hm hfit
      rcases le_total exponent.toInt.natAbs d.scale.val with hle | hle
      · rw [min_eq_left hle] at hm
        rw [hm, Nat.sub_self, pow_zero, mul_one] at hfit
        exact absurd d.coefficient.2 hfit
      · rw [hm, min_eq_right hle]
    cases hpower : I128.checked (10 ^ (exponent.toInt.natAbs - min exponent.toInt.natAbs d.scale.val)) with
    | none =>
        have hfit := unbounded_mul_power hne hpower
        rw [hlarge _ rfl hfit] at hfit
        exact .tooLarge hne hpos hfit
    | some power =>
        have hval := I128.checked_eq_some.mp hpower
        cases hproduct : I128.checked (d.coefficient.val * power.val) with
        | none =>
            have hfit := I128.checked_eq_none.mp hproduct
            rw [hval] at hfit
            have heq := hlarge _ rfl hfit
            rw [heq] at hfit
            simp only [bind, Except.bind, hproduct]
            exact .tooLarge hne hpos hfit
        | some coefficient =>
            have hcoefficient := I128.checked_eq_some.mp hproduct
            rw [hval] at hcoefficient
            simp only [bind, Except.bind, hproduct]
            exact .raised hpos.le rfl hcoefficient

theorem value_of_scaled (h : d.checkedScaleByPowerOfTen exponent = .ok d') :
    d'.value = d.value * 10 ^ exponent.toInt := by
  have hscales := checkedScaleByPowerOfTen_scales d exponent
  rw [h] at hscales
  cases hscales with
  | same hsame =>
      rcases hsame with hzero | hzero
      · rw [hzero, zpow_zero, mul_one]
      · rw [value, value_eq_zero.mpr hzero, zero_mul]
  | lowered hneg hscale =>
      rw [value_new, hscale, value_lower _ _ hneg]
      rfl
  | raised hpos hscale hcoefficient =>
      rw [value_new, hscale, hcoefficient, value_shift _ (min_le_right _ _) (min_le_left _ _),
        zpow_toInt_of_nonneg hpos]
      rfl

theorem unrepresentable_of_error (h : d.checkedScaleByPowerOfTen exponent = .error error) :
    error = .overflow ∧ ∀ d' : ExactDecimal, d'.value ≠ d.value * 10 ^ exponent.toInt := by
  have hscales := checkedScaleByPowerOfTen_scales d exponent
  rw [h] at hscales
  cases hscales with
  | tooFine hne hneg hscale =>
      refine ⟨rfl, fun d' hd' => ?_⟩
      rw [value, value, ← value_lower _ _ hneg] at hd'
      -- there are fraction digits already, so the coefficient has no zero to give
      have hbound : -2 ^ 31 ≤ exponent.toInt := exponent.le_toInt
      have hfraction : 0 < d.scale.val := by omega
      have hnormal : Normal d.coefficient.val (d.scale.val + exponent.toInt.natAbs) := fun _ => d.normal hfraction
      have hle := hnormal.le hd'.symm
      have hlt := d'.scale.2
      omega
  | tooLarge hne hpos hlarge =>
      refine ⟨rfl, fun d' hd' => hlarge ?_⟩
      have hscale : d.scale.val ≤ exponent.toInt.natAbs := by
        by_contra hlt
        rw [Nat.sub_eq_zero_of_le (by omega), pow_zero, mul_one] at hlarge
        exact hlarge d.coefficient.2
      rw [value, value, zpow_toInt_of_nonneg hpos.le, ← value_shift _ le_rfl hscale, Nat.sub_self, value_eq_iff,
        pow_zero, mul_one] at hd'
      exact I128.bounds_of_mul (one_le_pow₀ (by decide)) (hd' ▸ d'.coefficient.2)

theorem scaled_iff :
    d.checkedScaleByPowerOfTen exponent = .error .overflow ↔
    ¬∃ d' : ExactDecimal, d'.value = d.value * 10 ^ exponent.toInt := by
  constructor
  · rintro h ⟨d', hd'⟩
    exact (unrepresentable_of_error h).2 d' hd'
  · intro h
    cases hscaled : d.checkedScaleByPowerOfTen exponent with
    | ok d' => exact absurd ⟨d', value_of_scaled hscaled⟩ h
    | error error => rw [(unrepresentable_of_error hscaled).1]

end Scaling

section Parsing

variable {text : String} {integer : List Char} {fraction : Option (List Char)} {negative : Bool} {cs : List Char}

theorem digits_of_digits (h : Digits cs) : digits cs = some (whole cs) := by
  rw [digits, if_pos ⟨h.1, List.all_eq_true.mpr h.2⟩]
  rfl

theorem sign_of_digits {rest : List Char} {c : Char} (h : Digits cs) (heq : cs = c :: rest) : c.isDigit = true :=
  h.2 c (heq ▸ List.mem_cons_self)

theorem parseI128_of_digits (h : Digits cs) (negative : Bool) :
    parseI128 (if negative then '-' :: cs else cs) =
      I128.checked (if negative then -(whole cs : Int) else (whole cs : Int)) := by
  cases negative with
  | true =>
      simp only [if_true, parseI128, digits_of_digits h, Option.map_some, Option.bind_some]
  | false =>
      simp only [Bool.false_eq_true, if_false]
      unfold parseI128
      split
      · exact absurd (sign_of_digits h rfl) (by decide)
      · exact absurd (sign_of_digits h rfl) (by decide)
      · rw [digits_of_digits h, Option.map_some, Option.bind_some]
        exact congrArg I128.checked (Int.ofNat_eq_natCast _)

def ofParts (signed : Int) (scale : Nat) : Except ExactDecimalError ExactDecimal :=
  match U32.checked scale with
  | none => .error .overflow
  | some scale =>
      match I128.checked signed with
      | none => .error .overflow
      | some coefficient => .ok (new coefficient scale)

theorem parseParts_of_digits (hinteger : Digits integer) (hfraction : ∀ cs ∈ fraction, Digits cs) :
    parseParts negative integer fraction =
      ofParts (if negative then -(whole (integer ++ fraction.getD []) : Int) else whole (integer ++ fraction.getD []))
        (fraction.getD []).length := by
  have hdigits : Digits (integer ++ fraction.getD []) := by
    refine ⟨by simp [hinteger.1], fun c hc => ?_⟩
    rcases List.mem_append.mp hc with hc | hc
    · exact hinteger.2 c hc
    · cases fraction with
      | none => cases hc
      | some cs => exact (hfraction cs rfl).2 c hc
  have hvalid : ¬(integer = [] ∨ integer.all Char.isDigit = false ∨
      fraction.any (fun digits => digits = [] ∨ digits.all Char.isDigit = false) = true) := by
    rintro (hnil | hall | hany)
    · exact hinteger.1 hnil
    · rw [List.all_eq_true.mpr hinteger.2] at hall
      cases hall
    · rw [Option.any_eq_true] at hany
      obtain ⟨cs, hcs, hbad⟩ := hany
      rcases of_decide_eq_true hbad with hnil | hall
      · exact (hfraction cs hcs).1 hnil
      · rw [List.all_eq_true.mpr (hfraction cs hcs).2] at hall
        cases hall
  rw [parseParts, if_neg hvalid]
  simp only [parseI128_of_digits hdigits]
  rfl

theorem digits_of_parseParts (h : parseParts negative integer fraction ≠ .error .invalidSyntax) :
    Digits integer ∧ ∀ cs ∈ fraction, Digits cs := by
  unfold parseParts at h
  split at h
  · exact absurd rfl h
  · next hvalid =>
    simp only [not_or, Bool.not_eq_false, Bool.not_eq_true, Option.any_eq_false] at hvalid
    refine ⟨⟨hvalid.1, List.all_eq_true.mp hvalid.2.1⟩, fun cs hcs => ?_⟩
    have hcs' := of_decide_eq_false (hvalid.2.2 cs hcs)
    rw [not_or, Bool.not_eq_false] at hcs'
    exact ⟨hcs'.1, List.all_eq_true.mp hcs'.2⟩

theorem text_isWhitespace (n : Numeral) : ∀ c ∈ n.text, isWhitespace c = false := by
  intro c hc
  have hdigit : ∀ {cs : List Char}, Digits cs → c ∈ cs → isWhitespace c = false :=
    fun hcs hmem => isWhitespace_of_isDigit (hcs.2 c hmem)
  unfold Numeral.text at hc
  rcases List.mem_append.mp hc with hc | hc
  · rcases List.mem_append.mp hc with hc | hc
    · cases hsign : n.sign with
      | bare => rw [hsign] at hc; cases hc
      | plus => rw [hsign] at hc; rw [List.mem_singleton.mp hc]; rfl
      | minus => rw [hsign] at hc; rw [List.mem_singleton.mp hc]; rfl
    · exact hdigit n.integer_digits hc
  · cases hfraction : n.fraction with
    | none => rw [hfraction] at hc; cases hc
    | some cs =>
        rw [hfraction] at hc
        rcases List.mem_cons.mp hc with rfl | hc
        · rfl
        · exact hdigit (n.fraction_digits cs hfraction) hc

theorem point_not_mem (h : Digits cs) : '.' ∉ cs := fun hmem => absurd (h.2 _ hmem) (by decide)

def pointed : Option (List Char) → List Char
  | none => []
  | some cs => '.' :: cs

theorem text_eq (n : Numeral) : n.text = n.sign.text ++ (n.integer ++ pointed n.fraction) := by
  unfold Numeral.text
  rw [List.append_assoc]
  rfl

theorem parseUnsigned_of_digits (hinteger : Digits integer) (hfraction : ∀ cs ∈ fraction, Digits cs) :
    parseUnsigned negative (integer ++ pointed fraction) = parseParts negative integer fraction := by
  cases fraction with
  | none => rw [pointed, List.append_nil, parseUnsigned, split_last (point_not_mem hinteger)]
  | some cs =>
      rw [pointed, parseUnsigned, split_append (point_not_mem hinteger), split_last (point_not_mem (hfraction cs rfl))]

theorem parseUnsigned_eq {unsigned : List Char} (h : parseUnsigned negative unsigned ≠ .error .invalidSyntax) :
    ∃ integer fraction, unsigned = integer ++ pointed fraction ∧
      parseUnsigned negative unsigned = parseParts negative integer fraction := by
  match hsplit : split '.' unsigned with
  | [] => exact absurd hsplit (split_ne_nil _ _)
  | [integer] =>
      obtain ⟨-, ⟨rfl, -⟩ | ⟨rest, -, hrest⟩⟩ := split_eq_cons hsplit
      · exact ⟨unsigned, none, (List.append_nil _).symm, by rw [parseUnsigned, hsplit]⟩
      · exact absurd hrest (split_ne_nil _ _)
  | [integer, fraction] =>
      obtain ⟨-, ⟨-, hnil⟩ | ⟨rest, rfl, hrest⟩⟩ := split_eq_cons hsplit
      · cases hnil
      · obtain ⟨-, ⟨rfl, -⟩ | ⟨last, -, hlast⟩⟩ := split_eq_cons hrest
        · exact ⟨integer, some rest, rfl, by rw [parseUnsigned, hsplit]⟩
        · exact absurd hlast (split_ne_nil _ _)
  | _ :: _ :: _ :: _ =>
      rw [parseUnsigned, hsplit] at h
      exact absurd rfl h

theorem stripSign_spec (cs : List Char) :
    ∃ sign : Sign, cs = sign.text ++ (stripSign cs).2 ∧ (stripSign cs).1 = decide (sign = .minus) := by
  unfold stripSign
  split
  · exact ⟨.minus, rfl, rfl⟩
  · exact ⟨.plus, rfl, rfl⟩
  · exact ⟨.bare, rfl, rfl⟩

theorem stripSign_eq (n : Numeral) :
    stripSign n.text = (decide (n.sign = .minus), n.integer ++ pointed n.fraction) := by
  rw [text_eq]
  cases hsign : n.sign with
  | plus => rfl
  | minus => rfl
  | bare =>
      obtain ⟨c, cs, hcons⟩ := List.exists_cons_of_ne_nil n.integer_digits.1
      have hdigit := sign_of_digits n.integer_digits hcons
      rw [Sign.text, List.nil_append, hcons, List.cons_append]
      unfold stripSign
      split
      · next heq => exact absurd ((List.cons.inj heq).1 ▸ hdigit) (by decide)
      · next heq => exact absurd ((List.cons.inj heq).1 ▸ hdigit) (by decide)
      · rfl

theorem parse_of_numeral (n : Numeral) (h : text.toList = n.text) : parse text = ofParts n.signed n.scale := by
  have hne : n.text ≠ [] := by
    rw [text_eq]
    simp [n.integer_digits.1]
  rw [parse, h, if_neg (not_or.mpr ⟨hne, not_not.mpr (trim_of_forall (text_isWhitespace n))⟩), stripSign_eq,
    parseUnsigned_of_digits n.integer_digits n.fraction_digits, parseParts_of_digits n.integer_digits n.fraction_digits]
  simp only [decide_eq_true_eq]
  rfl

theorem numeral_of_parse (h : parse text ≠ .error .invalidSyntax) : ∃ n : Numeral, text.toList = n.text := by
  unfold parse at h
  split_ifs at h
  · exact absurd rfl h
  · obtain ⟨integer, fraction, hunsigned, hparts⟩ := parseUnsigned_eq h
    rw [hparts] at h
    obtain ⟨hinteger, hfraction⟩ := digits_of_parseParts h
    obtain ⟨sign, hsign, -⟩ := stripSign_spec text.toList
    refine ⟨⟨sign, integer, fraction, hinteger, hfraction⟩, ?_⟩
    rw [text_eq, ← hunsigned]
    exact hsign

theorem ofParts_eq_ok {signed : Int} {scale : Nat} {d : ExactDecimal} (h : ofParts signed scale = .ok d) :
    d.value = Decimal.value signed scale := by
  unfold ofParts U32.checked at h
  split_ifs at h
  · cases hsigned : I128.checked signed with
    | none => rw [hsigned] at h; cases h
    | some coefficient =>
        rw [hsigned] at h
        cases h
        rw [value_new, I128.checked_eq_some.mp hsigned]

theorem ofParts_eq_error {signed : Int} {scale : Nat} {error : ExactDecimalError}
    (h : ofParts signed scale = .error error) :
    error = .overflow ∧ (¬(-2 ^ 127 ≤ signed ∧ signed < 2 ^ 127) ∨ 2 ^ 32 - 1 < scale) := by
  unfold ofParts U32.checked at h
  split_ifs at h with hscale
  · cases hsigned : I128.checked signed with
    | none =>
        rw [hsigned] at h
        cases h
        exact ⟨rfl, .inl (I128.checked_eq_none.mp hsigned)⟩
    | some coefficient => rw [hsigned] at h; cases h
  · cases h
    exact ⟨rfl, .inr (by omega)⟩

end Parsing

section Display

def signOf (c : Int) : Sign := if c < 0 then .minus else .bare

theorem signed_of_natAbs {n : Numeral} (hsign : n.sign = signOf c)
    (hwhole : whole (n.integer ++ n.fraction.getD []) = c.natAbs) : n.signed = c := by
  simp only [Numeral.signed, hsign, hwhole, signOf]
  by_cases hc : c < 0
  · rw [if_pos hc, if_pos rfl]
    omega
  · rw [if_neg hc, if_neg (by decide)]
    omega

theorem toString_natAbs (n : Nat) : (toString n).toList = Nat.toDigits 10 n := Nat.toList_repr

theorem toDigits_digits (n : Nat) : Digits (Nat.toDigits 10 n) :=
  ⟨Nat.toDigits_ne_nil, fun _ hc => Nat.isDigit_of_mem_toDigits (by decide) (by decide) hc⟩

theorem toString_eq_sign (c : Int) : (toString c).toList = (signOf c).text ++ Nat.toDigits 10 c.natAbs := by
  cases c with
  | ofNat n =>
      have hpos : ¬Int.ofNat n < 0 := not_lt.mpr (Int.natCast_nonneg n)
      rw [signOf, if_neg hpos]
      exact toString_natAbs n
  | negSucc n =>
      rw [signOf, if_pos (Int.negSucc_lt_zero n), toList_toString_negSucc, toString_natAbs]
      rfl

theorem displayed_numeral (d : ExactDecimal) :
    ∃ n : Numeral, d.displayed = n.text ∧ n.sign = signOf d.coefficient.val ∧ n.signed = d.coefficient.val ∧
      n.scale = d.scale.val := by
  have hsign : (if d.coefficient.val < 0 then ['-'] else []) = (signOf d.coefficient.val).text := by
    unfold signOf
    split_ifs <;> rfl
  have hdigits := toDigits_digits d.coefficient.val.natAbs
  have hsub : ∀ {cs : List Char}, cs ≠ [] → (∀ c ∈ cs, c ∈ Nat.toDigits 10 d.coefficient.val.natAbs) → Digits cs :=
    fun hne hmem => ⟨hne, fun c hc => hdigits.2 c (hmem c hc)⟩
  unfold displayed
  simp only [hsign, toString_natAbs]
  by_cases hscale : d.scale.val = 0
  · rw [if_pos hscale, toString_eq_sign]
    refine ⟨⟨signOf d.coefficient.val, _, none, hdigits, nofun⟩, ?_, rfl, signed_of_natAbs rfl ?_, hscale.symm⟩
    · rw [text_eq, pointed, List.append_nil]
    · rw [Option.getD_none, List.append_nil, whole_toDigits]
  · rw [if_neg hscale]
    generalize hcs : Nat.toDigits 10 d.coefficient.val.natAbs = cs at hdigits hsub ⊢
    have hwhole : whole cs = d.coefficient.val.natAbs := hcs ▸ whole_toDigits _
    by_cases hlen : cs.length ≤ d.scale.val
    · rw [if_pos hlen]
      have hfraction : Digits (List.replicate (d.scale.val - cs.length) '0' ++ cs) := by
        refine ⟨by simp [hdigits.1], fun c hc => ?_⟩
        rcases List.mem_append.mp hc with hc | hc
        · rw [List.eq_of_mem_replicate hc]
          rfl
        · exact hdigits.2 c hc
      refine ⟨⟨signOf d.coefficient.val, ['0'], some _, ⟨by simp, by simp⟩,
        fun _ h => Option.mem_some.mp h ▸ hfraction⟩, ?_, rfl, signed_of_natAbs rfl ?_, ?_⟩
      · rw [text_eq]
        rfl
      · have hzero : whole ['0'] = 0 := whole_zeros 1
        rw [Option.getD_some, whole_append, whole_append, whole_zeros, hwhole, hzero]
        simp
      · rw [Numeral.scale, Option.getD_some, List.length_append, List.length_replicate, Nat.sub_add_cancel hlen]
    · rw [if_neg hlen]
      have hinteger : Digits (cs.take (cs.length - d.scale.val)) := by
        refine hsub (fun hnil => ?_) fun c hc => List.mem_of_mem_take hc
        have hzero := congrArg List.length hnil
        rw [List.length_take, List.length_nil] at hzero
        omega
      have hfraction : Digits (cs.drop (cs.length - d.scale.val)) := by
        refine hsub (fun hnil => ?_) fun c hc => List.mem_of_mem_drop hc
        have hzero := congrArg List.length hnil
        rw [List.length_drop, List.length_nil] at hzero
        omega
      refine ⟨⟨signOf d.coefficient.val, _, some _, hinteger, fun _ h => Option.mem_some.mp h ▸ hfraction⟩,
        ?_, rfl, signed_of_natAbs rfl ?_, ?_⟩
      · rw [text_eq]
        rfl
      · rw [Option.getD_some, List.take_append_drop, hwhole]
      · rw [Numeral.scale, Option.getD_some, List.length_drop]
        omega

theorem length_displayed_lt (d : ExactDecimal) : d.displayed.length < 2 ^ 33 := by
  have hbounds := d.coefficient.2
  have hlength : (Nat.toDigits 10 d.coefficient.val.natAbs).length ≤ 39 :=
    Nat.toDigits_length 10 _ 39 (by decide) (by omega)
  have hscale := d.scale.2
  have hsign : (signOf d.coefficient.val).text.length ≤ 1 := by
    unfold signOf
    split_ifs <;> decide
  unfold displayed
  simp only [toString_natAbs]
  split_ifs
  all_goals
    simp only [toString_eq_sign, List.length_append, List.length_cons, List.length_nil, List.length_replicate,
      List.length_take, List.length_drop]
    omega

theorem parse_display (d : ExactDecimal) : parse d.display = .ok d := by
  obtain ⟨n, htext, -, hsigned, hscale⟩ := displayed_numeral d
  have hparse : parse d.display = _ := parse_of_numeral n (by rw [display, String.toList_ofList, htext])
  rw [hparse, hsigned, hscale, ofParts, U32.checked, dif_pos d.scale.2, I128.checked_of_bounds d.coefficient.2]
  exact congrArg Except.ok (new_self d)

end Display

/-- Equality, parsing, display and scaling of decimals are exact. -/
theorem exact_decimal :
    (∀ d d' : ExactDecimal, d = d' ↔ d.value = d'.value) ∧
    (∀ d : ExactDecimal, parse d.display = .ok d) ∧
    (∀ text d, parse text = .ok d → ∃ n : Numeral, text.toList = n.text ∧ d.value = n.number) ∧
    (∀ (text : String) (n : Numeral) (error : ExactDecimalError), text.toList = n.text → parse text = .error error →
      error = .overflow ∧ (¬(-2 ^ 127 ≤ n.signed ∧ n.signed < 2 ^ 127) ∨ 2 ^ 32 - 1 < n.scale)) ∧
    ∀ (d : ExactDecimal) (exponent : Int32),
      (∀ d', d.checkedScaleByPowerOfTen exponent = .ok d' → d'.value = d.value * 10 ^ exponent.toInt) ∧
      (d.checkedScaleByPowerOfTen exponent = .error .overflow ↔
        ¬∃ d' : ExactDecimal, d'.value = d.value * 10 ^ exponent.toInt) := by
  refine ⟨fun d d' => value_inj, parse_display, fun text d h => ?_, fun text n error htext h => ?_, fun d exponent =>
    ⟨fun d' => value_of_scaled, scaled_iff⟩⟩
  · obtain ⟨n, htext⟩ : ∃ n : Numeral, text.toList = n.text := numeral_of_parse (by rw [h]; simp)
    rw [parse_of_numeral n htext] at h
    exact ⟨n, htext, by rw [ofParts_eq_ok h, n.number_eq]⟩
  · rw [parse_of_numeral n htext] at h
    exact ofParts_eq_error h

end ExactDecimal

end OcppBridge.Point
