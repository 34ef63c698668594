import OcppBridge.Numeral
import OcppBridge.Operational.Contract
import Mathlib.Data.List.DropRight

namespace OcppBridge.Outbox

open Numeral Operational

section Calendar

/-- Days from the first day of year 0 to that of year `y`. -/
def daysBeforeYear (y : Nat) : Nat := 365 * y + (y + 3) / 4 - (y + 99) / 100 + (y + 399) / 400

def isLeap (y : Nat) : Bool := y % 4 = 0 && (y % 100 ≠ 0 || y % 400 = 0)

def daysBeforeMonth (leap : Bool) : Nat → Nat
  | 0 => 0
  | 1 => 31
  | month => [59, 90, 120, 151, 181, 212, 243, 273, 304, 334].getD (month - 2) 0 + leap.toNat

structure Civil where
  year : Nat
  month : Nat
  day : Nat
  hour : Nat
  minute : Nat
  second : Nat
  deriving DecidableEq, Repr

def secondsPerDay : Nat := 86400

def civil (seconds : Nat) : Civil :=
  let day := seconds / secondsPerDay
  let year := entry daysBeforeYear 9999 day
  let dayOfYear := day - daysBeforeYear year
  let month := entry (daysBeforeMonth (isLeap year)) 11 dayOfYear
  { year
    month := month + 1
    day := dayOfYear - daysBeforeMonth (isLeap year) month + 1
    hour := seconds % secondsPerDay / 3600
    minute := seconds % secondsPerDay / 60 % 60
    second := seconds % secondsPerDay % 60 }

def endOfSeconds : Nat := daysBeforeYear 10000 * secondsPerDay

structure Civil.Fits (c : Civil) : Prop where
  year : c.year < 10 ^ 4
  month : c.month < 10 ^ 2
  day : c.day < 10 ^ 2
  hour : c.hour < 10 ^ 2
  minute : c.minute < 10 ^ 2
  second : c.second < 10 ^ 2

def Civil.Before (c d : Civil) : Prop :=
  c.year < d.year ∨ c.year = d.year ∧ (c.month < d.month ∨ c.month = d.month ∧ (c.day < d.day ∨ c.day = d.day ∧
    (c.hour < d.hour ∨ c.hour = d.hour ∧ (c.minute < d.minute ∨ c.minute = d.minute ∧ c.second < d.second))))

theorem daysBeforeYear_succ (y : Nat) : daysBeforeYear (y + 1) ≤ daysBeforeYear y + 366 := by
  unfold daysBeforeYear
  omega

theorem dayOfYear_le {day : Nat} (h : day < daysBeforeYear 10000) :
    day - daysBeforeYear (entry daysBeforeYear 9999 day) ≤ 365 := by
  have hle : entry daysBeforeYear 9999 day ≤ 9999 := entry_le
  have hnext : day < daysBeforeYear (entry daysBeforeYear 9999 day + 1) := by
    rcases hle.lt_or_eq with hlt | heq
    · exact lt_start_succ hlt
    · rw [heq]
      exact h
  have hsucc := daysBeforeYear_succ (entry daysBeforeYear 9999 day)
  omega

theorem dayOfMonth_lt {leap : Bool} {dayOfYear : Nat} (h : dayOfYear ≤ 365) :
    dayOfYear - daysBeforeMonth leap (entry (daysBeforeMonth leap) 11 dayOfYear) + 1 < 10 ^ 2 := by
  have hle : entry (daysBeforeMonth leap) 11 dayOfYear ≤ 11 := entry_le
  have hgap : ∀ leap, ∀ month < 11, daysBeforeMonth leap (month + 1) ≤ daysBeforeMonth leap month + 31 := by decide
  have hlast : ∀ leap, 334 ≤ daysBeforeMonth leap 11 := by decide
  rcases hle.lt_or_eq with hlt | heq
  · have hnext : dayOfYear < daysBeforeMonth leap (entry (daysBeforeMonth leap) 11 dayOfYear + 1) := lt_start_succ hlt
    have hmonth := hgap leap _ hlt
    omega
  · rw [heq]
    have hdecember := hlast leap
    omega

theorem civil_fits {seconds : Nat} (h : seconds < endOfSeconds) : (civil seconds).Fits := by
  have hday : seconds / secondsPerDay < daysBeforeYear 10000 := Nat.div_lt_of_lt_mul (by rwa [Nat.mul_comm])
  have hyear : entry daysBeforeYear 9999 (seconds / secondsPerDay) ≤ 9999 := entry_le
  have hmonth : ∀ leap n, entry (daysBeforeMonth leap) 11 n ≤ 11 := fun _ _ => entry_le
  have htime : seconds % secondsPerDay < 86400 := Nat.mod_lt _ (by decide)
  refine ⟨by simp only [civil]; omega, ?_, dayOfMonth_lt (dayOfYear_le hday), ?_, ?_, ?_⟩
  · have hle := hmonth (isLeap (civil seconds).year) (seconds / secondsPerDay - daysBeforeYear (civil seconds).year)
    simp only [civil] at hle ⊢
    omega
  all_goals
    simp only [civil]
    omega

theorem civil_before {m n : Nat} (h : m < n) : (civil m).Before (civil n) := by
  have hday : m / secondsPerDay ≤ n / secondsPerDay := Nat.div_le_div_right h.le
  rcases hday.lt_or_eq with hlt | heq
  · have hyears : entry daysBeforeYear 9999 (m / secondsPerDay) < entry daysBeforeYear 9999 (n / secondsPerDay) ∨ _ :=
      entry_lt_or (Nat.zero_le _) hlt
    rcases hyears with hyear | ⟨hyear, hrest⟩
    · exact .inl hyear
    · refine .inr ⟨hyear, ?_⟩
      have hmonths : entry (daysBeforeMonth (isLeap (civil n).year)) 11 _ < entry _ 11 _ ∨ _ :=
        entry_lt_or (Nat.zero_le _) hrest
      rcases hmonths with hmonth | ⟨hmonth, hrest⟩
      · refine .inl ?_
        simp only [civil, hyear] at hmonth ⊢
        omega
      · refine .inr ⟨?_, .inl ?_⟩
        · simp only [civil, hyear] at hmonth ⊢
          omega
        · simp only [civil, hyear] at hrest ⊢
          omega
  · have htime : m % secondsPerDay < n % secondsPerDay := by
      have hm := Nat.div_add_mod m secondsPerDay
      have hn := Nat.div_add_mod n secondsPerDay
      rw [heq] at hm
      omega
    refine .inr ⟨by simp only [civil, heq], .inr ⟨by simp only [civil, heq], .inr ⟨by simp only [civil, heq], ?_⟩⟩⟩
    simp only [civil]
    omega

end Calendar

section Text

/-- `yyyy-mm-ddThh:mm:ss`. -/
def Civil.text (c : Civil) : List Char :=
  padded 4 c.year ++ '-' :: (padded 2 c.month ++ '-' :: (padded 2 c.day ++ 'T' ::
    (padded 2 c.hour ++ ':' :: (padded 2 c.minute ++ ':' :: padded 2 c.second))))

theorem Civil.length_text (c : Civil) : c.text.length = 19 := by simp [Civil.text]

theorem Civil.text_lt_iff {c d : Civil} (hc : c.Fits) (hd : d.Fits) : c.text < d.text ↔ c.Before d := by
  rw [Civil.text, Civil.text, field_lt_iff hc.year hd.year, field_lt_iff hc.month hd.month, field_lt_iff hc.day hd.day,
    field_lt_iff hc.hour hd.hour, field_lt_iff hc.minute hd.minute, padded_lt_iff hc.second hd.second]
  rfl

theorem civil_text_lt_iff {m n : Nat} (hm : m < endOfSeconds) (hn : n < endOfSeconds) :
    (civil m).text < (civil n).text ↔ m < n := by
  have hforth : ∀ {m n}, m < endOfSeconds → n < endOfSeconds → m < n → (civil m).text < (civil n).text := by
    intro m n hm hn h
    exact (Civil.text_lt_iff (civil_fits hm) (civil_fits hn)).mpr (civil_before h)
  refine ⟨fun h => ?_, hforth hm hn⟩
  rcases Nat.lt_trichotomy m n with hlt | rfl | hgt
  · exact hlt
  · exact absurd h (List.lt_irrefl _)
  · exact absurd h (List.lt_asymm (hforth hn hm hgt))

/-- The instants that RFC 3339 can write, in nanoseconds of the Unix epoch. -/
structure Stamp where
  nanoseconds : Int
  low : -62167219200000000000 ≤ nanoseconds
  high : nanoseconds < 253402300800000000000
  deriving DecidableEq, Repr

namespace Stamp

def seconds (t : Stamp) : Nat := (t.nanoseconds / nanosecondsPerSecond + 62167219200).toNat

def fraction (t : Stamp) : Nat := (t.nanoseconds % nanosecondsPerSecond).toNat

def digits (t : Stamp) : List Char := (padded 9 t.fraction).rdropWhile (· = '0')

def tail (t : Stamp) : List Char := if t.digits = [] then ['Z'] else '.' :: (t.digits ++ ['Z'])

def rfc3339 (t : Stamp) : String := String.ofList ((civil t.seconds).text ++ t.tail)

def json (t : Stamp) : String := String.ofList ('"' :: ((civil t.seconds).text ++ t.tail ++ ['"']))

end Stamp

def textLe (a b : String) : Prop := ¬b.toList < a.toList

instance (a b : String) : Decidable (textLe a b) := inferInstanceAs (Decidable (¬_))

namespace Stamp

variable {t r : Stamp}

theorem seconds_lt (t : Stamp) : t.seconds < endOfSeconds := by
  have hend : endOfSeconds = 315569520000 := by decide
  have hhigh := t.high
  rw [hend]
  unfold seconds nanosecondsPerSecond
  omega

theorem fraction_lt (t : Stamp) : t.fraction < 10 ^ 9 := by
  unfold fraction nanosecondsPerSecond
  omega

theorem lt_iff :
    r.nanoseconds < t.nanoseconds ↔ r.seconds < t.seconds ∨ r.seconds = t.seconds ∧ r.fraction < t.fraction := by
  have hr := r.low
  have ht := t.low
  unfold seconds fraction nanosecondsPerSecond
  omega

theorem padded_fraction (t : Stamp) : padded 9 t.fraction = t.digits ++ List.replicate (9 - t.digits.length) '0' := by
  have hsplit : t.digits ++ (padded 9 t.fraction).rtakeWhile (· = '0') = padded 9 t.fraction :=
    List.rdropWhile_append_rtakeWhile
  have hlen := congrArg List.length hsplit
  have hzeros : (padded 9 t.fraction).rtakeWhile (· = '0') = List.replicate (9 - t.digits.length) '0' := by
    refine List.eq_replicate_iff.mpr ⟨?_, fun c hc => ?_⟩
    · rw [List.length_append, length_padded] at hlen
      omega
    · simpa using List.mem_rtakeWhile_imp hc
  rw [← hzeros, hsplit]

theorem fraction_eq_of_digits (h : r.digits = t.digits) : r.fraction = t.fraction := by
  apply padded_inj r.fraction_lt t.fraction_lt
  rw [padded_fraction r, padded_fraction t, h]

theorem lt_json_iff : r.json.toList < t.json.toList ↔
    r.seconds < t.seconds ∨ r.seconds = t.seconds ∧ r.tail ++ ['"'] < t.tail ++ ['"'] := by
  have hlen : (civil r.seconds).text.length = (civil t.seconds).text.length := by
    rw [Civil.length_text, Civil.length_text]
  have htext := civil_text_lt_iff r.seconds_lt t.seconds_lt
  have hback := civil_text_lt_iff t.seconds_lt r.seconds_lt
  simp only [json, String.toList_ofList, List.append_assoc, List.cons_lt_cons_iff, append_lt_append_iff hlen, htext]
  constructor
  · rintro (h | ⟨_, h | ⟨heq, h⟩⟩)
    · exact absurd h (Char.lt_irrefl _)
    · exact .inl h
    · refine .inr ⟨?_, h⟩
      rw [heq] at htext hback
      have hle := mt htext.mpr (List.lt_irrefl _)
      have hge := mt hback.mpr (List.lt_irrefl _)
      omega
  · rintro (h | ⟨heq, h⟩)
    · exact .inr ⟨trivial, .inl h⟩
    · exact .inr ⟨trivial, .inr ⟨by rw [heq], h⟩⟩

/-- The texts of instants are comparable unless, within one second, the digits of one continue those of the other. -/
def Comparable (t r : Stamp) : Prop :=
  t.seconds = r.seconds → t.digits = r.digits ∨ (¬t.digits <+: r.digits ∧ ¬r.digits <+: t.digits)

instance (t r : Stamp) : Decidable (Comparable t r) := inferInstanceAs (Decidable (_ → _))

theorem lt_tail_iff (ht : ¬t.digits <+: r.digits) (hr : ¬r.digits <+: t.digits) :
    r.tail ++ ['"'] < t.tail ++ ['"'] ↔ r.fraction < t.fraction := by
  obtain ⟨c, p, q, x, y, hpq, hrd, htd⟩ := exists_difference hr ht
  have hr0 : r.digits ≠ [] := fun h => hr (h ▸ List.nil_prefix)
  have ht0 : t.digits ≠ [] := fun h => ht (h ▸ List.nil_prefix)
  rw [← padded_lt_iff r.fraction_lt t.fraction_lt, padded_fraction r, padded_fraction t]
  rw [tail, tail, if_neg hr0, if_neg ht0]
  simp only [hrd, htd, List.append_assoc, List.cons_append]
  rw [differ_lt_iff hpq, List.cons_lt_cons_iff, differ_lt_iff hpq]
  constructor
  · rintro (h | ⟨_, h⟩)
    · exact absurd h (Char.lt_irrefl _)
    · exact h
  · exact fun h => .inr ⟨rfl, h⟩

/-- Digits come before the `Z` that ends a text, so that the longer of two fractions has the smaller text. -/
theorem lt_tail_of_isPrefix (h : t.digits <+: r.digits) (hne : t.digits ≠ r.digits) :
    r.tail ++ ['"'] < t.tail ++ ['"'] := by
  obtain ⟨rest, hrest⟩ := h
  cases rest with
  | nil => exact absurd (by simpa using hrest) hne
  | cons c rest =>
      have hmem : c ∈ r.digits := hrest ▸ List.mem_append_right _ List.mem_cons_self
      have hc : c < 'Z' :=
        Char.lt_trans (digit_of_mem_padded r.fraction_lt ((List.rdropWhile_prefix _ _).subset hmem)).2 (by decide)
      rw [tail, tail, if_neg (List.ne_nil_of_mem hmem)]
      split_ifs with ht
      · exact List.cons_lt_cons_iff.mpr (.inl (by decide))
      · simp only [← hrest, List.append_assoc, List.cons_append]
        exact List.cons_lt_cons_iff.mpr (.inr ⟨rfl, (differ_lt_iff (Char.ne_of_lt hc)).mpr hc⟩)

theorem fraction_lt_of_isPrefix (h : t.digits <+: r.digits) (hne : t.digits ≠ r.digits) : t.fraction < r.fraction := by
  obtain ⟨rest, hrest⟩ := h
  have hpadded : padded 9 r.fraction = t.digits ++ (rest ++ List.replicate (9 - r.digits.length) '0') := by
    rw [← List.append_assoc, hrest]
    exact padded_fraction r
  have hlen := congrArg List.length hpadded
  have hlen' := congrArg List.length (padded_fraction t)
  rw [length_padded, List.length_append] at hlen hlen'
  rw [List.length_replicate] at hlen'
  rcases Nat.lt_trichotomy t.fraction r.fraction with hlt | heq | hgt
  · exact hlt
  · exact absurd (by rw [digits, heq, digits]) hne
  · rw [← padded_lt_iff r.fraction_lt t.fraction_lt, padded_fraction t, hpadded, append_lt_append_iff rfl] at hgt
    rcases hgt with hgt | ⟨_, hgt⟩
    · exact absurd hgt (List.lt_irrefl _)
    · refine absurd hgt ?_
      rw [show 9 - t.digits.length = (rest ++ List.replicate (9 - r.digits.length) '0').length by omega]
      refine not_lt_replicate fun c hc => (digit_of_mem_padded r.fraction_lt ?_).1
      rw [hpadded]
      exact List.mem_append_right _ hc

/-- Between texts that are not comparable, the order is the reverse of time. -/
theorem json_le_iff : textLe t.json r.json ↔ (t.nanoseconds ≤ r.nanoseconds ↔ Comparable t r) := by
  rw [textLe, lt_json_iff, ← not_lt, lt_iff]
  by_cases h : Comparable t r
  · simp only [h, iff_true]
    by_cases hsame : t.seconds = r.seconds
    · rcases h hsame with hdigits | ⟨ht, hr⟩
      · have htail : r.tail = t.tail := by simp only [tail, hdigits]
        simp [htail, fraction_eq_of_digits hdigits]
      · rw [lt_tail_iff ht hr]
    · simp [Ne.symm hsame]
  · simp only [h, iff_false, not_not]
    rw [Comparable] at h
    push Not at h
    obtain ⟨hsame, hne, hprefix⟩ := h
    simp only [hsame, lt_irrefl, false_or, true_and]
    by_cases ht : t.digits <+: r.digits
    · exact iff_of_false (not_not.mpr (lt_tail_of_isPrefix ht hne)) (fraction_lt_of_isPrefix ht hne).asymm
    · have hr := hprefix ht
      exact iff_of_true (List.lt_asymm (lt_tail_of_isPrefix hr hne.symm)) (fraction_lt_of_isPrefix hr hne.symm)

end Stamp

end Text

end OcppBridge.Outbox
