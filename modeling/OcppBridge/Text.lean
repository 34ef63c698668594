import Mathlib.Data.List.Basic
import Mathlib.Data.Nat.Digits.Defs

namespace OcppBridge.Text

def isWhitespace (c : Char) : Bool :=
  let n := c.toNat
  (9 ≤ n && n ≤ 13) || n == 0x20 || n == 0x85 || n == 0xA0 || n == 0x1680 ||
    (0x2000 ≤ n && n ≤ 0x200A) || n == 0x2028 || n == 0x2029 || n == 0x202F || n == 0x205F || n == 0x3000

def trim (cs : List Char) : List Char := ((cs.dropWhile isWhitespace).reverse.dropWhile isWhitespace).reverse

def isBlank (s : String) : Bool := s.toList.all isWhitespace

def stripPrefix (front s : String) : Option (List Char) :=
  if front.toList.isPrefixOf s.toList then some (s.toList.drop front.toList.length) else none

@[simp] theorem stripPrefix_append (front s : String) : stripPrefix front (front ++ s) = some s.toList := by
  simp [stripPrefix, String.toList_append]

def digits (cs : List Char) : Option Nat :=
  if cs ≠ [] ∧ cs.all Char.isDigit then some (Nat.ofDigitChars 10 cs 0) else none

/-- Decimal text of an unsigned integer below `bound`. -/
def parseUnsigned (bound : Nat) (cs : List Char) : Option Nat :=
  (match cs with
    | '+' :: cs => digits cs
    | cs => digits cs).filter (· < bound)

def parseSigned (cs : List Char) : Option Int :=
  match cs with
  | '-' :: cs => ((digits cs).filter (· ≤ 2 ^ 63)).map fun n => -(n : Int)
  | cs => (parseUnsigned (2 ^ 63) cs).map Int.ofNat

theorem digits_repr (n : Nat) : digits (toString n).toList = some n := by
  have hdigit : (Nat.toDigits 10 n).all Char.isDigit = true := by
    rw [List.all_eq_true]
    exact fun c hc => Nat.isDigit_of_mem_toDigits (by omega) (by omega) hc
  simp [digits, hdigit, Nat.toDigits_ne_nil]

theorem not_mem_repr {c : Char} (hc : c.isDigit = false) (n : Nat) : c ∉ (toString n).toList := by
  intro hmem
  have htext : (toString n).toList = Nat.toDigits 10 n := Nat.toList_repr
  rw [htext] at hmem
  have hdigit : c.isDigit = true := Nat.isDigit_of_mem_toDigits (by omega) (by omega) hmem
  rw [hc] at hdigit
  cases hdigit

theorem parseUnsigned_repr {bound n : Nat} (hn : n < bound) : parseUnsigned bound (toString n).toList = some n := by
  have hdigits := digits_repr n
  unfold parseUnsigned
  split
  · rename_i cs hcs
    exact absurd (hcs ▸ List.mem_cons_self) (not_mem_repr (c := '+') rfl n)
  · rw [hdigits]
    simp [hn]

theorem parseSigned_repr {n : Nat} (hn : n < 2 ^ 63) : parseSigned (toString n).toList = some (n : Int) := by
  unfold parseSigned
  split
  · rename_i cs hcs
    exact absurd (hcs ▸ List.mem_cons_self) (not_mem_repr (c := '-') rfl n)
  · rw [parseUnsigned_repr hn]
    rfl

theorem toList_toString_negSucc (n : Nat) : (toString (Int.negSucc n)).toList = '-' :: (toString (n + 1)).toList := by
  rw [show toString (Int.negSucc n) = "-" ++ toString (n + 1) from rfl, String.toList_append]
  rfl

theorem utf8ByteSize_ofList_le (cs : List Char) : (String.ofList cs).utf8ByteSize ≤ 4 * cs.length := by
  induction cs with
  | nil => exact Nat.le_refl _
  | cons c cs ih =>
      have hc := Char.utf8Size_le_four c
      rw [String.ofList_cons, String.utf8ByteSize_append, String.utf8ByteSize_singleton, List.length_cons]
      omega

variable {c : Char} {part : List Char}

theorem colon_not_mem_repr (n : Nat) : ':' ∉ (toString n).toList := not_mem_repr rfl n

/-- The parts between the occurrences of `c`. -/
def split (c : Char) : List Char → List (List Char)
  | [] => [[]]
  | d :: cs =>
      if d = c then [] :: split c cs
      else
        match split c cs with
        | [] => [[d]]
        | part :: parts => (d :: part) :: parts

theorem split_append (h : c ∉ part) (rest : List Char) : split c (part ++ c :: rest) = part :: split c rest := by
  induction part with
  | nil => simp [split]
  | cons d part ih =>
      rw [List.mem_cons, not_or] at h
      rw [List.cons_append, split, if_neg fun hd => h.1 hd.symm, ih h.2]

theorem split_last (h : c ∉ part) : split c part = [part] := by
  induction part with
  | nil => rfl
  | cons d part ih =>
      rw [List.mem_cons, not_or] at h
      rw [split, if_neg fun hd => h.1 hd.symm, ih h.2]

theorem split_ne_nil (c : Char) (cs : List Char) : split c cs ≠ [] := by
  cases cs with
  | nil => simp [split]
  | cons d cs =>
      rw [split]
      split_ifs
      · simp
      · split <;> simp

theorem split_eq_cons {cs : List Char} {parts : List (List Char)} (h : split c cs = part :: parts) :
    c ∉ part ∧ (cs = part ∧ parts = [] ∨ ∃ rest, cs = part ++ c :: rest ∧ split c rest = parts) := by
  induction cs generalizing part with
  | nil =>
      obtain ⟨rfl, rfl⟩ := List.cons.inj h
      exact ⟨List.not_mem_nil, .inl ⟨rfl, rfl⟩⟩
  | cons d cs ih =>
      rw [split] at h
      split_ifs at h with hd
      · obtain ⟨rfl, rfl⟩ := List.cons.inj h
        exact ⟨List.not_mem_nil, .inr ⟨cs, by rw [hd]; rfl, rfl⟩⟩
      · cases hsplit : split c cs with
        | nil => exact absurd hsplit (split_ne_nil c cs)
        | cons first others =>
            rw [hsplit] at h
            obtain ⟨rfl, rfl⟩ := List.cons.inj h
            obtain ⟨hfirst, hrest⟩ := ih hsplit
            have hmem : c ∉ d :: first := by
              rw [List.mem_cons, not_or]
              exact ⟨fun heq => hd heq.symm, hfirst⟩
            refine ⟨hmem, ?_⟩
            rcases hrest with ⟨rfl, rfl⟩ | ⟨rest, rfl, hparts⟩
            · exact .inl ⟨rfl, rfl⟩
            · exact .inr ⟨rest, rfl, hparts⟩

theorem trim_of_forall {cs : List Char} (h : ∀ c ∈ cs, isWhitespace c = false) : trim cs = cs := by
  have hdrop : ∀ ds : List Char, (∀ c ∈ ds, isWhitespace c = false) → ds.dropWhile isWhitespace = ds := by
    intro ds hds
    cases ds with
    | nil => rfl
    | cons d ds => rw [List.dropWhile_cons, if_neg (by simp [hds d])]
  rw [trim, hdrop cs h, hdrop cs.reverse (fun c hc => h c (List.mem_reverse.mp hc)), List.reverse_reverse]

theorem isWhitespace_of_isDigit (h : c.isDigit = true) : isWhitespace c = false := by
  have hrange : 48 ≤ c.toNat ∧ c.toNat ≤ 57 := by
    simp only [Char.isDigit, Bool.and_eq_true, decide_eq_true_eq] at h
    exact ⟨h.1, h.2⟩
  simp only [isWhitespace, Bool.or_eq_false_iff, Bool.and_eq_false_iff, decide_eq_false_iff_not, beq_eq_false_iff_ne]
  omega

end OcppBridge.Text
