import OcppBridge.Call.Json
import OcppBridge.Delimited
import Mathlib.Data.List.Infix

namespace OcppBridge.Call

/-- The JSON library: what the program relies on of its encoder and its parser. -/
structure Serde where
  print : Json → List Char
  parse : List Char → Option Json
  escape : Char → List Char
  /-- A printed value is read back, the members of its objects in any order. -/
  parse_print : ∀ {v : Json}, v.WellFormed → ∃ w, parse (print v) = some w ∧ Json.Reordered v w
  print_string : ∀ s : String, print (.string s) = '"' :: (s.toList.flatMap escape ++ ['"'])
  print_item : ∀ {items : List Json} {v : Json}, v ∈ items → print v <:+: print (.array items)
  print_member : ∀ {fields : List (String × Json)} {field : String × Json}, field ∈ fields →
    print (.string field.1) <:+: print (.object fields) ∧ print field.2 <:+: print (.object fields)
  print_object : ∀ fields : List (String × Json), (print (.object fields)).head? = some '\x7b'
  escape_visible : ∀ c : Char, 32 ≤ c.toNat → c.toNat < 128 →
    escape c = if c = '"' ∨ c = '\\' then ['\\', c] else [c]

namespace Serde

variable (serde : Serde) {v w : Json}

theorem sortJson_of_print_eq (hv : v.WellFormed) (hw : w.WellFormed) (h : serde.print v = serde.print w) :
    v.sortJson = w.sortJson := by
  obtain ⟨x, hx, hreordered⟩ := serde.parse_print hv
  obtain ⟨y, hy, hreordered'⟩ := serde.parse_print hw
  rw [h, hy] at hx
  rw [hreordered.sortJson_eq hv, hreordered'.sortJson_eq hw, Option.some.inj hx]

theorem print_sortJson_iff (hv : v.WellFormed) (hw : w.WellFormed) :
    serde.print v.sortJson = serde.print w.sortJson ↔ v.sortJson = w.sortJson := by
  constructor
  · intro h
    have hsort := serde.sortJson_of_print_eq (Json.sortJson_wellFormed hv) (Json.sortJson_wellFormed hw) h
    rwa [Json.sortJson_sortJson hv, Json.sortJson_sortJson hw] at hsort
  · intro h
    rw [h]

/-- What the parser makes of a printed value. -/
def reread (v : Json) : Json := (serde.parse (serde.print v)).getD v

theorem reordered_reread (hv : v.WellFormed) : Json.Reordered v (serde.reread v) := by
  obtain ⟨w, hparse, hreordered⟩ := serde.parse_print hv
  rwa [reread, hparse]

end Serde

namespace Json

open Delimited

section Compact

mutual

/-- The compact format. -/
def print : Json → List Char
  | .null => "null".toList
  | .bool true => "true".toList
  | .bool false => "false".toList
  | .natural n => Nat.toDigits 10 n
  | .number text => text.toList
  | .string value => quote value.toList
  | .array items => '[' :: joined ',' ']' id (printItems items)
  | .object fields => '\x7b' :: joined ',' '\x7d' id (printFields fields)

def printItems : List Json → List (List Char)
  | [] => []
  | v :: vs => v.print :: printItems vs

def printFields : List (String × Json) → List (List Char)
  | [] => []
  | (k, v) :: rest => (quote k.toList ++ ':' :: v.print) :: printFields rest

end

theorem printItems_eq_map (items : List Json) : printItems items = items.map print := by
  induction items with
  | nil => rfl
  | cons v vs ih => rw [printItems, ih, List.map_cons]

theorem printFields_eq_map (fields : List (String × Json)) :
    printFields fields = fields.map fun field => quote field.1.toList ++ ':' :: field.2.print := by
  induction fields with
  | nil => rfl
  | cons field rest ih => rw [printFields, ih, List.map_cons]

def Stop (x : List Char) : Prop := ∀ c ∈ x.head?, c ∈ [',', ']', '\x7d']

theorem stop_nil : Stop [] := by
  intro c hc
  cases hc

theorem stop_cons {c : Char} (h : c ∈ [',', ']', '\x7d']) (x : List Char) : Stop (c :: x) := by
  intro d hd
  cases hd
  exact h

inductive Kind
  | null
  | true
  | false
  | numeral
  | string
  | array
  | object
  deriving DecidableEq

def kind : Json → Kind
  | .null => .null
  | .bool b => bif b then .true else .false
  | .natural _ => .numeral
  | .number _ => .numeral
  | .string _ => .string
  | .array _ => .array
  | .object _ => .object

def Kind.announced (c : Char) : Option Kind :=
  if isNumeral c then some .numeral
  else [('n', null), ('t', true), ('f', false), ('"', string), ('[', array), ('\x7b', object)].lookup c

theorem print_natural (n : Nat) : ∀ c ∈ Nat.toDigits 10 n, isNumeral c = true := by
  intro c hc
  have hdigit := Nat.isDigit_of_mem_toDigits (by decide) (by decide) hc
  simp [isNumeral, hdigit]

theorem announced_run {text : List Char} (hne : text ≠ []) (h : ∀ c ∈ text, isNumeral c = true) :
    ∃ c x, text = c :: x ∧ Kind.announced c = some .numeral := by
  cases text with
  | nil => exact absurd rfl hne
  | cons c x => exact ⟨c, x, rfl, by rw [Kind.announced, if_pos (h c List.mem_cons_self)]⟩

variable {v : Json}

theorem print_announced (h : v.WellFormed) : ∃ c x, v.print = c :: x ∧ Kind.announced c = some v.kind := by
  cases v with
  | null => exact ⟨'n', _, by rw [print]; rfl, by decide⟩
  | bool b =>
      cases b with
      | true => exact ⟨'t', _, by rw [print]; rfl, by decide⟩
      | false => exact ⟨'f', _, by rw [print]; rfl, by decide⟩
  | natural n =>
      rw [print]
      exact announced_run Nat.toDigits_ne_nil (print_natural n)
  | number text =>
      rw [WellFormed] at h
      obtain ⟨hall, ⟨c, hc, _⟩, _⟩ := h
      rw [print]
      exact announced_run (List.ne_nil_of_mem hc) hall
  | string value => exact ⟨'"', _, by rw [print]; rfl, rfl⟩
  | array items => exact ⟨'[', _, by rw [print], rfl⟩
  | object fields => exact ⟨'\x7b', _, by rw [print], rfl⟩

theorem kind_eq {w : Json} (hv : v.WellFormed) (hw : w.WellFormed) {x y : List Char} (h : v.print ++ x = w.print ++ y) :
    v.kind = w.kind := by
  obtain ⟨c, z, hc, hkind⟩ := print_announced hv
  obtain ⟨d, z', hd, hkind'⟩ := print_announced hw
  rw [hc, hd] at h
  obtain ⟨rfl, _⟩ := List.cons.inj h
  exact Option.some.inj (hkind.symm.trans hkind')

theorem print_ne_closing (h : v.WellFormed) {c : Char} (hc : c ∈ [',', ']', '\x7d']) (x y : List Char) :
    v.print ++ x ≠ c :: y := by
  intro heq
  obtain ⟨d, z, hd, hkind⟩ := print_announced h
  rw [hd] at heq
  obtain ⟨rfl, _⟩ := List.cons.inj heq
  have hnone : Kind.announced d = none := by
    simp only [List.mem_cons, List.not_mem_nil, or_false] at hc
    rcases hc with rfl | rfl | rfl
    all_goals rfl
  cases hnone.symm.trans hkind

theorem stop_not_numeral {x : List Char} (h : Stop x) : ∀ c ∈ x.head?, ¬isNumeral c = true := by
  have hall : ([',', ']', '\x7d'].all fun c => !isNumeral c) = true := by decide
  intro c hc
  exact (Bool.not_eq_true' _).mp (List.all_eq_true.mp hall c (h c hc)) ▸ Bool.false_ne_true

theorem numeral_append_inj {a b x y : List Char} (ha : ∀ c ∈ a, isNumeral c = true) (hb : ∀ c ∈ b, isNumeral c = true)
    (hx : Stop x) (hy : Stop y) (h : a ++ x = b ++ y) : a = b ∧ x = y :=
  run_append_inj ha hb (stop_not_numeral hx) (stop_not_numeral hy) h

theorem natural_ne_number {n : Nat} {text : List Char} (htext : ∃ c ∈ text, c.isDigit = false) :
    Nat.toDigits 10 n ≠ text := by
  rintro rfl
  obtain ⟨c, hc, hdigit⟩ := htext
  cases hdigit.symm.trans (Nat.isDigit_of_mem_toDigits (by decide) (by decide) hc)

theorem toDigits_inj {m n : Nat} (h : Nat.toDigits 10 m = Nat.toDigits 10 n) : m = n := by
  have hm := Nat.ofDigitChars_toDigits (b := 10) (n := m) (by decide) (by decide)
  rw [h, Nat.ofDigitChars_toDigits (by decide) (by decide)] at hm
  exact hm.symm

theorem member_endsAt {field : String × Json} (h : EndsAt Stop WellFormed print field.2) :
    EndsAt Stop (fun field : String × Json => field.2.WellFormed)
      (fun field => quote field.1.toList ++ ':' :: field.2.print) field := by
  intro other x y hgood hx hy heq
  simp only [List.append_assoc, List.cons_append] at heq
  obtain ⟨hkey, hrest⟩ := selfDelimiting_quote heq
  obtain ⟨hvalue, hxy⟩ := h hgood hx hy (List.cons.inj hrest).2
  exact ⟨Prod.ext (String.toList_inj.mp hkey) hvalue, hxy⟩

theorem print_endsAt (hv : v.WellFormed) : EndsAt Stop WellFormed print v := by
  induction v using induct with
  | null =>
      intro w x y hw _ _ h
      have hkind := kind_eq hv hw h
      cases w with
      | null => exact ⟨rfl, List.append_cancel_left h⟩
      | bool b => cases b <;> cases hkind
      | _ => cases hkind
  | bool b =>
      intro w x y hw _ _ h
      have hkind := kind_eq hv hw h
      cases w with
      | bool b' =>
          have hb : b = b' := by cases b <;> cases b' <;> first | rfl | cases hkind
          subst hb
          exact ⟨rfl, List.append_cancel_left h⟩
      | _ => cases b <;> cases hkind
  | natural n =>
      intro w x y hw hx hy h
      have hkind := kind_eq hv hw h
      cases w with
      | natural m =>
          obtain ⟨hdigits, hxy⟩ :=
            numeral_append_inj (print_natural n) (print_natural m) hx hy (by rwa [print, print] at h)
          exact ⟨by rw [toDigits_inj hdigits], hxy⟩
      | number text =>
          rw [WellFormed] at hw
          obtain ⟨hdigits, _⟩ := numeral_append_inj (print_natural n) hw.1 hx hy (by rwa [print, print] at h)
          exact absurd hdigits (natural_ne_number hw.2.1)
      | bool b => cases b <;> cases hkind
      | _ => cases hkind
  | number text =>
      intro w x y hw hx hy h
      have hkind := kind_eq hv hw h
      rw [WellFormed] at hv
      cases w with
      | natural m =>
          obtain ⟨hdigits, _⟩ := numeral_append_inj hv.1 (print_natural m) hx hy (by rwa [print, print] at h)
          exact absurd hdigits.symm (natural_ne_number hv.2.1)
      | number text' =>
          rw [WellFormed] at hw
          obtain ⟨htext, hxy⟩ := numeral_append_inj hv.1 hw.1 hx hy (by rwa [print, print] at h)
          exact ⟨by rw [String.toList_inj.mp htext], hxy⟩
      | bool b => cases b <;> cases hkind
      | _ => cases hkind
  | string value =>
      intro w x y hw _ _ h
      have hkind := kind_eq hv hw h
      cases w with
      | string value' =>
          rw [print, print] at h
          obtain ⟨hvalue, hxy⟩ := selfDelimiting_quote h
          exact ⟨by rw [String.toList_inj.mp hvalue], hxy⟩
      | bool b => cases b <;> cases hkind
      | _ => cases hkind
  | array items ih =>
      intro w x y hw _ _ h
      have hkind := kind_eq hv hw h
      rw [WellFormed, wellFormedItems_iff] at hv
      cases w with
      | array items' =>
          rw [WellFormed, wellFormedItems_iff] at hw
          rw [print, print, printItems_eq_map, printItems_eq_map, joined_map, joined_map] at h
          obtain ⟨rfl, hxy⟩ := joined_append_inj (fun c z hc => stop_cons (by rcases hc with rfl | rfl <;> decide) z)
            (by decide) (fun v hmem => ⟨hv v hmem, ih v hmem (hv v hmem)⟩) hw
            (fun v hgood => print_ne_closing hgood (by decide)) (List.cons.inj h).2
          exact ⟨rfl, hxy⟩
      | bool b => cases b <;> cases hkind
      | _ => cases hkind
  | object fields ih =>
      intro w x y hw _ _ h
      have hkind := kind_eq hv hw h
      rw [WellFormed, wellFormedFields_iff] at hv
      cases w with
      | object fields' =>
          rw [WellFormed, wellFormedFields_iff] at hw
          rw [print, print, printFields_eq_map, printFields_eq_map, joined_map, joined_map] at h
          have hmembers : ∀ field ∈ fields, field.2.WellFormed ∧
              EndsAt Stop (fun field : String × Json => field.2.WellFormed) _ field :=
            fun field hmem => ⟨hv.2 field hmem, member_endsAt (ih field hmem (hv.2 field hmem))⟩
          obtain ⟨rfl, hxy⟩ := joined_append_inj
            (fun c z hc => stop_cons (by rcases hc with rfl | rfl <;> decide) z) (by decide) hmembers hw.2
            (fun field _ x y heq => absurd (List.cons.inj heq).1 (by decide)) (List.cons.inj h).2
          exact ⟨rfl, hxy⟩
      | bool b => cases b <;> cases hkind
      | _ => cases hkind

theorem print_inj {w : Json} (hv : v.WellFormed) (hw : w.WellFormed) (h : v.print = w.print) : v = w := by
  have happ : v.print ++ [] = w.print ++ [] := by rw [h]
  exact (print_endsAt hv hw stop_nil stop_nil happ).1

theorem escape_visible (c : Char) (hlow : 32 ≤ c.toNat) (hhigh : c.toNat < 128) :
    escape c = if c = '"' ∨ c = '\\' then ['\\', c] else [c] := by
  unfold escape
  by_cases hquote : c = '"'
  · simp [hquote]
  by_cases hbackslash : c = '\\'
  · simp [hbackslash]
  rw [if_neg hquote, if_neg hbackslash, if_neg (not_or.mpr ⟨hquote, hbackslash⟩)]
  repeat rw [if_neg (by omega)]

theorem print_member {fields : List (String × Json)} {field : String × Json} (h : field ∈ fields) :
    (string field.1).print <:+: (object fields).print ∧ field.2.print <:+: (object fields).print := by
  have hmember : quote field.1.toList ++ ':' :: field.2.print <:+: (object fields).print := by
    rw [print, printFields_eq_map, joined_map]
    exact (infix_joined (f := fun field => id (quote field.1.toList ++ ':' :: field.2.print)) h).trans
      (List.suffix_cons _ _).isInfix
  constructor
  · rw [print]
    exact (List.prefix_append _ _).isInfix.trans hmember
  · exact ((List.suffix_cons _ _).trans (List.suffix_append _ _)).isInfix.trans hmember

open Classical in
noncomputable def parse (text : List Char) : Option Json :=
  if h : ∃ v, WellFormed v ∧ v.print = text then some h.choose else none

theorem parse_print (hv : v.WellFormed) : parse v.print = some v := by
  have hex : ∃ w, WellFormed w ∧ w.print = v.print := ⟨v, hv, rfl⟩
  rw [parse, dif_pos hex, print_inj hex.choose_spec.1 hv hex.choose_spec.2]

/-- The compact format has the properties that the program relies on. -/
noncomputable def compact : Serde where
  print := print
  parse := parse
  escape := escape
  parse_print {v} hv := ⟨v, parse_print hv, .refl⟩
  print_string s := by rw [print, quote]
  print_item {items v} hv := by
    rw [print, printItems_eq_map, joined_map]
    exact (infix_joined (f := fun v => id (print v)) hv).trans (List.suffix_cons _ _).isInfix
  print_member := print_member
  print_object fields := by rw [print]; rfl
  escape_visible := escape_visible

end Compact

end Json

end OcppBridge.Call
