import Mathlib.Data.List.Basic

namespace OcppBridge.Delimited

variable {α β γ : Type} {f : α → List γ} {g : β → List γ}

/-- Texts that end by themselves: whatever follows one of them, the value and the rest are determined. -/
def SelfDelimiting (f : α → List γ) : Prop := ∀ ⦃a b : α⦄ ⦃x y : List γ⦄, f a ++ x = f b ++ y → a = b ∧ x = y

namespace SelfDelimiting

theorem flatMap_injective (hf : SelfDelimiting f) (hne : ∀ a, f a ≠ []) :
    Function.Injective fun as : List α => as.flatMap f := by
  intro as
  induction as with
  | nil =>
      intro bs h
      cases bs with
      | nil => rfl
      | cons b bs => exact absurd (List.append_eq_nil_iff.mp h.symm).1 (hne b)
  | cons a as ih =>
      intro bs h
      cases bs with
      | nil => exact absurd (List.append_eq_nil_iff.mp h).1 (hne a)
      | cons b bs =>
          obtain ⟨rfl, hrest⟩ := hf h
          rw [ih hrest]

end SelfDelimiting

section Sequences

variable (separator closing : γ)

def others (f : α → List γ) : List α → List γ
  | [] => [closing]
  | a :: as => separator :: (f a ++ others f as)

def joined (f : α → List γ) : List α → List γ
  | [] => [closing]
  | a :: as => f a ++ others separator closing f as

variable {separator closing}

theorem others_map (g : β → α) (bs : List β) :
    others separator closing f (bs.map g) = others separator closing (fun b => f (g b)) bs := by
  induction bs with
  | nil => rfl
  | cons b bs ih => rw [List.map_cons, others, others, ih]

theorem joined_map (g : β → α) (bs : List β) :
    joined separator closing f (bs.map g) = joined separator closing (fun b => f (g b)) bs := by
  cases bs with
  | nil => rfl
  | cons b bs => rw [List.map_cons, joined, joined, others_map]

theorem infix_joined {a : α} {as : List α} (h : a ∈ as) : f a <:+: joined separator closing f as := by
  have hothers : ∀ bs : List α, a ∈ bs → f a <:+: others separator closing f bs := by
    intro bs
    induction bs with
    | nil => exact fun hmem => absurd hmem List.not_mem_nil
    | cons b bs ih =>
        intro hmem
        rw [others]
        rcases List.mem_cons.mp hmem with rfl | hmem
        · exact ⟨[separator], _, rfl⟩
        · exact (ih hmem).trans (((List.suffix_append _ _).trans (List.suffix_cons _ _)).isInfix)
  cases as with
  | nil => exact absurd h List.not_mem_nil
  | cons b bs =>
      rw [joined]
      rcases List.mem_cons.mp h with rfl | h
      · exact (List.prefix_append _ _).isInfix
      · exact (hothers bs h).trans (List.suffix_append _ _).isInfix

/-- The text of `a` ends where a text that meets `stop` follows, among the texts of the values that meet `good`. -/
def EndsAt (stop : List γ → Prop) (good : α → Prop) (f : α → List γ) (a : α) : Prop :=
  ∀ ⦃b : α⦄ ⦃x y : List γ⦄, good b → stop x → stop y → f a ++ x = f b ++ y → a = b ∧ x = y

section Ends

variable {stop : List γ → Prop} {good : α → Prop} (hstop : ∀ c x, c = separator ∨ c = closing → stop (c :: x))
  (hmarks : separator ≠ closing)

include hstop in
theorem stop_others (as : List α) (x : List γ) : stop (others separator closing f as ++ x) := by
  cases as with
  | nil => exact hstop _ _ (.inr rfl)
  | cons a as => exact hstop _ _ (.inl rfl)

include hstop hmarks

theorem cons_append_inj {a b : α} {as bs : List α} (has : ∀ c ∈ a :: as, EndsAt stop good f c)
    (hbs : ∀ c ∈ b :: bs, good c) {x y : List γ}
    (h : f a ++ (others separator closing f as ++ x) = f b ++ (others separator closing f bs ++ y)) :
    a :: as = b :: bs ∧ x = y := by
  induction as generalizing a b bs with
  | nil =>
      obtain ⟨rfl, hrest⟩ := has a List.mem_cons_self (hbs b List.mem_cons_self) (stop_others hstop _ x)
        (stop_others hstop bs y) h
      cases bs with
      | nil => exact ⟨rfl, (List.cons.inj hrest).2⟩
      | cons c bs => exact absurd (List.cons.inj hrest).1.symm hmarks
  | cons d as ih =>
      obtain ⟨rfl, hrest⟩ := has a List.mem_cons_self (hbs b List.mem_cons_self) (stop_others hstop _ x)
        (stop_others hstop bs y) h
      cases bs with
      | nil => exact absurd (List.cons.inj hrest).1 hmarks
      | cons c bs =>
          simp only [others, List.cons_append, List.append_assoc, List.cons.injEq, true_and] at hrest
          obtain ⟨heq, hxy⟩ := ih (fun e he => has e (List.mem_cons_of_mem _ he))
            (fun e he => hbs e (List.mem_cons_of_mem _ he)) hrest
          exact ⟨congrArg _ heq, hxy⟩

theorem joined_append_inj {as bs : List α} (has : ∀ a ∈ as, good a ∧ EndsAt stop good f a) (hbs : ∀ b ∈ bs, good b)
    (hclosing : ∀ a, good a → ∀ x y, f a ++ x ≠ closing :: y) {x y : List γ}
    (h : joined separator closing f as ++ x = joined separator closing f bs ++ y) : as = bs ∧ x = y := by
  cases as with
  | nil =>
      cases bs with
      | nil => exact ⟨rfl, (List.cons.inj h).2⟩
      | cons b bs =>
          simp only [joined, List.append_assoc] at h
          exact absurd h.symm (hclosing b (hbs b List.mem_cons_self) _ _)
  | cons a as =>
      cases bs with
      | nil =>
          simp only [joined, List.append_assoc] at h
          exact absurd h (hclosing a (has a List.mem_cons_self).1 _ _)
      | cons b bs =>
          simp only [joined, List.append_assoc] at h
          exact cons_append_inj hstop hmarks (fun c hc => (has c hc).2) hbs h

end Ends

end Sequences

theorem run_append_inj {p : γ → Prop} {a b x y : List γ} (ha : ∀ c ∈ a, p c) (hb : ∀ c ∈ b, p c)
    (hx : ∀ c ∈ x.head?, ¬p c) (hy : ∀ c ∈ y.head?, ¬p c) (h : a ++ x = b ++ y) : a = b ∧ x = y := by
  induction a generalizing b with
  | nil =>
      cases b with
      | nil => exact ⟨rfl, h⟩
      | cons d b =>
          rw [List.nil_append, List.cons_append] at h
          exact absurd (hb d List.mem_cons_self) (hx d (by rw [h]; rfl))
  | cons c a ih =>
      cases b with
      | nil =>
          rw [List.nil_append, List.cons_append] at h
          exact absurd (ha c List.mem_cons_self) (hy c (by rw [← h]; rfl))
      | cons d b =>
          obtain ⟨rfl, hrest⟩ := List.cons.inj h
          obtain ⟨rfl, hxy⟩ := ih (fun e he => ha e (List.mem_cons_of_mem _ he))
            (fun e he => hb e (List.mem_cons_of_mem _ he)) hrest
          exact ⟨rfl, hxy⟩

section Hexadecimal

def hexDigit (n : Nat) : Char := if n < 10 then Char.ofNat (48 + n) else Char.ofNat (87 + n)

def hexByte (byte : UInt8) : List Char := [hexDigit (byte.toNat / 16), hexDigit (byte.toNat % 16)]

theorem halves (b : UInt8) : b.toNat / 16 < 16 ∧ b.toNat % 16 < 16 := by
  have := b.toNat_lt
  omega

theorem halves_injective {digit : Nat → Char} (hdigit : ∀ m < 16, ∀ n < 16, digit m = digit n → m = n) {a b : UInt8}
    (hhigh : digit (a.toNat / 16) = digit (b.toNat / 16)) (hlow : digit (a.toNat % 16) = digit (b.toNat % 16)) :
    a = b := by
  have hh := hdigit _ (halves a).1 _ (halves b).1 hhigh
  have hl := hdigit _ (halves a).2 _ (halves b).2 hlow
  apply UInt8.toNat_inj.mp
  omega

theorem hexDigit_injective : ∀ m < 16, ∀ n < 16, hexDigit m = hexDigit n → m = n := by decide

theorem selfDelimiting_hexByte : SelfDelimiting hexByte := by
  intro a b x y h
  simp only [hexByte, List.cons_append, List.nil_append, List.cons.injEq] at h
  exact ⟨halves_injective hexDigit_injective h.1 h.2.1, h.2.2⟩

theorem hexBytes_injective : Function.Injective fun bytes : List UInt8 => bytes.flatMap hexByte :=
  selfDelimiting_hexByte.flatMap_injective fun _ => List.cons_ne_nil _ _

end Hexadecimal

section Literals

def escape (c : Char) : List Char :=
  if c = '"' then ['\\', '"']
  else if c = '\\' then ['\\', '\\']
  else if c.toNat = 8 then ['\\', 'b']
  else if c.toNat = 9 then ['\\', 't']
  else if c.toNat = 10 then ['\\', 'n']
  else if c.toNat = 12 then ['\\', 'f']
  else if c.toNat = 13 then ['\\', 'r']
  else if c.toNat < 32 then ['\\', 'u', '0', '0', hexDigit (c.toNat / 16), hexDigit (c.toNat % 16)]
  else [c]

def quote (s : List Char) : List Char := '"' :: (s.flatMap escape ++ ['"'])

def escaped : List Char := ['"', '\\'] ++ (List.range 32).map Char.ofNat

theorem escape_cases (c : Char) : c ∈ escaped ∨ escape c = [c] ∧ c ≠ '"' ∧ c ≠ '\\' := by
  by_cases hquote : c = '"'
  · exact .inl (by simp [escaped, hquote])
  by_cases hbackslash : c = '\\'
  · exact .inl (by simp [escaped, hbackslash])
  by_cases hcontrol : c.toNat < 32
  · refine .inl (List.mem_append_right _ (List.mem_map.mpr ⟨c.toNat, by simpa using hcontrol, ?_⟩))
    exact Char.ofNat_toNat c
  · refine .inr ⟨?_, hquote, hbackslash⟩
    unfold escape
    rw [if_neg hquote, if_neg hbackslash, if_neg (by omega), if_neg (by omega), if_neg (by omega),
      if_neg (by omega), if_neg (by omega), if_neg hcontrol]

theorem escaped_distinct : ∀ c ∈ escaped, ∀ d ∈ escaped, escape c <+: escape d → c = d := by
  have hall : (escaped.all fun c => escaped.all fun d => decide (escape c <+: escape d → c = d)) = true := by
    decide +kernel
  intro c hc d hd
  exact of_decide_eq_true (List.all_eq_true.mp (List.all_eq_true.mp hall c hc) d hd)

theorem escaped_backslash : ∀ c ∈ escaped, ∃ x, escape c = '\\' :: x := by
  have hall : (escaped.all fun c => decide ((escape c).head? = some '\\')) = true := by decide +kernel
  intro c hc
  exact List.head?_eq_some_iff.mp (of_decide_eq_true (List.all_eq_true.mp hall c hc))

theorem selfDelimiting_escape : SelfDelimiting escape := by
  intro c d x y h
  rcases escape_cases c with hc | ⟨hc, _, hslash⟩ <;> rcases escape_cases d with hd | ⟨hd, _, hslash'⟩
  · have hcd : c = d := by
      rcases List.prefix_or_prefix_of_prefix (List.prefix_append (escape c) x)
        (h ▸ List.prefix_append (escape d) y) with hp | hp
      · exact escaped_distinct c hc d hd hp
      · exact (escaped_distinct d hd c hc hp).symm
    subst hcd
    exact ⟨rfl, List.append_cancel_left h⟩
  · obtain ⟨z, hz⟩ := escaped_backslash c hc
    rw [hz, hd] at h
    exact absurd (List.cons.inj h).1.symm hslash'
  · obtain ⟨z, hz⟩ := escaped_backslash d hd
    rw [hz, hc] at h
    exact absurd (List.cons.inj h).1 hslash
  · rw [hc, hd] at h
    exact ⟨(List.cons.inj h).1, (List.cons.inj h).2⟩

theorem escape_ne_quote (c : Char) (x y : List Char) : escape c ++ x ≠ '"' :: y := by
  intro h
  rcases escape_cases c with hc | ⟨hc, hquote, _⟩
  · obtain ⟨z, hz⟩ := escaped_backslash c hc
    rw [hz] at h
    exact absurd (List.cons.inj h).1 (by decide)
  · rw [hc] at h
    exact hquote (List.cons.inj h).1

theorem selfDelimiting_quote : SelfDelimiting quote := by
  intro s
  induction s with
  | nil =>
      intro t x y h
      cases t with
      | nil => exact ⟨rfl, by simpa [quote] using h⟩
      | cons d t =>
          simp only [quote, List.flatMap_cons, List.flatMap_nil, List.cons_append, List.append_assoc,
            List.nil_append, List.cons.injEq, true_and] at h
          exact absurd h.symm (escape_ne_quote d _ _)
  | cons c s ih =>
      intro t x y h
      cases t with
      | nil =>
          simp only [quote, List.flatMap_cons, List.flatMap_nil, List.cons_append, List.append_assoc,
            List.nil_append, List.cons.injEq, true_and] at h
          exact absurd h (escape_ne_quote c _ _)
      | cons d t =>
          simp only [quote, List.flatMap_cons, List.cons_append, List.append_assoc, List.cons.injEq, true_and] at h
          obtain ⟨rfl, hrest⟩ := selfDelimiting_escape h
          have hih : quote s ++ x = quote t ++ y := by
            simpa only [quote, List.cons_append, List.append_assoc, List.cons.injEq, true_and] using hrest
          obtain ⟨rfl, hxy⟩ := ih hih
          exact ⟨rfl, hxy⟩

end Literals

end OcppBridge.Delimited
