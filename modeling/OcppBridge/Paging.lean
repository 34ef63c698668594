import Mathlib.Data.List.Sort
import Mathlib.Order.Basic
import Mathlib.Order.WithBot

namespace OcppBridge.Paging

/-! Reading a table page by page in the order of a key. -/

variable {α κ : Type} [LinearOrder κ] {key : α → κ} {rows : List α} {a : α} {k : κ}

def descending (key : α → κ) (rows : List α) : List α := rows.insertionSort fun a b => key b ≤ key a

/-- The rows that come after the position `k`. -/
def below (key : α → κ) (k : κ) (rows : List α) : List α := descending key (rows.filter fun a => key a < k)

theorem descending_perm : (descending key rows).Perm rows := List.perm_insertionSort _ rows

@[simp] theorem mem_descending : a ∈ descending key rows ↔ a ∈ rows := descending_perm.mem_iff

@[simp] theorem mem_below : a ∈ below key k rows ↔ a ∈ rows ∧ key a < k := by
  simp [below]

section

variable (hk : (rows.map key).Nodup)

include hk

theorem descending_pairwise : (descending key rows).Pairwise fun a b => key b < key a := by
  have hsorted : (descending key rows).Pairwise fun a b => key b ≤ key a := by
    have : Std.Total fun a b : α => key b ≤ key a := ⟨fun a b => le_total (key b) (key a)⟩
    have : IsTrans α fun a b => key b ≤ key a := ⟨fun _ _ _ hab hbc => le_trans hbc hab⟩
    exact List.pairwise_insertionSort _ rows
  have hdistinct : (descending key rows).Pairwise fun a b => key a ≠ key b := by
    have hnodup : ((descending key rows).map key).Nodup := (descending_perm.map key).nodup_iff.mpr hk
    exact List.pairwise_map.mp hnodup
  refine hsorted.imp₂ ?_ hdistinct
  exact fun a b hle hne => lt_of_le_of_ne hle (Ne.symm hne)

theorem below_pairwise : (below key k rows).Pairwise fun a b => key b < key a :=
  descending_pairwise (hk.sublist (List.filter_sublist.map key))

theorem below_below {k' : κ} (h : k' ≤ k) :
    below key k' rows = (below key k rows).filter fun a => key a < k' := by
  refine List.Perm.eq_of_pairwise ?_ (below_pairwise hk) ((below_pairwise hk).sublist List.filter_sublist) ?_
  · exact fun a b _ _ hab hba => absurd hab hba.asymm
  · refine descending_perm.trans ?_
    refine List.Perm.trans ?_ (descending_perm.filter _).symm
    rw [List.filter_filter]
    refine List.Perm.of_eq (List.filter_congr fun a _ => ?_)
    rw [← Bool.decide_and, decide_eq_decide]
    exact ⟨fun hlt => ⟨hlt, lt_of_lt_of_le hlt h⟩, fun hlt => hlt.1⟩

theorem below_last {front back : List α} (h : below key k rows = front ++ a :: back) :
    below key (key a) rows = back := by
  have hsorted := below_pairwise (k := k) hk
  have ha : key a < k := (mem_below.mp (h ▸ List.mem_append_right front List.mem_cons_self : a ∈ below key k rows)).2
  rw [h, List.pairwise_append, List.pairwise_cons] at hsorted
  obtain ⟨_, ⟨hback, _⟩, hfront⟩ := hsorted
  rw [below_below hk ha.le, h, List.filter_append, List.filter_cons_of_neg (by simp)]
  have hnone : front.filter (fun b => decide (key b < key a)) = [] := by
    rw [List.filter_eq_nil_iff]
    intro b hb hlt
    exact absurd (hfront b hb a List.mem_cons_self) (of_decide_eq_true hlt).asymm
  have hall : back.filter (fun b => decide (key b < key a)) = back := by
    rw [List.filter_eq_self]
    exact fun b hb => decide_eq_true (hback b hb)
  rw [hnone, hall, List.nil_append]

theorem below_congr {rows' : List α} (hk' : (rows'.map key).Nodup)
    (h : ∀ a, key a < k → (a ∈ rows ↔ a ∈ rows')) : below key k rows = below key k rows' := by
  refine List.Perm.eq_of_pairwise ?_ (below_pairwise hk) (below_pairwise hk') ?_
  · exact fun a b _ _ hab hba => absurd hab hba.asymm
  · have hdistinct {l : List α} (hl : (l.map key).Nodup) : (below key k l).Nodup :=
      descending_perm.nodup_iff.mpr (hl.of_map.filter _)
    refine (List.perm_ext_iff_of_nodup (hdistinct hk) (hdistinct hk')).mpr fun a => ?_
    rw [mem_below, mem_below]
    exact ⟨fun ha => ⟨(h a ha.2).mp ha.1, ha.2⟩, fun ha => ⟨(h a ha.2).mpr ha.1, ha.2⟩⟩

end

section Ascending

open OrderDual

def rising (key : α → κ) (a : α) : (WithBot κ)ᵒᵈ := toDual (key a : WithBot κ)

def start (after : Option κ) : (WithBot κ)ᵒᵈ := toDual (after.elim ⊥ fun k => (k : WithBot κ))

def above (key : α → κ) (after : Option κ) (rows : List α) : List α := below (rising key) (start after) rows

variable {after : Option κ}

theorem rising_lt_start : rising key a < start after ↔ ∀ k ∈ after, k < key a := by
  cases after with
  | none => exact ⟨fun _ k hk => absurd hk (Option.not_mem_none k), fun _ => WithBot.bot_lt_coe (key a)⟩
  | some k => simp [rising, start]

@[simp] theorem mem_above : a ∈ above key after rows ↔ a ∈ rows ∧ ∀ k ∈ after, k < key a := by
  rw [above, mem_below, rising_lt_start]

omit [LinearOrder κ] in
theorem nodup_rising (hk : (rows.map key).Nodup) : (rows.map (rising key)).Nodup := by
  have hmap : rows.map (rising key) = (rows.map key).map (toDual ∘ WithBot.some) := by
    rw [List.map_map]
    rfl
  rw [hmap]
  exact hk.map (toDual.injective.comp WithBot.coe_injective)

theorem above_pairwise (hk : (rows.map key).Nodup) : (above key after rows).Pairwise fun a b => key a < key b := by
  refine (below_pairwise (nodup_rising hk)).imp fun hlt => ?_
  exact WithBot.coe_lt_coe.mp (toDual_lt_toDual.mp hlt)

theorem above_none_perm : (above key none rows).Perm rows := by
  refine descending_perm.trans (List.Perm.of_eq (List.filter_eq_self.mpr fun a _ => decide_eq_true ?_))
  exact rising_lt_start.mpr fun k hk => absurd hk (Option.not_mem_none k)

theorem above_last (hk : (rows.map key).Nodup) {front back : List α} (h : above key after rows = front ++ a :: back) :
    above key (some (key a)) rows = back :=
  below_last (nodup_rising hk) h

theorem above_congr {rows' : List α} (hk : (rows.map key).Nodup) (hk' : (rows'.map key).Nodup)
    (h : ∀ a, (∀ k ∈ after, k < key a) → (a ∈ rows ↔ a ∈ rows')) : above key after rows = above key after rows' :=
  below_congr (nodup_rising hk) (nodup_rising hk') fun a ha => h a (rising_lt_start.mp ha)

end Ascending

section Following

variable {β γ ε : Type} {serve : γ → Except ε (List β × Option γ)} {items rest : List β}

/-- A client that asks for the next page until there is none has read these items. -/
inductive Follows (serve : γ → Except ε (List β × Option γ)) : Except ε (List β × Option γ) → List β → Prop
  | last (items : List β) : Follows serve (.ok (items, none)) items
  | next (items : List β) {cursor : γ} {rest : List β} (h : Follows serve (serve cursor) rest) :
      Follows serve (.ok (items, some cursor)) (items ++ rest)

inductive Leaves (serve : γ → Except ε (List β × Option γ)) : Option γ → List β → Prop
  | nothing : Leaves serve none []
  | more {cursor : γ} {rest : List β} (h : Follows serve (serve cursor) rest) : Leaves serve (some cursor) rest

theorem Leaves.follows {next : Option γ} (h : Leaves serve next rest) (items : List β) :
    Follows serve (.ok (items, next)) (items ++ rest) := by
  cases h with
  | nothing =>
      rw [List.append_nil]
      exact .last items
  | more h => exact .next items h

/-- The page of a block that starts after the items delivered before, and the cursor to go on with. -/
def window (available : List β) (limit : Nat) (position : Nat → γ) (next : Option γ) (delivered : Nat) :
    List β × Option γ :=
  let items := (available.drop delivered).take limit
  let consumed := delivered + items.length
  (items, if consumed < available.length then some (position consumed) else next)

theorem follows_window {available : List β} {limit : Nat} {position : Nat → γ} {next : Option γ} (hlimit : 0 < limit)
    (hserve : ∀ delivered < available.length,
      serve (position delivered) = .ok (window available limit position next delivered))
    (hrest : Leaves serve next rest) (delivered : Nat) :
    Follows serve (.ok (window available limit position next delivered)) (available.drop delivered ++ rest) := by
  induction hleft : available.length - delivered using Nat.strong_induction_on generalizing delivered with
  | _ left ih =>
      have hlength : ((available.drop delivered).take limit).length = min limit (available.length - delivered) := by
        rw [List.length_take, List.length_drop]
      rw [window]
      by_cases hmore : delivered + ((available.drop delivered).take limit).length < available.length
      · rw [if_pos hmore]
        have htaken : ((available.drop delivered).take limit).length = limit := by omega
        have hnext := ih (available.length - (delivered + limit)) (by omega) (delivered + limit) rfl
        have hsplit : available.drop delivered ++ rest =
            (available.drop delivered).take limit ++ (available.drop (delivered + limit) ++ rest) := by
          rw [← List.append_assoc, ← List.drop_drop, List.take_append_drop]
        rw [htaken, hsplit]
        refine .next _ ?_
        rw [hserve _ (by omega)]
        exact hnext
      · rw [if_neg hmore]
        have hall : (available.drop delivered).take limit = available.drop delivered := by
          apply List.take_of_length_le
          rw [List.length_drop]
          omega
        rw [hall]
        exact hrest.follows _

theorem follows_block {available : List β} {limit : Nat} {position : Nat → γ} (hlimit : 0 < limit)
    (hserve : ∀ delivered < available.length,
      serve (position delivered) = .ok (window available limit position none delivered)) :
    Follows serve (.ok (window available limit position none 0)) available := by
  have hall := follows_window hlimit hserve .nothing 0
  rwa [List.drop_zero, List.append_nil] at hall

end Following

end OcppBridge.Paging
