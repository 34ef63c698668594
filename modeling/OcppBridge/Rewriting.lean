import Mathlib.Data.List.Nodup
import OcppBridge.Paging
import OcppBridge.Transaction

namespace OcppBridge.Rewriting

open Paging Transaction

/-! A pass that reads a table page by page and rewrites the rows that it reads. -/

variable {ρ υ ε : Type} {position : ρ → Nat} {visit : List ρ → ρ → Except ε (List ρ)} {rows rows' : List ρ}

section Pages

/-- Read the rows after `last` in pages, each of which is read from the table as the pages before have left it. -/
def walk (position : ρ → Nat) (size : Nat) (visit : List ρ → ρ → Except ε (List ρ)) :
    Nat → Nat → List ρ → Except ε (List ρ)
  | 0, _, rows => pure rows
  | fuel + 1, last, rows =>
      let page := (above position (some last) rows).take size
      match page.getLast? with
      | none => pure rows
      | some final => do
          let rows ← page.foldlM visit rows
          walk position size visit fuel (position final) rows

def Local (position : ρ → Nat) (visit : List ρ → ρ → Except ε (List ρ)) : Prop :=
  ∀ {rows row rows'}, visit rows row = .ok rows' →
    rows'.map position = rows.map position ∧ ∀ r, position r ≠ position row → (r ∈ rows' ↔ r ∈ rows)

theorem Local.foldlM (hlocal : Local position visit) {page : List ρ} (h : page.foldlM visit rows = .ok rows') :
    rows'.map position = rows.map position ∧
      ∀ r, (∀ p ∈ page, position r ≠ position p) → (r ∈ rows' ↔ r ∈ rows) := by
  induction page generalizing rows with
  | nil =>
      rw [List.foldlM_nil, pure_eq_ok] at h
      subst h
      exact ⟨rfl, fun r _ => Iff.rfl⟩
  | cons p page ih =>
      rw [List.foldlM_cons, bind_eq_ok] at h
      obtain ⟨middle, hvisit, hrest⟩ := h
      obtain ⟨hpositions, hmem⟩ := hlocal hvisit
      obtain ⟨hpositions', hmem'⟩ := ih hrest
      refine ⟨hpositions'.trans hpositions, fun r hr => ?_⟩
      rw [hmem' r fun q hq => hr q (List.mem_cons_of_mem p hq)]
      exact hmem r (hr p List.mem_cons_self)

theorem Local.above_eq (hlocal : Local position visit) (hrows : (rows.map position).Nodup) {after : Option Nat}
    {front back : List ρ} {final : ρ} (habove : above position after rows = front ++ final :: back)
    (h : (front ++ [final]).foldlM visit rows = .ok rows') : above position (some (position final)) rows' = back := by
  have hordered : (above position after rows).Pairwise fun a b => position a < position b := above_pairwise hrows
  rw [habove, List.pairwise_append] at hordered
  obtain ⟨-, -, hfinal⟩ := hordered
  obtain ⟨hpositions, hmem⟩ := hlocal.foldlM h
  rw [← above_last hrows habove]
  refine above_congr (hpositions ▸ hrows) hrows fun r hr => hmem r fun p hp => ?_
  have hlt : position final < position r := hr (position final) rfl
  rcases List.mem_append.mp hp with hp | hp
  · exact ((hfinal p hp final List.mem_cons_self).trans hlt).ne'
  · rw [List.mem_singleton.mp hp]
    exact hlt.ne'

variable {size : Nat}

theorem walk_eq (hlocal : Local position visit) (hsize : 0 < size) (fuel last : Nat)
    (hrows : (rows.map position).Nodup) (hfuel : (above position (some last) rows).length < fuel) :
    walk position size visit fuel last rows = (above position (some last) rows).foldlM visit rows := by
  induction fuel generalizing last rows with
  | zero => exact absurd hfuel (Nat.not_lt_zero _)
  | succ fuel ih =>
      have hsplit := List.take_append_drop size (above position (some last) rows)
      rw [walk]
      cases hpage : ((above position (some last) rows).take size).getLast? with
      | none =>
          rw [List.getLast?_eq_none_iff, List.take_eq_nil_iff] at hpage
          rw [hpage.resolve_left hsize.ne']
          rfl
      | some final =>
          obtain ⟨front, hfront⟩ := List.getLast?_eq_some_iff.mp hpage
          generalize hback : (above position (some last) rows).drop size = back at hsplit
          rw [hfront] at hsplit ⊢
          have habove : above position (some last) rows = front ++ final :: back := by
            rw [← hsplit, List.append_assoc, List.singleton_append]
          have hwhole : (above position (some last) rows).foldlM visit rows =
              (front ++ [final]).foldlM visit rows >>= fun rows => back.foldlM visit rows := by
            rw [← hsplit, List.foldlM_append]
          rw [hwhole]
          cases hfold : (front ++ [final]).foldlM visit rows with
          | error e => rfl
          | ok rows' =>
              have hrest := hlocal.above_eq hrows habove hfold
              have hrows' : (rows'.map position).Nodup := (hlocal.foldlM hfold).1 ▸ hrows
              have hlength := congrArg List.length habove
              simp only [List.length_append, List.length_cons] at hlength
              have hstep := ih (position final) hrows' (by rw [hrest]; omega)
              rw [hrest] at hstep
              exact hstep

theorem walk_keeps {σ : Type} {g : List ρ → σ}
    (hvisit : ∀ {rows row rows'}, visit rows row = .ok rows' → g rows' = g rows) {fuel last : Nat}
    (h : walk position size visit fuel last rows = .ok rows') : g rows' = g rows := by
  induction fuel generalizing last rows with
  | zero => rw [pure_eq_ok.mp h]
  | succ fuel ih =>
      rw [walk] at h
      split at h
      · rw [pure_eq_ok.mp h]
      · obtain ⟨middle, hpage, hrest⟩ := bind_eq_ok.mp h
        exact (ih hrest).trans (foldlM_keeps hpage hvisit)

theorem above_all (hordered : rows.Pairwise fun a b => position a < position b) {last : Nat}
    (hlast : ∀ r ∈ rows, last < position r) : above position (some last) rows = rows := by
  have hnodup : (rows.map position).Nodup := List.pairwise_map.mpr (hordered.imp fun hlt => hlt.ne)
  have hsorted : (above position (some last) rows).Pairwise fun a b => position a < position b := above_pairwise hnodup
  have hdistinct {l : List ρ} (hl : l.Pairwise fun a b => position a < position b) : l.Nodup :=
    hl.imp fun hlt heq => absurd (congrArg position heq) hlt.ne
  refine List.Perm.eq_of_pairwise ?_ hsorted hordered ?_
  · exact fun a b _ _ hab hba => absurd hab hba.asymm
  · refine (List.perm_ext_iff_of_nodup (hdistinct hsorted) (hdistinct hordered)).mpr fun r => ?_
    rw [mem_above]
    exact ⟨fun hr => hr.1, fun hr => ⟨hr, fun k hk => Option.some_inj.mp hk ▸ hlast r hr⟩⟩

theorem walk_all (hlocal : Local position visit) (hsize : 0 < size)
    (hordered : rows.Pairwise fun a b => position a < position b) (hpositive : ∀ r ∈ rows, 0 < position r) :
    walk position size visit (rows.length + 1) 0 rows = rows.foldlM visit rows := by
  have hnodup : (rows.map position).Nodup := List.pairwise_map.mpr (hordered.imp fun hlt => hlt.ne)
  have hall := above_all hordered hpositive
  rw [walk_eq hlocal hsize _ 0 hnodup (by rw [hall]; exact Nat.lt_succ_self _), hall]

end Pages

section Unique

/-- Visiting the rows of `table` gives each its target, under a uniqueness constraint that is checked row by row. -/
structure Rewrites (position : ρ → Nat) (unique : ρ → υ) (target : ρ → ρ) (clash : ε)
    (visit : List ρ → ρ → Except ε (List ρ)) (table : List ρ) : Prop where
  stays : ∀ r, position (target r) = position r
  fixed : ∀ row ∈ table, target row = row → ∀ rows, visit rows row = .ok rows
  clashes : ∀ row ∈ table, target row ≠ row → ∀ rows, (∃ other ∈ rows, unique other = unique (target row)) →
    visit rows row = .error clash
  moves : ∀ row ∈ table, target row ≠ row → ∀ front back, ((front ++ row :: back).map position).Nodup →
    (∀ other ∈ front ++ row :: back, unique other ≠ unique (target row)) →
    visit (front ++ row :: back) row = .ok (front ++ target row :: back)
  settled : ∀ r ∈ table, ∀ other ∈ table, unique other = unique (target r) → target other = other

variable {unique : ρ → υ} {target : ρ → ρ} {clash : ε} {table : List ρ} {row : ρ}

namespace Rewrites

variable (h : Rewrites position unique target clash visit table)

include h

theorem map_position (rows : List ρ) :
    (rows.map target).map position = rows.map position := by
  rw [List.map_map]
  exact List.map_congr_left fun r _ => h.stays r

theorem collides {front back : List ρ}
    (htable : table = front ++ row :: back) (hrow : target row ≠ row)
    (hclash : ∃ other ∈ front.map target ++ row :: back, unique other = unique (target row)) :
    ¬(table.map fun r => unique (target r)).Nodup := by
  obtain ⟨other, hother, heq⟩ := hclash
  have hmem : row ∈ table := htable ▸ List.mem_append_right front List.mem_cons_self
  intro hnodup
  rw [htable, List.map_append, List.map_cons, List.nodup_append, List.nodup_cons] at hnodup
  obtain ⟨-, ⟨hback, -⟩, hfront⟩ := hnodup
  rcases List.mem_append.mp hother with hother | hother
  · obtain ⟨r, hr, rfl⟩ := List.mem_map.mp hother
    exact hfront _ (List.mem_map_of_mem hr) _ List.mem_cons_self heq
  · rcases List.mem_cons.mp hother with rfl | hother
    · exact hrow (h.settled _ hmem _ hmem heq)
    · have htarget := h.settled row hmem other
        (htable ▸ List.mem_append_right front (List.mem_cons_of_mem row hother)) heq
      refine hback (List.mem_map.mpr ⟨other, hother, ?_⟩)
      rw [htarget, heq]

theorem foldlM_from
    (hpositions : (table.map position).Nodup) {front todo : List ρ} (htable : table = front ++ todo)
    (hunique : ((front.map target ++ todo).map unique).Nodup) :
    ((table.map fun r => unique (target r)).Nodup →
        todo.foldlM visit (front.map target ++ todo) = .ok (table.map target)) ∧
      (¬(table.map fun r => unique (target r)).Nodup →
        todo.foldlM visit (front.map target ++ todo) = .error clash) := by
  induction todo generalizing front with
  | nil =>
      rw [List.append_nil] at htable hunique ⊢
      subst htable
      refine ⟨fun _ => rfl, fun hcollide => absurd ?_ hcollide⟩
      rwa [List.map_map] at hunique
  | cons row todo ih =>
      have hmem : row ∈ table := htable ▸ List.mem_append_right front List.mem_cons_self
      have hnext : (front ++ [row]).map target ++ todo = front.map target ++ target row :: todo := by simp
      have ih := @ih (front ++ [row]) (by rw [htable, List.append_assoc, List.singleton_append])
      rw [hnext] at ih
      by_cases hrow : target row = row
      · rw [hrow] at ih
        rw [List.foldlM_cons, h.fixed row hmem hrow]
        exact ih hunique
      · by_cases hclash : ∃ other ∈ front.map target ++ row :: todo, unique other = unique (target row)
        · rw [List.foldlM_cons, h.clashes row hmem hrow _ hclash]
          exact ⟨fun hnodup => absurd hnodup (h.collides htable hrow hclash), fun _ => rfl⟩
        · have hfresh : ∀ other ∈ front.map target ++ row :: todo, unique other ≠ unique (target row) :=
            fun other hother heq => hclash ⟨other, hother, heq⟩
          have hnodup : ((front.map target ++ row :: todo).map position).Nodup := by
            rw [List.map_append, h.map_position, ← List.map_append, ← htable]
            exact hpositions
          rw [List.foldlM_cons, h.moves row hmem hrow _ _ hnodup hfresh]
          refine ih ?_
          rw [List.map_append, List.map_cons, List.nodup_middle, List.nodup_cons, ← List.map_append] at hunique ⊢
          refine ⟨fun hin => ?_, hunique.2⟩
          obtain ⟨other, hother, heq⟩ := List.mem_map.mp hin
          refine hfresh other ?_ heq
          rw [List.mem_append, List.mem_cons]
          exact (List.mem_append.mp hother).imp_right .inr

end Rewrites

theorem map_at_position {front back : List ρ} {f : ρ → ρ} (hnodup : ((front ++ row :: back).map position).Nodup) :
    ((front ++ row :: back).map fun r => if position r = position row then f r else r) = front ++ f row :: back := by
  rw [List.map_append, List.map_cons, List.nodup_append, List.nodup_cons] at hnodup
  obtain ⟨-, ⟨hback, -⟩, hfront⟩ := hnodup
  have hkeep {l : List ρ} (hl : ∀ r ∈ l, position r ≠ position row) :
      (l.map fun r => if position r = position row then f r else r) = l := by
    rw [List.map_congr_left fun r hr => if_neg (hl r hr), List.map_id']
  rw [List.map_append, List.map_cons, if_pos rfl]
  rw [hkeep fun r hr heq => hfront _ (List.mem_map_of_mem hr) _ List.mem_cons_self heq]
  rw [hkeep fun r hr heq => hback (heq ▸ List.mem_map_of_mem hr)]

theorem map_at_local (position : ρ → Nat) {f : ρ → ρ} (hf : ∀ r, position (f r) = position r) :
    (rows.map fun r => if position r = position row then f r else r).map position = rows.map position ∧
      ∀ r, position r ≠ position row →
        (r ∈ (rows.map fun r => if position r = position row then f r else r) ↔ r ∈ rows) := by
  constructor
  · rw [List.map_map]
    refine List.map_congr_left fun r _ => ?_
    simp only [Function.comp_apply]
    split_ifs
    · exact hf r
    · rfl
  · intro r hr
    rw [List.mem_map]
    constructor
    · rintro ⟨r', hr', heq⟩
      split_ifs at heq with hposition
      · rw [← heq, hf] at hr
        exact absurd hposition hr
      · exact heq ▸ hr'
    · exact fun hmem => ⟨r, hmem, if_neg hr⟩

theorem Rewrites.foldlM (h : Rewrites position unique target clash visit table)
    (hpositions : (table.map position).Nodup) (hunique : (table.map unique).Nodup) :
    ((table.map fun r => unique (target r)).Nodup → table.foldlM visit table = .ok (table.map target)) ∧
      (¬(table.map fun r => unique (target r)).Nodup → table.foldlM visit table = .error clash) :=
  h.foldlM_from hpositions (List.nil_append table).symm hunique

end Unique

end OcppBridge.Rewriting
