import Mathlib.Logic.Relation

namespace OcppBridge.Transition

open Relation

variable {σ ε : Type*} {P : σ → Prop}

theorem run_invariant {next : σ → ε → σ} (hnext : ∀ s e, P s → P (next s e)) (es : List ε) {s : σ} (hs : P s) :
    P (es.foldl next s) := by
  induction es generalizing s with
  | nil => exact hs
  | cons e es ih => exact ih (hnext s e hs)

theorem steps_rel {step R : σ → σ → Prop} (hrefl : ∀ s, R s s) (htrans : ∀ {a b c}, R a b → R b c → R a c)
    (hstep : ∀ {a b}, step a b → R a b) {s t : σ} (h : ReflTransGen step s t) : R s t := by
  induction h with
  | refl => exact hrefl s
  | tail _ hlast ih => exact htrans ih (hstep hlast)

theorem exists_entry {step : σ → σ → Prop} {s t : σ} (h : ReflTransGen step s t) (hs : ¬P s) (ht : P t) :
    ∃ m m', ReflTransGen step s m ∧ step m m' ∧ ReflTransGen step m' t ∧ ¬P m ∧ P m' := by
  induction h with
  | refl => exact absurd ht hs
  | @tail b c hrun hstep ih =>
      by_cases hb : P b
      · obtain ⟨m, m', hm, hmm, hm', hne, he⟩ := ih hb
        exact ⟨m, m', hm, hmm, hm'.tail hstep, hne, he⟩
      · exact ⟨b, c, hrun, hstep, .refl, hb, ht⟩

end OcppBridge.Transition
