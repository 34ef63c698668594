import OcppBridge.Table
import Mathlib.Data.Nat.Basic
import Mathlib.Logic.Relation

namespace OcppBridge.Revisions

open Table

/-- How the entries of a revision ledger are read. -/
structure Policy (ε σ : Type) where
  slot : ε → σ
  live : ε → Prop
  active : ε → Prop
  busy : ε → Prop
  /-- What a new revision begins with. -/
  fresh : ε → Prop
  /-- What a rewritten entry keeps of the entry it replaces. -/
  follows : ε → ε → Prop

structure Policy.Lawful {ε σ : Type} (policy : Policy ε σ) : Prop where
  refl : ∀ e, policy.follows e e
  trans : ∀ {e f g}, policy.follows e f → policy.follows f g → policy.follows e g
  slot : ∀ {e f}, policy.follows e f → policy.slot f = policy.slot e
  live : ∀ {e f}, policy.follows e f → policy.live f → policy.live e
  busy : ∀ {e f}, policy.follows e f → policy.busy f → policy.busy e
  fresh : ∀ {e f}, policy.follows e f → policy.fresh e → policy.fresh f
  activeLive : ∀ {e}, policy.active e → policy.live e

variable {ε γ σ : Type} {key : ε → γ × Nat} {policy : Policy ε σ} {t t' t'' : Table key} {e f : ε}

/-- `e` is an earlier revision of the same slot as `f`. -/
def Earlier (key : ε → γ × Nat) (policy : Policy ε σ) (e f : ε) : Prop :=
  (key e).1 = (key f).1 ∧ policy.slot e = policy.slot f ∧ (key e).2 < (key f).2

/-- What may happen to a ledger: an entry is rewritten, a new revision is appended, old ones are discarded. -/
inductive Step [DecidableEq γ] (policy : Policy ε σ) : Table key → Table key → Prop
  | revise {t : Table key} {e f : ε} (he : e ∈ t) (hk : key f = key e) (hf : policy.follows e f)
      (ha : policy.active f → policy.active e ∨ ∀ b ∈ t, Earlier key policy b e → ¬policy.live b) :
      Step policy t (t.replace f)
  | settle {t : Table key} {g : ε → ε} (hg : ∀ e, key (g e) = key e) (hf : ∀ e ∈ t, policy.follows e (g e))
      (ha : ∀ e ∈ t, policy.active (g e) → policy.active e) : Step policy t (t.update g hg)
  | append {t : Table key} {f : ε} (hrev : ∀ e ∈ t, (key e).1 = (key f).1 → (key e).2 < (key f).2)
      (hbusy : ∀ e ∈ t, (key e).1 = (key f).1 → ¬policy.busy e) (hf : policy.fresh f) (ha : ¬policy.active f) :
      Step policy t (t.put f)
  | discard {t : Table key} {p : ε → Bool}
      (hp : ∀ e ∈ t, p e = false → ∃ f ∈ t, p f ∧ (key f).1 = (key e).1 ∧ (key e).2 < (key f).2) :
      Step policy t (t.keep p)

section Soundness

/-- One busy entry for each group, and nothing live before an active revision of its slot. -/
structure Sound (policy : Policy ε σ) (t : Table key) : Prop where
  single : ∀ e ∈ t, ∀ f ∈ t, (key e).1 = (key f).1 → policy.busy e → policy.busy f → e = f
  displaced : ∀ e ∈ t, ∀ f ∈ t, Earlier key policy e f → policy.active f → ¬policy.live e

theorem Sound.empty : Sound policy (empty : Table key) :=
  ⟨fun _ he => absurd he not_mem_empty, fun _ he => absurd he not_mem_empty⟩

theorem Sound.active_unique (hlaw : policy.Lawful) (hs : Sound policy t) (he : e ∈ t) (hf : f ∈ t)
    (hgroup : (key e).1 = (key f).1) (hslot : policy.slot e = policy.slot f) (hae : policy.active e)
    (haf : policy.active f) : e = f := by
  rcases lt_trichotomy (key e).2 (key f).2 with hlt | heq | hgt
  · exact absurd (hlaw.activeLive hae) (hs.displaced e he f hf ⟨hgroup, hslot, hlt⟩ haf)
  · exact eq_of_key he hf (Prod.ext hgroup heq)
  · exact absurd (hlaw.activeLive haf) (hs.displaced f hf e he ⟨hgroup.symm, hslot.symm, hgt⟩ hae)

theorem Sound.of_origin (hlaw : policy.Lawful) (hs : Sound policy t)
    (horigin : ∀ f ∈ t', ∃ e ∈ t, key e = key f ∧ policy.follows e f)
    (hactive : ∀ f ∈ t', policy.active f → (∃ e ∈ t, key e = key f ∧ policy.active e) ∨
      ∀ b ∈ t, Earlier key policy b f → ¬policy.live b) : Sound policy t' := by
  constructor
  · intro e he f hf hgroup hbe hbf
    obtain ⟨e₀, he₀, hke, hfe⟩ := horigin e he
    obtain ⟨f₀, hf₀, hkf, hff⟩ := horigin f hf
    have heq : e₀ = f₀ :=
      hs.single e₀ he₀ f₀ hf₀ (by rw [hke, hkf, hgroup]) (hlaw.busy hfe hbe) (hlaw.busy hff hbf)
    exact eq_of_key he hf (by rw [← hke, ← hkf, heq])
  · rintro e he f hf ⟨hgroup, hslot, hlt⟩ haf hle
    obtain ⟨e₀, he₀, hke, hfe⟩ := horigin e he
    obtain ⟨f₁, hf₁, hkf₁, hff₁⟩ := horigin f hf
    have hslotf : policy.slot f = policy.slot f₁ := hlaw.slot hff₁
    have hslote : policy.slot e = policy.slot e₀ := hlaw.slot hfe
    rcases hactive f hf haf with ⟨f₀, hf₀, hkf, haf₀⟩ | hnone
    · have heq : f₀ = f₁ := eq_of_key hf₀ hf₁ (hkf.trans hkf₁.symm)
      refine hs.displaced e₀ he₀ f₀ hf₀ ⟨?_, ?_, ?_⟩ haf₀ (hlaw.live hfe hle)
      · rw [hke, hkf, hgroup]
      · rw [heq, ← hslotf, ← hslote, hslot]
      · rw [hke, hkf]
        exact hlt
    · refine hnone e₀ he₀ ⟨?_, ?_, ?_⟩ (hlaw.live hfe hle)
      · rw [hke, hgroup]
      · rw [← hslote, hslot]
      · rw [hke]
        exact hlt

theorem Step.sound [DecidableEq γ] (hlaw : policy.Lawful) (h : Step policy t t') (hs : Sound policy t) :
    Sound policy t' := by
  cases h with
  | @revise e f he hk hf ha =>
      apply hs.of_origin hlaw
      · intro x hx
        rcases mem_replace.mp hx with ⟨hx, _⟩ | ⟨rfl, _⟩
        · exact ⟨x, hx, rfl, hlaw.refl x⟩
        · exact ⟨e, he, hk.symm, hf⟩
      · intro x hx hax
        rcases mem_replace.mp hx with ⟨hx, _⟩ | ⟨rfl, _⟩
        · exact .inl ⟨x, hx, rfl, hax⟩
        · rcases ha hax with hae | hnone
          · exact .inl ⟨e, he, hk.symm, hae⟩
          · refine .inr fun b hb hbe => hnone b hb ⟨?_, ?_, ?_⟩
            · rw [hbe.1, hk]
            · rw [hbe.2.1, hlaw.slot hf]
            · rw [← hk]
              exact hbe.2.2
  | @settle g hg hf ha =>
      apply hs.of_origin hlaw
      · intro x hx
        obtain ⟨e, he, rfl⟩ := mem_update.mp hx
        exact ⟨e, he, (hg e).symm, hf e he⟩
      · intro x hx hax
        obtain ⟨e, he, rfl⟩ := mem_update.mp hx
        exact .inl ⟨e, he, (hg e).symm, ha e he hax⟩
  | @append f hrev hbusy hf ha =>
      have hold : ∀ x ∈ t.put f, x ≠ f → x ∈ t := by
        intro x hx hne
        rcases mem_put.mp hx with ⟨hx, _⟩ | hx
        · exact hx
        · exact absurd hx hne
      constructor
      · intro x hx y hy hgroup hbx hby
        by_cases hxf : x = f
        · by_cases hyf : y = f
          · rw [hxf, hyf]
          · exact absurd hby (hbusy y (hold y hy hyf) (by rw [← hgroup, hxf]))
        · by_cases hyf : y = f
          · exact absurd hbx (hbusy x (hold x hx hxf) (by rw [hgroup, hyf]))
          · exact hs.single x (hold x hx hxf) y (hold y hy hyf) hgroup hbx hby
      · intro x hx y hy hlt hay
        by_cases hyf : y = f
        · exact absurd (hyf ▸ hay) ha
        · by_cases hxf : x = f
          · subst hxf
            have hlt' := hrev y (hold y hy hyf) hlt.1.symm
            exact absurd hlt.2.2 (by omega)
          · exact hs.displaced x (hold x hx hxf) y (hold y hy hyf) hlt hay
  | discard hp =>
      apply hs.of_origin hlaw
      · intro x hx
        exact ⟨x, (mem_keep.mp hx).1, rfl, hlaw.refl x⟩
      · intro x hx hax
        exact .inl ⟨x, (mem_keep.mp hx).1, rfl, hax⟩

end Soundness

section Succession

/-- Every entry of the later ledger follows an earlier one or has a new revision, and no group loses its newest. -/
structure Succeeds (policy : Policy ε σ) (t t' : Table key) : Prop where
  origin : ∀ f ∈ t', (∃ e ∈ t, key e = key f ∧ policy.follows e f) ∨
    policy.fresh f ∧ ∀ e ∈ t, (key e).1 = (key f).1 → (key e).2 < (key f).2
  head : ∀ e ∈ t, ∃ f ∈ t', (key f).1 = (key e).1 ∧ (key e).2 ≤ (key f).2

theorem Succeeds.refl (hlaw : policy.Lawful) (t : Table key) : Succeeds policy t t :=
  ⟨fun f hf => .inl ⟨f, hf, rfl, hlaw.refl f⟩, fun e he => ⟨e, he, rfl, le_refl _⟩⟩

theorem Succeeds.trans (hlaw : policy.Lawful) (h : Succeeds policy t t') (h' : Succeeds policy t' t'') :
    Succeeds policy t t'' := by
  constructor
  · intro g hg
    rcases h'.origin g hg with ⟨f, hf, hk, hfg⟩ | ⟨hfresh, hnew⟩
    · rcases h.origin f hf with ⟨e, he, hke, hef⟩ | ⟨hfresh, hnew⟩
      · exact .inl ⟨e, he, hke.trans hk, hlaw.trans hef hfg⟩
      · exact .inr ⟨hlaw.fresh hfg hfresh, hk ▸ hnew⟩
    · refine .inr ⟨hfresh, fun e he hgroup => ?_⟩
      obtain ⟨f, hf, hgf, hle⟩ := h.head e he
      exact lt_of_le_of_lt hle (hnew f hf (hgf.trans hgroup))
  · intro e he
    obtain ⟨f, hf, hgf, hle⟩ := h.head e he
    obtain ⟨g, hg, hgg, hle'⟩ := h'.head f hf
    exact ⟨g, hg, hgg.trans hgf, le_trans hle hle'⟩

theorem Succeeds.follows (h : Succeeds policy t t') (he : e ∈ t) (hf : f ∈ t') (hk : key e = key f) :
    policy.follows e f := by
  rcases h.origin f hf with ⟨e', he', hk', hfollows⟩ | ⟨-, hnew⟩
  · exact eq_of_key he he' (hk.trans hk'.symm) ▸ hfollows
  · exact absurd (hnew e he (by rw [hk])) (by rw [hk]; exact lt_irrefl _)

theorem Succeeds.imp {policy' : Policy ε σ} (hfollows : ∀ {e f}, policy.follows e f → policy'.follows e f)
    (hfresh : ∀ {f}, policy.fresh f → policy'.fresh f) (h : Succeeds policy t t') : Succeeds policy' t t' := by
  refine ⟨fun f hf => ?_, h.head⟩
  rcases h.origin f hf with ⟨e, he, hk, hef⟩ | ⟨hf, hnew⟩
  · exact .inl ⟨e, he, hk, hfollows hef⟩
  · exact .inr ⟨hfresh hf, hnew⟩

theorem Step.succeeds [DecidableEq γ] (hlaw : policy.Lawful) (h : Step policy t t') : Succeeds policy t t' := by
  cases h with
  | @revise e f he hk hf ha =>
      constructor
      · intro x hx
        rcases mem_replace.mp hx with ⟨hx, _⟩ | ⟨rfl, _⟩
        · exact .inl ⟨x, hx, rfl, hlaw.refl x⟩
        · exact .inl ⟨e, he, hk.symm, hf⟩
      · intro x hx
        by_cases hxf : key x = key f
        · exact ⟨f, mem_replace.mpr (.inr ⟨rfl, x, hx, hxf⟩), by rw [hxf], by rw [hxf]⟩
        · exact ⟨x, mem_replace.mpr (.inl ⟨hx, hxf⟩), rfl, le_refl _⟩
  | @settle g hg hf ha =>
      constructor
      · intro x hx
        obtain ⟨e, he, rfl⟩ := mem_update.mp hx
        exact .inl ⟨e, he, (hg e).symm, hf e he⟩
      · intro x hx
        exact ⟨g x, mem_update.mpr ⟨x, hx, rfl⟩, by rw [hg], by rw [hg]⟩
  | @append f hrev hbusy hf ha =>
      constructor
      · intro x hx
        rcases mem_put.mp hx with ⟨hx, _⟩ | rfl
        · exact .inl ⟨x, hx, rfl, hlaw.refl x⟩
        · exact .inr ⟨hf, hrev⟩
      · intro x hx
        refine ⟨x, mem_put.mpr (.inl ⟨hx, fun hk => ?_⟩), rfl, le_refl _⟩
        exact absurd (hrev x hx (by rw [hk])) (by rw [hk]; exact lt_irrefl _)
  | @discard p hp =>
      constructor
      · intro x hx
        exact .inl ⟨x, (mem_keep.mp hx).1, rfl, hlaw.refl x⟩
      · intro x hx
        by_cases hpx : p x = true
        · exact ⟨x, mem_keep.mpr ⟨hx, hpx⟩, rfl, le_refl _⟩
        · obtain ⟨f, hf, hpf, hgf, hlt⟩ := hp x hx (by simpa using hpx)
          exact ⟨f, mem_keep.mpr ⟨hf, hpf⟩, hgf, le_of_lt hlt⟩

end Succession

section Runs

theorem Step.run [DecidableEq γ] (hlaw : policy.Lawful) (h : Relation.ReflTransGen (Step policy) t t') :
    Succeeds policy t t' ∧ (Sound policy t → Sound policy t') := by
  induction h with
  | refl => exact ⟨.refl hlaw t, id⟩
  | tail _ hstep ih => exact ⟨ih.1.trans hlaw (hstep.succeeds hlaw), fun hs => hstep.sound hlaw (ih.2 hs)⟩

end Runs

end OcppBridge.Revisions
