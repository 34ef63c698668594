import Mathlib.Data.List.Basic
import Mathlib.Logic.Function.Basic

/-! A directory whose changes last once it has been synced. Before, each of them may or may not outlive a crash. -/

namespace OcppBridge.Durable

variable {ν κ : Type}

/-- A file that was not synced holds no data that can be relied upon. -/
inductive Data (κ : Type)
  | torn
  | whole (content : κ)
  deriving DecidableEq, Repr

inductive Edit (ν : Type)
  | link (name : ν) (inode : Nat)
  | unlink (name : ν)
  | rename (source target : ν) (inode : Nat)

structure Disk (ν κ : Type) where
  data : Nat → Data κ
  fresh : Nat
  stable : ν → Option Nat
  pending : List (Edit ν)

inductive Op (ν κ : Type)
  | create (name : ν)
  | fill (name : ν) (content : κ)
  | rename (source target : ν)
  | unlink (name : ν)
  | sync

abbrev Directory (ν κ : Type) := ν → Option (Data κ)

/-- A change that is complete in itself: a file is written to a scratch name, synced and renamed, or it is removed. -/
inductive Update (ν κ : Type)
  | write (name scratch : ν) (content : κ)
  | remove (name : ν)

open Update

variable [DecidableEq ν]

def Edit.apply (entries : ν → Option Nat) : Edit ν → ν → Option Nat
  | .link name inode => Function.update entries name (some inode)
  | .unlink name => Function.update entries name none
  | .rename source target inode => Function.update (Function.update entries source none) target (some inode)

namespace Disk

def entries (d : Disk ν κ) : ν → Option Nat := d.pending.foldl Edit.apply d.stable

def read (d : Disk ν κ) : Directory ν κ := fun name => (d.entries name).map d.data

def exec (d : Disk ν κ) : Op ν κ → Option (Disk ν κ)
  | .create name =>
      if (d.entries name).isSome then none
      else some { d with
        data := Function.update d.data d.fresh .torn
        fresh := d.fresh + 1
        pending := d.pending ++ [.link name d.fresh] }
  | .fill name content =>
      (d.entries name).map fun inode => { d with data := Function.update d.data inode (.whole content) }
  | .rename source target =>
      (d.entries source).map fun inode => { d with pending := d.pending ++ [.rename source target inode] }
  | .unlink name => (d.entries name).map fun _ => { d with pending := d.pending ++ [.unlink name] }
  | .sync => some { d with stable := d.entries, pending := [] }

def execs (d : Disk ν κ) (ops : List (Op ν κ)) : Option (Disk ν κ) := ops.foldlM exec d

inductive Crash (d : Disk ν κ) : Disk ν κ → Prop
  | mk (survived : List (Edit ν)) (h : survived.Sublist d.pending) :
      Crash d { d with stable := survived.foldl Edit.apply d.stable, pending := [] }

structure Settled (d : Disk ν κ) : Prop where
  pending : d.pending = []
  owned : ∀ name inode, d.stable name = some inode → inode < d.fresh

end Disk

variable {u : Update ν κ}

namespace Update

def ops (d : Disk ν κ) : Update ν κ → List (Op ν κ)
  | .write name scratch content => [.create scratch, .fill scratch content, .rename scratch name, .sync]
  | .remove name => if (d.entries name).isSome then [.unlink name, .sync] else []

def apply (dir : Directory ν κ) : Update ν κ → Directory ν κ
  | .write name scratch content => Function.update (Function.update dir scratch none) name (some (.whole content))
  | .remove name => Function.update dir name none

def Fits (dir : Directory ν κ) : Update ν κ → Prop
  | .write name scratch _ => dir scratch = none ∧ scratch ≠ name
  | .remove _ => True

def Sane : Update ν κ → Prop
  | .write name scratch _ => scratch ≠ name
  | .remove _ => True

def Ready (dir : Directory ν κ) : List (Update ν κ) → Prop
  | [] => True
  | u :: us => u.Fits dir ∧ Ready (u.apply dir) us

variable {us : List (Update ν κ)}

theorem ready_append {dir : Directory ν κ} {vs : List (Update ν κ)} :
    Ready dir (us ++ vs) ↔ Ready dir us ∧ Ready (us.foldl apply dir) vs := by
  induction us generalizing dir with
  | nil => simp [Ready]
  | cons u us ih => simp [Ready, ih, and_assoc]

def Leaves (name : ν) : Update ν κ → Prop
  | .write target scratch _ => target ≠ name ∧ scratch ≠ name
  | .remove target => target ≠ name

theorem Leaves.apply_eq {name : ν} (h : u.Leaves name) (dir : Directory ν κ) : u.apply dir name = dir name := by
  cases u with
  | write target scratch content =>
      rw [apply, Function.update_of_ne h.1.symm, Function.update_of_ne h.2.symm]
  | remove target => exact Function.update_of_ne (Ne.symm h) _ _

theorem foldl_apply_of_leaves {name : ν} (h : ∀ u ∈ us, u.Leaves name) (dir : Directory ν κ) :
    us.foldl apply dir name = dir name := by
  induction us generalizing dir with
  | nil => rfl
  | cons u us ih =>
      rw [List.foldl_cons, ih fun v hv => h v (List.mem_cons_of_mem u hv)]
      exact (h u List.mem_cons_self).apply_eq dir

theorem foldl_apply_keeps {P : Directory ν κ → Prop} (h : ∀ u ∈ us, ∀ dir, P dir → P (u.apply dir))
    {dir : Directory ν κ} (hdir : P dir) : P (us.foldl apply dir) := by
  induction us generalizing dir with
  | nil => exact hdir
  | cons u us ih => exact ih (fun v hv => h v (List.mem_cons_of_mem u hv)) (h u List.mem_cons_self dir hdir)

def Within (scratches : ν → Prop) : Update ν κ → Prop
  | .write _ scratch _ => scratches scratch
  | .remove _ => True

end Update

namespace Disk

def update (d : Disk ν κ) (u : Update ν κ) : Option (Disk ν κ) := d.execs (u.ops d)

def updates (d : Disk ν κ) (us : List (Update ν κ)) : Option (Disk ν κ) := us.foldlM update d

inductive Reaches : Disk ν κ → List (Update ν κ) → Disk ν κ → Prop
  | finished (d : Disk ν κ) : Reaches d [] d
  | inside {d d' : Disk ν κ} {u : Update ν κ} {us : List (Update ν κ)} {done : List (Op ν κ)} (hdone : done <+: u.ops d)
      (h : d.execs done = some d') : Reaches d (u :: us) d'
  | next {d mid d' : Disk ν κ} {u : Update ν κ} {us : List (Update ν κ)} (h : d.update u = some mid)
      (hrest : Reaches mid us d') : Reaches d (u :: us) d'

end Disk

def Agree (scratches : ν → Prop) (a b : Directory ν κ) : Prop := ∀ name, ¬scratches name → a name = b name

def Edit.Below (bound : Nat) : Edit ν → Prop
  | .link _ inode => inode < bound
  | .unlink _ => True
  | .rename _ _ inode => inode < bound

section Settled

variable {d d' : Disk ν κ} {scratches : ν → Prop}

namespace Disk

theorem Settled.entries_eq (h : d.Settled) : d.entries = d.stable := by
  rw [entries, h.pending]
  rfl

theorem Settled.read_eq (h : d.Settled) (name : ν) : d.read name = (d.stable name).map d.data := by
  rw [read, h.entries_eq]

theorem Settled.map_update (h : d.Settled) (x : Data κ) (name : ν) :
    (d.stable name).map (Function.update d.data d.fresh x) = d.read name := by
  rw [h.read_eq]
  cases hinode : d.stable name with
  | none => rfl
  | some inode =>
      have hne : inode ≠ d.fresh := Nat.ne_of_lt (h.owned name inode hinode)
      rw [Option.map_some, Option.map_some, Function.update_of_ne hne]

def staged (d : Disk ν κ) (x : Data κ) (pending : List (Edit ν)) : Disk ν κ where
  data := Function.update d.data d.fresh x
  fresh := d.fresh + 1
  stable := d.stable
  pending := pending

def landed (d : Disk ν κ) (x : Data κ) (survived : List (Edit ν)) : Disk ν κ where
  data := Function.update d.data d.fresh x
  fresh := d.fresh + 1
  stable := survived.foldl Edit.apply d.stable
  pending := []

theorem foldl_owned {bound : Nat} {edits : List (Edit ν)} (hedits : ∀ e ∈ edits, e.Below bound)
    {entries : ν → Option Nat} (hentries : ∀ name inode, entries name = some inode → inode < bound) :
    ∀ name inode, edits.foldl Edit.apply entries name = some inode → inode < bound := by
  induction edits generalizing entries with
  | nil => exact hentries
  | cons e edits ih =>
      refine ih (fun e' he' => hedits e' (List.mem_cons_of_mem e he')) fun name inode hinode => ?_
      have he := hedits e List.mem_cons_self
      cases e with
      | link target _ =>
          simp only [Edit.apply, Function.update_apply] at hinode
          split_ifs at hinode
          · cases hinode
            exact he
          · exact hentries name inode hinode
      | unlink target =>
          simp only [Edit.apply, Function.update_apply] at hinode
          split_ifs at hinode
          exact hentries name inode hinode
      | rename source target _ =>
          simp only [Edit.apply, Function.update_apply] at hinode
          split_ifs at hinode
          · cases hinode
            exact he
          · exact hentries name inode hinode

theorem Settled.landed {name scratch : ν} (h : d.Settled) (x : Data κ) {survived : List (Edit ν)}
    (hsurvived : survived.Sublist [.link scratch d.fresh, .rename scratch name d.fresh]) :
    (d.landed x survived).Settled := by
  refine ⟨rfl, foldl_owned (fun e he => ?_) fun n inode hinode => Nat.lt_succ_of_lt (h.owned n inode hinode)⟩
  have hmem := hsurvived.subset he
  simp only [List.mem_cons, List.not_mem_nil, or_false] at hmem
  rcases hmem with rfl | rfl
  · exact Nat.lt_succ_self _
  · exact Nat.lt_succ_self _

theorem sublist_pair {α : Type} {a b : α} {l : List α} (h : l.Sublist [a, b]) :
    l = [] ∨ l = [a] ∨ l = [b] ∨ l = [a, b] := by
  rcases List.sublist_cons_iff.mp h with hrest | ⟨rest, rfl, hrest⟩
  · rcases List.sublist_singleton.mp hrest with rfl | rfl
    · exact .inl rfl
    · exact .inr (.inr (.inl rfl))
  · rcases List.sublist_singleton.mp hrest with rfl | rfl
    · exact .inr (.inl rfl)
    · exact .inr (.inr (.inr rfl))

theorem Settled.read_landed {name scratch : ν} (h : d.Settled) (hscratch : scratches scratch) {x : Data κ} {content : κ}
    {survived : List (Edit ν)} (hsurvived : survived.Sublist [.link scratch d.fresh, .rename scratch name d.fresh])
    (hwhole : .rename scratch name d.fresh ∈ survived → x = .whole content) :
    Agree scratches (d.landed x survived).read d.read ∨
      Agree scratches (d.landed x survived).read ((write name scratch content).apply d.read) := by
  have hread := (h.landed x hsurvived).read_eq
  have hoff : ∀ n, ¬scratches n → n ≠ scratch := by
    rintro _ hn rfl
    exact hn hscratch
  have hsame : (∀ n, n ≠ scratch → (d.landed x survived).stable n = d.stable n) →
      Agree scratches (d.landed x survived).read d.read := by
    intro hstable n hn
    rw [hread, hstable n (hoff n hn)]
    exact h.map_update x n
  have hmoved : x = .whole content →
      (∀ n, n ≠ scratch → (d.landed x survived).stable n = Function.update d.stable name (some d.fresh) n) →
      Agree scratches (d.landed x survived).read ((write name scratch content).apply d.read) := by
    intro hx hstable n hn
    rw [hread, hstable n (hoff n hn)]
    by_cases hname : n = name
    · subst hname
      simp [Disk.landed, apply, hx]
    · simp only [apply, Function.update_of_ne hname, Function.update_of_ne (hoff n hn)]
      exact h.map_update x n
  rcases sublist_pair hsurvived with rfl | rfl | rfl | rfl
  · exact .inl (hsame fun n _ => rfl)
  · exact .inl (hsame fun n hn => Function.update_of_ne hn _ _)
  · refine .inr (hmoved (hwhole (by simp)) fun n hn => ?_)
    simp only [Disk.landed, List.foldl_cons, List.foldl_nil, Edit.apply, Function.update_apply]
    split_ifs <;> rfl
  · refine .inr (hmoved (hwhole (by simp)) fun n hn => ?_)
    simp only [Disk.landed, List.foldl_cons, List.foldl_nil, Edit.apply, Function.update_apply]
    split_ifs <;> rfl

theorem Settled.crash_eq (h : d.Settled) (hcrash : d.Crash d') : d' = d := by
  obtain ⟨survived, hsurvived⟩ := hcrash
  rw [h.pending, List.sublist_nil] at hsurvived
  subst hsurvived
  cases d
  cases h.pending
  rfl

variable {done : List (Op ν κ)}

section Write

variable {name scratch : ν} {content : κ}

theorem Settled.exec_create (h : d.Settled) (habsent : d.read scratch = none) :
    d.exec (.create scratch) = some (d.staged .torn [.link scratch d.fresh]) := by
  rw [h.read_eq, Option.map_eq_none_iff] at habsent
  simp [exec, staged, h.entries_eq, h.pending, habsent]

theorem exec_fill : (d.staged .torn [.link scratch d.fresh]).exec (.fill scratch content) =
    some (d.staged (.whole content) [.link scratch d.fresh]) := by
  simp [exec, staged, entries, Edit.apply]

theorem exec_rename (x : Data κ) : (d.staged x [.link scratch d.fresh]).exec (.rename scratch name) =
    some (d.staged x [.link scratch d.fresh, .rename scratch name d.fresh]) := by
  simp [exec, staged, entries, Edit.apply]

theorem exec_sync (x : Data κ) (pending : List (Edit ν)) :
    (d.staged x pending).exec .sync = some (d.landed x pending) := rfl

theorem Settled.update_write (h : d.Settled) (hfits : (write name scratch content).Fits d.read) :
    d.update (.write name scratch content) =
      some (d.landed (.whole content) [.link scratch d.fresh, .rename scratch name d.fresh]) := by
  simp [Disk.update, ops, execs, h.exec_create hfits.1, exec_fill, exec_rename, exec_sync]

theorem Settled.execs_write (h : d.Settled) (hfits : (write name scratch content).Fits d.read)
    (hdone : done <+: (write name scratch content).ops d) :
    d.execs done = some d ∨
      (∃ x pending, d.execs done = some (d.staged x pending) ∧
        pending <+: [.link scratch d.fresh, .rename scratch name d.fresh] ∧
        (.rename scratch name d.fresh ∈ pending → x = .whole content)) ∨
      d.execs done = some (d.landed (.whole content) [.link scratch d.fresh, .rename scratch name d.fresh]) := by
  simp only [ops, List.prefix_cons_iff, List.prefix_nil] at hdone
  rcases hdone with rfl | ⟨_, rfl, rfl | ⟨_, rfl, rfl | ⟨_, rfl, rfl | ⟨_, rfl, rfl⟩⟩⟩⟩
  · exact .inl rfl
  · refine .inr (.inl ⟨.torn, [.link scratch d.fresh], ?_, ⟨_, rfl⟩, by simp⟩)
    simp [execs, h.exec_create hfits.1]
  · refine .inr (.inl ⟨.whole content, [.link scratch d.fresh], ?_, ⟨_, rfl⟩, by simp⟩)
    simp [execs, h.exec_create hfits.1, exec_fill]
  · refine .inr (.inl ⟨.whole content, _, ?_, List.prefix_rfl, fun _ => rfl⟩)
    simp [execs, h.exec_create hfits.1, exec_fill, exec_rename]
  · exact .inr (.inr (h.update_write hfits))

theorem Settled.read_update_write (h : d.Settled) (name scratch : ν) (content : κ) :
    (d.landed (.whole content) [.link scratch d.fresh, .rename scratch name d.fresh]).read =
      (write name scratch content).apply d.read := by
  funext n
  rw [(h.landed _ (List.Sublist.refl _)).read_eq]
  simp only [Disk.landed, List.foldl_cons, List.foldl_nil, Edit.apply, apply, Function.update_apply]
  split_ifs
  · simp
  · rfl
  · exact h.map_update _ n

end Write

section Remove

variable {name : ν}

def removed (d : Disk ν κ) (name : ν) : Disk ν κ :=
  { d with stable := Function.update d.stable name none, pending := [] }

theorem Settled.removed (h : d.Settled) (name : ν) : (d.removed name).Settled := by
  refine ⟨rfl, fun n inode hinode => ?_⟩
  simp only [Disk.removed, Function.update_apply] at hinode
  split_ifs at hinode
  exact h.owned n inode hinode

theorem Settled.read_removed (h : d.Settled) (name : ν) : (d.removed name).read = (remove name).apply d.read := by
  funext n
  rw [(h.removed name).read_eq]
  by_cases hname : n = name
  · simp [Disk.removed, apply, hname]
  · simp [Disk.removed, apply, Function.update_of_ne hname, h.read_eq]

theorem Settled.removed_of_absent (h : d.Settled) (habsent : d.entries name = none) : d.removed name = d := by
  rw [h.entries_eq] at habsent
  have hstable : Function.update d.stable name none = d.stable := by
    rw [← habsent, Function.update_eq_self]
  cases d
  cases h.pending
  rw [Disk.removed, hstable]

theorem Settled.exec_unlink (h : d.Settled) (hpresent : (d.entries name).isSome) :
    d.exec (.unlink name) = some { d with pending := [.unlink name] } := by
  obtain ⟨inode, hinode⟩ := Option.isSome_iff_exists.mp hpresent
  simp [exec, hinode, h.pending]

theorem exec_sync_unlink : ({ d with pending := [.unlink name] } : Disk ν κ).exec .sync = some (d.removed name) := rfl

theorem Settled.update_remove (h : d.Settled) (name : ν) : d.update (.remove name) = some (d.removed name) := by
  by_cases hpresent : (d.entries name).isSome
  · simp [Disk.update, ops, hpresent, execs, h.exec_unlink hpresent, exec_sync_unlink]
  · have habsent : d.entries name = none := Option.not_isSome_iff_eq_none.mp hpresent
    rw [h.removed_of_absent habsent]
    simp [Disk.update, ops, habsent, execs]

theorem Settled.execs_remove (h : d.Settled) (hdone : done <+: (remove name).ops d) :
    d.execs done = some d ∨ d.execs done = some { d with pending := [.unlink name] } ∨
      d.execs done = some (d.removed name) := by
  simp only [ops] at hdone
  split_ifs at hdone with hpresent
  · simp only [List.prefix_cons_iff, List.prefix_nil] at hdone
    rcases hdone with rfl | ⟨_, rfl, rfl | ⟨_, rfl, rfl⟩⟩
    · exact .inl rfl
    · refine .inr (.inl ?_)
      simp [execs, h.exec_unlink hpresent]
    · refine .inr (.inr ?_)
      simp [execs, h.exec_unlink hpresent, exec_sync_unlink]
  · rw [List.prefix_nil] at hdone
    subst hdone
    exact .inl rfl

end Remove

theorem Settled.update (h : d.Settled) (u : Update ν κ) (hfits : u.Fits d.read) :
    ∃ d', d.update u = some d' ∧ d'.Settled ∧ d'.read = u.apply d.read := by
  cases u with
  | write name scratch content =>
      exact ⟨_, h.update_write hfits, h.landed _ (List.Sublist.refl _), h.read_update_write name scratch content⟩
  | remove name => exact ⟨_, h.update_remove name, h.removed name, h.read_removed name⟩

theorem Settled.crash_inside (h : d.Settled) (hfits : u.Fits d.read) (hwithin : u.Within scratches)
    (hdone : done <+: u.ops d) {mid : Disk ν κ} (hmid : d.execs done = some mid) (hcrash : mid.Crash d') :
    d'.Settled ∧ (Agree scratches d'.read d.read ∨ Agree scratches d'.read (u.apply d.read)) := by
  cases u with
  | write name scratch content =>
      rcases h.execs_write hfits hdone with hsame | ⟨x, pending, hstaged, hpending, hwhole⟩ | hlanded
      · cases hsame.symm.trans hmid
        rw [h.crash_eq hcrash]
        exact ⟨h, .inl fun _ _ => rfl⟩
      · cases hstaged.symm.trans hmid
        obtain ⟨survived, hsurvived⟩ := hcrash
        have hsub := hsurvived.trans hpending.sublist
        exact ⟨h.landed x hsub, h.read_landed hwithin hsub fun hmem => hwhole (hsurvived.subset hmem)⟩
      · cases hlanded.symm.trans hmid
        have hsettled := h.landed (.whole content)
          (List.Sublist.refl [Edit.link scratch d.fresh, Edit.rename scratch name d.fresh])
        rw [hsettled.crash_eq hcrash]
        refine ⟨hsettled, .inr fun _ _ => ?_⟩
        rw [h.read_update_write]
  | remove name =>
      rcases h.execs_remove hdone with hsame | hunlinked | hremoved
      · cases hsame.symm.trans hmid
        rw [h.crash_eq hcrash]
        exact ⟨h, .inl fun _ _ => rfl⟩
      · cases hunlinked.symm.trans hmid
        obtain ⟨survived, hsurvived⟩ := hcrash
        rcases List.sublist_singleton.mp hsurvived with rfl | rfl
        · have hsame : ({ d with stable := d.stable, pending := [] } : Disk ν κ) = d := by
            cases d
            cases h.pending
            rfl
          exact ⟨hsame.symm ▸ h, .inl fun _ _ => congrFun (congrArg read hsame) _⟩
        · exact ⟨h.removed name, .inr fun n _ => congrFun (h.read_removed name) n⟩
      · cases hremoved.symm.trans hmid
        rw [(h.removed name).crash_eq hcrash]
        exact ⟨h.removed name, .inr fun n _ => congrFun (h.read_removed name) n⟩

theorem Settled.updates (h : d.Settled) (us : List (Update ν κ)) (hready : Ready d.read us) :
    ∃ d', d.updates us = some d' ∧ d'.Settled ∧ d'.read = us.foldl apply d.read := by
  induction us generalizing d with
  | nil => exact ⟨d, rfl, h, rfl⟩
  | cons u us ih =>
      obtain ⟨mid, hmid, hsettled, hread⟩ := h.update u hready.1
      obtain ⟨d', hd', hsettled', hread'⟩ := ih hsettled (hread ▸ hready.2)
      refine ⟨d', ?_, hsettled', by rw [hread', hread, List.foldl_cons]⟩
      rw [Disk.updates, List.foldlM_cons, hmid]
      exact hd'

variable {us : List (Update ν κ)}

theorem Settled.crash_reaches (h : d.Settled) (hready : Ready d.read us)
    (hwithin : ∀ u ∈ us, u.Within scratches) {mid : Disk ν κ} (hreaches : d.Reaches us mid) (hcrash : mid.Crash d') :
    d'.Settled ∧ ∃ done, done <+: us ∧ Agree scratches d'.read (done.foldl apply d.read) := by
  induction hreaches with
  | finished d =>
      rw [h.crash_eq hcrash]
      exact ⟨h, [], List.prefix_rfl, fun _ _ => rfl⟩
  | @inside d mid u us _ hdone hmid =>
      obtain ⟨hsettled, hsame | happlied⟩ :=
        h.crash_inside hready.1 (hwithin u List.mem_cons_self) hdone hmid hcrash
      · exact ⟨hsettled, [], List.nil_prefix, hsame⟩
      · exact ⟨hsettled, [u], ⟨us, rfl⟩, happlied⟩
  | @next d mid d' u us hmid _ ih =>
      obtain ⟨mid', hmid', hsettled, hread⟩ := h.update u hready.1
      cases hmid.symm.trans hmid'
      obtain ⟨hsettled', done, hdone, hagree⟩ :=
        ih hsettled (hread ▸ hready.2) (fun v hv => hwithin v (List.mem_cons_of_mem u hv)) hcrash
      refine ⟨hsettled', u :: done, (List.prefix_cons_inj u).mpr hdone, ?_⟩
      rw [List.foldl_cons, ← hread]
      exact hagree

theorem Settled.of_update (h : d.Settled) (hu : u.Sane) (hupdate : d.update u = some d') :
    d'.Settled ∧ d'.read = u.apply d.read := by
  have hfits : u.Fits d.read := by
    cases u with
    | write name scratch content =>
        refine ⟨?_, hu⟩
        by_contra hpresent
        have hentry : (d.entries scratch).isSome := by
          rw [Disk.read, Option.map_eq_none_iff] at hpresent
          exact Option.isSome_iff_ne_none.mpr hpresent
        simp [Disk.update, ops, execs, exec, hentry] at hupdate
    | remove name => trivial
  obtain ⟨written, hwritten, hsettled, hread⟩ := h.update u hfits
  obtain rfl : written = d' := Option.some.inj (hwritten.symm.trans hupdate)
  exact ⟨hsettled, hread⟩

theorem Settled.of_updates (h : d.Settled) (hus : ∀ u ∈ us, u.Sane) (hupdates : d.updates us = some d') :
    d'.Settled ∧ d'.read = us.foldl apply d.read := by
  induction us generalizing d with
  | nil =>
      cases hupdates
      exact ⟨h, rfl⟩
  | cons u us ih =>
      rw [Disk.updates, List.foldlM_cons, Option.bind_eq_bind, Option.bind_eq_some_iff] at hupdates
      obtain ⟨mid, hmid, hrest⟩ := hupdates
      obtain ⟨hsettled, hread⟩ := h.of_update (hus u List.mem_cons_self) hmid
      rw [List.foldl_cons, ← hread]
      exact ih hsettled (fun v hv => hus v (List.mem_cons_of_mem u hv)) hrest

theorem Settled.of_create (h : d.Settled) {name : ν} (hcreate : d.execs [.create name, .sync] = some d') :
    d'.Settled ∧ ∀ other, other ≠ name → d'.read other = d.read other := by
  by_cases hpresent : (d.entries name).isSome
  · simp [execs, exec, hpresent] at hcreate
  · have habsent : d.read name = none := by
      rw [read, Option.map_eq_none_iff]
      exact Option.not_isSome_iff_eq_none.mp hpresent
    obtain rfl : d.landed .torn [.link name d.fresh] = d' := by
      simpa [execs, h.exec_create habsent, exec_sync] using hcreate
    have hsub : [Edit.link name d.fresh].Sublist [.link name d.fresh, .rename name name d.fresh] :=
      List.Sublist.cons_cons _ (List.nil_sublist _)
    refine ⟨h.landed .torn hsub, fun other hother => ?_⟩
    rw [(h.landed .torn hsub).read_eq]
    simp only [Disk.landed, List.foldl_cons, List.foldl_nil, Edit.apply, Function.update_of_ne hother]
    exact h.map_update _ other

structure Owned (d : Disk ν κ) : Prop where
  stable : ∀ name inode, d.stable name = some inode → inode < d.fresh
  pending : ∀ e ∈ d.pending, e.Below d.fresh

omit [DecidableEq ν] in
theorem Settled.is_owned (h : d.Settled) : d.Owned := ⟨h.owned, by simp [h.pending]⟩

namespace Owned

variable (h : d.Owned)

include h

theorem entries : ∀ name inode, d.entries name = some inode → inode < d.fresh :=
  foldl_owned h.pending h.stable

theorem crash (hcrash : d.Crash d') : d'.Settled := by
  obtain ⟨survived, hsurvived⟩ := hcrash
  exact ⟨rfl, foldl_owned (fun e he => h.pending e (hsurvived.subset he)) h.stable⟩

theorem exec {op : Op ν κ} (hexec : d.exec op = some d') : d'.Owned := by
  have happend : ∀ {e : Edit ν} {bound : Nat}, d.fresh ≤ bound → e.Below bound →
      ∀ e' ∈ d.pending ++ [e], e'.Below bound := by
    intro e bound hle he e' he'
    rcases List.mem_append.mp he' with he' | he'
    · have hbelow := h.pending e' he'
      cases e' with
      | link _ inode => exact Nat.lt_of_lt_of_le hbelow hle
      | unlink _ => trivial
      | rename _ _ inode => exact Nat.lt_of_lt_of_le hbelow hle
    · rw [List.mem_singleton.mp he']
      exact he
  cases op with
  | create name =>
      simp only [Disk.exec] at hexec
      split_ifs at hexec
      cases hexec
      exact ⟨fun n inode hinode => Nat.lt_succ_of_lt (h.stable n inode hinode),
        happend (Nat.le_succ _) (Nat.lt_succ_self d.fresh)⟩
  | fill name content =>
      obtain ⟨inode, _, rfl⟩ := Option.map_eq_some_iff.mp hexec
      exact ⟨h.stable, h.pending⟩
  | rename source target =>
      obtain ⟨inode, hinode, rfl⟩ := Option.map_eq_some_iff.mp hexec
      exact ⟨h.stable, happend (Nat.le_refl _) (h.entries source inode hinode)⟩
  | unlink name =>
      obtain ⟨inode, _, rfl⟩ := Option.map_eq_some_iff.mp hexec
      exact ⟨h.stable, happend (Nat.le_refl _) trivial⟩
  | sync =>
      cases hexec
      exact ⟨h.entries, by simp⟩

theorem execs {ops : List (Op ν κ)} (hexecs : d.execs ops = some d') : d'.Owned := by
  induction ops generalizing d with
  | nil =>
      cases hexecs
      exact h
  | cons op ops ih =>
      rw [Disk.execs, List.foldlM_cons, Option.bind_eq_bind, Option.bind_eq_some_iff] at hexecs
      obtain ⟨mid, hmid, hrest⟩ := hexecs
      exact ih (h.exec hmid) hrest

theorem reaches (hreaches : d.Reaches us d') : d'.Owned := by
  induction hreaches with
  | finished d => exact h
  | inside _ hexecs => exact h.execs hexecs
  | next hupdate _ ih => exact ih (h.execs hupdate)

end Owned

end Disk

end Settled

end OcppBridge.Durable
