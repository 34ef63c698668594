import OcppBridge.Spool.Delivery
import OcppBridge.Spool.Gaps

namespace OcppBridge.Spool

open Spans Transaction

def streamPositions (d : Durability) (xs : List (Durability × Nat)) : List Nat :=
  (xs.filter (·.1 = d)).map (·.2)

def PendingRow.position (row : PendingRow) : Durability × Nat := (row.durability, row.sequence)

def Database.positions (db : Database) : List (Durability × Nat) := db.pending.map PendingRow.position

@[simp] theorem streamPositions_append (d : Durability) (xs ys : List (Durability × Nat)) :
    streamPositions d (xs ++ ys) = streamPositions d xs ++ streamPositions d ys := by
  simp [streamPositions]

variable {xs : List (Durability × Nat)}

theorem streamPositions_perm (d : Durability) {ys : List (Durability × Nat)} (h : xs.Perm ys) :
    (streamPositions d xs).Perm (streamPositions d ys) :=
  (h.filter _).map _

theorem streamPositions_singleton (d : Durability) (x : Durability × Nat) :
    streamPositions d [x] = if x.1 = d then [x.2] else [] := by
  by_cases hd : x.1 = d <;> simp [streamPositions, hd]

theorem mem_streamPositions {d : Durability} {p : Nat} : p ∈ streamPositions d xs ↔ (d, p) ∈ xs := by
  simp [streamPositions]

theorem nodup_of_streams (h : ∀ d, (streamPositions d xs).Nodup) : xs.Nodup := by
  induction xs with
  | nil => simp
  | cons x xs ih =>
      have hsplit : ∀ d, streamPositions d (x :: xs) = streamPositions d [x] ++ streamPositions d xs :=
        fun d => streamPositions_append d [x] xs
      rw [List.nodup_cons]
      refine ⟨?_, ih fun d => (hsplit d ▸ h d).of_append_right⟩
      intro hx
      have hd := h x.1
      rw [hsplit, streamPositions_singleton, List.nodup_append] at hd
      exact hd.2.2 x.2 (by simp) x.2 (mem_streamPositions.mpr hx) rfl

/-- Every position of each stream up to `n` is pending, confirmed or in a gap, exactly once. -/
structure Books (db : Database) (confirmed : List (Durability × Nat)) (n : Durability → Nat) : Prop where
  table : GapTable db.gaps
  covered : ∀ d, (streamPositions d db.positions ++ streamPositions d confirmed ++
    gapPositions db.gaps d).Perm (span 1 (n d))
  reasons : ∀ g ∈ db.gaps, g.durability = .critical → g.reason = .sourceExpired
  rowIds : (db.pending.map (·.rowId)).Nodup
  items : db.deliveryItems.Nodup
  present : ∀ id ∈ db.deliveryItems, ∃ row ∈ db.pending, row.rowId = id
  pinned : db.deliveryItems = [] ↔ db.delivery = none
  tally : db.confirmedRecords = confirmed.length
  unseen : ∀ b ∈ db.binding, ∀ d, (b.column d).cursor = none → (b.column d).seq = 0

/-- The change leaves the delivery claim, its rows and the binding's identity alone. -/
structure Keeps (old new : Database) : Prop where
  delivery : new.delivery = old.delivery
  items : new.deliveryItems = old.deliveryItems
  rows : ∀ row ∈ old.pending, row.rowId ∈ old.deliveryItems → row ∈ new.pending
  owner : ∀ b ∈ old.binding, ∃ b' ∈ new.binding, b'.destination = b.destination ∧ b'.revision = b.revision ∧
    b'.generation = b.generation ∧ b'.nextDeliveryId = b.nextDeliveryId
  incomplete : old.incomplete → new.incomplete

theorem Keeps.refl (db : Database) : Keeps db db where
  delivery := rfl
  items := rfl
  rows _ h _ := h
  owner b hb := ⟨b, hb, rfl, rfl, rfl, rfl⟩
  incomplete := id

theorem Keeps.trans {a b c : Database} (hab : Keeps a b) (hbc : Keeps b c) : Keeps a c where
  delivery := hbc.delivery.trans hab.delivery
  items := hbc.items.trans hab.items
  rows row hrow hid := hbc.rows row (hab.rows row hrow hid) (hab.items ▸ hid)
  owner x hx := by
    obtain ⟨y, hy, hxy⟩ := hab.owner x hx
    obtain ⟨z, hz, hyz⟩ := hbc.owner y hy
    exact ⟨z, hz, hyz.1.trans hxy.1, hyz.2.1.trans hxy.2.1, hyz.2.2.1.trans hxy.2.2.1,
      hyz.2.2.2.trans hxy.2.2.2⟩
  incomplete h := hbc.incomplete (hab.incomplete h)

/-- New gap rows are the old ones with `added` merged in. -/
structure GapsAdded (old added new : List ExportGap) : Prop where
  table : GapTable new
  positions : ∀ d, (gapPositions new d).Perm (gapPositions old d ++ gapPositions added d)
  origin : ∀ g ∈ new, g ∈ old ∨ ∃ x ∈ added, g.durability = x.durability ∧ g.reason = x.reason

theorem insertGap_added {limits : Limits} {db db' : Database} {gap : ExportGap} (ht : GapTable db.gaps)
    (h : insertGap limits db gap = .ok db') : ∃ gaps, db' = { db with gaps } ∧ GapsAdded db.gaps [gap] gaps := by
  have hadded : GapsAdded db.gaps [gap] db'.gaps := by
    refine ⟨insertGap_table ht h, insertGap_positions ht h, ?_⟩
    intro g hg
    rcases insertGap_mem h hg with hold | hnew
    · exact .inl hold
    · exact .inr ⟨gap, by simp, hnew⟩
  obtain ⟨-, -, rfl⟩ := insertGap_eq_ok h
  exact ⟨_, rfl, hadded⟩

theorem insertGaps_added {limits : Limits} {gaps : List ExportGap} {db db' : Database}
    (ht : GapTable db.gaps) (h : gaps.foldlM (insertGap limits) db = .ok db') :
    ∃ new, db' = { db with gaps := new } ∧ GapsAdded db.gaps gaps new := by
  induction gaps generalizing db with
  | nil =>
      simp only [List.foldlM_nil, pure_eq_ok] at h
      exact ⟨db.gaps, h.symm, ht, fun d => by simp, fun g hg => .inl hg⟩
  | cons gap gaps ih =>
      simp only [List.foldlM_cons, bind_eq_ok] at h
      obtain ⟨mid, hmid, hrest⟩ := h
      obtain ⟨first, rfl, hfirst⟩ := insertGap_added ht hmid
      obtain ⟨new, rfl, hnew⟩ := ih hfirst.table hrest
      refine ⟨new, rfl, hnew.table, ?_, ?_⟩
      · intro d
        rw [gapPositions_cons, ← List.append_assoc]
        exact (hnew.positions d).trans ((hfirst.positions d).append_right _)
      · intro g hg
        rcases hnew.origin g hg with hold | ⟨x, hx, hgx⟩
        · rcases hfirst.origin g hold with hold | ⟨x, hx, hgx⟩
          · exact .inl hold
          · exact .inr ⟨x, by simp_all, hgx⟩
        · exact .inr ⟨x, by simp [hx], hgx⟩

theorem Books.addGaps {db : Database} {confirmed : List (Durability × Nat)} {n : Durability → Nat}
    (hb : Books db confirmed n) {added gaps : List ExportGap} (ha : GapsAdded db.gaps added gaps) {d : Durability}
    {m : Nat} (hm : n d ≤ m) (hpos : ∀ d', gapPositions added d' = if d' = d then span (n d + 1) m else [])
    (hreason : ∀ g ∈ added, g.durability = .critical → g.reason = .sourceExpired) :
    Books { db with gaps } confirmed (Function.update n d m) where
  table := ha.table
  covered d' := by
    have hold := hb.covered d'
    have hnew := (ha.positions d').append_left (streamPositions d' db.positions ++ streamPositions d' confirmed)
    refine hnew.trans ?_
    rw [← List.append_assoc]
    refine (hold.append_right _).trans ?_
    rw [hpos]
    by_cases hd : d' = d
    · subst hd
      simp only [if_true, Function.update_self]
      rw [span_append (by omega) hm]
    · simp [hd]
  reasons g hg hd := by
    rcases ha.origin g hg with hold | ⟨x, hx, hgx⟩
    · exact hb.reasons g hold hd
    · exact hgx.2.trans (hreason x hx (hgx.1 ▸ hd))
  rowIds := hb.rowIds
  items := hb.items
  present := hb.present
  pinned := hb.pinned
  tally := hb.tally
  unseen := hb.unseen

end OcppBridge.Spool
