import OcppBridge.Spool.Copy

namespace OcppBridge.Spool

open Spans Text Transaction Database

variable {db db' : Database} {confirmed : List (Durability × Nat)} {n : Durability → Nat}
  {selected rows : List PendingRow} {ns : ExportSpoolNamespace} {row : PendingRow} {b : Binding}

theorem selectItems_eq_ok {maxBytes estimated : Nat} {out : List PendingRow} {identities : List String}
    (h : selectItems maxBytes rows estimated identities selected = .ok out) : ∃ k, out = selected ++ rows.take k := by
  induction rows generalizing estimated identities selected with
  | nil =>
      simp only [selectItems, pure_eq_ok] at h
      exact ⟨0, by simp [h]⟩
  | cons row rows ih =>
      simp only [selectItems, bind_eq_ok] at h
      obtain ⟨_, -, h⟩ := h
      split at h
      · split at h
        · simp at h
        · simp only [pure_eq_ok] at h
          exact ⟨0, by simp [h]⟩
      · simp only [bind_eq_ok] at h
        obtain ⟨id, -, _, -, h⟩ := h
        obtain ⟨k, rfl⟩ := ih h
        exact ⟨k + 1, by simp⟩

theorem existing_eq_ok {o : Option (String × List PendingRow)} (h : existing db = .ok o) :
    (db.delivery = none ∧ o = none) ∨
      ∃ batchId, db.delivery = some batchId ∧ pinnedRows db ≠ [] ∧ o = some (batchId, pinnedRows db) := by
  unfold existing at h
  split at h
  · simp_all
  · simp only [bind_eq_ok, require_eq_ok, pure_eq_ok] at h
    obtain ⟨_, -, _, hrows, rfl⟩ := h
    exact .inr ⟨_, by assumption, hrows.1, rfl⟩

def pinBatch (db : Database) (b : Binding) (batchId : String) (selected : List PendingRow) : Database :=
  { db with
    binding := some { b with nextDeliveryId := b.nextDeliveryId + 1 }
    delivery := some batchId
    deliveryItems := db.deliveryItems ++ selected.map (·.rowId) }

/-- A freshly pinned batch: a non-empty prefix of the pending rows under the next batch id. -/
structure FreshClaim (db : Database) (ns : ExportSpoolNamespace) (b : Binding) (selected : List PendingRow) :
    Prop where
  idle : db.delivery = none
  bound : db.binding = some b
  owner : b.owns ns
  nonempty : selected ≠ []
  leading : selected <+: db.ordered
  nodup : (selected.map (·.rowId)).Nodup

theorem persistClaim_eq_ok {batchId : String} (h : persistClaim db ns selected = .ok (db', batchId)) :
    ∃ b, db.binding = some b ∧ batchId = batchIdOf ns (b.nextDeliveryId + 1) ∧
      (selected.map (·.rowId)).Nodup ∧ db' = pinBatch db b batchId selected := by
  unfold persistClaim at h
  split at h
  · simp at h
  · simp only [bind_eq_ok, require_eq_ok, pure_eq_ok, Prod.mk.injEq] at h
    obtain ⟨_, -, _, -, _, ⟨-, hnodup, -⟩, rfl, rfl⟩ := h
    exact ⟨_, by assumption, rfl, hnodup, rfl⟩

theorem claim_eq_ok {limit maxBytes : Nat} {budget : ClaimBudget} {o : Option ExportDeliveryClaim}
    (h : claim db ns limit maxBytes budget = .ok (db', o)) :
    (∃ batchId, db.delivery = some batchId ∧ db' = db ∧
      o = some ⟨batchId, (pinnedRows db).map PendingRow.descriptor⟩) ∨
    (db.delivery = none ∧ db' = db ∧ o = none) ∨
    (∃ b selected, FreshClaim db ns b selected ∧
      db' = pinBatch db b (batchIdOf ns (b.nextDeliveryId + 1)) selected ∧
      o = some ⟨batchIdOf ns (b.nextDeliveryId + 1), selected.map PendingRow.descriptor⟩) := by
  simp only [claim, claimInTransaction, bind_eq_ok] at h
  obtain ⟨_, -, _, -, bound, hbound, found, hfound, h⟩ := h
  rcases existing_eq_ok hfound with ⟨hidle, rfl⟩ | ⟨batchId, hlive, -, rfl⟩
  · simp only at h
    split at h
    · simp only [bind_eq_ok] at h
      obtain ⟨page, hpage, selected, hselected, h⟩ := h
      split at h
      · simp only [pure_eq_ok, Prod.mk.injEq] at h
        exact .inr (.inl ⟨hidle, h.1.symm, h.2.symm⟩)
      · simp only [bind_eq_ok, pure_eq_ok, Prod.mk.injEq] at h
        obtain ⟨⟨db'', batchId⟩, hpersist, _, -, rfl, rfl⟩ := h
        obtain ⟨b, hb, rfl, hnodup, rfl⟩ := persistClaim_eq_ok hpersist
        simp only [pending, bind_eq_ok, pure_eq_ok] at hpage
        obtain ⟨_, -, _, -, rfl⟩ := hpage
        obtain ⟨k, hk⟩ := selectItems_eq_ok hselected
        rw [List.nil_append, List.take_take] at hk
        rcases binding_eq_ok hbound with ⟨-, b', hb', howns⟩ | ⟨-, hnone⟩
        · obtain rfl : b = b' := by simp_all
          exact .inr (.inr ⟨b, selected, ⟨hidle, hb, howns, by assumption, hk ▸ List.take_prefix _ _, hnodup⟩,
            rfl, rfl⟩)
        · simp [hnone] at hb
    · simp only [pure_eq_ok, Prod.mk.injEq] at h
      exact .inr (.inl ⟨hidle, h.1.symm, h.2.symm⟩)
  · simp only [replayClaim, bind_eq_ok, pure_eq_ok, Prod.mk.injEq] at h
    obtain ⟨_, ⟨_, -, _, -, _, -, _, -, rfl⟩, rfl, rfl⟩ := h
    exact .inl ⟨batchId, hlive, rfl, rfl⟩

def IdentitiesOf (identities : List ExportRecordIdentity) (rows : List PendingRow) : Prop :=
  List.Forall₂ (fun identity row => identity.subrecordId = none ∧ recordIdentity row = .ok identity.recordId)
    identities rows

theorem matchIdentities_eq_ok {identities : List ExportRecordIdentity} {u : Unit}
    (hlen : identities.length = rows.length) (h : matchIdentities identities rows = .ok u) :
    IdentitiesOf identities rows := by
  induction identities generalizing rows with
  | nil =>
      cases rows with
      | nil => exact .nil
      | cons => simp at hlen
  | cons identity identities ih =>
      cases rows with
      | nil => simp at hlen
      | cons row rows =>
          simp only [matchIdentities, bind_eq_ok, require_eq_ok] at h
          obtain ⟨_, hsub, id, hid, _, rfl, h⟩ := h
          exact .cons ⟨hsub, hid⟩ (ih (by simpa using hlen) h)

def unpinBatch (db : Database) (b : Binding) (batchId : String) (items : List PendingRow) : Database :=
  { db with
    binding := some { b with
      lastConfirmedBatch := some batchId
      confirmedRecords := b.confirmedRecords + items.length }
    pending := db.pending.filter fun row => row.rowId ∉ items.map (·.rowId)
    delivery := none
    deliveryItems := [] }

/-- The report confirms the batch that is pinned in `db`, record by record. -/
structure Confirms (db : Database) (ns : ExportSpoolNamespace) (report : ExportReport) : Prop where
  outcome : report.outcome = .committed
  batch : db.delivery = some report.batchId
  destination : report.destination = ns.destination
  records : IdentitiesOf report.recordIds (pinnedRows db)

theorem settle_eq_ok {report : ExportReport} (h : settle db ns report = .ok (db', rows)) :
    (db' = db ∧ rows = [] ∧ report.outcome ≠ .committed) ∨
    (Confirms db ns report ∧ rows = pinnedRows db ∧ ∃ b, db.binding = some b ∧ b.owns ns ∧
      db' = unpinBatch db b report.batchId (pinnedRows db)) := by
  simp only [settle, bind_eq_ok] at h
  obtain ⟨_, -, bound, hbound, found, hfound, h⟩ := h
  rcases existing_eq_ok hfound with ⟨hidle, rfl⟩ | ⟨batchId, hlive, -, rfl⟩
  · simp at h
  · simp only [bind_eq_ok, require_eq_ok] at h
    obtain ⟨_, ⟨hdest, hbatch, hlen⟩, _, hmatch, _, -, h⟩ := h
    subst hbatch
    split at h
    · rename_i houtcome
      simp only [bind_eq_ok, pure_eq_ok, Prod.mk.injEq] at h
      obtain ⟨db'', hconfirm, rfl, rfl⟩ := h
      unfold confirm at hconfirm
      split at hconfirm
      · simp at hconfirm
      · rename_i b hb
        simp only [bind_eq_ok, pure_eq_ok] at hconfirm
        obtain ⟨_, -, rfl⟩ := hconfirm
        rcases binding_eq_ok hbound with ⟨-, b', hb', howns⟩ | ⟨-, hnone⟩
        · obtain rfl : b = b' := by simp_all
          exact .inr ⟨⟨houtcome, hlive, hdest, matchIdentities_eq_ok hlen hmatch⟩, rfl, b, hb, howns, rfl⟩
        · simp [hnone] at hb
    · simp only [pure_eq_ok, Prod.mk.injEq] at h
      exact .inl ⟨h.1.symm, h.2.symm, by assumption⟩

theorem rowById_eq_some {rowId : Nat} (h : rowById db rowId = some row) : row ∈ db.pending ∧ row.rowId = rowId := by
  have hprop := List.find?_some h
  simp only [decide_eq_true_eq] at hprop
  exact ⟨List.mem_of_find?_eq_some h, hprop⟩

theorem mem_pinnedRows (h : row ∈ pinnedRows db) : row ∈ db.pending ∧ row.rowId ∈ db.deliveryItems := by
  obtain ⟨id, hid, hrow⟩ := List.mem_filterMap.mp h
  obtain ⟨hmem, rfl⟩ := rowById_eq_some hrow
  exact ⟨hmem, hid⟩

theorem rowById_of_mem (hrows : (db.pending.map (·.rowId)).Nodup) (h : row ∈ db.pending) :
    rowById db row.rowId = some row :=
  Keyed.find_eq_some hrows h

theorem filterMap_rowById (hrows : (db.pending.map (·.rowId)).Nodup) (h : ∀ row ∈ rows, row ∈ db.pending) :
    (rows.map (·.rowId)).filterMap (rowById db) = rows := by
  induction rows with
  | nil => rfl
  | cons row rows ih =>
      rw [List.map_cons, List.filterMap_cons, rowById_of_mem hrows (h row (by simp))]
      simp [ih fun r hr => h r (by simp [hr])]

theorem Books.pinnedRows_ids (hb : Books db confirmed n) : (pinnedRows db).map (·.rowId) = db.deliveryItems := by
  have hall : ∀ ids : List Nat, (∀ id ∈ ids, ∃ row ∈ db.pending, row.rowId = id) →
      (ids.filterMap (rowById db)).map (·.rowId) = ids := by
    intro ids
    induction ids with
    | nil => intro _; rfl
    | cons id ids ih =>
        intro hids
        obtain ⟨row, hrow, rfl⟩ := hids id (by simp)
        rw [List.filterMap_cons, rowById_of_mem hb.rowIds hrow]
        simp [ih fun x hx => hids x (by simp [hx])]
  exact hall _ hb.present

theorem Keeps.pinnedRows_eq {m : Durability → Nat} (hk : Keeps db db') (hb : Books db confirmed n)
    (hb' : Books db' confirmed m) : pinnedRows db' = pinnedRows db := by
  have hids : db'.deliveryItems = (pinnedRows db).map (·.rowId) := hk.items.trans hb.pinnedRows_ids.symm
  rw [pinnedRows, hids]
  refine filterMap_rowById hb'.rowIds fun row hrow => ?_
  obtain ⟨hmem, hid⟩ := mem_pinnedRows hrow
  exact hk.rows row hmem hid

theorem pinBatch_checkpoint (hb : db.binding = some b) (batchId : String) (selected : List PendingRow) :
    (pinBatch db b batchId selected).checkpoint = db.checkpoint := by
  funext d
  cases d <;> simp [Database.checkpoint, pinBatch, hb, Binding.column]

theorem Books.pin (hb : Books db confirmed n) (hf : FreshClaim db ns b selected) (batchId : String) :
    Books (pinBatch db b batchId selected) confirmed n := by
  have hitems : db.deliveryItems = [] := hb.pinned.mpr hf.idle
  have hmem : ∀ row ∈ selected, row ∈ db.pending := fun row hrow => by
    have := hf.leading.subset hrow
    rwa [ordered, List.mem_insertionSort] at this
  refine ⟨hb.table, hb.covered, hb.reasons, hb.rowIds, ?_, ?_, ?_, ?_, ?_⟩
  · simpa [pinBatch, hitems] using hf.nodup
  · intro id hid
    simp only [pinBatch, hitems, List.nil_append] at hid
    obtain ⟨row, hrow, rfl⟩ := List.mem_map.mp hid
    exact ⟨row, hmem row hrow, rfl⟩
  · simp [pinBatch, hf.nonempty]
  · have := hb.tally
    simpa [confirmedRecords, pinBatch, hf.bound] using this
  · intro b' hb' d
    obtain rfl : _ = b' := Option.some.inj hb'
    have := hb.unseen b hf.bound d
    cases d <;> exact this

theorem pinBatch_pinnedRows (hb : Books db confirmed n) (hf : FreshClaim db ns b selected) (batchId : String) :
    pinnedRows (pinBatch db b batchId selected) = selected := by
  have hitems : db.deliveryItems = [] := hb.pinned.mpr hf.idle
  have hids : (pinBatch db b batchId selected).deliveryItems = selected.map (·.rowId) := by
    simp [pinBatch, hitems]
  rw [pinnedRows, hids]
  refine filterMap_rowById hb.rowIds fun row hrow => ?_
  have := hf.leading.subset hrow
  rwa [ordered, List.mem_insertionSort] at this

theorem unpinBatch_checkpoint (hb : db.binding = some b) (batchId : String) (items : List PendingRow) :
    (unpinBatch db b batchId items).checkpoint = db.checkpoint := by
  funext d
  cases d <;> simp [Database.checkpoint, unpinBatch, hb, Binding.column]

theorem Books.unpin (hb : Books db confirmed n) (hbind : db.binding = some b) (batchId : String) :
    Books (unpinBatch db b batchId (pinnedRows db)) (confirmed ++ (pinnedRows db).map PendingRow.position) n := by
  have hperm := Keyed.perm_append_delete hb.rowIds (hb.pinnedRows_ids ▸ hb.items)
    fun row hrow => (mem_pinnedRows hrow).1
  refine ⟨hb.table, ?_, hb.reasons, ?_, List.nodup_nil, by simp [unpinBatch], by simp [unpinBatch], ?_, ?_⟩
  · intro d
    refine List.Perm.trans ?_ (hb.covered d)
    have hrows := streamPositions_perm d (hperm.map PendingRow.position)
    rw [List.map_append, streamPositions_append] at hrows
    rw [List.perm_iff_count] at hrows ⊢
    intro p
    have h1 := hrows p
    simp only [positions, unpinBatch, streamPositions_append, List.count_append] at h1 ⊢
    omega
  · exact Keyed.nodup_delete hb.rowIds _
  · have := hb.tally
    simp only [confirmedRecords, hbind, Option.map_some, Option.getD_some] at this
    simp [confirmedRecords, unpinBatch, this]
  · intro b' hb' d
    obtain rfl : _ = b' := Option.some.inj hb'
    have := hb.unseen b hbind d
    cases d <;> exact this

theorem Closed.pin (hc : Closed db confirmed) (hf : FreshClaim db ns b selected) (batchId : String) :
    Closed (pinBatch db b batchId selected) confirmed := by
  refine ⟨?_, ?_⟩
  · rw [pinBatch_checkpoint hf.bound]
    exact hc.books.pin hf batchId
  · have hflag := hc.flagged
    simp only [incomplete, hf.bound, Option.map_some, Option.getD_some] at hflag
    simpa [pinBatch, incomplete] using hflag

theorem Closed.unpin (hc : Closed db confirmed) (hb : db.binding = some b) (batchId : String) :
    Closed (unpinBatch db b batchId (pinnedRows db)) (confirmed ++ (pinnedRows db).map PendingRow.position) := by
  refine ⟨?_, ?_⟩
  · rw [unpinBatch_checkpoint hb]
    exact hc.books.unpin hb batchId
  · have hflag := hc.flagged
    simp only [incomplete, hb, Option.map_some, Option.getD_some] at hflag
    simpa [unpinBatch, incomplete] using hflag

end OcppBridge.Spool
