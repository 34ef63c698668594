import OcppBridge.Spool.Books

namespace OcppBridge.Spool

open Spans Transaction

variable {limits : Limits} {db db' : Database} {confirmed : List (Durability × Nat)} {n : Durability → Nat}
  {ns : ExportSpoolNamespace} {b : Binding} {p : ExportSpoolGapCommit}

theorem binding_eq_ok {bound : Bool} (h : binding db ns = .ok bound) :
    (bound = true ∧ ∃ b, db.binding = some b ∧ b.owns ns) ∨ (bound = false ∧ db.binding = none) := by
  unfold binding at h
  split at h
  · simp_all
  · simp only [bind_eq_ok, require_eq_ok, pure_eq_ok] at h
    obtain ⟨_, howns, hbound⟩ := h
    exact .inl ⟨hbound.symm, _, by assumption, howns⟩

theorem ensureBinding_eq_ok (h : ensureBinding db ns = .ok db') :
    ∃ b, db' = { db with binding := some b } ∧ b.owns ns ∧
      (db.binding = some b ∨ (db.binding = none ∧ b = newBinding ns)) := by
  simp only [ensureBinding, bind_eq_ok] at h
  obtain ⟨bound, hbound, hdb⟩ := h
  rcases binding_eq_ok hbound with ⟨rfl, b, hb, howns⟩ | ⟨rfl, hb⟩
  · simp only [if_true, pure_eq_ok] at hdb
    refine ⟨b, ?_, howns, .inl hb⟩
    rw [← hdb, ← hb]
  · simp only [Bool.false_eq_true, if_false, pure_eq_ok] at hdb
    exact ⟨newBinding ns, hdb.symm, ⟨rfl, rfl, rfl, rfl⟩, .inr ⟨hb, rfl⟩⟩

@[simp] theorem newBinding_column (ns : ExportSpoolNamespace) (d : Durability) :
    (newBinding ns).column d = ⟨none, 0, 0⟩ := by
  cases d <;> rfl

theorem checkpoint_of_binding (hb : db.binding = some b) (d : Durability) : db.checkpoint d = (b.column d).seq := by
  simp [Database.checkpoint, hb]

theorem ensureBinding_checkpoint (h : ensureBinding db ns = .ok db') : db'.checkpoint = db.checkpoint := by
  obtain ⟨b, rfl, -, hb | ⟨hb, rfl⟩⟩ := ensureBinding_eq_ok h
  · funext d
    simp [Database.checkpoint, hb]
  · funext d
    simp [Database.checkpoint, hb]

theorem ensureBinding_keeps (h : ensureBinding db ns = .ok db') : Keeps db db' := by
  obtain ⟨b, rfl, -, hb | ⟨hb, rfl⟩⟩ := ensureBinding_eq_ok h
  · exact ⟨rfl, rfl, fun _ h _ => h, fun x hx => ⟨x, by simp_all, rfl, rfl, rfl, rfl⟩,
      by simp [Database.incomplete, hb]⟩
  · exact ⟨rfl, rfl, fun _ h _ => h, by simp [hb], by simp [Database.incomplete, hb]⟩

theorem ensureBinding_books (hb : Books db confirmed n) (h : ensureBinding db ns = .ok db') :
    Books db' confirmed n := by
  obtain ⟨b, rfl, -, hbind | ⟨hbind, rfl⟩⟩ := ensureBinding_eq_ok h
  · exact { hb with
      tally := by have := hb.tally; simpa [Database.confirmedRecords, hbind] using this
      unseen := fun x hx => hb.unseen x (by simp_all) }
  · exact { hb with
      tally := by have := hb.tally; simpa [Database.confirmedRecords, hbind, newBinding] using this
      unseen := fun x hx d => by
        obtain rfl : newBinding ns = x := by simpa using hx
        simp }

theorem checkpoint_eq_ok {c : StreamColumns} {o : Option ExportSourceCheckpoint}
    (h : checkpoint c = .ok o) : o = c.cursor.map fun cursor => ⟨cursor, c.seq⟩ := by
  unfold checkpoint at h
  split at h
  · simp_all
  · simp only [bind_eq_ok, require_eq_ok, pure_eq_ok] at h
    simp_all

theorem status_checkpoint {s : ExportSpoolStatus} (hb : db.binding = some b) (h : status db ns = .ok s)
    (d : Durability) : s.checkpoint d = (b.column d).cursor.map fun cursor => ⟨cursor, (b.column d).seq⟩ := by
  simp only [status, hb, boundStatus, bind_eq_ok, pure_eq_ok] at h
  obtain ⟨_, -, _, -, critical, hc, telemetry, ht, _, -, _, -, rfl⟩ := h
  cases d with
  | critical => exact checkpoint_eq_ok hc
  | bestEffortTelemetry => exact checkpoint_eq_ok ht

theorem checkGaps_eq_ok {d : Durability} {gaps : List ExportGap} {covered last : Nat}
    (h : checkGaps d covered gaps = .ok last) :
    covered ≤ last ∧ (∀ d', gapPositions gaps d' = if d' = d then span (covered + 1) last else []) ∧
      ∀ g ∈ gaps, g.durability = d ∧ g.reason = .sourceExpired := by
  induction gaps generalizing covered with
  | nil =>
      simp only [checkGaps, pure_eq_ok] at h
      subst h
      refine ⟨le_rfl, fun d' => ?_, by simp⟩
      simp [span_eq_nil]
  | cons gap gaps ih =>
      simp only [checkGaps, bind_eq_ok, require_eq_ok] at h
      obtain ⟨_, ⟨hd, hreason, -, hfirst, hlast⟩, hrest⟩ := h
      obtain ⟨hle, hpos, hall⟩ := ih hrest
      refine ⟨by omega, ?_, ?_⟩
      · intro d'
        rw [gapPositions_cons, gapPositions_singleton, hpos, hd]
        by_cases hd' : d' = d
        · simp only [hd', if_true, ExportGap.positions, hfirst]
          exact span_append (by omega) hle
        · simp [hd', Ne.symm hd']
      · intro g hg
        rcases List.mem_cons.mp hg with rfl | hg
        · exact ⟨hd, hreason⟩
        · exact hall g hg

/-- What an accepted progress request says: its gaps run from the expected checkpoint to its record, or its end. -/
structure Progress (p : ExportSpoolGapCommit) (last : Nat) : Prop where
  start : previousSequence p ≤ last
  positions : ∀ d, gapPositions p.gaps d = if d = p.durability then span (previousSequence p + 1) last else []
  reasons : ∀ g ∈ p.gaps, g.durability = p.durability ∧ g.reason = .sourceExpired

theorem validate_gaps {u : Unit} (h : validate p none = .ok u) : Progress p p.next.sequence := by
  simp only [validate, checkRecord, bind_eq_ok, require_eq_ok, pure_eq_ok] at h
  obtain ⟨_, -, _, -, _, -, _, -, _, -, _, -, last, hgaps, _, rfl, rfl⟩ := h
  obtain ⟨hle, hpos, hall⟩ := checkGaps_eq_ok hgaps
  exact ⟨hle, hpos, hall⟩

theorem validate_record {record : CommittedRecordDescriptor} {u : Unit} (h : validate p (some record) = .ok u) :
    ∃ last, Progress p last ∧ record.sequence = last + 1 ∧ p.next.sequence = last + 1 := by
  simp only [validate, checkRecord, checkDescriptor, bind_eq_ok, require_eq_ok, pure_eq_ok] at h
  obtain ⟨_, -, _, -, _, -, _, -, _, -, _, -, last, hgaps, _, ⟨_, hrecord, rfl⟩, hnext⟩ := h
  obtain ⟨hle, hpos, hall⟩ := checkGaps_eq_ok hgaps
  exact ⟨last, ⟨hle, hpos, hall⟩, hrecord.2.2.1, by omega⟩

/-- State inside a transaction that has accounted for stream `d` up to `m` but not yet moved its
checkpoint there. -/
structure Working (durable working : Database) (confirmed : List (Durability × Nat)) (d : Durability)
    (m : Nat) : Prop where
  books : Books working confirmed (Function.update durable.checkpoint d m)
  keeps : Keeps durable working
  checkpoint : working.checkpoint = durable.checkpoint
  bound : working.binding ≠ none

/-- State between transactions: the books are closed at the checkpoints and gaps are flagged. -/
structure Closed (db : Database) (confirmed : List (Durability × Nat)) : Prop where
  books : Books db confirmed db.checkpoint
  flagged : db.gaps ≠ [] → db.incomplete

theorem insertGaps_keeps {new : List ExportGap} (db : Database) : Keeps db { db with gaps := new } :=
  ⟨rfl, rfl, fun _ h _ => h, fun b hb => ⟨b, hb, rfl, rfl, rfl, rfl⟩, id⟩

theorem expected_sequence (hbooks : Books db confirmed n) (hb : db.binding = some b)
    (hexp : (b.column p.durability).cursor.map (fun cursor => ⟨cursor, (b.column p.durability).seq⟩) = p.expected) :
    previousSequence p = db.checkpoint p.durability := by
  rw [previousSequence, ← hexp, checkpoint_of_binding hb]
  cases hc : (b.column p.durability).cursor with
  | none => simpa using (hbooks.unseen b hb _ hc).symm
  | some cursor => simp

theorem prepare_working {last : Nat} (hbooks : Books db confirmed db.checkpoint) (hp : Progress p last)
    (h : prepare limits db p = .ok db') : Working db db' confirmed p.durability last := by
  simp only [prepare, bind_eq_ok, require_eq_ok] at h
  obtain ⟨mid, hmid, existing, hstatus, _, hexp, hgaps⟩ := h
  have hbooks' := ensureBinding_books hbooks hmid
  have hcheck := ensureBinding_checkpoint hmid
  have hkeeps := ensureBinding_keeps hmid
  obtain ⟨b, hb, -, -⟩ := ensureBinding_eq_ok hmid
  have hbind : mid.binding = some b := by rw [hb]
  rw [status_checkpoint hbind hstatus] at hexp
  have hprev := expected_sequence hbooks' hbind hexp
  rw [hcheck] at hprev
  obtain ⟨gaps, rfl, hadded⟩ := insertGaps_added hbooks'.table hgaps
  refine ⟨?_, hkeeps.trans (insertGaps_keeps mid), hcheck, by simp [hbind]⟩
  refine hbooks'.addGaps hadded (hprev ▸ hp.start) (fun d => hprev ▸ hp.positions d) ?_
  intro g hg _
  exact (hp.reasons g hg).2

theorem setColumn_column (b : Binding) (d d' : Durability) (c : StreamColumns) :
    (b.setColumn d c).column d' = if d' = d then c else b.column d' := by
  cases d <;> cases d' <;> rfl

/-- Row of the binding table after `complete`. -/
def advance (p : ExportSpoolGapCommit) (gaps : List ExportGap) (b : Binding) : Binding :=
  { b.setColumn p.durability ⟨some p.next.cursor, p.next.sequence,
      max (b.column p.durability).high p.highWater⟩ with
    incomplete := b.incomplete || !gaps.isEmpty || p.legacyBaselineIncomplete
    legacy := b.legacy || p.legacyBaselineIncomplete }

theorem advance_column (p : ExportSpoolGapCommit) (gaps : List ExportGap) (b : Binding) (d : Durability) :
    (advance p gaps b).column d = if d = p.durability then
      ⟨some p.next.cursor, p.next.sequence, max (b.column p.durability).high p.highWater⟩ else b.column d :=
  setColumn_column b p.durability d _

theorem setColumn_identity (b : Binding) (d : Durability) (c : StreamColumns) :
    (b.setColumn d c).destination = b.destination ∧ (b.setColumn d c).revision = b.revision ∧
      (b.setColumn d c).generation = b.generation ∧ (b.setColumn d c).nextDeliveryId = b.nextDeliveryId ∧
      (b.setColumn d c).confirmedRecords = b.confirmedRecords ∧
      (b.setColumn d c).incomplete = b.incomplete := by
  cases d <;> exact ⟨rfl, rfl, rfl, rfl, rfl, rfl⟩

theorem advance_identity (p : ExportSpoolGapCommit) (gaps : List ExportGap) (b : Binding) :
    (advance p gaps b).destination = b.destination ∧ (advance p gaps b).revision = b.revision ∧
      (advance p gaps b).generation = b.generation ∧ (advance p gaps b).nextDeliveryId = b.nextDeliveryId ∧
      (advance p gaps b).confirmedRecords = b.confirmedRecords := by
  obtain ⟨h1, h2, h3, h4, h5, -⟩ := setColumn_identity b p.durability ⟨some p.next.cursor, p.next.sequence,
      max (b.column p.durability).high p.highWater⟩
  exact ⟨h1, h2, h3, h4, h5⟩

theorem complete_eq_ok (h : complete db p = .ok db') :
    db' = { db with binding := db.binding.map (advance p db.gaps) } := by
  simp only [complete, bind_eq_ok, pure_eq_ok] at h
  obtain ⟨_, -, _, -, hdb⟩ := h
  exact hdb.symm

theorem complete_closed {durable working : Database}
    (hw : Working durable working confirmed p.durability p.next.sequence) (h : complete working p = .ok db') :
    Closed db' confirmed ∧ Keeps durable db' := by
  obtain ⟨b, hb⟩ := Option.ne_none_iff_exists'.mp hw.bound
  obtain rfl := complete_eq_ok h
  have hid := advance_identity p working.gaps b
  have hcheck : Database.checkpoint { working with binding := working.binding.map (advance p working.gaps) } =
      Function.update durable.checkpoint p.durability p.next.sequence := by
    funext d
    have hnew : Option.map (advance p working.gaps) working.binding = some (advance p working.gaps b) := by
      rw [hb, Option.map_some]
    rw [checkpoint_of_binding hnew, advance_column, ← hw.checkpoint]
    by_cases hd : d = p.durability
    · simp [hd]
    · simp [hd, checkpoint_of_binding hb]
  refine ⟨⟨?_, ?_⟩, hw.keeps.trans ⟨rfl, rfl, fun _ h _ => h, ?_, ?_⟩⟩
  · rw [hcheck]
    refine { hw.books with tally := ?_, unseen := ?_ }
    · have := hw.books.tally
      simpa [Database.confirmedRecords, hb, hid] using this
    · intro b' hb' d hnone
      obtain rfl : advance p working.gaps b = b' := by simpa [hb] using hb'
      rw [advance_column] at hnone ⊢
      by_cases hd : d = p.durability
      · simp [hd] at hnone
      · simp only [hd, if_false] at hnone ⊢
        exact hw.books.unseen b hb d hnone
  · intro hgaps
    have hempty : working.gaps.isEmpty = false := by simpa using hgaps
    simp [Database.incomplete, hb, advance, hempty]
  · intro x hx
    obtain rfl : b = x := by simpa [hb] using hx
    exact ⟨_, by simp [hb], hid.1, hid.2.1, hid.2.2.1, hid.2.2.2.1⟩
  · intro hinc
    simp only [Database.incomplete, hb, Option.map_some, Option.getD_some] at hinc ⊢
    simp [advance, hinc]

theorem observe_closed {d : Durability} {highWater : Nat} {legacy : Bool} (hc : Closed db confirmed)
    (h : observe db ns d highWater legacy = .ok db') : Closed db' confirmed ∧ Keeps db db' := by
  simp only [observe, bind_eq_ok, pure_eq_ok] at h
  obtain ⟨_, -, _, -, _, -, mid, hmid, rfl⟩ := h
  have hbooks := ensureBinding_books hc.books hmid
  have hcheck := ensureBinding_checkpoint hmid
  have hkeeps := ensureBinding_keeps hmid
  obtain ⟨b, rfl, -, -⟩ := ensureBinding_eq_ok hmid
  have hid := setColumn_identity b d { b.column d with high := max (b.column d).high highWater }
  have hseq : ∀ d', ((b.setColumn d { b.column d with high := max (b.column d).high highWater }).column d').seq =
      (b.column d').seq ∧
      ((b.setColumn d { b.column d with high := max (b.column d).high highWater }).column d').cursor =
        (b.column d').cursor := by
    intro d'
    rw [setColumn_column]
    by_cases hd : d' = d <;> simp [hd]
  have hincomplete := hkeeps.incomplete
  simp only [Database.incomplete, Option.map_some, Option.getD_some] at hincomplete
  refine ⟨⟨?_, ?_⟩, hkeeps.trans ⟨rfl, rfl, fun _ h _ => h, ?_, ?_⟩⟩
  · have hsame : Database.checkpoint
        { db with binding := some { b.setColumn d { b.column d with high := max (b.column d).high highWater } with
          incomplete := b.incomplete || legacy, legacy := b.legacy || legacy } } = db.checkpoint := by
      rw [← hcheck]
      funext d'
      exact (hseq d').1
    simp only [Option.map_some]
    rw [hsame]
    refine { hbooks with tally := ?_, unseen := ?_ }
    · have := hbooks.tally
      simpa [Database.confirmedRecords, hid] using this
    · intro b' hb' d' hnone
      obtain rfl : _ = b' := Option.some.inj hb'
      exact ((hseq d').1).trans (hbooks.unseen b rfl d' (((hseq d').2).symm.trans hnone))
  · intro hgaps
    have hold := hincomplete (hc.flagged hgaps)
    simp [Database.incomplete, hold]
  · intro x hx
    obtain rfl : b = x := Option.some.inj hx
    exact ⟨_, rfl, hid.1, hid.2.1, hid.2.2.1, hid.2.2.2.1⟩
  · intro hinc
    simp only [Database.incomplete, Option.map_some, Option.getD_some] at hinc ⊢
    simp [hinc]

theorem commitGaps_closed (hc : Closed db confirmed) (h : commitGaps limits db p = .ok db') :
    Closed db' confirmed ∧ Keeps db db' := by
  simp only [commitGaps, bind_eq_ok] at h
  obtain ⟨_, hvalid, mid, hprepare, hcomplete⟩ := h
  exact complete_closed (prepare_working hc.books (validate_gaps hvalid) hprepare) hcomplete

end OcppBridge.Spool
