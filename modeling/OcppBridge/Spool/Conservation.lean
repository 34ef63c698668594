import OcppBridge.Spool.Pinned
import OcppBridge.Spool.Worker
import OcppBridge.Transition

namespace OcppBridge.Spool

open Spans Transaction Transition ExportGap

variable {limits : Limits} {env : Conditions} {w : Worker} {confirmed : List (Durability × Nat)} {request : Request}
  {db : Database}

/-- The worker's durable tables are closed, and so are those an open transfer works on. -/
structure Sound (w : Worker) (confirmed : List (Durability × Nat)) : Prop where
  closed : Closed w.durable confirmed
  copying : ∀ t ∈ w.active, Copying w.durable t.working t.active confirmed

/-- Everything one request can do to the durable tables: keep the claim, pin a new one, or confirm
the pinned rows. -/
inductive Moved (old new : Database) : Request → List PendingRow → Prop
  | kept {request : Request} (h : Keeps old new) : Moved old new request []
  | pinned {ns : ExportSpoolNamespace} {limit maxBytes : Nat} {b : Binding} {selected : List PendingRow}
      (hf : FreshClaim old ns b selected)
      (h : new = pinBatch old b (batchIdOf ns (b.nextDeliveryId + 1)) selected) :
      Moved old new (.claim ns limit maxBytes) []
  | confirmed {ns : ExportSpoolNamespace} {report : ExportReport} {b : Binding} (hc : Confirms old ns report)
      (hb : old.binding = some b) (ho : b.owns ns)
      (h : new = unpinBatch old b report.batchId (pinnedRows old)) :
      Moved old new (.settle ns report) (pinnedRows old)

def Outcome.Good (old : Worker) (confirmed : List (Durability × Nat)) (request : Request) (out : Outcome) : Prop :=
  Moved old.durable out.worker.durable request out.confirmed ∧
    Sound out.worker (confirmed ++ out.confirmed.map PendingRow.position)

theorem attempt_eq_ok {α : Type} {x : Except ExportSpoolError α} {a : α} (h : attempt env x = .ok a) : x = .ok a := by
  unfold attempt at h
  split at h
  · simp at h
  · exact h

theorem refuse_good (hs : Sound w confirmed) (e : ExportSpoolError) : (refuse w e).Good w confirmed request :=
  ⟨.kept (.refl _), by simpa [refuse] using hs⟩

theorem refuse_closed_good (hs : Sound w confirmed) (e : ExportSpoolError) :
    (refuse { w with active := none } e).Good w confirmed request :=
  ⟨.kept (.refl _), by simpa [refuse] using ⟨hs.closed, by simp⟩⟩

theorem commitStatus_good {w' : Worker} (hactive : w'.active = none) (hdb : Closed db confirmed)
    (hk : Keeps w.durable db) (ns : ExportSpoolNamespace) : (commitStatus w' ns [] db).Good w confirmed request :=
  ⟨.kept hk, by simpa [commitStatus] using ⟨hdb, by simp [hactive]⟩⟩

section

variable (hs : Sound w confirmed)

include hs

theorem handleBegin_good (hidle : w.active = none) (request : ExportSpoolRecordBegin) :
    (handleBegin limits env w request).Good w confirmed (.begin request) := by
  unfold handleBegin
  split
  · split
    · exact refuse_good hs _
    · rename_i hbegin
      obtain ⟨hclosed, hkeeps⟩ := begin_good hs.closed (attempt_eq_ok hbegin)
      exact commitStatus_good hidle hclosed hkeeps _
    · rename_i hbegin
      have hcopying := begin_good hs.closed (attempt_eq_ok hbegin)
      refine ⟨.kept (.refl _), ?_⟩
      simpa using ⟨hs.closed, by simpa using show Copying _ _ _ _ from hcopying⟩
  · exact refuse_good hs _

theorem handleIdle_good (hidle : w.active = none) (request : Request) :
    (handleIdle limits env w request).Good w confirmed request := by
  unfold handleIdle
  split
  · exact ⟨.kept (.refl _), by simpa using hs⟩
  · split
    · exact refuse_good hs _
    · rename_i hobserve
      obtain ⟨hclosed, hkeeps⟩ := observe_closed hs.closed (attempt_eq_ok hobserve)
      exact commitStatus_good hidle hclosed hkeeps _
  · split
    · exact refuse_good hs _
    · rename_i hgaps
      obtain ⟨hclosed, hkeeps⟩ := commitGaps_closed hs.closed (attempt_eq_ok hgaps)
      exact commitStatus_good hidle hclosed hkeeps _
  · exact handleBegin_good hs hidle _
  · split
    · exact refuse_good hs _
    · rename_i hclaim
      rcases claim_eq_ok (attempt_eq_ok hclaim) with ⟨_, -, rfl, -⟩ | ⟨-, rfl, -⟩ | ⟨b, selected, hf, rfl, -⟩
      · exact ⟨.kept (.refl _), by simpa using hs⟩
      · exact ⟨.kept (.refl _), by simpa using hs⟩
      · refine ⟨.pinned hf rfl, ?_⟩
        simpa using ⟨hs.closed.pin hf _, by simp [hidle]⟩
  · split
    · exact refuse_good hs _
    · rename_i hsettle
      rcases settle_eq_ok (attempt_eq_ok hsettle) with ⟨rfl, rfl, -⟩ | ⟨hc, rfl, b, hb, ho, rfl⟩
      · exact commitStatus_good hidle hs.closed (.refl _) _
      · refine ⟨.confirmed hc hb ho rfl, ?_⟩
        exact ⟨hs.closed.unpin hb _, by simp [commitStatus, hidle]⟩
  · exact refuse_good hs _
  · exact refuse_good hs _
  · exact ⟨.kept (.refl _), by simpa using hs⟩

theorem handleBusy_good {t : Transfer} (ht : w.active = some t) (request : Request) :
    (handleBusy env w t request).Good w confirmed request := by
  have hcopying := hs.copying t ht
  unfold handleBusy
  split
  · split
    · unfold handleAppend
      split
      · exact refuse_closed_good hs _
      · rename_i happend
        have hnew := append_copying hcopying (attempt_eq_ok happend)
        refine ⟨.kept (.refl _), ?_⟩
        simpa using ⟨hs.closed, by simpa using hnew⟩
    · exact refuse_good hs _
  · split
    · unfold handleFinish
      split
      · exact refuse_closed_good hs _
      · rename_i hfinish
        obtain ⟨hclosed, hkeeps⟩ := finish_closed hcopying (attempt_eq_ok hfinish)
        exact commitStatus_good rfl hclosed hkeeps _
    · exact refuse_good hs _
  · split
    · exact ⟨.kept (.refl _), by simpa using ⟨hs.closed, by simp⟩⟩
    · exact ⟨.kept (.refl _), by simpa using hs⟩
  all_goals exact refuse_good hs _

theorem sweep_sound : Sound w.sweep confirmed := by
  refine ⟨hs.closed, ?_⟩
  intro t ht
  exact hs.copying t (Option.filter_eq_some_iff.mp ht).1

end

theorem dispatch_good (limits : Limits) (env : Conditions) (hs : Sound w confirmed) (request : Request) :
    (dispatch limits env w request).Good w confirmed request := by
  have hsweep := sweep_sound hs
  unfold dispatch
  split
  · exact handleIdle_good hsweep (by assumption) request
  · exact handleBusy_good hsweep (by assumption) request

theorem empty_closed : Closed .empty [] where
  books := by
    refine ⟨⟨by simp [Database.empty], by simp [Database.empty]⟩, ?_, by simp [Database.empty], ?_, ?_, ?_, ?_, ?_, ?_⟩
    · intro d
      simp [Database.empty, Database.positions, streamPositions, Database.checkpoint, span_eq_nil]
    all_goals simp [Database.empty, Database.confirmedRecords]
  flagged := by simp [Database.empty]

theorem step_sound (limits : Limits) {w : World} (hs : Sound w.worker w.confirmed) (e : Event) :
    Sound (step limits w e).worker (step limits w e).confirmed := by
  cases e with
  | request env request => exact (dispatch_good limits env hs request).2
  | dropTransfer =>
      refine ⟨hs.closed, ?_⟩
      intro t ht
      obtain ⟨t', ht', rfl⟩ := Option.map_eq_some_iff.mp ht
      exact hs.copying t' ht'
  | crash => exact ⟨hs.closed, by simp [step]⟩

theorem run_sound (limits : Limits) (events : List Event) :
    Sound (run limits events).worker (run limits events).confirmed := by
  refine run_invariant (P := fun w : World => Sound w.worker w.confirmed)
    (fun w e hs => step_sound limits hs e) events ?_
  exact ⟨empty_closed, by simp [World.init]⟩

theorem Moved.incomplete {old new : Database} {rows : List PendingRow} (h : Moved old new request rows)
    (hinc : old.incomplete) : new.incomplete := by
  cases h with
  | kept h => exact h.incomplete hinc
  | pinned hf h =>
      subst h
      simpa [Database.incomplete, pinBatch, hf.bound] using hinc
  | confirmed _ hb _ h =>
      subst h
      simpa [Database.incomplete, unpinBatch, hb] using hinc

theorem step_incomplete {w : World} (hs : Sound w.worker w.confirmed) (e : Event)
    (hinc : w.worker.durable.incomplete) : (step limits w e).worker.durable.incomplete := by
  cases e with
  | request env request => exact (dispatch_good limits env hs request).1.incomplete hinc
  | dropTransfer => exact hinc
  | crash => exact hinc

theorem run_incomplete {events : List Event} (later : List Event)
    (hinc : (run limits events).worker.durable.incomplete) :
    (run limits (events ++ later)).worker.durable.incomplete := by
  rw [run, List.foldl_append]
  refine (run_invariant (P := fun w : World => Sound w.worker w.confirmed ∧ w.worker.durable.incomplete)
    (fun w e h => ⟨step_sound limits h.1 e, step_incomplete h.1 e h.2⟩) later ⟨run_sound limits events, hinc⟩).2

theorem count_streamPositions (d : Durability) (p : Nat) (xs : List (Durability × Nat)) :
    (streamPositions d xs).count p = xs.count (d, p) := by
  induction xs with
  | nil => simp [streamPositions]
  | cons x xs ih =>
      rw [← List.singleton_append, streamPositions_append, List.count_append, List.count_append, ih,
        streamPositions_singleton]
      obtain ⟨x1, x2⟩ := x
      by_cases hd : x1 = d <;> by_cases hp : x2 = p <;> simp [hd, hp]

/-- The recorded gap covers position `p` of stream `d`. -/
def ExportGap.covers (g : ExportGap) (d : Durability) (p : Nat) : Prop :=
  g.durability = d ∧ g.first ≤ p ∧ p ≤ g.last

instance (g : ExportGap) (d : Durability) (p : Nat) : Decidable (g.covers d p) :=
  inferInstanceAs (Decidable (_ ∧ _ ∧ _))

theorem count_gapPositions (d : Durability) (p : Nat) (gaps : List ExportGap) :
    (gapPositions gaps d).count p = gaps.countP (·.covers d p) := by
  induction gaps with
  | nil => simp
  | cons g gaps ih =>
      rw [gapPositions_cons, List.count_append, ih, gapPositions_singleton, List.countP_cons, Nat.add_comm]
      congr 1
      by_cases hd : g.durability = d
      · by_cases hp : g.first ≤ p ∧ p ≤ g.last
        · simp [hd, hp, covers, positions, List.count_eq_one_of_mem (nodup_span _ _) (mem_span.mpr hp)]
        · have hnot : p ∉ g.positions := by simpa [positions] using hp
          simp only [hd, if_true, covers, true_and]
          rw [List.count_eq_zero_of_not_mem hnot]
          simp [hp]
      · simp [hd, covers]

theorem Closed.exactly_one (hc : Closed db confirmed) {d : Durability} {p : Nat} (hp : 1 ≤ p)
    (hle : p ≤ db.checkpoint d) :
    db.positions.count (d, p) + confirmed.count (d, p) + db.gaps.countP (·.covers d p) = 1 := by
  have hcount := (List.perm_iff_count.mp (hc.books.covered d)) p
  rw [List.count_append, List.count_append, count_streamPositions, count_streamPositions, count_gapPositions,
    List.count_eq_one_of_mem (nodup_span _ _) (mem_span.mpr ⟨hp, hle⟩)] at hcount
  exact hcount

theorem GapTable.pairwise {gaps : List ExportGap} (h : GapTable gaps) : gaps.Pairwise fun g g' => ¬g.overlaps g' := by
  induction gaps with
  | nil => exact .nil
  | cons g gaps ih =>
      refine .cons ?_ (ih h.tail)
      rintro g' hg' ⟨hd, hfirst, hlast⟩
      have hnodup := h.nodup g.durability
      rw [gapPositions_cons, List.nodup_append] at hnodup
      have hg := h.proper g (by simp)
      have hp := h.proper g' (by simp [hg'])
      have hmem : max g.first g'.first ∈ gapPositions [g] g.durability :=
        mem_gapPositions.mpr ⟨g, by simp, rfl, by omega, by omega⟩
      have hmem' : max g.first g'.first ∈ gapPositions gaps g.durability :=
        mem_gapPositions.mpr ⟨g', hg', hd.symm, by omega, by omega⟩
      exact hnodup.2.2 _ hmem _ hmem' rfl

theorem Closed.gap_pending_disjoint (hc : Closed db confirmed) {g : ExportGap} (hg : g ∈ db.gaps) {row : PendingRow}
    (hrow : row ∈ db.pending) : ¬g.covers row.durability row.sequence := by
  rintro ⟨hd, hfirst, hlast⟩
  have hnodup := (hc.books.covered row.durability).nodup_iff.mpr (nodup_span _ _)
  rw [List.append_assoc, List.nodup_append] at hnodup
  have hpending : row.sequence ∈ streamPositions row.durability db.positions :=
    mem_streamPositions.mpr (List.mem_map.mpr ⟨row, hrow, rfl⟩)
  have hgap : row.sequence ∈ gapPositions db.gaps row.durability :=
    mem_gapPositions.mpr ⟨g, hg, hd, hfirst, hlast⟩
  exact hnodup.2.2 _ hpending _ (List.mem_append_right _ hgap) rfl

theorem length_streams (xs : List (Durability × Nat)) :
    (streamPositions .critical xs).length + (streamPositions .bestEffortTelemetry xs).length = xs.length := by
  induction xs with
  | nil => rfl
  | cons x xs ih =>
      obtain ⟨d, p⟩ := x
      cases d <;> simp [streamPositions] at ih ⊢ <;> omega

theorem length_gaps (gaps : List ExportGap) :
    (gapPositions gaps .critical).length + (gapPositions gaps .bestEffortTelemetry).length =
      (gaps.map count).sum := by
  induction gaps with
  | nil => rfl
  | cons g gaps ih =>
      rw [gapPositions_cons g gaps .critical, gapPositions_cons g gaps .bestEffortTelemetry, List.length_append,
        List.length_append, List.map_cons, List.sum_cons, ← ih, gapPositions_singleton, gapPositions_singleton]
      cases hd : g.durability <;> simp [positions, count] <;> omega

theorem Closed.balance (hc : Closed db confirmed) :
    db.confirmedRecords + db.pending.length + (db.gaps.map count).sum =
      db.checkpoint .critical + db.checkpoint .bestEffortTelemetry := by
  have hcritical := (hc.books.covered .critical).length_eq
  have htelemetry := (hc.books.covered .bestEffortTelemetry).length_eq
  have hrows := length_streams db.positions
  have hconfirmed := length_streams confirmed
  have hgaps := length_gaps db.gaps
  have htally := hc.books.tally
  simp only [List.length_append, length_span] at hcritical htelemetry
  simp only [Database.positions, List.length_map] at hrows hcritical htelemetry
  omega

/-- The namespace a request is about: the one it names, or that of the record being copied. -/
def Request.space (w : Worker) : Request → Option ExportSpoolNamespace
  | .status ns | .observe ns _ _ _ | .claim ns _ _ | .settle ns _ => some ns
  | .commitGaps progress => some progress.space
  | .begin request => some request.progress.space
  | .append _ _ | .finish _ => w.active.map (·.active.progress.space)
  | .abort _ => none

/-- An error reply comes from before the commit, unless reading the status after it failed. -/
def Outcome.Explained (old : Worker) (space : Option ExportSpoolNamespace) (out : Outcome) : Prop :=
  ∀ e, out.reply = .error e →
    out.worker.durable = old.durable ∨ ∃ ns ∈ space, status out.worker.durable ns = .error e

theorem commitStatus_explained {space : Option ExportSpoolNamespace} {ns : ExportSpoolNamespace} (h : space = some ns)
    (w w' : Worker) (rows : List PendingRow) (db : Database) : (commitStatus w' ns rows db).Explained w space := by
  intro e he
  refine .inr ⟨ns, h, ?_⟩
  simp only [commitStatus, statusReply] at he
  cases hs : status db ns with
  | error e' => simpa [commitStatus, hs, Except.map] using he
  | ok s => simp [hs, Except.map] at he

theorem handleIdle_explained (w : Worker) (request : Request) :
    (handleIdle limits env w request).Explained w (request.space w) := by
  unfold handleIdle handleBegin
  repeat' split
  all_goals first
    | exact commitStatus_explained rfl _ _ _ _
    | exact fun e he => .inl rfl
    | exact fun e he => by simp at he

theorem handleBusy_explained {t : Transfer} (ht : w.active = some t) (request : Request) :
    (handleBusy env w t request).Explained w (request.space w) := by
  unfold handleBusy handleAppend handleFinish
  repeat' split
  all_goals first
    | exact commitStatus_explained (by simp [Request.space, ht]) _ _ _ _
    | exact fun e he => .inl rfl

theorem dispatch_explained (w : Worker) (request : Request) :
    (dispatch limits env w request).Explained w (request.space w.sweep) := by
  unfold dispatch
  split
  · exact handleIdle_explained w.sweep request
  · exact handleBusy_explained (by assumption) request

/-- Conservation of source positions in the spool, over every run and under any space pressure. -/
theorem run_conserves (limits : Limits) (events : List Event) :
    let w := run limits events
    let db := w.worker.durable
    (∀ d p, 1 ≤ p → p ≤ db.checkpoint d →
      db.positions.count (d, p) + w.confirmed.count (d, p) + db.gaps.countP (·.covers d p) = 1) ∧
    (db.gaps.Pairwise fun g g' => ¬g.overlaps g') ∧
    (∀ g ∈ db.gaps, ∀ row ∈ db.pending, ¬g.covers row.durability row.sequence) ∧
    db.confirmedRecords = w.confirmed.length ∧
    db.confirmedRecords + db.pending.length + (db.gaps.map count).sum =
      db.checkpoint .critical + db.checkpoint .bestEffortTelemetry ∧
    (∀ g ∈ db.gaps, g.durability = .critical →
      g.reason ≠ .telemetryDropped ∧ g.reason ≠ .telemetryEvicted) ∧
    (db.gaps ≠ [] → db.incomplete) ∧
    (db.incomplete → ∀ later, (run limits (events ++ later)).worker.durable.incomplete) ∧
    (∀ env request e, (dispatch limits env w.worker request).reply = .error e →
      (dispatch limits env w.worker request).worker.durable = db ∨
        ∃ ns ∈ request.space w.worker.sweep,
          status (dispatch limits env w.worker request).worker.durable ns = .error e) := by
  have hs := run_sound limits events
  refine ⟨fun d p hp hle => hs.closed.exactly_one hp hle, hs.closed.books.table.pairwise,
    fun g hg row hrow => hs.closed.gap_pending_disjoint hg hrow, hs.closed.books.tally, hs.closed.balance, ?_,
    hs.closed.flagged, fun hinc later => run_incomplete later hinc, fun env request => dispatch_explained _ request⟩
  intro g hg hd
  rw [hs.closed.books.reasons g hg hd]
  exact ⟨by decide, by decide⟩

end OcppBridge.Spool
