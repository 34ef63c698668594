import OcppBridge.Outbox.Change
import OcppBridge.Rewriting

namespace OcppBridge.Outbox

open Storage Transaction Transition

def greatest (sequences : List Nat) : Nat := sequences.foldr max 0

theorem le_greatest {sequences : List Nat} {n : Nat} (h : n ∈ sequences) : n ≤ greatest sequences := by
  induction sequences with
  | nil => cases h
  | cons m sequences ih =>
      rcases List.mem_cons.mp h with rfl | h
      · exact le_max_left _ _
      · exact (ih h).trans (le_max_right _ _)

/-- The operational database as it lies in its file. -/
structure DatabaseFile where
  version : Nat
  db : Database
  counter : Option Nat

namespace DatabaseFile

def nextEventSequence (file : DatabaseFile) : Except StorageError (DatabaseFile × Nat) :=
  match file.counter with
  | none => .error unavailable
  | some value =>
      if value < maxSqlInteger then .ok ({ file with counter := some (value + 1) }, value + 1) else .error unavailable

def write (policy : RetentionPolicy) (file : DatabaseFile) (refusal : Option StorageError) (write : EncodedWrite) :
    Except StorageError DatabaseFile := do
  let (db, write) ← prepareWrite policy file.db write
  refusal.forM (.error ·)
  let counter := file.counter.map (max · (greatest (write.events.map (·.sequence))))
  let db ← insertRows db write
  pure { file with db, counter }

def handle (policy : RetentionPolicy) (file : DatabaseFile) : Request → Except StorageError DatabaseFile
  | .write refusal write => file.write policy refusal write
  | request => do
      let db ← file.db.handle policy request
      pure { file with db }

section Migration

def schemaVersion : Nat := 21

def newerSchema : StorageError := ⟨.unavailable, "operational database schema is newer than this release"⟩

def normalizeEventStreamKey (canonical : EventRow → Except StorageError String) (events : List EventRow)
    (row : EventRow) : Except StorageError (List EventRow) := do
  let key ← canonical row
  if key = row.resource then pure events
  else
    require (∀ other ∈ events, (other.resource, other.sequence) ≠ (key, row.sequence)) constraintViolation
    pure (events.map fun e => if e.rowId = row.rowId then { e with resource := key } else e)

def pageRows : Nat := 128

def normalizeEventStreamKeys (canonical : EventRow → Except StorageError String) (events : List EventRow) :
    Except StorageError (List EventRow) :=
  Rewriting.walk (·.rowId) pageRows (normalizeEventStreamKey canonical) (events.length + 1) 0 events

/-- Journal rewrites are versioned, so that a current file does not decode its history on every open. -/
def normalizeJournal (canonical : EventRow → Except StorageError String) (file : DatabaseFile) :
    Except StorageError (List EventRow) :=
  if file.version < 9 then normalizeEventStreamKeys canonical file.db.events else pure file.db.events

def seed (file : DatabaseFile) : Nat :=
  max (file.counter.getD 0) (max (greatest (file.db.events.map (·.sequence))) file.db.lastEventRow)

def migrate (canonical : EventRow → Except StorageError String) (refusal : Option StorageError) (file : DatabaseFile) :
    Except StorageError DatabaseFile := do
  require (file.version ≤ schemaVersion) newerSchema
  refusal.forM (.error ·)
  let events ← file.normalizeJournal canonical
  let file := { file with db := { file.db with events } }
  pure { file with version := schemaVersion, counter := some file.seed }

end Migration

inductive Op
  | reserve
  | request (request : Request)
  | reopen (refusal : Option StorageError)

def apply (policy : RetentionPolicy) (canonical : EventRow → Except StorageError String) (file : DatabaseFile) :
    Op → Except StorageError DatabaseFile
  | .reserve => Prod.fst <$> file.nextEventSequence
  | .request request => file.handle policy request
  | .reopen refusal => file.migrate canonical refusal

def step (policy : RetentionPolicy) (canonical : EventRow → Except StorageError String)
    (file : DatabaseFile) (op : Op) : DatabaseFile :=
  match file.apply policy canonical op with
  | .ok file => file
  | .error _ => file

def run (policy : RetentionPolicy) (canonical : EventRow → Except StorageError String) (file : DatabaseFile)
    (ops : List Op) : DatabaseFile :=
  ops.foldl (step policy canonical) file

variable {policy : RetentionPolicy} {canonical : EventRow → Except StorageError String} {refusal : Option StorageError}
  {file file' : DatabaseFile} {value : Nat}

/-- The counter is there and is not below any sequence number of the journal. -/
structure Dominates (file : DatabaseFile) (value : Nat) : Prop where
  counter : file.counter = some value
  journal : ∀ e ∈ file.db.events, e.sequence ≤ value

theorem insertRows_sequences {db db' : Database} {write : EncodedWrite} (h : insertRows db write = .ok db') :
    ∀ e ∈ db'.events, e ∈ db.events ∨ e.sequence ∈ write.events.map (·.sequence) := by
  obtain ⟨d₁, d₂, h₁, h₂, h₃, _⟩ := insertRows_eq_ok h
  have hevents : ∃ new, d₁.events = db.events ++ new ∧
      List.Forall₂ (fun (row : EventRow) (value : EncodedEvent) => row.sequence = value.sequence) new write.events := by
    refine foldlM_appends h₁ fun hwrite => ?_
    obtain ⟨_, _, rfl⟩ := writeEvent_eq_ok hwrite
    exact ⟨_, rfl, rfl⟩
  have hdeliveries : d₂.events = d₁.events := foldlM_keeps (g := Database.events) h₂ fun hwrite => by
    obtain ⟨_, rfl⟩ := writeDelivery_eq_ok hwrite
    rfl
  have hrecords : db'.events = d₂.events := foldlM_keeps (g := Database.events) h₃ fun hwrite => by
    obtain ⟨_, _, rfl⟩ := writeRecord_eq_ok hwrite
    rfl
  obtain ⟨new, hnew, hall⟩ := hevents
  have hsequences : new.map (·.sequence) = write.events.map (·.sequence) := by
    rw [← List.forall₂_eq_eq_eq, List.forall₂_map_left_iff, List.forall₂_map_right_iff]
    exact hall
  intro e he
  rw [hrecords, hdeliveries, hnew, List.mem_append] at he
  exact he.imp_right fun he => hsequences ▸ List.mem_map_of_mem he

theorem write_eq_ok {write : EncodedWrite} (h : file.write policy refusal write = .ok file') :
    ∃ db kept, prepareWrite policy file.db write = .ok (db, kept) ∧ insertRows db kept = .ok file'.db ∧
      file'.counter = file.counter.map (max · (greatest (kept.events.map (·.sequence)))) := by
  simp only [DatabaseFile.write, bind_eq_ok, pure_eq_ok] at h
  obtain ⟨⟨db, kept⟩, hprepare, _, _, _, hinsert, rfl⟩ := h
  exact ⟨db, kept, hprepare, hinsert, rfl⟩

theorem foldl_settleOne_events {selected : Option TargetDeliveryDestination} {now : Stamp}
    (records settled : List DeliveryDispositionRecord) (db : Database) :
    (records.foldl (settleOne selected now) (db, settled)).1.events = db.events := by
  induction records generalizing db settled with
  | nil => rfl
  | cons record records ih =>
      rw [List.foldl_cons, settleOne]
      split_ifs
      · exact ih _ _
      · exact ih _ _

theorem handle_eq_ok {request : Request} (h : file.handle policy request = .ok file') :
    (∃ refusal write, request = .write refusal write ∧ file.write policy refusal write = .ok file') ∨
      (∃ db, file' = { file with db } ∧ ∀ e ∈ db.events, e ∈ file.db.events) := by
  cases request with
  | write refusal write => exact .inl ⟨refusal, write, rfl, h⟩
  | maintain now =>
      simp only [handle, bind_eq_ok, pure_eq_ok, Database.handle] at h
      obtain ⟨_, rfl, rfl⟩ := h
      exact .inr ⟨_, rfl, fun e he => List.mem_of_mem_filter he⟩
  | recordAttempt attempt =>
      simp only [handle, bind_eq_ok, pure_eq_ok, Database.handle] at h
      obtain ⟨_, hattempt, rfl⟩ := h
      refine .inr ⟨_, rfl, ?_⟩
      obtain ⟨_, ⟨_, rfl⟩ | ⟨_, _, rfl⟩⟩ := recordAttempt_eq_ok hattempt
      · exact fun e he => he
      · exact fun e he => he
  | authorize auditEventId request =>
      simp only [handle, bind_eq_ok, pure_eq_ok, Database.handle, map_eq_ok] at h
      obtain ⟨_, ⟨_, hauthorize, rfl⟩, rfl⟩ := h
      obtain ⟨-, -, -, -, -, -, -, -, hdb⟩ := authorize_eq_ok hauthorize
      exact .inr ⟨_, rfl, fun e he => by rwa [hdb] at he⟩
  | settle selected settledAt =>
      simp only [handle, bind_eq_ok, pure_eq_ok, Database.handle, map_eq_ok] at h
      obtain ⟨_, ⟨_, hsettle, rfl⟩, rfl⟩ := h
      obtain ⟨now, _, rfl⟩ := settle_eq_ok hsettle
      refine .inr ⟨_, rfl, ?_⟩
      rw [foldl_settleOne_events]
      exact fun e he => he

theorem normalizeEventStreamKeys_sequences {events events' : List EventRow}
    (h : normalizeEventStreamKeys canonical events = .ok events') :
    events'.map (·.sequence) = events.map (·.sequence) := by
  refine Rewriting.walk_keeps (g := List.map (·.sequence)) (fun {s row t} hrow => ?_) h
  simp only [normalizeEventStreamKey, bind_eq_ok] at hrow
  obtain ⟨key, _, hrow⟩ := hrow
  split_ifs at hrow
  · rw [pure_eq_ok.mp hrow]
  · simp only [bind_eq_ok, require_eq_ok, pure_eq_ok] at hrow
    obtain ⟨_, _, rfl⟩ := hrow
    rw [List.map_map]
    refine List.map_congr_left fun e _ => ?_
    simp only [Function.comp_apply]
    split_ifs
    · rfl
    · rfl

theorem migrate_dominates (h : file.migrate canonical refusal = .ok file') : file'.Dominates file.seed := by
  simp only [migrate, bind_eq_ok, require_eq_ok, pure_eq_ok] at h
  obtain ⟨_, _, _, _, events, hevents, rfl⟩ := h
  have hsequences : events.map (·.sequence) = file.db.events.map (·.sequence) := by
    rw [normalizeJournal] at hevents
    split_ifs at hevents
    · exact normalizeEventStreamKeys_sequences hevents
    · rw [pure_eq_ok.mp hevents]
  refine ⟨by simp only [seed, hsequences], fun e he => ?_⟩
  have hle := le_greatest (hsequences ▸ List.mem_map_of_mem he : e.sequence ∈ file.db.events.map (·.sequence))
  exact hle.trans ((le_max_left _ _).trans (le_max_right _ _))

theorem Dominates.reserve {n : Nat} (h : file.Dominates value) (hreserve : file.nextEventSequence = .ok (file', n)) :
    n = value + 1 ∧ file'.Dominates n := by
  simp only [nextEventSequence, h.counter] at hreserve
  split_ifs at hreserve
  cases hreserve
  exact ⟨rfl, rfl, fun e he => (h.journal e he).trans (Nat.le_succ value)⟩

theorem Dominates.write {write : EncodedWrite} (h : file.Dominates value)
    (hwrite : file.write policy refusal write = .ok file') : ∃ value', value ≤ value' ∧ file'.Dominates value' := by
  obtain ⟨db, kept, hprepare, hinsert, hcounter⟩ := write_eq_ok hwrite
  obtain ⟨base, stats, _, _, hbase, rfl, _⟩ := prepareWrite_eq_ok hprepare
  have hevents : base.events = file.db.events := by
    rcases hbase with ⟨rfl, -⟩ | ⟨rfl, -⟩
    · rfl
    · rfl
  refine ⟨_, le_max_left _ _, by rw [hcounter, h.counter]; rfl, fun e he => ?_⟩
  rcases insertRows_sequences hinsert e he with hold | hnew
  · exact (h.journal e (hevents ▸ hold)).trans (le_max_left _ _)
  · exact (le_greatest hnew).trans (le_max_right _ _)

theorem Dominates.step (policy : RetentionPolicy) (canonical : EventRow → Except StorageError String)
    (h : file.Dominates value) (op : Op) :
    ∃ value', value ≤ value' ∧ (file.step policy canonical op).Dominates value' := by
  unfold DatabaseFile.step
  split
  · next file' happly =>
      cases op with
      | reserve =>
          obtain ⟨⟨_, n⟩, hreserve, rfl⟩ := map_eq_ok.mp happly
          obtain ⟨rfl, hnext⟩ := h.reserve hreserve
          exact ⟨_, Nat.le_succ value, hnext⟩
      | request request =>
          rcases handle_eq_ok happly with ⟨refusal, write, rfl, hwrite⟩ | ⟨db, rfl, hsub⟩
          · exact h.write hwrite
          · exact ⟨value, le_rfl, h.counter, fun e he => h.journal e (hsub e he)⟩
      | reopen refusal =>
          refine ⟨_, ?_, migrate_dominates happly⟩
          simp [seed, h.counter]
  · exact ⟨value, le_rfl, h⟩

theorem Dominates.run (policy : RetentionPolicy) (canonical : EventRow → Except StorageError String)
    (h : file.Dominates value) (ops : List Op) :
    ∃ value', value ≤ value' ∧ (file.run policy canonical ops).Dominates value' := by
  refine run_invariant (P := fun file => ∃ value', value ≤ value' ∧ Dominates file value') ?_ ops ⟨value, le_rfl, h⟩
  rintro file op ⟨value', hle, hfile⟩
  obtain ⟨value'', hle', hstep⟩ := hfile.step policy canonical op
  exact ⟨value'', hle.trans hle', hstep⟩

/-- The sequence numbers that have been used: in the older release, in the journal or by a reservation. -/
inductive Used (policy : RetentionPolicy) (canonical : EventRow → Except StorageError String) (older : List Nat)
    (file : DatabaseFile) (ops : List Op) : Nat → Prop
  | older {n : Nat} (h : n ∈ older) : Used policy canonical older file ops n
  | journaled {before : List Op} {e : EventRow} (hbefore : before <+: ops)
      (he : e ∈ (file.run policy canonical before).db.events) : Used policy canonical older file ops e.sequence
  | reserved {before : List Op} {file' : DatabaseFile} {n : Nat} (hbefore : before ++ [.reserve] <+: ops)
      (hreserve : (file.run policy canonical before).nextEventSequence = .ok (file', n)) :
      Used policy canonical older file ops n

theorem Dominates.prefix_le {before ops : List Op} {value' : Nat} (hbefore : before <+: ops)
    (h : (file.run policy canonical before).Dominates value) (h' : (file.run policy canonical ops).Dominates value') :
    value ≤ value' := by
  obtain ⟨after, rfl⟩ := hbefore
  rw [DatabaseFile.run, List.foldl_append] at h'
  obtain ⟨value'', hle, hrun⟩ := h.run policy canonical after
  have heq := hrun.counter.symm.trans h'.counter
  exact hle.trans (Option.some.inj heq).le

/-- A reserved sequence number is above all that were used, if the migration has seen those of the older release. -/
theorem run_reserves (policy : RetentionPolicy) (canonical : EventRow → Except StorageError String)
    (refusal : Option StorageError) (file opened : DatabaseFile) (older : List Nat)
    (hseen : ∀ n ∈ older, n ≤ file.seed) (hopen : file.migrate canonical refusal = .ok opened) (ops : List Op)
    (file' : DatabaseFile) (n : Nat) (hreserve : (opened.run policy canonical ops).nextEventSequence = .ok (file', n))
    (m : Nat) (hused : Used policy canonical older opened ops m) : m < n := by
  have hopened := migrate_dominates hopen
  obtain ⟨value, hseed, hrun⟩ := hopened.run policy canonical ops
  obtain ⟨rfl, _⟩ := hrun.reserve hreserve
  apply Nat.lt_succ_of_le
  cases hused with
  | older hm => exact (hseen m hm).trans hseed
  | journaled hbefore he =>
      obtain ⟨value', _, hearlier⟩ := hopened.run policy canonical _
      exact (hearlier.journal _ he).trans (hearlier.prefix_le hbefore hrun)
  | @reserved before file'' _ hbefore hreserve' =>
      obtain ⟨value', _, hearlier⟩ := hopened.run policy canonical before
      obtain ⟨rfl, hnext⟩ := hearlier.reserve hreserve'
      refine Dominates.prefix_le hbefore ?_ hrun
      rw [DatabaseFile.run, List.foldl_append, List.foldl_cons, List.foldl_nil, DatabaseFile.step]
      have happly : (opened.run policy canonical before).apply policy canonical .reserve = .ok file'' := by
        rw [apply, hreserve']
        rfl
      rw [DatabaseFile.run] at happly
      rw [happly]
      exact hnext

section Sample

def olderRequests (sequence : Nat) : List Request :=
  [.write none ⟨.routine, [⟨"event", "station", sequence, "", 5⟩], [], []⟩, .maintain 5]

def olderFile (sequence : Nat) : DatabaseFile :=
  ⟨8, (Database.empty sampleSource).run samplePolicy (olderRequests sequence), none⟩

def upgraded (sequence : Nat) : Except StorageError DatabaseFile := (olderFile sequence).migrate (.ok ·.resource) none

/-- The event with sequence number 100 has left only its row number behind. -/
theorem upgraded_reserves_less :
    (((Database.empty sampleSource).run samplePolicy ((olderRequests 100).take 1)).events.map (·.sequence)) = [100] ∧
      (upgraded 100 >>= nextEventSequence).toOption.map (·.2) = some 2 := by
  decide +kernel

theorem upgraded_reserves_more : ∃ opened file' n, upgraded 1 = .ok opened ∧
    (opened.run samplePolicy (.ok ·.resource) [.reserve]).nextEventSequence = .ok (file', n) ∧ 1 < n := by
  refine ⟨_, _, _, rfl, rfl, ?_⟩
  exact run_reserves samplePolicy (.ok ·.resource) none (olderFile 1) _ [1] (by decide +kernel) rfl [.reserve] _ _ rfl 1
    (.older (List.mem_singleton_self 1))

end Sample

end DatabaseFile

end OcppBridge.Outbox
