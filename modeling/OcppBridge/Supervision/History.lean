import Mathlib.Algebra.Group.Nat.Defs
import Mathlib.Data.List.Induction
import Mathlib.Data.List.Nodup
import OcppBridge.Supervision.Records

namespace OcppBridge.Supervision.History

open Transaction
open Activation (InstallError digestName)

variable {D E : Type}

section Records

inductive Request
  | status
  | events (after : Nat)
  | stage (digest : String)
  | qualify (digest evidenceDigest : String)
  | promote (digest : String)
  | rollback
  deriving DecidableEq, Repr

inductive Actor
  | operator
  | supervisor
  deriving DecidableEq, Repr

/-- A decision of the supervisor; `detail` holds the outcomes that its check does not read. -/
inductive Decision (D : Type)
  | promote (candidateDigest : String)
      (previousGoodDigest evidenceDigest configurationDigest : Option String) (detail : D)
  | failure (candidateDigest previousGoodDigest : Option String) (observation triggerId : Option Nat) (detail : D)
  | rollback (quarantinedDigest previousGoodDigest : Option String) (detail : D)

def Decision.valid : Decision D → Bool
  | promote candidate previous evidence configuration _ =>
      digestName candidate && previous.all digestName && evidence.all digestName && configuration.all digestName
  | failure candidate previous observation trigger _ =>
      candidate.all digestName && previous.all digestName && observation.any (· ≠ 0) && trigger.all (· ≠ 0)
  | rollback quarantined previous _ => quarantined.all digestName && previous.all digestName

structure Record (D : Type) where
  sequence : Nat
  uid : Nat
  request : Request
  result : Code
  actor : Actor
  decision : Option (Decision D)

/-- `evidence` holds the rollback, probation, promotion and failure records. -/
structure Status (D E : Type) where
  evidence : E
  sequence : Nat
  failedOperations : Nat
  stagedVerifiedDigest : Option String
  lastOperation : Option (Record D)
  qualification : Option Qualified

structure Events (D : Type) where
  records : List (Record D)
  oldestSequence : Nat
  latestSequence : Nat
  truncated : Bool

structure Format (D E : Type) where
  size : Status D E → List (Record D) → Nat
  validate : E → Except InstallError Unit
  empty : E
  empty_valid : validate empty = .ok ()

/-- The contents of a ledger. -/
structure Contents (D E : Type) where
  state : Status D E
  history : List (Record D)

end Records

section Ledger

def historyCapacity : Nat := 64

def ledgerBytes : Nat := 65536

def endOfSequences : Nat := 2 ^ 64

def validateRecord (record : Record D) : Bool :=
  record.sequence ≠ 0 &&
    (match record.request with
      | .stage digest | .promote digest => digestName digest
      | .qualify digest evidenceDigest => digestName digest && digestName evidenceDigest
      | .rollback => true
      | .status | .events _ => false) &&
    match record.actor with
    | .operator => record.decision.isNone
    | .supervisor => record.decision.any Decision.valid

def consecutive : List (Record D) → Bool
  | r :: s :: rest => r.sequence + 1 = s.sequence && consecutive (s :: rest)
  | _ => true

def validLastOperation (state : Status D E) : Bool :=
  state.lastOperation.all fun record =>
    record.actor = .operator && record.decision.isNone && record.sequence ≤ state.sequence && validateRecord record

def validHistory (sequence : Nat) (history : List (Record D)) : Bool :=
  history.length ≤ historyCapacity && history.all validateRecord && consecutive history &&
    history.getLast?.all (·.sequence = sequence) && (!history.isEmpty || sequence = 0)

def invalidLedger : InstallError := .rejected "invalid supervisor ledger"

def validate (f : Format D E) (state : Status D E) (history : List (Record D)) : Except InstallError Unit := do
  f.validate state.evidence
  require (state.qualification.all (fun q => digestName q.candidateDigest && digestName q.evidenceDigest) = true ∧
      state.stagedVerifiedDigest.all digestName = true ∧ validLastOperation state = true ∧
      validHistory state.sequence history = true ∧ state.failedOperations ≤ state.sequence ∧
      ¬((state.sequence = 0) ≠ (state.lastOperation = none) ∧ history = [])) invalidLedger

def trim (f : Format D E) (next : Status D E) : List (Record D) → Option (List (Record D))
  | [] => none
  | record :: rest =>
      if f.size next (record :: rest) ≤ ledgerBytes then some (record :: rest)
      else if rest = [] then none
      else trim f next rest

def append (f : Format D E) (c : Contents D E) (next : Status D E) (record : Record D) (lastOperator : Bool) :
    Except InstallError (Contents D E) := do
  require (next.sequence + 1 < endOfSequences) (.rejected "supervisor sequence exhausted")
  let record := { record with sequence := next.sequence + 1 }
  let next := { next with
    sequence := next.sequence + 1
    lastOperation := if lastOperator then some record else next.lastOperation }
  let history := c.history ++ [record]
  let history := if historyCapacity < history.length then history.drop 1 else history
  match trim f next history with
  | none => .error (.rejected "supervisor ledger exceeds bound")
  | some history => do
      validate f next history
      pure ⟨next, history⟩

/-- What is published: the outcome of an operator's request, or a decision of the supervisor with its evidence. -/
inductive Publication (D E : Type)
  | operator (uid : Nat) (request : Request) (result : Code)
  | supervisor (evidence : E) (uid : Nat) (request : Request) (result : Code) (decision : Decision D)

def recorded (state : Status D E) (request : Request) (result : Code) : Status D E :=
  let failedOperations := if result = .ok then state.failedOperations
    else min (state.failedOperations + 1) (endOfSequences - 1)
  match request with
  | .stage digest =>
      { state with
        failedOperations
        stagedVerifiedDigest := if result = .ok then some digest else none
        qualification := none }
  | .qualify digest evidenceDigest =>
      { state with
        failedOperations
        qualification := if result = .ok then some ⟨digest, evidenceDigest⟩ else none }
  | _ => { state with failedOperations }

def publish (f : Format D E) (c : Contents D E) : Publication D E → Except InstallError (Contents D E)
  | .operator uid request result =>
      append f c (recorded c.state request result) ⟨0, uid, request, result, .operator, none⟩ true
  | .supervisor evidence uid request result decision =>
      append f c { c.state with evidence } ⟨0, uid, request, result, .supervisor, some decision⟩ false

def events (c : Contents D E) (after : Nat) : Events D :=
  let oldestSequence := (c.history.head?.map (·.sequence)).getD 0
  { records := c.history.dropWhile fun record => record.sequence ≤ after
    oldestSequence
    latestSequence := (c.history.getLast?.map (·.sequence)).getD 0
    truncated := oldestSequence ≠ 0 && after < oldestSequence - 1 }

end Ledger

section Host

/-- How far a publication gets: the scratch file may be left behind, the rename may not be known to be durable. -/
inductive Write
  | unwritten (scratch : Bool)
  | unconfirmed
  | committed
  deriving DecidableEq, Repr

/-- A ledger as it is held and as it is stored; `unsynced` are contents that a power failure may bring back. -/
structure Host (D E : Type) where
  ledger : Contents D E
  recovery : Bool
  stored : Option (Contents D E)
  unsynced : List (Option (Contents D E))
  scratch : Bool

def initial (f : Format D E) : Contents D E :=
  ⟨⟨f.empty, 0, 0, none, none, none⟩, []⟩

def opened (f : Format D E) : Host D E := ⟨initial f, false, none, [], false⟩

def persist (h : Host D E) (next : Contents D E) (write : Write) : Host D E :=
  -- a scratch file that is there is not overwritten
  if h.scratch then { h with recovery := true }
  else
    match write with
    | .unwritten scratch => { h with recovery := true, scratch }
    | .unconfirmed => { h with recovery := true, stored := some next, unsynced := h.stored :: h.unsynced }
    | .committed => { h with ledger := next, recovery := false, stored := some next, unsynced := [] }

def load (f : Format D E) : Option (Contents D E) → Except InstallError (Contents D E)
  | none => pure (initial f)
  | some c => do
      require (f.size c.state c.history ≤ ledgerBytes) (.rejected "metadata exceeds size bound")
      validate f c.state c.history
      pure c

inductive Event (D E : Type)
  | publish (publication : Publication D E) (write : Write)
  | restart (reverted : Option Nat) (resolved : Bool)

def step (f : Format D E) (h : Host D E) : Event D E → Host D E
  | .publish publication write =>
      match publish f h.ledger publication with
      | .ok next => persist h next write
      | .error _ => h
  | .restart reverted resolved =>
      let stored := (reverted.bind (h.unsynced[·]?)).getD h.stored
      match load f stored with
      -- an operator may have removed the scratch file
      | .ok ledger => ⟨ledger, h.scratch && !resolved, stored, [], h.scratch && !resolved⟩
      | .error _ => h

def run (f : Format D E) (es : List (Event D E)) : Host D E := es.foldl (step f) (opened f)

end Host

variable {f : Format D E} {c c' : Contents D E} {next : Status D E}

section Trimming

variable {records trimmed : List (Record D)}

theorem trim_suffix (h : trim f next records = some trimmed) : trimmed <:+ records := by
  induction records with
  | nil => cases h
  | cons record rest ih =>
      rw [trim] at h
      split_ifs at h
      · cases h
        exact List.suffix_rfl
      · exact (ih h).trans (List.suffix_cons record rest)

theorem trim_fits (h : trim f next records = some trimmed) : trimmed ≠ [] ∧ f.size next trimmed ≤ ledgerBytes := by
  induction records with
  | nil => cases h
  | cons record rest ih =>
      rw [trim] at h
      split_ifs at h with hsize
      · cases h
        exact ⟨List.cons_ne_nil _ _, hsize⟩
      · exact ih h

end Trimming

section Sequences

/-- A run of records numbered from `first`. -/
def Numbered (first : Nat) (records : List (Record D)) : Prop :=
  records.map (·.sequence) = List.range' first records.length

variable {first : Nat} {records retained : List (Record D)}

namespace Numbered

variable (h : Numbered first records)

include h

theorem snoc {record : Record D} (hr : record.sequence = first + records.length) :
    Numbered first (records ++ [record]) := by
  rw [Numbered, List.map_append, h, List.length_append, List.length_singleton, List.range'_concat]
  simp [hr]

theorem suffix (hs : retained <:+ records) :
    Numbered (first + (records.length - retained.length)) retained := by
  have hle := hs.length_le
  rw [List.suffix_iff_eq_drop] at hs
  have hdrop : retained.map (·.sequence) = (records.map (·.sequence)).drop (records.length - retained.length) := by
    rw [← List.map_drop, ← hs]
  rw [Numbered, hdrop, h, List.drop_range', Nat.mul_one]
  congr 1
  omega

theorem mem_iff {n : Nat} :
    (∃ record ∈ records, record.sequence = n) ↔ first ≤ n ∧ n < first + records.length := by
  have hmem : n ∈ records.map (·.sequence) ↔ first ≤ n ∧ n < first + records.length := by
    rw [h, List.mem_range'_1]
  rw [← hmem, List.mem_map]

end Numbered

theorem Numbered.tail {record : Record D} (h : Numbered first (record :: records)) :
    record.sequence = first ∧ Numbered (first + 1) records := by
  rw [Numbered, List.map_cons, List.length_cons, List.range'_succ] at h
  exact ⟨(List.cons.inj h).1, (List.cons.inj h).2⟩

theorem Numbered.consecutive (h : Numbered first records) : consecutive records = true := by
  induction records generalizing first with
  | nil => rfl
  | cons record rest ih =>
      obtain ⟨hfirst, hrest⟩ := h.tail
      cases rest with
      | nil => rfl
      | cons second rest =>
          rw [History.consecutive, Bool.and_eq_true, decide_eq_true_iff]
          exact ⟨by rw [hfirst, hrest.tail.1], ih hrest⟩

end Sequences

section Publications

def Publication.record (sequence : Nat) : Publication D E → Record D
  | .operator uid request result => ⟨sequence, uid, request, result, .operator, none⟩
  | .supervisor _ uid request result decision => ⟨sequence, uid, request, result, .supervisor, some decision⟩

/-- The records of publications that were accepted one after the other. -/
def records (publications : List (Publication D E)) : List (Record D) :=
  publications.mapIdx fun i publication => publication.record (i + 1)

theorem records_concat (publications : List (Publication D E)) (publication : Publication D E) :
    records (publications ++ [publication]) =
      records publications ++ [publication.record (publications.length + 1)] := by
  rw [records, List.mapIdx_concat, records]

theorem length_records (publications : List (Publication D E)) : (records publications).length = publications.length :=
  List.length_mapIdx

theorem Publication.record_sequence (publication : Publication D E) (n : Nat) :
    (publication.record n).sequence = n := by
  cases publication <;> rfl

theorem numbered_records (publications : List (Publication D E)) : Numbered 1 (records publications) := by
  induction publications using List.reverseRecOn with
  | nil => rfl
  | append_singleton publications publication ih =>
      rw [records_concat]
      refine ih.snoc ?_
      rw [publication.record_sequence, length_records, Nat.add_comm]

/-- The contents that a series of accepted publications makes of a new ledger. -/
inductive Made (f : Format D E) : List (Publication D E) → Contents D E → Prop
  | initial : Made f [] (initial f)
  | publish {publications : List (Publication D E)} {c c' : Contents D E} {publication : Publication D E}
      (hc : Made f publications c) (h : publish f c publication = .ok c') : Made f (publications ++ [publication]) c'

def Event.publication? : Event D E → Option (Publication D E)
  | .publish publication _ => some publication
  | .restart _ _ => none

end Publications

variable {publication : Publication D E} {publications : List (Publication D E)} {record : Record D}

section Soundness

variable {lastOperator : Bool} {h : Host D E}

/-- The last of the published records are retained, within both bounds. -/
structure Sound (f : Format D E) (publications : List (Publication D E)) (c : Contents D E) : Prop where
  current : publications.length = c.state.sequence
  retained : c.history <:+ records publications
  newest : publications ≠ [] → c.history ≠ []
  count : c.history.length ≤ historyCapacity
  bytes : publications ≠ [] → f.size c.state c.history ≤ ledgerBytes
  valid : validate f c.state c.history = .ok ()

theorem initial_sound (f : Format D E) : Sound f [] (initial f) where
  current := rfl
  retained := List.suffix_rfl
  newest h := absurd rfl h
  count := Nat.zero_le _
  bytes h := absurd rfl h
  valid := by
    simp only [validate, initial, f.empty_valid]
    rfl

theorem append_eq_ok : append f c next record lastOperator = .ok c' ↔
    ∃ numbered state history, numbered = { record with sequence := next.sequence + 1 } ∧
      state = { next with
        sequence := next.sequence + 1
        lastOperation := if lastOperator then some numbered else next.lastOperation } ∧
      next.sequence + 1 < endOfSequences ∧
      trim f state (if historyCapacity < (c.history ++ [numbered]).length then (c.history ++ [numbered]).drop 1
        else c.history ++ [numbered]) = some history ∧
      validate f state history = .ok () ∧ c' = ⟨state, history⟩ := by
  simp only [append, bind_eq_ok, require_eq_ok, exists_const]
  constructor
  · rintro ⟨hend, h⟩
    split at h
    · cases h
    · next history htrim =>
        simp only [bind_eq_ok, pure_eq_ok] at h
        obtain ⟨_, hvalid, rfl⟩ := h
        exact ⟨_, _, history, rfl, rfl, hend, htrim, hvalid, rfl⟩
  · rintro ⟨_, _, history, rfl, rfl, hend, htrim, hvalid, rfl⟩
    refine ⟨hend, ?_⟩
    rw [htrim]
    simp only [bind_eq_ok, pure_eq_ok, and_true]
    exact ⟨(), hvalid⟩

/-- Every publication appends its own record to the ledger it finds. -/
theorem publish_append (f : Format D E) (publication : Publication D E) (state : Status D E) :
    ∃ next record lastOperator, next.sequence = state.sequence ∧
      (∀ n, { record with sequence := n } = publication.record n) ∧
      ∀ history, publish f ⟨state, history⟩ publication = append f ⟨state, history⟩ next record lastOperator := by
  cases publication with
  | operator uid request result =>
      refine ⟨recorded state request result, ⟨0, uid, request, result, .operator, none⟩, true, ?_, fun _ => rfl,
        fun _ => rfl⟩
      cases request <;> rfl
  | supervisor evidence uid request result decision =>
      exact ⟨{ state with evidence }, ⟨0, uid, request, result, .supervisor, some decision⟩, false, rfl, fun _ => rfl,
        fun _ => rfl⟩

theorem capped_suffix (records : List (Record D)) :
    (if historyCapacity < records.length then records.drop 1 else records) <:+ records := by
  split_ifs
  · exact List.drop_suffix 1 records
  · exact List.suffix_rfl

theorem capped_length {records : List (Record D)} (h : records.length ≤ historyCapacity) :
    (if historyCapacity < (records ++ [record]).length then (records ++ [record]).drop 1
      else records ++ [record]).length ≤ historyCapacity := by
  split_ifs with hover
  · rw [List.length_drop, List.length_append, List.length_singleton]
    omega
  · exact Nat.le_of_not_lt hover

theorem Sound.publish (hc : Sound f publications c) (h : publish f c publication = .ok c') :
    Sound f (publications ++ [publication]) c' := by
  obtain ⟨next, record, lastOperator, hnext, hrecord, happend⟩ := publish_append f publication c.state
  rw [happend c.history] at h
  obtain ⟨numbered, state, history, hnumbered, hstate, _, htrim, hvalid, rfl⟩ := append_eq_ok.mp h
  rw [hrecord, hnext, ← hc.current] at hnumbered
  have hsuffix := trim_suffix htrim
  obtain ⟨hne, hfits⟩ := trim_fits htrim
  refine ⟨?_, ?_, fun _ => hne, ?_, fun _ => hfits, hvalid⟩
  · rw [List.length_append, hc.current, hstate, ← hnext]
    rfl
  · obtain ⟨front, hfront⟩ := hc.retained
    refine hsuffix.trans ((capped_suffix _).trans ⟨front, ?_⟩)
    rw [← List.append_assoc, hfront, hnumbered, records_concat]
  · exact Nat.le_trans hsuffix.length_le (capped_length hc.count)

theorem Made.sound (h : Made f publications c) : Sound f publications c := by
  induction h with
  | initial => exact initial_sound f
  | publish _ hpublish ih => exact ih.publish hpublish

/-- The publications of the events that were accepted on the way to contents. -/
def Reached (f : Format D E) (es : List (Event D E)) (publications : List (Publication D E))
    (c : Contents D E) : Prop :=
  Made f publications c ∧ publications.Sublist (es.filterMap Event.publication?)

def Stored (f : Format D E) (es : List (Event D E)) (stored : Option (Contents D E)) : Prop :=
  ∀ c ∈ stored, ∃ publications, publications ≠ [] ∧ Reached f es publications c

variable {es : List (Event D E)}

theorem Reached.mono (h : Reached f es publications c) (e : Event D E) : Reached f (es ++ [e]) publications c := by
  refine ⟨h.1, h.2.trans ?_⟩
  rw [List.filterMap_append]
  exact List.sublist_append_left _ _

theorem Stored.mono {stored : Option (Contents D E)} (h : Stored f es stored) (e : Event D E) :
    Stored f (es ++ [e]) stored := by
  intro c hc
  obtain ⟨publications, hne, hreached⟩ := h c hc
  exact ⟨publications, hne, hreached.mono e⟩

theorem Reached.publish (h : Reached f es publications c) {write : Write}
    (hpublish : publish f c publication = .ok c') :
    Reached f (es ++ [.publish publication write]) (publications ++ [publication]) c' := by
  refine ⟨.publish h.1 hpublish, ?_⟩
  rw [List.filterMap_append]
  exact h.2.append (List.Sublist.refl _)

theorem Stored.load {stored : Option (Contents D E)} (h : Stored f es stored) :
    ∃ c publications, load f stored = .ok c ∧ Reached f es publications c := by
  cases stored with
  | none => exact ⟨initial f, [], rfl, .initial, List.nil_sublist _⟩
  | some c =>
      obtain ⟨publications, hne, hreached⟩ := h c rfl
      refine ⟨c, publications, ?_, hreached⟩
      simp only [History.load, bind_eq_ok, require_eq_ok, pure_eq_ok, exists_const, and_true]
      exact ⟨hreached.1.sound.bytes hne, (), hreached.1.sound.valid⟩

/-- What is held, and everything that a restart may find, was made by publications of the events. -/
structure HostSound (f : Format D E) (es : List (Event D E)) (h : Host D E) : Prop where
  ledger : ∃ publications, Reached f es publications h.ledger
  stored : Stored f es h.stored
  unsynced : ∀ stored ∈ h.unsynced, Stored f es stored

theorem HostSound.mono (hh : HostSound f es h) (e : Event D E) : HostSound f (es ++ [e]) h where
  ledger := by
    obtain ⟨publications, hreached⟩ := hh.ledger
    exact ⟨publications, hreached.mono e⟩
  stored := hh.stored.mono e
  unsynced stored hmem := (hh.unsynced stored hmem).mono e

theorem HostSound.persist (hh : HostSound f es h) (hne : publications ≠ []) (hc : Reached f es publications c)
    (write : Write) : HostSound f es (persist h c write) := by
  have hstored : Stored f es (some c) := by
    rintro d ⟨⟩
    exact ⟨publications, hne, hc⟩
  unfold History.persist
  split_ifs
  · exact ⟨hh.ledger, hh.stored, hh.unsynced⟩
  · cases write with
    | unwritten scratch => exact ⟨hh.ledger, hh.stored, hh.unsynced⟩
    | unconfirmed => exact ⟨hh.ledger, hstored, List.forall_mem_cons.mpr ⟨hh.stored, hh.unsynced⟩⟩
    | committed => exact ⟨⟨publications, hc⟩, hstored, fun _ hmem => absurd hmem List.not_mem_nil⟩

theorem HostSound.step (hh : HostSound f es h) (e : Event D E) : HostSound f (es ++ [e]) (step f h e) := by
  cases e with
  | publish publication write =>
      rw [History.step]
      split
      · next next hnext =>
          obtain ⟨publications, hreached⟩ := hh.ledger
          exact (hh.mono _).persist (by simp) (hreached.publish hnext) write
      · exact hh.mono _
  | restart reverted resolved =>
      have hstored : Stored f es ((reverted.bind (h.unsynced[·]?)).getD h.stored) := by
        cases hfound : reverted.bind (h.unsynced[·]?) with
        | none => exact hh.stored
        | some stored =>
            obtain ⟨i, _, hi⟩ := Option.bind_eq_some_iff.mp hfound
            exact hh.unsynced stored (List.mem_of_getElem? hi)
      obtain ⟨c, publications, hload, hc⟩ := hstored.load
      simp only [History.step, hload]
      exact ⟨⟨publications, hc.mono _⟩, hstored.mono _, fun _ hmem => absurd hmem List.not_mem_nil⟩

theorem run_sound (f : Format D E) (es : List (Event D E)) : HostSound f es (run f es) := by
  induction es using List.reverseRecOn with
  | nil =>
      refine ⟨⟨[], .initial, List.nil_sublist _⟩, ?_, fun _ hmem => absurd hmem List.not_mem_nil⟩
      intro c hmem
      cases hmem
  | append_singleton es e ih =>
      rw [run, List.foldl_append]
      exact ih.step e

end Soundness

section Reading

section

variable (hc : Sound f publications c)

include hc

theorem Sound.run : Numbered (c.state.sequence + 1 - c.history.length) c.history := by
  have hrun := (numbered_records publications).suffix hc.retained
  have hle := hc.retained.length_le
  rw [length_records, hc.current] at hrun hle
  rwa [show c.state.sequence + 1 - c.history.length = 1 + (c.state.sequence - c.history.length) by omega]

theorem Sound.oldest (hne : c.history ≠ []) :
    (c.history.head?.map (·.sequence)).getD 0 = c.state.sequence + 1 - c.history.length := by
  have hrun := hc.run
  cases hhistory : c.history with
  | nil => exact absurd hhistory hne
  | cons record rest =>
      rw [hhistory] at hrun
      simpa using hrun.tail.1

end

end Reading

section Publishing

variable {state : Status D E} {history : List (Record D)}

end Publishing

section Sample

end Sample

end OcppBridge.Supervision.History
