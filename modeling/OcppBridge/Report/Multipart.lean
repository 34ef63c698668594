import OcppBridge.Operational.Contract
import OcppBridge.Resource.Admission
import Mathlib.Algebra.BigOperators.Group.List.Basic
import Mathlib.Data.List.Induction

namespace OcppBridge.Report

open Operational (ProtocolEdition)
open Resource (AdmissionError RuntimeResourceLimits usizeMax)
open Transaction

section Model

/-- Correlation assigned by the authenticated connection and the requesting workflow. -/
structure ReportKey where
  station : String
  connection : String
  protocol : ProtocolEdition
  action : String
  requestId : Int
  correlation : String
  deriving DecidableEq, Repr

def ReportKey.Valid (key : ReportKey) : Prop :=
  ∀ value ∈ [key.station, key.connection, key.action, key.correlation], value.utf8ByteSize ≤ 128

instance (key : ReportKey) : Decidable key.Valid := inferInstanceAs (Decidable (∀ _ ∈ _, _))

structure ReportLimits where
  maximumBytes : Nat := 1024 * 1024
  maximumItems : Nat := 4096
  maximumFragments : Nat := 256
  timeout : Nat := 30 * 10 ^ 9
  deriving DecidableEq, Repr

def ReportLimits.Valid (limits : ReportLimits) : Prop :=
  (1 ≤ limits.maximumBytes ∧ limits.maximumBytes ≤ 8 * 1024 * 1024) ∧
    (1 ≤ limits.maximumItems ∧ limits.maximumItems ≤ 65536) ∧
    (1 ≤ limits.maximumFragments ∧ limits.maximumFragments ≤ 4096) ∧
    limits.timeout ≠ 0 ∧ limits.timeout ≤ 300 * 10 ^ 9

instance (limits : ReportLimits) : Decidable limits.Valid := inferInstanceAs (Decidable (_ ∧ _))

structure ReportFragment where
  key : ReportKey
  sequence : Nat
  more : Bool
  items : List (List UInt8)
  deriving DecidableEq, Repr

inductive ReportFailure
  | invalidConfiguration
  | correlationMismatch
  | duplicateOrConflictingSequence
  | missingOrOutOfOrderSequence
  | fragmentLimit
  | itemLimit
  | byteLimit
  | capacity (error : AdmissionError)
  | timedOut
  | cancelled
  | disconnected
  | notTransmitted
  | invalidFragment
  deriving DecidableEq, Repr

structure ReportProgress where
  fragments : Nat := 0
  items : Nat := 0
  bytes : Nat := 0
  deriving DecidableEq, Repr

structure PartialReport where
  key : ReportKey
  progress : ReportProgress
  reason : ReportFailure
  deriving DecidableEq, Repr

/-- The report under assembly; `reserved` is the size of its budget reservation. -/
structure CollectedReport where
  key : ReportKey
  progress : ReportProgress
  items : List (List UInt8)
  limits : ReportLimits
  reserved : Nat
  deriving DecidableEq, Repr

/-- The process the collector runs in: its limits, and the size of the report's own record. -/
structure Host where
  limits : RuntimeResourceLimits
  recordBytes : Nat

def checkedAdd (a b : Nat) : Option Nat := if a + b ≤ usizeMax then some (a + b) else none

def overhead (host : Host) (limits : ReportLimits) : Nat := limits.maximumItems * 16 + host.recordBytes + 4 * 128

/-- `refusal` is the answer of the shared budget to the reservation. -/
def reserveReport (host : Host) (key : ReportKey) (limits : ReportLimits) (refusal : Option AdmissionError) :
    Except PartialReport CollectedReport :=
  if ¬limits.Valid ∨ ¬key.Valid then .error ⟨key, {}, .invalidConfiguration⟩
  else match refusal with
    | some error => .error ⟨key, {}, .capacity error⟩
    | none => .ok ⟨key, {}, [], limits, overhead host limits⟩

/-- `refusal` is the answer of the shared budget to the resize. -/
def append (host : Host) (limits : ReportLimits) (report : CollectedReport) (fragment : ReportFragment)
    (refusal : Option AdmissionError) : Except ReportFailure (CollectedReport × Bool) := do
  require (fragment.key = report.key) .correlationMismatch
  require (¬fragment.sequence < report.progress.fragments) .duplicateOrConflictingSequence
  require (fragment.sequence = report.progress.fragments) .missingOrOutOfOrderSequence
  require (¬(limits.maximumFragments ≤ report.progress.fragments ∨
    fragment.more ∧ report.progress.fragments + 1 = limits.maximumFragments)) .fragmentLimit
  let items ← ((checkedAdd report.progress.items fragment.items.length).filter (· ≤ limits.maximumItems)).elim
    (.error .itemLimit) .ok
  let fragmentBytes ← (fragment.items.foldlM (fun bytes item => checkedAdd bytes item.length) 0).elim
    (.error .byteLimit) .ok
  require (¬host.limits.maximumOcppMessageBytes < fragmentBytes) .byteLimit
  let bytes ← ((checkedAdd report.progress.bytes fragmentBytes).filter (· ≤ limits.maximumBytes)).elim
    (.error .byteLimit) .ok
  refusal.elim (.ok ()) (fun error => .error (.capacity error))
  pure ({ report with
    items := report.items ++ fragment.items
    progress := ⟨report.progress.fragments + 1, items, bytes⟩
    reserved := overhead host limits + bytes }, !fragment.more)

/-- What one turn of the collector's loop sees. -/
inductive Arrival
  | cancelled
  | expired
  | failed (reason : ReportFailure)
  | closed
  | fragment (f : ReportFragment) (late : Bool) (refusal : Option AdmissionError)

def accept (host : Host) (limits : ReportLimits) (report : CollectedReport) :
    Arrival → Except ReportFailure (CollectedReport × Bool)
  | .cancelled => .error .cancelled
  | .expired => .error .timedOut
  | .failed reason => .error reason
  | .closed => .error .disconnected
  | .fragment f late refusal => if late then .error .timedOut else append host limits report f refusal

inductive Outcome
  | complete (report : CollectedReport)
  | failed (report : PartialReport)
  | waiting (report : CollectedReport)
  deriving DecidableEq, Repr

def collectLoop (host : Host) (limits : ReportLimits) (report : CollectedReport) : List Arrival → Outcome
  | [] => .waiting report
  | arrival :: rest =>
      match accept host limits report arrival with
      | .error reason => .failed ⟨report.key, report.progress, reason⟩
      | .ok (next, true) => .complete next
      | .ok (next, false) => collectLoop host limits next rest

def collectReport (host : Host) (admission : Except PartialReport CollectedReport) (limits : ReportLimits)
    (arrivals : List Arrival) : Outcome :=
  match admission with
  | .error failure => .failed failure
  | .ok report =>
      if report.limits ≠ limits then .failed ⟨report.key, report.progress, .invalidConfiguration⟩
      else collectLoop host limits report arrivals

end Model

variable {host : Host} {key : ReportKey} {limits : ReportLimits} {fs : List ReportFragment} {f : ReportFragment}

section Accounting

def ReportFragment.bytes (f : ReportFragment) : Nat := (f.items.map List.length).sum

def content (fs : List ReportFragment) : List (List UInt8) := fs.flatMap ReportFragment.items

def totals (fs : List ReportFragment) : ReportProgress where
  fragments := fs.length
  items := (fs.map fun f => f.items.length).sum
  bytes := (fs.map ReportFragment.bytes).sum

def gathered (host : Host) (key : ReportKey) (limits : ReportLimits) (fs : List ReportFragment) : CollectedReport where
  key := key
  progress := totals fs
  items := content fs
  limits := limits
  reserved := overhead host limits + (totals fs).bytes

def Numbered (key : ReportKey) (fs : List ReportFragment) : Prop :=
  ∀ (i : Nat) (f : ReportFragment), fs[i]? = some f → f.key = key ∧ f.sequence = i

/-- Fragments zero, one, two and so on of the request, of which all but the last announce another one. -/
def InOrder (key : ReportKey) (fs : List ReportFragment) : Prop :=
  ∃ init last, fs = init ++ [last] ∧ Numbered key fs ∧ (∀ f ∈ init, f.more = true) ∧ last.more = false

/-- The fragments keep the limits: in number, in items, in bytes, and each in the bytes of one message. -/
structure Within (host : Host) (limits : ReportLimits) (fs : List ReportFragment) : Prop where
  fragments : (totals fs).fragments ≤ limits.maximumFragments
  items : (totals fs).items ≤ limits.maximumItems
  bytes : (totals fs).bytes ≤ limits.maximumBytes
  message : ∀ f ∈ fs, f.bytes ≤ host.limits.maximumOcppMessageBytes

structure Open (host : Host) (key : ReportKey) (limits : ReportLimits) (fs : List ReportFragment) : Prop where
  numbered : Numbered key fs
  more : ∀ f ∈ fs, f.more = true
  room : fs.length < limits.maximumFragments
  within : Within host limits fs

/-- The failure documented for a fragment that comes after the accepted ones. -/
inductive Fault (host : Host) (key : ReportKey) (limits : ReportLimits) (fs : List ReportFragment)
    (f : ReportFragment) : ReportFailure → Prop
  | correlation (hkey : f.key ≠ key) : Fault host key limits fs f .correlationMismatch
  | duplicate (hkey : f.key = key) (hseq : f.sequence < fs.length) :
      Fault host key limits fs f .duplicateOrConflictingSequence
  | missing (hkey : f.key = key) (hseq : fs.length < f.sequence) :
      Fault host key limits fs f .missingOrOutOfOrderSequence
  | fragments (hkey : f.key = key) (hseq : f.sequence = fs.length) (hmore : f.more = true)
      (hlast : fs.length + 1 = limits.maximumFragments) : Fault host key limits fs f .fragmentLimit
  | items (hkey : f.key = key) (hseq : f.sequence = fs.length)
      (hroom : f.more = true → fs.length + 1 ≠ limits.maximumFragments)
      (hitems : limits.maximumItems < (totals (fs ++ [f])).items) : Fault host key limits fs f .itemLimit
  | bytes (hkey : f.key = key) (hseq : f.sequence = fs.length)
      (hroom : f.more = true → fs.length + 1 ≠ limits.maximumFragments)
      (hitems : (totals (fs ++ [f])).items ≤ limits.maximumItems)
      (hbytes : host.limits.maximumOcppMessageBytes < f.bytes ∨ limits.maximumBytes < (totals (fs ++ [f])).bytes) :
      Fault host key limits fs f .byteLimit

@[simp] theorem totals_snoc_fragments : (totals (fs ++ [f])).fragments = fs.length + 1 := by simp [totals]

@[simp] theorem totals_snoc_items : (totals (fs ++ [f])).items = (totals fs).items + f.items.length := by simp [totals]

@[simp] theorem totals_snoc_bytes : (totals (fs ++ [f])).bytes = (totals fs).bytes + f.bytes := by simp [totals]

theorem Numbered.snoc (h : Numbered key fs) (hkey : f.key = key) (hseq : f.sequence = fs.length) :
    Numbered key (fs ++ [f]) := by
  intro i g hg
  rw [List.getElem?_append] at hg
  split at hg
  · exact h i g hg
  · next hi =>
      obtain ⟨hlt, rfl⟩ := List.getElem?_eq_some_iff.mp hg
      have hi : i = fs.length := by
        simp only [List.length_singleton] at hlt
        omega
      subst hi
      simpa using ⟨hkey, hseq⟩

theorem Numbered.init (h : Numbered key (fs ++ [f])) : Numbered key fs := by
  intro i g hg
  apply h i g
  rw [List.getElem?_append_left (List.getElem?_eq_some_iff.mp hg).1]
  exact hg

theorem Numbered.last (h : Numbered key (fs ++ [f])) : f.key = key ∧ f.sequence = fs.length :=
  h fs.length f (by simp)

theorem Within.init (h : Within host limits (fs ++ [f])) : Within host limits fs where
  fragments := by
    have := h.fragments
    rw [totals_snoc_fragments] at this
    simp only [totals]
    omega
  items := by
    have := h.items
    rw [totals_snoc_items] at this
    omega
  bytes := by
    have := h.bytes
    rw [totals_snoc_bytes] at this
    omega
  message g hg := h.message g (List.mem_append_left _ hg)

end Accounting

variable {reason : ReportFailure}

section Steps

theorem checkedAdd_filter {a b m : Nat} (e : ReportFailure) (hm : m ≤ usizeMax) :
    (((checkedAdd a b).filter (· ≤ m)).elim (.error e) .ok : Except ReportFailure Nat) =
      if a + b ≤ m then .ok (a + b) else .error e := by
  by_cases hfits : a + b ≤ usizeMax
  · by_cases hle : a + b ≤ m <;> simp [checkedAdd, hfits, hle, Option.filter]
  · have hle : ¬a + b ≤ m := fun hle => hfits (hle.trans hm)
    simp [checkedAdd, hfits, hle]

theorem foldlM_checkedAdd (items : List (List UInt8)) (start : Nat) (hstart : start ≤ usizeMax) :
    items.foldlM (fun bytes item => checkedAdd bytes item.length) start =
      if start + (items.map List.length).sum ≤ usizeMax then some (start + (items.map List.length).sum) else none := by
  induction items generalizing start with
  | nil => simp [hstart]
  | cons item items ih =>
      rw [List.foldlM_cons, List.map_cons, List.sum_cons, checkedAdd]
      by_cases hfits : start + item.length ≤ usizeMax
      · rw [if_pos hfits, Option.bind_eq_bind, Option.bind_some, ih _ hfits, Nat.add_assoc]
      · have hover : ¬start + (item.length + (items.map List.length).sum) ≤ usizeMax := by omega
        rw [if_neg hfits, if_neg hover]
        rfl

theorem ReportLimits.Valid.representable (hl : limits.Valid) :
    limits.maximumItems ≤ usizeMax ∧ limits.maximumBytes ≤ usizeMax := by
  obtain ⟨⟨-, hbytes⟩, ⟨-, hitems⟩, -⟩ := hl
  have husize : 8 * 1024 * 1024 ≤ usizeMax := by decide
  exact ⟨by omega, by omega⟩

theorem append_accepted (hl : limits.Valid) (hopen : fs.length < limits.maximumFragments) (hkey : f.key = key)
    (hseq : f.sequence = fs.length) (hroom : f.more = true → fs.length + 1 ≠ limits.maximumFragments)
    (hitems : (totals (fs ++ [f])).items ≤ limits.maximumItems)
    (hmessage : f.bytes ≤ host.limits.maximumOcppMessageBytes)
    (hbytes : (totals (fs ++ [f])).bytes ≤ limits.maximumBytes) :
    append host limits (gathered host key limits fs) f none = .ok (gathered host key limits (fs ++ [f]), !f.more) := by
  obtain ⟨hmi, hmb⟩ := hl.representable
  rw [totals_snoc_items] at hitems
  rw [totals_snoc_bytes] at hbytes
  have hfold : f.items.foldlM (fun bytes item => checkedAdd bytes item.length) 0 = some f.bytes := by
    rw [foldlM_checkedAdd _ _ (Nat.zero_le _), Nat.zero_add, if_pos]
    · rfl
    · exact le_trans (le_trans (Nat.le_add_left _ _) hbytes) hmb
  have hlimit : ¬(limits.maximumFragments ≤ fs.length ∨ f.more = true ∧ fs.length + 1 = limits.maximumFragments) := by
    rintro (h | ⟨hmore, h⟩)
    · omega
    · exact hroom hmore h
  simp only [append, bind_eq_ok, require_eq_ok]
  refine ⟨(), hkey, (), hseq ▸ Nat.lt_irrefl _, (), hseq, (), hlimit, (totals fs).items + f.items.length, ?_,
    f.bytes, ?_, (), Nat.not_lt.mpr hmessage, (totals fs).bytes + f.bytes, ?_, (), rfl, ?_⟩
  · rw [checkedAdd_filter _ hmi]
    exact if_pos hitems
  · rw [hfold]
    rfl
  · rw [checkedAdd_filter _ hmb]
    exact if_pos hbytes
  · simp [gathered, totals, content]

theorem require_bind {p : Prop} [Decidable p] {e : ReportFailure} {α : Type} (k : Unit → Except ReportFailure α)
    (hp : p) : (require p e >>= k) = k () := by
  rw [require, if_pos hp]
  rfl

theorem refuse_bind {p : Prop} [Decidable p] {e : ReportFailure} {α : Type} (k : Unit → Except ReportFailure α)
    (hp : ¬p) : (require p e >>= k) = .error e := by
  rw [require, if_neg hp]
  rfl

@[simp] theorem gathered_key : (gathered host key limits fs).key = key := rfl

@[simp] theorem gathered_fragments : (gathered host key limits fs).progress.fragments = fs.length := rfl

theorem append_refused (hl : limits.Valid) (hopen : fs.length < limits.maximumFragments)
    (h : Fault host key limits fs f reason) :
    append host limits (gathered host key limits fs) f none = .error reason := by
  obtain ⟨hmi, hmb⟩ := hl.representable
  have hroomy (hroom : f.more = true → fs.length + 1 ≠ limits.maximumFragments) :
      ¬(limits.maximumFragments ≤ fs.length ∨ f.more = true ∧ fs.length + 1 = limits.maximumFragments) := by
    rintro (h | ⟨hmore, h⟩)
    · omega
    · exact hroom hmore h
  rw [append]
  cases h with
  | correlation hkey => exact refuse_bind _ hkey
  | duplicate hkey hseq =>
      refine (require_bind _ hkey).trans ?_
      exact refuse_bind _ (not_not_intro hseq)
  | missing hkey hseq =>
      refine (require_bind _ hkey).trans ?_
      refine (require_bind _ (Nat.not_lt.mpr hseq.le)).trans ?_
      exact refuse_bind _ (Nat.ne_of_gt hseq)
  | fragments hkey hseq hmore hlast =>
      refine (require_bind _ hkey).trans ?_
      refine (require_bind _ hseq.not_lt).trans ?_
      refine (require_bind _ hseq).trans ?_
      exact refuse_bind _ (not_not_intro (.inr ⟨hmore, hlast⟩))
  | items hkey hseq hroom hitems =>
      rw [totals_snoc_items] at hitems
      refine (require_bind _ hkey).trans ?_
      refine (require_bind _ hseq.not_lt).trans ?_
      refine (require_bind _ hseq).trans ?_
      refine (require_bind _ (hroomy hroom)).trans ?_
      rw [checkedAdd_filter _ hmi, if_neg]
      · rfl
      · exact Nat.not_le.mpr hitems
  | bytes hkey hseq hroom hitems hbytes =>
      rw [totals_snoc_items] at hitems
      rw [totals_snoc_bytes] at hbytes
      refine (require_bind _ hkey).trans ?_
      refine (require_bind _ hseq.not_lt).trans ?_
      refine (require_bind _ hseq).trans ?_
      refine (require_bind _ (hroomy hroom)).trans ?_
      rw [checkedAdd_filter _ hmi, if_pos, foldlM_checkedAdd _ _ (Nat.zero_le _), Nat.zero_add]
      · split
        · by_cases hmessage : host.limits.maximumOcppMessageBytes < f.bytes
          · exact refuse_bind _ (not_not_intro hmessage)
          · refine (require_bind _ hmessage).trans ?_
            rw [checkedAdd_filter _ hmb, if_neg]
            · rfl
            · exact Nat.not_le.mpr (hbytes.resolve_left hmessage)
        · rfl
      · exact hitems

theorem Open.next (hopen : Open host key limits fs) (f : ReportFragment) :
    (Numbered key (fs ++ [f]) ∧ Within host limits (fs ++ [f]) ∧
        (f.more = true → fs.length + 1 ≠ limits.maximumFragments)) ∨
      ∃ reason, Fault host key limits fs f reason := by
  by_cases hkey : f.key = key
  swap
  · exact .inr ⟨_, .correlation hkey⟩
  obtain hseq | hseq | hseq := Nat.lt_trichotomy f.sequence fs.length
  · exact .inr ⟨_, .duplicate hkey hseq⟩
  swap
  · exact .inr ⟨_, .missing hkey hseq⟩
  by_cases hroom : f.more = true → fs.length + 1 ≠ limits.maximumFragments
  swap
  · obtain ⟨hmore, hlast⟩ := Classical.not_imp.mp hroom
    exact .inr ⟨_, .fragments hkey hseq hmore (not_not.mp hlast)⟩
  by_cases hitems : (totals (fs ++ [f])).items ≤ limits.maximumItems
  swap
  · exact .inr ⟨_, .items hkey hseq hroom (Nat.not_le.mp hitems)⟩
  by_cases hbytes : host.limits.maximumOcppMessageBytes < f.bytes ∨ limits.maximumBytes < (totals (fs ++ [f])).bytes
  · exact .inr ⟨_, .bytes hkey hseq hroom hitems hbytes⟩
  · simp only [not_or, Nat.not_lt] at hbytes
    refine .inl ⟨hopen.numbered.snoc hkey hseq, ⟨?_, hitems, hbytes.2, ?_⟩, hroom⟩
    · rw [totals_snoc_fragments]
      exact hopen.room
    · intro g hg
      rcases List.mem_append.mp hg with hg | hg
      · exact hopen.within.message g hg
      · exact List.mem_singleton.mp hg ▸ hbytes.1

end Steps

section Runs

def Arrival.timely (f : ReportFragment) : Arrival := .fragment f false none

def Arrival.stop : Arrival → Option ReportFailure
  | .cancelled => some .cancelled
  | .expired => some .timedOut
  | .failed reason => some reason
  | .closed => some .disconnected
  | .fragment _ _ _ => none

variable {rest : List Arrival}

theorem Open.nil (hl : limits.Valid) : Open host key limits [] where
  numbered := fun _ _ h => nomatch h
  more := fun _ h => nomatch h
  room := hl.2.2.1.1
  within := ⟨Nat.zero_le _, Nat.zero_le _, Nat.zero_le _, fun _ h => nomatch h⟩

theorem Open.init (h : Open host key limits (fs ++ [f])) : Open host key limits fs where
  numbered := h.numbered.init
  more := fun g hg => h.more g (List.mem_append_left _ hg)
  room := by
    have := h.room
    rw [List.length_append, List.length_singleton] at this
    omega
  within := h.within.init

theorem Open.snoc (hnum : Numbered key (fs ++ [f])) (hwithin : Within host limits (fs ++ [f]))
    (hopen : Open host key limits fs) (hmore : f.more = true) (hroom : fs.length + 1 ≠ limits.maximumFragments) :
    Open host key limits (fs ++ [f]) where
  numbered := hnum
  more g hg := by
    rcases List.mem_append.mp hg with hg | hg
    · exact hopen.more g hg
    · exact List.mem_singleton.mp hg ▸ hmore
  room := by
    have := hopen.room
    rw [List.length_append, List.length_singleton]
    omega
  within := hwithin

section

variable (hl : limits.Valid)

include hl

theorem append_within (hopen : fs.length < limits.maximumFragments)
    (hnum : Numbered key (fs ++ [f])) (hwithin : Within host limits (fs ++ [f]))
    (hroom : f.more = true → fs.length + 1 ≠ limits.maximumFragments) :
    append host limits (gathered host key limits fs) f none = .ok (gathered host key limits (fs ++ [f]), !f.more) :=
  append_accepted hl hopen hnum.last.1 hnum.last.2 hroom hwithin.items (hwithin.message f (by simp)) hwithin.bytes

theorem collectLoop_open (hopen : Open host key limits fs) :
    collectLoop host limits (gathered host key limits []) (fs.map .timely ++ rest) =
      collectLoop host limits (gathered host key limits fs) rest := by
  induction fs using List.reverseRecOn generalizing rest with
  | nil => rfl
  | append_singleton fs f ih =>
      have hroom := hopen.room
      rw [List.length_append, List.length_singleton] at hroom
      have happend := append_within hl hopen.init.room hopen.numbered hopen.within fun _ => hroom.ne
      rw [hopen.more f (by simp)] at happend
      rw [List.map_append, List.append_assoc, ih hopen.init]
      simp [collectLoop, accept, Arrival.timely, happend]

theorem collectLoop_complete (hin : InOrder key fs) (hwithin : Within host limits fs) :
    collectLoop host limits (gathered host key limits []) (fs.map .timely ++ rest) =
      .complete (gathered host key limits fs) := by
  obtain ⟨init, last, rfl, hnum, hmore, hlast⟩ := hin
  have hroom := hwithin.fragments
  rw [totals_snoc_fragments] at hroom
  have hopen : Open host key limits init := ⟨hnum.init, hmore, hroom, hwithin.init⟩
  have happend := append_within hl hroom hnum hwithin fun hm => absurd (hlast ▸ hm) Bool.false_ne_true
  rw [hlast] at happend
  rw [List.map_append, List.append_assoc, collectLoop_open hl hopen]
  simp [collectLoop, accept, Arrival.timely, happend]

theorem collectLoop_failed (hopen : Open host key limits fs)
    (hfault : Fault host key limits fs f reason) :
    collectLoop host limits (gathered host key limits []) (fs.map .timely ++ .timely f :: rest) =
      .failed ⟨key, totals fs, reason⟩ := by
  rw [collectLoop_open hl hopen]
  simp only [collectLoop, accept, Arrival.timely, append_refused hl hopen.room hfault]
  rfl

theorem collectLoop_stopped (hopen : Open host key limits fs) {a : Arrival}
    (hstop : a.stop = some reason) :
    collectLoop host limits (gathered host key limits []) (fs.map .timely ++ a :: rest) =
      .failed ⟨key, totals fs, reason⟩ := by
  rw [collectLoop_open hl hopen]
  cases a with
  | fragment f late refusal => cases hstop
  | _ =>
      cases hstop
      rfl

end

/-- What a sequence of fragments amounts to: a whole report, a report cut off by a fault, or an open one. -/
inductive Amounts (host : Host) (key : ReportKey) (limits : ReportLimits) : List ReportFragment → Outcome → Prop
  | complete {received rest : List ReportFragment} (hin : InOrder key received)
      (hwithin : Within host limits received) :
      Amounts host key limits (received ++ rest) (.complete (gathered host key limits received))
  | failed {accepted rest : List ReportFragment} {f : ReportFragment} {reason : ReportFailure}
      (hopen : Open host key limits accepted) (hfault : Fault host key limits accepted f reason) :
      Amounts host key limits (accepted ++ f :: rest) (.failed ⟨key, totals accepted, reason⟩)
  | waiting {accepted : List ReportFragment} (hopen : Open host key limits accepted) :
      Amounts host key limits accepted (.waiting (gathered host key limits accepted))

theorem exists_amounts (hl : limits.Valid) (fs : List ReportFragment) :
    ∃ outcome, Amounts host key limits fs outcome := by
  induction fs using List.reverseRecOn with
  | nil => exact ⟨_, .waiting (.nil hl)⟩
  | append_singleton fs f ih =>
      obtain ⟨outcome, h⟩ := ih
      cases h with
      | complete hin hwithin =>
          rw [List.append_assoc]
          exact ⟨_, .complete hin hwithin⟩
      | failed hopen hfault =>
          rw [List.append_assoc, List.cons_append]
          exact ⟨_, .failed hopen hfault⟩
      | waiting hopen =>
          rcases hopen.next f with ⟨hnum, hwithin, hroom⟩ | ⟨reason, hfault⟩
          · cases hmore : f.more with
            | true => exact ⟨_, .waiting (.snoc hnum hwithin hopen hmore (hroom hmore))⟩
            | false =>
                have hin : InOrder key (fs ++ [f]) := ⟨fs, f, rfl, hnum, hopen.more, hmore⟩
                rw [← List.append_nil (fs ++ [f])]
                exact ⟨_, .complete hin hwithin⟩
          · exact ⟨_, .failed hopen hfault⟩

theorem Amounts.collectLoop_eq (hl : limits.Valid) {outcome : Outcome} (h : Amounts host key limits fs outcome) :
    collectLoop host limits (gathered host key limits []) (fs.map .timely) = outcome := by
  cases h with
  | complete hin hwithin =>
      rw [List.map_append]
      exact collectLoop_complete hl hin hwithin
  | failed hopen hfault =>
      rw [List.map_append, List.map_cons]
      exact collectLoop_failed hl hopen hfault
  | waiting hopen =>
      rw [← List.append_nil (fs.map _)]
      exact collectLoop_open hl hopen

theorem collectLoop_eq_iff (hl : limits.Valid) {outcome : Outcome} :
    collectLoop host limits (gathered host key limits []) (fs.map .timely) = outcome ↔
      Amounts host key limits fs outcome := by
  refine ⟨fun h => ?_, fun h => h.collectLoop_eq hl⟩
  obtain ⟨other, hother⟩ : ∃ other, Amounts host key limits fs other := exists_amounts hl fs
  have heq := hother.collectLoop_eq hl
  rw [h] at heq
  exact heq ▸ hother

theorem collectReport_reserved (hk : key.Valid) (hl : limits.Valid) (arrivals : List Arrival) :
    collectReport host (reserveReport host key limits none) limits arrivals =
      collectLoop host limits (gathered host key limits []) arrivals := by
  have hvalid : ¬(¬limits.Valid ∨ ¬key.Valid) := by simp [hk, hl]
  rw [reserveReport, if_neg hvalid, collectReport]
  exact if_neg (not_not_intro rfl)

end Runs

/-- Fragments in time and within the budget are collected into a report exactly when they are the fragments of the
request in order and keep the limits. -/
theorem multipart_collection (host : Host) (key : ReportKey) (limits : ReportLimits) (fragments : List ReportFragment) :
    (¬limits.Valid ∨ ¬key.Valid → ∀ arrivals, collectReport host (reserveReport host key limits none) limits arrivals =
      .failed ⟨key, {}, .invalidConfiguration⟩) ∧
    (limits.Valid → key.Valid →
      (∀ report, collectReport host (reserveReport host key limits none) limits (fragments.map .timely) =
          .complete report ↔
        ∃ received rest, fragments = received ++ rest ∧ InOrder key received ∧ Within host limits received ∧
          report = gathered host key limits received) ∧
      (∀ failure, collectReport host (reserveReport host key limits none) limits (fragments.map .timely) =
          .failed failure ↔
        ∃ accepted f rest reason, fragments = accepted ++ f :: rest ∧ Open host key limits accepted ∧
          Fault host key limits accepted f reason ∧ failure = ⟨key, totals accepted, reason⟩) ∧
      (∀ report, collectReport host (reserveReport host key limits none) limits (fragments.map .timely) =
          .waiting report ↔
        Open host key limits fragments ∧ report = gathered host key limits fragments) ∧
      ∀ ending reason, ending.stop = some reason → Open host key limits fragments →
        collectReport host (reserveReport host key limits none) limits (fragments.map .timely ++ [ending]) =
          .failed ⟨key, totals fragments, reason⟩) := by
  refine ⟨fun hinvalid arrivals => ?_, fun hl hk => ?_⟩
  · rw [reserveReport, if_pos hinvalid]
    rfl
  simp only [collectReport_reserved hk hl, collectLoop_eq_iff hl]
  refine ⟨fun report => ⟨?_, ?_⟩, fun failure => ⟨?_, ?_⟩, fun report => ⟨?_, ?_⟩, fun ending reason hstop hopen => ?_⟩
  · intro h
    cases h with
    | complete hin hwithin => exact ⟨_, _, rfl, hin, hwithin, rfl⟩
  · rintro ⟨received, rest, rfl, hin, hwithin, rfl⟩
    exact .complete hin hwithin
  · intro h
    cases h with
    | failed hopen hfault => exact ⟨_, _, _, _, rfl, hopen, hfault, rfl⟩
  · rintro ⟨accepted, f, rest, reason, rfl, hopen, hfault, rfl⟩
    exact .failed hopen hfault
  · intro h
    cases h with
    | waiting hopen => exact ⟨hopen, rfl⟩
  · rintro ⟨hopen, rfl⟩
    exact .waiting hopen
  · exact collectLoop_stopped hl hopen hstop

def sampleKey : ReportKey := ⟨"CP-1", "c-1", .ocpp201, "NotifyReport", 7, "r-1"⟩

def sampleHost : Host := ⟨{}, 256⟩

theorem multipart_collection_sample :
    collectReport sampleHost (reserveReport sampleHost sampleKey {} none) {}
      ([⟨sampleKey, 0, true, [[1]]⟩, ⟨sampleKey, 1, false, [[2], [3]]⟩].map .timely) =
        .complete (gathered sampleHost sampleKey {}
          [⟨sampleKey, 0, true, [[1]]⟩, ⟨sampleKey, 1, false, [[2], [3]]⟩]) := by
  refine (((multipart_collection sampleHost sampleKey {} _).2 (by decide) (by decide)).1 _).mpr
    ⟨_, [], (List.append_nil _).symm, ?_, ⟨by decide, by decide, by decide, by decide⟩, rfl⟩
  refine ⟨[⟨sampleKey, 0, true, [[1]]⟩], ⟨sampleKey, 1, false, [[2], [3]]⟩, rfl, ?_, by decide, rfl⟩
  intro i f hf
  match i, hf with
  | 0, rfl => exact ⟨rfl, rfl⟩
  | 1, rfl => exact ⟨rfl, rfl⟩

/-- A report in order that has more items than the limit allows fails. -/
theorem report_over_item_limit :
    InOrder sampleKey [⟨sampleKey, 0, false, [[1], [2]]⟩] ∧
      collectReport sampleHost (reserveReport sampleHost sampleKey { maximumItems := 1 } none) { maximumItems := 1 }
        ([⟨sampleKey, 0, false, [[1], [2]]⟩].map .timely) = .failed ⟨sampleKey, {}, .itemLimit⟩ := by
  refine ⟨⟨[], _, rfl, ?_, by decide, rfl⟩, by decide⟩
  intro i f hf
  match i, hf with
  | 0, rfl => exact ⟨rfl, rfl⟩

end OcppBridge.Report
