import OcppBridge.Operational.JobMoves
import OcppBridge.Transition

namespace OcppBridge.Operational

open Storage Transaction Relation Desk Revisions Firmware

namespace JobFamily

variable {P κ δ ι α β π τ υ : Type} {family : JobFamily P κ δ ι α β π τ υ} {r r' r'' : JobRecord κ π τ υ}

def calmRules (family : JobFamily P κ δ ι α β π τ υ) : Rules (JobRecord κ π τ υ) where
  allowed := family.Calm
  fresh r := r.notifications = 0 ∧ r.rejectedTransitions = 0

abbrev calm (family : JobFamily P κ δ ι α β π τ υ) : Policy (JobRecord κ π τ υ) Unit :=
  plain family.Calm family.calmRules.fresh

theorem Calm.trans (h : family.Calm r r') (h' : family.Calm r' r'') : family.Calm r r'' := by
  refine ⟨h.toQuiet.trans h'.toQuiet, h'.notifications.trans h.notifications, h'.rejected.trans h.rejected, ?_⟩
  intro hresolved
  obtain ⟨hstate, hchanged⟩ := h.resolved hresolved
  obtain ⟨hstate', hchanged'⟩ := h'.resolved (hstate ▸ hresolved)
  exact ⟨hstate'.trans hstate, hchanged'.trans hchanged⟩

theorem calm_lawful : family.calm.Lawful :=
  plain_lawful Calm.refl Calm.trans fun h hr => ⟨h.notifications.trans hr.1, h.rejected.trans hr.2⟩

theorem calm_obeyed : family.calmRules.Obey family.calm := ⟨calm_lawful, fun h => ⟨h, id⟩, fun h => ⟨h, id⟩⟩

theorem calm_admits : family.Admits family.calmRules := ⟨id, fun _ hn hr => ⟨hn, hr⟩⟩

variable [Wire P] {desk desk' : family.Records}

abbrev Idles (desk desk' : family.Records) : Prop := Succeeds (tracking family.calm) desk.rows desk'.rows

theorem idles_of_steps (h : ReflTransGen (Step (tracking family.calm)) desk.rows desk'.rows) : Idles desk desk' :=
  (Step.run (tracking_lawful calm_lawful) h).1

theorem idles_of_moves (h : Moves family.calmRules desk desk') : Idles desk desk' :=
  idles_of_steps (h.steps calm_obeyed)

theorem finish_idles [DecidableEq π] {incoming published : CommandResult}
    (h : family.finish desk incoming = .ok (desk', published)) : Idles desk desk' := by
  rcases finish_eq_ok calm_admits h with ⟨rfl, -⟩ | ⟨r, hfinished, -⟩
  · exact idles_of_steps .refl
  · exact idles_of_steps (hfinished.steps calm_obeyed fun hown => ⟨hown, False.elim⟩)

end JobFamily

open JobFamily

theorem FirmwareStatus.phase_le_of_follows {status last : FirmwareStatus} (h : status.follows (some last) = true)
    (hidle : status ≠ .idle) : last.phase ≤ status.phase := by
  have hmax : last.phase ≤ 7 := by cases last <;> decide
  cases status with
  | idle => exact absurd rfl hidle
  | installed | installationFailed => exact hmax
  | _ =>
      simp only [follows, Option.map_some, Option.getD_some, decide_eq_true_eq] at h
      simp only [phase] at h ⊢
      omega

namespace Firmware

variable {κ : Type}

inductive Transition
  | advanced
  /-- The job is already resolved; the fact is counted but never revives it. -/
  | late
  /-- A regression or contradiction; the state is unchanged and the fact counted. -/
  | rejected
  deriving DecidableEq, Repr

def transition (resolved : JobState FirmwareProgress → Bool) (permitted : κ → FirmwareStatus → Bool)
    (status : FirmwareStatus) (record : Record κ) : Transition :=
  if resolved record.state then .late
  else if permitted record.request status && status.follows record.lastStatus then .advanced
  else .rejected

structure Follows (resolved : JobState FirmwareProgress → Bool) (r r' : Record κ) : Prop where
  phase : ∀ status, r.lastStatus = some status → ∃ status', r'.lastStatus = some status' ∧ status.phase ≤ status'.phase
  final : resolved r.state = true → r'.state = r.state ∧ r'.lastStatus = r.lastStatus ∧
    r'.lastStatusAt = r.lastStatusAt ∧ r'.changedAt = r.changedAt

variable {resolved : JobState FirmwareProgress → Bool} {permitted : κ → FirmwareStatus → Bool} {r r' r'' : Record κ}
  {status : FirmwareStatus} {observedAt : UtcTimestamp}

theorem Follows.refl (r : Record κ) : Follows resolved r r :=
  ⟨fun status h => ⟨status, h, le_rfl⟩, fun _ => ⟨rfl, rfl, rfl, rfl⟩⟩

theorem Follows.trans (h : Follows resolved r r') (h' : Follows resolved r' r'') : Follows resolved r r'' := by
  constructor
  · intro status hstatus
    obtain ⟨status', hstatus', hle⟩ := h.phase status hstatus
    obtain ⟨status'', hstatus'', hle'⟩ := h'.phase status' hstatus'
    exact ⟨status'', hstatus'', hle.trans hle'⟩
  · intro hresolved
    obtain ⟨hstate, hlast, hat, hchanged⟩ := h.final hresolved
    obtain ⟨hstate', hlast', hat', hchanged'⟩ := h'.final (hstate ▸ hresolved)
    exact ⟨hstate'.trans hstate, hlast'.trans hlast, hat'.trans hat, hchanged'.trans hchanged⟩

theorem applyStatus_cases (resolved : JobState FirmwareProgress → Bool) (permitted : κ → FirmwareStatus → Bool)
    (status : FirmwareStatus) (observedAt : UtcTimestamp) (r : Record κ) :
    (resolved r.state = true ∧ transition resolved permitted status r = .late ∧
      applyStatus resolved permitted status observedAt r = { r with notifications := countedUp r.notifications }) ∨
    (resolved r.state = false ∧ transition resolved permitted status r = .advanced ∧
      status.follows r.lastStatus = true ∧ applyStatus resolved permitted status observedAt r = { r with
        notifications := countedUp r.notifications
        lastStatus := if status = .idle then r.lastStatus else some status
        lastStatusAt := if status = .idle then r.lastStatusAt else some observedAt
        state := status.state
        changedAt := max r.changedAt observedAt }) ∨
    (resolved r.state = false ∧ transition resolved permitted status r = .rejected ∧
      applyStatus resolved permitted status observedAt r = { r with
        notifications := countedUp r.notifications
        rejectedTransitions := countedUp r.rejectedTransitions }) := by
  cases hresolved : resolved r.state with
  | true => exact .inl ⟨rfl, by simp [transition, hresolved], by simp [applyStatus, hresolved]⟩
  | false =>
      refine .inr ?_
      cases hallowed : permitted r.request status && status.follows r.lastStatus with
      | true =>
          refine .inl ⟨rfl, by simp [transition, hresolved, hallowed], ?_, by simp [applyStatus, hresolved, hallowed]⟩
          exact (Bool.and_eq_true _ _ ▸ hallowed).2
      | false =>
          exact .inr ⟨rfl, by simp [transition, hresolved, hallowed], by simp [applyStatus, hresolved, hallowed]⟩

theorem applyStatus_follows : Follows resolved r (applyStatus resolved permitted status observedAt r) := by
  rcases applyStatus_cases resolved permitted status observedAt r with
    ⟨-, -, heq⟩ | ⟨hopen, -, hfollows, heq⟩ | ⟨-, -, heq⟩
  · rw [heq]
    exact ⟨fun s hs => ⟨s, hs, le_rfl⟩, fun _ => ⟨rfl, rfl, rfl, rfl⟩⟩
  · rw [heq]
    refine ⟨fun s hs => ?_, fun hresolved => absurd (hopen.symm.trans hresolved) Bool.false_ne_true⟩
    by_cases hidle : status = .idle
    · exact ⟨s, by simp only [hidle, if_true, hs], le_rfl⟩
    · exact ⟨status, by simp only [hidle, if_false], FirmwareStatus.phase_le_of_follows (hs ▸ hfollows) hidle⟩
  · rw [heq]
    exact ⟨fun s hs => ⟨s, hs, le_rfl⟩, fun _ => ⟨rfl, rfl, rfl, rfl⟩⟩

theorem applyStatus_notifications :
    (applyStatus resolved permitted status observedAt r).notifications = countedUp r.notifications := by
  rcases applyStatus_cases resolved permitted status observedAt r with ⟨-, -, heq⟩ | ⟨-, -, -, heq⟩ | ⟨-, -, heq⟩
  all_goals rw [heq]

theorem applyStatus_rejected : (applyStatus resolved permitted status observedAt r).rejectedTransitions =
    if transition resolved permitted status r = .rejected then countedUp r.rejectedTransitions
    else r.rejectedTransitions := by
  rcases applyStatus_cases resolved permitted status observedAt r with
    ⟨-, htransition, heq⟩ | ⟨-, htransition, -, heq⟩ | ⟨-, htransition, heq⟩
  all_goals
    rw [heq, htransition]
    rfl

variable {P δ ι α β : Type} [Wire P]

structure Watch (family : JobFamily P κ δ ι α β FirmwareProgress FirmwareStatus Empty) where
  Fact : Type
  station : Fact → ResourceRef
  observedAt : Fact → UtcTimestamp
  /-- The native status of a notification; the passing of time reports none. -/
  reported : Fact → Option FirmwareStatus
  concerns : Fact → Record κ → Bool
  permitted : κ → FirmwareStatus → Bool
  observe : family.Records → Fact → Except StorageError family.Records
  expires : ∀ desk fact, reported fact = none →
    observe desk fact = family.expire desk (station fact) (observedAt fact)
  reports : ∀ desk fact status, reported fact = some status → observe desk fact =
    family.report desk (station fact) (concerns fact) (applyStatus family.resolved permitted status (observedAt fact))

/-- One notification that was attributed, and what it did to its job. -/
structure Notice where
  place : StationKey × Nat
  transition : Transition
  deriving DecidableEq

variable {family : JobFamily P κ δ ι α β FirmwareProgress FirmwareStatus Empty} {watch : Watch family}

def Watch.subject (watch : Watch family) (desk : family.Records) (fact : watch.Fact) : Option (Record κ) :=
  match desk.readKey (watch.station fact).key with
  | .ok records => records.reverse.find? (watch.concerns fact)
  | .error _ => none

def Watch.notices (watch : Watch family) (desk : family.Records) (fact : watch.Fact) : List Notice :=
  match watch.reported fact, watch.subject desk fact with
  | some status, some r => [⟨family.shape.place r, transition family.resolved watch.permitted status r⟩]
  | _, _ => []

/-- A ledger, with the notifications that were attributed to its jobs. -/
structure Book (family : JobFamily P κ δ ι α β FirmwareProgress FirmwareStatus Empty) where
  desk : family.Records
  log : List Notice

/-- What happens to a ledger; `surroundings` stands for any change of the tables beside it. -/
inductive Operation (watch : Watch family)
  | reserve (mutation : JobMutation κ)
  | observe (fact : watch.Fact)
  | finish (incoming : CommandResult)
  | maintain (now : UtcTimestamp) (startup : Bool)
  | surroundings (journal : Journal P) (releaseJobs : List ReleaseJob)

def Book.advance (book : Book family) (notices : List Notice) : Except StorageError family.Records → Book family
  | .ok desk => ⟨desk, book.log ++ notices⟩
  | .error _ => book

def Book.step [DecidableEq δ] (book : Book family) : Operation watch → Book family
  | .reserve mutation => book.advance [] (family.reserve book.desk mutation)
  | .observe fact => book.advance (watch.notices book.desk fact) (watch.observe book.desk fact)
  | .finish incoming => book.advance [] ((family.finish book.desk incoming).map Prod.fst)
  | .maintain now startup => book.advance [] (family.maintain book.desk now startup)
  | .surroundings journal releaseJobs => { book with desk := { book.desk with journal, releaseJobs } }

def Book.empty : Book family := ⟨⟨.empty, .empty, []⟩, []⟩

def history [DecidableEq δ] (watch : Watch family) (operations : List (Operation watch)) : Book family :=
  operations.foldl Book.step .empty

def Book.attributed (book : Book family) (place : StationKey × Nat) : Nat := book.log.countP fun n => n.place = place

def Book.refused (book : Book family) (place : StationKey × Nat) : Nat :=
  book.log.countP fun n => n.place = place ∧ n.transition = .rejected

section Steps

variable {desk desk' : family.Records} {fact : watch.Fact}

/-- The entry of a job that a notification is attributed to. -/
def Watch.told (watch : Watch family) (fact : watch.Fact) (status : FirmwareStatus) (e : Entry (Record κ)) :
    Entry (Record κ) :=
  ⟨applyStatus family.resolved watch.permitted status (watch.observedAt fact) e.record, e.inflight⟩

theorem Watch.told_key (e : Entry (Record κ)) : family.shape.key (watch.told fact status e) = family.shape.key e :=
  (keeps_same (applyStatus_keeps family.resolved watch.permitted status (watch.observedAt fact) e.record)).1

theorem observe_cases (hreported : watch.reported fact = some status) (h : watch.observe desk fact = .ok desk') :
    (watch.subject desk fact = none ∧ desk'.rows = desk.rows) ∨
      ∃ e ∈ desk.rows, watch.subject desk fact = some e.record ∧
        desk'.rows = desk.rows.replace (watch.told fact status e) := by
  rw [watch.reports desk fact status hreported] at h
  simp only [report, bind_eq_ok] at h
  obtain ⟨station, hstation, values, hread, h⟩ := h
  rw [← stationKey_eq_ok hstation] at hread
  simp only [Watch.subject, hread]
  cases hfind : values.reverse.find? (watch.concerns fact) with
  | none =>
      rw [hfind, pure_eq_ok] at h
      exact .inl ⟨rfl, h ▸ rfl⟩
  | some r =>
      rw [hfind] at h
      have hmem : r ∈ values := List.mem_reverse.mp (List.mem_of_find?_eq_some hfind)
      obtain ⟨e, he, -, rfl⟩ := (mem_readKey hread).mp hmem
      exact .inr ⟨e, he, rfl, amend_of_mem h he (watch.told_key e)⟩

theorem observe_idles (hreported : watch.reported fact = none) (h : watch.observe desk fact = .ok desk') :
    Idles desk desk' := by
  rw [watch.expires desk fact hreported] at h
  exact idles_of_moves (expire_moves calm_admits h)

/-- What the jobs keep, notifications included. -/
abbrev carrying (family : JobFamily P κ δ ι α β FirmwareProgress FirmwareStatus Empty) :
    Policy (Entry (Record κ)) Unit :=
  tracking (plain (Follows family.resolved) fun _ => True)

abbrev Carries (desk desk' : family.Records) : Prop := Succeeds (carrying family) desk.rows desk'.rows

omit [Wire P] in
theorem carrying_lawful : (carrying family).Lawful :=
  tracking_lawful (plain_lawful Follows.refl Follows.trans fun _ => id)

theorem carries_of_idles (h : Idles desk desk') : Carries desk desk' := by
  refine Succeeds.imp ?_ (fun _ => trivial) h
  rintro e f ⟨hcalm, hinflight⟩
  refine ⟨⟨fun s hs => ⟨s, hcalm.lastStatus.trans hs, le_rfl⟩, fun hresolved => ?_⟩, hinflight⟩
  obtain ⟨hstate, hchanged⟩ := hcalm.resolved hresolved
  exact ⟨hstate, hcalm.lastStatus, hcalm.lastStatusAt, hchanged⟩

theorem observe_carries (h : watch.observe desk fact = .ok desk') : Carries desk desk' := by
  cases hreported : watch.reported fact with
  | none => exact carries_of_idles (observe_idles hreported h)
  | some status =>
      rw [Carries]
      rcases observe_cases hreported h with ⟨-, hrows⟩ | ⟨e, he, -, hrows⟩
      · rw [hrows]
        exact .refl carrying_lawful _
      · rw [hrows]
        refine Step.succeeds carrying_lawful (.revise he (watch.told_key e) ?_ False.elim)
        exact ⟨applyStatus_follows, id⟩

variable {book : Book family}

/-- Every operation but a notification leaves the reports alone. -/
inductive Steps (watch : Watch family) (book : Book family) : Book family → Prop
  | stays : Steps watch book book
  | idles {desk : family.Records} (h : Idles book.desk desk) : Steps watch book ⟨desk, book.log⟩
  | reports {desk : family.Records} {fact : watch.Fact} {status : FirmwareStatus}
      (hreported : watch.reported fact = some status) (h : watch.observe book.desk fact = .ok desk) :
      Steps watch book ⟨desk, book.log ++ watch.notices book.desk fact⟩

theorem advance_steps {outcome : Except StorageError family.Records}
    (h : ∀ desk, outcome = .ok desk → Idles book.desk desk) : Steps watch book (book.advance [] outcome) := by
  cases outcome with
  | error e => exact .stays
  | ok desk =>
      rw [Book.advance, List.append_nil]
      exact .idles (h desk rfl)

variable [DecidableEq δ]

theorem step_steps (operation : Operation watch) : Steps watch book (book.step operation) := by
  cases operation with
  | reserve mutation => exact advance_steps fun desk h => idles_of_moves (reserve_moves calm_admits h)
  | observe fact =>
      cases hreported : watch.reported fact with
      | none =>
          have hnone : watch.notices book.desk fact = [] := by rw [Watch.notices, hreported]
          rw [Book.step, hnone]
          exact advance_steps fun desk h => observe_idles hreported h
      | some status =>
          rw [Book.step]
          cases h : watch.observe book.desk fact with
          | error e => exact .stays
          | ok desk => exact .reports hreported h
  | finish incoming =>
      refine advance_steps fun desk h => ?_
      cases hfinish : family.finish book.desk incoming with
      | error e =>
          rw [hfinish] at h
          cases h
      | ok result =>
          rw [hfinish] at h
          cases h
          exact finish_idles hfinish
  | maintain now startup => exact advance_steps fun desk h => idles_of_moves (maintain_moves calm_admits h)
  | surroundings journal releaseJobs => exact .idles (idles_of_steps .refl)

theorem run_carries (operations : List (Operation watch)) (book : Book family) :
    Carries book.desk (operations.foldl Book.step book).desk := by
  refine Transition.run_invariant (P := fun later : Book family => Carries book.desk later.desk) ?_ operations
    (.refl carrying_lawful _)
  intro later operation hcarries
  refine hcarries.trans carrying_lawful ?_
  have hstep : Steps watch later (later.step operation) := step_steps operation
  generalize later.step operation = next at hstep ⊢
  cases hstep with
  | stays => exact .refl carrying_lawful _
  | idles h => exact carries_of_idles h
  | reports _ h => exact observe_carries h

end Steps

section Counting

variable {book book' : Book family} {place : StationKey × Nat} {desk : family.Records}

/-- The counters of a job agree with the log, up to where they saturate. -/
structure Book.Counted (book : Book family) : Prop where
  notifications : ∀ e ∈ book.desk.rows,
    e.record.notifications = min (book.attributed (family.shape.key e)) (2 ^ 32 - 1)
  rejected : ∀ e ∈ book.desk.rows,
    e.record.rejectedTransitions = min (book.refused (family.shape.key e)) (2 ^ 32 - 1)
  /-- No place is ahead of the newest job of its station. -/
  known : ∀ n ∈ book.log, ∃ e ∈ book.desk.rows, (family.shape.key e).1 = n.place.1 ∧ n.place.2 ≤ (family.shape.key e).2

omit [Wire P] in
theorem countedUp_min (n : Nat) : countedUp (min n (2 ^ 32 - 1)) = min (n + 1) (2 ^ 32 - 1) := by
  unfold countedUp
  omega

theorem Book.Counted.unreported (h : book.Counted)
    (hnew : ∀ e ∈ book.desk.rows, (family.shape.key e).1 = place.1 → (family.shape.key e).2 < place.2) :
    ∀ n ∈ book.log, n.place ≠ place := by
  rintro n hn rfl
  obtain ⟨e, he, hstation, hle⟩ := h.known n hn
  exact absurd (hnew e he hstation) (not_lt.mpr hle)

theorem Book.Counted.idles (h : book.Counted) (hidles : Idles book.desk desk) :
    (⟨desk, book.log⟩ : Book family).Counted := by
  have hcounts : ∀ f ∈ desk.rows,
      (∃ e ∈ book.desk.rows, family.shape.key e = family.shape.key f ∧ family.Calm e.record f.record) ∨
        (f.record.notifications = 0 ∧ f.record.rejectedTransitions = 0 ∧
          ∀ n ∈ book.log, n.place ≠ family.shape.key f) := by
    intro f hf
    rcases hidles.origin f hf with ⟨e, he, hkey, hfollows⟩ | ⟨⟨hn, hr⟩, hnew⟩
    · exact .inl ⟨e, he, hkey, hfollows.1⟩
    · exact .inr ⟨hn, hr, h.unreported hnew⟩
  constructor
  · intro f hf
    rcases hcounts f hf with ⟨e, he, hkey, hcalm⟩ | ⟨hn, -, hnone⟩
    · rw [hcalm.notifications, h.notifications e he, hkey]
      rfl
    · have hzero : book.log.countP (fun n => n.place = family.shape.key f) = 0 :=
        List.countP_eq_zero.mpr fun n hn => by simpa using hnone n hn
      rw [hn, Book.attributed, hzero]
      rfl
  · intro f hf
    rcases hcounts f hf with ⟨e, he, hkey, hcalm⟩ | ⟨-, hr, hnone⟩
    · rw [hcalm.rejected, h.rejected e he, hkey]
      rfl
    · have hzero : book.log.countP (fun n => n.place = family.shape.key f ∧ n.transition = .rejected) = 0 :=
        List.countP_eq_zero.mpr fun n hn => by simpa using fun hplace => absurd hplace (hnone n hn)
      rw [hr, Book.refused, hzero]
      rfl
  · intro n hn
    obtain ⟨e, he, hstation, hle⟩ := h.known n hn
    obtain ⟨f, hf, hstation', hle'⟩ := hidles.head e he
    exact ⟨f, hf, hstation'.trans hstation, hle.trans hle'⟩

theorem Book.Counted.reports (h : book.Counted) {fact : watch.Fact} (hreported : watch.reported fact = some status)
    (hobserve : watch.observe book.desk fact = .ok desk) :
    (⟨desk, book.log ++ watch.notices book.desk fact⟩ : Book family).Counted := by
  rcases observe_cases hreported hobserve with ⟨hnone, hrows⟩ | ⟨e, he, hsome, hrows⟩
  · have hnotices : watch.notices book.desk fact = [] := by rw [Watch.notices, hreported, hnone]
    rw [hnotices, List.append_nil]
    exact ⟨fun f hf => h.notifications f (hrows ▸ hf), fun f hf => h.rejected f (hrows ▸ hf),
      fun n hn => hrows ▸ h.known n hn⟩
  · have hnotices : watch.notices book.desk fact =
        [⟨family.shape.key e, transition family.resolved watch.permitted status e.record⟩] := by
      rw [Watch.notices, hreported, hsome]
      rfl
    rw [hnotices]
    have hkey : family.shape.key (watch.told fact status e) = family.shape.key e := watch.told_key e
    constructor
    · intro f hf
      rw [Book.attributed, List.countP_append, List.countP_singleton]
      rcases Table.mem_replace.mp (hrows ▸ hf) with ⟨hf, hother⟩ | ⟨rfl, -⟩
      · have hne : family.shape.key e ≠ family.shape.key f := fun heq => hother (heq.symm.trans hkey.symm)
        rw [h.notifications f hf, if_neg (by simpa using hne)]
        rfl
      · rw [Watch.told, applyStatus_notifications, h.notifications e he, countedUp_min, ← Watch.told, hkey,
          if_pos (by simp)]
        rfl
    · intro f hf
      rw [Book.refused, List.countP_append, List.countP_singleton]
      rcases Table.mem_replace.mp (hrows ▸ hf) with ⟨hf, hother⟩ | ⟨rfl, -⟩
      · have hne : family.shape.key e ≠ family.shape.key f := fun heq => hother (heq.symm.trans hkey.symm)
        rw [h.rejected f hf, if_neg (by simpa using fun heq => absurd heq hne)]
        rfl
      · rw [Watch.told, applyStatus_rejected, h.rejected e he, ← Watch.told, hkey]
        by_cases hrejected : transition family.resolved watch.permitted status e.record = .rejected
        · rw [if_pos hrejected, countedUp_min, if_pos (by simpa using hrejected)]
          rfl
        · rw [if_neg hrejected, if_neg (by simpa using hrejected)]
          rfl
    · intro n hn
      have hcarries := (observe_carries hobserve).head
      rcases List.mem_append.mp hn with hn | hn
      · obtain ⟨f, hf, hstation, hle⟩ := h.known n hn
        obtain ⟨g, hg, hstation', hle'⟩ := hcarries f hf
        exact ⟨g, hg, hstation'.trans hstation, hle.trans hle'⟩
      · rw [List.mem_singleton.mp hn]
        exact hcarries e he

theorem history_counted [DecidableEq δ] (operations : List (Operation watch)) : (history watch operations).Counted := by
  have hempty : (Book.empty : Book family).Counted :=
    ⟨fun _ he => absurd he Table.not_mem_empty, fun _ he => absurd he Table.not_mem_empty,
      fun _ hn => absurd hn List.not_mem_nil⟩
  refine Transition.run_invariant (P := Book.Counted) (fun book operation h => ?_) operations hempty
  have hstep : Steps watch book (book.step operation) := step_steps operation
  generalize book.step operation = next at hstep ⊢
  cases hstep with
  | stays => exact h
  | idles hidles => exact h.idles hidles
  | reports hreported hobserve => exact h.reports hreported hobserve

theorem Book.Counted.late (h : book.Counted) {fact : watch.Fact} (hreported : watch.reported fact = some status)
    (hobserve : watch.observe book.desk fact = .ok desk) {e f : Entry (Record κ)} (he : e ∈ book.desk.rows)
    (hf : f ∈ desk.rows) (hkey : family.shape.key f = family.shape.key e)
    (hresolved : family.resolved e.record.state = true) :
    f.record = { e.record with notifications := f.record.notifications } ∧
      e.record.notifications ≤ f.record.notifications := by
  have hsame : f = e → f.record = { e.record with notifications := f.record.notifications } ∧
      e.record.notifications ≤ f.record.notifications := by
    rintro rfl
    exact ⟨rfl, le_rfl⟩
  rcases observe_cases hreported hobserve with ⟨-, hrows⟩ | ⟨g, hg, -, hrows⟩
  · exact hsame (Table.eq_of_key (hrows ▸ hf) he hkey)
  · rcases Table.mem_replace.mp (hrows ▸ hf) with ⟨hf, -⟩ | ⟨rfl, -⟩
    · exact hsame (Table.eq_of_key hf he hkey)
    · obtain rfl : g = e := Table.eq_of_key hg he ((watch.told_key g).symm.trans hkey)
      rcases applyStatus_cases family.resolved watch.permitted status (watch.observedAt fact) g.record with
        ⟨-, -, heq⟩ | ⟨hopen, -⟩ | ⟨hopen, -⟩
      · have hcount := h.notifications g he
        rw [Watch.told, heq]
        refine ⟨rfl, ?_⟩
        change g.record.notifications ≤ countedUp g.record.notifications
        unfold countedUp
        omega
      · exact absurd (hopen.symm.trans hresolved) Bool.false_ne_true
      · exact absurd (hopen.symm.trans hresolved) Bool.false_ne_true

end Counting

/-- What the notifications make of the jobs of an edition, over every history of its ledger. -/
structure Tells [DecidableEq δ] (watch : Watch family) (operations : List (Operation watch)) : Prop where
  /-- A notification is attributed to one job at most and leaves every other job alone. -/
  attributed : ∀ fact desk, watch.reported fact ≠ none →
    watch.observe (history watch operations).desk fact = .ok desk →
    (∀ f ∈ desk.rows, f ∈ (history watch operations).desk.rows ∨
      ∃ r ∈ watch.subject (history watch operations).desk fact, family.shape.key f = family.shape.place r) ∧
    ∀ e ∈ (history watch operations).desk.rows, e ∈ desk.rows ∨
      ∃ r ∈ watch.subject (history watch operations).desk fact, family.shape.key e = family.shape.place r
  /-- A notification about a resolved job only raises its count. -/
  late : ∀ fact desk, watch.reported fact ≠ none →
    watch.observe (history watch operations).desk fact = .ok desk →
    ∀ e ∈ (history watch operations).desk.rows, ∀ f ∈ desk.rows, family.shape.key f = family.shape.key e →
      family.resolved e.record.state = true →
      f.record = { e.record with notifications := f.record.notifications } ∧
        e.record.notifications ≤ f.record.notifications
  /-- The phase of the last status never decreases, and a resolved job stays as it is. -/
  follows : ∀ more, ∀ e ∈ (history watch operations).desk.rows, ∀ f ∈ (history watch (operations ++ more)).desk.rows,
    family.shape.key f = family.shape.key e → Follows family.resolved e.record f.record
  /-- Each counter is the number of notifications that it stands for, up to the limit. -/
  counted : (history watch operations).Counted

theorem tells [DecidableEq δ] (watch : Watch family) (operations : List (Operation watch)) :
    Tells watch operations := by
  constructor
  · intro fact desk hreported h
    obtain ⟨status, hstatus⟩ := Option.ne_none_iff_exists'.mp hreported
    rcases observe_cases hstatus h with ⟨-, hrows⟩ | ⟨e, he, hsubject, hrows⟩
    · rw [hrows]
      exact ⟨fun f hf => .inl hf, fun e he => .inl he⟩
    · rw [hsubject, hrows]
      refine ⟨fun f hf => ?_, fun g hg => ?_⟩
      · rcases Table.mem_replace.mp hf with ⟨hf, -⟩ | ⟨rfl, -⟩
        · exact .inl hf
        · exact .inr ⟨e.record, rfl, watch.told_key e⟩
      · by_cases hkey : family.shape.key g = family.shape.key e
        · exact .inr ⟨e.record, rfl, hkey⟩
        · exact .inl (Table.mem_replace.mpr (.inl ⟨hg, fun heq => hkey (heq.trans (watch.told_key e))⟩))
  · intro fact desk hreported h e he f hf
    obtain ⟨status, hstatus⟩ := Option.ne_none_iff_exists'.mp hreported
    exact (history_counted operations).late hstatus h he hf
  · intro more e he f hf hkey
    rw [history, List.foldl_append] at hf
    exact ((run_carries more _).follows he hf hkey.symm).1
  · exact history_counted operations

end Firmware

variable {P : Type} [Wire P]

namespace Firmware16

def Observation.reported (observation : Observation) : Option FirmwareStatus :=
  match observation.kind with
  | .status status _ _ => some status
  | .expiry => none

def watch : Watch (family (P := P)) where
  Fact := Observation
  station := (·.station)
  observedAt := (·.observedAt)
  reported := Observation.reported
  concerns observation :=
    match observation.kind with
    | .status status signed requestId => attributed (family (P := P)).resolved status signed requestId
    | .expiry => fun _ => false
  permitted := permitted
  observe := observe
  expires desk observation h := by
    obtain ⟨station, observedAt, _ | _⟩ := observation
    · cases h
    · rfl
  reports desk observation status h := by
    obtain ⟨station, observedAt, _ | _⟩ := observation
    · cases h
      rfl
    · cases h

end Firmware16

namespace Firmware201

def Observation.reported (observation : Observation) : Option FirmwareStatus :=
  match observation.kind with
  | .status status _ => some status
  | .expiry => none

def watch : Watch (family (P := P)) where
  Fact := Observation
  station := (·.station)
  observedAt := (·.observedAt)
  reported := Observation.reported
  concerns observation :=
    match observation.kind with
    | .status status requestId => attributed (family (P := P)).resolved status requestId
    | .expiry => fun _ => false
  permitted := permitted
  observe := observe
  expires desk observation h := by
    obtain ⟨station, observedAt, _ | _⟩ := observation
    · cases h
    · rfl
  reports desk observation status h := by
    obtain ⟨station, observedAt, _ | _⟩ := observation
    · cases h
      rfl
    · cases h

end Firmware201

/-- Firmware notifications of either edition, interleaved with commands, results and restarts. -/
theorem firmware_notifications (operations16 : List (Firmware.Operation (Firmware16.watch (P := P))))
    (operations201 : List (Firmware.Operation (Firmware201.watch (P := P)))) :
    Tells Firmware16.watch operations16 ∧ Tells Firmware201.watch operations201 :=
  ⟨tells _ _, tells _ _⟩

end OcppBridge.Operational
