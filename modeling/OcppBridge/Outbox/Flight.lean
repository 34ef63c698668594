import OcppBridge.Outbox.Accounting
import OcppBridge.Outbox.Order
import OcppBridge.Outbox.Worker

namespace OcppBridge.Outbox

open Storage Transaction Transition

variable {host : Host} {db db' : Database} {worker worker' : Worker} {s : System} {row : DeliveryRow} {phase : Phase}

inductive Records (host : Host) (worker : Worker) : EncodedDeliveryAttempt → Prop
  | expiry {now : Stamp} {deliveryId : String} {deliveryIds : List String}
      (hphase : worker.phase = .expiring now (deliveryId :: deliveryIds)) :
      Records host worker (Worker.expiry host deliveryId now)
  | lapse {now : Stamp} {row : DeliveryRow} {rows : List DeliveryRow}
      (hphase : worker.phase = .admitting now (row :: rows))
      (hfree : ∀ entry ∈ worker.inFlight, entry.deliveryId ≠ row.deliveryId) :
      Records host worker (Worker.expiry host row.deliveryId now)
  | report {report : DeliveryReport} {resolution : DeliveryAttemptResolution}
      (hphase : worker.phase = .recording report resolution) :
      Records host worker (Worker.encodeAttempt host report resolution)

inductive Moves (host : Host) (db : Database) (worker : Worker) : Database → Worker → Prop
  | rests : Moves host db worker db worker
  | expires {now : Stamp} {deliveryId : String} {deliveryIds : List String} {db' : Database}
      (hphase : worker.phase = .expiring now (deliveryId :: deliveryIds))
      (h : recordAttempt db (Worker.expiry host deliveryId now) = .ok db') :
      Moves host db worker db' ⟨worker.remove deliveryId, .expiring now deliveryIds⟩
  | polls {now : Stamp} (hphase : worker.phase = .expiring now []) :
      Moves host db worker db { worker with phase := .polling now }
  | reads {now : Stamp} {rows : List DeliveryRow} (hphase : worker.phase = .polling now)
      (h : readPending db host.destination now host.options.pageLimit = .ok rows) :
      Moves host db worker db { worker with phase := .admitting now rows }
  | passes {now : Stamp} {row : DeliveryRow} {rows : List DeliveryRow}
      (hphase : worker.phase = .admitting now (row :: rows)) :
      Moves host db worker db { worker with phase := .admitting now rows }
  | lapses {now : Stamp} {row : DeliveryRow} {rows : List DeliveryRow} {db' : Database}
      (hphase : worker.phase = .admitting now (row :: rows))
      (hfree : ∀ entry ∈ worker.inFlight, entry.deliveryId ≠ row.deliveryId)
      (h : recordAttempt db (Worker.expiry host row.deliveryId now) = .ok db') :
      Moves host db worker db' { worker with phase := .admitting now rows }
  | hands {now : Stamp} {row : DeliveryRow} {rows : List DeliveryRow}
      (hphase : worker.phase = .admitting now (row :: rows))
      (hfree : ∀ entry ∈ worker.inFlight, entry.deliveryId ≠ row.deliveryId) :
      Moves host db worker db ⟨worker.inFlight ++ [Worker.enter row], .admitting now rows⟩
  | records {report : DeliveryReport} {resolution : DeliveryAttemptResolution} {db' : Database}
      (hphase : worker.phase = .recording report resolution)
      (h : recordAttempt db (Worker.encodeAttempt host report resolution) = .ok db') :
      Moves host db worker db' { worker with phase := .waiting }
  | waits (hphase : (∃ now, worker.phase = .admitting now []) ∨ ∃ deliveryId, worker.phase = .tracing deliveryId) :
      Moves host db worker db { worker with phase := .waiting }
  | fails {attempt : EncodedDeliveryAttempt} {error : StorageError} (hrecords : Records host worker attempt)
      (h : recordAttempt db attempt = .error error) : Moves host db worker db (worker.stop (.storage error))
  | misreads {now : Stamp} {error : StorageError} (hphase : worker.phase = .polling now)
      (h : readPending db host.destination now host.options.pageLimit = .error error) :
      Moves host db worker db (worker.stop (.storage error))
  | surprises {deliveryId : String} (hphase : worker.phase = .tracing deliveryId) :
      Moves host db worker db (worker.stop .unexpectedReport)

theorem proceed_moves (host : Host) (db : Database) (worker : Worker) (accepted : Bool) :
    Moves host db worker (worker.proceed host db accepted).1 (worker.proceed host db accepted).2 := by
  unfold Worker.proceed
  cases hphase : worker.phase with
  | waiting | stopped => exact .rests
  | expiring now deliveryIds =>
      cases deliveryIds with
      | nil => exact .polls hphase
      | cons deliveryId deliveryIds =>
          dsimp only
          split
          · next db' h => exact .expires hphase h
          · next error h => exact .fails (.expiry hphase) h
  | polling now =>
      dsimp only
      split
      · next rows h => exact .reads hphase h
      · next error h => exact .misreads hphase h
  | admitting now rows =>
      cases rows with
      | nil => exact .waits (.inl ⟨now, hphase⟩)
      | cons row rows =>
          have hfree : ¬worker.inFlight.any (·.deliveryId = row.deliveryId) →
              ∀ entry ∈ worker.inFlight, entry.deliveryId ≠ row.deliveryId := by
            intro hflying entry hentry heq
            exact hflying (List.any_eq_true.mpr ⟨entry, hentry, by simpa using heq⟩)
          dsimp only
          split_ifs with hflying hlate haccepted
          · exact .passes hphase
          · split
            · next db' h => exact .lapses hphase (hfree hflying) h
            · next error h => exact .fails (.lapse hphase (hfree hflying)) h
          · exact .hands hphase (hfree hflying)
          · exact .passes hphase
  | recording report resolution =>
      dsimp only
      split
      · next db' h => exact .records hphase h
      · next error h => exact .fails (.report hphase) h
  | tracing deliveryId =>
      dsimp only
      split_ifs
      · exact .waits (.inr ⟨deliveryId, hphase⟩)
      · exact .surprises hphase

section Flight

/-- The store still holds the delivery that was handed over, or others have taken it out; and no older one of its lane
is stored. -/
structure Tracked (db : Database) (shed : List Nat) (serial : Nat) (deliveryId : String)
    (lane : String × Nat × String) : Prop where
  issued : serial < db.inserted
  backed : (∃ row ∈ db.deliveries, row.serial = serial ∧ row.deliveryId = deliveryId ∧ row.lane = lane) ∨ serial ∈ shed
  leads : Leads db serial lane

theorem recordAttempt_keeps {attempt : EncodedDeliveryAttempt} (h : recordAttempt db attempt = .ok db')
    (hrow : row ∈ db.deliveries) (hne : row.deliveryId ≠ attempt.deliveryId) : row ∈ db'.deliveries := by
  obtain ⟨_, ⟨_, rfl⟩ | ⟨instant, _, rfl⟩⟩ := recordAttempt_eq_ok h
  · exact List.mem_filter.mpr ⟨hrow, by simpa using hne⟩
  · exact List.mem_map.mpr ⟨row, hrow, if_neg hne⟩

namespace Tracked

variable {shed : List Nat} {serial : Nat} {deliveryId : String} {lane : String × Nat × String}

theorem attempt {attempt : EncodedDeliveryAttempt} (h : Tracked db shed serial deliveryId lane)
    (hattempt : recordAttempt db attempt = .ok db') (hne : deliveryId ≠ attempt.deliveryId) :
    Tracked db' shed serial deliveryId lane := by
  have hflow := Flows.attempt hattempt
  refine ⟨h.issued.trans_le hflow.inserted, ?_, h.leads.flow hflow h.issued⟩
  rcases h.backed with ⟨row, hrow, hserial, hid, hlane⟩ | hshed
  · exact .inl ⟨row, recordAttempt_keeps hattempt hrow (hid ▸ hne), hserial, hid, hlane⟩
  · exact .inr hshed

theorem traffic (host : Host) (h : Tracked db shed serial deliveryId lane) (hqueued : Queued db) (traffic : Traffic) :
    Tracked (db.step host.policy traffic.request) (shed ++ System.sheds host db traffic) serial deliveryId lane := by
  have hflow := Flows.step host.policy db traffic.request
  refine ⟨h.issued.trans_le hflow.inserted, ?_, h.leads.flow hflow h.issued⟩
  rcases h.backed with ⟨row, hrow, hserial, hid, hlane⟩ | hshed
  · by_cases hgone : ∀ other ∈ (db.step host.policy traffic.request).deliveries, other.serial ≠ row.serial
    · refine .inr (List.mem_append_right _ (List.mem_map.mpr ⟨row, List.mem_filter.mpr ⟨hrow, ?_⟩, hserial⟩))
      simpa using hgone
    · push Not at hgone
      obtain ⟨other, hother, heq⟩ := hgone
      refine .inl ⟨other, hother, heq.trans hserial, ?_⟩
      rcases hflow.rows other hother with ⟨old, hold, hsame⟩ | hnew
      · cases hqueued.serial_inj hold hrow (hsame.serial.trans heq)
        exact ⟨hsame.deliveryId ▸ hid, hsame.lane ▸ hlane⟩
      · have hissued := hqueued.issued row hrow
        omega
  · exact .inr (List.mem_append_left _ hshed)

theorem of_read (hqueued : Queued db) (hrow : row ∈ db.deliveries) (hleads : Leads db row.serial row.lane) :
    Tracked db shed row.serial row.deliveryId row.lane :=
  ⟨hqueued.issued row hrow, .inl ⟨row, hrow, rfl, rfl, rfl⟩, hleads⟩

end Tracked

def Phase.rows : Phase → List DeliveryRow
  | .admitting _ rows => rows
  | _ => []

def Phase.reported : Phase → Option String
  | .recording report _ => some report.deliveryId
  | _ => none

/-- What is known of the worker's map and of the page it works on. -/
structure Airborne (s : System) : Prop where
  queued : Queued s.db
  gone : ∀ serial ∈ s.shed, serial < s.db.inserted ∧ ∀ row ∈ s.db.deliveries, row.serial ≠ serial
  flights : ∀ entry ∈ s.worker.inFlight, Tracked s.db s.shed entry.serial entry.deliveryId entry.lane
  distinct : s.worker.inFlight.Pairwise fun a b => a.serial ≠ b.serial ∧ a.deliveryId ≠ b.deliveryId
  page : ∀ row ∈ s.worker.phase.rows, Tracked s.db s.shed row.serial row.deliveryId row.lane
  sorted : s.worker.phase.rows.Pairwise Older
  shared : ∀ row ∈ s.worker.phase.rows, ∀ entry ∈ s.worker.inFlight, entry.serial = row.serial →
    entry.deliveryId = row.deliveryId
  recording : ∀ deliveryId ∈ s.worker.phase.reported, ∀ entry ∈ s.worker.inFlight, entry.deliveryId ≠ deliveryId

theorem gone_of_flows {shed : List Nat} (hflow : Flows db db')
    (h : ∀ serial ∈ shed, serial < db.inserted ∧ ∀ row ∈ db.deliveries, row.serial ≠ serial) :
    ∀ serial ∈ shed, serial < db'.inserted ∧ ∀ row ∈ db'.deliveries, row.serial ≠ serial := by
  intro serial hserial
  obtain ⟨hissued, hnone⟩ := h serial hserial
  refine ⟨hissued.trans_le hflow.inserted, fun row hrow => ?_⟩
  rcases hflow.rows row hrow with ⟨old, hold, hsame⟩ | hnew
  · exact hsame.serial ▸ hnone old hold
  · omega

namespace Airborne

theorem start (hqueued : Queued db) : Airborne (System.start db) where
  queued := hqueued
  gone := by simp [System.start]
  flights := by simp [System.start, Worker.start]
  distinct := .nil
  page := by simp [System.start, Worker.start, Phase.rows]
  sorted := .nil
  shared := by simp [System.start, Worker.start, Phase.rows]
  recording := by simp [System.start, Worker.start, Phase.reported]

section

variable (h : Airborne s)

include h

theorem turn (hrows : phase.rows = []) (hreported : phase.reported = none) :
    Airborne { s with worker := { s.worker with phase } } where
  queued := h.queued
  gone := h.gone
  flights := h.flights
  distinct := h.distinct
  page := by simp [hrows]
  sorted := by simp [hrows]
  shared := by simp [hrows]
  recording := by simp [hreported]

theorem attempt {attempt : EncodedDeliveryAttempt} (hattempt : recordAttempt s.db attempt = .ok db')
    {inFlight : List InFlight} (hsub : inFlight.Sublist s.worker.inFlight)
    (hne : ∀ entry ∈ inFlight, entry.deliveryId ≠ attempt.deliveryId) (hrows : phase.rows.Sublist s.worker.phase.rows)
    (hpage : ∀ row ∈ phase.rows, row.deliveryId ≠ attempt.deliveryId) (hreported : phase.reported = none) :
    Airborne ⟨db', ⟨inFlight, phase⟩, s.shed⟩ where
  queued := h.queued.attempt hattempt
  gone := gone_of_flows (.attempt hattempt) h.gone
  flights := fun entry hentry => (h.flights entry (hsub.subset hentry)).attempt hattempt (hne entry hentry)
  distinct := h.distinct.sublist hsub
  page := fun row hrow => (h.page row (hrows.subset hrow)).attempt hattempt (hpage row hrow)
  sorted := h.sorted.sublist hrows
  shared := fun row hrow entry hentry => h.shared row (hrows.subset hrow) entry (hsub.subset hentry)
  recording := by simp [hreported]

theorem reads {now : Stamp} {limit : Nat} {rows : List DeliveryRow}
    (hread : readPending s.db host.destination now limit = .ok rows) :
    Airborne { s with worker := { s.worker with phase := .admitting now rows } } := by
  obtain ⟨hsorted, hrows⟩ := h.queued.readPending_leads hread
  refine ⟨h.queued, h.gone, h.flights, h.distinct, fun row hrow => ?_, hsorted.imp fun {a b} hab => hab.1,
    fun row hrow entry hentry hserial => ?_, by simp [Phase.reported]⟩
  · exact .of_read h.queued (hrows row hrow).1 (hrows row hrow).2
  · rcases (h.flights entry hentry).backed with ⟨stored, hstored, heq, hid, _⟩ | hshed
    · cases h.queued.serial_inj hstored (hrows row hrow).1 (heq.trans hserial)
      exact hid.symm
    · exact absurd hserial.symm ((h.gone entry.serial hshed).2 row (hrows row hrow).1)

theorem hands {now : Stamp} {rows : List DeliveryRow}
    (hphase : s.worker.phase = .admitting now (row :: rows))
    (hfree : ∀ entry ∈ s.worker.inFlight, entry.deliveryId ≠ row.deliveryId) :
    Airborne { s with worker := ⟨s.worker.inFlight ++ [Worker.enter row], .admitting now rows⟩ } := by
  have hpage := h.page
  have hshared := h.shared
  have hsorted := h.sorted
  rw [hphase] at hpage hshared hsorted
  obtain ⟨hfirst, hsorted⟩ := List.pairwise_cons.mp hsorted
  refine ⟨h.queued, h.gone, fun entry hentry => ?_, ?_, fun other hother => hpage other (List.mem_cons_of_mem _ hother),
    hsorted, fun other hother entry hentry hserial => ?_, by simp [Phase.reported]⟩
  · rcases List.mem_append.mp hentry with hentry | hentry
    · exact h.flights entry hentry
    · rw [List.mem_singleton.mp hentry]
      exact hpage row List.mem_cons_self
  · refine List.pairwise_append.mpr ⟨h.distinct, List.pairwise_singleton _ _, fun entry hentry new hnew => ?_⟩
    rw [List.mem_singleton.mp hnew]
    exact ⟨fun hserial => hfree entry hentry (hshared row List.mem_cons_self entry hentry hserial), hfree entry hentry⟩
  · rcases List.mem_append.mp hentry with hentry | hentry
    · exact hshared other (List.mem_cons_of_mem _ hother) entry hentry hserial
    · rw [List.mem_singleton.mp hentry] at hserial
      exact absurd hserial (hfirst other hother).serial.ne

theorem moves (hmoves : Moves host s.db s.worker db' worker') : Airborne ⟨db', worker', s.shed⟩ := by
  cases hmoves with
  | rests => exact h
  | polls | waits | fails | misreads | surprises => exact h.turn rfl rfl
  | expires hphase hattempt =>
      refine h.attempt hattempt List.filter_sublist (fun entry hentry => ?_) (List.nil_sublist _)
        (by simp [Phase.rows]) rfl
      exact of_decide_eq_true (List.mem_filter.mp hentry).2
  | reads hphase hread => exact h.reads hread
  | @passes now row rows hphase =>
      have hsub : rows.Sublist s.worker.phase.rows := hphase ▸ List.sublist_cons_self row rows
      exact ⟨h.queued, h.gone, h.flights, h.distinct, fun row hrow => h.page row (hsub.subset hrow),
        h.sorted.sublist hsub, fun row hrow => h.shared row (hsub.subset hrow), by simp [Phase.reported]⟩
  | @lapses now row rows db' hphase hfree hattempt =>
      have hsub : rows.Sublist s.worker.phase.rows := hphase ▸ List.sublist_cons_self row rows
      have hsorted := h.sorted
      rw [hphase] at hsorted
      refine h.attempt hattempt (List.Sublist.refl _) hfree hsub (fun other hother => ?_) rfl
      exact ((List.pairwise_cons.mp hsorted).1 other hother).deliveryId.symm
  | hands hphase hfree => exact h.hands hphase hfree
  | @records report resolution db' hphase hattempt =>
      have hreported : s.worker.phase.reported = some report.deliveryId := by rw [hphase]; rfl
      exact h.attempt hattempt (List.Sublist.refl _) (h.recording _ hreported) (List.nil_sublist _)
        (by simp [Phase.rows]) rfl

end

theorem traffic (host : Host) (h : Airborne s) (traffic : Traffic) : Airborne (s.step host (.traffic traffic)) where
  queued := h.queued.step host.policy traffic.request
  gone := by
    intro serial hserial
    rcases List.mem_append.mp hserial with hserial | hserial
    · exact gone_of_flows (Flows.step host.policy s.db traffic.request) h.gone serial hserial
    · obtain ⟨row, hrow, rfl⟩ := List.mem_map.mp hserial
      obtain ⟨hrow, hgone⟩ := List.mem_filter.mp hrow
      have hissued := h.queued.issued row hrow
      refine ⟨hissued.trans_le (Flows.step host.policy s.db traffic.request).inserted, fun other hother => ?_⟩
      exact of_decide_eq_true (List.all_eq_true.mp hgone other hother)
  flights := fun entry hentry => (h.flights entry hentry).traffic host h.queued traffic
  distinct := h.distinct
  page := fun row hrow => (h.page row hrow).traffic host h.queued traffic
  sorted := h.sorted
  shared := h.shared
  recording := h.recording

theorem receive (host : Host) (h : Airborne s) (report : DeliveryReport) :
    Airborne { s with worker := s.worker.receive host report } := by
  unfold Worker.receive
  split
  · exact h.turn rfl rfl
  · refine ⟨h.queued, h.gone, fun entry hentry => h.flights entry (List.mem_of_mem_filter hentry), h.distinct.filter _,
      by simp [Phase.rows], .nil, by simp [Phase.rows], fun deliveryId hid entry hentry => ?_⟩
    rw [← Option.some.inj hid]
    exact of_decide_eq_true (List.mem_filter.mp hentry).2

theorem step (host : Host) (h : Airborne s) (event : Event) : Airborne (s.step host event) := by
  cases event with
  | traffic traffic => exact h.traffic host traffic
  | proceed accepted => exact h.moves (proceed_moves host s.db s.worker accepted)
  | tick now =>
      rw [System.step]
      split_ifs
      · exact h.turn rfl rfl
      · exact h
  | report report =>
      rw [System.step]
      split_ifs
      · exact h.receive host report
      · exact h
  | shutdown =>
      rw [System.step]
      split_ifs
      · exact h.turn rfl rfl
      · exact h
  | close =>
      rw [System.step]
      split_ifs
      · exact h.turn rfl rfl
      · exact h

theorem run (host : Host) (h : Airborne s) (events : List Event) : Airborne (s.run host events) :=
  run_invariant (P := Airborne) (fun _ event h => h.step host event) events h

theorem older_shed (h : Airborne s) {a b : InFlight} (ha : a ∈ s.worker.inFlight) (hb : b ∈ s.worker.inFlight)
    (hlane : a.lane = b.lane) (hserial : a.serial < b.serial) :
    a.serial ∈ s.shed ∧ ∀ row ∈ s.db.deliveries, row.serial ≠ a.serial := by
  rcases (h.flights a ha).backed with ⟨row, hrow, heq, _, hrow_lane⟩ | hshed
  · have hle := (h.flights b hb).leads row hrow (hrow_lane.trans hlane)
    omega
  · exact ⟨hshed, (h.gone a.serial hshed).2⟩

end Airborne

/-- Reads return the oldest delivery of a lane and no other, and deliveries whose attempts follow such reads end in the
order of their insertion. -/
theorem run_in_order (policy : RetentionPolicy) (source : Export.Source) :
    (∀ ops destination readyAt limit rows,
      readPending (Watched.run policy source ops).db destination readyAt limit = .ok rows →
        (rows.Pairwise fun a b => a.lane ≠ b.lane) ∧
          ∀ row ∈ rows, row ∈ (Watched.run policy source ops).db.deliveries ∧
            Leads (Watched.run policy source ops).db row.serial row.lane) ∧
    (∀ ops, Asked policy source ops → ∀ before row, Finalizes policy source ops before row →
      Leads (Watched.run policy source before).db row.serial row.lane ∧
        ∀ before' row', Finalizes policy source ops before' row' → row'.lane = row.lane → row'.serial < row.serial →
          before'.length < before.length) ∧
    ∀ host requests events, ∀ s, s = (System.start ((Database.empty source).run policy requests)).run host events →
      (s.worker.inFlight.Pairwise fun a b => a.serial ≠ b.serial) ∧
        ∀ a ∈ s.worker.inFlight, ∀ b ∈ s.worker.inFlight, a.lane = b.lane → a.serial < b.serial →
          a.serial ∈ s.shed ∧ ∀ row ∈ s.db.deliveries, row.serial ≠ a.serial := by
  refine ⟨?_, ?_, ?_⟩
  · intro ops destination readyAt limit rows hread
    obtain ⟨hlanes, hleads⟩ := (Watched.Sound.run policy source ops).queued.readPending_leads hread
    exact ⟨hlanes.imp fun hab => hab.2, hleads⟩
  · intro ops hasked before row hfinal
    exact ⟨hfinal.leads hasked, fun before' row' hfinal' => hfinal.lt_length hfinal' hasked⟩
  · rintro host requests events s rfl
    have hairborne := (Airborne.start ((Queued.empty source).run policy requests)).run host events
    exact ⟨hairborne.distinct.imp fun hab => hab.1, fun a ha b hb => hairborne.older_shed ha hb⟩

end Flight

section Survival

def Phase.expired : Phase → List String
  | .expiring _ deliveryIds => deliveryIds
  | _ => []

def Phase.failure : Phase → Option TargetDeliveryWorkerError
  | .stopped error => error
  | _ => none

/-- The deliveries that the worker has taken up: those in flight, on its page and the one it records a report on. -/
def Worker.held (worker : Worker) : List String :=
  worker.inFlight.map (·.deliveryId) ++ worker.phase.rows.map (·.deliveryId) ++ worker.phase.reported.toList

open Worker

def Stored (db : Database) (deliveryId : String) : Prop := ∃ row ∈ db.deliveries, row.deliveryId = deliveryId

/-- Where a write of others has to make room, the worker has taken up nothing that can be shed. -/
def Spares (host : Host) (s : System) : Traffic → Prop
  | .write _ write => write.NeedsRoom host.policy s.db → ∀ row ∈ s.db.deliveries,
      row.durability = .bestEffortTelemetry → row.deliveryId ∉ s.worker.held
  | .maintain _ | .authorize _ _ => True

def Unrelated (error : TargetDeliveryWorkerError) : Prop :=
  error = .unexpectedReport ∨ error = .reportChannelClosed ∨
    error = .storage ⟨.integrityFailure, "delivery attempt count is outside u32 range"⟩

structure Backed (s : System) : Prop where
  airborne : Airborne s
  stored : ∀ deliveryId ∈ s.worker.held, Stored s.db deliveryId
  single : s.worker.phase.expired.Nodup
  flying : ∀ deliveryId ∈ s.worker.phase.expired, deliveryId ∈ s.worker.inFlight.map (·.deliveryId)
  failure : ∀ error ∈ s.worker.phase.failure, Unrelated error

variable {deliveryId : String}

theorem recordAttempt_stored {attempt : EncodedDeliveryAttempt} (h : recordAttempt db attempt = .ok db')
    (hstored : Stored db deliveryId) (hne : deliveryId ≠ attempt.deliveryId) : Stored db' deliveryId := by
  obtain ⟨row, hrow, rfl⟩ := hstored
  exact ⟨row, recordAttempt_keeps h hrow hne, rfl⟩

theorem recordAttempt_of_stored (attempt : EncodedDeliveryAttempt) (h : Stored db attempt.deliveryId) :
    ∃ db', recordAttempt db attempt = .ok db' ∧ attempt.row ∈ db'.attempts :=
  ⟨_, bind_eq_ok.mpr ⟨(), if_pos h, rfl⟩, List.mem_append_right _ List.mem_cons_self⟩

theorem recordAttempt_of_missing (attempt : EncodedDeliveryAttempt) (h : ¬Stored db attempt.deliveryId) :
    recordAttempt db attempt = .error reportMismatch := by
  have hrequire : require (∃ row ∈ db.deliveries, row.deliveryId = attempt.deliveryId) reportMismatch =
      .error reportMismatch := if_neg h
  rw [recordAttempt, hrequire]
  rfl

section Traffic

variable {policy : RetentionPolicy} {refusal : Option StorageError} {write : EncodedWrite}

theorem write_keeps (h : db.write policy refusal write = .ok db') (hrow : row ∈ db.deliveries)
    (hspared : write.NeedsRoom policy db → row.durability ≠ .bestEffortTelemetry) : row ∈ db'.deliveries := by
  obtain ⟨mid, kept, hprepare, hinsert⟩ := write_eq_ok h
  obtain ⟨base, stats, _, _, hbase, rfl, _⟩ := prepareWrite_eq_ok hprepare
  obtain ⟨new, hdeliveries, _⟩ := (insertRows_inserted hinsert).deliveries
  rw [hdeliveries]
  refine List.mem_append_left _ ?_
  rcases hbase with ⟨rfl, -⟩ | ⟨rfl, hneeds⟩
  · exact hrow
  · exact List.mem_filter.mpr ⟨hrow, decide_eq_true (hspared hneeds)⟩

theorem write_sheds (h : db.write policy refusal write = .ok db') (hneeds : write.NeedsRoom policy db)
    (hold : ∀ row ∈ db.deliveries, row.deliveryId = deliveryId → row.durability = .bestEffortTelemetry)
    (hnew : ∀ value ∈ write.deliveries, value.deliveryId ≠ deliveryId) : ¬Stored db' deliveryId := by
  obtain ⟨mid, kept, hprepare, hinsert⟩ := write_eq_ok h
  obtain ⟨new, hdeliveries, hstores⟩ := (insertRows_inserted hinsert).deliveries
  have hkept := (prepareWrite_kept hprepare).2.1
  obtain ⟨base, stats, _, _, hbase, rfl, _⟩ := prepareWrite_eq_ok hprepare
  rintro ⟨row, hrow, hid⟩
  rw [hdeliveries] at hrow
  rcases List.mem_append.mp hrow with hrow | hrow
  · obtain ⟨rfl, -⟩ := hbase.resolve_left fun hfits => hfits.2 hneeds
    obtain ⟨hrow, hspared⟩ := List.mem_filter.mp hrow
    exact of_decide_eq_true hspared (hold row hrow hid)
  · have hnewRows : new.map (·.toEncodedDelivery) = kept.deliveries :=
      List.forall₂_eq_eq_eq ▸ List.forall₂_map_left_iff.mpr (hstores.imp fun _ _ h => h.delivery)
    exact hnew row.toEncodedDelivery (hkept.subset (hnewRows ▸ List.mem_map_of_mem hrow)) hid

theorem Spares.keeps {traffic : Traffic} (h : Spares host s traffic) (hrow : row ∈ s.db.deliveries)
    (hheld : row.deliveryId ∈ s.worker.held) : row ∈ (s.db.step host.policy traffic.request).deliveries := by
  unfold Database.step
  split
  · next db' hhandle =>
      cases traffic with
      | write refusal write => exact write_keeps hhandle hrow fun hneeds hbest => h hneeds row hrow hbest hheld
      | maintain now =>
          cases hhandle
          exact hrow
      | authorize auditEventId request =>
          obtain ⟨⟨db', record⟩, hauthorize, rfl⟩ := map_eq_ok.mp hhandle
          obtain ⟨-, -, -, -, -, -, -, -, rfl⟩ := authorize_eq_ok hauthorize
          exact hrow
  · exact hrow

end Traffic

theorem readPending_error {destination : TargetDeliveryDestination} {readyAt : Stamp} {limit : Nat}
    {error : StorageError} (h : readPending db destination readyAt limit = .error error) :
    error = ⟨.integrityFailure, "delivery attempt count is outside u32 range"⟩ := by
  unfold readPending at h
  dsimp only at h
  rw [require] at h
  split_ifs at h
  · cases h
  · cases h
    rfl

theorem Worker.mem_held : deliveryId ∈ worker.held ↔
    deliveryId ∈ worker.inFlight.map (·.deliveryId) ∨ deliveryId ∈ worker.phase.rows.map (·.deliveryId) ∨
      worker.phase.reported = some deliveryId := by
  simp only [held, List.mem_append, or_assoc, Option.mem_toList]

theorem Worker.held_flying {inFlight : List InFlight} (hrows : phase.rows = []) (hreported : phase.reported = none) :
    (⟨inFlight, phase⟩ : Worker).held = inFlight.map (·.deliveryId) := by
  simp [held, hrows, hreported]

theorem Records.held {attempt : EncodedDeliveryAttempt} (h : Records host s.worker attempt) (hbacked : Backed s) :
    attempt.deliveryId ∈ s.worker.held := by
  cases h with
  | @expiry now deliveryId deliveryIds hphase =>
      refine mem_held.mpr (.inl (hbacked.flying deliveryId ?_))
      rw [hphase]
      exact List.mem_cons_self
  | @lapse now row rows hphase =>
      refine mem_held.mpr (.inr (.inl ?_))
      rw [hphase]
      exact List.mem_cons_self
  | report hphase =>
      refine mem_held.mpr (.inr (.inr ?_))
      rw [hphase]
      rfl

namespace Backed

theorem stored_flying (h : Backed s) (hflying : deliveryId ∈ s.worker.inFlight.map (·.deliveryId)) :
    Stored s.db deliveryId :=
  h.stored deliveryId (mem_held.mpr (.inl hflying))

theorem start (hqueued : Queued db) : Backed (System.start db) where
  airborne := .start hqueued
  stored := by simp [System.start, Worker.start, Worker.held, Phase.rows, Phase.reported]
  single := List.nodup_nil
  flying := by simp [System.start, Worker.start, Phase.expired]
  failure := by simp [System.start, Worker.start, Phase.failure]

section

variable (h : Backed s)

include h

theorem turn (hairborne : Airborne { s with worker := { s.worker with phase } })
    (hrows : ∀ row ∈ phase.rows, Stored s.db row.deliveryId) (hreported : phase.reported = none)
    (hexpired : phase.expired = []) (hfailure : ∀ error ∈ phase.failure, Unrelated error) :
    Backed { s with worker := { s.worker with phase } } where
  airborne := hairborne
  stored := by
    intro deliveryId hheld
    rcases mem_held.mp hheld with hflying | hrow | hreport
    · exact h.stored_flying hflying
    · obtain ⟨row, hmem, rfl⟩ := List.mem_map.mp hrow
      exact hrows row hmem
    · rw [hreported] at hreport
      cases hreport
  single := hexpired ▸ List.nodup_nil
  flying := by simp [hexpired]
  failure := hfailure

theorem attempt {attempt : EncodedDeliveryAttempt} (hattempt : recordAttempt s.db attempt = .ok db')
    (hairborne : Airborne ⟨db', worker', s.shed⟩)
    (hheld : ∀ deliveryId ∈ worker'.held, deliveryId ∈ s.worker.held ∧ deliveryId ≠ attempt.deliveryId)
    (hsingle : worker'.phase.expired.Nodup)
    (hflying : ∀ deliveryId ∈ worker'.phase.expired, deliveryId ∈ worker'.inFlight.map (·.deliveryId))
    (hfailure : worker'.phase.failure = none) : Backed ⟨db', worker', s.shed⟩ where
  airborne := hairborne
  stored := fun deliveryId hid =>
    recordAttempt_stored hattempt (h.stored deliveryId (hheld deliveryId hid).1) (hheld deliveryId hid).2
  single := hsingle
  flying := hflying
  failure := by simp [hfailure]

theorem mem_page (hrow : row ∈ s.worker.phase.rows) : Stored s.db row.deliveryId :=
  h.stored _ (mem_held.mpr (.inr (.inl (List.mem_map_of_mem hrow))))

theorem moves (hmoves : Moves host s.db s.worker db' worker') : Backed ⟨db', worker', s.shed⟩ := by
  have hairborne := h.airborne.moves hmoves
  cases hmoves with
  | rests => exact h
  | polls | waits => exact h.turn hairborne (by simp [Phase.rows]) rfl rfl (by simp [Phase.failure])
  | fails hrecords herror =>
      obtain ⟨db', hok, _⟩ := recordAttempt_of_stored _ (h.stored _ (hrecords.held h))
      rw [hok] at herror
      cases herror
  | misreads hphase herror =>
      refine h.turn hairborne (by simp [Phase.rows]) rfl rfl fun error hfailure => ?_
      cases hfailure
      rw [readPending_error herror]
      exact .inr (.inr rfl)
  | surprises hphase =>
      refine h.turn hairborne (by simp [Phase.rows]) rfl rfl fun error hfailure => ?_
      cases hfailure
      exact .inl rfl
  | @expires now deliveryId deliveryIds db' hphase hattempt =>
      have hsingle := h.single
      have hflying := h.flying
      rw [hphase] at hsingle hflying
      obtain ⟨hfirst, hsingle⟩ := List.nodup_cons.mp hsingle
      refine h.attempt hattempt hairborne (fun other hother => ?_) hsingle (fun other hother => ?_) rfl
      · rw [held_flying rfl rfl] at hother
        obtain ⟨entry, hentry, rfl⟩ := List.mem_map.mp hother
        obtain ⟨hentry, hne⟩ := List.mem_filter.mp hentry
        exact ⟨mem_held.mpr (.inl (List.mem_map_of_mem hentry)), of_decide_eq_true hne⟩
      · obtain ⟨entry, hentry, rfl⟩ := List.mem_map.mp (hflying other (List.mem_cons_of_mem _ hother))
        refine List.mem_map_of_mem (List.mem_filter.mpr ⟨hentry, decide_eq_true fun heq => ?_⟩)
        exact hfirst (heq ▸ hother)
  | @reads now rows hphase hread =>
      refine h.turn hairborne (fun row hrow => ?_) rfl rfl (by simp [Phase.failure])
      exact ⟨row, ((h.airborne.queued.readPending_leads hread).2 row hrow).1, rfl⟩
  | @passes now row rows hphase =>
      refine h.turn hairborne (fun other hother => h.mem_page ?_) rfl rfl (by simp [Phase.failure])
      rw [hphase]
      exact List.mem_cons_of_mem _ hother
  | @lapses now row rows db' hphase hfree hattempt =>
      have hsorted := h.airborne.sorted
      rw [hphase] at hsorted
      refine h.attempt hattempt hairborne (fun other hother => ?_) List.nodup_nil (by simp [Phase.expired]) rfl
      rcases mem_held.mp hother with hother | hother | hother
      · obtain ⟨entry, hentry, rfl⟩ := List.mem_map.mp hother
        exact ⟨mem_held.mpr (.inl hother), hfree entry hentry⟩
      · obtain ⟨later, hlater, rfl⟩ := List.mem_map.mp hother
        have hpage : later ∈ s.worker.phase.rows := hphase ▸ List.mem_cons_of_mem _ hlater
        exact ⟨mem_held.mpr (.inr (.inl (List.mem_map_of_mem hpage))),
          ((List.pairwise_cons.mp hsorted).1 later hlater).deliveryId.symm⟩
      · cases hother
  | @hands now row rows hphase hfree =>
      have hpage : ∀ other ∈ row :: rows, Stored s.db other.deliveryId := fun other hother =>
        h.mem_page (hphase ▸ hother)
      refine ⟨hairborne, fun other hother => ?_, List.nodup_nil, by simp [Phase.expired], by simp [Phase.failure]⟩
      rcases mem_held.mp hother with hother | hother | hother
      · obtain ⟨entry, hentry, rfl⟩ := List.mem_map.mp hother
        rcases List.mem_append.mp hentry with hentry | hentry
        · exact h.stored_flying (List.mem_map_of_mem hentry)
        · rw [List.mem_singleton.mp hentry]
          exact hpage row List.mem_cons_self
      · obtain ⟨later, hlater, rfl⟩ := List.mem_map.mp hother
        exact hpage later (List.mem_cons_of_mem _ hlater)
      · cases hother
  | @records report resolution db' hphase hattempt =>
      have hreported : s.worker.phase.reported = some report.deliveryId := by rw [hphase]; rfl
      refine h.attempt hattempt hairborne (fun other hother => ?_) List.nodup_nil (by simp [Phase.expired]) rfl
      rw [held_flying rfl rfl] at hother
      obtain ⟨entry, hentry, rfl⟩ := List.mem_map.mp hother
      exact ⟨mem_held.mpr (.inl hother), h.airborne.recording _ hreported entry hentry⟩

theorem traffic {traffic : Traffic} (hspares : Spares host s traffic) :
    Backed (s.step host (.traffic traffic)) where
  airborne := h.airborne.traffic host traffic
  stored := by
    intro deliveryId hheld
    obtain ⟨row, hrow, rfl⟩ := h.stored deliveryId hheld
    exact ⟨row, hspares.keeps hrow hheld, rfl⟩
  single := h.single
  flying := h.flying
  failure := h.failure

theorem tick (now : Stamp) : Backed { s with worker := s.worker.tick now } where
  airborne := h.airborne.turn rfl rfl
  stored := by
    intro deliveryId hheld
    rw [Worker.tick, Worker.held_flying rfl rfl] at hheld
    exact h.stored_flying hheld
  single := by
    have hids : (s.worker.inFlight.map (·.deliveryId)).Nodup :=
      List.pairwise_map.mpr (h.airborne.distinct.imp fun {a b} hab => hab.2)
    exact hids.sublist (List.filter_sublist.map _)
  flying := fun deliveryId hid => (List.filter_sublist.map _).subset hid
  failure := by simp [Worker.tick, Phase.failure]

end

theorem receive (host : Host) (h : Backed s) (report : DeliveryReport) :
    Backed { s with worker := s.worker.receive host report } := by
  have hairborne := h.airborne.receive host report
  unfold Worker.receive at hairborne ⊢
  split at hairborne
  · exact h.turn hairborne (by simp [Phase.rows]) rfl rfl (by simp [Phase.failure])
  · next entry hfind =>
      refine ⟨hairborne, fun deliveryId hheld => ?_, List.nodup_nil, by simp [Phase.expired], by simp [Phase.failure]⟩
      rcases Worker.mem_held.mp hheld with hflying | hrow | hreport
      · exact h.stored_flying ((List.filter_sublist.map _).subset hflying)
      · cases hrow
      · have hid : entry.deliveryId = report.deliveryId := by simpa using List.find?_some hfind
        rw [← Option.some.inj hreport, ← hid]
        exact h.stored_flying (List.mem_map_of_mem (List.mem_of_find?_eq_some hfind))

theorem step (host : Host) (h : Backed s) (event : Event)
    (hspares : ∀ traffic, event = .traffic traffic → Spares host s traffic) : Backed (s.step host event) := by
  have hairborne := h.airborne.step host event
  cases event with
  | traffic traffic => exact h.traffic (hspares traffic rfl)
  | proceed accepted => exact h.moves (proceed_moves host s.db s.worker accepted)
  | tick now =>
      rw [System.step]
      split_ifs
      · exact h.tick now
      · exact h
  | report report =>
      rw [System.step]
      split_ifs
      · exact h.receive host report
      · exact h
  | shutdown =>
      rw [System.step] at hairborne ⊢
      split_ifs at hairborne ⊢
      · exact h.turn hairborne (by simp [Phase.rows]) rfl rfl (by simp [Phase.failure])
      · exact h
  | close =>
      rw [System.step] at hairborne ⊢
      split_ifs at hairborne ⊢
      · refine h.turn hairborne (by simp [Phase.rows]) rfl rfl fun error hfailure => ?_
        cases hfailure
        exact .inr (.inl rfl)
      · exact h

end Backed

theorem run_backed (host : Host) (hqueued : Queued db) (events : List Event)
    (hspares : ∀ before traffic, before ++ [.traffic traffic] <+: events →
      Spares host ((System.start db).run host before) traffic) : Backed ((System.start db).run host events) := by
  induction events using List.reverseRecOn with
  | nil => exact .start hqueued
  | append_singleton events event ih =>
      have hbefore := ih fun before traffic hfront => hspares before traffic (hfront.trans (List.prefix_append _ _))
      rw [System.run, List.foldl_append]
      refine hbefore.step host event fun traffic htraffic => ?_
      exact hspares events traffic (htraffic ▸ List.prefix_rfl)

/-- The worker fails on nothing that is missing. What the adapter reports on, and what has outlived its deadline, is put
on record and leaves the map, and the worker goes on with the others. -/
structure Serves (host : Host) (s : System) : Prop where
  failure : ∀ error, s.worker.phase = .stopped (some error) → Unrelated error
  report : s.worker.phase = .waiting → ∀ report, report.deliveryId ∈ s.worker.inFlight.map (·.deliveryId) →
    ∀ accepted, (s.run host [.report report, .proceed accepted]).worker =
        ⟨s.worker.remove report.deliveryId, .waiting⟩ ∧
      ∃ resolution, (encodeAttempt host report resolution).row ∈
        (s.run host [.report report, .proceed accepted]).db.attempts
  expiry : ∀ now deliveryId rest, s.worker.phase = .expiring now (deliveryId :: rest) → ∀ accepted,
    (s.step host (.proceed accepted)).worker = ⟨s.worker.remove deliveryId, .expiring now rest⟩ ∧
      (expiry host deliveryId now).row ∈ (s.step host (.proceed accepted)).db.attempts

theorem receive_flying (host : Host) {report : DeliveryReport}
    (h : report.deliveryId ∈ worker.inFlight.map (·.deliveryId)) :
    ∃ resolution, worker.receive host report = ⟨worker.remove report.deliveryId, .recording report resolution⟩ := by
  obtain ⟨entry, hentry, hid⟩ := List.mem_map.mp h
  unfold receive
  split
  · next hnone =>
      have hother := List.find?_eq_none.mp hnone entry hentry
      exact absurd (by simpa using hid) hother
  · next state _ => exact ⟨resolve host state report, rfl⟩

/-- A report on a delivery in flight reaches the store. -/
theorem run_report (host : Host) (hwaiting : s.worker.phase = .waiting) {report : DeliveryReport}
    (h : report.deliveryId ∈ s.worker.inFlight.map (·.deliveryId)) (accepted : Bool) :
    ∃ resolution, s.run host [.report report, .proceed accepted] =
      match recordAttempt s.db (encodeAttempt host report resolution) with
      | .ok db => ⟨db, ⟨s.worker.remove report.deliveryId, .waiting⟩, s.shed⟩
      | .error error => ⟨s.db, ⟨s.worker.remove report.deliveryId, .stopped (some (.storage error))⟩, s.shed⟩ := by
  obtain ⟨resolution, hreceive⟩ := receive_flying host h
  refine ⟨resolution, ?_⟩
  simp only [System.run, List.foldl_cons, List.foldl_nil, System.step, hwaiting, if_true, hreceive, proceed]
  cases recordAttempt s.db (encodeAttempt host report resolution) with
  | ok db => rfl
  | error error => rfl

theorem Backed.serves (h : Backed s) : Serves host s where
  failure error hstopped := by
    apply h.failure
    rw [hstopped]
    rfl
  report hwaiting report hflying accepted := by
    obtain ⟨resolution, hrun⟩ := run_report host hwaiting hflying accepted
    obtain ⟨db', hok, hrow⟩ := recordAttempt_of_stored (encodeAttempt host report resolution)
      (h.stored_flying hflying)
    rw [hrun, hok]
    exact ⟨rfl, resolution, hrow⟩
  expiry now deliveryId rest hphase accepted := by
    have hflying := h.flying deliveryId (by rw [hphase]; exact List.mem_cons_self)
    obtain ⟨db', hok, hrow⟩ := recordAttempt_of_stored (expiry host deliveryId now) (h.stored_flying hflying)
    simp only [System.step, proceed, hphase, hok]
    exact ⟨trivial, hrow⟩

/-- The worker serves its deliveries as long as no write of others has to make room while it has taken up what can be
shed. Where one has, and is accepted, the next report on such a delivery ends the worker. -/
theorem run_survives (host : Host) (source : Export.Source) (requests : List Request) (events : List Event) :
    let start := System.start ((Database.empty source).run host.policy requests)
    ((∀ before traffic, before ++ [.traffic traffic] <+: events → Spares host (start.run host before) traffic) →
      Serves host (start.run host events)) ∧
    ∀ refusal write row report accepted, let s := start.run host events
      s.worker.phase = .waiting → report.deliveryId ∈ s.worker.inFlight.map (·.deliveryId) →
      row ∈ s.db.deliveries → row.deliveryId = report.deliveryId → row.durability = .bestEffortTelemetry →
      write.NeedsRoom host.policy s.db → (∃ db, s.db.write host.policy refusal write = .ok db) →
      (∀ value ∈ write.deliveries, value.deliveryId ≠ report.deliveryId) →
      (s.run host [.traffic (.write refusal write), .report report, .proceed accepted]).worker.phase =
        .stopped (some (.storage reportMismatch)) := by
  intro start
  have hqueued := (Queued.empty source).run host.policy requests
  refine ⟨fun hspares => (run_backed host hqueued events hspares).serves, ?_⟩
  intro refusal write row report accepted s hwaiting hflying hrow hid hbest hneeds ⟨db, hwrite⟩ hnew
  have hairborne : Airborne s := (Airborne.start hqueued).run host events
  have hmissing : ¬Stored db report.deliveryId := by
    refine write_sheds hwrite hneeds (fun other hother hsame => ?_) hnew
    rw [hairborne.queued.deliveryId_inj hother hrow (hsame.trans hid.symm)]
    exact hbest
  have hstep : (s.step host (.traffic (.write refusal write))).db = db := by
    simp only [System.step, Database.step, Traffic.request, Database.handle, hwrite]
  obtain ⟨resolution, hrun⟩ := run_report (s := s.step host (.traffic (.write refusal write))) host hwaiting hflying
    accepted
  have herror := recordAttempt_of_missing (encodeAttempt host report resolution) hmissing
  rw [hstep, herror] at hrun
  exact congrArg (·.worker.phase) hrun

end Survival

section Sample

def sampleHost : Host where
  policy := ⟨120, 0, by decide, by decide⟩
  destination := ⟨"mqtt", 1⟩
  options := {
    pageLimit := 8
    durable := ⟨.namedPeerAcknowledgement, 1000000000, 60000000000, by decide, by decide⟩
    replaceableLatestState := ⟨.localExposure, 1000000000, 60000000000, by decide, by decide⟩ }
  encodeOutcome := fun _ => "{}"

def telemetry : EncodedDelivery where
  targetInstanceId := "mqtt"
  targetRevision := 1
  eventId := "event"
  deliveryId := "telemetry"
  orderingKey := "station"
  deadline := sampleInstant 900000
  durability := .bestEffortTelemetry
  payload := ""

def telemetryWrite : Traffic := .write none ⟨.routine, [], [telemetry], []⟩

def criticalWrite : Traffic := .write none ⟨.routine, [⟨"critical", "station", 1, "", 0⟩], [], []⟩

def flight (others : List Event) : System :=
  (System.start ((Database.empty sampleSource).run sampleHost.policy [])).run sampleHost
    ([.traffic telemetryWrite, .tick (sampleInstant 0), .proceed true, .proceed true, .proceed true, .proceed true] ++
      others ++ [.report ⟨"telemetry", .locallyExposed "local", sampleInstant 1000⟩, .proceed true])

theorem flight_shed : (flight [.traffic criticalWrite]).worker = ⟨[], .stopped (some (.storage reportMismatch))⟩ ∧
    (flight []).worker = ⟨[], .waiting⟩ := by
  decide +kernel

def calmFlight : List Event :=
  [.traffic telemetryWrite, .tick (sampleInstant 0), .proceed true, .proceed true, .proceed true,
    .traffic (.maintain 0), .proceed true]

theorem calmFlight_survives :
    ((System.start ((Database.empty sampleSource).run sampleHost.policy [])).run sampleHost
      (calmFlight ++ [.report ⟨"telemetry", .locallyExposed "local", sampleInstant 1000⟩, .proceed true])).worker =
        ⟨[], .waiting⟩ := by
  have hserves := (run_survives sampleHost sampleSource [] calmFlight).1 ?_
  · have hreport := (hserves.report (by decide +kernel) ⟨"telemetry", .locallyExposed "local", sampleInstant 1000⟩
      (by decide +kernel) true).1
    rw [System.run, List.foldl_append]
    refine hreport.trans ?_
    decide +kernel
  rintro before traffic ⟨rest, hrest⟩
  match before, hrest with
  | [], hrest =>
      cases hrest
      exact fun _ row hrow => nomatch hrow
  | [_], hrest | [_, _], hrest | [_, _, _], hrest | [_, _, _, _], hrest => cases hrest
  | [_, _, _, _, _], hrest =>
      cases hrest
      exact trivial
  | [_, _, _, _, _, _], hrest => cases hrest
  | _ :: _ :: _ :: _ :: _ :: _ :: _ :: before, hrest => simp [calmFlight] at hrest

def pairWrite : Op :=
  .request (.write none ⟨.routine, [], [{ telemetry with deliveryId := "first", eventId := "e1" },
    { telemetry with deliveryId := "second", eventId := "e2" }], []⟩)

def pairRow (serial : Nat) (deliveryId eventId : String) : DeliveryRow :=
  { telemetry with deliveryId, eventId, rowId := serial + 1, attemptCount := 0, nextAttemptAt := none, serial }

def finalAttempt (deliveryId : String) : EncodedDeliveryAttempt := ⟨deliveryId, "{}", sampleInstant 0, .final, 0⟩

def finish (deliveryId : String) : Op := .request (.recordAttempt (finalAttempt deliveryId))

def readPair : Op := .read ⟨"mqtt", 1⟩ (sampleInstant 0) 8

/-- A report on a delivery that no read has returned ends it before the older one of its lane. -/
theorem unasked_out_of_order :
    Finalizes samplePolicy sampleSource [pairWrite, finish "second", finish "first"] [pairWrite]
        (pairRow 1 "second" "e2") ∧
      Finalizes samplePolicy sampleSource [pairWrite, finish "second", finish "first"] [pairWrite, finish "second"]
        (pairRow 0 "first" "e1") ∧
      (pairRow 0 "first" "e1").lane = (pairRow 1 "second" "e2").lane := by
  refine ⟨⟨by decide +kernel, finalAttempt "second", rfl, rfl, ⟨_, rfl⟩⟩,
    ⟨by decide +kernel, finalAttempt "first", rfl, rfl, ⟨_, rfl⟩⟩, rfl⟩

def askedOps : List Op := [pairWrite, readPair, finish "first", readPair, finish "second"]

theorem asked_in_order : [pairWrite, readPair].length < [pairWrite, readPair, finish "first", readPair].length := by
  have hasked : Asked samplePolicy sampleSource askedOps := by
    rintro before attempt ⟨rest, hrest⟩
    match before, hrest with
    | [], hrest | [_], hrest | [_, _, _], hrest => cases hrest
    | [_, _], hrest =>
        cases hrest
        decide +kernel
    | [_, _, _, _], hrest =>
        cases hrest
        decide +kernel
    | _ :: _ :: _ :: _ :: _ :: before, hrest => simp [askedOps] at hrest
  have hsecond : Finalizes samplePolicy sampleSource askedOps [pairWrite, readPair, finish "first", readPair]
      (pairRow 1 "second" "e2") := ⟨by decide +kernel, finalAttempt "second", rfl, rfl, ⟨[], rfl⟩⟩
  have hfirst : Finalizes samplePolicy sampleSource askedOps [pairWrite, readPair] (pairRow 0 "first" "e1") :=
    ⟨by decide +kernel, finalAttempt "first", rfl, rfl, ⟨_, rfl⟩⟩
  have hall := (run_in_order samplePolicy sampleSource).2.1 askedOps hasked _ _ hsecond
  exact hall.2 _ _ hfirst rfl (by decide)

end Sample

end OcppBridge.Outbox
