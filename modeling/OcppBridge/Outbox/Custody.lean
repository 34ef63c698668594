import OcppBridge.Outbox.Disposition
import OcppBridge.Outbox.Journal
import OcppBridge.Outbox.Schedule

namespace OcppBridge.Outbox

open Storage Transaction Transition DeliveryRow
open Operational (UtcTimestamp)

variable {policy : RetentionPolicy} {db db' db'' : Database} {row : DeliveryRow}

def attemptsOn (db : Database) (deliveryId : String) : List AttemptRow :=
  db.attempts.filter (·.deliveryId = deliveryId)

/-- The row is still pending, after retries at these instants; all of them are on record, and nothing that the delivery
needs has been pruned. -/
structure Kept (db db' : Database) (row : DeliveryRow) (instants : List Stamp) : Prop where
  pending : instants.foldl retry row ∈ db'.deliveries
  attempts : ∃ new, attemptsOn db' row.deliveryId = attemptsOn db row.deliveryId ++ new ∧
    new.map (·.resolution) = instants.map .retryAt
  event : ∀ event ∈ db.events, event.eventId = row.eventId → event ∈ db'.events

inductive Released (db db' : Database) (row : DeliveryRow) : Request → Prop
  | final (attempt : EncodedDeliveryAttempt) (hid : attempt.deliveryId = row.deliveryId)
      (hfinal : attempt.resolution = .final) (hrecorded : attempt.row ∈ db'.attempts) :
      Released db db' row (.recordAttempt attempt)
  | disposed (selected : Option TargetDeliveryDestination) (settledAt : UtcTimestamp)
      (record : DeliveryDispositionRecord) (hrecord : record ∈ db.dispositions) (hstate : record.state = .authorized)
      (hdestination : record.destination = row.destination) (hselected : selected ≠ some row.destination)
      (harchive : record.action = .archive → ∃ copy ∈ db'.archive,
        (copy.auditEventId, copy.delivery, copy.attemptCount) =
          (record.auditEventId, row.toEncodedDelivery, row.attemptCount)) :
      Released db db' row (.settle selected settledAt)

theorem toEncodedDelivery_retried (instants : List Stamp) (row : DeliveryRow) :
    (instants.foldl retry row).toEncodedDelivery = row.toEncodedDelivery := by
  induction instants generalizing row with
  | nil => rfl
  | cons instant instants ih => exact ih (row.retry instant)

namespace Kept

theorem of_frame (hrow : row ∈ db'.deliveries) (hattempts : db'.attempts = db.attempts)
    (hevents : ∀ event ∈ db.events, event ∈ db'.events) : Kept db db' row [] :=
  ⟨hrow, ⟨[], by rw [attemptsOn, hattempts, List.append_nil, attemptsOn], rfl⟩,
    fun event hevent _ => hevents event hevent⟩

theorem trans {instants later : List Stamp} (h : Kept db db' row instants)
    (h' : Kept db' db'' (instants.foldl retry row) later) : Kept db db'' row (instants ++ later) := by
  have hsame := toEncodedDelivery_retried instants row
  have hid : (instants.foldl retry row).deliveryId = row.deliveryId := congrArg (·.deliveryId) hsame
  have hevent : (instants.foldl retry row).eventId = row.eventId := congrArg (·.eventId) hsame
  obtain ⟨new, hnew, hretries⟩ := h.attempts
  obtain ⟨more, hmore, hlater⟩ := h'.attempts
  rw [hid] at hmore
  refine ⟨by simpa using h'.pending, ⟨new ++ more, ?_, ?_⟩, fun event he hof => ?_⟩
  · rw [hmore, hnew, List.append_assoc]
  · rw [List.map_append, List.map_append, hretries, hlater]
  · exact h'.event event (h.event event he hof) (hof.trans hevent.symm)

theorem write {refusal : Option StorageError} {write : EncodedWrite} (hrow : row ∈ db.deliveries)
    (hcritical : row.durability = .critical) (h : db.write policy refusal write = .ok db') : Kept db db' row [] := by
  obtain ⟨mid, kept, hprepare, hinsert⟩ := write_eq_ok h
  obtain ⟨base, stats, _, _, hbase, rfl, _⟩ := prepareWrite_eq_ok hprepare
  obtain ⟨⟨events, hevents, _⟩, ⟨deliveries, hdeliveries, _⟩, _, hattempts, _, _, _⟩ := insertRows_inserted hinsert
  -- Shedding takes best-effort telemetry only.
  rcases hbase with ⟨rfl, -⟩ | ⟨rfl, -⟩
  · exact .of_frame (hdeliveries ▸ List.mem_append_left _ hrow) hattempts
      fun event hevent => hevents ▸ List.mem_append_left _ hevent
  · have hshed : row ∈ (shedExistingBestEffort db).deliveries := by
      simp [shedExistingBestEffort, hrow, hcritical]
    exact .of_frame (hdeliveries ▸ List.mem_append_left _ hshed) hattempts
      fun event hevent => hevents ▸ List.mem_append_left _ hevent

theorem maintain (hrow : row ∈ db.deliveries) (now : Int) : Kept db (maintain db now) row [] := by
  have hreferred : db.deliveries.all (·.eventId ≠ row.eventId) = false :=
    List.all_eq_false.mpr ⟨row, hrow, by simp⟩
  have hattempted : db.deliveries.all (·.deliveryId ≠ row.deliveryId) = false :=
    List.all_eq_false.mpr ⟨row, hrow, by simp⟩
  refine ⟨hrow, ⟨[], ?_, rfl⟩, fun event hevent hof => ?_⟩
  · rw [List.append_nil, attemptsOn, Outbox.maintain, attemptsOn, List.filter_filter]
    refine List.filter_congr fun attempt _ => ?_
    by_cases hid : attempt.deliveryId = row.deliveryId
    · simp only [hid, hattempted, Bool.and_false, Bool.not_false, Bool.and_true]
    · simp only [hid, decide_false, Bool.false_and]
  · refine List.mem_filter.mpr ⟨hevent, ?_⟩
    simp only [hof, hreferred, Bool.and_false, Bool.not_false]

end Kept

theorem recordAttempt_custody {attempt : EncodedDeliveryAttempt} (hrow : row ∈ db.deliveries)
    (h : recordAttempt db attempt = .ok db') :
    (∃ instants, Kept db db' row instants) ∨ Released db db' row (.recordAttempt attempt) := by
  by_cases hid : attempt.deliveryId = row.deliveryId
  · obtain ⟨_, ⟨hfinal, rfl⟩ | ⟨instant, hretry, rfl⟩⟩ := recordAttempt_eq_ok h
    · exact .inr (.final attempt hid hfinal (List.mem_append_right _ List.mem_cons_self))
    · refine .inl ⟨[instant], List.mem_map.mpr ⟨row, hrow, if_pos hid.symm⟩, ⟨[attempt.row], ?_, ?_⟩, fun _ he _ => he⟩
      · simp [attemptsOn, EncodedDeliveryAttempt.row, hid]
      · simp [EncodedDeliveryAttempt.row, hretry]
  · have hsame : (db.attempts ++ [attempt.row]).filter (·.deliveryId = row.deliveryId) =
        attemptsOn db row.deliveryId ++ [] := by
      simp [attemptsOn, EncodedDeliveryAttempt.row, hid]
    obtain ⟨_, ⟨_, rfl⟩ | ⟨instant, _, rfl⟩⟩ := recordAttempt_eq_ok h
    · refine .inl ⟨[], List.mem_filter.mpr ⟨hrow, ?_⟩, ⟨[], hsame, rfl⟩, fun _ he _ => he⟩
      exact decide_eq_true (Ne.symm hid)
    · exact .inl ⟨[], List.mem_map.mpr ⟨row, hrow, if_neg (Ne.symm hid)⟩, ⟨[], hsame, rfl⟩, fun _ he _ => he⟩

theorem settle_custody (hdisposed : Disposed db) {selected : Option TargetDeliveryDestination}
    {settledAt : UtcTimestamp} {result : Database × List DeliveryDispositionRecord} (hrow : row ∈ db.deliveries)
    (h : settle db selected settledAt = .ok result) :
    (∃ instants, Kept db result.1 row instants) ∨ Released db result.1 row (.settle selected settledAt) := by
  obtain ⟨now, _, rfl⟩ := hdisposed.settle selected h
  cases hremoves : removes selected (unsettled db) row with
  | false => exact .inl ⟨[], .of_frame (List.mem_filter.mpr ⟨hrow, by simp [hremoves]⟩) rfl fun _ he => he⟩
  | true =>
      obtain ⟨record, hunsettled, hof⟩ := List.any_eq_true.mp hremoves
      obtain ⟨hrecord, hstate⟩ := mem_unsettled.mp hunsettled
      simp only [Bool.and_eq_true, decide_eq_true_eq] at hof
      obtain ⟨hdestination, hselected⟩ := hof
      refine .inr (.disposed selected settledAt record hrecord hstate hdestination (hdestination ▸ hselected) ?_)
      intro haction
      refine ⟨⟨record.auditEventId, row.toEncodedDelivery, row.attemptCount, now⟩, ?_, rfl⟩
      refine List.mem_append_right _ (List.mem_flatMap.mpr ⟨record, hunsettled, ?_⟩)
      rw [if_neg hselected, archived, haction]
      exact List.mem_map.mpr ⟨row, by simp [pendingFor, hrow, hdestination], rfl⟩

theorem step_custody (hdisposed : Disposed db) (hrow : row ∈ db.deliveries) (hcritical : row.durability = .critical)
    (request : Request) :
    (∃ instants, Kept db (db.step policy request) row instants) ∨ Released db (db.step policy request) row request := by
  unfold Database.step
  split
  · next db' h =>
      cases request with
      | write refusal write => exact .inl ⟨[], .write hrow hcritical h⟩
      | maintain now =>
          cases h
          exact .inl ⟨[], .maintain hrow now⟩
      | recordAttempt attempt => exact recordAttempt_custody hrow h
      | authorize auditEventId request =>
          obtain ⟨⟨_, record⟩, hauthorize, rfl⟩ := map_eq_ok.mp h
          obtain ⟨-, -, -, -, -, -, -, -, rfl⟩ := authorize_eq_ok hauthorize
          exact .inl ⟨[], .of_frame hrow rfl fun _ he => he⟩
      | settle selected settledAt =>
          obtain ⟨result, hsettle, rfl⟩ := map_eq_ok.mp h
          exact settle_custody hdisposed hrow hsettle
  · exact .inl ⟨[], .of_frame hrow rfl fun _ he => he⟩

theorem run_archive (hdisposed : Disposed db) (requests : List Request) {copy : ArchivedDelivery}
    (hcopy : copy ∈ db.archive) : copy ∈ (db.run policy requests).archive := by
  refine (run_invariant (P := fun db => Disposed db ∧ copy ∈ db.archive) ?_ requests ⟨hdisposed, hcopy⟩).2
  rintro db request ⟨hdisposed, hcopy⟩
  refine ⟨hdisposed.step policy request, ?_⟩
  cases step_disposes policy hdisposed request with
  | nothing _ harchive => exact harchive ▸ hcopy
  | authorized hauthorize =>
      obtain ⟨-, -, -, -, -, -, -, -, heq⟩ := authorize_eq_ok hauthorize
      exact heq ▸ hcopy
  | settled selected now heq => exact heq ▸ List.mem_append_left _ hcopy

/-- What has become of a row that was pending in `start`. -/
def InCustody (policy : RetentionPolicy) (start : Database) (after : List Request) (row : DeliveryRow) : Prop :=
  (∃ instants, Kept start (start.run policy after) row instants) ∨
    ∃ earlier request later instants, after = earlier ++ request :: later ∧
      Kept start (start.run policy earlier) row instants ∧
      Released (start.run policy earlier) (start.run policy (earlier ++ [request]))
        (instants.foldl retry row) request ∧
      ∀ copy ∈ (start.run policy (earlier ++ [request])).archive, copy ∈ (start.run policy after).archive

/-- A critical delivery stays in the outbox until a final report or an authorized disposition takes it out. -/
theorem run_keeps_critical (policy : RetentionPolicy) (source : Export.Source) (before after : List Request)
    (hrow : row ∈ ((Database.empty source).run policy before).deliveries) (hcritical : row.durability = .critical) :
    InCustody policy ((Database.empty source).run policy before) after row := by
  have hreached : ∀ requests, Disposed (((Database.empty source).run policy before).run policy requests) :=
    fun requests => run_invariant (P := Disposed) (fun _ request h => h.step policy request) requests
      (Disposed.run policy source before)
  generalize (Database.empty source).run policy before = start at hrow hreached
  induction after using List.reverseRecOn with
  | nil => exact .inl ⟨[], .of_frame hrow rfl fun _ he => he⟩
  | append_singleton after request ih =>
      rcases ih with ⟨instants, hkept⟩ | ⟨earlier, released, later, instants, rfl, hkept, hreleased, harchive⟩
      · have hcritical : (instants.foldl retry row).durability = .critical :=
          (congrArg (·.durability) (toEncodedDelivery_retried instants row)).trans hcritical
        rcases step_custody (hreached after) hkept.pending hcritical request with ⟨more, hstep⟩ | hreleased
        · exact .inl ⟨instants ++ more, run_concat policy start after request ▸ hkept.trans hstep⟩
        · exact .inr ⟨after, request, [], instants, rfl, hkept, run_concat policy start after request ▸ hreleased,
            fun _ hcopy => hcopy⟩
      · refine .inr ⟨earlier, released, later ++ [request], instants, by simp, hkept, hreleased, fun copy hcopy => ?_⟩
        rw [Database.run, List.foldl_append]
        exact run_archive (hreached _) [request] (harchive copy hcopy)

theorem retried_kept_critical :
    InCustody samplePolicy (retried (sampleInstant 1500))
      [.maintain 5, .recordAttempt ⟨"delivery", "\"gone\"", sampleInstant 9, .final, 0⟩]
        (retriedRow (sampleInstant 1500)) :=
  run_keeps_critical samplePolicy sampleSource (retryRequests (sampleInstant 1500)) _ (by decide +kernel) rfl

end OcppBridge.Outbox
