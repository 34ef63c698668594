import OcppBridge.Outbox.Queue

namespace OcppBridge.Outbox

open Relation Storage Transaction Transition

variable {policy : RetentionPolicy} {source : Export.Source} {db db' : Database} {row : DeliveryRow}

section Flow

/-- A delivery row is the one that another stands for, whatever attempts have been recorded on it. -/
structure SameDelivery (old row : DeliveryRow) : Prop where
  serial : old.serial = row.serial
  deliveryId : old.deliveryId = row.deliveryId
  lane : old.lane = row.lane

structure Flows (db db' : Database) : Prop where
  rows : ∀ row ∈ db'.deliveries, (∃ old ∈ db.deliveries, SameDelivery old row) ∨ db.inserted ≤ row.serial
  inserted : db.inserted ≤ db'.inserted

namespace Flows

theorem subset (hdeliveries : ∀ row ∈ db'.deliveries, row ∈ db.deliveries) (hinserted : db'.inserted = db.inserted) :
    Flows db db' :=
  ⟨fun row hrow => .inl ⟨row, hdeliveries row hrow, rfl, rfl, rfl⟩, hinserted.ge⟩

theorem refl (db : Database) : Flows db db := .subset (fun _ hrow => hrow) rfl

theorem trans {db'' : Database} (h : Flows db db') (h' : Flows db' db'') : Flows db db'' := by
  refine ⟨fun row hrow => ?_, h.inserted.trans h'.inserted⟩
  rcases h'.rows row hrow with ⟨mid, hmid, hsame'⟩ | hnew
  · rcases h.rows mid hmid with ⟨old, hold, hsame⟩ | hnew
    · exact .inl ⟨old, hold, hsame.serial.trans hsame'.serial, hsame.deliveryId.trans hsame'.deliveryId,
        hsame.lane.trans hsame'.lane⟩
    · exact .inr (hsame'.serial ▸ hnew)
  · exact .inr (h.inserted.trans hnew)

theorem insert {value : EncodedDelivery} (h : writeDelivery db value = .ok db') : Flows db db' := by
  obtain ⟨_, rfl⟩ := writeDelivery_eq_ok h
  refine ⟨fun row hrow => ?_, Nat.le_succ _⟩
  rcases List.mem_append.mp hrow with hrow | hrow
  · exact .inl ⟨row, hrow, rfl, rfl, rfl⟩
  · rw [List.mem_singleton.mp hrow]
    exact .inr le_rfl

theorem attempt {attempt : EncodedDeliveryAttempt} (h : recordAttempt db attempt = .ok db') : Flows db db' := by
  obtain ⟨_, ⟨_, rfl⟩ | ⟨instant, _, rfl⟩⟩ := recordAttempt_eq_ok h
  · exact .subset (fun row hrow => List.mem_of_mem_filter hrow) rfl
  · refine ⟨fun row hrow => ?_, le_rfl⟩
    obtain ⟨old, hold, rfl⟩ := List.mem_map.mp hrow
    refine .inl ⟨old, hold, ?_⟩
    split_ifs
    · exact ⟨rfl, rfl, rfl⟩
    · exact ⟨rfl, rfl, rfl⟩

theorem of_change (h : Change db db') : Flows db db' := by
  cases h with
  | counted | exported | disposed => exact .subset (fun _ hrow => hrow) rfl
  | shed | execute => exact .subset (fun _ hrow => List.mem_of_mem_filter hrow) rfl
  | delivery hwrite => exact .insert hwrite
  | attempt hattempt => exact .attempt hattempt
  | event hwrite =>
      obtain ⟨_, _, rfl⟩ := writeEvent_eq_ok hwrite
      exact .subset (fun _ hrow => hrow) rfl

theorem step (policy : RetentionPolicy) (db : Database) (request : Request) : Flows db (db.step policy request) := by
  rcases step_changes policy db request with hchanges | ⟨now, -, hmaintained⟩
  · exact steps_rel Flows.refl Flows.trans of_change hchanges
  · exact hmaintained ▸ .subset (fun _ hrow => hrow) rfl

end Flows

end Flow

def Leads (db : Database) (serial : Nat) (lane : String × Nat × String) : Prop :=
  ∀ other ∈ db.deliveries, other.lane = lane → serial ≤ other.serial

theorem Leads.flow {serial : Nat} {lane : String × Nat × String} (h : Leads db serial lane) (hflow : Flows db db')
    (hissued : serial < db.inserted) : Leads db' serial lane := by
  intro other hother hlane
  rcases hflow.rows other hother with ⟨old, hold, hsame⟩ | hnew
  · exact hsame.serial ▸ h old hold (hsame.lane.trans hlane)
  · exact hissued.le.trans hnew

namespace Queued

variable (h : Queued db)

include h

theorem trichotomy {a b : DeliveryRow} (ha : a ∈ db.deliveries) (hb : b ∈ db.deliveries) :
    a = b ∨ Older a b ∨ Older b a := by
  have hforth : db.deliveries.Pairwise fun a b => a = b ∨ Older a b ∨ Older b a :=
    h.sorted.imp fun {a b} hab => .inr (.inl hab)
  refine hforth.forall_of_forall_of_flip (fun a _ => .inl rfl) ?_ ha hb
  exact h.sorted.imp fun {a b} hab => .inr (.inr hab)

theorem serial_inj {a b : DeliveryRow} (ha : a ∈ db.deliveries) (hb : b ∈ db.deliveries)
    (heq : a.serial = b.serial) : a = b := by
  rcases h.trichotomy ha hb with rfl | hab | hba
  · rfl
  · exact absurd heq hab.serial.ne
  · exact absurd heq.symm hba.serial.ne

theorem deliveryId_inj {a b : DeliveryRow} (ha : a ∈ db.deliveries) (hb : b ∈ db.deliveries)
    (heq : a.deliveryId = b.deliveryId) : a = b := by
  rcases h.trichotomy ha hb with rfl | hab | hba
  · rfl
  · exact absurd heq hab.deliveryId
  · exact absurd heq.symm hba.deliveryId

theorem leads_of_isHead (hrow : row ∈ db.deliveries) (hhead : isHead db.deliveries row) :
    Leads db row.serial row.lane := by
  intro other hother hlane
  rcases h.trichotomy hother hrow with rfl | hold | hyoung
  · exact le_rfl
  · have hnot := List.all_eq_true.mp hhead other hother
    simp [hlane, hold.rowId] at hnot
  · exact hyoung.serial.le

theorem readPending_leads {destination : TargetDeliveryDestination} {readyAt : Stamp} {limit : Nat}
    {rows : List DeliveryRow} (hread : readPending db destination readyAt limit = .ok rows) :
    rows.Pairwise (fun a b => Older a b ∧ a.lane ≠ b.lane) ∧
      ∀ row ∈ rows, row ∈ db.deliveries ∧ Leads db row.serial row.lane := by
  obtain ⟨rfl, _⟩ := h.readPending_eq_ok.mp hread
  have hsub : ∀ row ∈ (readyHeads db destination readyAt).take limit,
      row ∈ db.deliveries ∧ Leads db row.serial row.lane := by
    intro row hrow
    obtain ⟨hrow, hready⟩ := List.mem_filter.mp (List.mem_of_mem_take hrow)
    rw [Bool.and_eq_true] at hready
    exact ⟨hrow, h.leads_of_isHead hrow hready.2⟩
  have hsorted : ((readyHeads db destination readyAt).take limit).Pairwise Older :=
    (h.sorted.filter _).sublist (List.take_sublist _ _)
  refine ⟨hsorted.imp_of_mem fun {a b} ha hb hab => ⟨hab, fun hlane => ?_⟩, hsub⟩
  have hle := (hsub b hb).2 a (hsub a ha).1 hlane
  exact absurd hab.serial (Nat.not_lt.mpr hle)

end Queued

section Reading

/-- The operations on the outbox, the reads of pending work among them. -/
inductive Op
  | request (request : Request)
  | read (destination : TargetDeliveryDestination) (readyAt : Stamp) (limit : Nat)

structure Watched where
  db : Database
  answered : List Nat

open Watched

def Watched.step (policy : RetentionPolicy) (w : Watched) : Op → Watched
  | .request request => { w with db := w.db.step policy request }
  | .read destination readyAt limit =>
      match readPending w.db destination readyAt limit with
      | .ok rows => { w with answered := w.answered ++ rows.map (·.serial) }
      | .error _ => w

def Watched.run (policy : RetentionPolicy) (source : Export.Source) (ops : List Op) : Watched :=
  ops.foldl (step policy) ⟨.empty source, []⟩

theorem Watched.run_append (policy : RetentionPolicy) (source : Export.Source) (before after : List Op) :
    run policy source (before ++ after) = after.foldl (step policy) (run policy source before) :=
  List.foldl_append

structure Watched.Sound (w : Watched) : Prop where
  queued : Queued w.db
  issued : ∀ serial ∈ w.answered, serial < w.db.inserted
  leads : ∀ row ∈ w.db.deliveries, row.serial ∈ w.answered → Leads w.db row.serial row.lane

section

variable (policy : RetentionPolicy)

theorem Watched.step_flows (w : Watched) (op : Op) : Flows w.db (w.step policy op).db := by
  cases op with
  | request request => exact Flows.step policy w.db request
  | read destination readyAt limit =>
      simp only [step]
      split
      · exact .refl _
      · exact .refl _

theorem Queued.step (h : Queued db) (request : Request) : Queued (db.step policy request) :=
  h.run policy [request]

theorem Watched.Sound.step {w : Watched} (h : w.Sound) (op : Op) : (w.step policy op).Sound := by
  cases op with
  | request request =>
      have hflow := Flows.step policy w.db request
      refine ⟨h.queued.step policy request, fun serial hserial => (h.issued serial hserial).trans_le hflow.inserted,
        fun row hrow hanswered => ?_⟩
      have hissued := h.issued row.serial hanswered
      rcases hflow.rows row hrow with ⟨old, hold, hsame⟩ | hnew
      · have hleads := h.leads old hold (hsame.serial ▸ hanswered)
        rw [hsame.serial, hsame.lane] at hleads
        exact hleads.flow hflow hissued
      · omega
  | read destination readyAt limit =>
      simp only [Watched.step]
      split
      · next rows hread =>
          obtain ⟨_, hrows⟩ := h.queued.readPending_leads hread
          refine ⟨h.queued, fun serial hserial => ?_, fun row hrow hanswered => ?_⟩
          · rcases List.mem_append.mp hserial with hserial | hserial
            · exact h.issued serial hserial
            · obtain ⟨read, hmem, rfl⟩ := List.mem_map.mp hserial
              exact h.queued.issued read (hrows read hmem).1
          · rcases List.mem_append.mp hanswered with hanswered | hanswered
            · exact h.leads row hrow hanswered
            · obtain ⟨read, hmem, heq⟩ := List.mem_map.mp hanswered
              cases h.queued.serial_inj (hrows read hmem).1 hrow heq
              exact (hrows row hmem).2
      · exact h

theorem Watched.Sound.run (source : Export.Source) (ops : List Op) :
    (run policy source ops).Sound :=
  run_invariant (P := Sound) (fun _ op h => h.step policy op) ops
    ⟨.empty source, by simp, by simp [Database.empty]⟩

theorem Watched.flows_of_isPrefix (source : Export.Source) {before ops : List Op}
    (h : before <+: ops) : Flows (run policy source before).db (run policy source ops).db := by
  obtain ⟨after, rfl⟩ := h
  rw [run_append]
  exact run_invariant (P := fun w => Flows (run policy source before).db w.db)
    (fun w op hw => hw.trans (step_flows policy w op)) after (.refl _)

end

def Asked (policy : RetentionPolicy) (source : Export.Source) (ops : List Op) : Prop :=
  ∀ before attempt, before ++ [.request (.recordAttempt attempt)] <+: ops →
    ∀ row ∈ (run policy source before).db.deliveries, row.deliveryId = attempt.deliveryId →
      row.serial ∈ (run policy source before).answered

/-- After these operations, an attempt of the run ends the delivery. -/
structure Finalizes (policy : RetentionPolicy) (source : Export.Source) (ops before : List Op) (row : DeliveryRow) :
    Prop where
  stored : row ∈ (run policy source before).db.deliveries
  ends : ∃ attempt, attempt.deliveryId = row.deliveryId ∧ attempt.resolution = .final ∧
    before ++ [.request (.recordAttempt attempt)] <+: ops

theorem Finalizes.leads {ops before : List Op} (h : Finalizes policy source ops before row)
    (hasked : Asked policy source ops) : Leads (run policy source before).db row.serial row.lane := by
  obtain ⟨attempt, hid, _, hfront⟩ := h.ends
  have hanswered := hasked before attempt hfront row h.stored hid.symm
  exact (Sound.run policy source before).leads row h.stored hanswered

theorem Finalizes.lt_length {ops before before' : List Op} {row' : DeliveryRow}
    (h : Finalizes policy source ops before row) (h' : Finalizes policy source ops before' row')
    (hasked : Asked policy source ops) (hlane : row'.lane = row.lane) (hserial : row'.serial < row.serial) :
    before'.length < before.length := by
  by_contra hlength
  have hleads := h.leads hasked
  obtain ⟨attempt, _, _, hfront⟩ := h.ends
  obtain ⟨attempt', _, _, hfront'⟩ := h'.ends
  have hbefore : before <+: before' := by
    have hops := (List.prefix_append before _).trans hfront
    have hops' := (List.prefix_append before' _).trans hfront'
    exact List.prefix_of_prefix_length_le hops hops' (Nat.not_lt.mp hlength)
  -- The older delivery was stored all the time, so it would have kept the other one from being read.
  rcases (flows_of_isPrefix policy source hbefore).rows row' h'.stored with ⟨old, hold, hsame⟩ | hnew
  · have hle := hleads old hold (hsame.lane.trans hlane)
    have heq := hsame.serial
    omega
  · have hissued := (Sound.run policy source before).queued.issued row h.stored
    omega

end Reading

end OcppBridge.Outbox
