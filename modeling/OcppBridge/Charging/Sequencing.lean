import OcppBridge.Charging.Events201
import OcppBridge.Transition
import Mathlib.Data.List.Nodup

namespace OcppBridge.Charging

open FirstMatch Operational Transaction Transition TransactionEventObservation

variable {s s' : StationSnapshot} {o : TransactionEventObservation} {now : UtcTimestamp} {a : Admission} {id : String}

section Inversion

theorem saturatingSucc_toNat {n m : UInt32} (h : m = saturatingSucc n) (hne : m ≠ n) : m.toNat = n.toNat + 1 := by
  unfold saturatingSucc at h
  split_ifs at h with hlt
  · rw [h, UInt32.toNat_add]
    exact Nat.mod_eq_of_lt hlt
  · exact absurd h hne

theorem applyMeasurements_transactions (s : StationSnapshot) (m : MeasurementObservation) (now : UtcTimestamp) :
    (applyMeasurements s m now).2.transactions = s.transactions := by
  unfold applyMeasurements
  split_ifs <;> rfl

theorem applyMeasurements_error {m : MeasurementObservation} {e : MeasurementApplyError}
    (h : (applyMeasurements s m now).1 = .error e) : (applyMeasurements s m now).2 = s := by
  unfold applyMeasurements at h ⊢
  split_ifs at h ⊢
  rfl

theorem applyTransactionEvent_cases (s : StationSnapshot) (o : TransactionEventObservation) (now : UtcTimestamp) :
    ((applyTransactionEvent s o now).2 = s ∧ (applyTransactionEvent s o now).1 ≠ .ok .applied) ∨
      (applyTransactionEvent s o now).1 = .ok .applied ∧ ∃ a, checkEvent s o now = .ok (some a) ∧
        (applyTransactionEvent s o now).2.transactions = ((putTransaction a o s.transactions).filter fun t =>
          t.native201 = some o.nativeTransactionId || !expiredEnded t a.floor) ∧
        persistedFloor ocpp201ReplayFloor (applyTransactionEvent s o now).2.currentValues = some a.floor := by
  unfold applyTransactionEvent
  split
  · exact .inl ⟨rfl, nofun⟩
  · exact .inl ⟨rfl, nofun⟩
  · next a hcheck =>
      split
      · exact .inr ⟨rfl, a, hcheck, rfl, persistedFloor_set ..⟩
      · next m hm =>
          have htransactions := applyMeasurements_transactions s m now
          split
          · next hresult =>
              have hsame : (applyMeasurements s m now).2 = s := applyMeasurements_error (by rw [hresult])
              rw [hresult] at hsame
              exact .inl ⟨hsame, nofun⟩
          · next hresult =>
              rw [hresult] at htransactions
              exact .inr ⟨rfl, a, hcheck, htransactions ▸ rfl, persistedFloor_set ..⟩

theorem concerns_iff (hprotocol : o.protocol = .ocpp201) (t : TransactionSnapshot) :
    o.concerns t ↔ t.native201 = some o.nativeTransactionId := by
  cases ht : t.protocolState with
  | none => simp [concerns, TransactionSnapshot.native201, ht]
  | some state =>
      by_cases hstate : state.protocol = .ocpp201
      · simp [concerns, TransactionSnapshot.native201, ht, hprotocol, hstate]
      · simp [concerns, TransactionSnapshot.native201, ht, hprotocol, hstate, Option.filter]

structure Admitted (s : StationSnapshot) (o : TransactionEventObservation) (now : UtcTimestamp)
    (a : Admission) : Prop where
  protocol : o.protocol = .ocpp201
  current : s.transactions.find? o.concerns = a.current
  lifecycle : checkTransactionLifecycle a.current o = .ok none
  floor : a.floor = replayFloor ocpp201ReplayFloor s.currentValues now
  fresh : a.current = none → a.floor < unixTimestamp o.occurredAt
  room : (s.transactions.filter fun t => !expiredEnded t a.floor).length +
    a.current.isNone.toNat ≤ maxSnapshotTransactions

theorem checkEvent_admitted (h : checkEvent s o now = .ok (some a)) : Admitted s o now a := by
  simp only [checkEvent, bind_eq_ok, require_eq_ok] at h
  obtain ⟨_, hprotocol, _, _, resource, _, outcome, hlifecycle, h⟩ := h
  cases outcome with
  | some _ => cases h
  | none =>
      simp only [bind_eq_ok, require_eq_ok, pure_eq_ok, Option.some.injEq] at h
      obtain ⟨_, hfresh, _, hroom, rfl⟩ := h
      exact ⟨hprotocol, rfl, hlifecycle, rfl, hfresh, hroom⟩

theorem lifecycle_some {t : TransactionSnapshot} (h : checkTransactionLifecycle (some t) o = .ok none) :
    ∃ state, t.protocolState = some state ∧ o.sequenceNumber.toNat = state.lastSequenceNumber.toNat + 1 ∧
      t.state ≠ .ended ∧ o.event ≠ .started := by
  simp only [checkTransactionLifecycle] at h
  split at h
  · cases h
  · next state hstate =>
      simp only [checkKnown, bind_eq_ok, require_eq_ok] at h
      obtain ⟨_, _, h⟩ := h
      split_ifs at h with hsame
      · simp only [bind_eq_ok, pure_eq_ok] at h
        obtain ⟨_, _, hnone⟩ := h
        cases hnone
      · simp only [bind_eq_ok, require_eq_ok, pure_eq_ok] at h
        obtain ⟨_, hnext, _, hended, _, hstarted, _⟩ := h
        exact ⟨state, hstate, saturatingSucc_toNat hnext hsame, hended, hstarted⟩

theorem lifecycle_none (h : checkTransactionLifecycle none o = .ok none) : o.event = .started := by
  simp only [checkTransactionLifecycle, bind_eq_ok, require_eq_ok] at h
  obtain ⟨_, hstarted, _⟩ := h
  exact hstarted

end Inversion

section Step

def Unique (s : StationSnapshot) : Prop := (s.transactions.filterMap (·.native201)).Nodup

variable {t : TransactionSnapshot}

theorem Unique.others {before after : List TransactionSnapshot} (h : Unique s)
    (hsplit : s.transactions = before ++ t :: after) (hid : t.native201 = some id) :
    ∀ x ∈ before ++ after, x.native201 ≠ some id := by
  unfold Unique at h
  rw [hsplit, List.filterMap_append, List.filterMap_cons, hid] at h
  have hnodup := List.nodup_middle.mp h
  rw [List.nodup_cons, ← List.filterMap_append] at hnodup
  intro x hx hxid
  exact hnodup.1 (List.mem_filterMap.mpr ⟨x, hx, hxid⟩)

theorem Unique.eq {x y : TransactionSnapshot} (h : Unique s) (hx : x ∈ s.transactions) (hy : y ∈ s.transactions)
    (hxid : x.native201 = some id) (hyid : y.native201 = some id) : x = y := by
  obtain ⟨before, after, hsplit⟩ := List.append_of_mem hx
  have hothers := h.others hsplit hxid
  rw [hsplit, List.mem_append, List.mem_cons] at hy
  rcases hy with hy | rfl | hy
  · exact absurd hyid (hothers y (by simp [hy]))
  · rfl
  · exact absurd hyid (hothers y (by simp [hy]))

/-- The transactions after an applied event: its own transaction, and the others that have not expired. -/
structure Applied (s : StationSnapshot) (o : TransactionEventObservation) (floor : Int) (own : TransactionSnapshot)
    (s' : StationSnapshot) : Prop where
  native : own.native201 = some o.nativeTransactionId
  sequence : ∃ state, own.protocolState = some state ∧ state.lastSequenceNumber = o.sequenceNumber
  ended : own.state = .ended ↔ o.event = .ended
  mem : ∀ t, t ∈ s'.transactions ↔
    t = own ∨ (t ∈ s.transactions ∧ t.native201 ≠ some o.nativeTransactionId ∧ expiredEnded t floor = false)
  unique : Unique s'
  bound : s'.transactions.length ≤ maxSnapshotTransactions
  persisted : persistedFloor ocpp201ReplayFloor s'.currentValues = some floor
  advances : ∀ f, persistedFloor ocpp201ReplayFloor s.currentValues = some f → f ≤ floor

theorem transactionState_ended (o : TransactionEventObservation) : o.transactionState = .ended ↔ o.event = .ended := by
  unfold transactionState
  split_ifs with h
  · simp [h]
  · split <;> simp [h]

theorem native201_protocolState {current : Option TransactionSnapshot} (hprotocol : o.protocol = .ocpp201)
    (h : t.protocolState = some (o.protocolState current)) : t.native201 = some o.nativeTransactionId := by
  simp [TransactionSnapshot.native201, h, protocolState, hprotocol]

def keeps (o : TransactionEventObservation) (floor : Int) (t : TransactionSnapshot) : Bool :=
  t.native201 = some o.nativeTransactionId || !expiredEnded t floor

theorem keeps_other {floor : Int} (h : t.native201 ≠ some o.nativeTransactionId) :
    keeps o floor t = !expiredEnded t floor := by
  simp [keeps, h]

theorem filter_keeps {xs : List TransactionSnapshot} {floor : Int}
    (h : ∀ t ∈ xs, t.native201 ≠ some o.nativeTransactionId) :
    xs.filter (keeps o floor) = xs.filter fun t => !expiredEnded t floor :=
  List.filter_congr fun t ht => keeps_other (h t ht)

theorem Admitted.applied_of_split {own : TransactionSnapshot} {current : Option TransactionSnapshot}
    {before after : List TransactionSnapshot} (ha : Admitted s o now a)
    (hprotocol : own.protocolState = some (o.protocolState current)) (hstate : own.state = o.transactionState)
    (hput : putTransaction a o s.transactions = before ++ own :: after)
    (hothers : ∀ x ∈ before ++ after, x.native201 ≠ some o.nativeTransactionId)
    (hmem : ∀ x, x.native201 ≠ some o.nativeTransactionId → (x ∈ s.transactions ↔ x ∈ before ++ after))
    (hunique : ((before ++ after).filterMap (·.native201)).Nodup)
    (hroom : ((before ++ after).filter fun x => !expiredEnded x a.floor).length < maxSnapshotTransactions)
    (htransactions : s'.transactions = (putTransaction a o s.transactions).filter (keeps o a.floor))
    (hfloor : persistedFloor ocpp201ReplayFloor s'.currentValues = some a.floor) : Applied s o a.floor own s' := by
  have hnative : own.native201 = some o.nativeTransactionId := native201_protocolState ha.protocol hprotocol
  have hkept : s'.transactions = (before.filter fun x => !expiredEnded x a.floor) ++
      own :: after.filter fun x => !expiredEnded x a.floor := by
    rw [htransactions, hput, List.filter_append, List.filter_cons_of_pos (by simp [keeps, hnative]),
      filter_keeps fun x hx => hothers x (List.mem_append_left _ hx),
      filter_keeps fun x hx => hothers x (List.mem_append_right _ hx)]
  refine ⟨hnative, ⟨_, hprotocol, rfl⟩, hstate ▸ transactionState_ended o, fun x => ?_, ?_, ?_, hfloor, fun f hf => ?_⟩
  · have hiff : x ∈ s'.transactions ↔ x = own ∨ x ∈ before ++ after ∧ expiredEnded x a.floor = false := by
      rw [hkept]
      simp only [List.mem_append, List.mem_cons, List.mem_filter, Bool.not_eq_true']
      tauto
    rw [hiff]
    refine or_congr_right ⟨fun ⟨hx, hexpired⟩ => ?_, fun ⟨hx, hid, hexpired⟩ => ⟨(hmem x hid).mp hx, hexpired⟩⟩
    exact ⟨(hmem x (hothers x hx)).mpr hx, hothers x hx, hexpired⟩
  · have hall : ((before ++ own :: after).filterMap (·.native201)).Nodup := by
      rw [List.filterMap_append, List.filterMap_cons, hnative]
      refine List.nodup_middle.mpr (List.nodup_cons.mpr ?_)
      rw [← List.filterMap_append]
      refine ⟨fun hid => ?_, hunique⟩
      obtain ⟨x, hx, hxid⟩ := List.mem_filterMap.mp hid
      exact hothers x hx hxid
    unfold Unique
    rw [hkept]
    exact hall.sublist ((List.filter_sublist.append (List.filter_sublist.cons_cons _)).filterMap _)
  · rw [List.filter_append, List.length_append] at hroom
    rw [hkept, List.length_append, List.length_cons]
    omega
  · rw [ha.floor]
    exact persistedFloor_le hf

/-- The transaction of an admitted event is new, or the one of its identity. -/
inductive Origin (s : StationSnapshot) (o : TransactionEventObservation) (a : Admission) : TransactionSnapshot → Prop
  | opened (hcurrent : a.current = none) (habsent : ∀ t ∈ s.transactions, t.native201 ≠ some o.nativeTransactionId) :
      Origin s o a (o.opened a.resource)
  | advanced {t : TransactionSnapshot} (hcurrent : a.current = some t) (ht : t ∈ s.transactions)
      (hid : t.native201 = some o.nativeTransactionId) : Origin s o a (o.advance a.current t)

theorem Admitted.applied (ha : Admitted s o now a) (hunique : Unique s)
    (htransactions : s'.transactions = (putTransaction a o s.transactions).filter (keeps o a.floor))
    (hfloor : persistedFloor ocpp201ReplayFloor s'.currentValues = some a.floor) :
    ∃ own, Applied s o a.floor own s' ∧ Origin s o a own := by
  have hroom := ha.room
  cases hcurrent : a.current with
  | none =>
      have habsent : ∀ t ∈ s.transactions, t.native201 ≠ some o.nativeTransactionId := fun t ht hid =>
        List.find?_eq_none.mp (ha.current.trans hcurrent) t ht ((concerns_iff ha.protocol t).mpr hid)
      have hput : putTransaction a o s.transactions = s.transactions ++ o.opened a.resource :: [] := by
        simp only [putTransaction, hcurrent]
      rw [hcurrent] at hroom
      refine ⟨_, ha.applied_of_split rfl rfl hput ?_ ?_ ?_ ?_ htransactions hfloor, .opened hcurrent habsent⟩
      all_goals rw [List.append_nil]
      · exact habsent
      · exact fun _ _ => Iff.rfl
      · exact hunique
      · exact hroom
  | some t =>
      obtain ⟨before, after, hsplit, hconcerns, _, hreplace⟩ :=
        find?_split (f := o.advance a.current) (ha.current.trans hcurrent)
      have hid := (concerns_iff ha.protocol t).mp hconcerns
      obtain ⟨_, _, _, hactive, _⟩ := lifecycle_some (hcurrent ▸ ha.lifecycle)
      have hput : putTransaction a o s.transactions = before ++ o.advance a.current t :: after := by
        rw [← hreplace]
        simp only [putTransaction, hcurrent]
      refine ⟨_, ha.applied_of_split rfl rfl hput (hunique.others hsplit hid) (fun x hx => ?_) ?_ ?_
        htransactions hfloor, .advanced hcurrent (by simp [hsplit]) hid⟩
      · have hne : x ≠ t := fun heq => hx (heq ▸ hid)
        simp [hsplit, hne]
      · unfold Unique at hunique
        rw [hsplit] at hunique
        exact hunique.sublist (((List.sublist_cons_self t after).append_left before).filterMap _)
      · rw [hsplit, List.filter_append, List.filter_cons_of_pos (by simp [expiredEnded, hactive]), List.length_append,
          List.length_cons] at hroom
        rw [List.filter_append, List.length_append]
        omega

end Step

section Run

structure Station where
  snapshot : StationSnapshot
  applied : List TransactionEventObservation

open Station

def Station.receive (w : Station) (message : TransactionEventObservation × UtcTimestamp) : Station where
  snapshot := (applyTransactionEvent w.snapshot message.1 message.2).2
  applied :=
    if (applyTransactionEvent w.snapshot message.1 message.2).1.toOption = some .applied then w.applied ++ [message.1]
    else w.applied

def Station.run (s : StationSnapshot) (messages : List (TransactionEventObservation × UtcTimestamp)) : Station :=
  messages.foldl receive ⟨s, []⟩

def lastOf (applied : List TransactionEventObservation) (id : String) : Option TransactionEventObservation :=
  (applied.filter (·.nativeTransactionId = id)).getLast?

/-- An event is the first of its transaction, or starts it anew after it ended, or has the next sequence number. -/
def Consecutive (applied : List TransactionEventObservation) : Prop :=
  ∀ before o after, applied = before ++ o :: after →
    (o.event = .started ∧ ∀ p ∈ lastOf before o.nativeTransactionId, p.event = .ended) ∨
      ∃ p ∈ lastOf before o.nativeTransactionId,
        p.event ≠ .ended ∧ o.event ≠ .started ∧ o.sequenceNumber.toNat = p.sequenceNumber.toNat + 1

def StartedOnce (applied : List TransactionEventObservation) : Prop :=
  applied.Pairwise fun o o' => o.event = .started → o'.event = .started →
    o.nativeTransactionId = o'.nativeTransactionId → o.occurredAt ≠ o'.occurredAt

theorem lastOf_snoc (applied : List TransactionEventObservation) (o : TransactionEventObservation) (id : String) :
    lastOf (applied ++ [o]) id = if o.nativeTransactionId = id then some o else lastOf applied id := by
  unfold lastOf
  by_cases h : o.nativeTransactionId = id
  · simp [h, List.filter_append]
  · simp [h, List.filter_append]

theorem Consecutive.snoc {applied : List TransactionEventObservation} (h : Consecutive applied)
    (ho : (o.event = .started ∧ ∀ p ∈ lastOf applied o.nativeTransactionId, p.event = .ended) ∨
      ∃ p ∈ lastOf applied o.nativeTransactionId,
        p.event ≠ .ended ∧ o.event ≠ .started ∧ o.sequenceNumber.toNat = p.sequenceNumber.toNat + 1) :
    Consecutive (applied ++ [o]) := by
  intro before o' after heq
  rcases List.eq_nil_or_concat after with rfl | ⟨after, last, rfl⟩
  · obtain ⟨rfl, hlast⟩ := List.append_inj' heq rfl
    cases hlast
    exact ho
  · rw [List.concat_eq_append, ← List.cons_append, ← List.append_assoc] at heq
    exact h before o' after (List.append_inj' heq rfl).1

structure Remembers (w : Station) : Prop where
  unique : Unique w.snapshot
  bound : w.snapshot.transactions.length ≤ maxSnapshotTransactions
  last : ∀ t ∈ w.snapshot.transactions, ∀ id, t.native201 = some id → ∃ state p, t.protocolState = some state ∧
    lastOf w.applied id = some p ∧ state.lastSequenceNumber = p.sequenceNumber ∧ (t.state = .ended ↔ p.event = .ended)
  dropped : ∀ id p, lastOf w.applied id = some p → (∃ t ∈ w.snapshot.transactions, t.native201 = some id) ∨
    p.event = .ended
  starts : ∀ o ∈ w.applied, o.event = .started →
    (∃ t ∈ w.snapshot.transactions, t.native201 = some o.nativeTransactionId ∧ t.startedAt = o.occurredAt) ∨
      ∃ f, persistedFloor ocpp201ReplayFloor w.snapshot.currentValues = some f ∧ unixTimestamp o.occurredAt ≤ f
  consecutive : Consecutive w.applied
  startedOnce : StartedOnce w.applied

variable {w : Station} {own : TransactionSnapshot} {floor : Int}

theorem Remembers.applied (h : Remembers w) (happlied : Applied w.snapshot o floor own s')
    (hstart : ∀ q ∈ w.applied, q.event = .started → q.nativeTransactionId = o.nativeTransactionId →
      own.startedAt = q.occurredAt ∨ unixTimestamp q.occurredAt ≤ floor)
    (hown : o.event = .started → own.startedAt = o.occurredAt)
    (hconsecutive : Consecutive (w.applied ++ [o])) (honce : StartedOnce (w.applied ++ [o])) :
    Remembers ⟨s', w.applied ++ [o]⟩ := by
  have hmem_own : own ∈ s'.transactions := (happlied.mem own).mpr (.inl rfl)
  refine ⟨happlied.unique, happlied.bound, ?_, ?_, ?_, hconsecutive, honce⟩
  · intro t ht id hid
    rcases (happlied.mem t).mp ht with rfl | ⟨ht, hother, _⟩
    · rw [happlied.native, Option.some.injEq] at hid
      obtain ⟨state, hstate, hsequence⟩ := happlied.sequence
      exact ⟨state, o, hstate, by rw [lastOf_snoc, if_pos hid], hsequence, happlied.ended⟩
    · have hne : o.nativeTransactionId ≠ id := fun heq => hother (heq ▸ hid)
      obtain ⟨state, p, hstate, hlast, hrest⟩ := h.last t ht id hid
      exact ⟨state, p, hstate, by rw [lastOf_snoc, if_neg hne, hlast], hrest⟩
  · intro id p hlast
    rw [lastOf_snoc] at hlast
    split_ifs at hlast with hid
    · exact .inl ⟨own, hmem_own, hid ▸ happlied.native⟩
    · rcases h.dropped id p hlast with ⟨t, ht, htid⟩ | hended
      · by_cases hexpired : expiredEnded t floor
        · obtain ⟨_, p', _, hlast', _, hiff⟩ := h.last t ht id htid
          rw [hlast, Option.some.injEq] at hlast'
          subst hlast'
          have hstate : t.state = .ended := by
            simp only [expiredEnded, Bool.and_eq_true, decide_eq_true_eq] at hexpired
            exact hexpired.1.1.2
          exact .inr (hiff.mp hstate)
        · have hother : t.native201 ≠ some o.nativeTransactionId := by
            rw [htid]
            simpa [eq_comm] using hid
          exact .inl ⟨t, (happlied.mem t).mpr (.inr ⟨ht, hother, by simpa using hexpired⟩), htid⟩
      · exact .inr hended
  · intro q hq hstarted
    rcases List.mem_append.mp hq with hq | hq
    · by_cases hid : q.nativeTransactionId = o.nativeTransactionId
      · rcases hstart q hq hstarted hid with hown | hexpired
        · exact .inl ⟨own, hmem_own, hid ▸ happlied.native, hown⟩
        · exact .inr ⟨floor, happlied.persisted, hexpired⟩
      · rcases h.starts q hq hstarted with ⟨t, ht, htid, hat⟩ | ⟨f, hf, hle⟩
        · by_cases hexpired : expiredEnded t floor
          · simp only [expiredEnded, Bool.and_eq_true, decide_eq_true_eq] at hexpired
            exact .inr ⟨floor, happlied.persisted, hat ▸ hexpired.1.2⟩
          · have hother : t.native201 ≠ some o.nativeTransactionId := by
              rw [htid]
              simpa using hid
            exact .inl ⟨t, (happlied.mem t).mpr (.inr ⟨ht, hother, by simpa using hexpired⟩), htid, hat⟩
        · exact .inr ⟨floor, happlied.persisted, hle.trans (happlied.advances f hf)⟩
    · cases List.mem_singleton.mp hq
      exact .inl ⟨own, hmem_own, happlied.native, hown hstarted⟩

theorem StartedOnce.snoc {applied : List TransactionEventObservation} (h : StartedOnce applied)
    (ho : ∀ q ∈ applied, q.event = .started → o.event = .started →
      q.nativeTransactionId = o.nativeTransactionId → q.occurredAt ≠ o.occurredAt) : StartedOnce (applied ++ [o]) := by
  refine List.pairwise_append.mpr ⟨h, List.pairwise_singleton _ _, fun q hq o' ho' => ?_⟩
  cases List.mem_singleton.mp ho'
  exact ho q hq

theorem Remembers.admitted (h : Remembers w) (ha : Admitted w.snapshot o now a)
    (htransactions : s'.transactions = (putTransaction a o w.snapshot.transactions).filter (keeps o a.floor))
    (hfloor : persistedFloor ocpp201ReplayFloor s'.currentValues = some a.floor) :
    Remembers ⟨s', w.applied ++ [o]⟩ := by
  obtain ⟨own, happlied, horigin⟩ := ha.applied h.unique htransactions hfloor
  cases horigin with
  | opened hcurrent habsent =>
      have hstarted := lifecycle_none (hcurrent ▸ ha.lifecycle)
      -- A start of this identity is known to be behind the floor, since its transaction is gone.
      have hold : ∀ q ∈ w.applied, q.event = .started → q.nativeTransactionId = o.nativeTransactionId →
          unixTimestamp q.occurredAt ≤ a.floor := by
        intro q hq hqstarted hid
        rcases h.starts q hq hqstarted with ⟨t, ht, htid, _⟩ | ⟨f, hf, hle⟩
        · exact absurd (hid ▸ htid) (habsent t ht)
        · exact hle.trans (happlied.advances f hf)
      refine h.applied happlied (fun q hq hs hid => .inr (hold q hq hs hid)) (fun _ => rfl) (h.consecutive.snoc ?_)
        (h.startedOnce.snoc ?_)
      · refine .inl ⟨hstarted, fun p hp => ?_⟩
        rcases h.dropped _ p hp with ⟨t, ht, htid⟩ | hended
        · exact absurd htid (habsent t ht)
        · exact hended
      · intro q hq hqstarted _ hid heq
        have hfresh := ha.fresh hcurrent
        have hbehind := hold q hq hqstarted hid
        rw [heq] at hbehind
        omega
  | @advanced t hcurrent ht htid =>
      obtain ⟨state, hstate, hsequence, hactive, hevent⟩ := lifecycle_some (hcurrent ▸ ha.lifecycle)
      obtain ⟨state', p, hstate', hlast, hnumber, hiff⟩ := h.last t ht _ htid
      rw [hstate, Option.some.injEq] at hstate'
      subst hstate'
      refine h.applied happlied (fun q hq hs hid => ?_) (fun hs => absurd hs hevent) (h.consecutive.snoc ?_)
        (h.startedOnce.snoc fun _ _ _ hs => absurd hs hevent)
      · rcases h.starts q hq hs with ⟨x, hx, hxid, hat⟩ | ⟨f, hf, hle⟩
        · have hsame : x = t := h.unique.eq hx ht (hid ▸ hxid) htid
          exact .inl (hsame ▸ hat)
        · exact .inr (hle.trans (happlied.advances f hf))
      · exact .inr ⟨p, hlast, fun hp => hactive (hiff.mpr hp), hevent, hnumber ▸ hsequence⟩

theorem Remembers.receive (h : Remembers w) (message : TransactionEventObservation × UtcTimestamp) :
    Remembers (w.receive message) := by
  obtain ⟨o, now⟩ := message
  unfold Station.receive
  rcases applyTransactionEvent_cases w.snapshot o now with ⟨hsame, hother⟩ |
    ⟨happlied, a, hcheck, htransactions, hfloor⟩
  · have hnone : (applyTransactionEvent w.snapshot o now).1.toOption ≠ some .applied := by
      cases hresult : (applyTransactionEvent w.snapshot o now).1 with
      | error e => exact nofun
      | ok outcome => exact fun heq => hother (hresult.trans (congrArg _ (Option.some.inj heq)))
    simp only [hsame, if_neg hnone]
    exact h
  · simp only [happlied, Except.toOption, if_true]
    exact h.admitted (checkEvent_admitted hcheck) htransactions hfloor

def Untouched (s : StationSnapshot) : Prop :=
  s.transactions.length ≤ maxSnapshotTransactions ∧ ∀ t ∈ s.transactions, t.native201 = none

theorem remembers_start (h : Untouched s) : Remembers ⟨s, []⟩ := by
  have hids : s.transactions.filterMap (·.native201) = [] := List.filterMap_eq_nil_iff.mpr h.2
  refine ⟨?_, h.1, ?_, ?_, ?_, ?_, List.Pairwise.nil⟩
  · unfold Unique
    rw [hids]
    exact List.nodup_nil
  · intro t ht id hid
    rw [h.2 t ht] at hid
    cases hid
  · intro id p hlast
    cases hlast
  · intro o ho
    cases ho
  · intro before o after hnil
    simp at hnil

theorem Remembers.run (h : Untouched s) (messages : List (TransactionEventObservation × UtcTimestamp)) :
    Remembers (run s messages) :=
  run_invariant (P := Remembers) (fun _ message hw => hw.receive message) messages (remembers_start h)

theorem Remembers.ended (h : Remembers w) (o : TransactionEventObservation) (now : UtcTimestamp)
    {t : TransactionSnapshot} (ht : t ∈ w.snapshot.transactions) (hid : t.native201 = some id)
    (hended : t.state = .ended) :
    t ∈ (applyTransactionEvent w.snapshot o now).2.transactions ∨
      ∀ x ∈ (applyTransactionEvent w.snapshot o now).2.transactions, x.native201 ≠ some id := by
  rcases applyTransactionEvent_cases w.snapshot o now with ⟨hsame, -⟩ | ⟨-, a, hcheck, htransactions, hfloor⟩
  · rw [hsame]
    exact .inl ht
  · have ha := checkEvent_admitted hcheck
    obtain ⟨own, happlied, horigin⟩ := ha.applied h.unique htransactions hfloor
    have hother : id ≠ o.nativeTransactionId := by
      rintro rfl
      cases horigin with
      | opened _ habsent => exact habsent t ht hid
      | advanced hcurrent hx hxid =>
          obtain ⟨_, _, _, hactive, _⟩ := lifecycle_some (hcurrent ▸ ha.lifecycle)
          exact hactive (h.unique.eq hx ht hxid hid ▸ hended)
    by_cases hexpired : expiredEnded t a.floor
    · refine .inr fun x hx hxid => ?_
      rcases (happlied.mem x).mp hx with rfl | ⟨hx, _, hlive⟩
      · exact hother (Option.some.inj (hxid.symm.trans happlied.native))
      · rw [h.unique.eq hx ht hxid hid, hexpired] at hlive
        cases hlive
    · exact .inl ((happlied.mem t).mpr (.inr ⟨ht, by rw [hid]; simpa using hother, by simpa using hexpired⟩))

/-- Events in any order, with any sequence numbers and at any times. -/
theorem run_transactionEvents (s : StationSnapshot) (hs : Untouched s)
    (messages : List (TransactionEventObservation × UtcTimestamp)) :
    Consecutive (run s messages).applied ∧ StartedOnce (run s messages).applied ∧
      (run s messages).snapshot.transactions.length ≤ maxSnapshotTransactions ∧
      ∀ o now,
        (∀ t ∈ (run s messages).snapshot.transactions, ∀ id, t.native201 = some id → t.state = .ended →
          t ∈ (applyTransactionEvent (run s messages).snapshot o now).2.transactions ∨
            ∀ x ∈ (applyTransactionEvent (run s messages).snapshot o now).2.transactions,
              x.native201 ≠ some id) ∧
        ∀ e, (applyTransactionEvent (run s messages).snapshot o now).1 = .error e →
          (applyTransactionEvent (run s messages).snapshot o now).2 = (run s messages).snapshot := by
  have h := Remembers.run hs messages
  refine ⟨h.consecutive, h.startedOnce, h.bound, fun o now => ⟨?_, ?_⟩⟩
  · intro t ht id hid hended
    exact h.ended o now ht hid hended
  · intro e he
    rcases applyTransactionEvent_cases (run s messages).snapshot o now with ⟨hsame, -⟩ | ⟨happlied, -⟩
    · exact hsame
    · exact absurd (he.symm.trans happlied) nofun

section Sample

def sampleResource : ResourceRef := ⟨"bridge", "station", some (.evse "1" none), some (.ocpp201 1 none)⟩

def sampleStation : StationSnapshot where
  schemaVersion := .v1Initial
  station := ⟨"bridge", "station", none, none⟩
  observedAt := 0
  connectivity := .connected .ocpp201 0 none
  resources := [⟨sampleResource, [], []⟩]
  transactions := []
  currentValues := []

def sampleEvent (event : TransactionEventKind) (sequenceNumber : UInt32) (second : Int) :
    TransactionEventObservation where
  remoteStartId := none
  protocol := .ocpp201
  event := event
  nativeTransactionId := "session"
  nativeResource := .ocpp201 1 none
  sequenceNumber := sequenceNumber
  triggerReason := "Authorized"
  chargingState := some "Charging"
  occurredAt := second * nanosecondsPerSecond
  measurements := none
  payloadFingerprint := event.name

def sampleEvents : List (TransactionEventObservation × UtcTimestamp) :=
  [sampleEvent .started 5 1, sampleEvent .started 5 1, sampleEvent .updated 7 2, sampleEvent .updated 6 2,
    sampleEvent .ended 7 3, sampleEvent .started 5 1].map (·, 0)

theorem sample_transactionEvents : Untouched sampleStation ∧
    Consecutive (run sampleStation sampleEvents).applied ∧
      (run sampleStation sampleEvents).applied.length = 3 := by
  have hs : Untouched sampleStation := ⟨by decide, by simp [sampleStation]⟩
  exact ⟨hs, (run_transactionEvents sampleStation hs sampleEvents).1, by decide +kernel⟩

end Sample

end Run

end OcppBridge.Charging
