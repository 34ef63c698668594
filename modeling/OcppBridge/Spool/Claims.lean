import OcppBridge.Spool.Conservation

namespace OcppBridge.Spool

open Text Transaction Transition

variable {limits : Limits} {request : Request} {rows : List PendingRow} {confirmed : List (Durability × Nat)}
  {w : World} {ns : ExportSpoolNamespace} {env : Conditions} {maxBytes : Nat}

def Event.Settles (w : World) : Event → Prop
  | .request _ (.settle ns report) =>
      Confirms w.worker.durable ns report ∧ ∃ b ∈ w.worker.durable.binding, b.owns ns
  | _ => False

theorem run_append (events later : List Event) :
    run limits (events ++ later) = later.foldl (step limits) (run limits events) := by
  simp [run, List.foldl_append]

theorem run_concat (events : List Event) (e : Event) :
    run limits (events ++ [e]) = step limits (run limits events) e := by
  rw [run_append, List.foldl_cons, List.foldl_nil]

theorem Moved.pinnedRows_eq {old new : Database} (hm : Moved old new request rows) (hold : Closed old confirmed)
    (hnew : Closed new (confirmed ++ rows.map PendingRow.position)) {batchId : String}
    (hlive : old.delivery = some batchId)
    (hopen : ∀ ns report, request = .settle ns report → ¬(Confirms old ns report ∧ ∃ b ∈ old.binding, b.owns ns)) :
    new.delivery = some batchId ∧ pinnedRows new = pinnedRows old := by
  cases hm with
  | kept h =>
      simp only [List.map_nil, List.append_nil] at hnew
      exact ⟨h.delivery.trans hlive, h.pinnedRows_eq hold.books hnew.books⟩
  | pinned hf _ => simp [hf.idle] at hlive
  | confirmed hc hb ho _ => exact absurd ⟨hc, _, hb, ho⟩ (hopen _ _ rfl)

theorem step_pinned (limits : Limits) (hs : Sound w.worker w.confirmed) {e : Event} {batchId : String}
    (hlive : w.worker.durable.delivery = some batchId) (hopen : ¬e.Settles w) :
    (step limits w e).worker.durable.delivery = some batchId ∧
      pinnedRows (step limits w e).worker.durable = pinnedRows w.worker.durable := by
  cases e with
  | request env request =>
      obtain ⟨hm, hnew⟩ := dispatch_good limits env hs request
      exact hm.pinnedRows_eq hs.closed hnew.closed hlive fun ns report hr hc => hopen (by subst hr; exact hc)
  | dropTransfer => exact ⟨hlive, rfl⟩
  | crash => exact ⟨hlive, rfl⟩

theorem run_pinned (hs : Sound w.worker w.confirmed) {later : List Event} {batchId : String}
    (hlive : w.worker.durable.delivery = some batchId)
    (hopen : ∀ before e after, later = before ++ e :: after → ¬e.Settles (before.foldl (step limits) w)) :
    (later.foldl (step limits) w).worker.durable.delivery = some batchId ∧
      pinnedRows (later.foldl (step limits) w).worker.durable = pinnedRows w.worker.durable := by
  induction later generalizing w with
  | nil => exact ⟨hlive, rfl⟩
  | cons e later ih =>
      obtain ⟨hdelivery, hrows⟩ := step_pinned limits hs hlive (hopen [] e later rfl)
      obtain ⟨hdelivery', hrows'⟩ := ih (step_sound limits hs e) hdelivery
        fun before x after h => hopen (e :: before) x after (by rw [h, List.cons_append])
      exact ⟨hdelivery', hrows'.trans hrows⟩

theorem dispatch_claim {w : Worker} {limit : Nat} {o : Option ExportDeliveryClaim}
    (h : (dispatch limits env w (.claim ns limit maxBytes)).reply = .ok (.claimed o)) :
    claim w.durable ns limit maxBytes env.budget =
      .ok ((dispatch limits env w (.claim ns limit maxBytes)).worker.durable, o) := by
  unfold dispatch at h ⊢
  split at h
  · simp only [handleIdle] at h ⊢
    split at h
    · simp [refuse] at h
    · rename_i hclaim
      simp only [Except.ok.injEq, Answer.claimed.injEq] at h
      subst h
      exact attempt_eq_ok hclaim
  · simp [handleBusy, refuse] at h

theorem dispatch_claim_pinned {w : Worker} (hs : Sound w confirmed) {limit : Nat} {c : ExportDeliveryClaim}
    (h : (dispatch limits env w (.claim ns limit maxBytes)).reply = .ok (.claimed (some c))) :
    let db := (dispatch limits env w (.claim ns limit maxBytes)).worker.durable
    db.delivery = some c.batchId ∧ c.items = (pinnedRows db).map PendingRow.descriptor := by
  intro db
  rcases claim_eq_ok (dispatch_claim h) with ⟨batchId, hlive, hdb, hc⟩ | ⟨_, _, hc⟩ | ⟨b, selected, hf, hdb, hc⟩
  · obtain rfl := Option.some.inj hc
    exact ⟨by rw [show db = w.durable from hdb, hlive], by rw [show db = w.durable from hdb]⟩
  · simp at hc
  · obtain rfl := Option.some.inj hc
    refine ⟨by rw [show db = _ from hdb]; rfl, ?_⟩
    rw [show db = _ from hdb, pinBatch_pinnedRows hs.closed.books hf]

theorem Moved.origin {old new : Database} (hm : Moved old new request rows) (hold : Closed old confirmed)
    (hnew : Closed new (confirmed ++ rows.map PendingRow.position)) {batchId : String}
    (hlive : new.delivery = some batchId) :
    (old.delivery = some batchId ∧ pinnedRows new = pinnedRows old) ∨
      (∃ ns limit maxBytes, request = .claim ns limit maxBytes) ∧ old.delivery = none ∧ pinnedRows new ≠ [] ∧
        pinnedRows new <+: old.ordered := by
  cases hm with
  | kept h =>
      simp only [List.map_nil, List.append_nil] at hnew
      exact .inl ⟨h.delivery ▸ hlive, h.pinnedRows_eq hold.books hnew.books⟩
  | @pinned ns _ _ b _ hf h =>
      subst h
      rw [pinBatch_pinnedRows hold.books hf (batchIdOf ns (b.nextDeliveryId + 1))]
      exact .inr ⟨⟨_, _, _, rfl⟩, hf.idle, hf.nonempty, hf.leading⟩
  | confirmed _ _ _ h => simp [h, unpinBatch] at hlive

/-- The event is a claim that meets no pinned batch and pins `rows`, the first pending rows, under `batchId`. -/
structure Event.Pins (limits : Limits) (w : World) (e : Event) (batchId : String) (rows : List PendingRow) : Prop where
  claim : ∃ env ns limit maxBytes, e = .request env (.claim ns limit maxBytes)
  idle : w.worker.durable.delivery = none
  issued : (step limits w e).worker.durable.delivery = some batchId
  nonempty : rows ≠ []
  leading : rows <+: w.worker.durable.ordered

theorem step_origin (hs : Sound w.worker w.confirmed) {e : Event} {batchId : String}
    (hlive : (step limits w e).worker.durable.delivery = some batchId) :
    (w.worker.durable.delivery = some batchId ∧
      pinnedRows (step limits w e).worker.durable = pinnedRows w.worker.durable) ∨
      e.Pins limits w batchId (pinnedRows (step limits w e).worker.durable) := by
  cases e with
  | request env request =>
      obtain ⟨hm, hnew⟩ := dispatch_good limits env hs request
      rcases hm.origin hs.closed hnew.closed hlive with hkept | ⟨⟨ns, limit, maxBytes, rfl⟩, hidle, hne, hpre⟩
      · exact .inl hkept
      · exact .inr ⟨⟨_, _, _, _, rfl⟩, hidle, hlive, hne, hpre⟩
  | dropTransfer => exact .inl ⟨hlive, rfl⟩
  | crash => exact .inl ⟨hlive, rfl⟩

theorem pinned_origin (limits : Limits) (events : List Event) {batchId : String}
    (hlive : (run limits events).worker.durable.delivery = some batchId) :
    ∃ before e after, events = before ++ e :: after ∧
      e.Pins limits (run limits before) batchId (pinnedRows (run limits events).worker.durable) := by
  induction events using List.reverseRecOn with
  | nil => simp [run, World.init, Database.empty] at hlive
  | append_singleton events e ih =>
      rw [run_concat] at hlive ⊢
      rcases step_origin (run_sound limits events) hlive with ⟨hdelivery, hrows⟩ | hpins
      · obtain ⟨before, e', after, hevents, hpins⟩ := ih hdelivery
        exact ⟨before, e', after ++ [e], by simp [hevents], hrows ▸ hpins⟩
      · exact ⟨events, e, [], rfl, hpins⟩

def Binding.batchId (b : Binding) (next : Nat) : String :=
  batchPrefix b.destination b.revision b.generation ++ toString next

theorem batchIdOf_eq {b : Binding} (h : b.owns ns) (next : Nat) : batchIdOf ns next = b.batchId next := by
  obtain ⟨hdest, hrev, -, hgen⟩ := h
  rw [batchIdOf, Binding.batchId, hdest, hrev, hgen]

theorem batchId_injective (b : Binding) {j k : Nat} (h : b.batchId j = b.batchId k) : j = k := by
  have hchars := congrArg String.toList h
  rw [Binding.batchId, Binding.batchId, String.toList_append, String.toList_append] at hchars
  have hparsed := digits_repr j
  rw [List.append_cancel_left hchars, digits_repr k] at hparsed
  exact (Option.some.inj hparsed).symm

/-- Issued batch ids are numbered by the binding, each at most its delivery counter. -/
structure Numbered (db : Database) (issued : List String) : Prop where
  nodup : issued.Nodup
  bounded : ∀ id ∈ issued, ∃ b ∈ db.binding, ∃ k ≤ b.nextDeliveryId, id = b.batchId k

theorem Moved.numbered {old new : Database} {issued : List String} (hm : Moved old new request rows)
    (h : Numbered old issued) : Numbered new (issued ++ newBatch old new) := by
  cases hm with
  | kept hk =>
      have hnone : newBatch old new = [] := by
        unfold newBatch
        split
        · simp_all [hk.delivery]
        · rfl
      rw [hnone, List.append_nil]
      refine ⟨h.nodup, fun id hid => ?_⟩
      obtain ⟨b, hb, k, hk', rfl⟩ := h.bounded id hid
      obtain ⟨b', hb', hdest, hrev, hgen, hnext⟩ := hk.owner b hb
      exact ⟨b', hb', k, hnext ▸ hk', by rw [Binding.batchId, Binding.batchId, hdest, hrev, hgen]⟩
  | @pinned ns _ _ b selected hf hnew =>
      have hbatch : newBatch old new = [b.batchId (b.nextDeliveryId + 1)] := by
        rw [newBatch, if_pos hf.idle, hnew, pinBatch, batchIdOf_eq hf.owner, Option.toList_some]
      rw [hbatch]
      have hold : ∀ id ∈ issued, ∃ k ≤ b.nextDeliveryId, id = b.batchId k := by
        intro id hid
        obtain ⟨b', hb', hk⟩ := h.bounded id hid
        obtain rfl : b = b' := by simpa [hf.bound] using hb'
        exact hk
      refine ⟨?_, ?_⟩
      · rw [List.nodup_append]
        refine ⟨h.nodup, by simp, ?_⟩
        intro id hid id' hid' heq
        obtain ⟨k, hk, rfl⟩ := hold id hid
        rw [List.mem_singleton.mp hid'] at heq
        have := batchId_injective b heq
        omega
      · intro id hid
        refine ⟨{ b with nextDeliveryId := b.nextDeliveryId + 1 }, by simp [hnew, pinBatch], ?_⟩
        rcases List.mem_append.mp hid with hid | hid
        · obtain ⟨k, hk, rfl⟩ := hold id hid
          exact ⟨k, Nat.le_succ_of_le hk, rfl⟩
        · rw [List.mem_singleton.mp hid]
          exact ⟨_, le_rfl, rfl⟩
  | @confirmed ns report b hc hb ho hnew =>
      have hnone : newBatch old new = [] := by simp [newBatch, hc.batch]
      rw [hnone, List.append_nil]
      refine ⟨h.nodup, fun id hid => ?_⟩
      obtain ⟨b', hb', k, hk, rfl⟩ := h.bounded id hid
      obtain rfl : b = b' := by simpa [hb] using hb'
      exact ⟨{ b with lastConfirmedBatch := some report.batchId
                      confirmedRecords := b.confirmedRecords + (pinnedRows old).length },
        by simp [hnew, unpinBatch], k, hk, rfl⟩

theorem run_numbered (limits : Limits) (events : List Event) :
    Numbered (run limits events).worker.durable (run limits events).issued := by
  have hnext : ∀ w e, Sound w.worker w.confirmed ∧ Numbered w.worker.durable w.issued →
      Sound (step limits w e).worker (step limits w e).confirmed ∧
        Numbered (step limits w e).worker.durable (step limits w e).issued := by
    intro w e ⟨hs, hn⟩
    refine ⟨step_sound limits hs e, ?_⟩
    cases e with
    | request env request => exact (dispatch_good limits env hs request).1.numbered hn
    | dropTransfer => simpa [step] using hn
    | crash => simpa [step] using hn
  refine (run_invariant hnext events ⟨⟨empty_closed, ?_⟩, ⟨List.nodup_nil, ?_⟩⟩).2
  · simp [World.init]
  · simp [World.init]

theorem dispatch_claim_replay {w : Worker} {limit : Nat} {batchId : String}
    (hlive : w.durable.delivery = some batchId) {o : Option ExportDeliveryClaim}
    (h : (dispatch limits env w (.claim ns limit maxBytes)).reply = .ok (.claimed o)) :
    o = some ⟨batchId, (pinnedRows w.durable).map PendingRow.descriptor⟩ := by
  rcases claim_eq_ok (dispatch_claim h) with ⟨id, hid, -, rfl⟩ | ⟨hidle, -, -⟩ | ⟨_, _, hf, -, -⟩
  · obtain rfl : batchId = id := Option.some.inj (hlive.symm.trans hid)
    rfl
  · simp [hlive] at hidle
  · have hidle := hf.idle
    simp [hlive] at hidle

theorem confirmed_nodup (limits : Limits) (events : List Event) : (run limits events).confirmed.Nodup := by
  refine nodup_of_streams fun d => ?_
  have hbooks := (run_sound limits events).closed.books
  exact ((hbooks.covered d).nodup_iff.mpr (Spans.nodup_span _ _)).of_append_left.of_append_right

/-- A claimed batch is answered again, unaltered, until a report confirms exactly it; no batch id is issued twice and no
record is confirmed twice. -/
theorem run_claims (limits : Limits) (events : List Event) :
    (∀ env ns limit maxBytes c, replyAfter limits events env (.claim ns limit maxBytes) = .ok (.claimed (some c)) →
      let claimed := events ++ [.request env (.claim ns limit maxBytes)]
      (∀ later, (∀ before e after, later = before ++ e :: after → ¬e.Settles (run limits (claimed ++ before))) →
        (∀ env' ns' limit' maxBytes' o, replyAfter limits (claimed ++ later) env' (.claim ns' limit' maxBytes') =
          .ok (.claimed o) → o = some c) ∧
        pinnedRows (run limits (claimed ++ later)).worker.durable = pinnedRows (run limits claimed).worker.durable) ∧
      ∃ before e after rows, claimed = before ++ e :: after ∧ e.Pins limits (run limits before) c.batchId rows ∧
        c.items = rows.map PendingRow.descriptor) ∧
    (run limits events).issued.Nodup ∧
    (run limits events).confirmed.Nodup ∧
    (run limits events).worker.durable.confirmedRecords = (run limits events).confirmed.length := by
  refine ⟨?_, (run_numbered limits events).nodup, confirmed_nodup limits events,
    (run_sound limits events).closed.books.tally⟩
  intro env ns limit maxBytes c hreply claimed
  obtain ⟨hlive, hitems⟩ := dispatch_claim_pinned (run_sound limits events) hreply
  have hclaimed : (run limits claimed).worker =
      (dispatch limits env (run limits events).worker (.claim ns limit maxBytes)).worker := by
    rw [run_concat, step]
  rw [← hclaimed] at hlive hitems
  refine ⟨?_, ?_⟩
  · intro later hopen
    simp only [replyAfter, run_append] at hopen ⊢
    obtain ⟨hstill, hrows⟩ := run_pinned (run_sound limits _) hlive hopen
    refine ⟨?_, hrows⟩
    intro env' ns' limit' maxBytes' o ho
    rw [dispatch_claim_replay hstill ho, hrows, ← hitems]
  · obtain ⟨before, e, after, hevents, hpins⟩ := pinned_origin limits _ hlive
    exact ⟨before, e, after, _, hevents, hpins, hitems⟩

end OcppBridge.Spool
