import OcppBridge.CommandHistory.Store
import OcppBridge.Operational.ResultHistory

namespace OcppBridge.Operational

open Storage Transaction Paging CommandHistory CommandRow

variable {P : Type} [Wire P]

def Command.result (command : Command P) (lifecycle : CommandLifecycle) (recordedAt : UtcTimestamp) :
    CommandResult where
  schemaVersion := .v1Initial
  correlationId := command.correlationId
  resource := command.resource
  returnRoute := command.returnRoute
  lifecycle
  recordedAt

structure RecoveryBatch (P : Type) where
  activeCommands : List (Command P)
  commandResults : List CommandResult

structure RecoveredCommand (P : Type) where
  command : Command P
  result : CommandResult

namespace Store

def unresolvedAfter (store : Store P) (after : Option RequestId) : List (CommandRow P) :=
  above request after (store.journal.commands.rows.filter (·.unresolved))

def readActiveCommands (store : Store P) (after : Option RequestId) (limit : PageLimit) :
    Except StorageError (List (Command P)) :=
  ((store.unresolvedAfter after).take limit.value).mapM fun row => do
    row.command.validateEvidence
    pure row.command

def readCommandResults (store : Store P) (after : Option RequestId) (limit : PageLimit) :
    Except StorageError (List CommandResult) :=
  (((store.unresolvedAfter after).take limit.value).filterMap fun row => store.journal.results.find? row.request).mapM
    fun row => store.decodeStoredResult row.payload row.request

/-- One page of recovery; `others` is how reading the snapshots, authorization changes and deliveries goes. -/
def recover (store : Store P) (others : Except StorageError Unit) (after : Option RequestId) (limit : PageLimit) :
    Except StorageError (RecoveryBatch P) := do
  others
  let activeCommands ← store.readActiveCommands after limit
  let commandResults ← store.readCommandResults after limit
  pure ⟨activeCommands, commandResults⟩

def recordResult (store : Store P) (result : CommandResult) : Except StorageError (Store P) := do
  let (store, _) ← store.writeAtomic { commandResult := some result }
  pure store

end Store

def Command.recorded (command : Command P) (results : List CommandResult) (now : UtcTimestamp) : CommandResult :=
  (results.find? (·.request = command.requestId)).getD (command.result .admitted now)

def CommandResult.restarted (result : CommandResult) (now : UtcTimestamp) : CommandResult :=
  { result with
    lifecycle := .transmissionUncertain "service restarted before a charger response was recorded"
    recordedAt := now }

/-- What one call finds: its clock, and how the reads that do not concern commands go. -/
structure Visit where
  now : UtcTimestamp
  others : Except StorageError Unit

namespace Store

/-- A dispatched command becomes uncertain in a write of its own. -/
def recoverOne (store : Store P) (now : UtcTimestamp) (result : CommandResult) :
    Except StorageError (Store P × CommandResult) :=
  if result.lifecycle = .dispatched then do
    let store ← store.recordResult (result.restarted now)
    pure (store, result.restarted now)
  else pure (store, result)

def recoverEach (now : UtcTimestamp) (results : List CommandResult) :
    Store P → List (Command P) → Store P × Except StorageError (List (RecoveredCommand P))
  | store, [] => (store, .ok [])
  | store, command :: commands =>
      match store.recoverOne now (command.recorded results now) with
      | .error e => (store, .error e)
      | .ok (store, result) =>
          let (store, recovered) := recoverEach now results store commands
          (store, recovered.map (⟨command, result⟩ :: ·))

def recoverUnresolved (store : Store P) (visit : Visit) (after : Option RequestId) (limit : PageLimit) :
    Store P × Except StorageError (List (RecoveredCommand P)) :=
  match store.recover visit.others after limit with
  | .error e => (store, .error e)
  | .ok batch => recoverEach visit.now batch.commandResults store batch.activeCommands

inductive Recovery
  | finished
  | failed (error : StorageError)
  /-- A page did not advance the cursor. -/
  | unavailable
  /-- More calls would have been needed. -/
  | unfinished
  deriving DecidableEq

def recoverCommands (limit : PageLimit) :
    List Visit → Option RequestId → Store P → Store P × List (RecoveredCommand P) × Recovery
  | [], _, store => (store, [], .unfinished)
  | visit :: visits, after, store =>
      match store.recoverUnresolved visit after limit with
      | (store, .error e) => (store, [], .failed e)
      | (store, .ok batch) =>
          match batch.getLast? with
          | none => (store, [], .finished)
          | some last =>
              if after.any (last.command.requestId ≤ ·) then (store, batch, .unavailable)
              else
                let (store, visited, recovery) := recoverCommands limit visits (some last.command.requestId) store
                (store, batch ++ visited, recovery)

end Store

section Uncertain

variable {incoming published : CommandResult} {detail : String} {s s' : Store P}

theorem ReservationEdition.finish_uncertain {π τ ε : Type} [DecidableEq τ] [DecidableEq ε]
    {edition : ReservationEdition P π τ ε}
    (hset : ∀ evidence result, (edition.setEvidence evidence result).lifecycle = result.lifecycle)
    (hlifecycle : incoming.lifecycle = .transmissionUncertain detail) {desk desk' : edition.Records}
    (h : edition.finish desk incoming = .ok (desk', published)) :
    desk'.journal = desk.journal ∧ published.lifecycle = .transmissionUncertain detail := by
  unfold finish at h
  split at h
  · simp only [bind_eq_ok, pure_eq_ok, Prod.mk.injEq] at h
    obtain ⟨_, _, rfl, rfl⟩ := h
    exact ⟨rfl, hlifecycle⟩
  · simp only [bind_eq_ok, pure_eq_ok, Prod.mk.injEq, advance, hlifecycle] at h
    obtain ⟨_, _, _, _, _, _, _, _, ⟨mid, r, inflight⟩, ⟨rfl, _⟩, saved, hsave, rfl, rfl⟩ := h
    obtain ⟨_, _, _, _, hjournal⟩ := Desk.save_eq_ok hsave
    exact ⟨hjournal, (hset _ _).trans hlifecycle⟩

theorem JobFamily.finish_uncertain {κ δ ι α ρ π τ υ : Type} [DecidableEq π] {family : JobFamily P κ δ ι α ρ π τ υ}
    (hset : ∀ evidence result, (family.setEvidence evidence result).lifecycle = result.lifecycle)
    (hlifecycle : incoming.lifecycle = .transmissionUncertain detail) {desk desk' : family.Records}
    (h : family.finish desk incoming = .ok (desk', published)) :
    desk'.journal = desk.journal ∧ published.lifecycle = .transmissionUncertain detail := by
  unfold finish at h
  split at h
  · simp only [bind_eq_ok, pure_eq_ok, Prod.mk.injEq] at h
    obtain ⟨_, _, rfl, rfl⟩ := h
    exact ⟨rfl, hlifecycle⟩
  · simp only [bind_eq_ok, pure_eq_ok, Prod.mk.injEq, advance, hlifecycle] at h
    obtain ⟨_, _, _, _, _, _, ⟨mid, r, inflight⟩, ⟨rfl, _⟩, saved, hsave, rfl, rfl⟩ := h
    obtain ⟨_, _, _, _, hjournal⟩ := Desk.save_eq_ok hsave
    exact ⟨hjournal, (hset _ _).trans hlifecycle⟩

theorem Drawer.finish_uncertain {ρ : Type} {shape : Shape ρ} {drawer : Drawer P shape}
    {act : Desk P shape → CommandResult → Except StorageError (Desk P shape × CommandResult)}
    (hact : ∀ {d d' : Desk P shape}, act d incoming = .ok (d', published) →
      d'.journal = d.journal ∧ published.lifecycle = .transmissionUncertain detail)
    (h : drawer.finish act s incoming = .ok (s', published)) :
    s'.journal = s.journal ∧ published.lifecycle = .transmissionUncertain detail := by
  simp only [Drawer.finish, bind_eq_ok, pure_eq_ok, Prod.mk.injEq] at h
  obtain ⟨⟨d, out⟩, hd, rfl, rfl⟩ := h
  exact hact hd

namespace Store

theorem finishLedgers_uncertain (hlifecycle : incoming.lifecycle = .transmissionUncertain detail)
    (h : s.finishLedgers incoming = .ok (s', published)) : s'.journal = s.journal := by
  simp only [finishLedgers, bind_eq_ok] at h
  obtain ⟨⟨s₁, i₁⟩, h₁, ⟨s₂, i₂⟩, h₂, ⟨s₃, i₃⟩, h₃, ⟨s₄, i₄⟩, h₄, ⟨s₅, i₅⟩, h₅, h₆⟩ := h
  obtain ⟨j₁, l₁⟩ := Drawer.finish_uncertain (ReservationEdition.finish_uncertain (fun _ _ => rfl) hlifecycle) h₁
  obtain ⟨j₂, l₂⟩ := Drawer.finish_uncertain (ReservationEdition.finish_uncertain (fun _ _ => rfl) l₁) h₂
  obtain ⟨j₃, l₃⟩ := Drawer.finish_uncertain (JobFamily.finish_uncertain (fun _ _ => rfl) l₂) h₃
  obtain ⟨j₄, l₄⟩ := Drawer.finish_uncertain (JobFamily.finish_uncertain (fun _ _ => rfl) l₃) h₄
  obtain ⟨j₅, l₅⟩ := Drawer.finish_uncertain (JobFamily.finish_uncertain (fun _ _ => rfl) l₄) h₅
  obtain ⟨j₆, _⟩ := Drawer.finish_uncertain (JobFamily.finish_uncertain (fun _ _ => rfl) l₅) h₆
  rw [j₆, j₅, j₄, j₃, j₂, j₁]

/-- Nothing but the command and the result of these requests changed. -/
structure Spares (requests : List RequestId) (s s' : Store P) : Prop where
  command {row : CommandRow P} (h : row.request ∉ requests) : row ∈ s'.journal.commands ↔ row ∈ s.journal.commands
  result {request : RequestId} (h : request ∉ requests) :
    s'.journal.results.find? request = s.journal.results.find? request

namespace Spares

variable {requests requests' : List RequestId} {s'' : Store P}

theorem refl : Spares requests s s := ⟨fun _ => Iff.rfl, fun _ => rfl⟩

theorem append (h : Spares requests s s') (h' : Spares requests' s' s'') : Spares (requests ++ requests') s s'' where
  command hrow := by
    rw [List.mem_append, not_or] at hrow
    rw [h'.command hrow.2, h.command hrow.1]
  result hrequest := by
    rw [List.mem_append, not_or] at hrequest
    rw [h'.result hrequest.2, h.result hrequest.1]

end Spares

theorem persistResult_spares {request : RequestId} {retire : Bool} :
    Spares [request] s (s.persistResult incoming request retire) where
  command {row} hrow := by
    rw [List.mem_singleton] at hrow
    simp only [persistResult, Table.mem_update]
    constructor
    · rintro ⟨old, hold, rfl⟩
      by_cases hreq : old.request = request
      · rw [if_pos hreq] at hrow
        exact absurd hreq hrow
      · rwa [if_neg hreq]
    · intro hmem
      exact ⟨row, hmem, if_neg hrow⟩
  result hrequest := by
    rw [List.mem_singleton] at hrequest
    simp only [persistResult, Table.find?_put, if_neg hrequest]

theorem recordResult_eq_ok (h : s.recordResult incoming = .ok s') :
    s.writeResultValue incoming incoming.request = .ok s' := by
  simp only [recordResult, writeAtomic, admitCommand, writeLedgers, perform, List.foldlM_nil, writeResult, bind_eq_ok,
    pure_eq_ok, Prod.mk.injEq, Prod.exists] at h
  obtain ⟨t, outcome, ⟨_, _, _, _, ⟨rfl, rfl⟩, h⟩, rfl⟩ := h
  simp only [bind_eq_ok, pure_eq_ok, Prod.mk.injEq, exists_eq_left'] at h
  obtain ⟨_, ⟨_, hdecode, hwrite⟩, rfl, _⟩ := h
  obtain ⟨_, rfl⟩ := decodeResult_eq_ok.mp hdecode
  exact hwrite

theorem recordResult_spares (hlifecycle : incoming.lifecycle = .transmissionUncertain detail)
    (h : s.recordResult incoming = .ok s') : Spares [incoming.request] s s' := by
  have hwrite := recordResult_eq_ok h
  simp only [writeResultValue, bind_eq_ok] at hwrite
  obtain ⟨_, _, _, _, _, _, ⟨mid, published⟩, hpublish, ⟨merged, retire⟩, _, bounded, _, profiles, _, _, _, hs⟩ :=
    hwrite
  have hjournal : mid.journal = s.journal := finishLedgers_uncertain hlifecycle hpublish
  rw [pure_eq_ok] at hs
  subst hs
  have hspares : Spares [incoming.request] { mid with profiles }
      ({ mid with profiles }.persistResult bounded incoming.request retire) := persistResult_spares
  exact ⟨fun hrow => (hspares.command hrow).trans (by rw [hjournal]),
    fun hreq => (hspares.result hreq).trans (by rw [hjournal])⟩

end Store

end Uncertain

namespace Store

variable {s s' : Store P} {after : Option RequestId} {limit : PageLimit}

omit [Wire P] in
theorem recorded_request {command : Command P} {results : List CommandResult} {now : UtcTimestamp} :
    (command.recorded results now).request = command.requestId := by
  cases hfind : results.find? (·.request = command.requestId) with
  | none =>
      rw [Command.recorded, hfind]
      rfl
  | some result =>
      have hresult : result.request = command.requestId := by simpa using List.find?_some hfind
      rw [Command.recorded, hfind]
      exact hresult

theorem recoverOne_spares {now : UtcTimestamp} {result result' : CommandResult}
    (h : s.recoverOne now result = .ok (s', result')) : Spares [result.request] s s' := by
  simp only [recoverOne] at h
  split_ifs at h with hdispatched
  · simp only [bind_eq_ok, pure_eq_ok, Prod.mk.injEq] at h
    obtain ⟨_, hrecord, rfl, _⟩ := h
    have hspares : Spares [(result.restarted now).request] s _ := recordResult_spares rfl hrecord
    exact hspares
  · simp only [pure_eq_ok, Prod.mk.injEq] at h
    exact h.1 ▸ .refl

theorem recoverEach_spares (now : UtcTimestamp) (results : List CommandResult) (commands : List (Command P)) :
    Spares (commands.map (·.requestId)) s (recoverEach now results s commands).1 ∧
      ∀ recovered, (recoverEach now results s commands).2 = .ok recovered → recovered.map (·.command) = commands := by
  induction commands generalizing s with
  | nil => exact ⟨.refl, fun recovered h => by cases h; rfl⟩
  | cons command commands ih =>
      cases hone : s.recoverOne now (command.recorded results now) with
      | error e =>
          simp only [recoverEach, hone]
          exact ⟨.refl, fun _ h => nomatch h⟩
      | ok next =>
          obtain ⟨next, result⟩ := next
          have hspares := recoverOne_spares hone
          rw [recorded_request] at hspares
          obtain ⟨hrest, hall⟩ := ih (s := next)
          simp only [recoverEach, hone]
          refine ⟨hspares.append hrest, fun recovered h => ?_⟩
          obtain ⟨rest, hok, rfl⟩ := map_eq_ok.mp h
          rw [List.map_cons, hall rest hok]

theorem unresolved_nodup : ((s.journal.commands.rows.filter (·.unresolved)).map request).Nodup :=
  s.journal.commands.nodup.sublist (List.filter_sublist.map _)

theorem unresolvedAfter_last {front back : List (CommandRow P)} {row : CommandRow P}
    (hpage : s.unresolvedAfter after = front ++ row :: back)
    (h : Spares ((front ++ [row]).map request) s s') : s'.unresolvedAfter (some row.request) = back := by
  have hsorted : (front ++ row :: back).Pairwise fun a b => a.request < b.request :=
    hpage ▸ above_pairwise unresolved_nodup
  have hle (a : CommandRow P) (ha : a ∈ front ++ [row]) : a.request ≤ row.request := by
    rcases List.mem_append.mp ha with hfront | hrow
    · exact (List.pairwise_append.mp hsorted).2.2 a hfront row List.mem_cons_self |>.le
    · rw [List.mem_singleton.mp hrow]
  rw [← above_last unresolved_nodup hpage]
  refine above_congr unresolved_nodup unresolved_nodup fun a ha => ?_
  have hnot : a.request ∉ (front ++ [row]).map request := by
    intro hmem
    obtain ⟨b, hb, heq⟩ := List.mem_map.mp hmem
    exact absurd (ha row.request rfl) (not_lt_of_ge (heq ▸ hle b hb))
  have hrow : a ∈ s'.journal.commands.rows ↔ a ∈ s.journal.commands.rows := h.command hnot
  rw [List.mem_filter, List.mem_filter, hrow]

variable (after limit) in
theorem recoverUnresolved_page (visit : Visit) :
    Spares (((s.unresolvedAfter after).take limit.value).map request) s
        (s.recoverUnresolved visit after limit).1 ∧
      ∀ batch, (s.recoverUnresolved visit after limit).2 = .ok batch →
        batch.map (·.command) = ((s.unresolvedAfter after).take limit.value).map (·.command) := by
  unfold recoverUnresolved
  split
  · exact ⟨.refl, fun _ h => nomatch h⟩
  · next batch hbatch =>
      simp only [recover, bind_eq_ok, pure_eq_ok] at hbatch
      obtain ⟨_, _, commands, hcommands, results, _, rfl⟩ := hbatch
      have hpage : commands = ((s.unresolvedAfter after).take limit.value).map (·.command) := by
        refine mapM_eq_map (fun h => ?_) hcommands
        simp only [bind_eq_ok, pure_eq_ok] at h
        obtain ⟨_, _, rfl⟩ := h
        rfl
      obtain ⟨hspares, hall⟩ := recoverEach_spares (s := s) visit.now results commands
      rw [hpage, List.map_map] at hspares
      exact ⟨hpage ▸ hspares, fun batch h => hpage ▸ hall batch h⟩

/-- What a recovery does with the commands that were pending when it started. -/
structure Scanned (limit : PageLimit) (visits : List Visit) (pending : List (CommandRow P)) (s : Store P)
    (run : Store P × List (RecoveredCommand P) × Recovery) : Prop where
  spares : Spares (pending.map request) s run.1
  visited : run.2.1.map (·.command) <+: pending.map (·.command)
  finished (h : run.2.2 = .finished) : run.2.1.map (·.command) = pending.map (·.command)
  advances : run.2.2 ≠ .unavailable
  enough (h : pending.length + limit.value ≤ limit.value * visits.length) : run.2.2 ≠ .unfinished

theorem Spares.mono {requests requests' : List RequestId} (h : Spares requests s s') (hsub : requests ⊆ requests') :
    Spares requests' s s' :=
  ⟨fun hrow => h.command fun hmem => hrow (hsub hmem), fun hreq => h.result fun hmem => hreq (hsub hmem)⟩

theorem Scanned.page {visits : List Visit} {front back : List (CommandRow P)} {row : CommandRow P} {next : Store P}
    {batch : List (RecoveredCommand P)} {run : Store P × List (RecoveredCommand P) × Recovery}
    (hspares : Spares ((front ++ [row]).map request) s next)
    (hbatch : batch.map (·.command) = (front ++ [row]).map (·.command))
    (hfull : (front ++ [row]).length = limit.value ∨ back = []) (h : Scanned limit visits back next run)
    (visit : Visit) :
    Scanned limit (visit :: visits) (front ++ row :: back) s (run.1, batch ++ run.2.1, run.2.2) := by
  have happend : front ++ row :: back = front ++ [row] ++ back := by simp
  rw [happend]
  refine ⟨?_, ?_, fun hfinished => ?_, h.advances, fun henough => h.enough ?_⟩
  · rw [List.map_append]
    exact hspares.append h.spares
  · rw [List.map_append, List.map_append, hbatch]
    exact (List.prefix_append_right_inj _).mpr h.visited
  · rw [List.map_append, List.map_append, hbatch, h.finished hfinished]
  · rw [List.length_append, List.length_cons, Nat.mul_succ] at henough
    rcases hfull with hfull | rfl
    · omega
    · have hmore : 0 < visits.length := by
        by_contra hnone
        have hzero : visits.length = 0 := by omega
        rw [hzero, List.length_append, List.length_singleton] at henough
        omega
      simpa using Nat.le_mul_of_pos_right limit.value hmore

omit [Wire P] in
theorem page_split {pending : List (CommandRow P)} {batch : List (RecoveredCommand P)} {last : RecoveredCommand P}
    (hlast : batch.getLast? = some last) (hpage : batch.map (·.command) = (pending.take limit.value).map (·.command)) :
    ∃ front row, pending.take limit.value = front ++ [row] ∧ row.command = last.command := by
  have hend : ((pending.take limit.value).getLast?).map (·.command) = some last.command := by
    rw [← List.getLast?_map, ← hpage, List.getLast?_map, hlast]
    rfl
  obtain ⟨row, hrow, hcommand⟩ := Option.map_eq_some_iff.mp hend
  obtain ⟨front, hfront⟩ := List.getLast?_eq_some_iff.mp hrow
  exact ⟨front, row, hfront, hcommand⟩

variable (after) in
theorem recoverCommands_scanned (visits : List Visit) :
    Scanned limit visits (s.unresolvedAfter after) s (recoverCommands limit visits after s) := by
  induction visits generalizing s after with
  | nil =>
      refine ⟨.refl, List.nil_prefix, (nomatch ·), (nomatch ·), fun h => ?_⟩
      have := limit.positive
      simp only [List.length_nil, Nat.mul_zero] at h
      omega
  | cons visit visits ih =>
      obtain ⟨hspares, hbatch⟩ := recoverUnresolved_page (s := s) after limit visit
      have hmono := hspares.mono (List.map_subset _ (List.take_subset _ _))
      cases hrun : s.recoverUnresolved visit after limit with
      | mk next out =>
          rw [hrun] at hspares hbatch hmono
          cases out with
          | error e =>
              simp only [recoverCommands, hrun]
              exact ⟨hmono, List.nil_prefix, (nomatch ·), (nomatch ·), fun _ => (nomatch ·)⟩
          | ok batch =>
              have hpage := hbatch batch rfl
              cases hlast : batch.getLast? with
              | none =>
                  rw [List.getLast?_eq_none_iff] at hlast
                  subst hlast
                  have hempty : s.unresolvedAfter after = [] := by
                    have hnil := List.map_eq_nil_iff.mp hpage.symm
                    rcases List.take_eq_nil_iff.mp hnil with hzero | hnil
                    · exact absurd hzero limit.positive.ne'
                    · exact hnil
                  simp only [recoverCommands, hrun, List.getLast?_nil]
                  exact ⟨hmono, List.nil_prefix, fun _ => by rw [hempty]; rfl, (nomatch ·), fun _ => (nomatch ·)⟩
              | some last =>
                  obtain ⟨front, row, hsplit, hrow⟩ := page_split hlast hpage
                  have hpending : s.unresolvedAfter after =
                      front ++ row :: (s.unresolvedAfter after).drop limit.value := by
                    conv_lhs => rw [← List.take_append_drop limit.value (s.unresolvedAfter after), hsplit]
                    rw [List.append_assoc, List.singleton_append]
                  have hafter : (∀ k ∈ after, k < row.request) := by
                    have hmem : row ∈ s.unresolvedAfter after := by
                      rw [hpending]
                      exact List.mem_append_right front List.mem_cons_self
                    exact (mem_above.mp hmem).2
                  have hadvance : after.any (row.command.requestId ≤ ·) = false := by
                    cases after with
                    | none => rfl
                    | some k => exact decide_eq_false (not_le_of_gt (hafter k rfl))
                  have hfull : (front ++ [row]).length = limit.value ∨
                      (s.unresolvedAfter after).drop limit.value = [] := by
                    rw [← hsplit, List.length_take, List.drop_eq_nil_iff]
                    omega
                  rw [hsplit] at hspares hpage
                  have hrest := ih (s := next) (some row.request)
                  rw [unresolvedAfter_last hpending hspares] at hrest
                  have hscanned := Scanned.page hspares hpage hfull hrest visit
                  rw [← hpending] at hscanned
                  simp only [recoverCommands, hrun, hlast, hadvance, Bool.false_eq_true, if_false, ← hrow]
                  exact hscanned

/-- However its results are rewritten on the way, a recovery reaches every unresolved command once and no other one. -/
theorem recovery_visits_unresolved (store : Store P) (limit : PageLimit) (visits : List Visit) :
    let (store', visited, recovery) := recoverCommands limit visits none store
    (visited.map (·.command.requestId)).Nodup ∧
    (∀ entry ∈ visited, ∃ row ∈ store.journal.commands, row.unresolved ∧ row.command = entry.command) ∧
    (recovery = .finished → ∀ row ∈ store.journal.commands, row.unresolved →
      ∃ entry ∈ visited, entry.command = row.command) ∧
    recovery ≠ .unavailable ∧
    ((store.journal.commands.rows.filter (·.unresolved)).length + limit.value ≤ limit.value * visits.length →
      recovery ≠ .unfinished) ∧
    ∀ row ∈ store.journal.commands, row.unresolved = false →
      row ∈ store'.journal.commands ∧
        store'.journal.results.find? row.request = store.journal.results.find? row.request := by
  have h : Scanned limit visits (store.unresolvedAfter none) store (recoverCommands limit visits none store) :=
    recoverCommands_scanned none visits
  have hpending (row : CommandRow P) : row ∈ store.unresolvedAfter none ↔
      row ∈ store.journal.commands ∧ row.unresolved := by
    rw [unresolvedAfter, mem_above, List.mem_filter, Table.mem_def]
    simp
  have hsorted : (store.unresolvedAfter none).Pairwise fun a b => a.request < b.request :=
    above_pairwise unresolved_nodup
  refine ⟨?_, fun entry hentry => ?_, fun hfinished row hrow hunresolved => ?_, h.advances, fun hlen => h.enough ?_,
    fun row hrow hresolved => ?_⟩
  · have hnodup : ((store.unresolvedAfter none).map fun row => row.command.requestId).Nodup :=
      List.pairwise_map.mpr (hsorted.imp fun hlt => hlt.ne)
    have hsub := (h.visited.sublist.map Command.requestId)
    rw [List.map_map, List.map_map] at hsub
    exact hnodup.sublist hsub
  · have hmem := h.visited.subset (List.mem_map_of_mem hentry)
    obtain ⟨row, hrow, hcommand⟩ := List.mem_map.mp hmem
    exact ⟨row, ((hpending row).mp hrow).1, ((hpending row).mp hrow).2, hcommand⟩
  · have hmem : row.command ∈ (store.unresolvedAfter none).map (·.command) :=
      List.mem_map_of_mem ((hpending row).mpr ⟨hrow, hunresolved⟩)
    rw [← h.finished hfinished] at hmem
    exact List.mem_map.mp hmem
  · rwa [unresolvedAfter, above_none_perm.length_eq]
  · have hspared : row.request ∉ (store.unresolvedAfter none).map request := by
      intro hmem
      obtain ⟨other, hother, heq⟩ := List.mem_map.mp hmem
      obtain ⟨hother, hunresolved⟩ := (hpending other).mp hother
      rw [Table.eq_of_key hother hrow heq, hresolved] at hunresolved
      cases hunresolved
    exact ⟨(h.spares.command hspared).mpr hrow, h.spares.result hspared⟩

end Store

section Sample

def sampleRestart : Store Document :=
  let dispatched := { sampleCommand with requestId := "a" }
  let admitted := { sampleCommand with requestId := "b" }
  { Store.empty with
    journal := {
      commands := (Table.empty.put ⟨admitted, true⟩).put ⟨dispatched, true⟩
      results := Table.empty.put ⟨"a", dispatched.result .dispatched 0, false, true⟩ } }

example :
    let visit : Visit := ⟨1, .ok ()⟩
    let (store, visited, recovery) :=
      Store.recoverCommands ⟨1, by decide, by decide⟩ [visit, visit, visit] none sampleRestart
    visited.map (·.command.requestId) = ["a", "b"] ∧ recovery = .finished ∧
      (store.journal.result? "a").map (·.lifecycle.isTransmissionUncertain) = some true := by
  decide +kernel

end Sample

end OcppBridge.Operational
