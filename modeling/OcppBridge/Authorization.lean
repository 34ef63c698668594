import OcppBridge.Operational.Contract
import OcppBridge.Table
import OcppBridge.Transition

namespace OcppBridge.Authorization

open Storage Transaction Function
open Operational (CanonicalResource ResourceRef UtcTimestamp)

inductive AuthorizationState
  | active
  | revoked
  deriving DecidableEq, Repr

structure AuthorizationChange where
  reference : String
  resource : ResourceRef
  state : AuthorizationState
  revision : Nat
  changedAt : UtcTimestamp
  expiresAt : Option UtcTimestamp
  deriving DecidableEq, Repr

inductive AuthorizationDenialReason
  | unknown
  | revoked
  | expired
  | resourceDenied
  | providerUnavailable
  deriving DecidableEq, Repr

inductive AuthorizationDecision
  | allowed (reference : String) (expiresAt : Option UtcTimestamp)
  | denied (reason : AuthorizationDenialReason)
  deriving DecidableEq, Repr

inductive AuthorizationPolicyError
  | conflictingRevision
  | staleRevision
  deriving DecidableEq, Repr

def resourceScopeAllows (granted requested : ResourceRef) : Bool :=
  granted.bridgeId = requested.bridgeId && granted.stationId = requested.stationId &&
    match granted.resource, requested.resource with
    | none, _ => true
    | some (.connector left), some (.connector right) => left = right
    | some (.evse leftEvse leftConnector), some (.evse rightEvse rightConnector) =>
        leftEvse = rightEvse && (leftConnector.isNone || leftConnector = rightConnector)
    | _, _ => false

def AuthorizationChange.judge (entry : AuthorizationChange) (reference : String) (requested : ResourceRef)
    (now : UtcTimestamp) : AuthorizationDecision :=
  if entry.state = .revoked then .denied .revoked
  else if entry.expiresAt.any (· ≤ now) then .denied .expired
  else if resourceScopeAllows entry.resource requested then .allowed reference entry.expiresAt
  else .denied .resourceDenied

structure LocalAuthorizationPolicy where
  entries : String → Option AuthorizationChange

open LocalAuthorizationPolicy

namespace LocalAuthorizationPolicy

def apply (p : LocalAuthorizationPolicy) (change : AuthorizationChange) :
    Except AuthorizationPolicyError LocalAuthorizationPolicy :=
  let inserted : LocalAuthorizationPolicy := ⟨update p.entries change.reference (some change)⟩
  match p.entries change.reference with
  | none => .ok inserted
  | some current =>
      if change.revision < current.revision then .error .staleRevision
      else if current.revision = change.revision ∧ current ≠ change then .error .conflictingRevision
      else .ok inserted

def restore (changes : List AuthorizationChange) : Except AuthorizationPolicyError LocalAuthorizationPolicy :=
  changes.foldlM apply ⟨fun _ => none⟩

def decide (p : LocalAuthorizationPolicy) (reference : String) (requested : ResourceRef) (now : UtcTimestamp) :
    AuthorizationDecision :=
  match p.entries reference with
  | none => .denied .unknown
  | some entry => entry.judge reference requested now

end LocalAuthorizationPolicy

/-- The `authorization_changes` table. -/
abbrev Rows := Table AuthorizationChange.reference

/-- The row is not overwritten by the change: it is newer, or another change has its revision. -/
def Refuses (row change : AuthorizationChange) : Prop :=
  ¬(row.revision < change.revision ∨
    (change.revision = row.revision ∧ change.resource = row.resource ∧ change.state = row.state ∧
      change.changedAt = row.changedAt ∧ change.expiresAt = row.expiresAt))

instance (row change : AuthorizationChange) : Decidable (Refuses row change) := inferInstanceAs (Decidable (¬_))

def writeAuthorization (rows : Rows) (change : AuthorizationChange) : Except StorageError Rows := do
  require (∀ row ∈ rows.find? change.reference, ¬Refuses row change) ⟨.conflict, "authorization revision is stale"⟩
  pure (rows.put change)

/-- An atomic write; what it does to the other tables stands before and after its authorization changes. -/
structure AtomicStoreWrite (ρ : Type) where
  before : ρ → Except StorageError ρ
  authorizationChanges : List AuthorizationChange
  after : ρ → Except StorageError ρ

structure Store (ρ : Type) where
  rows : Rows
  rest : ρ

namespace Store

variable {ρ : Type}

def writeAtomic (s : Store ρ) (w : AtomicStoreWrite ρ) : Except StorageError (Store ρ) := do
  let rest ← w.before s.rest
  let rows ← w.authorizationChanges.foldlM writeAuthorization s.rows
  let rest ← w.after rest
  pure ⟨rows, rest⟩

def handle (s : Store ρ) (w : AtomicStoreWrite ρ) : Except StorageError Unit × Store ρ :=
  match s.writeAtomic w with
  | .ok s' => (.ok (), s')
  | .error e => (.error e, s)

end Store

/-- How far a call of `apply_change` has come. -/
inductive Progress
  | checked
  | queued
  | committed
  | returned (result : Except StorageError Unit)

structure Call where
  change : AuthorizationChange
  progress : Progress

structure Service (ρ : Type) where
  store : Store ρ
  policy : LocalAuthorizationPolicy
  calls : Nat → Option Call

open Service

/-- The steps of the concurrent calls, of other writers of the store and of the host. -/
inductive Event (ρ : Type)
  | start (call : Nat) (change : AuthorizationChange)
  | submit (call : Nat) (refusal : Option StorageError)
  | handle (call : Nat) (refusal : Option StorageError)
  | publish (call : Nat)
  | write (work : ρ → Except StorageError ρ)
  | restart

def conflicts : StorageError := ⟨.conflict, "authorization revision conflicts"⟩

/-- The write of `apply_change`. -/
def changeWrite {ρ : Type} (change : AuthorizationChange) (refusal : Option StorageError) : AtomicStoreWrite ρ where
  before := fun rest => match refusal with
    | none => .ok rest
    | some e => .error e
  authorizationChanges := [change]
  after := .ok

namespace Service

variable {ρ : Type}

/-- A service that has been recovered from the store. -/
def recover (store : Store ρ) : Except StorageError (Service ρ) :=
  match restore store.rows.rows with
  | .ok policy => .ok ⟨store, policy, fun _ => none⟩
  | .error _ => .error ⟨.integrityFailure, "persisted authorization revisions conflict"⟩

def advance (s : Service ρ) (i : Nat) (change : AuthorizationChange) (progress : Progress) : Service ρ :=
  { s with calls := update s.calls i (some ⟨change, progress⟩) }

def start (s : Service ρ) (i : Nat) (change : AuthorizationChange) : Service ρ :=
  match s.policy.apply change with
  | .ok _ => s.advance i change .checked
  | .error _ => s.advance i change (.returned (.error conflicts))

def submit (s : Service ρ) (i : Nat) (change : AuthorizationChange) (refusal : Option StorageError) : Service ρ :=
  if 2 ^ 63 ≤ change.revision then
    s.advance i change
      (.returned (.error ⟨.invalidRequest, "authorization revision exceeds SQLite integer range"⟩))
  else match refusal with
    | some e => s.advance i change (.returned (.error e))
    | none => s.advance i change .queued

def handle (s : Service ρ) (i : Nat) (change : AuthorizationChange) (refusal : Option StorageError) : Service ρ :=
  match s.store.handle (changeWrite change refusal) with
  | (.ok _, store) => { s.advance i change .committed with store }
  | (.error e, store) => { s.advance i change (.returned (.error e)) with store }

def publish (s : Service ρ) (i : Nat) (change : AuthorizationChange) : Service ρ :=
  match s.policy.apply change with
  | .ok policy => { s.advance i change (.returned (.ok ())) with policy }
  | .error _ => s.advance i change (.returned (.error conflicts))

def restart (s : Service ρ) : Service ρ :=
  match recover s.store with
  | .ok recovered =>
      { recovered with calls := fun i => (s.calls i).filter fun call => call.progress matches .returned _ }
  | .error _ => s

def step (s : Service ρ) : Event ρ → Service ρ
  | .start i change =>
      match s.calls i with
      | none => s.start i change
      | some _ => s
  | .submit i refusal =>
      match s.calls i with
      | some ⟨change, .checked⟩ => s.submit i change refusal
      | _ => s
  | .handle i refusal =>
      match s.calls i with
      | some ⟨change, .queued⟩ => s.handle i change refusal
      | _ => s
  | .publish i =>
      match s.calls i with
      | some ⟨change, .committed⟩ => s.publish i change
      | _ => s
  | .write work => { s with store := (s.store.handle ⟨work, [], .ok⟩).2 }
  | .restart => s.restart

def run (s : Service ρ) (es : List (Event ρ)) : Service ρ := es.foldl step s

def Quiescent (s : Service ρ) : Prop := ∀ i call, s.calls i = some call → ∃ result, call.progress = .returned result

end Service

section Revisions

variable {ρ : Type} {p p' : LocalAuthorizationPolicy} {rows rows' : Rows} {change row : AuthorizationChange}

def Supersedes (later earlier : AuthorizationChange) : Prop :=
  earlier.revision ≤ later.revision ∧ (earlier.revision = later.revision → later = earlier)

theorem Supersedes.refl (change : AuthorizationChange) : Supersedes change change := ⟨Nat.le_refl _, fun _ => rfl⟩

theorem Supersedes.trans {a b c : AuthorizationChange} (hab : Supersedes a b) (hbc : Supersedes b c) :
    Supersedes a c := by
  refine ⟨Nat.le_trans hbc.1 hab.1, ?_⟩
  intro h
  have hbc' : c.revision = b.revision := Nat.le_antisymm hbc.1 (h ▸ hab.1)
  rw [hab.2 (hbc' ▸ h), hbc.2 hbc']

theorem Supersedes.antisymm {a b : AuthorizationChange} (hab : Supersedes a b) (hba : Supersedes b a) : a = b :=
  hab.2 (Nat.le_antisymm hab.1 hba.1)

theorem not_refuses_iff (h : row.reference = change.reference) : ¬Refuses row change ↔ Supersedes change row := by
  rw [Refuses, Classical.not_not, Supersedes]
  constructor
  · rintro (hlt | ⟨hrevision, hresource, hstate, hchanged, hexpires⟩)
    · exact ⟨Nat.le_of_lt hlt, fun heq => absurd heq (Nat.ne_of_lt hlt)⟩
    · refine ⟨Nat.le_of_eq hrevision.symm, fun _ => ?_⟩
      cases change
      cases row
      simp_all
  · rintro ⟨hle, heq⟩
    by_cases hlt : row.revision < change.revision
    · exact .inl hlt
    · rw [heq (Nat.le_antisymm hle (Nat.le_of_not_lt hlt))]
      exact .inr ⟨rfl, rfl, rfl, rfl, rfl⟩

theorem apply_eq_ok : p.apply change = .ok p' ↔
    (∀ current, p.entries change.reference = some current → Supersedes change current) ∧
      p' = ⟨update p.entries change.reference (some change)⟩ := by
  unfold apply
  cases hentry : p.entries change.reference with
  | none => simp [eq_comm]
  | some current =>
      simp only [Option.some.injEq, forall_eq']
      split_ifs with hstale hconflict
      · simp only [false_iff, not_and]
        exact fun h => absurd h.1 (Nat.not_le_of_lt hstale)
      · simp only [false_iff, not_and]
        exact fun h => absurd (h.2 hconflict.1).symm hconflict.2
      · have hsupersedes : Supersedes change current := by
          refine ⟨Nat.le_of_not_lt hstale, fun heq => ?_⟩
          by_contra hne
          exact hconflict ⟨heq, fun h => hne h.symm⟩
        simp [hsupersedes, eq_comm]

theorem writeAuthorization_eq_ok : writeAuthorization rows change = .ok rows' ↔
    (∀ row, rows.find? change.reference = some row → Supersedes change row) ∧ rows' = rows.put change := by
  have hiff : (∀ row ∈ rows.find? change.reference, ¬Refuses row change) ↔
      ∀ row, rows.find? change.reference = some row → Supersedes change row := by
    constructor
    · intro h row hrow
      exact (not_refuses_iff (Table.find?_eq_some.mp hrow).2).mp (h row hrow)
    · intro h row hrow
      exact (not_refuses_iff (Table.find?_eq_some.mp hrow).2).mpr (h row hrow)
  simp only [writeAuthorization, bind_eq_ok, require_eq_ok, pure_eq_ok, hiff]
  constructor
  · rintro ⟨_, h, rfl⟩
    exact ⟨h, rfl⟩
  · rintro ⟨h, rfl⟩
    exact ⟨(), h, rfl⟩

theorem foldlM_apply (changes : List AuthorizationChange) (hnodup : (changes.map (·.reference)).Nodup)
    (hfresh : ∀ change ∈ changes, p.entries change.reference = none) :
    changes.foldlM apply p =
      .ok ⟨fun reference => (changes.find? (·.reference = reference)).or (p.entries reference)⟩ := by
  induction changes generalizing p with
  | nil => rfl
  | cons change changes ih =>
      obtain ⟨hnew, hnodup⟩ := List.nodup_cons.mp hnodup
      have happly : p.apply change = .ok ⟨update p.entries change.reference (some change)⟩ := by
        apply apply_eq_ok.mpr ⟨?_, rfl⟩
        rw [hfresh change List.mem_cons_self]
        nofun
      rw [List.foldlM_cons, happly]
      refine (ih hnodup ?_).trans ?_
      · intro other hother
        have hne : other.reference ≠ change.reference := by
          intro heq
          exact hnew (List.mem_map.mpr ⟨other, hother, heq⟩)
        simp only [update_of_ne hne]
        exact hfresh other (List.mem_cons_of_mem _ hother)
      · congr 2
        funext reference
        by_cases heq : change.reference = reference
        · subst heq
          have hnone : changes.find? (·.reference = change.reference) = none := by
            apply List.find?_eq_none.mpr
            intro other hother hsame
            exact hnew (List.mem_map.mpr ⟨other, hother, of_decide_eq_true hsame⟩)
          simp [hnone]
        · simp [heq, update_of_ne (Ne.symm heq)]

theorem restore_rows (rows : Rows) : restore rows.rows = .ok ⟨rows.find?⟩ := by
  have h := foldlM_apply (p := ⟨fun _ => none⟩) rows.rows rows.nodup (fun _ _ => rfl)
  simp only [Option.or_none] at h
  exact h

end Revisions

section Service

variable {ρ : Type} {s : Service ρ} {change row : AuthorizationChange} {i : Nat}

namespace Service

/-- What memory and store have to do with each other: memory is never ahead, and what it misses is on its way. -/
structure Consistent (s : Service ρ) : Prop where
  published : ∀ reference entry, s.policy.entries reference = some entry →
    ∃ row, s.store.rows.find? reference = some row ∧ Supersedes row entry
  committed : ∀ i change, s.calls i = some ⟨change, .committed⟩ →
    ∃ row, s.store.rows.find? change.reference = some row ∧ Supersedes row change
  pending : ∀ reference row, s.store.rows.find? reference = some row →
    s.policy.entries reference = some row ∨ ∃ i, s.calls i = some ⟨row, .committed⟩
  acknowledged : ∀ i change, s.calls i = some ⟨change, .returned (.ok ())⟩ →
    ∃ entry, s.policy.entries change.reference = some entry ∧ change.revision ≤ entry.revision

/-- What a step may do: the index and the rows only move to changes that supersede the ones before. -/
structure Moves (s s' : Service ρ) : Prop where
  policy : ∀ reference entry, s.policy.entries reference = some entry →
    ∃ later, s'.policy.entries reference = some later ∧ Supersedes later entry
  rows : ∀ reference row, s.store.rows.find? reference = some row →
    ∃ later, s'.store.rows.find? reference = some later ∧ Supersedes later row

open Moves

theorem Moves.refl (s : Service ρ) : Moves s s :=
  ⟨fun _ entry h => ⟨entry, h, .refl entry⟩, fun _ row h => ⟨row, h, .refl row⟩⟩

theorem Moves.trans {s' s'' : Service ρ} (h : Moves s s') (h' : Moves s' s'') : Moves s s'' where
  policy := by
    intro reference entry hentry
    obtain ⟨later, hlater, hsup⟩ := h.policy reference entry hentry
    obtain ⟨last, hlast, hsup'⟩ := h'.policy reference later hlater
    exact ⟨last, hlast, hsup'.trans hsup⟩
  rows := by
    intro reference row hrow
    obtain ⟨later, hlater, hsup⟩ := h.rows reference row hrow
    obtain ⟨last, hlast, hsup'⟩ := h'.rows reference later hlater
    exact ⟨last, hlast, hsup'.trans hsup⟩

variable {progress : Progress}

theorem calls_advance {j : Nat} {call : Call} (h : (s.advance i change progress).calls j = some call) :
    call = ⟨change, progress⟩ ∨ s.calls j = some call := by
  by_cases hji : j = i
  · subst hji
    simp only [advance, update_self, Option.some.injEq] at h
    exact .inl h.symm
  · simp only [advance, update_of_ne hji] at h
    exact .inr h

theorem Consistent.pending_advance {reference : String} (h : s.Consistent)
    (hrow : s.store.rows.find? reference = some row) (hcall : s.calls i ≠ some ⟨row, .committed⟩) :
    s.policy.entries reference = some row ∨ ∃ j, (s.advance i change progress).calls j = some ⟨row, .committed⟩ := by
  obtain hentry | ⟨j, hj⟩ := h.pending reference row hrow
  · exact .inl hentry
  · have hji : j ≠ i := by
      rintro rfl
      exact hcall hj
    exact .inr ⟨j, by simpa only [advance, update_of_ne hji] using hj⟩

theorem Consistent.advance (h : s.Consistent)
    (hcall : ∀ reference row, s.store.rows.find? reference = some row → s.calls i ≠ some ⟨row, .committed⟩)
    (hprogress : progress ≠ .committed) (hok : progress ≠ .returned (.ok ())) :
    (s.advance i change progress).Consistent where
  published := h.published
  committed := by
    intro j other hj
    obtain heq | hj := calls_advance hj
    · exact absurd (congrArg Call.progress heq).symm hprogress
    · exact h.committed j other hj
  pending := fun reference row hrow => h.pending_advance hrow (hcall reference row hrow)
  acknowledged := by
    intro j other hj
    obtain heq | hj := calls_advance hj
    · exact absurd (congrArg Call.progress heq).symm hok
    · exact h.acknowledged j other hj

theorem handle_changeWrite (store : Store ρ) (change : AuthorizationChange) (refusal : Option StorageError) :
    (∃ e, store.handle (changeWrite change refusal) = (.error e, store)) ∨
      (∀ row, store.rows.find? change.reference = some row → Supersedes change row) ∧
        store.handle (changeWrite change refusal) = (.ok (), ⟨store.rows.put change, store.rest⟩) := by
  unfold Store.handle
  cases hwrite : store.writeAtomic (changeWrite change refusal) with
  | error e => exact .inl ⟨e, rfl⟩
  | ok store' =>
      cases refusal with
      | some e => cases hwrite
      | none =>
          simp only [Store.writeAtomic, changeWrite, List.foldlM_cons, List.foldlM_nil, bind_eq_ok, pure_eq_ok,
            writeAuthorization_eq_ok, Except.ok.injEq] at hwrite
          obtain ⟨_, rfl, _, ⟨_, ⟨hsup, rfl⟩, rfl⟩, _, rfl, rfl⟩ := hwrite
          exact .inr ⟨hsup, rfl⟩

theorem find?_put_supersedes {rows : Rows}
    (hsup : ∀ row, rows.find? change.reference = some row → Supersedes change row) (reference : String)
    (row : AuthorizationChange) (hrow : rows.find? reference = some row) :
    ∃ later, (rows.put change).find? reference = some later ∧ Supersedes later row := by
  by_cases href : reference = change.reference
  · subst href
    exact ⟨change, by rw [Table.find?_put, if_pos rfl], hsup row hrow⟩
  · exact ⟨row, by rw [Table.find?_put, if_neg href, hrow], .refl row⟩

theorem Consistent.commit (h : s.Consistent) (hcall : s.calls i = some ⟨change, .queued⟩)
    (hsup : ∀ row, s.store.rows.find? change.reference = some row → Supersedes change row) :
    Consistent { s.advance i change .committed with store := ⟨s.store.rows.put change, s.store.rest⟩ } := by
  have hrows := find?_put_supersedes hsup
  constructor
  · intro reference entry hentry
    obtain ⟨row, hrow, hrowsup⟩ := h.published reference entry hentry
    obtain ⟨later, hlater, hlatersup⟩ := hrows reference row hrow
    exact ⟨later, hlater, hlatersup.trans hrowsup⟩
  · intro j other hj
    obtain heq | hj := calls_advance hj
    · cases heq
      exact ⟨change, by rw [Table.find?_put, if_pos rfl], .refl change⟩
    · obtain ⟨row, hrow, hrowsup⟩ := h.committed j other hj
      obtain ⟨later, hlater, hlatersup⟩ := hrows _ row hrow
      exact ⟨later, hlater, hlatersup.trans hrowsup⟩
  · intro reference row hrow
    rw [Table.find?_put] at hrow
    split_ifs at hrow with href
    · cases hrow
      exact .inr ⟨i, by simp only [Service.advance, update_self]⟩
    · exact h.pending_advance hrow (by simp [hcall])
  · intro j other hj
    obtain heq | hj := calls_advance hj
    · cases heq
    · exact h.acknowledged j other hj

theorem Consistent.not_latest (h : s.Consistent) {e : AuthorizationPolicyError}
    (happly : s.policy.apply change = .error e) {reference : String}
    (hrow : s.store.rows.find? reference = some change) : False := by
  obtain rfl := (Table.find?_eq_some.mp hrow).2
  have hlatest : ∀ current, s.policy.entries change.reference = some current → Supersedes change current := by
    intro current hcurrent
    obtain ⟨row, hrow', hsup⟩ := h.published _ current hcurrent
    cases hrow.symm.trans hrow'
    exact hsup
  have hok := apply_eq_ok.mpr ⟨hlatest, rfl⟩
  rw [happly] at hok
  cases hok

theorem Consistent.publish (h : s.Consistent) (hcall : s.calls i = some ⟨change, .committed⟩) :
    (s.publish i change).Consistent := by
  unfold Service.publish
  cases happly : s.policy.apply change with
  | error e =>
      refine h.advance (fun reference row hrow hlatest => ?_) nofun nofun
      rw [hcall] at hlatest
      cases hlatest
      exact h.not_latest happly hrow
  | ok policy =>
      obtain ⟨hsup, rfl⟩ := apply_eq_ok.mp happly
      obtain ⟨latest, hlatest, hlatestsup⟩ := h.committed i change hcall
      constructor
      · intro reference entry hentry
        by_cases href : reference = change.reference
        · subst href
          simp only [update_self, Option.some.injEq] at hentry
          subst hentry
          exact ⟨latest, hlatest, hlatestsup⟩
        · simp only [update_of_ne href] at hentry
          exact h.published reference entry hentry
      · intro j other hj
        obtain heq | hj := calls_advance hj
        · cases heq
        · exact h.committed j other hj
      · intro reference row hrow
        by_cases href : reference = change.reference
        · -- the latest row of the reference is in memory already, or it is what is published now, or it is on its way
          subst href
          obtain hentry | ⟨j, hj⟩ := h.pending _ row hrow
          · cases hlatest.symm.trans hrow
            have heq := hlatestsup.antisymm (hsup latest hentry)
            exact .inl (by simp [heq])
          · by_cases hji : j = i
            · subst hji
              rw [hcall] at hj
              cases hj
              exact .inl (by simp)
            · exact .inr ⟨j, by simpa only [Service.advance, update_of_ne hji] using hj⟩
        · have hother : s.calls i ≠ some ⟨row, .committed⟩ := by
            intro hlatest
            rw [hcall] at hlatest
            cases hlatest
            exact href (Table.find?_eq_some.mp hrow).2.symm
          refine (h.pending_advance hrow hother).imp_left fun hentry => ?_
          simpa only [update_of_ne href] using hentry
      · intro j other hj
        obtain heq | hj := calls_advance hj
        · cases heq
          exact ⟨change, by simp, Nat.le_refl _⟩
        · obtain ⟨entry, hentry, hle⟩ := h.acknowledged j other hj
          by_cases href : other.reference = change.reference
          · rw [href] at hentry
            exact ⟨change, by simp [href], Nat.le_trans hle (hsup entry hentry).1⟩
          · exact ⟨entry, by simpa only [update_of_ne href] using hentry, hle⟩

theorem recover_eq (store : Store ρ) : recover store = .ok ⟨store, ⟨store.rows.find?⟩, fun _ => none⟩ := by
  rw [recover, restore_rows]

theorem restart_eq (s : Service ρ) : s.restart = ⟨s.store, ⟨s.store.rows.find?⟩,
    fun i => (s.calls i).filter fun call => call.progress matches .returned _⟩ := by
  rw [restart, recover_eq]

theorem Consistent.restart (h : s.Consistent) : s.restart.Consistent := by
  rw [restart_eq]
  constructor
  · intro reference row hrow
    exact ⟨row, hrow, .refl row⟩
  · intro j other hj
    obtain ⟨_, hreturned⟩ := Option.filter_eq_some_iff.mp hj
    cases hreturned
  · intro reference row hrow
    exact .inl hrow
  · intro j other hj
    obtain ⟨hj, _⟩ := Option.filter_eq_some_iff.mp hj
    obtain ⟨entry, hentry, hle⟩ := h.acknowledged j other hj
    obtain ⟨row, hrow, hsup⟩ := h.published _ entry hentry
    exact ⟨row, hrow, Nat.le_trans hle hsup.1⟩

theorem rows_write (store : Store ρ) (work : ρ → Except StorageError ρ) :
    (store.handle ⟨work, [], .ok⟩).2.rows = store.rows := by
  unfold Store.handle
  cases hwrite : store.writeAtomic ⟨work, [], .ok⟩ with
  | error e => rfl
  | ok store' =>
      simp only [Store.writeAtomic, List.foldlM_nil, bind_eq_ok, pure_eq_ok] at hwrite
      obtain ⟨_, _, _, rfl, _, _, rfl⟩ := hwrite
      rfl

inductive Stepped (s : Service ρ) : Service ρ → Prop
  | stay : Stepped s s
  | advance (i : Nat) (change : AuthorizationChange) (progress : Progress)
      (hcall : ∀ c, s.calls i = some c → c.progress ≠ .committed) (hprogress : progress ≠ .committed)
      (hok : progress ≠ .returned (.ok ())) : Stepped s (s.advance i change progress)
  | commit (i : Nat) (change : AuthorizationChange) (hcall : s.calls i = some ⟨change, .queued⟩)
      (hsup : ∀ row, s.store.rows.find? change.reference = some row → Supersedes change row) :
      Stepped s { s.advance i change .committed with store := ⟨s.store.rows.put change, s.store.rest⟩ }
  | publish (i : Nat) (change : AuthorizationChange) (hcall : s.calls i = some ⟨change, .committed⟩) :
      Stepped s (s.publish i change)
  | write (store : Store ρ) (hrows : store.rows = s.store.rows) : Stepped s { s with store }
  | restart : Stepped s s.restart

theorem step_stepped (s : Service ρ) (e : Event ρ) : Stepped s (s.step e) := by
  cases e with
  | start i change =>
      rw [step]
      split
      · next hcall =>
          have hnone : ∀ c, s.calls i = some c → c.progress ≠ .committed := by simp [hcall]
          unfold start
          split
          · exact .advance i change _ hnone nofun nofun
          · exact .advance i change _ hnone nofun nofun
      · exact .stay
  | submit i refusal =>
      rw [step]
      split
      · next change hcall =>
          have hchecked : ∀ c, s.calls i = some c → c.progress ≠ .committed := by simp [hcall]
          unfold submit
          split_ifs
          · exact .advance i change _ hchecked nofun nofun
          · split
            · exact .advance i change _ hchecked nofun nofun
            · exact .advance i change _ hchecked nofun nofun
      · exact .stay
  | handle i refusal =>
      rw [step]
      split
      · next change hcall =>
          unfold handle
          obtain ⟨e, hstore⟩ | ⟨hsup, hstore⟩ := handle_changeWrite s.store change refusal
          · rw [hstore]
            exact .advance i change _ (by simp [hcall]) nofun nofun
          · rw [hstore]
            exact .commit i change hcall hsup
      · exact .stay
  | publish i =>
      rw [step]
      split
      · next change hcall => exact .publish i change hcall
      · exact .stay
  | write work => exact .write _ (rows_write s.store work)
  | restart => exact .restart

theorem Consistent.step (h : s.Consistent) (e : Event ρ) : (s.step e).Consistent := by
  have hstep := s.step_stepped e
  generalize s.step e = s' at hstep ⊢
  cases hstep with
  | stay => exact h
  | advance i change progress hcall hprogress hok =>
      exact h.advance (fun _ _ _ hcommitted => hcall _ hcommitted rfl) hprogress hok
  | commit i change hcall hsup => exact h.commit hcall hsup
  | publish i change hcall => exact h.publish hcall
  | write store hrows =>
      exact ⟨by simpa only [hrows] using h.published, by simpa only [hrows] using h.committed,
        by simpa only [hrows] using h.pending, h.acknowledged⟩
  | restart => exact h.restart

theorem Consistent.moves (h : s.Consistent) (e : Event ρ) : Moves s (s.step e) := by
  have hstep := s.step_stepped e
  generalize s.step e = s' at hstep ⊢
  cases hstep with
  | stay | advance => exact ⟨(refl s).policy, (refl s).rows⟩
  | commit i change hcall hsup => exact ⟨(refl s).policy, find?_put_supersedes hsup⟩
  | publish i change hcall =>
      unfold Service.publish
      cases happly : s.policy.apply change with
      | error error => exact ⟨(refl s).policy, (refl s).rows⟩
      | ok policy =>
          obtain ⟨hsup, rfl⟩ := apply_eq_ok.mp happly
          refine ⟨?_, (refl s).rows⟩
          intro reference entry hentry
          by_cases href : reference = change.reference
          · subst href
            exact ⟨change, by simp, hsup entry hentry⟩
          · exact ⟨entry, by simpa only [update_of_ne href] using hentry, .refl entry⟩
  | write store hrows => exact ⟨(refl s).policy, by simpa only [hrows] using (refl s).rows⟩
  | restart =>
      rw [restart_eq]
      exact ⟨h.published, (refl s).rows⟩

theorem recovered_consistent {store : Store ρ} (h : recover store = .ok s) : s.Consistent := by
  rw [recover_eq] at h
  cases h
  exact ⟨fun _ row hrow => ⟨row, hrow, .refl row⟩, nofun, fun _ _ hrow => .inl hrow, nofun⟩

theorem Consistent.run (h : s.Consistent) (es : List (Event ρ)) : (s.run es).Consistent :=
  Transition.run_invariant (P := Consistent) (fun _ e h => h.step e) es h

theorem Consistent.moves_run (h : s.Consistent) (es : List (Event ρ)) : Moves s (s.run es) := by
  induction es generalizing s with
  | nil => exact .refl s
  | cons e es ih => exact (h.moves e).trans (ih (h.step e))

def Outdated (change row : AuthorizationChange) : Prop :=
  change.revision < row.revision ∨ change.revision = row.revision ∧ change ≠ row

theorem Outdated.not_supersedes (h : Outdated change row) : ¬Supersedes change row := by
  rintro ⟨hle, heq⟩
  obtain hlt | ⟨hrevision, hne⟩ := h
  · exact absurd hle (Nat.not_le_of_lt hlt)
  · exact hne (heq hrevision.symm)

theorem foldlM_refused {rows rows' : Rows} {changes : List AuthorizationChange} (hmem : change ∈ changes)
    (hrow : rows.find? change.reference = some row) (hsup : ¬Supersedes change row) :
    changes.foldlM writeAuthorization rows ≠ .ok rows' := by
  intro hok
  induction changes generalizing rows row with
  | nil => cases hmem
  | cons first changes ih =>
      simp only [List.foldlM_cons, bind_eq_ok, writeAuthorization_eq_ok] at hok
      obtain ⟨_, ⟨hfirst, rfl⟩, hok⟩ := hok
      obtain rfl | hmem := List.mem_cons.mp hmem
      · exact hsup (hfirst row hrow)
      · -- an earlier change of the same write can only leave a later row
        obtain ⟨later, hlater, hlatersup⟩ := find?_put_supersedes hfirst _ row hrow
        exact ih hmem hlater (fun h => hsup (h.trans hlatersup)) hok

theorem handle_refused {store : Store ρ} {w : AtomicStoreWrite ρ} (hmem : change ∈ w.authorizationChanges)
    (hrow : store.rows.find? change.reference = some row) (houtdated : Outdated change row) :
    ∃ e, store.handle w = (.error e, store) := by
  unfold Store.handle
  cases hwrite : store.writeAtomic w with
  | error e => exact ⟨e, rfl⟩
  | ok store' =>
      simp only [Store.writeAtomic, bind_eq_ok] at hwrite
      obtain ⟨_, _, rows, hrows, _⟩ := hwrite
      exact absurd hrows (foldlM_refused hmem hrow houtdated.not_supersedes)

/-- In every interleaving the revisions in memory do not go back and are not ahead of the store, and an acknowledged
change is what later decisions are made by, unless by a newer one. -/
theorem run_authorization (store : Store ρ) : ∃ service, recover store = .ok service ∧ ∀ es : List (Event ρ),
    (∀ e reference entry, (service.run es).policy.entries reference = some entry →
      (∃ later, ((service.run es).step e).policy.entries reference = some later ∧ entry.revision ≤ later.revision) ∧
      ∃ row, (service.run es).store.rows.find? reference = some row ∧ entry.revision ≤ row.revision) ∧
    (∀ i change, (service.run es).calls i = some ⟨change, .returned (.ok ())⟩ → ∀ later,
      ∃ entry, ((service.run es).run later).policy.entries change.reference = some entry ∧
        change.revision ≤ entry.revision ∧ ∀ requested now,
          ((service.run es).run later).policy.decide change.reference requested now =
            entry.judge change.reference requested now) ∧
    (∀ w change row, change ∈ w.authorizationChanges →
      (service.run es).store.rows.find? change.reference = some row → Outdated change row →
      ∃ e, (service.run es).store.handle w = (.error e, (service.run es).store)) ∧
    (∀ i change row refusal, (service.run es).calls i = some ⟨change, .queued⟩ →
      (service.run es).store.rows.find? change.reference = some row → Outdated change row →
      ((service.run es).step (.handle i refusal)).store = (service.run es).store ∧
      ∃ e, ((service.run es).step (.handle i refusal)).calls i = some ⟨change, .returned (.error e)⟩) ∧
    ((service.run es).Quiescent →
      LocalAuthorizationPolicy.restore (service.run es).store.rows.rows = .ok (service.run es).policy) := by
  refine ⟨_, recover_eq store, fun es => ?_⟩
  generalize hservice : (⟨store, ⟨store.rows.find?⟩, fun _ => none⟩ : Service ρ) = service
  have hconsistent : (service.run es).Consistent := (recovered_consistent (hservice ▸ recover_eq store)).run es
  refine ⟨?_, ?_, ?_, ?_, ?_⟩
  · intro e reference entry hentry
    obtain ⟨later, hlater, hsup⟩ := (hconsistent.moves e).policy reference entry hentry
    obtain ⟨row, hrow, hrowsup⟩ := hconsistent.published reference entry hentry
    exact ⟨⟨later, hlater, hsup.1⟩, row, hrow, hrowsup.1⟩
  · intro i change hcall later
    obtain ⟨entry, hentry, hle⟩ := hconsistent.acknowledged i change hcall
    obtain ⟨last, hlast, hsup⟩ := (hconsistent.moves_run later).policy _ entry hentry
    refine ⟨last, hlast, Nat.le_trans hle hsup.1, ?_⟩
    intro requested now
    simp only [LocalAuthorizationPolicy.decide, hlast]
  · intro w change row hmem hrow houtdated
    exact handle_refused hmem hrow houtdated
  · intro i change row refusal hcall hrow houtdated
    obtain ⟨e, hstore⟩ := handle_refused (w := changeWrite change refusal) List.mem_cons_self hrow houtdated
    simp only [step, hcall, handle, hstore, true_and]
    exact ⟨e, by simp [advance]⟩
  · intro hquiescent
    rw [restore_rows]
    congr 1
    have hentries : (service.run es).policy.entries = (service.run es).store.rows.find? := by
      funext reference
      cases hrow : (service.run es).store.rows.find? reference with
      | some row =>
          obtain hentry | ⟨i, hi⟩ := hconsistent.pending reference row hrow
          · exact hentry
          · obtain ⟨result, hresult⟩ := hquiescent i _ hi
            cases hresult
      | none =>
          cases hentry : (service.run es).policy.entries reference with
          | none => rfl
          | some entry =>
              obtain ⟨row, hrow', _⟩ := hconsistent.published reference entry hentry
              rw [hrow] at hrow'
              cases hrow'
    rw [← hentries]

end Service

end Service

end OcppBridge.Authorization
