import Mathlib.Data.Finset.Card
import OcppBridge.Supervision.Incident

namespace OcppBridge.Supervision.Classifier

open Transaction

def Signal.termination : Signal → Bool
  | exit true true | watchdog | oom => true
  | _ => false

def Signal.ordinary : Signal → Bool
  | started _ | coreReady | exit _ _ | watchdog | oom => true
  | _ => false

def Event.ordinary : Event → Prop
  | observed _ o _ => o.signal.ordinary ∧ o.resourcePressure = false
  | restored => False
  | restarted => True

def Event.observation? : Event → Option Observation
  | observed _ o _ => some o
  | restored | restarted => none

/-- The invocation that runs after the observations, where `v` ran before them. -/
def running (v : Nat) : List Observation → Nat
  | [] => v
  | o :: os =>
      match o.signal with
      | .started w => running w os
      | _ => running v os

def terminations (v : Nat) : List Observation → List (Nat × Nat)
  | [] => []
  | o :: os =>
      match o.signal with
      | .started w => terminations w os
      | signal => (if signal.termination then [(v, o.atSeconds)] else []) ++ terminations v os

def crashed (p : Policy) (os : List Observation) (now : Nat) : Finset Nat :=
  ((terminations 0 os).map (·.1)).toFinset.filter fun v =>
    ∃ at' ∈ (terminations 0 os).lookup v, at' ≤ now ∧ now ≤ at' + p.exitWindowSeconds

def Exceeded (p : Policy) (os : List Observation) : Prop :=
  ∃ earlier o, earlier ++ [o] <+: os ∧ p.exitCount ≤ (crashed p (earlier ++ [o]) o.atSeconds).card

variable {p : Policy} {os os' : List Observation} {o : Observation} {firsts : List (Nat × Nat)} {now : Nat}

section History

variable {v w : Nat}

theorem running_concat : running v (os ++ [o]) =
    match o.signal with
    | .started w => w
    | _ => running v os := by
  induction os generalizing v with
  | nil => rfl
  | cons x os ih =>
      cases hx : x.signal <;> simp only [List.cons_append, running, hx, ih]

theorem running_concat_of_ne (hstarted : ∀ w, o.signal ≠ .started w) : running v (os ++ [o]) = running v os := by
  rw [running_concat]
  split
  · next w hw => exact absurd hw (hstarted w)
  · rfl

theorem terminations_concat (hstarted : ∀ w, o.signal ≠ .started w) :
    terminations v (os ++ [o]) =
      terminations v os ++ if o.signal.termination then [(running v os, o.atSeconds)] else [] := by
  induction os generalizing v with
  | nil =>
      cases ho : o.signal with
      | started w => exact absurd ho (hstarted w)
      | _ => simp [terminations, running, ho]
  | cons x os ih =>
      cases hx : x.signal <;> simp only [List.cons_append, terminations, running, hx, ih, List.append_assoc]

theorem terminations_started (hstarted : o.signal = .started w) : terminations v (os ++ [o]) = terminations v os := by
  induction os generalizing v with
  | nil => simp [terminations, hstarted]
  | cons x os ih =>
      cases hx : x.signal <;> simp only [List.cons_append, terminations, hx, ih]

theorem exceeded_concat :
    Exceeded p (os ++ [o]) ↔ Exceeded p os ∨ p.exitCount ≤ (crashed p (os ++ [o]) o.atSeconds).card := by
  simp only [Exceeded, List.prefix_concat_iff]
  constructor
  · rintro ⟨earlier, x, hsame | hfront, hcount⟩
    · rw [hsame] at hcount
      obtain ⟨_, rfl⟩ := List.append_inj' hsame rfl |>.imp id (List.cons.inj · |>.1)
      exact .inr hcount
    · exact .inl ⟨earlier, x, hfront, hcount⟩
  · rintro (⟨earlier, x, hfront, hcount⟩ | hcount)
    · exact ⟨earlier, x, .inr hfront, hcount⟩
    · exact ⟨os, o, .inl rfl, hcount⟩

/-- The first unexpected terminations, one for each invocation that had one. -/
structure Firsts (firsts : List (Nat × Nat)) (os : List Observation) (now : Nat) : Prop where
  nodup : (firsts.map (·.1)).Nodup
  lookup : ∀ v at', (terminations 0 os).lookup v = some at' ↔ (v, at') ∈ firsts
  times : ∀ x ∈ firsts, x.2 ≤ now

theorem Firsts.card (h : Firsts firsts os now) :
    (crashed p os now).card = (firsts.filter fun x => now ≤ x.2 + p.exitWindowSeconds).length := by
  have hset : crashed p os now = ((firsts.filter fun x => now ≤ x.2 + p.exitWindowSeconds).map (·.1)).toFinset := by
    ext v
    simp only [crashed, Finset.mem_filter, List.mem_toFinset, Option.mem_def, List.mem_map, List.mem_filter,
      decide_eq_true_eq]
    constructor
    · rintro ⟨_, at', hlookup, _, hwindow⟩
      exact ⟨(v, at'), ⟨(h.lookup v at').mp hlookup, hwindow⟩, rfl⟩
    · rintro ⟨⟨w, at'⟩, ⟨hmem, hwindow⟩, rfl⟩
      have hlookup := (h.lookup w at').mpr hmem
      obtain ⟨front, back, hsplit, _⟩ := List.lookup_eq_some_iff.mp hlookup
      have hmem' : (w, at') ∈ terminations 0 os := hsplit ▸ List.mem_append_right front List.mem_cons_self
      exact ⟨⟨(w, at'), hmem', rfl⟩, at', hlookup, h.times _ hmem, hwindow⟩
  rw [hset, List.toFinset_card_of_nodup (h.nodup.sublist (List.filter_sublist.map _)), List.length_map]

theorem Firsts.same {later : Nat} (h : Firsts firsts os now)
    (hsame : ∀ v, (terminations 0 os').lookup v = (terminations 0 os).lookup v) (hlater : now ≤ later) :
    Firsts firsts os' later where
  nodup := h.nodup
  lookup v at' := by rw [hsame, h.lookup]
  times x hx := (h.times x hx).trans hlater

theorem lookup_concat {terms : List (Nat × Nat)} {at' : Nat} :
    (terms ++ [(w, at')]).lookup v = (terms.lookup v).or (if v = w then some at' else none) := by
  rw [List.lookup_append]
  by_cases hv : v = w
  · simp [hv]
  · simp [List.lookup_cons, hv, beq_eq_false_iff_ne.mpr hv]

theorem Firsts.first (h : Firsts firsts os now) (hlater : now ≤ o.atSeconds)
    (hterms : terminations 0 os' = terminations 0 os ++ [(w, o.atSeconds)]) (hnew : ∀ at', (w, at') ∉ firsts) :
    Firsts (firsts ++ [(w, o.atSeconds)]) os' o.atSeconds where
  nodup := by
    rw [List.map_append, List.map_singleton]
    refine List.nodup_append.mpr ⟨h.nodup, List.nodup_singleton w, ?_⟩
    intro a ha b hb hab
    obtain ⟨⟨x, at'⟩, hx, rfl⟩ := List.mem_map.mp ha
    obtain rfl : x = w := hab.trans (List.mem_singleton.mp hb)
    exact hnew at' hx
  lookup v at' := by
    rw [hterms, lookup_concat, List.mem_append, List.mem_singleton, Prod.mk.injEq, ← h.lookup]
    have hnone : (terminations 0 os).lookup w = none := by
      cases hlookup : (terminations 0 os).lookup w with
      | none => rfl
      | some x => exact absurd ((h.lookup w x).mp hlookup) (hnew x)
    by_cases hv : v = w
    · subst hv
      simp [hnone, eq_comm]
    · simp [hv]
  times x hx := by
    rcases List.mem_append.mp hx with hx | hx
    · exact (h.times x hx).trans hlater
    · rw [List.mem_singleton.mp hx]

end History

namespace State

variable {s next : State}

structure Tally (s : State) (p : Policy) (os : List Observation) (firsts : List (Nat × Nat)) (now : Nat) : Prop where
  history : Firsts firsts os now
  invocation : s.invocation = running 0 os
  keys : ∀ x ∈ firsts, x.1 ≤ s.invocation
  recorded : s.exitRecorded = true ↔ ∃ at', (s.invocation, at') ∈ firsts
  exits : ∃ latest ≤ now, s.exits = (firsts.map (·.2)).filter fun at' => latest - at' ≤ p.exitWindowSeconds

inductive Ordinary (s : State) (p : Policy) (o : Observation) (next : State) : Prop
  | started {v : Nat} (hsignal : o.signal = .started v) (hlt : s.invocation < v) (hinvocation : next.invocation = v)
      (hrecorded : next.exitRecorded = false) (hexits : next.exits = s.exits) (hdecision : next.decision = .observe)
  | quiet (hsignal : ∀ v, o.signal ≠ .started v) (hquiet : o.signal.termination = true → s.exitRecorded = true)
      (hinvocation : next.invocation = s.invocation) (hrecorded : next.exitRecorded = s.exitRecorded)
      (hexits : next.exits = s.exits) (hdecision : next.decision = .observe)
  | first (hsignal : o.signal.termination = true) (hfirst : s.exitRecorded = false)
      (hinvocation : next.invocation = s.invocation) (hrecorded : next.exitRecorded = true)
      (hexits : next.exits = s.exits.filter (fun at' => o.atSeconds - at' ≤ p.exitWindowSeconds) ++ [o.atSeconds])
      (hdecision : next.decision = if p.exitCount ≤ next.exits.length then .rollbackRequired else .observe)

theorem evaluate_exit {started : Nat} (hsignal : o.signal.termination = true) :
    s.evaluate p o started =
      if s.exitRecorded then (s, .observe)
      else
        let exits := s.exits.filter (fun at' => o.atSeconds - at' ≤ p.exitWindowSeconds) ++ [o.atSeconds]
        ({ s with exitRecorded := true, exits },
          if p.exitCount ≤ exits.length then .rollbackRequired else .observe) := by
  cases hs : o.signal with
  | exit desiredRunning unexpected =>
      rw [hs] at hsignal
      cases desiredRunning <;> cases unexpected <;> cases hsignal
      simp only [evaluate, hs]
  | watchdog | oom => simp only [evaluate, hs]
  | _ =>
      rw [hs] at hsignal
      cases hsignal

variable (p s) in
theorem evaluate_quiet (started : Nat) (hsignal : o.signal.ordinary = true) (hstarted : ∀ v, o.signal ≠ .started v)
    (hquiet : o.signal.termination = false) :
    ∃ ready failures, s.evaluate p o started =
      ({ s with coreReady := ready, readinessFailures := failures }, .observe) := by
  cases hs : o.signal with
  | coreReady => exact ⟨true, [], by simp only [evaluate, hs]⟩
  | exit desiredRunning unexpected =>
      rw [hs] at hquiet
      refine ⟨s.coreReady, s.readinessFailures, ?_⟩
      cases desiredRunning with
      | false => cases unexpected <;> simp only [evaluate, hs]
      | true =>
          cases unexpected with
          | false => simp only [evaluate, hs]
          | true => cases hquiet
  | started v => exact absurd hs (hstarted v)
  | watchdog | oom =>
      rw [hs] at hquiet
      cases hquiet
  | _ =>
      rw [hs] at hsignal
      cases hsignal

theorem ordinary_class {signal : Signal} (h : signal.ordinary = true) :
    signal.recovery = false ∧ signal.degradation = false := by
  cases signal with
  | started | coreReady | exit | watchdog | oom => exact ⟨rfl, rfl⟩
  | _ => cases h

theorem classify_ordinary (hfree : s.staging ≠ .pending) (hundecided : s.decision = .observe)
    (hsignal : o.signal.ordinary = true) (hpressure : o.resourcePressure = false) {d : Decision}
    (h : s.classify p o = .ok (next, d)) : next.staging = s.staging ∧ s.Ordinary p o (next.recorded o d) := by
  have hclass := ordinary_class hsignal
  unfold classify at h
  rw [if_neg (by simp [hclass.1, hundecided]), if_neg (by simp [hundecided]), if_neg (by simp [hclass.2])] at h
  split at h
  · next v hs =>
      simp only [bind_eq_ok, require_eq_ok, pure_eq_ok, Prod.mk.injEq] at h
      obtain ⟨_, _, _, hlt, rfl, rfl⟩ := h
      exact ⟨rfl, .started hs hlt rfl rfl rfl rfl⟩
  · next hstarted =>
      split at h
      · cases h
      · next started _ =>
          rw [if_neg (by simp [hfree, hpressure]), pure_eq_ok] at h
          cases hterm : o.signal.termination with
          | true =>
              rw [evaluate_exit hterm] at h
              split_ifs at h with hrecorded
              · cases h
                exact ⟨rfl, .quiet hstarted (fun _ => hrecorded) rfl rfl rfl rfl⟩
              · obtain ⟨rfl, rfl⟩ := Prod.mk.inj h
                exact ⟨rfl, .first hterm (by simpa using hrecorded) rfl rfl rfl rfl⟩
          | false =>
              obtain ⟨ready, failures, heval⟩ := evaluate_quiet p s started hsignal hstarted hterm
              rw [heval] at h
              cases h
              exact ⟨rfl, .quiet hstarted (by simp [hterm]) rfl rfl rfl rfl⟩

theorem card_crashed_le {later : Nat} (h : Firsts firsts os now) (h' : Firsts firsts os' later) (hlater : now ≤ later) :
    (crashed p os' later).card ≤ (crashed p os now).card := by
  rw [h.card, h'.card]
  refine List.Sublist.length_le (List.monotone_filter_right _ fun x hx => ?_)
  rw [decide_eq_true_eq] at hx ⊢
  omega

theorem exits_pruned {latest : Nat} (hlatest : latest ≤ o.atSeconds) {v : Nat} :
    ((firsts.map (·.2)).filter fun at' => latest - at' ≤ p.exitWindowSeconds).filter
        (fun at' => o.atSeconds - at' ≤ p.exitWindowSeconds) ++ [o.atSeconds] =
      ((firsts ++ [(v, o.atSeconds)]).map (·.2)).filter fun at' => o.atSeconds - at' ≤ p.exitWindowSeconds := by
  rw [List.filter_filter, List.map_append, List.filter_append]
  congr 1
  · refine List.filter_congr fun at' _ => ?_
    rw [← Bool.decide_and, decide_eq_decide]
    omega
  · simp

theorem length_window : ((firsts.map (·.2)).filter fun at' => now - at' ≤ p.exitWindowSeconds).length =
    (firsts.filter fun x => now ≤ x.2 + p.exitWindowSeconds).length := by
  rw [List.filter_map, List.length_map]
  congr 1
  refine List.filter_congr fun x _ => ?_
  simp only [Function.comp_apply, decide_eq_decide]
  omega

theorem Tally.step (h : s.Tally p os firsts now) (hbelow : (crashed p os now).card < p.exitCount)
    (hlater : now ≤ o.atSeconds) (hstep : s.Ordinary p o next) :
    (∃ firsts', next.Tally p (os ++ [o]) firsts' o.atSeconds) ∧
      (next.decision = .observe ∧ (crashed p (os ++ [o]) o.atSeconds).card < p.exitCount ∨
        next.decision = .rollbackRequired ∧ p.exitCount ≤ (crashed p (os ++ [o]) o.atSeconds).card) := by
  obtain ⟨latest, hlatest, hexits⟩ := h.exits
  cases hstep with
  | @started v hsignal hlt hinvocation hrecorded hexits' hdecision =>
      have hfirsts : Firsts firsts (os ++ [o]) o.atSeconds :=
        h.history.same (fun w => by rw [terminations_started hsignal]) hlater
      refine ⟨⟨firsts, hfirsts, ?_, ?_, ?_, latest, hlatest.trans hlater, hexits'.trans hexits⟩,
        .inl ⟨hdecision, (card_crashed_le h.history hfirsts hlater).trans_lt hbelow⟩⟩
      · rw [hinvocation, running_concat, hsignal]
      · exact fun x hx => hinvocation ▸ (h.keys x hx).trans hlt.le
      · -- a new invocation is greater than all that have terminated
        rw [hrecorded, hinvocation]
        refine ⟨nofun, fun ⟨at', hat⟩ => absurd (h.keys _ hat) (Nat.not_le_of_gt hlt)⟩
  | quiet hsignal hquiet hinvocation hrecorded hexits' hdecision =>
      have hlookup (w : Nat) : (terminations 0 (os ++ [o])).lookup w = (terminations 0 os).lookup w := by
        rw [terminations_concat hsignal]
        split_ifs with hterm
        · obtain ⟨at', hat⟩ := h.recorded.mp (hquiet hterm)
          rw [lookup_concat]
          by_cases hw : w = running 0 os
          · rw [hw, ← h.invocation, (h.history.lookup _ at').mpr hat]
            rfl
          · rw [if_neg hw, Option.or_none]
        · rw [List.append_nil]
      have hfirsts : Firsts firsts (os ++ [o]) o.atSeconds := h.history.same hlookup hlater
      refine ⟨⟨firsts, hfirsts, ?_, ?_, ?_, latest, hlatest.trans hlater, hexits'.trans hexits⟩,
        .inl ⟨hdecision, (card_crashed_le h.history hfirsts hlater).trans_lt hbelow⟩⟩
      · rw [hinvocation, running_concat_of_ne hsignal, h.invocation]
      · exact hinvocation ▸ h.keys
      · rw [hrecorded, hinvocation, h.recorded]
  | first hsignal hfirst hinvocation hrecorded hexits' hdecision =>
      have hstarted (w : Nat) : o.signal ≠ .started w := by
        intro hw
        rw [hw] at hsignal
        cases hsignal
      have hnew (at' : Nat) : (s.invocation, at') ∉ firsts := by
        intro hat
        rw [h.recorded.mpr ⟨at', hat⟩] at hfirst
        cases hfirst
      have hterms : terminations 0 (os ++ [o]) = terminations 0 os ++ [(s.invocation, o.atSeconds)] := by
        rw [terminations_concat hstarted, if_pos hsignal, h.invocation]
      have hfirsts := h.history.first hlater hterms hnew
      have hpruned := hexits'
      rw [hexits, exits_pruned (hlatest.trans hlater) (v := s.invocation)] at hpruned
      refine ⟨⟨_, hfirsts, ?_, ?_, ?_, o.atSeconds, Nat.le_refl _, hpruned⟩, ?_⟩
      · rw [hinvocation, running_concat_of_ne hstarted, h.invocation]
      · intro x hx
        rw [hinvocation]
        rcases List.mem_append.mp hx with hx | hx
        · exact h.keys x hx
        · rw [List.mem_singleton.mp hx]
      · rw [hrecorded, hinvocation]
        exact ⟨fun _ => ⟨o.atSeconds, List.mem_append_right _ List.mem_cons_self⟩, fun _ => rfl⟩
      · rw [hpruned, length_window, ← hfirsts.card] at hdecision
        split_ifs at hdecision with hcount
        · exact .inr ⟨hdecision, hcount⟩
        · exact .inl ⟨hdecision, Nat.lt_of_not_le hcount⟩

def clock (s : State) : Nat := (s.last.map (·.atSeconds)).getD 0

structure Watches (s : State) (p : Policy) (os : List Observation) : Prop where
  staging : s.staging ≠ .pending
  decision : s.decision = .observe
  within : ¬Exceeded p os
  tally : ∃ firsts, s.Tally p os firsts s.clock
  below : (crashed p os s.clock).card < p.exitCount

/-- Under the policy of the incident, a rollback was decided exactly if the threshold was reached. -/
def Decides (s : State) (os : List Observation) : Prop :=
  ∀ p, p.validate = .ok () → (∀ q ∈ s.policy, q = p) →
    s.Watches p os ∨ s.decision = .rollbackRequired ∧ Exceeded p os

theorem decides_initial : ({} : State).Decides [] := by
  intro p hvalid _
  obtain ⟨_, _, hexits, _⟩ := require_eq_ok.mp hvalid
  refine .inl ⟨nofun, rfl, ?_, ⟨[], ?_⟩, ?_⟩
  · rintro ⟨earlier, o, hfront, _⟩
    simp at hfront
  · exact ⟨⟨List.nodup_nil, fun _ _ => ⟨nofun, nofun⟩, nofun⟩, rfl, nofun, ⟨nofun, nofun⟩, 0, Nat.le_refl _, rfl⟩
  · exact hexits.1

theorem clock_le (hlast : ∀ last ∈ s.last, Follows last o) : s.clock ≤ o.atSeconds := by
  unfold clock
  cases h : s.last with
  | none => exact Nat.zero_le _
  | some last => exact (hlast last h).2

theorem Decides.observe (h : s.Decides os) (hreached : s.Reached) (hsignal : o.signal.ordinary = true)
    (hpressure : o.resourcePressure = false) (hobserve : s.observe p o = .ok next) :
    next.decision ≠ .stopStaging ∧ next.Decides (os ++ [o]) := by
  have hsound := hreached.observe hobserve
  obtain ⟨hvalid, hpolicy, _, hlast, classified, d, hclassify, rfl⟩ := observe_eq_ok.mp hobserve
  obtain hwatches | ⟨hdecision, hexceeded⟩ := h p hvalid hpolicy
  · obtain ⟨firsts, htally⟩ := hwatches.tally
    have hfree : ({ s with policy := some p } : State).staging ≠ .pending := hwatches.staging
    obtain ⟨hstaging, hstep⟩ := classify_ordinary hfree hwatches.decision hsignal hpressure hclassify
    have htally' : ({ s with policy := some p } : State).Tally p os firsts s.clock :=
      ⟨htally.history, htally.invocation, htally.keys, htally.recorded, htally.exits⟩
    obtain ⟨htally', hcases⟩ := htally'.step hwatches.below (clock_le hlast) hstep
    obtain ⟨hd, hbelow⟩ | ⟨hd, hcount⟩ := hcases
    · refine ⟨by rw [hd]; decide, fun q _ hq => .inl ?_⟩
      obtain rfl := hq p hsound.core.policy
      refine ⟨by rw [← hstaging] at hfree; exact hfree, hd, ?_, htally', hbelow⟩
      rw [exceeded_concat]
      rintro (hexceeded | hcount)
      · exact hwatches.within hexceeded
      · exact Nat.not_le_of_gt hbelow hcount
    · refine ⟨by rw [hd]; decide, fun q _ hq => .inr ⟨hd, ?_⟩⟩
      obtain rfl := hq p hsound.core.policy
      exact exceeded_concat.mpr (.inr hcount)
  · have hd : d = .rollbackRequired := by
      simp only [classify, (ordinary_class hsignal).1, hdecision, Bool.false_or, reduceCtorEq, decide_false,
        Bool.false_eq_true, if_false, if_true, pure_eq_ok, Prod.mk.injEq] at hclassify
      exact hclassify.2.symm
    subst hd
    refine ⟨by rintro ⟨⟩, fun q _ hq => .inr ⟨rfl, ?_⟩⟩
    obtain rfl := hq p hsound.core.policy
    exact exceeded_concat.mpr (.inl hexceeded)

end State

namespace Incident

variable {i i' : Incident} {events : List Event}

/-- A reachable incident, as far as the terminations among the observations go. -/
structure Decides (i : Incident) (os : List Observation) : Prop where
  reached : i.Reached
  restored : i.restored = false
  decides : i.state.Decides os

theorem Decides.apply (h : i.Decides os) {event : Event} (hordinary : event.ordinary)
    (happly : i.apply event = .ok i') : i'.Decides (os ++ event.observation?.toList) := by
  have hreached := h.reached.apply happly
  cases apply_eq_ok happly with
  | observed hs hnext =>
      obtain ⟨hstop, hdecides⟩ := h.decides.observe h.reached.state hordinary.1 hordinary.2 hs
      obtain rfl := stored_as_observed h.restored hstop hnext
      exact ⟨hreached, h.restored, hdecides⟩
  | restored => exact hordinary.elim
  | restarted => exact ⟨hreached, h.restored, by simpa [Event.observation?] using h.decides⟩

theorem Decides.run (h : i.Decides os) (hordinary : ∀ event ∈ events, event.ordinary) (hrun : i.run events = .ok i') :
    i'.Decides (os ++ events.filterMap Event.observation?) := by
  induction events generalizing i os with
  | nil =>
      rw [Incident.run, List.foldlM_nil, pure_eq_ok] at hrun
      rw [List.filterMap_nil, List.append_nil]
      exact hrun ▸ h
  | cons event events ih =>
      simp only [Incident.run, List.foldlM_cons, bind_eq_ok] at hrun
      obtain ⟨mid, hmid, hrest⟩ := hrun
      have hrest := ih (h.apply (hordinary event List.mem_cons_self) hmid)
        (fun e he => hordinary e (List.mem_cons_of_mem _ he)) hrest
      have hobserved : (event :: events).filterMap Event.observation? =
          event.observation?.toList ++ events.filterMap Event.observation? := by
        cases hevent : event.observation? <;> simp [hevent]
      rw [hobserved, ← List.append_assoc]
      exact hrest

/-- A rollback is decided at the first observation at which enough invocations crashed within the window. -/
theorem crash_window_exact (h : ({} : Incident).run events = .ok i) (hordinary : ∀ event ∈ events, event.ordinary)
    {p : Policy} (hp : i.state.policy = some p) :
    i.state.decision = .rollbackRequired ↔ Exceeded p (events.filterMap Event.observation?) := by
  have hinitial : ({} : Incident).Decides [] :=
    ⟨fun s hs => absurd hs (Option.not_mem_none s), rfl, State.decides_initial⟩
  have hdecides := hinitial.run hordinary h
  have hvalid : p.validate = .ok () := by
    obtain hempty | ⟨q, last, hsound⟩ := hdecides.reached.state
    · rw [hempty] at hp
      cases hp
    · obtain rfl := Option.some.inj (hp.symm.trans hsound.core.policy)
      exact hsound.core.valid
  have hpolicy : ∀ q ∈ i.state.policy, q = p := fun q hq => Option.some.inj (hq.symm.trans hp)
  obtain hwatches | ⟨hdecision, hexceeded⟩ := hdecides.decides p hvalid hpolicy
  · rw [hwatches.decision]
    exact ⟨nofun, fun hexceeded => absurd hexceeded hwatches.within⟩
  · exact ⟨fun _ => hexceeded, fun _ => hdecision⟩

def sampleCrashes : List Event :=
  [.observed .standard ⟨1, 0, .started 1, false⟩ none, .observed .standard ⟨2, 5, .watchdog, false⟩ none,
    .observed .standard ⟨3, 6, .started 2, false⟩ none, .observed .standard ⟨4, 60, .exit true true, false⟩ none,
    .restarted, .observed .standard ⟨5, 61, .oom, false⟩ none, .observed .standard ⟨6, 62, .started 3, false⟩ none,
    .observed .standard ⟨7, 125, .oom, false⟩ none]

theorem sample_crash_window :
    (∃ i, ({} : Incident).run (sampleCrashes.take 7) = .ok i ∧ i.state.decision = .observe ∧
      ¬Exceeded .standard ((sampleCrashes.take 7).filterMap Event.observation?)) ∧
    ∃ i, ({} : Incident).run sampleCrashes = .ok i ∧ i.state.decision = .rollbackRequired ∧
      Exceeded .standard (sampleCrashes.filterMap Event.observation?) := by
  have hordinary : ∀ event ∈ sampleCrashes, event.ordinary := by
    simp [sampleCrashes, Event.ordinary, Signal.ordinary]
  have hearlier : ({} : Incident).run (sampleCrashes.take 7) = .ok _ := rfl
  have hrun : ({} : Incident).run sampleCrashes = .ok _ := rfl
  refine ⟨⟨_, rfl, rfl, ?_⟩, _, rfl, rfl, ?_⟩
  · intro hexceeded
    have := (crash_window_exact hearlier (fun e he => hordinary e (List.mem_of_mem_take he)) rfl).mpr hexceeded
    cases this
  · exact (crash_window_exact hrun hordinary rfl).mp rfl

end Incident

end OcppBridge.Supervision.Classifier
