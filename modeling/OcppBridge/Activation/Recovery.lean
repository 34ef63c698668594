import OcppBridge.Activation.Disk

namespace OcppBridge.Activation

open Durable Transaction State Artifacts

variable {artifacts : Artifacts} {files files' : Files} {before after state : State} {durable : Bool}
  {name : FileName} {updates : List (Update FileName Content)}

section Reading

def pointerFile (digest : Option String) : Option (Data Content) := digest.map fun d => .whole (.pointer d)

def stateFile (state : State) : Option (Data Content) := some (.whole (.state state))

theorem readState_eq_ok :
    readState files = .ok (some state) ↔ files (.slot .state) = stateFile state ∧ state.Valid := by
  unfold readState stateFile
  split
  · next h => simp [h]
  · next s h =>
      simp only [bind_eq_ok, validate_eq_ok, pure_eq_ok, Option.some.injEq, h, Data.whole.injEq, Content.state.injEq]
      constructor
      · rintro ⟨_, hvalid, rfl⟩
        exact ⟨rfl, hvalid⟩
      · rintro ⟨rfl, hvalid⟩
        exact ⟨(), hvalid, rfl⟩
  · next other hne h =>
      simp only [reduceCtorEq, false_iff, not_and]
      intro hstate
      rw [h, Option.some.injEq] at hstate
      exact absurd hstate (hne state)

theorem pointer_eq_ok {digest : Option String} :
    pointer files name = .ok digest ↔ files name = pointerFile digest ∧ ∀ d ∈ digest, digestName d := by
  unfold pointer pointerFile
  split
  · next h =>
      cases digest with
      | none => simp [h]
      | some d => simp [h]
  · next d h =>
      simp only [bind_eq_ok, require_eq_ok, pure_eq_ok, h]
      cases digest with
      | none => simp
      | some d' =>
          simp only [Option.some.injEq, Option.map_some, Data.whole.injEq, Content.pointer.injEq, Option.mem_def,
            forall_eq']
          constructor
          · rintro ⟨_, hname, rfl⟩
            exact ⟨rfl, hname⟩
          · rintro ⟨rfl, hname⟩
            exact ⟨(), hname, rfl⟩
  · next other hne h =>
      simp only [reduceCtorEq, false_iff, not_and]
      intro hpointer
      cases digest with
      | none => simp [h] at hpointer
      | some d =>
          rw [h, Option.map_some, Option.some.injEq] at hpointer
          exact absurd hpointer (hne d)

theorem verifyInstalled_eq_ok {digest : String} {u : Unit} :
    artifacts.verifyInstalled digest = .ok u ↔
      digestName digest ∧ digest ∈ artifacts.installed ∧ artifacts.fault digest = none := by
  simp only [verifyInstalled, bind_eq_ok, require_eq_ok]
  cases artifacts.fault digest with
  | none => simp [Option.forM, pure, Except.pure]
  | some e => simp [Option.forM]

theorem forM_verifyInstalled_eq_ok {digests : List String} {u : Unit} :
    digests.forM artifacts.verifyInstalled = .ok u ↔
      ∀ digest ∈ digests, digestName digest ∧ digest ∈ artifacts.installed ∧ artifacts.fault digest = none := by
  induction digests with
  | nil => simp [List.forM, pure, Except.pure]
  | cons digest digests ih =>
      simp only [List.forM, bind_eq_ok, verifyInstalled_eq_ok, List.mem_cons, forall_eq_or_imp, ih]
      simp

end Reading

section Preparation

def Verified (artifacts : Artifacts) (digest : String) : Prop :=
  digestName digest ∧ digest ∈ artifacts.installed ∧ artifacts.fault digest = none

structure Shows (s : State) (files : Files) : Prop where
  state : files (.slot .state) = stateFile s
  active : files (.slot .active) = pointerFile s.productionDigest
  previousGood : files (.slot .previousGood) = pointerFile s.previousGood

structure Permit (artifacts : Artifacts) (before after : State) : Prop where
  beforeValid : before.Valid
  afterValid : after.Valid
  follows : after.follows before
  beforeVerified : ∀ digest ∈ before.productionDigest.toList ++ before.previousGood.toList, Verified artifacts digest
  afterVerified : ∀ digest ∈ after.digests, Verified artifacts digest

theorem verify_eq_ok {u : Unit} : verify artifacts files state = .ok u ↔ state.Valid ∧ Shows state files ∧
    ∀ digest ∈ state.productionDigest.toList ++ state.previousGood.toList, Verified artifacts digest := by
  simp only [verify, verifyPointers, bind_eq_ok, validate_eq_ok, require_eq_ok, forM_verifyInstalled_eq_ok,
    pointer_eq_ok]
  constructor
  · rintro ⟨_, hvalid, _, hstored, _, rfl, _, ⟨active, ⟨hactive, _⟩, good, ⟨hgood, _⟩, rfl, rfl⟩, hverified⟩
    exact ⟨hvalid, ⟨(readState_eq_ok.mp hstored).1, hactive, hgood⟩, hverified⟩
  · rintro ⟨hvalid, hshows, hverified⟩
    refine ⟨(), hvalid, _, readState_eq_ok.mpr ⟨hshows.state, hvalid⟩, (), rfl, (), ⟨_, ⟨hshows.active, ?_⟩, _,
      ⟨hshows.previousGood, ?_⟩, rfl, rfl⟩, hverified⟩
    · intro digest hdigest
      refine hvalid.digests digest ?_
      simp [digests, Option.mem_toList.mpr hdigest]
    · intro digest hdigest
      refine hvalid.digests digest ?_
      simp [digests, Option.mem_toList.mpr hdigest]

theorem admission_eq_ok {next : State} (h : admission artifacts next = .ok after) :
    after = next ∧ after.Valid ∧ ∀ digest ∈ after.digests, Verified artifacts digest := by
  simp only [admission, bind_eq_ok, validate_eq_ok, forM_verifyInstalled_eq_ok, pure_eq_ok] at h
  obtain ⟨_, hvalid, _, hverified, rfl⟩ := h
  exact ⟨rfl, hvalid, hverified⟩

theorem State.advance_candidateDigest {transition : Transition} (h : before.advance transition = .ok after) :
    after.candidateDigest = before.candidateDigest := by
  obtain ⟨c, moved, hc, hmoves, _, rfl, _⟩ := advance_eq_ok h
  simp only [candidateDigest, hc]
  cases hmoves with
  | finishRollback => simp [hc]
  | beginStaging | qualify | failStaging | firstPromotion | beginPromotion | beginProbation | markHealthy
  | beginRollback => rfl

theorem State.advance_follows {transition : Transition} (h : before.advance transition = .ok after) :
    after.follows before := by
  have hmem : transition ∈ Transition.all := by cases transition <;> decide
  simp only [follows, Bool.or_eq_true, List.any_eq_true]
  exact .inr ⟨transition, hmem, by simp [h, Except.toOption]⟩

theorem State.observe_follows {candidate : Option String} (h : before.observe candidate = .ok after)
    (hne : candidate ≠ before.candidateDigest) : after.follows before := by
  rcases observe_eq_ok h with ⟨hsame, _⟩ | ⟨_, hidle, hsequence, _, rfl⟩
  · exact absurd hsame hne
  · have hcandidate : before.candidate ≠ candidate.map (⟨·, .installed⟩) := by
      intro heq
      apply hne
      rw [candidateDigest, heq, Option.map_map]
      cases candidate <;> rfl
    simp only [follows, Bool.or_eq_true]
    refine .inl ?_
    cases candidate with
    | none => simpa [hidle] using ⟨hcandidate, hsequence⟩
    | some digest => simpa [hidle] using ⟨hcandidate, hsequence⟩

theorem Prepared.permit (h : Prepared artifacts files before after) :
    Permit artifacts before after ∧ Shows before files ∧ files .candidate = pointerFile after.candidateDigest := by
  cases h with
  | @transition transition after h =>
      simp only [prepareTransition, bind_eq_ok, require_eq_ok, verify_eq_ok, pointer_eq_ok] at h
      obtain ⟨_, ⟨hvalid, hshows, hverified⟩, candidate, ⟨hcandidate, _⟩, _, rfl, next, hadvance, hadmission⟩ := h
      obtain ⟨rfl, hafter, hall⟩ := admission_eq_ok hadmission
      rw [← advance_candidateDigest hadvance] at hcandidate
      exact ⟨⟨hvalid, hafter, advance_follows hadvance, hverified, hall⟩, hshows, hcandidate⟩
  | observation h =>
      simp only [prepareObservation, bind_eq_ok, verify_eq_ok, pointer_eq_ok] at h
      obtain ⟨_, ⟨hvalid, hshows, hverified⟩, candidate, ⟨hcandidate, _⟩, h⟩ := h
      split_ifs at h with hne
      · cases h
      · simp only [bind_eq_ok, map_eq_ok, Option.some.injEq] at h
        obtain ⟨next, hobserve, after', hadmission, rfl⟩ := h
        obtain ⟨rfl, hafter, hall⟩ := admission_eq_ok hadmission
        refine ⟨⟨hvalid, hafter, observe_follows hobserve hne, hverified, hall⟩, hshows, ?_⟩
        rcases observe_eq_ok hobserve with ⟨hsame, _⟩ | ⟨_, _, _, _, rfl⟩
        · exact absurd hsame hne
        · rw [hcandidate]
          cases candidate <;> rfl

end Preparation

section Crashes

def scratch : FileName → Prop
  | .next _ => True
  | _ => False

def Tidy (files : Files) : Prop := ∀ slot, files (.next slot) = none

structure Around (after : State) (files : Files) : Prop where
  candidate : files .candidate = pointerFile after.candidateDigest
  candidateNext : files .candidateNext = none
  incoming : files .incoming = none

structure Mixed (before after : State) (files : Files) : Prop where
  intent : files (.slot .intent) = some (.whole (.intent before after))
  state : files (.slot .state) = stateFile before ∨ files (.slot .state) = stateFile after
  active : files (.slot .active) = pointerFile before.productionDigest ∨
    files (.slot .active) = pointerFile after.productionDigest
  previousGood : files (.slot .previousGood) = pointerFile before.previousGood ∨
    files (.slot .previousGood) = pointerFile after.previousGood

/-- What a crash leaves behind, when the intent has been durable and when it may not have been. -/
inductive Crashed (before after : State) (files : Files) : Bool → Prop
  | old (hintent : files (.slot .intent) = none) (h : Shows before files) : Crashed before after files false
  | mixed (durable : Bool) (h : Mixed before after files) : Crashed before after files durable
  | new (durable : Bool) (hintent : files (.slot .intent) = none) (h : Shows after files) :
      Crashed before after files durable

theorem Shows.of_agree (h : Shows state files) (hagree : Agree scratch files' files) : Shows state files' where
  state := (hagree _ id).trans h.state
  active := (hagree _ id).trans h.active
  previousGood := (hagree _ id).trans h.previousGood

theorem Around.of_agree (h : Around after files) (hagree : Agree scratch files' files) : Around after files' where
  candidate := (hagree _ id).trans h.candidate
  candidateNext := (hagree _ id).trans h.candidateNext
  incoming := (hagree _ id).trans h.incoming

theorem Crashed.of_agree (h : Crashed before after files durable) (hagree : Agree scratch files' files) :
    Crashed before after files' durable := by
  cases h with
  | old hintent h => exact .old ((hagree _ id).trans hintent) (h.of_agree hagree)
  | new durable hintent h => exact .new durable ((hagree _ id).trans hintent) (h.of_agree hagree)
  | mixed durable h =>
      have hstate := hagree (.slot .state) id
      have hactive := hagree (.slot .active) id
      have hgood := hagree (.slot .previousGood) id
      exact .mixed durable ⟨(hagree _ id).trans h.intent, hstate ▸ h.state, hactive ▸ h.active, hgood ▸ h.previousGood⟩

section Updates

variable {u : Update FileName Content} {slot : Slot} {us : List (Update FileName Content)}

theorem mem_pointerChange {old new : Option String} (h : u ∈ pointerChange slot old new) :
    (∃ digest, new = some digest ∧ u = atomic slot (.pointer digest)) ∨ new = none ∧ u = .remove (.slot slot) := by
  unfold pointerChange at h
  split_ifs at h
  · cases h
  · cases new with
    | none => exact .inr ⟨rfl, List.mem_singleton.mp h⟩
    | some digest => exact .inl ⟨digest, rfl, List.mem_singleton.mp h⟩

theorem pointerChange_leaves {old new : Option String} (h : u ∈ pointerChange slot old new)
    (hslot : name ≠ .slot slot) (hnext : name ≠ .next slot) : u.Leaves name := by
  rcases mem_pointerChange h with ⟨digest, _, rfl⟩ | ⟨_, rfl⟩
  · exact ⟨hslot.symm, hnext.symm⟩
  · exact hslot.symm

theorem pointerChange_apply {old new : Option String} (h : u ∈ pointerChange slot old new) (files : Files) :
    u.apply files (.slot slot) = pointerFile new := by
  rcases mem_pointerChange h with ⟨digest, rfl, rfl⟩ | ⟨rfl, rfl⟩
  · simp [atomic, Update.apply, pointerFile]
  · simp [Update.apply, pointerFile]

theorem foldl_pointerChange {old new : Option String}
    (h : files (.slot slot) = pointerFile old ∨ files (.slot slot) = pointerFile new) :
    (pointerChange slot old new).foldl Update.apply files (.slot slot) = pointerFile new := by
  unfold pointerChange
  split_ifs with heq
  · subst heq
    exact h.elim id id
  · cases new with
    | none => simp [Update.apply, pointerFile]
    | some digest => simp [atomic, Update.apply, pointerFile]

theorem mem_apply (h : u ∈ apply before after) :
    u ∈ pointerChange .previousGood before.previousGood after.previousGood ∨
      u ∈ pointerChange .active before.productionDigest after.productionDigest ∨ u = atomic .state (.state after) := by
  simpa [apply, or_assoc] using h

namespace Mixed

variable (h : Mixed before after files)

include h

theorem update (hu : u ∈ apply before after) : Mixed before after (u.apply files) := by
  rcases mem_apply hu with hu | hu | rfl
  · have hleaves : ∀ name, name ≠ .slot .previousGood → name ≠ .next .previousGood → u.apply files name = files name :=
      fun name hslot hnext => (pointerChange_leaves hu hslot hnext).apply_eq files
    refine ⟨?_, ?_, ?_, .inr (pointerChange_apply hu files)⟩
    · rw [hleaves _ (by simp) (by simp)]
      exact h.intent
    · rw [hleaves _ (by simp) (by simp)]
      exact h.state
    · rw [hleaves _ (by simp) (by simp)]
      exact h.active
  · have hleaves : ∀ name, name ≠ .slot .active → name ≠ .next .active → u.apply files name = files name :=
      fun name hslot hnext => (pointerChange_leaves hu hslot hnext).apply_eq files
    refine ⟨?_, ?_, .inr (pointerChange_apply hu files), ?_⟩
    · rw [hleaves _ (by simp) (by simp)]
      exact h.intent
    · rw [hleaves _ (by simp) (by simp)]
      exact h.state
    · rw [hleaves _ (by simp) (by simp)]
      exact h.previousGood
  · exact ⟨h.intent, .inr rfl, h.active, h.previousGood⟩

theorem foldl_apply : Shows after ((apply before after).foldl Update.apply files) := by
  have hgood : ∀ u ∈ pointerChange .previousGood before.previousGood after.previousGood,
      u.Leaves (.slot .active) := fun u hu => pointerChange_leaves hu (by simp) (by simp)
  have hactive : ∀ u ∈ pointerChange .active before.productionDigest after.productionDigest,
      u.Leaves (.slot .previousGood) := fun u hu => pointerChange_leaves hu (by simp) (by simp)
  simp only [apply, List.foldl_append, List.foldl_cons, List.foldl_nil]
  refine ⟨?_, ?_, ?_⟩
  · simp [atomic, Update.apply, stateFile]
  · have hstate : (atomic .state (.state after)).Leaves (.slot .active) := by simp [atomic, Update.Leaves]
    rw [hstate.apply_eq]
    apply foldl_pointerChange
    rw [Update.foldl_apply_of_leaves hgood]
    exact h.active
  · have hstate : (atomic .state (.state after)).Leaves (.slot .previousGood) := by simp [atomic, Update.Leaves]
    rw [hstate.apply_eq, Update.foldl_apply_of_leaves hactive]
    exact foldl_pointerChange h.previousGood

theorem foldl_keeps
    (hus : ∀ u ∈ us, (∃ slot, u = .remove (.next slot)) ∨ u ∈ apply before after) :
    Mixed before after (us.foldl Update.apply files) := by
  refine Update.foldl_apply_keeps (fun u hu files hfiles => ?_) h
  rcases hus u hu with ⟨slot, rfl⟩ | hu
  · exact ⟨hfiles.intent, hfiles.state, hfiles.active, hfiles.previousGood⟩
  · exact hfiles.update hu

end Mixed

theorem mem_cleanTemporaries (h : u ∈ cleanTemporaries) : ∃ slot, u = .remove (.next slot) := by
  simp only [cleanTemporaries, List.mem_map] at h
  obtain ⟨slot, _, rfl⟩ := h
  exact ⟨slot, rfl⟩

theorem agree_clean (h : ∀ u ∈ us, ∃ slot, u = .remove (.next slot)) (files : Files) :
    Agree scratch (us.foldl Update.apply files) files := by
  intro name hname
  refine Update.foldl_apply_of_leaves (fun u hu => ?_) files
  obtain ⟨slot, rfl⟩ := h u hu
  rintro rfl
  exact hname trivial

theorem tidy_clean (files : Files) : Tidy (cleanTemporaries.foldl Update.apply files) := by
  intro slot
  cases slot <;> simp [cleanTemporaries, Update.apply]

theorem Mixed.prefix_finish (h : Mixed before after files) {done : List (Update FileName Content)}
    (hus : ∀ u ∈ us, ∃ slot, u = .remove (.next slot)) (hdone : done <+: us ++ finish before after) :
    Crashed before after (done.foldl Update.apply files) durable := by
  rw [finish, ← List.append_assoc, List.prefix_concat_iff] at hdone
  rcases hdone with rfl | hdone
  · have hmixed : Mixed before after (us.foldl Update.apply files) := h.foldl_keeps fun u hu => .inl (hus u hu)
    have hshows := hmixed.foldl_apply
    rw [List.foldl_append, List.foldl_append]
    refine .new durable ?_ ⟨hshows.state, hshows.active, hshows.previousGood⟩
    simp [Update.apply]
  · refine .mixed durable (h.foldl_keeps fun u hu => ?_)
    rcases List.mem_append.mp (hdone.subset hu) with hu | hu
    · exact .inl (hus u hu)
    · exact .inr hu

end Updates

section Plans

theorem recover_of_none (h : files (.slot .intent) = none) : recover artifacts files = .ok cleanTemporaries := by
  rw [recover, h]
  rfl

variable {digest : String} {u : Update FileName Content} {us : List (Update FileName Content)}

theorem State.mem_digests_production (h : digest ∈ state.productionDigest) : digest ∈ state.digests := by
  simp [digests, Option.mem_toList.mpr h]

theorem State.mem_digests_previousGood (h : digest ∈ state.previousGood) : digest ∈ state.digests := by
  simp [digests, Option.mem_toList.mpr h]

theorem State.mem_digests_candidate (h : digest ∈ state.candidateDigest) : digest ∈ state.digests := by
  simp [digests, Option.mem_toList.mpr h]

theorem expectPointer_of_mixed {slot : Slot} {old new : Option String}
    (h : files (.slot slot) = pointerFile old ∨ files (.slot slot) = pointerFile new)
    (hold : ∀ d ∈ old, digestName d) (hnew : ∀ d ∈ new, digestName d) : expectPointer files slot old new = .ok () := by
  simp only [expectPointer, bind_eq_ok, require_eq_ok, pointer_eq_ok]
  rcases h with h | h
  · exact ⟨old, ⟨h, hold⟩, .inl rfl⟩
  · exact ⟨new, ⟨h, hnew⟩, .inr rfl⟩

theorem Mixed.recover (h : Mixed before after files) (hpermit : Permit artifacts before after)
    (haround : Around after files) : recover artifacts files = .ok (cleanTemporaries ++ finish before after) := by
  have hbefore := hpermit.beforeValid.digests
  have hafter := hpermit.afterValid.digests
  have hstate : ∃ current, readState files = .ok (some current) ∧ (current = before ∨ current = after) := by
    rcases h.state with hstate | hstate
    · exact ⟨before, readState_eq_ok.mpr ⟨hstate, hpermit.beforeValid⟩, .inl rfl⟩
    · exact ⟨after, readState_eq_ok.mpr ⟨hstate, hpermit.afterValid⟩, .inr rfl⟩
  obtain ⟨current, hread, hcurrent⟩ := hstate
  rw [Activation.recover, h.intent]
  simp only [bind_eq_ok, validate_eq_ok, require_eq_ok, forM_verifyInstalled_eq_ok, pure_eq_ok, pointer_eq_ok]
  refine ⟨(), hpermit.beforeValid, (), hpermit.afterValid, (), hpermit.follows, some current, hread, (), rfl, (),
    by simpa using hcurrent, after.candidateDigest, ⟨haround.candidate, fun d hd => ?_⟩, (), rfl, (),
    hpermit.afterVerified, (), expectPointer_of_mixed h.previousGood ?_ ?_, (),
    expectPointer_of_mixed h.active ?_ ?_, trivial⟩
  · exact hafter d (mem_digests_candidate hd)
  · exact fun d hd => hbefore d (mem_digests_previousGood hd)
  · exact fun d hd => hafter d (mem_digests_previousGood hd)
  · exact fun d hd => hbefore d (mem_digests_production hd)
  · exact fun d hd => hafter d (mem_digests_production hd)

theorem Crashed.recover (h : Crashed before after files durable) (hpermit : Permit artifacts before after)
    (haround : Around after files) :
    ∃ updates, recover artifacts files = .ok updates ∧
      ∀ done, done <+: updates →
        Crashed before after (done.foldl Update.apply files) (durable || (files (.slot .intent)).isSome) := by
  cases h with
  | old hintent h =>
      refine ⟨_, recover_of_none hintent, fun done hdone => ?_⟩
      rw [hintent]
      exact Crashed.of_agree (.old hintent h) (agree_clean (fun u hu => mem_cleanTemporaries (hdone.subset hu)) files)
  | new durable hintent h =>
      refine ⟨_, recover_of_none hintent, fun done hdone => ?_⟩
      exact Crashed.of_agree (.new _ hintent h) (agree_clean (fun u hu => mem_cleanTemporaries (hdone.subset hu)) files)
  | mixed durable h =>
      exact ⟨_, h.recover hpermit haround,
        fun done hdone => h.prefix_finish (fun u hu => mem_cleanTemporaries hu) hdone⟩

def Proper (u : Update FileName Content) : Prop :=
  (∃ slot content, u = atomic slot content) ∨ ∃ slot, u = .remove (.slot slot)

theorem proper_finish (h : u ∈ finish before after) : Proper u := by
  rcases List.mem_append.mp h with h | h
  · rcases mem_apply h with h | h | rfl
    · exact (mem_pointerChange h).imp (fun ⟨digest, _, hu⟩ => ⟨_, _, hu⟩) fun ⟨_, hu⟩ => ⟨_, hu⟩
    · exact (mem_pointerChange h).imp (fun ⟨digest, _, hu⟩ => ⟨_, _, hu⟩) fun ⟨_, hu⟩ => ⟨_, hu⟩
    · exact .inl ⟨_, _, rfl⟩
  · exact .inr ⟨_, List.mem_singleton.mp h⟩

theorem Tidy.apply (h : Tidy files) (hu : Proper u) : Tidy (u.apply files) := by
  intro slot
  rcases hu with ⟨slot', content, rfl⟩ | ⟨slot', rfl⟩
  · simp only [atomic, Update.apply]
    rw [Function.update_of_ne (by simp)]
    by_cases hslot : slot = slot'
    · rw [hslot, Function.update_self]
    · rw [Function.update_of_ne (by simpa using hslot)]
      exact h slot
  · rw [Update.apply, Function.update_of_ne (by simp)]
    exact h slot

theorem Tidy.foldl (h : Tidy files) (hus : ∀ u ∈ us, Proper u) : Tidy (us.foldl Update.apply files) :=
  Update.foldl_apply_keeps (P := Tidy) (fun u hu _ hfiles => Tidy.apply hfiles (hus u hu)) h

theorem Tidy.ready (h : Tidy files) (hus : ∀ u ∈ us, Proper u) : Update.Ready files us := by
  induction us generalizing files with
  | nil => trivial
  | cons u us ih =>
      have hu := hus u List.mem_cons_self
      refine ⟨?_, ih (Tidy.apply h hu) fun v hv => hus v (List.mem_cons_of_mem u hv)⟩
      rcases hu with ⟨slot, content, rfl⟩ | ⟨slot, rfl⟩
      · exact ⟨h slot, by simp⟩
      · trivial

theorem ready_cleanTemporaries (files : Files) : Update.Ready files cleanTemporaries := by
  simp [cleanTemporaries, Update.Ready, Update.Fits]

def Ours (u : Update FileName Content) : Prop := Proper u ∨ ∃ slot, u = .remove (.next slot)

theorem Ours.within (h : Ours u) : u.Within scratch := by
  rcases h with (⟨slot, content, rfl⟩ | ⟨slot, rfl⟩) | ⟨slot, rfl⟩ <;> trivial

theorem Ours.around (h : ∀ u ∈ us, Ours u) (haround : Around after files) :
    Around after (us.foldl Update.apply files) := by
  have hleaves : ∀ name, (∀ slot, name ≠ .slot slot ∧ name ≠ .next slot) →
      us.foldl Update.apply files name = files name := by
    intro name hname
    refine Update.foldl_apply_of_leaves (fun u hu => ?_) files
    rcases h u hu with (⟨slot, content, rfl⟩ | ⟨slot, rfl⟩) | ⟨slot, rfl⟩
    · exact ⟨(hname slot).1.symm, (hname slot).2.symm⟩
    · exact (hname slot).1.symm
    · exact (hname slot).2.symm
  refine ⟨?_, ?_, ?_⟩
  · rw [hleaves _ (by simp)]
    exact haround.candidate
  · rw [hleaves _ (by simp)]
    exact haround.candidateNext
  · rw [hleaves _ (by simp)]
    exact haround.incoming

theorem recover_ready (h : recover artifacts files = .ok updates) :
    Update.Ready files updates ∧ Tidy (updates.foldl Update.apply files) ∧
      updates.foldl Update.apply files (.slot .intent) = none ∧ ∀ u ∈ updates, Ours u := by
  unfold recover at h
  split at h
  · next hintent =>
      rw [← pure_eq_ok.mp h]
      have hclean := agree_clean (fun u hu => mem_cleanTemporaries hu) files (.slot .intent) id
      exact ⟨ready_cleanTemporaries files, tidy_clean files, hclean.trans hintent,
        fun u hu => .inr (mem_cleanTemporaries hu)⟩
  · next before after _ =>
      simp only [bind_eq_ok, pure_eq_ok] at h
      obtain ⟨-, -, -, -, -, -, -, -, -, -, -, -, -, -, -, -, -, -, -, -, -, -, rfl⟩ := h
      refine ⟨Update.ready_append.mpr ⟨ready_cleanTemporaries files, ?_⟩, ?_, ?_, fun u hu => ?_⟩
      · exact (tidy_clean files).ready fun u hu => proper_finish hu
      · rw [List.foldl_append]
        exact (tidy_clean files).foldl fun u hu => proper_finish hu
      · simp [finish, Update.apply]
      · rcases List.mem_append.mp hu with hu | hu
        · exact .inr (mem_cleanTemporaries hu)
        · exact .inl (proper_finish hu)
  · cases h

end Plans

end Crashes

section Opening

variable {d d' : Store}

theorem reference_eq_ok {digest : Option String} (h : files name = pointerFile digest)
    (hdigest : ∀ d ∈ digest, digestName d ∧ d ∈ artifacts.installed) :
    artifacts.reference files name = .ok digest.toList := by
  rw [reference, h]
  cases digest with
  | none => rfl
  | some digest =>
      obtain ⟨hname, hinstalled⟩ := hdigest digest rfl
      simp [pointerFile, hname, hinstalled]

theorem openForRecovery_eq_ok (h : ∀ name ∈ pointerNames, ∃ digest, files name = pointerFile digest ∧
      ∀ d ∈ digest, digestName d ∧ d ∈ artifacts.installed)
    (hincoming : files .incoming = none) (hnext : files .candidateNext = none) :
    artifacts.openForRecovery files = .ok () := by
  obtain ⟨active, hactive, hactive'⟩ := h (.slot .active) (by simp [pointerNames])
  obtain ⟨good, hgood, hgood'⟩ := h (.slot .previousGood) (by simp [pointerNames])
  obtain ⟨candidate, hcandidate, hcandidate'⟩ := h .candidate (by simp [pointerNames])
  simp only [openForRecovery, references, pointerNames, List.mapM_cons, List.mapM_nil, reference_eq_ok hactive hactive',
    reference_eq_ok hgood hgood', reference_eq_ok hcandidate hcandidate', bind_eq_ok, require_eq_ok, pure_eq_ok]
  exact ⟨_, ⟨_, ⟨_, rfl, _, ⟨_, rfl, _, ⟨_, rfl, _, rfl, rfl⟩, rfl⟩, rfl⟩, rfl⟩, hincoming, hnext⟩

theorem carryOut_eq_ok (h : d.updates updates = some d') : carryOut d updates = .ok d' := by
  rw [carryOut, h]

/-- The journal rests in a state: no commit is on its way and no scratch file is left. -/
structure Rests (artifacts : Artifacts) (s : State) (d : Store) : Prop where
  settled : d.Settled
  valid : s.Valid
  intent : d.read (.slot .intent) = none
  tidy : Tidy d.read
  shown : Shows s d.read
  verified : ∀ digest ∈ s.productionDigest.toList ++ s.previousGood.toList, Verified artifacts digest

theorem openJournal_eq_ok (hopen : artifacts.openForRecovery d.read = .ok ())
    (hrecover : recover artifacts d.read = .ok updates) (hupdates : d.updates updates = some d')
    (hrests : Rests artifacts state d') : openJournal artifacts d = .ok (state, d') := by
  have hread : readState d'.read = .ok (some state) := readState_eq_ok.mpr ⟨hrests.shown.state, hrests.valid⟩
  have hverify : verify artifacts d'.read state = .ok () :=
    verify_eq_ok.mpr ⟨hrests.valid, hrests.shown, hrests.verified⟩
  have hbootstrap : bootstrap artifacts d'.read = .ok [] := by
    rw [bootstrap, bind_eq_ok]
    exact ⟨some state, hread, rfl⟩
  simp only [openJournal, bind_eq_ok, pure_eq_ok]
  exact ⟨(), hopen, updates, hrecover, d', carryOut_eq_ok hupdates, [], hbootstrap, d', rfl, some state, hread, (),
    hverify, rfl⟩

theorem Rests.openJournal (h : Rests artifacts state d) (hopen : artifacts.openForRecovery d.read = .ok ()) :
    openJournal artifacts d = .ok (state, d) := by
  refine openJournal_eq_ok hopen (recover_of_none h.intent) ?_ h
  have hremove : ∀ slot, d.update (.remove (.next slot)) = some d := by
    intro slot
    have habsent := h.tidy slot
    rw [Disk.read, Option.map_eq_none_iff] at habsent
    rw [h.settled.update_remove, h.settled.removed_of_absent habsent]
  simp [Disk.updates, cleanTemporaries, hremove]

theorem Crashed.openForRecovery (h : Crashed before after files durable) (hpermit : Permit artifacts before after)
    (haround : Around after files) : artifacts.openForRecovery files = .ok () := by
  have hafter : ∀ d ∈ after.digests, digestName d ∧ d ∈ artifacts.installed := fun d hd =>
    ⟨(hpermit.afterVerified d hd).1, (hpermit.afterVerified d hd).2.1⟩
  have hbefore : ∀ d ∈ before.productionDigest.toList ++ before.previousGood.toList,
      digestName d ∧ d ∈ artifacts.installed := fun d hd =>
    ⟨(hpermit.beforeVerified d hd).1, (hpermit.beforeVerified d hd).2.1⟩
  have hfiles : (files (.slot .active) = pointerFile before.productionDigest ∨
        files (.slot .active) = pointerFile after.productionDigest) ∧
      (files (.slot .previousGood) = pointerFile before.previousGood ∨
        files (.slot .previousGood) = pointerFile after.previousGood) := by
    cases h with
    | old _ h => exact ⟨.inl h.active, .inl h.previousGood⟩
    | new _ _ h => exact ⟨.inr h.active, .inr h.previousGood⟩
    | mixed _ h => exact ⟨h.active, h.previousGood⟩
  refine openForRecovery_eq_ok (fun name hname => ?_) haround.incoming haround.candidateNext
  simp only [pointerNames, List.mem_cons, List.not_mem_nil, or_false] at hname
  rcases hname with rfl | rfl | rfl
  · rcases hfiles.1 with hactive | hactive
    · exact ⟨_, hactive, fun d hd => hbefore d (by simp [Option.mem_toList.mpr hd])⟩
    · exact ⟨_, hactive, fun d hd => hafter d (mem_digests_production hd)⟩
  · rcases hfiles.2 with hgood | hgood
    · exact ⟨_, hgood, fun d hd => hbefore d (by simp [Option.mem_toList.mpr hd])⟩
    · exact ⟨_, hgood, fun d hd => hafter d (mem_digests_previousGood hd)⟩
  · exact ⟨_, haround.candidate, fun d hd => hafter d (mem_digests_candidate hd)⟩

theorem Crashed.openJournal (h : Crashed before after d.read durable) (hsettled : d.Settled)
    (hpermit : Permit artifacts before after) (haround : Around after d.read) :
    ∃ s d', openJournal artifacts d = .ok (s, d') ∧ Rests artifacts s d' ∧ (s = before ∨ s = after) ∧
      (durable = true ∨ (d.read (.slot .intent)).isSome → s = after) ∧
      artifacts.openForRecovery d'.read = .ok () := by
  have hopen := h.openForRecovery hpermit haround
  obtain ⟨updates, hrecover, hfront⟩ := h.recover hpermit haround
  obtain ⟨hready, htidy, hgone, hours⟩ := recover_ready hrecover
  obtain ⟨d', hupdates, hsettled', hread⟩ := hsettled.updates updates hready
  have hcrashed := hfront updates List.prefix_rfl
  have haround' := Ours.around hours haround
  rw [← hread] at hgone htidy hcrashed haround'
  have hopen' := hcrashed.openForRecovery hpermit haround'
  -- The state that is shown decides which of the two is opened.
  generalize hdurable : (durable || (d.read (.slot .intent)).isSome) = known at hcrashed
  cases hcrashed with
  | mixed _ hmixed => cases hgone.symm.trans hmixed.intent
  | old _ hshows =>
      have hnever : ¬(durable = true ∨ (d.read (.slot .intent)).isSome) := by simpa using hdurable
      have hrests : Rests artifacts before d' :=
        ⟨hsettled', hpermit.beforeValid, hgone, htidy, hshows, hpermit.beforeVerified⟩
      exact ⟨before, d', openJournal_eq_ok hopen hrecover hupdates hrests, hrests, .inl rfl,
        fun hdurable => absurd hdurable hnever, hopen'⟩
  | new _ _ hshows =>
      have hrests : Rests artifacts after d' := ⟨hsettled', hpermit.afterValid, hgone, htidy, hshows, fun digest hd =>
        hpermit.afterVerified digest (List.mem_append_left _ hd)⟩
      exact ⟨after, d', openJournal_eq_ok hopen hrecover hupdates hrests, hrests, .inr rfl, fun _ => rfl, hopen'⟩

theorem openJournal_rests (hsettled : d.Settled) (h : openJournal artifacts d = .ok (state, d')) :
    Rests artifacts state d' := by
  simp only [openJournal, bind_eq_ok, pure_eq_ok] at h
  obtain ⟨_, _, updates, hrecover, d₁, hcarry, updates', hbootstrap, d₂, hcarry', stored, hread, _, hverify, heq⟩ := h
  cases heq
  obtain ⟨hvalid, hshown, hverified⟩ := verify_eq_ok.mp hverify
  obtain ⟨hready, htidy, hgone, _⟩ := recover_ready hrecover
  obtain ⟨recovered, hrecovered, hsettled₁, hread₁⟩ := hsettled.updates updates hready
  obtain rfl : recovered = d₁ := by simpa [carryOut, hrecovered] using hcarry
  rw [← hread₁] at htidy hgone
  have hproper : ∀ u ∈ updates', ∃ content, u = atomic .state content := by
    rw [bootstrap, bind_eq_ok] at hbootstrap
    obtain ⟨found, _, hbootstrap⟩ := hbootstrap
    cases found with
    | some s =>
        rw [← pure_eq_ok.mp hbootstrap]
        simp
    | none =>
        simp only [bind_eq_ok, pure_eq_ok] at hbootstrap
        obtain ⟨_, _, _, _, _, _, _, _, _, _, rfl⟩ := hbootstrap
        simp
  have hproper' : ∀ u ∈ updates', Proper u := fun u hu => .inl ⟨.state, hproper u hu⟩
  obtain ⟨opened, hopened, hsettled₂, hread₂⟩ := hsettled₁.updates updates' (htidy.ready hproper')
  obtain rfl : opened = d' := by simpa [carryOut, hopened] using hcarry'
  refine ⟨hsettled₂, hvalid, ?_, ?_, hshown, hverified⟩
  · rw [hread₂, Update.foldl_apply_of_leaves ?_]
    · exact hgone
    · intro u hu
      obtain ⟨content, rfl⟩ := hproper u hu
      exact ⟨by simp, by simp⟩
  · rw [hread₂]
    exact htidy.foldl hproper'

end Opening

section Refinement

/-- The commit of a transition was interrupted, and so may have been recoveries. -/
inductive Interrupted (artifacts : Artifacts) (d : Store) (before after : State) : Bool → Store → Prop
  | intent {done : List (Op FileName Content)} {mid d' : Store}
      (hdone : done <+: (atomic .intent (.intent before after)).ops d) (hmid : d.execs done = some mid)
      (hcrash : mid.Crash d') : Interrupted artifacts d before after false d'
  | commit {mid mid' d' : Store} (hintent : d.update (atomic .intent (.intent before after)) = some mid)
      (hreaches : mid.Reaches (finish before after) mid') (hcrash : mid'.Crash d') :
      Interrupted artifacts d before after true d'
  | recovery {durable : Bool} {d₁ mid d' : Store} {updates : List (Update FileName Content)}
      (h : Interrupted artifacts d before after durable d₁) (hrecover : recover artifacts d₁.read = .ok updates)
      (hreaches : d₁.Reaches updates mid) (hcrash : mid.Crash d') :
      Interrupted artifacts d before after (durable || (d₁.read (.slot .intent)).isSome) d'

variable {d d' : Store}

theorem Shows.mixed (h : Shows before files) :
    Mixed before after ((atomic .intent (.intent before after)).apply files) where
  intent := by simp [atomic, Update.apply]
  state := .inl h.state
  active := .inl h.active
  previousGood := .inl h.previousGood

theorem Interrupted.crashed (h : Interrupted artifacts d before after durable d') (hrests : Rests artifacts before d)
    (hpermit : Permit artifacts before after) (haround : Around after d.read) :
    d'.Settled ∧ Crashed before after d'.read durable ∧ Around after d'.read := by
  have hours : Ours (atomic .intent (.intent before after)) := .inl (.inl ⟨_, _, rfl⟩)
  have hfits : (atomic .intent (.intent before after)).Fits d.read := ⟨hrests.tidy .intent, by simp⟩
  have hintent_around : Around after ((atomic .intent (.intent before after)).apply d.read) := by
    have hsingle : ∀ u ∈ [atomic .intent (.intent before after)], Ours u := by simpa using hours
    exact Ours.around hsingle haround
  induction h with
  | intent hdone hmid hcrash =>
      obtain ⟨hsettled, hagree | hagree⟩ := hrests.settled.crash_inside hfits hours.within hdone hmid hcrash
      · exact ⟨hsettled, Crashed.of_agree (.old hrests.intent hrests.shown) hagree, haround.of_agree hagree⟩
      · exact ⟨hsettled, Crashed.of_agree (.mixed false hrests.shown.mixed) hagree, hintent_around.of_agree hagree⟩
  | @commit mid mid' d' hintent hreaches hcrash =>
      obtain ⟨written, hwritten, hsettled, hread⟩ := hrests.settled.update _ hfits
      obtain rfl : mid = written := Option.some.inj (hintent.symm.trans hwritten)
      have htidy : Tidy mid.read := hread ▸ Tidy.apply hrests.tidy (.inl ⟨_, _, rfl⟩)
      have hproper : ∀ u ∈ finish before after, Proper u := fun u hu => proper_finish hu
      obtain ⟨hsettled', done, hdone, hagree⟩ := hsettled.crash_reaches (htidy.ready hproper)
        (fun u hu => Ours.within (.inl (hproper u hu))) hreaches hcrash
      have hmixed : Mixed before after mid.read := hread ▸ hrests.shown.mixed
      have haround' : Around after mid.read := hread ▸ hintent_around
      have hdone_ours : ∀ u ∈ done, Ours u := fun u hu => .inl (hproper u (hdone.subset hu))
      have hdone_finish : done <+: [] ++ finish before after := hdone
      refine ⟨hsettled', Crashed.of_agree ?_ hagree, (Ours.around hdone_ours haround').of_agree hagree⟩
      exact hmixed.prefix_finish (by simp) hdone_finish
  | recovery _ hrecover hreaches hcrash ih =>
      obtain ⟨hsettled, hcrashed, haround'⟩ := ih
      obtain ⟨updates, hplan, hfront⟩ := hcrashed.recover hpermit haround'
      cases hrecover.symm.trans hplan
      obtain ⟨hready, _, _, hours'⟩ := recover_ready hrecover
      obtain ⟨hsettled', done, hdone, hagree⟩ :=
        hsettled.crash_reaches hready (fun u hu => (hours' u hu).within) hreaches hcrash
      exact ⟨hsettled', (hfront done hdone).of_agree hagree,
        (Ours.around (fun u hu => hours' u (hdone.subset hu)) haround').of_agree hagree⟩

/-- However often a commit and its recovery are interrupted, the journal opens in the state before or after it. -/
theorem interrupted_openJournal (artifacts : Artifacts) (d : Store) (before after : State)
    (hrests : Rests artifacts before d) (hincoming : d.read .incoming = none) (hnext : d.read .candidateNext = none)
    (hprepared : Prepared artifacts d.read before after) (durable : Bool) (d' : Store)
    (hinterrupted : Interrupted artifacts d before after durable d') :
    ∃ s d'', openJournal artifacts d' = .ok (s, d'') ∧ (s = before ∨ s = after) ∧
      (durable = true ∨ (d'.read (.slot .intent)).isSome → s = after) ∧ Shows s d''.read ∧
      d''.read (.slot .intent) = none ∧ openJournal artifacts d'' = .ok (s, d'') := by
  obtain ⟨hpermit, _, hcandidate⟩ := hprepared.permit
  obtain ⟨hsettled, hcrashed, haround⟩ := hinterrupted.crashed hrests hpermit ⟨hcandidate, hnext, hincoming⟩
  obtain ⟨s, d'', hopen, hrests', heither, hdurable, hagain⟩ := hcrashed.openJournal hsettled hpermit haround
  exact ⟨s, d'', hopen, heither, hdurable, hrests'.shown, hrests'.intent, hrests'.openJournal hagain⟩

section Sample

def sampleBefore : State := { candidate := some ⟨sampleDigest 'a', .installed⟩ }

def sampleAfter : State := { sequence := 1, candidate := some ⟨sampleDigest 'a', .staging⟩ }

def sampleArtifacts : Artifacts := ⟨[sampleDigest 'a'], fun _ => none⟩

def sampleStore : Store where
  data
    | 0 => .whole (.state sampleBefore)
    | _ => .whole (.pointer (sampleDigest 'a'))
  fresh := 2
  stable
    | .slot .state => some 0
    | .candidate => some 1
    | _ => none
  pending := []

theorem sampleStore_settled : sampleStore.Settled := by
  refine ⟨rfl, fun name inode hinode => ?_⟩
  simp only [sampleStore] at hinode
  split at hinode
  · cases hinode
    exact Nat.zero_lt_succ 1
  · cases hinode
    exact Nat.lt_succ_self 1
  · cases hinode

def sampleCrash : Store :=
  sampleStore.landed (.whole (.intent sampleBefore sampleAfter))
    [.link (.next .intent) 2, .rename (.next .intent) (.slot .intent) 2]

theorem sampleCrash_openJournal : ∃ s d, openJournal sampleArtifacts sampleCrash = .ok (s, d) ∧ s = sampleAfter := by
  have hsettled := sampleStore_settled
  have hvalidate : sampleBefore.validate = .ok () := rfl
  have hrests : Rests sampleArtifacts sampleBefore sampleStore :=
    ⟨hsettled, validate_eq_ok.mp hvalidate, rfl, fun slot => by cases slot <;> rfl, ⟨rfl, rfl, rfl⟩,
      by simp [sampleBefore, productionDigest]⟩
  have hprepare : prepareTransition sampleArtifacts sampleStore.read sampleBefore .beginStaging = .ok sampleAfter := rfl
  have hinterrupted : Interrupted sampleArtifacts sampleStore sampleBefore sampleAfter false sampleCrash := by
    have hdone : [.create (.next .intent), .fill (.next .intent) (.intent sampleBefore sampleAfter),
        .rename (.next .intent) (.slot .intent)] <+:
          (atomic .intent (.intent sampleBefore sampleAfter)).ops sampleStore :=
      ⟨[.sync], rfl⟩
    have hfits : (atomic .intent (.intent sampleBefore sampleAfter)).Fits sampleStore.read := ⟨rfl, by simp⟩
    have hmid : sampleStore.execs [.create (.next .intent), .fill (.next .intent) (.intent sampleBefore sampleAfter),
        .rename (.next .intent) (.slot .intent)] = some (sampleStore.staged (.whole (.intent sampleBefore sampleAfter))
          [.link (.next .intent) 2, .rename (.next .intent) (.slot .intent) 2]) := by
      simp only [Disk.execs, List.foldlM_cons, List.foldlM_nil, hsettled.exec_create hfits.1, Option.bind_eq_bind,
        Option.bind_some, Disk.exec_fill, Disk.exec_rename]
      rfl
    exact .intent hdone hmid (.mk _ (List.Sublist.refl _))
  obtain ⟨s, d, hopen, _, hdurable, _⟩ := interrupted_openJournal sampleArtifacts sampleStore sampleBefore sampleAfter
    hrests rfl rfl (.transition hprepare) false sampleCrash hinterrupted
  exact ⟨s, d, hopen, hdurable (.inr rfl)⟩

end Sample

end Refinement

end OcppBridge.Activation
