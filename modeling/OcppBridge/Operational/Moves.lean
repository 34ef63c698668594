import OcppBridge.Operational.Ledger
import OcppBridge.Revisions

namespace OcppBridge.Operational

open Storage Transaction Relation Table

variable {P ρ : Type} {shape : Shape ρ}

theorem stationKey_eq_ok {r : ResourceRef} {station : StationKey} (h : stationKey r = .ok station) :
    r.key = station := by
  simp only [stationKey, bind_eq_ok, require_eq_ok, pure_eq_ok] at h
  obtain ⟨_, _, h⟩ := h
  exact h

namespace Shape

def place (shape : Shape ρ) (r : ρ) : StationKey × Nat := ((shape.station r).key, shape.revision r)

theorem key_eq (e : Entry ρ) : shape.key e = shape.place e.record := rfl

def Same (shape : Shape ρ) (r r' : ρ) : Prop := shape.place r' = shape.place r ∧ shape.requestId r' = shape.requestId r

theorem decode_eq_ok {r r' : ρ} : shape.decode r = .ok r' ↔ shape.decodable r ∧ r = r' := by
  simp only [decode, bind_eq_ok, require_eq_ok, pure_eq_ok, exists_and_left]
  simp

theorem mapM_decode {es : List (Entry ρ)} {values : List ρ}
    (h : es.mapM (fun e => shape.decode e.record) = .ok values) :
    values = es.map (·.record) ∧ ∀ e ∈ es, shape.decodable e.record := by
  induction es generalizing values with
  | nil =>
      simp only [List.mapM_nil, pure_eq_ok] at h
      simp [← h]
  | cons e es ih =>
      simp only [List.mapM_cons, bind_eq_ok, decode_eq_ok, pure_eq_ok] at h
      obtain ⟨r, ⟨hd, rfl⟩, rest, hrest, rfl⟩ := h
      obtain ⟨rfl, hall⟩ := ih hrest
      exact ⟨rfl, by simpa [hd] using hall⟩

end Shape

namespace Desk

variable {desk desk' : Desk P shape} {request : RequestId}

section Reading

variable {station : StationKey} {e : Entry ρ} {values : List ρ}

theorem mem_entries : e ∈ desk.entries station ↔ e ∈ desk.rows ∧ (shape.station e.record).key = station := by
  simp [entries, mem_def]

theorem ofRequest_eq_some (h : desk.ofRequest request = some e) : e ∈ desk.rows ∧ shape.requestId e.record = request :=
  ⟨List.mem_of_find?_eq_some h, by simpa using List.find?_some h⟩

section

variable (h : desk.readKey station = .ok values)

include h

theorem readKey_eq_ok :
    values = (desk.entries station).map (·.record) ∧ ∀ v ∈ values, shape.decodable v := by
  simp only [readKey, bind_eq_ok, require_eq_ok, pure_eq_ok] at h
  obtain ⟨values, hvalues, _, hle, rfl⟩ := h
  obtain ⟨rfl, hall⟩ := Shape.mapM_decode hvalues
  have htake : (desk.entries station).take (shape.limit + 1) = desk.entries station := by
    apply List.take_of_length_le
    simp only [List.length_map, List.length_take] at hle
    omega
  rw [htake] at hall ⊢
  refine ⟨rfl, ?_⟩
  intro v hv
  obtain ⟨e, he, rfl⟩ := List.mem_map.mp hv
  exact hall e he

theorem mem_readKey {v : ρ} :
    v ∈ values ↔ ∃ e ∈ desk.rows, (shape.station e.record).key = station ∧ e.record = v := by
  rw [(readKey_eq_ok h).1]
  simp only [List.mem_map, mem_entries, and_assoc]

theorem nodup_readKey : (values.map shape.place).Nodup := by
  rw [(readKey_eq_ok h).1, List.map_map]
  have hperm : (desk.entries station).Perm (desk.rows.rows.filter fun e => (shape.station e.record).key = station) :=
    List.mergeSort_perm _ _
  exact (hperm.map shape.key).nodup_iff.mpr (Keyed.nodup_delete desk.rows.nodup _)

end

structure Lists (desk : Desk P shape) (values : List ρ) : Prop where
  mem : ∀ v ∈ values, ∃ e ∈ desk.rows, e.record = v
  nodup : (values.map shape.place).Nodup

theorem readKey_lists (h : desk.readKey station = .ok values) : desk.Lists values := by
  refine ⟨fun v hv => ?_, nodup_readKey h⟩
  obtain ⟨e, he, _, rfl⟩ := (mem_readKey h).mp hv
  exact ⟨e, he, rfl⟩

def landed (shape : Shape ρ) (station : StationKey) (e : Entry ρ) : Entry ρ :=
  if (shape.station e.record).key = station then { e with inflight := false } else e

theorem landed_record (station : StationKey) (e : Entry ρ) : (landed shape station e).record = e.record := by
  unfold landed
  split_ifs <;> rfl

theorem landed_key (station : StationKey) (e : Entry ρ) : shape.key (landed shape station e) = shape.key e := by
  rw [Shape.key_eq, landed_record, Shape.key_eq]

theorem land_rows (station : StationKey) :
    (desk.land station).rows = desk.rows.update (landed shape station) (landed_key station) := rfl

theorem mem_land : e ∈ (desk.land station).rows ↔ ∃ x ∈ desk.rows, landed shape station x = e := by
  rw [land_rows, mem_update]

theorem Lists.land (hl : desk.Lists values) (station : StationKey) : (desk.land station).Lists values := by
  refine ⟨fun v hv => ?_, hl.nodup⟩
  obtain ⟨e, he, rfl⟩ := hl.mem v hv
  exact ⟨_, mem_land.mpr ⟨e, he, rfl⟩, landed_record station e⟩

section

variable (h : desk.readKey station = .ok values)

include h

theorem le_getLast_readKey {head v : ρ} (hhead : values.getLast? = some head)
    (hv : v ∈ values) : shape.revision v ≤ shape.revision head := by
  have hsorted : values.Pairwise fun v w => shape.revision v ≤ shape.revision w := by
    rw [(readKey_eq_ok h).1, List.pairwise_map]
    let le (a b : Entry ρ) : Bool := shape.revision a.record ≤ shape.revision b.record
    have htrans : ∀ a b c, le a b → le b c → le a c := by
      simp only [le, decide_eq_true_eq]
      omega
    have htotal : ∀ a b, le a b || le b a := by
      simp only [le, Bool.or_eq_true, decide_eq_true_eq]
      omega
    exact (List.pairwise_mergeSort htrans htotal _).imp fun hab => by simpa [le] using hab
  obtain ⟨front, rfl⟩ := List.getLast?_eq_some_iff.mp hhead
  rcases List.mem_append.mp hv with hv | hv
  · exact (List.pairwise_append.mp hsorted).2.2 v hv head (by simp)
  · rw [List.mem_singleton.mp hv]

theorem lt_next_readKey :
    ∀ e ∈ desk.rows, (shape.station e.record).key = station →
      shape.revision e.record < (values.getLast?.map (shape.revision · + 1)).getD 1 := by
  intro e he hs
  have hmem : e.record ∈ values := (mem_readKey h).mpr ⟨e, he, hs, rfl⟩
  cases hlast : values.getLast? with
  | none => simp [List.getLast?_eq_none_iff.mp hlast] at hmem
  | some head =>
      have hle := le_getLast_readKey h hlast hmem
      simp only [Option.map_some, Option.getD_some]
      omega

theorem dropLast_readKey {head : ρ} (hhead : values.getLast? = some head) :
    ∀ v ∈ values.dropLast, ∃ e ∈ desk.rows, e.record = v ∧ (shape.station v).key = station ∧
      shape.revision v < shape.revision head := by
  intro v hv
  have hmem : v ∈ values := List.dropLast_subset values hv
  obtain ⟨e, he, hstation, rfl⟩ := (mem_readKey h).mp hmem
  refine ⟨e, he, rfl, hstation, lt_of_le_of_ne (le_getLast_readKey h hhead hmem) fun heq => ?_⟩
  obtain ⟨f, _, hf, rfl⟩ := (mem_readKey h).mp (List.mem_of_getLast? hhead)
  obtain ⟨front, rfl⟩ := List.getLast?_eq_some_iff.mp hhead
  have hn := nodup_readKey h
  rw [List.map_append, List.nodup_append] at hn
  simp only [List.dropLast_concat] at hv
  exact hn.2.2 (shape.place e.record) (List.mem_map_of_mem hv) (shape.place f.record) (by simp)
    (by rw [Shape.place, Shape.place, hstation, hf, heq])

end

end Reading

section Writing

variable {r : ρ} {inflight : Option Bool}

theorem save_eq_ok (h : desk.save r inflight = .ok desk') :
    ∃ e ∈ desk.rows, shape.key e = shape.place r ∧ desk'.rows = desk.rows.replace ⟨r, inflight.getD e.inflight⟩ ∧
      desk'.journal = desk.journal := by
  simp only [save, bind_eq_ok, require_eq_ok] at h
  obtain ⟨station, hstation, _, _, h⟩ := h
  split at h
  · cases h
  · next e he =>
      obtain ⟨hmem, hkey⟩ := find?_eq_some.mp he
      rw [pure_eq_ok] at h
      subst h
      exact ⟨e, hmem, by rw [hkey, Shape.place, stationKey_eq_ok hstation], rfl, rfl⟩

theorem save_of_mem {e : Entry ρ} (he : e ∈ desk.rows) (hplace : shape.place r = shape.place e.record)
    (h : desk.save r inflight = .ok desk') :
    desk'.rows = desk.rows.replace ⟨r, inflight.getD e.inflight⟩ ∧ desk'.journal = desk.journal := by
  obtain ⟨e', he', hkey, hrows, hjournal⟩ := save_eq_ok h
  have heq : e' = e := eq_of_key he' he (by rw [hkey, hplace, Shape.key_eq])
  exact ⟨heq ▸ hrows, hjournal⟩

theorem delete_eq_ok {station : StationKey} {removed : Bool} (h : desk.delete station r = .ok (desk', removed)) :
    desk' = desk ∨
      (desk.journal.results.find? (shape.requestId r) = none ∧
        desk' = { desk with rows := desk.rows.keep fun e => shape.key e ≠ (station, shape.revision r) }) := by
  simp only [delete, bind_eq_ok, require_eq_ok] at h
  obtain ⟨_, _, h⟩ := h
  split_ifs at h with hcond
  · simp only [pure_eq_ok, Prod.mk.injEq] at h
    exact .inr ⟨by simpa using hcond.1, h.1.symm⟩
  · simp only [pure_eq_ok, Prod.mk.injEq] at h
    exact .inl h.1.symm

theorem insert_eq_ok {station : StationKey} (h : desk.insert station r = .ok desk') :
    (∀ e ∈ desk.rows, shape.requestId e.record ≠ shape.requestId r ∧
      ¬(e.inflight = true ∧ (shape.station e.record).key = station)) ∧
    desk' = { desk with rows := desk.rows.put ⟨r, true⟩ } := by
  simp only [insert, bind_eq_ok, require_eq_ok, pure_eq_ok] at h
  obtain ⟨_, _, _, hunique, rfl⟩ := h
  exact ⟨fun e he => (hunique e he).2, rfl⟩

variable [Wire P]

theorem syncResult_eq_ok (h : desk.syncResult r = .ok desk') :
    desk'.rows = desk.rows ∧
      ((desk'.journal = desk.journal ∧
          ∀ payload, desk.journal.result? (shape.requestId r) = some payload → shape.refresh r payload = none) ∨
        ∃ payload result, desk.journal.result? (shape.requestId r) = some payload ∧
          shape.refresh r payload = some result ∧
          desk'.journal = desk.journal.setPayload (shape.requestId r) result) := by
  unfold syncResult at h
  split at h
  · next hnone =>
      rw [pure_eq_ok] at h
      subst h
      exact ⟨rfl, .inl ⟨rfl, fun payload hpayload => by cases hnone.symm.trans hpayload⟩⟩
  · next payload hpayload =>
      simp only [bind_eq_ok, decodeResult, pure_eq_ok] at h
      obtain ⟨_, ⟨_, _, rfl⟩, h⟩ := h
      split at h
      · next hnone =>
          rw [pure_eq_ok] at h
          subst h
          refine ⟨rfl, .inl ⟨rfl, fun payload' hpayload' => ?_⟩⟩
          rwa [← Option.some.inj (hpayload.symm.trans hpayload')]
      · next result hresult =>
          rw [pure_eq_ok] at h
          subst h
          exact ⟨rfl, .inr ⟨payload, result, hpayload, hresult, rfl⟩⟩

theorem amend_eq_ok (h : desk.amend inflight r = .ok desk') :
    ∃ saved, desk.save r inflight = .ok saved ∧ saved.syncResult r = .ok desk' := by
  simpa only [amend, bind_eq_ok] using h

theorem amend_of_mem {e : Entry ρ} (h : desk.amend inflight r = .ok desk') (he : e ∈ desk.rows)
    (hplace : shape.place r = shape.place e.record) : desk'.rows = desk.rows.replace ⟨r, inflight.getD e.inflight⟩ := by
  obtain ⟨saved, hsave, hsync⟩ := amend_eq_ok h
  rw [(syncResult_eq_ok hsync).1, (save_of_mem he hplace hsave).1]

end Writing

section Walks

def Rewritten (change : ρ → Option ρ) (values : List ρ) (e e' : Entry ρ) : Prop :=
  (e' = e ∧ (e.record ∈ values → change e.record = none)) ∨ (e.record ∈ values ∧ change e.record = some e'.record)

variable {change : ρ → Option ρ} {values : List ρ}

theorem rewritten_cons {v : ρ} {e e' : Entry ρ} (hv : e.record = v → change v = none)
    (h : Rewritten change values e e') : Rewritten change (v :: values) e e' := by
  rcases h with ⟨rfl, hnone⟩ | ⟨hmem, hsome⟩
  · refine .inl ⟨rfl, fun hmem => ?_⟩
    rcases List.mem_cons.mp hmem with heq | hmem
    · exact heq ▸ hv heq
    · exact hnone hmem
  · exact .inr ⟨List.mem_cons_of_mem v hmem, hsome⟩

/-- What a walk over `values` leaves of the table. -/
structure Swept (change : ρ → Option ρ) (values : List ρ) (desk desk' : Desk P shape) : Prop where
  origin : ∀ e' ∈ desk'.rows, ∃ e ∈ desk.rows, shape.key e = shape.key e' ∧ Rewritten change values e e'
  forward : ∀ e ∈ desk.rows, ∃ e' ∈ desk'.rows, shape.key e = shape.key e' ∧ Rewritten change values e e'

theorem Swept.nil : Swept change [] desk desk :=
  have hstay : ∀ e ∈ desk.rows, ∃ e' ∈ desk.rows, shape.key e = shape.key e' ∧ Rewritten change [] e e' :=
    fun e he => ⟨e, he, rfl, .inl ⟨rfl, fun h => absurd h List.not_mem_nil⟩⟩
  ⟨fun e he => ⟨e, he, rfl, .inl ⟨rfl, fun h => absurd h List.not_mem_nil⟩⟩, hstay⟩

theorem Swept.skip {v : ρ} (hnone : change v = none) (hs : Swept change values desk desk') :
    Swept change (v :: values) desk desk' := by
  constructor
  · intro e' he'
    obtain ⟨e, he, hk, hre⟩ := hs.origin e' he'
    exact ⟨e, he, hk, rewritten_cons (fun _ => hnone) hre⟩
  · intro e he
    obtain ⟨e', he', hk, hre⟩ := hs.forward e he
    exact ⟨e', he', hk, rewritten_cons (fun _ => hnone) hre⟩

theorem Swept.write {mid : Desk P shape} {e₀ : Entry ρ} {c : ρ} {inflight : Bool} (he₀ : e₀ ∈ desk.rows)
    (hsame : shape.Same e₀.record c) (hsome : change e₀.record = some c)
    (hfresh : ∀ r, shape.place r = shape.place e₀.record → r ∉ values)
    (hrows : mid.rows = desk.rows.replace ⟨c, inflight⟩) (hs : Swept change values mid desk') :
    Swept change (e₀.record :: values) desk desk' := by
  have hchanged : ∀ {e' : Entry ρ}, Rewritten change values ⟨c, inflight⟩ e' →
      Rewritten change (e₀.record :: values) e₀ e' := by
    intro e' hre
    rcases hre with ⟨rfl, _⟩ | ⟨hmem, _⟩
    · exact .inr ⟨by simp, hsome⟩
    · exact absurd hmem (hfresh c hsame.1)
  have hother : ∀ {e e' : Entry ρ}, shape.key e ≠ shape.place e₀.record → Rewritten change values e e' →
      Rewritten change (e₀.record :: values) e e' :=
    fun hne hre => rewritten_cons (fun heq => absurd (by rw [Shape.key_eq, heq]) hne) hre
  constructor
  · intro e' he'
    obtain ⟨e, he, hk, hre⟩ := hs.origin e' he'
    rw [hrows] at he
    rcases mem_replace.mp he with ⟨he, hne⟩ | ⟨rfl, _⟩
    · exact ⟨e, he, hk, hother (fun h => hne (h.trans hsame.1.symm)) hre⟩
    · exact ⟨e₀, he₀, hsame.1.symm.trans hk, hchanged hre⟩
  · intro e he
    by_cases hk₀ : shape.key e = shape.place e₀.record
    · obtain rfl : e = e₀ := eq_of_key he he₀ hk₀
      have hc : (⟨c, inflight⟩ : Entry ρ) ∈ mid.rows := by
        rw [hrows]
        exact mem_replace.mpr (.inr ⟨rfl, e, he, hsame.1.symm⟩)
      obtain ⟨e', he', hk, hre⟩ := hs.forward _ hc
      exact ⟨e', he', hsame.1.symm.trans hk, hchanged hre⟩
    · have hmid : e ∈ mid.rows := by
        rw [hrows]
        exact mem_replace.mpr (.inl ⟨he, fun h => hk₀ (h.trans hsame.1)⟩)
      obtain ⟨e', he', hk, hre⟩ := hs.forward e hmid
      exact ⟨e', he', hk, hother hk₀ hre⟩

theorem Swept.lists (hs : Swept change values desk desk') (hc : ∀ v ∈ values, ∀ c, change v = some c → shape.Same v c)
    (hl : desk.Lists values) : desk'.Lists (values.map fun v => (change v).getD v) := by
  constructor
  · intro _ hmem
    obtain ⟨v, hv, rfl⟩ := List.mem_map.mp hmem
    obtain ⟨e, he, rfl⟩ := hl.mem v hv
    obtain ⟨e', he', _, hre⟩ := hs.forward e he
    rcases hre with ⟨rfl, hnone⟩ | ⟨_, hsome⟩
    · exact ⟨e', he', by rw [hnone hv]; rfl⟩
    · exact ⟨e', he', by rw [hsome]; rfl⟩
  · have hplaces : (values.map fun v => (change v).getD v).map shape.place = values.map shape.place := by
      rw [List.map_map]
      apply List.map_congr_left
      intro v hv
      cases hcv : change v with
      | none => simp [hcv]
      | some c => simpa [hcv] using (hc v hv c hcv).1
    rw [hplaces]
    exact hl.nodup

end Walks

section Moves

/-- How a family may rewrite its records, and which records it may begin with. -/
structure Rules (ρ : Type) where
  allowed : ρ → ρ → Prop
  fresh : ρ → Prop

variable [Wire P]

/-- What the operations of a ledger do, one table write at a time. -/
inductive Move (rules : Rules ρ) : Desk P shape → Desk P shape → Prop
  | amend {desk desk' : Desk P shape} {e : Entry ρ} {r : ρ} {inflight : Option Bool} (he : e ∈ desk.rows)
      (hs : shape.Same e.record r) (hr : rules.allowed e.record r) (hi : inflight ≠ some true)
      (h : desk.amend inflight r = .ok desk') : Move rules desk desk'
  | save {desk desk' : Desk P shape} {e : Entry ρ} {r : ρ} (he : e ∈ desk.rows) (hs : shape.Same e.record r)
      (hr : rules.allowed e.record r) (hq : shape.refresh r = shape.refresh e.record)
      (h : desk.save r none = .ok desk') : Move rules desk desk'
  | discard {desk desk' : Desk P shape} {station : StationKey} {r : ρ} {removed : Bool}
      (he : ∀ e ∈ desk.rows, shape.key e = (station, shape.revision r) → e.record = r)
      (hhead : ∃ f ∈ desk.rows, (shape.station f.record).key = station ∧ shape.revision r < shape.revision f.record)
      (h : desk.delete station r = .ok (desk', removed)) : Move rules desk desk'
  | insert {desk desk' : Desk P shape} {station : StationKey} {r : ρ} (hstation : (shape.station r).key = station)
      (hn : ∀ e ∈ desk.rows, (shape.station e.record).key = station → shape.revision e.record < shape.revision r)
      (hr : rules.fresh r) (h : desk.insert station r = .ok desk') : Move rules desk desk'
  | land {desk : Desk P shape} (station : StationKey) : Move rules desk (desk.land station)
  | register {desk : Desk P shape} (jobs : List ReleaseJob) : Move rules desk { desk with releaseJobs := jobs }

abbrev Moves (rules : Rules ρ) : Desk P shape → Desk P shape → Prop := ReflTransGen (Move rules)

theorem Move.journal_eq {rules : Rules ρ} (h : Move rules desk desk') :
    desk'.journal = desk.journal ∨ ∃ e' ∈ desk'.rows, ∃ payload result,
      desk.journal.result? (shape.requestId e'.record) = some payload ∧ shape.refresh e'.record payload = some result ∧
        desk'.journal = desk.journal.setPayload (shape.requestId e'.record) result := by
  cases h with
  | amend he hs hr hi h =>
      rename_i e r inflight
      obtain ⟨saved, hsave, hsync⟩ := amend_eq_ok h
      obtain ⟨hrows, hjournal⟩ := save_of_mem he hs.1 hsave
      obtain ⟨hrows', hjournal'⟩ := syncResult_eq_ok hsync
      rcases hjournal' with ⟨heq, _⟩ | ⟨payload, result, hresult, hrefresh, heq⟩
      · exact .inl (heq.trans hjournal)
      · rw [hjournal] at hresult heq
        refine .inr ⟨⟨r, inflight.getD e.inflight⟩, ?_, payload, result, hresult, hrefresh, heq⟩
        rw [hrows', hrows]
        exact mem_replace.mpr (.inr ⟨rfl, e, he, hs.1.symm⟩)
  | save he hs _ _ h => exact .inl (save_of_mem he hs.1 h).2
  | discard _ _ h =>
      rcases delete_eq_ok h with rfl | ⟨_, rfl⟩
      · exact .inl rfl
      · exact .inl rfl
  | insert _ _ _ h => exact .inl (by rw [(insert_eq_ok h).2])
  | land station => exact .inl rfl
  | register jobs => exact .inl rfl

variable {inflight : Option Bool}

theorem inflight_of_getD {b : Bool} (hi : inflight ≠ some true) (h : inflight.getD b = true) : b = true := by
  cases inflight with
  | none => exact h
  | some b' => exact absurd (congrArg some h) hi

variable {rules : Rules ρ}

def Amends (inflight : Option Bool) (act : Desk P shape → ρ → Except StorageError (Desk P shape)) : Prop :=
  ∀ desk r desk', act desk r = .ok desk' → ∃ jobs, Desk.amend inflight { desk with releaseJobs := jobs } r = .ok desk'

theorem amends_amend (inflight : Option Bool) :
    Amends inflight (Desk.amend inflight : Desk P shape → ρ → Except StorageError (Desk P shape)) :=
  fun desk _ _ h => ⟨desk.releaseJobs, h⟩

theorem sweep_eq_ok (hi : inflight ≠ some true) {act : Desk P shape → ρ → Except StorageError (Desk P shape)}
    (hact : Amends inflight act) {change : ρ → Option ρ} {values values' : List ρ} (hl : desk.Lists values)
    (hc : ∀ v ∈ values, ∀ c, change v = some c → shape.Same v c ∧ rules.allowed v c)
    (h : sweep act change desk values = .ok (desk', values')) :
    Moves rules desk desk' ∧ Swept change values desk desk' ∧ values' = values.map fun v => (change v).getD v := by
  obtain ⟨hm, hn⟩ := hl
  induction values generalizing desk values' with
  | nil =>
      simp only [sweep, pure_eq_ok, Prod.mk.injEq] at h
      obtain ⟨rfl, rfl⟩ := h
      exact ⟨.refl, .nil, rfl⟩
  | cons v values ih =>
      obtain ⟨hv, hn'⟩ := List.nodup_cons.mp hn
      have hfresh : ∀ r, shape.place r = shape.place v → r ∉ values :=
        fun r hr hmem => hv (hr ▸ List.mem_map_of_mem hmem)
      have hc' := fun w hw => hc w (List.mem_cons_of_mem v hw)
      unfold sweep at h
      split at h
      · next hnone =>
          simp only [bind_eq_ok, pure_eq_ok] at h
          obtain ⟨⟨_, rest⟩, hrest, h⟩ := h
          obtain ⟨rfl, rfl⟩ := Prod.mk.inj h
          obtain ⟨hmoves, hswept, rfl⟩ := ih hc' hrest (fun w hw => hm w (List.mem_cons_of_mem v hw)) hn'
          exact ⟨hmoves, hswept.skip hnone, by simp [hnone]⟩
      · next c hsome =>
          simp only [bind_eq_ok, pure_eq_ok] at h
          obtain ⟨mid, hact', ⟨_, rest⟩, hrest, h⟩ := h
          obtain ⟨rfl, rfl⟩ := Prod.mk.inj h
          obtain ⟨jobs, hamend⟩ := hact _ _ _ hact'
          obtain ⟨e₀, he₀, rfl⟩ := hm v (by simp)
          obtain ⟨hsame, hallowed⟩ := hc e₀.record (by simp) c hsome
          have hrows := amend_of_mem hamend he₀ hsame.1
          have hm' : ∀ w ∈ values, ∃ e ∈ mid.rows, e.record = w := by
            intro w hw
            obtain ⟨e, he, rfl⟩ := hm w (List.mem_cons_of_mem _ hw)
            refine ⟨e, ?_, rfl⟩
            rw [hrows]
            exact mem_replace.mpr (.inl ⟨he, fun hk => hfresh e.record (hk.trans hsame.1) hw⟩)
          obtain ⟨hmoves, hswept, rfl⟩ := ih hc' hrest hm' hn'
          have hamended : Move rules { desk with releaseJobs := jobs } mid := .amend he₀ hsame hallowed hi hamend
          exact ⟨.head (.register jobs) (.head hamended hmoves), hswept.write he₀ hsame hsome hfresh hrows,
            by simp [hsome]⟩

theorem sweep_moves (hi : inflight ≠ some true) {act : Desk P shape → ρ → Except StorageError (Desk P shape)}
    (hact : Amends inflight act) {change : ρ → Option ρ} {values values' : List ρ} (hl : desk.Lists values)
    (hc : ∀ v ∈ values, ∀ c, change v = some c → shape.Same v c ∧ rules.allowed v c)
    (h : sweep act change desk values = .ok (desk', values')) : Moves rules desk desk' ∧ desk'.Lists values' := by
  obtain ⟨hmoves, hswept, rfl⟩ := sweep_eq_ok hi hact hl hc h
  exact ⟨hmoves, hswept.lists (fun v hv c hcv => (hc v hv c hcv).1) hl⟩

/-- Retention in progress: rows were only removed, and the newest revision is still there. -/
structure Pruned (rules : Rules ρ) (head : Entry ρ) (desk desk' : Desk P shape) : Prop where
  moves : Moves rules desk desk'
  sub : ∀ e ∈ desk'.rows, e ∈ desk.rows
  head : head ∈ desk'.rows

theorem Pruned.delete {start : Desk P shape} {head e : Entry ρ} {station : StationKey} {removed : Bool}
    (hp : Pruned rules head start desk) (hhead : (shape.station head.record).key = station) (he : e ∈ start.rows)
    (hstation : (shape.station e.record).key = station) (hlt : shape.revision e.record < shape.revision head.record)
    (h : desk.delete station e.record = .ok (desk', removed)) : Pruned rules head start desk' := by
  have hmove : Move rules desk desk' := by
    refine .discard ?_ ⟨head, hp.head, hhead, hlt⟩ h
    intro f hf hk
    rw [eq_of_key (hp.sub f hf) he (by rw [hk, Shape.key, hstation])]
  rcases delete_eq_ok h with rfl | ⟨_, rfl⟩
  · exact hp
  · refine ⟨hp.moves.tail hmove, fun f hf => hp.sub f (mem_keep.mp hf).1, mem_keep.mpr ⟨hp.head, ?_⟩⟩
    simp only [Shape.key, hhead, decide_eq_true_eq, ne_eq, Prod.mk.injEq, true_and]
    omega

/-- The entry of a request is rewritten last, after the ledger has reacted to its lifecycle. -/
inductive Finished (rules : Rules ρ) (own : Table shape.key → Entry ρ → Entry ρ → Prop) (request : RequestId)
    (desk : Desk P shape) : Desk P shape → ρ → Prop
  | intro {desk' mid : Desk P shape} {e : Entry ρ} {r : ρ} {inflight : Bool} (hfind : desk.ofRequest request = some e)
      (hdecodable : shape.decodable e.record) (hmoves : Moves rules desk mid) (he : e ∈ mid.rows)
      (hs : shape.Same e.record r) (hown : own mid.rows e ⟨r, inflight⟩) (hi : inflight = true → e.inflight = true)
      (h : mid.save r (some inflight) = .ok desk') : Finished rules own request desk desk' r

theorem Finished.imp {own own' : Table shape.key → Entry ρ → Entry ρ → Prop} {r : ρ}
    (himp : ∀ rows e f, own rows e f → own' rows e f) (h : Finished rules own request desk desk' r) :
    Finished rules own' request desk desk' r := by
  cases h with
  | intro hfind hdecodable hmoves he hs hown hi h => exact .intro hfind hdecodable hmoves he hs (himp _ _ _ hown) hi h

end Moves

section Steps

open Revisions

variable {σ : Type} {rel : ρ → ρ → Prop} {fresh : ρ → Prop} {policy : Policy ρ σ} {rules : Rules ρ}

/-- A ledger in which no request is sent out a second time, and whose records are read as `policy` says. -/
def tracking (policy : Policy ρ σ) : Policy (Entry ρ) σ where
  slot e := policy.slot e.record
  live e := policy.live e.record
  active e := policy.active e.record
  busy e := e.inflight = true
  fresh e := policy.fresh e.record
  follows e f := policy.follows e.record f.record ∧ (f.inflight = true → e.inflight = true)

/-- Records that compete for nothing, and are rewritten within `rel`. -/
def plain (rel : ρ → ρ → Prop) (fresh : ρ → Prop) : Policy ρ Unit where
  slot _ := ()
  live _ := False
  active _ := False
  busy _ := False
  fresh := fresh
  follows := rel

theorem tracking_lawful (h : policy.Lawful) : (tracking policy).Lawful where
  refl e := ⟨h.refl e.record, id⟩
  trans h₁ h₂ := ⟨h.trans h₁.1 h₂.1, fun hi => h₁.2 (h₂.2 hi)⟩
  slot hf := h.slot hf.1
  live hf := h.live hf.1
  busy hf := hf.2
  fresh hf := h.fresh hf.1
  activeLive ha := h.activeLive ha

theorem plain_lawful (hrefl : ∀ r, rel r r) (htrans : ∀ {r r' r''}, rel r r' → rel r' r'' → rel r r'')
    (hfresh : ∀ {r r'}, rel r r' → fresh r → fresh r') : (plain rel fresh).Lawful :=
  ⟨hrefl, htrans, fun _ => rfl, fun _ => id, fun _ => id, hfresh, id⟩

/-- The rules of a ledger keep its records within a policy. -/
structure Rules.Obey (rules : Rules ρ) (policy : Policy ρ σ) : Prop where
  lawful : policy.Lawful
  allowed : ∀ {r r'}, rules.allowed r r' → policy.follows r r' ∧ (policy.active r' → policy.active r)
  fresh : ∀ {r}, rules.fresh r → policy.fresh r ∧ ¬policy.active r

variable [Wire P]

theorem Move.steps (hobey : rules.Obey policy) (h : Move rules desk desk') :
    ReflTransGen (Step (tracking policy)) desk.rows desk'.rows := by
  cases h with
  | amend he hs hr hi h =>
      rw [amend_of_mem h he hs.1]
      obtain ⟨hfollows, hactive⟩ := hobey.allowed hr
      exact .single (.revise he hs.1 ⟨hfollows, inflight_of_getD hi⟩ fun ha => .inl (hactive ha))
  | save he hs hr _ h =>
      rw [(save_of_mem he hs.1 h).1]
      obtain ⟨hfollows, hactive⟩ := hobey.allowed hr
      exact .single (.revise he hs.1 ⟨hfollows, id⟩ fun ha => .inl (hactive ha))
  | discard _ hhead h =>
      rcases delete_eq_ok h with rfl | ⟨-, rfl⟩
      · exact .refl
      · -- The newest revision of the station stays, so that its numbers are not given out again.
        obtain ⟨head, hmem, hstation, hlt⟩ := hhead
        refine .single (.discard fun e he hdrop => ?_)
        simp only [ne_eq, decide_eq_false_iff_not, not_not] at hdrop
        refine ⟨head, hmem, decide_eq_true fun hkey => ?_, by rw [hdrop]; exact hstation, by rw [hdrop]; exact hlt⟩
        exact absurd (congrArg Prod.snd hkey) hlt.ne'
  | insert hstation hn hr h =>
      obtain ⟨hunique, rfl⟩ := insert_eq_ok h
      obtain ⟨hfresh, hactive⟩ := hobey.fresh hr
      refine .single (.append (fun e he hk => hn e he (hk.trans hstation)) (fun e he hk hbusy => ?_) hfresh hactive)
      exact (hunique e he).2 ⟨hbusy, hk.trans hstation⟩
  | land station =>
      refine .single (.settle (landed_key station) (fun e _ => ⟨?_, ?_⟩) fun e _ ha => ?_)
      · rw [landed_record]
        exact hobey.lawful.refl e.record
      · unfold landed
        split_ifs
        · exact fun h => absurd h (by simp)
        · exact id
      · simp only [tracking, landed_record] at ha
        exact ha
  | register jobs => exact .refl

theorem Moves.steps (hobey : rules.Obey policy) (h : Moves rules desk desk') :
    ReflTransGen (Step (tracking policy)) desk.rows desk'.rows :=
  ReflTransGen.lift' (fun desk : Desk P shape => desk.rows) (fun _ _ => Move.steps hobey) _ _ h

theorem Finished.steps {own : Table shape.key → Entry ρ → Entry ρ → Prop} {r : ρ} (hobey : rules.Obey policy)
    (hown : ∀ {rows e f}, own rows e f → policy.follows e.record f.record ∧
      (policy.active f.record → policy.active e.record ∨
        ∀ b ∈ rows, Earlier shape.key (tracking policy) b e → ¬policy.live b.record))
    (h : Finished rules own request desk desk' r) : ReflTransGen (Step (tracking policy)) desk.rows desk'.rows := by
  cases h with
  | intro _ _ hmoves he hs howned hi h =>
      rw [(save_of_mem he hs.1 h).1]
      obtain ⟨hfollows, hactive⟩ := hown howned
      exact (Moves.steps hobey hmoves).tail (.revise he hs.1 ⟨hfollows, hi⟩ hactive)

end Steps

end Desk

end OcppBridge.Operational
