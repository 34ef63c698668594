import OcppBridge.Outbox.Sequence
import OcppBridge.Rewriting
import OcppBridge.Snapshots.Keys

namespace OcppBridge.Snapshots

open Storage Transaction Operational Outbox Rewriting Call

/-- A row of `station_snapshots`. -/
structure SnapshotRow where
  rowId : Nat
  stationKey : String
  payload : String
  deriving DecidableEq, Repr

structure StoreFile where
  file : DatabaseFile
  snapshots : List SnapshotRow

open StoreFile

/-- How the keys are written and what the payloads decode to. -/
structure Decoders where
  serde : Serde
  snapshotStation : String → Except StorageError ResourceRef
  eventResource : String → Except StorageError ResourceRef

section Source

def integrityFailure (detail : String) : StorageError := ⟨.integrityFailure, detail⟩

def normalizeStationKey (decoders : Decoders) (upgrade : Bool) (rows : List SnapshotRow) (row : SnapshotRow) :
    Except StorageError (List SnapshotRow) := do
  let station ← decoders.snapshotStation row.payload
  let storedKey := resourceKey decoders.serde station
  let canonical ← (stationKeyText decoders.serde station).mapError fun _ =>
    integrityFailure "persisted snapshot station key is invalid"
  require (row.stationKey = storedKey ∨ row.stationKey = canonical)
    (integrityFailure "persisted snapshot station key disagrees with payload")
  if row.stationKey = canonical then pure rows
  else
    require upgrade (integrityFailure "persisted snapshot station key is not canonical")
    -- The key is the primary key of the table.
    require (∀ other ∈ rows, other.stationKey ≠ canonical) constraintViolation
    pure (rows.map fun r => if r.rowId = row.rowId then { r with stationKey := canonical } else r)

def normalizeStationKeys (decoders : Decoders) (upgrade : Bool) (rows : List SnapshotRow) :
    Except StorageError (List SnapshotRow) :=
  walk (·.rowId) DatabaseFile.pageRows (normalizeStationKey decoders upgrade) (rows.length + 1) 0 rows

def canonicalStream (decoders : Decoders) (row : EventRow) : Except StorageError String := do
  let resource ← decoders.eventResource row.payload
  let storedKey := resourceKey decoders.serde resource
  let canonical ← (eventStreamKey decoders.serde resource).mapError fun _ =>
    integrityFailure "persisted event resource is invalid"
  require (row.resource = storedKey ∨ row.resource = canonical)
    (integrityFailure "persisted event resource disagrees with payload")
  pure canonical

def StoreFile.migrate (decoders : Decoders) (store : StoreFile) : Except StorageError StoreFile := do
  require (store.file.version ≤ DatabaseFile.schemaVersion) DatabaseFile.newerSchema
  let snapshots ← normalizeStationKeys decoders (store.file.version < 8) store.snapshots
  let file ← store.file.migrate (canonicalStream decoders) none
  pure { snapshots, file }

def StoreFile.opened (decoders : Decoders) (store : StoreFile) : StoreFile :=
  match store.migrate decoders with
  | .ok store => store
  | .error _ => store

end Source

section Rows

variable {serde : Serde} {decode : String → Except StorageError ResourceRef} {accepts : ResourceRef → Prop}
  {payload key : String}

/-- A row whose key is the serialized reference of its payload, with or without the native address. -/
def Filed (serde : Serde) (decode : String → Except StorageError ResourceRef) (accepts : ResourceRef → Prop)
    (payload key : String) : Prop :=
  ∃ r, decode payload = .ok r ∧ accepts r ∧ (key = resourceKey serde r ∨ key = resourceKey serde (canonicalRef r))

def canonicalText (serde : Serde) (decode : String → Except StorageError ResourceRef) (payload key : String) : String :=
  match decode payload with
  | .ok r => resourceKey serde (canonicalRef r)
  | .error _ => key

theorem canonicalText_eq {r : ResourceRef} (h : decode payload = .ok r) :
    canonicalText serde decode payload key = resourceKey serde (canonicalRef r) := by
  rw [canonicalText, h]

theorem Filed.settled {payload' key' : String} (h : Filed serde decode accepts payload key)
    (h' : Filed serde decode accepts payload' key') (heq : key = canonicalText serde decode payload' key') :
    canonicalText serde decode payload key = key := by
  obtain ⟨r, hr, -, hkey⟩ := h
  obtain ⟨r', hr', -, -⟩ := h'
  rw [canonicalText_eq hr'] at heq
  rw [canonicalText_eq hr]
  rcases hkey with hkey | hkey
  · rw [canonicalRef_of_key (hkey.symm.trans heq), hkey]
  · exact hkey.symm

theorem Filed.rekeyed (h : Filed serde decode accepts payload key) :
    Filed serde decode accepts payload (canonicalText serde decode payload key) := by
  obtain ⟨r, hr, haccepts, -⟩ := h
  exact ⟨r, hr, haccepts, .inr (canonicalText_eq hr)⟩

end Rows

variable {decoders : Decoders} {upgrade : Bool}

section Stations

variable {row : SnapshotRow} {rows : List SnapshotRow}

def Decoders.snapshotKey (decoders : Decoders) (row : SnapshotRow) : Except StorageError String := do
  let station ← decoders.snapshotStation row.payload
  stationKeyText decoders.serde station

def Decoders.FiledSnapshot (decoders : Decoders) (row : SnapshotRow) : Prop :=
  Filed decoders.serde decoders.snapshotStation StationOnly row.payload row.stationKey

def Decoders.rekeySnapshot (decoders : Decoders) (row : SnapshotRow) : SnapshotRow :=
  { row with stationKey := canonicalText decoders.serde decoders.snapshotStation row.payload row.stationKey }

theorem rekeySnapshot_eq_iff : decoders.rekeySnapshot row = row ↔
    canonicalText decoders.serde decoders.snapshotStation row.payload row.stationKey = row.stationKey := by
  obtain ⟨rowId, key, payload⟩ := row
  simp [Decoders.rekeySnapshot]

section

variable (h : decoders.FiledSnapshot row)

include h

theorem Decoders.FiledSnapshot.key :
    decoders.snapshotKey row = .ok (decoders.rekeySnapshot row).stationKey := by
  obtain ⟨r, hr, hstation, -⟩ := h
  rw [Decoders.snapshotKey, hr]
  exact (stationKeyText_eq hstation).trans (congrArg Except.ok (canonicalText_eq hr).symm)

theorem normalizeStationKey_fixed (hfixed : decoders.rekeySnapshot row = row) :
    normalizeStationKey decoders upgrade rows row = .ok rows := by
  obtain ⟨r, hr, hstation, hkey⟩ := h
  have hcanonical : row.stationKey = resourceKey decoders.serde (canonicalRef r) :=
    (rekeySnapshot_eq_iff.mp hfixed).symm.trans (canonicalText_eq hr)
  simp only [normalizeStationKey, hr, stationKeyText_eq hstation, bind, Except.bind, Except.mapError,
    require, if_pos hkey, if_pos hcanonical]
  rfl

theorem normalizeStationKey_moved (hmoved : decoders.rekeySnapshot row ≠ row) :
    normalizeStationKey decoders true rows row =
      if ∀ other ∈ rows, other.stationKey ≠ (decoders.rekeySnapshot row).stationKey then
        .ok (rows.map fun r =>
          if r.rowId = row.rowId then { r with stationKey := (decoders.rekeySnapshot row).stationKey } else r)
      else .error constraintViolation := by
  obtain ⟨r, hr, hstation, hkey⟩ := h
  have hcanonical : (decoders.rekeySnapshot row).stationKey = resourceKey decoders.serde (canonicalRef r) :=
    canonicalText_eq hr
  have hne : row.stationKey ≠ resourceKey decoders.serde (canonicalRef r) :=
    fun heq => hmoved (rekeySnapshot_eq_iff.mpr (hcanonical.trans heq.symm))
  rw [hcanonical]
  simp only [normalizeStationKey, hr, stationKeyText_eq hstation, bind, Except.bind, Except.mapError,
    require, if_pos hkey, if_neg hne, if_true]
  split_ifs
  · rfl
  · rfl

end

theorem normalizeStationKey_local : Local SnapshotRow.rowId (normalizeStationKey decoders upgrade) := by
  intro rows row rows' h
  simp only [normalizeStationKey, bind_eq_ok] at h
  obtain ⟨station, _, canonical, _, _, _, h⟩ := h
  split_ifs at h
  · rw [pure_eq_ok.mp h]
    exact ⟨rfl, fun r _ => Iff.rfl⟩
  · simp only [bind_eq_ok, pure_eq_ok] at h
    obtain ⟨_, _, _, _, rfl⟩ := h
    exact map_at_local SnapshotRow.rowId fun r => rfl

theorem rewrites_snapshots (hfiled : ∀ row ∈ rows, decoders.FiledSnapshot row)
    (hupgrade : upgrade = true ∨ ∀ row ∈ rows, decoders.rekeySnapshot row = row) :
    Rewrites SnapshotRow.rowId SnapshotRow.stationKey decoders.rekeySnapshot constraintViolation
      (normalizeStationKey decoders upgrade) rows where
  stays _ := rfl
  fixed row hrow hfixed table := normalizeStationKey_fixed (hfiled row hrow) hfixed
  clashes row hrow hmoved table hclash := by
    have hup : upgrade = true := hupgrade.resolve_right fun hall => hmoved (hall row hrow)
    obtain ⟨other, hother, heq⟩ := hclash
    rw [hup, normalizeStationKey_moved (hfiled row hrow) hmoved, if_neg fun hfresh => hfresh other hother heq]
  moves row hrow hmoved front back hnodup hfresh := by
    have hup : upgrade = true := hupgrade.resolve_right fun hall => hmoved (hall row hrow)
    rw [hup, normalizeStationKey_moved (hfiled row hrow) hmoved, if_pos hfresh]
    exact congrArg Except.ok (map_at_position hnodup)
  settled r hr other hother heq :=
    rekeySnapshot_eq_iff.mpr ((hfiled other hother).settled (hfiled r hr) heq)

end Stations

section Streams

open DatabaseFile (normalizeEventStreamKey)

variable {row : EventRow} {events : List EventRow}

def Decoders.streamKey (decoders : Decoders) (row : EventRow) : Except StorageError String := do
  let resource ← decoders.eventResource row.payload
  eventStreamKey decoders.serde resource

def Decoders.FiledEvent (decoders : Decoders) (row : EventRow) : Prop :=
  Filed decoders.serde decoders.eventResource StreamRef row.payload row.resource

def Decoders.rekeyEvent (decoders : Decoders) (row : EventRow) : EventRow :=
  { row with resource := canonicalText decoders.serde decoders.eventResource row.payload row.resource }

def streamPosition (row : EventRow) : String × Nat := (row.resource, row.sequence)

theorem rekeyEvent_eq_iff : decoders.rekeyEvent row = row ↔
    canonicalText decoders.serde decoders.eventResource row.payload row.resource = row.resource := by
  obtain ⟨rowId, eventId, resource, sequence, payload, retainUntil⟩ := row
  simp [Decoders.rekeyEvent]

theorem Decoders.FiledEvent.key (h : decoders.FiledEvent row) :
    decoders.streamKey row = .ok (decoders.rekeyEvent row).resource := by
  obtain ⟨r, hr, hstream, -⟩ := h
  rw [Decoders.streamKey, hr]
  exact (eventStreamKey_eq hstream).trans (congrArg Except.ok (canonicalText_eq hr).symm)

theorem canonicalStream_eq (h : decoders.FiledEvent row) :
    canonicalStream decoders row = .ok (decoders.rekeyEvent row).resource := by
  obtain ⟨r, hr, hstream, hkey⟩ := h
  have hcanonical : (decoders.rekeyEvent row).resource = resourceKey decoders.serde (canonicalRef r) :=
    canonicalText_eq hr
  simp only [canonicalStream, hr, eventStreamKey_eq hstream, bind, Except.bind, Except.mapError, require, if_pos hkey,
    hcanonical]
  rfl

theorem normalizeEventStreamKey_local :
    Local EventRow.rowId (normalizeEventStreamKey (canonicalStream decoders)) := by
  intro rows row rows' h
  simp only [normalizeEventStreamKey, bind_eq_ok] at h
  obtain ⟨key, _, h⟩ := h
  split_ifs at h
  · rw [pure_eq_ok.mp h]
    exact ⟨rfl, fun r _ => Iff.rfl⟩
  · simp only [bind_eq_ok, pure_eq_ok] at h
    obtain ⟨_, _, rfl⟩ := h
    exact map_at_local EventRow.rowId fun r => rfl

theorem normalizeEventStreamKey_moved (h : decoders.FiledEvent row) (hmoved : decoders.rekeyEvent row ≠ row) :
    normalizeEventStreamKey (canonicalStream decoders) events row =
      if ∀ other ∈ events, streamPosition other ≠ streamPosition (decoders.rekeyEvent row) then
        .ok (events.map fun e =>
          if e.rowId = row.rowId then { e with resource := (decoders.rekeyEvent row).resource } else e)
      else .error constraintViolation := by
  have hne : (decoders.rekeyEvent row).resource ≠ row.resource := fun heq => hmoved (rekeyEvent_eq_iff.mpr heq)
  have hsequence : (decoders.rekeyEvent row).sequence = row.sequence := rfl
  simp only [normalizeEventStreamKey, canonicalStream_eq h, bind, Except.bind, if_neg hne, require, streamPosition,
    hsequence]
  split_ifs
  · rfl
  · rfl

theorem rewrites_events (hfiled : ∀ row ∈ events, decoders.FiledEvent row) :
    Rewrites EventRow.rowId streamPosition decoders.rekeyEvent constraintViolation
      (normalizeEventStreamKey (canonicalStream decoders)) events where
  stays _ := rfl
  fixed row hrow hfixed table := by
    rw [normalizeEventStreamKey, canonicalStream_eq (hfiled row hrow), hfixed]
    exact if_pos rfl
  clashes row hrow hmoved table hclash := by
    obtain ⟨other, hother, heq⟩ := hclash
    rw [normalizeEventStreamKey_moved (hfiled row hrow) hmoved, if_neg fun hfresh => hfresh other hother heq]
  moves row hrow hmoved front back hnodup hfresh := by
    rw [normalizeEventStreamKey_moved (hfiled row hrow) hmoved, if_pos hfresh]
    exact congrArg Except.ok (map_at_position hnodup)
  settled r hr other hother heq :=
    rekeyEvent_eq_iff.mpr ((hfiled other hother).settled (hfiled r hr) (congrArg Prod.fst heq))

end Streams

section Migration

variable {store store' : StoreFile}

def InRowOrder {ρ : Type} (rowId : ρ → Nat) (rows : List ρ) : Prop :=
  rows.Pairwise (fun a b => rowId a < rowId b) ∧ ∀ r ∈ rows, 0 < rowId r

/-- A store of this or an older schema whose keys are the serialized references of their own payloads. -/
structure Legacy (decoders : Decoders) (store : StoreFile) : Prop where
  version : store.file.version ≤ DatabaseFile.schemaVersion
  snapshotRows : InRowOrder SnapshotRow.rowId store.snapshots
  snapshotKeys : (store.snapshots.map SnapshotRow.stationKey).Nodup
  snapshots : ∀ row ∈ store.snapshots, decoders.FiledSnapshot row
  snapshotsSince : 8 ≤ store.file.version → ∀ row ∈ store.snapshots, decoders.snapshotKey row = .ok row.stationKey
  eventRows : InRowOrder EventRow.rowId store.file.db.events
  eventKeys : (store.file.db.events.map streamPosition).Nodup
  events : ∀ row ∈ store.file.db.events, decoders.FiledEvent row
  eventsSince : 9 ≤ store.file.version → ∀ row ∈ store.file.db.events, decoders.streamKey row = .ok row.resource

def StreamsApart (decoders : Decoders) (store : StoreFile) : Prop :=
  (store.file.db.events.map fun row => (decoders.streamKey row, row.sequence)).Nodup

/-- No two snapshots are of one station, and no two events have one number in a stream. -/
structure Separate (decoders : Decoders) (store : StoreFile) : Prop where
  snapshots : (store.snapshots.map decoders.snapshotKey).Nodup
  events : StreamsApart decoders store

structure Canonical (decoders : Decoders) (store : StoreFile) : Prop where
  snapshots : ∀ row ∈ store.snapshots, decoders.snapshotKey row = .ok row.stationKey
  events : ∀ row ∈ store.file.db.events, decoders.streamKey row = .ok row.resource

theorem InRowOrder.nodup {ρ : Type} {rowId : ρ → Nat} {rows : List ρ} (h : InRowOrder rowId rows) :
    (rows.map rowId).Nodup :=
  List.pairwise_map.mpr (h.1.imp fun hlt => hlt.ne)

theorem pageRows_pos : 0 < DatabaseFile.pageRows := by decide

def StoreFile.rekeyed (decoders : Decoders) (store : StoreFile) : StoreFile :=
  { snapshots := store.snapshots.map decoders.rekeySnapshot
    file :=
      { version := DatabaseFile.schemaVersion
        db := { store.file.db with events := store.file.db.events.map decoders.rekeyEvent }
        counter := some store.file.seed } }

theorem rekeyEvent_sequences (events : List EventRow) :
    (events.map decoders.rekeyEvent).map (·.sequence) = events.map (·.sequence) := by
  rw [List.map_map]
  rfl

theorem InRowOrder.map {ρ : Type} {rowId : ρ → Nat} {rows : List ρ} {f : ρ → ρ} (hf : ∀ r, rowId (f r) = rowId r)
    (h : InRowOrder rowId rows) : InRowOrder rowId (rows.map f) := by
  constructor
  · rw [List.pairwise_map]
    exact h.1.imp fun hlt => by rwa [hf, hf]
  · intro r hr
    obtain ⟨r', hr', rfl⟩ := List.mem_map.mp hr
    rw [hf]
    exact h.2 r' hr'

theorem rekeyed_version (decoders : Decoders) (store : StoreFile) : 9 ≤ (store.rekeyed decoders).file.version := by
  rw [rekeyed, DatabaseFile.schemaVersion]
  norm_num

namespace Legacy

variable (h : Legacy decoders store)

include h

theorem rekeyed_snapshots (hversion : 8 ≤ store.file.version) :
    ∀ row ∈ store.snapshots, decoders.rekeySnapshot row = row := by
  intro row hrow
  have hkey := (h.snapshots row hrow).key.symm.trans (h.snapshotsSince hversion row hrow)
  exact rekeySnapshot_eq_iff.mpr (Except.ok.inj hkey)

theorem rekeyed_events (hversion : 9 ≤ store.file.version) :
    ∀ row ∈ store.file.db.events, decoders.rekeyEvent row = row := by
  intro row hrow
  have hkey := (h.events row hrow).key.symm.trans (h.eventsSince hversion row hrow)
  exact rekeyEvent_eq_iff.mpr (Except.ok.inj hkey)

theorem separate_snapshots :
    (store.snapshots.map decoders.snapshotKey).Nodup ↔
      (store.snapshots.map fun row => (decoders.rekeySnapshot row).stationKey).Nodup := by
  have hmap : store.snapshots.map decoders.snapshotKey =
      (store.snapshots.map fun row => (decoders.rekeySnapshot row).stationKey).map Except.ok := by
    rw [List.map_map]
    exact List.map_congr_left fun row hrow => (h.snapshots row hrow).key
  rw [hmap, List.nodup_map_iff fun _ _ => Except.ok.inj]

theorem separate_events :
    StreamsApart decoders store ↔
      (store.file.db.events.map fun row => streamPosition (decoders.rekeyEvent row)).Nodup := by
  have hmap : (store.file.db.events.map fun row => (decoders.streamKey row, row.sequence)) =
      (store.file.db.events.map fun row => streamPosition (decoders.rekeyEvent row)).map (Prod.map Except.ok id) := by
    rw [List.map_map]
    refine List.map_congr_left fun row hrow => ?_
    rw [(h.events row hrow).key]
    rfl
  rw [StreamsApart, hmap, List.nodup_map_iff]
  exact Function.Injective.prodMap (fun _ _ => Except.ok.inj) Function.injective_id

theorem normalizeStationKeys :
    ((store.snapshots.map decoders.snapshotKey).Nodup →
        normalizeStationKeys decoders (store.file.version < 8) store.snapshots =
          .ok (store.snapshots.map decoders.rekeySnapshot)) ∧
      (¬(store.snapshots.map decoders.snapshotKey).Nodup →
        normalizeStationKeys decoders (store.file.version < 8) store.snapshots = .error constraintViolation) := by
  have hupgrade : decide (store.file.version < 8) = true ∨
      ∀ row ∈ store.snapshots, decoders.rekeySnapshot row = row := by
    by_cases hversion : store.file.version < 8
    · exact .inl (decide_eq_true hversion)
    · exact .inr (h.rekeyed_snapshots (Nat.le_of_not_lt hversion))
  have hfold := (rewrites_snapshots h.snapshots hupgrade).foldlM h.snapshotRows.nodup h.snapshotKeys
  rw [h.separate_snapshots, Snapshots.normalizeStationKeys,
    walk_all normalizeStationKey_local pageRows_pos h.snapshotRows.1 h.snapshotRows.2]
  exact hfold

theorem normalizeEventStreamKeys :
    (StreamsApart decoders store →
        DatabaseFile.normalizeEventStreamKeys (canonicalStream decoders) store.file.db.events =
          .ok (store.file.db.events.map decoders.rekeyEvent)) ∧
      (¬StreamsApart decoders store →
        DatabaseFile.normalizeEventStreamKeys (canonicalStream decoders) store.file.db.events =
          .error constraintViolation) := by
  have hfold := (rewrites_events h.events).foldlM h.eventRows.nodup h.eventKeys
  rw [h.separate_events, DatabaseFile.normalizeEventStreamKeys,
    walk_all normalizeEventStreamKey_local pageRows_pos h.eventRows.1 h.eventRows.2]
  exact hfold

theorem journal (hseparate : StreamsApart decoders store) :
    store.file.normalizeJournal (canonicalStream decoders) = .ok (store.file.db.events.map decoders.rekeyEvent) := by
  by_cases hversion : store.file.version < 9
  · rw [DatabaseFile.normalizeJournal, if_pos hversion]
    exact h.normalizeEventStreamKeys.1 hseparate
  · have hsame := List.map_congr_left (h.rekeyed_events (Nat.le_of_not_lt hversion))
    rw [DatabaseFile.normalizeJournal, if_neg hversion, hsame, List.map_id']
    rfl

theorem migrate_eq (hseparate : Separate decoders store) : store.migrate decoders = .ok (store.rekeyed decoders) := by
  simp only [migrate, DatabaseFile.migrate, require, if_pos h.version, h.normalizeStationKeys.1 hseparate.snapshots,
    h.journal hseparate.events, bind, Except.bind, DatabaseFile.seed, rekeyEvent_sequences]
  rfl

theorem separate_since (hversion : 9 ≤ store.file.version) : StreamsApart decoders store := by
  rw [h.separate_events]
  have hsame : (store.file.db.events.map fun row => streamPosition (decoders.rekeyEvent row)) =
      store.file.db.events.map streamPosition :=
    List.map_congr_left fun row hrow => by rw [h.rekeyed_events hversion row hrow]
  rw [hsame]
  exact h.eventKeys

theorem migrate_refused (hcollide : ¬Separate decoders store) :
    store.migrate decoders = .error constraintViolation := by
  by_cases hsnapshots : (store.snapshots.map decoders.snapshotKey).Nodup
  · have hevents : ¬StreamsApart decoders store :=
      fun hevents => hcollide ⟨hsnapshots, hevents⟩
    have hversion : store.file.version < 9 := Nat.lt_of_not_le fun hversion => hevents (h.separate_since hversion)
    simp only [migrate, DatabaseFile.migrate, require, if_pos h.version, h.normalizeStationKeys.1 hsnapshots,
      DatabaseFile.normalizeJournal, if_pos hversion, h.normalizeEventStreamKeys.2 hevents, bind, Except.bind]
    rfl
  · simp only [migrate, require, if_pos h.version, h.normalizeStationKeys.2 hsnapshots, bind, Except.bind]

theorem canonical : Canonical decoders (store.rekeyed decoders) where
  snapshots row hrow := by
    obtain ⟨r, hr, rfl⟩ := List.mem_map.mp hrow
    exact (h.snapshots r hr).key
  events row hrow := by
    obtain ⟨r, hr, rfl⟩ := List.mem_map.mp hrow
    exact (h.events r hr).key

section

variable (hseparate : Separate decoders store)

include hseparate

theorem rekeyed : Legacy decoders (store.rekeyed decoders) where
  version := le_rfl
  snapshotRows := h.snapshotRows.map fun _ => rfl
  snapshotKeys := by
    rw [StoreFile.rekeyed, List.map_map]
    exact h.separate_snapshots.mp hseparate.snapshots
  snapshots row hrow := by
    obtain ⟨r, hr, rfl⟩ := List.mem_map.mp hrow
    exact (h.snapshots r hr).rekeyed
  snapshotsSince _ := h.canonical.snapshots
  eventRows := h.eventRows.map fun _ => rfl
  eventKeys := by
    rw [StoreFile.rekeyed, List.map_map]
    exact h.separate_events.mp hseparate.events
  events row hrow := by
    obtain ⟨r, hr, rfl⟩ := List.mem_map.mp hrow
    exact (h.events r hr).rekeyed
  eventsSince _ := h.canonical.events

theorem separate_rekeyed : Separate decoders (store.rekeyed decoders) := by
  have hnext := h.rekeyed hseparate
  have hversion : 8 ≤ (store.rekeyed decoders).file.version := Nat.le_of_succ_le (rekeyed_version decoders store)
  refine ⟨?_, hnext.separate_since (rekeyed_version decoders store)⟩
  have hsame : ((store.rekeyed decoders).snapshots.map fun row => (decoders.rekeySnapshot row).stationKey) =
      (store.rekeyed decoders).snapshots.map SnapshotRow.stationKey :=
    List.map_congr_left fun row hrow => by rw [hnext.rekeyed_snapshots hversion row hrow]
  rw [hnext.separate_snapshots, hsame]
  exact hnext.snapshotKeys

theorem rekeyed_twice :
    (store.rekeyed decoders).rekeyed decoders = store.rekeyed decoders := by
  have hnext := h.rekeyed hseparate
  have hversion := rekeyed_version decoders store
  have hsnapshots := List.map_congr_left (hnext.rekeyed_snapshots (Nat.le_of_succ_le hversion))
  have hevents := List.map_congr_left (hnext.rekeyed_events hversion)
  rw [List.map_id'] at hsnapshots hevents
  have hseed : (store.rekeyed decoders).file.seed = store.file.seed := by
    simp only [StoreFile.rekeyed, DatabaseFile.seed, rekeyEvent_sequences, Option.getD_some]
    exact max_eq_left (le_max_right _ _)
  rw [StoreFile.rekeyed, hsnapshots, hevents, hseed]
  rfl

end

end Legacy

/-- The migration rewrites every key to the canonical one, or refuses a store whose canonical keys collide. -/
theorem migrate_rekeys (decoders : Decoders) (store : StoreFile) (h : Legacy decoders store) :
    (Separate decoders store → ∃ store', store.migrate decoders = .ok store' ∧ Canonical decoders store' ∧
      (store'.snapshots.map fun row => (row.rowId, row.payload)) =
        (store.snapshots.map fun row => (row.rowId, row.payload)) ∧
      (store'.file.db.events.map fun e => { e with resource := "" }) =
        (store.file.db.events.map fun e => { e with resource := "" }) ∧
      store'.migrate decoders = .ok store' ∧ store'.opened decoders = store') ∧
    (¬Separate decoders store → store.migrate decoders = .error constraintViolation ∧
      store.opened decoders = store) := by
  constructor
  · intro hseparate
    have hagain : (store.rekeyed decoders).migrate decoders = .ok (store.rekeyed decoders) := by
      rw [(h.rekeyed hseparate).migrate_eq (h.separate_rekeyed hseparate), h.rekeyed_twice hseparate]
    refine ⟨store.rekeyed decoders, h.migrate_eq hseparate, h.canonical, ?_, ?_, hagain, ?_⟩
    · rw [rekeyed, List.map_map]
      rfl
    · rw [rekeyed, List.map_map]
      rfl
    · rw [opened, hagain]
  · intro hcollide
    have hrefused := h.migrate_refused hcollide
    refine ⟨hrefused, ?_⟩
    rw [opened, hrefused]

end Migration

section Sample

def sampleStation : ResourceRef := ⟨"bridge", "station", none, none⟩

def addressedStation : ResourceRef := { sampleStation with nativeProtocolReference := some (.ocpp16 0) }

/-- A document with its resource under `member`. -/
def sampleDocument (member : String) (r : ResourceRef) : String := String.ofList (Json.object [(member, r.json)]).print

def sampleRef (member payload : String) : Except StorageError ResourceRef :=
  if payload = sampleDocument member addressedStation then .ok addressedStation
  else if payload = sampleDocument member sampleStation then .ok sampleStation
  else .error (integrityFailure "stored JSON is invalid")

noncomputable def sampleDecoders : Decoders := ⟨Json.compact, sampleRef "station", sampleRef "resource"⟩

def sampleKey (r : ResourceRef) : String := String.ofList r.json.print

def sampleStore (snapshots : List SnapshotRow) : StoreFile :=
  { snapshots
    file :=
      { version := 7
        db := { Database.empty sampleSource with
          events := [⟨1, "first", sampleKey addressedStation, 1, sampleDocument "resource" addressedStation, none⟩,
            ⟨2, "second", sampleKey sampleStation, 2, sampleDocument "resource" sampleStation, none⟩] }
        counter := none } }

def sampleRows : List SnapshotRow :=
  [⟨1, sampleKey addressedStation, sampleDocument "station" addressedStation⟩,
    ⟨2, sampleKey sampleStation, sampleDocument "station" sampleStation⟩]

theorem addressed_key_ne : sampleKey addressedStation ≠ sampleKey sampleStation := by
  intro h
  have hkeys : resourceKey Json.compact addressedStation = resourceKey Json.compact sampleStation := h
  exact absurd (resourceKey_inj hkeys) (by decide)

theorem sampleRef_eq (member : String) :
    sampleRef member (sampleDocument member addressedStation) = .ok addressedStation ∧
    sampleRef member (sampleDocument member sampleStation) = .ok sampleStation := by
  have hne : sampleDocument member sampleStation ≠ sampleDocument member addressedStation := by
    intro h
    have hwell (r : ResourceRef) : (Json.object [(member, r.json)]).WellFormed := by
      simp [Json.WellFormed, Json.WellFormedFields, encodes_resource.wellFormed]
    have hjson : sampleStation.json = addressedStation.json := by
      simpa using Json.print_inj (hwell _) (hwell _) (String.ofList_injective h)
    exact absurd (encodes_resource.injective (congrArg Json.sortJson hjson)) (by decide)
  exact ⟨if_pos rfl, (if_neg hne).trans (if_pos rfl)⟩

theorem sample_filed (member : String) {payload key : String} {accepts : ResourceRef → Prop}
    (haccepts : ∀ r, StationOnly r → accepts r)
    (h : (payload, key) = (sampleDocument member addressedStation, sampleKey addressedStation) ∨
      (payload, key) = (sampleDocument member sampleStation, sampleKey sampleStation)) :
    Filed Json.compact (sampleRef member) accepts payload key := by
  rcases h with h | h
  · obtain ⟨rfl, rfl⟩ := Prod.mk.inj h
    exact ⟨addressedStation, (sampleRef_eq member).1, haccepts _ (by decide), .inl rfl⟩
  · obtain ⟨rfl, rfl⟩ := Prod.mk.inj h
    exact ⟨sampleStation, (sampleRef_eq member).2, haccepts _ (by decide), .inl rfl⟩

theorem sample_legacy {snapshots : List SnapshotRow} (h : snapshots.Sublist sampleRows) :
    Legacy sampleDecoders (sampleStore snapshots) where
  version := (by decide : 7 ≤ DatabaseFile.schemaVersion)
  snapshotRows := by
    have hall : InRowOrder SnapshotRow.rowId sampleRows := by
      constructor
      · simp [sampleRows]
      · simp [sampleRows]
    exact ⟨hall.1.sublist h, fun r hr => hall.2 r (h.subset hr)⟩
  snapshotKeys := by
    have hall : (sampleRows.map SnapshotRow.stationKey).Nodup := by simp [sampleRows, addressed_key_ne]
    exact hall.sublist (h.map _)
  snapshots row hrow := by
    simp only [Decoders.FiledSnapshot, sampleDecoders]
    refine sample_filed "station" (fun _ hr => hr) ?_
    have hmem := h.subset hrow
    simp only [sampleRows, List.mem_cons, List.not_mem_nil, or_false] at hmem
    rcases hmem with rfl | rfl
    · exact .inl rfl
    · exact .inr rfl
  snapshotsSince hversion := absurd hversion (by decide : ¬8 ≤ 7)
  eventRows := by
    constructor
    · simp [sampleStore]
    · simp [sampleStore]
  eventKeys := by simp [sampleStore, streamPosition]
  events row hrow := by
    simp only [Decoders.FiledEvent, sampleDecoders]
    refine sample_filed "resource" (fun _ hr => hr.stream) ?_
    simp only [sampleStore, List.mem_cons, List.not_mem_nil, or_false] at hrow
    rcases hrow with rfl | rfl
    · exact .inl rfl
    · exact .inr rfl
  eventsSince hversion := absurd hversion (by decide : ¬9 ≤ 7)

/-- Two snapshots of one station that differ in the native address have one canonical key. -/
theorem migrate_collides : Legacy sampleDecoders (sampleStore sampleRows) ∧
    (sampleStore sampleRows).migrate sampleDecoders = .error constraintViolation := by
  refine ⟨sample_legacy (List.Sublist.refl _),
    (sample_legacy (List.Sublist.refl _)).migrate_refused fun hseparate => ?_⟩
  have hnodup := hseparate.snapshots
  have hsame : sampleDecoders.snapshotKey ⟨1, sampleKey addressedStation, sampleDocument "station" addressedStation⟩ =
      sampleDecoders.snapshotKey ⟨2, sampleKey sampleStation, sampleDocument "station" sampleStation⟩ := by
    simp only [Decoders.snapshotKey, sampleDecoders, (sampleRef_eq "station").1, (sampleRef_eq "station").2]
    rfl
  simp only [sampleStore, sampleRows, List.map_cons, hsame, List.nodup_cons, List.mem_cons, true_or, not_true,
    false_and] at hnodup

theorem sample_separate : Separate sampleDecoders (sampleStore (sampleRows.take 1)) := by
  constructor
  · simp [sampleStore, sampleRows]
  · simp [StreamsApart, sampleStore]

/-- One stream with two native addresses is no obstacle. -/
theorem migrate_rekeys_sample : ∃ store', (sampleStore (sampleRows.take 1)).migrate sampleDecoders = .ok store' ∧
    Canonical sampleDecoders store' ∧ store'.migrate sampleDecoders = .ok store' := by
  obtain ⟨store', hmigrate, hcanonical, -, -, hagain, -⟩ :=
    (migrate_rekeys sampleDecoders _ (sample_legacy (List.take_sublist 1 sampleRows))).1 sample_separate
  exact ⟨store', hmigrate, hcanonical, hagain⟩

end Sample

end OcppBridge.Snapshots
