import OcppBridge.Integration.Listing

namespace OcppBridge.Integration

open Storage Transaction CommandHistory Paging PointCursor SnapshotTable
open Operational
open Snapshots (stationKeyText stationKeyText_eq StationOnly resourceKey resourceKey_inj canonicalRef)

variable {listener : Listener} {principal : AccessGrant} {row : StoredSnapshot}
  {parameters : PointPageParameters} {limit : PageLimit} {cursor : PointCursor} {after : Option String}
  {addressed : ResourceRef}

section Cursors

theorem decode_encode (h : cursor.after ≠ some "") (hcount : cursor.delivered < 2 ^ 64) :
    decode cursor.encode = .ok cursor := by
  obtain ⟨delivered, after⟩ := cursor
  have hcolon : ∀ c ∈ (toString delivered).toList, decide (c = ':') = false := by
    intro c hc
    refine decide_eq_false fun heq => ?_
    exact Text.colon_not_mem_repr delivered (heq ▸ hc)
  have htext : (toString delivered ++ (":" ++ after.getD "")).toList =
      (toString delivered).toList ++ ':' :: (after.getD "").toList := by
    rw [String.toList_append, String.toList_append]
    rfl
  rw [encode, decode, Text.stripPrefix_append]
  simp only [htext, Point.splitOnce_append hcolon (decide_eq_true rfl), Text.parseUnsigned_repr hcount]
  cases after with
  | none => rfl
  | some after =>
      have hne : after.toList.isEmpty = false := by
        cases hlist : after.toList with
        | nil => exact absurd (congrArg some (String.toList_eq_nil_iff.mp hlist)) h
        | cons c cs => rfl
      simp [hne]

variable (serde : Call.Serde)

section

variable (r : ResourceRef)

include r

theorem resourceKey_toList : ∃ cs, (resourceKey serde r).toList = '\x7b' :: cs := by
  rw [resourceKey, String.toList_ofList, ResourceRef.json]
  exact List.head?_eq_some_iff.mp (serde.print_object _)

theorem isBlank_resourceKey : Text.isBlank (resourceKey serde r) = false := by
  obtain ⟨cs, hcs⟩ := resourceKey_toList serde r
  rw [Text.isBlank, hcs, List.all_cons]
  rfl

theorem newSnapshotCursor_key :
    newSnapshotCursor (resourceKey serde r) = .ok (resourceKey serde r) := by
  simp only [newSnapshotCursor, require, isBlank_resourceKey]
  rfl

theorem snapshotCursor_key :
    snapshotCursor (some (resourceKey serde r)) = .ok (some (resourceKey serde r)) := by
  obtain ⟨cs, hcs⟩ := resourceKey_toList serde r
  have hfront : (Text.stripPrefix pointCursorPrefix (resourceKey serde r)).isNone = true := by
    rw [Text.stripPrefix, hcs]
    rfl
  simp only [snapshotCursor, newSnapshotCursor_key, require, hfront]
  rfl

theorem resourceKey_pos : "" < resourceKey serde r := by
  obtain ⟨cs, hcs⟩ := resourceKey_toList serde r
  rw [String.lt_iff_toList_lt, hcs]
  exact List.nil_lt_cons _ _

end

end Cursors

section Roster

variable {r r' : ResourceRef}

def OnRoster (listener : Listener) (station : ResourceRef) : Prop := ∃ r ∈ listener.roster, sameStation r station

instance (station : ResourceRef) : Decidable (OnRoster listener station) := List.decidableBEx _ _

def Readable (listener : Listener) (principal : AccessGrant) (station : ResourceRef) : Prop :=
  OnRoster listener station ∧ principal.resourceScopes.any (·.allows station)

instance (station : ResourceRef) : Decidable (Readable listener principal station) :=
  inferInstanceAs (Decidable (_ ∧ _))

theorem stationReference_eq_iff : stationReference r = stationReference r' ↔ sameStation r r' := by
  simp [stationReference, sameStation]

theorem allows_stationReference (h : r.resource = none) (scope : AccessResourceScope) :
    scope.allows (stationReference r) = scope.allows r := by
  cases scope with
  | bridge bridgeId => rfl
  | station bridgeId stationId => rfl
  | resource granted =>
      rw [AccessResourceScope.allows, AccessResourceScope.allows, sameCanonicalResource, sameCanonicalResource,
        decide_eq_decide, h]
      rfl

theorem permitsResource_iff : listener.authorization.permitsResource r = true ↔ OnRoster listener r := by
  simp only [Listener.authorization, TargetQueryAuthorization.permitsResource, List.any_map, List.any_eq_true, OnRoster,
    Function.comp_apply, TargetResourceScope.allows, sameStation, decide_eq_true_eq]
  refine exists_congr fun s => and_congr_right fun _ => ?_
  exact ⟨fun h => ⟨h.1.symm, h.2.symm⟩, fun h => ⟨h.1.symm, h.2.symm⟩⟩

theorem stationResources_eq : stationResources listener.authorization = listener.roster.map stationReference := by
  rw [stationResources, Listener.authorization, List.filterMap_map]
  exact List.filterMap_eq_map_iff_forall_eq_some.mpr fun r _ => rfl

theorem stationKeyText_stationReference {serde : Call.Serde} (r : ResourceRef) :
    stationKeyText serde (stationReference r) = .ok (resourceKey serde (stationReference r)) :=
  stationKeyText_eq ⟨rfl, rfl⟩

theorem mapM_stationKeyText (serde : Call.Serde) (stations : List ResourceRef) :
    (stations.map stationReference).mapM (stationKeyText serde) =
      .ok (stations.map fun r => resourceKey serde (stationReference r)) := by
  induction stations with
  | nil => rfl
  | cons r stations ih =>
      rw [List.map_cons, List.mapM_cons, stationKeyText_stationReference, ih]
      rfl

theorem SnapshotTable.station_only {table : SnapshotTable} (h : row ∈ table.rows) :
    StationOnly row.snapshot.station ∧ row.key = resourceKey table.serde (stationReference row.snapshot.station) := by
  have hkey := table.keyed row h
  by_cases hstation : StationOnly row.snapshot.station
  · refine ⟨hstation, ?_⟩
    have hreference : canonicalRef row.snapshot.station = stationReference row.snapshot.station := by
      simp only [canonicalRef, stationReference, hstation.1]
    rw [stationKeyText_eq hstation, hreference] at hkey
    exact (Except.ok.inj hkey).symm
  · rw [Snapshots.stationKeyText_of_not hstation] at hkey
    cases hkey

theorem selected_iff (h : row ∈ listener.table.rows) :
    (((listener.roster.filter fun r => principal.resourceScopes.any (·.allows (stationReference r))).map fun r =>
      resourceKey listener.table.serde (stationReference r)).contains row.key) = true ↔
        Readable listener principal row.snapshot.station := by
  obtain ⟨hstation, hkey⟩ := station_only h
  have hallows (r : ResourceRef) (hr : stationReference r = stationReference row.snapshot.station) :
      principal.resourceScopes.any (·.allows (stationReference r)) =
        principal.resourceScopes.any (·.allows row.snapshot.station) := by
    rw [hr]
    simp only [allows_stationReference hstation.1]
  rw [List.contains_iff_mem, List.mem_map, hkey]
  constructor
  · rintro ⟨r, hr, heq⟩
    have hsame := resourceKey_inj heq
    obtain ⟨hroster, hscope⟩ := List.mem_filter.mp hr
    exact ⟨⟨r, hroster, stationReference_eq_iff.mp hsame⟩, hallows r hsame ▸ hscope⟩
  · rintro ⟨⟨r, hroster, hsame⟩, hscope⟩
    have hsame := stationReference_eq_iff.mpr hsame
    exact ⟨r, List.mem_filter.mpr ⟨hroster, (hallows r hsame).trans hscope⟩, congrArg (resourceKey _) hsame⟩

theorem SnapshotTable.points_length (table : SnapshotTable) {rows : List StoredSnapshot} (hnodup : rows.Nodup)
    (hrows : rows ⊆ table.rows) : (rows.flatMap fun row => points row.snapshot none).length < 2 ^ 64 := by
  obtain ⟨stored, hperm, hsublist⟩ := List.subperm_of_subset hnodup hrows
  rw [← (hperm.flatMap fun _ _ => .refl _).length_eq]
  exact lt_of_le_of_lt (hsublist.flatMap _).length_le table.countable

end Roster

section Scan

def readableRows (listener : Listener) (principal : AccessGrant) : List StoredSnapshot :=
  listener.table.rows.filter fun row => decide (Readable listener principal row.snapshot.station)

def rest (listener : Listener) (principal : AccessGrant) (after : Option String) : List StoredSnapshot :=
  above (·.key) (some (after.getD "")) (readableRows listener principal)

def scanCursor (stations : List StoredSnapshot) (limit : Nat) : Option String :=
  if limit < stations.length then (stations.take limit).getLast?.map (·.key) else none

theorem nodup_readable : ((readableRows listener principal).map (·.key)).Nodup :=
  listener.table.distinct.sublist (List.filter_sublist.map _)

theorem mem_rest (h : row ∈ rest listener principal after) :
    row ∈ listener.table.rows ∧ Readable listener principal row.snapshot.station := by
  have hmem := (mem_above.mp h).1
  rw [readableRows, List.mem_filter, decide_eq_true_eq] at hmem
  exact hmem

def scanPage (stations : List StoredSnapshot) (limit : Nat) : Page StationSnapshot :=
  ⟨(stations.take limit).map (·.snapshot), scanCursor stations limit⟩

theorem page_eq {stations : List StoredSnapshot} {limit : Nat}
    (h : ∀ row ∈ stations, newSnapshotCursor row.key = .ok row.key) :
    page (stations.take (limit + 1)) limit = .ok (scanPage stations limit) := by
  have hkept : (stations.take (limit + 1)).take limit = stations.take limit := by
    rw [List.take_take, Nat.min_eq_left (Nat.le_succ limit)]
  rw [page, hkept, scanPage, scanCursor, List.length_take]
  by_cases hmore : limit < stations.length
  · rw [if_pos (by omega), if_pos hmore]
    cases hlast : (stations.take limit).getLast? with
    | none => rfl
    | some row =>
        rw [Option.map_some]
        simp only [h row (List.mem_of_mem_take (List.mem_of_getLast? hlast))]
        rfl
  · rw [if_neg (by omega), if_neg hmore]
    rfl

theorem portSnapshots_eq (listener : Listener) (principal : AccessGrant) (after : Option String) (limit : PageLimit) :
    portSnapshots listener.authorization listener.table ⟨after, limit⟩ principal.resourceScopes =
      .ok (scanPage (rest listener principal after) limit.value) := by
  have hselected : (listener.table.rows.filter fun row =>
      ((listener.roster.filter fun r => principal.resourceScopes.any (·.allows (stationReference r))).map fun r =>
        resourceKey listener.table.serde (stationReference r)).contains row.key) = readableRows listener principal := by
    refine List.filter_congr fun row hrow => ?_
    rw [Bool.eq_iff_iff, selected_iff hrow, decide_eq_true_eq]
  have hstations : (listener.roster.map stationReference).filter (fun s => principal.resourceScopes.any (·.allows s)) =
      (listener.roster.filter fun r => principal.resourceScopes.any (·.allows (stationReference r))).map
        stationReference := List.filter_map
  have hcursors : ∀ row ∈ rest listener principal after, newSnapshotCursor row.key = .ok row.key := by
    intro row hrow
    rw [(station_only (mem_rest hrow).1).2]
    exact newSnapshotCursor_key _ _
  have hread : listener.table.readScopedSnapshots ⟨after, limit⟩
      ((listener.roster.map stationReference).filter fun s => principal.resourceScopes.any (·.allows s)) =
      .ok (scanPage (rest listener principal after) limit.value) := by
    rw [readScopedSnapshots, hstations, mapM_stationKeyText]
    refine Eq.trans ?_ (page_eq hcursors)
    rw [rest, ← hselected]
    rfl
  have hitems : ∀ s ∈ (scanPage (rest listener principal after) limit.value).items,
      StationOnly s.station ∧ Readable listener principal s.station := by
    intro s hs
    obtain ⟨row, hrow, rfl⟩ := List.mem_map.mp hs
    obtain ⟨htable, hreadable⟩ := mem_rest (List.mem_of_mem_take hrow)
    exact ⟨(station_only htable).1, hreadable⟩
  have hscopes : listener.authorization.resourceScopes ≠ [] := by
    rw [Listener.authorization, ne_eq, List.map_eq_nil_iff]
    exact listener.manned
  simp only [portSnapshots, sourceSnapshots, stationResources_eq, bind_eq_ok, require_eq_ok, pure_eq_ok, mapError_eq_ok]
  refine ⟨(), rfl, (), hscopes, _, ⟨_, hread, (), fun s hs => ?_, rfl⟩, (), ?_, (), fun s hs => ?_, rfl⟩
  · obtain ⟨hstation, hroster, hscope⟩ := hitems s hs
    exact ⟨decide_eq_true hstation, permitsResource_iff.mpr hroster, hscope⟩
  · rw [scanPage, List.length_map]
    exact List.length_take_le _ _
  · obtain ⟨hstation, hroster, hscope⟩ := hitems s hs
    exact ⟨hstation.1, permitsResource_iff.mpr hroster, hscope⟩

end Scan

section Bridge

def listing (principal : AccessGrant) (stations : List StoredSnapshot) : List PointView :=
  (stations.flatMap fun row => points row.snapshot none).filter fun point => principal.permitsRead point.resource

theorem listing_append (stations stations' : List StoredSnapshot) :
    listing principal (stations ++ stations') = listing principal stations ++ listing principal stations' := by
  rw [listing, List.flatMap_append, List.filter_append]
  rfl

theorem listing_length (after : Option String) (n : Nat) :
    (listing principal ((rest listener principal after).take n)).length < 2 ^ 64 := by
  have hnodup : (rest listener principal after).Nodup :=
    (above_pairwise nodup_readable).imp fun hlt heq => hlt.ne (congrArg StoredSnapshot.key heq)
  refine lt_of_le_of_lt (List.length_filter_le _ _) (listener.table.points_length ?_ ?_)
  · exact hnodup.sublist (List.take_sublist n _)
  · exact fun row hrow => (mem_rest (List.mem_of_mem_take hrow)).1

def Position (listener : Listener) (after : Option String) : Prop :=
  ∀ key ∈ after, ∃ r, key = resourceKey listener.table.serde r

theorem Position.snapshotCursor (h : Position listener after) : snapshotCursor after = .ok after := by
  cases after with
  | none => rfl
  | some key =>
      obtain ⟨r, rfl⟩ := h key rfl
      exact snapshotCursor_key _ r

theorem Position.ne_empty (h : Position listener after) : after ≠ some "" := by
  rintro rfl
  obtain ⟨r, hr⟩ := h "" rfl
  exact (resourceKey_pos _ r).ne hr

theorem bridgePoints_eq (h : Position listener after) (delivered limit : Nat) :
    bridgePoints listener principal ⟨delivered, after⟩ limit =
      .ok (window (listing principal ((rest listener principal after).take listener.stationScanLimit.value)) limit
        (fun consumed => (resume consumed after).encode)
        ((scanCursor (rest listener principal after) listener.stationScanLimit.value).map fun next =>
          (advance next).encode) delivered) := by
  rw [bridgePoints, h.snapshotCursor]
  simp only [bind, Except.bind, portSnapshots_eq, Except.mapError]
  rw [scanPage, List.flatMap_map]
  rfl

structure BridgeWide (parameters : PointPageParameters) (limit : PageLimit) : Prop where
  station : parameters.stationId = none
  resource : parameters.narrowsResource = false
  limit : parameters.pageLimit = .ok limit

/-- The pages that the parameters ask for, from any cursor. -/
abbrev pagesFrom (listener : Listener) (principal : AccessGrant) (parameters : PointPageParameters)
    (after : Option String) : Except IntegrationErrorCode (List PointView × Option String) :=
  pointPage listener (some principal) { parameters with after }

theorem requireReader_eq (h : principal.permissions.contains .read = true) :
    requireReader (some principal) = .ok principal := by
  rw [requireReader, if_pos h]

namespace BridgeWide

variable (hread : principal.permissions.contains .read = true)

include hread

section

variable (h : BridgeWide parameters limit)

include h

theorem pointPage_eq
    (hcursor : requested parameters.after = .ok cursor) :
    pointPage listener (some principal) parameters = bridgePoints listener principal cursor limit.value := by
  simp only [pointPage, requireReader_eq hread, h.limit, hcursor, h.station, h.resource, bind, Except.bind]
  rfl

theorem pagesFrom_eq
    (hcursor : requested after = .ok cursor) :
    pagesFrom listener principal parameters after = bridgePoints listener principal cursor limit.value :=
  pointPage_eq hread ⟨h.station, h.resource, h.limit⟩ hcursor

theorem resume
    (hcursor : cursor.after ≠ some "") (hcount : cursor.delivered < 2 ^ 64) :
    pagesFrom listener principal parameters (some cursor.encode) = bridgePoints listener principal cursor limit.value :=
  h.pagesFrom_eq hread (decode_encode hcursor hcount)

end

end BridgeWide

theorem scanCursor_eq_none {stations : List StoredSnapshot} {n : Nat} (hn : 0 < n)
    (h : scanCursor stations n = none) : stations.drop n = [] := by
  rw [scanCursor] at h
  split_ifs at h with hmore
  · rw [Option.map_eq_none_iff, List.getLast?_eq_none_iff, List.take_eq_nil_iff] at h
    rcases h with h | h
    · exact absurd h hn.ne'
    · rw [h, List.drop_nil]
  · exact List.drop_of_length_le (Nat.le_of_not_lt hmore)

theorem rest_scanCursor {n : Nat} {key : String} (h : scanCursor (rest listener principal after) n = some key) :
    Position listener (some key) ∧ n < (rest listener principal after).length ∧
      rest listener principal (some key) = (rest listener principal after).drop n := by
  rw [scanCursor] at h
  split_ifs at h with hmore
  obtain ⟨row, hlast, rfl⟩ := Option.map_eq_some_iff.mp h
  obtain ⟨front, hfront⟩ := List.getLast?_eq_some_iff.mp hlast
  have hsplit : rest listener principal after = front ++ row :: (rest listener principal after).drop n := by
    rw [← List.singleton_append, ← List.append_assoc, ← hfront, List.take_append_drop]
  have hrow : row ∈ rest listener principal after := List.mem_of_mem_take (List.mem_of_getLast? hlast)
  refine ⟨?_, hmore, above_last nodup_readable hsplit⟩
  intro key hkey
  rw [Option.mem_some_iff] at hkey
  exact ⟨_, hkey.symm.trans (station_only (mem_rest hrow).1).2⟩

theorem follows_rest (hread : principal.permissions.contains .read = true) (hbridge : BridgeWide parameters limit)
    (h : Position listener after) :
    Follows (fun cursor => pagesFrom listener principal parameters (some cursor))
      (bridgePoints listener principal ⟨0, after⟩ limit.value) (listing principal (rest listener principal after)) := by
  induction hleft : (rest listener principal after).length using Nat.strong_induction_on generalizing after with
  | _ left ih =>
      let n := listener.stationScanLimit.value
      have hsplit : listing principal (rest listener principal after) =
          listing principal ((rest listener principal after).take n) ++
            listing principal ((rest listener principal after).drop n) := by
        rw [← listing_append, List.take_append_drop]
      rw [bridgePoints_eq h, hsplit]
      refine follows_window limit.positive (fun delivered hdelivered => ?_) ?_ 0
      · rw [hbridge.resume hread h.ne_empty (hdelivered.trans (listing_length after _))]
        exact bridgePoints_eq h _ _
      · cases hnext : scanCursor (rest listener principal after) n with
        | none =>
            rw [scanCursor_eq_none listener.stationScanLimit.positive hnext]
            exact .nothing
        | some key =>
            obtain ⟨hposition, hmore, hrest⟩ := rest_scanCursor hnext
            refine .more ?_
            have hcursor : (advance key).after ≠ some "" := hposition.ne_empty
            rw [hbridge.resume hread hcursor (Nat.two_pow_pos 64), ← hrest]
            refine ih _ ?_ hposition rfl
            rw [hrest, List.length_drop]
            have hpositive := listener.stationScanLimit.positive
            omega

end Bridge

/-- Following the cursors from the first page on reads these points. -/
def Reads (listener : Listener) (principal : AccessGrant) (parameters : PointPageParameters)
    (items : List PointView) : Prop :=
  Follows (fun cursor => pagesFrom listener principal parameters (some cursor))
    (pagesFrom listener principal parameters none) items

section Station

/-- A request for the points of the station that it names, or of a part of it. -/
structure Addresses (principal : AccessGrant) (parameters : PointPageParameters) (limit : PageLimit)
    (addressed : ResourceRef) : Prop where
  resource : parameters.resource principal = .ok addressed
  limit : parameters.pageLimit = .ok limit

theorem Addresses.named (h : Addresses principal parameters limit addressed) : parameters.stationId.isSome = true := by
  have hresource := h.resource
  cases hstation : parameters.stationId with
  | none =>
      rw [PointPageParameters.resource, hstation] at hresource
      cases hresource
  | some stationId => rfl

theorem Addresses.pagesFrom_eq (hread : principal.permissions.contains .read = true)
    (h : Addresses principal parameters limit addressed) (hcursor : requested after = .ok cursor) :
    pagesFrom listener principal parameters after = stationPoints listener principal parameters cursor limit.value := by
  have hlimit : ({ parameters with after } : PointPageParameters).pageLimit = .ok limit := h.limit
  simp only [pagesFrom, pointPage, requireReader_eq hread, hlimit, hcursor, h.named, bind, Except.bind, if_true]
  rfl

theorem OnRoster.congr {r r' : ResourceRef} (h : OnRoster listener r)
    (hsame : stationReference r' = stationReference r) : OnRoster listener r' := by
  obtain ⟨s, hs, hr⟩ := h
  refine ⟨s, hs, stationReference_eq_iff.mp ?_⟩
  exact (stationReference_eq_iff.mpr hr).trans hsame.symm

def storedSnapshot (listener : Listener) (addressed : ResourceRef) : Option StationSnapshot :=
  (listener.table.rows.find? fun row => row.key = resourceKey listener.table.serde (stationReference addressed)).map
    (·.snapshot)

theorem storedSnapshot_eq_some {s : StationSnapshot} (h : storedSnapshot listener addressed = some s) :
    StationOnly s.station ∧ stationReference s.station = stationReference addressed := by
  obtain ⟨row, hrow, rfl⟩ := Option.map_eq_some_iff.mp h
  obtain ⟨honly, hrowkey⟩ := station_only (List.mem_of_find?_eq_some hrow)
  have hsame := List.find?_some hrow
  rw [decide_eq_true_eq, hrowkey] at hsame
  exact ⟨honly, resourceKey_inj hsame⟩

theorem portSnapshot_eq (hroster : OnRoster listener addressed) :
    portSnapshot listener.authorization listener.table (stationReference addressed) =
      .ok (storedSnapshot listener addressed) := by
  have hread : listener.table.stationSnapshot (stationReference addressed) =
      .ok (storedSnapshot listener addressed) := by
    rw [stationSnapshot, stationKeyText_stationReference]
    rfl
  have hgranted : (listener.roster.map stationReference).any
      (fun granted => sameStation granted (stationReference addressed)) = true := by
    obtain ⟨r, hr, hsame⟩ := hroster
    exact List.any_eq_true.mpr ⟨stationReference r, List.mem_map_of_mem hr, hsame⟩
  have hpermits {s : StationSnapshot} (hs : storedSnapshot listener addressed = some s) :
      listener.authorization.permitsResource s.station = true :=
    permitsResource_iff.mpr (hroster.congr (storedSnapshot_eq_some hs).2)
  simp only [portSnapshot, requireResource, sourceSnapshot, stationResources_eq, bind_eq_ok, require_eq_ok, pure_eq_ok,
    mapError_eq_ok]
  refine ⟨(), rfl, (), ⟨(), rfl, permitsResource_iff.mpr hroster⟩, _,
    ⟨(), rfl, (), hgranted, _, hread, (), fun s hs => ?_, rfl⟩, (), fun s hs => ?_, rfl⟩
  · obtain ⟨honly, hsame⟩ := storedSnapshot_eq_some hs
    exact ⟨decide_eq_true honly, stationReference_eq_iff.mp hsame, hpermits hs⟩
  · obtain ⟨honly, hsame⟩ := storedSnapshot_eq_some hs
    have hstation : addressed.bridgeId = s.station.bridgeId ∧ addressed.stationId = s.station.stationId :=
      of_decide_eq_true (stationReference_eq_iff.mp hsame.symm)
    exact ⟨hpermits hs, decide_eq_true ⟨hstation.1, hstation.2, honly.1.symm⟩⟩

def stationListing (listener : Listener) (principal : AccessGrant) (addressed : ResourceRef) : List PointView :=
  if principal.intersectsStation (stationReference addressed) then
    match storedSnapshot listener addressed with
    | some snapshot => (points snapshot addressed.resource).filter fun point => principal.permitsRead point.resource
    | none => []
  else []

theorem stationListing_length (listener : Listener) (principal : AccessGrant) (addressed : ResourceRef) :
    (stationListing listener principal addressed).length < 2 ^ 64 := by
  unfold stationListing
  split_ifs
  · split
    · next snapshot hstored =>
        obtain ⟨row, hrow, rfl⟩ := Option.map_eq_some_iff.mp hstored
        have hone := listener.table.points_length (List.nodup_singleton row)
          (List.cons_subset.mpr ⟨List.mem_of_find?_eq_some hrow, List.nil_subset _⟩)
        rw [List.flatMap_singleton] at hone
        refine lt_of_le_of_lt (List.length_filter_le _ _) (lt_of_le_of_lt ?_ hone)
        exact (points_sublist row.snapshot addressed.resource).length_le
    · exact Nat.two_pow_pos 64
  · exact Nat.two_pow_pos 64

theorem stationAvailable_eq
    (h : OnRoster listener addressed ∨ principal.intersectsStation (stationReference addressed) = false) :
    stationAvailable listener principal addressed = .ok (stationListing listener principal addressed) := by
  cases hscope : principal.intersectsStation (stationReference addressed) with
  | false =>
      simp only [stationAvailable, stationListing, hscope]
      rfl
  | true =>
      have hroster := h.resolve_right (by rw [hscope]; exact Bool.noConfusion)
      simp only [stationAvailable, stationListing, hscope, if_true, portSnapshot_eq hroster]
      rfl

def stationPage (listener : Listener) (principal : AccessGrant) (addressed : ResourceRef) (limit : PageLimit)
    (delivered : Nat) : List PointView × Option String :=
  window (stationListing listener principal addressed) limit.value
    (fun consumed => (resume consumed none).encode) none delivered

theorem stationPoints_eq (h : Addresses principal parameters limit addressed)
    (hserved : OnRoster listener addressed ∨ principal.intersectsStation (stationReference addressed) = false)
    (cursor : PointCursor) : stationPoints listener principal parameters cursor limit.value =
      .ok (stationPage listener principal addressed limit cursor.delivered) := by
  simp only [stationPoints, h.resource, stationAvailable_eq hserved, bind, Except.bind]
  rfl

theorem follows_station (hread : principal.permissions.contains .read = true)
    (h : Addresses principal parameters limit addressed)
    (hserved : OnRoster listener addressed ∨ principal.intersectsStation (stationReference addressed) = false) :
    Reads listener principal parameters (stationListing listener principal addressed) := by
  have hpage {after : Option String} (cursor : PointCursor) (hcursor : requested after = .ok cursor) :
      pagesFrom listener principal parameters after =
        .ok (stationPage listener principal addressed limit cursor.delivered) :=
    (h.pagesFrom_eq hread hcursor).trans (stationPoints_eq h hserved cursor)
  rw [Reads, hpage _ rfl]
  refine follows_block limit.positive fun delivered hcount => hpage (.resume delivered none) ?_
  exact decode_encode nofun (hcount.trans (stationListing_length listener principal addressed))

theorem stationListing_of_row (hrow : row ∈ listener.table.rows)
    (hsame : sameStation row.snapshot.station addressed = true) :
    storedSnapshot listener addressed = some row.snapshot := by
  have hkey : row.key = resourceKey listener.table.serde (stationReference addressed) := by
    rw [(station_only hrow).2, stationReference_eq_iff.mpr hsame]
  rw [storedSnapshot, ← hkey, Keyed.find_eq_some listener.table.distinct hrow]
  rfl

end Station

/-- What following the cursors of a bridge-wide request reads, station by station in the order of the keys. -/
def ListsAll (listener : Listener) (principal : AccessGrant) (parameters : PointPageParameters) : Prop :=
  ∃ (stations : List StoredSnapshot) (lists : List (List PointView)),
    stations.Pairwise (fun a b => a.key < b.key) ∧
    (∀ row, row ∈ stations ↔ row ∈ listener.table.rows ∧ Readable listener principal row.snapshot.station) ∧
    List.Forall₂ (fun row => Catalogue row.snapshot none) stations lists ∧
    Reads listener principal parameters (lists.flatten.filter fun point => principal.permitsRead point.resource)

def ListsStation (listener : Listener) (principal : AccessGrant) (parameters : PointPageParameters)
    (addressed : ResourceRef) : Prop :=
  ∃ all : List PointView,
    (∀ row ∈ listener.table.rows, sameStation row.snapshot.station addressed →
      Catalogue row.snapshot addressed.resource all) ∧
    ((∀ row ∈ listener.table.rows, ¬sameStation row.snapshot.station addressed) → all = []) ∧
    Reads listener principal parameters
      (if principal.intersectsStation (stationReference addressed) then
        all.filter fun point => principal.permitsRead point.resource
      else [])

section Listings

theorem listsAll (hread : principal.permissions.contains .read = true) (h : BridgeWide parameters limit) :
    ListsAll listener principal parameters := by
  have hstations : ∀ row, row ∈ rest listener principal none ↔
      row ∈ listener.table.rows ∧ Readable listener principal row.snapshot.station := by
    intro row
    refine ⟨mem_rest, fun hrow => ?_⟩
    rw [rest, mem_above, readableRows, List.mem_filter, decide_eq_true_eq]
    refine ⟨hrow, fun key hkey => ?_⟩
    rw [Option.mem_some_iff] at hkey
    rw [← hkey, (station_only hrow.1).2]
    exact resourceKey_pos _ _
  refine ⟨rest listener principal none, (rest listener principal none).map fun row => points row.snapshot none,
    above_pairwise nodup_readable, hstations, ?_, ?_⟩
  · rw [List.forall₂_map_right_iff]
    exact List.forall₂_same.mpr fun row _ => points_catalogue row.snapshot none
  · rw [Reads, h.pagesFrom_eq hread rfl, ← List.flatMap_def]
    exact follows_rest hread h nofun

theorem listsStation (hread : principal.permissions.contains .read = true)
    (h : Addresses principal parameters limit addressed)
    (hserved : OnRoster listener addressed ∨ principal.intersectsStation (stationReference addressed) = false) :
    ListsStation listener principal parameters addressed := by
  have hfollows := follows_station hread h hserved
  rw [stationListing] at hfollows
  cases hstored : storedSnapshot listener addressed with
  | none =>
      refine ⟨[], fun row hrow hsame => ?_, fun _ => rfl, ?_⟩
      · rw [stationListing_of_row hrow hsame] at hstored
        cases hstored
      · rw [hstored] at hfollows
        exact hfollows
  | some snapshot =>
      refine ⟨points snapshot addressed.resource, fun row hrow hsame => ?_, fun hnone => ?_, ?_⟩
      · rw [stationListing_of_row hrow hsame] at hstored
        cases hstored
        exact points_catalogue row.snapshot addressed.resource
      · obtain ⟨row, hrow, rfl⟩ := Option.map_eq_some_iff.mp hstored
        refine absurd ?_ (hnone row (List.mem_of_find?_eq_some hrow))
        exact stationReference_eq_iff.mp (storedSnapshot_eq_some hstored).2
      · rw [hstored] at hfollows
        exact hfollows

theorem portSnapshot_refused (h : ¬OnRoster listener addressed) :
    portSnapshot listener.authorization listener.table (stationReference addressed) =
      .error ⟨.unauthorized, "query.resource_outside_scope"⟩ := by
  have hpermits : ¬listener.authorization.permitsResource (stationReference addressed) = true :=
    fun hpermits => h ((permitsResource_iff.mp hpermits).congr rfl)
  simp only [portSnapshot, requireResource, require, if_neg hpermits]
  rfl

/-- A station off the roster and inside the credential's scopes is refused on the first page. -/
theorem pagesFrom_refused (hread : principal.permissions.contains .read = true)
    (h : Addresses principal parameters limit addressed) (hroster : ¬OnRoster listener addressed)
    (hscope : principal.intersectsStation (stationReference addressed) = true) :
    pagesFrom listener principal parameters none = .error .permissionDenied := by
  rw [h.pagesFrom_eq hread rfl]
  simp only [stationPoints, h.resource, stationAvailable, hscope, if_true, portSnapshot_refused hroster,
    bind, Except.bind, Except.mapError]
  rfl

theorem listsStation_iff (hread : principal.permissions.contains .read = true)
    (h : Addresses principal parameters limit addressed) : ListsStation listener principal parameters addressed ↔
      OnRoster listener addressed ∨ principal.intersectsStation (stationReference addressed) = false := by
  refine ⟨fun hlists => ?_, listsStation hread h⟩
  by_contra hrefused
  rw [not_or, Bool.not_eq_false] at hrefused
  obtain ⟨all, -, -, hfollows⟩ := hlists
  rw [Reads, pagesFrom_refused hread h hrefused.1 hrefused.2] at hfollows
  cases hfollows

/-- Following the cursors of a listing reads every point that the credential may read, in order and once;
of one station, exactly if the station is on the roster or outside the credential's scopes. -/
theorem pointPage_lists (listener : Listener) (principal : AccessGrant) :
    (principal.permissions.contains .read = false →
      ∀ parameters, pointPage listener (some principal) parameters = .error .permissionDenied) ∧
    (principal.permissions.contains .read = true →
      (∀ parameters limit, BridgeWide parameters limit → ListsAll listener principal parameters) ∧
      (∀ parameters limit addressed, Addresses principal parameters limit addressed →
        (ListsStation listener principal parameters addressed ↔
          OnRoster listener addressed ∨ principal.intersectsStation (stationReference addressed) = false))) := by
  refine ⟨fun hread parameters => ?_,
    fun hread => ⟨fun parameters limit h => ?_, fun parameters limit addressed h => ?_⟩⟩
  · rw [pointPage, requireReader, hread]
    rfl
  · exact listsAll hread h
  · exact listsStation_iff hread h

end Listings

section Sample

def sampleGrant : AccessGrant := ⟨[.read], [.bridge "bridge"], nofun, nofun⟩

def sampleStation : ResourceRef := ⟨"bridge", "station", none, none⟩

def sampleValue (pointId : String) (value : Int) : DataPointValue :=
  ⟨pointId, some (.signedInteger value), none, 0, none⟩

def sampleSnapshot : StationSnapshot :=
  ⟨.v1Initial, sampleStation, 0, .disconnected, [], [], [sampleValue "power" 7, sampleValue "energy" 3]⟩

noncomputable def sampleTable : SnapshotTable where
  serde := Call.Json.compact
  rows := [⟨resourceKey Call.Json.compact sampleStation, sampleSnapshot⟩]
  keyed row hrow := by
    rw [List.mem_singleton.mp hrow]
    exact stationKeyText_stationReference sampleStation
  distinct := List.nodup_singleton _
  countable := by decide +kernel

noncomputable def sampleListener : Listener :=
  ⟨"target", [sampleStation], nofun, sampleTable, ⟨1, by decide, by decide⟩⟩

def stationRequest (bridgeId stationId : Option String) : PointPageParameters :=
  ⟨none, some 1, bridgeId, stationId, none, none⟩

/-- A station that does not exist is refused where one outside the credential's scope gives an empty page. -/
theorem absent_station_refused :
    pointPage sampleListener (some sampleGrant) (stationRequest none (some "absent")) = .error .permissionDenied ∧
      pointPage sampleListener (some sampleGrant) (stationRequest (some "other") (some "absent")) = .ok ([], none) := by
  decide +kernel

theorem pointPage_lists_sample : ListsAll sampleListener sampleGrant (stationRequest none none) ∧
    ListsStation sampleListener sampleGrant (stationRequest none (some "station")) sampleStation := by
  have hlists := (pointPage_lists sampleListener sampleGrant).2 rfl
  refine ⟨hlists.1 _ ⟨1, by decide, by decide⟩ ⟨rfl, rfl, rfl⟩,
    (hlists.2 _ ⟨1, by decide, by decide⟩ _ ⟨?_, rfl⟩).mpr ?_⟩
  · decide +kernel
  · exact .inl ⟨sampleStation, List.mem_singleton_self _, rfl⟩

end Sample

end OcppBridge.Integration
