import OcppBridge.Outbox.Change

namespace OcppBridge.Outbox

open Storage Text Transaction Transition Database

variable {policy : RetentionPolicy} {source : Export.Source} {db db' : Database} {requests : List Request}

section Growth

def Grown (db db' : Database) : Prop :=
  ∃ new, db'.events = db.events ++ new ∧ new.Pairwise (·.rowId < ·.rowId) ∧
    (∀ row ∈ new, db.lastEventRow < row.rowId ∧ row.rowId ≤ db'.lastEventRow) ∧
    db.lastEventRow ≤ db'.lastEventRow ∧ (db.lastEventRow ≤ maxSqlInteger → db'.lastEventRow ≤ maxSqlInteger)

theorem Grown.of_eq (hevents : db'.events = db.events) (hlast : db'.lastEventRow = db.lastEventRow) : Grown db db' :=
  ⟨[], by simp [hevents], .nil, by simp, hlast.ge, hlast.le.trans⟩

theorem Grown.trans {db'' : Database} (h : Grown db db') (h' : Grown db' db'') : Grown db db'' := by
  obtain ⟨new, hevents, hsorted, hfresh, hlast, hrange⟩ := h
  obtain ⟨new', hevents', hsorted', hfresh', hlast', hrange'⟩ := h'
  refine ⟨new ++ new', by rw [hevents', hevents, List.append_assoc], ?_, fun row hrow => ?_, hlast.trans hlast',
    fun hle => hrange' (hrange hle)⟩
  · refine List.pairwise_append.mpr ⟨hsorted, hsorted', fun a ha b hb => ?_⟩
    have hle := (hfresh a ha).2
    have hlt := (hfresh' b hb).1
    omega
  · rcases List.mem_append.mp hrow with hrow | hrow
    · exact ⟨(hfresh row hrow).1, (hfresh row hrow).2.trans hlast'⟩
    · exact ⟨hlast.trans_lt (hfresh' row hrow).1, (hfresh' row hrow).2⟩

theorem Grown.of_change (h : Change db db') : Grown db db' := by
  cases h with
  | counted | shed | exported | disposed | execute => exact .of_eq rfl rfl
  | event hwrite =>
      obtain ⟨hrange, _, rfl⟩ := writeEvent_eq_ok hwrite
      exact ⟨_, rfl, List.pairwise_singleton _ _, by simp, Nat.le_succ _, fun _ => hrange⟩
  | delivery hwrite =>
      obtain ⟨_, rfl⟩ := writeDelivery_eq_ok hwrite
      exact .of_eq rfl rfl
  | attempt hattempt =>
      obtain ⟨_, ⟨_, rfl⟩ | ⟨_, _, rfl⟩⟩ := recordAttempt_eq_ok hattempt
      · exact .of_eq rfl rfl
      · exact .of_eq rfl rfl

theorem step_grown (policy : RetentionPolicy) (db : Database) (request : Request) :
    Grown db (db.step policy request) ∨ ∃ now, request = .maintain now := by
  rcases step_changes policy db request with hchanges | ⟨now, hmaintain, -⟩
  · exact .inl (steps_rel (R := Grown) (fun _ => .of_eq rfl rfl) .trans .of_change hchanges)
  · exact .inr ⟨now, hmaintain⟩

end Growth

section Runs

theorem run_concat (policy : RetentionPolicy) (db : Database) (requests : List Request) (request : Request) :
    db.run policy (requests ++ [request]) = (db.run policy requests).step policy request := by
  rw [run, run, List.foldl_append, List.foldl_cons, List.foldl_nil]

def Committed (policy : RetentionPolicy) (source : Export.Source) (requests : List Request) (row : EventRow) : Prop :=
  ∃ before, before <+: requests ∧ row ∈ ((empty source).run policy before).events

/-- Its retention is over and no delivery waits for it. -/
def Expired (db : Database) (now : Int) (row : EventRow) : Prop :=
  (∃ retainUntil ∈ row.retainUntil, retainUntil ≤ now) ∧ ∀ delivery ∈ db.deliveries, delivery.eventId ≠ row.eventId

def ExpiresInOrder (db : Database) (now : Int) (resource : String) : Prop :=
  ∀ row ∈ db.events, row.resource = resource → Expired db now row →
    ∀ earlier ∈ db.events, earlier.resource = resource → earlier.rowId < row.rowId → Expired db now earlier

instance (db : Database) (now : Int) (row : EventRow) : Decidable (Expired db now row) :=
  inferInstanceAs (Decidable (_ ∧ _))

variable {row : EventRow} {now : Int} {request : Request}

theorem mem_maintain : row ∈ (maintain db now).events ↔ row ∈ db.events ∧ ¬Expired db now row := by
  simp only [maintain, List.mem_filter, Expired, Bool.not_eq_true', ← Bool.not_eq_true, Bool.and_eq_true,
    List.all_eq_true, Option.any_eq_true, decide_eq_true_eq, Option.mem_def]

/-- The rows of the journal lie in the order in which they were committed, at positions that a cursor can name. -/
structure Laid (policy : RetentionPolicy) (source : Export.Source) (requests : List Request) : Prop where
  sorted : ((empty source).run policy requests).events.Pairwise (·.rowId < ·.rowId)
  range : ((empty source).run policy requests).lastEventRow ≤ maxSqlInteger
  bounded : ∀ row, Committed policy source requests row →
    0 < row.rowId ∧ row.rowId ≤ ((empty source).run policy requests).lastEventRow

/-- The journal keeps the end of what was committed to the stream. -/
def KeepsEnd (policy : RetentionPolicy) (source : Export.Source) (resource : String) (requests : List Request) : Prop :=
  ∀ row, Committed policy source requests row → row.resource = resource →
    ∀ earlier ∈ ((empty source).run policy requests).events, earlier.resource = resource →
      earlier.rowId < row.rowId → row ∈ ((empty source).run policy requests).events

theorem Committed.of_mem (h : row ∈ ((empty source).run policy requests).events) :
    Committed policy source requests row := ⟨requests, List.prefix_rfl, h⟩

theorem committed_concat (h : Committed policy source (requests ++ [request]) row) :
    Committed policy source requests row ∨
      row ∈ (((empty source).run policy requests).step policy request).events := by
  obtain ⟨before, hbefore, hrow⟩ := h
  rcases List.prefix_concat_iff.mp hbefore with rfl | hbefore
  · rw [run_concat] at hrow
    exact .inr hrow
  · exact .inl ⟨before, hbefore, hrow⟩

theorem not_committed_nil (row : EventRow) : ¬Committed policy source [] row := by
  rintro ⟨before, hbefore, hrow⟩
  rw [List.prefix_nil.mp hbefore] at hrow
  cases hrow

theorem run_maintain (now : Int) : (empty source).run policy (requests ++ [.maintain now]) =
    maintain ((empty source).run policy requests) now := run_concat _ _ _ _

theorem committed_maintain (h : Committed policy source (requests ++ [.maintain now]) row) :
    Committed policy source requests row := by
  rcases committed_concat h with h | h
  · exact h
  · exact .of_mem (mem_maintain.mp h).1

namespace Laid

theorem grow (h : Laid policy source requests)
    (hgrown : Grown ((empty source).run policy requests) (((empty source).run policy requests).step policy request)) :
    Laid policy source (requests ++ [request]) := by
  obtain ⟨new, hevents, hsorted, hfresh, hlast, hrange⟩ := hgrown
  have hbounded : ∀ row, Committed policy source requests row → 0 < row.rowId ∧
      row.rowId ≤ (((empty source).run policy requests).step policy request).lastEventRow :=
    fun row hrow => ⟨(h.bounded row hrow).1, (h.bounded row hrow).2.trans hlast⟩
  constructor
  · rw [run_concat, hevents]
    refine List.pairwise_append.mpr ⟨h.sorted, hsorted, fun a ha b hb => ?_⟩
    exact (h.bounded a (.of_mem ha)).2.trans_lt (hfresh b hb).1
  · rw [run_concat]
    exact hrange h.range
  · intro row hrow
    rw [run_concat]
    rcases committed_concat hrow with hrow | hrow
    · exact hbounded row hrow
    · rw [hevents] at hrow
      rcases List.mem_append.mp hrow with hrow | hrow
      · exact hbounded row (.of_mem hrow)
      · exact ⟨Nat.zero_lt_of_lt (hfresh row hrow).1, (hfresh row hrow).2⟩

theorem prune (h : Laid policy source requests) (now : Int) : Laid policy source (requests ++ [.maintain now]) := by
  constructor
  · rw [run_maintain]
    exact h.sorted.filter _
  · rw [run_maintain]
    exact h.range
  · intro row hrow
    rw [run_maintain]
    exact h.bounded row (committed_maintain hrow)

theorem run (requests : List Request) : Laid policy source requests := by
  induction requests using List.reverseRecOn with
  | nil => exact ⟨.nil, Nat.zero_le _, fun row hrow => absurd hrow (not_committed_nil row)⟩
  | append_singleton requests request ih =>
      rcases step_grown policy _ request with hgrown | ⟨now, rfl⟩
      · exact ih.grow hgrown
      · exact ih.prune now

end Laid

namespace KeepsEnd

variable {resource : String}

theorem grow (h : KeepsEnd policy source resource requests)
    (hgrown : Grown ((empty source).run policy requests) (((empty source).run policy requests).step policy request)) :
    KeepsEnd policy source resource (requests ++ [request]) := by
  obtain ⟨new, hevents, -, hfresh, -, -⟩ := hgrown
  intro row hrow hresource earlier hearlier hstream hlt
  rw [run_concat, hevents] at hearlier ⊢
  rcases committed_concat hrow with hrow | hrow
  · have hrowId := ((Laid.run requests).bounded row hrow).2
    rcases List.mem_append.mp hearlier with hearlier | hearlier
    · exact List.mem_append_left _ (h row hrow hresource earlier hearlier hstream hlt)
    · have hnew := (hfresh earlier hearlier).1
      omega
  · rwa [hevents] at hrow

theorem prune (h : KeepsEnd policy source resource requests)
    (horder : ExpiresInOrder ((empty source).run policy requests) now resource) :
    KeepsEnd policy source resource (requests ++ [.maintain now]) := by
  intro row hrow hresource earlier hearlier hstream hlt
  rw [run_maintain, mem_maintain] at hearlier ⊢
  have hstored := h row (committed_maintain hrow) hresource earlier hearlier.1 hstream hlt
  refine ⟨hstored, fun hexpired => hearlier.2 ?_⟩
  exact horder row hstored hresource hexpired earlier hearlier.1 hstream hlt

theorem run (requests : List Request)
    (horder : ∀ before now, before ++ [.maintain now] <+: requests →
      ExpiresInOrder ((empty source).run policy before) now resource) :
    KeepsEnd policy source resource requests := by
  induction requests using List.reverseRecOn with
  | nil => exact fun row hrow => absurd hrow (not_committed_nil row)
  | append_singleton requests request ih =>
      have hfront := ih fun before now hbefore => horder before now (hbefore.trans (List.prefix_append _ _))
      rcases step_grown policy _ request with hgrown | ⟨now, rfl⟩
      · exact hfront.grow hgrown
      · exact hfront.prune (horder requests now List.prefix_rfl)

end KeepsEnd

end Runs

section Reading

theorem eventsAfter_eq (h : db.events.Pairwise (·.rowId < ·.rowId)) (resource : String) (after : Nat) :
    eventsAfter db resource after = db.events.filter fun row => row.resource = resource && after < row.rowId := by
  apply List.mergeSort_of_pairwise
  refine (h.filter _).imp fun {a b} hab => ?_
  simpa using hab.le

theorem eventCursor_cursorAt {position : Nat} (hpos : 0 < position) (hle : position ≤ maxSqlInteger) :
    eventCursor (some (cursorAt position)) = .ok (some position) := by
  have hparse := parseSigned_repr (n := position) (Nat.lt_of_le_of_lt hle (by decide))
  have hcast : (0 : Int) < position := Int.natCast_pos.mpr hpos
  simp only [eventCursor, cursorAt, stripPrefix_append, Option.bind_some, hparse]
  exact bind_eq_ok.mpr ⟨(), if_pos hcast, rfl⟩

theorem eventCursor_cases (cursor : String) :
    eventCursor (some cursor) = .error cursorExpired ∨ ∃ position, eventCursor (some cursor) = .ok (some position) := by
  cases hparse : (stripPrefix retainedEventCursorPrefix cursor).bind parseSigned with
  | none => exact .inl (by simp only [eventCursor, hparse])
  | some position =>
      by_cases hpositive : 0 < position
      · refine .inr ⟨position.toNat, ?_⟩
        simp [eventCursor, hparse, hpositive]
      · refine .inl ?_
        simp only [eventCursor, hparse, require, hpositive, if_false]
        rfl

variable {resource : String}

theorem readEvents_stored {cursor : String} {position : Nat} (hcursor : eventCursor (some cursor) = .ok (some position))
    (hstored : ∃ row ∈ db.events, row.resource = resource ∧ row.rowId = position) (limit : Nat) :
    readEvents db resource (some cursor) limit = .ok {
      events := (eventsAfter db resource position).take limit
      resumeCursor := some (cursorAt
        ((((eventsAfter db resource position).take limit).getLast?.map (·.rowId)).getD position))
      hasMore := decide (limit < (eventsAfter db resource position).length) } := by
  have htake : ((eventsAfter db resource position).take (limit + 1)).take limit =
      (eventsAfter db resource position).take limit := by
    rw [List.take_take, Nat.min_eq_left (Nat.le_succ limit)]
  have hmore : limit < ((eventsAfter db resource position).take (limit + 1)).length ↔
      limit < (eventsAfter db resource position).length := by
    rw [List.length_take]
    omega
  refine bind_eq_ok.mpr ⟨some position, hcursor, bind_eq_ok.mpr ⟨(), if_pos hstored, ?_⟩⟩
  simp only [Option.getD_some, htake, hmore]
  cases ((eventsAfter db resource position).take limit).getLast? with
  | none => rfl
  | some row => rfl

theorem readEvents_cases (db : Database) (resource cursor : String) (limit : Nat) :
    readEvents db resource (some cursor) limit = .error cursorExpired ∨
      ∃ position, eventCursor (some cursor) = .ok (some position) ∧
        ∃ row ∈ db.events, row.resource = resource ∧ row.rowId = position := by
  rcases eventCursor_cases cursor with hcursor | ⟨position, hcursor⟩
  · refine .inl ?_
    rw [readEvents, hcursor]
    rfl
  · by_cases hstored : ∃ row ∈ db.events, row.resource = resource ∧ row.rowId = position
    · exact .inr ⟨position, hcursor, hstored⟩
    · refine .inl ?_
      have hrequire : require (∃ row ∈ db.events, row.resource = resource ∧ row.rowId = position) cursorExpired =
          .error cursorExpired := if_neg hstored
      rw [readEvents, hcursor]
      show (require _ _ >>= _) = _
      rw [hrequire]
      rfl

/-- A consumer that resumes from the checkpoint is told that it has expired, or is given what was ever committed to the
stream after it. -/
def Resumes (policy : RetentionPolicy) (source : Export.Source) (requests : List Request) (resource cursor : String)
    (limit : Nat) : Prop :=
  readEvents ((empty source).run policy requests) resource (some cursor) limit = .error cursorExpired ∨
    ∃ position, ∃ later : List EventRow, ∃ page, eventCursor (some cursor) = .ok (some position) ∧
      readEvents ((empty source).run policy requests) resource (some cursor) limit = .ok page ∧
      (∀ row, row ∈ later ↔ Committed policy source requests row ∧ row.resource = resource ∧ position < row.rowId) ∧
      later.Pairwise (·.rowId < ·.rowId) ∧
      (∀ row ∈ later, row ∈ ((empty source).run policy requests).events) ∧
      page.events = later.take limit ∧ (page.hasMore ↔ limit < later.length) ∧
      eventCursor page.resumeCursor = .ok (some (((later.take limit).getLast?.map (·.rowId)).getD position))

theorem eventCursor_stored {row : EventRow} (h : row ∈ ((empty source).run policy requests).events) :
    eventCursor (some (cursorAt row.rowId)) = .ok (some row.rowId) := by
  have hlaid : Laid policy source requests := Laid.run requests
  obtain ⟨hpos, hle⟩ := hlaid.bounded row (.of_mem h)
  exact eventCursor_cursorAt hpos (hle.trans hlaid.range)

theorem KeepsEnd.resumes (h : KeepsEnd policy source resource requests) (cursor : String) (limit : Nat) :
    Resumes policy source requests resource cursor limit := by
  obtain hexpired | ⟨position, hposition, stored, hstored, rfl, rfl⟩ :=
    readEvents_cases ((empty source).run policy requests) resource cursor limit
  · exact .inl hexpired
  · have hlaid : Laid policy source requests := Laid.run requests
    have hsorted := hlaid.sorted
    have hpage := readEvents_stored hposition ⟨stored, hstored, rfl, rfl⟩ limit
    rw [eventsAfter_eq hsorted] at hpage
    refine .inr ⟨stored.rowId, _, _, hposition, hpage, fun row => ?_, hsorted.filter _,
      fun row hrow => List.mem_of_mem_filter hrow, rfl, decide_eq_true_iff, ?_⟩
    · simp only [List.mem_filter, Bool.and_eq_true, decide_eq_true_eq]
      constructor
      · rintro ⟨hrow, hresource, hlt⟩
        exact ⟨.of_mem hrow, hresource, hlt⟩
      · rintro ⟨hrow, hresource, hlt⟩
        exact ⟨h row hrow hresource stored hstored rfl hlt, hresource, hlt⟩
    · dsimp only
      cases hlast : (List.take limit _).getLast? with
      | none => exact eventCursor_stored hstored
      | some row =>
          exact eventCursor_stored (List.mem_of_mem_filter (List.mem_of_mem_take (List.mem_of_getLast? hlast)))

/-- A reader at the row before sees that the later one is missing. -/
theorem Resumes.keeps {earlier row : EventRow} (hrow : Committed policy source requests row)
    (hresource : row.resource = resource) (hearlier : earlier ∈ ((empty source).run policy requests).events)
    (hstream : earlier.resource = resource) (hlt : earlier.rowId < row.rowId)
    (h : Resumes policy source requests resource (cursorAt earlier.rowId) 0) :
    row ∈ ((empty source).run policy requests).events := by
  have hcursor := eventCursor_stored hearlier
  obtain hexpired | ⟨position, later, page, hposition, -, hlater, -, hstored, -⟩ := h
  · rw [readEvents_stored hcursor ⟨earlier, hearlier, hstream, rfl⟩] at hexpired
    cases hexpired
  · rw [hcursor] at hposition
    cases hposition
    exact hstored row ((hlater row).mpr ⟨hrow, hresource, hlt⟩)

/-- The readers of a stream are served at every time of a run exactly where its events expire in the order in which they
were committed. -/
theorem run_readEvents (policy : RetentionPolicy) (source : Export.Source) (requests : List Request)
    (resource : String) :
    (∀ before, before <+: requests → ∀ cursor limit, Resumes policy source before resource cursor limit) ↔
      ∀ before now, before ++ [.maintain now] <+: requests →
        ExpiresInOrder ((empty source).run policy before) now resource := by
  constructor
  · intro h before now hbefore row hrow hresource hexpired earlier hearlier hstream hlt
    by_contra hkept
    have hstored : earlier ∈ ((empty source).run policy (before ++ [.maintain now])).events := by
      rw [run_maintain, mem_maintain]
      exact ⟨hearlier, hkept⟩
    have hcommitted : Committed policy source (before ++ [.maintain now]) row := ⟨before, List.prefix_append _ _, hrow⟩
    have hmissed := (h _ hbefore (cursorAt earlier.rowId) 0).keeps hcommitted hresource hstored hstream hlt
    rw [run_maintain, mem_maintain] at hmissed
    exact hmissed.2 hexpired
  · intro h before hbefore cursor limit
    exact (KeepsEnd.run before fun first now hfirst => h first now (hfirst.trans hbefore)).resumes cursor limit

def sampleEvent (eventId : String) (sequence : Nat) (retainUntil : Int) : EncodedEvent :=
  ⟨eventId, "station", sequence, "", retainUntil⟩

def skipping : List Request :=
  [.write none ⟨.routine, [sampleEvent "a" 1 10, sampleEvent "b" 2 5], [], []⟩, .maintain 5,
    .write none ⟨.routine, [sampleEvent "c" 3 20], [], []⟩]

theorem skipping_readEvents :
    Committed samplePolicy sampleSource skipping ⟨2, "b", "station", 2, "", some 5⟩ ∧
      (readEvents ((empty sampleSource).run samplePolicy skipping) "station" (some "uob:event:1") 10).toOption =
        some ⟨[⟨3, "c", "station", 3, "", some 20⟩], some "uob:event:3", false⟩ := by
  refine ⟨⟨skipping.take 1, List.take_prefix _ _, ?_⟩, ?_⟩
  · decide +kernel
  · decide +kernel

def pruning : List Request :=
  [.write none ⟨.routine, [sampleEvent "a" 1 5, sampleEvent "b" 2 10], [], []⟩, .maintain 5]

theorem pruning_readEvents : Resumes samplePolicy sampleSource pruning "station" "uob:event:1" 10 := by
  refine (run_readEvents samplePolicy sampleSource pruning "station").mpr ?_ pruning List.prefix_rfl "uob:event:1" 10
  rintro before now ⟨rest, hrest⟩
  match before, hrest with
  | [], hrest => cases hrest
  | [first], hrest =>
      cases hrest
      unfold ExpiresInOrder
      decide +kernel
  | first :: second :: before, hrest => simp [pruning] at hrest

end Reading

end OcppBridge.Outbox
