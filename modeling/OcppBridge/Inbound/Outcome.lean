import Mathlib.Data.List.Flatten
import OcppBridge.Inbound.Guard
import OcppBridge.Transition

namespace OcppBridge.Inbound

section Frames

structure Frame where
  header : List UInt8
  body : List UInt8
  header_length : header.length = 5
  body_length : body.length + 4 = frameLength header

namespace Frame

def bytes (f : Frame) : List UInt8 := f.header ++ f.body

def size (f : Frame) : Nat := f.bytes.length

def readyForQuery (f : Frame) : Bool := Inbound.readyForQuery f.header

theorem size_eq (f : Frame) : f.size = frameLength f.header + 1 := by
  have h := f.body_length
  rw [size, bytes, List.length_append, f.header_length]
  omega

end Frame

variable {r : Nat} {f : Frame} {fs : List Frame} {rest : List UInt8}

def encode (fs : List Frame) : List UInt8 := fs.flatMap Frame.bytes

@[simp] theorem encode_nil : encode [] = [] := rfl

@[simp] theorem encode_cons : encode (f :: fs) = f.bytes ++ encode fs := rfl

theorem length_encode_cons : (encode (f :: fs)).length = f.size + (encode fs).length := by
  rw [encode_cons, List.length_append, Frame.size]

/-- Every frame is within its limit, and so are the bytes from one `ReadyForQuery` to the next. -/
structure Conforming (fs : List Frame) : Prop where
  frame : ∀ f ∈ fs, f.size ≤ frameLimit
  response : ∀ before segment after, fs = before ++ segment ++ after →
    (∀ f ∈ segment.dropLast, f.readyForQuery = false) → (encode segment).length ≤ responseLimit

/-- The bytes since the last `ReadyForQuery`, after `r` bytes before the frames. -/
def sinceReady (r : Nat) (fs : List Frame) : Nat := fs.foldl (fun r f => if f.readyForQuery then 0 else r + f.size) r

theorem sinceReady_cons (h : f.readyForQuery = false) : sinceReady r (f :: fs) = sinceReady (r + f.size) fs := by
  rw [sinceReady, List.foldl_cons, if_neg (by simp [h])]
  rfl

def Fits (r : Nat) : List Frame → Prop
  | [] => True
  | f :: fs => ¬Oversized r f.header ∧ Fits (if f.readyForQuery then 0 else r + f.size) fs

theorem not_oversized_iff : ¬Oversized r f.header ↔ f.size ≤ frameLimit ∧ r + f.size ≤ responseLimit := by
  have h := f.body_length
  rw [Oversized, f.size_eq]
  omega

theorem fits_iff : Fits r fs ↔ (∀ f ∈ fs, f.size ≤ frameLimit) ∧
    (∀ segment after, fs = segment ++ after → (∀ f ∈ segment.dropLast, f.readyForQuery = false) → segment ≠ [] →
      r + (encode segment).length ≤ responseLimit) ∧
    (∀ before segment after, fs = before ++ segment ++ after → (∀ f ∈ segment.dropLast, f.readyForQuery = false) →
      (encode segment).length ≤ responseLimit) := by
  induction fs generalizing r with
  | nil =>
      simp only [Fits, true_iff]
      refine ⟨nofun, ?_, ?_⟩
      · intro segment after h _ hne
        exact absurd (List.append_eq_nil_iff.mp h.symm).1 hne
      · intro before segment after h _
        have hnil : segment = [] := (List.append_eq_nil_iff.mp (List.append_eq_nil_iff.mp h.symm).1).2
        simp [hnil]
  | cons f fs ih =>
      rw [Fits, not_oversized_iff, ih]
      constructor
      · rintro ⟨⟨hsize, hfirst⟩, hframe, hfront, hsegment⟩
        have hstart : ∀ segment after, f :: fs = segment ++ after → (∀ f ∈ segment.dropLast, f.readyForQuery = false) →
            segment ≠ [] → r + (encode segment).length ≤ responseLimit := by
          intro segment after h hready hne
          cases segment with
          | nil => exact absurd rfl hne
          | cons g segment =>
              obtain ⟨rfl, htail⟩ := List.cons.inj h
              cases segment with
              | nil => rwa [length_encode_cons]
              | cons g segment =>
                  -- the first frame is not the last, so it does not begin a new response
                  rw [List.dropLast_cons_cons, List.forall_mem_cons] at hready
                  have := hfront (g :: segment) after htail hready.2 (List.cons_ne_nil _ _)
                  rw [hready.1, if_neg Bool.false_ne_true] at this
                  rw [length_encode_cons]
                  omega
        refine ⟨List.forall_mem_cons.mpr ⟨hsize, hframe⟩, hstart, ?_⟩
        intro before segment after h hready
        cases before with
        | nil =>
            by_cases hne : segment = []
            · simp [hne]
            · have := hstart segment after h hready hne
              omega
        | cons g before => exact hsegment before segment after (List.cons.inj h).2 hready
      · rintro ⟨hframe, hfront, hsegment⟩
        obtain ⟨hsize, hframe⟩ := List.forall_mem_cons.mp hframe
        have hfirst := hfront [f] fs rfl nofun (List.cons_ne_nil _ _)
        rw [length_encode_cons] at hfirst
        refine ⟨⟨hsize, hfirst⟩, hframe, ?_, ?_⟩
        · intro segment after h hready hne
          by_cases hf : f.readyForQuery
          · have := hsegment [f] segment after (by rw [h]; rfl) hready
            rw [if_pos hf]
            omega
          · have := hfront (f :: segment) after (by rw [h]; rfl)
              (by
                rw [List.dropLast_cons_of_ne_nil hne, List.forall_mem_cons]
                exact ⟨by simpa using hf, hready⟩)
              (List.cons_ne_nil _ _)
            rw [length_encode_cons] at this
            rw [if_neg hf]
            omega
        · intro before segment after h hready
          exact hsegment (f :: before) segment after (by rw [h]; rfl) hready

theorem conforming_iff : Conforming fs ↔ Fits 0 fs := by
  rw [fits_iff]
  constructor
  · intro h
    refine ⟨h.frame, ?_, h.response⟩
    intro segment after hfs hready _
    rw [Nat.zero_add]
    exact h.response [] segment after hfs hready
  · rintro ⟨hframe, _, hresponse⟩
    exact ⟨hframe, hresponse⟩

theorem admitted_bytes (h : ¬Oversized r f.header) :
    admitted r (f.bytes ++ rest) =
      (f.bytes ++ (admitted (if f.readyForQuery then 0 else r + f.size) rest).1,
        (admitted (if f.readyForQuery then 0 else r + f.size) rest).2) := by
  have hbody : frameLength f.header - 4 = f.body.length := by
    have := f.body_length
    omega
  rw [Frame.bytes, List.append_assoc, admitted_header f.header_length h, hbody, if_neg (by simp)]
  simp only [List.take_left, List.drop_left, Frame.readyForQuery, f.size_eq, List.append_assoc]

theorem admitted_encode (h : Fits r fs) :
    admitted r (encode fs ++ rest) =
      (encode fs ++ (admitted (sinceReady r fs) rest).1, (admitted (sinceReady r fs) rest).2) := by
  induction fs generalizing r with
  | nil => rfl
  | cons f fs ih =>
      rw [encode_cons, List.append_assoc, admitted_bytes h.1, ih h.2]
      simp only [List.append_assoc]
      rfl

end Frames

section Shapes

variable {stream visible : List UInt8} {v : Verdict}

/-- What a stream consists of, how much of it the driver gets to see and how it ends. -/
inductive Shape : List UInt8 → List UInt8 → Verdict → Prop
  /-- complete frames, all of them within the limits -/
  | whole (fs : List Frame) (h : Conforming fs) : Shape (encode fs) (encode fs) .ended
  /-- a first frame that is not within the limits -/
  | offending (fs : List Frame) (h : Conforming fs) (header rest : List UInt8) (hheader : header.length = 5)
      (hover : Oversized (sinceReady 0 fs) header) : Shape (encode fs ++ (header ++ rest)) (encode fs) .rejected
  | inHeader (fs : List Frame) (h : Conforming fs) (part : List UInt8) (hne : part ≠ []) (hpart : part.length < 5) :
      Shape (encode fs ++ part) (encode fs) .truncated
  | inBody (fs : List Frame) (h : Conforming fs) (header part : List UInt8) (hheader : header.length = 5)
      (hfits : ¬Oversized (sinceReady 0 fs) header) (hpart : part.length < frameLength header - 4) :
      Shape (encode fs ++ (header ++ part)) (encode fs ++ (header ++ part)) .truncated

theorem Shape.admitted_eq (h : Shape stream visible v) : admitted 0 stream = (visible, v) := by
  cases h with
  | whole fs h =>
      have hall : admitted 0 (encode fs ++ []) = _ := admitted_encode (conforming_iff.mp h)
      rwa [List.append_nil, admitted_nil, List.append_nil] at hall
  | offending fs h header rest hheader hover =>
      rw [admitted_encode (conforming_iff.mp h), admitted_oversized hheader hover, List.append_nil]
  | inHeader fs h part hne hpart =>
      rw [admitted_encode (conforming_iff.mp h), admitted_partial hpart hne, List.append_nil]
  | inBody fs h header part hheader hfits hpart =>
      rw [admitted_encode (conforming_iff.mp h), admitted_header hheader hfits, if_pos hpart]

theorem Shape.visible_prefix (h : Shape stream visible v) : visible <+: stream := by
  cases h with
  | whole | inBody => exact List.prefix_rfl
  | offending | inHeader => exact List.prefix_append _ _

theorem fits_append {r : Nat} {fs : List Frame} {f : Frame} (h : Fits r fs)
    (hf : ¬Oversized (sinceReady r fs) f.header) : Fits r (fs ++ [f]) := by
  induction fs generalizing r with
  | nil => exact ⟨hf, trivial⟩
  | cons g fs ih => exact ⟨h.1, ih h.2 hf⟩

theorem encode_append {fs gs : List Frame} : encode (fs ++ gs) = encode fs ++ encode gs := List.flatMap_append

theorem exists_shape_after (n : Nat) (fs : List Frame) (h : Conforming fs) (rest : List UInt8) (hn : rest.length ≤ n) :
    ∃ visible v, Shape (encode fs ++ rest) visible v := by
  induction n generalizing fs rest with
  | zero =>
      obtain rfl := List.length_eq_zero_iff.mp (Nat.le_zero.mp hn)
      exact ⟨_, _, by rw [List.append_nil]; exact .whole fs h⟩
  | succ n ih =>
      by_cases hne : rest = []
      · subst hne
        exact ⟨_, _, by rw [List.append_nil]; exact .whole fs h⟩
      · by_cases hshort : rest.length < 5
        · exact ⟨_, _, .inHeader fs h rest hne hshort⟩
        · have hheader : (rest.take 5).length = 5 := by
            rw [List.length_take]
            omega
          have hsplit := List.take_append_drop 5 rest
          by_cases hover : Oversized (sinceReady 0 fs) (rest.take 5)
          · have hshape := Shape.offending fs h (rest.take 5) (rest.drop 5) hheader hover
            rw [hsplit] at hshape
            exact ⟨_, _, hshape⟩
          · by_cases hpart : (rest.drop 5).length < frameLength (rest.take 5) - 4
            · have hshape := Shape.inBody fs h (rest.take 5) (rest.drop 5) hheader hover hpart
              rw [hsplit] at hshape
              exact ⟨_, _, hshape⟩
            · have hfour : 4 ≤ frameLength (rest.take 5) := by
                by_contra h4
                exact hover (.inl (by omega))
              let f : Frame :=
                { header := rest.take 5
                  body := (rest.drop 5).take (frameLength (rest.take 5) - 4)
                  header_length := hheader
                  body_length := by
                    rw [List.length_take]
                    omega }
              have hconforming : Conforming (fs ++ [f]) := conforming_iff.mpr (fits_append (conforming_iff.mp h) hover)
              have hstream : encode fs ++ rest =
                  encode (fs ++ [f]) ++ (rest.drop 5).drop (frameLength (rest.take 5) - 4) := by
                rw [encode_append, List.append_assoc, encode_cons, encode_nil, List.append_nil, Frame.bytes,
                  List.append_assoc, List.take_append_drop, hsplit]
              rw [hstream]
              apply ih _ hconforming
              rw [List.length_drop, List.length_drop]
              omega

theorem exists_shape (stream : List UInt8) : ∃ visible v, Shape stream visible v :=
  exists_shape_after stream.length [] (conforming_iff.mpr trivial) stream (Nat.le_refl _)

end Shapes

section Runs

/-- A read of the driver: the room in its buffer, and what the stream answers to the guard's own reads. -/
structure Request where
  room : Nat
  reads : List (Option Nat)

def Request.live (q : Request) : Bool := 0 < q.room && 5 ≤ q.reads.length && q.reads.all (·.isSome)

def Poll.bytes : Poll → List UInt8
  | .ready bytes => bytes
  | _ => []

/-- The end that a poll with `room` bytes in the buffer reports. -/
def Poll.ending (room : Nat) : Poll → Option Verdict
  | .failed error => some error.verdict
  | .ready bytes => if bytes = [] ∧ room ≠ 0 then some .ended else none
  | .pending => none

structure Connection where
  guard : Guarded := {}
  rest : List UInt8
  handed : List UInt8 := []
  results : List (Nat × Poll) := []

namespace Connection

def read (c : Connection) (q : Request) : Connection :=
  let (result, guard, rest) := c.guard.pollRead c.rest q.room q.reads
  ⟨guard, rest, c.handed ++ result.bytes, c.results ++ [(q.room, result)]⟩

def run (stream : List UInt8) (qs : List Request) : Connection := qs.foldl read { rest := stream }

def Reports (c : Connection) (v : Verdict) : Prop := ∃ x ∈ c.results, x.2.ending x.1 = some v

variable {c : Connection} {q : Request} {stream visible : List UInt8} {v : Verdict}

/-- What has been handed over and what is still to come is what may be handed over. -/
structure Tracked (stream : List UInt8) (c : Connection) : Prop where
  regular : c.guard.Regular
  future : admitted 0 stream = (c.handed ++ (c.guard.future c.rest).1, (c.guard.future c.rest).2)
  ended : ∀ x ∈ c.results, ∀ v, x.2.ending x.1 = some v → c.guard.future c.rest = ([], v)

theorem Tracked.read (h : Tracked stream c) (q : Request) : Tracked stream (c.read q) := by
  obtain ⟨hregular, htracks⟩ := Guarded.pollRead_tracks h.regular c.rest q.room q.reads
  have hfuture := h.future
  have hended := h.ended
  unfold Connection.read
  generalize c.guard.pollRead c.rest q.room q.reads = next at hregular htracks
  generalize c.guard.future c.rest = before at hfuture hended htracks
  obtain ⟨result, guard, rest⟩ := next
  refine ⟨hregular, ?_, ?_⟩
  · cases result with
    | pending =>
        obtain rfl : guard.future rest = before := htracks
        simpa [Poll.bytes] using hfuture
    | ready bytes =>
        obtain ⟨rfl, _⟩ := htracks
        simpa [Poll.bytes] using hfuture
    | failed error =>
        obtain ⟨_, rfl⟩ : _ ∧ guard.future rest = before := htracks
        simpa [Poll.bytes] using hfuture
  · -- once the end is reported there is nothing to come, so a later poll finds the same end
    have hkeep : ∀ v, before = ([], v) → guard.future rest = ([], v) := by
      rintro v rfl
      cases result with
      | pending => exact htracks
      | ready bytes =>
          obtain ⟨heq, _⟩ := htracks
          obtain ⟨hnil, hv⟩ := Prod.mk.inj heq
          exact Prod.ext (List.append_eq_nil_iff.mp hnil.symm).2 hv.symm
      | failed error => exact htracks.2
    intro x hx v hv
    apply hkeep
    obtain hx | hx := List.mem_append.mp hx
    · exact hended x hx v hv
    · obtain rfl := List.mem_singleton.mp hx
      cases result with
      | pending => cases hv
      | ready bytes =>
          simp only [Poll.ending, Option.ite_none_right_eq_some, Option.some.injEq] at hv
          obtain ⟨⟨hnil, hroom⟩, rfl⟩ := hv
          exact (htracks.2 hnil).resolve_left hroom
      | failed error =>
          cases hv
          exact htracks.1

theorem run_tracked (stream : List UInt8) (qs : List Request) : Tracked stream (run stream qs) := by
  apply Transition.run_invariant (P := Tracked stream) (fun c q h => h.read q)
  have hstart : ({} : Guarded).future stream = admitted 0 stream := Guarded.future_header rfl (by decide)
  exact ⟨⟨Nat.zero_le _, fun _ => rfl, Nat.zero_le _, nofun⟩, hstart.symm, nofun⟩

theorem Tracked.reports (h : Tracked stream c) (hreports : c.Reports v) : admitted 0 stream = (c.handed, v) := by
  obtain ⟨x, hx, hv⟩ := hreports
  have hfuture := h.future
  rwa [h.ended x hx v hv, List.append_nil] at hfuture

theorem Tracked.handed_start (h : Tracked stream c) : c.handed <+: (admitted 0 stream).1 := by
  rw [h.future]
  exact List.prefix_append _ _

theorem Tracked.progress (hlive : q.live) (hend : ∀ v, ¬(c.read q).Reports v) :
    c.handed.length + 1 ≤ (c.read q).handed.length := by
  simp only [Request.live, Bool.and_eq_true, decide_eq_true_eq, List.all_eq_true] at hlive
  obtain ⟨⟨hroom, hlen⟩, hreads⟩ := hlive
  have hpending := c.guard.pollRead_not_pending c.rest (Nat.ne_of_gt hroom) hreads hlen
  unfold Connection.read at hend ⊢
  generalize c.guard.pollRead c.rest q.room q.reads = next at hpending hend
  obtain ⟨result, guard, rest⟩ := next
  have hnone : ∀ v, result.ending q.room ≠ some v := by
    intro v hv
    exact hend v ⟨_, List.mem_append_right _ (List.mem_singleton_self _), hv⟩
  cases result with
  | pending => exact absurd rfl hpending
  | failed error => exact absurd rfl (hnone _)
  | ready bytes =>
      have hne : bytes ≠ [] := by
        intro hnil
        exact hnone .ended (by simp [Poll.ending, hnil, Nat.ne_of_gt hroom])
      have := List.length_pos_iff.mpr hne
      simp only [Poll.bytes, List.length_append]
      omega

theorem results_start (c : Connection) (qs : List Request) : c.results <+: (qs.foldl read c).results := by
  induction qs generalizing c with
  | nil => exact List.prefix_rfl
  | cons q qs ih => exact (List.prefix_append _ _).trans (ih (c.read q))

theorem foldl_progress (c : Connection) (qs : List Request) (hend : ∀ v, ¬(qs.foldl read c).Reports v) :
    c.handed.length + qs.countP Request.live ≤ (qs.foldl read c).handed.length := by
  induction qs generalizing c with
  | nil => exact Nat.le_refl _
  | cons q qs ih =>
      have hrest := ih (c.read q) hend
      rw [List.countP_cons]
      by_cases hlive : q.live
      · have hstep : c.handed.length + 1 ≤ (c.read q).handed.length := by
          apply Tracked.progress hlive
          rintro v ⟨x, hx, hv⟩
          exact hend v ⟨x, (results_start (c.read q) qs).subset hx, hv⟩
        rw [if_pos hlive]
        exact Nat.le_trans (by omega) hrest
      · have hstep := (List.prefix_append c.handed (c.guard.pollRead c.rest q.room q.reads).1.bytes).length_le
        rw [if_neg hlive]
        exact Nat.le_trans (Nat.add_le_add_right hstep _) hrest

structure Latched (c : Connection) : Prop where
  guard : (∃ x ∈ c.results, x.2 = .failed .rejected) → c.guard.rejected = true
  later : c.results.Pairwise fun a b => a.2 = .failed .rejected → b.2 = .failed .rejected

theorem read_results : (c.read q).results =
    c.results ++ [(q.room, (c.guard.pollRead c.rest q.room q.reads).1)] := rfl

theorem Latched.read (h : c.Latched) (q : Request) : (c.read q).Latched where
  guard := by
    rintro ⟨x, hx, hrejected⟩
    obtain hx | hx := List.mem_append.mp hx
    · have hguard := h.guard ⟨x, hx, hrejected⟩
      rw [Connection.read, Guarded.pollRead_of_rejected hguard]
      exact hguard
    · rw [List.mem_singleton.mp hx] at hrejected
      exact Guarded.pollRead_rejected hrejected
  later := by
    rw [read_results]
    refine List.pairwise_append.mpr ⟨h.later, List.pairwise_singleton _ _, ?_⟩
    intro a ha b hb hrejected
    rw [List.mem_singleton.mp hb, Guarded.pollRead_of_rejected (h.guard ⟨a, ha, hrejected⟩)]

theorem run_latched (stream : List UInt8) (qs : List Request) : (run stream qs).Latched :=
  Transition.run_invariant (P := Latched) (fun _ q h => h.read q) qs ⟨nofun, .nil⟩

section Outcome

variable (h : Shape stream visible v) (qs : List Request)

include h

theorem shape_handed : (run stream qs).handed <+: visible := by
  have hfront := (run_tracked stream qs).handed_start
  rwa [h.admitted_eq] at hfront

theorem shape_reported {v' : Verdict} (hreports : (run stream qs).Reports v') :
    v' = v ∧ (run stream qs).handed = visible := by
  have heq := (run_tracked stream qs).reports hreports
  rw [h.admitted_eq] at heq
  obtain ⟨hhanded, hv⟩ := Prod.mk.inj heq
  exact ⟨hv.symm, hhanded.symm⟩

theorem shape_reached (hlive : stream.length < qs.countP Request.live) : (run stream qs).Reports v := by
  by_contra hnone
  have hcount := foldl_progress { rest := stream } qs (fun v' hv' => hnone ((shape_reported h qs hv').1 ▸ hv'))
  have hlen := ((shape_handed h qs).trans h.visible_prefix).length_le
  simp only [List.length_nil, Nat.zero_add] at hcount
  exact absurd (Nat.le_trans hcount hlen) (Nat.not_le_of_lt hlive)

end Outcome

/-- What the driver gets depends on the stream alone: the frames before the first one that is not within the limits, and
no successful read after that. -/
theorem run_outcome (stream : List UInt8) (qs : List Request) :
    (run stream qs).handed <+: stream ∧
    (∃ visible v, Shape stream visible v) ∧
    (∀ visible v, Shape stream visible v → (run stream qs).handed <+: visible ∧
      (∀ v', (run stream qs).Reports v' → v' = v ∧ (run stream qs).handed = visible) ∧
      (stream.length < qs.countP Request.live → (run stream qs).Reports v)) ∧
    ((run stream qs).results.Pairwise fun a b => a.2 = .failed .rejected → b.2 = .failed .rejected) ∧
    ∀ qs' v v', (run stream qs).Reports v → (run stream qs').Reports v' →
      v = v' ∧ (run stream qs).handed = (run stream qs').handed := by
  have hshape := exists_shape stream
  refine ⟨?_, hshape, ?_, (run_latched stream qs).later, ?_⟩
  · obtain ⟨visible, v, h⟩ := hshape
    exact (shape_handed h qs).trans h.visible_prefix
  · intro visible v h
    exact ⟨shape_handed h qs, fun _ hv' => shape_reported h qs hv', shape_reached h qs⟩
  · intro qs' v v' hv hv'
    obtain ⟨visible, w, h⟩ := hshape
    obtain ⟨rfl, hhanded⟩ := shape_reported h qs hv
    obtain ⟨rfl, hhanded'⟩ := shape_reported h qs' hv'
    exact ⟨rfl, hhanded.trans hhanded'.symm⟩

def largeFrame : Frame where
  header := [68, 0, 15, 255, 255]
  body := List.replicate 1048571 0
  header_length := rfl
  body_length := by rw [List.length_replicate]; rfl

def readyFrame : Frame where
  header := [90, 0, 0, 0, 5]
  body := [73]
  header_length := rfl
  body_length := rfl

theorem largeFrame_size : largeFrame.size = 1048576 := by
  rw [Frame.size_eq]
  rfl

theorem conforming_largeFrames : Conforming [largeFrame, largeFrame] := by
  rw [conforming_iff]
  simp only [Fits, not_oversized_iff, largeFrame_size]
  decide

theorem length_encode_of_not_ready {segment : List Frame} (h : segment.Sublist [largeFrame, largeFrame, readyFrame])
    (hready : ∀ f ∈ segment, f.readyForQuery = false) : (encode segment).length ≤ responseLimit := by
  have hfilter : segment.filter (!·.readyForQuery) = segment := by
    apply List.filter_eq_self.mpr
    intro f hf
    simp [hready f hf]
  have hlarge : segment.Sublist [largeFrame, largeFrame] := hfilter ▸ h.filter (!·.readyForQuery)
  have hlen : (encode segment).length ≤ (encode [largeFrame, largeFrame]).length := by
    simpa [encode] using (hlarge.flatMap Frame.bytes).length_le
  rw [length_encode_cons, length_encode_cons, largeFrame_size] at hlen
  exact hlen

theorem sinceReady_largeFrames : sinceReady 0 [largeFrame, largeFrame] = 2097152 := by
  have hready : largeFrame.readyForQuery = false := rfl
  rw [sinceReady_cons hready, sinceReady_cons hready, largeFrame_size]
  rfl

theorem shape_closing_frame :
    Shape (encode [largeFrame, largeFrame, readyFrame]) (encode [largeFrame, largeFrame]) .rejected := by
  have hover : Oversized (sinceReady 0 [largeFrame, largeFrame]) readyFrame.header := by
    rw [sinceReady_largeFrames]
    decide
  have hstream : encode [largeFrame, largeFrame, readyFrame] =
      encode [largeFrame, largeFrame] ++ (readyFrame.header ++ readyFrame.body) := by
    simp only [encode_cons, encode_nil, List.append_assoc, List.append_nil, Frame.bytes]
  rw [hstream]
  exact .offending _ conforming_largeFrames _ _ readyFrame.header_length hover

theorem encode_closing_ne : encode [largeFrame, largeFrame] ≠ encode [largeFrame, largeFrame, readyFrame] := by
  intro heq
  have hlen := congrArg List.length heq
  rw [length_encode_cons, length_encode_cons, length_encode_cons, length_encode_cons, length_encode_cons,
    show readyFrame.size = 6 from rfl] at hlen
  omega

/-- The closing `ReadyForQuery` counts for the response that it closes: after exactly two mebibytes it is refused. -/
theorem closing_frame_refused :
    (∀ f ∈ [largeFrame, largeFrame, readyFrame], f.size ≤ frameLimit) ∧
    (∀ before segment after, [largeFrame, largeFrame, readyFrame] = before ++ segment ++ after →
      (∀ f ∈ segment, f.readyForQuery = false) → (encode segment).length ≤ responseLimit) ∧
    ∀ qs, (encode [largeFrame, largeFrame, readyFrame]).length < qs.countP Request.live →
      (run (encode [largeFrame, largeFrame, readyFrame]) qs).Reports .rejected ∧
      (run (encode [largeFrame, largeFrame, readyFrame]) qs).handed ≠ encode [largeFrame, largeFrame, readyFrame] := by
  refine ⟨?_, ?_, ?_⟩
  · simp only [List.forall_mem_cons, largeFrame_size]
    decide
  · intro before segment after h hready
    apply length_encode_of_not_ready _ hready
    rw [h]
    exact (List.sublist_append_right _ _).trans (List.sublist_append_left _ _)
  · intro qs hlive
    have hreports := shape_reached shape_closing_frame qs hlive
    refine ⟨hreports, ?_⟩
    rw [(shape_reported shape_closing_frame qs hreports).2]
    exact encode_closing_ne

end Connection

end Runs

end OcppBridge.Inbound
