import Mathlib.Data.List.Basic

namespace OcppBridge.Inbound

def frameLimit : Nat := 1024 * 1024

def responseLimit : Nat := 2 * 1024 * 1024

inductive ReadError
  | rejected
  | unexpectedEof
  deriving DecidableEq, Repr

/-- The outcome of one poll of the guard, with the bytes that it puts into the buffer of the caller. -/
inductive Poll
  | pending
  | ready (bytes : List UInt8)
  | failed (error : ReadError)
  deriving DecidableEq, Repr

/-- The guard; `header` holds the bytes of the current frame's header that have been read. -/
structure Guarded where
  header : List UInt8 := []
  headerSent : Nat := 0
  bodyLeft : Nat := 0
  responseBytes : Nat := 0
  ready : Bool := false
  rejected : Bool := false
  deriving DecidableEq, Repr

/-- The length field, `u32::from_be_bytes(header[1..5])`. -/
def frameLength (header : List UInt8) : Nat := ((header.drop 1).take 4).foldl (fun n b => n * 256 + b.toNat) 0

def readyForQuery (header : List UInt8) : Bool := header.head? = some 90 && frameLength header = 5

/-- A frame that does not fit after `responseBytes` bytes since the last `ReadyForQuery`. -/
def Oversized (responseBytes : Nat) (header : List UInt8) : Prop :=
  frameLength header < 4 ∨ frameLimit < frameLength header + 1 ∨
    responseLimit < responseBytes + (frameLength header + 1)

instance (responseBytes : Nat) (header : List UInt8) : Decidable (Oversized responseBytes header) :=
  inferInstanceAs (Decidable (_ ∨ _ ∨ _))

namespace Guarded

def frameComplete (g : Guarded) : Guarded :=
  { g with
    responseBytes := if g.ready then 0 else g.responseBytes
    header := [], headerSent := 0, bodyLeft := 0, ready := false }

def accept (g : Guarded) : Guarded :=
  { g with
    responseBytes := g.responseBytes + (frameLength g.header + 1)
    bodyLeft := frameLength g.header - 4
    ready := readyForQuery g.header }

def sendHeader (g : Guarded) (rest : List UInt8) (room : Nat) : Poll × Guarded × List UInt8 :=
  let n := min room (5 - g.headerSent)
  let sent := { g with headerSent := g.headerSent + n }
  (.ready ((g.header.drop g.headerSent).take n),
    if sent.headerSent = 5 ∧ sent.bodyLeft = 0 then sent.frameComplete else sent, rest)

/-- The rounds of the loop that read a header. -/
def readHeader (g : Guarded) (rest : List UInt8) (room : Nat) : List (Option Nat) → Poll × Guarded × List UInt8
  | some k :: reads =>
      let part := rest.take (min (k + 1) (5 - g.header.length))
      if part = [] then (if g.header = [] then .ready [] else .failed .unexpectedEof, g, rest)
      else
        let read := { g with header := g.header ++ part }
        if read.header.length < 5 then read.readHeader (rest.drop part.length) room reads
        else if Oversized read.responseBytes read.header then
          (.failed .rejected, { read with rejected := true }, rest.drop part.length)
        else read.accept.sendHeader (rest.drop part.length) room
  | _ => (.pending, g, rest)

def readBody (g : Guarded) (rest : List UInt8) (room : Nat) : List (Option Nat) → Poll × Guarded × List UInt8
  | some k :: _ =>
      let part := rest.take (min (k + 1) (min room g.bodyLeft))
      if part = [] then (.failed .unexpectedEof, g, rest)
      else
        let read := { g with bodyLeft := g.bodyLeft - part.length }
        (.ready part, if read.bodyLeft = 0 then read.frameComplete else read, rest.drop part.length)
  | _ => (.pending, g, rest)

/-- `poll_read` with `room` bytes left in the buffer of the caller. -/
def pollRead (g : Guarded) (rest : List UInt8) (room : Nat) (reads : List (Option Nat)) : Poll × Guarded × List UInt8 :=
  if g.rejected then (.failed .rejected, g, rest)
  else if room = 0 then (.ready [], g, rest)
  else if g.header.length < 5 then g.readHeader rest room reads
  else if g.headerSent < 5 then g.sendHeader rest room
  else g.readBody rest room reads

end Guarded

inductive Verdict
  | ended
  | truncated
  | rejected
  deriving DecidableEq, Repr

def ReadError.verdict : ReadError → Verdict
  | .rejected => .rejected
  | .unexpectedEof => .truncated

def admitted (responseBytes : Nat) (stream : List UInt8) : List UInt8 × Verdict :=
  if stream.length < 5 then ([], if stream = [] then .ended else .truncated)
  else if Oversized responseBytes (stream.take 5) then ([], .rejected)
  else
    let size := frameLength (stream.take 5) + 1
    if stream.length < size then (stream, .truncated)
    else
      let later := admitted (if readyForQuery (stream.take 5) then 0 else responseBytes + size) (stream.drop size)
      (stream.take size ++ later.1, later.2)
termination_by stream.length
decreasing_by simp only [List.length_drop]; omega

section Admitted

variable {responseBytes : Nat} {header rest : List UInt8}

theorem admitted_nil : admitted responseBytes [] = ([], .ended) := by
  rw [admitted]
  rfl

theorem admitted_partial (hlen : rest.length < 5) (hne : rest ≠ []) :
    admitted responseBytes rest = ([], .truncated) := by
  rw [admitted, if_pos hlen, if_neg hne]

theorem admitted_oversized (hheader : header.length = 5) (h : Oversized responseBytes header) :
    admitted responseBytes (header ++ rest) = ([], .rejected) := by
  have hlen : ¬(header ++ rest).length < 5 := by simp [hheader]
  rw [admitted, if_neg hlen, List.take_left' hheader, if_pos h]

theorem admitted_header (hheader : header.length = 5) (hfits : ¬Oversized responseBytes header) :
    admitted responseBytes (header ++ rest) =
      if rest.length < frameLength header - 4 then (header ++ rest, .truncated)
      else
        let later := admitted (if readyForQuery header then 0 else responseBytes + (frameLength header + 1))
          (rest.drop (frameLength header - 4))
        (header ++ (rest.take (frameLength header - 4) ++ later.1), later.2) := by
  have hlen : ¬(header ++ rest).length < 5 := by simp [hheader]
  have hfour : 4 ≤ frameLength header := by
    by_contra h
    exact hfits (.inl (by omega))
  have hsize : frameLength header + 1 = header.length + (frameLength header - 4) := by omega
  have hshort : (header ++ rest).length < frameLength header + 1 ↔ rest.length < frameLength header - 4 := by
    rw [List.length_append]
    omega
  have htake : (header ++ rest).take (frameLength header + 1) = header ++ rest.take (frameLength header - 4) := by
    rw [hsize, List.take_length_add_append]
  have hdrop : (header ++ rest).drop (frameLength header + 1) = rest.drop (frameLength header - 4) := by
    rw [hsize, List.drop_length_add_append]
  rw [admitted, if_neg hlen, List.take_left' hheader, if_neg hfits]
  simp only [hshort, htake, hdrop, List.append_assoc]

end Admitted

namespace Guarded

variable {g g' : Guarded} {rest rest' : List UInt8} {room : Nat} {reads : List (Option Nat)}

def body (g : Guarded) (rest : List UInt8) : List UInt8 × Verdict :=
  if rest.length < g.bodyLeft then (rest, .truncated)
  else
    let later := admitted (if g.ready then 0 else g.responseBytes) (rest.drop g.bodyLeft)
    (rest.take g.bodyLeft ++ later.1, later.2)

def inFrame (g : Guarded) (rest : List UInt8) : List UInt8 × Verdict :=
  (g.header.drop g.headerSent ++ (g.body rest).1, (g.body rest).2)

def future (g : Guarded) (rest : List UInt8) : List UInt8 × Verdict :=
  if g.rejected then ([], .rejected)
  else if g.header.length < 5 then admitted g.responseBytes (g.header ++ rest)
  else g.inFrame rest

/-- The states between two polls: a header is read as a whole before any of it is sent. -/
structure Regular (g : Guarded) : Prop where
  header : g.header.length ≤ 5
  unsent : g.header.length < 5 → g.headerSent = 0
  sent : g.headerSent ≤ 5
  unfinished : g.header.length = 5 → g.headerSent = 5 → g.bodyLeft ≠ 0

theorem frameComplete_regular : g.frameComplete.Regular where
  header := Nat.zero_le _
  unsent := fun _ => rfl
  sent := Nat.zero_le _
  unfinished := nofun

section

variable (hrejected : g.rejected = false)

include hrejected

theorem frameComplete_future (hheader : g.header.length ≤ g.headerSent)
    (hbody : g.bodyLeft = 0) : g.frameComplete.future rest = g.inFrame rest := by
  have hdrop : g.header.drop g.headerSent = [] := List.drop_eq_nil_of_le hheader
  simp [future, frameComplete, inFrame, body, hrejected, hbody, hdrop]

theorem future_header (hheader : g.header.length < 5) :
    g.future rest = admitted g.responseBytes (g.header ++ rest) := by
  simp [future, hrejected, hheader]

theorem future_frame (hheader : g.header.length = 5) :
    g.future rest = g.inFrame rest := by
  simp [future, hrejected, hheader]

end

def Tracks (room : Nat) (before : List UInt8 × Verdict) (result : Poll) (after : List UInt8 × Verdict) : Prop :=
  match result with
  | .pending => after = before
  | .ready bytes => before = (bytes ++ after.1, after.2) ∧ (bytes = [] → room = 0 ∨ before = ([], .ended))
  | .failed error => before = ([], error.verdict) ∧ after = before

theorem accept_inFrame (hheader : g.header.length = 5) (hsent : g.headerSent = 0)
    (hfits : ¬Oversized g.responseBytes g.header) :
    g.accept.inFrame rest = admitted g.responseBytes (g.header ++ rest) := by
  rw [admitted_header hheader hfits]
  by_cases hshort : rest.length < frameLength g.header - 4
  · simp [inFrame, body, accept, hsent, hshort]
  · simp only [inFrame, body, accept, hsent, hshort, List.drop_zero, if_false]

/-- The frame ends once all of it has been handed on. -/
theorem frame_tracks {before : List UInt8 × Verdict} {result : Poll} {done : Prop} [Decidable done]
    (hrejected : g.rejected = false) (hheader : g.header.length = 5) (hsent : g.headerSent ≤ 5)
    (hdone : done ↔ g.headerSent = 5 ∧ g.bodyLeft = 0) (htracks : Tracks room before result (g.inFrame rest)) :
    (if done then g.frameComplete else g).Regular ∧
      Tracks room before result ((if done then g.frameComplete else g).future rest) := by
  split_ifs with h
  · obtain ⟨hall, hbody⟩ := hdone.mp h
    rw [frameComplete_future hrejected (by omega) hbody]
    exact ⟨frameComplete_regular, htracks⟩
  · rw [future_frame hrejected hheader]
    exact ⟨⟨by omega, by omega, hsent, fun _ hall hbody => h (hdone.mpr ⟨hall, hbody⟩)⟩, htracks⟩

theorem sendHeader_tracks (hrejected : g.rejected = false) (hheader : g.header.length = 5) (hsent : g.headerSent < 5)
    (hroom : room ≠ 0) :
    (g.sendHeader rest room).2.1.Regular ∧
      Tracks room (g.inFrame rest) (g.sendHeader rest room).1
        ((g.sendHeader rest room).2.1.future (g.sendHeader rest room).2.2) := by
  obtain ⟨n, hn⟩ : ∃ n, n = min room (5 - g.headerSent) := ⟨_, rfl⟩
  have hsome : (g.header.drop g.headerSent).take n ≠ [] := by
    apply List.ne_nil_of_length_pos
    rw [List.length_take, List.length_drop]
    omega
  have hframe : Tracks room (g.inFrame rest) (.ready ((g.header.drop g.headerSent).take n))
      (inFrame { g with headerSent := g.headerSent + n } rest) := by
    refine ⟨?_, fun h => absurd h hsome⟩
    simp only [inFrame]
    rw [← List.append_assoc, ← List.drop_drop, List.take_append_drop]
    rfl
  unfold sendHeader
  rw [← hn]
  exact frame_tracks hrejected hheader (by simp only; omega) Iff.rfl hframe

theorem body_read (g : Guarded) {n : Nat} (hbody : n ≤ g.bodyLeft) (hrest : n ≤ rest.length) :
    g.body rest = (rest.take n ++ (body { g with bodyLeft := g.bodyLeft - n } (rest.drop n)).1,
      (body { g with bodyLeft := g.bodyLeft - n } (rest.drop n)).2) := by
  unfold body
  dsimp only
  rw [List.length_drop, List.drop_drop, show n + (g.bodyLeft - n) = g.bodyLeft by omega]
  have hsame : rest.length - n < g.bodyLeft - n ↔ rest.length < g.bodyLeft := by omega
  have htake : rest.take g.bodyLeft = rest.take n ++ (rest.drop n).take (g.bodyLeft - n) := by
    rw [← List.take_add, show n + (g.bodyLeft - n) = g.bodyLeft by omega]
  by_cases hshort : rest.length < g.bodyLeft
  · rw [if_pos hshort, if_pos (hsame.mpr hshort), List.take_append_drop]
  · rw [if_neg hshort, if_neg fun h => hshort (hsame.mp h), htake, List.append_assoc]

theorem readBody_tracks (hrejected : g.rejected = false) (hheader : g.header.length = 5) (hsent : g.headerSent = 5)
    (hbody : g.bodyLeft ≠ 0) (hroom : room ≠ 0) :
    (g.readBody rest room reads).2.1.Regular ∧
      Tracks room (g.inFrame rest) (g.readBody rest room reads).1
        ((g.readBody rest room reads).2.1.future (g.readBody rest room reads).2.2) := by
  have hregular : g.Regular := ⟨by omega, by omega, by omega, fun _ _ => hbody⟩
  have hnil : g.header.drop g.headerSent = [] := List.drop_eq_nil_of_le (by omega)
  unfold readBody
  split
  · next k _ =>
      obtain ⟨m, hm⟩ : ∃ m, m = min (k + 1) (min room g.bodyLeft) := ⟨_, rfl⟩
      rw [← hm]
      dsimp only
      by_cases hpart : rest.take m = []
      · have hrest : rest = [] := by
          obtain h | h := List.take_eq_nil_iff.mp hpart
          · omega
          · exact h
        have hshort : ([] : List UInt8).length < g.bodyLeft := Nat.pos_of_ne_zero hbody
        rw [if_pos hpart, future_frame hrejected hheader, hrest]
        refine ⟨hregular, ?_, rfl⟩
        rw [inFrame, hnil, body, if_pos hshort]
        rfl
      · rw [if_neg hpart]
        obtain ⟨n, hn⟩ : ∃ n, n = (rest.take m).length := ⟨_, rfl⟩
        have hlen : n ≤ g.bodyLeft := by
          rw [hn, List.length_take]
          omega
        have htake : rest.take n = rest.take m := by rw [hn, List.length_take, ← List.take_eq_take_min]
        have hread := g.body_read hlen (hn ▸ List.length_take_le' m rest)
        have hframe : Tracks room (g.inFrame rest) (.ready (rest.take m))
            (inFrame { g with bodyLeft := g.bodyLeft - n } (rest.drop n)) := by
          refine ⟨?_, fun h => absurd h hpart⟩
          simp only [inFrame, hnil, List.nil_append]
          rw [hread, htake]
        rw [← hn]
        exact frame_tracks hrejected hheader hregular.sent (by simp [hsent]) hframe
  · exact ⟨hregular, (future_frame hrejected hheader).symm ▸ rfl⟩

theorem readHeader_tracks (hrejected : g.rejected = false) (hheader : g.header.length < 5) (hsent : g.headerSent = 0)
    (hroom : room ≠ 0) :
    (g.readHeader rest room reads).2.1.Regular ∧
      Tracks room (g.future rest) (g.readHeader rest room reads).1
        ((g.readHeader rest room reads).2.1.future (g.readHeader rest room reads).2.2) := by
  have hregular : g.Regular := ⟨by omega, fun _ => hsent, by omega, by omega⟩
  induction reads generalizing g rest with
  | nil => exact ⟨hregular, rfl⟩
  | cons read reads ih =>
      cases read with
      | none => exact ⟨hregular, rfl⟩
      | some k =>
          obtain ⟨m, hm⟩ : ∃ m, m = min (k + 1) (5 - g.header.length) := ⟨_, rfl⟩
          have hread := readHeader.eq_1 g rest room k reads
          rw [← hm] at hread
          dsimp only at hread
          by_cases hpart : rest.take m = []
          · have hrest : rest = [] := by
              obtain h | h := List.take_eq_nil_iff.mp hpart
              · omega
              · exact h
            have hfuture : g.future rest = admitted g.responseBytes g.header := by
              rw [future_header hrejected hheader, hrest, List.append_nil]
            rw [if_pos hpart] at hread
            rw [hread]
            refine ⟨hregular, ?_⟩
            by_cases hempty : g.header = []
            · have hended : g.future rest = ([], .ended) := by rw [hfuture, hempty, admitted_nil]
              rw [if_pos hempty]
              exact ⟨rfl, fun _ => .inr hended⟩
            · rw [if_neg hempty]
              exact ⟨by rw [hfuture, admitted_partial hheader hempty]; rfl, rfl⟩
          · rw [if_neg hpart] at hread
            obtain ⟨n, hn⟩ : ∃ n, n = (rest.take m).length := ⟨_, rfl⟩
            have htake : rest.take n = rest.take m := by rw [hn, List.length_take, ← List.take_eq_take_min]
            rw [← hn] at hread
            -- what has been read of the header and what has not make up the same stream
            have hstream : g.header ++ rest = (g.header ++ rest.take m) ++ rest.drop n := by
              rw [List.append_assoc, ← htake, List.take_append_drop]
            have hfuture : g.future rest = admitted g.responseBytes ((g.header ++ rest.take m) ++ rest.drop n) := by
              rw [future_header hrejected hheader, hstream]
            by_cases hmore : (g.header ++ rest.take m).length < 5
            · rw [if_pos hmore] at hread
              have hsame : ({ g with header := g.header ++ rest.take m } : Guarded).future (rest.drop n) =
                  admitted g.responseBytes ((g.header ++ rest.take m) ++ rest.drop n) := future_header hrejected hmore
              rw [hread, hfuture, ← hsame]
              exact ih hrejected hmore hsent
                ⟨by simp only; omega, fun _ => hsent, by simp only; omega, by simp only; omega⟩
            · have hfull : (g.header ++ rest.take m).length = 5 := by
                rw [List.length_append, List.length_take] at hmore ⊢
                omega
              rw [if_neg hmore] at hread
              rw [hread, hfuture]
              by_cases hover : Oversized g.responseBytes (g.header ++ rest.take m)
              · rw [if_pos hover, admitted_oversized hfull hover]
                exact ⟨⟨Nat.le_of_eq hfull, fun _ => hsent, by simp only; omega, by simp only; omega⟩, rfl, rfl⟩
              · have hinFrame : (accept { g with header := g.header ++ rest.take m }).inFrame (rest.drop n) =
                    admitted g.responseBytes ((g.header ++ rest.take m) ++ rest.drop n) :=
                  accept_inFrame hfull hsent hover
                rw [if_neg hover, ← hinFrame]
                exact sendHeader_tracks hrejected hfull (by simp only [accept]; omega) hroom

theorem pollRead_tracks (hg : g.Regular) (rest : List UInt8) (room : Nat) (reads : List (Option Nat)) :
    (g.pollRead rest room reads).2.1.Regular ∧
      Tracks room (g.future rest) (g.pollRead rest room reads).1
        ((g.pollRead rest room reads).2.1.future (g.pollRead rest room reads).2.2) := by
  unfold pollRead
  by_cases hrejected : g.rejected = true
  · rw [if_pos hrejected]
    exact ⟨hg, by simp [future, hrejected, ReadError.verdict], rfl⟩
  · rw [if_neg hrejected]
    rw [Bool.not_eq_true] at hrejected
    by_cases hroom : room = 0
    · rw [if_pos hroom]
      exact ⟨hg, rfl, fun _ => .inl hroom⟩
    · rw [if_neg hroom]
      by_cases hheader : g.header.length < 5
      · rw [if_pos hheader]
        exact readHeader_tracks hrejected hheader (hg.unsent hheader) hroom
      · have hfull : g.header.length = 5 := Nat.le_antisymm hg.header (Nat.le_of_not_lt hheader)
        rw [if_neg hheader, future_frame hrejected hfull]
        by_cases hsent : g.headerSent < 5
        · rw [if_pos hsent]
          exact sendHeader_tracks hrejected hfull hsent hroom
        · have hall : g.headerSent = 5 := Nat.le_antisymm hg.sent (Nat.le_of_not_lt hsent)
          rw [if_neg hsent]
          exact readBody_tracks hrejected hfull hall (hg.unfinished hfull hall) hroom

theorem readHeader_not_pending (hreads : ∀ read ∈ reads, read.isSome) (hheader : g.header.length < 5)
    (hlen : 5 ≤ g.header.length + reads.length) : (g.readHeader rest room reads).1 ≠ .pending := by
  induction reads generalizing g rest with
  | nil =>
      rw [List.length_nil] at hlen
      omega
  | cons read reads ih =>
      obtain ⟨hread, hlater⟩ := List.forall_mem_cons.mp hreads
      obtain ⟨k, rfl⟩ := Option.isSome_iff_exists.mp hread
      rw [readHeader]
      dsimp only
      split_ifs with hpart hempty hmore hover
      · nofun
      · nofun
      · -- a read that is not at the end gives at least one byte of the header
        apply ih hlater hmore
        have hpos := List.length_pos_iff.mpr hpart
        rw [List.length_append]
        rw [List.length_cons] at hlen
        omega
      · nofun
      · nofun

theorem pollRead_not_pending (g : Guarded) (rest : List UInt8) (hroom : room ≠ 0) (hreads : ∀ read ∈ reads, read.isSome)
    (hlen : 5 ≤ reads.length) : (g.pollRead rest room reads).1 ≠ .pending := by
  unfold pollRead
  split_ifs with hrejected hheader hsent
  · nofun
  · exact readHeader_not_pending hreads hheader (by omega)
  · nofun
  · cases reads with
    | nil => simp at hlen
    | cons read reads =>
        obtain ⟨k, rfl⟩ := Option.isSome_iff_exists.mp (hreads read List.mem_cons_self)
        rw [readBody]
        dsimp only
        split_ifs <;> nofun

theorem readHeader_rejected (h : (g.readHeader rest room reads).1 = .failed .rejected) :
    (g.readHeader rest room reads).2.1.rejected = true := by
  induction reads generalizing g rest with
  | nil => cases h
  | cons read reads ih =>
      cases read with
      | none => cases h
      | some k =>
          rw [readHeader] at h ⊢
          dsimp only at h ⊢
          split_ifs at h ⊢ with hpart hempty hmore hover
          · cases h
          · exact ih h
          · rfl
          · cases h

theorem pollRead_of_rejected (h : g.rejected = true) : g.pollRead rest room reads = (.failed .rejected, g, rest) :=
  if_pos h

theorem pollRead_rejected (h : (g.pollRead rest room reads).1 = .failed .rejected) :
    (g.pollRead rest room reads).2.1.rejected = true := by
  unfold pollRead at h ⊢
  split_ifs at h ⊢ with hrejected hroom hheader hsent
  · exact hrejected
  · exact readHeader_rejected h
  · cases h
  · cases reads with
    | nil => cases h
    | cons read reads =>
        cases read with
        | none => cases h
        | some k =>
            rw [readBody] at h
            dsimp only at h
            split_ifs at h
            cases h

end Guarded

end OcppBridge.Inbound
