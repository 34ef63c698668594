import Mathlib.Data.List.Infix
import OcppBridge.Call.Serde
import OcppBridge.Text

namespace OcppBridge.EventStream

open Call (Json Serde)

def utf8 (cs : List Char) : List UInt8 := cs.flatMap String.utf8EncodeChar

def ascii (s : String) : List UInt8 := utf8 s.toList

/-- `serde_json::to_vec`. -/
def toVec (serde : Serde) (v : Json) : List UInt8 := utf8 (serde.print v)

/-- `serde_json::from_slice`. -/
def fromSlice (serde : Serde) (bytes : List UInt8) : Option Json := do
  let text ← String.fromUTF8? bytes.toByteArray
  serde.parse text.toList

inductive EventStreamError
  | credentialUnavailable
  | invalidCredential
  | clientSetup
  | connection
  | rejected
  | invalidContentType
  | eventTooLarge
  | invalidEvent
  | credentialReflected
  | output
  deriving DecidableEq, Repr

def maxCredentialBytes : Nat := 8 * 1024

def maxPendingLineBytes : Nat := 64 * 1024

def maxEventBytes : Nat := 256 * 1024

/-- The credential in a file, `none` if the file cannot be read. -/
def readCredential (file : Option (List UInt8)) : Except EventStreamError (List Char) :=
  match file with
  | none => .error .credentialUnavailable
  | some bytes =>
      if maxCredentialBytes < bytes.length then .error .invalidCredential
      else match String.fromUTF8? bytes.toByteArray with
        | none => .error .invalidCredential
        | some text =>
            let value := Text.trim text.toList
            if value = [] ∨ '\r' ∈ value ∨ '\n' ∈ value then .error .invalidCredential else .ok value

def contains (haystack needle : List UInt8) : Bool := needle ≠ [] && needle <:+: haystack

/-- The decoder of the server-sent events, with what it has written downstream. -/
structure SseDecoder where
  pending : List UInt8 := []
  data : List UInt8 := []
  written : List UInt8 := []

open SseDecoder

/-- What a stream is decoded with. A write is accepted or fails by what it makes of the output. -/
structure Setting where
  serde : Serde
  credential : Option (List Char)
  accepts : List UInt8 → Bool

namespace SseDecoder

abbrev Outcome := SseDecoder × Option EventStreamError

/-- The `?` of the source. -/
def andThen : Outcome → (SseDecoder → Outcome) → Outcome
  | (d, none), next => next d
  | (d, some error), _ => (d, some error)

def reflected (setting : Setting) (encoded : List UInt8) : Bool :=
  setting.credential.any fun secret => contains encoded (utf8 secret)

def dispatch (setting : Setting) (d : SseDecoder) : Outcome :=
  if d.data = [] then (d, none)
  else match fromSlice setting.serde d.data with
    | none => (d, some .invalidEvent)
    | some value =>
        let encoded := toVec setting.serde value
        if reflected setting encoded then (d, some .credentialReflected)
        else if setting.accepts (d.written ++ (encoded ++ [10])) then
          ({ d with written := d.written ++ (encoded ++ [10]), data := [] }, none)
        else (d, some .output)

def line (setting : Setting) (d : SseDecoder) (text : List UInt8) : Outcome :=
  if text = [] then d.dispatch setting
  else match text.dropPrefix? (ascii "data:") with
    | none => (d, none)
    | some value =>
        let value := (value.dropPrefix? [32]).getD value
        let data := if d.data = [] then [] else d.data ++ [10]
        if maxEventBytes < data.length + value.length then ({ d with data }, some .eventTooLarge)
        else ({ d with data := data ++ value }, none)

def push (setting : Setting) (d : SseDecoder) : List UInt8 → Outcome
  | [] => (d, none)
  | byte :: chunk =>
      if byte = 10 then
        let text := if d.pending.getLast? = some 13 then d.pending.dropLast else d.pending
        andThen (({ d with pending := [] } : SseDecoder).line setting text) fun d => d.push setting chunk
      else if d.pending.length = maxPendingLineBytes then (d, some .eventTooLarge)
      else ({ d with pending := d.pending ++ [byte] } : SseDecoder).push setting chunk

def finish (setting : Setting) (d : SseDecoder) : Outcome :=
  if d.pending = [] then d.dispatch setting
  else andThen (({ d with pending := [] } : SseDecoder).line setting d.pending) fun d => d.dispatch setting

/-- The body of a response; a chunk that is `none` is a broken connection. -/
def body (setting : Setting) (d : SseDecoder) : List (Option (List UInt8)) → Outcome
  | [] => d.finish setting
  | none :: _ => (d, some .connection)
  | some chunk :: chunks => andThen (d.push setting chunk) fun d => d.body setting chunks

end SseDecoder

/-- What the HTTP client reports of the request and of the head of the response. -/
structure Response where
  failure : Option EventStreamError
  body : List (Option (List UInt8))

def stream (serde : Serde) (accepts : List UInt8 → Bool) (credentialsFile : Option (Option (List UInt8)))
    (response : Response) : List UInt8 × Option EventStreamError :=
  match credentialsFile.mapM readCredential with
  | .error error => ([], some error)
  | .ok credential =>
      match response.failure with
      | some error => ([], some error)
      | none =>
          let (decoder, error) := ({} : SseDecoder).body ⟨serde, credential, accepts⟩ response.body
          (decoder.written, error)

variable {cs : List Char}

section Texts

variable {α : Type}

theorem flatMap_within {β : Type} (f : α → List β) {xs ys : List α} (h : xs <:+: ys) :
    xs.flatMap f <:+: ys.flatMap f := by
  obtain ⟨before, after, rfl⟩ := h
  exact ⟨before.flatMap f, after.flatMap f, by rw [List.flatMap_append, List.flatMap_append]⟩

theorem prefix_before {m : α} {xs front back : List α} (hm : m ∉ xs) (h : xs <+: front ++ m :: back) :
    xs <+: front := by
  have hmark : front ++ [m] <+: front ++ m :: back := ⟨back, by simp⟩
  rcases List.prefix_or_prefix_of_prefix h hmark with hxs | hxs
  · rcases List.prefix_concat_iff.mp hxs with rfl | hxs
    · exact absurd (List.mem_append_right front (List.mem_singleton_self m)) hm
    · exact hxs
  · exact absurd (hxs.subset (List.mem_append_right front (List.mem_singleton_self m))) hm

/-- An occurrence without the mark `m` lies on one side of it. -/
theorem infix_beside {m : α} {xs front back : List α} (hm : m ∉ xs) (h : xs <:+: front ++ m :: back) :
    xs <:+: front ∨ xs <:+: back := by
  induction front with
  | nil =>
      rcases List.infix_cons_iff.mp h with h | h
      · exact .inl (prefix_before hm h).isInfix
      · exact .inr h
  | cons c front ih =>
      rcases List.infix_cons_iff.mp h with h | h
      · exact .inl (prefix_before hm h).isInfix
      · exact (ih h).imp_left fun h => h.trans (List.suffix_cons c front).isInfix

def byteOf (c : Char) : UInt8 := c.val.toUInt8

/-- Printable ASCII and the delete character: one byte each, and no line end. -/
def OneByte (cs : List Char) : Prop := ∀ c ∈ cs, 32 ≤ c.toNat ∧ c.toNat < 128

theorem utf8_eq_map (h : OneByte cs) : utf8 cs = cs.map byteOf := by
  rw [utf8, ← List.flatMap_singleton' (cs.map byteOf), List.flatMap_map]
  refine List.flatMap_congr fun c hc => String.utf8EncodeChar_eq_singleton ?_
  rw [Char.utf8Size_eq_one_iff]
  exact Nat.le_of_lt_succ (h c hc).2

theorem byteOf_range (h : OneByte cs) : ∀ b ∈ utf8 cs, 32 ≤ b.toNat := by
  intro b hb
  rw [utf8_eq_map h] at hb
  obtain ⟨c, hc, rfl⟩ := List.mem_map.mp hb
  obtain ⟨hlow, hhigh⟩ := h c hc
  have hsmall : c.val.toNat < 256 := hhigh.trans (by decide)
  rw [byteOf, UInt32.toNat_toUInt8, Nat.mod_eq_of_lt hsmall]
  exact hlow

theorem utf8_injective {xs ys : List Char} (h : utf8 xs = utf8 ys) : xs = ys := by
  have hbytes : (String.ofList xs).toByteArray = (String.ofList ys).toByteArray := by
    rw [String.toByteArray_ofList, String.toByteArray_ofList]
    exact congrArg List.toByteArray h
  exact String.ofList_injective (String.toByteArray_inj.mp hbytes)

theorem infix_of_utf8 {xs ys : List Char} (hys : OneByte ys) (h : utf8 xs <:+: utf8 ys) : xs <:+: ys := by
  obtain ⟨before, after, heq⟩ := h
  rw [utf8_eq_map hys] at heq
  obtain ⟨front, back, rfl, hfront, -⟩ := List.map_eq_append_iff.mp heq.symm
  obtain ⟨start, middle, rfl, -, hmiddle⟩ := List.map_eq_append_iff.mp hfront
  have hone : OneByte middle := fun c hc => hys c (List.mem_append_left _ (List.mem_append_right _ hc))
  rw [← utf8_eq_map hone] at hmiddle
  exact ⟨start, back, by rw [utf8_injective hmiddle]⟩

theorem fromUTF8?_utf8 (cs : List Char) : String.fromUTF8? (utf8 cs).toByteArray = some (String.ofList cs) := by
  have hbytes : (utf8 cs).toByteArray = (String.ofList cs).toByteArray := by
    rw [String.toByteArray_ofList]
    rfl
  rw [hbytes, String.fromUTF8?, dif_pos (String.ofList cs).isValidUTF8]
  exact congrArg some (String.toByteArray_inj.mp rfl)

theorem length_le_utf8 (cs : List Char) : cs.length ≤ (utf8 cs).length := by
  induction cs with
  | nil => exact Nat.zero_le _
  | cons c cs ih =>
      have hc := Char.utf8Size_pos c
      simp only [utf8, List.flatMap_cons, List.length_append, String.length_utf8EncodeChar, List.length_cons] at ih ⊢
      omega

end Texts

section Leaks

variable {secret : List Char} {serde : Serde} {setting : Setting} {d : SseDecoder} {v : Json}
  {file : Option (List UInt8)}

inductive Mentions (secret : List Char) : Json → Prop
  | string {value : String} (h : secret <:+: value.toList) : Mentions secret (.string value)
  | item {items : List Json} {v : Json} (hv : v ∈ items) (h : Mentions secret v) : Mentions secret (.array items)
  | key {fields : List (String × Json)} {field : String × Json} (hfield : field ∈ fields)
      (h : secret <:+: field.1.toList) : Mentions secret (.object fields)
  | member {fields : List (String × Json)} {field : String × Json} (hfield : field ∈ fields)
      (h : Mentions secret field.2) : Mentions secret (.object fields)

theorem infix_print_string {value : String} (h : secret <:+: value.toList) :
    secret.flatMap serde.escape <:+: serde.print (.string value) := by
  rw [serde.print_string]
  exact (flatMap_within serde.escape h).trans ⟨['"'], ['"'], rfl⟩

/-- A value is printed with the escaped spelling of what it mentions. -/
theorem Mentions.infix_print (h : Mentions secret v) : secret.flatMap serde.escape <:+: serde.print v := by
  induction h with
  | string h => exact infix_print_string h
  | item hv _ ih => exact ih.trans (serde.print_item hv)
  | key hfield h => exact (infix_print_string h).trans (serde.print_member hfield).1
  | member hfield _ ih => exact ih.trans (serde.print_member hfield).2

/-- The credential occurs in its own escaped spelling. -/
def Recurs (serde : Serde) (secret : List Char) : Prop := secret <:+: secret.flatMap serde.escape

def Clean (setting : Setting) (written : List UInt8) : Prop :=
  ∃ vs : List Json, written = vs.flatMap (fun v => toVec setting.serde v ++ [10]) ∧
    ∀ v ∈ vs, ∀ secret ∈ setting.credential, ¬Mentions secret v

def Setting.Guards (setting : Setting) : Prop :=
  ∀ secret ∈ setting.credential, secret ≠ [] ∧ Recurs setting.serde secret

theorem utf8_ne_nil (h : secret ≠ []) : utf8 secret ≠ [] := by
  intro hnil
  have hlength := length_le_utf8 secret
  rw [hnil] at hlength
  exact h (List.length_eq_zero_iff.mp (Nat.le_zero.mp hlength))

theorem not_mentions_of_not_reflected (hguards : setting.Guards)
    (h : reflected setting (toVec setting.serde v) = false) :
    ∀ secret ∈ setting.credential, ¬Mentions secret v := by
  intro secret hsecret hmentions
  obtain ⟨hne, hrecurs⟩ := hguards secret hsecret
  have hcontains : contains (toVec setting.serde v) (utf8 secret) = true := by
    simp only [contains, Bool.and_eq_true, decide_eq_true_eq]
    exact ⟨utf8_ne_nil hne, flatMap_within _ (hrecurs.trans hmentions.infix_print)⟩
  rw [reflected, Option.mem_def.mp hsecret, Option.any_some, hcontains] at h
  cases h

namespace SseDecoder

theorem andThen_clean {o : Outcome} {next : SseDecoder → Outcome} (ho : Clean setting o.1.written)
    (hnext : ∀ d : SseDecoder, Clean setting d.written → Clean setting (next d).1.written) :
    Clean setting (andThen o next).1.written := by
  obtain ⟨d, error⟩ := o
  cases error with
  | none => exact hnext d ho
  | some error => exact ho

section

variable (hguards : setting.Guards)

include hguards

section

variable (h : Clean setting d.written)

include h

theorem dispatch_clean :
    Clean setting (d.dispatch setting).1.written := by
  unfold dispatch
  split_ifs
  · exact h
  · split
    · exact h
    · next value _ =>
        dsimp only
        by_cases hreflected : reflected setting (toVec setting.serde value)
        · rw [if_pos hreflected]
          exact h
        · rw [if_neg hreflected]
          split_ifs
          · obtain ⟨vs, hwritten, hclean⟩ := h
            refine ⟨vs ++ [value], by simp [hwritten], ?_⟩
            intro v hv
            obtain hv | hv := List.mem_append.mp hv
            · exact hclean v hv
            · rw [List.mem_singleton.mp hv]
              exact not_mentions_of_not_reflected hguards (by simpa using hreflected)
          · exact h

theorem line_clean (text : List UInt8) :
    Clean setting (d.line setting text).1.written := by
  unfold line
  by_cases hempty : text = []
  · rw [if_pos hempty]
    exact dispatch_clean hguards h
  · rw [if_neg hempty]
    split
    · exact h
    · dsimp only
      split_ifs <;> exact h

theorem push_clean (chunk : List UInt8) :
    Clean setting (d.push setting chunk).1.written := by
  induction chunk generalizing d with
  | nil => exact h
  | cons byte chunk ih =>
      rw [push]
      by_cases hbyte : byte = 10
      · rw [if_pos hbyte]
        exact andThen_clean (line_clean (d := { d with pending := [] }) hguards h _) fun d hd => ih hd
      · rw [if_neg hbyte]
        split_ifs
        · exact h
        · exact ih h

theorem finish_clean :
    Clean setting (d.finish setting).1.written := by
  unfold finish
  split_ifs
  · exact dispatch_clean hguards h
  · exact andThen_clean (line_clean (d := { d with pending := [] }) hguards h _) fun d hd => dispatch_clean hguards hd

theorem body_clean (chunks : List (Option (List UInt8))) :
    Clean setting (d.body setting chunks).1.written := by
  induction chunks generalizing d with
  | nil => exact finish_clean hguards h
  | cons chunk chunks ih =>
      cases chunk with
      | none => exact h
      | some chunk => exact andThen_clean (push_clean hguards h chunk) fun d hd => ih hd

end

end

end SseDecoder

theorem readCredential_eq_ok (h : readCredential file = .ok secret) :
    secret ≠ [] ∧ secret.length ≤ maxCredentialBytes := by
  cases file with
  | none => cases h
  | some bytes =>
      simp only [readCredential] at h
      split_ifs at h with hlarge
      split at h
      · cases h
      · next text htext =>
          split_ifs at h with hbad
          cases h
          refine ⟨fun hnil => hbad (.inl hnil), ?_⟩
          have hlength : text.toList.length ≤ bytes.length := by
            unfold String.fromUTF8? at htext
            split_ifs at htext with hvalid
            have hbytes : (utf8 text.toList).toByteArray = bytes.toByteArray := by
              change text.toList.utf8Encode = _
              rw [← String.toByteArray_ofList, String.ofList_toList, ← Option.some.inj htext]
              rfl
            have hsize := congrArg ByteArray.size hbytes
            rw [List.size_toByteArray, List.size_toByteArray] at hsize
            exact hsize ▸ length_le_utf8 text.toList
          have htrim : (Text.trim text.toList).length ≤ text.toList.length := by
            rw [Text.trim, List.length_reverse]
            refine ((List.dropWhile_sublist _).length_le).trans ?_
            rw [List.length_reverse]
            exact (List.dropWhile_sublist _).length_le
          omega

theorem mapM_readCredential (h : readCredential file = .ok secret) :
    Option.mapM readCredential (some file) = .ok (some secret) := by
  change some <$> readCredential file = _
  rw [h]
  rfl

theorem fromSlice_toVec (h : serde.parse (serde.print v) = some v) : fromSlice serde (toVec serde v) = some v := by
  rw [fromSlice, toVec, fromUTF8?_utf8]
  simpa using h

section Event

/-- A response with one event, the value `v`. -/
def eventResponse (serde : Serde) (v : Json) : Response where
  failure := none
  body := [some (ascii "data: " ++ toVec serde v), some [10, 10]]

namespace SseDecoder

theorem push_pending {text : List UInt8} (hline : 10 ∉ text)
    (hfits : d.pending.length + text.length ≤ maxPendingLineBytes) :
    d.push setting text = ({ d with pending := d.pending ++ text }, none) := by
  induction text generalizing d with
  | nil => rw [List.append_nil, push]
  | cons byte text ih =>
      rw [List.mem_cons, not_or] at hline
      rw [List.length_cons] at hfits
      rw [push, if_neg fun h => hline.1 h.symm, if_neg (by omega), ih hline.2 (by simp; omega)]
      simp

theorem body_event {value written : List UInt8} (hbytes : ∀ b ∈ value, 32 ≤ b.toNat) (hne : value ≠ [])
    (hfits : value.length + 6 ≤ maxPendingLineBytes)
    (hdispatch : ({ data := value } : SseDecoder).dispatch setting = ({ written := written }, none)) :
    ({} : SseDecoder).body setting [some (ascii "data: " ++ value), some [10, 10]] =
      ({ written := written }, none) := by
  have hlabel : ascii "data: " = [100, 97, 116, 97, 58, 32] := by decide
  have hprefix : ascii "data:" = [100, 97, 116, 97, 58] := by decide
  have hline : (10 : UInt8) ∉ ascii "data: " ++ value := by
    rw [List.mem_append, not_or]
    exact ⟨by decide, fun h => absurd (hbytes 10 h) (by decide)⟩
  have hlast : (ascii "data: " ++ value).getLast? ≠ some 13 := by
    rw [List.getLast?_append_of_ne_nil _ hne]
    exact fun h => absurd (hbytes 13 (List.mem_of_getLast? h)) (by decide)
  have hlarge : ¬maxEventBytes < value.length := by
    have hbounds : maxPendingLineBytes ≤ maxEventBytes := by decide
    omega
  have htext : ({} : SseDecoder).line setting (ascii "data: " ++ value) = ({ data := value }, none) := by
    simp [line, hlabel, hprefix, List.dropPrefix?, hlarge]
  have hpending : ({} : SseDecoder).push setting (ascii "data: " ++ value) = _ := push_pending hline
    (by rw [List.length_append, hlabel]; simpa [Nat.add_comm] using hfits)
  have hempty : ({ data := value } : SseDecoder).push setting [10] = ({ written := written }, none) := by
    change andThen (({ data := value } : SseDecoder).dispatch setting) _ = _
    rw [hdispatch]
    rfl
  have hended : ({ pending := ascii "data: " ++ value } : SseDecoder).push setting [10, 10] =
      ({ written := written }, none) := by
    rw [push, if_pos rfl]
    dsimp only
    rw [if_neg hlast, htext]
    exact hempty
  rw [body, hpending]
  change andThen (({ pending := ascii "data: " ++ value } : SseDecoder).push setting [10, 10]) _ = _
  rw [hended]
  rfl

end SseDecoder

theorem stream_event (hfile : readCredential file = .ok secret) (hprint : OneByte (serde.print v))
    (hne : serde.print v ≠ []) (hfits : (serde.print v).length + 6 ≤ maxPendingLineBytes)
    (hparse : serde.parse (serde.print v) = some v) (hhidden : ¬secret <:+: serde.print v) :
    stream serde (fun _ => true) (some file) (eventResponse serde v) = (toVec serde v ++ [10], none) := by
  have hparsed := fromSlice_toVec hparse
  have hreflected : reflected ⟨serde, some secret, fun _ => true⟩ (toVec serde v) = false := by
    simp only [reflected, Option.any_some, contains, Bool.and_eq_false_iff, decide_eq_false_iff_not]
    exact .inr fun h => hhidden (infix_of_utf8 hprint h)
  have hlength : (toVec serde v).length = (serde.print v).length := by rw [toVec, utf8_eq_map hprint, List.length_map]
  have hdispatch : ({ data := toVec serde v } : SseDecoder).dispatch ⟨serde, some secret, fun _ => true⟩ =
      ({ written := toVec serde v ++ [10] }, none) := by
    have hdata : toVec serde v ≠ [] := utf8_ne_nil hne
    simp [dispatch, hdata, hparsed, hreflected]
  have hbody : ({} : SseDecoder).body ⟨serde, some secret, fun _ => true⟩ (eventResponse serde v).body = _ :=
    body_event (byteOf_range hprint) (utf8_ne_nil hne) (hlength.symm ▸ hfits) hdispatch
  unfold stream
  rw [mapM_readCredential hfile]
  dsimp only [eventResponse] at hbody ⊢
  rw [hbody]

end Event

def visible (c : Char) : Bool := 32 ≤ c.toNat && c.toNat ≤ 126

theorem oneByte_of_visible (h : ∀ c ∈ cs, visible c) : OneByte cs := by
  intro c hc
  have hrange := h c hc
  simp only [visible, Bool.and_eq_true, decide_eq_true_eq] at hrange
  omega

theorem escape_oneByte (serde : Serde) (h : OneByte cs) :
    OneByte (cs.flatMap serde.escape) ∧ (cs.flatMap serde.escape).length ≤ 2 * cs.length := by
  induction cs with
  | nil => exact ⟨fun c hc => absurd hc List.not_mem_nil, le_rfl⟩
  | cons c cs ih =>
      obtain ⟨hbytes, hlength⟩ := ih fun d hd => h d (List.mem_cons_of_mem c hd)
      have hc := h c List.mem_cons_self
      have hescape := serde.escape_visible c hc.1 hc.2
      have hbackslash : 32 ≤ '\\'.toNat ∧ '\\'.toNat < 128 := by decide
      constructor
      · intro d hd
        rw [List.flatMap_cons, List.mem_append] at hd
        rcases hd with hd | hd
        · rw [hescape] at hd
          split_ifs at hd
          · rcases List.mem_cons.mp hd with rfl | hd
            · exact hbackslash
            · exact List.mem_singleton.mp hd ▸ hc
          · exact List.mem_singleton.mp hd ▸ hc
        · exact hbytes d hd
      · have hone : (serde.escape c).length ≤ 2 := by
          rw [hescape]
          split_ifs <;> simp
        rw [List.flatMap_cons, List.length_append, List.length_cons]
        omega

/-- The credential between two delete characters, which no credential contains. -/
def framed (credential : List Char) : String := String.ofList ('\x7f' :: (credential ++ ['\x7f']))

theorem print_framed (serde : Serde) (credential : List Char) : serde.print (.string (framed credential)) =
    ['"'] ++ '\x7f' :: (credential.flatMap serde.escape ++ '\x7f' :: ['"']) := by
  have hmark : serde.escape '\x7f' = ['\x7f'] := by
    rw [serde.escape_visible _ (by decide) (by decide)]
    exact if_neg (by decide)
  rw [serde.print_string, framed, String.toList_ofList]
  simp [hmark]

theorem framed_hidden {credential : List Char} (hvisible : ∀ c ∈ credential, visible c) (hne : credential ≠ [])
    (h : ¬Recurs serde credential) : ¬credential <:+: serde.print (.string (framed credential)) := by
  have hmark : '\x7f' ∉ credential := fun hmem => absurd (hvisible _ hmem) (by decide)
  have hquote : ¬credential <:+: ['"'] := by
    intro hinfix
    have hsublist := hinfix.sublist
    rcases List.sublist_singleton.mp hsublist with rfl | rfl
    · exact hne rfl
    · refine h ?_
      rw [Recurs, List.flatMap_singleton, serde.escape_visible _ (by decide) (by decide)]
      exact ⟨['\\'], [], rfl⟩
  rw [print_framed]
  intro hinfix
  rcases infix_beside hmark hinfix with hinfix | hinfix
  · exact hquote hinfix
  · rcases infix_beside hmark hinfix with hinfix | hinfix
    · exact h hinfix
    · exact hquote hinfix

/-- A credential never reaches the output, however the events spell it, if it occurs in its own escaped spelling, and
otherwise some event carries it there. -/
theorem stream_never_mentions (serde : Serde) (file : Option (List UInt8)) (credential : List Char)
    (hfile : readCredential file = .ok credential) (hvisible : ∀ c ∈ credential, visible c) :
    (Recurs serde credential → ∀ (accepts : List UInt8 → Bool) (response : Response),
      ∃ vs : List Json, (stream serde accepts (some file) response).1 = vs.flatMap (fun v => toVec serde v ++ [10]) ∧
        ∀ v ∈ vs, ¬Mentions credential v) ∧
    (¬Recurs serde credential → ∃ response v,
      stream serde (fun _ => true) (some file) response = (toVec serde v ++ [10], none) ∧
        fromSlice serde (toVec serde v) = some v ∧ Mentions credential v) := by
  obtain ⟨hne, hlength⟩ := readCredential_eq_ok hfile
  constructor
  · intro hrecurs accepts response
    have hguards : Setting.Guards ⟨serde, some credential, accepts⟩ := by
      rintro _ ⟨⟩
      exact ⟨hne, hrecurs⟩
    have hstart : Clean ⟨serde, some credential, accepts⟩ [] := ⟨[], rfl, List.forall_mem_nil _⟩
    unfold stream
    rw [mapM_readCredential hfile]
    dsimp only
    cases response.failure with
    | some error => exact ⟨[], rfl, List.forall_mem_nil _⟩
    | none =>
        obtain ⟨vs, hwritten, hclean⟩ := SseDecoder.body_clean (d := {}) hguards hstart response.body
        exact ⟨vs, hwritten, fun v hv => hclean v hv credential rfl⟩
  · intro hescapes
    have hbytes := oneByte_of_visible hvisible
    obtain ⟨hescaped, htwice⟩ := escape_oneByte serde hbytes
    have hprint : OneByte (serde.print (.string (framed credential))) := by
      rw [print_framed]
      intro c hc
      simp only [List.mem_append, List.mem_cons, List.not_mem_nil, or_false] at hc
      rcases hc with rfl | rfl | hc | rfl | rfl
      · decide
      · decide
      · exact hescaped c hc
      · decide
      · decide
    have hfits : (serde.print (.string (framed credential))).length + 6 ≤ maxPendingLineBytes := by
      have hbounds : 2 * maxCredentialBytes + 10 ≤ maxPendingLineBytes := by decide
      rw [print_framed]
      simp only [List.length_append, List.length_cons, List.length_nil]
      omega
    have hparse : serde.parse (serde.print (.string (framed credential))) = some (.string (framed credential)) := by
      obtain ⟨w, hparse, hreordered⟩ := serde.parse_print (v := .string (framed credential)) trivial
      rwa [hreordered.eq_string] at hparse
    refine ⟨eventResponse serde _, _, stream_event hfile hprint (by rw [print_framed]; exact List.cons_ne_nil _ _) hfits
      hparse (framed_hidden hvisible hne hescapes), fromSlice_toVec hparse, .string ?_⟩
    rw [framed, String.toList_ofList]
    exact ⟨['\x7f'], ['\x7f'], rfl⟩

/-- A quote in the first place stands in the escaped spelling as well. -/
theorem stream_never_mentions_quoted :
    readCredential (some (ascii "\"token")) = .ok "\"token".toList ∧
      ∃ vs : List Json, (stream Json.compact (fun _ => true) (some (some (ascii "\"token")))
          (eventResponse Json.compact (.string "\"token"))).1 = vs.flatMap (fun v => toVec Json.compact v ++ [10]) ∧
        ∀ v ∈ vs, ¬Mentions "\"token".toList v := by
  have hfile : readCredential (some (ascii "\"token")) = .ok "\"token".toList := by decide +kernel
  have hrecurs : Recurs Json.compact "\"token".toList := ⟨['\\'], [], by decide⟩
  exact ⟨hfile, (stream_never_mentions Json.compact _ _ hfile (List.all_eq_true.mp (by decide))).1 hrecurs _ _⟩

def reflectedValue : Json := .object [("token", .string "a\"b")]

def reflectedText : String := "\x7b\"token\":\"a\\\"b\"\x7d"

/-- A quote inside the credential is escaped in the text, so that the credential is not found there. -/
theorem quoted_credential_leaks :
    readCredential (some (ascii "a\"b")) = .ok "a\"b".toList ∧ (∀ c ∈ "a\"b".toList, visible c) ∧
      stream Json.compact (fun _ => true) (some (some (ascii "a\"b")))
          ⟨none, [some (ascii "data: " ++ ascii reflectedText), some [10, 10]]⟩ = (ascii reflectedText ++ [10], none) ∧
      fromSlice Json.compact (ascii reflectedText) = some reflectedValue ∧ Mentions "a\"b".toList reflectedValue := by
  have hfile : readCredential (some (ascii "a\"b")) = .ok "a\"b".toList := by decide +kernel
  have hprint : Json.compact.print reflectedValue = reflectedText.toList := by decide +kernel
  have hparse : Json.compact.parse (Json.compact.print reflectedValue) = some reflectedValue :=
    Json.parse_print (by simp [reflectedValue, Json.WellFormed, Json.WellFormedFields])
  have hbytes : OneByte reflectedText.toList := oneByte_of_visible (List.all_eq_true.mp (by decide))
  have htext : toVec Json.compact reflectedValue = ascii reflectedText := congrArg utf8 hprint
  have hstream := stream_event hfile (hprint ▸ hbytes) (by rw [hprint]; decide) (by rw [hprint]; decide) hparse
    (by rw [hprint]; decide)
  rw [eventResponse, htext] at hstream
  exact ⟨hfile, List.all_eq_true.mp (by decide), hstream, htext ▸ fromSlice_toVec hparse,
    .member List.mem_cons_self (.string List.infix_rfl)⟩

end Leaks

section Chunks

variable {setting : Setting}

namespace SseDecoder

/-- What one operation may do. The separator of a value that does not fit is left behind. -/
structure Advance (d : SseDecoder) (o : Outcome) : Prop where
  written : d.written <+: o.1.written
  pending : d.pending.length ≤ maxPendingLineBytes → o.1.pending.length ≤ maxPendingLineBytes
  data : d.data.length ≤ maxEventBytes → o.1.data.length ≤ maxEventBytes + o.2.toList.length

theorem Advance.refl (d : SseDecoder) (error : Option EventStreamError) : Advance d (d, error) :=
  ⟨List.prefix_rfl, id, fun h => h.trans (Nat.le_add_right _ _)⟩

theorem Advance.andThen {d : SseDecoder} {o : Outcome} {next : SseDecoder → Outcome} (h : Advance d o)
    (hnext : ∀ d, Advance d (next d)) : Advance d (andThen o next) := by
  obtain ⟨d', error⟩ := o
  cases error with
  | some error => exact h
  | none =>
      exact ⟨h.written.trans (hnext d').written, fun hd => (hnext d').pending (h.pending hd),
        fun hd => (hnext d').data (h.data hd)⟩

section

variable (d : SseDecoder)

include d

theorem dispatch_advance : Advance d (d.dispatch setting) := by
  unfold dispatch
  split_ifs
  · exact .refl d none
  · split
    · exact .refl d _
    · dsimp only
      split_ifs
      · exact .refl d _
      · exact ⟨List.prefix_append _ _, id, fun _ => Nat.zero_le _⟩
      · exact .refl d _

theorem line_advance (text : List UInt8) : Advance d (d.line setting text) := by
  unfold line
  by_cases hempty : text = []
  · rw [if_pos hempty]
    exact d.dispatch_advance
  · rw [if_neg hempty]
    split
    · exact .refl d none
    · dsimp only
      have hdata : d.data.length ≤ maxEventBytes →
          (if d.data = [] then [] else d.data ++ [10]).length ≤ maxEventBytes + 1 := by
        intro hd
        split_ifs
        · exact Nat.zero_le _
        · simpa using hd
      generalize (if d.data = [] then [] else d.data ++ [10]) = data at hdata ⊢
      split_ifs with hlarge
      · exact ⟨List.prefix_rfl, id, hdata⟩
      · exact ⟨List.prefix_rfl, id, fun _ => by simpa using hlarge⟩

theorem line_taken_advance (text : List UInt8) :
    Advance d (({ d with pending := [] } : SseDecoder).line setting text) := by
  have h : Advance _ (({ d with pending := [] } : SseDecoder).line setting text) := line_advance _ text
  exact ⟨h.written, fun _ => h.pending (Nat.zero_le _), h.data⟩

theorem push_advance (chunk : List UInt8) : Advance d (d.push setting chunk) := by
  induction chunk generalizing d with
  | nil => exact .refl d none
  | cons byte chunk ih =>
      rw [push]
      by_cases hbyte : byte = 10
      · rw [if_pos hbyte]
        exact (d.line_taken_advance _).andThen ih
      · rw [if_neg hbyte]
        split_ifs with hfull
        · exact .refl d _
        · obtain ⟨hwritten, hpending, hdata⟩ := ih { d with pending := d.pending ++ [byte] }
          refine ⟨hwritten, fun hd => hpending ?_, hdata⟩
          simp only [List.length_append, List.length_singleton]
          omega

theorem body_advance (chunks : List (Option (List UInt8))) : Advance d (d.body setting chunks) := by
  induction chunks generalizing d with
  | nil =>
      rw [body, finish]
      split_ifs
      · exact d.dispatch_advance
      · exact (d.line_taken_advance _).andThen dispatch_advance
  | cons chunk chunks ih =>
      cases chunk with
      | none => exact .refl d _
      | some chunk => exact (d.push_advance chunk).andThen ih

end

theorem andThen_assoc (o : Outcome) (f g : SseDecoder → Outcome) :
    andThen (andThen o f) g = andThen o fun d => andThen (f d) g := by
  obtain ⟨d, _ | error⟩ := o <;> rfl

theorem push_append (d : SseDecoder) (front back : List UInt8) :
    d.push setting (front ++ back) = andThen (d.push setting front) fun d => d.push setting back := by
  induction front generalizing d with
  | nil => rfl
  | cons byte front ih =>
      rw [List.cons_append, push, push]
      by_cases hbyte : byte = 10
      · simp only [if_pos hbyte, andThen_assoc, ih]
      · rw [if_neg hbyte, if_neg hbyte]
        split_ifs
        · rfl
        · exact ih _

theorem body_chunks (d : SseDecoder) (chunks : List (List UInt8)) (rest : List (Option (List UInt8))) :
    d.body setting (chunks.map some ++ rest) = andThen (d.push setting chunks.flatten) fun d =>
      d.body setting rest := by
  induction chunks generalizing d with
  | nil => rfl
  | cons chunk chunks ih =>
      rw [List.flatten_cons, push_append, andThen_assoc]
      simp only [List.map_cons, List.cons_append, body, ih]

end SseDecoder

/-- What is written and how the stream ends do not depend on how its bytes are cut into chunks, a connection that breaks
leaves the beginning of the output, and the buffers stay within their bounds. -/
theorem body_cut_anywhere (setting : Setting) (chunks : List (List UInt8)) (rest : List (Option (List UInt8))) :
    let start : SseDecoder := {}
    let whole := start.body setting (chunks.map some ++ rest)
    whole = start.body setting (some chunks.flatten :: rest) ∧
      (start.body setting (chunks.map some ++ [none])).1.written <+: whole.1.written ∧
      whole.1.pending.length ≤ maxPendingLineBytes ∧ whole.1.data.length ≤ maxEventBytes + whole.2.toList.length := by
  intro start whole
  have hbound : start.Advance whole := start.body_advance (chunks.map some ++ rest)
  refine ⟨start.body_chunks chunks rest, ?_, hbound.pending (Nat.zero_le _), hbound.data (Nat.zero_le _)⟩
  simp only [whole, body_chunks]
  obtain ⟨d, _ | error⟩ := start.push setting chunks.flatten
  · exact (d.body_advance rest).written
  · exact List.prefix_rfl

end Chunks

end OcppBridge.EventStream
