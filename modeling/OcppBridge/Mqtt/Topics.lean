import OcppBridge.Mqtt.Mapping

namespace OcppBridge.Mqtt

open Delimited TopicNamespace Function
open Operational (BridgeId RequestId ResourceRef CommandResult StationSnapshot)
open Text
open Transaction

section Segments

def plain (c : Char) : Bool := c ≠ '/' && c ≠ '+' && c ≠ '#' && c ≠ '\x00'

theorem bytes_injective : Injective bytes := by
  intro a b h
  exact String.toByteArray_inj.mp (ByteArray.ext (Array.toList_inj.mp h))

theorem upperHexDigit_injective : ∀ m < 16, ∀ n < 16, upperHexDigit m = upperHexDigit n → m = n := by decide

theorem isUnreserved_char : ∀ n < 256, isUnreserved (UInt8.ofNat n) = true →
    n < 128 ∧ Char.ofNat n ≠ '%' ∧ plain (Char.ofNat n) = true := by
  decide +kernel

theorem unreserved {b : UInt8} (h : isUnreserved b = true) :
    b.toNat < 128 ∧ Char.ofNat b.toNat ≠ '%' ∧ plain (Char.ofNat b.toNat) = true :=
  isUnreserved_char b.toNat b.toNat_lt (by rwa [UInt8.ofNat_toNat])

theorem toNat_ofNat : ∀ n < 128, (Char.ofNat n).toNat = n := by decide

theorem ofNat_injective (m : Nat) (hm : m < 128) (n : Nat) (hn : n < 128) (h : Char.ofNat m = Char.ofNat n) :
    m = n := by
  rw [← toNat_ofNat m hm, h, toNat_ofNat n hn]

theorem selfDelimiting_encodeByte : SelfDelimiting encodeByte := by
  intro a b x y h
  by_cases ha : isUnreserved a = true <;> by_cases hb : isUnreserved b = true <;>
    simp only [encodeByte, ha, hb, if_true, if_false, Bool.false_eq_true, List.cons_append, List.nil_append,
      List.cons.injEq] at h
  · have hn := ofNat_injective _ (unreserved ha).1 _ (unreserved hb).1 h.1
    exact ⟨UInt8.toNat_inj.mp hn, h.2⟩
  · exact absurd h.1 (unreserved ha).2.1
  · exact absurd h.1.symm (unreserved hb).2.1
  · exact ⟨halves_injective upperHexDigit_injective h.2.1 h.2.2.1, h.2.2.2⟩

theorem encodeSegment_injective : Injective encodeSegment := by
  intro a b h
  have hne : ∀ byte, encodeByte byte ≠ [] := by
    intro byte
    unfold encodeByte
    split <;> simp
  exact bytes_injective (selfDelimiting_encodeByte.flatMap_injective hne (String.ofList_inj.mp h))

theorem hexIdentifier_injective : Injective hexIdentifier := by
  intro a b h
  exact bytes_injective (hexBytes_injective (String.ofList_inj.mp h))

theorem upperHexDigit_plain : ∀ n < 16, plain (upperHexDigit n) = true := by decide

theorem hexDigit_plain : ∀ n < 16, plain (hexDigit n) = true ∧ hexDigit n ≠ '_' := by decide

theorem encodeSegment_plain (value : String) : ∀ c ∈ (encodeSegment value).toList, plain c = true := by
  intro c hc
  rw [encodeSegment, String.toList_ofList] at hc
  obtain ⟨b, -, hb⟩ := List.mem_flatMap.mp hc
  unfold encodeByte at hb
  split at hb
  · next hu =>
      rw [List.mem_singleton.mp hb]
      exact (unreserved hu).2.2
  · simp only [List.mem_cons, List.not_mem_nil, or_false] at hb
    obtain rfl | rfl | rfl := hb
    · decide
    · exact upperHexDigit_plain _ (halves b).1
    · exact upperHexDigit_plain _ (halves b).2

theorem hexIdentifier_plain (value : String) : ∀ c ∈ (hexIdentifier value).toList, plain c = true ∧ c ≠ '_' := by
  intro c hc
  rw [hexIdentifier, String.toList_ofList] at hc
  obtain ⟨b, -, hb⟩ := List.mem_flatMap.mp hc
  simp only [hexByte, List.mem_cons, List.not_mem_nil, or_false] at hb
  obtain rfl | rfl := hb
  · exact hexDigit_plain _ (halves b).1
  · exact hexDigit_plain _ (halves b).2

end Segments

section Levels

def separated (c : Char) : List String → String
  | [] => ""
  | [part] => part
  | part :: parts => part ++ String.singleton c ++ separated c parts

theorem separated_cons (c : Char) (part next : String) (rest : List String) :
    (separated c (part :: next :: rest)).toList = part.toList ++ c :: (separated c (next :: rest)).toList := by
  simp [separated]

variable {parts : List String} {c : Char}

theorem split_separated (hne : parts ≠ []) (hparts : ∀ part ∈ parts, c ∉ part.toList) :
    split c (separated c parts).toList = parts.map String.toList := by
  induction parts with
  | nil => exact absurd rfl hne
  | cons part parts ih =>
      have hpart := hparts part List.mem_cons_self
      cases parts with
      | nil => exact split_last hpart
      | cons next rest =>
          rw [separated_cons, split_append hpart, ih (by simp) fun p hp => hparts p (List.mem_cons_of_mem _ hp)]
          rfl

theorem separated_injective {parts' : List String} (hne : parts ≠ []) (hne' : parts' ≠ [])
    (hparts : ∀ part ∈ parts, c ∉ part.toList) (hparts' : ∀ part ∈ parts', c ∉ part.toList)
    (h : separated c parts = separated c parts') : parts = parts' := by
  apply List.map_injective_iff.mpr fun a b hab => String.toList_inj.mp hab
  rw [← split_separated hne hparts, h, split_separated hne' hparts']

theorem mem_separated {d : Char} (hd : d ∈ (separated c parts).toList) : d = c ∨ ∃ part ∈ parts, d ∈ part.toList := by
  induction parts with
  | nil => cases hd
  | cons part parts ih =>
      cases parts with
      | nil => exact .inr ⟨part, List.mem_cons_self, hd⟩
      | cons next rest =>
          rw [separated_cons, List.mem_append, List.mem_cons] at hd
          obtain hd | rfl | hd := hd
          · exact .inr ⟨part, List.mem_cons_self, hd⟩
          · exact .inl rfl
          · obtain rfl | ⟨p, hp, hdp⟩ := ih hd
            · exact .inl rfl
            · exact .inr ⟨p, List.mem_cons_of_mem _ hp, hdp⟩

end Levels

variable {category : String}

section Addresses

inductive Subject
  | availability
  | state (stationId : String)
  | event (stationId eventId : String)
  | result (stationId requestId : String)
  | trace (stationId traceId : String)
  | command (stationId requestId : String)
  | point (stationId pointId : String)
  | value (stationId pointId : String)
  | connectivity (stationId : String)
  | sensor (stationId pointId : String)
  deriving DecidableEq, Repr

/-- How a topic is laid out: a message category under the bridge's base, or a discovery topic. -/
inductive Layout
  | message (category : String) (segments : List String)
  | discovery (stationId : String) (pointId : Option String)
  deriving DecidableEq, Repr

namespace Subject

def layout : Subject → Layout
  | availability => .message "availability" []
  | state stationId => .message "state" [stationId]
  | event stationId eventId => .message "events" [stationId, eventId]
  | result stationId requestId => .message "results" [stationId, requestId]
  | trace stationId traceId => .message "traces" [stationId, traceId]
  | command stationId requestId => .message "commands" [stationId, requestId]
  | point stationId pointId => .message "points" [stationId, pointId]
  | value stationId pointId => .message "values" [stationId, pointId]
  | connectivity stationId => .discovery stationId none
  | sensor stationId pointId => .discovery stationId (some pointId)

def ofLayout : Layout → Subject
  | .message "state" [stationId] => .state stationId
  | .message "events" [stationId, eventId] => .event stationId eventId
  | .message "results" [stationId, requestId] => .result stationId requestId
  | .message "traces" [stationId, traceId] => .trace stationId traceId
  | .message "commands" [stationId, requestId] => .command stationId requestId
  | .message "points" [stationId, pointId] => .point stationId pointId
  | .message "values" [stationId, pointId] => .value stationId pointId
  | .discovery stationId none => .connectivity stationId
  | .discovery stationId (some pointId) => .sensor stationId pointId
  | _ => .availability

theorem layout_injective : Injective layout := by
  have hleft : LeftInverse ofLayout layout := by
    intro subject
    cases subject <;> rfl
  exact hleft.injective

def levelCount : Subject → Nat
  | availability | connectivity _ | sensor _ _ => 5
  | state _ => 6
  | _ => 7

end Subject

structure Address where
  environment : Environment
  bridgeId : BridgeId
  subject : Subject
  deriving DecidableEq, Repr

open Address

namespace Address

def nodeId (environment : Environment) (bridgeId : BridgeId) : String :=
  separated '_' ["uob", environmentName environment, hexIdentifier bridgeId]

def object (stationId : String) : Option String → List String
  | none => ["station", hexIdentifier stationId, "connectivity"]
  | some pointId => ["station", hexIdentifier stationId, "point", hexIdentifier pointId]

def component : Option String → String
  | none => "binary_sensor"
  | some _ => "sensor"

def parts (a : Address) : List String :=
  match a.subject.layout with
  | .message category segments =>
      ["uob", "v1", environmentName a.environment, encodeSegment a.bridgeId, category] ++ segments.map encodeSegment
  | .discovery stationId pointId =>
      ["homeassistant", component pointId, nodeId a.environment a.bridgeId, separated '_' (object stationId pointId),
        "config"]

def topic (a : Address) : String := separated '/' a.parts

end Address

theorem environmentName_injective : Injective environmentName := by
  intro a b h
  cases a <;> cases b <;> first | rfl | exact absurd h (by decide)

theorem environmentName_plain (environment : Environment) :
    ∀ c ∈ (environmentName environment).toList, plain c = true ∧ c ≠ '_' := by
  have hall : ((environmentName environment).toList.all fun c => plain c && decide (c ≠ '_')) = true := by
    cases environment <;> rfl
  intro c hc
  have hplain := List.all_eq_true.mp hall c hc
  rwa [Bool.and_eq_true, decide_eq_true_eq] at hplain

theorem hexIdentifier_underscore (value : String) : '_' ∉ (hexIdentifier value).toList :=
  fun h => (hexIdentifier_plain value '_' h).2 rfl

theorem environmentName_underscore (environment : Environment) : '_' ∉ (environmentName environment).toList :=
  fun h => (environmentName_plain environment '_' h).2 rfl

def Underscored (parts : List String) : Prop :=
  parts ≠ [] ∧ ∀ part ∈ parts, '_' ∉ part.toList ∧ ∀ c ∈ part.toList, plain c = true

theorem Underscored.injective {parts parts' : List String} (hp : Underscored parts) (hp' : Underscored parts')
    (h : separated '_' parts = separated '_' parts') : parts = parts' :=
  separated_injective hp.1 hp'.1 (fun part hm => (hp.2 part hm).1) (fun part hm => (hp'.2 part hm).1) h

theorem Underscored.plain {parts : List String} (hp : Underscored parts) :
    ∀ c ∈ (separated '_' parts).toList, Mqtt.plain c = true := by
  intro c hc
  obtain rfl | ⟨part, hpart, hc⟩ := mem_separated hc
  · decide
  · exact (hp.2 part hpart).2 c hc

theorem underscored_node (environment : Environment) (bridgeId : BridgeId) :
    Underscored ["uob", environmentName environment, hexIdentifier bridgeId] := by
  refine ⟨by simp, fun part hpart => ?_⟩
  simp only [List.mem_cons, List.not_mem_nil, or_false] at hpart
  obtain rfl | rfl | rfl := hpart
  · exact ⟨by decide, List.all_eq_true.mp rfl⟩
  · exact ⟨environmentName_underscore _, fun c hc => (environmentName_plain _ c hc).1⟩
  · exact ⟨hexIdentifier_underscore _, fun c hc => (hexIdentifier_plain _ c hc).1⟩

theorem underscored_object (stationId : String) (pointId : Option String) : Underscored (object stationId pointId) := by
  have hhex : ∀ value, '_' ∉ (hexIdentifier value).toList ∧ ∀ c ∈ (hexIdentifier value).toList, plain c = true :=
    fun value => ⟨hexIdentifier_underscore _, fun c hc => (hexIdentifier_plain _ c hc).1⟩
  cases pointId with
  | none =>
      refine ⟨by simp [object], fun part hpart => ?_⟩
      simp only [object, List.mem_cons, List.not_mem_nil, or_false] at hpart
      obtain rfl | rfl | rfl := hpart
      · exact ⟨by decide, List.all_eq_true.mp rfl⟩
      · exact hhex stationId
      · exact ⟨by decide, List.all_eq_true.mp rfl⟩
  | some pointId =>
      refine ⟨by simp [object], fun part hpart => ?_⟩
      simp only [object, List.mem_cons, List.not_mem_nil, or_false] at hpart
      obtain rfl | rfl | rfl | rfl := hpart
      · exact ⟨by decide, List.all_eq_true.mp rfl⟩
      · exact hhex stationId
      · exact ⟨by decide, List.all_eq_true.mp rfl⟩
      · exact hhex pointId

theorem nodeId_injective {e e' : Environment} {b b' : BridgeId} (h : nodeId e b = nodeId e' b') : e = e' ∧ b = b' := by
  have hparts := (underscored_node e b).injective (underscored_node e' b') h
  simp only [List.cons.injEq, and_true, true_and] at hparts
  exact ⟨environmentName_injective hparts.1, hexIdentifier_injective hparts.2⟩

theorem object_injective {stationId stationId' : String} {pointId pointId' : Option String}
    (h : object stationId pointId = object stationId' pointId') : stationId = stationId' ∧ pointId = pointId' := by
  cases pointId <;> cases pointId' <;> simp only [object, List.cons.injEq, true_and, and_true] at h
  · exact ⟨hexIdentifier_injective h, rfl⟩
  · exact absurd h.2 (by simp)
  · exact absurd h.2 (by simp)
  · exact ⟨hexIdentifier_injective h.1, congrArg some (hexIdentifier_injective h.2)⟩

namespace Address

theorem parts_length (a : Address) : a.parts.length = a.subject.levelCount := by
  obtain ⟨environment, bridgeId, subject⟩ := a
  cases subject <;> rfl

theorem parts_ne_nil (a : Address) : a.parts ≠ [] := by
  unfold parts
  split <;> simp

theorem category_plain {subject : Subject} {segments : List String} (h : subject.layout = .message category segments) :
    ∀ c ∈ category.toList, plain c = true := by
  apply List.all_eq_true.mp
  cases subject <;> cases h <;> rfl

theorem parts_plain (a : Address) : ∀ part ∈ a.parts, ∀ c ∈ part.toList, plain c = true := by
  intro part hpart
  unfold parts at hpart
  split at hpart
  · next category segments hlayout =>
      rcases List.mem_append.mp hpart with hpart | hpart
      · simp only [List.mem_cons, List.not_mem_nil, or_false] at hpart
        obtain rfl | rfl | rfl | rfl | rfl := hpart
        · exact List.all_eq_true.mp rfl
        · exact List.all_eq_true.mp rfl
        · exact fun c hc => (environmentName_plain _ c hc).1
        · exact encodeSegment_plain _
        · exact category_plain hlayout
      · obtain ⟨segment, -, rfl⟩ := List.mem_map.mp hpart
        exact encodeSegment_plain segment
  · next stationId pointId _ =>
      simp only [List.mem_cons, List.not_mem_nil, or_false] at hpart
      obtain rfl | rfl | rfl | rfl | rfl := hpart
      · exact List.all_eq_true.mp rfl
      · apply List.all_eq_true.mp
        cases pointId with
        | none => exact (by decide : "binary_sensor".toList.all plain = true)
        | some _ => exact (by decide : "sensor".toList.all plain = true)
      · exact (underscored_node a.environment a.bridgeId).plain
      · exact (underscored_object stationId pointId).plain
      · exact List.all_eq_true.mp rfl

theorem parts_slash (a : Address) : ∀ part ∈ a.parts, '/' ∉ part.toList :=
  fun part hpart hmem => absurd (a.parts_plain part hpart '/' hmem) (by decide)

theorem parts_injective : Injective parts := by
  rintro ⟨e, b, s⟩ ⟨e', b', s'⟩ h
  suffices hall : e = e' ∧ b = b' ∧ s.layout = s'.layout by
    obtain ⟨rfl, rfl, hlayout⟩ := hall
    rw [Subject.layout_injective hlayout]
  unfold parts at h
  cases hl : s.layout with
  | message category segments =>
      cases hl' : s'.layout with
      | message category' segments' =>
          simp only [hl, hl', List.cons_append, List.nil_append, List.cons.injEq, true_and] at h
          obtain ⟨he, hb, rfl, hs⟩ := h
          rw [List.map_injective_iff.mpr encodeSegment_injective hs]
          exact ⟨environmentName_injective he, encodeSegment_injective hb, rfl⟩
      | discovery stationId pointId =>
          simp only [hl, hl'] at h
          exact absurd (List.cons.inj h).1 (by decide)
  | discovery stationId pointId =>
      cases hl' : s'.layout with
      | message category segments =>
          simp only [hl, hl'] at h
          exact absurd (List.cons.inj h).1 (by decide)
      | discovery stationId' pointId' =>
          simp only [hl, hl', List.cons.injEq, and_true, true_and] at h
          obtain ⟨he, hb⟩ := nodeId_injective h.2.1
          obtain ⟨rfl, rfl⟩ := object_injective
            ((underscored_object stationId pointId).injective (underscored_object stationId' pointId') h.2.2)
          exact ⟨he, hb, rfl⟩

theorem topic_injective : Injective topic := by
  intro a b h
  exact parts_injective (separated_injective a.parts_ne_nil b.parts_ne_nil a.parts_slash b.parts_slash h)

theorem topic_plain (a : Address) : ∀ c ∈ a.topic.toList, c ≠ '+' ∧ c ≠ '#' ∧ c ≠ '\x00' := by
  intro c hc
  obtain rfl | ⟨part, hpart, hc⟩ := mem_separated hc
  · decide
  · have hplain := a.parts_plain part hpart c hc
    simp only [plain, Bool.and_eq_true, decide_eq_true_eq] at hplain
    exact ⟨hplain.1.1.2, hplain.1.2, hplain.2⟩

theorem topic_levels (a : Address) : (split '/' a.topic.toList).length = a.subject.levelCount := by
  rw [topic, split_separated a.parts_ne_nil a.parts_slash, List.length_map, parts_length]

end Address

end Addresses

section Publications

variable {ns : TopicNamespace} {documents : Documents} {maximum : Nat}

def TopicNamespace.address (ns : TopicNamespace) (subject : Subject) : Address := ⟨ns.environment, ns.bridgeId, subject⟩

theorem availability_topic : ns.availability = (ns.address .availability).topic := by
  apply String.toList_inj.mp
  simp [availability, ns.based, namespaceBase, address, Address.topic, Address.parts, Subject.layout, separated]

theorem one_segment_topic (category stationId : String) {subject : Subject}
    (h : subject.layout = .message category [stationId]) :
    ns.base ++ "/" ++ category ++ "/" ++ encodeSegment stationId = (ns.address subject).topic := by
  apply String.toList_inj.mp
  simp [ns.based, namespaceBase, address, Address.topic, Address.parts, h, separated]

theorem two_segment_topic (category stationId identity : String) {subject : Subject}
    (h : subject.layout = .message category [stationId, identity]) :
    ns.base ++ "/" ++ category ++ "/" ++ encodeSegment stationId ++ "/" ++ encodeSegment identity =
      (ns.address subject).topic := by
  apply String.toList_inj.mp
  simp [ns.based, namespaceBase, address, Address.topic, Address.parts, h, separated]

end Publications

section Functions

variable {ns : TopicNamespace} {documents : Documents} {maximum : Nat} {target : String} {p : WirePublication}
  {ps : List WirePublication} {α : Type}

def TargetDelivery.subject (delivery : TargetDelivery) : Subject :=
  match delivery.message with
  | .stationSnapshot snapshot => .state snapshot.station.stationId
  | .domainEvent event => .event event.resource.stationId event.eventId
  | .commandResult result => .result result.resource.stationId result.returnRoute.requestId
  | .diagnostic trace => .trace delivery.stationOrderingKey.stationId trace.traceId

theorem messageTopic_topic {stationId : String} {identity : Option String} {topic : String} {subject : Subject}
    (h : ns.messageTopic category stationId identity = .ok topic)
    (hlayout : subject.layout = .message category (stationId :: identity.toList)) :
    topic = (ns.address subject).topic := by
  simp only [messageTopic, bind_eq_ok, pure_eq_ok] at h
  obtain ⟨-, -, rfl⟩ := h
  cases identity with
  | none => exact one_segment_topic category stationId hlayout
  | some identity => exact two_segment_topic category stationId identity hlayout

theorem describe_layout {delivery : TargetDelivery} {stationId : String} {identity : Option String} {retain : Bool}
    (h : ns.describe target delivery = .ok (category, stationId, identity, retain)) :
    delivery.subject.layout = .message category (stationId :: identity.toList) := by
  rw [describe] at h
  rw [TargetDelivery.subject]
  cases hmessage : delivery.message
  all_goals
    simp only [hmessage, bind_eq_ok, pure_eq_ok, Prod.mk.injEq] at h
    obtain ⟨-, -, rfl, rfl, rfl, rfl⟩ := h
    rfl

theorem map_topic {revision : Nat} {delivery : TargetDelivery}
    (h : ns.map documents target revision delivery maximum = .ok p) :
    p.topic = (ns.address delivery.subject).topic := by
  simp only [map, bind_eq_ok, pure_eq_ok] at h
  obtain ⟨-, -, ⟨category, stationId, identity, retain⟩, hdescribe, payload, -, topic, htopic, rfl⟩ := h
  exact messageTopic_topic htopic (describe_layout hdescribe)

theorem commandResult_topic {result : CommandResult} (h : ns.commandResult documents target result maximum = .ok p) :
    p.topic = (ns.address (.result result.resource.stationId result.returnRoute.requestId)).topic := by
  simp only [commandResult, bind_eq_ok, pure_eq_ok] at h
  obtain ⟨-, -, topic, htopic, payload, -, rfl⟩ := h
  exact messageTopic_topic htopic rfl

theorem commandTopicMatches_iff {topic : String} {resource : ResourceRef} {requestId : RequestId} :
    ns.commandTopicMatches topic resource requestId = true ↔
      resource.bridgeId = ns.bridgeId ∧ topic = (ns.address (.command resource.stationId requestId)).topic := by
  rw [commandTopicMatches, Bool.and_eq_true, decide_eq_true_eq, decide_eq_true_eq,
    ← two_segment_topic "commands" resource.stationId requestId rfl]
  simp [String.append_assoc]

theorem forall₂_of_mapM {β : Type} {f : α → Except MappingError β} {xs : List α} {ys : List β}
    (h : xs.mapM f = .ok ys) : List.Forall₂ (fun x y => f x = .ok y) xs ys := by
  induction xs generalizing ys with
  | nil =>
      rw [List.mapM_nil, pure_eq_ok] at h
      subst h
      exact .nil
  | cons x xs ih =>
      simp only [List.mapM_cons, bind_eq_ok, pure_eq_ok] at h
      obtain ⟨z, hz, zs, hzs, rfl⟩ := h
      exact .cons hz (ih hzs)

theorem firstEntries_nodup (key : α → String) (values : List α) : ((firstEntries key values).map key).Nodup := by
  have hfound : ∀ found : List α, (found.map key).Nodup →
      ((values.foldl (fun found v => if found.any (key · = key v) then found else found ++ [v])
        found).map key).Nodup := by
    induction values with
    | nil => exact fun found h => h
    | cons v values ih =>
        intro found h
        refine ih _ ?_
        dsimp only
        split_ifs with hmem
        · exact h
        · rw [List.map_append, List.map_singleton, ← List.concat_eq_append]
          refine h.concat fun hkey => hmem (List.any_eq_true.mpr ?_)
          obtain ⟨other, hother, hsame⟩ := List.mem_map.mp hkey
          exact ⟨other, hother, decide_eq_true hsame⟩
  exact ((List.perm_insertionSort _ _).map key).nodup_iff.mpr (hfound [] List.nodup_nil)

/-- The publication is about the subject and carries its document. -/
def TopicNamespace.Publishes (ns : TopicNamespace) (maximum : Nat) (what : Subject × Option (List UInt8))
    (p : WirePublication) : Prop :=
  p.topic = (ns.address what.1).topic ∧ encode what.2 maximum = .ok p.payload

def catalogued (snapshot : StationSnapshot) (documents : Documents) : List (Subject × Option (List UInt8)) :=
  (descriptors snapshot).map (fun d => (.point snapshot.station.stationId d.pointId, documents.descriptor d)) ++
    (latestValues snapshot).map fun v => (.value snapshot.station.stationId v.pointId, documents.value v)

def discovered (snapshot : StationSnapshot) (documents : Documents) : List (Subject × Option (List UInt8)) :=
  (.connectivity snapshot.station.stationId, documents.connectivity snapshot) ::
    (latestValues snapshot).map fun v => (.sensor snapshot.station.stationId v.pointId, documents.sensor snapshot v)

theorem subjects_nodup {key : α → String} {values : List α} (document : α → Option (List UInt8))
    {subject : String → Subject} (hinjective : Injective subject) (h : (values.map key).Nodup) :
    ((values.map fun v => (subject (key v), document v)).map Prod.fst).Nodup := by
  rw [List.map_map]
  have hsubjects := h.map hinjective
  rwa [List.map_map] at hsubjects

theorem catalogued_nodup (snapshot : StationSnapshot) (documents : Documents) :
    ((catalogued snapshot documents).map Prod.fst).Nodup := by
  rw [catalogued, List.map_append]
  refine List.nodup_append.mpr ⟨?_, ?_, fun a ha b hb hab => ?_⟩
  · exact subjects_nodup documents.descriptor (fun _ _ h => (Subject.point.inj h).2) (firstEntries_nodup _ _)
  · exact subjects_nodup documents.value (fun _ _ h => (Subject.value.inj h).2) (firstEntries_nodup _ _)
  · simp only [List.map_map, List.mem_map, comp_apply] at ha hb
    obtain ⟨d, -, rfl⟩ := ha
    obtain ⟨v, -, rfl⟩ := hb
    cases hab

theorem discovered_nodup (snapshot : StationSnapshot) (documents : Documents) :
    ((discovered snapshot documents).map Prod.fst).Nodup := by
  rw [discovered, List.map_cons, List.nodup_cons]
  refine ⟨fun hmem => ?_, ?_⟩
  · simp only [List.map_map, List.mem_map, comp_apply] at hmem
    obtain ⟨v, -, hsensor⟩ := hmem
    cases hsensor
  · exact subjects_nodup (documents.sensor snapshot) (fun _ _ h => (Subject.sensor.inj h).2) (firstEntries_nodup _ _)

/-- Publications about different subjects have different topics. -/
theorem topics_nodup {what : List (Subject × Option (List UInt8))} (h : List.Forall₂ (ns.Publishes maximum) what ps)
    (hwhat : (what.map Prod.fst).Nodup) : (ps.map (·.topic)).Nodup := by
  have htopics : what.map (fun w => (ns.address w.1).topic) = ps.map (·.topic) := by
    refine List.forall₂_eq_eq_eq ▸ List.forall₂_map_left_iff.mpr (List.forall₂_map_right_iff.mpr ?_)
    exact h.imp fun _ _ hp => hp.1.symm
  rw [← htopics]
  have hinjective : Injective fun subject => (ns.address subject).topic :=
    fun _ _ h => (Address.mk.inj (Address.topic_injective h)).2.2
  have haddresses := hwhat.map hinjective
  rwa [List.map_map] at haddresses

theorem Points.publication_eq_ok {base station pointId : String} {document : Option (List UInt8)}
    (h : Points.publication base category station pointId document maximum = .ok p) :
    p.topic = base ++ "/" ++ category ++ "/" ++ station ++ "/" ++ encodeSegment pointId ∧
      encode document maximum = .ok p.payload := by
  simp only [Points.publication, bind_eq_ok, pure_eq_ok] at h
  obtain ⟨-, -, payload, hpayload, rfl⟩ := h
  exact ⟨rfl, hpayload⟩

theorem pointCatalog_publishes {snapshot : StationSnapshot} (h : ns.pointCatalog documents snapshot maximum = .ok ps) :
    List.Forall₂ (ns.Publishes maximum) (catalogued snapshot documents) ps := by
  simp only [pointCatalog, Points.publications, bind_eq_ok, pure_eq_ok] at h
  obtain ⟨-, -, -, -, points, hpoints, latest, hlatest, rfl⟩ := h
  refine List.rel_append (List.forall₂_map_left_iff.mpr ?_) (List.forall₂_map_left_iff.mpr ?_)
  · refine (forall₂_of_mapM hpoints).imp fun d p hp => ?_
    obtain ⟨htopic, hpayload⟩ := Points.publication_eq_ok hp
    exact ⟨htopic.trans (two_segment_topic "points" snapshot.station.stationId d.pointId rfl), hpayload⟩
  · refine (forall₂_of_mapM hlatest).imp fun v p hp => ?_
    obtain ⟨htopic, hpayload⟩ := Points.publication_eq_ok hp
    exact ⟨htopic.trans (two_segment_topic "values" snapshot.station.stationId v.pointId rfl), hpayload⟩

theorem Discovery.publication_eq_ok {component nodeId objectId : String} {document : Option (List UInt8)}
    (h : Discovery.publication component nodeId objectId document maximum = .ok p) :
    p.topic = "homeassistant/" ++ component ++ "/" ++ nodeId ++ "/" ++ objectId ++ "/config" ∧
      encode document maximum = .ok p.payload := by
  simp only [Discovery.publication, bind_eq_ok, pure_eq_ok] at h
  obtain ⟨-, -, payload, hpayload, rfl⟩ := h
  exact ⟨rfl, hpayload⟩

theorem homeAssistantDiscovery_publishes {snapshot : StationSnapshot}
    (h : ns.homeAssistantDiscovery documents snapshot maximum = .ok ps) :
    List.Forall₂ (ns.Publishes maximum) (discovered snapshot documents) ps := by
  simp only [homeAssistantDiscovery, Discovery.publications, bind_eq_ok, pure_eq_ok] at h
  obtain ⟨-, -, first, hfirst, sensors, hsensors, rfl⟩ := h
  refine .cons ?_ (List.forall₂_map_left_iff.mpr ?_)
  · obtain ⟨htopic, hpayload⟩ := Discovery.publication_eq_ok hfirst
    refine ⟨htopic.trans (String.toList_inj.mp ?_), hpayload⟩
    simp [address, Address.topic, Address.parts, Subject.layout, Address.nodeId, Address.object,
      Address.component, separated]
  · refine (forall₂_of_mapM hsensors).imp fun v p hp => ?_
    obtain ⟨htopic, hpayload⟩ := Discovery.publication_eq_ok hp
    refine ⟨htopic.trans (String.toList_inj.mp ?_), hpayload⟩
    simp [address, Address.topic, Address.parts, Subject.layout, Address.nodeId, Address.object,
      Address.component, separated]

end Functions

/-- A published topic is well formed and determines what it is about, and a command topic is accepted for a resource and
a request exactly when it is theirs on this bridge. -/
theorem mqtt_topics :
    (∀ a : Address, (∀ c ∈ a.topic.toList, c ≠ '+' ∧ c ≠ '#' ∧ c ≠ '\x00') ∧
      (split '/' a.topic.toList).length = a.subject.levelCount) ∧
    (∀ a b : Address, a ≠ b → a.topic ≠ b.topic) ∧
    (∀ (ns : TopicNamespace) (documents : Documents) (maximum : Nat),
      (∀ target online, (ns.availabilityPublication documents target online).topic =
        (ns.address .availability).topic) ∧
      (∀ target revision delivery p, ns.map documents target revision delivery maximum = .ok p →
        p.topic = (ns.address delivery.subject).topic) ∧
      (∀ target result p, ns.commandResult documents target result maximum = .ok p →
        p.topic = (ns.address (.result result.resource.stationId result.returnRoute.requestId)).topic) ∧
      (∀ snapshot ps, ns.pointCatalog documents snapshot maximum = .ok ps →
        List.Forall₂ (ns.Publishes maximum) (catalogued snapshot documents) ps ∧ (ps.map (·.topic)).Nodup) ∧
      (∀ snapshot ps, ns.homeAssistantDiscovery documents snapshot maximum = .ok ps →
        List.Forall₂ (ns.Publishes maximum) (discovered snapshot documents) ps ∧ (ps.map (·.topic)).Nodup)) ∧
    (∀ (ns : TopicNamespace) (topic : String) (resource : ResourceRef) (requestId : RequestId),
      ns.commandTopicMatches topic resource requestId = true ↔
        resource.bridgeId = ns.bridgeId ∧ topic = (ns.address (.command resource.stationId requestId)).topic) ∧
    (∀ (ns : TopicNamespace) (topic : String) (resource resource' : ResourceRef) (requestId requestId' : RequestId),
      ns.commandTopicMatches topic resource requestId = true →
        ns.commandTopicMatches topic resource' requestId' = true →
        resource.bridgeId = resource'.bridgeId ∧ resource.stationId = resource'.stationId ∧
        requestId = requestId') := by
  refine ⟨fun a => ⟨a.topic_plain, a.topic_levels⟩, fun a b hab h => hab (Address.topic_injective h),
    fun ns documents maximum => ⟨fun _ _ => availability_topic, fun _ _ _ _ => map_topic,
      fun _ _ _ => commandResult_topic,
      fun snapshot ps h => ⟨pointCatalog_publishes h, topics_nodup (pointCatalog_publishes h) (catalogued_nodup _ _)⟩,
      fun snapshot ps h => ⟨homeAssistantDiscovery_publishes h,
        topics_nodup (homeAssistantDiscovery_publishes h) (discovered_nodup _ _)⟩⟩,
    fun _ _ _ _ => commandTopicMatches_iff, ?_⟩
  intro ns topic resource resource' requestId requestId' h h'
  obtain ⟨hbridge, rfl⟩ := commandTopicMatches_iff.mp h
  obtain ⟨hbridge', htopic⟩ := commandTopicMatches_iff.mp h'
  have haddress := Address.topic_injective htopic
  simp only [address, Address.mk.injEq, Subject.command.injEq, true_and] at haddress
  exact ⟨hbridge.trans hbridge'.symm, haddress.1, haddress.2⟩

def sampleNamespace : TopicNamespace := ⟨.demo, "site/1", namespaceBase .demo "site/1", rfl⟩

theorem mqtt_topics_sample :
    (⟨.demo, "a/b", .state "s"⟩ : Address).topic ≠ (⟨.demo, "a", .state "b/s"⟩ : Address).topic ∧
      sampleNamespace.commandTopicMatches "uob/v1/demo/site%2F1/commands/CP-1/r%2B7" ⟨"site/1", "CP-1", none, none⟩
        "r+7" = true ∧
      "uob/v1/demo/site%2F1/commands/CP-1/r%2B7" = (sampleNamespace.address (.command "CP-1" "r+7")).topic := by
  have hmatches : sampleNamespace.commandTopicMatches "uob/v1/demo/site%2F1/commands/CP-1/r%2B7"
      ⟨"site/1", "CP-1", none, none⟩ "r+7" = true := by decide +kernel
  exact ⟨mqtt_topics.2.1 _ _ (by decide), hmatches, ((mqtt_topics.2.2.2.1 _ _ _ _).mp hmatches).2⟩

end OcppBridge.Mqtt
