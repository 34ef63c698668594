import OcppBridge.Mqtt.Mapping
import OcppBridge.Operational.Fingerprint
import OcppBridge.Operational.ResultInvariant

namespace OcppBridge.Mqtt

open Call Operational Transaction CommandResult TopicNamespace

def inboundOperations : List Operation := [.start, .stop, .setChargingLimit]

def commandPort (target : String) (maximumCommandBytes : Nat) : GuardedCommandPort where
  targetInstanceId := target
  supportedOperations := inboundOperations
  maximumCommandBytes

variable {P : Type}

theorem not_ocpp_of_advertised {operation : CommandOperation P} (h : operation.requiredCapability ∈ inboundOperations)
    (native : PrivilegedOcppOperation P) : operation ≠ .ocpp native := by
  rintro rfl
  simp [CommandOperation.requiredCapability, inboundOperations] at h

theorem commandPort_submit {target : String} {maximum permits : Nat} {encoded : Option Nat}
    {external : ExternalCommand P} (h : (commandPort target maximum).submit encoded permits external = .ok ()) :
    external.origin.isTarget target = true ∧ external.request.operation.requiredCapability ∈ inboundOperations := by
  simp only [GuardedCommandPort.submit, bind_eq_ok, require_eq_ok] at h
  obtain ⟨_, horigin, _, hadvertised, _⟩ := h
  exact ⟨horigin, hadvertised⟩

section Mappable

/-- A result that carries its command's identity and no trigger evidence, under a version that the mapping knows. -/
structure Mappable (command : Command P) (p : CommandResult) : Prop where
  returnRoute : p.returnRoute = command.returnRoute
  resource : p.resource = command.resource
  triggerObservation : p.triggerObservation = none
  triggerObservation201 : p.triggerObservation201 = none
  version : supportedResultVersion p.schemaVersion = true

variable {command : Command P} {p q r : CommandResult}

theorem Mappable.kept {versions : List ContractVersion} (h : Mappable command p) (hq : Kept versions p q)
    (hversions : ∀ version ∈ versions, supportedResultVersion version = true) : Mappable command q where
  returnRoute := hq.returnRoute.trans h.returnRoute
  resource := hq.resource.trans h.resource
  triggerObservation := hq.triggerObservation.trans h.triggerObservation
  triggerObservation201 := hq.triggerObservation201.trans h.triggerObservation201
  version := by
    rcases hq.version with heq | hmem
    · rw [heq]
      exact h.version
    · exact hversions _ (List.contains_iff_mem.mp hmem)

theorem evidenceVersions_supported : ∀ version ∈ evidenceVersions, supportedResultVersion version = true := by decide

theorem Mappable.core (h : Mappable command p) (hcore : Core p q) : Mappable command q :=
  h.kept hcore.toKept evidenceVersions_supported

theorem Mappable.merge [Wire P] {retire : Bool} (hmerge : merge P p q = .ok (r, retire)) (hp : Mappable command p)
    (hq : Mappable command q) : Mappable command r := by
  simp only [CommandResult.merge, bind_eq_ok, pure_eq_ok, Prod.mk.injEq] at hmerge
  obtain ⟨_, _, ⟨incoming, _⟩, hevidence, rfl, _⟩ := hmerge
  obtain ⟨i, i', h16, h201, hkept⟩ := mergeEvidence_eq_ok hevidence
  have htriggers : Mappable command i' := by
    simp only [Trigger.merge, hp.triggerObservation, pure_eq_ok] at h16
    subst h16
    simp only [Trigger201.merge, hp.triggerObservation201, pure_eq_ok, Prod.mk.injEq] at h201
    rw [← h201.1]
    split_ifs
    · exact ⟨hq.returnRoute, hq.resource, hq.triggerObservation, rfl, hq.version⟩
    · exact hq
  have hincoming := htriggers.kept hkept (List.forall_mem_cons.mpr ⟨hp.version, evidenceVersions_supported⟩)
  -- A stored result that outranks the incoming one keeps its own version.
  split_ifs
  · exact ⟨hincoming.returnRoute, hincoming.resource, hincoming.triggerObservation, hincoming.triggerObservation201,
      hp.version⟩
  · exact ⟨hincoming.returnRoute, hincoming.resource, hincoming.triggerObservation, hincoming.triggerObservation201,
      hincoming.version⟩

theorem Mappable.edit (h : Mappable command p) (hedit : Edit p q) : Mappable command q := by
  cases hedit with
  | trigger hsome => cases h.triggerObservation.symm.trans hsome
  | trigger201 hsome => cases h.triggerObservation201.symm.trans hsome
  | configuration | deviceModel | chargingProfiles | none =>
      exact ⟨h.returnRoute, h.resource, h.triggerObservation, h.triggerObservation201, h.version⟩

theorem mappable_maintained [Wire P] (command : Command P) : Maintained P (Mappable command) where
  refresh hf _ _ _ h hp := hp.core (refresh_core hf h)
  publish hp record _ h := h.core (publish_core hp record _)
  opened h := ⟨h.returnRoute, h.resource, by simp [CommandResult.opened, h.triggerObservation],
    by simp [CommandResult.opened, h.triggerObservation201], h.version⟩
  merge hmerge hp hq := Mappable.merge hmerge hp hq
  bound h hp := hp.core (boundResult_core h)
  edit hedit hp := hp.edit hedit
  rework h hp := by
    have hkept : Kept evidenceVersions _ _ := ⟨h.returnRoute, h.resource, h.triggerObservation,
      h.triggerObservation201, h.schemaVersion.imp_right fun heq => by rw [heq]; rfl⟩
    exact hp.kept hkept evidenceVersions_supported

end Mappable

section Host

variable {command : Command P} {read : CommandResult → Prop} {p q : CommandResult}

theorem Mappable.attach (h : Mappable command p) (evidence : DispatchEvidence) :
    Mappable command (evidence.attach p) := by
  cases evidence <;> exact ⟨h.returnRoute, h.resource, h.triggerObservation, h.triggerObservation201, rfl⟩

theorem Mappable.resent (h : Mappable command p) (hq : Resent command p q) : Mappable command q := by
  cases hq with
  | restarted | observed =>
      exact ⟨h.returnRoute, h.resource, h.triggerObservation, h.triggerObservation201, h.version⟩
  | lateReservation16 | lateReservation201 =>
      exact ⟨h.returnRoute, h.resource, h.triggerObservation, h.triggerObservation201, rfl⟩

theorem triggerExpectation_eq_none (h : ∀ native, command.operation ≠ .ocpp native)
    (prepare : PrivilegedOcppOperation P → Option TriggerWindow) : command.triggerExpectation prepare = none := by
  unfold Command.triggerExpectation
  split
  · next native hnative => exact absurd hnative (h native)
  · rfl

theorem fresh_mappable (command : Command P) (lifecycle : CommandLifecycle) (now : UtcTimestamp) :
    Mappable command (command.result lifecycle now) :=
  ⟨rfl, rfl, rfl, rfl, rfl⟩

theorem evidence_mappable (command : Command P) (lifecycle : CommandLifecycle) (now : UtcTimestamp)
    (evidence : Option DispatchEvidence) :
    Mappable command (evidence.elim (command.result lifecycle now)
      (DispatchEvidence.attach (command.result lifecycle now))) := by
  cases evidence with
  | none => exact fresh_mappable command lifecycle now
  | some evidence => exact (fresh_mappable command lifecycle now).attach evidence

theorem sent_mappable (hnative : ∀ native, command.operation ≠ .ocpp native)
    (hread : ∀ stored, read stored → Mappable command stored) (h : Sent command read p) : Mappable command p := by
  cases h with
  | admitted now => exact fresh_mappable command .admitted now
  | dispatched prepare device now =>
      rw [triggerExpectation_eq_none hnative]
      exact evidence_mappable command .dispatched now _
  | finalized prepare lifecycle evidence now =>
      rw [triggerExpectation_eq_none hnative, Command.finalized]
      simp only [Option.elim_none, ite_self]
      exact evidence_mappable command lifecycle now evidence
  | resent hstored h => exact (hread _ hstored).resent h
  | unrecorded now h => exact (fresh_mappable command .admitted now).resent h

variable [Wire P]

theorem hosted_mappable (hnative : ∀ native, command.operation ≠ .ocpp native) {requests : List (Request P)}
    (h : Hosted command requests) :
    ∀ before, before <+: requests → (Store.empty.run before).journal.Holds command.requestId (Mappable command) := by
  induction h with
  | start =>
      intro before hbefore row hrow
      rw [List.prefix_nil.mp hbefore] at hrow
      exact absurd hrow Table.not_mem_empty
  | @step requests request _ hsent ih =>
      intro before hbefore
      rcases List.prefix_concat_iff.mp hbefore with rfl | hbefore
      · have hlast := ih requests (List.prefix_refl requests)
        simp only [Store.run, List.foldl_append, List.foldl_cons, List.foldl_nil]
        refine (mappable_maintained command).step (fun incoming hbrings hrequest => ?_) hlast
        refine sent_mappable hnative ?_ (hsent incoming hbrings hrequest)
        rintro stored ⟨before, hfront, hstored⟩
        exact (ih before hfront).result? (Store.commandResult_eq_some.mp hstored).1
      · exact ih before hbefore

end Host

section Mapping

variable {ns : TopicNamespace} {documents : Documents} {target : String} {result : CommandResult}

def MappingError.isSizeLimit : MappingError → Bool
  | payloadTooLarge | topicTooLong => true
  | identityMismatch | encodingFailed => false

def Accepted {α : Type} (outcome : Except MappingError α) : Prop := Fails (·.isSizeLimit = true) outcome

theorem messageTopic_accepted (ns : TopicNamespace) (category stationId : String) (identity : Option String) :
    Accepted (ns.messageTopic category stationId identity) :=
  Fails.bind (.require fun _ => rfl) fun _ _ => .pure _

theorem encode_accepted {serialized : Option (List UInt8)} (h : serialized ≠ none) (maximum : Nat) :
    Accepted (encode serialized maximum) := by
  cases serialized with
  | none => exact absurd rfl h
  | some payload =>
      simp only [encode]
      split
      · exact .pure payload
      · exact .error rfl

theorem commandResult_accepted (hserialized : documents.message (.commandResult result) ≠ none)
    (hversion : supportedResultVersion result.schemaVersion = true) (hbridge : result.resource.bridgeId = ns.bridgeId)
    (howned : ownedBy target result = true) (maximum : Nat) :
    Accepted (ns.commandResult documents target result maximum) := by
  refine Fails.bind (.require fun h => absurd ⟨hversion, hbridge, howned⟩ h) fun _ _ => ?_
  refine Fails.bind (messageTopic_accepted ns _ _ _) fun _ _ => ?_
  exact Fails.bind (encode_accepted hserialized maximum) fun _ _ => .pure _

theorem map_accepted (hserialized : documents.message (.commandResult result) ≠ none)
    (hversion : supportedResultVersion result.schemaVersion = true) (hbridge : result.resource.bridgeId = ns.bridgeId)
    (howned : ownedBy target result = true) (revision maximum : Nat) :
    Accepted (ns.map documents target revision ⟨target, revision, result.resource, .commandResult result⟩ maximum) := by
  refine Fails.bind (.require fun h => absurd ⟨rfl, rfl, hbridge⟩ h) fun _ _ => ?_
  refine Fails.bind ?_ fun _ _ => Fails.bind (encode_accepted hserialized maximum) fun _ _ => ?_
  · exact Fails.bind (.require fun h => absurd ⟨hversion, rfl, howned⟩ h) fun _ _ => .pure _
  · exact Fails.bind (messageTopic_accepted ns _ _ _) fun _ _ => .pure _

variable [Wire P]

/-- Whatever results the host writes for a command of an MQTT target, the result that the store then returns is mapped
for that target, up to the size limits. -/
theorem stored_results_mapped (ns : TopicNamespace) (target : String) (external : ExternalCommand P)
    (admittedAt : UtcTimestamp) {topic : String} {maximumCommandBytes permits : Nat} {encoded : Option Nat}
    (htopic : ns.commandTopicMatches topic external.request.resource external.request.requestId = true)
    (hport : (commandPort target maximumCommandBytes).submit encoded permits external = .ok ())
    {requests : List (Request P)} (hhosted : Hosted (external.admitAt admittedAt) requests)
    (hresult : (Store.empty.run requests).commandResult external.request.requestId = .ok (some result))
    (hserialized : documents.message (.commandResult result) ≠ none) (revision maximum : Nat) :
    Accepted (ns.commandResult documents target result maximum) ∧
      Accepted (ns.map documents target revision ⟨target, revision, result.resource,
        .commandResult result⟩ maximum) := by
  obtain ⟨horigin, hadvertised⟩ := commandPort_submit hport
  have hmappable : Mappable (external.admitAt admittedAt) result :=
    (hosted_mappable (not_ocpp_of_advertised hadvertised) hhosted requests (List.prefix_refl requests)).result?
      (Store.commandResult_eq_some.mp hresult).1
  have hbridge : result.resource.bridgeId = ns.bridgeId := by
    rw [hmappable.resource]
    simp only [commandTopicMatches, Bool.and_eq_true, decide_eq_true_eq] at htopic
    exact htopic.1
  have howned : ownedBy target result = true := by
    rw [ownedBy, hmappable.returnRoute]
    exact horigin
  exact ⟨commandResult_accepted hserialized hmappable.version hbridge howned maximum,
    map_accepted hserialized hmappable.version hbridge howned revision maximum⟩

end Mapping

section Sample

def sampleLimit : ExternalCommand Document where
  request := ⟨"r7", none, ⟨"site", "CP", none, none⟩, .setChargingLimit ⟨"16", "A", none⟩, 10⟩
  origin := .target "ems" "operator"

def sampleAnswer : CommandResult :=
  (sampleLimit.admitAt 0).finalized (.protocolResponse true none) (some (.chargingProfile16 "Accepted")) none 2

def sampleWrites : List (Request Document) :=
  [] ++ [.write none { command := some (sampleLimit.admitAt 0),
                       commandResult := some ((sampleLimit.admitAt 0).result .admitted 0) }] ++
    [.write none { commandResult := some ((sampleLimit.admitAt 0).dispatched none none 1) }] ++
    [.write none { commandResult := some sampleAnswer }] ++
    [.write none { commandResult := some { sampleAnswer with
      observedEffects := sampleAnswer.observedEffects ++ [⟨"e", "limited", 3⟩] } }]

theorem sampleWrites_hosted : Hosted (sampleLimit.admitAt 0) sampleWrites := by
  refine .step (.step (.step (.step .start ?_) ?_) ?_) ?_
  · rintro _ ⟨⟩ _
    exact .admitted 0
  · rintro _ ⟨⟩ _
    exact .dispatched (fun _ => none) none 1
  · rintro _ ⟨⟩ _
    exact .finalized (fun _ => none) (.protocolResponse true none) (some (.chargingProfile16 "Accepted")) 2
  · rintro _ ⟨⟩ _
    have hread : Store.Returned (sampleWrites.take 3) "r7" sampleAnswer :=
      ⟨sampleWrites.take 3, List.prefix_refl _, by decide +kernel⟩
    exact .resent hread (.observed ⟨"e", "limited", 3⟩)

def sampleBridge : TopicNamespace := ⟨.demo, "site", namespaceBase .demo "site", rfl⟩

def effectJson (effect : ObservedCommandEffect) : Option Json := do
  let observedAt ← UtcTimestamp.json? effect.observedAt
  some (.object [("event_id", .string effect.eventId), ("event_type", .string effect.eventType),
    ("observed_at", observedAt)])

/-- The document of a reply to an OCPP 1.6 profile that carries no error. -/
def replyJson (result : CommandResult) (accepted : Bool) : Option Json := do
  let recordedAt ← UtcTimestamp.json? result.recordedAt
  let effects ← result.observedEffects.mapM effectJson
  some (.object ([("schema_version", result.schemaVersion.json), ("resource", result.resource.json),
    ("return_route", .object [("request_id", .string result.request), ("origin", result.returnRoute.origin.json)]),
    ("lifecycle", .object [("stage", .string "protocol_response"), ("accepted", .bool accepted)]),
    ("recorded_at", recordedAt), ("observed_effects", .array effects)] ++
    optionalMember "charging_profile_16" (result.chargingProfile16.map .string)))

def sampleDocuments : Documents where
  message
    | .commandResult result =>
        match result.lifecycle with
        | .protocolResponse accepted none => (replyJson result accepted).map fun v => bytes (String.ofList v.print)
        | _ => none
    | _ => none
  descriptor _ := none
  value _ := none
  connectivity _ := none
  sensor _ _ := none
  availability _ _ := []

theorem stored_results_mapped_sample :
    ∃ result, (Store.empty.run sampleWrites).commandResult "r7" = .ok (some result) ∧
      result.schemaVersion = .v1ChargingProfile16 ∧
      Accepted (sampleBridge.commandResult sampleDocuments "ems" result 1024) := by
  have hresult : (Store.empty.run sampleWrites).commandResult "r7" =
      .ok (some { sampleAnswer with observedEffects := [⟨"e", "limited", 3⟩] }) := by decide +kernel
  have htopic : sampleBridge.commandTopicMatches "uob/v1/demo/site/commands/CP/r7" sampleLimit.request.resource "r7" =
      true := by decide +kernel
  have hport : (commandPort "ems" 1024).submit (some 200) 4 sampleLimit = .ok () := by decide
  exact ⟨_, hresult, rfl, (stored_results_mapped sampleBridge "ems" sampleLimit 0 htopic hport sampleWrites_hosted
    hresult (by decide +kernel) 1 1024).1⟩

end Sample

end OcppBridge.Mqtt
