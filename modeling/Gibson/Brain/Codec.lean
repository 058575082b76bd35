import Gibson.Brain.Reduce

/-! The codec of the durable Timeline: an event is stored as its kind and its JSON payload, and
decoded through a pointer to the registered type. -/

namespace Gibson.Brain

inductive EventType where
  | hostObserved
  | domainObserved
  | subdomainObserved
  | credentialObserved
  | accountObserved
  | observationRecorded
  | workDispatched
  | workRetried
  | workCompleted
  | conditionResolved
  | decisionRequested
  | decisionCompleted
  | tokenUsed
  | missionCreated
  | missionStarted
  | missionProjected
  | missionPauseRequested
  | missionResumed
  | missionDone
  | missionRewound
  | beliefScoreRequested
  | beliefScored
  | sliceScoreRequested
  | sliceScored
  | nodeBeliefSet
  | findingRaised
  | findingStatusChanged
  | scanReconciled
  | entityObserved
  | labelApplied
  | agentRunObserved
  | hypothesisObserved
  | betSettledTrue
  | betSettledFalse
  | betSettledByHITL
  | edgeOutcomeObserved
  | destructiveActionRequested
  | destructiveActionDecided
  | voiPlanRequested
  | voiPlanned
  | llmCallObserved
  | agentToolCallObserved
  | flightRecorderPolicySet
  | flightRecorderRetentionSwept
  | missionOriginated
  | domainPackEnabled
  | domainPackDisabled
  | betProofSubmittedForReview
  | ontologyExtensionProposed
  | ontologyExtensionApproved
  | ontologyExtensionRejected
  deriving DecidableEq

def Event.type : Event → EventType
  | .hostObserved _ => .hostObserved
  | .domainObserved _ => .domainObserved
  | .subdomainObserved _ => .subdomainObserved
  | .credentialObserved _ => .credentialObserved
  | .accountObserved _ => .accountObserved
  | .observationRecorded _ => .observationRecorded
  | .workDispatched _ => .workDispatched
  | .workRetried _ => .workRetried
  | .workCompleted _ => .workCompleted
  | .conditionResolved _ => .conditionResolved
  | .decisionRequested _ => .decisionRequested
  | .decisionCompleted _ => .decisionCompleted
  | .tokenUsed _ => .tokenUsed
  | .missionCreated _ => .missionCreated
  | .missionStarted _ => .missionStarted
  | .missionProjected _ => .missionProjected
  | .missionPauseRequested _ => .missionPauseRequested
  | .missionResumed _ => .missionResumed
  | .missionDone _ => .missionDone
  | .missionRewound _ => .missionRewound
  | .beliefScoreRequested _ => .beliefScoreRequested
  | .beliefScored _ => .beliefScored
  | .sliceScoreRequested _ => .sliceScoreRequested
  | .sliceScored _ => .sliceScored
  | .nodeBeliefSet _ => .nodeBeliefSet
  | .findingRaised _ => .findingRaised
  | .findingStatusChanged _ => .findingStatusChanged
  | .scanReconciled _ => .scanReconciled
  | .entityObserved _ => .entityObserved
  | .labelApplied _ => .labelApplied
  | .agentRunObserved _ => .agentRunObserved
  | .hypothesisObserved _ => .hypothesisObserved
  | .betSettledTrue _ => .betSettledTrue
  | .betSettledFalse _ => .betSettledFalse
  | .betSettledByHITL _ => .betSettledByHITL
  | .edgeOutcomeObserved _ => .edgeOutcomeObserved
  | .destructiveActionRequested _ => .destructiveActionRequested
  | .destructiveActionDecided _ => .destructiveActionDecided
  | .voiPlanRequested _ => .voiPlanRequested
  | .voiPlanned _ => .voiPlanned
  | .llmCallObserved _ => .llmCallObserved
  | .agentToolCallObserved _ => .agentToolCallObserved
  | .flightRecorderPolicySet _ => .flightRecorderPolicySet
  | .flightRecorderRetentionSwept _ => .flightRecorderRetentionSwept
  | .missionOriginated _ => .missionOriginated
  | .domainPackEnabled _ => .domainPackEnabled
  | .domainPackDisabled _ => .domainPackDisabled
  | .betProofSubmittedForReview _ => .betProofSubmittedForReview
  | .ontologyExtensionProposed _ => .ontologyExtensionProposed
  | .ontologyExtensionApproved _ => .ontologyExtensionApproved
  | .ontologyExtensionRejected _ => .ontologyExtensionRejected

inductive GoEvent where
  | value (ev : Event)
  | pointer (ev : Event)

/-- The reducer as the Go interface sees it: its type switches name value types only, so a pointer
matches no case. -/
def reduceGo (env : Env) (w : World) : GoEvent → World
  | .value ev => reduce env w ev
  | .pointer _ => w

/-- An event as the timeline stores it. -/
structure EventEnvelope (Payload : Type) where
  kind : String
  payload : Payload

/-- `encoding/json`: what was marshalled from a type unmarshals into that type as it was. -/
structure Json where
  (Payload Wire : Type)
  marshal : Event → Payload
  unmarshal : EventType → Payload → Option Event
  marshalEnvelope : EventEnvelope Payload → Wire
  unmarshalEnvelope : Wire → Option (EventEnvelope Payload)
  faithful : ∀ ev, unmarshal ev.type (marshal ev) = some ev
  envelope_faithful : ∀ env, unmarshalEnvelope (marshalEnvelope env) = some env

def eventRegistry : List (String × EventType) :=
  [("host.observed", .hostObserved), ("domain.observed", .domainObserved),
   ("subdomain.observed", .subdomainObserved),
   ("credential.observed", .credentialObserved),
   ("account.observed", .accountObserved),
   ("observation.recorded", .observationRecorded),
   ("work.dispatched", .workDispatched),
   ("work.retried", .workRetried),
   ("work.completed", .workCompleted),
   ("condition.resolved", .conditionResolved),
   ("decision.requested", .decisionRequested),
   ("decision.completed", .decisionCompleted),
   ("token.used", .tokenUsed),
   ("mission.created", .missionCreated),
   ("mission.started", .missionStarted),
   ("mission.projected", .missionProjected),
   ("mission.pause", .missionPauseRequested),
   ("mission.resume", .missionResumed),
   ("mission.done", .missionDone),
   ("mission.rewound", .missionRewound),
   ("belief.requested", .beliefScoreRequested),
   ("belief.scored", .beliefScored),
   ("belief.slice_requested", .sliceScoreRequested),
   ("belief.slice_scored", .sliceScored),
   ("node_belief.set", .nodeBeliefSet),
   ("finding.raised", .findingRaised),
   ("finding.status_changed", .findingStatusChanged),
   ("scan.reconciled", .scanReconciled),
   ("entity.observed", .entityObserved),
   ("label.applied", .labelApplied),
   ("agent_run.observed", .agentRunObserved),
   ("hypothesis.observed", .hypothesisObserved),
   ("bet.settled_true", .betSettledTrue),
   ("bet.settled_false", .betSettledFalse),
   ("bet.settled_by_hitl", .betSettledByHITL),
   ("edge.outcome_observed", .edgeOutcomeObserved),
   ("destructive_action.requested", .destructiveActionRequested),
   ("destructive_action.decided", .destructiveActionDecided),
   ("voi.plan.requested", .voiPlanRequested),
   ("voi.plan.completed", .voiPlanned),
   ("llm_call.observed", .llmCallObserved),
   ("agent_tool_call.observed", .agentToolCallObserved),
   ("flight_recorder.policy_set", .flightRecorderPolicySet),
   ("flight_recorder.retention_swept", .flightRecorderRetentionSwept),
   ("mission.originated", .missionOriginated),
   ("domain_pack.enabled", .domainPackEnabled),
   ("domain_pack.disabled", .domainPackDisabled),
   ("bet.proof_submitted_for_review", .betProofSubmittedForReview),
   ("ontology_extension.proposed", .ontologyExtensionProposed),
   ("ontology_extension.approved", .ontologyExtensionApproved),
   ("ontology_extension.rejected", .ontologyExtensionRejected)]

def dereferenceEvent : Event → GoEvent
  | .hostObserved e => .value (.hostObserved e)
  | .domainObserved e => .value (.domainObserved e)
  | .subdomainObserved e => .value (.subdomainObserved e)
  | .credentialObserved e => .value (.credentialObserved e)
  | .accountObserved e => .value (.accountObserved e)
  | .observationRecorded e => .value (.observationRecorded e)
  | .workDispatched e => .value (.workDispatched e)
  | .workRetried e => .value (.workRetried e)
  | .workCompleted e => .value (.workCompleted e)
  | .conditionResolved e => .value (.conditionResolved e)
  | .decisionRequested e => .value (.decisionRequested e)
  | .decisionCompleted e => .value (.decisionCompleted e)
  | .tokenUsed e => .value (.tokenUsed e)
  | .missionCreated e => .value (.missionCreated e)
  | .missionStarted e => .value (.missionStarted e)
  | .missionProjected e => .value (.missionProjected e)
  | .missionPauseRequested e => .value (.missionPauseRequested e)
  | .missionResumed e => .value (.missionResumed e)
  | .missionDone e => .value (.missionDone e)
  | .missionRewound e => .value (.missionRewound e)
  | .beliefScoreRequested e => .value (.beliefScoreRequested e)
  | .beliefScored e => .value (.beliefScored e)
  | .nodeBeliefSet e => .value (.nodeBeliefSet e)
  | .findingRaised e => .value (.findingRaised e)
  | .scanReconciled e => .value (.scanReconciled e)
  | .labelApplied e => .value (.labelApplied e)
  | .agentRunObserved e => .value (.agentRunObserved e)
  | .hypothesisObserved e => .value (.hypothesisObserved e)
  | .betSettledTrue e => .value (.betSettledTrue e)
  | .betSettledFalse e => .value (.betSettledFalse e)
  | .betSettledByHITL e => .value (.betSettledByHITL e)
  | .edgeOutcomeObserved e => .value (.edgeOutcomeObserved e)
  | .destructiveActionRequested e => .value (.destructiveActionRequested e)
  | .destructiveActionDecided e => .value (.destructiveActionDecided e)
  | .voiPlanRequested e => .value (.voiPlanRequested e)
  | .voiPlanned e => .value (.voiPlanned e)
  | .llmCallObserved e => .value (.llmCallObserved e)
  | .agentToolCallObserved e => .value (.agentToolCallObserved e)
  | .flightRecorderPolicySet e => .value (.flightRecorderPolicySet e)
  | .flightRecorderRetentionSwept e => .value (.flightRecorderRetentionSwept e)
  | .missionOriginated e => .value (.missionOriginated e)
  | .domainPackEnabled e => .value (.domainPackEnabled e)
  | .domainPackDisabled e => .value (.domainPackDisabled e)
  | .betProofSubmittedForReview e => .value (.betProofSubmittedForReview e)
  | .ontologyExtensionProposed e => .value (.ontologyExtensionProposed e)
  | .ontologyExtensionApproved e => .value (.ontologyExtensionApproved e)
  | .ontologyExtensionRejected e => .value (.ontologyExtensionRejected e)
  | ev => .pointer ev

def encodeEvent (J : Json) (ev : Event) : J.Wire :=
  J.marshalEnvelope { kind := ev.kind, payload := J.marshal ev }

/-- `none` where `DecodeEvent` returns an error. -/
def decodeEvent (J : Json) (data : J.Wire) : Option GoEvent := do
  let env ← J.unmarshalEnvelope data
  let type ← eventRegistry.lookup env.kind
  let target ← J.unmarshal type env.payload
  return dereferenceEvent target

lemma eventRegistry_lookup (ev : Event) : eventRegistry.lookup ev.kind = some ev.type := by
  cases ev <;> simp [Event.kind, Event.type, eventRegistry, List.lookup_cons]

lemma decodeEvent_encodeEvent (J : Json) (ev) :
    decodeEvent J (encodeEvent J ev) = some (dereferenceEvent ev) := by
  simp [decodeEvent, encodeEvent, J.envelope_faithful, eventRegistry_lookup, J.faithful]

/-- Events that the reducer would store and that come back from the codec as pointers. -/
def FoldLost : Event → Prop
  | .findingStatusChanged e => validFindingStatus e.status = true
  | .entityObserved e => e.label ≠ "" ∧ e.key ≠ ""
  | _ => False

lemma applyEntityObserved_unkeyed (x e)
    (h : e.label = "" ∨ e.key = "") : applyEntityObserved x e = x := by
  simp [applyEntityObserved, h]

lemma reduceGo_dereferenceEvent (env w) (h : ¬ FoldLost ev) :
    reduceGo env w (dereferenceEvent ev) = reduceGo env w (.value ev) := by
  cases ev with
  | findingStatusChanged e =>
    have invalid : FindingStatus.ofString? e.status = none := by
      simpa [FoldLost, validFindingStatus] using h
    show w = reduce env w (.findingStatusChanged e)
    simp [reduce, checkRun, applyEvent, applyFindingStatusChanged, invalid]
  | entityObserved e =>
    have unk : e.label = "" ∨ e.key = "" := by
      by_contra keyed
      exact h (not_or.mp keyed)
    have kp : ∀ missionID, applyEntityObserved w.evidence { e with missionID } = w.evidence :=
      fun _ => applyEntityObserved_unkeyed _ _ unk
    show w = reduce env w (.entityObserved e)
    unfold reduce
    split
    · rfl
    · simp [applyEvent, detachEvidence, kp]
    · simp [applyEvent, applyEntityObserved_unkeyed _ e unk]
  | _ => rfl

def findingWorld (id : String) (status : FindingStatus) : World where
  tenant := ""
  evidence :=
    { findings := [{ id, title := "", description := "", scopeID := "", address := "",
                     severity := "", status, vulnerabilityID := "", scanScope := "",
                     lastScan := "", submittedBy := "", agentName := "", enrolledBy := "" }] }

lemma reduce_findingStatusChanged_ne (env) (h : validFindingStatus e.status = true) :
    ∃ w, reduce env w (.findingStatusChanged e) ≠ w := by
  obtain ⟨sta, hpar⟩ := Option.isSome_iff_exists.mp h
  obtain ⟨ho, dif⟩ : ∃ ho : FindingStatus, ho ≠ sta := by
    cases sta
    · exact ⟨.fixed, by decide⟩
    · exact ⟨.isOpen, by decide⟩
    · exact ⟨.isOpen, by decide⟩
    · exact ⟨.isOpen, by decide⟩
  refine ⟨findingWorld e.id ho, fun hs => ?_⟩
  have sta0 := congrArg (fun w => w.evidence.findings.map Finding.status) hs
  simp [reduce, checkRun, applyEvent, applyFindingStatusChanged, hpar, findingWorld,
    Rows.updateFirst] at sta0
  exact dif sta0.symm

lemma reduce_entityObserved_ne (env)
    (h : e.label ≠ "" ∧ e.key ≠ "") : ∃ w, reduce env w (.entityObserved e) ≠ w := by
  have cur : (checkRun (newWorld "").control (.entityObserved e)).verdict = .runCurrent := by
    simp [checkRun, missionRunCheck, findMission, newWorld]
  refine ⟨newWorld "", fun hs => ?_⟩
  simp only [reduce, cur] at hs
  have hcts := congrArg (fun w => w.evidence.entities.length) hs
  simp [applyEvent, applyEntityObserved, h.1, h.2, newWorld] at hcts

/-- The codec is transparent to the fold of an event, in every World, exactly when the event is
not one that the dereference switch misses. -/
theorem codec_transparent_iff (J : Json) (env : Env) (ev : Event) :
    (∀ w, ∃ decoded, decodeEvent J (encodeEvent J ev) = some decoded ∧
      reduceGo env w decoded = reduceGo env w (.value ev)) ↔ ¬ FoldLost ev := by
  constructor
  · intro tra lost
    obtain ⟨pointer, w, cha⟩ : dereferenceEvent ev = .pointer ev ∧ ∃ w, reduce env w ev ≠ w := by
      cases ev with
      | findingStatusChanged e => exact ⟨rfl, reduce_findingStatusChanged_ne env lost⟩
      | entityObserved e => exact ⟨rfl, reduce_entityObserved_ne env lost⟩
      | _ => exact lost.elim
    obtain ⟨decoded, hde, hs⟩ := tra w
    rw [decodeEvent_encodeEvent, pointer, Option.some.injEq] at hde
    subst hde
    exact cha hs.symm
  · intro kp w
    exact ⟨_, decodeEvent_encodeEvent J ev, reduceGo_dereferenceEvent env w kp⟩

def Json.plain : Json where
  Payload := Event
  Wire := EventEnvelope Event
  marshal := id
  unmarshal type ev := if ev.type = type then some ev else none
  marshalEnvelope := id
  unmarshalEnvelope := some
  faithful ev := by simp
  envelope_faithful _ := rfl

/-- A finding marked as fixed is still open once its event went through the Timeline store. -/
theorem codec_loses_status_change : ¬ ∃ decoded,
      decodeEvent Json.plain (encodeEvent Json.plain
        (.findingStatusChanged { id := "f1", status := "fixed", missionID := "m1" })) =
          some decoded ∧
      reduceGo Env.plain (findingWorld "f1" .isOpen) decoded =
        reduceGo Env.plain (findingWorld "f1" .isOpen)
          (.value (.findingStatusChanged { id := "f1", status := "fixed", missionID := "m1" })) := by
  rintro ⟨decoded, hde, hs⟩
  rw [decodeEvent_encodeEvent, Option.some.injEq] at hde
  subst hde
  have sta := congrArg (fun w => w.evidence.findings.map Finding.status) hs
  exact absurd sta (by decide)

end Gibson.Brain
