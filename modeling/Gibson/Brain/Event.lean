import Gibson.Brain.Component

/-! The domain events of the Timeline. A field `runID` or `missionRunID` names the run that the
event belongs to, with `""` for an event that is not run-scoped. -/

namespace Gibson.Brain

structure WorkDispatched where
  id : String
  (missionID runID : String := "")
  itemKind : WorkKind
  (target input : String := "")
  timeout : Int := 0
  group : String := ""
  limit : Int := 0
  network : Option NodeNetwork := none
  slotPins : Option (StringMap SlotConfig) := none
  startsFrom : String := ""
  (forkable checkpoint : Bool := false)
  fromSnapshot : String := ""

structure WorkRetried where
  id : String

structure WorkCompleted where
  id : String
  (runID result err snapshot : String := "")

structure ConditionResolved where
  id : String
  result : Bool
  skip : List String

structure DecisionRequested where
  missionID : String
  cursor : Int
  runID : String := ""

structure DecisionCompleted where
  missionID : String
  runID : String := ""

structure VoIPlanRequested where
  missionID : String
  cursor : Int
  runID : String := ""

structure VoIPlanned where
  missionID : String
  runID : String := ""
  cursor : Int := 0
  candidates : List VoICandidate := []

structure TokenUsed where
  missionID : String
  tokens : Int

structure MissionCreated where
  id : String
  (name description targetID tenantID : String := "")
  createdBy : Principal := {}

structure MissionStarted where
  id : String
  (goal runID beliefModel name description targetID tenantID : String := "")
  createdBy : Principal := {}

structure MissionProjected where
  id : String
  goal : String := ""
  budget : Budget := {}
  nodes : List WorkNode := []
  deciderSlot : DeciderSlot := {}
  (beliefModel name description targetID tenantID runID : String := "")

structure MissionPauseRequested where
  id : String
  runID : String := ""

structure MissionResumed where
  id : String
  runID : String := ""

structure MissionDone where
  id : String
  reason : String := ""
  outcome : Option MissionStatus := none
  runID : String := ""

structure MissionRewound where
  (missionID parentMissionID parentCheckpointID : String)
  startSnapshot : String := ""

structure MissionOriginated where
  (missionID parentMissionID parentWorkID originatingComponent capabilityGrantID : String)

structure ScanReconciled where
  missionID : String

structure HostObserved where
  (missionID missionRunID : String := "")
  (scopeID address : String)
  (sshHostKey cloudID : String := "")
  openPorts : List Int := []
  services : AList (fun _ : Int => ServiceInfo) := ∅
  endpoints : AList (fun _ : Int => List EndpointInfo) := ∅
  technologies : AList (fun _ : Int => List TechnologyInfo) := ∅
  certificates : AList (fun _ : Int => CertificateInfo) := ∅

structure DomainObserved where
  (scopeID name : String)

structure SubdomainObserved where
  (scopeID fqdn domain : String)
  addresses : List String

structure CredentialObserved where
  (scopeID secretHash username credentialKind : String)

structure AccountObserved where
  (scopeID identifier accountKind : String)

structure ObservationRecorded where
  (eventID scopeID missionID : String)
  missionRunID : String := ""
  shape : String
  payload : StringMap String
  observedAt : Int

structure EntityObserved where
  (label key scopeID missionID : String)
  missionRunID : String := ""
  props : StringMap String
  edges : List EntityEdge

structure HypothesisObserved where
  missionID : String
  missionRunID : String := ""
  (runID scopeID proposer : String)
  confidence : Float64
  (claim hypothesisID technique : String)
  references : List ReferencedEntityRef

structure AgentRunObserved where
  (runID parentRunID agentName scopeID : String)

structure LlmCallObserved where
  callID : String
  (missionID missionRunID : String := "")
  (runID model scopeID : String)
  (promptTokens completionTokens : Int)
  messages : List LlmMessage
  completion : String
  completionToolCalls : List LlmToolCall
  recordedAtUnixNano : Int

structure AgentToolCallObserved where
  (toolCallID missionID : String)
  missionRunID : String := ""
  (runID scopeID toolName arguments result err : String)
  recordedAtUnixNano : Int

structure BeliefScoreRequested where
  hostID : Nat
  evidence : BeliefEvidence

structure BeliefScored where
  hostID : Nat
  belief : Belief
  evidenceDigest : String
  causeEdgeTypes : List String

structure SliceScoreRequested where
  target : String
  slice : AttackGraph
  digest : String

structure SliceScored where
  target : String
  nodes : List ScoredNode
  digest : String

structure NodeBeliefSet where
  ref : NodeRef
  belief : Belief
  evidenceDigest : String
  causeEdgeTypes : List String

structure EdgeOutcomeObserved where
  edgeType : String
  success : Bool
  (missionID scopeID : String)

structure FindingRaised where
  (id title description scopeID address severity : String)
  (missionID missionRunID status vulnerabilityID submittedBy agentName enrolledBy : String := "")

structure FindingStatusChanged where
  (id status missionID : String)

structure LabelApplied where
  targetID : String
  verdict : LabelVerdict
  (severity category userID : String)

structure BetSettledTrue where
  (hypothesisID technique predicateType evidenceDigest : String)
  (predictedProbability brierScore : Float64)
  (scopeID missionID : String)

structure BetSettledFalse where
  (hypothesisID technique : String)
  (attemptBudget attemptsMade : Int)
  reason : String
  (predictedProbability brierScore : Float64)
  (scopeID missionID : String)

structure BetSettledByHITL where
  hypothesisID : String
  verdict : SettlementVerdict
  (technique userID : String)
  (predictedProbability brierScore : Float64)
  (scopeID missionID : String)

structure BetProofSubmittedForReview where
  (hypothesisID missionID scopeID technique : String)
  evidence : List ProofReviewEvidence
  submittedAtUnixNano : Int

structure DestructiveActionRequested where
  (hypothesisID tenant scopeID missionID technique predicateType : String)
  requestedAtUnixMS : Int
  blastRadius : String := ""
  reversibility : Reversibility := .unspecified

structure DestructiveActionDecided where
  hypothesisID : String
  approved : Bool
  userID : String
  decidedAtUnixMS : Int

structure FlightRecorderPolicySet where
  redact : Bool
  retentionDays : Int

structure FlightRecorderRetentionSwept where
  cutoffUnixNano : Int

structure DomainPackEnabled where
  name : String
  version : Int
  (taxonomyNodeLabels taxonomyRelationshipTypes : List String)
  predicates : StringMap String
  nonDestructivePredicates : List String
  techniques : StringMap String
  beliefSchema : BeliefSchemaExtension

structure DomainPackDisabled where
  name : String

structure OntologyExtensionProposed where
  proposalKind : ProposalKind
  (label proposer claim : String)

structure OntologyExtensionApproved where
  proposalKind : ProposalKind
  (label reviewer : String)

structure OntologyExtensionRejected where
  proposalKind : ProposalKind
  (label reviewer reason : String)

/-- A domain event: acting is emitting one of these. -/
inductive Event where
  | hostObserved (e : HostObserved)
  | domainObserved (e : DomainObserved)
  | subdomainObserved (e : SubdomainObserved)
  | credentialObserved (e : CredentialObserved)
  | accountObserved (e : AccountObserved)
  | workDispatched (e : WorkDispatched)
  | workRetried (e : WorkRetried)
  | workCompleted (e : WorkCompleted)
  | conditionResolved (e : ConditionResolved)
  | decisionRequested (e : DecisionRequested)
  | decisionCompleted (e : DecisionCompleted)
  | tokenUsed (e : TokenUsed)
  | missionCreated (e : MissionCreated)
  | missionStarted (e : MissionStarted)
  | missionProjected (e : MissionProjected)
  | missionPauseRequested (e : MissionPauseRequested)
  | missionResumed (e : MissionResumed)
  | missionDone (e : MissionDone)
  | missionRewound (e : MissionRewound)
  | missionOriginated (e : MissionOriginated)
  | scanReconciled (e : ScanReconciled)
  | voiPlanRequested (e : VoIPlanRequested)
  | voiPlanned (e : VoIPlanned)
  | beliefScoreRequested (e : BeliefScoreRequested)
  | beliefScored (e : BeliefScored)
  | sliceScoreRequested (e : SliceScoreRequested)
  | sliceScored (e : SliceScored)
  | nodeBeliefSet (e : NodeBeliefSet)
  | edgeOutcomeObserved (e : EdgeOutcomeObserved)
  | findingRaised (e : FindingRaised)
  | findingStatusChanged (e : FindingStatusChanged)
  | labelApplied (e : LabelApplied)
  | agentRunObserved (e : AgentRunObserved)
  | hypothesisObserved (e : HypothesisObserved)
  | betSettledTrue (e : BetSettledTrue)
  | betSettledFalse (e : BetSettledFalse)
  | betSettledByHITL (e : BetSettledByHITL)
  | betProofSubmittedForReview (e : BetProofSubmittedForReview)
  | destructiveActionRequested (e : DestructiveActionRequested)
  | destructiveActionDecided (e : DestructiveActionDecided)
  | llmCallObserved (e : LlmCallObserved)
  | agentToolCallObserved (e : AgentToolCallObserved)
  | flightRecorderPolicySet (e : FlightRecorderPolicySet)
  | flightRecorderRetentionSwept (e : FlightRecorderRetentionSwept)
  | observationRecorded (e : ObservationRecorded)
  | entityObserved (e : EntityObserved)
  | domainPackEnabled (e : DomainPackEnabled)
  | domainPackDisabled (e : DomainPackDisabled)
  | ontologyExtensionProposed (e : OntologyExtensionProposed)
  | ontologyExtensionApproved (e : OntologyExtensionApproved)
  | ontologyExtensionRejected (e : OntologyExtensionRejected)

/-- The `Kind()` method of each event type. -/
def Event.kind : Event → String
  | .hostObserved _ => "host.observed"
  | .domainObserved _ => "domain.observed"
  | .subdomainObserved _ => "subdomain.observed"
  | .credentialObserved _ => "credential.observed"
  | .accountObserved _ => "account.observed"
  | .workDispatched _ => "work.dispatched"
  | .workRetried _ => "work.retried"
  | .workCompleted _ => "work.completed"
  | .conditionResolved _ => "condition.resolved"
  | .decisionRequested _ => "decision.requested"
  | .decisionCompleted _ => "decision.completed"
  | .tokenUsed _ => "token.used"
  | .missionCreated _ => "mission.created"
  | .missionStarted _ => "mission.started"
  | .missionProjected _ => "mission.projected"
  | .missionPauseRequested _ => "mission.pause"
  | .missionResumed _ => "mission.resume"
  | .missionDone _ => "mission.done"
  | .missionRewound _ => "mission.rewound"
  | .missionOriginated _ => "mission.originated"
  | .scanReconciled _ => "scan.reconciled"
  | .voiPlanRequested _ => "voi.plan.requested"
  | .voiPlanned _ => "voi.plan.completed"
  | .beliefScoreRequested _ => "belief.requested"
  | .beliefScored _ => "belief.scored"
  | .sliceScoreRequested _ => "belief.slice_requested"
  | .sliceScored _ => "belief.slice_scored"
  | .nodeBeliefSet _ => "node_belief.set"
  | .edgeOutcomeObserved _ => "edge.outcome_observed"
  | .findingRaised _ => "finding.raised"
  | .findingStatusChanged _ => "finding.status_changed"
  | .labelApplied _ => "label.applied"
  | .agentRunObserved _ => "agent_run.observed"
  | .hypothesisObserved _ => "hypothesis.observed"
  | .betSettledTrue _ => "bet.settled_true"
  | .betSettledFalse _ => "bet.settled_false"
  | .betSettledByHITL _ => "bet.settled_by_hitl"
  | .betProofSubmittedForReview _ => "bet.proof_submitted_for_review"
  | .destructiveActionRequested _ => "destructive_action.requested"
  | .destructiveActionDecided _ => "destructive_action.decided"
  | .llmCallObserved _ => "llm_call.observed"
  | .agentToolCallObserved _ => "agent_tool_call.observed"
  | .flightRecorderPolicySet _ => "flight_recorder.policy_set"
  | .flightRecorderRetentionSwept _ => "flight_recorder.retention_swept"
  | .observationRecorded _ => "observation.recorded"
  | .entityObserved _ => "entity.observed"
  | .domainPackEnabled _ => "domain_pack.enabled"
  | .domainPackDisabled _ => "domain_pack.disabled"
  | .ontologyExtensionProposed _ => "ontology_extension.proposed"
  | .ontologyExtensionApproved _ => "ontology_extension.approved"
  | .ontologyExtensionRejected _ => "ontology_extension.rejected"

end Gibson.Brain
