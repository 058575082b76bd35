import Mathlib.Data.List.AList

/-! The components of a tenant World. A Go string set is a `List`, a map an `AList`, a nil that the
code tests for is `none`, and a `float64` that no reducer computes on is its bits. -/

namespace Gibson.Brain

/-- A Go `map[string]V`: reads go by key, so the order of the entries is never observed. -/
abbrev StringMap (V : Type) : Type := AList (fun _ : String => V)

/-- A float by its bits. -/
structure Float64 where
  bits : UInt64

inductive WorkState where
  | pending
  | running
  | done
  | failed
  | skipped
  deriving DecidableEq

inductive WorkKind where
  | agent
  | tool
  | plugin
  | job
  | condition
  | join
  | other (name : String)
  deriving DecidableEq

inductive MissionStatus where
  | pending
  | running
  | completed
  | failed
  | paused
  deriving DecidableEq

inductive DecisionStatus where
  | pending
  | completed
  deriving DecidableEq

/-- What a node may reach. -/
structure NodeNetwork where
  research : Bool
  (targets providerHosts : List String)

/-- The model of an LLM slot. -/
structure SlotConfig where
  (provider model : String)
  temperature : Float64
  maxTokens : Int

/-- A node of a mission at work. -/
structure WorkItem where
  (id missionID runID : String)
  kind : WorkKind
  (target input : String := "")
  dependsOn : List String := []
  state : WorkState
  (result err : String := "")
  (maxRetries attempts : Int := 0)
  dependentsRunOnFailure : Bool := false
  completedSeq : Nat := 0
  timeout : Int := 0
  group : String := ""
  limit : Int := 0
  network : Option NodeNetwork := none
  slotPins : Option (StringMap SlotConfig) := none
  startsFrom : String := ""
  (forkable checkpoint : Bool := false)
  (fromSnapshot snapshot : String := "")

/-- A node of a projected mission. -/
structure WorkNode where
  id : String
  kind : WorkKind
  (target input : String := "")
  dependsOn : List String := []
  dependentsRunOnFailure : Bool := false
  (maxRetries timeout : Int := 0)
  group : String := ""
  limit : Int := 0
  network : Option NodeNetwork := none
  slotPins : Option (StringMap SlotConfig) := none
  startsFrom : String := ""
  (forkable checkpoint : Bool := false)
  fromSnapshot : String := ""

/-- The caps of a mission. -/
structure Budget where
  (maxExecutions maxTokens : Int := 0)
  deriving DecidableEq

structure DeciderSlot where
  (provider model : String := "")
  deriving DecidableEq

structure Principal where
  (kind id : String := "")
  deriving DecidableEq

def Principal.isZero (p : Principal) : Bool := p.kind == "" && p.id == ""

/-- The record of a mission. -/
structure Mission where
  id : String
  (runID goal : String := "")
  status : MissionStatus
  reason : String := ""
  budget : Budget := {}
  decisionInFlight : Bool := false
  decisionCursor : Int := -1
  tokensUsed : Int := 0
  deciderSlot : DeciderSlot := {}
  (beliefModel name description targetID tenantID : String := "")
  createdBy : Principal := {}
  reconciled : Bool := false
  deriving DecidableEq

/-- Work that a decision asks for. -/
structure DecisionDispatch where
  workID : String
  kind : WorkKind
  target : String

/-- A decision and its effects. -/
structure DecisionRecord where
  (id missionID : String)
  cursor : Int
  status : DecisionStatus
  dispatches : List DecisionDispatch := []
  outcome : Option MissionStatus := none
  rationale : String := ""

inductive VoICandidateKind where
  | hypothesis
  | evidence

/-- A component that may be called. -/
structure CapabilityRef where
  (kind name : String)
  deriving DecidableEq

/-- A step that a plan weighs. -/
structure VoICandidate where
  kind : VoICandidateKind
  refID : String
  (infoGain surprise resourceCost riskCost reputation stake value : Float64)
  destructive : Bool
  technique : String
  coveringCapabilities : List CapabilityRef

/-- The last plan of a mission. -/
structure VoIPlanState where
  missionID : String
  inFlight : Bool := false
  cursor : Int := 0
  candidates : List VoICandidate := []

/-- The origin of a rewind. -/
structure MissionRewind where
  (missionID parentMissionID parentCheckpointID startSnapshot : String)

/-- Who launched a mission. -/
structure MissionLineage where
  (missionID parentMissionID parentWorkID originatingComponent capabilityGrantID : String)

/-- A service on a port. -/
structure ServiceInfo where
  (protocol name product version : String := "")
  deriving DecidableEq

/-- A path of a web service. -/
structure EndpointInfo where
  path : String
  status : Int

/-- A product on a host. -/
structure TechnologyInfo where
  (name version : String)

/-- A TLS certificate. -/
structure CertificateInfo where
  (fingerprint subject issuer notAfter : String := "")
  deriving DecidableEq

/-- What was seen of a port. -/
structure PortObservation where
  number : Int
  isOpen : Bool
  service : ServiceInfo := {}
  endpoints : List EndpointInfo := []
  technologies : List TechnologyInfo := []
  certificate : CertificateInfo := {}

/-- The marginals of a node. -/
structure Belief where
  (juicy exploitable reachable : Float64 := ⟨0⟩)
  model : String := ""

/-- A host together with the `Surprise` component it may carry. -/
structure Host where
  id : Nat
  (scopeID address sshHostKey cloudID : String)
  ports : List PortObservation := []
  belief : Belief := {}
  causeEdgeTypes : List String := []
  evidenceDigest : String := ""
  missionID : String
  surprise : Option String := none

/-- What a host's belief rests on. -/
structure BeliefEvidence where
  openPorts : List Int
  services : List String
  (reachable findingCritical findingHigh exploitDemonstrated : Bool)

structure Domain where
  id : Nat
  (scopeID name : String)

structure Subdomain where
  id : Nat
  (scopeID fqdn domainName : String)
  addresses : List String

/-- A credential, by its hash. -/
structure Credential where
  id : Nat
  (scopeID secretHash username kind : String)

structure Account where
  id : Nat
  (scopeID identifier kind : String)

structure Observation where
  id : Nat
  (eventID scopeID missionID shape contentHash : String)
  payload : StringMap String
  observedAt : Int

/-- An edge of a generic entity. -/
structure EntityEdge where
  (type targetLabel targetKey : String)
  deriving DecidableEq

/-- A node of an extension type. -/
structure Entity where
  id : Nat
  (label key scopeID missionID : String)
  props : StringMap String
  edges : List EntityEdge

inductive FindingStatus where
  | isOpen
  | fixing
  | fixed
  | verified
  deriving DecidableEq

structure Finding where
  (id title description scopeID address severity : String)
  status : FindingStatus
  (vulnerabilityID scanScope lastScan submittedBy agentName enrolledBy : String)

inductive LabelVerdict where
  | truePositive
  | falsePositive
  | dismiss

/-- A user's verdict on a finding. -/
structure Label where
  targetID : String
  verdict : LabelVerdict
  (severity category userID : String)

structure AgentRun where
  (runID parentRunID agentName scopeID : String)

/-- A model's tool call. -/
structure LlmToolCall where
  (id type name arguments : String)

structure LlmMessage where
  (role content : String)
  name : String := ""
  toolCalls : List LlmToolCall := []
  toolCallID : String := ""

structure LlmCall where
  (callID runID model scopeID : String)
  (promptTokens completionTokens : Int)
  messages : List LlmMessage
  completion : String
  completionToolCalls : List LlmToolCall
  recordedAtUnixNano : Int

structure AgentToolCall where
  (toolCallID missionID runID scopeID toolName arguments result err : String)
  recordedAtUnixNano : Int

/-- What the recorder keeps. -/
structure FlightRecorderPolicy where
  redact : Bool := false
  retentionDays : Int := 0

/-- A node that a claim is about. -/
structure ReferencedEntityRef where
  label : String
  idProperties : StringMap String

/-- A claim with a confidence. -/
structure Hypothesis where
  id : Nat
  (scopeID claim proposer : String)
  confidence : Float64
  references : List ReferencedEntityRef
  (missionID hypothesisID runID technique : String)

inductive SettlementVerdict where
  | verdictTrue
  | verdictFalse

inductive SettlementMethod where
  | predicate
  | exhaustion
  | hitl

/-- How a hypothesis was settled. -/
structure BetSettlement where
  hypothesisID : String
  verdict : SettlementVerdict
  method : SettlementMethod
  (technique predicateType evidenceDigest : String := "")
  (attemptBudget attemptsMade : Int := 0)
  (reason userID : String := "")
  (predictedProbability brierScore : Float64)
  (scopeID missionID : String)

inductive Reversibility where
  | unspecified
  | reversible
  | irreversible

/-- An action that needs approval. -/
structure DestructiveAction where
  (hypothesisID tenant scopeID missionID technique predicateType blastRadius : String)
  reversibility : Reversibility
  requestedAtUnixMS : Int
  (decided approved : Bool := false)
  userID : String := ""
  decidedAtUnixMS : Int := 0

/-- A node of any kind. -/
structure NodeRef where
  (kind id : String)
  deriving DecidableEq

/-- A belief and its evidence. -/
structure NodeBelief where
  belief : Belief
  evidenceDigest : String
  causeEdgeTypes : List String

/-- A node with its belief. -/
structure ScoredNode where
  ref : NodeRef
  belief : NodeBelief

/-- A variable and its parents. -/
structure BeliefVariable where
  name : String
  dependsOn : List String

/-- A node of the attack graph. -/
structure AttackGraphNode where
  (id kind : String)
  beliefVariables : List BeliefVariable
  potential : Int

/-- An edge of the attack graph. -/
structure InfraEdge where
  (type fromID toID : String)
  deriving DecidableEq

/-- A graph, with its cut edges. -/
structure AttackGraph where
  nodes : List AttackGraphNode
  (edges dropped : List InfraEdge)

/-- The stored belief of a node. -/
structure NodeBeliefRecord where
  ref : NodeRef
  belief : Belief := {}
  evidenceDigest : String := ""
  causeEdgeTypes : List String := []

/-- Successes and failures of one enablement-edge type. The counts are whole numbers that the
code keeps in a `float64`. -/
structure EdgeOutcomeCount where
  (alpha beta : Nat := 0)

/-- The variables of a node type. -/
structure NodeBeliefSchema where
  nodeType : String
  beliefVariables : List BeliefVariable

/-- An enabling edge type. -/
structure EnablementEdgeSpec where
  (relType targetVariable : String)

/-- What a pack adds to the schema. -/
structure BeliefSchemaExtension where
  nodes : List NodeBeliefSchema
  enablementEdges : List EnablementEdgeSpec

/-- An enabled domain pack. -/
structure DomainPackState where
  version : Int
  (taxonomyNodeLabels taxonomyRelationshipTypes : List String)
  predicates : StringMap String
  nonDestructivePredicates : List String
  techniques : StringMap String
  beliefSchema : BeliefSchemaExtension

/-- A piece of proof. -/
structure ProofReviewEvidence where
  (type title content : String)

inductive ProposalKind where
  | nodeLabel
  | relationshipType
  deriving DecidableEq

/-- The key of a proposal. -/
structure OntologyProposalKey where
  kind : ProposalKind
  label : String
  deriving DecidableEq

inductive OntologyProposalStatus where
  | pending
  | approved
  | rejected
  deriving DecidableEq

/-- A proposal and its count. -/
structure OntologyProposalState where
  proposalKind : ProposalKind
  label : String
  recurrence : Nat := 0
  (lastProposer lastClaim : String := "")
  status : OntologyProposalStatus := .pending
  (reviewer rejectReason : String := "")
  promoted : Bool := false
  promotedVersion : Nat := 0

end Gibson.Brain
