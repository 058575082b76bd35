import Gibson.Brain.Systems

/-! The serialised form of a World and the World that is rebuilt from it by synthetic events. The
ontology gate and its proposals are in no view. -/

namespace Gibson.Brain

open Rows

/-- A host in a snapshot. -/
structure HostSnapshot where
  id : Nat
  (scopeID address sshHostKey cloudID : String)
  openPorts : List Int
  services : AList (fun _ : Int => ServiceInfo)
  endpoints : AList (fun _ : Int => List EndpointInfo)
  technologies : AList (fun _ : Int => List TechnologyInfo)
  certificates : AList (fun _ : Int => CertificateInfo)
  surprise : String
  belief : Belief
  causeEdgeTypes : List String
  (missionID evidenceDigest : String)

def portDetail {V : Type} (ports : List PortObservation) (detail : PortObservation → V)
    (isZero : V → Bool) : AList (fun _ : Int => V) :=
  ports.foldl
    (fun out p => if p.isOpen && !isZero (detail p) then out.insert p.number (detail p) else out) ∅

def Host.snapshot (h : Host) : HostSnapshot where
  id := h.id
  scopeID := h.scopeID
  address := h.address
  sshHostKey := h.sshHostKey
  cloudID := h.cloudID
  openPorts := sortBy (fun n : Int => n)
    ((h.ports.filter PortObservation.isOpen).map PortObservation.number)
  services := portDetail h.ports PortObservation.service (· == {})
  endpoints := portDetail h.ports PortObservation.endpoints List.isEmpty
  technologies := portDetail h.ports PortObservation.technologies List.isEmpty
  certificates := portDetail h.ports PortObservation.certificate (· == {})
  surprise := h.surprise.getD ""
  belief := h.belief
  causeEdgeTypes := h.causeEdgeTypes
  missionID := h.missionID
  evidenceDigest := h.evidenceDigest

def sortedEntries {V : Type} (m : StringMap V) : List (String × V) :=
  sortBy Prod.fst (m.entries.map fun kv => (kv.1, kv.2))

/-- What a snapshot holds. -/
structure WorldSnapshotData where
  hosts : List HostSnapshot
  missions : List Mission
  work : List WorkItem
  findings : List Finding
  labels : List Label
  domains : List Domain
  subdomains : List Subdomain
  credentials : List Credential
  accounts : List Account
  agentRuns : List AgentRun
  llmCalls : List LlmCall
  decisions : List DecisionRecord
  observations : List Observation
  entities : List Entity
  hypotheses : List Hypothesis
  betSettlements : List BetSettlement
  nodeBeliefs : List NodeBeliefRecord
  edgeOutcomes : List (String × EdgeOutcomeCount)
  destructiveActions : List DestructiveAction
  voiPlans : List VoIPlanState
  agentToolCalls : List AgentToolCall
  flightRecorderPolicy : FlightRecorderPolicy
  domainPacks : List (String × DomainPackState)
  missionLineage : List MissionLineage
  proofReviews : List BetProofSubmittedForReview
  missionRewinds : List MissionRewind
  (nextHostID nextDomainID nextSubdomainID nextCredentialID nextAccountID nextObservationID : Nat)
  (nextEntityID nextHypothesisID nextCompletedSeq : Nat)

def Evidence.proofReviewSnapshot (x : Evidence) : List BetProofSubmittedForReview :=
  ((sortedEntries x.proofReviews).filter fun r =>
    !x.betSettlements.any (·.hypothesisID == r.1)).map Prod.snd

def snapshotWorld (w : World) : WorldSnapshotData :=
  let c := w.control
  let x := w.evidence
  { hosts := sortBy (fun h => toLex (h.scopeID, toLex (h.address, h.sshHostKey)))
      (x.hostQuery.map Host.snapshot)
    missions := c.missionSnapshot
    work := c.workSnapshot
    findings := sortBy Finding.id x.findings
    labels := sortBy Label.targetID x.labels
    domains := sortBy (fun d => toLex (d.scopeID, d.name)) x.domains
    subdomains := sortBy (fun s => toLex (s.scopeID, s.fqdn)) x.subdomains
    credentials := sortBy (fun s => toLex (s.scopeID, s.secretHash)) x.credentials
    accounts := sortBy (fun a => toLex (a.scopeID, a.identifier)) x.accounts
    agentRuns := sortBy AgentRun.runID x.agentRuns
    llmCalls := sortBy LlmCall.callID x.llmCalls
    decisions := c.decisionSnapshot
    observations := sortBy Observation.eventID x.observations
    entities := sortBy (fun e => toLex (e.label, e.key)) x.entities
    hypotheses := sortBy (fun h => toLex (h.scopeID, h.claim)) x.hypotheses
    betSettlements := sortBy BetSettlement.hypothesisID x.betSettlements
    nodeBeliefs := sortBy (fun r => toLex (r.ref.kind, r.ref.id)) x.nodeBeliefs
    edgeOutcomes := sortedEntries x.edgeOutcomes
    destructiveActions := sortBy DestructiveAction.hypothesisID x.destructiveActions
    voiPlans := c.voiPlanSnapshot
    agentToolCalls := sortBy AgentToolCall.toolCallID x.agentToolCalls
    flightRecorderPolicy := x.flightRecorderPolicy
    domainPacks := sortedEntries x.domainPacks
    missionLineage := (sortedEntries c.missionLineage).map Prod.snd
    proofReviews := x.proofReviewSnapshot
    missionRewinds := (sortedEntries c.missionRewinds).map Prod.snd
    nextHostID := x.nextHostID
    nextDomainID := x.nextDomainID
    nextSubdomainID := x.nextSubdomainID
    nextCredentialID := x.nextCredentialID
    nextAccountID := x.nextAccountID
    nextObservationID := x.nextObservationID
    nextEntityID := x.nextEntityID
    nextHypothesisID := x.nextHypothesisID
    nextCompletedSeq := c.nextCompletedSeq }

def HostSnapshot.event (h : HostSnapshot) : Event :=
  .hostObserved
    { missionID := h.missionID, scopeID := h.scopeID, address := h.address,
      sshHostKey := h.sshHostKey, cloudID := h.cloudID, openPorts := h.openPorts,
      services := h.services, endpoints := h.endpoints, technologies := h.technologies,
      certificates := h.certificates }

def Mission.restoreEvents (m : Mission) : List Event :=
  let start : Event :=
    .missionStarted
      { id := m.id, runID := m.runID, goal := m.goal, beliefModel := m.beliefModel,
        name := m.name, description := m.description, targetID := m.targetID,
        tenantID := m.tenantID, createdBy := m.createdBy }
  match m.status with
  | .pending =>
    [.missionCreated
      { id := m.id, name := m.name, description := m.description, targetID := m.targetID,
        tenantID := m.tenantID, createdBy := m.createdBy }]
  | .running => [start]
  | .paused => [start, .missionPauseRequested { id := m.id }]
  | .completed =>
    [start, .missionDone { id := m.id, reason := m.reason, outcome := some .completed }]
  | .failed => [start, .missionDone { id := m.id, reason := m.reason, outcome := some .failed }]

def WorkItem.restoreEvents (wi : WorkItem) : List Event :=
  wi.dispatchEvent ::
    match wi.state with
    | .running => []
    | .done => [.workCompleted { id := wi.id, result := wi.result, snapshot := wi.snapshot }]
    | .failed => [.workCompleted { id := wi.id, err := wi.err }]
    | .pending =>
      [.workCompleted { id := wi.id, err := "restore:pending" }, .workRetried { id := wi.id }]
    | .skipped => [.workCompleted { id := wi.id, result := wi.result, snapshot := wi.snapshot }]

def Finding.event (f : Finding) : Event :=
  .findingRaised
    { id := f.id, title := f.title, description := f.description, scopeID := f.scopeID,
      address := f.address, severity := f.severity, status := f.status.toString,
      vulnerabilityID := f.vulnerabilityID }

def Label.event (l : Label) : Event :=
  .labelApplied
    { targetID := l.targetID, verdict := l.verdict, severity := l.severity,
      category := l.category, userID := l.userID }

def Domain.event (d : Domain) : Event :=
  .domainObserved { scopeID := d.scopeID, name := d.name }

def Subdomain.event (s : Subdomain) : Event :=
  .subdomainObserved
    { scopeID := s.scopeID, fqdn := s.fqdn, domain := s.domainName, addresses := s.addresses }

def Credential.event (c : Credential) : Event :=
  .credentialObserved
    { scopeID := c.scopeID, secretHash := c.secretHash, username := c.username,
      credentialKind := c.kind }

def Account.event (a : Account) : Event :=
  .accountObserved { scopeID := a.scopeID, identifier := a.identifier, accountKind := a.kind }

def AgentRun.event (r : AgentRun) : Event :=
  .agentRunObserved
    { runID := r.runID, parentRunID := r.parentRunID, agentName := r.agentName,
      scopeID := r.scopeID }

/-- The settlement event of the method that settled the bet. A technique is carried by the first
method only. -/
def BetSettlement.event (s : BetSettlement) : Event :=
  match s.method with
  | .predicate =>
    .betSettledTrue
      { hypothesisID := s.hypothesisID, technique := s.technique,
        predicateType := s.predicateType, evidenceDigest := s.evidenceDigest,
        predictedProbability := s.predictedProbability, brierScore := s.brierScore,
        scopeID := s.scopeID, missionID := s.missionID }
  | .exhaustion =>
    .betSettledFalse
      { hypothesisID := s.hypothesisID, technique := "", attemptBudget := s.attemptBudget,
        attemptsMade := s.attemptsMade, reason := s.reason,
        predictedProbability := s.predictedProbability, brierScore := s.brierScore,
        scopeID := s.scopeID, missionID := s.missionID }
  | .hitl =>
    .betSettledByHITL
      { hypothesisID := s.hypothesisID, verdict := s.verdict, technique := "",
        userID := s.userID, predictedProbability := s.predictedProbability,
        brierScore := s.brierScore, scopeID := s.scopeID, missionID := s.missionID }

def NodeBeliefRecord.event (r : NodeBeliefRecord) : Event :=
  .nodeBeliefSet
    { ref := r.ref, belief := r.belief, evidenceDigest := r.evidenceDigest,
      causeEdgeTypes := r.causeEdgeTypes }

def DestructiveAction.restoreEvents (a : DestructiveAction) : List Event :=
  .destructiveActionRequested
      { hypothesisID := a.hypothesisID, tenant := a.tenant, scopeID := a.scopeID,
        missionID := a.missionID, technique := a.technique, predicateType := a.predicateType,
        blastRadius := a.blastRadius, reversibility := a.reversibility,
        requestedAtUnixMS := a.requestedAtUnixMS } ::
    if a.decided then
      [.destructiveActionDecided
        { hypothesisID := a.hypothesisID, approved := a.approved, userID := a.userID,
          decidedAtUnixMS := a.decidedAtUnixMS }]
    else []

def VoIPlanState.restoreEvents (p : VoIPlanState) : List Event :=
  .voiPlanRequested { missionID := p.missionID, cursor := p.cursor } ::
    if p.inFlight then []
    else [.voiPlanned { missionID := p.missionID, cursor := p.cursor, candidates := p.candidates }]

def MissionRewind.event (r : MissionRewind) : Event :=
  .missionRewound
    { missionID := r.missionID, parentMissionID := r.parentMissionID,
      parentCheckpointID := r.parentCheckpointID, startSnapshot := r.startSnapshot }

def MissionLineage.event (l : MissionLineage) : Event :=
  .missionOriginated
    { missionID := l.missionID, parentMissionID := l.parentMissionID,
      parentWorkID := l.parentWorkID, originatingComponent := l.originatingComponent,
      capabilityGrantID := l.capabilityGrantID }

def domainPackEvent (p : String × DomainPackState) : Event :=
  .domainPackEnabled
    { name := p.1, version := p.2.version, taxonomyNodeLabels := p.2.taxonomyNodeLabels,
      taxonomyRelationshipTypes := p.2.taxonomyRelationshipTypes, predicates := p.2.predicates,
      nonDestructivePredicates := p.2.nonDestructivePredicates, techniques := p.2.techniques,
      beliefSchema := p.2.beliefSchema }

def LlmCall.event (c : LlmCall) : Event :=
  .llmCallObserved
    { callID := c.callID, runID := c.runID, model := c.model, scopeID := c.scopeID,
      promptTokens := c.promptTokens, completionTokens := c.completionTokens,
      messages := c.messages, completion := c.completion,
      completionToolCalls := c.completionToolCalls, recordedAtUnixNano := c.recordedAtUnixNano }

def AgentToolCall.event (c : AgentToolCall) : Event :=
  .agentToolCallObserved
    { toolCallID := c.toolCallID, missionID := c.missionID, runID := c.runID,
      scopeID := c.scopeID, toolName := c.toolName, arguments := c.arguments, result := c.result,
      err := c.err, recordedAtUnixNano := c.recordedAtUnixNano }

def DecisionRecord.restoreEvents (d : DecisionRecord) : List Event :=
  .decisionRequested { missionID := d.missionID, cursor := d.cursor } ::
    if d.status = .completed then [.decisionCompleted { missionID := d.missionID }] else []

def Observation.event (o : Observation) : Event :=
  .observationRecorded
    { eventID := o.eventID, scopeID := o.scopeID, missionID := o.missionID, shape := o.shape,
      payload := o.payload, observedAt := o.observedAt }

def Entity.event (e : Entity) : Event :=
  .entityObserved
    { label := e.label, key := e.key, scopeID := e.scopeID, missionID := e.missionID,
      props := e.props, edges := e.edges }

def Hypothesis.event (h : Hypothesis) : Event :=
  .hypothesisObserved
    { missionID := h.missionID, runID := h.runID, scopeID := h.scopeID, proposer := h.proposer,
      confidence := h.confidence, claim := h.claim, hypothesisID := h.hypothesisID,
      technique := h.technique, references := h.references }

def restoreWork (env : Env) (w : World) (wi : WorkItem) : World :=
  let w' := reduceAll env w wi.restoreEvents
  { w' with
    control := updateWork w'.control wi.id fun it => { it with completedSeq := wi.completedSeq } }

def restoreMissions (env : Env) (d : WorldSnapshotData) (tenant : String) : World :=
  let w := reduce env (newWorld tenant)
    (.flightRecorderPolicySet
      { redact := d.flightRecorderPolicy.redact,
        retentionDays := d.flightRecorderPolicy.retentionDays })
  let w := reduceAll env w ((sortBy HostSnapshot.id d.hosts).map HostSnapshot.event)
  let w := reduceAll env w (d.missions.flatMap Mission.restoreEvents)
  d.work.foldl (restoreWork env) w

def restoreStores (env : Env) (d : WorldSnapshotData) (w : World) : World :=
  let w := reduceAll env w (d.findings.map Finding.event)
  let w := reduceAll env w (d.labels.map Label.event)
  let w := reduceAll env w (d.domains.map Domain.event)
  let w := reduceAll env w (d.subdomains.map Subdomain.event)
  let w := reduceAll env w (d.credentials.map Credential.event)
  let w := reduceAll env w (d.accounts.map Account.event)
  let w := reduceAll env w (d.agentRuns.map AgentRun.event)
  let w := reduceAll env w (d.betSettlements.map BetSettlement.event)
  let w := reduceAll env w (d.nodeBeliefs.map NodeBeliefRecord.event)
  let w :=
    { w with
      evidence :=
        { w.evidence with
          edgeOutcomes := d.edgeOutcomes.foldl (fun m eo => m.insert eo.1 eo.2)
            w.evidence.edgeOutcomes } }
  let w := reduceAll env w (d.destructiveActions.flatMap DestructiveAction.restoreEvents)
  let w := reduceAll env w (d.voiPlans.flatMap VoIPlanState.restoreEvents)
  let w := reduceAll env w (d.proofReviews.map Event.betProofSubmittedForReview)
  let w := reduceAll env w (d.missionRewinds.map MissionRewind.event)
  let w := reduceAll env w (d.missionLineage.map MissionLineage.event)
  let w := reduceAll env w (d.domainPacks.map domainPackEvent)
  let w := reduceAll env w (d.llmCalls.map LlmCall.event)
  reduceAll env w (d.agentToolCalls.map AgentToolCall.event)

/-- The decisions, then the stores whose ids come from a counter, each with its counter. -/
def restoreCounters (env : Env) (d : WorldSnapshotData) (w : World) : World :=
  let w := reduceAll env w (d.decisions.flatMap DecisionRecord.restoreEvents)
  let w := reduceAll env w ((sortBy Observation.id d.observations).map Observation.event)
  let w :=
    { w with
      evidence :=
        { w.evidence with
          nextHostID := d.nextHostID
          nextDomainID := d.nextDomainID
          nextSubdomainID := d.nextSubdomainID
          nextCredentialID := d.nextCredentialID
          nextAccountID := d.nextAccountID
          nextObservationID := d.nextObservationID } }
  let w := reduceAll env w ((sortBy Entity.id d.entities).map Entity.event)
  let w := { w with evidence := { w.evidence with nextEntityID := d.nextEntityID } }
  let w := reduceAll env w ((sortBy Hypothesis.id d.hypotheses).map Hypothesis.event)
  { w with
    control := { w.control with nextCompletedSeq := d.nextCompletedSeq }
    evidence := { w.evidence with nextHypothesisID := d.nextHypothesisID } }

def restoreWorld (env : Env) (d : WorldSnapshotData) (tenant : String) : World :=
  restoreCounters env d (restoreStores env d (restoreMissions env d tenant))

end Gibson.Brain
