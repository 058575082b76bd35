import Gibson.Brain.Control
import Mathlib.Data.List.Induction

/-! The reducers of the evidence stores, which write nothing of mission control, and what a run of
calls on the promotion gate leaves in the taxonomy. -/

namespace Gibson.Brain

open Rows

/-- Hosts in query order: the ECS keeps a host with a `Surprise` in a second archetype. -/
def Evidence.hostQuery (x : Evidence) : List Host :=
  x.hosts.filter (·.surprise.isNone) ++ x.hosts.filter (·.surprise.isSome)

def updateHost (x : Evidence) (id : Nat) (f : Host → Host) : Evidence :=
  { x with hosts := updateFirst (·.id == id) f x.hosts }

def strongMatch (e : HostObserved) (h : Host) : Bool :=
  h.scopeID == e.scopeID &&
    ((e.sshHostKey != "" && h.sshHostKey == e.sshHostKey) ||
      (e.cloudID != "" && h.cloudID == e.cloudID))

def coordMatch (e : HostObserved) (h : Host) : Bool :=
  h.scopeID == e.scopeID && h.address == e.address

def signalMismatch (e : HostObserved) (h : Host) : Bool :=
  (e.sshHostKey != "" && h.sshHostKey != "" && e.sshHostKey != h.sshHostKey) ||
    (e.cloudID != "" && h.cloudID != "" && e.cloudID != h.cloudID)

inductive HostMatch where
  | matched (id : Nat)
  | contradiction
  | unmatched

def resolveHost (x : Evidence) (e : HostObserved) : HostMatch :=
  match x.hostQuery.find? (strongMatch e) with
  | some h => .matched h.id
  | none =>
    match x.hostQuery.find? (coordMatch e) with
    | some h => if signalMismatch e h then .contradiction else .matched h.id
    | none => .unmatched

def enrichService (dst obs : ServiceInfo) : ServiceInfo where
  protocol := orKept obs.protocol dst.protocol
  name := orKept obs.name dst.name
  product := orKept obs.product dst.product
  version := orKept obs.version dst.version

def upsertEndpoint (eps : List EndpointInfo) (obs : EndpointInfo) : List EndpointInfo :=
  upsert (·.path == obs.path)
    (fun ep => if obs.status ≠ 0 then { ep with status := obs.status } else ep) obs eps

def upsertTechnology (techs : List TechnologyInfo) (obs : TechnologyInfo) : List TechnologyInfo :=
  upsert (·.name == obs.name)
    (fun t => if obs.version ≠ "" then { t with version := obs.version } else t) obs techs

def enrichPortDetail (e : HostObserved) (p : PortObservation) : PortObservation :=
  { p with
    service := ((e.services.lookup p.number).map (enrichService p.service)).getD p.service
    endpoints := ((e.endpoints.lookup p.number).getD []).foldl upsertEndpoint p.endpoints
    technologies := ((e.technologies.lookup p.number).getD []).foldl upsertTechnology p.technologies
    certificate :=
      match e.certificates.lookup p.number with
      | some cert => if cert ≠ {} then cert else p.certificate
      | none => p.certificate }

def reconcilePorts (e : HostObserved) (ports : List PortObservation) : List PortObservation :=
  e.openPorts.foldl
    (fun ps n =>
      if ps.any (·.number == n) then ps
      else ps ++ [enrichPortDetail e { number := n, isOpen := true }])
    (ports.map fun p => enrichPortDetail e { p with isOpen := e.openPorts.contains p.number })

def surpriseReason : String := "address reused by a different host (strong-signal mismatch)"

def newHost (x : Evidence) (e : HostObserved) (surprise : Option String) : Evidence :=
  { x with
    nextHostID := x.nextHostID + 1
    hosts := x.hosts ++
      [{ id := x.nextHostID + 1, scopeID := e.scopeID, address := e.address,
         sshHostKey := e.sshHostKey, cloudID := e.cloudID, missionID := e.missionID,
         ports := reconcilePorts e [], surprise }] }

def applyHostObserved (x : Evidence) (e : HostObserved) : Evidence :=
  match resolveHost x e with
  | .contradiction => newHost x e (some surpriseReason)
  | .unmatched => newHost x e none
  | .matched id =>
    updateHost x id fun h =>
      { h with
        sshHostKey := orKept h.sshHostKey e.sshHostKey
        cloudID := orKept h.cloudID e.cloudID
        missionID := orKept h.missionID e.missionID
        ports := reconcilePorts e h.ports }

def applyBeliefScoreRequested (env : Env) (x : Evidence) (e : BeliefScoreRequested) : Evidence :=
  updateHost x e.hostID fun h => { h with evidenceDigest := env.evidenceDigest e.evidence }

def applyBeliefScored (x : Evidence) (e : BeliefScored) : Evidence :=
  updateHost x e.hostID fun h =>
    if h.evidenceDigest ≠ e.evidenceDigest then h
    else { h with belief := e.belief, causeEdgeTypes := e.causeEdgeTypes }

def applyDomainObserved (x : Evidence) (e : DomainObserved) : Evidence :=
  if x.domains.any (fun d => d.scopeID == e.scopeID && d.name == e.name) then x
  else
    { x with
      nextDomainID := x.nextDomainID + 1
      domains := x.domains ++ [{ id := x.nextDomainID + 1, scopeID := e.scopeID, name := e.name }] }

def unionAddresses (existing observed : List String) : List String :=
  sortBy id (existing ++ observed.filter (· ≠ "")).dedup

def applySubdomainObserved (x : Evidence) (e : SubdomainObserved) : Evidence :=
  let same := fun s : Subdomain => s.scopeID == e.scopeID && s.fqdn == e.fqdn
  if x.subdomains.any same then
    { x with
      subdomains := updateFirst same
        (fun s => { s with domainName := orKept s.domainName e.domain
                           addresses := unionAddresses s.addresses e.addresses }) x.subdomains }
  else
    { x with
      nextSubdomainID := x.nextSubdomainID + 1
      subdomains := x.subdomains ++
        [{ id := x.nextSubdomainID + 1, scopeID := e.scopeID, fqdn := e.fqdn,
           domainName := e.domain, addresses := unionAddresses [] e.addresses }] }

def applyCredentialObserved (x : Evidence) (e : CredentialObserved) : Evidence :=
  let same := fun c : Credential => c.scopeID == e.scopeID && c.secretHash == e.secretHash
  if x.credentials.any same then
    { x with
      credentials := updateFirst same
        (fun c => { c with username := orKept c.username e.username
                           kind := orKept c.kind e.credentialKind }) x.credentials }
  else
    { x with
      nextCredentialID := x.nextCredentialID + 1
      credentials := x.credentials ++
        [{ id := x.nextCredentialID + 1, scopeID := e.scopeID, secretHash := e.secretHash,
           username := e.username, kind := e.credentialKind }] }

def applyAccountObserved (x : Evidence) (e : AccountObserved) : Evidence :=
  let same := fun a : Account => a.scopeID == e.scopeID && a.identifier == e.identifier
  if x.accounts.any same then
    { x with
      accounts := updateFirst same
        (fun a => { a with kind := orKept a.kind e.accountKind }) x.accounts }
  else
    { x with
      nextAccountID := x.nextAccountID + 1
      accounts := x.accounts ++
        [{ id := x.nextAccountID + 1, scopeID := e.scopeID, identifier := e.identifier,
           kind := e.accountKind }] }

def applyObservationRecorded (env : Env) (x : Evidence) (e : ObservationRecorded) : Evidence :=
  if e.eventID = "" ∨ x.observations.any (·.eventID == e.eventID) then x
  else
    { x with
      nextObservationID := x.nextObservationID + 1
      observations := x.observations ++
        [{ id := x.nextObservationID + 1, eventID := e.eventID, scopeID := e.scopeID,
           missionID := e.missionID, shape := e.shape,
           contentHash := env.contentHash e.shape e.payload, payload := e.payload,
           observedAt := e.observedAt }] }

def unionEdges (base add : List EntityEdge) : List EntityEdge :=
  add.foldl
    (fun out edge =>
      if edge.type = "" ∨ edge.targetLabel = "" ∨ edge.targetKey = "" ∨ edge ∈ out then out
      else out ++ [edge])
    base

def isEntity (e : EntityObserved) (ent : Entity) : Bool :=
  ent.label == e.label && ent.key == e.key

def Entity.merge (e : EntityObserved) (ent : Entity) : Entity :=
  { ent with
    props := e.props ∪ ent.props
    edges := unionEdges ent.edges e.edges
    missionID := orKept ent.missionID e.missionID }

def applyEntityObserved (x : Evidence) (e : EntityObserved) : Evidence :=
  if e.label = "" ∨ e.key = "" then x
  else if x.entities.any (isEntity e) then
    { x with entities := updateFirst (isEntity e) (Entity.merge e) x.entities }
  else
    { x with
      nextEntityID := x.nextEntityID + 1
      entities := x.entities ++
        [{ id := x.nextEntityID + 1, label := e.label, key := e.key, scopeID := e.scopeID,
           missionID := e.missionID, props := e.props, edges := unionEdges [] e.edges }] }

def FindingStatus.ofString? : String → Option FindingStatus
  | "open" => some .isOpen
  | "fixing" => some .fixing
  | "fixed" => some .fixed
  | "verified" => some .verified
  | _ => none

def FindingStatus.toString : FindingStatus → String
  | .isOpen => "open"
  | .fixing => "fixing"
  | .fixed => "fixed"
  | .verified => "verified"

def validFindingStatus (s : String) : Bool := (FindingStatus.ofString? s).isSome

def scanMissionName : String := "scan"

def scanProvenance (c : Control) (missionID : String) : String × String :=
  if missionID = "" then ("", "")
  else
    match c.missionSnapshot.find? fun m =>
        m.id == missionID && m.name == scanMissionName && m.runID != "" with
    | some m => (m.targetID, m.runID)
    | none => ("", "")

def applyFindingRaised (c : Control) (x : Evidence) (e : FindingRaised) : Evidence :=
  let (scope, scan) := scanProvenance c e.missionID
  { x with
    findings := upsert (·.id == e.id)
      (fun f =>
        if scan ≠ "" then { f with lastScan := scan, scanScope := orKept f.scanScope scope }
        else f)
      { id := e.id, title := e.title, description := e.description, scopeID := e.scopeID,
        address := e.address, severity := e.severity,
        status := (FindingStatus.ofString? e.status).getD .isOpen,
        vulnerabilityID := e.vulnerabilityID, scanScope := scope, lastScan := scan,
        submittedBy := e.submittedBy, agentName := e.agentName, enrolledBy := e.enrolledBy }
      x.findings }

def applyFindingStatusChanged (x : Evidence) (e : FindingStatusChanged) : Evidence :=
  match FindingStatus.ofString? e.status with
  | none => x
  | some status =>
    { x with findings := updateFirst (·.id == e.id) (fun f => { f with status }) x.findings }

def applyLabelApplied (x : Evidence) (e : LabelApplied) : Evidence :=
  { x with
    labels := upsert (·.targetID == e.targetID)
      (fun l => { l with verdict := e.verdict, severity := e.severity, category := e.category,
                         userID := e.userID })
      { targetID := e.targetID, verdict := e.verdict, severity := e.severity,
        category := e.category, userID := e.userID }
      x.labels }

def applyAgentRunObserved (x : Evidence) (e : AgentRunObserved) : Evidence :=
  if e.runID = "" then x
  else
    { x with
      agentRuns := upsert (·.runID == e.runID)
        (fun r => { r with parentRunID := orKept r.parentRunID e.parentRunID
                           agentName := orKept r.agentName e.agentName
                           scopeID := orKept r.scopeID e.scopeID })
        { runID := e.runID, parentRunID := e.parentRunID, agentName := e.agentName,
          scopeID := e.scopeID }
        x.agentRuns }

def redactForTenant (env : Env) (x : Evidence) (text : String) : String :=
  if text = "" ∨ x.flightRecorderPolicy.redact = false then text else env.redactSecrets text

def redactToolCalls (env : Env) (x : Evidence) (calls : List LlmToolCall) : List LlmToolCall :=
  calls.map fun c => { c with arguments := redactForTenant env x c.arguments }

def redactMessages (env : Env) (x : Evidence) (msgs : List LlmMessage) : List LlmMessage :=
  msgs.map fun m =>
    { m with content := redactForTenant env x m.content
             toolCalls := redactToolCalls env x m.toolCalls }

def applyLlmCallObserved (env : Env) (x : Evidence) (e : LlmCallObserved) : Evidence :=
  if e.callID = "" then x
  else
    { x with
      llmCalls := upsert (·.callID == e.callID)
        (fun c =>
          { c with
            runID := orKept c.runID e.runID
            model := orKept c.model e.model
            scopeID := orKept c.scopeID e.scopeID
            promptTokens := if c.promptTokens = 0 then e.promptTokens else c.promptTokens
            completionTokens :=
              if c.completionTokens = 0 then e.completionTokens else c.completionTokens
            messages := if c.messages.isEmpty then redactMessages env x e.messages else c.messages
            completion := orKept c.completion (redactForTenant env x e.completion)
            completionToolCalls :=
              if c.completionToolCalls.isEmpty then redactToolCalls env x e.completionToolCalls
              else c.completionToolCalls
            recordedAtUnixNano :=
              if c.recordedAtUnixNano = 0 then e.recordedAtUnixNano else c.recordedAtUnixNano })
        { callID := e.callID, runID := e.runID, model := e.model, scopeID := e.scopeID,
          promptTokens := e.promptTokens, completionTokens := e.completionTokens,
          messages := redactMessages env x e.messages,
          completion := redactForTenant env x e.completion,
          completionToolCalls := redactToolCalls env x e.completionToolCalls,
          recordedAtUnixNano := e.recordedAtUnixNano }
        x.llmCalls }

def applyAgentToolCallObserved (env : Env) (x : Evidence) (e : AgentToolCallObserved) : Evidence :=
  if e.toolCallID = "" then x
  else
    { x with
      agentToolCalls := upsert (·.toolCallID == e.toolCallID)
        (fun c =>
          { c with
            missionID := orKept c.missionID e.missionID
            runID := orKept c.runID e.runID
            scopeID := orKept c.scopeID e.scopeID
            toolName := orKept c.toolName e.toolName
            arguments := orKept c.arguments (redactForTenant env x e.arguments)
            result := orKept c.result (redactForTenant env x e.result)
            err := orKept c.err e.err
            recordedAtUnixNano :=
              if c.recordedAtUnixNano = 0 then e.recordedAtUnixNano else c.recordedAtUnixNano })
        { toolCallID := e.toolCallID, missionID := e.missionID, runID := e.runID,
          scopeID := e.scopeID, toolName := e.toolName,
          arguments := redactForTenant env x e.arguments,
          result := redactForTenant env x e.result, err := e.err,
          recordedAtUnixNano := e.recordedAtUnixNano }
        x.agentToolCalls }

def applyFlightRecorderPolicySet (x : Evidence) (e : FlightRecorderPolicySet) : Evidence :=
  { x with flightRecorderPolicy := { redact := e.redact, retentionDays := e.retentionDays } }

def purgedPlaceholder : String := "[retention: purged]"

def isSwept (recordedAt cutoff : Int) : Bool := recordedAt != 0 && decide (recordedAt < cutoff)

def LlmCall.purge (c : LlmCall) : LlmCall :=
  { c with
    messages :=
      if c.messages.isEmpty then c.messages
      else [{ role := "system", content := purgedPlaceholder }]
    completion := if c.completion ≠ "" then purgedPlaceholder else c.completion
    completionToolCalls := [] }

def AgentToolCall.purge (c : AgentToolCall) : AgentToolCall :=
  { c with
    arguments := if c.arguments ≠ "" then purgedPlaceholder else c.arguments
    result := if c.result ≠ "" then purgedPlaceholder else c.result }

def applyFlightRecorderRetentionSwept (x : Evidence) (e : FlightRecorderRetentionSwept) :
    Evidence :=
  if e.cutoffUnixNano = 0 then x
  else
    { x with
      llmCalls := x.llmCalls.map fun c =>
        if isSwept c.recordedAtUnixNano e.cutoffUnixNano then c.purge else c
      agentToolCalls := x.agentToolCalls.map fun c =>
        if isSwept c.recordedAtUnixNano e.cutoffUnixNano then c.purge else c }

def mapsEqual (a b : StringMap String) : Bool :=
  a.entries.all (fun kv => b.lookup kv.1 == some kv.2) &&
    b.entries.all (fun kv => a.lookup kv.1 == some kv.2)

def unionReferences (base add : List ReferencedEntityRef) : List ReferencedEntityRef :=
  add.foldl
    (fun out ref =>
      if ref.label = "" ∨
          out.any (fun r => r.label == ref.label && mapsEqual r.idProperties ref.idProperties) then
        out
      else out ++ [ref])
    base

def applyHypothesisObserved (x : Evidence) (e : HypothesisObserved) : Evidence :=
  let same := fun h : Hypothesis => h.scopeID == e.scopeID && h.claim == e.claim
  if e.claim = "" then x
  else if x.hypotheses.any same then
    { x with
      hypotheses := updateFirst same
        (fun h =>
          { h with
            proposer := orKept h.proposer e.proposer
            confidence := e.confidence
            references := unionReferences h.references e.references
            missionID := orKept h.missionID e.missionID
            runID := orKept h.runID e.runID
            hypothesisID := orKept h.hypothesisID e.hypothesisID
            technique := orKept h.technique e.technique }) x.hypotheses }
  else
    { x with
      nextHypothesisID := x.nextHypothesisID + 1
      hypotheses := x.hypotheses ++
        [{ id := x.nextHypothesisID + 1, scopeID := e.scopeID, claim := e.claim,
           proposer := e.proposer, confidence := e.confidence,
           references := unionReferences [] e.references, missionID := e.missionID,
           runID := e.runID, hypothesisID := e.hypothesisID, technique := e.technique }] }

def recordSettlement (x : Evidence) (s : BetSettlement) : Evidence :=
  if s.hypothesisID = "" ∨ x.betSettlements.any (·.hypothesisID == s.hypothesisID) then x
  else { x with betSettlements := x.betSettlements ++ [s] }

def applyBetSettledTrue (x : Evidence) (e : BetSettledTrue) : Evidence :=
  recordSettlement x
    { hypothesisID := e.hypothesisID, verdict := .verdictTrue, method := .predicate,
      technique := e.technique, predicateType := e.predicateType,
      evidenceDigest := e.evidenceDigest, predictedProbability := e.predictedProbability,
      brierScore := e.brierScore, scopeID := e.scopeID, missionID := e.missionID }

def applyBetSettledFalse (x : Evidence) (e : BetSettledFalse) : Evidence :=
  recordSettlement x
    { hypothesisID := e.hypothesisID, verdict := .verdictFalse, method := .exhaustion,
      technique := e.technique, attemptBudget := e.attemptBudget, attemptsMade := e.attemptsMade,
      reason := e.reason, predictedProbability := e.predictedProbability,
      brierScore := e.brierScore, scopeID := e.scopeID, missionID := e.missionID }

def applyBetSettledByHITL (x : Evidence) (e : BetSettledByHITL) : Evidence :=
  recordSettlement x
    { hypothesisID := e.hypothesisID, verdict := e.verdict, method := .hitl,
      technique := e.technique, userID := e.userID,
      predictedProbability := e.predictedProbability, brierScore := e.brierScore,
      scopeID := e.scopeID, missionID := e.missionID }

def applyBetProofSubmittedForReview (env : Env) (x : Evidence) (e : BetProofSubmittedForReview) :
    Evidence :=
  if e.hypothesisID = "" then x
  else
    { x with
      proofReviews := x.proofReviews.insert e.hypothesisID
        { e with evidence := e.evidence.map fun item =>
            { item with content := redactForTenant env x item.content } } }

def applyDestructiveActionRequested (x : Evidence) (e : DestructiveActionRequested) : Evidence :=
  if e.hypothesisID = "" ∨ x.destructiveActions.any (·.hypothesisID == e.hypothesisID) then x
  else
    { x with
      destructiveActions := x.destructiveActions ++
        [{ hypothesisID := e.hypothesisID, tenant := e.tenant, scopeID := e.scopeID,
           missionID := e.missionID, technique := e.technique, predicateType := e.predicateType,
           blastRadius := e.blastRadius, reversibility := e.reversibility,
           requestedAtUnixMS := e.requestedAtUnixMS }] }

def applyDestructiveActionDecided (x : Evidence) (e : DestructiveActionDecided) : Evidence :=
  if e.hypothesisID = "" then x
  else
    { x with
      destructiveActions := updateFirst (·.hypothesisID == e.hypothesisID)
        (fun a =>
          if a.decided then a
          else { a with decided := true, approved := e.approved, userID := e.userID,
                        decidedAtUnixMS := e.decidedAtUnixMS })
        x.destructiveActions }

def applyNodeBeliefSet (x : Evidence) (e : NodeBeliefSet) : Evidence :=
  if e.ref.kind = "" ∨ e.ref.id = "" then x
  else
    let write := fun r : NodeBeliefRecord =>
      { r with belief := e.belief, evidenceDigest := e.evidenceDigest,
               causeEdgeTypes := e.causeEdgeTypes }
    { x with nodeBeliefs := upsert (·.ref == e.ref) write (write { ref := e.ref }) x.nodeBeliefs }

def applyEdgeOutcomeObserved (x : Evidence) (e : EdgeOutcomeObserved) : Evidence :=
  if e.edgeType = "" then x
  else
    let n := (x.edgeOutcomes.lookup e.edgeType).getD {}
    { x with
      edgeOutcomes := x.edgeOutcomes.insert e.edgeType
        (if e.success then { n with alpha := n.alpha + 1 } else { n with beta := n.beta + 1 }) }

def applyDomainPackEnabled (x : Evidence) (e : DomainPackEnabled) : Evidence :=
  { x with
    domainPacks := x.domainPacks.insert e.name
      { version := e.version, taxonomyNodeLabels := e.taxonomyNodeLabels,
        taxonomyRelationshipTypes := e.taxonomyRelationshipTypes, predicates := e.predicates,
        nonDestructivePredicates := e.nonDestructivePredicates, techniques := e.techniques,
        beliefSchema := e.beliefSchema } }

def applyDomainPackDisabled (x : Evidence) (e : DomainPackDisabled) : Evidence :=
  { x with domainPacks := x.domainPacks.erase e.name }

def isIdentifierChar (first : Bool) (ch : Char) : Bool :=
  ch.isAlpha || (!first && (ch.isDigit || ch == '_'))

def validIdentifier (s : String) : Bool :=
  match s.toList with
  | [] => false
  | ch :: rest =>
    decide (s.utf8ByteSize ≤ 64) && isIdentifierChar true ch && rest.all (isIdentifierChar false)

/-- `taxonomy.New`: `none` where the constructor returns an error. -/
def Registry.new (version : Nat) (nodeLabels relationshipTypes : List String) : Option Registry :=
  if 0 < version ∧ nodeLabels.all validIdentifier ∧ nodeLabels.Nodup ∧
      relationshipTypes.all validIdentifier ∧ relationshipTypes.Nodup ∧
      "Observation" ∈ nodeLabels then
    some { version, nodeLabels, relationshipTypes }
  else none

def promotedRegistry (base : Registry) (key : OntologyProposalKey) : Option Registry :=
  match key.kind with
  | .nodeLabel =>
    Registry.new (base.version + 1) (base.nodeLabels ++ [key.label]) base.relationshipTypes
  | .relationshipType =>
    Registry.new (base.version + 1) base.nodeLabels (base.relationshipTypes ++ [key.label])

def promotedIdentityProperty : ProposalKind → String
  | .nodeLabel => "brain_id"
  | .relationshipType => ""

def minRecurrenceForSettlement : Nat := 3

def PromotionGate.observe (g : PromotionGate) (key : OntologyProposalKey) : PromotionGate :=
  { g with recurrence := g.recurrence.insert key ((g.recurrence.lookup key).getD 0 + 1) }

def PromotionGate.confirm (g : PromotionGate) (key : OntologyProposalKey) (reviewer : String) :
    Option PromotionGate :=
  if validIdentifier key.label then some { g with confirmed := g.confirmed.insert key reviewer }
  else none

def PromotionGate.promote (g : PromotionGate) (key : OntologyProposalKey) : Option PromotionGate :=
  if validIdentifier key.label = false ∨
      (g.recurrence.lookup key).getD 0 < minRecurrenceForSettlement ∨
      (g.confirmed.lookup key).isNone then none
  else
    (promotedRegistry g.base key).map fun r =>
      { g with
        base := r
        promotions := g.promotions ++
          [{ kind := key.kind, label := key.label, version := r.version,
             identityProperty := promotedIdentityProperty key.kind }] }

def promoteIfSettled (x : Evidence) (key : OntologyProposalKey) (state : OntologyProposalState) :
    Evidence :=
  let store := fun (gate : PromotionGate) (s : OntologyProposalState) =>
    { x with ontologyGate := gate, ontologyProposals := x.ontologyProposals.insert key s }
  if state.promoted ∨ state.status ≠ .approved then store x.ontologyGate state
  else
    match x.ontologyGate.promote key with
    | none => store x.ontologyGate state
    | some gate => store gate { state with promoted := true, promotedVersion := gate.base.version }

def applyOntologyExtensionProposed (x : Evidence) (e : OntologyExtensionProposed) : Evidence :=
  let key : OntologyProposalKey := { kind := e.proposalKind, label := e.label }
  let gate := x.ontologyGate.observe key
  let state := (x.ontologyProposals.lookup key).getD { proposalKind := e.proposalKind,
                                                       label := e.label }
  promoteIfSettled { x with ontologyGate := gate } key
    { state with
      proposalKind := e.proposalKind
      label := e.label
      recurrence := (gate.recurrence.lookup key).getD 0
      lastProposer := e.proposer
      lastClaim := e.claim }

def applyOntologyExtensionApproved (x : Evidence) (e : OntologyExtensionApproved) : Evidence :=
  let key : OntologyProposalKey := { kind := e.proposalKind, label := e.label }
  match x.ontologyProposals.lookup key, x.ontologyGate.confirm key e.reviewer with
  | some state, some gate =>
    promoteIfSettled { x with ontologyGate := gate } key
      { state with status := .approved, reviewer := e.reviewer }
  | _, _ => x

def applyOntologyExtensionRejected (x : Evidence) (e : OntologyExtensionRejected) : Evidence :=
  let key : OntologyProposalKey := { kind := e.proposalKind, label := e.label }
  match x.ontologyProposals.lookup key with
  | some state =>
    { x with
      ontologyProposals := x.ontologyProposals.insert key
        { state with status := .rejected, reviewer := e.reviewer, rejectReason := e.reason } }
  | none => x

inductive GateCall where
  | observe (key : OntologyProposalKey)
  | confirm (key : OntologyProposalKey) (reviewer : String)
  | promote (key : OntologyProposalKey)
  /-- A call with a kind that is neither constant: `Promote` refuses it, and what it counts and
  confirms stands under keys that no other call reads. -/
  | unknownKind
  deriving DecidableEq

def Registry.labels (r : Registry) : ProposalKind → List String
  | .nodeLabel => r.nodeLabels
  | .relationshipType => r.relationshipTypes

namespace PromotionGate

open List Option

/-- A refused call leaves the gate as it is. -/
def step (g : PromotionGate) : GateCall → PromotionGate
  | .observe key => g.observe key
  | .confirm key reviewer => (g.confirm key reviewer).getD g
  | .promote key => (g.promote key).getD g
  | .unknownKind => g

def run (base : Registry) (calls : List GateCall) : PromotionGate := calls.foldl step { base }

def promoted (g : PromotionGate) (kind : ProposalKind) : List String :=
  (g.promotions.filter (·.kind = kind)).map (·.label)

/-- The gate after `calls`: its counts and confirmations are those of the calls, its registry is the
initial one with the labels of the promotion log, and every promotion was due. -/
structure Follows (base : Registry) (calls : List GateCall) (g : PromotionGate) : Prop where
  counts : ∀ key, (g.recurrence.lookup key).getD 0 = calls.count (.observe key)
  confirms : ∀ key, (g.confirmed.lookup key).isSome → ∃ reviewer, .confirm key reviewer ∈ calls
  labels : ∀ kind, g.base.labels kind = base.labels kind ++ g.promoted kind
  version : g.base.version = base.version + g.promotions.length
  once : ∀ kind, (g.promoted kind).Nodup
  due : ∀ p ∈ g.promotions, ∃ earlier, earlier ++ [.promote ⟨p.kind, p.label⟩] <+: calls ∧
    minRecurrenceForSettlement ≤ earlier.count (.observe ⟨p.kind, p.label⟩) ∧
    (∃ reviewer, .confirm ⟨p.kind, p.label⟩ reviewer ∈ earlier) ∧
    p.label ∉ (run base earlier).base.labels p.kind

variable {base r : Registry} {calls : List GateCall} {g g' : PromotionGate} {key} {call : GateCall}

lemma promotedRegistry_some (hmd : promotedRegistry base key = some r) :
    key.label ∉ base.labels key.kind ∧ r.version = base.version + 1 ∧
      ∀ kd, r.labels kd = base.labels kd ++ if key.kind = kd then [key.label] else [] := by
  obtain ⟨_ | _, lab⟩ := key
  all_goals
    simp only [promotedRegistry, Registry.new, ite_none_right_eq_some, some.injEq] at hmd
    obtain ⟨⟨-, -, ns, -, typ, -⟩, rfl⟩ := hmd
    refine ⟨fun hhe => ?_, rfl, fun kd => by cases kd <;> simp [Registry.labels]⟩
  · exact disjoint_of_nodup_append ns hhe (mem_singleton_self _)
  · exact disjoint_of_nodup_append typ hhe (mem_singleton_self _)

lemma promote_some (ok : g.promote key = some g') :
    minRecurrenceForSettlement ≤ (g.recurrence.lookup key).getD 0 ∧
    (g.confirmed.lookup key).isSome ∧ ∃ r, promotedRegistry g.base key = some r ∧
      g' = { g with base := r, promotions := g.promotions ++
        [⟨key.kind, key.label, r.version, promotedIdentityProperty key.kind⟩] } := by
  simp only [promote, ite_none_left_eq_some, not_or, not_lt, map_eq_some_iff, Bool.not_eq_true,
    isNone_eq_false_iff] at ok
  obtain ⟨⟨-, rec, con⟩, r, hmd, rfl⟩ := ok
  exact ⟨rec, con, r, hmd, rfl⟩

section
variable (hfol : (run base calls).Follows base calls)
include hfol

lemma follows_promote (ok : (run base calls).promote key = some g') :
    g'.Follows base (calls ++ [.promote key]) := by
  obtain ⟨rec, con, r, hmd, rfl⟩ := promote_some ok
  obtain ⟨hfr, ver, labels⟩ := promotedRegistry_some hmd
  rw [hfol.counts] at rec
  refine ⟨by simpa using hfol.counts, by simpa using hfol.confirms, fun kd => ?_, ?_,
    fun kd => ?_, forall_mem_append.mpr ⟨fun p mem => ?_, forall_mem_singleton.mpr
      ⟨calls, prefix_rfl, rec, hfol.confirms key con, hfr⟩⟩⟩
  · by_cases hs : key.kind = kd <;> simp [labels, hfol.labels, promoted, hs]
  · simp [ver, hfol.version, Nat.add_assoc]
  · rw [hfol.labels, mem_append, not_or] at hfr
    have once := hfol.once kd
    by_cases hs : key.kind = kd
    · subst hs
      simpa [promoted, nodup_append'] using And.intro once hfr.2
    · simpa [promoted, hs] using once
  · exact (hfol.due p mem).imp fun _ h => ⟨h.1.trans (prefix_append _ _), h.2⟩

lemma follows_marked {recurrence confirmed}
    (hcts : ∀ key, (recurrence.lookup key).getD 0 = (calls ++ [call]).count (.observe key))
    (con : ∀ key, (confirmed.lookup key).isSome →
      ∃ reviewer, .confirm key reviewer ∈ calls ++ [call]) :
    { run base calls with recurrence, confirmed }.Follows base (calls ++ [call]) := by
  refine ⟨hcts, con, hfol.labels, hfol.version, hfol.once, fun p mem => ?_⟩
  exact (hfol.due p mem).imp fun _ h => ⟨h.1.trans (prefix_append _ _), h.2⟩

lemma follows_idle (hq : ∀ key, call ≠ .observe key) :
    (run base calls).Follows base (calls ++ [call]) :=
  follows_marked hfol (fun key => (hfol.counts key).trans (by simp [hq])) fun key hk =>
    (hfol.confirms key hk).imp fun _ => mem_append_left _

end

lemma follows_run (base calls) : (run base calls).Follows base calls := by
  induction calls using reverseRecOn with
  | nil => exact ⟨by simp [run], by simp [run], by simp [run, promoted], rfl, fun _ => .nil, nofun⟩
  | append_singleton calls call ih =>
    rw [run, foldl_concat, ← run]
    cases call with
    | observe key =>
      refine follows_marked ih (fun ho => ?_) (by simpa using ih.confirms)
      obtain rfl | ne := eq_or_ne ho key
      · simp [ih.counts]
      · simp [ih.counts, ne, ne.symm]
    | confirm key rev =>
      simp only [step, confirm]
      split
      · refine follows_marked ih (by simpa using ih.counts) fun ho hk => ?_
        obtain rfl | ne := eq_or_ne ho key
        · exact ⟨rev, by simp⟩
        · rw [AList.lookup_insert_ne ne] at hk
          exact (ih.confirms ho hk).imp fun _ => mem_append_left _
      · exact follows_idle ih nofun
    | promote key =>
      simp only [step]
      cases ok : (run base calls).promote key with
      | none => exact follows_idle ih nofun
      | some g' => exact follows_promote ih ok
    | unknownKind => exact follows_idle ih nofun

/-- Only settled labels enter the taxonomy, each once, and a refused promotion changes nothing. -/
theorem promotions_settled (base : Registry) (calls : List GateCall) :
    (run base calls).Follows base calls ∧ ∀ key, (run base calls).promote key = none →
      run base (calls ++ [.promote key]) = run base calls := by
  refine ⟨follows_run base calls, fun key href => ?_⟩
  rw [run, foldl_concat, ← run, step, href, getD_none]

end PromotionGate
end Gibson.Brain
