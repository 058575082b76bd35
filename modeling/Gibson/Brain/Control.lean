import Gibson.Lib.Rows
import Gibson.Brain.Event

/-! The tenant World: `Control` is what mission control reads and writes, the rest is `Evidence`.
The reducers of mission control, and the check of an event's run. The Go code writes through a
pointer to the first entity that matches, which is `Rows.updateFirst`. -/

namespace Gibson.Brain

open List

/-- What the reducers call outside of the brain. -/
structure Env where
  contentHash : String → StringMap String → String
  evidenceDigest : BeliefEvidence → String
  redactSecrets : String → String
  removeRows : {α : Type} → (α → Bool) → List α → List α
  removeRows_perm : ∀ {α : Type} (p : α → Bool) (rows : List α),
    (removeRows p rows).Perm (rows.filter fun x => !p x)

lemma Env.removeRows_mem (env : Env) {p : α → Bool}
    (hx : x ∈ env.removeRows p rows) : x ∈ rows ∧ p x = false := by
  have kp := mem_filter.mp ((env.removeRows_perm p rows).mem_iff.mp hx)
  exact ⟨kp.1, by simpa using kp.2⟩

def Env.plain : Env where
  contentHash shape _ := shape
  evidenceDigest _ := ""
  redactSecrets text := text
  removeRows p rows := rows.filter fun x => !p x
  removeRows_perm _ _ := .refl _

/-- The stores of mission control. -/
structure Control where
  missions : List Mission := []
  work : List WorkItem := []
  decisions : List DecisionRecord := []
  voiPlans : List VoIPlanState := []
  missionRewinds : StringMap MissionRewind := ∅
  missionLineage : StringMap MissionLineage := ∅
  nextCompletedSeq : Nat := 0

/-- A taxonomy version: its admitted node labels and relationship types. -/
structure Registry where
  version : Nat
  (nodeLabels relationshipTypes : List String)

/-- An approved extension. -/
structure PromotionRecord where
  kind : ProposalKind
  label : String
  version : Nat
  identityProperty : String

/-- Proposals and promotions. -/
structure PromotionGate where
  base : Registry
  recurrence : AList (fun _ : OntologyProposalKey => Nat) := ∅
  confirmed : AList (fun _ : OntologyProposalKey => String) := ∅
  promotions : List PromotionRecord := []

def coreNodeLabels : List String :=
  ["Observation", "Account", "AgentRun", "Credential", "Domain", "Finding", "Host", "LlmCall",
    "Mission", "Port", "Service", "Subdomain", "Application", "Control", "Deployment", "Image",
    "MergeRequest", "Package", "Pipeline", "Repository", "Vulnerability", "Category",
    "Technique", "MissionNode", "MissionRun", "Target", "Hypothesis"]

def coreRelationshipTypes : List String :=
  ["AFFECTS", "DELEGATED_TO", "HAS_PORT", "HAS_SUBDOMAIN", "ISSUED", "RESOLVES_TO",
    "RUNS_SERVICE", "BUILT_FROM", "CONTAINS", "EXPOSES", "FIXED_BY", "HAS_DEPLOYMENT",
    "HAS_REPOSITORY", "INSTANCE_OF", "MERGED_INTO", "RUNS", "TOUCHES", "VERIFIED_BY",
    "ROLLS_UP_TO", "BELONGS_TO", "DEPENDS_ON", "PART_OF", "FOUND_ON", "TARGETS"]

def Registry.global : Registry where
  version := 5
  nodeLabels := coreNodeLabels
  relationshipTypes := coreRelationshipTypes

/-- Every store that mission control does not write. -/
structure Evidence where
  hosts : List Host := []
  domains : List Domain := []
  subdomains : List Subdomain := []
  credentials : List Credential := []
  accounts : List Account := []
  observations : List Observation := []
  entities : List Entity := []
  findings : List Finding := []
  labels : List Label := []
  agentRuns : List AgentRun := []
  llmCalls : List LlmCall := []
  agentToolCalls : List AgentToolCall := []
  hypotheses : List Hypothesis := []
  betSettlements : List BetSettlement := []
  destructiveActions : List DestructiveAction := []
  nodeBeliefs : List NodeBeliefRecord := []
  flightRecorderPolicy : FlightRecorderPolicy := {}
  domainPacks : StringMap DomainPackState := ∅
  proofReviews : StringMap BetProofSubmittedForReview := ∅
  ontologyGate : PromotionGate := { base := Registry.global }
  ontologyProposals : AList (fun _ : OntologyProposalKey => OntologyProposalState) := ∅
  edgeOutcomes : StringMap EdgeOutcomeCount := ∅
  (nextHostID nextDomainID nextSubdomainID nextCredentialID nextAccountID : Nat := 0)
  (nextObservationID nextEntityID nextHypothesisID : Nat := 0)

/-- A single tenant's World. Only the reducer changes it. -/
structure World where
  tenant : String
  control : Control := {}
  evidence : Evidence := {}

def newWorld (tenant : String) : World := { tenant }

open Rows

def findWork (c : Control) (id : String) : Option WorkItem :=
  c.work.find? (·.id == id)

def updateWork (c : Control) (id : String) (f : WorkItem → WorkItem) : Control :=
  { c with work := updateFirst (·.id == id) f c.work }

lemma findWork_updateWork {f : WorkItem → WorkItem} (hf : ∀ wi, (f wi).id = wi.id) (c id id') :
    findWork (updateWork c id f) id' =
      if id' == id then (findWork c id).map f else findWork c id' :=
  find?_updateFirst_key hf id'

lemma findWork_updateAll {f : WorkItem → WorkItem} (hf : ∀ wi, (f wi).id = wi.id)
    (hag : ∀ wi, f (f wi) = f wi) (c) (ids : List String) (id) :
    findWork (ids.foldl (fun c id => updateWork c id f) c) id =
      if id ∈ ids then (findWork c id).map f else findWork c id := by
  induction ids generalizing c with
  | nil => rfl
  | cons h1 ids ih =>
    rw [foldl_cons, ih, findWork_updateWork hf]
    by_cases hs : id = h1
    · subst hs
      have twi : f ∘ f = f := funext hag
      simp [twi]
    · simp [hs]

lemma findWork_append (c wi id) : findWork { c with work := c.work ++ [wi] } id =
      (findWork c id).or (if wi.id == id then some wi else none) := by
  unfold findWork
  rw [find?_append, find?_singleton]

/-- A work item's identity in the World: the mission, then the node id of its definition. -/
def workID (missionID nodeID : String) : String :=
  if missionID = "" then nodeID else missionID ++ "/" ++ nodeID

def nodeName (workID : String) : String :=
  String.ofList (workID.toList.reverse.takeWhile (· != '/')).reverse

def isOpenDecision (missionID : String) (d : DecisionRecord) : Bool :=
  d.missionID == missionID && d.status == .pending

def updateOpenDecision (c : Control) (missionID : String)
    (f : DecisionRecord → DecisionRecord) : Control :=
  { c with decisions := updateFirst (isOpenDecision missionID) f c.decisions }

def recordDecisionDispatch (c : Control) (missionID : String) (d : DecisionDispatch) : Control :=
  if missionID = "" then c
  else updateOpenDecision c missionID fun dec => { dec with dispatches := dec.dispatches ++ [d] }

def WorkItem.redispatch (e : WorkDispatched) (wi : WorkItem) : WorkItem :=
  { wi with
    state := .running
    attempts := wi.attempts + 1
    timeout := if 0 < e.timeout then e.timeout else wi.timeout
    group := if 0 < e.limit then e.group else wi.group
    limit := if 0 < e.limit then e.limit else wi.limit
    network := e.network.or wi.network
    slotPins := e.slotPins.or wi.slotPins
    startsFrom := if e.startsFrom ≠ "" then e.startsFrom else wi.startsFrom
    forkable := e.forkable || wi.forkable
    checkpoint := e.checkpoint || wi.checkpoint
    fromSnapshot := if e.fromSnapshot ≠ "" then e.fromSnapshot else wi.fromSnapshot }

def WorkDispatched.newItem (e : WorkDispatched) : WorkItem where
  id := e.id
  missionID := e.missionID
  runID := e.runID
  kind := e.itemKind
  target := e.target
  input := e.input
  state := .running
  attempts := 1
  timeout := e.timeout
  group := e.group
  limit := e.limit
  network := e.network
  slotPins := e.slotPins
  startsFrom := e.startsFrom
  forkable := e.forkable
  checkpoint := e.checkpoint
  fromSnapshot := e.fromSnapshot

def applyWorkDispatched (c : Control) (e : WorkDispatched) : Control :=
  match findWork c e.id with
  | some wi => if wi.state = .running then c else updateWork c e.id (WorkItem.redispatch e)
  | none =>
    recordDecisionDispatch { c with work := c.work ++ [e.newItem] } e.missionID
      { workID := e.id, kind := e.itemKind, target := e.target }

def WorkItem.retry (wi : WorkItem) : WorkItem :=
  if wi.state = .failed then { wi with state := .pending, err := "" } else wi

def applyWorkRetried (c : Control) (e : WorkRetried) : Control :=
  updateWork c e.id WorkItem.retry

def WorkState.isTerminal : WorkState → Bool
  | .done | .failed | .skipped => true
  | .pending | .running => false

def WorkItem.complete (e : WorkCompleted) (seq : Nat) (wi : WorkItem) : WorkItem :=
  if e.err ≠ "" then
    { wi with completedSeq := seq, state := .failed, err := e.err }
  else
    { wi with completedSeq := seq, state := .done, result := e.result, snapshot := e.snapshot }

def applyWorkCompleted (c : Control) (e : WorkCompleted) : Control :=
  match findWork c e.id with
  | some wi =>
    if wi.state.isTerminal then c
    else
      { updateWork c e.id (WorkItem.complete e (c.nextCompletedSeq + 1)) with
        nextCompletedSeq := c.nextCompletedSeq + 1 }
  | none => c

def WorkItem.resolve (result : Bool) (wi : WorkItem) : WorkItem :=
  if wi.state = .pending ∨ wi.state = .running then
    { wi with state := .done, result := if result then "true" else "false" }
  else wi

def WorkItem.skip (wi : WorkItem) : WorkItem :=
  if wi.state = .pending then { wi with state := .skipped } else wi

def applyConditionResolved (c : Control) (e : ConditionResolved) : Control :=
  e.skip.foldl (fun c id => updateWork c id WorkItem.skip)
    (updateWork c e.id (WorkItem.resolve e.result))

def findMission (c : Control) (id : String) : Option Mission :=
  c.missions.find? (·.id == id)

def updateMission (c : Control) (id : String) (f : Mission → Mission) : Control :=
  { c with missions := updateFirst (·.id == id) f c.missions }

lemma findMission_updateMission {f : Mission → Mission} (hf : ∀ m, (f m).id = m.id) (c id id') :
    findMission (updateMission c id f) id' =
      if id' == id then (findMission c id).map f else findMission c id' :=
  find?_updateFirst_key hf id'

lemma findMission_append (c m id) : findMission { c with missions := c.missions ++ [m] } id =
      (findMission c id).or (if m.id == id then some m else none) := by
  unfold findMission
  rw [find?_append, find?_singleton]

/-- Counts are of type `int64`. -/
def Mission.addTokens (m : Mission) (tokens : Int) : Mission :=
  { m with tokensUsed := (m.tokensUsed + tokens).bmod (2 ^ 64) }

def applyTokenUsed (c : Control) (e : TokenUsed) : Control :=
  updateMission c e.missionID (·.addTokens e.tokens)

def applyScanReconciled (c : Control) (e : ScanReconciled) : Control :=
  updateMission c e.missionID fun m => { m with reconciled := true }

def applyMissionCreated (c : Control) (e : MissionCreated) : Control :=
  match findMission c e.id with
  | some _ => c
  | none =>
    { c with
      missions := c.missions ++
        [{ id := e.id, status := .pending, name := e.name, description := e.description,
           targetID := e.targetID, tenantID := e.tenantID, createdBy := e.createdBy }] }

def orKept (s kept : String) : String := if s ≠ "" then s else kept

def Mission.start (e : MissionStarted) (m : Mission) : Mission :=
  if m.status ≠ .pending then m
  else
    { m with
      status := .running
      goal := e.goal
      beliefModel := e.beliefModel
      name := orKept e.name m.name
      description := orKept e.description m.description
      targetID := orKept e.targetID m.targetID
      tenantID := orKept e.tenantID m.tenantID
      createdBy := if e.createdBy.isZero then m.createdBy else e.createdBy }

def MissionStarted.newMission (e : MissionStarted) : Mission where
  id := e.id
  runID := e.runID
  goal := e.goal
  status := .running
  beliefModel := e.beliefModel
  name := e.name
  description := e.description
  targetID := e.targetID
  tenantID := e.tenantID
  createdBy := e.createdBy

def applyMissionStarted (c : Control) (e : MissionStarted) : Control :=
  match findMission c e.id with
  | some _ => updateMission c e.id (Mission.start e)
  | none => { c with missions := c.missions ++ [e.newMission] }

def applyMissionPauseRequested (c : Control) (e : MissionPauseRequested) : Control :=
  updateMission c e.id fun m => if m.status = .running then { m with status := .paused } else m

def applyMissionResumed (c : Control) (e : MissionResumed) : Control :=
  updateMission c e.id fun m => if m.status = .paused then { m with status := .running } else m

def MissionStatus.isTerminal : MissionStatus → Bool
  | .completed | .failed => true
  | .pending | .running | .paused => false

def MissionDone.status (e : MissionDone) : MissionStatus := e.outcome.getD .completed

def closeDecision (c : Control) (e : MissionDone) : Control :=
  updateOpenDecision c e.id fun dec =>
    { dec with outcome := some e.status, rationale := e.reason }

def applyMissionDone (c : Control) (e : MissionDone) : Control :=
  match findMission c e.id with
  | some m =>
    if m.status.isTerminal then c
    else closeDecision
      (updateMission c e.id fun m => { m with status := e.status, reason := e.reason }) e
  | none => closeDecision c e

def applyMissionRewound (c : Control) (e : MissionRewound) : Control :=
  if e.missionID = "" ∨ (c.missionRewinds.lookup e.missionID).isSome then c
  else
    { c with
      missionRewinds := c.missionRewinds.insert e.missionID
        { missionID := e.missionID, parentMissionID := e.parentMissionID,
          parentCheckpointID := e.parentCheckpointID, startSnapshot := e.startSnapshot } }

def applyMissionOriginated (c : Control) (e : MissionOriginated) : Control :=
  if e.missionID = "" ∨ (c.missionLineage.lookup e.missionID).isSome then c
  else
    { c with
      missionLineage := c.missionLineage.insert e.missionID
        { missionID := e.missionID, parentMissionID := e.parentMissionID,
          parentWorkID := e.parentWorkID, originatingComponent := e.originatingComponent,
          capabilityGrantID := e.capabilityGrantID } }

def countMissionDecisions (c : Control) (missionID : String) : Nat :=
  c.decisions.countP (·.missionID == missionID)

def applyDecisionRequested (c : Control) (e : DecisionRequested) : Control :=
  let c' := updateMission c e.missionID fun m =>
    { m with decisionInFlight := true, decisionCursor := e.cursor }
  { c' with
    decisions := c'.decisions ++
      [{ id := e.missionID ++ "#d" ++ toString (countMissionDecisions c e.missionID + 1),
         missionID := e.missionID, cursor := e.cursor, status := .pending }] }

def applyDecisionCompleted (c : Control) (e : DecisionCompleted) : Control :=
  updateOpenDecision (updateMission c e.missionID fun m => { m with decisionInFlight := false })
    e.missionID fun dec => { dec with status := .completed }

def updatePlan (c : Control) (missionID : String) (f : VoIPlanState → VoIPlanState) : Control :=
  { c with voiPlans := upsert (·.missionID == missionID) f (f { missionID }) c.voiPlans }

def applyVoIPlanRequested (c : Control) (e : VoIPlanRequested) : Control :=
  updatePlan c e.missionID fun st => { st with inFlight := true, cursor := e.cursor }

def applyVoIPlanned (c : Control) (e : VoIPlanned) : Control :=
  updatePlan c e.missionID fun st => { st with inFlight := false, candidates := e.candidates }

def startSnapshot (rewind : Option MissionRewind) (n : WorkNode) : String :=
  match rewind with
  | some r =>
    if r.startSnapshot ≠ "" ∧ n.id = r.parentCheckpointID then r.startSnapshot else n.fromSnapshot
  | none => n.fromSnapshot

def MissionProjected.newItem (e : MissionProjected) (rewind : Option MissionRewind)
    (n : WorkNode) : WorkItem where
  id := workID e.id n.id
  missionID := e.id
  runID := e.runID
  kind := n.kind
  target := n.target
  input := n.input
  dependsOn := n.dependsOn.map (workID e.id)
  state := .pending
  maxRetries := n.maxRetries
  timeout := n.timeout
  dependentsRunOnFailure := n.dependentsRunOnFailure
  group := n.group
  limit := n.limit
  network := n.network
  slotPins := n.slotPins
  startsFrom := n.startsFrom
  forkable := n.forkable
  checkpoint := n.checkpoint
  fromSnapshot := startSnapshot rewind n

def projectNode (e : MissionProjected) (c : Control) (n : WorkNode) : Control :=
  match findWork c (workID e.id n.id) with
  | some _ => c
  | none =>
    { c with work := c.work ++ [e.newItem (c.missionRewinds.lookup e.id) n] }

def projectWork (c : Control) (e : MissionProjected) : Control :=
  e.nodes.foldl (projectNode e) c

/-- Turns a pending mission into a running one. What creation recorded stays where the
projection carries none. -/
def startRun (e : MissionProjected) (m : Mission) : Mission :=
  { m with
    runID := e.runID
    goal := e.goal
    status := .running
    budget := e.budget
    decisionCursor := -1
    deciderSlot := e.deciderSlot
    beliefModel := e.beliefModel
    name := orKept e.name m.name
    description := orKept e.description m.description
    targetID := orKept e.targetID m.targetID
    tenantID := orKept e.tenantID m.tenantID }

def MissionProjected.newMission (e : MissionProjected) : Mission where
  id := e.id
  runID := e.runID
  goal := e.goal
  status := .running
  budget := e.budget
  deciderSlot := e.deciderSlot
  beliefModel := e.beliefModel
  name := e.name
  description := e.description
  targetID := e.targetID
  tenantID := e.tenantID

def retireMissionRun (env : Env) (c : Control) (missionID : String) : Control :=
  { c with
    missions := env.removeRows (·.id == missionID) c.missions
    work := env.removeRows (·.missionID == missionID) c.work
    decisions := env.removeRows (·.missionID == missionID) c.decisions
    voiPlans := env.removeRows (·.missionID == missionID) c.voiPlans }

def launchRun (c : Control) (e : MissionProjected) : Control :=
  projectWork { c with missions := c.missions ++ [e.newMission] } e

def applyMissionProjected (env : Env) (c : Control) (e : MissionProjected) : Control :=
  match findMission c e.id with
  | some m =>
    if m.status = .pending then projectWork (updateMission c e.id (startRun e)) e
    else if m.runID = e.runID then c
    else launchRun (retireMissionRun env c e.id) e
  | none => launchRun c e

def Control.workSnapshot (c : Control) : List WorkItem := sortBy WorkItem.id c.work

lemma workSnapshot_perm (c : Control) : c.workSnapshot.Perm c.work :=
  sortBy_perm WorkItem.id c.work

@[simp] lemma mem_workSnapshot {c : Control} : wi ∈ c.workSnapshot ↔ wi ∈ c.work :=
  (workSnapshot_perm c).mem_iff

def Control.missionSnapshot (c : Control) : List Mission := sortBy Mission.id c.missions

def Control.decisionSnapshot (c : Control) : List DecisionRecord :=
  sortBy DecisionRecord.id c.decisions

def Control.voiPlanSnapshot (c : Control) : List VoIPlanState :=
  sortBy VoIPlanState.missionID c.voiPlans

inductive RunVerdict where
  | runCurrent
  | runDropped
  | runDetached
  deriving DecidableEq

/-- The run check of an event. -/
structure RunCheck where
  verdict : RunVerdict := .runCurrent
  (kind missionID eventRun currentRun : String := "")

def missionRunCheck (c : Control) (ev : Event) (missionID runID : String)
    (mismatch : RunVerdict) : RunCheck :=
  if runID = "" then {}
  else
    match findMission c missionID with
    | none => {}
    | some m =>
      if m.runID = runID then {}
      else { verdict := mismatch, kind := ev.kind, missionID, eventRun := runID,
             currentRun := m.runID }

def workRunCheck (c : Control) (ev : Event) (workID runID : String) : RunCheck :=
  if runID = "" then {}
  else
    match findWork c workID with
    | none => {}
    | some wi =>
      if wi.runID = runID then {}
      else { verdict := .runDropped, kind := ev.kind, missionID := wi.missionID,
             eventRun := runID, currentRun := wi.runID }

section
variable {id runID : String} {wi : WorkItem}

lemma missionRunCheck_other (mismatch)
    (hf : findMission c missionID = some m) (hn : runID ≠ "") (ho : runID ≠ m.runID) :
    (missionRunCheck c ev missionID runID mismatch).verdict = mismatch := by
  unfold missionRunCheck
  rw [if_neg hn, hf]
  simp [Ne.symm ho]

lemma missionRunCheck_congr (h : findMission c missionID = findMission c' missionID)
    (ev runID mismatch) :
    missionRunCheck c ev missionID runID mismatch =
      missionRunCheck c' ev missionID runID mismatch := by
  unfold missionRunCheck
  rw [h]

def takesRun (runID : String) (wi : WorkItem) : Bool := runID == "" || wi.runID == runID

lemma workRunCheck_found (hf : findWork c id = some wi) :
    (workRunCheck c ev id runID).verdict =
      if takesRun runID wi then .runCurrent else .runDropped := by
  unfold workRunCheck takesRun
  rw [hf]
  by_cases hn : runID = ""
  · simp [hn]
  by_cases hs : wi.runID = runID
  · simp [hs]
  · simp [hn, hs]

lemma workRunCheck_none (free : findWork c id = none) : workRunCheck c ev id runID = {} := by
  unfold workRunCheck
  rw [free]
  simp

lemma workRunCheck_same (hf : findWork c id = some wi) (hs : wi.runID = runID) :
    workRunCheck c ev id runID = {} := by
  unfold workRunCheck
  rw [hf]
  simp [hs]

end

def checkRun (c : Control) (ev : Event) : RunCheck :=
  match ev with
  | .workCompleted e => workRunCheck c ev e.id e.runID
  | .workDispatched e =>
    let chk := workRunCheck c ev e.id e.runID
    if chk.verdict ≠ .runCurrent then chk
    else if (findWork c e.id).isSome then {}
    else missionRunCheck c ev e.missionID e.runID .runDropped
  | .missionDone e | .missionPauseRequested e | .missionResumed e =>
    missionRunCheck c ev e.id e.runID .runDropped
  | .decisionCompleted e | .voiPlanned e => missionRunCheck c ev e.missionID e.runID .runDropped
  | .findingRaised e | .hostObserved e | .entityObserved e | .observationRecorded e
  | .hypothesisObserved e | .llmCallObserved e | .agentToolCallObserved e =>
    missionRunCheck c ev e.missionID e.missionRunID .runDetached
  | _ => {}

def detachEvidence : Event → Event
  | .findingRaised e => .findingRaised { e with missionID := "" }
  | .hostObserved e => .hostObserved { e with missionID := "" }
  | .entityObserved e => .entityObserved { e with missionID := "" }
  | .observationRecorded e => .observationRecorded { e with missionID := "" }
  | .hypothesisObserved e => .hypothesisObserved { e with missionID := "" }
  | .llmCallObserved e => .llmCallObserved { e with missionID := "" }
  | .agentToolCallObserved e => .agentToolCallObserved { e with missionID := "" }
  | ev => ev

end Gibson.Brain
