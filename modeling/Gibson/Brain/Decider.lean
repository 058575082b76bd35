import Gibson.Brain.Engine

/-! The workers beside the Engine. A worker reads the World, waits for an answer and submits in
separate steps, between which the Engine may tick. A restart loses the workers and the queue. -/

namespace Gibson.Brain

open Rows

/-- A component in the catalog. -/
structure Capability where
  kind : WorkKind
  name : String

/-- Work that the model asks for. -/
structure DeciderDispatch where
  kind : WorkKind
  (target input : String)

/-- The model ends the mission. -/
structure DeciderComplete where
  (outcome reason : String)

/-- What the model answers. -/
structure DeciderOutput where
  dispatches : List DeciderDispatch := []
  complete : Option DeciderComplete := none

/-- What the model is shown. -/
structure MissionContext where
  missionID : String
  goal : String := ""
  work : List WorkItem := []
  capabilities : List Capability := []
  deciderSlot : DeciderSlot := {}

def MissionContext.quiescent (mc : MissionContext) : Bool :=
  mc.work.all fun wi => wi.state != .running && wi.state != .pending

/-- The catalog and the JSON check. -/
structure DeciderEnv where
  catalog : String → List Capability
  validJSON : String → Bool

def buildContext (D : DeciderEnv) (c : Control) (missionID : String) : MissionContext :=
  let m := c.missionSnapshot.find? (·.id == missionID)
  { missionID
    goal := (m.map Mission.goal).getD ""
    work := c.workSnapshot.filter (·.missionID == missionID)
    capabilities := D.catalog missionID
    deciderSlot := (m.map Mission.deciderSlot).getD {} }

def validateDispatch (D : DeciderEnv) (d : DeciderDispatch) (catalog : List Capability) : Bool :=
  catalog.any (fun cap => cap.kind == d.kind && cap.name == d.target) &&
    ((d.kind != .tool && d.kind != .plugin) || D.validJSON d.input)

def WorkKind.text : WorkKind → String
  | .agent => "agent"
  | .tool => "tool"
  | .plugin => "plugin"
  | .job => "job"
  | .condition => "condition"
  | .join => "join"
  | .other name => name

def voiTopKCapabilities (candidates : List VoICandidate) (ref : CapabilityRef) : Bool :=
  candidates.any (·.coveringCapabilities.contains ref)

def voiGatedDispatch (c : Control) (missionID : String) (d : DeciderDispatch) : Bool :=
  match c.voiPlanSnapshot.find? (·.missionID == missionID) with
  | some st => voiTopKCapabilities st.candidates { kind := d.kind.text, name := d.target }
  | none => false

/-- A request in the queue. -/
structure DecisionRequest where
  (missionID runID : String)

def missionDoneFrom (req : DecisionRequest) (done : DeciderComplete) : MissionDone where
  id := req.missionID
  runID := req.runID
  outcome := some (if done.outcome = "failed" then .failed else .completed)
  reason := if done.reason = "" then "decider" else done.reason

def dispatchEvent (req : DecisionRequest) (seq : Nat) (d : DeciderDispatch) : Event :=
  .workDispatched
    { id := req.missionID ++ "-dec-" ++ toString seq, missionID := req.missionID,
      runID := req.runID, itemKind := d.kind, target := d.target, input := d.input }

def dispatchEvents (req : DecisionRequest) : Nat → List DeciderDispatch → List Event
  | _, [] => []
  | seq, d :: rest => dispatchEvent req (seq + 1) d :: dispatchEvents req (seq + 1) rest

def validDispatches (D : DeciderEnv) (c : Control) (mc : MissionContext) (out : DeciderOutput) :
    List DeciderDispatch :=
  out.dispatches.filter fun d =>
    validateDispatch D d mc.capabilities && voiGatedDispatch c mc.missionID d

def goalResolved (req : DecisionRequest) : Event :=
  .missionDone
    { id := req.missionID, runID := req.runID, outcome := some .completed,
      reason := "decider: goal resolved, nothing left to do" }

def decisionEvents (D : DeciderEnv) (c : Control) (seq : Nat) (req : DecisionRequest)
    (mc : MissionContext) : Except String DeciderOutput → List Event
  | .error _ => []
  | .ok out =>
    match out.complete with
    | some done => [.missionDone (missionDoneFrom req done)]
    | none =>
      match validDispatches D c mc out with
      | [] => if mc.quiescent then [goalResolved req] else []
      | valid => dispatchEvents req seq valid

def decisionSeq (D : DeciderEnv) (c : Control) (seq : Nat) (mc : MissionContext) :
    Except String DeciderOutput → Nat
  | .error _ => seq
  | .ok out =>
    match out.complete with
    | some _ => seq
    | none => seq + (validDispatches D c mc out).length

def closeEvent (req : DecisionRequest) : Event :=
  .decisionCompleted { missionID := req.missionID, runID := req.runID }

inductive DeciderStage where
  | ready
  | deciding (req : DecisionRequest) (mc : MissionContext)
  | submitting (evs : List Event)

/-- A running `Drain`: the missions that were planned when it began, and the requests left. -/
structure DeciderDrain where
  planning : List String
  todo : List DecisionRequest
  deferred : List DecisionRequest := []
  stage : DeciderStage := .ready

/-- The worker of decisions. -/
structure DeciderWorker where
  pending : List DecisionRequest := []
  seq : Nat := 0
  drain : Option DeciderDrain := none

def voiPlansInFlight (c : Control) : List String :=
  (c.voiPlanSnapshot.filter VoIPlanState.inFlight).map VoIPlanState.missionID

/-- Takes `n` requests: a tick that goes on may buffer more. -/
def DeciderWorker.startDrain (dw : DeciderWorker) (c : Control) (n : Nat) : DeciderWorker :=
  match dw.drain with
  | some _ => dw
  | none =>
    { dw with
      pending := dw.pending.drop n
      drain := some { planning := voiPlansInFlight c, todo := dw.pending.take n } }

/-- Goes to the next request: a mission that is being planned waits. -/
def DeciderWorker.next (dw : DeciderWorker) (D : DeciderEnv) (c : Control) : DeciderWorker :=
  match dw.drain with
  | some d =>
    match d.stage, d.todo with
    | .ready, [] => { dw with pending := d.deferred ++ dw.pending, drain := none }
    | .ready, req :: todo =>
      if req.missionID ∈ d.planning then
        { dw with drain := some { d with todo, deferred := d.deferred ++ [req] } }
      else
        { dw with
          drain := some { d with todo, stage := .deciding req (buildContext D c req.missionID) } }
    | _, _ => dw
  | none => dw

def DeciderWorker.answer (dw : DeciderWorker) (D : DeciderEnv) (c : Control)
    (reply : Except String DeciderOutput) : DeciderWorker :=
  match dw.drain with
  | some d =>
    match d.stage with
    | .deciding req mc =>
      { dw with
        seq := decisionSeq D c dw.seq mc reply
        drain := some { d with
          stage := .submitting (decisionEvents D c dw.seq req mc reply ++ [closeEvent req]) } }
    | _ => dw
  | none => dw

/-- A plan in the queue. -/
structure PlanRequest where
  (missionID runID : String)

/-- The worker of plans. -/
structure VoIWorker where
  (pending todo : List PlanRequest := [])

def VoIWorker.startDrain (vw : VoIWorker) (n : Nat) : VoIWorker :=
  match vw.todo with
  | [] => { pending := vw.pending.drop n, todo := vw.pending.take n }
  | _ => vw

def planned (req : PlanRequest) (result : Except String (List VoICandidate)) : Event :=
  .voiPlanned
    { missionID := req.missionID, runID := req.runID, candidates := result.toOption.getD [] }

def decisionRequest? : Event → Option DecisionRequest
  | .decisionRequested e => some { missionID := e.missionID, runID := e.runID }
  | _ => none

def planRequest? : Event → Option PlanRequest
  | .voiPlanRequested e => some { missionID := e.missionID, runID := e.runID }
  | _ => none

end Gibson.Brain
