import Gibson.Brain.MissionView

/-! The slice of a Timeline that belongs to one mission: the events of its latest run. -/

namespace Gibson.Brain

open Rows

def missionRun? (missionID : String) : Event → Option String
  | .missionProjected e => if e.id = missionID then some e.runID else none
  | _ => none

def latestMissionRun (events : List Event) (missionID : String) : Option String :=
  (events.filterMap (missionRun? missionID)).getLast?

def firstMissionRun (events : List Event) (missionID : String) : String :=
  (events.filterMap (missionRun? missionID)).head?.getD ""

def attaches (missionID id : String) : Event → Bool
  | .missionProjected e => e.id == missionID && e.nodes.any fun n => workID e.id n.id == id
  | .workDispatched e => e.missionID == missionID && e.id == id
  | _ => false

def owned (events : List Event) (missionID id : String) : Bool :=
  events.any (attaches missionID id)

def explicitRunID : Event → String
  | .missionProjected e | .missionStarted e | .missionDone e | .missionPauseRequested e
  | .missionResumed e | .workDispatched e | .workCompleted e | .decisionRequested e
  | .decisionCompleted e => e.runID
  | .hostObserved e | .findingRaised e | .entityObserved e | .llmCallObserved e
  | .agentToolCallObserved e => e.missionRunID
  | _ => ""

/-- Whether an event is attributable to the mission, given the work ids it owns. -/
def eventInMission (ev : Event) (missionID : String) (owned : String → Bool) : Bool :=
  match ev with
  | .missionCreated e | .missionStarted e | .missionProjected e | .missionPauseRequested e
  | .missionResumed e | .missionDone e => e.id == missionID
  | .missionRewound e | .missionOriginated e | .workDispatched e => e.missionID == missionID
  | .workRetried e | .workCompleted e | .conditionResolved e => owned e.id
  | .decisionRequested e | .decisionCompleted e | .tokenUsed e => e.missionID == missionID
  | .hostObserved e | .findingRaised e | .entityObserved e | .findingStatusChanged e =>
    e.missionID != "" && e.missionID == missionID
  | .scanReconciled e => e.missionID == missionID
  | .llmCallObserved e | .betProofSubmittedForReview e | .agentToolCallObserved e =>
    e.missionID != "" && e.missionID == missionID
  | _ => false

def runOf (current : String) (ev : Event) : String :=
  if explicitRunID ev = "" then current else explicitRunID ev

def collect (missionID : String) (run : Option String) (owned : String → Bool) :
    String → List Event → List Event
  | _, [] => []
  | current, ev :: rest =>
    let current := (missionRun? missionID ev).getD current
    if eventInMission ev missionID owned && run.all (runOf current ev == ·) then
      ev :: collect missionID run owned current rest
    else collect missionID run owned current rest

/-- The events of the latest run; of every event that names the mission, where it was never
projected; the whole list, where no mission is named. -/
def missionSlice (events : List Event) (missionID : String) : List Event :=
  if missionID = "" then events
  else
    collect missionID (latestMissionRun events missionID) (owned events missionID)
      (firstMissionRun events missionID) events

end Gibson.Brain
