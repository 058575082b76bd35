import Gibson.Lib.Rely
import Gibson.Runs.Standing

/-! The life of one run of a mission record: its executor, Stop, and what else happens to the record
meanwhile. Whether a call succeeds is decided by the manager or from outside. -/

namespace Gibson.Runs

open Brain Requests Function

/-- What the executor reads of the mission manager, the mission record and the definition. -/
structure Setup where
  missionID : String
  (defName name description targetID tenantID : String := "")
  createdBy : Principal := {}
  parentMissionID : Option String := none
  (quotaCounter pool : Bool := true)

/-- The entry of a run in the active map. The number stands for the pointer. -/
structure ActiveMission where
  entry : Nat
  missionRun : Option String
  deriving DecidableEq

def runIDOf (am : ActiveMission) : String := am.missionRun.getD ""

inductive Preparation where
  | pool
  | projection
  | bootstrap
  | target
  | harness
  | pin

abbrev Preparation.Product : Preparation → Type
  | .projection => MissionProjected
  | .pin => String
  | _ => Unit

def Preparation.reason (err : String) : Preparation → String
  | .pool => "failed to acquire tenant Neo4j session: " ++ err
  | .projection => "failed to project mission into the World: " ++ err
  | .bootstrap => "failed to initialize mission graph: " ++ err
  | .target => err
  | .harness => "failed to create harness: " ++ err
  | .pin => "failed to pin the belief version: " ++ err

inductive AuthzStatus where
  | active
  | completed
  | cancelled
  deriving DecidableEq

inductive FinalStatus where
  | completed
  | failed
  | cancelled
  deriving DecidableEq

inductive Request where
  | findActiveAnyTenant
  | incrementMissionCount (am : ActiveMission)
  | decrementMissionCount (am : ActiveMission)
  | prepare (stage : Preparation)
  | reserveChildBudget (am : ActiveMission)
  | submit (ev : Event)
  | awaitBrainMission (am : ActiveMission)
  | markAuthz (runID : String) (status : AuthzStatus)
  | releaseReservation (am : ActiveMission)
  | deleteActive (am : ActiveMission)
  | cancel (am : ActiveMission)

abbrev Reply : Request → Type
  | .findActiveAnyTenant => Option ActiveMission
  | .incrementMissionCount _ | .decrementMissionCount _ => Bool
  | .prepare stage => Except String stage.Product
  | .reserveChildBudget _ => Except String Unit
  | .awaitBrainMission _ => FinalStatus
  | _ => Unit

abbrev Prog := Program Request Reply

def ask (q : Request) : Prog (Reply q) := send q

def failBeforeStart (m : Setup) (am : ActiveMission) (reason : String) : Prog Unit := do
  ask (.submit (.missionProjected
    { id := m.missionID, runID := runIDOf am, name := m.defName }))
  ask (.submit (.missionStarted { id := m.missionID, runID := runIDOf am, name := m.defName }))
  ask (.submit (.missionDone
    { id := m.missionID, runID := runIDOf am, outcome := some .failed, reason }))

def takeQuotaSlot (m : Setup) (am : ActiveMission) : Prog Unit :=
  if m.quotaCounter then do
    let _ ← ask (.incrementMissionCount am)
    pure ()
  else pure ()

def releaseQuotaSlot (m : Setup) (am : ActiveMission) : Prog Unit :=
  if m.quotaCounter then do
    let _ ← ask (.decrementMissionCount am)
    pure ()
  else pure ()

def reserveRunBudget (m : Setup) (am : ActiveMission) : Prog Bool :=
  match m.parentMissionID with
  | none => pure true
  | some _ => do
    match ← ask (.reserveChildBudget am) with
    | .ok _ => pure true
    | .error err => do
      failBeforeStart m am
        ("failed to reserve the budget of the run against the parent: " ++ err)
      releaseQuotaSlot m am
      pure false

def finalizeAuthzState (runID : String) (final : FinalStatus) : Prog Unit :=
  ask (.markAuthz runID (if final = .completed then .completed else .cancelled))

def endRunAccounting (m : Setup) (am : ActiveMission) : Prog Unit := do
  if m.parentMissionID.isSome then ask (.releaseReservation am) else pure ()
  releaseQuotaSlot m am

def prepared (m : Setup) (am : ActiveMission) (stage : Preparation)
    (next : stage.Product → Prog Unit) : Prog Unit := do
  match ← ask (.prepare stage) with
  | .error err => failBeforeStart m am (stage.reason err)
  | .ok product => next product

def driveRun (m : Setup) (am : ActiveMission) (runID : String) (proj : MissionProjected)
    (beliefVersion : String) : Prog Unit := do
  ask (.submit (.missionProjected
    { proj with
      id := m.missionID
      runID
      beliefModel := beliefVersion
      name := m.name
      description := m.description
      targetID := m.targetID
      tenantID := m.tenantID }))
  ask (.submit (.missionStarted
    { id := m.missionID
      runID
      beliefModel := beliefVersion
      name := m.name
      description := m.description
      targetID := m.targetID
      tenantID := m.tenantID
      createdBy := m.createdBy }))
  let final ← ask (.awaitBrainMission am)
  finalizeAuthzState runID final
  endRunAccounting m am

def executeRun (m : Setup) (am : ActiveMission) : Prog Unit := do
  takeQuotaSlot m am
  if m.pool then
    prepared m am .pool fun _ =>
      match am.missionRun with
      | none => failBeforeStart m am "internal error: mission run not initialized"
      | some runID =>
        prepared m am .projection fun proj =>
          prepared m am .bootstrap fun _ =>
            prepared m am .target fun _ =>
              prepared m am .harness fun _ =>
                prepared m am .pin fun beliefVersion => do
                  if ← reserveRunBudget m am then driveRun m am runID proj beliefVersion
                  else pure ()
  else
    failBeforeStart m am "data-plane pool is required for mission execution but not configured"

def executeMission (m : Setup) : Prog Unit := do
  match ← ask .findActiveAnyTenant with
  | none => pure ()
  | some am => do
    executeRun m am
    ask (.deleteActive am)

/-- Tells the World that the run is over, then cancels its context. -/
def stop (m : Setup) : Prog Unit := do
  match ← ask .findActiveAnyTenant with
  | none => pure ()
  | some am => do
    ask (.submit (.missionDone
      { id := m.missionID, runID := runIDOf am, outcome := some .failed,
        reason := "stopped by user" }))
    ask (.cancel am)

inductive Operation where
  | executeMission
  | stop

def Operation.body (m : Setup) : Operation → Prog Unit
  | .executeMission => Runs.executeMission m
  | .stop => Runs.stop m

/-- What the manager and its stores hold for one mission record. For each run the state keeps how
often it wrote the counter, and the runs that were cancelled while they held a slot. -/
structure Manager where
  active : Option ActiveMission := none
  cancelled : List ActiveMission := []
  authz : String → Option AuthzStatus := fun _ => none
  reserved : Bool := false
  submitted : List Event := []
  folded : Nat := 0
  incremented : ActiveMission → Nat := fun _ => 0
  decremented : ActiveMission → Nat := fun _ => 0
  cutShort : List ActiveMission := []

def Manager.holdsSlot (s : Manager) (am : ActiveMission) : Bool :=
  s.decremented am < s.incremented am

/-- The control stores of the World as far as the engine has folded the events. -/
def Manager.world (env : Env) (c : Control) (s : Manager) : Control :=
  (s.submitted.take s.folded).foldl (reduceControl env) c

def endOf (c : Control) (missionID runID : String) : Option FinalStatus :=
  match findMission c missionID with
  | some mission =>
    if mission.runID = runID then
      match mission.status with
      | .completed => some .completed
      | .failed => some .failed
      | _ => none
    else none
  | none => none

def newerRunActive (s : Manager) (am : ActiveMission) : Bool :=
  match s.active with
  | some cur => cur != am
  | none => false

/-- What decides a call that the manager does not decide. -/
inductive Answer where
  | succeeds
  | projects (proj : MissionProjected)
  | pins (version : String)
  | fails (err : String)
  | interrupted

def Preparation.outcome (a : Answer) : (stage : Preparation) → Option (Except String stage.Product)
  | .projection =>
    match a with
    | .projects proj => some (.ok proj)
    | .fails err => some (.error err)
    | _ => none
  | .pin =>
    match a with
    | .pins version => some (.ok version)
    | .fails err => some (.error err)
    | _ => none
  | .pool | .bootstrap | .target | .harness =>
    match a with
    | .succeeds => some (.ok ())
    | .fails err => some (.error err)
    | _ => none

def removeActive (s : Manager) (am : ActiveMission) : Manager :=
  { s with active := if s.active = some am then none else s.active }

def deleteActive (s : Manager) (am : ActiveMission) : Manager :=
  removeActive { s with cancelled := am :: s.cancelled } am

def cancelContext (s : Manager) (am : ActiveMission) : Manager :=
  { s with
    cancelled := am :: s.cancelled
    cutShort := if am ∉ s.cancelled ∧ s.holdsSlot am then am :: s.cutShort else s.cutShort }

def settle (s : Manager) (am : ActiveMission) : Manager :=
  if newerRunActive s am then s else { s with reserved := false }

/-- The manager answers a request, or the request waits. -/
def serve (m : Setup) (env : Env) (c : Control) (s : Manager) :
    (q : Request) → Answer → Option (Manager × Reply q)
  | .findActiveAnyTenant, _ => some (s, s.active)
  | .incrementMissionCount am, _ =>
    if am ∈ s.cancelled then some (s, false)
    else some
      ({ s with incremented := update s.incremented am (s.incremented am + 1) }, true)
  | .decrementMissionCount am, _ =>
    if am ∈ s.cancelled then some (s, false)
    else some
      ({ s with decremented := update s.decremented am (s.decremented am + 1) }, true)
  | .prepare stage, a => (stage.outcome a).map fun outcome => (s, outcome)
  | .reserveChildBudget am, a =>
    match a with
    | .fails err => some (s, .error err)
    | _ =>
      if am ∈ s.cancelled then some (s, .error "context canceled")
      else some ({ s with reserved := true }, .ok ())
  | .submit ev, _ => some ({ s with submitted := s.submitted ++ [ev] }, ())
  | .awaitBrainMission am, a =>
    match a with
    | .interrupted => if am ∈ s.cancelled then some (s, .cancelled) else none
    | _ => (endOf (s.world env c) m.missionID (runIDOf am)).map fun final => (s, final)
  | .markAuthz runID status, _ =>
    some ({ s with authz := update s.authz runID (some status) }, ())
  | .releaseReservation am, _ => some (settle s am, ())
  | .deleteActive am, _ => some (deleteActive s am, ())
  | .cancel am, _ => some (cancelContext s am, ())

def Effect (s t : Manager) : Request → Prop
  | .incrementMissionCount am =>
    t = s ∨ t = { s with incremented := update s.incremented am (s.incremented am + 1) }
  | .decrementMissionCount am =>
    t = s ∨ t = { s with decremented := update s.decremented am (s.decremented am + 1) }
  | .reserveChildBudget _ => t = s ∨ t = { s with reserved := true }
  | .submit ev => t = { s with submitted := s.submitted ++ [ev] }
  | .markAuthz runID status => t = { s with authz := update s.authz runID (some status) }
  | .releaseReservation am => t = settle s am
  | .deleteActive am => t = deleteActive s am
  | .cancel am => t = cancelContext s am
  | .findActiveAnyTenant | .prepare _ | .awaitBrainMission _ => t = s

lemma serve_effect (hv : serve m env c s q a = some (t, reply)) : Effect s t q := by
  cases q with
  | prepare sg =>
    obtain ⟨_, -, hs⟩ := Option.map_eq_some_iff.mp hv
    cases hs
    rfl
  | awaitBrainMission am =>
    simp only [serve] at hv
    split at hv
    · split at hv
      · cases hv
        rfl
      · cases hv
    · obtain ⟨_, -, hs⟩ := Option.map_eq_some_iff.mp hv
      cases hs
      rfl
  | incrementMissionCount am | decrementMissionCount am =>
    simp only [serve] at hv
    split at hv
    · cases hv
      exact .inl rfl
    · cases hv
      exact .inr rfl
  | reserveChildBudget am =>
    simp only [serve] at hv
    split at hv
    · cases hv
      exact .inl rfl
    split at hv
    · cases hv
      exact .inl rfl
    · cases hv
      exact .inr rfl
  | _ =>
    cases hv
    rfl

/-- What else happens to the record. -/
inductive Change where
  | submit (ev : Event)
  | fold
  | claim (am : ActiveMission)
  | reserve (am : ActiveMission)
  | release (am : ActiveMission)
  | leave (am : ActiveMission)

def runEnded (m : Setup) (env : Env) (c : Control) (s : Manager) (am : ActiveMission) : Bool :=
  (endOf (s.world env c) m.missionID (runIDOf am)).isSome

def change (m : Setup) (env : Env) (c : Control) (s : Manager) : Change → Manager
  | .submit ev => { s with submitted := s.submitted ++ [ev] }
  | .fold => { s with folded := s.folded + 1 }
  | .claim am =>
    -- The entry of a run that is still going is not replaced.
    match s.active with
    | none => { s with active := some am }
    | some cur => if runEnded m env c s cur then { s with active := some am } else s
  | .reserve am => if s.active = some am then { s with reserved := true } else s
  | .release am => settle s am
  | .leave am => removeActive s am

abbrev RunStep := Interleaving.Step Operation Answer Change

def runSystem (m : Setup) (env : Env) (c : Control) :=
  Calls.system (Operation.body m) (serve m env c) (change m env c)

/-- The executor of a run has just been launched. -/
def launched (m : Setup) (s : Manager) :
    Interleaving.World (Calls.Served Manager Operation Request Reply)
      (Calls.Call Operation Request Reply Unit) where
  shared := { state := s }
  calls := [{ op := .executeMission, rest := executeMission m }]

end Gibson.Runs
