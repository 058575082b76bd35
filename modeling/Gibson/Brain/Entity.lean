import Gibson.Brain.MissionView

/-! What an event does to the entity of one mission, as a function of that entity alone. -/

namespace Gibson.Brain

open Rows Mission

lemma findMission_projectWork (c e id) : findMission (projectWork c e) id = findMission c id := by
  unfold projectWork
  generalize e.nodes = ns
  induction ns generalizing c with
  | nil => rfl
  | cons n ns ih =>
    rw [List.foldl_cons, ih]
    unfold projectNode
    split <;> rfl

lemma startRun_id (e m) : (startRun e m).id = m.id := rfl

def Mission.project (e : MissionProjected) : Option Mission → Mission
  | some m =>
    if m.status = .pending then startRun e m else if m.runID = e.runID then m else e.newMission
  | none => e.newMission

def Mission.finish (e : MissionDone) (m : Mission) : Mission :=
  if m.status.isTerminal then m else { m with status := e.status, reason := e.reason }

def Mission.pause (m : Mission) : Mission :=
  if m.status = .running then { m with status := .paused } else m

def Mission.resume (m : Mission) : Mission :=
  if m.status = .paused then { m with status := .running } else m

/-! Starting, pausing, resuming and finishing leave the run of a mission as it is, and only
finishing ends it. -/

@[simp] lemma Mission.start_runID (e) (m : Mission) : (m.start e).runID = m.runID := by
  unfold start
  split <;> rfl

@[simp] lemma Mission.finish_runID (e) (m : Mission) : (m.finish e).runID = m.runID := by
  unfold finish
  split <;> rfl

@[simp] lemma Mission.pause_runID (m : Mission) : m.pause.runID = m.runID := by
  unfold pause
  split <;> rfl

@[simp] lemma Mission.resume_runID (m : Mission) : m.resume.runID = m.runID := by
  unfold resume
  split <;> rfl

@[simp] lemma Mission.start_isTerminal (e) (m : Mission) :
    (m.start e).status.isTerminal = m.status.isTerminal := by
  unfold start
  split
  · rfl
  · next hp =>
    rw [not_not.mp hp]
    rfl

@[simp] lemma Mission.pause_isTerminal (m : Mission) :
    m.pause.status.isTerminal = m.status.isTerminal := by
  unfold pause
  split <;> simp [*, MissionStatus.isTerminal]

@[simp] lemma Mission.resume_isTerminal (m : Mission) :
    m.resume.status.isTerminal = m.status.isTerminal := by
  unfold resume
  split <;> simp [*, MissionStatus.isTerminal]

def missionAfter (id : String) (ev : Event) (m : Option Mission) : Option Mission :=
  match ev with
  | .missionCreated e =>
    if id == e.id then
      m.or (some { id := e.id, status := .pending, name := e.name, description := e.description,
                   targetID := e.targetID, tenantID := e.tenantID, createdBy := e.createdBy })
    else m
  | .missionStarted e =>
    if id == e.id then (m.map (Mission.start e)).or (some e.newMission) else m
  | .missionProjected e => if id == e.id then some (Mission.project e m) else m
  | .missionDone e => if id == e.id then m.map (Mission.finish e) else m
  | .missionPauseRequested e => if id == e.id then m.map Mission.pause else m
  | .missionResumed e => if id == e.id then m.map Mission.resume else m
  | .decisionRequested e =>
    if id == e.missionID then
      m.map fun m => { m with decisionInFlight := true, decisionCursor := e.cursor }
    else m
  | .decisionCompleted e =>
    if id == e.missionID then m.map fun m => { m with decisionInFlight := false } else m
  | .tokenUsed e =>
    if id == e.missionID then m.map (·.addTokens e.tokens) else m
  | .scanReconciled e =>
    if id == e.missionID then m.map fun m => { m with reconciled := true } else m
  | _ => m

def Mission.GoesOn (m m' : Mission) : Prop :=
  m'.runID = m.runID ∧ m'.status.isTerminal = m.status.isTerminal ∧
    (m'.status = .pending → m.status = .pending)

/-- Only its projection and its end take a mission out of its run. -/
lemma missionAfter_goesOn {id} (hpr : ∀ e, ev = .missionProjected e → e.id ≠ id)
    (hdn : ∀ e, ev = .missionDone e → e.id ≠ id) (m : Mission) :
    ∃ m', missionAfter id ev (some m) = some m' ∧ m.GoesOn m' := by
  have hs : m.GoesOn m := ⟨rfl, rfl, fun hp => hp⟩
  have kp {hh : Bool} {f : Mission → Mission} (on : m.GoesOn (f m)) :
      ∃ m', (if hh then (some m).map f else some m) = some m' ∧ m.GoesOn m' := by
    cases hh with
    | true => exact ⟨f m, rfl, on⟩
    | false => exact ⟨m, rfl, hs⟩
  cases ev
  case missionProjected e => exact ⟨m, by simp [missionAfter, Ne.symm (hpr e rfl)], hs⟩
  case missionDone e => exact ⟨m, by simp [missionAfter, Ne.symm (hdn e rfl)], hs⟩
  case missionCreated e => exact ⟨m, by simp [missionAfter], hs⟩
  case missionStarted e =>
    have ha : missionAfter id (.missionStarted e) (some m) =
        if id == e.id then (some m).map (start e) else some m := by simp [missionAfter]
    refine kp ⟨m.start_runID e, m.start_isTerminal e, ?_⟩
    unfold start
    split <;> simp_all
  case missionPauseRequested e =>
    refine kp (f := pause) ⟨m.pause_runID, m.pause_isTerminal, ?_⟩
    unfold pause
    split <;> simp
  case missionResumed e =>
    refine kp (f := resume) ⟨m.resume_runID, m.resume_isTerminal, ?_⟩
    unfold resume
    split <;> simp
  case decisionRequested e | decisionCompleted e | tokenUsed e | scanReconciled e =>
    exact kp hs
  all_goals exact ⟨m, rfl, hs⟩

variable {env : Env} {c : Control} {id : String}

lemma findMission_launchRun (e) : findMission (launchRun c e) id =
      (findMission c id).or (if e.id == id then some e.newMission else none) := by
  unfold launchRun
  rw [findMission_projectWork, findMission_append]
  rfl

lemma findMission_projected (e) :
    findMission (applyMissionProjected env c e) e.id = some (project e (findMission c e.id)) := by
  unfold applyMissionProjected
  cases hf : findMission c e.id with
  | none =>
    simp only [findMission_launchRun, hf]
    simp [project]
  | some m =>
    by_cases hp : m.status = .pending
    · simp only [hp, if_true]
      rw [findMission_projectWork, findMission_updateMission (startRun_id e), hf]
      simp [project, hp]
    · by_cases hsru : m.runID = e.runID
      · simp [project, hp, hsru, hf]
      simp only [hp, hsru, if_false]
      rw [findMission_launchRun, findMission_retireMissionRun]
      simp [project, hp, hsru]

lemma findMission_projected_other (wf : WellFormed c) (ho : id ≠ e.id) :
    findMission (applyMissionProjected env c e) id = findMission c id := by
  have hlau (x : Control) : findMission (launchRun x e) id = findMission x id := by
    rw [findMission_launchRun, if_neg (by simpa using Ne.symm ho), Option.or_none]
  unfold applyMissionProjected
  split
  · split
    · rw [findMission_projectWork, findMission_updateMission (startRun_id e),
        if_neg (by simpa using ho)]
    split
    · rfl
    · rw [hlau, findMission_retire_other env wf (Ne.symm ho)]
  · exact hlau c

lemma findMission_applyMissionDone (e) : findMission (applyMissionDone c e) id =
      if id == e.id then (findMission c id).map (finish e) else findMission c id := by
  unfold applyMissionDone
  by_cases own : id = e.id
  · subst own
    rw [if_pos (by simp)]
    cases hf : findMission c e.id with
    | none => exact hf
    | some m =>
      by_cases hed : m.status.isTerminal
      · simp [hed, finish, hf]
      simp only [hed, Bool.false_eq_true, if_false]
      refine (findMission_updateMission ?_ c e.id e.id).trans ?_
      · exact fun _ => rfl
      · simp [hf, finish, hed]
  · rw [if_neg (by simpa using own)]
    split
    · split
      · rfl
      · refine (findMission_updateMission ?_ c e.id id).trans (if_neg (by simpa using own))
        exact fun _ => rfl
    · rfl

lemma findMission_applyMissionStarted (e) :
    findMission (applyMissionStarted c e) id =
      if id == e.id then ((findMission c id).map (start e)).or (some e.newMission)
      else findMission c id := by
  unfold applyMissionStarted
  by_cases own : id = e.id
  · subst own
    cases hf : findMission c e.id with
    | none =>
      simp only [findMission_append, hf]
      simp [MissionStarted.newMission]
    | some m =>
      simp only [findMission_updateMission (start_id e), hf]
      simp
  · rw [if_neg (by simpa using own)]
    split
    · rw [findMission_updateMission (start_id e), if_neg (by simpa using own)]
    · rw [findMission_append]
      simp [MissionStarted.newMission, Ne.symm own]

lemma findMission_applyMissionCreated (e) :
    findMission (applyMissionCreated c e) id =
      missionAfter id (.missionCreated e) (findMission c id) := by
  simp only [applyMissionCreated, missionAfter]
  by_cases own : id = e.id
  · subst own
    cases hf : findMission c e.id with
    | none =>
      simp only [findMission_append, hf]
      simp
    | some m => simp [hf]
  · rw [if_neg (by simpa using own)]
    split
    · rfl
    · rw [findMission_append]
      simp [Ne.symm own]

lemma findMission_applyConditionResolved (e) :
    findMission (applyConditionResolved c e) id = findMission c id := by
  have kp (ids : List String) (x : Control) :
      (ids.foldl (fun c id => updateWork c id WorkItem.skip) x).missions = x.missions := by
    induction ids generalizing x with
    | nil => rfl
    | cons id ids ih => exact ih _
  unfold findMission applyConditionResolved
  rw [kp]
  rfl

lemma findMission_applyControl (wf : WellFormed c) (ev) :
    findMission (applyControl env c ev) id = missionAfter id ev (findMission c id) := by
  have hw {f : Mission → Mission} (hf : ∀ m, (f m).id = m.id) (ho : String) :
      findMission (updateMission c ho f) id =
        if id == ho then (findMission c id).map f else findMission c id := by
    rw [findMission_updateMission hf]
    by_cases own : id = ho
    · rw [own]
    · simp [own]
  cases ev
  case missionCreated e => exact findMission_applyMissionCreated e
  case missionStarted e => exact findMission_applyMissionStarted e
  case missionProjected e =>
    by_cases own : id = e.id
    · subst own
      refine (findMission_projected e).trans ?_
      simp [missionAfter]
    · refine (findMission_projected_other wf own).trans ?_
      simp [missionAfter, own]
  case missionDone e => exact findMission_applyMissionDone e
  case missionPauseRequested e => exact hw pause_id e.id
  case missionResumed e => exact hw resume_id e.id
  case decisionRequested e =>
    refine hw (f := fun m => { m with decisionInFlight := true, decisionCursor := e.cursor })
      ?_ e.missionID
    exact fun _ => rfl
  case decisionCompleted e =>
    refine hw (f := fun m => { m with decisionInFlight := false }) ?_ e.missionID
    exact fun _ => rfl
  case tokenUsed e =>
    refine hw (f := (·.addTokens e.tokens)) ?_ e.missionID
    exact fun _ => rfl
  case scanReconciled e =>
    refine hw (f := fun m => { m with reconciled := true }) ?_ e.missionID
    exact fun _ => rfl
  case conditionResolved e => exact findMission_applyConditionResolved e
  all_goals
    first
    | rfl
    | simp only [applyControl, applyWorkDispatched, recordDecisionDispatch, applyWorkCompleted,
        applyMissionRewound, applyMissionOriginated]
      repeat' split
      all_goals rfl

end Gibson.Brain
