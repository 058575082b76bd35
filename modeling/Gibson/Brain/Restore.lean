import Gibson.Brain.Reachable
import Gibson.Brain.Snapshot

/-! What a restore makes of the control stores: missions and work items in their `restored` form. -/

namespace Gibson.Brain

open List Rows Mission WorkItem MissionStarted

def Control.core (c : Control) : List Mission × List WorkItem × List DecisionRecord :=
  (c.missions, c.work, c.decisions)

def CoreInert (ev : Event) : Prop := ∀ env c, (reduceControl env c ev).core = c.core

lemma coreInert_of_applyControl
    (h : ∀ env c, (applyControl env c ev).core = c.core) : CoreInert ev := by
  intro env c
  unfold reduceControl
  split
  · rfl
  · exact h env c

lemma coreInert_missionRewound (e) : CoreInert (.missionRewound e) :=
  coreInert_of_applyControl fun _ _ => by
    simp only [applyControl, applyMissionRewound]
    split <;> rfl

lemma coreInert_missionOriginated (e) : CoreInert (.missionOriginated e) :=
  coreInert_of_applyControl fun _ _ => by
    simp only [applyControl, applyMissionOriginated]
    split <;> rfl

lemma reduceAll_core (env w)
    (h : ∀ ev ∈ evs, CoreInert ev) : (reduceAll env w evs).control.core = w.control.core := by
  induction evs generalizing w with
  | nil => rfl
  | cons ev evs ih =>
    rw [reduceAll_cons, ih _ fun ev hev => h ev (by simp [hev]), reduce_control]
    exact h ev (by simp) env w.control

lemma reduceAll_map_core (env w) (rw0 : List α) (event : α → Event)
    (h : ∀ x, CoreInert (event x)) :
    (reduceAll env w (rw0.map event)).control.core = w.control.core :=
  reduceAll_core env w (forall_mem_map.mpr fun x _ => h x)

lemma reduceAll_flatMap_core (env w) (rw0 : List α)
    (evs : α → List Event) (h : ∀ x, ∀ ev ∈ evs x, CoreInert ev) :
    (reduceAll env w (rw0.flatMap evs)).control.core = w.control.core :=
  reduceAll_core env w (forall_mem_flatMap.mpr fun x _ => h x)

lemma coreInert_planEvents (p : VoIPlanState) : ∀ ev ∈ p.restoreEvents, CoreInert ev := by
  refine forall_mem_cons.mpr ⟨coreInert_of_applyControl fun _ _ => rfl, ?_⟩
  split
  · exact forall_mem_nil _
  · exact forall_mem_singleton.mpr (coreInert_of_applyControl fun _ _ => rfl)

lemma coreInert_of_evidence (h : ∀ env c, applyControl env c ev = c) : CoreInert ev :=
  coreInert_of_applyControl fun env c => by rw [h]

lemma coreInert_actionEvents (a : DestructiveAction) : ∀ ev ∈ a.restoreEvents, CoreInert ev := by
  refine forall_mem_cons.mpr ⟨coreInert_of_evidence fun _ _ => rfl, ?_⟩
  split
  · exact forall_mem_singleton.mpr (coreInert_of_evidence fun _ _ => rfl)
  · exact forall_mem_nil _

lemma coreInert_settlementEvent (s : BetSettlement) : CoreInert s.event := by
  unfold BetSettlement.event
  split <;> exact coreInert_of_evidence fun _ _ => rfl

lemma restoreStores_core (env : Env) (d w) :
    (restoreStores env d w).control.core = w.control.core := by
  repeat first
    | refine (reduceAll_map_core env _ _ _ fun _ => coreInert_of_evidence fun _ _ => rfl).trans ?_
    | refine (reduceAll_map_core env _ _ _ fun _ => coreInert_missionOriginated _).trans ?_
    | refine (reduceAll_map_core env _ _ _ fun _ => coreInert_missionRewound _).trans ?_
    | refine (reduceAll_map_core env _ _ _ coreInert_settlementEvent).trans ?_
    | refine (reduceAll_flatMap_core env _ _ _ coreInert_planEvents).trans ?_
    | refine (reduceAll_flatMap_core env _ _ _ coreInert_actionEvents).trans ?_
  rfl

lemma restoreCounters_core (env d w) :
    (restoreCounters env d w).control.core =
      (reduceAll env w (d.decisions.flatMap DecisionRecord.restoreEvents)).control.core := by
  repeat
    refine (reduceAll_map_core env _ _ _ fun _ => coreInert_of_evidence fun _ _ => rfl).trans ?_
  rfl

def Mission.restored (m : Mission) : Mission where
  id := m.id
  runID := if m.status = .pending then "" else m.runID
  goal := if m.status = .pending then "" else m.goal
  status := m.status
  reason := if m.status.isTerminal then m.reason else ""
  beliefModel := if m.status = .pending then "" else m.beliefModel
  name := m.name
  description := m.description
  targetID := m.targetID
  tenantID := m.tenantID
  createdBy := m.createdBy

variable {c : Control}

lemma updateMission_append_none (m) (f : Mission → Mission) (h : findMission c m.id = none) :
    updateMission { c with missions := c.missions ++ [m] } m.id f =
      { c with missions := c.missions ++ [f m] } := by
  unfold updateMission
  rw [updateFirst_append_of_none f h (by simp)]

lemma reduceControl_start (env e) (h : findMission c e.id = none) :
    reduceControl env c (.missionStarted e) =
      { c with missions := c.missions ++ [e.newMission] } := by
  simp [reduceControl, checkRun, applyControl, applyMissionStarted, h]

lemma reduceControl_pause (env m) (h : findMission c m.id = none) (hm : m.status = .running) :
    reduceControl env { c with missions := c.missions ++ [m] }
        (.missionPauseRequested { id := m.id }) =
      { c with missions := c.missions ++ [{ m with status := .paused }] } := by
  refine (updateMission_append_none m _ h).trans ?_
  rw [if_pos hm]

lemma reduceControl_done (env m reason outcome)
    (h : findMission c m.id = none) (hm : m.status.isTerminal = false) (hdec : c.decisions = []) :
    reduceControl env { c with missions := c.missions ++ [m] }
        (.missionDone { id := m.id, reason, outcome := some outcome }) =
      { c with missions := c.missions ++ [{ m with status := outcome, reason }] } := by
  rw [control_of_current env rfl]
  have hf : findMission { c with missions := c.missions ++ [m] } m.id = some m := by
    rw [findMission_append, h]
    simp
  simp only [applyControl, applyMissionDone, hf, hm, Bool.false_eq_true,
    if_false, updateMission_append_none m _ h, MissionDone.status, Option.getD_some]
  simp [closeDecision, updateOpenDecision, hdec]

lemma restore_mission (env) (m : Mission) (h : findMission c m.id = none)
    (hdec : c.decisions = []) :
    m.restoreEvents.foldl (reduceControl env) c =
      { c with missions := c.missions ++ [m.restored] } := by
  unfold Mission.restoreEvents
  cases hs : m.status with
  | pending =>
    simp [reduceControl, checkRun, applyControl, applyMissionCreated, h, restored, hs,
      MissionStatus.isTerminal]
  | running =>
    simp only [foldl_cons, foldl_nil]
    rw [reduceControl_start env _ h]
    simp [newMission, restored, hs, MissionStatus.isTerminal]
  | paused =>
    simp only [foldl_cons, foldl_nil]
    rw [reduceControl_start env _ h]
    refine (reduceControl_pause env (newMission _) h rfl).trans ?_
    simp [newMission, restored, hs, MissionStatus.isTerminal]
  | completed | failed =>
    simp only [foldl_cons, foldl_nil]
    rw [reduceControl_start env _ h]
    refine (reduceControl_done env (newMission _) m.reason _ h rfl hdec).trans ?_
    simp [newMission, restored, hs, MissionStatus.isTerminal]

lemma restore_missions (env) {ms : List Mission} (hnd : (ms.map Mission.id).Nodup)
    (h : ∀ m ∈ ms, findMission c m.id = none) (hdec : c.decisions = []) :
    (ms.flatMap Mission.restoreEvents).foldl (reduceControl env) c =
      { c with missions := c.missions ++ ms.map Mission.restored } := by
  induction ms generalizing c with
  | nil => simp
  | cons m ms ih =>
    rw [map_cons, nodup_cons] at hnd
    have hfr : ∀ x ∈ ms,
        findMission { c with missions := c.missions ++ [m.restored] } x.id = none := by
      intro x hx
      have hab := h x (by simp [hx])
      have dif : x.id ≠ m.id := fun hs => hnd.1 (hs ▸ mem_map_of_mem hx)
      unfold findMission at hab ⊢
      rw [find?_append, hab]
      simp [restored, dif.symm]
    rw [flatMap_cons, foldl_append, restore_mission env m (h m (by simp)) hdec]
    refine (ih hnd.2 hfr hdec).trans ?_
    simp

/-- The synthetic dispatch carries no dependency and no retry policy. -/
def WorkItem.restored (wi : WorkItem) : WorkItem :=
  { wi with
    state := if wi.state = .skipped then .done else wi.state
    dependsOn := []
    maxRetries := 0
    attempts := 1
    dependentsRunOnFailure := false
    result := if wi.state = .done ∨ wi.state = .skipped then wi.result else ""
    snapshot := if wi.state = .done ∨ wi.state = .skipped then wi.snapshot else ""
    err := if wi.state = .failed then wi.err else "" }

/-- It names no run, or no mission that is there, or the current run of its mission. -/
def runKept (c : Control) (wi : WorkItem) : Bool :=
  wi.runID == "" || (findMission c wi.missionID).all (·.runID == wi.runID)

section
variable {c : Control} {wi : WorkItem}

lemma checkRun_dispatch (h : findWork c wi.id = none) :
    (checkRun c wi.dispatchEvent).verdict = if runKept c wi then .runCurrent else .runDropped := by
  unfold WorkItem.dispatchEvent checkRun
  simp only [workRunCheck_none h, h]
  unfold missionRunCheck runKept
  by_cases hrun : wi.runID = ""
  · simp [hrun]
  cases hm : findMission c wi.missionID with
  | none => simp
  | some m =>
    by_cases hs : m.runID = wi.runID
    · simp [hs]
    · simp [hs, hrun]

def WorkItem.dispatched (wi : WorkItem) : WorkItem :=
  { id := wi.id, missionID := wi.missionID, runID := wi.runID, kind := wi.kind,
    target := wi.target, input := wi.input, state := .running, attempts := 1,
    timeout := wi.timeout, group := wi.group, limit := wi.limit, network := wi.network,
    slotPins := wi.slotPins, startsFrom := wi.startsFrom, forkable := wi.forkable,
    checkpoint := wi.checkpoint, fromSnapshot := wi.fromSnapshot }

lemma reduceControl_dispatch_kept (env) (h : findWork c wi.id = none)
    (hdec : c.decisions = []) (kp : runKept c wi = true) :
    reduceControl env c wi.dispatchEvent = { c with work := c.work ++ [wi.dispatched] } := by
  have cur := checkRun_dispatch h
  rw [if_pos kp] at cur
  rw [control_of_current env cur]
  simp only [WorkItem.dispatchEvent, applyControl, applyWorkDispatched, h]
  unfold recordDecisionDispatch
  split
  · rfl
  · simp [updateOpenDecision, hdec, dispatched, WorkDispatched.newItem]

lemma updateWork_append_none (x) (f : WorkItem → WorkItem) (h : findWork c x.id = none) :
    updateWork { c with work := c.work ++ [x] } x.id f = { c with work := c.work ++ [f x] } := by
  unfold updateWork
  rw [updateFirst_append_of_none f h (by simp)]

lemma updateWork_absent (f : WorkItem → WorkItem) (h : findWork c wi.id = none) :
    updateWork c wi.id f = c := by
  unfold updateWork
  rw [updateFirst_of_none f h]

section
variable (env : Env)
include env

lemma reduceControl_complete (x e) (h : findWork c x.id = none)
    (hx : x.state = .running) (hid : e.id = x.id) (hrun : e.runID = "") :
    reduceControl env { c with work := c.work ++ [x] } (.workCompleted e) =
      { c with work := c.work ++ [x.complete e (c.nextCompletedSeq + 1)],
               nextCompletedSeq := c.nextCompletedSeq + 1 } := by
  have cur : (checkRun { c with work := c.work ++ [x] } (.workCompleted e)).verdict =
      .runCurrent := by simp [checkRun, workRunCheck, hrun]
  have hf : findWork { c with work := c.work ++ [x] } x.id = some x := by
    rw [findWork_append, h]
    simp
  rw [control_of_current env cur]
  simp only [applyControl, applyWorkCompleted, hid, hf, hx,
    WorkState.isTerminal, Bool.false_eq_true, if_false, updateWork_append_none x _ h]

lemma complete_absent (e) (h : findWork c wi.id = none) (hid : e.id = wi.id) :
    reduceControl env c (.workCompleted e) = c := by
  unfold reduceControl
  split
  · rfl
  · simp [applyControl, applyWorkCompleted, hid, h]

lemma reduceControl_retry (x) (h : findWork c x.id = none) (hx : x.state = .failed) :
    reduceControl env { c with work := c.work ++ [x] } (.workRetried { id := x.id }) =
      { c with work := c.work ++ [{ x with state := .pending, err := "" }] } := by
  refine (updateWork_append_none x _ h).trans ?_
  rw [retry, if_pos hx]

section
variable (h : findWork c wi.id = none)
include h

lemma restoreEvents_dropped
    (hdr : ¬ runKept c wi = true) : wi.restoreEvents.foldl (reduceControl env) c = c := by
  have vd := checkRun_dispatch h
  rw [if_neg hdr] at vd
  unfold WorkItem.restoreEvents
  rw [foldl_cons, reduceControl_dropped env vd]
  cases wi.state with
  | running => rfl
  | done | failed | skipped =>
    rw [foldl_cons, complete_absent env _ h rfl, foldl_nil]
  | pending =>
    rw [foldl_cons, complete_absent env _ h rfl]
    exact updateWork_absent _ h

lemma restoreEvents_kept (hdec : c.decisions = [])
    (herr : wi.state = .failed → wi.err ≠ "") (kp : runKept c wi = true) :
    ∃ seq n, wi.restoreEvents.foldl (reduceControl env) c =
      { c with work := c.work ++ [{ wi.restored with completedSeq := seq }],
               nextCompletedSeq := n } := by
  have hcp (e : WorkCompleted) (hid : e.id = wi.id) (hrun : e.runID = "") :=
    reduceControl_complete (c := c) env wi.dispatched e h rfl hid hrun
  unfold WorkItem.restoreEvents
  rw [foldl_cons, reduceControl_dispatch_kept env h hdec kp]
  cases hs : wi.state with
  | running =>
    refine ⟨0, c.nextCompletedSeq, ?_⟩
    simp [WorkItem.dispatched, WorkItem.restored, hs]
  | done | skipped =>
    refine ⟨c.nextCompletedSeq + 1, c.nextCompletedSeq + 1, ?_⟩
    rw [foldl_cons, hcp _ rfl rfl, foldl_nil]
    simp [WorkItem.complete, WorkItem.dispatched, WorkItem.restored, hs]
  | failed =>
    refine ⟨c.nextCompletedSeq + 1, c.nextCompletedSeq + 1, ?_⟩
    rw [foldl_cons, hcp _ rfl rfl, foldl_nil]
    simp [WorkItem.complete, WorkItem.dispatched, WorkItem.restored, hs, herr hs]
  | pending =>
    refine ⟨c.nextCompletedSeq + 1, c.nextCompletedSeq + 1, ?_⟩
    rw [foldl_cons, hcp _ rfl rfl]
    refine (reduceControl_retry (c := { c with nextCompletedSeq := c.nextCompletedSeq + 1 }) env
      (wi.dispatched.complete { id := wi.id, err := "restore:pending" } _) h rfl).trans ?_
    simp [WorkItem.complete, WorkItem.dispatched, WorkItem.restored, hs]

end
end
end

lemma restoreWork_control (env w wi) (h : findWork w.control wi.id = none)
    (hdec : w.control.decisions = []) (herr : wi.state = .failed → wi.err ≠ "") :
    ∃ n, (restoreWork env w wi).control =
      { w.control with
        work := w.control.work ++ if runKept w.control wi then [wi.restored] else [],
        nextCompletedSeq := n } := by
  simp only [restoreWork, reduceAll_control]
  by_cases kp : runKept w.control wi = true
  · obtain ⟨seq, n, hfo⟩ := restoreEvents_kept env h hdec herr kp
    refine ⟨n, ?_⟩
    rw [hfo, if_pos kp]
    exact updateWork_append_none (c := { w.control with nextCompletedSeq := n })
      { wi.restored with completedSeq := seq } _ h
  · refine ⟨w.control.nextCompletedSeq, ?_⟩
    rw [restoreEvents_dropped env h kp, if_neg kp, updateWork_absent _ h, append_nil]

lemma restore_work (env w) {ws : List WorkItem}
    (hnd : (ws.map WorkItem.id).Nodup) (h : ∀ wi ∈ ws, findWork w.control wi.id = none)
    (hdec : w.control.decisions = []) (herr : ∀ wi ∈ ws, wi.state = .failed → wi.err ≠ "") :
    ∃ n, (ws.foldl (restoreWork env) w).control =
      { w.control with
        work := w.control.work ++ (ws.filter (runKept w.control)).map WorkItem.restored,
        nextCompletedSeq := n } := by
  induction ws generalizing w with
  | nil => exact ⟨w.control.nextCompletedSeq, by simp⟩
  | cons wi ws ih =>
    rw [map_cons, nodup_cons] at hnd
    obtain ⟨n, h1⟩ := restoreWork_control env w wi (h wi (by simp)) hdec (herr wi (by simp))
    have hfr : ∀ x ∈ ws, findWork (restoreWork env w wi).control x.id = none := by
      intro x hx
      have hab := h x (by simp [hx])
      have dif : x.id ≠ wi.id := fun hs => hnd.1 (hs ▸ mem_map_of_mem hx)
      unfold findWork at hab ⊢
      rw [h1, find?_append, hab]
      split <;> simp [WorkItem.restored, dif.symm]
    have noD : (restoreWork env w wi).control.decisions = [] := by rw [h1, hdec]
    obtain ⟨k, rs⟩ := ih (restoreWork env w wi) hnd.2 hfr noD
      fun x hx => herr x (by simp [hx])
    have sam : runKept (restoreWork env w wi).control = runKept w.control := by
      funext x
      rw [h1]
      rfl
    refine ⟨k, ?_⟩
    rw [foldl_cons, rs, sam, h1, filter_cons]
    by_cases kp : runKept w.control wi = true <;> simp [kp]

def withDecision (d : DecisionRecord) (m : Mission) : Mission :=
  if m.id == d.missionID then
    { m with decisionInFlight := d.status != .completed, decisionCursor := d.cursor }
  else m

def lastDecision (ds : List DecisionRecord) (missionID : String) : Option DecisionRecord :=
  (ds.filter (·.missionID == missionID)).getLast?

def Mission.decided (ds : List DecisionRecord) (m : Mission) : Mission :=
  match lastDecision ds m.id with
  | none => m
  | some d => { m with decisionInFlight := d.status != .completed, decisionCursor := d.cursor }

section
variable (ds : List DecisionRecord)
include ds

lemma decided_id (m : Mission) : (m.decided ds).id = m.id := by
  unfold decided
  split <;> rfl

lemma decided_status (m : Mission) : (m.decided ds).status = m.status := by
  unfold decided
  split <;> rfl

lemma decided_concat (d : DecisionRecord) (m : Mission) :
    m.decided (ds ++ [d]) = withDecision d (m.decided ds) := by
  unfold withDecision
  rw [decided_id]
  by_cases hmi : m.id = d.missionID
  · unfold decided lastDecision
    simp only [filter_append, filter_cons, hmi, beq_self_eq_true, if_true,
      filter_nil, getLast?_append, getLast?_singleton, Option.some_or]
    split <;> rfl
  · have ho : (d.missionID == m.id) = false := by simpa using Ne.symm hmi
    unfold decided lastDecision
    simp [filter_append, ho, hmi]

end

lemma restore_decision (env c) (d : DecisionRecord) (hnd : (c.missions.map Mission.id).Nodup) :
    let c' := d.restoreEvents.foldl (reduceControl env) c
    c'.missions = c.missions.map (withDecision d) ∧ c'.work = c.work := by
  have hreq : reduceControl env c
      (.decisionRequested { missionID := d.missionID, cursor := d.cursor }) = _ :=
    control_of_current env rfl
  unfold DecisionRecord.restoreEvents
  rw [foldl_cons, hreq]
  by_cases completed : d.status = .completed
  · rw [if_pos completed, foldl_cons, foldl_nil, control_of_current env rfl]
    refine ⟨?_, rfl⟩
    refine (updateFirst_updateFirst _ c.missions ?keepsID).trans ?_
    case keepsID => exact fun _ hm => hm
    refine (updateFirst_eq_map hnd d.missionID _).trans ?_
    refine map_congr_left fun m _ => ?_
    simp [withDecision, completed]
  · rw [if_neg completed, foldl_nil]
    refine ⟨?_, rfl⟩
    refine (updateFirst_eq_map hnd d.missionID _).trans ?_
    refine map_congr_left fun m _ => ?_
    have flag : (d.status != .completed) = true := by simpa using completed
    simp [withDecision, flag]

lemma restore_decisions (env : Env) (c : Control) (ds : List DecisionRecord)
    (hnd : (c.missions.map Mission.id).Nodup) :
    let c' := (ds.flatMap DecisionRecord.restoreEvents).foldl (reduceControl env) c
    c'.missions = c.missions.map (Mission.decided ds) ∧ c'.work = c.work := by
  induction ds using reverseRecOn with
  | nil => exact ⟨(map_id' c.missions).symm, rfl⟩
  | append_singleton ds d ih =>
    obtain ⟨missions, work⟩ := ih
    rw [flatMap_append, flatMap_singleton, foldl_append]
    have ids : (((ds.flatMap DecisionRecord.restoreEvents).foldl (reduceControl env) c).missions.map
        Mission.id).Nodup := by
      rw [missions, map_map]
      convert hnd using 2
      exact funext (decided_id ds)
    obtain ⟨mis', wor'⟩ := restore_decision env _ d ids
    refine ⟨?_, wor'.trans work⟩
    refine mis'.trans ?_
    rw [missions, map_map]
    exact map_congr_left fun m _ => (decided_concat ds d m).symm

/-- It names no run, or no mission that is there, or the run of a mission that has started. -/
def survives (c : Control) (wi : WorkItem) : Bool :=
  wi.runID == "" ||
    (findMission c wi.missionID).all fun m => m.status != .pending && m.runID == wi.runID

section
variable {c' : Control} (h : (c.missions.map Mission.id).Nodup)
  (hc : c'.missions = c.missionSnapshot.map Mission.restored)
include h hc

lemma findMission_restored (id) : findMission c' id = (findMission c id).map Mission.restored := by
  unfold findMission
  rw [hc, find?_map]
  exact congrArg _ (find?_key_of_perm h (sortBy_perm Mission.id c.missions) id)

lemma runKept_restored : runKept c' = survives c := by
  funext wi
  unfold runKept survives
  rw [findMission_restored h hc]
  by_cases hrun : wi.runID = ""
  · simp [hrun]
  cases findMission c wi.missionID with
  | none => simp
  | some m =>
    by_cases hs : m.status = .pending
    · simp [Mission.restored, hs, hrun, Ne.symm hrun]
    · have hsd : (m.status != .pending) = true := by simpa using hs
      simp [Mission.restored, hs, hsd]

end

lemma restoreMissions_core (env w tenant) (h : WellFormed w.control) :
    (restoreMissions env (snapshotWorld w) tenant).control.core =
      (w.control.missionSnapshot.map Mission.restored,
        (w.control.workSnapshot.filter (survives w.control)).map WorkItem.restored, []) := by
  simp only [restoreMissions]
  -- Nothing is in the control stores when the first mission is folded.
  generalize hw0 : reduceAll env _ ((sortBy HostSnapshot.id _).map HostSnapshot.event) = w0
  have hem : w0.control.core = ([], [], []) := by
    rw [← hw0, reduceAll_map_core env _ _ HostSnapshot.event
      fun _ => coreInert_of_evidence fun _ _ => rfl, reduce_control]
    rfl
  obtain ⟨noM, noR⟩ := Prod.mk.inj hem
  obtain ⟨noW, noD⟩ := Prod.mk.inj noR
  generalize hw1 : reduceAll env w0 _ = w1
  have missions : w1.control =
      { w0.control with missions := w.control.missionSnapshot.map restored } := by
    rw [← hw1, reduceAll_control]
    refine (restore_missions env (nodup_map_sortBy h.missionIDs) ?_ noD).trans ?_
    · intro m _
      simp [findMission, noM]
    · rw [noM, nil_append]
      rfl
  have kp : runKept w1.control = survives w.control :=
    runKept_restored h.missionIDs (by rw [missions])
  have hfr : ∀ wi ∈ w.control.workSnapshot, findWork w1.control wi.id = none := by
    intro wi _
    simp [findWork, missions, noW]
  obtain ⟨n, work⟩ := restore_work env w1 (nodup_map_sortBy h.workIDs) hfr
    (by rw [missions, noD]) (fun wi hwi => h.failedErr wi (mem_sortBy.mp hwi))
  rw [kp] at work
  refine (congrArg Control.core work).trans ?_
  simp [Control.core, missions, noW, noD, Control.workSnapshot]

lemma restoreWorld_control (env w tenant) (h : WellFormed w.control) :
    let c' := (restoreWorld env (snapshotWorld w) tenant).control
    c'.missions =
        w.control.missionSnapshot.map (fun m => m.restored.decided w.control.decisionSnapshot) ∧
      c'.work = (w.control.workSnapshot.filter (survives w.control)).map WorkItem.restored := by
  intro c'
  have core : c'.core = _ := restoreCounters_core env (snapshotWorld w)
    (restoreStores env (snapshotWorld w) (restoreMissions env (snapshotWorld w) tenant))
  generalize hw1 : restoreStores env (snapshotWorld w)
    (restoreMissions env (snapshotWorld w) tenant) = w1 at core
  have hb := (restoreStores_core env (snapshotWorld w) _).trans
    (restoreMissions_core env w tenant h)
  rw [hw1] at hb
  obtain ⟨missions, rs⟩ := Prod.mk.inj hb
  obtain ⟨work, -⟩ := Prod.mk.inj rs
  rw [reduceAll_control] at core
  have ids : (w1.control.missions.map Mission.id).Nodup := by
    rw [missions, map_map]
    exact nodup_map_sortBy h.missionIDs
  obtain ⟨mis', wor'⟩ := restore_decisions env w1.control w.control.decisionSnapshot ids
  obtain ⟨mis, res⟩ := Prod.mk.inj core
  obtain ⟨wor, -⟩ := Prod.mk.inj res
  constructor
  · refine mis.trans (mis'.trans ?_)
    rw [missions, map_map]
    rfl
  · exact wor.trans (wor'.trans work)

end Gibson.Brain
