import Gibson.Brain.Reduce

/-! What every reachable World keeps: one entity for each id, and an error on every failed item. -/

namespace Gibson.Brain

open Rows WorkItem List

/-- What every replayed state satisfies. -/
structure WellFormed (c : Control) : Prop where
  missionIDs : (c.missions.map Mission.id).Nodup
  workIDs : (c.work.map WorkItem.id).Nodup
  failedErr : ∀ wi ∈ c.work, wi.state = .failed → wi.err ≠ ""

lemma wellFormed_empty : WellFormed {} :=
  ⟨nodup_nil, nodup_nil, by simp⟩

variable {c : Control}

lemma findMission_of_mem (wf : WellFormed c) (mem : m ∈ c.missions) : findMission c m.id = some m :=
  (find?_key_iff wf.missionIDs).mpr ⟨mem, rfl⟩

lemma findWork_of_mem (wf : WellFormed c) (mem : wi ∈ c.work) : findWork c wi.id = some wi :=
  (find?_key_iff wf.workIDs).mpr ⟨mem, rfl⟩

section Update
variable {c : Control}

section
variable (h : WellFormed c)
include h

lemma WellFormed.updateMission (id) {f : Mission → Mission}
    (hf : ∀ m, (f m).id = m.id) : WellFormed (updateMission c id f) := by
  refine ⟨?_, h.workIDs, h.failedErr⟩
  show ((updateFirst _ f c.missions).map Mission.id).Nodup
  rw [map_updateFirst Mission.id c.missions fun m _ => hf m]
  exact h.missionIDs

lemma WellFormed.updateWork (id) {f : WorkItem → WorkItem} (hid : ∀ wi, (f wi).id = wi.id)
    (herr : ∀ wi, (wi.state = .failed → wi.err ≠ "") → (f wi).state = .failed → (f wi).err ≠ "") :
    WellFormed (updateWork c id f) := by
  refine ⟨h.missionIDs, ?_, forall_updateFirst h.failedErr fun wi _ hwi => herr wi hwi⟩
  show ((updateFirst _ f c.work).map WorkItem.id).Nodup
  rw [map_updateFirst WorkItem.id c.work fun wi _ => hid wi]
  exact h.workIDs

lemma WellFormed.updateOpenDecision (id)
    (f : DecisionRecord → DecisionRecord) : WellFormed (updateOpenDecision c id f) :=
  { h with }

lemma WellFormed.addMission (hm : findMission c m.id = none) :
    WellFormed { c with missions := c.missions ++ [m] } :=
  ⟨nodup_map_append_of_find? h.missionIDs hm, h.workIDs, h.failedErr⟩

lemma WellFormed.addWork (hwi : findWork c wi.id = none)
    (hst : wi.state ≠ .failed) : WellFormed { c with work := c.work ++ [wi] } := by
  refine ⟨h.missionIDs, nodup_map_append_of_find? h.workIDs hwi, ?_⟩
  intro x hx
  rcases mem_append.mp hx with hx | hx
  · exact h.failedErr x hx
  have hs : x = wi := by simpa using hx
  subst hs
  exact fun hfa => absurd hfa hst

end
end Update

section Step
variable {c : Control}

lemma redispatch_id (e) (wi : WorkItem) : (wi.redispatch e).id = wi.id := rfl

lemma wellFormed_applyWorkDispatched (h : WellFormed c) (e) :
    WellFormed (applyWorkDispatched c e) := by
  unfold applyWorkDispatched
  split
  · split
    · exact h
    · exact h.updateWork e.id (redispatch_id e) fun wi _ hfa => by
        simp [redispatch] at hfa
  · next hno =>
    have add : WellFormed { c with work := c.work ++ [e.newItem] } :=
      h.addWork hno (by simp [WorkDispatched.newItem])
    unfold recordDecisionDispatch
    split
    · exact add
    · exact add.updateOpenDecision _ _

lemma complete_id (e) (seq : Nat) (wi : WorkItem) : (wi.complete e seq).id = wi.id := by
  unfold complete
  split <;> rfl

lemma wellFormed_applyWorkCompleted (h : WellFormed c) (e) :
    WellFormed (applyWorkCompleted c e) := by
  unfold applyWorkCompleted
  split
  · split
    · exact h
    have completed := h.updateWork e.id (complete_id e (c.nextCompletedSeq + 1)) fun wi _ => by
      unfold complete
      split
      · next herr => exact fun _ => herr
      · simp
    exact { completed with }
  · exact h

lemma wellFormed_applyConditionResolved (h : WellFormed c) (e) :
    WellFormed (applyConditionResolved c e) := by
  refine foldlRecOn e.skip _ ?_ fun c hc id _ => ?_
  · refine h.updateWork e.id (fun wi => ?_) (fun wi hwi => ?_)
    · unfold resolve; split <;> rfl
    unfold resolve
    split
    · simp
    · exact hwi
  · refine hc.updateWork id (fun wi => ?_) (fun wi hwi => ?_)
    · unfold skip; split <;> rfl
    unfold skip
    split
    · simp
    · exact hwi

lemma start_id (e) (m : Mission) : (m.start e).id = m.id := by
  unfold Mission.start
  split <;> rfl

section
variable (h : WellFormed c)
include h

lemma wellFormed_projectWork (e) : WellFormed (projectWork c e) := by
  refine foldlRecOn e.nodes _ h fun c hc n _ => ?_
  unfold projectNode
  split
  · exact hc
  · next hno => exact hc.addWork hno (by simp [MissionProjected.newItem])

end

lemma wellFormed_retireMissionRun (env) (h : WellFormed c) (missionID) :
    WellFormed (retireMissionRun env c missionID) := by
  refine ⟨nodup_map_of_perm_filter (env.removeRows_perm _ _) h.missionIDs,
    nodup_map_of_perm_filter (env.removeRows_perm _ _) h.workIDs, ?_⟩
  intro wi hwi
  exact h.failedErr wi (env.removeRows_mem hwi).1

lemma findMission_retireMissionRun (env c missionID) :
    findMission (retireMissionRun env c missionID) missionID = none := by
  refine find?_eq_none.mpr fun m hm => ?_
  rw [(env.removeRows_mem hm).2]
  simp

lemma wellFormed_launchRun (h : WellFormed c)
    (hm : findMission c e.id = none) : WellFormed (launchRun c e) :=
  wellFormed_projectWork (h.addMission (m := e.newMission) hm) e

lemma wellFormed_applyMissionProjected (env) (h : WellFormed c) (e) :
    WellFormed (applyMissionProjected env c e) := by
  unfold applyMissionProjected
  split
  · split
    · exact wellFormed_projectWork (h.updateMission e.id (f := startRun e) fun _ => rfl) e
    split
    · exact h
    · exact wellFormed_launchRun (wellFormed_retireMissionRun env h e.id)
        (findMission_retireMissionRun env c e.id)
  · next hno => exact wellFormed_launchRun h hno

lemma wellFormed_applyControl (env) (h : WellFormed c) (ev) :
    WellFormed (applyControl env c ev) := by
  cases ev with
  | workDispatched e => exact wellFormed_applyWorkDispatched h e
  | workRetried e =>
    refine h.updateWork e.id (fun wi => ?_) (fun wi hwi => ?_) <;> unfold retry <;> split
    · rfl
    · rfl
    · simp
    · exact hwi
  | workCompleted e => exact wellFormed_applyWorkCompleted h e
  | conditionResolved e => exact wellFormed_applyConditionResolved h e
  | decisionRequested e =>
    have hup := h.updateMission e.missionID (f := fun m =>
      { m with decisionInFlight := true, decisionCursor := e.cursor }) fun _ => rfl
    exact { hup with }
  | decisionCompleted e =>
    refine WellFormed.updateOpenDecision (WellFormed.updateMission h e.missionID ?_) _ _
    exact fun _ => rfl
  | missionCreated e =>
    simp only [applyControl, applyMissionCreated]
    split
    · exact h
    · next hno => exact h.addMission hno
  | missionStarted e =>
    simp only [applyControl, applyMissionStarted]
    split
    · exact h.updateMission e.id (start_id e)
    · next hno => exact h.addMission hno
  | missionProjected e => exact wellFormed_applyMissionProjected env h e
  | missionPauseRequested e | missionResumed e =>
    exact h.updateMission e.id fun m => by split <;> rfl
  | missionDone e =>
    simp only [applyControl, applyMissionDone]
    split
    · split
      · exact h
      · refine WellFormed.updateOpenDecision (WellFormed.updateMission h e.id ?_) _ _
        exact fun _ => rfl
    · exact h.updateOpenDecision _ _
  | missionRewound e | missionOriginated e =>
    simp only [applyControl, applyMissionRewound, applyMissionOriginated]
    split
    · exact h
    · exact { h with }
  | tokenUsed e | scanReconciled e => exact h.updateMission e.missionID fun _ => rfl
  | voiPlanRequested e | voiPlanned e => exact { h with }
  | _ => exact h

lemma wellFormed_reduceControl (env) (h : WellFormed c) (ev) :
    WellFormed (reduceControl env c ev) := by
  unfold reduceControl
  split
  · exact h
  · exact wellFormed_applyControl env h ev

end Step

def Event.leavesWork : Event → Bool
  | .workDispatched _ | .workRetried _ | .workCompleted _ | .conditionResolved _
  | .missionProjected _ => false
  | _ => true

lemma work_of_leavesWork (env) (lea : ev.leavesWork = true) :
    (applyControl env c ev).work = c.work := by
  cases ev with
  | workDispatched e | workRetried e | workCompleted e | conditionResolved e | missionProjected e =>
    cases lea
  | _ =>
    first
    | rfl
    | simp only [applyControl, applyMissionCreated, applyMissionStarted, applyMissionDone,
        applyMissionRewound, applyMissionOriginated, closeDecision, updateOpenDecision,
        updateMission]
      repeat' split
      all_goals rfl

lemma wellFormed_foldl (env) (h : WellFormed c) (evs : List Event) :
    WellFormed (evs.foldl (reduceControl env) c) :=
  foldlRecOn evs _ h fun _ hc ev _ => wellFormed_reduceControl env hc ev

lemma replay_wellFormed (env tenant events) : WellFormed (replay env tenant events).control := by
  rw [replay, reduceAll_control]
  exact wellFormed_foldl env wellFormed_empty events

end Gibson.Brain
