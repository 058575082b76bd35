import Gibson.Brain.SliceHistory

/-! What one event does to a mission: one of the mission steps two views of it alike, any other
leaves the view alone. -/

namespace Gibson.Brain

open List Rows SameView

section Steps
variable {events : List Event} {missionID : String}

def inMission (events : List Event) (missionID : String) (ev : Event) : Bool :=
  eventInMission ev missionID (owned events missionID)

lemma work_of_inMission (all : ∀ ev ∈ kp, inMission events missionID ev = true) :
    ∀ wi ∈ (foldControl env kp).work, wi.missionID = missionID := by
  intro wi hwi
  obtain ⟨ev, hev, giv⟩ := any_eq_true.mp (owned_of_mem env kp wi hwi)
  have hmi := all ev hev
  cases ev
  case missionProjected e | workDispatched e =>
    have hth := (Bool.and_eq_true_iff.mp giv).1
    exact (beq_iff_eq.mp hth).symm.trans (beq_iff_eq.mp hmi)
  all_goals exact absurd giv (by simp [attaches])

variable {hb ha : List Event}

lemma ownWork_none_of_not_owned (hsp : events = hb ++ ha) {id}
    (free : owned events missionID id = false) :
    ownWork (foldControl env hb) missionID id = none := by
  cases hf : ownWork (foldControl env hb) missionID id with
  | none => rfl
  | some wi =>
    obtain ⟨ht, hmi⟩ := findWork_of_ownWork hf
    have hs : wi.id = id := by
      have key := List.find?_some ht
      simpa using key
    have hh := owned_of_mem env hb wi (mem_of_find?_eq_some ht)
    rw [hmi, hs] at hh
    unfold owned at hh free
    rw [hsp, any_append, hh, Bool.true_or] at free
    contradiction

lemma sameView_missionRewound (env c e) :
    SameView missionID (reduceControl env c (.missionRewound e)) c := by
  refine sameView_reduceControl env ?_
  simp only [applyControl, applyMissionRewound]
  split <;> exact of_eq rfl rfl rfl

lemma sameView_missionOriginated (env c e) :
    SameView missionID (reduceControl env c (.missionOriginated e)) c := by
  refine sameView_reduceControl env ?_
  simp only [applyControl, applyMissionOriginated]
  split <;> exact of_eq rfl rfl rfl

lemma step_inMission (hso : SliceSound env events) (hsp : events = hb ++ ev :: ha)
    (h : SameView missionID (foldControl env hb) (foldControl env kept))
    (all : ∀ ev ∈ kept, inMission events missionID ev = true)
    (hmi : inMission events missionID ev = true)
    (hnp : missionRun? missionID ev = none) :
    SameView missionID (reduceControl env (foldControl env hb) ev)
      (reduceControl env (foldControl env kept) ev) := by
  have step := hso.step hb ev ha hsp
  cases ev
  case missionProjected e =>
    have hs : e.id = missionID := by simpa [inMission, eventInMission] using hmi
    rw [← hs, missionRun?_projected] at hnp
    exact absurd hnp (by simp)
  case missionCreated e =>
    exact h.reduceControl_of_check env rfl (h.missionCreated (beq_iff_eq.mp hmi))
  case missionStarted e =>
    exact h.reduceControl_of_check env rfl (h.missionStarted (beq_iff_eq.mp hmi))
  case missionDone e =>
    obtain rfl := beq_iff_eq.mp hmi
    exact h.reduceControl_of_check env (missionRunCheck_congr h.mission _ _ _) (h.missionDone rfl)
  case missionPauseRequested e | missionResumed e =>
    obtain rfl := beq_iff_eq.mp hmi
    refine h.reduceControl_of_check env (missionRunCheck_congr h.mission _ _ _) ?_
    exact h.updateMission (by first | exact pause_id | exact resume_id)
  case missionRewound e =>
    exact (sameView_missionRewound env _ e).trans (h.trans (sameView_missionRewound env _ e).symm)
  case missionOriginated e =>
    exact (sameView_missionOriginated env _ e).trans (h.trans (sameView_missionOriginated env _ e).symm)
  case workDispatched e =>
    have hs : e.missionID = missionID := beq_iff_eq.mp hmi
    refine h.workDispatched env hs (fun wi hf => (step wi hf).trans hs) ?_
    exact fun wi hf => work_of_inMission all wi (mem_of_find?_eq_some hf)
  case workRetried e => exact h.workRetried env e
  case workCompleted e => exact h.workCompleted env e
  case conditionResolved e => exact h.conditionResolved env e
  case decisionRequested e =>
    exact h.reduceControl_of_check env rfl (h.decisionRequested (beq_iff_eq.mp hmi))
  case decisionCompleted e =>
    obtain rfl := beq_iff_eq.mp hmi
    exact h.reduceControl_of_check env (missionRunCheck_congr h.mission _ _ _)
      (h.decisionCompleted rfl)
  case tokenUsed e | scanReconciled e =>
    obtain rfl := beq_iff_eq.mp hmi
    refine h.reduceControl_of_check env rfl (SameView.updateMission h ?_)
    exact fun _ => rfl
  case voiPlanRequested e | voiPlanned e =>
    exact absurd hmi (by simp [inMission, eventInMission])
  -- What is left writes evidence, which no control store sees.
  all_goals
    exact (sameView_reduceControl env (refl _ _)).trans
      (h.trans (sameView_reduceControl env (refl _ _)).symm)

lemma sameView_projected (wf : WellFormed c) (ho : e.id ≠ missionID)
    (oneOpen : retires c e → (c.decisions.filter (isOpenDecision missionID)).length ≤ 1) :
    SameView missionID (applyMissionProjected env c e) c := by
  have hlau (x : Control) : SameView missionID (launchRun x e) x :=
    (sameView_projectWork ho).trans (sameView_addMission ho)
  unfold applyMissionProjected
  split
  · next m hf =>
    split
    · exact (sameView_projectWork ho).trans
        (sameView_updateMission (Ne.symm ho) (startRun_id e))
    next hsd =>
    split
    · exact refl _ _
    · next otherRun =>
      exact (hlau _).trans
        (sameView_retireMissionRun env wf ho (oneOpen ⟨m, hf, hsd, otherRun⟩))
  · exact hlau c

lemma step_not_inMission (hso : SliceSound env events) (som' : missionID ≠ "")
    (hsp : events = hb ++ ev :: ha) (ho : inMission events missionID ev = false) :
    SameView missionID (reduceControl env (foldControl env hb) ev)
      (foldControl env hb) := by
  have step := hso.step hb ev ha hsp
  cases ev
  case missionProjected e =>
    have hth : e.id ≠ missionID := beq_eq_false_iff_ne.mp ho
    refine sameView_reduceControl env ?_
    exact sameView_projected (foldControl_wellFormed env hb) hth
      fun ret => step.2.2 ret missionID (Ne.symm hth)
  case missionCreated e =>
    exact sameView_reduceControl env (sameView_missionCreated (beq_eq_false_iff_ne.mp ho))
  case missionStarted e =>
    exact sameView_reduceControl env (sameView_missionStarted (beq_eq_false_iff_ne.mp ho))
  case missionDone e =>
    exact sameView_reduceControl env (sameView_missionDone (beq_eq_false_iff_ne.mp ho))
  case missionPauseRequested e | missionResumed e =>
    have hth : e.id ≠ missionID := beq_eq_false_iff_ne.mp ho
    refine sameView_reduceControl env (sameView_updateMission (Ne.symm hth) ?_)
    first | exact pause_id | exact resume_id
  case missionRewound e => exact sameView_missionRewound env _ e
  case missionOriginated e => exact sameView_missionOriginated env _ e
  case workDispatched e =>
    have hth : e.missionID ≠ missionID := beq_eq_false_iff_ne.mp ho
    refine sameView_workDispatched env hth ?_
    cases hf : ownWork (foldControl env hb) missionID e.id with
    | none => rfl
    | some wi =>
      obtain ⟨ht, hmi⟩ := findWork_of_ownWork hf
      exact absurd ((step wi ht).symm.trans hmi) hth
  case workRetried e => exact sameView_workRetried env (ownWork_none_of_not_owned hsp ho)
  case workCompleted e =>
    have none : ownWork (foldControl env hb) missionID e.id = none :=
      ownWork_none_of_not_owned hsp ho
    exact sameView_workCompleted env fun wi hwi => absurd (none.symm.trans hwi) (by simp)
  case conditionResolved e =>
    refine sameView_conditionResolved env (ownWork_none_of_not_owned hsp ho) ?_
    intro id hid wi hwi ws
    obtain ⟨ht, hmi⟩ := findWork_of_ownWork hwi
    have ow := step id hid wi ht ws (by rw [hmi]; exact som')
    rw [hmi] at ow
    exact absurd (ow.symm.trans ho) (by simp)
  case decisionRequested e =>
    exact sameView_reduceControl env (sameView_decisionRequested (beq_eq_false_iff_ne.mp ho))
  case decisionCompleted e =>
    exact sameView_reduceControl env (sameView_decisionCompleted (beq_eq_false_iff_ne.mp ho))
  case tokenUsed e | scanReconciled e =>
    have hth : e.missionID ≠ missionID := beq_eq_false_iff_ne.mp ho
    refine sameView_reduceControl env (sameView_updateMission (Ne.symm hth) ?_)
    exact fun _ => rfl
  case voiPlanRequested e | voiPlanned e =>
    exact sameView_reduceControl env (of_eq rfl rfl rfl)
  all_goals exact sameView_reduceControl env (refl _ _)

variable (runs : RunsOrdered events) (hso : SliceSound env events)
  (hsp : events = hb ++ ev :: ha)
include runs hso hsp

lemma step_otherRun (hmi : inMission events missionID ev = true)
    (hnp : projectedRun ev = none) (hn : explicitRunID ev ≠ "")
    (ho : latestMissionRun hb missionID ≠ some (explicitRunID ev)) :
    SameView missionID (reduceControl env (foldControl env hb) ev)
      (foldControl env hb) := by
  have step := hso.step hb ev ha hsp
  have hsd (mi : namedMission ev = some missionID) :
      ∃ r, r ≠ explicitRunID ev ∧ StartedAs (foldControl env hb) missionID r := by
    obtain ⟨r, latest⟩ := latest_of_named runs hso hsp hnp hn mi
    exact ⟨r, fun hs => ho (hs ▸ latest), hso.startedAs hb _ hsp r latest⟩
  have unt {wi} (mem : wi ∈ (foldControl env hb).work)
      (own : wi.missionID = missionID) : takesRun (explicitRunID ev) wi = false := by
    have run : wi.runID ≠ explicitRunID ev := by
      intro hs
      rcases work_run runs hso hb _ hsp wi mem own with unset | latest
      · exact hn (hs.symm.trans unset)
      · exact ho (hs ▸ latest)
    simp [takesRun, hn, run]
  have hdr {id} (hs : id = missionID) (mi : namedMission ev = some missionID) :
      (missionRunCheck (foldControl env hb) ev id (explicitRunID ev) .runDropped).verdict =
        .runDropped := by
    obtain ⟨r, oth, m, hf, -, run⟩ := hsd mi
    rw [hs]
    exact missionRunCheck_other .runDropped hf hn (run ▸ Ne.symm oth)
  cases ev
  case missionProjected e => exact absurd hnp (by simp [projectedRun])
  case missionStarted e =>
    obtain rfl := beq_iff_eq.mp hmi
    obtain ⟨r, -, m, hf, pa, -⟩ := hsd rfl
    refine sameView_reduceControl env ?_
    simp only [applyControl, applyMissionStarted]
    rw [hf]
    refine ⟨?_, fun _ => rfl, SameOrder.rfl _ _⟩
    rw [findMission_updateMission (start_id e), if_pos (by simp), hf]
    simp [Mission.start, pa]
  case missionDone e | missionPauseRequested e | missionResumed e | decisionCompleted e =>
    have hs := beq_iff_eq.mp hmi
    rw [reduceControl_dropped env]
    · exact refl _ _
    · exact hdr hs (congrArg some hs)
  case decisionRequested e =>
    have hs : e.missionID = missionID := beq_iff_eq.mp hmi
    obtain ⟨r, oth, m, hf, -, run⟩ := hsd (congrArg some hs)
    rcases step with hunn | current
    · exact absurd hunn hn
    · rw [hs] at current
      exact absurd (run.symm.trans (current m hf)) oth
  case workDispatched e =>
    have hs : e.missionID = missionID := beq_iff_eq.mp hmi
    cases hf : findWork (foldControl env hb) e.id with
    | none =>
      rw [workDispatched_none env hf, if_pos]
      · exact refl _ _
      · exact hdr hs (congrArg some hs)
    | some wi =>
      have out : takesRun e.runID wi = false :=
        unt (mem_of_find?_eq_some hf) ((step wi hf).trans hs)
      rw [workDispatched_found env hf, out, Bool.false_and]
      exact refl _ _
  case workCompleted e =>
    refine sameView_workCompleted env fun wi hwi => ?_
    obtain ⟨ht, own⟩ := findWork_of_ownWork hwi
    exact unt (mem_of_find?_eq_some ht) own
  case hostObserved e | findingRaised e | entityObserved e | llmCallObserved e
      | agentToolCallObserved e => exact sameView_reduceControl env (refl _ _)
  all_goals exact absurd rfl hn

end Steps

section Rewinds
variable {missionID : String}

def rewind? (missionID : String) : Event → Option MissionRewind
  | .missionRewound e =>
    if e.missionID = missionID then
      some { missionID := e.missionID, parentMissionID := e.parentMissionID,
             parentCheckpointID := e.parentCheckpointID, startSnapshot := e.startSnapshot }
    else none
  | _ => none

lemma projectWork_missionRewinds (c e) : (projectWork c e).missionRewinds = c.missionRewinds := by
  unfold projectWork
  generalize e.nodes = ns
  induction ns generalizing c with
  | nil => rfl
  | cons n ns ih => rw [foldl_cons, ih, projectNode_missionRewinds]

lemma applyControl_missionRewinds (ho : ∀ e, ev ≠ .missionRewound e)
    (c) : (applyControl env c ev).missionRewinds = c.missionRewinds := by
  cases ev
  case missionRewound e => exact absurd rfl (ho e)
  case missionProjected e =>
    simp only [applyControl, applyMissionProjected]
    split
    · split
      · rw [projectWork_missionRewinds]
        rfl
      split
      · rfl
      unfold launchRun
      rw [projectWork_missionRewinds]
      rfl
    · unfold launchRun
      rw [projectWork_missionRewinds]
  case conditionResolved e =>
    have kp (ids : List String) (x : Control) :
        (ids.foldl (fun c id => updateWork c id WorkItem.skip) x).missionRewinds =
          x.missionRewinds := by
      induction ids generalizing x with
      | nil => rfl
      | cons id ids ih => exact ih _
    exact kp e.skip _
  all_goals
    first
    | rfl
    | simp only [applyControl, applyWorkDispatched, recordDecisionDispatch, applyWorkCompleted,
        applyMissionCreated, applyMissionStarted, applyMissionDone, applyMissionOriginated]
      repeat' split
      all_goals rfl

lemma lookup_reduceControl (some' : missionID ≠ "") (c ev) :
    (reduceControl env c ev).missionRewinds.lookup missionID =
      (c.missionRewinds.lookup missionID).or (rewind? missionID ev) := by
  cases ev
  case missionRewound e =>
    rw [control_of_current env rfl]
    simp only [applyControl, applyMissionRewound, rewind?]
    by_cases hmi : e.missionID = missionID
    · subst hmi
      cases hf : c.missionRewinds.lookup e.missionID with
      | none => simp [some', AList.lookup_insert]
      | some r => simp [hf]
    · rw [if_neg hmi, Option.or_none]
      split
      · rfl
      · exact AList.lookup_insert_ne (Ne.symm hmi)
  all_goals
    simp only [rewind?, Option.or_none]
    unfold reduceControl
    split
    · rfl
    · rw [applyControl_missionRewinds (by simp)]

lemma lookup_foldControl_filter (som' : missionID ≠ "") (keep : Event → Bool)
    (events) (hdr : ∀ ev ∈ events, keep ev = false → rewind? missionID ev = none) :
    (foldControl env (events.filter keep)).missionRewinds.lookup missionID =
      (foldControl env events).missionRewinds.lookup missionID := by
  induction events using reverseRecOn with
  | nil => rfl
  | append_singleton events ev ih =>
    have hb := ih fun x hx => hdr x (by simp [hx])
    rw [filter_append, foldControl_concat, lookup_reduceControl som', ← hb]
    cases kp : keep ev with
    | true =>
      rw [filter_cons_of_pos kp, filter_nil, foldControl_concat, lookup_reduceControl som']
    | false =>
      rw [filter_cons_of_neg (by simp [kp]), filter_nil, append_nil,
        hdr ev (by simp) kp, Option.or_none]

end Rewinds

lemma OwnNodes.retireMissionRun (wf : WellFormed c)
    (own : OwnNodes c e nodes) : OwnNodes (retireMissionRun env c e.id) e nodes := by
  intro n hn wi hf
  have ht := (env.removeRows_mem (mem_of_find?_eq_some hf)).1
  have hs : wi.id = workID e.id n.id := by
    have key := List.find?_some hf
    simpa using key
  exact own n hn wi ((find?_key_iff wf.workIDs).mpr ⟨ht, hs⟩)

lemma SameView.launchRun (h : SameView e.id c c') (own : OwnNodes c e e.nodes)
    (own' : OwnNodes c' e e.nodes) (s0 : SameStart c c' e e.nodes) :
    SameView e.id (launchRun c e) (launchRun c' e) :=
  (h.addMission e.newMission).projectWork own own' s0

lemma SameView.missionProjected (h : SameView e.id c c') (wf : WellFormed c) (wf' : WellFormed c')
    (own : OwnNodes c e e.nodes) (own' : OwnNodes c' e e.nodes) (s0 : SameStart c c' e e.nodes) :
    SameView e.id (applyMissionProjected env c e) (applyMissionProjected env c' e) := by
  unfold applyMissionProjected
  rw [h.mission]
  split
  · split
    · refine projectWork ?_ own own' s0
      exact updateMission h (startRun_id e)
    split
    · exact h
    have retired :=
      (sameView_retired env c e.id).trans (sameView_retired env c' e.id).symm
    exact retired.launchRun (own.retireMissionRun wf) (own'.retireMissionRun wf') s0
  · exact h.launchRun own own' s0

end Gibson.Brain
