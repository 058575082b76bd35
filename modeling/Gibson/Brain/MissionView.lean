import Gibson.Brain.Reachable

/-! Two control stores that hold the same of one mission. The reducers keep the relation on both
sides of an event of the mission, and on one side of an event of another. -/

namespace Gibson.Brain

open List Rows WorkItem

def WorkItem.unsequenced (wi : WorkItem) : WorkItem := { wi with completedSeq := 0 }

lemma unsequenced_field (fie : WorkItem → α)
    (hfi : ∀ x, fie x.unsequenced = fie x) (hs : wi.unsequenced = wi'.unsequenced) :
    fie wi = fie wi' :=
  (hfi wi).symm.trans ((congrArg fie hs).trans (hfi wi'))

def ownWork (c : Control) (missionID id : String) : Option WorkItem :=
  (findWork c id).filter (·.missionID == missionID)

def ownDecisions (c : Control) (missionID : String) : List DecisionRecord :=
  c.decisions.filter (·.missionID == missionID)

/-- One mission looks alike. -/
structure SameView (missionID : String) (c c' : Control) : Prop where
  mission : findMission c missionID = findMission c' missionID
  work : ∀ id, (ownWork c missionID id).map WorkItem.unsequenced =
    (ownWork c' missionID id).map WorkItem.unsequenced
  decisions : SameOrder (isOpenDecision missionID) (ownDecisions c missionID)
    (ownDecisions c' missionID)

variable {missionID : String}

lemma SameView.refl (missionID c) : SameView missionID c c :=
  ⟨rfl, fun _ => rfl, .rfl _ _⟩

lemma SameView.symm (h : SameView missionID c c') : SameView missionID c' c :=
  ⟨h.mission.symm, fun id => (h.work id).symm, h.decisions.symm⟩

lemma SameView.trans (h : SameView missionID c c') (h' : SameView missionID c' c'') :
    SameView missionID c c'' :=
  ⟨h.mission.trans h'.mission, fun id => (h.work id).trans (h'.work id),
    h.decisions.trans h'.decisions⟩

lemma SameView.of_eq (ms : c.missions = c'.missions) (work : c.work = c'.work)
    (dcs : c.decisions = c'.decisions) : SameView missionID c c' := by
  constructor
  · unfold findMission
    rw [ms]
  · intro id
    unfold ownWork findWork
    rw [work]
  · unfold ownDecisions
    rw [dcs]
    exact .rfl _ _

section Missions

lemma sameView_updateMission {id} (ho : missionID ≠ id) (hf : ∀ m, (f m).id = m.id) :
    SameView missionID (Brain.updateMission c id f) c := by
  refine ⟨?_, fun _ => rfl, .rfl _ _⟩
  rw [findMission_updateMission hf, if_neg (by simpa using ho)]

lemma sameView_addMission (ho : m.id ≠ missionID) :
    SameView missionID { c with missions := c.missions ++ [m] } c := by
  refine ⟨?_, fun _ => rfl, .rfl _ _⟩
  rw [findMission_append, if_neg (by simpa using ho), Option.or_none]

variable (h : SameView missionID c c')
include h

lemma SameView.updateMission (hf : ∀ m, (f m).id = m.id) :
    SameView missionID (updateMission c missionID f) (updateMission c' missionID f) := by
  refine ⟨?_, h.work, h.decisions⟩
  rw [findMission_updateMission hf, findMission_updateMission hf, h.mission]

lemma SameView.addMission (m) : SameView missionID { c with missions := c.missions ++ [m] }
      { c' with missions := c'.missions ++ [m] } := by
  refine ⟨?_, h.work, h.decisions⟩
  rw [findMission_append, findMission_append, h.mission]

end Missions

section Decisions

lemma ownDecisions_updateOpenDecision (hf : ∀ d, (f d).missionID = d.missionID) :
    ownDecisions (updateOpenDecision c missionID f) missionID =
      updateFirst (isOpenDecision missionID) f (ownDecisions c missionID) := by
  refine filter_updateFirst_comm fun d ope' => ?_
  have hmi := (Bool.and_eq_true_iff.mp ope').1
  exact ⟨hmi, by rw [hf]; exact hmi⟩

lemma sameView_updateOpenDecision {id} (ho : missionID ≠ id)
    (hf : ∀ d, (f d).missionID = d.missionID) :
    SameView missionID (Brain.updateOpenDecision c id f) c := by
  refine ⟨rfl, fun _ => rfl, ?_⟩
  have hs : ownDecisions (Brain.updateOpenDecision c id f) missionID =
      ownDecisions c missionID := by
    refine filter_updateFirst_of_disjoint c.decisions fun d ope' => ?_
    have hth : d.missionID = id := beq_iff_eq.mp (Bool.and_eq_true_iff.mp ope').1
    have huns : (d.missionID == missionID) = false := by
      rw [hth]
      simpa using Ne.symm ho
    exact ⟨huns, by rw [hf]; exact huns⟩
  rw [hs]
  exact .rfl _ _

lemma sameView_addDecision (ho : d.missionID ≠ missionID) :
    SameView missionID { c with decisions := c.decisions ++ [d] } c := by
  refine ⟨rfl, fun _ => rfl, ?_⟩
  have huns : [d].filter (·.missionID == missionID) = [] := by simp [ho]
  unfold ownDecisions
  rw [filter_append, huns, append_nil]
  exact .rfl _ _

variable (h : SameView missionID c c')
include h

lemma SameView.updateOpenDecision (hf : ∀ d, (f d).missionID = d.missionID) :
    SameView missionID (updateOpenDecision c missionID f) (updateOpenDecision c' missionID f) := by
  refine ⟨h.mission, h.work, ?_⟩
  rw [ownDecisions_updateOpenDecision hf, ownDecisions_updateOpenDecision hf]
  exact h.decisions.updateFirst f

lemma SameView.addDecision (d) : SameView missionID { c with decisions := c.decisions ++ [d] }
      { c' with decisions := c'.decisions ++ [d] } := by
  refine ⟨h.mission, h.work, ?_⟩
  unfold ownDecisions
  rw [filter_append, filter_append]
  exact h.decisions.append _

lemma SameView.countMissionDecisions :
    countMissionDecisions c missionID = countMissionDecisions c' missionID := by
  unfold Brain.countMissionDecisions
  rw [countP_eq_length_filter, countP_eq_length_filter]
  exact h.decisions.perm.length_eq

end Decisions

section Work
variable {f : WorkItem → WorkItem}

/-- An update that keeps the keys. -/
structure KeepsPlace (f : WorkItem → WorkItem) : Prop where
  id : ∀ wi, (f wi).id = wi.id
  missionID : ∀ wi, (f wi).missionID = wi.missionID
  runID : ∀ wi, (f wi).runID = wi.runID

lemma ownWork_updateWork (hf : KeepsPlace f) (c id id') :
    ownWork (updateWork c id f) missionID id' =
      if id' == id then (ownWork c missionID id).map f else ownWork c missionID id' := by
  unfold ownWork
  rw [findWork_updateWork hf.id]
  split
  · cases findWork c id with
    | none => rfl
    | some wi =>
      rw [Option.map_some, Option.filter_some, Option.filter_some, hf.missionID]
      split <;> rfl
  · rfl

variable {id : String}

lemma sameView_updateWork (hf : KeepsPlace f)
    (noop : ∀ wi, ownWork c missionID id = some wi → f wi = wi) :
    SameView missionID (Brain.updateWork c id f) c := by
  refine ⟨rfl, fun id' => ?_, .rfl _ _⟩
  rw [ownWork_updateWork hf]
  split
  · next hs =>
    rw [beq_iff_eq.mp hs]
    cases hf0 : ownWork c missionID id with
    | none => rfl
    | some wi => rw [Option.map_some, noop wi hf0]
  · rfl

lemma ownWork_append (free : findWork c wi.id = none) (id) :
    ownWork { c with work := c.work ++ [wi] } missionID id =
      if wi.id == id then (some wi).filter (·.missionID == missionID)
      else ownWork c missionID id := by
  unfold ownWork
  rw [findWork_append]
  split
  · next hs =>
    rw [← beq_iff_eq.mp hs, free]
    rfl
  · rw [Option.or_none]

lemma sameView_addWork (free : findWork c wi.id = none) (ho : wi.missionID ≠ missionID) :
    SameView missionID { c with work := c.work ++ [wi] } c := by
  refine ⟨rfl, fun id => ?_, .rfl _ _⟩
  rw [ownWork_append free]
  split
  · next hs =>
    have hth : ownWork c missionID id = none := by
      unfold ownWork
      rw [← beq_iff_eq.mp hs, free]
      rfl
    rw [hth, Option.filter_some, if_neg (by simpa using ho)]
  · rfl

lemma ownWork_of_findWork (hf : findWork c id = some wi) (hmi : wi.missionID = missionID) :
    ownWork c missionID id = some wi := by
  unfold ownWork
  rw [hf, Option.filter_some, if_pos (by simpa using hmi)]

lemma findWork_of_ownWork (hf : ownWork c missionID id = some wi) :
    findWork c id = some wi ∧ wi.missionID = missionID := by
  obtain ⟨h, hmi⟩ := Option.filter_eq_some_iff.mp hf
  exact ⟨h, by simpa using hmi⟩

variable (h : SameView missionID c c')
include h

lemma SameView.ownWork_none (none : ownWork c missionID id = none) :
    ownWork c' missionID id = Option.none :=
  Option.map_eq_none_iff.mp ((h.work id).symm.trans (congrArg _ none))

lemma SameView.ownWork_some (hf : ownWork c missionID id = some wi) :
    ∃ wi', ownWork c' missionID id = some wi' ∧ wi.unsequenced = wi'.unsequenced := by
  have hs := (h.work id).symm.trans (congrArg _ hf)
  obtain ⟨wi', hf', hs⟩ := Option.map_eq_some_iff.mp hs
  exact ⟨wi', hf', hs.symm⟩

lemma SameView.updateWork (hf : KeepsPlace f) (hg : KeepsPlace g)
    (hfg : ∀ x y, x.unsequenced = y.unsequenced → (f x).unsequenced = (g y).unsequenced)
    (id) : SameView missionID (updateWork c id f) (updateWork c' id g) := by
  refine ⟨h.mission, fun id' => ?_, h.decisions⟩
  rw [ownWork_updateWork hf, ownWork_updateWork hg]
  split
  · cases hf0 : ownWork c missionID id with
    | none =>
      rw [h.ownWork_none hf0]
      rfl
    | some x =>
      obtain ⟨y, hf', hs⟩ := h.ownWork_some hf0
      rw [hf']
      exact congrArg some (hfg x y hs)
  · exact h.work id'

lemma SameView.addWork (hs : wi.unsequenced = wi'.unsequenced) (free : findWork c wi.id = none)
    (fre' : findWork c' wi'.id = none) :
    SameView missionID { c with work := c.work ++ [wi] } { c' with work := c'.work ++ [wi'] } := by
  have ids : wi.id = wi'.id := unsequenced_field WorkItem.id (fun _ => rfl) hs
  have ms : wi.missionID = wi'.missionID :=
    unsequenced_field WorkItem.missionID (fun _ => rfl) hs
  refine ⟨h.mission, fun id => ?_, h.decisions⟩
  rw [ownWork_append free, ownWork_append fre', ids]
  split
  · rw [Option.filter_some, Option.filter_some, ms]
    split
    · exact congrArg some hs
    · rfl
  · exact h.work id

lemma SameView.findWork_none (own' : ∀ wi, findWork c' id = some wi → wi.missionID = missionID)
    (free : findWork c id = none) : findWork c' id = none := by
  have fre' : ownWork c' missionID id = none := h.ownWork_none (by rw [ownWork, free]; rfl)
  cases hf : findWork c' id with
  | none => rfl
  | some wi => cases fre'.symm.trans (ownWork_of_findWork hf (own' wi hf))

end Work

section WorkEvents
variable (env : Env)

lemma workCompleted_found (hf : findWork c e.id = some wi) :
    reduceControl env c (.workCompleted e) =
      if takesRun e.runID wi && !wi.state.isTerminal then
        { updateWork c e.id (complete e (c.nextCompletedSeq + 1)) with
          nextCompletedSeq := c.nextCompletedSeq + 1 }
      else c := by
  have vd : (checkRun c (.workCompleted e)).verdict = _ := workRunCheck_found hf
  unfold reduceControl
  rw [vd]
  cases takesRun e.runID wi with
  | false => simp
  | true =>
    cases hed : wi.state.isTerminal with
    | true | false => simp [applyControl, applyWorkCompleted, hf, hed]

lemma workDispatched_found (hf : findWork c e.id = some wi) :
    reduceControl env c (.workDispatched e) = if takesRun e.runID wi && wi.state != .running then
        updateWork c e.id (redispatch e) else c := by
  have check : (workRunCheck c (.workDispatched e) e.id e.runID).verdict = _ :=
    workRunCheck_found hf
  cases takes : takesRun e.runID wi with
  | false =>
    rw [takes] at check
    have hdr : (checkRun c (.workDispatched e)).verdict = .runDropped := by
      simp only [checkRun]
      rw [if_pos (by simp [check])]
      simpa using check
    rw [reduceControl_dropped env hdr]
    simp
  | true =>
    rw [takes] at check
    have cur : (checkRun c (.workDispatched e)).verdict = .runCurrent := by
      simp only [checkRun]
      rw [if_neg (by simp [check]), if_pos (by simp [hf])]
    rw [control_of_current env cur]
    simp only [applyControl, applyWorkDispatched, hf]
    by_cases hr : wi.state = .running
    · simp [hr]
    · have hil : (wi.state != .running) = true := by simpa using hr
      simp [hr, hil]

lemma workDispatched_none (free : findWork c e.id = none) :
    reduceControl env c (.workDispatched e) =
      if (missionRunCheck c (.workDispatched e) e.missionID e.runID .runDropped).verdict =
          .runDropped then c
      else recordDecisionDispatch { c with work := c.work ++ [e.newItem] } e.missionID
        { workID := e.id, kind := e.itemKind, target := e.target } := by
  have vd : (checkRun c (.workDispatched e)).verdict =
      (missionRunCheck c (.workDispatched e) e.missionID e.runID .runDropped).verdict := by
    simp only [checkRun, workRunCheck_none free]
    rw [if_neg (by simp), if_neg (by simp [free])]
  unfold reduceControl
  rw [vd]
  simp [applyControl, applyWorkDispatched, free]

lemma keepsPlace_redispatch (e) : KeepsPlace (redispatch e) :=
  ⟨fun _ => rfl, fun _ => rfl, fun _ => rfl⟩

lemma keepsPlace_complete (e) (seq : Nat) : KeepsPlace (complete e seq) := by
  constructor <;>
  · intro wi
    unfold complete
    split <;> rfl

lemma keepsPlace_resolve (res : Bool) : KeepsPlace (resolve res) := by
  constructor <;>
  · intro wi
    unfold resolve
    split <;> rfl

lemma keepsPlace_skip : KeepsPlace skip := by
  constructor <;>
  · intro wi
    unfold skip
    split <;> rfl

lemma unsequenced_congr {f g k : WorkItem → WorkItem}
    (hf : ∀ x, (f x).unsequenced = k x.unsequenced) (hg : ∀ x, (g x).unsequenced = k x.unsequenced)
    (x y) (hs : x.unsequenced = y.unsequenced) : (f x).unsequenced = (g y).unsequenced := by
  rw [hf, hg, hs]

lemma unsequenced_complete (e) (seq : Nat) (x : WorkItem) :
    (x.complete e seq).unsequenced = x.unsequenced.complete e 0 := by
  unfold complete
  split <;> rfl

lemma unsequenced_resolve (res : Bool) (x : WorkItem) :
    (x.resolve res).unsequenced = x.unsequenced.resolve res := by
  by_cases hli : x.state = .pending ∨ x.state = .running <;> simp [resolve, unsequenced, hli]

lemma unsequenced_skip (x : WorkItem) : x.skip.unsequenced = x.unsequenced.skip := by
  by_cases ws : x.state = .pending <;> simp [skip, unsequenced, ws]

lemma sameView_workCompleted {e}
    (noop : ∀ wi, ownWork c missionID e.id = some wi → takesRun e.runID wi = false) :
    SameView missionID (reduceControl env c (.workCompleted e)) c := by
  cases hf : findWork c e.id with
  | none =>
    have cur : (checkRun c (.workCompleted e)).verdict = .runCurrent := by
      simp [checkRun, workRunCheck_none hf]
    rw [control_of_current env cur]
    simp only [applyControl, applyWorkCompleted, hf]
    exact .refl _ _
  | some wi =>
    rw [workCompleted_found env hf]
    cases takes : takesRun e.runID wi && !wi.state.isTerminal with
    | false => exact .refl _ _
    | true =>
      have htk := (Bool.and_eq_true_iff.mp takes).1
      have hw : SameView missionID
          (updateWork c e.id (complete e (c.nextCompletedSeq + 1))) c := by
        refine sameView_updateWork (keepsPlace_complete e _) fun x hx => ?_
        cases hf.symm.trans (findWork_of_ownWork hx).1
        exact absurd (htk.symm.trans (noop _ hx)) (by simp)
      exact { hw with }

lemma keepsPlace_retry : KeepsPlace retry := by
  constructor <;>
  · intro wi
    unfold retry
    split <;> rfl

lemma unsequenced_retry (x : WorkItem) : x.retry.unsequenced = x.unsequenced.retry := by
  by_cases hfa : x.state = .failed <;> simp [retry, unsequenced, hfa]

lemma sameView_workRetried {e} (ho : ownWork c missionID e.id = none) :
    SameView missionID (reduceControl env c (.workRetried e)) c := by
  exact sameView_updateWork keepsPlace_retry fun wi hwi => absurd (ho.symm.trans hwi) (by simp)

lemma sameView_skipAll {ids : List String}
    (noop : ∀ id ∈ ids, ∀ wi, ownWork c missionID id = some wi → wi.state ≠ .pending) :
    SameView missionID (ids.foldl (fun c id => updateWork c id skip) c) c := by
  induction ids generalizing c with
  | nil => exact .refl _ _
  | cons id ids ih =>
    have h1 : SameView missionID (updateWork c id skip) c := by
      refine sameView_updateWork keepsPlace_skip fun wi hwi => ?_
      exact if_neg (noop id (by simp) wi hwi)
    refine (ih fun id' hid' wi hwi => ?_).trans h1
    obtain ⟨wi', hwi', hs⟩ := h1.ownWork_some hwi
    have states : wi.state = wi'.state := unsequenced_field state (fun _ => rfl) hs
    rw [states]
    exact noop id' (by simp [hid']) wi' hwi'

lemma sameView_conditionResolved {e : ConditionResolved} (ho : ownWork c missionID e.id = none)
    (noop : ∀ id ∈ e.skip, ∀ wi, ownWork c missionID id = some wi → wi.state ≠ .pending) :
    SameView missionID (reduceControl env c (.conditionResolved e)) c := by
  have h1 :=
    sameView_updateWork (keepsPlace_resolve e.result)
      fun wi hwi => absurd (ho.symm.trans hwi) (by simp)
  refine .trans (sameView_skipAll fun id hid wi hwi => ?_) h1
  obtain ⟨wi', hwi', hs⟩ := h1.ownWork_some hwi
  have states : wi.state = wi'.state := unsequenced_field state (fun _ => rfl) hs
  rw [states]
  exact noop id hid wi' hwi'

lemma sameView_workDispatched (hth : e.missionID ≠ missionID)
    (ho : ownWork c missionID e.id = none) :
    SameView missionID (reduceControl env c (.workDispatched e)) c := by
  cases hf : findWork c e.id with
  | none =>
    rw [workDispatched_none env hf]
    split
    · exact .refl _ _
    have add : SameView missionID { c with work := c.work ++ [e.newItem] } c :=
      sameView_addWork hf hth
    unfold Brain.recordDecisionDispatch
    split
    · exact add
    · refine .trans (sameView_updateOpenDecision (Ne.symm hth) ?_) add
      exact fun _ => rfl
  | some wi =>
    rw [workDispatched_found env hf]
    split
    · exact sameView_updateWork (keepsPlace_redispatch e)
        fun x hx => absurd (ho.symm.trans hx) (by simp)
    · exact .refl _ _

variable (h : SameView missionID c c')
include h

lemma SameView.workCompleted (e) :
    SameView missionID (reduceControl env c (.workCompleted e))
      (reduceControl env c' (.workCompleted e)) := by
  cases hf : ownWork c missionID e.id with
  | none =>
    have hf' := h.ownWork_none hf
    have hh :=
      sameView_workCompleted env fun wi hwi => absurd (hf.symm.trans hwi) (by simp)
    have ht :=
      sameView_workCompleted env fun wi hwi => absurd (hf'.symm.trans hwi) (by simp)
    exact hh.trans (h.trans ht.symm)
  | some wi =>
    obtain ⟨wi', hf', hs⟩ := h.ownWork_some hf
    have htk :=
      unsequenced_field (fun x => takesRun e.runID x && !x.state.isTerminal) (fun _ => rfl) hs
    rw [workCompleted_found env (findWork_of_ownWork hf).1,
      workCompleted_found env (findWork_of_ownWork hf').1, htk]
    split
    · have hw := h.updateWork (keepsPlace_complete e (c.nextCompletedSeq + 1))
        (keepsPlace_complete e (c'.nextCompletedSeq + 1))
        (unsequenced_congr (unsequenced_complete e _) (unsequenced_complete e _)) e.id
      exact { hw with }
    · exact h

lemma SameView.workRetried (e : WorkRetried) :
    SameView missionID (reduceControl env c (.workRetried e))
      (reduceControl env c' (.workRetried e)) := by
  exact h.updateWork keepsPlace_retry keepsPlace_retry
    (unsequenced_congr unsequenced_retry unsequenced_retry) e.id

lemma SameView.conditionResolved (e : ConditionResolved) :
    SameView missionID (reduceControl env c (.conditionResolved e))
      (reduceControl env c' (.conditionResolved e)) := by
  have hrsv := h.updateWork (keepsPlace_resolve e.result) (keepsPlace_resolve e.result)
    (unsequenced_congr (unsequenced_resolve e.result) (unsequenced_resolve e.result)) e.id
  exact foldl_rel hrsv fun id _ _ _ h => h.updateWork keepsPlace_skip keepsPlace_skip
    (unsequenced_congr unsequenced_skip unsequenced_skip) id

lemma SameView.recordDecisionDispatch (d) :
    SameView missionID (recordDecisionDispatch c missionID d)
      (recordDecisionDispatch c' missionID d) := by
  unfold Brain.recordDecisionDispatch
  split
  · exact h
  · exact h.updateOpenDecision fun _ => rfl

lemma SameView.workDispatched (hmi : e.missionID = missionID)
    (own : ∀ wi, findWork c e.id = some wi → wi.missionID = missionID)
    (own' : ∀ wi, findWork c' e.id = some wi → wi.missionID = missionID) :
    SameView missionID (reduceControl env c (.workDispatched e))
      (reduceControl env c' (.workDispatched e)) := by
  cases hf : findWork c e.id with
  | none =>
    have hf' := h.findWork_none own' hf
    have checks := missionRunCheck_congr h.mission (.workDispatched e) e.runID .runDropped
    rw [workDispatched_none env hf, workDispatched_none env hf', hmi, checks]
    split
    · exact h
    · exact (h.addWork rfl hf hf').recordDecisionDispatch _
  | some wi =>
    obtain ⟨wi', hwi', hs⟩ := h.ownWork_some (ownWork_of_findWork hf (own wi hf))
    have htk :=
      unsequenced_field (fun x => takesRun e.runID x && x.state != .running) (fun _ => rfl) hs
    rw [workDispatched_found env hf,
      workDispatched_found env (findWork_of_ownWork hwi').1, htk]
    split
    · exact h.updateWork (keepsPlace_redispatch e) (keepsPlace_redispatch e)
        (unsequenced_congr (k := (·.redispatch e)) (fun _ => rfl) fun _ => rfl) e.id
    · exact h

end WorkEvents

section MissionEvents
variable (env : Env)

lemma sameView_reduceControl (hap : SameView missionID (applyControl env c ev) c) :
    SameView missionID (reduceControl env c ev) c := by
  unfold reduceControl
  split
  · exact .refl _ _
  · exact hap

lemma sameView_missionCreated (ho : e.id ≠ missionID) :
    SameView missionID (applyMissionCreated c e) c := by
  unfold applyMissionCreated
  split
  · exact .refl _ _
  · exact sameView_addMission ho

lemma sameView_missionStarted (ho : e.id ≠ missionID) :
    SameView missionID (applyMissionStarted c e) c := by
  unfold applyMissionStarted
  split
  · exact sameView_updateMission (Ne.symm ho) (start_id e)
  · exact sameView_addMission ho

lemma pause_id (m : Mission) :
    (if m.status = .running then { m with status := .paused } else m).id = m.id := by
  split <;> rfl

lemma resume_id (m : Mission) :
    (if m.status = .paused then { m with status := .running } else m).id = m.id := by
  split <;> rfl

lemma sameView_missionDone (ho : e.id ≠ missionID) :
    SameView missionID (applyMissionDone c e) c := by
  have hcl (x : Control) : SameView missionID (closeDecision x e) x :=
    sameView_updateOpenDecision (Ne.symm ho) fun _ => rfl
  unfold applyMissionDone
  split
  · split
    · exact .refl _ _
    · refine (hcl _).trans (sameView_updateMission (Ne.symm ho) ?_)
      exact fun _ => rfl
  · exact hcl c

lemma sameView_decisionRequested (ho : e.missionID ≠ missionID) :
    SameView missionID (applyDecisionRequested c e) c := by
  refine .trans (sameView_addDecision ho) (sameView_updateMission (Ne.symm ho) ?_)
  exact fun _ => rfl

lemma sameView_decisionCompleted (ho : e.missionID ≠ missionID) :
    SameView missionID (applyDecisionCompleted c e) c := by
  refine .trans (sameView_updateOpenDecision (Ne.symm ho) ?_)
    (sameView_updateMission (Ne.symm ho) ?_)
  · exact fun _ => rfl
  · exact fun _ => rfl

variable (h : SameView missionID c c')
include h

lemma SameView.reduceControl_of_check (check : checkRun c ev = checkRun c' ev)
    (hap : SameView missionID (applyControl env c ev) (applyControl env c' ev)) :
    SameView missionID (reduceControl env c ev) (reduceControl env c' ev) := by
  unfold reduceControl
  rw [check]
  split
  · exact h
  · exact hap

lemma SameView.missionCreated (hmi : e.id = missionID) :
    SameView missionID (applyMissionCreated c e) (applyMissionCreated c' e) := by
  unfold applyMissionCreated
  rw [hmi, h.mission]
  split
  · exact h
  · exact h.addMission _

lemma SameView.missionStarted (hmi : e.id = missionID) :
    SameView missionID (applyMissionStarted c e) (applyMissionStarted c' e) := by
  unfold applyMissionStarted
  rw [hmi, h.mission]
  split
  · exact h.updateMission (start_id e)
  · exact h.addMission _

lemma SameView.missionDone (hmi : e.id = missionID) :
    SameView missionID (applyMissionDone c e) (applyMissionDone c' e) := by
  unfold applyMissionDone closeDecision
  rw [hmi, h.mission]
  split
  · split
    · exact h
    refine SameView.updateOpenDecision (SameView.updateMission h ?_) ?_
    · exact fun _ => rfl
    · exact fun _ => rfl
  · exact h.updateOpenDecision fun _ => rfl

lemma SameView.decisionRequested (hmi : e.missionID = missionID) :
    SameView missionID (applyDecisionRequested c e) (applyDecisionRequested c' e) := by
  unfold applyDecisionRequested
  rw [hmi, h.countMissionDecisions]
  refine SameView.addDecision (SameView.updateMission h ?_) _
  exact fun _ => rfl

lemma SameView.decisionCompleted (hmi : e.missionID = missionID) :
    SameView missionID (applyDecisionCompleted c e) (applyDecisionCompleted c' e) := by
  unfold applyDecisionCompleted
  rw [hmi]
  refine SameView.updateOpenDecision (SameView.updateMission h ?_) ?_
  · exact fun _ => rfl
  · exact fun _ => rfl

end MissionEvents

section Projection
variable {c c' : Control} (env : Env) {e : MissionProjected}
variable (c e) in
def OwnNodes (nodes : List WorkNode) : Prop :=
  ∀ n ∈ nodes, ∀ wi, findWork c (workID e.id n.id) = some wi → wi.missionID = e.id

variable (c c' e) in
def SameStart (nodes : List WorkNode) : Prop :=
  ∀ n ∈ nodes, startSnapshot (c.missionRewinds.lookup e.id) n =
    startSnapshot (c'.missionRewinds.lookup e.id) n

lemma projectNode_missionRewinds (n) : (projectNode e c n).missionRewinds = c.missionRewinds := by
  unfold projectNode
  split <;> rfl

lemma OwnNodes.projectNode (h : OwnNodes c e nodes) (n) : OwnNodes (projectNode e c n) e nodes := by
  intro n' hn' wi hf
  unfold Brain.projectNode at hf
  split at hf
  · exact h n' hn' wi hf
  rw [findWork_append] at hf
  rcases Option.or_eq_some_iff.mp hf with old | ⟨-, new⟩
  · exact h n' hn' wi old
  split at new
  · rw [← Option.some.inj new]
    rfl
  · simp at new

lemma SameView.projectNode (h : SameView e.id c c') (own : OwnNodes c e [n])
    (own' : OwnNodes c' e [n]) (s0 : SameStart c c' e [n]) :
    SameView e.id (projectNode e c n) (projectNode e c' n) := by
  have ownN := own n (by simp)
  have ownN' := own' n (by simp)
  unfold Brain.projectNode
  cases hf : findWork c (workID e.id n.id) with
  | none =>
    have hf' := h.findWork_none ownN' hf
    rw [hf']
    refine h.addWork ?_ hf hf'
    simp [MissionProjected.newItem, s0 n (by simp)]
  | some wi =>
    obtain ⟨wi', hwi', -⟩ := h.ownWork_some (ownWork_of_findWork hf (ownN wi hf))
    rwa [(findWork_of_ownWork hwi').1]

lemma SameView.projectNodes (h : SameView e.id c c')
    (own : OwnNodes c e ns) (own' : OwnNodes c' e ns) (s0 : SameStart c c' e ns) :
    SameView e.id (ns.foldl (Brain.projectNode e) c) (ns.foldl (Brain.projectNode e) c') := by
  induction ns generalizing c c' with
  | nil => exact h
  | cons n ns ih =>
    have h1 : SameView e.id (Brain.projectNode e c n) (Brain.projectNode e c' n) := by
      refine h.projectNode ?_ ?_ ?_
      · exact fun x hx => own x (by simp [mem_singleton.mp hx])
      · exact fun x hx => own' x (by simp [mem_singleton.mp hx])
      · exact fun x hx => s0 x (by simp [mem_singleton.mp hx])
    have rs {x} (hx : OwnNodes x e (n :: ns)) : OwnNodes x e ns :=
      fun n' hn' => hx n' (by simp [hn'])
    refine ih h1 (rs (own.projectNode n)) (rs (own'.projectNode n)) fun n' hn' => ?_
    rw [projectNode_missionRewinds, projectNode_missionRewinds]
    exact s0 n' (by simp [hn'])

lemma SameView.projectWork (h : SameView e.id c c') (own : OwnNodes c e e.nodes)
    (own' : OwnNodes c' e e.nodes) (s0 : SameStart c c' e e.nodes) :
    SameView e.id (projectWork c e) (projectWork c' e) :=
  h.projectNodes own own' s0

lemma sameView_projectWork (ho : e.id ≠ missionID) : SameView missionID (projectWork c e) c := by
  unfold projectWork
  generalize e.nodes = ns
  induction ns generalizing c with
  | nil => exact .refl _ _
  | cons n ns ih =>
    have h1 : SameView missionID (projectNode e c n) c := by
      unfold projectNode
      split
      · exact .refl _ _
      · next free => exact sameView_addWork free ho
    exact ih.trans h1

lemma sameView_retired (c missionID) :
    SameView missionID (retireMissionRun env c missionID) {} := by
  constructor
  · exact findMission_retireMissionRun env c missionID
  · intro id
    have none : ownWork (retireMissionRun env c missionID) missionID id = Option.none := by
      cases hf : ownWork (retireMissionRun env c missionID) missionID id with
      | none => rfl
      | some wi =>
        obtain ⟨ht, hmi⟩ := findWork_of_ownWork hf
        have hgn := (env.removeRows_mem (mem_of_find?_eq_some ht)).2
        simp [hmi] at hgn
    rw [none]
    rfl
  · have hem : ownDecisions (retireMissionRun env c missionID) missionID = [] := by
      refine filter_eq_nil_iff.mpr fun d hd => ?_
      have hgn := (env.removeRows_mem hd).2
      simpa using hgn
    rw [hem]
    exact .rfl _ _

lemma findMission_retire_other (h : WellFormed c) {id} (ho : id ≠ missionID) :
    findMission (retireMissionRun env c id) missionID = findMission c missionID := by
  unfold findMission
  have keys : ((c.missions.filter fun m => !(m.id == id)).map Mission.id).Nodup :=
    h.missionIDs.sublist (filter_sublist.map _)
  refine (find?_key_of_perm keys (env.removeRows_perm _ c.missions) missionID).trans ?_
  rw [find?_filter_key h.missionIDs]
  cases hf : c.missions.find? (·.id == missionID) with
  | none => rfl
  | some m =>
    have hs : m.id = missionID := by simpa using List.find?_some hf
    rw [Option.filter_some, if_pos (by simpa [hs] using Ne.symm ho)]

lemma sameView_retireMissionRun (h : WellFormed c) {id} (ho : id ≠ missionID)
    (one : (c.decisions.filter (isOpenDecision missionID)).length ≤ 1) :
    SameView missionID (retireMissionRun env c id) c := by
  constructor
  · exact findMission_retire_other env h ho
  · intro wid
    refine congrArg _ ?_
    unfold ownWork findWork
    have keys : ((c.work.filter fun wi => !(wi.missionID == id)).map WorkItem.id).Nodup :=
      h.workIDs.sublist (filter_sublist.map _)
    have lkp : (retireMissionRun env c id).work.find? (·.id == wid) = _ :=
      (find?_key_of_perm keys (env.removeRows_perm _ c.work) wid).trans
        (find?_filter_key h.workIDs _ wid)
    rw [lkp, Option.filter_filter]
    congr 1
    funext wi
    by_cases hmi : wi.missionID = missionID
    · simp [hmi, Ne.symm ho]
    · simp [hmi]
  · have rw0 : ((retireMissionRun env c id).decisions.filter (·.missionID == missionID)).Perm
        (c.decisions.filter (·.missionID == missionID)) := by
      refine ((env.removeRows_perm _ c.decisions).filter _).trans ?_
      rw [filter_filter]
      refine List.Perm.of_eq (filter_congr fun d _ => ?_)
      by_cases hmi : d.missionID = missionID
      · simp [hmi, Ne.symm ho]
      · simp [hmi]
    refine .of_perm rw0 ?_
    unfold ownDecisions
    rw [filter_filter]
    refine le_trans (le_of_eq (congrArg List.length (filter_congr fun d _ => ?_))) one
    unfold isOpenDecision
    cases d.missionID == missionID <;> simp

end Projection
end Gibson.Brain
