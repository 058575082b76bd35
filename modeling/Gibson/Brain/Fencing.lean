import Gibson.Brain.Reachable

/-! What the run check keeps away from the current run of a mission, and what a new run leaves of
the run before it. -/

namespace Gibson.Brain

open List Rows Option

/-- All that is kept of a mission. -/
structure MissionState where
  mission : Option Mission
  work : List WorkItem
  decisions : List DecisionRecord
  plans : List VoIPlanState

def missionState (c : Control) (missionID : String) : MissionState where
  mission := findMission c missionID
  work := c.work.filter (·.missionID == missionID)
  decisions := c.decisions.filter (·.missionID == missionID)
  plans := c.voiPlans.filter (·.missionID == missionID)

/-- The mission and the run that a run-scoped control event names. A completion names the mission
of its work item. -/
def runScope (c : Control) : Event → Option (String × String)
  | .workDispatched e => some (e.missionID, e.runID)
  | .workCompleted e => (findWork c e.id).map fun wi => (wi.missionID, e.runID)
  | .missionDone e | .missionPauseRequested e | .missionResumed e => some (e.id, e.runID)
  | .decisionRequested e | .decisionCompleted e | .voiPlanRequested e | .voiPlanned e =>
    some (e.missionID, e.runID)
  | _ => none

/-- The event names a run that is not the current run of a mission that is there. -/
structure OtherRun (c : Control) (ev : Event) (m : Mission) : Prop where
  scope : ∃ runID, runScope c ev = some (m.id, runID) ∧ runID ≠ "" ∧ runID ≠ m.runID
  found : findMission c m.id = some m

/-- Where the check, or the reducer behind it, stops an event of another run. Work is compared with
the run of its own item. -/
def Fenced (c : Control) : Event → Prop
  | .decisionRequested _ => False
  | .voiPlanRequested e =>
    ∃ st, c.voiPlans.find? (·.missionID == e.missionID) = some st ∧ st.inFlight = true ∧
      st.cursor = e.cursor
  | .workDispatched e =>
    ∀ wi, findWork c e.id = some wi → wi.runID = e.runID → wi.missionID = e.missionID →
      wi.state = .running
  | .workCompleted e =>
    ∀ wi, findWork c e.id = some wi → wi.runID = e.runID → wi.state.isTerminal = true
  | _ => True

section
variable (env : Env)
variable {wi : WorkItem}

lemma workRunCheck_other {id runID} (hf : findWork c id = some wi)
    (hn : runID ≠ "") (ho : wi.runID ≠ runID) :
    (workRunCheck c ev id runID).verdict = .runDropped := by
  rw [workRunCheck_found hf]
  simp [takesRun, hn, ho]

lemma missionState_of_dropped (h : (checkRun c ev).verdict = .runDropped) (missionID) :
    missionState (reduceControl env c ev) missionID = missionState c missionID := by
  rw [reduceControl_dropped env h]

lemma missionState_voiPlanRequested_iff (e) :
    missionState (reduceControl env c (.voiPlanRequested e)) e.missionID =
        missionState c e.missionID ↔ Fenced c (.voiPlanRequested e) := by
  rw [control_of_current env rfl]
  simp only [applyControl, applyVoIPlanRequested, updatePlan, upsert, missionState, Fenced,
    findMission, MissionState.mk.injEq, true_and]
  cases hf : c.voiPlans.find? (·.missionID == e.missionID) with
  | none =>
    have hab : c.voiPlans.any (·.missionID == e.missionID) = false := by
      simpa using List.find?_eq_none.mp hf
    rw [if_neg (by simp [hab])]
    simp
  | some st =>
    have hmi : (st.missionID == e.missionID) = true := by simpa using List.find?_some hf
    have hpn : c.voiPlans.any (·.missionID == e.missionID) = true :=
      any_eq_true.mpr ⟨st, mem_of_find?_eq_some hf, hmi⟩
    rw [if_pos hpn, filter_updateFirst_eq_iff hf hmi hmi]
    constructor
    · intro hs
      exact ⟨st, rfl, (congrArg VoIPlanState.inFlight hs).symm,
        (congrArg VoIPlanState.cursor hs).symm⟩
    · rintro ⟨st', hs, inF, csr⟩
      cases hs
      rw [← csr, ← inF]

lemma missionState_workDispatched_iff (e) (id : e.missionID = m.id)
    (hf : findMission c m.id = some m) (hn : e.runID ≠ "") (ho : e.runID ≠ m.runID) :
    missionState (reduceControl env c (.workDispatched e)) m.id = missionState c m.id ↔
      Fenced c (.workDispatched e) := by
  simp only [Fenced]
  cases it : findWork c e.id with
  | none =>
    have hdr : (checkRun c (.workDispatched e)).verdict = .runDropped := by
      simp only [checkRun, workRunCheck, it, ite_self, id]
      exact missionRunCheck_other .runDropped hf hn ho
    exact iff_of_true (missionState_of_dropped env hdr _) (by simp)
  | some wi =>
    by_cases run : wi.runID = e.runID
    · have cur : (checkRun c (.workDispatched e)).verdict = .runCurrent := by
        simp only [checkRun, workRunCheck_same it run, it]
        rfl
      rw [control_of_current env cur]
      simp only [applyControl, applyWorkDispatched, it]
      by_cases hr : wi.state = .running
      · rw [if_pos hr]
        refine iff_of_true rfl ?_
        intro x hx _ _
        exact (some.inj hx) ▸ hr
      · rw [if_neg hr]
        simp only [missionState, updateWork, MissionState.mk.injEq, and_true]
        by_cases hmi : wi.missionID = m.id
        · have sees : (wi.missionID == m.id) = true := by simpa using hmi
          have hch := filter_updateFirst_eq_iff (q := (·.missionID == m.id))
            (f := WorkItem.redispatch e) it sees sees
          constructor
          · rintro ⟨-, hs⟩
            exact absurd (hch.mp hs) (fun hs => hr (congrArg WorkItem.state hs).symm)
          · intro all
            exact absurd (all wi rfl run (hmi.trans id.symm)) hr
        · have huns : (wi.missionID == m.id) = false := by simpa using hmi
          refine iff_of_true ⟨rfl, ?_⟩ ?_
          · exact filter_updateFirst_of_found it huns huns
          intro x hx _ nam'
          rw [← some.inj hx] at nam'
          exact absurd (nam'.trans id) hmi
    · have hdr : (checkRun c (.workDispatched e)).verdict = .runDropped := by
        have vd : (workRunCheck c (.workDispatched e) e.id e.runID).verdict = .runDropped :=
          workRunCheck_other it hn run
        simp only [checkRun]
        rwa [if_pos (by simp [vd])]
      refine iff_of_true (missionState_of_dropped env hdr _) ?_
      intro x hx run' _
      rw [← some.inj hx] at run'
      exact absurd run' run

lemma missionState_workCompleted_iff (e) (it : findWork c e.id = some wi) (hn : e.runID ≠ "") :
    missionState (reduceControl env c (.workCompleted e)) wi.missionID =
        missionState c wi.missionID ↔ Fenced c (.workCompleted e) := by
  simp only [Fenced, it]
  by_cases run : wi.runID = e.runID
  · have cur : (checkRun c (.workCompleted e)).verdict = .runCurrent := by
      simp [checkRun, workRunCheck_same it run]
    rw [control_of_current env cur]
    simp only [applyControl, applyWorkCompleted, it]
    cases hed : wi.state.isTerminal with
    | true =>
      refine iff_of_true rfl ?_
      intro x hx _
      exact (some.inj hx) ▸ hed
    | false =>
      have hkp : ∀ seq, (wi.complete e seq).missionID = wi.missionID := by
        intro seq
        unfold WorkItem.complete
        split <;> rfl
      have hch := filter_updateFirst_eq_iff (q := (·.missionID == wi.missionID))
        (f := WorkItem.complete e (c.nextCompletedSeq + 1)) it (by simp) (by simp [hkp])
      refine iff_of_false ?_ ?_
      · intro hs
        have work := congrArg MissionState.work hs
        have st := congrArg WorkItem.state (hch.mp work)
        unfold WorkItem.complete at st
        split at st <;>
        · rw [← st] at hed
          simp [WorkState.isTerminal] at hed
      · intro all
        exact absurd ((all wi rfl run).symm.trans hed) (by simp)
  · have hdr : (checkRun c (.workCompleted e)).verdict = .runDropped :=
      workRunCheck_other it hn run
    refine iff_of_true (missionState_of_dropped env hdr _) ?_
    intro x hx run'
    rw [← some.inj hx] at run'
    exact absurd run' run

lemma missionState_otherRun_iff (h : OtherRun c ev m) :
    missionState (reduceControl env c ev) m.id = missionState c m.id ↔ Fenced c ev := by
  obtain ⟨runID, sc, hn, ho⟩ := h.scope
  cases ev <;> simp only [runScope, reduceCtorEq] at sc
  case workDispatched e =>
    obtain ⟨id, rfl⟩ := Prod.mk.inj (some.inj sc)
    exact missionState_workDispatched_iff env e id h.found hn ho
  case workCompleted e =>
    obtain ⟨wi, it, hs⟩ := map_eq_some_iff.mp sc
    obtain ⟨id, rfl⟩ := Prod.mk.inj hs
    rw [← id]
    exact missionState_workCompleted_iff env e it hn
  case decisionRequested e =>
    obtain ⟨id, -⟩ := Prod.mk.inj (some.inj sc)
    rw [← id, control_of_current env rfl]
    refine iff_of_false (fun hs => ?_) not_false
    have dcs := congrArg (fun st => st.decisions.length) hs
    simp [missionState, applyControl, applyDecisionRequested, updateMission] at dcs
  case voiPlanRequested e =>
    obtain ⟨id, -⟩ := Prod.mk.inj (some.inj sc)
    rw [← id]
    exact missionState_voiPlanRequested_iff env e
  case missionDone e | missionPauseRequested e | missionResumed e | decisionCompleted e
      | voiPlanned e =>
    obtain ⟨id, rfl⟩ := Prod.mk.inj (some.inj sc)
    refine iff_of_true (missionState_of_dropped env ?_ _) trivial
    exact missionRunCheck_other .runDropped (id ▸ h.found) hn ho

end

/-- The projection names a run that the mission is not in. -/
def NewRun (c : Control) (e : MissionProjected) : Prop :=
  ∀ m, findMission c e.id = some m → m.runID ≠ e.runID

/-- Nothing is attached to the mission but work of the projected run. -/
structure NoOlderRun (c : Control) (e : MissionProjected) : Prop where
  work : ∀ wi ∈ c.work, wi.missionID = e.id → wi.runID = e.runID
  decisions : ∀ d ∈ c.decisions, d.missionID ≠ e.id
  plans : ∀ p ∈ c.voiPlans, p.missionID ≠ e.id

lemma noOlderRun_addMission : NoOlderRun { c with missions } e ↔ NoOlderRun c e :=
  ⟨fun h => { h with }, fun h => { h with }⟩

lemma noOlderRun_projectWork : NoOlderRun (projectWork c e) e ↔ NoOlderRun c e := by
  unfold projectWork
  generalize e.nodes = ns
  induction ns generalizing c with
  | nil => exact Iff.rfl
  | cons n ns ih =>
    rw [foldl_cons, ih]
    unfold projectNode
    split
    · exact Iff.rfl
    constructor
    · intro h
      exact ⟨fun wi hwi => h.work wi (mem_append_left _ hwi), h.decisions, h.plans⟩
    intro h
    exact ⟨forall_mem_append.mpr ⟨h.work, forall_mem_singleton.mpr fun _ => rfl⟩, h.decisions,
      h.plans⟩

lemma noOlderRun_retireMissionRun (env) : NoOlderRun (retireMissionRun env c e.id) e := by
  constructor
  · intro wi hwi hmi
    have hgn := (env.removeRows_mem hwi).2
    simp [hmi] at hgn
  · intro d hd hmi
    have hgn := (env.removeRows_mem hd).2
    simp [hmi] at hgn
  · intro p hp hmi
    have hgn := (env.removeRows_mem hp).2
    simp [hmi] at hgn

lemma noOlderRun_missionProjected_iff (env) (h : NewRun c e) :
    NoOlderRun (reduceControl env c (.missionProjected e)) e ↔
      (∃ m, findMission c e.id = some m ∧ m.status ≠ .pending) ∨ NoOlderRun c e := by
  show NoOlderRun (applyMissionProjected env c e) e ↔ _
  unfold applyMissionProjected
  cases hf : findMission c e.id with
  | none =>
    have add : NoOlderRun (launchRun c e) e ↔ NoOlderRun c e :=
      noOlderRun_projectWork.trans noOlderRun_addMission
    simp [add]
  | some m =>
    by_cases hp : m.status = .pending
    · have hsd : NoOlderRun (projectWork (updateMission c e.id (startRun e)) e) e ↔
          NoOlderRun c e := noOlderRun_projectWork.trans noOlderRun_addMission
      simp [hp, hsd]
    · have ret : NoOlderRun (launchRun (retireMissionRun env c e.id) e) e :=
        noOlderRun_projectWork.mpr (noOlderRun_addMission.mpr (noOlderRun_retireMissionRun env))
      simp only [hp, if_false, if_neg (h m hf)]
      exact iff_of_true ret (Or.inl ⟨m, rfl, hp⟩)

/-- An event that names another run of its mission is without effect on it exactly if it is fenced;
a projection of a new run leaves nothing of an older run exactly if the mission has started or
nothing was attached. -/
theorem fencing_iff (env : Env) (w : World) :
    (∀ ev m, OtherRun w.control ev m →
      (missionState (reduce env w ev).control m.id = missionState w.control m.id ↔
        Fenced w.control ev)) ∧ (∀ e, NewRun w.control e →
      (NoOlderRun (reduce env w (.missionProjected e)).control e ↔
        (∃ m, findMission w.control e.id = some m ∧ m.status ≠ .pending) ∨
          NoOlderRun w.control e)) := by
  constructor
  · intro ev m h
    rw [reduce_control]
    exact missionState_otherRun_iff env h
  · intro e h
    rw [reduce_control]
    exact noOlderRun_missionProjected_iff env h

def secondRunWorld : World :=
  replay Env.plain "t"
    [.missionProjected { id := "m", runID := "r1", goal := "g", nodes := [] },
     .missionProjected { id := "m", runID := "r2", goal := "g", nodes := [] }]

def secondRunMission : Mission := { id := "m", runID := "r2", goal := "g", status := .running }

def lateDecisionRequested : Event :=
  .decisionRequested { missionID := "m", cursor := 0, runID := "r1" }

lemma lateDecisionRequested_otherRun :
    OtherRun secondRunWorld.control lateDecisionRequested secondRunMission :=
  ⟨⟨"r1", rfl, by decide, by decide⟩, by decide⟩

theorem fencing_secondRun :
    (missionState (reduce Env.plain secondRunWorld lateDecisionRequested).control "m" =
        missionState secondRunWorld.control "m" ↔
      Fenced secondRunWorld.control lateDecisionRequested) ∧
    (NoOlderRun (reduce Env.plain secondRunWorld
        (.missionProjected { id := "m", runID := "r3", goal := "g", nodes := [] })).control
        { id := "m", runID := "r3", goal := "g", nodes := [] } ↔
      (∃ m, findMission secondRunWorld.control "m" = some m ∧ m.status ≠ .pending) ∨
        NoOlderRun secondRunWorld.control { id := "m", runID := "r3", goal := "g", nodes := [] }) :=
  ⟨(fencing_iff Env.plain secondRunWorld).1 lateDecisionRequested secondRunMission
      lateDecisionRequested_otherRun,
    (fencing_iff Env.plain secondRunWorld).2 _ fun m hf run => by
      have cur : findMission secondRunWorld.control "m" = some secondRunMission := by decide
      have hs : secondRunMission = m := some.inj (cur.symm.trans hf)
      rw [← hs] at run
      exact absurd run (by decide)⟩

/-- A request for a decision of the first run is folded in the second. -/
theorem late_decision_folded :
    OtherRun secondRunWorld.control lateDecisionRequested secondRunMission ∧
      missionState (reduce Env.plain secondRunWorld lateDecisionRequested).control "m" ≠
        missionState secondRunWorld.control "m" := by
  refine ⟨lateDecisionRequested_otherRun, fun hs => ?_⟩
  have dcs := congrArg (fun st => st.decisions.length) hs
  revert dcs
  decide

end Gibson.Brain
