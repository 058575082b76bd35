import Gibson.Brain.Restore

/-! Which Worlds a snapshot carries over unchanged, as far as the Systems can see. -/

namespace Gibson.Brain

open List Rows WorkItem Function

def WorkItem.schedulingView (wi : WorkItem) : WorkState × List String × Int × Int :=
  (wi.state, wi.dependsOn, wi.attempts, wi.maxRetries)

/-- The Systems that schedule and retry work see the same in both Worlds, item by item. -/
structure SameWorkGraph (w' w : World) : Prop where
  scheduler : schedulerSystem w' = schedulerSystem w
  retry : retrySystem w' = retrySystem w
  items : ∀ id, (findWork w'.control id).map WorkItem.schedulingView =
    (findWork w.control id).map WorkItem.schedulingView

/-- An item that a restore leaves as it is, as far as the scheduler sees. -/
def restoresWork (c : Control) (wi : WorkItem) : Prop :=
  wi.state ≠ .skipped ∧ wi.dependsOn = [] ∧ wi.attempts = 1 ∧ wi.maxRetries = 0 ∧
    survives c wi = true

variable {wi : WorkItem}

lemma schedulingView_restored : wi.restored.schedulingView = wi.schedulingView ↔
      wi.state ≠ .skipped ∧ wi.dependsOn = [] ∧ wi.attempts = 1 ∧ wi.maxRetries = 0 := by
  unfold schedulingView restored
  cases hs : wi.state <;> simp [eq_comm]

section
variable {w : World}

section
variable (h : WellFormed w.control)
include h

lemma findWork_restored (id) :
    findWork (restoreWorld env (snapshotWorld w) tenant).control id =
      ((w.control.work.filter (survives w.control)).find? (·.id == id)).map WorkItem.restored := by
  unfold findWork
  rw [(restoreWorld_control env w tenant h).2, List.find?_map]
  have keys : ((w.control.work.filter (survives w.control)).map WorkItem.id).Nodup :=
    h.workIDs.sublist (filter_sublist.map _)
  exact congrArg _ (find?_key_of_perm keys ((sortBy_perm WorkItem.id w.control.work).filter _) id)

lemma restoresWork_of_items (hwi : wi ∈ w.control.work)
    (hs : (findWork (restoreWorld env (snapshotWorld w) tenant).control wi.id).map
      schedulingView = (findWork w.control wi.id).map schedulingView) :
    restoresWork w.control wi := by
  rw [findWork_restored h, findWork_of_mem h hwi] at hs
  cases hf : (w.control.work.filter (survives w.control)).find? (·.id == wi.id) with
  | none => simp [hf] at hs
  | some x =>
    have hx := mem_filter.mp (mem_of_find?_eq_some hf)
    have hsid : x.id = wi.id := by simpa using List.find?_some hf
    obtain rfl := inj_on_of_nodup_map h.workIDs hx.1 hwi hsid
    rw [hf] at hs
    have view : x.restored.schedulingView = x.schedulingView := by simpa using hs
    obtain ⟨st, ds, att, rt⟩ := schedulingView_restored.mp view
    exact ⟨st, ds, att, rt, hx.2⟩

lemma workSnapshot_restored :
    (restoreWorld env (snapshotWorld w) tenant).control.workSnapshot =
      (w.control.workSnapshot.filter (survives w.control)).map restored := by
  unfold Control.workSnapshot
  rw [(restoreWorld_control env w tenant h).2]
  refine sortBy_of_pairwise (pairwise_map.mpr ?_)
  exact (pairwise_sortBy WorkItem.id w.control.work).filter _

lemma missionSnapshot_restored :
    (restoreWorld env (snapshotWorld w) tenant).control.missionSnapshot =
      w.control.missionSnapshot.map (fun m => m.restored.decided w.control.decisionSnapshot) := by
  unfold Control.missionSnapshot
  rw [(restoreWorld_control env w tenant h).1]
  refine sortBy_of_pairwise (pairwise_map.mpr ?_)
  refine (pairwise_sortBy Mission.id w.control.missions).imp fun {a b} le => ?_
  rwa [decided_id, decided_id]

end
end

variable {work : List WorkItem}

lemma schedule_restored (hhal : String → Bool) (idx idx' : String → Option WorkItem)
    (hr : String → Int) (h : ∀ wi ∈ work, wi.dependsOn = [] ∧ wi.state ≠ .skipped) :
    schedule hhal idx' hr (work.map restored) = schedule hhal idx hr work := by
  induction work generalizing hr with
  | nil => rfl
  | cons wi rs ih =>
    have hwi := h wi (by simp)
    have hre (hr : String → Int) := ih hr fun x hx => h x (by simp [hx])
    have hry : isReady hhal idx' wi.restored = isReady hhal idx wi := by
      unfold isReady
      simp only [restored, hwi.2, hwi.1, if_false]
      rfl
    rw [map_cons, schedule, schedule, hry,
      show groupKey wi.restored = groupKey wi from rfl,
      show wi.restored.dispatchEvent = wi.dispatchEvent from rfl,
      show wi.restored.limit = wi.limit from rfl]
    simp only [hre]

lemma runningPerGroup_restored (work) :
    runningPerGroup (work.map restored) = runningPerGroup work := by
  funext key
  unfold runningPerGroup
  rw [countP_map]
  congr 2
  funext wi
  have hr : (wi.restored.state == .running) = (wi.state == .running) := by
    unfold restored
    cases wi.state <;> rfl
  simp only [comp_apply, hr]
  rfl

lemma retrySystem_eq_nil
    (h : ∀ wi ∈ w.control.work, wi.maxRetries < wi.attempts) : retrySystem w = [] := by
  unfold retrySystem
  rw [map_eq_nil_iff, filter_eq_nil_iff]
  intro wi hwi
  have := h wi (mem_sortBy.mp hwi)
  simp [this]

/-- A reachable World is restored with its work graph exactly if every item is not skipped, without
dependencies, in its first attempt, without retries, and of the run that its mission is in. -/
theorem sameWorkGraph_restore_iff (env : Env) (tenant : String) (events : List Event) :
    SameWorkGraph (restoreWorld env (snapshotWorld (replay env tenant events)) tenant)
        (replay env tenant events) ↔ ∀ wi ∈ (replay env tenant events).control.work,
        restoresWork (replay env tenant events).control wi := by
  have h := replay_wellFormed env tenant events
  generalize replay env tenant events = w at h ⊢
  constructor
  · intro hs wi hwi
    exact restoresWork_of_items h hwi (hs.items wi.id)
  intro all
  have kp :=
    filter_eq_self.mpr fun wi hwi => (all wi hwi).2.2.2.2
  have kep : w.control.workSnapshot.filter (survives w.control) =
      w.control.workSnapshot :=
    filter_eq_self.mpr fun wi hwi => (all wi (mem_sortBy.mp hwi)).2.2.2.2
  constructor
  · unfold schedulerSystem
    have paused : pausedMissions (restoreWorld env (snapshotWorld w) tenant).control =
        pausedMissions w.control := by
      funext missionID
      unfold pausedMissions
      rw [missionSnapshot_restored h, any_map]
      refine congrArg _ (funext fun m => ?_)
      simp only [comp_apply, decided_id, decided_status]
      rfl
    simp only [workSnapshot_restored h, kep, paused, runningPerGroup_restored]
    refine schedule_restored _ _ _ _ fun wi hwi => ?_
    have hwi' := all wi (mem_sortBy.mp hwi)
    exact ⟨hwi'.2.1, hwi'.1⟩
  · rw [retrySystem_eq_nil, retrySystem_eq_nil]
    · intro wi hwi
      obtain ⟨-, -, att, rt, -⟩ := all wi hwi
      omega
    · intro wi hwi
      rw [(restoreWorld_control env w tenant h).2] at hwi
      obtain ⟨x, -, rfl⟩ := mem_map.mp hwi
      exact Int.zero_lt_one
  · intro id
    rw [findWork_restored h, kp, Option.map_map]
    show Option.map _ (findWork w.control id) = _
    cases hf : findWork w.control id with
    | none => rfl
    | some wi =>
      obtain ⟨st, ds, att, rt, -⟩ := all wi (mem_of_find?_eq_some hf)
      exact congrArg some (schedulingView_restored.mpr ⟨st, ds, att, rt⟩)

def chainProjected : Event :=
  .missionProjected
    { id := "m", runID := "r",
      nodes := [{ id := "a", kind := .agent, target := "scout" },
        { id := "b", kind := .agent, target := "scout", dependsOn := ["a"] }] }

/-- After a restore the second node no longer waits. -/
theorem restore_releases_dependent :
    ¬ SameWorkGraph (restoreWorld Env.plain (snapshotWorld (replay Env.plain "t" [chainProjected]))
        "t") (replay Env.plain "t" [chainProjected]) := by
  intro hs
  have hln := congrArg List.length hs.scheduler
  revert hln
  decide

def Mission.controlView (m : Mission) :
    MissionStatus × Budget × Int × Int × Bool × DeciderSlot × Bool :=
  (m.status, m.budget, m.tokensUsed, m.decisionCursor, m.decisionInFlight, m.deciderSlot,
    m.reconciled)

/-- The Systems that stop missions and ask the decider see the same in both Worlds. -/
structure SameMissionControl (w' w : World) : Prop where
  missions : ∀ id, (findMission w'.control id).map Mission.controlView =
    (findMission w.control id).map Mission.controlView
  budget : budgetSystem w' = budgetSystem w
  decider : deciderGateSystem w' = deciderGateSystem w

def restoredCursor (c : Control) (missionID : String) : Int :=
  (lastDecision c.decisionSnapshot missionID).elim (-1) DecisionRecord.cursor

def restoredInFlight (c : Control) (missionID : String) : Bool :=
  (lastDecision c.decisionSnapshot missionID).any (·.status != .completed)

/-- No limits, no spending, no decider slot, not reconciled, the cursor and the flag of the last
decision; and where the decider may be asked, no finished item that the restore drops. -/
structure RestoresMission (c : Control) (m : Mission) : Prop where
  budget : m.budget = {}
  tokensUsed : m.tokensUsed = 0
  deciderSlot : m.deciderSlot = {}
  reconciled : m.reconciled = false
  cursor : m.decisionCursor = restoredCursor c m.id
  inFlight : m.decisionInFlight = restoredInFlight c m.id
  terminalWork : m.status = .running → m.goal ≠ "" → m.decisionInFlight = false →
    ∀ wi ∈ c.work, wi.missionID = m.id → wi.state.isTerminal = true → survives c wi = true

lemma controlView_decided (c) (m : Mission) :
    (m.restored.decided c.decisionSnapshot).controlView =
      (m.status, {}, 0, restoredCursor c m.id, restoredInFlight c m.id, {}, false) := by
  unfold Mission.decided restoredCursor restoredInFlight
  rw [show m.restored.id = m.id from rfl]
  cases lastDecision c.decisionSnapshot m.id with
  | none | some d => rfl

variable {m : Mission}

lemma controlView_restored_iff :
    (m.restored.decided c.decisionSnapshot).controlView = m.controlView ↔
      m.budget = {} ∧ m.tokensUsed = 0 ∧ m.decisionCursor = restoredCursor c m.id ∧
        m.decisionInFlight = restoredInFlight c m.id ∧ m.deciderSlot = {} ∧
        m.reconciled = false := by
  rw [controlView_decided]
  unfold Mission.controlView
  constructor
  · intro hs
    simp only [Prod.mk.injEq] at hs
    obtain ⟨-, bg, tks, csr, flag, slot, hrcn⟩ := hs
    exact ⟨bg.symm, tks.symm, csr.symm, flag.symm, slot.symm, hrcn.symm⟩
  · rintro ⟨bg, tks, csr, flag, slot, hrcn⟩
    rw [bg, tks, csr, flag, slot, hrcn]

lemma decisionEvent?_eq_iff (hid : m'.id = m.id) (hst : m'.status = m.status)
    (hrun : m.status = .running → m'.goal = m.goal ∧ m'.runID = m.runID)
    (hfl : m'.decisionInFlight = m.decisionInFlight)
    (hcu : m'.decisionCursor = m.decisionCursor) :
    decisionEvent? work' m' = decisionEvent? work m ↔
      (m.status = .running → m.goal ≠ "" → m.decisionInFlight = false →
        terminalWorkCount work' m.id = terminalWorkCount work m.id) := by
  unfold decisionEvent?
  rw [hid, hst, hfl, hcu]
  by_cases hr : m.status = .running
  · rw [(hrun hr).1, (hrun hr).2]
    by_cases hcl : m.goal = "" ∨ m.decisionInFlight = true
    · rw [if_pos (Or.inr hcl), if_pos (Or.inr hcl)]
      refine iff_of_true rfl fun _ goal flag => ?_
      rcases hcl with h | h
      · exact absurd h goal
      · exact absurd (flag.symm.trans h) (by simp)
    · have hop : ¬ (m.status ≠ .running ∨ m.goal = "" ∨ m.decisionInFlight = true) := by
        rintro (h | h)
        · exact h hr
        · exact hcl h
      rw [if_neg hop, if_neg hop]
      have goal : m.goal ≠ "" := fun h => hcl (Or.inl h)
      have flag : m.decisionInFlight = false := by
        simpa using fun h => hcl (Or.inr h)
      constructor
      · intro hs _ _ _
        by_contra differ
        split at hs <;> split at hs
        · simp only [Option.some.injEq, Event.decisionRequested.injEq,
            DecisionRequested.mk.injEq] at hs
          omega
        · simp at hs
        · simp at hs
        · omega
      · intro hcts
        rw [hcts hr goal flag]
  · rw [if_pos (Or.inl hr), if_pos (Or.inl hr)]
    exact iff_of_true rfl fun h => absurd h hr

lemma terminalWorkCount_restored_iff {c missionID} :
    terminalWorkCount ((c.workSnapshot.filter (survives c)).map restored) missionID =
        terminalWorkCount c.workSnapshot missionID ↔
      ∀ wi ∈ c.work, wi.missionID = missionID → wi.state.isTerminal = true →
        survives c wi = true := by
  have sam (wi : WorkItem) : wi.restored.state.isTerminal = wi.state.isTerminal := by
    unfold restored
    cases wi.state <;> rfl
  unfold terminalWorkCount
  rw [countP_map]
  have pred : (fun wi : WorkItem => wi.missionID == missionID && wi.state.isTerminal) ∘
      restored = fun wi => wi.missionID == missionID && wi.state.isTerminal := by
    funext wi
    simp only [comp_apply, sam]
    rfl
  rw [pred, countP_filter_eq_iff]
  constructor
  · intro all wi hwi mi hter
    exact all wi (mem_sortBy.mpr hwi) (by simp [mi, hter])
  intro all wi hwi both
  obtain ⟨mi, hter⟩ := Bool.and_eq_true_iff.mp both
  exact all wi (mem_sortBy.mp hwi) (beq_iff_eq.mp mi) hter

def decisionMission : Event → String
  | .decisionRequested e => e.missionID
  | _ => ""

lemma decisionMission_decisionEvent? (h : decisionEvent? work m = some ev) :
    decisionMission ev = m.id := by
  simp only [decisionEvent?] at h
  split at h
  · simp at h
  split at h
  · cases h
    rfl
  · simp at h

lemma budgetEvent?_unlimited (work) (h : m.budget = {}) : budgetEvent? work m = none := by
  unfold budgetEvent?
  rw [h]
  simp

lemma findMission_restoreWorld (h : WellFormed w.control) (id) :
    findMission (restoreWorld env (snapshotWorld w) tenant).control id =
      (findMission w.control id).map fun m => m.restored.decided w.control.decisionSnapshot := by
  unfold findMission
  rw [(restoreWorld_control env w tenant h).1, List.find?_map]
  have key0 : (fun m : Mission => m.id == id) ∘
      (fun m : Mission => m.restored.decided w.control.decisionSnapshot) =
        fun m : Mission => m.id == id := by
    funext m
    simp only [comp_apply, decided_id]
    rfl
  rw [key0]
  exact congrArg _ (find?_key_of_perm h.missionIDs (sortBy_perm Mission.id w.control.missions) id)

lemma controlViews_restored_iff (h : WellFormed w.control) :
    (∀ id, (findMission (restoreWorld env (snapshotWorld w) tenant).control id).map
        Mission.controlView = (findMission w.control id).map Mission.controlView) ↔
      ∀ m ∈ w.control.missions,
        (m.restored.decided w.control.decisionSnapshot).controlView = m.controlView := by
  constructor
  · intro hs m hm
    have view := hs m.id
    rw [findMission_restoreWorld h, findMission_of_mem h hm] at view
    simpa using view
  · intro hs id
    rw [findMission_restoreWorld h]
    cases hf : findMission w.control id with
    | none => rfl
    | some m => exact congrArg some (hs m (mem_of_find?_eq_some hf))

lemma deciderGateSystem_restored_iff (h : WellFormed w.control) (vie : ∀ m ∈ w.control.missions,
      (m.restored.decided w.control.decisionSnapshot).controlView = m.controlView) :
    deciderGateSystem (restoreWorld env (snapshotWorld w) tenant) = deciderGateSystem w ↔
      ∀ m ∈ w.control.missions, m.status = .running → m.goal ≠ "" → m.decisionInFlight = false →
        ∀ wi ∈ w.control.work, wi.missionID = m.id → wi.state.isTerminal = true →
          survives w.control wi = true := by
  unfold deciderGateSystem
  rw [missionSnapshot_restored h, workSnapshot_restored h, filterMap_map]
  refine (filterMap_congr_iff_of_key decisionMission (nodup_map_sortBy h.missionIDs) ?_ ?_).trans ?_
  · intro m ev hev
    exact (decisionMission_decisionEvent? hev).trans (decided_id _ _)
  · intro m ev hev
    exact decisionMission_decisionEvent? hev
  have poi (m : Mission) (hm : m ∈ w.control.missions) :
      decisionEvent? ((w.control.workSnapshot.filter (survives w.control)).map restored)
          (m.restored.decided w.control.decisionSnapshot) =
        decisionEvent? w.control.workSnapshot m ↔ _ :=
    decisionEvent?_eq_iff (decided_id _ _) (decided_status _ _)
      (fun hr => by unfold Mission.decided; split <;> simp [Mission.restored, hr])
      (congrArg (·.2.2.2.2.1) (vie m hm)) (congrArg (·.2.2.2.1) (vie m hm))
  constructor
  · intro hs m hm hr goal flag
    exact terminalWorkCount_restored_iff.mp
      ((poi m hm).mp (hs m (mem_sortBy.mpr hm)) hr goal flag)
  · intro all m hm
    have hm' := mem_sortBy.mp hm
    refine (poi m hm').mpr fun hr goal flag => ?_
    exact terminalWorkCount_restored_iff.mpr (all m hm' hr goal flag)

/-- A reachable World is restored with its mission control exactly if every mission is one that a
restore leaves alone. -/
theorem sameMissionControl_restore_iff (env : Env) (tenant : String) (events : List Event) :
    SameMissionControl (restoreWorld env (snapshotWorld (replay env tenant events)) tenant)
        (replay env tenant events) ↔ ∀ m ∈ (replay env tenant events).control.missions,
        RestoresMission (replay env tenant events).control m := by
  have h := replay_wellFormed env tenant events
  generalize replay env tenant events = w at h ⊢
  constructor
  · intro hs m hm
    have vie := (controlViews_restored_iff h).mp hs.missions
    have work := (deciderGateSystem_restored_iff h vie).mp hs.decider
    obtain ⟨bg, tks, csr, flag, slot, hrcn⟩ :=
      controlView_restored_iff.mp (vie m hm)
    exact ⟨bg, tks, slot, hrcn, csr, flag, work m hm⟩
  · intro all
    have vie : ∀ m ∈ w.control.missions,
        (m.restored.decided w.control.decisionSnapshot).controlView = m.controlView := by
      intro m hm
      have ok := all m hm
      exact controlView_restored_iff.mpr
        ⟨ok.budget, ok.tokensUsed, ok.cursor, ok.inFlight, ok.deciderSlot, ok.reconciled⟩
    refine ⟨(controlViews_restored_iff h).mpr vie, ?_,
      (deciderGateSystem_restored_iff h vie).mpr fun m hm => (all m hm).terminalWork⟩
    -- Neither World limits a mission, so neither stops one.
    have unl : budgetSystem w = [] := by
      refine filterMap_eq_nil_iff.mpr fun m hm => ?_
      exact budgetEvent?_unlimited _ (all m (mem_sortBy.mp hm)).budget
    have unl' : budgetSystem (restoreWorld env (snapshotWorld w) tenant) = [] := by
      unfold budgetSystem
      rw [missionSnapshot_restored h]
      refine filterMap_eq_nil_iff.mpr fun m' hm' => ?_
      obtain ⟨m, -, rfl⟩ := mem_map.mp hm'
      exact budgetEvent?_unlimited _ (congrArg (·.2.1) (controlView_decided w.control m))
    rw [unl, unl']

def limitedProjected : List Event :=
  [.missionProjected
    { id := "m", runID := "r", budget := { maxTokens := 10 },
      nodes := [{ id := "a", kind := .agent, target := "scout" }] },
   .tokenUsed { missionID := "m", tokens := 11 }]

/-- The budget stops the mission before a restore and never after it. -/
theorem restore_forgets_budget : ¬ SameMissionControl
      (restoreWorld Env.plain (snapshotWorld (replay Env.plain "t" limitedProjected)) "t")
      (replay Env.plain "t" limitedProjected) := by
  intro hs
  have hln := congrArg List.length hs.budget
  revert hln
  decide

end Gibson.Brain
