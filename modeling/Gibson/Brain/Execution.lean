import Gibson.Brain.Steadiness
import Gibson.Brain.MissionView
import Gibson.Lib.Elimination

/-! What the Systems that execute missions do to the work of one of them: nothing while it is
halted, conditions and joins apart, and an end without failures only once all of it is through. -/

namespace Gibson.Brain

open List Rows Relation WorkItem

section
variable {C : ConditionEnv} {J : JoinEnv} {c : Control} {missionID : String}

lemma leavesWork_of_passive (passive : isPassive ev = true) : ev.leavesWork = true := by
  cases ev <;> first | rfl | cases passive

/-- The state of an item of the mission. -/
def ownState (c : Control) (missionID id : String) : Option WorkState :=
  (ownWork c missionID id).map WorkItem.state

lemma SameView.ownState_eq (hs : SameView missionID c' c) (id) :
    ownState c' missionID id = ownState c missionID id := by
  have states := congrArg (Option.map state) (hs.work id)
  simpa [ownState, Option.map_map, Function.comp_def, unsequenced] using states

variable (C c missionID) in
/-- No condition or join of the mission is ready, and no condition that is names a waiting item of
it in the branch that is not taken. -/
structure Unresolved : Prop where
  waiting : ∀ wi ∈ c.work, wi.missionID = missionID →
    conditionReady c.workSnapshot wi = false ∧ joinReady c.workSnapshot wi = false
  unskipped : ∀ wi ∈ c.work, conditionReady c.workSnapshot wi = true → ∀ spec,
    C.unmarshal wi.input = some spec → spec.expression ≠ "" → ∀ x ∈ c.work,
    x.missionID = missionID → x.state = .pending →
      x.id ∉ (spec.branch !C.evalCondition spec.expression (nodeResults c.workSnapshot)
        (missionBagFor c wi.missionID)).map (workID wi.missionID)

lemma ownWork_of_mem (wf : WellFormed c) (mem : wi ∈ c.work) :
    ownWork c missionID wi.id = if wi.missionID = missionID then some wi else none := by
  unfold ownWork
  rw [findWork_of_mem wf mem, Option.filter_some]
  simp

lemma ownState_of_mem (wf : WellFormed c) (mem : wi ∈ c.work)
    (hmi : wi.missionID = missionID) : ownState c missionID wi.id = some wi.state := by
  rw [ownState, ownWork_of_mem wf mem, if_pos hmi]
  rfl

variable (env : Env)

lemma ownState_resolved (wf : WellFormed c) (mem : x ∈ c.work)
    (hmi : x.missionID = missionID) (hn : x.id = e.id ∨ x.id ∈ e.skip) :
    ownState (reduceControl env c (.conditionResolved e)) missionID x.id ≠ some .pending := by
  have hf := findWork_of_mem wf mem
  show ownState (applyConditionResolved c e) missionID x.id ≠ _
  unfold ownState ownWork applyConditionResolved
  rw [findWork_skip, findWork_updateWork (resolve_id e.result)]
  by_cases hs : x.id = e.id
  · rw [← hs, hf]
    cases st : x.state <;> by_cases hsc : x.id ∈ e.skip <;>
      simp [hsc, resolve, skip, st, hmi]
  · cases st : x.state <;> simp [hs, hn.resolve_left hs, hf, skip, st, hmi]

lemma ownState_completed (wf : WellFormed c) {e : WorkCompleted} (mem : x ∈ c.work)
    (hmi : x.missionID = missionID) (id : e.id = x.id) (run : e.runID = "")
    (hp : x.state = .pending) :
    ownState (reduceControl env c (.workCompleted e)) missionID x.id ≠ some .pending := by
  have hf := findWork_of_mem wf mem
  rw [workCompleted_found env (id ▸ hf), if_pos (by
    simp [takesRun, run, hp, WorkState.isTerminal])]
  show Option.map state (Option.filter _ (findWork (updateWork c e.id _) x.id)) ≠ _
  rw [findWork_updateWork (complete_id e _), id, if_pos (by simp), hf]
  by_cases hfa : e.err = "" <;> simp [complete, hfa, hmi]

lemma frozen_of_unresolved (wf : WellFormed w.control)
    (hhal : pausedMissions w.control missionID = true) (hn : missionID ≠ "")
    (unr : Unresolved C w.control missionID) (hl : sys ∈ executorSystems C J)
    (hemi : ev ∈ sys w) (id) :
    ownState (reduceControl env w.control ev) missionID id = ownState w.control missionID id := by
  have ho {wi} (mem : wi ∈ w.control.work) (hth : wi.missionID ≠ missionID) :
      ownWork w.control missionID wi.id = none := by rw [ownWork_of_mem wf mem, if_neg hth]
  have hpt {wi} (goi : isHalted (pausedMissions w.control) wi = false) :
      wi.missionID ≠ missionID := by
    rintro rfl
    simp [isHalted, hhal, hn] at goi
  have com {e} {wi} (mem : wi ∈ w.control.work) (id : e.id = wi.id)
      (hth : wi.missionID ≠ missionID) :
      SameView missionID (reduceControl env w.control (.workCompleted e)) w.control :=
    sameView_workCompleted env fun x own => by simp [id, ho mem hth] at own
  have hq (lea : ev.leavesWork = true) :
      ownState (reduceControl env w.control ev) missionID id = ownState w.control missionID id := by
    unfold ownState ownWork findWork reduceControl
    split
    · rfl
    · rw [work_of_leavesWork env lea]
  simp only [executorSystems, mem_cons, not_mem_nil, or_false] at hl
  rcases hl with rfl | rfl | rfl | rfl | rfl | rfl | rfl | rfl | rfl | rfl
  · obtain ⟨e, rfl, -⟩ := budgetSystem_done w ev hemi
    exact hq rfl
  · obtain ⟨wi, ht, hry, rfl⟩ := mem_schedule hemi
    simp only [isReady, Bool.and_eq_true, Bool.not_eq_true'] at hry
    have hth := hpt hry.1.2
    have none := ho (mem_workSnapshot.mp ht) hth
    exact (sameView_workDispatched env hth none).ownState_eq id
  · obtain ⟨wi, hl, rfl⟩ := mem_map.mp hemi
    obtain ⟨ht, hry⟩ := mem_filter.mp hl
    rw [mem_workSnapshot] at ht
    have hth : wi.missionID ≠ missionID := fun hmi => by
      simp [(unr.waiting wi ht hmi).1] at hry
    have uns := unr.unskipped wi ht hry
    unfold conditionEvent
    split
    · exact (com ht rfl hth).ownState_eq id
    next spec hdec =>
    split
    · exact (com ht rfl hth).ownState_eq id
    next exp =>
    refine (sameView_conditionResolved env (ho ht hth)
      fun id hsc x own => ?_).ownState_eq id
    obtain ⟨hf, hmi⟩ := findWork_of_ownWork own
    obtain rfl : x.id = id := by simpa using List.find?_some hf
    exact fun hp =>
      uns spec hdec exp x (mem_of_find?_eq_some hf) hmi hp hsc
  · obtain ⟨wi, hl, rfl⟩ := mem_map.mp hemi
    obtain ⟨ht, hry⟩ := mem_filter.mp hl
    rw [mem_workSnapshot] at ht
    obtain ⟨err, res, event⟩ := joinEvent_completes J (workIndex w.control.workSnapshot) wi
    rw [event]
    refine (com ht rfl fun hmi => ?_).ownState_eq id
    simp [(unr.waiting wi ht hmi).2] at hry
  · obtain ⟨wi, hl, rfl⟩ := mem_map.mp hemi
    obtain ⟨ht, hry⟩ := mem_filter.mp hl
    simp only [Bool.and_eq_true, Bool.not_eq_true'] at hry
    have none := ho (mem_workSnapshot.mp ht) (hpt hry.1.1.2)
    exact (sameView_workRetried env none).ownState_eq id
  · exact hq (leavesWork_of_passive (surpriseFindingSystem_passive w ev hemi))
  · obtain ⟨m, -, hsa⟩ := mem_filterMap.mp hemi
    obtain ⟨-, -, rfl⟩ := Engine.decisionEvent?_some hsa
    exact hq rfl
  · exact hq (leavesWork_of_passive (voiGateSystem_passive w ev hemi))
  · obtain ⟨e, rfl, -⟩ := missionCompletionSystem_done w ev hemi
    exact hq rfl
  · exact hq (leavesWork_of_passive (rescanReconciliationSystem_passive w ev hemi))

/-- In a reachable World the Systems leave a mission that is not running alone exactly if none of
its conditions and joins is ready and no condition skips one of its items. -/
theorem frozen_iff (env C J tenant events m) (mem : m ∈ (replay env tenant events).control.missions)
    (stopped : m.status ≠ .running) (named : m.id ≠ "") :
    let w := replay env tenant events
    (∀ sys ∈ executorSystems C J, ∀ ev ∈ sys w, ∀ id,
        ownState (reduce env w ev).control m.id id = ownState w.control m.id id) ↔
      Unresolved C w.control m.id := by
  intro w
  have wf : WellFormed w.control := replay_wellFormed env tenant events
  have hhal : pausedMissions w.control m.id = true :=
    any_eq_true.mpr ⟨m, mem_sortBy.mpr mem, by simp [stopped]⟩
  simp only [reduce_control]
  constructor
  · intro fro
    have condition {wi} (mem : wi ∈ w.control.work)
        (hry : conditionReady w.control.workSnapshot wi = true) :=
      fro (conditionSystem C) (by simp [executorSystems]) _
        (mem_map_of_mem (mem_filter.mpr ⟨mem_workSnapshot.mpr mem, hry⟩))
    refine ⟨fun wi mem hmi => ⟨?_, ?_⟩, ?_⟩
    · by_contra hry
      rw [Bool.not_eq_false] at hry
      have hs := condition mem hry wi.id
      rw [conditionReady, Bool.and_eq_true, Bool.and_eq_true, beq_iff_eq, beq_iff_eq] at hry
      rw [ownState_of_mem wf mem hmi, hry.1.2] at hs
      rcases conditionEvent_cases C w.control wi with mal | ⟨e, hrsv, own⟩
      · rw [mal] at hs
        exact ownState_completed env wf mem hmi rfl rfl hry.1.2 hs
      · rw [hrsv] at hs
        exact ownState_resolved env wf mem hmi (.inl own.symm) hs
    · by_contra hry
      rw [Bool.not_eq_false] at hry
      have hs := fro (joinSystem J) (by simp [executorSystems]) _
        (mem_map_of_mem (mem_filter.mpr ⟨mem_workSnapshot.mpr mem, hry⟩)) wi.id
      rw [joinReady, Bool.and_eq_true, Bool.and_eq_true, beq_iff_eq, beq_iff_eq] at hry
      obtain ⟨err, res, event⟩ := joinEvent_completes J (workIndex w.control.workSnapshot) wi
      rw [event, ownState_of_mem wf mem hmi, hry.1.2] at hs
      exact ownState_completed env wf mem hmi rfl rfl hry.1.2 hs
    · intro wi ht hry spec hdec exp x hl hmi hp hsc
      have hs := condition ht hry x.id
      simp only [conditionEvent, hdec, if_neg exp] at hs
      rw [ownState_of_mem wf hl hmi, hp] at hs
      exact ownState_resolved env wf hl hmi (.inr hsc) hs
  · intro unr sys hl ev hemi id
    exact frozen_of_unresolved env wf hhal named unr hl hemi id

/-- A condition and the node of the branch that it does not take. -/
def branchProjected : Event :=
  .missionProjected
    { id := "m", runID := "r",
      nodes := [{ id := "c", kind := .condition },
        { id := "b", kind := .agent, dependsOn := ["c"] }] }

def branchEnv : ConditionEnv where
  unmarshal _ := some ⟨"true", [], ["b"]⟩
  evalCondition _ _ _ := true

def noJoin : JoinEnv := ⟨Unit, fun _ => .error "", fun _ _ _ => .error ""⟩

def pausedEvents : List Event := [branchProjected, .missionPauseRequested { id := "m" }]

def pausedBranch : World := replay .plain "t" pausedEvents

/-- The condition of a mission that was paused first is resolved, and skips its other branch. -/
theorem paused_condition_resolves :
    (findMission pausedBranch.control "m").map Mission.status = some .paused ∧
      ∃ sys ∈ executorSystems branchEnv noJoin, ∃ ev ∈ sys pausedBranch, ∃ id,
        ownState (reduce .plain pausedBranch ev).control "m" id ≠
          ownState pausedBranch.control "m" id :=
  ⟨rfl, conditionSystem branchEnv, .tail _ (.tail _ (.head _)), _, .head _, "m/b", by decide⟩

theorem frozen_iff_pausedBranch :
    (∀ sys ∈ executorSystems branchEnv noJoin, ∀ ev ∈ sys pausedBranch, ∀ id,
        ownState (reduce .plain pausedBranch ev).control "m" id =
          ownState pausedBranch.control "m" id) ↔ Unresolved branchEnv pausedBranch.control "m" :=
  frozen_iff .plain branchEnv noJoin "t" pausedEvents { id := "m", runID := "r", status := .paused }
    (.head _) (by decide) (by decide)

end

/-- One of the mission's items, and the item that one of its dependencies names. -/
def DependsOn (c : Control) (missionID : String) (wi dep : WorkItem) : Prop :=
  (wi ∈ c.work ∧ wi.missionID = missionID) ∧
    ∃ id ∈ wi.dependsOn, workIndex c.workSnapshot id = some dep

/-- Dependencies are closed and acyclic. -/
structure AcyclicWork (c : Control) (missionID : String) : Prop where
  acyclic : ∀ wi, ¬TransGen (DependsOn c missionID) wi wi
  closed : ∀ wi ∈ c.work, wi.missionID = missionID → ∀ id ∈ wi.dependsOn,
    ∃ dep, workIndex c.workSnapshot id = some dep ∧ dep.missionID = missionID

def WorkItem.Blocks (dep : WorkItem) : Prop :=
  dep.state = .skipped ∨ dep.state = .failed ∧ dep.dependentsRunOnFailure = false

lemma completionEvent?_completed {work : List WorkItem} {m : Mission} {e : MissionDone}
    (emi : completionEvent? work m = some (.missionDone e)) (suc : e.status = .completed) :
    e.id = m.id ∧ ∀ wi ∈ work, wi.missionID = m.id → m.id ≠ "" →
      wi.state ≠ .running ∧ wi.state ≠ .failed ∧
        (wi.state = .pending → depsSatisfied wi.dependsOn (workIndex work) = false) := by
  unfold completionEvent? at emi
  simp only at emi
  split at emi
  · cases emi
  split at emi
  · cases emi
  next hq =>
  split at emi
  · cases emi
    cases suc
  next fine =>
  cases emi
  refine ⟨rfl, fun wi mem own hn => ?_⟩
  simp only [Bool.or_eq_true, not_or, any_eq_true, not_exists, not_and, mem_filter] at hq fine
  have hmi : wi ∈ work ∧ (wi.missionID != "" && wi.missionID == m.id) = true := by
    simp [mem, hn, own]
  have hil := hq.1 wi hmi
  have ws := hq.2 wi hmi
  have hso := fine wi hmi
  exact ⟨by simpa using hil, by simpa using hso, by simpa using ws⟩

/-- A mission that completes well has no failed item, and what it leaves pending waits for an item
that was skipped. -/
theorem completion_sound {w : World} {e : MissionDone}
    (emits : .missionDone e ∈ missionCompletionSystem w) (success : e.status = .completed)
    (graph : AcyclicWork w.control e.id) :
    ∀ wi ∈ w.control.work, wi.missionID = e.id → wi.missionID ≠ "" → (wi.state.isTerminal = true ∨
        wi.state = .pending ∧ ∃ dep, TransGen (DependsOn w.control e.id) wi dep ∧ dep.Blocks) ∧
      ¬(wi.state = .failed ∧ wi.attempts ≤ wi.maxRetries) := by
  obtain ⟨m, -, event⟩ := mem_filterMap.mp emits
  obtain ⟨hs, hsp⟩ := completionEvent?_completed event success
  rw [← hs] at hsp
  intro wi mem hmi hn
  have own : ∀ wi ∈ w.control.work, wi.missionID = e.id → wi.state ≠ .running ∧
      wi.state ≠ .failed ∧ (wi.state = .pending →
        depsSatisfied wi.dependsOn (workIndex w.control.workSnapshot) = false) :=
    fun x ht its => hsp x (mem_workSnapshot.mpr ht) its (hmi ▸ hn)
  refine ⟨?_, fun failed => (own wi mem hmi).2.1 failed.1⟩
  by_contra stuck
  rw [not_or, not_and] at stuck
  have pending : wi.state = .pending := by
    have alive := stuck.1
    have hil := (own wi mem hmi).1
    cases state : wi.state <;> simp_all [WorkState.isTerminal]
  -- a pending item without a blocking one behind it waits for another such item
  let S : Set WorkItem := {x | (x ∈ w.control.work ∧ x.missionID = e.id) ∧ x.state = .pending ∧
    ReflTransGen (DependsOn w.control e.id) wi x}
  have hsup : ∀ y ∈ S, ∃ x ∈ S, DependsOn w.control e.id y x := by
    rintro y ⟨⟨ht, its⟩, ws, pth⟩
    have unmet := (own y ht its).2.2 ws
    rw [depsSatisfied, all_eq_false] at unmet
    obtain ⟨id, needs, unmet⟩ := unmet
    obtain ⟨dep, hf, hs⟩ := graph.closed y ht its id needs
    have edge : DependsOn w.control e.id y dep := ⟨⟨ht, its⟩, id, needs, hf⟩
    have hi := mem_workSnapshot.mp (mem_reverse.mp (mem_of_find?_eq_some hf))
    have open' : ¬dep.Blocks := fun blocks => stuck.2 pending ⟨dep, .tail' pth edge, blocks⟩
    refine ⟨dep, ⟨⟨hi, hs⟩, ?_, pth.tail edge⟩, edge⟩
    obtain ⟨hil, hso, -⟩ := own dep hi hs
    rw [hf] at unmet
    cases state : dep.state <;>
      simp_all [WorkItem.Blocks, WorkItem.satisfies]
  have finite : S.Finite := w.control.work.finite_toSet.subset fun x mem => mem.1.1
  obtain ⟨x, cyc, -⟩ := Elimination.downstream_of_supported
    (E := fun x y => DependsOn w.control e.id y x) finite hsup ⟨⟨mem, hmi⟩, pending, .refl⟩
  have hbk := cyc.lift (p := fun x y => DependsOn w.control e.id y x) id fun _ _ edge => edge.2.2
  exact graph.acyclic x (transGen_swap.mp hbk)

def skippedItem : WorkItem where
  id := "m/a"
  missionID := "m"
  runID := ""
  kind := .agent
  state := .skipped

/-- It waits for the skipped item. -/
def waitingItem : WorkItem :=
  { skippedItem with id := "m/b", state := .pending, dependsOn := ["m/a"] }

def skippedWork : World where
  tenant := "t"
  control :=
    { missions := [{ id := "m", status := .running }], work := [skippedItem, waitingItem] }

lemma dependsOn_skippedWork (edge : DependsOn skippedWork.control "m" x y) :
    x = waitingItem ∧ y = skippedItem := by
  obtain ⟨⟨mem, -⟩, id, nee, hf⟩ := edge
  obtain rfl | rfl : x = skippedItem ∨ x = waitingItem := by simpa [skippedWork] using mem
  · simp [skippedItem] at nee
  · obtain rfl : id = "m/a" := by simpa [waitingItem] using nee
    exact ⟨rfl, (Option.some.inj hf).symm⟩

theorem completion_sound_waitingItem :
    (waitingItem.state.isTerminal = true ∨ waitingItem.state = .pending ∧
      ∃ dep, TransGen (DependsOn skippedWork.control "m") waitingItem dep ∧ dep.Blocks) ∧
    ¬(waitingItem.state = .failed ∧ waitingItem.attempts ≤ waitingItem.maxRetries) := by
  refine completion_sound (w := skippedWork) (.head _) rfl ⟨fun wi cyc => ?_, ?_⟩ waitingItem
    (by simp [skippedWork]) rfl (by decide)
  · obtain ⟨_, h1, -⟩ := TransGen.head'_iff.mp cyc
    obtain ⟨_, -, hlt⟩ := TransGen.tail'_iff.mp cyc
    have hs := (dependsOn_skippedWork h1).1.symm.trans (dependsOn_skippedWork hlt).2
    exact absurd (congrArg WorkItem.id hs) (by decide)
  · intro wi mem _ id nee
    obtain rfl | rfl : wi = skippedItem ∨ wi = waitingItem := by simpa [skippedWork] using mem
    · simp [skippedItem] at nee
    · obtain rfl : id = "m/a" := by simpa [waitingItem] using nee
      exact ⟨skippedItem, rfl, rfl⟩

end Gibson.Brain
