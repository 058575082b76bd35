import Mathlib.Algebra.Ring.Int.Defs
import Mathlib.Data.Prod.Lex
import Gibson.Brain.Reduce

/-! The Systems: those that drive mission control, the one that resolves conditions, and those that
execute missions, in the order in which a tick runs them. Each reads the World and returns events. -/

namespace Gibson.Brain

def pausedMissions (c : Control) (missionID : String) : Bool :=
  c.missionSnapshot.any fun m => m.id == missionID && m.status != .running

def workIndex (work : List WorkItem) (id : String) : Option WorkItem :=
  work.reverse.find? (·.id == id)

/-- A dependency that lets its dependents run: it is done, or it failed for good and its
dependents run on failure. -/
def WorkItem.satisfies (dep : WorkItem) : Bool :=
  dep.state == .done ||
    (dep.state == .failed && dep.dependentsRunOnFailure && decide (dep.maxRetries < dep.attempts))

def depsSatisfied (deps : List String) (idx : String → Option WorkItem) : Bool :=
  deps.all fun d => (idx d).elim false WorkItem.satisfies

/-- The concurrency group of an item and its mission, or `none` where there is no ceiling. -/
def groupKey (wi : WorkItem) : Option String :=
  if wi.group = "" ∨ wi.limit ≤ 0 then none else some (wi.missionID ++ "/" ++ wi.group)

def runningPerGroup (work : List WorkItem) (key : String) : Int :=
  work.countP fun wi => wi.state == .running && groupKey wi == some key

def WorkKind.isResolved : WorkKind → Bool
  | .condition | .join => true
  | _ => false

def isHalted (halted : String → Bool) (wi : WorkItem) : Bool :=
  wi.missionID != "" && halted wi.missionID

def WorkItem.dispatchEvent (wi : WorkItem) : Event :=
  .workDispatched
    { id := wi.id, missionID := wi.missionID, runID := wi.runID, itemKind := wi.kind,
      target := wi.target, input := wi.input, timeout := wi.timeout, group := wi.group,
      limit := wi.limit, network := wi.network, slotPins := wi.slotPins,
      startsFrom := wi.startsFrom, forkable := wi.forkable, checkpoint := wi.checkpoint,
      fromSnapshot := wi.fromSnapshot }

def isReady (halted : String → Bool) (idx : String → Option WorkItem) (wi : WorkItem) : Bool :=
  wi.state == .pending && !wi.kind.isResolved && !isHalted halted wi &&
    depsSatisfied wi.dependsOn idx

def schedule (halted : String → Bool) (idx : String → Option WorkItem) :
    (String → Int) → List WorkItem → List Event
  | _, [] => []
  | running, wi :: rest =>
    if isReady halted idx wi then
      match groupKey wi with
      | none => wi.dispatchEvent :: schedule halted idx running rest
      | some key =>
        if wi.limit ≤ running key then schedule halted idx running rest
        else
          wi.dispatchEvent ::
            schedule halted idx (Function.update running key (running key + 1)) rest
    else schedule halted idx running rest

def schedulerSystem (w : World) : List Event :=
  let work := w.control.workSnapshot
  schedule (pausedMissions w.control) (workIndex work) (runningPerGroup work) work

def retrySystem (w : World) : List Event :=
  let halted := pausedMissions w.control
  (w.control.workSnapshot.filter fun wi =>
    !wi.kind.isResolved && !isHalted halted wi && wi.state == .failed &&
      decide (wi.attempts ≤ wi.maxRetries)).map fun wi => .workRetried { id := wi.id }

def resumeFailInFlight (w : World) : List Event :=
  (w.control.workSnapshot.filter (·.state == .running)).map fun wi =>
    .workCompleted { id := wi.id, err := "interrupted: daemon restarted mid-flight" }

def executions (work : List WorkItem) (missionID : String) : Int :=
  ((work.filter (·.missionID == missionID)).map WorkItem.attempts).sum

def overExecutions (spent max : Int) : String :=
  "budget exceeded: " ++ toString spent ++ " executions > max " ++ toString max

def overTokens (spent max : Int) : String :=
  "budget exceeded: " ++ toString spent ++ " tokens > max " ++ toString max

def budgetEvent? (work : List WorkItem) (m : Mission) : Option Event :=
  let spent := executions work m.id
  if m.status ≠ .running then none
  else if 0 < m.budget.maxExecutions ∧ m.budget.maxExecutions < spent then
    some (.missionDone { id := m.id, outcome := some .failed,
                         reason := overExecutions spent m.budget.maxExecutions })
  else if 0 < m.budget.maxTokens ∧ m.budget.maxTokens < m.tokensUsed then
    some (.missionDone { id := m.id, outcome := some .failed,
                         reason := overTokens m.tokensUsed m.budget.maxTokens })
  else none

def budgetSystem (w : World) : List Event :=
  w.control.missionSnapshot.filterMap (budgetEvent? w.control.workSnapshot)

def terminalWorkCount (work : List WorkItem) (missionID : String) : Nat :=
  work.countP fun wi => wi.missionID == missionID && wi.state.isTerminal

/-- A running goal mission with no decision in flight asks for one when it never did, or when
work ended since. -/
def decisionEvent? (work : List WorkItem) (m : Mission) : Option Event :=
  let terminal : Int := terminalWorkCount work m.id
  if m.status ≠ .running ∨ m.goal = "" ∨ m.decisionInFlight then none
  else if m.decisionCursor = -1 ∨ terminal ≠ m.decisionCursor then
    some (.decisionRequested { missionID := m.id, cursor := terminal, runID := m.runID })
  else none

def deciderGateSystem (w : World) : List Event :=
  w.control.missionSnapshot.filterMap (decisionEvent? w.control.workSnapshot)

open List Rows WorkItem

/-- The decoded input of a condition. -/
structure ConditionSpec where
  expression : String
  (trueBranch falseBranch : List String)

/-- The nodes that run on the given outcome. -/
def ConditionSpec.branch (spec : ConditionSpec) (outcome : Bool) : List String :=
  if outcome then spec.trueBranch else spec.falseBranch

/-- What an expression sees. -/
structure MissionBag where
  id : String
  goal : Option String

/-- The JSON decoder of a condition, and the evaluator of its expression. -/
structure ConditionEnv where
  unmarshal : String → Option ConditionSpec
  evalCondition : String → StringMap String → MissionBag → Bool

def nodeResults (work : List WorkItem) : StringMap String :=
  (work.filter (·.state == .done)).foldl
    (fun bag wi => bag.insert (nodeName wi.id) wi.result) ∅

def missionBagFor (c : Control) (missionID : String) : MissionBag where
  id := missionID
  goal := (c.missionSnapshot.find? (·.id == missionID)).map Mission.goal

def malformedCondition (wi : WorkItem) : Event :=
  .workCompleted { id := wi.id, err := "malformed condition node" }

/-- What the System says about a condition that is ready. -/
def conditionEvent (E : ConditionEnv) (c : Control) (wi : WorkItem) : Event :=
  match E.unmarshal wi.input with
  | none => malformedCondition wi
  | some spec =>
    if spec.expression = "" then malformedCondition wi
    else
      let result := E.evalCondition spec.expression (nodeResults c.workSnapshot)
        (missionBagFor c wi.missionID)
      .conditionResolved
        { id := wi.id, result, skip := (spec.branch !result).map (workID wi.missionID) }

def conditionReady (work : List WorkItem) (wi : WorkItem) : Bool :=
  wi.kind == .condition && wi.state == .pending && depsSatisfied wi.dependsOn (workIndex work)

def conditionSystem (E : ConditionEnv) (w : World) : List Event :=
  (w.control.workSnapshot.filter (conditionReady w.control.workSnapshot)).map
    (conditionEvent E w.control)

lemma workID_injective (missionID) : Function.Injective (workID missionID) := by
  intro a b hs
  unfold workID at hs
  split at hs
  · exact hs
  · exact (String.append_right_inj _).mp hs

section
variable {E : ConditionEnv} {w : World}

lemma conditionSystem_resolved (h : .conditionResolved e ∈ conditionSystem E w) :
    ∃ wi ∈ w.control.work, wi.id = e.id ∧ ∃ spec, E.unmarshal wi.input = some spec ∧
      e.skip = (spec.branch !e.result).map (workID wi.missionID) := by
  obtain ⟨wi, mem, emi⟩ := mem_map.mp h
  refine ⟨wi, mem_sortBy.mp (mem_filter.mp mem).1, ?_⟩
  unfold conditionEvent malformedCondition at emi
  split at emi
  · simp at emi
  next spec hdec =>
  split at emi
  · simp at emi
  · rw [← Event.conditionResolved.inj emi]
    exact ⟨rfl, spec, hdec, rfl⟩

lemma conditionSystem_emits (result : Bool)
    (mem : wi ∈ w.control.work) (ready : conditionReady w.control.workSnapshot wi = true)
    (decoded : E.unmarshal wi.input = some spec) (expr : spec.expression ≠ "")
    (outcome : ∀ nodes bag, E.evalCondition spec.expression nodes bag = result) :
    .conditionResolved
      { id := wi.id, result, skip := (spec.branch !result).map (workID wi.missionID) } ∈
        conditionSystem E w := by
  refine mem_map.mpr ⟨wi, mem_filter.mpr ⟨mem_sortBy.mpr mem, ready⟩, ?_⟩
  simp only [conditionEvent, decoded, if_neg expr, outcome]

end

lemma conditionReady_of_done (kd : wi.kind = .condition)
    (hp : wi.state = .pending) (exi : ∀ dep ∈ wi.dependsOn, ∃ x ∈ work, x.id = dep)
    (hdn : ∀ x ∈ work, x.id ∈ wi.dependsOn → x.state = .done) : conditionReady work wi = true := by
  have sat : depsSatisfied wi.dependsOn (workIndex work) = true := by
    refine all_eq_true.mpr fun dep mem => ?_
    obtain ⟨x, hx, rfl⟩ := exi dep mem
    cases hf : workIndex work x.id with
    | none =>
      have hab := List.find?_eq_none.mp hf x (mem_reverse.mpr hx)
      simp at hab
    | some y =>
      have hs : y.id = x.id := by simpa using List.find?_some hf
      have hfi := hdn y (mem_reverse.mp (mem_of_find?_eq_some hf)) (hs ▸ mem)
      simp [satisfies, hfi]
  simp [conditionReady, kd, hp, sat]

lemma WorkItem.skip_id (wi : WorkItem) : wi.skip.id = wi.id := by
  unfold skip
  split <;> rfl

lemma WorkItem.skip_skip (wi : WorkItem) : wi.skip.skip = wi.skip := by
  unfold skip
  by_cases hp : wi.state = .pending <;> simp [hp]

lemma findWork_skip (c : Control) (ids : List String) (id) :
    findWork (ids.foldl (fun c id => updateWork c id skip) c) id =
      if id ∈ ids then (findWork c id).map skip else findWork c id :=
  findWork_updateAll skip_id skip_skip c ids id

lemma WorkItem.resolve_id (res : Bool) (wi : WorkItem) : (wi.resolve res).id = wi.id := by
  unfold resolve
  split <;> rfl

/-- The JSON decoder of a join, and the merge of its sources by the declared strategy, encoded. -/
structure JoinEnv where
  Spec : Type
  unmarshal : String → Except String Spec
  mergeJoin : Spec → String → (String → Option WorkItem) → Except String String

def joinEvent (J : JoinEnv) (idx : String → Option WorkItem) (wi : WorkItem) : Event :=
  match J.unmarshal wi.input with
  | .error err => .workCompleted { id := wi.id, err := "malformed join node: " ++ err }
  | .ok spec =>
    match J.mergeJoin spec wi.missionID idx with
    | .error err =>
      .workCompleted { id := wi.id, err := "join " ++ nodeName wi.id ++ ": " ++ err }
    | .ok result => .workCompleted { id := wi.id, result }

def joinReady (work : List WorkItem) (wi : WorkItem) : Bool :=
  wi.kind == .join && wi.state == .pending && depsSatisfied wi.dependsOn (workIndex work)

def joinSystem (J : JoinEnv) (w : World) : List Event :=
  (w.control.workSnapshot.filter (joinReady w.control.workSnapshot)).map
    (joinEvent J (workIndex w.control.workSnapshot))

def surpriseFindingID (hostID : Nat) : String := "anomaly-host-" ++ toString hostID

def surpriseFindingSystem (w : World) : List Event :=
  ((sortBy (fun h => toLex (h.scopeID, toLex (h.address, h.sshHostKey))) w.evidence.hostQuery).filter
    fun h =>
      h.surprise.getD "" != "" && !w.evidence.findings.any (·.id == surpriseFindingID h.id)).map
    fun h => .findingRaised
      { id := surpriseFindingID h.id, title := "Identity anomaly at " ++ h.address,
        description := h.surprise.getD "", scopeID := h.scopeID, address := h.address,
        severity := "medium", missionID := h.missionID }

/-- A running goal mission asks for a plan when it never did, or when work ended since, unless one
is in flight. -/
def planEvent? (work : List WorkItem) (plans : List VoIPlanState) (m : Mission) : Option Event :=
  let terminal : Int := terminalWorkCount work m.id
  let request : Event := .voiPlanRequested { missionID := m.id, cursor := terminal, runID := m.runID }
  if m.status ≠ .running ∨ m.goal = "" then none
  else
    match plans.reverse.find? (·.missionID == m.id) with
    | none => some request
    | some st => if st.inFlight ∨ terminal = st.cursor then none else some request

def voiGateSystem (w : World) : List Event :=
  w.control.missionSnapshot.filterMap
    (planEvent? w.control.workSnapshot w.control.voiPlanSnapshot)

/-- A running mission without a goal ends when none of its work runs and none can be dispatched. -/
def completionEvent? (work : List WorkItem) (m : Mission) : Option Event :=
  let mine := work.filter fun wi => wi.missionID != "" && wi.missionID == m.id
  let running := mine.any (·.state == .running)
  let ready := mine.any fun wi =>
    wi.state == .pending && depsSatisfied wi.dependsOn (workIndex work)
  let anyFailed := mine.any (·.state == .failed)
  if m.status ≠ .running ∨ m.goal ≠ "" then none
  else if running || ready then none
  else if anyFailed then
    some (.missionDone { id := m.id, outcome := some .failed, reason := "a work item failed" })
  else some (.missionDone { id := m.id, outcome := some .completed, reason := "all work complete" })

def missionCompletionSystem (w : World) : List Event :=
  w.control.missionSnapshot.filterMap (completionEvent? w.control.workSnapshot)

def rescanStatus (m : Mission) (f : Finding) : FindingStatus :=
  if f.lastScan = m.runID then .isOpen else .verified

def rescanEvents (findings : List Finding) (m : Mission) : List Event :=
  .scanReconciled { missionID := m.id } ::
    if m.status ≠ .completed then []
    else
      (findings.filter fun f =>
        f.scanScope != "" && f.scanScope == m.targetID && f.status == .fixed).map fun f =>
        .findingStatusChanged
          { id := f.id, status := (rescanStatus m f).toString, missionID := m.id }

def rescanReconciliationSystem (w : World) : List Event :=
  (w.control.missionSnapshot.filter fun m =>
    m.name == scanMissionName && !m.reconciled && m.status.isTerminal).flatMap
    (rescanEvents (sortBy Finding.id w.evidence.findings))

def executorSystems (C : ConditionEnv) (J : JoinEnv) : List (World → List Event) :=
  [budgetSystem, schedulerSystem, conditionSystem C, joinSystem J, retrySystem,
    surpriseFindingSystem, deciderGateSystem, voiGateSystem, missionCompletionSystem,
    rescanReconciliationSystem]

end Gibson.Brain
