import Gibson.Mission.WorkGraph

/-! Branch gating: what a condition of a projected definition holds back and skips. -/

namespace Gibson.Mission

open List

open Brain (StringMap WorkNode WorkItem World ConditionResolved ConditionEnv workID conditionSystem
  findWork)
open Rows Loops

/-- The work that an id stands for: a node, or what a container is made of. -/
inductive StandsFor (x : Expansion) : String → String → Prop
  | work {id : String} {n : MissionNode} : x.all.lookup id = some n →
      isCollapsed n.type = false → StandsFor x id id
  | subNode {id u : String} {n sub : MissionNode} : x.all.lookup id = some n →
      n.type = .parallel → sub ∈ n.subNodes → StandsFor x sub.id u → StandsFor x id u
  | fanOut {id inst u : String} {insts : List String} : x.instances.lookup id = some insts →
      inst ∈ insts → StandsFor x inst u → StandsFor x id u

lemma StandsFor.isWork {x id u} (h : StandsFor x id u) :
    ∃ n, x.all.lookup u = some n ∧ isCollapsed n.type = false := by
  induction h with
  | work found real => exact ⟨_, found, real⟩
  | subNode _ _ _ _ ih | fanOut _ _ _ ih => exact ih

/-- The item that a node becomes. -/
structure ItemOf (missionID : String) (wn : WorkNode) (wi : WorkItem) : Prop where
  mission : wi.missionID = missionID
  kind : wi.kind = wn.kind
  input : wi.input = wn.input
  dependsOn : wi.dependsOn = wn.dependsOn.map (workID missionID)

/-- A resolution to the other outcome lists the work, and folding it skips the item. -/
def Skips (env : ProjectionEnv) (nodes : List WorkNode) (condition : String) (outcome : Bool)
    (u : String) : Prop :=
  ∀ evalCondition missionID (w : World) (e : ConditionResolved),
    (∀ wi ∈ w.control.work, wi.id = workID missionID condition →
      ∃ wn ∈ nodes, wn.id = condition ∧ ItemOf missionID wn wi) →
    .conditionResolved e ∈ conditionSystem ⟨env.unmarshalCondition, evalCondition⟩ w →
    e.id = workID missionID condition → e.result = !outcome →
    workID missionID u ∈ e.skip ∧
      ∀ brainEnv, findWork (Brain.reduce brainEnv w (.conditionResolved e)).control
          (workID missionID u) =
        (findWork w.control (workID missionID u)).map WorkItem.skip

/-- What `b` stands for waits for the condition, and is skipped by the other outcome. -/
def Gates (env : ProjectionEnv) (x : Expansion) (nodes : List WorkNode) (condition : String)
    (outcome : Bool) (b : String) : Prop :=
  ∀ u, StandsFor x b u →
    (∀ wn ∈ nodes, wn.id = u → condition ∈ wn.dependsOn) ∧ Skips env nodes condition outcome u

/-- The branch lists every piece of work that `b` stands for, and none of it is the condition. -/
def ListsWork (x : Expansion) (condition : String) (branch : List String) (b : String) : Prop :=
  ∀ u, StandsFor x b u → u ∈ branch ∧ u ≠ condition

section
variable {outcome : Bool}

lemma conditionSpec_branch (n : MissionNode) (outcome : Bool) :
    n.conditionSpec.branch outcome = n.branch outcome := by
  cases outcome <;> rfl

variable {wn : WorkNode}

section
variable (h : Built env o d x nodes) (found : x.all.lookup c = some n) (type : n.type = .condition)
include h found type

lemma Built.ofCondition (mem : wn ∈ nodes) (id : wn.id = c) :
    wn.kind = .condition ∧ wn.input = env.marshalCondition n.conditionSpec ∧ c ∉ wn.dependsOn := by
  obtain ⟨n', hf', -, hbc⟩ := h.mem wn mem
  rw [id, found] at hf'
  cases hf'
  have kd := hbc.kind
  rw [type] at kd
  refine ⟨(Option.some.inj kd).symm, hbc.input type, ?_⟩
  rw [hbc.dependsOn, id]
  exact fun self => (mem_dependsOn.mp self).1 rfl

lemma Built.waits (hn : c ≠ "") (hl : u ∈ n.branch outcome) (ho : u ≠ c)
    (mem : wn ∈ nodes) (id : wn.id = u) : c ∈ wn.dependsOn := by
  obtain ⟨_, _, _, hbc⟩ := h.mem wn mem
  have real : isCollapsed n.type = false := by rw [type]; rfl
  rw [hbc.dependsOn, id, mem_dependsOn]
  refine ⟨Ne.symm ho, c, mem_rawDeps_branch found type hl ho hn, ?_⟩
  simp [resolve, resolveIn, found, members_of_work real]

lemma Built.skips (hl : u ∈ n.branch outcome) (ho : u ≠ c) :
    Skips env nodes c outcome u := by
  intro evalCondition mid w e its hemi id res
  obtain ⟨wi, mem, hsid, spec, hdec, skip⟩ := Brain.conditionSystem_resolved hemi
  obtain ⟨wn, wnMem, wnID, it⟩ := its wi mem (hsid.trans id)
  obtain ⟨-, input, -⟩ := h.ofCondition found type wnMem wnID
  have encoded : env.unmarshalCondition wi.input = some n.conditionSpec := by
    rw [it.input, input, env.unmarshal_marshal]
  cases encoded.symm.trans hdec
  have inSkip : workID mid u ∈ e.skip := by
    rw [skip, res, Bool.not_not, conditionSpec_branch, it.mission]
    exact mem_map_of_mem hl
  refine ⟨inSkip, fun brainEnv => ?_⟩
  have hpt : workID mid u ≠ e.id := by
    rw [id]
    exact fun hs => ho (Brain.workID_injective mid hs)
  have folds : (Brain.reduce brainEnv w (.conditionResolved e)).control =
      Brain.applyConditionResolved w.control e := by
    rfl
  rw [folds, Brain.applyConditionResolved, Brain.findWork_skip, if_pos inSkip,
    Brain.findWork_updateWork (Brain.WorkItem.resolve_id e.result), if_neg (by simpa using hpt)]

end

/-! A World in which a condition resolves: its dependencies are done. -/

def doneItem (missionID id : String) : WorkItem where
  id := workID missionID id
  missionID := missionID
  runID := ""
  kind := .agent
  state := .done

def conditionItem (missionID : String) (wn : WorkNode) : WorkItem where
  id := workID missionID wn.id
  missionID := missionID
  runID := ""
  kind := wn.kind
  input := wn.input
  dependsOn := wn.dependsOn.map (workID missionID)
  state := .pending

def readyWorld (missionID : String) (wn : WorkNode) : World where
  tenant := ""
  control := { work := conditionItem missionID wn :: wn.dependsOn.map (doneItem missionID) }

lemma mem_readyWorld :
    wi ∈ (readyWorld missionID wn).control.work ↔
      wi = conditionItem missionID wn ∨ ∃ dep ∈ wn.dependsOn, wi = doneItem missionID dep := by
  simp [readyWorld, eq_comm]

lemma readyWorld_ready (kd : wn.kind = .condition) (noSelf : wn.id ∉ wn.dependsOn) :
    Brain.conditionReady (readyWorld mid wn).control.workSnapshot
      (conditionItem mid wn) = true := by
  refine Brain.conditionReady_of_done kd rfl ?_ ?_
  · intro dep mem
    obtain ⟨id, hn, rfl⟩ := mem_map.mp mem
    have hst : doneItem mid id ∈ (readyWorld mid wn).control.work :=
      mem_readyWorld.mpr (.inr ⟨id, hn, rfl⟩)
    exact ⟨doneItem mid id, mem_sortBy.mpr hst, rfl⟩
  · intro wi mem dep
    rcases mem_readyWorld.mp (mem_sortBy.mp mem) with rfl | ⟨id, -, rfl⟩
    · obtain ⟨id, mem, hs⟩ := mem_map.mp dep
      obtain rfl := Brain.workID_injective mid hs
      exact absurd mem noSelf
    · rfl

lemma Built.listed_of_skips (h : Built env o d x nodes) (found : x.all.lookup c = some n)
    (type : n.type = .condition) (expr : n.conditionSpec.expression ≠ "")
    (skips : Skips env nodes c outcome u) : u ∈ n.branch outcome := by
  have real : isCollapsed n.type = false := by rw [type]; rfl
  obtain ⟨wn, mem, id, -⟩ := h.exist c n found real
  obtain ⟨kd, input, noSelf⟩ := h.ofCondition found type mem id
  rw [← id] at noSelf
  have hdec : env.unmarshalCondition (conditionItem "m" wn).input = some n.conditionSpec := by
    rw [conditionItem, input, env.unmarshal_marshal]
  have hemi := Brain.conditionSystem_emits
    (E := ⟨env.unmarshalCondition, fun _ _ _ => !outcome⟩) (w := readyWorld "m" wn) (!outcome)
    (mem_readyWorld.mpr (.inl rfl)) (readyWorld_ready kd noSelf) hdec expr (fun _ _ => rfl)
  have its : ∀ wi ∈ (readyWorld "m" wn).control.work, wi.id = workID "m" c →
      ∃ wn ∈ nodes, wn.id = c ∧ ItemOf "m" wn wi := by
    intro wi mem' hsid
    rcases mem_readyWorld.mp mem' with rfl | ⟨dep, dependency, rfl⟩
    · exact ⟨wn, mem, id, ⟨rfl, rfl, rfl, rfl⟩⟩
    · obtain rfl := Brain.workID_injective "m" hsid
      exact absurd (id ▸ dependency) noSelf
  have inSkip := (skips _ "m" (readyWorld "m" wn) _ its hemi (congrArg (workID "m") id) rfl).1
  rw [Bool.not_not, conditionSpec_branch] at inSkip
  obtain ⟨en, hl, hs⟩ := mem_map.mp inSkip
  obtain rfl := Brain.workID_injective "m" hs
  exact hl

end

/-- A condition with a name gates what its branches stand for where the branch lists all that work
itself; where it has an expression, only there. -/
theorem condition_gates_iff {env : ProjectionEnv} {o : MapOrder} {d : MissionDefinition}
    {goal : String} {targets : List ForEachTarget} {projected : Brain.MissionProjected}
    {origins : StringMap FanOutOrigin} {x : Expansion} {c : String} {n : MissionNode}
    (h : missionDefinitionToProjected env o (some d) goal targets = .ok (projected, origins))
    (expanded : expandDefinition env o d targets = .ok x) (found : x.all.lookup c = some n)
    (type : n.type = .condition) (named : c ≠ "") (outcome : Bool) (b : String) :
    (ListsWork x c (n.branch outcome) b → Gates env x projected.nodes c outcome b) ∧
      (n.conditionSpec.expression ≠ "" → Gates env x projected.nodes c outcome b →
        ListsWork x c (n.branch outcome) b) := by
  have hbu := projected_built h expanded
  constructor
  · intro lis u hsta
    obtain ⟨hl, ho⟩ := lis u hsta
    exact ⟨fun wn mem id => hbu.waits found type named hl ho mem id,
      hbu.skips found type hl ho⟩
  · intro expr gat u hsta
    obtain ⟨ws, skips⟩ := gat u hsta
    refine ⟨hbu.listed_of_skips found type expr skips, ?_⟩
    obtain ⟨m, hh, real⟩ := hsta.isWork
    obtain ⟨wn, mem, id, hbc⟩ := hbu.exist u m hh real
    have dep := ws wn mem id
    rw [hbc.dependsOn, id] at dep
    exact Ne.symm (mem_dependsOn.mp dep).1

def branchDefinition (trueBranch : List String) : MissionDefinition where
  id := "m"
  nodes := ((∅ : StringMap MissionNode).insert "c"
    { id := "c", type := .condition,
      config := .condition { expression := "e", trueBranch } }).insert "par"
    { id := "par", type := .parallel,
      config := .parallel [{ id := "a", type := .agent, config := .agent {} }] 0 }

def branchExpansion (trueBranch : List String) : Expansion where
  all := (branchDefinition trueBranch).nodes.insert "a"
    { id := "a", type := .agent, config := .agent {} }

theorem condition_gates_agent : ∃ projected origins, missionDefinitionToProjected .plain .plain
        (some (branchDefinition ["a"])) "" [] = .ok (projected, origins) ∧
      Gates .plain (branchExpansion ["a"]) projected.nodes "c" true "a" := by
  refine ⟨_, _, rfl, ?_⟩
  have hxp : expandDefinition .plain .plain (branchDefinition ["a"]) [] =
      .ok (branchExpansion ["a"]) := rfl
  refine (condition_gates_iff rfl hxp rfl rfl (by decide) true "a").1 ?_
  intro u hsta
  cases hsta with
  | work => exact ⟨mem_singleton_self _, by decide⟩
  | subNode found parallel => simp [branchExpansion] at found; simp [← found] at parallel
  | fanOut found => simp [branchExpansion] at found

/-- The agent inside the parallel node that a branch names is dispatched all the same. -/
theorem condition_misses_subNode : ∃ projected origins, missionDefinitionToProjected .plain .plain
        (some (branchDefinition ["par"])) "" [] = .ok (projected, origins) ∧
      expandDefinition .plain .plain (branchDefinition ["par"]) [] = .ok (branchExpansion ["par"]) ∧
      StandsFor (branchExpansion ["par"]) "par" "a" ∧
      ¬ Gates .plain (branchExpansion ["par"]) projected.nodes "c" true "par" ∧
      ∃ w w' agent, w = Brain.replay .plain "t" [.missionProjected projected] ∧
        conditionSystem ⟨ProjectionEnv.plain.unmarshalCondition, fun _ _ _ => false⟩ w =
          [.conditionResolved { id := "m/c", result := false, skip := ["m/par"] }] ∧
        w' = Brain.reduce .plain w
          (.conditionResolved { id := "m/c", result := false, skip := ["m/par"] }) ∧
        findWork w'.control "m/a" = some agent ∧
        Brain.schedulerSystem w' = [agent.dispatchEvent] := by
  have hsta : StandsFor (branchExpansion ["par"]) "par" "a" :=
    .subNode rfl rfl (mem_singleton_self _) (.work rfl rfl)
  refine ⟨_, _, rfl, rfl, hsta, ?_, _, _, _, rfl, rfl, rfl, rfl, rfl⟩
  intro gat
  have ws : "c" ∈ ([] : List String) := (gat "a" hsta).1 _ mem_cons_self rfl
  simp at ws

end Gibson.Mission
