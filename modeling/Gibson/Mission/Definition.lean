import Mathlib.Algebra.Order.Field.Rat
import Gibson.Brain.Component

/-! Mission definitions: a flat map of nodes, each with a type and one config. A getter answers a
zero value where the config is another one. -/

namespace Gibson.Mission

open Brain (StringMap)

inductive NodeType where
  | unspecified
  | agent
  | tool
  | plugin
  | condition
  | parallel
  | join
  | job
  | forEach
  | unknown (number : Int)
  deriving DecidableEq

/-- A pinned model. -/
structure LLMSlot where
  (slot provider model : String)

/-- The config of an agent node. -/
structure AgentConfig where
  (agentName goal : String := "")
  llmSlots : List LLMSlot := []

/-- The config of a tool node. -/
structure ToolConfig where
  toolName : String := ""
  input : StringMap String := ∅

/-- The config of a plugin node. -/
structure PluginConfig where
  (pluginName method : String := "")
  params : StringMap String := ∅

/-- The config of a condition node. -/
structure ConditionConfig where
  expression : String := ""
  (trueBranch falseBranch : List String := [])

inductive MergeStrategy where
  | unspecified
  | concat
  | reduce
  | first
  | last
  | custom

/-- The config of a join node. -/
structure JoinConfig where
  waitFor : List String := []
  strategy : MergeStrategy := .unspecified
  aggregator : String := ""

/-- The config of a job node. -/
structure JobConfig where
  (bankRef goal : String := "")

inductive NodeConfig (Node : Type) where
  | unset
  | agent (c : AgentConfig)
  | tool (c : ToolConfig)
  | plugin (c : PluginConfig)
  | condition (c : ConditionConfig)
  | parallel (subNodes : List Node) (maxConcurrency : Int)
  | join (c : JoinConfig)
  | job (c : JobConfig)
  | forEach (template : Option Node) (maxConcurrency : Int)

/-- A node. Its type and its config are two fields, and nothing ties them. -/
structure MissionNode where
  id : String
  type : NodeType
  config : NodeConfig MissionNode := .unset
  dependencies : List String := []
  maxRetries : Int := 0
  timeout : Option Int := none
  research : Bool := false
  startsFrom : String := ""

namespace MissionNode

variable (n : MissionNode)

def agentConfig : Option AgentConfig :=
  match n.config with
  | .agent c => some c
  | _ => none

def toolConfig : ToolConfig :=
  match n.config with
  | .tool c => c
  | _ => {}

def pluginConfig : PluginConfig :=
  match n.config with
  | .plugin c => c
  | _ => {}

def conditionConfig : Option ConditionConfig :=
  match n.config with
  | .condition c => some c
  | _ => none

def joinConfig : Option JoinConfig :=
  match n.config with
  | .join c => some c
  | _ => none

def jobConfig : JobConfig :=
  match n.config with
  | .job c => c
  | _ => {}

def subNodes : List MissionNode :=
  match n.config with
  | .parallel subs _ => subs
  | _ => []

def template : Option MissionNode :=
  match n.config with
  | .forEach tpl _ => tpl
  | _ => none

def isForEach : Bool :=
  match n.config with
  | .forEach _ _ => true
  | _ => false

def parallelLimit : Int :=
  match n.config with
  | .parallel _ limit => limit
  | _ => 0

def forEachLimit : Int :=
  match n.config with
  | .forEach _ limit => limit
  | _ => 0

/-- The branch of a condition that is taken on the given outcome. -/
def branch (outcome : Bool) : List String :=
  let c := n.conditionConfig.getD {}
  if outcome then c.trueBranch else c.falseBranch

def waitFor : List String := (n.joinConfig.getD {}).waitFor

end MissionNode

/-- An edge of a definition. -/
structure MissionEdge where
  (fromID toID : String)
  condition : String := ""

/-- The caps of a mission. -/
structure MissionConstraints where
  maxCost : Rat := 0
  maxTokens : Int := 0

inductive CheckpointMode where
  | unspecified
  | sandbox
  deriving DecidableEq

/-- A mission as it is submitted. -/
structure MissionDefinition where
  (id name description : String := "")
  nodes : StringMap MissionNode := ∅
  edges : List MissionEdge := []
  (entryPoints exitPoints : List String := [])
  constraints : Option MissionConstraints := none
  deciderSlot : Option Brain.DeciderSlot := none
  checkpoints : CheckpointMode := .unspecified

/-- The order in which Go's `range` visits a map: any order of the keys, at every loop anew. -/
structure MapOrder where
  keys : Nat → List String → List String
  perm : ∀ site ks, (keys site ks).Perm ks

/-- The entries of a map as the loop at `site` visits them. -/
def MapOrder.range {V : Type} (o : MapOrder) (site : Nat) (m : StringMap V) : List (String × V) :=
  (o.keys site m.keys).filterMap fun k => (m.lookup k).map (Prod.mk k)

lemma MapOrder.mem_range (o : MapOrder) (site : Nat) {k : String}
    {v : V} : (k, v) ∈ o.range site m ↔ m.lookup k = some v := by
  constructor
  · intro mem
    obtain ⟨k', -, hf⟩ := List.mem_filterMap.mp mem
    obtain ⟨v', hv', pair⟩ := Option.map_eq_some_iff.mp hf
    cases pair
    exact hv'
  · intro hf
    have key : k ∈ m.keys := AList.mem_keys.mp (AList.lookup_isSome.mp (by simp [hf]))
    refine List.mem_filterMap.mpr ⟨k, (o.perm site m.keys).mem_iff.mpr key, ?_⟩
    rw [hf, Option.map_some]

def MapOrder.plain : MapOrder where
  keys _ ks := ks
  perm _ _ := List.Perm.refl _

end Gibson.Mission
