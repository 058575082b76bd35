import Gibson.Brain.Systems
import Gibson.Mission.Graph

/-! The projection of a mission definition to the launch event of the brain. Containers collapse
into dependencies. -/

namespace Gibson.Mission

open Brain (StringMap WorkNode ConditionSpec)
open List Rows

/-- A target of a mission. -/
structure Target where
  (id name url : String := "")
  connectionURL : Option String := none

/-- One item of the run's target set. `none` is a target that did not resolve. -/
structure ForEachTarget where
  id : String
  target : Option Target

/-- What a join waits for. -/
structure JoinSource where
  id : String
  nodes : List String
  fanOut : Bool := false
  targets : List (String × String) := []

/-- The input of a join. -/
structure JoinSpec where
  (strategy aggregator : String)
  sources : List JoinSource

/-- The binding of placeholders and the JSON encoders, which are outside the model. Binding
rewrites texts only. -/
structure ProjectionEnv where
  unboundTarget : MissionNode → List String
  bindNode : MissionNode → Target → Except String MissionNode
  toolInputJSON : StringMap String → Except String String
  marshalPlugin : String → String → Except String String
  marshalJob : JobConfig → Except String String
  marshalCondition : ConditionSpec → String
  unmarshalCondition : String → Option ConditionSpec
  marshalJoin : JoinSpec → String
  bindNode_type : ∀ n t b, bindNode n t = .ok b → b.type = n.type
  unmarshal_marshal : ∀ spec, unmarshalCondition (marshalCondition spec) = some spec

/-! An environment that binds nothing and writes only conditions, as words of tagged texts. -/

def conditionWords (spec : ConditionSpec) : List (List Char) :=
  ('e' :: spec.expression.toList) :: (spec.trueBranch.map fun b => 't' :: b.toList) ++
    spec.falseBranch.map fun b => 'f' :: b.toList

def taggedWords (tag : Char) (words : List (List Char)) : List String :=
  words.filterMap fun w => if w.head? = some tag then some (String.ofList w.tail) else none

def writeWords (words : List (List Char)) : List Char :=
  words.flatMap fun w => w.flatMap (fun c => ['.', c]) ++ [';']

def readWords (word : List Char) : List Char → List (List Char)
  | '.' :: c :: rest => readWords (word ++ [c]) rest
  | ';' :: rest => word :: readWords [] rest
  | _ => []

lemma readWords_word (word w rest) :
    readWords word (w.flatMap (fun c => ['.', c]) ++ rest) = readWords (word ++ w) rest := by
  induction w generalizing word with
  | nil => simp
  | cons c w ih =>
    exact (ih (word ++ [c])).trans (by simp)

lemma readWords_writeWords (wor : List (List Char)) :
    readWords [] (writeWords wor) = wor := by
  induction wor with
  | nil => rfl
  | cons w wor ih =>
    unfold writeWords at ih ⊢
    rw [flatMap_cons, append_assoc, readWords_word]
    exact congrArg (List.cons _) ih

lemma taggedWords_map (tag tag' texts) :
    taggedWords tag (texts.map fun b => tag' :: b.toList) = if tag' = tag then texts else [] := by
  unfold taggedWords
  split
  · next hs => simp [hs]
  · next ho => simp [ho]

def conditionOfWords (words : List (List Char)) : ConditionSpec where
  expression := (taggedWords 'e' words).headD ""
  trueBranch := taggedWords 't' words
  falseBranch := taggedWords 'f' words

lemma conditionOfWords_conditionWords (spec) : conditionOfWords (conditionWords spec) = spec := by
  have split : ∀ tag, taggedWords tag (conditionWords spec) =
      taggedWords tag ([spec.expression].map fun b => 'e' :: b.toList) ++
        taggedWords tag (spec.trueBranch.map fun b => 't' :: b.toList) ++
        taggedWords tag (spec.falseBranch.map fun b => 'f' :: b.toList) := by
    intro tag
    unfold taggedWords
    rw [← filterMap_append, ← filterMap_append]
    rfl
  unfold conditionOfWords
  simp only [split, taggedWords_map]
  simp

def ProjectionEnv.plain : ProjectionEnv where
  unboundTarget _ := []
  bindNode n _ := .ok n
  toolInputJSON _ := .ok ""
  marshalPlugin _ encoded := .ok encoded
  marshalJob _ := .ok ""
  marshalCondition spec := String.ofList (writeWords (conditionWords spec))
  unmarshalCondition input := some (conditionOfWords (readWords [] input.toList))
  marshalJoin _ := ""
  bindNode_type n t b h := by rw [Except.ok.inj h]
  unmarshal_marshal spec := by
    rw [String.toList_ofList, readWords_writeWords, conditionOfWords_conditionWords]

def addSubNode (parallelID : String) (all : StringMap MissionNode) (sub : MissionNode) :
    Except String (StringMap MissionNode) :=
  if sub.id = "" then .error ("parallel node " ++ parallelID.quote ++ ": sub-node missing id")
  else .ok (all.insert sub.id sub)

def flattenParallel (o : MapOrder) (d : MissionDefinition) :
    Except String (StringMap MissionNode) :=
  (o.range 0 d.nodes).foldlM
    (fun all (id, n) =>
      if n.type ≠ .parallel then .ok all else n.subNodes.foldlM (addSubNode id) all)
    d.nodes

/-- Where a fan-out instance came from. -/
structure FanOutOrigin where
  (forEachNodeID templateID targetID : String)

def instanceID (templateID targetID : String) : String := templateID ++ "#" ++ targetID

def instanceTargetID (workID : String) : String :=
  if workID.toList.contains '#' then
    String.ofList (workID.toList.reverse.takeWhile (· != '#')).reverse
  else ""

def bindInstance (env : ProjectionEnv) (nodeID : String) (tpl : MissionNode) (t : ForEachTarget) :
    Except String MissionNode :=
  match t.target with
  | none => .error ("for_each node " ++ nodeID.quote ++ ": target " ++ t.id.quote ++
      " did not resolve")
  | some target =>
    match env.bindNode tpl target with
    | .error err => .error ("for_each node " ++ nodeID.quote ++ ": " ++ err)
    | .ok bound => .ok { bound with id := instanceID tpl.id t.id, dependencies := [] }

def expandForEach (env : ProjectionEnv) (nodeID : String) (tpl : MissionNode)
    (targets : List ForEachTarget) : Except String (List MissionNode) :=
  targets.mapM (bindInstance env nodeID tpl)

/-- The node set while its `for_each` nodes are expanded. -/
structure Expansion where
  all : StringMap MissionNode
  instances : StringMap (List String) := ∅
  origins : StringMap FanOutOrigin := ∅

def Expansion.addInstance (forEachID templateID : String) (x : Expansion)
    (inst : MissionNode × ForEachTarget) : Expansion where
  all := x.all.insert inst.1.id inst.1
  instances := x.instances.insert forEachID
    ((x.instances.lookup forEachID).getD [] ++ [inst.1.id])
  origins := x.origins.insert inst.1.id
    { forEachNodeID := forEachID, templateID, targetID := inst.2.id }

def expandNode (env : ProjectionEnv) (targets : List ForEachTarget) (x : Expansion) (id : String) :
    Except String Expansion :=
  match x.all.lookup id with
  | none => .ok x
  | some n =>
    if n.type ≠ .forEach then .ok x
    else
      match n.template with
      | none => .error ("for_each node " ++ id.quote ++ ": template missing or has no id")
      | some tpl =>
        if tpl.id = "" then
          .error ("for_each node " ++ id.quote ++ ": template missing or has no id")
        else if targets = [] then
          .error ("for_each node " ++ id.quote ++
            ": the run resolved no targets, so it would expand to nothing; " ++
            "a mission that fans out needs at least one target")
        else do
          let insts ← expandForEach env id tpl targets
          return (insts.zip targets).foldl (Expansion.addInstance id tpl.id) x

def expandForEachNodes (env : ProjectionEnv) (targets : List ForEachTarget)
    (all : StringMap MissionNode) : Except String Expansion :=
  (sortBy (fun id : String => id) all.keys).foldlM (expandNode env targets) { all }

abbrev NodeDeps : Type := List (String × String)

def NodeDeps.add (deps : NodeDeps) (node on : String) : NodeDeps :=
  if node = on ∨ on = "" then deps else deps ++ [(node, on)]

def NodeDeps.of (deps : NodeDeps) (node : String) : List String :=
  (deps.filter (·.1 == node)).map Prod.snd

def NodeDeps.inherit (deps : NodeDeps) (container node : String) : NodeDeps :=
  (deps.of container).foldl (fun (deps : NodeDeps) d => deps.add node d) deps

def declaredDeps (o : MapOrder) (d : MissionDefinition) (all : StringMap MissionNode) : NodeDeps :=
  let deps := (o.range 1 all).foldl
    (fun deps (id, n) => n.dependencies.foldl (fun (deps : NodeDeps) on => deps.add id on) deps) []
  let deps := d.edges.foldl (fun (deps : NodeDeps) e => deps.add e.toID e.fromID) deps
  (o.range 2 all).foldl
    (fun deps (id, n) =>
      if n.type = .join then n.waitFor.foldl (fun (deps : NodeDeps) w => deps.add id w) deps
      else deps) deps

def inheritParallelDeps (o : MapOrder) (d : MissionDefinition) (deps : NodeDeps) : NodeDeps :=
  (o.range 3 d.nodes).foldl
    (fun deps (id, n) =>
      if n.type = .parallel then
        n.subNodes.foldl (fun (deps : NodeDeps) sub => deps.inherit id sub.id) deps
      else deps) deps

def inheritForEachDeps (o : MapOrder) (instances : StringMap (List String)) (deps : NodeDeps) :
    NodeDeps :=
  (o.range 4 instances).foldl
    (fun deps (id, insts) =>
      insts.foldl (fun (deps : NodeDeps) inst => deps.inherit id inst) deps) deps

def gateBranches (o : MapOrder) (all : StringMap MissionNode) (deps : NodeDeps) : NodeDeps :=
  (o.range 5 all).foldl
    (fun deps (id, n) =>
      if n.type = .condition then
        (n.branch true ++ n.branch false).foldl (fun (deps : NodeDeps) b => deps.add b id) deps
      else deps) deps

def rawDeps (o : MapOrder) (d : MissionDefinition) (x : Expansion) : NodeDeps :=
  gateBranches o x.all (inheritForEachDeps o x.instances
    (inheritParallelDeps o d (declaredDeps o d x.all)))

def instanceIDsOf (nodeID : String) (all : StringMap MissionNode) : List String :=
  match all.lookup nodeID with
  | none => []
  | some n =>
    let tplID := (n.template.map MissionNode.id).getD ""
    if tplID = "" then []
    else
      sortBy (fun id : String => id)
        (all.keys.filter fun id => (tplID ++ "#").toList.isPrefixOf id.toList)

/-- The members that a container stands for, or `none` for a node that is work. -/
def members (id : String) (n : MissionNode) (all : StringMap MissionNode) : Option (List String) :=
  match n.type with
  | .parallel => some (n.subNodes.map MissionNode.id)
  | .forEach => some (instanceIDsOf id all)
  | _ => none

/-- No id is visited twice, so the number of nodes bounds the recursion. -/
def resolveIn (all : StringMap MissionNode) : Nat → String → List String → List String × List String
  | 0, _, seen => ([], seen)
  | fuel + 1, id, seen =>
    if id ∈ seen then ([], seen)
    else
      match all.lookup id with
      | none => ([id], id :: seen)
      | some n =>
        match members id n all with
        | none => ([id], id :: seen)
        | some ids =>
          ids.foldl
            (fun (out, seen) m =>
              let (more, seen) := resolveIn all fuel m seen
              (out ++ more, seen)) ([], id :: seen)

def resolve (all : StringMap MissionNode) (id : String) : List String :=
  (resolveIn all (all.keys.length + 2) id []).1

def MergeStrategy.name : MergeStrategy → String
  | .unspecified => ""
  | .concat => "CONCAT"
  | .reduce => "REDUCE"
  | .first => "FIRST"
  | .last => "LAST"
  | .custom => "CUSTOM"

/-- `none` is a parallel node inside itself, where the recursion has no end. -/
def joinSourcesFor (all : StringMap MissionNode) : Nat → String → Option (List JoinSource)
  | 0, _ => none
  | fuel + 1, id =>
    match all.lookup id with
    | none => some [{ id, nodes := [id] }]
    | some n =>
      if n.type = .forEach then
        let ids := instanceIDsOf id all
        some [{ id, nodes := ids, fanOut := true,
                targets := ids.map fun inst => (inst, instanceTargetID inst) }]
      else if n.type = .parallel then
        (n.subNodes.mapM fun sub => joinSourcesFor all fuel sub.id).map List.flatten
      else some [{ id, nodes := [id] }]

def joinKindInput (env : ProjectionEnv) (all : StringMap MissionNode) (n : MissionNode) :
    Except String (Brain.WorkKind × String × String) :=
  let j := n.joinConfig.getD {}
  match j.waitFor.mapM (joinSourcesFor all (all.keys.length + 2)) with
  | none => .error "parallel node inside itself"
  | some sources =>
    .ok (.join, "", env.marshalJoin
      { strategy := j.strategy.name, aggregator := j.aggregator, sources := sources.flatten })

def NodeType.name : NodeType → String
  | .unspecified => "NODE_TYPE_UNSPECIFIED"
  | .agent => "NODE_TYPE_AGENT"
  | .tool => "NODE_TYPE_TOOL"
  | .plugin => "NODE_TYPE_PLUGIN"
  | .condition => "NODE_TYPE_CONDITION"
  | .parallel => "NODE_TYPE_PARALLEL"
  | .join => "NODE_TYPE_JOIN"
  | .job => "NODE_TYPE_JOB"
  | .forEach => "NODE_TYPE_FOR_EACH"
  | .unknown number => toString number

def MissionNode.conditionSpec (n : MissionNode) : ConditionSpec where
  expression := (n.conditionConfig.getD {}).expression
  trueBranch := n.branch true
  falseBranch := n.branch false

def pluginInputJSON (env : ProjectionEnv) (c : PluginConfig) : Except String String :=
  if c.method = "" then .error "plugin node names no method"
  else
    match env.toolInputJSON c.params with
    | .error err => .error ("plugin params: " ++ err)
    | .ok encoded => env.marshalPlugin c.method encoded

def nodeKindTargetInput (env : ProjectionEnv) (n : MissionNode) :
    Except String (Brain.WorkKind × String × String) :=
  if env.unboundTarget n ≠ [] then
    .error ("node " ++ n.id.quote ++ " was never bound to a target: " ++
      ", ".intercalate (env.unboundTarget n))
  else
    match n.type with
    | .agent =>
      let c := n.agentConfig.getD {}
      .ok (.agent, c.agentName, c.goal)
    | .tool => do return (.tool, n.toolConfig.toolName, ← env.toolInputJSON n.toolConfig.input)
    | .plugin =>
      do return (.plugin, n.pluginConfig.pluginName, ← pluginInputJSON env n.pluginConfig)
    | .job =>
      if n.jobConfig.bankRef = "" then .error ("job node " ++ n.id ++ " names no bank")
      else if n.jobConfig.goal = "" then .error ("job node " ++ n.id ++ " has no goal")
      else
        match env.marshalJob n.jobConfig with
        | .error err => .error ("marshal job node config: " ++ err)
        | .ok input => .ok (.job, n.jobConfig.bankRef, input)
    | .condition => .ok (.condition, "", env.marshalCondition n.conditionSpec)
    | t => .error ("unsupported node type " ++ t.name)

/-- A cap on running nodes. -/
structure ConcurrencyGroup where
  id : String := ""
  limit : Int := 0

def concurrencyGroups (o : MapOrder) (x : Expansion) : StringMap ConcurrencyGroup :=
  let groups := (o.range 7 x.all).foldl
    (fun groups (id, n) =>
      if n.type ≠ .parallel ∨ n.parallelLimit ≤ 0 then groups
      else n.subNodes.foldl
        (fun (groups : StringMap ConcurrencyGroup) sub =>
          groups.insert sub.id { id, limit := n.parallelLimit }) groups) ∅
  (o.range 8 x.instances).foldl
    (fun groups (id, insts) =>
      let limit := (x.all.lookup id).elim 0 MissionNode.forEachLimit
      if limit ≤ 0 then groups
      else insts.foldl
        (fun (groups : StringMap ConcurrencyGroup) inst => groups.insert inst { id, limit }) groups)
    groups

def nodeTimeout (n : MissionNode) : Int :=
  match n.timeout with
  | none => 0
  | some d => if 0 < d then d else 0

def isCollapsed (t : NodeType) : Bool := t == .parallel || t == .forEach

def dependsOn (x : Expansion) (deps : NodeDeps) (id : String) : List String :=
  sortBy (fun id : String => id)
    (((deps.of id).flatMap (resolve x.all)).filter (· != id)).dedup

def isInstance (x : Expansion) (id : String) : Bool :=
  x.instances.entries.any fun e => e.2.contains id

def workNode (env : ProjectionEnv) (x : Expansion) (deps : NodeDeps)
    (groups : StringMap ConcurrencyGroup) : String × MissionNode → Except String WorkNode
  | (id, n) =>
    let kind := if n.type = .join then joinKindInput env x.all n else nodeKindTargetInput env n
    match kind with
    | .error err => .error ("node " ++ id.quote ++ ": " ++ err)
    | .ok (kind, target, input) =>
      let group := (groups.lookup id).getD {}
      .ok { id, kind, target, input, dependsOn := dependsOn x deps id, maxRetries := n.maxRetries,
            timeout := nodeTimeout n, dependentsRunOnFailure := isInstance x id,
            group := group.id, limit := group.limit }

def buildWorkNodes (env : ProjectionEnv) (o : MapOrder) (x : Expansion) (deps : NodeDeps) :
    Except String (List WorkNode) := do
  let work := (o.range 6 x.all).filter fun e => !isCollapsed e.2.type
  let nodes ← work.mapM (workNode env x deps (concurrencyGroups o x))
  return sortBy WorkNode.id nodes

def targetURL (t : Target) : String := if t.url ≠ "" then t.url else t.connectionURL.getD ""

/-- The addresses of the targets bound to a node: its own for an instance, the primary otherwise. -/
def boundTargets (id : String) (targets : List ForEachTarget) (origins : StringMap FanOutOrigin) :
    List String :=
  match targets with
  | [] => []
  | primary :: _ =>
    let own := (origins.lookup id).bind fun origin => targets.find? (·.id == origin.targetID)
    match (own.getD primary).target with
    | none => []
    | some t => if targetURL t ≠ "" then [targetURL t] else []

def nodeSlotPins (n : MissionNode) : Option (StringMap Brain.SlotConfig) :=
  let slots := ((n.agentConfig.getD {}).llmSlots).filter fun s => s.slot != "" && s.provider != ""
  if slots.isEmpty then none
  else some (slots.foldl
    (fun pins s => pins.insert s.slot
      { provider := s.provider, model := s.model, temperature := ⟨0⟩, maxTokens := 0 }) ∅)

def finishNode (d : MissionDefinition) (x : Expansion) (targets : List ForEachTarget)
    (wn : WorkNode) : WorkNode :=
  match x.all.lookup wn.id with
  | none => wn
  | some n =>
    { wn with
      network := some { research := n.research, targets := boundTargets wn.id targets x.origins,
                        providerHosts := [] }
      slotPins := nodeSlotPins n
      startsFrom := n.startsFrom
      forkable := x.all.entries.any fun e => e.2.startsFrom != "" && e.2.startsFrom == wn.id
      checkpoint := d.checkpoints == .sandbox && wn.kind == .agent }

def budgetFromConstraints (c : Option MissionConstraints) : Brain.Budget :=
  match c with
  | none => {}
  | some c => { maxTokens := c.maxTokens }

/-- The flat node set with its instances, or the reason why the run is refused. -/
def expandDefinition (env : ProjectionEnv) (o : MapOrder) (d : MissionDefinition)
    (targets : List ForEachTarget) : Except String Expansion :=
  match targets.find? (·.target.isNone) with
  | some t => .error ("mission " ++ d.id.quote ++ ": target " ++ t.id.quote ++ " did not resolve")
  | none =>
    match flattenParallel o d with
    | .error err => .error err
    | .ok flat =>
      match refuseUnsupportedFanOut flat with
      | some err => .error ("mission " ++ d.id.quote ++ ": " ++ err.error)
      | none =>
        match expandForEachNodes env targets flat with
        | .error err => .error err
        | .ok x =>
          if 1 < targets.length ∧ x.instances.entries = [] then
            .error ("mission " ++ d.id.quote ++ " resolved " ++ toString targets.length ++
              " targets but declares no for_each, so it would assess only the first and report " ++
              "as though it covered all of them; fan out with a for_each node, or run it " ++
              "against one target")
          else .ok x

/-- The launch event of a definition, and where its fan-out instances came from. -/
def missionDefinitionToProjected (env : ProjectionEnv) (o : MapOrder)
    (d : Option MissionDefinition) (goal : String) (targets : List ForEachTarget) :
    Except String (Brain.MissionProjected × StringMap FanOutOrigin) :=
  match d with
  | none => .error "nil mission definition"
  | some d => do
    let x ← expandDefinition env o d targets
    let nodes ← buildWorkNodes env o x (rawDeps o d x)
    return ({ id := d.id, goal, budget := budgetFromConstraints d.constraints,
              nodes := nodes.map (finishNode d x targets), deciderSlot := d.deciderSlot.getD {} },
            x.origins)

end Gibson.Mission
