import Mathlib.Data.Prod.Lex
import Gibson.Lib.Dfs
import Gibson.Lib.Rows
import Gibson.Mission.Definition

/-! The structural analysis of a mission definition, which runs before a definition is stored. -/

namespace Gibson.Mission

open Brain (StringMap)
open Rows

inductive EdgeRole where
  | default
  | conditionTrue
  | conditionFalse
  deriving DecidableEq

def EdgeRole.text : EdgeRole → String
  | .default => ""
  | .conditionTrue => "true"
  | .conditionFalse => "false"

/-- An edge of the checked graph. -/
structure GraphEdge where
  (fromID toID : String)
  condition : String := ""
  role : EdgeRole := .default

inductive EdgeSource where
  | edge
  | parallel
  | conditionTrue
  | conditionFalse
  | joinWaitFor
  deriving DecidableEq

def EdgeSource.text : EdgeSource → String
  | .edge => "edge"
  | .parallel => "parallel"
  | .conditionTrue => "condition.true"
  | .conditionFalse => "condition.false"
  | .joinWaitFor => "join.wait_for"

/-- An edge with a missing end. -/
structure DanglingEdge where
  (fromID toID missing : String)
  source : EdgeSource
  deriving DecidableEq

inductive StartsFromReason where
  | itself
  | missing
  | notBefore
  | notAgent
  | otherAgent
  deriving DecidableEq

def StartsFromReason.text : StartsFromReason → String
  | .itself => "is the node itself"
  | .missing => "does not exist"
  | .notBefore => "does not run before it"
  | .notAgent => "is not an agent node"
  | .otherAgent => "runs another agent"

/-- A refused `starts_from`. -/
structure StartsFromRefusal where
  (node startsFrom : String)
  reason : StartsFromReason
  deriving DecidableEq

/-- All that is wrong at once. -/
structure ValidationError where
  empty : Bool := false
  danglingEdges : List DanglingEdge := []
  orphanNodes : List String := []
  cycles : List (List String) := []
  nestedForEach : List String := []
  startsFrom : List StartsFromRefusal := []
  deriving DecidableEq

def DanglingEdge.text (e : DanglingEdge) : String :=
  "dangling edge " ++ e.fromID ++ "->" ++ e.toID ++ " (missing node " ++ e.missing.quote ++
    ", from " ++ e.source.text ++ ")"

def StartsFromRefusal.text (r : StartsFromRefusal) : String :=
  "node " ++ r.node.quote ++ " starts_from " ++ r.startsFrom.quote ++ ", which " ++ r.reason.text

def ValidationError.error (e : ValidationError) : String :=
  if e.empty then "mission graph: nil definition"
  else
    "mission graph: " ++ "; ".intercalate
      (e.danglingEdges.map DanglingEdge.text ++
        (if e.orphanNodes.isEmpty then []
          else ["orphan nodes: " ++ ", ".intercalate e.orphanNodes]) ++
        (e.cycles.map fun c => "cycle: " ++ "->".intercalate c) ++
        (if e.nestedForEach.isEmpty then []
          else ["for_each nodes whose template is itself a for_each: " ++
            ", ".intercalate e.nestedForEach]) ++
        e.startsFrom.map StartsFromRefusal.text)

def sortedNodeKeys (nodes : StringMap MissionNode) : List String :=
  sortBy (fun id : String => id) nodes.keys

/-- The nodes, and the edges they imply. -/
structure Collected where
  nodes : StringMap MissionNode := ∅
  synth : List GraphEdge := []

mutual

def collectNode (id : String) : MissionNode → Collected → Collected
  | .mk nodeID type config dependencies maxRetries timeout research startsFrom, acc =>
    if id = "" then acc
    else
      collectConfig id config
        { acc with
          nodes := acc.nodes.insert id
            (.mk nodeID type config dependencies maxRetries timeout research startsFrom) }

def collectConfig (id : String) : NodeConfig MissionNode → Collected → Collected
  | .parallel subNodes _, acc => collectSubNodes id subNodes acc
  | .forEach template _, acc => collectTemplate id template acc
  | _, acc => acc

def collectSubNodes (id : String) : List MissionNode → Collected → Collected
  | [], acc => acc
  | child :: rest, acc =>
    if child.id = "" then collectSubNodes id rest acc
    else
      collectSubNodes id rest
        (collectNode child.id child
          { acc with synth := acc.synth ++ [{ fromID := id, toID := child.id }] })

def collectTemplate (id : String) : Option MissionNode → Collected → Collected
  | none, acc => acc
  | some tpl, acc =>
    if tpl.id = "" then acc
    else
      collectNode tpl.id tpl
        { acc with synth := acc.synth ++ [{ fromID := id, toID := tpl.id }] }

end

def collect (d : MissionDefinition) : Collected :=
  (sortedNodeKeys d.nodes).foldl
    (fun acc id => (d.nodes.lookup id).elim acc fun n => collectNode id n acc) {}

def findNestedForEach (nodes : StringMap MissionNode) : List String :=
  sortBy (fun id : String => id)
    ((nodes.entries.filter fun e => e.2.template.any MissionNode.isForEach).map Sigma.fst)

def refuseUnsupportedFanOut (nodes : StringMap MissionNode) : Option ValidationError :=
  let nested := findNestedForEach nodes
  if nested.isEmpty then none else some { nestedForEach := nested }

def GraphEdge.sameEnds (e e' : GraphEdge) : Bool := e.fromID == e'.fromID && e.toID == e'.toID

/-- The edges, and the dangling ones. -/
structure EdgeSet where
  out : List GraphEdge := []
  dangling : List DanglingEdge := []

def EdgeSet.add (nodes : StringMap MissionNode) (s : EdgeSet) (e : GraphEdge) (src : EdgeSource) :
    EdgeSet :=
  if s.out.any e.sameEnds then s
  else if (nodes.lookup e.fromID).isNone then
    { s with dangling := s.dangling ++
        [{ fromID := e.fromID, toID := e.toID, missing := e.fromID, source := src }] }
  else if (nodes.lookup e.toID).isNone then
    { s with dangling := s.dangling ++
        [{ fromID := e.fromID, toID := e.toID, missing := e.toID, source := src }] }
  else { s with out := s.out ++ [e] }

def EdgeSet.tagRole (s : EdgeSet) (e : GraphEdge) : EdgeSet :=
  if e.role = .default then s
  else
    { s with
      out := updateFirst e.sameEnds
        (fun e' => if e'.role = .default then { e' with role := e.role } else e') s.out }

def EdgeSet.request (nodes : StringMap MissionNode) (s : EdgeSet) (r : GraphEdge × EdgeSource) :
    EdgeSet :=
  (s.add nodes r.1 r.2).tagRole r.1

def branchRequests (id : String) (n : MissionNode) : List (GraphEdge × EdgeSource) :=
  ((n.branch true).map fun t =>
      ({ fromID := id, toID := t, role := .conditionTrue }, .conditionTrue)) ++
    (n.branch false).map fun f =>
      ({ fromID := id, toID := f, role := .conditionFalse }, .conditionFalse)

def joinRequests (id : String) (n : MissionNode) : List (GraphEdge × EdgeSource) :=
  n.waitFor.map fun up => ({ fromID := up, toID := id }, .joinWaitFor)

def edgeRequests (d : MissionDefinition) (c : Collected) : List (GraphEdge × EdgeSource) :=
  (d.edges.map fun e =>
      ({ fromID := e.fromID, toID := e.toID, condition := e.condition }, .edge)) ++
    (c.synth.map fun e => (e, .parallel)) ++
    ((sortedNodeKeys c.nodes).flatMap fun id =>
      (c.nodes.lookup id).elim [] (branchRequests id)) ++
    ((sortedNodeKeys c.nodes).flatMap fun id => (c.nodes.lookup id).elim [] (joinRequests id))

def GraphEdge.key (e : GraphEdge) : String ×ₗ (String ×ₗ String) :=
  toLex (e.fromID, toLex (e.toID, e.role.text))

def buildEdges (d : MissionDefinition) (c : Collected) : EdgeSet :=
  let s := (edgeRequests d c).foldl (EdgeSet.request c.nodes) {}
  { s with out := sortBy GraphEdge.key s.out }

def adjacency (edges : List GraphEdge) (id : String) : List String :=
  sortBy (fun id : String => id) ((edges.filter (·.fromID == id)).map GraphEdge.toID)

def inDegree (edges : List GraphEdge) (id : String) : Nat := edges.countP (·.toID == id)

def outDegree (edges : List GraphEdge) (id : String) : Nat := edges.countP (·.fromID == id)

def dedupe : List String → List String
  | a :: b :: rest => if a = b then dedupe (b :: rest) else a :: dedupe (b :: rest)
  | short => short

def deriveEndpoints (declared : List String) (nodes : StringMap MissionNode)
    (degree : String → Nat) : List String :=
  dedupe (sortBy (fun id : String => id)
    (if declared.isEmpty then nodes.keys.filter fun id => degree id == 0
      else declared.filter fun id => (nodes.lookup id).isSome))

def canonicalCycle (path : List String) : List String :=
  let start := path.idxOf (path.foldl min (path.headD ""))
  path.drop start ++ path.take start

def cycleKey (cycle : List String) : String := "\x00".intercalate cycle

def reportCycle (found : List String × List (List String)) (path : List String) :
    List String × List (List String) :=
  let cycle := canonicalCycle path
  if cycleKey cycle ∈ found.1 then found
  else (cycleKey cycle :: found.1, found.2 ++ [cycle])

def findCycles (nodes : StringMap MissionNode) (edges : List GraphEdge) : List (List String) :=
  let search := Dfs.search (adjacency edges) nodes.keys.length (sortedNodeKeys nodes)
  sortBy cycleKey (search.back.foldl reportCycle ([], [])).2

def reachFrom (adj : String → List String) : Nat → List String → String → List String
  | 0, reach, _ => reach
  | fuel + 1, reach, u =>
    if u ∈ reach then reach else (adj u).foldl (reachFrom adj fuel) (u :: reach)

def findOrphans (nodes : StringMap MissionNode) (edges : List GraphEdge) (entry : List String) :
    List String :=
  let reach := entry.foldl (reachFrom (adjacency edges) (nodes.keys.length + 1)) []
  sortBy (fun id : String => id) (nodes.keys.filter fun id => !reach.contains id)

/-- A directed path from one node to another. -/
def reaches (edges : List GraphEdge) (src dst : String) : Bool :=
  Dfs.reaches (adjacency edges) (edges.length + 2) src dst

def startsFromReason (nodes : StringMap MissionNode) (edges : List GraphEdge) (hasCycle : Bool)
    (id : String) (n : MissionNode) : Option StartsFromReason :=
  if n.startsFrom = "" then none
  else if n.startsFrom = id then some .itself
  else
    match nodes.lookup n.startsFrom with
    | none => some .missing
    | some earlier =>
      if !hasCycle && !reaches edges n.startsFrom id then some .notBefore
      else
        match earlier.agentConfig, n.agentConfig with
        | some a, some b => if a.agentName ≠ b.agentName then some .otherAgent else none
        | _, _ => some .notAgent

def findStartsFromRefusals (nodes : StringMap MissionNode) (edges : List GraphEdge)
    (cycles : List (List String)) : List StartsFromRefusal :=
  (sortedNodeKeys nodes).filterMap fun id =>
    (nodes.lookup id).bind fun n =>
      (startsFromReason nodes edges (!cycles.isEmpty) id n).map fun reason =>
        { node := id, startsFrom := n.startsFrom, reason }

/-- The graph that is checked. -/
structure Analysis where
  nodes : StringMap MissionNode
  edges : List GraphEdge
  (entry exit : List String)

def analyse (d : Option MissionDefinition) : Except ValidationError Analysis :=
  match d with
  | none => .error { empty := true }
  | some d =>
    let c := collect d
    let s := buildEdges d c
    let entry := deriveEndpoints d.entryPoints c.nodes (inDegree s.out)
    let exit := deriveEndpoints d.exitPoints c.nodes (outDegree s.out)
    let cycles := findCycles c.nodes s.out
    let err : ValidationError :=
      { danglingEdges := s.dangling
        orphanNodes := findOrphans c.nodes s.out entry
        cycles
        nestedForEach := findNestedForEach c.nodes
        startsFrom := findStartsFromRefusals c.nodes s.out cycles }
    if err ≠ {} then .error err else .ok { nodes := c.nodes, edges := s.out, entry, exit }

/-- The problems of a definition, `none` where it is sound. -/
def validate (d : Option MissionDefinition) : Option ValidationError :=
  match analyse d with
  | .error err => some err
  | .ok _ => none

end Gibson.Mission
