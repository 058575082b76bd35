import Gibson.Lib.Loops
import Gibson.Mission.Graph

/-! What a definition without structural problems is. -/

namespace Gibson.Mission

open Brain (StringMap)
open List Rows Loops EdgeSet NodeConfig AList Option

def HasEdge (edges : List GraphEdge) (a b : String) : Prop :=
  ∃ e ∈ edges, e.fromID = a ∧ e.toID = b

def IsNode (nodes : StringMap MissionNode) (id : String) : Prop := (nodes.lookup id).isSome = true

/-- Both ends of every edge are nodes. -/
def Closed (nodes : StringMap MissionNode) (edges : List GraphEdge) : Prop :=
  ∀ a b, HasEdge edges a b → IsNode nodes a ∧ IsNode nodes b

lemma isNode_of_lookup {nodes id n} (hf : nodes.lookup id = some n) : IsNode nodes id := by
  simp [IsNode, hf]

lemma mem_sortedNodeKeys {nodes id} : id ∈ sortedNodeKeys nodes ↔ IsNode nodes id :=
  mem_sortBy.trans (mem_keys.symm.trans lookup_isSome.symm)

lemma hasEdge_tagRole (s : EdgeSet) (e a b) :
    HasEdge (s.tagRole e).out a b ↔ HasEdge s.out a b := by
  unfold tagRole
  split
  · exact Iff.rfl
  have ends := map_updateFirst (fun e : GraphEdge => (e.fromID, e.toID)) s.out (p := e.sameEnds)
    (f := fun e' => if e'.role = .default then { e' with role := e.role } else e')
    (by intro e' _; split <;> rfl)
  have iff : ∀ edg : List GraphEdge, HasEdge edg a b ↔
      (a, b) ∈ edg.map fun e => (e.fromID, e.toID) := by
    intro edg
    simp [HasEdge]
  rw [iff, iff, ends]

lemma add_cases (ns : StringMap MissionNode) (s : EdgeSet) (e src) :
    (s.add ns e src = s ∧ HasEdge s.out e.fromID e.toID) ∨ (s.add ns e src).dangling ≠ [] ∨
      (s.add ns e src = { s with out := s.out ++ [e] } ∧ IsNode ns e.fromID ∧
        IsNode ns e.toID) := by
  unfold add
  split
  · next hk =>
    obtain ⟨e', mem, hs⟩ := any_eq_true.mp hk
    rw [GraphEdge.sameEnds, Bool.and_eq_true, beq_iff_eq, beq_iff_eq] at hs
    exact .inl ⟨rfl, e', mem, hs.1.symm, hs.2.symm⟩
  · split
    · exact .inr (.inl (by simp))
    · next fro =>
      split
      · exact .inr (.inl (by simp))
      next toN =>
      refine .inr (.inr ⟨rfl, ?_, ?_⟩)
      · simpa [IsNode, isSome_iff_ne_none] using fro
      · simpa [IsNode, isSome_iff_ne_none] using toN

lemma request_spec {s : EdgeSet} (hq : (s.request ns r).dangling = []) :
    s.dangling = [] ∧ HasEdge (s.request ns r).out r.1.fromID r.1.toID ∧
      (∀ a b, HasEdge s.out a b → HasEdge (s.request ns r).out a b) ∧
      (Closed ns s.out → Closed ns (s.request ns r).out) := by
  replace hq : (s.add ns r.1 r.2).dangling = [] := by
    unfold request tagRole at hq
    split at hq <;> exact hq
  have hb : s.dangling = [] := by
    rw [← prefix_nil, ← hq]
    unfold add
    repeat' split
    all_goals first | exact prefix_rfl | exact prefix_append _ _
  unfold request Closed
  simp only [hasEdge_tagRole]
  rcases add_cases ns s r.1 r.2 with ⟨hs, hk⟩ | dangles | ⟨new, fro, toN⟩
  · rw [hs]
    exact ⟨hb, hk, fun _ _ h => h, fun h => h⟩
  · exact absurd hq dangles
  rw [new]
  have ends : ∀ a b, HasEdge (s.out ++ [r.1]) a b ↔
      HasEdge s.out a b ∨ (r.1.fromID = a ∧ r.1.toID = b) := by
    intro a b
    simp [HasEdge, or_and_right, exists_or]
  refine ⟨hb, (ends _ _).mpr (.inr ⟨rfl, rfl⟩), fun a b h => (ends a b).mpr (.inl h), ?_⟩
  intro hcl a b h
  rcases (ends a b).mp h with old | ⟨rfl, rfl⟩
  · exact hcl a b old
  · exact ⟨fro, toN⟩

lemma foldl_request_spec {rs : List (GraphEdge × EdgeSource)}
    (hq : (rs.foldl (request nodes) s).dangling = []) :
    s.dangling = [] ∧ (∀ r ∈ rs, HasEdge (rs.foldl (request nodes) s).out r.1.fromID r.1.toID) ∧
      (∀ a b, HasEdge s.out a b → HasEdge (rs.foldl (request nodes) s).out a b) ∧
      (Closed nodes s.out → Closed nodes (rs.foldl (request nodes) s).out) := by
  induction rs generalizing s with
  | nil => exact ⟨hq, by simp, fun _ _ h => h, fun h => h⟩
  | cons r rs ih =>
    obtain ⟨ste, hla, hkp, hcl⟩ := ih hq
    obtain ⟨hb, edge, kp, hsy⟩ := request_spec ste
    exact ⟨hb, forall_mem_cons.mpr ⟨hkp _ _ edge, hla⟩, fun a b h => hkp a b (kp a b h),
      fun h => hcl (hsy h)⟩

lemma hasEdge_sorted (edges a b) :
    HasEdge (sortBy GraphEdge.key edges) a b ↔ HasEdge edges a b := by
  simp [HasEdge]

lemma buildEdges_spec {d : MissionDefinition} (hq : (buildEdges d c).dangling = []) :
    (∀ r ∈ edgeRequests d c, HasEdge (buildEdges d c).out r.1.fromID r.1.toID) ∧
      Closed c.nodes (buildEdges d c).out := by
  have hfo := hq
  have spec := foldl_request_spec hfo
  constructor
  · intro r mem
    exact (hasEdge_sorted _ _ _).mpr (spec.2.1 r mem)
  · intro a b h
    exact spec.2.2.2 (by simp [Closed, HasEdge]) a b ((hasEdge_sorted _ _ _).mp h)

section Requests
variable {id : String}

lemma mem_edgeRequests_branch (hf : c.nodes.lookup id = some n)
    (mem : r ∈ branchRequests id n) : r ∈ edgeRequests d c := by
  refine mem_append_left _ (mem_append_right _ (mem_flatMap.mpr ⟨id, ?_, ?_⟩))
  · exact mem_sortedNodeKeys.mpr (isNode_of_lookup hf)
  · rwa [hf]

lemma mem_edgeRequests_join (hf : c.nodes.lookup id = some n)
    (mem : r ∈ joinRequests id n) : r ∈ edgeRequests d c := by
  refine mem_append_right _ (mem_flatMap.mpr ⟨id, ?_, ?_⟩)
  · exact mem_sortedNodeKeys.mpr (isNode_of_lookup hf)
  · rwa [hf]

end Requests

lemma edge_adjacency (edges) : Dfs.Edge (adjacency edges) = HasEdge edges := by
  funext a b
  simp [Dfs.Edge, adjacency, HasEdge, and_assoc]

lemma foldl_reportCycle_grows (pat : List (List String))
    (hf : List String × List (List String)) : hf.2 <+: (pat.foldl reportCycle hf).2 := by
  induction pat generalizing hf with
  | nil => exact prefix_rfl
  | cons pth pat ih =>
    refine .trans ?_ (ih (reportCycle hf pth))
    simp only [reportCycle]
    split
    · exact prefix_rfl
    · exact prefix_append _ _

lemma no_paths_of_no_cycles (h : (pat.foldl reportCycle ([], [])).2 = []) : pat = [] := by
  cases pat with
  | nil => rfl
  | cons pth pat =>
    have hg := foldl_reportCycle_grows pat (reportCycle ([], []) pth)
    rw [foldl_cons] at h
    rw [h] at hg
    simp [reportCycle] at hg

lemma acyclic_of_findCycles (hcl : Closed nodes edges) (h : findCycles nodes edges = [])
    (a) : ¬ Relation.TransGen (HasEdge edges) a a := by
  intro cyc
  have hq :
      (Dfs.search (adjacency edges) nodes.keys.length (sortedNodeKeys nodes)).back = [] := by
    refine no_paths_of_no_cycles ?_
    have perm := sortBy_perm cycleKey
      ((Dfs.search (adjacency edges) nodes.keys.length (sortedNodeKeys nodes)).back.foldl
        reportCycle ([], [])).2
    unfold findCycles at h
    rw [h] at perm
    exact perm.symm.eq_nil
  have tgs : ∀ u, ∀ v ∈ adjacency edges u, v ∈ sortedNodeKeys nodes := by
    intro u v nx
    have edge : HasEdge edges u v := by rw [← edge_adjacency]; exact nx
    exact mem_sortedNodeKeys.mpr (hcl u v edge).2
  have heno :=
    (sortBy_perm (fun id : String => id) nodes.keys).length_eq.le
  obtain ⟨b, h1, -⟩ := Relation.TransGen.head'_iff.mp cyc
  have root := mem_sortedNodeKeys.mpr (hcl a b h1).1
  rw [← edge_adjacency] at cyc
  exact Dfs.acyclic_of_search_quiet tgs heno hq root cyc

def NodeConfig.children : NodeConfig MissionNode → List MissionNode
  | .parallel subNodes _ => subNodes
  | .forEach template _ => template.toList
  | _ => []

def MissionNode.children (n : MissionNode) : List MissionNode := n.config.children

inductive Declares (d : MissionDefinition) : String → MissionNode → Prop
  | top {id : String} {n : MissionNode} : d.nodes.lookup id = some n → Declares d id n
  | child {id : String} {n m : MissionNode} : Declares d id n → m ∈ n.children →
      Declares d m.id m

/-- What the walk over declared nodes keeps: it enters nodes of `R` and links them to their
children. -/
structure WalkKeeps (R : String → MissionNode → Prop) (P : Collected → Prop) : Prop where
  child : ∀ id n m, R id n → m ∈ n.children → R m.id m
  enter : ∀ acc id n, R id n → id ≠ "" → P acc → P { acc with nodes := acc.nodes.insert id n }
  link : ∀ acc id n m, R id n → m ∈ n.children → id ≠ "" → m.id ≠ "" → P acc →
    P { acc with synth := acc.synth ++ [{ fromID := id, toID := m.id }] }

section Walk
variable {id : String}

-- The induction is over the nodes inside a node, one theorem for each function of the walk.
mutual

lemma WalkKeeps.node (h : WalkKeeps R P) {id} :
    ∀ (n : MissionNode) {acc : Collected}, R id n → P acc → P (collectNode id n acc)
  | .mk nod type cf dep max tim res sta, acc, hk, s0 =>
    by
      rw [collectNode]
      split
      · exact s0
      · next hn =>
        exact h.config hn cf hk (fun m mem => mem) (h.enter _ _ _ hk hn s0)

lemma WalkKeeps.config (h : WalkKeeps R P) {id : String} (hn : id ≠ "") {n : MissionNode} :
    ∀ (cf : NodeConfig MissionNode) {acc : Collected}, R id n →
      (∀ m ∈ cf.children, m ∈ n.children) → P acc → P (collectConfig id cf acc)
  | .parallel subs _, _, hk, hi, s0 => h.subNodes hn subs hk hi s0
  | .forEach tpl _, _, hk, hi, s0 =>
    h.template hn tpl hk (fun m mem => hi m (mem_toList.mpr mem)) s0
  | .unset, _, _, _, s0 => s0
  | .agent _, _, _, _, s0 => s0
  | .tool _, _, _, _, s0 => s0
  | .plugin _, _, _, _, s0 => s0
  | .condition _, _, _, _, s0 => s0
  | .join _, _, _, _, s0 => s0
  | .job _, _, _, _, s0 => s0

lemma WalkKeeps.subNodes (h : WalkKeeps R P) {id : String} (hn : id ≠ "") {n : MissionNode} :
    ∀ (subs : List MissionNode) {acc : Collected}, R id n → (∀ m ∈ subs, m ∈ n.children) → P acc →
      P (collectSubNodes id subs acc)
  | [], _, _, _, s0 => s0
  | child :: rs, _, hk, hi, s0 => by
    have hla := fun m mem => hi m (mem_cons_of_mem _ mem)
    have mem := hi child mem_cons_self
    rw [collectSubNodes]
    split
    · exact h.subNodes hn rs hk hla s0
    · next chi =>
      exact h.subNodes hn rs hk hla
        (h.node child (h.child _ _ _ hk mem) (h.link _ _ _ _ hk mem hn chi s0))

lemma WalkKeeps.template (h : WalkKeeps R P) {id} (hn : id ≠ "") :
    ∀ (tpl : Option MissionNode) {acc : Collected}, R id n → (∀ m ∈ tpl, m ∈ n.children) → P acc →
      P (collectTemplate id tpl acc)
  | none, _, _, _, s0 => s0
  | some tpl, _, hk, hi, s0 => by
    have mem := hi tpl rfl
    rw [collectTemplate]
    split
    · exact s0
    · next chi =>
      exact h.node tpl (h.child _ _ _ hk mem) (h.link _ _ _ _ hk mem hn chi s0)
end

lemma WalkKeeps.collect (h : WalkKeeps R P)
    (top : ∀ id n, d.nodes.lookup id = some n → R id n) (s0 : P {}) : P (collect d) := by
  refine List.foldlRecOn _ _ s0 fun acc hk id _ => ?_
  cases hf : d.nodes.lookup id with
  | none => exact hk
  | some n => exact h.node n (top id n hf) hk

end Walk

lemma collect_declares {id n} (hf : (collect d).nodes.lookup id = some n) : Declares d id n := by
  have hkp : WalkKeeps (Declares d)
      fun acc => ∀ id n, acc.nodes.lookup id = some n → Declares d id n := by
    refine ⟨fun _ _ _ => Declares.child, ?_, fun _ _ _ _ _ _ _ _ hk => hk⟩
    intro acc id n hdc _ hk id' n' hf
    by_cases hs : id' = id
    · subst hs
      rw [lookup_insert] at hf
      exact some.inj hf ▸ hdc
    · rw [lookup_insert_ne hs] at hf
      exact hk id' n' hf
  exact hkp.collect (fun _ _ => Declares.top) (by simp) id n hf

/-- The collection only grows. -/
structure Extends (acc acc' : Collected) : Prop where
  nodes : ∀ id, IsNode acc.nodes id → IsNode acc'.nodes id
  synth : ∀ e ∈ acc.synth, e ∈ acc'.synth

lemma isNode_insert {nodes id id'} (n) :
    IsNode (nodes.insert id n) id' ↔ id' = id ∨ IsNode nodes id' := by
  unfold IsNode
  by_cases hs : id' = id
  · subst hs
    simp [lookup_insert]
  · simp [lookup_insert_ne hs, hs]

lemma extends_keeps (acc) : WalkKeeps (fun _ _ => True) (Extends acc) := by
  refine ⟨fun _ _ _ _ _ => trivial, ?_, ?_⟩
  · intro acc' id n _ _ hk
    exact ⟨fun id' node => (isNode_insert n).mpr (.inr (hk.nodes id' node)), hk.synth⟩
  · intro acc' id n m _ _ _ _ hk
    exact ⟨hk.nodes, fun e mem => mem_append_left _ (hk.synth e mem)⟩

lemma Extends.refl (acc) : Extends acc acc := ⟨fun _ h => h, fun _ h => h⟩

lemma extends_collectNode (id n acc) : Extends acc (collectNode id n acc) :=
  (extends_keeps acc).node n trivial (.refl acc)

lemma extends_collectSubNodes {id} (hn : id ≠ "") (subs acc) :
    Extends acc (collectSubNodes id subs acc) := by
  let con : MissionNode := { id, type := .parallel, config := .parallel subs 0 }
  have hi : ∀ m ∈ subs, m ∈ con.children := fun _ mem => mem
  exact (extends_keeps acc).subNodes hn subs trivial hi (.refl acc)

lemma collectNode_of_named {id} (hn : id ≠ "") (n acc) :
    collectNode id n acc =
      collectConfig id n.config { acc with nodes := acc.nodes.insert id n } := by
  cases n
  rw [collectNode, if_neg hn]

lemma isNode_collectNode {id} (hn : id ≠ "") (n acc) :
    IsNode (collectNode id n acc).nodes id := by
  have hen : IsNode (acc.nodes.insert id n) id := (isNode_insert n).mpr (.inl rfl)
  have hi : ∀ m ∈ n.config.children, m ∈ n.children := fun _ mem => mem
  rw [collectNode_of_named hn]
  exact ((extends_keeps _).config hn n.config trivial hi (.refl _)).nodes id hen

/-- A member and its edge. -/
structure Linked (id : String) (m : MissionNode) (acc : Collected) : Prop where
  child : IsNode acc.nodes m.id
  edge : { fromID := id, toID := m.id } ∈ acc.synth

lemma Linked.extends {id m acc acc'}
    (h : Linked id m acc) (more : Extends acc acc') : Linked id m acc' :=
  ⟨more.nodes _ h.child, more.synth _ h.edge⟩

lemma linked_collectNode (hn : m.id ≠ "") (id) (acc : Collected) :
    Linked id m (collectNode m.id m
      { acc with synth := acc.synth ++ [{ fromID := id, toID := m.id }] }) :=
  ⟨isNode_collectNode hn m _,
    (extends_collectNode m.id m _).synth _ (mem_append_right _ (mem_singleton_self _))⟩

lemma linked_collectSubNodes {id} (hn : id ≠ "")
    (chi : m.id ≠ "") (mem : m ∈ subs) (acc) :
    Linked id m (collectSubNodes id subs acc) := by
  induction subs generalizing acc with
  | nil => simp at mem
  | cons child rs ih =>
    rw [collectSubNodes]
    rcases mem_cons.mp mem with rfl | mem
    · rw [if_neg chi]
      exact (linked_collectNode chi id acc).extends (extends_collectSubNodes hn rs _)
    split
    · exact ih mem acc
    · exact ih mem _

lemma collect_reaches {P : Collected → Prop} {id n}
    (hf : d.nodes.lookup id = some n) (bri : ∀ acc, P (collectNode id n acc))
    (hkp : ∀ acc acc', Extends acc acc' → P acc → P acc') : P (collect d) := by
  refine foldl_reaches P (mem_sortedNodeKeys.mpr (isNode_of_lookup hf)) ?_ ?_ _
  · intro acc
    rw [hf]
    exact bri acc
  · intro acc id' hk
    cases hf' : d.nodes.lookup id' with
    | none => exact hk
    | some n' => exact hkp acc _ (extends_collectNode id' n' acc) hk

lemma linked_collect {id n m} (hf : d.nodes.lookup id = some n)
    (hn : id ≠ "") (mem : m ∈ n.children) (chi : m.id ≠ "") : Linked id m (collect d) := by
  refine collect_reaches hf (fun acc => ?_) fun _ _ more hk => hk.extends more
  rw [collectNode_of_named hn]
  unfold MissionNode.children at mem
  cases cf : n.config with
  | parallel subs lim =>
    rw [cf] at mem
    exact linked_collectSubNodes hn chi mem _
  | forEach tpl lim =>
    rw [cf] at mem
    obtain rfl := mem_toList.mp mem
    rw [collectConfig, collectTemplate, if_neg chi]
    exact linked_collectNode chi id _
  | unset | agent | tool | plugin | condition | join | job => simp [cf, children] at mem

lemma validate_none (h : validate (some d) = none) :
    (buildEdges d (collect d)).dangling = [] ∧
      findCycles (collect d).nodes (buildEdges d (collect d)).out = [] := by
  simp only [validate, analyse] at h
  split at h
  · simp at h
  next hso =>
  split at hso
  · simp at hso
  · next none =>
    have hs := not_not.mp none
    exact ⟨congrArg ValidationError.danglingEdges hs, congrArg ValidationError.cycles hs⟩

end Gibson.Mission
