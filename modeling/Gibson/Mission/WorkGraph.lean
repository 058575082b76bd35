import Mathlib.Data.List.Dedup
import Gibson.Lib.Loops
import Gibson.Mission.Projection

/-! What a projection that succeeded consists of. -/

namespace Gibson.Mission

open Brain (StringMap WorkNode)
open List Rows Loops NodeDeps

lemma projected_stages
    (h : missionDefinitionToProjected env o (some d) goal targets = .ok (projected, origins)) :
    ∃ x ns, expandDefinition env o d targets = .ok x ∧
      buildWorkNodes env o x (rawDeps o d x) = .ok ns ∧
      projected.nodes = ns.map (finishNode d x targets) ∧
      projected.budget = budgetFromConstraints d.constraints := by
  obtain ⟨x, hxp, h⟩ := bind_ok_iff.mp h
  obtain ⟨ns, hbu, h⟩ := bind_ok_iff.mp h
  cases h
  exact ⟨x, ns, hxp, hbu, rfl, rfl⟩

lemma expandDefinition_ok (h : expandDefinition env o d targets = .ok x) :
    ∃ flat, flattenParallel o d = .ok flat ∧ expandForEachNodes env targets flat = .ok x := by
  unfold expandDefinition at h
  split at h
  · simp at h
  split at h
  · simp at h
  next flat hfla =>
  split at h
  · simp at h
  split at h
  · simp at h
  next x' hxp =>
  split at h
  · simp at h
  · cases h
    exact ⟨flat, hfla, hxp⟩

def NodeType.workKind : NodeType → Option Brain.WorkKind
  | .agent => some .agent
  | .tool => some .tool
  | .plugin => some .plugin
  | .job => some .job
  | .condition => some .condition
  | .join => some .join
  | .unspecified | .parallel | .forEach | .unknown _ => none

/-- The work node of a node. -/
structure Becomes (env : ProjectionEnv) (o : MapOrder) (d : MissionDefinition) (x : Expansion)
    (n : MissionNode) (wn : WorkNode) : Prop where
  kind : n.type.workKind = some wn.kind
  input : n.type = .condition → wn.input = env.marshalCondition n.conditionSpec
  dependsOn : wn.dependsOn = dependsOn x (rawDeps o d x) wn.id

section WorkNodes
variable {env : ProjectionEnv} {o : MapOrder} {d : MissionDefinition} {x : Expansion}

lemma nodeKindTargetInput_ok (h : nodeKindTargetInput env n = .ok (kind, target, input)) :
    n.type.workKind = some kind ∧
      (n.type = .condition → input = env.marshalCondition n.conditionSpec) := by
  unfold nodeKindTargetInput at h
  split at h
  · simp at h
  cases type : n.type with
  | agent =>
    simp only [type] at h
    cases h
    exact ⟨rfl, by simp⟩
  | tool | plugin =>
    simp only [type] at h
    obtain ⟨text, -, h⟩ := bind_ok_iff.mp h
    cases h
    exact ⟨rfl, by simp⟩
  | job =>
    simp only [type] at h
    split at h
    · simp at h
    split at h
    · simp at h
    split at h
    · simp at h
    · cases h
      exact ⟨rfl, by simp⟩
  | condition =>
    simp only [type] at h
    obtain ⟨rfl, rs⟩ := Prod.mk.inj (Except.ok.inj h)
    cases rs
    exact ⟨rfl, fun _ => rfl⟩
  | unspecified | parallel | forEach | join | unknown => simp [type] at h

lemma workNode_ok {groups id wn} (h : workNode env x (rawDeps o d x) groups (id, n) = .ok wn) :
    wn.id = id ∧ Becomes env o d x n wn := by
  simp only [workNode] at h
  split at h
  · simp at h
  next kd tg input hmd =>
  cases h
  refine ⟨rfl, ?_⟩
  split at hmd
  · next join =>
    simp only [joinKindInput] at hmd
    split at hmd
    · simp at hmd
    obtain ⟨rfl, -⟩ := Prod.mk.inj (Except.ok.inj hmd)
    exact ⟨by simp [join, NodeType.workKind], by simp [join], rfl⟩
  · obtain ⟨kd, input⟩ := nodeKindTargetInput_ok hmd
    exact ⟨kd, input, rfl⟩

lemma finishNode_keeps (targets wn) :
    (finishNode d x targets wn).id = wn.id ∧ (finishNode d x targets wn).kind = wn.kind ∧
      (finishNode d x targets wn).input = wn.input ∧
      (finishNode d x targets wn).dependsOn = wn.dependsOn := by
  unfold finishNode
  split <;> exact ⟨rfl, rfl, rfl, rfl⟩

lemma Becomes.finish (h : Becomes env o d x n wn) (tgs) :
    Becomes env o d x n (finishNode d x tgs wn) := by
  obtain ⟨id, kd, input, deps⟩ := finishNode_keeps (d := d) (x := x) tgs wn
  refine ⟨kd ▸ h.kind, fun cond => input.trans (h.input cond), ?_⟩
  rw [deps, id, h.dependsOn]

variable (env o d x) in
/-- The work nodes are exactly the nodes of the expanded set that are no containers. -/
structure Built
    (nodes : List WorkNode) : Prop where
  mem : ∀ wn ∈ nodes, ∃ n, x.all.lookup wn.id = some n ∧ isCollapsed n.type = false ∧
    Becomes env o d x n wn
  exist : ∀ id n, x.all.lookup id = some n → isCollapsed n.type = false →
    ∃ wn ∈ nodes, wn.id = id ∧ Becomes env o d x n wn

lemma built_of_ok (h : buildWorkNodes env o x (rawDeps o d x) = .ok nodes) (targets) :
    Built env o d x (nodes.map (finishNode d x targets)) := by
  obtain ⟨hmd, rns, h⟩ := bind_ok_iff.mp h
  cases h
  constructor
  · intro wn mem
    obtain ⟨h1, hbu, rfl⟩ := mem_map.mp mem
    obtain ⟨⟨id, n⟩, src, out⟩ := (mem_of_mapM_ok rns).1 h1 (mem_sortBy.mp hbu)
    obtain ⟨en, work⟩ := mem_filter.mp src
    obtain ⟨rfl, hbc⟩ := workNode_ok out
    rw [(finishNode_keeps targets h1).1]
    exact ⟨n, (o.mem_range 6).mp en, by simpa using work, hbc.finish targets⟩
  · intro id n hf work
    have src : (id, n) ∈ (o.range 6 x.all).filter fun e => !isCollapsed e.2.type :=
      mem_filter.mpr ⟨(o.mem_range 6).mpr hf, by simpa using work⟩
    obtain ⟨h1, mem, out⟩ := (mem_of_mapM_ok rns).2 _ src
    obtain ⟨rfl, hbc⟩ := workNode_ok out
    exact ⟨finishNode d x targets h1, mem_map_of_mem (mem_sortBy.mpr mem),
      (finishNode_keeps targets h1).1, hbc.finish targets⟩

lemma projected_built
    (h : missionDefinitionToProjected env o (some d) goal targets = .ok (projected, origins))
    (hxp : expandDefinition env o d targets = .ok x) : Built env o d x projected.nodes := by
  obtain ⟨x', ns, exp', hbu, hs, -⟩ := projected_stages h
  cases hxp.symm.trans exp'
  rw [hs]
  exact built_of_ok hbu targets

end WorkNodes

section Resolver
variable {all : StringMap MissionNode}
variable {id : String}

lemma members_of_work (work : isCollapsed n.type = false) : members id n all = none := by
  unfold members
  cases type : n.type <;> simp [type, isCollapsed] at work ⊢

/-- `u` is what `id` leads to through the members of containers. An unknown id leads to itself. -/
inductive Resolves (all : StringMap MissionNode) : String → String → Prop
  | unknown {id : String} : all.lookup id = none → Resolves all id id
  | work {id : String} {n : MissionNode} : all.lookup id = some n → members id n all = none →
      Resolves all id id
  | member {id m u : String} {n : MissionNode} {ids : List String} : all.lookup id = some n →
      members id n all = some ids → m ∈ ids → Resolves all m u → Resolves all id u

lemma mem_foldl_resolveIn {fuel u} (ids : List String) (st : List String × List String)
    (mem : u ∈ (ids.foldl (fun (out, hsn) m =>
      let (more, hsn) := resolveIn all fuel m hsn
      (out ++ more, hsn)) st).1) :
    u ∈ st.1 ∨ ∃ m ∈ ids, ∃ hsn, u ∈ (resolveIn all fuel m hsn).1 := by
  induction ids generalizing st with
  | nil => exact .inl mem
  | cons m ids ih =>
    rcases ih _ mem with old | ⟨m', hla, hsn, hf⟩
    · rcases mem_append.mp old with old | new
      · exact .inl old
      · exact .inr ⟨m, mem_cons_self, st.2, new⟩
    · exact .inr ⟨m', mem_cons_of_mem _ hla, hsn, hf⟩

lemma resolves_of_mem_resolveIn (mem : u ∈ (resolveIn all fuel id hsn).1) : Resolves all id u := by
  induction fuel generalizing id hsn with
  | zero => simp [resolveIn] at mem
  | succ fuel ih =>
    rw [resolveIn] at mem
    split at mem
    · simp at mem
    split at mem
    · next hab =>
      obtain rfl := mem_singleton.mp mem
      exact .unknown hab
    · next n hf =>
      split at mem
      · next real =>
        obtain rfl := mem_singleton.mp mem
        exact .work hf real
      · next ids con =>
        rcases mem_foldl_resolveIn ids _ mem with old | ⟨m, mb, see', hf'⟩
        · simp at old
        · exact .member hf con mb (ih hf')

lemma mem_dependsOn :
    u ∈ dependsOn x deps id ↔ u ≠ id ∧ ∃ on, (id, on) ∈ deps ∧ u ∈ resolve x.all on := by
  simp only [dependsOn, of, mem_sortBy, mem_dedup, mem_filter, mem_flatMap,
    mem_map, Prod.exists, bne_iff_ne, beq_iff_eq]
  constructor
  · rintro ⟨⟨on, ⟨node, on', ⟨mem, rfl⟩, rfl⟩, hsta⟩, ho⟩
    exact ⟨ho, on', mem, hsta⟩
  · rintro ⟨ho, on, mem, hsta⟩
    exact ⟨⟨on, ⟨id, on, ⟨mem, rfl⟩, rfl⟩, hsta⟩, ho⟩

end Resolver

inductive RawDep (d : MissionDefinition) (x : Expansion) : String → String → Prop
  | dependency {node on : String} {n : MissionNode} : x.all.lookup node = some n →
      on ∈ n.dependencies → node ≠ on → on ≠ "" → RawDep d x node on
  | edge {e : MissionEdge} : e ∈ d.edges → RawDep d x e.toID e.fromID
  | waitFor {node on : String} {n : MissionNode} : x.all.lookup node = some n → n.type = .join →
      on ∈ n.waitFor → RawDep d x node on
  | subNode {container on : String} {n sub : MissionNode} : d.nodes.lookup container = some n →
      n.type = .parallel → sub ∈ n.subNodes → RawDep d x container on → RawDep d x sub.id on
  | fanOut {container node on : String} {insts : List String} :
      x.instances.lookup container = some insts → node ∈ insts → RawDep d x container on →
      RawDep d x node on
  | branch {node on : String} {n : MissionNode} {outcome : Bool} : x.all.lookup on = some n →
      n.type = .condition → node ∈ n.branch outcome → RawDep d x node on

section RawDeps
variable {deps : NodeDeps} {node on : String}

lemma NodeDeps.mem_add :
    p ∈ deps.add node on ↔ p ∈ deps ∨ (p = (node, on) ∧ node ≠ on ∧ on ≠ "") := by
  unfold add
  split
  · next hdr =>
    constructor
    · exact .inl
    rintro (old | ⟨-, ho, hn⟩)
    · exact old
    rcases hdr with hs | empty
    · exact absurd hs ho
    · exact absurd empty hn
  · next kp =>
    rw [mem_append, mem_singleton]
    exact or_congr_right ⟨fun hs => ⟨hs, not_or.mp kp⟩, fun h => h.1⟩

def NodeDeps.All (P : String → String → Prop) (deps : NodeDeps) : Prop :=
  ∀ node on, (node, on) ∈ deps → P node on

lemma NodeDeps.All.add (h : deps.All P) (new : node ≠ on → on ≠ "" → P node on) :
    (deps.add node on).All P := by
  intro nod' on' mem
  rcases mem_add.mp mem with old | ⟨hs, ho, hn⟩
  · exact h nod' on' old
  · cases hs
    exact new ho hn

lemma NodeDeps.All.foldl {f : NodeDeps → α → NodeDeps} {l : List α} (h : deps.All P)
    (step : ∀ deps a, a ∈ l → deps.All P → (f deps a).All P) : (l.foldl f deps).All P :=
  List.foldlRecOn l f h fun deps hk a mem => step deps a mem hk

lemma NodeDeps.All.inherit (h : deps.All P)
    (hps : ∀ on, P container on → P node on) : (deps.inherit container node).All P :=
  NodeDeps.All.foldl h fun _ on mem hk => by
    obtain ⟨dep, hl, rfl⟩ := mem_map.mp mem
    obtain ⟨hst, hs⟩ := mem_filter.mp hl
    exact hk.add fun _ _ => hps _ (beq_iff_eq.mp hs ▸ h _ _ hst)

lemma declaredDeps_all : (declaredDeps o d x.all).All (RawDep d x) := by
  refine NodeDeps.All.foldl (NodeDeps.All.foldl (NodeDeps.All.foldl ?_ ?_) ?_) ?_
  · intro node on mem
    simp at mem
  · rintro deps ⟨id, n⟩ mem hk
    exact NodeDeps.All.foldl hk fun _ on dep hk =>
      hk.add (.dependency ((o.mem_range 1).mp mem) dep)
  · intro deps e mem hk
    exact hk.add fun _ _ => .edge mem
  · rintro deps ⟨id, n⟩ mem hk
    simp only
    split
    · next join =>
      exact NodeDeps.All.foldl hk fun _ on wait hk =>
        hk.add fun _ _ => .waitFor ((o.mem_range 2).mp mem) join wait
    · exact hk

lemma inheritParallelDeps_all (h : deps.All (RawDep d x)) :
    (inheritParallelDeps o d deps).All (RawDep d x) := by
  refine NodeDeps.All.foldl h ?_
  rintro deps ⟨id, n⟩ mem hk
  simp only
  split
  · next parallel =>
    exact NodeDeps.All.foldl hk fun _ sub mb hk =>
      hk.inherit fun on dep => .subNode ((o.mem_range 3).mp mem) parallel mb dep
  · exact hk

lemma inheritForEachDeps_all (h : deps.All (RawDep d x)) :
    (inheritForEachDeps o x.instances deps).All (RawDep d x) := by
  refine NodeDeps.All.foldl h ?_
  rintro deps ⟨id, ins⟩ mem hk
  exact NodeDeps.All.foldl hk fun _ inst mb hk =>
    hk.inherit fun on dep => .fanOut ((o.mem_range 4).mp mem) mb dep

lemma mem_branches {n : MissionNode} :
    b ∈ n.branch true ++ n.branch false ↔ ∃ outcome, b ∈ n.branch outcome := by
  simp [or_comm]

lemma gateBranches_all (h : deps.All (RawDep d x)) :
    (gateBranches o x.all deps).All (RawDep d x) := by
  refine NodeDeps.All.foldl h ?_
  rintro deps ⟨id, n⟩ mem hk
  simp only
  split
  · next condition =>
    refine NodeDeps.All.foldl hk fun _ b mb hk => ?_
    obtain ⟨out, mb⟩ := mem_branches.mp mb
    exact hk.add fun _ _ => .branch ((o.mem_range 5).mp mem) condition mb
  · exact hk

lemma NodeDeps.mem_add_of_mem (mem : p ∈ deps) (node on) : p ∈ deps.add node on :=
  mem_add.mpr (.inl mem)

lemma mem_rawDeps_branch {condition b : String}
    (hf : x.all.lookup condition = some n) (type : n.type = .condition)
    (en : b ∈ n.branch outcome) (ho : b ≠ condition) (hn : condition ≠ "") :
    (b, condition) ∈ rawDeps o d x := by
  refine foldl_reaches (fun deps => (b, condition) ∈ deps) ((o.mem_range 5).mpr hf) ?_ ?_ _
  · intro deps
    simp only [type, if_true]
    refine foldl_reaches (fun deps => (b, condition) ∈ deps)
      (mem_branches.mpr ⟨outcome, en⟩) (fun deps => ?_)
      (fun deps b mem => mem_add_of_mem mem b condition) deps
    exact mem_add.mpr (.inr ⟨rfl, ho, hn⟩)
  · rintro deps ⟨id, m⟩ mem
    simp only
    split
    · exact List.foldlRecOn _ _ mem fun deps mem b _ => mem_add_of_mem mem b id
    · exact mem

end RawDeps
end Gibson.Mission
