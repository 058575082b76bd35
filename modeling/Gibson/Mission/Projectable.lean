import Gibson.Mission.Validation
import Gibson.Mission.WorkGraph

/-! Definitions whose two flattenings agree: the projection runs over the graph that was checked. -/

namespace Gibson.Mission

open Brain (StringMap)
open List Rows Loops AList

/-- A node of the top level or a sub-node of one, with the node of the top level it belongs to. -/
structure FlatNode where
  (container id : String)
  node : MissionNode

def flatNodes (d : MissionDefinition) : List FlatNode :=
  d.nodes.entries.flatMap fun e =>
    { container := e.1, id := e.1, node := e.2 } ::
      e.2.subNodes.map fun sub => { container := e.1, id := sub.id, node := sub }

/-- A template and its node. -/
structure Template where
  holder : FlatNode
  node : MissionNode

def templates (d : MissionDefinition) : List Template :=
  (flatNodes d).filterMap fun f => f.node.template.map (Template.mk f)

def declaredIDs (d : MissionDefinition) : List String :=
  (flatNodes d).map FlatNode.id ++ (templates d).map fun t => t.node.id

/-- A node with the config of a container has the type of that container. -/
def MissionNode.typed (n : MissionNode) : Bool :=
  match n.config with
  | .parallel _ _ => n.type == .parallel
  | .forEach _ _ => n.type == .forEach
  | _ => true

/-- No container, no condition with branches and no join that waits. -/
def MissionNode.isLeaf (n : MissionNode) : Bool :=
  !isCollapsed n.type && n.children.isEmpty &&
    (n.type != .condition || (n.branch true ++ n.branch false).isEmpty) &&
    (n.type != .join || n.waitFor.isEmpty)

/-- Binding a node to a target substitutes inside its texts. -/
def ProjectionEnv.KeepsLeaves (env : ProjectionEnv) : Prop :=
  ∀ n target bound, env.bindNode n target = .ok bound → n.isLeaf = true → bound.isLeaf = true

def isMarked (templateID id : String) : Bool := (templateID ++ "#").toList.isPrefixOf id.toList

def declaredWaits (d : MissionDefinition) : List (String × String) :=
  (d.edges.map fun e => (e.fromID, e.toID)) ++
    ((flatNodes d).flatMap fun f => f.node.waitFor.map fun on => (on, f.id)) ++
    ((flatNodes d).flatMap fun f =>
      (f.node.branch true ++ f.node.branch false).map fun b => (f.id, b))

def declaredEdges (d : MissionDefinition) : List GraphEdge := (buildEdges d (collect d)).out

/-- The waits of the listed dependencies, which are not checked. -/
def listedWaits (d : MissionDefinition) : List (String × String) :=
  (flatNodes d).flatMap fun f =>
    (f.node.dependencies.filter fun on => f.id ≠ on ∧ on ≠ "").map fun on => (on, f.id)

/-- What begins or ends before what, where the waits are those of `W`. A node begins at `false` and
ends at `true`; a container ends when its members have ended. -/
inductive Order (d : MissionDefinition) (W : String × String → Prop) :
    String × Bool → String × Bool → Prop
  | run {f : FlatNode} : f ∈ flatNodes d → Order d W (f.id, false) (f.id, true)
  | wait {w : String × String} : W w → Order d W (w.1, true) (w.2, false)
  | enter {f : FlatNode} : f ∈ flatNodes d → f.id ≠ f.container →
      Order d W (f.container, false) (f.id, false)
  | leave {f : FlatNode} : f ∈ flatNodes d → f.id ≠ f.container →
      Order d W (f.id, true) (f.container, true)

def Waits (d : MissionDefinition) (w : String × String) : Prop :=
  w ∈ declaredWaits d ∨ w ∈ listedWaits d

/-- Validation follows a declared wait from its source only, not from the members of its source. -/
def Checked (d : MissionDefinition) (w : String × String) : Prop :=
  w ∈ declaredWaits d ∧ ∀ f ∈ flatNodes d, f.id = w.1 → f.node.type ≠ .parallel

/-- Containers nest no deeper than a `for_each` in a parallel node, templates are leaves, ids are
distinct and unlike those of instances, listed dependencies name nodes, nothing waits for a
template, and no wait that is not checked closes a cycle. -/
structure Projectable (d : MissionDefinition) : Prop where
  typed : ∀ f ∈ flatNodes d, f.node.typed = true
  shallow : ∀ f ∈ flatNodes d, f.id ≠ f.container → f.node.type ≠ .parallel
  leaves : ∀ t ∈ templates d, t.node.isLeaf = true
  distinct : (declaredIDs d).Nodup
  named : "" ∉ declaredIDs d
  unmarked : ∀ t ∈ templates d, ∀ id ∈ declaredIDs d, isMarked t.node.id id = false
  dependencies : ∀ w ∈ listedWaits d, ∃ f ∈ flatNodes d, f.id = w.1
  sources : ∀ w ∈ declaredWaits d, ∀ t ∈ templates d, w.1 ≠ t.node.id
  ordered : ∀ w, Waits d w → ¬ Checked d w →
    ¬ Relation.ReflTransGen (Order d (Waits d)) (w.2, false) (w.1, true)

section Declared

lemma mem_flatNodes : f ∈ flatNodes d ↔ ∃ n, d.nodes.lookup f.container = some n ∧
      ((f.id = f.container ∧ f.node = n) ∨ (f.node ∈ n.subNodes ∧ f.id = f.node.id)) := by
  obtain ⟨con, id, node⟩ := f
  have en : ∀ n, d.nodes.lookup con = some n ↔ ⟨con, n⟩ ∈ d.nodes.entries :=
    fun n => mem_lookup_iff
  simp only [flatNodes, mem_flatMap, mem_cons, mem_map, FlatNode.mk.injEq]
  constructor
  · rintro ⟨⟨k, n⟩, mem, ⟨rfl, rfl, rfl⟩ | ⟨sub, hi, rfl, rfl, rfl⟩⟩
    · exact ⟨_, (en _).mpr mem, .inl ⟨rfl, rfl⟩⟩
    · exact ⟨_, (en _).mpr mem, .inr ⟨hi, rfl⟩⟩
  · rintro ⟨n, hf, ⟨rfl, rfl⟩ | ⟨hi, rfl⟩⟩
    · exact ⟨⟨_, _⟩, (en _).mp hf, .inl ⟨rfl, rfl, rfl⟩⟩
    · exact ⟨⟨_, _⟩, (en _).mp hf, .inr ⟨node, hi, rfl, rfl, rfl⟩⟩

lemma mem_templates :
    t ∈ templates d ↔ t.holder ∈ flatNodes d ∧ t.holder.node.template = some t.node := by
  obtain ⟨f, node⟩ := t
  simp only [templates, mem_filterMap, Option.map_eq_some_iff, Template.mk.injEq]
  constructor
  · rintro ⟨f', mem, tpl, hf, rfl, rfl⟩
    exact ⟨mem, hf⟩
  · rintro ⟨mem, hf⟩
    exact ⟨f, mem, node, hf, rfl, rfl⟩

variable {n : MissionNode}

lemma top_mem_flatNodes {id} (hf : d.nodes.lookup id = some n) :
    { container := id, id, node := n } ∈ flatNodes d :=
  mem_flatNodes.mpr ⟨n, hf, .inl ⟨rfl, rfl⟩⟩

lemma sub_mem_flatNodes {id sub} (hf : d.nodes.lookup id = some n)
    (hi : sub ∈ n.subNodes) : { container := id, id := sub.id, node := sub } ∈ flatNodes d :=
  mem_flatNodes.mpr ⟨n, hf, .inr ⟨hi, rfl⟩⟩

lemma container_mem_flatNodes (mem : f ∈ flatNodes d) :
    ∃ n, { container := f.container, id := f.container, node := n } ∈ flatNodes d ∧
      d.nodes.lookup f.container = some n := by
  obtain ⟨n, hf, -⟩ := mem_flatNodes.mp mem
  exact ⟨n, top_mem_flatNodes hf, hf⟩

lemma flat_mem_declaredIDs (mem : f ∈ flatNodes d) : f.id ∈ declaredIDs d :=
  mem_append_left _ (mem_map_of_mem mem)

lemma template_mem_declaredIDs (mem : t ∈ templates d) : t.node.id ∈ declaredIDs d :=
  mem_append_right _ (mem_map_of_mem (f := fun t : Template => t.node.id) mem)

lemma MissionNode.type_of_subNode (typed : n.typed = true)
    (hi : sub ∈ n.subNodes) : n.type = .parallel := by
  unfold MissionNode.subNodes at hi
  split at hi
  · next cf => simpa [MissionNode.typed, cf] using typed
  · simp at hi

lemma MissionNode.isLeaf_iff : n.isLeaf = true ↔ isCollapsed n.type = false ∧ n.children = [] ∧
    (n.type = .condition → ∀ outcome, n.branch outcome = []) ∧
    (n.type = .join → n.waitFor = []) := by
  simp [MissionNode.isLeaf, and_assoc, ← imp_iff_not_or, and_comm (a := n.branch false = [])]

end Declared

section Ids
variable {id : String}

lemma isMarked_iff : isMarked templateID id = true ↔ templateID.toList ++ ['#'] <+: id.toList := by
  simp [isMarked, isPrefixOf_iff_prefix]

lemma isMarked_instanceID (templateID targetID) :
    isMarked templateID (instanceID templateID targetID) = true := by
  rw [isMarked_iff, instanceID, String.toList_append, String.toList_append]
  exact ⟨targetID.toList, rfl⟩

lemma marks_nested (ha : isMarked a id = true) (hb : isMarked b id = true) :
    a = b ∨ isMarked a b = true ∨ isMarked b a = true := by
  have nes : ∀ {a b : String}, a.toList.length ≤ b.toList.length → isMarked a id = true →
      isMarked b id = true → a = b ∨ isMarked a b = true := by
    intro a b le ha hb
    rw [isMarked_iff] at ha hb ⊢
    rcases Nat.lt_or_eq_of_le le with less | same
    · refine .inr (prefix_of_prefix_length_le ha ((prefix_append _ _).trans hb) ?_)
      simp only [length_append, length_singleton]
      omega
    · have heq := (prefix_of_prefix_length_le ha hb (by simp [same])).eq_of_length
        (by simp [same])
      exact .inl (String.toList_inj.mp (append_cancel_right heq))
  rcases Nat.le_total a.toList.length b.toList.length with le | le
  · exact (nes le ha hb).imp_right .inl
  · exact (nes le hb ha).imp Eq.symm .inr

variable {d : MissionDefinition} (h : Projectable d)
include h

lemma Projectable.flat_inj (hf : f ∈ flatNodes d) (hg : g ∈ flatNodes d)
    (hs : f.id = g.id) : f = g :=
  inj_on_of_nodup_map (nodup_append.mp h.distinct).1 hf hg hs

lemma Projectable.instance_undeclared (ht : t ∈ templates d) (targetID) :
    instanceID t.node.id targetID ∉ declaredIDs d := by
  intro hdc
  have humk := h.unmarked t ht _ hdc
  rw [isMarked_instanceID] at humk
  simp at humk

lemma Projectable.mark_inj (ht : t ∈ templates d) (ht' : t' ∈ templates d)
    (mark : isMarked t.node.id id = true) (mar' : isMarked t'.node.id id = true) : t = t' := by
  rcases marks_nested mark mar' with hs | nested | nested
  · exact inj_on_of_nodup_map (nodup_append.mp h.distinct).2.1 ht ht' hs
  · rw [h.unmarked t ht _ (template_mem_declaredIDs ht')] at nested
    simp at nested
  · rw [h.unmarked t' ht' _ (template_mem_declaredIDs ht)] at nested
    simp at nested

lemma Projectable.sub_flat (hf : f ∈ flatNodes d) (hi : sub ∈ f.node.subNodes) :
    f.id = f.container ∧ { container := f.container, id := sub.id, node := sub } ∈ flatNodes d := by
  have parallel := MissionNode.type_of_subNode (h.typed f hf) hi
  have top : f.id = f.container := by
    by_contra other
    exact h.shallow f hf other parallel
  obtain ⟨n, hf0, -⟩ := mem_flatNodes.mp hf
  have hs := h.flat_inj hf (top_mem_flatNodes hf0) top
  exact ⟨top, sub_mem_flatNodes (hf0.trans (congrArg (some ·.node) hs.symm)) hi⟩

lemma Projectable.declares_cases (hdc : Declares d id n) :
    (∃ f ∈ flatNodes d, f.id = id ∧ f.node = n) ∨
      ∃ t ∈ templates d, t.node.id = id ∧ t.node = n := by
  induction hdc with
  | top hf => exact .inl ⟨_, top_mem_flatNodes hf, rfl, rfl⟩
  | @child id n m _ hi ih =>
    rcases ih with ⟨f, mem, rfl, rfl⟩ | ⟨t, mem, rfl, rfl⟩
    · unfold MissionNode.children at hi
      cases cf : f.node.config with
      | parallel subs lim =>
        have sub : m ∈ f.node.subNodes := by
          simpa [MissionNode.subNodes, cf, NodeConfig.children] using hi
        exact .inl ⟨_, (h.sub_flat mem sub).2, rfl, rfl⟩
      | forEach tpl lim =>
        have hf : f.node.template = some m := by
          simpa [MissionNode.template, cf, NodeConfig.children] using hi
        exact .inr ⟨⟨f, m⟩, mem_templates.mpr ⟨mem, hf⟩, rfl, rfl⟩
      | unset | agent | tool | plugin | condition | join | job =>
        simp [cf, NodeConfig.children] at hi
    · have none := (MissionNode.isLeaf_iff.mp (h.leaves t mem)).2.1
      rw [none] at hi
      simp at hi

end Ids

section Flatten
variable {d : MissionDefinition}

def HoldsFlat (d : MissionDefinition) (all : StringMap MissionNode) : Prop :=
  ∀ id n, all.lookup id = some n → ∃ f ∈ flatNodes d, f.id = id ∧ f.node = n

variable {all : StringMap MissionNode}

lemma addSubNode_ok
    (h : addSubNode parallelID all sub = .ok all') : all' = all.insert sub.id sub := by
  unfold addSubNode at h
  split at h
  · simp at h
  · exact (Except.ok.inj h).symm

lemma HoldsFlat.insert (h : HoldsFlat d all) (mem : f ∈ flatNodes d) :
    HoldsFlat d (all.insert f.id f.node) := by
  intro id n hf
  by_cases hs : id = f.id
  · subst hs
    rw [lookup_insert] at hf
    exact ⟨f, mem, rfl, Option.some.inj hf⟩
  · rw [lookup_insert_ne hs] at hf
    exact h id n hf

lemma holdsFlat_flattenParallel (h : flattenParallel o d = .ok flat) : HoldsFlat d flat := by
  refine foldlM_invariant (HoldsFlat d) ?_ ?_ h
  · intro id n hf
    exact ⟨_, top_mem_flatNodes hf, rfl, rfl⟩
  rintro all ⟨id, n⟩ all' en hk step
  simp only at step
  split at step
  · cases step
    exact hk
  refine foldlM_invariant (HoldsFlat d) hk ?_ step
  intro all sub all' hi hk add
  rw [addSubNode_ok add]
  exact hk.insert (sub_mem_flatNodes ((o.mem_range 0).mp en) hi)

lemma isNode_addSubNode {parallelID id sub} (node : IsNode all id)
    (h : addSubNode parallelID all sub = .ok all') : IsNode all' id := by
  rw [addSubNode_ok h]
  exact (isNode_insert sub).mpr (.inr node)

lemma isNode_flattenStep {e : String × MissionNode} {id} (node : IsNode all id)
    (step : (if e.2.type ≠ .parallel then .ok all else e.2.subNodes.foldlM (addSubNode e.1) all) =
      Except.ok all') : IsNode all' id := by
  split at step
  · cases step
    exact node
  · exact foldlM_invariant (fun all => IsNode all id) node
      (fun _ _ _ _ node add => isNode_addSubNode node add) step

lemma isNode_flattenParallel (typed : ∀ f ∈ flatNodes d, f.node.typed = true)
    (h : flattenParallel o d = .ok flat) (mem : f ∈ flatNodes d) : IsNode flat f.id := by
  obtain ⟨n, hf, ⟨top, -⟩ | ⟨hi, hsid⟩⟩ := mem_flatNodes.mp mem
  · refine foldlM_invariant (fun all => IsNode all f.id) ?_ ?_ h
    · rw [IsNode, top, hf]
      rfl
    · rintro all ⟨id, m⟩ all' - node step
      exact isNode_flattenStep (e := (id, m)) node step
  · refine foldlM_reaches (fun all => IsNode all f.id) (fun _ => True)
      ((o.mem_range 0).mpr hf) trivial (fun _ _ _ _ _ _ => trivial) ?_ ?_ h
    · intro all all' _ step
      have parallel : n.type = .parallel :=
        MissionNode.type_of_subNode (typed _ (top_mem_flatNodes hf)) hi
      simp only [parallel, ne_eq, not_true_eq_false, if_false] at step
      refine foldlM_reaches (fun all => IsNode all f.id) (fun _ => True) hi trivial
        (fun _ _ _ _ _ _ => trivial) ?_ ?_ step
      · intro all all' _ add
        rw [addSubNode_ok add, hsid]
        exact (isNode_insert f.node).mpr (.inl rfl)
      · intro all sub all' _ _ node add
        exact isNode_addSubNode node add
    · rintro all ⟨id, m⟩ all' - - node step
      exact isNode_flattenStep (e := (id, m)) node step

lemma Projectable.lookup_flat (hd : Projectable d) (h : flattenParallel o d = .ok flat)
    (mem : f ∈ flatNodes d) : flat.lookup f.id = some f.node := by
  obtain ⟨n, hf⟩ := Option.isSome_iff_exists.mp (isNode_flattenParallel hd.typed h mem)
  obtain ⟨g, ho, hsid, rfl⟩ := holdsFlat_flattenParallel h _ _ hf
  rw [hf, hd.flat_inj ho mem hsid]

end Flatten

/-- A node made from a template. -/
structure IsInstance (targets : List ForEachTarget) (t : Template) (id : String) (n : MissionNode) :
    Prop where
  id : ∃ tgt ∈ targets, id = instanceID t.node.id tgt.id
  type : n.type = t.node.type
  dependencies : n.dependencies = []
  leaf : n.isLeaf = true

/-- What the node set is while it is expanded: the flat nodes, and instances of templates. -/
structure Expanded (d : MissionDefinition) (targets : List ForEachTarget) (x : Expansion) :
    Prop where
  origin : ∀ id n, x.all.lookup id = some n →
    (∃ f ∈ flatNodes d, f.id = id ∧ f.node = n) ∨ ∃ t ∈ templates d, IsInstance targets t id n
  flat : ∀ f ∈ flatNodes d, x.all.lookup f.id = some f.node
  instances : ∀ id ids, x.instances.lookup id = some ids → ∀ inst ∈ ids,
    ∃ t ∈ templates d, t.holder.id = id ∧ ∃ tgt ∈ targets, inst = instanceID t.node.id tgt.id

section Expand
variable {d : MissionDefinition} {x : Expansion}
variable {id : String}

lemma bindInstance_ok (h : bindInstance env id tpl tgt = .ok inst) :
    inst.id = instanceID tpl.id tgt.id ∧ inst.type = tpl.type ∧ inst.dependencies = [] ∧
      (env.KeepsLeaves → tpl.isLeaf = true → inst.isLeaf = true) := by
  unfold bindInstance at h
  split at h
  · simp at h
  split at h
  · simp at h
  next tg hbd bin =>
  have type := env.bindNode_type _ _ _ bin
  cases h
  refine ⟨rfl, type, rfl, fun hkp leaf => ?_⟩
  have kp := hkp _ _ _ bin leaf
  exact kp

lemma mem_zip_expandForEach (h : expandForEach env id tpl targets = .ok insts) :
    (∀ p ∈ insts.zip targets, bindInstance env id tpl p.2 = .ok p.1) ∧
      (insts.zip targets).map Prod.fst = insts := by
  have ss := (mapM_ok h).flip
  obtain ⟨length, pairs⟩ := forall₂_iff_zip.mp ss
  exact ⟨fun p mem => pairs mem, map_fst_zip length.le⟩

lemma expandNode_cases (h : expandNode env targets x id = .ok x') :
    (x' = x ∧ ∀ n, x.all.lookup id = some n → n.type ≠ .forEach) ∨
      ∃ n tpl ins, x.all.lookup id = some n ∧ n.type = .forEach ∧ n.template = some tpl ∧
        targets ≠ [] ∧ expandForEach env id tpl targets = .ok ins ∧
        x' = (ins.zip targets).foldl (Expansion.addInstance id tpl.id) x := by
  unfold expandNode at h
  split at h
  · next hab =>
    cases h
    exact .inl ⟨rfl, fun n hf => by simp [hab] at hf⟩
  · next n hf =>
    split at h
    · next ho =>
      cases h
      refine .inl ⟨rfl, fun n' hf' => ?_⟩
      cases hf.symm.trans hf'
      exact ho
    · next type =>
      split at h
      · simp at h
      next tpl tp =>
      split at h
      · simp at h
      split at h
      · simp at h
      next some =>
      obtain ⟨ins, hxps, h⟩ := bind_ok_iff.mp h
      exact .inr ⟨n, tpl, ins, hf, not_not.mp type, tp, some, hxps,
        (Except.ok.inj h).symm⟩

lemma Expanded.addInstance (hd : Projectable d) (h : Expanded d targets x)
    (ht : t ∈ templates d) (mem : tgt ∈ targets) (id : inst.id = instanceID t.node.id tgt.id)
    (type : inst.type = t.node.type) (ds : inst.dependencies = []) (leaf : inst.isLeaf = true) :
    Expanded d targets (x.addInstance t.holder.id t.node.id (inst, tgt)) := by
  constructor
  · intro id' n hf0
    by_cases hs : id' = inst.id
    · subst hs
      have hh : some inst = some n := (lookup_insert _).symm.trans hf0
      cases hh
      exact .inr ⟨t, ht, ⟨tgt, mem, id⟩, type, ds, leaf⟩
    · have hb : x.all.lookup id' = some n := (lookup_insert_ne hs).symm.trans hf0
      exact h.origin id' n hb
  · intro f hf
    have ho : f.id ≠ inst.id := by
      intro hs
      have hdc := flat_mem_declaredIDs hf
      rw [hs, id] at hdc
      exact hd.instance_undeclared ht _ hdc
    exact (lookup_insert_ne ho).trans (h.flat f hf)
  · intro id' ids hf0 i hi
    by_cases hs : id' = t.holder.id
    · subst hs
      have hh : (x.instances.insert t.holder.id
          ((x.instances.lookup t.holder.id).getD [] ++ [inst.id])).lookup t.holder.id =
            some ids := hf0
      rw [lookup_insert] at hh
      rw [← Option.some.inj hh] at hi
      rcases mem_append.mp hi with old | new
      · cases hk : x.instances.lookup t.holder.id with
        | none => simp [hk] at old
        | some hb =>
          rw [hk] at old
          exact h.instances _ _ hk i old
      · rw [mem_singleton.mp new]
        exact ⟨t, ht, rfl, tgt, mem, id⟩
    · have hb :=
        (lookup_insert_ne hs).symm.trans hf0
      exact h.instances id' ids hb i hi

lemma Expanded.template (h : Expanded d targets x) {id n tpl}
    (hf0 : x.all.lookup id = some n) (type : n.type = .forEach)
    (tp : n.template = some tpl) : ∃ t ∈ templates d, t.holder.id = id ∧ t.node = tpl := by
  rcases h.origin id n hf0 with ⟨f, hf, rfl, rfl⟩ | ⟨t, ht, inst⟩
  · exact ⟨⟨f, tpl⟩, mem_templates.mpr ⟨hf, tp⟩, rfl, rfl⟩
  have leaf := (MissionNode.isLeaf_iff.mp inst.leaf).1
  rw [type] at leaf
  cases leaf

lemma Expanded.expandNode (hd : Projectable d) (hkp : env.KeepsLeaves)
    (h : Expanded d targets x) (step : expandNode env targets x id = .ok x') : Expanded d targets x' := by
  rcases expandNode_cases step with ⟨rfl, -⟩ | ⟨n, tpl, ins, hf, type, tp, -, hmd, rfl⟩
  · exact h
  obtain ⟨t, ht, rfl, rfl⟩ := h.template hf type tp
  refine List.foldlRecOn _ _ h ?_
  rintro x hk ⟨inst, tgt⟩ mem
  obtain ⟨hsid, sam, noD, leaf⟩ := bindInstance_ok ((mem_zip_expandForEach hmd).1 _ mem)
  exact hk.addInstance hd ht (of_mem_zip mem).2 hsid sam noD (leaf hkp (hd.leaves t ht))

lemma isNode_addInstance (forEachID templateID) (inst : MissionNode × ForEachTarget) :
    IsNode (x.addInstance forEachID templateID inst).all id ↔ id = inst.1.id ∨ IsNode x.all id :=
  isNode_insert inst.1

lemma isNode_expandNode (node : IsNode x.all id')
    (step : expandNode env targets x id = .ok x') : IsNode x'.all id' := by
  rcases expandNode_cases step with ⟨rfl, -⟩ | ⟨n, tpl, ins, -, -, -, -, -, rfl⟩
  · exact node
  · exact List.foldlRecOn (motive := fun x : Expansion => IsNode x.all id') _ _ node
      fun x hk p _ => (isNode_addInstance id tpl.id p).mpr (.inr hk)

lemma isNode_instances (hf : x.all.lookup id = some n) (type : n.type = .forEach)
    (tp : n.template = some tpl) (step : expandNode env targets x id = .ok x') :
    targets ≠ [] ∧ ∀ tgt ∈ targets, IsNode x'.all (instanceID tpl.id tgt.id) := by
  rcases expandNode_cases step with
    ⟨-, other⟩ | ⟨n', tpl', insts, hf', -, tem', some, hmd, rfl⟩
  · exact absurd type (other n hf)
  cases hf.symm.trans hf'
  cases tp.symm.trans tem'
  refine ⟨some, fun tgt mem => ?_⟩
  obtain ⟨inst, mad', hbd⟩ := (mem_of_mapM_ok hmd).2 tgt mem
  rw [← (bindInstance_ok hbd).1]
  rw [← (mem_zip_expandForEach hmd).2] at mad'
  obtain ⟨p, inZ, rfl⟩ := mem_map.mp mad'
  exact foldl_reaches (fun x : Expansion => IsNode x.all p.1.id) inZ
    (fun x => (isNode_addInstance id tpl.id p).mpr (.inl rfl))
    (fun x q hk => (isNode_addInstance id tpl.id q).mpr (.inr hk)) x

section
variable (hd : Projectable d)
include hd

lemma Projectable.expanded_start (hfla : flattenParallel o d = .ok flat) (targets) :
    Expanded d targets { all := flat } := by
  refine ⟨fun id n hf0 => .inl (holdsFlat_flattenParallel hfla id n hf0),
    fun f hf => hd.lookup_flat hfla hf, ?_⟩
  intro id ids hf0
  simp at hf0

lemma Projectable.expanded (hkp : env.KeepsLeaves)
    (h : expandDefinition env o d targets = .ok x) : Expanded d targets x := by
  obtain ⟨flat, hfla, hxps⟩ := expandDefinition_ok h
  exact foldlM_invariant (Expanded d targets) (hd.expanded_start hfla targets)
    (fun x id x' _ hk step => hk.expandNode hd hkp step) hxps

lemma Expanded.isInstance (h : Expanded d targets x) (ht : t ∈ templates d)
    (hf0 : x.all.lookup id = some n) (mark : isMarked t.node.id id = true) :
    IsInstance targets t id n := by
  rcases h.origin id n hf0 with ⟨f, hf, rfl, rfl⟩ | ⟨t', ht', inst⟩
  · rw [hd.unmarked t ht _ (flat_mem_declaredIDs hf)] at mark
    simp at mark
  obtain ⟨tgt, -, rfl⟩ := inst.id
  obtain rfl := hd.mark_inj ht ht' mark (isMarked_instanceID _ _)
  exact inst

lemma Projectable.instances (hkp : env.KeepsLeaves)
    (h : expandDefinition env o d targets = .ok x) (ht : t ∈ templates d) :
    targets ≠ [] ∧ ∀ tgt ∈ targets, IsNode x.all (instanceID t.node.id tgt.id) := by
  obtain ⟨hf, tp⟩ := mem_templates.mp ht
  obtain ⟨flat, hfla, hxps⟩ := expandDefinition_ok h
  have type : t.holder.node.type = .forEach := by
    unfold MissionNode.template at tp
    split at tp
    · next cf => simpa [MissionNode.typed, cf] using hd.typed _ hf
    · simp at tp
  have s0 := hd.expanded_start hfla targets
  have key : t.holder.id ∈ sortBy (fun id : String => id) flat.keys := by
    refine mem_sortBy.mpr (mem_keys.mp (lookup_isSome.mp ?_))
    rw [hd.lookup_flat hfla hf]
    rfl
  refine foldlM_reaches
    (fun x => targets ≠ [] ∧ ∀ tgt ∈ targets, IsNode x.all (instanceID t.node.id tgt.id))
    (Expanded d targets) key s0 (fun x id x' _ hk step => hk.expandNode hd hkp step)
    ?_ ?_ hxps
  · intro x x' hk step
    exact isNode_instances (hk.flat _ hf) type tp step
  · intro x id x' _ _ hk step
    exact ⟨hk.1, fun tgt mem => isNode_expandNode (hk.2 tgt mem) step⟩

end
end Expand
end Gibson.Mission
