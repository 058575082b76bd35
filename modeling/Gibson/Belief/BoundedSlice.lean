import Mathlib.Data.Set.Card
import Gibson.Lib.Bfs
import Gibson.Belief.AttackGraph

/-! The slice of an attack graph that belief is computed over: the ancestors of a target up to a
depth, thinned out to a node budget by relevance, with the cycles cut. -/

namespace Gibson.Belief

open List Rows Brain Elimination

/-- A bound that is not positive is no bound. -/
structure SliceOptions where
  (maxDepth nodeBudget : Int)

def predecessors (g : AttackGraph) (id : String) : List String :=
  (sortBy (fun s => s) ((g.edges.filter (·.toID == id)).map InfraEdge.fromID)).filter fun pred =>
    (nodeByID g pred).isSome

def sliceBackwardBFS (g : AttackGraph) (target : String) (maxDepth : Int) : Bfs.Search String :=
  Bfs.run (predecessors g) (fun d => !(decide (0 < maxDepth) && decide (maxDepth ≤ d)))
    g.nodes.length (Bfs.start target)

section
variable {R : Type*} [LinearOrder R]

def rankKey (relevance : String → R) (id : String) : Rᵒᵈ ×ₗ String :=
  toLex (OrderDual.toDual (relevance id), id)

def sliceSelectByBudget (candidates : List String) (target : String) (budget : Int)
    (relevance : String → R) : List String :=
  if budget ≤ 0 ∨ candidates.length ≤ budget then candidates
  else
    let rest := sortBy (rankKey relevance) (candidates.filter (· ≠ target))
    let budgetForRest := max (min (budget - 1) rest.length) 0
    target :: rest.take budgetForRest.toNat

def sliceBuildGraph (g : AttackGraph) (kept : List String) : AttackGraph :=
  { nodes := (sortBy (fun s => s) kept).filterMap (nodeByID g)
    edges := sortEdges (g.edges.filter fun e => kept.contains e.fromID && kept.contains e.toID)
    dropped := [] }

def sliceDropTargetOutEdges (g : AttackGraph) (target : String) : AttackGraph :=
  { g with
    edges := g.edges.filter fun e => e.fromID ≠ target
    dropped := g.dropped ++ g.edges.filter fun e => e.fromID = target }

def sliceIDs (g : AttackGraph) (target : String) (opts : SliceOptions) (relevance : String → R) :
    List String :=
  sliceSelectByBudget (sliceBackwardBFS g target opts.maxDepth).seen target opts.nodeBudget relevance

def extractBoundedSlice (g : AttackGraph) (target : String) (opts : SliceOptions)
    (relevance : String → R) : AttackGraph :=
  if (nodeByID g target).isSome then
    breakCycles (sliceDropTargetOutEdges (sliceBuildGraph g (sliceIDs g target opts relevance)) target)
  else { nodes := [], edges := [], dropped := [] }

inductive Leads (g : AttackGraph) (target : String) : Nat → String → Prop
  | here : Leads g target 0 target
  | back {n : Nat} {e : InfraEdge} : Leads g target n e.toID → e ∈ g.edges →
      e.fromID ∈ g.nodes.map AttackGraphNode.id → Leads g target (n + 1) e.fromID

def Candidate (g : AttackGraph) (target : String) (maxDepth : Int) (v : String) : Prop :=
  ∃ n : Nat, Leads g target n v ∧ (maxDepth ≤ 0 ∨ n ≤ maxDepth)

def Outranks (relevance : String → R) (u v : String) : Prop :=
  relevance v < relevance u ∨ relevance u = relevance v ∧ u < v

/-- A candidate within the budget: the target, and as many more as fit, by rank. -/
def Chosen (g : AttackGraph) (target : String) (opts : SliceOptions) (relevance : String → R)
    (v : String) : Prop :=
  Candidate g target opts.maxDepth v ∧
    (opts.nodeBudget ≤ 0 ∨ ({ u | Candidate g target opts.maxDepth u }.ncard : Int) ≤ opts.nodeBudget ∨
      v = target ∨
      ({ u | Candidate g target opts.maxDepth u ∧ u ≠ target ∧ Outranks relevance u v }.ncard : Int)
        < opts.nodeBudget - 1)

/-- The slice is acyclic, holds the target and the chosen nodes alone, and keeps the edges into the
target. -/
structure KeepsTargetEdges (g : AttackGraph) (target : String) (opts : SliceOptions)
    (relevance : String → R) (slice : AttackGraph) : Prop where
  acyclic : ∀ v, ¬ Relation.TransGen (Enables slice.edges) v v
  unique : (slice.nodes.map AttackGraphNode.id).Nodup
  holds : target ∈ slice.nodes.map AttackGraphNode.id
  nodes : ∀ v, v ∈ slice.nodes.map AttackGraphNode.id ↔ Chosen g target opts relevance v
  into : ∀ e ∈ g.edges, e.toID = target → e.fromID ≠ target →
    Chosen g target opts relevance e.fromID → e ∈ slice.edges

end

lemma mem_predecessors {id pred} : pred ∈ predecessors g id ↔
    ∃ e ∈ g.edges, e.toID = id ∧ e.fromID = pred ∧ pred ∈ g.nodes.map AttackGraphNode.id := by
  rw [predecessors, mem_filter, mem_sortBy, mem_map, nodeByID_isSome]
  constructor
  · rintro ⟨⟨e, mem, s0⟩, known⟩
    obtain ⟨hl, stop⟩ := mem_filter.mp mem
    exact ⟨e, hl, beq_iff_eq.mp stop, s0, known⟩
  · rintro ⟨e, hl, stop, s0, known⟩
    exact ⟨⟨e, mem_filter.mpr ⟨hl, beq_iff_eq.mpr stop⟩, s0⟩, known⟩

lemma walk_iff_leads : Bfs.Walk (predecessors g) target n v ↔ Leads g target n v := by
  constructor
  · intro walk
    induction walk with
    | refl => exact .here
    | step _ hl ih =>
      obtain ⟨e, mem, rfl, rfl, known⟩ := mem_predecessors.mp hl
      exact .back ih mem known
  · intro lea
    induction lea with
    | here => exact .refl
    | back _ mem known ih => exact .step ih (mem_predecessors.mpr ⟨_, mem, rfl, rfl, known⟩)

lemma predecessors_known (v w) (mem : w ∈ predecessors g v) :
    w ∈ g.nodes.map AttackGraphNode.id := by
  obtain ⟨_, _, _, _, ht⟩ := mem_predecessors.mp mem
  exact ht

lemma target_candidate (g target) (md : Int) : Candidate g target md target :=
  ⟨0, .here, by omega⟩

section
variable {R : Type*} [LinearOrder R] {relevance : String → R}

lemma ncard_eq_countP {rw0 : List String} (hnd : rw0.Nodup) (p : String → Bool) :
    { u | u ∈ rw0 ∧ p u = true }.ncard = rw0.countP p := by
  have hl : { u | u ∈ rw0 ∧ p u = true } = ((rw0.filter p).toFinset : Set String) := by
    ext u
    simp
  rw [hl, Set.ncard_coe_finset, toFinset_card_of_nodup (hnd.filter p),
    countP_eq_length_filter]

def slicedGraph (g : AttackGraph) (target : String) (opts : SliceOptions) (relevance : String → R) :
    AttackGraph :=
  sliceDropTargetOutEdges (sliceBuildGraph g (sliceIDs g target opts relevance)) target

section
variable {g : AttackGraph} {target : String} (known : target ∈ g.nodes.map AttackGraphNode.id)
include known

lemma mem_sliceBackwardBFS (md : Int) :
    v ∈ (sliceBackwardBFS g target md).seen ↔ Candidate g target md v := by
  rw [sliceBackwardBFS, Bfs.mem_search_iff predecessors_known known (by simp)]
  refine exists_congr fun n => and_congr walk_iff_leads ?_
  constructor
  · intro hal
    by_contra! beyond
    have hsp := hal md.toNat (by omega)
    simp [beyond.1, Int.toNat_of_nonneg beyond.1.le] at hsp
  · intro hbd m less
    simp only [Bool.not_eq_true', Bool.and_eq_false_iff, decide_eq_false_iff_not]
    omega

lemma nodup_sliceBackwardBFS (md : Int) : (sliceBackwardBFS g target md).seen.Nodup :=
  (Bfs.search_spec _ predecessors_known known (by simp)).1.nodup

lemma Candidate.isNode (ca : Candidate g target maxDepth v) :
    v ∈ g.nodes.map AttackGraphNode.id := by
  obtain ⟨n, lea, -⟩ := ca
  cases lea with
  | here => exact known
  | back _ _ ht => exact ht

lemma mem_sliceIDs {v : String} :
    v ∈ sliceIDs g target opts relevance ↔ Chosen g target opts relevance v := by
  have hf := fun v => mem_sliceBackwardBFS (v := v) known opts.maxDepth
  have hnd := nodup_sliceBackwardBFS known opts.maxDepth
  rw [sliceIDs]
  generalize (sliceBackwardBFS g target opts.maxDepth).seen = candidates at hf hnd
  have sz : { u | Candidate g target opts.maxDepth u }.ncard = candidates.length := by
    have all := ncard_eq_countP hnd fun _ => true
    simp only [hf, and_true, countP_true] at all
    exact all
  have rank : { u | Candidate g target opts.maxDepth u ∧ u ≠ target ∧ Outranks relevance u v }.ncard =
      (candidates.filter (· ≠ target)).countP fun u => rankKey relevance u < rankKey relevance v := by
    have hbe := ncard_eq_countP (hnd.filter (· ≠ target)) fun u =>
      rankKey relevance u < rankKey relevance v
    rw [← hbe]
    congr 1
    ext u
    simp [hf, rankKey, Prod.Lex.toLex_lt_toLex, Outranks, and_assoc]
  rw [Chosen, sz, rank, sliceSelectByBudget]
  split
  · rename_i hft
    rw [hf]
    exact ⟨fun ca => ⟨ca, by omega⟩, And.left⟩
  · rename_i tig
    rw [not_or] at tig
    rw [mem_cons, mem_take_sortBy (show Function.Injective (rankKey relevance) from
      fun _ _ hs => (Prod.mk.inj (toLex_inj.mp hs)).2) (hnd.filter _)]
    -- The target is one of the candidates, so the others fill the rest of the budget.
    have os : candidates.length ≤ (candidates.filter (· ≠ target)).length + 1 := by
      have one := nodup_iff_count_le_one.mp hnd target
      have split := length_eq_length_filter_add (l := candidates) fun u => decide (u ≠ target)
      have hs : (candidates.filter fun u => !decide (u ≠ target)).length =
          candidates.count target := by
        rw [count_eq_countP, countP_eq_length_filter]
        refine congrArg List.length (filter_congr fun u _ => ?_)
        by_cases hh : u = target <;> simp [hh]
      omega
    have room : max (min (opts.nodeBudget - 1)
        (sortBy (rankKey relevance) (candidates.filter (· ≠ target))).length) 0 =
          opts.nodeBudget - 1 := by
      rw [(sortBy_perm _ _).length_eq]
      omega
    rw [room, mem_filter, hf]
    constructor
    · rintro (rfl | ⟨⟨ca, -⟩, h1⟩)
      · exact ⟨target_candidate g v opts.maxDepth, .inr (.inr (.inl rfl))⟩
      · exact ⟨ca, by omega⟩
    · rintro ⟨ca, rs⟩
      by_cases hs : v = target
      · exact .inl hs
      · have h1 := (rs.resolve_left tig.1).resolve_left tig.2 |>.resolve_left hs
        exact .inr ⟨⟨ca, by simpa using hs⟩, by omega⟩

lemma nodup_sliceIDs : (sliceIDs g target opts relevance).Nodup := by
  have hnd := nodup_sliceBackwardBFS known opts.maxDepth
  rw [sliceIDs, sliceSelectByBudget]
  split
  · exact hnd
  refine nodup_cons.mpr ⟨fun mem => ?_, ?_⟩
  · have hl := mem_sortBy.mp (mem_of_mem_take mem)
    simp at hl
  · exact ((sortBy_perm _ _).nodup_iff.mpr (hnd.filter _)).sublist (take_sublist _ _)

lemma slicedGraph_ids (opts) (relevance : String → R) :
    (slicedGraph g target opts relevance).nodes.map AttackGraphNode.id =
      sortBy (fun s => s) (sliceIDs g target opts relevance) := by
  refine map_id_filterMap fun id mem => ?_
  have ht := ((mem_sliceIDs known).mp (mem_sortBy.mp mem)).1.isNode known
  obtain ⟨n, hf⟩ := Option.isSome_iff_exists.mp (nodeByID_isSome.mpr ht)
  exact ⟨n, hf, nodeByID_id hf⟩

lemma mem_slicedGraph_edges :
    e ∈ (slicedGraph g target opts relevance).edges ↔ e ∈ g.edges ∧ e.fromID ≠ target ∧
      Chosen g target opts relevance e.fromID ∧ Chosen g target opts relevance e.toID := by
  rw [slicedGraph, sliceDropTargetOutEdges, mem_filter, sliceBuildGraph, sortEdges,
    mem_sortBy, mem_filter]
  simp only [Bool.and_eq_true, contains_iff_mem, mem_sliceIDs known, decide_eq_true_eq]
  tauto

lemma slicedGraph_closed (opts) (relevance : String → R) :
    Closed (slicedGraph g target opts relevance) := by
  constructor
  · rw [slicedGraph_ids known]
    exact (sortBy_perm _ _).nodup_iff.mpr (nodup_sliceIDs known)
  · intro e mem
    rw [slicedGraph_ids known, mem_sortBy, mem_sliceIDs known]
    exact ((mem_slicedGraph_edges known).mp mem).2.2.1
  · intro e mem
    rw [slicedGraph_ids known, mem_sortBy, mem_sliceIDs known]
    exact ((mem_slicedGraph_edges known).mp mem).2.2.2

lemma downstream_slicedGraph (ho : u ≠ target) :
    Downstream (above (nodeIDs (slicedGraph g target opts relevance)) target)
        (Enables (slicedGraph g target opts relevance).edges) u ↔
      Downstream { y | Chosen g target opts relevance y ∧ target < y } (Enables g.edges) u := by
  have hi {y} : y ∈ nodeIDs (slicedGraph g target opts relevance) ↔
      Chosen g target opts relevance y := by
    rw [mem_nodeIDs, slicedGraph_ids known, mem_sortBy, mem_sliceIDs known]
  have sink (b : String) : ¬ Enables (slicedGraph g target opts relevance).edges target b := by
    rintro ⟨e, mem, s0, -⟩
    exact ((mem_slicedGraph_edges known).mp mem).2.1 s0
  rw [downstream_erase sink ho]
  refine iff_of_eq (congrArg (fun E => ∃ w, Relation.TransGen E w w ∧ Relation.ReflTransGen E w u)
    (funext₂ fun a b => propext ?_))
  constructor
  · rintro ⟨⟨⟨her, lowA⟩, offA⟩, ⟨⟨her0, lowB⟩, offB⟩, e, mem, ends⟩
    exact ⟨⟨hi.mp her, lt_of_le_of_ne lowA (Ne.symm offA)⟩,
      ⟨hi.mp her0, lt_of_le_of_ne lowB (Ne.symm offB)⟩,
      e, ((mem_slicedGraph_edges known).mp mem).1, ends⟩
  · rintro ⟨⟨cho0, hig⟩, ⟨cho, hig0⟩, e, mem, rfl, rfl⟩
    exact ⟨⟨⟨hi.mpr cho0, hig.le⟩, hig.ne'⟩, ⟨⟨hi.mpr cho, hig0.le⟩, hig0.ne'⟩,
      e, (mem_slicedGraph_edges known).mpr ⟨mem, hig.ne', cho0, cho⟩, rfl, rfl⟩

end

/-- The slice keeps the edges into its target exactly if the target is a node and no chosen node
with an edge into it is behind a cycle of chosen nodes with ids above that of the target. -/
theorem keepsTargetEdges_iff (g : AttackGraph) (target : String) (opts : SliceOptions)
    (relevance : String → R) :
    KeepsTargetEdges g target opts relevance (extractBoundedSlice g target opts relevance) ↔
      target ∈ g.nodes.map AttackGraphNode.id ∧
      ∀ e ∈ g.edges, e.toID = target → e.fromID ≠ target → Chosen g target opts relevance e.fromID →
        ¬ Downstream { y | Chosen g target opts relevance y ∧ target < y } (Enables g.edges)
          e.fromID := by
  rw [extractBoundedSlice]
  split
  · rename_i hf
    have known := nodeByID_isSome.mp hf
    have hcl := slicedGraph_closed known opts relevance
    have hcho : Chosen g target opts relevance target :=
      ⟨target_candidate g target opts.maxDepth, .inr (.inr (.inl rfl))⟩
    have kp {e} (mem : e ∈ g.edges) (stop : e.toID = target)
        (ho : e.fromID ≠ target) (s0 : Chosen g target opts relevance e.fromID) :
        e ∈ (breakCycles (slicedGraph g target opts relevance)).edges ↔
          ¬ Downstream { y | Chosen g target opts relevance y ∧ target < y } (Enables g.edges)
            e.fromID := by
      have hh :=
        (mem_slicedGraph_edges known).mpr ⟨mem, ho, s0, stop ▸ hcho⟩
      rw [mem_breakCycles_edges, hcl.forward_iff hh, stop, downstream_slicedGraph known ho]
      exact and_iff_right hh
    constructor
    · intro hkp
      exact ⟨known, fun e mem stop ho s0 =>
        (kp mem stop ho s0).mp (hkp.into e mem stop ho s0)⟩
    · rintro ⟨-, free⟩
      have ids {v} : v ∈ (breakCycles (slicedGraph g target opts relevance)).nodes.map
          AttackGraphNode.id ↔ Chosen g target opts relevance v := by
        rw [breakCycles_ids, mem_nodeIDs, slicedGraph_ids known, mem_sortBy, mem_sliceIDs known]
      exact {
        acyclic := breakCycles_acyclic _
        unique := by
          rw [breakCycles_ids]
          exact (sortBy_perm _ _).nodup_iff.mpr hcl.unique
        holds := ids.mpr hcho
        nodes := fun v => ids
        into := fun e mem stop ho s0 =>
          (kp mem stop ho s0).mpr (free e mem stop ho s0) }
  · rename_i hmis
    rw [nodeByID_isSome] at hmis
    constructor
    · intro hkp
      exact absurd hkp.holds (by simp)
    · intro known
      exact absurd known.1 hmis

end

/-- The slice of a node that a cycle of larger ids leads to loses the edge into it. -/
theorem keepsTargetEdges_tail : ¬ KeepsTargetEdges tailGraph "a" ⟨0, 0⟩ (fun _ => (0 : Int))
    (extractBoundedSlice tailGraph "a" ⟨0, 0⟩ fun _ => (0 : Int)) := by
  intro hkp
  have edge : (⟨"enables", "b", "a"⟩ : InfraEdge) ∈ tailGraph.edges := by decide
  have hcho : Chosen tailGraph "a" ⟨0, 0⟩ (fun _ => (0 : Int)) "b" :=
    ⟨⟨1, .back .here edge (by decide), .inl (by decide)⟩, .inl (by decide)⟩
  have kp := hkp.into _ edge rfl (by decide) hcho
  exact absurd kp (by decide)

end Gibson.Belief
