import Mathlib.Data.Prod.Lex
import Gibson.Lib.Elimination
import Gibson.Lib.Rows
import Gibson.Brain.Component

/-! The cut that makes an attack graph acyclic: an edge is kept where the potential goes up, the
place of a node in an elimination of the graph. -/

namespace Gibson.Belief

open List Rows Brain Elimination Function Relation Option

def edgeKey (e : InfraEdge) : String ×ₗ String ×ₗ String :=
  toLex (e.fromID, toLex (e.toID, e.type))

def sortEdges (edges : List InfraEdge) : List InfraEdge := sortBy edgeKey edges

def inDegrees (edges : List InfraEdge) (id : String) : Int := edges.countP (·.toID == id)

def outNeighbours (edges : List InfraEdge) (id : String) : List String :=
  sortBy (fun s => s) ((edges.filter (·.fromID == id)).map InfraEdge.toID)

/-- The loop variables of `assignTopologicalPotential`. A node without a potential reads zero. -/
structure TopoState where
  inDegree : String → Int
  processed : List String := []
  potential : String → Nat := fun _ => 0
  next : Nat := 0

/-- The smallest node that no remaining edge enters, or the smallest remaining node. The empty
string stands for no pick. -/
def pickNext (ids : List String) (st : TopoState) : String :=
  let ready := (ids.find? fun id => !st.processed.contains id && st.inDegree id == 0).getD ""
  if ready = "" then (ids.find? fun id => !st.processed.contains id).getD "" else ready

def relax (processed : List String) (d : String → Int) (target : String) : String → Int :=
  if processed.contains target then d else update d target (d target - 1)

def topoStep (ids : List String) (out : String → List String) (st : TopoState) : TopoState :=
  let pick := pickNext ids st
  let processed := st.processed ++ [pick]
  { inDegree := (out pick).foldl (relax processed) st.inDegree
    processed
    potential := update st.potential pick st.next
    next := st.next + 1 }

def topoLoop (ids : List String) (out : String → List String) : Nat → TopoState → TopoState
  | 0, st => st
  | k + 1, st =>
    if st.processed.length < ids.length then topoLoop ids out k (topoStep ids out st) else st

def assignTopologicalPotential (ids : List String) (edges : List InfraEdge) : String → Nat :=
  (topoLoop ids (outNeighbours edges) ids.length { inDegree := inDegrees edges }).potential

def nodeIDs (g : AttackGraph) : List String := sortBy (fun s => s) (g.nodes.map AttackGraphNode.id)

def nodeByID (g : AttackGraph) (id : String) : Option AttackGraphNode :=
  g.nodes.reverse.find? (·.id == id)

def isForward (potential : String → Nat) (e : InfraEdge) : Bool :=
  decide (potential e.fromID < potential e.toID)

def potentialOf (g : AttackGraph) : String → Nat := assignTopologicalPotential (nodeIDs g) g.edges

def breakCycles (g : AttackGraph) : AttackGraph :=
  let potential := potentialOf g
  { nodes := (nodeIDs g).filterMap fun id =>
      (nodeByID g id).map fun n => { n with potential := potential id }
    edges := sortEdges (g.edges.filter (isForward potential))
    dropped := sortEdges (g.dropped ++ g.edges.filter fun e => !isForward potential e) }

/-- `v` is the end of an edge that starts at `u`. -/
def Enables (edges : List InfraEdge) (u v : String) : Prop :=
  ∃ e ∈ edges, e.fromID = u ∧ e.toID = v

lemma eq_empty_of_le (h : s ≤ "") : s = "" := by
  refine le_antisymm h (not_lt.mp fun hbe => ?_)
  exact not_lt_nil _ (String.lt_iff_toList_lt.mp hbe)

section
variable {ids : List String} {edges : List InfraEdge} {st : TopoState}

lemma find?_sorted_le (hsr : ids.Pairwise (· ≤ ·)) {p : String → Bool}
    (hf : ids.find? p = some x) (mem : y ∈ ids) (has : p y = true) : x ≤ y := by
  induction ids with
  | nil => simp at mem
  | cons z rs ih =>
    rw [pairwise_cons] at hsr
    rw [find?_cons] at hf
    split at hf
    · obtain rfl : z = x := by simpa using hf
      rcases mem_cons.mp mem with rfl | later
      · exact le_refl _
      · exact hsr.1 y later
    · rename_i hz
      have ho : y ≠ z := fun hs => by simp [← hs, has] at hz
      exact ih hsr.2 hf ((mem_cons.mp mem).resolve_left ho)

lemma pickNext_spec (st) (hsr : ids.Pairwise (· ≤ ·)) (mem : y ∈ ids) (hle : y ∉ st.processed) :
    pickNext ids st ∈ ids ∧ pickNext ids st ∉ st.processed ∧
      (st.inDegree (pickNext ids st) = 0 ∨ (∀ z ∈ ids, z ∉ st.processed → st.inDegree z ≠ 0) ∧
          ∀ z ∈ ids, z ∉ st.processed → pickNext ids st ≤ z) := by
  obtain ⟨f, h1⟩ : ∃ f, ids.find? (fun id => !st.processed.contains id) = some f := by
    rw [← isSome_iff_exists, find?_isSome]
    exact ⟨y, mem, by simpa using hle⟩
  have fMem := mem_of_find?_eq_some h1
  have fLe : f ∉ st.processed := by simpa using find?_some h1
  have lea (z : String) (hi : z ∈ ids) (hrms : z ∉ st.processed) : f ≤ z :=
    find?_sorted_le hsr h1 hi (by simpa using hrms)
  unfold pickNext
  cases hry : ids.find? (fun id => !st.processed.contains id && st.inDegree id == 0) with
  | none =>
    rw [find?_eq_none] at hry
    simp only [getD_none, if_true, h1, getD_some]
    refine ⟨fMem, fLe, .inr ⟨fun z hi hrms zero => ?_, lea⟩⟩
    exact hry z hi (by simp [hrms, zero])
  | some r =>
    have rMem := mem_of_find?_eq_some hry
    obtain ⟨rLe, rZe⟩ : r ∉ st.processed ∧ st.inDegree r = 0 := by
      simpa using find?_some hry
    simp only [getD_some, h1]
    split
    · -- The empty string is ready, and being the least of all it is found again.
      rename_i hem
      have hs : f = r := by
        have hbe := lea r rMem rLe
        rw [hem] at hbe
        rw [hem, eq_empty_of_le hbe]
      rw [hs]
      exact ⟨rMem, rLe, .inl rZe⟩
    · exact ⟨rMem, rLe, .inl rZe⟩

variable (edges st) in
def Tracks : Prop :=
  ∀ id ∉ st.processed,
    st.inDegree id = edges.countP fun e => e.toID == id && !st.processed.contains e.fromID

lemma foldl_relax (processed) (tgs : List String) (d : String → Int)
    {id} (hle : id ∉ processed) :
    tgs.foldl (relax processed) d id = d id - tgs.count id := by
  induction tgs generalizing d with
  | nil => simp
  | cons t rs ih =>
    rw [foldl_cons, ih, relax]
    by_cases hs : t = id
    · subst hs
      simp [hle]
      omega
    · rw [count_cons_of_ne hs]
      split
      · rfl
      · rw [update_of_ne (Ne.symm hs)]

lemma count_outNeighbours (edges id target) :
    (outNeighbours edges id).count target =
      edges.countP fun e => e.toID == target && e.fromID == id := by
  unfold outNeighbours
  rw [(sortBy_perm _ _).count_eq, count, countP_map, countP_filter]
  rfl

lemma topoStep_tracks (hle : pickNext ids st ∉ st.processed) (htrk : Tracks edges st) :
    Tracks edges (topoStep ids (outNeighbours edges) st) := by
  intro id hrms
  have both : id ∉ st.processed ∧ id ≠ pickNext ids st := by simpa [topoStep] using hrms
  have hb := htrk id both.1
  simp only [topoStep] at hrms ⊢
  rw [foldl_relax _ _ _ hrms, hb, count_outNeighbours]
  -- An edge from a node that remained starts at the pick or at a node that still remains.
  have split : edges.countP (fun e => e.toID == id && !st.processed.contains e.fromID) =
      edges.countP (fun e => e.toID == id && e.fromID == pickNext ids st) + edges.countP fun e =>
          e.toID == id && !(st.processed ++ [pickNext ids st]).contains e.fromID := by
    clear hb hrms htrk
    induction edges with
    | nil => rfl
    | cons e rs ih =>
      simp only [countP_cons, ih]
      by_cases hh : e.fromID = pickNext ids st
      · simp [hh, hle]
        omega
      · simp [hh]
        omega
  omega

end

lemma topoStep_other (ids) (out : String → List String) (st) :
    (topoStep ids out st).processed = st.processed ++ [pickNext ids st] ∧
    (topoStep ids out st).potential = update st.potential (pickNext ids st) st.next ∧
    (topoStep ids out st).next = st.next + 1 := ⟨rfl, rfl, rfl⟩

lemma mem_rest_iff {hdn rs : List String} (hun : ids.Nodup)
    (split : (hdn ++ rs).Perm ids) (z) : z ∈ rs ↔ z ∈ ids ∧ z ∉ hdn := by
  have hpt := (nodup_append.mp (split.nodup_iff.mpr hun)).2.2
  rw [← split.mem_iff, mem_append]
  constructor
  · exact fun hi => ⟨.inr hi, fun hb => hpt z hb z hi rfl⟩
  · exact fun ⟨eit, hle⟩ => eit.resolve_left hle

lemma Tracks.eq_zero_iff (htrk : Tracks edges st) {id} (hle : id ∉ st.processed) :
    st.inDegree id = 0 ↔ ∀ u ∉ st.processed, ¬ Enables edges u id := by
  rw [htrk id hle, Int.natCast_eq_zero, countP_eq_zero]
  simp only [Enables, not_exists, not_and, Bool.and_eq_true, beq_iff_eq, Bool.not_eq_true',
    contains_eq_mem, decide_eq_false_iff_not, not_not]
  constructor
  · rintro none u hrms e mem rfl tg
    exact hrms (none e mem tg)
  intro none e mem tg
  by_contra hrms
  exact none _ hrms e mem rfl tg

lemma topoLoop_picks (hsr : ids.Pairwise (· ≤ ·)) (hun : ids.Nodup)
    (hcl : ∀ e ∈ edges, e.fromID ∈ ids) (k : Nat) (st) {rs : List String}
    (split : (st.processed ++ rs).Perm ids) (ct : rs.length = k) (htrk : Tracks edges st) :
    ∃ hpk, hpk.Perm rs ∧ Picks (Enables edges) hpk ∧
      (∀ id ∈ hpk, (topoLoop ids (outNeighbours edges) k st).potential id =
        st.next + hpk.idxOf id) ∧
      ∀ id ∉ hpk, (topoLoop ids (outNeighbours edges) k st).potential id = st.potential id := by
  induction k generalizing st rs with
  | zero =>
    obtain rfl := length_eq_zero_iff.mp ct
    exact ⟨[], .refl _, trivial, by simp, fun _ _ => rfl⟩
  | succ k ih =>
    have hpt := mem_rest_iff hun split
    obtain ⟨y, hi⟩ : ∃ y, y ∈ rs := exists_mem_of_length_pos (by omega)
    obtain ⟨xMem, xLe, hcho⟩ :=
      pickNext_spec st hsr ((hpt y).mp hi).1 ((hpt y).mp hi).2
    have hh : pickNext ids st ∈ rs := (hpt _).mpr ⟨xMem, xLe⟩
    have more : st.processed.length < ids.length := by
      rw [← split.length_eq, length_append]
      omega
    have nx := topoStep_other ids (outNeighbours edges) st
    have ha := topoStep_tracks xLe htrk
    rw [topoLoop, if_pos more]
    generalize pickNext ids st = x at *
    generalize topoStep ids (outNeighbours edges) st = st' at *
    obtain ⟨pro, pot, number⟩ := nx
    have sp' : (st'.processed ++ rs.erase x).Perm ids := by
      rw [pro, append_assoc]
      exact ((perm_cons_erase hh).symm.append_left _).trans split
    have uni' := sp'.nodup_iff.mpr hun
    obtain ⟨hpk, perm, hor, num, frame⟩ := ih st' sp'
      (by rw [length_erase_of_mem hh]; omega) ha
    have all : (x :: hpk).Perm rs := (perm.cons x).trans (perm_cons_erase hh).symm
    have hfr : x ∉ hpk := by
      have hdn : x ∈ st'.processed := by simp [pro]
      exact fun hag => (nodup_append.mp uni').2.2 x hdn x (perm.mem_iff.mp hag) rfl
    refine ⟨x :: hpk, all, ⟨?_, hor⟩, fun id mem => ?_, fun id out => ?_⟩
    · have hrms {z} (mem : z ∈ x :: hpk) : z ∉ st.processed :=
        ((hpt z).mp (all.mem_iff.mp mem)).2
      rcases hcho with hry | ⟨none, lea⟩
      · exact .inl fun u mem => (htrk.eq_zero_iff xLe).mp hry u (hrms mem)
      refine .inr ⟨fun z mem => ?_, fun z mem =>
        lea z ((hpt z).mp (all.mem_iff.mp mem)).1 (hrms mem)⟩
      have ws := none z ((hpt z).mp (all.mem_iff.mp mem)).1 (hrms mem)
      rw [Ne, htrk.eq_zero_iff (hrms mem)] at ws
      push Not at ws
      obtain ⟨u, hle, e, hl, rfl, tg⟩ := ws
      have hbk : e.fromID ∈ rs := (hpt _).mpr ⟨hcl e hl, hle⟩
      exact ⟨e.fromID, all.mem_iff.mpr hbk, e, hl, rfl, tg⟩
    · rcases mem_cons.mp mem with rfl | later
      · rw [frame _ hfr, pot, update_self, idxOf_cons_self, Nat.add_zero]
      have ho : x ≠ id := fun hs => hfr (hs ▸ later)
      rw [num id later, number, idxOf_cons_ne _ ho]
      omega
    · rw [mem_cons, not_or] at out
      rw [frame id out.2, pot, update_of_ne out.1]

lemma assignTopologicalPotential_spec (hsr : ids.Pairwise (· ≤ ·)) (hun : ids.Nodup)
    (hcl : ∀ e ∈ edges, e.fromID ∈ ids) :
    ∃ hpk, hpk.Perm ids ∧ Picks (Enables edges) hpk ∧
      ∀ id ∈ ids, assignTopologicalPotential ids edges id = hpk.idxOf id := by
  obtain ⟨hpk, perm, hor, num, -⟩ := topoLoop_picks hsr hun hcl ids.length
    { inDegree := inDegrees edges } (.refl ids) rfl fun id _ => by simp [inDegrees]
  refine ⟨hpk, perm, hor, fun id mem => ?_⟩
  rw [assignTopologicalPotential, num id (perm.mem_iff.mpr mem), Nat.zero_add]

/-- What the source asks of a graph: the ids are distinct, and the edges join nodes. -/
structure Closed (g : AttackGraph) : Prop where
  unique : (g.nodes.map AttackGraphNode.id).Nodup
  starts : ∀ e ∈ g.edges, e.fromID ∈ g.nodes.map AttackGraphNode.id
  ends : ∀ e ∈ g.edges, e.toID ∈ g.nodes.map AttackGraphNode.id

variable {g : AttackGraph} {id : String}

@[simp] lemma mem_nodeIDs : id ∈ nodeIDs g ↔ id ∈ g.nodes.map AttackGraphNode.id := mem_sortBy
variable {e : InfraEdge}

@[simp] lemma isForward_iff {pot : String → Nat} :
    isForward pot e = true ↔ pot e.fromID < pot e.toID := decide_eq_true_iff

lemma mem_breakCycles_edges :
    e ∈ (breakCycles g).edges ↔ e ∈ g.edges ∧ isForward (potentialOf g) e = true := by
  rw [breakCycles, sortEdges, mem_sortBy, mem_filter]

lemma Closed.forward_iff (hcl : Closed g) (mem : e ∈ g.edges) :
    isForward (potentialOf g) e = true ↔
      ¬ Downstream (above (nodeIDs g) e.toID) (Enables g.edges) e.fromID := by
  have s0 : e.fromID ∈ nodeIDs g := mem_nodeIDs.mpr (hcl.starts e mem)
  have stop : e.toID ∈ nodeIDs g := mem_nodeIDs.mpr (hcl.ends e mem)
  obtain ⟨hpk, perm, hor, pl⟩ :=
    assignTopologicalPotential_spec (show (nodeIDs g).Pairwise _ from pairwise_sortBy _ _)
      ((sortBy_perm _ _).nodup_iff.mpr hcl.unique)
      fun e mem => mem_nodeIDs.mpr (hcl.starts e mem)
  have hs : above hpk e.toID = above (nodeIDs g) e.toID := by
    ext y
    exact and_congr_left' perm.mem_iff
  rw [isForward_iff, potentialOf, pl _ s0, pl _ stop, ← not_le,
    hor.turned_iff (perm.mem_iff.mpr s0) (perm.mem_iff.mpr stop) ⟨e, mem, rfl, rfl⟩, hs]

lemma breakCycles_acyclic (g v) : ¬ TransGen (Enables (breakCycles g).edges) v v := by
  have up {u w : String} (pth : TransGen (Enables (breakCycles g).edges) u w) :
      potentialOf g u < potentialOf g w := by
    induction pth with
    | single edge =>
      obtain ⟨e, mem, rfl, rfl⟩ := edge
      exact isForward_iff.mp (mem_breakCycles_edges.mp mem).2
    | tail _ edge ih =>
      obtain ⟨e, mem, rfl, rfl⟩ := edge
      exact ih.trans (isForward_iff.mp (mem_breakCycles_edges.mp mem).2)
  exact fun cyc => lt_irrefl _ (up cyc)

lemma breakCycles_perm (g) :
    ((breakCycles g).edges ++ (breakCycles g).dropped).Perm (g.edges ++ g.dropped) := by
  have kp := sortBy_perm edgeKey (g.edges.filter (isForward (potentialOf g)))
  have cut := sortBy_perm edgeKey (g.dropped ++ g.edges.filter fun e => !isForward (potentialOf g) e)
  refine (kp.append cut).trans ?_
  refine (perm_append_comm_assoc _ _ _).trans ?_
  refine ((filter_append_perm _ g.edges).append_left _).trans ?_
  exact perm_append_comm

lemma nodeByID_isSome : (nodeByID g id).isSome = true ↔ id ∈ g.nodes.map AttackGraphNode.id := by
  rw [nodeByID, find?_isSome]
  simp

lemma nodeByID_id (hf : nodeByID g id = some n) : n.id = id := by
  simpa using find?_some hf

lemma map_id_filterMap {ids : List String} {node : String → Option AttackGraphNode}
    (hf : ∀ id ∈ ids, ∃ n, node id = some n ∧ n.id = id) :
    (ids.filterMap node).map AttackGraphNode.id = ids := by
  induction ids with
  | nil => rfl
  | cons id rs ih =>
    obtain ⟨n, hh, hs⟩ := hf id mem_cons_self
    rw [filterMap_cons_some hh, map_cons, hs, ih fun id mem => hf id (mem_cons_of_mem _ mem)]

lemma breakCycles_ids (g) : (breakCycles g).nodes.map AttackGraphNode.id = nodeIDs g := by
  refine map_id_filterMap fun id mem => ?_
  obtain ⟨n, hf⟩ := isSome_iff_exists.mp (nodeByID_isSome.mpr (mem_nodeIDs.mp mem))
  refine ⟨{ n with potential := potentialOf g id }, ?_, (nodeByID_id hf :)⟩
  rw [hf, map_some]

lemma edgeKey_injective : Function.Injective edgeKey := by
  rintro ⟨type, s0, stop⟩ ⟨typ', sta', sto'⟩ hs
  simp only [edgeKey, toLex_inj, Prod.mk.injEq] at hs
  simp [hs]

lemma assignTopologicalPotential_perm (ids) (perm : edges.Perm edges') :
    assignTopologicalPotential ids edges = assignTopologicalPotential ids edges' := by
  have deg : inDegrees edges = inDegrees edges' := by
    funext id
    simp only [inDegrees, perm.countP_eq]
  have out : outNeighbours edges = outNeighbours edges' := by
    funext id
    exact sortBy_eq_of_perm injective_id ((perm.filter _).map _)
  simp only [assignTopologicalPotential, deg, out]

lemma breakCycles_of_perm (hun : (g.nodes.map AttackGraphNode.id).Nodup)
    (ns : g'.nodes.Perm g.nodes) (edges : g'.edges.Perm g.edges)
    (hdr : g'.dropped.Perm g.dropped) : breakCycles g' = breakCycles g := by
  have ids : nodeIDs g' = nodeIDs g := sortBy_eq_of_perm injective_id (ns.map _)
  have node : nodeByID g' = nodeByID g := by
    funext id
    have flip :=
      (reverse_perm _).trans (ns.trans (reverse_perm _).symm)
    have uni' : (g.nodes.reverse.map AttackGraphNode.id).Nodup := by
      rwa [map_reverse, nodup_reverse]
    exact find?_key_of_perm uni' flip id
  have pot : potentialOf g' = potentialOf g := by
    rw [potentialOf, potentialOf, ids, assignTopologicalPotential_perm _ edges]
  have kp := sortBy_eq_of_perm edgeKey_injective (edges.filter (isForward (potentialOf g)))
  have cut := sortBy_eq_of_perm edgeKey_injective
    (hdr.append (edges.filter fun e => !isForward (potentialOf g) e))
  simp only [breakCycles, sortEdges, ids, node, pot, kp, cut]

/-- A cut loses no edge, leaves no cycle, does not depend on the order of its input, and takes only
edges that lie on a cycle. -/
structure MinimalCut (g : AttackGraph) : Prop where
  partition : ((breakCycles g).edges ++ (breakCycles g).dropped).Perm (g.edges ++ g.dropped)
  acyclic : ∀ v, ¬ TransGen (Enables (breakCycles g).edges) v v
  stable : ∀ g' : AttackGraph, g'.nodes.Perm g.nodes → g'.edges.Perm g.edges →
    g'.dropped.Perm g.dropped → breakCycles g' = breakCycles g
  onCycle : ∀ e ∈ g.edges, e ∉ (breakCycles g).edges →
    ReflTransGen (Enables g.edges) e.toID e.fromID

/-- The cut takes only edges on cycles exactly if every edge that starts behind a cycle of nodes
whose ids are not below its end lies on a cycle itself. -/
theorem minimalCut_iff (g : AttackGraph) (closed : Closed g) : MinimalCut g ↔ ∀ e ∈ g.edges,
      Downstream (above (nodeIDs g) e.toID) (Enables g.edges) e.fromID →
        Relation.ReflTransGen (Enables g.edges) e.toID e.fromID := by
  have cut {e} (mem : e ∈ g.edges) : e ∉ (breakCycles g).edges ↔
      Downstream (above (nodeIDs g) e.toID) (Enables g.edges) e.fromID := by
    rw [mem_breakCycles_edges, closed.forward_iff mem]
    tauto
  constructor
  · intro min e mem beh
    exact min.onCycle e mem ((cut mem).mpr beh)
  intro onCycle
  exact {
    partition := breakCycles_perm g
    acyclic := breakCycles_acyclic g
    stable := fun _ => breakCycles_of_perm closed.unique
    onCycle := fun e mem hgn => onCycle e mem ((cut mem).mp hgn) }

lemma Closed.breakCycles (hcl : Closed g) : Closed (breakCycles g) := by
  have ids := breakCycles_ids g
  refine ⟨?_, fun e mem => ?_, fun e mem => ?_⟩
  · rw [ids]
    exact (sortBy_perm _ _).nodup_iff.mpr hcl.unique
  · rw [ids, mem_nodeIDs]
    exact hcl.starts e (mem_breakCycles_edges.mp mem).1
  · rw [ids, mem_nodeIDs]
    exact hcl.ends e (mem_breakCycles_edges.mp mem).1

lemma Closed.all_forward (hcl : Closed g) (hacy : ∀ v, ¬TransGen (Enables g.edges) v v)
    (e) (mem : e ∈ g.edges) : isForward (potentialOf g) e = true := by
  rw [hcl.forward_iff mem]
  rintro ⟨w, cyc, -⟩
  exact hacy w (TransGen.mono (fun _ _ hwi => hwi.2.2) _ _ cyc)

/-- Nothing is cut exactly if the graph has no cycle, so that to break the cycles of a graph twice
is to break them once. -/
theorem breakCycles_keeps_iff (closed : Closed g) :
    ((breakCycles g).edges.Perm g.edges ↔ ∀ v, ¬TransGen (Enables g.edges) v v) ∧
      (breakCycles (breakCycles g)).edges = (breakCycles g).edges ∧
      (breakCycles (breakCycles g)).dropped = (breakCycles g).dropped := by
  have hag := closed.breakCycles.all_forward (breakCycles_acyclic g)
  refine ⟨⟨fun perm v cyc => ?_, fun hacy => ?_⟩, ?_, ?_⟩
  · refine breakCycles_acyclic g v (TransGen.mono ?_ _ _ cyc)
    rintro u w ⟨e, mem, ends⟩
    exact ⟨e, perm.mem_iff.mpr mem, ends⟩
  · refine (sortBy_perm _ _).trans ?_
    rw [filter_eq_self.mpr (closed.all_forward hacy)]
  · refine (congrArg sortEdges (filter_eq_self.mpr hag)).trans ?_
    exact sortBy_of_pairwise (pairwise_sortBy _ _)
  · have none : ((breakCycles g).edges.filter
        fun e => !isForward (potentialOf (breakCycles g)) e) = [] :=
      filter_eq_nil_iff.mpr fun e mem => by simp [hag e mem]
    refine (congrArg (fun cut => sortEdges ((breakCycles g).dropped ++ cut)) none).trans ?_
    rw [append_nil]
    exact sortBy_of_pairwise (pairwise_sortBy _ _)

def loopGraph : AttackGraph where
  nodes := [⟨"b", "host", [], 0⟩, ⟨"a", "host", [], 0⟩]
  edges := [⟨"enables", "a", "b"⟩, ⟨"enables", "b", "a"⟩]
  dropped := []

theorem minimalCut_loop : Closed loopGraph ∧ MinimalCut loopGraph := by
  have hcl : Closed loopGraph := ⟨by decide, by decide, by decide⟩
  refine ⟨hcl, (minimalCut_iff loopGraph hcl).mpr ?_⟩
  have ht : Enables loopGraph.edges "a" "b" := ⟨_, .head _, rfl, rfl⟩
  have hbk : Enables loopGraph.edges "b" "a" := ⟨_, .tail _ (.head _), rfl, rfl⟩
  rintro e mem -
  simp only [loopGraph, mem_cons, not_mem_nil, or_false] at mem
  rcases mem with rfl | rfl
  · exact .single hbk
  · exact .single ht

theorem breakCycles_keeps_loop :
    Closed loopGraph ∧ ¬(breakCycles loopGraph).edges.Perm loopGraph.edges := by
  have hcl : Closed loopGraph := ⟨by decide, by decide, by decide⟩
  refine ⟨hcl, fun perm => (breakCycles_keeps_iff hcl).1.mp perm "a" ?_⟩
  exact .head ⟨_, .head _, rfl, rfl⟩ (.single ⟨_, .tail _ (.head _), rfl, rfl⟩)

def tailGraph : AttackGraph where
  nodes := [⟨"a", "host", [], 0⟩, ⟨"b", "host", [], 0⟩, ⟨"c", "host", [], 0⟩]
  edges := [⟨"enables", "b", "c"⟩, ⟨"enables", "c", "b"⟩, ⟨"enables", "b", "a"⟩]
  dropped := []

/-- The edge that leaves the cycle is cut, since its end has the smallest id. -/
theorem minimalCut_tail : Closed tailGraph ∧ ¬ MinimalCut tailGraph := by
  refine ⟨⟨by decide, by decide, by decide⟩, fun minimal => ?_⟩
  have pth := minimal.onCycle ⟨"enables", "b", "a"⟩ (by decide) (by decide)
  rcases ReflTransGen.cases_head pth with hs | ⟨_, ⟨e, mem, s0, -⟩, -⟩
  · exact absurd hs (by decide)
  · have none : ∀ e ∈ tailGraph.edges, e.fromID ≠ "a" := by decide
    exact none e mem s0

end Gibson.Belief
