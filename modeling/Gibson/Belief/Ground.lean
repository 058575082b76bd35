import Gibson.Lib.Split
import Gibson.Belief.NoisyOr

/-! The ground factors of a slice. Nodes and causes are sorted, so that their order in the call does
not count; causes with one source stay in some order. -/

namespace Gibson.Belief

open List Rows

def groundSeparator : String := "::"

def groundName (nodeID var : String) : Except String String :=
  let marked (s : String) := Split.contains groundSeparator.toList s.toList
  let text := "\" must not contain \"" ++ groundSeparator ++ "\""
  if marked nodeID then .error ("beliefvi: node id \"" ++ nodeID ++ text)
  else if marked var then .error ("beliefvi: variable name \"" ++ var ++ text)
  else .ok (nodeID ++ groundSeparator ++ var)

/-- A noisy-OR with weighted parents. -/
structure VariableSpec where
  dependsOn : List (String × ℚ)
  leak : ℚ

/-- Its maps are lists in the order of the keys, the only one they are read in. -/
structure NodeSpec where
  nodeID : String
  vars : List (String × VariableSpec)

/-- Source and target are a node id and a variable name each. -/
structure EnablementCause where
  source : String ×ₗ String
  target : String × String
  strength : ℚ

/-- What `sort.Slice` promises: rows with the same key come out in any order. -/
structure SortSlice where
  sort {α κ : Type} [LinearOrder κ] : (α → κ) → List α → List α
  spec {α κ : Type} [LinearOrder κ] (key : α → κ) (rows) :
    (sort key rows).Perm rows ∧ (sort key rows).Pairwise fun a b => key a ≤ key b

/-- A loop that appends what each round builds, up to the first error. -/
def appendEach {α β : Type} (f : α → Except String (List β)) : List α → Except String (List β)
  | [] => pure []
  | a :: rest => do
    let built ← f a
    pure (built ++ (← appendEach f rest))

section
variable (sorts : SortSlice) (nodes : List NodeSpec) (enablement : List EnablementCause)

def byTarget (target : String × String) : List EnablementCause :=
  sorts.sort EnablementCause.source (enablement.filter (·.target = target))

def groundVariable (nodeID : String) (entry : String × VariableSpec) :
    Except String (List Factor) := do
  let gname ← groundName nodeID entry.1
  let own ← appendEach (fun (dep, strength) => do pure [⟨← groundName nodeID dep, strength⟩])
    entry.2.dependsOn
  let enabled ← appendEach (fun c => do pure [⟨← groundName c.source.1 c.source.2, c.strength⟩])
    (byTarget sorts enablement (nodeID, entry.1))
  noisyOrFactors gname (own ++ enabled) entry.2.leak

def groundNode (node : NodeSpec) : Except String (List Factor) :=
  appendEach (groundVariable sorts enablement node.nodeID) node.vars

def groundSlice : Except String (List Factor) :=
  appendEach (groundNode sorts enablement) (sorts.sort NodeSpec.nodeID nodes)

end

/-- Causes of a declared variable with one source, and nodes with one id, are the same. -/
structure Untied (nodes : List NodeSpec) (enablement : List EnablementCause) : Prop where
  causes : ∀ n ∈ nodes, ∀ v ∈ n.vars, ∀ c ∈ enablement, ∀ d ∈ enablement,
    c.target = (n.nodeID, v.1) → d.target = c.target → c.source = d.source → c = d
  nodes : ∀ n ∈ nodes, ∀ m ∈ nodes, n.nodeID = m.nodeID → n = m

variable {α β κ : Type} {sorts : SortSlice} {nodes nodes' : List NodeSpec}
  {enablement enablement' : List EnablementCause}

lemma appendEach_congr {f g : α → Except String (List β)} {rw0 : List α}
    (hs : ∀ a ∈ rw0, f a = g a) : appendEach f rw0 = appendEach g rw0 := by
  induction rw0 with
  | nil => rfl
  | cons a rs ih =>
    rw [forall_mem_cons] at hs
    rw [appendEach, appendEach, hs.1, ih hs.2]

lemma SortSlice.sort_eq [LinearOrder κ] {key : α → κ} {rw0 row' : List α}
    (perm : row'.Perm rw0) (ties : ∀ a ∈ rw0, ∀ b ∈ rw0, key a = key b → a = b) :
    sorts.sort key row' = sorts.sort key rw0 := by
  obtain ⟨hs, hsr⟩ := sorts.spec key rw0
  obtain ⟨sam', sor'⟩ := sorts.spec key row'
  refine ((sam'.trans perm).trans hs.symm).eq_of_pairwise ?_ sor' hsr
  intro a b hle right le ge
  exact ties a (perm.mem_iff.mp (sam'.mem_iff.mp hle)) b (hs.mem_iff.mp right)
    (le_antisymm le ge)

/-- Any listing of an untied slice grounds to the same factors, or fails with the same error. -/
theorem groundSlice_order_free (sorts : SortSlice) (untied : Untied nodes enablement)
    (listed : nodes'.Perm nodes) (caused : enablement'.Perm enablement) :
    groundSlice sorts nodes' enablement' = groundSlice sorts nodes enablement := by
  rw [groundSlice, groundSlice, SortSlice.sort_eq listed untied.nodes]
  refine appendEach_congr fun n mem => appendEach_congr fun v hdc => ?_
  have mem := (sorts.spec _ _).1.mem_iff.mp mem
  have hca : byTarget sorts enablement' (n.nodeID, v.1) =
      byTarget sorts enablement (n.nodeID, v.1) := by
    refine SortSlice.sort_eq (caused.filter _) fun c hle d right hs => ?_
    simp only [mem_filter, decide_eq_true_eq] at hle right
    exact untied.causes n mem v hdc c hle.1 d right.1 hle.2 (right.2.trans hle.2.symm) hs
  rw [groundVariable, groundVariable, hca]

/-- What `sort.Slice` is on short slices. -/
def SortSlice.insertion : SortSlice :=
  ⟨sortBy, fun key rows => ⟨sortBy_perm key rows, pairwise_sortBy key rows⟩⟩

def groundPair (first second : EnablementCause) : Except String (List Factor) :=
  groundSlice .insertion [⟨"b", [("y", ⟨[], 0⟩)]⟩] [first, second]

def causeFrom (node : String) (strength : ℚ) : EnablementCause :=
  ⟨toLex (node, "x"), ("b", "y"), strength⟩

theorem groundSlice_order_free_swap : groundPair (causeFrom "c" 1) (causeFrom "a" 0) =
    groundPair (causeFrom "a" 0) (causeFrom "c" 1) :=
  groundSlice_order_free _ ⟨by simp [causeFrom], by simp⟩ (.refl _) (.swap ..)

/-- Of two causes with one source, the one listed first is the first mechanism. -/
theorem groundSlice_keeps_order : groundPair (causeFrom "a" 1) (causeFrom "a" 0) ≠
    groundPair (causeFrom "a" 0) (causeFrom "a" 1) := by
  intro hs
  have ens := congrArg (fun r => r.toOption.map (·.map (·.table.getLastD 0))) hs
  exact absurd ens (by decide)

end Gibson.Belief
