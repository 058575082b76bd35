import Gibson.Mission.Projectable

/-! Which node ids count as the instances of a `for_each` node. -/

namespace Gibson.Mission

open Brain (StringMap)
open List Rows Loops

variable (all : StringMap MissionNode) (targets : List ForEachTarget)

def IsForEach (id : String) (tpl : MissionNode) : Prop :=
  ∃ n, all.lookup id = some n ∧ n.type = .forEach ∧ n.template = some tpl

def IsMade (m : String) : Prop :=
  ∃ id tpl, IsForEach all id tpl ∧ ∃ t ∈ targets, m = instanceID tpl.id t.id

def Apart : Prop := ∀ m, IsMade all targets m → ¬IsNode all m

/-- The node set during an expansion that replaces no declared node. -/
structure Grown (x : Expansion) : Prop where
  kept : ∀ k, IsNode all k → x.all.lookup k = all.lookup k
  origin : ∀ m, IsNode x.all m → IsNode all m ∨ IsMade all targets m

/-- The instance ids of every `for_each` node are those made from its template and the targets, none
is declared, and no other `for_each` node has one of them. -/
def InstancesAttributed (x : Expansion) : Prop :=
  ∀ id tpl, IsForEach all id tpl →
    (∀ m, m ∈ instanceIDsOf id x.all ↔ ∃ t ∈ targets, m = instanceID tpl.id t.id) ∧
    ∀ m ∈ instanceIDsOf id x.all, ¬IsNode all m ∧
      ∀ id' tpl', IsForEach all id' tpl' → id' ≠ id → m ∉ instanceIDsOf id' x.all

/-- The mark of a template is on no declared id and on no instance of another `for_each` node. -/
def MarksOwn : Prop :=
  ∀ id tpl, IsForEach all id tpl → (∀ k, IsNode all k → isMarked tpl.id k = false) ∧
    ∀ id' tpl', IsForEach all id' tpl' → id' ≠ id → ∀ t ∈ targets,
      isMarked tpl.id (instanceID tpl'.id t.id) = false

variable {all targets} {env : ProjectionEnv} {x : Expansion} {id : String}

lemma Grown.expandNode (g : Grown all targets x)
    (apart : Apart all targets) (mem : id ∈ sortBy (fun id : String => id) all.keys)
    (step : expandNode env targets x id = .ok x') : Grown all targets x' := by
  rcases expandNode_cases step with ⟨rfl, -⟩ | ⟨n, tpl, ins, hf, type, tp, -, hmd, rfl⟩
  · exact g
  have key : IsNode all id := AList.lookup_isSome.mpr (AList.mem_keys.mpr (mem_sortBy.mp mem))
  have each : IsForEach all id tpl := ⟨n, (g.kept id key).symm.trans hf, type, tp⟩
  refine List.foldlRecOn _ _ g ?_
  rintro y hk ⟨inst, tgt⟩ mem
  have hbd := (bindInstance_ok ((mem_zip_expandForEach hmd).1 _ mem)).1
  have new : IsMade all targets inst.id := ⟨id, tpl, each, tgt, (of_mem_zip mem).2, hbd⟩
  constructor
  · intro k hdc
    have ho : k ≠ inst.id := fun hs => apart _ new (hs ▸ hdc)
    exact (AList.lookup_insert_ne ho).trans (hk.kept k hdc)
  · intro m node
    obtain rfl | node := (isNode_addInstance id tpl.id (inst, tgt)).mp node
    · exact .inr new
    · exact hk.origin m node

section
variable (apart : Apart all targets) (expands : expandForEachNodes env targets all = .ok x)
include apart expands

lemma grown : Grown all targets x :=
  foldlM_invariant (Grown all targets) ⟨fun _ _ => rfl, fun _ => .inl⟩
    (fun _ _ _ mem hk step => hk.expandNode apart mem step) expands

lemma made_of_forEach (each : IsForEach all id tpl) :
    tpl.id ≠ "" ∧ ∀ t ∈ targets, IsNode x.all (instanceID tpl.id t.id) := by
  obtain ⟨n, hf, type, tp⟩ := each
  have key : IsNode all id := by simp [IsNode, hf]
  refine foldlM_reaches
    (fun y => tpl.id ≠ "" ∧ ∀ t ∈ targets, IsNode y.all (instanceID tpl.id t.id))
    (Grown all targets) (mem_sortBy.mpr (AList.mem_keys.mp (AList.lookup_isSome.mp key)))
    ⟨fun _ _ => rfl, fun _ => .inl⟩
    (fun _ _ _ mem hk step => hk.expandNode apart mem step) ?_ ?_ expands
  · intro y y' hk step
    have hh := (hk.kept id key).trans hf
    refine ⟨fun hem => ?_, (isNode_instances hh type tp step).2⟩
    simp [expandNode, hh, type, tp, hem] at step
  · intro y id y' _ _ hdn step
    exact ⟨hdn.1, fun t mem => isNode_expandNode (hdn.2 t mem) step⟩

lemma mem_instanceIDsOf_iff (each : IsForEach all id tpl) : m ∈ instanceIDsOf id x.all ↔
    (IsNode all m ∨ IsMade all targets m) ∧ isMarked tpl.id m = true := by
  have g := grown apart expands
  have ns : IsNode x.all m ↔ IsNode all m ∨ IsMade all targets m := by
    refine ⟨g.origin m, ?_⟩
    rintro (hdc | ⟨id, tpl, each, t, mem, rfl⟩)
    · rwa [IsNode, g.kept m hdc]
    · exact (made_of_forEach apart expands each).2 t mem
  obtain ⟨hn, -⟩ := made_of_forEach apart expands each
  obtain ⟨n, hf, -, tp⟩ := each
  have hh := (g.kept id (by simp [IsNode, hf])).trans hf
  rw [← ns]
  simp [instanceIDsOf, hh, tp, hn, isMarked, IsNode, AList.lookup_isSome, AList.mem_keys]

end

lemma MarksOwn.own (mar : MarksOwn all targets) (each : IsForEach all id tpl)
    (hk : IsNode all m ∨ IsMade all targets m) (hmk : isMarked tpl.id m = true) :
    ∃ t ∈ targets, m = instanceID tpl.id t.id := by
  obtain hdc | ⟨id', tpl', eac', t, mem, rfl⟩ := hk
  · cases ((mar id tpl each).1 m hdc).symm.trans hmk
  by_cases hs : id' = id
  · subst hs
    obtain ⟨n, hf, -, tp⟩ := each
    obtain ⟨n', hf', -, tem'⟩ := eac'
    cases hf.symm.trans hf'
    cases tp.symm.trans tem'
    exact ⟨t, mem, rfl⟩
  · cases ((mar id tpl each).2 id' tpl' eac' hs t mem).symm.trans hmk

theorem instances_attributed_iff (expands : expandForEachNodes env targets all = .ok x) :
    InstancesAttributed all targets x ↔ MarksOwn all targets := by
  constructor
  · intro split
    have apart : Apart all targets := by
      rintro m ⟨id, tpl, each, t, mem, rfl⟩
      exact ((split id tpl each).2 _ (((split id tpl each).1 _).mpr ⟨t, mem, rfl⟩)).1
    intro id tpl each
    have only := fun m hk hmk =>
      (split id tpl each).2 m ((mem_instanceIDsOf_iff apart expands each).mpr ⟨hk, hmk⟩)
    refine ⟨fun k hdc => ?_, fun id' tpl' eac' ho t mem => ?_⟩
    · by_contra hmk
      exact (only k (.inl hdc) (by simpa using hmk)).1 hdc
    · by_contra hmk
      have hmd : IsMade all targets (instanceID tpl'.id t.id) := ⟨id', tpl', eac', t, mem, rfl⟩
      refine (only _ (.inr hmd) (by simpa using hmk)).2 id' tpl' eac' ho ?_
      exact ((split id' tpl' eac').1 _).mpr ⟨t, mem, rfl⟩
  · intro mar
    have apart : Apart all targets := by
      rintro m ⟨id, tpl, each, t, -, rfl⟩ hdc
      cases ((mar id tpl each).1 _ hdc).symm.trans (isMarked_instanceID tpl.id t.id)
    intro id tpl each
    have hl := fun {m} => mem_instanceIDsOf_iff (m := m) apart expands each
    refine ⟨fun m => ⟨fun mem => ?_, ?_⟩, fun m mem => ⟨?_, fun id' tpl' eac' ho mem' => ?_⟩⟩
    · exact mar.own each (hl.mp mem).1 (hl.mp mem).2
    · rintro ⟨t, mem, rfl⟩
      exact hl.mpr ⟨.inr ⟨id, tpl, each, t, mem, rfl⟩, isMarked_instanceID _ _⟩
    · obtain ⟨t, tg, rfl⟩ := mar.own each (hl.mp mem).1 (hl.mp mem).2
      exact apart _ ⟨id, tpl, each, t, tg, rfl⟩
    · obtain ⟨hk, hmk⟩ := (mem_instanceIDsOf_iff apart expands eac').mp mem'
      obtain ⟨t, tg, rfl⟩ := mar.own eac' hk hmk
      cases ((mar id tpl each).2 id' tpl' eac' ho t tg).symm.trans (hl.mp mem).2

/-- A `for_each` node with a template `scan`, beside a node that is declared as `id`. -/
def fanOutBeside (id : String) : StringMap MissionNode :=
  ((∅ : StringMap MissionNode).insert "each"
    { id := "each", type := .forEach, config := .forEach
        (some { id := "scan", type := .tool, config := .tool {} }) 0 }).insert id
    { id, type := .agent, config := .agent {} }

theorem declared_node_attributed :
    ∃ x, expandForEachNodes .plain [⟨"a", some {}⟩] (fanOutBeside "scan#0") = .ok x ∧
      instanceIDsOf "each" x.all = ["scan#0", "scan#a"] :=
  ⟨_, rfl, rfl⟩

lemma lookup_fanOutBeside (h : (fanOutBeside "scout").lookup k = some n) :
    k = "scout" ∧ n.type = .agent ∨ k = "each" ∧ ∀ tpl, n.template = some tpl → tpl.id = "scan" := by
  unfold fanOutBeside at h
  by_cases sco : k = "scout"
  · subst sco
    rw [AList.lookup_insert] at h
    cases h
    exact .inl ⟨rfl, rfl⟩
  rw [AList.lookup_insert_ne sco] at h
  by_cases each : k = "each"
  · subst each
    rw [AList.lookup_insert] at h
    cases h
    refine .inr ⟨rfl, fun tpl tp => ?_⟩
    cases tp
    rfl
  rw [AList.lookup_insert_ne each] at h
  cases h

theorem instances_attributed_scout :
    ∃ x, expandForEachNodes .plain [⟨"a", some {}⟩] (fanOutBeside "scout") = .ok x ∧
      instanceIDsOf "each" x.all = ["scan#a"] ∧
      InstancesAttributed (fanOutBeside "scout") [⟨"a", some {}⟩] x := by
  have own : MarksOwn (fanOutBeside "scout") [⟨"a", some {}⟩] := by
    rintro id tpl ⟨n, hf, type, tp⟩
    obtain ⟨-, agent⟩ | ⟨rfl, scan⟩ := lookup_fanOutBeside hf
    · cases agent.symm.trans type
    rw [scan tpl tp]
    refine ⟨fun k node => ?_, fun id' tpl' ⟨n', hf', typ', _⟩ hot => ?_⟩
    · obtain ⟨n', hf'⟩ := Option.isSome_iff_exists.mp node
      obtain ⟨rfl, -⟩ | ⟨rfl, -⟩ := lookup_fanOutBeside hf' <;> decide
    · obtain ⟨-, agent⟩ | ⟨rfl, -⟩ := lookup_fanOutBeside hf'
      · cases agent.symm.trans typ'
      · exact absurd rfl hot
  exact ⟨_, rfl, rfl, (instances_attributed_iff
    (show expandForEachNodes .plain _ _ = .ok _ from rfl)).mpr own⟩

end Gibson.Mission
