import Gibson.Mission.Projectable

/-! Soundness of validation: the work graph of an accepted projectable definition has no cycle and
no missing end, and leaves out no declared work. -/

namespace Gibson.Mission

open Brain (StringMap WorkNode)
open List Rows Loops MissionNode Relation Option

/-- Where an id of the expanded set is: at its declared node. -/
inductive Located (d : MissionDefinition) (targets : List ForEachTarget) : String → String → Prop
  | flat {f : FlatNode} : f ∈ flatNodes d → Located d targets f.id f.id
  | fanOut {t : Template} {tgt : ForEachTarget} : t ∈ templates d → tgt ∈ targets →
      Located d targets (instanceID t.node.id tgt.id) t.holder.id

/-- The nodes whose dependencies an id inherits. -/
inductive Under (d : MissionDefinition) (targets : List ForEachTarget) : String → String → Prop
  | self (id : String) : Under d targets id id
  | sub {f : FlatNode} {y : String} : f ∈ flatNodes d → Under d targets f.container y →
      Under d targets f.id y
  | fanOut {t : Template} {tgt : ForEachTarget} {y : String} : t ∈ templates d → tgt ∈ targets →
      Under d targets t.holder.id y → Under d targets (instanceID t.node.id tgt.id) y

section Located
variable {d : MissionDefinition}
variable {id : String}

lemma Under.located (und : Under d targets id y) (loc : Located d targets id l) :
    ∃ l', Located d targets y l' := by
  induction und generalizing l with
  | self id => exact ⟨l, loc⟩
  | sub hf _ ih =>
    obtain ⟨n, top, -⟩ := container_mem_flatNodes hf
    exact ih (.flat top)
  | fanOut ht _ _ ih => exact ih (.flat (mem_templates.mp ht).1)

lemma Located.mem (loc : Located d targets id l) : ∃ f ∈ flatNodes d, f.id = l := by
  cases loc with
  | flat hf => exact ⟨_, hf, rfl⟩
  | fanOut ht _ => exact ⟨_, (mem_templates.mp ht).1, rfl⟩

variable (h : Projectable d)
include h

lemma Projectable.located_flat (hf : f ∈ flatNodes d) (loc : Located d targets f.id l) :
    l = f.id := by
  generalize hs : f.id = id at loc
  cases loc with
  | flat hg => rfl
  | fanOut ht _ =>
    have hdc := flat_mem_declaredIDs hf
    rw [hs] at hdc
    exact absurd hdc (h.instance_undeclared ht _)

lemma Projectable.located_instance (ht : t ∈ templates d)
    (loc : Located d targets (instanceID t.node.id targetID) l) : l = t.holder.id := by
  generalize hs : instanceID t.node.id targetID = id at loc
  cases loc with
  | flat hf =>
    have hdc := flat_mem_declaredIDs hf
    rw [← hs] at hdc
    exact absurd hdc (h.instance_undeclared ht _)
  | fanOut ht' _ =>
    have mark := isMarked_instanceID t.node.id targetID
    rw [hs] at mark
    obtain rfl := h.mark_inj ht ht' mark (isMarked_instanceID _ _)
    rfl

lemma Projectable.located_inj (loc : Located d targets id l) (loc' : Located d targets id l') :
    l = l' := by
  cases loc with
  | flat hf => exact (h.located_flat hf loc').symm
  | fanOut ht _ => exact (h.located_instance ht loc').symm

/-- A node begins after the nodes whose dependencies it inherits. -/
lemma Projectable.begins_after (hg : g ∈ flatNodes d) (und : Under d targets id g.id)
    (loc : Located d targets id l) : ReflTransGen (Order d W) (g.id, false) (l, false) := by
  generalize hho : g.id = y at und
  induction und generalizing l with
  | self id =>
    subst hho
    rw [h.located_flat hg loc]
  | @sub f y hf _ ih =>
    rw [h.located_flat hf loc]
    obtain ⟨n, top, -⟩ := container_mem_flatNodes hf
    have pth := ih (.flat top) hho
    by_cases hs : f.id = f.container
    · rwa [hs]
    · exact pth.tail (.enter hf hs)
  | fanOut ht _ _ ih =>
    rw [h.located_instance ht loc]
    exact ih (.flat (mem_templates.mp ht).1) hho

end Located

lemma wait_of_edge (mem : e ∈ d.edges) : (e.fromID, e.toID) ∈ declaredWaits d :=
  mem_append_left _ (mem_append_left _ (mem_map_of_mem mem))

lemma Expanded.waits_of_rawDep (hx : Expanded d targets x) (dep : RawDep d x node on) :
    ∃ y, Waits d (on, y) ∧ Under d targets node y := by
  induction dep with
  | @dependency node on n hf0 mem ne hn =>
    rcases hx.origin _ _ hf0 with ⟨f, hf, rfl, rfl⟩ | ⟨t, ht, inst⟩
    · refine ⟨f.id, .inr (mem_flatMap.mpr ⟨f, hf, mem_map_of_mem ?_⟩), .self _⟩
      exact mem_filter.mpr ⟨mem, decide_eq_true ⟨ne, hn⟩⟩
    · rw [inst.dependencies] at mem
      simp at mem
  | edge mem => exact ⟨_, .inl (wait_of_edge mem), .self _⟩
  | waitFor hf0 type mem =>
    rcases hx.origin _ _ hf0 with ⟨f, hf, rfl, rfl⟩ | ⟨t, ht, inst⟩
    · refine ⟨f.id, .inl (mem_append_left _ (mem_append_right _ ?_)), .self _⟩
      exact mem_flatMap.mpr ⟨f, hf, mem_map_of_mem mem⟩
    rw [(isLeaf_iff.mp inst.leaf).2.2.2 type] at mem
    simp at mem
  | subNode hf0 _ hi _ ih =>
    obtain ⟨y, wait, und⟩ := ih
    exact ⟨y, wait, .sub (sub_mem_flatNodes hf0 hi) und⟩
  | fanOut hf0 mem _ ih =>
    obtain ⟨y, wait, und⟩ := ih
    obtain ⟨t, ht, rfl, tgt, tg, rfl⟩ := hx.instances _ _ hf0 _ mem
    exact ⟨y, wait, .fanOut ht tg und⟩
  | branch hf0 type en =>
    rcases hx.origin _ _ hf0 with ⟨f, hf, rfl, rfl⟩ | ⟨t, ht, inst⟩
    · refine ⟨_, .inl (mem_append_right _ (mem_flatMap.mpr ⟨f, hf, ?_⟩)), .self _⟩
      exact mem_map_of_mem (mem_branches.mpr ⟨_, en⟩)
    rw [(isLeaf_iff.mp inst.leaf).2.2.1 type] at en
    simp at en

lemma mem_instanceIDsOf {id m all} (mem : m ∈ instanceIDsOf id all) :
    ∃ n tpl, all.lookup id = some n ∧ n.template = some tpl ∧ isMarked tpl.id m = true ∧
      IsNode all m := by
  unfold instanceIDsOf at mem
  split at mem
  · simp at mem
  next n hf =>
  simp only at mem
  split at mem
  · simp at mem
  next hn =>
  obtain ⟨key, mark⟩ := mem_filter.mp (mem_sortBy.mp mem)
  cases tp : n.template with
  | none => simp [tp] at hn
  | some tpl =>
    refine ⟨n, tpl, hf, tp, ?_, AList.lookup_isSome.mpr (AList.mem_keys.mpr key)⟩
    simpa [tp, isMarked] using mark

/-- A node ends after the work that its id resolves to. -/
lemma Projectable.resolves_located (h : Projectable d) (hx : Expanded d targets x)
    (hf : f ∈ flatNodes d) (res : Resolves x.all f.id u) :
    (∃ l, Located d targets u l ∧ ReflTransGen (Order d W) (l, true) (f.id, true)) ∧
      ∃ n, x.all.lookup u = some n ∧ isCollapsed n.type = false := by
  generalize hs : f.id = id at res
  induction res generalizing f with
  | unknown hab =>
    subst hs
    rw [hx.flat f hf] at hab
    simp at hab
  | @work id n hf0 real =>
    subst hs
    refine ⟨⟨f.id, .flat hf, .refl⟩, n, hf0, ?_⟩
    unfold members at real
    split at real <;> simp_all [isCollapsed]
  | @member id m u n ids hf0 con mem res ih =>
    subst hs
    cases (hx.flat f hf).symm.trans hf0
    unfold members at con
    split at con <;> cases con
    · obtain ⟨sub, hi, rfl⟩ := mem_map.mp mem
      obtain ⟨top, hsub⟩ := h.sub_flat hf hi
      obtain ⟨⟨l, loc, pth⟩, work⟩ := ih hsub rfl
      refine ⟨⟨l, loc, ?_⟩, work⟩
      by_cases hs0 : sub.id = f.id
      · rwa [← hs0]
      · rw [top] at hs0 ⊢
        exact pth.tail (.leave hsub hs0)
    · obtain ⟨n, tpl, hf', tp, mark, node⟩ := mem_instanceIDsOf mem
      cases hf0.symm.trans hf'
      have ht : (⟨f, tpl⟩ : Template) ∈ templates d := mem_templates.mpr ⟨hf, tp⟩
      obtain ⟨inst, fou⟩ := isSome_iff_exists.mp node
      have isI := hx.isInstance h ht fou mark
      have real := (isLeaf_iff.mp isI.leaf).1
      obtain ⟨tgt, tg, rfl⟩ := isI.id
      have itself : u = instanceID tpl.id tgt.id := by
        cases res with
        | unknown | work => rfl
        | member hag hi =>
          cases fou.symm.trans hag
          rw [members_of_work real] at hi
          simp at hi
      subst itself
      exact ⟨⟨f.id, .fanOut ht tg, .refl⟩, inst, fou, real⟩

section Checked
variable {d : MissionDefinition}

lemma MissionNode.mem_children_of_subNode {n sub : MissionNode} (hi : sub ∈ n.subNodes) :
    sub ∈ n.children := by
  unfold subNodes at hi
  unfold children
  split at hi
  · next cf =>
    rwa [cf]
  · simp at hi

lemma Projectable.flat_named (h : Projectable d) (hf : f ∈ flatNodes d) : f.id ≠ "" :=
  fun hem => h.named (hem ▸ flat_mem_declaredIDs hf)

lemma Projectable.container_named (h : Projectable d) (hf : f ∈ flatNodes d) :
    f.container ≠ "" := by
  obtain ⟨n, top, -⟩ := container_mem_flatNodes hf
  exact h.flat_named top

lemma Projectable.lookup_collect (h : Projectable d) (hf : f ∈ flatNodes d) :
    (collect d).nodes.lookup f.id = some f.node := by
  have node : IsNode (collect d).nodes f.id := by
    obtain ⟨n, hf0, ⟨top, -⟩ | ⟨hi, hsid⟩⟩ := mem_flatNodes.mp hf
    · rw [top]
      exact collect_reaches hf0 (isNode_collectNode (h.container_named hf) n)
        fun _ _ more hk => more.nodes _ hk
    have hlin := linked_collect hf0 (h.container_named hf)
      (mem_children_of_subNode hi) (hsid ▸ h.flat_named hf)
    rw [hsid]
    exact hlin.child
  obtain ⟨m, hf0⟩ := isSome_iff_exists.mp node
  rcases h.declares_cases (collect_declares hf0) with ⟨g, hg, hs, rfl⟩ | ⟨t, ht, hs, -⟩
  · rw [hf0, h.flat_inj hg hf hs]
  · exact absurd hs.symm ((nodup_append.mp h.distinct).2.2 f.id (mem_map_of_mem hf) t.node.id
      (mem_map_of_mem (f := fun t : Template => t.node.id) ht))

variable (accepted : validate (some d) = none)
include accepted

lemma hasEdge_of_request (mem : r ∈ edgeRequests d (collect d)) :
    HasEdge (declaredEdges d) r.1.fromID r.1.toID :=
  (buildEdges_spec (validate_none accepted).1).1 r mem

lemma acyclic_of_validate (a) : ¬ TransGen (HasEdge (declaredEdges d)) a a := by
  obtain ⟨hq, noC⟩ := validate_none accepted
  exact acyclic_of_findCycles (buildEdges_spec hq).2 noC a

lemma Projectable.hasEdge_of_wait (h : Projectable d)
    (wait : w ∈ declaredWaits d) : HasEdge (declaredEdges d) w.1 w.2 := by
  rcases mem_append.mp wait with wait | branches
  · rcases mem_append.mp wait with edg | joins
    · obtain ⟨e, mem, rfl⟩ := mem_map.mp edg
      exact hasEdge_of_request accepted
        (mem_append_left _ (mem_append_left _ (mem_append_left _ (mem_map_of_mem mem))))
    obtain ⟨f, hf, mem⟩ := mem_flatMap.mp joins
    obtain ⟨on, ws, rfl⟩ := mem_map.mp mem
    exact hasEdge_of_request accepted
      (mem_edgeRequests_join (h.lookup_collect hf) (mem_map_of_mem ws))
  · obtain ⟨f, hf, mem⟩ := mem_flatMap.mp branches
    obtain ⟨b, en, rfl⟩ := mem_map.mp mem
    have hf0 := h.lookup_collect hf
    rcases mem_append.mp en with yes | no
    · exact hasEdge_of_request accepted
        (mem_edgeRequests_branch hf0 (mem_append_left _ (mem_map_of_mem yes)))
    · exact hasEdge_of_request accepted
        (mem_edgeRequests_branch hf0 (mem_append_right _ (mem_map_of_mem no)))

lemma Projectable.hasEdge_container (h : Projectable d) (hf : f ∈ flatNodes d)
    (ho : f.id ≠ f.container) : HasEdge (declaredEdges d) f.container f.id := by
  obtain ⟨n, hf0, ⟨top, -⟩ | ⟨hi, hsid⟩⟩ := mem_flatNodes.mp hf
  · exact absurd top ho
  have hlin := linked_collect hf0 (h.container_named hf)
    (mem_children_of_subNode hi) (hsid ▸ h.flat_named hf)
  rw [hsid]
  exact hasEdge_of_request accepted (mem_append_left _ (mem_append_left _
    (mem_append_right _ (mem_map_of_mem hlin.edge))))

lemma Projectable.declared_of_hasEdge (h : Projectable d)
    (edge : HasEdge (declaredEdges d) a b) : a ∈ declaredIDs d ∧ b ∈ declaredIDs d := by
  have hdc : ∀ id, IsNode (collect d).nodes id → id ∈ declaredIDs d := by
    intro id node
    obtain ⟨n, hf0⟩ := isSome_iff_exists.mp node
    rcases h.declares_cases (collect_declares hf0) with ⟨f, hf, rfl, -⟩ | ⟨t, ht, rfl, -⟩
    · exact flat_mem_declaredIDs hf
    · exact template_mem_declaredIDs ht
  obtain ⟨ha, hb⟩ := (buildEdges_spec (validate_none accepted).1).2 a b edge
  exact ⟨hdc a ha, hdc b hb⟩

end Checked

section Acyclic
variable {d : MissionDefinition}

/-- The end of a parallel node, after which only its own waits lead on. -/
def EndsParallel (d : MissionDefinition) (p : String × Bool) : Prop :=
  p.2 = true ∧ ∃ f ∈ flatNodes d, f.id = p.1 ∧ f.node.type = .parallel

/-- What a step of the order is to validation, if its waits are checked. -/
lemma Projectable.order_checked (h : Projectable d) (accepted : validate (some d) = none)
    (step : Order d (Checked d) p q) :
    (p.1 = q.1 ∧ p.2 = false ∧ q.2 = true) ∨ HasEdge (declaredEdges d) p.1 q.1 ∨
      EndsParallel d q := by
  cases step with
  | run hf => exact .inl ⟨rfl, rfl, rfl⟩
  | wait hck => exact .inr (.inl (h.hasEdge_of_wait accepted hck.1))
  | enter hf ho => exact .inr (.inl (h.hasEdge_container accepted hf ho))
  | leave hf ho =>
    obtain ⟨n, hf0, ⟨top, -⟩ | ⟨hi, -⟩⟩ := mem_flatNodes.mp hf
    · exact absurd top ho
    have top := top_mem_flatNodes hf0
    exact .inr (.inr ⟨rfl, _, top, rfl, type_of_subNode (h.typed _ top) hi⟩)

lemma Projectable.no_step_of_endsParallel (h : Projectable d) (ends : EndsParallel d p) :
    ¬ Order d (Checked d) p q := by
  obtain ⟨hed, f, hf, hs, parallel⟩ := ends
  intro step
  cases step with
  | run | enter => cases hed
  | wait hck => exact hck.2 f hf hs parallel
  | leave hg ho =>
    obtain rfl := h.flat_inj hf hg hs
    exact h.shallow _ hf ho parallel

lemma Projectable.chain_checked (h : Projectable d) (accepted : validate (some d) = none)
    (chain : TransGen (Order d (Checked d)) p q) :
    (p.1 = q.1 ∧ p.2 = false ∧ q.2 = true) ∨ TransGen (HasEdge (declaredEdges d)) p.1 q.1 ∨
      EndsParallel d q := by
  induction chain with
  | single step => exact (h.order_checked accepted step).imp_right (.imp_left .single)
  | tail _ step ih =>
    rcases ih with ⟨hs, -, hed⟩ | path | ends
    · rcases h.order_checked accepted step with ⟨-, beg, -⟩ | edge | ends
      · cases hed.symm.trans beg
      · exact .inr (.inl (hs ▸ .single edge))
      · exact .inr (.inr ends)
    · rcases h.order_checked accepted step with ⟨hs, -⟩ | edge | ends
      · exact .inr (.inl (hs ▸ path))
      · exact .inr (.inl (path.tail edge))
      · exact .inr (.inr ends)
    · exact absurd step (h.no_step_of_endsParallel ends)

/-- A chain of the order has checked waits only, or passes one that is not checked. -/
lemma chain_checked_or (chain : TransGen (Order d (Waits d)) p q) :
    TransGen (Order d (Checked d)) p q ∨ ∃ w, Waits d w ∧ ¬ Checked d w ∧
      ReflTransGen (Order d (Waits d)) p (w.1, true) ∧
      ReflTransGen (Order d (Waits d)) (w.2, false) q := by
  have split {p q} (step : Order d (Waits d) p q) : Order d (Checked d) p q ∨
      ∃ w, Waits d w ∧ ¬ Checked d w ∧ p = (w.1, true) ∧ q = (w.2, false) := by
    cases step with
    | run hf => exact .inl (.run hf)
    | @wait w ws =>
      by_cases hck : Checked d w
      · exact .inl (.wait hck)
      · exact .inr ⟨w, ws, hck, rfl, rfl⟩
    | enter hf ho => exact .inl (.enter hf ho)
    | leave hf ho => exact .inl (.leave hf ho)
  induction chain with
  | single step =>
    rcases split step with step | ⟨w, ws, unc, rfl, rfl⟩
    · exact .inl (.single step)
    · exact .inr ⟨w, ws, unc, .refl, .refl⟩
  | tail hpa step ih =>
    rcases ih with sf | ⟨w, ws, unc, hb, ha⟩
    · rcases split step with step | ⟨w, ws, unc, rfl, rfl⟩
      · exact .inl (sf.tail step)
      · exact .inr ⟨w, ws, unc, hpa.to_reflTransGen, .refl⟩
    · exact .inr ⟨w, ws, unc, hb, ha.tail step⟩

lemma Projectable.order_acyclic (h : Projectable d) (accepted : validate (some d) = none) (p) :
    ¬ TransGen (Order d (Waits d)) p p := by
  intro cyc
  rcases chain_checked_or cyc with cyc | ⟨w, ws, unchecked, hb, ha⟩
  · rcases h.chain_checked accepted cyc with ⟨-, begins, hed⟩ | loop | ends
    · cases begins.symm.trans hed
    · exact acyclic_of_validate accepted _ loop
    · obtain ⟨_, step, -⟩ := TransGen.head'_iff.mp cyc
      exact h.no_step_of_endsParallel ends step
  · exact h.ordered w ws unchecked (ha.trans hb)

end Acyclic

def WaitsFor (nodes : List WorkNode) (id on : String) : Prop :=
  ∃ wn ∈ nodes, wn.id = id ∧ on ∈ wn.dependsOn

section Work
variable {d : MissionDefinition} {targets : List ForEachTarget} {x : Expansion}
variable {id : String}

lemma Expanded.located (hx : Expanded d targets x)
    (hf0 : x.all.lookup id = some n) : ∃ l, Located d targets id l := by
  rcases hx.origin id n hf0 with ⟨f, hf, rfl, -⟩ | ⟨t, ht, inst⟩
  · exact ⟨_, .flat hf⟩
  · obtain ⟨tgt, tg, rfl⟩ := inst.id
    exact ⟨_, .fanOut ht tg⟩

lemma Projectable.wait_ends (h : Projectable d) (accepted : validate (some d) = none)
    (wait : Waits d (on, y)) (und : Under d targets id y) (loc : Located d targets id l) :
    ∃ f ∈ flatNodes d, ∃ g ∈ flatNodes d, f.id = on ∧ g.id = y := by
  have ends : (∃ f ∈ flatNodes d, f.id = on) ∧ y ∈ declaredIDs d := by
    rcases wait with hdc | listed
    · obtain ⟨dec, dec0⟩ :=
        h.declared_of_hasEdge accepted (h.hasEdge_of_wait accepted hdc)
      refine ⟨?_, dec0⟩
      rcases mem_append.mp dec with flat | template
      · exact mem_map.mp flat
      · obtain ⟨t, ht, hs⟩ := mem_map.mp template
        exact absurd hs.symm (h.sources _ hdc t ht)
    · refine ⟨h.dependencies _ listed, ?_⟩
      obtain ⟨g, hg, mem⟩ := mem_flatMap.mp listed
      obtain ⟨_, -, hs⟩ := mem_map.mp mem
      cases hs
      exact flat_mem_declaredIDs hg
  obtain ⟨⟨f, hf, sam⟩, dec0⟩ := ends
  obtain ⟨l', locY⟩ := und.located loc
  cases locY with
  | flat hg => exact ⟨f, hf, _, hg, sam, rfl⟩
  | fanOut ht _ => exact absurd dec0 (h.instance_undeclared ht _)

variable (h : Projectable d) (accepted : validate (some d) = none) (hx : Expanded d targets x)
include h accepted hx

lemma Projectable.dependsOn_before (dep : u ∈ dependsOn x (rawDeps o d x) id)
    (loc : Located d targets id l) :
    (∃ l', Located d targets u l' ∧ TransGen (Order d (Waits d)) (l', true) (l, true)) ∧
      ∃ n, x.all.lookup u = some n ∧ isCollapsed n.type = false := by
  obtain ⟨-, on, raw, hsta⟩ := mem_dependsOn.mp dep
  obtain ⟨y, wait, und⟩ := hx.waits_of_rawDep (gateBranches_all
    (inheritForEachDeps_all (inheritParallelDeps_all declaredDeps_all)) _ _ raw)
  obtain ⟨f, hf, g, hg, rfl, rfl⟩ := h.wait_ends accepted wait und loc
  obtain ⟨⟨l', loc', hed⟩, work⟩ := h.resolves_located hx hf (resolves_of_mem_resolveIn hsta)
  refine ⟨⟨l', loc', ?_⟩, work⟩
  obtain ⟨k, hk, rfl⟩ := loc.mem
  have begun := h.begins_after (W := Waits d) hg und loc
  exact .tail' (hed.tail (.wait wait) |>.trans begun) (.run hk)

variable {env : ProjectionEnv} {o : MapOrder} {nodes : List WorkNode}

section
variable (built : Built env o d x nodes)
include built

lemma Projectable.waitsFor_before (wait : WaitsFor nodes id u) (loc : Located d targets id l) :
    ∃ l', Located d targets u l' ∧ TransGen (Order d (Waits d)) (l', true) (l, true) := by
  obtain ⟨wn, mem, rfl, dep⟩ := wait
  obtain ⟨n, -, -, hbc⟩ := built.mem wn mem
  rw [hbc.dependsOn] at dep
  exact (h.dependsOn_before accepted hx dep loc).1

lemma Projectable.transGen_before
    (chain : TransGen (WaitsFor nodes) id u) (loc : Located d targets id l) :
    ∃ l', Located d targets u l' ∧ TransGen (Order d (Waits d)) (l', true) (l, true) := by
  induction chain with
  | single wait => exact h.waitsFor_before accepted hx built wait loc
  | tail _ wait ih =>
    obtain ⟨l₁, loc₁, hb₁⟩ := ih
    obtain ⟨l₂, loc₂, hb₂⟩ := h.waitsFor_before accepted hx built wait loc₁
    exact ⟨l₂, loc₂, hb₂.trans hb₁⟩

lemma Projectable.acyclic (id) : ¬ TransGen (WaitsFor nodes) id id := by
  intro cyc
  obtain ⟨h1, wait, -⟩ := TransGen.head'_iff.mp cyc
  obtain ⟨wn, mem, rfl, -⟩ := wait
  obtain ⟨n, hf, -⟩ := built.mem wn mem
  obtain ⟨l, loc⟩ := hx.located hf
  obtain ⟨l', loc', hb⟩ := h.transGen_before accepted hx built cyc loc
  obtain rfl := h.located_inj loc loc'
  exact h.order_acyclic accepted _ hb

lemma Projectable.closed (mem : wn ∈ nodes) (dep : on ∈ wn.dependsOn) :
    ∃ ho ∈ nodes, ho.id = on := by
  obtain ⟨n, hf, -, hbc⟩ := built.mem wn mem
  rw [hbc.dependsOn] at dep
  obtain ⟨l, loc⟩ := hx.located hf
  obtain ⟨-, m, fou, work⟩ := h.dependsOn_before accepted hx dep loc
  obtain ⟨ho, mem0, hsid, -⟩ := built.exist on m fou work
  exact ⟨ho, mem0, hsid⟩

end
end Work

section Complete
variable {env : ProjectionEnv} {o : MapOrder} {d : MissionDefinition} {targets : List ForEachTarget}
  {x : Expansion}

lemma Built.kind_of_lookup (built : Built env o d x nodes) {id n kind}
    (hf : x.all.lookup id = some n) (work : n.type.workKind = some kind) :
    ∃ wn ∈ nodes, wn.id = id ∧ wn.kind = kind := by
  have real : isCollapsed n.type = false := by
    cases type : n.type <;> simp_all [NodeType.workKind, isCollapsed]
  obtain ⟨wn, mem, hsid, hbc⟩ := built.exist id n hf real
  exact ⟨wn, mem, hsid, some.inj (hbc.kind.symm.trans work)⟩

lemma Projectable.complete (h : Projectable d) (hkp : env.KeepsLeaves)
    (hxp : expandDefinition env o d targets = .ok x) (built : Built env o d x nodes)
    {id n kind} (hdc : Declares d id n) (work : n.type.workKind = some kind) :
    ∃ wn ∈ nodes, wn.kind = kind ∧
      (wn.id = id ∨ ∃ tgt ∈ targets, wn.id = instanceID id tgt.id) := by
  have hx := h.expanded hkp hxp
  rcases h.declares_cases hdc with ⟨f, hf, rfl, rfl⟩ | ⟨t, ht, rfl, rfl⟩
  · obtain ⟨wn, mem, hsid, sam⟩ := built.kind_of_lookup (hx.flat f hf) work
    exact ⟨wn, mem, sam, .inl hsid⟩
  obtain ⟨some, ins⟩ := h.instances hkp hxp ht
  obtain ⟨tgt, tg⟩ := exists_mem_of_ne_nil targets some
  obtain ⟨inst, hf0⟩ := isSome_iff_exists.mp (ins tgt tg)
  have isI := hx.isInstance h ht hf0 (isMarked_instanceID _ _)
  rw [← isI.type] at work
  obtain ⟨wn, mem, hsid, sam⟩ := built.kind_of_lookup hf0 work
  exact ⟨wn, mem, sam, .inr ⟨tgt, tg, hsid⟩⟩

end Complete

end Gibson.Mission
