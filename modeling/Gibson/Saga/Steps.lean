import Gibson.Lib.Dfs
import Gibson.Lib.Elimination
import Gibson.Lib.Loops
import Gibson.Lib.Rows

/-! The steps of a saga and the order they run in. -/

namespace Gibson.Saga

open List Loops Relation Function

/-- A step and what it requires. -/
structure Step where
  (name condition : String)
  requires : List String := []
  deriving DecidableEq

def quote (s : String) : String := "\"" ++ s ++ "\""

inductive TopoError where
  | emptyName
  | duplicate (name : String)
  | unknown (name dep : String)
  | cycle (names : List String)

def TopoError.text : TopoError → String
  | .emptyName => "saga.TopoSort: step has empty Name()"
  | .duplicate name => "saga.TopoSort: duplicate step name " ++ quote name
  | .unknown name dep =>
    "saga.TopoSort: step " ++ quote name ++ " requires unknown step " ++ quote dep
  | .cycle names => "saga.TopoSort: cycle detected among steps " ++ ", ".intercalate names

def checkNames (seen : List String) : List Step → Except TopoError Unit
  | [] => .ok ()
  | s :: rest =>
    if s.name = "" then .error .emptyName
    else if s.name ∈ seen then .error (.duplicate s.name)
    else checkNames (s.name :: seen) rest

def unknownRequirement (steps : List Step) : Option TopoError :=
  steps.findSome? fun s =>
    (s.requires.find? fun dep => !(steps.map (·.name)).contains dep).map fun dep =>
      .unknown s.name dep

def dependents (steps : List Step) (name : String) : List String :=
  steps.flatMap fun t => (t.requires.filter (· = name)).map fun _ => t.name

/-- The pass of Kahn's algorithm. -/
structure SortState where
  out : List Step
  indeg : String → Int

def sortVisit (steps : List Step) (st : SortState) (s : Step) : SortState :=
  if st.out.any (·.name == s.name) then st
  else if st.indeg s.name ≠ 0 then st
  else
    { out := st.out ++ [s]
      indeg := (dependents steps s.name).foldl (fun f d => update f d (f d - 1)) st.indeg }

def sortPass (steps : List Step) (st : SortState) : SortState := steps.foldl (sortVisit steps) st

/-- Each pass sorts one step at least, so there are no more of them than steps. -/
def sortLoop (steps : List Step) : Nat → SortState → Except TopoError (List Step)
  | 0, st => .ok st.out
  | fuel + 1, st =>
    if steps.length ≤ st.out.length then .ok st.out
    else if (sortPass steps st).out.length = st.out.length then
      .error (.cycle
        ((steps.filter fun s => !st.out.any (·.name == s.name)).map (·.name)))
    else sortLoop steps fuel (sortPass steps st)

def topoSort (steps : List Step) : Except TopoError (List Step) := do
  checkNames [] steps
  match unknownRequirement steps with
  | some err => .error err
  | none =>
    sortLoop steps steps.length
      { out := []
        indeg name := ((steps.find? (·.name == name)).map (·.requires.length)).getD 0 }

def names (steps : List Step) : List String := steps.map (·.name)

def Requires (steps : List Step) (dep name : String) : Prop :=
  ∃ s ∈ steps, s.name = name ∧ dep ∈ s.requires

/-- Every step comes after all the steps that it requires. -/
def Ordered (steps : List Step) : Prop :=
  ∀ before s after, steps = before ++ s :: after → s.requires ⊆ names before

/-- What can be sorted. -/
structure Sortable (steps : List Step) : Prop where
  named : "" ∉ names steps
  unique : (names steps).Nodup
  known : ∀ s ∈ steps, s.requires ⊆ names steps
  acyclic : ∀ name, ¬TransGen (Requires steps) name name

/-- The in-degree of a step counts the requirements that are not sorted yet, repeated ones
repeatedly. -/
structure Counts (steps : List Step) (st : SortState) : Prop where
  inside : st.out ⊆ steps
  once : (names st.out).Nodup
  indeg : ∀ t ∈ steps, st.indeg t.name = t.requires.countP (· ∉ names st.out)
  ordered : Ordered st.out

variable {steps sorted : List Step}

lemma checkNames_ok : checkNames hsn steps = .ok () ↔
    (∀ n ∈ names steps, n ≠ "" ∧ n ∉ hsn) ∧ (names steps).Nodup := by
  induction steps generalizing hsn with
  | nil => simp [checkNames, names]
  | cons s rs ih =>
    unfold checkNames
    split_ifs with empty dup
    · simp [names, empty]
    · simp [names, dup]
    · rw [ih]
      simp only [names, map_cons, nodup_cons, mem_cons, not_or]
      grind

lemma unknownRequirement_none :
    unknownRequirement steps = none ↔ ∀ s ∈ steps, s.requires ⊆ names steps := by
  simp [unknownRequirement, names, subset_def]

lemma foldl_decrement (ds : List String) (f : String → Int) (name) :
    ds.foldl (fun f d => update f d (f d - 1)) f name = f name - ds.count name := by
  induction ds generalizing f with
  | nil => simp
  | cons d ds ih =>
    rw [foldl_cons, ih, count_cons]
    by_cases hs : d = name
    · subst hs
      simp
      omega
    · simp [hs, Ne.symm hs]

lemma countP_emit (hfr : s.name ∉ names out) (ds : List String) :
    ds.countP (· ∉ names (out ++ [s])) + ds.count s.name = ds.countP (· ∉ names out) := by
  induction ds with
  | nil => rfl
  | cons d ds ih =>
    have split : d ∉ names (out ++ [s]) ↔ d ∉ names out ∧ d ≠ s.name := by simp [names]
    grind

lemma Ordered.snoc (h : Ordered l) (met : s.requires ⊆ names l) : Ordered (l ++ [s]) := by
  intro hb u ha split
  rcases ha.eq_nil_or_concat with rfl | ⟨rs, hlt, rfl⟩
  · obtain ⟨rfl, hs⟩ := append_inj' split rfl
    cases hs
    exact met
  · have sho : l ++ [s] = (hb ++ u :: rs) ++ [hlt] := by simpa using split
    exact h hb u rs (append_inj' sho rfl).1

def sortStart (steps : List Step) : SortState where
  out := []
  indeg name := ((steps.find? (·.name == name)).map (·.requires.length)).getD 0

lemma Counts.perm (h : Counts steps st) (all : steps.length ≤ st.out.length) : st.out.Perm steps :=
  (h.once.of_map.subperm h.inside).perm_of_length_le all

section
variable (unique : (names steps).Nodup)
include unique

lemma count_dependents (mem : t ∈ steps) (name) :
    (dependents steps name).count t.name = t.requires.count name := by
  obtain ⟨hb, ha, rfl⟩ := append_of_mem mem
  have os {l} (hab : t.name ∉ names l) :
      (l.flatMap fun u => (u.requires.filter (· = name)).map fun _ => u.name).count t.name = 0 := by
    refine count_eq_zero.mpr fun mem => hab ?_
    obtain ⟨u, ht, mem⟩ := mem_flatMap.mp mem
    obtain ⟨_, -, hs⟩ := mem_map.mp mem
    exact mem_map.mpr ⟨u, ht, hs⟩
  rw [names, map_append, map_cons, nodup_middle, nodup_cons, mem_append, not_or] at unique
  rw [dependents, flatMap_append, flatMap_cons, count_append, count_append, os unique.1.1,
    os unique.1.2, map_const', count_replicate_self, ← countP_eq_length_filter]
  simp only [zero_add, add_zero, count]
  exact countP_congr fun x _ => by simp

lemma sortVisit_counts (mem : s ∈ steps) (h : Counts steps st) :
    Counts steps (sortVisit steps st s) ∧
      (sortVisit steps st s = st ∧ (s.name ∉ names st.out → ¬s.requires ⊆ names st.out) ∨
        (sortVisit steps st s).out = st.out ++ [s]) := by
  have zero : st.indeg s.name = 0 ↔ s.requires ⊆ names st.out := by
    rw [h.indeg s mem, Int.natCast_eq_zero, countP_eq_zero]
    simp [subset_def]
  unfold sortVisit
  split
  · next hdn =>
    have sorted : s.name ∈ names st.out := by simpa [names] using hdn
    exact ⟨h, .inl ⟨rfl, fun hfr => absurd sorted hfr⟩⟩
  split
  · next ws => exact ⟨h, .inl ⟨rfl, fun _ met => ws (zero.mpr met)⟩⟩
  next hfr hry =>
    have hfr : s.name ∉ names st.out := by simpa [names] using hfr
    refine ⟨⟨append_subset.mpr ⟨h.inside, by simpa using mem⟩, ?_, fun t ht => ?_,
      h.ordered.snoc (zero.mp (not_not.mp hry))⟩, .inr rfl⟩
    · rw [names, map_append]
      exact h.once.append (nodup_singleton _) (by simpa [disjoint_singleton] using hfr)
    have few := countP_emit hfr t.requires
    dsimp only
    rw [foldl_decrement, count_dependents unique ht, h.indeg t ht]
    omega

/-- A pass sorts steps, or every step that is left waits for one that is left. -/
lemma sortPass_counts (sub : rs ⊆ steps) (h : Counts steps st) :
    Counts steps (rs.foldl (sortVisit steps) st) ∧
      st.out.length ≤ (rs.foldl (sortVisit steps) st).out.length ∧
      ((rs.foldl (sortVisit steps) st).out.length = st.out.length →
        ∀ s ∈ rs, s.name ∉ names st.out → ¬s.requires ⊆ names st.out) := by
  induction rs generalizing st with
  | nil => exact ⟨h, le_rfl, by simp⟩
  | cons s rs ih =>
    rw [cons_subset] at sub
    obtain ⟨nx, hs | grown⟩ := sortVisit_counts unique sub.1 h
    · obtain ⟨hcts, le, stu⟩ := ih sub.2 nx
      rw [foldl_cons]
      rw [hs.1] at hcts le stu ⊢
      exact ⟨hcts, le, fun hsl => forall_mem_cons.mpr ⟨hs.2, stu hsl⟩⟩
    · obtain ⟨hcts, le, -⟩ := ih sub.2 nx
      rw [grown, length_append, length_singleton] at le
      exact ⟨hcts, by rw [foldl_cons]; omega, fun hsl => by rw [foldl_cons] at hsl; omega⟩

lemma sortLoop_result (h : Counts steps st) (heno : steps.length ≤ st.out.length + fuel)
    (res : sortLoop steps fuel st = .ok sorted) : sorted.Perm steps ∧ Ordered sorted := by
  induction fuel generalizing st with
  | zero =>
    cases res
    exact ⟨h.perm heno, h.ordered⟩
  | succ fuel ih =>
    unfold sortLoop at res
    split at res
    · next all =>
      cases res
      exact ⟨h.perm all, h.ordered⟩
    obtain ⟨hcts, le, -⟩ := sortPass_counts unique (Subset.refl _) h
    split at res
    · cases res
    · next hpgr => exact ih hcts (by unfold sortPass at hpgr; omega) res

/-- A pass over steps that are in order takes them all. -/
lemma foldl_sortVisit_ordered (hor : Ordered steps)
    (split : steps = hb ++ rs) (out : st.out = hb) (h : Counts steps st) :
    (rs.foldl (sortVisit steps) st).out = steps := by
  induction rs generalizing hb st with
  | nil => simp [split, out]
  | cons s rs ih =>
    obtain ⟨hcts, ⟨-, ws⟩ | grown⟩ := sortVisit_counts unique (s := s) (by simp [split]) h
    · have hfr : s.name ∉ names hb := by
        rw [split, names, map_append, map_cons, nodup_middle, nodup_cons, mem_append,
          not_or] at unique
        exact unique.1.1
      exact absurd (out ▸ hor hb s rs split) (ws (out ▸ hfr))
    · exact ih (show steps = (hb ++ [s]) ++ rs by simp [split]) (by rw [grown, out]) hcts

lemma acc_of_ordered (sub : l ⊆ steps) (hor : Ordered l) :
    ∀ n ∈ names l, Acc (Requires steps) n := by
  induction l using reverseRecOn with
  | nil => simp [names]
  | append_singleton l s ih =>
    rw [append_subset, cons_subset] at sub
    have hea := ih sub.1 fun hb u ha split =>
      hor hb u (ha ++ [s]) (by simp [split])
    have hlt : Acc (Requires steps) s.name := by
      refine Acc.intro _ fun dep nee => ?_
      obtain ⟨u, mem, hs, nee⟩ := nee
      cases inj_on_of_nodup_map unique mem sub.2.1 hs
      exact hea dep (hor l s [] rfl nee)
    rw [names, map_append]
    exact forall_mem_append.mpr ⟨hea, forall_mem_singleton.mpr hlt⟩

lemma counts_start : Counts steps (sortStart steps) := by
  refine ⟨by simp [sortStart], by simp [sortStart, names], fun t mem => ?_,
    by simp [sortStart, Ordered]⟩
  have hf :=
    (Rows.find?_key_iff unique).mpr ⟨mem, rfl⟩
  simp [sortStart, hf, names]

end

lemma exists_sortLoop (sortable : Sortable steps) (fuel : Nat) (h : Counts steps st) :
    ∃ sorted, sortLoop steps fuel st = .ok sorted := by
  induction fuel generalizing st with
  | zero => exact ⟨_, rfl⟩
  | succ fuel ih =>
    unfold sortLoop
    split
    · exact ⟨_, rfl⟩
    obtain ⟨hcts, -, stuck⟩ := sortPass_counts sortable.unique (Subset.refl _) h
    split
    · next hle hsl =>
      let rs : Set String := {n | n ∈ names steps ∧ n ∉ names st.out}
      have hsup : ∀ y ∈ rs, ∃ x ∈ rs, Requires steps x y := by
        rintro y ⟨mem, ws⟩
        obtain ⟨s, ht, rfl⟩ := mem_map.mp mem
        obtain ⟨dep, needed, hab⟩ : ∃ dep ∈ s.requires, dep ∉ names st.out := by
          simpa [subset_def] using stuck hsl s ht ws
        exact ⟨dep, ⟨sortable.known s ht needed, hab⟩, s, ht, rfl, needed⟩
      obtain ⟨n, mem⟩ : ∃ n, n ∈ rs := by
        by_contra none
        have sub : names steps ⊆ names st.out := fun n mem => by
          by_contra hab
          exact none ⟨n, mem, hab⟩
        exact hle (by simpa [names] using (sortable.unique.subperm sub).length_le)
      have finite : rs.Finite := (names steps).finite_toSet.subset fun n mem => mem.1
      obtain ⟨w, cyc, -⟩ := Elimination.downstream_of_supported finite hsup mem
      exact absurd (cyc.lift id fun _ _ edge => edge.2.2) (sortable.acyclic w)
    · exact ih hcts

lemma topoSort_ok_iff : topoSort steps = .ok sorted ↔
    checkNames [] steps = .ok () ∧ unknownRequirement steps = none ∧
      sortLoop steps steps.length (sortStart steps) = .ok sorted := by
  rw [topoSort, bind_ok_iff]
  cases unknownRequirement steps with
  | some err => simp
  | none => exact ⟨fun ⟨(), ok, loop⟩ => ⟨ok, rfl, loop⟩, fun ⟨ok, _, loop⟩ => ⟨(), ok, loop⟩⟩

lemma topoSort_result (res : topoSort steps = .ok sorted) :
    sorted.Perm steps ∧ Ordered sorted := by
  obtain ⟨hn, -, res⟩ := topoSort_ok_iff.mp res
  have unique := (checkNames_ok.mp hn).2
  exact sortLoop_result unique (counts_start unique) (by simp) res

lemma sortable_of_topoSort (res : topoSort steps = .ok sorted) : Sortable steps := by
  obtain ⟨perm, hor⟩ := topoSort_result res
  obtain ⟨hn, hk, -⟩ := topoSort_ok_iff.mp res
  obtain ⟨hn, unique⟩ := checkNames_ok.mp hn
  refine ⟨fun mem => (hn _ mem).1 rfl, unique, unknownRequirement_none.mp hk, ?_⟩
  intro name cyc
  obtain ⟨_, -, s, mem, rfl, -⟩ := TransGen.tail'_iff.mp cyc
  have ht : s.name ∈ names sorted := mem_map_of_mem (perm.mem_iff.mpr mem)
  exact Dfs.not_transGen_of_acc (acc_of_ordered unique perm.subset hor _ ht) cyc

lemma sortLoop_done (all : steps.length ≤ st.out.length) : sortLoop steps fuel st = .ok st.out := by
  cases fuel with
  | zero => rfl
  | succ fuel => exact if_pos all

lemma topoSort_of_ordered (res : topoSort steps = .ok sorted) (hor : Ordered steps) :
    sorted = steps := by
  obtain ⟨hn, -, res⟩ := topoSort_ok_iff.mp res
  have unique := (checkNames_ok.mp hn).2
  have pass := foldl_sortVisit_ordered unique hor (nil_append steps).symm rfl
    (counts_start unique)
  cases steps with
  | nil =>
    cases res
    rfl
  | cons s rs =>
    rw [length_cons, sortLoop, if_neg (by simp [sortStart]),
      if_neg (by rw [sortPass, pass]; simp [sortStart]),
      sortLoop_done (by rw [sortPass, pass])] at res
    exact (Except.ok.inj res).symm.trans pass

/-- TopoSort succeeds exactly on the sortable lists, with a permutation in which every step comes
after what it requires; and it leaves a list that is in order alone. -/
theorem topoSort_correct (steps : List Step) :
    ((∃ sorted, topoSort steps = .ok sorted) ↔ Sortable steps) ∧
      ∀ sorted, topoSort steps = .ok sorted →
        sorted.Perm steps ∧ Ordered sorted ∧ (Ordered steps → sorted = steps) := by
  refine ⟨⟨fun ⟨_, res⟩ => sortable_of_topoSort res, fun sor => ?_⟩,
    fun sorted res => ⟨(topoSort_result res).1, (topoSort_result res).2,
      topoSort_of_ordered res⟩⟩
  obtain ⟨sorted, res⟩ :=
    exists_sortLoop sor steps.length (counts_start sor.unique)
  refine ⟨sorted, topoSort_ok_iff.mpr ⟨checkNames_ok.mpr ⟨fun n mem => ?_, sor.unique⟩,
    unknownRequirement_none.mpr sor.known, res⟩⟩
  exact ⟨fun hem => sor.named (hem ▸ mem), not_mem_nil⟩

end Gibson.Saga
