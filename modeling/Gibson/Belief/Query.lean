import Mathlib.Algebra.BigOperators.Ring.Finset
import Mathlib.Algebra.Order.BigOperators.Group.Finset
import Mathlib.Algebra.Order.BigOperators.GroupWithZero.List
import Mathlib.Algebra.Order.Field.Rat
import Mathlib.Data.Prod.Lex
import Gibson.Belief.Factor

/-! Exact queries by variable elimination, in an order that keeps the factors small. -/

namespace Gibson.Belief

open List Rows Marginal Factor Evidence

def Evidence.without (evidence : Evidence) (name : String) : Evidence where
  entries := evidence.entries.filter (·.1 ≠ name)
  unique := evidence.unique.sublist (filter_sublist.map _)

def printMap (entries : List (String × String)) : String :=
  "map[" ++ " ".intercalate ((sortBy Prod.fst entries).map fun p => p.1 ++ ":" ++ p.2) ++ "]"

def zeroProbability (evidence : Evidence) (name : String) : String :=
  "beliefvi: evidence " ++ printMap evidence.entries ++
    " has zero probability under this model; P(" ++ name ++ " | evidence) is undefined"

def seenVars (factors : List Factor) : List String :=
  (factors.flatMap Factor.vars).foldl
    (fun seen v => if seen.contains v then seen else seen ++ [v]) []

def neighbours (scopes : List (List String)) (v : String) : List String :=
  ((scopes.filter (·.contains v)).flatten.dedup).filter (· ≠ v)

def mergeScopes (scopes : List (List String)) (v : String) : List (List String) :=
  let induced := neighbours scopes v
  let kept := scopes.filter fun scope => !scope.contains v
  if 0 < induced.length then kept ++ [induced] else kept

def eliminationLoop (position : String → Nat) : Nat → List (List String) → List String → List String
  | 0, _, _ => []
  | k + 1, scopes, remaining =>
    match sortBy (fun v => toLex ((neighbours scopes v).length, position v)) remaining with
    | [] => []
    | next :: rest => next :: eliminationLoop position k (mergeScopes scopes next) rest

def eliminationOrder (keep : List String) (factors : List Factor) : List String :=
  let seen := seenVars factors
  let remaining := seen.filter fun v => !keep.contains v
  eliminationLoop (fun v => seen.idxOf v) remaining.length (factors.map Factor.vars) remaining

def workingFactors (factors : List Factor) (evidence : Evidence) : List Factor :=
  (factors.map (Factor.reduce evidence)).filter fun f => 0 < f.vars.length

def scalar (factors : List Factor) (evidence : Evidence) : ℚ :=
  ((factors.map (Factor.reduce evidence)).filter fun f =>
    !decide (0 < f.vars.length)).foldl (fun constant f => constant * f.table.getD 0 0) 1

def eliminateVariable (working : List Factor) (v : String) : List Factor :=
  match working.filter fun f => (f.indexOfVariable v).isSome with
  | [] => working
  | first :: more =>
    working.filter (fun f => !(f.indexOfVariable v).isSome) ++
      [(more.foldl Factor.multiply first).sumOut v]

def normalise (working : List Factor) (name : String) (evidence : Evidence) :
    Except String (List (String × ℚ)) :=
  match working with
  | [] => .error (zeroProbability evidence name)
  | first :: more =>
    let table := (more.foldl Factor.multiply first).expand [name]
    let total := table.sum
    if total ≤ 0 then .error (zeroProbability evidence name)
    else .ok (states.zip (table.map fun x => x * (1 / total)))

/-- A query that eliminates the variables in the order that `order` gives. -/
def queryBy (order : List Factor → List String) (factors : List Factor) (name : String)
    (evidence : Evidence) : Except String (List (String × ℚ)) :=
  let ev := evidence.without name
  let working := workingFactors factors ev
  if scalar factors ev = 0 then .error (zeroProbability evidence name)
  else normalise ((order working).foldl eliminateVariable working) name evidence

def query (factors : List Factor) (name : String) (evidence : Evidence) :
    Except String (List (String × ℚ)) :=
  queryBy (eliminationOrder [name]) factors name evidence

def allVars (factors : List Factor) (evidence : Evidence) : Finset String :=
  (factors.flatMap Factor.vars ++ evidence.entries.map Prod.fst).toFinset

def joint (factors : List Factor) (a : String → Bool) : ℚ := (factors.map (·.val a)).prod

def Consistent (evidence : Evidence) (T : Finset String) : Prop :=
  ∀ p ∈ evidence.entries, p.1 ∈ T ↔ p.2 = "true"

instance (evidence : Evidence) : DecidablePred (Consistent evidence) := fun _ =>
  inferInstanceAs (Decidable (∀ p ∈ evidence.entries, _))

def mass (factors : List Factor) (name : String) (evidence : Evidence) (value : Bool) : ℚ :=
  ∑ T ∈ (allVars factors evidence).powerset with
    Consistent evidence T ∧ decide (name ∈ T) = value, joint factors fun v => decide (v ∈ T)

/-- The normalised sums, or an error where both are zero. -/
def posterior (factors : List Factor) (name : String) (evidence : Evidence) :
    Except String (List (String × ℚ)) :=
  let low := mass factors name evidence false
  let high := mass factors name evidence true
  if low + high = 0 then .error (zeroProbability evidence name)
  else .ok [("false", low / (low + high)), ("true", high / (low + high))]

def InScope (factors : List Factor) (v : String) : Prop := ∃ f ∈ factors, v ∈ f.vars

/-- The order lists every variable but the queried one, once. -/
def Eliminates (order : List Factor → List String) (name : String) : Prop :=
  ∀ working, (order working).Nodup ∧ ∀ v, v ∈ order working ↔ InScope working v ∧ v ≠ name

lemma seenVars_spec (factors) :
    (seenVars factors).Nodup ∧ ∀ v, v ∈ seenVars factors ↔ InScope factors v := by
  have fold (its hsn : List String) (hnd : hsn.Nodup) :
      (its.foldl (fun hsn v => if hsn.contains v then hsn else hsn ++ [v]) hsn).Nodup ∧
        ∀ v, v ∈ its.foldl (fun hsn v => if hsn.contains v then hsn else hsn ++ [v]) hsn ↔
          v ∈ hsn ∨ v ∈ its := by
    induction its generalizing hsn with
    | nil => exact ⟨hnd, by simp⟩
    | cons it rs ih =>
      rw [foldl_cons]
      split
      · rename_i hk
        obtain ⟨nod', mem⟩ := ih hsn hnd
        refine ⟨nod', fun v => ?_⟩
        rw [mem, mem_cons]
        have hh : it ∈ hsn := contains_iff_mem.mp hk
        constructor
        · tauto
        rintro (old | rfl | later)
        · exact .inl old
        · exact .inl hh
        · exact .inr later
      · rename_i new
        have hfr : it ∉ hsn := fun hh => new (contains_iff_mem.mpr hh)
        obtain ⟨nod', mem⟩ := ih (hsn ++ [it])
          (nodup_append.mpr ⟨hnd, nodup_singleton it, by
            rintro a old b new rfl
            exact hfr (mem_singleton.mp new ▸ old)⟩)
        refine ⟨nod', fun v => ?_⟩
        rw [mem, mem_append, mem_singleton, mem_cons, or_assoc]
  obtain ⟨hnd, mem⟩ := fold (factors.flatMap vars) [] .nil
  refine ⟨hnd, fun v => ?_⟩
  rw [seenVars, mem, InScope, mem_flatMap]
  simp

lemma eliminationLoop_perm (ps : String → Nat) (k : Nat) (sco : List (List String))
    (ct : hrem.length = k) :
    (eliminationLoop ps k sco hrem).Perm hrem := by
  induction k generalizing sco hrem with
  | zero => rw [length_eq_zero_iff.mp ct, eliminationLoop]
  | succ k ih =>
    have perm := sortBy_perm (fun v => toLex ((neighbours sco v).length, ps v)) hrem
    rw [eliminationLoop]
    split
    · rename_i hem
      rwa [hem] at perm
    · rename_i nx rs split
      rw [split] at perm
      have sz : rs.length = k := by
        have len := perm.length_eq
        rw [length_cons] at len
        omega
      exact ((ih _ sz).cons nx).trans perm

lemma eliminationOrder_eliminates (name) : Eliminates (eliminationOrder [name]) name := by
  intro working
  obtain ⟨hnd, mem⟩ := seenVars_spec working
  have perm : (eliminationOrder [name] working).Perm
      ((seenVars working).filter fun v => !contains [name] v) :=
    eliminationLoop_perm _ _ _ rfl
  refine ⟨perm.nodup_iff.mpr (hnd.filter _), fun v => ?_⟩
  rw [perm.mem_iff, mem_filter, mem]
  simp

section Elimination
variable {working : List Factor}

lemma dependsOn_joint (factors) : DependsOn (joint factors) { v | InScope factors v } := by
  intro a b hs
  refine congrArg prod (map_congr_left fun f mem => ?_)
  exact f.dependsOn_val fun v hi => hs v ⟨f, mem, hi⟩

lemma joint_append (left right) (a : String → Bool) :
    joint (left ++ right) a = joint left a * joint right a := by
  rw [joint, map_append, prod_append]
  rfl

lemma joint_split (p : Factor → Bool) (factors) (a : String → Bool) :
    joint factors a = joint (factors.filter fun f => !p f) a * joint (factors.filter p) a := by
  rw [← joint_append]
  have perm :=
    perm_append_comm.trans (filter_append_perm p factors)
  exact ((perm.map _).prod_eq).symm

lemma foldl_multiply (first_wf : h1.WellFormed) (more_wf : ∀ f ∈ more, f.WellFormed) :
    (more.foldl multiply h1).WellFormed ∧
      (∀ w, w ∈ (more.foldl multiply h1).vars ↔ InScope (h1 :: more) w) ∧
      ∀ a, (more.foldl multiply h1).val a = joint (h1 :: more) a := by
  induction more generalizing h1 with
  | nil => exact ⟨first_wf, by simp [InScope], by simp [joint]⟩
  | cons nx more ih =>
    have next_wf := more_wf nx mem_cons_self
    obtain ⟨wf, vars, val⟩ := ih (wellFormed_multiply first_wf next_wf)
      fun f mem => more_wf f (mem_cons_of_mem _ mem)
    refine ⟨wf, fun w => ?_, fun a => ?_⟩
    · rw [foldl_cons, vars]
      simp only [InScope, mem_cons, exists_eq_or_imp, mem_vars_multiply, or_assoc]
    · rw [foldl_cons, val]
      simp only [joint, map_cons, prod_cons, val_multiply first_wf next_wf, mul_assoc]

variable {f : Factor}

def mentions (v : String) (f : Factor) : Bool := (f.indexOfVariable v).isSome

lemma mentions_iff : mentions v f = true ↔ v ∈ f.vars := by
  rw [mentions, Option.isSome_iff_ne_none, Ne, indexOfVariable, idxOf?_eq_none_iff, not_not]

lemma mem_involved : f ∈ working.filter (mentions v) ↔ f ∈ working ∧ v ∈ f.vars := by
  rw [mem_filter, mentions_iff]

lemma mem_others : f ∈ working.filter (fun f => !mentions v f) ↔ f ∈ working ∧ v ∉ f.vars := by
  rw [mem_filter, Bool.not_eq_true', ← Bool.not_eq_true, mentions_iff]

lemma inScope_eliminated {pd : Factor} (hdi : pd.vars.Nodup)
    (vars : ∀ w, w ∈ pd.vars ↔ InScope (working.filter (mentions v)) w) (w) :
    InScope (working.filter (fun f => !mentions v f) ++ [pd.sumOut v]) w ↔
      InScope working w ∧ w ≠ v := by
  constructor
  · rintro ⟨f, mem, hh⟩
    rcases mem_append.mp mem with rs | last
    · obtain ⟨mb, hwo⟩ := mem_others.mp rs
      exact ⟨⟨f, mb, hh⟩, ne_of_mem_of_not_mem hh hwo⟩
    rw [mem_singleton.mp last, vars_sumOut, hdi.mem_erase_iff, vars] at hh
    obtain ⟨hpt, g, mb, ht⟩ := hh
    exact ⟨⟨g, (mem_involved.mp mb).1, ht⟩, hpt⟩
  · rintro ⟨⟨f, mem, hh⟩, hpt⟩
    by_cases mentions : v ∈ f.vars
    · refine ⟨_, mem_append_right _ (mem_singleton_self _), ?_⟩
      rw [vars_sumOut, hdi.mem_erase_iff, vars]
      exact ⟨hpt, f, mem_involved.mpr ⟨mem, mentions⟩, hh⟩
    · exact ⟨f, mem_append_left _ (mem_others.mpr ⟨mem, mentions⟩), hh⟩

lemma joint_eliminated {pd : Factor} (hdi : pd.vars.Nodup)
    (hh : v ∈ pd.vars) (val : ∀ a, pd.val a = joint (working.filter (mentions v)) a) :
    joint (working.filter (fun f => !mentions v f) ++ [pd.sumOut v]) =
      sumOut v (joint working) := by
  funext a
  have split : joint working = fun a =>
      joint (working.filter fun f => !mentions v f) a *
        joint (working.filter (mentions v)) a := by
    funext a
    rw [joint_split (mentions v)]
  have hout : v ∉ { w | InScope (working.filter fun f => !mentions v f) w } := by
    rintro ⟨f, mem, mentions⟩
    exact (mem_others.mp mem).2 mentions
  have hlt : joint [pd.sumOut v] a = sumOut v (joint (working.filter (mentions v))) a := by
    rw [joint, map_singleton, prod_singleton, val_sumOut hdi hh, funext val]
  rw [split, sumOut_mul (dependsOn_joint _) hout, joint_append, hlt]

lemma eliminateVariable_spec (wf : ∀ f ∈ working, f.WellFormed) (hi : InScope working v) :
    (∀ f ∈ eliminateVariable working v, f.WellFormed) ∧
      (∀ w, InScope (eliminateVariable working v) w ↔ InScope working w ∧ w ≠ v) ∧
      joint (eliminateVariable working v) = sumOut v (joint working) := by
  rw [eliminateVariable]
  split
  · rename_i none
    obtain ⟨f, mem, mentions⟩ := hi
    exact absurd (mentions_iff.mpr mentions) (filter_eq_nil_iff.mp none f mem)
  · rename_i h1 more inv
    have hl {f} (mem : f ∈ h1 :: more) : f ∈ working ∧ v ∈ f.vars := by
      rw [← inv] at mem
      exact mem_involved.mp mem
    obtain ⟨product_wf, vars, val⟩ := foldl_multiply (wf h1 (hl mem_cons_self).1)
      fun f mem => wf f (hl (mem_cons_of_mem _ mem)).1
    have hh :=
      (vars v).mpr ⟨h1, mem_cons_self, (hl mem_cons_self).2⟩
    rw [← inv] at vars val
    exact ⟨forall_mem_append.mpr ⟨fun f rs => wf f (mem_others.mp rs).1,
        forall_mem_singleton.mpr (wellFormed_sumOut product_wf v)⟩,
      inScope_eliminated product_wf.distinct vars, joint_eliminated product_wf.distinct hh val⟩

lemma eliminateAll_spec (hnd : order.Nodup)
    (wf : ∀ f ∈ working, f.WellFormed) (hi : ∀ v ∈ order, InScope working v) :
    (∀ f ∈ order.foldl eliminateVariable working, f.WellFormed) ∧
      (∀ w, InScope (order.foldl eliminateVariable working) w ↔ InScope working w ∧ w ∉ order) ∧
      joint (order.foldl eliminateVariable working) = sumOutAll order (joint working) := by
  induction order generalizing working with
  | nil => exact ⟨wf, by simp, rfl⟩
  | cons v rs ih =>
    obtain ⟨hfr, hnd⟩ := nodup_cons.mp hnd
    obtain ⟨wf', sc, vl⟩ := eliminateVariable_spec wf (hi v mem_cons_self)
    obtain ⟨wf'', sco', val'⟩ := ih hnd wf' fun w mem =>
      (sc w).mpr ⟨hi w (mem_cons_of_mem _ mem), ne_of_mem_of_not_mem mem hfr⟩
    refine ⟨wf'', fun w => ?_, ?_⟩
    · rw [foldl_cons, sco', sc, mem_cons, not_or, and_assoc]
    · rw [foldl_cons, val', vl]
      rfl

end Elimination

section Mass
variable {factors : List Factor} {name : String} {evidence : Evidence}
variable {v : String}

lemma Evidence.get?_eq_none : evidence.get? v = none ↔ v ∉ evidence.entries.map Prod.fst := by
  rw [get?, Option.map_eq_none_iff, find?_eq_none]
  simp only [beq_iff_eq, mem_map, not_exists, not_and]

lemma without_of_absent (hab : evidence.get? name = none) :
    evidence.without name = evidence := by
  have all : evidence.entries.filter (·.1 ≠ name) = evidence.entries := by
    refine filter_eq_self.mpr fun p mem => decide_eq_true ?_
    rintro rfl
    exact get?_eq_none.mp hab (mem_map_of_mem mem)
  obtain ⟨ens, hun⟩ := evidence
  simp only [without, all]

lemma inScope_working : InScope (workingFactors factors evidence) v ↔
    InScope factors v ∧ evidence.get? v = none := by
  have kp (f : Factor) : v ∈ (f.reduce evidence).vars ↔ v ∈ f.vars ∧ evidence.get? v = none := by
    rw [vars_reduce, mem_filter, Option.isNone_iff_eq_none]
  constructor
  · rintro ⟨g, mem, hh⟩
    obtain ⟨f, hl, rfl⟩ := mem_map.mp (mem_of_mem_filter mem)
    obtain ⟨ht, none⟩ := (kp f).mp hh
    exact ⟨⟨f, hl, ht⟩, none⟩
  · rintro ⟨⟨f, hl, ht⟩, none⟩
    have hh := (kp f).mpr ⟨ht, none⟩
    refine ⟨_, mem_filter.mpr ⟨mem_map_of_mem hl, ?_⟩, hh⟩
    exact decide_eq_true (length_pos_of_mem hh)

lemma foldl_scalar (bare : ∀ f ∈ sca, f.vars = []) (s0 : ℚ) (a : String → Bool) :
    sca.foldl (fun con f => con * f.table.getD 0 0) s0 =
      s0 * joint sca a := by
  induction sca generalizing s0 with
  | nil => simp [joint]
  | cons f rs ih =>
    have en : f.val a = f.table.getD 0 0 := by
      rw [val, bare f mem_cons_self]
      rfl
    rw [foldl_cons, ih fun g mem => bare g (mem_cons_of_mem _ mem), ← en, mul_assoc]
    simp [joint]

lemma scalars_bare (factors : List Factor) (evidence) :
    ∀ f ∈ (factors.map (reduce evidence)).filter fun f => !decide (0 < f.vars.length),
      f.vars = [] := by
  intro f mem
  have hem := (mem_filter.mp mem).2
  rw [Bool.not_eq_true', decide_eq_false_iff_not, Nat.not_lt, Nat.le_zero] at hem
  exact length_eq_zero_iff.mp hem

lemma joint_fix (hva : evidence.Valid) (a : String → Bool) : joint factors (evidence.fix a) =
      scalar factors evidence * joint (workingFactors factors evidence) a := by
  have red : joint factors (evidence.fix a) = joint (factors.map (reduce evidence)) a := by
    rw [joint, joint, map_map]
    exact congrArg prod (map_congr_left fun f _ => (val_reduce hva f a).symm)
  rw [red, joint_split fun f => 0 < f.vars.length, scalar,
    foldl_scalar (scalars_bare factors evidence) 1 a, one_mul]
  rfl

def givenValue (name : String) (evidence : Evidence) (value : Bool) (v : String) : Option Bool :=
  if v = name then some value else (evidence.get? v).map (· == "true")

lemma givenValue_self (vl : Bool) : givenValue name evidence vl name = some vl :=
  if_pos rfl

lemma givenValue_of_ne (ho : v ≠ name) (vl : Bool) :
    givenValue name evidence vl v = (evidence.get? v).map (· == "true") :=
  if_neg ho

lemma mem_allVars : v ∈ allVars factors evidence ↔
    InScope factors v ∨ v ∈ evidence.entries.map Prod.fst := by
  rw [allVars, mem_toFinset, mem_append, mem_flatMap]
  rfl

lemma ne_of_seen (hab : evidence.get? name = none)
    (hsn : evidence.get? v = some state) : v ≠ name := by
  rintro rfl
  exact absurd (hsn.symm.trans hab) (by simp)

lemma consistent_iff_agrees (hab : evidence.get? name = none) (hocc : InScope factors name)
    (vl : Bool) (T : Finset String) : Consistent evidence T ∧ decide (name ∈ T) = vl ↔
      Agrees (allVars factors evidence) (givenValue name evidence vl) T := by
  constructor
  · rintro ⟨hco, hak⟩ v - b hgiv
    by_cases hs : v = name
    · subst hs
      rw [givenValue_self] at hgiv
      exact hak.trans (Option.some.inj hgiv)
    · rw [givenValue_of_ne hs, Option.map_eq_some_iff] at hgiv
      obtain ⟨st, hsn, rfl⟩ := hgiv
      have observed := hco _ (get?_eq_some.mp hsn)
      rwa [Bool.eq_iff_iff, decide_eq_true_iff, beq_iff_eq]
  · intro agr
    refine ⟨fun p mem => ?_, ?_⟩
    · have hsn : evidence.get? p.1 = some p.2 := get?_eq_some.mpr mem
      have hgiv : givenValue name evidence vl p.1 = some (p.2 == "true") := by
        rw [givenValue_of_ne (ne_of_seen hab hsn), hsn, Option.map_some]
      have observed := agr p.1 (mem_allVars.mpr (.inr (mem_map_of_mem mem))) _ hgiv
      rwa [Bool.eq_iff_iff, decide_eq_true_iff, beq_iff_eq] at observed
    · exact agr name (mem_allVars.mpr (.inl hocc)) vl (givenValue_self vl)

section Order
variable {order : List String}
  (hli : ∀ v, v ∈ order ↔ InScope (workingFactors factors evidence) v ∧ v ≠ name)
include hli

lemma free_eq (vl : Bool) :
    (allVars factors evidence).filter (givenValue name evidence vl · = none) =
      order.toFinset := by
  ext v
  rw [Finset.mem_filter, mem_allVars, mem_toFinset, hli, inScope_working]
  by_cases hs : v = name
  · subst hs
    simp [givenValue_self]
  rw [givenValue_of_ne hs, Option.map_eq_none_iff, and_iff_left hs]
  constructor
  · rintro ⟨hi, none⟩
    exact ⟨hi.resolve_right (get?_eq_none.mp none), none⟩
  · exact fun both => ⟨.inl both.1, both.2⟩

lemma read_term (hab : evidence.get? name = none) (vl : Bool)
    (sub : S ⊆ order.toFinset) (hi : InScope factors v) :
    decide (v ∈ S ∪ (allVars factors evidence).filter
        (givenValue name evidence vl · = some true)) =
      evidence.fix (patch order S fun _ => vl) v := by
  have hh : v ∈ allVars factors evidence := mem_allVars.mpr (.inl hi)
  have hl (mem : v ∈ S) : InScope (workingFactors factors evidence) v ∧ v ≠ name :=
    (hli v).mp (mem_toFinset.mp (sub mem))
  rw [Bool.eq_iff_iff, decide_eq_true_iff, Finset.mem_union, Finset.mem_filter, fix]
  cases hsn : evidence.get? v with
  | some st =>
    have off : v ∉ S := by
      intro mem
      exact absurd (hsn.symm.trans (inScope_working.mp (hl mem).1).2) (by simp)
    rw [givenValue_of_ne (ne_of_seen hab hsn), hsn]
    simp [off, hh]
  | none =>
    by_cases hs : v = name
    · subst hs
      have off : v ∉ S := fun mem => (hl mem).2 rfl
      have hlt : v ∉ order := fun mem => ((hli v).mp mem).2 rfl
      simp [off, hh, givenValue_self, patch, hlt]
    · have mb : v ∈ order := (hli v).mpr ⟨inScope_working.mpr ⟨hi, hsn⟩, hs⟩
      rw [givenValue_of_ne hs, hsn]
      simp [patch, mb]

lemma mass_eq (hnd : order.Nodup) (hva : evidence.Valid) (hab : evidence.get? name = none)
    (hocc : InScope factors name) (vl : Bool) :
    mass factors name evidence vl = scalar factors evidence *
      sumOutAll order (joint (workingFactors factors evidence)) fun _ => vl := by
  rw [mass, sum_agreeing _ _ fun T _ => consistent_iff_agrees hab hocc vl T,
    free_eq hli vl, sumOutAll_eq_sum hnd, Finset.mul_sum]
  refine Finset.sum_congr rfl fun S mem => ?_
  rw [← joint_fix hva]
  exact dependsOn_joint factors fun v hi =>
    read_term hli hab vl (Finset.mem_powerset.mp mem) hi

end Order
end Mass

section Query
variable {factors : List Factor} {name : String} {evidence : Evidence}

lemma val_nonneg {f : Factor} (nonneg : ∀ x ∈ f.table, 0 ≤ x) (a : String → Bool) :
    0 ≤ f.val a := by
  rw [Factor.val, Factor.at, getD_eq_getElem?_getD]
  cases en : f.table[flatIndex (bitsUnder a f.vars)]? with
  | none => exact le_refl _
  | some x => exact nonneg x (mem_of_getElem? en)

section
variable (nonneg : ∀ f ∈ factors, ∀ x ∈ f.table, 0 ≤ x)
include nonneg

lemma scalar_nonneg (hva : evidence.Valid) : 0 ≤ scalar factors evidence := by
  rw [scalar, foldl_scalar (scalars_bare factors evidence) 1 fun _ => false, one_mul]
  refine prod_nonneg fun x mem => ?_
  obtain ⟨g, hl, rfl⟩ := mem_map.mp mem
  obtain ⟨f, ht, rfl⟩ := mem_map.mp (mem_of_mem_filter hl)
  rw [val_reduce hva]
  exact val_nonneg (nonneg f ht) _

lemma mass_nonneg (name evidence) (vl : Bool) : 0 ≤ mass factors name evidence vl := by
  refine Finset.sum_nonneg fun a _ => prod_nonneg fun x mem => ?_
  obtain ⟨f, hl, rfl⟩ := mem_map.mp mem
  exact val_nonneg (nonneg f hl) _

end

lemma expand_singleton {f : Factor} (hdi : f.vars.Nodup) (only : ∀ v ∈ f.vars, v = name) :
    f.expand [name] = [f.val fun _ => false, f.val fun _ => true] := by
  have sub (v : String) (mem : v ∈ f.vars) : v ∈ [name] := mem_singleton.mpr (only v mem)
  have low := expand_getD hdi sub fun _ => false
  have high := expand_getD hdi sub fun _ => true
  have sz := length_expand f [name]
  obtain ⟨x, y, table⟩ := length_eq_two.mp (sz.trans (by simp))
  have zero : flatIndex (bitsUnder (fun _ => false) [name]) = 0 := show flatIndex [0] = 0 by decide
  have one : flatIndex (bitsUnder (fun _ => true) [name]) = 1 := show flatIndex [1] = 1 by decide
  rw [zero] at low
  rw [one] at high
  rw [← low, ← high]
  rfl

lemma normalise_eq {fin : List Factor} (wf : ∀ f ∈ fin, f.WellFormed)
    (sc : ∀ w, InScope fin w ↔ w = name) (evidence) :
    normalise fin name evidence =
      if joint fin (fun _ => false) + joint fin (fun _ => true) ≤ 0 then
        .error (zeroProbability evidence name) else .ok [ ("false", joint fin (fun _ => false) *
          (1 / (joint fin (fun _ => false) + joint fin fun _ => true))),
        ("true", joint fin (fun _ => true) *
          (1 / (joint fin (fun _ => false) + joint fin fun _ => true)))] := by
  cases fin with
  | nil =>
    obtain ⟨f, mem, -⟩ := (sc name).mpr rfl
    exact absurd mem not_mem_nil
  | cons h1 more =>
    obtain ⟨product_wf, vars, val⟩ := foldl_multiply (wf h1 mem_cons_self)
      fun f mem => wf f (mem_cons_of_mem _ mem)
    have only (v : String) (mem : v ∈ (more.foldl multiply h1).vars) : v = name :=
      (sc v).mp ((vars v).mp mem)
    simp only [normalise, expand_singleton product_wf.distinct only, val, sum_cons,
      sum_nil, add_zero]
    rfl

lemma queryBy_eq {order : List Factor → List String} (eli : Eliminates order name)
    (wf : ∀ f ∈ factors, f.WellFormed) (nonneg : ∀ f ∈ factors, ∀ x ∈ f.table, 0 ≤ x)
    (hocc : InScope factors name) (hva : evidence.Valid) (hab : evidence.get? name = none) :
    queryBy order factors name evidence = posterior factors name evidence := by
  obtain ⟨hnd, hli⟩ := eli (workingFactors factors evidence)
  have hh := inScope_working.mpr ⟨hocc, hab⟩
  have working_wf : ∀ f ∈ workingFactors factors evidence, f.WellFormed := by
    intro g mem
    obtain ⟨f, hl, rfl⟩ := mem_map.mp (mem_of_mem_filter mem)
    refine ⟨by rw [vars_reduce]; exact (wf f hl).distinct.filter _, ?_⟩
    rw [Factor.reduce]
    split
    · exact (wf f hl).size
    · simp only [length_tabulate]
  obtain ⟨final_wf, sc, vl⟩ := eliminateAll_spec hnd working_wf fun v mem =>
    ((hli v).mp mem).1
  have only (w : String) : InScope ((order (workingFactors factors evidence)).foldl
      eliminateVariable (workingFactors factors evidence)) w ↔ w = name := by
    rw [sc, hli]
    constructor
    · rintro ⟨hi, out⟩
      by_contra other
      exact out ⟨hi, other⟩
    · rintro rfl
      exact ⟨hh, fun mem => mem.2 rfl⟩
  have low := mass_nonneg nonneg name evidence false
  have high := mass_nonneg nonneg name evidence true
  have con := scalar_nonneg nonneg hva
  have query : queryBy order factors name evidence =
      if scalar factors evidence = 0 then .error (zeroProbability evidence name)
      else normalise ((order (workingFactors factors evidence)).foldl eliminateVariable
        (workingFactors factors evidence)) name evidence := by
    rw [queryBy, without_of_absent hab]
  rw [query, normalise_eq final_wf only, posterior]
  simp only [mass_eq hli hnd hva hab hocc, ← vl] at low high ⊢
  generalize joint _ (fun _ => false) = x at *
  generalize joint _ (fun _ => true) = y at *
  generalize scalar factors evidence = c at *
  rw [← mul_add]
  by_cases none : c = 0
  · rw [if_pos none, if_pos (by rw [none, zero_mul])]
  -- The scalar is positive, so it changes neither the sign of the sum nor the quotients.
  have hpo : 0 < c := lt_of_le_of_ne con (Ne.symm none)
  have sum : 0 ≤ x + y :=
    add_nonneg (nonneg_of_mul_nonneg_right low hpo) (nonneg_of_mul_nonneg_right high hpo)
  rw [if_neg none]
  by_cases zero : x + y = 0
  · rw [if_pos zero.le, if_pos (by rw [zero, mul_zero])]
  have tot : c * (x + y) ≠ 0 := mul_ne_zero none zero
  rw [if_neg (fun le => zero (le_antisymm le sum)), if_neg tot,
    mul_div_mul_left _ _ none, mul_div_mul_left _ _ none, mul_one_div, mul_one_div]

/-- Variable elimination is exact, whatever order the variables are eliminated in. -/
theorem query_exact (factors : List Factor) (name : String) (evidence : Evidence)
    (wf : ∀ f ∈ factors, f.WellFormed) (nonneg : ∀ f ∈ factors, ∀ x ∈ f.table, 0 ≤ x)
    (occurs : ∃ f ∈ factors, name ∈ f.vars)
    (valid : ∀ p ∈ evidence.entries, p.1 ≠ name ∧ p.2 ∈ states) :
    (∀ order, Eliminates order name →
      queryBy order factors name evidence = posterior factors name evidence) ∧
    query factors name evidence = posterior factors name evidence := by
  have hab : evidence.get? name = none := by
    rw [get?_eq_none, mem_map]
    rintro ⟨p, mem, hs⟩
    exact (valid p mem).1 hs
  have hk : evidence.Valid := fun p mem => (valid p mem).2
  refine ⟨fun order eli => queryBy_eq eli wf nonneg occurs hk hab, ?_⟩
  exact queryBy_eq (eliminationOrder_eliminates name) wf nonneg occurs hk hab

/-- An answer is a probability distribution, and the order in which the factors are listed does
not change it. -/
theorem query_distribution (wf : ∀ f ∈ factors, f.WellFormed)
    (nonneg : ∀ f ∈ factors, ∀ x ∈ f.table, 0 ≤ x) (occurs : InScope factors name)
    (valid : evidence.Valid) (absent : evidence.get? name = none) (listed : Perm others factors) :
    query others name evidence = query factors name evidence ∧
      ∀ answer, query factors name evidence = .ok answer →
        ∃ p, 0 ≤ p ∧ p ≤ 1 ∧ answer = [("false", 1 - p), ("true", p)] := by
  have exact {l} (perm : Perm l factors) : query l name evidence = posterior l name evidence := by
    refine queryBy_eq (eliminationOrder_eliminates name) ?_ ?_ ?_ valid absent
    · exact fun f mem => wf f (perm.mem_iff.mp mem)
    · exact fun f mem => nonneg f (perm.mem_iff.mp mem)
    · obtain ⟨f, mem, hi⟩ := occurs
      exact ⟨f, perm.mem_iff.mpr mem, hi⟩
  have hs : mass others name evidence = mass factors name evidence := by
    funext value
    have vars : allVars others evidence = allVars factors evidence :=
      toFinset_eq_of_perm _ _ ((listed.flatMap_right _).append_right _)
    have pd : joint others = joint factors := funext fun a => (listed.map _).prod_eq
    rw [mass, vars, pd, mass]
  rw [exact listed, exact (.refl _)]
  have low := mass_nonneg nonneg name evidence false
  have high := mass_nonneg nonneg name evidence true
  refine ⟨by rw [posterior, posterior, hs], fun answer hf => ?_⟩
  dsimp only [posterior] at hf
  split at hf
  · cases hf
  next some =>
  cases hf
  have tot := lt_of_le_of_ne (add_nonneg low high) (Ne.symm some)
  refine ⟨_, div_nonneg high tot.le, (div_le_one₀ tot).mpr (le_add_of_nonneg_left low), ?_⟩
  rw [one_sub_div some, add_sub_cancel_right]

end Query

def causeAndEffect : List Factor :=
  [⟨["cause"], [1, 1]⟩, ⟨["effect", "cause"], [4, 1, 0, 3]⟩]

def effectSeen : Evidence := ⟨[("effect", "true")], by decide⟩

theorem query_exact_cause :
    (∀ f ∈ causeAndEffect, f.WellFormed) ∧ (∀ f ∈ causeAndEffect, ∀ x ∈ f.table, 0 ≤ x) ∧
      (∃ f ∈ causeAndEffect, "cause" ∈ f.vars) ∧
      (∀ p ∈ effectSeen.entries, p.1 ≠ "cause" ∧ p.2 ∈ states) ∧
      query causeAndEffect "cause" effectSeen = posterior causeAndEffect "cause" effectSeen := by
  have wf : ∀ f ∈ causeAndEffect, f.WellFormed := by
    intro f mem
    simp only [causeAndEffect, mem_cons, not_mem_nil, or_false] at mem
    rcases mem with rfl | rfl <;> exact ⟨by decide, by decide⟩
  have nonneg : ∀ f ∈ causeAndEffect, ∀ x ∈ f.table, 0 ≤ x := by decide
  have hocc : ∃ f ∈ causeAndEffect, "cause" ∈ f.vars := by decide
  have hva : ∀ p ∈ effectSeen.entries, p.1 ≠ "cause" ∧ p.2 ∈ states := by decide
  exact ⟨wf, nonneg, hocc, hva,
    (query_exact causeAndEffect "cause" effectSeen wf nonneg hocc hva).2⟩

theorem query_distribution_cause :
    query causeAndEffect.reverse "cause" effectSeen = query causeAndEffect "cause" effectSeen := by
  have wf : ∀ f ∈ causeAndEffect, f.WellFormed := by
    simpa [causeAndEffect] using And.intro ⟨by decide, by decide⟩ ⟨by decide, by decide⟩
  have hocc : ∃ f ∈ causeAndEffect, "cause" ∈ f.vars := by decide
  have hva : ∀ p ∈ effectSeen.entries, p.2 ∈ states := by decide
  exact (query_distribution wf (by decide) hocc hva (by decide) (reverse_perm _)).1

end Gibson.Belief
