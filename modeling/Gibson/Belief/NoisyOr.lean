import Mathlib
import Gibson.Belief.Query

/-! The noisy-OR table of a variable as a chain of mechanisms and OR gates. -/

namespace Gibson.Belief

open List Marginal Function

/-- A parent and its link strength. -/
structure NoisyOrCause where
  parent : String
  strength : ℚ

def leakVar (name : String) : String := name ++ "__leak"

def mechanismVar (name : String) (i : Nat) : String := name ++ "__z" ++ toString i

def orVar (name : String) (i : Nat) : String := name ++ "__or" ++ toString i

def orTable : List ℚ := [1, 0, 0, 0, 0, 1, 1, 1]

def mechanismFactors (name : String) : Nat → List NoisyOrCause → Except String (List Factor)
  | _, [] => pure []
  | i, cause :: rest => do
    let f ← newFactor [mechanismVar name i, cause.parent] [1, 1 - cause.strength, 0, cause.strength]
    let more ← mechanismFactors name (i + 1) rest
    pure (f :: more)

/-- The gates from mechanism `i` on, `k` of them. The last one has the variable itself as output. -/
def orFactors (name : String) : Nat → String → Nat → Except String (List Factor)
  | _, _, 0 => pure []
  | i, acc, k + 1 => do
    let out := if k = 0 then name else orVar name i
    let f ← newFactor [out, acc, mechanismVar name i] orTable
    let more ← orFactors name (i + 1) out k
    pure (f :: more)

def decompose (name : String) (leak : ℚ) : List NoisyOrCause → Except String (List Factor)
  | [] => do
    let f ← newFactor [name] [1 - leak, leak]
    pure [f]
  | cause :: rest => do
    let leakFactor ← newFactor [leakVar name] [1 - leak, leak]
    let mechanisms ← mechanismFactors name 0 (cause :: rest)
    let gates ← orFactors name 0 (leakVar name) (cause :: rest).length
    pure (leakFactor :: (mechanisms ++ gates))

/-- The leak is tested first, then the strengths in order. -/
def noisyOrFactors (name : String) (causes : List NoisyOrCause) (leak : ℚ) :
    Except String (List Factor) :=
  if leak < 0 ∨ 1 < leak then
    .error ("beliefvi: leak must be in [0, 1], got " ++ toString leak)
  else
    match causes.find? fun c => decide (c.strength < 0 ∨ 1 < c.strength) with
    | some c =>
      .error ("beliefvi: cause \"" ++ c.parent ++ "\" strength must be in [0, 1], got " ++
        toString c.strength)
    | none => decompose name leak causes

/-- The probability that the variable is true, given its parents. -/
def noisyOr (leak : ℚ) (causes : List NoisyOrCause) (a : String → Bool) : ℚ :=
  1 - (1 - leak) * ((causes.filter fun c => a c.parent).map fun c => 1 - c.strength).prod

/-- The auxiliary variables from mechanism `i` on: its accumulator, its mechanism, and those of the
next gate. -/
def auxFrom (name : String) : Nat → String → Nat → List String
  | _, _, 0 => []
  | i, acc, k + 1 => acc :: mechanismVar name i :: auxFrom name (i + 1) (orVar name i) k

/-- The auxiliary variables of a noisy-OR over `k` causes. -/
def auxVars (name : String) (k : Nat) : List String := auxFrom name 0 (leakVar name) k

def mechanismList (name : String) : Nat → List NoisyOrCause → List Factor
  | _, [] => []
  | i, cause :: rest =>
    ⟨[mechanismVar name i, cause.parent], [1, 1 - cause.strength, 0, cause.strength]⟩ ::
      mechanismList name (i + 1) rest

def orList (name : String) : Nat → String → Nat → List Factor
  | _, _, 0 => []
  | i, acc, k + 1 =>
    ⟨[if k = 0 then name else orVar name i, acc, mechanismVar name i], orTable⟩ ::
      orList name (i + 1) (if k = 0 then name else orVar name i) k

lemma mechanismFactors_eq (name) (i : Nat) (causes) :
    mechanismFactors name i causes = .ok (mechanismList name i causes) := by
  induction causes generalizing i with
  | nil => rfl
  | cons cause rs ih =>
    rw [mechanismFactors, ih]
    rfl

lemma orFactors_eq (name) (i : Nat) (acc) (k : Nat) :
    orFactors name i acc k = .ok (orList name i acc k) := by
  induction k generalizing i acc with
  | zero => rfl
  | succ k ih =>
    rw [orFactors, ih]
    rfl

def bernoulli (p : ℚ) (b : Bool) : ℚ := if b then p else 1 - p

def mechanism (strength : ℚ) (z parent : Bool) : ℚ :=
  bernoulli (if parent then strength else 0) z

def gate (out acc z : Bool) : ℚ := if out = (acc || z) then 1 else 0

lemma val_leak (v) (p : ℚ) (a : String → Bool) :
    (⟨[v], [1 - p, p]⟩ : Factor).val a = bernoulli p (a v) := by
  have ind : ∀ x : Bool, flatIndex [x.toNat] = x.toNat := by decide
  change [1 - p, p].getD (flatIndex [(a v).toNat]) 0 = _
  rw [ind]
  cases a v <;> rfl

lemma val_mechanism (z par) (stg : ℚ) (a : String → Bool) :
    (⟨[z, par], [1, 1 - stg, 0, stg]⟩ : Factor).val a =
      mechanism stg (a z) (a par) := by
  have ind : ∀ x y : Bool, flatIndex [x.toNat, y.toNat] = 2 * x.toNat + y.toNat := by decide
  change [1, 1 - stg, 0, stg].getD (flatIndex [(a z).toNat, (a par).toNat]) 0 = _
  rw [ind]
  cases a z <;> cases a par <;> simp [mechanism, bernoulli]

lemma val_gate (out acc z) (a : String → Bool) :
    (⟨[out, acc, z], orTable⟩ : Factor).val a = gate (a out) (a acc) (a z) := by
  have ind : ∀ x y w : Bool,
      flatIndex [x.toNat, y.toNat, w.toNat] = 4 * x.toNat + 2 * y.toNat + w.toNat := by decide
  change orTable.getD (flatIndex [(a out).toNat, (a acc).toNat, (a z).toNat]) 0 = _
  rw [ind]
  cases a out <;> cases a acc <;> cases a z <;> rfl

variable {name : String} {i j : Nat}

lemma name_ne (hpt : left.toList[2]? ≠ right.toList[2]?) : name ++ left ≠ name ++ right := by
  intro hs
  exact hpt (by rw [(String.append_right_inj name).mp hs])

lemma mechanismVar_ne_orVar (name) (i j : Nat) : mechanismVar name i ≠ orVar name j := by
  rw [mechanismVar, orVar, String.append_assoc, String.append_assoc]
  exact name_ne (by simp)

lemma leakVar_ne (name) (i : Nat) :
    leakVar name ≠ mechanismVar name i ∧ leakVar name ≠ orVar name i := by
  rw [leakVar, mechanismVar, orVar, String.append_assoc, String.append_assoc]
  exact ⟨name_ne (by simp), name_ne (by simp)⟩

lemma name_ne_append (some : suffix ≠ "") : name ≠ name ++ suffix := by
  intro hs
  exact some ((String.append_right_inj name).mp (String.append_empty.trans hs)).symm

def Later (name : String) (i : Nat) (v : String) : Prop :=
  ∃ j, i ≤ j ∧ (v = mechanismVar name j ∨ v = orVar name j)

variable {v : String}

lemma Later.mono (le : i ≤ j) (hla : Later name j v) : Later name i v := by
  obtain ⟨k, hab, is⟩ := hla
  exact ⟨k, le.trans hab, is⟩

variable {k : Nat} {acc : String}

lemma mem_auxFrom (mem : v ∈ auxFrom name i acc k) : v = acc ∨ Later name i v := by
  induction k generalizing i acc with
  | zero => simp [auxFrom] at mem
  | succ k ih =>
    rw [auxFrom, mem_cons, mem_cons] at mem
    rcases mem with hh | mechanism | rest
    · exact .inl hh
    · exact .inr ⟨i, le_refl i, .inl mechanism⟩
    rcases ih rest with gate | later
    · exact .inr ⟨i, le_refl i, .inr gate⟩
    · exact .inr (later.mono (Nat.le_succ i))

lemma nodup_auxFrom (ear : ¬ Later name i acc) : (auxFrom name i acc k).Nodup := by
  induction k generalizing i acc with
  | zero => exact .nil
  | succ k ih =>
    have gate : ¬ Later name (i + 1) (orVar name i) := by
      rintro ⟨j, hab, same | same⟩
      · exact mechanismVar_ne_orVar name j i same.symm
      · rw [orVar, orVar, String.append_right_inj] at same
        have := Nat.repr_inj.mp same
        omega
    refine nodup_cons.mpr ⟨fun mem => ?_, nodup_cons.mpr ⟨fun mem => ?_, ih gate⟩⟩
    · rcases mem_cons.mp mem with same | rest
      · exact ear ⟨i, le_refl i, .inl same⟩
      rcases mem_auxFrom rest with same | later
      · exact ear ⟨i, le_refl i, .inr same⟩
      · exact ear (later.mono (Nat.le_succ i))
    · rcases mem_auxFrom mem with same | ⟨j, hab, same | same⟩
      · exact mechanismVar_ne_orVar name i i same
      · rw [mechanismVar, mechanismVar, String.append_right_inj] at same
        have := Nat.repr_inj.mp same
        omega
      · exact mechanismVar_ne_orVar name i j same

lemma nodup_auxVars (name) (k : Nat) : (auxVars name k).Nodup := by
  refine nodup_auxFrom ?_
  rintro ⟨j, -, same | same⟩
  · exact (leakVar_ne name j).1 same
  · exact (leakVar_ne name j).2 same

lemma name_not_aux (name) (k : Nat) : name ∉ auxVars name k := by
  intro mem
  rcases mem_auxFrom mem with same | ⟨j, -, same | same⟩
  · exact name_ne_append (by decide) same
  · rw [mechanismVar, String.append_assoc] at same
    exact name_ne_append (by simp) same
  · rw [orVar, String.append_assoc] at same
    exact name_ne_append (by simp) same

def chain (name : String) (i : Nat) (acc : String) (causes : List NoisyOrCause) : List Factor :=
  mechanismList name i causes ++ orList name i acc causes.length

def output (name : String) (i k : Nat) : String := if k = 0 then name else orVar name i

lemma joint_cons (f rest) (a : String → Bool) :
    joint (f :: rest) a = f.val a * joint rest a := rfl

lemma inScope_cons : InScope (f :: rest) v ↔ v ∈ f.vars ∨ InScope rest v := by
  simp [InScope]

lemma inScope_append : InScope (left ++ right) v ↔ InScope left v ∨ InScope right v := by
  simp only [InScope, mem_append, or_and_right, exists_or]

variable {c : NoisyOrCause} {causes : List NoisyOrCause}

lemma inScope_chain_cons : InScope (chain name i acc (c :: causes)) v ↔
      (v = mechanismVar name i ∨ v = c.parent) ∨
      (v = output name i causes.length ∨ v = acc ∨ v = mechanismVar name i) ∨
      InScope (chain name (i + 1) (output name i causes.length) causes) v := by
  rw [chain, chain, inScope_append, inScope_append, mechanismList, length_cons, orList,
    inScope_cons, inScope_cons]
  simp only [mem_cons, not_mem_nil, or_false, output]
  tauto

lemma mem_auxFrom_succ : v ∈ auxFrom name i acc (k + 1) ↔
      v = acc ∨ v = mechanismVar name i ∨ v ∈ auxFrom name (i + 1) (orVar name i) k := by
  rw [auxFrom, mem_cons, mem_cons]

lemma inScope_chain :
    InScope (chain name i acc (c :: causes)) v ↔ v ∈ auxFrom name i acc (causes.length + 1) ∨
      v ∈ (c :: causes).map NoisyOrCause.parent ∨ v = name := by
  rw [inScope_chain_cons, mem_auxFrom_succ, map_cons, mem_cons]
  induction causes generalizing i acc c with
  | nil =>
    have hlt : output name i 0 = name := rfl
    have none : ¬ InScope (chain name (i + 1) name []) v := by
      rintro ⟨f, mem, -⟩
      exact absurd mem not_mem_nil
    rw [length_nil, hlt, auxFrom, map_nil]
    tauto
  | cons d causes ih =>
    have nx : output name i (d :: causes).length = orVar name i := rfl
    rw [nx, inScope_chain_cons, ih, length_cons, mem_auxFrom_succ, map_cons, mem_cons]
    tauto

variable {q : (String → Bool) → ℚ} {s : Set String}

lemma sumOut_gate (dep : DependsOn q s) (acc_off : acc ∉ s)
    (z_off : z ∉ s) (acc_z : acc ≠ z) (out_acc : out ≠ acc) (out_z : out ≠ z)
    (parent_acc : par ≠ acc) (parent_z : par ≠ z) (stg : ℚ) (a : String → Bool) :
    sumOut z (sumOut acc fun a => bernoulli (q a) (a acc) *
        (mechanism stg (a z) (a par) * gate (a out) (a acc) (a z))) a =
      bernoulli (1 - (1 - q a) * if a par then 1 - stg else 1) (a out) := by
  have hs (x y : Bool) : q (update (update a z x) acc y) = q a := by
    refine dep fun v mem => ?_
    rw [update_of_ne (ne_of_mem_of_not_mem mem acc_off),
      update_of_ne (ne_of_mem_of_not_mem mem z_off)]
  simp only [sumOut, hs, update_self, update_of_ne out_acc,
    update_of_ne out_z, update_of_ne parent_acc, update_of_ne parent_z,
    update_of_ne acc_z.symm]
  cases a out <;> cases a par <;> simp [mechanism, bernoulli, gate] ; ring

lemma noisyOr_cons (leak : ℚ) (c causes) (a : String → Bool) : noisyOr leak (c :: causes) a =
      noisyOr (1 - (1 - leak) * if a c.parent then 1 - c.strength else 1) causes a := by
  rw [noisyOr, noisyOr, filter_cons]
  split
  · rw [map_cons, prod_cons]
    ring
  · ring

def withCause (q : (String → Bool) → ℚ) (c : NoisyOrCause) (a : String → Bool) : ℚ :=
  1 - (1 - q a) * if a c.parent then 1 - c.strength else 1

lemma dependsOn_withCause (dep : DependsOn q s) (c) :
    DependsOn (withCause q c) (insert c.parent s) := by
  intro a b hs
  rw [withCause, withCause, dep fun v mem => hs v (Set.mem_insert_of_mem _ mem),
    hs c.parent (Set.mem_insert _ _)]

lemma sumOut_first (causes) (dep : DependsOn q s) (acc_off : acc ∉ s)
    (z_off : mechanismVar name i ∉ s) (acc_z : acc ≠ mechanismVar name i)
    (parent_acc : c.parent ≠ acc) (parent_z : c.parent ≠ mechanismVar name i)
    (out_acc : output name i causes.length ≠ acc)
    (out_z : output name i causes.length ≠ mechanismVar name i)
    (acc_out : ¬ InScope (chain name (i + 1) (output name i causes.length) causes) acc)
    (z_out : ¬ InScope (chain name (i + 1) (output name i causes.length) causes) (mechanismVar name
      i)) :
    sumOut (mechanismVar name i) (sumOut acc fun a =>
        bernoulli (q a) (a acc) * joint (chain name i acc (c :: causes)) a) =
      fun a => bernoulli (withCause q c a) (a (output name i causes.length)) *
        joint (chain name (i + 1) (output name i causes.length) causes) a := by
  have pull : (fun a => bernoulli (q a) (a acc) * joint (chain name i acc (c :: causes)) a) =
      fun a => joint (chain name (i + 1) (output name i causes.length) causes) a *
        (bernoulli (q a) (a acc) *
          (mechanism c.strength (a (mechanismVar name i)) (a c.parent) *
            gate (a (output name i causes.length)) (a acc) (a (mechanismVar name i)))) := by
    funext a
    rw [chain, chain, joint_append, joint_append, mechanismList, length_cons, orList, joint_cons,
      joint_cons, val_mechanism, val_gate]
    simp only [output]
    ring
  have ind := dependsOn_joint (chain name (i + 1) (output name i causes.length) causes)
  funext a
  rw [pull, funext (sumOut_mul ind acc_out _), sumOut_mul ind z_out,
    sumOut_gate dep acc_off z_off acc_z out_acc out_z parent_acc parent_z, mul_comm]
  rfl

lemma sumOutAll_chain (dep : DependsOn q s) (hnd : (auxFrom name i acc (causes.length + 1)).Nodup)
    (hpt : ∀ v ∈ auxFrom name i acc (causes.length + 1), v ∉ s ∧ v ∉ (c :: causes).map
      NoisyOrCause.parent ∧ v ≠ name) :
    sumOutAll (auxFrom name i acc (causes.length + 1))
        (fun a => bernoulli (q a) (a acc) * joint (chain name i acc (c :: causes)) a) =
      fun a => bernoulli (noisyOr (q a) (c :: causes) a) (a name) := by
  induction causes generalizing i acc c q s with
  | nil =>
    obtain ⟨acc_off, acc_parent, acc_name⟩ := hpt acc mem_cons_self
    obtain ⟨z_off, z_parent, z_name⟩ := hpt (mechanismVar name i) (by simp [auxFrom])
    have acc_z : acc ≠ mechanismVar name i := by
      rintro rfl
      simp [auxFrom] at hnd
    have none (v : String) : ¬ InScope (chain name (i + 1) (output name i 0) []) v := by
      rintro ⟨f, mem, -⟩
      exact absurd mem not_mem_nil
    have h1 := sumOut_first (c := c) [] dep acc_off z_off acc_z
      (fun same => acc_parent (by simp [same])) (fun same => z_parent (by simp [same]))
      acc_name.symm z_name.symm (none acc) (none _)
    refine h1.trans (funext fun a => ?_)
    rw [noisyOr_cons]
    simp [withCause, noisyOr, output, chain, mechanismList, orList, joint]
  | cons d causes ih =>
    obtain ⟨acc_fresh, nod'⟩ := nodup_cons.mp hnd
    obtain ⟨z_fresh, nod''⟩ := nodup_cons.mp nod'
    obtain ⟨acc_off, acc_parent, acc_name⟩ := hpt acc mem_cons_self
    obtain ⟨z_off, z_parent, z_name⟩ :=
      hpt (mechanismVar name i) (mem_cons_of_mem _ mem_cons_self)
    have acc_later : acc ∉ auxFrom name (i + 1) (orVar name i) (causes.length + 1) :=
      fun mem => acc_fresh (mem_cons_of_mem _ mem)
    have hout {v} (hfr : v ∉ auxFrom name (i + 1) (orVar name i) (causes.length + 1))
        (par : v ∉ (c :: d :: causes).map NoisyOrCause.parent) (ho : v ≠ name) :
        ¬ InScope (chain name (i + 1) (orVar name i) (d :: causes)) v := by
      rw [inScope_chain]
      rintro (mem | mem | same)
      · exact hfr mem
      · exact par (mem_cons_of_mem _ mem)
      · exact ho same
    have h1 := sumOut_first (c := c) (d :: causes) dep acc_off z_off
      (fun same => acc_fresh (by rw [same]; exact mem_cons_self))
      (fun same => acc_parent (by simp [same])) (fun same => z_parent (by simp [same]))
      (fun same => acc_later (by rw [← same]; exact mem_cons_self))
      (fun same => z_fresh (by rw [← same]; exact mem_cons_self))
      (hout acc_later acc_parent acc_name) (hout z_fresh z_parent z_name)
    have rs := ih (c := d) (dependsOn_withCause dep c) nod'' fun v mem => by
      obtain ⟨off, par, ho⟩ :=
        hpt v (mem_cons_of_mem _ (mem_cons_of_mem _ mem))
      rw [map_cons, mem_cons, not_or] at par
      exact ⟨fun hh => (Set.mem_insert_iff.mp hh).elim par.1 off, par.2, ho⟩
    refine (congrArg (sumOutAll _) h1).trans (rs.trans (funext fun a => ?_))
    rw [noisyOr_cons _ c]
    rfl

lemma mem_chain_cons (mem : f ∈ chain name i acc (c :: causes)) :
    f = ⟨[mechanismVar name i, c.parent], [1, 1 - c.strength, 0, c.strength]⟩ ∨
      f = ⟨[output name i causes.length, acc, mechanismVar name i], orTable⟩ ∨
      f ∈ chain name (i + 1) (output name i causes.length) causes := by
  rw [chain, mechanismList, length_cons, orList, mem_append, mem_cons, mem_cons] at mem
  rw [chain, mem_append, output]
  tauto

lemma wellFormed_chain (hnd : (auxFrom name i acc causes.length).Nodup)
    (hpt : ∀ v ∈ auxFrom name i acc causes.length,
      v ∉ causes.map NoisyOrCause.parent ∧ v ≠ name) :
    ∀ f ∈ chain name i acc causes, f.WellFormed := by
  induction causes generalizing i acc with
  | nil => exact nofun
  | cons c causes ih =>
    obtain ⟨acc_fresh, nod'⟩ := nodup_cons.mp hnd
    obtain ⟨z_fresh, nod''⟩ := nodup_cons.mp nod'
    obtain ⟨-, acc_name⟩ := hpt acc mem_cons_self
    obtain ⟨z_parent, z_name⟩ :=
      hpt (mechanismVar name i) (mem_cons_of_mem _ mem_cons_self)
    intro f mem
    rcases mem_chain_cons mem with rfl | rfl | later
    · refine ⟨nodup_cons.mpr ⟨fun hs => z_parent ?_, nodup_singleton _⟩, rfl⟩
      rw [mem_singleton.mp hs]
      exact mem_cons_self
    · have out : output name i causes.length ∉ acc :: [mechanismVar name i] := by
        cases causes with
        | nil =>
          intro hs
          rcases mem_cons.mp hs with hh | there
          · exact acc_name hh.symm
          · exact z_name (mem_singleton.mp there).symm
        | cons d causes =>
          have gate : orVar name i ∈ auxFrom name (i + 1) (orVar name i) (d :: causes).length :=
            mem_cons_self
          intro hs
          rcases mem_cons.mp hs with hh | there
          · exact acc_fresh (hh ▸ mem_cons_of_mem _ gate)
          · exact z_fresh (mem_singleton.mp there ▸ gate)
      refine ⟨nodup_cons.mpr ⟨out, nodup_cons.mpr ⟨fun hs => acc_fresh ?_,
        nodup_singleton _⟩⟩, rfl⟩
      rw [mem_singleton.mp hs]
      exact mem_cons_self
    · cases causes with
      | nil => exact absurd later not_mem_nil
      | cons d causes =>
        refine ih nod'' (fun v mem => ?_) f later
        obtain ⟨par, ho⟩ := hpt v (mem_cons_of_mem _ (mem_cons_of_mem _ mem))
        exact ⟨fun hh => par (mem_cons_of_mem _ hh), ho⟩

/-- The product of the factors, summed out in any order, is the noisy-OR table. -/
theorem noisyOr_exact (name : String) (causes : List NoisyOrCause) (leak : ℚ)
    (leak_range : 0 ≤ leak ∧ leak ≤ 1) (range : ∀ c ∈ causes, 0 ≤ c.strength ∧ c.strength ≤ 1)
    (fresh : ∀ c ∈ causes, c.parent ∉ auxVars name causes.length) :
    ∃ first more, noisyOrFactors name causes leak = .ok (first :: more) ∧
      ∀ aux : List String, aux.Perm (auxVars name causes.length) →
        (∀ v, v ∈ (aux.foldl Factor.sumOut (more.foldl Factor.multiply first)).vars ↔
          v = name ∨ v ∈ causes.map NoisyOrCause.parent) ∧
        ∀ a, (aux.foldl Factor.sumOut (more.foldl Factor.multiply first)).val a =
          if a name then noisyOr leak causes a else 1 - noisyOr leak causes a := by
  have hi : ¬ (leak < 0 ∨ 1 < leak) :=
    fun out => out.elim (not_lt.mpr leak_range.1) (not_lt.mpr leak_range.2)
  have none : causes.find? (fun c => decide (c.strength < 0 ∨ 1 < c.strength)) = none := by
    refine List.find?_eq_none.mpr fun c mem out => ?_
    exact (of_decide_eq_true out).elim (not_lt.mpr (range c mem).1) (not_lt.mpr (range c mem).2)
  rw [noisyOrFactors, if_neg hi, none]
  cases causes with
  | nil =>
    refine ⟨_, [], rfl, fun aux perm => ?_⟩
    obtain rfl := perm_nil.mp perm
    refine ⟨by simp, fun a => ?_⟩
    rw [foldl_nil, foldl_nil, val_leak, bernoulli, noisyOr]
    simp
  | cons c causes =>
    refine ⟨⟨[leakVar name], [1 - leak, leak]⟩, chain name 0 (leakVar name) (c :: causes), ?_,
      fun aux perm => ?_⟩
    · rw [decompose, mechanismFactors_eq, orFactors_eq]
      rfl
    have hnd := nodup_auxVars name (c :: causes).length
    have hpt : ∀ v ∈ auxVars name (c :: causes).length,
        v ∉ (c :: causes).map NoisyOrCause.parent ∧ v ≠ name := by
      intro v mem
      refine ⟨fun parent => ?_, fun same => name_not_aux name _ (same ▸ mem)⟩
      obtain ⟨d, hl, rfl⟩ := mem_map.mp parent
      exact fresh d hl mem
    have leak_wf : (⟨[leakVar name], [1 - leak, leak]⟩ : Factor).WellFormed :=
      ⟨nodup_singleton _, rfl⟩
    obtain ⟨product_wf, vars, val⟩ := foldl_multiply leak_wf (wellFormed_chain hnd hpt)
    have sc (v : String) : InScope (⟨[leakVar name], [1 - leak, leak]⟩ ::
        chain name 0 (leakVar name) (c :: causes)) v ↔ v ∈ auxVars name (c :: causes).length ∨
          v ∈ (c :: causes).map NoisyOrCause.parent ∨ v = name := by
      rw [inScope_cons, inScope_chain, mem_singleton]
      refine or_iff_right_of_imp fun same => .inl ?_
      rw [same]
      exact mem_cons_self
    obtain ⟨-, kp, vl⟩ := foldl_sumOut product_wf (perm.nodup_iff.mpr hnd) fun v mem =>
      (vars v).mpr ((sc v).mpr (.inl (perm.mem_iff.mp mem)))
    refine ⟨fun v => ?_, fun a => ?_⟩
    · rw [kp, vars, sc, perm.mem_iff]
      constructor
      · rintro ⟨aux | parent | same, out⟩
        · exact absurd aux out
        · exact .inr parent
        · exact .inl same
      · rintro (same | parent)
        · exact ⟨.inr (.inr same), fun aux => (hpt v aux).2 same⟩
        · exact ⟨.inr (.inl parent), fun aux => (hpt v aux).1 parent⟩
    · have tot : joint (⟨[leakVar name], [1 - leak, leak]⟩ ::
          chain name 0 (leakVar name) (c :: causes)) = fun a => bernoulli leak (a (leakVar name)) *
            joint (chain name 0 (leakVar name) (c :: causes)) a := by
        funext a
        rw [joint_cons, val_leak]
      rw [vl, funext val, tot, sumOutAll_perm perm hnd]
      have hcl := sumOutAll_chain (dependsOn_const leak) hnd fun v mem =>
        ⟨Set.notMem_empty v, hpt v mem⟩
      exact congrFun hcl a

def twoCauses : List NoisyOrCause := [⟨"a", 1⟩, ⟨"b", 0⟩]

theorem noisyOr_exact_two : (∀ c ∈ twoCauses, c.parent ∉ auxVars "e" twoCauses.length) ∧
    ∃ first more, noisyOrFactors "e" twoCauses 0 = .ok (first :: more) ∧
      ∀ aux : List String, aux.Perm (auxVars "e" twoCauses.length) →
        ∀ a, (aux.foldl Factor.sumOut (more.foldl Factor.multiply first)).val a =
          if a "e" then noisyOr 0 twoCauses a else 1 - noisyOr 0 twoCauses a := by
  have hfr : ∀ c ∈ twoCauses, c.parent ∉ auxVars "e" twoCauses.length := by decide
  obtain ⟨first, more, fs, tab⟩ := noisyOr_exact "e" twoCauses 0 (by decide) (by decide) hfr
  exact ⟨hfr, first, more, fs, fun aux perm => (tab aux perm).2⟩

end Gibson.Belief
