import Gibson.Lib.Marginal
import Gibson.Lib.Rows

/-! Factors over binary variables: the first variable is the most significant bit of an index into
the table. The `float64` entries of the source are rational numbers here. -/

namespace Gibson.Belief

open List Rows Marginal Function Option

def states : List String := ["false", "true"]

def stateIndex (state : String) : Int :=
  match states.idxOf? state with
  | some i => i
  | none => -1

/-- A table over binary variables. -/
structure Factor where
  vars : List String
  table : List ℚ

def printStrings (items : List String) : String := "[" ++ " ".intercalate items ++ "]"

def newFactor (vars : List String) (table : List ℚ) : Except String Factor :=
  let want := 1 <<< vars.length
  if table.length ≠ want then
    .error s!"beliefvi: factor over {printStrings vars} does not match a {want}-entry table (got {table.length})"
  else .ok ⟨vars, table⟩

def Factor.indexOfVariable (f : Factor) (name : String) : Option Nat := f.vars.idxOf? name

def bitsOf (idx n : Nat) : List Nat := (List.range n).map fun i => (idx >>> (n - 1 - i)) &&& 1

def flatIndex (bits : List Nat) : Nat := bits.foldl (fun idx b => idx <<< 1 ||| b) 0

def tabulate (n : Nat) (entry : List Nat → ℚ) : List ℚ :=
  (List.range (1 <<< n)).map fun outIdx => entry (bitsOf outIdx n)

def Factor.at (f : Factor) (bits : List Nat) : ℚ := f.table.getD (flatIndex bits) 0

/-- Observed states by variable. -/
structure Evidence where
  entries : List (String × String)
  unique : (entries.map Prod.fst).Nodup

def Evidence.get? (evidence : Evidence) (name : String) : Option String :=
  (evidence.entries.find? (·.1 == name)).map Prod.snd

/-- The fixed bits, and the next of `outBits` where there is none. An unknown state is -1. -/
def fillBits : List Int → List Nat → List Nat
  | [], _ => []
  | fixed :: rest, outBits =>
    if fixed = -1 then outBits.headD 0 :: fillBits rest outBits.tail
    else fixed.toNat :: fillBits rest outBits

def Evidence.fixedAt (evidence : Evidence) (name : String) : Int :=
  match evidence.get? name with
  | some state => stateIndex state
  | none => -1

def Factor.reduce (evidence : Evidence) (f : Factor) : Factor :=
  let kept := f.vars.filter fun v => (evidence.get? v).isNone
  let fixed := f.vars.map evidence.fixedAt
  if f.vars.all fun v => (evidence.get? v).isNone then f
  else ⟨kept, tabulate kept.length fun outBits => f.at (fillBits fixed outBits)⟩

def placeBits (places : List (Option Nat)) (bits fBits : List Nat) : List Nat :=
  (places.zip bits).foldl (fun fBits p =>
    match p.1 with
    | some axis => fBits.set axis p.2
    | none => fBits) fBits

def Factor.expand (f : Factor) (shape : List String) : List ℚ :=
  let pos := shape.map f.indexOfVariable
  tabulate shape.length fun bits =>
    f.at (placeBits pos bits (List.replicate f.vars.length 0))

def Factor.multiply (f other : Factor) : Factor :=
  let union := f.vars ++ other.vars.filter fun v => (f.indexOfVariable v).isNone
  ⟨union, List.zipWith (· * ·) (f.expand union) (other.expand union)⟩

def insertBit (bits : List Nat) (axis value : Nat) : List Nat :=
  bits.take axis ++ value :: bits.drop axis

def Factor.sumOut (f : Factor) (name : String) : Factor :=
  match f.indexOfVariable name with
  | none => f
  | some axis =>
    let kept := f.vars.take axis ++ f.vars.drop (axis + 1)
    ⟨kept, tabulate kept.length fun outBits =>
      f.at (insertBit outBits axis 0) + f.at (insertBit outBits axis 1)⟩

lemma flatIndex_snoc (bits) (bit : b < 2) : flatIndex (bits ++ [b]) = 2 * flatIndex bits + b := by
  rw [flatIndex, foldl_append, foldl_cons, foldl_nil, ← flatIndex,
    ← Nat.shiftLeft_add_eq_or_of_lt (show b < 2 ^ 1 by omega), Nat.shiftLeft_eq]
  omega

lemma bitsOf_snoc (m n : Nat) (bit : b < 2) : bitsOf (2 * m + b) (n + 1) = bitsOf m n ++ [b] := by
  rw [bitsOf, bitsOf, range_succ, map_append]
  congr 1
  · refine map_congr_left fun i mem => ?_
    have hbe := mem_range.mp mem
    have pl : n + 1 - 1 - i = 1 + (n - 1 - i) := by omega
    have half : (2 * m + b) >>> 1 = m := by
      omega
    rw [pl, Nat.shiftRight_add, half]
  · have hlt : n + 1 - 1 - n = 0 := by omega
    rw [map_singleton, hlt, Nat.shiftRight_zero, Nat.and_one_is_mod]
    congr 1
    omega

lemma flatIndex_lt (bit : ∀ b ∈ bits, b < 2) : flatIndex bits < 2 ^ bits.length := by
  induction bits using reverseRecOn with
  | nil => decide
  | append_singleton bits b ih =>
    have hb := ih fun c mem => bit c (mem_append_left _ mem)
    have hlt := bit b (by simp)
    rw [flatIndex_snoc bits hlt, length_append, length_singleton, Nat.pow_succ]
    omega

lemma bitsOf_flatIndex (bit : ∀ b ∈ bits, b < 2) : bitsOf (flatIndex bits) bits.length = bits := by
  induction bits using reverseRecOn with
  | nil => rfl
  | append_singleton bits b ih =>
    have hlt := bit b (by simp)
    rw [flatIndex_snoc bits hlt, length_append, length_singleton, bitsOf_snoc _ _ hlt,
      ih fun c mem => bit c (mem_append_left _ mem)]

@[simp] lemma length_tabulate (n : Nat) (en : List Nat → ℚ) :
    (tabulate n en).length = 2 ^ n := by
  rw [tabulate, length_map, length_range, Nat.one_shiftLeft]

lemma tabulate_getD (en : List Nat → ℚ) (sz : bits.length = n)
    (bit : ∀ b ∈ bits, b < 2) : (tabulate n en).getD (flatIndex bits) 0 = en bits := by
  have hbe := flatIndex_lt bit
  rw [sz] at hbe
  rw [tabulate, getD_eq_getElem?_getD, getElem?_map, Nat.one_shiftLeft,
    getElem?_range hbe, map_some, getD_some, ← sz, bitsOf_flatIndex bit]

def bitsUnder (a : String → Bool) (vars : List String) : List Nat := vars.map fun v => (a v).toNat

@[simp] lemma length_bitsUnder (a : String → Bool) (vars) :
    (bitsUnder a vars).length = vars.length := length_map ..

lemma bitsUnder_lt (a : String → Bool) (vars) : ∀ b ∈ bitsUnder a vars, b < 2 :=
  forall_mem_map.mpr fun v _ => Bool.toNat_lt (a v)

lemma bitsUnder_congr {a b : String → Bool} (hs : ∀ v ∈ vars, a v = b v) :
    bitsUnder a vars = bitsUnder b vars :=
  map_congr_left fun v mem => congrArg Bool.toNat (hs v mem)

/-- The entry for an assignment. -/
def Factor.val (f : Factor) (a : String → Bool) : ℚ := f.at (bitsUnder a f.vars)

/-- Distinct variables, and an entry for each of their assignments. -/
structure Factor.WellFormed (f : Factor) : Prop where
  distinct : f.vars.Nodup
  size : f.table.length = 2 ^ f.vars.length

lemma Factor.dependsOn_val (f : Factor) : DependsOn f.val { v | v ∈ f.vars } :=
  fun _ _ hs => congrArg f.at (bitsUnder_congr hs)

lemma val_tabulate (vars) (en : List Nat → ℚ) (a : String → Bool) :
    (⟨vars, tabulate vars.length en⟩ : Factor).val a = en (bitsUnder a vars) :=
  tabulate_getD en (length_bitsUnder a vars) (bitsUnder_lt a vars)

variable {f : Factor} {name : String}

lemma indexOfVariable_isNone : (f.indexOfVariable name).isNone = true ↔ name ∉ f.vars := by
  rw [isNone_iff_eq_none]
  exact idxOf?_eq_none_iff

lemma placeBits_getElem? (hdi : f.vars.Nodup) (a : String → Bool) (hsha)
    (hi : j < fBi.length) (pl : f.vars[j]? = some w) :
    (placeBits (hsha.map f.indexOfVariable) (bitsUnder a hsha) fBi)[j]? =
      if w ∈ hsha then some (a w).toNat else fBi[j]? := by
  induction hsha generalizing fBi with
  | nil => rfl
  | cons v rs ih =>
    have step (nx : List Nat) (sz : j < nx.length) (eq : nx =
        match f.indexOfVariable v with
        | some axis => fBi.set axis (a v).toNat
        | none => fBi) :
        (placeBits ((v :: rs).map f.indexOfVariable) (bitsUnder a (v :: rs)) fBi)[j]? =
          if w ∈ rs then some (a w).toNat else nx[j]? := by
      rw [← ih sz, eq]
      rfl
    cases hf : f.indexOfVariable v with
    | none =>
      have ho : v ≠ w := by
        rintro rfl
        exact List.idxOf?_eq_none_iff.mp hf (mem_of_getElem? pl)
      rw [step fBi hi (by rw [hf])]
      simp [ho.symm]
    | some axis =>
      obtain ⟨hbe, hh, -⟩ := List.idxOf?_eq_some_iff.mp hf
      rw [step (fBi.set axis (a v).toNat) (by simpa using hi) (by rw [hf])]
      by_cases hs : axis = j
      · subst hs
        have heq : v = w := by
          rw [List.getElem?_eq_getElem hbe, hh] at pl
          exact some.inj pl
        subst heq
        simp [hi]
      · have ho : v ≠ w := by
          rintro rfl
          obtain ⟨hbd, ht⟩ := List.getElem?_eq_some_iff.mp pl
          exact hs (List.Nodup.getElem_inj_iff hdi |>.mp (hh.trans ht.symm))
        rw [List.getElem?_set_ne hs]
        simp [ho.symm]

@[simp] lemma length_placeBits (places : List (Option Nat)) (bits fBi) :
    (placeBits places bits fBi).length = fBi.length := by
  rw [placeBits]
  induction places.zip bits generalizing fBi with
  | nil => rfl
  | cons p rs ih =>
    rw [foldl_cons, ih]
    cases p.1 with
    | none => rfl
    | some axis => exact length_set

@[simp] lemma length_expand (f : Factor) (shape) : (f.expand shape).length = 2 ^ shape.length := by
  rw [Factor.expand, length_tabulate]

lemma expand_getD (hdi : f.vars.Nodup) (sub : ∀ v ∈ f.vars, v ∈ shape)
    (a : String → Bool) : (f.expand shape).getD (flatIndex (bitsUnder a shape)) 0 = f.val a := by
  rw [Factor.expand, tabulate_getD _ (length_bitsUnder a shape) (bitsUnder_lt a shape)]
  refine congrArg f.at (ext_getElem? fun j => ?_)
  by_cases hi : j < f.vars.length
  · have pl := getElem?_eq_getElem hi
    rw [placeBits_getElem? hdi a shape (by simpa using hi) pl,
      if_pos (sub _ (getElem_mem hi)), bitsUnder, getElem?_map, pl]
    rfl
  · rw [getElem?_eq_none (by simpa using hi), getElem?_eq_none (by simpa using hi)]

lemma mem_vars_multiply : v ∈ (f.multiply g).vars ↔ v ∈ f.vars ∨ v ∈ g.vars := by
  simp only [Factor.multiply, mem_append, mem_filter, indexOfVariable_isNone]
  tauto

lemma wellFormed_multiply (hf : f.WellFormed) (hg : g.WellFormed) : (f.multiply g).WellFormed := by
  constructor
  · refine hf.distinct.append (hg.distinct.filter _) fun v hle right => ?_
    exact indexOfVariable_isNone.mp (mem_filter.mp right).2 hle
  · simp [Factor.multiply]

lemma val_multiply (hf : f.WellFormed) (hg : g.WellFormed) (a : String → Bool) :
    (f.multiply g).val a = f.val a * g.val a := by
  have hle := expand_getD hf.distinct (fun v mem => mem_vars_multiply (g := g).mpr (.inl mem)) a
  have right := expand_getD hg.distinct (fun v mem => mem_vars_multiply (f := f).mpr (.inr mem)) a
  rw [← hle, ← right, Factor.val, Factor.at]
  have hbe := flatIndex_lt (bitsUnder_lt a (f.multiply g).vars)
  rw [length_bitsUnder] at hbe
  generalize flatIndex (bitsUnder a (f.multiply g).vars) = i at hbe ⊢
  have siz := length_expand f (f.multiply g).vars
  have siz0 := length_expand g (f.multiply g).vars
  have tab : (f.multiply g).table =
    zipWith (· * ·) (f.expand (f.multiply g).vars) (g.expand (f.multiply g).vars) := rfl
  rw [tab, getD_eq_getElem?_getD, getD_eq_getElem?_getD, getD_eq_getElem?_getD,
    getElem?_zipWith, getElem?_eq_getElem (by omega), getElem?_eq_getElem (by omega)]
  rfl

lemma vars_sumOut (f : Factor) (name) : (f.sumOut name).vars = f.vars.erase name := by
  rw [erase_eq_eraseIdx, Factor.sumOut, Factor.indexOfVariable]
  cases f.vars.idxOf? name with
  | none => rfl
  | some axis => exact (eraseIdx_eq_take_drop_succ ..).symm

lemma wellFormed_sumOut (h : f.WellFormed) (name : String) : (f.sumOut name).WellFormed := by
  refine ⟨by rw [vars_sumOut]; exact h.distinct.erase name, ?_⟩
  rw [Factor.sumOut]
  split
  · exact h.size
  · simp only [length_tabulate]

lemma insertBit_bitsUnder (a : String → Bool) (hdi : (pre ++ name :: post).Nodup) (x : Bool) :
    insertBit (bitsUnder a (pre ++ post)) pre.length x.toNat =
      bitsUnder (update a name x) (pre ++ name :: post) := by
  obtain ⟨-, off, hpt⟩ := nodup_append.mp hdi
  have hb : bitsUnder (update a name x) pre = bitsUnder a pre :=
    bitsUnder_congr fun v mem => update_of_ne (hpt v mem name (by simp)) ..
  have ha : bitsUnder (update a name x) post = bitsUnder a post :=
    bitsUnder_congr fun v mem =>
      update_of_ne (ne_of_mem_of_not_mem mem (nodup_cons.mp off).1) ..
  have both : bitsUnder a (pre ++ post) = bitsUnder a pre ++ bitsUnder a post := map_append
  have hwh : bitsUnder (update a name x) (pre ++ name :: post) =
      bitsUnder (update a name x) pre ++
        (update a name x name).toNat :: bitsUnder (update a name x) post :=
    map_append
  rw [hwh, hb, ha, update_self, insertBit, both,
    take_left' (length_bitsUnder a pre), drop_left' (length_bitsUnder a pre)]

lemma val_sumOut (hdi : f.vars.Nodup) (mem : name ∈ f.vars) (a : String → Bool) :
    (f.sumOut name).val a = Marginal.sumOut name f.val a := by
  obtain ⟨axis, hf⟩ : ∃ axis, f.indexOfVariable name = some axis := by
    rw [← isSome_iff_exists, isSome_iff_ne_none]
    exact fun none => idxOf?_eq_none_iff.mp none mem
  obtain ⟨hbe, hh, -⟩ := idxOf?_eq_some_iff.mp hf
  have split : f.vars = f.vars.take axis ++ name :: f.vars.drop (axis + 1) := by
    rw [← hh, getElem_cons_drop, take_append_drop]
  have sz : (f.vars.take axis).length = axis := by
    rw [length_take]
    omega
  have insert (x : Bool) : insertBit (bitsUnder a (f.vars.take axis ++ f.vars.drop (axis + 1))) axis
      x.toNat = bitsUnder (update a name x) f.vars := by
    have pl := insertBit_bitsUnder a (split ▸ hdi) x
    rwa [sz, ← split] at pl
  have sum : Marginal.sumOut name f.val a = f.at (bitsUnder (update a name false) f.vars) +
        f.at (bitsUnder (update a name true) f.vars) := rfl
  rw [sum, ← insert false, ← insert true, Factor.sumOut, hf]
  exact val_tabulate _ _ a

lemma foldl_sumOut (wf : f.WellFormed) (hnd : vs.Nodup) (hi : ∀ v ∈ vs, v ∈ f.vars) :
    (vs.foldl Factor.sumOut f).WellFormed ∧
      (∀ w, w ∈ (vs.foldl Factor.sumOut f).vars ↔ w ∈ f.vars ∧ w ∉ vs) ∧
      (vs.foldl Factor.sumOut f).val = sumOutAll vs f.val := by
  induction vs generalizing f with
  | nil => exact ⟨wf, by simp, rfl⟩
  | cons v rs ih =>
    obtain ⟨hfr, hnd⟩ := nodup_cons.mp hnd
    have vars (w : String) : w ∈ (f.sumOut v).vars ↔ w ≠ v ∧ w ∈ f.vars := by
      rw [vars_sumOut, wf.distinct.mem_erase_iff]
    obtain ⟨wf', sc, vl⟩ := ih (wellFormed_sumOut wf v) hnd fun w mem =>
      (vars w).mpr ⟨ne_of_mem_of_not_mem mem hfr, hi w (mem_cons_of_mem _ mem)⟩
    refine ⟨wf', fun w => ?_, ?_⟩
    · rw [foldl_cons, sc, vars, mem_cons]
      tauto
    have one :=
      funext (val_sumOut wf.distinct (hi v mem_cons_self))
    rw [foldl_cons, vl, one]
    rfl

def Evidence.Valid (evidence : Evidence) : Prop := ∀ p ∈ evidence.entries, p.2 ∈ states

variable {evidence : Evidence}

lemma Evidence.get?_eq_some :
    evidence.get? name = some state ↔ (name, state) ∈ evidence.entries := by
  rw [Evidence.get?, map_eq_some_iff]
  simp only [find?_key_iff evidence.unique]
  constructor
  · rintro ⟨p, ⟨mem, rfl⟩, rfl⟩
    exact mem
  · exact fun mem => ⟨_, ⟨mem, rfl⟩, rfl⟩

def Evidence.fix (evidence : Evidence) (a : String → Bool) (v : String) : Bool :=
  match evidence.get? v with
  | some state => state == "true"
  | none => a v

lemma fillBits_eq (hva : evidence.Valid) (a : String → Bool) (vars) :
    fillBits (vars.map evidence.fixedAt)
      (bitsUnder a (vars.filter fun v => (evidence.get? v).isNone)) =
        bitsUnder (evidence.fix a) vars := by
  induction vars with
  | nil => rfl
  | cons v rs ih =>
    rw [map_cons, filter_cons]
    cases hsn : evidence.get? v with
    | none =>
      have kp : evidence.fixedAt v = -1 := by rw [Evidence.fixedAt, hsn]
      have hh : evidence.fix a v = a v := by rw [Evidence.fix, hsn]
      rw [fillBits, if_pos kp]
      simp only [isNone_none, if_true, bitsUnder, map_cons, headD_cons, tail_cons, hh]
      exact congrArg _ ih
    | some st =>
      have hk : st ∈ states := hva _ (Evidence.get?_eq_some.mp hsn)
      have fixed : evidence.fixedAt v = ((st == "true").toNat : Int) := by
        rw [Evidence.fixedAt, hsn]
        simp only [states, mem_cons, not_mem_nil, or_false] at hk
        rcases hk with rfl | rfl <;> decide
      have hh : evidence.fix a v = (st == "true") := by rw [Evidence.fix, hsn]
      rw [fillBits, fixed, if_neg (by omega)]
      simp only [isNone_some, Bool.false_eq_true, if_false, bitsUnder, map_cons, hh,
        Int.toNat_natCast]
      exact congrArg _ ih

lemma vars_reduce (evidence) (f : Factor) :
    (f.reduce evidence).vars = f.vars.filter fun v => (evidence.get? v).isNone := by
  rw [Factor.reduce]
  split
  · rename_i all
    exact (filter_eq_self.mpr (all_eq_true.mp all)).symm
  · rfl

lemma val_reduce (hva : evidence.Valid) (f : Factor) (a : String → Bool) :
    (f.reduce evidence).val a = f.val (evidence.fix a) := by
  rw [Factor.reduce]
  split
  · rename_i all
    refine f.dependsOn_val fun v mem => ?_
    have none := isNone_iff_eq_none.mp (all_eq_true.mp all v mem)
    rw [Evidence.fix, none]
  · have rd : f.val (evidence.fix a) = f.at (bitsUnder (evidence.fix a) f.vars) := rfl
    rw [rd, ← fillBits_eq hva a f.vars]
    exact val_tabulate _ _ a

end Gibson.Belief
