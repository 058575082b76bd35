import Mathlib.Algebra.BigOperators.Group.Finset.Powerset
import Mathlib.Logic.Function.DependsOn
import Mathlib.Tactic.Ring

/-! Sums of functions of binary variables. An assignment is the set of those that are true. -/

namespace Gibson.Marginal

open Function Finset

variable {ι K : Type*} [DecidableEq ι]

/-- The sum over both values of a variable. -/
def sumOut [Add K] (v : ι) (F : (ι → Bool) → K) (a : ι → Bool) : K :=
  F (update a v false) + F (update a v true)

lemma sumOut_mul [NonUnitalNonAssocSemiring K] {F : (ι → Bool) → K}
    (h : DependsOn F s) (out : v ∉ s) (G : (ι → Bool) → K) (a : ι → Bool) :
    sumOut v (fun a => F a * G a) a = F a * sumOut v G a := by
  have hs (x : Bool) : F (update a v x) = F a :=
    h fun i mem => update_of_ne (ne_of_mem_of_not_mem mem out) ..
  rw [sumOut, sumOut, hs, hs, mul_add]

def sumOutAll [Add K] (vs : List ι) (F : (ι → Bool) → K) : (ι → Bool) → K :=
  vs.foldl (fun F v => sumOut v F) F

def patch (vs : List ι) (T : Finset ι) (a : ι → Bool) (v : ι) : Bool :=
  if v ∈ vs then decide (v ∈ T) else a v

lemma sumOutAll_eq_sum [AddCommMonoid K] (hnd : vs.Nodup) (F : (ι → Bool) → K) (a : ι → Bool) :
    sumOutAll vs F a = ∑ T ∈ vs.toFinset.powerset, F (patch vs T a) := by
  induction vs generalizing F with
  | nil =>
    have none : patch [] ∅ a = a := by
      funext v
      simp [patch]
    simp [sumOutAll, none]
  | cons v vs ih =>
    obtain ⟨hfr, hnd⟩ := List.nodup_cons.mp hnd
    have off : v ∉ vs.toFinset := by simpa using hfr
    have split := ih hnd (sumOut v F)
    refine split.trans ?_
    rw [List.toFinset_cons, sum_powerset_insert off, ← sum_add_distrib]
    refine sum_congr rfl fun T mem => ?_
    have hab : v ∉ T := fun hh => off (mem_powerset.mp mem hh)
    have low : update (patch vs T a) v false = patch (v :: vs) T a := by
      funext w
      by_cases hh : w = v
      · simp [patch, hh, hab]
      · simp [patch, hh]
    have high : update (patch vs T a) v true = patch (v :: vs) (insert v T) a := by
      funext w
      by_cases hh : w = v <;> simp [patch, hh]
    rw [sumOut, low, high]

lemma sumOutAll_perm [AddCommMonoid K] (perm : vs.Perm ws) (hnd : ws.Nodup)
    (F : (ι → Bool) → K) : sumOutAll vs F = sumOutAll ws F := by
  funext a
  have rd (T : Finset ι) : patch vs T a = patch ws T a := by
    funext v
    simp only [patch, perm.mem_iff]
  rw [sumOutAll_eq_sum (perm.nodup_iff.mpr hnd), sumOutAll_eq_sum hnd,
    List.toFinset_eq_of_perm _ _ perm]
  exact sum_congr rfl fun T _ => congrArg F (rd T)

def Agrees (U : Finset ι) (given : ι → Option Bool) (T : Finset ι) : Prop :=
  ∀ v ∈ U, ∀ b, given v = some b → decide (v ∈ T) = b

lemma sum_agreeing [AddCommMonoid K] (U : Finset ι) (hgiv : ι → Option Bool)
    {p : Finset ι → Prop} [DecidablePred p] (agr : ∀ T ⊆ U, p T ↔ Agrees U hgiv T)
    (F : Finset ι → K) :
    ∑ T ∈ U.powerset with p T, F T =
      ∑ S ∈ (U.filter (hgiv · = none)).powerset, F (S ∪ U.filter (hgiv · = some true)) := by
  have res (T : Finset ι) (mem : T ∈ U.powerset.filter p) :
      T.filter (hgiv · = none) ∪ U.filter (hgiv · = some true) = T := by
    rw [mem_filter, mem_powerset] at mem
    ext v
    by_cases hi : v ∈ U
    · cases vl : hgiv v with
      | none => simp [vl]
      | some b =>
        have agr0 := (agr T mem.1).mp mem.2 v hi b vl
        cases b <;> simpa [vl, hi] using agr0
    · have off : v ∉ T := fun hh => hi (mem.1 hh)
      simp [hi, off]
  refine sum_nbij' (fun T => T.filter (hgiv · = none))
    (fun S => S ∪ U.filter (hgiv · = some true)) ?_ ?_ res ?_ ?_
  · intro T mem
    rw [mem_filter, mem_powerset] at mem
    exact mem_powerset.mpr (filter_subset_filter _ mem.1)
  · intro S mem
    rw [mem_powerset] at mem
    have sub : S ∪ U.filter (hgiv · = some true) ⊆ U :=
      union_subset (mem.trans (filter_subset ..)) (filter_subset ..)
    refine mem_filter.mpr ⟨mem_powerset.mpr sub, (agr _ sub).mpr ?_⟩
    intro v hi b vl
    have off : v ∉ S := by
      intro hh
      have none := (mem_filter.mp (mem hh)).2
      exact absurd (vl.symm.trans none) (by simp)
    cases b <;> simp [off, hi, vl]
  · intro S mem
    rw [mem_powerset] at mem
    ext v
    by_cases hh : v ∈ S
    · simp [hh, (mem_filter.mp (mem hh)).2]
    simp only [mem_filter, mem_union, hh, false_or, iff_false]
    rintro ⟨⟨-, vl⟩, none⟩
    exact absurd (vl.symm.trans none) (by simp)
  · intro T mem
    exact congrArg F (res T mem).symm

end Gibson.Marginal
