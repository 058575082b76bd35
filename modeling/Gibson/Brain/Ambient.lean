import Mathlib.Data.List.Perm.Subperm
import Mathlib.Data.Prod.Lex
import Gibson.Lib.Rows

/-! The hosts in the context of a decision: the first by attention, and every surprised one. -/

namespace Gibson.Ambient

open List Rows

/-- What the projection reads. -/
structure HostSnapshot (R : Type) where
  attention : R
  (scopeID address sshHostKey surprise : String)

variable {R : Type} {kept rest : List (HostSnapshot R)}

def key (h : HostSnapshot R) : String :=
  h.scopeID ++ "\x00" ++ h.address ++ "\x00" ++ h.sshHostKey

/-- A pass over the hosts beyond the budget. The kept keys are those of the kept hosts. -/
def keep (kept : List (HostSnapshot R)) (h : HostSnapshot R) : List (HostSnapshot R) :=
  if h.surprise ≠ "" ∧ key h ∉ kept.map key then kept ++ [h] else kept

lemma mem_foldl_keep (mem : h ∈ kept) : h ∈ rest.foldl keep kept := by
  refine List.foldlRecOn rest keep mem fun kept mem x _ => ?_
  unfold keep
  split
  · exact mem_append_left _ mem
  · exact mem

lemma length_foldl_keep (kept rest : List (HostSnapshot R)) :
    (rest.foldl keep kept).length + rest.countP (key · ∉ (rest.foldl keep kept).map key) ≤
      kept.length + rest.length := by
  induction rest generalizing kept with
  | nil => simp
  | cons h rest ih =>
    have hon := ih (keep kept h)
    rw [foldl_cons, countP_cons, length_cons]
    by_cases htk : h.surprise ≠ "" ∧ key h ∉ kept.map key
    · rw [keep, if_pos htk] at hon ⊢
      have mem : h ∈ rest.foldl keep (kept ++ [h]) := mem_foldl_keep (by simp)
      rw [if_neg (by simpa using ⟨h, mem, rfl⟩)]
      simp only [length_append, length_singleton] at hon
      omega
    · rw [keep, if_neg htk] at hon ⊢
      split <;> omega

/-- The hosts beyond the budget have keys that no kept host has, and two of them share a key only
if neither is surprised. -/
def Distinct (kept rest : List (HostSnapshot R)) : Prop :=
  (∀ h ∈ rest, key h ∉ kept.map key) ∧
    rest.Pairwise fun h h' => key h = key h' → h.surprise = "" ∧ h'.surprise = ""

lemma Distinct.keep (hdi : Distinct kept (h :: rest)) : Distinct (keep kept h) rest := by
  obtain ⟨hpt, pai⟩ := hdi
  rw [pairwise_cons] at pai
  refine ⟨fun y mem => ?_, pai.2⟩
  have old := hpt y (mem_cons_of_mem _ mem)
  unfold Ambient.keep
  split
  next htk =>
    rw [map_append, mem_append, not_or]
    refine ⟨old, fun hs => htk.1 ?_⟩
    exact (pai.1 y mem (mem_singleton.mp hs).symm).1
  next => exact old

lemma foldl_keep_eq (hdi : Distinct kept rest) :
    rest.foldl keep kept = kept ++ rest.filter (·.surprise ≠ "") := by
  induction rest generalizing kept with
  | nil => simp
  | cons h rest ih =>
    rw [foldl_cons, ih hdi.keep]
    have hfr := hdi.1 h mem_cons_self
    by_cases exp : h.surprise = "" <;> simp [keep, exp, hfr]

/-- Every host is kept or counted exactly if the keys beyond the budget are distinct. -/
lemma length_foldl_keep_eq_iff (kept rest : List (HostSnapshot R)) :
    (rest.foldl keep kept).length + rest.countP (key · ∉ (rest.foldl keep kept).map key) =
      kept.length + rest.length ↔ Distinct kept rest := by
  induction rest generalizing kept with
  | nil => simp [Distinct]
  | cons h rest ih =>
    have hbd := length_foldl_keep (keep kept h) rest
    have hon := ih (keep kept h)
    rw [foldl_cons, countP_cons, length_cons]
    by_cases hsn : key h ∈ kept.map key
    · obtain ⟨x, mem, hs⟩ := mem_map.mp hsn
      have hhe : x ∈ rest.foldl keep kept := mem_foldl_keep mem
      have hunc : keep kept h = kept := if_neg fun htk => htk.2 hsn
      rw [hunc] at hbd ⊢
      rw [if_neg (by simpa using ⟨x, hhe, hs⟩)]
      exact iff_of_false (by omega) fun hdi => hdi.1 h mem_cons_self hsn
    by_cases exp : h.surprise = ""
    · have hunc : keep kept h = kept := if_neg fun htk => htk.1 exp
      rw [hunc] at hbd hon ⊢
      constructor
      · intro tot
        split at tot
        next hct =>
          have hdi := hon.mp (by omega)
          refine ⟨forall_mem_cons.mpr ⟨hsn, hdi.1⟩, pairwise_cons.mpr ⟨fun y mem hs => ?_,
            hdi.2⟩⟩
          rw [foldl_keep_eq hdi] at hct
          by_contra surprised
          refine absurd hct ?_
          simp only [decide_eq_true_eq, not_not]
          exact mem_map.mpr ⟨y, by simp_all, hs.symm⟩
        next => omega
      · intro hdi
        have res' : Distinct kept rest := hunc ▸ hdi.keep
        rw [if_pos, ← Nat.add_assoc, hon.mpr res', Nat.add_assoc]
        rw [decide_eq_true_eq, foldl_keep_eq res', map_append, mem_append, not_or]
        refine ⟨hsn, fun mem => ?_⟩
        obtain ⟨y, hi, hs⟩ := mem_map.mp mem
        rw [mem_filter, decide_eq_true_eq] at hi
        exact hi.2 ((pairwise_cons.mp hdi.2).1 y hi.1 hs.symm).2
    · have htk : keep kept h = kept ++ [h] := if_pos ⟨exp, hsn⟩
      have hhe : h ∈ rest.foldl keep (keep kept h) := mem_foldl_keep (by simp [htk])
      rw [if_neg (by simpa using ⟨h, hhe, rfl⟩)]
      have sz : (keep kept h).length = kept.length + 1 := by simp [htk]
      rw [sz] at hon
      constructor
      · intro tot
        have hdi := hon.mp (by omega)
        simp only [htk, Distinct, map_append, mem_append, not_or] at hdi
        refine ⟨forall_mem_cons.mpr ⟨hsn, fun y mem => (hdi.1 y mem).1⟩,
          pairwise_cons.mpr ⟨fun y mem hs => ?_, hdi.2⟩⟩
        exact absurd hs.symm (by simpa using (hdi.1 y mem).2)
      · intro hdi
        have := hon.mpr hdi.keep
        omega

variable [LinearOrder R] (hosts : List (HostSnapshot R))

def rank (h : HostSnapshot R) : Rᵒᵈ ×ₗ String ×ₗ String :=
  toLex (.toDual h.attention, toLex (h.scopeID, h.address))

def ambientProjection (budget : Int) : List (HostSnapshot R) × Nat :=
  if hosts.length = 0 then ([], 0)
  else
    let ranked := sortBy rank hosts
    if budget ≤ 0 ∨ ranked.length ≤ budget then (ranked, 0)
    else
      let kept := (ranked.drop budget.toNat).foldl keep (ranked.take budget.toNat)
      (kept, ranked.countP (key · ∉ kept.map key))

/-- No surprise is hidden, no host is kept twice, and every host is kept or counted. -/
def Conserves (result : List (HostSnapshot R) × Nat) : Prop :=
  (∀ h ∈ hosts, h.surprise ≠ "" → h ∈ result.1) ∧ result.1 <+~ hosts ∧
    result.1.length + result.2 = hosts.length

/-- The budget takes in every host, or the hosts beyond it are distinct. -/
def KeysApart (budget : Int) : Prop :=
  budget ≤ 0 ∨ hosts.length ≤ budget ∨
    Distinct ((sortBy rank hosts).take budget.toNat) ((sortBy rank hosts).drop budget.toNat)

/-- The projection conserves the hosts exactly if the budget takes in all, or the keys beyond it
are apart. -/
theorem conserves_iff (budget : Int) :
    Conserves hosts (ambientProjection hosts budget) ↔ KeysApart hosts budget := by
  have hsr := sortBy_perm rank hosts
  unfold ambientProjection KeysApart
  generalize sortBy rank hosts = ran at hsr
  rw [← hsr.length_eq]
  by_cases none : ran.length = 0
  · have hem := length_eq_zero_iff.mp none
    rw [hem, nil_perm] at hsr
    simp [hsr, hem, Conserves, Distinct]
  rw [if_neg none]
  simp only
  by_cases all : budget ≤ 0 ∨ (ran.length : Int) ≤ budget
  · rw [if_pos all, ← or_assoc]
    refine iff_of_true ?_ (.inl all)
    exact ⟨fun h mem _ => hsr.mem_iff.mpr mem, hsr.subperm, hsr.length_eq⟩
  rw [if_neg all, ← or_assoc, or_iff_right all]
  have hwh := take_append_drop budget.toNat ran
  generalize ran.take budget.toNat = kept at *
  generalize ran.drop budget.toNat = rest at *
  have hhe : kept.countP (key · ∉ (rest.foldl keep kept).map key) = 0 :=
    countP_eq_zero.mpr fun h mem => by simpa using ⟨h, mem_foldl_keep mem, rfl⟩
  have tot : (rest.foldl keep kept).length +
      ran.countP (key · ∉ (rest.foldl keep kept).map key) = hosts.length ↔
        Distinct kept rest := by
    rw [← length_foldl_keep_eq_iff, ← hsr.length_eq, ← hwh, countP_append, hhe, length_append,
      Nat.zero_add]
  refine ⟨fun hcon => tot.mp hcon.2.2, fun hdi => ?_⟩
  refine ⟨fun h mem hsur => ?_, ?_, tot.mpr hdi⟩
  all_goals rw [foldl_keep_eq hdi]
  · rw [← hsr.mem_iff, ← hwh, mem_append] at mem
    exact mem_append.mpr (mem.imp_right fun mem => mem_filter.mpr ⟨mem, by simpa using hsur⟩)
  · refine Subperm.trans (Sublist.subperm ?_) hsr.subperm
    rw [← hwh]
    exact filter_sublist.append_left _

/-- Of two hosts with one key the surprised one is neither kept nor counted. -/
theorem surprised_twin_hidden :
    let twins : List (HostSnapshot Nat) := [⟨0, "s", "a", "", ""⟩, ⟨0, "s", "a", "", "new"⟩]
    ambientProjection twins 1 = ([⟨0, "s", "a", "", ""⟩], 0) ∧
      ¬ Conserves twins (ambientProjection twins 1) :=
  ⟨rfl, fun hcon => absurd hcon.2.2 (by decide)⟩

end Gibson.Ambient
