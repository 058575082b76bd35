import Mathlib.Data.Fintype.Pigeonhole
import Mathlib.Data.Set.Finite.Basic

/-! Elimination of the vertices of a directed graph: one that no remaining vertex points at is taken
when there is one, else the least is forced. -/

namespace Gibson.Elimination

open List Relation Function

variable {α : Type*} {E : α → α → Prop} {S T : Set α}

def Within (S : Set α) (E : α → α → Prop) (a b : α) : Prop := a ∈ S ∧ b ∈ S ∧ E a b

/-- A vertex that is reached from a cycle, both inside `S`. -/
def Downstream (S : Set α) (E : α → α → Prop) (u : α) : Prop :=
  ∃ w, TransGen (Within S E) w w ∧ ReflTransGen (Within S E) w u

variable {u : α}

lemma Downstream.mono (sub : S ⊆ T) (h : Downstream S E u) : Downstream T E u := by
  obtain ⟨w, cyc, pth⟩ := h
  have wid (a b : α) (edge : Within S E a b) : Within T E a b :=
    ⟨sub edge.1, sub edge.2.1, edge.2.2⟩
  exact ⟨w, cyc.lift id wid, pth.lift id wid⟩

lemma Downstream.pred (h : Downstream S E u) : u ∈ S ∧ ∃ p, Downstream S E p ∧ E p u := by
  obtain ⟨w, cyc, pth⟩ := h
  rcases ReflTransGen.cases_tail pth with rfl | ⟨p, pth, edge⟩
  · obtain ⟨p, pth, edge⟩ := TransGen.tail'_iff.mp cyc
    exact ⟨edge.2.1, p, ⟨_, cyc, pth⟩, edge.2.2⟩
  · exact ⟨edge.2.1, p, ⟨w, cyc, pth⟩, edge.2.2⟩

lemma Downstream.succ (h : Downstream S E u) (mem : v ∈ S) (edge : E u v) : Downstream S E v := by
  have ht := h.pred.1
  obtain ⟨w, cyc, pth⟩ := h
  exact ⟨w, cyc, pth.tail ⟨ht, mem, edge⟩⟩

lemma downstream_erase (sink : ∀ b, ¬ E t b) (ho : u ≠ t) :
    Downstream S E u ↔ Downstream (S \ {t}) E u := by
  refine ⟨fun ⟨w, cyc, pth⟩ => ?_, fun behind => behind.mono Set.sdiff_subset⟩
  have s0 {a b} (edge : Within S E a b) : a ≠ t := by
    rintro rfl
    exact sink b edge.2.2
  have narrow {a b} (edge : Within S E a b) (stop : b ≠ t) : Within (S \ {t}) E a b :=
    ⟨⟨edge.1, s0 edge⟩, ⟨edge.2.1, stop⟩, edge.2.2⟩
  have avoid {a b} (pth : ReflTransGen (Within S E) a b) (stop : b ≠ t) :
      ReflTransGen (Within (S \ {t}) E) a b := by
    induction pth with
    | refl => exact .refl
    | tail _ edge ih => exact (ih (s0 edge)).tail (narrow edge stop)
  obtain ⟨_, h1, -⟩ := TransGen.head'_iff.mp cyc
  obtain ⟨_, hbk, hlt⟩ := TransGen.tail'_iff.mp cyc
  exact ⟨w, .tail' (avoid hbk (s0 hlt)) (narrow hlt (s0 h1)), avoid pth ho⟩

lemma downstream_of_supported (fin : S.Finite) (hsup : ∀ y ∈ S, ∃ x ∈ S, E x y)
    (mem : u ∈ S) : Downstream S E u := by
  choose pred inside edge using hsup
  let hbk : S → S := fun y => ⟨pred y y.2, inside y y.2⟩
  have step (y : S) : Within S E (hbk y) y := ⟨(hbk y).2, y.2, edge y y.2⟩
  have walk (n : Nat) (y : S) : ReflTransGen (Within S E) ((hbk^[n]) y) y := by
    induction n generalizing y with
    | zero => exact .refl
    | succ n ih =>
      exact (ih (hbk y)).tail (step y)
  have : Finite S := fin
  obtain ⟨i, j, hpt, hs⟩ :=
    Finite.exists_ne_map_eq_of_infinite fun n : Nat => (hbk^[n]) (⟨u, mem⟩ : S)
  wlog order : i < j generalizing i j
  · exact this j i hpt.symm hs.symm (by omega)
  refine ⟨(hbk^[j]) ⟨u, mem⟩, ?_, walk j ⟨u, mem⟩⟩
  -- From the later point back to the earlier one, which is the same vertex.
  have h1 : Within S E ((hbk^[j]) ⟨u, mem⟩) ((hbk^[j - 1]) ⟨u, mem⟩) := by
    have split : j = (j - 1) + 1 := by omega
    rw [split, iterate_succ_apply']
    exact step _
  have rs : ReflTransGen (Within S E) ((hbk^[j - 1]) ⟨u, mem⟩ : S) ((hbk^[i]) ⟨u, mem⟩ : S) := by
    have split : j - 1 = (j - 1 - i) + i := by omega
    rw [split, iterate_add_apply]
    exact walk _ _
  have hcl : ReflTransGen (Within S E) ((hbk^[j - 1]) ⟨u, mem⟩ : S) ((hbk^[j]) ⟨u, mem⟩ : S) := by
    have return_ := hs
    rwa [return_] at rs
  exact TransGen.head' h1 hcl

section
variable [LinearOrder α]

def Picks (E : α → α → Prop) : List α → Prop
  | [] => True
  | x :: rest =>
    ((∀ u ∈ x :: rest, ¬ E u x) ∨
      ((∀ y ∈ x :: rest, ∃ u ∈ x :: rest, E u y) ∧ ∀ y ∈ x :: rest, x ≤ y)) ∧
    Picks E rest

/-- The vertices of a list that are not below `v`. -/
def above (picks : List α) (v : α) : Set α := { y | y ∈ picks ∧ v ≤ y }

lemma Picks.idxOf_le (hor : Picks E hpk) {X : Set α}
    (hl : ∀ y ∈ X, y ∈ hpk) (hsup : ∀ y ∈ X, ∃ p ∈ X, E p y) (least : ∀ y ∈ X, v ≤ y)
    (hv : v ∈ X) (hu : u ∈ X) : hpk.idxOf v ≤ hpk.idxOf u := by
  induction hpk with
  | nil => exact absurd (hl v hv) (by simp)
  | cons x rs ih =>
    by_cases mem : x ∈ X
    · -- The first pick of the set has a predecessor left, so it was forced.
      obtain ⟨p, hi, edge⟩ := hsup x mem
      have forced : ∀ y ∈ x :: rs, x ≤ y := by
        rcases hor.1 with hry | ⟨-, least⟩
        · exact absurd edge (hry p (hl p hi))
        · exact least
      have hs : x = v := le_antisymm (forced v (hl v hv)) (least x mem)
      rw [hs, idxOf_cons_self]
      exact Nat.zero_le _
    · have hla {y} (hi : y ∈ X) : x ≠ y := fun hs => mem (hs ▸ hi)
      rw [idxOf_cons_ne _ (hla hv), idxOf_cons_ne _ (hla hu)]
      refine Nat.succ_le_succ (ih hor.2 fun y hi => ?_)
      exact (mem_cons.mp (hl y hi)).resolve_left (hla hi).symm

lemma Picks.turned_iff (hor : Picks E hpk) {u v : α} (hu : u ∈ hpk)
    (hv : v ∈ hpk) (edge : E u v) :
    hpk.idxOf v ≤ hpk.idxOf u ↔ Downstream (above hpk v) E u := by
  constructor
  · intro tur
    induction hpk with
    | nil => simp at hu
    | cons x rs ih =>
      by_cases h1 : x = v
      · subst h1
        -- The end was picked while the start remained: nothing was ready.
        obtain ⟨hsup, lea⟩ :
            (∀ y ∈ x :: rs, ∃ u ∈ x :: rs, E u y) ∧ ∀ y ∈ x :: rs, x ≤ y := by
          rcases hor.1 with hry | forced
          · exact absurd edge (hry u hu)
          · exact forced
        refine downstream_of_supported ((x :: rs).finite_toSet.subset fun y mem => mem.1) ?_
          ⟨hu, lea u hu⟩
        intro y mem
        obtain ⟨p, hi, into⟩ := hsup y mem.1
        exact ⟨p, ⟨hi, lea p hi⟩, into⟩
      · have ho : x ≠ u := by
          intro hs
          rw [hs, idxOf_cons_self, ← hs, idxOf_cons_ne _ h1] at tur
          omega
        rw [idxOf_cons_ne _ h1, idxOf_cons_ne _ ho] at tur
        have beh := ih hor.2 ((mem_cons.mp hu).resolve_left ho.symm)
          ((mem_cons.mp hv).resolve_left (Ne.symm h1)) (by omega)
        have wid : above rs v ⊆ above (x :: rs) v :=
          fun y mem => ⟨mem_cons_of_mem _ mem.1, mem.2⟩
        exact beh.mono wid
  · intro beh
    have hh : v ∈ above hpk v := ⟨hv, le_refl v⟩
    exact hor.idxOf_le (X := { y | Downstream (above hpk v) E y })
      (fun y mem => (Downstream.pred mem).1.1) (fun y mem => (Downstream.pred mem).2)
      (fun y mem => (Downstream.pred mem).1.2) (beh.succ hh edge) beh

end
end Gibson.Elimination
