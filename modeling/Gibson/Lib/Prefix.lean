import Mathlib.Data.List.Induction

/-! Induction along a run: a fact of every prefix of a list of steps. -/

namespace Gibson.Prefix

open List

variable {α : Type*} {ss : List α}

lemma induction {P : List α → Prop} (nil : P [])
    (step : ∀ hb x ha, ss = hb ++ x :: ha → P hb → P (hb ++ [x])) :
    ∀ hb ha, ss = hb ++ ha → P hb := by
  intro hb
  induction hb using reverseRecOn with
  | nil => exact fun _ _ => nil
  | append_singleton hb x ih =>
    intro ha split
    have sp' : ss = hb ++ x :: ha := by rw [split, append_assoc]; rfl
    exact step hb x ha sp' (ih _ sp')

lemma split_concat {y x before ha} (split : ss ++ [y] = before ++ x :: ha) :
    (before = ss ∧ x = y ∧ ha = []) ∨
      ∃ rs, ha = rs ++ [y] ∧ ss = before ++ x :: rs := by
  obtain rfl | ⟨rs, hlt, rfl⟩ := ha.eq_nil_or_concat
  · obtain ⟨rfl, hs⟩ := append_inj' split rfl
    exact .inl ⟨rfl, (singleton_inj.mp hs).symm, rfl⟩
  rw [concat_eq_append, ← cons_append, ← append_assoc] at split
  obtain ⟨hea, hs⟩ := append_inj' split rfl
  exact .inr ⟨rs, by rw [concat_eq_append, singleton_inj.mp hs], hea⟩

def All (P : List α → α → Prop) : List α → List α → Prop
  | _, [] => True
  | before, x :: after => P before x ∧ All P (before ++ [x]) after

instance decidableAll {P : List α → α → Prop} [∀ before x, Decidable (P before x)] :
    ∀ before after, Decidable (All P before after)
  | _, [] => .isTrue trivial
  | before, x :: after =>
    have := decidableAll (P := P) (before ++ [x]) after
    inferInstanceAs (Decidable (_ ∧ _))

lemma All.split {P : List α → α → Prop} (h : All P pa ss) :
    ∀ hb x ha, ss = hb ++ x :: ha → P (pa ++ hb) x := by
  induction ss generalizing pa with
  | nil => exact fun hb x ha split => absurd split (by simp)
  | cons y rs ih =>
    intro hb x ha split
    cases hb with
    | nil =>
      cases split
      simpa using h.1
    | cons z hb =>
      obtain ⟨rfl, tail⟩ := List.cons.inj split
      have hla := ih h.2 hb x ha tail
      rwa [append_assoc] at hla

lemma forall_split {P : List α → α → Prop} (h : All P [] ss) :
    ∀ before x after, ss = before ++ x :: after → P before x :=
  h.split

end Gibson.Prefix
