import Mathlib.Data.List.Perm.Basic

/-! Loops over a list, pure ones and ones whose body can fail. -/

namespace Gibson.Loops

open List

universe u

variable {ε : Type*} {α β σ : Type u}
variable {xs : List α}

lemma foldl_reaches {f : σ → α → σ} (P : σ → Prop) (mem : x ∈ xs)
    (bri : ∀ s, P (f s x)) (hkp : ∀ s a, P s → P (f s a)) (s : σ) : P (xs.foldl f s) := by
  induction xs generalizing s with
  | nil => simp at mem
  | cons y ys ih =>
    rcases mem_cons.mp mem with rfl | mem
    · exact List.foldlRecOn ys f (bri s) fun s hk a _ => hkp s a hk
    · exact ih mem (f s y)

lemma foldl_reverse_foldl {f g : σ → α → σ} (undo : ∀ a s, g (f s a) a = s) (xs : List α)
    (s : σ) : xs.reverse.foldl g (xs.foldl f s) = s := by
  induction xs generalizing s with
  | nil => rfl
  | cons x xs ih =>
    rw [foldl_cons, reverse_cons, foldl_append, ih]
    exact undo x s

variable {f : α → Except ε β}

lemma bind_ok_iff : x >>= f = .ok r ↔ ∃ a, x = .ok a ∧ f a = .ok r := by
  cases x with
  | error err | ok a => simp [bind, Except.bind]

lemma mapM_ok (h : xs.mapM f = .ok ys) : List.Forall₂ (fun x y => f x = .ok y) xs ys := by
  induction xs generalizing ys with
  | nil =>
    cases h
    exact .nil
  | cons x xs ih =>
    rw [mapM_cons] at h
    obtain ⟨y, h1, h⟩ := bind_ok_iff.mp h
    obtain ⟨ys', rs, h⟩ := bind_ok_iff.mp h
    cases h
    exact .cons h1 (ih rs)

lemma mem_of_mapM_ok (h : xs.mapM f = .ok ys) :
    (∀ y ∈ ys, ∃ x ∈ xs, f x = .ok y) ∧ ∀ x ∈ xs, ∃ y ∈ ys, f x = .ok y := by
  have ss := mapM_ok h
  clear h
  induction ss with
  | nil => simp
  | cons h1 rs ih =>
    simp only [forall_mem_cons, exists_mem_cons_iff]
    exact ⟨⟨.inl h1, fun y mem => .inr (ih.1 y mem)⟩, .inl h1, fun x mem => .inr (ih.2 x mem)⟩

lemma foldlM_invariant {f : σ → α → Except ε σ} (P : σ → Prop) (s0 : P s)
    (step : ∀ s a s', a ∈ xs → P s → f s a = .ok s' → P s') (h : xs.foldlM f s = .ok s') :
    P s' := by
  induction xs generalizing s with
  | nil =>
    cases h
    exact s0
  | cons x xs ih =>
    obtain ⟨s₁, h1, rs⟩ := bind_ok_iff.mp h
    exact ih (step s x s₁ mem_cons_self s0 h1)
      (fun s a s' mem => step s a s' (mem_cons_of_mem _ mem)) rs

lemma foldlM_reaches {f : σ → α → Except ε σ} (P Q : σ → Prop) (mem : x ∈ xs)
    (s0 : Q s) (hsy : ∀ s a s', a ∈ xs → Q s → f s a = .ok s' → Q s')
    (bri : ∀ s s', Q s → f s x = .ok s' → P s')
    (hkp : ∀ s a s', a ∈ xs → Q s → P s → f s a = .ok s' → P s') (h : xs.foldlM f s = .ok s') :
    P s' := by
  induction xs generalizing s with
  | nil => simp at mem
  | cons y ys ih =>
    obtain ⟨s₁, h1, rs⟩ := bind_ok_iff.mp h
    have nx := hsy s y s₁ mem_cons_self s0 h1
    have sta' := fun s a s' (mem : a ∈ ys) => hsy s a s' (mem_cons_of_mem _ mem)
    have kee' := fun s a s' (mem : a ∈ ys) => hkp s a s' (mem_cons_of_mem _ mem)
    rcases mem_cons.mp mem with rfl | mem
    · refine (foldlM_invariant (fun s => Q s ∧ P s) ⟨nx, bri s s₁ s0 h1⟩ ?_ rs).2
      intro s a s' mem hk rns
      exact ⟨sta' s a s' mem hk.1 rns, kee' s a s' mem hk.1 hk.2 rns⟩
    · exact ih mem nx sta' kee' rs

end Gibson.Loops
