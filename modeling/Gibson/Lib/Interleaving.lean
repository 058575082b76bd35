import Mathlib.Data.List.Induction

/-! Concurrent calls on a shared state, one request at a time, with changes from outside between. A
call that stops for good is one that takes no further step. -/

namespace Gibson.Interleaving

open List

/-- How a call begins, what its next request does, and what else changes the state. -/
structure System (S O C A E : Type*) where
  enter : O → C
  advance : S → C → A → S × C
  outside : S → E → S

/-- The state that calls share, and the calls in flight. -/
structure World (S C : Type*) where
  shared : S
  calls : List C := []

/-- One step: a call begins, the call at a place makes its next request, or something from outside
happens. -/
inductive Step (O A E : Type*) where
  | start (op : O)
  | advance (i : Nat) (answer : A)
  | outside (event : E)

variable {S O C A E : Type*}

def step (sys : System S O C A E) (w : World S C) : Step O A E → World S C
  | .start op => { w with calls := w.calls ++ [sys.enter op] }
  | .advance i answer =>
    match w.calls[i]? with
    | none => w
    | some call =>
      { shared := (sys.advance w.shared call answer).1
        calls := w.calls.set i (sys.advance w.shared call answer).2 }
  | .outside event => { w with shared := sys.outside w.shared event }

def run (sys : System S O C A E) (w : World S C) (steps : List (Step O A E)) : World S C :=
  steps.foldl (step sys) w

section
variable {sys : System S O C A E} {w : World S C} {steps : List (Step O A E)}

lemma run_append (hb ha : List (Step O A E)) :
    run sys w (hb ++ ha) = run sys (run sys w hb) ha :=
  foldl_append ..

lemma run_append_singleton (x : Step O A E) :
    run sys w (steps ++ [x]) = step sys (run sys w steps) x := by
  simp [run]

variable {i : Nat}

lemma step_advance_some (hh : w.calls[i]? = some c) (a) : step sys w (.advance i a) =
      { shared := (sys.advance w.shared c a).1
        calls := w.calls.set i (sys.advance w.shared c a).2 } := by
  simp only [step, hh]

lemma step_advance_none (nob : w.calls[i]? = none) (a) : step sys w (.advance i a) = w := by
  simp only [step, nob]

lemma le_countP {cs : List C} (hh : cs[i]? = some c) (p : C → Bool) :
    (p c).toNat ≤ cs.countP p := by
  cases is : p c with
  | false => exact Nat.zero_le _
  | true => exact countP_pos_iff.mpr ⟨c, mem_of_getElem? hh, is⟩

lemma countP_set {cs : List C} (hh : cs[i]? = some c) (p : C → Bool) (c') :
    (cs.set i c').countP p + (p c).toNat = cs.countP p + (p c').toNat := by
  have hct := le_countP hh p
  obtain ⟨hbd, rfl⟩ := List.getElem?_eq_some_iff.mp hh
  rw [List.countP_set hbd]
  cases is : p cs[i] <;> cases p c' <;>
    simp only [is, Bool.toNat_true, Bool.toNat_false] at hct ⊢ <;> grind

lemma safe_iff {P : World S C → Prop} {Bre : World S C → Step O A E → Prop} (s0 : P w)
    (hkp : ∀ w x, P w → (P (step sys w x) ↔ ¬Bre w x)) (steps : List (Step O A E)) :
    (∀ hb ha, steps = hb ++ ha → P (run sys w hb)) ↔
      ∀ hb x ha, steps = hb ++ x :: ha → ¬Bre (run sys w hb) x := by
  constructor
  · intro hsf hb x ha split
    have nx := hsf (hb ++ [x]) ha (by simpa using split)
    rw [run_append_singleton] at nx
    exact (hkp _ x (hsf hb _ split)).mp nx
  · intro hso hb
    induction hb using reverseRecOn with
    | nil => exact fun _ _ => s0
    | append_singleton hb x ih =>
      intro ha split
      have sp' : steps = hb ++ x :: ha := by simpa using split
      rw [run_append_singleton]
      exact (hkp _ x (ih _ sp')).mpr (hso hb x ha sp')

lemma calls_step (cl : (step sys w x).calls[i]? = some c) :
    (w.calls[i]? = some c ∧ ∀ a, x ≠ .advance i a) ∨
      (∃ op, x = .start op ∧ i = w.calls.length ∧ c = sys.enter op) ∨
      ∃ a hb, x = .advance i a ∧ w.calls[i]? = some hb ∧
        c = (sys.advance w.shared hb a).2 := by
  cases x with
  | start op =>
    simp only [step] at cl
    by_cases old : i < w.calls.length
    · rw [List.getElem?_append_left old] at cl
      exact .inl ⟨cl, by simp⟩
    rw [List.getElem?_append_right (by omega)] at cl
    obtain ⟨hh, rfl⟩ := List.getElem?_eq_some_iff.mp cl
    have pl : i = w.calls.length := by
      simp only [List.length_singleton] at hh
      omega
    exact .inr (.inl ⟨op, rfl, pl, by simp⟩)
  | outside event => exact .inl ⟨cl, by simp⟩
  | advance j a =>
    simp only [step] at cl
    cases hf : w.calls[j]? with
    | none =>
      rw [hf] at cl
      refine .inl ⟨cl, fun a' hs => ?_⟩
      cases hs
      rw [hf] at cl
      contradiction
    | some hb =>
      rw [hf] at cl
      by_cases hs : j = i
      · subst hs
        have hbd := (List.getElem?_eq_some_iff.mp hf).1
        rw [List.getElem?_set_self hbd] at cl
        exact .inr (.inr ⟨a, hb, rfl, hf, (Option.some.inj cl).symm⟩)
      · rw [List.getElem?_set_ne hs] at cl
        exact .inl ⟨cl, fun a' h => hs (Step.advance.inj h).1⟩

lemma call_step (x : Step O A E) (cl : w.calls[i]? = some c) :
    ∃ c', (step sys w x).calls[i]? = some c' ∧
      (c' = c ∨ ∃ a, x = .advance i a ∧ c' = (sys.advance w.shared c a).2) := by
  have hbd := (List.getElem?_eq_some_iff.mp cl).1
  cases x with
  | start op => exact ⟨c, by rw [step, List.getElem?_append_left hbd, cl], .inl rfl⟩
  | outside event => exact ⟨c, cl, .inl rfl⟩
  | advance j a =>
    simp only [step]
    cases hf : w.calls[j]? with
    | none => exact ⟨c, cl, .inl rfl⟩
    | some hb =>
      by_cases hs : j = i
      · subst hs
        obtain rfl : hb = c := Option.some.inj (hf.symm.trans cl)
        exact ⟨_, List.getElem?_set_self hbd, .inr ⟨a, rfl, rfl⟩⟩
      · exact ⟨c, by rw [List.getElem?_set_ne hs, cl], .inl rfl⟩

variable (sys w steps) in
def worldAt (n : Nat) : World S C :=
  run sys w (steps.take n)

lemma worldAt_end (pa : steps[n]? = none) :
    worldAt sys w steps (n + 1) = worldAt sys w steps n := by
  have hbd := getElem?_eq_none_iff.mp pa
  rw [worldAt, worldAt, take_of_length_le hbd, take_of_length_le (by omega)]

lemma timeline {P : Nat → World S C → Prop} (zero : P 0 w)
    (succ : ∀ n x, steps[n]? = some x → P n (worldAt sys w steps n) →
      P (n + 1) (step sys (worldAt sys w steps n) x))
    (rs : ∀ n, steps[n]? = none → P n (worldAt sys w steps n) →
      P (n + 1) (worldAt sys w steps n)) : ∀ n, P n (worldAt sys w steps n) := by
  intro n
  induction n with
  | zero => exact zero
  | succ n ih =>
    cases hh : steps[n]? with
    | none =>
      rw [worldAt_end hh]
      exact rs n hh ih
    | some x =>
      obtain ⟨hbd, rfl⟩ := List.getElem?_eq_some_iff.mp hh
      rw [worldAt, ← List.take_append_getElem hbd, run_append_singleton]
      exact succ n _ hh ih

end
end Gibson.Interleaving
