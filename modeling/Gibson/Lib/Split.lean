import Mathlib.Data.List.Basic

/-! Cutting a list at a separator of several elements, always at the first occurrence. A piece and
the separator behind it can make up an earlier one. -/

namespace Gibson.Split

open List Option

variable {α : Type*}

def join (sep : List α) (pieces : List (List α)) : List α := sep.intercalate pieces

@[simp] lemma join_singleton (sep piece : List α) : join sep [piece] = piece := by simp [join]

@[simp] lemma join_cons_cons (sep piece nx : List α) (rs : List (List α)) :
    join sep (piece :: nx :: rs) = piece ++ sep ++ join sep (nx :: rs) := by
  simp [join]

variable {sep : List α}

lemma length_le_join (hne : sep ≠ []) (pcs : List (List α)) (hlt : List α) :
    pcs.length ≤ (join sep (pcs ++ [hlt])).length := by
  have long := length_pos_iff.mpr hne
  induction pcs with
  | nil => simp
  | cons piece rs ih =>
    obtain ⟨nx, os, hsha⟩ : ∃ nx os, rs ++ [hlt] = nx :: os :=
      exists_cons_of_ne_nil (by simp)
    rw [cons_append, hsha, join_cons_cons]
    rw [hsha] at ih
    simp only [length_cons, length_append]
    omega

variable [DecidableEq α]

def cut (sep : List α) : List α → Option (List α × List α)
  | [] => if sep = [] then some ([], []) else none
  | x :: xs =>
    if sep <+: x :: xs then some ([], (x :: xs).drop sep.length)
    else (cut sep xs).map fun found => (x :: found.1, found.2)

def contains (sep text : List α) : Bool := (cut sep text).isSome

def splitN (sep : List α) : Nat → List α → List (List α)
  | 0, text => [text]
  | n + 1, text =>
    match cut sep text with
    | none => [text]
    | some (before, after) => before :: splitN sep n after

def split (sep text : List α) : List (List α) := splitN sep text.length text

lemma cut_of_isPrefix (s0 : sep <+: text) : cut sep text = some ([], text.drop sep.length) := by
  cases text with
  | nil => simp [cut, prefix_nil.mp s0]
  | cons x xs => simp [cut, s0]

/-- A text with the separator in it is cut, there or earlier. -/
lemma cut_append (sep hb ha : List α) :
    ∃ fro hbk, cut sep (hb ++ sep ++ ha) = some (fro, hbk) ∧
      fro.length ≤ hb.length := by
  induction hb with
  | nil =>
    refine ⟨[], ha, ?_, Nat.le_refl 0⟩
    rw [nil_append, cut_of_isPrefix (prefix_append sep ha), drop_left]
  | cons x hb ih =>
    by_cases s0 : sep <+: x :: (hb ++ sep ++ ha)
    · exact ⟨[], _, by rw [cons_append, cons_append, cut_of_isPrefix s0], Nat.zero_le _⟩
    obtain ⟨fro, hbk, hf, hsho⟩ := ih
    refine ⟨x :: fro, hbk, ?_, Nat.succ_le_succ hsho⟩
    rw [cons_append, cons_append, cut, if_neg s0, hf, map_some]

def Clear (sep piece : List α) : Prop :=
  ∀ rest, cut sep (piece ++ sep ++ rest) = some (piece, rest)

/-- A join is read back where every piece but the last is clear and the last one does not contain
the separator. -/
lemma splitN_join {pcs hlt n} (clear : ∀ piece ∈ pcs, Clear sep piece)
    (hp : contains sep hlt = false) (heno : pcs.length ≤ n) :
    splitN sep n (join sep (pcs ++ [hlt])) = pcs ++ [hlt] := by
  have none : cut sep hlt = none := by simpa [contains] using hp
  induction pcs generalizing n with
  | nil => cases n <;> simp [splitN, none]
  | cons piece rs ih =>
    obtain ⟨m, rfl⟩ : ∃ m, n = m + 1 := ⟨n - 1, by simp at heno; omega⟩
    obtain ⟨nx, os, hsha⟩ : ∃ nx os, rs ++ [hlt] = nx :: os :=
      exists_cons_of_ne_nil (by simp)
    have inn := ih (fun p mem => clear p (mem_cons_of_mem _ mem)) (Nat.le_of_succ_le_succ heno)
    rw [cons_append, hsha, join_cons_cons, splitN, clear piece mem_cons_self]
    rw [hsha] at inn
    exact congrArg _ inn

lemma split_join (hne : sep ≠ []) (pcs : List (List α)) {last}
    (clear : ∀ piece ∈ pcs, Clear sep piece) (hp : contains sep last = false) :
    split sep (join sep (pcs ++ [last])) = pcs ++ [last] :=
  splitN_join clear hp (length_le_join hne pcs last)

/-- A split that gives several pieces cut the text behind the first one. -/
lemma cut_of_splitN {next} (pcs : splitN sep n text = piece :: next :: rest) :
    ∃ m after, cut sep text = some (piece, after) ∧ splitN sep m after = next :: rest := by
  cases n with
  | zero => simp [splitN] at pcs
  | succ n =>
    rw [splitN] at pcs
    cases hf : cut sep text with
    | none => simp [hf] at pcs
    | some par =>
      rw [hf] at pcs
      obtain ⟨rfl, tail⟩ := List.cons.inj pcs
      exact ⟨n, par.2, rfl, tail⟩

section
variable {x : α} {piece : List α}

lemma clear_single (hab : contains [x] piece = false) : Clear [x] piece := by
  intro rs
  induction piece with
  | nil => simp [cut]
  | cons y piece ih =>
    have ho : ¬[x] <+: y :: piece := by
      intro s0
      rw [contains, cut_of_isPrefix s0] at hab
      simp at hab
    have hh : x ≠ y := by simpa using ho
    rw [contains, cut, if_neg ho, isSome_map] at hab
    rw [cons_append, cons_append, cut, if_neg (by simp [hh]), ih hab, map_some]

/-- An element at the end of a piece makes up a separator with the first half of the one behind. -/
lemma cut_double_ne (ends : piece.getLast? = some x) (rs ha : List α) :
    cut [x, x] (piece ++ [x, x] ++ rs) ≠ some (piece, ha) := by
  intro h1
  obtain ⟨fro, rfl⟩ := List.getLast?_eq_some_iff.mp ends
  obtain ⟨hb, hbk, hf, hsho⟩ := cut_append [x, x] fro (x :: rs)
  simp only [append_assoc, cons_append, nil_append] at h1 hf
  rw [h1] at hf
  cases hf
  simp only [length_append, length_singleton] at hsho
  omega

/-- A piece without a doubled element is clear unless it ends with that element. -/
lemma clear_double (hab : contains [x, x] piece = false) :
    Clear [x, x] piece ↔ piece.getLast? ≠ some x := by
  constructor
  · intro clear ends
    exact cut_double_ne ends [] [] (clear [])
  intro ends rs
  induction piece with
  | nil => simp [cut]
  | cons y piece ih =>
    have ho : ¬[x, x] <+: y :: piece := by
      intro s0
      rw [contains, cut_of_isPrefix s0] at hab
      simp at hab
    have hla : ¬[x, x] <+: y :: (piece ++ [x, x] ++ rs) := by
      cases piece with
      | nil =>
        have hh : y ≠ x := by simpa using ends
        simp [hh.symm]
      | cons z piece => simpa using ho
    rw [contains, cut, if_neg ho, isSome_map] at hab
    have hlt : piece.getLast? ≠ some x := by
      cases piece with
      | nil => simp
      | cons z piece => simpa using ends
    rw [cons_append, cons_append, cut, if_neg hla, ih hab hlt, map_some]

end
end Gibson.Split
