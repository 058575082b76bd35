import Mathlib.Data.List.Basic
import Mathlib.Order.Lattice

/-! Readers of a growing log that go on from the key of the last entry they saw. -/

namespace Gibson.Cursor

open List

variable {I E : Type*}

/-- The cursor after a page: the key of its last entry. -/
def advance (c : Option I) (page : List (I × E)) : Option I :=
  match page.getLast? with
  | some x => some x.1
  | none => c

lemma advance_of_ne_nil {page : List (I × E)} (ens : page ≠ []) (c c') :
    advance c page = advance c' page := by
  rw [advance, advance, getLast?_eq_some_getLast ens]

variable [LinearOrder I]

def Beyond : Option I → I → Prop
  | none, _ => True
  | some c, x => c < x

instance (c : Option I) : DecidablePred (Beyond c) := fun x =>
  match c with
  | none => inferInstanceAs (Decidable True)
  | some c => inferInstanceAs (Decidable (c < x))

def Ascending (log : List (I × E)) : Prop := log.Pairwise fun x y => x.1 < y.1

/-- The entries from position `k` on are after the cursor, those to come included. -/
structure At (log : List (I × E)) (c : Option I) (k : Nat) : Prop where
  bound : k ≤ log.length
  beyond_iff : ∀ {i x}, log[i]? = some x → (Beyond c x.1 ↔ k ≤ i)
  known : ∀ i, c = some i → ∃ x ∈ log, i ≤ x.1

variable {log : List (I × E)}

lemma at_start (log : List (I × E)) : At log none 0 where
  bound := Nat.zero_le _
  beyond_iff _ := ⟨fun _ => Nat.zero_le _, fun _ => trivial⟩
  known _ none := absurd none (by simp)

section
variable (hsr : Ascending log)
include hsr

lemma Ascending.lt {i j : Nat} (h1 : log[i]? = some x)
    (h2 : log[j]? = some y) (hor : i < j) : x.1 < y.1 := by
  obtain ⟨_, rfl⟩ := List.getElem?_eq_some_iff.mp h1
  obtain ⟨_, rfl⟩ := List.getElem?_eq_some_iff.mp h2
  exact pairwise_iff_getElem.mp hsr i j _ _ hor

lemma at_entry {x : I × E} (en : log[k]? = some x) : At log (some x.1) (k + 1) where
  bound := (List.getElem?_eq_some_iff.mp en).1
  beyond_iff := by
    intro i y ht
    rcases Nat.lt_trichotomy i k with ear | rfl | late
    · have hbe := hsr.lt ht en ear
      exact ⟨fun hby => absurd hby (lt_asymm hbe), fun le => absurd ear (by omega)⟩
    · cases en.symm.trans ht
      exact ⟨fun hby => absurd hby (lt_irrefl _), fun le => absurd le (by omega)⟩
    · exact ⟨fun _ => late, fun _ => hsr.lt en ht late⟩
  known := by
    rintro i hs
    exact ⟨x, mem_of_getElem? en, le_of_eq (Option.some.inj hs).symm⟩

lemma exists_cursor (le : k ≤ log.length) : ∃ c, At log c k := by
  cases k with
  | zero => exact ⟨none, at_start log⟩
  | succ k => exact ⟨_, at_entry hsr (getElem?_eq_getElem le)⟩

lemma exists_at {c} (hk : ∃ x ∈ log, c ≤ x.1) : ∃ k, At log (some c) k := by
  have spot : ∃ k ≤ log.length, ∀ {i x}, log[i]? = some x → (c < x.1 ↔ k ≤ i) := by
    clear hk
    induction log with
    | nil => exact ⟨0, Nat.zero_le _, fun en => absurd en (by simp)⟩
    | cons x rs ih =>
      obtain ⟨h1, sor'⟩ := pairwise_cons.mp hsr
      by_cases hby : c < x.1
      · refine ⟨0, Nat.zero_le _, fun {i y} en => ⟨fun _ => Nat.zero_le i, fun _ => ?_⟩⟩
        rcases mem_cons.mp (mem_of_getElem? en) with rfl | later
        · exact hby
        · exact lt_trans hby (h1 y later)
      · obtain ⟨k, hbd, hh⟩ := ih sor'
        refine ⟨k + 1, Nat.succ_le_succ hbd, fun {i y} en => ?_⟩
        cases i with
        | zero =>
          cases en
          exact ⟨fun yes => absurd yes hby, fun le => absurd le (by omega)⟩
        | succ i =>
          rw [hh (i := i) en]
          exact Nat.succ_le_succ_iff.symm
  obtain ⟨k, hbd, hh⟩ := spot
  refine ⟨k, hbd, hh, fun i hs => ?_⟩
  rwa [← Option.some.inj hs]

end

lemma At.append (here : At log c k)
    (fresh : ∀ x ∈ more, ∀ y ∈ log, y.1 < x.1) : At (log ++ more) c k where
  bound := by
    rw [length_append]
    have := here.bound
    omega
  beyond_iff := by
    intro i x entry
    rw [getElem?_append] at entry
    split at entry
    · exact here.beyond_iff entry
    have := here.bound
    refine ⟨fun _ => by omega, fun _ => ?_⟩
    cases c with
    | none => trivial
    | some c =>
      obtain ⟨y, mem, le⟩ := here.known c rfl
      exact lt_of_le_of_lt le (fresh x (mem_of_getElem? entry) y mem)
  known i same := by
    obtain ⟨y, mem, le⟩ := here.known i same
    exact ⟨y, mem_append_left _ mem, le⟩

lemma filter_eq_drop {p : α → Bool} {rw0 : List α}
    (from_k : ∀ {i x}, rw0[i]? = some x → (p x = true ↔ k ≤ i)) :
    rw0.filter p = rw0.drop k ∧ rw0.filter (fun x => !p x) = rw0.take k := by
  induction rw0 generalizing k with
  | nil => simp
  | cons x rs ih =>
    have h1 := from_k (i := 0) (x := x) rfl
    cases k with
    | zero =>
      obtain ⟨keep, drop⟩ := ih (k := 0) fun {i y} en =>
        (from_k (i := i + 1) en).trans ⟨fun _ => Nat.zero_le i, fun _ => Nat.zero_le _⟩
      have yes : p x = true := h1.mpr (Nat.le_refl 0)
      simp [yes, keep, drop]
    | succ k =>
      obtain ⟨keep, drop⟩ := ih (k := k) fun {i y} en =>
        (from_k (i := i + 1) en).trans Nat.succ_le_succ_iff
      have no : p x = false := by
        rw [← Bool.not_eq_true, h1]
        omega
      simp [no, keep, drop]

lemma At.filter_part (hh : At log c k) (m r : Nat) :
    ((log.take r).drop m).filter (fun x => Beyond c x.1) = (log.take r).drop (max m k) ∧
      ((log.take r).drop m).filter (fun x => !decide (Beyond c x.1)) =
        (log.take (min k r)).drop m := by
  have spot {i : Nat} {x : I × E} (en : ((log.take r).drop m)[i]? = some x) :
      decide (Beyond c x.1) = true ↔ k - m ≤ i := by
    rw [getElem?_drop, getElem?_take] at en
    split at en
    · rw [decide_eq_true_iff, hh.beyond_iff en]
      omega
    · exact absurd en (by simp)
  obtain ⟨ha, hb⟩ := filter_eq_drop spot
  rw [ha, hb, drop_drop, ← drop_take, take_take]
  refine ⟨?_, rfl⟩
  congr 1
  omega

lemma At.filter_drop (hh : At log c k) (m : Nat) :
    (log.drop m).filter (fun x => Beyond c x.1) = log.drop (max m k) := by
  have part := (hh.filter_part m log.length).1
  rwa [take_length] at part

lemma At.advance (hsr : Ascending log) (hh : At log c k) (le : k ≤ r)
    (hbd : r ≤ log.length) : At log (advance c ((log.take r).drop k)) r := by
  rcases Nat.eq_or_lt_of_le le with rfl | less
  · have none : (log.take k).drop k = [] := drop_eq_nil_of_le (length_take_le k log)
    rwa [none]
  · have hlt : log[r - 1]? = some (log[r - 1]) := getElem?_eq_getElem _
    have page : ((log.take r).drop k).getLast? = some (log[r - 1]) := by
      rw [getLast?_eq_getElem?, getElem?_drop, getElem?_take, length_drop,
        length_take, if_pos (by omega), ← hlt]
      congr 1
      omega
    have spot := at_entry hsr hlt
    rw [Nat.sub_add_cancel (by omega)] at spot
    rwa [Cursor.advance, page]

end Gibson.Cursor
