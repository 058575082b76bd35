import Mathlib.Data.List.Perm.Basic
import Mathlib.Data.List.Sort
import Mathlib.Data.String.Basic

/-! Rows of one component store: a list in creation order, read by the first row that matches and
written in place. -/

namespace Gibson.Rows

open List

variable {α β : Type*}

def updateFirst (p : α → Bool) (f : α → α) : List α → List α
  | [] => []
  | x :: xs => if p x then f x :: xs else x :: updateFirst p f xs

def upsert (p : α → Bool) (f : α → α) (fresh : α) (rows : List α) : List α :=
  if rows.any p then updateFirst p f rows else rows ++ [fresh]

@[simp] lemma updateFirst_nil (p : α → Bool) (f : α → α) : updateFirst p f [] = [] := rfl

lemma updateFirst_cons (p : α → Bool) (f : α → α) (x : α) (xs : List α) :
    updateFirst p f (x :: xs) = if p x then f x :: xs else x :: updateFirst p f xs := rfl

variable {p : α → Bool} {rows : List α}

lemma updateFirst_of_none (f : α → α) (h : rows.find? p = none) : updateFirst p f rows = rows := by
  induction rows with
  | nil => rfl
  | cons x xs ih =>
    rw [find?_cons] at h
    rw [updateFirst_cons]
    cases hp : p x with
    | true => simp [hp] at h
    | false =>
      rw [hp] at h
      simp [ih h]

lemma map_updateFirst (key : α → β) (rows : List α) (h : ∀ x, p x = true → key (f x) = key x) :
    (updateFirst p f rows).map key = rows.map key := by
  induction rows with
  | nil => rfl
  | cons x xs ih =>
    rw [updateFirst_cons]
    cases hp : p x with
    | true => simp [h x hp]
    | false => simp [ih]

lemma filter_updateFirst_of_disjoint (rows : List α)
    (h : ∀ x, p x = true → q x = false ∧ q (f x) = false) :
    (updateFirst p f rows).filter q = rows.filter q := by
  induction rows with
  | nil => rfl
  | cons x xs ih =>
    rw [updateFirst_cons]
    cases hp : p x with
    | true => simp [(h x hp).1, (h x hp).2]
    | false => simp [filter_cons, ih]

variable {x : α}

lemma updateFirst_append_cons (f : α → α) (h : ∀ y ∈ rows, p y = false) (hx : p x = true)
    (post : List α) : updateFirst p f (rows ++ x :: post) = rows ++ f x :: post := by
  induction rows with
  | nil => simp [updateFirst_cons, hx]
  | cons y ys ih =>
    rw [cons_append, updateFirst_cons, h y mem_cons_self,
      ih fun y mem => h y (mem_cons_of_mem _ mem)]
    simp

/-- The row that is rewritten, between the rows before it and those behind it. -/
lemma updateFirst_split (f : α → α) (hf : rows.find? p = some x) :
    ∃ hb post, rows = hb ++ x :: post ∧ (∀ y ∈ hb, p y = false) ∧
      updateFirst p f rows = hb ++ f x :: post := by
  obtain ⟨hx, hb, post, rfl, none⟩ := find?_eq_some_iff_append.mp hf
  have none : ∀ y ∈ hb, p y = false := fun y mem => by simpa using none y mem
  exact ⟨hb, post, rfl, none, updateFirst_append_cons f none hx post⟩

lemma filter_updateFirst_eq_iff (hf : rows.find? p = some x) (hq : q x = true)
    (hqf : q (f x) = true) : (updateFirst p f rows).filter q = rows.filter q ↔ f x = x := by
  obtain ⟨hb, post, rfl, -, hup⟩ := updateFirst_split f hf
  simp [hup, filter_append, hq, hqf]

lemma filter_updateFirst_of_found (hf : rows.find? p = some x) (hq : q x = false)
    (hqf : q (f x) = false) : (updateFirst p f rows).filter q = rows.filter q := by
  obtain ⟨hb, post, rfl, -, hup⟩ := updateFirst_split f hf
  simp [hup, filter_append, hq, hqf]

lemma updateFirst_append_of_none (f : α → α) (h : rows.find? p = none) (hx : p x = true) :
    updateFirst p f (rows ++ [x]) = rows ++ [f x] :=
  updateFirst_append_cons f (fun y mem => by simpa using find?_eq_none.mp h y mem) hx []

lemma updateFirst_updateFirst (g : α → α) (rows : List α) (h : ∀ x, p x = true → p (f x) = true) :
    updateFirst p g (updateFirst p f rows) = updateFirst p (fun x => g (f x)) rows := by
  induction rows with
  | nil => rfl
  | cons x xs ih =>
    cases hp : p x with
    | true => simp [updateFirst_cons, hp, h x hp]
    | false => simp [updateFirst_cons, hp, ih]

lemma forall_updateFirst {P : α → Prop} (h : ∀ x ∈ rows, P x)
    (hf : ∀ x, p x = true → P x → P (f x)) : ∀ x ∈ updateFirst p f rows, P x := by
  induction rows with
  | nil => simp
  | cons y ys ih =>
    have hy : P y := h y (by simp)
    have hys : ∀ x ∈ ys, P x := fun x hx => h x (by simp [hx])
    rw [updateFirst_cons]
    cases hp : p y with
    | true =>
      exact forall_mem_cons.mpr ⟨hf y hp hy, hys⟩
    | false =>
      exact forall_mem_cons.mpr ⟨hy, ih hys⟩

lemma nodup_map_append_of_find? {key : α → β} [BEq β] [LawfulBEq β] (h : (rows.map key).Nodup)
    (hx : rows.find? (key · == key x) = none) : ((rows ++ [x]).map key).Nodup := by
  rw [map_append, nodup_append]
  refine ⟨h, by simp, ?_⟩
  intro a ha b hb hs
  obtain ⟨y, hy, rfl⟩ := mem_map.mp ha
  have hb' : b = key x := by simpa using hb
  have := find?_eq_none.mp hx y hy
  simp [hs, hb'] at this

lemma nodup_map_of_perm_filter {key : α → β} {rows' : List α} (hpe : rows'.Perm (rows.filter p))
    (h : (rows.map key).Nodup) : (rows'.map key).Nodup :=
  (hpe.map key).nodup_iff.mpr (h.sublist (filter_sublist.map key))

lemma countP_filter_eq_iff :
    (rows.filter q).countP p = rows.countP p ↔ ∀ x ∈ rows, p x = true → q x = true := by
  induction rows with
  | nil => simp
  | cons x xs ih =>
    have few : (xs.filter q).countP p ≤ xs.countP p := filter_sublist.countP_le
    rw [forall_mem_cons, ← ih]
    cases hq : q x with
    | true =>
      rw [filter_cons_of_pos hq, countP_cons, countP_cons]
      constructor
      · intro hs
        exact ⟨fun _ => rfl, by omega⟩
      · rintro ⟨-, hs⟩
        rw [hs]
    | false =>
      rw [filter_cons_of_neg (by simp [hq]), countP_cons]
      cases p x with
      | true =>
        constructor
        · intro hs
          simp only [if_true] at hs
          omega
        · rintro ⟨him, -⟩
          exact absurd (him rfl) (by simp)
      | false => simp

lemma countP_updateFirst_le (rows : List α) (h : ∀ x, q (f x) = true → q x = true) :
    (updateFirst p f rows).countP q ≤ rows.countP q := by
  induction rows with
  | nil => exact Nat.le_refl _
  | cons x xs ih =>
    rw [updateFirst_cons]
    split
    · rw [countP_cons, countP_cons]
      cases ha : q (f x) with
      | false => simp
      | true => simp [h x ha]
    · rw [countP_cons, countP_cons]
      omega

lemma countP_lt_countP (wea : ∀ x ∈ rows, p x = true → q x = true) (mem : x ∈ rows)
    (old : p x = false) (new : q x = true) : rows.countP p < rows.countP q := by
  obtain ⟨hb, ha, rfl⟩ := append_of_mem mem
  have h1 := countP_mono_left fun y ht =>
    wea y (mem_append_left _ ht)
  have hlt := countP_mono_left fun y ht =>
    wea y (mem_append_right _ (mem_cons_of_mem _ ht))
  rw [countP_append, countP_append, countP_cons_of_neg (by simp [old]), countP_cons_of_pos new]
  omega

section Keyed
variable [BEq β] [LawfulBEq β] {key : α → β}

lemma find?_key_iff (h : (rows.map key).Nodup) :
    rows.find? (key · == k) = some x ↔ x ∈ rows ∧ key x = k := by
  constructor
  · intro hf
    exact ⟨mem_of_find?_eq_some hf, by simpa using find?_some hf⟩
  rintro ⟨mem, rfl⟩
  cases hf : rows.find? (key · == key x) with
  | none => simpa using find?_eq_none.mp hf x mem
  | some y =>
    have hs : key y = key x := by simpa using find?_some hf
    rw [inj_on_of_nodup_map h (mem_of_find?_eq_some hf) mem hs]

lemma find?_updateFirst_key {f : α → α} (hf : ∀ x, key (f x) = key x) (k' : β) :
    (updateFirst (key · == k) f rows).find? (key · == k') =
      if k' == k then (rows.find? (key · == k)).map f else rows.find? (key · == k') := by
  induction rows with
  | nil => simp
  | cons x xs ih =>
    rw [updateFirst_cons]
    by_cases hx : key x = k
    · by_cases hk : k' = k
      · subst hk
        simp [hx, hf]
      · simp [hx, hf, hk, Ne.symm hk]
    · have unmatched : (key x == k) = false := by simpa using hx
      rw [if_neg (by simp [unmatched]), find?_cons, find?_cons, find?_cons, ih]
      by_cases hk : k' = k
      · subst hk
        simp [unmatched]
      · simp [hk]

lemma find?_filter_key (h : (rows.map key).Nodup) (q : α → Bool) (k : β) :
    (rows.filter q).find? (key · == k) = (rows.find? (key · == k)).filter q := by
  have h' : ((rows.filter q).map key).Nodup := h.sublist (filter_sublist.map key)
  ext x
  rw [find?_key_iff h', Option.filter_eq_some_iff, find?_key_iff h, mem_filter]
  tauto

lemma updateFirst_eq_map (h : (rows.map key).Nodup) (k : β) (f : α → α) :
    updateFirst (key · == k) f rows = rows.map fun x => if key x == k then f x else x := by
  induction rows with
  | nil => rfl
  | cons y ys ih =>
    rw [map_cons, nodup_cons] at h
    rw [updateFirst_cons, map_cons, ← ih h.2]
    cases hy : key y == k with
    | false => simp
    | true =>
      have hab : ys.find? (key · == k) = none := by
        refine find?_eq_none.mpr fun x hx hs => h.1 ?_
        have hk : key x = key y := (beq_iff_eq.mp hs).trans (beq_iff_eq.mp hy).symm
        exact hk ▸ mem_map_of_mem hx
      simp [updateFirst_of_none f hab]

lemma find?_key_of_perm {rows' : List α} (h : (rows.map key).Nodup) (hpe : rows'.Perm rows)
    (k : β) : rows'.find? (key · == k) = rows.find? (key · == k) := by
  have h' : (rows'.map key).Nodup := (hpe.map key).nodup_iff.mpr h
  ext x
  rw [find?_key_iff h', find?_key_iff h, hpe.mem_iff]

omit [BEq β] [LawfulBEq β] in
lemma filterMap_congr_iff_of_key {f g : α → Option γ} (out : γ → β) (h : (rows.map key).Nodup)
    (hf : ∀ x y, f x = some y → out y = key x) (hg : ∀ x y, g x = some y → out y = key x) :
    rows.filterMap f = rows.filterMap g ↔ ∀ x ∈ rows, f x = g x := by
  refine ⟨?_, fun hs => filterMap_congr hs⟩
  induction rows with
  | nil => simp
  | cons x xs ih =>
    rw [map_cons, nodup_cons] at h
    -- An output of `x` is never an output of a later row.
    have hpt {e : α → Option γ} (he : ∀ x y, e x = some y → out y = key x) {y}
        {ys} (hy : out y = key x) : xs.filterMap e ≠ y :: ys := by
      intro hd
      obtain ⟨z, hz, hey⟩ := mem_filterMap.mp (hd ▸ mem_cons_self : y ∈ _)
      exact h.1 (mem_map.mpr ⟨z, hz, (he z y hey).symm.trans hy⟩)
    intro hs
    cases hfx : f x with
    | none =>
      rw [filterMap_cons_none hfx] at hs
      cases hgx : g x with
      | none =>
        rw [filterMap_cons_none hgx] at hs
        exact forall_mem_cons.mpr ⟨hfx.trans hgx.symm, ih h.2 hs⟩
      | some y =>
        rw [filterMap_cons_some hgx] at hs
        exact absurd hs (hpt hf (hg x y hgx))
    | some y =>
      rw [filterMap_cons_some hfx] at hs
      cases hgx : g x with
      | none =>
        rw [filterMap_cons_none hgx] at hs
        exact absurd hs.symm (hpt hg (hf x y hfx))
      | some z =>
        rw [filterMap_cons_some hgx] at hs
        obtain ⟨rfl, rs⟩ := cons.inj hs
        exact forall_mem_cons.mpr ⟨hfx.trans hgx.symm, ih h.2 rs⟩

end Keyed

section SameOrder
variable {p : α → Bool} {rows rows' : List α}

/-- Reordered, but not the chosen rows. -/
structure SameOrder (p : α → Bool) (rows rows' : List α) : Prop where
  perm : rows.Perm rows'
  filter : rows.filter p = rows'.filter p

lemma SameOrder.rfl (p : α → Bool) (rows : List α) : SameOrder p rows rows :=
  ⟨List.Perm.refl _, Eq.refl _⟩

section
variable (h : SameOrder p rows rows')
include h

lemma SameOrder.symm : SameOrder p rows' rows :=
  ⟨h.perm.symm, h.filter.symm⟩

lemma SameOrder.trans (h' : SameOrder p rows' rows'') : SameOrder p rows rows'' :=
  ⟨h.perm.trans h'.perm, h.filter.trans h'.filter⟩

lemma SameOrder.append (xs : List α) : SameOrder p (rows ++ xs) (rows' ++ xs) :=
  ⟨h.perm.append_right xs, by rw [filter_append, filter_append, h.filter]⟩

end

lemma SameOrder.of_perm (h : rows.Perm rows') (one : (rows'.filter p).length ≤ 1) :
    SameOrder p rows rows' := by
  refine ⟨h, ?_⟩
  have hp := h.filter p
  cases hm : rows'.filter p with
  | nil =>
    rw [hm] at hp
    exact perm_nil.mp hp
  | cons x rs =>
    rw [hm] at hp one
    have none : rs = [] := by
      cases rs with
      | nil => exact Eq.refl _
      | cons y ys => simp at one
    rw [none] at hp ⊢
    exact perm_singleton.mp hp

lemma updateFirst_perm (f : α → α) (hf : rows.find? p = some x) :
    ∃ rest, rows.Perm (x :: rest) ∧ (updateFirst p f rows).Perm (f x :: rest) := by
  obtain ⟨hb, post, rfl, -, hup⟩ := updateFirst_split f hf
  exact ⟨hb ++ post, perm_middle, hup ▸ perm_middle⟩

lemma find?_of_filter (h : rows.filter p = x :: rest) : rows.find? p = some x := by
  rw [← head?_filter, h]
  rfl

lemma filter_updateFirst_head (f : α → α) (h : rows.filter p = x :: rest) :
    (updateFirst p f rows).filter p = if p (f x) then f x :: rest else rest := by
  have hf := find?_of_filter h
  obtain ⟨hb, post, rfl, none, hup⟩ := updateFirst_split f hf
  have hsc : hb.filter p = [] :=
    filter_eq_nil_iff.mpr fun y mem => by simp [none y mem]
  rw [filter_append, hsc, nil_append, filter_cons_of_pos (find?_some hf)] at h
  rw [hup, filter_append, hsc, nil_append, filter_cons, (cons.inj h).2]

lemma SameOrder.updateFirst (h : SameOrder p rows rows') (f : α → α) :
    SameOrder p (updateFirst p f rows) (updateFirst p f rows') := by
  cases hm : rows.filter p with
  | nil =>
    have hab {xs : List α} (hem : xs.filter p = []) : xs.find? p = none := by
      rw [← head?_filter, hem]
      rfl
    rwa [updateFirst_of_none f (hab hm), updateFirst_of_none f (hab (h.filter ▸ hm))]
  | cons x rs =>
    have hm' : rows'.filter p = x :: rs := h.filter ▸ hm
    obtain ⟨os, hro, hupd⟩ := updateFirst_perm f (find?_of_filter hm)
    obtain ⟨oth', hro', hup'⟩ := updateFirst_perm f (find?_of_filter hm')
    have hs : os.Perm oth' :=
      (hro.symm.trans (h.perm.trans hro')).cons_inv
    refine ⟨hupd.trans ((hs.cons (f x)).trans hup'.symm), ?_⟩
    rw [filter_updateFirst_head f hm, filter_updateFirst_head f hm']

lemma filter_updateFirst_comm {q : α → Bool} {f : α → α}
    (h : ∀ x, p x = true → q x = true ∧ q (f x) = true) :
    (Rows.updateFirst p f rows).filter q = Rows.updateFirst p f (rows.filter q) := by
  induction rows with
  | nil => rfl
  | cons x xs ih =>
    rw [updateFirst_cons]
    cases hp : p x with
    | true =>
      obtain ⟨hb, ha⟩ := h x hp
      rw [if_pos (Eq.refl true), filter_cons_of_pos ha, filter_cons_of_pos hb,
        updateFirst_cons, if_pos hp]
    | false =>
      rw [if_neg (by simp), filter_cons, filter_cons, ih]
      split
      · rw [updateFirst_cons, if_neg (by simp [hp])]
      · rfl

end SameOrder

section SortBy
variable {κ : Type*} [LinearOrder κ]

def sortBy (key : α → κ) (rows : List α) : List α :=
  rows.insertionSort fun a b => key a ≤ key b

lemma sortBy_perm (key : α → κ) (rows : List α) : (sortBy key rows).Perm rows :=
  perm_insertionSort _ rows

variable {key : α → κ}

@[simp] lemma mem_sortBy : x ∈ sortBy key rows ↔ x ∈ rows :=
  (sortBy_perm key rows).mem_iff

lemma pairwise_sortBy (key : α → κ) (rows : List α) :
    (sortBy key rows).Pairwise fun a b => key a ≤ key b :=
  haveI : Std.Total fun a b : α => key a ≤ key b := ⟨fun a b => le_total (key a) (key b)⟩
  haveI : IsTrans α fun a b : α => key a ≤ key b := ⟨fun _ _ _ => le_trans⟩
  pairwise_insertionSort _ rows

lemma sortBy_of_pairwise (h : rows.Pairwise fun a b => key a ≤ key b) : sortBy key rows = rows :=
  h.insertionSort_eq

lemma sortBy_eq_of_perm (inj : Function.Injective key) (perm : rows.Perm rows') :
    sortBy key rows = sortBy key rows' := by
  have both := ((sortBy_perm key rows).trans perm).trans (sortBy_perm key rows').symm
  refine both.eq_of_pairwise ?_ (pairwise_sortBy key rows) (pairwise_sortBy key rows')
  intro a b _ _ le ge
  exact inj (le_antisymm le ge)

lemma mem_take_iff_countP (hsr : rows.Pairwise fun a b => key a < key b) :
    x ∈ rows.take k ↔ x ∈ rows ∧ rows.countP (fun y => key y < key x) < k := by
  induction rows generalizing k with
  | nil => simp
  | cons a rs ih =>
    obtain ⟨h1, hsr⟩ := pairwise_cons.mp hsr
    cases k with
    | zero => simp
    | succ k =>
      rw [take_succ_cons, mem_cons, mem_cons, ih hsr, countP_cons]
      by_cases hs : x = a
      · subst hs
        have none : rs.countP (fun y => key y < key x) = 0 := by
          rw [countP_eq_zero]
          intro y mem hbe
          exact lt_asymm (h1 y mem) (of_decide_eq_true hbe)
        simp [none]
      · by_cases mem : x ∈ rs
        · simp [hs, mem, h1 x mem]
        · simp [hs, mem]

lemma mem_take_sortBy (inj : Function.Injective key) (hnd : rows.Nodup) :
    x ∈ (sortBy key rows).take k ↔ x ∈ rows ∧ rows.countP (fun y => key y < key x) < k := by
  have perm := sortBy_perm key rows
  have str :=
    (pairwise_sortBy key rows).imp₂ (fun a b le ne => lt_of_le_of_ne le (inj.ne ne))
      (perm.nodup_iff.mpr hnd)
  rw [mem_take_iff_countP str, mem_sortBy, perm.countP_eq]

lemma nodup_map_sortBy (h : (rows.map key).Nodup) : ((sortBy key rows).map key).Nodup :=
  ((sortBy_perm key rows).map key).nodup_iff.mpr h

end SortBy
end Gibson.Rows
