import Mathlib.Data.List.Basic
import Mathlib.Logic.Relation

/-! Depth-first search with three colors. Where it records no edge back into its own stack, no node
it has left is on a cycle. -/

namespace Gibson.Dfs

open List Function Relation

inductive Color where
  | white
  | gray
  | black
  deriving DecidableEq

/-- The colors, the path, the back edges. -/
structure State (α : Type*) where
  color : α → Color
  stack : List α := []
  back : List (List α) := []

variable {α : Type*}

lemma not_transGen_of_acc {r : α → α → Prop} (h : Acc r u) : ¬ TransGen r u u := by
  induction h with
  | intro u _ ih =>
    intro cyc
    obtain ⟨v, pth, hlt⟩ := TransGen.tail'_iff.mp cyc
    exact ih v hlt (TransGen.head' hlt pth)

def Edge (adj : α → List α) (u v : α) : Prop := v ∈ adj u

def Next (adj : α → List α) (v u : α) : Prop := Edge adj u v

section Stretch
variable {adj : α → List α} {s s' : State α}

lemma foldl_back {step : State α → α → State α}
    (hg : ∀ s u, s.back <+: (step s u).back) (us : List α) (s : State α) :
    s.back <+: (us.foldl step s).back := by
  induction us generalizing s with
  | nil => exact prefix_rfl
  | cons u us ih => exact (hg s u).trans (ih (step s u))

lemma quiet_of_prefix (h : s.back <+: s'.back) (hq : s'.back = []) : s.back = [] :=
  prefix_nil.mp (hq ▸ h)

/-- A search that finds no back edge. -/
structure Quiet (adj : α → List α) (s s' : State α) : Prop where
  gray : ∀ v, s'.color v = .gray ↔ s.color v = .gray
  black : ∀ v, s.color v = .black → s'.color v = .black
  settled : (∀ v, s.color v = .black → Acc (Next adj) v) →
    ∀ v, s'.color v = .black → Acc (Next adj) v

lemma Quiet.refl (s : State α) : Quiet adj s s :=
  ⟨fun _ => Iff.rfl, fun _ h => h, fun h => h⟩

lemma Quiet.trans (h : Quiet adj s s') (h' : Quiet adj s' s'') : Quiet adj s s'' :=
  ⟨fun v => (h'.gray v).trans (h.gray v), fun v hv => h'.black v (h.black v hv),
    fun hk => h'.settled (h.settled hk)⟩

lemma Quiet.white (h : Quiet adj s s') (hv : s'.color v = .white) : s.color v = .white := by
  cases old : s.color v with
  | white => rfl
  | gray => rw [(h.gray v).mpr old] at hv; simp at hv
  | black => rw [h.black v old] at hv; simp at hv

def whites (nodes : List α) (s : State α) : Nat := nodes.countP fun v => s.color v = .white

end Stretch

variable [DecidableEq α]

def backPath (stack : List α) (v : α) : List α :=
  stack.drop ((stack.findIdx? (· == v)).getD 0)

def follow (visit : State α → α → State α) (s : State α) (v : α) : State α :=
  match s.color v with
  | .white => visit s v
  | .gray => { s with back := s.back ++ [backPath s.stack v] }
  | .black => s

def enter (s : State α) (u : α) : State α :=
  { s with color := update s.color u .gray, stack := s.stack ++ [u] }

def leave (s : State α) (u : α) : State α :=
  { s with color := update s.color u .black, stack := s.stack.dropLast }

/-- Each level of the recursion takes a node out of the white ones. -/
def visit (adj : α → List α) : Nat → State α → α → State α
  | 0, s, _ => s
  | fuel + 1, s, u => leave ((adj u).foldl (follow (visit adj fuel)) (enter s u)) u

def searchStep (adj : α → List α) (fuel : Nat) (s : State α) (u : α) : State α :=
  if s.color u = .white then visit adj fuel s u else s

def search (adj : α → List α) (fuel : Nat) (roots : List α) : State α :=
  roots.foldl (searchStep adj fuel) { color := fun _ => .white }

lemma follow_back {visit : State α → α → State α}
    (hg : ∀ s u, s.back <+: (visit s u).back) (s : State α) (v : α) :
    s.back <+: (follow visit s v).back := by
  unfold follow
  split
  · exact hg s v
  · exact prefix_append _ _
  · exact prefix_rfl

lemma visit_back (adj : α → List α) (fuel : Nat) (s : State α) (u : α) :
    s.back <+: (visit adj fuel s u).back := by
  induction fuel generalizing s u with
  | zero => exact prefix_rfl
  | succ fuel ih =>
    exact foldl_back (fun s v => follow_back ih s v) (adj u) (enter s u)

section Quiet
variable {s : State α}

lemma whites_enter (mem : u ∈ nodes) (white : s.color u = .white) :
    whites nodes (enter s u) < whites nodes s := by
  unfold whites
  induction nodes with
  | nil => simp at mem
  | cons v nodes ih =>
    have rs : nodes.countP (fun v => (enter s u).color v = .white) ≤
        nodes.countP fun v => s.color v = .white := by
      refine countP_mono_left fun v _ hv => ?_
      by_cases hs : v = u
      · simpa [hs] using white
      · simpa [enter, hs] using hv
    by_cases hs : v = u
    · subst hs
      simp only [countP_cons, enter, update_self, white]
      simpa [enter] using Nat.lt_succ_of_le rs
    · have mem : u ∈ nodes := (mem_cons.mp mem).resolve_left (Ne.symm hs)
      have less := ih mem
      simp only [countP_cons]
      have kp : (enter s u).color v = s.color v := by simp [enter, hs]
      rw [kp]
      omega

lemma Quiet.leave (white : s.color u = .white) (h : Quiet adj (enter s u) s')
    (hdn : ∀ v ∈ adj u, s'.color v = .black) : Quiet adj s (leave s' u) := by
  constructor
  · intro v
    by_cases hs : v = u
    · subst hs
      simp [Dfs.leave, white]
    have hb := h.gray v
    simp only [enter, update_of_ne hs] at hb
    simpa [Dfs.leave, hs] using hb
  · intro v hv
    by_cases hs : v = u
    · simp [Dfs.leave, hs]
    · have hb : (enter s u).color v = .black := by simpa [enter, hs] using hv
      simpa [Dfs.leave, hs] using h.black v hb
  · intro hk
    have hen : ∀ v, (enter s u).color v = .black → Acc (Next adj) v := by
      intro v hv
      by_cases hs : v = u
      · simp [enter, hs] at hv
      · exact hk v (by simpa [enter, hs] using hv)
    have hse := h.settled hen
    intro v hv
    by_cases hs : v = u
    · subst hs
      exact Acc.intro v fun w hw => hse w (hdn w hw)
    · exact hse v (by simpa [Dfs.leave, hs] using hv)

end Quiet

section Visit
variable {adj : α → List α} {nodes : List α}

def VisitSpec (adj : α → List α) (nodes : List α) (fuel : Nat)
    (visit : State α → α → State α) : Prop :=
  ∀ s u, whites nodes s ≤ fuel → u ∈ nodes → s.color u = .white → (visit s u).back = [] →
    Quiet adj s (visit s u) ∧ (visit s u).color u = .black

lemma foldl_follow_quiet {visit : State α → α → State α}
    (hg : ∀ s u, s.back <+: (visit s u).back) (spec : VisitSpec adj nodes fuel visit)
    {vs : List α} (sub : ∀ v ∈ vs, v ∈ nodes) (heno : whites nodes s ≤ fuel)
    (hq : (vs.foldl (follow visit) s).back = []) :
    Quiet adj s (vs.foldl (follow visit) s) ∧
      ∀ v ∈ vs, (vs.foldl (follow visit) s).color v = .black := by
  induction vs generalizing s with
  | nil => exact ⟨Quiet.refl s, by simp⟩
  | cons v vs ih =>
    have hfq := quiet_of_prefix (foldl_back (follow_back hg) vs _) hq
    obtain ⟨h1, black⟩ : Quiet adj s (follow visit s v) ∧ (follow visit s v).color v = .black := by
      unfold follow at hfq ⊢
      split at hfq
      · next white => exact spec s v heno (sub v mem_cons_self) white hfq
      · simp at hfq
      · next black => exact ⟨Quiet.refl s, black⟩
    obtain ⟨rs, bla⟩ := ih (fun w hw => sub w (mem_cons_of_mem _ hw))
      (Nat.le_trans (countP_mono_left fun w _ hw => by simpa using h1.white (by simpa using hw))
        heno) hq
    exact ⟨h1.trans rs, forall_mem_cons.mpr ⟨rs.black _ black, bla⟩⟩

lemma visit_spec (hcl : ∀ u, ∀ v ∈ adj u, v ∈ nodes) (fuel : Nat) :
    VisitSpec adj nodes fuel (visit adj fuel) := by
  induction fuel with
  | zero =>
    intro s u heno mem white
    have hct := whites_enter mem white
    omega
  | succ fuel ih =>
    intro s u heno mem white hq
    have hct := whites_enter mem white
    obtain ⟨loop, hdn⟩ := foldl_follow_quiet (visit_back adj fuel) ih (hcl u)
      (s := enter s u) (by omega) hq
    exact ⟨loop.leave white hdn, by simp [visit, leave]⟩

lemma searchStep_back (adj : α → List α) (fuel : Nat) (s : State α) (u : α) :
    s.back <+: (searchStep adj fuel s u).back := by
  unfold searchStep
  split
  · exact visit_back adj fuel s u
  · exact prefix_rfl

lemma foldl_searchStep_settled (hcl : ∀ u, ∀ v ∈ adj u, v ∈ nodes)
    (heno : nodes.length ≤ fuel) {roo : List α} (sub : ∀ u ∈ roo, u ∈ nodes)
    (noG : ∀ v, s.color v ≠ .gray) (hk : ∀ v, s.color v = .black → Acc (Next adj) v)
    (hq : (roo.foldl (searchStep adj fuel) s).back = []) :
    (∀ u, s.color u = .black → Acc (Next adj) u) ∧ ∀ u ∈ roo, Acc (Next adj) u := by
  induction roo generalizing s with
  | nil => exact ⟨hk, by simp⟩
  | cons u roo ih =>
    have hfq := quiet_of_prefix (foldl_back (searchStep_back adj fuel) roo _) hq
    have step : Quiet adj s (searchStep adj fuel s u) ∧
        (searchStep adj fuel s u).color u = .black := by
      unfold searchStep at hfq ⊢
      split at hfq
      · next white =>
        rw [if_pos white]
        have hct : whites nodes s ≤ fuel := Nat.le_trans countP_le_length heno
        exact visit_spec hcl fuel s u hct (sub u mem_cons_self) white hfq
      · next col =>
        rw [if_neg col]
        refine ⟨Quiet.refl s, ?_⟩
        cases col0 : s.color u with
        | white => exact absurd col0 col
        | gray => exact absurd col0 (noG u)
        | black => rfl
    obtain ⟨h1, black⟩ := step
    have hla := ih (fun w hw => sub w (mem_cons_of_mem _ hw))
      (fun v gray => noG v ((h1.gray v).mp gray)) (h1.settled hk) hq
    exact ⟨hk, forall_mem_cons.mpr ⟨hla.1 _ black, hla.2⟩⟩

lemma acyclic_of_search_quiet (hcl : ∀ u, ∀ v ∈ adj u, v ∈ nodes)
    (heno : nodes.length ≤ fuel) (hq : (search adj fuel nodes).back = []) {u : α}
    (mem : u ∈ nodes) : ¬ TransGen (Edge adj) u u := by
  have hse := foldl_searchStep_settled hcl heno (fun _ h => h) (by simp) (by simp) hq
  intro cyc
  exact not_transGen_of_acc (hse.2 u mem) (transGen_swap.mpr cyc)

end Visit

def pushFresh (state : List α × List α) (next : α) : List α × List α :=
  if next ∈ state.1 then state else (next :: state.1, next :: state.2)

/-- A node is pushed once, so the number of nodes bounds the number of rounds. -/
def reachesLoop (adj : α → List α) (dst : α) : Nat → List α → List α → Bool
  | 0, _, _ => false
  | _ + 1, _, [] => false
  | fuel + 1, seen, n :: stack =>
    if dst ∈ adj n then true
    else
      let (seen, stack) := (adj n).foldl pushFresh (seen, stack)
      reachesLoop adj dst fuel seen stack

def reaches (adj : α → List α) (fuel : Nat) (src dst : α) : Bool :=
  reachesLoop adj dst fuel [src] [src]

end Gibson.Dfs
