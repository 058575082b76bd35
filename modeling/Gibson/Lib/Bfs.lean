import Mathlib.Data.List.Nodup
import Mathlib.Data.List.Perm.Subperm

/-! Breadth-first search with a test that decides which depths are expanded. -/

namespace Gibson.Bfs

open List Function

variable {α : Type*} [DecidableEq α]

/-- The vertices seen so far in the order of discovery, their depths, and those still to visit. -/
structure Search (α : Type*) where
  seen : List α
  depth : α → Nat
  queue : List α

def start (source : α) : Search α := ⟨[source], fun _ => 0, [source]⟩

def discover (d : Nat) (s : Search α) (v : α) : Search α :=
  if v ∈ s.seen then s
  else { seen := s.seen ++ [v], depth := update s.depth v d, queue := s.queue ++ [v] }

def visit (next : α → List α) (expand : Nat → Bool) (v : α) (s : Search α) : Search α :=
  if expand (s.depth v) then (next v).foldl (discover (s.depth v + 1)) s else s

def run (next : α → List α) (expand : Nat → Bool) : Nat → Search α → Search α
  | 0, s => s
  | k + 1, s =>
    match s.queue with
    | [] => s
    | v :: rest => run next expand k (visit next expand v { s with queue := rest })

inductive Walk (next : α → List α) (source : α) : Nat → α → Prop
  | refl : Walk next source 0 source
  | step {n : Nat} {v w : α} : Walk next source n v → w ∈ next v → Walk next source (n + 1) w

/-- One round finds new nodes. -/
structure Grows (d : Nat) (ws : List α) (s s' : Search α) (fresh : List α) : Prop where
  seen : s'.seen = s.seen ++ fresh
  queue : s'.queue = s.queue ++ fresh
  nodup : fresh.Nodup
  new : ∀ u ∈ fresh, u ∉ s.seen ∧ u ∈ ws ∧ s'.depth u = d
  depth : ∀ u ∉ fresh, s'.depth u = s.depth u
  scanned : ∀ w ∈ ws, w ∈ s'.seen

lemma foldl_discover (d : Nat) (ws : List α) (s : Search α) :
    ∃ hfr, Grows d ws s (ws.foldl (discover d) s) hfr := by
  induction ws generalizing s with
  | nil => exact ⟨[], by simp, by simp, .nil, by simp, fun _ _ => rfl, by simp⟩
  | cons w rs ih =>
    rw [foldl_cons, discover]
    split
    · rename_i hk
      obtain ⟨hfr, hg⟩ := ih s
      refine ⟨hfr, hg.seen, hg.queue, hg.nodup, fun u mem => ?_, hg.depth, ?_⟩
      · obtain ⟨huns, hl, dep⟩ := hg.new u mem
        exact ⟨huns, mem_cons_of_mem w hl, dep⟩
      rintro v (_ | ⟨_, hla⟩)
      · rw [hg.seen]
        exact mem_append_left _ hk
      · exact hg.scanned v hla
    · rename_i hukn
      obtain ⟨hfr, hg⟩ := ih ⟨s.seen ++ [w], update s.depth w d, s.queue ++ [w]⟩
      have hpt : w ∉ hfr := fun mem => (hg.new w mem).1 (by simp)
      refine ⟨w :: hfr, by rw [hg.seen]; simp, by rw [hg.queue]; simp,
        nodup_cons.mpr ⟨hpt, hg.nodup⟩, ?_, fun u out => ?_, ?_⟩
      · rintro u (_ | ⟨_, hla⟩)
        · rw [hg.depth w hpt]
          exact ⟨hukn, mem_cons_self, update_self ..⟩
        · obtain ⟨huns, hl, dep⟩ := hg.new u hla
          exact ⟨fun mem => huns (mem_append_left _ mem), mem_cons_of_mem w hl, dep⟩
      · rw [mem_cons, not_or] at out
        rw [hg.depth u out.2]
        exact update_of_ne out.1 ..
      · rintro v (_ | ⟨_, hla⟩)
        · rw [hg.seen]
          simp
        · exact hg.scanned v hla

/-- What holds between two visits. The queue is in the order of depths, and no depth is more than
one beyond a queued one. -/
structure Inv (next : α → List α) (expand : Nat → Bool) (source : α) (s : Search α) : Prop where
  origin : source ∈ s.seen ∧ s.depth source = 0
  walks : ∀ v ∈ s.seen, Walk next source (s.depth v) v ∧ ∀ m < s.depth v, expand m = true
  nodup : s.seen.Nodup
  queued : ∀ v ∈ s.queue, v ∈ s.seen
  sorted : s.queue.Pairwise fun a b => s.depth a ≤ s.depth b
  near : ∀ v ∈ s.queue, ∀ u ∈ s.seen, s.depth u ≤ s.depth v + 1
  closed : ∀ v ∈ s.seen, v ∉ s.queue → expand (s.depth v) = true →
    ∀ w ∈ next v, w ∈ s.seen ∧ s.depth w ≤ s.depth v + 1

section Step
variable {α : Type*} {next : α → List α} {expand : Nat → Bool} {source : α} {s : Search α}

lemma inv_start (next : α → List α) (expand : Nat → Bool) (source : α) :
    Inv next expand source (start source) where
  origin := ⟨mem_singleton_self source, rfl⟩
  walks v mem := by
    obtain rfl := mem_singleton.mp mem
    exact ⟨.refl, fun m less => absurd less (Nat.not_lt_zero m)⟩
  nodup := nodup_singleton source
  queued _ mem := mem
  sorted := pairwise_singleton _ _
  near _ _ _ _ := Nat.zero_le _
  closed v mem out := absurd mem out

section
variable (inv : Inv next expand source s)
include inv

lemma Inv.skip (hd : s.queue = v :: rest)
    (shut : expand (s.depth v) = false) : Inv next expand source { s with queue := rest } := by
  have sub {u} (mem : u ∈ rest) : u ∈ s.queue := hd ▸ mem_cons_of_mem v mem
  refine { inv with
    queued := fun u mem => inv.queued u (sub mem)
    sorted := ?_
    near := fun u mem => inv.near u (sub mem)
    closed := fun u mem out hop => ?_ }
  · have hor := inv.sorted
    rw [hd] at hor
    exact hor.of_cons
  · refine inv.closed u mem (fun queued => ?_) hop
    rw [hd] at queued
    rcases mem_cons.mp queued with rfl | later
    · exact absurd hop (by simp [shut])
    · exact out later

lemma Inv.grow (hd : s.queue = v :: rest) (hop : expand (s.depth v) = true)
    (hg : Grows (s.depth v + 1) (next v) { s with queue := rest } s' fresh) :
    Inv next expand source s' := by
  have h1 : v ∈ s.seen := inv.queued v (by simp [hd])
  have hsn {u} : u ∈ s'.seen ↔ u ∈ s.seen ∨ u ∈ fresh := by
    rw [hg.seen]
    exact mem_append
  have queue {u} : u ∈ s'.queue ↔ u ∈ rest ∨ u ∈ fresh := by
    rw [hg.queue]
    exact mem_append
  have hs {u} (mem : u ∈ s.seen) : s'.depth u = s.depth u :=
    hg.depth u fun new => (hg.new u new).1 mem
  have hor := inv.sorted
  rw [hd, pairwise_cons] at hor
  have hk {u} (mem : u ∈ rest) : u ∈ s.seen :=
    inv.queued u (by rw [hd]; exact mem_cons_of_mem v mem)
  -- Everything seen is at most one deeper than the visited vertex.
  have upp {u} (mem : u ∈ s'.seen) : s'.depth u ≤ s.depth v + 1 := by
    rcases hsn.mp mem with old | new
    · rw [hs old]
      exact inv.near v (by simp [hd]) u old
    · exact Nat.le_of_eq (hg.new u new).2.2
  -- What is queued is at least as deep.
  have low {u} (mem : u ∈ s'.queue) : s.depth v ≤ s'.depth u := by
    rcases queue.mp mem with old | new
    · rw [hs (hk old)]
      exact hor.1 u old
    · rw [(hg.new u new).2.2]
      exact Nat.le_succ _
  constructor
  case origin => exact ⟨hsn.mpr (.inl inv.origin.1), (hs inv.origin.1).trans inv.origin.2⟩
  case walks =>
    intro u mem
    rcases hsn.mp mem with old | new
    · rw [hs old]
      exact inv.walks u old
    obtain ⟨-, hl, deep⟩ := hg.new u new
    rw [deep]
    refine ⟨(inv.walks v h1).1.step hl, fun m less => ?_⟩
    rcases Nat.lt_succ_iff_lt_or_eq.mp less with hbe | rfl
    · exact (inv.walks v h1).2 m hbe
    · exact hop
  case nodup =>
    rw [hg.seen]
    exact inv.nodup.append hg.nodup fun u old new => (hg.new u new).1 old
  case queued =>
    intro u mem
    rcases queue.mp mem with old | new
    · exact hsn.mpr (.inl (hk old))
    · exact hsn.mpr (.inr new)
  case sorted =>
    rw [hg.queue, pairwise_append]
    refine ⟨?_, ?_, fun a old b new => ?_⟩
    · refine hor.2.imp_of_mem fun memA memB le => ?_
      rwa [hs (hk memA), hs (hk memB)]
    · refine pairwise_of_forall_mem_list fun a memA b memB => ?_
      exact Nat.le_of_eq ((hg.new a memA).2.2.trans (hg.new b memB).2.2.symm)
    · rw [(hg.new b new).2.2]
      exact upp (hsn.mpr (.inl (hk old)))
  case near =>
    intro u mem w ht
    exact Nat.le_trans (upp ht) (Nat.add_le_add_right (low mem) 1)
  case closed =>
    intro u mem out deep w hl
    rw [queue, not_or] at out
    have old : u ∈ s.seen := (hsn.mp mem).resolve_right out.2
    rw [hs old] at deep ⊢
    by_cases hvis : u = v
    · subst hvis
      exact ⟨hg.scanned w hl, upp (hg.scanned w hl)⟩
    have hgn : u ∉ s.queue := by
      rw [hd]
      exact fun queued => (mem_cons.mp queued).elim hvis out.1
    obtain ⟨ht, le⟩ := inv.closed u old hgn deep w hl
    rw [hs ht]
    exact ⟨hsn.mpr (.inl ht), le⟩

lemma Inv.complete (hdn : s.queue = [])
    (walk : Walk next source n v) (hal : ∀ m < n, expand m = true) :
    v ∈ s.seen ∧ s.depth v ≤ n := by
  induction walk with
  | refl => exact ⟨inv.origin.1, Nat.le_of_eq inv.origin.2⟩
  | @step n u w _ hl ih =>
    obtain ⟨ht, le⟩ := ih fun m less => hal m (Nat.lt_succ_of_lt less)
    have hop := hal (s.depth u) (Nat.lt_succ_of_le le)
    obtain ⟨hsn, deep⟩ := inv.closed u ht (by simp [hdn]) hop w hl
    exact ⟨hsn, Nat.le_trans deep (Nat.succ_le_succ le)⟩

end
end Step

section Run
variable {next : α → List α} {expand : Nat → Bool} {source : α} {s : Search α}

lemma visit_cases (inv : Inv next expand source s) (hd : s.queue = v :: rs) : ∃ hfr,
    Inv next expand source (visit next expand v { s with queue := rs }) ∧
      (visit next expand v { s with queue := rs }).queue = rs ++ hfr ∧
      (visit next expand v { s with queue := rs }).seen = s.seen ++ hfr ∧
      hfr.Nodup ∧ ∀ u ∈ hfr, u ∉ s.seen ∧ u ∈ next v := by
  rw [visit]
  cases deep : expand (s.depth v) with
  | true =>
    obtain ⟨hfr, hg⟩ := foldl_discover (s.depth v + 1) (next v) { s with queue := rs }
    exact ⟨hfr, inv.grow hd deep hg, hg.queue, hg.seen, hg.nodup,
      fun u mem => ⟨(hg.new u mem).1, (hg.new u mem).2.1⟩⟩
  | false =>
    exact ⟨[], inv.skip hd deep, (append_nil _).symm, (append_nil _).symm, .nil, by simp⟩

/-- Rounds to go: the queued vertices and those of `all` that are not seen. -/
def rounds (all : List α) (s : Search α) : Nat :=
  s.queue.length + (all.filter fun v => v ∉ s.seen).length

lemma rounds_fresh (all : List α) {hsn hfr : List α} (hnd : hfr.Nodup)
    (new : ∀ u ∈ hfr, u ∈ all ∧ u ∉ hsn) :
    hfr.length + (all.filter fun v => v ∉ hsn ++ hfr).length ≤
      (all.filter fun v => v ∉ hsn).length := by
  have split := length_eq_length_filter_add (l := all.filter fun v => v ∉ hsn)
    fun v => decide (v ∈ hfr)
  have sub : hfr ⊆ (all.filter fun v => v ∉ hsn).filter fun v => decide (v ∈ hfr) := by
    intro u mem
    simp [new u mem, mem]
  have ct := (hnd.subperm sub).length_le
  have rs : (all.filter fun v => v ∉ hsn ++ hfr) =
      (all.filter fun v => v ∉ hsn).filter fun v => !decide (v ∈ hfr) := by
    rw [filter_filter]
    refine filter_congr fun u _ => ?_
    simp [Bool.and_comm]
  rw [rs]
  omega

variable {all : List α}

lemma run_spec (hwi : ∀ v, ∀ w ∈ next v, w ∈ all) (k : Nat) (inv : Inv next expand source s)
    (heno : rounds all s ≤ k) :
    Inv next expand source (run next expand k s) ∧ (run next expand k s).queue = [] := by
  induction k generalizing s with
  | zero =>
    have none : s.queue = [] := length_eq_zero_iff.mp (by unfold rounds at heno; omega)
    exact ⟨inv, none⟩
  | succ k ih =>
    rw [run]
    cases hd : s.queue with
    | nil => exact ⟨inv, hd⟩
    | cons v rs =>
      obtain ⟨hfr, inv', qu, hsn, hnd, new⟩ := visit_cases inv hd
      refine ih inv' ?_
      have lea := rounds_fresh all hnd fun u mem =>
        ⟨hwi v u (new u mem).2, (new u mem).1⟩
      simp only [rounds, hd, qu, hsn, length_cons, length_append] at heno ⊢
      omega

lemma search_spec (expand : Nat → Bool) (hwi : ∀ v, ∀ w ∈ next v, w ∈ all)
    (hh : source ∈ all) (heno : all.length ≤ k) :
    Inv next expand source (run next expand k (start source)) ∧
      (run next expand k (start source)).queue = [] := by
  have less : (all.filter fun v => v ∉ [source]).length < all.length :=
    length_filter_lt_length_iff_exists.mpr ⟨source, hh, by simp⟩
  have ct : rounds all (start source) = 1 + (all.filter fun v => v ∉ [source]).length := rfl
  exact run_spec hwi k (inv_start next expand source) (by omega)

lemma mem_search_iff (hwi : ∀ v, ∀ w ∈ next v, w ∈ all) (hh : source ∈ all)
    (heno : all.length ≤ k) :
    v ∈ (run next expand k (start source)).seen ↔
      ∃ n, Walk next source n v ∧ ∀ m < n, expand m = true := by
  obtain ⟨inv, hdn⟩ := search_spec expand hwi hh heno
  constructor
  · exact fun hsn => ⟨_, inv.walks v hsn⟩
  · exact fun ⟨n, walk, hal⟩ => (inv.complete hdn walk hal).1

end Run
end Gibson.Bfs
