import Mathlib.Data.List.Dedup
import Mathlib.Data.List.Induction
import Mathlib.Data.List.Perm.Subperm

/-! The emission counts of tasks. A new task pushes the one tracked longest out of a full pool. -/

namespace Gibson.Emitbounds

open List

def maxObservationsPerTask : Nat := 1000

def maxTrackedTasks : Nat := 4096

/-- The error for `LimitObservationsPerTask`. -/
structure LimitError where
  (observed max : Nat)

/-- The tracked tasks in the order of `order`, each with its count in `counters`: a task enters and
leaves the two together. -/
abbrev TaskCounter := List (String × Nat)

/-- A refusal leaves the count as it is. -/
def Counter.admitOne (n : Nat) : Nat × Except LimitError Unit :=
  if maxObservationsPerTask ≤ n then (n, .error ⟨n + 1, maxObservationsPerTask⟩)
  else (n + 1, .ok ())

/-- A new task goes to the end, and the front is evicted while the order is too long. -/
def track (t : TaskCounter) (taskID : String) : TaskCounter :=
  if taskID ∈ t.map Prod.fst then t
  else (t ++ [(taskID, 0)]).drop (t.length + 1 - maxTrackedTasks)

/-- The pool's `Admit`. -/
def admitTask (t : TaskCounter) (taskID : String) : TaskCounter × Except LimitError Unit :=
  ((track t taskID).map fun e => if e.1 = taskID then (e.1, (Counter.admitOne e.2).1) else e,
    (Counter.admitOne (((track t taskID).lookup taskID).getD 0)).2)

def forget (t : TaskCounter) (taskID : String) : TaskCounter := t.eraseP (·.1 == taskID)

inductive Call where
  | admits (taskID : String)
  | forget (taskID : String)
  deriving DecidableEq

/-- The pool, and the tasks whose observations were admitted. -/
def step (s : TaskCounter × List String) : Call → TaskCounter × List String
  | .admits taskID =>
    let (t, result) := admitTask s.1 taskID
    (t, if result.isOk then taskID :: s.2 else s.2)
  | .forget taskID => (forget s.1 taskID, s.2)

def run (calls : List Call) : TaskCounter × List String := calls.foldl step ([], [])

def tracked (calls : List Call) : List String := (run calls).1.map Prod.fst

/-- The call `Admit(u)` drops `t`. -/
def Drops (calls : List Call) (u t : String) : Prop :=
  t ∈ tracked calls ∧ t ∉ tracked (calls ++ [.admits u])

def Call.admitted? : Call → Option String
  | .admits taskID => some taskID
  | .forget _ => none

/-- The other tasks admitted after the last `Admit` of `t`. -/
def othersSince (calls : List Call) (t : String) : List String :=
  ((calls.reverse.takeWhile (· ≠ .admits t)).filterMap Call.admitted?).dedup

/-- Wherever a new task meets a full pool, the task tracked longest is the one whose last `Admit`
lies furthest back. -/
def DropsOldest (calls : List Call) : Prop :=
  ∀ before u t rest, before ++ [.admits u] <+: calls → u ∉ tracked before →
    tracked before = t :: rest → maxTrackedTasks ≤ (t :: rest).length →
    ∀ v ∈ rest, v ∈ othersSince before t

/-- A task is dropped only after `maxTrackedTasks` other tasks since its last `Admit`. -/
def DropsLate (calls : List Call) : Prop :=
  ∀ before u t, before ++ [.admits u] <+: calls → Drops before u t →
    maxTrackedTasks ≤ (othersSince (before ++ [.admits u]) t).length

/-- Between any two of its `Admit` calls there are fewer other tasks than that. -/
def Active (calls : List Call) (t : String) : Prop :=
  .forget t ∉ calls ∧ ∀ before, before ++ [.admits t] <+: calls → .admits t ∈ before →
    (othersSince before t).length < maxTrackedTasks

variable {t : TaskCounter} {calls : List Call} {id u : String}

lemma run_concat (call) : run (calls ++ [call]) = step (run calls) call := by simp [run]

lemma mem_track {e} (mem : e ∈ track t u) : e ∈ t ∨ (e = (u, 0) ∧ u ∉ t.map Prod.fst) := by
  unfold track at mem
  split at mem
  · exact .inl mem
  next new =>
  rcases mem_append.mp (mem_of_mem_drop mem) with old | last
  · exact .inl old
  · exact .inr ⟨mem_singleton.mp last, new⟩

lemma tracked_admits (calls u) : tracked (calls ++ [.admits u]) =
    if u ∈ tracked calls then tracked calls
    else (tracked calls ++ [u]).drop ((tracked calls).length + 1 - maxTrackedTasks) := by
  have keys (e : String × Nat) :
      (if e.1 = u then (e.1, (Counter.admitOne e.2).1) else e).1 = e.1 := by
    split <;> rfl
  simp only [tracked, run_concat, step, admitTask, track, map_map, Function.comp_def, keys]
  split <;> simp [*]

lemma tracked_spec (calls) : (tracked calls).Nodup ∧ (tracked calls).length ≤ maxTrackedTasks := by
  induction calls using reverseRecOn with
  | nil => exact ⟨.nil, Nat.zero_le _⟩
  | append_singleton calls cl ih =>
    cases cl with
    | admits u =>
      rw [tracked_admits]
      split
      next old => exact ih
      next new =>
        have hnd := nodup_append'.mpr ⟨ih.1, nodup_singleton u, by simpa using new⟩
        refine ⟨hnd.sublist (drop_sublist ..), ?_⟩
        rw [length_drop, length_append, length_singleton]
        omega
    | forget u =>
      have kp : tracked (calls ++ [.forget u]) <+ tracked calls := by
        rw [tracked, run_concat]
        exact eraseP_sublist.map _
      exact ⟨ih.1.sublist kp, Nat.le_trans kp.length_le ih.2⟩

lemma mem_tracked_admits (calls u) : u ∈ tracked (calls ++ [.admits u]) := by
  rw [tracked_admits]
  split
  · assumption
  · rw [drop_append_of_le_length (by unfold maxTrackedTasks; omega)]
    exact mem_append_right _ (mem_singleton_self u)

lemma drops_spec (dro : Drops calls u id) : u ≠ id ∧ u ∉ tracked calls ∧
    ∃ rs, tracked calls = id :: rs ∧ maxTrackedTasks ≤ (id :: rs).length := by
  obtain ⟨hb, ha⟩ := dro
  rw [tracked_admits] at ha
  split at ha
  · exact absurd hb ha
  next new =>
  refine ⟨fun hs => new (hs ▸ hb), new, ?_⟩
  have hbd := (tracked_spec calls).2
  cases pool : tracked calls with
  | nil => simp [pool] at hb
  | cons t rs =>
    rw [pool] at hb ha hbd
    obtain room | full := Nat.lt_or_eq_of_le hbd
    · rw [Nat.sub_eq_zero_of_le room, drop_zero] at ha
      exact absurd (mem_append_left _ hb) ha
    · rw [full, Nat.add_sub_cancel_left] at ha
      obtain rfl | later := mem_cons.mp hb
      · exact ⟨rs, rfl, Nat.le_of_eq full.symm⟩
      · exact absurd (mem_append_left _ later) ha

lemma mem_othersSince_admits (ne : u ≠ id) (v) :
    v ∈ othersSince (calls ++ [.admits u]) id ↔ v = u ∨ v ∈ othersSince calls id := by
  simp [othersSince, ne, Call.admitted?]

lemma dropsLate_of_dropsOldest (old : DropsOldest calls) : DropsLate calls := by
  intro hb u t part dro
  obtain ⟨ne, new, rs, pool, hfu⟩ := drops_spec dro
  have hnd := (tracked_spec hb).1
  rw [pool] at hnd
  have hun : (u :: rs).Nodup :=
    nodup_cons.mpr ⟨fun mem => new (pool ▸ mem_cons_of_mem t mem), hnd.of_cons⟩
  have os : u :: rs ⊆ othersSince (hb ++ [.admits u]) t := by
    refine cons_subset.mpr ⟨(mem_othersSince_admits ne u).mpr (.inl rfl), fun v mem => ?_⟩
    exact (mem_othersSince_admits ne v).mpr (.inr (old hb u t rs part new pool hfu v mem))
  exact Nat.le_trans hfu (hun.subperm os).length_le

/-- What `n` admitted observations of `id` leave in the pool. -/
structure Counted (calls : List Call) (id : String) (n : Nat) : Prop where
  limit : n ≤ maxObservationsPerTask
  count : ∀ k, (id, k) ∈ (run calls).1 → k = n
  fresh : .admits id ∉ calls → n = 0
  late : id ∉ tracked calls → .admits id ∈ calls → maxTrackedTasks ≤ (othersSince calls id).length

lemma counted_admits (hct : Counted calls id ((run calls).2.count id))
    (hag : .admits id ∈ calls → (othersSince calls id).length < maxTrackedTasks) :
    Counted (calls ++ [.admits id]) id ((run (calls ++ [.admits id])).2.count id) := by
  -- an active task is still in the pool, or new
  have ens : ∀ k, (id, k) ∈ track (run calls).1 id → k = (run calls).2.count id := by
    intro k mem
    obtain old | ⟨hfr, new⟩ := mem_track mem
    · exact hct.count k old
    · have zero := hct.fresh fun mem =>
        absurd (hag mem) (Nat.not_lt.mpr (hct.late new mem))
      grind
  have mem := mem_tracked_admits calls id
  have hf : ((track (run calls).1 id).lookup id).getD 0 = (run calls).2.count id := by
    cases hf : (track (run calls).1 id).lookup id with
    | some k =>
      obtain ⟨_, _, split, -⟩ := lookup_eq_some_iff.mp hf
      exact ens k (by simp [split])
    | none =>
      simp [tracked, run_concat, step, admitTask] at mem
      grind
  have log : (run (calls ++ [.admits id])).2.count id =
      (Counter.admitOne ((run calls).2.count id)).1 := by
    simp only [run_concat, step, admitTask, hf, Counter.admitOne]
    split <;> simp [Except.isOk, Except.toBool]
  have lim := hct.limit
  rw [log]
  refine ⟨?_, fun k mem => ?_, by simp, fun hab => absurd mem hab⟩
  · unfold Counter.admitOne
    split <;> simp <;> omega
  · simp only [run_concat, step, admitTask, mem_map] at mem
    obtain ⟨⟨id', j⟩, mem, hs⟩ := mem
    grind

lemma counted_run (hlt : DropsLate calls) (active : Active calls id) :
    Counted calls id ((run calls).2.count id) := by
  induction calls using reverseRecOn with
  | nil => exact ⟨Nat.zero_le _, nofun, fun _ => rfl, nofun⟩
  | append_singleton calls cl ih =>
    have part {hb} (h : hb <+: calls) : hb <+: calls ++ [cl] :=
      h.trans (prefix_append _ _)
    have old := ih (fun hb u t h => hlt hb u t (part h))
      ⟨fun mem => active.1 (mem_append_left _ mem), fun hb h => active.2 hb (part h)⟩
    cases cl with
    | forget u =>
      have ne : id ≠ u := fun hs => active.1 (by simp [hs])
      have hs : id ∈ tracked (calls ++ [.forget u]) ↔ id ∈ tracked calls := by
        simp [tracked, run_concat, step, forget, mem_eraseP_of_neg, ne]
      have log : (run (calls ++ [.forget u])).2 = (run calls).2 := by rw [run_concat, step]
      rw [log]
      refine ⟨old.limit, fun k mem => old.count k ?_, by simpa using old.fresh, ?_⟩
      · rw [run_concat] at mem
        exact mem_of_mem_eraseP mem
      · rw [hs]
        simpa [othersSince, filterMap_cons, Call.admitted?] using old.late
    | admits u =>
      obtain rfl | ne := eq_or_ne u id
      · exact counted_admits old (active.2 calls prefix_rfl)
      have log : (run (calls ++ [.admits u])).2.count id = (run calls).2.count id := by
        simp only [run_concat, step]
        split <;> simp [ne]
      rw [log]
      refine ⟨old.limit, fun k mem => old.count k ?_, fun new => old.fresh (by grind),
        fun hgn mem => ?_⟩
      · simp only [run_concat, step, admitTask, mem_map] at mem
        obtain ⟨e, mem, hs⟩ := mem
        have from_track := mem_track mem
        grind
      by_cases hb : id ∈ tracked calls
      · exact hlt calls u id prefix_rfl ⟨hb, hgn⟩
      · have more : othersSince calls id ⊆ othersSince (calls ++ [.admits u]) id :=
          fun v mem => (mem_othersSince_admits ne v).mpr (.inr mem)
        exact Nat.le_trans (old.late hb (by grind))
          (subperm_of_subset (nodup_dedup _) more).length_le

/-- Where the task tracked longest is the least recently admitted one, tasks are dropped late, and
an active task is never admitted beyond its limit. -/
theorem active_task_counted (calls : List Call) (oldest : DropsOldest calls) : DropsLate calls ∧
    ∀ t, Active calls t → (run calls).2.count t ≤ maxObservationsPerTask := by
  have hlt := dropsLate_of_dropsOldest oldest
  exact ⟨hlt, fun t active => (counted_run hlt active).limit⟩

lemma tracked_of_admits {ids : List String} (hnd : ids.Nodup)
    (room : ids.length ≤ maxTrackedTasks) : tracked (ids.map .admits) = ids := by
  induction ids using reverseRecOn with
  | nil => rfl
  | append_singleton ids id ih =>
    rw [length_append, length_singleton] at room
    have hfr : id ∉ ids := fun mem => disjoint_of_nodup_append hnd mem (mem_singleton_self _)
    have hb := ih (hnd.sublist (sublist_append_left _ _)) (Nat.le_of_succ_le room)
    rw [map_append, map_singleton, tracked_admits, hb, if_neg hfr, Nat.sub_eq_zero_of_le room,
      drop_zero]

lemma exists_full_pool : ∃ t rest u, (t :: rest : List String).Nodup ∧
    (t :: rest).length = maxTrackedTasks ∧ u ∉ t :: rest := by
  let name (n : Nat) : String := String.ofList (replicate n 'a')
  have inj {m n} (hs : name m = name n) : m = n := by
    simpa [name] using congrArg String.length hs
  obtain ⟨t, rest, ids⟩ : ∃ t rest, (range maxTrackedTasks).map name = t :: rest := by
    rw [maxTrackedTasks, range_succ_eq_map]
    exact ⟨_, _, rfl⟩
  refine ⟨t, rest, name maxTrackedTasks, ?_⟩
  rw [← ids]
  refine ⟨nodup_range.map fun _ _ => inj, by simp, ?_⟩
  simp only [mem_map, mem_range]
  grind

lemma dropsOldest_filled {t : String} (hnd : (t :: rest).Nodup)
    (hfu : (t :: rest).length = maxTrackedTasks) :
    DropsOldest ((t :: rest).map .admits ++ [.admits u]) := by
  intro hb u' t' res' part new pool long v mem
  have hsho : hb.length ≤ ((t :: rest).map Call.admits).length := by
    simpa using part.length_le
  have hi := prefix_of_prefix_length_le ((prefix_append _ _).trans part) (prefix_append _ _)
    hsho
  rw [prefix_iff_eq_take, ← map_take] at hi
  have room : ((t :: rest).take hb.length).length ≤ maxTrackedTasks := by
    rw [← hfu]
    exact length_take_le' _ _
  rw [hi, tracked_of_admits (hnd.sublist (take_sublist _ _)) room] at pool
  -- only the whole list fills the pool
  rw [← pool, length_take, hfu, Nat.le_min] at long
  rw [take_of_length_le (hfu ▸ long.1)] at pool hi
  obtain ⟨rfl, rfl⟩ := cons.inj pool
  have hpt : ∀ x ∈ (rest.map Call.admits).reverse, decide (x ≠ .admits t) = true := by
    have := (nodup_cons.mp hnd).1
    simp only [mem_reverse, mem_map]
    grind
  rw [hi, othersSince, mem_dedup, map_cons, reverse_cons, takeWhile_append_of_pos hpt]
  simpa [Call.admitted?] using mem

lemma drops_filled {t : String} (hnd : (t :: rest).Nodup)
    (hfu : (t :: rest).length = maxTrackedTasks) (hfr : u ∉ t :: rest)
    (pool : tracked calls = t :: rest) : Drops calls u t := by
  refine ⟨pool ▸ mem_cons_self, ?_⟩
  rw [tracked_admits, pool, if_neg hfr, hfu, Nat.add_sub_cancel_left]
  grind

/-- The pool is filled, and one more task drops the first. -/
theorem active_task_counted_filled : ∃ calls u t, DropsOldest (calls ++ [.admits u]) ∧
    Drops calls u t ∧ DropsLate (calls ++ [.admits u]) ∧
      ∀ v, Active (calls ++ [.admits u]) v →
        (run (calls ++ [.admits u])).2.count v ≤ maxObservationsPerTask := by
  obtain ⟨t, rs, u, hnd, hfu, hfr⟩ := exists_full_pool
  have old := dropsOldest_filled (u := u) hnd hfu
  exact ⟨_, u, t, old, drops_filled hnd hfu hfr (tracked_of_admits hnd (Nat.le_of_eq hfu)),
    active_task_counted _ old⟩

/-- A task that emitted again just before is dropped for one other task. -/
theorem active_task_dropped : ∃ calls u t, Drops calls u t ∧
    (othersSince (calls ++ [.admits u]) t).length = 1 := by
  obtain ⟨t, rs, u, hnd, hfu, hfr⟩ := exists_full_pool
  have hag : tracked ((t :: rs).map .admits ++ [.admits t]) = t :: rs := by
    rw [tracked_admits, tracked_of_admits hnd (Nat.le_of_eq hfu), if_pos mem_cons_self]
  refine ⟨_, u, t, drops_filled hnd hfu hfr hag, ?_⟩
  have ne : u ≠ t := fun hs => hfr (hs ▸ mem_cons_self)
  simp [othersSince, ne, Call.admitted?]

end Gibson.Emitbounds
