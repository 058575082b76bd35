import Mathlib.Algebra.Order.Ring.Int
import Mathlib.Data.List.Basic

/-! The sliding-window limiter: a sorted set in Redis with a member of its own for each admitted
event, scored by its time in nanoseconds. The script runs as one step. -/

namespace Gibson.Ratelimit

open List

/-- At most `max` in a period. `Period` and one second fit `int64`. -/
structure Window where
  (max period : Int)

/-- `ErrLimiterUnavailable`, and the two texts of `ErrRateLimited`. -/
inductive Denied where
  | unavailable
  | noBudget
  | exceeded

/-- The scores of the members. The expiry is in milliseconds. -/
structure SortedSet where
  scores : List Int := []
  expiry : Option Int := none

/-- A Check, or a Peek where nothing is consumed. -/
structure Attempt where
  now : Int
  consume : Bool

def millisecond : Int := 10 ^ 6

def second : Int := 10 ^ 9

def SortedSet.alive (s : SortedSet) (now : Int) : List Int :=
  if s.expiry.all (now / millisecond < ·) then s.scores else []

def windowScript (s : SortedSet) (now cutoff max ttl : Int) (consume : Bool) : SortedSet × Nat :=
  let rest := (s.alive now).filter (cutoff < ·)
  if max ≤ rest.length then ({ s with scores := rest }, 0)
  else if consume then ({ scores := rest ++ [now], expiry := some (now / millisecond + ttl) }, 1)
  else ({ s with scores := rest }, 1)

def eval (key : String) (w : Window) (s : SortedSet) (a : Attempt) :
    SortedSet × Except Denied Unit :=
  if key = "" then (s, .error .unavailable)
  else if w.max ≤ 0 ∨ w.period ≤ 0 then (s, .error .noBudget)
  else
    let r := windowScript s a.now (a.now - w.period) w.max ((w.period + second) / millisecond)
      a.consume
    (r.1, if r.2 ≠ 1 then .error .exceeded else .ok ())

/-- An attempt, with the times of the Checks that were admitted so far. -/
def attempt (key : String) (w : Window) (s : SortedSet × List Int) (a : Attempt) :
    SortedSet × List Int :=
  ((eval key w s.1 a).1, if a.consume && (eval key w s.1 a).2.isOk then s.2 ++ [a.now] else s.2)

def decisions (key : String) (w : Window) : SortedSet → List Attempt → List Bool
  | _, [] => []
  | s, a :: rest => (eval key w s a).2.isOk :: decisions key w (eval key w s a).1 rest

/-- The times within the last period. -/
def recent (w : Window) (now : Int) (past : List Int) : List Int :=
  past.filter (now - w.period < ·)

def within (w : Window) (start : Int) (past : List Int) : List Int :=
  past.filter fun t => start ≤ t ∧ t < start + w.period

/-- What the set says of the admitted Checks from time `t` on. -/
structure Tracks (w : Window) (s : SortedSet) (past : List Int) (t : Int) : Prop where
  set : ∀ n, t ≤ n → recent w n (s.alive n) = recent w n past
  earlier : ∀ x ∈ past, x ≤ t
  bound : ∀ start, ((within w start past).length : Int) ≤ max w.max 0

section
variable {key : String} {w : Window} {a : Attempt}

lemma recent_recent (le : n ≤ m) : recent w m (recent w n past) = recent w m past := by
  rw [recent, recent, recent, filter_filter]
  refine filter_congr fun x _ => ?_
  rw [← Bool.decide_and]
  exact decide_eq_decide.mpr ⟨And.left, fun h => ⟨h, by omega⟩⟩

lemma Tracks.later (h : Tracks w s past t) (le : t ≤ a.now) : Tracks w s past a.now :=
  ⟨fun n now => h.set n (le.trans now), fun x mem => (h.earlier x mem).trans le, h.bound⟩

/-- What has aged out is not missed. -/
lemma Tracks.evict (h : Tracks w s past a.now) :
    Tracks w { s with scores := (s.alive a.now).filter (a.now - w.period < ·) } past a.now := by
  refine ⟨fun n le => ?_, h.earlier, h.bound⟩
  have rs := h.set n le
  unfold SortedSet.alive at rs ⊢
  split at rs
  · next hli =>
    simp only [hli, if_true]
    exact (congrArg _ (h.set _ le_rfl)).trans (recent_recent le)
  · next hexp => simpa [hexp] using rs

lemma within_admit_le (h : Tracks w s past a.now)
    (room : ((recent w a.now past).length : Int) < w.max) (s0 : Int) :
    ((within w s0 (past ++ [a.now])).length : Int) ≤ max w.max 0 := by
  have old := h.bound s0
  unfold within at old ⊢
  by_cases hi : s0 ≤ a.now ∧ a.now < s0 + w.period
  · -- what the interval holds besides is within the last period at the time of the Check
    have few : (past.filter fun x => s0 ≤ x ∧ x < s0 + w.period).length ≤
        (recent w a.now past).length := by
      refine (monotone_filter_right past fun x mem => ?_).length_le
      simp only [decide_eq_true_eq] at mem ⊢
      omega
    simp only [filter_append, length_append, filter_singleton, hi, and_self, decide_true,
      cond_true, length_singleton]
    omega
  · simpa [filter_append, hi] using old

lemma Tracks.admit (h : Tracks w s past a.now)
    (room : ((recent w a.now past).length : Int) < w.max) :
    Tracks w ⟨(s.alive a.now).filter (a.now - w.period < ·) ++ [a.now],
      some (a.now / millisecond + (w.period + second) / millisecond)⟩ (past ++ [a.now]) a.now := by
  have hea : ∀ x ∈ past ++ [a.now], x ≤ a.now := by
    simpa [or_imp, forall_and] using h.earlier
  refine ⟨fun n le => ?_, hea, within_admit_le h room⟩
  rw [show (s.alive a.now).filter _ = _ from h.set a.now le_rfl]
  unfold SortedSet.alive
  split
  · have old : recent w n (recent w a.now past) = recent w n past := recent_recent le
    unfold recent at old ⊢
    rw [filter_append, filter_append, old]
  · next hexp =>
    -- the set outlives everything in it
    have hlt : ¬ n / 1000000 < a.now / 1000000 + (w.period + 1000000000) / 1000000 :=
      fun soon => hexp (decide_eq_true soon)
    refine (filter_eq_nil_iff.mpr fun x mem => ?_).symm
    have := hea x mem
    simp only [decide_eq_true_eq]
    omega

variable (named : key ≠ "") (period : 0 < w.period)
include named period

/-- An attempt succeeds where the last period has room, and only then a Check is recorded. -/
lemma Tracks.eval (h : Tracks w s past t) (le : t ≤ a.now) :
    (eval key w s a).2.isOk = decide (((recent w a.now past).length : Int) < w.max) ∧
      Tracks w (attempt key w (s, past) a).1 (attempt key w (s, past) a).2 a.now := by
  have h := h.later le
  have ct : ((s.alive a.now).filter (a.now - w.period < ·)).length =
      (recent w a.now past).length := congrArg length (h.set _ le_rfl)
  simp only [attempt, Ratelimit.eval, windowScript, ct, if_neg named]
  split
  · next hcl =>
    have hfu : ¬ ((recent w a.now past).length : Int) < w.max := by omega
    simpa [Except.isOk, Except.toBool, hfu] using h
  split
  · next hfu => simpa [Except.isOk, Except.toBool, not_lt.mpr hfu] using h.evict
  next room =>
    have room := not_le.mp room
    cases a.consume with
    | false => simpa [Except.isOk, Except.toBool, room] using h.evict
    | true => simpa [Except.isOk, Except.toBool, room] using h.admit room

lemma Tracks.run {cs rs : List Attempt} (h : Tracks w s pa t)
    (hor : (t :: (cs ++ rs).map Attempt.now).Pairwise (· ≤ ·)) :
    ∃ t', Tracks w (cs.foldl (attempt key w) (s, pa)).1
        (cs.foldl (attempt key w) (s, pa)).2 t' ∧
      (t' :: rs.map Attempt.now).Pairwise (· ≤ ·) := by
  induction cs generalizing s pa t with
  | nil => exact ⟨t, h, hor⟩
  | cons a cs ih =>
    rw [cons_append, map_cons, pairwise_cons] at hor
    exact ih (h.eval named period (hor.1 _ mem_cons_self)).2 hor.2

/-- Later decisions depend on the set through the admitted Checks only. -/
lemma Tracks.decisions_eq {s' hla} (h : Tracks w s pa t)
    (h' : Tracks w s' pa t) (hor : (t :: hla.map Attempt.now).Pairwise (· ≤ ·)) :
    decisions key w s hla = decisions key w s' hla := by
  induction hla generalizing s s' pa t with
  | nil => rfl
  | cons a hla ih =>
    rw [map_cons, pairwise_cons] at hor
    obtain ⟨ok, ha⟩ := h.eval named period (hor.1 _ mem_cons_self)
    obtain ⟨ok', aft'⟩ := h'.eval named period (hor.1 _ mem_cons_self)
    have hs :=
      ok.trans ok'.symm
    rw [decisions, decisions, hs]
    simp only [attempt, ← hs] at ha aft'
    exact congrArg _ (ih ha aft' hor.2)

end

/-- Every period holds at most `Max` admitted Checks; a refused attempt finds that many in the last
period; and a Peek or a refused Check changes no later decision. -/
theorem sliding_window (key : String) (named : key ≠ "") (w : Window) (period : 0 < w.period)
    (earlier : List Attempt) (a : Attempt) (later : List Attempt)
    (ordered : (earlier ++ a :: later).Pairwise (·.now ≤ ·.now)) :
    let before := earlier.foldl (attempt key w) ({}, [])
    let after := (a :: later).foldl (attempt key w) before
    let answer := eval key w before.1 a
    (∀ start, ((within w start after.2).length : Int) ≤ max w.max 0) ∧
      (answer.2.isOk = false → w.max ≤ (recent w a.now before.2).length) ∧
      (a.consume = false ∨ answer.2.isOk = false →
        decisions key w answer.1 later = decisions key w before.1 later) := by
  obtain ⟨t, start⟩ : ∃ t, (t :: (earlier ++ a :: later).map Attempt.now).Pairwise (· ≤ ·) := by
    have times := pairwise_map.mpr ordered
    generalize (earlier ++ a :: later).map Attempt.now = all at times
    cases all with
    | nil => exact ⟨0, pairwise_singleton _ _⟩
    | cons c rest =>
      exact ⟨c, pairwise_cons.mpr ⟨by simpa using (pairwise_cons.mp times).1, times⟩⟩
  have empty : Tracks w {} [] t := by constructor <;> simp [SortedSet.alive, recent, within]
  obtain ⟨t', tracks, order⟩ := empty.run named period start
  have le := (pairwise_cons.mp order).1 a.now (by simp)
  obtain ⟨decision, step⟩ := tracks.eval named period le
  refine ⟨fun start => ?_, fun refused => ?_, fun free => ?_⟩
  · rw [← append_nil (a :: later)] at order
    obtain ⟨_, done, -⟩ := tracks.run named period order
    exact done.bound start
  · rw [decision] at refused
    exact not_lt.mp (of_decide_eq_false refused)
  · have spent : (a.consume && (eval key w (earlier.foldl (attempt key w) ({}, [])).1 a).2.isOk) =
        false := by
      rcases free with peek | refused
      · rw [peek, Bool.false_and]
      · exact (congrArg _ refused).trans (Bool.and_false _)
    simp only [attempt, spent, Bool.false_eq_true, if_false] at step
    exact step.decisions_eq named period (tracks.later le) (pairwise_cons.mp order).2

theorem sliding_window_full :
    let w : Window := ⟨1, 5⟩
    w.max ≤ (recent w 3 ([⟨0, true⟩].foldl (attempt "login" w) ({}, [])).2).length :=
  (sliding_window "login" (by decide) ⟨1, 5⟩ (by decide) [⟨0, true⟩] ⟨3, true⟩ []
    (by simp)).2.1 (by decide)

end Gibson.Ratelimit
