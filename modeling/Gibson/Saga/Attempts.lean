import Gibson.Saga.Runner
import Gibson.Lib.Prefix

/-! When a step's transient errors block the saga. Attempts are counted by the time since the
condition of the step turned false. -/

namespace Gibson.Saga

open List

def falseSince (conditions : List Condition) (type : String) : Option Int :=
  (findCondition conditions type).bind fun c =>
    if c.status = .conditionFalse then some c.lastTransitionTime else none

/-- The same, after one more report on a condition: the first of an unbroken series of false ones
counts. -/
def sinceReport (type : String) (since : Option Int) (w : Condition) : Option Int :=
  if w.type = type then
    if w.status = .conditionFalse then some (since.getD w.lastTransitionTime) else none
  else since

lemma falseSince_cons_self (hh : c.type = type) (rest) :
    falseSince (c :: rest) type =
      if c.status = .conditionFalse then some c.lastTransitionTime else none := by
  simp [falseSince, findCondition, hh]

lemma falseSince_cons_ne (ho : c.type ≠ type)
    (rest) : falseSince (c :: rest) type = falseSince rest type := by
  simp [falseSince, findCondition, ho]

lemma falseSince_setCondition (conditions c type) :
    falseSince (setCondition conditions c) type =
      sinceReport type (falseSince conditions type) c := by
  induction conditions with
  | nil =>
    by_cases hh : c.type = type
    · rw [setCondition, falseSince_cons_self hh, sinceReport, if_pos hh]
      rfl
    · rw [setCondition, falseSince_cons_ne hh, sinceReport, if_neg hh]
  | cons hxs rs ih =>
    unfold setCondition
    by_cases hs : hxs.type = c.type
    · rw [if_pos hs]
      by_cases hh : c.type = type
      · rw [sinceReport, if_pos hh, falseSince_cons_self (hs.trans hh)]
        by_cases sta : hxs.status = c.status
        · -- The condition keeps its status, and with it the time of its last transition.
          rw [if_pos sta, falseSince_cons_self (by exact hh), sta]
          split <;> rfl
        · rw [if_neg sta, falseSince_cons_self hh]
          split
          · next down =>
            rw [down] at sta
            rw [if_neg sta]
            rfl
          · rfl
      · rw [sinceReport, if_neg hh, falseSince_cons_ne fun h => hh (hs.symm.trans h)]
        split <;> exact falseSince_cons_ne (by exact hh) rs
    · rw [if_neg hs]
      by_cases hh : hxs.type = type
      · have ho : c.type ≠ type := fun h => hs (hh.trans h.symm)
        rw [falseSince_cons_self hh, falseSince_cons_self hh, sinceReport, if_neg ho]
      · rw [falseSince_cons_ne hh, falseSince_cons_ne hh, ih]

lemma falseSince_setConditions (conditions ws type) :
    falseSince (setConditions conditions ws) type =
      ws.foldl (sinceReport type) (falseSince conditions type) := by
  induction ws generalizing conditions with
  | nil => rfl
  | cons w ws ih =>
    simp only [setConditions, foldl_cons] at ih ⊢
    rw [ih, falseSince_setCondition]

lemma Runner.initial_pos (r : Runner) : 0 < r.initial := by
  unfold initial
  split
  · decide
  · omega

lemma Runner.attempts_usedUp (r : Runner) (now : Int) (conditions type) :
    r.maxAttempts ≤ r.attemptsForStep now conditions type ↔
      ∃ since, falseSince conditions type = some since ∧
        r.maxAttempts * r.initial ≤ now - since := by
  have att : 0 < r.maxAttempts := by
    unfold maxAttempts
    split
    · decide
    · omega
  unfold attemptsForStep falseSince
  cases findCondition conditions type with
  | none => simp; omega
  | some c =>
    by_cases down : c.status = .conditionFalse
    · simp only [down, ne_eq, not_true_eq_false, if_false, Option.bind_some, if_true,
        Option.some.injEq, exists_eq_left', attemptsSince]
      have pd : 0 < r.maxAttempts * r.initial :=
        Int.mul_pos (by omega) r.initial_pos
      rw [Int.le_toNat (Int.ediv_nonneg (by omega) (Int.le_of_lt r.initial_pos)),
        Int.le_ediv_iff_mul_le r.initial_pos]
      omega
    · simp [down]
      omega

section
variable (r : Runner) (steps : List Step) (conditions : List Condition)

def conditionsAfter (inputs : List RunInput) : List Condition :=
  setConditions conditions ((runs r steps conditions inputs).flatMap (·.writes))

def Entry.Erred (e : Entry) (s : Step) : Prop :=
  e.step = s ∧ ∃ err blocked, e.report = .failed err blocked

def ErredRuns (n : Nat) (s : Step) (logs : List RunLog) : Prop :=
  ∃ before window after, logs = before ++ window ++ after ∧ window.length = n ∧
    ∀ log ∈ window, ∃ e ∈ log.entries, e.Erred s

def RunLog.Blocks (log : RunLog) (s : Step) : Prop :=
  ∃ e ∈ log.entries, e.step = s ∧ ∃ err, e.report = .failed err true

/-- A blocked step has returned an error in as many consecutive runs as it has attempts. -/
def NoEarlyBlock (s : Step) (inputs : List RunInput) : Prop :=
  ∀ before inp after, inputs = before ++ inp :: after →
    (run r steps (conditionsAfter r steps conditions before) inp).Blocks s →
    ErredRuns r.maxAttempts s (runs r steps conditions (before ++ [inp]))

/-- The step fails with transient errors only. -/
def OnlyTransient (s : Step) (inputs : List RunInput) : Prop :=
  ∀ inp ∈ inputs, ∀ conditions err, ((inp.visit s).provision conditions).err = some err →
    err.classification = .transient

/-- Whenever the step returns an error too early, less than that number of initial backoffs has
passed since the first of the unbroken series of false reports. -/
def RetriedInTime (s : Step) (inputs : List RunInput) : Prop :=
  ∀ before inp after, inputs = before ++ inp :: after →
    ¬ErredRuns r.maxAttempts s (runs r steps conditions (before ++ [inp])) →
    ∀ earlier e later,
      (run r steps (conditionsAfter r steps conditions before) inp).entries = earlier ++ e :: later →
      e.Erred s → ∀ since,
        ((runs r steps conditions before).flatMap (·.writes) ++ earlier.flatMap (·.writes)).foldl
          (sinceReport s.condition) (falseSince conditions s.condition) = some since →
        (inp.visit s).now - since < r.maxAttempts * r.initial

end

section
variable {r : Runner} {steps : List Step} {conditions : List Condition}

lemma run_blocks_iff (r : Runner) (steps conditions)
    (htr : ∀ conditions err, ((inp.visit s).provision conditions).err = some err →
      err.classification = .transient) :
    (run r steps conditions inp).Blocks s ↔
      ∃ hea e hla, (run r steps conditions inp).entries = hea ++ e :: hla ∧ e.Erred s ∧
        ∃ since, falseSince (setConditions conditions (hea.flatMap (·.writes))) s.condition =
          some since ∧ r.maxAttempts * r.initial ≤ (inp.visit s).now - since := by
  -- an entry of the step with an error blocks if the attempts were used up when it was made
  have hblk {hea hla} {e : Entry}
      (split : (run r steps conditions inp).entries = hea ++ e :: hla) (hh : e.step = s)
      {err : Err} {hblk : Bool} (hfa : e.report = .failed err hblk) :
      hblk = true ↔ ∃ since,
        falseSince (setConditions conditions (hea.flatMap (·.writes))) s.condition =
          some since ∧ r.maxAttempts * r.initial ≤ (inp.visit s).now - since := by
    subst hh
    rw [run_entry split] at hfa
    rw [visitStep_blocked (htr _) hfa, r.attempts_usedUp]
  constructor
  · rintro ⟨e, mem, hh, err, hfa⟩
    obtain ⟨hea, hla, split⟩ := append_of_mem mem
    exact ⟨hea, e, hla, split, ⟨hh, err, true, hfa⟩, (hblk split hh hfa).mp rfl⟩
  · rintro ⟨hea, e, hla, split, ⟨hh, err, flag, hfa⟩, hlt⟩
    obtain rfl : flag = true := (hblk split hh hfa).mpr hlt
    exact ⟨e, by simp [split], hh, err, hfa⟩

/-- For a step with transient errors only, the saga is not blocked early exactly if the step is
retried in time. -/
theorem noEarlyBlock_iff (r : Runner) (steps : List Step) (conditions : List Condition) (s : Step)
    (inputs : List RunInput) (transient : OnlyTransient s inputs) :
    NoEarlyBlock r steps conditions s inputs ↔ RetriedInTime r steps conditions s inputs := by
  have blo {hb ha} {inp}
      (split : inputs = hb ++ inp :: ha) :=
    run_blocks_iff r steps (conditionsAfter r steps conditions hb)
      (transient inp (by simp [split]))
  have history (hb : List RunInput) (hea : List Entry) :
      falseSince (setConditions (conditionsAfter r steps conditions hb)
        (hea.flatMap (·.writes))) s.condition =
        ((runs r steps conditions hb).flatMap (·.writes) ++ hea.flatMap (·.writes)).foldl
          (sinceReport s.condition) (falseSince conditions s.condition) := by
    rw [conditionsAfter, ← setConditions_append, falseSince_setConditions]
  constructor
  · intro hsf hb inp ha split few hea e hla ens err sin down
    by_contra hlt
    refine few (hsf hb inp ha split ((blo split).mpr ?_))
    exact ⟨hea, e, hla, ens, err, sin, (history hb hea).trans down, by omega⟩
  · intro htim hb inp ha split hblk
    by_contra few
    obtain ⟨hea, e, hla, ens, err, sin, down, hlt⟩ := (blo split).mp hblk
    have soon := htim hb inp ha split few hea e hla ens err sin
      ((history hb hea).symm.trans down)
    omega

end

def Visit.answering (outcome : Outcome) (time : Int) : Visit where
  skip := false
  provision _ := outcome
  now := time
  blockedAt := time
  conditionAt := time
  readyAt := time
  backoffAt := time

def RunInput.answering (outcome : Outcome) (time : Int) : RunInput where
  generation := 1
  visit _ := .answering outcome time
  readyAt := time

def unreachable : Outcome := ⟨false, some ⟨"unreachable", .transient⟩⟩

def provisionStore : Step := { name := "ProvisionStore", condition := "StoreReady" }

def failedTwice : List RunInput :=
  [.answering unreachable 0, .answering unreachable second]

theorem noEarlyBlock_failedTwice : OnlyTransient provisionStore failedTwice ∧
      NoEarlyBlock {} [provisionStore] [] provisionStore failedTwice := by
  have htr : OnlyTransient provisionStore failedTwice := by
    intro inp mem conditions err hf
    simp only [failedTwice, mem_cons, not_mem_nil, or_false] at mem
    rcases mem with rfl | rfl
    all_goals
      cases hf
      rfl
  refine ⟨htr, (noEarlyBlock_iff _ _ _ _ _ htr).mpr ?_⟩
  -- each run has one entry, so nothing comes before it
  have h1 {hea hla} {e : Entry} (sz : 1 = (hea ++ e :: hla).length) :
      hea = [] := by
    rw [length_append, length_cons] at sz
    exact eq_nil_of_length_eq_zero (by omega)
  refine Prefix.forall_split ⟨?_, ?_, trivial⟩
  · intro few hea e hla ens err0 sin down
    obtain rfl := h1 (congrArg List.length ens)
    have nev := down
    contradiction
  · intro few hea e hla ens err0 sin down
    obtain rfl := h1 (congrArg List.length ens)
    obtain rfl : 0 = sin := Option.some.inj down
    decide

def failedLate : List RunInput :=
  [.answering ⟨false, none⟩ 0, .answering unreachable (20 * second)]

theorem noEarlyBlock_failedLate : OnlyTransient provisionStore failedLate ∧
      ¬NoEarlyBlock {} [provisionStore] [] provisionStore failedLate := by
  refine ⟨?_, fun hsf => ?_⟩
  · intro inp mem conditions err hf
    simp only [failedLate, mem_cons, not_mem_nil, or_false] at mem
    rcases mem with rfl | rfl
    · contradiction
    · cases hf
      rfl
  · obtain ⟨hb, win, ha, logs, sz, -⟩ :=
      hsf [.answering ⟨false, none⟩ 0] (.answering unreachable (20 * second)) [] rfl
        ⟨_, mem_singleton.mpr rfl, rfl, ⟨"unreachable", .transient⟩, rfl⟩
    have len := congrArg List.length logs
    have two : (runs {} [provisionStore] [] ([.answering ⟨false, none⟩ 0] ++
        [.answering unreachable (20 * second)])).length = 2 := rfl
    have twe : Runner.maxAttempts {} = 20 := rfl
    simp only [length_append] at len
    omega

end Gibson.Saga
