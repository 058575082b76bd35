import Gibson.Saga.Steps
import Mathlib.Algebra.Ring.Int.Defs

/-! The runner of a saga: it takes the steps in order and stops at the first that is not done. How
often a step has failed is read off the time since its condition turned false. -/

namespace Gibson.Saga

inductive ConditionStatus where
  | conditionTrue
  | conditionFalse
  | conditionUnknown
  deriving DecidableEq

/-- A status condition. -/
structure Condition where
  type : String
  status : ConditionStatus
  (reason message : String)
  (observedGeneration lastTransitionTime : Int)

def setCondition : List Condition → Condition → List Condition
  | [], c => [c]
  | existing :: rest, c =>
    if existing.type = c.type then
      (if existing.status = c.status then
        { c with lastTransitionTime := existing.lastTransitionTime } else c) :: rest
    else existing :: setCondition rest c

def findCondition (conditions : List Condition) (type : String) : Option Condition :=
  conditions.find? (·.type == type)

def setConditions (conditions writes : List Condition) : List Condition :=
  writes.foldl setCondition conditions

inductive ErrorClassification where
  | transient
  | permanent
  deriving DecidableEq

/-- An error and its class. -/
structure Err where
  text : String
  classification : ErrorClassification

/-- What a step answers. -/
structure Outcome where
  done : Bool
  err : Option Err

/-- Whether the step is skipped, what Provision answers, and the readings of the clock. -/
structure Visit where
  skip : Bool
  provision : List Condition → Outcome
  (now blockedAt conditionAt readyAt backoffAt : Int)

/-- The settings of a runner. -/
structure Runner where
  (maxBackoff initialBackoff requeueInterval stepMaxAttempts : Int := 0)
  continueOnBlocked : Bool := false

def second : Int := 1000000000

def defaultStepMaxAttempts : Nat := 20

namespace Runner

variable (r : Runner)

def maxAttempts : Nat :=
  if r.stepMaxAttempts ≤ 0 then defaultStepMaxAttempts else r.stepMaxAttempts.toNat

def initial : Int := if r.initialBackoff ≤ 0 then second else r.initialBackoff

def cap : Int := if r.maxBackoff ≤ 0 then 300 * second else r.maxBackoff

def requeueAfter : Int := if 0 < r.requeueInterval then r.requeueInterval else 5 * second

def attemptsSince (since now : Int) : Nat := (max 0 (now - since) / r.initial).toNat

def attemptsForStep (now : Int) (conditions : List Condition) (type : String) : Nat :=
  match findCondition conditions type with
  | none => 0
  | some c =>
    if c.status ≠ .conditionFalse then 0 else r.attemptsSince c.lastTransitionTime now

/-- Exact, where the code multiplies floats. -/
def backoffForStep (now : Int) (conditions : List Condition) (type : String) : Int :=
  match findCondition conditions type with
  | none => r.initial
  | some c => max r.initial (min r.cap (r.initial * 2 ^ r.attemptsSince c.lastTransitionTime now))

def isFinal (now : Int) (conditions : List Condition) (type : String) (err : Err) : Bool :=
  match err.classification with
  | .permanent => true
  | .transient => r.maxAttempts ≤ r.attemptsForStep now conditions type

end Runner

inductive Report where
  | skipped
  | failed (err : Err) (blocked : Bool)
  | inProgress
  | completed

/-- What Provision's answer means. -/
def report (r : Runner) (conditions : List Condition) (step : Step) (v : Visit) : Report :=
  if v.skip then .skipped
  else
    let outcome := v.provision conditions
    match outcome.err with
    | some err => .failed err (r.isFinal v.now conditions step.condition err)
    | none => if outcome.done then .completed else .inProgress

def writes (generation : Int) (step : Step) (v : Visit) : Report → List Condition
  | .skipped =>
    [⟨step.condition, .conditionTrue, "Skipped", "Step " ++ quote step.name ++ " skipped",
      generation, v.conditionAt⟩]
  | .failed err true =>
    [⟨"Blocked", .conditionTrue, "SagaFailed",
      "Step " ++ quote step.name ++ " permanently failed: " ++ err.text, generation, v.blockedAt⟩,
     ⟨step.condition, .conditionFalse, "StepFailed", err.text, generation, v.conditionAt⟩,
     ⟨"Ready", .conditionFalse, "Blocked",
      "Step " ++ quote step.name ++ " is permanently blocked: " ++ err.text, generation, v.readyAt⟩]
  | .failed err false =>
    [⟨step.condition, .conditionFalse, "StepFailed", err.text, generation, v.conditionAt⟩,
     ⟨"Ready", .conditionFalse, "StepFailed",
      "Step " ++ quote step.name ++ " failed: " ++ err.text, generation, v.readyAt⟩]
  | .inProgress =>
    [⟨step.condition, .conditionFalse, "InProgress", "Step " ++ quote step.name ++ " in progress",
      generation, v.conditionAt⟩]
  | .completed =>
    [⟨step.condition, .conditionTrue, "Ready", "Step " ++ quote step.name ++ " complete",
      generation, v.conditionAt⟩]

/-- The result of a run. -/
structure RunResult where
  requeueAfter : Int := 0
  (blocked allComplete : Bool := false)
  err : Option Err := none

/-- A step of a run. -/
structure Entry where
  step : Step
  seen : List Condition
  report : Report
  writes : List Condition

def visitStep (r : Runner) (generation : Int) (conditions : List Condition) (step : Step)
    (v : Visit) : Entry :=
  let rep := report r conditions step v
  { step, seen := conditions, report := rep, writes := writes generation step v rep }

def stops (r : Runner) (conditions : List Condition) (step : Step) (v : Visit) :
    Report → Option RunResult
  | .skipped | .completed => none
  | .inProgress => some { requeueAfter := r.requeueAfter }
  | .failed err true => if r.continueOnBlocked then none else some { blocked := true, err := some err }
  | .failed err false =>
    some { requeueAfter := r.backoffForStep v.backoffAt conditions step.condition, err := some err }

def blockedErr (log : List Entry) : Option Err :=
  log.findSome? fun e =>
    match e.report with
    | .failed err true => some err
    | _ => none

/-- What every run is given: the object's generation, what it finds at each step, and the reading of
the clock at its end. -/
structure RunInput where
  generation : Int
  visit : Step → Visit
  readyAt : Int

def runSteps (r : Runner) (inp : RunInput) (conditions : List Condition) :
    List Step → List Entry × Option RunResult
  | [] => ([], none)
  | step :: rest =>
    let entry := visitStep r inp.generation conditions step (inp.visit step)
    let conditions := setConditions conditions entry.writes
    match stops r conditions step (inp.visit step) entry.report with
    | some result => ([entry], some result)
    | none =>
      let (log, result) := runSteps r inp conditions rest
      (entry :: log, result)

/-- A run, step by step. -/
structure RunLog where
  entries : List Entry
  last : List Condition
  result : RunResult

def run (r : Runner) (steps : List Step) (conditions : List Condition) (inp : RunInput) : RunLog :=
  match topoSort steps with
  | .error e =>
    { entries := []
      last := []
      result :=
        { blocked := true
          err := some
            ⟨"saga: cannot run unsorted steps with topology error: " ++ e.text, .transient⟩ } }
  | .ok sorted =>
    match runSteps r inp conditions sorted with
    | (entries, some result) => { entries, last := [], result }
    | (entries, none) =>
      match blockedErr entries with
      | some err => { entries, last := [], result := { blocked := true, err := some err } }
      | none =>
        { entries
          last :=
            [⟨"Ready", .conditionTrue, "AllStepsComplete", "All reconcile steps complete",
              inp.generation, inp.readyAt⟩]
          result := { allComplete := true } }

def RunLog.writes (log : RunLog) : List Condition := log.entries.flatMap (·.writes) ++ log.last

/-- The runs on one object, each from the conditions that the ones before left. -/
def runs (r : Runner) (steps : List Step) : List Condition → List RunInput → List RunLog
  | _, [] => []
  | conditions, inp :: rest =>
    let log := run r steps conditions inp
    log :: runs r steps (setConditions conditions log.writes) rest

lemma setConditions_append (conditions ws ws') :
    setConditions conditions (ws ++ ws') = setConditions (setConditions conditions ws) ws' := by
  simp [setConditions]

lemma runSteps_entry (split : (runSteps r inp cds hsr).1 = hea ++ e :: later) :
    e = visitStep r inp.generation (setConditions cds (hea.flatMap (·.writes))) e.step
      (inp.visit e.step) := by
  induction hsr generalizing cds hea with
  | nil => simp [runSteps] at split
  | cons step rs ih =>
    have h1 : ∀ tail, visitStep r inp.generation cds step (inp.visit step) :: tail =
        hea ++ e :: later →
        (hea = [] ∧ e = visitStep r inp.generation cds step (inp.visit step)) ∨
          ∃ more, hea = visitStep r inp.generation cds step (inp.visit step) :: more ∧
            tail = more ++ e :: later := by
      intro tail split
      cases hea with
      | nil => exact .inl ⟨rfl, (List.cons.inj split).1.symm⟩
      | cons x more =>
        obtain ⟨rfl, rs⟩ := List.cons.inj split
        exact .inr ⟨more, rfl, rs⟩
    unfold runSteps at split
    simp only at split
    split at split
    · rcases h1 _ split with ⟨rfl, hh⟩ | ⟨more, -, none⟩
      · rw [hh]
        rfl
      · simp at none
    · rcases h1 _ split with ⟨rfl, hh⟩ | ⟨more, rfl, rs⟩
      · rw [hh]
        rfl
      · rw [ih rs, List.flatMap_cons, setConditions_append]
        rfl

lemma run_entries (inp) (hor : topoSort steps = .ok sorted) :
    (run r steps conditions inp).entries = (runSteps r inp conditions sorted).1 := by
  unfold run
  rw [hor]
  simp only
  split
  next ens res all => rw [all]
  next ens all =>
    rw [all]
    split <;> rfl

lemma run_entry (split : (run r steps conditions inp).entries = earlier ++ e :: later) :
    e = visitStep r inp.generation (setConditions conditions (earlier.flatMap (·.writes))) e.step
      (inp.visit e.step) := by
  cases hor : topoSort steps with
  | error err => simp [run, hor] at split
  | ok hsr =>
    rw [run_entries inp hor] at split
    exact runSteps_entry split

lemma visitStep_blocked
    (htr : ∀ err, (v.provision conditions).err = some err → err.classification = .transient)
    (hfa : (visitStep r generation conditions s v).report = .failed err blocked) :
    blocked = true ↔ r.maxAttempts ≤ r.attemptsForStep v.now conditions s.condition := by
  simp only [visitStep, report] at hfa
  split at hfa
  · contradiction
  split at hfa
  next err' hf =>
    obtain ⟨rfl, rfl⟩ := Report.failed.inj hfa
    simp [Runner.isFinal, htr err' hf]
  · split at hfa <;> contradiction

end Gibson.Saga
