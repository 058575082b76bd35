import Gibson.Saga.Runner

/-! The teardown of a tenant: the saga's steps behind three wrappers. One writes an audit record
before a step runs, one takes a permanent failure for done. -/

namespace Gibson.Saga

open List

/-- The audit error, what Provision answers, and its error if the failure is not recorded. -/
structure TeardownVisit where
  skip : Bool
  record : Option Err
  provision : List Condition → Outcome
  failureRecord : Option Err
  (now blockedAt conditionAt readyAt backoffAt : Int)

def stepSettled (conditions : List Condition) (generation : Int) (step : Step) : Bool :=
  (findCondition conditions step.condition).any fun c =>
    c.observedGeneration == generation && (c.status == .conditionTrue || c.reason == "InProgress")

def auditedProvision (generation : Int) (step : Step) (v : TeardownVisit)
    (conditions : List Condition) : Outcome :=
  if stepSettled conditions generation step then v.provision conditions
  else match v.record with
    | some err => ⟨false, some err⟩
    | none =>
      let outcome := v.provision conditions
      { outcome with err := outcome.err.map v.failureRecord.getD }

def bestEffort (outcome : Outcome) : Outcome :=
  match outcome.err with
  | none => outcome
  | some err => if err.classification ≠ .permanent then outcome else ⟨true, none⟩

def TeardownVisit.wrapped (v : TeardownVisit) (generation : Int) (step : Step) : Visit where
  skip := v.skip
  provision conditions := bestEffort (auditedProvision generation step v conditions)
  now := v.now
  blockedAt := v.blockedAt
  conditionAt := v.conditionAt
  readyAt := v.readyAt
  backoffAt := v.backoffAt

/-- The operator's runner, which has an audit emitter or not. -/
structure Operator where
  runner : Runner
  audit : Bool

/-- What a reconcile finds. -/
structure TeardownInput where
  generation : Int
  retry : Bool
  retryErr : Option Err
  visit : Step → TeardownVisit
  readyAt : Int
  saved : Bool

def TeardownInput.runInput (inp : TeardownInput) : RunInput where
  generation := inp.generation
  visit step := (inp.visit step).wrapped inp.generation step
  readyAt := inp.readyAt

/-- The outcome of a reconcile. -/
structure TeardownOutcome where
  requeueAfter : Int := 0
  err : Option Err := none
  (allComplete blocked : Bool := false)

def errNoAudit : Err :=
  ⟨"saga: the runner has no audit emitter; no step runs without an audit record", .transient⟩

def clearBlocked (conditions : List Condition) : List Condition :=
  conditions.filter fun c =>
    !(c.type == "Blocked" && c.status == .conditionTrue && c.reason == "SagaFailed")

def teardownOutcome (result : RunResult) : TeardownOutcome :=
  if result.blocked then { blocked := true, err := result.err }
  else if result.err.isSome then { requeueAfter := result.requeueAfter, err := result.err }
  else if 0 < result.requeueAfter then { requeueAfter := result.requeueAfter }
  else { allComplete := true }

/-- A reconcile: its conditions before and after, what it did and its outcome. -/
structure Teardown where
  start : List Condition
  entries : List Entry
  outcome : TeardownOutcome
  conditions : List Condition

def runForDeletion (op : Operator) (steps : List Step) (conditions : List Condition)
    (inp : TeardownInput) : Teardown :=
  if !op.audit then ⟨conditions, [], { err := some errNoAudit }, conditions⟩
  else if inp.retry && inp.retryErr.isSome then
    ⟨conditions, [], { err := inp.retryErr }, conditions⟩
  else
    let start := if inp.retry then clearBlocked conditions else conditions
    let log := run { op.runner with continueOnBlocked := false } steps start inp.runInput
    { start
      entries := log.entries
      outcome := teardownOutcome log.result
      conditions := if inp.saved then setConditions start log.writes else start }

def teardowns (op : Operator) (steps : List Step) (conditions : List Condition)
    (inputs : List TeardownInput) : List Condition :=
  inputs.foldl (fun conditions inp => (runForDeletion op steps conditions inp).conditions) conditions

section
variable (op : Operator) (steps : List Step) (conditions : List Condition)

def teardownAfter (before : List TeardownInput) (inp : TeardownInput) : Teardown :=
  runForDeletion op steps (teardowns op steps conditions before) inp

/-- The step's own Provision is called at an entry: the step is not skipped and has its record. -/
def Entry.Calls (e : Entry) (inp : TeardownInput) (s : Step) : Prop :=
  e.step = s ∧ e.report ≠ .skipped ∧
    (stepSettled e.seen inp.generation s = true ∨ (inp.visit s).record = none)

def Tried (s : Step) (inputs : List TeardownInput) : Prop :=
  ∃ before inp after, inputs = before ++ inp :: after ∧
    ∃ e ∈ (teardownAfter op steps conditions before inp).entries, e.Calls inp s

def isConditionTrue (conditions : List Condition) (type : String) : Bool :=
  (findCondition conditions type).any (·.status == .conditionTrue)

/-- The step is skipped, or it was completed before the saga ran, or it has been tried. -/
def Settled (before : List TeardownInput) (inp : TeardownInput) (s : Step) : Prop :=
  (inp.visit s).skip = true ∨
    isConditionTrue (teardownAfter op steps conditions before inp).start s.condition = true ∨
    Tried op steps conditions s (before ++ [inp])

end

section
variable {inp : TeardownInput}

end

def operator : Operator := { runner := {}, audit := true }

/-- A reconcile at one time, in which a step answers as it is given and the audit records are
written. -/
def TeardownInput.answering (outcome : Step → Outcome) (time : Int) : TeardownInput where
  generation := 1
  retry := false
  retryErr := none
  visit step :=
    { skip := false
      record := none
      provision := fun _ => outcome step
      failureRecord := none
      now := time
      blockedAt := time
      conditionAt := time
      readyAt := time
      backoffAt := time }
  readyAt := time
  saved := true

end Gibson.Saga
