import Mathlib.Algebra.Order.Field.Rat
import Gibson.Lib.Loops

/-! The check of an LLM call against the monthly budgets. Amounts are 64 bit integers, whose sums
wrap. A read that fails does not stop a call. -/

namespace Gibson.Platform

open List

inductive Scope where
  | user
  | team
  | tenant
  | other (name : String)

/-- The ceilings of a subject. -/
structure Budget where
  tenantID : String := ""
  scope : Scope
  subjectID : String := ""
  (monthlyTokens monthlySpendUSDCents : Int64 := 0)
  overrideDeny : Bool := false
  warningThreshold : Rat := 0

/-- The ceilings in force. -/
structure Limits where
  (monthlyTokens monthlySpendUSDCents : Int64 := 0)

/-- The use of a budget. -/
structure Status where
  scope : Scope
  subjectID : String
  (currentTokens currentSpendUSDCents : Int64)
  (tokenLimit spendLimitUSDCents : Int64 := 0)
  periodResetAt : Int
  warningCrossed : Bool := false

inductive Dimension where
  | tokens
  | spend

inductive BudgetError where
  | tokenBudgetExceededUser
  | tokenBudgetExceededTeam
  | tokenBudgetExceededTenant
  | spendCapExceededUser
  | spendCapExceededTeam
  | spendCapExceededTenant
  | budgetExceeded

/-- Which ceiling is reached. -/
structure ErrorDetail where
  scope : Scope
  dimension : Dimension
  (currentUsage limit : Int64)
  periodResetAt : Int
  subjectID : String

/-- A refusal and its detail. -/
structure ExceedError where
  detail : ErrorDetail
  inner : BudgetError

def errSentinelForScope : Scope → Dimension → BudgetError
  | .user, .tokens => .tokenBudgetExceededUser
  | .team, .tokens => .tokenBudgetExceededTeam
  | .tenant, .tokens => .tokenBudgetExceededTenant
  | .user, .spend => .spendCapExceededUser
  | .team, .spend => .spendCapExceededTeam
  | .tenant, .spend => .spendCapExceededTenant
  | .other _, _ => .budgetExceeded

def exceedsTokens (b : Option Budget) (projected : Int64) : Option BudgetError :=
  match b with
  | none => none
  | some b =>
    if b.monthlyTokens = 0 ∨ projected ≤ b.monthlyTokens then none
    else some (errSentinelForScope b.scope .tokens)

def wrapExceed (scope : Scope) (subjectID : String) (current est : Int64) (budget : Option Budget)
    (resetAt : Int) (err : BudgetError) : ExceedError where
  detail :=
    { scope
      dimension := .tokens
      currentUsage := current + est
      limit := match budget with | none => 0 | some b => b.monthlyTokens
      periodResetAt := resetAt
      subjectID }
  inner := err

def defaultWarningThreshold : Rat := 4 / 5

def crosses (limit amount : Int64) (threshold : Rat) : Bool :=
  0 < limit && threshold ≤ (amount.toInt : Rat) / (limit.toInt : Rat)

def buildStatus (scope : Scope) (subjectID : String) (tokens cost : Int64) (b : Option Budget)
    (resetAt : Int) : Status :=
  let s : Status :=
    { scope, subjectID, currentTokens := tokens, currentSpendUSDCents := cost,
      periodResetAt := resetAt }
  match b with
  | none => s
  | some b =>
    let threshold := if b.warningThreshold = 0 then defaultWarningThreshold else b.warningThreshold
    { s with
      tokenLimit := b.monthlyTokens
      spendLimitUSDCents := b.monthlySpendUSDCents
      warningCrossed := crosses b.monthlyTokens tokens threshold ||
        crosses b.monthlySpendUSDCents cost threshold }

def configKey (tenantID : String) (scope : Scope) (subjectID : String) : String :=
  match scope with
  | .tenant => "budget:tenant:" ++ tenantID ++ ":defaults"
  | .user => "budget:tenant:" ++ tenantID ++ ":user:" ++ subjectID ++ ":config"
  | .team => "budget:tenant:" ++ tenantID ++ ":team:" ++ subjectID ++ ":config"
  | .other _ => ""

def counterKey (tenantID : String) (scope : Scope) (subjectID period : String) : String :=
  match scope with
  | .tenant => "budget:tenant:" ++ tenantID ++ ":period:" ++ period
  | .user => "budget:tenant:" ++ tenantID ++ ":user:" ++ subjectID ++ ":period:" ++ period
  | .team => "budget:tenant:" ++ tenantID ++ ":team:" ++ subjectID ++ ":period:" ++ period
  | .other _ => ""

inductive ReadError where
  | failed

/-- Where budgets and use are read. -/
structure Source where
  budgets : String → Except ReadError (Option Budget)
  counters : String → Except ReadError (Int64 × Int64)
  teams : String → String → Except ReadError (List String)
  limits : String → Except ReadError Limits

/-- A call: who makes it, and the billing period of its time. -/
structure Call where
  tenantID : String
  (actingUser initiatorUser : String := "")
  period : String
  resetAt : Int

def Call.user (c : Call) : Option String :=
  if c.actingUser ≠ "" then some c.actingUser
  else if c.initiatorUser ≠ "" then some c.initiatorUser
  else none

def loadBudget (s : Source) (key : String) : Option Budget :=
  match s.budgets key with
  | .ok b => b
  | .error _ => none

def readCounter (s : Source) (key : String) : Int64 × Int64 :=
  match s.counters key with
  | .ok c => c
  | .error _ => (0, 0)

def resolveTeams (s : Source) (tenantID userID : String) : List String :=
  match s.teams tenantID userID with
  | .ok teams => teams
  | .error _ => []

/-- The budget of a tenant: the stored one, or else the default limits of its entitlements. -/
def loadTenantBudget (s : Source) (tenantID : String) : Option Budget :=
  match loadBudget s (configKey tenantID .tenant "") with
  | some b => some b
  | none =>
    match s.limits tenantID with
    | .error _ => none
    | .ok lim =>
      if lim.monthlyTokens = 0 ∧ lim.monthlySpendUSDCents = 0 then none
      else some
        { tenantID
          scope := .tenant
          monthlyTokens := lim.monthlyTokens
          monthlySpendUSDCents := lim.monthlySpendUSDCents }

def checkTeams (s : Source) (c : Call) (est : Int64) : List String → Except ExceedError Unit
  | [] => .ok ()
  | teamID :: rest =>
    let teamBudget := loadBudget s (configKey c.tenantID .team teamID)
    let tokens := (readCounter s (counterKey c.tenantID .team teamID c.period)).1
    match exceedsTokens teamBudget (tokens + est) with
    | some err => .error (wrapExceed .team teamID tokens est teamBudget c.resetAt err)
    | none => checkTeams s c est rest

/-- The check of the user's own budget. An excess passes where the budget overrides the denial. -/
def checkUser (s : Source) (c : Call) (est : Int64) (userID : String) : Except ExceedError Status :=
  let userBudget := loadBudget s (configKey c.tenantID .user userID)
  let (tokens, cost) := readCounter s (counterKey c.tenantID .user userID c.period)
  let status := buildStatus .user userID tokens cost userBudget c.resetAt
  match exceedsTokens userBudget (tokens + est) with
  | none => .ok status
  | some err =>
    if userBudget.any (·.overrideDeny) then .ok status
    else .error (wrapExceed .user userID tokens est userBudget c.resetAt err)

def check (s : Source) (c : Call) (est : Int64) : Except ExceedError Status := do
  let tenantBudget := loadTenantBudget s c.tenantID
  let (tokens, cost) := readCounter s (counterKey c.tenantID .tenant "" c.period)
  match exceedsTokens tenantBudget (tokens + est) with
  | some err => throw (wrapExceed .tenant "" tokens est tenantBudget c.resetAt err)
  | none =>
    match c.user with
    | none => return buildStatus .tenant "" tokens cost tenantBudget c.resetAt
    | some userID =>
      checkTeams s c est (resolveTeams s c.tenantID userID)
      checkUser s c est userID

/-- What the reads answer when none fails. -/
structure Books where
  budgets : String → Option Budget
  counters : String → Int64 × Int64
  teams : String → String → List String
  limits : String → Limits

def Books.source (k : Books) : Source where
  budgets key := .ok (k.budgets key)
  counters key := .ok (k.counters key)
  teams tenantID userID := .ok (k.teams tenantID userID)
  limits tenantID := .ok (k.limits tenantID)

/-- One scope that a call counts for; a limit of zero is none. -/
structure Cap where
  (tokenLimit spendLimit tokens spend : Int64)
  lenient : Bool := false

def Cap.of (b : Option Budget) (counter : Int64 × Int64) : Cap where
  tokenLimit := match b with | none => 0 | some b => b.monthlyTokens
  spendLimit := match b with | none => 0 | some b => b.monthlySpendUSDCents
  tokens := counter.1
  spend := counter.2

def Books.tenantCap (k : Books) (c : Call) : Cap :=
  let counter := k.counters (counterKey c.tenantID .tenant "" c.period)
  match k.budgets (configKey c.tenantID .tenant "") with
  | some b => Cap.of (some b) counter
  | none =>
    { tokenLimit := (k.limits c.tenantID).monthlyTokens
      spendLimit := (k.limits c.tenantID).monthlySpendUSDCents
      tokens := counter.1
      spend := counter.2 }

def Books.teamCap (k : Books) (c : Call) (teamID : String) : Cap :=
  Cap.of (k.budgets (configKey c.tenantID .team teamID))
    (k.counters (counterKey c.tenantID .team teamID c.period))

def Books.userCap (k : Books) (c : Call) (userID : String) : Cap :=
  let b := k.budgets (configKey c.tenantID .user userID)
  { Cap.of b (k.counters (counterKey c.tenantID .user userID c.period)) with
    lenient := b.any (·.overrideDeny) }

/-- The caps that a call counts for. -/
def Books.caps (k : Books) (c : Call) : List Cap :=
  k.tenantCap c ::
    match c.user with
    | none => []
    | some userID => (k.teams c.tenantID userID).map (k.teamCap c) ++ [k.userCap c userID]

def Cap.TokensWithin (cap : Cap) (est : Int64) : Prop :=
  cap.tokenLimit ≠ 0 → cap.tokens.toInt + est.toInt ≤ cap.tokenLimit.toInt

/-- The recorded spend is within the spend limit, if there is one. -/
def Cap.SpendWithin (cap : Cap) : Prop := cap.spendLimit ≠ 0 → cap.spend ≤ cap.spendLimit

/-- The check finds the projected tokens, a sum that wraps, above the limit. -/
def Cap.Refuses (cap : Cap) (est : Int64) : Prop :=
  cap.lenient = false ∧ cap.tokenLimit ≠ 0 ∧ ¬cap.tokens + est ≤ cap.tokenLimit

/-- The sum of the recorded tokens and the estimate does not pass the largest integer. -/
def Cap.Fits (cap : Cap) (est : Int64) : Prop :=
  cap.tokenLimit ≠ 0 → cap.tokens.toInt + est.toInt < 2 ^ 63

instance (cap : Cap) (est : Int64) : Decidable (cap.TokensWithin est) :=
  inferInstanceAs (Decidable (_ → _))

instance (cap : Cap) : Decidable cap.SpendWithin :=
  inferInstanceAs (Decidable (_ → _))

lemma exceedsTokens_cap (b) (ctr : Int64 × Int64) (est) :
    exceedsTokens b (ctr.1 + est) = none ↔ ¬(Cap.of b ctr).Refuses est := by
  cases b with
  | none => simp [exceedsTokens, Cap.of, Cap.Refuses]
  | some b =>
    simp only [exceedsTokens, Cap.of, Cap.Refuses]
    split
    · rename_i hwi
      rcases hwi with unset | below
      · simp [unset]
      · simp [below]
    · rename_i hab
      simpa [not_or] using hab

lemma exceedsTokens_tenantCap (k : Books) (c est) :
    exceedsTokens (loadTenantBudget k.source c.tenantID)
        ((k.counters (counterKey c.tenantID .tenant "" c.period)).1 + est) = none ↔
      ¬(k.tenantCap c).Refuses est := by
  unfold loadTenantBudget loadBudget Books.tenantCap
  simp only [Books.source]
  cases hst : k.budgets (configKey c.tenantID .tenant "") with
  | some b => exact exceedsTokens_cap (some b) _ est
  | none =>
    simp only
    split
    · rename_i unset
      simp [exceedsTokens, Cap.Refuses, unset.1]
    · exact exceedsTokens_cap (some _) _ est

lemma checkTeams_ok (k : Books) (c est tea) :
    (∃ u, checkTeams k.source c est tea = .ok u) ↔
      ∀ team ∈ tea, ¬(k.teamCap c team).Refuses est := by
  induction tea with
  | nil => simp [checkTeams]
  | cons team rs ih =>
    have h1 : _ ↔ ¬(k.teamCap c team).Refuses est :=
      exceedsTokens_cap (k.budgets (configKey c.tenantID .team team))
        (k.counters (counterKey c.tenantID .team team c.period)) est
    rw [checkTeams, forall_mem_cons, ← h1, ← ih]
    simp only [loadBudget, readCounter, Books.source]
    split
    · rename_i err hexc
      simp [hexc]
    · rename_i hps
      simp [hps]

lemma checkUser_ok (k : Books) (c est userID) :
    (∃ status, checkUser k.source c est userID = .ok status) ↔
      ¬(k.userCap c userID).Refuses est := by
  have hf := exceedsTokens_cap (k.budgets (configKey c.tenantID .user userID))
    (k.counters (counterKey c.tenantID .user userID c.period)) est
  have ref : (k.userCap c userID).Refuses est ↔
      (k.userCap c userID).lenient = false ∧ (Cap.of _ _).Refuses est :=
    ⟨fun hexc => ⟨hexc.1, rfl, hexc.2⟩, fun hexc => ⟨hexc.1, hexc.2.2⟩⟩
  rw [ref, not_and, ← hf]
  simp only [checkUser, loadBudget, readCounter, Books.source, Books.userCap]
  split
  · rename_i hps
    simp [hps]
  rename_i err hexc
  by_cases len :
      (k.budgets (configKey c.tenantID .user userID)).any (fun b => b.overrideDeny) = true
  · simp [len]
  · simp [len, hexc]

lemma check_ok (k : Books) (c est) :
    (∃ sta, check k.source c est = .ok sta) ↔ ∀ cap ∈ k.caps c, ¬cap.Refuses est := by
  have tn := exceedsTokens_tenantCap k c est
  rw [Books.caps, forall_mem_cons, ← tn]
  have ctr : readCounter k.source = k.counters := rfl
  simp only [check, ctr]
  split
  · rename_i err hexc
    simp [hexc, throw, throwThe, MonadExceptOf.throw]
  rename_i hps
  simp only [hps, true_and]
  cases user : c.user with
  | none => simp [pure, Except.pure]
  | some use =>
    simp only [forall_mem_append, forall_mem_map, forall_mem_singleton]
    rw [← checkTeams_ok, ← checkUser_ok]
    simp only [Loops.bind_ok_iff]
    exact ⟨fun ⟨sta, u, h1, h2⟩ => ⟨⟨u, h1⟩, sta, h2⟩,
      fun ⟨⟨u, h1⟩, sta, h2⟩ => ⟨sta, u, h1, h2⟩⟩

/-- Within every limit that is set, a user's excess apart whose budget overrides. -/
def Covered (k : Books) (c : Call) (est : Int64) : Prop :=
  (∃ status, check k.source c est = .ok status) →
    ∀ cap ∈ k.caps c, cap.lenient = true ∨ (cap.TokensWithin est ∧ cap.SpendWithin)

lemma tokensWithin_iff_fits {cap : Cap} (str : cap.lenient = false)
    (hps : ¬cap.Refuses est) : cap.TokensWithin est ↔ cap.Fits est := by
  refine forall_congr' fun set => ?_
  have hbe : (cap.tokens + est).toInt ≤ cap.tokenLimit.toInt := by
    by_contra above
    exact hps ⟨str, set, fun le => above (Int64.le_iff_toInt_le.mp le)⟩
  have top := cap.tokenLimit.toInt_lt
  have bot := cap.tokenLimit.le_toInt
  rw [Int64.toInt_add] at hbe
  constructor
  · intro hwi
    omega
  intro hft
  by_cases sma : cap.tokens.toInt + est.toInt < -2 ^ 63
  · omega
  · rwa [Int.bmod_eq_of_le (by omega) (by omega)] at hbe

lemma Cap.covered_iff {cap : Cap} (hps : ¬cap.Refuses est) :
    (cap.lenient = true ∨ (cap.TokensWithin est ∧ cap.SpendWithin)) ↔
      (cap.lenient = true ∨ (cap.SpendWithin ∧ cap.Fits est)) := by
  cases len : cap.lenient with
  | true => simp
  | false =>
    rw [tokensWithin_iff_fits len hps, and_comm]

theorem check_covers_iff (k : Books) (c : Call) (est : Int64) : Covered k c est ↔
      (∃ cap ∈ k.caps c, cap.Refuses est) ∨
        ∀ cap ∈ k.caps c, cap.lenient = true ∨ (cap.SpendWithin ∧ cap.Fits est) := by
  rw [Covered, check_ok]
  by_cases href : ∃ cap ∈ k.caps c, cap.Refuses est
  · obtain ⟨cap, mem, hexc⟩ := href
    exact ⟨fun _ => .inl ⟨cap, mem, hexc⟩, fun _ hps => absurd hexc (hps cap mem)⟩
  have hps : ∀ cap ∈ k.caps c, ¬cap.Refuses est := fun cap mem hexc =>
    href ⟨cap, mem, hexc⟩
  simp only [href, false_or]
  constructor
  · intro hcvd cap mem
    exact (Cap.covered_iff (hps cap mem)).mp (hcvd hps cap mem)
  · intro spe _ cap mem
    exact (Cap.covered_iff (hps cap mem)).mpr (spe cap mem)

def overspent : Books where
  budgets _ := some { scope := .tenant, monthlySpendUSDCents := 100 }
  counters _ := (0, 200)
  teams _ _ := []
  limits _ := {}

theorem check_ignores_spend : ¬Covered overspent ⟨"acme", "", "", "202601", 0⟩ 10 := by
  intro hcvd
  have hps : ∃ status, check overspent.source ⟨"acme", "", "", "202601", 0⟩ 10 = .ok status :=
    ⟨_, rfl⟩
  rcases hcvd hps _ mem_cons_self with len | ⟨-, spend⟩
  · exact absurd len (by decide)
  · exact absurd spend (by decide)

end Gibson.Platform
