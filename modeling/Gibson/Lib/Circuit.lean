import Mathlib.Data.Int.Basic
import Mathlib.Data.List.Basic

/-! A circuit breaker. Times are nanoseconds. -/

namespace Gibson.Circuit

inductive State where
  | closed
  | halfOpen
  | opened
  deriving DecidableEq

/-- The counts of a generation. -/
structure Counts where
  (requests totalSuccesses totalFailures consecutiveSuccesses consecutiveFailures : Nat)

def Counts.clear : Counts := ⟨0, 0, 0, 0, 0⟩

def Counts.onRequest (c : Counts) : Counts := { c with requests := c.requests + 1 }

def Counts.onSuccess (c : Counts) : Counts :=
  { c with
    totalSuccesses := c.totalSuccesses + 1
    consecutiveSuccesses := c.consecutiveSuccesses + 1
    consecutiveFailures := 0 }

def Counts.onFailure (c : Counts) : Counts :=
  { c with
    totalFailures := c.totalFailures + 1
    consecutiveFailures := c.consecutiveFailures + 1
    consecutiveSuccesses := 0 }

/-- An interval of zero never ends. The breaker trips when so many requests in a row failed. -/
structure Settings where
  (maxRequests interval timeout threshold : Nat)

/-- A circuit breaker. -/
structure Breaker where
  state : State
  generation : Nat
  counts : Counts
  /-- Absent is the zero time. -/
  expiry : Option Int

inductive Rejection where
  | openState
  | tooManyRequests

variable (cfg : Settings)

def Breaker.toNewGeneration (b : Breaker) (now : Int) : Breaker :=
  { b with
    generation := b.generation + 1
    counts := .clear
    expiry :=
      match b.state with
      | .closed => if cfg.interval = 0 then none else some (now + cfg.interval)
      | .opened => some (now + cfg.timeout)
      | .halfOpen => none }

def Breaker.setState (b : Breaker) (state : State) (now : Int) : Breaker :=
  if b.state = state then b else { b with state }.toNewGeneration cfg now

def Breaker.expired (b : Breaker) (now : Int) : Bool :=
  match b.expiry with
  | some expiry => expiry < now
  | none => false

def Breaker.currentState (b : Breaker) (now : Int) : Breaker :=
  match b.state with
  | .closed => if b.expired now then b.toNewGeneration cfg now else b
  | .opened => if b.expired now then b.setState cfg .halfOpen now else b
  | .halfOpen => b

def Breaker.beforeRequest (b : Breaker) (now : Int) : Breaker × Option Rejection :=
  let b := b.currentState cfg now
  if b.state = .opened then (b, some .openState)
  else if b.state = .halfOpen ∧ cfg.maxRequests ≤ b.counts.requests then (b, some .tooManyRequests)
  else ({ b with counts := b.counts.onRequest }, none)

def Breaker.onSuccess (b : Breaker) (now : Int) : Breaker :=
  let counted := { b with counts := b.counts.onSuccess }
  match b.state with
  | .closed => counted
  | .halfOpen =>
    if cfg.maxRequests ≤ counted.counts.consecutiveSuccesses then counted.setState cfg .closed now
    else counted
  | .opened => b

def Breaker.onFailure (b : Breaker) (now : Int) : Breaker :=
  match b.state with
  | .closed =>
    let counted := { b with counts := b.counts.onFailure }
    if cfg.threshold ≤ counted.counts.consecutiveFailures then counted.setState cfg .opened now
    else counted
  | .halfOpen => b.setState cfg .opened now
  | .opened => b

def Breaker.afterRequest (b : Breaker) (before : Nat) (failed : Bool) (now : Int) : Breaker :=
  let b := b.currentState cfg now
  if b.generation ≠ before then b
  else if failed then b.onFailure cfg now
  else b.onSuccess cfg now

def Breaker.execute (b : Breaker) (start finish : Int) (failed : Bool) :
    Breaker × Option Rejection :=
  match b.beforeRequest cfg start with
  | (b, some rejection) => (b, some rejection)
  | (b, none) => (b.afterRequest cfg b.generation failed finish, none)

def newBreaker (now : Int) : Breaker :=
  Breaker.toNewGeneration cfg ⟨.closed, 0, .clear, none⟩ now

@[simp] lemma state_toNewGeneration (b : Breaker) (now : Int) :
    (b.toNewGeneration cfg now).state = b.state := rfl

@[simp] lemma counts_toNewGeneration (b : Breaker) (now : Int) :
    (b.toNewGeneration cfg now).counts = .clear := rfl

variable {b : Breaker}

/-- Looking at the time leaves a closed breaker closed and adds no failure. -/
lemma currentState_closed (hcl : b.state = .closed) (now : Int) :
    (b.currentState cfg now).state = .closed ∧
      (b.currentState cfg now).counts.consecutiveFailures ≤ b.counts.consecutiveFailures := by
  rw [Breaker.currentState, hcl]
  by_cases hlt : b.expired now
  · simp [hlt, hcl, Counts.clear]
  · simp [hlt, hcl]

/-- A closed breaker admits the request, and opens when the failures reach the threshold. -/
lemma execute_closed (hcl : b.state = .closed) (s0 finish : Int) (hfa : Bool) :
    (b.execute cfg s0 finish hfa).2 = none ∧
      ((hfa = true → b.counts.consecutiveFailures + 1 < cfg.threshold) →
        (b.execute cfg s0 finish hfa).1.state = .closed ∧
        (b.execute cfg s0 finish hfa).1.counts.consecutiveFailures ≤
          if hfa then b.counts.consecutiveFailures + 1 else 0) := by
  obtain ⟨hsl, few⟩ := currentState_closed cfg hcl s0
  have had : b.beforeRequest cfg s0 =
      ({ b.currentState cfg s0 with counts := (b.currentState cfg s0).counts.onRequest },
        none) := by
    simp [Breaker.beforeRequest, hsl]
  rw [Breaker.execute, had]
  refine ⟨rfl, fun hbe => ?_⟩
  generalize hak : ({ b.currentState cfg s0 with
    counts := (b.currentState cfg s0).counts.onRequest } : Breaker) = a
  have clo : a.state = .closed := by rw [← hak]; exact hsl
  have fewA : a.counts.consecutiveFailures ≤ b.counts.consecutiveFailures := by
    rwa [← hak]
  have hlt := currentState_closed cfg clo finish
  simp only [Breaker.afterRequest]
  by_cases hs : (a.currentState cfg finish).generation = a.generation
  · simp only [hs, ne_eq, not_true_eq_false, if_false]
    cases hfa with
    | false => simp [Breaker.onSuccess, hlt.1, Counts.onSuccess]
    | true =>
      have hbd := hbe rfl
      have low : ¬cfg.threshold ≤ (a.currentState cfg finish).counts.consecutiveFailures + 1 := by
        omega
      simp only [Breaker.onFailure, hlt.1, Counts.onFailure, low, if_true, if_false, true_and]
      omega
  · -- the interval ended during the request, which then counts for nothing
    have hfr : (a.currentState cfg finish).counts = .clear := by
      revert hs
      rw [Breaker.currentState, clo]
      by_cases hexp : a.expired finish <;> simp [hexp]
    simp [hs, hlt.1, hfr, Counts.clear]

def Breaker.Held (b : Breaker) (now : Int) : Prop := b.expired now = false

open Breaker

lemma held_toNewGeneration (b : Breaker) (now : Int) : (b.toNewGeneration cfg now).Held now := by
  unfold Breaker.Held expired toNewGeneration
  cases b.state with
  | closed =>
    by_cases nev : cfg.interval = 0
    · simp [nev]
    · simp only [nev, if_false, decide_eq_false_iff_not]
      omega
  | opened =>
    simp only [decide_eq_false_iff_not]
    omega
  | halfOpen => rfl

variable {now : Int}

lemma currentState_held (hhe : b.Held now) (hfu : b.state ≠ .halfOpen) :
    b.currentState cfg now = b := by
  unfold Breaker.Held at hhe
  cases st : b.state with
  | closed | opened => simp [currentState, st, hhe]
  | halfOpen => contradiction

/-- An open breaker refuses. -/
lemma execute_opened (hhe : b.Held now) (hop : b.state = .opened) (hfa : Bool) :
    b.execute cfg now now hfa = (b, some .openState) := by
  have hs := currentState_held cfg hhe (by simp [hop])
  simp [execute, beforeRequest, hs, hop]

/-- A closed breaker counts a failure and opens at the threshold. -/
lemma execute_held (hhe : b.Held now) (hcl : b.state = .closed) (hfa : Bool) :
    let nx := (b.execute cfg now now hfa).1
    nx.Held now ∧
      (if hfa ∧ cfg.threshold ≤ b.counts.consecutiveFailures + 1 then nx.state = .opened
      else nx.state = .closed ∧ nx.counts.consecutiveFailures =
        if hfa then b.counts.consecutiveFailures + 1 else 0) := by
  have hs := currentState_held cfg hhe (by simp [hcl])
  have had : b.beforeRequest cfg now = ({ b with counts := b.counts.onRequest }, none) := by
    simp [beforeRequest, hs, hcl]
  have hag : currentState cfg { b with counts := b.counts.onRequest } now =
      { b with counts := b.counts.onRequest } :=
    currentState_held cfg hhe (by simp [hcl])
  simp only [execute, had, afterRequest, hag, ne_eq, not_true_eq_false,
    if_false]
  cases hfa with
  | false =>
    simp only [onSuccess, hcl, Bool.false_eq_true, if_false, false_and]
    exact ⟨hhe, trivial, rfl⟩
  | true =>
    by_cases tri : cfg.threshold ≤ b.counts.consecutiveFailures + 1
    · have hrc : cfg.threshold ≤ b.counts.onRequest.onFailure.consecutiveFailures := tri
      simp only [onFailure, hcl, hrc, tri, if_true, and_self, setState,
        reduceCtorEq, if_false]
      exact ⟨held_toNewGeneration cfg _ now, rfl⟩
    · have und : ¬cfg.threshold ≤ b.counts.onRequest.onFailure.consecutiveFailures := tri
      simp only [onFailure, hcl, und, tri, if_true, if_false, and_false]
      exact ⟨hhe, trivial, rfl⟩

def streak : List Bool → Nat
  | true :: past => streak past + 1
  | _ => 0

/-- At no time had as many requests in a row failed as the threshold says. -/
def Steady (threshold : Nat) : List Bool → Prop
  | [] => True
  | failed :: past => streak (failed :: past) < threshold ∧ Steady threshold past

instance decidableSteady (threshold : Nat) : (past : List Bool) → Decidable (Steady threshold past)
  | [] => isTrue trivial
  | failed :: past =>
    have := decidableSteady threshold past
    inferInstanceAs (Decidable (streak (failed :: past) < threshold ∧ Steady threshold past))

end Gibson.Circuit
