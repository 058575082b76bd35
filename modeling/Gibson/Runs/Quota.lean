import Gibson.Lib.Interleaving
import Gibson.Lib.Prefix
import Mathlib.Data.List.Basic

/-! The quota of concurrent missions of one tenant, on any number of replicas. Every command is a
step of its own. -/

namespace Gibson.Runs.Quota

open Interleaving Option

/-- How far a run request has got. -/
inductive Stage where
  /-- not checked yet -/
  | requested
  | refused
  /-- the check is passed, the mission has not started -/
  | admitted
  /-- the counter is incremented -/
  | running
  /-- the mission is over, its slot is not given back -/
  | ending
  /-- the counter is read, the value is to be written -/
  | writing (value : Int)
  | ended

def checkMissionQuota (limit : Nat) (count : Option Int) : Bool :=
  limit = 0 || count.getD 0 < limit

def incrementMissionCount (count : Option Int) : Option Int := some (count.getD 0 + 1)

def decrementCounter : Option Int → Option Int
  | none => none
  | some current => if current ≤ 0 then none else some (current - 1)

/-- Whether a request that has passed the check goes on to the increment, and from there to a mission
that starts. -/
inductive Answer where
  | goesOn
  | fails

/-- The next command of a request, or the end of its mission. -/
def advance (limit : Nat) (count : Option Int) : Stage → Answer → Option Int × Stage
  | .requested, _ => (count, if checkMissionQuota limit count then .admitted else .refused)
  | .admitted, .goesOn => (incrementMissionCount count, .running)
  | .admitted, .fails => (count, .refused)
  | .running, .goesOn => (count, .ending)
  -- the exits of `executeMission` before the start leave the counter as it is
  | .running, .fails => (count, .ended)
  | .ending, _ =>
    match decrementCounter count with
    | none => (count, .ended)
    | some value => (count, .writing value)
  | .writing value, _ => (some value, .ended)
  | .refused, _ => (count, .refused)
  | .ended, _ => (count, .ended)

/-- Run requests arrive at any time. -/
def quotaSystem (limit : Nat) : System (Option Int) Unit Stage Answer Empty where
  enter _ := .requested
  advance := advance limit
  outside count _ := count

abbrev QuotaStep := Step Unit Answer Empty

def number (p : Stage → Bool) (w : World (Option Int) Stage) : Nat := w.calls.countP p

@[simp] def Stage.isRunning : Stage → Bool
  | .running => true
  | _ => false

@[simp] def Stage.isAdmitted : Stage → Bool
  | .admitted => true
  | _ => false

@[simp] def Stage.isLeaving : Stage → Bool
  | .ending | .writing _ => true
  | _ => false

/-- A request passes the check only if it would with the admitted ones counted, nothing is written
between the read and the write of another's decrement, and what is counted starts. -/
def Apart (limit : Nat) (w : World (Option Int) Stage) (i : Nat) (a : Answer) : Prop :=
  match w.calls[i]? with
  | some .requested =>
    checkMissionQuota limit w.shared = true → w.shared.getD 0 + number Stage.isAdmitted w < limit
  | some .admitted => a = .goesOn → ∀ (j : Nat) (value : Int), w.calls[j]? ≠ some (.writing value)
  | some (.writing _) =>
    ∀ (j : Nat) (value : Int), j ≠ i → w.calls[j]? ≠ some (.writing value)
  | some .running => a = .goesOn
  | _ => True

variable {limit : Nat} {w : World (Option Int) Stage}
variable {i : Nat}
variable {old : Stage}

lemma shared_advance (limit : Nat) (hh : w.calls[i]? = some old) (a) :
    (step (quotaSystem limit) w (.advance i a)).shared = (advance limit w.shared old a).1 :=
  congrArg World.shared (step_advance_some hh a)

lemma calls_advance (limit : Nat) (hh : w.calls[i]? = some old) (a) :
    (step (quotaSystem limit) w (.advance i a)).calls =
      w.calls.set i (advance limit w.shared old a).2 :=
  congrArg World.calls (step_advance_some hh a)

lemma number_advance (limit : Nat) (hh : w.calls[i]? = some old) (a) (p : Stage → Bool) :
    number p (step (quotaSystem limit) w (.advance i a)) + (p old).toNat =
      number p w + (p (advance limit w.shared old a).2).toNat := by
  unfold number
  rw [calls_advance limit hh a]
  exact Interleaving.countP_set hh p _

variable {a : Answer}

lemma writing_advance (hh : w.calls[i]? = some old)
    (ht : (step (quotaSystem limit) w (.advance i a)).calls[j]? = some (.writing value)) :
    j = i ∧ (advance limit w.shared old a).2 = .writing value ∨
      j ≠ i ∧ w.calls[j]? = some (.writing value) := by
  have hbd := (List.getElem?_eq_some_iff.mp hh).1
  rw [calls_advance limit hh] at ht
  by_cases hs : j = i
  · subst hs
    rw [List.getElem?_set_self hbd] at ht
    exact .inl ⟨rfl, some.inj ht⟩
  · rw [List.getElem?_set_ne (Ne.symm hs)] at ht
    exact .inr ⟨hs, ht⟩

variable (limit w) in
/-- The counter is the number of slots taken, and the admitted requests fit under the limit too. -/
structure Counted : Prop where
  bound : number Stage.isRunning w + number Stage.isAdmitted w ≤ limit
  counter : w.shared.getD 0 = number Stage.isRunning w + number Stage.isLeaving w
  read : ∀ (j : Nat) (value : Int), w.calls[j]? = some (.writing value) →
    value + 1 = w.shared.getD 0

section
variable (hct : Counted limit w)
include hct

lemma Counted.decrement (hh : w.calls[i]? = some .ending) :
    decrementCounter w.shared = some (w.shared.getD 0 - 1) := by
  have hlv : 0 < number Stage.isLeaving w :=
    List.countP_pos_iff.mpr ⟨_, List.mem_of_getElem? hh, rfl⟩
  have ctr := hct.counter
  cases hsh : w.shared with
  | none =>
    rw [hsh] at ctr
    simp only [getD_none] at ctr
    omega
  | some cur =>
    rw [hsh] at ctr
    simp only [getD_some] at ctr
    have hpo : ¬cur ≤ 0 := by omega
    simp [decrementCounter, hpo]

lemma Counted.read_advance (hh : w.calls[i]? = some old)
    (hs : (Quota.advance limit w.shared old a).1 = w.shared)
    (new : ∀ vl, (Quota.advance limit w.shared old a).2 ≠ .writing vl) (j : Nat) (vl : Int)
    (ht : (step (quotaSystem limit) w (.advance i a)).calls[j]? = some (.writing vl)) :
    vl + 1 = (step (quotaSystem limit) w (.advance i a)).shared.getD 0 := by
  rw [shared_advance limit hh, hs]
  obtain ⟨-, is⟩ | ⟨-, old⟩ := writing_advance hh ht
  · exact absurd is (new vl)
  · exact hct.read j vl old

lemma Counted.advance (hpt : Apart limit w i a) :
    Counted limit (step (quotaSystem limit) w (.advance i a)) := by
  obtain ⟨hbd, ctr, rd⟩ := hct
  cases hh : w.calls[i]? with
  | none =>
    rw [step_advance_none hh]
    exact ⟨hbd, ctr, rd⟩
  | some old =>
    have running := number_advance limit hh a Stage.isRunning
    have admitted := number_advance limit hh a Stage.isAdmitted
    have hlv := number_advance limit hh a Stage.isLeaving
    have hsh := shared_advance limit hh a
    have os := Counted.read_advance ⟨hbd, ctr, rd⟩ hh (a := a)
    unfold Apart at hpt
    rw [hh] at hpt
    cases old with
    | requested =>
      by_cases hps : checkMissionQuota limit w.shared = true
      · have room := hpt hps
        simp [Quota.advance, hps] at running admitted hlv hsh
        refine ⟨by omega, by rw [hsh]; omega, os rfl ?_⟩
        simp [Quota.advance, hps]
      · simp [Quota.advance, hps] at running admitted hlv hsh
        refine ⟨by omega, by rw [hsh]; omega, os rfl ?_⟩
        simp [Quota.advance, hps]
    | admitted =>
      cases a with
      | goesOn =>
        have hsil := hpt rfl
        simp [Quota.advance, incrementMissionCount] at running admitted hlv hsh
        refine ⟨by omega, by rw [hsh, getD_some]; omega, fun j vl ht => ?_⟩
        obtain ⟨-, is⟩ | ⟨-, old⟩ := writing_advance hh ht
        · cases is
        · exact absurd old (hsil j vl)
      | fails =>
        simp [Quota.advance] at running admitted hlv hsh
        exact ⟨by omega, by rw [hsh]; omega, os rfl (by simp [Quota.advance])⟩
    | ending =>
      have vl :=
        Counted.decrement ⟨hbd, ctr, rd⟩ hh
      simp [Quota.advance, vl] at running admitted hlv hsh
      refine ⟨by omega, by rw [hsh]; omega, fun j v ht => ?_⟩
      rw [hsh]
      obtain ⟨-, is⟩ | ⟨-, old⟩ := writing_advance hh ht
      · simp only [Quota.advance, vl, Stage.writing.injEq] at is
        omega
      · exact rd j v old
    | writing vl =>
      have one := rd i vl hh
      simp [Quota.advance] at running admitted hlv hsh
      refine ⟨by omega, by rw [hsh, getD_some]; omega, fun j v ht => ?_⟩
      obtain ⟨-, is⟩ | ⟨ne, old⟩ := writing_advance hh ht
      · cases is
      · exact absurd old (hpt j v ne)
    | running =>
      cases hpt
      simp [Quota.advance] at running admitted hlv hsh
      exact ⟨by omega, by rw [hsh]; omega, os rfl (by simp [Quota.advance])⟩
    | refused | ended =>
      simp [Quota.advance] at running admitted hlv hsh
      exact ⟨by omega, by rw [hsh]; omega, os rfl (by simp [Quota.advance])⟩

end

/-- No command of the run comes between the commands of another request. -/
def Separate (limit : Nat) (steps : List QuotaStep) : Prop :=
  ∀ before i a after, steps = before ++ .advance i a :: after →
    Apart limit (run (quotaSystem limit) { shared := none } before) i a

lemma counted_run (ss) (sep : Separate limit ss) :
    Counted limit (run (quotaSystem limit) { shared := none } ss) := by
  induction ss using List.reverseRecOn with
  | nil => constructor <;> simp [run, number]
  | append_singleton hb x ih =>
    rw [run_append_singleton]
    have sf := ih fun hb' i a ha split =>
      sep hb' i a (ha ++ [x]) (by simp [split])
    cases x with
    | start op =>
      obtain ⟨hbd, ctr, rd⟩ := sf
      have num (p : Stage → Bool) (not : p .requested = false) (w : World (Option Int) Stage) :
          number p (step (quotaSystem limit) w (.start op)) = number p w := by
        simp [number, step, quotaSystem, not]
      refine ⟨?_, ?_, fun j vl ht => ?_⟩
      · rwa [num _ rfl, num _ rfl]
      · rwa [num _ rfl, num _ rfl]
      obtain ⟨old, -⟩ | ⟨_, -, -, is⟩ | ⟨_, _, is, -⟩ := calls_step ht
      · exact rd j vl old
      · cases is
      · cases is
    | advance i a => exact sf.advance (sep hb i a [] rfl)
    | outside e => exact e.elim

end Gibson.Runs.Quota
