import Gibson.WorkQueue.Dispatch
import Gibson.Lib.Loops

/-! The wait for an agent's result, bounded by the worker's registration. It goes in slices: each
waits a while and then asks the registry whether the discovered worker is still there. -/

namespace Gibson.WorkQueue

open Requests List

def workOwnerTTL : Nat := 4 * 60 * 60

def livenessGraceProbes : Nat := 3

/-- How long a caller waits. -/
structure WaitPolicy where
  /-- The declared timeout of the node; zero if it declares none. -/
  bound : Nat := 0
  livenessBounded : Bool := false
  instanceID : String := ""

/-- When a slice begins, what waiting returns while the work has an owner on record, whether the
context is cancelled, what a probe answers, and which instance has claimed the item. -/
structure Slice where
  begins : Nat
  outcome : Except StoreError WorkResult
  cancelled : Bool := false
  registered : Option (List String)
  claimant : Option String

def Slice.waitForResult (s : Slice) : Outcome WorkResult :=
  if s.begins < workOwnerTTL then s.outcome.mapError .store else .error .ownerUnknown

def workerAlive (instanceID : String) (instances : List String) : Bool :=
  if instanceID = "" then instances ≠ [] else instanceID ∈ instances

inductive WaitEnd where
  | result (result : WorkResult)
  | failed (e : QueueError)
  | cancelled
  | workerGone

/-- Ends the wait, or leaves the number of probes in a row that have not found the worker. -/
def waitSlice (instanceID : String) (absent : Nat) (s : Slice) : Except WaitEnd Nat :=
  match s.waitForResult with
  | .ok result => .error (.result result)
  | .error (.store .deadlineExceeded) =>
    if s.cancelled then .error .cancelled
    else match s.registered with
      | none => .ok absent
      | some instances =>
        if workerAlive instanceID instances then .ok 0
        else if livenessGraceProbes ≤ absent + 1 then .error .workerGone
        else .ok (absent + 1)
  | .error e => .error (.failed e)

/-- A bounded wait is one slice; one without a bound that cannot ask a registry is bounded too. -/
def waitForWorkResult (p : WaitPolicy) (registry : Bool) (slices : List Slice) :
    Except WaitEnd Nat :=
  if 0 < p.bound ∨ ¬p.livenessBounded ∨ ¬registry then
    match slices with
    | [] => .ok 0
    | s :: _ =>
      match s.waitForResult with
      | .ok result => .error (.result result)
      | .error e => .error (.failed e)
  else slices.foldlM (waitSlice p.instanceID) 0

def probes (slices : List Slice) : List (List String) := (slices.filterMap Slice.registered).reverse

def inARow (missing : List String → Bool) (slices : List Slice) : Nat :=
  ((probes slices).takeWhile missing).length

def AbsentFor (worker : String) (slices : List Slice) : Prop :=
  livenessGraceProbes ≤ inARow (fun instances => worker ∉ instances) slices

def ProbedAbsent (instanceID : String) (slices : List Slice) : Prop :=
  livenessGraceProbes ≤ inARow (fun instances => ¬workerAlive instanceID instances) slices

lemma inARow_append (hmis : List String → Bool) (slices s) :
    inARow hmis (slices ++ [s]) = match s.registered with
      | none => inARow hmis slices
      | some ins => if hmis ins then inARow hmis slices + 1 else 0 := by
  unfold inARow probes
  cases h : s.registered with
  | none => simp [h]
  | some ins =>
    by_cases m : hmis ins <;> simp [h, m]

/-- A slice that runs its time: nothing was delivered, and nobody has cancelled. -/
def Slice.Passes (s : Slice) : Prop :=
  s.begins < workOwnerTTL ∧ s.outcome = .error .deadlineExceeded ∧ s.cancelled = false

lemma Slice.passes_iff (s : Slice) :
    s.Passes ↔ s.waitForResult = .error (.store .deadlineExceeded) ∧ s.cancelled = false := by
  unfold Slice.Passes Slice.waitForResult
  by_cases inT : s.begins < workOwnerTTL
  · cases h : s.outcome <;> simp [inT, Except.mapError]
  · simp [inT]

variable {instanceID : String} {absent : Nat} {s : Slice}

lemma waitSlice_ok (hgo : waitSlice instanceID absent s = .ok n) :
    s.Passes ∧ match s.registered with
      | none => n = absent
      | some ins =>
        if workerAlive instanceID ins then n = 0
        else n = absent + 1 ∧ absent + 1 < livenessGraceProbes := by
  unfold waitSlice at hgo
  split at hgo
  · contradiction
  · rename_i waited
    by_cases hcd : s.cancelled
    · simp [hcd] at hgo
    simp only [hcd, Bool.false_eq_true, if_false] at hgo
    refine ⟨(s.passes_iff).mpr ⟨waited, by simpa using hcd⟩, ?_⟩
    split at hgo
    · exact (Except.ok.inj hgo).symm
    split at hgo
    · rename_i alive
      simp only [alive, if_true]
      exact (Except.ok.inj hgo).symm
    · rename_i hgn
      split at hgo
      · contradiction
      · simp only [hgn]
        exact ⟨(Except.ok.inj hgo).symm, by omega⟩
  · contradiction

lemma waitSlice_gone : waitSlice instanceID absent s = .error .workerGone ↔
      s.Passes ∧ ∃ ins, s.registered = some ins ∧
        ¬workerAlive instanceID ins ∧ livenessGraceProbes ≤ absent + 1 := by
  rw [Slice.passes_iff]
  unfold waitSlice
  split
  · rename_i waited
    simp [waited]
  · rename_i waited
    cases hcd : s.cancelled
    · cases hreg : s.registered with
      | none => simp
      | some ins =>
        by_cases alive : workerAlive instanceID ins
        · simp [alive]
        · by_cases gra : livenessGraceProbes ≤ absent + 1 <;> simp [alive, gra, waited]
    · simp
  · rename_i ho waited
    simp_all

lemma waitSlice_error (inT : s.begins < workOwnerTTL)
    (ends : waitSlice instanceID absent s = .error e) :
    (∃ res, e = .result res ∧ s.outcome = .ok res) ∨ (e = .cancelled ∧ s.cancelled) ∨
      (∃ fai, e = .failed (.store fai)) ∨ e = .workerGone := by
  unfold waitSlice Slice.waitForResult at ends
  rw [if_pos inT] at ends
  cases out : s.outcome with
  | ok res =>
    rw [out] at ends
    exact .inl ⟨res, (Except.error.inj ends).symm, rfl⟩
  | error fai =>
    rw [out] at ends
    cases fai with
    | failed | noGroup => exact .inr (.inr (.inl ⟨_, (Except.error.inj ends).symm⟩))
    | deadlineExceeded =>
      simp only [Except.mapError] at ends
      split at ends
      · rename_i hcd
        exact .inr (.inl ⟨(Except.error.inj ends).symm, hcd⟩)
      split at ends
      · contradiction
      split at ends
      · contradiction
      split at ends
      · exact .inr (.inr (.inr (Except.error.inj ends).symm))
      · contradiction

/-- A wait bounded by the life of the worker that the dispatch had discovered. -/
def livenessWait (instanceID : String) (slices : List Slice) : Except WaitEnd Nat :=
  waitForWorkResult { livenessBounded := true, instanceID } true slices

lemma livenessWait_eq (instanceID slices) :
    livenessWait instanceID slices = slices.foldlM (waitSlice instanceID) 0 := by
  simp [livenessWait, waitForWorkResult]

lemma livenessWait_append (ws : livenessWait instanceID slices = .ok absent) (s) :
    livenessWait instanceID (slices ++ [s]) = waitSlice instanceID absent s := by
  rw [livenessWait_eq] at ws ⊢
  rw [foldlM_append, ws]
  show (foldlM (waitSlice instanceID) absent [s]) = _
  simp

lemma count_eq_inARow (ws : livenessWait instanceID slices = .ok absent) :
    absent = inARow (fun ins => ¬workerAlive instanceID ins) slices := by
  induction slices using reverseRecOn generalizing absent with
  | nil =>
    cases ws
    rfl
  | append_singleton slices s ih =>
    have hwh := ws
    rw [livenessWait_eq, foldlM_append] at ws
    obtain ⟨hb, hea, -⟩ := Loops.bind_ok_iff.mp ws
    rw [livenessWait_append hea] at hwh
    have hlt := (waitSlice_ok hwh).2
    rw [inARow_append, ← ih hea]
    cases hreg : s.registered with
    | none => simpa [hreg] using hlt
    | some ins =>
      by_cases alive : workerAlive instanceID ins
      · simpa [hreg, alive] using hlt
      · have missed := (by simpa [hreg, alive] using hlt : absent = hb + 1 ∧ _)
        simpa [alive] using missed.1

/-- With the result, by a cancel or a failed command, or because the instance that claimed the item
was absent from enough consecutive answered probes. -/
def RealReason (before : List Slice) (last : Slice) : WaitEnd → Prop
  | .result result => last.outcome = .ok result
  | .cancelled => last.cancelled
  | .failed e => ∃ failure, e = .store failure
  | .workerGone => ∃ claimant, last.claimant = some claimant ∧ AbsentFor claimant (before ++ [last])

/-- In whichever slice the wait ends, it ends for a real reason. -/
def EndsForReason (instanceID : String) (slices : List Slice) : Prop :=
  ∀ before last after absent e, slices = before ++ last :: after →
    livenessWait instanceID before = .ok absent →
    livenessWait instanceID (before ++ [last]) = .error e → RealReason before last e

/-- The slice begins while the owner is on record, and if the discovered instance has been missed
often enough then so has the one that claimed the item. -/
def Faithful (instanceID : String) (before : List Slice) (last : Slice) : Prop :=
  last.begins < workOwnerTTL ∧
    (last.Passes → last.registered.isSome → ProbedAbsent instanceID (before ++ [last]) →
      ∃ claimant, last.claimant = some claimant ∧ AbsentFor claimant (before ++ [last]))

lemma gone_iff {before last} (ws : livenessWait instanceID before = .ok absent) :
    livenessWait instanceID (before ++ [last]) = .error .workerGone ↔
      last.Passes ∧ last.registered.isSome ∧ ProbedAbsent instanceID (before ++ [last]) := by
  rw [livenessWait_append ws, waitSlice_gone, ProbedAbsent, inARow_append,
    ← count_eq_inARow ws]
  cases hreg : last.registered with
  | none => simp
  | some ins =>
    by_cases alive : workerAlive instanceID ins
    · simp [alive, livenessGraceProbes]
    · simp [alive]

/-- The wait ends for a real reason whatever happens exactly if every slice it goes through is a
faithful one. -/
theorem livenessWait_endsForReason_iff (instanceID : String) (slices : List Slice) :
    EndsForReason instanceID slices ↔ ∀ before last after absent, slices = before ++ last :: after →
        livenessWait instanceID before = .ok absent → Faithful instanceID before last := by
  constructor
  · intro real before last after absent split ws
    constructor
    · by_contra late
      have ends : livenessWait instanceID (before ++ [last]) = .error (.failed .ownerUnknown) := by
        rw [livenessWait_append ws]
        simp [waitSlice, Slice.waitForResult, late]
      obtain ⟨fai, hs⟩ := real before last after absent _ split ws ends
      contradiction
    · intro hps han mis
      exact real before last after absent .workerGone split ws
        ((gone_iff ws).mpr ⟨hps, han, mis⟩)
  · intro hfai before last after absent e split ws ends
    obtain ⟨inT, hpn⟩ := hfai before last after absent split ws
    have sli := ends
    rw [livenessWait_append ws] at sli
    obtain ⟨res, rfl, hde⟩ | ⟨rfl, hcd⟩ | ⟨fai, rfl⟩ | rfl :=
      waitSlice_error inT sli
    · exact hde
    · exact hcd
    · exact ⟨fai, rfl⟩
    · obtain ⟨hps, han, mis⟩ := (gone_iff ws).mp ends
      exact hpn hps han mis

def otherClaims : List Slice :=
  [30, 60, 90].map fun begins =>
    { begins, outcome := .error .deadlineExceeded, registered := some ["agent-2"],
      claimant := some "agent-2" }

def longWork : List Slice :=
  [{ begins := workOwnerTTL, outcome := .error .deadlineExceeded, registered := some ["agent-1"],
     claimant := some "agent-1" }]

theorem livenessWait_ends_early :
    (livenessWait "agent-1" otherClaims = .error .workerGone ∧ ¬AbsentFor "agent-2" otherClaims) ∧
    livenessWait "agent-1" longWork = .error (.failed .ownerUnknown) ∧
    ¬EndsForReason "agent-1" otherClaims ∧ ¬EndsForReason "agent-1" longWork := by
  refine ⟨⟨rfl, by unfold AbsentFor; decide⟩, rfl, fun real => ?_, fun real => ?_⟩
  · obtain ⟨cla, hs, absent⟩ :=
      real (otherClaims.take 2) _ [] 2 .workerGone rfl rfl rfl
    cases hs
    revert absent
    unfold AbsentFor
    decide
  · obtain ⟨fai, hs⟩ := real [] _ [] 0 (.failed .ownerUnknown) rfl rfl rfl
    contradiction

end Gibson.WorkQueue
