import Mathlib.Algebra.Ring.Int.Defs
import Gibson.Brain.Entity

/-! The life of a mission over whole histories. -/

namespace Gibson.Brain

open List Mission

section

variable {env : Env} {tenant id : String} {m : Mission} {past later : List Event}

/-- A run of events does to a mission what its events do one after another. -/
lemma mission_run {P : List Event → Mission → Prop} (s0 : P [] m)
    (step : ∀ {seen m' ev}, ev ∈ later → P seen m' →
      ∃ m'', missionAfter id ev (some m') = some m'' ∧ P (seen ++ [ev]) m'')
    (drop : ∀ {seen m' ev c}, (checkRun c ev).verdict = .runDropped → P seen m' →
      P (seen ++ [ev]) m')
    (hf : findMission (replay env tenant past).control id = some m) :
    ∃ m', findMission (replay env tenant (past ++ later)).control id = some m' ∧ P later m' := by
  induction later using List.reverseRecOn with
  | nil => exact ⟨m, by rwa [append_nil], s0⟩
  | append_singleton later ev ih =>
    obtain ⟨m', hh, hho⟩ := ih fun mem => step (mem_append_left _ mem)
    rw [← append_assoc, replay_append_singleton, reduce_control]
    unfold reduceControl
    split
    · next hdr => exact ⟨m', hh, drop hdr hho⟩
    obtain ⟨m'', ha, next⟩ := step (mem_append_right _ mem_cons_self) hho
    exact ⟨m'', by rw [findMission_applyControl (replay_wellFormed env tenant _), hh, ha], next⟩

def Mission.outcome (m : Mission) : MissionStatus × String × String := (m.status, m.reason, m.runID)

/-- A mission that has ended keeps its outcome through every later event but the projection of
another run. -/
theorem finished_final (found : findMission (replay env tenant past).control id = some m)
    (ended : m.status.isTerminal = true)
    (sameRun : ∀ e, .missionProjected e ∈ later → e.id = id → e.runID = m.runID) :
    ∃ m', findMission (replay env tenant (past ++ later)).control id = some m' ∧
      m'.outcome = m.outcome := by
  refine mission_run (P := fun _ m' => m'.outcome = m.outcome) rfl ?_ (fun _ hs => hs) found
  intro hsn m' ev mem hs
  obtain ⟨status, -, run⟩ : m'.status = m.status ∧ m'.reason = m.reason ∧ m'.runID = m.runID := by
    simpa [outcome] using hs
  have ran : m'.status ≠ .pending ∧ m'.status ≠ .running ∧ m'.status ≠ .paused := by
    rw [status]
    refine ⟨?_, ?_, ?_⟩ <;> intro ho <;> simp [ho, MissionStatus.isTerminal] at ended
  rw [← status] at ended
  cases ev
  case missionProjected e =>
    refine ⟨m', ?_, hs⟩
    by_cases own : id = e.id
    · simp [missionAfter, own, project, ran.1, run, sameRun e mem own.symm]
    · simp [missionAfter, own]
  all_goals
    simp only [missionAfter]
    try split
    all_goals
      refine ⟨_, rfl, ?_⟩
      simpa [outcome, start, finish, pause, resume, Mission.addTokens, ran, ended] using hs

def endedRun : List Event :=
  [.missionProjected { id := "m", runID := "r" }, .missionDone { id := "m" }]

def endedMission : Mission := { id := "m", runID := "r", status := .completed }

theorem finished_final_resumed :
    ∃ m, findMission (replay .plain "t" (endedRun ++ [.missionResumed ⟨"m", "r"⟩])).control "m" =
      some m ∧ m.outcome = endedMission.outcome :=
  finished_final (by decide : _ = some endedMission) rfl (by simp)

def tokensFor (id : String) : Event → Int
  | .tokenUsed e => if id == e.missionID then e.tokens else 0
  | _ => 0

/-- Every token that an event counts for a mission is counted once, until the mission is projected
again. -/
theorem tokensUsed_exact (found : findMission (replay env tenant past).control id = some m)
    (sameRun : ∀ e, .missionProjected e ∈ later → e.id ≠ id) :
    ∃ m', findMission (replay env tenant (past ++ later)).control id = some m' ∧
      m'.tokensUsed.bmod (2 ^ 64) =
        (m.tokensUsed + (later.map (tokensFor id)).sum).bmod (2 ^ 64) := by
  refine mission_run (P := fun hsn m' => m'.tokensUsed.bmod (2 ^ 64) =
    (m.tokensUsed + (hsn.map (tokensFor id)).sum).bmod (2 ^ 64)) (by simp) ?_ ?_ found
  · intro hsn m' ev mem hs
    have tot : (m.tokensUsed + ((hsn ++ [ev]).map (tokensFor id)).sum).bmod (2 ^ 64) =
        (m'.tokensUsed + tokensFor id ev).bmod (2 ^ 64) := by
      rw [map_append, sum_append, ← Int.add_assoc, ← Int.bmod_add_bmod, ← hs, Int.bmod_add_bmod,
        map_singleton, sum_singleton]
    simp only [tot]
    cases ev
    case missionProjected e =>
      exact ⟨m', by simp [missionAfter, Ne.symm (sameRun e mem)], by simp [tokensFor]⟩
    all_goals
      simp only [missionAfter]
      try split
      all_goals
        refine ⟨_, rfl, ?_⟩
        simp [tokensFor, start, finish, pause, resume, Mission.addTokens,
          apply_ite Mission.tokensUsed, *]
  · intro hsn m' ev c hdr hs
    cases ev
    case tokenUsed e => exact absurd hdr (by simp [checkRun])
    all_goals simpa [tokensFor] using hs

theorem tokensUsed_exact_wrapped :
    ∃ m, findMission (replay .plain "t"
        (endedRun ++ [.tokenUsed ⟨"m", 2 ^ 63 - 1⟩, .tokenUsed ⟨"m", 7⟩])).control "m" = some m ∧
      m.tokensUsed.bmod (2 ^ 64) = ((0 : Int) + (2 ^ 63 - 1 + 7)).bmod (2 ^ 64) :=
  tokensUsed_exact (by decide : _ = some endedMission) (by simp)

end

end Gibson.Brain
