import Gibson.Brain.Entity
import Gibson.Lib.Prefix

/-! Where a run of a mission stands in the World: launched and unfinished until an event ends it. -/

namespace Gibson.Runs

open Brain Mission List

def Held (c : Control) (id r : String) : Prop := ∃ m, findMission c id = some m ∧ m.runID = r

def Unfinished (c : Control) (id r : String) : Prop :=
  ∃ m, findMission c id = some m ∧ m.runID = r ∧ m.status.isTerminal = false

def Launches (id r : String) : Event → Prop
  | .missionProjected e | .missionStarted e => e.id = id ∧ e.runID = r
  | _ => False

/-- The event is the end of the run: a MissionDone that the run takes, or the projection of
another run of the mission. -/
def Ends (id r : String) : Event → Prop
  | .missionDone e => e.id = id ∧ (e.runID = "" ∨ e.runID = r) ∧ e.status.isTerminal = true
  | .missionProjected e => e.id = id ∧ e.runID ≠ r
  | _ => False

section
variable {id : String}

lemma Unfinished.held (hu : Unfinished c id r) : Held c id r := by
  obtain ⟨m, hf, run, -⟩ := hu
  exact ⟨m, hf, run⟩

lemma not_ends_of_dropped (hdr : (checkRun c ev).verdict = .runDropped)
    (hhe : Held c id r) : ¬Ends id r ev := by
  obtain ⟨m, hf, rfl⟩ := hhe
  intro ends
  cases ev with
  | missionDone e =>
    obtain ⟨rfl, hn, -⟩ := ends
    have check : (missionRunCheck c (.missionDone e) e.id e.runID .runDropped).verdict =
        .runDropped := hdr
    unfold missionRunCheck at check
    obtain bla | own := hn
    · simp [bla] at check
    · simp [hf, own] at check
  | missionProjected e => simp [checkRun] at hdr
  | _ => exact ends

lemma missionAfter_own (own : m.runID = r) (ho : ¬Launches id r ev)
    (hn : ∀ e, ev = .missionDone e → e.id = id → e.runID = "" ∨ e.runID = r) :
    ∃ m', missionAfter id ev (some m) = some m' ∧ (m'.runID = r ∧ m'.status.isTerminal = false ↔
        m.status.isTerminal = false ∧ ¬Ends id r ev) := by
  by_cases hpr : ∃ e, ev = .missionProjected e ∧ e.id = id
  · obtain ⟨e, rfl, hh⟩ := hpr
    have ends : e.runID ≠ r := fun hs => ho ⟨hh, hs⟩
    refine ⟨project e (some m), by simp [missionAfter, hh], ?_⟩
    have hel : (project e (some m)).runID = e.runID := by
      simp only [project]
      split
      · rfl
      split
      · assumption
      · rfl
    simp [hel, ends, Ends, hh]
  by_cases hdn : ∃ e, ev = .missionDone e ∧ e.id = id
  · obtain ⟨e, rfl, hh⟩ := hdn
    refine ⟨finish e m, by simp [missionAfter, hh], ?_⟩
    have htk := hn e rfl hh
    by_cases hed : m.status.isTerminal = true
    · simp [finish, hed]
    · simp [finish, hed, own, Ends, hh, htk]
  · obtain ⟨m', ha, run, sta, -⟩ := missionAfter_goesOn
      (fun e hs hh => hpr ⟨e, hs, hh⟩) (fun e hs hh => hdn ⟨e, hs, hh⟩) m
    have noE : ¬Ends id r ev := by
      intro ends
      cases ev with
      | missionProjected e => exact hpr ⟨e, rfl, ends.1⟩
      | missionDone e => exact hdn ⟨e, rfl, ends.1⟩
      | _ => exact ends
    exact ⟨m', ha, by simp [run, own, sta, noE]⟩

lemma missionAfter_foreign (foreign : ∀ x, m = some x → x.runID ≠ r) (hn : r ≠ "")
    (ho : ¬Launches id r ev) (ha : missionAfter id ev m = some m') : m'.runID ≠ r := by
  cases m with
  | none =>
    cases ev
    case missionProjected e | missionStarted e =>
      simp only [missionAfter] at ha
      split at ha
      · next hh =>
        cases ha
        exact fun hs => ho ⟨(beq_iff_eq.mp hh).symm, hs⟩
      · cases ha
    case missionCreated e =>
      simp only [missionAfter] at ha
      split at ha
      · cases ha
        exact Ne.symm hn
      · cases ha
    all_goals simp [missionAfter] at ha
  | some x =>
    by_cases hpr : ∃ e, ev = .missionProjected e ∧ e.id = id
    · obtain ⟨e, rfl, hh⟩ := hpr
      have run : e.runID ≠ r := fun hs => ho ⟨hh, hs⟩
      simp only [missionAfter, hh, beq_self_eq_true, if_true, project] at ha
      cases ha
      split
      · exact run
      split
      · exact foreign x rfl
      · exact run
    by_cases hdn : ∃ e, ev = .missionDone e ∧ e.id = id
    · obtain ⟨e, rfl, hh⟩ := hdn
      simp only [missionAfter, hh, beq_self_eq_true, if_true] at ha
      cases ha
      rw [finish_runID]
      exact foreign x rfl
    · obtain ⟨y, hs, run, -⟩ := missionAfter_goesOn
        (fun e hs hh => hpr ⟨e, hs, hh⟩) (fun e hs hh => hdn ⟨e, hs, hh⟩) x
      cases hs.symm.trans ha
      rw [run]
      exact foreign x rfl

lemma not_held_reduceControl (wf : WellFormed c) (hn : r ≠ "") (ho : ¬Launches id r ev)
    (free : ¬Held c id r) : ¬Held (reduceControl env c ev) id r := by
  unfold reduceControl
  split
  · exact free
  rintro ⟨m', hf, run⟩
  rw [findMission_applyControl wf] at hf
  exact missionAfter_foreign (fun x hh hs => free ⟨x, hh, hs⟩) hn ho hf run

lemma not_held_foldl (wf : WellFormed c) (hn : r ≠ "") (free : ¬Held c id r)
    (events : List Event) (os : ∀ ev ∈ events, ¬Launches id r ev) :
    ¬Held (events.foldl (reduceControl env) c) id r := by
  induction events generalizing c with
  | nil => exact free
  | cons ev events ih =>
    refine ih (wellFormed_reduceControl env wf ev) ?_ fun x mem => os x (by simp [mem])
    exact not_held_reduceControl wf hn (os ev (by simp)) free

lemma unfinished_reduceControl_iff (wf : WellFormed c) (hn : r ≠ "")
    (ho : ¬Launches id r ev) :
    Unfinished (reduceControl env c ev) id r ↔ Unfinished c id r ∧ ¬Ends id r ev := by
  by_cases hhe : Held c id r
  · by_cases hdr : (checkRun c ev).verdict = .runDropped
    · rw [reduceControl_dropped env hdr]
      simp [not_ends_of_dropped hdr hhe]
    obtain ⟨m, hf, own⟩ := hhe
    have htk : reduceControl env c ev = applyControl env c ev := if_neg hdr
    obtain ⟨m', ha, hs⟩ := missionAfter_own own ho fun e hh own' => by
      subst hh own'
      by_cases bla : e.runID = ""
      · exact .inl bla
      by_cases hs : e.runID = m.runID
      · exact .inr (hs.trans own)
      · exact absurd (missionRunCheck_other .runDropped hf bla hs) hdr
    have hf' : findMission (applyControl env c ev) id = some m' := by
      rw [findMission_applyControl wf, hf, ha]
    rw [htk]
    unfold Unfinished
    rw [hf', hf]
    simpa [own] using hs
  · have free : ¬Held (reduceControl env c ev) id r := not_held_reduceControl wf hn ho hhe
    exact iff_of_false (fun hu => free hu.held)
      fun hu => hhe hu.1.held

lemma unfinished_projected (free : ¬Held c e.id e.runID) :
    Unfinished (reduceControl env c (.missionProjected e)) e.id e.runID := by
  refine ⟨_, findMission_projected e, ?_⟩
  cases hf : findMission c e.id with
  | none => exact ⟨rfl, rfl⟩
  | some m =>
    have hel : m.runID ≠ e.runID := fun hs => free ⟨m, hf, hs⟩
    by_cases hp : m.status = .pending
    · simp [project, hp, startRun, MissionStatus.isTerminal]
    · simp [project, hp, hel, MissionProjected.newMission, MissionStatus.isTerminal]

lemma unfinished_started_iff (wf : WellFormed c) (hf : (findMission c e.id).isSome) :
    Unfinished (reduceControl env c (.missionStarted e)) e.id r ↔ Unfinished c e.id r := by
  obtain ⟨m, hf⟩ := Option.isSome_iff_exists.mp hf
  have ha : findMission (reduceControl env c (.missionStarted e)) e.id = some (m.start e) := by
    rw [control_of_current env rfl, findMission_applyControl wf, hf]
    simp [missionAfter]
  unfold Unfinished
  rw [ha, hf]
  unfold start
  by_cases hp : m.status = .pending <;> simp [hp, MissionStatus.isTerminal]

end

def LaunchedOnce (id r : String) (events : List Event) : Prop :=
  ∀ before ev after, events = before ++ ev :: after → Launches id r ev →
    (∃ e, ev = .missionProjected e) ∧ (∀ x ∈ before, ¬Launches id r x) ∨
      (∃ e, ev = .missionStarted e) ∧
        ∃ e : MissionProjected, .missionProjected e ∈ before ∧ e.id = id ∧ e.runID = r

/-- The run is projected and nothing after that ends it. -/
def LeftGoing (id r : String) (events : List Event) : Prop :=
  ∃ before e after, events = before ++ .missionProjected e :: after ∧ e.id = id ∧ e.runID = r ∧
    ∀ ev ∈ after, ¬Ends id r ev

section
variable {id : String} {events : List Event}

lemma leftGoing_append_singleton : LeftGoing id r (events ++ [ev]) ↔
      LeftGoing id r events ∧ ¬Ends id r ev ∨
        ∃ e, ev = .missionProjected e ∧ e.id = id ∧ e.runID = r := by
  constructor
  · rintro ⟨hb, e, ha, split, own, run, open_⟩
    obtain ⟨-, rfl, -⟩ | ⟨rs, rfl, hea⟩ := Prefix.split_concat split
    · exact .inr ⟨e, rfl, own, run⟩
    · exact .inl ⟨⟨hb, e, rs, hea, own, run, fun x mem => open_ x (by simp [mem])⟩,
        open_ ev (by simp)⟩
  · rintro (⟨⟨hb, e, ha, rfl, own, run, open_⟩, notEnd⟩ | ⟨e, rfl, own, run⟩)
    · refine ⟨hb, e, ha ++ [ev], by simp, own, run, fun x mem => ?_⟩
      obtain mem | rfl := by simpa using mem
      · exact open_ x mem
      · exact notEnd
    · exact ⟨events, e, [], rfl, own, run, by simp⟩

lemma LaunchedOnce.before (once : LaunchedOnce id r (events ++ [ev])) : LaunchedOnce id r events :=
  fun hb x ha split => once hb x (ha ++ [ev]) (by simp [split])

end

lemma unfinished_iff_leftGoing (env : Env) {c id r} (wf : WellFormed c) (hn : r ≠ "")
    (free : ¬Held c id r) (events) (once : LaunchedOnce id r events) :
    (Unfinished (events.foldl (reduceControl env) c) id r ↔ LeftGoing id r events) := by
  -- From the projection on, the World holds the mission.
  suffices all : (Unfinished (events.foldl (reduceControl env) c) id r ↔ LeftGoing id r events) ∧
      ((∃ e : MissionProjected, .missionProjected e ∈ events ∧ e.id = id) →
        (findMission (events.foldl (reduceControl env) c) id).isSome) from all.1
  induction events using reverseRecOn with
  | nil =>
    refine ⟨iff_of_false (fun hu => free hu.held) ?_, by simp⟩
    rintro ⟨hb, e, ha, split, -⟩
    simp at split
  | append_singleton events ev ih =>
    obtain ⟨hs, hf⟩ := ih once.before
    have wf' := wellFormed_foldl env wf events
    have hfr : (∀ x ∈ events, ¬Launches id r x) →
        ¬Held (events.foldl (reduceControl env) c) id r := not_held_foldl wf hn free events
    rw [foldl_append, foldl_cons, foldl_nil, leftGoing_append_singleton]
    generalize events.foldl (reduceControl env) c = d at hs hfr hf wf' ⊢
    have hf' : (∃ e : MissionProjected, .missionProjected e ∈ events ++ [ev] ∧ e.id = id) →
        (findMission (reduceControl env d ev) id).isSome := by
      rintro ⟨e, mem, rfl⟩
      obtain mem | rfl : .missionProjected e ∈ events ∨ .missionProjected e = ev := by
        simpa using mem
      · obtain ⟨m, hf⟩ := Option.isSome_iff_exists.mp (hf ⟨e, mem, rfl⟩)
        unfold reduceControl
        split
        · simp [hf]
        rw [findMission_applyControl wf', hf]
        cases ev <;> simp only [missionAfter] <;> (try split) <;> simp
      · rw [control_of_current env rfl]
        exact Option.isSome_iff_exists.mpr ⟨_, findMission_projected e⟩
    by_cases lau : Launches id r ev
    · refine ⟨?_, hf'⟩
      obtain ⟨⟨e, rfl⟩, h1⟩ | ⟨⟨e, rfl⟩, p, mem, own, run⟩ := once events ev [] rfl lau
      · obtain ⟨rfl, rfl⟩ := lau
        exact iff_of_true (unfinished_projected (hfr h1)) (.inr ⟨e, rfl, rfl, rfl⟩)
      obtain ⟨rfl, -⟩ := lau
      rw [unfinished_started_iff wf' (hf ⟨p, mem, own⟩), hs]
      simp [Ends]
    · refine ⟨?_, hf'⟩
      rw [unfinished_reduceControl_iff wf' hn lau, hs]
      constructor
      · exact .inl
      rintro (kp | ⟨e, rfl, own, run⟩)
      · exact kp
      · exact absurd ⟨own, run⟩ lau

end Gibson.Runs
