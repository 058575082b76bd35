import Gibson.Lib.Prefix
import Gibson.Brain.Slice
import Gibson.Brain.Entity

/-! The histories whose slices can stand for the whole Timeline. -/

namespace Gibson.Brain

open List Rows Mission Option

def foldControl (env : Env) (events : List Event) : Control :=
  events.foldl (reduceControl env) {}

lemma foldControl_concat (env before ev) :
    foldControl env (before ++ [ev]) = reduceControl env (foldControl env before) ev :=
  foldl_concat _ _ _ _

lemma replay_control (env tenant events) :
    (replay env tenant events).control = foldControl env events :=
  reduceAll_control env (newWorld tenant) events

lemma foldControl_wellFormed (env events) : WellFormed (foldControl env events) :=
  wellFormed_foldl env wellFormed_empty events

def projectedRun : Event → Option String
  | .missionProjected e => some e.runID
  | _ => none

/-- Run ids are unique, and an event that names a run comes after the projection of that run. -/
structure RunsOrdered (events : List Event) : Prop where
  unique : (events.filterMap projectedRun).Nodup
  named : ∀ before ev after, events = before ++ ev :: after → projectedRun ev = none →
    explicitRunID ev ≠ "" → explicitRunID ev ∈ before.filterMap projectedRun

/-- The mission that a control event with a run names. A completion names a work item only. -/
def namedMission : Event → Option String
  | .missionStarted e | .missionDone e | .missionPauseRequested e | .missionResumed e => some e.id
  | .workDispatched e | .decisionRequested e | .decisionCompleted e => some e.missionID
  | _ => none

def retires (c : Control) (e : MissionProjected) : Prop :=
  ∃ m, findMission c e.id = some m ∧ m.status ≠ .pending ∧ m.runID ≠ e.runID

/-- A step that a slice can follow, after `before` left the stores `c`. A work id is dispatched and
projected for one mission at a time, a condition skips pending work of a mission that owns it,
and a mission that is projected again takes no snapshot from a rewind. -/
def SliceStep (events before : List Event) (c : Control) : Event → Prop
  | .decisionRequested e =>
    e.runID = "" ∨ ∀ m, findMission c e.missionID = some m → m.runID = e.runID
  | .workDispatched e => ∀ wi, findWork c e.id = some wi → wi.missionID = e.missionID
  | .conditionResolved e =>
    ∀ id ∈ e.skip, ∀ wi, findWork c id = some wi → wi.state = .pending → wi.missionID ≠ "" →
      owned events wi.missionID e.id = true
  | .missionDone e => e.outcome ≠ some .pending
  | .missionProjected e =>
    OwnNodes c e e.nodes ∧
    ((before.filterMap (missionRun? e.id)) ≠ [] →
      ∀ n ∈ e.nodes, startSnapshot (c.missionRewinds.lookup e.id) n = n.fromSnapshot) ∧
    (retires c e → ∀ missionID ≠ e.id, (c.decisions.filter (isOpenDecision missionID)).length ≤ 1)
  | _ => True

/-- Every event names a run of its own mission, and every step is one that a slice can follow. -/
structure SliceSound (env : Env) (events : List Event) : Prop where
  ownRun : ∀ e, .missionProjected e ∈ events → ∀ ev ∈ events, explicitRunID ev = e.runID →
    e.runID ≠ "" → ∀ missionID, namedMission ev = some missionID → missionID = e.id
  step : ∀ before ev after, events = before ++ ev :: after →
    SliceStep events before (foldControl env before) ev

section Origin
variable {c : Control} {wi : WorkItem}

def FromItem (c : Control) (wi : WorkItem) : Prop :=
  ∃ old ∈ c.work, old.id = wi.id ∧ old.missionID = wi.missionID ∧ old.runID = wi.runID

lemma fromItem_of_mem (h : wi ∈ c.work) : FromItem c wi := ⟨wi, h, rfl, rfl, rfl⟩

lemma fromItem_updateWork {f : WorkItem → WorkItem} (hf : KeepsPlace f) (id)
    (h : wi ∈ (updateWork c id f).work) : FromItem c wi := by
  have all : ∀ x ∈ updateFirst (·.id == id) f c.work, FromItem c x := by
    refine forall_updateFirst (fun x hx => fromItem_of_mem hx) fun x _ fro' => ?_
    obtain ⟨old, hold, hsid, sameMission, hsru⟩ := fro'
    exact ⟨old, hold, hsid.trans (hf.id x).symm, sameMission.trans (hf.missionID x).symm,
      hsru.trans (hf.runID x).symm⟩
  exact all wi h

lemma FromItem.trans (h : FromItem c' wi) (step : ∀ x ∈ c'.work, FromItem c x) : FromItem c wi := by
  obtain ⟨mid, hmid, hsid, sameMission, hsru⟩ := h
  obtain ⟨old, hold, sam, sam', sameRun'⟩ := step mid hmid
  exact ⟨old, hold, sam.trans hsid, sam'.trans sameMission, sameRun'.trans hsru⟩

lemma fromItem_skipAll {ids : List String}
    (h : wi ∈ (ids.foldl (fun c id => updateWork c id WorkItem.skip) c).work) : FromItem c wi := by
  induction ids generalizing c with
  | nil => exact fromItem_of_mem h
  | cons id ids ih => exact (ih h).trans fun x hx => fromItem_updateWork keepsPlace_skip id hx

lemma mem_projectNodes {ns : List WorkNode} (h : wi ∈ (ns.foldl (projectNode e) c).work) :
    wi ∈ c.work ∨
      (wi.missionID = e.id ∧ wi.runID = e.runID ∧ ∃ n ∈ ns, workID e.id n.id = wi.id) := by
  induction ns generalizing c with
  | nil => exact Or.inl h
  | cons n ns ih =>
    rcases ih h with old | ⟨mi, run, n', hn', id⟩
    · unfold projectNode at old
      split at old
      · exact Or.inl old
      rcases mem_append.mp old with old | new
      · exact Or.inl old
      · rw [mem_singleton.mp new]
        exact Or.inr ⟨rfl, rfl, n, by simp, rfl⟩
    · exact Or.inr ⟨mi, run, n', by simp [hn'], id⟩

lemma mem_applyMissionProjected (h : wi ∈ (applyMissionProjected env c e).work) :
    (wi ∈ c.work ∧ (retires c e → wi.missionID ≠ e.id)) ∨
      (wi.missionID = e.id ∧ wi.runID = e.runID ∧ ∃ n ∈ e.nodes, workID e.id n.id = wi.id) := by
  unfold applyMissionProjected at h
  cases hf : findMission c e.id with
  | none =>
    rw [hf] at h
    have kp : retires c e → wi.missionID ≠ e.id := by
      rintro ⟨m, hm, -⟩
      exact absurd (hf.symm.trans hm) (by simp)
    exact (mem_projectNodes h).imp_left fun old => ⟨old, kp⟩
  | some m =>
    rw [hf] at h
    simp only at h
    split at h
    · next hp =>
      have kp : retires c e → wi.missionID ≠ e.id := by
        rintro ⟨m', hm', hsd, -⟩
        rw [← some.inj (hf.symm.trans hm')] at hsd
        exact absurd hp hsd
      exact (mem_projectNodes h).imp_left fun old => ⟨old, kp⟩
    · split at h
      · next hsru =>
        refine Or.inl ⟨h, ?_⟩
        rintro ⟨m', hm', -, ho⟩
        rw [← some.inj (hf.symm.trans hm')] at ho
        exact absurd hsru ho
      · refine (mem_projectNodes h).imp_left fun old => ?_
        obtain ⟨ht, hgn⟩ := env.removeRows_mem old
        exact ⟨ht, fun _ => by simpa using hgn⟩

lemma mem_workDispatched {e} (h : wi ∈ (reduceControl env c (.workDispatched e)).work) :
    FromItem c wi ∨ (wi = e.newItem ∧
      (missionRunCheck c (.workDispatched e) e.missionID e.runID .runDropped).verdict ≠
        .runDropped) := by
  cases hf : findWork c e.id with
  | some x =>
    rw [workDispatched_found env hf] at h
    split at h
    · exact Or.inl (fromItem_updateWork (keepsPlace_redispatch e) e.id h)
    · exact Or.inl (fromItem_of_mem h)
  | none =>
    rw [workDispatched_none env hf] at h
    split at h
    · exact Or.inl (fromItem_of_mem h)
    next htk =>
    have add : wi ∈ c.work ++ [e.newItem] := by
      unfold recordDecisionDispatch at h
      split at h <;> exact h
    rcases mem_append.mp add with old | new
    · exact Or.inl (fromItem_of_mem old)
    · exact Or.inr ⟨mem_singleton.mp new, htk⟩

lemma fromItem_applyControl (not : ∀ e, ev ≠ .workDispatched e)
    (hnp : ∀ e, ev ≠ .missionProjected e) (h : wi ∈ (applyControl env c ev).work) :
    FromItem c wi := by
  cases ev
  case workDispatched e => exact absurd rfl (not e)
  case missionProjected e => exact absurd rfl (hnp e)
  case workRetried e => exact fromItem_updateWork keepsPlace_retry e.id h
  case workCompleted e =>
    simp only [applyControl, applyWorkCompleted] at h
    split at h
    · split at h
      · exact fromItem_of_mem h
      · exact fromItem_updateWork (keepsPlace_complete e _) e.id h
    · exact fromItem_of_mem h
  case conditionResolved e =>
    refine (fromItem_skipAll h).trans fun x hx => ?_
    exact fromItem_updateWork (keepsPlace_resolve e.result) e.id hx
  all_goals
    rw [work_of_leavesWork env rfl] at h
    exact fromItem_of_mem h

lemma fromItem_reduceControl (not : ∀ e, ev ≠ .workDispatched e)
    (hnp : ∀ e, ev ≠ .missionProjected e) (h : wi ∈ (reduceControl env c ev).work) :
    FromItem c wi := by
  unfold reduceControl at h
  split at h
  · exact fromItem_of_mem h
  · exact fromItem_applyControl not hnp h

lemma work_origin (h : wi ∈ (reduceControl env c ev).work) :
    FromItem c wi ∨ attaches wi.missionID wi.id ev = true := by
  cases ev
  case workDispatched e =>
    refine (mem_workDispatched h).imp_right ?_
    rintro ⟨rfl, -⟩
    simp [attaches, WorkDispatched.newItem]
  case missionProjected e =>
    rcases mem_applyMissionProjected h with ⟨old, -⟩ | ⟨mi, -, n, hn, id⟩
    · exact Or.inl (fromItem_of_mem old)
    · refine Or.inr (Bool.and_eq_true_iff.mpr ⟨by simp [mi], ?_⟩)
      exact any_eq_true.mpr ⟨n, hn, by simp [id]⟩
  all_goals exact Or.inl (fromItem_reduceControl (by simp) (by simp) h)

lemma owned_of_mem (env events) :
    ∀ wi ∈ (foldControl env events).work, owned events wi.missionID wi.id = true := by
  induction events using reverseRecOn with
  | nil => simp [foldControl]
  | append_singleton events ev ih =>
    intro wi hwi
    rw [foldControl_concat] at hwi
    unfold owned at ih ⊢
    rw [any_append, Bool.or_eq_true]
    rcases work_origin hwi with ⟨old, hold, id, mi, -⟩ | new
    · left
      rw [← id, ← mi]
      exact ih old hold
    · right
      simpa using new

end Origin

lemma latestMissionRun_concat (events ev) :
    latestMissionRun (events ++ [ev]) missionID =
      (missionRun? missionID ev).or (latestMissionRun events missionID) := by
  unfold latestMissionRun
  cases run : missionRun? missionID ev with
  | none | some r => simp [run]

lemma missionRun?_projected (e) :
    missionRun? e.id (.missionProjected e) = some e.runID := if_pos rfl

lemma missionRun?_eq_none (ho : ∀ e, ev = .missionProjected e → e.id ≠ missionID) :
    missionRun? missionID ev = none := by
  cases ev
  case missionProjected e => exact if_neg (ho e rfl)
  all_goals rfl

section Started
variable {c : Control} {missionID r : String}

def StartedAs (c : Control) (missionID r : String) : Prop :=
  ∃ m, findMission c missionID = some m ∧ m.status ≠ .pending ∧ m.runID = r

lemma StartedAs.reduceControl (h : StartedAs c missionID r) (wf : WellFormed c)
    (ho : ∀ e, ev = .missionProjected e → e.id ≠ missionID)
    (hdn : ∀ e, ev = .missionDone e → e.outcome ≠ some .pending) :
    StartedAs (reduceControl env c ev) missionID r := by
  unfold Brain.reduceControl
  split
  · exact h
  obtain ⟨m, hf, hsd, run⟩ := h
  have ha : findMission (applyControl env c ev) missionID = missionAfter missionID ev (some m) :=
    hf ▸ findMission_applyControl wf ev
  by_cases ends : ∃ e, ev = .missionDone e ∧ e.id = missionID
  · obtain ⟨e, rfl, hh⟩ := ends
    have hed : e.status ≠ .pending := by
      have hgiv := hdn e rfl
      unfold MissionDone.status
      cases out : e.outcome with
      | none => simp
      | some s => simpa [out] using hgiv
    refine ⟨finish e m, ha.trans (by simp [missionAfter, hh]), ?_, (m.finish_runID e).trans run⟩
    unfold finish
    split
    · exact hsd
    · exact hed
  · obtain ⟨m', kp, run', -, hp⟩ :=
      missionAfter_goesOn ho (fun e hs hh => ends ⟨e, hs, hh⟩) m
    exact ⟨m', ha.trans kp, fun hsl => hsd (hp hsl), run'.trans run⟩

end Started

section Prefixes
variable {events : List Event}

lemma SliceSound.done (hso : SliceSound env events) {before after ev}
    (split : events = before ++ ev :: after) :
    ∀ e, ev = .missionDone e → e.outcome ≠ some .pending := by
  rintro e rfl
  exact hso.step before _ after split

lemma SliceSound.startedAs (hso : SliceSound env events) :
    ∀ hb ha, events = hb ++ ha → ∀ r, latestMissionRun hb missionID = some r →
      StartedAs (foldControl env hb) missionID r := by
  refine Prefix.induction (by simp [latestMissionRun]) ?_
  intro hb ev ha split ih r hlat
  rw [latestMissionRun_concat] at hlat
  rw [foldControl_concat]
  by_cases hmi : ∃ e, ev = .missionProjected e ∧ e.id = missionID
  · obtain ⟨e, rfl, rfl⟩ := hmi
    rw [missionRun?_projected, some_or] at hlat
    rw [← some.inj hlat, control_of_current env rfl]
    refine ⟨_, findMission_projected e, ?_⟩
    cases findMission _ e.id with
    | none => simp [project, MissionProjected.newMission]
    | some m =>
      by_cases hp : m.status = .pending
      · simp [project, hp, startRun]
      by_cases hsru : m.runID = e.runID
      · simp [project, hp, hsru]
      · simp [project, hp, hsru, MissionProjected.newMission]
  · have ho : ∀ e, ev = .missionProjected e → e.id ≠ missionID :=
      fun e he hs => hmi ⟨e, he, hs⟩
    rw [missionRun?_eq_none ho, none_or] at hlat
    exact (ih r hlat).reduceControl (foldControl_wellFormed env hb) ho (hso.done split)

lemma latest_of_named (rns : RunsOrdered events) (hso : SliceSound env events)
    {before after ev} (split : events = before ++ ev :: after)
    (hnp : projectedRun ev = none) (hn : explicitRunID ev ≠ "")
    (mi : namedMission ev = some missionID) :
    ∃ r, latestMissionRun before missionID = some r := by
  have run := rns.named before ev after split hnp hn
  obtain ⟨ev', hev', run'⟩ := mem_filterMap.mp run
  cases ev'
  case missionProjected e =>
    have hsru : e.runID = explicitRunID ev := some.inj run'
    have mem : .missionProjected e ∈ events := by
      rw [split]
      exact mem_append.mpr (Or.inl hev')
    have hh : ev ∈ events := by rw [split]; simp
    have own := hso.ownRun e mem ev hh hsru.symm (by rw [hsru]; exact hn) _ mi
    rw [own]
    unfold latestMissionRun
    rw [← isSome_iff_exists, List.getLast?_isSome]
    exact ne_nil_of_mem (mem_filterMap.mpr ⟨_, hev', missionRun?_projected e⟩)
  all_goals exact absurd run' (by simp [projectedRun])

lemma work_run (rns : RunsOrdered events) (hso : SliceSound env events) :
    ∀ hb ha, events = hb ++ ha → ∀ wi ∈ (foldControl env hb).work,
      wi.missionID = missionID →
        wi.runID = "" ∨ latestMissionRun hb missionID = some wi.runID := by
  refine Prefix.induction (by simp [foldControl]) ?_
  intro hb ev ha split ih wi hwi hmi
  rw [foldControl_concat] at hwi
  rw [latestMissionRun_concat]
  have kp (none : missionRun? missionID ev = none) (h : FromItem (foldControl env hb) wi) :
      wi.runID = "" ∨
        (missionRun? missionID ev).or (latestMissionRun hb missionID) = some wi.runID := by
    obtain ⟨old, hold, -, sameMission, hsru⟩ := h
    rw [none, none_or, ← hsru]
    exact ih old hold (sameMission.trans hmi)
  cases ev
  case workDispatched e =>
    rcases mem_workDispatched hwi with old | ⟨rfl, htk⟩
    · exact kp rfl old
    by_cases hn : e.runID = ""
    · exact Or.inl hn
    have mi := congrArg some hmi
    obtain ⟨r, latest⟩ := latest_of_named rns hso split rfl hn mi
    obtain ⟨m, hf, -, run⟩ := hso.startedAs hb _ split r latest
    have nam' : e.missionID = missionID := hmi
    have hf' : findMission (foldControl env hb) e.missionID = some m := by
      rw [nam', hf]
    have hsru : m.runID = e.runID := by
      by_contra other
      exact htk (by simp [missionRunCheck, hn, hf', other])
    refine Or.inr ?_
    rw [latest, ← run, hsru]
    rfl
  case missionProjected e =>
    rcases mem_applyMissionProjected hwi with ⟨old, hsy⟩ | ⟨hth, run, -⟩
    · by_cases hs : e.id = missionID
      · subst hs
        rcases ih wi old hmi with unset | latest
        · exact Or.inl unset
        obtain ⟨m, hf, hsd, run⟩ := hso.startedAs hb _ split _ latest
        have hsru : m.runID = e.runID := by
          by_contra other
          exact hsy ⟨m, hf, hsd, other⟩ hmi
        right
        rw [missionRun?_projected, some_or, ← hsru, run]
      · exact kp (if_neg hs) (fromItem_of_mem old)
    · right
      rw [← hmi, hth, missionRun?_projected, some_or, run]
  all_goals exact kp rfl (fromItem_reduceControl (by simp) (by simp) hwi)

end Prefixes
end Gibson.Brain
