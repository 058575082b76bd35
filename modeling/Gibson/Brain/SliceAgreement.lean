import Gibson.Brain.SliceSteps

/-! When the fold of a mission's slice agrees with the fold of the whole Timeline. The Timeline is
cut at the mission's projections, and both folds are followed event by event. -/

namespace Gibson.Brain

open List Rows

section Stretches
variable {events : List Event} {missionID current : String} {run : Option String}

def inSlice (events : List Event) (missionID : String) (run : Option String) (current : String)
    (ev : Event) : Bool :=
  inMission events missionID ev && run.all (runOf current ev == ·)

lemma collect_quiet (hq : ∀ ev ∈ hstr, missionRun? missionID ev = none) (rest) :
    collect missionID run (owned events missionID) current (hstr ++ rest) =
      hstr.filter (inSlice events missionID run current) ++
        collect missionID run (owned events missionID) current rest := by
  induction hstr with
  | nil => rfl
  | cons ev hstr ih =>
    have res' := ih fun x hx => hq x (by simp [hx])
    rw [cons_append, collect, hq ev (by simp), Option.getD_none, res', filter_cons]
    unfold inSlice inMission
    split <;> rfl

lemma collect_otherRuns (ho : current ≠ r)
    (hpr : ∀ ev ∈ hstr, ∀ r', missionRun? missionID ev = some r' → r' ≠ r)
    (hn : ∀ ev ∈ hstr, explicitRunID ev ≠ "" → explicitRunID ev ≠ r) (rest) :
    ∃ current', collect missionID (some r) (owned events missionID) current (hstr ++ rest) =
      collect missionID (some r) (owned events missionID) current' rest := by
  induction hstr generalizing current with
  | nil => exact ⟨current, rfl⟩
  | cons ev hstr ih =>
    have other' : (missionRun? missionID ev).getD current ≠ r := by
      cases run : missionRun? missionID ev with
      | none => exact ho
      | some r' => exact hpr ev (by simp) r' run
    have out : (runOf ((missionRun? missionID ev).getD current) ev == r) = false := by
      unfold runOf
      split
      · simpa using other'
      · next set => simpa using hn ev (by simp) set
    obtain ⟨current', res'⟩ := ih other' (fun x hx => hpr x (by simp [hx]))
      (fun x hx => hn x (by simp [hx]))
    refine ⟨current', ?_⟩
    rw [cons_append, collect, Option.all_some, out, Bool.and_false]
    exact res'

variable (runs : RunsOrdered events) (sound : SliceSound env events) (some' : missionID ≠ "")
  (atRun : ∀ r, run = some r → current = r)
include runs sound some' atRun

lemma sameView_event {before after kept ev}
    (split : events = before ++ ev :: after) (hq : missionRun? missionID ev = none)
    (hlat : latestMissionRun before missionID = none ∨ latestMissionRun before missionID = run)
    (h : SameView missionID (foldControl env before) (foldControl env kept))
    (all : ∀ ev ∈ kept, inMission events missionID ev = true) :
    SameView missionID (foldControl env (before ++ [ev]))
      (foldControl env (kept ++ [ev].filter (inSlice events missionID run current))) := by
  rw [foldControl_concat]
  cases hmi : inMission events missionID ev with
  | false =>
    rw [filter_cons_of_neg (by simp [inSlice, hmi]), filter_nil, append_nil]
    exact (step_not_inMission sound some' split hmi).trans h
  | true =>
    cases inR : run.all (runOf current ev == ·) with
    | true =>
      rw [filter_cons_of_pos (by simp [inSlice, hmi, inR]), filter_nil, foldControl_concat]
      exact step_inMission sound split h all hmi hq
    | false =>
      rw [filter_cons_of_neg (by simp [inSlice, hmi, inR]), filter_nil, append_nil]
      refine SameView.trans ?_ h
      cases hrun : run with
      | none =>
        rw [hrun] at inR
        exact absurd inR (by simp)
      | some r =>
        rw [hrun, atRun r hrun, Option.all_some] at inR
        have hn : explicitRunID ev ≠ "" := by
          intro unset
          simp [runOf, unset] at inR
        have ho : r ≠ explicitRunID ev := by
          intro same
          simp [runOf, ← same] at inR
        have hnp : projectedRun ev = none := by
          cases ev
          case missionProjected e =>
            have same : e.id = missionID := beq_iff_eq.mp hmi
            rw [← same, missionRun?_projected] at hq
            exact absurd hq (by simp)
          all_goals rfl
        refine step_otherRun runs sound split hmi hnp hn ?_
        rcases hlat with none | same
        · rw [none]
          simp
        · rw [same, hrun]
          simpa using ho

lemma sameView_stretch : ∀ {before after kp : List Event}, events = before ++ (hstr ++ after) →
      (∀ ev ∈ hstr, missionRun? missionID ev = none) →
      (latestMissionRun before missionID = none ∨ latestMissionRun before missionID = run) →
      SameView missionID (foldControl env before) (foldControl env kp) →
      (∀ ev ∈ kp, inMission events missionID ev = true) →
      SameView missionID (foldControl env (before ++ hstr))
        (foldControl env (kp ++ hstr.filter (inSlice events missionID run current))) := by
  induction hstr with
  | nil =>
    intro before after kp _ _ _ h _
    rwa [filter_nil, append_nil, append_nil]
  | cons ev hstr ih =>
    intro before after kp split hq hlat h all
    have h1 := sameView_event runs sound some' atRun split (hq ev (by simp)) hlat h all
    have latest' : latestMissionRun (before ++ [ev]) missionID = none ∨
        latestMissionRun (before ++ [ev]) missionID = run := by
      rwa [latestMissionRun_concat, hq ev (by simp), Option.none_or]
    have all' : ∀ x ∈ kp ++ [ev].filter (inSlice events missionID run current),
        inMission events missionID x = true :=
      forall_mem_append.mpr ⟨all, fun _ new => (Bool.and_eq_true_iff.mp (mem_filter.mp new).2).1⟩
    have sp' : events = before ++ [ev] ++ (hstr ++ after) := by
      rw [split, append_assoc]
      rfl
    have cut : (ev :: hstr).filter (inSlice events missionID run current) =
        [ev].filter (inSlice events missionID run current) ++
          hstr.filter (inSlice events missionID run current) :=
      filter_append [ev] hstr
    rw [append_cons before, cut, ← append_assoc]
    exact ih sp' (fun x hx => hq x (by simp [hx])) latest' h1 all'

end Stretches

section Agreement
variable {events : List Event}

lemma exists_lastProjection (hlat : latestMissionRun events missionID = some r) :
    ∃ before e after, events = before ++ .missionProjected e :: after ∧ e.id = missionID ∧
      e.runID = r ∧ ∀ ev ∈ after, missionRun? missionID ev = none := by
  induction events using reverseRecOn with
  | nil => simp [latestMissionRun] at hlat
  | append_singleton events ev ih =>
    rw [latestMissionRun_concat] at hlat
    by_cases hmi : ∃ e, ev = .missionProjected e ∧ e.id = missionID
    · obtain ⟨e, rfl, rfl⟩ := hmi
      rw [missionRun?_projected, Option.some_or] at hlat
      exact ⟨events, e, [], rfl, rfl, Option.some.inj hlat, by simp⟩
    · have hq :=
        missionRun?_eq_none fun e he hs => hmi ⟨e, he, hs⟩
      rw [hq, Option.none_or] at hlat
      obtain ⟨before, e, after, split, hs, run, rs⟩ := ih hlat
      refine ⟨before, e, after ++ [ev], ?_, hs, run, ?_⟩
      · rw [split, append_assoc]
        rfl
      exact forall_mem_append.mpr ⟨rs, forall_mem_singleton.mpr hq⟩

variable {after : List Event}

lemma collect_projected (current) (hq : ∀ ev ∈ after, missionRun? e.id ev = none) :
    collect e.id (some e.runID) (owned events e.id) current (.missionProjected e :: after) =
      .missionProjected e :: after.filter (inSlice events e.id (some e.runID) e.runID) := by
  have kp : runOf e.runID (.missionProjected e) = e.runID := by
    unfold runOf
    split <;> rfl
  rw [collect, missionRun?_projected, Option.getD_some, Option.all_some, kp, if_pos]
  · have rs : collect e.id (some e.runID) (owned events e.id) e.runID (after ++ []) = _ :=
      collect_quiet hq []
    rw [append_nil] at rs
    rw [rs, collect, append_nil]
  · simp [eventInMission]

variable {before : List Event}

lemma projectedRun_of_missionRun?
    (run : missionRun? missionID ev = some r) : projectedRun ev = some r := by
  cases ev
  case missionProjected e =>
    simp only [missionRun?] at run
    split at run
    · exact run
    · simp at run
  all_goals simp [missionRun?] at run

section Cut
variable (split : events = before ++ .missionProjected e :: after)
include split

lemma RunsOrdered.fresh (runs : RunsOrdered events) :
    e.runID ∉ before.filterMap projectedRun ∧
      ∀ ev ∈ before, explicitRunID ev ≠ "" → explicitRunID ev ≠ e.runID := by
  have hfr : e.runID ∉ before.filterMap projectedRun := by
    have hun := runs.unique
    rw [split, filterMap_append] at hun
    intro ht
    exact (nodup_append.mp hun).2.2 _ ht _ (by simp [projectedRun]) rfl
  refine ⟨hfr, fun ev hev hn hs => hfr ?_⟩
  rw [← hs]
  cases projection : projectedRun ev with
  | some r =>
    refine mem_filterMap.mpr ⟨ev, hev, ?_⟩
    cases ev
    case missionProjected x => rfl
    all_goals simp [projectedRun] at projection
  | none =>
    obtain ⟨old, new0, cut⟩ := append_of_mem hev
    have sp' : events = old ++ ev :: (new0 ++ .missionProjected e :: after) := by
      rw [split, cut, append_assoc]
      rfl
    have mem := runs.named old ev _ sp' projection hn
    rw [cut, filterMap_append]
    exact mem_append.mpr (Or.inl mem)

lemma sameView_laterRun (sound : SliceSound env events)
    (hla : before.filterMap (missionRun? e.id) ≠ [])
    (otherRuns : ∀ ev ∈ before, ∀ r, missionRun? e.id ev = some r → r ≠ e.runID) :
    SameView e.id (foldControl env (before ++ [.missionProjected e]))
      (foldControl env [.missionProjected e]) := by
  have step := sound.step before _ after split
  obtain ⟨r, hlat⟩ : ∃ r, latestMissionRun before e.id = some r :=
    Option.isSome_iff_exists.mp (List.getLast?_isSome.mpr hla)
  obtain ⟨ev, hev, run⟩ := mem_filterMap.mp (mem_of_getLast? hlat)
  obtain ⟨m, hf, hsd, hsru⟩ := sound.startedAs before _ split r hlat
  have ho : m.runID ≠ e.runID := by
    rw [hsru]
    exact otherRuns ev hev r run
  have hfu : applyControl env (foldControl env before) (.missionProjected e) =
      launchRun (retireMissionRun env (foldControl env before) e.id) e := by
    simp [applyControl, applyMissionProjected, hf, hsd, ho]
  have hem : foldControl env [.missionProjected e] = launchRun {} e := rfl
  rw [foldControl_concat, control_of_current env rfl, hfu, hem]
  refine (sameView_retired env _ e.id).launchRun
    (step.1.retireMissionRun (foldControl_wellFormed env before)) ?_ (step.2.1 hla)
  intro n _ wi hf
  exact absurd hf (by simp [findWork])

variable (runs : RunsOrdered events) (sound : SliceSound env events) (some' : e.id ≠ "")
include runs sound some'

lemma sameView_after (hq : ∀ ev ∈ after, missionRun? e.id ev = none)
    (all : ∀ ev ∈ kept, inMission events e.id ev = true)
    (h : SameView e.id (foldControl env (before ++ [.missionProjected e])) (foldControl env (kept
      ++ [.missionProjected e]))) :
    SameView e.id (foldControl env events) (foldControl env (kept ++ .missionProjected e ::
        after.filter (inSlice events e.id (some e.runID) e.runID))) := by
  have sp' : events = before ++ [.missionProjected e] ++ (after ++ []) := by
    rw [split, append_nil, append_assoc]
    rfl
  have hlat : latestMissionRun (before ++ [.missionProjected e]) e.id = some e.runID := by
    rw [latestMissionRun_concat, missionRun?_projected, Option.some_or]
  have all' : ∀ ev ∈ kept ++ [.missionProjected e], inMission events e.id ev = true :=
    forall_mem_append.mpr ⟨all, forall_mem_singleton.mpr (by simp [inMission, eventInMission])⟩
  have atRun : ∀ r, some e.runID = some r → e.runID = r := fun r hs => Option.some.inj hs
  have rs := sameView_stretch runs sound some' atRun sp' hq (Or.inr hlat) h all'
  rw [append_nil] at sp'
  rwa [← sp', append_assoc] at rs

lemma sameView_firstRun (h1 : ∀ ev ∈ before, missionRun? e.id ev = none) :
    SameView e.id (foldControl env (before ++ [.missionProjected e]))
      (foldControl env (before.filter (inSlice events e.id (some e.runID) e.runID) ++
        [.missionProjected e])) := by
  have atRun : ∀ r, some e.runID = some r → e.runID = r := fun r hs => Option.some.inj hs
  have hstr : SameView e.id (foldControl env ([] ++ before))
      (foldControl env ([] ++ before.filter (inSlice events e.id (some e.runID) e.runID))) :=
    sameView_stretch runs sound some' atRun split h1 (Or.inl rfl) (SameView.refl _ _) (by simp)
  rw [nil_append, nil_append] at hstr
  have step := sound.step before _ after split
  have all : ∀ ev ∈ before.filter (inSlice events e.id (some e.runID) e.runID),
      inMission events e.id ev = true :=
    fun ev hev => (Bool.and_eq_true_iff.mp (mem_filter.mp hev).2).1
  have own : ∀ wi ∈ (foldControl env
      (before.filter (inSlice events e.id (some e.runID) e.runID))).work, wi.missionID = e.id :=
    work_of_inMission all
  rw [foldControl_concat, foldControl_concat, control_of_current env rfl,
    control_of_current env rfl]
  refine hstr.missionProjected (foldControl_wellFormed env _) (foldControl_wellFormed env _)
    step.1 (fun n _ wi hf => own wi (mem_of_find?_eq_some hf)) fun n _ => ?_
  rw [lookup_foldControl_filter some' _ before]
  intro ev _ hdr
  -- The rewinds of the mission name no run, so the slice has them.
  cases ev
  case missionRewound x =>
    refine if_neg fun hmi => ?_
    simp [inSlice, inMission, eventInMission, runOf, explicitRunID, hmi] at hdr
  all_goals rfl

end Cut

lemma sameView_slice (runs : RunsOrdered events) (sound : SliceSound env events)
    (some' : missionID ≠ "") :
    SameView missionID (foldControl env events)
      (foldControl env (missionSlice events missionID)) := by
  unfold missionSlice
  rw [if_neg some']
  cases hlat : latestMissionRun events missionID with
  | none =>
    have hq :=
      filterMap_eq_nil_iff.mp (List.getLast?_eq_none_iff.mp hlat)
    have sli : collect missionID none (owned events missionID)
        (firstMissionRun events missionID) (events ++ []) = _ := collect_quiet hq []
    rw [append_nil] at sli
    rw [sli, collect, append_nil]
    have split : events = [] ++ (events ++ []) := by simp
    exact sameView_stretch runs sound some' (by simp) split hq (Or.inl rfl)
      (SameView.refl _ _) (by simp)
  | some r =>
    obtain ⟨before, e, after, split, rfl, rfl, hq⟩ := exists_lastProjection hlat
    obtain ⟨hfr, hn⟩ := runs.fresh split
    have otherRuns : ∀ ev ∈ before, ∀ r, missionRun? e.id ev = some r → r ≠ e.runID := by
      intro ev hev r run hs
      exact hfr (mem_filterMap.mpr ⟨ev, hev, hs ▸ projectedRun_of_missionRun? run⟩)
    by_cases h1 : before.filterMap (missionRun? e.id) = []
    · have firstRun : firstMissionRun events e.id = e.runID := by
        unfold firstMissionRun
        rw [split, filterMap_append, h1]
        simp [missionRun?_projected]
      have quietBefore := filterMap_eq_nil_iff.mp h1
      have sli : collect e.id (some e.runID) (owned events e.id) e.runID
          (before ++ .missionProjected e :: after) = _ := collect_quiet quietBefore _
      rw [collect_projected e.runID hq, ← split] at sli
      rw [firstRun, sli]
      refine sameView_after split runs sound some' hq ?_
        (sameView_firstRun split runs sound some' quietBefore)
      exact fun ev hev => (Bool.and_eq_true_iff.mp (mem_filter.mp hev).2).1
    · have firstRun : firstMissionRun events e.id ≠ e.runID := by
        obtain ⟨r, rs, runsOf⟩ := exists_cons_of_ne_nil h1
        have hd : r ∈ before.filterMap (missionRun? e.id) := by simp [runsOf]
        obtain ⟨ev, hev, run⟩ := mem_filterMap.mp hd
        unfold firstMissionRun
        rw [split, filterMap_append, runsOf]
        exact otherRuns ev hev r run
      have sli : ∃ current, collect e.id (some e.runID) (owned events e.id)
          (firstMissionRun events e.id) (before ++ .missionProjected e :: after) = _ :=
        collect_otherRuns firstRun otherRuns hn _
      obtain ⟨current, sli⟩ := sli
      rw [collect_projected current hq, ← split] at sli
      rw [sli]
      exact sameView_after split runs sound some' hq (forall_mem_nil _)
        (sameView_laterRun split sound h1 otherRuns)

end Agreement

def eventMission : Event → Option String
  | .missionCreated e | .missionStarted e | .missionProjected e | .missionPauseRequested e
  | .missionResumed e | .missionDone e => some e.id
  | .missionRewound e | .missionOriginated e | .workDispatched e | .decisionRequested e
  | .decisionCompleted e | .tokenUsed e | .hostObserved e | .findingRaised e | .entityObserved e
  | .findingStatusChanged e | .scanReconciled e | .llmCallObserved e
  | .betProofSubmittedForReview e | .agentToolCallObserved e | .voiPlanRequested e
  | .voiPlanned e | .observationRecorded e | .hypothesisObserved e | .edgeOutcomeObserved e
  | .betSettledTrue e | .betSettledFalse e | .betSettledByHITL e | .destructiveActionRequested e =>
    some e.missionID
  | _ => none

def eventWork : Event → Option String
  | .workRetried e | .workCompleted e | .conditionResolved e => some e.id
  | _ => none

/-- An event belongs to the mission it names, and to one that was given the work item it names. -/
def BelongsTo (events : List Event) (missionID : String) (ev : Event) : Prop :=
  eventMission ev = some missionID ∨
    ∃ id, eventWork ev = some id ∧ ∃ given ∈ events, attaches missionID id given = true

/-- The same mission entity, work up to the completion order, and decisions. -/
structure SameMission (missionID : String) (c c' : Control) : Prop where
  mission : findMission c missionID = findMission c' missionID
  work : ((c.work.filter (·.missionID == missionID)).map WorkItem.unsequenced).Perm
    ((c'.work.filter (·.missionID == missionID)).map WorkItem.unsequenced)
  decisions : (c.decisions.filter (·.missionID == missionID)).Perm
    (c'.decisions.filter (·.missionID == missionID))

lemma SameMission.refl (missionID c) : SameMission missionID c c :=
  ⟨rfl, List.Perm.refl _, List.Perm.refl _⟩

lemma nodup_unsequenced (wf : WellFormed c) (missionID) :
    ((c.work.filter (·.missionID == missionID)).map WorkItem.unsequenced).Nodup := by
  have ids : (((c.work.filter (·.missionID == missionID)).map WorkItem.unsequenced).map
      WorkItem.id).Nodup := by
    rw [map_map]
    exact wf.workIDs.sublist (filter_sublist.map _)
  exact List.Nodup.of_map _ ids

variable {missionID : String}

lemma SameView.mem_unsequenced (h : SameView missionID c c') (wf : WellFormed c)
    (mem : x ∈ (c.work.filter (·.missionID == missionID)).map WorkItem.unsequenced) :
    x ∈ (c'.work.filter (·.missionID == missionID)).map WorkItem.unsequenced := by
  obtain ⟨wi, hwi, rfl⟩ := mem_map.mp mem
  obtain ⟨ht, hmi⟩ := mem_filter.mp hwi
  have hf : findWork c wi.id = some wi := findWork_of_mem wf ht
  have own :=
    ownWork_of_findWork hf (beq_iff_eq.mp hmi)
  obtain ⟨wi', own', hs⟩ := h.ownWork_some own
  obtain ⟨hf', min'⟩ := findWork_of_ownWork own'
  rw [hs]
  refine mem_map.mpr ⟨wi', mem_filter.mpr ⟨?_, by simpa using min'⟩, rfl⟩
  exact mem_of_find?_eq_some hf'

lemma SameView.sameMission (h : SameView missionID c c') (wf : WellFormed c)
    (wf' : WellFormed c') : SameMission missionID c c' := by
  refine ⟨h.mission, ?_, h.decisions.perm⟩
  refine (perm_ext_iff_of_nodup (nodup_unsequenced wf _) (nodup_unsequenced wf' _)).mpr ?_
  exact fun x => ⟨h.mem_unsequenced wf, h.symm.mem_unsequenced wf'⟩

lemma inMission_of_mem_collect
    (h : ev ∈ collect missionID run (owned events missionID) current list) :
    inMission events missionID ev = true := by
  induction list generalizing current with
  | nil => simp [collect] at h
  | cons x rs ih =>
    simp only [collect] at h
    split at h
    · next kp =>
      rcases mem_cons.mp h with rfl | later
      · exact (Bool.and_eq_true_iff.mp kp).1
      · exact ih later
    · exact ih h

/-- The fold of a mission's slice agrees with that of the whole Timeline on the mission, for every
history whose steps a slice can follow. -/
theorem slice_agrees (env : Env) (tenant : String) {events : List Event}
    (runs : RunsOrdered events) (sound : SliceSound env events) (missionID : String) :
    SameMission missionID (replay env tenant events).control
        (replay env tenant (missionSlice events missionID)).control ∧
      (missionID ≠ "" → ∀ ev ∈ missionSlice events missionID, BelongsTo events missionID ev) := by
  constructor
  · rw [replay_control, replay_control]
    by_cases hunn : missionID = ""
    · rw [missionSlice, if_pos hunn]
      exact SameMission.refl _ _
    · exact (sameView_slice runs sound hunn).sameMission (foldControl_wellFormed env _)
        (foldControl_wellFormed env _)
  · intro hn ev hev
    rw [missionSlice, if_neg hn] at hev
    have hmi := inMission_of_mem_collect hev
    cases ev
    case workRetried e | workCompleted e | conditionResolved e =>
      exact Or.inr ⟨e.id, rfl, by simpa [owned] using any_eq_true.mp hmi⟩
    all_goals
      left
      simp_all [inMission, eventInMission, eventMission]

def lateCompletion : List Event :=
  [.missionProjected { id := "m", runID := "r1", nodes := [{ id := "n", kind := .agent }] },
   .workDispatched { id := "m/n", missionID := "m", runID := "r1", itemKind := .agent },
   .missionProjected { id := "m", runID := "r2", nodes := [{ id := "n", kind := .agent }] },
   .workCompleted { id := "m/n", runID := "r1" }]

lemma missionID_of_all {hf : Option WorkItem} (h : hf.all (·.missionID == missionID) = true) :
    ∀ wi, hf = some wi → wi.missionID = missionID := by
  rintro wi rfl
  simpa using h

lemma lateCompletion_sliceSound : SliceSound Env.plain lateCompletion := by
  constructor
  · simp [lateCompletion, explicitRunID, namedMission]
  refine Prefix.forall_split ⟨⟨?_, ?_, ?_⟩, ?_, ⟨?_, ?_, ?_⟩, trivial, trivial⟩
  · intro n _ wi hf
    exact absurd hf (by simp [foldControl, findWork])
  · exact fun hag => absurd rfl hag
  · rintro ⟨m, hf, -⟩
    exact absurd hf (by simp [foldControl, findMission])
  · exact missionID_of_all (by decide)
  · intro n hn
    rw [mem_singleton.mp hn]
    exact missionID_of_all (by decide)
  · intro _ n hn
    rw [mem_singleton.mp hn]
    decide
  · intro _ missionID _
    have none : (foldControl Env.plain (lateCompletion.take 2)).decisions = [] := by rfl
    exact (congrArg (fun ds => (ds.filter (isOpenDecision missionID)).length) none).trans_le
      (by simp)

theorem slice_agrees_lateCompletion : SameMission "m" (replay Env.plain "t" lateCompletion).control
        (replay Env.plain "t" (missionSlice lateCompletion "m")).control ∧
      ("m" ≠ "" → ∀ ev ∈ missionSlice lateCompletion "m", BelongsTo lateCompletion "m" ev) :=
  slice_agrees Env.plain "t" ⟨by decide, Prefix.forall_split (by
    simp [lateCompletion, Prefix.All, projectedRun, explicitRunID])⟩ lateCompletion_sliceSound "m"

def lateRequest : List Event :=
  [.missionProjected { id := "m", runID := "r1" }, .missionProjected { id := "m", runID := "r2" },
   .decisionRequested { missionID := "m", cursor := 0, runID := "r1" }]

/-- The whole fold opens the decision, the fold of the slice has no decision. -/
theorem slice_misses_lateRequest : RunsOrdered lateRequest ∧
      ¬SameMission "m" (replay Env.plain "t" lateRequest).control
        (replay Env.plain "t" (missionSlice lateRequest "m")).control := by
  constructor
  · refine ⟨by decide, Prefix.forall_split ?_⟩
    simp [lateRequest, Prefix.All, projectedRun, explicitRunID]
  intro hs
  have hcts := hs.decisions.length_eq
  revert hcts
  decide

end Gibson.Brain
