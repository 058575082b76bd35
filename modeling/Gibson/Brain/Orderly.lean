import Gibson.Brain.Ceiling
import Gibson.Brain.Outstanding

/-! The events of the Systems are in order, each in the World that the ones before it left. -/

namespace Gibson.Brain

open List Rows WorkItem

variable {env : Env} {trusted : Event → Prop} {c : Control}

/-- Each event is trusted, or starts no run and is in order in the World that those before it
leave. -/
def Orderly (env : Env) (trusted : Event → Prop) : Control → List Event → Prop
  | _, [] => True
  | c, ev :: rest =>
    (trusted ev ∨ WorkInOrder c ev ∧ startsRun c ev = none) ∧
      Orderly env trusted (reduceControl env c ev) rest

def Always (ev : Event) : Prop := ∀ c, WorkInOrder c ev ∧ startsRun c ev = none

variable {evs : List Event}

lemma orderly_of_stable {P : Control → Event → Prop}
    (admits : ∀ {c ev}, P c ev → WorkInOrder c ev ∧ startsRun c ev = none)
    (hkp : ∀ {c ev ev'}, P c ev → P c ev' → P (reduceControl env c ev) ev')
    (now : ∀ ev ∈ evs, P c ev) : Orderly env trusted c evs := by
  induction evs generalizing c with
  | nil => trivial
  | cons ev rs ih =>
    have h1 := now ev mem_cons_self
    exact ⟨.inr (admits h1), ih fun x mem => hkp h1 (now x (mem_cons_of_mem _ mem))⟩

lemma orderly_of_always (alw : ∀ ev ∈ evs, Always ev) : Orderly env trusted c evs :=
  orderly_of_stable (P := fun _ ev => Always ev) (fun alw => alw _) (fun _ hla => hla)
    alw

lemma Orderly.append (h : Orderly env trusted c xs)
    (hlt : ∀ ev ∈ ys, trusted ev ∨ Always ev) : Orderly env trusted c (xs ++ ys) := by
  induction xs generalizing c with
  | nil =>
    clear h
    induction ys generalizing c with
    | nil => trivial
    | cons ev rs ih =>
      refine ⟨(hlt ev mem_cons_self).imp_right fun alw => alw c, ?_⟩
      exact ih fun x mem => hlt x (mem_cons_of_mem _ mem)
  | cons ev rs ih => exact ⟨h.1, ih h.2⟩

/-- It emits orderly events. -/
structure Regular (env : Env) (sys : World → List Event) : Prop where
  orderly : ∀ {trusted w}, WellFormed w.control → Ready w.control →
    Orderly env trusted w.control (sys w)
  plain : ∀ {w}, ∀ ev ∈ sys w, decisionRequest? ev = none ∧ closedDecision? ev = none

def isPassive : Event → Bool
  | .missionCreated _ | .missionStarted _ | .missionProjected _ | .missionDone _
  | .workDispatched _ | .workRetried _ | .workCompleted _ | .conditionResolved _
  | .decisionRequested _ | .decisionCompleted _ => false
  | _ => true

variable {ev : Event}

lemma always_of_passive (passive : isPassive ev = true) : Always ev := by
  intro c
  cases ev <;> first | exact ⟨trivial, rfl⟩ | simp [isPassive] at passive

lemma regular_of_passive (passive : ∀ w, ∀ ev ∈ sys w, isPassive ev = true) : Regular env sys where
  orderly _ _ := orderly_of_always fun ev mem => always_of_passive (passive _ ev mem)
  plain ev mem := by
    have passive := passive _ ev mem
    cases ev <;> first | exact ⟨rfl, rfl⟩ | simp [isPassive] at passive

lemma regular_of_done
    (hdn : ∀ w, ∀ ev ∈ sys w, ∃ e, ev = .missionDone e ∧ e.status.isTerminal = true) :
    Regular env sys where
  orderly _ _ := orderly_of_always fun ev mem => by
    obtain ⟨e, rfl, hter⟩ := hdn _ ev mem
    exact fun c => ⟨hter, rfl⟩
  plain ev mem := by
    obtain ⟨e, rfl, -⟩ := hdn _ ev mem
    exact ⟨rfl, rfl⟩

lemma budgetSystem_done (w) :
    ∀ ev ∈ budgetSystem w, ∃ e, ev = .missionDone e ∧ e.status.isTerminal = true := by
  intro ev mem
  obtain ⟨m, -, hsa⟩ := mem_filterMap.mp mem
  unfold budgetEvent? at hsa
  simp only at hsa
  split at hsa
  · cases hsa
  split at hsa
  · exact ⟨_, (Option.some.inj hsa).symm, rfl⟩
  split at hsa
  · exact ⟨_, (Option.some.inj hsa).symm, rfl⟩
  · cases hsa

lemma missionCompletionSystem_done (w) :
    ∀ ev ∈ missionCompletionSystem w, ∃ e, ev = .missionDone e ∧ e.status.isTerminal = true := by
  intro ev mem
  obtain ⟨m, -, hsa⟩ := mem_filterMap.mp mem
  unfold completionEvent? at hsa
  simp only at hsa
  split at hsa
  · cases hsa
  split at hsa
  · cases hsa
  · split at hsa <;> exact ⟨_, (Option.some.inj hsa).symm, rfl⟩

lemma surpriseFindingSystem_passive (w) : ∀ ev ∈ surpriseFindingSystem w, isPassive ev = true :=
  forall_mem_map.mpr fun _ _ => rfl

lemma voiGateSystem_passive (w) : ∀ ev ∈ voiGateSystem w, isPassive ev = true := by
  intro ev mem
  obtain ⟨m, -, hsa⟩ := mem_filterMap.mp mem
  unfold planEvent? at hsa
  simp only at hsa
  split at hsa
  · cases hsa
  split at hsa
  · rw [← Option.some.inj hsa]
    rfl
  split at hsa
  · cases hsa
  · rw [← Option.some.inj hsa]
    rfl

lemma rescanReconciliationSystem_passive (w) :
    ∀ ev ∈ rescanReconciliationSystem w, isPassive ev = true := by
  refine forall_mem_flatMap.mpr fun m _ => forall_mem_cons.mpr ⟨rfl, ?_⟩
  split
  · exact forall_mem_nil _
  · exact forall_mem_map.mpr fun f _ => rfl

def ItemsMove (c c' : Control) : Prop :=
  ∀ id wi', findWork c' id = some wi' → ∃ wi, findWork c id = some wi ∧
    wi'.kind = wi.kind ∧ (wi'.state = .pending → wi.state = .pending)

lemma itemsMove_update {id} {f : WorkItem → WorkItem} (ids : ∀ wi, (f wi).id = wi.id)
    (kd : ∀ wi, (f wi).kind = wi.kind)
    (st : ∀ wi, (f wi).state = .pending → wi.state = .pending) :
    ItemsMove c (updateWork c id f) := by
  intro id' wi' hf
  rw [findWork_updateWork ids] at hf
  split at hf
  · next hs =>
    obtain ⟨wi, old, rfl⟩ := Option.map_eq_some_iff.mp hf
    exact ⟨wi, beq_iff_eq.mp hs ▸ old, kd wi, st wi⟩
  · exact ⟨wi', hf, rfl, fun hp => hp⟩

lemma ItemsMove.trans (h : ItemsMove c c') (h' : ItemsMove c' c'') : ItemsMove c c'' := by
  intro id wi'' hf
  obtain ⟨wi', hf', kin', sta'⟩ := h' id wi'' hf
  obtain ⟨wi, hf, kd, st⟩ := h id wi' hf'
  exact ⟨wi, hf, kin'.trans kd, fun hp => st (sta' hp)⟩

lemma ItemsMove.refl (c) : ItemsMove c c :=
  fun _ wi hf => ⟨wi, hf, rfl, fun hp => hp⟩

lemma itemsMove_workCompleted (e) : ItemsMove c (applyWorkCompleted c e) := by
  have completed : ItemsMove c (updateWork c e.id (complete e (c.nextCompletedSeq + 1))) := by
    refine itemsMove_update (complete_id e _) (fun wi => ?_) fun wi hp => ?_
    · unfold complete
      split <;> rfl
    · unfold complete at hp
      split at hp <;> simp at hp
  unfold applyWorkCompleted
  cases findWork c e.id with
  | none => exact .refl c
  | some wi =>
    dsimp only
    split
    · exact .refl c
    · exact completed

lemma itemsMove_conditionResolved (e) : ItemsMove c (applyConditionResolved c e) := by
  have hrsv : ItemsMove c (updateWork c e.id (resolve e.result)) := by
    refine itemsMove_update (resolve_id e.result) (fun wi => ?_) fun wi hp => ?_
    · unfold resolve
      split <;> rfl
    unfold resolve at hp
    split at hp
    · simp at hp
    · exact hp
  refine List.foldlRecOn (motive := fun c' => ItemsMove c c') e.skip _ hrsv fun c' sf id _ => ?_
  refine sf.trans (itemsMove_update skip_id (fun wi => ?_) fun wi hp => ?_)
  · unfold skip
    split <;> rfl
  unfold skip at hp
  split at hp
  · simp at hp
  · exact hp

/-- The failure of an item that did not wait, or of a condition or a join, and the resolution of a
condition. -/
def Resolves (c : Control) (ev : Event) : Prop :=
  (∃ e, ev = .workCompleted e ∧ WorkInOrder c ev) ∨ ∃ e, ev = .conditionResolved e

lemma itemsMove_of_resolves (res : Resolves c ev) : ItemsMove c (reduceControl env c ev) := by
  unfold reduceControl
  split
  · exact .refl c
  rcases res with ⟨e, rfl, -⟩ | ⟨e, rfl⟩
  · exact itemsMove_workCompleted e
  · exact itemsMove_conditionResolved e

lemma regular_of_resolves (res : ∀ {w}, ∀ ev ∈ sys w,
      (WellFormed w.control → Resolves w.control ev) ∧ decisionRequest? ev = none ∧
        closedDecision? ev = none) : Regular env sys where
  orderly wf _ := by
    refine orderly_of_stable (P := Resolves) ?_ ?_ fun ev mem => (res ev mem).1 wf
    · rintro c ev (⟨e, rfl, hor⟩ | ⟨e, rfl⟩)
      · exact ⟨hor, rfl⟩
      · exact ⟨trivial, rfl⟩
    · rintro c ev ev' h1 (⟨e, rfl, hor⟩ | ⟨e, rfl⟩)
      · refine .inl ⟨e, rfl, fun wi' hf hp => ?_⟩
        obtain ⟨wi, old, kd, st⟩ := itemsMove_of_resolves h1 e.id wi' hf
        rw [kd]
        exact hor wi old (st hp)
      · exact .inr ⟨e, rfl⟩
  plain ev mem := (res ev mem).2

lemma resolves_of_kind (wf : WellFormed c) (mem : wi ∈ c.work)
    (kd : wi.kind.isResolved = true) (err result) :
    Resolves c (.workCompleted { id := wi.id, err, result }) := by
  refine .inl ⟨_, rfl, fun wi' hf _ => .inl ?_⟩
  cases (findWork_of_mem wf mem).symm.trans hf
  exact kd

lemma conditionEvent_cases (C c wi) :
    conditionEvent C c wi = malformedCondition wi ∨
      ∃ e, conditionEvent C c wi = .conditionResolved e ∧ e.id = wi.id := by
  unfold conditionEvent
  split
  · exact .inl rfl
  split
  · exact .inl rfl
  · exact .inr ⟨_, rfl, rfl⟩

lemma regular_conditionSystem (C) : Regular env (conditionSystem C) := by
  refine regular_of_resolves fun {w} => forall_mem_map.mpr fun wi hl => ?_
  obtain ⟨ht, hry⟩ := mem_filter.mp hl
  rw [conditionReady, Bool.and_eq_true, Bool.and_eq_true, beq_iff_eq] at hry
  rcases conditionEvent_cases C w.control wi with mal | ⟨e, hrsv, -⟩
  · rw [mal]
    refine ⟨fun wf => ?_, rfl, rfl⟩
    exact resolves_of_kind wf (mem_workSnapshot.mp ht) (by rw [hry.1.1]; rfl) _ _
  · rw [hrsv]
    exact ⟨fun _ => .inr ⟨e, rfl⟩, rfl, rfl⟩

lemma joinEvent_completes (J) (idx : String → Option WorkItem) (wi) :
    ∃ err result, joinEvent J idx wi = .workCompleted { id := wi.id, err, result } := by
  unfold joinEvent
  split
  · exact ⟨_, _, rfl⟩
  · split <;> exact ⟨_, _, rfl⟩

lemma regular_joinSystem (J) : Regular env (joinSystem J) := by
  refine regular_of_resolves fun {w} => forall_mem_map.mpr fun wi hl => ?_
  obtain ⟨ht, hry⟩ := mem_filter.mp hl
  rw [joinReady, Bool.and_eq_true, Bool.and_eq_true, beq_iff_eq] at hry
  obtain ⟨err, res, event⟩ := joinEvent_completes J (workIndex w.control.workSnapshot) wi
  rw [event]
  refine ⟨fun wf => ?_, rfl, rfl⟩
  exact resolves_of_kind wf (mem_workSnapshot.mp ht) (by rw [hry.1.1]; rfl) _ _

lemma regular_resumeFailInFlight : Regular env resumeFailInFlight := by
  refine regular_of_resolves fun {w} => forall_mem_map.mpr fun wi hl => ⟨fun wf => ?_, rfl, rfl⟩
  obtain ⟨ht, hr⟩ := mem_filter.mp hl
  refine .inl ⟨_, rfl, fun wi' hf hp => ?_⟩
  have own := (findWork_of_mem wf (mem_workSnapshot.mp ht)).symm.trans hf
  rw [← Option.some.inj own, beq_iff_eq.mp hr] at hp
  cases hp

def Starts (c : Control) (ev : Event) : Prop :=
  WellFormed c ∧ Ready c ∧ ∃ e wi, ev = .workDispatched e ∧ findWork c e.id = some wi ∧
    WorkInOrder c ev

lemma findWork_congr (hs : c'.work = c.work) (id) : findWork c' id = findWork c id := by
  rw [findWork, hs]
  rfl

lemma Starts.keeps (h1 : Starts c ev) (next : Starts c ev') :
    Starts (reduceControl env c ev) ev' := by
  obtain ⟨wf, hry, e, wi, rfl, hf, hor⟩ := h1
  obtain ⟨-, -, e', wi', rfl, found', order'⟩ := next
  have hadv : Advances c (reduceControl env c (.workDispatched e)) := by
    unfold reduceControl
    split
    · exact .congr hry rfl
    · exact advances_workDispatched wf hry hor
  refine ⟨wellFormed_reduceControl env wf _, hadv.ready, ?_⟩
  -- The item of the next event is as it was, or it was started.
  have item : findWork (reduceControl env c (.workDispatched e)) e'.id = some wi' ∨
      findWork (reduceControl env c (.workDispatched e)) e'.id = some (wi'.redispatch e) := by
    rcases work_workDispatched env c e with hs | ⟨-, -, started⟩ | ⟨free, -⟩
    · exact .inl ((findWork_congr hs e'.id).trans found')
    · have hw := (findWork_congr (c := updateWork c e.id (redispatch e)) started e'.id)
      rw [hw, findWork_updateWork (redispatch_id e)]
      split
      · next hs =>
        rw [← beq_iff_eq.mp hs, found']
        exact .inr rfl
      · exact .inl found'
    · rw [hf] at free
      cases free
  obtain ⟨mission, run, hunt, met⟩ := order' wi' found'
  rcases item with hs | started
  · refine ⟨e', wi', rfl, hs, fun x ht => ?_⟩
    rw [← Option.some.inj (hs.symm.trans ht)]
    exact ⟨mission, run, hunt, hadv.deps met⟩
  · refine ⟨e', wi'.redispatch e, rfl, started, fun x ht => ?_⟩
    rw [← Option.some.inj (started.symm.trans ht)]
    exact ⟨mission, run, unsettled_of_not_terminal rfl, hadv.deps met⟩

lemma regular_schedulerSystem : Regular env schedulerSystem where
  orderly {_ w} wf ready := by
    refine orderly_of_stable (P := Starts) ?_ Starts.keeps fun ev mem => ?_
    · rintro c ev ⟨-, -, e, wi, rfl, -, hor⟩
      exact ⟨hor, rfl⟩
    obtain ⟨wi, hl, able, rfl⟩ := mem_schedule mem
    rw [isReady, Bool.and_eq_true, Bool.and_eq_true, Bool.and_eq_true, beq_iff_eq] at able
    obtain ⟨⟨⟨hp, -⟩, -⟩, sat⟩ := able
    have hf := findWork_of_mem wf (mem_workSnapshot.mp hl)
    refine ⟨wf, ready, _, wi, rfl, hf, fun x ht => ?_⟩
    rw [← Option.some.inj (hf.symm.trans ht)]
    have met := (depsSatisfied_iff wf).mp sat
    exact ⟨rfl, by simp [takesRun], unsettled_of_not_terminal (by rw [hp]; rfl), met⟩
  plain {w} ev mem := by
    obtain ⟨wi, -, -, rfl⟩ := mem_schedule mem
    exact ⟨rfl, rfl⟩

lemma retry_id (wi : WorkItem) : wi.retry.id = wi.id := by
  unfold retry
  split <;> rfl

lemma retry_not_failed (wi : WorkItem) : wi.retry.state ≠ .failed := by
  unfold retry
  split
  · simp
  · assumption

def Rearms (c : Control) (ev : Event) : Prop := ∃ e, ev = .workRetried e ∧ WorkInOrder c ev

lemma regular_retrySystem : Regular env retrySystem where
  orderly {_ w} wf ready := by
    refine orderly_of_stable (P := Rearms) ?_ ?_ fun ev mem => ?_
    · rintro c ev ⟨e, rfl, hor⟩
      exact ⟨hor, rfl⟩
    · rintro c ev ev' ⟨e, rfl, -⟩ ⟨e', rfl, ord'⟩
      refine ⟨e', rfl, fun wi hf hfa => ?_⟩
      have hfo : reduceControl env c (.workRetried e) = updateWork c e.id retry := rfl
      rw [hfo, findWork_updateWork retry_id] at hf
      split at hf
      · obtain ⟨x, -, rfl⟩ := Option.map_eq_some_iff.mp hf
        exact absurd hfa (retry_not_failed x)
      · exact ord' wi hf hfa
    · obtain ⟨wi, hl, rfl⟩ := mem_map.mp mem
      obtain ⟨ht, owed⟩ := mem_filter.mp hl
      refine ⟨_, rfl, fun x hf _ => ?_⟩
      rw [← Option.some.inj ((findWork_of_mem wf (mem_workSnapshot.mp ht)).symm.trans hf)]
      simp only [Bool.and_eq_true] at owed
      simp [settled, retries, owed]
  plain := forall_mem_map.mpr fun _ _ => ⟨rfl, rfl⟩

def NoRetries (c : Control) : Prop :=
  ∀ m ∈ c.missions, m.status = .running → ∀ wi ∈ c.work, wi.missionID = m.id → wi.retries = false

lemma noRetries_retrySystem (wf : WellFormed w.control) :
    NoRetries (reduceAll env w (retrySystem w)).control := by
  -- The items that are owed a retry, and the fold of their retries.
  let owed : List WorkItem := w.control.workSnapshot.filter fun wi =>
    !wi.kind.isResolved && !isHalted (pausedMissions w.control) wi && wi.state == .failed &&
      decide (wi.attempts ≤ wi.maxRetries)
  let rea : Control :=
    (owed.map WorkItem.id).foldl (fun c id => updateWork c id WorkItem.retry) w.control
  have fol : (reduceAll env w (retrySystem w)).control = rea := by
    rw [reduceAll_control, retrySystem, foldl_map]
    exact (foldl_map (f := WorkItem.id) (g := fun c id => updateWork c id WorkItem.retry)).symm
  have ms : rea.missions = w.control.missions :=
    List.foldlRecOn (motive := fun c : Control => c.missions = w.control.missions) _ _ rfl
      fun _ hs _ _ => hs
  have wf' : WellFormed rea := by
    rw [← fol, reduceAll_control]
    exact List.foldlRecOn _ _ wf fun c h ev _ => wellFormed_reduceControl env h ev
  rw [fol]
  intro m mem hr wi ht mi
  rw [ms] at mem
  have hf := findWork_of_mem wf' ht
  rw [findWork_updateAll retry_id fun wi => if_neg (retry_not_failed wi)] at hf
  rw [← Bool.not_eq_true]
  intro rt
  have hfa : wi.state = .failed ∧ wi.kind.isResolved = false ∧ wi.attempts ≤ wi.maxRetries := by
    simpa [WorkItem.retries, and_assoc] using rt
  split at hf
  · obtain ⟨x, -, rfl⟩ := Option.map_eq_some_iff.mp hf
    exact retry_not_failed x hfa.1
  next unl =>
  refine unl (mem_map_of_mem (mem_filter.mpr ⟨?_, ?_⟩))
  · exact mem_workSnapshot.mpr (mem_of_findWork hf)
  have active : isHalted (pausedMissions w.control) wi = false := by
    rw [isHalted, Bool.and_eq_false_iff]
    refine .inr ?_
    rw [pausedMissions, any_eq_false]
    intro x hl
    rw [Bool.and_eq_true, beq_iff_eq, bne_iff_ne, mi]
    rintro ⟨hs, paused⟩
    exact paused (inj_on_of_nodup_map wf.missionIDs (mem_sortBy.mp hl) mem hs ▸ hr)
  simp [hfa, active]

lemma terminalWorkCount_eq (hq : NoRetries c) (mem : m ∈ c.missions)
    (hr : m.status = .running) :
    terminalWorkCount c.workSnapshot m.id = settledCount c m.id := by
  unfold terminalWorkCount settledCount
  rw [(workSnapshot_perm c).countP_eq]
  refine countP_congr fun wi ht => ?_
  rw [Bool.and_eq_true, Bool.and_eq_true, beq_iff_eq]
  refine and_congr_right fun mi => ?_
  rw [settled, hq m mem hr wi ht mi, Bool.not_false, Bool.and_true]

end Gibson.Brain
