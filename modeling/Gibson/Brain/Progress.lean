import Gibson.Brain.Decider
import Gibson.Brain.Reachable

/-! Whether a mission can still get somewhere. Settled work never moves again; active work runs, is
owed a retry or has its dependencies met, and stays active or settles. -/

namespace Gibson.Brain

open List Rows WorkItem WorkState

def WorkItem.retries (wi : WorkItem) : Bool :=
  wi.state == .failed && !wi.kind.isResolved && decide (wi.attempts ≤ wi.maxRetries)

def WorkItem.settled (wi : WorkItem) : Bool := wi.state.isTerminal && !wi.retries

def settledCount (c : Control) (missionID : String) : Nat :=
  c.work.countP fun wi => wi.missionID == missionID && wi.settled

def DepsMet (c : Control) (deps : List String) : Prop :=
  ∀ d ∈ deps, ∃ dep ∈ c.work, dep.id = d ∧ dep.satisfies = true

lemma depsSatisfied_iff (wf : WellFormed c) :
    depsSatisfied deps (workIndex c.workSnapshot) = true ↔ DepsMet c deps := by
  have ind (id : String) (wi : WorkItem) :
      workIndex c.workSnapshot id = some wi ↔ wi ∈ c.work ∧ wi.id = id := by
    have ids :=
      (((reverse_perm _).trans (workSnapshot_perm c)).map _).nodup_iff.mpr wf.workIDs
    rw [workIndex, find?_key_iff ids, mem_reverse, mem_workSnapshot]
  rw [depsSatisfied, all_eq_true]
  refine forall_congr' fun d => imp_congr_right fun _ => ?_
  constructor
  · intro hf
    cases hk : workIndex c.workSnapshot d with
    | none => simp [hk] at hf
    | some dep =>
      rw [hk] at hf
      exact ⟨dep, ((ind d dep).mp hk).1, ((ind d dep).mp hk).2, hf⟩
  · rintro ⟨dep, mem, rfl, hsat⟩
    rwa [(ind dep.id dep).mpr ⟨mem, rfl⟩]

def Active (c : Control) (wi : WorkItem) : Prop :=
  wi.state = .running ∨ wi.retries = true ∨ wi.state = .pending ∧ DepsMet c wi.dependsOn

def Busy (c : Control) (missionID : String) : Prop :=
  ∃ wi ∈ c.work, wi.missionID = missionID ∧ Active c wi

def Ready (c : Control) : Prop :=
  ∀ wi ∈ c.work, wi.state = .running ∨ wi.retries = true → DepsMet c wi.dependsOn

/-- No settled work is undone. -/
structure WorkKept (c c' : Control) (missionID : String) : Prop where
  settled : settledCount c missionID ≤ settledCount c' missionID
  busy : Busy c missionID → Busy c' missionID ∨ settledCount c missionID < settledCount c' missionID

lemma WorkKept.trans {c c' c'' missionID} (h : WorkKept c c' missionID)
    (h' : WorkKept c' c'' missionID) : WorkKept c c'' missionID := by
  refine ⟨Nat.le_trans h.settled h'.settled, fun hbus => ?_⟩
  rcases h.busy hbus with hbus | more
  · exact (h'.busy hbus).imp_right (Nat.lt_of_le_of_lt h.settled)
  · exact .inr (Nat.lt_of_lt_of_le more h'.settled)

/-- Progress is never undone. -/
structure Advances (c c' : Control) : Prop where
  deps : ∀ {ds}, DepsMet c ds → DepsMet c' ds
  kept : ∀ missionID, WorkKept c c' missionID
  ready : Ready c'

lemma Advances.trans (h : Advances c c') (h' : Advances c' c'') : Advances c c'' :=
  ⟨fun met => h'.deps (h.deps met), fun id => (h.kept id).trans (h'.kept id), h'.ready⟩

section Store
variable {c : Control}

lemma Ready.congr (hry : Ready c) (hs : c'.work = c.work) : Ready c' := by
  unfold Ready DepsMet
  rwa [hs]

lemma WorkKept.congr (hs : c'.work = c.work) (missionID) : WorkKept c c' missionID := by
  constructor
  · exact Nat.le_of_eq (congrArg (countP _) hs).symm
  intro hbus
  unfold Busy Active DepsMet at hbus ⊢
  rw [hs]
  exact .inl hbus

lemma Advances.congr (hry : Ready c) (hs : c'.work = c.work) : Advances c c' := by
  refine ⟨fun met => ?_, WorkKept.congr hs, hry.congr hs⟩
  unfold DepsMet at met ⊢
  rwa [hs]

lemma Advances.add (hry : Ready c) (wi)
    (met : DepsMet c wi.dependsOn ∨ wi.state = .pending) (hs : c'.work = c.work ++ [wi]) :
    Advances c c' := by
  have ds0 {ds} (met : DepsMet c ds) : DepsMet c' ds := by
    intro d mem
    obtain ⟨dep, ht, id, hsat⟩ := met d mem
    exact ⟨dep, by rw [hs]; exact mem_append_left _ ht, id, hsat⟩
  refine ⟨ds0, fun mid => ⟨?_, ?_⟩, ?_⟩
  · unfold settledCount
    rw [hs, countP_append]
    exact Nat.le_add_right _ _
  · rintro ⟨x, ht, mi, active⟩
    refine .inl ⟨x, by rw [hs]; exact mem_append_left _ ht, mi, ?_⟩
    exact active.imp_right (Or.imp_right fun pending => ⟨pending.1, ds0 pending.2⟩)
  · intro x ht hsd
    rw [hs] at ht
    rcases mem_append.mp ht with old | new
    · exact ds0 (hry x old hsd)
    obtain rfl := mem_singleton.mp new
    rcases met with met | pending
    · exact ds0 met
    · simp [pending, retries] at hsd

/-- An item only moves on. -/
structure ItemAdvances (c : Control) (wi wi' : WorkItem) : Prop where
  id : wi'.id = wi.id
  mission : wi'.missionID = wi.missionID
  settled : wi.settled = true → wi'.settled = true
  satisfies : wi.satisfies = true → wi'.satisfies = true
  active : Active c wi → Active c wi' ∨ wi'.settled = true
  ready : wi'.state = .running ∨ wi'.retries = true → DepsMet c wi'.dependsOn

lemma ItemAdvances.refl (hry : Ready c) (mem : wi ∈ c.work) : ItemAdvances c wi wi :=
  ⟨rfl, rfl, fun hse => hse, fun hsat => hsat, .inl, hry wi mem⟩

lemma Active.not_settled (active : Active c wi) : wi.settled = false := by
  rcases active with hr | retries | ⟨hp, -⟩
  · simp [settled, hr, isTerminal]
  · simp [settled, retries]
  · simp [settled, hp, isTerminal]

lemma Advances.map {f : WorkItem → WorkItem} (hs : c'.work = c.work.map f)
    (its : ∀ wi ∈ c.work, ItemAdvances c wi (f wi)) : Advances c c' := by
  have ds0 {ds} (met : DepsMet c ds) : DepsMet c' ds := by
    intro d mem
    obtain ⟨dep, ht, id, hsat⟩ := met d mem
    have it := its dep ht
    exact ⟨f dep, by rw [hs]; exact mem_map_of_mem ht, it.id.trans id,
      it.satisfies hsat⟩
  have wea (mid : String) : ∀ wi ∈ c.work,
      (wi.missionID == mid && wi.settled) = true →
        ((f wi).missionID == mid && (f wi).settled) = true := by
    intro wi ht hct
    rw [Bool.and_eq_true] at hct ⊢
    rw [(its wi ht).mission]
    exact ⟨hct.1, (its wi ht).settled hct.2⟩
  have ct (mid : String) : settledCount c' mid =
      c.work.countP fun wi => (f wi).missionID == mid && (f wi).settled := by
    unfold settledCount
    rw [hs, countP_map]
    rfl
  refine ⟨ds0, fun mid => ⟨?_, ?_⟩, ?_⟩
  · rw [ct]
    exact countP_mono_left (wea mid)
  · rintro ⟨wi, ht, rfl, active⟩
    have it := its wi ht
    rcases it.active active with act' | settled
    · refine .inl ⟨f wi, by rw [hs]; exact mem_map_of_mem ht, it.mission, ?_⟩
      exact act'.imp_right (Or.imp_right fun hp => ⟨hp.1, ds0 hp.2⟩)
    rw [ct]
    refine .inr (countP_lt_countP (wea wi.missionID) ht ?_ ?_)
    · rw [active.not_settled, Bool.and_false]
    · rw [it.mission, settled, beq_self_eq_true, Bool.and_true]
  · intro x mem hsd
    rw [hs] at mem
    obtain ⟨wi, ht, rfl⟩ := mem_map.mp mem
    exact ds0 ((its wi ht).ready hsd)

lemma Advances.update (ids : (c.work.map WorkItem.id).Nodup) (hry : Ready c) (id)
    {f : WorkItem → WorkItem} (it : ∀ wi, findWork c id = some wi → ItemAdvances c wi (f wi)) :
    Advances c (updateWork c id f) := by
  refine Advances.map (f := fun wi => if wi.id == id then f wi else wi)
    (updateFirst_eq_map ids id f) fun wi ht => ?_
  split
  · next hs =>
    refine it wi ?_
    rw [findWork, find?_key_iff ids]
    exact ⟨ht, beq_iff_eq.mp hs⟩
  · exact ItemAdvances.refl hry ht

end Store

section Items
variable {wi : WorkItem}

lemma settled_of_satisfies (hsat : wi.satisfies = true) : wi.settled = true := by
  rw [WorkItem.satisfies, Bool.or_eq_true, Bool.and_eq_true, Bool.and_eq_true, beq_iff_eq,
    beq_iff_eq, decide_eq_true_iff] at hsat
  rcases hsat with hdn | ⟨⟨hfa, -⟩, hsnt⟩
  · simp [settled, retries, hdn, isTerminal]
  · have spe := Int.not_le.mpr hsnt
    simp [settled, retries, hfa, isTerminal, spe]

lemma unsettled_of_not_terminal (hr : wi.state.isTerminal = false) : wi.settled = false := by
  simp [WorkItem.settled, hr]

lemma ItemAdvances.of_unsettled (hunt : wi.settled = false)
    (id : wi'.id = wi.id) (mission : wi'.missionID = wi.missionID)
    (active : Active c wi → Active c wi' ∨ wi'.settled = true)
    (ready : wi'.state = .running ∨ wi'.retries = true → DepsMet c wi'.dependsOn) :
    ItemAdvances c wi wi' where
  id := id
  mission := mission
  settled := fun settled => absurd settled (by simp [hunt])
  satisfies := fun satisfies => absurd (settled_of_satisfies satisfies) (by simp [hunt])
  active := active
  ready := ready

lemma ItemAdvances.of_ended (going : wi.state.isTerminal = false) (id : wi'.id = wi.id)
    (mission : wi'.missionID = wi.missionID) (ended : wi'.state = .done ∨ wi'.state = .skipped) :
    ItemAdvances c wi wi' := by
  refine .of_unsettled (unsettled_of_not_terminal going) id mission (fun _ => .inr ?_) ?_
  all_goals rcases ended with ended | ended <;> simp [WorkItem.settled, retries, ended, isTerminal]

lemma settled_of_terminal (hter : wi.state.isTerminal = true) :
    wi.retries = true ∨ wi.settled = true := by
  cases rt : wi.retries with
  | true => exact .inl rfl
  | false => exact .inr (by simp [settled, hter, rt])

lemma itemAdvances_retry (hry : Ready c) (mem : wi ∈ c.work)
    (owed : wi.state = .failed → wi.settled = false) : ItemAdvances c wi wi.retry := by
  unfold WorkItem.retry
  split
  · next hfa =>
    have hter : wi.state.isTerminal = true := by rw [hfa]; rfl
    have rt : wi.retries = true :=
      (settled_of_terminal hter).resolve_right (by simp [owed hfa])
    have met := hry wi mem (.inr rt)
    refine .of_unsettled (owed hfa) rfl rfl (fun _ => .inl (.inr (.inr ⟨rfl, met⟩))) ?_
    intro hsd
    simp [WorkItem.retries] at hsd
  · exact .refl hry mem

lemma itemAdvances_complete (e) (seq : Nat) (hry : Ready c) (mem : wi ∈ c.work)
    (running : wi.state.isTerminal = false)
    (hsd : wi.state = .pending → wi.kind.isResolved = true ∨ e.err = "") :
    ItemAdvances c wi (wi.complete e seq) := by
  unfold complete
  split
  · next failed =>
    refine .of_unsettled (unsettled_of_not_terminal running) rfl rfl (fun _ => ?_) ?_
    · exact (settled_of_terminal rfl).imp_left fun retries => .inr (.inl retries)
    intro again
    simp only [retries, reduceCtorEq, false_or, Bool.and_eq_true, Bool.not_eq_true'] at again
    cases st : wi.state with
    | running => exact hry wi mem (.inl st)
    | pending => simp [again.1.2, failed] at hsd; exact absurd st hsd
    | done | failed | skipped => simp [st, isTerminal] at running
  · exact .of_ended running rfl rfl (.inl rfl)

end Items

def startsRun (c : Control) : Event → Option (String × String)
  | .missionCreated e => if (findMission c e.id).isNone then some (e.id, "") else none
  | .missionStarted e => if (findMission c e.id).isNone then some (e.id, e.runID) else none
  | .missionProjected e =>
    match findMission c e.id with
    | none => some (e.id, e.runID)
    | some m => if m.status = .pending ∨ m.runID ≠ e.runID then some (e.id, e.runID) else none
  | _ => none

def Independent (c : Control) (missionID : String) : Prop :=
  ∀ wi ∈ c.work, wi.missionID ≠ missionID → ∀ dep ∈ c.work, dep.missionID = missionID →
    dep.id ∉ wi.dependsOn

/-- A dispatch names a free id, or unsettled work of its own mission and run whose dependencies are
met; a retry is owed; a failure is reported of work that ran; a mission ends as completed or
failed; and a new run takes no work away that others need. -/
def WorkInOrder (c : Control) (ev : Event) : Prop :=
  match ev with
  | .workDispatched e => ∀ wi, findWork c e.id = some wi →
      wi.missionID = e.missionID ∧ takesRun e.runID wi = true ∧ wi.settled = false ∧
        DepsMet c wi.dependsOn
  | .workRetried e => ∀ wi, findWork c e.id = some wi → wi.state = .failed → wi.settled = false
  | .workCompleted e => ∀ wi, findWork c e.id = some wi → wi.state = .pending →
      wi.kind.isResolved = true ∨ e.err = ""
  | .missionDone e => e.status.isTerminal = true
  | .missionProjected e => (startsRun c ev).isSome = true → Independent c e.id
  | _ => True

def requests (log : List Event) : List DecisionRequest := log.filterMap decisionRequest?

def closedDecision? : Event → Option DecisionRequest
  | .decisionCompleted e => some { missionID := e.missionID, runID := e.runID }
  | _ => none

/-- A run that starts has an id of its own: no decision was asked for without a run, or for a run of
this id. -/
def RunInOrder (log : List Event) (c : Control) (ev : Event) : Prop :=
  ∀ id run, startsRun c ev = some (id, run) →
    ∀ req ∈ requests log, req.missionID = id → req.runID ≠ "" ∧ req.runID ≠ run

lemma mem_of_findWork {id wi} (hf : findWork c id = some wi) : wi ∈ c.work :=
  mem_of_find?_eq_some hf

lemma advances_workDispatched (wf : WellFormed c) (hry : Ready c) {e}
    (hor : WorkInOrder c (.workDispatched e)) : Advances c (applyWorkDispatched c e) := by
  unfold applyWorkDispatched
  cases hf : findWork c e.id with
  | some wi =>
    dsimp only
    split
    · exact .congr hry rfl
    refine .update wf.workIDs hry e.id fun x hs => ?_
    obtain ⟨-, -, hunt, met⟩ := hor x hs
    exact .of_unsettled hunt rfl rfl (fun _ => .inl (.inl rfl)) fun _ => met
  | none =>
    refine .add hry e.newItem (.inl (forall_mem_nil _)) ?_
    dsimp only
    unfold recordDecisionDispatch
    split <;> rfl

lemma advances_workCompleted (wf : WellFormed c) (hry : Ready c) {e}
    (hor : WorkInOrder c (.workCompleted e)) : Advances c (applyWorkCompleted c e) := by
  unfold applyWorkCompleted
  cases hf : findWork c e.id with
  | none => exact .congr hry rfl
  | some wi =>
    dsimp only
    split
    · exact .congr hry rfl
    next hr =>
    rw [Bool.not_eq_true] at hr
    have hup : Advances c (updateWork c e.id (complete e (c.nextCompletedSeq + 1))) := by
      refine .update wf.workIDs hry e.id fun x hs => ?_
      cases hf.symm.trans hs
      exact itemAdvances_complete e _ hry (mem_of_findWork hf) hr (hor wi hf)
    exact hup.trans (.congr hup.ready rfl)

lemma workIDs_updateWork {f : WorkItem → WorkItem} (hkp : ∀ wi, (f wi).id = wi.id)
    (ids : (c.work.map WorkItem.id).Nodup) (id) :
    ((updateWork c id f).work.map WorkItem.id).Nodup := by
  unfold updateWork
  rwa [map_updateFirst WorkItem.id c.work fun wi _ => hkp wi]

lemma advances_conditionResolved (wf : WellFormed c) (hry : Ready c) (e) :
    Advances c (applyConditionResolved c e) := by
  have hrsv : Advances c (updateWork c e.id (WorkItem.resolve e.result)) := by
    refine .update wf.workIDs hry e.id fun wi hf => ?_
    unfold WorkItem.resolve
    split
    · next goi =>
      refine .of_ended ?_ rfl rfl (.inl rfl)
      rcases goi with h | h <;> rw [h] <;> rfl
    · exact .refl hry (mem_of_findWork hf)
  have ids := workIDs_updateWork (WorkItem.resolve_id e.result) wf.workIDs e.id
  refine (foldlRecOn
    (motive := fun c' => Advances c c' ∧ (c'.work.map WorkItem.id).Nodup) e.skip _
    ⟨hrsv, ids⟩ ?_).1
  rintro c' ⟨sf, ids⟩ id -
  refine ⟨sf.trans ?_, workIDs_updateWork skip_id ids id⟩
  refine .update ids sf.ready id fun wi hf => ?_
  unfold skip
  split
  · next hp => exact .of_ended (by rw [hp]; rfl) rfl rfl (.inr rfl)
  · exact .refl sf.ready (mem_of_findWork hf)

lemma advances_projectWork (hry : Ready c) (e) : Advances c (projectWork c e) := by
  refine foldlRecOn (motive := fun c' => Advances c c') e.nodes _ (.congr hry rfl) ?_
  intro c' sf n _
  refine sf.trans ?_
  unfold projectNode
  split
  · exact .congr sf.ready rfl
  · exact .add sf.ready (e.newItem (c'.missionRewinds.lookup e.id) n) (.inr rfl) rfl

lemma retire_kept (env) (hry : Ready c) {missionID} (hpt : Independent c missionID) :
    Ready (retireMissionRun env c missionID) ∧
      ∀ id ≠ missionID, WorkKept c (retireMissionRun env c missionID) id := by
  have perm : (retireMissionRun env c missionID).work.Perm
      (c.work.filter fun wi => !(wi.missionID == missionID)) :=
    env.removeRows_perm _ _
  have hsy {wi} :
      wi ∈ (retireMissionRun env c missionID).work ↔ wi ∈ c.work ∧ wi.missionID ≠ missionID := by
    rw [perm.mem_iff, mem_filter, Bool.not_eq_true', beq_eq_false_iff_ne]
  have ds {wi} (mem : wi ∈ c.work) (ho : wi.missionID ≠ missionID)
      (met : DepsMet c wi.dependsOn) :
      DepsMet (retireMissionRun env c missionID) wi.dependsOn := by
    intro d hn
    obtain ⟨dep, ht, rfl, hsat⟩ := met d hn
    refine ⟨dep, hsy.mpr ⟨ht, fun own => ?_⟩, rfl, hsat⟩
    exact hpt wi mem ho dep ht own hn
  refine ⟨fun wi mem hsd => ?_, fun id ho => ⟨?_, ?_⟩⟩
  · obtain ⟨ht, hpt⟩ := hsy.mp mem
    exact ds ht hpt (hry wi ht hsd)
  · unfold settledCount
    rw [perm.countP_eq, countP_filter]
    refine countP_mono_left fun wi _ hct => ?_
    rw [Bool.and_eq_true, beq_iff_eq] at hct
    simp [hct.1, hct.2, ho]
  · rintro ⟨wi, ht, rfl, active⟩
    refine .inl ⟨wi, hsy.mpr ⟨ht, ho⟩, rfl, ?_⟩
    exact active.imp_right (Or.imp_right fun hp => ⟨hp.1, ds ht ho hp.2⟩)

/-- A mission keeps its run and decision. -/
structure MissionKept (c c' : Control) (m m' : Mission) : Prop where
  mem : m ∈ c.missions
  id : m'.id = m.id
  runID : m'.runID = m.runID
  cursor : m'.decisionCursor = m.decisionCursor
  inFlight : m'.decisionInFlight = m.decisionInFlight
  unfinished : m.status.isTerminal = false
  pending : m'.status = .pending → m.status = .pending
  work : WorkKept c c' m.id

def MissionAfter (c c' : Control) (ev : Event) (m' : Mission) : Prop :=
  (∃ m, MissionKept c c' m m') ∨
    (m'.decisionCursor = -1 ∧ m'.decisionInFlight = false ∧ startsRun c ev = some (m'.id, m'.runID))

section Missions
variable {c c' : Control}

lemma missionKept_same (mem : m ∈ c.missions)
    (hu : m.status.isTerminal = false) (work : WorkKept c c' m.id) : MissionKept c c' m m :=
  ⟨mem, rfl, rfl, rfl, rfl, hu, fun hp => hp, work⟩

/-- An update that keeps the decision. -/
structure KeepsDecision (f : Mission → Mission) (m : Mission) : Prop where
  id : (f m).id = m.id
  runID : (f m).runID = m.runID
  cursor : (f m).decisionCursor = m.decisionCursor
  inFlight : (f m).decisionInFlight = m.decisionInFlight
  unfinished : (f m).status.isTerminal = false → m.status.isTerminal = false
  pending : (f m).status = .pending → m.status = .pending

lemma mem_updateMission (wf : WellFormed c) {id} {f : Mission → Mission} :
    m' ∈ (updateMission c id f).missions ↔
      ∃ m ∈ c.missions, (if m.id == id then f m else m) = m' := by
  unfold updateMission
  rw [updateFirst_eq_map wf.missionIDs, mem_map]

lemma missions_update (wf : WellFormed c) {id} {f : Mission → Mission}
    (hkp : ∀ m ∈ c.missions, m.id = id → (f m).status.isTerminal = false → KeepsDecision f m)
    (ms : c'.missions = (updateMission c id f).missions) (work : c'.work = c.work) :
    ∀ m' ∈ c'.missions, m'.status.isTerminal = false → MissionAfter c c' ev m' := by
  intro m' mem hu
  rw [ms, mem_updateMission wf] at mem
  obtain ⟨m, ht, rfl⟩ := mem
  have kp := WorkKept.congr work m.id
  split at hu
  · next hs =>
    rw [if_pos hs]
    obtain ⟨id, run0, csr, inF, goi, hp⟩ :=
      hkp m ht (beq_iff_eq.mp hs) hu
    exact .inl ⟨m, ht, id, run0, csr, inF, goi hu, hp, kp⟩
  · next ho =>
    rw [if_neg ho]
    exact .inl ⟨m, missionKept_same ht hu kp⟩

lemma missions_add (hadv : Advances c c') (csr : new.decisionCursor = -1)
    (inF : new.decisionInFlight = false) (hsts : startsRun c ev = some (new.id, new.runID))
    (ms : c'.missions = c.missions ++ [new]) :
    ∀ m' ∈ c'.missions, m'.status.isTerminal = false → MissionAfter c c' ev m' := by
  rw [ms]
  refine forall_mem_append.mpr ⟨fun m old hu => ?_, forall_mem_singleton.mpr fun _ => ?_⟩
  · exact .inl ⟨m, missionKept_same old hu (hadv.kept m.id)⟩
  · exact .inr ⟨csr, inF, hsts⟩

lemma projectWork_missions (e) : (projectWork c e).missions = c.missions := by
  refine foldlRecOn (motive := fun c' : Control => c'.missions = c.missions) e.nodes _ rfl ?_
  intro c' hs n _
  unfold projectNode
  split <;> exact hs

def Unstarted (c : Control) : Prop :=
  ∀ m ∈ c.missions, m.status = .pending → m.decisionCursor = -1 ∧ m.decisionInFlight = false

/-- What holds after an event: started work has its dependencies, and every unfinished mission goes
on or is new. -/
def Settles (c c' : Control) (ev : Event) : Prop :=
  Ready c' ∧ ∀ m' ∈ c'.missions, m'.status.isTerminal = false → MissionAfter c c' ev m'

lemma settles_advances (hadv : Advances c c') {ev}
    (ms : c'.missions = c.missions) : Settles c c' ev := by
  refine ⟨hadv.ready, fun m mem hu => ?_⟩
  rw [ms] at mem
  exact .inl ⟨m, missionKept_same mem hu (hadv.kept m.id)⟩

lemma settles_same (hry : Ready c) {ev} (ms : c'.missions = c.missions)
    (work : c'.work = c.work) : Settles c c' ev :=
  settles_advances (.congr hry work) ms

lemma settles_add (hry : Ready c) (csr : new.decisionCursor = -1)
    (inF : new.decisionInFlight = false) (hsts : startsRun c ev = some (new.id, new.runID)) :
    Settles c { c with missions := c.missions ++ [new] } ev := by
  have grown : Advances c { c with missions := c.missions ++ [new] } := .congr hry rfl
  exact ⟨grown.ready, missions_add grown csr inF hsts rfl⟩

lemma settles_missionStarted (wf : WellFormed c) (hry : Ready c) (e) :
    Settles c (applyMissionStarted c e) (.missionStarted e) := by
  unfold applyMissionStarted
  cases hf : findMission c e.id with
  | some m =>
    refine ⟨hry.congr rfl, missions_update wf (fun m _ _ _ => ?_) rfl rfl⟩
    by_cases hp : m.status = .pending <;> constructor
    all_goals simp [Mission.start, hp, MissionStatus.isTerminal]
  | none =>
    exact settles_add hry rfl rfl (by simp [startsRun, hf, MissionStarted.newMission])

lemma settles_missionDone (wf : WellFormed c) (hry : Ready c) {e}
    (hor : WorkInOrder c (.missionDone e)) :
    Settles c (applyMissionDone c e) (.missionDone e) := by
  unfold applyMissionDone
  cases hf : findMission c e.id with
  | none => exact settles_same hry rfl rfl
  | some m =>
    dsimp only
    split
    · exact settles_same hry rfl rfl
    refine ⟨hry.congr rfl, missions_update wf (fun m _ _ hu => ?_) rfl rfl⟩
    have hed : e.status.isTerminal = true := hor
    simp [hed] at hu

lemma settles_startRun (wf : WellFormed c) (hry : Ready c) (hust : Unstarted c)
    (hf : findMission c e.id = some m) (hp : m.status = .pending) :
    Settles c (projectWork (updateMission c e.id (startRun e)) e) (.missionProjected e) := by
  have hw : Advances c (updateMission c e.id (startRun e)) := .congr hry rfl
  have hpr := advances_projectWork hw.ready e
  refine ⟨hpr.ready, fun m' mem hu => ?_⟩
  rw [projectWork_missions, mem_updateMission wf] at mem
  obtain ⟨x, ht, rfl⟩ := mem
  split at hu
  · next hs =>
    have own : findMission c e.id = some x := by
      rw [findMission, find?_key_iff wf.missionIDs]
      exact ⟨ht, beq_iff_eq.mp hs⟩
    cases hf.symm.trans own
    rw [if_pos hs]
    refine .inr ⟨rfl, (hust m ht hp).2, ?_⟩
    simp only [startsRun, hf, hp, true_or, if_true, startRun]
    rw [beq_iff_eq.mp hs]
  · next ho =>
    rw [if_neg ho]
    exact .inl ⟨x, missionKept_same ht hu ((hw.trans hpr).kept x.id)⟩

lemma advances_launchRun (hry : Ready c) (e) : Advances c (launchRun c e) := by
  have grown : Advances c { c with missions := c.missions ++ [e.newMission] } := .congr hry rfl
  exact grown.trans (advances_projectWork grown.ready e)

lemma settles_replaceRun (env) (hry : Ready c) {e} (hpt : Independent c e.id)
    (hsts : startsRun c (.missionProjected e) = some (e.id, e.runID)) :
    Settles c (launchRun (retireMissionRun env c e.id) e) (.missionProjected e) := by
  obtain ⟨rea, kp⟩ := retire_kept env hry hpt
  have hlau := advances_launchRun rea e
  refine ⟨hlau.ready, fun m' mem hu => ?_⟩
  rw [launchRun, projectWork_missions] at mem
  rcases mem_append.mp mem with old | new
  · obtain ⟨ht, ho⟩ := env.removeRows_mem old
    rw [beq_eq_false_iff_ne] at ho
    refine .inl ⟨m', missionKept_same ht hu ?_⟩
    exact (kp m'.id ho).trans (hlau.kept m'.id)
  · obtain rfl := mem_singleton.mp new
    exact .inr ⟨rfl, rfl, hsts⟩

lemma settles_missionProjected (env) (wf : WellFormed c) (hry : Ready c)
    (hust : Unstarted c) {e} (hor : WorkInOrder c (.missionProjected e)) :
    Settles c (applyMissionProjected env c e) (.missionProjected e) := by
  unfold applyMissionProjected
  cases hf : findMission c e.id with
  | none =>
    have hlau := advances_launchRun hry e
    refine ⟨hlau.ready, missions_add hlau rfl rfl ?_ (projectWork_missions e)⟩
    simp [startsRun, hf, MissionProjected.newMission]
  | some m =>
    dsimp only
    split
    · next hp => exact settles_startRun wf hry hust hf hp
    split
    · exact settles_same hry rfl rfl
    next ho =>
    have hsts : startsRun c (.missionProjected e) = some (e.id, e.runID) := by
      simp [startsRun, hf, ho]
    exact settles_replaceRun env hry (hor (by rw [hsts]; rfl)) hsts

lemma settles_update (wf : WellFormed c) (hry : Ready c) {id} {f : Mission → Mission}
    {ev} (hkp : ∀ m, KeepsDecision f m) : Settles c (updateMission c id f) ev :=
  ⟨hry.congr rfl, missions_update wf (fun m _ _ _ => hkp m) rfl rfl⟩

lemma settles_applyControl (env) (wf : WellFormed c) (hry : Ready c)
    (hust : Unstarted c) {ev} (hor : WorkInOrder c ev)
    (hax : decisionRequest? ev = none) (hcls : closedDecision? ev = none) :
    Settles c (applyControl env c ev) ev := by
  cases ev with
  | workDispatched e =>
    refine settles_advances (advances_workDispatched wf hry hor) ?_
    simp only [applyWorkDispatched]
    repeat' split
    all_goals first | rfl | (unfold recordDecisionDispatch; split <;> rfl)
  | workRetried e =>
    refine settles_advances (.update wf.workIDs hry e.id fun wi hf => ?_) rfl
    exact itemAdvances_retry hry (mem_of_findWork hf) (hor wi hf)
  | workCompleted e =>
    refine settles_advances (advances_workCompleted wf hry hor) ?_
    simp only [applyWorkCompleted]
    repeat' split
    all_goals rfl
  | conditionResolved e =>
    refine settles_advances (advances_conditionResolved wf hry e) ?_
    exact foldlRecOn (motive := fun c' : Control => c'.missions = c.missions) e.skip _ rfl
      fun _ hs _ _ => hs
  | decisionRequested e => exact absurd hax (by simp [decisionRequest?])
  | decisionCompleted e => exact absurd hcls (by simp [closedDecision?])
  | missionCreated e =>
    simp only [applyControl, applyMissionCreated]
    cases hf : findMission c e.id with
    | some m => exact settles_same hry rfl rfl
    | none => exact settles_add hry rfl rfl (by simp [startsRun, hf])
  | missionStarted e => exact settles_missionStarted wf hry e
  | missionProjected e => exact settles_missionProjected env wf hry hust hor
  | missionPauseRequested e =>
    refine settles_update wf hry fun m => ?_
    by_cases hr : m.status = .running
    · constructor
      all_goals simp [hr, MissionStatus.isTerminal]
    · constructor
      all_goals simp [hr]
  | missionResumed e =>
    refine settles_update wf hry fun m => ?_
    by_cases paused : m.status = .paused
    · constructor
      all_goals simp [paused, MissionStatus.isTerminal]
    · constructor
      all_goals simp [paused]
  | missionDone e => exact settles_missionDone wf hry hor
  | missionRewound e | missionOriginated e =>
    simp only [applyControl, applyMissionRewound, applyMissionOriginated]
    split <;> exact settles_same hry rfl rfl
  | tokenUsed e | scanReconciled e =>
    exact settles_update wf hry fun m => ⟨rfl, rfl, rfl, rfl, id, id⟩
  | _ => exact settles_same hry rfl rfl

lemma settles_reduceControl (env) (wf : WellFormed c) (hry : Ready c)
    (hust : Unstarted c) (hor : WorkInOrder c ev)
    (hax : decisionRequest? ev = none) (hcls : closedDecision? ev = none) :
    Settles c (reduceControl env c ev) ev := by
  unfold reduceControl
  split
  · exact settles_same hry rfl rfl
  · exact settles_applyControl env wf hry hust hor hax hcls

end Missions

def HasProgress (c : Control) (m : Mission) : Prop :=
  m.decisionCursor < settledCount c m.id ∨ Busy c m.id

/-- A mission asked about settled work only, and one with no decision in flight has never asked or
can go on. -/
structure Steady (c : Control) : Prop where
  wf : WellFormed c
  ready : Ready c
  unstarted : Unstarted c
  cursor : ∀ m ∈ c.missions, m.status.isTerminal = false → m.decisionCursor ≤ settledCount c m.id
  progress : ∀ m ∈ c.missions, m.status.isTerminal = false → m.decisionInFlight = false →
    m.decisionCursor = -1 ∨ HasProgress c m

lemma MissionKept.progress (kp : MissionKept c c' m m')
    (csr : m.decisionCursor ≤ settledCount c m.id) (hpgr : HasProgress c m) :
    HasProgress c' m' := by
  unfold HasProgress
  rw [kp.cursor, kp.id]
  have more := kp.work.settled
  rcases hpgr with new0 | busy
  · exact .inl (by omega)
  rcases kp.work.busy busy with busy | settled
  · exact .inr busy
  · exact .inl (by omega)

lemma Steady.plain (env) (hsy : Steady c) (hor : WorkInOrder c ev)
    (hax : decisionRequest? ev = none) (hcls : closedDecision? ev = none) :
    Steady (reduceControl env c ev) := by
  obtain ⟨hry, ha⟩ :=
    settles_reduceControl env hsy.wf hsy.ready hsy.unstarted hor hax hcls
  refine ⟨wellFormed_reduceControl env hsy.wf ev, hry, ?_, ?_, ?_⟩
  · intro m' mem hp
    rcases ha m' mem (by rw [hp]; rfl) with ⟨m, kp⟩ | ⟨csr, inF, -⟩
    · rw [kp.cursor, kp.inFlight]
      exact hsy.unstarted m kp.mem (kp.pending hp)
    · exact ⟨csr, inF⟩
  · intro m' mem hu
    rcases ha m' mem hu with ⟨m, kp⟩ | ⟨csr, -, -⟩
    · have hb := hsy.cursor m kp.mem kp.unfinished
      have more := kp.work.settled
      rw [kp.cursor, kp.id]
      omega
    · omega
  · intro m' mem hu hil
    rcases ha m' mem hu with ⟨m, kp⟩ | ⟨csr, -, -⟩
    · rw [kp.inFlight] at hil
      rw [kp.cursor]
      refine (hsy.progress m kp.mem kp.unfinished hil).imp_right fun hpgr => ?_
      exact kp.progress (hsy.cursor m kp.mem kp.unfinished) hpgr
    · exact .inl csr

end Gibson.Brain
