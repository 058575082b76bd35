import Gibson.Brain.Daemon
import Gibson.Brain.Durability
import Gibson.Brain.Orderly

/-! An Engine keeps its missions going: every event it folds leaves the World steady and its tokens
accounted for. -/

namespace Gibson.Brain

open List Option

/-- Every trusted event of the log is in order in the World that the events before it left. -/
def OrderlyLog (env : Env) (tenant : String) (trusted : Event → Prop) (log : List Event) : Prop :=
  ∀ past ev rest, log = past ++ ev :: rest → trusted ev →
    InOrder past (replay env tenant past).control ev

/-- What the fold of an event does: it takes the queue from one list to another, and a request that
it makes is published. -/
def Folds (env : Env) (trusted : Event → Prop) (queue queue' : List Event) (c : Control)
    (ev : Event) : Prop :=
  ∀ log waiting, (trusted ev → InOrder log c ev) → Consistent c log waiting queue →
    (decisionRequest? ev ≠ none → (checkRun c ev).verdict = .runCurrent) ∧
      Consistent (reduceControl env c ev) (log ++ [ev])
        (waiting ++ (decisionRequest? ev).toList) queue'

section
variable {log : List Event}

lemma OrderlyLog.init (h : OrderlyLog env tenant trusted (log ++ [ev])) :
    OrderlyLog env tenant trusted log := by
  rintro pa x rs rfl tru
  exact h pa x (rs ++ [ev]) (by simp) tru

lemma OrderlyLog.last (h : OrderlyLog env tenant trusted (log ++ [ev])) (tru : trusted ev) :
    InOrder log (replay env tenant log).control ev :=
  h log ev [] rfl tru

end

namespace Engine

variable {ι : Type} {S : TimelineStore ι} {env : Env} {tenant : String} {trusted : Event → Prop}
  {old : List Event} {waiting : List DecisionRequest} {queue : List Event} {e : Engine S}

def seen (verdict : RunVerdict) (ev : Event) : List Event :=
  match verdict with
  | .runDropped => []
  | .runDetached => [detachEvidence ev]
  | .runCurrent => [ev]

lemma publish_published (vd ev) :
    (e.publish vd ev).published = e.published ++ seen vd ev := by
  cases vd
  · rfl
  · exact (append_nil _).symm
  · rfl

lemma apply_published (env) (e : Engine S) (ev) : (e.apply env ev).1.published = e.published ++
        if (e.apply env ev).2 then seen (checkRun e.world.control ev).verdict ev else [] := by
  unfold apply
  cases rp : e.appendDurable ev with
  | mk a res =>
    have fl : a.world = e.world ∧ a.published = e.published := by
      obtain rfl : (e.appendDurable ev).1 = a := congrArg Prod.fst rp
      exact ⟨rfl, rfl⟩
    cases res with
    | error err => exact fl.2.trans (append_nil _).symm
    | ok seq =>
      simp only [fold, if_true]
      rw [publish_published, fl.1]
      split
      · refine congrArg (· ++ _) (Eq.trans ?_ fl.2)
        simp only [maybeSnapshot]
        split
        · rfl
        · split <;> rfl
      · exact congrArg (· ++ _) fl.2

lemma apply_stops (env ev) (hr : e.stopErr = none) (hfa : (e.apply env ev).2 = false) :
    (e.apply env ev).1.stopErr ≠ none ∧ (e.apply env ev).1.tried = some ev := by
  unfold apply at hfa ⊢
  cases rp : e.appendDurable ev with
  | mk a res =>
    have fl : a.stopErr = none ∧ a.tried = some ev := by
      obtain rfl : (e.appendDurable ev).1 = a := congrArg Prod.fst rp
      exact ⟨hr, rfl⟩
    cases res with
    | error err => exact ⟨by simp [stop, fl.1], fl.2⟩
    | ok seq => simp [rp] at hfa

variable {ev : Event}

lemma requests_seen (current : decisionRequest? ev ≠ none → verdict = .runCurrent) :
    (seen verdict ev).filterMap decisionRequest? = (decisionRequest? ev).toList := by
  cases asked : decisionRequest? ev with
  | some req =>
    rw [current (by simp [asked])]
    simp [seen, asked]
  | none =>
    have detached : decisionRequest? (detachEvidence ev) = none := by
      cases ev <;> first | rfl | simp [decisionRequest?] at asked
    cases verdict <;> simp [seen, asked, detached]

variable (env tenant trusted old waiting queue e) in
/-- The log gives a steady World, and the tokens of a running Engine are accounted for. -/
structure Going : Prop where
  durable : Durable env tenant e
  steady : OrderlyLog env tenant trusted (S.history e.store) →
    Steady (replay env tenant (S.history e.store)).control
  heard : ∃ fresh, e.published = old ++ fresh ∧
    (e.stopErr = none → OrderlyLog env tenant trusted (S.history e.store) →
      Accounted e.world.control e.applied (waiting ++ fresh.filterMap decisionRequest?) queue)

section
variable (h : Going env tenant trusted old waiting queue e)
include h

lemma Going.of_stopped (hsp : e.stopErr ≠ none) (waiting' queue') :
    Going env tenant trusted old waiting' queue' e := by
  obtain ⟨hfr, hpb, -⟩ := h.heard
  exact ⟨h.durable, h.steady, hfr, hpb, fun hr => absurd hr hsp⟩

lemma Going.consistent
    (hr : e.stopErr = none) (hor : OrderlyLog env tenant trusted (S.history e.store)) :
    ∃ hfr, e.published = old ++ hfr ∧
      Consistent e.world.control e.applied (waiting ++ hfr.filterMap decisionRequest?) queue := by
  obtain ⟨hfr, hpb, hau⟩ := h.heard
  have hsy := h.steady hor
  rw [h.durable.running hr, ← h.durable.world] at hsy
  exact ⟨hfr, hpb, hsy, hau hr hor⟩

lemma Going.regroup (waiting') (tks : e.stopErr = none → ∀ hfr,
      Accounted e.world.control e.applied (waiting ++ hfr) queue →
        Accounted e.world.control e.applied (waiting' ++ hfr) queue') :
    Going env tenant trusted old waiting' queue' e := by
  obtain ⟨hfr, hpb, hau⟩ := h.heard
  exact ⟨h.durable, h.steady, hfr, hpb,
    fun hr hor => tks hr _ (hau hr hor)⟩

lemma Going.rebase :
    Going env tenant trusted e.published
      (waiting ++ (e.published.drop old.length).filterMap decisionRequest?) queue e := by
  obtain ⟨hfr, hpb, hau⟩ := h.heard
  refine ⟨h.durable, h.steady, [], (append_nil _).symm, fun hr hor => ?_⟩
  rw [hpb, drop_left, filterMap_nil, append_nil]
  exact hau hr hor

lemma Going.apply (hr : e.stopErr = none)
    (fol : OrderlyLog env tenant trusted (S.history e.store) → Folds env trusted queue queue'
      e.world.control ev) : Going env tenant trusted old waiting queue' (e.apply env ev).1 := by
  obtain ⟨hdu, rns⟩ := durable_apply h.durable hr ev
  obtain ⟨-, hfo⟩ := apply_folded env e ev
  have hpb := apply_published env e ev
  have history := h.durable.running hr
  -- The World with the event, whether this Engine folds it or the next one does.
  have nx (hor : OrderlyLog env tenant trusted (e.applied ++ [ev])) :
      ∃ hfr, e.published = old ++ hfr ∧
        (decisionRequest? ev ≠ none → (checkRun e.world.control ev).verdict = .runCurrent) ∧
        Consistent (replay env tenant (e.applied ++ [ev])).control (e.applied ++ [ev])
          (waiting ++ hfr.filterMap decisionRequest? ++ (decisionRequest? ev).toList) queue' := by
    have hb := history ▸ hor.init
    obtain ⟨hfr, sin, hco⟩ := h.consistent hr hb
    have hlt : trusted ev → InOrder e.applied e.world.control ev := by
      rw [h.durable.world]
      exact hor.last
    obtain ⟨cur, ha⟩ := fol hb _ _ hlt hco
    refine ⟨hfr, sin, cur, ?_⟩
    rwa [replay_append_singleton, reduce_control, ← h.durable.world]
  cases hdn : (e.apply env ev).2 with
  | true =>
    rw [hdn, if_pos rfl] at hfo hpb
    have hli := rns hdn
    have log :=
      (hdu.running hli).trans hfo.applied
    have world : (e.apply env ev).1.world = replay env tenant (e.applied ++ [ev]) := by
      rw [hdu.world, hfo.applied]
    refine ⟨hdu, fun hor => ?_, ?_⟩
    · rw [log] at hor ⊢
      obtain ⟨_, -, -, hco⟩ := nx hor
      exact hco.steady
    · obtain ⟨hfr, sin, -⟩ := h.heard
      refine ⟨hfr ++ seen (checkRun e.world.control ev).verdict ev, ?_, fun _ hor => ?_⟩
      · rw [hpb, sin, append_assoc]
      rw [log] at hor
      obtain ⟨fre', sin', cur, hco⟩ := nx hor
      obtain rfl := append_cancel_left (sin.symm.trans sin')
      rw [world, hfo.applied, filterMap_append, requests_seen cur, ← append_assoc]
      exact hco.accounted
  | false =>
    obtain ⟨hsp, tri⟩ := apply_stops env ev hr hdn
    rw [hdn, if_neg Bool.false_ne_true] at hfo hpb
    have hap :=
      hfo.applied.trans (append_nil _)
    refine ⟨hdu, fun hor => ?_, ?_⟩
    · rcases hdu.stopped hsp with hs | ⟨x, hlt, hw⟩
      · rw [hs, hap] at hor ⊢
        rw [← history] at hor ⊢
        exact h.steady hor
      · cases tri.symm.trans hlt
        rw [hw, hap] at hor ⊢
        obtain ⟨_, -, -, hco⟩ := nx hor
        exact hco.steady
    · obtain ⟨hfr, sin, -⟩ := h.heard
      exact ⟨hfr, by rw [hpb, sin, append_nil],
        fun hli => absurd hli hsp⟩

end

variable {c : Control}

lemma inOrder_of (hor : trusted ev ∨ WorkInOrder c ev ∧ startsRun c ev = none)
    (tru : trusted ev → InOrder log c ev) : InOrder log c ev := by
  rcases hor with hk | ⟨work, none⟩
  · exact tru hk
  · exact ⟨work, fun id run hsts => absurd (none.symm.trans hsts) (by simp)⟩

lemma apply_control (env) (e : Engine S) (ev) (hdn : (e.apply env ev).2 = true) :
    (e.apply env ev).1.world.control = reduceControl env e.world.control ev := by
  have hfo := (apply_folded env e ev).2.world
  rw [hdn, if_pos rfl] at hfo
  rw [hfo]
  exact reduce_control env e.world ev

lemma orderlyLog_before (trusted : Event → Prop) (ev) (hdu : Durable env tenant e)
    (hr : e.stopErr = none) (hdn : (e.apply env ev).2 = true)
    (hor : OrderlyLog env tenant trusted (S.history (e.apply env ev).1.store)) :
    OrderlyLog env tenant trusted (S.history e.store) := by
  obtain ⟨ha, rns⟩ := durable_apply hdu hr ev
  have hfo := (apply_folded env e ev).2.applied
  rw [hdn, if_pos rfl] at hfo
  rw [ha.running (rns hdn), hfo] at hor
  rw [hdu.running hr]
  exact hor.init

variable {outbox : List Event}

lemma Going.drain (evs)
    (h : Going env tenant trusted old waiting (evs ++ outbox) e) (hr : e.stopErr = none)
    (hor0 : OrderlyLog env tenant trusted (S.history e.store) → Orderly env trusted
      e.world.control evs) :
    Going env tenant trusted old waiting outbox (drain env evs e).1 := by
  induction evs generalizing e with
  | nil => exact h
  | cons ev rs ih =>
    let htk : Engine S := { e with intake := rs }
    have s0 : Going env tenant trusted old waiting (ev :: rs ++ outbox) htk :=
      ⟨h.durable.of_sameLog ⟨rfl, rfl, rfl, rfl, rfl, rfl⟩, h.steady, h.heard⟩
    have step := s0.apply hr fun hor log waiting tru hco => by
      have hax := hco.accounted.plain ev mem_cons_self
      refine ⟨fun hak => absurd hax hak, ?_⟩
      rw [hax, toList_none, append_nil]
      exact hco.take env (inOrder_of (hor0 hor).1 tru)
    have ends := durable_apply s0.durable hr ev
    have con := apply_control env htk ev
    have hb := orderlyLog_before trusted ev s0.durable hr
    unfold drain
    cases hap : htk.apply env ev with
    | mk a hdn =>
      rw [hap] at step ends con hb
      cases hdn with
      | false =>
        have hsp := (apply_stops (e := htk) env ev hr (by rw [hap])).1
        rw [hap] at hsp
        exact step.of_stopped hsp _ _
      | true =>
        refine ih step (ends.2 rfl) fun hor => ?_
        rw [con rfl]
        exact (hor0 (hb rfl hor)).2

lemma Going.applyAll {P : Control → List Event → Prop} (step : ∀ {c ev rs}, P c (ev :: rs) →
      Folds env trusted queue queue c ev ∧ P (reduceControl env c ev) rs) (evs)
    (h : Going env tenant trusted old waiting queue e) (hr : e.stopErr = none)
    (now : OrderlyLog env tenant trusted (S.history e.store) → P e.world.control evs) :
    Going env tenant trusted old waiting queue (applyAll env evs e).1 := by
  induction evs generalizing e with
  | nil => exact h
  | cons ev rs ih =>
    have nx := h.apply hr fun hor => (step (now hor)).1
    have ends := durable_apply h.durable hr ev
    have con := apply_control env e ev
    have hb := orderlyLog_before trusted ev h.durable hr
    unfold Engine.applyAll
    cases hap : e.apply env ev with
    | mk a hdn =>
      rw [hap] at nx ends con hb
      cases hdn with
      | false => exact nx
      | true =>
        refine ih nx (ends.2 rfl) fun hor => ?_
        rw [con rfl]
        exact (step (now (hb rfl hor))).2

lemma folds_plain (hor : trusted ev ∨ WorkInOrder c ev ∧ startsRun c ev = none)
    (hp : decisionRequest? ev = none ∧ closedDecision? ev = none) :
    Folds env trusted queue queue c ev := by
  intro log waiting tru hco
  refine ⟨fun hak => absurd hp.1 hak, ?_⟩
  rw [hp.1, toList_none, append_nil]
  exact hco.plain env [] (inOrder_of hor tru) hp.1 hp.2 (forall_mem_nil _)

/-- One System of a sweep. -/
def runSystem (env : Env) (e : Engine S) (sys : World → List Event) : Engine S :=
  if e.stopErr.isSome then e else (applyAll env (sys e.world) e).1

/-- A failed append stops the Engine, and an Engine that still runs has folded the whole list. -/
lemma applyAll_spec (hdu : Durable env tenant e) (hr : e.stopErr = none) (evs) :
    ((applyAll env evs e).2.2 = false → (applyAll env evs e).1.stopErr ≠ none) ∧
      ((applyAll env evs e).1.stopErr = none →
        (applyAll env evs e).1.world = reduceAll env e.world evs) := by
  induction evs generalizing e with
  | nil => simp [applyAll, reduceAll]
  | cons ev rs ih =>
    have stops := apply_stops env ev hr
    have ends := durable_apply hdu hr ev
    have hfo := (apply_folded env e ev).2.world
    unfold applyAll
    cases hap : e.apply env ev with
    | mk a hdn =>
      rw [hap] at stops ends hfo
      cases hdn with
      | false => exact ⟨fun _ => (stops rfl).1, fun hli => absurd hli (stops rfl).1⟩
      | true =>
        have world : a.world = reduce env e.world ev := hfo
        rw [reduceAll_cons, ← world]
        exact ih ends.1 (ends.2 rfl)

lemma foldl_runSystem_stopped (systems : List (World → List Event)) (hsp : e.stopErr ≠ none) :
    systems.foldl (runSystem env) e = e := by
  induction systems with
  | nil => rfl
  | cons sys rs ih =>
    rwa [foldl_cons, runSystem, if_pos (isSome_iff_ne_none.mpr hsp)]

lemma runSystems_eq_foldl (hdu : Durable env tenant e) (systems : List (World → List Event)) :
    (runSystems env systems e).1 = systems.foldl (runSystem env) e := by
  induction systems generalizing e with
  | nil => rfl
  | cons sys rs ih =>
    rw [foldl_cons, runSystem]
    unfold runSystems
    split
    · next hsp =>
      exact (foldl_runSystem_stopped rs (isSome_iff_ne_none.mp hsp)).symm
    next hli =>
    have hr : e.stopErr = none := by simpa using hli
    have ends := durable_applyAll (sys e.world) hdu hr
    have stops := (applyAll_spec hdu hr (sys e.world)).1
    cases hap : applyAll env (sys e.world) e with
    | mk a res =>
      obtain ⟨n, hdn⟩ := res
      rw [hap] at ends stops
      cases hdn with
      | false => exact (foldl_runSystem_stopped rs (stops rfl)).symm
      | true => exact ih ends.1

variable {systems : List (World → List Event)}

/-- The rest of the gate's requests: one for each of some missions of the World, in which nothing
is owed a retry. -/
def Asks (c : Control) (events : List Event) : Prop :=
  NoRetries c ∧ WellFormed c ∧ ∃ missions : List Mission, (missions.map Mission.id).Nodup ∧
    (∀ m ∈ missions, m ∈ c.missions) ∧ events = missions.filterMap (decisionEvent? c.workSnapshot)

lemma decisionEvent?_some (hak : decisionEvent? work m = some ev) :
    m.status = .running ∧ m.decisionInFlight = false ∧ ev = .decisionRequested
      { missionID := m.id, cursor := terminalWorkCount work m.id, runID := m.runID } := by
  unfold decisionEvent? at hak
  simp only at hak
  split at hak
  · cases hak
  next able =>
  simp only [not_or, not_not, Bool.not_eq_true] at able
  split at hak
  · exact ⟨able.1, able.2.2, (some.inj hak).symm⟩
  · cases hak

lemma Asks.step (hax : Asks c (ev :: rest)) :
    Folds env trusted queue queue c ev ∧ Asks (reduceControl env c ev) rest := by
  obtain ⟨hq, wf, ms, ids, hk, evs⟩ := hax
  obtain ⟨pre, m, post, rfl, -, hak, hla⟩ := filterMap_eq_cons_iff.mp evs.symm
  obtain ⟨hr, hil, rfl⟩ := decisionEvent?_some hak
  have mem : m ∈ c.missions := hk m (mem_append_right _ mem_cons_self)
  constructor
  · intro log waiting tru hco
    refine ⟨fun _ => rfl, ?_⟩
    exact hco.ask env mem hr hil rfl rfl
      (congrArg Nat.cast (terminalWorkCount_eq hq mem hr))
  · rw [map_append, map_cons] at ids
    obtain ⟨hfr, ids⟩ := nodup_cons.mp (nodup_append.mp ids).2.1
    refine ⟨?_, wellFormed_reduceControl env wf _, post, ids, ?_, hla.symm⟩
    · intro m' ht hli
      obtain ⟨x, old, rfl⟩ := (mem_updateMission wf).mp ht
      split at hli
      · next hs =>
        rw [if_pos hs]
        exact hq x old hli
      · next ho =>
        rw [if_neg ho]
        exact hq x old hli
    · intro m' hla
      have ht := hk m' (mem_append_right _ (mem_cons_of_mem _ hla))
      refine (mem_updateMission wf).mpr ⟨m', ht, if_neg ?_⟩
      rw [beq_iff_eq]
      intro hs
      have own : m'.id = m.id := hs
      exact hfr (own ▸ mem_map_of_mem hla)

lemma runSystem_world (hdu : Durable env tenant e) {sys : World → List Event}
    (hli : (e.runSystem env sys).stopErr = none) :
    e.stopErr = none ∧ (e.runSystem env sys).world = reduceAll env e.world (sys e.world) := by
  unfold Engine.runSystem at hli ⊢
  split at hli
  · next hsp => exact absurd hli (isSome_iff_ne_none.mp hsp)
  · next alive =>
    have hr : e.stopErr = none := by simpa using alive
    rw [if_neg alive]
    exact ⟨hr, (applyAll_spec hdu hr _).2 hli⟩

lemma surpriseFindingSystem_control (w) :
    (reduceAll env w (surpriseFindingSystem w)).control = w.control := by
  rw [reduceAll_control]
  refine List.foldlRecOn (motive := fun c => c = w.control) _ _ rfl fun c hs ev mem => ?_
  obtain ⟨host, -, rfl⟩ := mem_map.mp mem
  unfold reduceControl
  split <;> exact hs

/-- The Systems of a daemon: some that leave missions alone, then those that execute missions. -/
structure Executes (env : Env) (systems : List (World → List Event)) (C : ConditionEnv)
    (J : JoinEnv) (others : List (World → List Event)) : Prop where
  systems : systems = others ++ executorSystems C J
  passive : ∀ sys ∈ others, ∀ w, ∀ ev ∈ sys w, isPassive ev = true

section
variable (h : Going env tenant trusted old waiting queue e)
include h

lemma Going.runSystem {sys : World → List Event} (hrg : Regular env sys) :
    Going env tenant trusted old waiting queue (e.runSystem env sys) := by
  unfold Engine.runSystem
  split
  · exact h
  next hli =>
  have hr : e.stopErr = none := by simpa using hli
  refine h.applyAll (P := fun c evs => Orderly env trusted c evs ∧
    ∀ ev ∈ evs, decisionRequest? ev = none ∧ closedDecision? ev = none) ?_ _ hr ?_
  · rintro c ev rs ⟨⟨h1, hla⟩, hp⟩
    exact ⟨folds_plain h1 (hp ev mem_cons_self), hla,
      fun x mem => hp x (mem_cons_of_mem _ mem)⟩
  · intro hor
    obtain ⟨_, -, hco⟩ := h.consistent hr hor
    exact ⟨hrg.orderly hco.steady.wf hco.steady.ready, hrg.plain⟩

lemma Going.runRegular (hrg : ∀ sys ∈ systems, Regular env sys) :
    Going env tenant trusted old waiting queue (systems.foldl (Engine.runSystem env) e) :=
  List.foldlRecOn systems _ h fun _ goi sys mem => goi.runSystem (hrg sys mem)

lemma Going.gate (hq : e.stopErr = none → NoRetries e.world.control) :
    Going env tenant trusted old waiting queue (e.runSystem env deciderGateSystem) := by
  unfold Engine.runSystem
  split
  · exact h
  next hli =>
  have hr : e.stopErr = none := by simpa using hli
  refine h.applyAll (P := Asks) Asks.step _ hr fun hor => ?_
  obtain ⟨_, -, hco⟩ := h.consistent hr hor
  have wf := hco.steady.wf
  refine ⟨hq hr, wf, e.world.control.missionSnapshot, ?_, ?_, rfl⟩
  · exact ((Rows.sortBy_perm Mission.id e.world.control.missions).map _).nodup_iff.mpr
      wf.missionIDs
  · exact fun m mem => Rows.mem_sortBy.mp mem

lemma Going.runExecutor (C J) : Going env tenant trusted old waiting queue
      ((executorSystems C J).foldl (Engine.runSystem env) e) := by
  let hry := [budgetSystem, schedulerSystem, conditionSystem C, joinSystem J]
  have hrg : ∀ sys ∈ hry, Regular env sys := by
    simp only [hry, forall_mem_cons]
    exact ⟨regular_of_done budgetSystem_done, regular_schedulerSystem, regular_conditionSystem C,
      regular_joinSystem J, nofun⟩
  have joined := h.runRegular hrg
  have hor : executorSystems C J = hry ++ [retrySystem, surpriseFindingSystem,
    deciderGateSystem, voiGateSystem, missionCompletionSystem, rescanReconciliationSystem] := rfl
  rw [hor, foldl_append]
  generalize hry.foldl (Engine.runSystem env) e = before at joined
  have ret := joined.runSystem regular_retrySystem
  have rai := ret.runSystem (regular_of_passive surpriseFindingSystem_passive)
  have gat := rai.gate fun hli => by
    obtain ⟨hli, world⟩ := runSystem_world ret.durable hli
    rw [world, surpriseFindingSystem_control, (runSystem_world joined.durable hli).2]
    refine noRetries_retrySystem ?_
    rw [joined.durable.world]
    exact replay_wellFormed env tenant _
  have hpl := gat.runSystem (regular_of_passive voiGateSystem_passive)
  have hed := hpl.runSystem (regular_of_done missionCompletionSystem_done)
  exact hed.runSystem (regular_of_passive rescanReconciliationSystem_passive)

lemma Going.runSystems {systems os : List (World → List Event)}
    (hexe : Executes env systems C J os) :
    Going env tenant trusted old waiting queue (runSystems env systems e).1 := by
  rw [runSystems_eq_foldl h.durable, hexe.systems, foldl_append]
  refine (h.runRegular fun sys mem => ?_).runExecutor C J
  exact regular_of_passive (hexe.passive sys mem)

end

lemma drain_intake (hdu : Durable env tenant e) (hr : e.stopErr = none)
    (evs) (hqu : e.intake = evs)
    (hli : (drain env evs e).1.stopErr = none) : (drain env evs e).1.intake = [] := by
  induction evs generalizing e with
  | nil => exact hqu
  | cons ev rs ih =>
    let htk : Engine S := { e with intake := rs }
    have s0 : Durable env tenant htk := hdu.of_sameLog ⟨rfl, rfl, rfl, rfl, rfl, rfl⟩
    have stops := apply_stops (e := htk) env ev hr
    have ends := durable_apply s0 hr ev
    have kp := (apply_folded env htk ev).1
    unfold drain at hli ⊢
    cases hap : htk.apply env ev with
    | mk a hdn =>
      rw [hap] at stops ends kp
      cases hdn with
      | false =>
        simp only [htk, hap] at hli
        exact absurd hli (stops rfl).1
      | true =>
        simp only [htk, hap] at hli
        exact ih ends.1 (ends.2 rfl) kp hli

lemma runSystems_intake (hdu : Durable env tenant e) (systems : List (World → List Event)) :
    (runSystems env systems e).1.intake = e.intake ∧
      ((runSystems env systems e).1.stopErr = none → e.stopErr = none) := by
  rw [runSystems_eq_foldl hdu]
  constructor
  · refine List.foldlRecOn (motive := fun a : Engine S => a.intake = e.intake) systems _ rfl
      fun a hs sys _ => ?_
    unfold Engine.runSystem
    split
    · exact hs
    · exact (applyAll_folded env (sys a.world) a).1.trans hs
  intro hli
  by_contra stopped
  rw [foldl_runSystem_stopped systems stopped] at hli
  exact stopped hli

/-- The Engine between two ticks: the queue comes before the events that a worker still holds back,
and it is in order. -/
structure Between (env : Env) (tenant : String) (trusted : Event → Prop) (old : List Event)
    (waiting : List DecisionRequest) (outbox : List Event) (e : Engine S) : Prop where
  going : Going env tenant trusted old waiting (e.intake ++ outbox) e
  orderly : e.stopErr = none → OrderlyLog env tenant trusted (S.history e.store) →
    Orderly env trusted e.world.control e.intake

lemma Between.enqueue (h : Between env tenant trusted old waiting outbox e)
    (hk : trusted ev ∨ Always ev)
    (tks : ∀ {c log reqs}, Accounted c log reqs (e.intake ++ outbox) → Accounted c log reqs
      (e.intake ++ ev :: outbox')) :
    Between env tenant trusted old waiting outbox' { e with intake := e.intake ++ [ev] } := by
  constructor
  · have queue : e.intake ++ [ev] ++ outbox' = e.intake ++ ev :: outbox' := by simp
    have kp := h.going.regroup waiting fun _ _ hau => tks hau
    rw [queue]
    exact ⟨h.going.durable.of_sameLog ⟨rfl, rfl, rfl, rfl, rfl, rfl⟩, kp.steady, kp.heard⟩
  · intro hr hor
    refine (h.orderly hr hor).append fun x mem => ?_
    rwa [mem_singleton.mp mem]

lemma Between.submit (h : Between env tenant trusted old waiting outbox e)
    (hk : trusted ev ∨ Always ev)
    (hp : decisionRequest? ev = none ∧ closedDecision? ev = none) :
    Between env tenant trusted old waiting outbox (e.submit ev) := by
  unfold Engine.submit
  split
  · exact h
  split
  · exact h
  · exact h.enqueue hk fun hau => hau.insert hp.1 hp.2

lemma Between.sweep {os : List (World → List Event)}
    (hexe : Executes env systems C J os) (k : Nat)
    (h : Between env tenant trusted old waiting outbox e) :
    Between env tenant trusted old waiting outbox (sweep env systems k e).1 := by
  induction k generalizing e with
  | zero => exact h
  | succ k ih =>
    unfold Engine.sweep
    split
    · exact h
    next alive =>
    have hr : e.stopErr = none := by simpa using alive
    have hdrn := h.going.drain e.intake hr (h.orderly hr)
    have ran := hdrn.runSystems hexe
    obtain ⟨queue, live⟩ := runSystems_intake hdrn.durable systems
    have emptied (running' : ((e.drainIntake env).1.runSystems env systems).1.stopErr = none) :
        ((e.drainIntake env).1.runSystems env systems).1.intake = [] :=
      queue.trans (drain_intake h.going.durable hr e.intake rfl (live running'))
    have next : Between env tenant trusted old waiting outbox
        ((e.drainIntake env).1.runSystems env systems).1 := by
      by_cases running' : ((e.drainIntake env).1.runSystems env systems).1.stopErr = none
      · refine ⟨?_, fun _ _ => ?_⟩
        · rwa [emptied running']
        · rw [emptied running']
          trivial
      · exact ⟨ran.of_stopped running' _ _, fun live => absurd live running'⟩
    simp only
    split
    · exact next
    · exact ih next

end Engine
end Gibson.Brain
