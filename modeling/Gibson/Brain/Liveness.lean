import Gibson.Brain.Slice
import Gibson.Brain.Steadiness

/-! A goal mission is never stuck, as long as no restart, no answer and no event from outside takes
a decision away: a mission about which nothing is on its way is one for which the gate asks. -/

namespace Gibson.Brain

open List Daemon

variable {ι : Type} {S : TimelineStore ι}

def DeciderStage.requests : DeciderStage → List DecisionRequest
  | .deciding req _ => [req]
  | _ => []

/-- The events of an answer that are not submitted yet. -/
def DeciderStage.events : DeciderStage → List Event
  | .submitting evs => evs
  | _ => []

def DeciderDrain.waiting (d : DeciderDrain) : List DecisionRequest :=
  d.todo ++ d.deferred ++ d.stage.requests

def DeciderWorker.waiting (dw : DeciderWorker) : List DecisionRequest :=
  dw.pending ++ dw.drain.elim [] DeciderDrain.waiting

def DeciderWorker.outbox (dw : DeciderWorker) : List Event :=
  dw.drain.elim [] fun d => d.stage.events

def isFor (c : Control) (missionID : String) (ev : Event) : Bool :=
  match ev with
  | .voiPlanRequested e | .voiPlanned e => e.missionID == missionID
  | ev => eventInMission ev missionID fun id => (findWork c id).any (·.missionID == missionID)

/-- No running work, no work to dispatch, no worker with a request and no buffered event. -/
structure Quiet (s : Daemon S) (m : Mission) : Prop where
  running : ∀ wi ∈ s.eng.world.control.workSnapshot, wi.missionID = m.id → wi.state ≠ .running
  pending : ∀ wi ∈ s.eng.world.control.workSnapshot, wi.missionID = m.id → wi.state = .pending →
    depsSatisfied wi.dependsOn (workIndex s.eng.world.control.workSnapshot) = false
  decider : ∀ req ∈ s.decider.waiting, req.missionID ≠ m.id
  planner : ∀ req ∈ s.planner.pending ++ s.planner.todo, req.missionID ≠ m.id
  events : ∀ ev ∈ s.eng.intake ++ s.decider.outbox, isFor s.eng.world.control m.id ev = false

def asksFor (m : Mission) : Event → Bool
  | .decisionRequested e | .voiPlanRequested e => e.missionID == m.id
  | _ => false

/-- Every running goal mission that is quiet gets a request from the World as it is. A stopped
Engine has no next tick. -/
def Unstuck (s : Daemon S) : Prop :=
  s.eng.stopErr = none → ∀ m ∈ s.eng.world.control.missions, m.status = .running → m.goal ≠ "" →
    Quiet s m →
      ∃ ev ∈ deciderGateSystem s.eng.world ++ voiGateSystem s.eng.world, asksFor m ev = true

def Fruitless (D : DeciderEnv) (c : Control) (mc : MissionContext) :
    Except String DeciderOutput → Prop
  | .error _ => True
  | .ok out => out.complete = none ∧ validDispatches D c mc out = [] ∧ mc.quiescent = false

/-- Only the gate asks for decisions and only the worker closes them; a fruitless answer is given
only while the mission has something to do; and the daemon restarts only without a snapshot and
with no decision of an unfinished mission in flight. -/
def Safe (E : DaemonEnv S) (s : Daemon S) : Daemon.Action → Prop
  | .submit ev => decisionRequest? ev = none ∧ closedDecision? ev = none
  | .answer reply => ∀ d req mc, s.decider.drain = some d → d.stage = .deciding req mc →
      Fruitless E.decider s.eng.world.control mc reply →
        ∀ m ∈ s.eng.world.control.missions, m.status.isTerminal = false →
          speaksFor m req = true → HasProgress s.eng.world.control m
  | .restart => E.loader.loadSnapshot s.eng.store = none ∧
      ∀ m ∈ (replay E.env E.tenant (S.history s.eng.store)).control.missions,
        m.status.isTerminal = false → m.decisionInFlight = false
  | _ => True

/-- Every step is safe where it is taken. -/
def SafeRun (E : DaemonEnv S) : Daemon S → List Daemon.Action → Prop
  | _, [] => True
  | s, a :: rest => Safe E s a ∧ SafeRun E (s.step E a) rest

/-- The events from outside: those that a caller submits, and the dispatches of the Decider. -/
def Sent (actions : List Daemon.Action) (ev : Event) : Prop :=
  .submit ev ∈ actions ∨ ∃ req seq d, ev = dispatchEvent req seq d

/-- Without a snapshot, everything that was ever appended is loaded. -/
def Loader.Complete (L : Loader S) : Prop :=
  ∀ st, L.loadSnapshot st = none → L.loadForReplay st none = S.history st

/-- The invariant behind progress. -/
structure Lively (E : DaemonEnv S) (trusted : Event → Prop) (s : Daemon S) : Prop where
  between : Engine.Between E.env E.tenant trusted s.eng.published s.decider.waiting
    s.decider.outbox s.eng
  known : ∀ ev ∈ s.decider.outbox, trusted ev ∨ Always ev

section
variable {E : DaemonEnv S} {s : Daemon S}

lemma accounted_of_plain (hil : ∀ m ∈ c.missions, m.status.isTerminal = false →
      m.decisionInFlight = false)
    (hp : ∀ ev ∈ queue, decisionRequest? ev = none ∧ closedDecision? ev = none) :
    Accounted c log [] queue := by
  have hcls : closed queue = [] := filterMap_eq_nil_iff.mpr fun ev mem => (hp ev mem).2
  refine ⟨fun m mem hu => ?_, ?_, by simp [hcls], fun ev mem => (hp ev mem).1⟩
  · simp [hcls, hil m mem hu]
  · rintro m - - hb req ha rfl
    exact absurd (hp _ (mem_append_right _ mem_cons_self)).2 (by simp [closeEvent, closedDecision?])

lemma lively_new : Lively E trusted (new E) where
  between := by
    have hdu : Engine.Durable E.env E.tenant (new E).eng := Engine.durable_new S E.cadence
    refine ⟨⟨hdu, fun _ => ?_, [], rfl, fun _ _ => ?_⟩, fun _ _ => trivial⟩
    · have hem : S.history (new E).eng.store = [] := congrArg _ S.record_init
      rw [hem]
      exact ⟨wellFormed_empty, forall_mem_nil _, forall_mem_nil _, forall_mem_nil _, forall_mem_nil _⟩
    · exact accounted_of_plain (forall_mem_nil _) (forall_mem_nil _)
  known := forall_mem_nil _

lemma Lively.regroup {dw planner} (h : Lively E trusted s)
    (perm : dw.waiting.Perm s.decider.waiting) (outbox : dw.outbox = s.decider.outbox) :
    Lively E trusted { s with decider := dw, planner } where
  between := by
    rw [outbox]
    exact ⟨h.between.going.regroup _ fun _ hfr hau => hau.of_perm (perm.append_right _),
      h.between.orderly⟩
  known := by
    rw [outbox]
    exact h.known

lemma startDrain_waiting (dw : DeciderWorker) (c) (n : Nat) :
    (dw.startDrain c n).waiting.Perm dw.waiting ∧ (dw.startDrain c n).outbox = dw.outbox := by
  obtain ⟨hp, seq, drain⟩ := dw
  cases drain with
  | some d => exact ⟨.refl _, rfl⟩
  | none =>
    refine ⟨?_, rfl⟩
    show (hp.drop n ++ (hp.take n ++ [] ++ [])).Perm (hp ++ [])
    rw [append_nil, append_nil, append_nil]
    exact perm_append_comm.trans (List.Perm.of_eq (take_append_drop n hp))

lemma next_waiting (D) (dw : DeciderWorker) (c) :
    (dw.next D c).waiting.Perm dw.waiting ∧ (dw.next D c).outbox = dw.outbox := by
  obtain ⟨hp, seq, drain⟩ := dw
  cases drain with
  | none => exact ⟨.refl _, rfl⟩
  | some d =>
    obtain ⟨pla, todo, hdf, sg⟩ := d
    cases sg with
    | deciding req mc | submitting evs => exact ⟨.refl _, rfl⟩
    | ready =>
      cases todo with
      | nil =>
        refine ⟨?_, rfl⟩
        show (hdf ++ hp ++ []).Perm (hp ++ ([] ++ hdf ++ []))
        rw [append_nil, append_nil, nil_append]
        exact perm_append_comm
      | cons req todo =>
        simp only [DeciderWorker.next]
        split
        · refine ⟨List.Perm.append_left _ ?_, rfl⟩
          show (todo ++ (hdf ++ [req]) ++ []).Perm (req :: todo ++ hdf ++ [])
          rw [append_nil, append_nil, ← append_assoc]
          exact perm_append_singleton req (todo ++ hdf)
        · refine ⟨List.Perm.append_left _ ?_, rfl⟩
          show (todo ++ hdf ++ [req]).Perm (req :: todo ++ hdf ++ [])
          rw [append_nil]
          exact perm_append_singleton req (todo ++ hdf)

variable {reply : Except String DeciderOutput}

lemma mem_decisionEvents (mem : ev ∈ decisionEvents D c seq req mc reply) :
    (∃ n d, ev = dispatchEvent req n d) ∨
      ∃ e : MissionDone, ev = .missionDone e ∧ e.status.isTerminal = true := by
  have hdis : ∀ {seq : Nat} {hva : List DeciderDispatch},
      ev ∈ dispatchEvents req seq hva → ∃ n d, ev = dispatchEvent req n d := by
    intro seq hva mem
    induction hva generalizing seq with
    | nil => exact absurd mem not_mem_nil
    | cons d rs ih =>
      rcases mem_cons.mp mem with rfl | later
      · exact ⟨_, _, rfl⟩
      · exact ih later
  unfold decisionEvents at mem
  split at mem
  · exact absurd mem not_mem_nil
  split at mem
  · case h_1 hdn _ =>
      rw [mem_singleton.mp mem]
      refine .inr ⟨_, rfl, ?_⟩
      unfold missionDoneFrom MissionDone.status
      simp only [Option.getD_some]
      split <;> rfl
  · split at mem
    · split at mem
      · rw [mem_singleton.mp mem]
        exact .inr ⟨_, rfl, rfl⟩
      · exact absurd mem not_mem_nil
    · exact .inl (hdis mem)

lemma answers_of_fruit (seq : Nat) (fru : ¬ Fruitless D c mc reply)
    (hsk : speaksFor m req = true) :
    ∃ ev ∈ decisionEvents D c seq req mc reply, Answers m ev := by
  cases reply with
  | error err => exact absurd trivial fru
  | ok out =>
    simp only [Fruitless, not_and, Bool.not_eq_false] at fru
    simp only [decisionEvents]
    cases hcp : out.complete with
    | some hdn =>
      refine ⟨_, mem_singleton.mpr rfl, hsk, ?_⟩
      unfold missionDoneFrom MissionDone.status
      simp only [Option.getD_some]
      split <;> rfl
    | none =>
      cases hva : validDispatches D c mc out with
      | nil =>
        simp only [fru hcp hva, if_true]
        exact ⟨_, mem_singleton.mpr rfl, hsk, rfl⟩
      | cons d rs => exact ⟨_, mem_cons_self, hsk⟩

lemma Lively.answer (h : Lively E trusted s)
    (hdi : ∀ req n d, trusted (dispatchEvent req n d)) (hsf : Safe E s (.answer reply)) :
    Lively E trusted (s.step E (.answer reply)) := by
  obtain ⟨eng, ⟨hp, seq, drain⟩, pla0⟩ := s
  cases drain with
  | none => exact h
  | some d =>
    obtain ⟨pla, todo, hdf, sg⟩ := d
    cases sg with
    | ready | submitting evs => exact h
    | deciding req mc =>
      have hsf := hsf _ req mc rfl rfl
      let evs := decisionEvents E.decider eng.world.control seq req mc reply
      have hp0 : ∀ ev ∈ evs, decisionRequest? ev = none ∧ closedDecision? ev = none := by
        intro ev mem
        rcases mem_decisionEvents mem with ⟨n, d, rfl⟩ | ⟨e, rfl, -⟩ <;> exact ⟨rfl, rfl⟩
      refine ⟨⟨?_, h.between.orderly⟩, ?_⟩
      · refine h.between.going.regroup _ fun _ hfr hau => ?_
        have hhe : ((hp ++ (todo ++ hdf ++ [])) ++ hfr ++ [req]).Perm
            ((hp ++ (todo ++ hdf ++ [req])) ++ hfr) := by
          rw [append_nil, ← append_assoc hp (todo ++ hdf) [req],
            append_assoc _ hfr, append_assoc _ [req]]
          exact List.Perm.append_left _ perm_append_comm
        have hqu := (hau.of_perm hhe).append hp0
        have hcl := hqu.answer fun m mem hu hsk => by
          by_cases fru : Fruitless E.decider eng.world.control mc reply
          · exact .inl (hsf fru m mem hu hsk)
          · obtain ⟨ev, ht, ans⟩ := answers_of_fruit seq fru hsk
            exact .inr ⟨ev, mem_append_right _ ht, ans⟩
        have hs : eng.intake ++ [] ++ evs ++ [closeEvent req] =
            eng.intake ++ (evs ++ [closeEvent req]) := by simp
        exact hs ▸ hcl
      · intro ev mem
        rcases mem_append.mp mem with mem | mem
        · rcases mem_decisionEvents mem with ⟨n, d, rfl⟩ | ⟨e, rfl, ends⟩
          · exact .inl (hdi req n d)
          · exact .inr fun c => ⟨ends, rfl⟩
        · rw [mem_singleton.mp mem]
          exact .inr fun c => ⟨trivial, rfl⟩

lemma submit_published {e : Engine S} (ev) : (e.submit ev).published = e.published := by
  unfold Engine.submit
  split
  · rfl
  · split <;> rfl

lemma Lively.submitAnswer (h : Lively E trusted s) : Lively E trusted s.submitAnswer := by
  obtain ⟨eng, ⟨hp, seq, drain⟩, planner⟩ := s
  cases drain with
  | none => exact h
  | some d =>
    obtain ⟨planning, todo, hdf, stage⟩ := d
    cases stage with
    | ready | deciding req mc => exact h
    | submitting evs =>
      cases evs with
      | nil => exact h
      | cons ev evs =>
        unfold submitAnswer
        simp only
        split
        · exact h
        next room =>
        -- Without another event the worker is ready for the next request.
        have stage : (if evs.isEmpty then DeciderStage.ready else .submitting evs).events =
            evs ∧ (if evs.isEmpty then DeciderStage.ready else .submitting evs).requests = [] := by
          cases evs <;> exact ⟨rfl, rfl⟩
        have next : Engine.Between E.env E.tenant trusted eng.published
            (hp ++ (todo ++ hdf ++ [])) evs (eng.submit ev) := by
          unfold Engine.submit
          by_cases hsp : eng.stopErr.isSome
          · rw [if_pos hsp]
            have hsp := Option.isSome_iff_ne_none.mp hsp
            exact ⟨h.between.going.of_stopped hsp _ _,
              fun hr => absurd hr hsp⟩
          · have hr : eng.stopErr = none := by simpa using hsp
            have short : ¬ intakeBuffer ≤ eng.intake.length := by
              simpa [full, hr] using room
            rw [if_neg hsp, if_neg short]
            exact h.between.enqueue (h.known ev mem_cons_self) fun hau => hau
        refine ⟨?_, ?_⟩
        · show Engine.Between E.env E.tenant trusted (eng.submit ev).published
            (hp ++ (todo ++ hdf ++ DeciderStage.requests _)) (DeciderStage.events _) _
          rwa [submit_published, stage.1, stage.2]
        · show ∀ x ∈ DeciderStage.events _, _
          rw [stage.1]
          exact fun x mem => h.known x (mem_cons_of_mem _ mem)

lemma Lively.submit (h : Lively E trusted s) {ev : Event} {planner} (known : trusted ev ∨ Always ev)
    (hp : decisionRequest? ev = none ∧ closedDecision? ev = none) :
    Lively E trusted { s with eng := s.eng.submit ev, planner } where
  between := by
    rw [submit_published]
    exact h.between.submit known hp
  known := h.known

lemma Lively.plan (h : Lively E trusted s) (res : Except String (List VoICandidate)) :
    Lively E trusted (s.plan res) := by
  unfold Daemon.plan
  split
  · split
    · exact h
    · exact h.submit (.inr (always_of_passive rfl)) ⟨rfl, rfl⟩
  · exact h

lemma Lively.tick {others : List (World → List Event)}
    (executes : Engine.Executes E.env E.systems C J others) (h : Lively E trusted s) :
    Lively E trusted (s.tick E) where
  between := by
    have tic := h.between.sweep executes maxSweeps
    refine ⟨?_, tic.orderly⟩
    refine tic.going.rebase.regroup _ fun _ hfr hau => hau.of_perm ?_
    refine List.Perm.append_right _ ?_
    show (s.decider.pending ++ _ ++ _).Perm (s.decider.pending ++ _ ++ _)
    rw [append_assoc, append_assoc]
    exact List.Perm.append_left _ perm_append_comm
  known := h.known

lemma Lively.restart (loads : E.loader.Complete) (h : Lively E trusted s)
    (hsf : Safe E s .restart) : Lively E trusted (s.restart E) := by
  obtain ⟨none, hil⟩ := hsf
  unfold Daemon.restart
  cases hyd : s.eng.hydrate E.env E.loader E.tenant E.cadence with
  | none => exact h
  | some eng =>
    unfold Engine.hydrate at hyd
    simp only [none, Option.bind_none, loads _ none, hydratedWorld] at hyd
    split at hyd
    · cases hyd
    cases hyd
    let world := replay E.env E.tenant (S.history s.eng.store)
    have hrg : Regular E.env resumeFailInFlight := regular_resumeFailInFlight
    have hp := hrg.plain (w := world)
    refine ⟨⟨⟨?_, h.between.going.steady, [], rfl, fun _ _ => ?_⟩, ?_⟩, forall_mem_nil _⟩
    · exact ⟨rfl, fun _ => rfl, fun hsp => absurd rfl hsp, h.between.going.durable.keys⟩
    · show Accounted world.control _ [] (resumeFailInFlight world ++ [])
      rw [append_nil]
      exact accounted_of_plain hil hp
    · intro _ hor
      have hsy := h.between.going.steady hor
      exact hrg.orderly (w := world) hsy.wf hsy.ready

section
variable {others : List (World → List Event)} {trusted : Event → Prop}
  (executes : Engine.Executes E.env E.systems C J others) (loads : E.loader.Complete)
  (hdi : ∀ req n d, trusted (dispatchEvent req n d))
include executes loads hdi

lemma Lively.step (h : Lively E trusted s) (hsub : ∀ ev, a = .submit ev → trusted ev)
    (hsf : Safe E s a) : Lively E trusted (s.step E a) := by
  cases a with
  | submit ev => exact h.submit (.inl (hsub ev rfl)) hsf
  | tick => exact h.tick executes
  | startDecisions n =>
    obtain ⟨perm, outbox⟩ := startDrain_waiting s.decider s.eng.world.control n
    exact h.regroup perm outbox
  | nextDecision =>
    obtain ⟨perm, outbox⟩ := next_waiting E.decider s.decider s.eng.world.control
    exact h.regroup perm outbox
  | answer reply => exact h.answer hdi hsf
  | submitAnswer => exact h.submitAnswer
  | startPlans n => exact h.regroup (.refl _) rfl
  | plan res => exact h.plan res
  | restart => exact h.restart loads hsf

lemma Lively.run (hsub : ∀ ev, .submit ev ∈ acs → trusted ev) (h : Lively E trusted s)
    (hsf : SafeRun E s acs) : Lively E trusted (acs.foldl (Daemon.step E) s) := by
  induction acs generalizing s with
  | nil => exact h
  | cons a rs ih =>
    refine ih (fun ev mem => hsub ev (mem_cons_of_mem _ mem)) ?_ hsf.2
    refine h.step executes loads hdi (fun ev hs => ?_) hsf.1
    exact hsub ev (hs ▸ mem_cons_self)

end

lemma settledCount_le_terminalWorkCount (c missionID) :
    settledCount c missionID ≤ terminalWorkCount c.workSnapshot missionID ∧
      ((∃ wi ∈ c.work, wi.missionID = missionID ∧ wi.retries = true) →
        settledCount c missionID < terminalWorkCount c.workSnapshot missionID) := by
  unfold settledCount terminalWorkCount
  rw [(workSnapshot_perm c).countP_eq]
  have wea : ∀ wi ∈ c.work, (wi.missionID == missionID && wi.settled) = true →
      (wi.missionID == missionID && wi.state.isTerminal) = true := by
    intro wi _ hct
    rw [WorkItem.settled, ← Bool.and_assoc, Bool.and_eq_true] at hct
    exact hct.1
  refine ⟨countP_mono_left wea, ?_⟩
  rintro ⟨wi, ht, mi, rt⟩
  refine Rows.countP_lt_countP wea ht ?_ ?_
  · rw [WorkItem.settled, rt, Bool.not_true, Bool.and_false, Bool.and_false]
  have hfa : wi.state = .failed := by
    rw [WorkItem.retries, Bool.and_eq_true, Bool.and_eq_true, beq_iff_eq] at rt
    exact rt.1.1
  simp [mi, hfa, WorkState.isTerminal]

lemma Quiet.idle (hq : Quiet s m)
    (hau : Accounted s.eng.world.control log s.decider.waiting (s.eng.intake ++
      s.decider.outbox)) (mem : m ∈ s.eng.world.control.missions)
    (hu : m.status.isTerminal = false) : m.decisionInFlight = false := by
  have ct := hau.count m mem hu
  rw [countP_eq_zero_of_fresh, countP_eq_zero_of_fresh] at ct
  · cases inFlight : m.decisionInFlight with
    | false => rfl
    | true => simp [inFlight] at ct
  · intro req hl
    obtain ⟨ev, hqu, hcls⟩ := mem_filterMap.mp hl
    rw [← Bool.not_eq_true]
    intro hsk
    have hsil := hq.events ev hqu
    cases ev <;> simp only [closedDecision?, reduceCtorEq, Option.some.injEq] at hcls
    simp only [isFor, eventInMission, beq_eq_false_iff_ne] at hsil
    rw [← hcls] at hsk
    exact hsil (speaksFor_mission hsk)
  · intro req ws
    rw [← Bool.not_eq_true]
    exact fun hsk => hq.decider req ws (speaksFor_mission hsk)

lemma Quiet.asked (hq : Quiet s m) (hsy : Steady s.eng.world.control)
    (mem : m ∈ s.eng.world.control.missions) (hr : m.status = .running) (goal : m.goal ≠ "")
    (hil : m.decisionInFlight = false) :
    ∃ ev ∈ deciderGateSystem s.eng.world, asksFor m ev = true := by
  have hu : m.status.isTerminal = false := by rw [hr]; rfl
  obtain ⟨le, lt⟩ := settledCount_le_terminalWorkCount s.eng.world.control m.id
  have cursor := hsy.cursor m mem hu
  have due : m.decisionCursor = -1 ∨
      (terminalWorkCount s.eng.world.control.workSnapshot m.id : Int) ≠ m.decisionCursor := by
    refine (hsy.progress m mem hu hil).imp_right fun hpgr => ?_
    rcases hpgr with new0 | ⟨wi, ht, mi, active⟩
    · omega
    rcases active with rns | retries | ⟨hp, met⟩
    · exact absurd rns (hq.running wi (mem_workSnapshot.mpr ht) mi)
    · have more := lt ⟨wi, ht, mi, retries⟩
      omega
    have ws := hq.pending wi (mem_workSnapshot.mpr ht) mi hp
    rw [(depsSatisfied_iff hsy.wf).mpr met] at ws
    cases ws
  let request : Event := .decisionRequested
    { missionID := m.id, cursor := terminalWorkCount s.eng.world.control.workSnapshot m.id,
      runID := m.runID }
  have hsa : decisionEvent? s.eng.world.control.workSnapshot m = some request := by
    unfold decisionEvent?
    simp only [hr, goal, hil, ne_eq, not_true_eq_false, Bool.false_eq_true, or_self, if_false]
    exact if_pos due
  exact ⟨request, mem_filterMap.mpr ⟨m, Rows.mem_sortBy.mpr mem, hsa⟩, beq_self_eq_true m.id⟩

lemma Lively.unstuck (h : Lively E trusted s)
    (hor : OrderlyLog E.env E.tenant trusted (S.history s.eng.store)) : Unstuck s := by
  intro hr m mem rns goal hq
  obtain ⟨hfr, hpb, hco⟩ := h.between.going.consistent hr hor
  have none : hfr = [] := self_eq_append_right.mp hpb
  rw [none, filterMap_nil, append_nil] at hco
  have hil := hq.idle hco.accounted mem (by rw [rns]; rfl)
  obtain ⟨ev, hsa, hax⟩ := hq.asked hco.steady mem rns goal hil
  exact ⟨ev, mem_append_left _ hsa, hax⟩

end

/-- Goal missions are never stuck, in every run of the daemon whose steps are safe, as long as each
event from outside is in order where it is folded. -/
theorem goal_missions_unstuck (E : DaemonEnv S) {C : ConditionEnv} {J : JoinEnv}
    {others : List (World → List Event)} (executes : Engine.Executes E.env E.systems C J others)
    (loads : E.loader.Complete) {actions : List Daemon.Action}
    (safe : SafeRun E (Daemon.new E) actions) (orderly : OrderlyLog E.env E.tenant (Sent actions)
      (S.history (Daemon.run E actions).eng.store)) : Unstuck (Daemon.run E actions) := by
  have liv : Lively E (Sent actions) (Daemon.run E actions) :=
    lively_new.run executes loads (fun req n d => .inr ⟨req, n, d, rfl⟩) (fun ev mem => .inl mem) safe
  exact liv.unstuck orderly

/-- Work runs only after what it depends on, in every such run: also after a crash, and although
the World may change before a dispatch is folded. -/
theorem runs_after_dependencies (E : DaemonEnv S) {C : ConditionEnv} {J : JoinEnv}
    {others : List (World → List Event)} (executes : Engine.Executes E.env E.systems C J others)
    (loads : E.loader.Complete) {actions : List Daemon.Action}
    (safe : SafeRun E (Daemon.new E) actions) (orderly : OrderlyLog E.env E.tenant (Sent actions)
      (S.history (Daemon.run E actions).eng.store))
    (live : (Daemon.run E actions).eng.stopErr = none) :
    Ready (Daemon.run E actions).eng.world.control := by
  have liv : Lively E (Sent actions) (Daemon.run E actions) :=
    lively_new.run executes loads (fun req n d => .inr ⟨req, n, d, rfl⟩) (fun ev mem => .inl mem) safe
  obtain ⟨_, _, hco⟩ := liv.between.going.consistent live orderly
  exact hco.steady.ready

section
open DurableLog

def scriptedStore (fates : List Store.Fate) : TimelineStore Nat :=
  Store.scripted Event Nat (WorldSnapshot Nat) fates

/-- A daemon over a store whose appends meet the given fates, with the Systems that execute
missions and no others. -/
def scriptedDaemon (fates : List Store.Fate) : DaemonEnv (scriptedStore fates) where
  env := .plain
  decider := { catalog := fun _ => [], validJSON := fun _ => true }
  systems := executorSystems
    { unmarshal := fun _ => none, evalCondition := fun _ _ _ => false }
    { Spec := Unit, unmarshal := fun _ => .ok (), mergeJoin := fun _ _ _ => .ok "" }
  loader :=
    { loadSnapshot := fun _ => none
      loadForReplay := fun st _ => (scriptedStore fates).history st }
  tenant := "t"
  cadence := 0

def launchAndRestart : List Daemon.Action :=
  [.submit (.missionProjected { id := "m", goal := "g", runID := "r" }), .tick, .restart]

def takesOne : List Store.Fate := [.replies, .fails, .fails, .fails]

/-- Where the store did not take the request, the next daemon makes it again. -/
theorem goal_missions_unstuck_unwritten :
    (∃ m ∈ (Daemon.run (scriptedDaemon takesOne) launchAndRestart).eng.world.control.missions,
      m.status = .running ∧ m.goal ≠ "" ∧
        Quiet (Daemon.run (scriptedDaemon takesOne) launchAndRestart) m) ∧
    (Daemon.run (scriptedDaemon takesOne) launchAndRestart).eng.stopErr = none ∧
      Unstuck (Daemon.run (scriptedDaemon takesOne) launchAndRestart) := by
  refine ⟨⟨{ id := "m", goal := "g", runID := "r", status := .running }, ?_, rfl, by decide,
    ⟨forall_mem_nil _, forall_mem_nil _, forall_mem_nil _, forall_mem_nil _, forall_mem_nil _⟩⟩,
    rfl, ?_⟩
  · exact mem_singleton.mpr rfl
  have executes : Engine.Executes .plain (scriptedDaemon takesOne).systems _ _ [] :=
    ⟨rfl, forall_mem_nil _⟩
  refine goal_missions_unstuck (scriptedDaemon takesOne) executes ?_ ?_ ?_
  · exact fun st _ => rfl
  · refine ⟨⟨rfl, rfl⟩, trivial, ⟨rfl, fun m mem _ => ?_⟩, trivial⟩
    rw [mem_singleton.mp mem]
    rfl
  · intro pa ev rs split _
    replace split : [Event.missionProjected { id := "m", goal := "g", runID := "r" }] = _ := split
    obtain ⟨rfl, rfl, rfl⟩ : pa = [] ∧
        ev = .missionProjected { id := "m", goal := "g", runID := "r" } ∧ rs = [] := by
      cases pa with
      | nil => exact ⟨rfl, (List.cons.inj split).1.symm, (List.cons.inj split).2.symm⟩
      | cons x pa => simp at split
    exact ⟨fun _ => forall_mem_nil _, fun _ _ _ => forall_mem_nil _⟩

/-- Where the request was written, nobody answers it after the restart. -/
theorem goal_mission_stuck : ¬ Unstuck (Daemon.run (scriptedDaemon []) launchAndRestart) := by
  intro unstuck
  let m : Mission :=
    { id := "m", goal := "g", runID := "r", status := .running, decisionInFlight := true,
      decisionCursor := 0 }
  have hq : Quiet (run (scriptedDaemon []) launchAndRestart) m :=
    ⟨forall_mem_nil _, forall_mem_nil _, forall_mem_nil _, forall_mem_nil _, forall_mem_nil _⟩
  obtain ⟨ev, hsa, -⟩ := unstuck rfl m (mem_singleton.mpr rfl) rfl (by decide) hq
  exact absurd hsa not_mem_nil

/-- A mission of two nodes: the second depends on the first, whose completion is reported after a
tick. -/
def chainRun : List Daemon.Action :=
  [.submit (.missionProjected
      { id := "m", runID := "r"
        nodes := [{ id := "a", kind := .agent }, { id := "b", kind := .agent, dependsOn := ["a"] }] }),
    .tick, .submit (.workCompleted { id := "m/a", runID := "r" }), .tick]

theorem runs_after_dependencies_chain :
    (Daemon.run (scriptedDaemon []) chainRun).eng.world.control.work.map
        (fun wi => (wi.id, wi.state)) = [("m/a", .done), ("m/b", .running)] ∧
      Ready (Daemon.run (scriptedDaemon []) chainRun).eng.world.control := by
  have executes : Engine.Executes .plain (scriptedDaemon []).systems _ _ [] :=
    ⟨rfl, forall_mem_nil _⟩
  refine ⟨rfl, runs_after_dependencies _ executes (fun _ _ => rfl)
    ⟨⟨rfl, rfl⟩, trivial, ⟨rfl, rfl⟩, trivial, trivial⟩ ?_ rfl⟩
  refine Prefix.forall_split (P := fun hpa ev => Sent chainRun ev →
    InOrder hpa (replay .plain "t" hpa).control ev) ⟨?_, ?_, ?_, ?_, trivial⟩
  all_goals intro _
  · exact ⟨fun _ => forall_mem_nil _, fun _ _ _ => forall_mem_nil _⟩
  · refine ⟨fun wi hf => ?_, nofun⟩
    cases hf
    exact ⟨rfl, rfl, rfl, forall_mem_nil _⟩
  · refine ⟨fun wi hf hp => ?_, nofun⟩
    cases hf
    cases hp
  · refine ⟨fun wi hf => ?_, nofun⟩
    cases hf
    exact ⟨rfl, rfl, rfl, forall_mem_singleton.mpr ⟨_, .head _, rfl, rfl⟩⟩

end
end Gibson.Brain
