import Gibson.Brain.Decider

/-! One tenant's daemon: the Engine, its two workers and the durable store that outlives them. -/

namespace Gibson.Brain

variable {ι : Type} {S : TimelineStore ι}

/-- What `Hydrate` loads from a store: the last snapshot, and the events after a position. -/
structure Loader (S : TimelineStore ι) where
  loadSnapshot : S.State → Option (WorldSnapshot ι)
  loadForReplay : S.State → Option ι → List Event

def hydratedWorld (env : Env) (tenant : String) (snap : Option (WorldSnapshot ι))
    (evs : List Event) : World :=
  match snap with
  | some snap => reduceAll env (restoreWorld env snap.data tenant) evs
  | none => reduceAll env (newWorld tenant) evs

/-- Queues the failures of the work in flight, and never returns where the queue is too small. -/
def Engine.hydrate (env : Env) (L : Loader S) (tenant : String) (cadence : Int) (old : Engine S) :
    Option (Engine S) :=
  let snap := L.loadSnapshot old.store
  let afterSeq := snap.bind WorldSnapshot.atSeq
  let evs := L.loadForReplay old.store afterSeq
  let world := hydratedWorld env tenant snap evs
  if intakeBuffer < (resumeFailInFlight world).length then none
  else
    some
      { world
        timeline := evs
        intake := resumeFailInFlight world
        store := old.store
        snapshotCadence := cadence
        lastSnapshotSeq := afterSeq
        nextUUID := old.nextUUID
        applied := evs }

/-- The engine and its two workers. -/
structure Daemon (S : TimelineStore ι) where
  eng : Engine S
  decider : DeciderWorker := {}
  planner : VoIWorker := {}

/-- What is outside of the daemon. -/
structure DaemonEnv (S : TimelineStore ι) where
  env : Env
  decider : DeciderEnv
  systems : List (World → List Event)
  loader : Loader S
  tenant : String
  cadence : Int

namespace Daemon

def new (E : DaemonEnv S) : Daemon S where
  eng := Engine.new S E.tenant E.cadence

def full (s : Daemon S) : Bool :=
  s.eng.stopErr.isNone && decide (intakeBuffer ≤ s.eng.intake.length)

def tick (E : DaemonEnv S) (s : Daemon S) : Daemon S :=
  let eng := (s.eng.tick E.env E.systems).1
  let published := eng.published.drop s.eng.published.length
  { eng
    decider :=
      { s.decider with pending := s.decider.pending ++ published.filterMap decisionRequest? }
    planner :=
      { s.planner with pending := s.planner.pending ++ published.filterMap planRequest? } }

def submitAnswer (s : Daemon S) : Daemon S :=
  match s.decider.drain with
  | some d =>
    match d.stage with
    | .submitting (ev :: evs) =>
      if s.full then s
      else
        let stage := if evs.isEmpty then DeciderStage.ready else .submitting evs
        { s with
          eng := s.eng.submit ev
          decider := { s.decider with drain := some { d with stage } } }
    | _ => s
  | none => s

def plan (s : Daemon S) (result : Except String (List VoICandidate)) : Daemon S :=
  match s.planner.todo with
  | req :: todo =>
    if s.full then s
    else
      { s with
        eng := s.eng.submit (planned req result)
        planner := { s.planner with todo } }
  | [] => s

def restart (E : DaemonEnv S) (s : Daemon S) : Daemon S :=
  match s.eng.hydrate E.env E.loader E.tenant E.cadence with
  | some eng => { eng }
  | none => s

inductive Action where
  | submit (ev : Event)
  | tick
  | startDecisions (n : Nat)
  | nextDecision
  | answer (reply : Except String DeciderOutput)
  | submitAnswer
  | startPlans (n : Nat)
  | plan (result : Except String (List VoICandidate))
  | restart

def step (E : DaemonEnv S) (s : Daemon S) : Action → Daemon S
  | .submit ev => { s with eng := s.eng.submit ev }
  | .tick => s.tick E
  | .startDecisions n => { s with decider := s.decider.startDrain s.eng.world.control n }
  | .nextDecision => { s with decider := s.decider.next E.decider s.eng.world.control }
  | .answer reply => { s with decider := s.decider.answer E.decider s.eng.world.control reply }
  | .submitAnswer => s.submitAnswer
  | .startPlans n => { s with planner := s.planner.startDrain n }
  | .plan result => s.plan result
  | .restart => s.restart E

def run (E : DaemonEnv S) (actions : List Action) : Daemon S :=
  actions.foldl (step E) (new E)

end Daemon

section
open List

/-- Sends on a buffered channel that nobody reads yet: `none` where one of them blocks. -/
def sendAll (capacity : Nat) : List Event → List Event → Option (List Event)
  | queued, [] => some queued
  | queued, ev :: rest =>
    if queued.length < capacity then sendAll capacity (queued ++ [ev]) rest else none

lemma sendAll_eq (hqu evs : List Event) (hft : hqu.length ≤ capacity) :
    sendAll capacity hqu evs =
      if capacity < hqu.length + evs.length then none else some (hqu ++ evs) := by
  induction evs generalizing hqu with
  | nil => simp [sendAll, hft]
  | cons ev rs ih =>
    unfold sendAll
    split
    · next room =>
      rw [ih (hqu ++ [ev]) (by simp; omega)]
      simp [Nat.add_assoc, Nat.add_comm 1]
    · next full => rw [if_pos (by simp; omega)]

def persistedWorld (env : Env) (L : Loader S) (tenant : String) (store : S.State) : World :=
  let snap := L.loadSnapshot store
  hydratedWorld env tenant snap (L.loadForReplay store (snap.bind WorldSnapshot.atSeq))

def runningWork (w : World) : Nat := w.control.work.countP (·.state == .running)

lemma length_resumeFailInFlight (w) : (resumeFailInFlight w).length = runningWork w := by
  rw [resumeFailInFlight, length_map, ← countP_eq_length_filter]
  exact (workSnapshot_perm w.control).countP_eq _

/-- `Hydrate` returns, with a failure queued for each item in flight, exactly if the persisted World
has no more running items than the intake has places. -/
theorem hydrate_returns_iff (env : Env) (L : Loader S) (tenant : String) (cadence : Int)
    (old : Engine S) :
    let w := persistedWorld env L tenant old.store
    (old.hydrate env L tenant cadence).map Engine.intake =
        sendAll intakeBuffer [] (resumeFailInFlight w) ∧
      ((old.hydrate env L tenant cadence).isSome ↔ runningWork w ≤ intakeBuffer) := by
  intro w
  have hqu : (old.hydrate env L tenant cadence).map Engine.intake =
      if intakeBuffer < (resumeFailInFlight w).length then none
      else some (resumeFailInFlight w) :=
    apply_ite (Option.map Engine.intake) ..
  rw [← Option.isSome_map (f := Engine.intake), hqu, sendAll_eq [] _ (Nat.zero_le _),
    length_nil, Nat.zero_add, length_resumeFailInFlight]
  refine ⟨rfl, ?_⟩
  split
  · next full => simpa using full
  · next room => simpa using room

def dispatchOf (n : Nat) : WorkDispatched :=
  { id := String.ofList (replicate n 'w'), missionID := "m", itemKind := .tool }

lemma work_reduceAll_dispatches (env : Env) (tenant) (n : Nat) :
    (reduceAll env (newWorld tenant) ((range n).map (.workDispatched <| dispatchOf ·))).control.work =
      (range n).map fun i => (dispatchOf i).newItem := by
  induction n with
  | zero => rfl
  | succ n ih =>
    rw [range_succ, map_append, map_append, reduceAll_append, ← ih]
    generalize reduceAll env _ _ = w at ih ⊢
    have free : findWork w.control (dispatchOf n).id = none := by
      rw [findWork, find?_eq_none, ih]
      simp [dispatchOf, WorkDispatched.newItem]
      intro i less hs
      have := congrArg (·.toList.length) hs
      simp at this
      omega
    have cur : (checkRun w.control (.workDispatched (dispatchOf n))).verdict = .runCurrent := by
      simp [checkRun, workRunCheck, missionRunCheck, dispatchOf]
    rw [map_singleton, map_singleton, reduceAll_cons, reduceAll_nil, reduce_control,
      control_of_current env cur]
    simp only [applyControl, applyWorkDispatched, free, recordDecisionDispatch]
    split <;> rfl

lemma runningWork_dispatches (env : Env) (tenant) (n : Nat) :
    runningWork (replay env tenant ((range n).map (.workDispatched <| dispatchOf ·))) = n := by
  rw [runningWork, replay, work_reduceAll_dispatches, countP_map]
  exact (countP_eq_length.mpr fun _ _ => rfl).trans length_range

lemma hydrate_dispatches (env : Env) (tenant cadence) (old : Engine S) (full : intakeBuffer < n) :
    old.hydrate env ⟨fun _ => none, fun _ _ => (range n).map (.workDispatched <| dispatchOf ·)⟩
      tenant cadence = none := by
  refine if_pos ?_
  rw [length_resumeFailInFlight]
  exact full.trans_eq (runningWork_dispatches env tenant n).symm

/-- 4097 items were dispatched and none has ended when the daemon starts again. -/
theorem hydrate_blocks_on_intake :
    let S : TimelineStore Nat := DurableLog.Store.scripted Event Nat (WorldSnapshot Nat) []
    (Engine.new S "t" 0).hydrate .plain
      ⟨fun _ => none, fun _ _ => (range 4097).map (.workDispatched <| dispatchOf ·)⟩ "t" 0 = none :=
  hydrate_dispatches .plain "t" 0 _ (Nat.lt_succ_self 4096)

end
end Gibson.Brain
