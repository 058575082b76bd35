import Gibson.Lib.DurableLog
import Gibson.Brain.Snapshot

/-! The Engine: a queue, a tick that drains it and runs the Systems, and a durable append in front
of every fold. An Engine whose append fails stops for good. -/

namespace Gibson.Brain

open DurableLog

/-- A snapshot and its position. -/
structure WorldSnapshot (ι : Type) where
  atSeq : Option ι
  data : WorldSnapshotData

/-- A durable log of events. The keys stand for the UUIDs of the idempotency keys. -/
abbrev TimelineStore (ι : Type) := Store Event Nat ι (WorldSnapshot ι)

def intakeBuffer : Nat := 4096

def appendAttempts : Nat := 3

def maxSweeps : Nat := 1024

def defaultSnapshotCadence : Int := 100

/-- The fields of the Engine, the UUIDs drawn so far, and what an observer sees of a run. -/
structure Engine {ι : Type} (S : TimelineStore ι) where
  world : World
  (timeline intake : List Event := [])
  store : S.State
  snapshotCadence : Int := defaultSnapshotCadence
  snapshotEventCount : Int := 0
  (lastSnapshotSeq lastAppendedSeq : Option ι := none)
  stopErr : Option String := none
  nextUUID : Nat := 0
  applied : List Event := []
  tried : Option Event := none
  published : List Event := []

namespace Engine

variable {ι : Type} {S : TimelineStore ι}

/-- `NewEngine` with the cadence of `WithSnapshotCadence`. -/
def new (S : TimelineStore ι) (tenant : String) (cadence : Int) : Engine S where
  world := newWorld tenant
  store := S.init
  snapshotCadence := cadence

/-- A stopped Engine drops the event, and a full queue holds the caller back. -/
def submit (e : Engine S) (ev : Event) : Engine S :=
  if e.stopErr.isSome then e
  else if intakeBuffer ≤ e.intake.length then e
  else { e with intake := e.intake ++ [ev] }

/-- The first error wins. -/
def stop (e : Engine S) (err : String) : Engine S :=
  { e with stopErr := e.stopErr.or (some err) }

def appendError (ev : Event) (lastErr : String) : String :=
  "durable append of \"" ++ ev.kind ++ "\" failed after " ++ toString appendAttempts ++
    " tries: " ++ lastErr

def appendDurable (e : Engine S) (ev : Event) : Engine S × Except String ι :=
  let r := S.appendRetry e.nextUUID ev appendAttempts "" e.store
  ({ e with store := r.1, nextUUID := e.nextUUID + 1, tried := some ev },
    r.2.mapError (appendError ev))

/-- Writes a snapshot and trims the log up to it. Errors leave the rest as it is. -/
def maybeSnapshot (e : Engine S) : Engine S :=
  let snap : WorldSnapshot ι := { atSeq := e.lastAppendedSeq, data := snapshotWorld e.world }
  match S.writeSnapshot e.store snap with
  | (store, none) => { e with store }
  | (store, some handle) =>
    match S.trimTo store handle with
    | (store, false) => { e with store, lastSnapshotSeq := some handle }
    | (store, true) => { e with store, lastSnapshotSeq := some handle, timeline := [] }

def countEvent (e : Engine S) : Int × Bool :=
  if 0 < e.snapshotCadence then
    if e.snapshotCadence ≤ e.snapshotEventCount + 1 then (0, true)
    else (e.snapshotEventCount + 1, false)
  else (e.snapshotEventCount, false)

/-- Nothing of an older run goes to the subscribers. -/
def publish (e : Engine S) (verdict : RunVerdict) (ev : Event) : Engine S :=
  match verdict with
  | .runDropped => e
  | .runDetached => { e with published := e.published ++ [detachEvidence ev] }
  | .runCurrent => { e with published := e.published ++ [ev] }

def fold (env : Env) (e : Engine S) (ev : Event) (seq : ι) : Engine S :=
  let count := e.countEvent
  let verdict := (checkRun e.world.control ev).verdict
  let folded :=
    { e with
      lastAppendedSeq := some seq
      snapshotEventCount := count.1
      timeline := e.timeline ++ [ev]
      world := reduce env e.world ev
      applied := e.applied ++ [ev] }
  publish (if count.2 then folded.maybeSnapshot else folded) verdict ev

/-- Appends, then folds. When the append fails after its retries, nothing is folded and the Engine
stops. -/
def apply (env : Env) (e : Engine S) (ev : Event) : Engine S × Bool :=
  match e.appendDurable ev with
  | (e, .error err) => (e.stop err, false)
  | (e, .ok seq) => (e.fold env ev seq, true)

def applyAll (env : Env) : List Event → Engine S → Engine S × Nat × Bool
  | [], e => (e, 0, true)
  | ev :: rest, e =>
    match e.apply env ev with
    | (e, false) => (e, 0, false)
    | (e, true) =>
      let r := applyAll env rest e
      (r.1, r.2.1 + 1, r.2.2)

def drain (env : Env) : List Event → Engine S → Engine S × Nat
  | [], e => (e, 0)
  | ev :: rest, e =>
    match ({ e with intake := rest } : Engine S).apply env ev with
    | (e, false) => (e, 0)
    | (e, true) =>
      let r := drain env rest e
      (r.1, r.2 + 1)

def drainIntake (env : Env) (e : Engine S) : Engine S × Nat := drain env e.intake e

def runSystems (env : Env) : List (World → List Event) → Engine S → Engine S × Nat
  | [], e => (e, 0)
  | sys :: rest, e =>
    if e.stopErr.isSome then (e, 0)
    else
      match applyAll env (sys e.world) e with
      | (e, n, false) => (e, n)
      | (e, n, true) =>
        let r := runSystems env rest e
        (r.1, n + r.2)

def sweep (env : Env) (systems : List (World → List Event)) : Nat → Engine S → Engine S × Nat
  | 0, e => (e, 0)
  | k + 1, e =>
    if e.stopErr.isSome then (e, 0)
    else
      let drained := e.drainIntake env
      let ran := drained.1.runSystems env systems
      let n := drained.2 + ran.2
      if n = 0 then (ran.1, 0)
      else
        let r := sweep env systems k ran.1
        (r.1, n + r.2)

def tick (env : Env) (systems : List (World → List Event)) (e : Engine S) : Engine S × Nat :=
  sweep env systems maxSweeps e

/-- A call that a caller of the Engine makes. -/
inductive Call where
  | submit (ev : Event)
  | tick

def call (env : Env) (systems : List (World → List Event)) (e : Engine S) : Call → Engine S
  | .submit ev => e.submit ev
  | .tick => (e.tick env systems).1

def run (env : Env) (systems : List (World → List Event)) (e : Engine S) (calls : List Call) :
    Engine S :=
  calls.foldl (call env systems) e

end Engine
end Gibson.Brain
