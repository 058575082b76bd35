import Mathlib.Data.List.DropRight
import Gibson.Lib.Requests
import Gibson.Platform.JobStore

/-! The reconciler of a bank of members. Each statement on the tables and each call of the launcher
is a request, and what a pass decides about a member rests on the row that it listed. -/

namespace Gibson.Banks

open Platform Requests

inductive LoginShape where
  | subscription
  | apiKey
  | bedrock
  | vertex
  | foundry
  deriving DecidableEq

inductive SpillPolicy where
  | queue
  | ephemeral
  deriving DecidableEq

/-- A bank row. -/
structure Bank where
  id : String
  desiredCount : Int
  loginShape : LoginShape
  maxJobsInFlight : Nat
  staleLimit : Int
  spillPolicy : SpillPolicy

def int32 (n : Int) : Int := n.bmod 4294967296

/-- An error of a store, one from outside, or either with the text of a caller in front. -/
inductive Failure where
  | store (e : JobError)
  | outside (text : String)
  | wrap (what : String) (cause : Failure)

def Failure.isGone : Failure → Bool
  | .store (.closed _) | .store (.notFound _) => true
  | .store _ | .outside _ => false
  | .wrap _ cause => cause.isGone

/-- What a pass asks of the stores, of the launcher, of the clock and of the source of ids. -/
inductive Request where
  | listMembers (bankID : String) (token : Option (Int ×ₗ String))
  | setMemberState (memberID : String) (state : MemberState)
  | addMember (m : Member)
  | removeMember (memberID : String)
  | releaseMember (memberID : String)
  | unassigned (bankID : String)
  | stale (bankID : String) (staleSeconds limit : Int)
  | closeJob (inp : CloseInput)
  | launchMember (b : Bank) (memberID : String)
  | stopMember (m : Member)
  | suspendMember (m : Member)
  | resumeMember (m : Member)
  | now
  | newMemberID

@[reducible] def Request.Reply : Request → Type
  | .listMembers _ _ => Except Failure (List Member × Option (Int ×ₗ String))
  | .setMemberState _ _ => Except Failure Member
  | .addMember _ | .removeMember _ => Except Failure Unit
  | .releaseMember _ | .unassigned _ => Except Failure Nat
  | .stale _ _ _ => Except Failure (List Job)
  | .closeJob _ => Except Failure Job
  | .launchMember _ _ | .stopMember _ | .suspendMember _ | .resumeMember _ => Except Failure Unit
  | .now => Int
  | .newMemberID => String

/-- A request is answered, fails before it has an effect, or has its effect and loses the reply. -/
inductive Outcome where
  | answered
  | refused (text : String)
  | lost (text : String)

/-- What comes from outside with an answer: its outcome, the time and a fresh id. -/
structure Answer where
  outcome : Outcome := .answered
  now : Int
  id : String := ""

/-- The tables after a transaction and its reply: a transaction that fails is rolled back. -/
def Answer.reply {α : Type} (a : Answer) (t : Tables) (result : Except JobError (Tables × α)) :
    Tables × Except Failure α :=
  match a.outcome, result with
  | .refused text, _ => (t, .error (.outside text))
  | .lost text, .ok (t', _) => (t', .error (.outside text))
  | .lost text, .error _ => (t, .error (.outside text))
  | .answered, .ok (t', value) => (t', .ok value)
  | .answered, .error e => (t, .error (.store e))

def Answer.launcher (a : Answer) : Except Failure Unit :=
  match a.outcome with
  | .answered => .ok ()
  | .refused text | .lost text => .error (.outside text)

def perform (t : Tables) (a : Answer) : (q : Request) → Tables × q.Reply
  | .listMembers bankID token => a.reply t (.ok (t, listMembers t bankID 0 token))
  | .setMemberState memberID state => a.reply t (setMemberState t memberID state a.now)
  | .addMember m =>
    a.reply t ((addMember t { m with createdAt := a.now, updatedAt := a.now }).map (·, ()))
  | .removeMember memberID => a.reply t ((removeMember t memberID).map (·, ()))
  | .releaseMember memberID => a.reply t (releaseMember t memberID)
  | .unassigned bankID => a.reply t ((unassigned t bankID).map (t, ·))
  | .stale bankID staleSeconds limit => a.reply t (.ok (t, stale t bankID staleSeconds limit a.now))
  | .closeJob inp => a.reply t (closeJob t a.id a.now inp)
  | .launchMember _ _ | .stopMember _ | .suspendMember _ | .resumeMember _ => (t, a.launcher)
  | .now => (t, a.now)
  | .newMemberID => (t, a.id)

/-- The configured timeouts. -/
structure Config where
  (heartbeatTimeout launchTimeout idleSuspendAfter suspendedRecycleAfter : Int := 0)

/-- The timeouts in force. -/
structure Reconciler where
  (heartbeat launchTimeout idleAfter recycleAfter : Int)

def defaultHeartbeatTimeout : Int := 30 * second

def defaultLaunchTimeout : Int := 5 * 60 * second

def defaultIdleSuspendAfter : Int := 10 * 60 * second

def defaultSuspendedRecycleAfter : Int := 7 * 24 * 60 * 60 * second

def orDefault (d fallback : Int) : Int := if d ≤ 0 then fallback else d

def Reconciler.new (cfg : Config) : Reconciler where
  heartbeat := orDefault cfg.heartbeatTimeout defaultHeartbeatTimeout
  launchTimeout := orDefault cfg.launchTimeout defaultLaunchTimeout
  idleAfter := orDefault cfg.idleSuspendAfter defaultIdleSuspendAfter
  recycleAfter := orDefault cfg.suspendedRecycleAfter defaultSuspendedRecycleAfter

abbrev Pass := Program Request Request.Reply

abbrev ask (q : Request) : Pass q.Reply := send q

namespace Reconciler

variable (r : Reconciler)

def removeRow (m : Member) : Pass (List Failure) := do
  match ← ask (.removeMember m.id) with
  | .error e => pure [.wrap ("remove member " ++ m.id) e]
  | .ok _ => pure []

def removeMember (m : Member) : Pass (List Failure) :=
  if m.state = .draining then do
    match ← ask (.stopMember m) with
    | .error e => pure [.wrap ("stop drained member " ++ m.id) e]
    | .ok _ => removeRow m
  else removeRow m

def recycle (m : Member) : Pass (List Failure) := do
  match ← ask (.stopMember m) with
  | .error e => pure [.wrap ("stop suspended member " ++ m.id) e]
  | .ok _ => removeMember m

def isDead (m : Member) : Pass Bool :=
  if m.state = .dead then pure true
  else do
    let now ← ask .now
    match m.lastHeartbeat with
    | none => pure (decide (now - m.createdAt > r.launchTimeout))
    | some beat => pure (decide (now - beat > r.heartbeat))

/-- A sandbox that does not stop keeps neither its jobs nor its row. -/
def releaseDead (m : Member) : Pass (List Failure) := do
  let _ ← ask (.stopMember m)
  match ← ask (.releaseMember m.id) with
  | .error e => pure [.wrap ("release the jobs of dead member " ++ m.id) e]
  | .ok _ => removeMember m

def markDead (m : Member) : Pass (List Failure) :=
  if m.state = .dead then releaseDead m
  else do
    match ← ask (.setMemberState m.id .dead) with
    | .error e => pure [.wrap ("mark member " ++ m.id ++ " dead") e]
    | .ok _ => releaseDead m

/-- What the loop over the listed members leaves: those that run, those that are suspended, and the
failures. -/
structure Sorted where
  (live suspended : List Member := [])
  failures : List Failure := []

def Sorted.fail (s : Sorted) (failures : List Failure) : Sorted :=
  { s with failures := s.failures ++ failures }

def visitMember (s : Sorted) (m : Member) : Pass Sorted :=
  if m.state = .suspended then do
    let now ← ask .now
    if now - m.updatedAt > r.recycleAfter then s.fail <$> recycle m
    else pure { s with suspended := s.suspended ++ [m] }
  else do
    if ← r.isDead m then s.fail <$> markDead m
    else if m.state = .draining then
      if m.jobsInFlight = 0 then s.fail <$> removeMember m else pure s
    else pure { s with live := s.live ++ [m] }

def spillMembers (waiting jobCap : Nat) (limit : Int) : Int :=
  if waiting = 0 then 0
  else
    let n := (waiting + max jobCap 1 - 1) / max jobCap 1
    if (n : Int) > max limit 1 then max limit 1 else n

def targetCount (b : Bank) : Pass (Except Failure Int) :=
  if b.spillPolicy ≠ .ephemeral ∨ b.loginShape = .subscription then pure (.ok b.desiredCount)
  else do
    match ← ask (.unassigned b.id) with
    | .error e => pure (.error (.wrap ("count the waiting jobs of bank " ++ b.id) e))
    | .ok waiting =>
      pure (.ok (int32 (b.desiredCount + spillMembers waiting b.maxJobsInFlight b.desiredCount)))

def lessDrainable (a b : Member) : Bool :=
  if a.jobsInFlight ≠ b.jobsInFlight then decide (a.jobsInFlight < b.jobsInFlight)
  else decide (a.createdAt < b.createdAt)

def insertDrainable (ordered : List Member) (m : Member) : List Member :=
  ordered.rdropWhile (lessDrainable m) ++ m :: ordered.rtakeWhile (lessDrainable m)

def drainOrder (live : List Member) : List Member := live.foldl insertDrainable []

/-- Whether the member still has jobs is read from the listed row. -/
def drainMember (m : Member) : Pass (List Failure) := do
  match ← ask (.setMemberState m.id .draining) with
  | .error e => pure [.wrap ("drain member " ++ m.id) e]
  | .ok updated =>
    if m.jobsInFlight = 0 then removeMember { updated with state := .draining } else pure []

def forEach {α : Type} (xs : List α) (body : α → Pass (List Failure)) : Pass (List Failure) :=
  xs.foldlM (fun failures x => (failures ++ ·) <$> body x) []

def drain (live : List Member) (n : Nat) : Pass (List Failure) :=
  forEach ((drainOrder live).take n) drainMember

/-- Suspended members go first, then live ones. The suspended ones that are left come back. -/
def scaleDown (live suspended : List Member) (excess : Nat) :
    Pass (List Member × List Failure) := do
  let recycled ← forEach (suspended.take excess) recycle
  let drained ←
    (if suspended.length < excess then drain live (excess - suspended.length) else pure [])
  pure (suspended.drop excess, recycled ++ drained)

def initialState (b : Bank) : MemberState :=
  if b.loginShape = .subscription then .needsSignIn else .launching

def launchOne (b : Bank) : Pass (List Failure) := do
  let memberID ← ask .newMemberID
  match ← ask (.launchMember b memberID) with
  | .error e => pure [.wrap ("launch a member of bank " ++ b.id) e]
  | .ok _ =>
    let m : Member :=
      { id := memberID, bankID := b.id, state := initialState b, jobCap := b.maxJobsInFlight }
    match ← ask (.addMember m) with
    | .error e =>
      let _ ← ask (.stopMember m)
      pure [.wrap ("record member " ++ memberID) e]
    | .ok _ => pure []

def launch (b : Bank) (n : Nat) : Pass (List Failure) := forEach (List.range n) fun _ => launchOne b

def resumeCount (waiting jobCap : Nat) : Nat := (waiting + max jobCap 1 - 1) / max jobCap 1

def resumeOne (m : Member) : Pass (List Failure) := do
  match ← ask (.resumeMember m) with
  | .error e => pure [.wrap ("resume member " ++ m.id) e]
  | .ok _ => pure []

def idleLongEnough (m : Member) : Pass Bool :=
  match m.idleSince with
  | some since =>
    if m.state = .idle ∧ m.jobsInFlight = 0 then do
      let now ← ask .now
      pure (decide (now - since ≥ r.idleAfter))
    else pure false
  | none => pure false

def suspendOne (m : Member) : Pass (List Failure) := do
  if ← r.idleLongEnough m then
    match ← ask (.suspendMember m) with
    | .error e => pure [.wrap ("suspend member " ++ m.id) e]
    | .ok _ =>
      match ← ask (.setMemberState m.id .suspended) with
      | .error e => pure [.wrap ("record suspended member " ++ m.id) e]
      | .ok _ => pure []
  else pure []

def suspendOrResume (b : Bank) (live suspended : List Member) : Pass (List Failure) := do
  match ← ask (.unassigned b.id) with
  | .error e => pure [.wrap ("count the waiting jobs of bank " ++ b.id) e]
  | .ok waiting =>
    if waiting > 0 then
      forEach (suspended.take (resumeCount waiting b.maxJobsInFlight)) resumeOne
    else forEach live r.suspendOne

def staleJobBatch : Int := 100

def staleJobCloser : Brain.Principal where
  kind := "service"
  id := "bank-reconciler"

def closeStaleJob (j : Job) : Pass (List Failure) := do
  match ← ask (.closeJob
    { jobID := j.id, verdict := .abandoned, score := ⟨0⟩, closer := staleJobCloser }) with
  | .error e => pure (if e.isGone then [] else [.wrap ("close stale job " ++ j.id) e])
  | .ok _ => pure []

def closeStaleJobs (b : Bank) : Pass (List Failure) :=
  let staleSeconds := b.staleLimit.tdiv second
  if staleSeconds ≤ 0 then pure []
  else do
    match ← ask (.stale b.id staleSeconds staleJobBatch) with
    | .error e => pure [.wrap ("list the stale jobs of bank " ++ b.id) e]
    | .ok jobs => forEach jobs closeStaleJob

/-- The target of a pass: a count that fails leaves the members as they are, or brings them up to
the desired count. -/
def targetOrRunning (b : Bank) (running : Int) : Pass (Int × List Failure) := do
  match ← targetCount b with
  | .error e => pure (max running b.desiredCount, [e])
  | .ok target => pure (target, [])

def scale (b : Bank) (running target : Int) (live suspended : List Member) :
    Pass (List Member × List Failure) :=
  if running > target then scaleDown live suspended (int32 (running - target)).toNat
  else if running < target then do
    let failures ← launch b (int32 (target - running)).toNat
    pure (suspended, failures)
  else pure (suspended, [])

def reconcileMembers (b : Bank) (members : List Member) : Pass (List Failure) := do
  let s ← members.foldlM r.visitMember {}
  let running := int32 (s.live.length + s.suspended.length : Nat)
  let (target, counted) ← targetOrRunning b running
  let (suspended, scaled) ← scale b running target s.live s.suspended
  let moved ← r.suspendOrResume b s.live suspended
  let closed ← closeStaleJobs b
  pure (s.failures ++ counted ++ scaled ++ moved ++ closed)

end Reconciler
end Gibson.Banks
