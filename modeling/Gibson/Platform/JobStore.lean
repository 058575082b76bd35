import Mathlib.Data.Prod.Lex
import Gibson.Lib.Rows
import Gibson.Brain.Component

/-! The tables of jobs and bank members, and the transactions that write them. An error rolls the
transaction back. -/

namespace Gibson.Platform

open Rows Brain

inductive JobState where
  | isOpen
  | working
  | waiting
  | closed
  deriving DecidableEq

inductive Verdict where
  | accomplished
  | failed
  | abandoned

inductive InputKind where
  | turn
  | answer
  | wrapUp
  deriving DecidableEq

inductive JobEventKind where
  | opened
  | input
  | state
  | deliverable
  | closed

/-- A job. Its spec is the protojson of the opener, and an empty member id leaves it in the queue of
its bank. -/
structure Job where
  (id bankID memberID : String)
  state : JobState
  spec : String
  claudeSessionID : String := ""
  openedBy : Principal
  (openedAt lastInputAt : Int)
  closedAt : Option Int := none
  verdict : Option Verdict := none
  score : Float64 := ⟨0⟩

/-- A row of `job_inputs`. -/
structure JobInput where
  (id jobID : String)
  seq : Nat
  kind : InputKind
  message : String
  sender : Principal
  sentAt : Int
  acknowledgedAt : Option Int := none

/-- A row of `job_events`. -/
structure JobEvent where
  jobID : String
  seq : Nat
  kind : JobEventKind
  state : Option JobState := none
  verdict : Option Verdict := none
  score : Float64 := ⟨0⟩
  inputID : String := ""

inductive MemberState where
  | launching
  | needsSignIn
  | idle
  | busy
  | draining
  | dead
  | suspended
  deriving DecidableEq

/-- A member row: the counts are what the member reported last. -/
structure Member where
  (id bankID : String)
  state : MemberState
  (jobsInFlight jobCap : Nat := 0)
  activeJobIDs : List String := []
  claudeVersion : String := ""
  (lastHeartbeat idleSince : Option Int := none)
  (createdAt updatedAt : Int := 0)

/-- The four tables of jobs. -/
structure Tables where
  jobs : List Job := []
  members : List Member := []
  inputs : List JobInput := []
  events : List JobEvent := []

inductive JobError where
  | notFound (what : String)
  | invalid (reason : String)
  | closed (jobID : String)
  | noFreeSlot (memberID : String)
  | uniqueViolation (id : String)

def memberHasFreeSlot (t : Tables) (memberID : String) : Except JobError Bool :=
  match t.members.find? (·.id == memberID) with
  | none => .error (.notFound ("member " ++ memberID))
  | some m => .ok (decide (m.jobsInFlight < m.jobCap))

def requireFreeSlot (t : Tables) (memberID : String) : Except JobError Unit := do
  let free ← memberHasFreeSlot t memberID
  if free then .ok () else .error (.noFreeSlot memberID)

def nextSeq (seqs : List Nat) : Nat := seqs.foldl max 0 + 1

def appendEvent (t : Tables) (e : JobEvent) : Tables :=
  let seq := nextSeq ((t.events.filter (·.jobID == e.jobID)).map JobEvent.seq)
  { t with events := t.events ++ [{ e with seq }] }

def appendInput (t : Tables) (input : JobInput) : Tables :=
  let seq := nextSeq ((t.inputs.filter (·.jobID == input.jobID)).map JobInput.seq)
  appendEvent { t with inputs := t.inputs ++ [{ input with seq }] }
    { jobID := input.jobID, seq := 0, kind := .input, inputID := input.id }

/-- The arguments of `Open`. -/
structure OpenInput where
  bankID : String
  memberID : String := ""
  spec : String
  openedBy : Principal

def requirePinnedSlot (t : Tables) (memberID : String) : Except JobError Unit :=
  if memberID = "" then .ok () else requireFreeSlot t memberID

def insertJob (t : Tables) (j : Job) : Except JobError Tables :=
  if t.jobs.any (·.id == j.id) then .error (.uniqueViolation j.id)
  else .ok { t with jobs := t.jobs ++ [j] }

def OpenInput.newJob (inp : OpenInput) (id : String) (now : Int) : Job where
  id := id
  bankID := inp.bankID
  memberID := inp.memberID
  state := .isOpen
  spec := inp.spec
  openedBy := inp.openedBy
  openedAt := now
  lastInputAt := now

def openJob (t : Tables) (id : String) (now : Int) (inp : OpenInput) :
    Except JobError (Tables × Job) := do
  requirePinnedSlot t inp.memberID
  let inserted ← insertJob t (inp.newJob id now)
  .ok (appendEvent inserted { jobID := id, seq := 0, kind := .opened, state := some .isOpen },
    inp.newJob id now)

def isQueued (bankID : String) (j : Job) : Bool :=
  j.bankID == bankID && j.memberID == "" && j.state != .closed

/-- `skipped` are the rows that the query does not see. -/
def queueHead (t : Tables) (skipped : String → Bool) (bankID : String) : Option Job :=
  (sortBy Job.openedAt (t.jobs.filter fun j => isQueued bankID j && !skipped j.id)).head?

def Job.assign (memberID : String) (j : Job) : Job := { j with memberID }

def claim (t : Tables) (skipped : String → Bool) (bankID memberID : String) :
    Except JobError (Tables × Option Job) := do
  requireFreeSlot t memberID
  match queueHead t skipped bankID with
  | none => .ok (t, none)
  | some j =>
    .ok ({ t with jobs := updateFirst (·.id == j.id) (Job.assign memberID) t.jobs },
      some (j.assign memberID))

def Verdict.toString : Verdict → String
  | .accomplished => "accomplished"
  | .failed => "failed"
  | .abandoned => "abandoned"

/-- The arguments of `Close`. -/
structure CloseInput where
  jobID : String
  verdict : Verdict
  score : Float64
  closer : Principal

def wrapUpMessage (v : Verdict) : String :=
  "The job is closed with verdict " ++ v.toString ++
    ". Perform the declared deliverables, then summarize what you did."

def Job.close (inp : CloseInput) (now : Int) (j : Job) : Job :=
  { j with state := .closed, verdict := some inp.verdict, score := inp.score, closedAt := some now }

/-- `Close`: the verdict, the wrap-up input and the closing event, in one transaction. -/
def closeJob (t : Tables) (inputID : String) (now : Int) (inp : CloseInput) :
    Except JobError (Tables × Job) :=
  match t.jobs.find? (·.id == inp.jobID) with
  | none => .error (.notFound inp.jobID)
  | some j =>
    if j.state = .closed then .error (.closed inp.jobID)
    else
      let closed := { t with jobs := updateFirst (·.id == inp.jobID) (Job.close inp now) t.jobs }
      let wrapped := appendInput closed
        { id := inputID, jobID := inp.jobID, seq := 0, kind := .wrapUp,
          message := wrapUpMessage inp.verdict, sender := inp.closer, sentAt := now }
      .ok (appendEvent wrapped
        { jobID := inp.jobID, seq := 0, kind := .closed, state := some .closed,
          verdict := some inp.verdict, score := inp.score }, j.close inp now)

def isHeld (memberID : String) (j : Job) : Bool := j.memberID == memberID && j.state != .closed

def releaseMember (t : Tables) (memberID : String) : Except JobError (Tables × Nat) :=
  if memberID = "" then .error (.invalid "release needs a member")
  else
    .ok ({ t with jobs := t.jobs.map fun j =>
             if isHeld memberID j then { j with memberID := "" } else j },
      t.jobs.countP (isHeld memberID))

def unassigned (t : Tables) (bankID : String) : Except JobError Nat :=
  if bankID = "" then .error (.invalid "unassigned needs a bank")
  else .ok (t.jobs.countP (isQueued bankID))

def defaultPageSize : Int := 50

def maxPageSize : Int := 200

def clampPageSize (size : Int) : Int :=
  if size ≤ 0 then defaultPageSize else if size > maxPageSize then maxPageSize else size

def second : Int := 1000000000

/-- The open jobs of a bank without input for a number of seconds, the longest waiting first. -/
def stale (t : Tables) (bankID : String) (staleSeconds limit now : Int) : List Job :=
  if staleSeconds ≤ 0 then []
  else
    (sortBy Job.lastInputAt (t.jobs.filter fun j =>
      j.bankID == bankID && j.state != .closed &&
        decide (j.lastInputAt < now - staleSeconds * second))).take (clampPageSize limit).toNat

def Member.cursor (m : Member) : Int ×ₗ String := toLex (m.createdAt, m.id)

/-- Cuts the extra row that a query asked for. -/
def trimPage {α κ : Type*} (rows : List α) (size : Nat) (key : α → κ) : List α × Option κ :=
  if rows.length ≤ size then (rows, none)
  else (rows.take size, rows[size - 1]?.map key)

def listMembers (t : Tables) (bankID : String) (size : Int) (token : Option (Int ×ₗ String)) :
    List Member × Option (Int ×ₗ String) :=
  let size := (clampPageSize size).toNat
  let rows := sortBy Member.cursor (t.members.filter fun m =>
    m.bankID == bankID && token.all fun after => decide (after < m.cursor))
  trimPage (rows.take (size + 1)) size Member.cursor

def addMember (t : Tables) (m : Member) : Except JobError Tables :=
  if m.id = "" ∨ m.bankID = "" then .error (.invalid "a member needs an id and a bank")
  else if t.members.any (·.id == m.id) then .error (.uniqueViolation m.id)
  else .ok { t with members := t.members ++ [m] }

/-- What a heartbeat reports. -/
structure MemberStatus where
  state : MemberState
  (jobsInFlight jobCap : Nat)
  activeJobIDs : List String := []
  claudeVersion : String := ""

def MemberState.toString : MemberState → String
  | .launching => "launching"
  | .needsSignIn => "needs_sign_in"
  | .idle => "idle"
  | .busy => "busy"
  | .draining => "draining"
  | .dead => "dead"
  | .suspended => "suspended"

def isReportableState : MemberState → Bool
  | .idle | .busy | .needsSignIn => true
  | .launching | .draining | .dead | .suspended => false

/-- What a heartbeat writes. A draining member stays so. -/
def Member.report (status : MemberStatus) (now : Int) (m : Member) : Member :=
  { m with
    state := if m.state = .draining then m.state else status.state
    jobsInFlight := status.jobsInFlight
    jobCap := status.jobCap
    activeJobIDs := status.activeJobIDs
    claudeVersion := status.claudeVersion
    idleSince := if status.jobsInFlight = 0 then some (m.idleSince.getD now) else none
    lastHeartbeat := some now
    updatedAt := now }

def updateMemberStatus (t : Tables) (memberID : String) (status : MemberStatus) (now : Int) :
    Except JobError (Tables × Member) :=
  if isReportableState status.state = false then
    .error (.invalid ("a member reports idle, busy or needs_sign_in, never \"" ++
      status.state.toString ++ "\""))
  else
    match t.members.find? (·.id == memberID) with
    | none => .error (.notFound ("member " ++ memberID))
    | some m =>
      .ok ({ t with
             members := updateFirst (·.id == memberID) (Member.report status now) t.members },
        m.report status now)

def Member.setState (state : MemberState) (now : Int) (m : Member) : Member :=
  { m with state, updatedAt := now }

def setMemberState (t : Tables) (memberID : String) (state : MemberState) (now : Int) :
    Except JobError (Tables × Member) :=
  match t.members.find? (·.id == memberID) with
  | none => .error (.notFound ("member " ++ memberID))
  | some m =>
    .ok ({ t with members := updateFirst (·.id == memberID) (Member.setState state now) t.members },
      m.setState state now)

def removeMember (t : Tables) (memberID : String) : Except JobError Tables :=
  if t.members.any (·.id == memberID) then
    .ok { t with members := t.members.filter (·.id != memberID) }
  else .error (.notFound ("member " ++ memberID))

lemma addMember_ok (h : addMember t m = .ok t') :
    m.id ≠ "" ∧ t.members.find? (·.id == m.id) = none ∧
      t' = { t with members := t.members ++ [m] } := by
  unfold addMember at h
  split at h
  · cases h
  next hn =>
  split at h
  · cases h
  · next free =>
    exact ⟨fun hem => hn (.inl hem), by simpa using free, (Except.ok.inj h).symm⟩

lemma updateMemberStatus_ok (h : updateMemberStatus t memberID status now = .ok (t', m)) :
    t' = { t with
      members := updateFirst (·.id == memberID) (Member.report status now) t.members } := by
  unfold updateMemberStatus at h
  split at h
  · cases h
  split at h
  · cases h
  · exact (Prod.mk.inj (Except.ok.inj h)).1.symm

lemma releaseMember_ok (h : releaseMember t memberID = .ok (t', n)) :
    t' = { t with
      jobs := t.jobs.map fun j => if isHeld memberID j then { j with memberID := "" } else j } := by
  unfold releaseMember at h
  split at h
  · cases h
  · exact (Prod.mk.inj (Except.ok.inj h)).1.symm

lemma closeJob_ok {closed} (h : closeJob t inputID now inp = .ok (t', closed)) :
    (∃ j, t.jobs.find? (·.id == inp.jobID) = some j) ∧
      t'.jobs = updateFirst (·.id == inp.jobID) (Job.close inp now) t.jobs ∧
      t'.members = t.members := by
  unfold closeJob at h
  split at h
  · cases h
  next j hf =>
  split at h
  · cases h
  · cases h
    exact ⟨⟨j, hf⟩, rfl, rfl⟩

end Gibson.Platform
