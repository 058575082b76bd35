import Gibson.Lib.Prefix
import Gibson.Lib.Calls
import Gibson.Platform.JobCap

/-! The inbox of a bank member. The inputs of a job are acknowledged when the member reports the
state of the job, by a read of the table of its own. -/

namespace Gibson.Inbox

open List Rows Requests Interleaving Calls
open Brain (Principal)
open Platform (Tables Job JobInput JobState InputKind JobError Txn appendInput appendEvent
  clampPageSize)

/-- The arguments of `Send`. -/
structure SendInput where
  jobID : String
  kind : InputKind
  message : String
  sender : Principal

def Job.receive (now : Int) (j : Job) : Job :=
  { j with state := if j.state = .closed then j.state else .working, lastInputAt := now }

/-- `Send`: the input and the state of its job, in one transaction. A closed job takes a wrap-up
only, and stays closed. -/
def send (t : Tables) (id : String) (now : Int) (inp : SendInput) : Except JobError Tables :=
  match t.jobs.find? (·.id == inp.jobID) with
  | none => .error (.notFound inp.jobID)
  | some j =>
    if j.state = .closed ∧ inp.kind ≠ .wrapUp then .error (.closed inp.jobID)
    else if t.inputs.any (·.id == id) then .error (.uniqueViolation id)
    else
      let appended := appendInput t
        { id, jobID := inp.jobID, seq := 0, kind := inp.kind, message := inp.message,
          sender := inp.sender, sentAt := now }
      let received :=
        { appended with jobs := updateFirst (·.id == inp.jobID) (Job.receive now) appended.jobs }
      if j.state = .closed then .ok received
      else .ok (appendEvent received
        { jobID := inp.jobID, seq := 0, kind := .state, state := some .working })

def pendingInputs (t : Tables) (memberID : String) (limit : Int) : List JobInput :=
  (sortBy (fun i => toLex (i.sentAt, i.seq)) (t.inputs.filter fun i =>
    i.acknowledgedAt.isNone && t.jobs.any fun j => j.id == i.jobID && j.memberID == memberID)).take
      (clampPageSize limit).toNat

def JobInput.acknowledge (now : Int) (i : JobInput) : JobInput :=
  { i with acknowledgedAt := some (i.acknowledgedAt.getD now) }

def acknowledge (t : Tables) (inputID : String) (now : Int) : Tables :=
  { t with
    inputs := t.inputs.map fun i => if i.id == inputID then JobInput.acknowledge now i else i }

def Job.report (state : JobState) (claudeSessionID : String) (j : Job) : Job :=
  { j with
    state := state
    claudeSessionID := if claudeSessionID = "" then j.claudeSessionID else claudeSessionID }

def setState (t : Tables) (jobID : String) (state : JobState) (claudeSessionID : String) :
    Except JobError Tables :=
  if state = .closed then .error (.invalid
    "a job is closed by a scorer through Close, never by a reported state")
  else
    match t.jobs.find? (·.id == jobID) with
    | none => .error (.notFound jobID)
    | some j =>
      if j.state = .closed then .error (.closed jobID)
      else
        let reported := { t with
          jobs := updateFirst (·.id == jobID) (Job.report state claudeSessionID) t.jobs }
        .ok (appendEvent reported { jobID, seq := 0, kind := .state, state := some state })

inductive Request where
  | subscribe
  | unsubscribe
  | drainControl
  | pendingInputs
  | getJob (jobID : String)
  | mint (bankID : String) (input : JobInput)
  | deliver (input : JobInput)
  | tick
  | setState (jobID : String) (state : JobState) (claudeSessionID : String)
  | acknowledge (inputID : String)

inductive StoreError where
  | job (err : JobError)
  | unreachable

abbrev Reply : Request → Type
  | .subscribe | .drainControl | .mint _ _ | .deliver _ | .tick | .acknowledge _ => Bool
  | .pendingInputs => Except StoreError (List JobInput)
  | .getJob _ => Except StoreError Job
  | .setState _ _ _ => Except StoreError Unit
  | .unsubscribe => Unit

inductive Refusal where
  | alreadyExists
  | deliverControl
  | readInbox
  | readJob
  | mintGrant
  | deliverInput
  | invalidArgument (message : String)
  | notFound
  | store (err : StoreError)
  | acknowledgeInput

abbrev Prog := Program Request Reply

def ask (q : Request) : Prog (Reply q) := Requests.send q

def memberInboxBatch : Int := 20

/-- Sends the inputs that this stream has not sent yet, each with its grant, and remembers them. -/
def deliverAll : List JobInput → List String → Prog (Except Refusal (List String))
  | [], delivered => pure (.ok delivered)
  | input :: rest, delivered =>
    if input.id ∈ delivered then deliverAll rest delivered
    else do
      match ← ask (.getJob input.jobID) with
      | .error _ => pure (.error .readJob)
      | .ok j => do
        if ← ask (.mint j.bankID input) then
          if ← ask (.deliver input) then deliverAll rest (input.id :: delivered)
          else pure (.error .deliverInput)
        else pure (.error .mintGrant)

/-- The polls of a stream. It ends after some of them, as it does when the member goes away. -/
def poll : Nat → List String → Prog (Except Refusal Unit)
  | 0, _ => pure (.ok ())
  | rounds + 1, delivered => do
    if ← ask .drainControl then
      match ← ask .pendingInputs with
      | .error _ => pure (.error .readInbox)
      | .ok pending => do
        match ← deliverAll pending delivered with
        | .error e => pure (.error e)
        | .ok delivered => do
          if ← ask .tick then poll rounds delivered else pure (.ok ())
    else pure (.error .deliverControl)

def subscribeInput (rounds : Nat) : Prog (Except Refusal Unit) := do
  if ← ask .subscribe then do
    let outcome ← poll rounds []
    ask .unsubscribe
    pure outcome
  else pure (.error .alreadyExists)

def assertJobHeldByMember (memberID jobID : String) : Prog (Except Refusal Unit) :=
  if jobID = "" then pure (.error (.invalidArgument "job_id is required"))
  else do
    match ← ask (.getJob jobID) with
    | .error e => pure (.error (.store e))
    | .ok j => pure (if j.memberID ≠ memberID then .error .notFound else .ok ())

def acknowledgeAll (jobID : String) : List JobInput → Prog (Except Refusal Unit)
  | [] => pure (.ok ())
  | input :: rest =>
    if input.jobID ≠ jobID then acknowledgeAll jobID rest
    else do
      if ← ask (.acknowledge input.id) then acknowledgeAll jobID rest
      else pure (.error .acknowledgeInput)

def acknowledgeInputsFor (jobID : String) : Prog (Except Refusal Unit) := do
  match ← ask .pendingInputs with
  | .error _ => pure (.error .readInbox)
  | .ok pending => acknowledgeAll jobID pending

def reportJobState (memberID jobID : String) (state : JobState) (claudeSessionID : String) :
    Prog (Except Refusal Unit) := do
  match ← assertJobHeldByMember memberID jobID with
  | .error e => pure (.error e)
  | .ok _ =>
    if state ≠ .working ∧ state ≠ .waiting then
      pure (.error (.invalidArgument
        "a member reports working or waiting; a scorer closes a job"))
    else do
      match ← ask (.setState jobID state claudeSessionID) with
      | .error e => pure (.error (.store e))
      | .ok _ => acknowledgeInputsFor jobID

inductive Operation where
  | subscribeInput (rounds : Nat)
  | reportJobState (jobID : String) (state : JobState) (claudeSessionID : String)

def Operation.body (memberID : String) : Operation → Prog (Except Refusal Unit)
  | .subscribeInput rounds => Inbox.subscribeInput rounds
  | .reportJobState jobID state session => Inbox.reportJobState memberID jobID state session

/-- The tables, whether the inbox of the member has a subscriber, and the ids of the inputs sent on
its streams. -/
structure Daemon where
  tables : Tables := {}
  subscribed : Bool := false
  sent : List String := []

/-- A call succeeds at a time, or fails. The wait for the next poll fails when the member goes. -/
inductive Answer where
  | succeeds (now : Int)
  | fails
  deriving DecidableEq

def serve (memberID : String) (s : Daemon) : (q : Request) → Answer → Option (Daemon × Reply q)
  | .subscribe, _ => some ({ s with subscribed := true }, !s.subscribed)
  | .unsubscribe, _ => some ({ s with subscribed := false }, ())
  | .pendingInputs, .succeeds _ =>
    some (s, .ok (Inbox.pendingInputs s.tables memberID memberInboxBatch))
  | .pendingInputs, .fails => some (s, .error .unreachable)
  | .getJob jobID, .succeeds _ =>
    some (s, match s.tables.jobs.find? (·.id == jobID) with
      | none => .error (.job (.notFound jobID))
      | some j => .ok j)
  | .getJob _, .fails => some (s, .error .unreachable)
  | .deliver input, .succeeds _ => some ({ s with sent := input.id :: s.sent }, true)
  | .setState jobID state session, .succeeds _ =>
    match Inbox.setState s.tables jobID state session with
    | .error e => some (s, .error (.job e))
    | .ok tables => some ({ s with tables }, .ok ())
  | .setState _ _ _, .fails => some (s, .error .unreachable)
  | .acknowledge inputID, .succeeds now =>
    some ({ s with tables := Inbox.acknowledge s.tables inputID now }, true)
  | .drainControl, a | .mint _ _, a | .tick, a => some (s, a != .fails)
  | .deliver _, .fails | .acknowledge _, .fails => some (s, false)

/-- Dispatchers send, and other transactions of the store commit. -/
inductive Change where
  | send (id : String) (now : Int) (inp : SendInput)
  | commit (txn : Txn)

def change (s : Daemon) : Change → Daemon
  | .send id now inp =>
    match send s.tables id now inp with
    | .ok tables => { s with tables }
    | .error _ => s
  | .commit txn => { s with tables := Platform.step s.tables txn }

abbrev InboxStep := Step Operation Answer Change

def inboxSystem (memberID : String) :=
  system (Operation.body memberID) (serve memberID) change

/-- Every input that is acknowledged was sent on a stream of the member. -/
def DeliveredFirst (s : Daemon) : Prop :=
  ∀ i ∈ s.tables.inputs, i.acknowledgedAt.isSome → i.id ∈ s.sent

instance (s : Daemon) : Decidable (DeliveredFirst s) :=
  inferInstanceAs (Decidable (∀ i ∈ s.tables.inputs, i.acknowledgedAt.isSome → i.id ∈ s.sent))

def Valid (op : Operation) (sent : List String) : (q : Request) → Reply q → Prop
  | .pendingInputs, .ok pending =>
    match op with
    | .reportJobState jobID _ _ => ∀ i ∈ pending, i.jobID = jobID → i.id ∈ sent
    | .subscribeInput _ => True
  | _, _ => True

def Allowed (sent : List String) (q : Request) : Prop := ∀ id, q = .acknowledge id → id ∈ sent

lemma valid_mono (more : sent ⊆ sent') (hva : Valid op sent q r) : Valid op sent' q r := by
  cases q with
  | pendingInputs =>
    cases r with
    | error e => trivial
    | ok hp =>
      cases op with
      | subscribeInput rds => trivial
      | reportJobState job st ses =>
        exact fun i mem own => more (hva i mem own)
  | _ => trivial

abbrev Lawfully (op : Operation) (sent : List String) (past : History Request Reply)
    (p : Prog α) : Prop :=
  Obeys (Valid op sent) (fun _ q => Allowed sent q) (fun _ => True) past p

lemma deliverAll_obeys (hp hde) :
    Lawfully op sent pa (deliverAll hp hde) := by
  induction hp generalizing hde pa with
  | nil => trivial
  | cons input rs ih =>
    unfold deliverAll
    split
    · exact ih hde
    refine ⟨nofun, forall_ok fun _ _ => ?_⟩
    refine ⟨nofun, Bool.forall_bool.mpr ⟨fun _ => trivial, fun _ => ?_⟩⟩
    exact ⟨nofun, Bool.forall_bool.mpr ⟨fun _ => trivial, fun _ => ih _⟩⟩

lemma poll_obeys (rds : Nat) (hde) : Lawfully op sent pa (poll rds hde) := by
  induction rds generalizing hde pa with
  | zero => trivial
  | succ rds ih =>
    refine ⟨nofun, Bool.forall_bool.mpr ⟨fun _ => trivial, fun _ => ?_⟩⟩
    refine ⟨nofun, forall_ok fun hp _ => ?_⟩
    show Obeys _ _ _ _ (deliverAll hp hde >>= _)
    refine obeys_bind (deliverAll_obeys hp hde) <|
      forall_ok fun hde pa _ => ?_
    exact ⟨nofun, Bool.forall_bool.mpr ⟨fun _ => trivial, fun _ => ih hde⟩⟩

lemma acknowledgeAll_obeys (hp) (hde : ∀ i ∈ hp, i.jobID = jobID → i.id ∈ sent) :
    Lawfully op sent pa (acknowledgeAll jobID hp) := by
  induction hp generalizing pa with
  | nil => trivial
  | cons input rs ih =>
    have hon {p} : Lawfully op sent p (acknowledgeAll jobID rs) :=
      ih fun i mem => hde i (mem_cons_of_mem _ mem)
    unfold acknowledgeAll
    split
    · exact hon
    next own =>
    refine ⟨?_, Bool.forall_bool.mpr ⟨fun _ => trivial, fun _ => hon⟩⟩
    rintro id ⟨⟩
    exact hde input mem_cons_self (not_not.mp own)

lemma body_obeys (memberID op) : Lawfully op sent pa (op.body memberID) := by
  cases op with
  | subscribeInput rds =>
    refine ⟨nofun, Bool.forall_bool.mpr ⟨fun _ => trivial, fun _ => ?_⟩⟩
    show Obeys _ _ _ _ (poll rds [] >>= _)
    exact obeys_bind (poll_obeys rds []) fun _ _ _ =>
      ⟨nofun, fun _ _ => trivial⟩
  | reportJobState job st ses =>
    have hhe : Lawfully (.reportJobState job st ses) sent pa
        (assertJobHeldByMember memberID job) := by
      unfold assertJobHeldByMember
      split
      · trivial
      · exact ⟨nofun, forall_ok fun _ _ => trivial⟩
    refine obeys_bind hhe (forall_ok fun _ pa _ => ?_)
    show Obeys _ _ _ _ (if _ then _ else _)
    split
    · trivial
    refine ⟨nofun, forall_ok fun _ _ => ?_⟩
    exact ⟨nofun, forall_ok fun hp hva =>
      acknowledgeAll_obeys hp hva⟩

variable {t t' : Tables}

lemma serve_inputs {memberID s t q a r} (hv : serve memberID s q a = some (t, r)) :
    s.sent ⊆ t.sent ∧
      ((∃ id now, q = .acknowledge id ∧ t = { s with tables := acknowledge s.tables id now }) ∨
        t.tables.inputs = s.tables.inputs) := by
  cases q with
  | deliver input =>
    cases a <;> cases hv
    · exact ⟨subset_cons_self _ _, .inr rfl⟩
    · exact ⟨Subset.refl _, .inr rfl⟩
  | acknowledge id =>
    cases a <;> cases hv
    · exact ⟨Subset.refl _, .inl ⟨id, _, rfl, rfl⟩⟩
    · exact ⟨Subset.refl _, .inr rfl⟩
  | setState job st ses =>
    cases a with
    | succeeds now =>
      simp only [serve] at hv
      split at hv
      · cases hv
        exact ⟨Subset.refl _, .inr rfl⟩
      · next set =>
        cases hv
        refine ⟨Subset.refl _, .inr ?_⟩
        unfold setState at set
        repeat' split at set
        all_goals cases set
        rfl
    | fails =>
      cases hv
      exact ⟨Subset.refl _, .inr rfl⟩
  | _ =>
    cases a <;>
    · cases hv
      exact ⟨Subset.refl _, .inr rfl⟩

def AddsPending (t t' : Tables) : Prop :=
  ∀ i ∈ t'.inputs, i.acknowledgedAt.isSome → i ∈ t.inputs

lemma AddsPending.of_eq (hs : t'.inputs = t.inputs) : AddsPending t t' :=
  fun _ mem _ => hs ▸ mem

lemma addsPending_append (hfr : input.acknowledgedAt = none)
    (hs : t'.inputs = t.inputs ++ [input]) : AddsPending t t' := by
  intro i mem ack
  rw [hs] at mem
  obtain mem | mem := mem_append.mp mem
  · exact mem
  · rw [mem_singleton.mp mem, hfr] at ack
    cases ack

lemma addsPending_commit (h : Platform.commit t txn = .ok t') : AddsPending t t' := by
  cases txn with
  | addMember m => exact .of_eq (by rw [(Platform.addMember_ok h).2.2])
  | openJob id now inp =>
    obtain ⟨j, hop⟩ := Platform.map_fst_ok h
    obtain ⟨_, -, hop⟩ := Loops.bind_ok_iff.mp hop
    obtain ⟨hins, insert, hop⟩ := Loops.bind_ok_iff.mp hop
    unfold Platform.insertJob at insert
    split at insert
    · cases insert
    cases insert
    cases hop
    exact .of_eq rfl
  | claim hsc bankID memberID =>
    obtain ⟨j, hcla⟩ := Platform.map_fst_ok h
    obtain ⟨-, ⟨-, rfl⟩ | ⟨_, -, -, -, -, rfl⟩⟩ := Platform.claim_ok hcla <;> exact .of_eq rfl
  | closeJob inputID now inp =>
    obtain ⟨j, hcl⟩ := Platform.map_fst_ok h
    unfold Platform.closeJob at hcl
    split at hcl
    · cases hcl
    split at hcl
    · cases hcl
    · cases hcl
      exact addsPending_append rfl rfl
  | releaseMember memberID =>
    obtain ⟨n, hrel⟩ := Platform.map_fst_ok h
    exact .of_eq (by rw [Platform.releaseMember_ok hrel])
  | heartbeat memberID now sta =>
    obtain ⟨m, reported⟩ := Platform.map_fst_ok h
    exact .of_eq (by rw [Platform.updateMemberStatus_ok reported])

lemma change_inputs (s x) :
    (change s x).sent = s.sent ∧ AddsPending s.tables (change s x).tables := by
  cases x with
  | send id now inp =>
    simp only [change]
    split
    · next hcm =>
      unfold send at hcm
      repeat' split at hcm
      all_goals cases hcm
      all_goals exact ⟨rfl, addsPending_append rfl rfl⟩
    · exact ⟨rfl, .of_eq rfl⟩
  | commit txn =>
    refine ⟨rfl, ?_⟩
    simp only [change, Platform.step]
    split
    · next hcm => exact addsPending_commit hcm
    · exact .of_eq rfl

lemma DeliveredFirst.acknowledge (h1 : DeliveredFirst s) {id}
    (hde : id ∈ s.sent) (now : Int) :
    DeliveredFirst { s with tables := Inbox.acknowledge s.tables id now } := by
  intro i mem ack
  obtain ⟨old, ht, rfl⟩ := mem_map.mp mem
  by_cases own : old.id = id
  · simp only [own, beq_self_eq_true, if_true, JobInput.acknowledge]
    exact hde
  · simp only [beq_iff_eq, own, if_false] at ack ⊢
    exact h1 old ht ack

/-- What is left of a handler acknowledges only inputs that were sent, if what it reads from now on
was sent too. -/
def Careful (sent : List String) (c : Call Operation Request Reply (Except Refusal Unit)) : Prop :=
  ∀ sent', sent ⊆ sent' →
    Obeys (Valid c.op sent') (fun _ q => Allowed sent' q) (fun _ => True) c.past c.rest

/-- A report that is about to read gets only inputs of its job that were sent. -/
def ReadsDelivered (memberID : String) (w : World (Served Daemon Operation Request Reply)
    (Call Operation Request Reply (Except Refusal Unit))) (i : Nat) : Prop :=
  ∀ call next jobID state session, w.calls[i]? = some call → call.rest = .ask .pendingInputs next →
    call.op = .reportJobState jobID state session →
      ∀ input ∈ pendingInputs w.shared.state.tables memberID memberInboxBatch,
        input.jobID = jobID → input.id ∈ w.shared.state.sent

/-- The invariant of a run. -/
structure Delivered (w : World (Served Daemon Operation Request Reply)
    (Call Operation Request Reply (Except Refusal Unit))) : Prop where
  first : DeliveredFirst w.shared.state
  careful : ∀ (i : Nat) (c : Call Operation Request Reply (Except Refusal Unit)),
    w.calls[i]? = some c → Careful w.shared.state.sent c

lemma Careful.mono (car : Careful sent c) (more : sent ⊆ sent') : Careful sent' c :=
  fun hla sub => car hla (List.Subset.trans more sub)

variable {memberID : String} {c : Call Operation Request Reply (Except Refusal Unit)} {a : Answer}

lemma valid_served {i q} {nx : Reply q → Prog (Except Refusal Unit)} {a t r}
    (rea : ReadsDelivered memberID w i) (cl : w.calls[i]? = some c)
    (rs : c.rest = .ask q nx) (hv : serve memberID w.shared.state q a = some (t, r)) :
    Valid c.op w.shared.state.sent q r := by
  cases q with
  | pendingInputs =>
    cases op : c.op with
    | subscribeInput rds => cases r <;> trivial
    | reportJobState job st ses =>
      cases a with
      | fails =>
        cases hv
        trivial
      | succeeds now =>
        cases hv
        exact rea c nx job st ses cl rs op
  | _ => trivial

lemma advance_delivers {s : Served Daemon Operation Request Reply}
    (h1 : DeliveredFirst s.state) (car : Careful s.state.sent c)
    (hva : ∀ q nx t r, c.rest = .ask q nx → serve memberID s.state q a = some (t, r) →
      Valid c.op s.state.sent q r) :
    DeliveredFirst (advance (serve memberID) s c a).1.state ∧
      s.state.sent ⊆ (advance (serve memberID) s c a).1.state.sent ∧
      Careful (advance (serve memberID) s c a).1.state.sent (advance (serve memberID) s c a).2 := by
  obtain same | ⟨q, nx, t, r, rs, hv, hm⟩ := advance_cases (f := serve memberID) s c a
  · rw [same]
    exact ⟨h1, Subset.refl _, car⟩
  rw [hm]
  obtain ⟨more, eff⟩ := serve_inputs hv
  have hob {hla} (sub : s.state.sent ⊆ hla) := rs ▸ car hla sub
  refine ⟨?_, more, fun hla sub => ?_⟩
  · obtain ⟨id, now, rfl, rfl⟩ | same := eff
    · exact h1.acknowledge ((hob (Subset.refl _)).1 id rfl) now
    · exact fun input mem ack => more (h1 input (same ▸ mem) ack)
  · have hk := Subset.trans more sub
    exact (hob hk).2 r (valid_mono hk (hva q nx t r rs hv))

lemma Delivered.advance (hde : Delivered w) {i : Nat}
    (rea : ReadsDelivered memberID w i) (a) :
    Delivered (step (inboxSystem memberID) w (.advance i a)) := by
  cases cl : w.calls[i]? with
  | none => rwa [step_advance_none cl]
  | some c =>
    have hsh : (step (inboxSystem memberID) w (.advance i a)).shared =
        (Calls.advance (serve memberID) w.shared c a).1 :=
      congrArg World.shared (step_advance_some cl a)
    obtain ⟨h1, more, own⟩ := advance_delivers hde.first (hde.careful i c cl)
      fun _ _ _ _ rs hv => valid_served rea cl rs hv
    rw [← hsh] at h1 more own
    refine ⟨h1, fun j d ht => ?_⟩
    obtain ⟨old, -⟩ | ⟨_, is, _⟩ | ⟨a', hb, is, old, rfl⟩ := calls_step ht
    · exact (hde.careful j d old).mono more
    · cases is
    cases is
    cases cl.symm.trans old
    exact own

/-- Every input is sent before it is acknowledged, in every run in which each report reads only
inputs of its job that were sent. -/
theorem acknowledged_after_delivery {memberID : String} {s : Daemon} (first : DeliveredFirst s)
    (steps : List InboxStep) (reads : ∀ before i a after, steps = before ++ .advance i a :: after →
      ReadsDelivered memberID (run (inboxSystem memberID) { shared := { state := s } } before) i) :
    DeliveredFirst (run (inboxSystem memberID) { shared := { state := s } } steps).shared.state := by
  suffices delivered :
      Delivered (run (inboxSystem memberID) { shared := { state := s } } steps) from delivered.first
  induction steps using List.reverseRecOn with
  | nil => exact ⟨first, by simp [run]⟩
  | append_singleton before x ih =>
    rw [run_append_singleton]
    have sf := ih fun hb' i a after split =>
      reads hb' i a (after ++ [x]) (by simp [split])
    cases x with
    | start op =>
      refine ⟨sf.first, fun i c cl => ?_⟩
      obtain ⟨old, -⟩ | ⟨_, is, -, rfl⟩ | ⟨_, _, is, _⟩ := calls_step cl
      · exact sf.careful i c old
      · exact fun sent _ => body_obeys memberID _
      · cases is
    | outside x =>
      obtain ⟨sent, hp⟩ := change_inputs
        (run (inboxSystem memberID) { shared := { state := s } } before).shared.state x
      refine ⟨fun i mem ack => ?_, fun i c cl => ?_⟩
      · show i.id ∈ (change _ x).sent
        rw [sent]
        exact sf.first i (hp i mem ack) ack
      · show Careful (change _ x).sent c
        rw [sent]
        exact sf.careful i c cl
    | advance i a => exact sf.advance (reads before i a [] rfl) a

def oneJob : Daemon where
  tables := { jobs := [{ id := "j1", bankID := "b", memberID := "m1", state := .waiting, spec := "",
                         openedBy := {}, openedAt := 0, lastInputAt := 0 }] }

def question : Change :=
  .send "i1" 5 { jobID := "j1", kind := .turn, message := "and the second host?", sender := {} }

def skippedTurn : List InboxStep :=
  [.start (.subscribeInput 2), .advance 0 (.succeeds 1), .advance 0 (.succeeds 1),
    .advance 0 (.succeeds 1), .outside question,
    .start (.reportJobState "j1" .working ""), .advance 1 (.succeeds 6), .advance 1 (.succeeds 6),
    .advance 1 (.succeeds 6), .advance 1 (.succeeds 6),
    .advance 0 (.succeeds 7), .advance 0 (.succeeds 7), .advance 0 (.succeeds 7)]

/-- The input is acknowledged, was not sent, and the next poll does not see it. -/
theorem skippedTurn_acknowledged :
    ¬DeliveredFirst (run (inboxSystem "m1") { shared := { state := oneJob } }
        skippedTurn).shared.state ∧
      pendingInputs (run (inboxSystem "m1") { shared := { state := oneJob } }
        skippedTurn).shared.state.tables "m1" memberInboxBatch = [] := by
  decide

/-- The stream sends the input before the report of the job acknowledges it. -/
def reportedTurn : List InboxStep :=
  .outside question :: .start (.subscribeInput 1) ::
    (List.replicate 6 (.advance 0 (.succeeds 6)) ++
    .start (.reportJobState "j1" .working "") :: List.replicate 4 (.advance 1 (.succeeds 6)))

theorem reportedTurn_delivered :
    pendingInputs (run (inboxSystem "m1") { shared := { state := oneJob } }
        reportedTurn).shared.state.tables "m1" memberInboxBatch = [] ∧
      DeliveredFirst (run (inboxSystem "m1") { shared := { state := oneJob } }
        reportedTurn).shared.state := by
  have reads : Prefix.All (fun before x => ∀ i a, x = .advance i a → ReadsDelivered "m1"
      (run (inboxSystem "m1") { shared := { state := oneJob } } before) i) [] reportedTurn := by
    refine ⟨?_, ?_, ?_, ?_, ?_, ?_, ?_, ?_, ?_, ?_, ?_, ?_, ?_, trivial⟩ <;> intro i a x <;> cases x
    all_goals
      intro cl nx jobID state ses hh hax op
      cases hh
      -- the stream is no report, and a report reads at its third request only
      first
      | (cases op; done)
      | (cases hax; done)
      | (cases op; decide)
  exact ⟨by decide, acknowledged_after_delivery (by decide) reportedTurn fun before i a after split =>
    Prefix.forall_split reads before _ after split i a rfl⟩

end Gibson.Inbox
