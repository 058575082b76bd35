import Gibson.WorkQueue.Redis

/-! The pull-based work queue. Each operation is its sequence of store commands. -/

namespace Gibson.WorkQueue

open Requests

abbrev Redis.Prog := Program Request Reply

def ask (q : Request) : Redis.Prog (Reply q) := send q

inductive QueueError where
  | empty (field : String)
  | ownerUnknown
  | authzContext
  | store (e : StoreError)
  | subscriptionClosed

abbrev Outcome (α : Type) := Except QueueError α

def systemTenant : String := "_system"

def reclaimConsumer : String := "reclaimer"

def reclaimBatchSize : Nat := 100

def streamKey (tenant kind name : String) : String :=
  "work:" ++ tenant ++ ":" ++ kind ++ ":" ++ name

def tenantFromStreamKey (key : String) : String :=
  if "work:".toList.isPrefixOf key.toList then
    let without := key.toList.drop "work:".length
    if ':' ∈ without then String.ofList (without.takeWhile (· ≠ ':')) else ""
  else ""

def firstEmpty (arguments : List (String × String)) : Option String :=
  (arguments.find? fun argument => argument.2 = "").map Prod.fst

def bind (key : Key) (value : key.Value) : Redis.Prog (Outcome Unit) := do
  match ← ask (.set key value) with
  | .error e => pure (.error (.store e))
  | .ok _ => pure (.ok ())

def bindWorkOwner (workID tenant : String) : Redis.Prog (Outcome Unit) :=
  match firstEmpty [("workID", workID), ("tenant", tenant)] with
  | some field => pure (.error (.empty field))
  | none => bind (.workOwner workID) tenant

def authzContextWorkKey : String := "authz_context"

/-- The run of a work item, read from the authorization context on it. Nothing is written for an
item without one. -/
def bindWorkRun (parseRun : String → Option String) (item : WorkItem) : Redis.Prog (Outcome Unit) :=
  let raw := (item.context.lookup authzContextWorkKey).getD ""
  if raw = "" then pure (.ok ())
  else match parseRun raw with
    | none => pure (.error .authzContext)
    | some run => if run = "" then pure (.ok ()) else bind (.workRun item.workID) run

def bindWorkSlotPins (item : WorkItem) : Redis.Prog (Outcome Unit) :=
  if item.slotPins = [] then pure (.ok ()) else bind (.workSlots item.workID) item.slotPins

/-- A fresh id, the time, and the parser of the authorization context. -/
structure Fresh where
  uuid : String
  now : Nat
  parseRun : String → Option String

def Fresh.fill (fresh : Fresh) (item : WorkItem) : WorkItem :=
  { item with
    workID := if item.workID = "" then fresh.uuid else item.workID
    createdAt := if item.createdAt = 0 then fresh.now else item.createdAt }

def enqueue (fresh : Fresh) (tenant kind name : String) (given : WorkItem) :
    Redis.Prog (Outcome Nat) :=
  match firstEmpty [("tenant", tenant), ("kind", kind), ("name", name)] with
  | some field => pure (.error (.empty field))
  | none => do
    let item := fresh.fill given
    -- The bindings are in place before the item becomes visible on the stream.
    match ← bindWorkOwner item.workID tenant with
    | .error e => pure (.error e)
    | .ok _ =>
      match ← bindWorkRun fresh.parseRun item with
      | .error e => pure (.error e)
      | .ok _ =>
        match ← bindWorkSlotPins item with
        | .error e => pure (.error e)
        | .ok _ =>
          match ← ask (.xadd (streamKey tenant kind name) item) with
          | .error e => pure (.error (.store e))
          | .ok id => pure (.ok id)

def ensureGroup (stream : String) : Redis.Prog (Outcome Unit) := do
  match ← ask (.xgroupCreate stream) with
  | .error e => pure (.error (.store e))
  | .ok _ => pure (.ok ())

def ensureGroups : List String → Redis.Prog (Outcome Unit)
  | [] => pure (.ok ())
  | stream :: streams => do
    match ← ensureGroup stream with
    | .error e => pure (.error e)
    | .ok _ => ensureGroups streams

def Message.fromTenant (message : Message) : Message :=
  let tenant := tenantFromStreamKey message.stream
  if tenant = "" then message
  else { message with item := { message.item with
    context := ("tenant_id", tenant) ::
      message.item.context.filter fun entry => entry.1 ≠ "tenant_id" } }

/-- The first stream that yields a message wins. -/
def sweep (consumerID : String) : List String → Redis.Prog (Outcome (Option Message))
  | [] => pure (.ok none)
  | stream :: streams => do
    match ← ask (.xreadgroup stream consumerID 0 true) with
    | .error _ | .ok none => sweep consumerID streams
    | .ok (some message) => pure (.ok (some message.fromTenant))

/-- The chance in a sweep: the shuffle, and the counter that turns the order. -/
structure Turn where
  shuffle : List String → List String
  counter : Nat
  shuffle_perm : ∀ streams, (shuffle streams).Perm streams

/-- The order in which a sweep reads the streams that the scan found. -/
def Turn.order (turn : Turn) (streams : List String) : List String :=
  (turn.shuffle streams).rotate (turn.counter % streams.length)

def tenantStreams (keys : List String) : List String :=
  keys.filter fun key => ¬("work:" ++ systemTenant ++ ":").toList.isPrefixOf key.toList

def claimCrossTenant (turn : Turn) (kind name consumerID : String) :
    Redis.Prog (Outcome (Option Message)) := do
  match ← ask (.scan kind name) with
  | .error e => pure (.error (.store e))
  | .ok keys =>
    if tenantStreams keys = [] then pure (.ok none)
    else
      let streams := turn.order (tenantStreams keys)
      match ← ensureGroups streams with
      | .error e => pure (.error e)
      | .ok _ => sweep consumerID streams

def claim (turn : Turn) (tenant kind name consumerID : String) (blockTimeout : Int) :
    Redis.Prog (Outcome (Option Message)) :=
  match firstEmpty
    [("tenant", tenant), ("kind", kind), ("name", name), ("consumerID", consumerID)] with
  | some field => pure (.error (.empty field))
  | none =>
    if tenant = systemTenant then claimCrossTenant turn kind name consumerID
    else do
      match ← ensureGroup (streamKey tenant kind name) with
      | .error e => pure (.error e)
      | .ok _ =>
        match ← ask (.xreadgroup (streamKey tenant kind name) consumerID blockTimeout true) with
        | .error e => pure (.error (.store e))
        | .ok message => pure (.ok message)

def acknowledge (tenant kind name : String) (messageID : Nat) : Redis.Prog (Outcome Unit) :=
  match firstEmpty [("tenant", tenant), ("kind", kind), ("name", name)] with
  | some field => pure (.error (.empty field))
  | none => do
    match ← ask (.xack (streamKey tenant kind name) messageID) with
    | .error e => pure (.error (.store e))
    | .ok _ => pure (.ok ())

def reclaimAbandoned (tenant kind name : String) (idleTimeout : Nat) : Redis.Prog (Outcome Unit) :=
  match firstEmpty [("tenant", tenant), ("kind", kind), ("name", name)] with
  | some field => pure (.error (.empty field))
  | none => do
    match ← ensureGroup (streamKey tenant kind name) with
    | .error e => pure (.error e)
    | .ok _ =>
      match ← ask (.xpending (streamKey tenant kind name) reclaimBatchSize) with
      | .error e => pure (.error (.store e))
      | .ok pending =>
        let staleIDs := (pending.filter fun p => idleTimeout ≤ p.2).map Prod.fst
        if staleIDs = [] then pure (.ok ())
        else
          match ← ask (.xclaim (streamKey tenant kind name) reclaimConsumer idleTimeout
              staleIDs) with
          | .error e => pure (.error (.store e))
          | .ok _ => pure (.ok ())

def ownerOf : Except StoreError (Option String) → Outcome String
  | .error e => .error (.store e)
  | .ok none => .error .ownerUnknown
  | .ok (some tenant) => if tenant = "" then .error .ownerUnknown else .ok tenant

def lookupWorkOwner (workID : String) : Redis.Prog (Outcome String) :=
  if workID = "" then pure (.error .ownerUnknown)
  else do
    let binding ← ask (.get (.workOwner workID))
    pure (ownerOf binding)

def notifyResult (owner workID : String) : Redis.Prog (Outcome Unit) := do
  match ← ask (.publish ⟨owner, workID⟩) with
  | .error e => pure (.error (.store e))
  | .ok _ => pure (.ok ())

def storeResult (owner workID : String) (result : WorkResult) : Redis.Prog (Outcome Unit) := do
  match ← ask (.set (.result owner workID) result) with
  | .error e => pure (.error (.store e))
  | .ok _ => notifyResult owner workID

def deliverResult (workID : String) (result : WorkResult) : Redis.Prog (Outcome Unit) :=
  if workID = "" then pure (.error (.empty "workID"))
  else do
    match ← lookupWorkOwner workID with
    | .error e => pure (.error e)
    | .ok owner => storeResult owner workID result

def fetchResultOr (owner workID : String) (later : Redis.Prog (Outcome WorkResult)) :
    Redis.Prog (Outcome WorkResult) := do
  match ← ask (.get (.result owner workID)) with
  | .ok (some result) => pure (.ok result)
  | _ => later

/-- Ends with its deadline or when the subscription is closed; a result that cannot be read yet is
waited for. -/
def awaitNotification (owner workID : String) (subscription : Nat) :
    Nat → Redis.Prog (Outcome WorkResult)
  | 0 => pure (.error (.store .deadlineExceeded))
  | rounds + 1 => do
    match ← ask (.receive subscription) with
    | .error .deadlineExceeded => pure (.error (.store .deadlineExceeded))
    | .error _ => pure (.error .subscriptionClosed)
    | .ok _ => fetchResultOr owner workID (awaitNotification owner workID subscription rounds)

def subscribeAndWait (owner workID : String) (rounds : Nat) : Redis.Prog (Outcome WorkResult) := do
  match ← ask (.subscribe ⟨owner, workID⟩) with
  | .error e => pure (.error (.store e))
  | .ok subscription =>
    fetchResultOr owner workID (awaitNotification owner workID subscription rounds)

def waitForResult (workID : String) (rounds : Nat) : Redis.Prog (Outcome WorkResult) :=
  if workID = "" then pure (.error (.empty "workID"))
  else do
    match ← lookupWorkOwner workID with
    | .error e => pure (.error e)
    | .ok owner => subscribeAndWait owner workID rounds

def Message.ReturnedAs (returned message : Message) : Prop :=
  returned = message ∨ returned = message.fromTenant

section
variable {V : (q : Request) → Reply q → Prop} {P : History Request Reply → Request → Prop}
  {past : History Request Reply}

lemma bind_obeys (hw : P past (.set key vl)) :
    Obeys V P (fun _ => True) past (bind key vl) := by
  exact ⟨hw, forall_ok fun _ _ => trivial⟩

variable {workID : String}

lemma bindWorkOwner_obeys (owner : ∀ past, P past (.set (.workOwner workID) tn)) :
    Obeys V P (fun _ => True) past (bindWorkOwner workID tn) := by
  unfold bindWorkOwner
  split
  · trivial
  · exact bind_obeys (owner past)

variable {item : WorkItem}

lemma bindWorkRun_obeys (par : String → Option String)
    (run : ∀ past run, P past (.set (.workRun item.workID) run)) :
    Obeys V P (fun _ => True) past (bindWorkRun par item) := by
  simp only [bindWorkRun]
  split
  · trivial
  split
  · trivial
  split
  · trivial
  · exact bind_obeys (run past _)

lemma bindWorkSlotPins_obeys (slo : ∀ past pins, P past (.set (.workSlots item.workID) pins)) :
    Obeys V P (fun _ => True) past (bindWorkSlotPins item) := by
  unfold bindWorkSlotPins
  split
  · trivial
  · exact bind_obeys (slo past _)

variable {kind name : String}

lemma enqueue_obeys (owner : ∀ past, P past (.set (.workOwner (hfr.fill item).workID) tn))
    (run : ∀ past run, P past (.set (.workRun (hfr.fill item).workID) run))
    (slo : ∀ past pins, P past (.set (.workSlots (hfr.fill item).workID) pins))
    (add : ∀ past, P past (.xadd (streamKey tn kind name) (hfr.fill item))) :
    Obeys V P (fun _ => True) past (enqueue hfr tn kind name item) := by
  unfold enqueue
  split
  · trivial
  refine obeys_bind (bindWorkOwner_obeys owner) <|
    forall_ok fun _ _ _ => ?_
  refine obeys_bind (bindWorkRun_obeys _ run) <|
    forall_ok fun _ _ _ => ?_
  refine obeys_bind (bindWorkSlotPins_obeys slo) <|
    forall_ok fun _ past _ => ?_
  exact ⟨add past, forall_ok fun _ _ => trivial⟩

section
variable (hcr : ∀ past stream, P past (.xgroupCreate stream))
include hcr

lemma ensureGroup_obeys (stream) : Obeys V P (fun _ => True) past (ensureGroup stream) := by
  exact ⟨hcr past stream, forall_ok fun _ _ => trivial⟩

lemma ensureGroups_obeys (sms) : Obeys V P (fun _ => True) past (ensureGroups sms) := by
  induction sms generalizing past with
  | nil => trivial
  | cons stream sms ih =>
    refine obeys_bind (ensureGroup_obeys hcr stream) fun hry past _ => ?_
    cases hry with
    | error e => trivial
    | ok _ => exact ih

end

section
variable {α : Type} {T : α → Prop} {f : Outcome (Option Message) → Redis.Prog α}
  (scan : ∀ past kind name, P past (.scan kind name))
  (hcr : ∀ past stream, P past (.xgroupCreate stream))
  (read : ∀ past stream consumer block, P past (.xreadgroup stream consumer block true))
  (hfa : ∀ past e, Obeys V P T past (f (.error e)))
  (hno : ∀ past, Obeys V P T past (f (.ok none)))
  (hha : ∀ past stream consumer block message returned,
    V (.xreadgroup stream consumer block true) (.ok (some message)) →
    ⟨.xreadgroup stream consumer block true, .ok (some message)⟩ ∈ past →
    returned.ReturnedAs message → Obeys V P T past (f (.ok (some returned))))
include read hno hha in
lemma sweep_obeys (consumerID sms) : Obeys V P T past (sweep consumerID sms >>= f) := by
  induction sms generalizing past with
  | nil => exact hno past
  | cons stream sms ih =>
    refine ⟨read past stream consumerID 0, fun r hva => ?_⟩
    match r, hva with
    | .error _, _ => exact ih
    | .ok none, _ => exact ih
    | .ok (some message), hva =>
      exact hha _ _ _ _ message _ hva List.mem_cons_self (.inr rfl)

include scan hcr read hfa hno hha in
lemma claim_obeys (turn tenant kind name consumerID) (blo : Int) :
    Obeys V P T past (claim turn tenant kind name consumerID blo >>= f) := by
  unfold claim
  split
  · exact hfa past _
  split
  · refine ⟨scan past kind name, fun r _ => ?_⟩
    match r with
    | .error e => exact hfa _ _
    | .ok keys =>
      show Obeys V P T _ ((if tenantStreams keys = [] then pure (.ok none) else _) >>= f)
      split
      · exact hno _
      rw [Program.bind_assoc]
      exact obeys_bind (ensureGroups_obeys hcr _) <| forall_except
        (fun e past _ => hfa past e) fun _ _ _ => sweep_obeys read hno hha consumerID _
  · rw [Program.bind_assoc]
    refine obeys_bind (ensureGroup_obeys hcr _) <|
      forall_except (fun e past _ => hfa past e) fun _ past _ => ?_
    refine ⟨read past _ consumerID blo, fun r hva => ?_⟩
    match r, hva with
    | .error e, _ => exact hfa _ _
    | .ok none, _ => exact hno _
    | .ok (some message), hva =>
      exact hha _ _ _ _ message _ hva List.mem_cons_self (.inl rfl)

end

lemma acknowledge_obeys (ack : ∀ past stream id, P past (.xack stream id)) :
    Obeys V P (fun _ => True) past (acknowledge tenant kind name messageID) := by
  unfold acknowledge
  split
  · trivial
  exact ⟨ack past _ _, forall_ok fun _ _ => trivial⟩

lemma reclaimAbandoned_obeys (hcr : ∀ past stream, P past (.xgroupCreate stream))
    (list : ∀ past stream count, P past (.xpending stream count))
    (take : ∀ past stream consumer minIdle ids, P past (.xclaim stream consumer minIdle ids)) :
    Obeys V P (fun _ => True) past (reclaimAbandoned tenant kind name idleTimeout) := by
  unfold reclaimAbandoned
  split
  · trivial
  refine obeys_bind (ensureGroup_obeys hcr _) <|
    forall_ok fun _ past _ => ?_
  refine ⟨list past _ _, forall_ok fun hp _ => ?_⟩
  show Obeys V P _ _ (if _ then _ else _)
  split
  · trivial
  · exact ⟨take _ _ _ _ _, forall_ok fun _ _ => trivial⟩

lemma ownerOf_ok (ok : ownerOf r = .ok owner) : r = .ok (some owner) ∧ owner ≠ "" := by
  match r with
  | .error e | .ok none => contradiction
  | .ok (some tn) =>
    simp only [ownerOf] at ok
    split at ok
    · contradiction
    rename_i hfil
    cases ok
    exact ⟨rfl, hfil⟩

lemma lookupWorkOwner_obeys {T : α → Prop} {f : Outcome String → Redis.Prog α}
    (look : P past (.get (.workOwner workID))) (hukn : ∀ past e, Obeys V P T past (f (.error e)))
    (hk : ∀ owner, owner ≠ "" → Obeys V P T (⟨.get (.workOwner workID), .ok (some owner)⟩ ::
      past) (f (.ok owner))) : Obeys V P T past (lookupWorkOwner workID >>= f) := by
  unfold lookupWorkOwner
  split
  · exact hukn past _
  refine ⟨look, fun r _ => ?_⟩
  show Obeys V P T _ (f (ownerOf r))
  cases lkp : ownerOf r with
  | error e => exact hukn _ e
  | ok owner =>
    obtain ⟨rfl, hfil⟩ := ownerOf_ok lkp
    exact hk owner hfil

lemma deliverResult_obeys (look : P past (.get (.workOwner workID)))
    (so : ∀ owner, owner ≠ "" → P (⟨.get (.workOwner workID), .ok (some owner)⟩ :: past) (.set
      (.result owner workID) result)) (publish : ∀ past owner, P past (.publish ⟨owner, workID⟩)) :
    Obeys V P (fun _ => True) past (deliverResult workID result) := by
  unfold deliverResult
  split
  · trivial
  · refine lookupWorkOwner_obeys look (fun past e => trivial) fun owner hfil => ?_
    refine ⟨so owner hfil, forall_ok fun _ _ => ?_⟩
    exact ⟨publish _ owner, forall_ok fun _ _ => trivial⟩

section
variable {T : WorkResult → Prop} {workID : String}
  (read : ∀ past owner, P past (.get (.result owner workID)))
  (hf : ∀ owner result, V (.get (.result owner workID)) (.ok (some result)) → T result)
include read hf

lemma fetchResultOr_obeys
    (rs : ∀ past, Obeys V P (fun out => ∀ result, out = .ok result → T result) past
      later) :
    Obeys V P (fun out => ∀ result, out = .ok result → T result) past
      (fetchResultOr owner workID later) := by
  refine ⟨read past owner, fun r hva => ?_⟩
  match r, hva with
  | .ok (some result), hva =>
    refine obeys_pure fun returned hs => ?_
    cases hs
    exact hf owner _ hva
  | .ok none, _ => exact rs _
  | .error e, _ => exact rs _

variable (receive : ∀ past h, P past (.receive h))
include receive

lemma awaitNotification_obeys (rds : Nat) :
    Obeys V P (fun out => ∀ result, out = .ok result → T result) past
      (awaitNotification owner workID subscription rds) := by
  induction rds generalizing past with
  | zero => exact obeys_pure (by simp)
  | succ rds ih =>
    refine ⟨receive past subscription, fun r _ => ?_⟩
    match r with
    | .error .deadlineExceeded | .error .failed | .error .noGroup => exact obeys_pure (by simp)
    | .ok _ => exact fetchResultOr_obeys read hf fun past => ih

lemma waitForResult_obeys (rds : Nat) (look : ∀ past, P past (.get (.workOwner workID)))
    (subscribe : ∀ past c, P past (.subscribe c)) :
    Obeys V P (fun out => ∀ result, out = .ok result → T result) past
      (waitForResult workID rds) := by
  unfold waitForResult
  split
  · exact obeys_pure (by simp)
  refine lookupWorkOwner_obeys (look past) (fun past e => obeys_pure (by simp))
    fun owner _ => ?_
  refine ⟨subscribe _ _, fun r _ => ?_⟩
  cases r with
  | error e => exact obeys_pure (by simp)
  | ok sbn =>
    exact fetchResultOr_obeys read hf fun past =>
      awaitNotification_obeys read hf receive rds

end
end
end Gibson.WorkQueue
