import Gibson.WorkQueue.Queue

/-! The component service on top of the queue, which checks the owner and the claimant on record
before it delivers. -/

namespace Gibson.WorkQueue

open Requests

/-- Who calls. -/
structure Principal where
  (tenant subject : String)

/-- The calling component. -/
structure ComponentInfo where
  (instanceID kind name : String)

inductive ServiceError where
  | unauthenticated
  | invalidArgument (field : String)
  | notFound
  | permissionDenied
  | internal

def tenantMayActOnWork (caller owner : String) : Bool :=
  if caller = "" ∨ owner = "" then false else caller = owner ∨ caller = systemTenant

def defaultPollTimeoutMs : Int := 20000

def maxPollTimeoutMs : Int := 30000

def pollTimeout (requested : Int) : Int :=
  min (if 0 < requested then requested else defaultPollTimeoutMs) maxPollTimeoutMs

def bindWorkClaim (caller : Principal) (workID : String) : Redis.Prog Unit :=
  if workID = "" ∨ caller.subject = "" then pure ()
  else do
    let _ ← ask (.set (.workClaim workID) caller.subject)
    pure ()

def pollWork (turn : Turn) (components : Option (List ComponentInfo)) (caller : Principal)
    (instanceID : String) (timeoutMs : Int) : Redis.Prog (Except ServiceError (Option WorkItem)) :=
  if caller.tenant = "" then pure (.error .unauthenticated)
  else if instanceID = "" then pure (.error (.invalidArgument "instance_id"))
  else match components with
    | none => pure (.error .internal)
    | some components =>
      match components.find? fun c => c.instanceID = instanceID with
      | none => pure (.error .notFound)
      | some target => do
        match ← claim turn caller.tenant target.kind target.name instanceID
            (pollTimeout timeoutMs) with
        | .error _ => pure (.error .internal)
        | .ok none => pure (.ok none)
        | .ok (some message) => do
          bindWorkClaim caller message.item.workID
          pure (.ok (some message.item))

def resolveWorkOwner (tenant workID : String) : Redis.Prog (Except ServiceError String) := do
  match ← lookupWorkOwner workID with
  | .error .ownerUnknown => pure (.error .permissionDenied)
  | .error _ => pure (.error .internal)
  | .ok owner =>
    if tenantMayActOnWork tenant owner then pure (.ok owner)
    else pure (.error .permissionDenied)

/-- The owner of a work item, if the caller may act on it and is the claimant on record. -/
def resolveClaimedWork (caller : Principal) (workID : String) :
    Redis.Prog (Except ServiceError String) := do
  match ← resolveWorkOwner caller.tenant workID with
  | .error e => pure (.error e)
  | .ok owner =>
    if caller.subject = "" then pure (.error .permissionDenied)
    else
      match ← ask (.get (.workClaim workID)) with
      | .error _ => pure (.error .internal)
      | .ok none => pure (.error .permissionDenied)
      | .ok (some claimant) =>
        if claimant = caller.subject then pure (.ok owner) else pure (.error .permissionDenied)

/-- A submitted result. -/
structure Submission where
  result : String
  error : Option WorkError := none

def Submission.workResult (submission : Submission) (workID : String) : WorkResult :=
  { workID, result := submission.result
    error := submission.error.filter fun e => e.code ≠ "" }

def submitResult (caller : Principal) (workID : String) (submission : Submission) :
    Redis.Prog (Except ServiceError Unit) :=
  if caller.tenant = "" then pure (.error .unauthenticated)
  else if workID = "" then pure (.error (.invalidArgument "work_id"))
  else do
    match ← resolveClaimedWork caller workID with
    | .error e => pure (.error e)
    | .ok _ =>
      match ← deliverResult workID (submission.workResult workID) with
      | .error _ => pure (.error .internal)
      | .ok _ => pure (.ok ())

def Handed (past : History Request Reply) (workID : String) : Prop :=
  ∃ stream consumer block message,
    ⟨.xreadgroup stream consumer block true, .ok (some message)⟩ ∈ past ∧
      message.item.workID = workID

section
variable {past : History Request Reply}

lemma pollWork_obeys (turn) (cps : Option (List ComponentInfo)) (clr instanceID)
    (tms : Int) (scan : ∀ past kind name, P past (.scan kind name))
    (cre : ∀ past sm, P past (.xgroupCreate sm))
    (rd : ∀ past sm con blo, P past (.xreadgroup sm con blo true))
    (record : ∀ past wid, Handed past wid → clr.subject ≠ "" →
      P past (.set (.workClaim wid) clr.subject)) :
    Obeys V P (fun _ => True) past (pollWork turn cps clr instanceID tms) := by
  unfold pollWork
  split
  · trivial
  split
  · trivial
  split
  · trivial
  split
  · trivial
  apply claim_obeys scan cre rd
  · exact fun _ _ => trivial
  · exact fun _ => trivial
  · intro past sm con blo msg hre _ han hs
    show Obeys V P _ past (bindWorkClaim clr hre.item.workID >>= _)
    unfold bindWorkClaim
    split
    · trivial
    rename_i hfil
    refine ⟨record past _ ?_ fun hem => hfil (.inr hem),
      fun _ _ => trivial⟩
    refine ⟨sm, con, blo, msg, han, ?_⟩
    obtain rfl | rfl := hs
    · rfl
    · simp only [Message.fromTenant]
      split <;> rfl

/-- The owner on record lets the caller's tenant act, and the claimant on record is the caller. -/
structure Cleared (past : History Request Reply) (caller : Principal) (workID : String) : Prop where
  owner : ∃ owner, ⟨.get (.workOwner workID), .ok (some owner)⟩ ∈ past ∧
    tenantMayActOnWork caller.tenant owner
  claimant : ⟨.get (.workClaim workID), .ok (some caller.subject)⟩ ∈ past

lemma submitResult_obeys (caller wid sub) (get : ∀ past key, P past (.get key))
    (publish : ∀ past c, P past (.publish c)) (so : ∀ past ow, Cleared past caller wid →
      ⟨.get (.workOwner wid), .ok (some ow)⟩ ∈ past →
      P past (.set (.result ow wid) (sub.workResult wid))) :
    Obeys V P (fun _ => True) past (submitResult caller wid sub) := by
  unfold submitResult
  split
  · trivial
  split
  · trivial
  unfold resolveClaimedWork resolveWorkOwner
  simp only [Program.bind_assoc]
  refine lookupWorkOwner_obeys (get past _) (fun past e => ?_) fun ow _ => ?_
  · cases e <;> trivial
  · show Obeys V P _ _ ((if tenantMayActOnWork caller.tenant ow then _ else _) >>= _)
    split
    · rename_i may
      split
      · trivial
      refine ⟨get _ _, fun r _ => ?_⟩
      match r with
      | .error e | .ok none => trivial
      | .ok (some cla) =>
        show Obeys V P _ _ ((if cla = caller.subject then _ else _) >>= _)
        split
        · rename_i own
          subst own
          show Obeys V P _ _ (deliverResult wid (sub.workResult wid) >>= _)
          refine obeys_bind (deliverResult_obeys (get _ _) (fun own' _ => ?_)
            fun past _ => publish past _) fun hde _ _ => ?_
          · exact so _ own' ⟨⟨ow, by simp, may⟩, by simp⟩ (by simp)
          · cases hde <;> trivial
        · trivial
    · trivial

end
end Gibson.WorkQueue
