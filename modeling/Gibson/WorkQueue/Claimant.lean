import Gibson.WorkQueue.Service
import Mathlib.Data.List.Nodup

/-! Whose results reach the dispatcher: a result is stored only for the recorded claimant. -/

namespace Gibson.WorkQueue

open List Requests Interleaving Calls

inductive ServiceOp where
  | enqueue (fresh : Fresh) (tenant kind name : String) (item : WorkItem)
  | pollWork (turn : Turn) (components : Option (List ComponentInfo)) (caller : Principal)
    (instanceID : String) (timeoutMs : Int)
  | submitResult (caller : Principal) (workID : String) (submission : Submission)

def ServiceOp.body : ServiceOp → Redis.Prog Unit
  | .enqueue fresh tenant kind name item => do
    let _ ← WorkQueue.enqueue fresh tenant kind name item
    pure ()
  | .pollWork turn components caller instanceID timeoutMs => do
    let _ ← WorkQueue.pollWork turn components caller instanceID timeoutMs
    pure ()
  | .submitResult caller workID submission => do
    let _ ← WorkQueue.submitResult caller workID submission
    pure ()

abbrev ServiceStep := Step ServiceOp Answer Change

abbrev ServiceTrace := List (ServiceOp × Σ q, Reply q)

/-- The state after some steps, from an empty store. -/
def serviceRun (steps : List ServiceStep) :
    World (Served Redis ServiceOp Request Reply) (Call ServiceOp Request Reply Unit) :=
  run (Calls.system ServiceOp.body Redis.serve Redis.change) { shared := { state := {} } } steps

/-- A tenant enqueues a work item under this id in the run. -/
def Enqueued (steps : List ServiceStep) (workID tenant : String) : Prop :=
  ∃ fresh kind name item, .start (.enqueue fresh tenant kind name item) ∈ steps ∧
    (fresh.fill item).workID = workID

/-- A poll of this subject was handed the item, and has written the subject down as its claimant. -/
def RecordedClaim (trace : ServiceTrace) (workID subject : String) : Prop :=
  ∃ turn components caller instanceID timeoutMs, caller.subject = subject ∧
    (∃ reply, (ServiceOp.pollWork turn components caller instanceID timeoutMs,
      ⟨.set (.workClaim workID) subject, reply⟩) ∈ trace) ∧
    ∃ stream consumer block message,
      (ServiceOp.pollWork turn components caller instanceID timeoutMs,
        ⟨.xreadgroup stream consumer block true, .ok (some message)⟩) ∈ trace ∧
      message.item.workID = workID

def enqueues (steps : List ServiceStep) : List (String × String) :=
  steps.filterMap fun
    | .start (.enqueue fresh tenant _ _ item) => some ((fresh.fill item).workID, tenant)
    | _ => none

/-- No work id is enqueued twice. -/
def NeverReused (steps : List ServiceStep) : Prop :=
  ((enqueues steps).map Prod.fst).Nodup

lemma Enqueued.mem
    (enqueued : Enqueued steps workID tenant) : (workID, tenant) ∈ enqueues steps := by
  obtain ⟨hfr, kd, name, it, started, rfl⟩ := enqueued
  exact mem_filterMap.mpr ⟨_, started, rfl⟩

lemma RecordedClaim.mono
    (hrec : RecordedClaim trace workID subject) (e : ServiceOp × Σ q, Reply q) :
    RecordedClaim (e :: trace) workID subject := by
  obtain ⟨turn, cps, clr, instanceID, tms, hs, ⟨rp, hw⟩, sm, con,
    block, message, handed, id⟩ := hrec
  exact ⟨turn, cps, clr, instanceID, tms, hs,
    ⟨rp, mem_cons_of_mem _ hw⟩, sm, con, block, message,
    mem_cons_of_mem _ handed, id⟩

def Rules : ServiceOp → History Request Reply → Request → Prop
  | .enqueue fresh tenant _ _ item, _, .set (.workOwner workID) owner =>
    workID = (fresh.fill item).workID ∧ owner = tenant
  | .pollWork _ _ caller _ _, past, .set (.workClaim workID) subject =>
    subject = caller.subject ∧ Handed past workID
  | .submitResult caller given submission, past, .set (.result owner workID) result =>
    workID = given ∧ result = submission.workResult given ∧ Cleared past caller given ∧
      ⟨.get (.workOwner given), .ok (some owner)⟩ ∈ past
  | _, _, .set (.workOwner _) _ => False
  | _, _, .set (.workClaim _) _ => False
  | _, _, .set (.result _ _) _ => False
  | _, _, _ => True

lemma rules_obeyed (op) : Obeys (fun _ _ => True) (Rules op) (fun _ => True) [] op.body := by
  cases op with
  | enqueue hfr tn kd name it =>
    exact obeys_bind (enqueue_obeys (fun _ => ⟨rfl, rfl⟩) (fun _ _ => trivial)
      (fun _ _ => trivial) fun _ => trivial) fun _ _ _ => trivial
  | pollWork turn cps clr instanceID tms =>
    exact obeys_bind (pollWork_obeys turn cps clr instanceID tms
      (fun _ _ _ => trivial) (fun _ _ => trivial) (fun _ _ _ _ => trivial)
      fun _ _ handed _ => ⟨rfl, handed⟩) fun _ _ _ => trivial
  | submitResult clr wid sub =>
    exact obeys_bind (submitResult_obeys clr wid sub (fun _ _ => trivial)
      (fun _ _ => trivial) fun _ _ cleared looked => ⟨rfl, rfl, cleared, looked⟩)
      fun _ _ _ => trivial

def Justified (steps : List ServiceStep) (earlier : ServiceTrace) (op : ServiceOp)
    (owner workID : String) (result : WorkResult) : Prop :=
  ∃ caller submission, op = .submitResult caller workID submission ∧
    result = submission.workResult workID ∧ RecordedClaim earlier workID caller.subject ∧
    Enqueued steps workID owner ∧
    ∃ tenant, Enqueued steps workID tenant ∧ tenantMayActOnWork caller.tenant tenant

/-- The trace explains what is stored. -/
structure Documented (steps : List ServiceStep) (s : Served Redis ServiceOp Request Reply) :
    Prop where
  owners : ∀ workID tenant, s.state.values (.workOwner workID) = some tenant →
    Enqueued steps workID tenant
  claims : ∀ workID subject, s.state.values (.workClaim workID) = some subject →
    RecordedClaim s.trace workID subject
  results : ∀ owner workID result, s.state.values (.result owner workID) = some result →
    ∃ op reply, (op, ⟨.set (.result owner workID) result, reply⟩) ∈ s.trace
  ownersRead : ∀ op workID tenant, (op, ⟨.get (.workOwner workID), .ok (some tenant)⟩) ∈ s.trace →
    Enqueued steps workID tenant
  claimsRead : ∀ op workID subject, (op, ⟨.get (.workClaim workID), .ok (some subject)⟩) ∈ s.trace →
    RecordedClaim s.trace workID subject
  stored : ∀ later op owner workID result reply earlier,
    s.trace = later ++ (op, ⟨.set (.result owner workID) result, reply⟩) :: earlier →
    Justified steps earlier op owner workID result

section
variable {steps : List ServiceStep} {s : Served Redis ServiceOp Request Reply} {state : Redis}
  {op : ServiceOp} {past : History Request Reply} {q : Request} {a : Answer} {r : Reply q}
variable (documented : Documented steps s) (started : .start op ∈ steps) (rules : Rules op past q)
  (seen : ∀ e ∈ past, (op, e) ∈ s.trace) (answered : s.state.serve q a = some (state, r))
include documented started rules answered in
lemma Documented.owner_serve
    (hst : state.values (.workOwner workID) = some tenant) : Enqueued steps workID tenant := by
  obtain hb | rfl := Redis.value_serve answered hst
  · exact documented.owners workID tenant hb
  match op, started, rules with
  | .enqueue hfr hgiv kd name it, started, ⟨id, hs⟩ =>
    subst hs
    exact ⟨hfr, kd, name, it, started, id.symm⟩

include documented rules seen answered in
lemma Documented.claim_serve (hst : state.values (.workClaim workID) = some subject) :
    RecordedClaim ((op, ⟨q, r⟩) :: s.trace) workID subject := by
  obtain hb | rfl := Redis.value_serve answered hst
  · exact (documented.claims workID subject hb).mono _
  match op, rules, seen with
  | .pollWork turn cps clr instanceID tms, ⟨hs, handed⟩, seen =>
    obtain ⟨sm, con, blo, msg, rd, id⟩ := handed
    exact ⟨turn, cps, clr, instanceID, tms, hs.symm,
      ⟨r, mem_cons_self⟩, sm, con, blo, msg,
      mem_cons_of_mem _ (seen _ rd), id⟩

include documented rules seen in
lemma Documented.justified (stores : q = .set (.result ow wid) res) :
    Justified steps s.trace op ow wid res := by
  subst stores
  match op, rules, seen with
  | .submitResult clr hgiv sub, ⟨hs, hst, cleared, looked⟩, seen =>
    subst hs
    obtain ⟨tn, rd, may⟩ := cleared.owner
    exact ⟨clr, sub, rfl, hst, documented.claimsRead _ _ _ (seen _ cleared.claimant),
      documented.ownersRead _ _ _ (seen _ looked), tn,
      documented.ownersRead _ _ _ (seen _ rd), may⟩

include documented started rules seen answered in
lemma Documented.serve : Documented steps ⟨state, (op, ⟨q, r⟩) :: s.trace⟩ where
  owners workID tenant := documented.owner_serve started rules answered
  claims workID subject := documented.claim_serve rules seen answered
  results owner workID result stored := by
    obtain before | rfl := Redis.value_serve answered stored
    · obtain ⟨writer, reply, mem⟩ := documented.results owner workID result before
      exact ⟨writer, reply, mem_cons_of_mem _ mem⟩
    · exact ⟨op, r, mem_cons_self⟩
  ownersRead reader workID tenant mem := by
    obtain new | old := mem_cons.mp mem
    · cases new
      exact documented.owners workID tenant (Redis.get_serve answered)
    · exact documented.ownersRead reader workID tenant old
  claimsRead reader workID subject mem := by
    obtain new | old := mem_cons.mp mem
    · cases new
      exact (documented.claims workID subject (Redis.get_serve answered)).mono _
    · exact (documented.claimsRead reader workID subject old).mono _
  stored later writer owner workID result reply earlier split := by
    cases later with
    | nil =>
      obtain ⟨new, rfl⟩ := List.cons.inj split
      cases new
      exact documented.justified rules seen rfl
    | cons e later =>
      exact documented.stored later writer owner workID result reply earlier (List.cons.inj split).2

end

lemma documented_run (steps) : Documented steps (serviceRun steps).shared :=
  (lawful_run steps (n := 0) (L := fun op => .start op ∈ steps) (V := fun _ _ => True)
    (P := Rules) (T := fun _ _ => True) (I := Documented steps) (b := ServiceOp.body)
    (f := Redis.serve) (g := Redis.change) (w := { shared := { state := {} } })
    ⟨by simp, by simp, by simp, by simp, by simp, by simp⟩ (by simp) (Nat.le_refl _)
    (fun op _ => rules_obeyed op) (fun _ _ _ _ _ _ none => absurd none (by simp))
    (fun _ _ _ _ _ _ _ started documented rules seen answered =>
      ⟨trivial, documented.serve started rules seen answered⟩)
    (fun _ _ documented => ⟨fun _ _ hst => documented.owners _ _ (Redis.value_change hst),
      fun _ _ hst => documented.claims _ _ (Redis.value_change hst),
      fun _ _ _ hst => documented.results _ _ _ (Redis.value_change hst),
      documented.ownersRead, documented.claimsRead, documented.stored⟩)
    fun _ started => started).1

/-- Where work ids are never reused, every stored result comes from a submission for the tenant that
owns the work, by a principal that a poll had recorded as the claimant before, and whose tenant
is the owner or the system tenant. -/
theorem results_come_from_claimants (steps : List ServiceStep) (fresh : NeverReused steps) :
    (∀ owner workID result,
      (serviceRun steps).shared.state.values (.result owner workID) = some result →
      ∃ op reply, (op, ⟨.set (.result owner workID) result, reply⟩) ∈
        (serviceRun steps).shared.trace) ∧
    ∀ later op owner workID result reply earlier, (serviceRun steps).shared.trace =
        later ++ (op, ⟨.set (.result owner workID) result, reply⟩) :: earlier →
      ∃ caller submission, op = .submitResult caller workID submission ∧
        result = submission.workResult workID ∧ RecordedClaim earlier workID caller.subject ∧
        Enqueued steps workID owner ∧ (caller.tenant = owner ∨ caller.tenant = systemTenant) := by
  have documented := documented_run steps
  refine ⟨documented.results, fun later op owner workID result reply earlier split => ?_⟩
  obtain ⟨caller, submission, hs, hst, hrec, owned, tenant, enqueued, may⟩ :=
    documented.stored later op owner workID result reply earlier split
  cases inj_on_of_nodup_map fresh owned.mem enqueued.mem rfl
  refine ⟨caller, submission, hs, hst, hrec, owned, ?_⟩
  unfold tenantMayActOnWork at may
  split at may
  · contradiction
  · simpa using may

def claimedSubmission : List ServiceStep :=
  [.start (.enqueue ⟨"", 1, fun _ => none⟩ "acme" "tool" "nmap" { workID := "w1" }),
    .advance 0 .served, .advance 0 .served,
    .start (.pollWork ⟨id, 0, fun streams => List.Perm.refl streams⟩
      (some [⟨"i1", "tool", "nmap"⟩]) ⟨"acme", "nmap-1"⟩ "i1" 0),
    .advance 1 .served, .advance 1 .served, .advance 1 .served,
    .start (.submitResult ⟨"acme", "nmap-1"⟩ "w1" ⟨"open ports", none⟩),
    .advance 2 .served, .advance 2 .served, .advance 2 .served, .advance 2 .served]

theorem claimedSubmission_from_claimant :
    (serviceRun claimedSubmission).shared.state.values (.result "acme" "w1") =
        some { workID := "w1", result := "open ports" } ∧
      ∃ op reply, (op, ⟨.set (.result "acme" "w1") { workID := "w1", result := "open ports" },
        reply⟩) ∈ (serviceRun claimedSubmission).shared.trace ∧
        ∃ earlier caller submission, op = .submitResult caller "w1" submission ∧
          RecordedClaim earlier "w1" caller.subject := by
  have stored : (serviceRun claimedSubmission).shared.state.values (.result "acme" "w1") =
      some { workID := "w1", result := "open ports" } := rfl
  have claimants := results_come_from_claimants claimedSubmission (by unfold NeverReused; decide)
  obtain ⟨op, reply, mem⟩ := claimants.1 _ _ _ stored
  obtain ⟨later, earlier, split⟩ := append_of_mem mem
  obtain ⟨caller, submission, same, -, recorded, -⟩ := claimants.2 _ _ _ _ _ _ _ split
  exact ⟨stored, op, reply, mem, earlier, caller, submission, same, recorded⟩

end Gibson.WorkQueue
