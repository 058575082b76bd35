import Gibson.WorkQueue.Queue
import Gibson.Lib.Framing

/-! Dispatches of work on any number of harnesses. A dispatch names its work item by the component
and the clock. -/

namespace Gibson.WorkQueue

open Requests Interleaving Calls List

inductive ComponentKind where
  | agent
  | tool
  | plugin

def ComponentKind.text : ComponentKind → String
  | .agent => "agent"
  | .tool => "tool"
  | .plugin => "plugin"

/-- A dispatch to a component. -/
structure Dispatch where
  tenant : String
  kind : ComponentKind
  name : String
  /-- The clock reading that the dispatch takes, in nanoseconds. -/
  now : Nat
  (workType payload : String := "")
  (context slotPins : List (String × String) := [])
  fresh : Fresh := ⟨"", 0, fun _ => none⟩
  /-- How many times the wait is renewed, and for how many notifications each lasts. -/
  slices : Nat := 1
  rounds : Nat := 0

def Dispatch.workID (d : Dispatch) : String :=
  d.kind.text ++ "-" ++ d.name ++ "-" ++ Nat.repr d.now

def Dispatch.item (d : Dispatch) : WorkItem :=
  { workID := d.workID, workType := d.workType, payload := d.payload, context := d.context,
    slotPins := d.slotPins }

def waitSlices (workID : String) (rounds : Nat) : Nat → Redis.Prog (Outcome WorkResult)
  | 0 => pure (.error (.store .deadlineExceeded))
  | slices + 1 => do
    match ← waitForResult workID rounds with
    | .error (.store .deadlineExceeded) => waitSlices workID rounds slices
    | outcome => pure outcome

def dispatchWorkAndWait (d : Dispatch) : Redis.Prog (Outcome WorkResult) := do
  match ← enqueue d.fresh d.tenant d.kind.text d.name d.item with
  | .error e => pure (.error e)
  | .ok _ => waitSlices d.workID d.rounds d.slices

/-- Dispatches, and deliveries of results that components submit for their items. -/
inductive DispatchOp (n : Nat) where
  | dispatch (k : Fin n)
  | submit (k : Fin n) (result : WorkResult)

section
variable (ds : List Dispatch)

/-- Only a dispatch returns a result. -/
def DispatchOp.body : DispatchOp ds.length → Redis.Prog (Outcome (Option WorkResult))
  | .dispatch k => do
    match ← dispatchWorkAndWait (ds.get k) with
    | .error e => pure (.error e)
    | .ok result => pure (.ok (some result))
  | .submit k result => do
    match ← deliverResult (ds.get k).workID result with
    | .error e => pure (.error e)
    | .ok _ => pure (.ok none)

abbrev DispatchStep := Step (DispatchOp ds.length) Answer Change

def dispatchRun (steps : List (DispatchStep ds)) :
    World (Served Redis (DispatchOp ds.length) Request Reply)
      (Call (DispatchOp ds.length) Request Reply (Outcome (Option WorkResult))) :=
  run (Calls.system (DispatchOp.body ds) Redis.serve Redis.change) { shared := { state := {} } }
    steps

def KeepsOwners (steps : List (DispatchStep ds)) : Prop :=
  ∀ before x after, steps = before ++ x :: after → ∀ workID tenant tenant',
    (dispatchRun ds before).shared.state.values (.workOwner workID) = some tenant →
    (dispatchRun ds (before ++ [x])).shared.state.values (.workOwner workID) = some tenant' →
    tenant' = tenant

def ReturnsOwn (steps : List (DispatchStep ds)) : Prop :=
  ∀ (i : Nat) c k result, (dispatchRun ds steps).calls[i]? = some c → c.op = .dispatch k →
    c.rest = .done (.ok (some result)) → .start (.submit k result) ∈ steps

/-- Different dispatches use different work ids, and so they do not meet in any run. -/
def Separate : Prop :=
  (∀ j k : Fin ds.length, j ≠ k → (ds.get j).workID ≠ (ds.get k).workID) ∧
    ∀ steps, KeepsOwners ds steps ∧ ReturnsOwn ds steps

end

lemma append_dash_inj (hc : '-' ∉ c) (hd : '-' ∉ d)
    (hs : a ++ '-' :: c = b ++ '-' :: d) : a = b ∧ c = d := by
  obtain ⟨e, rfl, rs⟩ | ⟨e, rfl, rs⟩ := append_eq_append_iff.mp hs
  · cases e with
    | nil => exact ⟨by simp, (cons.inj rs).2⟩
    | cons x e =>
      rw [(cons.inj rs).2] at hc
      simp at hc
  · cases e with
    | nil => exact ⟨by simp, (cons.inj rs).2.symm⟩
    | cons x e =>
      rw [(cons.inj rs).2] at hd
      simp at hd

lemma dash_notMem_digits (n : Nat) : '-' ∉ Nat.toDigits 10 n := by
  intro mem
  have digit := Framing.toDigits_isDigit mem
  revert digit
  decide

lemma Dispatch.workID_toList (d : Dispatch) : d.workID.toList =
      d.kind.text.toList ++ '-' :: (d.name.toList ++ '-' :: Nat.toDigits 10 d.now) := by
  simp [workID, Nat.repr]

lemma Dispatch.workID_inj {d e : Dispatch} :
    d.workID = e.workID ↔ d.kind = e.kind ∧ d.name = e.name ∧ d.now = e.now := by
  constructor
  · intro hs
    have tex := congrArg String.toList hs
    rw [workID_toList, workID_toList] at tex
    have kin : d.kind = e.kind := by
      cases hd : d.kind <;> cases he : e.kind <;>
        first | rfl | simp [hd, he, ComponentKind.text] at tex
    rw [kin, append_cancel_left_eq] at tex
    obtain ⟨names, digits⟩ := append_dash_inj (dash_notMem_digits _) (dash_notMem_digits _)
      (cons.inj tex).2
    refine ⟨kin, String.toList_inj.mp names, ?_⟩
    calc d.now = Nat.ofDigitChars 10 (Nat.toDigits 10 d.now) 0 :=
          (Nat.ofDigitChars_toDigits (by omega) (by omega)).symm
      _ = Nat.ofDigitChars 10 (Nat.toDigits 10 e.now) 0 := by rw [digits]
      _ = e.now := Nat.ofDigitChars_toDigits (by omega) (by omega)
  · rintro ⟨kd, name, now⟩
    simp [workID, kd, name, now]

section
variable {ds : List Dispatch} {steps : List (DispatchStep ds)}

/-- A dispatch writes the owner of its own work id, a submission its result there. -/
def Writes (ds : List Dispatch) : DispatchOp ds.length → History Request Reply → Request → Prop
  | .dispatch k, _, .set (.workOwner workID) tenant =>
    workID = (ds.get k).workID ∧ tenant = (ds.get k).tenant
  | .dispatch _, _, .set (.result _ _) _ => False
  | .submit k result, _, .set (.result _ workID) written =>
    workID = (ds.get k).workID ∧ written = result
  | .submit _ _, _, .set (.workOwner _) _ => False
  | _, _, _ => True

def SubmittedUnder (steps : List (DispatchStep ds)) (workID : String) (result : WorkResult) :
    Prop :=
  ∃ k, .start (.submit k result) ∈ steps ∧ (ds.get k).workID = workID

def ReadsSubmitted (steps : List (DispatchStep ds)) : (q : Request) → Reply q → Prop
  | .get (.result _ workID), .ok (some result) => SubmittedUnder steps workID result
  | _, _ => True

def ReturnsSubmitted (steps : List (DispatchStep ds)) :
    DispatchOp ds.length → Outcome (Option WorkResult) → Prop
  | .dispatch k, .ok (some result) => SubmittedUnder steps (ds.get k).workID result
  | _, _ => True

/-- Results are submitted under their work id, and an owner is the tenant of a dispatch. -/
structure Attributed (steps : List (DispatchStep ds)) (s : Redis) : Prop where
  results : ∀ owner workID result, s.values (.result owner workID) = some result →
    SubmittedUnder steps workID result
  owners : ∀ workID tenant, s.values (.workOwner workID) = some tenant →
    ∃ k, (ds.get k).workID = workID ∧ (ds.get k).tenant = tenant

lemma waitSlices_obeys {V : (q : Request) → Reply q → Prop}
    {P : History Request Reply → Request → Prop} {T : WorkResult → Prop} (slices : Nat)
    (wait : ∀ pa, Obeys V P (fun out => ∀ result, out = .ok result → T result) pa
      (waitForResult workID rounds)) :
    Obeys V P (fun out => ∀ result, out = .ok result → T result) pa
      (waitSlices workID rounds slices) := by
  induction slices generalizing pa with
  | zero => exact obeys_pure (by simp)
  | succ slices ih =>
    refine obeys_bind (wait pa) fun out pa hre => ?_
    split
    · exact ih
    · exact obeys_pure hre

lemma body_obeys (op : DispatchOp ds.length) (hsd : .start op ∈ steps) :
    Obeys (ReadsSubmitted steps) (Writes ds op) (ReturnsSubmitted steps op) []
      (DispatchOp.body ds op) := by
  cases op with
  | submit k res =>
    refine obeys_bind (deliverResult_obeys trivial (fun _ _ => ⟨rfl, rfl⟩) fun _ _ => trivial)
      fun out _ _ => ?_
    cases out <;> exact obeys_pure trivial
  | dispatch k =>
    have hfil : ((ds.get k).fresh.fill (ds.get k).item).workID = (ds.get k).workID := by
      refine if_neg fun hem => ?_
      have len := congrArg (fun s => s.toList.length) (show (ds.get k).workID = "" from hem)
      simp only [Dispatch.workID_toList, length_append, length_cons] at len
      simp at len
    refine obeys_bind (M := fun out => ∀ res, out = .ok res →
      SubmittedUnder steps (ds.get k).workID res) ?_ fun out _ hre => ?_
    · refine obeys_bind (enqueue_obeys (fun _ => ⟨hfil, rfl⟩) (fun _ _ => trivial)
        (fun _ _ => trivial) fun _ => trivial) fun enq pa _ => ?_
      match enq with
      | .error e => exact obeys_pure (by simp)
      | .ok _ =>
        exact waitSlices_obeys _ fun pa => waitForResult_obeys (fun _ _ => trivial)
          (fun _ _ hsub => hsub) (fun _ _ => trivial) _ (fun _ => trivial)
          fun _ _ => trivial
    · cases out with
      | error e => exact obeys_pure trivial
      | ok res => exact obeys_pure (hre res rfl)

lemma Attributed.serve (hhe : Attributed steps s) (hsd : .start op ∈ steps)
    (wr : Writes ds op past q) (han : s.serve q a = some (state, r)) :
    ReadsSubmitted steps q r ∧ Attributed steps state := by
  constructor
  · match q, r, han with
    | .get (.result ow wid), .ok (some res), han =>
      exact hhe.results ow wid res (Redis.get_serve han)
    | .get (.result _ _), .ok none, _ => trivial
    | .get (.result _ _), .error _, _ => trivial
    | .get (.workOwner _), _, _ | .get (.workRun _), _, _ | .get (.workSlots _), _, _
    | .get (.workClaim _), _, _ | .set _ _, _, _ | .xadd _ _, _, _ | .xgroupCreate _, _, _
    | .xreadgroup _ _ _ _, _, _ | .xpending _ _, _, _ | .xclaim _ _ _ _, _, _ | .xack _ _, _, _
    | .scan _ _, _, _ | .publish _, _, _ | .subscribe _, _, _ | .receive _, _, _ => trivial
  · refine ⟨fun ow wid res hst => ?_, fun wid tn hst => ?_⟩
    · obtain hb | rfl := Redis.value_serve han hst
      · exact hhe.results ow wid res hb
      · match op, hsd, wr with
        | .submit k _, hsd, ⟨id, rfl⟩ => exact ⟨k, hsd, id.symm⟩
    · obtain hb | rfl := Redis.value_serve han hst
      · exact hhe.owners wid tn hb
      · match op, wr with
        | .dispatch k, ⟨id, hw⟩ => exact ⟨k, id.symm, hw.symm⟩

lemma dispatchRun_lawful (steps : List (DispatchStep ds)) :
    Attributed steps (dispatchRun ds steps).shared.state ∧
      ∀ (i : Nat) c, (dispatchRun ds steps).calls[i]? = some c →
        Lawful (fun op => .start op ∈ steps) (ReadsSubmitted steps) (Writes ds)
          (ReturnsSubmitted steps) (dispatchRun ds steps).shared c := by
  have hlaw := lawful_run steps (n := 0) (L := fun op => .start op ∈ steps)
    (V := ReadsSubmitted steps) (P := Writes ds) (T := ReturnsSubmitted steps)
    (I := fun s : Served Redis (DispatchOp ds.length) Request Reply => Attributed steps s.state)
    (b := DispatchOp.body ds) (f := Redis.serve) (g := Redis.change)
    (w := { shared := { state := {} } }) ⟨by simp, by simp⟩ (by simp) (Nat.le_refl _)
    (fun op hsd => body_obeys op hsd) (fun _ _ _ _ _ _ none => absurd none (by simp))
    (fun _ _ _ _ _ _ _ hsd hhe wr _ han => hhe.serve hsd wr han)
    (fun s e hhe => ?_) fun _ hsd => hsd
  · exact ⟨hlaw.1, fun i c => hlaw.2.1 i c (Nat.zero_le i)⟩
  · exact ⟨fun _ _ _ hst => hhe.results _ _ _ (Redis.value_change hst),
      fun _ _ hst => hhe.owners _ _ (Redis.value_change hst)⟩

end

/-- A set of dispatches keeps apart exactly if no two of them dispatch to a component of the same
kind and name at the same reading of the clock. -/
theorem dispatches_separate_iff (ds : List Dispatch) : Separate ds ↔ ∀ j k : Fin ds.length, j ≠ k →
      ¬((ds.get j).kind = (ds.get k).kind ∧ (ds.get j).name = (ds.get k).name ∧
        (ds.get j).now = (ds.get k).now) := by
  constructor
  · intro sep j k ho hs
    exact sep.1 j k ho (Dispatch.workID_inj.mpr hs)
  intro hpt
  have ids (j k : Fin ds.length) (ho : j ≠ k) : (ds.get j).workID ≠ (ds.get k).workID :=
    fun hs => hpt j k ho (Dispatch.workID_inj.mp hs)
  have hs {j k} (id : (ds.get j).workID = (ds.get k).workID) : j = k :=
    Classical.not_not.mp fun ho => ids j k ho id
  refine ⟨ids, fun steps => ⟨?_, ?_⟩⟩
  · intro hb x ha _ wid tn ten' owned own'
    obtain ⟨j, idj, rfl⟩ := (dispatchRun_lawful hb).1.owners wid tn owned
    obtain ⟨k, idk, rfl⟩ := (dispatchRun_lawful (hb ++ [x])).1.owners wid ten' own'
    rw [hs (idk.trans idj.symm)]
  · intro i c k res cl op hre
    have hlaw := (dispatchRun_lawful steps).2 i c cl
    have hsub := hlaw.returned hre
    rw [op] at hsub
    obtain ⟨j, hsd, id⟩ := hsub
    rwa [← hs id]

def collidingDispatches : List Dispatch :=
  [{ tenant := "acme", kind := .tool, name := "nmap", now := 7 },
    { tenant := "globex", kind := .tool, name := "nmap", now := 7 }]

def firstDispatch : Fin collidingDispatches.length := ⟨0, by decide⟩

def secondDispatch : Fin collidingDispatches.length := ⟨1, by decide⟩

def collidingRun : List (DispatchStep collidingDispatches) :=
  [.start (.dispatch firstDispatch), .advance 0 .served, .advance 0 .served,
    .start (.dispatch secondDispatch), .advance 1 .served, .advance 1 .served,
    .start (.submit secondDispatch { workID := "tool-nmap-7", result := "globex hosts" }),
    .advance 2 .served, .advance 2 .served, .advance 2 .served,
    .advance 0 .served, .advance 0 .served, .advance 0 .served]

theorem collidingRun_leaks : (collidingDispatches.get firstDispatch).workID =
        (collidingDispatches.get secondDispatch).workID ∧
      ((dispatchRun collidingDispatches collidingRun).calls.map fun c =>
        match c.rest with
        | .done (.ok (some result)) => result.result
        | _ => "") = ["globex hosts", "", ""] ∧
      (dispatchRun collidingDispatches (collidingRun.take 3)).shared.state.values
        (.workOwner "tool-nmap-7") = some "acme" ∧
      (dispatchRun collidingDispatches collidingRun).shared.state.values
        (.workOwner "tool-nmap-7") = some "globex" := by
  exact ⟨rfl, rfl, rfl, rfl⟩

end Gibson.WorkQueue
