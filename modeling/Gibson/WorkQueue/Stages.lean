import Gibson.WorkQueue.Queue

/-! Deliveries and waits on one work id, as a machine of stages. Every run of the calls is a run of
the stages. -/

namespace Gibson.WorkQueue

open Requests Interleaving Redis List

inductive NotifyOp where
  | deliver (result : WorkResult)
  | wait (rounds : Nat)

def delivered (p : Redis.Prog (Outcome Unit)) : Redis.Prog (Outcome (Option WorkResult)) := do
  match ← p with
  | .error e => pure (.error e)
  | .ok _ => pure (.ok none)

def waited (p : Redis.Prog (Outcome WorkResult)) : Redis.Prog (Outcome (Option WorkResult)) := do
  match ← p with
  | .error e => pure (.error e)
  | .ok result => pure (.ok (some result))

def NotifyOp.body (workID : String) : NotifyOp → Redis.Prog (Outcome (Option WorkResult))
  | .deliver result => delivered (deliverResult workID result)
  | .wait rounds => waited (waitForResult workID rounds)

/-- The store, where a read of a result is answered; every other command can still fail. -/
def Redis.serveReads (s : Redis) (q : Request) (a : Answer) : Option (Redis × Reply q) :=
  match q with
  | .get (.result owner workID) => s.perform false (.get (.result owner workID))
  | q => s.serve q a

def notifySystem (workID : String) : System (Calls.Served Redis NotifyOp Request Reply) NotifyOp
      (Calls.Call NotifyOp Request Reply (Outcome (Option WorkResult))) Answer Change :=
  Calls.system (NotifyOp.body workID) Redis.serveReads Redis.change

inductive Stage where
  | looking (rounds : Nat)
  | subscribing (owner : String) (rounds : Nat)
  | reading (owner : String) (subscription rounds : Nat)
  | waiting (owner : String) (subscription rounds : Nat)
  | routing (result : WorkResult)
  | storing (owner : String) (result : WorkResult)
  | publishing (owner : String)
  | returned (outcome : Outcome (Option WorkResult))

namespace Stage

variable (workID : String)

def program : Stage → Redis.Prog (Outcome (Option WorkResult))
  | looking rounds => waited (waitForResult workID rounds)
  | subscribing owner rounds => waited (subscribeAndWait owner workID rounds)
  | reading owner subscription rounds =>
    waited (fetchResultOr owner workID (awaitNotification owner workID subscription rounds))
  | waiting owner subscription rounds =>
    waited (awaitNotification owner workID subscription (rounds + 1))
  | routing result => delivered (deliverResult workID result)
  | storing owner result => delivered (storeResult owner workID result)
  | publishing owner => delivered (notifyResult owner workID)
  | returned outcome => .done outcome

def enter (op : NotifyOp) : Stage :=
  if workID = "" then .returned (.error (.empty "workID"))
  else match op with
    | .deliver result => .routing result
    | .wait rounds => .looking rounds

def afterLooking (rounds : Nat) (r : Except StoreError (Option String)) : Stage :=
  match ownerOf r with
  | .error e => returned (.error e)
  | .ok owner => subscribing owner rounds

def afterSubscribing (owner : String) (rounds : Nat) : Except StoreError Nat → Stage
  | .error e => returned (.error (.store e))
  | .ok subscription => reading owner subscription rounds

def again (owner : String) (subscription : Nat) : Nat → Stage
  | 0 => returned (.error (.store .deadlineExceeded))
  | rounds + 1 => waiting owner subscription rounds

def afterReading (owner : String) (subscription rounds : Nat) :
    Except StoreError (Option WorkResult) → Stage
  | .ok (some result) => returned (.ok (some result))
  | _ => again owner subscription rounds

def afterWaiting (owner : String) (subscription rounds : Nat) : Except StoreError Unit → Stage
  | .error .deadlineExceeded => returned (.error (.store .deadlineExceeded))
  | .error _ => returned (.error .subscriptionClosed)
  | .ok _ => reading owner subscription rounds

def afterRouting (result : WorkResult) (r : Except StoreError (Option String)) : Stage :=
  match ownerOf r with
  | .error e => returned (.error e)
  | .ok owner => storing owner result

def afterStoring (owner : String) : Except StoreError Unit → Stage
  | .error e => returned (.error (.store e))
  | .ok _ => publishing owner

def afterPublishing : Except StoreError Unit → Stage
  | .error e => returned (.error (.store e))
  | .ok _ => returned (.ok none)

def move (s : Redis) (here : Stage) (q : Request) (next : Reply q → Stage) (a : Answer) :
    Redis × Stage :=
  match s.serveReads q a with
  | none => (s, here)
  | some (state, r) => (state, next r)

def advance (s : Redis) (stage : Stage) (a : Answer) : Redis × Stage :=
  match stage with
  | looking rounds => move s stage (.get (.workOwner workID)) (afterLooking rounds) a
  | subscribing owner rounds =>
    move s stage (.subscribe ⟨owner, workID⟩) (afterSubscribing owner rounds) a
  | reading owner subscription rounds =>
    move s stage (.get (.result owner workID)) (afterReading owner subscription rounds) a
  | waiting owner subscription rounds =>
    move s stage (.receive subscription) (afterWaiting owner subscription rounds) a
  | routing result => move s stage (.get (.workOwner workID)) (afterRouting result) a
  | storing owner result =>
    move s stage (.set (.result owner workID) result) (afterStoring owner) a
  | publishing owner => move s stage (.publish ⟨owner, workID⟩) afterPublishing a
  | returned _ => (s, stage)

def system : System Redis NotifyOp (NotifyOp × Stage) Answer Change where
  enter op := (op, enter workID op)
  advance s p a := ((advance workID s p.2 a).1, p.1, (advance workID s p.2 a).2)
  outside := Redis.change

lemma waited_fetch (owner) (subscription rds : Nat) :
    waited (fetchResultOr owner workID (awaitNotification owner workID subscription rds)) =
      .ask (.get (.result owner workID)) fun r =>
        (afterReading owner subscription rds r).program workID := by
  refine congrArg (Program.ask _) (funext fun r => ?_)
  match r with
  | .ok (some res) => rfl
  | .ok none | .error e => cases rds <;> rfl

lemma waited_await (owner) (subscription rds : Nat) :
    waited (awaitNotification owner workID subscription (rds + 1)) =
      .ask (.receive subscription) fun r =>
        (afterWaiting owner subscription rds r).program workID := by
  refine congrArg (Program.ask _) (funext fun r => ?_)
  match r with
  | .ok () | .error .deadlineExceeded | .error .failed | .error .noGroup => rfl

lemma waited_subscribe (owner) (rds : Nat) :
    waited (subscribeAndWait owner workID rds) = .ask (.subscribe ⟨owner, workID⟩)
        fun r => (afterSubscribing owner rds r).program workID := by
  refine congrArg (Program.ask _) (funext fun r => ?_)
  match r with
  | .ok subscription | .error e => rfl

lemma waited_wait {workID} (hn : workID ≠ "") (rds : Nat) :
    waited (waitForResult workID rds) =
      .ask (.get (.workOwner workID)) fun r => (afterLooking rds r).program workID := by
  simp only [waitForResult, hn, lookupWorkOwner, if_false]
  refine congrArg (Program.ask _) (funext fun r => ?_)
  show waited (match ownerOf r with
    | .error e => pure (.error e)
    | .ok ow => subscribeAndWait ow workID rds) = _
  unfold afterLooking
  cases ownerOf r <;> rfl

lemma delivered_deliver {workID} (hn : workID ≠ "") (result) :
    delivered (deliverResult workID result) =
      .ask (.get (.workOwner workID)) fun r => (afterRouting result r).program workID := by
  simp only [deliverResult, hn, lookupWorkOwner, if_false]
  refine congrArg (Program.ask _) (funext fun r => ?_)
  show delivered (match ownerOf r with
    | .error e => pure (.error e)
    | .ok ow => storeResult ow workID result) = _
  unfold afterRouting
  cases ownerOf r <;> rfl

lemma program_enter (op) : (enter workID op).program workID = op.body workID := by
  unfold enter
  split
  · rename_i hem
    subst hem
    cases op <;> rfl
  · cases op <;> rfl

variable {workID} {s : Calls.Served Redis NotifyOp Request Reply} {stage : Stage}

lemma advance_ask {here q} {nx : Reply q → Stage} (a)
    (hs : here.program workID = .ask q fun r => (nx r).program workID)
    (hsta : c.rest = here.program workID) :
    (Calls.advance serveReads s c a).1.state = (move s.state here q nx a).1 ∧
      (Calls.advance serveReads s c a).2.rest = (move s.state here q nx a).2.program workID := by
  unfold Calls.advance move
  rw [hsta, hs]
  cases hv : s.state.serveReads q a with
  | none => simp [hsta, hv, hs]
  | some an => simp [hv]

lemma advance_program (hn : workID ≠ "") (a) (hsta : c.rest = stage.program workID) :
    (Calls.advance serveReads s c a).1.state = (advance workID s.state stage a).1 ∧
      (Calls.advance serveReads s c a).2.rest =
        (advance workID s.state stage a).2.program workID := by
  cases stage with
  | looking rds => exact advance_ask a (waited_wait hn rds) hsta
  | subscribing ow rds => exact advance_ask a (waited_subscribe workID ow rds) hsta
  | reading ow subscription rds =>
    exact advance_ask a (waited_fetch workID ow subscription rds) hsta
  | waiting ow subscription rds =>
    exact advance_ask a (waited_await workID ow subscription rds) hsta
  | routing res => exact advance_ask a (delivered_deliver hn res) hsta
  | storing | publishing =>
    refine advance_ask a (congrArg (Program.ask _) (funext fun r => ?_)) hsta
    match r with
    | .ok () | .error e => rfl
  | returned out =>
    have rs : c.rest = .done out := hsta
    simp [Calls.advance, rs, advance, program]

lemma run_program (hn : workID ≠ "") (store) (ss : List (Step NotifyOp Answer Change)) :
    (run (notifySystem workID) { shared := { state := store } } ss).shared.state =
        (run (system workID) { shared := store } ss).shared ∧
      (run (notifySystem workID) { shared := { state := store } } ss).calls.map
          (fun c => (c.op, c.rest)) =
        (run (system workID) { shared := store } ss).calls.map
          fun p => (p.1, p.2.program workID) := by
  induction ss using reverseRecOn with
  | nil => exact ⟨rfl, rfl⟩
  | append_singleton hb x ih =>
    rw [run_append_singleton, run_append_singleton]
    generalize run (notifySystem workID) _ hb = w at ih ⊢
    generalize run (system workID) _ hb = u at ih ⊢
    obtain ⟨shared, cs⟩ := ih
    cases x with
    | outside e => exact ⟨congrArg (fun s => change s e) shared, cs⟩
    | start op =>
      refine ⟨shared, ?_⟩
      have hen := program_enter workID op
      simp only [step, map_append, cs, map_cons, map_nil]
      simp only [notifySystem, Calls.system, system, hen]
    | advance i a =>
      have ht := congrArg (fun l => l[i]?) cs
      simp only [getElem?_map] at ht
      cases cl : w.calls[i]? with
      | none =>
        rw [cl] at ht
        have none : u.calls[i]? = none := Option.map_eq_none_iff.mp ht.symm
        simpa only [step, cl, none] using ⟨shared, cs⟩
      | some c =>
        obtain ⟨p, hf, hs⟩ : ∃ p, u.calls[i]? = some p ∧
            (c.op, c.rest) = (p.1, p.2.program workID) := by
          rw [cl] at ht
          obtain ⟨p, hf, hs⟩ := Option.map_eq_some_iff.mp ht.symm
          exact ⟨p, hf, hs.symm⟩
        obtain ⟨op, rs⟩ := Prod.mk.inj hs
        have hm := advance_program (s := w.shared) hn a rs
        simp only [step, cl, hf, map_set, cs]
        rw [shared] at hm
        refine ⟨hm.1, congrArg _ (Prod.ext ?_ hm.2)⟩
        refine Eq.trans ?_ op
        obtain hs | ⟨_, _, _, _, _, _, hs⟩ :=
          Calls.advance_cases (f := serveReads) w.shared c a <;>
        exact congrArg (fun p => p.2.op) hs

def subscription : Stage → Option Nat
  | reading _ h _ | waiting _ h _ => some h
  | _ => none

/-- The owner, results and subscriptions stay, but for the stepping call's own notifications. -/
structure Grows (workID : String) (own : Option Nat) (s s' : Redis) : Prop where
  binding : s'.values (.workOwner workID) = s.values (.workOwner workID)
  result : ∀ owner, (s.values (.result owner workID)).isSome →
    (s'.values (.result owner workID)).isSome
  subscriptions : ∀ h sub, s.subscriptions[h]? = some sub →
    ∃ sub', s'.subscriptions[h]? = some sub' ∧ sub'.channel = sub.channel ∧
      (own ≠ some h → sub.queued ≤ sub'.queued)

lemma Grows.rfl (s) : Grows workID own s s :=
  ⟨Eq.refl _, fun _ h => h, fun _ sub h => ⟨sub, h, Eq.refl _, fun _ => Nat.le_refl _⟩⟩

lemma grows_set (s owner result) :
    Grows workID none s (s.setValue (.result owner workID) result) where
  binding := by simp [setValue]
  result other stored := by
    by_cases hs : Key.result other workID = .result owner workID
    · rw [hs]
      simp [setValue]
    · simpa [setValue, Function.update_of_ne hs] using stored
  subscriptions _ sub here := ⟨sub, here, Eq.refl _, fun _ => Nat.le_refl _⟩

def published (s : Redis) (channel : Channel) : Redis :=
  { s with subscriptions := s.subscriptions.map fun sub =>
      if sub.channel = channel then { sub with queued := sub.queued + 1 } else sub }

lemma grows_publish (s channel) : Grows workID none s (published s channel) where
  binding := Eq.refl _
  result _ stored := stored
  subscriptions h sub here := by
    refine ⟨_, by rw [published, getElem?_map, here]; exact Eq.refl _, ?_, fun _ => ?_⟩
    · dsimp only
      split <;> exact Eq.refl _
    dsimp only
    split
    · exact Nat.le_succ _
    · exact Nat.le_refl _

def subscribed (s : Redis) (channel : Channel) : Redis :=
  { s with subscriptions := s.subscriptions ++ [⟨channel, 0⟩] }

lemma grows_subscribe (s channel) : Grows workID none s (subscribed s channel) where
  binding := Eq.refl _
  result _ stored := stored
  subscriptions h sub here :=
    ⟨sub, by rw [subscribed, List.getElem?_append_left (List.getElem?_eq_some_iff.mp here).1, here],
      Eq.refl _, fun _ => Nat.le_refl _⟩

lemma grows_receive (s) (hh : s.subscriptions[h]? = some sub) (n : Nat) :
    Grows workID (some h) s
      { s with subscriptions := s.subscriptions.set h { sub with queued := n } } where
  binding := Eq.refl _
  result _ stored := stored
  subscriptions place ho ht := by
    by_cases hs : h = place
    · subst hs
      cases hh.symm.trans ht
      refine ⟨_, List.getElem?_set_self (List.getElem?_eq_some_iff.mp hh).1, Eq.refl _, ?_⟩
      exact fun ho => absurd (Eq.refl _) ho
    · exact ⟨ho, by rw [List.getElem?_set_ne hs, ht], Eq.refl _, fun _ => Nat.le_refl _⟩

inductive Moves (workID : String) (s : Redis) : Stage → Redis → Stage → Prop
  | stay (stage : Stage) : Moves workID s stage s stage
  | fail {stage : Stage} {s' : Redis} (e : QueueError) :
    Grows workID stage.subscription s s' → Moves workID s stage s' (returned (.error e))
  | looked {rounds : Nat} {owner : String} : s.values (.workOwner workID) = some owner →
    Moves workID s (looking rounds) s (subscribing owner rounds)
  | subscribed {owner : String} {rounds : Nat} :
    Moves workID s (subscribing owner rounds) (subscribed s ⟨owner, workID⟩)
      (reading owner s.subscriptions.length rounds)
  | found {owner : String} {h rounds : Nat} {result : WorkResult} :
    s.values (.result owner workID) = some result →
    Moves workID s (reading owner h rounds) s (returned (.ok (some result)))
  | absent {owner : String} {h rounds : Nat} : s.values (.result owner workID) = none →
    Moves workID s (reading owner h (rounds + 1)) s (waiting owner h rounds)
  | woken {owner : String} {h rounds : Nat} {s' : Redis} : Grows workID (some h) s s' →
    Moves workID s (waiting owner h rounds) s' (reading owner h rounds)
  | routed {result : WorkResult} {owner : String} : s.values (.workOwner workID) = some owner →
    owner ≠ "" → Moves workID s (routing result) s (storing owner result)
  | stored {owner : String} {result : WorkResult} :
    Moves workID s (storing owner result) (s.setValue (.result owner workID) result)
      (publishing owner)
  | published {owner : String} :
    Moves workID s (publishing owner) (published s ⟨owner, workID⟩) (returned (.ok none))

lemma Moves.grows {s s' stage stage'} (h : Moves workID s stage s' stage') :
    Grows workID stage.subscription s s' := by
  cases h with
  | stay => exact Grows.rfl s
  | fail e hg => exact hg
  | looked => exact Grows.rfl s
  | subscribed => exact grows_subscribe s _
  | found | absent => exact Grows.rfl s
  | woken hg => exact hg
  | routed => exact Grows.rfl s
  | stored => exact grows_set s _ _
  | published => exact grows_publish s _

lemma serveReads_owner {s s' : Redis}
    (hv : s.serveReads (.get (.workOwner workID)) a = some (s', r)) :
    s' = s ∧ ∀ ow, r = .ok (some ow) → s.values (.workOwner workID) = some ow := by
  have han := hv
  refine ⟨?_, fun ow ok => get_serve (ok ▸ han)⟩
  obtain ⟨hs, -⟩ | ⟨_, _, hpe, -⟩ := serve_cases han
  · exact hs
  · exact (Prod.mk.inj (Option.some.inj hpe)).1.symm

lemma advance_moves (s stage a) :
    Moves workID s stage (advance workID s stage a).1 (advance workID s stage a).2 := by
  cases stage with
  | looking rds =>
    simp only [advance, move]
    cases served : s.serveReads (.get (.workOwner workID)) a with
    | none => exact .stay _
    | some an =>
      obtain ⟨hs, onR⟩ := serveReads_owner served
      simp only [hs, afterLooking]
      cases lkp : ownerOf an.2 with
      | error e => exact .fail e (Grows.rfl s)
      | ok ow => exact .looked (onR ow (ownerOf_ok lkp).1)
  | routing res =>
    simp only [advance, move]
    cases served : s.serveReads (.get (.workOwner workID)) a with
    | none => exact .stay _
    | some an =>
      obtain ⟨hs, onR⟩ := serveReads_owner served
      simp only [hs, afterRouting]
      cases lkp : ownerOf an.2 with
      | error e => exact .fail e (Grows.rfl s)
      | ok ow => exact .routed (onR ow (ownerOf_ok lkp).1) (ownerOf_ok lkp).2
  | subscribing ow rds =>
    cases a with
    | served | elapsed => exact .subscribed
    | failed => exact .fail _ (Grows.rfl s)
    | lost => exact .fail _ (grows_subscribe s _)
  | reading ow h rds =>
    show Moves workID s _ s (afterReading ow h rds (.ok (s.values (.result ow workID))))
    cases hst : s.values (.result ow workID) with
    | some res => exact .found hst
    | none =>
      cases rds with
      | zero => exact .fail _ (Grows.rfl s)
      | succ rds => exact .absent hst
  | storing ow res =>
    cases a with
    | served | elapsed => exact .stored
    | failed => exact .fail _ (Grows.rfl s)
    | lost => exact .fail _ (grows_set s _ _)
  | publishing ow =>
    cases a with
    | served | elapsed => exact .published
    | failed => exact .fail _ (Grows.rfl s)
    | lost => exact .fail _ (grows_publish s _)
  | returned out => exact .stay _
  | waiting ow h rds =>
    cases a with
    | elapsed | failed => exact .fail _ (Grows.rfl s)
    | served =>
      simp only [advance, move, serveReads, serve, perform]
      cases hh : s.subscriptions[h]? with
      | none => exact .fail _ (Grows.rfl s)
      | some sub =>
        by_cases hem : sub.queued = 0
        · simpa [hem] using Moves.stay _
        · simpa [hem, afterWaiting] using Moves.woken (grows_receive s hh _)
    | lost =>
      simp only [advance, move, serveReads, serve, perform]
      cases hh : s.subscriptions[h]? with
      | none => exact .fail _ (Grows.rfl s)
      | some sub =>
        by_cases hem : sub.queued = 0
        · simpa [hem] using Moves.stay _
        · simpa [hem, afterWaiting] using Moves.fail _ (grows_receive s hh _)

end Stage
end Gibson.WorkQueue
