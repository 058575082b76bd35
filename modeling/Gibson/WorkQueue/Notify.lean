import Gibson.WorkQueue.Stages

/-! Deliveries and waits on one work id. A delivery stores and then publishes; a wait subscribes and
then reads. -/

namespace Gibson.WorkQueue

open Requests Interleaving Stage Calls Redis Option

namespace Stage

variable {workID : String}

/-- Notifications waiting on a subscription. -/
def queued (s : Redis) (h : Nat) : Nat := (s.subscriptions[h]?.map Subscription.queued).getD 0

/-- What a stage says about the store. -/
def Sound (workID : String) (s : Redis) : Stage → Prop
  | subscribing owner _ => s.values (.workOwner workID) = some owner
  | reading owner h _ | waiting owner h _ => s.values (.workOwner workID) = some owner ∧
      ∃ sub, s.subscriptions[h]? = some sub ∧ sub.channel = ⟨owner, workID⟩
  | storing owner _ => s.values (.workOwner workID) = some owner ∧ owner ≠ ""
  | publishing owner => s.values (.workOwner workID) = some owner ∧ owner ≠ "" ∧
      (s.values (.result owner workID)).isSome
  | returned (.ok none) => ∃ owner, s.values (.workOwner workID) = some owner ∧ owner ≠ "" ∧
      (s.values (.result owner workID)).isSome
  | _ => True

/-- A wait goes through the stages of a wait. -/
def Fits : NotifyOp → Stage → Prop
  | .wait _, routing _ | .wait _, storing _ _ | .wait _, publishing _ => False
  | _, _ => True

/-- Once a delivery has returned, every wait at its subscription has a notification there. -/
structure Steady (workID : String) (u : World Redis (NotifyOp × Stage)) : Prop where
  sound : ∀ (i : Nat) (p : NotifyOp × Stage), u.calls[i]? = some p →
    Sound workID u.shared p.2 ∧ Fits p.1 p.2
  apart : ∀ (i j : Nat) (p p' : NotifyOp × Stage) (h : Nat),
    u.calls[i]? = some p → u.calls[j]? = some p' → p.2.subscription = some h →
      p'.2.subscription = some h → i = j
  heard : ∀ (i j : Nat) op op' owner h rounds, u.calls[i]? = some (op, returned (.ok none)) →
    u.calls[j]? = some (op', waiting owner h rounds) → 0 < queued u.shared h

variable {s s' : Redis} {stage : Stage}

lemma Sound.grows (hso : Sound workID s stage)
    (hg : Grows workID own s s') : Sound workID s' stage := by
  have kp {ow} (hk : s.values (.workOwner workID) = some ow) :
      s'.values (.workOwner workID) = some ow := hg.binding.trans hk
  match stage, hso with
  | subscribing ow _, hk => exact kp hk
  | reading ow h _, ⟨hk, sub, hh, channel⟩
  | waiting ow h _, ⟨hk, sub, hh, channel⟩ =>
    obtain ⟨sub', ht, hs, -⟩ := hg.subscriptions h sub hh
    exact ⟨kp hk, sub', ht, hs.trans channel⟩
  | storing ow _, ⟨hk, hfil⟩ => exact ⟨kp hk, hfil⟩
  | publishing ow, ⟨hk, hfil, hst⟩ =>
    exact ⟨kp hk, hfil, hg.result ow hst⟩
  | returned (.ok none), ⟨ow, hk, hfil, hst⟩ =>
    exact ⟨ow, kp hk, hfil, hg.result ow hst⟩
  | returned (.ok (some _)), _ => trivial
  | returned (.error _), _ => trivial
  | looking _, _ => trivial
  | routing _, _ => trivial

variable {stage' : Stage}

section
variable (h : Moves workID s stage s' stage')
include h

lemma Moves.sound (sound : Sound workID s stage) : Sound workID s' stage' := by
  have after := sound.grows h.grows
  cases h with
  | stay => exact after
  | fail e _ => trivial
  | looked known => exact known
  | @subscribed owner rounds =>
    refine ⟨sound, ⟨⟨owner, workID⟩, 0⟩, ?_, rfl⟩
    simp [Stage.subscribed]
  | found => trivial
  | absent => exact sound
  | woken grows => exact after
  | routed known filled => exact ⟨known, filled⟩
  | @stored owner result => exact ⟨after.1, after.2, by simp [setValue]⟩
  | @published owner => exact ⟨owner, after⟩

lemma Moves.fits (fits : Fits op stage) : Fits op stage' := by
  cases h <;> cases op <;> first | exact fits | trivial

lemma Moves.subscription_eq (hhe : stage'.subscription = some place) :
    stage.subscription = some place ∨ place = s.subscriptions.length := by
  cases h with
  | subscribed => exact .inr (some.inj hhe).symm
  | _ => first | exact .inl hhe | contradiction

end

lemma Moves.delivered (h : Moves workID s stage s' (returned (.ok none))) :
    stage = returned (.ok none) ∨
      ∃ owner, stage = publishing owner ∧ s' = Stage.published s ⟨owner, workID⟩ := by
  cases h with
  | stay => exact .inl rfl
  | published => exact .inr ⟨_, rfl, rfl⟩

lemma Moves.waits (h : Moves workID s stage s' (waiting owner place rounds)) :
    s' = s ∧ (stage = waiting owner place rounds ∨ s.values (.result owner workID) = none ∧
      stage = reading owner place (rounds + 1)) := by
  cases h with
  | stay => exact ⟨rfl, .inl rfl⟩
  | absent hno => exact ⟨rfl, .inr ⟨hno, rfl⟩⟩

variable {h : Nat}

lemma Sound.subscription_lt (hso : Sound workID s stage) (hhe : stage.subscription = some h) :
    h < s.subscriptions.length := by
  match stage, hso, hhe with
  | reading _ _ _, ⟨_, sub, hh, _⟩, rfl => exact (List.getElem?_eq_some_iff.mp hh).1
  | waiting _ _ _, ⟨_, sub, hh, _⟩, rfl => exact (List.getElem?_eq_some_iff.mp hh).1

lemma Grows.queued_pos (hg : Grows workID own s s') (ho : own ≠ some h)
    (some_queued : 0 < queued s h) : 0 < queued s' h := by
  unfold queued at some_queued ⊢
  cases hh : s.subscriptions[h]? with
  | none => simp [hh] at some_queued
  | some sub =>
    obtain ⟨sub', ht, -, more⟩ := hg.subscriptions h sub hh
    have := more ho
    rw [hh] at some_queued
    rw [ht]
    simp only [map_some, getD_some] at some_queued ⊢
    omega

lemma enter_facts (workID s op) :
    Sound workID s (enter workID op) ∧ Fits op (enter workID op) ∧
      (enter workID op).subscription = none ∧ enter workID op ≠ returned (.ok none) := by
  unfold enter
  split
  · exact ⟨trivial, by cases op <;> trivial, rfl, by simp⟩
  · cases op <;> exact ⟨trivial, trivial, rfl, by simp⟩

section
variable {i : Nat}

lemma step_origin (cl : (step (system workID) u x).calls[i]? = some p) :
    (u.calls[i]? = some p ∧ ∀ a, x ≠ .advance i a) ∨
      (∃ op, x = .start op ∧ p = (op, enter workID op)) ∨
      ∃ a hb, x = .advance i a ∧ u.calls[i]? = some hb ∧ p.1 = hb.1 ∧
        Moves workID u.shared hb.2 (step (system workID) u x).shared p.2 := by
  obtain old | ⟨op, s0, -, hen⟩ | ⟨a, hb, hm, old, ha⟩ := calls_step cl
  · exact .inl old
  · exact .inr (.inl ⟨op, s0, hen⟩)
  refine .inr (.inr ⟨a, hb, hm, old, by rw [ha]; rfl, ?_⟩)
  have hsh : (step (system workID) u x).shared = (advance workID u.shared hb.2 a).1 := by
    subst hm
    exact congrArg World.shared (step_advance_some old a)
  rw [hsh, ha]
  exact advance_moves u.shared hb.2 a

variable {j : Nat}

lemma Steady.others (hsy : Steady workID u) (hune : ∀ key, x ≠ .outside (.expire key))
    (cl : u.calls[j]? = some p) (hsl : ∀ a, x ≠ .advance j a) :
    ∃ own, Grows workID own u.shared (step (system workID) u x).shared ∧
      ∀ h, p.2.subscription = some h → own ≠ some h := by
  cases x with
  | start op => exact ⟨none, Grows.rfl _, by simp⟩
  | outside e =>
    cases e with
    | tick n => exact ⟨none, { Grows.rfl u.shared with }, by simp⟩
    | expire key => exact absurd rfl (hune key)
  | advance i a =>
    simp only [step]
    cases hf : u.calls[i]? with
    | none => exact ⟨none, Grows.rfl _, by simp⟩
    | some hb =>
      refine ⟨hb.2.subscription, (advance_moves u.shared hb.2 a).grows, ?_⟩
      intro h hhe hs
      have := hsy.apart i j hb p h hf cl hs hhe
      exact hsl a (by rw [this])

lemma subscription_step (cl : (step (system workID) u x).calls[i]? = some p)
    (hhe : p.2.subscription = some h) :
    (∃ hb, u.calls[i]? = some hb ∧ hb.2.subscription = some h) ∨
      (∃ a, x = .advance i a) ∧ h = u.shared.subscriptions.length := by
  obtain ⟨old, -⟩ | ⟨op, rfl, rfl⟩ | ⟨a, hb, rfl, old, -, moves⟩ := step_origin cl
  · exact .inl ⟨p, old, hhe⟩
  · rw [(enter_facts workID u.shared op).2.2.1] at hhe
    contradiction
  obtain kp | fresh := moves.subscription_eq hhe
  · exact .inl ⟨hb, old, kp⟩
  · exact .inr ⟨⟨a, rfl⟩, fresh⟩

lemma Steady.heard_step (steady : Steady workID u) (unexpired : ∀ key, x ≠ .outside (.expire key))
    (done : (step (system workID) u x).calls[i]? = some (op, returned (.ok none)))
    (waits : (step (system workID) u x).calls[j]? = some (op', waiting owner h rounds)) :
    0 < queued (step (system workID) u x).shared h := by
  obtain ⟨old, still⟩ | ⟨other, _, entered⟩ | ⟨a, before, rfl, old, -, moves⟩ := step_origin waits
  · obtain ⟨own, grows, apart⟩ := steady.others unexpired old still
    obtain ⟨before, -⟩ | ⟨other, _, entered⟩ | ⟨a, before, rfl, publishes, -, moves⟩ :=
      step_origin done
    · exact grows.queued_pos (apart h rfl) (steady.heard i j op op' owner h rounds before old)
    · exact absurd (congrArg Prod.snd entered).symm (enter_facts workID u.shared other).2.2.2
    obtain returned | ⟨owner', publishing, shared⟩ := moves.delivered
    · exact grows.queued_pos (apart h rfl)
        (steady.heard i j before.1 op' owner h rounds (by rw [publishes, ← returned]) old)
    obtain ⟨known, sub, here, channel⟩ := (steady.sound j _ old).1
    have known' := (steady.sound i before publishes).1
    rw [publishing] at known'
    obtain rfl : owner' = owner := some.inj (known'.1.symm.trans known)
    rw [shared, ← channel]
    simp [queued, published, here]
  · have idle := (enter_facts workID u.shared other).2.2.1
    rw [← (Prod.mk.inj entered).2] at idle
    contradiction
  · have finished : u.calls[i]? = some (op, returned (.ok none)) := by
      obtain ⟨finished, -⟩ | ⟨_, start, _⟩ | ⟨_, _, moved, _, _, _⟩ := step_origin done
      · exact finished
      · contradiction
      cases moved
      have both := done.symm.trans waits
      simp at both
    obtain ⟨shared, waiting | ⟨nothing, reading⟩⟩ := moves.waits
    · rw [shared]
      exact steady.heard i j op before.1 owner h rounds finished (by rw [old, ← waiting])
    obtain ⟨owner', known', -, stored⟩ := (steady.sound i _ finished).1
    have known := (steady.sound j before old).1
    rw [reading] at known
    obtain rfl : owner' = owner := some.inj (known'.symm.trans known.1)
    rw [nothing] at stored
    contradiction

lemma Steady.step (steady : Steady workID u)
    (unexpired : ∀ key, x ≠ .outside (.expire key)) : Steady workID (step (system workID) u x) where
  sound i p call := by
    obtain ⟨old, still⟩ | ⟨op, rfl, rfl⟩ | ⟨a, before, rfl, old, op, moves⟩ := step_origin call
    · obtain ⟨own, grows, -⟩ := steady.others unexpired old still
      exact ⟨(steady.sound i p old).1.grows grows, (steady.sound i p old).2⟩
    · exact ⟨(enter_facts workID _ op).1, (enter_facts workID u.shared op).2.1⟩
    · obtain ⟨sound, fits⟩ := steady.sound i before old
      exact ⟨moves.sound sound, op ▸ moves.fits fits⟩
  apart i j p p' h call call' held held' := by
    obtain ⟨before, old, kept⟩ | ⟨⟨a, moved⟩, fresh⟩ := subscription_step call held <;>
      obtain ⟨before', old', kept'⟩ | ⟨⟨a', moved'⟩, fresh'⟩ := subscription_step call' held'
    · exact steady.apart i j before before' h old old' kept kept'
    · have := (steady.sound i before old).1.subscription_lt kept
      omega
    · have := (steady.sound j before' old').1.subscription_lt kept'
      omega
    · rw [moved] at moved'
      exact (Step.advance.inj moved').1
  heard _ _ _ _ _ _ _ := steady.heard_step unexpired

lemma steady_run (workID store) (hune : ∀ key, .outside (.expire key) ∉ ss) :
    Steady workID (run (system workID) { shared := store } ss) := by
  induction ss using List.reverseRecOn with
  | nil => constructor <;> simp [run]
  | append_singleton hb x ih =>
    rw [run_append_singleton]
    refine (ih fun key mem => hune key (by simp [mem])).step fun key hs => ?_
    exact hune key (by simp [hs])

end

section
variable {result : WorkResult}

lemma alone_reading (h rds : Nat) (hst : s.values (.result owner workID) = some result) :
    alone serveReads .served s ((reading owner h rds).program workID) =
      some (s, .ok (some result)) := by
  show alone _ _ _ (waited _) = _
  rw [waited_fetch]
  show alone serveReads .served s
    ((afterReading owner h rds (.ok (s.values (.result owner workID)))).program workID) = _
  rw [hst]
  rfl

lemma alone_subscribing (rds : Nat) (hst : s.values (.result owner workID) = some result) :
    alone serveReads .served s ((subscribing owner rds).program workID) =
      some (subscribed s ⟨owner, workID⟩, .ok (some result)) := by
  show alone _ _ _ (waited _) = _
  exact alone_reading (s := subscribed s ⟨owner, workID⟩) s.subscriptions.length rds hst

lemma alone_looking (hn : workID ≠ "") (rds : Nat)
    (hk : s.values (.workOwner workID) = some owner) (hfil : owner ≠ "")
    (hst : s.values (.result owner workID) = some result) :
    alone serveReads .served s ((looking rds).program workID) =
      some (subscribed s ⟨owner, workID⟩, .ok (some result)) := by
  show alone _ _ _ (waited _) = _
  rw [waited_wait hn]
  show alone serveReads .served s
    ((afterLooking rds (.ok (s.values (.workOwner workID)))).program workID) = _
  rw [hk]
  simp only [afterLooking, ownerOf, hfil, if_false]
  exact alone_subscribing rds hst

lemma alone_waiting (rds : Nat) (hnt : 0 < queued s h)
    (hst : s.values (.result owner workID) = some result) :
    ∃ s', alone serveReads .served s ((waiting owner h rds).program workID) =
      some (s', .ok (some result)) := by
  unfold queued at hnt
  cases hh : s.subscriptions[h]? with
  | none => simp [hh] at hnt
  | some sub =>
    have some_queued : sub.queued ≠ 0 := by
      rw [hh] at hnt
      simp only [map_some, getD_some] at hnt
      omega
    refine ⟨{ s with
      subscriptions := (s.subscriptions.set h { sub with queued := sub.queued - 1 }) }, ?_⟩
    show alone _ _ _ (waited _) = _
    rw [waited_await]
    simp only [alone, serveReads, serve, perform, hh, some_queued,
      if_false, Bool.false_eq_true, bind_some, afterWaiting]
    exact alone_reading (s := { s with subscriptions := _ }) h rds hst

end

lemma program_done (hn : workID ≠ "")
    (hdn : stage.program workID = .done x) : stage = returned x := by
  cases stage with
  | returned out => exact congrArg _ (Program.done.inj hdn)
  | looking rds => rw [program, waited_wait hn] at hdn; contradiction
  | subscribing ow rds | reading ow h rds | waiting ow h rds => contradiction
  | routing result => rw [program, delivered_deliver hn] at hdn; contradiction
  | storing ow result | publishing ow => contradiction

end Stage

lemma refused_run (store) (ss : List (Step NotifyOp Answer Change)) {i : Nat}
    (cl : (run (notifySystem "") { shared := { state := store } } ss).calls[i]? = some c) :
    c.rest = .done (.error (.empty "workID")) := by
  induction ss using List.reverseRecOn generalizing i c with
  | nil => simp [run] at cl
  | append_singleton hb x ih =>
    rw [run_append_singleton] at cl
    obtain ⟨old, -⟩ | ⟨op, -, -, rfl⟩ | ⟨a, hb, -, old, rfl⟩ := calls_step cl
    · exact ih old
    · cases op <;> rfl
    · simp [notifySystem, Calls.system, Calls.advance, ih old]

/-- After a delivery that returned without error, a wait that has not returned is not stuck: left
alone it returns the stored result. -/
theorem no_result_missed (workID : String) (store : Redis)
    (steps : List (Step NotifyOp Answer Change)) (unexpired : ∀ key, .outside (.expire key) ∉ steps)
    {i j rounds : Nat} {c d : Calls.Call NotifyOp Request Reply (Outcome (Option WorkResult))}
    (wait : (run (notifySystem workID) { shared := { state := store } } steps).calls[i]? = some c)
    (op : c.op = .wait rounds) (pending : ∀ x, c.rest ≠ .done x) (deliver :
      (run (notifySystem workID) { shared := { state := store } } steps).calls[j]? = some d)
    (ok : d.rest = .done (.ok none)) :
    ∃ owner result,
      (run (notifySystem workID) { shared := { state := store } } steps).shared.state.values
          (.result owner workID) = some result ∧
        (∀ h next, c.rest = .ask (.receive h) next → 0 < queued
          (run (notifySystem workID) { shared := { state := store } } steps).shared.state h) ∧
        ∃ s', alone serveReads .served
          (run (notifySystem workID) { shared := { state := store } } steps).shared.state c.rest =
            some (s', .ok (some result)) := by
  by_cases named : workID = ""
  · subst named
    exact absurd (refused_run store steps wait) (pending _)
  obtain ⟨shared, calls⟩ := run_program named store steps
  have steady := steady_run workID store unexpired
  generalize run (notifySystem workID) _ steps = w at *
  generalize run (system workID) _ steps = u at *
  rw [shared]
  have stage {i : Nat} {c} (call : w.calls[i]? = some c) :
      ∃ p, u.calls[i]? = some p ∧ p.1 = c.op ∧ c.rest = p.2.program workID := by
    have there := congrArg (fun l => l[i]?) calls
    simp only [List.getElem?_map, call, map_some] at there
    obtain ⟨p, found, same⟩ := map_eq_some_iff.mp there.symm
    exact ⟨p, found, (Prod.mk.inj same).1, (Prod.mk.inj same).2.symm⟩
  obtain ⟨p, waits, opOf, rest⟩ := stage wait
  obtain ⟨q, delivers, -, returned⟩ := stage deliver
  have finished := program_done named (returned.symm.trans ok)
  obtain ⟨sound, -⟩ := steady.sound j q delivers
  rw [finished] at sound
  obtain ⟨owner, known, filled, stored⟩ := sound
  obtain ⟨result, stored⟩ := isSome_iff_exists.mp stored
  obtain ⟨here, fits⟩ := steady.sound i p waits
  refine ⟨owner, result, stored, ?_⟩
  rw [rest]
  obtain ⟨op', stage⟩ := p
  obtain rfl : op' = .wait rounds := opOf.trans op
  have same {other} (recorded : u.shared.values (.workOwner workID) = some other) :
      other = owner := some.inj (recorded.symm.trans known)
  cases stage with
  | looking n =>
    refine ⟨fun h next asks => ?_, _, alone_looking named n known filled stored⟩
    rw [program, waited_wait named] at asks
    cases asks
  | subscribing o n =>
    obtain rfl := same here
    refine ⟨fun h next asks => ?_, _, alone_subscribing n stored⟩
    cases asks
  | reading o h n =>
    obtain rfl := same here.1
    refine ⟨fun h' next asks => ?_, _, alone_reading h n stored⟩
    cases asks
  | waiting o h n =>
    obtain rfl := same here.1
    have notified := steady.heard j i q.1 _ o h n (by rw [delivers, ← finished]) waits
    refine ⟨fun h' next asks => ?_, alone_waiting n notified stored⟩
    rw [program, waited_await] at asks
    cases asks
    exact notified
  | routing result | storing o result | publishing o => exact False.elim fits
  | returned x => exact absurd rest (pending x)

def earlyWait : List (Step NotifyOp Answer Change) :=
  [.start (.wait 3), .advance 0 .served, .advance 0 .served, .advance 0 .served,
    .start (.deliver { workID := "w1", result := "open ports" }),
    .advance 1 .served, .advance 1 .served, .advance 1 .served]

def ownedStore : Redis := Redis.setValue {} (.workOwner "w1") "acme"

theorem earlyWait_not_missed :
    ∃ c, (run (notifySystem "w1") { shared := { state := ownedStore } } earlyWait).calls[0]? =
        some c ∧
      ∃ owner result,
        (run (notifySystem "w1") { shared := { state := ownedStore } } earlyWait).shared.state.values
            (.result owner "w1") = some result ∧
          ∃ s', alone serveReads .served
            (run (notifySystem "w1") { shared := { state := ownedStore } } earlyWait).shared.state
              c.rest = some (s', .ok (some result)) := by
  refine ⟨_, rfl, ?_⟩
  obtain ⟨owner, result, stored, -, returns⟩ :=
    no_result_missed "w1" ownedStore earlyWait (by simp [earlyWait]) (i := 0) (j := 1)
      rfl rfl (by intro x done; cases done) rfl rfl
  exact ⟨owner, result, stored, returns⟩

end Gibson.WorkQueue
