import Gibson.Brain.Engine

/-! The Engine and its log. A stopped Engine may leave one event more in the log, and never changes
again. -/

namespace Gibson.Brain.Engine

open DurableLog

variable {ι : Type} {S : TimelineStore ι} {env : Env} {tenant : String} {e : Engine S}

/-- World, log and applied events agree. -/
structure Durable (env : Env) (tenant : String) (e : Engine S) : Prop where
  world : e.world = replay env tenant e.applied
  running : e.stopErr = none → S.history e.store = e.applied
  stopped : e.stopErr ≠ none → S.history e.store = e.applied ∨
      ∃ ev, e.tried = some ev ∧ S.history e.store = e.applied ++ [ev]
  /-- No key of the log is drawn again. -/
  keys : ∀ k, (S.record e.store).lastKey = some k → k < e.nextUUID

lemma durable_new (S : TimelineStore ι) (hcad : Int) :
    Durable env tenant (Engine.new S tenant hcad) where
  world := rfl
  running := fun _ => congrArg Record.entries S.record_init
  stopped := fun him => absurd rfl him
  keys := fun k hlt => by
    have hem := congrArg Record.lastKey S.record_init
    rw [show (Engine.new S tenant hcad).store = S.init from rfl, hem] at hlt
    exact absurd hlt (by simp)

/-- Two Engines that differ in the queue, the Timeline in memory, the snapshot bookkeeping and what
was published. -/
structure SameLog (e' e : Engine S) : Prop where
  world : e'.world = e.world
  applied : e'.applied = e.applied
  stopErr : e'.stopErr = e.stopErr
  tried : e'.tried = e.tried
  nextUUID : e'.nextUUID = e.nextUUID
  record : S.record e'.store = S.record e.store

lemma SameLog.trans {e₁ e₂ e₃ : Engine S} (h : SameLog e₁ e₂) (h' : SameLog e₂ e₃) :
    SameLog e₁ e₃ where
  world := h.world.trans h'.world
  applied := h.applied.trans h'.applied
  stopErr := h.stopErr.trans h'.stopErr
  tried := h.tried.trans h'.tried
  nextUUID := h.nextUUID.trans h'.nextUUID
  record := h.record.trans h'.record

lemma Durable.of_sameLog (h : Durable env tenant e) (hs : SameLog e' e) :
    Durable env tenant e' := by
  have history : S.history e'.store = S.history e.store := congrArg Record.entries hs.record
  constructor
  · rw [hs.world, hs.applied]
    exact h.world
  · rw [hs.stopErr, history, hs.applied]
    exact h.running
  · rw [hs.stopErr, history, hs.applied, hs.tried]
    exact h.stopped
  · rw [hs.record, hs.nextUUID]
    exact h.keys

lemma sameLog_publish (vd ev) : SameLog (e.publish vd ev) e := by
  cases vd <;> exact ⟨rfl, rfl, rfl, rfl, rfl, rfl⟩

lemma sameLog_maybeSnapshot : SameLog e.maybeSnapshot e := by
  have hw0 := S.record_writeSnapshot e.store
    { atSeq := e.lastAppendedSeq, data := snapshotWorld e.world }
  unfold maybeSnapshot
  cases hw : S.writeSnapshot e.store
      { atSeq := e.lastAppendedSeq, data := snapshotWorld e.world } with
  | mk so handle =>
    rw [hw] at hw0
    cases handle with
    | none =>
      simp only [hw]
      exact ⟨rfl, rfl, rfl, rfl, rfl, hw0⟩
    | some handle =>
      have tri := S.record_trimTo so handle
      simp only [hw]
      cases ht : S.trimTo so handle with
      | mk sto' ok =>
        rw [ht] at tri
        cases ok <;> exact ⟨rfl, rfl, rfl, rfl, rfl, tri.trans hw0⟩

lemma appendDurable_fst (ev) : (e.appendDurable ev).1 =
      { e with
        store := (S.appendRetry e.nextUUID ev appendAttempts "" e.store).1
        nextUUID := e.nextUUID + 1
        tried := some ev } := rfl

lemma record_appendDurable (ev) :
    S.record (e.appendDurable ev).1.store = S.record e.store ∨
      S.record (e.appendDurable ev).1.store = (S.record e.store).write e.nextUUID ev :=
  (S.record_appendRetry e.nextUUID ev appendAttempts "" e.store).1

lemma record_appendDurable_ok (h : (e.appendDurable ev).2 = .ok seq) :
    S.record (e.appendDurable ev).1.store = (S.record e.store).write e.nextUUID ev := by
  refine (S.record_appendRetry _ _ _ _ _).2 seq ?_
  unfold appendDurable at h
  cases rp : (S.appendRetry e.nextUUID ev appendAttempts "" e.store).2 with
  | ok i =>
    simp only [rp, Except.mapError] at h
    rw [Except.ok.inj h]
  | error err => simp [rp, Except.mapError] at h

section
variable (h : Durable env tenant e)
include h

lemma Durable.write_fresh (ev) :
    (S.record e.store).write e.nextUUID ev =
      { entries := S.history e.store ++ [ev], lastKey := some e.nextUUID } := by
  refine Record.write_fresh ?_ ev
  intro hlt
  exact absurd (h.keys _ hlt) (Nat.lt_irrefl _)

lemma keys_appendDurable (ev) (k : Nat)
    (hlt : (S.record (e.appendDurable ev).1.store).lastKey = some k) : k < e.nextUUID + 1 := by
  rcases record_appendDurable (e := e) ev with hs | written
  · rw [hs] at hlt
    have := h.keys k hlt
    omega
  · rw [written, Record.write_lastKey] at hlt
    have : e.nextUUID = k := Option.some.inj hlt
    omega

lemma durable_fold (hr : e.stopErr = none) {ev : Event}
    (ok : (e.appendDurable ev).2 = .ok seq) :
    Durable env tenant ((e.appendDurable ev).1.fold env ev seq) ∧
      ((e.appendDurable ev).1.fold env ev seq).stopErr = none := by
  have hw := record_appendDurable_ok ok
  rw [h.write_fresh ev, h.running hr] at hw
  have keys := keys_appendDurable h ev
  generalize ha : (e.appendDurable ev).1 = a at hw keys
  have fl : a.world = e.world ∧ a.applied = e.applied ∧ a.stopErr = e.stopErr ∧
      a.nextUUID = e.nextUUID + 1 := by
    rw [← ha, appendDurable_fst]
    exact ⟨rfl, rfl, rfl, rfl⟩
  obtain ⟨world, applied, sto, nex⟩ := fl
  -- What the snapshot and the subscribers change is no part of the log.
  have hs : SameLog (a.fold env ev seq)
      { a with world := reduce env a.world ev, applied := a.applied ++ [ev] } := by
    refine (sameLog_publish _ ev).trans ?_
    split
    · exact sameLog_maybeSnapshot.trans ⟨rfl, rfl, rfl, rfl, rfl, rfl⟩
    · exact ⟨rfl, rfl, rfl, rfl, rfl, rfl⟩
  have hfo : Durable env tenant
      { a with world := reduce env a.world ev, applied := a.applied ++ [ev] } := by
    constructor
    · show reduce env a.world ev = replay env tenant (a.applied ++ [ev])
      rw [world, applied, h.world]
      exact (reduceAll_append env _ e.applied [ev]).symm
    · intro _
      show (S.record a.store).entries = a.applied ++ [ev]
      rw [hw, applied]
    · intro him
      exact absurd (sto.trans hr) him
    · intro k hlt
      rw [nex]
      exact keys k hlt
  exact ⟨hfo.of_sameLog hs, hs.stopErr.trans (sto.trans hr)⟩

lemma durable_stop (hr : e.stopErr = none) (ev err) :
    Durable env tenant ((e.appendDurable ev).1.stop err) := by
  have log := record_appendDurable (e := e) ev
  rw [h.write_fresh ev, h.running hr] at log
  have keys := keys_appendDurable h ev
  constructor
  · exact h.world
  · intro him
    simp [stop, appendDurable_fst, hr] at him
  · intro _
    rcases log with hs | written
    · left
      show (S.record (e.appendDurable ev).1.store).entries = e.applied
      rw [hs]
      exact h.running hr
    · right
      refine ⟨ev, rfl, ?_⟩
      show (S.record (e.appendDurable ev).1.store).entries = e.applied ++ [ev]
      rw [written]
  · exact keys

lemma durable_apply (hr : e.stopErr = none) (ev) :
    Durable env tenant (e.apply env ev).1 ∧
      ((e.apply env ev).2 = true → (e.apply env ev).1.stopErr = none) := by
  unfold apply
  cases attempt : e.appendDurable ev with
  | mk a rp =>
    cases rp with
    | ok seq =>
      have ok : (e.appendDurable ev).2 = .ok seq := by rw [attempt]
      have hfo := durable_fold h hr ok
      rw [attempt] at hfo
      exact ⟨hfo.1, fun _ => hfo.2⟩
    | error err =>
      have hsp := durable_stop h hr ev err
      rw [attempt] at hsp
      exact ⟨hsp, fun him => absurd him (by simp)⟩

end

lemma durable_applyAll (evs) (h : Durable env tenant e) (hr : e.stopErr = none) :
    Durable env tenant (applyAll env evs e).1 ∧
      ((applyAll env evs e).2.2 = true → (applyAll env evs e).1.stopErr = none) := by
  induction evs generalizing e with
  | nil => exact ⟨h, fun _ => hr⟩
  | cons ev rs ih =>
    have step := durable_apply h hr ev
    unfold applyAll
    cases hap : e.apply env ev with
    | mk a ok =>
      rw [hap] at step
      cases ok with
      | false => exact ⟨step.1, fun him => absurd him (by simp)⟩
      | true => exact ih step.1 (step.2 rfl)

lemma durable_drain (evs) (h : Durable env tenant e)
    (hr : e.stopErr = none) : Durable env tenant (drain env evs e).1 := by
  induction evs generalizing e with
  | nil => exact h
  | cons ev rs ih =>
    have hqu : Durable env tenant { e with intake := rs } :=
      h.of_sameLog ⟨rfl, rfl, rfl, rfl, rfl, rfl⟩
    have step := durable_apply hqu hr ev
    unfold drain
    cases hap : ({ e with intake := rs } : Engine S).apply env ev with
    | mk a ok =>
      rw [hap] at step
      cases ok with
      | false => exact step.1
      | true => exact ih step.1 (step.2 rfl)

section
variable (systems : List (World → List Event))
include systems

lemma durable_runSystems (h : Durable env tenant e) :
    Durable env tenant (runSystems env systems e).1 := by
  induction systems generalizing e with
  | nil => exact h
  | cons sys rs ih =>
    unfold runSystems
    split
    · exact h
    next hli =>
    have hr : e.stopErr = none := by simpa using hli
    have step := durable_applyAll (sys e.world) h hr
    cases hap : applyAll env (sys e.world) e with
    | mk a res =>
      obtain ⟨n, ok⟩ := res
      rw [hap] at step
      cases ok with
      | false => exact step.1
      | true => exact ih step.1

lemma durable_sweep (k : Nat) (h : Durable env tenant e) :
    Durable env tenant (sweep env systems k e).1 := by
  induction k generalizing e with
  | zero => exact h
  | succ k ih =>
    unfold sweep
    split
    · exact h
    next hli =>
    have hr : e.stopErr = none := by simpa using hli
    have hdrn := durable_drain e.intake h hr
    have ran := durable_runSystems systems hdrn
    simp only
    split
    · exact ran
    · exact ih ran

lemma durable_call (h : Durable env tenant e) (c) : Durable env tenant (call env systems e c) := by
  cases c with
  | submit ev =>
    refine h.of_sameLog ?_
    rw [call, submit]
    repeat' split
    all_goals exact ⟨rfl, rfl, rfl, rfl, rfl, rfl⟩
  | tick => exact durable_sweep systems maxSweeps h

lemma run_stopped (hsp : e.stopErr ≠ none) (cs) : run env systems e cs = e := by
  have some : e.stopErr.isSome = true := Option.isSome_iff_ne_none.mpr hsp
  have fixed (c : Call) : call env systems e c = e := by
    cases c with
    | submit ev => exact if_pos some
    | tick =>
      show (sweep env systems (1023 + 1) e).1 = e
      rw [sweep, if_pos some]
  induction cs with
  | nil => rfl
  | cons c rs ih =>
    rwa [run, List.foldl_cons, fixed c]

end

/-- While an Engine runs, its World is the fold of the log, which holds what was folded, in order;
once it stopped the log holds at most the event that was tried last on top. -/
theorem engine_durability (env : Env) (S : TimelineStore ι) (tenant : String) (cadence : Int)
    (systems : List (World → List Event)) (calls : List Call) :
    let e := (Engine.new S tenant cadence).run env systems calls
    (e.stopErr = none →
      S.history e.store = e.applied ∧ e.world = replay env tenant (S.history e.store)) ∧
    (e.stopErr ≠ none →
      (S.history e.store = e.applied ∨
        ∃ ev, e.tried = some ev ∧ S.history e.store = e.applied ++ [ev]) ∧
      e.world = replay env tenant e.applied ∧
      ∀ later, e.run env systems later = e) := by
  intro e
  have h : Durable env tenant e := List.foldlRecOn calls _ (durable_new S cadence)
    fun _ hb c _ => durable_call systems hb c
  constructor
  · intro hr
    have log := h.running hr
    exact ⟨log, log ▸ h.world⟩
  · intro hsp
    exact ⟨h.stopped hsp, h.world, run_stopped systems hsp⟩

def lostReplyStore : TimelineStore Nat :=
  Store.scripted Event Nat (WorldSnapshot Nat) [.replies, .losesReply, .fails, .fails]

/-- The second event is in the log and not in the World, and the Engine stopped. -/
theorem engine_durability_lostReply : ∃ e, e = (Engine.new lostReplyStore "t" 0).run .plain []
        [.submit (.missionCreated { id := "m" }), .submit (.missionStarted { id := "m" }), .tick] ∧
      e.stopErr ≠ none ∧ e.applied = [.missionCreated { id := "m" }] ∧
      lostReplyStore.history e.store = e.applied ++ [.missionStarted { id := "m" }] ∧
      e.world = replay .plain "t" e.applied ∧
      ∀ later, e.run .plain [] later = e := by
  have stops : ((Engine.new lostReplyStore "t" 0).run .plain []
      [.submit (.missionCreated { id := "m" }), .submit (.missionStarted { id := "m" }),
        .tick]).stopErr ≠ none := by
    decide
  have hdu := (engine_durability .plain lostReplyStore "t" 0 [] _).2 stops
  exact ⟨_, rfl, stops, rfl, rfl, hdu.2⟩

end Gibson.Brain.Engine
