import Mathlib.Data.List.Infix
import Gibson.Brain.Batches
import Gibson.Brain.Reachable

/-! The concurrency ceiling of a group. The scheduler counts on as it dispatches, so what it says
in one pass fits under the ceiling when it is folded. -/

namespace Gibson.Brain

open List Rows WorkItem Function Nat

/-- The items that a mission runs under one ceiling. An empty group has none. -/
def WorkItem.inGroup (missionID group : String) (wi : WorkItem) : Bool :=
  wi.group != "" && wi.missionID == missionID && wi.group == group

def WorkItem.runsIn (missionID group : String) (wi : WorkItem) : Bool :=
  wi.state == .running && wi.inGroup missionID group

/-- The running members of a group. -/
def runningIn (missionID group : String) (c : Control) : Nat :=
  c.work.countP (WorkItem.runsIn missionID group)

section Step
variable {missionID group : String} (env : Env)

lemma runningIn_updateWork_le (c id) {f : WorkItem → WorkItem}
    (h : ∀ wi, (f wi).runsIn missionID group = true → wi.runsIn missionID group = true) :
    runningIn missionID group (updateWork c id f) ≤ runningIn missionID group c :=
  countP_updateFirst_le c.work h

variable {wi : WorkItem}

lemma runsIn_of_ite {p : Prop} [Decidable p] {hsp : WorkItem}
    (h : (if p then hsp else wi).runsIn missionID group = true) (off : hsp.state ≠ .running) :
    wi.runsIn missionID group = true := by
  split at h
  · simp [runsIn, off] at h
  · exact h

lemma runningIn_projectWork (e) :
    runningIn missionID group (projectWork c e) = runningIn missionID group c := by
  refine List.foldlRecOn
    (motive := fun c' => runningIn missionID group c' = runningIn missionID group c) e.nodes _ rfl ?_
  intro c' hs n _
  unfold projectNode
  split
  · exact hs
  rw [← hs]
  unfold runningIn
  simp [runsIn, MissionProjected.newItem]

lemma runningIn_conditionResolved_le (e) :
    runningIn missionID group (applyConditionResolved c e) ≤ runningIn missionID group c := by
  refine List.foldlRecOn
    (motive := fun c' => runningIn missionID group c' ≤ runningIn missionID group c) e.skip _ ?_ ?_
  · exact runningIn_updateWork_le c e.id fun _ h => runsIn_of_ite h nofun
  · intro c' few id _
    exact le_trans (runningIn_updateWork_le c' id fun _ h => runsIn_of_ite h nofun) few

lemma runningIn_missionProjected_le (e) :
    runningIn missionID group (applyMissionProjected env c e) ≤ runningIn missionID group c := by
  unfold applyMissionProjected
  split
  · split
    · rw [runningIn_projectWork]
      exact le_refl _
    split
    · exact le_refl _
    rw [launchRun, runningIn_projectWork]
    unfold runningIn retireMissionRun
    rw [(env.removeRows_perm _ c.work).countP_eq]
    exact filter_sublist.countP_le
  · rw [launchRun, runningIn_projectWork]
    exact le_refl _

lemma runningIn_applyControl_le (h : ∀ e, ev ≠ .workDispatched e) :
    runningIn missionID group (applyControl env c ev) ≤ runningIn missionID group c := by
  cases ev with
  | workDispatched e => exact absurd rfl (h e)
  | workRetried e => exact runningIn_updateWork_le c e.id fun _ h => runsIn_of_ite h nofun
  | workCompleted e =>
    simp only [applyControl, applyWorkCompleted]
    split
    · split
      · exact le_refl _
      · refine runningIn_updateWork_le c e.id fun _ h => ?_
        unfold complete at h
        split at h <;> simp [runsIn] at h
    · exact le_refl _
  | conditionResolved e => exact runningIn_conditionResolved_le e
  | missionProjected e => exact runningIn_missionProjected_le env e
  | _ => exact (congrArg (countP _) (work_of_leavesWork env rfl)).le

lemma work_workDispatched (c e) :
    (reduceControl env c (.workDispatched e)).work = c.work ∨
      (∃ wi, findWork c e.id = some wi ∧ (reduceControl env c (.workDispatched e)).work =
        updateFirst (·.id == e.id) (redispatch e) c.work) ∨ (findWork c e.id = none ∧
        (reduceControl env c (.workDispatched e)).work = c.work ++ [e.newItem]) := by
  unfold reduceControl
  split
  · exact .inl rfl
  simp only [applyControl, applyWorkDispatched]
  split
  · next wi hf =>
    split
    · exact .inl rfl
    · exact .inr (.inl ⟨wi, hf, rfl⟩)
  · next none =>
    refine .inr (.inr ⟨none, ?_⟩)
    unfold recordDecisionDispatch
    split <;> rfl

lemma runningIn_workDispatched_le (missionID group c e) :
    runningIn missionID group (reduceControl env c (.workDispatched e)) ≤
        runningIn missionID group c ∨
      (runningIn missionID group (reduceControl env c (.workDispatched e)) ≤
          runningIn missionID group c + 1 ∧
        ∃ wi, findWork (reduceControl env c (.workDispatched e)) e.id = some wi ∧
          wi.inGroup missionID group = true) := by
  unfold runningIn findWork
  obtain hs | ⟨wi, hf, hsd⟩ | ⟨free, add⟩ := work_workDispatched env c e
  · rw [hs]
    exact .inl (le_refl _)
  · obtain ⟨rs, hb, ha⟩ := updateFirst_perm (redispatch e) hf
    have hh : (updateFirst (·.id == e.id) (redispatch e) c.work).find? (·.id == e.id) =
        some (wi.redispatch e) := by
      rw [find?_updateFirst_key (redispatch_id e), if_pos (by simp)]
      exact congrArg (Option.map _) hf
    rw [hsd, hh, hb.countP_eq, ha.countP_eq, countP_cons, countP_cons]
    cases hmi : (wi.redispatch e).inGroup missionID group with
    | false => simp [runsIn, hmi]
    | true =>
      refine .inr ⟨?_, wi.redispatch e, rfl, hmi⟩
      split <;> split <;> omega
  · have hh : (c.work ++ [e.newItem]).find? (·.id == e.id) = some e.newItem := by
      simp [show c.work.find? (·.id == e.id) = none from free, WorkDispatched.newItem]
    rw [add, hh, countP_append, countP_singleton]
    cases hmi : e.newItem.inGroup missionID group with
    | false => simp [runsIn, hmi]
    | true =>
      refine .inr ⟨?_, e.newItem, rfl, hmi⟩
      split <;> omega

end Step

def dispatchesIn (missionID group : String) : Event → Bool
  | .workDispatched e => e.group != "" && e.missionID == missionID && e.group == group
  | _ => false

section Pass
variable {missionID group : String}

lemma dispatchesIn_dispatchEvent (wi : WorkItem) :
    dispatchesIn missionID group wi.dispatchEvent = wi.inGroup missionID group := rfl

variable {wi : WorkItem}

lemma groupKey_of_inGroup (hmi : wi.inGroup missionID group = true) (limit : 0 < wi.limit) :
    groupKey wi = some (missionID ++ "/" ++ group) := by
  simp only [inGroup, Bool.and_eq_true, bne_iff_ne, beq_iff_eq] at hmi
  obtain ⟨⟨hn, rfl⟩, rfl⟩ := hmi
  unfold groupKey
  rw [if_neg (by simp [hn, Int.not_le.mpr limit])]

lemma mem_schedule {hhal : String → Bool} {idx : String → Option WorkItem}
    {hr : String → Int} (mem : ev ∈ schedule hhal idx hr work) :
    ∃ wi ∈ work, isReady hhal idx wi = true ∧ ev = wi.dispatchEvent := by
  induction work generalizing hr with
  | nil => simp [schedule] at mem
  | cons wi rs ih =>
    have hla {hr : String → Int} (mem : ev ∈ schedule hhal idx hr rs) :
        ∃ wi' ∈ wi :: rs, isReady hhal idx wi' = true ∧ ev = wi'.dispatchEvent := by
      obtain ⟨wi', mem, hs⟩ := ih mem
      exact ⟨wi', mem_cons_of_mem _ mem, hs⟩
    unfold schedule at mem
    split at mem
    · next hry =>
      have eit {hr : String → Int}
          (mem : ev ∈ wi.dispatchEvent :: schedule hhal idx hr rs) :
          ∃ wi' ∈ wi :: rs, isReady hhal idx wi' = true ∧ ev = wi'.dispatchEvent := by
        rcases mem_cons.mp mem with hs | mem
        · exact ⟨wi, mem_cons_self, hry, hs⟩
        · exact hla mem
      split at mem
      · exact eit mem
      split at mem
      · exact hla mem
      · exact eit mem
    · exact hla mem

variable {limit : Int}

lemma countP_schedule (hhal : String → Bool) (idx : String → Option WorkItem)
    (positive : 0 < limit)
    (shared : ∀ wi ∈ work, wi.inGroup missionID group = true → wi.limit = limit)
    (hr : String → Int) :
    (schedule hhal idx hr work).countP (dispatchesIn missionID group) = 0 ∨
      (schedule hhal idx hr work).countP (dispatchesIn missionID group) +
        hr (missionID ++ "/" ++ group) ≤ limit := by
  induction work generalizing hr with
  | nil => exact .inl rfl
  | cons wi rs ih =>
    have ih := ih fun wi mem => shared wi (mem_cons_of_mem _ mem)
    unfold schedule
    split
    · cases hmi : wi.inGroup missionID group with
      | true =>
        have hs := shared wi mem_cons_self hmi
        rw [groupKey_of_inGroup hmi (hs ▸ positive)]
        simp only
        split
        · exact ih hr
        next hbe =>
        right
        rw [countP_cons_of_pos (by rw [dispatchesIn_dispatchEvent, hmi])]
        -- The pass counts the member that it dispatches before it goes on.
        rcases ih (update hr (missionID ++ "/" ++ group)
          (hr (missionID ++ "/" ++ group) + 1)) with none | fits
        · rw [none]
          omega
        · rw [update_self] at fits
          omega
      | false =>
        have ho : ¬ dispatchesIn missionID group wi.dispatchEvent = true := by
          rw [dispatchesIn_dispatchEvent, hmi]
          simp
        split
        · rw [countP_cons_of_neg ho]
          exact ih hr
        next key _ =>
        split
        · exact ih hr
        rw [countP_cons_of_neg ho]
        -- An item of another group may share the key; then the pass counts too many.
        rcases ih (update hr key (hr key + 1)) with none | fits
        · exact .inl none
        refine .inr (le_trans ?_ fits)
        by_cases hs : missionID ++ "/" ++ group = key
        · rw [hs, update_self]
          omega
        · rw [update_of_ne hs]
    · exact ih hr

variable {c : Control}

lemma runningIn_le_runningPerGroup (positive : 0 < limit)
    (shared : ∀ wi ∈ c.work, wi.inGroup missionID group = true → wi.limit = limit) :
    (runningIn missionID group c : Int) ≤
      runningPerGroup c.workSnapshot (missionID ++ "/" ++ group) := by
  unfold runningIn runningPerGroup
  rw [(workSnapshot_perm c).countP_eq]
  refine Int.ofNat_le.mpr (countP_mono_left fun wi mem hct => ?_)
  simp only [runsIn, Bool.and_eq_true, beq_iff_eq] at hct
  have key := groupKey_of_inGroup hct.2 (shared wi mem hct.2 ▸ positive)
  simp [hct.1, key]

lemma countP_schedulerSystem (positive : 0 < limit)
    (shared : ∀ wi ∈ w.control.work, wi.inGroup missionID group = true → wi.limit = limit)
    (hbe : (runningIn missionID group w.control : Int) ≤ limit) :
    (runningIn missionID group w.control : Int) +
      (schedulerSystem w).countP (dispatchesIn missionID group) ≤ limit := by
  have hct := runningIn_le_runningPerGroup positive shared
  rcases countP_schedule (pausedMissions w.control) (workIndex w.control.workSnapshot) positive
    (fun wi mem => shared wi (mem_workSnapshot.mp mem))
    (runningPerGroup w.control.workSnapshot) with none | fits
  · unfold schedulerSystem
    rw [none]
    simpa using hbe
  · unfold schedulerSystem
    simp only
    omega

def WorkItem.place (wi : WorkItem) : String × String × Int := (wi.missionID, wi.group, wi.limit)

def SamePlaces (c c' : Control) : Prop :=
  ∀ id, (findWork c' id).map WorkItem.place = (findWork c id).map WorkItem.place

lemma samePlaces_workDispatched (env)
    (hf : findWork c e.id = some wi) (gps : e.group = wi.group) (limit : e.limit = wi.limit) :
    SamePlaces c (reduceControl env c (.workDispatched e)) := by
  intro id
  unfold findWork
  obtain hs | ⟨-, -, hsd⟩ | ⟨free, -⟩ := work_workDispatched env c e
  · rw [hs]
  · rw [hsd, find?_updateFirst_key (redispatch_id e)]
    by_cases own : id = e.id
    · subst own
      rw [if_pos (by simp), show c.work.find? (·.id == e.id) = some wi from hf]
      refine congrArg some ?_
      unfold place redispatch
      simp only [gps, limit, ite_self]
    · rw [if_neg (by simpa using own)]
  · rw [hf] at free
    cases free

lemma dispatchEvent_folded (env : Env) (missionID group) {c₀ : Control}
    (wf : WellFormed c₀) (places : SamePlaces c₀ c) (mem : wi ∈ c₀.work) :
    SamePlaces c₀ (reduceControl env c wi.dispatchEvent) ∧
      runningIn missionID group (reduceControl env c wi.dispatchEvent) ≤
        runningIn missionID group c +
          if dispatchesIn missionID group wi.dispatchEvent then 1 else 0 := by
  have ht := places wi.id
  rw [findWork_of_mem wf mem] at ht
  obtain ⟨now, hf, pl⟩ := Option.map_eq_some_iff.mp ht
  obtain ⟨e, event, id, gps, limit⟩ : ∃ e, wi.dispatchEvent = .workDispatched e ∧
      e.id = wi.id ∧ e.group = now.group ∧ e.limit = now.limit := by
    obtain ⟨-, rs⟩ := Prod.mk.inj pl
    obtain ⟨gps, limit⟩ := Prod.mk.inj rs
    exact ⟨_, rfl, rfl, gps.symm, limit.symm⟩
  rw [dispatchesIn_dispatchEvent, event]
  rw [← id] at hf
  have kp : SamePlaces c₀ (reduceControl env c (.workDispatched e)) := fun id =>
    (samePlaces_workDispatched env hf gps limit id).trans (places id)
  refine ⟨kp, ?_⟩
  rcases runningIn_workDispatched_le env missionID group c e with
    fewer | ⟨one, wi', found', mine⟩
  · omega
  have hs := kp wi.id
  rw [← id, found', id, findWork_of_mem wf mem] at hs
  obtain ⟨mi, rs⟩ := Prod.mk.inj (Option.some.inj hs)
  obtain ⟨gps, -⟩ := Prod.mk.inj rs
  unfold inGroup at mine ⊢
  rw [mi, gps] at mine
  rwa [if_pos mine]

lemma runningIn_pass_le (env missionID group) (wf : WellFormed c₀)
    {evs : List Event} (its : ∀ ev ∈ evs, ∃ wi ∈ c₀.work, ev = wi.dispatchEvent) :
    SamePlaces c₀ (evs.foldl (reduceControl env) c₀) ∧
      runningIn missionID group (evs.foldl (reduceControl env) c₀) ≤
        runningIn missionID group c₀ + evs.countP (dispatchesIn missionID group) := by
  induction evs using reverseRecOn with
  | nil => exact ⟨fun _ => rfl, le_refl _⟩
  | append_singleton evs ev ih =>
    obtain ⟨places, ct⟩ := ih fun ev mem => its ev (mem_append_left _ mem)
    obtain ⟨wi, mem, rfl⟩ := its ev (by simp)
    obtain ⟨pla', cou'⟩ := dispatchEvent_folded env missionID group wf places mem
    rw [foldl_append, countP_append, countP_singleton]
    exact ⟨pla', by simp only [foldl_cons, foldl_nil]; omega⟩

end Pass

/-- The Worlds that a run goes through: the fold of each beginning of what it folded. -/
def Reached (env : Env) (tenant : String) (applied : List Event) (w : World) : Prop :=
  ∃ past, past <+: applied ∧ w = replay env tenant past

def IsMember (reached : World → Prop) (missionID group id : String) : Prop :=
  ∃ w, reached w ∧ ∃ wi ∈ w.control.work, wi.id = id ∧ wi.inGroup missionID group = true

section Run
variable {missionID group : String} {limit : Int}

lemma runningIn_quiet_le (cut : past ++ evs <+: applied)
    (hq : ∀ e, .workDispatched e ∈ evs → ¬ IsMember (Reached env tenant applied) missionID
      group e.id) :
    runningIn missionID group (replay env tenant (past ++ evs)).control ≤
      runningIn missionID group (replay env tenant past).control := by
  induction evs using reverseRecOn with
  | nil => rw [append_nil]
  | append_singleton evs ev ih =>
    rw [← append_assoc] at cut ⊢
    have hea := ih ((prefix_append _ _).trans cut) fun e mem =>
      hq e (mem_append_left _ mem)
    refine le_trans ?_ hea
    rw [replay_append_singleton, reduce_control]
    by_cases dispatch : ∃ e, ev = .workDispatched e
    · obtain ⟨e, rfl⟩ := dispatch
      rcases runningIn_workDispatched_le env missionID group _ e with few | ⟨-, wi, hf, hmi⟩
      · exact few
      have id : wi.id = e.id := by simpa using List.find?_some hf
      have mem := mem_of_find?_eq_some hf
      rw [← reduce_control, ← replay_append_singleton] at mem
      exact absurd ⟨_, ⟨_, cut, rfl⟩, wi, mem, id, hmi⟩ (hq e (by simp))
    · unfold reduceControl
      split
      · exact le_refl _
      · exact runningIn_applyControl_le env fun e hs => dispatch ⟨e, hs⟩

variable (positive : 0 < limit) (shared : ∀ w, Reached env tenant applied w →
  ∀ wi ∈ w.control.work, wi.inGroup missionID group = true → wi.limit = limit)
include positive shared

lemma runningIn_batch_le {b : Batch} (cut : past ++ events <+: applied)
    (part : events <+: b.events) (hfol : b.Follows (replay env tenant past))
    (quiet : b.origin = .system schedulerSystem ∨ ∀ e, .workDispatched e ∈ b.events → ¬ IsMember
      (Reached env tenant applied) missionID group e.id)
    (hbe : (runningIn missionID group (replay env tenant past).control : Int) ≤ limit) :
    (runningIn missionID group (replay env tenant (past ++ events)).control : Int) ≤ limit := by
  rcases quiet with sch | quiet
  · unfold Batch.Follows at hfol
    rw [sch] at hfol
    have hwh := part.trans hfol
    have hft := countP_schedulerSystem positive
      (shared _ ⟨past, (prefix_append _ _).trans cut, rfl⟩) hbe
    have its : ∀ ev ∈ events, ∃ wi ∈ (replay env tenant past).control.work,
        ev = wi.dispatchEvent := by
      intro ev mem
      obtain ⟨wi, mem, -, hs⟩ := mem_schedule (hwh.subset mem)
      exact ⟨wi, mem_workSnapshot.mp mem, hs⟩
    have pass := (runningIn_pass_le env missionID group (replay_wellFormed env tenant past) its).2
    have few := hwh.sublist.countP_le (p := dispatchesIn missionID group)
    rw [replay, reduceAll_append, reduceAll_control]
    exact le_trans (Int.ofNat_le.mpr pass) (by push_cast; exact le_trans (by omega) hft)
  · have few := runningIn_quiet_le cut fun e mem => quiet e (part.subset mem)
    omega

lemma runningIn_batches_le (cut : eventsOf bat <+: applied)
    (prov : Provenance env (newWorld tenant) bat)
    (hq : ∀ b ∈ bat, b.origin = .system schedulerSystem ∨ ∀ e, .workDispatched e ∈ b.events
      → ¬ IsMember (Reached env tenant applied) missionID group e.id)
    (part : pa <+: eventsOf bat) :
    (runningIn missionID group (replay env tenant pa).control : Int) ≤ limit := by
  induction bat using reverseRecOn generalizing pa with
  | nil =>
    obtain rfl : pa = [] := prefix_nil.mp part
    exact positive.le
  | append_singleton bat b ih =>
    rw [eventsOf_append, eventsOf_singleton] at cut part
    have hea {pa} (part : pa <+: eventsOf bat) :=
      ih ((prefix_append _ _).trans cut)
        (fun pre x cut => prov pre x (cut.trans (prefix_append _ _)))
        (fun x mem => hq x (mem_append_left _ mem)) part
    -- A beginning of the whole ends in the batches before, or within the last one.
    rcases prefix_or_prefix_of_prefix part (prefix_append _ _) with hb | ⟨rs, rfl⟩
    · exact hea hb
    exact runningIn_batch_le positive shared (part.trans cut)
      ((prefix_append_right_inj _).mp part) (prov bat b (prefix_refl _))
      (hq b (by simp)) (hea (prefix_refl _))

end Run

/-- Dispatches of members come from the scheduler only. -/
structure OnlyScheduler (reached : World → Prop) (systems : List (World → List Event))
    (calls : List Engine.Call) (missionID group : String) : Prop where
  submitted : ∀ e, .submit (.workDispatched e) ∈ calls → ¬ IsMember reached missionID group e.id
  systems : ∀ sys ∈ systems, sys ≠ schedulerSystem → ∀ w, reached w →
    ∀ e, .workDispatched e ∈ sys w → ¬ IsMember reached missionID group e.id

/-- In every World that an Engine reaches no more members of a group run than their ceiling, where
they share one and only the scheduler dispatches them. -/
theorem group_ceiling {ι : Type} (env : Env) (S : TimelineStore ι) (tenant : String) (cadence : Int)
    (systems : List (World → List Event)) (calls : List Engine.Call) (missionID group : String)
    (limit : Int) (positive : 0 < limit) (shared : ∀ w,
      Reached env tenant ((Engine.new S tenant cadence).run env systems calls).applied w →
        ∀ wi ∈ w.control.work, wi.inGroup missionID group = true → wi.limit = limit)
    (only : OnlyScheduler
      (Reached env tenant ((Engine.new S tenant cadence).run env systems calls).applied)
      systems calls missionID group) :
    Reached env tenant ((Engine.new S tenant cadence).run env systems calls).applied
        ((Engine.new S tenant cadence).run env systems calls).world ∧
      ∀ w, Reached env tenant ((Engine.new S tenant cadence).run env systems calls).applied w →
        (runningIn missionID group w.control : Int) ≤ limit := by
  have tra := Engine.traced_run env S tenant cadence systems calls
  generalize (Engine.new S tenant cadence).run env systems calls = e at tra shared only ⊢
  refine ⟨⟨e.applied, prefix_refl _, tra.world⟩, ?_⟩
  rintro w ⟨pa, part, rfl⟩
  obtain ⟨bat, evs, prov, ogs⟩ := tra.batches
  rw [← evs] at part
  refine runningIn_batches_le positive shared (evs ▸ prefix_refl _) prov ?_ part
  intro b mem
  have og := ogs b mem
  obtain ⟨pre, post, split⟩ := append_of_mem mem
  have hfol := prov pre b ⟨post, by simp [split]⟩
  have hb : Reached env tenant e.applied (replay env tenant (eventsOf pre)) :=
    ⟨_, by rw [← evs, split, eventsOf_append]; exact prefix_append _ _, rfl⟩
  unfold Batch.From at og
  unfold Batch.Follows at hfol
  split at og
  · exact .inr fun d hn => only.submitted d (og _ hn)
  next sys from_ =>
  rw [from_] at hfol ⊢
  by_cases sch : sys = schedulerSystem
  · exact .inl (congrArg Origin.system sch)
  · exact .inr fun d hn => only.systems sys og sch _ hb d (hfol.subset hn)

def scanCalls : List Engine.Call :=
  [.submit (.missionProjected
    { id := "m"
      nodes := [{ id := "a", kind := .tool, group := "scan", limit := 1 },
        { id := "b", kind := .tool, group := "scan", limit := 1 }] }), .tick]

def scanStore : TimelineStore Nat := DurableLog.Store.scripted Event Nat (WorldSnapshot Nat) []

/-- The tick dispatches one of the two. -/
theorem group_ceiling_scan : runningIn "m" "scan"
        ((Engine.new scanStore "t" 0).run .plain [schedulerSystem] scanCalls).world.control = 1 ∧
      ∀ w, Reached .plain "t"
          ((Engine.new scanStore "t" 0).run .plain [schedulerSystem] scanCalls).applied w →
        (runningIn "m" "scan" w.control : Int) ≤ 1 := by
  have its : ∀ pa ∈
      ((Engine.new scanStore "t" 0).run .plain [schedulerSystem] scanCalls).applied.inits,
      ∀ wi ∈ (replay .plain "t" pa).control.work, wi.limit = 1 := by
    decide
  refine ⟨by decide, (group_ceiling .plain scanStore "t" 0 [schedulerSystem] scanCalls "m" "scan" 1
    (by decide) ?_ ⟨?_, ?_⟩).2⟩
  · rintro w ⟨pa, part, rfl⟩ wi mem -
    exact its pa ((mem_inits _ _).mpr part) wi mem
  · intro e mem
    simp [scanCalls] at mem
  · intro sys mem ho
    exact absurd (mem_singleton.mp mem) ho

end Gibson.Brain
