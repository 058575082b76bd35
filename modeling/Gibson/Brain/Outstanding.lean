import Gibson.Brain.Progress
import Gibson.Lib.Prefix

/-! The decisions that are outstanding: one token, a request or the event that closes it, for a
mission whose decision is in flight and none for any other. -/

namespace Gibson.Brain

open List Rows

def speaksFor (m : Mission) (req : DecisionRequest) : Bool :=
  req.missionID == m.id && (req.runID == "" || req.runID == m.runID)

/-- The decisions that a list of events closes. -/
def closed (events : List Event) : List DecisionRequest := events.filterMap closedDecision?

/-- An event that gives the mission work, or ends it. -/
def Answers (m : Mission) : Event → Prop
  | .workDispatched e => speaksFor m { missionID := e.missionID, runID := e.runID } = true
  | .missionDone e =>
    speaksFor m { missionID := e.id, runID := e.runID } = true ∧ e.status.isTerminal = true
  | _ => False

/-- The tokens of a World: the requests that wait, and the events on their way to it. -/
structure Accounted (c : Control) (log : List Event) (waiting : List DecisionRequest)
    (queue : List Event) : Prop where
  count : ∀ m ∈ c.missions, m.status.isTerminal = false →
    waiting.countP (speaksFor m) + (closed queue).countP (speaksFor m) =
      if m.decisionInFlight then 1 else 0
  answered : ∀ m ∈ c.missions, m.status.isTerminal = false →
    ∀ before req after, queue = before ++ closeEvent req :: after → speaksFor m req = true →
      HasProgress c m ∨ ∃ ev ∈ before, Answers m ev
  asked : ∀ req ∈ waiting ++ closed queue, req ∈ requests log
  plain : ∀ ev ∈ queue, decisionRequest? ev = none

section
variable {c : Control} {log : List Event} {waiting : List DecisionRequest} {queue : List Event}
variable {m : Mission}

lemma speaksFor_congr (id : m'.id = m.id) (run0 : m'.runID = m.runID) :
    speaksFor m' = speaksFor m := by
  funext req
  rw [speaksFor, speaksFor, id, run0]

variable {req : DecisionRequest}

lemma speaksFor_mission (hsk : speaksFor m req = true) : req.missionID = m.id := by
  rw [speaksFor, Bool.and_eq_true, beq_iff_eq] at hsk
  exact hsk.1

lemma answers_congr (id : m'.id = m.id) (run0 : m'.runID = m.runID) (ev) :
    Answers m' ev ↔ Answers m ev := by
  cases ev <;> simp only [Answers, speaksFor_congr id run0]

lemma Accounted.of_perm (h : Accounted c log waiting queue)
    (perm : waiting'.Perm waiting) : Accounted c log waiting' queue where
  count m mem unfinished := by
    rw [perm.countP_eq]
    exact h.count m mem unfinished
  answered := h.answered
  asked req mem := h.asked req (by
    rw [mem_append] at mem ⊢
    rwa [← perm.mem_iff])
  plain := h.plain

variable {ev : Event}

lemma Accounted.insert (h : Accounted c log waiting (front ++ back))
    (hax : decisionRequest? ev = none) (hcls : closedDecision? ev = none) :
    Accounted c log waiting (front ++ ev :: back) := by
  have tks : closed (front ++ ev :: back) = closed (front ++ back) := by
    simp [closed, filterMap_append, hcls]
  refine ⟨?_, ?_, ?_, ?_⟩
  · rw [tks]
    exact h.count
  · intro m mem hu hb req ha split hsk
    have ho : closeEvent req ≠ ev := fun hs => nomatch (congrArg closedDecision? hs).trans hcls
    rcases append_eq_append_iff.mp split with
      ⟨_ | ⟨x, mid⟩, rfl, rs⟩ | ⟨_ | ⟨x, mid⟩, rfl, rs⟩ <;> cases rs
    · exact absurd rfl ho
    · have sp' := (append_assoc front mid (closeEvent req :: ha)).symm
      refine (h.answered m mem hu (front ++ mid) req ha sp' hsk).imp_right ?_
      rintro ⟨ev, ht, ans⟩
      refine ⟨ev, ?_, ans⟩
      rw [mem_append] at ht ⊢
      exact ht.imp_right (mem_cons_of_mem _)
    · exact absurd rfl ho
    · exact h.answered m mem hu hb req (mid ++ back) (by simp) hsk
  · rw [tks]
    exact h.asked
  · obtain ⟨h1, hlt⟩ := forall_mem_append.mp h.plain
    exact forall_mem_append.mpr ⟨h1, forall_mem_cons.mpr ⟨hax, hlt⟩⟩

lemma Accounted.append (h : Accounted c log waiting queue)
    (hp : ∀ ev ∈ evs, decisionRequest? ev = none ∧ closedDecision? ev = none) :
    Accounted c log waiting (queue ++ evs) := by
  induction evs generalizing queue with
  | nil => rwa [append_nil]
  | cons ev rs ih =>
    obtain ⟨hax, hcls⟩ := hp ev mem_cons_self
    rw [← append_nil queue] at h
    have h1 := h.insert hax hcls
    have hla := ih h1 fun x mem => hp x (mem_cons_of_mem _ mem)
    rwa [append_assoc] at hla

lemma Accounted.answer (h : Accounted c log (waiting ++ [req]) queue)
    (ans : ∀ m ∈ c.missions, m.status.isTerminal = false → speaksFor m req = true → HasProgress
      c m ∨ ∃ ev ∈ queue, Answers m ev) : Accounted c log waiting (queue ++ [closeEvent req]) := by
  have tks : closed (queue ++ [closeEvent req]) = closed queue ++ [req] :=
    filterMap_append
  refine ⟨?_, ?_, ?_, ?_⟩
  · intro m mem hu
    have ct := h.count m mem hu
    rw [countP_append] at ct
    rw [tks, countP_append]
    omega
  · intro m mem hu hb r ha split hsk
    rcases Prefix.split_concat split with ⟨rfl, hs, -⟩ | ⟨hla, -, hea⟩
    · have hcls : some r = some req := congrArg closedDecision? hs
      rw [Option.some.inj hcls] at hsk
      exact ans m mem hu hsk
    · exact h.answered m mem hu hb r hla hea hsk
  · intro r mem
    refine h.asked r ?_
    rw [tks, ← append_assoc, mem_append, mem_append] at mem
    rw [mem_append, mem_append]
    exact or_right_comm.mp mem
  · exact forall_mem_append.mpr ⟨h.plain, forall_mem_singleton.mpr rfl⟩

lemma missionRunCheck_speaks (wf : WellFormed c) (mem : m ∈ c.missions) {id runID}
    (hsk : speaksFor m { missionID := id, runID } = true) (ev : Event) (mis : RunVerdict) :
    missionRunCheck c ev id runID mis = {} := by
  obtain rfl : id = m.id := speaksFor_mission hsk
  rw [speaksFor, Bool.and_eq_true, Bool.or_eq_true, beq_iff_eq, beq_iff_eq] at hsk
  unfold missionRunCheck
  rcases hsk.2 with none | same
  · rw [if_pos none]
  split
  · rfl
  have own : m.runID = runID := (beq_iff_eq.mp same).symm
  rw [findMission_of_mem wf mem]
  simp [own]

lemma busy_of_dispatch (env) (wf : WellFormed c) (mem : m ∈ c.missions)
    (hor : WorkInOrder c (.workDispatched e))
    (hsk : speaksFor m { missionID := e.missionID, runID := e.runID } = true) :
    Busy (reduceControl env c (.workDispatched e)) m.id := by
  have mi : e.missionID = m.id := speaksFor_mission hsk
  cases hf : findWork c e.id with
  | some wi =>
    obtain ⟨own, takes, -, -⟩ := hor wi hf
    have cur : (checkRun c (.workDispatched e)).verdict = .runCurrent := by
      simp [checkRun, workRunCheck_found hf, takes, hf]
    rw [control_of_current env cur]
    simp only [applyControl, applyWorkDispatched, hf]
    split
    · next hr =>
      exact ⟨wi, mem_of_findWork hf, own.trans mi, .inl hr⟩
    have hsd : findWork (updateWork c e.id (WorkItem.redispatch e)) e.id =
        some (wi.redispatch e) := by
      rw [findWork_updateWork (redispatch_id e), if_pos (beq_self_eq_true _), hf]
      rfl
    exact ⟨_, mem_of_findWork hsd, own.trans mi, .inl rfl⟩
  | none =>
    have cur : (checkRun c (.workDispatched e)).verdict = .runCurrent := by
      simp [checkRun, workRunCheck_none hf, hf, missionRunCheck_speaks wf mem hsk]
    rw [control_of_current env cur]
    simp only [applyControl, applyWorkDispatched, hf]
    refine ⟨e.newItem, ?_, mi, .inl rfl⟩
    unfold recordDecisionDispatch
    split <;> exact mem_append_right _ (mem_singleton.mpr rfl)

lemma finished_of_done (env) (wf : WellFormed c) (mem : m ∈ c.missions)
    (ends : e.status.isTerminal = true)
    (hsk : speaksFor m { missionID := e.id, runID := e.runID } = true)
    (ha : m' ∈ (reduceControl env c (.missionDone e)).missions) (hs : m'.id = m.id) :
    m'.status.isTerminal = true := by
  have mi : e.id = m.id := speaksFor_mission hsk
  have cur : (checkRun c (.missionDone e)).verdict = .runCurrent := by
    simp [checkRun, missionRunCheck_speaks wf mem hsk]
  rw [control_of_current env cur] at ha
  simp only [applyControl, applyMissionDone, mi, findMission_of_mem wf mem] at ha
  split at ha
  · next hter =>
    rwa [inj_on_of_nodup_map wf.missionIDs ha mem hs]
  · have hl : m' ∈ (updateMission c m.id fun m =>
        { m with status := e.status, reason := e.reason }).missions := ha
    obtain ⟨x, -, rfl⟩ := (mem_updateMission wf).mp hl
    split at hs
    · next own =>
      rwa [if_pos own]
    · next ho => exact absurd (beq_iff_eq.mpr hs) ho

lemma Answers.fold (env) (wf : WellFormed c) (mem : m ∈ c.missions) (ans : Answers m ev)
    (hor : WorkInOrder c ev) (ha : m' ∈ (reduceControl env c ev).missions)
    (hs : m'.id = m.id) (hu : m'.status.isTerminal = false) :
    HasProgress (reduceControl env c ev) m' := by
  cases ev with
  | workDispatched e => exact .inr (hs ▸ busy_of_dispatch env wf mem hor ans)
  | missionDone e =>
    have hter := finished_of_done env wf mem ans.2 ans.1 ha hs
    exact absurd hter (by simp [hu])
  | _ => exact ans.elim

variable (c log waiting queue) in
/-- The log accounts for what is open. -/
structure Consistent : Prop where
  steady : Steady c
  accounted : Accounted c log waiting queue

/-- The event fits log and state. -/
structure InOrder (log : List Event) (c : Control) (ev : Event) : Prop where
  work : WorkInOrder c ev
  run : RunInOrder log c ev

lemma requests_append (log ev) :
    requests (log ++ [ev]) = requests log ++ (decisionRequest? ev).toList := by
  cases hak : decisionRequest? ev <;> simp [requests, hak]

lemma Accounted.fresh (h : Accounted c log waiting queue) (hor : RunInOrder log c ev)
    (hsts : startsRun c ev = some (m'.id, m'.runID)) (mem : req ∈ waiting ++ closed queue) :
    speaksFor m' req = false := by
  rw [← Bool.not_eq_true]
  intro hsk
  have own := hor _ _ hsts req (h.asked req mem) (speaksFor_mission hsk)
  simp [speaksFor, own.1, own.2] at hsk

lemma countP_eq_zero_of_fresh {reqs : List DecisionRequest}
    (hfr : ∀ req ∈ reqs, speaksFor m req = false) : reqs.countP (speaksFor m) = 0 :=
  countP_eq_zero.mpr fun req mem => by simp [hfr req mem]

lemma Consistent.plain (env given) (h : Consistent c log waiting (given ++ queue))
    (hor : InOrder log c ev) (hax : decisionRequest? ev = none)
    (hcls : closedDecision? ev = none) (og : ∀ x ∈ given, x = ev) :
    Consistent (reduceControl env c ev) (log ++ [ev]) waiting queue := by
  have hsy := h.steady
  obtain ⟨-, ha⟩ :=
    settles_reduceControl env hsy.wf hsy.ready hsy.unstarted hor.work hax hcls
  have tks : closed (given ++ queue) = closed queue := by
    have none : closed given = [] := filterMap_eq_nil_iff.mpr fun x mem => by
      rw [og x mem, hcls]
    rw [closed, filterMap_append]
    exact congrArg (· ++ closed queue) none
  refine ⟨hsy.plain env hor.work hax hcls, ?_, ?_, ?_, ?_⟩
  · intro m' mem hu
    have ct := h.accounted.count
    rw [tks] at ct
    rcases ha m' mem hu with ⟨m, kp⟩ | ⟨-, hil, hsts⟩
    · rw [speaksFor_congr kp.id kp.runID, kp.inFlight]
      exact ct m kp.mem kp.unfinished
    have hfr {req} (mem : req ∈ waiting ++ closed queue) : speaksFor m' req = false :=
      h.accounted.fresh hor.run hsts (tks.symm ▸ mem)
    rw [countP_eq_zero_of_fresh fun req mem => hfr (mem_append_left _ mem),
      countP_eq_zero_of_fresh fun req mem => hfr (mem_append_right _ mem), hil]
    rfl
  · intro m' mem hu hb req hlt split hsk
    rcases ha m' mem hu with ⟨m, kp⟩ | ⟨-, -, hsts⟩
    · rw [speaksFor_congr kp.id kp.runID] at hsk
      have sp' : given ++ queue = (given ++ hb) ++ closeEvent req :: hlt := by
        rw [split, append_assoc]
      rcases h.accounted.answered m kp.mem kp.unfinished _ req hlt sp' hsk with
        progress | ⟨x, ht, answers⟩
      · exact .inl (kp.progress (hsy.cursor m kp.mem kp.unfinished) progress)
      rcases mem_append.mp ht with now | later
      · obtain rfl := og x now
        exact .inl (answers.fold env hsy.wf kp.mem hor.work mem kp.id hu)
      · exact .inr ⟨x, later, (answers_congr kp.id kp.runID x).mpr answers⟩
    · have tk : req ∈ waiting ++ closed (given ++ queue) := by
        rw [tks, split]
        refine mem_append_right _ (mem_filterMap.mpr ⟨closeEvent req, ?_, rfl⟩)
        exact mem_append_right _ mem_cons_self
      rw [h.accounted.fresh hor.run hsts tk] at hsk
      exact absurd hsk (by simp)
  · intro req mem
    rw [requests_append]
    exact mem_append_left _ (h.accounted.asked req (tks.symm ▸ mem))
  · exact fun x mem => h.accounted.plain x (mem_append_right _ mem)

def closeFor (req : DecisionRequest) (m : Mission) : Mission :=
  if speaksFor m req then { m with decisionInFlight := false } else m

lemma closeFor_silent (hsil : speaksFor m req = false) : closeFor req m = m := by
  rw [closeFor, hsil]
  rfl

lemma closeFor_kept (req m) :
    (closeFor req m).id = m.id ∧ (closeFor req m).runID = m.runID ∧
      (closeFor req m).status = m.status ∧ (closeFor req m).decisionCursor = m.decisionCursor ∧
      (closeFor req m).decisionInFlight = (!speaksFor m req && m.decisionInFlight) := by
  cases hsk : speaksFor m req <;> simp [closeFor, hsk]

lemma close_missions (env) (wf : WellFormed c) (req m') :
    (reduceControl env c (closeEvent req)).work = c.work ∧
      (m' ∈ (reduceControl env c (closeEvent req)).missions ↔
        ∃ m ∈ c.missions, closeFor req m = m') := by
  by_cases spo : ∃ m ∈ c.missions, speaksFor m req = true
  · obtain ⟨m, mem, hsk⟩ := spo
    have cur : (checkRun c (closeEvent req)).verdict = .runCurrent := by
      simp [closeEvent, checkRun, missionRunCheck_speaks wf mem hsk]
    rw [control_of_current env cur]
    refine ⟨rfl, (mem_updateMission wf).trans ?_⟩
    refine exists_congr fun x => and_congr_right fun ht => ?_
    have own : (x.id == req.missionID) = speaksFor x req := by
      by_cases hs : x.id = req.missionID
      · obtain rfl : x = m := inj_on_of_nodup_map wf.missionIDs ht mem
          (hs.trans (speaksFor_mission hsk))
        rw [hsk, hs, beq_self_eq_true]
      · rw [beq_eq_false_iff_ne.mpr hs, speaksFor, beq_eq_false_iff_ne.mpr (Ne.symm hs),
          Bool.false_and]
    rw [own, closeFor]
  · have hsil {x} (ht : x ∈ c.missions) : speaksFor x req = false := by
      rw [← Bool.not_eq_true]
      exact fun hsk => spo ⟨x, ht, hsk⟩
    have unw : (∃ x ∈ c.missions, closeFor req x = m') ↔ m' ∈ c.missions := by
      constructor
      · rintro ⟨x, ht, rfl⟩
        rwa [closeFor_silent (hsil ht)]
      · exact fun ht => ⟨m', ht, closeFor_silent (hsil ht)⟩
    rw [unw]
    unfold reduceControl
    split
    · exact ⟨rfl, Iff.rfl⟩
    next htk =>
    refine ⟨rfl, (mem_updateMission wf).trans ?_⟩
    have ho {x} (ht : x ∈ c.missions) : (x.id == req.missionID) = false := by
      rw [beq_eq_false_iff_ne]
      intro hs
      have mute := hsil ht
      simp only [speaksFor, hs, beq_self_eq_true, Bool.true_and, Bool.or_eq_false_iff,
        beq_eq_false_iff_ne] at mute
      refine htk ?_
      exact missionRunCheck_other .runDropped (hs ▸ findMission_of_mem wf ht) mute.1 mute.2
    constructor
    · rintro ⟨x, ht, rfl⟩
      rwa [ho ht]
    · exact fun ht => ⟨m', ht, by rw [ho ht]; rfl⟩

lemma HasProgress.congr (hpgr : HasProgress c m) (work : c'.work = c.work)
    (id : m'.id = m.id) (csr : m'.decisionCursor = m.decisionCursor) : HasProgress c' m' := by
  unfold HasProgress Busy Active DepsMet settledCount at hpgr ⊢
  rwa [work, id, csr]

lemma Steady.close (env) (hsy : Steady c)
    (hdn : ∀ m ∈ c.missions, m.status.isTerminal = false → speaksFor m req = true → HasProgress c
      m) : Steady (reduceControl env c (closeEvent req)) := by
  have work := (close_missions env hsy.wf req { id := "", status := .pending }).1
  have missions {m'} := (close_missions env hsy.wf req m').2
  have hse (id : String) :
      settledCount (reduceControl env c (closeEvent req)) id = settledCount c id :=
    congrArg (List.countP _) work
  refine ⟨wellFormed_reduceControl env hsy.wf _, hsy.ready.congr work, ?_, ?_, ?_⟩
  · intro m' mem hp
    obtain ⟨m, ht, rfl⟩ := missions.mp mem
    obtain ⟨-, -, status, csr, inF⟩ := closeFor_kept req m
    obtain ⟨h1, idle⟩ := hsy.unstarted m ht (status ▸ hp)
    rw [csr, inF, idle, Bool.and_false]
    exact ⟨h1, rfl⟩
  · intro m' mem hu
    obtain ⟨m, ht, rfl⟩ := missions.mp mem
    obtain ⟨id, -, status, csr, -⟩ := closeFor_kept req m
    rw [hse, id, csr]
    exact hsy.cursor m ht (status ▸ hu)
  · intro m' mem hu idle
    obtain ⟨m, ht, rfl⟩ := missions.mp mem
    obtain ⟨id, -, status, csr, inF⟩ := closeFor_kept req m
    rw [status] at hu
    rw [inF, Bool.and_eq_false_iff, Bool.not_eq_false'] at idle
    rw [csr]
    rcases idle with hsk | idle
    · exact .inr ((hdn m ht hu hsk).congr work id csr)
    · exact (hsy.progress m ht hu idle).imp_right fun hpgr =>
        hpgr.congr work id csr

lemma Accounted.close (env) (wf : WellFormed c)
    (h : Accounted c log waiting (closeEvent req :: queue)) :
    Accounted (reduceControl env c (closeEvent req)) (log ++ [closeEvent req]) waiting queue := by
  have work := (close_missions env wf req { id := "", status := .pending }).1
  have missions {m'} := (close_missions env wf req m').2
  have tks : closed (closeEvent req :: queue) = req :: closed queue := filterMap_cons_some rfl
  refine ⟨?_, ?_, ?_, fun x mem => h.plain x (mem_cons_of_mem _ mem)⟩
  · intro m' mem hu
    obtain ⟨m, ht, rfl⟩ := missions.mp mem
    obtain ⟨id, run0, status, -, inF⟩ := closeFor_kept req m
    have ct := h.count m ht (status ▸ hu)
    rw [tks, countP_cons] at ct
    rw [speaksFor_congr id run0, inF]
    cases hsk : speaksFor m req with
    | true =>
      rw [hsk, if_pos rfl] at ct
      rw [Bool.not_true, Bool.false_and, if_neg Bool.false_ne_true]
      split at ct <;> omega
    | false =>
      rw [hsk, if_neg Bool.false_ne_true, Nat.add_zero] at ct
      rwa [Bool.not_false, Bool.true_and]
  · intro m' mem hu hb r hlt split hsk
    obtain ⟨m, ht, rfl⟩ := missions.mp mem
    obtain ⟨id, run0, status, csr, -⟩ := closeFor_kept req m
    rw [speaksFor_congr id run0] at hsk
    rcases h.answered m ht (status ▸ hu) (closeEvent req :: hb) r hlt
      (by rw [split]; rfl) hsk with progress | ⟨x, hl, answers⟩
    · exact .inl (progress.congr work id csr)
    rcases mem_cons.mp hl with rfl | later
    · exact answers.elim
    · exact .inr ⟨x, later, (answers_congr id run0 x).mpr answers⟩
  · intro r mem
    rw [requests_append]
    refine mem_append_left _ (h.asked r ?_)
    rw [mem_append] at mem ⊢
    exact mem.imp_right (mem_cons_of_mem _)

lemma Consistent.close (env) (h : Consistent c log waiting (closeEvent req :: queue)) :
    Consistent (reduceControl env c (closeEvent req)) (log ++ [closeEvent req]) waiting queue := by
  refine ⟨h.steady.close env fun m mem hu hsk => ?_, h.accounted.close env h.steady.wf⟩
  rcases h.accounted.answered m mem hu [] req queue rfl hsk with
    progress | ⟨x, there, -⟩
  · exact progress
  · exact absurd there not_mem_nil

lemma Consistent.take (env) (h : Consistent c log waiting (ev :: queue))
    (hor : InOrder log c ev) :
    Consistent (reduceControl env c ev) (log ++ [ev]) waiting queue := by
  have hax := h.accounted.plain ev mem_cons_self
  cases hcls : closedDecision? ev with
  | none => exact Consistent.plain env [ev] h hor hax hcls fun x mem =>
      mem_singleton.mp mem
  | some req =>
    obtain rfl : ev = closeEvent req := by
      cases ev <;> simp [closedDecision?] at hcls
      rw [← hcls]
      rfl
    exact h.close env

lemma mem_applyDecisionRequested (wf : WellFormed c) (mem : m ∈ c.missions)
    (mi : e.missionID = m.id) (ht : m' ∈ (applyDecisionRequested c e).missions) :
    m' = { m with decisionInFlight := true, decisionCursor := e.cursor } ∨
      m' ∈ c.missions ∧ m'.id ≠ m.id := by
  obtain ⟨x, old, rfl⟩ := (mem_updateMission wf).mp ht
  rw [mi]
  by_cases hs : x.id = m.id
  · rw [inj_on_of_nodup_map wf.missionIDs old mem hs, if_pos (beq_self_eq_true _)]
    exact .inl rfl
  · rw [if_neg (by simpa using hs)]
    exact .inr ⟨old, hs⟩

section
variable {m : Mission} (mem : m ∈ c.missions) (hr : m.status = .running)
  {e : DecisionRequested} (mi : e.missionID = m.id)
include mem hr mi

lemma Steady.ask (env : Env) (hsy : Steady c) (csr : e.cursor = settledCount c m.id) :
    Steady (applyDecisionRequested c e) := by
  have missions {m'} (ht : m' ∈ (applyDecisionRequested c e).missions) :=
    mem_applyDecisionRequested hsy.wf mem mi ht
  have work : (applyDecisionRequested c e).work = c.work := rfl
  refine ⟨?_, hsy.ready.congr work, ?_, ?_, ?_⟩
  · have kp := wellFormed_reduceControl env hsy.wf (.decisionRequested e)
    rwa [control_of_current env rfl] at kp
  · intro m' ht hp
    rcases missions ht with rfl | ⟨old, -⟩
    · exact absurd (hr.symm.trans hp) (by simp)
    · exact hsy.unstarted m' old hp
  · intro m' ht hu
    rcases missions ht with rfl | ⟨old, -⟩
    · exact Int.le_of_eq csr
    · exact hsy.cursor m' old hu
  · intro m' ht hu hsl
    rcases missions ht with rfl | ⟨old, -⟩
    · exact absurd hsl (by simp)
    · exact (hsy.progress m' old hu hsl).imp_right (·.congr work rfl rfl)

lemma Accounted.ask (wf : WellFormed c) (h : Accounted c log waiting queue)
    (hil : m.decisionInFlight = false) (run : e.runID = m.runID) :
    Accounted (applyDecisionRequested c e) (log ++ [.decisionRequested e])
      (waiting ++ [{ missionID := m.id, runID := m.runID }]) queue := by
  have missions {m'} (there : m' ∈ (applyDecisionRequested c e).missions) :=
    mem_applyDecisionRequested wf mem mi there
  have tks := h.count m mem (by rw [hr]; rfl)
  rw [hil, if_neg Bool.false_ne_true] at tks
  have own : speaksFor { m with decisionInFlight := true, decisionCursor := e.cursor } =
      speaksFor m := speaksFor_congr rfl rfl
  have work : (applyDecisionRequested c e).work = c.work := rfl
  refine ⟨?_, ?_, ?_, h.plain⟩
  · intro m' there hu
    rw [countP_append, countP_singleton]
    rcases missions there with rfl | ⟨old, ho⟩
    · have hak : speaksFor m { missionID := m.id, runID := m.runID } = true := by
        simp [speaksFor]
      rw [own, hak, if_pos rfl]
      omega
    · have hsil : speaksFor m' { missionID := m.id, runID := m.runID } = false := by
        rw [speaksFor, beq_eq_false_iff_ne.mpr (Ne.symm ho), Bool.false_and]
      rw [hsil, if_neg Bool.false_ne_true, Nat.add_zero]
      exact h.count m' old hu
  · intro m' there hu hb req hlt split hsk
    rcases missions there with rfl | ⟨old, -⟩
    · rw [own] at hsk
      have hl : req ∈ closed queue := by
        rw [split]
        refine mem_filterMap.mpr ⟨closeEvent req, ?_, rfl⟩
        exact mem_append_right _ mem_cons_self
      have none := countP_eq_zero.mp (show (closed queue).countP (speaksFor m) = 0 by omega)
      exact absurd hsk (none req hl)
    · exact (h.answered m' old hu hb req hlt split hsk).imp_left
        (·.congr work rfl rfl)
  · intro req there
    rw [requests_append]
    rw [append_assoc, mem_append] at there
    rcases there with there | there
    · exact mem_append_left _ (h.asked req (mem_append_left _ there))
    rcases mem_append.mp there with new | there
    · refine mem_append_right _ ?_
      rwa [decisionRequest?, mi, run]
    · exact mem_append_left _ (h.asked req (mem_append_right _ there))

end

lemma Consistent.ask (env) (h : Consistent c log waiting queue) (mem : m ∈ c.missions)
    (hr : m.status = .running) (hil : m.decisionInFlight = false) {e : DecisionRequested}
    (mi : e.missionID = m.id) (run : e.runID = m.runID)
    (csr : e.cursor = settledCount c m.id) :
    Consistent (reduceControl env c (.decisionRequested e)) (log ++ [.decisionRequested e])
      (waiting ++ [{ missionID := m.id, runID := m.runID }]) queue := by
  exact ⟨Steady.ask mem hr mi env h.steady csr,
    Accounted.ask mem hr mi h.steady.wf h.accounted hil run⟩

end
end Gibson.Brain
