import Mathlib.Data.List.Count
import Mathlib.Data.List.Nodup
import Gibson.Lib.Interleaving
import Gibson.Lib.Prefix

/-! The audit writer: callers put events into a bounded queue, one goroutine writes them in
batches. A flush stores its whole batch or nothing. -/

namespace Gibson.AuditWriter

open List Interleaving

def writerBufferSize : Nat := 1000

def batchSize : Nat := 100

inductive After where
  | loop
  | drain
  | finish
deriving DecidableEq

inductive Goroutine (α : Type) where
  | loop (batch : List α)
  | flushing (batch : List α)
  | backoff (batch : List α)
  | direct (rest : List α) (after : After)
  | taking (got : List α)
  | ended
deriving DecidableEq

inductive Phase (α : Type) where
  | enter
  | sending
  | sent
  | taking (got : List α)
  | writing (rest : List α)
  | returned
deriving DecidableEq

/-- A call of `Log` in flight. -/
structure LogCall (α : Type) where
  event : α
  phase : Phase α := .enter
deriving DecidableEq

/-- What they share. The log of write failures is `logged`; `lost` are those of its events that
nobody keeps. -/
structure Writer (α : Type) where
  queue : List α := []
  (stopping cancelled : Bool := false)
  goroutine : Goroutine α := .loop []
  (stored logged lost : List α := [])

inductive Branch where
  | receive
  | tick
  | stopping
  | cancelled
deriving DecidableEq

/-- The outcome of a flush and the case of a `select`. -/
structure Answer where
  ok : Bool := true
  branch : Branch := .receive

inductive Outside where
  | goroutine (a : Answer)
  | cancel
  | stop

abbrev WriterStep (α : Type) := Step α Answer Outside

section
variable {α : Type}

def Writer.writeDirect (s : Writer α) (batch : List α) (ok : Bool) : Writer α :=
  if ok then { s with stored := s.stored ++ batch }
  else { s with logged := s.logged ++ batch, lost := s.lost ++ batch }

def log (s : Writer α) (c : LogCall α) (a : Answer) : Writer α × LogCall α :=
  match c.phase with
  | .enter =>
    (s, { c with phase := if s.stopping then .writing [c.event] else .sending })
  | .sending =>
    if s.stopping ∧ (a.branch = .stopping ∨ writerBufferSize ≤ s.queue.length) then
      (s, { c with phase := .writing [c.event] })
    else if s.queue.length < writerBufferSize then
      ({ s with queue := s.queue ++ [c.event] }, { c with phase := .sent })
    else (s, c)
  | .sent => (s, { c with phase := if s.stopping then .taking [] else .returned })
  | .taking got =>
    match s.queue with
    | [] => (s, { c with phase := .writing got })
    | x :: queue => ({ s with queue }, { c with phase := .taking (got ++ [x]) })
  | .writing rest =>
    if rest = [] then (s, { c with phase := .returned })
    else (s.writeDirect (rest.take batchSize) a.ok,
      { c with phase := .writing (rest.drop batchSize) })
  | .returned => (s, c)

/-- The next step of the goroutine: the `select` of its loop, `flushDurable` and the drain. -/
def runStep (s : Writer α) (a : Answer) : Writer α :=
  let stops := (a.branch = .stopping ∧ s.stopping) ∨ (a.branch = .cancelled ∧ s.cancelled)
  match s.goroutine with
  | .loop batch =>
    if stops then { s with goroutine := .direct batch .drain }
    else match a.branch, s.queue with
      | .receive, x :: queue =>
        { s with queue, goroutine := if batchSize ≤ (batch ++ [x]).length then
          .flushing (batch ++ [x]) else .loop (batch ++ [x]) }
      | .tick, _ => { s with goroutine := if batch = [] then .loop [] else .flushing batch }
      | _, _ => s
  | .flushing batch =>
    if a.ok then { s with stored := s.stored ++ batch, goroutine := .loop [] }
    else if s.cancelled then { s with goroutine := .direct batch .loop }
    else { s with logged := s.logged ++ batch, goroutine := .backoff batch }
  | .backoff batch =>
    if stops then { s with goroutine := .direct batch .loop }
    else if a.branch = .tick then { s with goroutine := .flushing batch }
    else s
  | .direct rest after =>
    if rest = [] then
      { s with goroutine := match after with
        | .loop => .loop []
        | .drain => .taking []
        | .finish => .ended }
    else
      { s.writeDirect (rest.take batchSize) a.ok with
        goroutine := .direct (rest.drop batchSize) after }
  | .taking got =>
    match s.queue with
    | [] => { s with goroutine := .direct got .finish }
    | x :: queue => { s with queue, goroutine := .taking (got ++ [x]) }
  | .ended => s

def outside (s : Writer α) : Outside → Writer α
  | .goroutine a => runStep s a
  | .cancel => { s with cancelled := true }
  | .stop => { s with stopping := true }

def writer : System (Writer α) α (LogCall α) Answer Outside where
  enter event := { event }
  advance := log
  outside := outside

@[simp] def Goroutine.holds : Goroutine α → List α
  | .loop l | .flushing l | .backoff l | .direct l _ | .taking l => l
  | .ended => []

@[simp] def LogCall.holds (c : LogCall α) : List α :=
  match c.phase with
  | .enter | .sending => [c.event]
  | .taking l | .writing l => l
  | .sent | .returned => []

@[simp] def Writer.places (s : Writer α) : List α := s.queue ++ s.goroutine.holds ++ s.stored ++ s.lost

/-- What was logged is stored, lost or still held by the goroutine; what is lost was logged. -/
structure Reported (s : Writer α) : Prop where
  kept : ∀ e ∈ s.logged, e ∈ s.stored ∨ e ∈ s.lost ∨ e ∈ s.goroutine.holds
  told : ∀ e ∈ s.lost, e ∈ s.logged

/-- The events of the calls of a run, in the order in which they began. -/
def begun (steps : List (WriterStep α)) : List α :=
  steps.filterMap fun
    | .start e => some e
    | _ => none

def after (steps : List (WriterStep α)) : World (Writer α) (LogCall α) :=
  run writer ⟨{}, []⟩ steps

lemma after_append (ss : List (WriterStep α)) (x) :
    after (ss ++ [x]) = step writer (after ss) x := run_append_singleton ..

/-- The goroutine does not leave its loop for the cancelled context before `Stop` is called. -/
def staysForStop (s : Writer α) : WriterStep α → Bool
  | .outside (.goroutine a) => match s.goroutine with
    | .loop _ => a.branch ≠ .cancelled || !s.cancelled || s.stopping
    | _ => true
  | _ => true

/-- The call has sent its event and finds that `Stop` was called. -/
def Raced (steps : List (WriterStep α)) (j : Nat) : Prop :=
  ∃ before a rest c, steps = before ++ .advance j a :: rest ∧
    (after before).calls[j]? = some c ∧ c.phase = .sent ∧ (after before).shared.stopping = true

lemma log_event (s : Writer α) (c : LogCall α) (a) : (log s c a).2.event = c.event := by
  obtain ⟨event, phase⟩ := c
  cases phase <;> simp only [log] <;> (repeat' split) <;> rfl

variable {e : α}

lemma writeDirect_queue (s : Writer α) (bt : List α) (ok : Bool) :
    (s.writeDirect bt ok).queue = s.queue := by cases ok <;> rfl

variable {s : Writer α}

lemma Reported.writeDirect (h : Reported s) (bt : List α) (ok : Bool) :
    Reported (s.writeDirect bt ok) := by
  cases ok with
  | true =>
    exact ⟨fun e mem => (h.kept e mem).imp (mem_append_left _) id, h.told⟩
  | false =>
    refine ⟨fun e mem => ?_, fun e mem => ?_⟩
    · rcases mem_append.mp mem with old | new
      · exact (h.kept e old).imp id (.imp (mem_append_left _) id)
      · exact .inr (.inl (mem_append_right _ new))
    · exact mem_append.mpr ((mem_append.mp mem).imp (h.told e) id)

/-- The goroutine lets go of nothing that it has not written. -/
lemma Reported.turn (h : Reported s) (queue : List α)
    (hho : ∀ e ∈ s.goroutine.holds, e ∈ g.holds) : Reported { s with queue, goroutine := g } :=
  ⟨fun e mem => (h.kept e mem).imp id (.imp id (hho e)), h.told⟩

lemma reported_runStep (h : Reported s) (a) : Reported (runStep s a) := by
  unfold runStep
  dsimp only
  split
  · next batch at' =>
    have hg (x : α) : ∀ e ∈ s.goroutine.holds, e ∈ batch ++ [x] := by
      rw [at']
      exact fun e mem => mem_append_left _ mem
    split
    · exact h.turn s.queue (by rw [at']; exact fun _ => id)
    split
    · next x queue _ _ =>
      refine h.turn queue ?_
      split <;> exact hg x
    · refine h.turn s.queue ?_
      rw [at']
      split
      · next hem => simp [hem]
      · exact fun _ => id
    · exact h
  · next batch at' =>
    split
    · refine ⟨fun e mem => ?_, h.told⟩
      rcases h.kept e mem with hst | lost | held
      · exact .inl (mem_append_left _ hst)
      · exact .inr (.inl lost)
      · rw [at'] at held
        exact .inl (mem_append_right _ held)
    split
    · exact h.turn s.queue (by rw [at']; exact fun _ => id)
    refine ⟨fun e mem => ?_, fun e mem => mem_append_left _ (h.told e mem)⟩
    rcases mem_append.mp mem with old | new
    · have := h.kept e old
      rwa [at'] at this
    · exact .inr (.inr new)
  · next batch at' =>
    split
    · exact h.turn s.queue (by rw [at']; exact fun _ => id)
    split
    · exact h.turn s.queue (by rw [at']; exact fun _ => id)
    · exact h
  · next rest after at' =>
    split
    · next hem => exact h.turn s.queue (by rw [at', hem]; simp)
    have wrote := h.writeDirect (rest.take batchSize) a.ok
    refine ⟨fun e mem => ?_, wrote.told⟩
    rcases wrote.kept e mem with hst | lost | held
    · exact .inl hst
    · exact .inr (.inl lost)
    have hs : (s.writeDirect (rest.take batchSize) a.ok).goroutine = s.goroutine := by
      cases a.ok <;> rfl
    rw [hs, at'] at held
    rcases mem_append.mp ((take_append_drop batchSize rest).symm ▸ held) with now | rest
    · cases ok : a.ok with
      | true => exact .inl (mem_append_right _ now)
      | false => exact .inr (.inl (mem_append_right _ now))
    · exact .inr (.inr rest)
  · next got at' =>
    split
    · exact h.turn s.queue (by rw [at']; exact fun _ => id)
    · next x queue _ =>
      exact h.turn queue (by rw [at']; exact fun e mem => mem_append_left _ mem)
  · exact h

lemma reported_log (h : Reported s) (c : LogCall α) (a) : Reported (log s c a).1 := by
  obtain ⟨event, pha⟩ := c
  cases pha with
  | enter | sent | returned => exact h
  | sending =>
    simp only [log]
    (repeat' split) <;> exact ⟨h.kept, h.told⟩
  | taking got =>
    simp only [log]
    split <;> exact ⟨h.kept, h.told⟩
  | writing rs =>
    simp only [log]
    split
    · exact h
    · exact h.writeDirect _ _

def Goroutine.closing : Goroutine α → Bool
  | .direct _ .drain | .taking _ | .direct _ .finish | .ended => true
  | _ => false

/-- The goroutine has found the queue empty on its way out. -/
def Goroutine.drained : Goroutine α → Bool
  | .direct _ .finish | .ended => true
  | _ => false

lemma runStep_flags (s : Writer α) (a) :
    (runStep s a).stopping = s.stopping ∧ (runStep s a).cancelled = s.cancelled := by
  simp only [runStep, Writer.writeDirect]
  (repeat' split) <;> exact ⟨rfl, rfl⟩

variable {a : Answer}

lemma closing_runStep (hsy : staysForStop s (.outside (.goroutine a)))
    (hcg : (runStep s a).goroutine.closing) : s.goroutine.closing ∨ s.stopping := by
  obtain ⟨qu, stopping, hcd, gr, hst, logged, lost⟩ := s
  cases gr with
  | loop bt =>
    simp only [runStep] at hcg
    split at hcg
    · next stops =>
      rcases stops with ⟨-, stop⟩ | ⟨pic, hcd⟩
      · exact .inr stop
      · exact .inr (by simpa [staysForStop, pic, hcd] using hsy)
    · (repeat' split at hcg) <;> cases hcg
  | flushing bt | backoff bt =>
    simp only [runStep] at hcg
    (repeat' split at hcg) <;> cases hcg
  | direct rs after =>
    cases after with
    | loop =>
      simp only [runStep] at hcg
      (repeat' split at hcg) <;> cases hcg
    | drain | finish => exact .inl rfl
  | taking got | ended => exact .inl rfl

lemma drained_runStep (hdrn : (runStep s a).goroutine.drained) :
    (runStep s a).queue = [] ∨ s.goroutine.drained ∧ (runStep s a).queue = s.queue := by
  obtain ⟨qu, stopping, hcd, gr, hst, logged, lost⟩ := s
  cases gr with
  | loop bt | flushing bt | backoff bt =>
    simp only [runStep] at hdrn
    (repeat' split at hdrn) <;> cases hdrn
  | direct rs after =>
    simp only [runStep] at hdrn ⊢
    split at hdrn
    · next hem =>
      cases after with
      | loop | drain => cases hdrn
      | finish => exact .inr ⟨rfl, by rw [if_pos hem]⟩
    · next more =>
      cases after with
      | loop | drain => cases hdrn
      | finish => exact .inr ⟨rfl, by rw [if_neg more]; exact writeDirect_queue ..⟩
  | taking got =>
    cases qu with
    | nil => exact .inl rfl
    | cons x qu => cases hdrn
  | ended => exact .inr ⟨rfl, rfl⟩

lemma log_same (s : Writer α) (c : LogCall α) (a) :
    (log s c a).1.goroutine = s.goroutine ∧ (log s c a).1.stopping = s.stopping ∧
      (log s c a).1.cancelled = s.cancelled := by
  obtain ⟨event, pha⟩ := c
  cases pha with
  | enter | sent | returned => exact ⟨rfl, rfl, rfl⟩
  | sending =>
    simp only [log]
    (repeat' split) <;> exact ⟨rfl, rfl, rfl⟩
  | taking got =>
    simp only [log]
    split <;> exact ⟨rfl, rfl, rfl⟩
  | writing rs =>
    simp only [log, Writer.writeDirect]
    (repeat' split) <;> exact ⟨rfl, rfl, rfl⟩

lemma mem_log_queue (mem : e ∈ (log s c a).1.queue) :
    e ∈ s.queue ∨ c.phase = .sending ∧ e = c.event := by
  obtain ⟨event, pha⟩ := c
  cases pha with
  | enter | sent | returned => exact .inl mem
  | sending =>
    simp only [log] at mem
    split at mem
    · exact .inl mem
    split at mem
    · exact (mem_append.mp mem).imp id fun own => ⟨rfl, mem_singleton.mp own⟩
    · exact .inl mem
  | taking got =>
    simp only [log] at mem
    split at mem
    · exact .inl mem
    · next x qu is => exact .inl (is ▸ mem_cons_of_mem x mem)
  | writing rs =>
    simp only [log] at mem
    split at mem
    · exact .inl mem
    · exact .inl (writeDirect_queue .. ▸ mem)

lemma Goroutine.closing_of_drained {g : Goroutine α} (hdrn : g.drained) : g.closing := by
  cases g with
  | direct rs nx => cases nx <;> simp_all [Goroutine.drained, Goroutine.closing]
  | _ => simp_all [Goroutine.drained, Goroutine.closing]

lemma Raced.append (x : WriterStep α) (hr : Raced ss j) : Raced (ss ++ [x]) j := by
  obtain ⟨hb, a, rs, c, rfl, cl⟩ := hr
  exact ⟨hb, a, rs ++ [x], c, by simp, cl⟩

/-- The call has nothing more to do with the queue. -/
def Phase.past : Phase α → Bool
  | .writing _ | .returned => true
  | _ => false

/-- What a step of a call may do to its phase. -/
lemma log_phase (s : Writer α) (c : LogCall α) (a) :
    (∀ l, (log s c a).2.phase = .taking l → (∃ l, c.phase = .taking l) ∨
      c.phase = .sent ∧ s.stopping = true) ∧
    (∀ l, (log s c a).2.phase = .writing l → (∃ l, c.phase = .taking l) ∨
      l = [c.event] ∨ ∃ l', c.phase = .writing l' ∧ l ⊆ l') ∧
    ((log s c a).2.phase.past → (log s c a).1.queue = s.queue ∧ (c.phase.past ∨ s.queue = [] ∨
      c.event ∈ c.holds ∨ s.stopping = false)) := by
  obtain ⟨event, pha⟩ := c
  cases pha with
  | enter | sent => simp only [log]; split <;> simp_all [Phase.past]
  | sending =>
    simp only [log]
    split
    · simp
    split <;> simp [Phase.past]
  | taking got => simp only [log]; split <;> simp_all [Phase.past]
  | writing rs =>
    simp only [log]
    split
    · simp_all [Phase.past]
    · refine ⟨by simp, fun l is => .inr (.inr ⟨rs, rfl, ?_⟩), fun _ => ⟨writeDirect_queue .., .inl rfl⟩⟩
      cases is
      exact drop_subset _ _
  | returned => simp [log, Phase.past]

lemma returned_append {hb : List (WriterStep α)} {i : Nat}
    (hre : (after hb).calls[i]? = some ⟨e, .returned⟩) (rs) :
    (after (hb ++ rs)).calls[i]? = some ⟨e, .returned⟩ := by
  induction rs using reverseRecOn with
  | nil => rwa [append_nil]
  | append_singleton rs x ih =>
    rw [← append_assoc, after_append]
    obtain ⟨c, ht, rfl | ⟨a, -, rfl⟩⟩ := @call_step _ _ _ _ _ writer (after (hb ++ rs)) i _ x ih
    · exact ht
    · exact ht

variable [DecidableEq α]

lemma count_take_drop (e : α) (l : List α) :
    (l.take batchSize).count e + (l.drop batchSize).count e = l.count e := by
  rw [← count_append, take_append_drop]

/-- The goroutine moves events from place to place. -/
lemma count_runStep (s : Writer α) (a) (e : α) :
    (runStep s a).places.count e = s.places.count e := by
  obtain ⟨qu, stopping, hcd, gr, hst, logged, lost⟩ := s
  cases gr with
  | loop bt =>
    simp only [runStep]
    split
    · rfl
    split
    · split <;> simp [count_append, count_cons] <;> omega
    · split
      · next hem => simp [hem]
      · rfl
    · rfl
  | flushing bt =>
    simp only [runStep]
    split
    · simp [count_append]
      omega
    · split <;> rfl
  | backoff bt =>
    simp only [runStep]
    split
    · rfl
    · split <;> rfl
  | direct rs after =>
    simp only [runStep]
    split
    · next hem => cases after <;> simp [hem]
    have hm := count_take_drop e rs
    cases ok : a.ok <;>
      simp [Writer.writeDirect, count_append] <;> omega
  | taking got =>
    cases qu <;> simp [runStep, count_append, count_cons]
    omega
  | ended => rfl

/-- A call takes an event from the queue, or brings its own. -/
lemma count_log (s : Writer α) (c : LogCall α) (a) (e : α) :
    (log s c a).1.places.count e + (log s c a).2.holds.count e =
      s.places.count e + c.holds.count e := by
  obtain ⟨event, pha⟩ := c
  cases pha with
  | enter => simp only [log]; split <;> rfl
  | sending =>
    simp only [log]
    split
    · rfl
    split
    · simp [count_append, count_cons]
      omega
    · rfl
  | sent => simp only [log]; split <;> rfl
  | taking got =>
    obtain ⟨qu, stopping, hcd, gr, hst, logged, lost⟩ := s
    cases qu <;> simp [log, count_append, count_cons]
    omega
  | writing rs =>
    simp only [log]
    split
    · next hem => simp [hem]
    have hm := count_take_drop e rs
    cases a.ok <;> simp [Writer.writeDirect, count_append, LogCall.holds] <;> omega
  | returned => rfl

lemma count_flatMap_set {cs : List (LogCall α)}
    (hh : cs[i]? = some c) (c' : LogCall α) (e : α) :
    ((cs.set i c').flatMap LogCall.holds).count e + c.holds.count e =
      (cs.flatMap LogCall.holds).count e + c'.holds.count e := by
  induction cs generalizing i with
  | nil => cases hh
  | cons d rs ih =>
    cases i with
    | zero =>
      cases hh
      simp only [set_cons_zero, flatMap_cons, count_append]
      omega
    | succ i =>
      have := ih (i := i) hh
      simp only [set_cons_succ, flatMap_cons, count_append]
      omega

/-- No event is lost or doubled. -/
structure Kept (events : List α) (w : World (Writer α) (LogCall α)) : Prop where
  once : ∀ e, w.shared.places.count e + (w.calls.flatMap LogCall.holds).count e = events.count e
  calls : w.calls.map LogCall.event = events
  reported : Reported w.shared

lemma kept_after (ss : List (WriterStep α)) : Kept (begun ss) (after ss) := by
  induction ss using reverseRecOn with
  | nil => exact ⟨fun e => rfl, rfl, ⟨by simp [after, run], by simp [after, run]⟩⟩
  | append_singleton ss x ih =>
    rw [after_append]
    cases x with
    | start e =>
      refine ⟨fun e' => ?_, ?_, ih.reported⟩
      · have := ih.once e'
        simp [step, begun, writer, count_append] at this ⊢
        omega
      · have := ih.calls
        simpa [step, begun, writer] using this
    | outside o =>
      have hs : begun (ss ++ [.outside o]) = begun ss := by simp [begun]
      rw [hs]
      refine ⟨fun e => ?_, ih.calls, ?_⟩
      · rw [← ih.once e]
        refine congrArg (· + _) ?_
        cases o with
        | goroutine a => exact count_runStep _ a e
        | cancel | stop => rfl
      · cases o with
        | goroutine a => exact reported_runStep ih.reported a
        | cancel | stop => exact ⟨ih.reported.kept, ih.reported.told⟩
    | advance i a =>
      have hs : begun (ss ++ [.advance i a]) = begun ss := by simp [begun]
      rw [hs]
      cases hh : (after ss).calls[i]? with
      | none => rwa [step_advance_none hh]
      | some c =>
        rw [step_advance_some hh]
        refine ⟨fun e => ?_, ?_, reported_log ih.reported c a⟩
        · have bal := count_log (after ss).shared c a e
          have hm := count_flatMap_set hh (log (after ss).shared c a).2 e
          have := ih.once e
          simp only [writer]
          omega
        · obtain ⟨hbd, rfl⟩ := List.getElem?_eq_some_iff.mp hh
          simp only [writer, map_set, log_event]
          rw [← getElem_map LogCall.event, set_getElem_self, ih.calls]
          simpa using hbd

/-- What a call still holds is in no queue. -/
lemma not_queued_of_holds (hdi : (begun ss).Nodup) (mem : c ∈ (after ss).calls)
    (hhe : e ∈ c.holds) : e ∉ (after ss).shared.queue := by
  intro hqu
  have once := (kept_after ss).once e
  have := List.nodup_iff_count_le_one.mp hdi e
  have := count_pos_iff.mpr hqu
  have := count_pos_iff.mpr (mem_flatMap.mpr ⟨c, mem, hhe⟩)
  simp only [Writer.places, count_append] at once
  omega

lemma event_inj {i j : Nat} {c c' : LogCall α} (hdi : (begun ss).Nodup)
    (hh : (after ss).calls[i]? = some c) (ht : (after ss).calls[j]? = some c')
    (hs : c.event = c'.event) : i = j := by
  rw [← (kept_after ss).calls] at hdi
  have hi : ((after ss).calls.map LogCall.event)[i]? = some c.event := by simp [hh]
  have hj : ((after ss).calls.map LogCall.event)[j]? = some c.event := by simp [ht, hs]
  obtain ⟨ib, ie⟩ := List.getElem?_eq_some_iff.mp hi
  obtain ⟨jb, je⟩ := List.getElem?_eq_some_iff.mp hj
  exact (List.Nodup.getElem_inj_iff hdi).mp (ie.trans je.symm)

/-- The goroutine leaves only after `Stop`. An event whose call is past the queue is in no queue that
was drained. A call takes the events of others only after a race. -/
structure Settled (ss : List (WriterStep α)) : Prop where
  told : (after ss).shared.goroutine.closing → (after ss).shared.stopping
  clear : ∀ (i : Nat) (c : LogCall α), (after ss).calls[i]? = some c → c.phase.past →
    (after ss).shared.goroutine.drained → c.event ∉ (after ss).shared.queue
  takes : ∀ (i : Nat) (c : LogCall α) l, (after ss).calls[i]? = some c → c.phase = .taking l →
    Raced ss i
  writes : ∀ (i : Nat) (c : LogCall α) l, (after ss).calls[i]? = some c → c.phase = .writing l →
    (∀ x ∈ l, x = c.event) ∨ Raced ss i

variable {ss : List (WriterStep α)}

omit [DecidableEq α] in
lemma Settled.start (hs : Settled ss) (e : α) : Settled (ss ++ [.start e]) := by
  have st := after_append ss (.start e)
  have cs {i : Nat} {c : LogCall α} (hh : (after (ss ++ [.start e])).calls[i]? = some c) :
      (after ss).calls[i]? = some c ∨ c.phase = .enter := by
    rw [st] at hh
    obtain ⟨old, -⟩ | ⟨_, -, -, is⟩ | ⟨_, _, is, -⟩ := calls_step hh
    · exact .inl old
    · exact .inr (by rw [is]; rfl)
    · cases is
  have hs0 : (after (ss ++ [.start e])).shared = (after ss).shared := by rw [st]; rfl
  refine ⟨hs0 ▸ hs.told, fun i c hh hpa => ?_, fun i c l hh is => ?_, fun i c l hh is => ?_⟩
  · rw [hs0]
    rcases cs hh with old | new
    · exact hs.clear i c old hpa
    · simp [new, Phase.past] at hpa
  · rcases cs hh with old | new
    · exact (hs.takes i c l old is).append _
    · simp [new] at is
  · rcases cs hh with old | new
    · exact (hs.writes i c l old is).imp id (.append _)
    · simp [new] at is

omit [DecidableEq α] in
lemma Settled.outside (hs : Settled ss) (now : staysForStop (after ss).shared (.outside o)) :
    Settled (ss ++ [.outside o]) := by
  have st := after_append ss (.outside o)
  have hs0 : (after (ss ++ [.outside o])).calls = (after ss).calls := by rw [st]; rfl
  refine ⟨?_, fun i c hh hpa hdrn => ?_, fun i c l hh is => ?_, fun i c l hh is => ?_⟩
  · rw [st]
    cases o with
    | goroutine a =>
      intro hcg
      show (runStep (after ss).shared a).stopping = true
      rw [(runStep_flags _ a).1]
      exact (closing_runStep now hcg).elim hs.told id
    | cancel => exact hs.told
    | stop => exact fun _ => rfl
  · rw [hs0] at hh
    rw [st] at hdrn ⊢
    cases o with
    | goroutine a =>
      rcases drained_runStep hdrn with hem | ⟨was, hunc⟩
      · exact fun mem => not_mem_nil (hem ▸ mem)
      · exact fun mem => hs.clear i c hh hpa was (hunc ▸ mem)
    | cancel | stop => exact hs.clear i c hh hpa hdrn
  · exact (hs.takes i c l (hs0 ▸ hh) is).append _
  · exact (hs.writes i c l (hs0 ▸ hh) is).imp id (.append _)

lemma Settled.advance (hs : Settled ss) (hea : (begun ss).Nodup) (j a) :
    Settled (ss ++ [.advance j a]) := by
  have st := after_append ss (.advance j a)
  cases hh : (after ss).calls[j]? with
  | none =>
    rw [step_advance_none hh] at st
    refine ⟨st ▸ hs.told, fun i c at' => ?_, fun i c l at' is => ?_, fun i c l at' is => ?_⟩
    · rw [st] at at' ⊢
      exact hs.clear i c at'
    · exact (hs.takes i c l (st ▸ at') is).append _
    · exact (hs.writes i c l (st ▸ at') is).imp id (.append _)
  | some c =>
    rw [step_advance_some hh] at st
    have cs {i : Nat} {d : LogCall α} (at' : (after (ss ++ [.advance j a])).calls[i]? = some d) :
        i = j ∧ d = (log (after ss).shared c a).2 ∨
          i ≠ j ∧ (after ss).calls[i]? = some d := by
      rw [st] at at'
      by_cases hij : i = j
      · subst hij
        rw [List.getElem?_set_self (List.getElem?_eq_some_iff.mp hh).1] at at'
        exact .inl ⟨rfl, (Option.some.inj at').symm⟩
      · rw [List.getElem?_set_ne (Ne.symm hij)] at at'
        exact .inr ⟨hij, at'⟩
    obtain ⟨pha, phaseWriting, pha0⟩ := log_phase (after ss).shared c a
    have hsh : (after (ss ++ [.advance j a])).shared = (log (after ss).shared c a).1 := by
      rw [st]
      rfl
    obtain ⟨sam0, sameStopping, -⟩ := log_same (after ss).shared c a
    refine ⟨?_, fun i d at' hpa hdrn => ?_, fun i d l at' is => ?_, fun i d l at' is => ?_⟩
    · rw [hsh, sam0, sameStopping]
      exact hs.told
    · rw [hsh, sam0] at hdrn
      rw [hsh]
      intro mem
      have hsp := hs.told (Goroutine.closing_of_drained hdrn)
      obtain ⟨rfl, rfl⟩ | ⟨ne, old⟩ := cs at'
      · obtain ⟨sam, was | hem | held | ope'⟩ := pha0 hpa
        all_goals rw [log_event, sam] at mem
        · exact hs.clear i c hh was hdrn mem
        · exact not_mem_nil (hem ▸ mem)
        · exact not_queued_of_holds hea (mem_of_getElem? hh) held mem
        · cases ope'.symm.trans hsp
      · refine hs.clear i d old hpa hdrn ((mem_log_queue mem).resolve_right fun own => ne ?_)
        exact event_inj hea old hh own.2
    · obtain ⟨rfl, rfl⟩ | ⟨-, old⟩ := cs at'
      · rcases pha l is with ⟨l', was⟩ | ⟨sent, stop⟩
        · exact (hs.takes i c l' hh was).append _
        · exact ⟨ss, a, [], c, rfl, hh, sent, stop⟩
      · exact (hs.takes i d l old is).append _
    · obtain ⟨rfl, rfl⟩ | ⟨-, old⟩ := cs at'
      · rw [log_event]
        rcases phaseWriting l is with ⟨l', was⟩ | rfl | ⟨l', was, sub⟩
        · exact .inr ((hs.takes i c l' hh was).append _)
        · exact .inl (by simp)
        · exact (hs.writes i c l' hh was).imp (fun own x mem => own x (sub mem)) (.append _)
      · exact (hs.writes i d l old is).imp id (.append _)

lemma settled_after (hdi : (begun ss).Nodup)
    (hsy : ∀ hb x rs, ss = hb ++ x :: rs → staysForStop (after hb).shared x) : Settled ss := by
  induction ss using reverseRecOn with
  | nil => constructor <;> simp [after, run, Goroutine.closing]
  | append_singleton ss x ih =>
    have hea : (begun ss).Nodup := by
      rw [begun, filterMap_append] at hdi
      exact hdi.of_append_left
    have hs := ih hea fun hb y rs split => hsy hb y (rs ++ [x]) (by simp [split])
    cases x with
    | start e => exact hs.start e
    | outside o => exact hs.outside (hsy ss _ [] rfl)
    | advance j a => exact hs.advance hea j a

/-- When `Stop` has returned because the goroutine ended, an event whose `Log` returned before is
stored once or reported, in every run in which the goroutine does not leave before `Stop`, and each
call that raced with `Stop` has returned. -/
theorem writer_drops_nothing (before rest : List (WriterStep α))
    (distinct : (begun (before ++ .outside .stop :: rest)).Nodup) (i : Nat) (e : α)
    (returned : (after before).calls[i]? = some ⟨e, .returned⟩)
    (ended : (after (before ++ .outside .stop :: rest)).shared.goroutine = .ended)
    (stays : ∀ past x later, before ++ .outside .stop :: rest = past ++ x :: later →
      staysForStop (after past).shared x)
    (raced : ∀ j c, (after (before ++ .outside .stop :: rest)).calls[j]? = some c →
      Raced (before ++ .outside .stop :: rest) j → c.phase = .returned) :
    (after (before ++ .outside .stop :: rest)).shared.stored.count e = 1 ∨
      e ∈ (after (before ++ .outside .stop :: rest)).shared.logged := by
  have hre := returned_append returned (.outside .stop :: rest)
  have hse := settled_after distinct stays
  have kp := kept_after (before ++ .outside .stop :: rest)
  generalize before ++ .outside .stop :: rest = steps at *
  have unq : e ∉ (after steps).shared.queue :=
    hse.clear i _ hre rfl (by rw [ended]; rfl)
  have unh : ∀ c ∈ (after steps).calls, e ∉ c.holds := by
    intro c mem hhe
    obtain ⟨j, at'⟩ := List.mem_iff_getElem?.mp mem
    have own : c.event ≠ e := by
      rintro rfl
      obtain rfl := event_inj distinct at' hre rfl
      have phase := congrArg LogCall.phase (Option.some.inj (at'.symm.trans hre))
      simp [LogCall.holds, phase] at hhe
    obtain ⟨event, phase⟩ := c
    cases phase with
    | enter | sending => exact own (mem_singleton.mp hhe).symm
    | sent | returned => cases hhe
    | taking l => cases raced j _ at' (hse.takes j _ l at' rfl)
    | writing l =>
      rcases hse.writes j _ l at' rfl with only | race
      · exact own (only e hhe).symm
      · cases raced j _ at' race
  have once := kp.once e
  rw [count_eq_one_of_mem distinct (kp.calls ▸ mem_map.mpr ⟨_, mem_of_getElem? hre, rfl⟩)] at once
  simp only [Writer.places, ended, Goroutine.holds, append_nil, count_append] at once
  have inQ := count_eq_zero.mpr unq
  have inH : ((after steps).calls.flatMap LogCall.holds).count e = 0 :=
    count_eq_zero.mpr fun mem =>
      have ⟨c, hi, hhe⟩ := mem_flatMap.mp mem
      unh c hi hhe
  by_cases lost : e ∈ (after steps).shared.lost
  · exact .inr (kp.reported.told e lost)
  · have := count_eq_zero.mpr lost
    exact .inl (by omega)

end

/-- A call on its own, with room in the queue and nobody stopping. -/
def logged (e i : Nat) : List (WriterStep Nat) := .start e :: List.replicate 3 (.advance i {})

def turn (branch : Branch) : WriterStep Nat := .outside (.goroutine { branch })

def ending (branch : Branch) (queued : Nat) : List (WriterStep Nat) :=
  List.replicate (5 + queued) (turn branch)

/-- The first call has returned and the second is at its send. -/
def beforeStop : List (WriterStep Nat) := logged 7 0 ++ [.start 8, .advance 1 {}]

/-- The second call takes both events from the queue before the goroutine leaves. -/
def racing : List (WriterStep Nat) := List.replicate 4 (.advance 1 {}) ++ ending .stopping 0

/-- The second call writes what it has taken. -/
def raceReturns : List (WriterStep Nat) := racing ++ List.replicate 3 (.advance 1 {})

theorem writer_drops_nothing_raced :
    (after (beforeStop ++ .outside .stop :: raceReturns)).shared.stored.count 7 = 1 ∨
      7 ∈ (after (beforeStop ++ .outside .stop :: raceReturns)).shared.logged := by
  have all : ∀ c ∈ (after (beforeStop ++ .outside .stop :: raceReturns)).calls,
      c.phase = .returned := by decide +kernel
  exact writer_drops_nothing beforeStop raceReturns (by decide +kernel) 0 7 (by decide +kernel)
    (by decide +kernel) (Prefix.forall_split (by decide +kernel))
    fun j c hh _ => all c (mem_of_getElem? hh)

/-- The context is cancelled before the event is queued. -/
def cancelledFirst : List (WriterStep Nat) :=
  .outside .cancel :: ending .cancelled 0 ++ logged 7 0 ++ [.outside .stop]

/-- The event is queued for nobody, or it is in the hands of a call that raced with `Stop` when the
goroutine has ended. -/
theorem cancelled_writer_drops :
    ((after cancelledFirst).shared.goroutine = .ended ∧
      (after cancelledFirst).calls = [⟨7, .returned⟩] ∧
      (after cancelledFirst).shared.queue = [7] ∧ (after cancelledFirst).shared.stored = [] ∧
      (after cancelledFirst).shared.logged = []) ∧
    (after (beforeStop ++ .outside .stop :: racing)).shared.goroutine = .ended ∧
      (after (beforeStop ++ .outside .stop :: racing)).calls =
        [⟨7, .returned⟩, ⟨8, .taking [7, 8]⟩] ∧
      (after (beforeStop ++ .outside .stop :: racing)).shared.stored = [] ∧
      (after (beforeStop ++ .outside .stop :: racing)).shared.logged = [] := by
  decide +kernel

end Gibson.AuditWriter
