import Gibson.Brain.Identity

/-! The text of calls that a retention sweep has removed, and later observations of the calls. -/

namespace Gibson.Brain

open List Rows

/-- No row that started before the cutoff has text other than the placeholder. -/
def SweptRows {α : Type} (time : α → Int) (purge : α → α) (cutoff : Int) (rows : List α) : Prop :=
  ∀ c ∈ rows, isSwept (time c) cutoff = true → purge c = c

/-- Records before the cutoff are purged. -/
structure Swept (cutoff : Int) (x : Evidence) : Prop where
  llmCalls : SweptRows LlmCall.recordedAtUnixNano LlmCall.purge cutoff x.llmCalls
  agentToolCalls :
    SweptRows AgentToolCall.recordedAtUnixNano AgentToolCall.purge cutoff x.agentToolCalls

/-- The observation has a text that the record lacks. The sweep leaves no tool calls on record. -/
def LlmCallObserved.refills (e : LlmCallObserved) (c : LlmCall) : Bool :=
  c.messages.isEmpty && !e.messages.isEmpty || c.completion == "" && e.completion != "" ||
    !e.completionToolCalls.isEmpty

def AgentToolCallObserved.refills (e : AgentToolCallObserved) (c : AgentToolCall) : Bool :=
  c.arguments == "" && e.arguments != "" || c.result == "" && e.result != ""

/-- A call without a start time gets one before the cutoff, or a swept call gets a text again. -/
def reopened {α : Type} (cutoff started : Int) (time : α → Int) (refills : α → Bool) :
    Option α → Bool
  | none => isSwept started cutoff
  | some c =>
    if time c = 0 then isSwept started cutoff else isSwept (time c) cutoff && refills c

def reopens (cutoff : Int) (x : Evidence) : Event → Bool
  | .llmCallObserved e => reopened cutoff e.recordedAtUnixNano LlmCall.recordedAtUnixNano e.refills
      (x.llmCalls.find? (·.callID == e.callID))
  | .agentToolCallObserved e => reopened cutoff e.recordedAtUnixNano
      AgentToolCall.recordedAtUnixNano e.refills
      (x.agentToolCalls.find? (·.toolCallID == e.toolCallID))
  | _ => false

lemma LlmCall.purge_purge (c : LlmCall) : c.purge.purge = c.purge := by
  unfold purge
  congr 1 <;> grind

lemma AgentToolCall.purge_purge (c : AgentToolCall) : c.purge.purge = c.purge := by
  unfold purge
  congr 1 <;> grind

section
variable {α : Type} {purge : α → α}

lemma sweptRows_map (idem : ∀ c, purge (purge c) = purge c) {hla : Int}
    (hsw : SweptRows time purge cutoff rows ∨ hla = cutoff) : SweptRows time purge cutoff
      (rows.map fun c => if isSwept (time c) hla then purge c else c) := by
  intro c mem
  obtain ⟨d, hl, rfl⟩ := mem_map.mp mem
  split
  · exact fun _ => idem d
  next you =>
  obtain hsw | rfl := hsw
  · exact hsw d hl
  · exact fun old => absurd old you

lemma sweptRows_upsert {p : α → Bool} {f : α → α} (hsw : SweptRows time purge cutoff rows)
    (hlt : reopened cutoff started time refills (rows.find? p) = false)
    (tim : ∀ c, time (f c) = if time c = 0 then started else time c)
    (kp : ∀ c, purge c = c → refills c = false → purge (f c) = f c)
    (new : time fresh = started) : SweptRows time purge cutoff (upsert p f fresh rows) := by
  intro c mem old
  unfold upsert at mem
  cases hf : rows.find? p with
  | none =>
    rw [hf] at hlt
    rw [if_neg (by simpa using List.find?_eq_none.mp hf)] at mem
    obtain mem | rfl := (mem_append.mp mem).imp_right mem_singleton.mp
    · exact hsw c mem old
    · cases hlt.symm.trans (new ▸ old)
  | some d =>
    rw [if_pos (any_eq_true.mpr ⟨d, mem_of_find?_eq_some hf, find?_some hf⟩)] at mem
    obtain ⟨hb, post, rfl, -, hup⟩ := updateFirst_split f hf
    rw [hup] at mem
    obtain mem | rfl | mem := (mem_append.mp mem).imp_right mem_cons.mp
    · exact hsw c (mem_append_left _ mem) old
    · rw [hf, reopened] at hlt
      rw [tim] at old
      split at hlt
      · next unt => cases hlt.symm.trans (if_pos unt ▸ old)
      · next set =>
        rw [if_neg set] at old
        refine kp d (hsw d (by simp) old) ?_
        simpa [old] using hlt
    · exact hsw c (mem_append_right _ (mem_cons_of_mem _ mem)) old

end

lemma Swept.applyEvent (env w) (hsw : Swept cutoff w.evidence)
    (hlt : reopens cutoff w.evidence ev = false) :
    Swept cutoff (applyEvent env w ev).evidence := by
  have ho := (untouched_applyEvent env w ev).calls
  cases ev with
  | llmCallObserved e =>
    show Swept cutoff (applyLlmCallObserved env w.evidence e)
    unfold applyLlmCallObserved
    split
    · exact hsw
    refine ⟨sweptRows_upsert hsw.llmCalls hlt (fun _ => rfl) ?_ rfl, hsw.agentToolCalls⟩
    intro c hem lac
    cases c
    simp [LlmCall.purge, LlmCallObserved.refills] at hem lac ⊢
    obtain ⟨⟨sam0, sam⟩, noC⟩ := lac
    refine ⟨?_, ?_, by simp [hem, noC, redactToolCalls]⟩
    · split <;> simp_all [redactMessages]
    · grind [redactForTenant, orKept]
  | agentToolCallObserved e =>
    show Swept cutoff (applyAgentToolCallObserved env w.evidence e)
    unfold applyAgentToolCallObserved
    split
    · exact hsw
    refine ⟨hsw.llmCalls, sweptRows_upsert hsw.agentToolCalls hlt (fun _ => rfl) ?_ rfl⟩
    intro c hem lac
    unfold AgentToolCallObserved.refills at lac
    cases c
    simp only [AgentToolCall.purge, AgentToolCall.mk.injEq] at hem ⊢
    grind [redactForTenant, orKept]
  | flightRecorderRetentionSwept e =>
    show Swept cutoff (applyFlightRecorderRetentionSwept w.evidence e)
    unfold applyFlightRecorderRetentionSwept
    split
    · exact hsw
    · exact ⟨sweptRows_map LlmCall.purge_purge (.inl hsw.llmCalls),
        sweptRows_map AgentToolCall.purge_purge (.inl hsw.agentToolCalls)⟩
  | _ =>
    obtain ⟨llm, tool⟩ := ho (by simp) (by simp) (by simp)
    exact ⟨llm ▸ hsw.llmCalls, tool ▸ hsw.agentToolCalls⟩

lemma Swept.reduce (env w) (hsw : Swept cutoff w.evidence)
    (hlt : reopens cutoff w.evidence ev = false) : Swept cutoff (reduce env w ev).evidence := by
  unfold Brain.reduce
  split
  · exact hsw
  · exact hsw.applyEvent env w (by cases ev <;> exact hlt)
  · exact hsw.applyEvent env w hlt

/-- After a sweep, no call that started before its cutoff has text again, as long as no later
observation reopens one. -/
theorem sweep_permanent (env : Env) (tenant : String) (events more : List Event) (cutoff : Int)
    (set : cutoff ≠ 0) :
    let w := replay env tenant
      (events ++ [.flightRecorderRetentionSwept { cutoffUnixNano := cutoff }])
    (∀ pre ev, pre ++ [ev] <+: more → reopens cutoff (reduceAll env w pre).evidence ev = false) →
      Swept cutoff (reduceAll env w more).evidence := by
  intro w hlt
  induction more using List.reverseRecOn with
  | nil =>
    show Swept cutoff (replay env tenant _).evidence
    rw [replay_append_singleton]
    show Swept cutoff (applyFlightRecorderRetentionSwept _ { cutoffUnixNano := cutoff })
    rw [applyFlightRecorderRetentionSwept, if_neg set]
    exact ⟨sweptRows_map LlmCall.purge_purge (.inr rfl),
      sweptRows_map AgentToolCall.purge_purge (.inr rfl)⟩
  | append_singleton more ev ih =>
    rw [reduceAll_append]
    refine Swept.reduce env _ (ih fun pre e cut => hlt pre e (cut.trans (prefix_append _ _))) ?_
    exact hlt more ev prefix_rfl

/-- A call that started at 1. -/
def oldCall (calls : List LlmToolCall) : Event :=
  .llmCallObserved
    { callID := "c", runID := "r", model := "m", scopeID := "s", promptTokens := 1,
      completionTokens := 1, messages := [], completion := "done", completionToolCalls := calls,
      recordedAtUnixNano := 1 }

def sshCall : LlmToolCall := { id := "t", type := "function", name := "ssh", arguments := "key" }

/-- The same observation, delivered again after the sweep, brings the tool call back. -/
theorem sweep_undone :
    (replay Env.plain "t" [oldCall [sshCall], .flightRecorderRetentionSwept { cutoffUnixNano := 2 },
      oldCall [sshCall]]).evidence.llmCalls.any (fun c => isSwept c.recordedAtUnixNano 2 &&
        c.completionToolCalls.any (·.arguments == "key")) = true := by
  decide

theorem sweep_permanent_redelivered :
    Swept 2 (reduceAll Env.plain (replay Env.plain "t"
      ([oldCall []] ++ [.flightRecorderRetentionSwept { cutoffUnixNano := 2 }]))
        [oldCall []]).evidence := by
  refine sweep_permanent Env.plain "t" [oldCall []] _ 2 (by decide) fun pre ev cut => ?_
  obtain rfl : pre = [] := by simpa using cut.length_le
  obtain rfl : ev = _ := by simpa using cut
  decide

end Gibson.Brain
