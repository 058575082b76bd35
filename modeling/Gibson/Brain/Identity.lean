import Gibson.Brain.Reduce

/-! Host identity. A signal that an observation fills in may be the signal of another host. -/

namespace Gibson.Brain

open List Rows

def SharesSignal (a b : Host) : Prop :=
  a.scopeID = b.scopeID ∧
    ((a.sshHostKey ≠ "" ∧ a.sshHostKey = b.sshHostKey) ∨ (a.cloudID ≠ "" ∧ a.cloudID = b.cloudID))

instance (a b : Host) : Decidable (SharesSignal a b) := instDecidableAnd

/-- No two hosts of a scope carry the same strong signal. -/
def UniqueIdentity (x : Evidence) : Prop := x.hosts.Pairwise fun a b => ¬ SharesSignal a b

instance (x : Evidence) : Decidable (UniqueIdentity x) :=
  inferInstanceAs (Decidable (x.hosts.Pairwise fun a b => ¬ SharesSignal a b))

lemma SharesSignal.symm (h : SharesSignal a b) : SharesSignal b a := by
  obtain ⟨sc, ⟨hn, hs⟩ | ⟨hn, hs⟩⟩ := h
  · exact ⟨sc.symm, .inl ⟨hs ▸ hn, hs.symm⟩⟩
  · exact ⟨sc.symm, .inr ⟨hs ▸ hn, hs.symm⟩⟩

def Host.observe (e : HostObserved) (h : Host) : Host :=
  { h with
    sshHostKey := orKept h.sshHostKey e.sshHostKey
    cloudID := orKept h.cloudID e.cloudID
    missionID := orKept h.missionID e.missionID
    ports := reconcilePorts e h.ports }

def HostObserved.newHost (e : HostObserved) (id : Nat) (surprise : Option String) : Host where
  id := id
  scopeID := e.scopeID
  address := e.address
  sshHostKey := e.sshHostKey
  cloudID := e.cloudID
  missionID := e.missionID
  ports := reconcilePorts e []
  surprise := surprise

/-- Host ids are distinct and bounded. -/
structure HostIDs (x : Evidence) : Prop where
  nodup : (x.hosts.map Host.id).Nodup
  bound : ∀ h ∈ x.hosts, h.id ≤ x.nextHostID

section
variable {x : Evidence} {e : HostObserved}
variable {h : Host}

@[simp] lemma mem_hostQuery : h ∈ x.hostQuery ↔ h ∈ x.hosts := by
  unfold Evidence.hostQuery
  cases sur : h.surprise <;> simp [sur]

def Unmatched (x : Evidence) (e : HostObserved) : Prop := ∀ h ∈ x.hosts, strongMatch e h = false

lemma unmatched_of_find? (h : x.hostQuery.find? (strongMatch e) = none) : Unmatched x e :=
  fun y mem => by simpa using find?_eq_none.mp h y (mem_hostQuery.mpr mem)

lemma coordMatch_scope (m : coordMatch e h = true) : h.scopeID = e.scopeID := by
  simp only [coordMatch, Bool.and_eq_true, beq_iff_eq] at m
  exact m.1

lemma resolveHost_matched {id} (m : resolveHost x e = .matched id) :
    ∃ h ∈ x.hosts, h.id = id ∧ h.scopeID = e.scopeID ∧
      (strongMatch e h = true ∨ Unmatched x e) := by
  unfold resolveHost at m
  split at m
  · next h hf =>
    have str := find?_some hf
    exact ⟨h, mem_hostQuery.mp (mem_of_find?_eq_some hf), HostMatch.matched.inj m,
      by simp only [strongMatch, Bool.and_eq_true, beq_iff_eq] at str; exact str.1,
      .inl str⟩
  · next none =>
    split at m
    · next h hf =>
      split at m
      · cases m
      · exact ⟨h, mem_hostQuery.mp (mem_of_find?_eq_some hf), HostMatch.matched.inj m,
          coordMatch_scope (find?_some hf), .inr (unmatched_of_find? none)⟩
    · cases m

lemma applyHostObserved_cases (ids : HostIDs x) (e) :
    (∃ surprise, (∀ id, resolveHost x e ≠ .matched id) ∧
      (applyHostObserved x e).hosts = x.hosts ++ [e.newHost (x.nextHostID + 1) surprise] ∧
      (applyHostObserved x e).nextHostID = x.nextHostID + 1) ∨
    (∃ pre h post, x.hosts = pre ++ h :: post ∧ resolveHost x e = .matched h.id ∧
      h.scopeID = e.scopeID ∧ (strongMatch e h = true ∨ Unmatched x e) ∧
      (applyHostObserved x e).hosts = pre ++ h.observe e :: post ∧
      (applyHostObserved x e).nextHostID = x.nextHostID) := by
  unfold applyHostObserved
  cases m : resolveHost x e with
  | contradiction => exact .inl ⟨some surpriseReason, by simp, rfl, rfl⟩
  | unmatched => exact .inl ⟨none, by simp, rfl, rfl⟩
  | matched id =>
    obtain ⟨h, mem, rfl, sc, str⟩ := resolveHost_matched m
    obtain ⟨pre, post, split⟩ := append_of_mem mem
    refine .inr ⟨pre, h, post, split, rfl, sc, str, ?_, rfl⟩
    have hnd := ids.nodup
    rw [split, map_append, map_cons, nodup_append] at hnd
    have os : ∀ y ∈ pre, (y.id == h.id) = false := by
      intro y mem
      have hpt := hnd.2.2 y.id (mem_map_of_mem mem) h.id mem_cons_self
      simpa using hpt
    show updateFirst (·.id == h.id) (Host.observe e) x.hosts = _
    rw [split]
    exact updateFirst_append_cons (Host.observe e) os (by simp) post

lemma HostIDs.observed (ids : HostIDs x) (e) : HostIDs (applyHostObserved x e) := by
  obtain ⟨sur, -, hos, nx⟩ | ⟨pre, h, post, split, -, -, -, hos, nx⟩ :=
    applyHostObserved_cases ids e
  · constructor
    · rw [hos, map_append, nodup_append]
      refine ⟨ids.nodup, by simp, ?_⟩
      intro a ha b hb
      obtain ⟨y, mem, rfl⟩ := mem_map.mp ha
      have hfr : b = x.nextHostID + 1 := by simpa [HostObserved.newHost] using hb
      have := ids.bound y mem
      omega
    · intro y mem
      rw [hos] at mem
      rw [nx]
      rcases mem_append.mp mem with mem | mem
      · have := ids.bound y mem
        omega
      · obtain rfl := mem_singleton.mp mem
        exact Nat.le_refl _
  · have hs : (applyHostObserved x e).hosts.map Host.id = x.hosts.map Host.id := by
      rw [hos, split]
      simp [Host.observe]
    constructor
    · rw [hs]
      exact ids.nodup
    intro y mem
    have hl := hs ▸ mem_map_of_mem (f := Host.id) mem
    obtain ⟨z, mem, id⟩ := mem_map.mp hl
    rw [nx, ← id]
    exact ids.bound z mem

def FillsIn (e : HostObserved) (h other : Host) : Prop :=
  other.scopeID = e.scopeID ∧
    ((h.sshHostKey = "" ∧ e.sshHostKey ≠ "" ∧ other.sshHostKey = e.sshHostKey) ∨
      (h.cloudID = "" ∧ e.cloudID ≠ "" ∧ other.cloudID = e.cloudID))

/-- The host that an observation is matched with lacks a signal of the observation, and a host of
the scope has it. -/
def Bridges (x : Evidence) (e : HostObserved) : Prop :=
  ∃ h ∈ x.hosts, resolveHost x e = .matched h.id ∧ ∃ other ∈ x.hosts, FillsIn e h other

lemma SharesSignal.observe (sha : SharesSignal h other) (e) :
    SharesSignal (h.observe e) other := by
  obtain ⟨sc, ⟨hn, hs⟩ | ⟨hn, hs⟩⟩ := sha
  · have kp : (h.observe e).sshHostKey = h.sshHostKey := if_pos hn
    exact ⟨sc, .inl (kp.symm ▸ ⟨hn, hs⟩)⟩
  · have kp : (h.observe e).cloudID = h.cloudID := if_pos hn
    exact ⟨sc, .inr (kp.symm ▸ ⟨hn, hs⟩)⟩

lemma sharesSignal_observe_iff (sc : h.scopeID = e.scopeID)
    (hpt : ¬ SharesSignal h other) : SharesSignal (h.observe e) other ↔ FillsIn e h other := by
  unfold SharesSignal FillsIn Host.observe orKept at *
  by_cases key : h.sshHostKey = ""
  · by_cases clo : h.cloudID = ""
    · simp only [key, clo, ne_eq, not_true_eq_false, if_false, true_and]
      grind
    · grind
  · grind

lemma pairwise_middle :
    (pre ++ h :: post).Pairwise (fun a b => ¬ SharesSignal a b) ↔
      (pre ++ post).Pairwise (fun a b => ¬ SharesSignal a b) ∧
        ∀ other ∈ pre ++ post, ¬ SharesSignal h other := by
  rw [List.pairwise_middle fun hpt sha => hpt (SharesSignal.symm sha),
    List.pairwise_cons, and_comm]

lemma bridges_iff (ids : HostIDs x) (split : x.hosts = pre ++ h :: post)
    (matched : resolveHost x e = .matched h.id) :
    Bridges x e ↔ ∃ ho ∈ pre ++ post, FillsIn e h ho := by
  have hh : h ∈ x.hosts := by simp [split]
  constructor
  · rintro ⟨h', mem', mat', ho, mem, fil⟩
    have hs : h' = h := inj_on_of_nodup_map ids.nodup mem' hh
      (HostMatch.matched.inj (mat'.symm.trans matched))
    subst hs
    refine ⟨ho, ?_, fil⟩
    rw [split] at mem
    have hpt : ho ≠ h' := by
      rintro rfl
      obtain ⟨-, ⟨hem, hn, hs⟩ | ⟨hem, hn, hs⟩⟩ := fil
      · exact hn (hs.symm.trans hem)
      · exact hn (hs.symm.trans hem)
    simpa [hpt] using mem
  · rintro ⟨ho, mem, fil⟩
    refine ⟨h, hh, matched, ho, ?_, fil⟩
    rw [split]
    simp only [mem_append, mem_cons] at mem ⊢
    tauto

lemma uniqueIdentity_observed_iff (ids : HostIDs x) (e) :
    UniqueIdentity (applyHostObserved x e) ↔ UniqueIdentity x ∧ ¬ Bridges x e := by
  unfold UniqueIdentity
  obtain ⟨sur, none, hos, -⟩ | ⟨pre, h, post, split, matched, sc, -, hos, -⟩ :=
    applyHostObserved_cases ids e
  · have free : Unmatched x e := by
      unfold resolveHost at none
      split at none
      · next h _ => exact absurd rfl (none h.id)
      · next hf => exact unmatched_of_find? hf
    have hpt : ¬ Bridges x e := by
      rintro ⟨h, -, matched, -⟩
      exact none h.id matched
    rw [hos, pairwise_append]
    constructor
    · rintro ⟨hun, -, -⟩
      exact ⟨hun, hpt⟩
    rintro ⟨hun, -⟩
    refine ⟨hun, pairwise_singleton _ _, fun a mem b new => ?_⟩
    obtain rfl := mem_singleton.mp new
    rintro ⟨sc, hsh⟩
    have mat := free a mem
    simp only [HostObserved.newHost] at sc hsh
    simp only [strongMatch, sc, beq_self_eq_true, Bool.true_and, Bool.or_eq_false_iff] at mat
    obtain ⟨hn, hs⟩ | ⟨hn, hs⟩ := hsh <;> simp [← hs, hn] at mat
  · rw [bridges_iff ids split matched, hos, split, pairwise_middle, pairwise_middle, and_assoc]
    refine and_congr_right fun _ => ?_
    constructor
    · intro hun
      have hb : ∀ ho ∈ pre ++ post, ¬ SharesSignal h ho :=
        fun ho mem sha => hun ho mem (sha.observe e)
      refine ⟨hb, ?_⟩
      rintro ⟨ho, mem, fil⟩
      exact hun ho mem ((sharesSignal_observe_iff sc (hb ho mem)).mpr fil)
    · rintro ⟨hb, none⟩ ho mem sha
      exact none ⟨ho, mem, (sharesSignal_observe_iff sc (hb ho mem)).mp sha⟩

end

def Host.identity (h : Host) : Nat × String × String × String :=
  (h.id, h.scopeID, h.sshHostKey, h.cloudID)

/-- The hosts keep their identities. -/
structure SameIdentities (x y : Evidence) : Prop where
  hosts : y.hosts.map Host.identity = x.hosts.map Host.identity
  next : y.nextHostID = x.nextHostID

lemma SameIdentities.updateHost (x) (id : Nat) {f : Host → Host}
    (hf : ∀ h, (f h).identity = h.identity) : SameIdentities x (updateHost x id f) :=
  ⟨map_updateFirst Host.identity x.hosts fun h _ => hf h, rfl⟩

/-- What an event keeps where it is none of the kinds that write it. -/
structure Untouched (ev : Event) (x y : Evidence) : Prop where
  identities : (∀ e, ev ≠ .hostObserved e) → SameIdentities x y
  actions : (∀ e, ev ≠ .destructiveActionRequested e) →
    (∀ e, ev ≠ .destructiveActionDecided e) → y.destructiveActions = x.destructiveActions
  calls : (∀ e, ev ≠ .llmCallObserved e) → (∀ e, ev ≠ .agentToolCallObserved e) →
    (∀ e, ev ≠ .flightRecorderRetentionSwept e) →
      y.llmCalls = x.llmCalls ∧ y.agentToolCalls = x.agentToolCalls
  findings : (∀ e, ev ≠ .findingRaised e) → (∀ e, ev ≠ .findingStatusChanged e) →
    y.findings = x.findings
  ontology : (∀ e, ev ≠ .ontologyExtensionProposed e) →
    (∀ e, ev ≠ .ontologyExtensionApproved e) → (∀ e, ev ≠ .ontologyExtensionRejected e) →
      y.ontologyGate = x.ontologyGate ∧ y.ontologyProposals = x.ontologyProposals
  settlements : (∀ e, ev ≠ .betSettledTrue e) → (∀ e, ev ≠ .betSettledFalse e) →
    (∀ e, ev ≠ .betSettledByHITL e) → y.betSettlements = x.betSettlements

lemma untouched_applyEvent (env w ev) : Untouched ev w.evidence (applyEvent env w ev).evidence := by
  cases ev with
  | hostObserved e =>
    simp only [applyEvent, applyHostObserved]
    split
    all_goals
      refine ⟨fun ho => absurd rfl (ho e), ?_, ?_, ?_, ?_, ?_⟩ <;> intros <;> trivial
  | beliefScoreRequested e =>
    refine ⟨fun _ => .updateHost w.evidence e.hostID fun _ => rfl, ?_, ?_, ?_, ?_, ?_⟩ <;>
      intros <;> trivial
  | beliefScored e =>
    refine ⟨fun _ => .updateHost w.evidence e.hostID fun h => by split <;> rfl, ?_, ?_, ?_, ?_, ?_⟩
    all_goals intros; trivial
  | _ =>
    -- The other reducers write stores of their own, or nothing.
    first
    | refine ⟨fun _ => ⟨rfl, rfl⟩, ?_, ?_, ?_, ?_, ?_⟩ <;> intros <;> trivial
    | simp only [applyEvent, applyDomainObserved, applySubdomainObserved,
        applyCredentialObserved, applyAccountObserved, applyNodeBeliefSet,
        applyEdgeOutcomeObserved, applyFindingRaised, applyFindingStatusChanged,
        applyAgentRunObserved,
        applyHypothesisObserved, applyBetSettledTrue, applyBetSettledFalse, applyBetSettledByHITL,
        recordSettlement, applyBetProofSubmittedForReview, applyDestructiveActionRequested,
        applyDestructiveActionDecided, applyLlmCallObserved, applyAgentToolCallObserved,
        applyFlightRecorderRetentionSwept, applyObservationRecorded, applyEntityObserved,
        applyOntologyExtensionProposed, applyOntologyExtensionApproved,
        applyOntologyExtensionRejected, promoteIfSettled]
      repeat' split
      all_goals exact ⟨fun _ => ⟨rfl, rfl⟩, by simp, by simp, by simp, by simp, by simp⟩

lemma SameIdentities.hostIDs (hs : SameIdentities x y) (ids : HostIDs x) : HostIDs y := by
  have ids0 (z : Evidence) : z.hosts.map Host.id = (z.hosts.map Host.identity).map Prod.fst := by
    rw [map_map]
    rfl
  have hl : y.hosts.map Host.id = x.hosts.map Host.id := by rw [ids0, ids0, hs.hosts]
  constructor
  · rw [hl]
    exact ids.nodup
  intro h mem
  obtain ⟨z, mem, id⟩ := mem_map.mp (hl ▸ mem_map_of_mem (f := Host.id) mem)
  rw [hs.next, ← id]
  exact ids.bound z mem

lemma SameIdentities.unique_iff (hs : SameIdentities x y) :
    UniqueIdentity y ↔ UniqueIdentity x := by
  have rd (z : Evidence) : UniqueIdentity z ↔
      (z.hosts.map Host.identity).Pairwise fun a b => ¬ (a.2.1 = b.2.1 ∧
        ((a.2.2.1 ≠ "" ∧ a.2.2.1 = b.2.2.1) ∨ (a.2.2.2 ≠ "" ∧ a.2.2.2 = b.2.2.2))) := by
    rw [pairwise_map]
    rfl
  rw [rd, rd, hs.hosts]

lemma untouched_reduce (env w ev) : Untouched ev w.evidence (reduce env w ev).evidence := by
  unfold reduce
  split
  · refine ⟨fun _ => ⟨rfl, rfl⟩, ?_, ?_, ?_, ?_, ?_⟩ <;> intros <;> trivial
  · have frame := untouched_applyEvent env w (detachEvidence ev)
    cases ev <;> first
      | exact frame
      | obtain ⟨identities, actions, calls, findings, ontology, settlements⟩ := frame
        constructor <;> simp_all [detachEvidence]
  · exact untouched_applyEvent env w ev

lemma reduce_hostObserved (env w e) :
    ∃ missionID, (reduce env w (.hostObserved e)).evidence =
      applyHostObserved w.evidence { e with missionID } := by
  have vd : (checkRun w.control (.hostObserved e)).verdict ≠ .runDropped := by
    simp only [checkRun, missionRunCheck]
    split
    · simp
    split
    · simp
    · split <;> simp
  unfold reduce
  cases check : (checkRun w.control (.hostObserved e)).verdict with
  | runDropped => exact absurd check vd
  | runDetached => exact ⟨"", rfl⟩
  | runCurrent => exact ⟨e.missionID, rfl⟩

lemma hostIDs_replay (env tenant events) : HostIDs (replay env tenant events).evidence := by
  refine foldlRecOn (motive := fun w : World => HostIDs w.evidence) events _ ?_ fun w ids ev _ => ?_
  · exact ⟨nodup_nil, by simp [newWorld]⟩
  cases ev with
  | hostObserved e =>
    obtain ⟨mid, hfo⟩ := reduce_hostObserved env w e
    rw [hfo]
    exact ids.observed _
  | _ => exact ((untouched_reduce env w _).identities (by simp)).hostIDs ids

lemma uniqueIdentity_replay_iff (env tn evs) :
    UniqueIdentity (replay env tn evs).evidence ↔
      ∀ pre e, pre ++ [.hostObserved e] <+: evs →
        ¬ Bridges (replay env tn pre).evidence e := by
  induction evs using reverseRecOn with
  | nil =>
    refine iff_of_true List.Pairwise.nil fun pre e cut => ?_
    simp at cut
  | append_singleton evs ev ih =>
    rw [replay_append_singleton]
    simp only [prefix_concat_iff]
    by_cases ho : ∀ e, ev ≠ .hostObserved e
    · rw [((untouched_reduce env _ ev).identities ho).unique_iff, ih]
      refine forall_congr' fun pre => forall_congr' fun e => imp_congr_left ?_
      refine (or_iff_right fun cut => ho e ?_).symm
      exact (append_inj_right' cut rfl |> singleton_inj.mp).symm
    · obtain ⟨e, rfl⟩ : ∃ e, ev = .hostObserved e := by simpa using ho
      obtain ⟨mid, hfo⟩ := reduce_hostObserved env (replay env tn evs) e
      rw [hfo, uniqueIdentity_observed_iff (hostIDs_replay env tn evs),
        ih]
      constructor
      · rintro ⟨hea, hlt⟩ pre e' (cut | cut)
        · obtain ⟨rfl, hs⟩ := append_inj' cut rfl
          obtain rfl := Event.hostObserved.inj (singleton_inj.mp hs)
          exact hlt
        · exact hea pre e' cut
      · intro all
        exact ⟨fun pre e' cut => all pre e' (.inr cut), all evs e (.inl rfl)⟩

/-- Of the hosts, one of the scope of the observation is new or rewritten with it, and every other
one stays as it is. -/
def FoldedIntoOne (e : HostObserved) (x y : Evidence) : Prop :=
  ∃ pre post h missionID, h.scopeID = e.scopeID ∧ y.hosts = pre ++ h :: post ∧
    ((∃ id surprise, h = HostObserved.newHost { e with missionID } id surprise ∧
        x.hosts = pre ++ post) ∨
      ∃ h₀, h = h₀.observe { e with missionID } ∧ x.hosts = pre ++ h₀ :: post)

/-- Every observation went into exactly one host of its scope; and no two hosts of a scope share a
strong signal exactly if no observation bridged two hosts when it was folded. -/
theorem hostIdentity_unique_iff (env : Env) (tenant : String) (events : List Event) :
    (UniqueIdentity (replay env tenant events).evidence ∧
      ∀ pre e, pre ++ [.hostObserved e] <+: events →
        FoldedIntoOne e (replay env tenant pre).evidence
          (replay env tenant (pre ++ [.hostObserved e])).evidence) ↔
      ∀ pre e, pre ++ [.hostObserved e] <+: events →
        ¬ Bridges (replay env tenant pre).evidence e := by
  rw [uniqueIdentity_replay_iff]
  refine and_iff_left fun pre e _ => ?_
  rw [replay_append_singleton]
  obtain ⟨missionID, folded⟩ := reduce_hostObserved env (replay env tenant pre) e
  rw [folded]
  obtain ⟨surprise, -, hosts, -⟩ | ⟨before, h, after, split, -, scope, -, hosts, -⟩ :=
    applyHostObserved_cases (hostIDs_replay env tenant pre) { e with missionID }
  · exact ⟨_, [], _, missionID, rfl, hosts, .inl ⟨_, surprise, rfl, by simp⟩⟩
  · exact ⟨before, after, h.observe { e with missionID }, missionID, scope, hosts,
      .inr ⟨h, rfl, split⟩⟩

/-- A host known by its key, another known by its cloud id, then a scan that reads both signals from
the first address. -/
def bridgedHosts : List Event :=
  [.hostObserved { scopeID := "s", address := "10.0.0.1", sshHostKey := "k" },
   .hostObserved { scopeID := "s", address := "10.0.0.2", cloudID := "c" },
   .hostObserved { scopeID := "s", address := "10.0.0.1", sshHostKey := "k", cloudID := "c" }]

/-- The first host gets the cloud id that the second one carries. -/
theorem hostIdentity_bridged : ¬ UniqueIdentity (replay Env.plain "t" bridgedHosts).evidence := by
  decide

end Gibson.Brain
