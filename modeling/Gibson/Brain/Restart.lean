import Gibson.Brain.Identity
import Gibson.Brain.Restore

/-! The ontology proposals and the settlements over a restore. -/

namespace Gibson.Brain

open List Rows

/-- The ontology state of a World, by itself. -/
def Evidence.ontology (x : Evidence) : Evidence where
  ontologyGate := x.ontologyGate
  ontologyProposals := x.ontologyProposals

@[simp] def ontologyStep (x : Evidence) : Event → Evidence
  | .ontologyExtensionProposed e => applyOntologyExtensionProposed x e
  | .ontologyExtensionApproved e => applyOntologyExtensionApproved x e
  | .ontologyExtensionRejected e => applyOntologyExtensionRejected x e
  | _ => x

lemma ontology_reduce (env w ev) :
    (reduce env w ev).evidence.ontology = ontologyStep w.evidence.ontology ev := by
  have hkp := (untouched_reduce env w ev).ontology
  cases ev with
  | ontologyExtensionProposed e | ontologyExtensionApproved e | ontologyExtensionRejected e =>
    simp only [reduce, checkRun, applyEvent, ontologyStep, applyOntologyExtensionProposed,
      applyOntologyExtensionApproved, applyOntologyExtensionRejected, promoteIfSettled,
      Evidence.ontology]
    repeat' split
    all_goals first | rfl | simp_all
  | _ =>
    obtain ⟨gate, pro⟩ := hkp (by simp) (by simp) (by simp)
    simp only [Evidence.ontology, gate, pro, ontologyStep]

lemma ontology_reduceAll (env w evs) :
    (reduceAll env w evs).evidence.ontology = evs.foldl ontologyStep w.evidence.ontology := by
  induction evs generalizing w with
  | nil => rfl
  | cons ev evs ih =>
    rw [reduceAll_cons, ih, ontology_reduce]
    rfl

@[simp] def Event.settles : Event → Bool
  | .betSettledTrue _ | .betSettledFalse _ | .betSettledByHITL _ => true
  | _ => false

/-- It leaves the ontology state and the settlements as they are. -/
@[simp] def Silent (ev : Event) : Prop := ev.settles = false ∧ ∀ x, ontologyStep x ev = x

def Evidence.record (x : Evidence) : Evidence × List BetSettlement := (x.ontology, x.betSettlements)

lemma record_reduce (env w) (hsil : Silent ev) :
    (reduce env w ev).evidence.record = w.evidence.record := by
  have set0 : (reduce env w ev).evidence.betSettlements = w.evidence.betSettlements := by
    apply (untouched_reduce env w ev).settlements <;> (rintro e rfl; cases hsil.1)
  rw [Evidence.record, ontology_reduce, hsil.2, set0]
  rfl

lemma silent_restoreEvents :
    (∀ m : Mission, ∀ ev ∈ m.restoreEvents, Silent ev) ∧
      (∀ wi : WorkItem, ∀ ev ∈ wi.restoreEvents, Silent ev) ∧
      (∀ a : DestructiveAction, ∀ ev ∈ a.restoreEvents, Silent ev) ∧
      (∀ p : VoIPlanState, ∀ ev ∈ p.restoreEvents, Silent ev) ∧
      ∀ d : DecisionRecord, ∀ ev ∈ d.restoreEvents, Silent ev := by
  refine ⟨fun m => ?_, fun wi => ?_, fun a => ?_, fun p => ?_, fun d => ?_⟩
  · unfold Mission.restoreEvents
    cases m.status <;> simp
  · unfold WorkItem.restoreEvents
    cases wi.state <;> simp [WorkItem.dispatchEvent]
  · unfold DestructiveAction.restoreEvents
    split <;> simp
  · unfold VoIPlanState.restoreEvents
    split <;> simp
  · unfold DecisionRecord.restoreEvents
    split <;> simp

/-- Of all that a restore folds, only the settlements write these stores. -/
lemma record_restoreWorld (env d tenant) : ∃ w : World, w.evidence.record = ({}, []) ∧
    (restoreWorld env d tenant).evidence.record =
      (reduceAll env w (d.betSettlements.map BetSettlement.event)).evidence.record := by
  have fil {w evs} (hsil : ∀ ev ∈ evs, Silent ev) :
      (reduceAll env w evs).evidence.record = w.evidence.record :=
    List.foldlRecOn (motive := fun w' : World => w'.evidence.record = w.evidence.record) evs _
      rfl fun w' hs ev mem => (record_reduce env w' (hsil ev mem)).trans hs
  have rw0 {w} {α : Type} {l : List α} {event : α → Event} (hsil : ∀ a, Silent (event a)) :
      (reduceAll env w (l.map event)).evidence.record = w.evidence.record :=
    fil (forall_mem_map.mpr fun a _ => hsil a)
  have gps {w} {α : Type} {l : List α} {evs : α → List Event}
      (hsil : ∀ a, ∀ ev ∈ evs a, Silent ev) :
      (reduceAll env w (l.flatMap evs)).evidence.record = w.evidence.record :=
    fil fun ev mem => by
      obtain ⟨a, -, mem⟩ := mem_flatMap.mp mem
      exact hsil a ev mem
  obtain ⟨ms, work, acs, pla, dcs⟩ := silent_restoreEvents
  refine ⟨?_, ?_, ?_⟩
  rotate_left 2
  · simp only [restoreWorld, restoreCounters, restoreStores]
    repeat first
      | refine (rw0 fun _ => ⟨rfl, fun _ => rfl⟩).trans ?_
      | refine (gps acs).trans ?_
      | refine (gps pla).trans ?_
      | refine (gps dcs).trans ?_
    exact rfl
  repeat refine (rw0 fun _ => ⟨rfl, fun _ => rfl⟩).trans ?_
  refine List.foldlRecOn (motive := fun w : World => w.evidence.record = ({}, [])) _ _ ?_
    fun w s0 wi _ => (fil (work wi)).trans s0
  refine (gps ms).trans ((rw0 fun _ => ⟨rfl, fun _ => rfl⟩).trans ?_)
  exact record_reduce env _ ⟨rfl, fun _ => rfl⟩

lemma ontology_restoreWorld (env d tn) :
    (restoreWorld env d tn).evidence.ontology = {} := by
  obtain ⟨w, s0, restored⟩ := record_restoreWorld env d tn
  refine (congrArg Prod.fst restored).trans ((ontology_reduceAll env w _).trans ?_)
  refine List.foldlRecOn (motive := (· = ({} : Evidence))) _ _ (congrArg Prod.fst s0) ?_
  intro x hem ev mem
  obtain ⟨s, -, rfl⟩ := mem_map.mp mem
  unfold BetSettlement.event
  split <;> exact hem

lemma recorded_promoteIfSettled (x key s) :
    ((promoteIfSettled x key s).ontologyProposals.lookup key).isSome = true := by
  unfold promoteIfSettled
  split
  · simp
  · dsimp only
    split <;> simp

/-- An ontology event changes nothing or leaves a proposal. -/
lemma ontologyStep_recorded (x ev) : ontologyStep x ev = x ∨
    ∃ key, ((ontologyStep x ev).ontologyProposals.lookup key).isSome = true := by
  cases ev with
  | ontologyExtensionProposed e => exact .inr ⟨_, recorded_promoteIfSettled _ _ _⟩
  | ontologyExtensionApproved e =>
    simp only [ontologyStep, applyOntologyExtensionApproved]
    split
    · exact .inr ⟨_, recorded_promoteIfSettled _ _ _⟩
    · exact .inl rfl
  | ontologyExtensionRejected e =>
    simp only [ontologyStep, applyOntologyExtensionRejected]
    split
    · exact .inr ⟨_, by rw [AList.lookup_insert]; rfl⟩
    · exact .inl rfl
  | _ => exact .inl rfl

lemma ontology_replay (env tn evs) : (replay env tn evs).evidence.ontology = {} ∨
    ∃ key, ((replay env tn evs).evidence.ontologyProposals.lookup key).isSome = true := by
  induction evs using reverseRecOn with
  | nil => exact .inl rfl
  | append_singleton evs ev ih =>
    rw [replay_append_singleton]
    generalize replay env tn evs = w at ih ⊢
    have step := ontology_reduce env w ev
    obtain hs | ⟨key, new⟩ := ontologyStep_recorded w.evidence.ontology ev
    · rw [hs] at step
      rw [step]
      exact ih.imp_right fun ⟨key, old⟩ => ⟨key, (congrArg Evidence.ontologyProposals step) ▸ old⟩
    · exact .inr ⟨key, (congrArg Evidence.ontologyProposals step) ▸ new⟩

/-- What later proposals, approvals and rejections see: the proposals, and the labels promoted. -/
def SameOntology (env : Env) (w w' : World) : Prop :=
  (∀ key, w'.evidence.ontologyProposals.lookup key = w.evidence.ontologyProposals.lookup key) ∧
    ∀ more, (reduceAll env w' more).evidence.ontologyGate.promotions =
      (reduceAll env w more).evidence.ontologyGate.promotions

/-- A restore keeps the ontology state exactly if nothing was ever proposed. -/
theorem sameOntology_restore_iff (env tenant events) :
    let w := replay env tenant events
    SameOntology env w (restoreWorld env (snapshotWorld w) tenant) ↔
      ∀ key, w.evidence.ontologyProposals.lookup key = none := by
  intro w
  have hem := ontology_restoreWorld env (snapshotWorld w) tenant
  generalize restoreWorld env (snapshotWorld w) tenant = w' at hem ⊢
  have hab (key) : w'.evidence.ontologyProposals.lookup key = none :=
    congrArg (fun x => x.ontologyProposals.lookup key) hem
  constructor
  · exact fun hs key => (hs.1 key).symm.trans (hab key)
  · intro unproposed
    refine ⟨fun key => (hab key).trans (unproposed key).symm, fun more => ?_⟩
    obtain initial | ⟨key, hrec⟩ := ontology_replay env tenant events
    · have hs : (reduceAll env w' more).evidence.ontology =
          (reduceAll env w more).evidence.ontology := by
        rw [ontology_reduceAll, ontology_reduceAll, hem, initial]
      exact congrArg (fun x => x.ontologyGate.promotions) hs
    · simp [w, unproposed key] at hrec

def cameraProposed : List Event :=
  [.ontologyExtensionProposed
    { proposalKind := .nodeLabel, label := "Camera", proposer := "agent-1", claim := "" }]

/-- One agent proposes a label, and the restarted World has no record of it. -/
theorem restore_forgets_proposal :
    let w := replay .plain "t" cameraProposed
    ¬SameOntology .plain w (restoreWorld .plain (snapshotWorld w) "t") := by
  intro w hs
  have kp := hs.1 ⟨.nodeLabel, "Camera"⟩
  have hem := ontology_restoreWorld .plain (snapshotWorld w) "t"
  rw [show (restoreWorld .plain (snapshotWorld w) "t").evidence.ontologyProposals = ∅ from
    congrArg Evidence.ontologyProposals hem] at kp
  cases kp

/-- The record of a technique. -/
structure Reputation where
  (technique scopeID : String)
  (n sumObserved : Nat := 0)
  brierScores : List Float64 := []

def settlementOutcome : SettlementVerdict → Nat
  | .verdictTrue => 1
  | .verdictFalse => 0

/-- The two means of a reputation are quotients of what is summed up here, and of `n`. -/
def computeReputation (technique scopeID : String) (settlements : List BetSettlement) :
    Reputation :=
  settlements.foldl
    (fun rep s =>
      if s.technique = "" ∨ s.technique ≠ technique ∨ s.scopeID ≠ scopeID then rep
      else
        { rep with
          n := rep.n + 1
          sumObserved := rep.sumObserved + settlementOutcome s.verdict
          brierScores := rep.brierScores ++ [s.brierScore] })
    { technique, scopeID }

def World.betSettlementSnapshot (w : World) : List BetSettlement :=
  sortBy BetSettlement.hypothesisID w.evidence.betSettlements

lemma n_computeReputation (technique scopeID l) :
    (computeReputation technique scopeID l).n = l.countP fun s =>
      !decide (s.technique = "" ∨ s.technique ≠ technique ∨ s.scopeID ≠ scopeID) := by
  induction l using reverseRecOn with
  | nil => rfl
  | append_singleton l s ih =>
    rw [countP_append, ← ih, computeReputation, foldl_append]
    simp only [foldl_cons, foldl_nil, countP_singleton]
    split
    · next hsc => simp [computeReputation, hsc]
    · next hct => simp [computeReputation, hct]

/-- The settlement that the restore of `s` records. -/
def BetSettlement.restored (s : BetSettlement) : BetSettlement :=
  { s with
    technique :=
      match s.method with
      | .predicate => s.technique
      | _ => "" }

lemma restored_cases (s : BetSettlement) : s.method = .predicate ∧ s.restored = s ∨
    s.method ≠ .predicate ∧ s.restored = { s with technique := "" } := by
  rcases s with ⟨_, _, _ | _ | _⟩
  · exact .inl ⟨rfl, rfl⟩
  all_goals exact .inr ⟨nofun, rfl⟩

/-- Settlements as the reducer keeps them. -/
structure Recorded (l : List BetSettlement) : Prop where
  ids : (l.map BetSettlement.hypothesisID).Nodup
  made : ∀ s ∈ l, s.hypothesisID ≠ "" ∧
    ∀ env w, (reduce env w s.event).evidence = recordSettlement w.evidence s.restored

lemma Recorded.record {x : Evidence} (h : Recorded x.betSettlements)
    (hmd : ∀ env w, (reduce env w s.event).evidence = recordSettlement w.evidence s.restored) :
    Recorded (recordSettlement x s).betSettlements := by
  unfold recordSettlement
  split
  · exact h
  next new =>
  rw [not_or] at new
  constructor
  · exact nodup_map_append_of_find? h.ids (by simpa using new.2)
  · simp only [mem_append, mem_singleton]
    rintro s' (old | rfl)
    · exact h.made s' old
    · exact ⟨new.1, hmd⟩

lemma recorded_replay (env tenant events) :
    Recorded (replay env tenant events).evidence.betSettlements := by
  refine List.foldlRecOn (motive := fun w : World => Recorded w.evidence.betSettlements) events _
    ⟨nodup_nil, by simp [newWorld]⟩ fun w h ev _ => ?_
  have hkp := (untouched_reduce env w ev).settlements
  cases ev with
  | betSettledTrue e | betSettledFalse e | betSettledByHITL e => exact h.record fun _ _ => rfl
  | _ =>
    rwa [hkp (by simp) (by simp) (by simp)]

lemma settlements_restored (env) {w : World} {l : List BetSettlement}
    (s0 : w.evidence.betSettlements = []) (h : Recorded l) :
    (reduceAll env w (l.map BetSettlement.event)).evidence.betSettlements =
      l.map BetSettlement.restored := by
  induction l using reverseRecOn with
  | nil => exact s0
  | append_singleton l s ih =>
    obtain ⟨ids, hmd⟩ := h
    rw [map_append, nodup_append] at ids
    have hb := ih ⟨ids.1, fun s' mem => hmd s' (mem_append_left _ mem)⟩
    obtain ⟨hn, mak⟩ := hmd s (by simp)
    rw [map_append, reduceAll_append]
    simp only [map_cons, map_nil, reduceAll_cons, reduceAll_nil, mak]
    rw [recordSettlement, if_neg, hb, map_append]
    · rfl
    rw [hb]
    rintro (hem | there)
    · exact hn hem
    · obtain ⟨_, hl, hs⟩ := any_eq_true.mp there
      obtain ⟨s', mem, rfl⟩ := mem_map.mp hl
      exact ids.2.2 _ (mem_map_of_mem mem) _ (mem_singleton.mpr rfl) (beq_iff_eq.mp hs)

/-- A restore keeps all reputations exactly if only settlements by proof name a technique. -/
theorem reputation_restore_iff (env tenant events) :
    let w := replay env tenant events
    (∀ technique scopeID, computeReputation technique scopeID
          (restoreWorld env (snapshotWorld w) tenant).betSettlementSnapshot =
        computeReputation technique scopeID w.betSettlementSnapshot) ↔
      ∀ s ∈ w.evidence.betSettlements, s.method ≠ .predicate → s.technique = "" := by
  intro w
  obtain ⟨ids, hmd⟩ := recorded_replay env tenant events
  obtain ⟨w', s0, restored⟩ := record_restoreWorld env (snapshotWorld w) tenant
  have settlements := (congrArg Prod.snd restored).trans
    (settlements_restored (l := w.betSettlementSnapshot) env (congrArg Prod.snd s0)
      ⟨nodup_map_sortBy ids, fun s mem => hmd s (mem_sortBy.mp mem)⟩)
  have snapshot : (restoreWorld env (snapshotWorld w) tenant).betSettlementSnapshot =
      w.betSettlementSnapshot.map BetSettlement.restored :=
    (congrArg (sortBy _) settlements).trans
      (sortBy_of_pairwise (pairwise_map.mpr (pairwise_sortBy _ _)))
  rw [snapshot]
  constructor
  · intro hs s mem method
    by_contra named
    have hcts := congrArg Reputation.n (hs s.technique s.scopeID)
    rw [n_computeReputation, n_computeReputation, countP_map] at hcts
    refine absurd hcts (countP_lt_countP ?_ (mem_sortBy.mpr mem) ?_ ?_).ne
    · intro s' _
      rcases restored_cases s' with ⟨-, hs⟩ | ⟨-, hs⟩ <;> simp [hs]
    · simp [((restored_cases s).resolve_left fun h => method h.1).2]
    · simp [named]
  · intro hunn technique scopeID
    congr 1
    refine (map_congr_left fun s mem => ?_).trans (map_id _)
    obtain ⟨-, hs⟩ | ⟨ho, hs⟩ := restored_cases s
    · exact hs
    · rw [hs, ← hunn s (mem_sortBy.mp mem) ho]
      rfl

def exhausted : List Event :=
  [.betSettledFalse
    { hypothesisID := "h", technique := "ssh", attemptBudget := 1, attemptsMade := 1, reason := "",
      predictedProbability := ⟨0⟩, brierScore := ⟨0⟩, scopeID := "s", missionID := "m" }]

/-- A bet that failed counts against its technique, and after the restart no longer does. -/
theorem restore_forgets_failure :
    let w := replay .plain "t" exhausted
    computeReputation "ssh" "s" (restoreWorld .plain (snapshotWorld w) "t").betSettlementSnapshot ≠
      computeReputation "ssh" "s" w.betSettlementSnapshot := by
  intro w hs
  exact absurd (congrArg Reputation.n hs) (by decide +kernel)

end Gibson.Brain
