import Gibson.Brain.Evidence

/-! The reducer and the fold of a Timeline. What the reducer does to mission control depends on
mission control alone (`reduce_control`). -/

namespace Gibson.Brain

/-- Folds an event whose run was checked. Event types without a case leave the World alone. -/
def applyEvent (env : Env) (w : World) (ev : Event) : World :=
  let c := w.control
  let x := w.evidence
  match ev with
  | .hostObserved e => { w with evidence := applyHostObserved x e }
  | .domainObserved e => { w with evidence := applyDomainObserved x e }
  | .subdomainObserved e => { w with evidence := applySubdomainObserved x e }
  | .credentialObserved e => { w with evidence := applyCredentialObserved x e }
  | .accountObserved e => { w with evidence := applyAccountObserved x e }
  | .workDispatched e => { w with control := applyWorkDispatched c e }
  | .workRetried e => { w with control := applyWorkRetried c e }
  | .workCompleted e => { w with control := applyWorkCompleted c e }
  | .conditionResolved e => { w with control := applyConditionResolved c e }
  | .decisionRequested e => { w with control := applyDecisionRequested c e }
  | .decisionCompleted e => { w with control := applyDecisionCompleted c e }
  | .tokenUsed e => { w with control := applyTokenUsed c e }
  | .missionCreated e => { w with control := applyMissionCreated c e }
  | .missionStarted e => { w with control := applyMissionStarted c e }
  | .missionProjected e => { w with control := applyMissionProjected env c e }
  | .missionPauseRequested e => { w with control := applyMissionPauseRequested c e }
  | .missionResumed e => { w with control := applyMissionResumed c e }
  | .missionDone e => { w with control := applyMissionDone c e }
  | .missionRewound e => { w with control := applyMissionRewound c e }
  | .beliefScoreRequested e => { w with evidence := applyBeliefScoreRequested env x e }
  | .beliefScored e => { w with evidence := applyBeliefScored x e }
  | .findingRaised e => { w with evidence := applyFindingRaised c x e }
  | .labelApplied e => { w with evidence := applyLabelApplied x e }
  | .agentRunObserved e => { w with evidence := applyAgentRunObserved x e }
  | .hypothesisObserved e => { w with evidence := applyHypothesisObserved x e }
  | .betSettledTrue e => { w with evidence := applyBetSettledTrue x e }
  | .betSettledFalse e => { w with evidence := applyBetSettledFalse x e }
  | .betSettledByHITL e => { w with evidence := applyBetSettledByHITL x e }
  | .destructiveActionRequested e => { w with evidence := applyDestructiveActionRequested x e }
  | .destructiveActionDecided e => { w with evidence := applyDestructiveActionDecided x e }
  | .llmCallObserved e => { w with evidence := applyLlmCallObserved env x e }
  | .agentToolCallObserved e => { w with evidence := applyAgentToolCallObserved env x e }
  | .flightRecorderPolicySet e => { w with evidence := applyFlightRecorderPolicySet x e }
  | .flightRecorderRetentionSwept e => { w with evidence := applyFlightRecorderRetentionSwept x e }
  | .observationRecorded e => { w with evidence := applyObservationRecorded env x e }
  | .entityObserved e => { w with evidence := applyEntityObserved x e }
  | .findingStatusChanged e => { w with evidence := applyFindingStatusChanged x e }
  | .scanReconciled e => { w with control := applyScanReconciled c e }
  | .voiPlanRequested e => { w with control := applyVoIPlanRequested c e }
  | .voiPlanned e => { w with control := applyVoIPlanned c e }
  | .edgeOutcomeObserved e => { w with evidence := applyEdgeOutcomeObserved x e }
  | .nodeBeliefSet e => { w with evidence := applyNodeBeliefSet x e }
  | .missionOriginated e => { w with control := applyMissionOriginated c e }
  | .domainPackEnabled e => { w with evidence := applyDomainPackEnabled x e }
  | .domainPackDisabled e => { w with evidence := applyDomainPackDisabled x e }
  | .betProofSubmittedForReview e => { w with evidence := applyBetProofSubmittedForReview env x e }
  | .ontologyExtensionProposed e => { w with evidence := applyOntologyExtensionProposed x e }
  | .ontologyExtensionApproved e => { w with evidence := applyOntologyExtensionApproved x e }
  | .ontologyExtensionRejected e => { w with evidence := applyOntologyExtensionRejected x e }
  | .sliceScoreRequested _ => w
  | .sliceScored _ => w

/-- Folds one event into the World. -/
def reduce (env : Env) (w : World) (ev : Event) : World :=
  match (checkRun w.control ev).verdict with
  | .runDropped => w
  | .runDetached => applyEvent env w (detachEvidence ev)
  | .runCurrent => applyEvent env w ev

section
variable (env : Env)
include env

def reduceAll (env : Env) (w : World) (events : List Event) : World :=
  events.foldl (reduce env) w

/-- Rebuilds a World by folding the whole Timeline. -/
def replay (env : Env) (tenant : String) (events : List Event) : World :=
  reduceAll env (newWorld tenant) events

@[simp] lemma reduceAll_nil (w) : reduceAll env w [] = w := rfl

@[simp] lemma reduceAll_cons (w ev events) :
    reduceAll env w (ev :: events) = reduceAll env (reduce env w ev) events := rfl

lemma reduceAll_append (w xs ys) :
    reduceAll env w (xs ++ ys) = reduceAll env (reduceAll env w xs) ys :=
  List.foldl_append ..

lemma replay_append_singleton (tenant events ev) :
    replay env tenant (events ++ [ev]) = reduce env (replay env tenant events) ev := by
  rw [replay, reduceAll_append]
  rfl

def applyControl (env : Env) (c : Control) (ev : Event) : Control :=
  match ev with
  | .workDispatched e => applyWorkDispatched c e
  | .workRetried e => applyWorkRetried c e
  | .workCompleted e => applyWorkCompleted c e
  | .conditionResolved e => applyConditionResolved c e
  | .decisionRequested e => applyDecisionRequested c e
  | .decisionCompleted e => applyDecisionCompleted c e
  | .tokenUsed e => applyTokenUsed c e
  | .missionCreated e => applyMissionCreated c e
  | .missionStarted e => applyMissionStarted c e
  | .missionProjected e => applyMissionProjected env c e
  | .missionPauseRequested e => applyMissionPauseRequested c e
  | .missionResumed e => applyMissionResumed c e
  | .missionDone e => applyMissionDone c e
  | .missionRewound e => applyMissionRewound c e
  | .missionOriginated e => applyMissionOriginated c e
  | .scanReconciled e => applyScanReconciled c e
  | .voiPlanRequested e => applyVoIPlanRequested c e
  | .voiPlanned e => applyVoIPlanned c e
  | _ => c

/-- What an event does to mission control: nothing where its run is over. -/
def reduceControl (env : Env) (c : Control) (ev : Event) : Control :=
  if (checkRun c ev).verdict = .runDropped then c else applyControl env c ev

lemma control_of_current (h : (checkRun c ev).verdict = .runCurrent) :
    reduceControl env c ev = applyControl env c ev := by
  unfold reduceControl
  rw [h, if_neg (by simp)]

lemma reduceControl_dropped
    (h : (checkRun c ev).verdict = .runDropped) : reduceControl env c ev = c := by
  unfold reduceControl
  rw [if_pos h]

lemma applyEvent_control (w ev) :
    (applyEvent env w ev).control = applyControl env w.control ev := by
  cases ev <;> rfl

lemma reduce_control (w ev) : (reduce env w ev).control = reduceControl env w.control ev := by
  unfold reduce reduceControl
  cases h : (checkRun w.control ev).verdict with
  | runCurrent => simp [applyEvent_control]
  | runDropped => simp
  | runDetached =>
    cases ev <;> rfl

lemma reduceAll_control (w evs) :
    (reduceAll env w evs).control = evs.foldl (reduceControl env) w.control := by
  induction evs generalizing w with
  | nil => rfl
  | cons ev evs ih => rw [reduceAll_cons, ih, reduce_control, List.foldl_cons]

end
end Gibson.Brain
