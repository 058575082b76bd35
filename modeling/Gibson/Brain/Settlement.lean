import Gibson.Brain.Identity

/-! Settling a bet as true by recorded proof. A destructive demonstration needs a human's approval,
which the settlement reads back from the record of the request. -/

namespace Gibson.Brain

open List Rows

variable {P C T : Type}

/-- The request of a settlement: `P` is what a predicate takes as parameters, `C` a piece of
captured evidence. -/
structure BetSettlementRequest (P C : Type) where
  (hypothesisID scopeID missionID technique predicateType : String)
  predicateParams : P
  evidence : List C
  destructive : Bool
  predictedProbability : Float64

/-- The registry of predicates, the digest of the evidence and the arithmetic of the scoring
rule. -/
structure SettlementEnv (P C T : Type) where
  newPredicate : String → String → P → Except String T
  evaluate : T → List C → Except String Bool
  settlementEvidenceDigest : List C → String
  validPredictedProbability : Float64 → Bool
  brierScore : Float64 → SettlementVerdict → Float64

inductive VerifyError where
  | noHypothesis
  | pending (hypothesisID : String) (requested : Bool)
  | denied (hypothesisID : String)

inductive SettleError where
  | noHypothesis
  | invalidProbability (hypothesisID : String) (p : Float64)
  | noAuthorizer (hypothesisID : String)
  | authorization (hypothesisID : String) (err : VerifyError)
  | notAuthorized (hypothesisID : String)
  | predicate (hypothesisID err : String)
  | evaluation (hypothesisID err : String)

/-- Reads back what a human decided. The request is found by its hypothesis alone. -/
def verify (x : Evidence) (req : BetSettlementRequest P C) : Except VerifyError Bool :=
  if req.hypothesisID = "" then .error .noHypothesis
  else
    match (sortBy DestructiveAction.hypothesisID x.destructiveActions).find?
        (·.hypothesisID == req.hypothesisID) with
    | none => .error (.pending req.hypothesisID false)
    | some a =>
      if a.decided = false then .error (.pending req.hypothesisID true)
      else if a.approved = false then .error (.denied req.hypothesisID)
      else .ok true

def authorizeProof (now : Evidence) (wired : Bool) (req : BetSettlementRequest P C) :
    Except SettleError Unit :=
  if req.destructive = false then .ok ()
  else if wired = false then .error (.noAuthorizer req.hypothesisID)
  else
    match verify now req with
    | .error err => .error (.authorization req.hypothesisID err)
    | .ok false => .error (.notAuthorized req.hypothesisID)
    | .ok true => .ok ()

/-- The events that a call submits. It reads the settlements, the authorisation and the cause edge
types of the hypothesis one after the other, and other events may be folded between. -/
def settleBetTrue (S : SettlementEnv P C T) (seen now : Evidence) (causes : String → List String)
    (wired : Bool) (req : BetSettlementRequest P C) : Except SettleError (List Event) :=
  if req.hypothesisID = "" then .error .noHypothesis
  else if S.validPredictedProbability req.predictedProbability = false then
    .error (.invalidProbability req.hypothesisID req.predictedProbability)
  else if seen.betSettlements.any (·.hypothesisID == req.hypothesisID) then .ok []
  else
    (authorizeProof now wired req).bind fun _ =>
    ((S.newPredicate req.technique req.predicateType req.predicateParams).mapError
      (.predicate req.hypothesisID)).bind fun predicate =>
    ((S.evaluate predicate req.evidence).mapError (.evaluation req.hypothesisID)).bind fun fired =>
    if fired = false then .ok []
    else
      .ok (.betSettledTrue
          { hypothesisID := req.hypothesisID, technique := req.technique,
            predicateType := req.predicateType,
            evidenceDigest := S.settlementEvidenceDigest req.evidence,
            predictedProbability := req.predictedProbability,
            brierScore := S.brierScore req.predictedProbability .verdictTrue,
            scopeID := req.scopeID, missionID := req.missionID } ::
        (causes req.hypothesisID).map fun edgeType =>
          .edgeOutcomeObserved
            { edgeType, success := true, missionID := req.missionID, scopeID := req.scopeID })

lemma approved_of_settleBetTrue {S : SettlementEnv P C T}
    (cl : settleBetTrue S seen now causes wired req = .ok evs) (sent : .betSettledTrue e ∈ evs)
    (des : req.destructive = true) :
    ∃ a ∈ now.destructiveActions, a.hypothesisID = req.hypothesisID ∧ a.approved = true := by
  have haut : authorizeProof now wired req = .ok () := by
    unfold settleBetTrue at cl
    cases haut : authorizeProof now wired req with
    | ok _ => rfl
    | error err =>
      rw [haut] at cl
      repeat' split at cl
      all_goals cases cl
      exact absurd sent not_mem_nil
  rw [authorizeProof, if_neg (by simp [des])] at haut
  split at haut
  · cases haut
  split at haut
  · cases haut
  · cases haut
  next ok =>
  unfold verify at ok
  split at ok
  · cases ok
  split at ok
  · cases ok
  next a hf =>
  refine ⟨a, mem_sortBy.mp (mem_of_find?_eq_some hf), by simpa using find?_some hf, ?_⟩
  grind

/-- The requests of `y` have ids of their own, and every decided one of `x` is still as it was. -/
structure KeepsDecided (x y : Evidence) : Prop where
  nodup : (y.destructiveActions.map DestructiveAction.hypothesisID).Nodup
  decided : ∀ a ∈ x.destructiveActions, a.decided = true → a ∈ y.destructiveActions

lemma keepsDecided_reduce (env) {w : World}
    (hnd : (w.evidence.destructiveActions.map DestructiveAction.hypothesisID).Nodup) (ev) :
    KeepsDecided w.evidence (reduce env w ev).evidence := by
  have hs : KeepsDecided w.evidence w.evidence := ⟨hnd, fun _ mem _ => mem⟩
  have ho := (untouched_reduce env w ev).actions
  cases ev with
  | destructiveActionRequested e =>
    show KeepsDecided _ (applyDestructiveActionRequested w.evidence e)
    unfold applyDestructiveActionRequested
    split
    · exact hs
    rename_i hfr
    refine ⟨nodup_map_append_of_find? hnd ?_, fun a mem _ => mem_append_left _ mem⟩
    simpa using (not_or.mp hfr).2
  | destructiveActionDecided e =>
    show KeepsDecided _ (applyDestructiveActionDecided w.evidence e)
    unfold applyDestructiveActionDecided
    split
    · exact hs
    constructor
    · show (map _ (updateFirst _ _ _)).Nodup
      rwa [map_updateFirst]
      intro a _
      split <;> rfl
    · intro a mem hdd
      rw [updateFirst_eq_map hnd]
      exact mem_map.mpr ⟨a, mem, by simp [hdd]⟩
  | _ =>
    have kp := ho (by simp) (by simp)
    exact ⟨kp.symm ▸ hnd, fun a mem _ => kp.symm ▸ mem⟩

lemma keepsDecided_reduceAll (env) {w : World}
    (hnd : (w.evidence.destructiveActions.map DestructiveAction.hypothesisID).Nodup) (events) :
    KeepsDecided w.evidence (reduceAll env w events).evidence := by
  refine List.foldlRecOn (motive := fun v : World => KeepsDecided w.evidence v.evidence) events _
    ⟨hnd, fun _ mem _ => mem⟩ fun v kp ev _ => ?_
  have nx := keepsDecided_reduce env kp.nodup ev
  exact ⟨nx.nodup, fun a mem hdd => nx.decided a (kp.decided a mem hdd) hdd⟩

/-- A destructive settlement that is sent has an approved request of its own exactly if the request
that is on record for its hypothesis names its technique and predicate; and what was decided on a
request stays. -/
theorem destructive_settlement_approved_iff (env : Env) (tenant : String) (events more : List Event)
    (S : SettlementEnv P C T) (seen : Evidence) (causes : String → List String) (wired : Bool)
    (req : BetSettlementRequest P C) :
    let w := replay env tenant events
    let actions := w.evidence.destructiveActions
    (∀ evs e, req.destructive = true →
      settleBetTrue S seen w.evidence causes wired req = .ok evs → .betSettledTrue e ∈ evs →
      ((∃ a ∈ actions, a.approved = true ∧ a.hypothesisID = req.hypothesisID ∧
          a.technique = req.technique ∧ a.predicateType = req.predicateType) ↔
        ∀ a ∈ actions, a.hypothesisID = req.hypothesisID →
          a.technique = req.technique ∧ a.predicateType = req.predicateType)) ∧
    ∀ a ∈ actions, a.decided = true → (reduceAll env w more).evidence.destructiveActions.find?
        (·.hypothesisID == a.hypothesisID) = some a := by
  intro w actions
  have nodup := (keepsDecided_reduceAll env (w := newWorld tenant) nodup_nil events).nodup
  constructor
  · intro evs e destructive call sent
    obtain ⟨a, mem, own, approved⟩ := approved_of_settleBetTrue call sent destructive
    constructor
    · rintro ⟨b, listed, -, named, same⟩ c mem' named'
      rwa [inj_on_of_nodup_map nodup mem' listed (named'.trans named.symm)]
    · intro same
      exact ⟨a, mem, approved, own, same a mem own⟩
  · intro a mem decided
    have kept := keepsDecided_reduceAll env nodup more
    exact (find?_key_iff kept.nodup).mpr ⟨kept.decided a mem decided, rfl⟩

/-- A registry in which every predicate fires. -/
def firingPredicates : SettlementEnv Unit Unit Unit where
  newPredicate _ _ _ := .ok ()
  evaluate _ _ := .ok true
  settlementEvidenceDigest _ := "d"
  validPredictedProbability _ := true
  brierScore p _ := p

/-- An approved demonstration of one technique. -/
def approvedDeletion : List Event :=
  [.destructiveActionRequested
     { hypothesisID := "h", tenant := "t", scopeID := "s", missionID := "m", technique := "T1",
       predicateType := "file_deleted", requestedAtUnixMS := 1 },
   .destructiveActionDecided
     { hypothesisID := "h", approved := true, userID := "u", decidedAtUnixMS := 2 }]

/-- The approval of the deletion settles a demonstration of another technique. -/
theorem approval_reused :
    let x := (replay Env.plain "t" approvedDeletion).evidence
    let req : BetSettlementRequest Unit Unit :=
      { hypothesisID := "h", scopeID := "s", missionID := "m", technique := "T2",
        predicateType := "disk_wiped", predicateParams := (), evidence := [], destructive := true,
        predictedProbability := ⟨0⟩ }
    (∃ evs e, settleBetTrue firingPredicates x x (fun _ => []) true req = .ok evs ∧
        .betSettledTrue e ∈ evs) ∧
      ∀ a ∈ x.destructiveActions, a.technique ≠ req.technique := by
  intro x req
  exact ⟨⟨_, _, rfl, mem_cons_self⟩, by decide⟩

end Gibson.Brain
