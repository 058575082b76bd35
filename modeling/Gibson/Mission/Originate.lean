import Gibson.Mission.Ledger
import Gibson.Mission.WorkGraph

/-! Missions that a component originates, and the budget that the executor reads from them. -/

namespace Gibson.Mission

open Brain (StringMap)

/-- The JSON of a definition, over any type of texts. What was written is read back. -/
structure DefinitionCodec where
  Text : Type
  isEmpty : Text → Bool
  marshal : MissionDefinition → Except String Text
  unmarshal : Text → Except String MissionDefinition
  unmarshal_marshal : ∀ d text, marshal d = .ok text → unmarshal text = .ok d

def DefinitionCodec.plain : DefinitionCodec where
  Text := Option MissionDefinition
  isEmpty := Option.isNone
  marshal d := .ok (some d)
  unmarshal
    | none => .error "mission definition: empty JSON"
    | some d => .ok d
  unmarshal_marshal d text h := by rw [← Except.ok.inj h]

/-- A record and the text of its definition. -/
structure StoredMission (Text : Type) extends MissionRecord where
  missionDefinitionJSON : Text

/-- Who launched a mission. -/
structure Lineage where
  (missionID parentMissionID parentWorkID originatingComponent capabilityGrantID : String)

/-- A request to launch a mission. -/
structure OriginateRequest (Text : Type) where
  parent : Option MissionRecord
  parentWorkID : String := ""
  (principal grantID : String)
  definitionJSON : Text
  targetIDs : List String := []

def maxOriginationDepth : Int := 3

def MissionRecord.targetSet (m : MissionRecord) : List String :=
  ((m.targetID :: m.additionalTargetIDs).filter (· != "")).foldl
    (fun out id => if id ∈ out then out else out ++ [id]) []

def targetSetSubset (child parent : List String) : Bool :=
  child.isEmpty || (!parent.isEmpty && child.all parent.contains)

def requestedBudget (c : Option MissionConstraints) : ChildBudget :=
  match c with
  | none => {}
  | some c =>
    { costUSDCents := if 0 < c.maxCost then some (costCentsFromDollars c.maxCost) else none
      tokens := if 0 < c.maxTokens then some c.maxTokens else none }

def grantedConstraints (requested : Option MissionConstraints) (granted : ChildBudget) :
    MissionConstraints :=
  let out := requested.getD {}
  { maxCost := granted.costUSDCents.elim out.maxCost dollarsFromCostCents
    maxTokens := granted.tokens.getD out.maxTokens }

section
variable (J : DefinitionCodec)

def parseOriginationDefinition (raw : J.Text) : Except String MissionDefinition :=
  if J.isEmpty raw then .ok {}
  else
    match J.unmarshal raw with
    | .error err => .error ("mission: originate: parse definition: " ++ err)
    | .ok d => .ok d

def buildChild (childID : String) (childDepth : Int) (d : MissionDefinition)
    (granted : ChildBudget) (parent : MissionRecord) (targetIDs : List String) :
    Except String (StoredMission J.Text) :=
  match J.marshal d with
  | .error err => .error ("mission: originate: marshal definition: " ++ err)
  | .ok text =>
    .ok { id := childID, tenantID := parent.tenantID, name := d.name,
          description := d.description, status := .pending, missionDefinitionID := d.id,
          constraints := some (grantedConstraints d.constraints granted),
          parentMissionID := some parent.id, depth := childDepth,
          targetID := targetIDs.headD "", additionalTargetIDs := targetIDs.tail,
          missionDefinitionJSON := text }

def originationRequest (req : OriginateRequest J.Text) :
    Except String (MissionRecord × MissionDefinition) :=
  match req.parent with
  | none => .error "mission: origination requires a parent mission"
  | some parent =>
    if req.principal = "" ∨ req.grantID = "" then
      .error "mission: origination requires the caller's principal and capability-grant id"
    else if maxOriginationDepth ≤ parent.depth + 1 then
      .error ("mission: origination would exceed the maximum mission depth: parent is at depth " ++
        toString parent.depth ++ ", limit " ++ toString maxOriginationDepth)
    else if targetSetSubset req.targetIDs parent.targetSet = false then
      .error ("mission: origination target scope exceeds the parent mission's targets: " ++
        "parent mission " ++ parent.id)
    else
      match parseOriginationDefinition J req.definitionJSON with
      | .error err => .error err
      | .ok d => .ok (parent, d)

/-- A failure after the reservation gives it back. -/
def originate (childID : String) (saveErr : Option String) (db : Redis)
    (req : OriginateRequest J.Text) : Except String (StoredMission J.Text × Lineage) × Redis :=
  match originationRequest J req with
  | .error err => (.error err, db)
  | .ok (parent, d) =>
    match reserve db (some parent) childID (requestedBudget d.constraints) with
    | (.error err, db) =>
      (.error ("mission: originate: reserve against parent " ++ parent.id ++ ": " ++ err), db)
    | (.ok granted, db) =>
      match buildChild J childID (parent.depth + 1) d granted parent req.targetIDs with
      | .error err => (.error err, release db parent.id childID)
      | .ok child =>
        match saveErr with
        | some err =>
          (.error ("mission: originate: save child mission: " ++ err), release db parent.id childID)
        | none =>
          (.ok (child,
            { missionID := child.id, parentMissionID := parent.id,
              parentWorkID := req.parentWorkID, originatingComponent := req.principal,
              capabilityGrantID := req.grantID }), db)

/-- The binding of a target. -/
structure DefinitionBinder where
  bind : MissionDefinition → Target → Except String MissionDefinition
  bind_constraints : ∀ d t d', bind d t = .ok d' → d'.constraints = d.constraints

def DefinitionBinder.plain : DefinitionBinder where
  bind d _ := .ok d
  bind_constraints d t d' h := by rw [Except.ok.inj h]

/-- The definition that a run projects, bound to the mission's own target. -/
def bindStoredDefinition (B : DefinitionBinder) (resolveTargetUUID : String → Except String Target)
    (rec : StoredMission J.Text) : Except String (StoredMission J.Text × MissionDefinition) :=
  if J.isEmpty rec.missionDefinitionJSON then
    .error ("mission run: mission " ++ rec.id ++ " has no definition")
  else
    match J.unmarshal rec.missionDefinitionJSON with
    | .error err =>
      .error ("mission run: parse stored definition of mission " ++ rec.id ++ ": " ++ err)
    | .ok d =>
      if rec.targetID = "" then
        .error ("mission run: mission " ++ rec.id ++ " names no target to bind against")
      else
        match resolveTargetUUID rec.targetID with
        | .error err => .error ("mission run: resolve target of mission " ++ rec.id ++ ": " ++ err)
        | .ok target =>
          match B.bind d target with
          | .error err => .error ("mission run: bind target of mission " ++ rec.id ++ ": " ++ err)
          | .ok d =>
            match J.marshal d with
            | .error err =>
              .error ("mission run: serialize bound definition of mission " ++ rec.id ++ ": " ++
                err)
            | .ok text => .ok ({ rec with missionDefinitionJSON := text }, d)

/-- The launch event of a run of the stored mission, and the record as the run saves it. -/
def runExisting (B : DefinitionBinder) (env : ProjectionEnv) (o : MapOrder)
    (resolveTargetUUID : String → Except String Target) (goal : String)
    (targets : List ForEachTarget) (rec : StoredMission J.Text) :
    Except String (StoredMission J.Text × Brain.MissionProjected) :=
  match bindStoredDefinition J B resolveTargetUUID rec with
  | .error err => .error err
  | .ok (rec, d) =>
    match missionDefinitionToProjected env o (some d) goal targets with
    | .error err => .error err
    | .ok (projected, _) => .ok (rec, projected)

/-- The budget in the definition that is stored with a mission. -/
def storedBudget (rec : StoredMission J.Text) : Except String Brain.Budget :=
  match J.unmarshal rec.missionDefinitionJSON with
  | .error err => .error err
  | .ok d => .ok (budgetFromConstraints d.constraints)

variable {J} {childID : String} {db : Redis} {req : OriginateRequest J.Text} {child : StoredMission
  J.Text}
variable {parent : MissionRecord} {d : MissionDefinition}

lemma originationRequest_ok (h : originationRequest J req = .ok (parent, d)) :
    req.parent = some parent ∧ parseOriginationDefinition J req.definitionJSON = .ok d := by
  unfold originationRequest at h
  split at h
  · simp at h
  next par' hgiv =>
  split at h
  · simp at h
  split at h
  · simp at h
  split at h
  · simp at h
  split at h
  · simp at h
  · next d' hpar =>
    cases h
    exact ⟨hgiv, hpar⟩

variable {granted : ChildBudget}

lemma originate_ok (h : originate J childID saveErr db req = (.ok (child, lineage), db')) :
    ∃ parent d granted, req.parent = some parent ∧
      parseOriginationDefinition J req.definitionJSON = .ok d ∧
      reserve db (some parent) childID (requestedBudget d.constraints) = (.ok granted, db') ∧
      J.unmarshal child.missionDefinitionJSON = .ok d := by
  unfold originate at h
  split at h
  · simp at h
  next parent d request =>
  obtain ⟨hgiv, hpar⟩ := originationRequest_ok request
  split at h
  · simp at h
  next granted db'' hrs =>
  split at h
  · simp at h
  next chi' hbu =>
  split at h
  · simp at h
  obtain ⟨res, rfl⟩ := Prod.mk.inj h
  cases res
  refine ⟨parent, d, granted, hgiv, hpar, hrs, ?_⟩
  unfold buildChild at hbu
  split at hbu
  · simp at hbu
  next text hw =>
  rw [← Except.ok.inj hbu]
  exact J.unmarshal_marshal d text hw

lemma bindStoredDefinition_ok {res : String → Except String Target}
    (h : bindStoredDefinition J B res rec = .ok (rec', d')) :
    ∃ d, J.unmarshal rec.missionDefinitionJSON = .ok d ∧ d'.constraints = d.constraints ∧
      J.unmarshal rec'.missionDefinitionJSON = .ok d' := by
  unfold bindStoredDefinition at h
  split at h
  · simp at h
  split at h
  · simp at h
  next d hpar =>
  split at h
  · simp at h
  split at h
  · simp at h
  next tg hrsv =>
  split at h
  · simp at h
  next hbd bin =>
  split at h
  · simp at h
  next text hw =>
  cases h
  exact ⟨d, hpar, B.bind_constraints d tg _ bin, J.unmarshal_marshal _ text hw⟩

/-- What the ledger holds for a child. -/
def Redis.grantOf (db : Redis) (parentID childID : String) : Option ChildBudget :=
  ((db.hgetall (missionReservationsKey parentID)).lookup childID).map RedisEntry.granted

def remainingTokens (db : Redis) (parent : MissionRecord) (childID : String) (cap : Int) : Int :=
  cap - parent.used .tokens -
    reservedByOthers (db.hgetall (missionReservationsKey parent.id)) childID .tokens

def MissionDefinition.maxTokens (d : MissionDefinition) : Int := (d.constraints.getD {}).maxTokens

/-- The budget stored with a child is a limit on tokens, and no larger than its grant. -/
def WithinGrant (J : DefinitionCodec) (child : StoredMission J.Text) (granted : ChildBudget) :
    Prop :=
  ∃ budget tokens, storedBudget J child = .ok budget ∧ granted.tokens = some tokens ∧
    0 < budget.maxTokens ∧ budget.maxTokens ≤ tokens

/-- The request names a limit on tokens that the parent can still grant in full. -/
def AsksWithin (J : DefinitionCodec) (db : Redis) (parent : MissionRecord) (childID : String)
    (cap : Int) (raw : J.Text) : Prop :=
  ∃ d, parseOriginationDefinition J raw = .ok d ∧
    0 < d.maxTokens ∧ d.maxTokens ≤ remainingTokens db parent childID cap

lemma budgetFromConstraints_maxTokens (d : MissionDefinition) :
    (budgetFromConstraints d.constraints).maxTokens = d.maxTokens := by
  unfold budgetFromConstraints MissionDefinition.maxTokens
  cases d.constraints with
  | none | some c => rfl

lemma reserve_tokens (hcap : parent.cap .tokens = some cap)
    (h : reserve db (some parent) childID requested = (.ok granted, db')) :
    db'.grantOf parent.id childID = some granted ∧
      ∃ tks, granted.tokens = some tks ∧ 0 < tks ∧
        tks = clampTo (remainingTokens db parent childID cap) requested.tokens.isSome
          (requested.tokens.getD 0) := by
  obtain ⟨e, run, rfl⟩ := reserve_ok h
  obtain ⟨rfl, dims⟩ := luaReserve_ok run
  constructor
  · unfold Redis.grantOf
    rw [hgetall_hset]
    have hf : ((db.hgetall (missionReservationsKey parent.id)).insert childID e).lookup childID =
        some e := AList.lookup_insert _
    exact congrArg (Option.map RedisEntry.granted) hf
  · obtain ⟨has, amount, gt, giv, -⟩ := dims .tokens
    obtain ⟨rfl, hpo, cla⟩ :=
      grantDimension_capped (by simp [reserveArgs, hcap]) gt
    have lim : (reserveArgs parent childID requested).max .tokens = cap := by
      simp [reserveArgs, hcap]
    rw [lim] at cla
    exact ⟨amount, giv, hpo, cla⟩

lemma le_clampTo_iff (lim hrem : Int) :
    lim ≤ clampTo hrem true lim ↔ lim ≤ hrem := by
  unfold clampTo
  split
  · next less =>
    have less : lim < hrem := by simpa using less
    exact ⟨fun _ => le_of_lt less, fun _ => le_refl _⟩
  · rfl

lemma withinGrant_iff (hcap : parent.cap .tokens = some cap)
    (hpar : parseOriginationDefinition J req.definitionJSON = .ok d)
    (hrs : reserve db (some parent) childID (requestedBudget d.constraints) = (.ok granted,
      db')) (hst : J.unmarshal child.missionDefinitionJSON = .ok d) :
    WithinGrant J child granted ↔ AsksWithin J db parent childID cap req.definitionJSON := by
  have bg : storedBudget J child = .ok (budgetFromConstraints d.constraints) := by
    rw [storedBudget, hst]
  obtain ⟨-, tks, gs, -, cla⟩ := reserve_tokens hcap hrs
  have hak : (requestedBudget d.constraints).tokens =
      if 0 < d.maxTokens then some d.maxTokens else none := by
    unfold requestedBudget MissionDefinition.maxTokens
    cases d.constraints <;> rfl
  rw [hak] at cla
  constructor
  · rintro ⟨b, g, hb, hg, hpo, hbd⟩
    cases bg.symm.trans hb
    cases gs.symm.trans hg
    rw [budgetFromConstraints_maxTokens] at hpo hbd
    rw [if_pos hpo] at cla
    rw [cla] at hbd
    exact ⟨d, hpar, hpo, (le_clampTo_iff _ _).mp hbd⟩
  · rintro ⟨d', hag, hpo, hbd⟩
    cases hpar.symm.trans hag
    rw [if_pos hpo] at cla
    refine ⟨_, tks, bg, gs, ?_⟩
    rw [budgetFromConstraints_maxTokens, cla]
    exact ⟨hpo, (le_clampTo_iff _ _).mpr hbd⟩

end

/-- The budget of an originated mission stays within the grant exactly where the request did: what
the ledger clamped is never written into the stored definition. -/
theorem originated_budget_iff (J : DefinitionCodec) {childID : String} {saveErr : Option String}
    {db db' : Redis} {req : OriginateRequest J.Text} {child : StoredMission J.Text}
    {lineage : Lineage} {parent : MissionRecord} {cap : Int}
    (h : originate J childID saveErr db req = (.ok (child, lineage), db'))
    (given : req.parent = some parent) (capped : parent.cap .tokens = some cap) :
    (∃ granted, db'.grantOf parent.id childID = some granted ∧
      (WithinGrant J child granted ↔ AsksWithin J db parent childID cap req.definitionJSON)) ∧
    ∀ B env o resolveTargetUUID goal targets rec projected,
      runExisting J B env o resolveTargetUUID goal targets child = .ok (rec, projected) →
        storedBudget J child = .ok projected.budget := by
  obtain ⟨par', d, granted, giv', hpar, hrs, hst⟩ := originate_ok h
  cases giv'.symm.trans given
  refine ⟨⟨granted, (reserve_tokens capped hrs).1, ?_⟩, ?_⟩
  · exact withinGrant_iff capped hpar hrs hst
  · intro B env o resolveTargetUUID goal targets rec projected rns
    unfold runExisting at rns
    split at rns
    · simp at rns
    next rec' d' hbd =>
    split at rns
    · simp at rns
    next pro' ogs projects =>
    cases rns
    obtain ⟨d, hpar, hs, -⟩ := bindStoredDefinition_ok hbd
    obtain ⟨x, ns, -, -, -, budget⟩ := projected_stages projects
    rw [storedBudget, hpar, budget]
    simp only [hs]

def cappedParent : MissionRecord where
  id := "p"
  targetID := "t"
  constraints := some { maxTokens := 100 }

def tokenRequest (maxTokens : Int) : OriginateRequest DefinitionCodec.plain.Text where
  parent := some cappedParent
  principal := "agent_principal:a"
  grantID := "g"
  definitionJSON := some { constraints := some { maxTokens } }
  targetIDs := ["t"]

def tokenChild (maxTokens granted : Int) : StoredMission DefinitionCodec.plain.Text where
  id := "c"
  targetID := "t"
  constraints := some { maxTokens := granted }
  parentMissionID := some "p"
  depth := 1
  missionDefinitionJSON := some { constraints := some { maxTokens } }

def tokenLineage : Lineage where
  missionID := "c"
  parentMissionID := "p"
  parentWorkID := ""
  originatingComponent := "agent_principal:a"
  capabilityGrantID := "g"

def tokenLedger (granted : Int) : Redis :=
  (∅ : Redis).hset (missionReservationsKey "p") "c"
    { hasCost := false, costCents := 0, hasTokens := true, tokens := granted }

lemma originate_tokenRequest_60 : originate .plain "c" none ∅ (tokenRequest 60) =
      (.ok (tokenChild 60 60, tokenLineage), tokenLedger 60) := by
  rfl

theorem originated_budget_sixty : ∃ granted, (tokenLedger 60).grantOf "p" "c" = some granted ∧
      WithinGrant .plain (tokenChild 60 60) granted := by
  have hcap : cappedParent.cap .tokens = some 100 := rfl
  obtain ⟨⟨granted, hho, hwi⟩, -⟩ :=
    originated_budget_iff .plain originate_tokenRequest_60 rfl hcap
  exact ⟨granted, hho, hwi.mpr ⟨_, rfl, by decide, by decide⟩⟩

/-- A request for 500 tokens against a ceiling of 100: a run of the child enforces 500. -/
theorem originated_budget_exceeds_grant : originate .plain "c" none ∅ (tokenRequest 500) =
        (.ok (tokenChild 500 100, tokenLineage), tokenLedger 100) ∧
      (tokenLedger 100).grantOf "p" "c" = some { tokens := some 100 } ∧
      ¬ WithinGrant .plain (tokenChild 500 100) { tokens := some 100 } ∧
      ∃ projected,
        runExisting .plain .plain .plain .plain (fun _ => .ok {}) "" [] (tokenChild 500 100) =
          .ok (tokenChild 500 100, projected) ∧
        projected.budget.maxTokens = 500 := by
  refine ⟨rfl, by decide, ?_, ⟨_, rfl, rfl⟩⟩
  rintro ⟨bg, tokens, hst, gs, -, hbd⟩
  have hst : Except.ok { maxTokens := 500 } = Except.ok bg := hst
  cases hst
  cases gs
  exact absurd hbd (by decide)

end Gibson.Mission
