import Gibson.Extauthz.Checker
import Gibson.Lib.Loops

/-! The gateway's decision about a request: who calls, for which tenant, and whether it may. -/

namespace Gibson.Extauthz

open Loops

/-- The headers of a request. One that is not there is empty. -/
abbrev HttpHeaders := String → String

def headerJWTPayload : String := "x-jwt-payload"

def headerCapabilityGrant : String := "x-capability-grant"

def headerTenantHint : String := "x-gibson-tenant"

/-- The claims of an access token. -/
structure TokenClaims where
  (iss sub clientID azp resourceOwnerID : String)
  iat : Int

/-- The claims of a grant token. -/
structure GrantClaims where
  (subject tenant : String)
  allowsMethod : String → Bool

/-- A registered principal. -/
structure Descriptor where
  (key principal tenant status : String)

/-- The claims of a component token. -/
structure ComponentClaims where
  (componentScope jti method : String)

/-- The header, the daemon's descriptor of a key, the claims, and the state that admits a token. -/
structure ComponentVerifier where
  peekHeader : String → Option (String × String)
  resolve : String → Option Descriptor
  parse : String → String → Option ComponentClaims
  admitOnce : String → String → Option Bool

inductive OrgTenantError where
  | noTenant
  | unavailable

/-- The gateway's settings. -/
structure Gateway where
  reg : Registry
  (issuerAllowlist humanClientIDs : List String)
  /-- The decoded payload of a token. -/
  payload : String → Option TokenClaims
  orgTenants : String → Except OrgTenantError String
  /-- The verifier of capability grants, if there is one. -/
  grants : Option (String → Option GrantClaims)
  tokenType : String → String
  component : ComponentVerifier
  sandboxIdentityHeader : String

/-- The answers of the cache and of the store, where a failure is none, and the time. -/
structure FGA where
  cached : CacheKey → Option Bool
  check : Query → Option Bool
  /-- Whether a user has an active session on an object with a token of a time. -/
  activeSession : String → String → Int → Option Bool
  now : Int

def userSessionProbeIAT : Int := 253402300799

namespace FGA

variable (fga : FGA)

def decide (reg : Registry) (r : CheckRequest) : Option Bool :=
  match route reg r with
  | .decided allowed => some allowed
  | .ask key => fga.cached key <|> fga.check key.query

def operatorQuery (subject : String) : Query :=
  ⟨"user:" ++ trimStart "spiffe://" subject, "platform_operator", "system_tenant:_system"⟩

def checkPlatformOperator (subject : String) : Option Bool :=
  if subject = "" then none else fga.check (operatorQuery subject)

def checkActiveSession (subject tenant : String) (tokenIssuedAt : Int) : Option Bool :=
  if subject = "" ∨ tenant = "" then none
  else
    fga.activeSession ("user:" ++ trimStart "spiffe://" subject) ("tenant:" ++ tenant) tokenIssuedAt

def checkUserSession (subject : String) (tokenIssuedAt : Int) : Option Bool :=
  let user := "user:" ++ trimStart "spiffe://" subject
  if subject = "" then none
  else match fga.activeSession user user tokenIssuedAt with
    | none => none
    | some true => some true
    | some false => (fga.activeSession user user userSessionProbeIAT).map (!·)

end FGA

inductive Denial where
  | permissionDenied
  | unavailable
  | unauthenticated
  deriving DecidableEq

abbrev Response := Except Denial (List (String × String))

def CredentialType.wire : CredentialType → String
  | .oidcUser => "oidc-user"
  | .clientCredentials => "client-credentials"
  | .capabilityGrant => "capability-grant"
  | .sandboxIdentity => "sandbox-identity"
  | .platformOperator => "platform-operator"

def Issuer.wire : Issuer → String
  | .oidc => "oidc"
  | .capabilityGrant => "capability-grant"

def headerTenant : String := "x-gibson-identity-tenant"

def emit (id : Identity) : List (String × String) :=
  [("x-gibson-identity-subject", id.subject), ("x-gibson-identity-issuer", id.issuer.wire),
   ("x-gibson-identity-credential-type", id.credentialType.wire),
   (headerTenant, id.tenant),
   ("x-gibson-identity-issued-at", toString id.issuedAt)]

def okResponse (id : Identity) (now : Int) : Response := .ok (emit { id with issuedAt := now })

def permitted : Option Bool → Except Denial Unit
  | none => .error .unavailable
  | some false => .error .permissionDenied
  | some true => .ok ()

def isSpace (c : Char) : Bool :=
  [9, 10, 11, 12, 13, 32, 0x85, 0xa0, 0x1680, 0x2000, 0x2001, 0x2002, 0x2003, 0x2004, 0x2005, 0x2006,
    0x2007, 0x2008, 0x2009, 0x200a, 0x2028, 0x2029, 0x202f, 0x205f, 0x3000].contains c.toNat

def trimSpace (s : String) : String := trimEnds isSpace s

def configured (values : List String) : List String := (values.map trimSpace).filter (· != "")

def credentialTypeFor (sub clientID azp : String) (humanClients : List String) : CredentialType :=
  let client := if clientID = "" then azp else clientID
  if clientID ≠ "" ∧ clientID = sub then .clientCredentials
  else if client ≠ "" ∧ humanClients ≠ [] ∧ client ∉ humanClients then .clientCredentials
  else .oidcUser

/-- An identity and its issuer. -/
structure VerifiedToken where
  id : Identity
  (verifiedIss orgID : String)

def extractCapabilityGrant (headers : HttpHeaders) : String :=
  let v := headers headerCapabilityGrant
  if hasStart "bearer " v.toLower then trimSpace (String.ofList (v.toList.drop 7)) else v

def componentTokenType : String := "agent+jwt"

inductive ComponentError where
  | replayStateUnavailable
  | invalid

/-- Who a component acts for. -/
structure ComponentIdentity where
  (principal tenant componentScope : String)

def ComponentVerifier.verify (v : ComponentVerifier) (token method : String) :
    Except ComponentError ComponentIdentity :=
  match v.peekHeader token with
  | none => .error .invalid
  | some (kid, typ) =>
    if typ ≠ componentTokenType ∨ kid = "" then .error .invalid
    else match v.resolve kid with
      | none => .error .invalid
      | some desc =>
        if desc.status ≠ "active" ∨ desc.principal = "" ∨ desc.tenant = "" then .error .invalid
        else match v.parse token desc.key with
          | none => .error .invalid
          | some claims =>
            if claims.method = "" ∨ claims.method ≠ method ∨ claims.jti = "" then .error .invalid
            else match v.admitOnce kid claims.jti with
              | none => .error .replayStateUnavailable
              | some false => .error .invalid
              | some true => .ok ⟨desc.principal, desc.tenant, claims.componentScope⟩

def claimForkMethod : String := "/gibson.harness.v1.HarnessCallbackService/ClaimFork"

def sandboxClaimIdentity : Identity where
  subject := "sandbox-identity-claim"
  issuer := .capabilityGrant
  credentialType := .sandboxIdentity

namespace Gateway

variable (g : Gateway) (fga : FGA) (method : String) (headers : HttpHeaders)

def identityFromJWTPayload : Option VerifiedToken :=
  if headers headerJWTPayload = "" then none
  else match g.payload (headers headerJWTPayload) with
    | none => none
    | some claims =>
      if claims.sub = "" then none
      else some
        { id :=
            { subject := claims.sub
              issuer := .oidc
              credentialType :=
                credentialTypeFor claims.sub claims.clientID claims.azp (configured g.humanClientIDs)
              tokenIssuedAt := if 0 < claims.iat then some claims.iat else none }
          verifiedIss := claims.iss
          orgID := claims.resourceOwnerID }

def checkIssuer (tok : VerifiedToken) : Except Denial Unit :=
  if configured g.issuerAllowlist ≠ [] ∧ tok.verifiedIss ∉ configured g.issuerAllowlist then
    .error .permissionDenied
  else .ok ()

def userTenant (orgID : String) : Except OrgTenantError String :=
  if orgID = "" then .error .noTenant else g.orgTenants orgID

/-- The tenant of a token before any rule: a person's is that of the org, and a person may not name
one. -/
def tokenTenant (tok : VerifiedToken) : Except Denial String :=
  if tok.id.credentialType ≠ .oidcUser then .ok tok.id.tenant
  else if headers headerTenantHint ≠ "" then .error .permissionDenied
  else match g.userTenant tok.orgID with
    | .error .noTenant => .ok tok.id.tenant
    | .error .unavailable => .error .unavailable
    | .ok tenant => .ok tenant

def ruleTenant (id : Identity) : Except Denial String :=
  if id.credentialType = .oidcUser then
    if id.tenant = "" ∧ (g.reg method).all Entry.needsTenant then .error .permissionDenied
    else .ok id.tenant
  else if headers headerTenantHint ≠ "" ∧ id.credentialType = .clientCredentials then
    if fga.checkPlatformOperator id.subject = some true then .ok (headers headerTenantHint)
    else .error .permissionDenied
  else if id.credentialType = .clientCredentials ∧ (g.reg method).any Entry.derivesSystemObject then
    .ok id.tenant
  else .error .permissionDenied

/-- A grant beside a token has to be the caller's own, for its tenant and for the method. -/
def enforceCapabilityGrant (id : Identity) : Except Denial Unit :=
  match g.grants with
  | none => .ok ()
  | some verify =>
    if extractCapabilityGrant headers = "" then .ok ()
    else match verify (extractCapabilityGrant headers) with
      | none => .error .permissionDenied
      | some claims =>
        if claims.tenant ≠ id.tenant then .error .permissionDenied
        else if claims.subject = "" ∨ claims.subject ≠ id.subject then .error .permissionDenied
        else if !claims.allowsMethod method then .error .permissionDenied
        else .ok ()

def checkSessionGate (id : Identity) : Except Denial Unit :=
  if id.credentialType ≠ .oidcUser then .ok ()
  else match id.tokenIssuedAt with
    | none => .error .permissionDenied
    | some iat =>
      permitted (if id.tenant = "" then fga.checkUserSession id.subject iat
        else fga.checkActiveSession id.subject id.tenant iat)

def skipTenantResolution : Bool := (g.reg method).any fun e => e.self || e.unauthenticated

def decideFor (id : Identity) : Response := do
  permitted (fga.decide g.reg ⟨method, id, requestMeta id.tenant⟩)
  checkSessionGate fga id
  okResponse id fga.now

def checkToken (tok : VerifiedToken) : Response := do
  g.checkIssuer tok
  let tenant ← g.tokenTenant headers tok
  let id := { tok.id with tenant }
  if g.skipTenantResolution method then g.decideFor fga method id
  else
    let tenant ← g.ruleTenant fga method headers id
    let id := { id with tenant }
    g.enforceCapabilityGrant method headers id
    g.decideFor fga method id

def tryTaskGrantAuth : Option Response :=
  let token := extractCapabilityGrant headers
  if token = "" ∨ g.tokenType token = componentTokenType then none
  else some (match g.grants with
    | none => .error .unauthenticated
    | some verify =>
      match verify token with
      | none => .error .unauthenticated
      | some claims =>
        if claims.subject = "" ∨ claims.tenant = "" then .error .permissionDenied
        else if !claims.allowsMethod method then .error .permissionDenied
        else okResponse
          { subject := claims.subject
            issuer := .capabilityGrant
            credentialType := .capabilityGrant
            tenant := claims.tenant } fga.now)

def tryComponentAuth : Option Response :=
  let token := extractCapabilityGrant headers
  if token = "" then none
  else some (match g.component.verify token method with
    | .error .replayStateUnavailable => .error .unavailable
    | .error .invalid => .error .unauthenticated
    | .ok cid => do
      let id : Identity :=
        { subject := cid.principal
          issuer := .capabilityGrant
          credentialType := .capabilityGrant
          tenant := cid.tenant
          componentScope := cid.componentScope }
      permitted (fga.decide g.reg ⟨method, id, requestMeta id.tenant⟩)
      okResponse id fga.now)

def claimForkResponse : Response :=
  if extractCapabilityGrant headers ≠ "" then .error .permissionDenied
  else if trimSpace (headers g.sandboxIdentityHeader) = "" then .error .unauthenticated
  else okResponse sandboxClaimIdentity fga.now

def check : Response :=
  if method = claimForkMethod then g.claimForkResponse fga headers
  else match g.identityFromJWTPayload headers with
    | some tok => g.checkToken fga method headers tok
    | none =>
      match g.tryTaskGrantAuth fga method headers with
      | some response => response
      | none =>
        match g.tryComponentAuth fga method headers with
        | some response => response
        | none => .error .unauthenticated

/-- The tenant that the response tells the daemon. -/
def emittedTenant (emitted : List (String × String)) : String :=
  (emitted.lookup headerTenant).getD ""

/-- The request carries the token of a service account. -/
def ServiceAccount : Prop :=
  ∃ tok, g.identityFromJWTPayload headers = some tok ∧ tok.id.credentialType = .clientCredentials

def TenantFree : Prop :=
  ∃ e, g.reg method = some e ∧ (e.self = true ∨ e.unauthenticated = true ∨ e.needsTenant = false)

/-- The tenant that the credential of a request establishes. -/
inductive Established : String → Prop
  | person {tok : VerifiedToken} {tenant : String}
      (token : g.identityFromJWTPayload headers = some tok)
      (human : tok.id.credentialType = .oidcUser)
      (org : g.userTenant tok.orgID = .ok tenant ∨
        g.userTenant tok.orgID = .error .noTenant ∧ tenant = "")
      (free : tenant = "" → TenantFree g method) : Established tenant
  | service {tok : VerifiedToken} {tenant : String}
      (token : g.identityFromJWTPayload headers = some tok)
      (account : tok.id.credentialType = .clientCredentials)
      (operator : tenant = "" ∨ tenant = headers headerTenantHint ∧
        fga.check (FGA.operatorQuery tok.id.subject) = some true) : Established tenant
  | taskGrant {verify : String → Option GrantClaims} {claims : GrantClaims}
      (alone : g.identityFromJWTPayload headers = none)
      (kind : g.tokenType (extractCapabilityGrant headers) ≠ componentTokenType)
      (verifier : g.grants = some verify)
      (signed : verify (extractCapabilityGrant headers) = some claims) : Established claims.tenant
  | component {kid typ : String} {desc : Descriptor}
      (alone : g.identityFromJWTPayload headers = none)
      (kind : g.tokenType (extractCapabilityGrant headers) = componentTokenType)
      (header : g.component.peekHeader (extractCapabilityGrant headers) = some (kid, typ))
      (described : g.component.resolve kid = some desc) : Established desc.tenant

section
variable {g fga method headers} {emitted : List (String × String)}
variable {id : Identity}

lemma emittedTenant_okResponse (res : okResponse id now = .ok emitted) :
    emittedTenant emitted = id.tenant := by
  cases res
  rfl

lemma decideFor_ok (hal : g.decideFor fga method id = .ok emitted) :
    emittedTenant emitted = id.tenant := by
  obtain ⟨-, -, hal⟩ := bind_ok_iff.mp hal
  obtain ⟨-, -, hal⟩ := bind_ok_iff.mp hal
  exact emittedTenant_okResponse hal

lemma identityFromJWTPayload_some (tk : g.identityFromJWTPayload headers = some tok) :
    tok.id.tenant = "" ∧ (tok.id.credentialType = .oidcUser ∨
      tok.id.credentialType = .clientCredentials) := by
  unfold identityFromJWTPayload at tk
  split at tk
  · contradiction
  split at tk
  · contradiction
  next cla _ =>
    by_cases hunn : cla.sub = ""
    · rw [if_pos hunn] at tk
      contradiction
    rw [if_neg hunn] at tk
    cases tk
    refine ⟨rfl, ?_⟩
    simp only [credentialTypeFor]
    split
    · exact .inr rfl
    · exact (ite_eq_or_eq _ _ _).symm

variable {tenant : String}

lemma tokenTenant_person (hunn : tok.id.tenant = "")
    (hum : tok.id.credentialType = .oidcUser) (hf : g.tokenTenant headers tok = .ok tenant) :
    g.userTenant tok.orgID = .ok tenant ∨
      g.userTenant tok.orgID = .error .noTenant ∧ tenant = "" := by
  simp only [tokenTenant, hum, ne_eq, not_true_eq_false, if_false] at hf
  split at hf
  · contradiction
  split at hf
  next none =>
    cases hf
    exact .inr ⟨none, hunn⟩
  · contradiction
  next hrsv =>
    cases hf
    exact .inl hrsv

lemma tokenTenant_service (hunn : tok.id.tenant = "")
    (ac : tok.id.credentialType = .clientCredentials)
    (hf : g.tokenTenant headers tok = .ok tenant) : tenant = "" := by
  simp only [tokenTenant, ac, ne_eq, reduceCtorEq, not_false_eq_true, if_true] at hf
  cases hf
  exact hunn

lemma tenantFree_of_skip (skip : g.skipTenantResolution method = true) : TenantFree g method := by
  unfold skipTenantResolution at skip
  cases en : g.reg method with
  | none => simp [en] at skip
  | some e =>
    have eit : e.self = true ∨ e.unauthenticated = true := by simpa [en] using skip
    exact ⟨e, en, eit.imp_right .inl⟩

lemma ruleTenant_person (hf : g.ruleTenant fga method headers id = .ok tenant)
    (hum : id.credentialType = .oidcUser) :
    tenant = id.tenant ∧ (tenant = "" → TenantFree g method) := by
  simp only [ruleTenant, hum, if_true] at hf
  split at hf
  · contradiction
  next nee =>
    cases hf
    refine ⟨rfl, fun hem => ?_⟩
    cases en : g.reg method with
    | none => exact absurd ⟨hem, by simp [en]⟩ nee
    | some e => exact ⟨e, en, .inr (.inr (by simpa [en, hem] using nee))⟩

lemma ruleTenant_service (hf : g.ruleTenant fga method headers id = .ok tenant)
    (hunn : id.tenant = "") (ac : id.credentialType = .clientCredentials) :
    tenant = "" ∨ tenant = headers headerTenantHint ∧
      fga.check (FGA.operatorQuery id.subject) = some true := by
  simp only [ruleTenant, ac, reduceCtorEq, if_false] at hf
  split at hf
  · split at hf
    next operator =>
      cases hf
      refine .inr ⟨rfl, ?_⟩
      unfold FGA.checkPlatformOperator at operator
      split at operator
      · contradiction
      · exact operator
    · contradiction
  · split at hf
    · cases hf
      exact .inl hunn
    · contradiction

lemma checkToken_ok (tk : g.identityFromJWTPayload headers = some tok)
    (hal : g.checkToken fga method headers tok = .ok emitted) :
    Established g fga method headers (emittedTenant emitted) := by
  obtain ⟨hunn, kd⟩ := identityFromJWTPayload_some tk
  obtain ⟨-, -, hal⟩ := bind_ok_iff.mp hal
  obtain ⟨tenant, hf, hal⟩ := bind_ok_iff.mp hal
  split at hal
  next skip =>
    rw [decideFor_ok hal]
    rcases kd with hum | account
    · exact .person tk hum (tokenTenant_person hunn hum hf)
        fun _ => tenantFree_of_skip skip
    · exact .service tk account (.inl (tokenTenant_service hunn account hf))
  next =>
    obtain ⟨rul, rule, hal⟩ := bind_ok_iff.mp hal
    obtain ⟨-, -, hal⟩ := bind_ok_iff.mp hal
    rw [decideFor_ok hal]
    rcases kd with hum | account
    · obtain ⟨rfl, free⟩ := ruleTenant_person rule hum
      exact .person tk hum (tokenTenant_person hunn hum hf) free
    · have operator := ruleTenant_service rule (tokenTenant_service hunn account hf) account
      exact .service tk account operator

lemma tryTaskGrantAuth_ok (halo : g.identityFromJWTPayload headers = none)
    (hal : g.tryTaskGrantAuth fga method headers = some (.ok emitted)) :
    Established g fga method headers (emittedTenant emitted) := by
  unfold tryTaskGrantAuth at hal
  simp only at hal
  split at hal
  · contradiction
  next kd =>
    have hal := Option.some.inj hal
    repeat' split at hal
    all_goals first | contradiction | skip
    next verify ver _ cla sig _ _ =>
      rw [emittedTenant_okResponse hal]
      exact .taskGrant halo (fun hs => kd (.inr hs)) ver sig

lemma verify_ok {v : ComponentVerifier} (hver : v.verify token method = .ok cid) :
    ∃ kid typ desc cla, v.peekHeader token = some (kid, typ) ∧ v.resolve kid = some desc ∧
      cid.tenant = desc.tenant ∧ v.parse token desc.key = some cla ∧ cla.method = method ∧
      v.admitOnce kid cla.jti = some true := by
  unfold ComponentVerifier.verify at hver
  repeat' split at hver
  all_goals first | contradiction | skip
  next kid typ hea _ _ desc des _ _ cla hpar hbd _ had =>
    cases hver
    exact ⟨kid, typ, desc, cla, hea, des, rfl, hpar, by tauto, had⟩

lemma tryComponentAuth_ok (halo : g.identityFromJWTPayload headers = none)
    (hpd : g.tryTaskGrantAuth fga method headers = none)
    (hal : g.tryComponentAuth fga method headers = some (.ok emitted)) :
    Established g fga method headers (emittedTenant emitted) := by
  unfold tryComponentAuth at hal
  simp only at hal
  split at hal
  · contradiction
  next hpn =>
    have hal := Option.some.inj hal
    split at hal
    · contradiction
    · contradiction
    next cid hver =>
      obtain ⟨-, -, hal⟩ := bind_ok_iff.mp hal
      rw [emittedTenant_okResponse hal]
      obtain ⟨kid, typ, desc, _, hea, des, hs, -⟩ := verify_ok hver
      have kd : g.tokenType (extractCapabilityGrant headers) = componentTokenType := by
        unfold tryTaskGrantAuth at hpd
        simp only at hpd
        split at hpd
        next eit => exact eit.resolve_left hpn
        · contradiction
      simp only [hs]
      exact .component halo kd hea des

lemma check_established (ho : method ≠ claimForkMethod)
    (hal : g.check fga method headers = .ok emitted) :
    Established g fga method headers (emittedTenant emitted) := by
  unfold check at hal
  rw [if_neg ho] at hal
  split at hal
  next tok tk => exact checkToken_ok tk hal
  next halo =>
    split at hal
    next res gt => exact tryTaskGrantAuth_ok halo (by rw [gt, hal])
    next hpd =>
      split at hal
      next res component => exact tryComponentAuth_ok halo hpd (by rw [component, hal])
      · contradiction

lemma Established.unique (hs : ∀ name, name ≠ headerTenantHint → headers' name = headers name)
    (ac : ¬ServiceAccount g headers) (h1 : Established g fga method headers t)
    (h2 : Established g fga' method headers' t') : t' = t := by
  have pay : g.identityFromJWTPayload headers' = g.identityFromJWTPayload headers := by
    simp only [identityFromJWTPayload, hs headerJWTPayload (by decide)]
  have gt : extractCapabilityGrant headers' = extractCapabilityGrant headers := by
    simp only [extractCapabilityGrant, hs headerCapabilityGrant (by decide)]
  cases h1 with
  | service tk kd => exact absurd ⟨_, tk, kd⟩ ac
  | person tk hum org free =>
    cases h2 with
    | service tok' kin' => exact absurd ⟨_, pay.symm.trans tok', kin'⟩ ac
    | person tok' hum' org' fre' =>
      rw [pay, tk] at tok'
      cases tok'
      rcases org with org | ⟨org, rfl⟩
      · rcases org' with org' | ⟨org', rfl⟩
        · exact Except.ok.inj (org'.symm.trans org)
        · rw [org] at org'
          contradiction
      · rcases org' with org' | ⟨org', rfl⟩
        · rw [org] at org'
          contradiction
        · rfl
    | taskGrant halo | component halo =>
      rw [pay, tk] at halo
      contradiction
  | taskGrant halo kd ver sig =>
    cases h2 with
    | service tok' | person tok' =>
      rw [pay, halo] at tok'
      contradiction
    | taskGrant alo' kin' ver' sig' =>
      rw [ver] at ver'
      cases ver'
      rw [gt, sig] at sig'
      cases sig'
      rfl
    | component alo' kin' =>
      rw [gt] at kin'
      contradiction
  | component halo kd hea des =>
    cases h2 with
    | service tok' | person tok' =>
      rw [pay, halo] at tok'
      contradiction
    | taskGrant alo' kin' =>
      rw [gt] at kin'
      contradiction
    | component alo' kin' hea' des' =>
      rw [gt, hea] at hea'
      cases hea'
      rw [des] at des'
      cases des'
      rfl

/-- An allowed request carries the tenant that its credential establishes; for a person, a component
and a task grant no other value of the tenant header makes it carry another. -/
theorem check_tenant (g : Gateway) (fga : FGA) (method : String) (headers : HttpHeaders)
    (emitted : List (String × String)) (other : method ≠ claimForkMethod)
    (allowed : g.check fga method headers = .ok emitted) :
    Established g fga method headers (emittedTenant emitted) ∧
      (¬ServiceAccount g headers → ∀ fga' headers' emitted',
        (∀ name, name ≠ headerTenantHint → headers' name = headers name) →
        g.check fga' method headers' = .ok emitted' →
        emittedTenant emitted' = emittedTenant emitted) := by
  have est := check_established other allowed
  refine ⟨est, fun ac fga' headers' emitted' hs all' => ?_⟩
  exact est.unique hs ac (check_established other all')

/-- One method for the members of a tenant, and one person, of an org with the tenant acme. -/
def oneOrg : Gateway where
  reg method :=
    if method = "/gibson.v1.Missions/List" then
      some
        { relation := "member"
          objectType := "tenant"
          objectDeriver := "tenant_from_identity"
          allowedIdentities := identityUser }
    else none
  issuerAllowlist := []
  humanClientIDs := []
  payload _ := some ⟨"issuer", "u1", "", "", "org", 1⟩
  orgTenants _ := .ok "acme"
  grants := none
  tokenType _ := ""
  component := ⟨fun _ => none, fun _ => none, fun _ _ => none, fun _ _ => none⟩
  sandboxIdentityHeader := "x-sandbox-identity"

def allowing : FGA where
  cached _ := none
  check _ := some true
  activeSession _ _ _ := some true
  now := 2

def signedIn : HttpHeaders := fun name => if name = headerJWTPayload then "payload" else ""

theorem check_tenant_signedIn : oneOrg.check allowing "/gibson.v1.Missions/List" signedIn =
        .ok (emit ⟨"u1", .oidc, .oidcUser, "acme", 2, some 1, ""⟩) ∧
      Established oneOrg allowing "/gibson.v1.Missions/List" signedIn "acme" := by
  have hal : oneOrg.check allowing "/gibson.v1.Missions/List" signedIn =
      .ok (emit ⟨"u1", .oidc, .oidcUser, "acme", 2, some 1, ""⟩) := by decide
  exact ⟨hal, (check_tenant oneOrg allowing _ signedIn _ (by decide) hal).1⟩

end
end Gateway
end Gibson.Extauthz
