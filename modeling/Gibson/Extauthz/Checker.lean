import Mathlib.Data.List.Basic

/-! The per-method decision of the gateway, by the registry entry of the method. -/

namespace Gibson.Extauthz

inductive CredentialType where
  | oidcUser
  | clientCredentials
  | capabilityGrant
  | sandboxIdentity
  | platformOperator
  deriving DecidableEq

inductive Issuer where
  | oidc
  | capabilityGrant

/-- A verified identity: `issuedAt` is the time of the decision, `tokenIssuedAt` that of the token,
if it has one. -/
structure Identity where
  subject : String
  issuer : Issuer
  credentialType : CredentialType
  tenant : String := ""
  issuedAt : Int := 0
  tokenIssuedAt : Option Int := none
  componentScope : String := ""

abbrev IdentityClass := UInt8

def identityUser : IdentityClass := 1

def identityService : IdentityClass := 2

def identityComponent : IdentityClass := 4

def identityPlatformOperator : IdentityClass := 8

/-- The rule of a method. -/
structure Entry where
  (relation objectType objectDeriver : String := "")
  allowedIdentities : IdentityClass := 0
  (unauthenticated self : Bool := false)

abbrev Registry := String → Option Entry

def hasStart (start s : String) : Bool := start.toList.isPrefixOf s.toList

def trimStart (start s : String) : String :=
  if hasStart start s then String.ofList (s.toList.drop start.length) else s

def trimEnds (cut : Char → Bool) (s : String) : String :=
  String.ofList ((s.toList.dropWhile cut).reverse.dropWhile cut).reverse

def Entry.needsTenant (e : Entry) : Bool :=
  e.objectDeriver == "tenant_from_identity" || hasStart "tenant_and_field(" e.objectDeriver

def Entry.derivesSystemObject (e : Entry) : Bool := e.objectDeriver == "system_tenant"

/-- The object of such a rule comes from a field of the request body, which the gateway does not
see. -/
def handlerEnforced (e : Entry) : Bool :=
  hasStart "from_field" e.objectDeriver || hasStart "tenant_and_field" e.objectDeriver

def maxObjectIDLen : Nat := 128

def validObjectChar (c : Char) : Bool :=
  ('a' ≤ c && c ≤ 'z') || ('A' ≤ c && c ≤ 'Z') || ('0' ≤ c && c ≤ '9') ||
    c == '.' || c == '_' || c == '-' || c == '/'

def validObjectID (s : String) : Bool :=
  s != "" && s.utf8ByteSize ≤ maxObjectIDLen && s.toList.all validObjectChar

abbrev Meta := List (String × String)

def Meta.get (fields : Meta) (name : String) : String := (fields.lookup name).getD ""

def requestMeta (tenant : String) : Meta := [("tenant", tenant)]

def requestTenant (id : Identity) (fields : Meta) : String :=
  if fields.get "tenant" = "" then id.tenant else fields.get "tenant"

def refToObjectSegment (ref : String) : String :=
  String.ofList (ref.toList.map fun c => if c = ':' then '@' else c)

def secretObject (tenant ref : String) : String :=
  "secret:tenant-" ++ tenant ++ "/" ++ refToObjectSegment ref

def resolveObject (e : Entry) (id : Identity) (fields : Meta) : Option String :=
  let tenant := requestTenant id fields
  if e.objectDeriver = "tenant_from_identity" then
    if tenant = "" then none
    else some (e.objectType ++ ":" ++ trimStart (e.objectType ++ ":") tenant)
  else if e.objectDeriver = "component_from_identity" then
    let scope := id.componentScope
    let bare := trimStart (e.objectType ++ ":") scope
    let name := if bare = scope then trimStart "component:" bare else bare
    if scope = "" then none
    else if validObjectID name then some (e.objectType ++ ":" ++ name)
    else none
  else if e.objectDeriver = "system_tenant" then some (e.objectType ++ ":_system")
  else if tenant = "" then none
  else
    let field := trimEnds "()'\"".toList.contains
      (trimStart "from_field" (trimStart "tenant_and_field" e.objectDeriver))
    let v := fields.get field
    if v = "" then none
    else if hasStart "tenant_and_field" e.objectDeriver then
      if e.objectType = "secret" then some (secretObject tenant v)
      else some (e.objectType ++ ":" ++ tenant ++ "/" ++ v)
    else some (e.objectType ++ ":" ++ v)

def callerClass (id : Identity) : IdentityClass :=
  match id.credentialType with
  | .oidcUser => identityUser
  | .clientCredentials => identityService
  | .capabilityGrant => identityComponent
  | .platformOperator => identityPlatformOperator
  | .sandboxIdentity => 0

def checkIdentityClass (caller allowed : IdentityClass) : Bool :=
  allowed != 0 && allowed &&& caller != 0

/-- A question to the authorization store. -/
structure Query where
  (user relation object : String)

/-- What an answer is cached by. -/
structure CacheKey where
  (subject tenant relation object : String)
  identityClass : IdentityClass
  deriving DecidableEq

def fgaUser (subject : String) (caller : IdentityClass) : String :=
  if caller = identityComponent then subject else "user:" ++ trimStart "spiffe://" subject

/-- The question behind a cached decision. -/
def CacheKey.query (key : CacheKey) : Query :=
  ⟨fgaUser key.subject key.identityClass, key.relation, key.object⟩

/-- A request to check. -/
structure CheckRequest where
  method : String
  identity : Identity
  fields : Meta

/-- How a request is decided: without the authorization store, or by its answer to a question. -/
inductive Route where
  | decided (allowed : Bool)
  | ask (key : CacheKey)

/-- The part of the decision that needs no answer, the same with and without the cache. -/
def route (reg : Registry) (r : CheckRequest) : Route :=
  match reg r.method with
  | none => .decided false
  | some e =>
    let caller := callerClass r.identity
    if e.unauthenticated then .decided true
    else if e.self then
      .decided (r.identity.subject != "" && checkIdentityClass caller e.allowedIdentities)
    else if !checkIdentityClass caller e.allowedIdentities then .decided false
    else if handlerEnforced e then .decided true
    else match resolveObject e r.identity r.fields with
      | none => .decided false
      | some object =>
        .ask
          { subject := r.identity.subject
            tenant := requestTenant r.identity r.fields
            relation := e.relation
            object
            identityClass := caller }

/-- The decision of the checker without a cache, with the answers of the store. -/
def Checker.check (reg : Registry) (answers : Query → Bool) (r : CheckRequest) : Bool :=
  match route reg r with
  | .decided allowed => allowed
  | .ask key => answers key.query

lemma route_subject (hak : route reg r = .ask key) : key.subject = r.identity.subject := by
  unfold route at hak
  split at hak
  · contradiction
  simp only at hak
  repeat' split at hak
  all_goals first | contradiction | skip
  obtain rfl := Route.ask.inj hak
  rfl

end Gibson.Extauthz
