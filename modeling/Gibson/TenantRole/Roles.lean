import Mathlib.Data.List.Dedup
import Mathlib.Data.String.Basic

/-! The roles of a tenant: the grants of the identity provider, their copy as tuples, and what a
sync computes from both. -/

namespace Gibson.TenantRole

inductive Role where
  | owner
  | admin
  | editor
  | viewer
  deriving DecidableEq

/-- The key of a role at the identity provider. -/
def Role.key : Role → String
  | .owner => "owner"
  | .admin => "admin"
  | .editor => "editor"
  | .viewer => "viewer"

def Role.relation : Role → String
  | .owner => "owner"
  | .admin => "admin"
  | .editor => "writer"
  | .viewer => "member"

def Role.all : List Role := [.owner, .admin, .editor, .viewer]

def relations : List String := ["owner", "admin", "writer", "member"]

def parse (key : String) : Option Role := Role.all.find? (·.key == key)

/-- A tenant and its organisation. -/
structure Tenant where
  (id orgID : String)

/-- A grant of the identity provider. -/
structure Grant where
  (id userID userOrgID orgID : String)
  roleKeys : List String
  active : Bool

/-- A relationship tuple. -/
structure Tuple where
  (user relation object : String)
  deriving DecidableEq

def roleTuple (tenantID userID relation : String) : Tuple :=
  ⟨"user:" ++ userID, relation, "tenant:" ++ tenantID⟩

/-- The role of an active grant in the org of the tenant with one known role key. -/
def validRole (g : Grant) (t : Tenant) : Option Role :=
  if !g.active then none
  else if g.orgID ≠ t.orgID ∨ g.userOrgID ≠ t.orgID then none
  else match g.roleKeys with
    | [key] => parse key
    | _ => none

/-- The ids that the identity provider issues. -/
structure IDPattern where
  accepts : String → Bool
  nonempty : accepts "" = false

def zitadelIDPattern : IDPattern where
  accepts id := 15 ≤ id.length && id.length ≤ 20 && id.toList.all Char.isDigit
  nonempty := by decide

def userIDFromSubject (subject : String) : String :=
  if 5 < subject.length ∧ "user:".toList.isPrefixOf subject.toList then
    String.ofList (subject.toList.drop 5)
  else subject

section
variable (ids : IDPattern)

def isZitadelUserSubject (subject : String) : Bool :=
  "user:".toList.isPrefixOf subject.toList && ids.accepts (String.ofList (subject.toList.drop 5))

/-- The role tuples that are stored for a tenant. Other relations and other subjects are not
roles of people. -/
def readRoles (store : List Tuple) (tenantID : String) : List Tuple :=
  store.filter fun tup =>
    tup.object == "tenant:" ++ tenantID && relations.contains tup.relation &&
      isZitadelUserSubject ids tup.user

end

/-- The store refuses a tuple named twice, a stored write and the deletion of an absent tuple. -/
def writeAndDelete (store writes deletes : List Tuple) : Option (List Tuple) :=
  if (writes ++ deletes).Nodup ∧ (∀ w ∈ writes, w ∉ store) ∧ ∀ d ∈ deletes, d ∈ store then
    some (store.filter (· ∉ deletes) ++ writes)
  else none

def grantsOf (grants : List Grant) (userID : String) : List Grant :=
  grants.filter (·.userID == userID)

def desiredRole (grants : List Grant) (t : Tenant) (userID : String) : Option Role :=
  match grantsOf grants userID with
  | [g] => validRole g t
  | _ => none

abbrev Desired := List (String × Role)

def desiredRoles (grants : List Grant) (t : Tenant) : Desired × List Grant :=
  let users := (grants.map (·.userID)).dedup
  (users.filterMap fun u => (desiredRole grants t u).map fun role => (u, role),
    users.flatMap fun u => if (desiredRole grants t u).isSome then [] else grantsOf grants u)

/-- What a write has just made true at the identity provider for one user: a role, or that no grant
remains. -/
structure Expectation where
  user : String
  role : Option Role

def Expectation.apply (desired : Desired) (e : Expectation) : Desired :=
  match e.role with
  | some role =>
    if desired.lookup e.user = some role then desired
    else (e.user, role) :: desired.filter (·.1 != e.user)
  | none => desired.filter (·.1 != e.user)

def expecting (expects : List Expectation) (desired : Desired) : Desired :=
  expects.foldl Expectation.apply desired

def actualOf (read : List Tuple) (userID : String) : List Tuple :=
  read.filter fun tup => userIDFromSubject tup.user == userID

def actualUsers (read : List Tuple) : List String :=
  (read.map fun tup => userIDFromSubject tup.user).dedup

def syncScope (users : List String) (desired : Desired) (read : List Tuple) : List String :=
  if users ≠ [] then users else (desired.map (·.1) ++ actualUsers read).dedup

def hasOwner (read : List Tuple) (userID : String) : Bool :=
  (actualOf read userID).any (·.relation == Role.owner.relation)

inductive SyncError where
  | noTenant
  | noUser
  | ownerConflict
  | ownerHeld
  | grants
  | readRoles
  | beforeWrite
  | write

def checkOwnerInvariant (scope : List String) (desired : Desired) (read : List Tuple) :
    Except SyncError Unit :=
  let ownersBefore := (actualUsers read).countP (hasOwner read)
  let ownersOutsideScope := (actualUsers read).countP fun u => hasOwner read u && !scope.contains u
  let desiredOwnersInScope := scope.countP fun u => desired.lookup u == some .owner
  let newOwnerCount := ownersOutsideScope + desiredOwnersInScope
  if newOwnerCount ≠ 1 ∧ (newOwnerCount ≠ 0 ∨ ownersBefore ≠ 0) then .error .ownerConflict
  else .ok ()

def missing (tenantID : String) (desired : Desired) (read : List Tuple) (u : String) : List Tuple :=
  match desired.lookup u with
  | none => []
  | some role =>
    if (actualOf read u).any (·.relation == role.relation) then []
    else [roleTuple tenantID u role.relation]

def stale (desired : Desired) (read : List Tuple) (u : String) : List Tuple :=
  (actualOf read u).filter fun existing =>
    (desired.lookup u).all fun role => existing.relation != role.relation

def diffTuples (tenantID : String) (scope : List String) (desired : Desired) (read : List Tuple) :
    List Tuple × List Tuple :=
  (scope.flatMap (missing tenantID desired read), scope.flatMap (stale desired read))

/-- The request of a sync, or the refusal of one that would not leave exactly one Owner. -/
def plan (t : Tenant) (users : List String) (desired : Desired) (read : List Tuple) :
    Except SyncError (List Tuple × List Tuple) := do
  let scope := syncScope users desired read
  checkOwnerInvariant scope desired read
  return diffTuples t.id scope desired read

/-- What a sync did. -/
structure Result where
  (written deleted : List Tuple := [])
  invalid : List Grant := []

/-- What the calls of a sync answer, apart from the stored tuples. -/
structure Answers where
  grants : Except SyncError (List Grant)
  readFails : Bool := false
  recorded : List Tuple → List Tuple → Bool := fun _ _ => true
  writeFails : Bool := false

/-- One sync that nothing interrupts, with the stored tuples after it. -/
def sync (ids : IDPattern) (t : Tenant) (users : List String) (expects : List Expectation)
    (answers : Answers) (store : List Tuple) : Except SyncError Result × List Tuple :=
  if t.id = "" ∨ t.orgID = "" then (.error .noTenant, store)
  else match answers.grants with
    | .error e => (.error e, store)
    | .ok grants =>
      let (found, invalid) := desiredRoles grants t
      let desired := expecting expects found
      if answers.readFails then (.error .readRoles, store)
      else match plan t users desired (readRoles ids store t.id) with
        | .error e => (.error e, store)
        | .ok (writes, deletes) =>
          if writes = [] ∧ deletes = [] then (.ok { invalid }, store)
          else if !answers.recorded writes deletes then (.error .beforeWrite, store)
          else if answers.writeFails then (.error .write, store)
          else match writeAndDelete store writes deletes with
            | none => (.error .write, store)
            | some store' => (.ok { written := writes, deleted := deletes, invalid }, store')

end Gibson.TenantRole
