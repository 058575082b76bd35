import Gibson.TenantRole.Sync
import Gibson.Lib.Interleaving
import Gibson.Lib.Prefix

/-! The concurrent writers of a tenant's roles, as the single requests that they make. Nothing locks
the tenant between two requests of a call. -/

namespace Gibson.TenantRole

open Interleaving

def listGrants (grants : List Grant) (orgID : String) (users : List String) : List Grant :=
  grants.filter fun g => g.orgID == orgID && (users.isEmpty || users.contains g.userID)

def activeGrant (grants : List Grant) (t : Tenant) (userID : String) : Option String :=
  ((listGrants grants t.orgID [userID]).find? fun g => g.userID == userID && g.active).map (·.id)

/-- The answer to a request: whether it fails, and for a new grant its id and the user's org. -/
structure Answer where
  fails : Bool := false
  (grantID userOrgID : String := "")

def putGrant (t : Tenant) (grants : List Grant) (existing : Option String) (userID : String)
    (role : Role) (a : Answer) : Option (List Grant) :=
  match existing with
  | some id =>
    if grants.any (·.id == id) then
      some (grants.map fun g => if g.id = id then { g with roleKeys := [role.key] } else g)
    else none
  | none => some (grants ++ [⟨a.grantID, userID, a.userOrgID, t.orgID, [role.key], true⟩])

def refuseSecondOwner (t : Tenant) (grants : List Grant) (userID : String) : Bool :=
  (listGrants grants t.orgID []).any fun g => g.userID != userID && validRole g t == some .owner

/-- A call, by the request that it makes next. -/
inductive Call where
  | refuseSecondOwner (user : String)
  | assignFind (user : String) (role : Role)
  | assignPut (user : String) (role : Role) (existing : Option String)
  | revokeList (user : String)
  | revokeDelete (user : String) (ids : List String)
  | transferFindFrom (fromUser toUser : String)
  | transferFindTo (fromUser toUser : String) (fromGrant : Option String)
  | transferPromote (fromUser toUser : String) (fromGrant toGrant : Option String)
  | transferDemote (fromUser toUser : String) (fromGrant : Option String)
  | syncList (users : List String) (expects : List Expectation)
  | syncRead (users : List String) (desired : Desired)
  | syncWrite (users : List String) (desired : Desired) (seen : List Tuple)
  | ended (err : Option SyncError)

inductive Operation where
  | assign (userID : String) (role : Role)
  | revoke (userID : String)
  | transfer (fromUser toUser : String)
  | sync (users : List String)

def enter (t : Tenant) (op : Operation) : Call :=
  if t.id = "" ∨ t.orgID = "" then .ended (some .noTenant)
  else match op with
    | .assign userID role =>
      if userID = "" then .ended (some .noUser)
      else if role = .owner then .refuseSecondOwner userID
      else .assignFind userID role
    | .revoke userID => if userID = "" then .ended (some .noUser) else .revokeList userID
    | .transfer fromUser toUser =>
      if fromUser = "" ∨ toUser = "" ∨ fromUser = toUser then .ended (some .noUser)
      else .transferFindFrom fromUser toUser
    | .sync users => .syncList users []

def revokeRest (userID : String) : List String → Call
  | [] => .syncList [userID] [⟨userID, none⟩]
  | ids => .revokeDelete userID ids

/-- Both sides of the sync. -/
structure Stores where
  grants : List Grant
  tuples : List Tuple

section
variable (ids : IDPattern) (t : Tenant)

/-- The next request of a call, with the stores after it. -/
def advance (s : Stores) (c : Call) (a : Answer) : Stores × Call :=
  match c with
  | .refuseSecondOwner user =>
    if a.fails then (s, .ended (some .grants))
    else if refuseSecondOwner t s.grants user then (s, .ended (some .ownerHeld))
    else (s, .assignFind user .owner)
  | .assignFind user role =>
    if a.fails then (s, .ended (some .grants))
    else (s, .assignPut user role (activeGrant s.grants t user))
  | .assignPut user role existing =>
    if a.fails then (s, .ended (some .grants))
    else match putGrant t s.grants existing user role a with
      | none => (s, .ended (some .grants))
      | some grants => ({ s with grants }, .syncList [user] [⟨user, some role⟩])
  | .revokeList user =>
    if a.fails then (s, .ended (some .grants))
    else
      (s, revokeRest user (((listGrants s.grants t.orgID [user]).filter fun g =>
        g.userID == user && g.active).map (·.id)))
  | .revokeDelete user grantIDs =>
    if a.fails then (s, .ended (some .grants))
    else match grantIDs with
      | [] => (s, revokeRest user [])
      | id :: rest => ({ s with grants := s.grants.filter (·.id != id) }, revokeRest user rest)
  | .transferFindFrom fromUser toUser =>
    if a.fails then (s, .ended (some .grants))
    else (s, .transferFindTo fromUser toUser (activeGrant s.grants t fromUser))
  | .transferFindTo fromUser toUser fromGrant =>
    if a.fails then (s, .ended (some .grants))
    else (s, .transferPromote fromUser toUser fromGrant (activeGrant s.grants t toUser))
  | .transferPromote fromUser toUser fromGrant toGrant =>
    if a.fails then (s, .ended (some .grants))
    else match putGrant t s.grants toGrant toUser .owner a with
      | none => (s, .ended (some .grants))
      | some grants => ({ s with grants }, .transferDemote fromUser toUser fromGrant)
  | .transferDemote fromUser toUser fromGrant =>
    if a.fails then (s, .ended (some .grants))
    else match putGrant t s.grants fromGrant fromUser .admin a with
      | none => (s, .ended (some .grants))
      | some grants =>
        ({ s with grants },
          .syncList [toUser, fromUser] [⟨toUser, some .owner⟩, ⟨fromUser, some .admin⟩])
  | .syncList users expects =>
    if a.fails then (s, .ended (some .grants))
    else
      let (found, _) := desiredRoles (listGrants s.grants t.orgID users) t
      (s, .syncRead users (expecting expects found))
  | .syncRead users desired =>
    if a.fails then (s, .ended (some .readRoles)) else (s, .syncWrite users desired s.tuples)
  | .syncWrite users desired seen =>
    match plan t users desired (readRoles ids seen t.id) with
    | .error e => (s, .ended (some e))
    | .ok (writes, deletes) =>
      if writes = [] ∧ deletes = [] then (s, .ended none)
      else if a.fails then (s, .ended (some .write))
      else match writeAndDelete s.tuples writes deletes with
        | none => (s, .ended (some .write))
        | some tuples => ({ s with tuples }, .ended none)
  | .ended err => (s, .ended err)

def writers : System Stores Operation Call Answer Empty where
  enter := enter t
  advance := advance ids t
  outside _ event := event.elim

abbrev WritersStep := Step Operation Answer Empty

def runWriters (s : Stores) (steps : List WritersStep) : World Stores Call :=
  run (writers ids t) { shared := s } steps

/-- The stored role tuples name at most one Owner. -/
def AtMostOneOwner (tuples : List Tuple) : Prop :=
  ∀ u v, IsOwner ids t.id tuples u → IsOwner ids t.id tuples v → u = v

/-- The step is the write of a call that read the tuples `seen`, and the store applies it. -/
structure Applies (w : World Stores Call) (x : WritersStep) (seen writes deletes tuples : List Tuple) :
    Prop where
  request : ∃ i a users desired, x = .advance i a ∧ a.fails = false ∧
    w.calls[i]? = some (.syncWrite users desired seen) ∧
    plan t users desired (readRoles ids seen t.id) = .ok (writes, deletes)
  changes : ¬(writes = [] ∧ deletes = [])
  applied : writeAndDelete w.shared.tuples writes deletes = some tuples

/-- The step writes an Owner, though another user has become Owner since its call read the roles. -/
def Overtaken (w : World Stores Call) (x : WritersStep) : Prop :=
  ∃ seen writes deletes tuples, Applies ids t w x seen writes deletes tuples ∧
    ∃ u v, u ≠ v ∧ ids.accepts u = true ∧ roleTuple t.id u Role.owner.relation ∈ writes ∧
      IsOwner ids t.id w.shared.tuples v ∧ ¬IsOwner ids t.id seen v

end

section
variable {ids : IDPattern} {t : Tenant} {w : World Stores Call} {x : WritersStep}

lemma advance_tuples (s c a) :
    (advance ids t s c a).1.tuples = s.tuples ∨
      ∃ us hds hsn wr hdel, c = .syncWrite us hds hsn ∧ a.fails = false ∧
        plan t us hds (readRoles ids hsn t.id) = .ok (wr, hdel) ∧
        ¬(wr = [] ∧ hdel = []) ∧
        writeAndDelete s.tuples wr hdel = some (advance ids t s c a).1.tuples := by
  cases c with
  | syncWrite us hds hsn =>
    unfold advance
    simp only
    cases hpl : plan t us hds (readRoles ids hsn t.id) with
    | error e => exact .inl rfl
    | ok request =>
      obtain ⟨wr, hdel⟩ := request
      simp only
      by_cases hno : wr = [] ∧ hdel = []
      · simp [hno]
      rw [if_neg hno]
      by_cases fails : a.fails = true
      · exact .inl (by rw [if_pos fails])
      rw [if_neg fails]
      cases hap : writeAndDelete s.tuples wr hdel with
      | none => exact .inl rfl
      | some tup =>
        exact .inr ⟨_, _, _, _, _, rfl, by simpa using fails, hpl, hno, hap⟩
  | refuseSecondOwner | assignPut | revokeDelete | transferPromote | transferDemote =>
    unfold advance
    simp only
    split
    · exact .inl rfl
    split <;> exact .inl rfl
  | assignFind | revokeList | transferFindFrom | transferFindTo | syncList | syncRead =>
    unfold advance
    simp only
    split <;> exact .inl rfl
  | ended => exact .inl rfl

lemma step_tuples (ids t) (w : World Stores Call) (x) :
    (step (writers ids t) w x).shared.tuples = w.shared.tuples ∨
      ∃ hsn wr hdel, Applies ids t w x hsn wr hdel
        (step (writers ids t) w x).shared.tuples := by
  cases x with
  | start c => exact .inl rfl
  | outside event => exact event.elim
  | advance i a =>
    simp only [step]
    cases cl : w.calls[i]? with
    | none => exact .inl rfl
    | some c =>
      rcases advance_tuples w.shared c a with hs | written
      · exact .inl hs
      obtain ⟨us, hds, hsn, wr, hdel, rfl, wor, hpl, cha, hap⟩ := written
      exact .inr ⟨hsn, wr, hdel, ⟨i, a, us, hds, rfl, wor, cl, hpl⟩, cha,
        hap⟩

lemma Applies.owner_planned
    (write : Applies ids t w x seen writes deletes tuples) (hac : ids.accepts u = true)
    (hw : roleTuple t.id u Role.owner.relation ∈ writes) (ha : IsOwner ids t.id tuples v)
    (hk : IsOwner ids t.id w.shared.tuples v → IsOwner ids t.id seen v) : u = v := by
  obtain ⟨⟨i, a, us, hds, rfl, wor, cl, hpl⟩, cha, hap⟩ := write
  have hi {o} (hac : ids.accepts o = true)
      (hw : roleTuple t.id o Role.owner.relation ∈ writes) :
      o ∈ newOwners us hds (readRoles ids seen t.id) := by
    obtain ⟨sc, ⟨rl, lkp, hs⟩, -⟩ := (roleTuple_mem_writes hpl hac).mp hw
    rw [← Role.relation_inj hs] at lkp
    exact mem_newOwners.mpr (.inr ⟨sc, lkp⟩)
  suffices second : v ∈ newOwners us hds (readRoles ids seen t.id) by
    have h1 := hi hac hw
    rcases (plan_ok hpl).2 with one | ⟨none, -⟩
    · obtain ⟨o, single⟩ := List.length_eq_one_iff.mp one
      rw [single, List.mem_singleton] at h1 second
      rw [h1, second]
    · rw [none] at h1
      contradiction
  rcases (mem_writeAndDelete hap _).mp ha.2 with ⟨hst, kp⟩ | new
  · have ow := hk ⟨ha.1, hst⟩
    rw [mem_newOwners]
    by_cases sc : v ∈ syncScope us hds (readRoles ids seen t.id)
    · refine .inr ⟨sc, ?_⟩
      -- an Owner in scope who should not be one is deleted
      by_contra other
      refine kp ((roleTuple_mem_deletes hpl).mpr
        ⟨sc, ha.1, Role.owner.relation_mem, ow.2, fun rl lkp hs => other ?_⟩)
      rw [lkp, Role.relation_inj hs]
    · exact .inl ⟨ow, sc⟩
  · exact hi ha.1 new

lemma atMostOneOwner_step (one : AtMostOneOwner ids t w.shared.tuples) :
    AtMostOneOwner ids t (step (writers ids t) w x).shared.tuples ↔ ¬Overtaken ids t w x := by
  constructor
  · rintro hun ⟨hsn, wr, hdel, tup, write, u, v, hdff, hac, hw, ow, huns⟩
    have ha : (step (writers ids t) w x).shared.tuples = tup := by
      obtain ⟨⟨i, a, us, hds, rfl, wor, cl, hpl⟩, cha, hap⟩ := write
      simp only [step, cl, writers, advance, hpl, if_neg cha, wor, Bool.false_eq_true,
        if_false, hap]
    rw [ha] at hun
    have del : roleTuple t.id v Role.owner.relation ∉ hdel := by
      obtain ⟨⟨i, a, us, hds, -, -, -, hpl⟩, -, -⟩ := write
      intro hdl
      exact huns ⟨ow.1, ((roleTuple_mem_deletes hpl).mp hdl).2.2.2.1⟩
    refine hdff (hun u v ⟨hac, ?_⟩ ⟨ow.1, ?_⟩)
    · exact (mem_writeAndDelete write.applied _).mpr (.inr hw)
    · exact (mem_writeAndDelete write.applied _).mpr (.inl ⟨ow.2, del⟩)
  · intro cur
    rcases step_tuples ids t w x with hs | ⟨hsn, wr, hdel, write⟩
    · rwa [hs]
    intro u v h1 h2
    have hk {o o'} (hdff : o ≠ o') (hac : ids.accepts o = true)
        (hw : roleTuple t.id o Role.owner.relation ∈ wr)
        (ow : IsOwner ids t.id w.shared.tuples o') : IsOwner ids t.id hsn o' := by
      by_contra huns
      exact cur ⟨hsn, wr, hdel, _, write, o, o', hdff, hac, hw, ow, huns⟩
    by_contra hdff
    -- if neither of the two was written, both were Owners before
    rcases (mem_writeAndDelete write.applied _).mp h1.2 with ⟨old, -⟩ | new
    · rcases (mem_writeAndDelete write.applied _).mp h2.2 with ⟨old', -⟩ | new'
      · exact hdff (one u v ⟨h1.1, old⟩ ⟨h2.1, old'⟩)
      · exact hdff (write.owner_planned h2.1 new' h1
          (hk (Ne.symm hdff) h2.1 new')).symm
    · exact hdff (write.owner_planned h1.1 new h2 (hk hdff h1.1 new))

/-- The tuples name at most one Owner after every step exactly if no Owner write is overtaken. -/
theorem atMostOneOwner_iff (ids : IDPattern) (t : Tenant) (s : Stores)
    (start : AtMostOneOwner ids t s.tuples) (steps : List WritersStep) :
    (∀ before after, steps = before ++ after →
      AtMostOneOwner ids t (runWriters ids t s before).shared.tuples) ↔
      ∀ before x after, steps = before ++ x :: after →
        ¬Overtaken ids t (runWriters ids t s before) x :=
  safe_iff (P := fun w : World Stores Call => AtMostOneOwner ids t w.shared.tuples) start
    (fun _ _ one => atMostOneOwner_step one) steps

lemma not_overtaken_of_seen (cur : ∀ i a, x = .advance i a → ∀ us hds hsn,
      w.calls[i]? = some (.syncWrite us hds hsn) → hsn = w.shared.tuples) :
    ¬Overtaken ids t w x := by
  rintro ⟨hsn, wr, hdel, tup, write, u, v, -, -, -, ow, huns⟩
  obtain ⟨⟨i, a, us, hds, rfl, -, cl, -⟩, -, -⟩ := write
  obtain rfl := cur i a rfl us hds hsn cl
  exact huns ow

end

def acme : Tenant := ⟨"acme", "org"⟩

/-- Two concurrent Syncs. The second reads the tuples after the first has written. -/
def twoSyncs : List WritersStep :=
  [.start (.sync []), .start (.sync []), .advance 0 {}, .advance 1 {}, .advance 0 {}, .advance 0 {},
   .advance 1 {}, .advance 1 {}]

def joined : Grant := ⟨"g2", "100000000000000002", "org", "org", ["admin"], true⟩

/-- A stored Owner, and a grant of another user that the Syncs still have to write. -/
def ownedStores : Stores :=
  ⟨[promoted, joined], [roleTuple "acme" "100000000000000001" "owner"]⟩

theorem atMostOneOwner_twoSyncs : AtMostOneOwner zitadelIDPattern acme ownedStores.tuples ∧
      (runWriters zitadelIDPattern acme ownedStores twoSyncs).shared.tuples =
        [roleTuple "acme" "100000000000000001" "owner",
          roleTuple "acme" "100000000000000002" "admin"] ∧
      ∀ before after, twoSyncs = before ++ after → AtMostOneOwner zitadelIDPattern acme
          (runWriters zitadelIDPattern acme ownedStores before).shared.tuples := by
  have s0 : AtMostOneOwner zitadelIDPattern acme ownedStores.tuples := by
    intro u v hu hv
    have hu := (roleTuple_inj (List.mem_singleton.mp hu.2)).1
    have hv := (roleTuple_inj (List.mem_singleton.mp hv.2)).1
    rw [hu, hv]
  refine ⟨s0, rfl, (atMostOneOwner_iff zitadelIDPattern acme ownedStores s0 twoSyncs).mpr ?_⟩
  refine Prefix.forall_split ⟨?_, ?_, ?_, ?_, ?_, ?_, ?_, ?_, trivial⟩
  all_goals
    refine not_overtaken_of_seen fun i a hrc us hds hsn cl => ?_
    cases hrc
  all_goals cases cl
  all_goals rfl

/-- Two concurrent Assigns of the Owner role in a tenant without Owner. -/
def twoAssigns : List WritersStep :=
  [.start (.assign "100000000000000001" .owner), .start (.assign "100000000000000002" .owner),
   .advance 0 {}, .advance 1 {}, .advance 0 {}, .advance 1 {},
   .advance 0 { grantID := "g1", userOrgID := "org" },
   .advance 1 { grantID := "g2", userOrgID := "org" },
   .advance 0 {}, .advance 1 {}, .advance 0 {}, .advance 1 {}, .advance 0 {}, .advance 1 {}]

theorem atMostOneOwner_twoAssigns : AtMostOneOwner zitadelIDPattern acme [] ∧
      ¬AtMostOneOwner zitadelIDPattern acme
        (runWriters zitadelIDPattern acme ⟨[], []⟩ twoAssigns).shared.tuples := by
  refine ⟨fun u v ow => by simp [IsOwner] at ow, fun hun => ?_⟩
  have tuples : (runWriters zitadelIDPattern acme ⟨[], []⟩ twoAssigns).shared.tuples =
      [roleTuple "acme" "100000000000000001" "owner",
        roleTuple "acme" "100000000000000002" "owner"] := rfl
  rw [tuples] at hun
  have hs := hun "100000000000000001" "100000000000000002" ⟨by decide, by decide⟩
    ⟨by decide, by decide⟩
  exact absurd hs (by decide)

end Gibson.TenantRole
