import Gibson.Lib.Calls

/-! The stored credentials of one connector: the background refresh and the administrator's actions.
The vendor rotates the refresh token of a consent and accepts only the newest. -/

namespace Gibson.ConnectorAuth

open Interleaving Requests Calls List Function

/-- A refresh token, by its rotation. -/
structure Token where
  (consent rotation : Nat)
deriving DecidableEq

/-- The stored OAuth grant. -/
structure Grant where
  refreshToken : Option Token := none
  (tokenEndpoint clientID clientSecret scope revocationEndpoint authorizedBy : String := "")
  authorizedAt : Int := 0
  static : Bool := false

def Grant.missing (g : Grant) : List String :=
  (if g.static then [] else
    (if g.refreshToken = none then ["refresh_token"] else []) ++
    (if g.tokenEndpoint = "" then ["token_endpoint"] else []) ++
    (if g.clientID = "" then ["client_id"] else [])) ++
  (if g.authorizedBy = "" then ["authorized_by"] else [])

/-- What a refresh returns. -/
structure TokenResponse where
  accessToken : String
  refreshToken : Option Token
  expiresIn : Int

inductive Name where
  | grant
  | access
  | accessMeta
deriving DecidableEq

inductive Err where
  | notFound
  | unavailable

inductive Error where
  | noGrant
  | resolve
  | static
  | refused
  | noAccessToken
  | incomplete (missing : List String)
  | secretRequired
  | put
  | delete (name : Name)
  | unproved
deriving DecidableEq

inductive Request where
  | resolveGrant
  | resolveAccess
  | resolveMeta
  | putGrant (g : Grant)
  | putAccess (secret : String)
  | putMeta (expiresAt : Int)
  | delete (name : Name)
  | refresh (token : Option Token)
  | revoke (token : Option Token)

abbrev Reply : Request → Type
  | .resolveGrant => Except Err Grant
  | .resolveAccess => Except Err String
  | .resolveMeta => Except Err Int
  | .refresh _ => Except Err TokenResponse
  | .revoke _ => Bool
  | _ => Except Err Unit

abbrev Prog := Program Request Reply (Except Error Unit)

def publish (now : Int) (tr : TokenResponse) : Prog :=
  .ask (.putAccess tr.accessToken) fun
    | .error _ => .done (.error .put)
    | .ok _ =>
      .ask (.putMeta (now + if tr.expiresIn = 0 then 3600 else tr.expiresIn)) fun
        | .error _ => .done (.error .put)
        | .ok _ => .done (.ok ())

def keepTokens (now : Int) (grant : Grant) (tr : TokenResponse) : Prog :=
  if tr.accessToken = "" then .done (.error .noAccessToken)
  else if tr.refreshToken ≠ none ∧ tr.refreshToken ≠ grant.refreshToken then
    let rotated := { grant with refreshToken := tr.refreshToken }
    if rotated.missing ≠ [] then .done (.error (.incomplete rotated.missing))
    else .ask (.putGrant rotated) fun
      | .error _ => .done (.error .put)
      | .ok _ => publish now tr
  else publish now tr

def refreshGrant (now : Int) (grant : Grant) : Prog :=
  if grant.static then .done (.error .static)
  else .ask (.refresh grant.refreshToken) fun
    | .error _ => .done (.error .refused)
    | .ok tr => keepTokens now grant tr

def loadGrant (found : Grant → Prog) : Prog :=
  .ask .resolveGrant fun
    | .error .notFound => .done (.error .noGrant)
    | .error .unavailable => .done (.error .resolve)
    | .ok grant => found grant

def refresh (now : Int) : Prog := loadGrant (refreshGrant now)

def ensureFresh (soon now : Int) : Prog :=
  let pass : Prog := loadGrant fun grant =>
    if grant.static then .done (.ok ()) else refreshGrant now grant
  .ask .resolveAccess fun
    | .error _ => pass
    | .ok access =>
      if access = "" then pass
      else .ask .resolveMeta fun
        | .error _ => pass
        | .ok expiresAt => if soon < expiresAt then .done (.ok ()) else pass

def proved : Except Error Unit → Prog
  | .ok _ => .done (.ok ())
  | .error _ => .ask (.delete .grant) fun _ => .done (.error .unproved)

def storeAndProve (now : Int) (grant : Grant) : Prog :=
  if grant.missing ≠ [] then .done (.error (.incomplete grant.missing))
  else .ask (.putGrant grant) fun
    | .error _ => .done (.error .put)
    | .ok _ => refresh now >>= proved

def deleteAll : List Name → Prog
  | [] => .done (.ok ())
  | name :: names => .ask (.delete name) fun
    | .error .unavailable => .done (.error (.delete name))
    | _ => deleteAll names

def revoke : Prog :=
  .ask .resolveGrant fun
    | .error .notFound => .done (.ok ())
    | .error .unavailable => .done (.error .resolve)
    | .ok grant =>
      if grant.revocationEndpoint ≠ "" then
        .ask (.revoke grant.refreshToken) fun _ => deleteAll [.grant, .access, .accessMeta]
      else deleteAll [.grant, .access, .accessMeta]

def staticGrant (subject : String) (now : Int) : Grant :=
  { static := true, authorizedBy := "user:" ++ subject, authorizedAt := now }

def setConnectorSecret (subject secret : String) (now : Int) : Prog :=
  if secret = "" then .done (.error .secretRequired)
  else .ask (.putAccess secret) fun
    | .error _ => .done (.error .put)
    | .ok _ => .ask (.putGrant (staticGrant subject now)) fun
      | .error _ => .done (.error .put)
      | .ok _ => .ask (.delete .accessMeta) fun
        | .error .unavailable => .done (.error (.delete .accessMeta))
        | _ => .done (.ok ())

inductive Action where
  | authorize (now : Int) (grant : Grant)
  | setSecret (subject secret : String) (now : Int)
  | revoke

def Action.body : Action → Prog
  | .authorize now grant => storeAndProve now grant
  | .setSecret subject secret now => setConnectorSecret subject secret now
  | .revoke => ConnectorAuth.revoke

inductive Op where
  | pass (soon now : Int)
  | act (action : Action)

def Op.body : Op → Prog
  | .pass soon now => ensureFresh soon now
  | .act action => action.body

/-- The three secrets of a connector. -/
structure Secrets where
  grant : Option Grant := none
  access : Option String := none
  expiresAt : Option Int := none
  newest : Nat → Option Nat := fun _ => none

/-- Whether a request succeeds, and what the vendor gives for a refresh. -/
structure Answer where
  ok : Bool := true
  accessToken : String := "access"
  expiresIn : Int := 0

def found {α : Type} (a : Answer) (stored : Option α) : Except Err α :=
  if a.ok then stored.elim (.error .notFound) .ok else .error .unavailable

def Secrets.delete (s : Secrets) : Name → Secrets
  | .grant => { s with grant := none }
  | .access => { s with access := none }
  | .accessMeta => { s with expiresAt := none }

def Secrets.has (s : Secrets) : Name → Bool
  | .grant => s.grant.isSome
  | .access => s.access.isSome
  | .accessMeta => s.expiresAt.isSome

def write (s s' : Secrets) (a : Answer) : Secrets × Except Err Unit :=
  if a.ok then (s', .ok ()) else (s, .error .unavailable)

def Secrets.rotate (s : Secrets) (a : Answer) : Option Token → Secrets × Except Err TokenResponse
  | some t =>
    if a.ok ∧ s.newest t.consent = some t.rotation then
      ({ s with newest := update s.newest t.consent (some (t.rotation + 1)) },
        .ok ⟨a.accessToken, some ⟨t.consent, t.rotation + 1⟩, a.expiresIn⟩)
    else (s, .error .unavailable)
  | none => (s, .error .unavailable)

def serve (s : Secrets) (q : Request) (a : Answer) : Option (Secrets × Reply q) :=
  some <| match q with
  | .resolveGrant => (s, found a s.grant)
  | .resolveAccess => (s, found a s.access)
  | .resolveMeta => (s, found a s.expiresAt)
  | .putGrant g => write s { s with grant := some g } a
  | .putAccess secret => write s { s with access := some secret } a
  | .putMeta expiresAt => write s { s with expiresAt := some expiresAt } a
  | .delete name =>
    if a.ok then (s.delete name, if s.has name then .ok () else .error .notFound)
    else (s, .error .unavailable)
  | .refresh token => s.rotate a token
  | .revoke token => match token with
    | some t => if a.ok then
        ({ s with newest := update s.newest t.consent none }, true) else (s, false)
    | none => (s, false)

def connector : System (Served Secrets Op Request Reply) Op
    (Call Op Request Reply (Except Error Unit)) Answer Empty :=
  system Op.body serve fun s _ => s

/-- The grants that may be stored after an action: its own, or its own with a token that was rotated
from it. -/
def Action.Wrote : Action → Grant → Prop
  | .authorize _ grant, g => ∃ token : Option Token,
      token.map Token.consent = grant.refreshToken.map Token.consent ∧
      g = { grant with refreshToken := token }
  | .setSecret subject _ now, g => g = staticGrant subject now
  | .revoke, _ => False

/-- The action has the last word. -/
def Action.Settled (action : Action) (s : Secrets) : Prop :=
  match action with
  | .authorize .. => ∃ g, s.grant = some g ∧ action.Wrote g
  | .setSecret subject secret now =>
    s.grant = some (staticGrant subject now) ∧ s.access = some secret
  | .revoke => s.grant = none ∧ s.access = none ∧ s.expiresAt = none

def Action.Allows (action : Action) : Request → Prop
  | .putGrant g => action.Wrote g ∧ g.static = false
  | .putAccess _ | .putMeta _ => ∃ g, action.Wrote g ∧ g.static = false
  | .delete _ | .revoke _ => False
  | _ => True

def Action.Tells (action : Action) : (q : Request) → Reply q → Prop
  | .resolveGrant, r => ∀ g, r = .ok g → action.Wrote g
  | .refresh token, r => ∀ tr, r = .ok tr → ∀ t', tr.refreshToken = some t' →
      ∃ t, token = some t ∧ t'.consent = t.consent
  | _, _ => True

variable {action : Action}

lemma wrote_rotated (hwr : action.Wrote g) (hdy : g.static = false)
    (tk : g.refreshToken = some t) (hs : t'.consent = t.consent) :
    action.Wrote { g with refreshToken := some t' } := by
  cases action with
  | authorize now gt =>
    obtain ⟨hlt, con, rfl⟩ := hwr
    obtain rfl : hlt = some t := tk
    exact ⟨some t', (congrArg some hs).trans con, rfl⟩
  | setSecret sub sec now =>
    obtain rfl := hwr
    cases hdy
  | revoke => exact hwr.elim

lemma Action.Settled.congr (hse : action.Settled s) (gt : s'.grant = s.grant)
    (access : s'.access = s.access) (hxpi : s'.expiresAt = s.expiresAt) : action.Settled s' := by
  cases action <;> simpa [Action.Settled, gt, access, hxpi] using hse

lemma wrote_of_settled (hse : action.Settled s)
    (hst : s.grant = some g) : action.Wrote g := by
  cases action with
  | authorize now gt =>
    obtain ⟨g', hh, hwr⟩ := hse
    cases hst.symm.trans hh
    exact hwr
  | setSecret sub sec now => exact Option.some.inj (hst.symm.trans hse.1)
  | revoke => cases hst.symm.trans hse.1

/-- Writes of a pass: only an authorisation leaves a grant that is not static. -/
lemma settled_write (hse : action.Settled s) (may : ∃ g, action.Wrote g ∧ g.static = false)
    (gt : s'.grant = s.grant ∨ ∃ g, s'.grant = some g ∧ action.Wrote g) : action.Settled s' := by
  obtain ⟨g, hwr, hdy⟩ := may
  cases action with
  | authorize now own =>
    rcases gt with hs | new
    · obtain ⟨g', hh, hwr⟩ := hse
      exact ⟨g', hs.trans hh, hwr⟩
    · exact new
  | setSecret sub sec now =>
    obtain rfl := hwr
    cases hdy
  | revoke => exact hwr.elim

lemma settled_served {s s' q a r}
    (hse : action.Settled s) (hal : action.Allows q) (hv : serve s q a = some (s', r)) :
    action.Tells q r ∧ action.Settled s' := by
  cases q with
  | resolveGrant =>
    cases hv
    refine ⟨fun g rd => wrote_of_settled hse ?_, hse⟩
    unfold found at rd
    split at rd
    · cases hst : s.grant with
      | none => simp [hst] at rd
      | some g' => simpa [hst] using rd
    · cases rd
  | resolveAccess | resolveMeta =>
    cases hv
    exact ⟨trivial, hse⟩
  | putGrant g =>
    refine ⟨trivial, ?_⟩
    simp only [serve, write] at hv
    split at hv <;> cases hv
    · exact settled_write hse ⟨g, hal⟩ (.inr ⟨g, rfl, hal.1⟩)
    · exact hse
  | putAccess sec | putMeta exp =>
    refine ⟨trivial, ?_⟩
    simp only [serve, write] at hv
    split at hv <;> cases hv
    · exact settled_write hse hal (.inl rfl)
    · exact hse
  | delete name | revoke tk => exact hal.elim
  | refresh tk =>
    cases tk with
    | none =>
      cases hv
      exact ⟨(by intro tr rd; cases rd), hse⟩
    | some t =>
      simp only [serve, Secrets.rotate] at hv
      split at hv <;> cases hv
      · refine ⟨fun tr rd t' new => ⟨t, rfl, ?_⟩, hse.congr rfl rfl rfl⟩
        cases rd
        cases new
        rfl
      · exact ⟨(by intro tr rd; cases rd), hse⟩

abbrev Action.Obeyed (action : Action) (past : History Request Reply) (p : Prog) : Prop :=
  Obeys action.Tells (fun _ => action.Allows) (fun _ => True) past p

lemma publish_obeys (may : ∃ g, action.Wrote g ∧ g.static = false) :
    action.Obeyed past (publish now tr) := by
  refine ⟨may, forall_ok fun _ _ => ?_⟩
  exact ⟨may, forall_ok fun _ _ => trivial⟩

lemma refreshGrant_obeys {now g past} (hwr : action.Wrote g) :
    action.Obeyed past (refreshGrant now g) := by
  unfold refreshGrant
  split
  · trivial
  next hdy =>
  have hdy : g.static = false := by simpa using hdy
  refine ⟨trivial, forall_ok fun tr told => ?_⟩
  show Obeys _ _ _ _ (keepTokens now g tr)
  unfold keepTokens
  split
  · trivial
  split
  · next rot =>
    dsimp only
    split
    · trivial
    obtain ⟨t', new⟩ := Option.ne_none_iff_exists'.mp rot.1
    obtain ⟨t, tk, hs⟩ := told tr rfl t' new
    have rot0 := wrote_rotated hwr hdy tk hs
    rw [← new] at rot0
    exact ⟨⟨rot0, hdy⟩, forall_ok fun _ _ =>
      publish_obeys ⟨g, hwr, hdy⟩⟩
  · exact publish_obeys ⟨g, hwr, hdy⟩

lemma loadGrant_obeys {k : Grant → Prog} {past} (rs : ∀ g past, action.Wrote g → action.Obeyed past (k g)) :
    action.Obeyed past (loadGrant k) := by
  refine ⟨trivial, fun an told => ?_⟩
  cases an with
  | error e => cases e <;> trivial
  | ok g => exact rs g _ (told g rfl)

lemma ensureFresh_obeys (soon now : Int) : action.Obeyed [] (ensureFresh soon now) := by
  have pass (pa : History Request Reply) :
      action.Obeyed pa (loadGrant fun gt =>
        if gt.static then .done (.ok ()) else refreshGrant now gt) := by
    refine loadGrant_obeys fun g pa hwr => ?_
    split
    · trivial
    · exact refreshGrant_obeys hwr
  refine ⟨trivial, forall_except (fun _ _ => pass _) fun access _ => ?_⟩
  show Obeys _ _ _ _ (if access = "" then _ else _)
  split
  · exact pass _
  refine ⟨trivial, forall_except (fun _ _ => pass _) fun exp _ => ?_⟩
  show Obeys _ _ _ _ (if soon < exp then _ else _)
  split
  · trivial
  · exact pass _

lemma storeAndProve_ensures (now : Int) (grant s) :
    Ensures serve (fun s x => x = .ok () → (Action.authorize now grant).Settled s) s
      (storeAndProve now grant) := by
  unfold storeAndProve
  split
  · exact fun h => by cases h
  intro a s' r hv
  simp only [serve, write] at hv
  split at hv <;> cases hv
  · have hse : (Action.authorize now grant).Settled { s with grant := some grant } :=
      ⟨grant, rfl, grant.refreshToken, rfl, rfl⟩
    have kp := ensures_of_obeys (f := serve) (fun _ _ _ _ _ => settled_served) hse
      (@loadGrant_obeys _ (refreshGrant now) [] fun g pa => refreshGrant_obeys)
    refine kp.bind fun s x hdn => ?_
    cases x with
    | ok _ => exact fun _ => hdn.1
    | error e => exact fun a s' r hv h => by cases h
  · exact fun h => by cases h

lemma setConnectorSecret_ensures (subject secret) (now : Int) (s) :
    Ensures serve (fun s x => x = .ok () → (Action.setSecret subject secret now).Settled s) s
      (setConnectorSecret subject secret now) := by
  unfold setConnectorSecret
  split
  · exact fun h => by cases h
  intro a s' r hv
  simp only [serve, write] at hv
  split at hv <;> cases hv
  · intro a s' r hv
    simp only [serve, write] at hv
    split at hv <;> cases hv
    · intro a s' r hv
      simp only [serve] at hv
      split at hv <;> cases hv
      · cases (Secrets.has _ Name.accessMeta) <;> exact fun _ => ⟨rfl, rfl⟩
      · exact fun h => by cases h
    · exact fun h => by cases h
  · exact fun h => by cases h

lemma deleteAll_ensures {Post : Secrets → Prop} (names s)
    (hgn : Post (names.foldl Secrets.delete s)) :
    Ensures serve (fun s x => x = .ok () → Post s) s (deleteAll names) := by
  induction names generalizing s with
  | nil => exact fun _ => hgn
  | cons name names ih =>
    intro a s' r hv
    simp only [serve] at hv
    split at hv <;> cases hv
    · cases s.has name <;> exact ih _ hgn
    · exact fun h => by cases h

lemma revoke_ensures (found : s.grant ≠ none ∨ s.access = none ∧ s.expiresAt = none) :
    Ensures serve (fun s x => x = .ok () → Action.revoke.Settled s) s revoke := by
  intro a s' r hv
  cases hv
  unfold ConnectorAuth.found
  split
  · cases hst : s.grant with
    | none => exact fun _ => ⟨hst, found.resolve_left (absurd hst)⟩
    | some g =>
      show Ensures _ _ _ (if g.revocationEndpoint ≠ "" then _ else _)
      split
      · intro a s' r hv
        exact deleteAll_ensures _ _ ⟨rfl, rfl, rfl⟩
      · exact deleteAll_ensures _ _ ⟨rfl, rfl, rfl⟩
  · exact fun h => by cases h

/-- A pass under way that has not loaded the grant: so far it has looked at the access token and its
expiry. -/
def Unread (c : Call Op Request Reply (Except Error Unit)) : Prop :=
  (∃ soon now, c.op = .pass soon now) ∧ Follows c.op.body c.past c.rest ∧
    ∀ e ∈ c.past, e.1 = .resolveAccess ∨ e.1 = .resolveMeta

/-- An action that succeeded while no pass under way had loaded the grant has the last word,
whatever passes go on or begin later. -/
theorem action_has_last_word (action : Action) (s : Secrets) (answers : List Answer)
    (before : Served Secrets Op Request Reply)
    (ran : solo serve answers s action.body = (before.state, .done (.ok ())))
    (found : action = .revoke → s.grant ≠ none ∨ s.access = none ∧ s.expiresAt = none)
    (calls : List (Call Op Request Reply (Except Error Unit))) (unread : ∀ c ∈ calls, Unread c)
    (traced : ∀ c ∈ calls, ∀ e ∈ c.past, (c.op, e) ∈ before.trace)
    (steps : List (Step Op Answer Empty))
    (passes : ∀ op, .start op ∈ steps → ∃ soon now, op = .pass soon now) :
    action.Settled (run connector ⟨before, calls⟩ steps).shared.state := by
  have hse : action.Settled before.state := by
    cases action with
    | authorize now grant => exact (storeAndProve_ensures now grant s).solo ran rfl
    | setSecret sub sec now =>
      exact (setConnectorSecret_ensures sub sec now s).solo ran rfl
    | revoke => exact (revoke_ensures (found rfl)).solo ran rfl
  have bod (op : Op) (isP : ∃ soon now, op = .pass soon now) : action.Obeyed [] op.body := by
    obtain ⟨soon, now, rfl⟩ := isP
    exact ensureFresh_obeys soon now
  refine (lawful_run (I := fun s => action.Settled s.state) (V := action.Tells)
    (P := fun _ _ => action.Allows) (T := fun _ _ => True) (n := 0)
    (L := fun op => ∃ soon now, op = .pass soon now) steps hse ?_ (Nat.zero_le _) bod
    (fun _ _ _ _ _ _ none => absurd none (Nat.lt_irrefl 0)) ?_ (fun _ e => e.elim) passes).1
  · intro i c _ hh
    have mem := mem_of_getElem? hh
    obtain ⟨isP, hfol, rea⟩ := unread c mem
    refine ⟨isP, hfol.obeys (bod c.op isP) fun e inP => ?_, traced c mem⟩
    have rd := rea e inP
    obtain ⟨q, r⟩ := e
    rcases rd with rfl | rfl <;> trivial
  · exact fun s op past q a state r _ inv hal _ hv => settled_served inv hal hv

/-- An action runs as if alone while the passes only look at the access token and its expiry. -/
lemma act_solo (action : Action) (w : World (Served Secrets Op Request Reply)
    (Call Op Request Reply (Except Error Unit))) (ss : List (Step Op Answer Empty))
    (rea : ∀ hb j a ha, ss = hb ++ .advance j a :: ha → j ≠ w.calls.length → ∀ c q nx,
      (run connector w (.start (.act action) :: hb)).calls[j]? = some c → c.rest = .ask q nx →
        q = .resolveAccess ∨ q = .resolveMeta) :
    ∃ ans c, (run connector w (.start (.act action) :: ss)).calls[w.calls.length]? = some c ∧
      solo serve ans w.shared.state action.body =
        ((run connector w (.start (.act action) :: ss)).shared.state, c.rest) := by
  refine solo_run (w := step connector w (.start (.act action))) ss
    (c := connector.enter (.act action)) getElem?_concat_length ?_
  intro hb x ha split ho
  obtain hs | ⟨e, -⟩ | ⟨j, a, c, q, nx, st, r, rfl, cl, rs, hv, hs⟩ :=
    step_shared (b := Op.body) (f := serve) (g := fun s (_ : Empty) => s)
      (run connector (step connector w (.start (.act action))) hb) x
  · exact congrArg Served.state hs
  · exact e.elim
  · refine (congrArg Served.state hs).trans ?_
    obtain rfl | rfl := rea hb j a ha split (fun own => ho a (own ▸ rfl)) c q nx cl rs
    · cases hv
      rfl
    · cases hv
      rfl

/-- A grant whose token is the newest of its consent. -/
def granted : Secrets where
  grant := some { refreshToken := some ⟨0, 0⟩, tokenEndpoint := "e", clientID := "c",
                  authorizedBy := "user:u" }
  newest := fun _ => some 0

theorem action_has_last_word_revoked :
    Action.revoke.Settled (run connector ⟨⟨(solo serve (List.replicate 4 {}) granted
      Action.revoke.body).1, []⟩, [⟨.pass 0 0, [], Op.body (.pass 0 0)⟩]⟩
      [.advance 0 {}, .advance 0 {}]).shared.state := by
  refine action_has_last_word .revoke granted (replicate 4 {}) ⟨_, []⟩ rfl
    (fun _ => .inl (by decide)) _ (fun c mem => ?_) (fun c mem => ?_) _ (by simp)
  · obtain rfl := mem_singleton.mp mem
    exact ⟨⟨0, 0, rfl⟩, .start, by simp⟩
  · obtain rfl := mem_singleton.mp mem
    simp

def result (c : Call Op Request Reply (Except Error Unit)) : Option (Except Error Unit) :=
  match c.rest with
  | .done x => some x
  | .ask .. => none

/-- A pass has loaded the grant when it is revoked: it stores the rotated one, with its access
token and expiry. -/
theorem revoked_grant_returns :
    let w := run connector ⟨⟨granted, []⟩, []⟩ ([.start (.pass 0 0), .advance 0 {}, .advance 0 {},
      .start (.act .revoke)] ++ replicate 4 (.advance 1 {}) ++ replicate 4 (.advance 0 {}))
    w.calls.map result = [some (.ok ()), some (.ok ())] ∧
      (w.shared.state.grant.bind (·.refreshToken)) = some ⟨0, 1⟩ ∧
      w.shared.state.access = some "access" ∧ w.shared.state.expiresAt = some 3600 := by
  decide

end Gibson.ConnectorAuth
