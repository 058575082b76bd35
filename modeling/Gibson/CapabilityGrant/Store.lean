import Mathlib.Data.Finset.Dedup
import Mathlib.Data.Finset.Order
import Mathlib.Data.List.Induction
import Gibson.Lib.Loops

/-! The store of enrolled hosts and agents. An enrolment is one transaction; a run is any sequence
of committed enrolments and of revocations, in commit order. -/

namespace Gibson.CapabilityGrant

open List

def second : Int := 1000000000

def hour : Int := 3600 * second

def defaultBootstrapTTL : Int := hour

def maxBootstrapTTL : Int := 24 * hour

inductive Status where
  | active
  | pending
  | revoked
deriving DecidableEq

/-- A host; an empty `userID` is stored as NULL. -/
structure Host where
  (id tenantID : String)
  (userID displayName publicKeyJWK : String := "")
  status : Status := .active
  principalRef : String := ""
  attested : Bool := false
  agentName : String := ""
  capabilityCeiling : List String := []
  updatedAt : Int := 0

/-- An agent row. -/
structure Agent where
  (id hostID tenantID : String)
  attested : Bool := false

/-- A grant of a capability. -/
structure Grant where
  (capabilityName componentRef constraints status : String)

/-- A spent credential. -/
structure Consumption where
  (tokenHash tenantID hostID agentID : String)
  consumedAt : Int

/-- What an enrollment writes. -/
structure Enrollment where
  host : Host
  agent : Agent
  grants : List Grant := []
  bootstrapTokenHash : String := ""
  keepHostAttestation : Bool := false

inductive Error where
  | tenantRequired
  | tenantMismatch (host agent : String)
  | credentialConsumed
  | hostNotRegistrable
  | duplicateAgent
  | agentNotInTenant
  | claimsRequired
  | ttlExceeds
  | badCeilingEntry (entry : String)
deriving DecidableEq

/-- `created` is not stored: it is the history of the committed enrolments. -/
structure Tables where
  hosts : List Host := []
  agents : List Agent := []
  grants : List (String × Grant) := []
  consumptions : List Consumption := []
  created : List (String × String) := []

/-- The claims of a bootstrap token. -/
structure BootstrapClaims where
  (tenantID ownerUserID principalID kind name : String)
  capabilityCeiling : List String

/-- The signed claims of a credential; `iat` and `exp` are in seconds. -/
structure BootstrapToken where
  (sub tenant owner kind name : String)
  scope : List String
  (iat exp : Int)
deriving DecidableEq

def badEntry (entry : String) : Bool :=
  entry.isEmpty || entry.toList.any (" \t\r\n".toList.contains ·)

def mintBootstrapToken (c : BootstrapClaims) (now ttl : Int) : Except Error BootstrapToken :=
  if c.tenantID = "" ∨ c.ownerUserID = "" ∨ c.principalID = "" then .error .claimsRequired
  else if ttl > maxBootstrapTTL then .error .ttlExceeds
  else
    let ttl := if ttl ≤ 0 then defaultBootstrapTTL else ttl
    match c.capabilityCeiling.find? badEntry with
    | some entry => .error (.badCeilingEntry entry)
    | none => .ok {
        sub := c.principalID, tenant := c.tenantID, owner := c.ownerUserID, kind := c.kind
        name := c.name, scope := "capabilitygrant:register" :: c.capabilityCeiling
        iat := now / second, exp := (now + ttl) / second }

variable {now : Int}

lemma exp_le (h : mintBootstrapToken c now ttl = .ok token) :
    token.exp * second ≤ now + maxBootstrapTTL := by
  unfold mintBootstrapToken at h
  split at h
  · cases h
  split at h
  · cases h
  next hsho =>
  dsimp only at h
  split at h
  · cases h
  cases h
  simp only [second, maxBootstrapTTL, defaultBootstrapTTL, hour] at hsho ⊢
  split <;> omega

def consumeBootstrapCredential (now : Int) (e : Enrollment) (rows : List Consumption) :
    Except Error (List Consumption) :=
  if rows.any (·.tokenHash == e.bootstrapTokenHash) then .error .credentialConsumed
  else
    let row : Consumption := {
      tokenHash := e.bootstrapTokenHash, tenantID := e.agent.tenantID
      hostID := e.host.id, agentID := e.agent.id, consumedAt := now }
    .ok ((rows ++ [row]).filter fun c => decide (now - 48 * hour ≤ c.consumedAt))

def registrable (host row : Host) : Bool :=
  row.id == host.id && row.tenantID == host.tenantID && row.status != .revoked

def updateHost (host : Host) (set : Host → Host) (hosts : List Host) : Except Error (List Host) :=
  if hosts.any (registrable host) then
    .ok (hosts.map fun row => if registrable host row then set row else row)
  else .error .hostNotRegistrable

def touchHostTx (now : Int) (host : Host) : List Host → Except Error (List Host) :=
  updateHost host fun row => { row with updatedAt := now }

def upsertHostTx (now : Int) (host : Host) (keepAttestation : Bool) (hosts : List Host) :
    Except Error (List Host) :=
  if keepAttestation then touchHostTx now host hosts
  else if hosts.any (·.id == host.id) then
    updateHost host (fun row => { host with
      tenantID := row.tenantID
      principalRef := if host.principalRef ≠ "" then host.principalRef else row.principalRef
      attested := if keepAttestation then row.attested else host.attested
      updatedAt := now }) hosts
  else .ok (hosts ++ [{ host with
    attested := host.attested && !keepAttestation, updatedAt := now }])

def createAgentTx (agent : Agent) (hosts : List Host) (agents : List Agent) :
    Except Error (List Agent) :=
  match hosts.find? fun h =>
      h.id == agent.hostID && h.tenantID == agent.tenantID && h.status != .revoked with
  | none => .error .hostNotRegistrable
  | some h =>
    if agents.any (·.id == agent.id) then .error .duplicateAgent
    else .ok (agents ++ [{ agent with attested := h.attested }])

def replaceGrantsTx (tenantID agentID : String) (grants : List Grant) (agents : List Agent)
    (rows : List (String × Grant)) : Except Error (List (String × Grant)) :=
  if agents.any fun a => a.id == agentID && a.tenantID == tenantID then
    .ok (rows.filter (·.1 != agentID) ++ grants.map fun g =>
      (agentID, { g with constraints := if g.constraints = "" then "\x7b\x7d" else g.constraints }))
  else if grants.isEmpty then .ok rows
  else .error .agentNotInTenant

def spendCredential (now : Int) (e : Enrollment) (rows : List Consumption) :
    Except Error (List Consumption) :=
  if e.bootstrapTokenHash ≠ "" then consumeBootstrapCredential now e rows else .ok rows

def enroll (now : Int) (e : Enrollment) (t : Tables) : Except Error Tables :=
  if e.host.tenantID = "" ∨ e.agent.tenantID = "" then .error .tenantRequired
  else if e.host.tenantID ≠ e.agent.tenantID then
    .error (.tenantMismatch e.host.tenantID e.agent.tenantID)
  else do
    let consumptions ← spendCredential now e t.consumptions
    let hosts ← upsertHostTx now e.host e.keepHostAttestation t.hosts
    let agents ← createAgentTx e.agent hosts t.agents
    let grants ← replaceGrantsTx e.agent.tenantID e.agent.id e.grants agents t.grants
    .ok { hosts, agents, grants, consumptions
          created := t.created ++ [(e.bootstrapTokenHash, e.agent.id)] }

/-- What a committed enrollment wrote. -/
structure Enrolled (now : Int) (e : Enrollment) (t t' : Tables) : Prop where
  spent : spendCredential now e t.consumptions = .ok t'.consumptions
  hosts : upsertHostTx now e.host e.keepHostAttestation t.hosts = .ok t'.hosts
  agents : createAgentTx e.agent t'.hosts t.agents = .ok t'.agents
  created : t'.created = t.created ++ [(e.bootstrapTokenHash, e.agent.id)]

variable {e : Enrollment} {t t' : Tables}

lemma enrolled_of_ok (h : enroll now e t = .ok t') : Enrolled now e t t' := by
  unfold enroll at h
  split at h
  · cases h
  split at h
  · cases h
  obtain ⟨consumptions, hsnt, h⟩ := Loops.bind_ok_iff.mp h
  obtain ⟨hos, upserted, h⟩ := Loops.bind_ok_iff.mp h
  obtain ⟨agents, hins, h⟩ := Loops.bind_ok_iff.mp h
  obtain ⟨gs, -, h⟩ := Loops.bind_ok_iff.mp h
  cases h
  exact ⟨hsnt, upserted, hins, rfl⟩

def revoke (id : String) (t : Tables) : Tables :=
  { t with hosts := t.hosts.map fun row =>
      if row.id == id then { row with status := .revoked } else row }

/-- A transaction with the time at which it began, which is its `now()`, and the time at which it
committed. -/
inductive Step where
  | enroll (began committed : Int) (e : Enrollment)
  | revoke (began committed : Int) (id : String)

def Step.began : Step → Int
  | .enroll began _ _ | .revoke began _ _ => began

def Step.committed : Step → Int
  | .enroll _ committed _ | .revoke _ committed _ => committed

def step (t : Tables) : Step → Tables
  | .enroll began _ e => match enroll began e t with
    | .ok t' => t'
    | .error _ => t
  | .revoke _ _ id => revoke id t

def run (steps : List Step) : Tables := steps.foldl step {}

lemma run_append_singleton (steps s) : run (steps ++ [s]) = step (run steps) s := by simp [run]

lemma step_cases (t s) : step t s = t ∨ (∃ id, step t s = revoke id t) ∨
      ∃ hbg hcm e, s = .enroll hbg hcm e ∧ Enrolled hbg e t (step t s) := by
  cases s with
  | revoke hbg hcm id => exact .inr (.inl ⟨id, rfl⟩)
  | enroll hbg hcm e =>
    simp only [step]
    split
    next t' ok => exact .inr (.inr ⟨hbg, hcm, e, rfl, enrolled_of_ok ok⟩)
    next => exact .inl rfl

/-- Hosts keep tenant and revocation. -/
structure Evolves (hosts hosts' : List Host) : Prop where
  row : ∀ h ∈ hosts, ∃ h' ∈ hosts', h'.id = h.id ∧ h'.tenantID = h.tenantID ∧
    (h.status = .revoked → h'.status = .revoked)
  unique : (hosts.map Host.id).Nodup → (hosts'.map Host.id).Nodup

lemma Evolves.refl (hosts) : Evolves hosts hosts :=
  ⟨fun h mem => ⟨h, mem, rfl, rfl, id⟩, id⟩

lemma Evolves.trans (ab : Evolves a b) (bc : Evolves b c) : Evolves a c := by
  refine ⟨fun h mem => ?_, bc.unique ∘ ab.unique⟩
  obtain ⟨h', mem', sam0, sam, hrv⟩ := ab.row h mem
  obtain ⟨h'', mem'', sam'0, sam', rev'⟩ := bc.row h' mem'
  exact ⟨h'', mem'', sam'0.trans sam0, sam'.trans sam, rev' ∘ hrv⟩

lemma evolves_map {f : Host → Host} (hosts)
    (hkp : ∀ h, (f h).id = h.id ∧ (f h).tenantID = h.tenantID ∧
      (h.status = .revoked → (f h).status = .revoked)) : Evolves hosts (hosts.map f) := by
  refine ⟨fun h mem => ⟨f h, mem_map_of_mem mem, hkp h⟩, fun hun => ?_⟩
  have hs : Host.id ∘ f = Host.id := funext fun h => (hkp h).1
  rwa [map_map, hs]

lemma evolves_updateHost {set : Host → Host} (ok : updateHost host set hos = .ok hosts')
    (hkp : ∀ row, row.id = host.id → (set row).id = row.id ∧ (set row).tenantID = row.tenantID) :
    Evolves hos hosts' := by
  unfold updateHost at ok
  split at ok
  · cases ok
    refine evolves_map hos fun row => ?_
    split
    next gua =>
      simp only [registrable, Bool.and_eq_true, beq_iff_eq, bne_iff_ne] at gua
      obtain ⟨sam0, sam⟩ := hkp row gua.1.1
      exact ⟨sam0, sam, fun hrv => absurd hrv gua.2⟩
    next => exact ⟨rfl, rfl, id⟩
  · cases ok

lemma evolves_step (t s) : Evolves t.hosts (step t s).hosts := by
  rcases step_cases t s with hs | ⟨id, hrv⟩ | ⟨hbg, hcm, e, -, hdn⟩
  · rw [hs]
    exact .refl _
  · rw [hrv]
    refine evolves_map t.hosts fun row => ?_
    split <;> simp
  · have ok := hdn.hosts
    unfold upsertHostTx at ok
    split at ok
    · exact evolves_updateHost ok fun _ _ => ⟨rfl, rfl⟩
    split at ok
    · exact evolves_updateHost ok fun row hs => ⟨hs.symm, rfl⟩
    next hfr =>
      rw [← Except.ok.inj ok]
      refine ⟨fun h mem => ⟨h, mem_append_left _ mem, rfl, rfl, id⟩, fun hun => ?_⟩
      rw [map_append]
      exact hun.append (nodup_singleton _) (by simpa [disjoint_singleton] using hfr)

lemma evolves_run (before ha) : Evolves (run before).hosts (run (before ++ ha)).hosts := by
  induction ha using reverseRecOn with
  | nil => simpa using Evolves.refl _
  | append_singleton ha s ih =>
    rw [← append_assoc, run_append_singleton]
    exact ih.trans (evolves_step _ s)

/-- Every agent has its host. -/
structure Housed (t : Tables) : Prop where
  host : ∀ a ∈ t.agents, ∃ h ∈ t.hosts, h.id = a.hostID ∧ h.tenantID = a.tenantID
  created : t.agents.map Agent.id = t.created.map Prod.snd

lemma Housed.evolve (h : Housed t) (hos : Evolves t.hosts t'.hosts) (a)
    (mem : a ∈ t.agents) : ∃ h ∈ t'.hosts, h.id = a.hostID ∧ h.tenantID = a.tenantID := by
  obtain ⟨host, hk, sam0, sam⟩ := h.host a mem
  obtain ⟨hos', kno', sam'0, sam', -⟩ := hos.row host hk
  exact ⟨hos', kno', sam'0.trans sam0, sam'.trans sam⟩

lemma housed_step (h : Housed t) (s) : Housed (step t s) := by
  have hos := evolves_step t s
  rcases step_cases t s with hs | ⟨id, hrv⟩ | ⟨hbg, hcm, e, -, hdn⟩
  · rwa [hs]
  · rw [hrv] at hos ⊢
    exact ⟨h.evolve hos, h.created⟩
  have hins := hdn.agents
  unfold createAgentTx at hins
  split at hins
  · cases hins
  next host hf =>
  split at hins
  · cases hins
  injection hins with agents
  refine ⟨fun a mem => ?_, by rw [← agents, hdn.created]; simp [h.created]⟩
  rw [← agents] at mem
  rcases mem_append.mp mem with old | new
  · exact h.evolve hos a old
  obtain rfl := mem_singleton.mp new
  have gua := List.find?_some hf
  simp only [Bool.and_eq_true, beq_iff_eq] at gua
  exact ⟨host, mem_of_find?_eq_some hf, gua.1.1, gua.1.2⟩

lemma housed_run (ss) : Housed (run ss) := by
  induction ss using reverseRecOn with
  | nil => exact ⟨nofun, rfl⟩
  | append_singleton ss s ih =>
    rw [run_append_singleton]
    exact housed_step ih s

/-- Commits happen one after the other, each after its transaction began. -/
structure Timed (steps : List Step) : Prop where
  order : steps.Pairwise fun a b => a.committed ≤ b.committed
  began : ∀ s ∈ steps, s.began ≤ s.committed

/-- A credential is presented after it was minted and spent before it expires. The code compares
`exp` before the transaction. -/
def Live (minted : String → Int) : Step → Prop
  | .enroll began committed e => e.bootstrapTokenHash ≠ "" →
    ∃ c ttl token, mintBootstrapToken c (minted e.bootstrapTokenHash) ttl = .ok token ∧
      minted e.bootstrapTokenHash ≤ began ∧ committed ≤ token.exp * second
  | .revoke .. => True

def createdWith (hash : String) (t : Tables) : List (String × String) :=
  t.created.filter (·.1 == hash)

/-- At most one agent was created, and while the credential may still be live its record stands. -/
structure SpentOnce (hash : String) (minted clock : Int) (t : Tables) : Prop where
  once : (createdWith hash t).length ≤ 1
  recorded : createdWith hash t ≠ [] → clock ≤ minted + maxBootstrapTTL →
    ∃ c ∈ t.consumptions, c.tokenHash = hash ∧ minted ≤ c.consumedAt

variable {hash : String} {minted clock : Int}

lemma SpentOnce.later (h : SpentOnce hash minted clock t) (le : clock ≤ clock') :
    SpentOnce hash minted clock' t :=
  ⟨h.once, fun hmd hli => h.recorded hmd (Int.le_trans le hli)⟩

lemma spentOnce_other (h : SpentOnce hash minted clock t)
    (hdn : Enrolled began e t t') (ho : e.bootstrapTokenHash ≠ hash) (pa : began ≤ clock) :
    SpentOnce hash minted clock t' := by
  have hs : createdWith hash t' = createdWith hash t := by
    simp [createdWith, hdn.created, ho]
  refine ⟨hs ▸ h.once, fun hmd hli => ?_⟩
  obtain ⟨c, mem, hn, ha⟩ := h.recorded (hs ▸ hmd) hli
  have hsnt := hdn.spent
  unfold spendCredential at hsnt
  split at hsnt
  · unfold consumeBootstrapCredential at hsnt
    split at hsnt
    · cases hsnt
    injection hsnt with hsnt
    refine ⟨c, hsnt ▸ ?_, hn, ha⟩
    refine mem_filter.mpr ⟨mem_append_left _ mem, decide_eq_true ?_⟩
    simp only [maxBootstrapTTL, hour, second] at hli ⊢
    omega
  · injection hsnt with hsnt
    exact ⟨c, hsnt ▸ mem, hn, ha⟩

lemma spentOnce_same (h : SpentOnce e.bootstrapTokenHash minted clock t)
    (hdn : Enrolled began e t t') (hn : e.bootstrapTokenHash ≠ "") (ha : minted ≤ began)
    (hli : clock ≤ minted + maxBootstrapTTL) : SpentOnce e.bootstrapTokenHash minted clock t' := by
  have hsnt := hdn.spent
  rw [spendCredential, if_pos hn] at hsnt
  unfold consumeBootstrapCredential at hsnt
  split at hsnt
  · cases hsnt
  next uns =>
  injection hsnt with hsnt
  have none : createdWith e.bootstrapTokenHash t = [] := by
    by_contra hmd
    obtain ⟨c, mem, hs, -⟩ := h.recorded hmd hli
    exact uns (any_eq_true.mpr ⟨c, mem, beq_iff_eq.mpr hs⟩)
  have one : createdWith e.bootstrapTokenHash t' = [(e.bootstrapTokenHash, e.agent.id)] := by
    rw [createdWith] at none ⊢
    simp [hdn.created, none]
  refine ⟨by simp [one], fun _ _ => ⟨_, hsnt ▸ mem_filter.mpr
    ⟨mem_append_right _ (mem_singleton.mpr rfl), ?_⟩, rfl, ha⟩⟩
  refine decide_eq_true ?_
  simp only [hour, second]
  omega

lemma spentOnce_run {minted : String → Int} (hn : hash ≠ "")
    (tim : Timed ss) (hli : ∀ s ∈ ss, Live minted s) (clock : Int)
    (pa : ∀ s ∈ ss, s.committed ≤ clock) : SpentOnce hash (minted hash) clock (run ss) := by
  induction ss using reverseRecOn generalizing clock with
  | nil => exact ⟨by simp [createdWith, run], fun hmd => absurd rfl hmd⟩
  | append_singleton ss s ih =>
    obtain ⟨hor, -, upTo⟩ := pairwise_append.mp tim.order
    have isL : s ∈ ss ++ [s] := by simp
    have pri := ih ⟨hor, fun a mem => tim.began a (mem_append_left _ mem)⟩
      (fun a mem => hli a (mem_append_left _ mem)) s.committed
      fun a mem => upTo a mem s (mem_singleton.mpr rfl)
    suffices now : SpentOnce hash (minted hash) s.committed (run (ss ++ [s])) from
      now.later (pa s isL)
    rw [run_append_singleton]
    rcases step_cases (run ss) s with hs | ⟨id, hrv⟩ | ⟨hbg, hcm, e, rfl, hdn⟩
    · rwa [hs]
    · rw [hrv]
      exact ⟨pri.once, pri.recorded⟩
    by_cases hs : e.bootstrapTokenHash = hash
    · subst hs
      obtain ⟨c, ttl, tk, minted, ha, hb⟩ := hli _ isL hn
      exact spentOnce_same pri hdn hn ha (Int.le_trans hb (exp_le minted))
    · exact spentOnce_other pri hdn hs (tim.began _ isL)

theorem enrollment_keeps_tenants (minted : String → Int) (steps : List Step) :
    (∀ before after, steps = before ++ after →
      ∀ h ∈ (run before).hosts, ∃ h' ∈ (run steps).hosts, h'.id = h.id ∧
        h'.tenantID = h.tenantID ∧ (h.status = .revoked → h'.status = .revoked)) ∧
    ((run steps).hosts.map Host.id).Nodup ∧
    (∀ a ∈ (run steps).agents, ∃ h ∈ (run steps).hosts, h.id = a.hostID ∧ h.tenantID = a.tenantID) ∧
    (run steps).agents.map Agent.id = (run steps).created.map Prod.snd ∧
    (Timed steps → (∀ s ∈ steps, Live minted s) → ∀ hash, hash ≠ "" →
      (createdWith hash (run steps)).length ≤ 1) := by
  refine ⟨?_, ?_, (housed_run steps).host, (housed_run steps).created, ?_⟩
  · rintro before after rfl
    exact (evolves_run before after).row
  · exact (evolves_run [] steps).unique nodup_nil
  intro tim hli hash hn
  obtain ⟨clock, pa⟩ : ∃ clock, ∀ s ∈ steps, s.committed ≤ clock := by
    obtain ⟨clock, hbd⟩ := (steps.map Step.committed).toFinset.exists_le
    exact ⟨clock, fun s mem => hbd _ (by simpa using ⟨s, mem, rfl⟩)⟩
  exact (spentOnce_run hn tim hli clock pa).once

def presentedTwice : List Step :=
  [.enroll 1 2 { host := ⟨"h", "t", "", "", "", .active, "", false, "", [], 0⟩
                 agent := ⟨"a", "h", "t", false⟩, bootstrapTokenHash := "x" },
   .enroll 2 3 { host := ⟨"i", "t", "", "", "", .active, "", false, "", [], 0⟩
                 agent := ⟨"b", "i", "t", false⟩, bootstrapTokenHash := "x" },
   .revoke 4 4 "h"]

theorem enrollment_keeps_tenants_twice : (createdWith "x" (run presentedTwice)).length ≤ 1 ∧
      createdWith "x" (run presentedTwice) ≠ [] := by
  refine ⟨(enrollment_keeps_tenants (fun _ => 0) presentedTwice).2.2.2.2
    ⟨by decide, by decide⟩ ?_ "x" (by decide), by decide⟩
  have minted : mintBootstrapToken ⟨"t", "o", "p", "", "", []⟩ 0 0 =
    .ok ⟨"p", "t", "o", "", "", ["capabilitygrant:register"], 0, 3600⟩ := by decide
  simp only [presentedTwice, forall_mem_cons]
  exact ⟨fun _ => ⟨_, _, _, minted, by decide, by decide⟩,
    fun _ => ⟨_, _, _, minted, by decide, by decide⟩, trivial, by simp⟩

end Gibson.CapabilityGrant
