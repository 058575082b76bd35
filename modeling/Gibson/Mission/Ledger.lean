import Gibson.Mission.Definition

/-! The reservation ledger: a hash per parent mission, with an entry for each child that holds a
share of its budget. The amounts are exact integers, and a script runs as one step. -/

namespace Gibson.Mission

open List Prod

open Brain (StringMap)

/-- What a mission has used. -/
structure MissionMetrics where
  totalCost : Rat := 0
  totalTokens : Int := 0

inductive MissionStatus where
  | pending
  | running
  | paused
  | completed
  | failed
  | cancelled

/-- The record of a mission in the store, without the text of its definition. -/
structure MissionRecord where
  id : String
  (tenantID name description : String := "")
  status : MissionStatus := .pending
  targetID : String := ""
  additionalTargetIDs : List String := []
  missionDefinitionID : String := ""
  constraints : Option MissionConstraints := none
  metrics : Option MissionMetrics := none
  parentMissionID : Option String := none
  depth : Int := 0

/-- A budget amount in each dimension, `none` where it is unbounded. -/
structure ChildBudget where
  (costUSDCents tokens : Option Int := none)
  deriving DecidableEq

/-- Dollars to cents, rounded down. The arithmetic is exact, where the source has `float64`. -/
def costCentsFromDollars (dollars : Rat) : Int :=
  if dollars ≤ 0 then 0 else (dollars * 100 + 1 / 1000000).floor

def dollarsFromCostCents (cents : Int) : Rat := cents / 100

/-- A reservation in Redis. -/
structure RedisEntry where
  hasCost : Bool
  costCents : Int
  hasTokens : Bool
  tokens : Int

inductive Dimension where
  | cost
  | tokens

def ChildBudget.amount (b : ChildBudget) : Dimension → Option Int
  | .cost => b.costUSDCents
  | .tokens => b.tokens

def RedisEntry.amount (e : RedisEntry) : Dimension → Int
  | .cost => if e.hasCost then e.costCents else 0
  | .tokens => if e.hasTokens then e.tokens else 0

/-- The ceiling of a mission: a positive limit of its constraints. -/
def MissionRecord.cap (m : MissionRecord) : Dimension → Option Int
  | .cost =>
    let max := (m.constraints.getD {}).maxCost
    if 0 < max then some (costCentsFromDollars max) else none
  | .tokens =>
    let max := (m.constraints.getD {}).maxTokens
    if 0 < max then some max else none

def MissionRecord.used (m : MissionRecord) : Dimension → Int
  | .cost => m.metrics.elim 0 fun x => costCentsFromDollars x.totalCost
  | .tokens => m.metrics.elim 0 MissionMetrics.totalTokens

abbrev Reservations : Type := StringMap RedisEntry

/-- The hashes of a tenant's Redis, by key. -/
abbrev Redis : Type := StringMap Reservations

def missionReservationsKey (parentID : String) : String :=
  "gibson:mission:" ++ parentID ++ ":reservations"

def Redis.hgetall (db : Redis) (key : String) : Reservations := (db.lookup key).getD ∅

def Redis.hset (db : Redis) (key field : String) (e : RedisEntry) : Redis :=
  db.insert key ((db.hgetall key).insert field e)

def Redis.hdel (db : Redis) (key field : String) : Redis :=
  db.insert key ((db.hgetall key).erase field)

/-- The arguments of the script. -/
structure ReserveArgs where
  childID : String
  hasCap : Dimension → Bool
  (max used : Dimension → Int)
  reqHas : Dimension → Bool
  req : Dimension → Int

def reservedByOthers (all : Reservations) (childID : String) (dim : Dimension) : Int :=
  ((all.entries.filter fun e => e.1 != childID).map fun e => e.2.amount dim).sum

def atLeastZero (left : Int) : Int := if left < 0 then 0 else left

def clampTo (remaining : Int) (reqHas : Bool) (req : Int) : Int :=
  if reqHas && decide (req < remaining) then req else remaining

/-- The grant in one dimension, as a flag and a number, or `none` where the ceiling is reached. -/
def grantDimension (a : ReserveArgs) (reserved : Int) (dim : Dimension) : Option (Bool × Int) :=
  if a.hasCap dim then
    let remaining := atLeastZero (a.max dim - a.used dim - reserved)
    let grant := clampTo remaining (a.reqHas dim) (a.req dim)
    if grant ≤ 0 then none else some (true, grant)
  else if a.reqHas dim then some (true, a.req dim)
  else some (false, 0)

/-- The reserve script. The cost is decided before the tokens, and nothing is written before both
are. -/
def luaReserve (db : Redis) (key : String) (a : ReserveArgs) : Except String RedisEntry × Redis :=
  let all := db.hgetall key
  match grantDimension a (reservedByOthers all a.childID .cost) .cost with
  | none => (.error "ERR parent mission cost budget exhausted", db)
  | some (hasCost, costCents) =>
    match grantDimension a (reservedByOthers all a.childID .tokens) .tokens with
    | none => (.error "ERR parent mission token budget exhausted", db)
    | some (hasTokens, tokens) =>
      let entry : RedisEntry := { hasCost, costCents, hasTokens, tokens }
      (.ok entry, db.hset key a.childID entry)

def reserveArgs (parent : MissionRecord) (childID : String) (requested : ChildBudget) :
    ReserveArgs where
  childID := childID
  hasCap dim := (parent.cap dim).isSome
  max dim := (parent.cap dim).getD 0
  used := parent.used
  reqHas dim := (requested.amount dim).isSome
  req dim := (requested.amount dim).getD 0

/-- The reply of the script as a budget. -/
def RedisEntry.granted (e : RedisEntry) : ChildBudget where
  costUSDCents := if e.hasCost then some e.costCents else none
  tokens := if e.hasTokens then some e.tokens else none

def reserve (db : Redis) (parent : Option MissionRecord) (childID : String)
    (requested : ChildBudget) : Except String ChildBudget × Redis :=
  match parent with
  | none => (.error "mission: reservation ledger: parent mission is required", db)
  | some parent =>
    if childID = "" then (.error "mission: reservation ledger: child mission ID is required", db)
    else
      match luaReserve db (missionReservationsKey parent.id)
          (reserveArgs parent childID requested) with
      | (.error err, db') =>
        (.error ("mission: reservation ledger: reserve against parent " ++ parent.id ++ ": " ++
          err), db')
      | (.ok entry, db') => (.ok entry.granted, db')

def release (db : Redis) (parentID childID : String) : Redis :=
  if parentID = "" ∨ childID = "" then db else db.hdel (missionReservationsKey parentID) childID

def liveReservations (db : Redis) (parentID : String) (dim : Dimension) : Int :=
  ((db.hgetall (missionReservationsKey parentID)).entries.map fun e => e.2.amount dim).sum

/-- The calls on a ledger. Each carries the parent record that its caller loaded. -/
inductive LedgerCall where
  | reserve (parent : Option MissionRecord) (childID : String) (requested : ChildBudget)
  | release (parentID childID : String)

def Redis.call (db : Redis) : LedgerCall → Redis
  | .reserve parent childID requested => (reserve db parent childID requested).2
  | .release parentID childID => Mission.release db parentID childID

/-- The ledger after some calls, in the order in which their scripts ran. -/
def Redis.run (db : Redis) (calls : List LedgerCall) : Redis := calls.foldl Redis.call db

section
variable {db db' : Redis} {parent : MissionRecord} {childID : String}
  {requested granted : ChildBudget}

lemma kerase_eq_filter {l : List (Sigma fun _ : String => V)} (h : l.NodupKeys)
    (k) : List.kerase k l = l.filter fun e => e.1 != k := by
  induction l with
  | nil => rfl
  | cons e l ih =>
    obtain ⟨hfr, rs⟩ := nodupKeys_cons.mp h
    by_cases hs : k = e.1
    · subst hs
      have os : l.filter (fun x => x.1 != e.1) = l := by
        refine filter_eq_self.mpr fun x hx => ?_
        have ho : x.1 ≠ e.1 := fun eq => hfr (eq ▸ mem_keys_of_mem hx)
        simpa using ho
      rw [kerase_cons_eq rfl, filter_cons_of_neg (by simp), os]
    · rw [kerase_cons_ne hs, ih rs, filter_cons_of_pos (by simpa using Ne.symm hs)]

lemma hgetall_hset (db : Redis) (key field e) :
    (db.hset key field e).hgetall key = (db.hgetall key).insert field e := by
  unfold Redis.hset
  rw [Redis.hgetall, AList.lookup_insert, Option.getD_some]

variable {key : String}

lemma missionReservationsKey_injective
    (h : missionReservationsKey a = missionReservationsKey b) : a = b := by
  exact (String.append_right_inj _).mp ((String.append_left_inj _).mp h)

lemma atLeastZero_of_pos (h : 0 < atLeastZero left) : atLeastZero left = left := by
  unfold atLeastZero at h ⊢
  split at h
  · omega
  · next hnn => rw [if_neg hnn]

lemma clampTo_le (hrem : Int) (req0 : Bool) (req : Int) :
    clampTo hrem req0 req ≤ hrem ∧
      (req0 = true → clampTo hrem req0 req ≤ req) := by
  unfold clampTo
  split
  · next less =>
    obtain ⟨-, less⟩ := Bool.and_eq_true_iff.mp less
    exact ⟨le_of_lt (of_decide_eq_true less), fun _ => le_refl _⟩
  · next more =>
    refine ⟨le_refl _, fun hak => ?_⟩
    simpa [hak] using more

variable {a : ReserveArgs}

lemma grantDimension_capped
    (hcap : a.hasCap dim = true) (h : grantDimension a reserved dim = some (has, amount)) :
    has = true ∧ 0 < amount ∧
      amount = clampTo (a.max dim - a.used dim - reserved) (a.reqHas dim) (a.req dim) := by
  simp only [grantDimension, hcap, if_true] at h
  split at h
  · simp at h
  next hpo =>
  cases h
  have toR := (clampTo_le
    (atLeastZero (a.max dim - a.used dim - reserved)) (a.reqHas dim) (a.req dim)).1
  have hle := atLeastZero_of_pos (lt_of_lt_of_le (not_le.mp hpo) toR)
  exact ⟨rfl, not_le.mp hpo, by rw [hle]⟩

lemma grantDimension_spec (h : grantDimension a reserved dim = some (has, amount)) :
    (a.hasCap dim = true → has = true ∧ 0 < amount ∧ a.used dim + reserved + amount ≤ a.max dim) ∧
      (a.reqHas dim = true → has = true ∧ amount ≤ a.req dim) := by
  by_cases hcap : a.hasCap dim = true
  · obtain ⟨rfl, hpo, gt⟩ := grantDimension_capped hcap h
    obtain ⟨toR, toR0⟩ := clampTo_le
      (a.max dim - a.used dim - reserved) (a.reqHas dim) (a.req dim)
    rw [← gt] at toR toR0
    exact ⟨fun _ => ⟨rfl, hpo, by omega⟩, fun hak => ⟨rfl, toR0 hak⟩⟩
  · refine ⟨fun cap => absurd cap hcap, fun hak => ?_⟩
    rw [grantDimension, if_neg hcap, if_pos hak] at h
    cases h
    exact ⟨rfl, le_refl _⟩

lemma luaReserve_ok (h : luaReserve db key a = (.ok e, db')) :
    db' = db.hset key a.childID e ∧
      (∀ dim, ∃ has amount, grantDimension a (reservedByOthers (db.hgetall key) a.childID dim) dim =
            some (has, amount) ∧ e.granted.amount dim = (if has then some amount else none) ∧
          e.amount dim = (if has then amount else 0)) := by
  unfold luaReserve at h
  simp only at h
  split at h
  · simp at h
  next hasCost cos cost =>
  split at h
  · simp at h
  next has0 tokens tk =>
  obtain ⟨en, rs⟩ := mk.inj h
  rw [← Except.ok.inj en]
  refine ⟨rs.symm, fun dim => ?_⟩
  cases dim with
  | cost => exact ⟨hasCost, cos, cost, rfl, rfl⟩
  | tokens => exact ⟨has0, tokens, tk, rfl, rfl⟩

lemma reserve_error (h : reserve db parent childID requested = (.error err, db')) : db' = db := by
  unfold reserve at h
  split at h
  · exact (mk.inj h).2.symm
  split at h
  · exact (mk.inj h).2.symm
  split at h
  · next run =>
    rw [← (mk.inj h).2]
    simp only [luaReserve] at run
    split at run
    · exact (mk.inj run).2.symm
    split at run
    · exact (mk.inj run).2.symm
    · simp at run
  · simp at h

section
variable (h : reserve db (some parent) childID requested = (.ok granted, db'))
include h

lemma reserve_ok :
    ∃ e, luaReserve db (missionReservationsKey parent.id) (reserveArgs parent childID requested) =
      (.ok e, db') ∧ granted = e.granted := by
  simp only [reserve] at h
  split at h
  · simp at h
  split at h
  · simp at h
  · next e db'' run =>
    obtain ⟨hs, rfl⟩ := mk.inj h
    exact ⟨e, run, (Except.ok.inj hs).symm⟩

/-- What holds right after a reservation. -/
structure Reserved (parent : MissionRecord) (childID : String) (requested granted : ChildBudget)
    (db db' : Redis) : Prop where
  withinCap : ∀ dim cap, parent.cap dim = some cap →
    parent.used dim + liveReservations db' parent.id dim ≤ cap
  positive : ∀ dim, (parent.cap dim).isSome = true → ∃ g, granted.amount dim = some g ∧ 0 < g
  withinRequest : ∀ dim r, requested.amount dim = some r → ∃ g, granted.amount dim = some g ∧ g ≤ r
  replaced : ∃ e : RedisEntry, e.granted = granted ∧
    db'.hgetall (missionReservationsKey parent.id) =
      (db.hgetall (missionReservationsKey parent.id)).insert childID e
  elsewhere : ∀ parentID ≠ parent.id,
    db'.hgetall (missionReservationsKey parentID) = db.hgetall (missionReservationsKey parentID)

lemma reserved_of_ok : Reserved parent childID requested granted db db' := by
  obtain ⟨e, run, rfl⟩ := reserve_ok h
  obtain ⟨rfl, dims⟩ := luaReserve_ok run
  constructor
  · intro dim cap hcap
    obtain ⟨has, amount, gt, -, hho⟩ := dims dim
    obtain ⟨rfl, -, hbd⟩ := (grantDimension_spec gt).1 (by simp [reserveArgs, hcap])
    have total : liveReservations (db.hset (missionReservationsKey parent.id) childID e) parent.id
        dim = e.amount dim +
          reservedByOthers (db.hgetall (missionReservationsKey parent.id)) childID dim := by
      unfold liveReservations
      rw [hgetall_hset]
      change (map _ (_ :: List.kerase childID _)).sum = _
      rw [kerase_eq_filter (AList.nodupKeys _), map_cons, sum_cons]
      rfl
    have limit : (reserveArgs parent childID requested).max dim = cap := by
      simp [reserveArgs, hcap]
    rw [if_pos rfl] at hho
    have child : (reserveArgs parent childID requested).childID = childID := rfl
    rw [child] at hbd ⊢
    have used : (reserveArgs parent childID requested).used dim = parent.used dim := rfl
    omega
  · intro dim hcap
    obtain ⟨has, amount, gt, gives, -⟩ := dims dim
    obtain ⟨rfl, hpo, -⟩ := (grantDimension_spec gt).1 hcap
    exact ⟨amount, gives, hpo⟩
  · intro dim r hak
    obtain ⟨has, amount, gt, gives, -⟩ := dims dim
    obtain ⟨rfl, hbd⟩ := (grantDimension_spec gt).2 (by simp [reserveArgs, hak])
    refine ⟨amount, gives, ?_⟩
    simpa [reserveArgs, hak] using hbd
  · exact ⟨e, rfl, hgetall_hset _ _ _ _⟩
  · intro parentID ho
    unfold Redis.hset Redis.hgetall
    rw [AList.lookup_insert_ne fun hs => ho (missionReservationsKey_injective hs)]

end
end

/-- A reservation that succeeds commits no more than the parent's ceiling, grants something positive
and nothing above the request, replaces the child's entry and leaves other parents alone; one
that fails leaves the ledger as it was. -/
theorem reserve_never_overcommits (calls : List LedgerCall) (parent : MissionRecord)
    (childID : String) (requested : ChildBudget) :
    (∀ granted db', reserve (Redis.run ∅ calls) (some parent) childID requested =
        (.ok granted, db') → Reserved parent childID requested granted (Redis.run ∅ calls) db') ∧
    (∀ err db', reserve (Redis.run ∅ calls) (some parent) childID requested = (.error err, db') →
      db' = Redis.run ∅ calls) :=
  ⟨fun _ _ h => reserved_of_ok h, fun _ _ h => reserve_error h⟩

/-- The second of two children that ask for 60 of 100 tokens is granted 40. -/
theorem reserve_never_overcommits_second : ∃ parent : MissionRecord, parent.cap .tokens = some 100 ∧
      ∃ db db', db = Redis.run ∅ [.reserve (some parent) "a" { tokens := some 60 }] ∧
        reserve db (some parent) "b" { tokens := some 60 } = (.ok { tokens := some 40 }, db') ∧
        Reserved parent "b" { tokens := some 60 } { tokens := some 40 } db db' := by
  let parent : MissionRecord := { id := "p", constraints := some { maxTokens := 100 } }
  refine ⟨parent, rfl, _, _, rfl, rfl, ?_⟩
  exact (reserve_never_overcommits _ parent "b" { tokens := some 60 }).1 _ _ rfl

end Gibson.Mission
