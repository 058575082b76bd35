import Gibson.Idempotency.Replay
import Gibson.Lib.Framing

/-! The Redis store of the idempotency cache, with one record for a tenant, a method and a key.
The components of a record's key are joined by colons. -/

namespace Gibson.Idempotency

open List

/-- What a record is kept under. -/
structure Triple where
  (tenant method key : List UInt8)
  deriving DecidableEq

def Triple.unset (q : Triple) : Bool := q.tenant = [] || q.method = [] || q.key = []

def bytes (s : String) : List UInt8 := s.toList.map fun c => UInt8.ofNat c.toNat

def redisKeyPrefix : List UInt8 := bytes "idempotency:"

def colon : UInt8 := 58

/-- Takes the bytes `\n`, `\r` and `\x00` out. -/
def clean (s : List UInt8) : List UInt8 :=
  ((s.filter (· != 10)).filter (· != 13)).filter (· != 0)

def redisKey (q : Triple) : List UInt8 :=
  redisKeyPrefix ++ (clean q.tenant ++ colon :: (clean q.method ++ colon :: clean q.key))

/-- `pendingSentinel`, or an encoded entry. -/
inductive Raw (J : Type) where
  | pending
  | entry (e : Envelope J)

/-- A value with its expiry. -/
structure Record (J : Type) where
  raw : Raw J
  /-- `none` where the record stays. -/
  expiry : Option Int

abbrev Redis (J : Type) := List UInt8 → Option (Record J)

def defaultTTL : Int := 24 * 3600 * 10 ^ 9

def maxWaitForPending : Int := 5 * 10 ^ 9

section Store
variable {F J : Type} (T : Types F)

def Redis.getBytes (db : Redis J) (now : Int) (rk : List UInt8) : Option (Raw J) :=
  match db rk with
  | none => none
  | some r => if r.expiry.all (now < ·) then some r.raw else none

def Redis.set (db : Redis J) (rk : List UInt8) (r : Record J) : Redis J :=
  fun k => if k = rk then some r else db k

def Redis.setNX (db : Redis J) (now : Int) (rk : List UInt8) (r : Record J) : Redis J × Bool :=
  if (db.getBytes now rk).isSome then (db, false) else (db.set rk r, true)

def markPending (db : Redis J) (now : Int) (q : Triple) (pendingTTL : Nat) : Redis J × Bool :=
  if q.unset then (db, false)
  else db.setNX now (redisKey q)
    ⟨.pending, if pendingTTL = 0 then none else some (now + pendingTTL)⟩

def set (db : Redis T.JSON) (now : Int) (q : Triple) (cached : Option (CachedResponse F))
    (ttl : Int) : Redis T.JSON × Except String Unit :=
  if q.unset then (db, .ok ())
  else match cached with
    | none => (db, .error "idempotency: Set: cached response must not be nil")
    | some cached =>
      match encodeEntry T cached with
      | .error e => (db, .error ("idempotency: cache entry marshal failed: " ++ e))
      | .ok raw =>
        let ttl := if ttl ≤ 0 then defaultTTL else ttl
        (db.set (redisKey q) ⟨.entry raw, some (now + ttl)⟩, .ok ())

inductive Request (F : Type) where
  | markPending (pendingTTL : Nat)
  | set (cached : Option (CachedResponse F)) (ttl : Int)

/-- A call for a triple. Where Redis fails it may have written or not. -/
structure Call (F : Type) where
  triple : Triple
  request : Request F
  now : Int
  reached : Bool := true

def serve (db : Redis T.JSON) (c : Call F) : Redis T.JSON :=
  if !c.reached then db
  else match c.request with
    | .markPending ttl => (markPending db c.now c.triple ttl).1
    | .set cached ttl => (set T db c.now c.triple cached ttl).1

inductive Answer (F : Type) where
  | found (cached : CachedResponse F)
  | missing
  | failed
  | cancelled

/-- One turn of the loop in `Get`, behind the calls that were served since the last one. -/
structure Poll (F : Type) where
  before : List (Call F)
  now : Int
  fails : Bool := false
  /-- The clock when it is compared with the deadline. -/
  checked : Int
  cancelled : Bool := false

/-- The answer of `Get`, or `none` while it still polls. -/
def getLoop (rk : List UInt8) (deadline : Int) : Redis T.JSON → List (Poll F) → Option (Answer F)
  | _, [] => none
  | db, p :: rest =>
    let db := p.before.foldl (serve T) db
    if p.fails then some .failed
    else match db.getBytes p.now rk with
      | none => some .missing
      | some .pending =>
        if deadline < p.checked then some .missing
        else if p.cancelled then some .cancelled
        else getLoop rk deadline db rest
      | some (.entry raw) =>
        match decodeEntry T raw with
        | .error _ => some .missing
        | .ok cached => some (.found cached)

def get (db : Redis T.JSON) (q : Triple) (started : Int) (polls : List (Poll F)) :
    Option (Answer F) :=
  if q.unset then some .missing
  else getLoop T (redisKey q) (started + maxWaitForPending) db polls

end Store

/-- No byte that is stripped, and no colon but in the key. -/
def Triple.Plain (q : Triple) : Prop :=
  (∀ b ∈ q.tenant ++ q.method ++ q.key, b ∉ [10, 13, 0]) ∧ colon ∉ q.tenant ∧ colon ∉ q.method

section Isolation
variable {F : Type} {T : Types F} {q a b : Triple}

lemma clean_eq_self (kp : ∀ b ∈ s, b ∉ [(10 : UInt8), 13, 0]) : clean s = s := by
  simp only [clean, filter_filter]
  refine filter_eq_self.mpr fun b mem => ?_
  have := kp b mem
  simp_all

lemma Triple.Plain.redisKey_eq (hp : q.Plain) :
    redisKey q = redisKeyPrefix ++ (q.tenant ++ colon :: (q.method ++ colon :: q.key)) := by
  have kp := hp.1
  simp only [mem_append] at kp
  rw [redisKey, clean_eq_self fun b mem => kp b (.inl (.inl mem)),
    clean_eq_self fun b mem => kp b (.inl (.inr mem)), clean_eq_self fun b mem => kp b (.inr mem)]

lemma append_colon_inj (free : colon ∉ s) (free' : colon ∉ s')
    (hs : s ++ colon :: r = s' ++ colon :: r') : s = s' ∧ r = r' := by
  have differs {s : List UInt8} (free : colon ∉ s) : ∀ x ∈ s, (x != colon) = true := by
    intro x mem
    rw [bne_iff_ne]
    rintro rfl
    exact free mem
  obtain ⟨hs, rs⟩ := Framing.append_inj_of_stop (differs free) (differs free') (by simp)
    (by simp) hs
  exact ⟨hs, (List.cons.inj rs).2⟩

lemma redisKey_inj (hp : a.Plain) (pla' : b.Plain) (hs : redisKey a = redisKey b) :
    a = b := by
  rw [hp.redisKey_eq, pla'.redisKey_eq, append_cancel_left_eq] at hs
  obtain ⟨ten, rs⟩ := append_colon_inj hp.2.1 pla'.2.1 hs
  obtain ⟨met, keys⟩ := append_colon_inj hp.2.2 pla'.2.2 rs
  cases a
  cases b
  simp_all

/-- A call writes the record of its own triple, and reads no other. -/
lemma serve_agree (c : Call F) (hs : db rk = db' rk) :
    serve T db c rk = serve T db' c rk ∧ (redisKey c.triple ≠ rk → serve T db c rk = db rk) := by
  obtain ⟨p, request, now, hrc⟩ := c
  by_cases own : redisKey p = rk
  · subst own
    refine ⟨?_, fun ho => absurd rfl ho⟩
    cases request <;> simp only [serve, markPending, set, Redis.setNX, Redis.getBytes, hs] <;>
      repeat' split
    all_goals simp_all [Redis.set]
  · have ho : rk ≠ redisKey p := Ne.symm own
    have hkp (db : Redis T.JSON) : serve T db ⟨p, request, now, hrc⟩ rk = db rk := by
      cases request <;> simp only [serve, markPending, set, Redis.setNX] <;> repeat' split
      all_goals simp_all [Redis.set]
    rw [hkp, hkp]
    exact ⟨hs, fun _ => rfl⟩

def ownCalls (q : Triple) (calls : List (Call F)) : List (Call F) :=
  calls.filter (·.triple = q)

lemma served_agree (hp : q.Plain) (os : ∀ c ∈ cs, c.triple.Plain)
    (hs : db (redisKey q) = db' (redisKey q)) :
    cs.foldl (serve T) db (redisKey q) = (ownCalls q cs).foldl (serve T) db' (redisKey q) := by
  induction cs generalizing db db' with
  | nil => exact hs
  | cons c cs ih =>
    rw [forall_mem_cons] at os
    by_cases own : c.triple = q
    · rw [ownCalls, filter_cons_of_pos (by simpa using own)]
      exact ih os.2 (serve_agree c hs).1
    rw [ownCalls, filter_cons_of_neg (by simpa using own)]
    refine ih os.2 (((serve_agree c hs).2 fun keys => ?_).trans hs)
    exact own (redisKey_inj os.1 hp keys)

/-- The poll with the calls for other triples left out. -/
def Poll.own (q : Triple) (p : Poll F) : Poll F := { p with before := ownCalls q p.before }

lemma getLoop_agree (hp : q.Plain) (hdea : Int)
    (os : ∀ p ∈ pol, ∀ c ∈ p.before, c.triple.Plain)
    (hs : db (redisKey q) = db' (redisKey q)) :
    getLoop T (redisKey q) hdea db pol =
      getLoop T (redisKey q) hdea db' (pol.map (Poll.own q)) := by
  induction pol generalizing db db' with
  | nil => rfl
  | cons p pol ih =>
    rw [forall_mem_cons] at os
    have hv := served_agree (T := T) hp os.1 hs
    simp only [map_cons, getLoop, Poll.own, Redis.getBytes, hv, ih os.2 hv]

end Isolation

/-- The answer of Get for a triple is the one without the calls for other triples, where every
triple is plain; and plain triples have their own keys. -/
theorem entries_isolated {F : Type} (T : Types F) (q : Triple) (plain : q.Plain) (started : Int)
    (earlier : List (Call F)) (polls : List (Poll F))
    (others : ∀ c ∈ earlier ++ polls.flatMap (·.before), c.triple.Plain) :
    get T (earlier.foldl (serve T) fun _ => none) q started polls =
        get T ((ownCalls q earlier).foldl (serve T) fun _ => none) q started
          (polls.map (Poll.own q)) ∧ ∀ a : Triple, a.Plain → a ≠ q → redisKey a ≠ redisKey q := by
  simp only [mem_append, mem_flatMap] at others
  refine ⟨?_, fun a pla' hdff keys => hdff (redisKey_inj pla' plain keys)⟩
  unfold get
  rw [getLoop_agree plain _ (fun p mem c cl => others c (.inr ⟨p, mem, cl⟩))
    (served_agree plain (fun c mem => others c (.inl mem)) rfl)]

def denied : CachedResponse Unit := { terminalError := some ⟨7, text "denied"⟩ }

def setOnly (q : Triple) : Redis allTypes.JSON :=
  serve allTypes (fun _ => none) { triple := q, request := .set (some denied) 0, now := 0 }

theorem entries_isolated_plain : get allTypes (setOnly ⟨[98], [109], [107]⟩) ⟨[97], [109], [107]⟩ 1
      [{ before := [], now := 1, checked := 1 }] = some .missing := by
  have hp (tn : UInt8) (mem : tn ∈ [(97 : UInt8), 98]) :
      Triple.Plain ⟨[tn], [109], [107]⟩ := by
    rcases mem_pair.mp mem with rfl | rfl <;> simp [Triple.Plain, colon]
  exact (entries_isolated allTypes _ (hp 97 (by simp)) 1
    [{ triple := ⟨[98], [109], [107]⟩, request := .set (some denied) 0, now := 0 }]
    [{ before := [], now := 1, checked := 1 }] (by simpa using hp 98 (by simp))).1

/-- Tenant `a` gets the entry of tenant `a:b`, for its own method `b:c`. -/
theorem joined_keys_collide :
    redisKey ⟨bytes "a:b", bytes "c", bytes "d"⟩ = redisKey ⟨bytes "a", bytes "b:c", bytes "d"⟩ ∧
      get allTypes (setOnly ⟨bytes "a:b", bytes "c", bytes "d"⟩)
        ⟨bytes "a", bytes "b:c", bytes "d"⟩ 1 [{ before := [], now := 1, checked := 1 }] =
          some (.found denied) :=
  ⟨by decide, rfl⟩

end Gibson.Idempotency
