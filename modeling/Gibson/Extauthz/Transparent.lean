import Gibson.Extauthz.Cache

/-! The deciders of the gateway branch by branch, with and without the cache. With a store whose
answers do not change they decide alike. -/

namespace Gibson.Extauthz.Fga

open List

/-- `fga: Check RPC failed for %q: %w` -/
structure CheckFailed (ε : Type) where
  method : String
  cause : ε

/-- The clock at the look-up and at the store, and the entry that an iteration comes to first. -/
structure Moments where
  (lookedUp stored : Int)
  victim : Nat

section
variable {ε : Type} (reg : Registry) (fga : Query → Except ε (Option Bool)) (cfg : CacheConfig)

def Checker.check (r : CheckRequest) : Except (CheckFailed ε) Bool :=
  match reg r.method with
  | none => .ok false
  | some e =>
    let caller := callerClass r.identity
    if e.unauthenticated then .ok true
    else if e.self then
      if r.identity.subject = "" then .ok false
      else if !checkIdentityClass caller e.allowedIdentities then .ok false
      else .ok true
    else if !checkIdentityClass caller e.allowedIdentities then .ok false
    else if handlerEnforced e then .ok true
    else
      let user := fgaUser r.identity.subject caller
      match resolveObject e r.identity r.fields with
      | none => .ok false
      | some object =>
        match fga ⟨user, e.relation, object⟩ with
        | .error cause => .error ⟨r.method, cause⟩
        | .ok allowed => .ok (allowed.getD false)

/-- A miss: the inner checker decides, and its decision is stored. An error is not. -/
def CachedChecker.miss (entries : Entries) (key : CacheKey) (t : Moments) (r : CheckRequest) :
    Entries × Except (CheckFailed ε) Bool :=
  match Checker.check reg fga r with
  | .error e => (entries, .error e)
  | .ok allowed =>
    ((entries.makeRoom cfg.maxSize t.victim).put key ⟨allowed, t.stored + cfg.ttl⟩, .ok allowed)

def CachedChecker.check (entries : Entries) (t : Moments) (r : CheckRequest) :
    Entries × Except (CheckFailed ε) Bool :=
  match reg r.method with
  | none => (entries, Checker.check reg fga r)
  | some e =>
    if e.unauthenticated then (entries, .ok true)
    else if e.self then
      if r.identity.subject = "" then (entries, .ok false)
      else if !checkIdentityClass (callerClass r.identity) e.allowedIdentities then
        (entries, .ok false)
      else (entries, .ok true)
    else if !checkIdentityClass (callerClass r.identity) e.allowedIdentities then
      (entries, .ok false)
    else if handlerEnforced e then (entries, .ok true)
    else
      match resolveObject e r.identity r.fields with
      | none => (entries, .ok false)
      | some object =>
        let key : CacheKey :=
          { subject := r.identity.subject, tenant := requestTenant r.identity r.fields,
            relation := e.relation, object, identityClass := callerClass r.identity }
        match entries.lookup key with
        | some v =>
          if t.lookedUp < v.deadline then (entries, .ok v.allowed)
          else CachedChecker.miss reg fga cfg (entries.erase key) key t r
        | none => CachedChecker.miss reg fga cfg entries key t r

inductive CacheOp where
  | check (r : CheckRequest) (t : Moments)
  | evict (keep : CacheKey × CacheValue → Bool)

def CacheOp.request? : CacheOp → Option CheckRequest
  | .check r _ => some r
  | .evict _ => none

/-- The decisions of a sequence of checks, from the entries that are there. -/
def decisions : Entries → List CacheOp → List (Except (CheckFailed ε) Bool)
  | _, [] => []
  | entries, .check r t :: rest =>
    let (entries, decision) := CachedChecker.check reg fga cfg entries t r
    decision :: decisions entries rest
  | entries, .evict keep :: rest => decisions (entries.filter keep) rest

end

section
variable {ε : Type} {fga : Query → Except ε (Option Bool)} {entries : Entries}
variable (fga entries) in
/-- Every entry holds what the store answers to the question behind its key. -/
def Faithful : Prop :=
  ∀ x ∈ entries, ∃ answer, fga x.1.query = .ok answer ∧ answer.getD false = x.2.allowed

section
variable (hfai : Faithful fga entries)
include hfai

lemma Faithful.mono (hsl : ∀ x ∈ fewer, x ∈ entries) : Faithful fga fewer :=
  fun x mem => hfai x (hsl x mem)

lemma miss_transparent (t) (hak : ∀ hal, Checker.check reg fga r = .ok hal →
      ∃ answer, fga key.query = .ok answer ∧ answer.getD false = hal) :
    Faithful fga (CachedChecker.miss reg fga cfg entries key t r).1 ∧
      (CachedChecker.miss reg fga cfg entries key t r).2 = Checker.check reg fga r := by
  unfold CachedChecker.miss
  cases hdd : Checker.check reg fga r with
  | error e => exact ⟨hfai, rfl⟩
  | ok hal =>
    refine ⟨fun x mem => ?_, rfl⟩
    rcases mem_cons.mp mem with rfl | old
    · exact hak hal hdd
    · have hst := (mem_filter.mp old).1
      unfold Entries.makeRoom at hst
      split at hst
      · exact hfai x (mem_of_mem_eraseIdx hst)
      · exact hfai x hst

end

lemma check_transparent (cfg) (hfai : Faithful fga entries) (t r) :
    Faithful fga (CachedChecker.check reg fga cfg entries t r).1 ∧
      (CachedChecker.check reg fga cfg entries t r).2 = Checker.check reg fga r := by
  unfold CachedChecker.check
  cases hf : reg r.method with
  | none => exact ⟨hfai, rfl⟩
  | some e =>
    dsimp only
    split_ifs with free self empty refused refused handler
    -- no branch above the object touches the cache
    iterate 6
      · exact ⟨hfai, by simp_all [Checker.check]⟩
    cases hrsv : resolveObject e r.identity r.fields with
    | none => exact ⟨hfai, by simp_all [Checker.check]⟩
    | some obj =>
      dsimp only
      -- the key determines the question, so an entry of any earlier request answers this one
      have hax : Checker.check reg fga r =
          match fga ⟨fgaUser r.identity.subject (callerClass r.identity), e.relation, obj⟩ with
          | .error cause => .error ⟨r.method, cause⟩
          | .ok hal => .ok (hal.getD false) := by
        simp_all [Checker.check]
      have hak : ∀ hal, Checker.check reg fga r = .ok hal →
          ∃ an, fga ⟨fgaUser r.identity.subject (callerClass r.identity), e.relation, obj⟩ =
            .ok an ∧ an.getD false = hal := by
        intro hal hdd
        rw [hax] at hdd
        split at hdd
        · contradiction
        · next an hsa => exact ⟨an, hsa, Except.ok.inj hdd⟩
      split
      · next v hit =>
        split
        · refine ⟨hfai, ?_⟩
          obtain ⟨an, hsa, hs⟩ := hfai _ (Entries.mem_of_lookup hit)
          simp only [CacheKey.query] at hsa
          rw [hax, hsa, ← hs]
        · exact miss_transparent (hfai.mono fun x mem => (mem_filter.mp mem).1) t hak
      · exact miss_transparent hfai t hak

lemma decisions_eq (hfai : Faithful fga entries) (ops) :
    decisions reg fga cfg entries ops = (ops.filterMap CacheOp.request?).map (Checker.check reg fga) := by
  induction ops generalizing entries with
  | nil => rfl
  | cons op rs ih =>
    cases op with
    | check r t =>
      obtain ⟨kp, hs⟩ := check_transparent cfg hfai t r
      exact congrArg₂ cons hs (ih kp)
    | evict keep => exact ih (hfai.mono fun x mem => (mem_filter.mp mem).1)

end

/-- From an empty cache, every check of every sequence decides as the checker without a cache. -/
theorem cache_transparent {ε : Type} (reg : Registry) (fga : Query → Except ε (Option Bool))
    (ttl : Int) (maxSize : Nat) (ops : List CacheOp) :
    decisions reg fga (newCachedChecker ttl maxSize) [] ops =
      (ops.filterMap CacheOp.request?).map (Checker.check reg fga) :=
  decisions_eq (forall_mem_nil _) ops

end Gibson.Extauthz.Fga
