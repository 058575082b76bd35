import Gibson.Extauthz.Checker
import Gibson.Lib.Interleaving
import Mathlib.Tactic.IntervalCases

/-! The decision cache in front of the authorization store. A check holds the lock while it looks
its key up and while it stores the answer, but not while it asks the store. -/

namespace Gibson.Extauthz

open List Interleaving

/-- A cached answer. -/
structure CacheValue where
  allowed : Bool
  deadline : Int

abbrev Entries := List (CacheKey × CacheValue)

/-- Lifetime and size. -/
structure CacheConfig where
  ttl : Int
  maxSize : Nat

def defaultCacheTTL : Int := 5000000000

def newCachedChecker (ttl : Int) (maxSize : Nat) : CacheConfig :=
  { ttl := if ttl ≤ 0 then defaultCacheTTL else ttl, maxSize }

/-- The clock, whether the store fails, and the entry that the iteration comes to first. -/
structure CacheAnswer where
  now : Int := 0
  fails : Bool := false
  victim : Nat := 0

def Entries.erase (entries : Entries) (key : CacheKey) : Entries := entries.filter (·.1 != key)

def Entries.makeRoom (entries : Entries) (maxSize victim : Nat) : Entries :=
  if 0 < maxSize ∧ maxSize ≤ entries.length then entries.eraseIdx (victim % entries.length)
  else entries

def Entries.put (entries : Entries) (key : CacheKey) (v : CacheValue) : Entries :=
  (key, v) :: entries.erase key

def invalidateSubject (entries : Entries) (subject : String) : Entries :=
  entries.filter (·.1.subject != subject)

inductive CheckCall where
  | lookup (r : CheckRequest)
  | asking (key : CacheKey)
  | storing (key : CacheKey) (allowed : Bool)
  | ended (answer : Option Bool)

/-- A store behind a cache. -/
structure Caching (F : Type) where
  store : F
  entries : Entries := []

inductive CacheEvent (F : Type) where
  | change (store : F)
  | invalidate (subject : String)

section
variable {F : Type} (reg : Registry) (answers : F → Query → Bool) (cfg : CacheConfig)

def advanceCheck (s : Caching F) (c : CheckCall) (a : CacheAnswer) : Caching F × CheckCall :=
  match c with
  | .lookup r =>
    match route reg r with
    | .decided allowed => (s, .ended (some allowed))
    | .ask key =>
      match s.entries.lookup key with
      | none => (s, .asking key)
      | some v =>
        if a.now < v.deadline then (s, .ended (some v.allowed))
        else ({ s with entries := s.entries.erase key }, .asking key)
  | .asking key =>
    if a.fails then (s, .ended none) else (s, .storing key (answers s.store key.query))
  | .storing key allowed =>
    ({ s with
        entries := (s.entries.makeRoom cfg.maxSize a.victim).put key ⟨allowed, a.now + cfg.ttl⟩ },
      .ended (some allowed))
  | .ended answer => (s, .ended answer)

def outsideCache (s : Caching F) : CacheEvent F → Caching F
  | .change store => { s with store }
  | .invalidate subject => { s with entries := invalidateSubject s.entries subject }

def checks : System (Caching F) CheckRequest CheckCall CacheAnswer (CacheEvent F) where
  enter := .lookup
  advance := advanceCheck reg answers cfg
  outside := outsideCache

abbrev CacheStep (F : Type) := Step CheckRequest CacheAnswer (CacheEvent F)

def cacheAt (f : F) (steps : List (CacheStep F)) (n : Nat) : World (Caching F) CheckCall :=
  worldAt (checks reg answers cfg) { shared := { store := f } } steps n

def AsksAt (f : F) (steps : List (CacheStep F)) (n i : Nat) (key : CacheKey) : Prop :=
  (∃ a, steps[n]? = some (.advance i a)) ∧
    (cacheAt reg answers cfg f steps n).calls[i]? = some (.asking key)

def StoresAt (f : F) (steps : List (CacheStep F)) (n i : Nat) (key : CacheKey) (allowed : Bool) :
    Prop :=
  (∃ a, steps[n]? = some (.advance i a)) ∧
    (cacheAt reg answers cfg f steps n).calls[i]? = some (.storing key allowed)

/-- No answer that was asked for before a change is stored after an invalidation that follows the
change. -/
def NoLateStore (f : F) (steps : List (CacheStep F)) : Prop :=
  ∀ asked changed invalidated stored i key allowed store,
    AsksAt reg answers cfg f steps asked i key →
    steps[changed]? = some (.outside (.change store)) →
    steps[invalidated]? = some (.outside (.invalidate key.subject)) →
    StoresAt reg answers cfg f steps stored i key allowed →
    asked < changed → changed < invalidated → ¬invalidated < stored

/-- A check that starts after the invalidation that follows a change gives an answer of the store at
a time after the change. -/
def HonoursInvalidation (f : F) (steps : List (CacheStep F)) : Prop :=
  ∀ changed invalidated started finished store (r : CheckRequest) allowed,
    steps[changed]? = some (.outside (.change store)) →
    steps[invalidated]? = some (.outside (.invalidate r.identity.subject)) →
    steps[started]? = some (.start r) →
    changed < invalidated → invalidated < started → started < finished →
    (cacheAt reg answers cfg f steps finished).calls[
      (cacheAt reg answers cfg f steps started).calls.length]? = some (.ended (some allowed)) →
    ∃ n, changed < n ∧ n ≤ finished ∧
      Checker.check reg (answers (cacheAt reg answers cfg f steps n).shared.store) r = allowed

end

section
variable {F : Type} {reg : Registry} {answers : F → Query → Bool} {cfg : CacheConfig}
variable {key : CacheKey} {v : CacheValue}

lemma Entries.mem_of_lookup {ens : Entries} (hf : ens.lookup key = some v) :
    (key, v) ∈ ens := by
  obtain ⟨hb, ha, rfl, -⟩ := lookup_eq_some_iff.mp hf
  simp

variable {c : CheckCall}

lemma mem_advanceCheck (hi : (key, v) ∈ (advanceCheck reg answers cfg s c a).1.entries) :
    (key, v) ∈ s.entries ∨ c = .storing key v.allowed := by
  cases c with
  | lookup r =>
    unfold advanceCheck at hi
    simp only at hi
    repeat' split at hi
    · exact .inl hi
    · exact .inl hi
    · exact .inl hi
    · exact .inl (mem_filter.mp hi).1
  | asking key' =>
    unfold advanceCheck at hi
    simp only at hi
    split at hi <;> exact .inl hi
  | storing key' allowed =>
    rcases mem_cons.mp hi with new | old
    · cases new
      exact .inr rfl
    refine .inl ?_
    have room := (mem_filter.mp old).1
    unfold Entries.makeRoom at room
    split at room
    · exact mem_of_mem_eraseIdx room
    · exact room
  | ended an => exact .inl hi

lemma mem_stepCache (hi : (key, v) ∈ (step (checks reg answers cfg) w x).shared.entries) :
    ((key, v) ∈ w.shared.entries ∧ x ≠ .outside (.invalidate key.subject)) ∨
      ∃ i a, x = .advance i a ∧ w.calls[i]? = some (.storing key v.allowed) := by
  cases x with
  | start r => exact .inl ⟨hi, by simp⟩
  | outside event =>
    cases event with
    | change so => exact .inl ⟨hi, by simp⟩
    | invalidate sub =>
      obtain ⟨old, kp⟩ := mem_filter.mp hi
      refine .inl ⟨old, fun hs => ?_⟩
      obtain rfl := CacheEvent.invalidate.inj (Step.outside.inj hs)
      simp at kp
  | advance i a =>
    simp only [step] at hi
    cases cl : w.calls[i]? with
    | none =>
      rw [cl] at hi
      exact .inl ⟨hi, by simp⟩
    | some c =>
      rw [cl] at hi
      rcases mem_advanceCheck hi with old | rfl
      · exact .inl ⟨old, by simp⟩
      · exact .inr ⟨i, a, rfl, cl⟩

variable {allowed : Bool}

lemma advanceCheck_storing (nx : (advanceCheck reg answers cfg s c a).2 = .storing key allowed) :
    c = .asking key ∧ answers s.store key.query = allowed := by
  unfold advanceCheck at nx
  cases c with
  | lookup r =>
    repeat' split at nx
    all_goals contradiction
  | asking key' =>
    simp only at nx
    split at nx
    · contradiction
    · cases nx
      exact ⟨rfl, rfl⟩
  | storing | ended => contradiction

variable {f : F} {steps : List (CacheStep F)}
variable (reg answers cfg f steps) in
def Asked (n i : Nat) (key : CacheKey) (allowed : Bool) : Prop :=
  ∃ asked, asked < n ∧ AsksAt reg answers cfg f steps asked i key ∧
    answers (cacheAt reg answers cfg f steps asked).shared.store key.query = allowed

variable (reg answers cfg f steps) in
/-- A call has asked about a key and stored the answer, and the subject has not been invalidated
since. -/
def Origin (n : Nat) (key : CacheKey) (allowed : Bool) : Prop :=
  ∃ stored i, stored < n ∧ Asked reg answers cfg f steps stored i key allowed ∧
    StoresAt reg answers cfg f steps stored i key allowed ∧
    ∀ j, stored < j → j < n → steps[j]? ≠ some (.outside (.invalidate key.subject))

lemma Asked.later (hak : Asked reg answers cfg f steps n i key allowed) (le : n ≤ m) :
    Asked reg answers cfg f steps m i key allowed := by
  obtain ⟨time, hea, rs⟩ := hak
  exact ⟨time, by omega, rs⟩

variable {n : Nat}

lemma Origin.next (og : Origin reg answers cfg f steps n key allowed)
    (ho : steps[n]? ≠ some (.outside (.invalidate key.subject))) :
    Origin reg answers cfg f steps (n + 1) key allowed := by
  obtain ⟨hst, i, hea, hak, sto, sin⟩ := og
  refine ⟨hst, i, by omega, hak, sto, fun j ha hb => ?_⟩
  by_cases hlt : j = n
  · rwa [hlt]
  · exact sin j ha (by omega)

lemma storing_asked (reg) (answers : F → Query → Bool) (cfg f)
    (steps : List (CacheStep F)) (n : Nat)
    (cl : (cacheAt reg answers cfg f steps n).calls[i]? = some (.storing key allowed)) :
    Asked reg answers cfg f steps n i key allowed := by
  revert cl
  refine timeline (P := fun n (w : World (Caching F) CheckCall) =>
    w.calls[i]? = some (.storing key allowed) → Asked reg answers cfg f steps n i key allowed)
    (by simp) ?_ ?_ n
  · intro n x hh ih cl
    rcases calls_step cl with ⟨old, -⟩ | ⟨r, -, -, new⟩ | ⟨a, hb, rfl, hf, nx⟩
    · exact (ih old).later (by omega)
    · exact absurd new (by simp [checks])
    · obtain ⟨rfl, vl⟩ := advanceCheck_storing nx.symm
      exact ⟨n, by omega, ⟨⟨a, hh⟩, hf⟩, vl⟩
  · intro n _ ih cl
    exact (ih cl).later (by omega)

lemma entry_origin (reg) (answers : F → Query → Bool) (cfg f) (steps : List (CacheStep F))
    (n : Nat) (hi : (key, v) ∈ (cacheAt reg answers cfg f steps n).shared.entries) :
    Origin reg answers cfg f steps n key v.allowed := by
  revert hi
  refine timeline (P := fun n (w : World (Caching F) CheckCall) =>
    (key, v) ∈ w.shared.entries → Origin reg answers cfg f steps n key v.allowed) (by simp) ?_ ?_ n
  · intro n x hh ih hi
    rcases mem_stepCache hi with ⟨old, ho⟩ | ⟨i, a, rfl, cl⟩
    · refine (ih old).next ?_
      rw [hh]
      exact fun hs => ho (Option.some.inj hs)
    · exact ⟨n, i, by omega, storing_asked reg answers cfg f steps n cl, ⟨⟨a, hh⟩, cl⟩,
        fun j _ _ => by omega⟩
  · intro n pa ih hi
    exact (ih hi).next (by simp [pa])

variable (reg answers cfg f steps n) in
def DecidedAt (r : CheckRequest) (allowed : Bool) : Prop :=
  Checker.check reg (answers (cacheAt reg answers cfg f steps n).shared.store) r = allowed

variable (reg answers cfg f steps n) in
def ServedAt (r : CheckRequest) (allowed : Bool) : Prop :=
  ∃ key v, route reg r = .ask key ∧ v.allowed = allowed ∧
    (key, v) ∈ (cacheAt reg answers cfg f steps n).shared.entries

variable (reg answers cfg f steps) in
/-- What a check of a request that started at a time has reached at another. -/
def Reached (started : Nat) (r : CheckRequest) (n : Nat) : CheckCall → Prop
  | .lookup r' => r' = r
  | .asking key => route reg r = .ask key
  | .storing _ allowed =>
    ∃ t, started ≤ t ∧ t < n ∧ DecidedAt reg answers cfg f steps t r allowed
  | .ended none => True
  | .ended (some allowed) =>
    ∃ t, started ≤ t ∧ t < n ∧ (DecidedAt reg answers cfg f steps t r allowed ∨
      ServedAt reg answers cfg f steps t r allowed)

variable {started : Nat} {r : CheckRequest}

lemma Reached.later (hrc : Reached reg answers cfg f steps started r n c)
    (le : n ≤ m) : Reached reg answers cfg f steps started r m c := by
  cases c with
  | lookup r' | asking key => exact hrc
  | storing key allowed =>
    obtain ⟨t, ha, hb, hdd⟩ := hrc
    exact ⟨t, ha, by omega, hdd⟩
  | ended an =>
    cases an with
    | none => trivial
    | some allowed =>
      obtain ⟨t, ha, hb, hdd⟩ := hrc
      exact ⟨t, ha, by omega, hdd⟩

lemma Reached.advance (a) (hrc : Reached reg answers cfg f steps started r n c)
    (le : started ≤ n) :
    Reached reg answers cfg f steps started r (n + 1)
      (advanceCheck reg answers cfg (cacheAt reg answers cfg f steps n).shared c a).2 := by
  cases c with
  | lookup r' =>
    obtain rfl : r' = r := hrc
    unfold advanceCheck
    simp only
    split
    next allowed hdd =>
      exact ⟨n, le, by omega, .inl (by simp only [DecidedAt, Checker.check, hdd])⟩
    next key hax =>
      split
      · exact hax
      next v hf =>
        split
        · exact ⟨n, le, by omega, .inr ⟨key, v, hax, rfl, Entries.mem_of_lookup hf⟩⟩
        · exact hax
  | asking key =>
    have hax : route reg r = .ask key := hrc
    unfold advanceCheck
    simp only
    split
    · trivial
    · exact ⟨n, le, by omega, by simp only [DecidedAt, Checker.check, hax]⟩
  | storing key allowed =>
    obtain ⟨t, ha, hb, hdd⟩ := hrc
    exact ⟨t, ha, by omega, .inl hdd⟩
  | ended an => exact hrc.later (by omega)

lemma reached_of_start (s0 : steps[started]? = some (.start r)) (n : Nat) (ha : started < n) :
    ∃ c, (cacheAt reg answers cfg f steps n).calls[
      (cacheAt reg answers cfg f steps started).calls.length]? = some c ∧
      Reached reg answers cfg f steps started r n c := by
  revert ha
  refine timeline (P := fun n w => started < n → ∃ c, w.calls[
      (cacheAt reg answers cfg f steps started).calls.length]? = some c ∧
      Reached reg answers cfg f steps started r n c) (by simp) ?_ ?_ n
  · intro n x hh ih ha
    by_cases h1 : started = n
    · subst h1
      obtain rfl : Step.start r = x := Option.some.inj (s0.symm.trans hh)
      exact ⟨.lookup r, by simp [step, cacheAt, checks], rfl⟩
    · obtain ⟨c, cl, hrc⟩ := ih (by omega)
      obtain ⟨c', cal', rfl | ⟨a, rfl, rfl⟩⟩ := call_step x cl
      · exact ⟨c', cal', hrc.later (by omega)⟩
      · exact ⟨_, cal', hrc.advance a (by omega)⟩
  · intro n pa ih ha
    have fur : started < n := by
      by_contra last
      obtain rfl : started = n := by omega
      rw [s0] at pa
      contradiction
    obtain ⟨c, cl, hrc⟩ := ih fur
    exact ⟨c, cl, hrc.later (by omega)⟩

/-- In a run without late stores, checks honour invalidations. -/
theorem honoursInvalidation_of_noLateStore (reg : Registry) (answers : F → Query → Bool)
    (cfg : CacheConfig) (f : F) (steps : List (CacheStep F))
    (timely : NoLateStore reg answers cfg f steps) :
    HonoursInvalidation reg answers cfg f steps := by
  intro hch inv started hfi so r allowed change invalidate s0 hor ord'
    ha cl
  obtain ⟨c, cal', hrc⟩ := reached_of_start s0 hfi ha
  obtain rfl : c = .ended (some allowed) := Option.some.inj (cal'.symm.trans cl)
  obtain ⟨t, sin, hb, hdd | ⟨key, v, hax, rfl, hi⟩⟩ := hrc
  · exact ⟨t, by omega, by omega, hdd⟩
  obtain ⟨hst, i, hea, ⟨hak, h1, ask0, vl⟩, sto0, kp⟩ :=
    entry_origin reg answers cfg f steps t hi
  refine ⟨hak, ?_, by omega, by simp only [Checker.check, hax, vl]⟩
  have sub := route_subject hax
  rw [← sub] at invalidate
  have hlt : inv < hst := by
    obtain ⟨⟨a, sto⟩, -⟩ := sto0
    rcases Nat.lt_trichotomy inv hst with hlt | same | early
    · exact hlt
    · rw [same, sto] at invalidate
      simp at invalidate
    · exact absurd invalidate (kp inv early (by omega))
  by_contra early
  have asked_ne : hak ≠ hch := by
    obtain ⟨⟨a, askStep⟩, -⟩ := ask0
    rintro rfl
    rw [askStep] at change
    simp at change
  exact timely hak hch inv hst i key v.allowed so ask0 change invalidate
    sto0 (by omega) hor hlt

end

def listMissions : CheckRequest where
  method := "/gibson.v1.Missions/List"
  identity :=
    { subject := "u1", issuer := .oidc, credentialType := .oidcUser, tenant := "acme" }
  fields := requestMeta "acme"

def membersOnly : Registry := fun method =>
  if method = "/gibson.v1.Missions/List" then
    some
      { relation := "member"
        objectType := "tenant"
        objectDeriver := "tenant_from_identity"
        allowedIdentities := identityUser }
  else none

def membership (held : Bool) (_ : Query) : Bool := held

def removedBetween : List (CacheStep Bool) :=
  [.start listMissions, .advance 0 {}, .advance 0 {}, .advance 0 {},
   .outside (.change false), .outside (.invalidate "u1"),
   .start listMissions, .advance 1 {}, .advance 1 {}, .advance 1 {}]

theorem honoursInvalidation_removedBetween :
    NoLateStore membersOnly membership (newCachedChecker 0 0) true removedBetween ∧
      HonoursInvalidation membersOnly membership (newCachedChecker 0 0) true removedBetween := by
  have htim : NoLateStore membersOnly membership (newCachedChecker 0 0) true removedBetween := by
    rintro hak hch inv hst i key allowed so ⟨⟨a, hax⟩, -⟩ change invalidate
      ⟨⟨a', stores⟩, -⟩ order order' late
    -- the first call asks and stores before the change, the second after the invalidation
    have hbd := (List.getElem?_eq_some_iff.mp stores).1
    have tim : hch = 4 := by
      have : hch < 10 := (List.getElem?_eq_some_iff.mp change).1
      interval_cases hch <;> simp_all [removedBetween]
    subst tim
    have h1 : i = 0 := by interval_cases hak <;> simp_all [removedBetween]
    have h2 : i = 1 := by
      have : hst < 10 := hbd
      have : 5 < hst := by omega
      interval_cases hst <;> simp_all [removedBetween]
    omega
  exact ⟨htim, honoursInvalidation_of_noLateStore _ _ _ _ _ htim⟩

/-- The member is removed while a check waits for its answer, which is stored after the
invalidation. -/
def removedWhileAsking : List (CacheStep Bool) :=
  [.start listMissions, .advance 0 {}, .advance 0 {},
   .outside (.change false), .outside (.invalidate "u1"), .advance 0 {},
   .start listMissions, .advance 1 {}]

theorem honoursInvalidation_removedWhileAsking :
    ¬HonoursInvalidation membersOnly membership (newCachedChecker 0 0) true removedWhileAsking := by
  intro hon
  obtain ⟨n, ha, hb, allowed⟩ := hon 3 4 6 8 false listMissions true rfl rfl rfl
    (by decide) (by decide) (by decide) rfl
  have hrmv : (cacheAt membersOnly membership (newCachedChecker 0 0) true removedWhileAsking
      n).shared.store = false := by
    interval_cases n <;> rfl
  rw [hrmv] at allowed
  exact absurd allowed (by decide)

end Gibson.Extauthz
