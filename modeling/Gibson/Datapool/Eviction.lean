import Mathlib.Logic.Function.Basic
import Gibson.Lib.Interleaving
import Gibson.Lib.Prefix

/-! The sub-pools of one tenant: acquisitions, releases and the evictor. Every look-up under a
mutex, every atomic operation and every map operation is one step. -/

namespace Gibson.Eviction

open List Interleaving
open Function (update update_of_ne update_self)

inductive Store where
  | pg
  | redis
deriving DecidableEq

/-- The handles of a connection. -/
structure Conn where
  postgres : Nat
  redis : Option Nat
deriving DecidableEq

def Conn.handle (c : Conn) : Store → Option Nat
  | .pg => some c.postgres
  | .redis => c.redis

/-- The use of a tenant's pool. -/
structure TenantEntry where
  (activeConns lastReleased : Int)

inductive Evictor where
  | idle
  | visiting (entry : Nat) (now : Int)
  | unused (entry : Nat) (now : Int)
  | evicting (store : Store)
  | deleting
deriving DecidableEq

/-- Pools and entries are known by number. -/
structure Pools where
  current : Store → Option Nat := fun _ => none
  made : Nat := 0
  closed : List (Store × Nat) := []
  entries : List TenantEntry := []
  entry : Option Nat := none
  evictor : Evictor := .idle

def Pools.active (s : Pools) (e : Nat) : Int := (s.entries[e]?.map (·.activeConns)).getD 0

def Pools.lastReleased (s : Pools) (e : Nat) : Int := (s.entries[e]?.map (·.lastReleased)).getD 0

def Pools.add (s : Pools) (e : Nat) (n : Int) : Pools :=
  { s with entries := s.entries.modify e fun x => { x with activeConns := x.activeConns + n } }

def Pools.stamp (s : Pools) (e : Nat) (now : Int) : Pools :=
  { s with entries := s.entries.modify e fun x => { x with lastReleased := now } }

/-- What a call of `ForTenant` is for: `initTenant` drops what it gets. -/
inductive Goal where
  | warmPg
  | warmRedis
  | pg
  | redis (postgres : Nat)
deriving DecidableEq

def Goal.store : Goal → Store
  | .warmPg | .pg => .pg
  | .warmRedis | .redis _ => .redis

/-- Where a call of `For` is, and what became of its `Conn`. -/
inductive Phase where
  | lookup (goal : Goal)
  | connect (goal : Goal)
  | load (c : Conn)
  | loadOrStore (c : Conn) (now : Int)
  | count (c : Conn) (entry : Nat)
  | returned (c : Conn) (entry : Nat)
  | release (entry : Nat)
  | stamp (entry : Nat)
  | released
  | failed
deriving DecidableEq

/-- The outcome and the time of a step. -/
structure Answer where
  ok : Bool := true
  now : Int := 0

section
variable (hasRedis : Bool) (idleTTL : Int)

def acquired (goal : Goal) (handle : Nat) : Phase :=
  match goal with
  | .warmPg => if hasRedis then .lookup .warmRedis else .lookup .pg
  | .warmRedis => .lookup .pg
  | .pg => if hasRedis then .lookup (.redis handle) else .load ⟨handle, none⟩
  | .redis postgres => .load ⟨postgres, some handle⟩

/-- The next step of a call. A session or an index that cannot be had fails it before its entry is
loaded. -/
def next (s : Pools) (phase : Phase) (a : Answer) : Pools × Phase :=
  match phase with
  | .lookup goal =>
    if !a.ok then (s, .failed) else
    match s.current goal.store with
    | some handle => (s, acquired hasRedis goal handle)
    | none => (s, .connect goal)
  | .connect goal =>
    if !a.ok then (s, .failed) else
    match s.current goal.store with
    | some handle =>
      ({ s with made := s.made + 1, closed := (goal.store, s.made) :: s.closed },
        acquired hasRedis goal handle)
    | none =>
      ({ s with
          made := s.made + 1, current := update s.current goal.store (some s.made) },
        acquired hasRedis goal s.made)
  | .load c =>
    if !a.ok then (s, .failed) else
    match s.entry with
    | some e => (s, .count c e)
    | none => (s, .loadOrStore c a.now)
  | .loadOrStore c now =>
    match s.entry with
    | some e => (s, .count c e)
    | none =>
      ({ s with entries := s.entries ++ [⟨0, now⟩], entry := some s.entries.length },
        .count c s.entries.length)
  | .count c e => (s.add e 1, .returned c e)
  | .returned _ e => (s, .release e)
  | .release e => (s.add e (-1), .stamp e)
  | .stamp e => (s.stamp e a.now, .released)
  | .released => (s, .released)
  | .failed => (s, .failed)

def evictTenant (s : Pools) (store : Store) : Pools :=
  match s.current store with
  | some handle =>
    { s with closed := (store, handle) :: s.closed, current := update s.current store none }
  | none => s

def sweep (s : Pools) (now : Int) : Pools :=
  match s.evictor with
  | .idle => match s.entry with
    | some e => { s with evictor := .visiting e now }
    | none => s
  | .visiting e now =>
    { s with evictor := if s.active e > 0 then .idle else .unused e now }
  | .unused e now =>
    { s with evictor := if now - s.lastReleased e > idleTTL then .evicting .pg else .idle }
  | .evicting .pg =>
    { evictTenant s .pg with evictor := if hasRedis then .evicting .redis else .deleting }
  | .evicting .redis => { evictTenant s .redis with evictor := .deleting }
  | .deleting => { s with entry := none, evictor := .idle }

/-- A call begins with `initTenant`, or waits for one that is under way. -/
def pools : System Pools Bool Phase Answer Int where
  enter joined := if joined then .lookup .pg else .lookup .warmPg
  advance := next hasRedis
  outside := sweep hasRedis idleTTL

end

abbrev PoolStep := Interleaving.Step Bool Answer Int

@[simp] def Phase.conn : Phase → Option Conn
  | .load c | .loadOrStore c _ | .count c _ | .returned c _ => some c
  | _ => none

def Phase.holds (p : Phase) (store : Store) : Option Nat :=
  match p with
  | .lookup (.redis postgres) | .connect (.redis postgres) =>
    if store = .pg then some postgres else none
  | p => p.conn.bind (·.handle store)

def Phase.entry : Phase → Option Nat
  | .count _ e | .returned _ e | .release e => some e
  | _ => none

def Phase.counted : Phase → Option Nat
  | .returned _ e | .release e => some e
  | _ => none

/-- The call has looked for a pool to return and has not counted itself. -/
def Phase.acquiring : Phase → Bool
  | .connect .pg | .lookup (.redis _) | .connect (.redis _) | .load _ | .loadOrStore .. |
    .count .. => true
  | _ => false

/-- The evictor has found the count at zero. -/
def Evictor.committed : Evictor → Bool
  | .unused .. | .evicting _ | .deleting => true
  | _ => false

/-- The evictor finds the count at zero while a call acquires, or a call looks for its pool after
that. -/
def Overlaps (w : World Pools Phase) : PoolStep → Prop
  | .outside _ => ∃ e now, w.shared.evictor = .visiting e now ∧ w.shared.active e ≤ 0 ∧
      ∃ p ∈ w.calls, p.acquiring
  | .advance i _ => w.calls[i]? = some (.lookup .pg) ∧ w.shared.evictor.committed
  | .start _ => False

instance (w : World Pools Phase) : DecidablePred (Overlaps w)
  | .outside _ => decidable_of_iff ((match w.shared.evictor with
      | .visiting e _ => decide (w.shared.active e ≤ 0) && w.calls.any (·.acquiring)
      | _ => false) = true) (by simp only [Overlaps]; split <;> simp_all)
  | .advance .. => inferInstanceAs (Decidable (_ ∧ _))
  | .start _ => .isFalse id

def countedOn (e : Nat) (calls : List Phase) : Nat := calls.countP (·.counted = some e)

/-- Whoever holds a pool or an entry holds the current one; an eviction under way finds nobody. -/
structure Guarded (w : World Pools Phase) : Prop where
  fresh : ∀ x ∈ w.shared.closed, x.2 < w.shared.made
  opened : ∀ store h, w.shared.current store = some h →
    h < w.shared.made ∧ (store, h) ∉ w.shared.closed
  held : ∀ p ∈ w.calls, ∀ store h, p.holds store = some h → w.shared.current store = some h
  entered : ∀ p ∈ w.calls, ∀ e, p.entry = some e → w.shared.entry = some e
  known : ∀ e, w.shared.entry = some e → e < w.shared.entries.length
  visited : ∀ e now, w.shared.evictor = .visiting e now → w.shared.entry = some e
  active : ∀ e, w.shared.entry = some e → w.shared.active e = countedOn e w.calls
  alone : w.shared.evictor.committed → ∀ p ∈ w.calls, p.acquiring = false ∧ p.counted = none

variable {p : Phase} {h : Nat}

lemma Phase.engaged_of_holds (hho : p.holds store = some h) :
    p.acquiring = true ∨ p.counted ≠ none := by
  cases p with
  | lookup goal | connect goal => cases goal <;> simp_all [Phase.holds, Phase.acquiring]
  | _ => simp_all [Phase.holds, Phase.acquiring, Phase.counted]

lemma Phase.engaged_of_entry (has : p.entry = some e) : p.acquiring = true ∨ p.counted ≠ none := by
  cases p <;> simp_all [Phase.entry, Phase.acquiring, Phase.counted]

lemma Phase.entry_of_counted (on : p.counted = some e) : p.entry = some e := by
  cases p <;> simp_all [Phase.counted, Phase.entry]

open Phase

/-- A call that is not engaged holds nothing. -/
lemma vacant (off : p.acquiring = false ∧ p.counted = none) :
    (∀ so, p.holds so = none) ∧ p.entry = none := by
  obtain ⟨hil, off⟩ := off
  have eng : ¬(p.acquiring = true ∨ p.counted ≠ none) := by simp [hil, off]
  refine ⟨fun so => ?_, ?_⟩
  · cases h : p.holds so with
    | none => rfl
    | some handle => exact absurd (engaged_of_holds h) eng
  · cases h : p.entry with
    | none => rfl
    | some e => exact absurd (engaged_of_entry h) eng

variable {calls : List Phase}

lemma countedOn_eq_zero (e : Nat) (none : ∀ p ∈ calls, p.counted ≠ some e) :
    countedOn e calls = 0 := by
  simpa [countedOn] using none

variable {w : World Pools Phase}
variable {hasRedis : Bool}

/-- What later pools keep. -/
structure Extends (s s' : Pools) : Prop where
  fresh : ∀ x ∈ s'.closed, x.2 < s'.made
  opened : ∀ store h, s'.current store = some h → h < s'.made ∧ (store, h) ∉ s'.closed
  current : ∀ store h, s.current store = some h → s'.current store = some h
  entry : ∀ e, s.entry = some e → s'.entry = some e
  known : ∀ e, s'.entry = some e → e < s'.entries.length
  evictor : s'.evictor = s.evictor

variable {i : Nat}

lemma countedOn_set (here : calls[i]? = some p) (p') (e : Nat) :
    (countedOn e (calls.set i p') : Int) = countedOn e calls -
      (if p.counted = some e then 1 else 0) + (if p'.counted = some e then 1 else 0) := by
  have hm := Interleaving.countP_set here (·.counted = some e) p'
  unfold countedOn
  split_ifs <;> simp_all
  omega

variable {s' : Pools}

lemma Pools.active_add (s : Pools) (e e' : Nat) (n : Int) (hbd : e < s.entries.length) :
    (s.add e n).active e' = s.active e' + if e = e' then n else 0 := by
  simp only [Pools.active, Pools.add, List.getElem?_modify]
  split
  · next hs =>
    subst hs
    simp [List.getElem?_eq_getElem hbd]
  · simp

section
variable (g : Guarded w)
include g

/-- Steps of the evictor that change no pool and no entry. -/
lemma Guarded.turn (evictor)
    (hvis : ∀ e now, evictor = .visiting e now → w.shared.entry = some e)
    (halo : evictor.committed → ∀ p ∈ w.calls, p.acquiring = false ∧ p.counted = none) :
    Guarded { w with shared := { w.shared with evictor } } :=
  ⟨g.fresh, g.opened, g.held, g.entered, g.known, hvis, g.active, halo⟩

lemma Guarded.evict (store)
    (halo : ∀ p ∈ w.calls, p.acquiring = false ∧ p.counted = none) (evictor)
    (moves : ∀ e now, evictor ≠ .visiting e now) :
    Guarded { w with shared := { evictTenant w.shared store with evictor } } := by
  unfold evictTenant
  split
  · next h cur =>
    refine ⟨?_, ?_, ?_, g.entered, g.known, fun e now at' => absurd at' (moves e now), g.active,
      fun _ => halo⟩
    · rintro x (_ | ⟨_, mem⟩)
      · exact (g.opened store h cur).1
      · exact g.fresh x mem
    · intro ho h' is
      by_cases hs : ho = store
      · subst hs
        simp at is
      have is : update w.shared.current store none ho = some h' := is
      rw [update_of_ne hs] at is
      refine ⟨(g.opened ho h' is).1, ?_⟩
      simp [hs, (g.opened ho h' is).2]
    · intro p mem ho h' hho
      simp [(vacant (halo p mem)).1] at hho
  · exact g.turn evictor (fun e now at' => absurd at' (moves e now)) fun _ => halo

lemma guarded_sweep (now : Int) (hpt : ¬Overlaps w (.outside now)) :
    Guarded (step (pools hasRedis idleTTL) w (.outside now)) := by
  simp only [step, pools, sweep]
  split
  · next =>
    split
    · next e en =>
      exact g.turn _ (fun e' _ at' => by cases at'; exact en) fun h => by cases h
    · exact g
  · next e now at' =>
    refine g.turn _ (by split <;> simp) fun hcm => ?_
    split at hcm
    · cases hcm
    next zero =>
    intro p mem
    have hil : p.acquiring = false := by
      by_contra acquiring
      exact hpt ⟨e, now, at', by omega, p, mem, by simpa using acquiring⟩
    refine ⟨hil, ?_⟩
    cases on : p.counted with
    | none => rfl
    | some e' =>
      -- the count of the visited entry is right, so a counted call keeps it above zero
      have en := g.entered p mem e' (entry_of_counted on)
      obtain rfl := Option.some.inj (en.symm.trans (g.visited e now at'))
      have hpo : 0 < countedOn e' w.calls :=
        countP_pos_iff.mpr ⟨p, mem, by simp [on]⟩
      have right := g.active e' en
      omega
  · next at' => exact g.turn _ (by split <;> simp) fun _ => g.alone (by simp [at', Evictor.committed])
  · next at' =>
    exact g.evict .pg (g.alone (by simp [at', Evictor.committed])) _ (by split <;> simp)
  · next at' => exact g.evict .redis (g.alone (by simp [at', Evictor.committed])) _ (by simp)
  · next at' =>
    have halo := g.alone (by simp [at', Evictor.committed])
    refine ⟨g.fresh, g.opened, g.held, fun p mem e has => ?_, by simp, by simp, by simp,
      fun h => by cases h⟩
    simp [(vacant (halo p mem)).2] at has

lemma Extends.refl : Extends w.shared w.shared :=
  ⟨g.fresh, g.opened, fun _ _ => id, fun _ => id, g.known, rfl⟩

/-- A pool that came too late is closed again. -/
lemma Extends.discard (store) : Extends w.shared
    { w.shared with made := w.shared.made + 1, closed := (store, w.shared.made) :: w.shared.closed } := by
  refine ⟨?_, fun ho h is => ?_, fun _ _ => id, fun _ => id, g.known, rfl⟩
  · rintro x (_ | ⟨_, old⟩)
    · exact Nat.lt_succ_self _
    · exact Nat.lt_succ_of_lt (g.fresh x old)
  · obtain ⟨hbe, hop⟩ := g.opened ho h is
    refine ⟨Nat.lt_succ_of_lt hbe, fun closed => ?_⟩
    rcases mem_cons.mp closed with new | old
    · exact absurd (Prod.mk.inj new).2 (Nat.ne_of_lt hbe)
    · exact hop old

lemma Extends.store {store} (hmis : w.shared.current store = none) :
    Extends w.shared { w.shared with
      made := w.shared.made + 1
      current := update w.shared.current store (some w.shared.made) } := by
  refine ⟨fun x old => Nat.lt_succ_of_lt (g.fresh x old), fun ho h is => ?_,
    fun ho h is => ?_, fun _ => id, g.known, rfl⟩
  · have is : update w.shared.current store (some w.shared.made) ho = some h := is
    by_cases hs : ho = store
    · subst hs
      obtain rfl : w.shared.made = h := by simpa using is
      exact ⟨Nat.lt_succ_self _, fun old => Nat.lt_irrefl _ (g.fresh _ old)⟩
    · rw [update_of_ne hs] at is
      exact (g.opened ho h is).imp Nat.lt_succ_of_lt id
  · by_cases hs : ho = store
    · rw [hs, hmis] at is
      cases is
    · exact (update_of_ne hs ..).trans is

variable (here : w.calls[i]? = some p)
include here

/-- The invariant after a call's step, from what the step did to the pools and what the call then
holds. -/
lemma Guarded.advance (ext : Extends w.shared s')
    (held : ∀ store h, p'.holds store = some h → s'.current store = some h)
    (entered : ∀ e, p'.entry = some e → s'.entry = some e)
    (active : ∀ e, s'.entry = some e → s'.active e = countedOn e (w.calls.set i p'))
    (engaged : p'.acquiring = true ∨ p'.counted ≠ none → p.acquiring = true ∨ p.counted ≠ none ∨
      w.shared.evictor.committed = false) : Guarded ⟨s', w.calls.set i p'⟩ where
  fresh := ext.fresh
  opened := ext.opened
  held q mem store h holds := by
    rcases mem_or_eq_of_mem_set mem with mem | rfl
    · exact ext.current _ _ (g.held q mem store h holds)
    · exact held store h holds
  entered q mem e has := by
    rcases mem_or_eq_of_mem_set mem with mem | rfl
    · exact ext.entry _ (g.entered q mem e has)
    · exact entered e has
  known := ext.known
  visited e now at' := ext.entry _ (g.visited e now (ext.evictor ▸ at'))
  active := active
  alone committed q mem := by
    have before : w.shared.evictor.committed = true := by
      rwa [← ext.evictor]
    have alone := g.alone before
    rcases mem_or_eq_of_mem_set mem with mem | rfl
    · exact alone q mem
    obtain ⟨idle, off⟩ := alone p (mem_of_getElem? here)
    have away : ¬(q.acquiring = true ∨ q.counted ≠ none) := fun now => by
      rcases engaged now with acquiring | counted | free
      · exact Bool.false_ne_true (idle.symm.trans acquiring)
      · exact counted off
      · exact Bool.false_ne_true (free.symm.trans before)
    simpa using away

/-- Between two phases that are not counted, with the counts as they were. -/
lemma active_same (hs : p'.counted = p.counted) (en : s'.entry = w.shared.entry)
    (hcts : ∀ e, s'.active e = w.shared.active e) :
    ∀ e, s'.entry = some e → s'.active e = countedOn e (w.calls.set i p') := by
  intro e is
  rw [hcts, g.active e (en ▸ is), countedOn_set here, hs]
  omega

lemma guarded_acquired (at' : p = .lookup goal ∨ p = .connect goal) (ext : Extends w.shared s')
    (got : s'.current goal.store = some h) (en : s'.entry = w.shared.entry)
    (hcts : ∀ e, s'.active e = w.shared.active e)
    (hpt : p = .lookup .pg → w.shared.evictor.committed = false) :
    Guarded ⟨s', w.calls.set i (acquired hasRedis goal h)⟩ := by
  have mem := mem_of_getElem? here
  have off : p.counted = none := by rcases at' with rfl | rfl <;> rfl
  obtain ⟨hct, noE⟩ : (acquired hasRedis goal h).counted = none ∧
      (acquired hasRedis goal h).entry = none := by
    cases goal <;> cases hasRedis <;> exact ⟨rfl, rfl⟩
  refine g.advance here ext ?_ (by simp [noE])
    (active_same g here (hct.trans off.symm) en hcts) ?_
  · intro so h' hho
    obtain ⟨rfl, rfl⟩ | before :
        (so = goal.store ∧ h' = h) ∨ (Phase.connect goal).holds so = some h' := by
      cases goal <;> cases hasRedis <;> cases so <;>
        simp_all [acquired, Phase.holds, Conn.handle, Goal.store]
    · exact got
    refine ext.current _ _ (g.held p mem so h' ?_)
    rcases at' with rfl | rfl
    · cases goal <;> exact before
    · exact before
  · intro eng
    rcases at' with rfl | rfl <;> cases goal <;> cases hasRedis <;>
      simp_all [acquired, acquiring]

/-- A step that leaves the pools and the counts alone. -/
lemma Guarded.move (hs : p'.counted = p.counted)
    (hhe : ∀ so h, p'.holds so = some h → p.holds so = some h)
    (hen : ∀ e, p'.entry = some e → w.shared.entry = some e)
    (eng : p'.acquiring = true → p.acquiring = true ∨ w.shared.evictor.committed = false) :
    Guarded ⟨w.shared, w.calls.set i p'⟩ := by
  have mem := mem_of_getElem? here
  refine g.advance here (.refl g) (fun so h has => g.held p mem so h (hhe so h has))
    hen (active_same g here hs rfl fun _ => rfl) ?_
  rintro (now | on)
  · exact (eng now).imp id .inr
  · exact .inr (.inl (hs ▸ on))

lemma Guarded.fail (off : p.counted = none) : Guarded ⟨w.shared, w.calls.set i .failed⟩ :=
  g.move here off.symm (by simp [holds]) (by simp [entry])
    (by simp [acquiring])

/-- Nobody is counted on an entry that was not there. -/
lemma guarded_newEntry (sg : p = .loadOrStore c now) (hmis : w.shared.entry = none) :
    Guarded ⟨{ w.shared with
        entries := w.shared.entries ++ [⟨0, now⟩], entry := some w.shared.entries.length },
      w.calls.set i (.count c w.shared.entries.length)⟩ := by
  subst sg
  have mem := mem_of_getElem? here
  refine g.advance here ⟨g.fresh, g.opened, fun _ _ => id, ?_, ?_, rfl⟩
    (fun so h has => g.held _ mem so h has) (by simp [entry]) ?_ fun _ => .inl rfl
  · intro e is
    rw [hmis] at is
    cases is
  · rintro e ⟨⟩
    simp
  · rintro e ⟨⟩
    rw [countedOn_eq_zero _ fun q hi on => ?_]
    · simp [Pools.active]
    rcases mem_or_eq_of_mem_set hi with hi | rfl
    · have is := g.entered q hi _ (entry_of_counted on)
      rw [hmis] at is
      cases is
    · cases on

/-- A call counts itself in or out. -/
lemma guarded_add (has : p.entry = some e) (hcts : ∀ e', (if e = e' then n else 0) =
      (if p'.counted = some e' then 1 else 0) - (if p.counted = some e' then 1 else 0))
    (hhe : ∀ so h, p'.holds so = some h → p.holds so = some h)
    (hen : ∀ e', p'.entry = some e' → p.entry = some e') (hse : p'.acquiring = false)
    (on : p'.counted ≠ none → p.acquiring = true) :
    Guarded ⟨w.shared.add e n, w.calls.set i p'⟩ := by
  have mem := mem_of_getElem? here
  have hk := g.known e (g.entered p mem e has)
  refine g.advance here ⟨g.fresh, g.opened, fun _ _ => id, fun _ => id, ?_, rfl⟩
    (fun so h has => g.held p mem so h (hhe so h has))
    (fun e' has => g.entered p mem e' (hen e' has)) ?_ ?_
  · intro e' is
    simpa [Pools.add] using g.known e' is
  · intro e' is
    rw [Pools.active_add _ _ _ _ hk, g.active e' is, countedOn_set here, hcts e']
    omega
  · rintro (acquiring | counted)
    · simp [hse] at acquiring
    · exact .inl (on counted)

lemma guarded_next (a : Answer) (apart : p = .lookup .pg → w.shared.evictor.committed = false) :
    Guarded ⟨(next hasRedis w.shared p a).1, w.calls.set i (next hasRedis w.shared p a).2⟩ := by
  have mem := mem_of_getElem? here
  cases p with
  | lookup goal =>
    simp only [next]
    split
    · exact g.fail here rfl
    split
    · next h current =>
      exact guarded_acquired g here (.inl rfl) (.refl g) current rfl (fun _ => rfl) apart
    refine g.move here rfl (fun _ _ holds => by cases goal <;> exact holds)
      (by simp [entry]) fun now => ?_
    cases goal <;> simp_all [acquiring]
  | connect goal =>
    simp only [next]
    split
    · exact g.fail here rfl
    split
    · next h current =>
      exact guarded_acquired g here (.inr rfl) (.discard g _) current rfl (fun _ => rfl) (by simp)
    · next missing =>
      exact guarded_acquired g here (.inr rfl) (.store g missing) (update_self ..) rfl
        (fun _ => rfl) (by simp)
  | load c =>
    simp only [next]
    split
    · exact g.fail here rfl
    split
    · next e entry =>
      exact g.move here rfl (fun _ _ => id) (by simp [Phase.entry, entry]) fun _ => .inl rfl
    · exact g.move here rfl (fun _ _ => id) (by simp [entry]) fun _ => .inl rfl
  | loadOrStore c now =>
    simp only [next]
    split
    · next e entry =>
      exact g.move here rfl (fun _ _ => id) (by simp [Phase.entry, entry]) fun _ => .inl rfl
    · next missing => exact guarded_newEntry g here rfl missing
  | count c e =>
    simp only [next]
    exact guarded_add g here rfl (by simp [counted]) (fun _ _ => id) (fun _ => id) rfl
      fun _ => rfl
  | returned c e =>
    simp only [next]
    exact g.move here rfl (by simp [holds]) (fun _ has => g.entered _ mem _ has)
      fun now => by cases now
  | release e =>
    simp only [next]
    refine guarded_add g here rfl (fun e' => ?_) (by simp [holds])
      (by simp [entry]) rfl (by simp [counted])
    simp only [counted, Option.some.injEq]
    split <;> simp
  | stamp e =>
    simp only [next]
    refine g.advance here ⟨g.fresh, g.opened, fun _ _ => id, fun _ => id, ?_, rfl⟩
      (by simp [holds]) (by simp [entry])
      (active_same g here rfl rfl fun e' => ?_) (by simp [acquiring, counted])
    · intro e' is
      simpa [Pools.stamp] using g.known e' is
    · simp only [Pools.active, Pools.stamp, List.getElem?_modify]
      split <;> cases w.shared.entries[e']? <;> rfl
  | released | failed =>
    exact g.move here rfl (fun _ _ => id) (fun _ has => by cases has) fun now => .inl now

end

lemma guarded_step (g : Guarded w) (x) (apart : ¬Overlaps w x) :
    Guarded (step (pools hasRedis idleTTL) w x) := by
  cases x with
  | outside now => exact guarded_sweep g now apart
  | advance i a =>
    cases here : w.calls[i]? with
    | none => rwa [step_advance_none here]
    | some p =>
      rw [step_advance_some here]
      refine guarded_next g here a fun at' => ?_
      subst at'
      simpa [Overlaps, here] using apart
  | start joined =>
    have off (p : Phase) (mem : p ∈ w.calls ++ [(pools hasRedis idleTTL).enter joined]) :
        p ∈ w.calls ∨ p.acquiring = false ∧ p.counted = none := by
      refine (mem_append.mp mem).imp id fun new => ?_
      obtain rfl := mem_singleton.mp new
      cases joined <;> exact ⟨rfl, rfl⟩
    refine ⟨g.fresh, g.opened, fun p mem store h has => ?_, fun p mem e has => ?_, g.known,
      g.visited, fun e is => ?_, fun committed p mem => ?_⟩
    · rcases off p mem with old | new
      · exact g.held p old store h has
      · simp [(vacant new).1] at has
    · rcases off p mem with old | new
      · exact g.entered p old e has
      · simp [(vacant new).2] at has
    · have same : countedOn e (w.calls ++ [(pools hasRedis idleTTL).enter joined]) =
          countedOn e w.calls := by
        cases joined <;> simp [countedOn, pools, counted]
      exact (g.active e is).trans (congrArg Nat.cast same).symm
    · exact (off p mem).elim (g.alone committed p) id

/-- As long as no eviction overlaps an acquisition, no `Conn` in use carries a closed pool. -/
theorem evicted_pool_not_in_use (hasRedis : Bool) (idleTTL : Int) (steps : List PoolStep)
    (apart : ∀ before x after, steps = before ++ x :: after →
      ¬Overlaps (run (pools hasRedis idleTTL) ⟨{}, []⟩ before) x) :
    ∀ p ∈ (run (pools hasRedis idleTTL) ⟨{}, []⟩ steps).calls, ∀ c e, p = .returned c e →
      ∀ store h, c.handle store = some h →
        (store, h) ∉ (run (pools hasRedis idleTTL) ⟨{}, []⟩ steps).shared.closed := by
  have gua : Guarded (run (pools hasRedis idleTTL) ⟨{}, []⟩ steps) := by
    induction steps using List.reverseRecOn with
    | nil =>
      exact ⟨by simp [run], by simp [run], by simp [run], by simp [run], by simp [run],
        by simp [run], by simp [run], by simp [run]⟩
    | append_singleton steps x ih =>
      rw [run_append_singleton]
      exact guarded_step (ih fun before y after split =>
        apart before y (after ++ [x]) (by simp [split])) x (apart steps x [] rfl)
  rintro p mem c e rfl store h has
  exact (gua.opened store h (gua.held _ mem store h has)).2

def go (i : Nat) : PoolStep := .advance i {}

def usedOnce : List PoolStep := .start true :: List.replicate 9 (go 0)

/-- A sweep at time ten closes the pools of a tenant that is not in use; a second call makes new
ones. -/
def sweptThenUsed : List PoolStep :=
  usedOnce ++ List.replicate 6 (.outside 10) ++ .start true :: List.replicate 7 (go 1)

theorem evicted_pool_not_in_use_swept :
    (run (pools true 5) ⟨{}, []⟩ sweptThenUsed).shared.closed = [(.redis, 1), (.pg, 0)] ∧
      (Store.redis, 3) ∉ (run (pools true 5) ⟨{}, []⟩ sweptThenUsed).shared.closed :=
  ⟨by decide, evicted_pool_not_in_use true 5 sweptThenUsed (Prefix.forall_split (by decide))
    (.returned ⟨2, some 3⟩ 1) (by decide) ⟨2, some 3⟩ 1 rfl .redis 3 rfl⟩

/-- A call has the pools in hand when a sweep at time ten closes them. -/
def overtaken : List PoolStep :=
  usedOnce ++ [.start true, go 1, go 1] ++ List.replicate 6 (.outside 10) ++ [go 1, go 1, go 1]

theorem evicted_pool_returned :
    (run (pools true 5) ⟨{}, []⟩ overtaken).calls[1]? = some (.returned ⟨0, some 1⟩ 1) ∧
      (run (pools true 5) ⟨{}, []⟩ overtaken).shared.closed = [(.redis, 1), (.pg, 0)] := by
  decide

end Gibson.Eviction
