import Gibson.Lib.Calls
import Gibson.Lib.ConsumerGroup

/-! The store of the work queue. Each command is atomic; it can fail without effect, take effect
while its answer is lost, or wait. -/

namespace Gibson.WorkQueue

open ConsumerGroup Requests Function

/-- Work in a queue. -/
structure WorkItem where
  (workID workType payload : String := "")
  context : List (String × String) := []
  (timeoutMs createdAt : Nat := 0)
  slotPins : List (String × String) := []
deriving DecidableEq

/-- Why work failed. -/
structure WorkError where
  (code message : String)
  retryable : Bool

/-- The result of work. -/
structure WorkResult where
  workID : String
  result : String := ""
  error : Option WorkError := none

inductive Key where
  | workOwner (workID : String)
  | workRun (workID : String)
  | workSlots (workID : String)
  | workClaim (workID : String)
  | result (tenant workID : String)
deriving DecidableEq

abbrev Key.Value : Key → Type
  | .workSlots _ => List (String × String)
  | .result _ _ => WorkResult
  | _ => String

/-- Where a result is announced. -/
structure Channel where
  (tenant workID : String)
deriving DecidableEq

/-- A subscription and its queue. -/
structure Subscription where
  channel : Channel
  queued : Nat := 0

/-- A claimed entry. -/
structure Message where
  stream : String
  id : Nat
  item : WorkItem

inductive StoreError where
  | failed
  | noGroup
  | deadlineExceeded

inductive Request where
  | get (key : Key)
  | set (key : Key) (value : key.Value)
  | xadd (stream : String) (item : WorkItem)
  | xgroupCreate (stream : String)
  | xreadgroup (stream consumer : String) (block : Int) (noAck : Bool)
  | xpending (stream : String) (count : Nat)
  | xclaim (stream consumer : String) (minIdle : Nat) (ids : List Nat)
  | xack (stream : String) (id : Nat)
  | scan (kind name : String)
  | publish (channel : Channel)
  | subscribe (channel : Channel)
  | receive (subscription : Nat)

/-- What a command answers. -/
abbrev Request.Payload : Request → Type
  | .get key => Option key.Value
  | .set _ _ => Unit
  | .xadd _ _ => Nat
  | .xgroupCreate _ => Unit
  | .xreadgroup _ _ _ _ => Option Message
  | .xpending _ _ => List (Nat × Nat)
  | .xclaim _ _ _ _ => Unit
  | .xack _ _ => Nat
  | .scan _ _ => List String
  | .publish _ => Unit
  | .subscribe _ => Nat
  | .receive _ => Unit

abbrev Reply (q : Request) : Type := Except StoreError q.Payload

/-- A command is served, times out, fails without effect, or loses its answer. -/
inductive Answer where
  | served
  | elapsed
  | failed
  | lost

/-- The Redis state. -/
structure Redis where
  now : Nat := 0
  /-- The streams that exist, in the order a scan finds them. -/
  keys : List String := []
  streams : String → Stream WorkItem := fun _ => {}
  values : (key : Key) → Option key.Value := fun _ => none
  subscriptions : List Subscription := []

def matchesPattern (kind name key : String) : Bool :=
  let suffix := ":" ++ kind ++ ":" ++ name
  "work:".toList.isPrefixOf key.toList && suffix.toList.isSuffixOf key.toList &&
    decide ("work:".length + suffix.length ≤ key.length)

namespace Redis

variable (s : Redis)

def setValue (key : Key) (value : key.Value) : Redis :=
  { s with values := update s.values key (some value) }

def setStream (stream : String) (contents : Stream WorkItem) : Redis :=
  { s with
    keys := if stream ∈ s.keys then s.keys else s.keys ++ [stream]
    streams := update s.streams stream contents }

/-- A negative block is not sent at all, and a block of zero has no end. -/
def perform (elapsed : Bool) : (q : Request) → Option (Redis × Reply q)
  | .get key => some (s, .ok (s.values key))
  | .set key value => some (s.setValue key value, .ok ())
  | .xadd stream item =>
    some (s.setStream stream ((s.streams stream).add item), .ok ((s.streams stream).lastID + 1))
  | .xgroupCreate stream => some (s.setStream stream (s.streams stream).createGroup, .ok ())
  | .xreadgroup stream consumer block noAck =>
    if (s.streams stream).group.isNone then some (s, .error .noGroup)
    else match (s.streams stream).undelivered with
      | some e =>
        some (s.setStream stream ((s.streams stream).deliver e consumer noAck s.now),
          .ok (some ⟨stream, e.id, e.value⟩))
      | none => if block < 0 ∨ (elapsed ∧ 0 < block) then some (s, .ok none) else none
  | .xpending stream count =>
    some (s, .ok (((s.streams stream).pending.take count).map fun p => (p.id, s.now - p.since)))
  | .xclaim stream consumer minIdle ids =>
    some (s.setStream stream ((s.streams stream).claim consumer minIdle ids s.now), .ok ())
  | .xack stream id =>
    some ({ s with streams := update s.streams stream ((s.streams stream).ack id) },
      .ok ((s.streams stream).pending.countP fun p => p.id = id))
  | .scan kind name => some (s, .ok (s.keys.filter (matchesPattern kind name)))
  | .publish channel =>
    some ({ s with subscriptions := s.subscriptions.map fun sub =>
        if sub.channel = channel then { sub with queued := sub.queued + 1 } else sub }, .ok ())
  | .subscribe channel =>
    some ({ s with subscriptions := s.subscriptions ++ [⟨channel, 0⟩] }, .ok s.subscriptions.length)
  | .receive subscription =>
    if elapsed then some (s, .error .deadlineExceeded)
    else match s.subscriptions[subscription]? with
      | none => some (s, .error .failed)
      | some sub =>
        if sub.queued = 0 then none
        else some ({ s with subscriptions :=
          s.subscriptions.set subscription { sub with queued := sub.queued - 1 } }, .ok ())

def serve (q : Request) : Answer → Option (Redis × Reply q)
  | .served => s.perform false q
  | .elapsed => s.perform true q
  | .failed => some (s, .error .failed)
  | .lost => (s.perform false q).map fun answer => (answer.1, .error .failed)

end Redis

/-- What else changes the store: time passes, and keys with a lifetime expire. -/
inductive Change where
  | tick (n : Nat)
  | expire (key : Key)

def Redis.change (s : Redis) : Change → Redis
  | .tick n => { s with now := s.now + n }
  | .expire key => { s with values := update s.values key none }

variable {s : Redis} {q : Request}

lemma Redis.serve_cases (han : s.serve q a = some (state, r)) :
    (state = s ∧ r = .error .failed) ∨
      ∃ elapsed r', s.perform elapsed q = some (state, r') ∧ (r = r' ∨ r = .error .failed) := by
  cases a with
  | served => exact .inr ⟨false, r, han, .inl rfl⟩
  | elapsed => exact .inr ⟨true, r, han, .inl rfl⟩
  | failed =>
    cases han
    exact .inl ⟨rfl, rfl⟩
  | lost =>
    obtain ⟨⟨sta', r'⟩, hpe, hs⟩ := Option.map_eq_some_iff.mp han
    cases hs
    exact .inr ⟨false, r', hpe, .inr rfl⟩

lemma Redis.perform_xreadgroup {stream consumer block noAck r}
    (hpe : s.perform elapsed (.xreadgroup stream consumer block noAck) = some (state, r)) :
    (state = s ∧ ∀ message, r ≠ .ok (some message)) ∨ ∃ e, (s.streams stream).undelivered = some e ∧
        state = s.setStream stream ((s.streams stream).deliver e consumer noAck s.now) ∧
        r = .ok (some ⟨stream, e.id, e.value⟩) := by
  simp only [perform] at hpe
  split at hpe
  · cases hpe
    exact .inl ⟨rfl, by simp⟩
  split at hpe
  · rename_i e hf
    cases hpe
    exact .inr ⟨e, hf, rfl, rfl⟩
  · split at hpe
    · cases hpe
      exact .inl ⟨rfl, by simp⟩
    · contradiction

lemma Redis.perform_receive {subscription r}
    (hpe : s.perform elapsed (.receive subscription) = some (state, r)) :
    ∃ subscriptions, state = { s with subscriptions } := by
  simp only [perform] at hpe
  split at hpe
  · cases hpe
    exact ⟨_, rfl⟩
  split at hpe
  · cases hpe
    exact ⟨_, rfl⟩
  split at hpe
  · contradiction
  · cases hpe
    exact ⟨_, rfl⟩

variable {key : Key}

lemma Redis.value_serve (han : s.serve q a = some (state, r))
    (hst : state.values key = some vl) : s.values key = some vl ∨ q = .set key vl := by
  obtain ⟨rfl, -⟩ | ⟨el, r', hpe, -⟩ := serve_cases han
  · exact .inl hst
  cases q with
  | set hw new =>
    cases hpe
    change update s.values hw (some new) key = some vl at hst
    by_cases hh : key = hw
    · subst hh
      rw [update_self] at hst
      exact .inr (by rw [Option.some.inj hst])
    · rw [update_of_ne hh] at hst
      exact .inl hst
  | xreadgroup sm con blo noA =>
    obtain ⟨rfl, -⟩ | ⟨e, -, rfl, -⟩ := perform_xreadgroup hpe <;> exact .inl hst
  | receive sbn =>
    obtain ⟨_, rfl⟩ := perform_receive hpe
    exact .inl hst
  | _ =>
    cases hpe
    exact .inl hst

lemma Redis.value_change
    (hst : (s.change e).values key = some value) : s.values key = some value := by
  cases e with
  | tick n => exact hst
  | expire hexp =>
    by_cases hh : key = hexp
    · subst hh
      simp [change] at hst
    · simpa [change, update_of_ne hh] using hst

lemma Redis.get_serve
    (han : s.serve (.get key) a = some (state, .ok value)) : s.values key = value := by
  obtain ⟨-, failed⟩ | ⟨el, r', hpe, hs | failed⟩ := serve_cases han
  · contradiction
  · cases hpe
    exact Except.ok.inj hs.symm
  · contradiction

end Gibson.WorkQueue
