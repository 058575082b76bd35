import Mathlib.Data.List.Basic

/-! A stream read by one consumer group. Unless a read waives acknowledgement the entry enters the
list of pending ones, where another consumer can take it over. -/

namespace Gibson.ConsumerGroup

/-- An entry of a stream. -/
structure Entry (α : Type) where
  id : Nat
  value : α
deriving DecidableEq

/-- An unacknowledged entry. -/
structure Pending where
  id : Nat
  consumer : String
  since : Nat

/-- A consumer group. -/
structure Group where
  cursor : Nat := 0
  pending : List Pending := []

/-- A stream with its entries, oldest first. Without a group nothing has been handed out. -/
structure Stream (α : Type) where
  entries : List (Entry α) := []
  lastID : Nat := 0
  group : Option Group := none

variable {α : Type}

namespace Stream

def cursor (s : Stream α) : Nat := (s.group.map Group.cursor).getD 0

def pending (s : Stream α) : List Pending := (s.group.map Group.pending).getD []

def undelivered (s : Stream α) : Option (Entry α) :=
  s.entries.find? fun e => s.cursor < e.id

def add (s : Stream α) (v : α) : Stream α :=
  { s with entries := s.entries ++ [⟨s.lastID + 1, v⟩], lastID := s.lastID + 1 }

def createGroup (s : Stream α) : Stream α :=
  { s with group := some (s.group.getD {}) }

/-- Hand out an entry, from a read with or without acknowledgement. -/
def deliver (s : Stream α) (e : Entry α) (consumer : String) (noAck : Bool) (now : Nat) :
    Stream α :=
  let pending := if noAck then s.pending else s.pending ++ [⟨e.id, consumer, now⟩]
  { s with group := some { cursor := e.id, pending } }

def ack (s : Stream α) (id : Nat) : Stream α :=
  { s with group := s.group.map fun g =>
      { g with pending := g.pending.filter fun p => p.id ≠ id } }

def takes (ids : List Nat) (minIdle now : Nat) (p : Pending) : Bool :=
  p.id ∈ ids ∧ minIdle ≤ now - p.since

def claim (s : Stream α) (consumer : String) (minIdle : Nat) (ids : List Nat) (now : Nat) :
    Stream α :=
  { s with group := s.group.map fun g =>
      { g with pending := g.pending.map fun p =>
          if takes ids minIdle now p then { p with consumer, since := now } else p } }

variable (s : Stream α)

@[simp] lemma cursor_add (v : α) : (s.add v).cursor = s.cursor := rfl

@[simp] lemma cursor_createGroup : s.createGroup.cursor = s.cursor := by
  cases h : s.group <;> simp [createGroup, cursor, h]

@[simp] lemma cursor_ack (id : Nat) : (s.ack id).cursor = s.cursor := by
  cases h : s.group <;> simp [ack, cursor, h]

@[simp] lemma cursor_claim (consumer) (min : Nat) (ids) (now : Nat) :
    (s.claim consumer min ids now).cursor = s.cursor := by
  cases h : s.group <;> simp [claim, cursor, h]

@[simp] lemma cursor_deliver (e : Entry α) (consumer) (noA : Bool) (now : Nat) :
    (s.deliver e consumer noA now).cursor = e.id := rfl

@[simp] lemma undelivered_createGroup : s.createGroup.undelivered = s.undelivered := by
  unfold undelivered
  rw [cursor_createGroup]
  rfl

@[simp] lemma group_createGroup : s.createGroup.group.isSome := rfl

lemma cursor_lt_undelivered (hf : s.undelivered = some e) : s.cursor < e.id := by
  simpa using List.find?_some hf

end Stream
end Gibson.ConsumerGroup
