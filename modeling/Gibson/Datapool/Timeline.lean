import Mathlib.Data.Prod.Lex
import Gibson.Lib.Cursor
import Gibson.Lib.Rows

/-! The Timeline of a tenant over a stream with the live tail and a table with what was trimmed.
Each request is atomic, and requests of different operations interleave. -/

namespace Gibson.Datapool

open Cursor Rows

abbrev StreamID := Nat ×ₗ Nat

def streamIDNext (id : StreamID) : StreamID := toLex ((ofLex id).1, (ofLex id).2 + 1)

def replayBatchSize : Nat := 1000

/-- The stream, the key and id of the last append, and the rows of `timeline_events`. -/
structure TimelineStore (E : Type) where
  stream : List (StreamID × E) := []
  lastAppend : Option (String × StreamID) := none
  history : List (StreamID × E) := []

variable {E : Type}

def TimelineStore.appendedLast (st : TimelineStore E) (key : String) : Bool :=
  match st.lastAppend with
  | some (last, _) => last == key
  | none => false

def TimelineStore.appendOnce (st : TimelineStore E) (key : String) (id : StreamID) (ev : E) :
    TimelineStore E :=
  if st.appendedLast key then st
  else { st with stream := st.stream ++ [(id, ev)], lastAppend := some (key, id) }

def TimelineStore.rangeTo (st : TimelineStore E) (cursor : Option StreamID) (handle : StreamID) :
    List (StreamID × E) :=
  (st.stream.filter fun x => Beyond cursor x.1 && x.1 ≤ handle).take replayBatchSize

def TimelineStore.rangeTail (st : TimelineStore E) (cursor : Option StreamID) :
    List (StreamID × E) :=
  (st.stream.filter fun x => Beyond cursor x.1).take replayBatchSize

def TimelineStore.insertHistory (st : TimelineStore E) (msgs : List (StreamID × E)) :
    TimelineStore E :=
  { st with history := st.history ++ msgs.filter fun x => x.1 ∉ st.history.map Prod.fst }

def TimelineStore.historyPage (st : TimelineStore E) (after : Option StreamID) :
    List (StreamID × E) :=
  ((sortBy Prod.fst st.history).filter fun x => Beyond after x.1).take replayBatchSize

def TimelineStore.trimMinID (st : TimelineStore E) (minid : StreamID) : TimelineStore E :=
  { st with stream := st.stream.filter fun x => minid ≤ x.1 }

/-- Where a running `TrimTo` is: before the next page of its archive loop, with a page to insert, or
before the trim. -/
inductive TrimPhase (E : Type) where
  | scan (cursor : Option StreamID)
  | insert (msgs : List (StreamID × E))
  | trim

/-- A trim under way. -/
structure TrimTo (E : Type) where
  handle : StreamID
  phase : TrimPhase E := .scan none

/-- The next request of a trim. The last one ends the operation. -/
def TrimTo.next (st : TimelineStore E) (op : TrimTo E) : TimelineStore E × Option (TrimTo E) :=
  match op.phase with
  | .scan cursor =>
    match st.rangeTo cursor op.handle with
    | [] => (st, some { op with phase := .trim })
    | msgs => (st, some { op with phase := .insert msgs })
  | .insert msgs =>
    (st.insertHistory msgs,
      some { op with phase :=
        if msgs.length < replayBatchSize then .trim else .scan (advance none msgs) })
  | .trim => (st.trimMinID (streamIDNext op.handle), none)

/-- `began` and `ended` count the events appended when the call began and returned. -/
inductive LoadHistory (E : Type) where
  | idle
  | rows (began : Nat) (out : List E) (last : Option StreamID)
  | tail (began : Nat) (out : List E) (cursor : Option StreamID)
  | done (began : Nat) (out : List E) (ended : Nat)

/-- The next request of a load, after `count` appends. -/
def LoadHistory.next (st : TimelineStore E) (count : Nat) : LoadHistory E → LoadHistory E
  | .idle => .idle
  | .rows began out last =>
    let page := st.historyPage last
    let out := out ++ page.map Prod.snd
    if page.length < replayBatchSize then .tail began out (advance last page)
    else .rows began out (advance last page)
  | .tail began out cursor =>
    let msgs := st.rangeTail cursor
    let out := out ++ msgs.map Prod.snd
    if msgs.length < replayBatchSize then .done began out count
    else .tail began out (advance cursor msgs)
  | .done began out ended => .done began out ended

/-- The stores, everything that was ever appended, the running trims and one load. -/
structure System (E : Type) where
  store : TimelineStore E := {}
  appended : List (StreamID × E) := []
  trims : List (TrimTo E) := []
  load : LoadHistory E := .idle

inductive Action (E : Type) where
  | append (key : String) (id : StreamID) (ev : E)
  | startTrim (handle : StreamID)
  | stepTrim (i : Nat)
  | failTrim (i : Nat)
  | startLoad
  | stepLoad

/-- The stream assigns ids above all earlier ones. -/
def System.assigns (s : System E) (id : StreamID) : Prop := ∀ x ∈ s.appended, x.1 < id

instance (s : System E) (id : StreamID) : Decidable (s.assigns id) :=
  inferInstanceAs (Decidable (∀ x ∈ s.appended, x.1 < id))

def System.step (s : System E) : Action E → System E
  | .append key id ev =>
    if s.store.appendedLast key ∨ ¬ s.assigns id then s
    else { s with
      store := s.store.appendOnce key id ev
      appended := s.appended ++ [(id, ev)] }
  | .startTrim handle => { s with trims := s.trims ++ [{ handle }] }
  | .stepTrim i =>
    match s.trims[i]? with
    | none => s
    | some op =>
      match op.next s.store with
      | (store, some op') => { s with store, trims := s.trims.set i op' }
      | (store, none) => { s with store, trims := s.trims.eraseIdx i }
  | .failTrim i => { s with trims := s.trims.eraseIdx i }
  | .startLoad =>
    match s.load with
    | .idle => { s with load := .rows s.appended.length [] none }
    | _ => s
  | .stepLoad => { s with load := s.load.next s.store s.appended.length }

def System.run (actions : List (Action E)) : System E := actions.foldl System.step {}

end Gibson.Datapool
