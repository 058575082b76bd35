import Gibson.Datapool.Timeline
import Gibson.Lib.Framing
import Gibson.Lib.Interleaving
import Mathlib.Order.WithBot

/-! The archive of a tenant's Timeline: an export that writes rows to a bucket, range by range, and
a prune of old rows. Several daemons do so at once. -/

namespace Gibson.TimelineArchive

open Datapool (StreamID)
open Interleaving Framing

/-- A row of the timeline. -/
structure Row where
  id : StreamID
  (kind event : String)
  recordedAt : Int
  deriving DecidableEq

/-- A range of rows. -/
structure Range where
  (first last : StreamID)
  deriving DecidableEq

def Range.Covers (r : Range) (id : StreamID) : Prop := r.first ≤ id ∧ id ≤ r.last

instance (r : Range) (id : StreamID) : Decidable (r.Covers id) :=
  inferInstanceAs (Decidable (_ ∧ _))

def digits (n : Nat) : List Char := padded 20 n

def rangeName (r : Range) : List Char :=
  digits (ofLex r.first).1 ++ '-' :: (digits (ofLex r.first).2 ++ '_' ::
    (digits (ofLex r.last).1 ++ '-' :: (digits (ofLex r.last).2 ++ ".ndjson".toList)))

def objectKey (folder : String) (r : Range) : String := folder ++ String.ofList (rangeName r)

/-- The rows, the export row, the bucket, the latest first, and every row ever inserted. -/
structure Tables where
  rows : List Row := []
  exported : WithBot StreamID := ⊥
  pending : Option Range := none
  objects : List (Range × List Row) := []
  inserted : List Row := []

/-- The body last written under a name. -/
def Tables.body (folder : String) (t : Tables) (name : String) : Option (List Row) :=
  (t.objects.find? fun o => objectKey folder o.1 == name).map (·.2)

/-- The pending range, or else the next rows behind the position, which become pending. -/
def claimRange (batch : Nat) (t : Tables) : Tables × Option Range :=
  match t.pending with
  | some r => (t, some r)
  | none =>
    let next := (t.rows.filter fun row => t.exported < row.id).take batch
    match next.head?, next.getLast? with
    | some first, some last =>
      ({ t with pending := some ⟨first.id, last.id⟩ }, some ⟨first.id, last.id⟩)
    | _, _ => (t, none)

def readRange (t : Tables) (r : Range) : List Row := t.rows.filter fun row => r.Covers row.id

def advancePosition (t : Tables) (r : Range) : Tables :=
  if t.pending = some r then { t with exported := r.last, pending := none } else t

def removeRows (t : Tables) (exported : WithBot StreamID) (cutoff : Int) : Tables :=
  { t with rows := t.rows.filter fun row => !(row.recordedAt < cutoff ∧ row.id ≤ exported) }

def insertRow (t : Tables) (row : Row) : Tables :=
  if ∀ x ∈ t.inserted, x.id < row.id then
    { t with rows := t.rows ++ [row], inserted := t.inserted ++ [row] }
  else t

/-- A run for the tenant, by the request it makes next. -/
inductive Call where
  | claim
  | read (r : Range)
  | put (r : Range) (body : List Row)
  | advance (r : Range)
  | position
  | remove (exported : WithBot StreamID)
  | ended

/-- The answer to a request: whether it fails, and for a prune the tenant's period and the clock. -/
structure Answer where
  fails : Bool := false
  effectiveMonths : Nat := 0
  now : Int := 0

def minRetentionMonths : Nat := 13

/-- The settings of the export. -/
structure Archive where
  batch : Nat
  /-- The time a number of months before another. -/
  monthsBefore : Int → Nat → Int

def Archive.request (a : Archive) (t : Tables) (c : Call) (answer : Answer) : Tables × Call :=
  if answer.fails then (t, .ended)
  else match c with
    | .claim =>
      match claimRange a.batch t with
      | (t, some r) => (t, .read r)
      | (t, none) => (t, .position)
    | .read r => (t, if readRange t r = [] then .ended else .put r (readRange t r))
    | .put r body => ({ t with objects := (r, body) :: t.objects }, .advance r)
    | .advance r => (advancePosition t r, .claim)
    | .position => (t, if t.exported = ⊥ then .ended else .remove t.exported)
    | .remove exported =>
      (removeRows t exported
        (a.monthsBefore answer.now (max answer.effectiveMonths minRetentionMonths)), .ended)
    | .ended => (t, .ended)

/-- Whether a tenant has a store. -/
structure ArchiveTenant where
  store : Bool

def Archive.system (a : Archive) : System Tables ArchiveTenant Call Answer Row where
  enter op := if op.store then .claim else .position
  advance := a.request
  outside := insertRow

abbrev ArchiveStep := Step ArchiveTenant Answer Row

def Archive.runFrom (a : Archive) (steps : List ArchiveStep) : World Tables Call :=
  run a.system { shared := {} } steps

lemma digits_append_inj (hp : c.isDigit = false)
    (hs : digits m ++ c :: xs = digits n ++ c :: ys) : m = n ∧ xs = ys := by
  have stop (text : List Char) : ∀ y ∈ (c :: text).head?, y.isDigit = false := by
    intro y hd
    obtain rfl : c = y := by simpa using hd
    exact hp
  obtain ⟨number, rs⟩ := append_inj_of_stop (fun _ => isDigit_of_mem_padded)
    (fun _ => isDigit_of_mem_padded) (stop xs) (stop ys) hs
  exact ⟨padded_injective 20 number, (List.cons.inj rs).2⟩

lemma objectKey_injective (folder) : Function.Injective (objectKey folder) := by
  intro r s hs
  have cha := congrArg String.toList hs
  simp only [objectKey, String.toList_append, String.toList_ofList] at cha
  obtain ⟨fir0, hs⟩ := digits_append_inj (by decide) (List.append_cancel_left cha)
  obtain ⟨fir, hs⟩ := digits_append_inj (by decide) hs
  obtain ⟨las0, hs⟩ := digits_append_inj (by decide) hs
  obtain ⟨las, -⟩ := digits_append_inj (c := '.') (by decide) hs
  cases r
  cases s
  simp only [Range.mk.injEq]
  exact ⟨ofLex_inj.mp (Prod.ext fir0 fir), ofLex_inj.mp (Prod.ext las0 las)⟩

end Gibson.TimelineArchive
