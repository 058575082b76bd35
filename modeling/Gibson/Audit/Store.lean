import Gibson.Audit.Chain
import Gibson.Lib.Calls

/-! The audit log of one tenant in the database, with its writer, retention, verifier and exporter.
Statements are read-committed; a transaction holds its locks until it ends. -/

namespace Gibson.Audit

open Requests Interleaving Calls

/-- An audit event. -/
structure Event where
  (actorID actorType action targetType targetID decision metadata : Bytes)

section Rows
variable (sha256 : Bytes → Bytes) (tenantID : Bytes) (createdAt : Int)

def Event.chainRow (ev : Event) (seq : Int) (prevHash : Bytes) : ChainRow :=
  let r : ChainRow :=
    { seq, tenantID
      actorID := ev.actorID
      actorType := if ev.actorType = [] then [117, 115, 101, 114] else ev.actorType
      action := ev.action
      targetType := ev.targetType
      targetID := ev.targetID
      decision := ev.decision
      metadata := if ev.metadata = [] then [123, 125] else ev.metadata
      createdAt, prevHash
      entryHash := [] }
  { r with entryHash := computeEntryHash sha256 r }

def extend (seq : Int) (prevHash : Bytes) : List Event → List ChainRow
  | [] => []
  | ev :: rest =>
    let r := ev.chainRow sha256 tenantID createdAt (seq + 1) prevHash
    r :: extend (seq + 1) r.entryHash rest

end Rows

/-- The row as it is inserted: an empty decision is stored as NULL. -/
def ChainRow.stored (r : ChainRow) : StoredRow :=
  { actorID := r.actorID
    actorType := r.actorType
    action := r.action
    targetType := some r.targetType
    targetID := some r.targetID
    decision := if r.decision = [] then none else some r.decision
    metadata := r.metadata
    createdAt := r.createdAt
    chainSeq := some r.seq
    prevHash := some r.prevHash
    entryHash := some r.entryHash }

lemma ChainRow.chainRow_stored (r : ChainRow) : r.stored.chainRow r.tenantID = some r := by
  by_cases none : r.decision = [] <;> simp [stored, StoredRow.chainRow, none]
  rw [← none]

section Check
variable (sha256 : Bytes → Bytes)

def checkRecords (prevHash : Option Bytes) (position : Int) : List ChainRow → Except Error Unit
  | [] => .ok ()
  | r :: rest =>
    if r.seq ≠ position then .error (.rangeMissing position)
    else if prevHash.any (· ≠ r.prevHash) then .error (.rangeUnlinked r.seq)
    else if computeEntryHash sha256 r ≠ r.entryHash then .error (.rangeAltered r.seq)
    else checkRecords (some r.entryHash) (position + 1) rest

def checkExportRange (records : List ChainRow) (first last : Int) : Except Error Unit :=
  if (records.length : Int) ≠ last - first + 1 then
    .error (.rangeCount first last records.length)
  else checkRecords sha256 none first records

end Check

/-- A position in twenty digits. -/
def position (v : Int) : List Char :=
  if v < 0 then '-' :: Framing.padded 19 (-v).toNat else Framing.padded 20 v.toNat

def exportObjectKey (tenantPath : List Char) (first last : Int) : List Char :=
  tenantPath ++ '/' :: (position first ++ '-' :: (position last ++ ".ndjson".toList))

/-- How far a tenant's log is exported. -/
structure Cursor where
  exportedSeq : Int := 0
  pending : Option (Int × Int) := none

/-- The tables, the bucket, the open transactions and their locks. No code reads the last two
fields: the rows that were deleted and the ranges that were exported. -/
structure Database where
  rows : List StoredRow := []
  anchor : Option Anchor := none
  cursor : Option Cursor := none
  bucket : List (List Char × List ChainRow) := []
  begun : Nat := 0
  live : List Nat := []
  (chainLock cursorLock : Option Nat := none)
  deleted : List ChainRow := []
  ranges : List (Int × Int) := []

inductive Request where
  | begin
  | rollback (tx : Nat)
  | commit (tx : Nat)
  | lockChain (tx : Nat)
  | lastRow (tx : Nat)
  | readAnchor (tx : Option Nat)
  | insertRows (tx : Nat) (rows : List ChainRow)
  | lastOld (tx : Nat) (cutoff : Int)
  | prune (tx : Nat) (lastSeq : Int) (lastHash : Bytes)
  | countUnchained
  | readRows
  | lockCursor (tx : Nat)
  | nextRange (tx : Nat) (exported : Int) (batch : Nat)
  | storePending (tx : Nat) (first last : Int)
  | readRange (first last : Int)
  | putLocked (first last : Int) (body : List ChainRow)
  | advanceCursor (first last : Int)

abbrev Value : Request → Type
  | .begin => Nat
  | .lastRow _ | .lastOld _ _ => Option (Int × Bytes)
  | .readAnchor _ => Option Anchor
  | .countUnchained => Nat
  | .readRows | .readRange _ _ => List ChainRow
  | .lockCursor _ => Cursor
  | .nextRange _ _ _ => Option (Int × Int)
  | _ => Unit

abbrev Reply (q : Request) : Type := Except Error (Value q)

abbrev Prog := Program Request Reply

def ask (q : Request) : Prog (Reply q) := Requests.send q

/-- A statement runs, fails without an effect, or runs without the caller learning of it. -/
inductive Answer where
  | served
  | refused
  | lost
  deriving DecidableEq

def Answer.reply {α : Type} (a : Answer) (x : α) : Except Error α :=
  match a with
  | .served => .ok x
  | _ => .error .failed

def Database.release (db : Database) (tx : Nat) : Database :=
  { db with
    live := db.live.filter (· ≠ tx)
    chainLock := if db.chainLock = some tx then none else db.chainLock
    cursorLock := if db.cursorLock = some tx then none else db.cursorLock }

def Database.exported (db : Database) : Int := (db.cursor.getD {}).exportedSeq

section Serve
variable (tenantID : Bytes) (tenantPath : List Char)

def Database.log (db : Database) : List ChainRow :=
  db.rows.filterMap (StoredRow.chainRow tenantID)

/-- The highest position with its hash. -/
def newest (rows : List ChainRow) : Option (Int × Bytes) :=
  (Rows.sortBy ChainRow.seq rows).getLast?.map fun r => (r.seq, r.entryHash)

def removable (rows : List ChainRow) (cutoff exported : Int) : List ChainRow :=
  let inside := ((rows.filter (cutoff ≤ ·.createdAt)).map ChainRow.seq).min?
  rows.filter fun r => r.seq < inside.getD 9223372036854775807 && r.seq ≤ exported

def nextPositions (rows : List ChainRow) (exported : Int) (batch : Nat) : Option (Int × Int) :=
  let next := (Rows.sortBy ChainRow.seq (rows.filter (exported < ·.seq))).take batch
  match next.head?, next.getLast? with
  | some lo, some hi => some (lo.seq, hi.seq)
  | _, _ => none

def between (first last : Int) (rows : List ChainRow) : List ChainRow :=
  rows.filter fun r => first ≤ r.seq && r.seq ≤ last

def upTo (last : Int) (rows : List ChainRow) : List ChainRow := rows.filter (·.seq ≤ last)

def Database.inTx {q : Request} (db : Database) (tx : Nat) (a : Answer) (next : Database)
    (x : Value q) : Option (Database × Reply q) :=
  if a = .refused ∨ tx ∉ db.live then some (db, .error .failed) else some (next, a.reply x)

def serve (db : Database) : (q : Request) → Answer → Option (Database × Reply q)
  | .begin, a =>
    if a = .refused then some (db, .error .failed)
    else some ({ db with begun := db.begun + 1, live := db.begun :: db.live }, a.reply db.begun)
  | .rollback tx, _ => some (db.release tx, .ok ())
  | .commit tx, a => db.inTx tx a (db.release tx) ()
  | .lockChain tx, a =>
    if db.chainLock = none ∨ db.chainLock = some tx then
      db.inTx tx a { db with chainLock := some tx } ()
    else none
  | .lastRow tx, a => db.inTx tx a db (newest (db.log tenantID))
  | .readAnchor (some tx), a => db.inTx tx a db db.anchor
  | .readAnchor none, a => some (db, a.reply db.anchor)
  | .insertRows tx rows, a =>
    -- the unique index on the position
    if rows.any fun r => (db.log tenantID).any fun old => old.seq = r.seq then
      some (db, .error .failed)
    else db.inTx tx a ({ db with rows := db.rows ++ rows.map ChainRow.stored }.release tx) ()
  | .lastOld tx cutoff, a =>
    db.inTx tx a db (newest (removable (db.log tenantID) cutoff db.exported))
  | .prune tx lastSeq lastHash, a =>
    db.inTx tx a
      ({ db with
        anchor := some ⟨lastSeq + 1, lastHash⟩
        rows := db.rows.filter fun r => !r.chainSeq.any (· ≤ lastSeq)
        deleted := db.deleted ++ upTo lastSeq (db.log tenantID) }.release tx) ()
  | .countUnchained, a => some (db, a.reply (unchained db.rows))
  | .readRows, a => some (db, a.reply (chained tenantID db.rows))
  | .lockCursor tx, a =>
    if db.cursorLock = none ∨ db.cursorLock = some tx then
      db.inTx tx a { db with cursorLock := some tx } (db.cursor.getD {})
    else none
  | .nextRange tx exported batch, a =>
    db.inTx tx a db (nextPositions (db.log tenantID) exported batch)
  | .storePending tx first last, a =>
    db.inTx tx a ({ db with cursor := some ⟨db.exported, some (first, last)⟩ }.release tx) ()
  | .readRange first last, a =>
    some (db, a.reply (Rows.sortBy ChainRow.seq (between first last (db.log tenantID))))
  | .putLocked first last body, a =>
    if a = .refused then some (db, .error .failed)
    else some ({ db with bucket := (exportObjectKey tenantPath first last, body) :: db.bucket },
      a.reply ())
  | .advanceCursor first last, a =>
    -- the update waits for the row
    if db.cursorLock ≠ none then none
    else if a = .refused then some (db, .error .failed)
    else if db.cursor.bind Cursor.pending = some (first, last) then
      some ({ db with cursor := some ⟨last, none⟩, ranges := (first, last) :: db.ranges },
        a.reply ())
    else some (db, a.reply ())

end Serve

/-- The connection of a transaction is lost. -/
inductive Change where
  | drop (tx : Nat)

def change (db : Database) : Change → Database
  | .drop tx => db.release tx

section Code
variable (sha256 : Bytes → Bytes) (tenantID : Bytes)

def transaction {α : Type} (work : Nat → Prog (Except Error α)) : Prog (Except Error α) := do
  match ← ask .begin with
  | .error e => pure (.error e)
  | .ok tx =>
    match ← work tx with
    | .ok x => pure (.ok x)
    | .error e => do
      let _ ← ask (.rollback tx)
      pure (.error e)

def anchorHead (stored : Option Anchor) : Except Error (Int × Bytes) :=
  (chainAnchor stored).map fun a => (a.firstSeq - 1, a.prevHash)

def chainHead (tx : Nat) : Prog (Except Error (Int × Bytes)) := do
  match ← ask (.lastRow tx) with
  | .error e => pure (.error e)
  | .ok (some (seq, hash)) =>
    if hash.length ≠ chainHashLen then pure (.error (.corruptHead hash.length))
    else pure (.ok (seq, hash))
  | .ok none =>
    match ← ask (.readAnchor (some tx)) with
    | .error e => pure (.error e)
    | .ok stored => pure (anchorHead stored)

def appendAt (tx : Nat) (events : List Event) (createdAt : Int) :
    Except Error (Int × Bytes) → Prog (Except Error Unit)
  | .error e => pure (.error e)
  | .ok (seq, prevHash) =>
    ask (.insertRows tx (extend sha256 tenantID createdAt seq prevHash events))

def insert (events : List Event) (createdAt : Int) : Prog (Except Error Unit) :=
  if events = [] then pure (.ok ())
  else transaction fun tx => do
    match ← ask (.lockChain tx) with
    | .error e => pure (.error e)
    | .ok () => do
      let head ← chainHead tx
      appendAt sha256 tenantID tx events createdAt head

def pruneTenant (cutoff : Int) : Prog (Except Error Unit) :=
  if tenantID = [] then pure (.error .emptyTenant)
  else transaction fun tx => do
    match ← ask (.lockChain tx) with
    | .error e => pure (.error e)
    | .ok () =>
      match ← ask (.lastOld tx cutoff) with
      | .error e => pure (.error e)
      | .ok none => ask (.commit tx)
      | .ok (some (lastSeq, lastHash)) =>
        if lastHash.length ≠ chainHashLen then
          pure (.error (.corruptRow lastSeq lastHash.length))
        else ask (.prune tx lastSeq lastHash)

def verifyFrom (count : Nat) : Except Error Anchor → Prog (Except Error ChainReport)
  | .error e => pure (.error e)
  | .ok anchor => do
    match ← ask .readRows with
    | .error e => pure (.error e)
    | .ok rows => pure (.ok (verifyReport sha256 tenantID count anchor rows))

def verify : Prog (Except Error ChainReport) :=
  if tenantID = [] then pure (.error .emptyTenant)
  else do
    match ← ask .countUnchained with
    | .error e => pure (.error e)
    | .ok count =>
      match ← ask (.readAnchor none) with
      | .error e => pure (.error e)
      | .ok stored => verifyFrom sha256 tenantID count (chainAnchor stored)

def claimRange (batch : Nat) : Prog (Except Error (Option (Int × Int))) := do
  match ← ask .begin with
  | .error e => pure (.error e)
  | .ok tx =>
    match ← ask (.lockCursor tx) with
    | .error e => do
      let _ ← ask (.rollback tx)
      pure (.error e)
    | .ok ⟨_, some range⟩ => do
      let _ ← ask (.rollback tx)
      pure (.ok (some range))
    | .ok ⟨exported, none⟩ =>
      match ← ask (.nextRange tx exported batch) with
      | .error e => do
        let _ ← ask (.rollback tx)
        pure (.error e)
      | .ok none => do
        let _ ← ask (.rollback tx)
        pure (.ok none)
      | .ok (some (lo, hi)) =>
        match ← ask (.storePending tx lo hi) with
        | .error e => do
          let _ ← ask (.rollback tx)
          pure (.error e)
        | .ok () => pure (.ok (some (lo, hi)))

def writeRange (first last : Int) (records : List ChainRow) :
    Except Error Unit → Prog (Except Error Nat)
  | .error e => pure (.error e)
  | .ok () => do
    match ← ask (.putLocked first last records) with
    | .error e => pure (.error e)
    | .ok () =>
      match ← ask (.advanceCursor first last) with
      | .error e => pure (.error e)
      | .ok () => pure (.ok records.length)

def exportClaimed : Except Error (Option (Int × Int)) → Prog (Except Error Nat)
  | .error e => pure (.error e)
  | .ok none => pure (.ok 0)
  | .ok (some (first, last)) => do
    match ← ask (.readRange first last) with
    | .error e => pure (.error e)
    | .ok records =>
      writeRange first last records (checkExportRange sha256 records first last)

def exportTenantOnce (batch : Nat) : Prog (Except Error Nat) :=
  if tenantID = [] then pure (.error .emptyTenant)
  else do
    let range ← claimRange batch
    exportClaimed sha256 range

inductive Operation where
  | insert (events : List Event) (createdAt : Int)
  | pruneTenant (cutoff : Int)
  | verifyChain
  | exportTenantOnce (batch : Nat)

inductive Outcome where
  | inserted (result : Except Error Unit)
  | pruned (result : Except Error Unit)
  | verified (result : Except Error ChainReport)
  | exported (result : Except Error Nat)

def Operation.body : Operation → Prog Outcome
  | .insert events createdAt => .inserted <$> Audit.insert sha256 tenantID events createdAt
  | .pruneTenant cutoff => .pruned <$> Audit.pruneTenant tenantID cutoff
  | .verifyChain => .verified <$> Audit.verify sha256 tenantID
  | .exportTenantOnce batch => .exported <$> Audit.exportTenantOnce sha256 tenantID batch

end Code

abbrev AuditStep := Step Operation Answer Change

def auditSystem (sha256 : Bytes → Bytes) (tenantID : Bytes) (tenantPath : List Char) :=
  system (Operation.body sha256 tenantID) (serve tenantID tenantPath) change

def freshLog (old : List StoredRow) : Database := { rows := old }

end Gibson.Audit
