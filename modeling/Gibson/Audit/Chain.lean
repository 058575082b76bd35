import Gibson.Lib.Framing
import Gibson.Lib.Rows

/-! The hash chain of one tenant's audit log: what a row commits to, where the chain starts, and what
the verifier checks. -/

namespace Gibson.Audit

open List Framing

abbrev Bytes := List UInt8

/-- A row of the log as it is stored. Rows from before the chain have no position. -/
structure StoredRow where
  (actorID actorType action : Bytes)
  (targetType targetID decision : Option Bytes)
  metadata : Bytes
  /-- Microseconds. -/
  createdAt : Int
  chainSeq : Option Int
  (prevHash entryHash : Option Bytes)

/-- A row with everything that the chain commits to. -/
structure ChainRow where
  seq : Int
  (tenantID actorID actorType action targetType targetID decision metadata : Bytes)
  createdAt : Int
  (prevHash entryHash : Bytes)

def chainHashLen : Nat := 32

def chainGenesis : Bytes := List.replicate chainHashLen 0

def writeField (b : Bytes) : Bytes := bigEndian 4 (min b.length (2 ^ 32 - 1)) ++ b

def uint64 (v : Int) : Bytes := bigEndian 8 (v % 2 ^ 64).toNat

def ChainRow.fields (r : ChainRow) : List Bytes :=
  [uint64 r.seq, r.prevHash, r.tenantID, r.actorID, r.actorType, r.action, r.targetType,
    r.targetID, r.decision, r.metadata, uint64 r.createdAt]

def ChainRow.canonical (r : ChainRow) : Bytes := r.fields.flatMap writeField

section
variable (sha256 : Bytes → Bytes)

def computeEntryHash (r : ChainRow) : Bytes := sha256 r.canonical

/-- Where the chain of a tenant starts: the position of the oldest row and the hash it points at. -/
structure Anchor where
  firstSeq : Int
  prevHash : Bytes

inductive Error where
  /-- tenantID must not be empty -/
  | emptyTenant
  /-- chain anchor is corrupt (first_seq %d, %d-byte prev_hash) -/
  | corruptAnchor (firstSeq : Int) (length : Nat)
  /-- chain head has a %d-byte entry_hash, want %d — refusing to extend a corrupt chain -/
  | corruptHead (length : Nat)
  /-- row %d has a %d-byte entry_hash, refusing to anchor a corrupt chain -/
  | corruptRow (seq : Int) (length : Nat)
  /-- a statement or a write to the bucket failed -/
  | failed
  /-- positions %d..%d hold %d records, want %d -/
  | rangeCount (first last : Int) (count : Nat)
  /-- position %d is missing -/
  | rangeMissing (seq : Int)
  /-- prev_hash at position %d does not match the entry before it -/
  | rangeUnlinked (seq : Int)
  /-- entry_hash at position %d does not match its fields -/
  | rangeAltered (seq : Int)

def chainAnchor : Option Anchor → Except Error Anchor
  | none => .ok ⟨1, chainGenesis⟩
  | some a =>
    if a.firstSeq < 1 ∨ a.prevHash.length ≠ chainHashLen then
      .error (.corruptAnchor a.firstSeq a.prevHash.length)
    else .ok a

inductive ChainBreak where
  | intact
  | altered
  | missing
  | unlinked
  deriving DecidableEq

/-- What `VerifyChain` reports. -/
structure ChainReport where
  tenantID : Bytes
  (chained unchained : Nat)
  firstSeq : Int
  chainBreak : ChainBreak
  breakSeq : Int
  detail : String

def StoredRow.chainRow (tenantID : Bytes) (r : StoredRow) : Option ChainRow :=
  r.chainSeq.map fun seq =>
    { seq, tenantID
      actorID := r.actorID
      actorType := r.actorType
      action := r.action
      targetType := r.targetType.getD []
      targetID := r.targetID.getD []
      decision := r.decision.getD []
      metadata := r.metadata
      createdAt := r.createdAt
      prevHash := r.prevHash.getD []
      entryHash := r.entryHash.getD [] }

/-- The chained rows, ordered by position. -/
def chained (tenantID : Bytes) (rows : List StoredRow) : List ChainRow :=
  Rows.sortBy ChainRow.seq (rows.filterMap (StoredRow.chainRow tenantID))

def unchained (rows : List StoredRow) : Nat := (rows.filter (·.chainSeq.isNone)).length

def checkRows (report : ChainReport) (expectedSeq : Int) (prevHash : Bytes) :
    List ChainRow → ChainReport
  | [] => report
  | r :: rest =>
    let report := { report with chained := report.chained + 1 }
    if r.seq ≠ expectedSeq then
      { report with
        chainBreak := .missing
        breakSeq := expectedSeq
        detail := "chain positions " ++ toString expectedSeq ++ ".." ++ toString (r.seq - 1) ++
          " are absent (next stored position is " ++ toString r.seq ++ ")" }
    else if r.prevHash ≠ prevHash then
      { report with
        chainBreak := .unlinked
        breakSeq := r.seq
        detail := "prev_hash at position " ++ toString r.seq ++
          " does not match the preceding entry_hash" }
    else if computeEntryHash sha256 r ≠ r.entryHash then
      { report with
        chainBreak := .altered
        breakSeq := r.seq
        detail := "row at position " ++ toString r.seq ++
          " does not reproduce its stored entry_hash" }
    else checkRows report (r.seq + 1) r.entryHash rest

def verifyReport (tenantID : Bytes) (unchained : Nat) (anchor : Anchor) (rows : List ChainRow) :
    ChainReport :=
  checkRows sha256
    { tenantID, unchained, chained := 0, firstSeq := anchor.firstSeq, chainBreak := .intact,
      breakSeq := 0, detail := "" }
    anchor.firstSeq anchor.prevHash rows

/-- `VerifyChain` on a table that nobody writes meanwhile. -/
def verifyChain (tenantID : Bytes) (anchor : Option Anchor) (rows : List StoredRow) :
    Except Error ChainReport := do
  if tenantID = [] then throw .emptyTenant
  let anchor ← chainAnchor anchor
  return verifyReport sha256 tenantID (unchained rows) anchor (chained tenantID rows)

def Linked (seq : Int) (prevHash : Bytes) : List ChainRow → Prop
  | [] => True
  | r :: rest =>
    r.seq = seq ∧ r.prevHash = prevHash ∧ computeEntryHash sha256 r = r.entryHash ∧
      Linked (seq + 1) r.entryHash rest

def headHash (prevHash : Bytes) (rows : List ChainRow) : Bytes :=
  (rows.getLast?.map ChainRow.entryHash).getD prevHash

@[simp] lemma headHash_nil (prevHash) : headHash prevHash [] = prevHash := rfl

@[simp] lemma headHash_append (prevHash rows r) :
    headHash prevHash (rows ++ [r]) = r.entryHash := by
  simp [headHash]

lemma headHash_cons (prevHash r rw0) :
    headHash prevHash (r :: rw0) = headHash r.entryHash rw0 := by
  cases rw0 with
  | nil => rfl
  | cons s rw0 => simp [headHash, List.getLast?_cons]

variable {sha256}

/-- The loop finds no break exactly in a linked run. -/
lemma checkRows_intact (hfr : rep.chainBreak = .intact) (es : Int) (prevHash rw0) :
    (checkRows sha256 rep es prevHash rw0).chainBreak = .intact ↔
      Linked sha256 es prevHash rw0 := by
  induction rw0 generalizing rep es prevHash with
  | nil => simpa [checkRows, Linked] using hfr
  | cons r rs ih =>
    by_cases ps : r.seq = es
    case neg => simp [checkRows, Linked, ps]
    by_cases link : r.prevHash = prevHash
    case neg => simp [checkRows, Linked, ps, link]
    by_cases hash : computeEntryHash sha256 r = r.entryHash
    case neg => simp [checkRows, Linked, ps, link, hash]
    simp only [checkRows, Linked, ps, link, hash, ne_eq, not_true_eq_false, if_false,
      true_and]
    exact @ih { rep with chained := rep.chained + 1 } hfr (es + 1) r.entryHash

lemma verifyReport_intact {tenantID unchained anchor rows} :
    (verifyReport sha256 tenantID unchained anchor rows).chainBreak = .intact ↔
      Linked sha256 anchor.firstSeq anchor.prevHash rows :=
  checkRows_intact rfl _ _ _

variable {seq : Int} {prevHash : Bytes}

lemma linked_append : Linked sha256 seq prevHash (xs ++ ys) ↔ Linked sha256 seq prevHash xs ∧
        Linked sha256 (seq + xs.length) (headHash prevHash xs) ys := by
  induction xs generalizing seq prevHash with
  | nil => simp [Linked]
  | cons x xs ih =>
    have shi : seq + 1 + (xs.length : Int) = seq + ((x :: xs).length : Nat) := by
      simp only [length_cons]
      omega
    rw [cons_append, Linked, Linked, ih, headHash_cons, shi]
    simp only [and_assoc]

/-- Numbers of 64 bits, and fields whose length fits in four bytes. -/
structure ChainRow.Fits (r : ChainRow) : Prop where
  seq : -2 ^ 63 ≤ r.seq ∧ r.seq < 2 ^ 63
  createdAt : -2 ^ 63 ≤ r.createdAt ∧ r.createdAt < 2 ^ 63
  fields : ∀ field ∈ r.fields, field.length < 2 ^ 32

lemma uint64_inj (hv : -2 ^ 63 ≤ v ∧ v < 2 ^ 63) (hw : -2 ^ 63 ≤ w ∧ w < 2 ^ 63)
    (hs : uint64 v = uint64 w) : v = w := by
  have res := bigEndian_inj (by omega) (by omega) hs
  omega

/-- Rows with one canonical form agree in every field that it has. -/
lemma ChainRow.canonical_inj {r s : ChainRow} (fit : r.Fits) (fit0 : s.Fits)
    (hs : r.canonical = s.canonical) (hash : r.entryHash = s.entryHash) : r = s := by
  have frames (t : ChainRow) (hft : t.Fits) : t.canonical = t.fields.flatMap (lengthFrame 4) := by
    refine flatMap_congr fun fie mem => ?_
    have hsho := hft.fields fie mem
    rw [writeField, lengthFrame, Nat.min_eq_left (by omega)]
  rw [frames r fit, frames s fit0] at hs
  have fl := flatMap_lengthFrame_inj (by rfl) fit.fields fit0.fields hs
  simp only [ChainRow.fields, List.cons.injEq, and_true] at fl
  obtain ⟨seq, prev, tn, act0, type, act, tg, tar, dec, met, hcr⟩ :=
    fl
  have seq := uint64_inj fit.seq fit0.seq seq
  have hcr := uint64_inj fit.createdAt fit0.createdAt hcr
  cases r
  cases s
  simp_all

/-- Two linked runs of one length from one anchor to one hash are equal. -/
lemma Linked.eq_of_head (inj : Function.Injective sha256) {xs ys : List ChainRow}
    (lin0 : Linked sha256 seq prevHash xs) (lin : Linked sha256 seq prevHash ys)
    (fit0 : ∀ r ∈ xs, r.Fits) (fit : ∀ r ∈ ys, r.Fits) (hln : xs.length = ys.length)
    (hea : headHash prevHash xs = headHash prevHash ys) : xs = ys := by
  induction xs using reverseRecOn generalizing ys with
  | nil => exact (eq_nil_of_length_eq_zero hln.symm).symm
  | append_singleton xs r ih =>
    obtain rfl | ⟨ys, s, rfl⟩ := eq_nil_or_concat' ys
    · simp at hln
    obtain ⟨fro, -, pre, has, -⟩ := linked_append.mp lin0
    obtain ⟨frontY, -, pre0, has0, -⟩ := linked_append.mp lin
    rw [headHash_append, headHash_append] at hea
    have canonical : r.canonical = s.canonical :=
      inj (has.trans (hea.trans has0.symm))
    obtain rfl := ChainRow.canonical_inj (fit0 r (by simp)) (fit s (by simp)) canonical hea
    have fro0 := ih fro frontY (fun t mem => fit0 t (by simp [mem]))
      (fun t mem => fit t (by simp [mem])) (by simpa using hln) (pre.symm.trans pre0)
    rw [fro0]

/-- The position of the last row of a run. -/
lemma Linked.seq_getLast
    (hlin : Linked sha256 seq prevHash rows) (hlt : rows.getLast? = some r) :
    r.seq = seq + rows.length - 1 := by
  obtain ⟨fro, rfl⟩ := List.getLast?_eq_some_iff.mp hlt
  obtain ⟨-, ps, -⟩ := linked_append.mp hlin
  rw [ps, length_append, length_singleton]
  omega

lemma verifyChain_ok (ok : verifyChain sha256 tenantID anchor rows = .ok report) :
    ∃ s0, chainAnchor anchor = .ok s0 ∧
      report = verifyReport sha256 tenantID (unchained rows) s0 (chained tenantID rows) := by
  unfold verifyChain at ok
  by_cases hem : tenantID = []
  · simp [hem, throw, throwThe, MonadExceptOf.throw, bind, Except.bind] at ok
  cases s0 : chainAnchor anchor with
  | error err => simp [hem, s0, bind, Except.bind] at ok
  | ok a =>
    simp only [hem, s0, bind, Except.bind, pure, Except.pure, if_false] at ok
    exact ⟨a, rfl, (Except.ok.inj ok).symm⟩

end

/-- An intact log is determined by its anchor and its newest row. -/
theorem chain_binds_content (sha256 : Bytes → Bytes) (injective : Function.Injective sha256)
    (tenantID : Bytes) (anchor : Option Anchor) (rows rows' : List StoredRow)
    (fits : ∀ r ∈ chained tenantID rows, r.Fits) (fits' : ∀ r ∈ chained tenantID rows', r.Fits)
    (report report' : ChainReport) (ok : verifyChain sha256 tenantID anchor rows = .ok report)
    (ok' : verifyChain sha256 tenantID anchor rows' = .ok report') (newest newest' : ChainRow)
    (last : (chained tenantID rows).getLast? = some newest)
    (last' : (chained tenantID rows').getLast? = some newest') (position : newest.seq = newest'.seq)
    (hash : newest.entryHash = newest'.entryHash) (intact : report.chainBreak = .intact) :
    (report'.chainBreak = .intact → chained tenantID rows = chained tenantID rows') ∧
      (chained tenantID rows ≠ chained tenantID rows' → report'.chainBreak ≠ .intact) := by
  have hbd : report'.chainBreak = .intact → chained tenantID rows = chained tenantID rows' := by
    intro int'
    obtain ⟨s0, rd, rfl⟩ := verifyChain_ok ok
    obtain ⟨sta', rea', rfl⟩ := verifyChain_ok ok'
    cases rd.symm.trans rea'
    have hlin := verifyReport_intact.mp intact
    have lin' := verifyReport_intact.mp int'
    have hln : (chained tenantID rows).length = (chained tenantID rows').length := by
      have hh := hlin.seq_getLast last
      have ht := lin'.seq_getLast last'
      omega
    refine hlin.eq_of_head injective lin' fits fits' hln ?_
    simp [headHash, last, last', hash]
  exact ⟨hbd, mt hbd⟩

def storedRow (seq : Int) (prevHash : Bytes) (target : Option Bytes) : StoredRow :=
  let r : StoredRow :=
    { actorID := [97], actorType := [117], action := [120], targetType := target, targetID := none
      decision := none, metadata := [123, 125], createdAt := 5, chainSeq := some seq
      prevHash := some prevHash, entryHash := none }
  { r with entryHash := (r.chainRow [116]).map (computeEntryHash id) }

/-- Two rows of a chain, the newer one first. -/
def twoRows (target : Option Bytes) : List StoredRow :=
  let first := storedRow 1 chainGenesis target
  [storedRow 2 (first.entryHash.getD []) none, first]

lemma chained_twoRows (target) : chained [116] (twoRows target) =
    (twoRows target).reverse.filterMap (StoredRow.chainRow [116]) := by
  simp [chained, twoRows, storedRow, StoredRow.chainRow, Rows.sortBy]

/-- A target that is NULL and one that is empty read the same. -/
theorem chain_binds_content_null :
    chained [116] (twoRows none) = chained [116] (twoRows (some [])) := by
  have hft (tg) (mem : tg ∈ [none, some []]) : ∀ r ∈ chained [116] (twoRows tg), r.Fits := by
    rw [chained_twoRows]
    rcases mem_pair.mp mem with rfl | rfl <;>
      exact forall_mem_cons.mpr ⟨⟨by decide, by decide, by decide⟩,
        forall_mem_singleton.mpr ⟨by decide, by decide, by decide⟩⟩
  have rep (tg) (mem : tg ∈ [none, some []]) :
      ∃ rep, verifyChain id [116] none (twoRows tg) = .ok rep ∧ rep.chainBreak = .intact := by
    refine ⟨_, rfl, verifyReport_intact.mpr ?_⟩
    rw [chained_twoRows]
    rcases mem_pair.mp mem with rfl | rfl <;> exact ⟨rfl, rfl, rfl, rfl, rfl, rfl, trivial⟩
  obtain ⟨one, ok, intact⟩ := rep none (by simp)
  obtain ⟨two, ok', int'⟩ := rep (some []) (by simp)
  exact (chain_binds_content id Function.injective_id [116] none (twoRows none)
    (twoRows (some [])) (hft none (by simp)) (hft (some []) (by simp)) one two ok ok' _ _
    (by rw [chained_twoRows]; rfl) (by rw [chained_twoRows]; rfl) rfl rfl intact).1 int'

end Gibson.Audit
