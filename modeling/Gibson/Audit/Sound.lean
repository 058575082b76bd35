import Gibson.Audit.Store

/-! The invariant of a tenant's audit log: what was ever written is one linked run, retention took
its beginning, and the exporter went through it range by range. -/

namespace Gibson.Audit

open List Requests Interleaving Calls Database ChainRow Option

section
variable {sha256 : Bytes → Bytes} {seq : Int} {prevHash : Bytes} {rows : List ChainRow}

section
variable (linked : Linked sha256 seq prevHash rows)
include linked

lemma Linked.seq_getElem {i : Nat} (hh : rows[i]? = some r) : r.seq = seq + i := by
  induction rows generalizing seq prevHash i with
  | nil => simp at hh
  | cons s rs ih =>
    cases i with
    | zero =>
      obtain rfl : s = r := by simpa using hh
      simpa using linked.1
    | succ i =>
      have hla := ih linked.2.2.2 (by simpa using hh)
      omega

lemma Linked.bounds (mem : r ∈ rows) : seq ≤ r.seq ∧ r.seq < seq + rows.length := by
  obtain ⟨i, hbd, rfl⟩ := mem_iff_getElem.mp mem
  have pl := linked.seq_getElem (getElem?_eq_getElem hbd)
  omega

lemma Linked.ascending : rows.Pairwise fun a b => a.seq < b.seq := by
  induction rows generalizing seq prevHash with
  | nil => exact .nil
  | cons r rs ih =>
    refine .cons (fun s mem => ?_) (ih linked.2.2.2)
    have hbd := (linked.2.2.2.bounds mem).1
    have first := linked.1
    omega

/-- Sorting what is left of a linked run changes nothing. -/
lemma Linked.sortBy_filter (p : ChainRow → Bool) :
    Rows.sortBy ChainRow.seq (rows.filter p) = rows.filter p :=
  Rows.sortBy_of_pairwise ((linked.ascending.filter p).imp fun less => le_of_lt less)

lemma Linked.sortBy_eq : Rows.sortBy ChainRow.seq rows = rows :=
  Rows.sortBy_of_pairwise (linked.ascending.imp fun less => le_of_lt less)

end

lemma linked_extend (tenantID) (ca : Int) (seq : Int) (prevHash evs) :
    Linked sha256 (seq + 1) prevHash (extend sha256 tenantID ca seq prevHash evs) := by
  induction evs generalizing seq prevHash with
  | nil => trivial
  | cons ev rs ih => exact ⟨rfl, rfl, rfl, ih (seq + 1) _⟩

lemma tenantID_extend {tenantID createdAt evs}
    (mem : r ∈ extend sha256 tenantID createdAt seq prevHash evs) : r.tenantID = tenantID := by
  induction evs generalizing seq prevHash with
  | nil => simp [extend] at mem
  | cons ev rs ih =>
    rcases mem_cons.mp mem with rfl | mem
    · rfl
    · exact ih mem

/-- What is left of a linked run behind one of its rows, and what comes up to it. -/
lemma Linked.cut (linked : Linked sha256 seq prevHash rows) (mem : r ∈ rows) :
    ∃ fro hbk, rows = fro ++ r :: hbk ∧
      rows.filter (·.seq ≤ r.seq) = fro ++ [r] ∧ rows.filter (r.seq < ·.seq) = hbk := by
  obtain ⟨fro, hbk, rfl⟩ := append_of_mem mem
  have hor := pairwise_append.mp linked.ascending
  have behind := (pairwise_cons.mp hor.2.1).1
  have hb : ∀ a ∈ fro, a.seq ≤ r.seq := fun a inFront =>
    le_of_lt (hor.2.2 a inFront r mem_cons_self)
  refine ⟨fro, hbk, rfl, ?_, ?_⟩
  · rw [filter_append, filter_cons_of_pos (by simp), filter_eq_self.mpr (by simpa using hb),
      filter_eq_nil_iff.mpr (by simpa using behind)]
  · rw [filter_append, filter_cons_of_neg (by simp), filter_eq_nil_iff.mpr (by simpa using hb),
      filter_eq_self.mpr (by simpa using behind), nil_append]

/-- A check that ended found consecutive positions. -/
lemma checkRecords_seq {prev ps rcs}
    (ok : checkRecords sha256 prev ps rcs = .ok ()) {i : Nat}
    (hh : rcs[i]? = some r) : r.seq = ps + i := by
  induction rcs generalizing prev ps i with
  | nil => simp at hh
  | cons s rs ih =>
    unfold checkRecords at ok
    split at ok
    · contradiction
    split at ok
    · contradiction
    split at ok
    · contradiction
    next pl _ _ =>
    cases i with
    | zero =>
      obtain rfl : s = r := by simpa using hh
      simpa using pl
    | succ i =>
      have hla := ih ok (by simpa using hh)
      omega

end

section
variable (sha256 : Bytes → Bytes) (tenantID : Bytes) (tenantPath : List Char)

def Database.written (db : Database) : List ChainRow := db.deleted ++ db.log tenantID

def Sliced (db : Database) (first last : Int) (body : List ChainRow) : Prop :=
  1 ≤ first ∧ first ≤ last ∧ last ≤ (db.written tenantID).length ∧
    body = between first last (db.written tenantID)

def Covers : List (Int × Int) → Int → Prop
  | [], upTo => upTo = 0
  | (first, last) :: rest, upTo => last = upTo ∧ first ≤ last ∧ Covers rest (first - 1)

def NextRange (db : Database) (first last : Int) : Prop :=
  first = db.exported + 1 ∧ first ≤ last ∧ last ≤ (db.written tenantID).length

/-- The invariant of one tenant's log. -/
structure Sound (db : Database) : Prop where
  linked : Linked sha256 1 chainGenesis (db.written tenantID)
  anchored : chainAnchor db.anchor = .ok ⟨db.deleted.length + 1, headHash chainGenesis db.deleted⟩
  retained : (db.deleted.length : Int) ≤ db.exported
  reached : db.exported ≤ (db.written tenantID).length
  pending : ∀ first last, (db.cursor.getD {}).pending = some (first, last) →
    NextRange tenantID db first last
  covered : Covers db.ranges db.exported
  stored : ∀ range ∈ db.ranges, ∃ body,
    (exportObjectKey tenantPath range.1 range.2, body) ∈ db.bucket
  bodies : ∀ o ∈ db.bucket, ∃ first last,
    o.1 = exportObjectKey tenantPath first last ∧ Sliced tenantID db first last o.2
  live : ∀ tx ∈ db.live, tx < db.begun

def HoldsChain (db : Database) (tx : Nat) (fact : Prop) : Prop :=
  tx < db.begun ∧ (tx ∈ db.live → db.chainLock = some tx ∧ fact)

def HoldsCursor (db : Database) (tx : Nat) (fact : Prop) : Prop :=
  tx < db.begun ∧ (tx ∈ db.live → db.cursorLock = some tx ∧ fact)

def Witnessed (db : Database) : (q : Request) → Reply q → Prop
  | .lockChain tx, .ok _ => HoldsChain db tx True
  | .lastRow tx, .ok r => HoldsChain db tx (r = newest (db.log tenantID))
  | .readAnchor (some tx), .ok a => HoldsChain db tx (a = db.anchor)
  | .lastOld tx _, .ok r => HoldsChain db tx (∀ seq hash, r = some (seq, hash) →
      seq ≤ db.exported ∧ ∃ row ∈ db.log tenantID, row.seq = seq ∧ row.entryHash = hash)
  | .lockCursor tx, .ok c => HoldsCursor db tx (c = db.cursor.getD {}) ∧
      ∀ first last, c.pending = some (first, last) → first ≤ last
  | .nextRange tx _ _, .ok r => HoldsCursor db tx (∀ first last, r = some (first, last) →
      NextRange tenantID db first last)
  | .storePending _ first last, .ok _ => first ≤ last
  | .readRange first last, .ok rows => first ≤ last →
      checkExportRange sha256 rows first last = .ok () → Sliced tenantID db first last rows
  | .putLocked first last body, .ok _ =>
      (exportObjectKey tenantPath first last, body) ∈ db.bucket
  | _, _ => True

lemma witnessed_error (db q e) : Witnessed sha256 tenantID tenantPath db q (.error e) := by
  cases q <;> try trivial
  case readAnchor tx => cases tx <;> trivial

/-- What any later database keeps. -/
structure Later (db db' : Database) : Prop where
  begun : db.begun ≤ db'.begun
  live : ∀ tx, tx < db.begun → tx ∈ db'.live → tx ∈ db.live
  chain : ∀ tx, tx < db.begun → tx ∈ db'.live → db.chainLock = some tx →
    db'.chainLock = some tx ∧ db'.log tenantID = db.log tenantID ∧ db'.anchor = db.anchor
  cursor : ∀ tx, tx < db.begun → tx ∈ db'.live → db.cursorLock = some tx →
    db'.cursorLock = some tx ∧ db'.cursor = db.cursor
  exported : db.exported ≤ db'.exported
  written : ∃ more, db'.written tenantID = db.written tenantID ++ more ∧
    ∀ r ∈ more, ((db.written tenantID).length : Int) < r.seq
  bucket : ∀ o ∈ db.bucket, o ∈ db'.bucket

variable {sha256 tenantID tenantPath} {db db' : Database}

lemma Later.refl (db) : Later tenantID db db :=
  ⟨Nat.le_refl _, fun _ _ mem => mem, fun _ _ _ lk => ⟨lk, rfl, rfl⟩,
    fun _ _ _ lk => ⟨lk, rfl⟩, Int.le_refl _, ⟨[], by simp, by simp⟩, fun _ mem => mem⟩

lemma Later.length_written (hla : Later tenantID db db') :
    (db.written tenantID).length ≤ (db'.written tenantID).length := by
  obtain ⟨more, grown, -⟩ := hla.written
  rw [grown, length_append]
  omega

variable {first last : Int} {body : List ChainRow}

/-- A slice of what was written does not change when more is written. -/
lemma Sliced.later (sliced : Sliced tenantID db first last body) (hla : Later tenantID db db') :
    Sliced tenantID db' first last body := by
  obtain ⟨hpo, hrd, hbd, rfl⟩ := sliced
  have long := hla.length_written
  obtain ⟨more, grown, hby⟩ := hla.written
  refine ⟨hpo, hrd, by omega, ?_⟩
  have hout : between first last more = [] := by
    rw [between, filter_eq_nil_iff]
    intro r mem
    have far := hby r mem
    simp only [Bool.and_eq_true, decide_eq_true_eq, not_and, not_le]
    omega
  rw [between] at hout ⊢
  rw [grown, between, filter_append, hout, append_nil]

variable {tx : Nat}

lemma HoldsChain.later (hho : HoldsChain db tx fact) (hla : Later tenantID db db')
    (hsl : db'.log tenantID = db.log tenantID → db'.anchor = db.anchor → fact → fact') :
    HoldsChain db' tx fact' := by
  refine ⟨Nat.lt_of_lt_of_le hho.1 hla.begun, fun mem => ?_⟩
  obtain ⟨lk, hk⟩ := hho.2 (hla.live tx hho.1 mem)
  obtain ⟨loc', log, anc⟩ := hla.chain tx hho.1 mem lk
  exact ⟨loc', hsl log anc hk⟩

lemma HoldsCursor.later (hho : HoldsCursor db tx fact)
    (hla : Later tenantID db db') (hsl : db'.cursor = db.cursor → fact → fact') :
    HoldsCursor db' tx fact' := by
  refine ⟨Nat.lt_of_lt_of_le hho.1 hla.begun, fun mem => ?_⟩
  obtain ⟨lk, hk⟩ := hho.2 (hla.live tx hho.1 mem)
  obtain ⟨loc', csr⟩ := hla.cursor tx hho.1 mem lk
  exact ⟨loc', hsl csr hk⟩

variable {q : Request} {r : Reply q}

lemma Witnessed.later (hk : Witnessed sha256 tenantID tenantPath db q r)
    (hla : Later tenantID db db') : Witnessed sha256 tenantID tenantPath db' q r := by
  cases r with
  | error e => exact witnessed_error sha256 tenantID tenantPath db' q e
  | ok x =>
    cases q with
    | lockChain tx => exact HoldsChain.later hk hla fun _ _ fact => fact
    | lastRow tx =>
      refine HoldsChain.later hk hla fun log _ fact => ?_
      rwa [log]
    | readAnchor tx =>
      cases tx with
      | none => trivial
      | some tx =>
        refine HoldsChain.later hk hla fun _ anc fact => ?_
        rwa [anc]
    | lastOld tx co =>
      refine HoldsChain.later hk hla fun log _ fact seq hash last => ?_
      obtain ⟨hex, row⟩ := fact seq hash last
      rw [log]
      exact ⟨hex.trans hla.exported, row⟩
    | lockCursor tx =>
      refine ⟨HoldsCursor.later hk.1 hla fun csr fact => ?_, hk.2⟩
      rwa [csr]
    | nextRange tx hex bt =>
      refine HoldsCursor.later hk hla fun csr fact first last rg => ?_
      obtain ⟨s0, hrd, hbd⟩ := fact first last rg
      have long := hla.length_written
      have hs : db'.exported = db.exported := by rw [Database.exported, csr, Database.exported]
      exact ⟨by rw [hs]; exact s0, hrd, by omega⟩
    | storePending tx first last => exact hk
    | readRange first last => exact fun hrd hck => (hk hrd hck).later hla
    | putLocked first last body => exact hla.bucket _ hk
    | _ => trivial

def Keeps (sha256 : Bytes → Bytes) (tenantID : Bytes) (tenantPath : List Char) (db db' : Database)
    (q : Request) (r : Reply q) : Prop :=
  Later tenantID db db' ∧ Sound sha256 tenantID tenantPath db' ∧
    Witnessed sha256 tenantID tenantPath db' q r

lemma Sound.keeps_error (sound : Sound sha256 tenantID tenantPath db) (q e) :
    Keeps sha256 tenantID tenantPath db db q (.error e) :=
  ⟨.refl db, sound, witnessed_error sha256 tenantID tenantPath db q e⟩

/-- A reply that is lost says less. -/
lemma keeps_reply (a : Answer) (hkp : Keeps sha256 tenantID tenantPath db db' q (.ok x)) :
    Keeps sha256 tenantID tenantPath db db' q (a.reply x) := by
  cases a with
  | served => exact hkp
  | refused | lost => exact ⟨hkp.1, hkp.2.1, witnessed_error _ _ _ _ q _⟩

lemma keeps_answer {next} (hkp : Keeps sha256 tenantID tenantPath db next q r')
    (served : some (next, r') = some (db', r)) : Keeps sha256 tenantID tenantPath db db' q r := by
  cases served
  exact hkp

variable {a : Answer}

/-- A statement of a transaction does nothing unless the transaction is open. -/
lemma keeps_inTx {next} (sound : Sound sha256 tenantID tenantPath db)
    (hkp : tx ∈ db.live → Keeps sha256 tenantID tenantPath db next q (.ok x))
    (served : db.inTx tx a next x = some (db', r)) :
    Keeps sha256 tenantID tenantPath db db' q r := by
  unfold inTx at served
  split at served
  · exact keeps_answer (sound.keeps_error q _) served
  · next ope' =>
    exact keeps_answer (keeps_reply a (hkp (by simpa using (not_or.mp ope').2))) served

lemma mem_release_live (mem : t ∈ (db.release tx).live) : t ∈ db.live ∧ t ≠ tx := by
  simpa [release] using mem

lemma lock_of_free (free : lock = none ∨ lock = some tx)
    (hhe : lock = some t) : some tx = some t := by
  rcases free with rfl | rfl
  · cases hhe
  · exact hhe

lemma later_release (tenantID db) (tx : Nat) : Later tenantID db (db.release tx) where
  __ := Later.refl db
  live _ _ mem := (mem_release_live mem).1
  chain t _ mem lock := by
    have ho := (mem_release_live mem).2
    refine ⟨?_, rfl, rfl⟩
    simp [release, lock, ho]
  cursor t _ mem lock := by
    have ho := (mem_release_live mem).2
    refine ⟨?_, rfl⟩
    simp [release, lock, ho]

section
variable (sound : Sound sha256 tenantID tenantPath db)
include sound

lemma Sound.release (tx : Nat) : Sound sha256 tenantID tenantPath (db.release tx) :=
  { sound with live := fun t mem => sound.live t (mem_release_live mem).1 }

lemma keeps_release (tx : Nat)
    (hk : Witnessed sha256 tenantID tenantPath (db.release tx) q (.ok x)) :
    Keeps sha256 tenantID tenantPath db (db.release tx) q (.ok x) :=
  ⟨later_release _ db tx, sound.release tx, hk⟩

lemma Sound.keeps_begin :
    Keeps sha256 tenantID tenantPath db
      { db with begun := db.begun + 1, live := db.begun :: db.live } .begin (.ok db.begun) := by
  have old (t) (less : t < db.begun) (mem : t ∈ db.begun :: db.live) : t ∈ db.live :=
    (mem_cons.mp mem).resolve_left (Nat.ne_of_lt less)
  refine ⟨{ Later.refl db with
    begun := Nat.le_succ _, live := old, chain := fun _ _ _ lk => ⟨lk, rfl, rfl⟩
    cursor := fun _ _ _ lk => ⟨lk, rfl⟩ }, ?_, trivial⟩
  exact { sound with
    live := forall_mem_cons.mpr
      ⟨Nat.lt_succ_self _, fun t mem => Nat.lt_succ_of_lt (sound.live t mem)⟩ }

lemma Sound.linked_log :
    Linked sha256 (db.deleted.length + 1) (headHash chainGenesis db.deleted) (db.log tenantID) := by
  have par := (linked_append.mp sound.linked).2
  rwa [Int.add_comm] at par

lemma Sound.chained_eq : chained tenantID db.rows = db.log tenantID :=
  sound.linked_log.sortBy_eq

end

lemma filterMap_stored {rows : List ChainRow} (own : ∀ r ∈ rows, r.tenantID = tenantID) :
    (rows.map stored).filterMap (StoredRow.chainRow tenantID) = rows := by
  induction rows with
  | nil => rfl
  | cons r rs ih =>
    rw [forall_mem_cons] at own
    have hh := r.chainRow_stored
    rw [own.1] at hh
    rw [map_cons, filterMap_cons, hh, ih own.2]

variable {seq : Int}

/-- A row behind the head of what was written. -/
lemma Sound.keeps_insertRows (sound : Sound sha256 tenantID tenantPath db)
    (lk : db.chainLock = some tx) {ca : Int} {prevHash events}
    (ps : seq = (db.written tenantID).length)
    (hd : prevHash = headHash chainGenesis (db.written tenantID)) :
    let rows := extend sha256 tenantID ca seq prevHash events
    Keeps sha256 tenantID tenantPath db
      ({ db with rows := db.rows ++ rows.map ChainRow.stored }.release tx)
      (.insertRows tx rows) (.ok ()) := by
  intro rows
  have log : Database.log tenantID
      ({ db with rows := db.rows ++ rows.map ChainRow.stored }.release tx) =
      db.log tenantID ++ rows := by
    show (db.rows ++ rows.map ChainRow.stored).filterMap _ = _
    rw [filterMap_append, filterMap_stored fun r => tenantID_extend, log]
  have new : Linked sha256 (1 + (db.written tenantID).length)
      (headHash chainGenesis (db.written tenantID)) rows := by
    rw [← ps, ← hd, Int.add_comm]
    exact linked_extend tenantID ca seq prevHash events
  have written : Database.written tenantID
      ({ db with rows := db.rows ++ rows.map ChainRow.stored }.release tx) =
      db.written tenantID ++ rows := by
    rw [Database.written, log, ← append_assoc]
    rfl
  have hla : Later tenantID db
      ({ db with rows := db.rows ++ rows.map ChainRow.stored }.release tx) :=
    { later_release tenantID db tx with
      chain := fun t _ mem hhe =>
        absurd (some.inj (hhe.symm.trans lk)) (mem_release_live mem).2
      written := ⟨rows, written, fun r mem => by have := (new.bounds mem).1; omega⟩ }
  have long := hla.length_written
  refine ⟨hla, ?_, trivial⟩
  exact
    { sound.release tx with
      linked := by rw [written]; exact linked_append.mpr ⟨sound.linked, new⟩
      reached := le_trans sound.reached (by exact_mod_cast long)
      pending := fun first last pending => by
        obtain ⟨s0, hrd, hbd⟩ := sound.pending first last pending
        exact ⟨s0, hrd, le_trans hbd (by exact_mod_cast long)⟩
      bodies := fun o mem => by
        obtain ⟨first, last, key, sliced⟩ := sound.bodies o mem
        exact ⟨first, last, key, sliced.later hla⟩ }

lemma filterMap_filter_chainSeq (rows : List StoredRow) (last : Int) :
    (rows.filter fun r => !r.chainSeq.any (· ≤ last)).filterMap (StoredRow.chainRow tenantID) =
      (rows.filterMap (StoredRow.chainRow tenantID)).filter (last < ·.seq) := by
  induction rows with
  | nil => rfl
  | cons r rs ih =>
    cases ps : r.chainSeq with
    | none =>
      have hsc : r.chainRow tenantID = none := by simp [StoredRow.chainRow, ps]
      rw [filter_cons_of_pos (by simp [ps]), filterMap_cons, filterMap_cons, hsc, ih]
    | some seq =>
      obtain ⟨row, rd, hs⟩ : ∃ row, r.chainRow tenantID = some row ∧ row.seq = seq := by
        simp [StoredRow.chainRow, ps]
      by_cases old : seq ≤ last
      · rw [filter_cons_of_neg (by simp [ps, old]), filterMap_cons, rd, ih,
          filter_cons_of_neg (by simp only [hs, decide_eq_true_eq]; omega)]
      · rw [filter_cons_of_pos (by simp [ps, old]), filterMap_cons, filterMap_cons, rd, ih,
          filter_cons_of_pos (by simp only [hs, decide_eq_true_eq]; omega)]

section
variable (sound : Sound sha256 tenantID tenantPath db)
include sound

/-- Retention takes the beginning of the log, and the anchor follows. -/
lemma Sound.keeps_prune
    (lk : db.chainLock = some tx) {row : ChainRow} (mem : row ∈ db.log tenantID)
    (hex : row.seq ≤ db.exported) (len : row.entryHash.length = chainHashLen) :
    Keeps sha256 tenantID tenantPath db
      ({ db with
        anchor := some ⟨row.seq + 1, row.entryHash⟩
        rows := db.rows.filter fun r => !r.chainSeq.any (· ≤ row.seq)
        deleted := db.deleted ++ upTo row.seq (db.log tenantID) }.release tx)
      (.prune tx row.seq row.entryHash) (.ok ()) := by
  obtain ⟨fro, hbk, hsha, hrmv, hle⟩ := sound.linked_log.cut mem
  generalize nx : Database.release _ tx = db'
  have log : db'.log tenantID = hbk := by
    rw [← nx, ← hle]
    exact filterMap_filter_chainSeq db.rows row.seq
  have deleted : db'.deleted = db.deleted ++ fro ++ [row] := by
    rw [← nx, append_assoc, ← hrmv]
    rfl
  have written : db'.written tenantID = db.written tenantID := by
    rw [Database.written, Database.written, log, deleted, hsha]
    simp
  -- the row's position is its place in what was written
  have pl : row.seq = (db.deleted ++ fro ++ [row]).length := by
    have hh : (db.written tenantID)[(db.deleted ++ fro).length]? = some row := by
      rw [Database.written, hsha, ← append_assoc, getElem?_append_right (Nat.le_refl _)]
      simp
    have ps := sound.linked.seq_getElem hh
    simp only [length_append, length_singleton] at ps ⊢
    omega
  have hla : Later tenantID db db' := by
    subst nx
    exact { later_release tenantID db tx with
      chain := fun t _ mem hhe =>
        absurd (some.inj (hhe.symm.trans lk)) (mem_release_live mem).2
      written := ⟨[], by rw [written, append_nil], by simp⟩ }
  subst nx
  refine ⟨hla, ?_, trivial⟩
  exact
    { sound.release tx with
      linked := by rw [written]; exact sound.linked
      anchored := by
        have hpo : ¬(row.seq + 1 < 1 ∨ row.entryHash.length ≠ chainHashLen) := by
          omega
        show chainAnchor (some ⟨row.seq + 1, row.entryHash⟩) = _
        rw [chainAnchor, if_neg hpo, deleted, headHash_append, ← pl]
      retained := by rw [deleted, ← pl]; exact hex
      reached := by rw [written]; exact sound.reached
      pending := fun first last pending => by
        obtain ⟨s0, hrd, hbd⟩ := sound.pending first last pending
        exact ⟨s0, hrd, by rw [written]; exact hbd⟩
      bodies := fun o mem => by
        obtain ⟨first, last, key, sliced⟩ := sound.bodies o mem
        exact ⟨first, last, key, sliced.later hla⟩ }

lemma Sound.keeps_storePending
    (lk : db.cursorLock = some tx) (nx : NextRange tenantID db first last) :
    Keeps sha256 tenantID tenantPath db
      ({ db with cursor := some ⟨db.exported, some (first, last)⟩ }.release tx)
      (.storePending tx first last) (.ok ()) := by
  refine ⟨?_, ?_, nx.2.1⟩
  · exact { later_release tenantID db tx with
      cursor := fun t _ mem hhe =>
        absurd (some.inj (hhe.symm.trans lk)) (mem_release_live mem).2 }
  · exact { sound.release tx with
      pending := fun lo hi pending => by
        cases pending
        exact nx }

lemma Sound.keeps_putLocked (sliced : Sliced tenantID db first last body) :
    Keeps sha256 tenantID tenantPath db
      { db with bucket := (exportObjectKey tenantPath first last, body) :: db.bucket }
      (.putLocked first last body) (.ok ()) := by
  refine ⟨{ Later.refl db with bucket := fun _ mem => mem_cons_of_mem _ mem }, ?_, mem_cons_self⟩
  refine { sound with
    stored := fun rg mem => ?_
    bodies := forall_mem_cons.mpr ⟨⟨first, last, rfl, sliced⟩, sound.bodies⟩ }
  obtain ⟨bod', inBucket⟩ := sound.stored rg mem
  exact ⟨bod', mem_cons_of_mem _ inBucket⟩

lemma Sound.keeps_advanceCursor
    (hunl : db.cursorLock = none) (pending : db.cursor.bind Cursor.pending = some (first, last))
    (put : (exportObjectKey tenantPath first last, body) ∈ db.bucket) :
    Keeps sha256 tenantID tenantPath db
      { db with cursor := some ⟨last, none⟩, ranges := (first, last) :: db.ranges }
      (.advanceCursor first last) (.ok ()) := by
  have cur : (db.cursor.getD {}).pending = some (first, last) := by
    cases cursor : db.cursor with
    | none => simp [cursor] at pending
    | some c => simpa [cursor] using pending
  obtain ⟨s0, hrd, hbd⟩ := sound.pending first last cur
  have kp := sound.retained
  refine ⟨{ Later.refl db with cursor := ?_, exported := ?_ }, ?_, trivial⟩
  · intro t _ _ lk
    rw [hunl] at lk
    contradiction
  · show db.exported ≤ last
    omega
  · exact { sound with
      retained := by
        show (db.deleted.length : Int) ≤ last
        omega
      reached := hbd
      pending := fun lo hi none => by cases none
      covered := ⟨rfl, hrd, by rw [s0, Int.add_sub_cancel]; exact sound.covered⟩
      stored := forall_mem_cons.mpr ⟨⟨body, put⟩, sound.stored⟩ }

end

def HeadRead (past : History Request Reply) (tx : Nat) (seq : Int) (prevHash : Bytes) : Prop :=
  ⟨.lastRow tx, .ok (some (seq, prevHash))⟩ ∈ past ∨
    (⟨.lastRow tx, .ok none⟩ ∈ past ∧ ∃ stored a,
      ⟨.readAnchor (some tx), .ok stored⟩ ∈ past ∧ chainAnchor stored = .ok a ∧
      seq = a.firstSeq - 1 ∧ prevHash = a.prevHash)

/-- A range that was pending, or that the exporter has stored as pending. -/
def Claimed (past : History Request Reply) (first last : Int) : Prop :=
  (∃ tx exported, ⟨.lockCursor tx, .ok ⟨exported, some (first, last)⟩⟩ ∈ past) ∨
    ∃ tx, ⟨.storePending tx first last, .ok ()⟩ ∈ past

def Allowed (sha256 : Bytes → Bytes) (tenantID : Bytes) (past : History Request Reply) :
    Request → Prop
  | .lastRow tx | .readAnchor (some tx) | .lastOld tx _ => ⟨.lockChain tx, .ok ()⟩ ∈ past
  | .insertRows tx rows => ∃ seq prevHash createdAt events,
      rows = extend sha256 tenantID createdAt seq prevHash events ∧ HeadRead past tx seq prevHash
  | .prune tx seq hash =>
      (∃ cutoff, ⟨.lastOld tx cutoff, .ok (some (seq, hash))⟩ ∈ past) ∧ hash.length = chainHashLen
  | .nextRange tx exported _ => ⟨.lockCursor tx, .ok ⟨exported, none⟩⟩ ∈ past
  | .storePending tx first last =>
      ∃ exported batch, ⟨.nextRange tx exported batch, .ok (some (first, last))⟩ ∈ past
  | .putLocked first last body => Claimed past first last ∧
      ⟨.readRange first last, .ok body⟩ ∈ past ∧ checkExportRange sha256 body first last = .ok ()
  | .advanceCursor first last => ∃ body, ⟨.putLocked first last body, .ok ()⟩ ∈ past
  | _ => True

abbrev AuditObeys (sha256 : Bytes → Bytes) (tenantID : Bytes) {α : Type} (Post : α → Prop)
    (past : History Request Reply) (p : Prog α) : Prop :=
  Obeys (fun _ _ => True) (Allowed sha256 tenantID) Post past p

lemma transaction_obeys {work : Nat → Prog (Except Error α)}
    (wor : ∀ tx, AuditObeys sha256 tenantID (fun _ => True) [⟨.begin, .ok tx⟩] (work tx)) :
    AuditObeys sha256 tenantID (fun _ => True) [] (transaction work) := by
  refine ⟨trivial, forall_ok fun tx _ => ?_⟩
  show AuditObeys sha256 tenantID _ _ (work tx >>= _)
  exact obeys_bind (wor tx) <|
    forall_except (fun _ _ _ => ⟨trivial, fun _ _ => trivial⟩) fun _ _ _ => trivial

lemma appendAt_obeys {tx events createdAt} (hd : Except Error (Int × Bytes)) {past}
    (rd : ∀ seq prevHash, hd = .ok (seq, prevHash) → HeadRead past tx seq prevHash) :
    AuditObeys sha256 tenantID (fun _ => True) past
      (appendAt sha256 tenantID tx events createdAt hd) := by
  cases hd with
  | error e => trivial
  | ok hd =>
    exact ⟨⟨hd.1, hd.2, createdAt, events, rfl, rd hd.1 hd.2 rfl⟩, fun _ _ => trivial⟩

lemma insert_obeys (events) (ca : Int) :
    AuditObeys sha256 tenantID (fun _ => True) [] (Audit.insert sha256 tenantID events ca) := by
  unfold Audit.insert
  split
  · trivial
  refine transaction_obeys fun tx => ⟨trivial, forall_ok fun _ _ => ?_⟩
  refine ⟨mem_cons_self, forall_ok fun last _ => ?_⟩
  cases last with
  | some last =>
    obtain ⟨seq, hash⟩ := last
    show AuditObeys sha256 tenantID _ _ ((if _ then _ else _) >>= _)
    split
    · trivial
    refine appendAt_obeys (.ok (seq, hash)) fun seq' has' hs => ?_
    cases hs
    exact .inl mem_cons_self
  | none =>
    refine ⟨by simp [Allowed], forall_ok fun hst _ => ?_⟩
    refine appendAt_obeys (anchorHead hst) fun seq prevHash hs => ?_
    cases s0 : chainAnchor hst with
    | error e => simp [anchorHead, s0, Except.map] at hs
    | ok a =>
      simp only [anchorHead, s0, Except.map, Except.ok.injEq, Prod.mk.injEq] at hs
      exact .inr ⟨by simp, hst, a, by simp, s0, hs.1.symm, hs.2.symm⟩

lemma pruneTenant_obeys (co : Int) :
    AuditObeys sha256 tenantID (fun _ => True) [] (Audit.pruneTenant tenantID co) := by
  unfold Audit.pruneTenant
  split
  · trivial
  refine transaction_obeys fun tx => ⟨trivial, forall_ok fun _ _ => ?_⟩
  refine ⟨mem_cons_self, forall_ok fun last _ => ?_⟩
  cases last with
  | none => exact ⟨trivial, fun _ _ => trivial⟩
  | some last =>
    obtain ⟨seq, hash⟩ := last
    show AuditObeys sha256 tenantID _ _ (if _ then _ else _)
    split
    · trivial
    · next len =>
      exact ⟨⟨⟨co, mem_cons_self⟩, not_not.mp len⟩, fun _ _ => trivial⟩

lemma verify_obeys :
    AuditObeys sha256 tenantID (fun _ => True) [] (Audit.verify sha256 tenantID) := by
  have hon (ct : Nat) (anc : Except Error Anchor) (pa : History Request Reply) :
      AuditObeys sha256 tenantID (fun _ => True) pa (verifyFrom sha256 tenantID ct anc) := by
    cases anc with
    | error e => trivial
    | ok anc => exact ⟨trivial, forall_ok fun _ _ => trivial⟩
  unfold Audit.verify
  split
  · trivial
  refine ⟨trivial, forall_ok fun ct _ => ?_⟩
  exact ⟨trivial, forall_ok fun hst _ =>
    hon ct (chainAnchor hst) _⟩

/-- An exporter goes on with the range that it has claimed. -/
lemma exportClaimed_obeys (rg : Except Error (Option (Int × Int)))
    (hcla : ∀ first last, rg = .ok (some (first, last)) → Claimed past first last) :
    AuditObeys sha256 tenantID (fun _ => True) past (exportClaimed sha256 rg) := by
  cases rg with
  | error e => trivial
  | ok rg =>
    cases rg with
    | none => trivial
    | some rg =>
      obtain ⟨first, last⟩ := rg
      refine ⟨trivial, forall_ok fun rcs _ => ?_⟩
      show AuditObeys sha256 tenantID _ _
        (writeRange first last rcs (checkExportRange sha256 rcs first last))
      cases check : checkExportRange sha256 rcs first last with
      | error e => trivial
      | ok _ =>
        have claim : Claimed (⟨.readRange first last, .ok rcs⟩ :: past) first last := by
          rcases hcla first last rfl with ⟨tx, hex, hsn⟩ | ⟨tx, hsn⟩
          · exact .inl ⟨tx, hex, mem_cons_of_mem _ hsn⟩
          · exact .inr ⟨tx, mem_cons_of_mem _ hsn⟩
        refine ⟨⟨claim, mem_cons_self, check⟩, forall_ok fun _ _ => ?_⟩
        exact ⟨⟨rcs, mem_cons_self⟩, forall_ok fun _ _ => trivial⟩

lemma exportTenantOnce_obeys (bt : Nat) : AuditObeys sha256 tenantID (fun _ => True) []
      (Audit.exportTenantOnce sha256 tenantID bt) := by
  have hfa (e : Error) {past} :
      AuditObeys sha256 tenantID (fun _ => True) past (exportClaimed sha256 (.error e)) := trivial
  unfold Audit.exportTenantOnce
  split
  · trivial
  refine ⟨trivial, forall_except (fun e _ => hfa e) fun tx _ => ?_⟩
  refine ⟨trivial, forall_except (fun e _ => ⟨trivial, fun _ _ => hfa e⟩) ?_⟩
  rintro ⟨hex, hp⟩ -
  cases hp with
  | some rg =>
    refine ⟨trivial, fun _ _ => exportClaimed_obeys (.ok (some rg)) ?_⟩
    rintro first last ⟨⟩
    exact .inl ⟨tx, hex, by simp⟩
  | none =>
    refine ⟨mem_cons_self, forall_except (fun e _ => ⟨trivial, fun _ _ => hfa e⟩) ?_⟩
    rintro (_ | ⟨lo, hi⟩) -
    · exact ⟨trivial, fun _ _ => exportClaimed_obeys (.ok none) (by simp)⟩
    refine ⟨⟨hex, bt, mem_cons_self⟩,
      forall_except (fun e _ => ⟨trivial, fun _ _ => hfa e⟩) fun _ _ => ?_⟩
    refine exportClaimed_obeys (.ok (some (lo, hi))) ?_
    rintro first last ⟨⟩
    exact .inr ⟨tx, mem_cons_self⟩

lemma body_obeys (op : Operation) :
    AuditObeys sha256 tenantID (fun _ => True) [] (op.body sha256 tenantID) := by
  cases op with
  | insert evs ca => exact obeys_map (insert_obeys evs ca)
  | pruneTenant co => exact obeys_map (pruneTenant_obeys co)
  | verifyChain => exact obeys_map verify_obeys
  | exportTenantOnce bt => exact obeys_map (exportTenantOnce_obeys bt)

lemma Sound.length_written (_ : Sound sha256 tenantID tenantPath db) :
    ((db.written tenantID).length : Int) = db.deleted.length + (db.log tenantID).length := by
  rw [written, length_append]
  rfl

section
variable (sound : Sound sha256 tenantID tenantPath db)
include sound

/-- The head that the code reads is the head of what was written. -/
lemma Sound.head_of_read (mem : tx ∈ db.live)
    (hsn : ∀ e ∈ past, Witnessed sha256 tenantID tenantPath db e.1 e.2) {prevHash}
    (rd : HeadRead past tx seq prevHash) :
    db.chainLock = some tx ∧ seq = (db.written tenantID).length ∧
      prevHash = headHash chainGenesis (db.written tenantID) := by
  have ct := sound.length_written
  rcases rd with last | ⟨last, hst, a, anc, s0, rfl, rfl⟩
  · obtain ⟨lk, vl⟩ := (hsn _ last).2 mem
    rw [newest, sound.linked_log.sortBy_eq] at vl
    obtain ⟨row, hf, hs⟩ := map_eq_some_iff.mp vl.symm
    cases hs
    have pl := sound.linked_log.seq_getLast hf
    refine ⟨lk, by omega, ?_⟩
    obtain ⟨front, hsha⟩ := getLast?_eq_some_iff.mp hf
    rw [written, hsha, ← append_assoc, headHash_append]
  · obtain ⟨lk, vl⟩ := (hsn _ last).2 mem
    obtain ⟨-, cur⟩ := (hsn _ anc).2 mem
    rw [newest, sound.linked_log.sortBy_eq] at vl
    have hem : db.log tenantID = [] := by simpa using vl.symm
    rw [cur, sound.anchored] at s0
    cases s0
    rw [written, hem, append_nil]
    exact ⟨lk, by simp, rfl⟩

/-- The next batch begins right behind the cursor. -/
lemma Sound.nextRange {bt : Nat}
    (nx : nextPositions (db.log tenantID) db.exported bt = some (first, last)) :
    NextRange tenantID db first last := by
  have ct := sound.length_written
  have hret := sound.retained
  unfold nextPositions at nx
  rw [sound.linked_log.sortBy_filter] at nx
  generalize htk : ((db.log tenantID).filter (db.exported < ·.seq)).take bt = rows at nx
  have sub : rows.Sublist ((db.log tenantID).filter (db.exported < ·.seq)) := by
    rw [← htk]
    exact take_sublist bt _
  have mem {r} (hi0 : r ∈ rows) : r ∈ db.log tenantID ∧ db.exported < r.seq := by
    simpa using sub.subset hi0
  have hor :=
    (sound.linked_log.ascending.filter _).sublist sub
  cases rows with
  | nil => simp at nx
  | cons lo rs =>
    obtain ⟨hi, hf⟩ : ∃ hi, (lo :: rs).getLast? = some hi := by
      simp [getLast?_cons]
    simp only [head?_cons, hf, some.injEq, Prod.mk.injEq] at nx
    obtain ⟨rfl, rfl⟩ := nx
    obtain ⟨inLog, hby⟩ := mem (r := lo) mem_cons_self
    have hiMem := mem_of_getLast? hf
    have hiBound := sound.linked_log.bounds (mem hiMem).1
    have loBound := sound.linked_log.bounds inLog
    -- the row right behind the cursor is there, and the first of the batch is not above it
    have least : lo.seq ≤ db.exported + 1 := by
      have hi0 : (db.exported - db.deleted.length).toNat < (db.log tenantID).length := by omega
      have pl := sound.linked_log.seq_getElem (getElem?_eq_getElem hi0)
      have kp : (db.log tenantID)[(db.exported - db.deleted.length).toNat] ∈
          (db.log tenantID).filter (db.exported < ·.seq) := by
        refine mem_filter.mpr ⟨getElem_mem hi0, ?_⟩
        simp only [decide_eq_true_eq]
        omega
      have hd : ((db.log tenantID).filter (db.exported < ·.seq)).head? = some lo := by
        have hpo : bt ≠ 0 := by
          rintro rfl
          simp at htk
        have first := head?_take (l := (db.log tenantID).filter (db.exported < ·.seq)) (i := bt)
        rw [htk, if_neg hpo] at first
        exact first.symm
      obtain ⟨tail, hsha⟩ := head?_eq_some_iff.mp hd
      have ascending := sound.linked_log.ascending.filter (db.exported < ·.seq)
      rw [hsha] at kp ascending
      rcases mem_cons.mp kp with hs | later
      · rw [← hs, pl]
        omega
      · have := (pairwise_cons.mp ascending).1 _ later
        omega
    refine ⟨by omega, ?_, by omega⟩
    rcases mem_cons.mp hiMem with rfl | later
    · exact Int.le_refl _
    · exact le_of_lt ((pairwise_cons.mp hor).1 hi later)

/-- Records that pass the check are a whole range of what was written. -/
lemma Sound.sliced (hrd : first ≤ last)
    (hck : checkExportRange sha256 (Rows.sortBy ChainRow.seq (between first last (db.log
      tenantID))) first last = .ok ()) :
    Sliced tenantID db first last
      (Rows.sortBy ChainRow.seq (between first last (db.log tenantID))) := by
  have ct := sound.length_written
  rw [between, sound.linked_log.sortBy_filter] at hck ⊢
  unfold checkExportRange at hck
  split at hck
  · contradiction
  next len =>
  generalize rows : (db.log tenantID).filter (fun r => first ≤ r.seq && r.seq ≤ last) = records
    at hck len ⊢
  have ps {i} (hi : i < records.length) : (db.deleted.length : Int) + 1 ≤ first + i ∧
        first + i < db.deleted.length + 1 + (db.log tenantID).length := by
    have pl := checkRecords_seq hck (getElem?_eq_getElem hi)
    have all : ∀ r ∈ records, r ∈ db.log tenantID := by
      rw [← rows]
      exact fun r mem => (mem_filter.mp mem).1
    have inL := all _ (getElem_mem hi)
    have hbd := sound.linked_log.bounds inL
    omega
  have low := ps (i := 0) (by omega)
  have high := ps (i := records.length - 1) (by omega)
  refine ⟨by omega, hrd, by omega, ?_⟩
  have hb : between first last db.deleted = [] := by
    rw [between, filter_eq_nil_iff]
    intro r mem
    have hbd := ((linked_append.mp sound.linked).1).bounds mem
    simp only [Bool.and_eq_true, decide_eq_true_eq, not_and, not_le]
    omega
  rw [between] at hb
  rw [← rows, between, written, filter_append, hb, nil_append]

lemma serve_keeps (hsn : ∀ e ∈ past, Witnessed sha256 tenantID tenantPath db e.1 e.2)
    (hal : Allowed sha256 tenantID past q)
    (served : serve tenantID tenantPath db q a = some (db', r)) :
    Keeps sha256 tenantID tenantPath db db' q r := by
  have read {q} {x} (a : Answer)
      (hk : Witnessed sha256 tenantID tenantPath db q (.ok x)) :
      Keeps sha256 tenantID tenantPath db db q (a.reply x) :=
    keeps_reply a ⟨.refl db, sound, hk⟩
  cases q with
  | begin =>
    simp only [serve] at served
    split at served
    · exact keeps_answer (sound.keeps_error _ _) served
    · exact keeps_answer (keeps_reply a sound.keeps_begin) served
  | rollback tx => exact keeps_answer (keeps_release sound tx trivial) served
  | commit tx => exact keeps_inTx sound (fun _ => keeps_release sound tx trivial) served
  | lockChain tx =>
    simp only [serve] at served
    split at served
    · next free =>
      refine keeps_inTx sound (fun mem => ?_) served
      exact ⟨{ Later.refl db with chain := fun t _ _ lock => ⟨lock_of_free free lock, rfl, rfl⟩ },
        { sound with }, sound.live tx mem, fun _ => ⟨rfl, trivial⟩⟩
    · contradiction
  | lastRow tx =>
    obtain ⟨begun, lock⟩ := hsn _ hal
    exact keeps_inTx sound
      (fun _ => ⟨.refl db, sound, begun, fun mem => ⟨(lock mem).1, rfl⟩⟩) served
  | readAnchor tx =>
    cases tx with
    | none => exact keeps_answer (read a trivial) served
    | some tx =>
      obtain ⟨begun, lock⟩ := hsn _ hal
      exact keeps_inTx sound
        (fun _ => ⟨.refl db, sound, begun, fun mem => ⟨(lock mem).1, rfl⟩⟩) served
  | insertRows tx rows =>
    simp only [serve] at served
    split at served
    · exact keeps_answer (sound.keeps_error _ _) served
    refine keeps_inTx sound (fun mem => ?_) served
    obtain ⟨seq, prevHash, createdAt, evs, rfl, head⟩ := hal
    obtain ⟨lock, ps, hash⟩ := sound.head_of_read mem hsn head
    exact sound.keeps_insertRows lock ps hash
  | lastOld tx cutoff =>
    obtain ⟨begun, lock⟩ := hsn _ hal
    refine keeps_inTx sound (fun _ => ⟨.refl db, sound, begun, fun mem =>
      ⟨(lock mem).1, fun seq hash last => ?_⟩⟩) served
    obtain ⟨row, hf, hs⟩ := map_eq_some_iff.mp last
    cases hs
    obtain ⟨inLog, bounds⟩ := mem_filter.mp (Rows.mem_sortBy.mp (mem_of_getLast? hf))
    simp only [Bool.and_eq_true, decide_eq_true_eq] at bounds
    exact ⟨bounds.2, row, inLog, rfl, rfl⟩
  | prune tx seq hash =>
    refine keeps_inTx sound (fun mem => ?_) served
    obtain ⟨⟨cutoff, last⟩, length⟩ := hal
    obtain ⟨lock, fact⟩ := (hsn _ last).2 mem
    obtain ⟨hex, row, inLog, rfl, rfl⟩ := fact seq hash rfl
    exact sound.keeps_prune lock inLog hex length
  | countUnchained | readRows => exact keeps_answer (read a trivial) served
  | lockCursor tx =>
    simp only [serve] at served
    split at served
    · next free =>
      refine keeps_inTx sound (fun mem => ?_) served
      exact ⟨{ Later.refl db with cursor := fun t _ _ lock => ⟨lock_of_free free lock, rfl⟩ },
        { sound with }, ⟨sound.live tx mem, fun _ => ⟨rfl, rfl⟩⟩,
        fun first last hp => (sound.pending first last hp).2.1⟩
    · contradiction
  | nextRange tx hex batch =>
    obtain ⟨⟨begun, lock⟩, -⟩ := hsn _ hal
    refine keeps_inTx sound (fun _ => ⟨.refl db, sound, begun, fun mem =>
      ⟨(lock mem).1, fun first last next => ?_⟩⟩) served
    have cur : db.exported = hex := (congrArg Cursor.exportedSeq (lock mem).2).symm
    rw [← cur] at next
    exact sound.nextRange next
  | storePending tx first last =>
    refine keeps_inTx sound (fun mem => ?_) served
    obtain ⟨hex, batch, next⟩ := hal
    obtain ⟨lock, fact⟩ := (hsn _ next).2 mem
    exact sound.keeps_storePending lock (fact first last rfl)
  | readRange first last =>
    exact keeps_answer (read a fun hrd hck => sound.sliced hrd hck) served
  | putLocked first last body =>
    obtain ⟨hcla, records, hck⟩ := hal
    have hrd : first ≤ last := by
      rcases hcla with ⟨tx, hex, hp⟩ | ⟨tx, hst⟩
      · exact (hsn _ hp).2 first last rfl
      · exact hsn _ hst
    simp only [serve] at served
    split at served
    · exact keeps_answer (sound.keeps_error _ _) served
    · have put := sound.keeps_putLocked (hsn _ records hrd hck)
      exact keeps_answer (keeps_reply a put) served
  | advanceCursor first last =>
    obtain ⟨body, put⟩ := hal
    simp only [serve] at served
    split at served
    · contradiction
    next hunl =>
    split at served
    · exact keeps_answer (sound.keeps_error _ _) served
    split at served
    · next hp =>
      have advanced := sound.keeps_advanceCursor (not_not.mp hunl) hp (hsn _ put)
      exact keeps_answer (keeps_reply a advanced) served
    · exact keeps_answer (read a trivial) served

end

def Sound.Along (sha256 : Bytes → Bytes) (tenantID : Bytes) (tenantPath : List Char)
    (s : Served Database Operation Request Reply) : Prop :=
  Sound sha256 tenantID tenantPath s.state ∧
    ∀ e ∈ s.trace, Witnessed sha256 tenantID tenantPath s.state e.2.1 e.2.2

lemma along_served (alo : Sound.Along sha256 tenantID tenantPath s)
    (hal : Allowed sha256 tenantID past q) (hsn : ∀ e ∈ past, (op, e) ∈ s.trace)
    (served : serve tenantID tenantPath s.state q a = some (state, r)) :
    Later tenantID s.state state ∧
      Sound.Along sha256 tenantID tenantPath ⟨state, (op, ⟨q, r⟩) :: s.trace⟩ := by
  obtain ⟨hla, sound, hk⟩ :=
    serve_keeps alo.1 (fun e mem => alo.2 _ (hsn e mem)) hal served
  exact ⟨hla, sound, forall_mem_cons.mpr ⟨hk, fun e mem => (alo.2 e mem).later hla⟩⟩

lemma along_drop (alo : Sound.Along sha256 tenantID tenantPath s) (e) :
    Later tenantID s.state (change s.state e) ∧
      Sound.Along sha256 tenantID tenantPath { s with state := change s.state e } := by
  obtain ⟨tx⟩ := e
  have hla := later_release tenantID s.state tx
  exact ⟨hla, alo.1.release tx, fun e mem => (alo.2 e mem).later hla⟩

lemma sound_freshLog (unchained : ∀ r ∈ old, r.chainSeq = none) :
    Sound sha256 tenantID tenantPath (freshLog old) := by
  have log : (freshLog old).log tenantID = [] := by
    rw [log, filterMap_eq_nil_iff]
    intro r mem
    simp [StoredRow.chainRow, unchained r mem]
  have written : (freshLog old).written tenantID = [] := by
    rw [written, log]
    rfl
  exact
    { linked := by rw [written]; trivial
      anchored := rfl
      retained := Int.le_refl 0
      reached := by rw [written]; exact Int.le_refl 0
      pending := fun first last none => by cases none
      covered := rfl
      stored := fun _ mem => by cases mem
      bodies := fun _ mem => by cases mem
      live := fun _ mem => by cases mem }

/-- Every run keeps the log sound, and every call to its rules. -/
lemma sound_run (huc : ∀ r ∈ old, r.chainSeq = none) (ss : List AuditStep) :
    let w := run (auditSystem sha256 tenantID tenantPath) { shared := ⟨freshLog old, []⟩ } ss
    Sound.Along sha256 tenantID tenantPath w.shared ∧
      ∀ (i : Nat) c, w.calls[i]? = some c → Lawful (fun _ => True) (fun _ _ => True)
        (fun _ => Allowed sha256 tenantID) (fun _ _ => True) w.shared c := by
  intro w
  have rule := lawful_run (n := 0) (I := Sound.Along sha256 tenantID tenantPath)
    (V := fun _ _ => True) (P := fun _ => Allowed sha256 tenantID) (T := fun _ _ => True)
    (L := fun _ => True) (b := Operation.body sha256 tenantID) (f := serve tenantID tenantPath)
    (g := change) (w := { shared := ⟨freshLog old, []⟩ }) ss
    ⟨sound_freshLog huc, fun e mem => by cases mem⟩ (fun i c _ cl => by simp at cl)
    (Nat.zero_le _) (fun op _ => body_obeys op) (fun _ _ _ _ _ _ none => by omega)
    (fun s op pa q a st r _ alo hal hsn served =>
      ⟨trivial, (along_served alo hal hsn served).2⟩)
    (fun s e alo => (along_drop alo e).2) (fun _ _ => trivial)
  exact ⟨rule.1, fun i c cl => rule.2.1 i c (Nat.zero_le i) cl⟩

end

def zeroHash (_ : Bytes) : Bytes := chainGenesis

def served (i n : Nat) : List AuditStep := List.replicate n (.advance i .served)

/-- A verification has read the anchor when retention deletes the first of two rows. -/
def pruningSteps : List AuditStep :=
  .start (.insert [⟨[97], [], [120], [], [], [], []⟩, ⟨[98], [], [121], [], [], [], []⟩] 5) ::
    served 0 5 ++ .start (.exportTenantOnce 1) :: served 1 7 ++ .start .verifyChain :: served 2 2 ++
    .start (.pruneTenant 9) :: served 3 4 ++ served 2 1

end Gibson.Audit
