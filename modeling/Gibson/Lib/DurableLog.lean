import Mathlib.Data.List.Basic

/-! A durable log behind an unreliable connection. A call may fail before it writes, or write and
lose its reply; an idempotency key makes a repeated append harmless. -/

namespace Gibson.DurableLog

/-- What a store has of a log: its entries in order, and the key of the append that wrote last. -/
structure Record (α κ : Type*) where
  entries : List α
  lastKey : Option κ

section
variable {α κ : Type*} [DecidableEq κ]

def Record.write (r : Record α κ) (key : κ) (x : α) : Record α κ :=
  if r.lastKey = some key then r else { entries := r.entries ++ [x], lastKey := some key }

lemma Record.write_lastKey (r : Record α κ) (key : κ) (x : α) :
    (r.write key x).lastKey = some key := by
  unfold Record.write
  split
  · assumption
  · rfl

lemma Record.write_write (r : Record α κ) (key : κ) (x y : α) :
    (r.write key x).write key y = r.write key x := by
  have hlt := r.write_lastKey key x
  rw [Record.write, if_pos hlt]

lemma Record.write_fresh {r : Record α κ} (h : r.lastKey ≠ some key) (x : α) :
    r.write key x = { entries := r.entries ++ [x], lastKey := some key } :=
  if_neg h

end

/-- A store of a log of `α`, with keys `κ`, positions `ι` and snapshots `σ`. Its state decides which
calls fail. -/
structure Store (α κ ι σ : Type) [DecidableEq κ] where
  State : Type
  init : State
  append : State → κ → α → State × Except String ι
  writeSnapshot : State → σ → State × Option ι
  trimTo : State → ι → State × Bool
  /-- What the store holds, in the live stream and in the history that a trim keeps. -/
  record : State → Record α κ
  record_init : record init = { entries := [], lastKey := none }
  /-- An append that replies has written. -/
  record_append_ok : ∀ s key x i, (append s key x).2 = .ok i →
    record (append s key x).1 = (record s).write key x
  /-- An append without a reply may have written. -/
  record_append : ∀ s key x, record (append s key x).1 = record s ∨
    record (append s key x).1 = (record s).write key x
  record_writeSnapshot : ∀ s snap, record (writeSnapshot s snap).1 = record s
  record_trimTo : ∀ s i, record (trimTo s i).1 = record s

namespace Store

variable {α κ ι σ : Type} [DecidableEq κ] (S : Store α κ ι σ)

/-- The entries of the log, those that a trim removed from the stream included. -/
def history (s : S.State) : List α := (S.record s).entries

def appendRetry (key : κ) (x : α) : Nat → String → S.State → S.State × Except String ι
  | 0, lastErr, s => (s, .error lastErr)
  | n + 1, _, s =>
    match S.append s key x with
    | (s', .ok i) => (s', .ok i)
    | (s', .error err) => appendRetry key x n err s'

lemma record_appendRetry (key : κ) (x : α) (n : Nat) (las s) :
    (S.record (S.appendRetry key x n las s).1 = S.record s ∨
        S.record (S.appendRetry key x n las s).1 = (S.record s).write key x) ∧
      ∀ i, (S.appendRetry key x n las s).2 = .ok i →
        S.record (S.appendRetry key x n las s).1 = (S.record s).write key x := by
  induction n generalizing las s with
  | zero => exact ⟨Or.inl rfl, fun i ok => by simp [appendRetry] at ok⟩
  | succ n ih =>
    have step := S.record_append s key x
    have ste := S.record_append_ok s key x
    unfold appendRetry
    cases attempt : S.append s key x with
    | mk s' rp =>
      rw [attempt] at step ste
      cases rp with
      | ok i => exact ⟨step, fun j _ => ste i rfl⟩
      | error err =>
        have rs := ih err s'
        rcases step with hs | written
        · rwa [hs] at rs
        · rw [written, Record.write_write] at rs
          exact ⟨Or.inr (rs.1.elim id id), rs.2⟩

inductive Fate where
  | replies
  | fails
  | losesReply

/-- A store in memory whose appends meet the given fates and then all reply. -/
def scripted (α κ σ : Type) [DecidableEq κ] (fates : List Fate) : Store α κ Nat σ where
  State := Record α κ × List Fate
  init := ({ entries := [], lastKey := none }, fates)
  append s key x :=
    match s.2.head? with
    | none | some .replies =>
      ((s.1.write key x, s.2.tail), .ok (s.1.write key x).entries.length)
    | some .fails => ((s.1, s.2.tail), .error "unavailable")
    | some .losesReply => ((s.1.write key x, s.2.tail), .error "timeout")
  writeSnapshot s _ := (s, some s.1.entries.length)
  trimTo s _ := (s, true)
  record := Prod.fst
  record_init := rfl
  record_append_ok s key x i ok := by
    split at ok <;> simp_all
  record_append s key x := by
    split <;> simp
  record_writeSnapshot _ _ := rfl
  record_trimTo _ _ := rfl

end Store
end Gibson.DurableLog
