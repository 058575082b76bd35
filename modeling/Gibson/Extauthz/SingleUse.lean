import Gibson.Extauthz.Gateway
import Gibson.Lib.Framing

/-! Single use of component tokens. The replicas record an accepted token in one store, by a
set-if-absent that comes after the last look at the clock. -/

namespace Gibson.Extauthz

open List Function

def textBytes (s : String) : List UInt8 := s.toByteArray.data.toList

def replayKey (kid jti : String) : List UInt8 :=
  textBytes "extauthz:cgjwt:replay:" ++ (Framing.frame 58 58 (textBytes kid) ++ textBytes jti)

/-- When each record expires. -/
abbrev ReplayStore := List UInt8 → Option Int

/-- A signed token with its times. -/
structure ComponentToken where
  claims : ComponentClaims
  (exp iat : Option Int)

/-- The verifiers of all replicas. Its `parse` says whether a key has signed a token. -/
structure Replicas extends ComponentVerifier where
  payload : String → ComponentToken
  maxLifetime : Int

/-- A call of Verify: the keys at that time, the readings of the clock in their order, the time of
the write, and whether the store answers. -/
structure Presentation where
  (token method : String)
  resolve : String → Option Descriptor
  (parsed bounded read admitted : Int)
  answered : Bool := true

def replayTTL (exp now : Int) : Option Int := if 0 < exp - now then some (exp - now) else none

namespace Replicas

variable (r : Replicas) (db : ReplayStore) (p : Presentation)

/-- What `jwt.Parse` and `checkLifetime` ask of the times in a token. -/
def livesAt : Bool :=
  match (r.payload p.token).exp, (r.payload p.token).iat with
  | some exp, some iat => p.parsed < exp ∧ iat ≤ p.parsed ∧ exp - iat ≤ r.maxLifetime ∧
      exp - p.bounded ≤ r.maxLifetime
  | _, _ => false

/-- The store behind the check, and whether the token is new. -/
def checkReplay (kid jti : String) : ReplayStore × Option Bool :=
  match (r.payload p.token).exp.bind fun exp => replayTTL exp p.read with
  | none => (db, some false)
  | some ttl =>
    if !p.answered then (db, none)
    else if (db (replayKey kid jti)).any (p.admitted < ·) then (db, some false)
    else (update db (replayKey kid jti) (some (p.admitted + ttl)), some true)

def verify : Except ComponentError ComponentIdentity :=
  ComponentVerifier.verify
    { peekHeader := r.peekHeader
      resolve := p.resolve
      parse := fun token key => (r.parse token key).bind fun _ =>
        if r.livesAt p then some (r.payload token).claims else none
      admitOnce := fun kid jti => (r.checkReplay db p kid jti).2 } p.token p.method

def kid (token : String) : String := ((r.peekHeader token).map Prod.fst).getD ""

/-- The replay check is the last one, so the call writes exactly where it accepts. -/
def after : ReplayStore :=
  if (r.verify db p).isOk then (r.checkReplay db p (r.kid p.token) (r.payload p.token).claims.jti).1
  else db

def accepted : ReplayStore → List Presentation → List Presentation
  | _, [] => []
  | db, p :: rest => (if (r.verify db p).isOk then [p] else []) ++ accepted (r.after db p) rest

/-- No call that still finds time left comes to its write after the token's expiry. -/
def Timely : Prop :=
  p.read ≤ p.admitted ∧ ∀ exp, (r.payload p.token).exp = some exp → p.read < exp → p.admitted < exp

def recordKey (token : String) : List UInt8 := replayKey (r.kid token) (r.payload token).claims.jti

/-- The record of a token stands until its expiry, or the expiry is over. -/
def Spent (token : String) (exp t : Int) : Prop :=
  (∃ x, db (r.recordKey token) = some x ∧ exp ≤ x) ∨ exp ≤ t

end Replicas

lemma replayKey_inj (hs : replayKey kid jti = replayKey kid' jti') : kid = kid' ∧ jti = jti' := by
  have text {s t} (hs : textBytes s = textBytes t) : s = t :=
    String.toByteArray_inj.mp (ByteArray.ext (Array.ext' hs))
  obtain ⟨kids, jtis⟩ := Framing.frame_append_inj (by decide) (append_cancel_left hs)
  exact ⟨text kids, text jtis⟩

section
variable {r : Replicas} {token : String}

/-- An accepted token has time left when the clock is read, and no record at the write. -/
lemma accepted_spec (ok : (r.verify db p).isOk = true) :
    (r.payload p.token).claims.method = p.method ∧
      ∃ exp, (r.payload p.token).exp = some exp ∧ p.read < exp ∧
        (∀ x, db (r.recordKey p.token) = some x → x ≤ p.admitted) ∧ r.after db p =
          update db (r.recordKey p.token) (some (p.admitted + (exp - p.read))) := by
  obtain ⟨cid, hver⟩ : ∃ cid, r.verify db p = .ok cid := by
    cases res : r.verify db p <;> simp_all [Except.isOk, Except.toBool]
  obtain ⟨kid, typ, _, cla, hea, -, -, hpar, met, admits⟩ := Gateway.verify_ok hver
  dsimp only at hea hpar admits
  obtain ⟨_, -, liv⟩ := Option.bind_eq_some_iff.mp hpar
  obtain ⟨-, rfl⟩ : _ ∧ (r.payload p.token).claims = cla := by simpa using liv
  have hn : r.kid p.token = kid := by simp [Replicas.kid, hea]
  refine ⟨met, ?_⟩
  unfold Replicas.after Replicas.recordKey
  rw [if_pos ok, hn]
  unfold Replicas.checkReplay at admits ⊢
  cases hxpi : (r.payload p.token).exp with
  | none => simp [hxpi] at admits
  | some exp =>
    refine ⟨exp, rfl, ?_⟩
    by_cases hle : 0 < exp - p.read
    · simp only [hxpi, Option.bind_some, replayTTL, hle, if_true] at admits ⊢
      split at admits
      · cases admits
      next han =>
      rw [if_neg han]
      split at admits
      · cases admits
      next hab =>
      rw [if_neg hab]
      refine ⟨by omega, fun x hf => ?_, rfl⟩
      simpa [hf] using hab
    · simp only [hxpi, Option.bind_some, replayTTL, hle, if_false] at admits
      cases admits

lemma Replicas.Spent.after (hsnt : r.Spent db token exp t) (le : t ≤ p.admitted) :
    r.Spent (r.after db p) token exp p.admitted := by
  rcases hsnt with ⟨x, hf, las⟩ | late
  · by_cases ok : (r.verify db p).isOk = true
    · obtain ⟨-, _, -, -, hab, write⟩ := accepted_spec ok
      by_cases hs : r.recordKey token = r.recordKey p.token
      · exact .inr (las.trans (hab x (hs ▸ hf)))
      · exact .inl ⟨x, by rw [write, update_of_ne hs, hf], las⟩
    · rw [Replicas.after, if_neg ok]
      exact .inl ⟨x, hf, las⟩
  · exact .inr (late.trans le)

lemma Replicas.Spent.not_accepted (hsnt : r.Spent db token exp t)
    (hxpi : (r.payload token).exp = some exp) (hla : ∀ p ∈ cs, t ≤ p.admitted)
    (hrd : cs.Pairwise (·.admitted ≤ ·.admitted)) (htim : ∀ p ∈ cs, r.Timely p) :
    (r.accepted db cs).filter (·.token = token) = [] := by
  induction cs generalizing db t with
  | nil => rfl
  | cons p cs ih =>
    rw [forall_mem_cons] at hla htim
    rw [pairwise_cons] at hrd
    rw [accepted, filter_append, ih (hsnt.after hla.1) hrd.1 hrd.2 htim.2, append_nil]
    split
    · next ok =>
      obtain ⟨-, exp', exp0, hle, hab, -⟩ := accepted_spec ok
      rw [filter_eq_nil_iff, forall_mem_singleton]
      simp only [decide_eq_true_eq]
      rintro rfl
      cases hxpi.symm.trans exp0
      have soon := htim.1.2 exp hxpi hle
      rcases hsnt with ⟨x, hf, las⟩ | late
      · have := hab x hf
        omega
      · omega
    · rfl

lemma accepted_once (token) (hrd : cs.Pairwise (·.admitted ≤ ·.admitted))
    (htim : ∀ p ∈ cs, r.Timely p) :
    ((r.accepted db cs).filter (·.token = token)).length ≤ 1 := by
  induction cs generalizing db with
  | nil => simp [Replicas.accepted]
  | cons p cs ih =>
    rw [forall_mem_cons] at htim
    rw [pairwise_cons] at hrd
    rw [Replicas.accepted, filter_append, length_append]
    have rs : ((r.accepted (r.after db p) cs).filter (·.token = token)).length ≤ 1 :=
      ih hrd.2 htim.2
    split
    · next ok =>
      by_cases own : p.token = token
      · obtain ⟨-, exp, hxpi, -, -, write⟩ := accepted_spec ok
        have las := htim.1.1
        have hsnt : r.Spent (r.after db p) token exp p.admitted :=
          .inl ⟨_, by rw [write, own, update_self], by omega⟩
        simp [own, hsnt.not_accepted (own ▸ hxpi) hrd.1 hrd.2 htim.2]
      · simpa [own] using rs
    · simpa using rs

lemma accepted_in_time (htim : ∀ p ∈ cs, r.Timely p) :
    ∀ p ∈ r.accepted db cs, (r.payload p.token).claims.method = p.method ∧
      ∃ exp, (r.payload p.token).exp = some exp ∧ p.admitted < exp := by
  induction cs generalizing db with
  | nil => simp [Replicas.accepted]
  | cons q cs ih =>
    rw [forall_mem_cons] at htim
    refine forall_mem_append.mpr ⟨?_, ih htim.2⟩
    split
    · next ok =>
      obtain ⟨met, exp, hxpi, hle, -⟩ := accepted_spec ok
      exact forall_mem_singleton.mpr ⟨met, exp, hxpi, htim.1.2 exp hxpi hle⟩
    · simp

end

/-- Every token is accepted at most once, at its method and before its expiry, and every pair has
its own record, in every interleaving in which no call stalls over a token's expiry. -/
theorem token_single_use (r : Replicas) (calls : List Presentation)
    (ordered : calls.Pairwise (·.admitted ≤ ·.admitted)) (timely : ∀ p ∈ calls, r.Timely p) :
    (∀ token, ((r.accepted (fun _ => none) calls).filter (·.token = token)).length ≤ 1) ∧
      (∀ p ∈ r.accepted (fun _ => none) calls, (r.payload p.token).claims.method = p.method ∧
        ∃ exp, (r.payload p.token).exp = some exp ∧ p.admitted < exp) ∧
      ∀ kid jti kid' jti', replayKey kid jti = replayKey kid' jti' → kid = kid' ∧ jti = jti' :=
  ⟨fun token => accepted_once token ordered timely, accepted_in_time timely,
    fun _ _ _ _ => replayKey_inj⟩

def oneKey : Replicas where
  peekHeader _ := some ("k", componentTokenType)
  resolve _ := none
  parse _ _ := some ⟨"", "", ""⟩
  admitOnce _ _ := none
  payload _ := ⟨⟨"", "j", "m"⟩, some 100, some 40⟩
  maxLifetime := 60

def writtenAt (t : Int) : Presentation :=
  ⟨"t", "m", fun _ => some ⟨"", "p", "t", "active"⟩, 99, 99, 99, t, true⟩

theorem token_single_use_retried :
    ((oneKey.accepted (fun _ => none) [writtenAt 99, writtenAt 99]).filter
      (·.token = "t")).length ≤ 1 :=
  (token_single_use oneKey [writtenAt 99, writtenAt 99] (by simp)
    (by simp [Replicas.Timely, writtenAt, oneKey])).1 "t"

/-- The second call stalls until the record has expired with the token. -/
theorem stalled_call_accepted_again :
    oneKey.accepted (fun _ => none) [writtenAt 99, writtenAt 101] =
      [writtenAt 99, writtenAt 101] := by
  rfl

end Gibson.Extauthz
