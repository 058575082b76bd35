import Gibson.Lib.Base64
import Gibson.Lib.Framing

/-! The signed page tokens of the paged lists. A token holds the sort key of the last item, and its
signature covers the scope of the request. Strings are byte strings. -/

namespace Gibson.Platform

open Base64 Framing Option

abbrev Bytes := List UInt8

inductive PageError where
  | badToken
  | noSigner

/-- The start of the cursor inside a token, `k:`. -/
def keysetPrefix : Bytes := [107, 58]

/-- The key of a server. -/
structure Signer (K : Type) where
  key : K

def cut (sep : UInt8) : Bytes → Option (Bytes × Bytes)
  | [] => none
  | b :: rest => if b = sep then some ([], rest) else (cut sep rest).map fun (x, y) => (b :: x, y)

def cutPrefix (start text : Bytes) : Option Bytes :=
  if start.isPrefixOf text then some (text.drop start.length) else none

section
variable {K : Type} (hmac : K → Bytes → Bytes)

/-- The signature of a scope and a payload. Each field of the scope is written as `%d:%s|`. -/
def Signer.mac (signer : Signer K) (scope : List Bytes) (payload : Bytes) : Bytes :=
  hmac signer.key (frames 58 124 scope ++ payload)

def Signer.token (signer : Signer K) (scope : List Bytes) (lastKey : Bytes) : Bytes :=
  let payload := keysetPrefix ++ lastKey
  encode payload ++ 46 :: encode (signer.mac hmac scope payload)

/-- The sort key that a token holds, or none for the first page, which has no token. -/
def Signer.after (signer : Signer K) (scope : List Bytes) (token : Bytes) :
    Except PageError (Option Bytes) :=
  if token = [] then .ok none
  else match cut 46 token with
    | none => .error .badToken
    | some (pStr, sStr) =>
      match decode pStr with
      | none => .error .badToken
      | some payload =>
        match decode sStr with
        | none => .error .badToken
        | some sig =>
          if sig ≠ signer.mac hmac scope payload then .error .badToken
          else match cutPrefix keysetPrefix payload with
            | none => .error .badToken
            | some rest => .ok (some rest)

def defaultSize : Nat := 100

def maxSize : Nat := 1000

def size (pageSize : Int) : Nat :=
  if pageSize ≤ 0 then defaultSize
  else if maxSize < pageSize then maxSize
  else pageSize.toNat

/-- A list request with its token read. -/
structure Request (K : Type) where
  signer : Signer K
  scope : List Bytes
  after : Option Bytes
  limit : Nat

def newRequest (signer : Option (Signer K)) (scope : List Bytes) (pageSize : Int) (token : Bytes) :
    Except PageError (Request K) :=
  match signer with
  | none => .error .noSigner
  | some signer =>
    match signer.after hmac scope token with
    | .error e => .error e
    | .ok after => .ok ⟨signer, scope, after, size pageSize⟩

/-- The token of the next page. The last page has none. -/
def Request.token (r : Request K) (last : Bytes) (more : Bool) : Bytes :=
  if more then r.signer.token hmac r.scope last else []

end

/-- The payload and the signature that a token decodes to. -/
def tokenParts (token : Bytes) : Option (Bytes × Bytes) := do
  let (pStr, sStr) ← cut 46 token
  let payload ← decode pStr
  let sig ← decode sStr
  return (payload, sig)

lemma cut_append (y) (free : ∀ b ∈ x, b ≠ sep) : cut sep (x ++ sep :: y) = some (x, y) := by
  induction x with
  | nil => simp [cut]
  | cons b x ih =>
    have hla := ih fun c mem => free c (List.mem_cons_of_mem _ mem)
    simp [cut, free b List.mem_cons_self, hla]

lemma cutPrefix_eq_some : cutPrefix start text = some rest ↔ text = start ++ rest := by
  unfold cutPrefix
  constructor
  · intro hf
    split at hf
    · obtain ⟨tail, rfl⟩ := List.isPrefixOf_iff_prefix.mp ‹_›
      simpa using hf
    · contradiction
  · rintro rfl
    simp

section
variable {K : Type} {hmac : K → Bytes → Bytes}

lemma tokenParts_token (sgn : Signer K) (scope key) :
    tokenParts (sgn.token hmac scope key) =
      some (keysetPrefix ++ key, sgn.mac hmac scope (keysetPrefix ++ key)) := by
  have par := cut_append (encode (sgn.mac hmac scope (keysetPrefix ++ key)))
    (fun b (mem : b ∈ encode (keysetPrefix ++ key)) => (mem_encode mem).2)
  simp only [tokenParts, Signer.token, par, decode_encode, bind_eq_bind, bind_some,
    pure_def]

lemma after_eq_ok {sgn : Signer K} :
    sgn.after hmac scope tk = .ok (some key) ↔
      tokenParts tk = some (keysetPrefix ++ key, sgn.mac hmac scope (keysetPrefix ++ key)) := by
  unfold Signer.after tokenParts
  by_cases hem : tk = []
  · subst hem
    simp [cut]
  rw [if_neg hem]
  rcases par : cut 46 tk with _ | ⟨pStr, sStr⟩
  · simp
  rcases h1 : decode pStr with _ | payload
  · simp [h1]
  rcases h2 : decode sStr with _ | sig
  · simp [h1, h2]
  · simp only [h1, h2, bind_eq_bind, bind_some, pure_def, some.injEq, Prod.mk.injEq]
    constructor
    · intro hac
      split at hac
      · contradiction
      rename_i sig0
      split at hac
      · contradiction
      rename_i rs hf
      obtain rfl : rs = key := by simpa using hac
      obtain rfl := cutPrefix_eq_some.mp hf
      exact ⟨rfl, not_not.mp sig0⟩
    · rintro ⟨rfl, rfl⟩
      simp [cutPrefix_eq_some.mpr rfl]

/-- The token of a page makes the request for the next one: it goes on after the last key. -/
lemma newRequest_token (r : Request K) (last pageSize) :
    newRequest hmac (some r.signer) r.scope pageSize (r.token hmac last true) =
      .ok { r with after := some last, limit := size pageSize } := by
  have rd : r.signer.after hmac r.scope (r.signer.token hmac r.scope last) = .ok (some last) :=
    after_eq_ok.mpr (tokenParts_token r.signer r.scope last)
  simp only [newRequest, Request.token, if_true, rd]

lemma keysetPrefix_head (key) : ∀ b ∈ (keysetPrefix ++ key).head?, isDigit b = false := by
  intro b hd
  obtain rfl : 107 = b := by simpa [keysetPrefix] using hd
  decide

/-- A token that was given out. -/
structure Issued (K : Type) where
  signer : Signer K
  scope : List Bytes
  position : Bytes

/-- Only a signer evaluates the HMAC, so a signature in a token is one of the issued ones. The
payload is free. -/
def BuiltFrom (hmac : K → Bytes → Bytes) (issued : List (Issued K)) (token : Bytes) : Prop :=
  ∀ payload sig, tokenParts token = some (payload, sig) →
    ∃ i ∈ issued, sig = i.signer.mac hmac i.scope (keysetPrefix ++ i.position)

theorem token_bound_to_scope (hmac : K → Bytes → Bytes) (keyed : Function.Injective2 hmac) :
    (∀ (signer : Signer K) scope token key, signer.after hmac scope token = .ok (some key) →
      tokenParts token = some (keysetPrefix ++ key, signer.mac hmac scope (keysetPrefix ++ key)) ∧
        tokenParts token = tokenParts (signer.token hmac scope key)) ∧
    (∀ issued (signer : Signer K) scope token key, BuiltFrom hmac issued token →
      signer.after hmac scope token = .ok (some key) → ⟨signer, scope, key⟩ ∈ issued) ∧
    (∀ (signer : Signer K) scope key,
      signer.after hmac scope (signer.token hmac scope key) = .ok (some key)) := by
  refine ⟨?_, ?_, fun signer scope key => after_eq_ok.mpr (tokenParts_token signer scope key)⟩
  · intro signer scope token key hac
    have par := after_eq_ok.mp hac
    exact ⟨par, by rw [par, tokenParts_token]⟩
  · intro issued signer scope token key hbu hac
    -- the signature was issued for some scope and sort key, and the signed bytes can be read in one
    -- way only
    obtain ⟨⟨sig', sco', key'⟩, mem, hs⟩ := hbu _ _ (after_eq_ok.mp hac)
    obtain ⟨keys, tex⟩ := keyed hs
    obtain ⟨rfl, pay⟩ := frames_append_inj (by decide) (keysetPrefix_head key)
      (keysetPrefix_head key') tex
    obtain rfl := List.append_cancel_left pay
    cases signer
    cases sig'
    cases keys
    exact mem

end

def framedMac (key bytes : Bytes) : Bytes := frame 58 124 key ++ bytes

lemma framedMac_injective : Function.Injective2 framedMac := by
  intro key key' bytes byt' hs
  exact frame_append_inj (by decide) hs

theorem token_bound_to_scope_framed : Function.Injective2 framedMac ∧
      Signer.after framedMac ⟨[1]⟩ [[97], [98]] (Signer.token framedMac ⟨[1]⟩ [[97], [98]] [99]) =
        .ok (some [99]) :=
  ⟨framedMac_injective, (token_bound_to_scope framedMac framedMac_injective).2.2 ⟨[1]⟩ _ _⟩

end Gibson.Platform
