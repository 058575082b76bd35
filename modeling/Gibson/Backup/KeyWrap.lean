import Mathlib.Data.UInt
import Gibson.Lib.Loops

/-! Backup blobs: a fresh data key, wrapped with the tenant's key, a nonce and the ciphertext. AES
under one key is an arbitrary permutation of blocks. -/

namespace Gibson.Backup

open List (finRange length_append length_cons range replicate)

abbrev Bytes := List UInt8

/-- A 64-bit block. -/
structure Half where
  (b0 b1 b2 b3 b4 b5 b6 b7 : UInt8)
  deriving DecidableEq

def Half.bytes (h : Half) : Bytes := [h.b0, h.b1, h.b2, h.b3, h.b4, h.b5, h.b6, h.b7]

/-- The buffer of the loops: the integrity register and one half of the key data. -/
abbrev Block := Half × Half

def halves : Bytes → List Half
  | b0 :: b1 :: b2 :: b3 :: b4 :: b5 :: b6 :: b7 :: rest =>
    ⟨b0, b1, b2, b3, b4, b5, b6, b7⟩ :: halves rest
  | _ => []

def joinHalves (hs : List Half) : Bytes := hs.flatMap Half.bytes

def putUint64 (t : Nat) : Half :=
  let byte (i : Nat) : UInt8 := UInt8.ofNat (t / 256 ^ i)
  ⟨byte 7, byte 6, byte 5, byte 4, byte 3, byte 2, byte 1, byte 0⟩

def xorUint64 (b : Half) (t : Nat) : Half :=
  let tmp := putUint64 t
  ⟨b.b0 ^^^ tmp.b0, b.b1 ^^^ tmp.b1, b.b2 ^^^ tmp.b2, b.b3 ^^^ tmp.b3, b.b4 ^^^ tmp.b4,
    b.b5 ^^^ tmp.b5, b.b6 ^^^ tmp.b6, b.b7 ^^^ tmp.b7⟩

def defaultIV : Half := ⟨0xA6, 0xA6, 0xA6, 0xA6, 0xA6, 0xA6, 0xA6, 0xA6⟩

inductive Error where
  /-- envelope: KEK must be 16, 24, or 32 bytes (AES-128/192/256) -/
  | invalidKEKLength
  /-- envelope: blob too short: %d bytes -/
  | blobTooShort (length : Nat)
  /-- crypto/aes: invalid key size %d -/
  | keySize (length : Nat)
  /-- envelope/aeskw: key data length must be a multiple of 8 -/
  | keyDataLength
  /-- envelope/aeskw: invalid wrapped key length -/
  | wrappedKeyLength
  /-- envelope/aeskw: integrity check failed — wrong KEK or corrupt blob -/
  | integrity
  /-- envelope: GCM decrypt -/
  | gcmDecrypt

/-- The registers of RFC 3394. -/
structure Registers (n : Nat) where
  A : Half
  R : Vector Half n

/-- A key length that the cipher accepts. -/
def KeyLength (key : Bytes) : Prop := key.length = 16 ∨ key.length = 24 ∨ key.length = 32

instance (key : Bytes) : Decidable (KeyLength key) :=
  inferInstanceAs (Decidable (_ ∨ _ ∨ _))

section Cipher
variable (aes : Bytes → Equiv.Perm Block)

def newCipher (key : Bytes) : Except Error (Equiv.Perm Block) :=
  if KeyLength key then .ok (aes key) else .error (.keySize key.length)

variable {n : Nat} (block : Equiv.Perm Block)

/-- The body of the inner loop in round `j`: the counter goes into what the cipher gave. -/
def wrapStep (j : Nat) (s : Registers n) (i : Fin n) : Registers n :=
  let buf := block (s.A, s.R[i])
  ⟨xorUint64 buf.1 (n * j + i + 1), s.R.set i buf.2⟩

def unwrapStep (j : Nat) (s : Registers n) (i : Fin n) : Registers n :=
  let buf := block.symm (xorUint64 s.A (n * j + i + 1), s.R[i])
  ⟨buf.1, s.R.set i buf.2⟩

def wrapRound (s : Registers n) (j : Nat) : Registers n :=
  (finRange n).foldl (wrapStep block j) s

def unwrapRound (s : Registers n) (j : Nat) : Registers n :=
  (finRange n).reverse.foldl (unwrapStep block j) s

def wrapLoop (s : Registers n) : Registers n := (range 6).foldl (wrapRound block) s

def unwrapLoop (s : Registers n) : Registers n :=
  (range 6).reverse.foldl (unwrapRound block) s

def wrapHalves (A : Half) (R : List Half) : Half × List Half :=
  let out := wrapLoop block ⟨A, ⟨R.toArray, rfl⟩⟩
  (out.A, out.R.toList)

def unwrapHalves (A : Half) (R : List Half) : Half × List Half :=
  let out := unwrapLoop block ⟨A, ⟨R.toArray, rfl⟩⟩
  (out.A, out.R.toList)

def aesKeyWrap (kek keyData : Bytes) : Except Error Bytes := do
  if keyData.length % 8 ≠ 0 then throw .keyDataLength
  let block ← newCipher aes kek
  let (A, R) := wrapHalves block defaultIV (halves keyData)
  return A.bytes ++ joinHalves R

def aesKeyUnwrap (kek wrappedKey : Bytes) : Except Error Bytes := do
  if wrappedKey.length < 24 ∨ (wrappedKey.length - 8) % 8 ≠ 0 then throw .wrappedKeyLength
  let block ← newCipher aes kek
  match halves wrappedKey with
  -- the length check leaves at least three halves
  | [] => throw .wrappedKeyLength
  | first :: rest =>
    let (A, R) := unwrapHalves block first rest
    if A ≠ defaultIV then throw .integrity
    return joinHalves R

end Cipher

@[simp] lemma Half.length_bytes (h : Half) : h.bytes.length = 8 := rfl

@[simp] lemma halves_bytes_append (h rest) : halves (h.bytes ++ rest) = h :: halves rest := rfl

@[simp] lemma joinHalves_cons (h hs) : joinHalves (h :: hs) = h.bytes ++ joinHalves hs := rfl

@[simp] lemma halves_joinHalves (hs) : halves (joinHalves hs) = hs := by
  induction hs with
  | nil => rfl
  | cons h hs ih => rw [joinHalves_cons, halves_bytes_append, ih]

@[simp] lemma length_joinHalves (hs : List Half) : (joinHalves hs).length = 8 * hs.length := by
  induction hs with
  | nil => rfl
  | cons h hs ih =>
    rw [joinHalves_cons, length_append, Half.length_bytes, ih, length_cons]
    omega

/-- Bytes that fill the halves are what the halves hold. -/
lemma joinHalves_halves :
    ∀ {bytes : Bytes}, bytes.length % 8 = 0 → joinHalves (halves bytes) = bytes
  | [], _ => rfl
  | b0 :: b1 :: b2 :: b3 :: b4 :: b5 :: b6 :: b7 :: rs, hfu => by
    have rs : rs.length % 8 = 0 := by
      simp only [length_cons] at hfu
      omega
    rw [halves, joinHalves_cons, joinHalves_halves rs]
    rfl
  | [_], hfu | [_, _], hfu | [_, _, _], hfu | [_, _, _, _], hfu | [_, _, _, _, _], hfu
  | [_, _, _, _, _, _], hfu | [_, _, _, _, _, _, _], hfu => by simp at hfu

lemma length_halves (hfu : bytes.length % 8 = 0) : 8 * (halves bytes).length = bytes.length := by
  rw [← length_joinHalves, joinHalves_halves hfu]

@[simp] lemma xorUint64_xorUint64 (b) (t : Nat) : xorUint64 (xorUint64 b t) t = b := by
  simp only [xorUint64, UInt8.xor_assoc, UInt8.xor_self, UInt8.xor_zero]

section Inverse
variable (block : Equiv.Perm Block)

lemma wrapRound_unwrapRound (j : Nat) (s : Registers n) :
    wrapRound block (unwrapRound block s j) j = s := by
  simpa [wrapRound, unwrapRound] using
    Loops.foldl_reverse_foldl (fun i s => by simp [unwrapStep, wrapStep])
      (finRange n).reverse s

lemma unwrapLoop_wrapLoop (s : Registers n) : unwrapLoop block (wrapLoop block s) = s :=
  Loops.foldl_reverse_foldl (fun _ =>
    Loops.foldl_reverse_foldl (fun i s => by simp [unwrapStep, wrapStep]) _) _ s

lemma wrapLoop_unwrapLoop (s : Registers n) : wrapLoop block (unwrapLoop block s) = s := by
  simpa only [wrapLoop, unwrapLoop, List.reverse_reverse] using
    Loops.foldl_reverse_foldl (wrapRound_unwrapRound block) (range 6).reverse s

lemma wrapHalves_toList (A) (R : Vector Half n) :
    wrapHalves block A R.toList = ((wrapLoop block ⟨A, R⟩).A, (wrapLoop block ⟨A, R⟩).R.toList) := by
  obtain ⟨⟨list⟩, sz⟩ := R
  subst sz
  rfl

lemma unwrapHalves_toList (A) (R : Vector Half n) : unwrapHalves block A R.toList =
      ((unwrapLoop block ⟨A, R⟩).A, (unwrapLoop block ⟨A, R⟩).R.toList) := by
  obtain ⟨⟨list⟩, sz⟩ := R
  subst sz
  rfl

lemma unwrapHalves_wrapHalves (A R) :
    unwrapHalves block (wrapHalves block A R).1 (wrapHalves block A R).2 = (A, R) := by
  rw [wrapHalves, unwrapHalves_toList]
  exact congrArg (fun s => (s.A, s.R.toList)) (unwrapLoop_wrapLoop block ⟨A, ⟨R.toArray, rfl⟩⟩)

lemma wrapHalves_unwrapHalves (A R) :
    wrapHalves block (unwrapHalves block A R).1 (unwrapHalves block A R).2 = (A, R) := by
  rw [unwrapHalves, wrapHalves_toList]
  exact congrArg (fun s => (s.A, s.R.toList)) (wrapLoop_unwrapLoop block ⟨A, ⟨R.toArray, rfl⟩⟩)

@[simp] lemma length_wrapHalves (A R) : (wrapHalves block A R).2.length = R.length := by
  simp [wrapHalves]

@[simp] lemma length_unwrapHalves (A R) : (unwrapHalves block A R).2.length = R.length := by
  simp [unwrapHalves]

end Inverse

section Wrap
variable {aes : Bytes → Equiv.Perm Block} {kek d : Bytes}

lemma newCipher_eq_ok : newCipher aes kek = .ok block ↔ KeyLength kek ∧ block = aes kek := by
  by_cases hft : KeyLength kek
  · rw [newCipher, if_pos hft]
    simp [hft, eq_comm]
  · rw [newCipher, if_neg hft]
    simp [hft]

def wrapped (block : Equiv.Perm Block) (R : List Half) : Bytes :=
  (wrapHalves block defaultIV R).1.bytes ++ joinHalves (wrapHalves block defaultIV R).2

lemma length_wrapped (block : Equiv.Perm Block) (R : List Half) :
    (wrapped block R).length = 8 * R.length + 8 := by
  rw [wrapped, length_append, Half.length_bytes, length_joinHalves, length_wrapHalves]
  omega

lemma aesKeyWrap_eq_ok : aesKeyWrap aes kek d = .ok w ↔
      d.length % 8 = 0 ∧ KeyLength kek ∧ w = wrapped (aes kek) (halves d) := by
  by_cases hfu : d.length % 8 = 0
  · simp only [aesKeyWrap, hfu, ne_eq, not_true_eq_false, if_false, true_and, Loops.bind_ok_iff,
      newCipher_eq_ok]
    constructor
    · rintro ⟨_, ⟨hft, rfl⟩, out⟩
      exact ⟨hft, (Except.ok.inj out).symm⟩
    · rintro ⟨hft, rfl⟩
      exact ⟨_, ⟨hft, rfl⟩, rfl⟩
  · simp [aesKeyWrap, hfu, throw, throwThe, MonadExceptOf.throw, bind, Except.bind]

/-- Unwrapping succeeds exactly on the wrapped forms of two halves or more, and gives the halves. -/
lemma aesKeyUnwrap_eq_ok : aesKeyUnwrap aes kek w = .ok d ↔
      KeyLength kek ∧ ∃ R : List Half, 2 ≤ R.length ∧ w = wrapped (aes kek) R ∧
        d = joinHalves R := by
  constructor
  · intro ok
    by_cases bad : w.length < 24 ∨ (w.length - 8) % 8 ≠ 0
    · simp [aesKeyUnwrap, bad, throw, throwThe, MonadExceptOf.throw, bind, Except.bind] at ok
    simp only [aesKeyUnwrap, bad, if_false, Loops.bind_ok_iff, newCipher_eq_ok] at ok
    obtain ⟨_, ⟨hft, rfl⟩, ok⟩ := ok
    have hfu : w.length % 8 = 0 := by omega
    have ct := length_halves hfu
    cases par : halves w with
    | nil =>
      rw [par] at ct
      simp at ct
      omega
    | cons h1 rs =>
      simp only [par] at ok
      by_cases iv : (unwrapHalves (aes kek) h1 rs).1 = defaultIV
      · simp only [iv, ne_eq, not_true_eq_false, if_false] at ok
        refine ⟨hft, (unwrapHalves (aes kek) h1 rs).2, ?_, ?_, (Except.ok.inj ok).symm⟩
        · rw [par, length_cons] at ct
          rw [length_unwrapHalves]
          omega
        · rw [wrapped, ← iv, wrapHalves_unwrapHalves, ← joinHalves_cons, ← par,
            joinHalves_halves hfu]
      · simp [iv, throw, throwThe, MonadExceptOf.throw, bind, Except.bind] at ok
  · rintro ⟨hft, R, long, rfl, rfl⟩
    have ct := length_wrapped (aes kek) R
    have good : ¬((wrapped (aes kek) R).length < 24 ∨ ((wrapped (aes kek) R).length - 8) % 8 ≠ 0) := by
      omega
    simp only [aesKeyUnwrap, good, if_false, Loops.bind_ok_iff, newCipher_eq_ok]
    refine ⟨_, ⟨hft, rfl⟩, ?_⟩
    have par : halves (wrapped (aes kek) R) =
        (wrapHalves (aes kek) defaultIV R).1 :: (wrapHalves (aes kek) defaultIV R).2 := by
      rw [wrapped, halves_bytes_append, halves_joinHalves]
    simp only [par, unwrapHalves_wrapHalves, ne_eq, not_true_eq_false, if_false]
    rfl

lemma aesKeyUnwrap_aesKeyWrap (key : KeyLength kek) (sz : d.length = 8 * n) (two : 2 ≤ n) :
    ∃ w, aesKeyWrap aes kek d = .ok w ∧ w.length = d.length + 8 ∧
      aesKeyUnwrap aes kek w = .ok d := by
  have hfu : d.length % 8 = 0 := by omega
  have ct := length_halves hfu
  refine ⟨_, aesKeyWrap_eq_ok.mpr ⟨hfu, key, rfl⟩, by rw [length_wrapped, ct], ?_⟩
  exact aesKeyUnwrap_eq_ok.mpr ⟨key, halves d, by omega, rfl, (joinHalves_halves hfu).symm⟩

end Wrap

/-- GCM with 12-byte nonces and no additional data. -/
structure Gcm where
  encrypt : Bytes → Bytes → Bytes → Bytes
  decrypt : Bytes → Bytes → Bytes → Option Bytes
  length_encrypt : ∀ key nonce text, (encrypt key nonce text).length = text.length + 16
  decrypt_encrypt : ∀ key nonce text, decrypt key nonce (encrypt key nonce text) = some text

def dekLen : Nat := 32
def nonceLen : Nat := 12
def wrappedDEKLen : Nat := 40
def headerLen : Nat := wrappedDEKLen + nonceLen

section Blob
variable (aes : Bytes → Equiv.Perm Block) (gcm : Gcm)

def validateKEKLen (kek : Bytes) : Except Error Unit :=
  if KeyLength kek then .ok () else .error .invalidKEKLength

/-- The blob that is written. The data key and the nonce are random, and no read or write fails. -/
def sealBlob (kek plaintext : Bytes) (dek : Vector UInt8 dekLen) (nonce : Vector UInt8 nonceLen) :
    Except Error Bytes := do
  validateKEKLen kek
  let wrappedDEK ← aesKeyWrap aes kek dek.toList
  let _ ← newCipher aes dek.toList
  return wrappedDEK ++ nonce.toList ++ gcm.encrypt dek.toList nonce.toList plaintext

def openBlob (kek blob : Bytes) : Except Error Bytes := do
  validateKEKLen kek
  if blob.length < headerLen + 16 then throw (.blobTooShort blob.length)
  let wrappedDEK := blob.take wrappedDEKLen
  let nonce := (blob.take headerLen).drop wrappedDEKLen
  let ciphertext := blob.drop headerLen
  let dek ← aesKeyUnwrap aes kek wrappedDEK
  let _ ← newCipher aes dek
  match gcm.decrypt dek nonce ciphertext with
  | none => throw .gcmDecrypt
  | some plaintext => return plaintext

variable {aes gcm}

/-- Every plaintext is sealed, and the blob opens to it. -/
lemma openBlob_sealBlob (key : KeyLength kek) (plaintext) (dek : Vector UInt8 dekLen)
    (non0 : Vector UInt8 nonceLen) :
    ∃ blob, sealBlob aes gcm kek plaintext dek non0 = .ok blob ∧
      openBlob aes gcm kek blob = .ok plaintext := by
  have dek0 : dek.toList.length = 32 := dek.length_toList
  have non : non0.toList.length = 12 := non0.length_toList
  obtain ⟨w, wrap, sz, unw⟩ :=
    @aesKeyUnwrap_aesKeyWrap aes kek dek.toList 4 key (by rw [dek0]) (by omega)
  rw [dek0] at sz
  have hft : KeyLength dek.toList := .inr (.inr dek0)
  have cip := newCipher_eq_ok.mpr ⟨hft, (rfl : aes dek.toList = aes dek.toList)⟩
  have hva : validateKEKLen kek = .ok () := if_pos key
  refine ⟨w ++ non0.toList ++ gcm.encrypt dek.toList non0.toList plaintext, ?_, ?_⟩
  · rw [sealBlob, hva, wrap, cip]
    rfl
  have long : ¬(w ++ non0.toList ++ gcm.encrypt dek.toList non0.toList plaintext).length <
      headerLen + 16 := by
    rw [length_append, length_append, sz, non, gcm.length_encrypt, headerLen,
      wrappedDEKLen, nonceLen]
    omega
  have fro : (w ++ non0.toList).length = headerLen := by
    rw [length_append, sz, non]
    rfl
  have h1 : (w ++ non0.toList ++ gcm.encrypt dek.toList non0.toList plaintext).take
      wrappedDEKLen = w := by
    rw [List.append_assoc]
    exact List.take_left' sz
  have h2 : ((w ++ non0.toList ++ gcm.encrypt dek.toList non0.toList plaintext).take
      headerLen).drop wrappedDEKLen = non0.toList := by
    rw [List.take_left' fro]
    exact List.drop_left' sz
  have thi : (w ++ non0.toList ++ gcm.encrypt dek.toList non0.toList plaintext).drop
      headerLen = gcm.encrypt dek.toList non0.toList plaintext := List.drop_left' fro
  simp only [openBlob, hva, h1, h2, thi, unw, cip, long, if_false, bind,
    Except.bind, pure, Except.pure, gcm.decrypt_encrypt]

end Blob

/-- What the key wrap wraps it unwraps, and nothing else; a sealed blob opens to its plaintext. -/
theorem key_wrap_exact (aes : Bytes → Equiv.Perm Block) (gcm : Gcm) (kek : Bytes)
    (key : KeyLength kek) :
    (∀ d n, d.length = 8 * n → 2 ≤ n →
      ∃ w, aesKeyWrap aes kek d = .ok w ∧ aesKeyUnwrap aes kek w = .ok d) ∧
    (∀ w d, aesKeyUnwrap aes kek w = .ok d → aesKeyWrap aes kek d = .ok w) ∧
    ∀ plaintext dek nonce, ∃ blob, sealBlob aes gcm kek plaintext dek nonce = .ok blob ∧
      openBlob aes gcm kek blob = .ok plaintext := by
  refine ⟨fun d n sz two => ?_, fun w d ok => ?_, openBlob_sealBlob key⟩
  · obtain ⟨w, wrap, -, unw⟩ := @aesKeyUnwrap_aesKeyWrap aes kek d n key sz two
    exact ⟨w, wrap, unw⟩
  · obtain ⟨hft, R, -, rfl, rfl⟩ := aesKeyUnwrap_eq_ok.mp ok
    refine aesKeyWrap_eq_ok.mpr ⟨?_, hft, by rw [halves_joinHalves]⟩
    rw [length_joinHalves]
    omega

def plainGcm : Gcm where
  encrypt _ _ plaintext := plaintext ++ replicate 16 0
  decrypt _ _ ciphertext := some (ciphertext.take (ciphertext.length - 16))
  length_encrypt _ _ plaintext := by simp
  decrypt_encrypt _ _ plaintext := by simp

theorem key_wrap_exact_swap :
    ∃ w, aesKeyWrap (fun _ => Equiv.prodComm Half Half) (replicate 16 7)
        (replicate 16 1) = .ok w ∧
      aesKeyUnwrap (fun _ => Equiv.prodComm Half Half) (replicate 16 7) w =
        .ok (replicate 16 1) :=
  (key_wrap_exact _ plainGcm (replicate 16 7) (by decide)).1 _ 2 rfl (Nat.le_refl 2)

end Gibson.Backup
