import Mathlib.Data.UInt

/-! Base64 in the alphabet of URLs, without padding. The decoder is the lenient one. -/

namespace Gibson.Base64

open List

def digit (v : Nat) : UInt8 :=
  if v < 26 then UInt8.ofNat (65 + v)
  else if v < 52 then UInt8.ofNat (97 + (v - 26))
  else if v < 62 then UInt8.ofNat (48 + (v - 52))
  else if v = 62 then 45
  else 95

/-- The six bits of a byte of the alphabet. -/
def value (c : UInt8) : Option Nat :=
  if 65 ≤ c.toNat ∧ c.toNat ≤ 90 then some (c.toNat - 65)
  else if 97 ≤ c.toNat ∧ c.toNat ≤ 122 then some (c.toNat - 97 + 26)
  else if 48 ≤ c.toNat ∧ c.toNat ≤ 57 then some (c.toNat - 48 + 52)
  else if c.toNat = 45 then some 62
  else if c.toNat = 95 then some 63
  else none

def sextets : List UInt8 → List Nat
  | [] => []
  | [a] => [a.toNat / 4, a.toNat % 4 * 16]
  | [a, b] => [a.toNat / 4, a.toNat % 4 * 16 + b.toNat / 16, b.toNat % 16 * 4]
  | a :: b :: c :: rest =>
    a.toNat / 4 :: (a.toNat % 4 * 16 + b.toNat / 16) ::
      (b.toNat % 16 * 4 + c.toNat / 64) :: c.toNat % 64 :: sextets rest

def encode (bytes : List UInt8) : List UInt8 := (sextets bytes).map digit

def octets : List Nat → Option (List UInt8)
  | [] => some []
  | [_] => none
  | [v, w] => some [UInt8.ofNat (v * 4 + w / 16)]
  | [v, w, x] => some [UInt8.ofNat (v * 4 + w / 16), UInt8.ofNat (w % 16 * 16 + x / 4)]
  | v :: w :: x :: y :: rest =>
    (octets rest).map fun bytes =>
      UInt8.ofNat (v * 4 + w / 16) :: UInt8.ofNat (w % 16 * 16 + x / 4) ::
        UInt8.ofNat (x % 4 * 64 + y) :: bytes

def isBreak (c : UInt8) : Bool := c == 10 || c == 13

def decode (text : List UInt8) : Option (List UInt8) :=
  ((text.filter fun c => !isBreak c).mapM value).bind octets

lemma value_digit (hbd : v < 64) : value (digit v) = some v := by
  revert v
  decide

lemma digit_plain (hbd : v < 64) : isBreak (digit v) = false ∧ digit v ≠ 46 := by
  revert v
  decide

lemma sextets_lt (bytes) : ∀ v ∈ sextets bytes, v < 64 := by
  induction bytes using sextets.induct with
  | case1 => simp [sextets]
  | case2 a =>
    have := a.toNat_lt
    simp only [sextets, mem_cons, not_mem_nil, or_false]
    omega
  | case3 a b =>
    have := a.toNat_lt
    have := b.toNat_lt
    simp only [sextets, mem_cons, not_mem_nil, or_false]
    omega
  | case4 a b c rs ih =>
    have := a.toNat_lt
    have := b.toNat_lt
    have := c.toNat_lt
    intro v mem
    simp only [sextets, mem_cons] at mem
    rcases mem with h1 | second | third | fourth | later
    · omega
    · omega
    · omega
    · omega
    · exact ih v later

lemma mem_encode (mem : c ∈ encode bytes) : isBreak c = false ∧ c ≠ 46 := by
  obtain ⟨v, sex, rfl⟩ := mem_map.mp mem
  exact digit_plain (sextets_lt bytes v sex)

lemma ofNat_toNat_of_eq (a) (hs : n = a.toNat) : UInt8.ofNat n = a := by
  rw [hs, UInt8.ofNat_toNat]

lemma octets_sextets (bytes) : octets (sextets bytes) = some bytes := by
  induction bytes using sextets.induct with
  | case1 => rfl
  | case2 a =>
    simp only [sextets, octets]
    rw [ofNat_toNat_of_eq a (by omega)]
  | case3 a b =>
    have := b.toNat_lt
    simp only [sextets, octets]
    rw [ofNat_toNat_of_eq a (by omega), ofNat_toNat_of_eq b (by omega)]
  | case4 a b c rs ih =>
    have := b.toNat_lt
    have := c.toNat_lt
    simp only [sextets, octets, ih, Option.map_some]
    rw [ofNat_toNat_of_eq a (by omega), ofNat_toNat_of_eq b (by omega),
      ofNat_toNat_of_eq c (by omega)]

lemma mapM_value_digit {vs : List Nat} (hbd : ∀ v ∈ vs, v < 64) :
    (vs.map digit).mapM value = some vs := by
  induction vs with
  | nil => rfl
  | cons v vs ih =>
    have rs := ih fun w mem => hbd w (mem_cons_of_mem _ mem)
    rw [map_cons, mapM_cons, value_digit (hbd v mem_cons_self), rs]
    rfl

lemma decode_encode (bytes) : decode (encode bytes) = some bytes := by
  have unb : (encode bytes).filter (fun c => !isBreak c) = encode bytes := by
    refine filter_eq_self.mpr fun c mem => ?_
    rw [(mem_encode mem).1]
    rfl
  rw [decode, unb, encode, mapM_value_digit (sextets_lt bytes), Option.bind_some,
    octets_sextets]

end Gibson.Base64
