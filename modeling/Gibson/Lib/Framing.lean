import Mathlib.Data.UInt

/-! Fields behind their lengths in decimal digits. What follows them has to start with something
else than a digit. -/

namespace Gibson.Framing

open List Nat

def decimal (n : Nat) : List UInt8 := (toDigits 10 n).map fun c => UInt8.ofNat c.toNat

def isDigit (b : UInt8) : Bool := 48 ≤ b.toNat && b.toNat ≤ 57

def frame (sep fin : UInt8) (field : List UInt8) : List UInt8 :=
  decimal field.length ++ sep :: (field ++ [fin])

def frames (sep fin : UInt8) (fields : List (List UInt8)) : List UInt8 :=
  fields.flatMap (frame sep fin)

variable {c : Char}

lemma isDigit_toNat (digit : c.isDigit = true) : 48 ≤ c.toNat ∧ c.toNat ≤ 57 := by
  simpa [Char.isDigit, UInt32.le_iff_toNat_le] using digit

lemma toNat_ofNat_of_digit (digit : c.isDigit = true) : (UInt8.ofNat c.toNat).toNat = c.toNat := by
  have hbd := isDigit_toNat digit
  rw [UInt8.toNat_ofNat']
  omega

variable {n : Nat}

lemma toDigits_isDigit (mem : c ∈ toDigits 10 n) : c.isDigit = true :=
  isDigit_of_mem_toDigits (by omega) (by omega) mem

lemma isDigit_of_mem_decimal (mem : b ∈ decimal n) : isDigit b = true := by
  obtain ⟨c, char, rfl⟩ := mem_map.mp mem
  have digit := toDigits_isDigit char
  have hbd := isDigit_toNat digit
  simpa [isDigit, toNat_ofNat_of_digit digit] using hbd

lemma map_decimal (n : Nat) : (decimal n).map (fun b => Char.ofNat b.toNat) = toDigits 10 n := by
  rw [decimal, map_map]
  refine (map_congr_left fun c mem => ?_).trans (map_id _)
  rw [Function.comp_apply, toNat_ofNat_of_digit (toDigits_isDigit mem), Char.ofNat_toNat, id]

lemma decimal_injective : Function.Injective decimal := by
  intro m n hs
  have digits : toDigits 10 m = toDigits 10 n := by
    rw [← map_decimal m, hs, map_decimal n]
  calc m = ofDigitChars 10 (toDigits 10 m) 0 :=
        (ofDigitChars_toDigits (by omega) (by omega)).symm
    _ = ofDigitChars 10 (toDigits 10 n) 0 := by rw [digits]
    _ = n := ofDigitChars_toDigits (by omega) (by omega)

def padded (width n : Nat) : List Char := (toDigits 10 n).leftpad width '0'

variable {width : Nat}

lemma isDigit_of_mem_padded (mem : c ∈ padded width n) : c.isDigit = true := by
  rcases mem_append.mp mem with zero | digit
  · rw [eq_of_mem_replicate zero]
    decide
  · exact toDigits_isDigit digit

lemma ofDigitChars_padded (width n : Nat) : ofDigitChars 10 (padded width n) 0 = n := by
  have zer (k : Nat) : ofDigitChars 10 (List.replicate k '0') 0 = 0 := by
    induction k with
    | zero => rfl
    | succ k ih =>
      rwa [replicate_succ, ofDigitChars_cons]
  rw [padded, List.leftpad, ofDigitChars_append, zer,
    ofDigitChars_toDigits (by omega) (by omega)]

lemma padded_injective (width : Nat) : Function.Injective (padded width) := by
  intro m n hs
  rw [← ofDigitChars_padded width m, hs, ofDigitChars_padded]

section
variable {α : Type*} {p : α → Bool}

lemma takeWhile_append_stop {xs ys : List α} (all : ∀ x ∈ xs, p x = true)
    (stop : ∀ y ∈ ys.head?, p y = false) : (xs ++ ys).takeWhile p = xs := by
  rw [takeWhile_append_of_pos all]
  cases ys with
  | nil => simp
  | cons y ys =>
    rw [takeWhile_cons_of_neg (by simp [stop y rfl]), append_nil]

lemma append_inj_of_stop {xs ys xs' ys' : List α} (all : ∀ x ∈ xs, p x = true)
    (all' : ∀ x ∈ xs', p x = true) (stop : ∀ y ∈ ys.head?, p y = false)
    (sto' : ∀ y ∈ ys'.head?, p y = false) (hs : xs ++ ys = xs' ++ ys') :
    xs = xs' ∧ ys = ys' := by
  have rns : xs = xs' := by
    rw [← takeWhile_append_stop all stop, hs, takeWhile_append_stop all' sto']
  subst rns
  exact ⟨rfl, append_cancel_left hs⟩

end

lemma frame_append_inj (hp : isDigit sep = false) {f g : List UInt8}
    (hs : frame sep fin f ++ p = frame sep fin g ++ q) : f = g ∧ p = q := by
  simp only [frame, append_assoc, cons_append] at hs
  have stops : ∀ (text : List UInt8), ∀ y ∈ (sep :: text).head?, isDigit y = false := by
    intro text y hd
    obtain rfl : sep = y := by simpa using hd
    exact hp
  obtain ⟨hln, rs⟩ := append_inj_of_stop (fun _ => isDigit_of_mem_decimal)
    (fun _ => isDigit_of_mem_decimal) (stops _) (stops _) hs
  obtain ⟨fl, tai⟩ :=
    append_inj (List.cons.inj rs).2 (decimal_injective hln)
  exact ⟨fl, by simpa using tai⟩

lemma frame_append_head (sep fin f p) : ∃ b ∈ (frame sep fin f ++ p).head?, isDigit b = true := by
  obtain ⟨b, digits, s0⟩ := exists_cons_of_ne_nil (l := decimal f.length)
    (by simp [decimal, toDigits_ne_nil])
  refine ⟨b, by simp [frame, s0], isDigit_of_mem_decimal (n := f.length) ?_⟩
  rw [s0]
  exact mem_cons_self

lemma frames_append_inj (hp : isDigit sep = false)
    (stop : ∀ b ∈ p.head?, isDigit b = false) (sto' : ∀ b ∈ q.head?, isDigit b = false)
    (hs : frames sep fin fs ++ p = frames sep fin gs ++ q) : fs = gs ∧ p = q := by
  induction fs generalizing gs with
  | nil =>
    cases gs with
    | nil => exact ⟨rfl, hs⟩
    | cons g gs =>
      simp only [frames, flatMap_nil, nil_append, flatMap_cons, append_assoc] at hs
      obtain ⟨b, hd, digit⟩ := frame_append_head sep fin g (frames sep fin gs ++ q)
      rw [stop b (hs ▸ hd)] at digit
      contradiction
  | cons f fs ih =>
    cases gs with
    | nil =>
      simp only [frames, flatMap_nil, nil_append, flatMap_cons, append_assoc] at hs
      obtain ⟨b, hd, digit⟩ := frame_append_head sep fin f (frames sep fin fs ++ p)
      rw [sto' b (hs ▸ hd)] at digit
      contradiction
    | cons g gs =>
      simp only [frames, flatMap_cons, append_assoc] at hs
      obtain ⟨rfl, rs⟩ := frame_append_inj hp hs
      obtain ⟨rfl, tai⟩ := ih rs
      exact ⟨rfl, tai⟩

def bigEndian : Nat → Nat → List UInt8
  | 0, _ => []
  | width + 1, n => UInt8.ofNat (n / 256 ^ width) :: bigEndian width n

@[simp] lemma length_bigEndian (width n : Nat) : (bigEndian width n).length = width := by
  induction width with
  | zero => rfl
  | succ width ih => rw [bigEndian, length_cons, ih]

lemma mod_eq_of_bigEndian (hs : bigEndian width m = bigEndian width n) :
    m % 256 ^ width = n % 256 ^ width := by
  induction width with
  | zero => simp [mod_one]
  | succ width ih =>
    obtain ⟨h1, rs⟩ := List.cons.inj hs
    have digit : m / 256 ^ width % 256 = n / 256 ^ width % 256 := by
      simpa using congrArg UInt8.toNat h1
    rw [mod_pow_succ, mod_pow_succ, ih rs, digit]

lemma bigEndian_inj (hft : m < 256 ^ width) (fit' : n < 256 ^ width)
    (hs : bigEndian width m = bigEndian width n) : m = n := by
  have mods := mod_eq_of_bigEndian hs
  rwa [mod_eq_of_lt hft, mod_eq_of_lt fit'] at mods

def lengthFrame (width : Nat) (field : List UInt8) : List UInt8 :=
  bigEndian width field.length ++ field

lemma flatMap_lengthFrame_inj {fs gs : List (List UInt8)} (ct : fs.length = gs.length)
    (hft : ∀ f ∈ fs, f.length < 256 ^ width) (fit' : ∀ g ∈ gs, g.length < 256 ^ width)
    (hs : fs.flatMap (lengthFrame width) = gs.flatMap (lengthFrame width)) : fs = gs := by
  induction fs generalizing gs with
  | nil => exact (eq_nil_of_length_eq_zero ct.symm).symm
  | cons f fs ih =>
    cases gs with
    | nil => simp at ct
    | cons g gs =>
      rw [flatMap_cons, flatMap_cons] at hs
      rw [forall_mem_cons] at hft fit'
      rw [lengthFrame, lengthFrame, append_assoc, append_assoc] at hs
      obtain ⟨hln, frames⟩ := append_inj hs (by simp)
      obtain ⟨rfl, rs⟩ := append_inj frames (bigEndian_inj hft.1 fit'.1 hln)
      rw [ih (succ.inj ct) hft.2 fit'.2 rs]

end Gibson.Framing
