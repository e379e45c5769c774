import Mathlib.Data.List.Nodup

/-! The standard encoding of bytes in base 64, with padding. -/

namespace Base64

open List

/-- The characters that stand for the numbers of six bits. -/
def alphabet : List Char :=
  "ABCDEFGHIJKLMNOPQRSTUVWXYZabcdefghijklmnopqrstuvwxyz0123456789+/".toList

/-- The character for a number of six bits. -/
def digit (value : Nat) : Char := alphabet.getD value 'A'

/-- Three bytes become four characters; the end is padded. -/
def encode : List UInt8 → List Char
  | [] => []
  | [a] => [digit (a.toNat / 4), digit (a.toNat % 4 * 16), '=', '=']
  | [a, b] => [digit (a.toNat / 4), digit (a.toNat % 4 * 16 + b.toNat / 16),
      digit (b.toNat % 16 * 4), '=']
  | a :: b :: c :: rest => digit (a.toNat / 4) :: digit (a.toNat % 4 * 16 + b.toNat / 16) ::
      digit (b.toNat % 16 * 4 + c.toNat / 64) :: digit (c.toNat % 64) :: encode rest

/-- Every number of six bits has a character. -/
theorem digit_eq {value : Nat} (small : value < 64) :
    digit value = alphabet.get ⟨value, small⟩ := by
  have inside : alphabet[value]? = some (alphabet.get ⟨value, small⟩) := getElem?_eq_getElem small
  rw [digit, getD_eq_getElem?_getD, inside]
  rfl

/-- The number that a character stands for. -/
def value (c : Char) : Nat := alphabet.idxOf c

/-- A number is read back from its character. -/
theorem value_digit {number : Nat} (small : number < 64) : value (digit number) = number := by
  have distinct : alphabet.Nodup := by decide
  rw [value, digit_eq small]
  exact get_idxOf distinct ⟨number, small⟩

/-- The characters of numbers are those of the alphabet. -/
theorem digit_mem {value : Nat} (small : value < 64) : digit value ∈ alphabet := by
  rw [digit_eq small]
  exact get_mem _ _

/-- No number is written as the padding. -/
theorem digit_ne_pad {value : Nat} (small : value < 64) : digit value ≠ '=' := by
  intro same
  exact absurd (same ▸ digit_mem small) (by decide)

/-- An encoded text has only the alphabet and the padding. -/
theorem mem_encode {bytes : List UInt8} {c : Char} (member : c ∈ encode bytes) :
    c ∈ alphabet ∨ c = '=' := by
  induction bytes using encode.induct with
  | case1 => cases member
  | case2 a =>
    have bound := a.toNat_lt
    simp only [encode, mem_cons, not_mem_nil, or_false] at member
    rcases member with rfl | rfl | rfl | rfl
    · exact .inl (digit_mem (by omega))
    · exact .inl (digit_mem (by omega))
    · exact .inr rfl
    · exact .inr rfl
  | case3 a b =>
    have bound := a.toNat_lt
    have otherBound := b.toNat_lt
    simp only [encode, mem_cons, not_mem_nil, or_false] at member
    rcases member with rfl | rfl | rfl | rfl
    · exact .inl (digit_mem (by omega))
    · exact .inl (digit_mem (by omega))
    · exact .inl (digit_mem (by omega))
    · exact .inr rfl
  | case4 a b d rest ih =>
    have first := a.toNat_lt
    have second := b.toNat_lt
    have third := d.toNat_lt
    simp only [encode, mem_cons] at member
    rcases member with rfl | rfl | rfl | rfl | later
    · exact .inl (digit_mem (by omega))
    · exact .inl (digit_mem (by omega))
    · exact .inl (digit_mem (by omega))
    · exact .inl (digit_mem (by omega))
    · exact ih later

/-- The first groups of characters encode the first groups of bytes. -/
theorem take_encode (bytes : List UInt8) (groups : Nat) :
    (encode bytes).take (4 * groups) = encode (bytes.take (3 * groups)) := by
  induction bytes using encode.induct generalizing groups with
  | case1 => simp [encode]
  | case2 a | case3 a b =>
    cases groups with
    | zero => simp [encode]
    | succ groups => simp [encode, Nat.mul_add]
  | case4 a b c rest ih =>
    cases groups with
    | zero => simp [encode]
    | succ groups => simp [encode, Nat.mul_add, ih]

/-- The bytes of a text in base 64, as numbers. -/
def decode : List Char → List Nat
  | x :: y :: z :: w :: rest =>
    (value x * 4 + value y / 16) ::
      if z = '=' then []
      else (value y % 16 * 16 + value z / 4) ::
        if w = '=' then [] else (value z % 4 * 64 + value w) :: decode rest
  | _ => []

/-- What was encoded is decoded. -/
theorem decode_encode (bytes : List UInt8) : decode (encode bytes) = bytes.map UInt8.toNat := by
  induction bytes using encode.induct with
  | case1 => rfl
  | case2 a =>
    have bound := a.toNat_lt
    rw [encode, decode, if_pos rfl, value_digit (by omega), value_digit (by omega)]
    simp only [map_cons, map_nil, List.cons.injEq, and_true]
    omega
  | case3 a b =>
    have bound := a.toNat_lt
    have otherBound := b.toNat_lt
    rw [encode, decode, if_neg (digit_ne_pad (by omega)), if_pos rfl, value_digit (by omega),
      value_digit (by omega), value_digit (by omega)]
    simp only [map_cons, map_nil, List.cons.injEq, and_true]
    omega
  | case4 a b c rest ih =>
    have first := a.toNat_lt
    have second := b.toNat_lt
    have third := c.toNat_lt
    rw [encode, decode, if_neg (digit_ne_pad (by omega)), if_neg (digit_ne_pad (by omega)),
      value_digit (by omega), value_digit (by omega), value_digit (by omega),
      value_digit (by omega), ih]
    simp only [map_cons, List.cons.injEq, and_true]
    omega

/-- The bytes can be read back from the characters. -/
theorem encode_injective : Function.Injective encode := by
  intro bytes other same
  have numbers := congrArg decode same
  rw [decode_encode, decode_encode] at numbers
  exact map_injective_iff.mpr (fun _ _ equal => UInt8.toNat_inj.mp equal) numbers

/-- The first groups of characters tell the first groups of bytes. -/
theorem take_encode_inj {bytes other : List UInt8} {groups : Nat} :
    (encode bytes).take (4 * groups) = (encode other).take (4 * groups) ↔
      bytes.take (3 * groups) = other.take (3 * groups) := by
  rw [take_encode, take_encode]
  exact encode_injective.eq_iff

end Base64
