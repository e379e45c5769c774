import Mathlib.Data.Nat.Digits.Defs

/-! Numbers in a base, with the most significant digit first, and in bytes. -/

namespace Digits

open List

/-- The number that some digits stand for. -/
def value (base : Nat) (digits : List Nat) : Nat := Nat.ofDigits base digits.reverse

/-- The digits of a number without leading zeros, so that zero has none. -/
def shortest (base number : Nat) : List Nat := (Nat.digits base number).reverse

variable {base : Nat} {digits : List Nat}

theorem value_shortest (base number : Nat) : value base (shortest base number) = number := by
  rw [value, shortest, reverse_reverse, Nat.ofDigits_digits]

/-- Writing a number anew loses its leading zeros and nothing else. -/
theorem shortest_value (large : 1 < base) (small : ∀ digit ∈ digits, digit < base) :
    shortest base (value base digits) = digits.dropWhile (· == 0) := by
  induction digits with
  | nil => simp [shortest, value]
  | cons digit rest ih =>
    by_cases zero : digit = 0
    · subst zero
      have same : value base (0 :: rest) = value base rest := by
        rw [value, reverse_cons, Nat.ofDigits_append_zero, value]
      rw [same, ih fun other member => small other (mem_cons_of_mem _ member)]
      simp
    · -- A first digit other than zero is the last one of Mathlib's order.
      rw [dropWhile_cons_of_neg (by simpa using zero), shortest, value,
        Nat.digits_ofDigits base large _ (fun _ member => small _ (mem_reverse.mp member))
          (by simpa using zero), reverse_reverse]

/-- The number that some bytes stand for. -/
def ofBytes (bytes : List UInt8) : Nat := value 256 (bytes.map UInt8.toNat)

/-- The bytes of a number without leading zeros. -/
def toBytes (number : Nat) : List UInt8 := (shortest 256 number).map UInt8.ofNat

theorem toBytes_ofBytes (bytes : List UInt8) :
    toBytes (ofBytes bytes) = bytes.dropWhile (· == 0) := by
  have small : ∀ digit ∈ bytes.map UInt8.toNat, digit < 256 := by
    simpa using fun byte _ => byte.toNat_lt
  rw [toBytes, ofBytes, shortest_value (by decide) small, dropWhile_map, map_map]
  have zero : (fun digit : Nat => digit == 0) ∘ UInt8.toNat = (· == 0) := by
    funext byte
    simp [← UInt8.toNat_inj]
  have back : UInt8.ofNat ∘ UInt8.toNat = id := funext fun _ => UInt8.ofNat_toNat
  rw [zero, back, map_id]

/-- The last bytes of a number, as many as are wanted. -/
def fixed : Nat → Nat → List UInt8
  | 0, _ => []
  | width + 1, number => fixed width (number / 256) ++ [.ofNat number]

@[simp] theorem length_fixed (width number : Nat) : (fixed width number).length = width := by
  induction width generalizing number with
  | zero => rfl
  | succ width ih => simp [fixed, ih]

/-- A number that fits is read back from its bytes. -/
theorem ofBytes_fixed {width number : Nat} (fits : number < 256 ^ width) :
    ofBytes (fixed width number) = number := by
  induction width generalizing number with
  | zero =>
    rw [Nat.lt_one_iff.mp fits]
    rfl
  | succ width ih =>
    have high := ih (Nat.div_lt_of_lt_mul (by rwa [Nat.pow_succ, Nat.mul_comm] at fits))
    rw [ofBytes, value] at high ⊢
    rw [fixed, map_append, reverse_append, map_singleton, reverse_singleton,
      singleton_append, Nat.ofDigits_cons, high, UInt8.toNat_ofNat']
    exact Nat.mod_add_div number 256

end Digits
