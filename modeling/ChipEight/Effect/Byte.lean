/-! Arithmetic on bytes that reports what did not fit. A flag is computed from the
operands alone, before any register changes, so aliasing cannot disturb it. -/
namespace ChipEight.Effect

structure Flagged where
  value : UInt8
  flag : Bool
deriving DecidableEq, Repr

def sum (left right : UInt8) : Flagged :=
  ⟨left + right, 256 ≤ left.toNat + right.toNat⟩

/-- The flag is set when nothing had to be borrowed. -/
def difference (left right : UInt8) : Flagged :=
  ⟨left - right, right.toNat ≤ left.toNat⟩

def half (value : UInt8) : Flagged :=
  ⟨value >>> 1, value.toNat % 2 = 1⟩

def double (value : UInt8) : Flagged :=
  ⟨value <<< 1, 128 ≤ value.toNat⟩

theorem toNat_sum (left right : UInt8) :
    (sum left right).value.toNat + 256 * (sum left right).flag.toNat =
      left.toNat + right.toNat := by
  have := left.toNat_lt
  have := right.toNat_lt
  by_cases carry : 256 ≤ left.toNat + right.toNat <;>
    simp [sum, UInt8.toNat_add, carry] <;> omega

theorem toNat_difference (left right : UInt8) :
    (difference left right).value.toNat + right.toNat =
      left.toNat + 256 * (!(difference left right).flag).toNat := by
  have := left.toNat_lt
  have := right.toNat_lt
  by_cases fits : right.toNat ≤ left.toNat <;>
    simp [difference, UInt8.toNat_sub, fits] <;> omega

theorem toNat_half (value : UInt8) :
    2 * (half value).value.toNat + (half value).flag.toNat = value.toNat := by
  by_cases odd : value.toNat % 2 = 1 <;>
    simp [half, UInt8.toNat_shiftRight, Nat.shiftRight_eq_div_pow, odd] <;> omega

theorem toNat_double (value : UInt8) :
    (double value).value.toNat + 256 * (double value).flag.toNat = 2 * value.toNat := by
  have := value.toNat_lt
  by_cases high : 128 ≤ value.toNat <;>
    simp [double, UInt8.toNat_shiftLeft, Nat.shiftLeft_eq, high] <;> omega

def decimalDigits (value : UInt8) : List UInt8 :=
  [value / 100, value / 10 % 10, value % 10]

@[simp] theorem length_decimalDigits (value : UInt8) : (decimalDigits value).length = 3 := rfl

end ChipEight.Effect
