import Mathlib.Algebra.Group.Nat.Defs
import ChipEight.Instruction.Decode
import ChipEight.Instruction.Encode

namespace ChipEight

/-- The hexadecimal digit of an opcode at a place, counted from the right. -/
def digitAt (opcode : UInt16) (place : Nat) : Nat := opcode.toNat / 16 ^ place % 16

def Digit.fits (digit : Digit) (value : Nat) : Bool :=
  match digit with
  | fixed wanted => wanted.val == value
  | free => true

namespace Pattern

def fits (pattern : Pattern) (opcode : UInt16) : Bool :=
  pattern.segment.val == digitAt opcode 3 && pattern.x.fits (digitAt opcode 2) &&
    pattern.y.fits (digitAt opcode 1) && pattern.n.fits (digitAt opcode 0)

theorem leading_of_fits {pattern : Pattern} {opcode : UInt16} (fit : pattern.fits opcode = true) :
    opcode.toNat / 4096 = pattern.segment.val := by
  have bound := opcode.toNat_lt
  simp only [fits, digitAt, Bool.and_eq_true, beq_iff_eq] at fit
  omega

private theorem last_of_fits {pattern : Pattern} {opcode : UInt16}
    (fit : pattern.fits opcode = true)
    {n : Fin 16} (fixed : pattern.n = .fixed n) : opcode.toNat % 16 = n.val := by
  simp only [fits, fixed, Digit.fits, digitAt, Bool.and_eq_true, beq_iff_eq] at fit
  omega

theorem low_of_fits {pattern : Pattern} {opcode : UInt16} (fit : pattern.fits opcode = true)
    {y n : Fin 16} (middle : pattern.y = .fixed y) (fixed : pattern.n = .fixed n) :
    opcode.toNat % 256 = 16 * y.val + n.val := by
  simp only [fits, middle, fixed, Digit.fits, digitAt, Bool.and_eq_true, beq_iff_eq] at fit
  omega

private theorem toNat_of_fits {pattern : Pattern} {opcode : UInt16}
    (fit : pattern.fits opcode = true)
    {x y n : Fin 16} (first : pattern.x = .fixed x) (middle : pattern.y = .fixed y)
    (fixed : pattern.n = .fixed n) :
    opcode.toNat = 4096 * pattern.segment.val + 256 * x.val + 16 * y.val + n.val := by
  have bound := opcode.toNat_lt
  simp only [fits, first, middle, fixed, Digit.fits, digitAt, Bool.and_eq_true, beq_iff_eq] at fit
  omega

end Pattern

namespace Kind

/-- Whether an opcode is one of the kind's. Machine code gives two of its own away. -/
def covers (kind : Kind) (opcode : UInt16) : Bool :=
  kind.pattern.fits opcode && !(kind == machineCode && (opcode == 0x00E0 || opcode == 0x00EE))

theorem covers_of_ofOpcode? {opcode : UInt16} {kind : Kind}
    (found : ofOpcode? opcode = some kind) : kind.covers opcode = true := by
  have bound := opcode.toNat_lt
  unfold ofOpcode? at found
  split at found
  case h_1 =>
    split at found
    case h_3 clear back =>
      have notClear : opcode.toNat ≠ 224 := clear
      have notReturn : opcode.toNat ≠ 238 := back
      cases found
      simp [covers, pattern, Pattern.fits, Digit.fits, digitAt, ← UInt16.toNat_inj]
      omega
    all_goals
      cases found
      simp [covers, pattern, Pattern.fits, Digit.fits, digitAt]
      omega
  case h_16 =>
    have leading : opcode.toNat / 4096 = 15 := by
      simp only [imp_false] at *
      omega
    split at found
    all_goals
      cases found
    all_goals
      simp [covers, pattern, Pattern.fits, Digit.fits, digitAt]
      omega
  case h_9 | h_15 =>
    split at found
    all_goals
      cases found
    all_goals
      simp [covers, pattern, Pattern.fits, Digit.fits, digitAt]
      omega
  all_goals
    cases found
    simp [covers, pattern, Pattern.fits, Digit.fits, digitAt]
    omega

theorem ofOpcode?_of_covers {opcode : UInt16} {kind : Kind}
    (covered : kind.covers opcode = true) : ofOpcode? opcode = some kind := by
  obtain ⟨fit, kept⟩ := Bool.and_eq_true_iff.mp covered
  have leading := Pattern.leading_of_fits fit
  cases kind
  case machineCode =>
    have segment : opcode.toNat / 4096 = 0 := leading
    simp [← UInt16.toNat_inj] at kept
    simp only [ofOpcode?, segment]
    split
    · omega
    · omega
    · rfl
  case clearScreen | returnCall =>
    rw [ofOpcode?, leading, Pattern.toNat_of_fits fit rfl rfl rfl]
    rfl
  case copy | bitOr | bitAnd | bitXor | add | subtract | shiftRight | subtractFrom | shiftLeft =>
    rw [ofOpcode?, leading, Pattern.last_of_fits fit rfl]
    rfl
  case skipIfHeld | skipUnlessHeld | readDelay | awaitKey | setDelay | setSound | addIndex |
      pointAtGlyph | storeDecimal | storeRegisters | loadRegisters =>
    rw [ofOpcode?, leading, Pattern.low_of_fits fit rfl rfl]
    rfl
  all_goals
    rw [ofOpcode?, leading]
    rfl

theorem ofOpcode?_eq_some_iff {opcode : UInt16} {kind : Kind} :
    ofOpcode? opcode = some kind ↔ kind.covers opcode = true :=
  ⟨covers_of_ofOpcode?, ofOpcode?_of_covers⟩

theorem ofOpcode?_eq_some_of_low (opcode : UInt16) (kind : Kind) {y n : Fin 16}
    (first : kind.pattern.x = .free) (middle : kind.pattern.y = .fixed y)
    (last : kind.pattern.n = .fixed n) (program : kind ≠ machineCode) :
    ofOpcode? opcode = some kind ↔
      opcode.toNat / 4096 = kind.pattern.segment.val ∧
        opcode.toNat % 256 = 16 * y.val + n.val := by
  have bound := opcode.toNat_lt
  have own : (kind == machineCode) = false := beq_eq_false_iff_ne.mpr program
  rw [ofOpcode?_eq_some_iff]
  simp only [covers, own, Bool.false_and, Bool.not_false, Bool.and_true, Pattern.fits, first,
    middle, last, Digit.fits, digitAt, Bool.and_eq_true, beq_iff_eq]
  omega

theorem covers_eq {opcode : UInt16} {kind : Kind} (found : ofOpcode? opcode = some kind)
    (other : Kind) : other.covers opcode = (kind == other) := by
  by_cases same : kind = other
  · subst same
    rw [covers_of_ofOpcode? found, beq_self_eq_true]
  · rw [beq_eq_false_iff_ne.mpr same, ← Bool.not_eq_true, ← ofOpcode?_eq_some_iff, found]
    exact fun overlap => same (Option.some.inj overlap)

end Kind
end ChipEight
