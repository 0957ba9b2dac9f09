import ChipEight.Digit

/-! The sixteen general registers. The last of them doubles as the flag register, and
an instruction that yields both a flag and a result writes the flag first: when the
result's own register is the last one, the result is what remains. -/
namespace ChipEight

abbrev Registers := Vector UInt8 16

namespace Registers

def count : Nat := 16

def zero : Registers := Vector.replicate 16 0

@[simp] theorem getElem_zero (index : Nat) (h : index < 16) : zero[index] = 0 := by
  simp [zero]

def flagByte (flag : Bool) : UInt8 := if flag then 1 else 0

theorem flagByte_not (flag : Bool) : flagByte (!flag) = 1 - flagByte flag := by
  cases flag <;> rfl

def setFlag (registers : Registers) (flag : Bool) : Registers :=
  registers.set 15 (flagByte flag)

def setWithFlag (registers : Registers) (target : Fin 16) (value : UInt8) (flag : Bool) :
    Registers :=
  (registers.setFlag flag).set target.val value (digit_lt target)

theorem get_set (registers : Registers) (target : Fin 16) (value : UInt8) (register : Fin 16) :
    Vector.get (registers.set target.val value (digit_lt target)) register =
      if register = target then value else registers.get register := by
  have entry : Vector.get (registers.set target.val value (digit_lt target)) register =
      if target.val = register.val then value else registers.get register :=
    Vector.getElem_set (digit_lt target) (digit_lt register)
  rw [entry]
  simp only [Fin.val_inj, eq_comm]

theorem get_setFlag (registers : Registers) (flag : Bool) (register : Fin 16) :
    (registers.setFlag flag).get register =
      if register = 15 then flagByte flag else registers.get register :=
  registers.get_set 15 (flagByte flag) register

theorem get_setWithFlag (registers : Registers) (target : Fin 16) (value : UInt8) (flag : Bool)
    (register : Fin 16) :
    (registers.setWithFlag target value flag).get register =
      if register = target then value
      else if register = 15 then flagByte flag
      else registers.get register := by
  rw [setWithFlag, get_set, get_setFlag]

def upTo (registers : Registers) (last : Fin 16) : List UInt8 :=
  List.ofFn fun index : Fin (last.val + 1) =>
    have := index.isLt
    have := digit_lt last
    registers[index.val]

@[simp] theorem length_upTo (registers : Registers) (last : Fin 16) :
    (registers.upTo last).length = last.val + 1 := by
  simp [upTo]

/-- Overwrite registers from the first one on; registers past the list keep their values. -/
def replaceFirst (registers : Registers) (values : List UInt8) : Registers :=
  Vector.ofFn fun index : Fin 16 =>
    have := digit_lt index
    values.getD index.val registers[index.val]

@[simp] theorem getElem_replaceFirst (registers : Registers) (values : List UInt8)
    (index : Nat) (h : index < 16) :
    (registers.replaceFirst values)[index] = values.getD index registers[index] := by
  simp [replaceFirst]

end Registers
end ChipEight
