import ChipEight.Digit

/-! Return addresses. The pointer names the most recent one and zero means that there
is none, so the first of the sixteen slots is never used and fifteen calls can nest. -/
namespace ChipEight

structure CallStack where
  slots : Vector UInt16 16
  pointer : UInt8
deriving DecidableEq

namespace CallStack

def slotCount : Nat := 16

def empty : CallStack := ⟨Vector.replicate 16 0, 0⟩

/-- The addresses still to be returned to, the most recent last. -/
def entries (stack : CallStack) : List UInt16 :=
  (stack.slots.toList.drop 1).take stack.pointer.toNat

@[simp] theorem entries_empty : empty.entries = [] := rfl

/-- Fails exactly when all fifteen usable slots are taken. -/
def push? (stack : CallStack) (address : UInt16) : Option CallStack :=
  if h : stack.pointer.toNat < 15 then
    some ⟨stack.slots.set (stack.pointer.toNat + 1) address, stack.pointer + 1⟩
  else none

theorem push?_eq_some {stack pushed : CallStack} {address : UInt16}
    (push : stack.push? address = some pushed) :
    ∃ room : stack.pointer.toNat < 15,
      pushed = ⟨stack.slots.set (stack.pointer.toNat + 1) address, stack.pointer + 1⟩ := by
  unfold push? at push
  split at push
  · next room =>
    cases push
    exact ⟨room, rfl⟩
  · contradiction

theorem push?_of_lt {stack : CallStack} (room : stack.pointer.toNat < 15) (address : UInt16) :
    stack.push? address =
      some ⟨stack.slots.set (stack.pointer.toNat + 1) address, stack.pointer + 1⟩ := by
  rw [push?, dif_pos room]

def top? (stack : CallStack) : Option UInt16 := stack.slots[stack.pointer.toNat]?

/-- Slots keep their stale contents. -/
def drop (stack : CallStack) : CallStack := { stack with pointer := stack.pointer - 1 }

end CallStack
end ChipEight
