import ChipEight.Fault

/-! The 4096 bytes of addressable memory. Addresses and lengths are unbounded here,
so that a bounds check is a comparison of exact sums and nothing can wrap past it. -/
namespace ChipEight

abbrev Memory := Vector UInt8 4096

namespace Memory

def size : Nat := 4096

def zero : Memory := Vector.replicate 4096 0

@[simp] theorem getElem_zero (address : Nat) (h : address < 4096) : zero[address] = 0 := by
  simp [zero]

/-- Whether `length` bytes from `address` on lie in memory. An empty range may rest
at the very end. -/
abbrev InRange (address length : Nat) : Prop := address + length ≤ 4096

/-- The end of a range whose bounds are 64-bit numbers, if it lies in memory. A sum that has
wrapped is less than the address. -/
def finish? (address length : UInt64) : Option UInt64 :=
  let finish := address + length
  if address ≤ finish ∧ finish ≤ 4096 then some finish else none

theorem finish?_eq_some_iff {address length finish : UInt64} :
    finish? address length = some finish ↔
      InRange address.toNat length.toNat ∧ finish.toNat = address.toNat + length.toNat := by
  have first := address.toNat_lt
  have second := length.toNat_lt
  have sum : (address + length).toNat = (address.toNat + length.toNat) % 2 ^ 64 :=
    UInt64.toNat_add address length
  have check : address ≤ address + length ∧ address + length ≤ 4096 ↔
      InRange address.toNat length.toNat := by
    have limit : (4096 : UInt64).toNat = 4096 := rfl
    rw [UInt64.le_iff_toNat_le, UInt64.le_iff_toNat_le, sum, limit]
    omega
  simp only [finish?, check, Option.ite_none_right_eq_some, Option.some.injEq]
  apply and_congr_right
  intro fits
  rw [← UInt64.toNat_inj, sum, Nat.mod_eq_of_lt (by omega), eq_comm]

def bytesAt (memory : Memory) (address length : Nat) (h : InRange address length) : List UInt8 :=
  List.ofFn fun offset : Fin length =>
    have := offset.isLt
    memory[address + offset.val]

@[simp] theorem length_bytesAt (memory : Memory) (address length : Nat)
    (h : InRange address length) : (memory.bytesAt address length h).length = length := by
  simp [bytesAt]

/-- Lay bytes over memory; what reaches past the end is dropped. -/
def overlay (memory : Memory) (address : Nat) : List UInt8 → Memory
  | [] => memory
  | byte :: rest => overlay (memory.setIfInBounds address byte) (address + 1) rest

theorem getElem_overlay_outside (memory : Memory) (address : Nat) (bytes : List UInt8)
    (query : Nat) (h : query < 4096) (outside : query < address ∨ address + bytes.length ≤ query) :
    (memory.overlay address bytes)[query] = memory[query] := by
  induction bytes generalizing memory address with
  | nil => rfl
  | cons byte rest ih =>
    simp only [List.length_cons] at outside
    rw [overlay, ih _ _ (by omega), Vector.getElem_setIfInBounds_ne _ (by omega)]

theorem getElem_overlay_inside (memory : Memory) (address : Nat) (bytes : List UInt8)
    (offset : Nat) (within : offset < bytes.length) (h : address + offset < 4096) :
    (memory.overlay address bytes)[address + offset] = bytes[offset] := by
  induction bytes generalizing memory address offset with
  | nil => simp at within
  | cons byte rest ih =>
    cases offset with
    | zero =>
      simp only [overlay, Nat.add_zero, List.getElem_cons_zero]
      rw [getElem_overlay_outside _ _ _ _ (by omega) (by omega)]
      simp
    | succ offset =>
      simp only [overlay, List.getElem_cons_succ]
      simp only [List.length_cons, Nat.add_lt_add_iff_right] at within
      have := ih (memory.setIfInBounds address byte) (address + 1) offset within (by omega)
      simpa only [Nat.add_assoc, Nat.add_comm 1 offset] using this

def slice (memory : Memory) (address length : Nat) : Except Fault (List UInt8) :=
  if h : InRange address length then .ok (memory.bytesAt address length h)
  else .error (.outOfBounds address length)

def load (memory : Memory) (address : Nat) (bytes : List UInt8) : Except Fault Memory :=
  if InRange address bytes.length then .ok (memory.overlay address bytes)
  else .error (.outOfBounds address bytes.length)

/-- The range is checked before any byte is made: a length may exceed what fits anywhere. -/
def fill (memory : Memory) (address length : Nat) (value : UInt8) : Except Fault Memory :=
  if InRange address length then .ok (memory.overlay address (List.replicate length value))
  else .error (.outOfBounds address length)

def read (memory : Memory) (address : Nat) : Except Fault UInt8 :=
  if h : InRange address 1 then .ok memory[address] else .error (.outOfBounds address 1)

def write (memory : Memory) (address : Nat) (value : UInt8) : Except Fault Memory :=
  memory.load address [value]

def word (memory : Memory) (address : Nat) : Except Fault UInt16 :=
  if h : InRange address 2 then
    .ok (memory[address].toUInt16 <<< 8 ||| memory[address + 1].toUInt16)
  else .error (.outOfBounds address 2)

end Memory
end ChipEight
