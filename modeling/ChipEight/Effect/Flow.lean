import ChipEight.State

/-! Moves of the program counter. When an instruction runs the counter is already past
it, so going on means leaving it alone, and trying again means taking it back. -/
namespace ChipEight.State

def jump (state : State) (target : UInt16) : State := { state with pc := target }

def skipIf (state : State) (condition : Bool) : Except Fault State :=
  if condition then state.advance else .ok state

@[simp] theorem skipIf_false (state : State) : state.skipIf false = .ok state := rfl

@[simp] theorem skipIf_true (state : State) : state.skipIf true = state.advance := rfl

/-- The sum is exact: a target that does not fit the counter is refused. -/
def jumpFrom (state : State) (offset : UInt8) (target : UInt16) : Except Fault State :=
  if offset.toNat + target.toNat < 65536 then
    .ok (state.jump (offset.toUInt16 + target))
  else .error .jumpTargetAstray

/-- Pushes the counter as it stands, that is the address after the call. -/
def call (state : State) (caller target : UInt16) : Except Fault State :=
  match state.stack.push? state.pc with
  | some stack => .ok { state with pc := target, stack }
  | none => .error (.stackOverflow caller)

def returnTo (state : State) (caller : UInt16) : Except Fault State :=
  if state.stack.pointer = 0 then .error (.stackUnderflow caller)
  else
    match state.stack.top? with
    | some pc => .ok { state with pc, stack := state.stack.drop }
    | none => .error (.stackPointerAstray state.stack.pointer)

/-- With no key held the same instruction is tried again in the next cycle. -/
def awaitKey (state : State) (target : Fin 16) : Except Fault State :=
  match state.keys.firstHeld? with
  | some key =>
    .ok { state with v := state.v.set target.val (UInt8.ofNat key.val) (digit_lt target) }
  | none => state.rewind

end ChipEight.State
