import ChipEight.CallStack
import ChipEight.Font
import ChipEight.Frame
import ChipEight.Keypad
import ChipEight.Memory
import ChipEight.Registers

/-! Everything a program can see or change, and the moves on it that do not depend on
which instruction runs. A move that fails gives no state: the caller keeps its own. -/
namespace ChipEight

structure State where
  memory : Memory
  v : Registers
  i : UInt16
  pc : UInt16
  stack : CallStack
  delayTimer : UInt8
  soundTimer : UInt8
  frame : Frame
  keys : Keys
  /-- Raised by whatever calls for the picture to be shown again. -/
  drawFlag : Bool
deriving DecidableEq

namespace State

def programStart : UInt16 := 0x200

def maxRomSize : Nat := 3584

def opcodeStep : Nat := 2

def zero : State where
  memory := Memory.zero
  v := Registers.zero
  i := 0
  pc := 0
  stack := CallStack.empty
  delayTimer := 0
  soundTimer := 0
  frame := Frame.blank
  keys := Keys.released
  drawFlag := false

/-- A fresh machine with the font and a program in place. The counter still rests at
zero: it is sent to the program when the machine first runs. -/
def loaded (rom : List UInt8) : Except Fault State := do
  let withFont ← Memory.zero.load Font.start Font.glyphs
  let withProgram ← withFont.load programStart.toNat rom
  .ok { zero with memory := withProgram }

/-- The counter may rest just past the last word; the next fetch rejects it there. -/
def advance (state : State) : Except Fault State :=
  if state.pc.toNat + 2 ≤ 4096 then .ok { state with pc := state.pc + 2 }
  else .error (.programCounterOverflow state.pc)

/-- Back by one instruction, but never onto address zero. -/
def rewind (state : State) : Except Fault State :=
  if 2 < state.pc.toNat then .ok { state with pc := state.pc - 2 }
  else .error (.programCounterUnderflow state.pc)

def fetch (state : State) : Except Fault (UInt16 × State) := do
  let opcode ← state.memory.word state.pc.toNat
  let advanced ← state.advance
  .ok (opcode, advanced)

def tick (state : State) : State :=
  { state with
    delayTimer := if state.delayTimer = 0 then 0 else state.delayTimer - 1
    soundTimer := if state.soundTimer = 0 then 0 else state.soundTimer - 1 }

theorem toNat_countDown (timer : UInt8) :
    (if timer = 0 then 0 else timer - 1).toNat = timer.toNat - 1 := by
  split
  · simp_all
  · next nonzero =>
    have : timer.toNat ≠ 0 := fun h => nonzero (UInt8.toNat_inj.mp h)
    rw [UInt8.toNat_sub_of_le _ _ (by rw [UInt8.le_iff_toNat_le]; simp; omega)]
    rfl

@[simp] theorem toNat_delayTimer_tick (state : State) :
    state.tick.delayTimer.toNat = state.delayTimer.toNat - 1 := toNat_countDown _

@[simp] theorem toNat_soundTimer_tick (state : State) :
    state.tick.soundTimer.toNat = state.soundTimer.toNat - 1 := toNat_countDown _

/-- A change of one key also asks for a redraw, for hosts that show the keys. -/
def setKey (state : State) (key : UInt8) (held : Bool) : Except Fault State :=
  if h : key.toNat < 16 then
    .ok { state with keys := state.keys.set key.toNat held, drawFlag := true }
  else .error (.invalidKey key)

/-- A whole snapshot replaces the keys without asking for a redraw. -/
def setKeys (state : State) (keys : Keys) : State := { state with keys }

def load (state : State) (address : Nat) (bytes : List UInt8) : Except Fault State := do
  let memory ← state.memory.load address bytes
  .ok { state with memory }

def fill (state : State) (address length : Nat) (value : UInt8) : Except Fault State := do
  let memory ← state.memory.fill address length value
  .ok { state with memory }

def write (state : State) (address : Nat) (value : UInt8) : Except Fault State := do
  let memory ← state.memory.write address value
  .ok { state with memory }

end State
end ChipEight
