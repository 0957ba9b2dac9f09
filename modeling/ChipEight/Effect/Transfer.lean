import ChipEight.Effect.Byte
import ChipEight.State

namespace ChipEight.State

def storeDecimal (state : State) (value : UInt8) : Except Fault State :=
  state.load state.i.toNat (Effect.decimalDigits value)

def storeRegisters (state : State) (last : Fin 16) : Except Fault State :=
  state.load state.i.toNat (state.v.upTo last)

def loadRegisters (state : State) (last : Fin 16) : Except Fault State := do
  let values ← state.memory.slice state.i.toNat (last.val + 1)
  .ok { state with v := state.v.replaceFirst values }

end ChipEight.State
