import ChipEight.Frame.Sprite
import ChipEight.State

namespace ChipEight.State

def clearScreen (state : State) : State :=
  { state with frame := Frame.blank, drawFlag := true }

/-- The flag register tells whether a lit pixel was erased. Coordinates are taken before
it is written, so it can serve as one of them. -/
def drawSprite (state : State) (x y height : UInt8) : Except Fault State := do
  let rows ← state.memory.slice state.i.toNat height.toNat
  let drawing := Sprite.draw state.frame (Sprite.cells x.toNat y.toNat rows)
  .ok { state with v := state.v.setFlag drawing.erased, frame := drawing.frame, drawFlag := true }

end ChipEight.State
