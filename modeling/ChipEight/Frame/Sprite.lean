import ChipEight.Frame

/-! Sprites are eight pixels wide, one byte a row, and are drawn by turning pixels over.
A drawing is the list of the cells that it turns over, so that what it does to the
picture depends on how often each cell is listed and on nothing else. -/
namespace ChipEight.Sprite

def width : Nat := 8

def isSet (row : UInt8) (column : Nat) : Bool := row.toNat.testBit (7 - column)

/-- Where the set bits of one row land when its left end is at `x`. -/
def rowCells (row : UInt8) (x y : Nat) : List Cell :=
  ((List.range 8).filter (isSet row)).map fun column => Cell.wrap (x + column) y

def cells (x : Nat) : Nat → List UInt8 → List Cell
  | _, [] => []
  | y, row :: rest => rowCells row x y ++ cells x (y + 1) rest

structure Drawing where
  frame : Frame
  erased : Bool

def Drawing.touch (drawing : Drawing) (cell : Cell) : Drawing where
  frame := drawing.frame.toggle cell
  erased := drawing.erased || drawing.frame.isLit cell

def draw (frame : Frame) (cells : List Cell) : Drawing :=
  cells.foldl Drawing.touch ⟨frame, false⟩

@[simp] theorem draw_nil (frame : Frame) : draw frame [] = ⟨frame, false⟩ := rfl

end ChipEight.Sprite
