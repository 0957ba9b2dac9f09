namespace ChipEight

structure Cell where
  x : Fin 64
  y : Fin 32
deriving DecidableEq, Repr

def Cell.wrap (x y : Nat) : Cell := ⟨Fin.ofNat 64 x, Fin.ofNat 32 y⟩

abbrev Frame := Vector (Vector UInt8 64) 32

namespace Frame

def width : Nat := 64
def height : Nat := 32

def blank : Frame := Vector.replicate 32 (Vector.replicate 64 0)

def pixel (frame : Frame) (cell : Cell) : UInt8 := frame[cell.y.val][cell.x.val]

@[simp] theorem pixel_blank (cell : Cell) : blank.pixel cell = 0 := by
  simp [pixel, blank]

def setPixel (frame : Frame) (cell : Cell) (value : UInt8) : Frame :=
  frame.set cell.y.val (frame[cell.y.val].set cell.x.val value)

theorem pixel_setPixel (frame : Frame) (target : Cell) (value : UInt8) (cell : Cell) :
    (frame.setPixel target value).pixel cell =
      if cell = target then value else frame.pixel cell := by
  obtain ⟨targetX, targetY⟩ := target
  obtain ⟨x, y⟩ := cell
  simp only [pixel, setPixel, Cell.mk.injEq, Vector.getElem_set]
  by_cases row : targetY = y <;> by_cases column : targetX = x <;>
    simp_all [Fin.val_inj, eq_comm]

def toggle (frame : Frame) (cell : Cell) : Frame :=
  frame.setPixel cell (frame.pixel cell ^^^ 1)

theorem pixel_toggle (frame : Frame) (target cell : Cell) :
    (frame.toggle target).pixel cell =
      if cell = target then frame.pixel cell ^^^ 1 else frame.pixel cell := by
  rw [toggle, pixel_setPixel]
  split <;> simp_all

def isLit (frame : Frame) (cell : Cell) : Bool := frame.pixel cell &&& 1 == 1

def Binary (frame : Frame) : Prop := ∀ cell, frame.pixel cell = 0 ∨ frame.pixel cell = 1

theorem binary_blank : blank.Binary := fun cell => by simp

end Frame
end ChipEight
