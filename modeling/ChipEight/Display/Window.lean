import ChipEight.Display.Texture

/-! The window. Its size is a product of 32-bit numbers that nothing checks beforehand. The
rest is up to the graphics library, which may turn anything down with a text of its own; once
the window is open, a texture is stretched over all of it. -/
namespace ChipEight.Display

structure Window where
  width : UInt32
  height : UInt32
deriving DecidableEq, Repr

/-- A product of 32-bit numbers. There is none if it takes more than 32 bits. -/
def product? (first second : UInt32) : Option UInt32 :=
  if first.toNat * second.toNat < UInt32.size then some (first * second) else none

namespace Window

def ofScale? (scale : UInt32) : Option Window := do
  let width ← product? 64 scale
  let height ← product? 32 scale
  some ⟨width, height⟩

/-- What the window shows of a texture without gaps: each pixel of the window takes the
colour of the place in the picture that lies under it. -/
def stretch (window : Window) (texture : Array UInt8) : Array UInt8 :=
  Array.ofFn fun index : Fin (window.height.toNat * (3 * window.width.toNat)) =>
    let line := 3 * window.width.toNat
    let x := index.val % line / 3 * 64 / window.width.toNat
    let y := index.val / line * 32 / window.height.toNat
    texture.getD (192 * y + 3 * x + index.val % 3) 0

def render? (window : Window) (frame : Frame) : Option (Array UInt8) := do
  let rgb ← rgb? frame
  let texture ← upload? rgb rowBytes (Array.replicate 6144 0)
  some (window.stretch texture)

end Window

/-- What a graphics library answers, step by step on the way to a window: either it goes along
or it says in its own words why not. -/
structure Library where
  start : Except String Unit
  video : Except String Unit
  /-- By the title and the window. -/
  build : String → Window → Except String Unit
  canvas : Window → Except String Unit
  events : Except String Unit

namespace Library

/-- A side is handed on as a signed number, so half the range is left for it. -/
def sideLimit : Nat := 0x80000000

def maxSide : Nat := 16384

/-- The library on a system without a screen. It looks at the size before it looks at the
driver. -/
def dummy : Library where
  start := .ok ()
  video := .ok ()
  build _ window :=
    if sideLimit ≤ window.width.toNat then
      .error s!"Window width ({window.width.toNat}) is too high."
    else if sideLimit ≤ window.height.toNat then
      .error s!"Window height ({window.height.toNat}) is too high."
    else if maxSide < window.width.toNat ∨ maxSide < window.height.toNat then
      .error "SDL error: Window is too large."
    else
      .error ("SDL error: OpenGL support is either not configured in SDL or not available " ++
        "in current SDL video driver (dummy) or platform")
  canvas _ := .ok ()
  events := .ok ()

end Library

structure DisplayError where
  reason : String
deriving DecidableEq, Repr

def DisplayError.message (error : DisplayError) : String := s!"SDL error: {error.reason}"

end ChipEight.Display
