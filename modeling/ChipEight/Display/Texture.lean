import ChipEight.Frame

/-! Frames as textures: rows one after the other, three equal channels a pixel. The
memory of a texture belongs to the video driver, which may leave a gap after each row;
its pitch is the distance from the start of one row to that of the next. -/
namespace ChipEight.Display

def channels : Nat := 3

def rowBytes : Nat := Frame.width * channels

/-- Full intensity for a pixel that is lit. The product must fit a byte. -/
def intensity? (pixel : UInt8) : Option UInt8 :=
  if pixel.toNat * 255 < 256 then some (pixel * 255) else none

def rgb? (frame : Frame) : Option (List UInt8) := do
  let pixels := frame.toList.flatMap Vector.toList
  let intensities ← pixels.mapM intensity?
  some (intensities.flatMap (List.replicate channels))

/-- A list in parts of this length. The last one may be shorter. -/
def chunks (length : Nat) (bytes : List UInt8) : List (List UInt8) :=
  if bytes = [] ∨ length = 0 then []
  else bytes.take length :: chunks length (bytes.drop length)
termination_by bytes.length
decreasing_by
  rename_i more
  have some : 0 < bytes.length := List.length_pos_iff.mpr fun none => more (.inl none)
  have wide : length ≠ 0 := fun empty => more (.inr empty)
  rw [List.length_drop]
  omega

def copy? (buffer : Array UInt8) (start : Nat) (bytes : List UInt8) : Option (Array UInt8) :=
  if start + bytes.length ≤ buffer.size then
    some (buffer.mapIdx fun index old =>
      if start ≤ index then bytes[index - start]?.getD old else old)
  else none

def upload? (rgb : List UInt8) (pitch : Nat) (buffer : Array UInt8) : Option (Array UInt8) :=
  (chunks rowBytes rgb).zipIdx.foldlM
    (fun buffer (pixels, row) => copy? buffer (row * pitch) pixels) buffer

end ChipEight.Display
