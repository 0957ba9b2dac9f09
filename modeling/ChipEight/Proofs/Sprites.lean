import Mathlib.Data.List.Nodup
import ChipEight.Proofs.Encoding

/-! Sprites, pixel by pixel. A drawing turns over the cells of a list one after the other, so only
how often a cell is listed matters to the picture. The cells of a sprite that is no taller than
the screen are all different, and they are those from which the way back to its corner, taken
around the screen, leads to a set bit. -/
namespace ChipEight

namespace Frame

theorem ext_pixel {first second : Frame} (same : ∀ cell, first.pixel cell = second.pixel cell) :
    first = second := by
  apply Vector.ext
  intro y row
  apply Vector.ext
  intro x column
  exact same ⟨⟨x, column⟩, ⟨y, row⟩⟩

theorem isLit_iff {frame : Frame} (binary : frame.Binary) (cell : Cell) :
    frame.isLit cell = true ↔ frame.pixel cell = 1 := by
  obtain dark | lit := binary cell
  · simp [isLit, dark]
  · simp [isLit, lit]

private theorem xor_one_eq {frame : Frame} (binary : frame.Binary) (cell : Cell) :
    frame.pixel cell ^^^ 1 = 1 - frame.pixel cell := by
  obtain dark | lit := binary cell
  · rw [dark]
    rfl
  · rw [lit]
    rfl

def toggleAll (frame : Frame) (cells : List Cell) : Frame := cells.foldl toggle frame

theorem toggleAll_append (frame : Frame) (first second : List Cell) :
    frame.toggleAll (first ++ second) = (frame.toggleAll first).toggleAll second :=
  List.foldl_append

/-- Being turned over twice is being left alone. -/
theorem pixel_toggleAll (frame : Frame) (cells : List Cell) (cell : Cell) :
    (frame.toggleAll cells).pixel cell =
      if cells.count cell % 2 = 1 then frame.pixel cell ^^^ 1 else frame.pixel cell := by
  induction cells generalizing frame with
  | nil => rfl
  | cons head rest ih =>
    have step : frame.toggleAll (head :: rest) = (frame.toggle head).toggleAll rest := rfl
    rw [step, ih, pixel_toggle, List.count_cons]
    by_cases here : cell = head
    · subst here
      have twice : frame.pixel cell ^^^ 1 ^^^ 1 = frame.pixel cell := by
        rw [UInt8.xor_assoc, UInt8.xor_self, UInt8.xor_zero]
      obtain even | odd := Nat.mod_two_eq_zero_or_one (rest.count cell)
      · simp [even, Nat.add_mod]
      · simp [odd, Nat.add_mod, twice]
    · have apart : (head == cell) = false := beq_eq_false_iff_ne.mpr (Ne.symm here)
      simp [here, apart]

theorem toggleAll_perm {first second : List Cell} (perm : first.Perm second) (frame : Frame) :
    frame.toggleAll first = frame.toggleAll second := by
  apply ext_pixel
  intro cell
  rw [pixel_toggleAll, pixel_toggleAll, perm.count_eq]

theorem toggleAll_twice {first second : List Cell} (perm : first.Perm second) (frame : Frame) :
    (frame.toggleAll first).toggleAll second = frame := by
  apply ext_pixel
  intro cell
  have even : (first ++ second).count cell % 2 = 0 := by
    rw [List.count_append, perm.count_eq]
    omega
  rw [← toggleAll_append, pixel_toggleAll, even]
  rfl

theorem pixel_toggleAll_of_nodup {cells : List Cell} (distinct : cells.Nodup) (frame : Frame)
    (cell : Cell) :
    (frame.toggleAll cells).pixel cell =
      if cell ∈ cells then frame.pixel cell ^^^ 1 else frame.pixel cell := by
  rw [pixel_toggleAll, distinct.count]
  by_cases listed : cell ∈ cells
  · simp [listed]
  · simp [listed]

end Frame

theorem Cell.eq_wrap_iff {x y column row : Nat} (narrow : column < 64) (low : row < 32)
    (cell : Cell) :
    cell = Cell.wrap (x + column) (y + row) ↔
      (cell.x - (Cell.wrap x y).x).val = column ∧ (cell.y - (Cell.wrap x y).y).val = row := by
  obtain ⟨⟨cellX, columnFits⟩, ⟨cellY, rowFits⟩⟩ := cell
  simp only [Cell.wrap, Cell.mk.injEq, Fin.ext_iff, Fin.val_ofNat, Fin.val_sub]
  omega

namespace Sprite

private theorem foldl_touch (cells : List Cell) (start : Drawing) :
    (cells.foldl Drawing.touch start).frame = start.frame.toggleAll cells := by
  induction cells generalizing start with
  | nil => rfl
  | cons cell rest ih => exact ih (start.touch cell)

theorem frame_draw (frame : Frame) (cells : List Cell) :
    (draw frame cells).frame = frame.toggleAll cells :=
  foldl_touch cells ⟨frame, false⟩

private theorem isLit_toggle_of_ne {frame : Frame} {target cell : Cell} (apart : cell ≠ target) :
    (frame.toggle target).isLit cell = frame.isLit cell := by
  rw [Frame.isLit, Frame.pixel_toggle, if_neg apart]
  rfl

private theorem erased_foldl_touch {cells : List Cell} (distinct : cells.Nodup) (start : Drawing) :
    (cells.foldl Drawing.touch start).erased = true ↔
      start.erased = true ∨ ∃ cell ∈ cells, start.frame.isLit cell = true := by
  induction cells generalizing start with
  | nil => simp
  | cons head rest ih =>
    obtain ⟨fresh, restDistinct⟩ := List.nodup_cons.mp distinct
    -- Turning the first cell over does not change how the others look.
    have others : (∃ cell ∈ rest, (start.touch head).frame.isLit cell = true) ↔
        ∃ cell ∈ rest, start.frame.isLit cell = true := by
      refine exists_congr fun cell => and_congr_right fun member => ?_
      have apart : cell ≠ head := fun same => fresh (same ▸ member)
      rw [Drawing.touch, isLit_toggle_of_ne apart]
    rw [List.foldl_cons, ih restDistinct, others]
    simp [Drawing.touch, or_assoc]

/-- No cell is touched twice, so what is erased was lit at the start. -/
theorem erased_draw {cells : List Cell} (distinct : cells.Nodup) (frame : Frame) :
    (draw frame cells).erased = true ↔ ∃ cell ∈ cells, frame.isLit cell = true := by
  rw [draw, erased_foldl_touch distinct]
  simp

theorem mem_rowCells {row : UInt8} {x y : Nat} {cell : Cell} :
    cell ∈ rowCells row x y ↔
      ∃ column < 8, isSet row column = true ∧ cell = Cell.wrap (x + column) y := by
  simp only [rowCells, List.mem_map, List.mem_filter, List.mem_range]
  constructor
  · rintro ⟨column, ⟨narrow, set⟩, rfl⟩
    exact ⟨column, narrow, set, rfl⟩
  · rintro ⟨column, narrow, set, rfl⟩
    exact ⟨column, ⟨narrow, set⟩, rfl⟩

theorem mem_cells {x y : Nat} {rows : List UInt8} {cell : Cell} :
    cell ∈ cells x y rows ↔
      ∃ index, ∃ h : index < rows.length, ∃ column < 8, isSet rows[index] column = true ∧
        cell = Cell.wrap (x + column) (y + index) := by
  induction rows generalizing y with
  | nil => simp [cells]
  | cons row rest ih =>
    rw [cells, List.mem_append, mem_rowCells, ih]
    constructor
    · rintro (top | ⟨index, h, below⟩)
      · exact ⟨0, Nat.succ_pos _, top⟩
      · refine ⟨index + 1, Nat.succ_lt_succ h, ?_⟩
        rwa [Nat.add_assoc, Nat.add_comm 1] at below
    · rintro ⟨index, h, set⟩
      cases index with
      | zero => exact .inl set
      | succ index =>
        refine .inr ⟨index, Nat.lt_of_succ_lt_succ h, ?_⟩
        rwa [Nat.add_assoc, Nat.add_comm 1]

private theorem nodup_rowCells (row : UInt8) (x y : Nat) : (rowCells row x y).Nodup := by
  refine List.Nodup.map_on ?_ (List.nodup_range.filter _)
  have place {column : Nat} (member : column ∈ (List.range 8).filter (isSet row)) :
      ((Cell.wrap (x + column) y).x - (Cell.wrap x y).x).val = column := by
    have narrow := List.mem_range.mp (List.mem_of_mem_filter member)
    have top : 0 < 32 := by decide
    exact ((Cell.eq_wrap_iff (by omega) top _).mp rfl).1
  intro first firstMember second secondMember same
  have here := place firstMember
  rw [same, place secondMember] at here
  exact here.symm

/-- A sprite wraps onto itself only if it is taller than the screen. -/
theorem nodup_cells (x y : Nat) {rows : List UInt8} (short : rows.length ≤ 32) :
    (cells x y rows).Nodup := by
  induction rows generalizing y with
  | nil => exact List.nodup_nil
  | cons row rest ih =>
    rw [List.length_cons] at short
    rw [cells, List.nodup_append]
    refine ⟨nodup_rowCells row x y, ih (y + 1) (by omega), ?_⟩
    rintro cell above other below rfl
    obtain ⟨column, -, -, rfl⟩ := mem_rowCells.mp above
    obtain ⟨index, h, otherColumn, -, -, same⟩ := mem_cells.mp below
    have rowsMeet := congrArg (fun cell : Cell => cell.y.val) same
    simp only [Cell.wrap, Fin.val_ofNat] at rowsMeet
    omega

end Sprite

namespace State

/-- Whether a sprite with so many rows from the index on has a set bit on a cell when its top left
corner is at another. Distances are taken around the screen. -/
def spriteCovers (state : State) (corner : Cell) (height : Nat) (cell : Cell) : Bool :=
  let row := (cell.y - corner.y).val
  let column := (cell.x - corner.x).val
  row < height && column < 8 &&
    (state.memory[state.i.toNat + row]?.getD 0).toNat.testBit (7 - column)

def corner (state : State) (x y : Fin 16) : Cell :=
  Cell.wrap (state.v.get x).toNat (state.v.get y).toNat

def spriteCells (state : State) (x y : Fin 16) (height : Nat)
    (fits : Memory.InRange state.i.toNat height) : List Cell :=
  Sprite.cells (state.v.get x).toNat (state.v.get y).toNat
    (state.memory.bytesAt state.i.toNat height fits)

variable {state : State} {height : Nat}

theorem nodup_spriteCells (x y : Fin 16) (fits : Memory.InRange state.i.toNat height)
    (short : height ≤ 32) : (state.spriteCells x y height fits).Nodup :=
  Sprite.nodup_cells _ _ (by rwa [Memory.length_bytesAt])

theorem isSet_bytesAt (memory : Memory) {address row : Nat} (fits : Memory.InRange address height)
    (h : row < (memory.bytesAt address height fits).length) (column : Nat) :
    Sprite.isSet (memory.bytesAt address height fits)[row] column =
      (memory[address + row]?.getD 0).toNat.testBit (7 - column) := by
  have below : row < height := by rwa [Memory.length_bytesAt] at h
  rw [Vector.getElem?_eq_getElem (by omega)]
  simp [Memory.bytesAt, Sprite.isSet]

private theorem spriteCovers_iff {corner cell : Cell} :
    state.spriteCovers corner height cell = true ↔
      (cell.y - corner.y).val < height ∧ (cell.x - corner.x).val < 8 ∧
        (state.memory[state.i.toNat + (cell.y - corner.y).val]?.getD 0).toNat.testBit
          (7 - (cell.x - corner.x).val) = true := by
  simp [spriteCovers, and_assoc]

theorem mem_spriteCells {x y : Fin 16} {fits : Memory.InRange state.i.toNat height}
    (short : height ≤ 32) {cell : Cell} :
    cell ∈ state.spriteCells x y height fits ↔
      state.spriteCovers (state.corner x y) height cell = true := by
  rw [spriteCovers_iff, corner, spriteCells, Sprite.mem_cells]
  constructor
  · rintro ⟨row, h, column, narrow, set, same⟩
    rw [isSet_bytesAt] at set
    rw [Memory.length_bytesAt] at h
    obtain ⟨rfl, rfl⟩ := (Cell.eq_wrap_iff (by omega) (by omega) cell).mp same
    exact ⟨h, narrow, set⟩
  · rintro ⟨h, narrow, set⟩
    refine ⟨_, by rwa [Memory.length_bytesAt], _, narrow, by rwa [isSet_bytesAt], ?_⟩
    exact (Cell.eq_wrap_iff (by omega) (by omega) cell).mpr ⟨rfl, rfl⟩

theorem drawSprite_of_fits (state : State) (x y height : UInt8)
    (fits : Memory.InRange state.i.toNat height.toNat) :
    state.drawSprite x y height =
      let drawing := Sprite.draw state.frame
        (Sprite.cells x.toNat y.toNat (state.memory.bytesAt state.i.toNat height.toNat fits))
      .ok { state with
        v := state.v.setFlag drawing.erased, frame := drawing.frame, drawFlag := true } := by
  rw [drawSprite, Memory.slice, dif_pos fits]
  rfl

end State

theorem Attempt.result_drawSprite (state : State) (x y n : Fin 16)
    (fits : Memory.InRange state.i.toNat n.val) (address : UInt16) (policy : MachineCodePolicy)
    (byte : UInt8) :
    (ofOpcode (Kind.drawSprite.encode x y n) address policy byte state).result =
      let drawing := Sprite.draw state.frame (state.spriteCells x y n.val fits)
      .ok { state with
        v := state.v.setFlag drawing.erased, frame := drawing.frame, drawFlag := true } := by
  have program : Kind.drawSprite ≠ .machineCode := nofun
  obtain ⟨instruction, carries, result⟩ :=
    result_ofOpcode_encode program x y n address policy byte state
  have height : instruction.n.toNat = n.val := carries.n_eq
  have first : instruction.x = x := carries.x_eq
  have second : instruction.y = y := carries.y_eq
  rw [result, Instruction.perform, carries.kind_eq, first, second]
  simp only
  rw [State.drawSprite_of_fits _ _ _ _ (height ▸ fits)]
  simp only [height, State.spriteCells]

/-- An opcode that draws a sprite turns over exactly the pixels that the sprite covers, and the flag
register tells whether one of them was lit. It does so for any registers, the flag register
included, and changes nothing else. A sprite without rows turns nothing over and still asks for
a redraw. -/
theorem State.sprites_turn_covered_pixels {state : State} (binary : state.frame.Binary)
    (x y n : Fin 16) (fits : state.i.toNat + n.val ≤ 4096) (address : UInt16)
    (policy : MachineCodePolicy) (byte : UInt8) :
    let covered := state.spriteCovers (state.corner x y) n.val
    ∃ frame flag,
      (Attempt.ofOpcode (Kind.drawSprite.encode x y n) address policy byte state).result =
        .ok { state with v := state.v.set 15 (if flag then 1 else 0), frame, drawFlag := true } ∧
      (∀ cell, frame.pixel cell =
        if covered cell then 1 - state.frame.pixel cell else state.frame.pixel cell) ∧
      (flag = true ↔ ∃ cell, covered cell = true ∧ state.frame.pixel cell = 1) ∧
      (n = 0 → frame = state.frame ∧ flag = false) := by
  intro covered
  have short : n.val ≤ 32 := by omega
  have distinct := state.nodup_spriteCells x y fits short
  refine ⟨_, _, Attempt.result_drawSprite state x y n fits address policy byte, ?_, ?_, ?_⟩
  · intro cell
    rw [Sprite.frame_draw, Frame.pixel_toggleAll_of_nodup distinct, Frame.xor_one_eq binary]
    exact if_congr (mem_spriteCells short) rfl rfl
  · rw [Sprite.erased_draw distinct]
    refine exists_congr fun cell => ?_
    rw [mem_spriteCells short, Frame.isLit_iff binary]
  · rintro rfl
    exact ⟨rfl, rfl⟩

/-- A sprite over the corner of the screen, with the flag register for a coordinate. One of its
pixels comes out again on the opposite side, and another meets a lit one there. -/
theorem State.sprite_wraps_at_corner :
    let state : State :=
      { (State.zero.setRegister 0 62).setRegister 15 31 with
        memory := State.zero.memory.overlay 0x300 [0xFF, 0x80]
        i := 0x300
        frame := Frame.blank.toggle (Cell.wrap 62 32) }
    ∃ frame,
      (Attempt.ofOpcode 0xD0F2 0x200 .ignore 0 state).result =
        .ok { state.setRegister 15 1 with frame, drawFlag := true } ∧
      frame.pixel (Cell.wrap 69 31) = 1 ∧ frame.pixel (Cell.wrap 62 32) = 0 ∧
      frame.pixel (Cell.wrap 63 32) = 0 := by
  intro state
  have binary : state.frame.Binary := by
    intro cell
    rw [Frame.pixel_toggle, Frame.pixel_blank]
    split
    · exact .inr rfl
    · exact .inl rfl
  have fits : state.i.toNat + (2 : Fin 16).val ≤ 4096 := by decide
  obtain ⟨frame, flag, result, pixels, erased, -⟩ :=
    sprites_turn_covered_pixels binary 0 15 2 fits 0x200 .ignore 0
  have lit : flag = true :=
    erased.mpr ⟨Cell.wrap 62 32, by decide +kernel, by decide +kernel⟩
  subst lit
  refine ⟨frame, result, ?_, ?_, ?_⟩
  · rw [pixels]
    decide +kernel
  · rw [pixels]
    decide +kernel
  · rw [pixels]
    decide +kernel

end ChipEight
