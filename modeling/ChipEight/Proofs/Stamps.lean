import ChipEight.Proofs.Soundness
import ChipEight.Proofs.Sprites

/-! Drawings one after the other. Each turns its cells over, wherever the sprites before it may lie,
so the picture that is left does not hang on their order, and drawing everything once more takes
it back to where it was. Sprites may be taller than the screen here and turn some of their own
pixels back. -/
namespace ChipEight

/-- A sprite to be drawn: the instruction, which may be made by hand, and what the registers of its
corner and the index are set to before it is carried out. -/
structure Stamp where
  instruction : Instruction
  draws : instruction.kind = .drawSprite
  left : UInt8
  top : UInt8
  index : UInt16
  fits : Memory.InRange index.toNat instruction.n.toNat

namespace Stamp

def aim (stamp : Stamp) (state : State) : State :=
  { (state.setRegister stamp.instruction.x stamp.left).setRegister stamp.instruction.y stamp.top with
    i := stamp.index }

def perform (byte : UInt8) (state : State) (stamp : Stamp) : Except Fault State :=
  stamp.instruction.perform byte (stamp.aim state)

def performAll (byte : UInt8) (state : State) (stamps : List Stamp) : Except Fault State :=
  stamps.foldlM (perform byte) state

/-- The cells that the sprite turns over. The second register is set last, should both be one. -/
def cells (memory : Memory) (stamp : Stamp) : List Cell :=
  let left := if stamp.instruction.x = stamp.instruction.y then stamp.top else stamp.left
  Sprite.cells left.toNat stamp.top.toNat
    (memory.bytesAt stamp.index.toNat stamp.instruction.n.toNat stamp.fits)

structure Turns (state : State) (cells : List Cell) (after : State) : Prop where
  memory : after.memory = state.memory
  frame : after.frame = state.frame.toggleAll cells

private theorem exists_perform (byte : UInt8) (state : State) (stamp : Stamp) :
    ∃ after, perform byte state stamp = .ok after ∧
      Turns state (stamp.cells state.memory) after := by
  have left : (stamp.aim state).v.get stamp.instruction.x =
      if stamp.instruction.x = stamp.instruction.y then stamp.top else stamp.left := by
    simp only [aim, State.setRegister, Registers.get_set, if_pos]
  have top : (stamp.aim state).v.get stamp.instruction.y = stamp.top := by
    simp only [aim, State.setRegister, Registers.get_set, if_pos]
  have drawn := State.drawSprite_of_fits (stamp.aim state)
    ((stamp.aim state).v.get stamp.instruction.x) ((stamp.aim state).v.get stamp.instruction.y)
    stamp.instruction.n stamp.fits
  rw [perform, Instruction.perform, stamp.draws]
  refine ⟨_, drawn, rfl, ?_⟩
  simp only [Sprite.frame_draw, left, top]
  rfl

theorem exists_performAll (byte : UInt8) (state : State) (stamps : List Stamp) :
    ∃ after, performAll byte state stamps = .ok after ∧
      Turns state (stamps.flatMap (cells state.memory)) after := by
  induction stamps generalizing state with
  | nil => exact ⟨state, rfl, rfl, rfl⟩
  | cons stamp rest ih =>
    obtain ⟨next, drawn, turned⟩ := exists_perform byte state stamp
    obtain ⟨after, done, further⟩ := ih next
    refine ⟨after, ?_, further.memory.trans turned.memory, ?_⟩
    · rw [performAll, List.foldlM_cons, drawn]
      exact done
    · rw [further.frame, turned.memory, turned.frame, ← Frame.toggleAll_append,
        List.flatMap_cons]

end Stamp

theorem Sprite.erased_again {frame : Frame} (binary : frame.Binary) {cells : List Cell}
    (distinct : cells.Nodup) :
    (draw (frame.toggleAll cells) cells).erased = true ↔
      ∃ cell ∈ cells, frame.pixel cell = 0 := by
  have binaryOnce : (frame.toggleAll cells).Binary := by
    rw [← frame_draw]
    exact binary_draw binary cells
  rw [erased_draw distinct]
  refine exists_congr fun cell => and_congr_right fun member => ?_
  rw [Frame.isLit_iff binaryOnce, Frame.pixel_toggleAll_of_nodup distinct, if_pos member]
  obtain dark | lit := binary cell
  · simp [dark]
  · simp [lit]

theorem Attempt.redraw {state : State} {x y n : Fin 16} (plainX : x ≠ 15) (plainY : y ≠ 15)
    (fits : Memory.InRange state.i.toNat n.val) (address nextAddress : UInt16)
    (policy : MachineCodePolicy) (byte : UInt8) :
    let cells := state.spriteCells x y n.val fits
    ∃ first,
      (ofOpcode (Kind.drawSprite.encode x y n) address policy byte state).result = .ok first ∧
      ∀ next : State, next.memory = first.memory → next.v = first.v → next.i = first.i →
        next.frame = first.frame →
        ∃ last,
          (ofOpcode (Kind.drawSprite.encode x y n) nextAddress policy byte next).result =
            .ok last ∧
          last.frame = state.frame ∧
          last.v.get 15 =
            Registers.flagByte (Sprite.draw (state.frame.toggleAll cells) cells).erased := by
  intro cells
  refine ⟨_, result_drawSprite state x y n fits address policy byte, ?_⟩
  intro next memory registers index frame
  have nextFits : Memory.InRange next.i.toNat n.val := by rwa [index]
  have left : next.v.get x = state.v.get x := by
    rw [registers, Registers.get_setFlag, if_neg plainX]
  have top : next.v.get y = state.v.get y := by
    rw [registers, Registers.get_setFlag, if_neg plainY]
  have same : next.spriteCells x y n.val nextFits = cells := by
    simp only [cells, State.spriteCells, memory, index, left, top]
  have shown : next.frame = state.frame.toggleAll cells := frame.trans (Sprite.frame_draw _ _)
  have again := result_drawSprite next x y n nextFits nextAddress policy byte
  rw [same, shown] at again
  refine ⟨_, again, ?_, ?_⟩
  · simp only [Sprite.frame_draw]
    exact Frame.toggleAll_twice (List.Perm.refl cells) state.frame
  · simp only [Registers.get_setFlag, if_pos]

/-- The order of drawings makes no difference to the picture, and drawing all of them once more, in
any order, takes it back. An opcode that is carried out twice tells by the flag register whether
its sprite lit anything the first time. -/
theorem Stamp.drawings_commute_and_cancel {state : State} (binary : state.frame.Binary)
    (byte : UInt8) :
    (∀ stamps shuffled again : List Stamp, stamps.Perm shuffled → stamps.Perm again →
      ∃ first other last,
        performAll byte state stamps = .ok first ∧ performAll byte state shuffled = .ok other ∧
        other.frame = first.frame ∧
        performAll byte first again = .ok last ∧ last.frame = state.frame) ∧
    ∀ x y n : Fin 16, x ≠ 15 → y ≠ 15 → state.i.toNat + n.val ≤ 4096 →
      ∀ address nextAddress policy,
        ∃ first,
          (Attempt.ofOpcode (Kind.drawSprite.encode x y n) address policy byte state).result =
            .ok first ∧
          ∀ next : State, next.memory = first.memory → next.v = first.v → next.i = first.i →
            next.frame = first.frame →
            ∃ last flag,
              (Attempt.ofOpcode (Kind.drawSprite.encode x y n) nextAddress policy byte
                next).result = .ok last ∧
              last.frame = state.frame ∧ last.v.get 15 = (if flag then 1 else 0) ∧
              (flag = true ↔ ∃ cell,
                state.spriteCovers (state.corner x y) n.val cell = true ∧
                  state.frame.pixel cell = 0) := by
  refine ⟨?_, ?_⟩
  · intro stamps shuffled again shuffle reorder
    obtain ⟨first, drawn, turned⟩ := exists_performAll byte state stamps
    obtain ⟨other, otherDrawn, otherTurned⟩ := exists_performAll byte state shuffled
    obtain ⟨last, redrawn, returned⟩ := exists_performAll byte first again
    refine ⟨first, other, last, drawn, otherDrawn, ?_, redrawn, ?_⟩
    · rw [otherTurned.frame, turned.frame]
      exact Frame.toggleAll_perm (shuffle.symm.flatMap_right _) state.frame
    · rw [returned.frame, turned.memory, turned.frame]
      exact Frame.toggleAll_twice (reorder.flatMap_right _) state.frame
  · intro x y n plainX plainY fits address nextAddress policy
    have short : n.val ≤ 32 := by omega
    have distinct := state.nodup_spriteCells x y fits short
    obtain ⟨first, drawn, onward⟩ :=
      Attempt.redraw plainX plainY fits address nextAddress policy byte
    refine ⟨first, drawn, ?_⟩
    intro next memory registers index frame
    obtain ⟨last, redrawn, restored, flag⟩ := onward next memory registers index frame
    refine ⟨last, _, redrawn, restored, flag, ?_⟩
    rw [Sprite.erased_again binary distinct]
    refine exists_congr fun cell => ?_
    rw [State.mem_spriteCells short]

/-- A sprite taller than the screen, with the flag register for a coordinate, and a glyph that it
runs over; and then the glyph twice in a row. -/
theorem Stamp.glyph_under_tall_sprite :
    let state : State :=
      { State.zero with memory := State.zero.memory.overlay Font.start Font.glyphs }
    let digits := Operands.ofOpcode 0xD015
    let glyph : Stamp :=
      { instruction := { digits with
          opcode := 0xD015, address := 0x200, segment := 0xD, kind := .drawSprite }
        draws := rfl, left := 60, top := 30, index := 0, fits := by decide }
    let tall : Stamp :=
      { instruction := { glyph.instruction with x := 15, y := 0, n := 40 }
        draws := rfl, left := 62, top := 1, index := 10, fits := by decide }
    (∃ first other last,
      performAll 0 state [glyph, tall] = .ok first ∧
      performAll 0 state [tall, glyph] = .ok other ∧ other.frame = first.frame ∧
      performAll 0 first [tall, glyph] = .ok last ∧ last.frame = state.frame) ∧
    ∃ first last,
      (Attempt.ofOpcode 0xD015 0x200 .ignore 0 state).result = .ok first ∧
      (Attempt.ofOpcode 0xD015 0x202 .ignore 0 { first with pc := 0x204 }).result = .ok last ∧
      last.frame = state.frame ∧ last.v.get 15 = 1 := by
  intro state digits glyph tall
  have swapped : [glyph, tall].Perm [tall, glyph] := .swap tall glyph []
  have binary : state.frame.Binary := Frame.binary_blank
  have fits : state.i.toNat + (5 : Fin 16).val ≤ 4096 := by decide
  obtain ⟨shuffle, twice⟩ := drawings_commute_and_cancel binary 0
  refine ⟨shuffle _ _ _ swapped swapped, ?_⟩
  obtain ⟨first, drawn, onward⟩ := twice 0 1 5 (by decide) (by decide) fits 0x200 0x202 .ignore
  obtain ⟨last, flag, redrawn, restored, shown, erased⟩ :=
    onward { first with pc := 0x204 } rfl rfl rfl rfl
  have lit : flag = true :=
    erased.mpr ⟨Cell.wrap 0 0, by decide +kernel, Frame.pixel_blank _⟩
  rw [lit] at shown
  exact ⟨first, last, drawn, redrawn, restored, shown⟩

end ChipEight
