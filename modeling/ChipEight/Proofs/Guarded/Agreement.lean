import ChipEight.Proofs.Attempt
import ChipEight.Proofs.Guarded

/-! Where the guarded meaning of an instruction is its plain meaning. Only a return can trap at
all: registers of a decoded instruction exist, screen coordinates wrap, blocks of memory
are checked as a whole, and a call looks at the stack pointer first. What remains is a
stack pointer that names no slot. -/
namespace ChipEight
namespace Guarded
variable {α β : Type} {size : Nat}

@[simp] theorem ok_bind (value : α) (next : α → Guarded β) : (.ok value >>= next) = next value :=
  rfl

theorem get_of_lt (table : Table) (values : Vector α size) {index : Nat} (h : index < size) :
    get table values index = .ok values[index] := by
  rw [get, dif_pos h]

theorem set_of_lt (table : Table) (values : Vector α size) {index : Nat} (h : index < size)
    (value : α) : set table values index value = .ok (values.set index value) := by
  rw [set, dif_pos h]

theorem sum_of_lt {limit left right : Nat} (fits : left + right < limit) :
    sum limit left right = .ok (left + right) := by
  rw [sum, if_pos fits]

theorem difference_of_le {left right : Nat} (fits : right ≤ left) :
    difference left right = .ok (left - right) := by
  rw [difference, if_pos fits]

theorem read_of_le (table : Table) (values : Vector α size) {start length : Nat}
    (fits : start + length ≤ size) :
    read table values start length =
      .ok (List.ofFn fun offset : Fin length =>
        have := offset.isLt
        values[start + offset.val]) := by
  induction length generalizing start with
  | zero => rfl
  | succ length ih =>
    rw [read, get_of_lt table values (by omega), ok_bind, ih (by omega), ok_bind, List.ofFn_succ]
    simp only [Fin.val_zero, Fin.val_succ, Nat.add_zero, Nat.add_assoc, Nat.add_comm 1]

theorem write_of_le (table : Table) (values : Vector α size) {start : Nat} {items : List α}
    (fits : start + items.length ≤ size) :
    ∃ written, write table values start items = .ok written ∧
      ∀ (index : Nat) (h : index < size), written[index] =
        if start ≤ index then items.getD (index - start) values[index] else values[index] := by
  induction items generalizing start values with
  | nil => exact ⟨values, rfl, fun index h => by simp⟩
  | cons item rest ih =>
    rw [List.length_cons] at fits
    have later : start + 1 + rest.length ≤ size := by omega
    obtain ⟨written, done, entries⟩ := ih (values.set start item) later
    refine ⟨written, ?_, ?_⟩
    · rw [write, set_of_lt table values (by omega), ok_bind, done]
    · intro index h
      rw [entries index h]
      by_cases here : start = index
      · subst here
        rw [if_neg (by omega), if_pos (Nat.le_refl _), Nat.sub_self, Vector.getElem_set_self]
        rfl
      · rw [Vector.getElem_set_ne _ _ here]
        by_cases above : start + 1 ≤ index
        · have offset : index - start = index - (start + 1) + 1 := by omega
          rw [if_pos above, if_pos (by omega), offset]
          rfl
        · rw [if_neg above, if_neg (by omega)]

theorem skipIf_eq (state : State) (condition : Bool) :
    skipIf state condition = ofExcept (state.skipIf condition) := by
  cases condition <;> rfl

theorem setRegister_eq (state : State) (target : Fin 16) (value : UInt8) :
    setRegister state target.val value = .ok (state.setRegister target value) := by
  rw [setRegister, set_of_lt .registers state.v target.isLt, ok_bind]
  rfl

theorem setResult_eq (state : State) (target : Fin 16) (result : Effect.Flagged) :
    setResult state target.val result = .ok (state.setResult target result) := by
  rw [setResult, set_of_lt .registers state.v (by decide), ok_bind,
    set_of_lt .registers _ target.isLt, ok_bind]
  rfl

theorem holdsKey_eq (state : State) (key : UInt8) :
    holdsKey state key = .ok (state.holdsKey key) := by
  have low : (key &&& 0x0F).toNat = key.toNat % 16 := by
    rw [UInt8.toNat_and]
    exact Nat.and_two_pow_sub_one_eq_mod key.toNat 4
  have bound : key.toNat % 16 < 16 := Nat.mod_lt _ (by decide)
  rw [holdsKey, low, get_of_lt .keys state.keys bound]
  rfl

theorem call_eq (state : State) (caller target : UInt16) :
    call state caller target = ofExcept (state.call caller target) := by
  unfold call State.call CallStack.push?
  by_cases room : state.stack.pointer.toNat < 15
  · rw [if_neg (by omega), dif_pos room, sum_of_lt (by omega)]
    have next : UInt8.ofNat (state.stack.pointer.toNat + 1) = state.stack.pointer + 1 := by
      rw [UInt8.ofNat_add, UInt8.ofNat_toNat]
      rfl
    simp only [ok_bind, next]
    rw [set_of_lt .slots _ (by omega)]
    rfl
  · rw [if_pos (by omega), dif_neg room]
    rfl

theorem returnTo_eq {state : State} (bounded : state.stack.pointer.toNat ≤ 15)
    (caller : UInt16) : returnTo state caller = ofExcept (state.returnTo caller) := by
  unfold returnTo State.returnTo
  by_cases empty : state.stack.pointer = 0
  · rw [if_pos empty, if_pos empty]
    rfl
  · have positive : 1 ≤ state.stack.pointer.toNat :=
      Nat.pos_of_ne_zero fun zero => empty (UInt8.toNat_inj.mp zero)
    have last : UInt8.ofNat (state.stack.pointer.toNat - 1) = state.stack.pointer - 1 := by
      rw [UInt8.ofNat_sub positive, UInt8.ofNat_toNat]
      rfl
    have h : state.stack.pointer.toNat < 16 := by omega
    rw [if_neg empty, if_neg empty, CallStack.top?, Vector.getElem?_eq_getElem h,
      get_of_lt .slots _ h, difference_of_le positive]
    simp only [ok_bind, last]
    rfl

theorem slice_eq (memory : Memory) (address length : Nat) :
    slice memory address length = ofExcept (memory.slice address length) := by
  unfold slice Memory.slice
  by_cases fits : Memory.InRange address length
  · rw [if_pos fits, dif_pos fits, read_of_le .bytes memory fits]
    rfl
  · rw [if_neg fits, dif_neg fits]
    rfl

private theorem write_bytes {memory : Memory} {address : Nat} {bytes : List UInt8}
    (fits : Memory.InRange address bytes.length) :
    write .bytes memory address bytes = .ok (memory.overlay address bytes) := by
  obtain ⟨written, done, entries⟩ := write_of_le .bytes memory fits
  rw [done]
  congr 1
  apply Vector.ext
  intro index h
  rw [entries index h]
  by_cases inside : address ≤ index ∧ index < address + bytes.length
  · obtain ⟨offset, rfl⟩ := Nat.exists_eq_add_of_le inside.1
    have within : offset < bytes.length := by omega
    rw [if_pos inside.1, Nat.add_sub_cancel_left, List.getD_eq_getElem?_getD,
      List.getElem?_eq_getElem within,
      Memory.getElem_overlay_inside memory address bytes offset within h]
    rfl
  · rw [Memory.getElem_overlay_outside memory address bytes index h (by omega)]
    split
    · rw [List.getD_eq_getElem?_getD, List.getElem?_eq_none (by omega)]
      rfl
    · rfl

private theorem write_registers {v : Registers} {bytes : List UInt8} (fits : bytes.length ≤ 16) :
    write .registers v 0 bytes = .ok (v.replaceFirst bytes) := by
  have within : 0 + bytes.length ≤ 16 := by omega
  obtain ⟨written, done, entries⟩ := write_of_le .registers v within
  rw [done]
  congr 1
  apply Vector.ext
  intro index h
  rw [entries index h, if_pos (Nat.zero_le _), Registers.getElem_replaceFirst, Nat.sub_zero]

theorem copy_eq (memory : Memory) (address : Nat) (bytes : List UInt8) :
    copy memory address bytes.length (.ok bytes) = ofExcept (memory.load address bytes) := by
  unfold copy Memory.load
  by_cases fits : Memory.InRange address bytes.length
  · rw [if_pos fits, if_pos fits, ok_bind, if_pos rfl, write_bytes fits]
    rfl
  · rw [if_neg fits, if_neg fits]
    rfl

theorem ofExcept_bind (result : Except Fault α) (next : α → Except Fault β) :
    (ofExcept result >>= fun value => ofExcept (next value)) = ofExcept (result >>= next) := by
  cases result <;> rfl

theorem storeDecimal_eq (state : State) (value : UInt8) :
    storeDecimal state value = ofExcept (state.storeDecimal value) := by
  have copied := copy_eq state.memory state.i.toNat (Effect.decimalDigits value)
  rw [Effect.length_decimalDigits] at copied
  rw [storeDecimal, copied]
  exact ofExcept_bind _ fun memory => .ok { state with memory }

theorem succ_register_lt (last : Fin 16) : last.val + 1 < UInt64.size :=
  Nat.lt_of_le_of_lt last.isLt (by decide)

theorem storeRegisters_eq (state : State) (last : Fin 16) :
    storeRegisters state last.val = ofExcept (state.storeRegisters last) := by
  have bound := last.isLt
  have copied := copy_eq state.memory state.i.toNat (state.v.upTo last)
  have listed : read .registers state.v 0 (last.val + 1) = .ok (state.v.upTo last) := by
    rw [read_of_le .registers state.v (by omega), Registers.upTo]
    simp only [Nat.zero_add]
  rw [Registers.length_upTo] at copied
  rw [storeRegisters, sum_of_lt (succ_register_lt last), ok_bind, listed, copied]
  exact ofExcept_bind _ fun memory => .ok { state with memory }

theorem loadRegisters_eq (state : State) (last : Fin 16) :
    loadRegisters state last.val = ofExcept (state.loadRegisters last) := by
  have bound := last.isLt
  rw [loadRegisters, sum_of_lt (succ_register_lt last), ok_bind, slice_eq, State.loadRegisters,
    Memory.slice]
  by_cases fits : Memory.InRange state.i.toNat (last.val + 1)
  · rw [dif_pos fits, ofExcept, ok_bind, write_registers]
    · rfl
    · rw [Memory.length_bytesAt]
      omega
  · rw [dif_neg fits]
    rfl

theorem awaitKey_eq (state : State) (target : Fin 16) :
    awaitKey state target.val = ofExcept (state.awaitKey target) := by
  unfold awaitKey State.awaitKey
  cases state.keys.firstHeld? with
  | none => rfl
  | some key => exact setRegister_eq state target _

private theorem flagByte_isSet (row : UInt8) {column : Nat} (h : column < 8) :
    row >>> UInt8.ofNat (7 - column) &&& 1 = Registers.flagByte (Sprite.isSet row column) := by
  have shift : (UInt8.ofNat (7 - column)).toNat % 8 = 7 - column := by
    rw [UInt8.toNat_ofNat_of_lt' (by rw [UInt8.size]; omega), Nat.mod_eq_of_lt (by omega)]
  have parity : (row >>> UInt8.ofNat (7 - column) &&& 1).toNat =
      row.toNat >>> (7 - column) % 2 := by
    rw [UInt8.toNat_and, UInt8.toNat_shiftRight, shift]
    exact Nat.and_one_is_mod _
  apply UInt8.toNat_inj.mp
  rw [parity, Sprite.isSet, Nat.testBit_eq_decide_div_mod_eq, Nat.shiftRight_eq_div_pow]
  have split := Nat.mod_two_eq_zero_or_one (row.toNat / 2 ^ (7 - column))
  obtain zero | one := split
  · rw [zero]
    rfl
  · rw [one]
    rfl

private theorem flagByte_or_and (erased : Bool) (old : UInt8) :
    Registers.flagByte erased ||| 1 &&& old = Registers.flagByte (erased || old &&& 1 == 1) := by
  have low : (old &&& 1).toNat = old.toNat % 2 := by
    rw [UInt8.toNat_and]
    exact Nat.and_one_is_mod _
  rw [UInt8.and_comm 1 old]
  obtain zero | one := Nat.mod_two_eq_zero_or_one old.toNat
  · have dark : old &&& 1 = 0 := UInt8.toNat_inj.mp (low.trans zero)
    rw [dark]
    cases erased <;> rfl
  · have lit : old &&& 1 = 1 := UInt8.toNat_inj.mp (low.trans one)
    rw [lit]
    cases erased <;> rfl

def Canvas.ofDrawing (drawing : Sprite.Drawing) : Canvas :=
  ⟨drawing.frame, Registers.flagByte drawing.erased⟩

variable {x y originX originY : Nat}

theorem drawBit_eq (sameX : originX % 64 = x % 64) (sameY : originY % 32 = y % 32) (row : UInt8)
    (drawing : Sprite.Drawing) {column : Nat} (h : column < 8) :
    drawBit row originX originY (.ofDrawing drawing) column =
      .ok (.ofDrawing (if Sprite.isSet row column then drawing.touch (Cell.wrap (x + column) y)
        else drawing)) := by
  have columnIs : (originX + column) % 64 = (x + column) % 64 := by omega
  have rowLt : y % 32 < 32 := Nat.mod_lt _ (by decide)
  have columnLt : (x + column) % 64 < 64 := Nat.mod_lt _ (by decide)
  rw [drawBit, difference_of_le (by omega), ok_bind, flagByte_isSet row h, columnIs, sameY,
    get_of_lt .rows _ rowLt, ok_bind, get_of_lt .columns _ columnLt, ok_bind,
    set_of_lt .columns _ columnLt, ok_bind, set_of_lt .rows _ rowLt, ok_bind]
  cases Sprite.isSet row column with
  | true =>
    have collided := flagByte_or_and drawing.erased drawing.frame[y % 32][(x + column) % 64]
    exact congrArg (fun collision => Except.ok
      (Canvas.mk (drawing.touch (Cell.wrap (x + column) y)).frame collision)) collided
  | false =>
    simp only [Registers.flagByte, Bool.false_eq_true, ↓reduceIte, UInt8.xor_zero,
      UInt8.zero_and, UInt8.or_zero, Vector.set_getElem_self]

theorem drawBits_eq (sameX : originX % 64 = x % 64) (sameY : originY % 32 = y % 32) (row : UInt8)
    (drawing : Sprite.Drawing) {columns : List Nat} (fit : ∀ column ∈ columns, column < 8) :
    columns.foldlM (drawBit row originX originY) (.ofDrawing drawing) =
      .ok (.ofDrawing
        (((columns.filter (Sprite.isSet row)).map fun column => Cell.wrap (x + column) y).foldl
          Sprite.Drawing.touch drawing)) := by
  induction columns generalizing drawing with
  | nil => rfl
  | cons column rest ih =>
    have restFit : ∀ other ∈ rest, other < 8 := fun other member =>
      fit other (List.mem_cons_of_mem _ member)
    rw [List.foldlM_cons, drawBit_eq sameX sameY row drawing (fit column List.mem_cons_self),
      ok_bind, ih _ restFit, List.filter_cons]
    cases Sprite.isSet row column <;> rfl

theorem drawRows_eq (sameX : originX % 64 = x % 64) (sameY : originY % 32 = y % 32)
    (rows : List UInt8) (drawing : Sprite.Drawing) :
    drawRows originX originY rows (.ofDrawing drawing) =
      .ok (.ofDrawing ((Sprite.cells x y rows).foldl Sprite.Drawing.touch drawing)) := by
  induction rows generalizing y originY drawing with
  | nil => rfl
  | cons row rest ih =>
    have fit : ∀ column ∈ List.range 8, column < 8 := fun column => List.mem_range.mp
    have sameNext : (originY + 1) % 32 = (y + 1) % 32 := by omega
    rw [drawRows, drawBits_eq sameX sameY row drawing fit, ok_bind, ih sameNext, Sprite.cells,
      List.foldl_append]
    rfl

theorem drawSprite_eq (state : State) (x y height : UInt8) :
    drawSprite state x y height = ofExcept (state.drawSprite x y height) := by
  rw [drawSprite, slice_eq, State.drawSprite]
  cases state.memory.slice state.i.toNat height.toNat with
  | error fault => rfl
  | ok rows =>
    have drawn := drawRows_eq (x := x.toNat) (y := y.toNat) (Nat.mod_mod _ 64) (Nat.mod_mod _ 32)
      rows ⟨state.frame, false⟩
    have blank : Canvas.ofDrawing ⟨state.frame, false⟩ = ⟨state.frame, 0⟩ := rfl
    rw [blank] at drawn
    simp only [ofExcept, ok_bind, drawn, set_of_lt .registers state.v (show 15 < 16 by decide)]
    rfl

theorem ofNat_toNat_eq_toUInt16 (byte : UInt8) : UInt16.ofNat byte.toNat = byte.toUInt16 := by
  apply UInt16.toNat_inj.mp
  rw [UInt16.toNat_ofNat_of_lt' (Nat.lt_trans byte.toNat_lt (by decide)), UInt8.toNat_toUInt16]

theorem jumpFrom_eq (state : State) {target : UInt16} (narrow : target.toNat < 4096) :
    (do
      let offset ← get .registers state.v 0
      let sum ← sum 65536 offset.toNat target.toNat
      .ok (state.jump (UInt16.ofNat sum))) =
      ofExcept (state.jumpFrom state.v.head target) := by
  have first : get .registers state.v 0 = .ok state.v.head :=
    get_of_lt .registers state.v (by decide)
  have offset := state.v.head.toNat_lt
  have fits : state.v.head.toNat + target.toNat < 65536 := by omega
  rw [first, ok_bind, sum_of_lt fits, ok_bind, UInt16.ofNat_add, ofNat_toNat_eq_toUInt16,
    UInt16.ofNat_toNat, State.jumpFrom, if_pos fits]
  rfl

theorem pointAtGlyph_eq (state : State) (digit : UInt8) :
    (do
      let address ← sum 65536 Font.start (5 * (digit &&& 0x0F).toNat)
      .ok { state with i := UInt16.ofNat address }) =
      ofExcept (.ok { state with i := Font.addressOf digit }) := by
  have low := (digit &&& 0x0F).toNat_lt
  rw [sum_of_lt (by rw [Font.start]; omega), ok_bind, Font.start, Nat.zero_add, UInt16.ofNat_mul,
    ofNat_toNat_eq_toUInt16]
  rfl

theorem fetch_eq (state : State) : fetch state = ofExcept state.fetch := by
  unfold fetch State.fetch Memory.word slice State.opcodeStep
  by_cases fits : Memory.InRange state.pc.toNat 2
  · rw [if_pos fits, dif_pos fits, read_of_le .bytes state.memory fits,
      State.advance_of_le fits]
    rfl
  · rw [if_neg fits, dif_neg fits]
    rfl

end Guarded

namespace UncheckedInstruction
open Guarded

theorem guardedPerform_ofInstruction {instruction : Instruction} {state : State}
    (narrow : instruction.nnn.toNat < 4096) (bounded : state.stack.pointer.toNat ≤ 15)
    (byte : UInt8) :
    (ofInstruction instruction).guardedPerform byte state =
      ofExcept (instruction.perform byte state) := by
  have x : get .registers state.v instruction.x.val = .ok (state.v.get instruction.x) :=
    get_of_lt .registers state.v instruction.x.isLt
  have y : get .registers state.v instruction.y.val = .ok (state.v.get instruction.y) :=
    get_of_lt .registers state.v instruction.y.isLt
  unfold guardedPerform Instruction.perform
  cases kind : instruction.kind <;> simp only [ofInstruction, kind, x, y, ok_bind]
  case returnCall => exact returnTo_eq bounded _
  case call => exact call_eq state _ _
  case setByte | addByte | copy | bitOr | bitAnd | bitXor | randomByte | readDelay =>
    exact setRegister_eq state instruction.x _
  case add | subtract | shiftRight | subtractFrom | shiftLeft =>
    exact setResult_eq state instruction.x _
  case skipIfByte | skipUnlessByte | skipIfSame | skipUnlessSame => exact skipIf_eq state _
  case skipIfHeld | skipUnlessHeld =>
    rw [holdsKey_eq, ok_bind]
    exact skipIf_eq state _
  case jumpFromV0 => exact jumpFrom_eq state narrow
  case pointAtGlyph => exact pointAtGlyph_eq state _
  case drawSprite => exact drawSprite_eq state _ _ _
  case awaitKey => exact awaitKey_eq state _
  case storeDecimal => exact storeDecimal_eq state _
  case storeRegisters => exact storeRegisters_eq state _
  case loadRegisters => exact loadRegisters_eq state _
  all_goals rfl

end UncheckedInstruction

namespace State

/-- The next try does not trap on a state whose stack pointer names a slot. -/
theorem guardedAttempt_eq {state : State} (bounded : state.stack.pointer.toNat ≤ 15)
    (policy : MachineCodePolicy) (byte : UInt8) :
    state.guardedAttempt policy byte = Guarded.ofExcept (state.attempt policy byte).result := by
  rw [guardedAttempt, Guarded.fetch_eq, attempt, fetch_eq]
  cases state.memory.word state.pc.toNat with
  | error fault => rfl
  | ok opcode =>
    simp only [Except.map, Guarded.ofExcept_ok, Guarded.ok_bind, Attempt.ofOpcode]
    cases decoded : Instruction.decode opcode state.pc with
    | error fault => rfl
    | ok instruction =>
      obtain ⟨-, operands, -, -⟩ := Instruction.decode_eq_ok decoded
      have narrow : instruction.nnn.toNat < 4096 := by
        rw [operands, Operands.toNat_nnn_ofOpcode]
        exact Nat.mod_lt _ (by decide)
      have passedBounded : state.passed.stack.pointer.toNat ≤ 15 := bounded
      have performed :=
        UncheckedInstruction.guardedPerform_ofInstruction narrow passedBounded byte
      simp only [Guarded.ofExcept_ok, Guarded.ok_bind, Instruction.attempt, Instruction.execute]
      by_cases refused : instruction.kind = .machineCode ∧ policy = .reject
      · rw [if_pos refused, if_pos refused]
        rfl
      · rw [if_neg refused, if_neg refused, performed]

end State
end ChipEight
