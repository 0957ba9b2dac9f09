import ChipEight.Proofs.Attempt
import ChipEight.Proofs.CallStack
import ChipEight.Proofs.Reached

/-! What holds of every state that a machine comes to. Return addresses bound where a return can
send the counter, and a picture of zeros and ones keeps the flag of a drawing a flag, so
both belong to the invariant beside the bounds themselves. -/
namespace ChipEight

namespace Frame

private theorem binary_toggle {frame : Frame} (binary : frame.Binary) (cell : Cell) :
    (frame.toggle cell).Binary := by
  intro other
  rw [pixel_toggle]
  split
  · obtain dark | lit := binary other
    · right
      rw [dark]
      rfl
    · left
      rw [lit]
      rfl
  · exact binary other

end Frame

theorem Sprite.binary_draw {frame : Frame} (binary : frame.Binary) (cells : List Cell) :
    (draw frame cells).frame.Binary := by
  have touched : ∀ start : Drawing, start.frame.Binary →
      (cells.foldl Drawing.touch start).frame.Binary := by
    induction cells with
    | nil => exact fun start clean => clean
    | cons cell rest ih =>
      exact fun start clean => ih (start.touch cell) (Frame.binary_toggle clean cell)
  exact touched ⟨frame, false⟩ binary

namespace State

/-- What holds of every state that a machine comes to. The counter can run past the memory,
since a jump from a register adds up to 255 to a target of twelve bits. -/
structure Sound (state : State) : Prop where
  stack : state.stack.Sound
  frame : state.frame.Binary
  pc_le : state.pc.toNat ≤ 4350

theorem sound_zero : zero.Sound where
  stack := CallStack.sound_empty
  frame := Frame.binary_blank
  pc_le := Nat.zero_le _

theorem loaded_eq_ok {rom : List UInt8} {state : State} (loaded : State.loaded rom = .ok state) :
    ∃ memory, state = { zero with memory } := by
  obtain ⟨withFont, -, programmed⟩ := bind_eq_ok loaded
  obtain ⟨memory, -, made⟩ := bind_eq_ok programmed
  cases made
  exact ⟨memory, rfl⟩

theorem sound_loaded {rom : List UInt8} {state : State} (loaded : State.loaded rom = .ok state) :
    state.Sound := by
  obtain ⟨memory, rfl⟩ := loaded_eq_ok loaded
  exact ⟨sound_zero.stack, sound_zero.frame, sound_zero.pc_le⟩

theorem Sound.setKeys {state : State} (sound : state.Sound) (keys : Keys) :
    (state.setKeys keys).Sound :=
  ⟨sound.stack, sound.frame, sound.pc_le⟩

theorem Sound.settled {state : State} (sound : state.Sound) : state.settled.Sound :=
  ⟨sound.stack, sound.frame, sound.pc_le⟩

private theorem pc_le_of_target {instruction : Instruction} {state : State} {pc : UInt16}
    (narrow : instruction.nnn.toNat < 4096) (inMemory : state.pc.toNat ≤ 4096)
    (target : instruction.Target state pc) : pc.toNat ≤ 4350 := by
  cases target with
  | direct => omega
  | offset fits =>
    have byte := state.v.head.toNat_lt
    rw [UInt16.toNat_add, UInt8.toNat_toUInt16, Nat.mod_eq_of_lt fits]
    omega
  | skipped fits =>
    have bound : (state.pc + 2).toNat = state.pc.toNat + 2 := by
      rw [UInt16.toNat_add]
      exact Nat.mod_eq_of_lt (by simp; omega)
    omega
  | again room =>
    have bound : (state.pc - 2).toNat = state.pc.toNat - 2 :=
      UInt16.toNat_sub_of_le _ _ (by rw [UInt16.le_iff_toNat_le]; exact Nat.le_of_lt room)
    omega

theorem Sound.effect {instruction : Instruction} {state after : State} (sound : state.Sound)
    (narrow : instruction.nnn.toNat < 4096) (low : 2 ≤ state.pc.toNat)
    (high : state.pc.toNat ≤ 4096) (effect : instruction.Effect state after) : after.Sound := by
  cases effect with
  | called _ stack pushed =>
    refine ⟨sound.stack.push pushed low high, sound.frame, ?_⟩
    dsimp only
    omega
  | returned _ occupied pc found =>
    have bounds := sound.stack.top_mem occupied found
    refine ⟨sound.stack.drop occupied, sound.frame, ?_⟩
    dsimp only
    omega
  | moved _ pc target =>
    exact ⟨sound.stack, sound.frame, pc_le_of_target narrow high target⟩
  | cleared => exact ⟨sound.stack, Frame.binary_blank, sound.pc_le⟩
  | drawn _ v cells => exact ⟨sound.stack, Sprite.binary_draw sound.frame cells, sound.pc_le⟩
  | computed => exact ⟨sound.stack, sound.frame, sound.pc_le⟩

theorem Sound.passed {state : State} (sound : state.Sound) (fits : state.pc.toNat + 2 ≤ 4096) :
    state.passed.Sound ∧ 2 ≤ state.passed.pc.toNat ∧ state.passed.pc.toNat ≤ 4096 := by
  have pc := toNat_pc_passed fits
  refine ⟨⟨sound.stack, sound.frame, ?_⟩, ?_, ?_⟩ <;> omega

theorem Sound.attempt {state after : State} {policy : MachineCodePolicy} {byte : UInt8}
    (sound : state.Sound) (succeeded : (state.attempt policy byte).result = .ok after) :
    after.Sound := by
  obtain ⟨instruction, found, performed⟩ := attempt_eq_ok succeeded
  obtain ⟨fits, narrow, -⟩ := instruction_eq_ok found
  obtain ⟨passed, low, high⟩ := sound.passed fits
  exact passed.effect narrow low high (Instruction.effect_perform performed)

end State

namespace Machine

theorem sound_begin {machine : Machine} (sound : machine.state.Sound) :
    machine.begin.state.Sound := by
  unfold begin
  split
  · exact sound
  · exact ⟨sound.stack, sound.frame, (by decide : State.programStart.toNat ≤ 4350)⟩

theorem sound_of_attempt {machine : Machine} {state : State} (sound : machine.state.Sound)
    (succeeded : machine.attempt.result = .ok state) : state.Sound :=
  (sound.setKeys machine.keypad.current).attempt succeeded

theorem sound_cycle {machine : Machine} (sound : machine.state.Sound) :
    machine.cycle.machine.state.Sound := by
  obtain ⟨fault, -, polled⟩ | ⟨state, succeeded, same | same⟩ := machine.cycle_cases
  · rw [polled]
    exact sound.setKeys _
  · rw [state_of_unheard_eq same]
    exact sound_of_attempt sound succeeded
  · rw [state_of_unheard_eq same]
    exact (sound_of_attempt sound succeeded).settled

theorem carried_sound : Carried fun _ machine => machine.state.Sound where
  subscribed _ sound := sound
  loaded loaded _ := State.sound_loaded loaded
  begun sound := sound_begin sound
  tried _ sound := sound_cycle sound
  heard same sound := by
    rw [state_of_unheard_eq same]
    exact sound

theorem Reached.sound {history : List Deed} {machine : Machine}
    (reached : machine.Reached history) : machine.state.Sound :=
  reached.holds carried_sound fun _ _ _ => State.sound_zero

end Machine
end ChipEight
