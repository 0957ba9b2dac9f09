import ChipEight.Proofs.Encoding

namespace ChipEight

inductive Arithmetic where
  | add
  | subtract
  | subtractFrom
  | shiftRight
  | shiftLeft
deriving DecidableEq, Repr

namespace Arithmetic

def kind : Arithmetic → Kind
  | add => .add
  | subtract => .subtract
  | subtractFrom => .subtractFrom
  | shiftRight => .shiftRight
  | shiftLeft => .shiftLeft

def compute (operation : Arithmetic) (left right : UInt8) : Effect.Flagged :=
  match operation with
  | add => Effect.sum left right
  | subtract => Effect.difference left right
  | subtractFrom => Effect.difference right left
  | shiftRight => Effect.half left
  | shiftLeft => Effect.double left

/-- The equation between operands, result and flag, where nothing wraps. After a difference the
flag is down when something had to be borrowed. -/
def Law (operation : Arithmetic) (left right result : UInt8) (flag : Bool) : Prop :=
  match operation with
  | add => result.toNat + 256 * flag.toNat = left.toNat + right.toNat
  | subtract => result.toNat + right.toNat = left.toNat + 256 * (!flag).toNat
  | subtractFrom => result.toNat + left.toNat = right.toNat + 256 * (!flag).toNat
  | shiftRight => 2 * result.toNat + flag.toNat = left.toNat
  | shiftLeft => result.toNat + 256 * flag.toNat = 2 * left.toNat

inductive TakesBack : Arithmetic → Arithmetic → Prop where
  | sum : TakesBack subtract add
  | difference : TakesBack add subtract

variable {operation : Arithmetic} {left right result : UInt8} {flag : Bool}

private theorem kind_ne_machineCode (operation : Arithmetic) : operation.kind ≠ .machineCode := by
  cases operation <;> simp [kind]

theorem law_compute (operation : Arithmetic) (left right : UInt8) :
    operation.Law left right (operation.compute left right).value
      (operation.compute left right).flag := by
  cases operation with
  | add => exact Effect.toNat_sum left right
  | subtract => exact Effect.toNat_difference left right
  | subtractFrom => exact Effect.toNat_difference right left
  | shiftRight => exact Effect.toNat_half left
  | shiftLeft => exact Effect.toNat_double left

theorem Law.unique {other : UInt8} {otherFlag : Bool}
    (law : operation.Law left right result flag)
    (otherLaw : operation.Law left right other otherFlag) :
    result = other ∧ flag = otherFlag := by
  have narrow := result.toNat_lt
  have otherNarrow := other.toNat_lt
  rw [← UInt8.toNat_inj]
  -- Once the flags are known, what is left are two linear equations between bytes.
  cases flag <;> cases otherFlag <;> cases operation <;> simp [Law] at law otherLaw ⊢ <;> omega

theorem Law.reverse {inverse : Arithmetic} (takesBack : inverse.TakesBack operation)
    (law : operation.Law left right result flag) :
    inverse.Law result right left !flag := by
  cases takesBack with
  | sum =>
    rw [Law, Bool.not_not]
    exact law.symm
  | difference => exact law.symm

private theorem compute_takesBack {inverse : Arithmetic} (takesBack : inverse.TakesBack operation)
    (left right : UInt8) :
    inverse.compute (operation.compute left right).value right =
      ⟨left, !(operation.compute left right).flag⟩ := by
  have back := (operation.law_compute left right).reverse takesBack
  obtain ⟨value, flag⟩ := Law.unique (inverse.law_compute _ right) back
  rw [Effect.Flagged.mk.injEq]
  exact ⟨value, flag⟩

end Arithmetic

namespace Attempt
variable (x y n : Fin 16) (address : UInt16) (policy : MachineCodePolicy) (byte : UInt8)
  (state : State)

theorem result_arithmetic (operation : Arithmetic) :
    (ofOpcode (operation.kind.encode x y n) address policy byte state).result =
      .ok (state.setResult x (operation.compute (state.v.get x) (state.v.get y))) := by
  obtain ⟨instruction, carries, result⟩ :=
    result_ofOpcode_encode operation.kind_ne_machineCode x y n address policy byte state
  have kind := carries.kind_eq
  have target : instruction.x = x := by
    rw [carries.x_eq]
    cases operation <;> rfl
  have source : instruction.y = y := by
    rw [carries.y_eq]
    cases operation <;> rfl
  rw [result, Instruction.perform, kind, target, source]
  cases operation <;> rfl

private theorem result_addByte :
    ∃ constant : UInt8, constant.toNat = 16 * y.val + n.val ∧
      (ofOpcode (Kind.addByte.encode x y n) address policy byte state).result =
        .ok (state.setRegister x (state.v.get x + constant)) := by
  have program : Kind.addByte ≠ .machineCode := nofun
  obtain ⟨instruction, carries, result⟩ :=
    result_ofOpcode_encode program x y n address policy byte state
  have target : instruction.x = x := carries.x_eq
  refine ⟨instruction.nn, carries.nn_eq, ?_⟩
  rw [result, Instruction.perform, carries.kind_eq, target]

end Attempt

namespace State

/-- Opcodes that add, subtract or shift satisfy the equation of their operation, with any registers,
be they the same or the flag register. The result is written last and so remains where the two
meet. Adding a constant wraps around and leaves no flag. Between registers that differ from each
other and from the flag, a sum and a difference take each other back and turn the flag over. -/
theorem arithmetic_is_exact (state : State) (x y n : Fin 16) (address : UInt16)
    (policy : MachineCodePolicy) (byte : UInt8) :
    let tried (kind : Kind) (address : UInt16) (byte : UInt8) (state : State) :=
      (Attempt.ofOpcode (kind.encode x y n) address policy byte state).result
    (∀ operation : Arithmetic, ∃ v result flag,
      tried operation.kind address byte state = .ok { state with v } ∧
      operation.Law (state.v.get x) (state.v.get y) result flag ∧
      v.get x = result ∧
      (x ≠ 15 → v.get 15 = if flag then 1 else 0) ∧
      ∀ register, register ≠ x → register ≠ 15 → v.get register = state.v.get register) ∧
    (∃ v, tried .addByte address byte state = .ok { state with v } ∧
      (v.get x).toNat = ((state.v.get x).toNat + (16 * y.val + n.val)) % 256 ∧
      ∀ register, register ≠ x → v.get register = state.v.get register) ∧
    (x ≠ 15 → y ≠ 15 → x ≠ y → ∀ first second : Arithmetic, second.TakesBack first →
      ∃ after, tried first.kind address byte state = .ok after ∧
      ∀ next : State, next.v = after.v → ∀ nextAddress nextByte,
        ∃ last, tried second.kind nextAddress nextByte next = .ok last ∧
        last.v.get x = state.v.get x ∧ last.v.get 15 = 1 - after.v.get 15) := by
  refine ⟨?_, ?_, ?_⟩
  · intro operation
    refine ⟨_, _, _, Attempt.result_arithmetic x y n address policy byte state operation,
      operation.law_compute (state.v.get x) (state.v.get y), ?_, ?_, ?_⟩
    · rw [Registers.get_setWithFlag, if_pos rfl]
    · intro apart
      rw [Registers.get_setWithFlag, if_neg apart.symm, if_pos rfl]
      rfl
    · intro register other plain
      rw [Registers.get_setWithFlag, if_neg other, if_neg plain]
  · obtain ⟨constant, number, result⟩ :=
      Attempt.result_addByte x y n address policy byte state
    refine ⟨_, result, ?_, ?_⟩
    · rw [Registers.get_set, if_pos rfl, UInt8.toNat_add, number]
    · intro register other
      rw [Registers.get_set, if_neg other]
  · intro target source apart first second takesBack
    refine ⟨_, Attempt.result_arithmetic x y n address policy byte state first, ?_⟩
    intro next same nextAddress nextByte
    refine ⟨_, Attempt.result_arithmetic x y n nextAddress policy nextByte next second, ?_⟩
    -- The first operation has not written over the second operand.
    have left : next.v.get x = (first.compute (state.v.get x) (state.v.get y)).value := by
      rw [same, get_setResult, if_pos rfl]
    have right : next.v.get y = state.v.get y := by
      rw [same, get_setResult, if_neg apart.symm, if_neg source]
    rw [left, right, Arithmetic.compute_takesBack takesBack]
    simp only [get_setResult, if_pos, if_neg target.symm, Registers.flagByte_not]
    simp

/-- A sum that carries and is taken back by a difference that borrows, and the flag register added
to itself, where the carry is lost. -/
theorem sum_is_taken_back :
    let state := ((State.zero.setRegister 0 200).setRegister 1 100).setRegister 15 130
    let tried (opcode address : UInt16) (state : State) :=
      (Attempt.ofOpcode opcode address .ignore 0 state).result
    (∃ after last,
      tried 0x8014 0x200 state = .ok after ∧ after.v.get 0 = 44 ∧ after.v.get 15 = 1 ∧
      tried 0x8015 0x202 after = .ok last ∧ last.v.get 0 = 200 ∧ last.v.get 15 = 0) ∧
    ∃ v, tried 0x8FF4 0x200 state = .ok { state with v } ∧ v.get 15 = 4 := by
  intro state tried
  obtain ⟨exact, -, takenBack⟩ := arithmetic_is_exact state 0 1 0 0x200 .ignore 0
  obtain ⟨aliased, -⟩ := arithmetic_is_exact state 15 15 0 0x200 .ignore 0
  refine ⟨?_, ?_⟩
  · obtain ⟨v, result, flag, added, law, value, flagged, -⟩ := exact .add
    obtain ⟨after, succeeded, further⟩ :=
      takenBack (by decide) (by decide) (by decide) .add .subtract .sum
    cases succeeded.symm.trans added
    obtain ⟨last, subtracted, restored, complement⟩ := further _ rfl 0x202 0
    have sum : result.toNat + 256 * flag.toNat = 300 := law
    have narrow := result.toNat_lt
    cases flag with
    | false =>
      simp only [Bool.toNat_false] at sum
      omega
    | true =>
      have carried : v.get 15 = 1 := flagged (by decide)
      have rest : result = 44 := by
        apply UInt8.toNat_inj.mp
        simp only [Bool.toNat_true] at sum
        show result.toNat = 44
        omega
      refine ⟨_, last, added, value.trans rest, carried, subtracted, restored, ?_⟩
      rw [complement, carried]
      rfl
  · obtain ⟨v, result, flag, added, law, value, -⟩ := aliased .add
    have sum : result.toNat + 256 * flag.toNat = 260 := law
    have narrow := result.toNat_lt
    have bit := flag.toNat_le
    refine ⟨v, added, ?_⟩
    rw [value]
    apply UInt8.toNat_inj.mp
    show result.toNat = 4
    omega

end State
end ChipEight
