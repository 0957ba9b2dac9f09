import ChipEight.Proofs.Attempt
import ChipEight.Proofs.Patterns

namespace ChipEight

namespace Digit

theorem fits_fill (digit : Digit) (operand : Fin 16) :
    digit.fits (digit.fill operand).val = true := by
  cases digit <;> simp [fits, fill]

theorem fill_of_fits {digit : Digit} {operand : Fin 16} (fit : digit.fits operand.val = true) :
    digit.fill operand = operand := by
  cases digit with
  | free => rfl
  | fixed value => exact Fin.ext (beq_iff_eq.mp fit)

end Digit

namespace Pattern
variable (pattern : Pattern) (x y n : Fin 16)

theorem toNat_fill :
    (pattern.fill x y n).toNat =
      4096 * pattern.segment.val + 256 * (pattern.x.fill x).val + 16 * (pattern.y.fill y).val +
        (pattern.n.fill n).val := by
  have segment := pattern.segment.isLt
  have first := (pattern.x.fill x).isLt
  have middle := (pattern.y.fill y).isLt
  have last := (pattern.n.fill n).isLt
  rw [fill, UInt16.toNat_ofNat']
  exact Nat.mod_eq_of_lt (by omega)

private theorem digitAt_fill :
    digitAt (pattern.fill x y n) 3 = pattern.segment.val ∧
      digitAt (pattern.fill x y n) 2 = (pattern.x.fill x).val ∧
      digitAt (pattern.fill x y n) 1 = (pattern.y.fill y).val ∧
      digitAt (pattern.fill x y n) 0 = (pattern.n.fill n).val := by
  have segment := pattern.segment.isLt
  have first := (pattern.x.fill x).isLt
  have middle := (pattern.y.fill y).isLt
  have last := (pattern.n.fill n).isLt
  simp only [digitAt, toNat_fill]
  omega

theorem fits_fill : pattern.fits (pattern.fill x y n) = true := by
  obtain ⟨leading, second, third, fourth⟩ := pattern.digitAt_fill x y n
  simp only [fits, leading, second, third, fourth, Digit.fits_fill, beq_self_eq_true, Bool.and_true]

theorem fill_of_fits {pattern : Pattern} {opcode : UInt16} (fit : pattern.fits opcode = true)
    {x y n : Fin 16} (second : x.val = digitAt opcode 2) (third : y.val = digitAt opcode 1)
    (fourth : n.val = digitAt opcode 0) : pattern.fill x y n = opcode := by
  have bound := opcode.toNat_lt
  apply UInt16.toNat_inj.mp
  simp only [fits, ← second, ← third, ← fourth, Bool.and_eq_true, beq_iff_eq] at fit
  obtain ⟨⟨⟨leading, first⟩, middle⟩, last⟩ := fit
  rw [toNat_fill, Digit.fill_of_fits first, Digit.fill_of_fits middle, Digit.fill_of_fits last,
    leading, second, third, fourth]
  simp only [digitAt]
  omega

end Pattern

namespace Kind
variable {kind : Kind} {x y n : Fin 16}

private theorem encodes_of_ne (program : kind ≠ machineCode) (x y n : Fin 16) :
    kind.Encodes x y n :=
  fun machine => absurd machine program

private theorem encode_ne_of_encodes (encodes : machineCode.Encodes x y n) :
    machineCode.encode x y n ≠ 0x00E0 ∧ machineCode.encode x y n ≠ 0x00EE := by
  obtain ⟨notClear, notReturn⟩ := encodes rfl
  have number : (machineCode.encode x y n).toNat = 4096 * 0 + 256 * x.val + 16 * y.val + n.val :=
    machineCode.pattern.toNat_fill x y n
  refine ⟨?_, ?_⟩
  · intro clear
    have value : (machineCode.encode x y n).toNat = 224 := congrArg UInt16.toNat clear
    have digits : x = 0x0 ∧ y = 0xE ∧ n = 0x0 := by simp only [Fin.ext_iff]; omega
    obtain ⟨rfl, rfl, rfl⟩ := digits
    exact notClear rfl
  · intro back
    have value : (machineCode.encode x y n).toNat = 238 := congrArg UInt16.toNat back
    have digits : x = 0x0 ∧ y = 0xE ∧ n = 0xE := by simp only [Fin.ext_iff]; omega
    obtain ⟨rfl, rfl, rfl⟩ := digits
    exact notReturn rfl

theorem covers_encode (encodes : kind.Encodes x y n) : kind.covers (kind.encode x y n) = true := by
  have fits : kind.pattern.fits (kind.encode x y n) = true := kind.pattern.fits_fill x y n
  by_cases machine : kind = machineCode
  · subst machine
    obtain ⟨notClear, notReturn⟩ := encode_ne_of_encodes encodes
    rw [covers, fits, beq_eq_false_iff_ne.mpr notClear, beq_eq_false_iff_ne.mpr notReturn]
    rfl
  · rw [covers, fits, beq_eq_false_iff_ne.mpr machine]
    rfl

private theorem encodes_of_covers (covered : kind.covers (kind.encode x y n) = true) :
    kind.Encodes x y n := by
  rintro rfl
  refine ⟨?_, ?_⟩
  · rintro same
    obtain ⟨rfl, rfl, rfl⟩ : x = 0x0 ∧ y = 0xE ∧ n = 0x0 := by simpa using same
    exact absurd covered (by decide)
  · rintro same
    obtain ⟨rfl, rfl, rfl⟩ : x = 0x0 ∧ y = 0xE ∧ n = 0xE := by simpa using same
    exact absurd covered (by decide)

end Kind

/-- The instruction is of the kind and carries the digits, each where the kind takes it. -/
structure Instruction.Carries (instruction : Instruction) (kind : Kind) (x y n : Fin 16) : Prop where
  kind_eq : instruction.kind = kind
  x_eq : instruction.x = kind.pattern.x.fill x
  y_eq : instruction.y = kind.pattern.y.fill y
  n_eq : instruction.n.toNat = (kind.pattern.n.fill n).val
  nn_eq : instruction.nn.toNat = 16 * (kind.pattern.y.fill y).val + (kind.pattern.n.fill n).val

theorem Instruction.decode_encode {kind : Kind} {x y n : Fin 16} (encodes : kind.Encodes x y n)
    (address : UInt16) :
    ∃ instruction : Instruction, decode (kind.encode x y n) address = .ok instruction ∧
      instruction.Carries kind x y n := by
  have number := kind.pattern.toNat_fill x y n
  have first := (kind.pattern.x.fill x).isLt
  have middle := (kind.pattern.y.fill y).isLt
  have last := (kind.pattern.n.fill n).isLt
  have known := Kind.ofOpcode?_of_covers (Kind.covers_encode encodes)
  rw [decode, known]
  refine ⟨_, rfl, rfl, ?_, ?_, ?_, ?_⟩
  · apply Fin.ext
    simp only [Operands.ofOpcode, Kind.encode, Fin.val_ofNat, number]
    omega
  · apply Fin.ext
    simp only [Operands.ofOpcode, Kind.encode, Fin.val_ofNat, number]
    omega
  · rw [Operands.toNat_n_ofOpcode, Kind.encode, number]
    omega
  · rw [Operands.toNat_nn_ofOpcode, Kind.encode, number]
    omega

theorem Attempt.result_ofOpcode_encode {kind : Kind} (program : kind ≠ .machineCode)
    (x y n : Fin 16) (address : UInt16) (policy : MachineCodePolicy) (byte : UInt8)
    (state : State) :
    ∃ instruction : Instruction, instruction.Carries kind x y n ∧
      (ofOpcode (kind.encode x y n) address policy byte state).result =
        instruction.perform byte state := by
  obtain ⟨instruction, decoded, carries⟩ := Instruction.decode_encode
    (Kind.encodes_of_ne program x y n) address
  refine ⟨instruction, carries, ?_⟩
  rw [ofOpcode, decoded]
  exact if_neg fun refused => program (carries.kind_eq.symm.trans refused.1)

namespace Instruction
variable {opcode address : UInt16} {instruction : Instruction}

/-- The fields are the digits of the opcode, one by one and taken together. -/
structure Spells (instruction : Instruction) (opcode : UInt16) : Prop where
  opcode_eq : instruction.opcode = opcode
  segment_lt : instruction.segment.toNat < 16
  n_lt : instruction.n.toNat < 16
  digits : opcode.toNat = 4096 * instruction.segment.toNat + 256 * instruction.x.val +
    16 * instruction.y.val + instruction.n.toNat
  nn_eq : instruction.nn.toNat = 16 * instruction.y.val + instruction.n.toNat
  nnn_eq : instruction.nnn.toNat = 256 * instruction.x.val + instruction.nn.toNat

theorem decode_eq_ok_iff :
    decode opcode address = .ok instruction ↔
      Kind.ofOpcode? opcode = some instruction.kind ∧ instruction =
        { Operands.ofOpcode opcode with
          opcode, address, segment := segmentOf opcode, kind := instruction.kind } := by
  unfold decode
  cases known : Kind.ofOpcode? opcode with
  | none => simp
  | some kind =>
    constructor
    · intro decoded
      cases decoded
      exact ⟨rfl, rfl⟩
    · rintro ⟨own, fields⟩
      rw [Option.some.inj own]
      exact congrArg _ fields.symm

theorem spells_of_decode (decoded : decode opcode address = .ok instruction) :
    instruction.Spells opcode := by
  have bound := opcode.toNat_lt
  obtain ⟨-, fields⟩ := decode_eq_ok_iff.mp decoded
  have x : instruction.x.val = opcode.toNat / 256 % 16 := by rw [fields]; rfl
  have y : instruction.y.val = opcode.toNat / 16 % 16 := by rw [fields]; rfl
  have n : instruction.n.toNat = opcode.toNat % 16 := by
    rw [fields]
    exact Operands.toNat_n_ofOpcode opcode
  have nn : instruction.nn.toNat = opcode.toNat % 256 := by
    rw [fields]
    exact Operands.toNat_nn_ofOpcode opcode
  have nnn : instruction.nnn.toNat = opcode.toNat % 4096 := by
    rw [fields]
    exact Operands.toNat_nnn_ofOpcode opcode
  have segment : instruction.segment.toNat = opcode.toNat / 4096 := by
    rw [fields]
    exact toNat_segmentOf opcode
  refine ⟨?_, ?_, ?_, ?_, ?_, ?_⟩
  · rw [fields]
  all_goals omega

theorem encode_of_decode (decoded : decode opcode address = .ok instruction) {n : Fin 16}
    (last : n.val = instruction.n.toNat) :
    instruction.kind.Encodes instruction.x instruction.y n ∧
      instruction.kind.encode instruction.x instruction.y n = opcode := by
  have covered := Kind.covers_of_ofOpcode? (decode_eq_ok decoded).1
  have fit := (Bool.and_eq_true_iff.mp covered).1
  have spells := spells_of_decode decoded
  have digits := spells.digits
  have small := spells.n_lt
  have same : instruction.kind.encode instruction.x instruction.y n = opcode := by
    refine Pattern.fill_of_fits fit ?_ ?_ ?_
    all_goals
      simp only [digitAt]
      omega
  exact ⟨Kind.encodes_of_covers (same.symm ▸ covered), same⟩

theorem ofOpcode?_eq_none_iff :
    Kind.ofOpcode? opcode = none ↔
      ∀ (kind : Kind) x y n, kind.Encodes x y n → kind.encode x y n ≠ opcode := by
  constructor
  · rintro unknown kind x y n encodes rfl
    have known := Kind.ofOpcode?_of_covers (Kind.covers_encode encodes)
    rw [unknown] at known
    contradiction
  · intro other
    cases decoded : decode opcode 0 with
    | error fault => exact ((decode_eq_error_iff opcode 0 fault).mp decoded).1
    | ok instruction =>
      have small := (spells_of_decode decoded).n_lt
      obtain ⟨encodes, same⟩ := encode_of_decode decoded (n := ⟨instruction.n.toNat, small⟩) rfl
      exact absurd same (other _ _ _ _ encodes)

/-- The decoder inverts the encoding. What it finds in an encoded opcode is what was encoded, what
it finds in any opcode encodes to that opcode, and it finds nothing in just those that encode
nothing. -/
theorem decoder_inverts_encoding :
    (∀ (kind : Kind) x y n address, kind.Encodes x y n →
      ∃ instruction, decode (kind.encode x y n) address = .ok instruction ∧
        instruction.Carries kind x y n ∧ instruction.Spells (kind.encode x y n) ∧
        instruction.address = address) ∧
    (∀ opcode address instruction, decode opcode address = .ok instruction →
      instruction.Spells opcode ∧ instruction.address = address ∧
        ∀ n : Fin 16, n.val = instruction.n.toNat →
          instruction.kind.Encodes instruction.x instruction.y n ∧
            instruction.kind.encode instruction.x instruction.y n = opcode) ∧
    ∀ opcode address fault, decode opcode address = .error fault ↔
      (∀ (kind : Kind) x y n, kind.Encodes x y n → kind.encode x y n ≠ opcode) ∧
        ∃ segment, segment.toNat = opcode.toNat / 4096 ∧
          fault = .unknownOpcode opcode segment address := by
  refine ⟨?_, ?_, ?_⟩
  · intro kind x y n address encodes
    obtain ⟨instruction, decoded, carries⟩ := decode_encode encodes address
    exact ⟨instruction, decoded, carries, spells_of_decode decoded,
      (decode_eq_ok decoded).2.2.2⟩
  · intro opcode address instruction decoded
    exact ⟨spells_of_decode decoded, (decode_eq_ok decoded).2.2.2,
      fun n last => encode_of_decode decoded last⟩
  · intro opcode address fault
    rw [decode_eq_error_iff, ofOpcode?_eq_none_iff]
    refine and_congr_right fun _ => ⟨?_, ?_⟩
    · intro same
      exact ⟨segmentOf opcode, toNat_segmentOf opcode, same⟩
    · rintro ⟨segment, leading, same⟩
      have known : segment = segmentOf opcode :=
        UInt8.toNat_inj.mp (leading.trans (toNat_segmentOf opcode).symm)
      rw [same, known]

theorem decoder_inverts_three_opcodes :
    Kind.awaitKey.encode 0x3 0x0 0x0 = 0xF30A ∧
      (∃ instruction, decode 0xF30A 0x200 = .ok instruction ∧
        instruction.Carries .awaitKey 0x3 0x0 0x0) ∧
      (∃ instruction, decode 0x00E1 0x200 = .ok instruction ∧
        instruction.kind.encode instruction.x instruction.y 0x1 = 0x00E1) ∧
      ∀ (kind : Kind) x y n, kind.Encodes x y n → kind.encode x y n ≠ 0x8AB8 := by
  obtain ⟨finds, spells, fails⟩ := decoder_inverts_encoding
  refine ⟨rfl, ?_, ?_, ?_⟩
  · obtain ⟨instruction, decoded, carries, -⟩ := finds .awaitKey 0x3 0x0 0x0 0x200 nofun
    exact ⟨instruction, decoded, carries⟩
  · have decoded : decode 0x00E1 0x200 =
        .ok ⟨⟨0x0, 0xE, 0x1, 0xE1, 0x0E1⟩, 0x00E1, 0x200, 0, .machineCode⟩ := rfl
    exact ⟨_, decoded, ((spells _ _ _ decoded).2.2 0x1 rfl).2⟩
  · exact ((fails 0x8AB8 0x200 (.unknownOpcode 0x8AB8 8 0x200)).mp rfl).1

end Instruction
end ChipEight
