import ChipEight.Proofs.Hazards
import ChipEight.Proofs.Timers

/-! Programs as they are written. A program is a list of words; loading lays their bytes out from
the start of the program on, and they stay what they were until an instruction stores over them.
A stretch of words that leaves the counter alone is therefore carried out word by word. -/
namespace ChipEight

def image (words : List UInt16) : List UInt8 :=
  words.flatMap fun word => [UInt8.ofNat (word.toNat / 256), UInt8.ofNat (word.toNat % 256)]

@[simp] theorem length_image (words : List UInt16) : (image words).length = 2 * words.length := by
  induction words with
  | nil => rfl
  | cons word rest ih =>
    rw [image] at ih ⊢
    rw [List.flatMap_cons, List.length_append, ih, List.length_cons]
    simp
    omega

private theorem getElem_image (words : List UInt16) {index : Nat} (h : index < words.length)
    (high : 2 * index < (image words).length) (low : 2 * index + 1 < (image words).length) :
    256 * (image words)[2 * index].toNat + (image words)[2 * index + 1].toNat =
      words[index].toNat := by
  induction words generalizing index with
  | nil => contradiction
  | cons word rest ih =>
    cases index with
    | zero =>
      have bound := word.toNat_lt
      simp [image]
      omega
    | succ index =>
      have within := Nat.lt_of_succ_lt_succ h
      exact ih within (by simp; omega) (by simp; omega)

namespace Memory

theorem word_eq_ok_iff {memory : Memory} {address : Nat} (fits : address + 1 < 4096)
    {word : UInt16} : memory.word address = .ok word ↔
      256 * memory[address].toNat + memory[address + 1].toNat = word.toNat := by
  have inside : InRange address 2 := fits
  rw [Memory.word, dif_pos inside, Except.ok.injEq, ← UInt16.toNat_inj, toNat_joined]

def programmed (rom : List UInt8) : Memory :=
  (zero.overlay Font.start Font.glyphs).overlay State.programStart.toNat rom

theorem toList_overlay (memory : Memory) {address : Nat} {bytes : List UInt8}
    (fits : address + bytes.length ≤ 4096) :
    (memory.overlay address bytes).toList =
      memory.toList.take address ++ bytes ++ memory.toList.drop (address + bytes.length) := by
  induction bytes generalizing memory address with
  | nil => simp [overlay]
  | cons byte rest ih =>
    rw [List.length_cons] at fits
    have bound : address < memory.toList.length := by
      rw [Vector.length_toList]
      omega
    have set : (memory.setIfInBounds address byte).toList = memory.toList.set address byte :=
      Vector.toList_setIfInBounds
    rw [overlay, ih _ (by omega), set, List.take_succ_eq_append_getElem (by simpa using bound),
      List.take_set_of_le (Nat.le_refl _), List.getElem_set_self, List.drop_set_of_lt (by omega),
      List.length_cons, Nat.add_assoc, Nat.add_comm 1, List.append_assoc _ [byte]]
    rfl

/-- The bytes of a memory with a program in it: the font, zeros up to the start of the program, the
program, and zeros after it. -/
def layout (rom : List UInt8) : List UInt8 :=
  Font.glyphs ++ List.replicate (0x200 - 80) 0 ++ rom ++ List.replicate (3584 - rom.length) 0

theorem toList_programmed {rom : List UInt8} (fits : rom.length ≤ 3584) :
    (programmed rom).toList = layout rom := by
  have start : State.programStart.toNat = 0x200 := rfl
  have font : (zero.overlay Font.start Font.glyphs).toList =
      Font.glyphs ++ List.replicate 4016 0 := by
    have length : Font.start + Font.glyphs.length ≤ 4096 := by decide
    rw [toList_overlay _ length, zero, Vector.toList_replicate, List.drop_replicate]
    rfl
  have before : (Font.glyphs ++ List.replicate 4016 0).take 0x200 =
      Font.glyphs ++ List.replicate (0x200 - 80) 0 := by
    rw [List.take_append, List.take_of_length_le (by decide), Font.length_glyphs,
      List.take_replicate]
    rfl
  have behind : (Font.glyphs ++ List.replicate 4016 0).drop (0x200 + rom.length) =
      List.replicate (3584 - rom.length) 0 := by
    have room : 4016 - (0x200 + rom.length - 80) = 3584 - rom.length := by omega
    rw [List.drop_append, Font.length_glyphs, List.drop_replicate, room,
      List.drop_of_length_le (by rw [Font.length_glyphs]; omega), List.nil_append]
  rw [programmed, start, toList_overlay _ (by omega), font, before, behind, layout]

theorem word_programmed {words : List UInt16} (fits : words.length ≤ 1792) {index : Nat}
    (h : index < words.length) :
    (programmed (image words)).word (0x200 + 2 * index) = .ok words[index] := by
  have length := length_image words
  have byte : ∀ offset (within : offset < (image words).length) (inside : 0x200 + offset < 4096),
      (programmed (image words))[0x200 + offset] = (image words)[offset] :=
    fun offset within inside => getElem_overlay_inside _ 0x200 _ offset within inside
  rw [word_eq_ok_iff (by omega)]
  simp only [Nat.add_assoc]
  rw [byte _ (by omega) (by omega), byte _ (by omega) (by omega)]
  exact getElem_image words h ..

end Memory

namespace State

theorem loaded_of_length_le {rom : List UInt8} (fits : rom.length ≤ maxRomSize) :
    loaded rom = .ok { zero with memory := Memory.programmed rom } := by
  have font : Memory.zero.load Font.start Font.glyphs =
      .ok (Memory.zero.overlay Font.start Font.glyphs) := rfl
  have inside : Memory.InRange programStart.toNat rom.length := Nat.add_le_add_left fits 0x200
  rw [loaded, font]
  simp only [bind, Except.bind, Memory.load]
  rw [if_pos inside]
  rfl

end State

namespace Machine
variable {machine start : Machine} {deeds : List Deed}

theorem load_of_length_le (machine : Machine) {rom : List UInt8}
    (fits : rom.length ≤ State.maxRomSize) :
    machine.load rom =
      ⟨{ machine with
          state := { State.zero with memory := Memory.programmed rom }
          begun := false },
        .done, [.logged (.romLoaded rom.length)]⟩ := by
  rw [load, if_neg (Nat.not_lt.mpr fits), State.loaded_of_length_le fits]
  rfl

theorem length_le_of_loaded {rom : List UInt8} (loaded : (machine.load rom).outcome = .done) :
    rom.length ≤ State.maxRomSize := by
  unfold load at loaded
  split at loaded
  · contradiction
  · next fits => exact Nat.not_lt.mp fits

def Covers (machine : Machine) (address : Nat) : Prop :=
  machine.Succeeds ∧ machine.state.i.toNat ≤ address ∧ ∃ x : Fin 16,
    machine.Fetches 0x33 x ∧ address < machine.state.i.toNat + 3 ∨
    machine.Fetches 0x55 x ∧ address ≤ machine.state.i.toNat + x.val

theorem fetches_of_kind {instruction : Instruction} {kind : Kind} {y n : Fin 16}
    (found : machine.state.instruction = .ok instruction) (own : instruction.kind = kind)
    (segment : kind.pattern.segment = 15) (first : kind.pattern.x = .free)
    (middle : kind.pattern.y = .fixed y) (last : kind.pattern.n = .fixed n)
    (program : kind ≠ .machineCode) : machine.Fetches (16 * y.val + n.val) instruction.x := by
  obtain ⟨opcode, word, known, x⟩ := State.word_of_instruction found
  rw [own] at known
  obtain ⟨leading, low⟩ :=
    (Kind.ofOpcode?_eq_some_of_low opcode _ first middle last program).mp known
  rw [segment] at leading
  exact ⟨opcode, word, leading, low, x⟩

private theorem memory_cycle (machine : Machine) {address : Nat} (h : address < 4096)
    (uncovered : ¬ machine.Covers address) :
    machine.cycle.machine.state.memory[address] = machine.state.memory[address] := by
  cases result : machine.attempt.result with
  | error fault =>
    rw [cycle_of_error result]
    rfl
  | ok made =>
    have same : machine.cycle.machine.state.memory = made.memory := by
      obtain same | same := state_cycle_of_ok result <;> rw [same]
      rfl
    obtain ⟨instruction, found, performed⟩ := State.attempt_eq_ok result
    have stored : machine.state.instruction = .ok instruction := found
    rw [same]
    apply Instruction.getElem_memory_perform performed
    rintro ⟨low, ⟨kind, high⟩ | ⟨kind, high⟩⟩
    · exact uncovered ⟨⟨made, result⟩, low, instruction.x,
        .inl ⟨fetches_of_kind stored kind rfl rfl rfl rfl nofun, Nat.lt_succ_of_le high⟩⟩
    · exact uncovered ⟨⟨made, result⟩, low, instruction.x,
        .inr ⟨fetches_of_kind stored kind rfl rfl rfl rfl nofun, high⟩⟩

private theorem not_covers_of_segment {opcode : UInt16} {address : Nat}
    (word : machine.state.memory.word machine.state.pc.toNat = .ok opcode)
    (other : opcode.toNat / 4096 ≠ 15) : ¬ machine.Covers address := by
  rintro ⟨-, -, x, ⟨⟨found, fetched, leading, -⟩, -⟩ | ⟨⟨found, fetched, leading, -⟩, -⟩⟩ <;>
    exact other (Except.ok.inj (word.symm.trans fetched) ▸ leading)

def Keeps (start : Machine) (deeds : List Deed) (machine : Machine) : Prop :=
  ∀ address (h : address < 4096), (∀ tried, .tried tried ∈ deeds → ¬ tried.Covers address) →
    machine.state.memory[address] = start.state.memory[address]

theorem Keeps.refl (start : Machine) : start.Keeps [] start := fun _ _ _ => rfl

theorem Keeps.word (keeps : start.Keeps deeds machine) {address : Nat} {word : UInt16}
    (fits : address + 1 < 4096) (written : start.state.memory.word address = .ok word)
    (uncovered : ∀ tried, .tried tried ∈ deeds →
      ¬ tried.Covers address ∧ ¬ tried.Covers (address + 1)) :
    machine.state.memory.word address = .ok word := by
  rw [Memory.word_eq_ok_iff fits] at written ⊢
  rw [keeps address (by omega) fun tried member => (uncovered tried member).1,
    keeps (address + 1) fits fun tried member => (uncovered tried member).2, written]

theorem Keeps.concat {deed : Deed} {other : Machine} (keeps : start.Keeps deeds machine)
    (same : other.state.memory = machine.state.memory) : start.Keeps (deeds ++ [deed]) other := by
  intro address h uncovered
  rw [same]
  exact keeps address h fun tried member => uncovered tried (List.mem_append_left _ member)

theorem Keeps.cycle (keeps : start.Keeps deeds machine) :
    start.Keeps (deeds ++ [.tried machine]) machine.cycle.machine := by
  intro address h uncovered
  have own := uncovered machine (List.mem_append_right _ List.mem_cons_self)
  rw [machine.memory_cycle h own]
  exact keeps address h fun tried member => uncovered tried (List.mem_append_left _ member)

theorem Keeps.begin (keeps : start.Keeps deeds machine) :
    start.Keeps (deeds ++ [.begun]) machine.begin := by
  obtain ⟨pc, begin⟩ := machine.exists_begin_eq
  apply keeps.concat
  rw [begin]

theorem Keeps.heard {other : Machine} (keeps : start.Keeps deeds machine)
    (same : other.unheard = machine.unheard) : start.Keeps deeds other := by
  unfold Keeps
  rw [state_of_unheard_eq same]
  exact keeps

theorem carried_keeps (start : Machine) : CarriedWhile Unloaded start.Keeps where
  front unloaded := unloaded.front
  subscribed _ keeps := keeps.concat rfl
  loaded unloaded := absurd unloaded (not_unloaded_concat _ _)
  begun keeps := keeps.begin
  tried _ _ keeps := keeps.cycle
  heard same keeps := keeps.heard same

/-- Carry out a word of the program. The keys are polled, the counter moves past the word, its
instruction runs, the picture counts as shown, and the timers count down. -/
def obey (machine : Machine) (opcode : UInt16) : Except Fault Machine := do
  let instruction ← Instruction.decode opcode machine.state.pc
  let made ← instruction.execute machine.config.machineCode machine.random.current
    { machine.state with keys := machine.keypad.current, pc := machine.state.pc + 2 }
  .ok { machine with
    state := State.tick { made with drawFlag := false }
    keypad := machine.keypad.polled
    random := if instruction.takesByte then machine.random.advance else machine.random }

theorem obey_of_cycle {opcode : UInt16}
    (word : machine.state.memory.word machine.state.pc.toNat = .ok opcode)
    (done : machine.cycle.outcome = .done) :
    ∃ next, machine.obey opcode = .ok next ∧ machine.cycle.machine.unheard = next.unheard ∧
      ((∀ kind, Kind.ofOpcode? opcode = some kind → kind.steers = false) →
        next.state.pc = machine.state.pc + 2) := by
  cases result : machine.attempt.result with
  | error fault =>
    rw [cycle_of_error result] at done
    contradiction
  | ok made =>
    obtain ⟨instruction, found, performed⟩ := State.attempt_eq_ok result
    have stored : machine.state.instruction = .ok instruction := found
    have executed := (result_of_instruction stored).symm.trans result
    have decoded : Instruction.decode opcode machine.state.pc = .ok instruction := by
      rw [State.instruction, word] at stored
      exact stored
    have took : machine.attempt.tookByte = instruction.takesByte := by
      rw [attempt, State.attempt_eq, found]
      rfl
    refine ⟨machine.commit made.settled, ?_, ?_, ?_⟩
    · have ready : machine.poll.state.passed =
          { machine.state with keys := machine.keypad.current, pc := machine.state.pc + 2 } := rfl
      rw [ready] at executed
      rw [obey, decoded, commit, took]
      simp only [bind, Except.bind, executed]
      rfl
    · rw [cycle_of_ok result] at done ⊢
      obtain ⟨-, settled⟩ | ⟨cause, panicked, -⟩ := notify_cases (machine.commit made)
      · exact settled
      · have impossible := done.symm.trans panicked
        contradiction
    · intro straight
      obtain ⟨known, -⟩ := Instruction.decode_eq_ok decoded
      have level : .counter ∉ instruction.kind.changes := by
        rw [Kind.counter_mem_changes, straight _ known]
        exact Bool.false_ne_true
      exact Instruction.same_perform performed level

theorem obey_alone (machine : Machine) (opcode : UInt16) :
    machine.alone.obey opcode = (machine.obey opcode).map alone := by
  obtain ⟨state, keypad, random, observers, config, begun⟩ := machine
  simp only [obey, alone, withObservers]
  cases Instruction.decode opcode state.pc with
  | error fault => rfl
  | ok instruction =>
    simp only [bind, Except.bind]
    cases instruction.execute config.machineCode random.current
      { state with keys := keypad.current, pc := state.pc + 2 } with
    | error fault => rfl
    | ok made => rfl

private theorem obey_of_alone_eq {other next : Machine} {opcode : UInt16}
    (same : machine.alone = other.alone) (obeyed : machine.obey opcode = .ok next) :
    ∃ after, other.obey opcode = .ok after ∧ after.alone = next.alone := by
  have alike : (machine.obey opcode).map alone = (other.obey opcode).map alone := by
    rw [← obey_alone, same, obey_alone]
  rw [obeyed] at alike
  cases result : other.obey opcode with
  | error fault =>
    rw [result] at alike
    contradiction
  | ok after =>
    rw [result] at alike
    exact ⟨after, rfl, (Except.ok.inj alike).symm⟩

end Machine

/-- Nothing was loaded among the deeds, and every cycle succeeded without storing over the first
`count` words of the program. -/
structure Undiverted (count : Nat) (deeds : List Deed) : Prop where
  kept : ∀ rom, .loaded rom ∉ deeds
  done : ∀ tried, .tried tried ∈ deeds → tried.cycle.outcome = .done
  intact : ∀ tried, .tried tried ∈ deeds → ∀ address, 0x200 ≤ address →
    address < 0x200 + 2 * count → ¬ tried.Covers address

theorem Undiverted.front {count : Nat} {front back : List Deed}
    (undiverted : Undiverted count (front ++ back)) : Undiverted count front where
  kept rom member := undiverted.kept rom (List.mem_append_left _ member)
  done tried member := undiverted.done tried (List.mem_append_left _ member)
  intact tried member := undiverted.intact tried (List.mem_append_left _ member)

namespace Machine
variable {machine start : Machine} {deeds : List Deed} {words : List UInt16}

/-- What the words make of `start` once it begins is what has become of the machine, up to a
beginning that is still to come. -/
structure Executed (start : Machine) (words : List UInt16) (machine : Machine) : Prop where
  folded : ∃ final, words.foldlM obey start.begin = .ok final ∧ final.alone = machine.begin.alone
  counter : machine.begin.state.pc.toNat = 0x200 + 2 * words.length
  begun : words ≠ [] → machine.begun = true

theorem Executed.refl (fresh : start.begun = false) : start.Executed [] start where
  folded := ⟨start.begin, rfl, rfl⟩
  counter := by
    rw [begin_of_not_begun fresh]
    rfl
  begun some := absurd rfl some

theorem Executed.congr {other : Machine} (executed : start.Executed words machine)
    (same : other.begin.alone = machine.begin.alone)
    (begun : machine.begun = true → other.begun = true) : start.Executed words other where
  folded := by
    rw [same]
    exact executed.folded
  counter := by
    rw [alone_congr same (fun machine => machine.state.pc) fun _ => rfl]
    exact executed.counter
  begun some := begun (executed.begun some)

theorem Executed.cycle {opcode : UInt16} (executed : start.Executed words machine)
    (begun : machine.begun = true)
    (word : machine.state.memory.word (0x200 + 2 * words.length) = .ok opcode)
    (done : machine.cycle.outcome = .done)
    (straight : ∀ kind, Kind.ofOpcode? opcode = some kind → kind.steers = false) :
    start.Executed (words ++ [opcode]) machine.cycle.machine := by
  obtain ⟨⟨final, folded, same⟩, counter, -⟩ := executed
  rw [begin_of_begun begun] at same counter
  have under : machine.state.memory.word machine.state.pc.toNat = .ok opcode := by
    rw [counter, word]
  have bound : machine.state.pc.toNat + 2 ≤ 4096 := by
    apply Decidable.byContradiction
    intro outside
    rw [Memory.word_of_not_inRange _ _ outside] at under
    contradiction
  obtain ⟨next, obeyed, cycled, moved⟩ := obey_of_cycle under done
  obtain ⟨after, followed, alike⟩ := obey_of_alone_eq same.symm obeyed
  have still := machine.begun_cycle.trans begun
  constructor
  case folded =>
    refine ⟨after, ?_, ?_⟩
    · rw [List.foldlM_append, folded]
      simp [bind, Except.bind, followed]
      rfl
    · rw [begin_of_begun still, alike, alone_of_unheard_eq cycled]
  case counter =>
    rw [begin_of_begun still, state_of_unheard_eq cycled, moved straight, UInt16.toNat_add,
      List.length_append, counter]
    rw [counter] at bound
    simp
    omega
  case begun =>
    intro _
    exact still

theorem carried_executed {script : List UInt16} (fits : script.length ≤ 1792)
    (written : ∀ index (h : index < script.length),
      start.state.memory.word (0x200 + 2 * index) = .ok script[index])
    (straight : ∀ word ∈ script, ∀ kind, Kind.ofOpcode? word = some kind → kind.steers = false) :
    CarriedWhile
      (fun deeds => Undiverted script.length deeds ∧ deeds.countP Deed.isTry ≤ script.length)
      (fun deeds machine => start.Keeps deeds machine ∧
        start.Executed (script.take (deeds.countP Deed.isTry)) machine) where
  front lasts := by
    obtain ⟨undiverted, few⟩ := lasts
    rw [List.countP_append] at few
    exact ⟨undiverted.front, by omega⟩
  subscribed {_ machine observer} _ now := by
    obtain ⟨keeps, executed⟩ := now
    have joined : (machine.withObservers (machine.observers ++ [observer])).begin.alone =
        machine.begin.alone := by
      rw [begin_withObservers, alone_withObservers]
    rw [List.countP_append]
    exact ⟨keeps.concat rfl, executed.congr joined id⟩
  loaded lasts := absurd lasts.1.kept (not_unloaded_concat _ _)
  begun {_ machine} now := by
    obtain ⟨keeps, executed⟩ := now
    rw [List.countP_append]
    refine ⟨keeps.begin, executed.congr ?_ fun _ => machine.begun_begin⟩
    rw [begin_begin]
  tried {deeds machine} lasts begun now := by
    obtain ⟨undiverted, few⟩ := lasts
    obtain ⟨keeps, executed⟩ := now
    have one : (deeds ++ [Deed.tried machine]).countP Deed.isTry = deeds.countP Deed.isTry + 1 :=
      List.countP_append
    rw [one] at few ⊢
    refine ⟨keeps.cycle, ?_⟩
    have length : (script.take (deeds.countP Deed.isTry)).length = deeds.countP Deed.isTry := by
      rw [List.length_take]
      omega
    have word : machine.state.memory.word (0x200 + 2 * deeds.countP Deed.isTry) =
        .ok script[deeds.countP Deed.isTry] := by
      apply keeps.word (by omega) (written _ few)
      intro tried member
      have intact := undiverted.intact tried (List.mem_append_left _ member)
      exact ⟨intact _ (by omega) (by omega), intact _ (by omega) (by omega)⟩
    rw [List.take_succ_eq_append_getElem few]
    apply executed.cycle begun
    · rw [length, word]
    · exact undiverted.done machine (List.mem_append_right _ List.mem_cons_self)
    · exact straight _ (List.getElem_mem _)
  heard {_ machine other} same now := by
    obtain ⟨keeps, executed⟩ := now
    refine ⟨keeps.heard same, ?_⟩
    apply executed.congr (alone_of_unheard_eq (begin_of_unheard_eq same))
    rw [begun_of_unheard_eq same]
    exact id

theorem load_image (machine : Machine) {words : List UInt16} (fits : words.length ≤ 1792) :
    (machine.load (image words)).outcome = .done ∧
      (machine.load (image words)).machine.begun = false ∧
      ∀ index (h : index < words.length),
        (machine.load (image words)).machine.state.memory.word (0x200 + 2 * index) =
          .ok words[index] := by
  have small : (image words).length ≤ State.maxRomSize := by
    simp [State.maxRomSize]
    omega
  rw [machine.load_of_length_le small]
  exact ⟨rfl, rfl, fun index h => Memory.word_programmed fits h⟩

end Machine

namespace Emulator

section
variable {start machine : Machine} {requests : List Request} {front : List Deed}

theorem keeps_of_standsAt (stands : (atHand start).StandsAt requests front machine)
    (unloaded : Unloaded front) : start.Keeps front machine := by
  have now : (atHand start).Holds
      (fun deeds machine => Unloaded deeds → start.Keeps deeds machine) [] := fun _ => .refl start
  exact stands.holds (Machine.carried_keeps start).carried now unloaded

private theorem executed_of_standsAt {script : List UInt16} (idle : start.begun = false)
    (fits : script.length ≤ 1792)
    (written : ∀ index (h : index < script.length),
      start.state.memory.word (0x200 + 2 * index) = .ok script[index])
    (straight : ∀ word ∈ script, ∀ kind, Kind.ofOpcode? word = some kind → kind.steers = false)
    (stands : (atHand start).StandsAt requests front machine)
    (tries : front.countP Deed.isTry = script.length)
    (undiverted : Undiverted script.length front) : start.Executed script machine := by
  have now : (atHand start).Holds (fun deeds machine =>
      Undiverted script.length deeds ∧ deeds.countP Deed.isTry ≤ script.length →
        start.Keeps deeds machine ∧
          start.Executed (script.take (deeds.countP Deed.isTry)) machine) [] :=
    fun _ => ⟨.refl start, .refl idle⟩
  have carried := (Machine.carried_executed fits written straight).carried
  obtain ⟨-, executed⟩ := stands.holds carried now ⟨undiverted, Nat.le_of_eq tries⟩
  rwa [tries, List.take_length] at executed

end

/-- A program of at most 1792 words can always be loaded, and from then on until the next program is
loaded, a fetch gets each word as it was written unless a cycle has stored over it. As long as the
words leave the counter alone and every cycle succeeds without storing over them, one cycle after
the other carries out one word after the other. -/
theorem programs_run_as_written (loader : Machine) {words : List UInt16}
    (fits : words.length ≤ 1792) (requests : List Request) :
    let fresh := (loader.load (image words)).machine
    (loader.load (image words)).outcome = .done ∧
    ∀ front machine, (atHand fresh).StandsAt requests front machine →
      (∀ rom, .loaded rom ∉ front) →
      (∀ index (h : index < words.length),
        (∀ tried, .tried tried ∈ front →
          ¬ tried.Covers (0x200 + 2 * index) ∧ ¬ tried.Covers (0x200 + 2 * index + 1)) →
        machine.state.memory.word (0x200 + 2 * index) = .ok words[index] ∧
        (machine.state.pc.toNat = 0x200 + 2 * index →
          machine.poll.state.fetch = .ok (words[index], machine.poll.state.passed))) ∧
      ∀ count ≤ words.length, front.countP Deed.isTry = count → Undiverted count front →
        (∀ word ∈ words.take count, ∀ kind, Kind.ofOpcode? word = some kind →
          kind.steers = false) →
        ∃ final, (words.take count).foldlM Machine.obey fresh.begin = .ok final ∧
          final.state.pc.toNat = 0x200 + 2 * count ∧
          machine.begin.state = final.state ∧ (1 ≤ count → machine.state = final.state) := by
  intro fresh
  obtain ⟨loaded, idle, written⟩ := loader.load_image fits
  refine ⟨loaded, ?_⟩
  intro front machine stands kept
  refine ⟨?_, ?_⟩
  · intro index h uncovered
    have word := (keeps_of_standsAt stands kept).word (by omega) (written index h) uncovered
    refine ⟨word, ?_⟩
    intro under
    have polled : machine.poll.state.memory.word machine.poll.state.pc.toNat = .ok words[index] :=
      (congrArg machine.state.memory.word under).trans word
    rw [State.fetch_eq, polled]
    rfl
  · intro count within tries undiverted straight
    have length : (words.take count).length = count := List.length_take_of_le within
    have read : ∀ index (h : index < (words.take count).length),
        fresh.state.memory.word (0x200 + 2 * index) = .ok (words.take count)[index] := by
      intro index h
      rw [List.getElem_take]
      exact written index (by omega)
    have executed := executed_of_standsAt idle (by omega) read straight stands
      (tries.trans length.symm) (by rwa [length])
    obtain ⟨final, folded, same⟩ := executed.folded
    have state : final.state = machine.begin.state :=
      Machine.alone_congr same Machine.state fun _ => rfl
    refine ⟨final, folded, ?_, state.symm, ?_⟩
    · rw [state, executed.counter, length]
    · intro some
      have begun := executed.begun (List.ne_nil_of_length_pos (by omega))
      rw [state, Machine.begin_of_begun begun]

theorem program_of_two_words :
    let loader := Machine.create Config.default (.constant Keys.released) (.ofArray #[])
    let words : List UInt16 := [0xA300, 0xF033]
    let fresh := (loader.load (image words)).machine
    ∀ machine, ((atHand fresh).after [.step, .step]).machine? = some machine →
      machine.state.memory.word 0x202 = .ok 0xF033 ∧
      ∃ final, words.foldlM Machine.obey fresh.begin = .ok final ∧
        final.state.pc.toNat = 0x204 ∧ machine.state = final.state := by
  intro loader words fresh machine present
  let first := fresh.begin
  let second := first.cycle.machine.begin
  let front : List Deed := [.begun, .tried first, .begun, .tried second]
  have stands : (atHand fresh).StandsAt [.step, .step] front machine := .inr ⟨rfl, present⟩
  have cycles : ∀ tried, .tried tried ∈ front → tried = first ∨ tried = second := by
    intro tried member
    simpa [front] using member
  have kept : ∀ rom, .loaded rom ∉ front := by simp [front]
  have clear : ∀ tried, .tried tried ∈ front → ∀ address < 0x300, ¬ tried.Covers address := by
    intro tried member address below
    obtain rfl | rfl := cycles tried member
    · have word : (first.state.memory.word first.state.pc.toNat).toOption = some 0xA300 := by
        decide +kernel
      exact Machine.not_covers_of_segment (eq_ok_of_toOption word) (by decide)
    · rintro ⟨-, low, -⟩
      have index : second.state.i.toNat = 0x300 := by decide +kernel
      omega
  have undiverted : Undiverted 2 front := by
    refine ⟨kept, ?_, ?_⟩
    · intro tried member
      obtain rfl | rfl := cycles tried member <;> decide +kernel
    · intro tried member address _ below
      exact clear tried member address (by omega)
  have fits : words.length ≤ 1792 := by decide
  have straight : ∀ word ∈ words, ∀ kind, Kind.ofOpcode? word = some kind →
      kind.steers = false := by
    intro word member kind known
    have either : word = 0xA300 ∨ word = 0xF033 := by simpa [words] using member
    obtain rfl | rfl := either
    · obtain rfl : Kind.setIndex = kind := Option.some.inj known
      rfl
    · obtain rfl : Kind.storeDecimal = kind := Option.some.inj known
      rfl
  obtain ⟨-, stay⟩ := programs_run_as_written loader fits [.step, .step]
  obtain ⟨fetched, executed⟩ := stay front machine stands kept
  obtain ⟨final, folded, counter, -, same⟩ :=
    executed 2 (Nat.le_refl 2) rfl undiverted straight
  refine ⟨(fetched 1 (by decide) ?_).1, final, folded, counter, same (by decide)⟩
  intro tried member
  exact ⟨clear tried member _ (by decide), clear tried member _ (by decide)⟩

end Emulator
end ChipEight
