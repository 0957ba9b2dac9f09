import ChipEight.Proofs.Transfers

/-! Every way to get at the memory by an address. All of them check their range in the same way and
before anything is moved: the sum of address and length is exact, so an access at the end of
the memory and one at the end of all addresses are told apart, and what is refused has changed
nothing. What has been laid down is read back, and it disturbs nothing beside it. -/
namespace ChipEight

namespace Memory
variable {memory : Memory} {address length : Nat} {bytes : List UInt8}

private theorem getElem_overlay (memory : Memory) (address : Nat) (bytes : List UInt8) {query : Nat}
    (h : query < 4096) : (memory.overlay address bytes)[query] =
      if inside : address ≤ query ∧ query < address + bytes.length then
        bytes[query - address]
      else memory[query] := by
  split
  · next inside =>
    obtain ⟨offset, rfl⟩ := Nat.exists_eq_add_of_le inside.1
    have within : offset < bytes.length := by omega
    rw [getElem_overlay_inside memory address bytes offset within h]
    congr 1
    omega
  · next outside => exact getElem_overlay_outside memory address bytes query h (by omega)

def Apart (first firstLength second secondLength : Nat) : Prop :=
  ∀ query, ¬ ((first ≤ query ∧ query < first + firstLength) ∧
    second ≤ query ∧ query < second + secondLength)

theorem overlay_comm (memory : Memory) {first second : Nat} {bytes others : List UInt8}
    (apart : Apart first bytes.length second others.length) :
    (memory.overlay first bytes).overlay second others =
      (memory.overlay second others).overlay first bytes := by
  apply Vector.ext
  intro query h
  simp only [getElem_overlay]
  by_cases here : first ≤ query ∧ query < first + bytes.length
  · have elsewhere := fun there => apart query ⟨here, there⟩
    rw [dif_pos here, dif_neg elsewhere, dif_pos here]
  · rw [dif_neg here, dif_neg here]

private theorem bytesAt_of_holds (fits : InRange address bytes.length)
    (holds : memory.Holds address bytes) :
    memory.bytesAt address bytes.length fits = bytes := by
  apply List.ext_getElem (memory.length_bytesAt ..)
  intro offset h within
  have inside : address + offset < 4096 := by omega
  have found := holds offset within
  rw [Vector.getElem?_eq_getElem inside] at found
  simpa [bytesAt] using found

private theorem read_congr {other : Memory} {query : Nat} (same : memory[query]? = other[query]?) :
    memory.read query = other.read query := by
  unfold read
  split
  · next fits =>
    rw [Vector.getElem?_eq_getElem (by omega), Vector.getElem?_eq_getElem (by omega)] at same
    exact congrArg Except.ok (Option.some.inj same)
  · rfl

end Memory

inductive Access where
  | slice (length : Nat)
  | fill (length : Nat) (value : UInt8)
  | load (bytes : List UInt8)
  | read
  | write (value : UInt8)

namespace Access
variable {access : Access} {address : Nat}

def length : Access → Nat
  | slice length | fill length _ => length
  | load bytes => bytes.length
  | read | write _ => 1

def reads : Access → Nat
  | slice length => length
  | read => 1
  | fill .. | load _ | write _ => 0

def stores : Access → List UInt8
  | fill length value => List.replicate length value
  | load bytes => bytes
  | write value => [value]
  | slice _ | read => []

/-- The bytes that it hands out, and the state once it has been made from that address on. -/
def perform (access : Access) (address : Nat) (state : State) :
    Except Fault (List UInt8 × State) :=
  match access with
  | slice length => (state.memory.slice address length).map fun bytes => (bytes, state)
  | fill length value => (state.fill address length value).map fun after => ([], after)
  | load bytes => (state.load address bytes).map fun after => ([], after)
  | read => (state.memory.read address).map fun byte => ([byte], state)
  | write value => (state.write address value).map fun after => ([], after)

/-- The state that whoever asked for it is left with. -/
def leaves (access : Access) (address : Nat) (state : State) : State :=
  match access.perform address state with
  | .ok (_, after) => after
  | .error _ => state

theorem perform_of_past (past : 4096 < address + access.length) (state : State) :
    access.perform address state = .error (.outOfBounds address access.length) := by
  cases access with
  | slice length =>
    have outside : ¬ Memory.InRange address length := Nat.not_le.mpr past
    rw [perform, Memory.slice, dif_neg outside]
    rfl
  | fill length value =>
    have outside : ¬ Memory.InRange address length := Nat.not_le.mpr past
    rw [perform, State.fill, Memory.fill, if_neg outside]
    rfl
  | load bytes =>
    rw [perform, State.load_of_past past]
    rfl
  | read =>
    have outside : ¬ Memory.InRange address 1 := Nat.not_le.mpr past
    rw [perform, Memory.read, dif_neg outside]
    rfl
  | write value =>
    have refused : state.load address [value] = .error (.outOfBounds address 1) :=
      State.load_of_past past
    have written : state.write address value = state.load address [value] := rfl
    rw [perform, written, refused]
    rfl

theorem exists_perform_eq (fits : address + access.length ≤ 4096) (state : State) :
    ∃ bytes, access.perform address state =
        .ok (bytes, { state with memory := state.memory.overlay address access.stores }) ∧
      bytes.length = access.reads ∧ state.memory.Holds address bytes := by
  have nothing : state.memory.Holds address [] := nofun
  cases access with
  | slice length =>
    have inside : Memory.InRange address length := fits
    refine ⟨state.memory.bytesAt address length inside, ?_, state.memory.length_bytesAt ..,
      state.memory.holds_bytesAt inside⟩
    rw [perform, Memory.slice, dif_pos inside]
    rfl
  | fill length value =>
    have inside : Memory.InRange address length := fits
    refine ⟨[], ?_, rfl, nothing⟩
    rw [perform, State.fill, Memory.fill, if_pos inside]
    rfl
  | load bytes =>
    refine ⟨[], ?_, rfl, nothing⟩
    rw [perform, State.load_of_inRange fits]
    rfl
  | read =>
    have inside : Memory.InRange address 1 := fits
    have present : address < 4096 := fits
    refine ⟨[state.memory[address]], ?_, rfl, ?_⟩
    · rw [perform, Memory.read, dif_pos inside]
      rfl
    · intro offset h
      obtain rfl : offset = 0 := Nat.lt_one_iff.mp h
      exact Vector.getElem?_eq_getElem present
  | write value =>
    have single : Memory.InRange address [value].length := fits
    have written : state.write address value = state.load address [value] := rfl
    refine ⟨[], ?_, rfl, nothing⟩
    rw [perform, written, State.load_of_inRange single]
    rfl

theorem isOk_perform_iff {here length : UInt64} (covers : length.toNat = access.length)
    (state : State) : (∃ made, access.perform here.toNat state = .ok made) ↔
      (Memory.finish? here length).isSome = true := by
  constructor
  · rintro ⟨made, performed⟩
    by_cases fits : here.toNat + access.length ≤ 4096
    · have exact : (UInt64.ofNat (here.toNat + access.length)).toNat =
          here.toNat + access.length :=
        UInt64.toNat_ofNat_of_lt' (Nat.lt_of_le_of_lt fits (by decide))
      rw [← covers] at fits exact
      exact Option.isSome_of_eq_some (Memory.finish?_eq_some_iff.mpr ⟨fits, exact⟩)
    · rw [perform_of_past (Nat.not_le.mp fits)] at performed
      contradiction
  · intro found
    obtain ⟨finish, present⟩ := Option.isSome_iff_exists.mp found
    have fits := (Memory.finish?_eq_some_iff.mp present).1
    obtain ⟨bytes, performed, -⟩ := exists_perform_eq (covers ▸ fits) state
    exact ⟨_, performed⟩

theorem leaves_eq (access : Access) (address : Nat) (state : State) :
    access.leaves address state =
      if address + access.length ≤ 4096 then
        { state with memory := state.memory.overlay address access.stores }
      else state := by
  split
  · next fits =>
    obtain ⟨bytes, performed, -⟩ := exists_perform_eq fits state
    rw [leaves, performed]
  · next past => rw [leaves, perform_of_past (Nat.not_le.mp past)]

private theorem length_stores_le (access : Access) : access.stores.length ≤ access.length := by
  cases access <;> simp [stores, length]

theorem leaves_comm {first second : Access} {here there : Nat} (state : State)
    (apart : Memory.Apart here first.stores.length there second.stores.length) :
    second.leaves there (first.leaves here state) =
      first.leaves here (second.leaves there state) := by
  simp only [leaves_eq]
  by_cases fits : here + first.length ≤ 4096
  · simp only [if_pos fits]
    split
    · rw [state.memory.overlay_comm apart]
    · rfl
  · simp only [if_neg fits]

end Access

namespace State
variable {state after : State} {offset : Nat} {bytes : List UInt8}

theorem read_back_of_load (loaded : state.load offset bytes = .ok after) :
    after.memory.slice offset bytes.length = .ok bytes ∧
      (∀ query, query < offset ∨ offset + bytes.length ≤ query →
        after.memory.read query = state.memory.read query) ∧
      after = { state with memory := after.memory } := by
  obtain ⟨fits, rfl⟩ := load_eq_ok loaded
  refine ⟨?_, ?_, rfl⟩
  · have holds := state.memory.holds_overlay fits
    rw [Memory.slice, dif_pos fits, Memory.bytesAt_of_holds fits holds]
  · intro query outside
    exact Memory.read_congr (state.memory.getElem?_overlay_outside outside)

/-- An access succeeds just if its range ends within the memory, the end being the exact sum of its
address and its length, which is what the check in 64-bit numbers finds out; one that is refused
says for which range and changes nothing. A load is read back where it was put and is not seen
anywhere else, and accesses that store apart from each other may change places. -/
theorem accesses_are_exact (state : State) :
    (∀ (access : Access) (address : Nat),
      (address + access.length ≤ 4096 → ∃ (bytes : List UInt8) (memory : Memory),
        access.perform address state = .ok (bytes, { state with memory }) ∧
        access.leaves address state = { state with memory } ∧
        bytes.length = access.reads ∧ state.memory.Holds address bytes ∧
        memory.Holds address access.stores ∧
        ∀ query, query < address ∨ address + access.stores.length ≤ query →
          memory[query]? = state.memory[query]?) ∧
      (4096 < address + access.length →
        access.perform address state = .error (.outOfBounds address access.length) ∧
        access.leaves address state = state)) ∧
    (∀ address length finish : UInt64, Memory.finish? address length = some finish ↔
      address.toNat + length.toNat ≤ 4096 ∧ finish.toNat = address.toNat + length.toNat) ∧
    (∀ (access : Access) (address length : UInt64), length.toNat = access.length →
      ((∃ made, access.perform address.toNat state = .ok made) ↔
        (Memory.finish? address length).isSome = true)) ∧
    (∀ (offset : Nat) (bytes : List UInt8) (after : State),
      state.load offset bytes = .ok after →
        after.memory.slice offset bytes.length = .ok bytes ∧
        (∀ query, query < offset ∨ offset + bytes.length ≤ query →
          after.memory.read query = state.memory.read query) ∧
        after = { state with memory := after.memory }) ∧
    ∀ (first second : Access) (here there : Nat),
      Memory.Apart here first.stores.length there second.stores.length →
        second.leaves there (first.leaves here state) =
          first.leaves here (second.leaves there state) := by
  refine ⟨?_, ?_, ?_, ?_, ?_⟩
  · intro access address
    refine ⟨?_, ?_⟩
    · intro fits
      obtain ⟨bytes, performed, length, held⟩ := Access.exists_perform_eq fits state
      have stored : Memory.InRange address access.stores.length :=
        Nat.le_trans (Nat.add_le_add_left access.length_stores_le address) fits
      refine ⟨bytes, _, performed, ?_, length, held, state.memory.holds_overlay stored, ?_⟩
      · rw [Access.leaves_eq, if_pos fits]
      · intro query outside
        exact state.memory.getElem?_overlay_outside outside
    · intro past
      refine ⟨Access.perform_of_past past state, ?_⟩
      rw [Access.leaves_eq, if_neg (Nat.not_le.mpr past)]
  · intro address length finish
    exact Memory.finish?_eq_some_iff
  · intro access address length covers
    exact Access.isOk_perform_iff covers state
  · intro offset bytes after loaded
    exact read_back_of_load loaded
  · intro first second here there apart
    exact Access.leaves_comm state apart

/-- Three bytes that just fit, ranges without a byte at the end of the memory and past it, a range at
the end of all addresses, and two loads side by side. -/
theorem accesses_at_ends_of_memory :
    let last := Access.load [1, 2, 3]
    let before := Access.load [4, 5]
    let loaded := last.leaves 0xFFD zero
    loaded.memory.slice 0xFFD 3 = .ok [1, 2, 3] ∧
      loaded.memory.read 0xFFC = zero.memory.read 0xFFC ∧
      (∃ made, (Access.slice 0).perform 0x1000 zero = .ok made) ∧
      (Access.slice 0).perform 0x1001 zero = .error (.outOfBounds 0x1001 0) ∧
      (Access.fill 2 7).leaves 0xFFFFFFFFFFFFFFFF zero = zero ∧
      Memory.finish? 0xFFFFFFFFFFFFFFFF 2 = none ∧
      (Memory.finish? 0x1000 0).isSome = true ∧
      last.leaves 0xFFD (before.leaves 0xFFB zero) = before.leaves 0xFFB loaded := by
  intro last before loaded
  obtain ⟨exact, words, checks, loads, commute⟩ := accesses_are_exact zero
  obtain ⟨bytes, memory, made, -⟩ := (exact (.slice 0) 0x1000).1 (by decide)
  have fits : zero.load 0xFFD [1, 2, 3] = .ok loaded := load_of_inRange (by decide)
  obtain ⟨read, kept, -⟩ := loads 0xFFD [1, 2, 3] loaded fits
  refine ⟨read, kept 0xFFC (by decide), ⟨_, made⟩, ((exact (.slice 0) 0x1001).2 (by decide)).1,
    ((exact (.fill 2 7) 0xFFFFFFFFFFFFFFFF).2 (by decide)).2, ?_,
    (checks (.slice 0) 0x1000 0 rfl).mp ⟨_, made⟩, ?_⟩
  · apply Option.eq_none_iff_forall_ne_some.mpr
    intro finish found
    exact absurd ((words _ _ _).mp found).1 (by decide)
  · apply commute
    intro query inside
    have other : 0xFFD ≤ query ∧ query < 0xFFD + 3 := inside.2
    have here : query < 0xFFB + 2 := inside.1.2
    omega

end State
end ChipEight
