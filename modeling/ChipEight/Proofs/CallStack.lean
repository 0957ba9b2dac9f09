import ChipEight.CallStack

namespace ChipEight.CallStack

/-- The pointer names a slot, the first slot is untouched, and every address that can still
be returned to lies just past an opcode in memory. -/
structure Sound (stack : CallStack) : Prop where
  pointer_le : stack.pointer.toNat ≤ 15
  bottom : stack.slots.head = 0
  address_mem : ∀ (slot : Nat) (h : slot < 16), 1 ≤ slot → slot ≤ stack.pointer.toNat →
    2 ≤ stack.slots[slot].toNat ∧ stack.slots[slot].toNat ≤ 4096

theorem sound_empty : empty.Sound where
  pointer_le := by decide
  bottom := rfl
  address_mem := by
    intro slot h above below
    have bound : slot ≤ 0 := below
    omega

theorem toNat_pointer_add_one {stack : CallStack} (room : stack.pointer.toNat < 15) :
    (stack.pointer + 1).toNat = stack.pointer.toNat + 1 := by
  rw [UInt8.toNat_add]
  exact Nat.mod_eq_of_lt (by simp; omega)

theorem toNat_pointer_sub_one {stack : CallStack} (occupied : stack.pointer ≠ 0) :
    (stack.pointer - 1).toNat = stack.pointer.toNat - 1 := by
  have positive : stack.pointer.toNat ≠ 0 := fun zero => occupied (UInt8.toNat_inj.mp zero)
  rw [UInt8.toNat_sub_of_le _ _ (by rw [UInt8.le_iff_toNat_le]; simp; omega)]
  rfl

theorem Sound.push {stack pushed : CallStack} {address : UInt16} (sound : stack.Sound)
    (push : stack.push? address = some pushed) (low : 2 ≤ address.toNat)
    (high : address.toNat ≤ 4096) : pushed.Sound := by
  obtain ⟨room, rfl⟩ := push?_eq_some push
  have pointer := toNat_pointer_add_one room
  refine ⟨?_, ?_, ?_⟩
  · rw [pointer]
    omega
  · rw [Vector.head, Vector.getElem_set_ne _ _ (by omega)]
    exact sound.bottom
  · intro slot h above below
    rw [pointer] at below
    by_cases top : stack.pointer.toNat + 1 = slot
    · subst top
      rw [Vector.getElem_set_self]
      exact ⟨low, high⟩
    · rw [Vector.getElem_set_ne _ _ top]
      exact sound.address_mem slot h above (by omega)

theorem Sound.drop {stack : CallStack} (sound : stack.Sound) (occupied : stack.pointer ≠ 0) :
    stack.drop.Sound := by
  have pointer : stack.drop.pointer.toNat = stack.pointer.toNat - 1 :=
    toNat_pointer_sub_one occupied
  refine ⟨?_, sound.bottom, ?_⟩
  · have := sound.pointer_le
    omega
  · intro slot h above below
    exact sound.address_mem slot h above (by omega)

theorem Sound.top?_eq {stack : CallStack} (sound : stack.Sound) :
    ∃ h : stack.pointer.toNat < 16, stack.top? = some stack.slots[stack.pointer.toNat] := by
  have h : stack.pointer.toNat < 16 := Nat.lt_succ_of_le sound.pointer_le
  exact ⟨h, Vector.getElem?_eq_getElem h⟩

theorem Sound.top_mem {stack : CallStack} {pc : UInt16} (sound : stack.Sound)
    (occupied : stack.pointer ≠ 0) (found : stack.top? = some pc) :
    2 ≤ pc.toNat ∧ pc.toNat ≤ 4096 := by
  obtain ⟨h, top⟩ := sound.top?_eq
  rw [top] at found
  cases found
  have positive : stack.pointer.toNat ≠ 0 := fun zero => occupied (UInt8.toNat_inj.mp zero)
  exact sound.address_mem _ h (by omega) (Nat.le_refl _)

theorem length_entries {stack : CallStack} (bounded : stack.pointer.toNat ≤ 15) :
    stack.entries.length = stack.pointer.toNat := by
  rw [entries, List.length_take, List.length_drop, Vector.length_toList]
  exact Nat.min_eq_left bounded

theorem getElem_entries {stack : CallStack} {index : Nat} (h : index < stack.entries.length)
    (slot : index + 1 < 16) : stack.entries[index] = stack.slots[index + 1] := by
  simp only [entries, List.getElem_take, List.getElem_drop, Vector.getElem_toList, Nat.add_comm 1]

theorem entries_push {stack pushed : CallStack} {address : UInt16}
    (push : stack.push? address = some pushed) : pushed.entries = stack.entries ++ [address] := by
  obtain ⟨room, rfl⟩ := push?_eq_some push
  have pointer := toNat_pointer_add_one room
  have length := length_entries (Nat.le_of_lt room)
  apply List.ext_getElem
  · rw [length_entries (by dsimp only; omega), List.length_append, length]
    exact pointer
  · intro index within fits
    have below : index < stack.pointer.toNat + 1 := by
      rw [length_entries (by dsimp only; omega)] at within
      exact pointer ▸ within
    rw [getElem_entries within (by omega)]
    by_cases top : index = stack.pointer.toNat
    · subst top
      rw [List.getElem_append_right (by omega)]
      simp [length]
    · rw [List.getElem_append_left (by omega), getElem_entries (by omega) (by omega),
        Vector.getElem_set_ne _ _ (by omega)]

theorem entries_drop {stack : CallStack} (bounded : stack.pointer.toNat ≤ 15)
    (occupied : stack.pointer ≠ 0) : stack.drop.entries = stack.entries.dropLast := by
  have pointer : stack.drop.pointer.toNat = stack.pointer.toNat - 1 :=
    toNat_pointer_sub_one occupied
  rw [List.dropLast_eq_take, length_entries bounded, entries, entries, List.take_take, pointer,
    Nat.min_eq_left (by omega)]
  rfl

theorem top?_eq_getLast? {stack : CallStack} (bounded : stack.pointer.toNat ≤ 15)
    (occupied : stack.pointer ≠ 0) : stack.top? = stack.entries.getLast? := by
  have positive : stack.pointer.toNat ≠ 0 := fun zero => occupied (UInt8.toNat_inj.mp zero)
  have length := length_entries bounded
  have below : stack.pointer.toNat - 1 + 1 = stack.pointer.toNat := by omega
  rw [List.getLast?_eq_getElem?, List.getElem?_eq_getElem (by omega), getElem_entries _ (by omega),
    top?, Vector.getElem?_eq_getElem (by omega)]
  simp only [length, below]

theorem entries_eq_nil {stack : CallStack} (bounded : stack.pointer.toNat ≤ 15) :
    stack.entries = [] ↔ stack.pointer = 0 := by
  rw [← List.length_eq_zero_iff, length_entries bounded]
  exact UInt8.toNat_inj (b := 0)

end ChipEight.CallStack
