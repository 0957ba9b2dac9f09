import ChipEight.Display.Texture
import ChipEight.Proofs.Panics
import ChipEight.Proofs.Sprites

/-! From pictures to textures. Every pixel becomes three bytes of the same intensity, and each row
of bytes is copied to its own place, which leaves the gaps between the rows alone. Intensities
fit a byte because no machine ever shows a pixel other than 0 and 1. -/
namespace ChipEight

namespace Display

section
variable {α : Type} {part : α → List UInt8} {length : Nat}

theorem getElem?_flatMap_of_length (even : ∀ item, (part item).length = length) (list : List α)
    (row : Nat) {offset : Nat} (inside : offset < length) :
    (list.flatMap part)[length * row + offset]? =
      list[row]?.bind fun item => (part item)[offset]? := by
  induction list generalizing row with
  | nil => rfl
  | cons item rest ih =>
    rw [List.flatMap_cons]
    cases row with
    | zero =>
      rw [Nat.mul_zero, Nat.zero_add, List.getElem?_append_left (even item ▸ inside)]
      rfl
    | succ row =>
      have beyond : length * (row + 1) + offset - (part item).length =
          length * row + offset := by
        rw [even item, Nat.mul_succ]
        omega
      rw [List.getElem?_append_right (by rw [even item, Nat.mul_succ]; omega), beyond, ih]
      rfl

theorem chunks_flatMap (even : ∀ item, (part item).length = length) (wide : 0 < length)
    (list : List α) : chunks length (list.flatMap part) = list.map part := by
  induction list with
  | nil =>
    rw [chunks]
    exact if_pos (.inl rfl)
  | cons item rest ih =>
    have more : ¬ ((item :: rest).flatMap part = [] ∨ length = 0) := by
      rintro (none | empty)
      · have first := even item
        rw [(List.append_eq_nil_iff.mp none).1] at first
        exact absurd first (Nat.ne_of_lt wide)
      · omega
    rw [chunks, if_neg more, List.flatMap_cons, List.take_left' (even item),
      List.drop_left' (even item), ih]
    rfl

end

private theorem intensity?_eq_some_iff {pixel byte : UInt8} :
    intensity? pixel = some byte ↔ (pixel = 0 ∨ pixel = 1) ∧ byte = pixel * 255 := by
  have fits : pixel.toNat * 255 < 256 ↔ pixel = 0 ∨ pixel = 1 := by
    simp only [← UInt8.toNat_inj, UInt8.toNat_zero, UInt8.toNat_one]
    omega
  simp only [intensity?, fits, Option.ite_none_right_eq_some, Option.some.injEq,
    @eq_comm _ byte]

private theorem mapM_intensity?_eq_some_iff {pixels bytes : List UInt8} :
    pixels.mapM intensity? = some bytes ↔
      (∀ pixel ∈ pixels, pixel = 0 ∨ pixel = 1) ∧ bytes = pixels.map (· * 255) := by
  induction pixels generalizing bytes with
  | nil => simp [eq_comm]
  | cons pixel rest ih =>
    simp only [List.mapM_cons, Option.bind_eq_bind, Option.bind_eq_some_iff,
      intensity?_eq_some_iff, ih, Option.pure_def, Option.some.injEq, List.forall_mem_cons,
      List.map_cons]
    constructor
    · rintro ⟨_, ⟨first, rfl⟩, _, ⟨later, rfl⟩, rfl⟩
      exact ⟨⟨first, later⟩, rfl⟩
    · rintro ⟨⟨first, later⟩, rfl⟩
      exact ⟨_, ⟨first, rfl⟩, _, ⟨later, rfl⟩, rfl⟩

def rowRgb (row : Vector UInt8 64) : List UInt8 :=
  row.toList.flatMap fun pixel => List.replicate channels (pixel * 255)

theorem length_rowRgb (row : Vector UInt8 64) : (rowRgb row).length = rowBytes := by
  simp [rowRgb, List.length_flatMap, channels, rowBytes, Frame.width]

/-- There are bytes for a picture just if all its pixels are 0 or 1. -/
theorem rgb?_eq_some_iff {frame : Frame} {rgb : List UInt8} :
    rgb? frame = some rgb ↔ frame.Binary ∧ rgb = frame.toList.flatMap rowRgb := by
  have binary : (∀ pixel ∈ frame.toList.flatMap Vector.toList, pixel = 0 ∨ pixel = 1) ↔
      frame.Binary := by
    simp only [List.forall_mem_flatMap, Vector.mem_toList_iff]
    constructor
    · intro all cell
      exact all _ (Vector.getElem_mem cell.y.isLt) _ (Vector.getElem_mem cell.x.isLt)
    · intro binary row rowMember pixel member
      obtain ⟨y, high, rfl⟩ := Vector.getElem_of_mem rowMember
      obtain ⟨x, wide, rfl⟩ := Vector.getElem_of_mem member
      exact binary ⟨⟨x, wide⟩, ⟨y, high⟩⟩
  have joined : ((frame.toList.flatMap Vector.toList).map (· * 255)).flatMap
      (List.replicate channels) = frame.toList.flatMap rowRgb := by
    rw [List.flatMap_map, List.flatMap_assoc]
    rfl
  simp only [rgb?, Option.bind_eq_bind, Option.bind_eq_some_iff, mapM_intensity?_eq_some_iff,
    binary, Option.some.injEq]
  constructor
  · rintro ⟨_, ⟨lit, rfl⟩, rfl⟩
    exact ⟨lit, joined⟩
  · rintro ⟨lit, rfl⟩
    exact ⟨_, ⟨lit, rfl⟩, joined⟩

def byteOf (cell : Cell) (channel : Fin 3) : Nat :=
  3 * (64 * cell.y.val + cell.x.val) + channel.val

variable {frame : Frame} {rgb : List UInt8}

theorem getElem?_rowRgb (row : Vector UInt8 64) (x : Fin 64) (channel : Fin 3) :
    (rowRgb row)[3 * x.val + channel.val]? = some (row[x.val] * 255) := by
  have even (pixel : UInt8) : (List.replicate channels (pixel * 255)).length = 3 :=
    List.length_replicate
  have present : row.toList[x.val]? = some row[x.val] := by simp
  rw [rowRgb, getElem?_flatMap_of_length even _ _ channel.isLt, present]
  exact List.getElem?_eq_some_iff.mpr ⟨channel.isLt, List.getElem_replicate _⟩

theorem length_of_rgb? (made : rgb? frame = some rgb) : rgb.length = 6144 := by
  rw [(rgb?_eq_some_iff.mp made).2, List.length_flatMap]
  simp [length_rowRgb, rowBytes, Frame.width, channels]

theorem getElem?_of_rgb? (made : rgb? frame = some rgb) (cell : Cell) (channel : Fin 3) :
    rgb[byteOf cell channel]? = some (frame.pixel cell * 255) := by
  have column := cell.x.isLt
  have byte := channel.isLt
  have place : byteOf cell channel =
      rowBytes * cell.y.val + (3 * cell.x.val + channel.val) := by
    simp only [byteOf, rowBytes, Frame.width, channels]
    omega
  have present : frame.toList[cell.y.val]? = some frame[cell.y.val] := by simp
  have inside : 3 * cell.x.val + channel.val < rowBytes := by
    simp only [rowBytes, Frame.width, channels]
    omega
  rw [(rgb?_eq_some_iff.mp made).2, place, getElem?_flatMap_of_length length_rowRgb _ _ inside,
    present]
  exact getElem?_rowRgb _ cell.x channel

theorem toNat_of_rgb? (made : rgb? frame = some rgb) (cell : Cell) (channel : Fin 3) :
    ∃ byte, rgb[byteOf cell channel]? = some byte ∧
      byte.toNat = 255 * (frame.pixel cell).toNat := by
  refine ⟨_, getElem?_of_rgb? made cell channel, ?_⟩
  obtain dark | lit := (rgb?_eq_some_iff.mp made).1 cell
  · rw [dark]
    rfl
  · rw [lit]
    rfl

theorem rgb?_injective {other : Frame} (made : rgb? frame = some rgb)
    (again : rgb? other = some rgb) : frame = other := by
  apply Frame.ext_pixel
  intro cell
  obtain ⟨byte, found, value⟩ := toNat_of_rgb? made cell 0
  obtain ⟨same, here, equal⟩ := toNat_of_rgb? again cell 0
  obtain rfl : same = byte := Option.some.inj (here.symm.trans found)
  exact UInt8.toNat_inj.mp (by omega)

/-- The place of one of the bytes of a cell in a texture of this pitch. -/
def placeOf (pitch : Nat) (cell : Cell) (channel : Fin 3) : Nat :=
  cell.y.val * pitch + 3 * cell.x.val + channel.val

variable {pitch first : Nat} {buffer : Array UInt8} {parts : List (List UInt8)}

private theorem exists_copy? {start : Nat} {bytes : List UInt8}
    (room : start + bytes.length ≤ buffer.size) :
    ∃ after, copy? buffer start bytes = some after ∧ after.size = buffer.size ∧
      (∀ offset, offset < bytes.length → after[start + offset]? = bytes[offset]?) ∧
      ∀ index, index < start ∨ start + bytes.length ≤ index → after[index]? = buffer[index]? := by
  refine ⟨_, if_pos room, Array.size_mapIdx, ?_, ?_⟩
  · intro offset inside
    have present : start + offset < buffer.size := by omega
    rw [Array.getElem?_mapIdx, Array.getElem?_eq_getElem present, Option.map_some,
      if_pos (Nat.le_add_right ..), Nat.add_sub_cancel_left, List.getElem?_eq_getElem inside]
    rfl
  · intro index outside
    rw [Array.getElem?_mapIdx]
    have same (old : UInt8) :
        (if start ≤ index then bytes[index - start]?.getD old else old) = old := by
      split
      · rw [List.getElem?_eq_none (by omega)]
        rfl
      · rfl
    simp only [same]
    exact Option.map_id_apply

/-- Parts have been copied to the places that the pitch gives them from a row on, and nothing else
has changed. -/
structure Copied (parts : List (List UInt8)) (first pitch : Nat) (buffer after : Array UInt8) :
    Prop where
  size : after.size = buffer.size
  bytes : ∀ row part, parts[row]? = some part → ∀ offset, offset < part.length →
    after[(first + row) * pitch + offset]? = part[offset]?
  kept : ∀ index, (∀ row part, parts[row]? = some part → ∀ offset, offset < part.length →
    index ≠ (first + row) * pitch + offset) → after[index]? = buffer[index]?

theorem exists_copied (wide : ∀ part ∈ parts, part.length ≤ pitch)
    (room : ∀ row part, parts[row]? = some part →
      (first + row) * pitch + part.length ≤ buffer.size) :
    ∃ after, (parts.zipIdx first).foldlM
        (fun buffer (pixels, row) => copy? buffer (row * pitch) pixels) buffer = some after ∧
      Copied parts first pitch buffer after := by
  induction parts generalizing first buffer with
  | nil => exact ⟨buffer, rfl, rfl, nofun, fun _ _ => rfl⟩
  | cons part rest ih =>
    have next (row : Nat) : first + 1 + row = first + (row + 1) := by omega
    obtain ⟨middle, copied, size, own, others⟩ := exists_copy? (room 0 part rfl)
    have roomier : ∀ row part, rest[row]? = some part →
        (first + 1 + row) * pitch + part.length ≤ middle.size := by
      intro row part present
      rw [size, next]
      exact room (row + 1) part present
    obtain ⟨after, folded, later⟩ := ih (List.forall_mem_cons.mp wide).2 roomier
    refine ⟨after, ?_, later.size.trans size, ?_, ?_⟩
    · rw [List.zipIdx_cons, List.foldlM_cons]
      dsimp only
      rw [← Nat.add_zero first, copied]
      exact folded
    · intro row other present offset inside
      cases row with
      | zero =>
        obtain rfl : part = other := Option.some.inj present
        rw [← own offset inside]
        apply later.kept
        -- The pitch is as long as this part at least, so what comes behind lies behind it.
        intro behind _ _ shift _
        have short := (List.forall_mem_cons.mp wide).1
        simp only [Nat.add_mul, Nat.one_mul, Nat.zero_mul]
        omega
      | succ row =>
        rw [← next]
        exact later.bytes row other present offset inside
    · intro index outside
      have elsewhere : index < (first + 0) * pitch ∨
          (first + 0) * pitch + part.length ≤ index := by
        by_contra within
        exact outside 0 part rfl (index - (first + 0) * pitch) (by omega) (by omega)
      rw [← others index elsewhere]
      apply later.kept
      intro row other present offset inside
      rw [next]
      exact outside (row + 1) other present offset inside

theorem exists_upload? (made : rgb? frame = some rgb) (wide : 192 ≤ pitch)
    (room : 31 * pitch + 192 ≤ buffer.size) :
    ∃ after, upload? rgb pitch buffer = some after ∧ after.size = buffer.size ∧
      (∀ cell channel, after[placeOf pitch cell channel]? = rgb[byteOf cell channel]?) ∧
      ∀ index, (∀ cell channel, index ≠ placeOf pitch cell channel) →
        after[index]? = buffer[index]? := by
  have rows : chunks rowBytes rgb = frame.toList.map rowRgb := by
    rw [(rgb?_eq_some_iff.mp made).2]
    exact chunks_flatMap length_rowRgb (by decide) _
  have part_of {row : Nat} {part : List UInt8}
      (present : (frame.toList.map rowRgb)[row]? = some part) :
      ∃ h : row < 32, part = rowRgb frame[row] ∧ part.length = 192 := by
    obtain ⟨inside, rfl⟩ := List.getElem?_eq_some_iff.mp present
    have h : row < 32 := by simpa using inside
    rw [List.getElem_map]
    exact ⟨h, rfl, length_rowRgb _⟩
  have narrow : ∀ part ∈ frame.toList.map rowRgb, part.length ≤ pitch := by
    intro part member
    obtain ⟨row, -, rfl⟩ := List.mem_map.mp member
    rw [length_rowRgb]
    exact wide
  have fits : ∀ row part, (frame.toList.map rowRgb)[row]? = some part →
      (0 + row) * pitch + part.length ≤ buffer.size := by
    intro row part present
    obtain ⟨h, -, length⟩ := part_of present
    have last : row * pitch ≤ 31 * pitch := Nat.mul_le_mul_right _ (by omega)
    rw [Nat.zero_add, length]
    omega
  obtain ⟨after, uploaded, copied⟩ := exists_copied narrow fits
  rw [← rows] at uploaded
  refine ⟨after, uploaded, copied.size, ?_, ?_⟩
  · intro cell channel
    have column := cell.x.isLt
    have byte := channel.isLt
    have present : (frame.toList.map rowRgb)[cell.y.val]? =
        some (rowRgb frame[cell.y.val]) := by simp
    have found := copied.bytes _ _ present (3 * cell.x.val + channel.val)
      (by rw [length_rowRgb]; simp only [rowBytes, Frame.width, channels]; omega)
    rw [Nat.zero_add, ← Nat.add_assoc, getElem?_rowRgb] at found
    exact found.trans (getElem?_of_rgb? made cell channel).symm
  · intro index other
    apply copied.kept
    intro row part present offset inside
    obtain ⟨h, -, length⟩ := part_of present
    have column : offset / 3 < 64 := by omega
    have byte : offset % 3 < 3 := Nat.mod_lt _ (by decide)
    have place := other ⟨⟨_, column⟩, ⟨row, h⟩⟩ ⟨_, byte⟩
    simp only [placeOf] at place
    rw [Nat.zero_add]
    omega

end Display

def ShowsSound (events : List (Nat × Event)) : Prop := ∀ told ∈ events, told.2.Sound

theorem ShowsSound.nil : ShowsSound [] := List.forall_mem_nil _

theorem ShowsSound.append {first second : List (Nat × Event)} (now : ShowsSound first)
    (later : ShowsSound second) : ShowsSound (first ++ second) := by
  intro told member
  exact (List.mem_append.mp member).elim (now told) (later told)

theorem Step.Relays.showsSound {step : Step} {observers : List Observer} {log : List Event}
    {ends : Outcome} (relays : step.Relays observers log ends)
    (sound : ∀ event ∈ log, event.Sound) : ShowsSound step.trace.events := by
  intro told member
  rw [relays.events] at member
  exact sound told.2 (mem_of_events_deliver member)

namespace Machine
variable {machine : Machine}

theorem showsSound_announce (machine : Machine) {event : Event} (sound : event.Sound) :
    ShowsSound (machine.announce event).trace.events :=
  (machine.relays_announce event).showsSound (by simpa using sound)

theorem showsSound_cycle (sound : machine.state.Sound) :
    ShowsSound machine.cycle.trace.events := by
  cases result : machine.attempt.result with
  | error fault =>
    rw [events_cycle_of_error result]
    exact .nil
  | ok state =>
    exact (delivers_cycle result).showsSound (sound_of_attempt sound result).happenings

private theorem showsSound_halt (sound : machine.state.Sound) (fault : Fault) :
    ShowsSound (machine.halt fault).trace.events := by
  have told : ∀ event ∈ [Event.fault fault, .stop machine.state], event.Sound := by
    simpa [Event.Sound] using sound
  exact (machine.relays_halt fault).showsSound told

private theorem showsSound_run (sound : machine.state.Sound) (count : Nat) :
    ShowsSound (machine.run count).trace.events := by
  induction count generalizing machine with
  | zero => exact .nil
  | succ count ih =>
    rw [run, Trace.events_append]
    refine (showsSound_cycle sound).append ?_
    cases machine.cycle.outcome with
    | done => exact ih (sound_cycle sound)
    | failed fault => exact showsSound_halt (sound_cycle sound) fault
    | panicked cause => exact .nil

end Machine

namespace Session
variable {session : Session}

theorem showsSound_work (sound : session.machine.state.Sound)
    (shown : ShowsSound session.trace.events) (count : Nat) :
    ShowsSound (session.work count).trace.events := by
  unfold work
  split
  · exact shown
  · rw [Trace.events_append]
    exact shown.append (Machine.showsSound_run sound count)

private theorem showsSound_finish (sound : session.machine.state.Sound)
    (shown : ShowsSound session.trace.events) : ShowsSound session.finish.trace.events := by
  unfold finish
  split
  · exact shown
  · rw [Trace.events_append]
    exact shown.append (session.machine.showsSound_announce sound)

end Session

namespace Emulator
variable {emulator : Emulator} {history : List Deed}

theorem Follows.showsSound_answer (follows : emulator.Follows history)
    (shown : ShowsSound emulator.unreported) (request : Request) :
    ShowsSound (emulator.answer request).events ∧
      ShowsSound (emulator.answer request).emulator.unreported := by
  cases emulator with
  | lost random => cases request <;> exact ⟨.nil, .nil⟩
  | busy session =>
    have sound := follows.1.sound
    cases request with
    | work count => exact ⟨.nil, Session.showsSound_work sound shown count⟩
    | stop =>
      have finished := Session.showsSound_finish sound shown
      simp only [Emulator.answer, Emulator.stop]
      split
      · exact ⟨finished.append .nil, .nil⟩
      · exact ⟨finished.append .nil, .nil⟩
    | subscribe | load | step | start => exact ⟨.nil, shown⟩
  | atHand machine =>
    have sound : machine.state.Sound := Machine.Reached.sound follows
    have begun := Machine.sound_begin sound
    cases request with
    | load rom =>
      refine ⟨?_, .nil⟩
      have events : ((atHand machine).answer (.load rom)).events = [] := machine.events_load rom
      rw [events]
      exact .nil
    | step => exact ⟨Machine.showsSound_cycle begun, .nil⟩
    | start refusal =>
      cases refusal with
      | some cause => exact ⟨.nil, .nil⟩
      | none => exact ⟨.nil, machine.begin.showsSound_announce begun⟩
    | subscribe | work | stop => exact ⟨.nil, .nil⟩

/-- No observer is ever shown a state that is not sound, whoever panics. -/
theorem Follows.showsSound_told (follows : emulator.Follows history)
    (shown : ShowsSound emulator.unreported) (requests : List Request) :
    ShowsSound (emulator.told requests ++ (emulator.after requests).unreported) := by
  induction requests generalizing emulator history with
  | nil => exact shown
  | cons request rest ih =>
    obtain ⟨now, reported⟩ := follows.showsSound_answer shown request
    rw [told, List.append_assoc]
    exact now.append (ih (follows.answer request) reported)

end Emulator

namespace Display

/-- Every picture of zeros and ones has bytes, one for each channel of each pixel, and no two such
pictures have the same. In a texture with room for them each byte is copied to its own place and
all else stays. Pictures that observers are ever shown are of that sort. -/
theorem textures_show_frames :
    (∀ frame : Frame, frame.Binary → ∃ rgb, rgb? frame = some rgb ∧ rgb.length = 6144 ∧
      (∀ cell channel, ∃ byte, rgb[byteOf cell channel]? = some byte ∧
        byte.toNat = 255 * (frame.pixel cell).toNat) ∧
      ∀ pitch (buffer : Array UInt8), 192 ≤ pitch → 31 * pitch + 192 ≤ buffer.size →
        ∃ after, upload? rgb pitch buffer = some after ∧ after.size = buffer.size ∧
          (∀ cell channel, after[placeOf pitch cell channel]? = rgb[byteOf cell channel]?) ∧
          ∀ index, (∀ cell channel, index ≠ placeOf pitch cell channel) →
            after[index]? = buffer[index]?) ∧
    (∀ first second : Frame, first.Binary → rgb? first = rgb? second → first = second) ∧
    ∀ config keypad random requests position event state,
      (position, event) ∈ (Emulator.create config keypad random).told requests ++
        ((Emulator.create config keypad random).after requests).unreported →
      event.state? = some state → state.frame.Binary := by
  refine ⟨?_, ?_, ?_⟩
  · intro frame binary
    have made := rgb?_eq_some_iff.mpr ⟨binary, rfl⟩
    refine ⟨_, made, length_of_rgb? made, toNat_of_rgb? made, ?_⟩
    intro pitch buffer wide room
    exact exists_upload? made wide room
  · intro first second binary same
    have made := rgb?_eq_some_iff.mpr ⟨binary, rfl⟩
    exact rgb?_injective made (same.symm.trans made)
  · intro config keypad random requests position event state told shows
    have fresh : (Emulator.create config keypad random).Follows [] := .created ..
    have sound : event.Sound := fresh.showsSound_told .nil requests _ told
    cases event <;> cases shows <;> exact State.Sound.frame sound

/-- A picture with one lit pixel, in a texture with a gap of eight bytes after each row. -/
theorem lit_corner_is_rendered :
    let frame := Frame.blank.setPixel ⟨63, 31⟩ 1
    ∃ rgb after, rgb? frame = some rgb ∧
      upload? rgb 200 (Array.replicate 6400 7) = some after ∧
      after[placeOf 200 ⟨63, 31⟩ 2]? = some 255 ∧ after[placeOf 200 ⟨62, 31⟩ 0]? = some 0 ∧
      after[(195 : Nat)]? = some 7 := by
  intro frame
  have pixel : ∀ cell, frame.pixel cell = if cell = ⟨63, 31⟩ then 1 else 0 := by
    intro cell
    rw [Frame.pixel_setPixel, Frame.pixel_blank]
  have binary : frame.Binary := by
    intro cell
    rw [pixel]
    split
    · exact .inr rfl
    · exact .inl rfl
  obtain ⟨rgb, made, -, bytes, copies⟩ := textures_show_frames.1 frame binary
  obtain ⟨after, uploaded, -, copied, kept⟩ :=
    copies 200 (Array.replicate 6400 7) (by decide) (by simp)
  obtain ⟨high, lit, full⟩ := bytes ⟨63, 31⟩ 2
  obtain ⟨low, dark, empty⟩ := bytes ⟨62, 31⟩ 0
  rw [pixel] at full empty
  refine ⟨rgb, after, made, uploaded, ?_, ?_, ?_⟩
  · rw [copied, lit]
    exact congrArg some (UInt8.toNat_inj.mp full)
  · rw [copied, dark]
    exact congrArg some (UInt8.toNat_inj.mp empty)
  · rw [kept]
    · simp
    · intro cell channel
      have column := cell.x.isLt
      simp only [placeOf]
      omega

end Display
end ChipEight
