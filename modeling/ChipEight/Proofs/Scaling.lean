import ChipEight.Host.Launch
import ChipEight.Proofs.Programs
import Mathlib.Algebra.Group.Nat.Defs

/-! From the command line to the size of the window. Every scale of 32 bits gets as far as the
product of the sides, and there is no product for the scales from 2 ^ 26 on: what should open a
window ends the program in a panic. -/
namespace ChipEight

namespace Display

theorem product?_eq_some_iff {first second product : UInt32} :
    product? first second = some product ↔ product.toNat = first.toNat * second.toNat := by
  rw [product?, Option.ite_none_right_eq_some, Option.some.injEq, ← UInt32.toNat_inj,
    UInt32.toNat_mul]
  constructor
  · rintro ⟨fits, same⟩
    rw [← same]
    exact Nat.mod_eq_of_lt fits
  · intro exact
    have fits : first.toNat * second.toNat < UInt32.size := exact ▸ product.toNat_lt
    exact ⟨fits, (Nat.mod_eq_of_lt fits).trans exact.symm⟩

namespace Window
variable {scale : UInt32} {window : Window}

/-- The sides that a scale asks for, as they are in integers. -/
def Exact (window : Window) (scale : UInt32) : Prop :=
  window.width.toNat = 64 * scale.toNat ∧ window.height.toNat = 32 * scale.toNat

theorem ofScale?_eq_some_iff : ofScale? scale = some window ↔ window.Exact scale := by
  obtain ⟨width, height⟩ := window
  have sides : ofScale? scale = some ⟨width, height⟩ ↔
      product? 64 scale = some width ∧ product? 32 scale = some height := by
    simp [ofScale?, Option.bind_eq_some_iff]
  rw [sides, product?_eq_some_iff, product?_eq_some_iff]
  rfl

theorem exists_exact_iff : (∃ window : Window, window.Exact scale) ↔ scale.toNat < 2 ^ 26 := by
  constructor
  · rintro ⟨window, width, -⟩
    have bound := window.width.toNat_lt
    omega
  · intro small
    refine ⟨⟨.ofNat (64 * scale.toNat), .ofNat (32 * scale.toNat)⟩, ?_, ?_⟩
    · exact UInt32.toNat_ofNat_of_lt' (by rw [UInt32.size]; omega)
    · exact UInt32.toNat_ofNat_of_lt' (by rw [UInt32.size]; omega)

theorem ofScale?_eq_none_iff : ofScale? scale = none ↔ 2 ^ 26 ≤ scale.toNat := by
  rw [← Nat.not_lt, ← exists_exact_iff, Option.eq_none_iff_forall_ne_some, not_exists]
  exact forall_congr' fun _ => not_congr ofScale?_eq_some_iff

end Window
end Display

namespace Host
open Display

namespace CommandLine

theorem isDigit_of_mem_repr {value : Nat} {digit : Char} (member : digit ∈ value.repr.toList) :
    digit.isDigit = true := by
  rw [Nat.toList_repr] at member
  exact Nat.isDigit_of_mem_toDigits (by decide) (by decide) member

theorem repr_ne_cons {value : Nat} {sign : Char} (noDigit : sign.isDigit = false)
    (rest : List Char) : value.repr.toList ≠ sign :: rest := by
  intro signed
  have first : sign ∈ value.repr.toList := signed ▸ List.mem_cons_self
  have digit := isDigit_of_mem_repr first
  exact absurd (noDigit.symm.trans digit) Bool.false_ne_true

private theorem number?_repr {value : Nat} (fits : value < 4294967296) :
    number? value.repr = some (UInt32.ofNat value) := by
  have read : value.repr.toList.foldl
      (fun value digit => 10 * value + (digit.toNat - 48)) 0 = value := by
    rw [Nat.toList_repr]
    exact Nat.ofDigitChars_toDigits (by decide) (by decide)
  have decimal : value.repr.toList.all Char.isDigit = true :=
    List.all_eq_true.mpr fun digit => isDigit_of_mem_repr
  have present : value.repr.toList.isEmpty = false := by
    rw [Nat.toList_repr]
    exact List.isEmpty_eq_false_iff.mpr Nat.toDigits_ne_nil
  unfold number?
  split
  next negative digits sign =>
    obtain ⟨rfl, rfl⟩ : negative = false ∧ digits = value.repr.toList := by
      split at sign
      · next minus => exact absurd minus (repr_ne_cons (by decide) _)
      · next plus => exact absurd plus (repr_ne_cons (by decide) _)
      · cases sign
        exact ⟨rfl, rfl⟩
    simp only [present, decimal, read, Bool.not_true, Bool.or_self, Bool.false_eq_true, if_false,
      false_implies, and_true]
    rw [if_pos fits]

theorem Progress.give_repr {progress : Progress} {option : NumberOption}
    (waiting : progress.pending = some (.number option none)) (early : progress.trailing = false)
    (value : Nat) : progress.give value.repr =
      .ok { progress with pending := some (.number option (some value.repr)) } := by
  have minus : ('-' : Char).isDigit = false := by decide
  unfold give
  rw [early, if_neg Bool.false_ne_true]
  split
  · next dashes => exact absurd dashes (repr_ne_cons minus _)
  · next dashes => exact absurd dashes (repr_ne_cons minus _)
  · next dash => exact absurd dash (repr_ne_cons minus _)
  · simp only [giveText, waiting, early, Bool.false_eq_true, if_false]

def scaled (scale : UInt32) : List String := ["rom", "--scale", scale.toNat.repr]

theorem parse_scaled (scale : UInt32) :
    parse (scaled scale) =
      .ok { rom := "rom", fps := Config.defaultFrameRate, scale, strict := false } := by
  have value : number? scale.toNat.repr = some scale := by
    rw [number?_repr scale.toNat_lt, UInt32.ofNat_toNat]
  let named : Progress := { pending := some (.path "rom"), hasPath := true }
  let asked : Progress :=
    { path := some "rom", pending := some (.number .scale none), hasPath := true }
  let answered : Progress := { asked with pending := some (.number .scale scale.toNat.repr) }
  have path : Progress.give {} "rom" = .ok named := rfl
  have option : named.give "--scale" = .ok asked := rfl
  have number : asked.give scale.toNat.repr = .ok answered := Progress.give_repr rfl rfl _
  have read : (scaled scale).foldlM Progress.give {} = .ok answered := by
    calc
      (scaled scale).foldlM Progress.give {} =
          ["--scale", scale.toNat.repr].foldlM Progress.give named := by
        rw [scaled, List.foldlM_cons, path]
        rfl
      _ = [scale.toNat.repr].foldlM Progress.give asked := by
        rw [List.foldlM_cons, option]
        rfl
      _ = .ok answered := by
        rw [List.foldlM_cons, number]
        rfl
  have settled : answered.settle =
      .ok { path := some "rom", scale := some scale, hasPath := true } := by
    simp only [answered, Progress.settle, value]
    rfl
  simp only [parse, read, settled, bind, Except.bind]
  rfl

end CommandLine

section
variable {library : Library} {scale : UInt32} {window : Window}

theorem openWindow_of_exact (video : library.video = .ok ()) (exact : window.Exact scale) :
    (∀ reason, library.build windowTitle window = .error reason →
      openWindow library scale = .error (.failed (.display ⟨reason⟩))) ∧
    (library.build windowTitle window = .ok () → library.canvas window = .ok () →
      openWindow library scale = .ok window) := by
  have asked := Window.ofScale?_eq_some_iff.mpr exact
  constructor
  · intro reason refused
    simp only [openWindow, video, asked, refused]
    rfl
  · intro built drawable
    simp only [openWindow, video, asked, built, drawable]
    rfl

theorem openWindow_of_overflow (video : library.video = .ok ()) (large : 2 ^ 26 ≤ scale.toNat) :
    openWindow library scale = .error (.panicked productPanic) := by
  have overflow := Window.ofScale?_eq_none_iff.mpr large
  simp only [openWindow, video, overflow]
  rfl

end

theorem Console.exists_atHand (config : Config) (random : RandomSource) :
    ∃ machine, (create config random).emulator = .atHand machine ∧ machine.Calm := by
  refine ⟨_, rfl, ?_⟩
  intro observer member
  rw [List.mem_singleton.mp member]
  exact calm_forwarder

theorem Console.exists_prepare {around : Surroundings} {options : LaunchOptions} {rom : List UInt8}
    (readable : around.read options.path = .ok rom) (fits : rom.length ≤ State.maxRomSize) :
    ∃ console, Console.prepare around options = .ok console := by
  obtain ⟨machine, created, -⟩ := Console.exists_atHand options.config around.random
  have loaded : ((Console.create options.config around.random).emulator.load rom).outcome =
      .done := by
    rw [created, Emulator.load, Emulator.withMachine_atHand, machine.load_of_length_le fits]
  simp only [Console.prepare, readable, loaded]
  exact ⟨_, rfl⟩

/-- Takes every scale of 32 bits, written out as a number behind a path. -/
def ReadsScales (parse : ArgumentParser) : Prop :=
  ∀ scale : UInt32, ∃ parsed, parse ["rom", "--scale", scale.toNat.repr] = .ok parsed ∧
    parsed.rom = "rom" ∧ parsed.scale = scale

theorem CommandLine.readsScales : ReadsScales parse :=
  fun scale => ⟨_, parse_scaled scale, rfl, rfl⟩

theorem comeUp_of_parsed {parse : ArgumentParser} {arguments : List String} {parsed : Arguments}
    (accepted : parse arguments = .ok parsed) (around : Surroundings) :
    comeUp parse around arguments = launch around parsed.launchOptions := by
  rw [comeUp, accepted]
  rfl

theorem launch_of_started {around : Surroundings} {options : LaunchOptions} {console : Console}
    (prepared : Console.prepare around options = .ok console)
    (started : around.library.start = .ok ()) :
    launch around options = (do
      let window ← openWindow around.library options.scale
      around.library.events.mapError fun reason => Exit.failed (.library reason)
      return (console, window)) := by
  rw [launch, prepared, started]
  rfl

section
variable {around : Surroundings} {options : LaunchOptions} {console : Console} {window : Window}

theorem launch_of_exact (prepared : Console.prepare around options = .ok console)
    (started : around.library.start = .ok ()) (video : around.library.video = .ok ())
    (exact : window.Exact options.scale) :
    (∀ reason, around.library.build windowTitle window = .error reason →
      launch around options = .error (.failed (.display ⟨reason⟩))) ∧
    (around.library.build windowTitle window = .ok () → around.library.canvas window = .ok () →
      around.library.events = .ok () → launch around options = .ok (console, window)) := by
  obtain ⟨refused, opened⟩ := openWindow_of_exact video exact
  constructor
  · intro reason against
    rw [launch_of_started prepared started, refused reason against]
    rfl
  · intro built drawable events
    rw [launch_of_started prepared started, opened built drawable, events]
    rfl

theorem launch_of_overflow (prepared : Console.prepare around options = .ok console)
    (started : around.library.start = .ok ()) (video : around.library.video = .ok ())
    (large : 2 ^ 26 ≤ options.scale.toNat) :
    launch around options = .error (.panicked productPanic) := by
  rw [launch_of_started prepared started, openWindow_of_overflow video large]
  rfl

end

/-- A scale comes through unchanged, whoever parses it and whatever the graphics library is. Below
2 ^ 26 the window that the library is asked for has the sides that it should have. From there on
the program panics before it asks for a window, and all these scales are accepted. -/
theorem windows_are_exact_below_overflow {parse : ArgumentParser} (reads : ReadsScales parse)
    (around : Surroundings) :
    (∀ arguments parsed console, parse arguments = .ok parsed →
      Console.prepare around parsed.launchOptions = .ok console →
      around.library.start = .ok () → around.library.video = .ok () →
      (parsed.scale.toNat < 2 ^ 26 → ∃ window : Window, window.Exact parsed.scale ∧
        (∀ reason, around.library.build windowTitle window = .error reason →
          comeUp parse around arguments = .error (.failed (.display ⟨reason⟩))) ∧
        (around.library.build windowTitle window = .ok () →
          around.library.canvas window = .ok () → around.library.events = .ok () →
          comeUp parse around arguments = .ok (console, window))) ∧
      (2 ^ 26 ≤ parsed.scale.toNat → (∀ window : Window, ¬ window.Exact parsed.scale) ∧
        comeUp parse around arguments = .error (.panicked productPanic))) ∧
    ∀ (scale : UInt32) rom, around.read "rom" = .ok rom → rom.length ≤ State.maxRomSize →
      around.library.start = .ok () → around.library.video = .ok () → 2 ^ 26 ≤ scale.toNat →
      ∃ arguments parsed, parse arguments = .ok parsed ∧ parsed.scale = scale ∧
        comeUp parse around arguments = .error (.panicked productPanic) := by
  refine ⟨?_, ?_⟩
  · intro arguments parsed console accepted prepared started video
    rw [comeUp_of_parsed accepted]
    refine ⟨?_, ?_⟩
    · intro small
      obtain ⟨window, exact⟩ := Window.exists_exact_iff.mpr small
      exact ⟨window, exact, launch_of_exact prepared started video exact⟩
    · intro large
      refine ⟨?_, launch_of_overflow prepared started video large⟩
      exact not_exists.mp (mt Window.exists_exact_iff.mp (Nat.not_lt.mpr large))
  · intro scale rom readable fits started video large
    obtain ⟨parsed, accepted, path, rfl⟩ := reads scale
    have present : around.read parsed.launchOptions.path = .ok rom := by
      rw [← readable, ← path]
      rfl
    obtain ⟨console, prepared⟩ := Console.exists_prepare present fits
    refine ⟨_, parsed, accepted, rfl, ?_⟩
    rw [comeUp_of_parsed accepted]
    exact launch_of_overflow prepared started video large

/-- The scale decides: the window of an ordinary one opens where there is a screen, the largest
one that has a window is turned down by the library, and the next one ends in the panic. -/
theorem windows_by_scale :
    let screen : Library :=
      { start := .ok (), video := .ok (), build := fun _ _ => .ok (), canvas := fun _ => .ok (),
        events := .ok () }
    let around (library : Library) : Surroundings :=
      { read := fun _ => .ok [0x12, 0x00], random := .ofArray #[], library, noThread := none }
    (∃ console, comeUp CommandLine.parse (around screen) (CommandLine.scaled 10) =
      .ok (console, ⟨640, 320⟩)) ∧
    comeUp CommandLine.parse (around .dummy) (CommandLine.scaled 67108863) =
      .error (.failed (.display ⟨"Window width (4294967232) is too high."⟩)) ∧
    ∃ arguments parsed, CommandLine.parse arguments = .ok parsed ∧ parsed.scale = 67108864 ∧
      comeUp CommandLine.parse (around .dummy) arguments = .error (.panicked productPanic) := by
  intro screen around
  have parsed := CommandLine.parse_scaled
  have prepared (library : Library) (options : LaunchOptions) :
      ∃ console, Console.prepare (around library) options = .ok console :=
    Console.exists_prepare rfl (by decide)
  refine ⟨?_, ?_, ?_⟩
  · obtain ⟨console, loaded⟩ := prepared screen _
    obtain ⟨exact, -⟩ := windows_are_exact_below_overflow CommandLine.readsScales (around screen)
    obtain ⟨window, sides, -, opens⟩ := (exact _ _ console (parsed 10) loaded rfl rfl).1 (by decide)
    have same : window = ⟨640, 320⟩ :=
      Option.some.inj ((Window.ofScale?_eq_some_iff.mpr sides).symm.trans (by decide))
    exact ⟨console, same ▸ opens rfl rfl rfl⟩
  · obtain ⟨console, loaded⟩ := prepared .dummy _
    obtain ⟨exact, -⟩ := windows_are_exact_below_overflow CommandLine.readsScales (around .dummy)
    obtain ⟨window, sides, refused, -⟩ :=
      (exact _ _ console (parsed 67108863) loaded rfl rfl).1 (by decide)
    have same : window = ⟨4294967232, 2147483616⟩ :=
      Option.some.inj ((Window.ofScale?_eq_some_iff.mpr sides).symm.trans (by decide))
    subst same
    exact refused _ (by rfl)
  · obtain ⟨-, panics⟩ := windows_are_exact_below_overflow CommandLine.readsScales (around .dummy)
    exact panics 67108864 [0x12, 0x00] rfl (by decide) rfl rfl (by decide)

/-- A scale of more than a hundred million is accepted, and no window has sides for it. -/
theorem large_scale_panics :
    let arguments := ["rom", "--scale", "134217729"]
    let around : Surroundings :=
      { read := fun _ => .ok [0x12, 0x00], random := .ofArray #[], library := .dummy,
        noThread := none }
    ∃ parsed, CommandLine.parse arguments = .ok parsed ∧ parsed.scale = 134217729 ∧
      (∀ window : Window, ¬ window.Exact parsed.scale) ∧
      Window.ofScale? parsed.launchOptions.scale = none ∧
      comeUp CommandLine.parse around arguments = .error (.panicked productPanic) ∧
      (Exit.panicked productPanic).code = 101 := by
  intro arguments around
  have text : (134217729 : UInt32).toNat.repr = "134217729" := by decide +kernel
  have parsed := CommandLine.parse_scaled 134217729
  rw [CommandLine.scaled, text] at parsed
  obtain ⟨console, prepared⟩ : ∃ console, Console.prepare around _ = .ok console :=
    Console.exists_prepare rfl (by decide)
  refine ⟨_, parsed, rfl, ?_, by decide, ?_, rfl⟩
  · exact not_exists.mp (mt Window.exists_exact_iff.mp (by decide))
  · rw [comeUp_of_parsed parsed]
    exact launch_of_overflow prepared rfl rfl (by decide)

end Host
end ChipEight
