import ChipEight.Emulator
import ChipEight.Host.Forwarder
import ChipEight.Host.Keyboard

namespace ChipEight.Host

structure Console where
  emulator : Emulator
  held : Keys

namespace Console

def windowPosition : Nat := 0

def create (config : Config) (random : RandomSource) : Console where
  emulator :=
    (Emulator.create config (Keypad.constant Keys.released) random).subscribe forwarder |>.emulator
  held := Keys.released

def handle (console : Console) (event : KeyEvent) : Console :=
  let held := event.apply console.held
  let share (keypad : Keypad) : Keypad := { keypad with snapshot := fun _ => held }
  { emulator := console.emulator.changeKeypad share, held }

end Console
end ChipEight.Host
