import ChipEight.Keypad

/-! The computer's keyboard as a keypad. The keypad's square is laid over the four
leftmost columns of letters and digits:

    1 2 3 C      1 2 3 4
    4 5 6 D      Q W E R
    7 8 9 E      A S D F
    A 0 B F      Z X C V
-/
namespace ChipEight.Host

abbrev Keycode := String

def layout : Vector Keycode 16 := #v[
  "X", "Num1", "Num2", "Num3",
  "Q", "W", "E", "A",
  "S", "D", "Z", "C",
  "Num4", "R", "F", "V"]

def keyOf? (keycode : Keycode) : Option (Fin 16) :=
  (List.finRange 16).find? fun key => layout.get key == keycode

structure KeyEvent where
  keycode : Keycode
  pressed : Bool
deriving DecidableEq, Repr

/-- The keys held after an event. A keyboard key without a place on the keypad holds nothing. -/
def KeyEvent.apply (event : KeyEvent) (keys : Keys) : Keys :=
  match keyOf? event.keycode with
  | some key => keys.set key.val event.pressed (digit_lt key)
  | none => keys

end ChipEight.Host
