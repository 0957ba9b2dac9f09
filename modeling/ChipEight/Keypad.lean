import ChipEight.Digit

namespace ChipEight

abbrev Keys := Vector Bool 16

namespace Keys

def count : Nat := 16

def released : Keys := Vector.replicate 16 false

def ofMask (mask : UInt16) : Keys := Vector.ofFn fun key => mask.toNat.testBit key.val

def firstHeld? (keys : Keys) : Option (Fin 16) :=
  (List.finRange 16).find? fun key => keys.get key

end Keys

structure Keypad where
  snapshot : Nat → Keys
  /-- How many snapshots have been handed out. -/
  polls : Nat := 0
  /-- The snapshot handed out last; no key is held before the first poll. -/
  last : Keys := Keys.released

namespace Keypad

def current (keypad : Keypad) : Keys := keypad.snapshot keypad.polls

def polled (keypad : Keypad) : Keypad :=
  { keypad with polls := keypad.polls + 1, last := keypad.current }

@[simp] theorem last_polled (keypad : Keypad) : keypad.polled.last = keypad.current := rfl

def constant (keys : Keys) : Keypad where
  snapshot := fun _ => keys

@[simp] theorem current_constant (keys : Keys) : (constant keys).current = keys := rfl

/-- Hands out the listed snapshots in turn and then the last of them for ever. With an
empty list it is `held` that never changes. -/
def ofList (held : Keys) (snapshots : List Keys) : Keypad where
  snapshot := fun poll => snapshots[poll]?.getD (snapshots.getLast?.getD held)
  last := held

@[simp] theorem current_ofList_nil (held : Keys) : (ofList held []).current = held := rfl

@[simp] theorem current_ofList_cons (held first : Keys) (rest : List Keys) :
    (ofList held (first :: rest)).current = first := rfl

end Keypad
end ChipEight
