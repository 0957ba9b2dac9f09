namespace ChipEight.Text.Hex

def digits (value : Nat) : String :=
  String.ofList ((Nat.toDigits 16 value).map Char.toUpper)

def padded (width value : Nat) : String :=
  let text := digits value
  "".pushn '0' (width - text.length) ++ text

/-- Addresses and opcodes carry the base in front, outside the padding. -/
def numeral (width value : Nat) : String := "0x" ++ padded width value

end ChipEight.Text.Hex
