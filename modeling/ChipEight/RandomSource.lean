namespace ChipEight

structure RandomSource where
  byte : Nat → UInt8
  taken : Nat

namespace RandomSource

def current (source : RandomSource) : UInt8 := source.byte source.taken

def advance (source : RandomSource) : RandomSource := { source with taken := source.taken + 1 }

def ofArray (bytes : Array UInt8) : RandomSource := ⟨fun index => bytes.getD index 0, 0⟩

end RandomSource
end ChipEight
