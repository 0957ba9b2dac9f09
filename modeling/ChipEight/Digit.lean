namespace ChipEight

/-- Numerals of `Fin 16` ask for this, with zero taken from the literal. -/
instance sixteen_neZero : @NeZero Nat Zero.ofOfNat0 16 := ⟨by decide⟩

theorem digit_lt (digit : Fin 16) : digit.val < 16 := digit.isLt

end ChipEight
