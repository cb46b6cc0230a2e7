import Mathlib.Data.BitVec

namespace CheckedWord

variable {w : Nat}

def add (a b : BitVec w) : Option (BitVec w) :=
  if a.toNat + b.toNat < 2 ^ w then some (a + b) else none

def sub (a b : BitVec w) : Option (BitVec w) := if b.toNat ≤ a.toNat then some (a - b) else none

def mul (a b : BitVec w) : Option (BitVec w) :=
  if a.toNat * b.toNat < 2 ^ w then some (a * b) else none

def div (a b : BitVec w) : Option (BitVec w) := if b = 0#w then none else some (a / b)

variable {a b : BitVec w}

theorem add_of_lt (fits : a.toNat + b.toNat < 2 ^ w) : add a b = some (a + b) := if_pos fits

theorem sub_of_le (ordered : b.toNat ≤ a.toNat) : sub a b = some (a - b) := if_pos ordered

theorem div_of_ne_zero (nonzero : b ≠ 0#w) : div a b = some (a / b) := if_neg nonzero

end CheckedWord
