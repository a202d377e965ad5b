namespace PatronFees

/-!
# Powers

Decimals are scaled by powers of ten; the ranges of whole numbers and the
significands of floating-point quantities are powers of two.
-/

def tenTo (exponent : Nat) : Nat :=
  Nat.pow 10 exponent

def twoTo (exponent : Nat) : Nat :=
  Nat.pow 2 exponent

theorem tenTo_pos (exponent : Nat) :
    0 < tenTo exponent :=
  Nat.pow_pos (by decide)

/-- Powers of ten multiply as their exponents add. -/
theorem tenTo_add (first second : Nat) :
    tenTo (first + second) = tenTo first * tenTo second :=
  Nat.pow_add 10 first second

theorem tenTo_le_tenTo
    {lesser greater : Nat}
    (ordered : lesser ≤ greater) :
    tenTo lesser ≤ tenTo greater :=
  Nat.pow_le_pow_right (by decide) ordered

end PatronFees
