/-
This file names the powers that bound and scale numbers.
-/

namespace EntityFilter

def twoTo (exponent : Nat) : Nat :=
  Nat.pow 2 exponent

def tenTo (exponent : Nat) : Nat :=
  Nat.pow 10 exponent

end EntityFilter
