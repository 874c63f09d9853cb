/-
Powers of two and of ten, which a number's text and its nearest double are computed with.
-/

namespace ContractGraph

/-- two to the power `n` -/
def twoTo (n : Nat) : Nat := Nat.pow 2 n

/-- ten to the power `n` -/
def tenTo (n : Nat) : Nat := Nat.pow 10 n

end ContractGraph
