/-!
# Words

Integers of a fixed number of bits. `Word.count` is how many of them there are: the unsigned ones
start at zero, and half of the signed ones are negative.
-/

namespace Overseer.Word

/-- The number of words of some number of bits. -/
def count (bits : Nat) : Nat := 1 <<< bits

theorem count_succ (bits : Nat) : count (bits + 1) = 2 * count bits := by
  simp only [count, Nat.one_shiftLeft, Nat.pow_succ]
  exact Nat.mul_comm _ _

/-- Is `n` an unsigned word? -/
def isUnsigned (bits : Nat) (n : Int) : Bool := 0 ≤ n && n < count bits

theorem isUnsigned_iff {bits : Nat} {n : Int} :
    isUnsigned bits n = true ↔ 0 ≤ n ∧ n < count bits := by
  simp [isUnsigned]

/-- Is `n` a signed word of one more bit? -/
def isSigned (bits : Nat) (n : Int) : Bool := -(count bits : Int) ≤ n && n < count bits

theorem isSigned_iff {bits : Nat} {n : Int} :
    isSigned bits n = true ↔ -(count bits : Int) ≤ n ∧ n < count bits := by
  simp [isSigned]

end Overseer.Word
