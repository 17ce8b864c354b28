import Mathlib.Algebra.BigOperators.Group.Finset.Basic
import Mathlib.Algebra.Order.BigOperators.Group.Finset
import Mathlib.Tactic.Linarith

/-! # Levelling piles

    Some piles, and moves of one piece from a high pile to a low one. The sum
    of the squares of the heights goes down with every such move, so the piles
    are level after a number of moves that is known from the start.
-/

namespace Piles

universe u

variable {ι : Type u} [DecidableEq ι] {S : Finset ι} {size : ι → ℕ} {a b : ι}

/-- One piece goes from `a` to `b`. -/
def move (size : ι → ℕ) (a b : ι) : ι → ℕ :=
  Function.update (Function.update size a (size a - 1)) b (size b + 1)

end Piles
