import Mathlib.Algebra.BigOperators.Pi
import Mathlib.Algebra.Order.BigOperators.Group.Finset
import Mathlib.Algebra.Order.Ring.Int

/-! # Tallies of what is held

    A tally says of each thing how often it is held. What optional handles
    in numbered entries hold, and what a list holds, are tallies; taking and
    giving back adds to a tally and takes from it, so that a sequence of calls
    is balanced if the tallies of its steps add up to nothing.
-/

namespace Tally

universe u

variable {ι : Type u} [DecidableEq ι]

/-- What a handle holds: one of its thing, or nothing. -/
def entry : Option ι → ι → ℤ
  | none => 0
  | some i => Pi.single i 1

@[simp] theorem entry_none : entry (none : Option ι) = 0 := rfl

theorem entry_self (i : ι) : entry (some i) i = 1 := Pi.single_eq_same i 1

theorem entry_ne {i j : ι} (h : j ≠ i) : entry (some i) j = 0 := Pi.single_eq_of_ne h 1

/-- What the first `n` entries hold together. -/
def held (entries : ℕ → Option ι) (n : ℕ) : ι → ℤ := ∑ k ∈ Finset.range n, entry (entries k)

@[simp] theorem held_zero (entries : ℕ → Option ι) : held entries 0 = 0 := rfl

theorem held_succ (entries : ℕ → Option ι) (n : ℕ) :
    held entries (n + 1) = held entries n + entry (entries n) :=
  Finset.sum_range_succ _ n

/-- The first entry apart. -/
theorem held_succ' (entries : ℕ → Option ι) (n : ℕ) :
    held entries (n + 1) = held (fun k => entries (k + 1)) n + entry (entries 0) :=
  Finset.sum_range_succ' _ n

theorem held_congr {entries entries' : ℕ → Option ι} {n : ℕ}
    (h : ∀ k, k < n → entries k = entries' k) : held entries n = held entries' n := by
  apply Finset.sum_congr rfl
  intro k hk
  rw [h k (Finset.mem_range.mp hk)]

/-- What a list holds. -/
def listed (l : List ι) : ι → ℤ := fun i => l.count i

theorem listed_cons (i : ι) (l : List ι) : listed (i :: l) = listed l + entry (some i) := by
  funext j
  rw [Pi.add_apply]
  unfold listed
  rw [List.count_cons]
  by_cases hij : j = i
  · rw [hij, entry_self]
    simp
  · rw [entry_ne hij]
    simp [Ne.symm hij]

end Tally
