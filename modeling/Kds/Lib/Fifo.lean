import Mathlib.Data.List.Basic
import Mathlib.Logic.Function.Basic

/-! # Queues in a circular array

    A queue in an array of `n` entries with a read index and a write index,
    both taken modulo `n`. Equal indices mean an empty queue, so one entry is
    never used and a queue holds fewer than `n` elements. `Holds` says which
    elements are in the array; `push` and `pop` are the only two changes.
-/

namespace Fifo

variable {α : Type} {ring : Nat → Option α} {n c r : Nat} {x : α} {xs : List α}

/-- The queue `xs` from index `c` on, up to index `r`. -/
structure Holds (ring : Nat → Option α) (n c r : Nat) (xs : List α) : Prop where
  cursor_lt : c < n
  reserved_eq : r = (c + xs.length) % n
  length_lt : xs.length < n
  entry : ∀ i (h : i < xs.length), ring ((c + i) % n) = some xs[i]

/-- A sum of two indices, reduced. -/
theorem mod_cases {n c i : Nat} (hc : c < n) (hi : i < n) :
    (c + i < n ∧ (c + i) % n = c + i) ∨ (n ≤ c + i ∧ (c + i) % n = c + i - n) := by
  by_cases h : c + i < n
  · exact Or.inl ⟨h, Nat.mod_eq_of_lt h⟩
  · have hge : n ≤ c + i := Nat.le_of_not_lt h
    exact Or.inr ⟨hge, by rw [Nat.mod_eq_sub_mod hge, Nat.mod_eq_of_lt (by omega)]⟩

theorem Holds.reserved_lt (h : Holds ring n c r xs) : r < n := by
  rw [h.reserved_eq]
  exact Nat.mod_lt _ (Nat.lt_of_le_of_lt (Nat.zero_le _) h.cursor_lt)

theorem holds_nil (h : c < n) : Holds ring n c c ([] : List α) where
  cursor_lt := h
  reserved_eq := (Nat.mod_eq_of_lt h).symm
  length_lt := Nat.lt_of_le_of_lt (Nat.zero_le _) h
  entry := fun i hi => absurd hi (Nat.not_lt_zero i)

/-- The number of elements, read off the indices. -/
theorem Holds.count (h : Holds ring n c r xs) : (r + n - c) % n = xs.length := by
  have hc := h.cursor_lt
  have hlen := h.length_lt
  rcases mod_cases hc hlen with ⟨hlt, hmod⟩ | ⟨hge, hmod⟩
  · rw [h.reserved_eq, hmod, show c + xs.length + n - c = xs.length + n by omega,
      Nat.add_mod_right, Nat.mod_eq_of_lt hlen]
  · rw [h.reserved_eq, hmod, show c + xs.length - n + n - c = xs.length by omega,
      Nat.mod_eq_of_lt hlen]

/-- The write index is one behind the read index exactly when one entry is left. -/
theorem Holds.full_iff (h : Holds ring n c r xs) : (r + 1) % n = c ↔ xs.length + 1 = n := by
  have hc := h.cursor_lt
  have hlen := h.length_lt
  have hr := h.reserved_lt
  have hreq := h.reserved_eq
  -- both sums wrap at most once
  rcases mod_cases hc hlen with ⟨hlt, hmod⟩ | ⟨hge, hmod⟩ <;> rw [hmod] at hreq
  · by_cases hend : r + 1 < n
    · rw [Nat.mod_eq_of_lt hend]
      omega
    · rw [show r + 1 = n by omega, Nat.mod_self]
      omega
  · rw [Nat.mod_eq_of_lt (show r + 1 < n by omega)]
    omega

/-- An element goes behind the others. -/
theorem Holds.push (h : Holds ring n c r xs) (hroom : xs.length + 1 < n) (x : α) :
    Holds (Function.update ring r (some x)) n c ((r + 1) % n) (xs ++ [x]) := by
  have hc := h.cursor_lt
  have hlen := h.length_lt
  refine ⟨hc, ?_, by simpa using hroom, ?_⟩
  · rw [h.reserved_eq, Nat.mod_add_mod, List.length_append, List.length_singleton, Nat.add_assoc]
  · intro i hi
    rw [List.length_append, List.length_singleton] at hi
    by_cases hlast : i = xs.length
    · subst hlast
      rw [← h.reserved_eq, Function.update_self]
      simp
    · -- an old entry has another index
      have hi' : i < xs.length := by omega
      have hne : (c + i) % n ≠ r := by
        rw [h.reserved_eq]
        rcases mod_cases hc hlen with ⟨_, h₁⟩ | ⟨_, h₁⟩ <;>
          rcases mod_cases hc (show i < n by omega) with ⟨_, h₂⟩ | ⟨_, h₂⟩ <;> omega
      rw [Function.update_of_ne hne, h.entry i hi', List.getElem_append_left hi']

/-- The first element comes out, and its entry is cleared. -/
theorem Holds.pop (h : Holds ring n c r (x :: xs)) :
    ring c = some x ∧ Holds (Function.update ring c none) n ((c + 1) % n) r xs := by
  have hc := h.cursor_lt
  have hlen := h.length_lt
  rw [List.length_cons] at hlen
  constructor
  · have hfirst := h.entry 0 (by simp)
    rwa [Nat.add_zero, Nat.mod_eq_of_lt hc] at hfirst
  · refine ⟨Nat.mod_lt _ (by omega), ?_, by omega, ?_⟩
    · rw [h.reserved_eq, List.length_cons, Nat.mod_add_mod, Nat.add_assoc, Nat.add_comm 1]
    · intro i hi
      have hentry := h.entry (i + 1) (by rw [List.length_cons]; omega)
      have hindex : ((c + 1) % n + i) % n = (c + (i + 1)) % n := by
        rw [Nat.mod_add_mod, Nat.add_assoc, Nat.add_comm 1]
      have hne : (c + (i + 1)) % n ≠ c := by
        rcases mod_cases hc (show i + 1 < n by omega) with ⟨_, h₂⟩ | ⟨_, h₂⟩ <;> omega
      rw [hindex, Function.update_of_ne hne, hentry, List.getElem_cons_succ]

end Fifo
