import Mathlib.Algebra.BigOperators.Group.Finset.Basic
import Mathlib.Algebra.Group.Action.Defs
import Mathlib.Algebra.Order.BigOperators.Group.Finset
import Mathlib.Data.List.MinMax

/-! # Ageing of priorities

    Tasks with integer priorities compete for one place. At every tick the
    task that is ahead of all others runs and keeps its priority, and each of
    the others gains one. Of two tasks with the same priority the one that
    stands earlier in the list is ahead.

    The priorities of all tasks stay together, a task that waits comes nearer
    to the front, and nobody can win against it for ever.
-/

namespace Ageing

universe u

variable {α : Type u} [DecidableEq α] {tasks : List α}

/-- `x` runs before `y` does. -/
def Ahead (tasks : List α) (prio : α → Int) (x y : α) : Prop :=
  prio y < prio x ∨ prio x = prio y ∧ tasks.idxOf x < tasks.idxOf y

instance (tasks : List α) (prio : α → Int) (x y : α) : Decidable (Ahead tasks prio x y) :=
  inferInstanceAs (Decidable (_ ∨ _))

/-- One tick, which `winner` runs in. -/
structure Tick (tasks : List α) (prio : α → Int) (winner : α) (prio' : α → Int) : Prop where
  mem : winner ∈ tasks
  ahead : ∀ x ∈ tasks, x ≠ winner → Ahead tasks prio winner x
  keeps : prio' winner = prio winner
  gains : ∀ x ∈ tasks, x ≠ winner → prio' x = prio x + 1

/-- Ticks one after the other, and who ran in them. -/
inductive Ticks (tasks : List α) : (α → Int) → List α → (α → Int) → Prop where
  | nil (prio : α → Int) : Ticks tasks prio [] prio
  | cons {prio prio₁ prio' : α → Int} {winner : α} {winners : List α} :
      Tick tasks prio winner prio₁ → Ticks tasks prio₁ winners prio' →
      Ticks tasks prio (winner :: winners) prio'

variable {prio prio' : α → Int} {winner x y : α} {winners : List α}

/-! ### One tick -/

theorem Tick.le_winner (h : Tick tasks prio winner prio') (hx : x ∈ tasks) :
    prio x ≤ prio winner := by
  by_cases hxw : x = winner
  · rw [hxw]
  · rcases h.ahead x hx hxw with hlt | ⟨heq, -⟩
    · exact Int.le_of_lt hlt
    · exact Int.le_of_eq heq.symm

/-- Two priorities do not come further apart than they were, or than one. -/
theorem Tick.apart {D : Int} (h : Tick tasks prio winner prio') (hone : 1 ≤ D)
    (hD : ∀ x ∈ tasks, ∀ y ∈ tasks, prio x - prio y ≤ D) :
    ∀ x ∈ tasks, ∀ y ∈ tasks, prio' x - prio' y ≤ D := by
  intro x hx y hy
  have hle := hD x hx y hy
  by_cases hxw : x = winner <;> by_cases hyw : y = winner
  · rw [hxw, hyw]
    omega
  · rw [hxw, h.keeps, h.gains y hy hyw]
    rw [hxw] at hle
    omega
  · -- the winner was at least as high as `x`
    have hmax := h.le_winner hx
    rw [hyw, h.keeps, h.gains x hx hxw]
    omega
  · rw [h.gains x hx hxw, h.gains y hy hyw]
    omega

/-- Nobody gets ahead of a task that waits. -/
theorem Tick.ahead_of_ahead (h : Tick tasks prio winner prio') (hx : x ∈ tasks)
    (hxw : x ≠ winner) (hy : y ∈ tasks) (hahead : Ahead tasks prio' y x) :
    Ahead tasks prio y x := by
  unfold Ahead at hahead ⊢
  rw [h.gains x hx hxw] at hahead
  by_cases hyw : y = winner
  · rw [hyw, h.keeps] at hahead
    rw [hyw]
    omega
  · rw [h.gains y hy hyw] at hahead
    omega

/-! ### Ticks one after the other -/

theorem Ticks.apart {D : Int} (h : Ticks tasks prio winners prio') (hone : 1 ≤ D)
    (hD : ∀ x ∈ tasks, ∀ y ∈ tasks, prio x - prio y ≤ D) :
    ∀ x ∈ tasks, ∀ y ∈ tasks, prio' x - prio' y ≤ D := by
  induction h with
  | nil => exact hD
  | cons htick _ ih => exact ih (htick.apart hone hD)

theorem Ticks.mem_of_mem (h : Ticks tasks prio winners prio') : ∀ x ∈ winners, x ∈ tasks := by
  induction h with
  | nil => simp
  | cons htick _ ih =>
    intro x hx
    rcases List.mem_cons.mp hx with rfl | hx
    · exact htick.mem
    · exact ih x hx

/-- **Ageing**: a task that waits gains one at every tick. -/
theorem Ticks.gained (h : Ticks tasks prio winners prio') (hx : x ∈ tasks) (hwait : x ∉ winners) :
    prio' x = prio x + winners.length := by
  induction h with
  | nil => simp
  | cons htick _ ih =>
    rw [List.mem_cons, not_or] at hwait
    rw [ih hwait.2, htick.gains x hx hwait.1, List.length_cons]
    omega

theorem Ticks.ahead_of_ahead (h : Ticks tasks prio winners prio') (hx : x ∈ tasks)
    (hwait : x ∉ winners) (hy : y ∈ tasks) (hahead : Ahead tasks prio' y x) :
    Ahead tasks prio y x := by
  induction h with
  | nil => exact hahead
  | cons htick _ ih =>
    rw [List.mem_cons, not_or] at hwait
    exact htick.ahead_of_ahead hx hwait.1 hy (ih hwait.2 hahead)

/-- A task wins against one that waits no more often than its lead allows. -/
theorem Ticks.wins_le (h : Ticks tasks prio winners prio') (hx : x ∈ tasks) (hwait : x ∉ winners)
    (y : α) : (winners.count y : Int) ≤ max 0 (prio y - prio x + 1) := by
  induction h with
  | nil => simp
  | @cons prio prio₁ prio' winner winners htick hrest ih =>
    rw [List.mem_cons, not_or] at hwait
    have hcount := ih hwait.2
    rw [htick.gains x hx hwait.1] at hcount
    by_cases hyw : y = winner
    · subst hyw
      rw [htick.keeps] at hcount
      have hle := htick.le_winner hx
      rw [List.count_cons_self]
      omega
    · rw [List.count_cons_of_ne (Ne.symm hyw)]
      by_cases hy : y ∈ tasks
      · rw [htick.gains y hy hyw] at hcount
        omega
      · have hnone : winners.count y = 0 :=
          List.count_eq_zero.mpr fun hmem => hy (hrest.mem_of_mem y hmem)
        omega

/-- A list is as long as its entries are many and often. -/
theorem length_le_of_count_le {xs ys : List α} {k : Nat} (hmem : ∀ x ∈ xs, x ∈ ys)
    (hcount : ∀ x ∈ xs, xs.count x ≤ k) : xs.length ≤ ys.length * k := by
  calc xs.length = ∑ x ∈ xs.toFinset, xs.count x := by
        simp
    _ ≤ xs.toFinset.card * k := by
        rw [← smul_eq_mul]
        exact Finset.sum_le_card_nsmul _ _ _ fun x hx => hcount x (List.mem_toFinset.mp hx)
    _ ≤ ys.toFinset.card * k := by
        apply Nat.mul_le_mul_right
        apply Finset.card_le_card
        intro x hx
        exact List.mem_toFinset.mpr (hmem x (List.mem_toFinset.mp hx))
    _ ≤ ys.length * k := Nat.mul_le_mul_right k ys.toFinset_card_le

/-- **No starvation**: a task waits no longer than the others' leads allow. -/
theorem Ticks.wait_le {D : Nat} (h : Ticks tasks prio winners prio') (hx : x ∈ tasks)
    (hwait : x ∉ winners) (hD : ∀ y ∈ tasks, prio y - prio x ≤ D) :
    winners.length ≤ (tasks.length - 1) * (D + 1) := by
  rw [← List.length_erase_of_mem hx]
  apply length_le_of_count_le
  · intro y hy
    have hne : y ≠ x := fun heq => hwait (heq ▸ hy)
    exact (List.mem_erase_of_ne hne).mpr (h.mem_of_mem y hy)
  · intro y hy
    have hwins := h.wins_le hx hwait y
    have hlead := hD y (h.mem_of_mem y hy)
    omega

/-! ### Spread and rank -/

/-- The tasks ahead of `x`. -/
def rank (tasks : List α) (prio : α → Int) (x : α) : Nat :=
  tasks.countP fun y => Ahead tasks prio y x

/-- A task that waits does not fall back. -/
theorem Ticks.rank_le (h : Ticks tasks prio winners prio') (hx : x ∈ tasks)
    (hwait : x ∉ winners) : rank tasks prio' x ≤ rank tasks prio x := by
  unfold rank
  apply List.countP_mono_left
  intro y hy hahead
  rw [decide_eq_true_iff] at hahead ⊢
  exact h.ahead_of_ahead hx hwait hy hahead

/-- The greatest less the smallest priority. -/
def spread (tasks : List α) (prio : α → Int) : Int :=
  (tasks.map prio).max?.getD 0 - (tasks.map prio).min?.getD 0

omit [DecidableEq α] in
theorem spread_le_iff (hne : tasks ≠ []) (D : Int) :
    spread tasks prio ≤ D ↔ ∀ x ∈ tasks, ∀ y ∈ tasks, prio x - prio y ≤ D := by
  have hmap : tasks.map prio ≠ [] := by simpa using hne
  obtain ⟨hi, hhi⟩ := Option.ne_none_iff_exists'.mp fun h => hmap (List.max?_eq_none_iff.mp h)
  obtain ⟨lo, hlo⟩ := Option.ne_none_iff_exists'.mp fun h => hmap (List.min?_eq_none_iff.mp h)
  obtain ⟨hhimem, hhile⟩ := List.max?_eq_some_iff.mp hhi
  obtain ⟨hlomem, hlole⟩ := List.min?_eq_some_iff.mp hlo
  unfold spread
  rw [hhi, hlo, Option.getD_some, Option.getD_some]
  constructor
  · intro hle x hx y hy
    have hxhi := hhile (prio x) (List.mem_map_of_mem hx)
    have hylo := hlole (prio y) (List.mem_map_of_mem hy)
    omega
  · intro hall
    obtain ⟨x, hx, rfl⟩ := List.mem_map.mp hhimem
    obtain ⟨y, hy, rfl⟩ := List.mem_map.mp hlomem
    exact hall x hx y hy

/-- **Spread**: it does not grow beyond what it was, or one. -/
theorem Ticks.spread_le (h : Ticks tasks prio winners prio') (hne : tasks ≠ []) :
    spread tasks prio' ≤ max (spread tasks prio) 1 := by
  rw [spread_le_iff hne]
  apply h.apart (Int.le_max_right _ _)
  rw [← spread_le_iff hne]
  exact Int.le_max_left _ _

end Ageing
