import Mathlib.Data.List.Flatten
import Mathlib.Data.List.Infix

/-! # Lists behind a next function

    A list that is stored as a start and a `next` for each element, with `0`
    for none. Two such lists are compared through their `next` functions: one
    that has forgotten some links is cut short, and one that has gained some
    is longer at its end.
-/

namespace Chain

variable {α : Type*} [Zero α] {next next' : α → α} {a : α} {l l' : List α}

/-- Each element leads to the one behind it, and the last one to none. -/
def Chained (next : α → α) (l : List α) : Prop :=
  ∀ pre a post, l = pre ++ a :: post → next a = post.headD 0

theorem Chained.head (h : Chained next (a :: l)) : next a = l.headD 0 := h [] a l rfl

theorem Chained.tail (h : Chained next (a :: l)) : Chained next l := by
  intro pre b post hl
  apply h (a :: pre) b post
  rw [hl]
  rfl

theorem chained_nil : Chained next ([] : List α) := by
  intro pre b post hl
  have hlen := congrArg List.length hl
  simp at hlen

theorem Chained.cons (h : Chained next l) (hhead : next a = l.headD 0) : Chained next (a :: l) := by
  intro pre b post hl
  cases pre with
  | nil =>
    obtain ⟨rfl, rfl⟩ := List.cons.inj hl
    exact hhead
  | cons c pre =>
    obtain ⟨-, rfl⟩ := List.cons.inj hl
    exact h pre b post rfl

/-- **Fewer links**: a front of the list is left. -/
theorem Chained.cut (h : Chained next l) (hnext : ∀ a ∈ l, next' a = 0 ∨ next' a = next a) :
    ∃ front, front <+: l ∧ front.head? = l.head? ∧ Chained next' front := by
  induction l with
  | nil => exact ⟨[], List.prefix_refl _, rfl, chained_nil⟩
  | cons a l ih =>
    obtain ⟨front, hfront, hhead, hchain⟩ := ih h.tail fun b hb => hnext b (List.mem_cons_of_mem _ hb)
    rcases hnext a List.mem_cons_self with hzero | hsame
    · exact ⟨[a], by simp, rfl, chained_nil.cons hzero⟩
    · refine ⟨a :: front, (List.prefix_cons_inj a).mpr hfront, rfl, hchain.cons ?_⟩
      rw [hsame, h.head]
      cases l with
      | nil =>
        rw [List.prefix_nil.mp hfront]
      | cons b l =>
        cases front with
        | nil => cases hhead
        | cons c front => exact (Option.some.inj hhead).symm

end Chain
