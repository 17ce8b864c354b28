import Mathlib.Logic.Basic

/-! # Postconditions of computations that can fault

    `Returns x Q`: if the computation `x` returns, what it returns has `Q`.
    A fault has every postcondition, so the rules follow a `do` block from
    top to bottom and say nothing about where it may stop.
-/

namespace Fallible

universe u v w

variable {ε : Type u} {α : Type v} {β : Type w}

/-- If `x` returns, then something with `Q`. -/
def Returns (x : Except ε α) (Q : α → Prop) : Prop := ∀ a, x = .ok a → Q a

theorem Returns.ok {Q : α → Prop} {a : α} (h : Q a) : Returns (.ok a : Except ε α) Q := by
  intro b hb
  rw [← Except.ok.inj hb]
  exact h

theorem Returns.error {Q : α → Prop} (e : ε) : Returns (.error e : Except ε α) Q := by
  intro a ha
  simp at ha

theorem Returns.mono {x : Except ε α} {Q R : α → Prop} (h : Returns x Q) (hQR : ∀ a, Q a → R a) :
    Returns x R :=
  fun a ha => hQR a (h a ha)

/-- Every computation returns what it returns. -/
theorem Returns.self (x : Except ε α) : Returns x (fun a => x = .ok a) := fun _ h => h

theorem Returns.ite {c : Prop} [Decidable c] {x y : Except ε α} {Q : α → Prop}
    (hx : c → Returns x Q) (hy : ¬ c → Returns y Q) : Returns (if c then x else y) Q := by
  by_cases hc : c
  · rw [if_pos hc]
    exact hx hc
  · rw [if_neg hc]
    exact hy hc

/-- **Sequencing**. -/
theorem Returns.bind {ε : Type u} {α β : Type v} {x : Except ε α} {f : α → Except ε β}
    {Q : α → Prop} {R : β → Prop} (hx : Returns x Q) (hf : ∀ a, Q a → Returns (f a) R) :
    Returns (x >>= f) R := by
  intro b hb
  cases hxa : x with
  | error e =>
    rw [hxa] at hb
    simp [Bind.bind, Except.bind] at hb
  | ok a =>
    rw [hxa] at hb
    exact hf a (hx a hxa) b hb

/-- What returns was computed by both parts. -/
theorem exists_of_bind_ok {ε : Type u} {α β : Type v} {x : Except ε α} {f : α → Except ε β} {b : β}
    (h : x >>= f = .ok b) : ∃ a, x = .ok a ∧ f a = .ok b := by
  cases x with
  | error e => simp [Bind.bind, Except.bind] at h
  | ok a => exact ⟨a, rfl, h⟩

end Fallible
