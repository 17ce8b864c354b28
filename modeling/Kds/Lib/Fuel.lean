import Mathlib.Logic.Basic

/-! # Loops with fuel

    A loop whose number of rounds is not known beforehand takes a bound on
    them, and gives nothing when the bound is used up. `Settles f r`: with
    enough fuel the loop `f` gives `r`, and with less it gives `r` or nothing.
-/

namespace Fuel

universe u v w

variable {α : Type u} {β : Type v} {ε : Type w}

/-- With enough fuel `f` gives `r`, and never anything else. -/
structure Settles (f : Nat → Option α) (r : α) : Prop where
  enough : ∃ k, ∀ fuel, k ≤ fuel → f fuel = some r
  only : ∀ fuel r', f fuel = some r' → r' = r

theorem Settles.const (r : α) : Settles (fun _ => some r) r where
  enough := ⟨0, fun _ _ => rfl⟩
  only := fun _ _ h => (Option.some.inj h).symm

/-- A round of the loop, after which it goes on as `f`. -/
theorem Settles.succ {f g : Nat → Option α} {r : α} (h : Settles f r) (hzero : g 0 = none)
    (hsucc : ∀ fuel, g (fuel + 1) = f fuel) : Settles g r := by
  obtain ⟨⟨k, hk⟩, honly⟩ := h
  constructor
  · refine ⟨k + 1, fun fuel hfuel => ?_⟩
    obtain ⟨fuel, rfl⟩ : ∃ fuel', fuel = fuel' + 1 := ⟨fuel - 1, by omega⟩
    rw [hsucc]
    exact hk fuel (by omega)
  · intro fuel r' hr
    cases fuel with
    | zero =>
      rw [hzero] at hr
      cases hr
    | succ fuel =>
      rw [hsucc] at hr
      exact honly fuel r' hr

theorem Settles.exists_eq {f : Nat → Option α} {r : α} (h : Settles f r) :
    ∃ fuel, f fuel = some r := by
  obtain ⟨k, hk⟩ := h.enough
  exact ⟨k, hk k (Nat.le_refl k)⟩

/-- `x`, and then `g` on what it gives, with the same fuel. -/
def andThen (x : Option (Except ε α)) (g : α → Option (Except ε β)) : Option (Except ε β) :=
  match x with
  | none => none
  | some (.error e) => some (.error e)
  | some (.ok a) => g a

@[simp] theorem andThen_ok (a : α) (g : α → Option (Except ε β)) :
    andThen (some (.ok a)) g = g a := rfl

/-- **Sequencing**: both loops get the same fuel. -/
theorem Settles.andThen {f : Nat → Option (Except ε α)} {g : Nat → α → Option (Except ε β)}
    {a : α} {r : Except ε β} (hf : Settles f (.ok a)) (hg : Settles (fun fuel => g fuel a) r) :
    Settles (fun fuel => andThen (f fuel) (g fuel)) r := by
  obtain ⟨⟨k, hk⟩, hfonly⟩ := hf
  obtain ⟨⟨l, hl⟩, hgonly⟩ := hg
  constructor
  · refine ⟨max k l, fun fuel hfuel => ?_⟩
    rw [hk fuel (by omega), andThen_ok]
    exact hl fuel (by omega)
  · intro fuel r' hr
    cases hx : f fuel with
    | none =>
      rw [hx] at hr
      cases hr
    | some x =>
      obtain rfl := hfonly fuel x hx
      rw [hx, andThen_ok] at hr
      exact hgonly fuel r' hr

end Fuel
