import Mathlib.Logic.Basic

/-! # Work that is done in slices

    A piece of work is called again and again until it no longer asks for
    more. `call s r s'` is one call: started in `s` it returns `r` and leaves
    `s'`. What a call does may depend on a clock in the state, and `quiet`
    takes the clock away. Two facts about one call are enough for the whole
    work to be the same with and without the clock.
-/

namespace Slices

universe u v

variable {σ : Type u} {ρ : Type v}

/-- Calls one after the other, each where the one before has stopped, up to
    the first that returns something else than `more`. -/
inductive Calls (call : σ → ρ → σ → Prop) (more : ρ) : σ → ρ → σ → Prop where
  | last {s s' : σ} {r : ρ} : call s r s' → r ≠ more → Calls call more s r s'
  | again {s s₁ s' : σ} {r : ρ} :
      call s more s₁ → Calls call more s₁ r s' → Calls call more s r s'

/-- What one call has to do for its slices not to matter: one that ends does
    the same without the clock, and one that asks for more stops in a state
    from which the work goes on, without the clock, as from its start. -/
structure Resumable (call : σ → ρ → σ → Prop) (more : ρ) (quiet : σ → σ) (Inv : σ → Prop) :
    Prop where
  last : ∀ s r s', Inv s → call s r s' → r ≠ more → call (quiet s) r (quiet s')
  again : ∀ s s₁, Inv s → call s more s₁ →
    Inv s₁ ∧ ∀ r s', call (quiet s₁) r s' → call (quiet s) r s'

/-- **Slices do not matter**: what the calls come to, one call without the
    clock does. -/
theorem Resumable.one_call {call : σ → ρ → σ → Prop} {more : ρ} {quiet : σ → σ} {Inv : σ → Prop}
    (hres : Resumable call more quiet Inv) {s s' : σ} {r : ρ} (hs : Inv s)
    (h : Calls call more s r s') : call (quiet s) r (quiet s') := by
  induction h with
  | last hcall hr => exact hres.last _ _ _ hs hcall hr
  | again hcall _ ih =>
    obtain ⟨hinv, hgo⟩ := hres.again _ _ hs hcall
    exact hgo _ _ (ih hinv)

/-- **Slices come to an end**: every call returns, and one that asks for more
    leaves less to do. -/
theorem calls_end {call : σ → ρ → σ → Prop} {more : ρ} {Inv : σ → Prop} (μ : σ → Nat)
    (hcall : ∀ s, Inv s → ∃ r s', call s r s' ∧ (r = more → Inv s' ∧ μ s' < μ s)) (s : σ)
    (hs : Inv s) : ∃ r s', Calls call more s r s' := by
  induction hn : μ s using Nat.strongRecOn generalizing s with
  | ind n ih =>
    obtain ⟨r, s₁, hfirst, hmore⟩ := hcall s hs
    by_cases hr : r = more
    · subst hr
      obtain ⟨hinv, hlt⟩ := hmore rfl
      obtain ⟨r', s', hrest⟩ := ih (μ s₁) (hn ▸ hlt) s₁ hinv rfl
      exact ⟨r', s', .again hfirst hrest⟩
    · exact ⟨r, s₁, .last hfirst hr⟩

/-- This many calls one after the other, all of which ask for more. -/
inductive Asks (call : σ → ρ → σ → Prop) (more : ρ) : Nat → σ → σ → Prop where
  | none (s : σ) : Asks call more 0 s s
  | again {s s₁ s' : σ} {n : Nat} :
      call s more s₁ → Asks call more n s₁ s' → Asks call more (n + 1) s s'

/-- **Only so many calls ask for more**, where each of them leaves less to do. -/
theorem Asks.bounded {call : σ → ρ → σ → Prop} {more : ρ} {Inv : σ → Prop} {μ : σ → Nat}
    (hcall : ∀ s s₁, Inv s → call s more s₁ → Inv s₁ ∧ μ s₁ < μ s) {n : Nat} {s s' : σ}
    (h : Asks call more n s s') (hs : Inv s) : Inv s' ∧ n + μ s' ≤ μ s := by
  induction h with
  | none s => exact ⟨hs, Nat.le_of_eq (Nat.zero_add _)⟩
  | again hfirst _ ih =>
    obtain ⟨hinv, hlt⟩ := hcall _ _ hs hfirst
    obtain ⟨hinv', hle⟩ := ih hinv
    exact ⟨hinv', by omega⟩

/-- A call that comes back to where it was asks for more for ever. -/
theorem Asks.spin {call : σ → ρ → σ → Prop} {more : ρ} {s : σ} (h : call s more s) (n : Nat) :
    Asks call more n s s := by
  induction n with
  | zero => exact .none s
  | succ n ih => exact .again h ih

end Slices
