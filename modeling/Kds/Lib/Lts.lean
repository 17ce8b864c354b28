import Mathlib.Logic.Basic

/-! # Labelled transition systems

    Initial states, labelled steps, reachability, and the two rules the
    developments use: an inductive invariant holds in every reachable state,
    and a system that is simulated step by step only reaches states whose
    abstraction the abstract system reaches. `restrict` keeps the steps that
    meet a condition on the state before the step, for results about the
    runs whose every step meets it.
-/

namespace Lts

universe u v w x

/-- A labelled transition system. -/
structure System (σ : Type u) (α : Type v) where
  init : σ → Prop
  step : σ → α → σ → Prop

variable {σ : Type u} {α : Type v} {τ : Type w} {β : Type x}

namespace System

/-- States reachable from an initial state. -/
inductive Reachable (sys : System σ α) : σ → Prop where
  | init {s : σ} : sys.init s → Reachable sys s
  | step {s s' : σ} (a : α) : Reachable sys s → sys.step s a s' → Reachable sys s'

/-- The steps that meet `ok` in the state they are taken from. -/
def restrict (sys : System σ α) (ok : σ → α → Prop) : System σ α where
  init := sys.init
  step := fun s a s' => sys.step s a s' ∧ ok s a

/-- **Invariant rule**. -/
theorem Reachable.invariant {sys : System σ α} (Inv : σ → Prop)
    (hinit : ∀ s, sys.init s → Inv s)
    (hstep : ∀ s a s', Inv s → sys.step s a s' → Inv s')
    {s : σ} (h : sys.Reachable s) : Inv s := by
  induction h with
  | init h0 => exact hinit _ h0
  | step a _ hs ih => exact hstep _ a _ ih hs

theorem Reachable.of_restrict {sys : System σ α} {ok : σ → α → Prop} {s : σ}
    (h : (sys.restrict ok).Reachable s) : sys.Reachable s := by
  induction h with
  | init h0 => exact .init h0
  | step a _ hs ih => exact .step a ih hs.1

/-- Every concrete step is an abstract step, or none, on the abstractions of its end states. -/
def RefinesVia (conc : System σ α) (abst : System τ β) (Inv : σ → Prop) (f : σ → τ) : Prop :=
  (∀ s, conc.init s → abst.init (f s)) ∧
    ∀ s a s', Inv s → conc.step s a s' →
      f s' = f s ∨ ∃ b, abst.step (f s) b (f s')

/-- Reachable concrete states abstract to reachable abstract states. -/
theorem Reachable.refines {conc : System σ α} {abst : System τ β} {Inv : σ → Prop} {f : σ → τ}
    (href : conc.RefinesVia abst Inv f) (hinv : ∀ s, conc.Reachable s → Inv s)
    {s : σ} (h : conc.Reachable s) : abst.Reachable (f s) := by
  induction h with
  | init h0 => exact .init (href.1 _ h0)
  | step a hr hs ih =>
    obtain heq | ⟨b, hb⟩ := href.2 _ a _ (hinv _ hr) hs
    · rw [heq]; exact ih
    · exact .step b ih hb

end System

end Lts
