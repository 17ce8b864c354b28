import Mathlib.Data.Fintype.Card
import Mathlib.Logic.Relation

/-! # Machines that halt

    A deterministic machine is given by its step, which is `none` where the
    machine stops. It halts from a state if the steps from there cannot go on
    for ever. On finitely many states that is so exactly if no state that is
    reached comes back to itself.
-/

open Relation

namespace Machine

universe u

variable {σ : Type u} {step : σ → Option σ} {s t : σ}

/-- `s` takes one step to `t`. -/
def Next (step : σ → Option σ) (s t : σ) : Prop := step s = some t

/-- The steps from `s` on come to an end. -/
def Halts (step : σ → Option σ) (s : σ) : Prop := Acc (fun t s => Next step s t) s

theorem Halts.of_next (h : ∀ t, Next step s t → Halts step t) : Halts step s := Acc.intro s h

theorem Halts.next (h : Halts step s) (hst : Next step s t) : Halts step t := Acc.inv h hst

theorem Halts.of_stop (h : step s = none) : Halts step s :=
  .of_next fun _ ht => nomatch h.symm.trans ht

theorem Halts.of_step (hst : Next step s t) (h : Halts step t) : Halts step s := by
  refine .of_next fun u hu => ?_
  rwa [← Option.some.inj (hst.symm.trans hu)]

theorem Halts.reaches (h : Halts step s) (hst : ReflTransGen (Next step) s t) : Halts step t := by
  induction hst with
  | refl => exact h
  | tail _ hnext ih => exact ih.next hnext

/-- A machine that halts goes through no state twice. -/
theorem Halts.no_cycle (h : Halts step s) : ¬ TransGen (Next step) s s := by
  induction h with
  | intro s _ ih =>
    intro hcycle
    obtain ⟨t, hst, hts⟩ := TransGen.head'_iff.mp hcycle
    exact ih t hst (.tail' hts hst)

/-- A machine halts if one that does more at every step does, where that one halts. -/
theorem Halts.of_map {τ : Type*} {step' : τ → Option τ} {f : σ → τ}
    (hf : ∀ s t, Halts step' (f s) → Next step s t → TransGen (Next step') (f s) (f t))
    (h : Halts step' (f s)) : Halts step s := by
  have hlater : Acc (TransGen fun t s => Next step' s t) (f s) := Acc.transGen h
  generalize hx : f s = x at hlater
  induction hlater generalizing s with
  | intro x _ ih =>
    subst hx
    refine .of_next fun t hst => ?_
    have hmore := hf s t h hst
    exact ih (f t) (transGen_swap.mp hmore) (h.reaches hmore.to_reflTransGen) rfl

/-- **Pigeonhole**: from finitely many states, none of them twice. -/
theorem halts_of_no_cycle [Finite σ]
    (h : ∀ t, ReflTransGen (Next step) s t → ¬ TransGen (Next step) t t) : Halts step s := by
  -- what comes later, among the states that are reached
  let Later (t u : σ) : Prop := ReflTransGen (Next step) s u ∧ TransGen (Next step) u t
  have : IsTrans σ Later := ⟨fun _ _ _ hab hbc => ⟨hbc.1, hbc.2.trans hab.2⟩⟩
  have : Std.Irrefl Later := ⟨fun t ht => h t ht.1 ht.2⟩
  have hwf : WellFounded Later := Finite.wellFounded_of_trans_of_irrefl Later
  have hall : ∀ t, ReflTransGen (Next step) s t → Halts step t := by
    intro t
    induction t using hwf.induction with
    | _ t ih =>
      intro ht
      exact .of_next fun u htu => ih u ⟨ht, .single htu⟩ (ht.tail htu)
  exact hall s .refl

theorem halts_iff_no_cycle [Finite σ] :
    Halts step s ↔ ∀ t, ReflTransGen (Next step) s t → ¬ TransGen (Next step) t t :=
  ⟨fun h _ ht => (h.reaches ht).no_cycle, halts_of_no_cycle⟩

end Machine
