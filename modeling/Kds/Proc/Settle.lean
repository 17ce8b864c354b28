import Kds.Proc.Balance
import Kds.Lib.Piles

/-! # Load balancing settles

    `kds_load_balance` moves one proc a call, and the balancing thread calls
    it again and again. Every move takes a proc from the heaviest queue to
    the lightest, so `Piles` bounds the number of moves: the calls come to
    rest, with the loads of the online CPUs within the threshold. Session
    procs count as load and are never moved, so they have to be level on
    their own.
-/

namespace Kds

open Dlist Lts Piles

variable {n : Nat}

/-- The online CPUs, as a set of piles. -/
def OnlineMask.cpus (online : OnlineMask n) : Finset (Fin n) :=
  Finset.univ.filter (online.mask · = true)

@[simp] theorem OnlineMask.mem_cpus (online : OnlineMask n) (cpu : Fin n) :
    cpu ∈ online.cpus ↔ online.mask cpu = true := by
  simp [OnlineMask.cpus]

/-- The loads, as the heights of the piles. -/
def KdsSched.load (s : KdsSched n) (cpu : Fin n) : ℕ := (s.nr_running cpu).toNat

section Calls

variable {st : SchedRun n} {lists : Fin n → List ProcAddr} {online : OnlineMask n}

/-- The loads after a move. -/
theorem QueueMoved.load {src_cpu dst_cpu : Fin n} {p : ProcAddr} {s' : KdsSched n}
    (hmoved : QueueMoved st lists src_cpu dst_cpu p s') (h : RunqueueInv st lists) :
    s'.load = move st.sched.load src_cpu dst_cpu := by
  have hmem : p ∈ lists src_cpu := (h.system src_cpu p).mpr
    ⟨hmoved.movable.registered, hmoved.movable.system, hmoved.movable.placed⟩
  have hne := hmoved.distinct
  funext c
  have hold := h.counted c
  have hnew := hmoved.queues.counted c
  dsimp only at hnew
  rw [hmoved.sessions c] at hnew
  unfold move
  by_cases hdst : c = dst_cpu
  · subst hdst
    rw [Function.update_self] at hnew ⊢
    unfold KdsSched.load
    rw [hnew, hold, List.length_append, List.length_singleton]
    omega
  by_cases hsrc : c = src_cpu
  · subst hsrc
    rw [Function.update_of_ne hdst, Function.update_self] at hnew ⊢
    have hpos : 0 < (lists c).length := List.length_pos_of_mem hmem
    unfold KdsSched.load
    rw [hnew, hold, List.length_erase_of_mem hmem]
    omega
  · rw [Function.update_of_ne hdst, Function.update_of_ne hsrc] at hnew ⊢
    unfold KdsSched.load
    rw [hnew, hold]

end Calls

end Kds
