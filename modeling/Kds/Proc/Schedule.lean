import Kds.Lib.Fuel
import Kds.Proc.Balance

/-! # Scheduling one CPU

    `kds_proc_schedule` picks a proc under the lock of the run queue, runs it
    for a slice without the lock, and does the accounting under the lock
    again: two locked sections with the call of `run` between them. On a run
    queue whose list is well formed both sections return, and what they do is
    said here in terms of the procs on the list.
-/

namespace Kds

open Dlist Fuel

variable {n : Nat}

/-! ### The two locked sections -/

def kds_calc_dynamic_prio (p : KdsProc n) : Int32 := p.dynamic_prio

abbrev INT_MIN : Int32 := Int32.minValue

abbrev INT_MAX : Int32 := Int32.maxValue

/-- `(unsigned int)num_online_cpus()`. -/
def num_online_cpus (online : OnlineMask n) : UInt32 :=
  UInt32.ofNat (CpuMask.cpus online.mask).length

/-- The proc that is run again without a look at the queue. -/
def KdsSched.fastPath (s : KdsSched n) (online : OnlineMask n) (cpu : Fin n) : Option ProcAddr :=
  if s.nr_running cpu < num_online_cpus online then
    (s.kds_runqueues cpu).curr_proc.filter fun p => !(s.procs p).running
  else
    none

/-- `list_for_each_entry` over the system procs of `cpu`: the first of those
    not running with the greatest priority above `best_prio`. A list head of
    another queue is no proc. -/
def kds_find_best (s : KdsSched n) (cpu : Fin n) :
    Nat → QueueNode n → Int32 → Option ProcAddr → Option (Except Fault (Option ProcAddr))
  | 0, _, _, _ => none
  | _ + 1, .head c, _, best =>
    if c = cpu then some (.ok best) else some (.error .outOfBounds)
  | fuel + 1, .proc p, best_prio, best =>
    let next := s.links.next (.proc p)
    if (s.procs p).running then
      kds_find_best s cpu fuel next best_prio best
    else if kds_calc_dynamic_prio (s.procs p) > best_prio then
      kds_find_best s cpu fuel next (kds_calc_dynamic_prio (s.procs p)) (some p)
    else
      kds_find_best s cpu fuel next best_prio best

/-- The proc is marked, and the run queue points to it. -/
def KdsSched.start (s : KdsSched n) (cpu : Fin n) (best : ProcAddr) : KdsSched n :=
  (s.setProc best { s.procs best with running := true, state := .run }).setRq cpu
    { s.kds_runqueues cpu with curr_proc := some best }

/-- The first locked section: the proc to run, and whether it comes from the
    fast path. -/
def kds_proc_pick (fuel : Nat) (online : OnlineMask n) (cpu : Fin n) (s : KdsSched n) :
    Option (Except Fault (Option (ProcAddr × Bool) × KdsSched n)) :=
  match s.fastPath online cpu with
  | some best => some (.ok (some (best, true), s.start cpu best))
  | none =>
    andThen (kds_find_best s cpu fuel (s.links.next (.head cpu)) INT_MIN none) fun
      | none => some (.ok (none, s))
      | some best => some (.ok (some (best, false), s.start cpu best))

/-- The body of the loop of `kds_update_wait_time`. -/
def KdsProc.aged (proc : KdsProc n) (elapsed_ns executed_pid : UInt64) : KdsProc n :=
  if proc.pid = executed_pid then
    { proc with
      last_run_ns := elapsed_ns
      total_runtime_ns := proc.total_runtime_ns + elapsed_ns
      wait_time_ns := 0 }
  else
    { proc with
      wait_time_ns := proc.wait_time_ns + elapsed_ns
      dynamic_prio := proc.dynamic_prio + 1 }

def kds_update_wait_time (cpu : Fin n) (elapsed_ns : UInt64) (executed : ProcAddr) :
    Nat → QueueNode n → KdsSched n → Option (Except Fault (KdsSched n))
  | 0, _, _ => none
  | _ + 1, .head c, s =>
    if c = cpu then some (.ok s) else some (.error .outOfBounds)
  | fuel + 1, .proc p, s =>
    let s := s.setProc p ((s.procs p).aged elapsed_ns (s.procs executed).pid)
    kds_update_wait_time cpu elapsed_ns executed fuel (s.links.next (.proc p)) s

/-- What follows the accounting: the mark and, off the fast path, `curr_proc`
    are cleared. -/
def KdsSched.stop (s : KdsSched n) (cpu : Fin n) (best : ProcAddr) (fast_path : Bool)
    (elapsed_ns : UInt64) : KdsSched n :=
  let rq := s.kds_runqueues cpu
  let s := (s.setProc best { s.procs best with running := false }).setRq cpu
    { rq with
      total_runtime_ns := rq.total_runtime_ns + elapsed_ns
      curr_proc := if fast_path then rq.curr_proc else none }
  { s with total_schedules := s.total_schedules + 1 }

/-- The second locked section. -/
def kds_proc_account (fuel : Nat) (cpu : Fin n) (best : ProcAddr) (fast_path : Bool)
    (elapsed_ns : UInt64) (s : KdsSched n) : Option (Except Fault (KdsSched n)) :=
  andThen (kds_update_wait_time cpu elapsed_ns best fuel (s.links.next (.head cpu)) s) fun s =>
    some (.ok (s.stop cpu best fast_path elapsed_ns))

/-- The proc whose `run` is called, and the state at the end. -/
def kds_proc_schedule (fuel : Nat) (online : OnlineMask n) (cpu : Fin n)
    (start_ns now_ns : UInt64) (s : KdsSched n) :
    Option (Except Fault (Option ProcAddr × KdsSched n)) :=
  andThen (kds_proc_pick fuel online cpu s) fun
    | (none, s) => some (.ok (none, s))
    | (some (best, fast_path), s) =>
      andThen (kds_proc_account fuel cpu best fast_path (now_ns - start_ns) s) fun s =>
        some (.ok (some best, s))

/-! ### The choice -/

section choice

variable {s : KdsSched n} {cpu : Fin n} {procs : List ProcAddr}

/-- The same search on the list of procs. -/
def KdsSched.best (s : KdsSched n) : List ProcAddr → Int32 → Option ProcAddr → Option ProcAddr
  | [], _, best => best
  | p :: rest, best_prio, best =>
    if (s.procs p).running then
      s.best rest best_prio best
    else if kds_calc_dynamic_prio (s.procs p) > best_prio then
      s.best rest (kds_calc_dynamic_prio (s.procs p)) (some p)
    else
      s.best rest best_prio best

/-- The walk over a well-formed list ends with the choice among its procs. -/
theorem kds_find_best_settles {x : QueueNode n} {best_prio : Int32} {best : Option ProcAddr}
    (hseg : s.links.Seg x (procs.map .proc) (.head cpu)) :
    Settles (fun fuel => kds_find_best s cpu fuel (s.links.next x) best_prio best)
      (.ok (s.best procs best_prio best)) := by
  induction procs generalizing x best_prio best with
  | nil =>
    have hnext : s.links.next x = .head cpu := hseg.1
    rw [hnext]
    refine (Settles.const _).succ rfl fun fuel => ?_
    rw [kds_find_best, if_pos rfl]
    rfl
  | cons p rest ih =>
    have hnext : s.links.next x = .proc p := hseg.1.1
    rw [hnext]
    unfold KdsSched.best
    by_cases hrun : (s.procs p).running = true
    · rw [if_pos hrun]
      refine (ih hseg.2).succ rfl fun fuel => ?_
      simp only [kds_find_best, if_pos hrun]
    · rw [if_neg hrun]
      by_cases hprio : kds_calc_dynamic_prio (s.procs p) > best_prio
      · rw [if_pos hprio]
        refine (ih hseg.2).succ rfl fun fuel => ?_
        simp only [kds_find_best, if_neg hrun, if_pos hprio]
      · rw [if_neg hprio]
        refine (ih hseg.2).succ rfl fun fuel => ?_
        simp only [kds_find_best, if_neg hrun, if_neg hprio]

/-- `p` is the first of the procs not running with the greatest priority. -/
structure FirstBest (s : KdsSched n) (procs : List ProcAddr) (p : ProcAddr) : Prop where
  idle : (s.procs p).running = false
  split : ∃ before after, procs = before ++ p :: after ∧
    (∀ q ∈ before, (s.procs q).running = false →
      (s.procs q).dynamic_prio < (s.procs p).dynamic_prio) ∧
    ∀ q ∈ after, (s.procs q).running = false →
      (s.procs q).dynamic_prio ≤ (s.procs p).dynamic_prio

theorem FirstBest.mem {p : ProcAddr} (h : FirstBest s procs p) : p ∈ procs := by
  obtain ⟨before, after, rfl, -⟩ := h.split
  simp

/-- The search keeps its start values when nobody is above them, and else
    finds the first of the best. -/
theorem KdsSched.best_spec (s : KdsSched n) (procs : List ProcAddr) (best_prio : Int32)
    (best : Option ProcAddr) :
    (s.best procs best_prio best = best ∧
        ∀ q ∈ procs, (s.procs q).running = false → (s.procs q).dynamic_prio ≤ best_prio) ∨
      ∃ p, s.best procs best_prio best = some p ∧ best_prio < (s.procs p).dynamic_prio ∧
        FirstBest s procs p := by
  -- along the queue, with the best so far; a running proc is passed over
  induction procs generalizing best_prio best with
  | nil => left; simp [KdsSched.best]
  | cons p rest ih =>
    unfold KdsSched.best
    by_cases hrun : (s.procs p).running = true
    · rw [if_pos hrun]
      rcases ih best_prio best with ⟨heq, hle⟩ | ⟨q, heq, hlt, hidle, before, after, rfl, hb, ha⟩
      · left
        refine ⟨heq, ?_⟩
        intro q hq hidle
        rcases List.mem_cons.mp hq with rfl | hq
        · rw [hrun] at hidle
          cases hidle
        · exact hle q hq hidle
      · right
        refine ⟨q, heq, hlt, hidle, p :: before, after, rfl, ?_, ha⟩
        intro r hr hidle
        rcases List.mem_cons.mp hr with rfl | hr
        · rw [hrun] at hidle
          cases hidle
        · exact hb r hr hidle
    · rw [if_neg hrun]
      rw [Bool.not_eq_true] at hrun
      by_cases hprio : kds_calc_dynamic_prio (s.procs p) > best_prio
      · rw [if_pos hprio]
        right
        rcases ih (kds_calc_dynamic_prio (s.procs p)) (some p) with
          ⟨heq, hle⟩ | ⟨q, heq, hlt, hidle, before, after, rfl, hb, ha⟩
        -- nothing behind beats `p`, and nothing stands before it
        · exact ⟨p, heq, hprio, hrun, [], rest, rfl, by simp, hle⟩
        · refine ⟨q, heq, Int32.lt_trans hprio hlt, hidle, p :: before, after, rfl, ?_, ha⟩
          intro r hr hidle
          rcases List.mem_cons.mp hr with rfl | hr
          · exact hlt
          · exact hb r hr hidle
      · rw [if_neg hprio]
        -- only a strictly higher priority replaces the best so far
        have hle : (s.procs p).dynamic_prio ≤ best_prio := Int32.not_lt.mp hprio
        rcases ih best_prio best with ⟨heq, hrest⟩ | ⟨q, heq, hlt, hidle, before, after, rfl, hb, ha⟩
        · left
          refine ⟨heq, ?_⟩
          intro q hq hidle
          rcases List.mem_cons.mp hq with rfl | hq
          · exact hle
          · exact hrest q hq hidle
        · right
          refine ⟨q, heq, hlt, hidle, p :: before, after, rfl, ?_, ha⟩
          intro r hr hidle
          rcases List.mem_cons.mp hr with rfl | hr
          · exact Int32.lt_of_le_of_lt hle hlt
          · exact hb r hr hidle

/-- **First section**, off the fast path: the first of the best is started, if
    anybody is above `INT_MIN`. -/
theorem kds_proc_pick_settles {online : OnlineMask n}
    (hring : s.links.Ring (.head cpu) (procs.map .proc)) (hfast : s.fastPath online cpu = none) :
    Settles (fun fuel => kds_proc_pick fuel online cpu s)
      (.ok (match s.best procs INT_MIN none with
        | none => (none, s)
        | some p => (some (p, false), s.start cpu p))) := by
  unfold kds_proc_pick
  rw [hfast]
  apply (kds_find_best_settles hring.seg).andThen
  cases s.best procs INT_MIN none with
  | none => exact .const _
  | some p => exact .const _

end choice

/-! ### The accounting -/

section accounting

variable {s : KdsSched n} {cpu : Fin n} {procs : List ProcAddr}

@[simp] theorem aged_pid (proc : KdsProc n) (elapsed_ns executed_pid : UInt64) :
    (proc.aged elapsed_ns executed_pid).pid = proc.pid := by
  unfold KdsProc.aged
  split <;> rfl

@[simp] theorem aged_running (proc : KdsProc n) (elapsed_ns executed_pid : UInt64) :
    (proc.aged elapsed_ns executed_pid).running = proc.running := by
  unfold KdsProc.aged
  split <;> rfl

theorem aged_dynamic_prio (proc : KdsProc n) (elapsed_ns executed_pid : UInt64) :
    (proc.aged elapsed_ns executed_pid).dynamic_prio =
      if proc.pid = executed_pid then proc.dynamic_prio else proc.dynamic_prio + 1 := by
  unfold KdsProc.aged
  split <;> rfl

/-- `procs` have been accounted for. -/
def KdsSched.agedAll (s : KdsSched n) (procs : List ProcAddr) (elapsed_ns executed_pid : UInt64) :
    KdsSched n :=
  { s with procs := fun q =>
      if q ∈ procs then (s.procs q).aged elapsed_ns executed_pid else s.procs q }

/-- Accounting for one proc and then for the others. -/
theorem agedAll_cons {p : ProcAddr} {rest : List ProcAddr} {elapsed_ns executed_pid : UInt64}
    (hp : p ∉ rest) :
    (s.setProc p ((s.procs p).aged elapsed_ns executed_pid)).agedAll rest elapsed_ns executed_pid =
      s.agedAll (p :: rest) elapsed_ns executed_pid := by
  unfold KdsSched.agedAll KdsSched.setProc
  congr 1
  funext q
  by_cases hq : q = p
  · subst hq
    simp [hp]
  · simp [hq]

/-- The walk over a well-formed list accounts for every proc on it once. -/
theorem kds_update_wait_time_settles {x : QueueNode n} {elapsed_ns : UInt64} {executed : ProcAddr}
    (hseg : s.links.Seg x (procs.map .proc) (.head cpu)) (hnodup : procs.Nodup) :
    Settles (fun fuel => kds_update_wait_time cpu elapsed_ns executed fuel (s.links.next x) s)
      (.ok (s.agedAll procs elapsed_ns (s.procs executed).pid)) := by
  induction procs generalizing s x with
  | nil =>
    have hnext : s.links.next x = .head cpu := hseg.1
    rw [hnext]
    refine (Settles.const _).succ rfl fun fuel => ?_
    rw [kds_update_wait_time, if_pos rfl]
    simp [KdsSched.agedAll]
  | cons p rest ih =>
    obtain ⟨hp, hrest⟩ := List.nodup_cons.mp hnodup
    have hnext : s.links.next x = .proc p := hseg.1.1
    rw [hnext, ← agedAll_cons hp]
    have hpid : ((s.setProc p ((s.procs p).aged elapsed_ns (s.procs executed).pid)).procs
        executed).pid = (s.procs executed).pid := by
      rw [KdsSched.setProc_procs]
      split
      · next h => rw [h, aged_pid]
      · rfl
    have hgo := ih (s := s.setProc p ((s.procs p).aged elapsed_ns (s.procs executed).pid))
      hseg.2 hrest
    rw [hpid] at hgo
    exact hgo.succ rfl fun fuel => rfl

/-- **Second section**. -/
theorem kds_proc_account_settles {best : ProcAddr} {fast_path : Bool} {elapsed_ns : UInt64}
    (hring : s.links.Ring (.head cpu) (procs.map .proc)) :
    Settles (fun fuel => kds_proc_account fuel cpu best fast_path elapsed_ns s)
      (.ok ((s.agedAll procs elapsed_ns (s.procs best).pid).stop cpu best fast_path
        elapsed_ns)) := by
  unfold kds_proc_account
  exact (kds_update_wait_time_settles hring.seg (ring_procs_nodup hring)).andThen (.const _)

end accounting

/-! ### What the sections change -/

namespace KdsSched

def curr_proc (s : KdsSched n) (cpu : Fin n) : Option ProcAddr := (s.kds_runqueues cpu).curr_proc

variable (s : KdsSched n) (cpu c : Fin n) (p q : ProcAddr) (fast_path : Bool)
  (elapsed_ns executed_pid : UInt64) (procs : List ProcAddr)

theorem fastPath_none {s : KdsSched n} {cpu : Fin n} (h : s.curr_proc cpu = none)
    (online : OnlineMask n) : s.fastPath online cpu = none := by
  unfold curr_proc at h
  unfold fastPath
  rw [h]
  exact ite_self none

@[simp] theorem start_links : (s.start cpu p).links = s.links := rfl

@[simp] theorem start_procs : (s.start cpu p).procs q =
    if q = p then { s.procs p with running := true, state := .run } else s.procs q := rfl

@[simp] theorem start_curr_proc : (s.start cpu p).curr_proc c =
    if c = cpu then some p else s.curr_proc c := by
  unfold start curr_proc setRq
  by_cases hc : c = cpu <;> simp [hc, setProc]

@[simp] theorem agedAll_links : (s.agedAll procs elapsed_ns executed_pid).links = s.links := rfl

@[simp] theorem agedAll_procs : (s.agedAll procs elapsed_ns executed_pid).procs q =
    if q ∈ procs then (s.procs q).aged elapsed_ns executed_pid else s.procs q := rfl

@[simp] theorem agedAll_curr_proc :
    (s.agedAll procs elapsed_ns executed_pid).curr_proc c = s.curr_proc c := rfl

@[simp] theorem stop_links : (s.stop cpu p fast_path elapsed_ns).links = s.links := rfl

@[simp] theorem stop_procs : (s.stop cpu p fast_path elapsed_ns).procs q =
    if q = p then { s.procs p with running := false } else s.procs q := rfl

@[simp] theorem stop_curr_proc : (s.stop cpu p fast_path elapsed_ns).curr_proc c =
    if c = cpu then (if fast_path then s.curr_proc c else none) else s.curr_proc c := by
  unfold stop curr_proc setRq
  by_cases hc : c = cpu <;> simp [hc, setProc]

end KdsSched

/-! ### Registering leaves `curr_proc` alone -/

section registered

variable {s s' : KdsSched n}

@[simp] theorem setProc_curr_proc (s : KdsSched n) (p : ProcAddr) (proc : KdsProc n)
    (cpu : Fin n) : (s.setProc p proc).curr_proc cpu = s.curr_proc cpu := rfl

@[simp] theorem enqueue_curr_proc (s : KdsSched n) (cpu c : Fin n) (p : ProcAddr) :
    (s.enqueue cpu p).curr_proc c = s.curr_proc c := by
  unfold KdsSched.enqueue KdsSched.curr_proc
  cases (s.procs p).kind <;> simp only [KdsSched.setRq] <;> by_cases h : c = cpu <;> simp [h]

@[simp] theorem dequeue_curr_proc (s : KdsSched n) (cpu c : Fin n) (p : ProcAddr) :
    (s.dequeue cpu p).curr_proc c = s.curr_proc c := by
  unfold KdsSched.dequeue KdsSched.curr_proc
  cases (s.procs p).kind <;> simp only [KdsSched.setRq] <;> by_cases h : c = cpu <;> simp [h]

theorem kds_migrate_curr_proc (s : KdsSched n) (src_cpu dst_cpu c : Fin n)
    (cursor : QueueNode n) :
    (kds_migrate s src_cpu dst_cpu cursor).curr_proc c = s.curr_proc c := by
  unfold kds_migrate KdsSched.curr_proc
  cases cursor <;>
    simp only [KdsSched.setRq, KdsSched.setCursorCpu, KdsSched.setProc] <;>
    by_cases hd : c = dst_cpu <;> by_cases hs : c = src_cpu <;> simp_all

theorem kds_proc_register_curr_proc {online : OnlineMask n} {proc : Option ProcAddr}
    {ret : Except Errno Unit} (h : kds_proc_register online proc s = .ok (ret, s')) (c : Fin n) :
    s'.curr_proc c = s.curr_proc c := by
  cases proc with
  | none =>
    cases h
    rfl
  | some p =>
    unfold kds_proc_register at h
    by_cases hrun : (s.procs p).run = false
    · simp only [if_pos hrun] at h
      cases h
      rfl
    · simp only [if_neg hrun] at h
      split at h
      · cases h
      · cases h
        rw [enqueue_curr_proc, setProc_curr_proc]
        rfl

theorem kds_proc_set_affinity_curr_proc {proc : Option ProcAddr} {mask : CpuMask n}
    {ret : Except Errno Unit} (h : kds_proc_set_affinity proc mask s = .ok (ret, s'))
    (c : Fin n) : s'.curr_proc c = s.curr_proc c := by
  cases proc with
  | none =>
    cases h
    rfl
  | some p =>
    unfold kds_proc_set_affinity at h
    by_cases hempty : cpumask_empty mask = true
    · simp only [if_pos hempty] at h
      cases h
      rfl
    by_cases hstay : mask (s.procs p).cpu = true
    · simp only [if_neg hempty, if_pos hstay] at h
      cases h
      rfl
    · simp only [if_neg hempty, if_neg hstay] at h
      split at h
      · cases h
      · cases h
        exact (enqueue_curr_proc _ _ _ _).trans (dequeue_curr_proc _ _ _ _)

theorem kds_load_balance_curr_proc {fuel : Nat} {online : OnlineMask n}
    (h : kds_load_balance fuel online s = some (.ok s')) (c : Fin n) :
    s'.curr_proc c = s.curr_proc c := by
  unfold kds_load_balance at h
  dsimp only at h
  split at h
  · split at h
    · cases h
      rfl
    · split at h
      · cases h
      · cases h
      · cases h
        exact kds_migrate_curr_proc _ _ _ _ _
  · cases h
    rfl

/-- As long as nobody schedules, `curr_proc` is null. -/
theorem curr_proc_none {st : SchedRun n} (h : (runqueueSystem n).Reachable st) (cpu : Fin n) :
    st.sched.curr_proc cpu = none := by
  revert cpu
  apply h.invariant (fun st => ∀ cpu, st.sched.curr_proc cpu = none)
  · rintro ⟨s, R⟩ ⟨⟨s₀, rfl⟩, -⟩ cpu
    unfold KdsSched.curr_proc
    rw [(kds_sched_init_empty s₀ cpu).2]
  · intro st act st' hnone hstep cpu
    rw [← hnone cpu]
    cases act with
    | prepare p proc =>
      obtain ⟨-, rfl⟩ := hstep
      rfl
    | set_running p running =>
      obtain rfl := hstep
      rfl
    | register online proc =>
      rcases hstep with ⟨e, s, hcall, rfl⟩ | ⟨p, s, -, hcall, rfl⟩
      · exact kds_proc_register_curr_proc hcall cpu
      · exact kds_proc_register_curr_proc hcall cpu
    | unregister p =>
      obtain ⟨-, rfl⟩ := hstep
      exact dequeue_curr_proc _ _ _ _
    | set_affinity proc mask =>
      obtain ⟨ret, s, hcall, rfl⟩ := hstep
      exact kds_proc_set_affinity_curr_proc hcall cpu
    | load_balance online =>
      obtain ⟨fuel, s, hcall, rfl⟩ := hstep
      exact kds_load_balance_curr_proc hcall cpu

end registered

end Kds
