import Mathlib.Data.List.FinRange
import Mathlib.Data.List.Sort
import Mathlib.Data.Set.Insert
import Kds.Core
import Kds.Lib.Dlist
import Kds.Lib.Lts

/-! # The per-CPU run queues

    `proc.c`: registering and unregistering procs, CPU affinity and load
    balancing. A run queue holds system procs on an intrusive list, session
    procs in a red-black tree ordered by `static_prio`, and the counter
    `nr_running`. The list links of all procs and of all list heads form one
    `Dlist.Links`; the tree is the list of its entries in order, which is
    what insertion by comparison and `rb_erase` are about.

    CPU numbers are `Fin n` for the `n` possible CPUs; the online mask is an
    argument of the calls that read it, so CPUs may come and go between calls.
-/

namespace Kds

open Dlist

/-! ### Data -/

/-- `cpumask_t`, a bit for each possible CPU. -/
abbrev CpuMask (n : Nat) := Fin n → Bool

/-- `cpu_online_mask`: some CPU runs the code. -/
structure OnlineMask (n : Nat) where
  mask : CpuMask n
  some_online : ∃ cpu, mask cpu = true

variable {n : Nat}

/-- The CPUs of a mask, in the order `for_each_cpu` visits them. -/
def CpuMask.cpus (mask : CpuMask n) : List (Fin n) :=
  (List.finRange n).filter mask

def cpumask_empty (mask : CpuMask n) : Bool :=
  CpuMask.cpus mask = []

/-- The address of a `kds_proc_t`. -/
abbrev ProcAddr := Nat

/-- `kds_proc_kind_t`. -/
inductive ProcKind where
  | system
  | session
  deriving DecidableEq, Repr

/-- `kds_proc_state_t`. -/
inductive ProcState where
  | ready
  | run
  | wait
  | done
  deriving DecidableEq, Repr

/-- `kds_proc_t`. A negative `preferred_cpu` is `none`; `run` says whether
    the callback is set. -/
structure KdsProc (n : Nat) where
  pid : UInt64
  kind : ProcKind
  state : ProcState
  static_prio : Int
  dynamic_prio : Int32
  last_run_ns : UInt64
  total_runtime_ns : UInt64
  wait_time_ns : UInt64
  cpu : Fin n
  preferred_cpu : Option (Fin n)
  allowed_cpus : CpuMask n
  running : Bool
  run : Bool

/-- A node on a list of system procs: the list head in a run queue or the
    `list_node` of a proc. -/
inductive QueueNode (n : Nat) where
  | head (cpu : Fin n)
  | proc (p : ProcAddr)
  deriving DecidableEq, Repr

/-- `kds_runqueue_t`, less the list of system procs (see `KdsSched.links`). -/
structure KdsRunqueue where
  session_procs : List ProcAddr
  curr_proc : Option ProcAddr
  total_runtime_ns : UInt64
  nr_running : UInt32

/-- The scheduler's globals together with the procs they point to. -/
structure KdsSched (n : Nat) where
  links : Links (QueueNode n)
  procs : ProcAddr → KdsProc n
  kds_runqueues : Fin n → KdsRunqueue
  kds_next_pid : UInt64
  total_schedules : UInt64
  load_balances : UInt64
  migrations : UInt64

@[simp] def UINT_MAX : UInt32 := 0xffffffff

@[simp] def KDS_LOAD_BALANCE_THRESHOLD : UInt32 := 2

namespace KdsSched

def setProc (s : KdsSched n) (p : ProcAddr) (proc : KdsProc n) : KdsSched n :=
  { s with procs := fun q => if q = p then proc else s.procs q }

def setRq (s : KdsSched n) (cpu : Fin n) (rq : KdsRunqueue) : KdsSched n :=
  { s with kds_runqueues := fun c => if c = cpu then rq else s.kds_runqueues c }

def nr_running (s : KdsSched n) (cpu : Fin n) : UInt32 :=
  (s.kds_runqueues cpu).nr_running

def session_procs (s : KdsSched n) (cpu : Fin n) : List ProcAddr :=
  (s.kds_runqueues cpu).session_procs

end KdsSched

/-! ### Initialisation -/

/-- The body of the loop of `kds_sched_init`. -/
def kds_rq_init (s : KdsSched n) (cpu : Fin n) : KdsSched n :=
  ({ s with links := s.links.init (.head cpu) } : KdsSched n).setRq cpu
    { session_procs := [], curr_proc := none, total_runtime_ns := 0, nr_running := 0 }

def kds_sched_init (s : KdsSched n) : KdsSched n :=
  { (List.finRange n).foldl kds_rq_init s with
    total_schedules := 0
    load_balances := 0
    migrations := 0 }

/-! ### Picking a CPU -/

/-- A loop over CPUs that keeps the best load seen so far and the CPU it was
    seen on. -/
def KdsSched.scanLoads (s : KdsSched n) (better : UInt32 → UInt32 → Bool) :
    List (Fin n) → UInt32 → Option (Fin n) → UInt32 × Option (Fin n)
  | [], load, best_cpu => (load, best_cpu)
  | cpu :: rest, load, best_cpu =>
    if better (s.nr_running cpu) load then
      s.scanLoads better rest (s.nr_running cpu) (some cpu)
    else
      s.scanLoads better rest load best_cpu

/-- The search for `min_load` in `kds_select_cpu` and `kds_load_balance`. -/
def KdsSched.leastLoaded (s : KdsSched n) (cpus : List (Fin n)) : UInt32 × Option (Fin n) :=
  s.scanLoads (fun load min_load => load < min_load) cpus UINT_MAX none

/-- The search for `max_load` in `kds_load_balance`. -/
def KdsSched.mostLoaded (s : KdsSched n) (cpus : List (Fin n)) : UInt32 × Option (Fin n) :=
  s.scanLoads (fun load max_load => load > max_load) cpus 0 none

/-- `none` is `nr_cpu_ids`, what `cpumask_first` makes of an empty mask. -/
def kds_select_cpu (s : KdsSched n) (proc : KdsProc n) : Option (Fin n) :=
  let allowed := CpuMask.cpus proc.allowed_cpus
  let least := (s.leastLoaded allowed).2
  let preferred := proc.preferred_cpu.filter fun cpu =>
    proc.allowed_cpus cpu && decide (s.nr_running cpu < UINT_MAX)
  (preferred.or least).or allowed.head?

/-! ### The two containers -/

/-- The place an entry takes in the order of the tree: after the entries
    whose priority is not greater. -/
def kds_session_rb_insert (prio : ProcAddr → Int) (proc : ProcAddr) (root : List ProcAddr) :
    List ProcAddr :=
  root.orderedInsert (fun a b => prio a < prio b) proc

def kds_session_rb_remove (proc : ProcAddr) (root : List ProcAddr) : List ProcAddr :=
  root.erase proc

/-- The locked section that puts a proc on the queue of `cpu`. -/
def KdsSched.enqueue (s : KdsSched n) (cpu : Fin n) (p : ProcAddr) : KdsSched n :=
  let rq := s.kds_runqueues cpu
  match (s.procs p).kind with
  | .system =>
    ({ s with links := s.links.addTail (.proc p) (.head cpu) } : KdsSched n).setRq cpu
      { rq with nr_running := rq.nr_running + 1 }
  | .session =>
    s.setRq cpu
      { rq with
        session_procs :=
          kds_session_rb_insert (fun q => (s.procs q).static_prio) p rq.session_procs
        nr_running := rq.nr_running + 1 }

/-- The locked section that takes a proc off the queue of `cpu`. -/
def KdsSched.dequeue (s : KdsSched n) (cpu : Fin n) (p : ProcAddr) : KdsSched n :=
  let rq := s.kds_runqueues cpu
  match (s.procs p).kind with
  | .system =>
    ({ s with links := s.links.delInit (.proc p) } : KdsSched n).setRq cpu
      { rq with nr_running := rq.nr_running - 1 }
  | .session =>
    s.setRq cpu
      { rq with
        session_procs := kds_session_rb_remove p rq.session_procs
        nr_running := rq.nr_running - 1 }

/-! ### The calls -/

/-- The proc as `kds_proc_register` sets it up before it picks a CPU. -/
def KdsProc.readied (proc : KdsProc n) (pid : UInt64) (online : OnlineMask n) : KdsProc n :=
  { proc with
    state := .ready
    last_run_ns := 0
    total_runtime_ns := 0
    wait_time_ns := 0
    pid := pid
    running := false
    allowed_cpus := if cpumask_empty proc.allowed_cpus then online.mask else proc.allowed_cpus }

def kds_proc_register (online : OnlineMask n) (proc : Option ProcAddr) (s : KdsSched n) :
    Except Fault (Except Errno Unit × KdsSched n) :=
  match proc with
  | none => .ok (.error .EINVAL, s)
  | some p =>
    if (s.procs p).run = false then
      .ok (.error .EINVAL, s)
    else
      let readied := (s.procs p).readied s.kds_next_pid online
      match kds_select_cpu s readied with
      -- `per_cpu` of `nr_cpu_ids`
      | none => .error .outOfBounds
      | some cpu =>
        let s := { s with kds_next_pid := s.kds_next_pid + 1 }
        let s := s.setProc p { readied with cpu := cpu, preferred_cpu := some cpu }
        .ok (.ok (), s.enqueue cpu p)

def kds_proc_unregister (p : ProcAddr) (s : KdsSched n) : KdsSched n :=
  s.dequeue (s.procs p).cpu p

def kds_proc_set_affinity (proc : Option ProcAddr) (mask : CpuMask n) (s : KdsSched n) :
    Except Fault (Except Errno Unit × KdsSched n) :=
  match proc with
  | none => .ok (.error .EINVAL, s)
  | some p =>
    if cpumask_empty mask then
      .ok (.error .EINVAL, s)
    else
      let old_cpu := (s.procs p).cpu
      if mask old_cpu then
        .ok (.ok (), s.setProc p { s.procs p with allowed_cpus := mask })
      else
        let s := s.dequeue old_cpu p
        let narrowed := { s.procs p with allowed_cpus := mask }
        match kds_select_cpu s narrowed with
        | none => .error .outOfBounds
        | some new_cpu =>
          let s := (s.setProc p { narrowed with cpu := new_cpu }).enqueue new_cpu p
          .ok (.ok (), { s with migrations := s.migrations + 1 })

/-- `list_for_each_entry` over the system procs of `src_cpu`, up to the first
    proc that is not running and may run on `dst_cpu`. The cursor of a search
    that finds nobody is the list head. A list head of another queue is no
    proc, so reading its flags is an access outside any object. -/
def kds_find_movable (s : KdsSched n) (src_cpu dst_cpu : Fin n) :
    Nat → QueueNode n → Option (Except Fault (QueueNode n))
  | 0, _ => none
  | _ + 1, .head cpu =>
    if cpu = src_cpu then some (.ok (.head cpu)) else some (.error .outOfBounds)
  | fuel + 1, .proc p =>
    if (s.procs p).running = false ∧ (s.procs p).allowed_cpus dst_cpu = true then
      some (.ok (.proc p))
    else
      kds_find_movable s src_cpu dst_cpu fuel (s.links.next (.proc p))

/-- The store `proc->cpu = cpu` through the cursor. Through a list head it
    goes to memory before the run queue, which is no part of the model. -/
def KdsSched.setCursorCpu (s : KdsSched n) (cpu : Fin n) : QueueNode n → KdsSched n
  | .head _ => s
  | .proc p => s.setProc p { s.procs p with cpu := cpu }

/-- The migration at the end of `kds_load_balance`. The cursor is never null,
    so the test `if (proc)` always succeeds. -/
def kds_migrate (s : KdsSched n) (src_cpu dst_cpu : Fin n) (cursor : QueueNode n) :
    KdsSched n :=
  let src_rq := s.kds_runqueues src_cpu
  let s := ({ s with links := s.links.delInit cursor } : KdsSched n).setRq src_cpu
    { src_rq with nr_running := src_rq.nr_running - 1 }
  let dst_rq := s.kds_runqueues dst_cpu
  let s := ({ s with links := s.links.addTail cursor (.head dst_cpu) } : KdsSched n).setRq dst_cpu
    { dst_rq with nr_running := dst_rq.nr_running + 1 }
  let s := s.setCursorCpu dst_cpu cursor
  { s with load_balances := s.load_balances + 1, migrations := s.migrations + 1 }

/-- `fuel` bounds the walk over the list. -/
def kds_load_balance (fuel : Nat) (online : OnlineMask n) (s : KdsSched n) :
    Option (Except Fault (KdsSched n)) :=
  let most := s.mostLoaded (CpuMask.cpus online.mask)
  let least := s.leastLoaded (CpuMask.cpus online.mask)
  match most.2, least.2 with
  | some max_cpu, some min_cpu =>
    if most.1 - least.1 ≤ KDS_LOAD_BALANCE_THRESHOLD then
      some (.ok s)
    else
      match kds_find_movable s max_cpu min_cpu fuel (s.links.next (.head max_cpu)) with
      | none => none
      | some (.error e) => some (.error e)
      | some (.ok cursor) => some (.ok (kds_migrate s max_cpu min_cpu cursor))
  | _, _ => some (.ok s)

/-! ### Masks -/

@[simp] theorem CpuMask.mem_cpus (mask : CpuMask n) (cpu : Fin n) :
    cpu ∈ CpuMask.cpus mask ↔ mask cpu = true := by
  simp [CpuMask.cpus]

theorem CpuMask.cpus_sorted (mask : CpuMask n) : (CpuMask.cpus mask).Pairwise (· < ·) := by
  unfold CpuMask.cpus
  exact (List.pairwise_lt_finRange n).filter _

theorem cpumask_empty_iff (mask : CpuMask n) :
    cpumask_empty mask = true ↔ ∀ cpu, mask cpu = false := by
  simp [cpumask_empty, CpuMask.cpus]

/-! ### What the searches find -/

/-- The scan keeps its start values when no load is better, and else returns
    the first CPU with the best load. -/
theorem KdsSched.scanLoads_spec (s : KdsSched n) (better : UInt32 → UInt32 → Bool)
    (htrans : ∀ a b c, better a b = true → better b c = true → better a c = true)
    (hcut : ∀ a b c, better a c = true → better b c = false → better a b = true)
    (cpus : List (Fin n)) (load : UInt32) (best : Option (Fin n)) :
    (s.scanLoads better cpus load best = (load, best) ∧
        ∀ d ∈ cpus, better (s.nr_running d) load = false) ∨
      ∃ before cpu after, cpus = before ++ cpu :: after ∧
        s.scanLoads better cpus load best = (s.nr_running cpu, some cpu) ∧
        better (s.nr_running cpu) load = true ∧
        (∀ d ∈ before, better (s.nr_running cpu) (s.nr_running d) = true) ∧
        ∀ d ∈ after, better (s.nr_running d) (s.nr_running cpu) = false := by
  -- `load` is the best seen so far; the list is what the loop has not looked at
  induction cpus generalizing load best with
  | nil => left; simp [KdsSched.scanLoads]
  | cons cpu rest ih =>
    unfold KdsSched.scanLoads
    by_cases hb : better (s.nr_running cpu) load = true
    · rw [if_pos hb]
      right
      rcases ih (s.nr_running cpu) (some cpu) with
        ⟨heq, hnone⟩ | ⟨before, c, after, rfl, heq, hbet, hbefore, hafter⟩
      · exact ⟨[], cpu, rest, rfl, heq, hb, by simp, hnone⟩
      -- a later CPU beats the one just taken
      · refine ⟨cpu :: before, c, after, rfl, heq, htrans _ _ _ hbet hb, ?_, hafter⟩
        intro d hd
        rcases List.mem_cons.mp hd with rfl | hd
        · exact hbet
        · exact hbefore d hd
    · rw [if_neg hb]
      rw [Bool.not_eq_true] at hb
      rcases ih load best with ⟨heq, hnone⟩ | ⟨before, c, after, rfl, heq, hbet, hbefore, hafter⟩
      · left
        constructor
        · exact heq
        · intro d hd
          rcases List.mem_cons.mp hd with rfl | hd
          · exact hb
          · exact hnone d hd
      · right
        refine ⟨cpu :: before, c, after, rfl, heq, hbet, ?_, hafter⟩
        intro d hd
        rcases List.mem_cons.mp hd with rfl | hd
        · exact hcut _ _ _ hbet hb
        · exact hbefore d hd

/-- `cpu` is the first of the CPUs of `mask` with the greatest load. -/
structure Heaviest (s : KdsSched n) (mask : CpuMask n) (cpu : Fin n) : Prop where
  mem : mask cpu = true
  before : ∀ d, mask d = true → d < cpu → s.nr_running d < s.nr_running cpu
  after : ∀ d, mask d = true → cpu < d → s.nr_running d ≤ s.nr_running cpu

/-- `cpu` is the first of the CPUs of `mask` with the smallest load. -/
structure Lightest (s : KdsSched n) (mask : CpuMask n) (cpu : Fin n) : Prop where
  mem : mask cpu = true
  before : ∀ d, mask d = true → d < cpu → s.nr_running cpu < s.nr_running d
  after : ∀ d, mask d = true → cpu < d → s.nr_running cpu ≤ s.nr_running d

/-- In a sorted list split at `cpu`, the smaller entries stand before it and
    the greater ones after it. -/
theorem sorted_split {cpus before after : List (Fin n)} {cpu d : Fin n}
    (hs : cpus.Pairwise (· < ·)) (heq : cpus = before ++ cpu :: after) (hd : d ∈ cpus) :
    (d < cpu → d ∈ before) ∧ (cpu < d → d ∈ after) := by
  subst heq
  grind [List.pairwise_cons]

theorem mostLoaded_spec (s : KdsSched n) (mask : CpuMask n) :
    ((s.mostLoaded (CpuMask.cpus mask)).2 = none ∧ ∀ d, mask d = true → s.nr_running d = 0) ∨
      ∃ cpu, s.mostLoaded (CpuMask.cpus mask) = (s.nr_running cpu, some cpu) ∧
        Heaviest s mask cpu := by
  rcases s.scanLoads_spec (fun load max_load => load > max_load) (by simp; grind)
    (by simp; grind) (CpuMask.cpus mask) 0 none with
    ⟨heq, hnone⟩ | ⟨before, cpu, after, hcpus, heq, hbet, hbefore, hafter⟩
  · left
    constructor
    · unfold KdsSched.mostLoaded
      rw [heq]
    · intro d hd
      have := hnone d (by simpa using hd)
      grind
  · right
    have hsorted := CpuMask.cpus_sorted mask
    refine ⟨cpu, heq, ?_, ?_, ?_⟩
    · rw [← CpuMask.mem_cpus, hcpus]
      simp
    · intro d hd hlt
      simpa using hbefore d ((sorted_split hsorted hcpus (by simpa using hd)).1 hlt)
    · intro d hd hlt
      simpa using hafter d ((sorted_split hsorted hcpus (by simpa using hd)).2 hlt)

theorem leastLoaded_spec (s : KdsSched n) (mask : CpuMask n) :
    ((s.leastLoaded (CpuMask.cpus mask)).2 = none ∧
        ∀ d, mask d = true → s.nr_running d = UINT_MAX) ∨
      ∃ cpu, s.leastLoaded (CpuMask.cpus mask) = (s.nr_running cpu, some cpu) ∧
        Lightest s mask cpu := by
  rcases s.scanLoads_spec (fun load min_load => load < min_load) (by simp; grind)
    (by simp; grind) (CpuMask.cpus mask) UINT_MAX none with
    ⟨heq, hnone⟩ | ⟨before, cpu, after, hcpus, heq, hbet, hbefore, hafter⟩
  · left
    constructor
    · unfold KdsSched.leastLoaded
      rw [heq]
    · intro d hd
      have := hnone d (by simpa using hd)
      simp only [UINT_MAX] at this ⊢
      grind
  · right
    have hsorted := CpuMask.cpus_sorted mask
    refine ⟨cpu, heq, ?_, ?_, ?_⟩
    · rw [← CpuMask.mem_cpus, hcpus]
      simp
    · intro d hd hlt
      simpa using hbefore d ((sorted_split hsorted hcpus (by simpa using hd)).1 hlt)
    · intro d hd hlt
      simpa using hafter d ((sorted_split hsorted hcpus (by simpa using hd)).2 hlt)

/-- The CPU picked for a proc is one of its allowed CPUs. -/
theorem kds_select_cpu_allowed {s : KdsSched n} {proc : KdsProc n} {cpu : Fin n}
    (h : kds_select_cpu s proc = some cpu) : proc.allowed_cpus cpu = true := by
  unfold kds_select_cpu at h
  rw [Option.or_eq_some_iff, Option.or_eq_some_iff] at h
  rcases h with (hpref | ⟨-, hleast⟩) | ⟨-, hfirst⟩
  · have := (Option.filter_eq_some_iff.mp hpref).2
    simp at this
    exact this.1
  · rcases leastLoaded_spec s proc.allowed_cpus with ⟨hnone, -⟩ | ⟨c, heq, hc⟩
    · rw [hnone] at hleast
      cases hleast
    · rw [heq] at hleast
      cases hleast
      exact hc.mem
  · have := List.mem_of_mem_head? hfirst
    simpa using this

/-- A proc that may run somewhere gets a CPU. -/
theorem kds_select_cpu_isSome (s : KdsSched n) (proc : KdsProc n)
    (h : cpumask_empty proc.allowed_cpus = false) : ∃ cpu, kds_select_cpu s proc = some cpu := by
  cases hsel : kds_select_cpu s proc with
  | some cpu => exact ⟨cpu, rfl⟩
  | none =>
    unfold kds_select_cpu at hsel
    simp only [Option.or_eq_none_iff, List.head?_eq_none_iff] at hsel
    simp [cpumask_empty, hsel.2] at h

theorem readied_allowed (proc : KdsProc n) (pid : UInt64) (online : OnlineMask n) :
    cpumask_empty (proc.readied pid online).allowed_cpus = false := by
  unfold KdsProc.readied
  by_cases h : cpumask_empty proc.allowed_cpus = true
  · obtain ⟨cpu, hcpu⟩ := online.some_online
    rw [← Bool.not_eq_true, cpumask_empty_iff]
    intro hall
    simp [h] at hall
    exact absurd (hall cpu) (by simp [hcpu])
  · simp [h]

end Kds
