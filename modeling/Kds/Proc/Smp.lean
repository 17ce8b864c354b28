import Kds.Proc.Schedule

/-! # All CPUs at once

    Every CPU calls `kds_proc_schedule` in a loop, and any number of calls of
    `kds_load_balance` go on at the same time. A step is a locked section of
    one of them, or one look at a counter in the search for the loads, which
    takes no lock; between the two sections of a loop a proc runs, and
    between the two sections of a balancer a proc is on no queue.

    The run queues are set up by the calls of `runqueueSystem`, and from then
    on the set of registered procs stays the same.
-/

namespace Kds

open Dlist Fuel Lts

variable {n : Nat} {B : Type}

/-! ### The system -/

/-- Where the loop of a CPU stands. -/
inductive LoopPc where
  /-- Between two calls of `kds_proc_schedule`. -/
  | between
  /-- In `best->run(best, slice_ns)`. -/
  | run (best : ProcAddr) (fast_path : Bool) (start_ns : UInt64)

/-- Where a call of `kds_load_balance` stands. -/
inductive BalancePc (n : Nat) where
  | idle
  /-- In the loop over the CPUs, of which `todo` are left. -/
  | scan (todo : List (Fin n)) (max_load : UInt32) (max_cpu : Option (Fin n)) (min_load : UInt32)
      (min_cpu : Option (Fin n))
  /-- Before the lock of `max_cpu`. -/
  | chosen (max_cpu min_cpu : Fin n)
  /-- Between the locks. -/
  | transit (cursor : QueueNode n) (min_cpu : Fin n)

structure Smp (n : Nat) (B : Type) where
  sched : KdsSched n
  loops : Fin n → LoopPc
  balancers : B → BalancePc n

inductive SmpAct (n : Nat) (B : Type) where
  /-- The first section of `kds_proc_schedule`. -/
  | pick (cpu : Fin n) (online : OnlineMask n) (start_ns : UInt64)
  /-- The second section, when `run` has returned. -/
  | account (cpu : Fin n) (now_ns : UInt64)
  /-- A call of `kds_load_balance`. -/
  | balance (b : B) (online : OnlineMask n)
  /-- Its loop looks at the next CPU, or ends. -/
  | look (b : B)
  /-- Its first section: a proc is taken off. -/
  | take (b : B)
  /-- Its second section: the proc is put on. -/
  | put (b : B)

/-- The first locked section of `kds_load_balance`, behind the search. -/
def KdsSched.takeOff (s : KdsSched n) (src_cpu : Fin n) (cursor : QueueNode n) : KdsSched n :=
  let src_rq := s.kds_runqueues src_cpu
  ({ s with links := s.links.delInit cursor } : KdsSched n).setRq src_cpu
    { src_rq with nr_running := src_rq.nr_running - 1 }

/-- The second locked section of `kds_load_balance`, and the counters behind it. -/
def KdsSched.putOn (s : KdsSched n) (dst_cpu : Fin n) (cursor : QueueNode n) : KdsSched n :=
  let dst_rq := s.kds_runqueues dst_cpu
  let s := ({ s with links := s.links.addTail cursor (.head dst_cpu) } : KdsSched n).setRq dst_cpu
    { dst_rq with nr_running := dst_rq.nr_running + 1 }
  let s := s.setCursorCpu dst_cpu cursor
  { s with load_balances := s.load_balances + 1, migrations := s.migrations + 1 }

/-- With nothing in between the two sections are the migration of `kds_load_balance`. -/
theorem kds_migrate_sections (s : KdsSched n) (src_cpu dst_cpu : Fin n) (cursor : QueueNode n) :
    kds_migrate s src_cpu dst_cpu cursor = (s.takeOff src_cpu cursor).putOn dst_cpu cursor := rfl

/-- One round of the loop over the CPUs, or the test behind it. -/
def BalancePc.look (s : KdsSched n) : BalancePc n → BalancePc n
  | .scan (cpu :: todo) max_load max_cpu min_load min_cpu =>
    let load := s.nr_running cpu
    .scan todo (if load > max_load then load else max_load)
      (if load > max_load then some cpu else max_cpu) (if load < min_load then load else min_load)
      (if load < min_load then some cpu else min_cpu)
  | .scan [] max_load (some max_cpu) min_load (some min_cpu) =>
    if max_load - min_load ≤ KDS_LOAD_BALANCE_THRESHOLD then .idle else .chosen max_cpu min_cpu
  | .scan [] _ _ _ _ => .idle
  | pc => pc

/-- The call of `run` of proc `p` is executing on `cpu`. -/
def Smp.Runs (st : Smp n B) (cpu : Fin n) (p : ProcAddr) : Prop :=
  ∃ fast_path start_ns, st.loops cpu = .run p fast_path start_ns

/-- Balancer `b` has taken `p` off a queue and not put it on the other yet. -/
def Smp.InTransit (st : Smp n B) (b : B) (p : ProcAddr) : Prop :=
  ∃ cpu, st.balancers b = .transit (.proc p) cpu

/-- The search of a balancer finds an eligible proc. -/
def Smp.FindsProc (st : Smp n B) : SmpAct n B → Prop
  | .take b => ∀ max_cpu min_cpu fuel cursor, st.balancers b = .chosen max_cpu min_cpu →
      kds_find_movable st.sched max_cpu min_cpu fuel (st.sched.links.next (.head max_cpu)) =
        some (.ok cursor) →
      ∃ p, cursor = .proc p
  | _ => True

/-- A section of the loop of `cpu`. -/
def Smp.setLoop (st : Smp n B) (cpu : Fin n) (pc : LoopPc) (s : KdsSched n) : Smp n B :=
  { st with sched := s, loops := Function.update st.loops cpu pc }

/-- A step of balancer `b`. -/
def Smp.setBalancer [DecidableEq B] (st : Smp n B) (b : B) (pc : BalancePc n) (s : KdsSched n) :
    Smp n B :=
  { st with sched := s, balancers := Function.update st.balancers b pc }

inductive Smp.Step [DecidableEq B] (st : Smp n B) : SmpAct n B → Smp n B → Prop where
  /-- Nobody can be picked: the call returns. -/
  | pick_none (cpu : Fin n) (online : OnlineMask n) (start_ns : UInt64) (fuel : Nat)
      (s : KdsSched n) :
      st.loops cpu = .between → kds_proc_pick fuel online cpu st.sched = some (.ok (none, s)) →
      st.Step (.pick cpu online start_ns) (st.setLoop cpu .between s)
  | pick (cpu : Fin n) (online : OnlineMask n) (start_ns : UInt64) (fuel : Nat) (best : ProcAddr)
      (fast_path : Bool) (s : KdsSched n) :
      st.loops cpu = .between →
      kds_proc_pick fuel online cpu st.sched = some (.ok (some (best, fast_path), s)) →
      st.Step (.pick cpu online start_ns) (st.setLoop cpu (.run best fast_path start_ns) s)
  | account (cpu : Fin n) (now_ns : UInt64) (fuel : Nat) (best : ProcAddr) (fast_path : Bool)
      (start_ns : UInt64) (s : KdsSched n) :
      st.loops cpu = .run best fast_path start_ns →
      kds_proc_account fuel cpu best fast_path (now_ns - start_ns) st.sched = some (.ok s) →
      st.Step (.account cpu now_ns) (st.setLoop cpu .between s)
  | balance (b : B) (online : OnlineMask n) :
      st.balancers b = .idle →
      st.Step (.balance b online)
        (st.setBalancer b (.scan (CpuMask.cpus online.mask) 0 none UINT_MAX none) st.sched)
  | look (b : B) (todo : List (Fin n)) (max_load min_load : UInt32)
      (max_cpu min_cpu : Option (Fin n)) :
      st.balancers b = .scan todo max_load max_cpu min_load min_cpu →
      st.Step (.look b) (st.setBalancer b ((st.balancers b).look st.sched) st.sched)
  | take (b : B) (max_cpu min_cpu : Fin n) (fuel : Nat) (cursor : QueueNode n) :
      st.balancers b = .chosen max_cpu min_cpu →
      kds_find_movable st.sched max_cpu min_cpu fuel (st.sched.links.next (.head max_cpu)) =
        some (.ok cursor) →
      st.Step (.take b)
        (st.setBalancer b (.transit cursor min_cpu) (st.sched.takeOff max_cpu cursor))
  | put (b : B) (cursor : QueueNode n) (min_cpu : Fin n) :
      st.balancers b = .transit cursor min_cpu →
      st.Step (.put b) (st.setBalancer b .idle (st.sched.putOn min_cpu cursor))

/-- The system procs `R` are on the queues, nobody runs, and the loops begin. -/
def smpSystem (n : Nat) (B : Type) [DecidableEq B] (R : Set ProcAddr) :
    System (Smp n B) (SmpAct n B) where
  init st :=
    (∃ lists, Queues st.sched.links lists ∧ ∀ p, p ∈ R ↔ ∃ cpu, p ∈ lists cpu) ∧
      (∀ p ∈ R, (st.sched.procs p).running = false) ∧ (∀ cpu, st.sched.curr_proc cpu = none) ∧
      (∀ cpu, st.loops cpu = .between) ∧ ∀ b, st.balancers b = .idle
  step st act st' := st.Step act st'

/-! ### Projections -/

section projections

variable (st : Smp n B) (cpu c : Fin n) (pc : LoopPc) (s : KdsSched n) (b d : B)
  (bpc : BalancePc n) (p q : ProcAddr)

@[simp] theorem setLoop_sched : (st.setLoop cpu pc s).sched = s := rfl

@[simp] theorem setLoop_loops :
    (st.setLoop cpu pc s).loops c = if c = cpu then pc else st.loops c :=
  Function.update_apply ..

theorem runs_setLoop (hc : c ≠ cpu) : (st.setLoop cpu pc s).Runs c p ↔ st.Runs c p := by
  unfold Smp.Runs
  rw [setLoop_loops, if_neg hc]

@[simp] theorem inTransit_setLoop : (st.setLoop cpu pc s).InTransit b p ↔ st.InTransit b p :=
  Iff.rfl

@[simp] theorem setBalancer_sched [DecidableEq B] : (st.setBalancer b bpc s).sched = s := rfl

@[simp] theorem setBalancer_balancers [DecidableEq B] :
    (st.setBalancer b bpc s).balancers d = if d = b then bpc else st.balancers d :=
  Function.update_apply ..

@[simp] theorem runs_setBalancer [DecidableEq B] :
    (st.setBalancer b bpc s).Runs c p ↔ st.Runs c p :=
  Iff.rfl

theorem inTransit_setBalancer [DecidableEq B] (hd : d ≠ b) :
    (st.setBalancer b bpc s).InTransit d p ↔ st.InTransit d p := by
  unfold Smp.InTransit
  rw [setBalancer_balancers, if_neg hd]

@[simp] theorem takeOff_links (cursor : QueueNode n) :
    (s.takeOff c cursor).links = s.links.delInit cursor := rfl

@[simp] theorem takeOff_procs (cursor : QueueNode n) : (s.takeOff c cursor).procs = s.procs := rfl

@[simp] theorem takeOff_curr_proc (cursor : QueueNode n) :
    (s.takeOff c cursor).curr_proc cpu = s.curr_proc cpu := by
  unfold KdsSched.takeOff KdsSched.curr_proc KdsSched.setRq
  by_cases hc : cpu = c <;> simp [hc]

@[simp] theorem putOn_links : (s.putOn c (.proc p)).links = s.links.addTail (.proc p) (.head c) :=
  rfl

@[simp] theorem putOn_running :
    ((s.putOn c (.proc p)).procs q).running = (s.procs q).running := by
  unfold KdsSched.putOn KdsSched.setCursorCpu KdsSched.setProc KdsSched.setRq
  by_cases hq : q = p <;> simp [hq]

@[simp] theorem putOn_curr_proc :
    (s.putOn c (.proc p)).curr_proc cpu = s.curr_proc cpu := by
  unfold KdsSched.putOn KdsSched.curr_proc KdsSched.setCursorCpu KdsSched.setProc KdsSched.setRq
  by_cases hc : cpu = c <;> simp [hc]

/-- The search takes no proc. -/
theorem look_ne_transit (todo : List (Fin n)) (max_load min_load : UInt32)
    (max_cpu min_cpu : Option (Fin n)) (cursor : QueueNode n) (cpu : Fin n) :
    (BalancePc.scan todo max_load max_cpu min_load min_cpu).look s ≠ .transit cursor cpu := by
  unfold BalancePc.look
  cases todo with
  | cons c todo => nofun
  | nil =>
    cases max_cpu with
    | none => nofun
    | some src_cpu =>
      cases min_cpu with
      | none => nofun
      | some dst_cpu =>
        dsimp only
        split <;> nofun

end projections

/-! ### Invariant -/

/-- Who is where: every proc of `R` is on one list or with one balancer, and
    marked exactly while a CPU runs it, which is the CPU whose list it is on. -/
structure SmpInv (R : Set ProcAddr) (st : Smp n B) (lists : Fin n → List ProcAddr) : Prop where
  queues : Queues st.sched.links lists
  between : ∀ cpu, st.loops cpu = .between → st.sched.curr_proc cpu = none
  run : ∀ cpu best fast_path start_ns, st.loops cpu = .run best fast_path start_ns →
    best ∈ lists cpu ∧ fast_path = false
  marked : ∀ p ∈ R, (st.sched.procs p).running = true ↔ ∃ cpu, st.Runs cpu p
  cursor : ∀ b cursor cpu, st.balancers b = .transit cursor cpu → ∃ p, cursor = .proc p
  place : ∀ p, p ∈ R ↔ (∃ cpu, p ∈ lists cpu) ∨ ∃ b, st.InTransit b p
  off : ∀ b p, st.InTransit b p → ∀ cpu, p ∉ lists cpu
  apart : ∀ b c p, st.InTransit b p → st.InTransit c p → b = c

section invariant

variable {R : Set ProcAddr} {st : Smp n B} {lists : Fin n → List ProcAddr}

theorem SmpInv.runs_mem (h : SmpInv R st lists) {cpu : Fin n} {p : ProcAddr}
    (hrun : st.Runs cpu p) : p ∈ lists cpu := by
  obtain ⟨fast_path, start_ns, hloop⟩ := hrun
  exact (h.run _ _ _ _ hloop).1

theorem SmpInv.one_cpu (h : SmpInv R st lists) {cpu c : Fin n} {p : ProcAddr}
    (hcpu : st.Runs cpu p) (hc : st.Runs c p) : cpu = c :=
  h.queues.disjoint cpu c p (h.runs_mem hcpu) (h.runs_mem hc)

theorem SmpInv.init [DecidableEq B] (h : (smpSystem n B R).init st) :
    ∃ lists, SmpInv R st lists := by
  obtain ⟨⟨lists, hqueues, hmem⟩, hidle, hcurr, hloops, hbal⟩ := h
  have hruns : ∀ cpu p, ¬ st.Runs cpu p := by
    rintro cpu p ⟨fast_path, start_ns, hloop⟩
    rw [hloops cpu] at hloop
    cases hloop
  have htransit : ∀ b p, ¬ st.InTransit b p := by
    rintro b p ⟨cpu, hb⟩
    rw [hbal b] at hb
    cases hb
  refine ⟨lists, hqueues, fun cpu _ => hcurr cpu, ?_, ?_, ?_, ?_, ?_, ?_⟩
  · intro cpu best fast_path start_ns hloop
    exact absurd ⟨fast_path, start_ns, hloop⟩ (hruns cpu best)
  · intro p hp
    rw [hidle p hp]
    exact iff_of_false (by simp) fun ⟨cpu, hrun⟩ => hruns cpu p hrun
  · intro b cursor cpu hb
    rw [hbal b] at hb
    cases hb
  · intro p
    rw [hmem p]
    exact ⟨.inl, fun hplace => hplace.resolve_right fun ⟨b, hb⟩ => htransit b p hb⟩
  · exact fun b p hb => absurd hb (htransit b p)
  · exact fun b c p hb => absurd hb (htransit b p)

/-! ### The loops -/

/-- Between two calls `curr_proc` is null, and so the fast path is never taken. -/
theorem SmpInv.pick_eq (h : SmpInv R st lists) {cpu : Fin n} {online : OnlineMask n} {fuel : Nat}
    {r : Except Fault (Option (ProcAddr × Bool) × KdsSched n)} (hloop : st.loops cpu = .between)
    (hpick : kds_proc_pick fuel online cpu st.sched = some r) :
    r = .ok (none, st.sched) ∨ ∃ p, r = .ok (some (p, false), st.sched.start cpu p) ∧
      FirstBest st.sched (lists cpu) p := by
  have hfast := KdsSched.fastPath_none (h.between cpu hloop) online
  have hr := (kds_proc_pick_settles (h.queues.ring cpu) hfast).only fuel r hpick
  rcases st.sched.best_spec (lists cpu) INT_MIN none with ⟨heq, -⟩ | ⟨p, heq, -, hbest⟩
  · rw [heq] at hr
    exact .inl hr
  · rw [heq] at hr
    exact .inr ⟨p, hr, hbest⟩

/-- What is left to show about a section of a loop: nothing moves between the queues. -/
theorem SmpInv.setLoop (h : SmpInv R st lists) {cpu : Fin n} {pc : LoopPc} {s : KdsSched n}
    (hlinks : s.links = st.sched.links)
    (hcurr : ∀ c, c ≠ cpu → s.curr_proc c = st.sched.curr_proc c)
    (hbetween : pc = .between → s.curr_proc cpu = none)
    (hrun : ∀ best fast_path start_ns, pc = .run best fast_path start_ns →
      best ∈ lists cpu ∧ fast_path = false)
    (hmarked : ∀ p ∈ R, (s.procs p).running = true ↔ ∃ c, (st.setLoop cpu pc s).Runs c p) :
    SmpInv R (st.setLoop cpu pc s) lists := by
  constructor
  · rw [setLoop_sched, hlinks]
    exact h.queues
  · intro c hc
    rw [setLoop_loops] at hc
    by_cases hcc : c = cpu
    · subst hcc
      rw [if_pos rfl] at hc
      exact hbetween hc
    · rw [if_neg hcc] at hc
      rw [setLoop_sched, hcurr c hcc]
      exact h.between c hc
  · intro c best fast_path t hc
    rw [setLoop_loops] at hc
    by_cases hcc : c = cpu
    · subst hcc
      rw [if_pos rfl] at hc
      exact hrun best fast_path t hc
    · rw [if_neg hcc] at hc
      exact h.run c best fast_path t hc
  · exact hmarked
  · exact h.cursor
  · exact h.place
  · exact h.off
  · exact h.apart

theorem SmpInv.pick (h : SmpInv R st lists) {cpu : Fin n} {p : ProcAddr} (start_ns : UInt64)
    (hloop : st.loops cpu = .between) (hbest : FirstBest st.sched (lists cpu) p) :
    SmpInv R (st.setLoop cpu (.run p false start_ns) (st.sched.start cpu p)) lists := by
  refine h.setLoop rfl (fun c hc => by simp [hc]) (by simp) ?_ ?_
  · intro best fast_path t hpc
    cases hpc
    exact ⟨hbest.mem, rfl⟩
  · intro q hq
    rw [KdsSched.start_procs]
    by_cases hqp : q = p
    · subst hqp
      rw [if_pos rfl]
      exact iff_of_true rfl ⟨cpu, false, start_ns, by simp⟩
    · rw [if_neg hqp, h.marked q hq]
      -- `cpu` ran nobody before and does not run `q` now
      constructor
      · rintro ⟨c, fast_path, t, hc⟩
        have hcc : c ≠ cpu := by
          rintro rfl
          rw [hloop] at hc
          cases hc
        exact ⟨c, (runs_setLoop _ _ _ _ _ _ hcc).mpr ⟨fast_path, t, hc⟩⟩
      · rintro ⟨c, hrun⟩
        have hcc : c ≠ cpu := by
          rintro rfl
          obtain ⟨fast_path, t, hc⟩ := hrun
          rw [setLoop_loops, if_pos rfl] at hc
          cases hc
          exact hqp rfl
        exact ⟨c, (runs_setLoop _ _ _ _ _ _ hcc).mp hrun⟩

theorem SmpInv.account (h : SmpInv R st lists) {cpu : Fin n} {p : ProcAddr} {fast_path : Bool}
    {start_ns : UInt64} (hloop : st.loops cpu = .run p fast_path start_ns)
    (elapsed_ns executed_pid : UInt64) :
    SmpInv R (st.setLoop cpu .between
      ((st.sched.agedAll (lists cpu) elapsed_ns executed_pid).stop cpu p fast_path elapsed_ns))
      lists := by
  obtain ⟨-, rfl⟩ := h.run _ _ _ _ hloop
  refine h.setLoop rfl (fun c hc => by simp [hc]) (fun _ => by simp) (by simp) ?_
  intro q hq
  have hruns : (∃ c, (st.setLoop cpu .between ((st.sched.agedAll (lists cpu) elapsed_ns
      executed_pid).stop cpu p false elapsed_ns)).Runs c q) ↔ (∃ c, st.Runs c q) ∧ q ≠ p := by
    constructor
    · rintro ⟨c, hrun⟩
      have hcc : c ≠ cpu := by
        rintro rfl
        obtain ⟨fast_path, t, hc⟩ := hrun
        rw [setLoop_loops, if_pos rfl] at hc
        cases hc
      rw [runs_setLoop _ _ _ _ _ _ hcc] at hrun
      refine ⟨⟨c, hrun⟩, ?_⟩
      rintro rfl
      exact hcc (h.one_cpu hrun ⟨_, _, hloop⟩)
    · rintro ⟨⟨c, fast_path, t, hc⟩, hqp⟩
      have hcc : c ≠ cpu := by
        rintro rfl
        rw [hloop] at hc
        cases hc
        exact hqp rfl
      exact ⟨c, (runs_setLoop _ _ _ _ _ _ hcc).mpr ⟨fast_path, t, hc⟩⟩
  rw [hruns, ← h.marked q hq, KdsSched.stop_procs]
  by_cases hqp : q = p
  · simp [hqp]
  · rw [if_neg hqp, KdsSched.agedAll_procs]
    by_cases hmem : q ∈ lists cpu <;> simp [hmem, hqp]

/-! ### The balancers -/

variable [DecidableEq B]

/-- A step of a balancer that has no proc before it and none behind it. -/
theorem SmpInv.search (h : SmpInv R st lists) {b : B} {pc : BalancePc n}
    (hbefore : ∀ cursor cpu, st.balancers b ≠ .transit cursor cpu)
    (hbehind : ∀ cursor cpu, pc ≠ .transit cursor cpu) :
    SmpInv R (st.setBalancer b pc st.sched) lists := by
  have htransit : ∀ d p, (st.setBalancer b pc st.sched).InTransit d p ↔ st.InTransit d p := by
    intro d p
    by_cases hd : d = b
    · subst hd
      unfold Smp.InTransit
      rw [setBalancer_balancers, if_pos rfl]
      exact iff_of_false (fun ⟨cpu, hpc⟩ => hbehind _ cpu hpc) fun ⟨cpu, hpc⟩ => hbefore _ cpu hpc
    · exact inTransit_setBalancer _ _ _ _ _ _ hd
  constructor
  · exact h.queues
  · exact h.between
  · exact h.run
  · exact h.marked
  · intro d cursor cpu hd
    rw [setBalancer_balancers] at hd
    by_cases hdb : d = b
    · rw [if_pos hdb] at hd
      exact absurd hd (hbehind cursor cpu)
    · rw [if_neg hdb] at hd
      exact h.cursor d cursor cpu hd
  · simpa only [htransit] using h.place
  · simpa only [htransit] using h.off
  · simpa only [htransit] using h.apart

/-- A search that ends at a proc ends at one of the list that may be moved. -/
theorem kds_find_movable_proc {s : KdsSched n} {src_cpu dst_cpu : Fin n} {procs : List ProcAddr}
    {x : QueueNode n} {fuel : Nat} {p : ProcAddr}
    (hseg : s.links.Seg x (procs.map .proc) (.head src_cpu))
    (hfind : kds_find_movable s src_cpu dst_cpu fuel (s.links.next x) = some (.ok (.proc p))) :
    p ∈ procs ∧ (s.procs p).running = false := by
  induction procs generalizing x fuel with
  | nil =>
    have hnext : s.links.next x = .head src_cpu := hseg.1
    rw [hnext] at hfind
    cases fuel with
    | zero => cases hfind
    | succ fuel =>
      rw [kds_find_movable, if_pos rfl] at hfind
      cases hfind
  | cons a rest ih =>
    have hnext : s.links.next x = .proc a := hseg.1.1
    rw [hnext] at hfind
    cases fuel with
    | zero => cases hfind
    | succ fuel =>
      rw [kds_find_movable] at hfind
      by_cases ha : (s.procs a).running = false ∧ (s.procs a).allowed_cpus dst_cpu = true
      · rw [if_pos ha] at hfind
        cases hfind
        exact ⟨List.mem_cons_self, ha.1⟩
      · rw [if_neg ha] at hfind
        obtain ⟨hp, hidle⟩ := ih hseg.2 hfind
        exact ⟨List.mem_cons_of_mem _ hp, hidle⟩

/-- The first section takes a proc that does not run from its list. -/
theorem SmpInv.take (h : SmpInv R st lists) {b : B} {src_cpu dst_cpu : Fin n} {p : ProcAddr}
    (hpc : st.balancers b = .chosen src_cpu dst_cpu) (hp : p ∈ lists src_cpu)
    (hidle : (st.sched.procs p).running = false) :
    SmpInv R
      (st.setBalancer b (.transit (.proc p) dst_cpu) (st.sched.takeOff src_cpu (.proc p)))
      (Function.update lists src_cpu ((lists src_cpu).erase p)) := by
  have hnd := ring_procs_nodup (h.queues.ring src_cpu)
  -- `p` is on no list any more, and in transit with `b` only
  have hlist : ∀ c q, q ∈ Function.update lists src_cpu ((lists src_cpu).erase p) c ↔
      q ∈ lists c ∧ q ≠ p := by
    intro c q
    by_cases hc : c = src_cpu
    · subst hc
      rw [Function.update_self, hnd.mem_erase_iff, and_comm]
    · rw [Function.update_of_ne hc]
      refine ⟨fun hq => ⟨hq, ?_⟩, fun hq => hq.1⟩
      rintro rfl
      exact hc (h.queues.disjoint c src_cpu q hq hp)
  have htransit : ∀ d q, (st.setBalancer b (.transit (.proc p) dst_cpu)
      (st.sched.takeOff src_cpu (.proc p))).InTransit d q ↔
      st.InTransit d q ∨ d = b ∧ q = p := by
    intro d q
    by_cases hd : d = b
    · subst hd
      have hnone : ¬ st.InTransit d q := by
        rintro ⟨cpu, hd⟩
        rw [hpc] at hd
        cases hd
      unfold Smp.InTransit
      rw [setBalancer_balancers, if_pos rfl]
      constructor
      · rintro ⟨cpu, heq⟩
        cases heq
        exact .inr ⟨rfl, rfl⟩
      · rintro (hd | ⟨-, rfl⟩)
        · exact absurd hd hnone
        · exact ⟨dst_cpu, rfl⟩
    · rw [inTransit_setBalancer _ _ _ _ _ _ hd]
      simp [hd]
  have hR : p ∈ R := (h.place p).mpr (.inl ⟨src_cpu, hp⟩)
  constructor
  · exact h.queues.delInit hp
  · intro cpu hcpu
    rw [setBalancer_sched, takeOff_curr_proc]
    exact h.between cpu hcpu
  · intro cpu best fast_path t hloop
    obtain ⟨hmem, hfast⟩ := h.run cpu best fast_path t hloop
    refine ⟨(hlist cpu best).mpr ⟨hmem, ?_⟩, hfast⟩
    -- a proc that a CPU has chosen is marked running, and `p` is not
    rintro rfl
    have hmark := (h.marked best hR).mpr ⟨cpu, fast_path, t, hloop⟩
    rw [hidle] at hmark
    cases hmark
  · exact h.marked
  · intro d cursor cpu hd
    rw [setBalancer_balancers] at hd
    by_cases hdb : d = b
    · rw [if_pos hdb] at hd
      cases hd
      exact ⟨p, rfl⟩
    · rw [if_neg hdb] at hd
      exact h.cursor d cursor cpu hd
  · intro q
    simp only [hlist, htransit]
    by_cases hqp : q = p
    · subst hqp
      exact iff_of_true hR (.inr ⟨b, .inr ⟨rfl, rfl⟩⟩)
    · simpa [hqp] using h.place q
  · intro d q hd cpu hq
    rw [htransit] at hd
    rw [hlist] at hq
    rcases hd with hd | ⟨-, rfl⟩
    · exact h.off d q hd cpu hq.1
    · exact hq.2 rfl
  · intro d e q hd he
    rw [htransit] at hd he
    -- no balancer had `p` while it was on its list
    rcases hd with hd | ⟨rfl, rfl⟩ <;> rcases he with he | ⟨rfl, heq⟩
    · exact h.apart d e q hd he
    · exact absurd hp (heq ▸ h.off d q hd src_cpu)
    · exact absurd hp (h.off e q he src_cpu)
    · rfl

/-- The second section puts it on the other list. -/
theorem SmpInv.put (h : SmpInv R st lists) {b : B} {dst_cpu : Fin n} {p : ProcAddr}
    (hpc : st.balancers b = .transit (.proc p) dst_cpu) :
    SmpInv R (st.setBalancer b .idle (st.sched.putOn dst_cpu (.proc p)))
      (Function.update lists dst_cpu (lists dst_cpu ++ [p])) := by
  have hb : st.InTransit b p := ⟨dst_cpu, hpc⟩
  -- `p` is on its new list, and nobody has it in transit
  have hlist : ∀ c q, q ∈ Function.update lists dst_cpu (lists dst_cpu ++ [p]) c ↔
      q ∈ lists c ∨ q = p ∧ c = dst_cpu := by
    intro c q
    by_cases hc : c = dst_cpu
    · subst hc
      simp
    · rw [Function.update_of_ne hc]
      simp [hc]
  have htransit : ∀ d q, (st.setBalancer b .idle (st.sched.putOn dst_cpu (.proc p))).InTransit d q ↔
      st.InTransit d q ∧ d ≠ b := by
    intro d q
    by_cases hd : d = b
    · subst hd
      unfold Smp.InTransit
      rw [setBalancer_balancers, if_pos rfl]
      simp
    · rw [inTransit_setBalancer _ _ _ _ _ _ hd]
      simp [hd]
  have hR : p ∈ R := (h.place p).mpr (.inr ⟨b, hb⟩)
  constructor
  · exact h.queues.addTail (h.off b p hb)
  · intro cpu hcpu
    rw [setBalancer_sched, putOn_curr_proc]
    exact h.between cpu hcpu
  · intro cpu best fast_path t hloop
    obtain ⟨hmem, hfast⟩ := h.run cpu best fast_path t hloop
    exact ⟨(hlist cpu best).mpr (.inl hmem), hfast⟩
  · intro q hq
    rw [setBalancer_sched, putOn_running]
    exact h.marked q hq
  · intro d cursor cpu hd
    rw [setBalancer_balancers] at hd
    by_cases hdb : d = b
    · rw [if_pos hdb] at hd
      cases hd
    · rw [if_neg hdb] at hd
      exact h.cursor d cursor cpu hd
  · intro q
    simp only [hlist, htransit]
    by_cases hqp : q = p
    · subst hqp
      exact iff_of_true hR (.inl ⟨dst_cpu, .inr ⟨rfl, rfl⟩⟩)
    · rw [h.place q]
      -- `b` carried `p` and nothing else
      have hne : ∀ d, st.InTransit d q → d ≠ b := by
        rintro d ⟨cpu, hd⟩ rfl
        rw [hpc] at hd
        cases hd
        exact hqp rfl
      constructor
      · rintro (⟨cpu, hq⟩ | ⟨d, hd⟩)
        · exact .inl ⟨cpu, .inl hq⟩
        · exact .inr ⟨d, hd, hne d hd⟩
      · rintro (⟨cpu, hq | ⟨heq, -⟩⟩ | ⟨d, hd, -⟩)
        · exact .inl ⟨cpu, hq⟩
        · exact absurd heq hqp
        · exact .inr ⟨d, hd⟩
  · intro d q hd cpu hq
    rw [htransit] at hd
    rw [hlist] at hq
    rcases hq with hq | ⟨rfl, rfl⟩
    · exact h.off d q hd.1 cpu hq
    · exact hd.2 (h.apart d b q hd.1 hb)
  · intro d e q hd he
    rw [htransit] at hd he
    exact h.apart d e q hd.1 he.1

/-! ### Runs -/

/-- **Step**: every section keeps everybody in one place. -/
theorem SmpInv.step {st' : Smp n B} {act : SmpAct n B} (h : SmpInv R st lists)
    (hstep : st.Step act st') (hfinds : st.FindsProc act) : ∃ lists', SmpInv R st' lists' := by
  cases hstep with
  | pick_none cpu online start_ns fuel s hloop hpick =>
    rcases h.pick_eq hloop hpick with heq | ⟨p, heq, -⟩
    · cases heq
      have hsame : st.setLoop cpu .between st.sched = st := by
        unfold Smp.setLoop
        rw [← hloop, Function.update_eq_self]
      rw [hsame]
      exact ⟨lists, h⟩
    · cases heq
  | pick cpu online start_ns fuel best fast_path s hloop hpick =>
    rcases h.pick_eq hloop hpick with heq | ⟨p, heq, hbest⟩
    · cases heq
    · cases heq
      exact ⟨lists, h.pick start_ns hloop hbest⟩
  | account cpu now_ns fuel best fast_path start_ns s hloop hacc =>
    have heq := (kds_proc_account_settles (h.queues.ring cpu)).only fuel _ hacc
    cases heq
    exact ⟨lists, h.account hloop _ _⟩
  | balance b online hb =>
    exact ⟨lists, h.search (fun _ _ => by rw [hb]; nofun) nofun⟩
  | look b todo max_load min_load max_cpu min_cpu hb =>
    refine ⟨lists, h.search (fun _ _ => by rw [hb]; nofun) ?_⟩
    rw [hb]
    exact look_ne_transit _ _ _ _ _ _
  | take b max_cpu min_cpu fuel cursor hb hfind =>
    obtain ⟨p, rfl⟩ := hfinds max_cpu min_cpu fuel cursor hb hfind
    obtain ⟨hp, hidle⟩ := kds_find_movable_proc (h.queues.ring max_cpu).seg hfind
    exact ⟨_, h.take hb hp hidle⟩
  | put b cursor min_cpu hb =>
    obtain ⟨p, rfl⟩ := h.cursor b cursor min_cpu hb
    exact ⟨_, h.put hb⟩

theorem SmpInv.reachable (h : ((smpSystem n B R).restrict Smp.FindsProc).Reachable st) :
    ∃ lists, SmpInv R st lists := by
  apply h.invariant (fun st => ∃ lists, SmpInv R st lists)
  · exact fun st hinit => SmpInv.init hinit
  · rintro st act st' ⟨lists, hinv⟩ ⟨hstep, hfinds⟩
    exact hinv.step hstep hfinds

/-- **One CPU**: in every state that the loops and the balancers reach, a proc
    runs on one CPU at most and is marked exactly while it runs, and every
    registered proc is on one list or with one balancer. -/
theorem proc_on_one_cpu (h : ((smpSystem n B R).restrict Smp.FindsProc).Reachable st) :
    ∃ lists : Fin n → List ProcAddr,
      (∀ cpu, st.sched.links.Ring (.head cpu) ((lists cpu).map .proc)) ∧
      (∀ cpu p, st.Runs cpu p → p ∈ R) ∧
      ∀ p ∈ R,
        (∀ cpu c, st.Runs cpu p → st.Runs c p → cpu = c) ∧
        ((st.sched.procs p).running = true ↔ ∃ cpu, st.Runs cpu p) ∧
        ((∃! cpu, p ∈ lists cpu) ∧ (∀ b, ¬ st.InTransit b p) ∨
          (∀ cpu, p ∉ lists cpu) ∧ ∃! b, st.InTransit b p) := by
  obtain ⟨lists, hinv⟩ := SmpInv.reachable h
  refine ⟨lists, hinv.queues.ring, ?_, ?_⟩
  · intro cpu p hrun
    exact (hinv.place p).mpr (.inl ⟨cpu, hinv.runs_mem hrun⟩)
  · intro p hp
    refine ⟨fun cpu c => hinv.one_cpu, hinv.marked p hp, ?_⟩
    rcases (hinv.place p).mp hp with ⟨cpu, hcpu⟩ | ⟨b, hb⟩
    · left
      refine ⟨⟨cpu, hcpu, fun c hc => hinv.queues.disjoint c cpu p hc hcpu⟩, ?_⟩
      exact fun b hb => hinv.off b p hb cpu hcpu
    · right
      exact ⟨hinv.off b p hb, b, hb, fun c hc => hinv.apart c b p hc hb⟩

end invariant

/-! ### From registration on -/

/-- The loops and the balancers begin. -/
def Smp.begin (s : KdsSched n) : Smp n B where
  sched := s
  loops _ := .between
  balancers _ := .idle

/-- After any calls that set up the queues the loops may begin. -/
theorem registered_smp_init [DecidableEq B] {st : SchedRun n}
    (h : ((runqueueSystem n).restrict SchedRun.CallOk).Reachable st)
    (hsystem : ∀ p ∈ st.registered, (st.sched.procs p).kind = .system)
    (hidle : ∀ p ∈ st.registered, (st.sched.procs p).running = false) :
    (smpSystem n B st.registered).init (Smp.begin st.sched) := by
  obtain ⟨lists, hinv⟩ := RunqueueInv.reachable h
  refine ⟨⟨lists, hinv.queues, fun p => ?_⟩, hidle, curr_proc_none h.of_restrict, fun _ => rfl,
    fun _ => rfl⟩
  constructor
  · intro hp
    exact ⟨(st.sched.procs p).cpu, (hinv.system _ p).mpr ⟨hp, hsystem p hp, rfl⟩⟩
  · rintro ⟨cpu, hp⟩
    exact ((hinv.system cpu p).mp hp).1

/-- Three procs on CPU 0, which runs one, while a balancer has taken another. -/
theorem three_in_motion : ∃ st : Smp 2 Unit,
    ((smpSystem 2 Unit (threeOn .system).registered).restrict Smp.FindsProc).Reachable st ∧
      st.Runs 0 1 ∧ st.InTransit () 2 := by
  have hmem : ∀ p ∈ (threeOn .system).registered, p = 1 ∨ p = 2 ∨ p = 3 := by
    intro p hp
    simp only [threeOn, enrol, Set.mem_insert_iff, Set.mem_empty_iff_false, or_false] at hp
    tauto
  have h₀ : ((smpSystem 2 Unit (threeOn .system).registered).restrict Smp.FindsProc).Reachable
      (Smp.begin (threeOn .system).sched) := by
    refine .init (registered_smp_init (threeOn_reachable .system) ?_ ?_)
    · intro p hp
      rcases hmem p hp with rfl | rfl | rfl <;> rfl
    · intro p hp
      rcases hmem p hp with rfl | rfl | rfl <;> rfl
  have go : ∀ {st st' : Smp 2 Unit} {act : SmpAct 2 Unit},
      ((smpSystem 2 Unit (threeOn .system).registered).restrict Smp.FindsProc).Reachable st →
      st.Step act st' → st.FindsProc act →
      ((smpSystem 2 Unit (threeOn .system).registered).restrict Smp.FindsProc).Reachable st' :=
    fun hr hstep hfinds => .step _ hr ⟨hstep, hfinds⟩
  have h₁ := go h₀ (.pick 0 bothOnline 0 4 1 false _ rfl rfl) trivial
  have h₂ := go h₁ (.balance () bothOnline rfl) trivial
  have h₃ := go h₂ (.look () _ _ _ _ _ rfl) trivial
  have h₄ := go h₃ (.look () _ _ _ _ _ rfl) trivial
  have h₅ := go h₄ (.look () _ _ _ _ _ rfl) trivial
  have h₆ := go h₅ (.take () 0 1 2 (.proc 2) rfl rfl) ?_
  · exact ⟨_, h₆, ⟨false, 0, rfl⟩, 1, rfl⟩
  · intro max_cpu min_cpu fuel cursor hpc hfind
    cases hpc
    -- proc 1 runs, proc 2 is the next one
    cases fuel with
    | zero => cases hfind
    | succ fuel =>
      cases fuel with
      | zero => cases hfind
      | succ fuel =>
        cases hfind
        exact ⟨2, rfl⟩

theorem proc_on_one_cpu_three : ∃ (st : Smp 2 Unit) (lists : Fin 2 → List ProcAddr),
    st.Runs 0 1 ∧ st.InTransit () 2 ∧
      (∀ cpu, st.Runs cpu 1 → cpu = 0) ∧ (st.sched.procs 1).running = true ∧
      ∀ cpu, 2 ∉ lists cpu := by
  obtain ⟨st, hst, hruns, htransit⟩ := three_in_motion
  obtain ⟨lists, -, hR, hone⟩ := proc_on_one_cpu hst
  obtain ⟨hcpu, hmark, -⟩ := hone 1 (hR 0 1 hruns)
  refine ⟨st, lists, hruns, htransit, fun cpu h => hcpu cpu 0 h hruns, hmark.mpr ⟨0, hruns⟩, ?_⟩
  rcases (hone 2 (by simp [threeOn, enrol])).2.2 with ⟨-, hno⟩ | ⟨hoff, -⟩
  · exact absurd htransit (hno ())
  · exact hoff

end Kds
