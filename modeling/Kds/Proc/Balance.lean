import Kds.Proc.Runqueue

/-! # Registered procs stay on the run queue of their CPU

    The calls of `proc.c` as a transition system, with the set of registered
    procs as a ghost. `RunqueueInv` says what the queues hold; every call is
    a combination of taking a proc off a queue, changing its record and
    putting it on a queue, so there is one lemma for each of the three.

    `kds_load_balance` is the exception: when the search of the heaviest
    queue finds nobody, its cursor is the list head and not null, and the
    code moves the head itself.
-/

namespace Kds

open Dlist Lts

variable {n : Nat}

/-! ### The system -/

/-- The scheduler and the procs that are registered with it. -/
structure SchedRun (n : Nat) where
  sched : KdsSched n
  registered : Set ProcAddr

inductive SchedAct (n : Nat) where
  /-- The owner of an unregistered proc fills in its record. -/
  | prepare (p : ProcAddr) (proc : KdsProc n)
  /-- The running flag of a proc changes. -/
  | set_running (p : ProcAddr) (running : Bool)
  | register (online : OnlineMask n) (proc : Option ProcAddr)
  | unregister (p : ProcAddr)
  | set_affinity (proc : Option ProcAddr) (mask : CpuMask n)
  | load_balance (online : OnlineMask n)

def SchedRun.step (st : SchedRun n) (act : SchedAct n) (st' : SchedRun n) : Prop :=
  match act with
  | .prepare p proc =>
    p ∉ st.registered ∧ st' = { st with sched := st.sched.setProc p proc }
  | .set_running p running =>
    st' = { st with sched := st.sched.setProc p { st.sched.procs p with running := running } }
  | .register online proc =>
    (∃ e sched, kds_proc_register online proc st.sched = .ok (.error e, sched) ∧
        st' = { st with sched := sched }) ∨
      ∃ p sched, proc = some p ∧ kds_proc_register online proc st.sched = .ok (.ok (), sched) ∧
        st' = { sched := sched, registered := insert p st.registered }
  | .unregister p =>
    p ∈ st.registered ∧
      st' = { sched := kds_proc_unregister p st.sched, registered := st.registered \ {p} }
  | .set_affinity proc mask =>
    ∃ ret sched, kds_proc_set_affinity proc mask st.sched = .ok (ret, sched) ∧
      st' = { st with sched := sched }
  | .load_balance online =>
    ∃ fuel sched, kds_load_balance fuel online st.sched = some (.ok sched) ∧
      st' = { st with sched := sched }

def runqueueSystem (n : Nat) : System (SchedRun n) (SchedAct n) where
  init st := (∃ s, st.sched = kds_sched_init s) ∧ st.registered = ∅
  step := SchedRun.step

/-- What the queues hold: on the list of a CPU the registered system procs
    placed there, in its tree the registered session procs placed there, and
    every registered proc on a CPU it is allowed to run on. -/
structure RunqueueInv (st : SchedRun n) (lists : Fin n → List ProcAddr) : Prop where
  ring : ∀ cpu, st.sched.links.Ring (.head cpu) ((lists cpu).map .proc)
  system : ∀ cpu p, p ∈ lists cpu ↔
    p ∈ st.registered ∧ (st.sched.procs p).kind = .system ∧ (st.sched.procs p).cpu = cpu
  session : ∀ cpu p, p ∈ st.sched.session_procs cpu ↔
    p ∈ st.registered ∧ (st.sched.procs p).kind = .session ∧ (st.sched.procs p).cpu = cpu
  session_nodup : ∀ cpu, (st.sched.session_procs cpu).Nodup
  allowed : ∀ p ∈ st.registered,
    (st.sched.procs p).allowed_cpus (st.sched.procs p).cpu = true
  counted : ∀ cpu, (st.sched.nr_running cpu).toNat =
    (lists cpu).length + (st.sched.session_procs cpu).length

/-! ### When the calls do what they are for -/

/-- No counter is at its maximum. -/
def KdsSched.Room (s : KdsSched n) : Prop :=
  ∀ cpu, s.nr_running cpu ≠ UINT_MAX

/-- A proc that balancing may move from `src_cpu` to `dst_cpu`. -/
structure SchedRun.Movable (st : SchedRun n) (src_cpu dst_cpu : Fin n) (p : ProcAddr) : Prop where
  registered : p ∈ st.registered
  system : (st.sched.procs p).kind = .system
  placed : (st.sched.procs p).cpu = src_cpu
  idle : (st.sched.procs p).running = false
  allowed : (st.sched.procs p).allowed_cpus dst_cpu = true

/-- If the loads are apart by more than the threshold, somebody on the
    heaviest queue can move to the lightest. -/
def SchedRun.BalanceOk (st : SchedRun n) (online : OnlineMask n) : Prop :=
  ∀ src_cpu dst_cpu, Heaviest st.sched online.mask src_cpu →
    Lightest st.sched online.mask dst_cpu →
    (st.sched.nr_running dst_cpu).toNat + 2 < (st.sched.nr_running src_cpu).toNat →
    ∃ p, st.Movable src_cpu dst_cpu p

/-- Only unregistered procs are registered and only registered ones migrated,
    while the counters have room, and balancing finds somebody to move. -/
def SchedRun.CallOk (st : SchedRun n) : SchedAct n → Prop
  | .prepare _ _ => True
  | .set_running _ _ => True
  | .register _ proc => ∀ p, proc = some p →
      (st.sched.procs p).run = false ∨ p ∉ st.registered ∧ st.sched.Room
  | .unregister _ => True
  | .set_affinity proc mask => ∀ p, proc = some p →
      cpumask_empty mask = true ∨ mask (st.sched.procs p).cpu = true ∨
        p ∈ st.registered ∧ st.sched.Room
  | .load_balance online => st.BalanceOk online

/-! ### Projections -/

namespace KdsSched

@[simp] theorem setProc_procs (s : KdsSched n) (p q : ProcAddr) (proc : KdsProc n) :
    (s.setProc p proc).procs q = if q = p then proc else s.procs q := rfl

@[simp] theorem setProc_links (s : KdsSched n) (p : ProcAddr) (proc : KdsProc n) :
    (s.setProc p proc).links = s.links := rfl

@[simp] theorem setProc_nr_running (s : KdsSched n) (p : ProcAddr) (proc : KdsProc n)
    (cpu : Fin n) : (s.setProc p proc).nr_running cpu = s.nr_running cpu := rfl

@[simp] theorem setProc_session_procs (s : KdsSched n) (p : ProcAddr) (proc : KdsProc n)
    (cpu : Fin n) : (s.setProc p proc).session_procs cpu = s.session_procs cpu := rfl

@[simp] theorem enqueue_procs (s : KdsSched n) (cpu : Fin n) (p : ProcAddr) :
    (s.enqueue cpu p).procs = s.procs := by
  unfold enqueue
  cases (s.procs p).kind <;> rfl

@[simp] theorem dequeue_procs (s : KdsSched n) (cpu : Fin n) (p : ProcAddr) :
    (s.dequeue cpu p).procs = s.procs := by
  unfold dequeue
  cases (s.procs p).kind <;> rfl

@[simp] theorem enqueue_nr_running (s : KdsSched n) (cpu c : Fin n) (p : ProcAddr) :
    (s.enqueue cpu p).nr_running c =
      if c = cpu then s.nr_running cpu + 1 else s.nr_running c := by
  unfold enqueue nr_running
  cases (s.procs p).kind <;> simp only [setRq] <;> by_cases h : c = cpu <;> simp [h]

@[simp] theorem dequeue_nr_running (s : KdsSched n) (cpu c : Fin n) (p : ProcAddr) :
    (s.dequeue cpu p).nr_running c =
      if c = cpu then s.nr_running cpu - 1 else s.nr_running c := by
  unfold dequeue nr_running
  cases (s.procs p).kind <;> simp only [setRq] <;> by_cases h : c = cpu <;> simp [h]

theorem enqueue_system {s : KdsSched n} {p : ProcAddr} (h : (s.procs p).kind = .system)
    (cpu c : Fin n) :
    (s.enqueue cpu p).links = s.links.addTail (.proc p) (.head cpu) ∧
      (s.enqueue cpu p).session_procs c = s.session_procs c := by
  unfold enqueue
  rw [h]
  refine ⟨rfl, ?_⟩
  simp only [session_procs, setRq]
  by_cases hc : c = cpu <;> simp [hc]

theorem enqueue_session {s : KdsSched n} {p : ProcAddr} (h : (s.procs p).kind = .session)
    (cpu c : Fin n) :
    (s.enqueue cpu p).links = s.links ∧
      (s.enqueue cpu p).session_procs c =
        if c = cpu then
          kds_session_rb_insert (fun q => (s.procs q).static_prio) p (s.session_procs cpu)
        else s.session_procs c := by
  unfold enqueue
  rw [h]
  refine ⟨rfl, ?_⟩
  simp only [session_procs, setRq]
  by_cases hc : c = cpu <;> simp [hc]

theorem dequeue_system {s : KdsSched n} {p : ProcAddr} (h : (s.procs p).kind = .system)
    (cpu c : Fin n) :
    (s.dequeue cpu p).links = s.links.delInit (.proc p) ∧
      (s.dequeue cpu p).session_procs c = s.session_procs c := by
  unfold dequeue
  rw [h]
  refine ⟨rfl, ?_⟩
  simp only [session_procs, setRq]
  by_cases hc : c = cpu <;> simp [hc]

theorem dequeue_session {s : KdsSched n} {p : ProcAddr} (h : (s.procs p).kind = .session)
    (cpu c : Fin n) :
    (s.dequeue cpu p).links = s.links ∧
      (s.dequeue cpu p).session_procs c =
        if c = cpu then (s.session_procs cpu).erase p else s.session_procs c := by
  unfold dequeue
  rw [h]
  refine ⟨rfl, ?_⟩
  simp only [session_procs, setRq]
  by_cases hc : c = cpu <;> simp [hc, kds_session_rb_remove]

end KdsSched

theorem kds_session_rb_insert_perm (prio : ProcAddr → Int) (p : ProcAddr) (root : List ProcAddr) :
    (kds_session_rb_insert prio p root).Perm (p :: root) :=
  List.perm_orderedInsert _ p root

/-! ### The lists of system procs -/

/-- The list of every CPU is well formed, and no proc is on two of them. -/
structure Queues (links : Links (QueueNode n)) (lists : Fin n → List ProcAddr) : Prop where
  ring : ∀ cpu, links.Ring (.head cpu) ((lists cpu).map .proc)
  disjoint : ∀ cpu c p, p ∈ lists cpu → p ∈ lists c → cpu = c

section Queues

variable {links : Links (QueueNode n)} {lists : Fin n → List ProcAddr} {cpu : Fin n} {p : ProcAddr}

theorem ring_procs_nodup {procs : List ProcAddr}
    (hring : links.Ring (.head cpu) (procs.map .proc)) : procs.Nodup :=
  (List.nodup_cons.mp hring.nodup).2.of_map

/-- The rings of two CPUs share no node. -/
theorem Queues.ring_disjoint (h : Queues links lists) {c : Fin n} (hc : c ≠ cpu) :
    ∀ z ∈ QueueNode.head c :: (lists c).map .proc,
      z ∉ QueueNode.head cpu :: (lists cpu).map .proc := by
  intro z hz hz'
  cases z with
  | head d =>
    simp at hz hz'
    exact hc (hz.symm.trans hz')
  | proc q =>
    simp at hz hz'
    exact hc (h.disjoint c cpu q hz hz')

/-- A proc that is on no list is put on one. -/
theorem Queues.addTail (h : Queues links lists) (hp : ∀ c, p ∉ lists c) :
    Queues (links.addTail (.proc p) (.head cpu))
      (Function.update lists cpu (lists cpu ++ [p])) := by
  have hfresh : ∀ c, QueueNode.proc p ∉ QueueNode.head c :: (lists c).map .proc := by
    intro c
    simpa using hp c
  constructor
  · intro c
    by_cases hc : c = cpu
    · subst hc
      rw [Function.update_self, List.map_append]
      exact (h.ring c).addTail (hfresh c)
    · rw [Function.update_of_ne hc]
      exact (h.ring cpu).addTail_other (h.ring c) (h.ring_disjoint hc) (hfresh c)
  · intro c d q hqc hqd
    have hold : ∀ c, q ∈ Function.update lists cpu (lists cpu ++ [p]) c →
        q ∈ lists c ∨ q = p ∧ c = cpu := by
      intro c hq
      by_cases hc : c = cpu
      · subst hc
        rw [Function.update_self, List.mem_append, List.mem_singleton] at hq
        exact hq.imp_right fun heq => ⟨heq, rfl⟩
      · rw [Function.update_of_ne hc] at hq
        exact .inl hq
    rcases hold c hqc with hc | ⟨rfl, rfl⟩ <;> rcases hold d hqd with hd | ⟨hqp, rfl⟩
    · exact h.disjoint c d q hc hd
    · exact absurd (hqp ▸ hc) (hp c)
    · exact absurd hd (hp d)
    · rfl

/-- A proc is taken off its list. -/
theorem Queues.delInit (h : Queues links lists) (hp : p ∈ lists cpu) :
    Queues (links.delInit (.proc p)) (Function.update lists cpu ((lists cpu).erase p)) := by
  obtain ⟨xs, ys, hsplit⟩ := List.append_of_mem hp
  have hring := h.ring cpu
  have hnd := ring_procs_nodup hring
  have herase : (lists cpu).erase p = xs ++ ys := by
    rw [hsplit] at hnd ⊢
    have hpx : p ∉ xs := by
      intro hmem
      exact (List.nodup_append.mp hnd).2.2 p hmem p (by simp) rfl
    rw [List.erase_append_right _ hpx, List.erase_cons_head]
  rw [hsplit, List.map_append, List.map_cons] at hring
  constructor
  · intro c
    by_cases hc : c = cpu
    · subst hc
      rw [Function.update_self, herase, List.map_append]
      exact hring.delInit
    · rw [Function.update_of_ne hc]
      apply hring.delInit_other (h.ring c)
      have hdisj := h.ring_disjoint hc
      rwa [hsplit, List.map_append, List.map_cons] at hdisj
  · intro c d q hqc hqd
    have hold : ∀ c, q ∈ Function.update lists cpu ((lists cpu).erase p) c → q ∈ lists c := by
      intro c hq
      by_cases hc : c = cpu
      · subst hc
        rw [Function.update_self] at hq
        exact List.mem_of_mem_erase hq
      · rwa [Function.update_of_ne hc] at hq
    exact h.disjoint c d q (hold c hqc) (hold d hqd)

end Queues

/-! ### The three ingredients of a call -/

section Ingredients

variable {s : KdsSched n} {R : Set ProcAddr} {lists : Fin n → List ProcAddr}

/-- Counters of the whole scheduler play no part. -/
theorem RunqueueInv.stats (h : RunqueueInv ⟨s, R⟩ lists) (pid balances migrations : UInt64) :
    RunqueueInv ⟨{ s with kds_next_pid := pid, load_balances := balances,
                          migrations := migrations }, R⟩ lists :=
  ⟨h.ring, h.system, h.session, h.session_nodup, h.allowed, h.counted⟩

/-- Changing a record, as long as a registered proc keeps its kind and CPU
    and may still run there. -/
theorem RunqueueInv.setProc (h : RunqueueInv ⟨s, R⟩ lists) (p : ProcAddr) (proc : KdsProc n)
    (hkeep : p ∈ R → proc.kind = (s.procs p).kind ∧ proc.cpu = (s.procs p).cpu ∧
      proc.allowed_cpus proc.cpu = true) : RunqueueInv ⟨s.setProc p proc, R⟩ lists := by
  have hkind : ∀ q ∈ R, ((s.setProc p proc).procs q).kind = (s.procs q).kind := by
    intro q hq
    by_cases hqp : q = p
    · subst hqp; simpa using (hkeep hq).1
    · simp [hqp]
  have hcpu : ∀ q ∈ R, ((s.setProc p proc).procs q).cpu = (s.procs q).cpu := by
    intro q hq
    by_cases hqp : q = p
    · subst hqp; simpa using (hkeep hq).2.1
    · simp [hqp]
  constructor
  · exact h.ring
  · intro cpu q
    rw [h.system cpu q]
    constructor
    · rintro ⟨hq, hrest⟩
      exact ⟨hq, by rw [hkind q hq, hcpu q hq]; exact hrest⟩
    · rintro ⟨hq, hrest⟩
      exact ⟨hq, by rw [hkind q hq, hcpu q hq] at hrest; exact hrest⟩
  · intro cpu q
    rw [KdsSched.setProc_session_procs, h.session cpu q]
    constructor
    · rintro ⟨hq, hrest⟩
      exact ⟨hq, by rw [hkind q hq, hcpu q hq]; exact hrest⟩
    · rintro ⟨hq, hrest⟩
      exact ⟨hq, by rw [hkind q hq, hcpu q hq] at hrest; exact hrest⟩
  · exact h.session_nodup
  · intro q hq
    by_cases hqp : q = p
    · subst hqp; simpa using (hkeep hq).2.2
    · simpa [hqp] using h.allowed q hq
  · exact h.counted

theorem RunqueueInv.queues (h : RunqueueInv ⟨s, R⟩ lists) : Queues s.links lists where
  ring := h.ring
  disjoint cpu c p hp hp' := by
    have hcpu := ((h.system cpu p).mp hp).2.2
    have hc := ((h.system c p).mp hp').2.2
    exact hcpu.symm.trans hc

/-- An unregistered proc is on no list. -/
theorem RunqueueInv.fresh (h : RunqueueInv ⟨s, R⟩ lists) {p : ProcAddr} (hp : p ∉ R)
    (cpu : Fin n) : p ∉ lists cpu :=
  fun hmem => hp ((h.system cpu p).mp hmem).1

/-- A counter with room counts one more. -/
theorem nr_running_succ {load : UInt32} {k : Nat} (hroom : load ≠ UINT_MAX)
    (h : load.toNat = k) : (load + 1).toNat = k + 1 := by
  have hlt := load.toNat_lt
  have hne : load.toNat ≠ 4294967295 := by
    intro heq
    apply hroom
    rw [← UInt32.toNat_inj, heq]
    rfl
  rw [UInt32.toNat_add, h]
  simp
  omega

theorem nr_running_pred {load : UInt32} {k : Nat} (h : load.toNat = k + 1) :
    (load - 1).toNat = k := by
  have hle : (1 : UInt32) ≤ load := by
    rw [UInt32.le_iff_toNat_le, h]
    simp
  rw [UInt32.toNat_sub_of_le _ _ hle, h]
  simp

/-- Putting an unregistered proc on the queue of the CPU in its record. -/
theorem RunqueueInv.enqueue (h : RunqueueInv ⟨s, R⟩ lists) (p : ProcAddr) (cpu : Fin n)
    (hp : p ∉ R) (hcpu : (s.procs p).cpu = cpu) (hallowed : (s.procs p).allowed_cpus cpu = true)
    (hroom : s.nr_running cpu ≠ UINT_MAX) :
    RunqueueInv ⟨s.enqueue cpu p, insert p R⟩
      (if (s.procs p).kind = .system then Function.update lists cpu (lists cpu ++ [p])
        else lists) := by
  have hall : ∀ q ∈ insert p R, ((s.enqueue cpu p).procs q).allowed_cpus
      ((s.enqueue cpu p).procs q).cpu = true := by
    intro q hq
    rw [KdsSched.enqueue_procs]
    rcases Set.mem_insert_iff.mp hq with rfl | hq
    · rw [hcpu]; exact hallowed
    · exact h.allowed q hq
  -- a system proc goes to the tail of its CPU's ring, a session proc into the sorted queue
  cases hkind : (s.procs p).kind with
  | system =>
    have hnew := KdsSched.enqueue_system hkind cpu
    rw [if_pos rfl]
    constructor
    · intro c
      dsimp only
      rw [(hnew c).1]
      exact (h.queues.addTail (h.fresh hp)).ring c
    · intro c q
      have hold := h.system c q
      dsimp only at hold ⊢
      rw [KdsSched.enqueue_procs, Set.mem_insert_iff]
      by_cases hqp : q = p
      · subst hqp
        by_cases hc : c = cpu
        · subst hc; simp [hkind, hcpu]
        · rw [Function.update_of_ne hc, hold]
          simp [hp, hcpu, Ne.symm hc]
      · by_cases hc : c = cpu
        · subst hc
          rw [Function.update_self, List.mem_append, hold]
          simp [hqp]
        · rw [Function.update_of_ne hc, hold]
          simp [hqp]
    · intro c q
      have hold := h.session c q
      dsimp only at hold ⊢
      rw [KdsSched.enqueue_procs, (hnew c).2, Set.mem_insert_iff, hold]
      by_cases hqp : q = p
      · subst hqp; simp [hkind]
      · simp [hqp]
    · intro c
      dsimp only
      rw [(hnew c).2]
      exact h.session_nodup c
    · exact hall
    · intro c
      have hold := h.counted c
      dsimp only at hold ⊢
      rw [KdsSched.enqueue_nr_running, (hnew c).2]
      by_cases hc : c = cpu
      · subst hc
        rw [if_pos rfl, nr_running_succ hroom hold, Function.update_self, List.length_append,
          List.length_singleton]
        omega
      · rw [if_neg hc, Function.update_of_ne hc, hold]
  | session =>
    have hnew := KdsSched.enqueue_session hkind cpu
    have hperm := kds_session_rb_insert_perm (fun q => (s.procs q).static_prio) p
      (s.session_procs cpu)
    rw [if_neg (by simp)]
    constructor
    · intro c
      dsimp only
      rw [(hnew c).1]
      exact h.ring c
    · intro c q
      have hold := h.system c q
      dsimp only at hold ⊢
      rw [KdsSched.enqueue_procs, Set.mem_insert_iff, hold]
      by_cases hqp : q = p
      · subst hqp; simp [hkind]
      · simp [hqp]
    · intro c q
      have hold := h.session c q
      dsimp only at hold ⊢
      rw [KdsSched.enqueue_procs, (hnew c).2, Set.mem_insert_iff]
      by_cases hc : c = cpu
      · subst hc
        rw [if_pos rfl, hperm.mem_iff, List.mem_cons, hold]
        by_cases hqp : q = p
        · subst hqp; simp [hkind, hcpu]
        · simp [hqp]
      · rw [if_neg hc, hold]
        by_cases hqp : q = p
        · subst hqp; simp [hp, hcpu, Ne.symm hc]
        · simp [hqp]
    · intro c
      dsimp only
      rw [(hnew c).2]
      by_cases hc : c = cpu
      · subst hc
        rw [if_pos rfl, hperm.nodup_iff, List.nodup_cons]
        exact ⟨fun hmem => hp ((h.session c p).mp hmem).1, h.session_nodup c⟩
      · rw [if_neg hc]
        exact h.session_nodup c
    · exact hall
    · intro c
      have hold := h.counted c
      dsimp only at hold ⊢
      rw [KdsSched.enqueue_nr_running, (hnew c).2]
      by_cases hc : c = cpu
      · subst hc
        rw [if_pos rfl, if_pos rfl, nr_running_succ hroom hold, hperm.length_eq, List.length_cons]
        omega
      · rw [if_neg hc, if_neg hc, hold]

/-- Taking a registered proc off the queue of its CPU. -/
theorem RunqueueInv.dequeue (h : RunqueueInv ⟨s, R⟩ lists) {p : ProcAddr} {cpu : Fin n}
    (hp : p ∈ R) (hcpu : (s.procs p).cpu = cpu) :
    RunqueueInv ⟨s.dequeue cpu p, R \ {p}⟩
      (if (s.procs p).kind = .system then Function.update lists cpu ((lists cpu).erase p)
        else lists) := by
  have hall : ∀ q ∈ R \ {p}, ((s.dequeue cpu p).procs q).allowed_cpus
      ((s.dequeue cpu p).procs q).cpu = true := by
    intro q hq
    rw [KdsSched.dequeue_procs]
    exact h.allowed q hq.1
  -- the two kinds lie on two structures; the other one is as it was
  cases hkind : (s.procs p).kind with
  | system =>
    have hnew := KdsSched.dequeue_system hkind cpu
    have hmem : p ∈ lists cpu := (h.system cpu p).mpr ⟨hp, hkind, hcpu⟩
    have hnd := ring_procs_nodup (h.ring cpu)
    rw [if_pos rfl]
    constructor
    · intro c
      dsimp only
      rw [(hnew c).1]
      exact (h.queues.delInit hmem).ring c
    · intro c q
      have hold := h.system c q
      dsimp only at hold ⊢
      rw [KdsSched.dequeue_procs, Set.mem_sdiff, Set.mem_singleton_iff]
      by_cases hc : c = cpu
      · subst hc
        rw [Function.update_self, hnd.mem_erase_iff, hold]
        tauto
      · rw [Function.update_of_ne hc, hold]
        constructor
        · rintro ⟨hq, hk, hqc⟩
          refine ⟨⟨hq, ?_⟩, hk, hqc⟩
          rintro rfl
          exact hc (hqc.symm.trans hcpu)
        · rintro ⟨⟨hq, -⟩, hrest⟩
          exact ⟨hq, hrest⟩
    · intro c q
      have hold := h.session c q
      dsimp only at hold ⊢
      rw [KdsSched.dequeue_procs, (hnew c).2, Set.mem_sdiff, Set.mem_singleton_iff, hold]
      by_cases hqp : q = p
      · subst hqp; simp [hkind]
      · simp [hqp]
    · intro c
      dsimp only
      rw [(hnew c).2]
      exact h.session_nodup c
    · exact hall
    · intro c
      have hold := h.counted c
      dsimp only at hold ⊢
      rw [KdsSched.dequeue_nr_running, (hnew c).2]
      by_cases hc : c = cpu
      · subst hc
        rw [if_pos rfl, Function.update_self, List.length_erase_of_mem hmem]
        have hpos : 0 < (lists c).length := List.length_pos_of_mem hmem
        -- the counter is positive, so the decrement does not wrap
        have hone : (s.nr_running c).toNat =
            (lists c).length - 1 + (s.session_procs c).length + 1 := by
          rw [hold]; omega
        exact nr_running_pred hone
      · rw [if_neg hc, Function.update_of_ne hc, hold]
  | session =>
    have hnew := KdsSched.dequeue_session hkind cpu
    have hmem : p ∈ s.session_procs cpu := (h.session cpu p).mpr ⟨hp, hkind, hcpu⟩
    have hnd := h.session_nodup cpu
    rw [if_neg (by simp)]
    constructor
    · intro c
      dsimp only
      rw [(hnew c).1]
      exact h.ring c
    · intro c q
      have hold := h.system c q
      dsimp only at hold ⊢
      rw [KdsSched.dequeue_procs, Set.mem_sdiff, Set.mem_singleton_iff, hold]
      by_cases hqp : q = p
      · subst hqp; simp [hkind]
      · simp [hqp]
    · intro c q
      have hold := h.session c q
      dsimp only at hold hnd ⊢
      rw [KdsSched.dequeue_procs, (hnew c).2, Set.mem_sdiff, Set.mem_singleton_iff]
      by_cases hc : c = cpu
      · subst hc
        rw [if_pos rfl, hnd.mem_erase_iff, hold]
        tauto
      · rw [if_neg hc, hold]
        constructor
        · rintro ⟨hq, hk, hqc⟩
          refine ⟨⟨hq, ?_⟩, hk, hqc⟩
          rintro rfl
          exact hc (hqc.symm.trans hcpu)
        · rintro ⟨⟨hq, -⟩, hrest⟩
          exact ⟨hq, hrest⟩
    · intro c
      dsimp only
      rw [(hnew c).2]
      by_cases hc : c = cpu
      · subst hc
        rw [if_pos rfl]
        exact hnd.erase p
      · rw [if_neg hc]
        exact h.session_nodup c
    · exact hall
    · intro c
      have hold := h.counted c
      dsimp only at hold ⊢
      rw [KdsSched.dequeue_nr_running, (hnew c).2]
      by_cases hc : c = cpu
      · subst hc
        rw [if_pos rfl, if_pos rfl, List.length_erase_of_mem hmem]
        have hpos : 0 < (s.session_procs c).length := List.length_pos_of_mem hmem
        have hone : (s.nr_running c).toNat =
            (lists c).length + ((s.session_procs c).length - 1) + 1 := by
          rw [hold]; omega
        exact nr_running_pred hone
      · rw [if_neg hc, if_neg hc, hold]

/-! ### Registering and migrating -/

/-- `kds_proc_register` rejects the call or puts the proc on a queue. -/
theorem RunqueueInv.register (h : RunqueueInv ⟨s, R⟩ lists) (online : OnlineMask n)
    (proc : Option ProcAddr)
    (hok : ∀ p, proc = some p → (s.procs p).run = false ∨ p ∉ R ∧ s.Room) :
    kds_proc_register online proc s = .ok (.error .EINVAL, s) ∨
      ∃ p s', proc = some p ∧ kds_proc_register online proc s = .ok (.ok (), s') ∧
        ∃ lists', RunqueueInv ⟨s', insert p R⟩ lists' := by
  cases proc with
  | none => left; rfl
  | some p =>
    unfold kds_proc_register
    by_cases hrun : (s.procs p).run = false
    · left
      simp only [if_pos hrun]
    · right
      rcases hok p rfl with hfalse | ⟨hp, hroom⟩
      · exact absurd hfalse hrun
      obtain ⟨cpu, hsel⟩ := kds_select_cpu_isSome s _
        (readied_allowed (s.procs p) s.kds_next_pid online)
      simp only [if_neg hrun, hsel]
      refine ⟨p, _, rfl, rfl, ?_⟩
      -- the record is set up while the proc is on no queue
      have hset := (h.stats (s.kds_next_pid + 1) s.load_balances s.migrations).setProc p
        { (s.procs p).readied s.kds_next_pid online with cpu := cpu, preferred_cpu := some cpu }
        (fun hmem => absurd hmem hp)
      refine ⟨_, hset.enqueue p cpu hp ?_ ?_ (hroom cpu)⟩
      · simp
      · simpa using kds_select_cpu_allowed hsel

/-- `kds_proc_set_affinity` leaves the proc on a CPU of the new mask. -/
theorem RunqueueInv.set_affinity (h : RunqueueInv ⟨s, R⟩ lists) (proc : Option ProcAddr)
    (mask : CpuMask n)
    (hok : ∀ p, proc = some p → cpumask_empty mask = true ∨ mask (s.procs p).cpu = true ∨
      p ∈ R ∧ s.Room) :
    ∃ ret s', kds_proc_set_affinity proc mask s = .ok (ret, s') ∧
      ∃ lists', RunqueueInv ⟨s', R⟩ lists' := by
  cases proc with
  | none => exact ⟨_, s, rfl, lists, h⟩
  | some p =>
    unfold kds_proc_set_affinity
    by_cases hempty : cpumask_empty mask = true
    · exact ⟨.error .EINVAL, s, by simp only [if_pos hempty], lists, h⟩
    by_cases hstay : mask (s.procs p).cpu = true
    · simp only [if_neg hempty, if_pos hstay]
      exact ⟨_, _, rfl, lists, h.setProc p _ fun _ => ⟨rfl, rfl, hstay⟩⟩
    rcases hok p rfl with hbad | hbad | ⟨hp, hroom⟩
    · exact absurd hbad hempty
    · exact absurd hbad hstay
    have hoff := h.dequeue hp rfl
    rw [Bool.not_eq_true] at hempty
    obtain ⟨cpu, hsel⟩ := kds_select_cpu_isSome (s.dequeue (s.procs p).cpu p)
      { (s.dequeue (s.procs p).cpu p).procs p with allowed_cpus := mask } hempty
    simp only [hempty, Bool.false_eq_true, if_false, if_neg hstay, hsel]
    refine ⟨_, _, rfl, ?_⟩
    -- the new CPU is in the mask and the old one is not, so its counter is as it was
    have hin : mask cpu = true := kds_select_cpu_allowed hsel
    have hne : cpu ≠ (s.procs p).cpu := by
      rintro rfl
      exact hstay hin
    have hset := hoff.setProc p { (s.dequeue (s.procs p).cpu p).procs p with
      allowed_cpus := mask, cpu := cpu } (fun hmem => absurd rfl hmem.2)
    have hon := hset.enqueue p cpu (fun hmem => hmem.2 rfl) (by simp)
      (by simpa using hin) (by
        rw [KdsSched.setProc_nr_running, KdsSched.dequeue_nr_running, if_neg hne]
        exact hroom cpu)
    rw [Set.insert_sdiff_self_of_mem hp] at hon
    exact ⟨_, hon.stats _ _ _⟩

/-! ### Balancing -/

/-- The search of a list that holds an eligible proc stops at one, whatever
    bound it is given. -/
theorem kds_find_movable_spec {src_cpu dst_cpu : Fin n} (procs : List ProcAddr)
    (x : QueueNode n) (hseg : s.links.Seg x (procs.map .proc) (.head src_cpu))
    (hsome : ∃ p ∈ procs, (s.procs p).running = false ∧ (s.procs p).allowed_cpus dst_cpu = true) :
    ∃ p ∈ procs, ((s.procs p).running = false ∧ (s.procs p).allowed_cpus dst_cpu = true) ∧
      (∀ fuel, procs.length ≤ fuel →
        kds_find_movable s src_cpu dst_cpu fuel (s.links.next x) = some (.ok (.proc p))) ∧
      ∀ fuel r, kds_find_movable s src_cpu dst_cpu fuel (s.links.next x) = some r →
        r = .ok (.proc p) := by
  -- along the segment: the walk stops at the first proc that may move
  induction procs generalizing x with
  | nil =>
    obtain ⟨p, hp, -⟩ := hsome
    simp at hp
  | cons a rest ih =>
    have hnext : s.links.next x = .proc a := hseg.1.1
    rw [hnext]
    by_cases ha : (s.procs a).running = false ∧ (s.procs a).allowed_cpus dst_cpu = true
    · refine ⟨a, by simp, ha, ?_, ?_⟩
      · intro fuel hfuel
        cases fuel with
        | zero => simp at hfuel
        | succ fuel => rw [kds_find_movable, if_pos ha]
      · intro fuel r hr
        cases fuel with
        | zero => cases hr
        | succ fuel =>
          rw [kds_find_movable, if_pos ha] at hr
          exact (Option.some.inj hr).symm
    · obtain ⟨p, hp, helig⟩ := hsome
      -- the head may not move, so the proc that may is behind it
      have hrest : p ∈ rest := by
        rcases List.mem_cons.mp hp with rfl | hp
        · exact absurd helig ha
        · exact hp
      obtain ⟨q, hq, hqe, henough, hall⟩ := ih (.proc a) hseg.2 ⟨p, hrest, helig⟩
      refine ⟨q, List.mem_cons_of_mem _ hq, hqe, ?_, ?_⟩
      · intro fuel hfuel
        cases fuel with
        | zero => simp at hfuel
        | succ fuel =>
          rw [kds_find_movable, if_neg ha]
          exact henough fuel (by simpa using hfuel)
      · intro fuel r hr
        cases fuel with
        | zero => cases hr
        | succ fuel =>
          rw [kds_find_movable, if_neg ha] at hr
          exact hall fuel r hr

/-- Migrating a system proc takes it off one queue, moves it and puts it on
    the other. -/
theorem kds_migrate_proc {p : ProcAddr} (hkind : (s.procs p).kind = .system)
    (src_cpu dst_cpu : Fin n) :
    kds_migrate s src_cpu dst_cpu (.proc p) =
      { ((s.dequeue src_cpu p).setProc p { s.procs p with cpu := dst_cpu }).enqueue dst_cpu p with
        load_balances := s.load_balances + 1, migrations := s.migrations + 1 } := by
  have hkind' : (((s.dequeue src_cpu p).setProc p
      { s.procs p with cpu := dst_cpu }).procs p).kind = .system := by
    simpa using hkind
  unfold kds_migrate KdsSched.enqueue
  rw [hkind']
  unfold KdsSched.dequeue
  rw [hkind]
  rfl

/-- What balancing does to the queues when it moves `p`. -/
structure QueueMoved (st : SchedRun n) (lists : Fin n → List ProcAddr) (src_cpu dst_cpu : Fin n)
    (p : ProcAddr) (s' : KdsSched n) : Prop where
  movable : st.Movable src_cpu dst_cpu p
  distinct : src_cpu ≠ dst_cpu
  queues : RunqueueInv ⟨s', st.registered⟩
    (Function.update (Function.update lists src_cpu ((lists src_cpu).erase p)) dst_cpu
      (lists dst_cpu ++ [p]))
  sessions : ∀ cpu, s'.session_procs cpu = st.sched.session_procs cpu
  others : ∀ q, q ≠ p → s'.procs q = st.sched.procs q

theorem RunqueueInv.migrate {st : SchedRun n} (h : RunqueueInv st lists) {src_cpu dst_cpu : Fin n}
    {p : ProcAddr} (hp : st.Movable src_cpu dst_cpu p) (hne : src_cpu ≠ dst_cpu)
    (hroom : st.sched.nr_running dst_cpu ≠ UINT_MAX) :
    QueueMoved st lists src_cpu dst_cpu p (kds_migrate st.sched src_cpu dst_cpu (.proc p)) := by
  obtain ⟨s, R⟩ := st
  have hoff := h.dequeue hp.registered hp.placed
  rw [if_pos hp.system] at hoff
  have hset := hoff.setProc p { s.procs p with cpu := dst_cpu }
    (fun hmem => absurd rfl hmem.2)
  have hkind : (((s.dequeue src_cpu p).setProc p
      { s.procs p with cpu := dst_cpu }).procs p).kind = .system := by
    simpa using hp.system
  have hon := hset.enqueue p dst_cpu (fun hmem => hmem.2 rfl) (by simp)
    (by simpa using hp.allowed) (by
      rw [KdsSched.setProc_nr_running, KdsSched.dequeue_nr_running, if_neg (Ne.symm hne)]
      exact hroom)
  rw [if_pos hkind, Set.insert_sdiff_self_of_mem hp.registered,
    Function.update_of_ne (Ne.symm hne)] at hon
  have heq := kds_migrate_proc (s := s) hp.system src_cpu dst_cpu
  refine ⟨hp, hne, ?_, ?_, ?_⟩
  · rw [heq]
    exact hon.stats _ _ _
  · intro cpu
    rw [heq]
    calc (((s.dequeue src_cpu p).setProc p
          { s.procs p with cpu := dst_cpu }).enqueue dst_cpu p).session_procs cpu
        = (s.dequeue src_cpu p).session_procs cpu := (KdsSched.enqueue_system hkind dst_cpu cpu).2
      _ = s.session_procs cpu := (KdsSched.dequeue_system hp.system src_cpu cpu).2
  · intro q hq
    have hprocs : (kds_migrate s src_cpu dst_cpu (.proc p)).procs q =
        (((s.dequeue src_cpu p).setProc p
          { s.procs p with cpu := dst_cpu }).enqueue dst_cpu p).procs q := by
      rw [heq]
    rw [hprocs]
    simp [hq]

/-- No CPU of `mask` has more procs than another by more than the threshold. -/
def KdsSched.Balanced (s : KdsSched n) (mask : CpuMask n) : Prop :=
  ∀ c d, mask c = true → mask d = true → (s.nr_running c).toNat ≤ (s.nr_running d).toNat + 2

/-- Loads that are all the same are balanced. -/
theorem KdsSched.Balanced.of_const {mask : CpuMask n} {load : UInt32}
    (h : ∀ d, mask d = true → s.nr_running d = load) : s.Balanced mask := by
  intro c d hc hd
  rw [h c hc, h d hd]
  omega

/-- The gap between the heaviest and the lightest queue is the widest. -/
theorem Heaviest.balanced {mask : CpuMask n} {src_cpu dst_cpu : Fin n}
    (hheavy : Heaviest s mask src_cpu) (hlight : Lightest s mask dst_cpu)
    (hgap : (s.nr_running src_cpu).toNat ≤ (s.nr_running dst_cpu).toNat + 2) :
    s.Balanced mask := by
  intro c d hc hd
  have hmost : s.nr_running c ≤ s.nr_running src_cpu := by
    rcases lt_trichotomy c src_cpu with hlt | heq | hgt
    · exact UInt32.le_of_lt (hheavy.before c hc hlt)
    · rw [heq]; exact UInt32.le_refl _
    · exact hheavy.after c hc hgt
  have hleast : s.nr_running dst_cpu ≤ s.nr_running d := by
    rcases lt_trichotomy d dst_cpu with hlt | heq | hgt
    · exact UInt32.le_of_lt (hlight.before d hd hlt)
    · rw [heq]; exact UInt32.le_refl _
    · exact hlight.after d hd hgt
  rw [UInt32.le_iff_toNat_le] at hmost hleast
  omega

/-- **Balancing**, case by case: the loads are close and nothing happens, or one movable
    proc goes from the heaviest queue to the lightest, which are far apart. -/
theorem RunqueueInv.load_balance_cases {st : SchedRun n} (h : RunqueueInv st lists)
    (online : OnlineMask n) (hok : st.BalanceOk online) :
    (st.sched.Balanced online.mask ∧
        ∀ fuel, kds_load_balance fuel online st.sched = some (.ok st.sched)) ∨
      ∃ src_cpu dst_cpu p s', Heaviest st.sched online.mask src_cpu ∧
        Lightest st.sched online.mask dst_cpu ∧
        (st.sched.nr_running dst_cpu).toNat + 2 < (st.sched.nr_running src_cpu).toNat ∧
        s' = kds_migrate st.sched src_cpu dst_cpu (.proc p) ∧
        QueueMoved st lists src_cpu dst_cpu p s' ∧
        (∃ fuel, kds_load_balance fuel online st.sched = some (.ok s')) ∧
        ∀ fuel r, kds_load_balance fuel online st.sched = some r → r = .ok s' := by
  -- without a heaviest or a lightest CPU, or below the threshold, nothing is done
  rcases mostLoaded_spec st.sched online.mask with ⟨hnone, hzero⟩ | ⟨src_cpu, hmost, hheavy⟩
  · left
    refine ⟨KdsSched.Balanced.of_const hzero, fun fuel => ?_⟩
    unfold kds_load_balance
    simp only [hnone]
  rcases leastLoaded_spec st.sched online.mask with ⟨hnone, hfull⟩ | ⟨dst_cpu, hleast, hlight⟩
  · left
    refine ⟨KdsSched.Balanced.of_const hfull, fun fuel => ?_⟩
    unfold kds_load_balance
    simp only [hmost, hnone]
  -- the difference the code takes does not wrap
  have hle : st.sched.nr_running dst_cpu ≤ st.sched.nr_running src_cpu := by
    rcases lt_trichotomy src_cpu dst_cpu with hlt | heq | hgt
    · exact hheavy.after dst_cpu hlight.mem hlt
    · rw [heq]; exact UInt32.le_refl _
    · exact UInt32.le_of_lt (hheavy.before dst_cpu hlight.mem hgt)
  by_cases hthr : st.sched.nr_running src_cpu - st.sched.nr_running dst_cpu ≤
      KDS_LOAD_BALANCE_THRESHOLD
  · left
    constructor
    · rw [UInt32.le_iff_toNat_le, UInt32.toNat_sub_of_le _ _ hle] at hthr
      simp at hthr
      exact hheavy.balanced hlight (by omega)
    · intro fuel
      unfold kds_load_balance
      simp only [hmost, hleast, if_pos hthr]
  right
  have hgap : (st.sched.nr_running dst_cpu).toNat + 2 < (st.sched.nr_running src_cpu).toNat := by
    rw [UInt32.le_iff_toNat_le, UInt32.toNat_sub_of_le _ _ hle] at hthr
    simp at hthr
    omega
  have hne : src_cpu ≠ dst_cpu := by
    rintro rfl
    omega
  have hroom : st.sched.nr_running dst_cpu ≠ UINT_MAX := by
    intro heq
    rw [heq] at hgap
    have hlt := (st.sched.nr_running src_cpu).toNat_lt
    simp at hgap
    omega
  -- the walk is promised a proc that may move, so it does not run into the head
  obtain ⟨p₀, hp₀⟩ := hok src_cpu dst_cpu hheavy hlight hgap
  have hmem₀ : p₀ ∈ lists src_cpu :=
    (h.system src_cpu p₀).mpr ⟨hp₀.registered, hp₀.system, hp₀.placed⟩
  obtain ⟨p, hp, ⟨hidle, hallowed⟩, henough, hall⟩ := kds_find_movable_spec (lists src_cpu)
    (.head src_cpu) (h.ring src_cpu).seg ⟨p₀, hmem₀, hp₀.idle, hp₀.allowed⟩
  obtain ⟨hreg, hkind, hplaced⟩ := (h.system src_cpu p).mp hp
  refine ⟨src_cpu, dst_cpu, p, kds_migrate st.sched src_cpu dst_cpu (.proc p), hheavy, hlight,
    hgap, rfl, h.migrate ⟨hreg, hkind, hplaced, hidle, hallowed⟩ hne hroom,
    ⟨(lists src_cpu).length, ?_⟩, ?_⟩
  · unfold kds_load_balance
    simp only [hmost, hleast, if_neg hthr, henough _ (Nat.le_refl _)]
  · intro fuel r hr
    unfold kds_load_balance at hr
    simp only [hmost, hleast, if_neg hthr] at hr
    cases hfind : kds_find_movable st.sched src_cpu dst_cpu fuel
        (st.sched.links.next (.head src_cpu)) with
    | none => rw [hfind] at hr; cases hr
    | some found =>
      rw [hfind, hall fuel found hfind] at hr
      exact (Option.some.inj hr).symm

/-- **Balancing**: the call returns, with the queues as they were or with one
    movable proc moved. -/
theorem RunqueueInv.load_balance {st : SchedRun n} (h : RunqueueInv st lists)
    (online : OnlineMask n) (hok : st.BalanceOk online) :
    ∃ s', (∃ fuel, kds_load_balance fuel online st.sched = some (.ok s')) ∧
      (∀ fuel r, kds_load_balance fuel online st.sched = some r → r = .ok s') ∧
      (s' = st.sched ∨ ∃ src_cpu dst_cpu p, QueueMoved st lists src_cpu dst_cpu p s') := by
  rcases h.load_balance_cases online hok with
    ⟨-, heq⟩ | ⟨src_cpu, dst_cpu, p, s', -, -, -, -, hmoved, hret, hall⟩
  · refine ⟨st.sched, ⟨0, heq 0⟩, ?_, .inl rfl⟩
    intro fuel r hr
    rw [heq fuel] at hr
    exact (Option.some.inj hr).symm
  · exact ⟨s', hret, hall, .inr ⟨src_cpu, dst_cpu, p, hmoved⟩⟩

end Ingredients

/-! ### Runs -/

/-- The queue of `cpu` is set up and empty. -/
def KdsSched.Empty (s : KdsSched n) (cpu : Fin n) : Prop :=
  s.links.Ring (.head cpu) [] ∧ s.kds_runqueues cpu =
    { session_procs := [], curr_proc := none, total_runtime_ns := 0, nr_running := 0 }

theorem kds_rq_init_empty (s : KdsSched n) (cpu c : Fin n) (h : c ≠ cpu → s.Empty c) :
    (kds_rq_init s cpu).Empty c := by
  unfold kds_rq_init
  by_cases hc : c = cpu
  · subst hc
    exact ⟨Links.ring_init _ _, by simp [KdsSched.setRq]⟩
  · obtain ⟨hring, hrq⟩ := h hc
    constructor
    · exact hring.init_other (by simpa using Ne.symm hc)
    · simpa [KdsSched.setRq, hc] using hrq

theorem kds_sched_init_empty (s : KdsSched n) (cpu : Fin n) : (kds_sched_init s).Empty cpu := by
  -- every CPU of the loop is empty afterwards, and stays so
  have key : ∀ (cpus : List (Fin n)) (s : KdsSched n), (cpu ∈ cpus ∨ s.Empty cpu) →
      (cpus.foldl kds_rq_init s).Empty cpu := by
    intro cpus
    induction cpus with
    | nil =>
      intro s h
      simpa using h
    | cons c rest ih =>
      intro s h
      apply ih
      by_cases hrest : cpu ∈ rest
      · exact .inl hrest
      · right
        apply kds_rq_init_empty
        intro hne
        simpa [hne, hrest] using h
  exact key (List.finRange n) s (.inl (List.mem_finRange cpu))

theorem RunqueueInv.init (s : KdsSched n) :
    RunqueueInv ⟨kds_sched_init s, ∅⟩ (fun _ => []) := by
  have hsess : ∀ cpu, (kds_sched_init s).session_procs cpu = [] := by
    intro cpu
    unfold KdsSched.session_procs
    rw [(kds_sched_init_empty s cpu).2]
  constructor
  · exact fun cpu => (kds_sched_init_empty s cpu).1
  · simp
  · intro cpu q
    simp [hsess]
  · intro cpu
    simp [hsess]
  · simp
  · intro cpu
    unfold KdsSched.nr_running
    simp [hsess, (kds_sched_init_empty s cpu).2]

/-- **Step**: a call that is used as intended keeps the queues consistent. -/
theorem RunqueueInv.step {st st' : SchedRun n} {lists : Fin n → List ProcAddr} {act : SchedAct n}
    (h : RunqueueInv st lists) (hstep : st.step act st') (hok : st.CallOk act) :
    ∃ lists', RunqueueInv st' lists' := by
  cases act with
  | prepare p proc =>
    obtain ⟨hp, rfl⟩ := hstep
    exact ⟨lists, h.setProc p proc fun hmem => absurd hmem hp⟩
  | set_running p running =>
    subst hstep
    exact ⟨lists, h.setProc p _ fun hmem => ⟨rfl, rfl, h.allowed p hmem⟩⟩
  | register online proc =>
    rcases h.register online proc hok with herr | ⟨p, s', hproc, hret, lists', hinv⟩
    · rcases hstep with ⟨e, s, hcall, rfl⟩ | ⟨p, s, -, hcall, rfl⟩
      · rw [herr] at hcall
        cases hcall
        exact ⟨lists, h⟩
      · rw [herr] at hcall
        cases hcall
    · rcases hstep with ⟨e, s, hcall, rfl⟩ | ⟨q, s, hq, hcall, rfl⟩
      · rw [hret] at hcall
        cases hcall
      · rw [hret] at hcall
        rw [hproc] at hq
        cases hcall
        cases hq
        exact ⟨lists', hinv⟩
  | unregister p =>
    obtain ⟨hp, rfl⟩ := hstep
    exact ⟨_, h.dequeue hp rfl⟩
  | set_affinity proc mask =>
    obtain ⟨ret, s', hcall, rfl⟩ := hstep
    obtain ⟨ret', s'', hret, lists', hinv⟩ := h.set_affinity proc mask hok
    rw [hret] at hcall
    cases hcall
    exact ⟨lists', hinv⟩
  | load_balance online =>
    obtain ⟨fuel, s', hcall, rfl⟩ := hstep
    obtain ⟨s'', -, hall, hres⟩ := h.load_balance online hok
    -- the fuel of the walk does not matter once it returns
    have heq := hall fuel _ hcall
    cases heq
    rcases hres with rfl | ⟨src_cpu, dst_cpu, p, hmoved⟩
    · exact ⟨lists, h⟩
    · exact ⟨_, hmoved.queues⟩

theorem RunqueueInv.reachable {st : SchedRun n}
    (h : ((runqueueSystem n).restrict SchedRun.CallOk).Reachable st) :
    ∃ lists, RunqueueInv st lists := by
  apply h.invariant (fun st => ∃ lists, RunqueueInv st lists)
  · rintro ⟨s, R⟩ ⟨⟨s₀, rfl⟩, rfl⟩
    exact ⟨_, RunqueueInv.init s₀⟩
  · rintro st act st' ⟨lists, hinv⟩ ⟨hstep, hok⟩
    exact hinv.step hstep hok

/-- **Run queues**: however the calls are mixed, every registered proc is on
    the one queue of its CPU, which it is allowed to run on, the counters
    count what the queues hold, the calls return, and balancing leaves the
    queues alone or moves one proc that may be moved. -/
theorem registered_procs_queued {st : SchedRun n}
    (h : ((runqueueSystem n).restrict SchedRun.CallOk).Reachable st) :
    ∃ lists, RunqueueInv st lists ∧
      (∀ online proc, st.CallOk (.register online proc) →
        ∃ ret s', kds_proc_register online proc st.sched = .ok (ret, s')) ∧
      (∀ proc mask, st.CallOk (.set_affinity proc mask) →
        ∃ ret s', kds_proc_set_affinity proc mask st.sched = .ok (ret, s')) ∧
      ∀ online, st.CallOk (.load_balance online) →
        ∃ s', (∃ fuel, kds_load_balance fuel online st.sched = some (.ok s')) ∧
          (∀ fuel r, kds_load_balance fuel online st.sched = some r → r = .ok s') ∧
          (s' = st.sched ∨ ∃ src_cpu dst_cpu p, QueueMoved st lists src_cpu dst_cpu p s') := by
  obtain ⟨lists, hinv⟩ := RunqueueInv.reachable h
  refine ⟨lists, hinv, ?_, ?_, fun online hok => hinv.load_balance online hok⟩
  · intro online proc hok
    rcases hinv.register online proc hok with herr | ⟨p, s', -, hret, -⟩
    · exact ⟨_, _, herr⟩
    · exact ⟨_, _, hret⟩
  · intro proc mask hok
    obtain ⟨ret, s', hret, -⟩ := hinv.set_affinity proc mask hok
    exact ⟨ret, s', hret⟩

/-! ### Two CPUs -/

def bothOnline : OnlineMask 2 where
  mask _ := true
  some_online := ⟨0, rfl⟩

/-- A proc that prefers CPU 0 and may run anywhere. -/
def plainProc (kind : ProcKind) : KdsProc 2 where
  pid := 0
  kind := kind
  state := .ready
  static_prio := 0
  dynamic_prio := 0
  last_run_ns := 0
  total_runtime_ns := 0
  wait_time_ns := 0
  cpu := 0
  preferred_cpu := some 0
  allowed_cpus _ := true
  running := false
  run := true

def freshSched : KdsSched 2 := kds_sched_init
  { links := { next := id, prev := id }
    procs _ := plainProc .system
    kds_runqueues _ :=
      { session_procs := [], curr_proc := none, total_runtime_ns := 0, nr_running := 0 }
    kds_next_pid := 0
    total_schedules := 0
    load_balances := 0
    migrations := 0 }

/-- Preparing and registering a proc. -/
def enrol (st : SchedRun 2) (p : ProcAddr) (proc : KdsProc 2) : SchedRun 2 where
  sched :=
    match kds_proc_register bothOnline (some p) (st.sched.setProc p proc) with
    | .ok (_, s) => s
    | .error _ => st.sched
  registered := insert p st.registered

theorem enrol_reachable {st : SchedRun 2}
    (h : ((runqueueSystem 2).restrict SchedRun.CallOk).Reachable st) (p : ProcAddr)
    (proc : KdsProc 2) (hp : p ∉ st.registered) (hroom : st.sched.Room)
    (hrun : proc.run = true) :
    ((runqueueSystem 2).restrict SchedRun.CallOk).Reachable (enrol st p proc) := by
  have h₁ : ((runqueueSystem 2).restrict SchedRun.CallOk).Reachable
      { st with sched := st.sched.setProc p proc } :=
    .step (.prepare p proc) h ⟨⟨hp, rfl⟩, trivial⟩
  have hok : SchedRun.CallOk { st with sched := st.sched.setProc p proc }
      (.register bothOnline (some p)) := by
    intro q hq
    cases hq
    exact .inr ⟨hp, hroom⟩
  obtain ⟨lists, hinv⟩ := RunqueueInv.reachable h₁
  rcases hinv.register bothOnline (some p) hok with herr | ⟨q, s', hq, hret, -⟩
  · -- the callback is set, so the call is not rejected
    obtain ⟨cpu, hsel⟩ := kds_select_cpu_isSome (st.sched.setProc p proc) _
      (readied_allowed proc st.sched.kds_next_pid bothOnline)
    unfold kds_proc_register at herr
    simp only [KdsSched.setProc_procs, if_pos, hrun] at herr
    rw [show (st.sched.setProc p proc).kds_next_pid = st.sched.kds_next_pid from rfl, hsel] at herr
    cases herr
  · cases hq
    apply Lts.System.Reachable.step (.register bothOnline (some p)) h₁
    refine ⟨.inr ⟨p, s', rfl, hret, ?_⟩, hok⟩
    unfold enrol
    rw [hret]

/-- Three procs of one kind on CPU 0 and nobody on CPU 1. -/
def threeOn (kind : ProcKind) : SchedRun 2 :=
  enrol (enrol (enrol ⟨freshSched, ∅⟩ 1 (plainProc kind)) 2 (plainProc kind)) 3 (plainProc kind)

theorem threeOn_reachable (kind : ProcKind) :
    ((runqueueSystem 2).restrict SchedRun.CallOk).Reachable (threeOn kind) := by
  have h₀ : ((runqueueSystem 2).restrict SchedRun.CallOk).Reachable ⟨freshSched, ∅⟩ :=
    .init ⟨⟨_, rfl⟩, rfl⟩
  have h₁ := enrol_reachable h₀ 1 (plainProc kind) (by simp)
    (by unfold KdsSched.Room; decide) rfl
  have h₂ := enrol_reachable h₁ 2 (plainProc kind) (by simp [enrol])
    (by unfold KdsSched.Room; cases kind <;> decide) rfl
  exact enrol_reachable h₂ 3 (plainProc kind) (by simp [enrol])
    (by unfold KdsSched.Room; cases kind <;> decide) rfl

theorem threeOn_balanceOk : (threeOn .system).BalanceOk bothOnline := by
  intro src_cpu dst_cpu _ _ hgap
  -- only the move from CPU 0 to CPU 1 closes a gap
  have hcpus : ∀ src_cpu dst_cpu : Fin 2,
      ((threeOn .system).sched.nr_running dst_cpu).toNat + 2 <
        ((threeOn .system).sched.nr_running src_cpu).toNat → src_cpu = 0 ∧ dst_cpu = 1 := by
    decide
  obtain ⟨rfl, rfl⟩ := hcpus src_cpu dst_cpu hgap
  refine ⟨1, ?_, ?_, ?_, ?_, ?_⟩
  · simp [threeOn, enrol]
  all_goals decide

/-- The balance takes the oldest proc of CPU 0, and no other. -/
theorem registered_procs_queued_three :
    ∃ lists s', RunqueueInv (threeOn .system) lists ∧
      kds_load_balance 1 bothOnline (threeOn .system).sched = some (.ok s') ∧
      s'.nr_running 0 = 2 ∧ s'.nr_running 1 = 1 ∧ (s'.procs 1).cpu = 1 ∧
      QueueMoved (threeOn .system) lists 0 1 1 s' := by
  obtain ⟨lists, hinv, -, -, hbalance⟩ := registered_procs_queued (threeOn_reachable .system)
  obtain ⟨s', -, hall, hres⟩ := hbalance bothOnline threeOn_balanceOk
  have hcall : kds_load_balance 1 bothOnline (threeOn .system).sched =
      some (.ok (kds_migrate (threeOn .system).sched 0 1 (.proc 1))) := rfl
  obtain rfl : kds_migrate (threeOn .system).sched 0 1 (.proc 1) = s' :=
    Except.ok.inj (hall 1 _ hcall)
  refine ⟨lists, _, hinv, hcall, by decide, by decide, by decide, ?_⟩
  rcases hres with hsame | ⟨src_cpu, dst_cpu, p, hmoved⟩
  · -- the call did not leave the state alone: CPU 0 has one proc less
    have hcount := congrArg (fun s => s.nr_running 0) hsame
    exact absurd hcount (by decide)
  · -- only proc 1 is no longer where it was, so it is the one that moved
    have hp : p = 1 := by
      by_contra hne
      have hcpu := congrArg KdsProc.cpu (hmoved.others 1 (Ne.symm hne))
      exact absurd hcpu (by decide)
    subst hp
    have hsrc : src_cpu = 0 := hmoved.movable.placed.symm
    have hdst : dst_cpu = 1 := by
      have hne := hmoved.distinct
      omega
    rw [hsrc, hdst] at hmoved
    exact hmoved

/-- With three session procs on CPU 0 the search finds nobody, and the list
    head of CPU 0 ends up on the list of CPU 1. -/
theorem balance_moves_list_head :
    (runqueueSystem 2).Reachable (threeOn .session) ∧
      ∃ s', kds_load_balance 1 bothOnline (threeOn .session).sched = some (.ok s') ∧
        s'.nr_running 0 = 2 ∧ s'.session_procs 0 = [1, 2, 3] ∧
        ¬ ∃ lists, RunqueueInv { threeOn .session with sched := s' } lists := by
  refine ⟨(threeOn_reachable .session).of_restrict,
    kds_migrate (threeOn .session).sched 0 1 (.head 0), rfl, by decide, by decide, ?_⟩
  rintro ⟨lists, hinv⟩
  have hseg := (hinv.ring 1).seg
  have hnext : (kds_migrate (threeOn .session).sched 0 1 (.head 0)).links.next (.head 1) =
      .head 0 := by decide
  -- whatever the ring of CPU 1 holds, its first node is no proc and not its head
  cases hlist : lists 1 with
  | nil =>
    rw [hlist] at hseg
    have hhead := hnext.symm.trans hseg.1
    exact absurd hhead (by decide)
  | cons p rest =>
    rw [hlist] at hseg
    have hproc := hnext.symm.trans hseg.1.1
    cases hproc

end Kds
