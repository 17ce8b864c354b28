import Kds.Lib.Ageing
import Kds.Proc.Schedule

/-! # Ageing on one CPU

    One CPU calls `kds_proc_schedule` again and again, and the set of procs on
    its list stays the same. A call that picks a proc is a tick of
    `Ageing.Tick` on the dynamic priorities. The search begins at `INT_MIN`
    and takes greater priorities only, so with every proc at `INT_MIN` it
    picks nobody, and nobody ages.
-/

namespace Kds

open Ageing Dlist Fuel Lts

variable {n : Nat}

/-! ### One call -/

/-- The value of `dynamic_prio`. -/
def KdsSched.prio (s : KdsSched n) (p : ProcAddr) : Int := (s.procs p).dynamic_prio.toInt

/-- `procs` are on the list of `cpu`, which does not run anybody, as
    registering leaves them. -/
structure Resting (s : KdsSched n) (cpu : Fin n) (procs : List ProcAddr) : Prop where
  ring : s.links.Ring (.head cpu) (procs.map .proc)
  idle : ∀ p ∈ procs, (s.procs p).running = false
  curr : s.curr_proc cpu = none
  pids : ∀ p ∈ procs, ∀ q ∈ procs, (s.procs p).pid = (s.procs q).pid → p = q

/-- The state after `p` has run for `elapsed_ns`. -/
def KdsSched.ran (s : KdsSched n) (cpu : Fin n) (procs : List ProcAddr) (p : ProcAddr)
    (elapsed_ns : UInt64) : KdsSched n :=
  ((s.start cpu p).agedAll procs elapsed_ns (s.procs p).pid).stop cpu p false elapsed_ns

section call

variable {s : KdsSched n} {cpu : Fin n} {procs : List ProcAddr} {p : ProcAddr} {elapsed_ns : UInt64}

theorem ran_pid (q : ProcAddr) :
    ((s.ran cpu procs p elapsed_ns).procs q).pid = (s.procs q).pid := by
  unfold KdsSched.ran
  by_cases hq : q = p <;> by_cases hmem : q ∈ procs <;> by_cases hp : p ∈ procs <;>
    simp_all

theorem ran_running (q : ProcAddr) :
    ((s.ran cpu procs p elapsed_ns).procs q).running =
      if q = p then false else (s.procs q).running := by
  unfold KdsSched.ran
  by_cases hq : q = p <;> by_cases hmem : q ∈ procs <;> simp_all

theorem ran_dynamic_prio {q : ProcAddr} (hp : p ∈ procs) (hq : q ∈ procs) :
    ((s.ran cpu procs p elapsed_ns).procs q).dynamic_prio =
      if (s.procs q).pid = (s.procs p).pid then (s.procs q).dynamic_prio
      else (s.procs q).dynamic_prio + 1 := by
  unfold KdsSched.ran
  by_cases hqp : q = p
  · subst hqp
    simp [hq, aged_dynamic_prio]
  · simp [hqp, hq, aged_dynamic_prio]

theorem Resting.ran (h : Resting s cpu procs) : Resting (s.ran cpu procs p elapsed_ns) cpu procs where
  ring := h.ring
  idle q hq := by
    rw [ran_running]
    split
    · rfl
    · exact h.idle q hq
  curr := by simp [KdsSched.ran]
  pids q hq r hr heq := by
    rw [ran_pid, ran_pid] at heq
    exact h.pids q hq r hr heq

theorem toInt_succ {x : Int32} (h : x ≠ INT_MAX) : (x + 1).toInt = x.toInt + 1 := by
  have hlt := x.toInt_lt
  have hle := x.le_toInt
  have hne : x.toInt ≠ 2 ^ 31 - 1 := by
    intro heq
    apply h
    rw [← Int32.toInt_inj, heq]
    rfl
  rw [Int32.toInt_add]
  have hone : (1 : Int32).toInt = 1 := rfl
  rw [hone]
  apply Int.bmod_eq_of_le <;> omega

/-- The first of the best is ahead of all others. -/
theorem FirstBest.ahead (h : FirstBest s procs p) (hnodup : procs.Nodup)
    (hidle : ∀ q ∈ procs, (s.procs q).running = false) {q : ProcAddr} (hq : q ∈ procs)
    (hqp : q ≠ p) : Ahead procs s.prio p q := by
  obtain ⟨before, after, rfl, hbefore, hafter⟩ := h.split
  rcases List.mem_append.mp hq with hmem | hmem
  · exact .inl (Int32.lt_iff_toInt_lt.mp (hbefore q hmem (hidle q hq)))
  · have hmem' : q ∈ after := by simpa [hqp] using hmem
    have hle := Int32.le_iff_toInt_le.mp (hafter q hmem' (hidle q hq))
    rcases Int.lt_or_eq_of_le hle with hlt | heq
    · exact .inl hlt
    · right
      refine ⟨heq.symm, ?_⟩
      have hpb : p ∉ before := by
        intro hpb
        exact (List.nodup_append.mp hnodup).2.2 p hpb p (by simp) rfl
      have hqb : q ∉ before := by
        intro hqb
        exact (List.nodup_append.mp hnodup).2.2 q hqb q (by simp [hmem']) rfl
      rw [List.idxOf_append_of_notMem hpb, List.idxOf_append_of_notMem hqb,
        List.idxOf_cons_self, List.idxOf_cons_ne _ (Ne.symm hqp)]
      omega

/-- Running the first of the best is a tick. -/
theorem Resting.tick (h : Resting s cpu procs) (hbest : FirstBest s procs p)
    (hroom : ∀ q ∈ procs, (s.procs q).dynamic_prio ≠ INT_MAX) :
    Tick procs s.prio p (s.ran cpu procs p elapsed_ns).prio where
  mem := hbest.mem
  ahead q hq hqp := hbest.ahead (ring_procs_nodup h.ring) h.idle hq hqp
  keeps := by
    unfold KdsSched.prio
    rw [ran_dynamic_prio hbest.mem hbest.mem, if_pos rfl]
  gains q hq hqp := by
    have hpid : (s.procs q).pid ≠ (s.procs p).pid := fun heq => hqp (h.pids q hq p hbest.mem heq)
    unfold KdsSched.prio
    rw [ran_dynamic_prio hbest.mem hq, if_neg hpid, toInt_succ (hroom q hq)]

/-- **One call** returns. It runs the first of the best, or nobody if all are at `INT_MIN`. -/
theorem Resting.schedule (h : Resting s cpu procs) (online : OnlineMask n)
    (start_ns now_ns : UInt64) :
    ∃ r, Settles (fun fuel => kds_proc_schedule fuel online cpu start_ns now_ns s) (.ok r) ∧
      (r = (none, s) ∧ (∀ p ∈ procs, (s.procs p).dynamic_prio = INT_MIN) ∨
        ∃ p, r = (some p, s.ran cpu procs p (now_ns - start_ns)) ∧
          (s.procs p).dynamic_prio ≠ INT_MIN ∧ FirstBest s procs p) := by
  have hpick := kds_proc_pick_settles h.ring (KdsSched.fastPath_none h.curr online)
  rcases s.best_spec procs INT_MIN none with ⟨heq, hle⟩ | ⟨p, heq, hlt, hbest⟩
  · rw [heq] at hpick
    refine ⟨(none, s), hpick.andThen (.const _), .inl ⟨rfl, fun p hp => ?_⟩⟩
    exact Int32.le_antisymm (hle p hp (h.idle p hp)) (Int32.minValue_le _)
  · rw [heq] at hpick
    have hacc : Settles
        (fun fuel => kds_proc_account fuel cpu p false (now_ns - start_ns) (s.start cpu p))
        (.ok (s.ran cpu procs p (now_ns - start_ns))) := by
      have hpid : ((s.start cpu p).procs p).pid = (s.procs p).pid := by simp
      unfold KdsSched.ran
      rw [← hpid]
      exact kds_proc_account_settles h.ring
    refine ⟨(some p, s.ran cpu procs p (now_ns - start_ns)),
      hpick.andThen (hacc.andThen (.const _)), .inr ⟨p, rfl, ?_, hbest⟩⟩
    intro hmin
    rw [hmin] at hlt
    exact Int32.lt_irrefl hlt

end call

/-! ### Calls one after the other -/

/-- Calls of `kds_proc_schedule` one after the other, and whom they ran: no
    priority has reached `INT_MAX` when a call begins. -/
inductive Schedules (cpu : Fin n) (procs : List ProcAddr) :
    KdsSched n → List (Option ProcAddr) → KdsSched n → Prop where
  | nil (s : KdsSched n) : Schedules cpu procs s [] s
  | cons {s s₁ s' : KdsSched n} {picked : Option ProcAddr} {ran : List (Option ProcAddr)}
      (online : OnlineMask n) (fuel : Nat) (start_ns now_ns : UInt64) :
      (∀ p ∈ procs, (s.procs p).dynamic_prio ≠ INT_MAX) →
      kds_proc_schedule fuel online cpu start_ns now_ns s = some (.ok (picked, s₁)) →
      Schedules cpu procs s₁ ran s' → Schedules cpu procs s (picked :: ran) s'

/-- What ageing is for, over any number of calls: the priorities stay
    together, and a proc that is passed over gains one by every call, does not
    fall back, loses to another one no more often than its lead allows, and is
    run at some time. -/
structure AgesWell (s : KdsSched n) (cpu : Fin n) (procs : List ProcAddr) : Prop where
  spread : ∀ ran s', Schedules cpu procs s ran s' →
    spread procs s'.prio ≤ max (spread procs s.prio) 1
  gained : ∀ before s₁ ran s₂, Schedules cpu procs s before s₁ → Schedules cpu procs s₁ ran s₂ →
    ∀ p ∈ procs, some p ∉ ran → s₂.prio p = s₁.prio p + ran.length
  rank : ∀ before s₁ ran s₂, Schedules cpu procs s before s₁ → Schedules cpu procs s₁ ran s₂ →
    ∀ p ∈ procs, some p ∉ ran → rank procs s₂.prio p ≤ rank procs s₁.prio p
  behind : ∀ before s₁ ran s₂, Schedules cpu procs s before s₁ → Schedules cpu procs s₁ ran s₂ →
    ∀ p ∈ procs, some p ∉ ran →
      ∀ q, (ran.count (some q) : Int) ≤ max 0 (s₁.prio q - s₁.prio p + 1)
  served : ∀ before s₁ ran s₂, Schedules cpu procs s before s₁ → Schedules cpu procs s₁ ran s₂ →
    ∀ p ∈ procs, some p ∉ ran →
      ran.length ≤ (procs.length - 1) * ((max (Ageing.spread procs s.prio) 1).toNat + 1)

section calls

variable {s s' : KdsSched n} {cpu : Fin n} {procs : List ProcAddr} {ran : List (Option ProcAddr)}

/-- Somebody can be picked. -/
def KdsSched.Live (s : KdsSched n) (procs : List ProcAddr) : Prop :=
  ∃ p ∈ procs, (s.procs p).dynamic_prio ≠ INT_MIN

/-- **Run**: if somebody can be picked, every call is a tick. -/
theorem Resting.ticks (h : Resting s cpu procs) (hlive : s.Live procs)
    (hrun : Schedules cpu procs s ran s') :
    Resting s' cpu procs ∧ s'.Live procs ∧
      ∃ winners, ran = winners.map some ∧ Ticks procs s.prio winners s'.prio := by
  induction hrun with
  | nil s => exact ⟨h, hlive, [], rfl, .nil _⟩
  | @cons s _ _ _ _ online fuel start_ns now_ns hroom hcall _ ih =>
    obtain ⟨r, hsettles, hr⟩ := h.schedule online start_ns now_ns
    have heq := hsettles.only fuel _ hcall
    cases heq
    rcases hr with ⟨-, hmin⟩ | ⟨p, hp, hlow, hbest⟩
    · obtain ⟨p, hp, hne⟩ := hlive
      exact absurd (hmin p hp) hne
    · cases hp
      have hlive' : (s.ran cpu procs p (now_ns - start_ns)).Live procs := by
        refine ⟨p, hbest.mem, ?_⟩
        rwa [ran_dynamic_prio hbest.mem hbest.mem, if_pos rfl]
      obtain ⟨hrest, hlive', winners, rfl, hticks⟩ := ih h.ran hlive'
      exact ⟨hrest, hlive', p :: winners, rfl, .cons (h.tick hbest hroom) hticks⟩

/-- **Ageing** does what it is for if and only if not all procs are at `INT_MIN`. -/
theorem ages_well_iff (h : Resting s cpu procs) (htwo : 2 ≤ procs.length) :
    AgesWell s cpu procs ↔ ∃ p ∈ procs, (s.procs p).dynamic_prio ≠ INT_MIN := by
  have hne : procs ≠ [] := by
    rintro rfl
    simp at htwo
  constructor
  · intro hages
    by_contra hlow
    push Not at hlow
    -- the first call runs nobody, and nobody gains
    obtain ⟨p, hp⟩ := List.exists_mem_of_ne_nil procs hne
    obtain ⟨r, hsettles, ⟨rfl, -⟩ | ⟨q, rfl, hq, hbest⟩⟩ := h.schedule ⟨fun _ => true, cpu, rfl⟩ 0 0
    · obtain ⟨fuel, hcall⟩ := hsettles.exists_eq
      have hroom : ∀ p ∈ procs, (s.procs p).dynamic_prio ≠ INT_MAX := by
        intro p hp
        rw [hlow p hp]
        decide
      have hgain := hages.gained [] s [none] s (.nil s) (.cons _ fuel 0 0 hroom hcall (.nil s)) p hp
        (by simp)
      rw [List.length_singleton] at hgain
      omega
    · exact hq (hlow q hbest.mem)
  · intro hlive
    -- what follows about a proc that is passed over from `s₁` on
    have hwait : ∀ {before ran : List (Option ProcAddr)} {s₁ s₂ : KdsSched n} {p : ProcAddr},
        Schedules cpu procs s before s₁ → Schedules cpu procs s₁ ran s₂ → some p ∉ ran →
        Ageing.spread procs s₁.prio ≤ max (Ageing.spread procs s.prio) 1 ∧
          ∃ winners, ran = winners.map some ∧ p ∉ winners ∧
            Ticks procs s₁.prio winners s₂.prio := by
      intro before ran s₁ s₂ p hbefore hran hp
      obtain ⟨hrest, hlive₁, _, _, hticks⟩ := h.ticks hlive hbefore
      obtain ⟨-, -, winners, rfl, hticks'⟩ := hrest.ticks hlive₁ hran
      refine ⟨hticks.spread_le hne, winners, rfl, ?_, hticks'⟩
      simpa using hp
    constructor
    · intro ran s' hran
      obtain ⟨-, -, _, _, hticks⟩ := h.ticks hlive hran
      exact hticks.spread_le hne
    · intro before s₁ ran s₂ hbefore hran p hp hpass
      obtain ⟨-, winners, rfl, hnot, hticks⟩ := hwait hbefore hran hpass
      rw [List.length_map]
      exact hticks.gained hp hnot
    · intro before s₁ ran s₂ hbefore hran p hp hpass
      obtain ⟨-, winners, rfl, hnot, hticks⟩ := hwait hbefore hran hpass
      exact hticks.rank_le hp hnot
    · intro before s₁ ran s₂ hbefore hran p hp hpass q
      obtain ⟨-, winners, rfl, hnot, hticks⟩ := hwait hbefore hran hpass
      rw [List.count_map_of_injective _ _ (Option.some_injective _)]
      exact hticks.wins_le hp hnot q
    · intro before s₁ ran s₂ hbefore hran p hp hpass
      obtain ⟨hspread, winners, rfl, hnot, hticks⟩ := hwait hbefore hran hpass
      rw [List.length_map]
      apply hticks.wait_le hp hnot
      intro q hq
      have hle := (spread_le_iff hne _).mp hspread q hq p hp
      omega

end calls

/-! ### Registering gives different pids -/

/-- The counter of the pids has not come round. -/
def SchedRun.PidOk (st : SchedRun n) : SchedAct n → Prop
  | .register _ _ => st.sched.kds_next_pid.toNat + 1 < 2 ^ 64
  | _ => True

/-- Every registered proc has a pid of its own, which the counter is past. -/
structure PidInv (st : SchedRun n) : Prop where
  below : ∀ p ∈ st.registered, (st.sched.procs p).pid.toNat < st.sched.kds_next_pid.toNat
  own : ∀ p ∈ st.registered, ∀ q ∈ st.registered,
    (st.sched.procs p).pid = (st.sched.procs q).pid → p = q

section pids

variable {s s' : KdsSched n} {R : Set ProcAddr}

/-- Calls that change no pid of a registered proc. -/
theorem PidInv.of_same {st st' : SchedRun n} (h : PidInv st)
    (hR : ∀ p ∈ st'.registered, p ∈ st.registered)
    (hnext : st'.sched.kds_next_pid = st.sched.kds_next_pid)
    (hpid : ∀ p ∈ st'.registered, (st'.sched.procs p).pid = (st.sched.procs p).pid) :
    PidInv st' where
  below p hp := by
    rw [hpid p hp, hnext]
    exact h.below p (hR p hp)
  own p hp q hq heq := by
    rw [hpid p hp, hpid q hq] at heq
    exact h.own p (hR p hp) q (hR q hq) heq

@[simp] theorem enqueue_next_pid (s : KdsSched n) (cpu : Fin n) (p : ProcAddr) :
    (s.enqueue cpu p).kds_next_pid = s.kds_next_pid := by
  unfold KdsSched.enqueue
  cases (s.procs p).kind <;> rfl

@[simp] theorem dequeue_next_pid (s : KdsSched n) (cpu : Fin n) (p : ProcAddr) :
    (s.dequeue cpu p).kds_next_pid = s.kds_next_pid := by
  unfold KdsSched.dequeue
  cases (s.procs p).kind <;> rfl

theorem kds_migrate_pid (s : KdsSched n) (src_cpu dst_cpu : Fin n) (cursor : QueueNode n)
    (p : ProcAddr) :
    (kds_migrate s src_cpu dst_cpu cursor).kds_next_pid = s.kds_next_pid ∧
      ((kds_migrate s src_cpu dst_cpu cursor).procs p).pid = (s.procs p).pid := by
  unfold kds_migrate
  cases cursor with
  | head c => exact ⟨rfl, rfl⟩
  | proc q =>
    refine ⟨rfl, ?_⟩
    simp only [KdsSched.setCursorCpu, KdsSched.setProc, KdsSched.setRq]
    split
    · next h => rw [h]
    · rfl

theorem kds_proc_register_error {online : OnlineMask n} {proc : Option ProcAddr} {e : Errno}
    (h : kds_proc_register online proc s = .ok (.error e, s')) : s' = s := by
  cases proc with
  | none =>
    cases h
    rfl
  | some p =>
    unfold kds_proc_register at h
    by_cases hrun : (s.procs p).run = false
    · simp only [if_pos hrun] at h
      cases h
      rfl
    · simp only [if_neg hrun] at h
      split at h <;> cases h

/-- What a call of `kds_proc_register` that succeeds does to the pids. -/
theorem kds_proc_register_pid {online : OnlineMask n} {p : ProcAddr}
    (h : kds_proc_register online (some p) s = .ok (.ok (), s')) :
    s'.kds_next_pid = s.kds_next_pid + 1 ∧ (s'.procs p).pid = s.kds_next_pid ∧
      ∀ q, q ≠ p → s'.procs q = s.procs q := by
  unfold kds_proc_register at h
  by_cases hrun : (s.procs p).run = false
  · simp only [if_pos hrun] at h
    cases h
  · simp only [if_neg hrun] at h
    split at h
    · cases h
    · cases h
      refine ⟨by rw [enqueue_next_pid]; rfl, ?_, fun q hq => ?_⟩
      · rw [KdsSched.enqueue_procs, KdsSched.setProc_procs, if_pos rfl]
        rfl
      · rw [KdsSched.enqueue_procs, KdsSched.setProc_procs, if_neg hq]

theorem PidInv.register {online : OnlineMask n} {p : ProcAddr} (h : PidInv ⟨s, R⟩) (hp : p ∉ R)
    (hroom : s.kds_next_pid.toNat + 1 < 2 ^ 64)
    (hcall : kds_proc_register online (some p) s = .ok (.ok (), s')) :
    PidInv ⟨s', insert p R⟩ := by
  obtain ⟨hnext, hpid, hothers⟩ := kds_proc_register_pid hcall
  have hlt : s'.kds_next_pid.toNat = s.kds_next_pid.toNat + 1 := by
    rw [hnext, UInt64.toNat_add]
    exact Nat.mod_eq_of_lt hroom
  have hold : ∀ q ∈ R, s'.procs q = s.procs q := fun q hq =>
    hothers q fun heq => hp (heq ▸ hq)
  have hbelow : ∀ q ∈ R, (s.procs q).pid ≠ s.kds_next_pid := by
    intro q hq heq
    have hlt := h.below q hq
    dsimp only at hlt
    rw [heq] at hlt
    omega
  constructor
  · intro q hq
    dsimp only
    rw [hlt]
    rcases Set.mem_insert_iff.mp hq with rfl | hq
    · rw [hpid]
      omega
    · rw [hold q hq]
      exact Nat.lt_succ_of_lt (h.below q hq)
  · intro q hq r hr heq
    dsimp only at heq
    rcases Set.mem_insert_iff.mp hq with hqp | hqR <;>
      rcases Set.mem_insert_iff.mp hr with hrp | hrR
    · rw [hqp, hrp]
    · rw [hqp, hpid, hold r hrR] at heq
      exact absurd heq.symm (hbelow r hrR)
    · rw [hrp, hpid, hold q hqR] at heq
      exact absurd heq (hbelow q hqR)
    · rw [hold q hqR, hold r hrR] at heq
      exact h.own q hqR r hrR heq

theorem PidInv.step {st st' : SchedRun n} {act : SchedAct n} (h : PidInv st)
    (hstep : st.step act st') (hcall : st.CallOk act) (hpid : st.PidOk act) : PidInv st' := by
  cases act with
  | prepare p proc =>
    obtain ⟨hp, rfl⟩ := hstep
    -- the proc set up is not a registered one
    refine h.of_same (fun q hq => hq) rfl fun q hq => ?_
    have hqp : q ≠ p := fun heq => hp (heq ▸ hq)
    simp [hqp]
  | set_running p running =>
    obtain rfl := hstep
    refine h.of_same (fun q hq => hq) rfl fun q _ => ?_
    by_cases hqp : q = p <;> simp [hqp]
  | register online proc =>
    rcases hstep with ⟨e, s, hret, rfl⟩ | ⟨p, s, rfl, hret, rfl⟩
    -- a registration that fails leaves the scheduler as it was
    · rw [kds_proc_register_error hret]
      exact h
    · rcases hcall p rfl with hrun | ⟨hp, -⟩
      · unfold kds_proc_register at hret
        simp only [if_pos hrun] at hret
        cases hret
      · exact h.register hp hpid hret
  | unregister p =>
    obtain ⟨-, rfl⟩ := hstep
    refine h.of_same (fun q hq => hq.1) (dequeue_next_pid _ _ _) fun q _ => ?_
    exact congrArg KdsProc.pid (congrFun (KdsSched.dequeue_procs _ _ _) q)
  | set_affinity proc mask =>
    obtain ⟨ret, s, hret, rfl⟩ := hstep
    cases proc with
    | none =>
      cases hret
      exact h
    | some p =>
      unfold kds_proc_set_affinity at hret
      by_cases hempty : cpumask_empty mask = true
      · simp only [if_pos hempty] at hret
        cases hret
        exact h
      by_cases hstay : mask (st.sched.procs p).cpu = true
      · simp only [if_neg hempty, if_pos hstay] at hret
        cases hret
        refine h.of_same (fun q hq => hq) rfl fun q _ => ?_
        by_cases hqp : q = p <;> simp [hqp]
      · simp only [if_neg hempty, if_neg hstay] at hret
        split at hret
        · cases hret
        · cases hret
          refine h.of_same (fun q hq => hq) ?_ fun q _ => ?_
          -- the proc changes its queue; neither half of that gives out a pid
          · exact (enqueue_next_pid _ _ _).trans (dequeue_next_pid _ _ _)
          · dsimp only
            by_cases hqp : q = p <;> simp [hqp]
  | load_balance online =>
    obtain ⟨fuel, s, hret, rfl⟩ := hstep
    unfold kds_load_balance at hret
    dsimp only at hret
    split at hret
    · split at hret
      · cases hret
        exact h
      · split at hret
        · cases hret
        · cases hret
        · cases hret
          exact h.of_same (fun q hq => hq) (kds_migrate_pid _ _ _ _ 0).1
            fun q _ => (kds_migrate_pid _ _ _ _ q).2
    · cases hret
      exact h

/-- **From registration on**: where nobody runs, the procs of a CPU are as one call after the
    other needs them. -/
theorem registered_resting {st : SchedRun n}
    (h : ((runqueueSystem n).restrict fun st act => st.CallOk act ∧ st.PidOk act).Reachable st)
    (hidle : ∀ p ∈ st.registered, (st.sched.procs p).running = false) (cpu : Fin n) :
    ∃ procs, Resting st.sched cpu procs ∧ ∀ p, p ∈ procs ↔
      p ∈ st.registered ∧ (st.sched.procs p).kind = .system ∧ (st.sched.procs p).cpu = cpu := by
  have hpids : PidInv st := by
    apply h.invariant PidInv
    · rintro ⟨s, R⟩ ⟨-, rfl⟩
      exact ⟨fun p hp => absurd hp (Set.notMem_empty p), fun p hp => absurd hp (Set.notMem_empty p)⟩
    · rintro st act st' hinv ⟨hstep, hcall, hpid⟩
      exact hinv.step hstep hcall hpid
  have hqueues : ∃ lists, RunqueueInv st lists := by
    apply h.invariant (fun st => ∃ lists, RunqueueInv st lists)
    · rintro ⟨s, R⟩ ⟨⟨s₀, rfl⟩, rfl⟩
      exact ⟨_, RunqueueInv.init s₀⟩
    · rintro st act st' ⟨lists, hinv⟩ ⟨hstep, hcall, -⟩
      exact hinv.step hstep hcall
  obtain ⟨lists, hinv⟩ := hqueues
  have hmem : ∀ p ∈ lists cpu, p ∈ st.registered := fun p hp => ((hinv.system cpu p).mp hp).1
  refine ⟨lists cpu, ⟨hinv.ring cpu, fun p hp => hidle p (hmem p hp),
    curr_proc_none h.of_restrict cpu, ?_⟩, hinv.system cpu⟩
  exact fun p hp q hq => hpids.own p (hmem p hp) q (hmem q hq)

end pids

/-! ### Two procs -/

/-- Two procs on CPU 0, both with priority `prio`. -/
def twoOn (prio : Int32) : SchedRun 2 :=
  let proc := { plainProc .system with dynamic_prio := prio }
  enrol (enrol ⟨freshSched, ∅⟩ 1 proc) 2 proc

theorem twoOn_reachable (prio : Int32) :
    ((runqueueSystem 2).restrict SchedRun.CallOk).Reachable (twoOn prio) := by
  have h₀ : ((runqueueSystem 2).restrict SchedRun.CallOk).Reachable ⟨freshSched, ∅⟩ :=
    .init ⟨⟨_, rfl⟩, rfl⟩
  have h₁ := enrol_reachable h₀ 1 { plainProc .system with dynamic_prio := prio } (by simp)
    (by unfold KdsSched.Room; decide) rfl
  refine enrol_reachable h₁ 2 { plainProc .system with dynamic_prio := prio } (by simp [enrol])
    ?_ rfl
  exact Fin.forall_fin_two.mpr ⟨of_decide_eq_false rfl, of_decide_eq_false rfl⟩

theorem twoOn_resting (prio : Int32) : Resting (twoOn prio).sched 0 [1, 2] where
  ring := ⟨by decide, ⟨rfl, rfl⟩, ⟨rfl, rfl⟩, rfl, rfl⟩
  idle p hp := by
    rcases List.mem_pair.mp hp with rfl | rfl <;> rfl
  curr := rfl
  pids p hp q hq heq := by
    rcases List.mem_pair.mp hp with rfl | rfl <;> rcases List.mem_pair.mp hq with rfl | rfl
    · rfl
    · cases heq
    · cases heq
    · rfl

theorem ages_well_two : AgesWell (twoOn 0).sched 0 [1, 2] :=
  (ages_well_iff (twoOn_resting 0) (by decide)).mpr ⟨1, by decide, by decide⟩

/-- With both at `INT_MIN` a call runs nobody and leaves everything as it is. -/
theorem ages_not_well :
    ((runqueueSystem 2).restrict SchedRun.CallOk).Reachable (twoOn INT_MIN) ∧
      (∃ fuel, kds_proc_schedule fuel bothOnline 0 0 0 (twoOn INT_MIN).sched =
        some (.ok (none, (twoOn INT_MIN).sched))) ∧
      ¬ AgesWell (twoOn INT_MIN).sched 0 [1, 2] := by
  have hcall : kds_proc_schedule 3 bothOnline 0 0 0 (twoOn INT_MIN).sched =
      some (.ok (none, (twoOn INT_MIN).sched)) := rfl
  refine ⟨twoOn_reachable INT_MIN, ⟨3, hcall⟩, fun h => ?_⟩
  have hgain := h.gained [] _ [none] _ (.nil _)
    (.cons bothOnline 3 0 0 (by decide) hcall (.nil _)) 1 (by decide) (by decide)
  rw [List.length_singleton] at hgain
  omega

end Kds
