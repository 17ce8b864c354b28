import Kds.Exec.Handoff
import Kds.Lib.Slices

/-! # Slices of an insert

    An exec looks at its clock between two pages of a walk, between two
    levels of the descent, and in front of the phases that change pages. When
    its slice is spent it returns, and it is called again later. Everything
    it needs then is in the exec, so that the calls together do what one call
    does whose slice never ends.
-/

open Bytes Fallible Slices

namespace Kds

/-! ## Section 1: Without the clock -/

/-- The same, but no slice expires any more. -/
def ExecEnv.unsliced (env : ExecEnv) : ExecEnv := { env with ticks := [] }

@[simp] theorem unsliced_pool (env : ExecEnv) : env.unsliced.pool = env.pool := rfl
@[simp] theorem unsliced_staged (env : ExecEnv) : env.unsliced.staged = env.staged := rfl
@[simp] theorem unsliced_wal (env : ExecEnv) : env.unsliced.wal = env.wal := rfl

@[simp] theorem slice_expired_unsliced (env : ExecEnv) :
    kds_exec_slice_expired env.unsliced = (false, env.unsliced) := rfl

/-- The clock is all that a look at the clock changes. -/
@[simp] theorem unsliced_slice_expired (env : ExecEnv) :
    (kds_exec_slice_expired env).2.unsliced = env.unsliced := by
  unfold kds_exec_slice_expired
  split <;> rfl

@[simp] theorem slice_expired_pool (env : ExecEnv) :
    (kds_exec_slice_expired env).2.pool = env.pool := by
  unfold kds_exec_slice_expired
  split <;> rfl

theorem page_alloc_unsliced (env : ExecEnv) (type : PageType) :
    kds_page_alloc env.unsliced type =
      ((kds_page_alloc env type).1, (kds_page_alloc env type).2.unsliced) := by
  unfold kds_page_alloc
  rw [unsliced_staged]
  split <;> rfl

/-! ## Section 2: The exec of HEAP tables -/

section heap

/-- The exec still has the same row for the same table. -/
def SameJob (exec exec' : HeapInsertExec) : Prop :=
  exec'.rel = exec.rel ∧ exec'.data_len = exec.data_len

theorem SameJob.trans {exec exec₁ exec' : HeapInsertExec} (h : SameJob exec exec₁)
    (h' : SameJob exec₁ exec') : SameJob exec exec' :=
  ⟨h'.1.trans h.1, h'.2.trans h.2⟩

/-- A walk that ends does so without the clock as well, and where one stops
    with its slice spent it goes on, without the clock, as it would have. -/
def WalkResumes (walk : HeapInsertExec → ExecEnv → Nat → Option (ExecResult × HeapInsertExec × ExecEnv))
    (turns : Nat) (exec : HeapInsertExec) (env : ExecEnv) (r : ExecResult) (exec' : HeapInsertExec)
    (env' : ExecEnv) : Prop :=
  SameJob exec exec' ∧ (r ≠ .cont → walk exec env.unsliced turns = some (r, exec', env'.unsliced)) ∧
    (r = .cont → ∀ n out, walk exec' env'.unsliced n = some out →
      walk exec env.unsliced (turns + n) = some out)

theorem dup_scan_more_turns {exec : HeapInsertExec} {env : ExecEnv}
    {out : ExecResult × HeapInsertExec × ExecEnv} (turns more : Nat)
    (h : heap_insert_run_dup_scan exec env turns = some out) :
    heap_insert_run_dup_scan exec env (turns + more) = some out := by
  induction turns generalizing exec env with
  | zero => simp [heap_insert_run_dup_scan] at h
  | succ n ih =>
    rw [Nat.succ_add]
    unfold heap_insert_run_dup_scan at h ⊢
    by_cases hend : exec.cursor_page_id = 0
    · rw [if_pos hend] at h ⊢
      exact h
    · rw [if_neg hend] at h ⊢
      split at h
      · exact h
      · exact h
      · dsimp only at h ⊢
        split at h
        · next hnext =>
          rw [if_pos hnext]
          exact ih h
        · next hnext =>
          rw [if_neg hnext]
          split at h
          · next hexp =>
            rw [if_pos hexp]
            exact h
          · next hexp =>
            rw [if_neg hexp]
            exact ih h

theorem dup_scan_resumes (turns : Nat) : ∀ {exec : HeapInsertExec} {env : ExecEnv} {r exec' env'},
    heap_insert_run_dup_scan exec env turns = some (r, exec', env') →
      WalkResumes heap_insert_run_dup_scan turns exec env r exec' env' := by
  induction turns with
  | zero =>
    intro exec env r exec' env' hrun
    simp [heap_insert_run_dup_scan] at hrun
  | succ n ih =>
    intro exec env r exec' env' hrun
    unfold WalkResumes
    rw [heap_insert_run_dup_scan]
    simp only [Nat.succ_add, heap_insert_run_dup_scan]
    unfold heap_insert_run_dup_scan at hrun
    by_cases hend : exec.cursor_page_id = 0
    · rw [if_pos hend] at hrun
      obtain ⟨rfl, rfl, rfl⟩ : ExecResult.done = r ∧ exec = exec' ∧ env = env' := by simpa using hrun
      simp [hend, SameJob]
    · simp only [if_neg hend, unsliced_pool] at hrun ⊢
      cases hscan : kds_heap_scan_page_for_pk env.pool exec.cursor_page_id exec.new_pk with
      | mk res pool =>
        rw [hscan] at hrun
        cases res with
        | error e =>
          obtain ⟨rfl, rfl, rfl⟩ : ExecResult.error = r ∧ exec.fail e = exec' ∧
              { env with pool := pool } = env' := by simpa using hrun
          simp [ExecEnv.unsliced, SameJob, HeapInsertExec.fail]
        | ok found =>
          obtain ⟨_ | _, next⟩ := found
          swap
          · obtain ⟨rfl, rfl, rfl⟩ : ExecResult.error = r ∧ exec.fail .EEXIST = exec' ∧
                { env with pool := pool } = env' := by simpa using hrun
            simp [ExecEnv.unsliced, SameJob, HeapInsertExec.fail]
          have hpool : ({ env with pool := pool } : ExecEnv).unsliced =
              { env.unsliced with pool := pool } := rfl
          dsimp only at hrun ⊢
          by_cases hnext : next = 0
          · simp only [if_pos hnext, ← hpool] at hrun ⊢
            exact ih hrun
          · simp only [if_neg hnext, ← hpool, slice_expired_unsliced, Bool.false_eq_true,
              if_false] at hrun ⊢
            by_cases hexp : (kds_exec_slice_expired { env with pool := pool }).1
            · rw [if_pos hexp] at hrun
              obtain ⟨rfl, rfl, rfl⟩ : ExecResult.cont = r ∧ exec.goTo next = exec' ∧
                  (kds_exec_slice_expired { env with pool := pool }).2 = env' := by simpa using hrun
              -- the rest of the walk, and the page before it
              refine ⟨⟨rfl, rfl⟩, fun h => absurd rfl h, fun _ m out hout => ?_⟩
              rw [unsliced_slice_expired] at hout
              rw [Nat.add_comm]
              exact dup_scan_more_turns m n hout
            · rw [if_neg hexp] at hrun
              have hwalk := ih hrun
              unfold WalkResumes at hwalk
              rw [unsliced_slice_expired] at hwalk
              exact hwalk

/-- The chain grows without a look at the clock. -/
theorem growChain_unsliced {exec exec' : HeapInsertExec} {env env' : ExecEnv} {frame : PageId}
    {r : ExecResult} (h : growChain exec env frame = (r, exec', env')) :
    r ≠ .cont ∧ SameJob exec exec' ∧
      growChain exec env.unsliced frame = (r, exec', env'.unsliced) := by
  unfold growChain at h ⊢
  rw [page_alloc_unsliced]
  cases halloc : kds_page_alloc env .heap with
  | mk new env₁ =>
    rw [halloc] at h
    cases new with
    | none =>
      obtain ⟨rfl, rfl, rfl⟩ : ExecResult.error = r ∧ exec.fail .ENOSPC = exec' ∧
          { env₁ with pool := kds_buf_unpin env₁.pool frame } = env' := by simpa using h
      exact ⟨by simp, ⟨rfl, rfl⟩, rfl⟩
    | some new_frame =>
      dsimp only [unsliced_pool] at h ⊢
      cases hput : putRow (env₁.pool.setFrame new_frame (heap_init_page (env₁.pool.frame new_frame)))
          new_frame exec with
      | mk res pool =>
        rw [hput] at h
        cases res with
        | error e =>
          obtain ⟨rfl, rfl, rfl⟩ : ExecResult.error = r ∧ exec.fail e = exec' ∧
              { env₁ with pool := kds_buf_unpin (kds_buf_unpin pool new_frame) frame } = env' := by
            simpa using h
          exact ⟨by simp, ⟨rfl, rfl⟩, rfl⟩
        | ok tid =>
          obtain ⟨rfl, rfl, rfl⟩ : ExecResult.done = r ∧ _ = exec' ∧ _ = env' := by simpa using h
          exact ⟨by simp, ⟨rfl, rfl⟩, rfl⟩

theorem find_tail_more_turns {exec : HeapInsertExec} {env : ExecEnv}
    {out : ExecResult × HeapInsertExec × ExecEnv} (turns more : Nat)
    (h : heap_insert_run_find_tail exec env turns = some out) :
    heap_insert_run_find_tail exec env (turns + more) = some out := by
  induction turns generalizing exec env with
  | zero => simp [heap_insert_run_find_tail] at h
  | succ n ih =>
    rw [Nat.succ_add]
    unfold heap_insert_run_find_tail at h ⊢
    split at h
    · exact h
    · dsimp only at h ⊢
      split at h
      · exact h
      · next frame pool _ _ pool' _ =>
        by_cases hnext : heap_get_next_page_id (pool'.frame frame) = 0
        · rw [if_pos hnext] at h ⊢
          exact h
        · rw [if_neg hnext] at h ⊢
          split at h
          · next hexp =>
            rw [if_pos hexp]
            exact h
          · next hexp =>
            rw [if_neg hexp]
            exact ih h
      · exact h

theorem find_tail_resumes (turns : Nat) : ∀ {exec : HeapInsertExec} {env : ExecEnv} {r exec' env'},
    heap_insert_run_find_tail exec env turns = some (r, exec', env') →
      WalkResumes heap_insert_run_find_tail turns exec env r exec' env' := by
  induction turns with
  | zero =>
    intro exec env r exec' env' hrun
    simp [heap_insert_run_find_tail] at hrun
  | succ n ih =>
    intro exec env r exec' env' hrun
    unfold WalkResumes
    simp only [Nat.succ_add, heap_insert_run_find_tail, unsliced_pool]
    unfold heap_insert_run_find_tail at hrun
    cases hload : kds_buf_lookup_or_load env.pool exec.cursor_page_id with
    | mk res pool =>
      rw [hload] at hrun
      cases res with
      | error e =>
        obtain ⟨rfl, rfl, rfl⟩ : ExecResult.error = r ∧ exec.fail e = exec' ∧
            { env with pool := pool } = env' := by simpa using hrun
        simp [ExecEnv.unsliced, SameJob, HeapInsertExec.fail]
      | ok frame =>
        dsimp only at hrun ⊢
        cases hput : putRow pool frame exec with
        | mk res pool₁ =>
          rw [hput] at hrun
          cases res with
          | ok tid =>
            obtain ⟨rfl, rfl, rfl⟩ : ExecResult.done = r ∧ _ = exec' ∧ _ = env' := by
              simpa using hrun
            simp [ExecEnv.unsliced, SameJob]
          | error e =>
            cases e with
            | ENOSPC =>
              have hpool : ∀ p, ({ env with pool := p } : ExecEnv).unsliced =
                  { env.unsliced with pool := p } := fun _ => rfl
              dsimp only at hrun ⊢
              by_cases hnext : heap_get_next_page_id (pool₁.frame frame) = 0
              · simp only [if_pos hnext, ← hpool] at hrun ⊢
                obtain ⟨hr, hjob, hgrow⟩ := growChain_unsliced (Option.some.inj hrun)
                rw [hgrow]
                exact ⟨hjob, fun _ => rfl, fun h => absurd h hr⟩
              · simp only [if_neg hnext, ← hpool, slice_expired_unsliced, Bool.false_eq_true,
                  if_false] at hrun ⊢
                split at hrun
                · obtain ⟨rfl, rfl, rfl⟩ : ExecResult.cont = r ∧ exec.goTo _ = exec' ∧
                      (kds_exec_slice_expired _).2 = env' := by simpa using hrun
                  -- the rest of the walk, and the page before it
                  refine ⟨⟨rfl, rfl⟩, fun h => absurd rfl h, fun _ m out hout => ?_⟩
                  rw [unsliced_slice_expired] at hout
                  rw [Nat.add_comm]
                  exact find_tail_more_turns m n hout
                · have hwalk := ih hrun
                  unfold WalkResumes at hwalk
                  rw [unsliced_slice_expired] at hwalk
                  exact hwalk
            | _ =>
              obtain ⟨rfl, rfl, rfl⟩ : ExecResult.error = r ∧ exec.fail _ = exec' ∧
                  { env with pool := kds_buf_unpin pool₁ frame } = env' := by simpa using hrun
              simp [ExecEnv.unsliced, SameJob, HeapInsertExec.fail]

variable {crc32c : UInt32 → List UInt8 → UInt32} {rel : Relation}

theorem heapRunPhase_more_turns {exec : HeapInsertExec} {env : ExecEnv}
    {out : Option ExecResult × HeapInsertExec × ExecEnv} (turns more : Nat)
    (h : heapRunPhase crc32c rel turns exec env = some out) :
    heapRunPhase crc32c rel (turns + more) exec env = some out := by
  unfold heapRunPhase at h ⊢
  cases hphase : exec.phase with
  | dupScan =>
    rw [hphase] at h
    obtain ⟨walked, hwalk, hout⟩ := Option.bind_eq_some_iff.mp h
    exact Option.bind_eq_some_iff.mpr ⟨walked, dup_scan_more_turns turns more hwalk, hout⟩
  | findTail =>
    rw [hphase] at h
    dsimp only at h ⊢
    by_cases hexp : (kds_exec_slice_expired env).1
    · rw [if_pos hexp] at h ⊢
      exact h
    · rw [if_neg hexp] at h ⊢
      obtain ⟨walked, hwalk, hout⟩ := Option.bind_eq_some_iff.mp h
      exact Option.bind_eq_some_iff.mpr ⟨walked, find_tail_more_turns turns more hwalk, hout⟩
  | walInitPage =>
    rw [hphase] at h
    exact h
  | walInsert =>
    rw [hphase] at h
    exact h
  | done =>
    rw [hphase] at h
    exact h

theorem heapRunPhases_more_turns {out : ExecResult × HeapInsertExec × ExecEnv} (turns more : Nat)
    (phases : Nat) : ∀ {exec : HeapInsertExec} {env : ExecEnv},
      heapRunPhases crc32c rel turns exec env phases = some out →
        heapRunPhases crc32c rel (turns + more) exec env phases = some out := by
  induction phases with
  | zero =>
    intro exec env h
    exact h
  | succ n ih =>
    intro exec env h
    unfold heapRunPhases at h ⊢
    obtain ⟨⟨r, exec₁, env₁⟩, hphase, hout⟩ := Option.bind_eq_some_iff.mp h
    apply Option.bind_eq_some_iff.mpr
    refine ⟨(r, exec₁, env₁), heapRunPhase_more_turns turns more hphase, ?_⟩
    cases r with
    | some res => exact hout
    | none => exact ih hout

/-- Once they reach the last phase, more turns of the phase loop change nothing. -/
theorem heapRunPhases_enough {turns : Nat} (a : Nat) : ∀ {exec : HeapInsertExec} {env : ExecEnv}
    (b : Nat), exec.ret = none → exec.phase.left ≤ a → exec.phase.left ≤ b →
      heapRunPhases crc32c rel turns exec env a = heapRunPhases crc32c rel turns exec env b := by
  have hpos : ∀ phase : HeapInsertPhase, 0 < phase.left := by
    intro phase
    cases phase <;> decide
  induction a with
  | zero =>
    intro exec env b _ ha _
    exact absurd ha (Nat.not_le.mpr (hpos _))
  | succ a ih =>
    intro exec env b hret ha hb
    obtain ⟨b, rfl⟩ := Nat.exists_eq_succ_of_ne_zero (Nat.ne_of_gt (Nat.lt_of_lt_of_le (hpos _) hb))
    unfold heapRunPhases
    cases hphase : heapRunPhase crc32c rel turns exec env with
    | none => rfl
    | some out =>
      obtain ⟨r, exec₁, env₁⟩ := out
      cases r with
      | some res => rfl
      | none =>
        obtain ⟨hret₁, hlt⟩ := (heapRunPhase_spec hret hphase).2 rfl
        exact ih b hret₁ (by omega) (by omega)

theorem append_unsliced (env : ExecEnv) (hdr : WalRecHdr) (body : List UInt8) :
    env.unsliced.append crc32c hdr body = (env.append crc32c hdr body).unsliced := rfl

theorem heap_insert_run_wal_init_page_unsliced (exec : HeapInsertExec) (env : ExecEnv) :
    heap_insert_run_wal_init_page crc32c exec env.unsliced =
      (heap_insert_run_wal_init_page crc32c exec env).unsliced := by
  exact append_unsliced env _ _

theorem heap_insert_run_wal_insert_unsliced (exec : HeapInsertExec) (env : ExecEnv) :
    heap_insert_run_wal_insert crc32c exec env.unsliced =
      (heap_insert_run_wal_insert crc32c exec env).unsliced := by
  unfold heap_insert_run_wal_insert
  dsimp only [unsliced_pool]
  split
  · rfl
  · exact append_unsliced { env with pool := env.pool.nextFail } _ _

/-- One turn of the phase loop. -/
theorem heapRunPhase_resumes {turns : Nat} {exec exec' : HeapInsertExec} {env env' : ExecEnv}
    {r : Option ExecResult} (hrun : heapRunPhase crc32c rel turns exec env = some (r, exec', env')) :
    SameJob exec exec' ∧
      (r ≠ some .cont →
        heapRunPhase crc32c rel turns exec env.unsliced = some (r, exec', env'.unsliced)) ∧
      (r = some .cont → exec'.phase = exec.phase ∧
        ∀ n out, heapRunPhase crc32c rel n exec' env'.unsliced = some out →
          heapRunPhase crc32c rel (turns + n) exec env.unsliced = some out) := by
  unfold heapRunPhase at hrun
  cases hphase : exec.phase with
  | dupScan =>
    rw [hphase] at hrun
    obtain ⟨⟨res, exec₁, env₁⟩, hscan, hrun⟩ := Option.bind_eq_some_iff.mp hrun
    obtain ⟨hjob, hend, hgo⟩ := dup_scan_resumes turns hscan
    dsimp only at hrun
    by_cases hdone : res = .done
    · rw [if_neg (by simp [hdone])] at hrun
      obtain ⟨rfl, rfl, rfl⟩ : none = r ∧ _ = exec' ∧ env₁ = env' := by simpa using hrun
      refine ⟨hjob, fun _ => ?_, fun h => by simp at h⟩
      simp [heapRunPhase, hphase, hend (by simp [hdone]), hdone]
    · rw [if_pos hdone] at hrun
      obtain ⟨rfl, rfl, rfl⟩ : some res = r ∧ exec₁ = exec' ∧ env₁ = env' := by simpa using hrun
      refine ⟨hjob, fun hr => ?_, fun hr => ?_⟩
      · have hres : res ≠ .cont := fun h => hr (by rw [h])
        simp [heapRunPhase, hphase, hend hres, hdone]
      · have hphase₁ : exec₁.phase = .dupScan := (dup_scan_keeps turns hscan).1.trans hphase
        refine ⟨hphase₁, fun n out hout => ?_⟩
        unfold heapRunPhase at hout ⊢
        rw [hphase₁] at hout
        rw [hphase]
        obtain ⟨walked, hwalk, hout⟩ := Option.bind_eq_some_iff.mp hout
        exact Option.bind_eq_some_iff.mpr ⟨walked, hgo (Option.some.inj hr) n walked hwalk, hout⟩
  | findTail =>
    rw [hphase] at hrun
    dsimp only at hrun
    by_cases hexp : (kds_exec_slice_expired env).1
    · rw [if_pos hexp] at hrun
      obtain ⟨rfl, rfl, rfl⟩ : some ExecResult.cont = r ∧ exec = exec' ∧
          (kds_exec_slice_expired env).2 = env' := by simpa using hrun
      -- nothing is done yet
      refine ⟨⟨rfl, rfl⟩, fun h => absurd rfl h, fun _ => ⟨hphase, fun n out hout => ?_⟩⟩
      rw [unsliced_slice_expired] at hout
      rw [Nat.add_comm]
      exact heapRunPhase_more_turns n turns hout
    · rw [if_neg hexp] at hrun
      obtain ⟨⟨res, exec₁, env₁⟩, htail, hrun⟩ := Option.bind_eq_some_iff.mp hrun
      obtain ⟨hjob, hend, hgo⟩ := find_tail_resumes turns htail
      rw [unsliced_slice_expired] at hend hgo
      dsimp only at hrun
      by_cases hdone : res = .done
      · rw [if_neg (by simp [hdone])] at hrun
        obtain ⟨rfl, rfl, rfl⟩ : none = r ∧ _ = exec' ∧ env₁ = env' := by simpa using hrun
        refine ⟨hjob, fun _ => ?_, fun h => by simp at h⟩
        simp [heapRunPhase, hphase, hend (by simp [hdone]), hdone]
      · rw [if_pos hdone] at hrun
        obtain ⟨rfl, rfl, rfl⟩ : some res = r ∧ exec₁ = exec' ∧ env₁ = env' := by simpa using hrun
        refine ⟨hjob, fun hr => ?_, fun hr => ?_⟩
        · have hres : res ≠ .cont := fun h => hr (by rw [h])
          simp [heapRunPhase, hphase, hend hres, hdone]
        · have hphase₁ : exec₁.phase = .findTail := (find_tail_keeps turns htail).1.trans hphase
          refine ⟨hphase₁, fun n out hout => ?_⟩
          unfold heapRunPhase at hout ⊢
          rw [hphase₁] at hout
          rw [hphase]
          rw [slice_expired_unsliced] at hout ⊢
          simp only [Bool.false_eq_true, if_false] at hout ⊢
          obtain ⟨walked, hwalk, hout⟩ := Option.bind_eq_some_iff.mp hout
          exact Option.bind_eq_some_iff.mpr ⟨walked, hgo (Option.some.inj hr) n walked hwalk, hout⟩
  | walInitPage =>
    rw [hphase] at hrun
    obtain ⟨rfl, rfl, rfl⟩ : none = r ∧ _ = exec' ∧ _ = env' := by simpa using hrun
    refine ⟨⟨rfl, rfl⟩, fun _ => ?_, fun h => by simp at h⟩
    simp [heapRunPhase, hphase, heap_insert_run_wal_init_page_unsliced]
  | walInsert =>
    rw [hphase] at hrun
    obtain ⟨rfl, rfl, rfl⟩ : none = r ∧ _ = exec' ∧ _ = env' := by simpa using hrun
    refine ⟨⟨rfl, rfl⟩, fun _ => ?_, fun h => by simp at h⟩
    simp [heapRunPhase, hphase, heap_insert_run_wal_insert_unsliced]
  | done =>
    rw [hphase] at hrun
    obtain ⟨rfl, rfl, rfl⟩ : some ExecResult.done = r ∧ exec = exec' ∧ env = env' := by
      simpa using hrun
    refine ⟨⟨rfl, rfl⟩, fun _ => ?_, fun h => by simp at h⟩
    simp [heapRunPhase, hphase]

theorem heapRunPhases_resumes {turns : Nat} (phases : Nat) : ∀ {exec : HeapInsertExec}
    {env : ExecEnv}, exec.ret = none → exec.phase.left ≤ phases →
      ∀ {r exec' env'}, heapRunPhases crc32c rel turns exec env phases = some (r, exec', env') →
        SameJob exec exec' ∧
        (r ≠ .cont →
          heapRunPhases crc32c rel turns exec env.unsliced phases = some (r, exec', env'.unsliced)) ∧
        (r = .cont → ∀ n out, heapRunPhases crc32c rel n exec' env'.unsliced 5 = some out →
          heapRunPhases crc32c rel (turns + n) exec env.unsliced phases = some out) := by
  induction phases with
  | zero =>
    intro exec env _ hleft
    cases hp : exec.phase <;> simp [hp, HeapInsertPhase.left] at hleft
  | succ k ih =>
    intro exec env hret hleft r exec' env' hrun
    unfold heapRunPhases at hrun
    obtain ⟨⟨res, exec₁, env₁⟩, hphase, hrun⟩ := Option.bind_eq_some_iff.mp hrun
    obtain ⟨hsome, hnone⟩ := heapRunPhase_spec hret hphase
    obtain ⟨hjob, hend, hgo⟩ := heapRunPhase_resumes hphase
    cases res with
    | some res =>
      obtain ⟨rfl, rfl, rfl⟩ : res = r ∧ exec₁ = exec' ∧ env₁ = env' := by simpa using hrun
      refine ⟨hjob, fun hr => ?_, fun hr n out hout => ?_⟩
      · simp [heapRunPhases, hend (by simpa using hr)]
      · obtain ⟨hphase₁, hgo⟩ := hgo (by rw [hr])
        have hret₁ : exec₁.ret = none := by
          have hafter := hsome res rfl
          rw [hr] at hafter
          exact hafter.1
        obtain ⟨⟨res₂, exec₂, env₂⟩, hphase₂, hout⟩ := Option.bind_eq_some_iff.mp hout
        unfold heapRunPhases
        refine Option.bind_eq_some_iff.mpr ⟨_, hgo n _ hphase₂, ?_⟩
        cases res₂ with
        | some res₂ => exact hout
        | none =>
          -- the phases after this one
          obtain ⟨hret₂, hlt⟩ := (heapRunPhase_spec hret₁ hphase₂).2 rfl
          rw [hphase₁] at hlt
          have hfive : exec.phase.left ≤ 5 := by cases exec.phase <;> decide
          dsimp only at hout ⊢
          rw [heapRunPhases_enough k 4 hret₂ (by omega) (by omega), Nat.add_comm]
          exact heapRunPhases_more_turns n turns 4 hout
    | none =>
      obtain ⟨hret₁, hlt⟩ := hnone rfl
      obtain ⟨hjob₁, hend₁, hgo₁⟩ := ih hret₁ (by omega) hrun
      refine ⟨hjob.trans hjob₁, fun hr => ?_, fun hr n out hout => ?_⟩
      · simp [heapRunPhases, hend (by simp), hend₁ hr]
      · unfold heapRunPhases
        exact Option.bind_eq_some_iff.mpr
          ⟨_, heapRunPhase_more_turns turns n (hend (by simp)), hgo₁ hr n out hout⟩

/-- One call of the exec of a HEAP table. -/
def HeapCall (crc32c : UInt32 → List UInt8 → UInt32) (s : HeapInsertExec × ExecEnv) (r : ExecResult)
    (s' : HeapInsertExec × ExecEnv) : Prop :=
  ∃ turns, kds_heap_insert_exec_run crc32c turns s.1 s.2 = some (r, s'.1, s'.2)

/-- A call that takes the exec to its phases. -/
theorem heap_run_eq {exec : HeapInsertExec} {rel : Relation} (hrel : exec.rel = some rel)
    (hkind : rel.kind = .heap) (hlen : ¬ exec.data_len < 8) (turns : Nat) (env : ExecEnv) :
    kds_heap_insert_exec_run crc32c turns exec env = heapRunPhases crc32c rel turns exec env 5 := by
  simp only [kds_heap_insert_exec_run, hrel, hkind, hlen, ne_eq, not_true_eq_false, if_false]

/-- A call that gives up in front of the phases, or one that takes the exec to them. -/
theorem heap_run_cases (exec : HeapInsertExec) :
    (∃ e, ∀ turns env, kds_heap_insert_exec_run crc32c turns exec env =
        some (.error, exec.fail e, env)) ∨
      ∃ rel, exec.rel = some rel ∧ rel.kind = .heap ∧ ¬ exec.data_len < 8 := by
  cases hrel : exec.rel with
  | none => exact .inl ⟨.EINVAL, fun turns env => by simp only [kds_heap_insert_exec_run, hrel]⟩
  | some rel =>
    by_cases hkind : rel.kind = .heap
    · by_cases hlen : exec.data_len < 8
      · refine .inl ⟨.EINVAL, fun turns env => ?_⟩
        simp only [kds_heap_insert_exec_run, hrel, hkind, hlen, ne_eq, not_true_eq_false, if_true,
          if_false]
      · exact .inr ⟨rel, rfl, hkind, hlen⟩
    · refine .inl ⟨.EINVAL, fun turns env => ?_⟩
      simp only [kds_heap_insert_exec_run, hrel, hkind, ne_eq, not_false_eq_true, if_true]

theorem heap_run_more_turns {exec : HeapInsertExec} {env : ExecEnv}
    {out : ExecResult × HeapInsertExec × ExecEnv} (turns more : Nat)
    (h : kds_heap_insert_exec_run crc32c turns exec env = some out) :
    kds_heap_insert_exec_run crc32c (turns + more) exec env = some out := by
  obtain ⟨e, hfail⟩ | ⟨rel, hrel, hkind, hlen⟩ := @heap_run_cases crc32c exec
  · rw [hfail] at h ⊢
    exact h
  · rw [heap_run_eq hrel hkind hlen] at h ⊢
    exact heapRunPhases_more_turns turns more 5 h

theorem heap_resumable : Resumable (HeapCall crc32c) .cont (fun s => (s.1, s.2.unsliced))
    (fun s => s.1.ret = none) where
  last := by
    intro s r s' hret hcall hr
    obtain ⟨turns, hrun⟩ := hcall
    refine ⟨turns, ?_⟩
    obtain ⟨e, hfail⟩ | ⟨rel, hrel, hkind, hlen⟩ := @heap_run_cases crc32c s.1
    · rw [hfail] at hrun ⊢
      obtain ⟨hres, hs⟩ : ExecResult.error = r ∧ (s.1.fail e, s.2) = s' := by simpa using hrun
      rw [hres, ← hs]
    · rw [heap_run_eq hrel hkind hlen] at hrun ⊢
      have hleft : s.1.phase.left ≤ 5 := by cases s.1.phase <;> decide
      exact (heapRunPhases_resumes 5 hret hleft hrun).2.1 hr
  again := by
    intro s s₁ hret hcall
    obtain ⟨turns, hrun⟩ := hcall
    obtain ⟨e, hfail⟩ | ⟨rel, hrel, hkind, hlen⟩ := @heap_run_cases crc32c s.1
    · rw [hfail] at hrun
      simp at hrun
    · rw [heap_run_eq hrel hkind hlen] at hrun
      have hleft : s.1.phase.left ≤ 5 := by cases s.1.phase <;> decide
      obtain ⟨hjob, -, hgo⟩ := heapRunPhases_resumes 5 hret hleft hrun
      refine ⟨(heapRunPhases_spec 5 hret hleft hrun).1, fun r s' hnext => ?_⟩
      obtain ⟨n, hnext⟩ := hnext
      rw [heap_run_eq (hjob.1.trans hrel) hkind (hjob.2.symm ▸ hlen)] at hnext
      refine ⟨turns + n, ?_⟩
      rw [heap_run_eq hrel hkind hlen]
      exact hgo rfl n _ hnext

end heap

/-! ## Section 3: The exec of BTREE tables -/

section btree

/-- A part of a call that does not look at the clock. -/
def NoClock (f : BtreeInsertExec → ExecEnv → Except Fault (ExecResult × BtreeInsertExec × ExecEnv)) :
    Prop :=
  ∀ exec env r exec' env', f exec env = .ok (r, exec', env') →
    r ≠ .cont ∧ exec'.rel = exec.rel ∧ f exec env.unsliced = .ok (r, exec', env'.unsliced)

theorem failExec_noClock (e : Errno) : NoClock (fun exec env => failExec exec env e) := by
  intro exec env r exec' env' h
  dsimp only at h ⊢
  unfold failExec at h ⊢
  obtain ⟨⟨cursor, pool⟩, hclean, h⟩ := exists_of_bind_ok h
  obtain ⟨rfl, rfl, rfl⟩ : ExecResult.error = r ∧ _ = exec' ∧ _ = env' := by simpa using h
  rw [unsliced_pool, hclean]
  exact ⟨by simp, rfl, rfl⟩

theorem probe_noClock (rel : Relation) (slot : PageId) :
    NoClock (fun exec env => probeHeapPage rel exec env slot) := by
  intro exec env r exec' env' h
  dsimp only at h ⊢
  unfold probeHeapPage at h ⊢
  dsimp only [unsliced_pool] at h ⊢
  by_cases hid : (if slot = 0 then rel.root_page_id else slot) = 0
  · rw [if_pos hid] at h ⊢
    obtain ⟨rfl, rfl, rfl⟩ : ExecResult.done = r ∧ _ = exec' ∧ env = env' := by simpa using h
    exact ⟨by simp, rfl, rfl⟩
  · rw [if_neg hid] at h ⊢
    cases hload : kds_buf_lookup_or_load env.pool (if slot = 0 then rel.root_page_id else slot) with
    | mk res pool =>
      rw [hload] at h
      cases res with
      | error e =>
        obtain ⟨hr, hrel, hfail⟩ := failExec_noClock e _ _ _ _ _ h
        exact ⟨hr, hrel, hfail⟩
      | ok heap_frame =>
        dsimp only at h ⊢
        split at h
        · next e _ =>
          obtain ⟨hr, hrel, hfail⟩ := failExec_noClock e _ _ _ _ _ h
          exact ⟨hr, hrel, hfail⟩
        · obtain ⟨rfl, rfl, rfl⟩ : ExecResult.done = r ∧ _ = exec' ∧ _ = env' := by simpa using h
          exact ⟨by simp, rfl, rfl⟩

theorem heap_insert_noClock : NoClock (fun exec env => .ok (btree_insert_run_heap_insert exec env)) := by
  intro exec env r exec' env' h
  dsimp only at h ⊢
  -- both sides run the same calls: the clock is in none of them
  unfold btree_insert_run_heap_insert at h ⊢
  by_cases hneed : exec.need_new_page
  · rw [if_pos hneed] at h ⊢
    rw [page_alloc_unsliced]
    cases halloc : kds_page_alloc env .heap with
    | mk new env₁ =>
      rw [halloc] at h
      cases new with
      | none =>
        obtain ⟨rfl, rfl, rfl⟩ : ExecResult.error = r ∧ _ = exec' ∧ env₁ = env' := by simpa using h
        exact ⟨by simp, rfl, rfl⟩
      | some new_frame =>
        dsimp only [unsliced_pool] at h ⊢
        cases hput : insertRowAt (env₁.pool.setFrame new_frame
            (heap_init_page (env₁.pool.frame new_frame))) new_frame exec with
        | mk res pool =>
          rw [hput] at h
          cases res with
          | error e =>
            obtain ⟨rfl, rfl, rfl⟩ : ExecResult.error = r ∧ _ = exec' ∧ _ = env' := by simpa using h
            exact ⟨by simp, rfl, rfl⟩
          | ok tid =>
            obtain ⟨rfl, rfl, rfl⟩ : ExecResult.done = r ∧ _ = exec' ∧ _ = env' := by simpa using h
            exact ⟨by simp, rfl, rfl⟩
  · rw [if_neg hneed] at h ⊢
    rw [unsliced_pool]
    cases hload : kds_buf_lookup_or_load env.pool exec.target_heap_page_id with
    | mk res pool =>
      rw [hload] at h
      cases res with
      | error e =>
        obtain ⟨rfl, rfl, rfl⟩ : ExecResult.error = r ∧ _ = exec' ∧ _ = env' := by simpa using h
        exact ⟨by simp, rfl, rfl⟩
      | ok frame =>
        dsimp only at h ⊢
        cases hput : insertRowAt pool frame exec with
        | mk res pool₁ =>
          rw [hput] at h
          cases res with
          | error e =>
            obtain ⟨rfl, rfl, rfl⟩ : ExecResult.error = r ∧ _ = exec' ∧ _ = env' := by simpa using h
            exact ⟨by simp, rfl, rfl⟩
          | ok tid =>
            obtain ⟨rfl, rfl, rfl⟩ : ExecResult.done = r ∧ _ = exec' ∧ _ = env' := by simpa using h
            exact ⟨by simp, rfl, rfl⟩

theorem leaf_insert_noClock : NoClock btree_insert_run_btree_insert := by
  intro exec env r exec' env' h
  unfold btree_insert_run_btree_insert at h ⊢
  rw [unsliced_pool]
  obtain ⟨⟨ret, cursor, pool⟩, hins, h⟩ := exists_of_bind_ok h
  rw [hins]
  dsimp only [bind, Except.bind] at h ⊢
  cases ret with
  | error e =>
    obtain ⟨rfl, rfl, rfl⟩ : ExecResult.error = r ∧ _ = exec' ∧ _ = env' := by simpa using h
    exact ⟨by simp, rfl, rfl⟩
  | ok _ =>
    obtain ⟨rfl, rfl, rfl⟩ : ExecResult.done = r ∧ _ = exec' ∧ _ = env' := by simpa using h
    exact ⟨by simp, rfl, rfl⟩

/-- The descent. Where it stops with its slice spent, the levels that are left
    are the ones it would have gone on with. -/
theorem search_resumes {rel : Relation} (fuel : Nat) : ∀ {exec exec' : BtreeInsertExec}
    {env env' : ExecEnv} {r : ExecResult},
    searchPrepareLoop rel exec env fuel = .ok (r, exec', env') →
      exec'.rel = exec.rel ∧
      (r ≠ .cont → searchPrepareLoop rel exec env.unsliced fuel = .ok (r, exec', env'.unsliced)) ∧
      (r = .cont → ∃ n, exec'.cursor.depth + n = exec.cursor.depth + fuel ∧ 0 < fuel ∧
        searchPrepareLoop rel exec env.unsliced fuel = searchPrepareLoop rel exec' env'.unsliced n) := by
  -- a call that stops keeps the levels it has not gone down yet as the rest of its fuel
  induction fuel with
  | zero =>
    intro exec exec' env env' r hrun
    obtain ⟨hr, hrel, hfail⟩ := failExec_noClock _ _ _ _ _ _ hrun
    exact ⟨hrel, fun _ => hfail, fun h => absurd h hr⟩
  | succ n ih =>
    intro exec exec' env env' r hrun
    unfold searchPrepareLoop at hrun
    rw [searchPrepareLoop, unsliced_pool]
    cases hload : kds_buf_lookup_or_load env.pool exec.current_page_id with
    | mk res pool =>
      rw [hload] at hrun
      have hpool : ({ env with pool := pool } : ExecEnv).unsliced =
          { env.unsliced with pool := pool } := rfl
      cases res with
      | error e =>
        obtain ⟨hr, hrel, hfail⟩ := failExec_noClock _ _ _ _ _ _ hrun
        exact ⟨hrel, fun _ => hfail, fun h => absurd h hr⟩
      | ok frame =>
        obtain ⟨node, hnode, hrun⟩ := exists_of_bind_ok hrun
        obtain ⟨nodes, hnodes, hrun⟩ := exists_of_bind_ok hrun
        obtain ⟨pos, hpos, hrun⟩ := exists_of_bind_ok hrun
        obtain ⟨positions, hpositions, hrun⟩ := exists_of_bind_ok hrun
        obtain ⟨slot, hslot, hrun⟩ := exists_of_bind_ok hrun
        simp only [hnode, hnodes, hpos, hpositions, hslot, bind, Except.bind, ← hpool]
        dsimp only at hrun
        by_cases hlevel : node.level = 0
        · rw [if_pos hlevel] at hrun ⊢
          obtain ⟨hr, hrel, hprobe⟩ := probe_noClock rel slot _ _ _ _ _ hrun
          exact ⟨hrel, fun _ => hprobe, fun h => absurd h hr⟩
        · simp only [if_neg hlevel, slice_expired_unsliced, Bool.false_eq_true, if_false] at hrun ⊢
          split at hrun
          · obtain ⟨rfl, rfl, rfl⟩ : ExecResult.cont = r ∧ _ = exec' ∧ _ = env' := by
              simpa using hrun
            -- the slice is spent one level down: the unsliced run goes on from there
            refine ⟨rfl, fun h => absurd rfl h, fun _ => ⟨n, ?_, by omega, ?_⟩⟩
            · dsimp only
              omega
            · rw [unsliced_slice_expired]
          · obtain ⟨hrel, hend, hgo⟩ := ih hrun
            rw [unsliced_slice_expired] at hend hgo
            refine ⟨hrel, hend, fun hr => ?_⟩
            obtain ⟨m, hm, -, heq⟩ := hgo hr
            refine ⟨m, ?_, by omega, heq⟩
            dsimp only at hm
            omega

variable {crc32c : UInt32 → List UInt8 → UInt32} {rel : Relation}

theorem btree_insert_run_wal_init_page_unsliced (env : ExecEnv) :
    btree_insert_run_wal_init_page crc32c env.unsliced =
      (btree_insert_run_wal_init_page crc32c env).unsliced := by
  exact append_unsliced env _ _

theorem btree_insert_run_wal_insert_unsliced (exec : BtreeInsertExec) (env : ExecEnv) :
    btree_insert_run_wal_insert crc32c exec env.unsliced =
      (btree_insert_run_wal_insert crc32c exec env).unsliced := by
  unfold btree_insert_run_wal_insert
  dsimp only [unsliced_pool]
  split
  · rfl
  · exact append_unsliced { env with pool := env.pool.nextFail } _ _

theorem btree_insert_run_wal_btree_unsliced {exec : BtreeInsertExec} {env env' : ExecEnv}
    (h : btree_insert_run_wal_btree crc32c exec env = .ok env') :
    btree_insert_run_wal_btree crc32c exec env.unsliced = .ok env'.unsliced := by
  unfold btree_insert_run_wal_btree at h ⊢
  obtain ⟨leaf, hleaf, h⟩ := exists_of_bind_ok h
  rw [hleaf, ← Except.ok.inj h]
  exact congrArg Except.ok (append_unsliced env _ _)

/-- One turn of the phase loop. -/
theorem btreeRunPhase_resumes {exec exec' : BtreeInsertExec} {env env' : ExecEnv}
    {r : Option ExecResult} (hrun : runPhase crc32c rel exec env = .ok (r, exec', env')) :
    exec'.rel = exec.rel ∧
      (r ≠ some .cont → runPhase crc32c rel exec env.unsliced = .ok (r, exec', env'.unsliced)) ∧
      (r = some .cont → exec'.phase = exec.phase ∧
        runPhase crc32c rel exec env.unsliced = runPhase crc32c rel exec' env'.unsliced) := by
  unfold runPhase at hrun
  cases hphase : exec.phase with
  | searchAndPrepare =>
    rw [hphase] at hrun
    obtain ⟨⟨res, exec₁, env₁⟩, hsearch, hrun⟩ := exists_of_bind_ok hrun
    obtain ⟨hrel, hend, hgo⟩ := search_resumes _ hsearch
    dsimp only at hrun
    by_cases hdone : res = .done
    · rw [if_neg (by simp [hdone])] at hrun
      obtain ⟨rfl, rfl, rfl⟩ : none = r ∧ _ = exec' ∧ env₁ = env' := by simpa using hrun
      refine ⟨hrel, fun _ => ?_, fun h => by simp at h⟩
      have hsearch₁ : btree_insert_run_search_and_prepare rel exec env.unsliced =
          .ok (res, exec₁, env₁.unsliced) := hend (by simp [hdone])
      simp only [runPhase, hphase, hsearch₁, hdone, ne_eq, not_true_eq_false, if_false, bind,
        Except.bind]
    · rw [if_pos hdone] at hrun
      obtain ⟨rfl, rfl, rfl⟩ : some res = r ∧ exec₁ = exec' ∧ env₁ = env' := by simpa using hrun
      refine ⟨hrel, fun hr => ?_, fun hr => ?_⟩
      · have hsearch₁ : btree_insert_run_search_and_prepare rel exec env.unsliced =
            .ok (res, exec₁, env₁.unsliced) := hend fun h => hr (by rw [h])
        simp only [runPhase, hphase, hsearch₁, hdone, ne_eq, not_false_eq_true, if_true, bind,
          Except.bind]
      · have hphase₁ : exec₁.phase = .searchAndPrepare := (search_keeps _ hsearch).1.trans hphase
        obtain ⟨n, hn, hpos, heq⟩ := hgo (Option.some.inj hr)
        -- the levels that are left after as many as the cursor has by now
        have hfuel : n = BTREE_MAX_DEPTH - exec₁.cursor.depth := by omega
        refine ⟨hphase₁, ?_⟩
        unfold runPhase btree_insert_run_search_and_prepare
        rw [hphase, hphase₁, heq, hfuel]
  | walInitPage =>
    rw [hphase] at hrun
    obtain ⟨rfl, rfl, rfl⟩ : none = r ∧ _ = exec' ∧ _ = env' := by simpa using hrun
    refine ⟨rfl, fun _ => ?_, fun h => by simp at h⟩
    simp only [runPhase, hphase, btree_insert_run_wal_init_page_unsliced]
  | walInsert =>
    rw [hphase] at hrun
    obtain ⟨rfl, rfl, rfl⟩ : none = r ∧ _ = exec' ∧ _ = env' := by simpa using hrun
    refine ⟨rfl, fun _ => ?_, fun h => by simp at h⟩
    simp only [runPhase, hphase, btree_insert_run_wal_insert_unsliced]
  | walBtree =>
    rw [hphase] at hrun
    obtain ⟨env₁, hwal, hrun⟩ := exists_of_bind_ok hrun
    obtain ⟨rfl, rfl, rfl⟩ : none = r ∧ _ = exec' ∧ env₁ = env' := by simpa using hrun
    refine ⟨rfl, fun _ => ?_, fun h => by simp at h⟩
    simp only [runPhase, hphase, btree_insert_run_wal_btree_unsliced hwal, bind, Except.bind]
  | heapInsert =>
    rw [hphase] at hrun
    dsimp only at hrun
    by_cases hexp : (kds_exec_slice_expired env).1
    · rw [if_pos hexp] at hrun
      obtain ⟨rfl, rfl, rfl⟩ : some ExecResult.cont = r ∧ exec = exec' ∧
          (kds_exec_slice_expired env).2 = env' := by simpa using hrun
      refine ⟨rfl, fun h => absurd rfl h, fun _ => ⟨hphase, ?_⟩⟩
      rw [unsliced_slice_expired]
    · rw [if_neg hexp] at hrun
      cases hins : btree_insert_run_heap_insert exec (kds_exec_slice_expired env).2 with
      | mk res out =>
        obtain ⟨exec₁, env₁⟩ := out
        obtain ⟨hres, hrel, hins₁⟩ := heap_insert_noClock _ _ _ _ _ (congrArg Except.ok hins)
        rw [unsliced_slice_expired] at hins₁
        simp only [hins] at hrun
        by_cases hdone : res = .done
        · rw [if_neg (by simp [hdone])] at hrun
          obtain ⟨rfl, rfl, rfl⟩ : none = r ∧ _ = exec' ∧ env₁ = env' := by simpa using hrun
          refine ⟨hrel, fun _ => ?_, fun h => by simp at h⟩
          simp only [runPhase, hphase, slice_expired_unsliced, Except.ok.inj hins₁, hdone,
            Bool.false_eq_true, ne_eq, not_true_eq_false, if_false]
        · rw [if_pos hdone] at hrun
          obtain ⟨rfl, rfl, rfl⟩ : some res = r ∧ exec₁ = exec' ∧ env₁ = env' := by simpa using hrun
          refine ⟨hrel, fun _ => ?_, fun h => absurd (Option.some.inj h) hres⟩
          simp only [runPhase, hphase, slice_expired_unsliced, Except.ok.inj hins₁, hdone,
            Bool.false_eq_true, ne_eq, not_false_eq_true, if_false, if_true]
  | btreeInsert =>
    rw [hphase] at hrun
    dsimp only at hrun
    by_cases hexp : (kds_exec_slice_expired env).1
    · rw [if_pos hexp] at hrun
      obtain ⟨rfl, rfl, rfl⟩ : some ExecResult.cont = r ∧ exec = exec' ∧
          (kds_exec_slice_expired env).2 = env' := by simpa using hrun
      refine ⟨rfl, fun h => absurd rfl h, fun _ => ⟨hphase, ?_⟩⟩
      rw [unsliced_slice_expired]
    · rw [if_neg hexp] at hrun
      obtain ⟨⟨res, exec₁, env₁⟩, hins, hrun⟩ := exists_of_bind_ok hrun
      obtain ⟨⟨cursor, pool⟩, hclean, hrun⟩ := exists_of_bind_ok hrun
      obtain ⟨hres, hrel, hins₁⟩ := leaf_insert_noClock _ _ _ _ _ hins
      rw [unsliced_slice_expired] at hins₁
      dsimp only at hrun hclean
      by_cases hdone : res = .done
      · rw [if_neg (by simp [hdone])] at hrun
        obtain ⟨rfl, rfl, rfl⟩ : none = r ∧ _ = exec' ∧ _ = env' := by simpa using hrun
        refine ⟨hrel, fun _ => ?_, fun h => by simp at h⟩
        simp only [runPhase, hphase, slice_expired_unsliced, hins₁, unsliced_pool, hclean, hdone,
          Bool.false_eq_true, ne_eq, not_true_eq_false, if_false, bind, Except.bind]
        rfl
      · rw [if_pos hdone] at hrun
        obtain ⟨rfl, rfl, rfl⟩ : some res = r ∧ _ = exec' ∧ _ = env' := by simpa using hrun
        refine ⟨hrel, fun _ => ?_, fun h => absurd (Option.some.inj h) hres⟩
        simp only [runPhase, hphase, slice_expired_unsliced, hins₁, unsliced_pool, hclean, hdone,
          Bool.false_eq_true, ne_eq, not_false_eq_true, if_false, if_true, bind, Except.bind]
        rfl
  | done =>
    rw [hphase] at hrun
    obtain ⟨⟨cursor, pool⟩, hclean, hrun⟩ := exists_of_bind_ok hrun
    obtain ⟨rfl, rfl, rfl⟩ : some ExecResult.done = r ∧ _ = exec' ∧ _ = env' := by simpa using hrun
    refine ⟨rfl, fun _ => ?_, fun h => by simp at h⟩
    simp only [runPhase, hphase, unsliced_pool, hclean, bind, Except.bind]
    rfl

/-- Once they reach the last phase, more turns of the phase loop change nothing. -/
theorem runPhases_enough (a : Nat) : ∀ {exec : BtreeInsertExec} {env : ExecEnv} (b : Nat),
    exec.ret = none → exec.phase.left ≤ a → exec.phase.left ≤ b →
      runPhases crc32c rel exec env a = runPhases crc32c rel exec env b := by
  have hpos : ∀ phase : BtreeInsertPhase, 0 < phase.left := by
    intro phase
    cases phase <;> decide
  induction a with
  | zero =>
    intro exec env b _ ha _
    exact absurd ha (Nat.not_le.mpr (hpos _))
  | succ a ih =>
    intro exec env b hret ha hb
    obtain ⟨b, rfl⟩ := Nat.exists_eq_succ_of_ne_zero (Nat.ne_of_gt (Nat.lt_of_lt_of_le (hpos _) hb))
    unfold runPhases
    cases hphase : runPhase crc32c rel exec env with
    | error fault => rfl
    | ok out =>
      obtain ⟨r, exec₁, env₁⟩ := out
      cases r with
      | some res => rfl
      | none =>
        obtain ⟨hret₁, hlt⟩ := (runPhase_spec hret hphase).2 rfl
        exact ih b hret₁ (by omega) (by omega)

theorem runPhases_resumes (turns : Nat) : ∀ {exec : BtreeInsertExec} {env : ExecEnv},
    exec.ret = none → exec.phase.left ≤ turns →
      ∀ {r exec' env'}, runPhases crc32c rel exec env turns = .ok (r, exec', env') →
        exec'.rel = exec.rel ∧
        (r ≠ .cont → runPhases crc32c rel exec env.unsliced turns = .ok (r, exec', env'.unsliced)) ∧
        (r = .cont → runPhases crc32c rel exec env.unsliced turns =
          runPhases crc32c rel exec' env'.unsliced 7) := by
  induction turns with
  | zero =>
    intro exec env _ hleft
    cases hp : exec.phase <;> simp [hp, BtreeInsertPhase.left] at hleft
  | succ k ih =>
    intro exec env hret hleft r exec' env' hrun
    unfold runPhases at hrun
    obtain ⟨⟨res, exec₁, env₁⟩, hphase, hrun⟩ := exists_of_bind_ok hrun
    obtain ⟨hsome, hnone⟩ := runPhase_spec hret hphase
    obtain ⟨hrel, hend, hgo⟩ := btreeRunPhase_resumes hphase
    cases res with
    | some res =>
      obtain ⟨rfl, rfl, rfl⟩ : res = r ∧ exec₁ = exec' ∧ env₁ = env' := by simpa using hrun
      refine ⟨hrel, fun hr => ?_, fun hr => ?_⟩
      · simp [runPhases, hend (by simpa using hr), bind, Except.bind]
      · obtain ⟨hphase₁, heq⟩ := hgo (by rw [hr])
        have hret₁ : exec₁.ret = none := by
          have hafter := hsome res rfl
          rw [hr] at hafter
          exact hafter.1
        unfold runPhases
        rw [heq]
        cases hphase₂ : runPhase crc32c rel exec₁ env₁.unsliced with
        | error fault => rfl
        | ok out =>
          obtain ⟨res₂, exec₂, env₂⟩ := out
          cases res₂ with
          | some res₂ => rfl
          | none =>
            -- the phases after this one
            obtain ⟨hret₂, hlt⟩ := (runPhase_spec hret₁ hphase₂).2 rfl
            rw [hphase₁] at hlt
            have hseven : exec.phase.left ≤ 7 := by cases exec.phase <;> decide
            exact runPhases_enough k 6 hret₂ (by omega) (by omega)
    | none =>
      obtain ⟨hret₁, hlt⟩ := hnone rfl
      obtain ⟨hrel₁, hend₁, hgo₁⟩ := ih hret₁ (by omega) hrun
      have hstep : runPhases crc32c rel exec env.unsliced (k + 1) =
          runPhases crc32c rel exec₁ env₁.unsliced k := by
        simp [runPhases, hend (by simp), bind, Except.bind]
      rw [hstep]
      exact ⟨hrel₁.trans hrel, hend₁, hgo₁⟩

/-- One call of the exec of a BTREE table. -/
def BtreeCall (crc32c : UInt32 → List UInt8 → UInt32) (s : BtreeInsertExec × ExecEnv)
    (r : ExecResult) (s' : BtreeInsertExec × ExecEnv) : Prop :=
  kds_btree_insert_exec_run crc32c s.1 s.2 = .ok (r, s'.1, s'.2)

/-- A call that takes the exec to its phases. -/
theorem btree_run_eq {exec : BtreeInsertExec} {rel : Relation} (hrel : exec.rel = some rel)
    (hkind : rel.kind = .btree) (hroot : rel.root_page_id ≠ 0) (env : ExecEnv) :
    kds_btree_insert_exec_run crc32c exec env = runPhases crc32c rel exec env 7 := by
  simp only [kds_btree_insert_exec_run, hrel, hkind, hroot, ne_eq, not_true_eq_false, if_false]

/-- A call that gives up in front of the phases, or one that takes the exec to them. -/
theorem btree_run_cases (exec : BtreeInsertExec) :
    (∃ e, ∀ env, kds_btree_insert_exec_run crc32c exec env =
        .ok (.error, { exec with ret := some e }, env)) ∨
      ∃ rel, exec.rel = some rel ∧ rel.kind = .btree ∧ rel.root_page_id ≠ 0 := by
  cases hrel : exec.rel with
  | none => exact .inl ⟨.EINVAL, fun env => by simp only [kds_btree_insert_exec_run, hrel]⟩
  | some rel =>
    by_cases hkind : rel.kind = .btree
    · by_cases hroot : rel.root_page_id = 0
      · refine .inl ⟨.ENODEV, fun env => ?_⟩
        simp only [kds_btree_insert_exec_run, hrel, hkind, hroot, ne_eq, not_true_eq_false, if_true,
          if_false]
      · exact .inr ⟨rel, rfl, hkind, hroot⟩
    · refine .inl ⟨.EINVAL, fun env => ?_⟩
      simp only [kds_btree_insert_exec_run, hrel, hkind, ne_eq, not_false_eq_true, if_true]

theorem btree_resumable : Resumable (BtreeCall crc32c) .cont (fun s => (s.1, s.2.unsliced))
    (fun s => s.1.ret = none) where
  last := by
    intro s r s' hret hrun hr
    unfold BtreeCall at hrun ⊢
    obtain ⟨e, hfail⟩ | ⟨rel, hrel, hkind, hroot⟩ := @btree_run_cases crc32c s.1
    · rw [hfail] at hrun ⊢
      obtain ⟨hres, hs⟩ : ExecResult.error = r ∧ _ = s' := by simpa using hrun
      rw [hres, ← hs]
    · rw [btree_run_eq hrel hkind hroot] at hrun ⊢
      have hleft : s.1.phase.left ≤ 7 := by cases s.1.phase <;> decide
      exact (runPhases_resumes 7 hret hleft hrun).2.1 hr
  again := by
    intro s s₁ hret hrun
    unfold BtreeCall at hrun ⊢
    obtain ⟨e, hfail⟩ | ⟨rel, hrel, hkind, hroot⟩ := @btree_run_cases crc32c s.1
    · rw [hfail] at hrun
      simp at hrun
    · rw [btree_run_eq hrel hkind hroot] at hrun
      have hleft : s.1.phase.left ≤ 7 := by cases s.1.phase <;> decide
      obtain ⟨hsame, -, hgo⟩ := runPhases_resumes 7 hret hleft hrun
      refine ⟨(runPhases_spec 7 hret hleft hrun).1, fun r s' hnext => ?_⟩
      rw [btree_run_eq (hsame.trans hrel) hkind hroot] at hnext
      rw [btree_run_eq hrel hkind hroot, hgo rfl]
      exact hnext

end btree

/-! ## Section 4: An insert as a whole -/

/-- **Slices do not change results**: if the calls of an exec finish, whatever
    the clock says, then one call of it whose slice never expires ends with the
    same result, and leaves the same exec, the same pages and the same log. -/
theorem kds_insert_exec_sliced (crc32c : UInt32 → List UInt8 → UInt32) (rel : Option Relation)
    (key : TupleId) (data : Mem) (data_len : UInt16) (xid : UInt64) (env env' : ExecEnv)
    (r : ExecResult) :
    (∀ exec', Calls (HeapCall crc32c) .cont (kds_heap_insert_exec_init rel data data_len xid, env) r
        (exec', env') →
      ∃ turns, ∀ n, turns ≤ n →
        kds_heap_insert_exec_run crc32c n (kds_heap_insert_exec_init rel data data_len xid)
          env.unsliced = some (r, exec', env'.unsliced)) ∧
      ∀ exec', Calls (BtreeCall crc32c) .cont (kds_btree_insert_exec_init rel key data data_len, env)
          r (exec', env') →
        kds_btree_insert_exec_run crc32c (kds_btree_insert_exec_init rel key data data_len)
          env.unsliced = .ok (r, exec', env'.unsliced) := by
  constructor
  · intro exec' hcalls
    obtain ⟨turns, hrun⟩ := heap_resumable.one_call rfl hcalls
    refine ⟨turns, fun n hn => ?_⟩
    rw [← Nat.add_sub_cancel' hn]
    exact heap_run_more_turns turns (n - turns) hrun
  · intro exec' hcalls
    exact btree_resumable.one_call rfl hcalls

/-! ### A slice that is spent in front of the row -/

/-- The HEAP exec for the row with key 5. -/
def heapRowFive : HeapInsertExec :=
  kds_heap_insert_exec_init (some newHeapRel) (keyRow 5).data (keyRow 5).data_len KDS_DSHELL_XID

/-- Where a call of it leads. -/
def heapCalled (s : HeapInsertExec × ExecEnv) : HeapInsertExec × ExecEnv :=
  ((kds_heap_insert_exec_run crc32c_le 2 s.1 s.2).map fun out => out.2).getD s

theorem heapCalled_call {s : HeapInsertExec × ExecEnv} {r : ExecResult}
    (h : (kds_heap_insert_exec_run crc32c_le 2 s.1 s.2).map (fun out => out.1) = some r) :
    HeapCall crc32c_le s r (heapCalled s) := by
  obtain ⟨⟨r', out⟩, hrun, rfl⟩ := Option.map_eq_some_iff.mp h
  refine ⟨2, ?_⟩
  rw [heapCalled, hrun]
  rfl

/-- The BTREE exec for the row with key 5. -/
def btreeRowFive : BtreeInsertExec :=
  kds_btree_insert_exec_init (some newTableRel) 5 (keyRow 5).data (keyRow 5).data_len

/-- What a call returns, and where it leads. -/
def btreeResult (s : BtreeInsertExec × ExecEnv) : Option ExecResult × BtreeInsertExec × ExecEnv :=
  match kds_btree_insert_exec_run crc32c_le s.1 s.2 with
  | .ok out => (some out.1, out.2)
  | .error _ => (none, s)

theorem btreeResult_call {s : BtreeInsertExec × ExecEnv} {r : ExecResult}
    (h : (btreeResult s).1 = some r) : BtreeCall crc32c_le s r (btreeResult s).2 := by
  unfold BtreeCall
  unfold btreeResult at h ⊢
  cases hrun : kds_btree_insert_exec_run crc32c_le s.1 s.2 with
  | error fault => simp [hrun] at h
  | ok out =>
    rw [hrun] at h
    rw [← Option.some.inj h]

/-- Both execs, with a slice that is spent in front of the row: they are done
    by the second call, and by one call whose slice never expires. -/
theorem kds_insert_exec_sliced_five :
    (∃ turns exec' env', kds_heap_insert_exec_run crc32c_le turns heapRowFive newHeapEnv =
        some (.done, exec', env')) ∧
      ∃ exec' env', kds_btree_insert_exec_run crc32c_le btreeRowFive newTableEnv =
        .ok (.done, exec', env') := by
  constructor
  · have hcalls : Calls (HeapCall crc32c_le) .cont
        (heapRowFive, { newHeapEnv with ticks := [true] }) .done
        (heapCalled (heapCalled (heapRowFive, { newHeapEnv with ticks := [true] }))) :=
      .again (heapCalled_call (by decide +kernel))
        (.last (heapCalled_call (by decide +kernel)) (by decide))
    obtain ⟨turns, hrun⟩ := (kds_insert_exec_sliced crc32c_le (some newHeapRel) 5 (keyRow 5).data
      (keyRow 5).data_len KDS_DSHELL_XID { newHeapEnv with ticks := [true] } _ .done).1 _ hcalls
    exact ⟨turns, _, _, hrun turns (Nat.le_refl _)⟩
  · have hcalls : Calls (BtreeCall crc32c_le) .cont
        (btreeRowFive, { newTableEnv with ticks := [true] }) .done
        (btreeResult (btreeResult (btreeRowFive, { newTableEnv with ticks := [true] })).2).2 :=
      .again (btreeResult_call (by decide +kernel))
        (.last (btreeResult_call (by decide +kernel)) (by decide))
    exact ⟨_, _, (kds_insert_exec_sliced crc32c_le (some newTableRel) 5 (keyRow 5).data
      (keyRow 5).data_len KDS_DSHELL_XID { newTableEnv with ticks := [true] } _ .done).2 _ hcalls⟩

end Kds
