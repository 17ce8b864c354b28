import Kds.Exec.HeapKeys
import Kds.Lib.Returns

/-! # The hand-off of an INSERT to the proc

    `kds_cmd_insert_row`, `kds_dshell_run_exec_via_proc` and
    `kds_dshell_proc_run`, for one client. The command copies its exec into
    the client, resets the completion, sets the status to PENDING and waits;
    the proc sees PENDING under the lock, drops the lock for a slice of the
    exec, takes it again, and finishes: status IDLE, and the completion is
    signalled. A command that has waited too long takes the lock, sets a
    status that is still PENDING to IDLE, and returns.

    The status is PENDING during a slice as well, so the timeout can cancel a
    command whose exec the proc is working on. The exec's slice is one step
    here, on whatever pages and log it finds; `k` is the number of a command.
-/

open Bytes Lts Fallible

namespace Kds

/-! ## Section 1: The execs -/

/-- What `exec_buf` holds. -/
inductive InsertExec where
  | heap (exec : HeapInsertExec)
  | btree (exec : BtreeInsertExec)

/-- `base.ret`, `none` for 0. -/
def InsertExec.ret : InsertExec → Option Errno
  | .heap exec => exec.ret
  | .btree exec => exec.ret

/-- The row is in the table: `heap_insert_tuple` has put it into a page of
    the chain, and for a BTREE table the leaf refers to that page. -/
def InsertExec.inserted : InsertExec → Bool
  | .heap exec =>
      match exec.phase with
      | .dupScan => false
      | .findTail => false
      | .walInitPage => true
      | .walInsert => true
      | .done => true
  | .btree exec =>
      match exec.phase with
      | .done => true
      | _ => false

/-- `kds_exec_run`; a slice that faults has no result. -/
def kds_exec_run (crc32c : UInt32 → List UInt8 → UInt32) (turns : Nat) (exec : InsertExec)
    (env : ExecEnv) : Option (ExecResult × InsertExec × ExecEnv) :=
  match exec with
  | .heap exec =>
      (kds_heap_insert_exec_run crc32c turns exec env).map fun out => (out.1, .heap out.2.1, out.2.2)
  | .btree exec =>
      match kds_btree_insert_exec_run crc32c exec env with
      | .ok out => some (out.1, .btree out.2.1, out.2.2)
      | .error _ => none

/-- An exec as `kds_cmd_insert_row` sets it up. -/
inductive FreshExec : InsertExec → Prop where
  | heap (rel : Relation) (data : Mem) (data_len : UInt16) (xid : UInt64) :
      FreshExec (.heap (kds_heap_insert_exec_init (some rel) data data_len xid))
  | btree (rel : Relation) (key : TupleId) (data : Mem) (data_len : UInt16) :
      FreshExec (.btree (kds_btree_insert_exec_init (some rel) key data data_len))

/-- The exec is not through yet and has met no error. -/
def InsertExec.Running (exec : InsertExec) : Prop := exec.ret = none ∧ exec.inserted = false

/-- How an exec stands behind a slice with this result. -/
def InsertExec.After (exec : InsertExec) : ExecResult → Prop
  | .cont => exec.Running
  | .done => exec.ret = none ∧ exec.inserted = true
  | .error => exec.ret ≠ none ∧ exec.inserted = false

theorem FreshExec.running {exec : InsertExec} (h : FreshExec exec) : exec.Running := by
  cases h with
  | heap rel data data_len xid => exact ⟨rfl, rfl⟩
  | btree rel key data data_len => exact ⟨rfl, rfl⟩

/-! ### HEAP tables -/

section heap

/-- A walk keeps the phase, and says so when it fails. -/
def WalkKeeps (exec : HeapInsertExec) (r : ExecResult) (exec' : HeapInsertExec) : Prop :=
  exec'.phase = exec.phase ∧ (r = .error → exec'.ret ≠ none) ∧ (r ≠ .error → exec'.ret = exec.ret)

theorem WalkKeeps.fail (exec : HeapInsertExec) (e : Errno) : WalkKeeps exec .error (exec.fail e) :=
  ⟨rfl, fun _ => by simp [HeapInsertExec.fail], fun h => absurd rfl h⟩

theorem WalkKeeps.goTo {exec exec' : HeapInsertExec} {id : PageId} {r : ExecResult}
    (h : WalkKeeps (exec.goTo id) r exec') : WalkKeeps exec r exec' := h

theorem dup_scan_keeps (turns : Nat) : ∀ {exec : HeapInsertExec} {env : ExecEnv} {r exec' env'},
    heap_insert_run_dup_scan exec env turns = some (r, exec', env') → WalkKeeps exec r exec' := by
  induction turns with
  | zero =>
    intro exec env r exec' env' hrun
    simp [heap_insert_run_dup_scan] at hrun
  | succ n ih =>
    intro exec env r exec' env' hrun
    unfold heap_insert_run_dup_scan at hrun
    split at hrun
    · obtain ⟨rfl, rfl, rfl⟩ : ExecResult.done = r ∧ exec = exec' ∧ env = env' := by simpa using hrun
      exact ⟨rfl, by simp, fun _ => rfl⟩
    · split at hrun
      · next e pool _ =>
        obtain ⟨rfl, rfl, -⟩ : ExecResult.error = r ∧ exec.fail e = exec' ∧ _ = env' := by
          simpa using hrun
        exact .fail exec e
      · obtain ⟨rfl, rfl, -⟩ : ExecResult.error = r ∧ exec.fail .EEXIST = exec' ∧ _ = env' := by
          simpa using hrun
        exact .fail exec _
      · next next pool _ =>
        dsimp only at hrun
        split at hrun
        · exact (ih hrun).goTo
        · split at hrun
          · obtain ⟨rfl, rfl, -⟩ : ExecResult.cont = r ∧ exec.goTo next = exec' ∧ _ = env' := by
              simpa using hrun
            exact ⟨rfl, by simp, fun _ => rfl⟩
          · exact (ih hrun).goTo

theorem growChain_keeps {exec exec' : HeapInsertExec} {env env' : ExecEnv} {frame : PageId}
    {r : ExecResult} (hrun : growChain exec env frame = (r, exec', env')) :
    WalkKeeps exec r exec' := by
  unfold growChain at hrun
  split at hrun
  · obtain ⟨rfl, rfl, -⟩ : ExecResult.error = r ∧ exec.fail .ENOSPC = exec' ∧ _ = env' := by
      simpa using hrun
    exact .fail exec _
  · dsimp only at hrun
    split at hrun
    · next e _ _ =>
      obtain ⟨rfl, rfl, -⟩ : ExecResult.error = r ∧ exec.fail e = exec' ∧ _ = env' := by
        simpa using hrun
      exact .fail exec e
    · obtain ⟨rfl, rfl, -⟩ : ExecResult.done = r ∧ _ = exec' ∧ _ = env' := by simpa using hrun
      exact ⟨rfl, by simp, fun _ => rfl⟩

theorem find_tail_keeps (turns : Nat) : ∀ {exec : HeapInsertExec} {env : ExecEnv} {r exec' env'},
    heap_insert_run_find_tail exec env turns = some (r, exec', env') → WalkKeeps exec r exec' := by
  induction turns with
  | zero =>
    intro exec env r exec' env' hrun
    simp [heap_insert_run_find_tail] at hrun
  | succ n ih =>
    intro exec env r exec' env' hrun
    unfold heap_insert_run_find_tail at hrun
    split at hrun
    · next e pool _ =>
      obtain ⟨rfl, rfl, -⟩ : ExecResult.error = r ∧ exec.fail e = exec' ∧ _ = env' := by
        simpa using hrun
      exact .fail exec e
    · split at hrun
      · obtain ⟨rfl, rfl, -⟩ : ExecResult.done = r ∧ _ = exec' ∧ _ = env' := by simpa using hrun
        exact ⟨rfl, by simp, fun _ => rfl⟩
      · dsimp only at hrun
        split at hrun
        · exact growChain_keeps (Option.some.inj hrun)
        · split at hrun
          · obtain ⟨rfl, rfl, -⟩ : ExecResult.cont = r ∧ HeapInsertExec.goTo exec _ = exec' ∧
                _ = env' := by simpa using hrun
            exact ⟨rfl, by simp, fun _ => rfl⟩
          · exact (ih hrun).goTo
      · next e _ _ _ =>
        obtain ⟨rfl, rfl, -⟩ : ExecResult.error = r ∧ exec.fail e = exec' ∧ _ = env' := by
          simpa using hrun
        exact .fail exec e

/-- Turns of the phase loop from this phase to the end. -/
def HeapInsertPhase.left : HeapInsertPhase → Nat
  | .dupScan => 5
  | .findTail => 4
  | .walInitPage => 3
  | .walInsert => 2
  | .done => 1

theorem WalkKeeps.after {exec exec' : HeapInsertExec} {r : ExecResult} (h : WalkKeeps exec r exec')
    (hexec : (InsertExec.heap exec).Running) (hr : r ≠ .done) : (InsertExec.heap exec').After r := by
  obtain ⟨hphase, herr, hkeep⟩ := h
  have hins : (InsertExec.heap exec').inserted = false := by
    rw [← hexec.2]
    simp only [InsertExec.inserted, hphase]
  cases r with
  | done => exact absurd rfl hr
  | error => exact ⟨herr rfl, hins⟩
  | cont => exact ⟨(hkeep (by simp)).trans hexec.1, hins⟩

/-- One turn of the phase loop: it returns with the exec in order, or goes to a later phase. -/
theorem heapRunPhase_spec {crc32c : UInt32 → List UInt8 → UInt32} {rel : Relation} {turns : Nat}
    {exec exec' : HeapInsertExec} {env env' : ExecEnv} {r : Option ExecResult}
    (hret : exec.ret = none)
    (hrun : heapRunPhase crc32c rel turns exec env = some (r, exec', env')) :
    (∀ res, r = some res → (InsertExec.heap exec').After res) ∧
      (r = none → exec'.ret = none ∧ exec'.phase.left < exec.phase.left) := by
  unfold heapRunPhase at hrun
  cases hphase : exec.phase with
  | dupScan =>
    have hexec : (InsertExec.heap exec).Running := ⟨hret, by simp only [InsertExec.inserted, hphase]⟩
    rw [hphase] at hrun
    cases hscan : heap_insert_run_dup_scan exec env turns with
    | none => simp [hscan] at hrun
    | some out =>
      obtain ⟨res, exec₁, env₁⟩ := out
      have hkeeps := dup_scan_keeps turns hscan
      simp only [hscan, Option.bind_eq_bind, Option.bind_some] at hrun
      -- a scan that is done leads to the next phase, any other result is returned
      by_cases hres : res = .done
      · rw [if_neg (by simp [hres])] at hrun
        obtain ⟨rfl, rfl, -⟩ : none = r ∧ _ = exec' ∧ env₁ = env' := by simpa using hrun
        refine ⟨fun res h => by simp at h, fun _ => ⟨?_, by simp [HeapInsertPhase.left]⟩⟩
        exact (hkeeps.2.2 (by simp [hres])).trans hret
      · rw [if_pos hres] at hrun
        obtain ⟨rfl, rfl, -⟩ : some res = r ∧ exec₁ = exec' ∧ env₁ = env' := by simpa using hrun
        refine ⟨fun res' h => ?_, fun h => by simp at h⟩
        obtain rfl := Option.some.inj h
        exact hkeeps.after hexec hres
  | findTail =>
    have hexec : (InsertExec.heap exec).Running := ⟨hret, by simp only [InsertExec.inserted, hphase]⟩
    rw [hphase] at hrun
    dsimp only at hrun
    split at hrun
    -- the slice is over before the work
    · obtain ⟨rfl, rfl, -⟩ : some ExecResult.cont = r ∧ exec = exec' ∧ _ = env' := by
        simpa using hrun
      refine ⟨fun res h => ?_, fun h => by simp at h⟩
      obtain rfl := Option.some.inj h
      exact hexec
    · cases htail : heap_insert_run_find_tail exec (kds_exec_slice_expired env).2 turns with
      | none => simp [htail] at hrun
      | some out =>
        obtain ⟨res, exec₁, env₁⟩ := out
        have hkeeps := find_tail_keeps turns htail
        simp only [htail, Option.bind_eq_bind, Option.bind_some] at hrun
        by_cases hres : res = .done
        · rw [if_neg (by simp [hres])] at hrun
          obtain ⟨rfl, rfl, -⟩ : none = r ∧ _ = exec' ∧ env₁ = env' := by simpa using hrun
          refine ⟨fun res h => by simp at h, fun _ => ⟨?_, ?_⟩⟩
          · exact (hkeeps.2.2 (by simp [hres])).trans hret
          -- a new page is logged first, a known one is not
          · dsimp only
            split <;> decide
        · rw [if_pos hres] at hrun
          obtain ⟨rfl, rfl, -⟩ : some res = r ∧ exec₁ = exec' ∧ env₁ = env' := by simpa using hrun
          refine ⟨fun res' h => ?_, fun h => by simp at h⟩
          obtain rfl := Option.some.inj h
          exact hkeeps.after hexec hres
  | walInitPage =>
    rw [hphase] at hrun
    obtain ⟨rfl, rfl, -⟩ : none = r ∧ _ = exec' ∧ _ = env' := by simpa using hrun
    exact ⟨fun res h => by simp at h, fun _ => ⟨hret, by simp [HeapInsertPhase.left]⟩⟩
  | walInsert =>
    rw [hphase] at hrun
    obtain ⟨rfl, rfl, -⟩ : none = r ∧ _ = exec' ∧ _ = env' := by simpa using hrun
    exact ⟨fun res h => by simp at h, fun _ => ⟨hret, by simp [HeapInsertPhase.left]⟩⟩
  | done =>
    rw [hphase] at hrun
    obtain ⟨rfl, rfl, -⟩ : some ExecResult.done = r ∧ exec = exec' ∧ env = env' := by
      simpa using hrun
    refine ⟨fun res h => ?_, fun h => by simp at h⟩
    obtain rfl := Option.some.inj h
    exact ⟨hret, by simp only [InsertExec.inserted, hphase]⟩

theorem heapRunPhases_spec {crc32c : UInt32 → List UInt8 → UInt32} {rel : Relation} {turns : Nat}
    (phases : Nat) : ∀ {exec : HeapInsertExec} {env : ExecEnv}, exec.ret = none →
      exec.phase.left ≤ phases →
      ∀ {r exec' env'}, heapRunPhases crc32c rel turns exec env phases = some (r, exec', env') →
        (InsertExec.heap exec').After r := by
  induction phases with
  | zero =>
    intro exec env _ hleft
    cases hp : exec.phase <;> simp [hp, HeapInsertPhase.left] at hleft
  | succ n ih =>
    intro exec env hret hleft r exec' env' hrun
    unfold heapRunPhases at hrun
    cases hphase : heapRunPhase crc32c rel turns exec env with
    | none => simp [hphase] at hrun
    | some out =>
      obtain ⟨res, exec₁, env₁⟩ := out
      obtain ⟨hsome, hnone⟩ := heapRunPhase_spec hret hphase
      simp only [hphase, Option.bind_eq_bind, Option.bind_some] at hrun
      cases res with
      | some res =>
        obtain ⟨rfl, rfl, -⟩ : res = r ∧ exec₁ = exec' ∧ env₁ = env' := by simpa using hrun
        exact hsome res rfl
      | none =>
        obtain ⟨hret₁, hlt⟩ := hnone rfl
        exact ih hret₁ (by omega) hrun

/-- A slice of a heap exec. -/
theorem heap_run_after {crc32c : UInt32 → List UInt8 → UInt32} {turns : Nat}
    {exec exec' : HeapInsertExec} {env env' : ExecEnv} {r : ExecResult}
    (h : (InsertExec.heap exec).Running)
    (hrun : kds_heap_insert_exec_run crc32c turns exec env = some (r, exec', env')) :
    (InsertExec.heap exec').After r := by
  have hfail : ∀ e, (InsertExec.heap (exec.fail e)).After .error := by
    intro e
    exact ⟨by simp [InsertExec.ret, HeapInsertExec.fail], h.2⟩
  unfold kds_heap_insert_exec_run at hrun
  split at hrun
  · obtain ⟨rfl, rfl, -⟩ : ExecResult.error = r ∧ exec.fail .EINVAL = exec' ∧ env = env' := by
      simpa using hrun
    exact hfail _
  · split at hrun
    · obtain ⟨rfl, rfl, -⟩ : ExecResult.error = r ∧ exec.fail .EINVAL = exec' ∧ env = env' := by
        simpa using hrun
      exact hfail _
    · split at hrun
      · obtain ⟨rfl, rfl, -⟩ : ExecResult.error = r ∧ exec.fail .EINVAL = exec' ∧ env = env' := by
          simpa using hrun
        exact hfail _
      · refine heapRunPhases_spec 5 h.1 ?_ hrun
        cases exec.phase <;> decide

end heap

/-! ### BTREE tables -/

section btree

/-- A phase that stops keeps the phase, and says so when it fails. -/
def StepKeeps (exec : BtreeInsertExec) (r : ExecResult) (exec' : BtreeInsertExec) : Prop :=
  exec'.phase = exec.phase ∧ (r = .error → exec'.ret ≠ none) ∧ (r ≠ .error → exec'.ret = exec.ret)

theorem StepKeeps.of_same {exec exec₁ exec' : BtreeInsertExec} {r : ExecResult}
    (h : StepKeeps exec₁ r exec') (hphase : exec₁.phase = exec.phase) (hret : exec₁.ret = exec.ret) :
    StepKeeps exec r exec' :=
  ⟨h.1.trans hphase, h.2.1, fun hr => (h.2.2 hr).trans hret⟩

theorem failExec_keeps {exec exec' : BtreeInsertExec} {env env' : ExecEnv} {e : Errno}
    {r : ExecResult} (hrun : failExec exec env e = .ok (r, exec', env')) :
    StepKeeps exec r exec' := by
  unfold failExec at hrun
  cases hclean : btree_cursor_cleanup exec.cursor env.pool with
  | error f => simp [hclean, bind, Except.bind] at hrun
  | ok out =>
    simp only [hclean, bind, Except.bind] at hrun
    obtain ⟨rfl, rfl, -⟩ : ExecResult.error = r ∧ _ = exec' ∧ _ = env' := by simpa using hrun
    exact ⟨rfl, fun _ => by simp, fun h => absurd rfl h⟩

theorem probe_keeps {rel : Relation} {exec exec' : BtreeInsertExec} {env env' : ExecEnv}
    {slot : PageId} {r : ExecResult}
    (hrun : probeHeapPage rel exec env slot = .ok (r, exec', env')) : StepKeeps exec r exec' := by
  unfold probeHeapPage at hrun
  dsimp only at hrun
  generalize (if slot = 0 then rel.root_page_id else slot) = page at hrun
  split at hrun
  · obtain ⟨rfl, rfl, -⟩ : ExecResult.done = r ∧ _ = exec' ∧ env = env' := by simpa using hrun
    exact ⟨rfl, by simp, fun _ => rfl⟩
  · split at hrun
    · exact (failExec_keeps hrun).of_same rfl rfl
    · split at hrun
      · exact (failExec_keeps hrun).of_same rfl rfl
      · obtain ⟨rfl, rfl, -⟩ : ExecResult.done = r ∧ _ = exec' ∧ _ = env' := by simpa using hrun
        exact ⟨rfl, by simp, fun _ => rfl⟩

theorem search_keeps {rel : Relation} (fuel : Nat) : ∀ {exec exec' : BtreeInsertExec}
    {env env' : ExecEnv} {r : ExecResult},
    searchPrepareLoop rel exec env fuel = .ok (r, exec', env') → StepKeeps exec r exec' := by
  induction fuel with
  | zero =>
    intro exec exec' env env' r hrun
    exact failExec_keeps hrun
  | succ n ih =>
    intro exec exec' env env' r hrun
    unfold searchPrepareLoop at hrun
    split at hrun
    · exact failExec_keeps hrun
    · obtain ⟨node, -, hrun⟩ := exists_of_bind_ok hrun
      obtain ⟨nodes, -, hrun⟩ := exists_of_bind_ok hrun
      obtain ⟨pos, -, hrun⟩ := exists_of_bind_ok hrun
      obtain ⟨positions, -, hrun⟩ := exists_of_bind_ok hrun
      obtain ⟨slot, -, hrun⟩ := exists_of_bind_ok hrun
      dsimp only at hrun
      split at hrun
      · exact (probe_keeps hrun).of_same rfl rfl
      · split at hrun
        · obtain ⟨rfl, rfl, -⟩ : ExecResult.cont = r ∧ _ = exec' ∧ _ = env' := by simpa using hrun
          exact ⟨rfl, by simp, fun _ => rfl⟩
        · exact (ih hrun).of_same rfl rfl

theorem heap_insert_keeps {exec exec' : BtreeInsertExec} {env env' : ExecEnv} {r : ExecResult}
    (hrun : btree_insert_run_heap_insert exec env = (r, exec', env')) : StepKeeps exec r exec' := by
  unfold btree_insert_run_heap_insert at hrun
  split at hrun
  · split at hrun
    · obtain ⟨rfl, rfl, -⟩ : ExecResult.error = r ∧ _ = exec' ∧ _ = env' := by simpa using hrun
      exact ⟨rfl, by simp, by simp⟩
    · dsimp only at hrun
      split at hrun
      · obtain ⟨rfl, rfl, -⟩ : ExecResult.error = r ∧ _ = exec' ∧ _ = env' := by simpa using hrun
        exact ⟨rfl, by simp, by simp⟩
      · obtain ⟨rfl, rfl, -⟩ : ExecResult.done = r ∧ _ = exec' ∧ _ = env' := by simpa using hrun
        exact ⟨rfl, by simp, fun _ => rfl⟩
  · split at hrun
    · obtain ⟨rfl, rfl, -⟩ : ExecResult.error = r ∧ _ = exec' ∧ _ = env' := by simpa using hrun
      exact ⟨rfl, by simp, by simp⟩
    · split at hrun
      · obtain ⟨rfl, rfl, -⟩ : ExecResult.error = r ∧ _ = exec' ∧ _ = env' := by simpa using hrun
        exact ⟨rfl, by simp, by simp⟩
      · obtain ⟨rfl, rfl, -⟩ : ExecResult.done = r ∧ _ = exec' ∧ _ = env' := by simpa using hrun
        exact ⟨rfl, by simp, fun _ => rfl⟩

theorem leaf_insert_keeps {exec exec' : BtreeInsertExec} {env env' : ExecEnv} {r : ExecResult}
    (hrun : btree_insert_run_btree_insert exec env = .ok (r, exec', env')) :
    StepKeeps exec r exec' := by
  unfold btree_insert_run_btree_insert at hrun
  obtain ⟨⟨ret, cursor, pool⟩, -, hrun⟩ := exists_of_bind_ok hrun
  dsimp only at hrun
  split at hrun
  · obtain ⟨rfl, rfl, -⟩ : ExecResult.error = r ∧ _ = exec' ∧ _ = env' := by simpa using hrun
    exact ⟨rfl, by simp, by simp⟩
  · obtain ⟨rfl, rfl, -⟩ : ExecResult.done = r ∧ _ = exec' ∧ _ = env' := by simpa using hrun
    exact ⟨rfl, by simp, fun _ => rfl⟩

/-- Turns of the phase loop from this phase to the end. -/
def BtreeInsertPhase.left : BtreeInsertPhase → Nat
  | .searchAndPrepare => 7
  | .walInitPage => 6
  | .walInsert => 5
  | .walBtree => 4
  | .heapInsert => 3
  | .btreeInsert => 2
  | .done => 1

theorem StepKeeps.after {exec exec' : BtreeInsertExec} {r : ExecResult} (h : StepKeeps exec r exec')
    (hret : exec.ret = none) (hphase : exec.phase ≠ .done) (hr : r ≠ .done) :
    (InsertExec.btree exec').After r := by
  obtain ⟨hp, herr, hkeep⟩ := h
  have hins : (InsertExec.btree exec').inserted = false := by
    cases hexec : exec.phase <;> simp_all [InsertExec.inserted]
  cases r with
  | done => exact absurd rfl hr
  | error => exact ⟨herr rfl, hins⟩
  | cont => exact ⟨(hkeep (by simp)).trans hret, hins⟩

/-- What one turn of the phase loop leaves. -/
def TurnOk (exec : BtreeInsertExec) (r : Option ExecResult) (exec' : BtreeInsertExec) : Prop :=
  (∀ res, r = some res → (InsertExec.btree exec').After res) ∧
    (r = none → exec'.ret = none ∧ exec'.phase.left < exec.phase.left)

theorem TurnOk.stop {exec exec' : BtreeInsertExec} {res : ExecResult}
    (h : (InsertExec.btree exec').After res) : TurnOk exec (some res) exec' := by
  refine ⟨fun res' heq => ?_, fun heq => by simp at heq⟩
  obtain rfl := Option.some.inj heq
  exact h

theorem TurnOk.go {exec exec' : BtreeInsertExec} (hret : exec'.ret = none)
    (hlt : exec'.phase.left < exec.phase.left) : TurnOk exec none exec' :=
  ⟨fun res heq => by simp at heq, fun _ => ⟨hret, hlt⟩⟩

theorem runPhase_spec {crc32c : UInt32 → List UInt8 → UInt32} {rel : Relation}
    {exec exec' : BtreeInsertExec} {env env' : ExecEnv} {r : Option ExecResult}
    (hret : exec.ret = none) (hrun : runPhase crc32c rel exec env = .ok (r, exec', env')) :
    TurnOk exec r exec' := by
  unfold runPhase at hrun
  cases hphase : exec.phase with
  | searchAndPrepare =>
    rw [hphase] at hrun
    obtain ⟨⟨res, exec₁, env₁⟩, hsearch, hrun⟩ := exists_of_bind_ok hrun
    have hkeeps := search_keeps _ hsearch
    dsimp only at hrun
    by_cases hres : res = .done
    · rw [if_neg (by simp [hres])] at hrun
      obtain ⟨rfl, rfl, -⟩ : none = r ∧ _ = exec' ∧ env₁ = env' := by simpa using hrun
      refine .go ((hkeeps.2.2 (by simp [hres])).trans hret) ?_
      rw [hphase]
      dsimp only
      -- the record of the leaf only if a page is new
      split <;> decide
    · rw [if_pos hres] at hrun
      obtain ⟨rfl, rfl, -⟩ : some res = r ∧ exec₁ = exec' ∧ env₁ = env' := by simpa using hrun
      exact .stop (hkeeps.after hret (by simp [hphase]) hres)
  | walInitPage =>
    rw [hphase] at hrun
    obtain ⟨rfl, rfl, -⟩ : none = r ∧ _ = exec' ∧ _ = env' := by simpa using hrun
    exact .go hret (by simp [hphase, BtreeInsertPhase.left])
  | walInsert =>
    rw [hphase] at hrun
    obtain ⟨rfl, rfl, -⟩ : none = r ∧ _ = exec' ∧ _ = env' := by simpa using hrun
    refine .go hret ?_
    rw [hphase]
    dsimp only
    split <;> decide
  | walBtree =>
    rw [hphase] at hrun
    obtain ⟨env₁, -, hrun⟩ := exists_of_bind_ok hrun
    obtain ⟨rfl, rfl, -⟩ : none = r ∧ _ = exec' ∧ env₁ = env' := by simpa using hrun
    exact .go hret (by simp [hphase, BtreeInsertPhase.left])
  | heapInsert =>
    rw [hphase] at hrun
    dsimp only at hrun
    split at hrun
    · obtain ⟨rfl, rfl, -⟩ : some ExecResult.cont = r ∧ exec = exec' ∧ _ = env' := by
        simpa using hrun
      exact .stop ⟨hret, by simp only [InsertExec.inserted, hphase]⟩
    · cases hins : btree_insert_run_heap_insert exec (kds_exec_slice_expired env).2 with
      | mk res out =>
        obtain ⟨exec₁, env₁⟩ := out
        have hkeeps := heap_insert_keeps hins
        simp only [hins] at hrun
        by_cases hres : res = .done
        · rw [if_neg (by simp [hres])] at hrun
          obtain ⟨rfl, rfl, -⟩ : none = r ∧ _ = exec' ∧ env₁ = env' := by simpa using hrun
          refine .go ((hkeeps.2.2 (by simp [hres])).trans hret) ?_
          rw [hphase]
          dsimp only
          split <;> decide
        · rw [if_pos hres] at hrun
          obtain ⟨rfl, rfl, -⟩ : some res = r ∧ exec₁ = exec' ∧ env₁ = env' := by simpa using hrun
          exact .stop (hkeeps.after hret (by simp [hphase]) hres)
  | btreeInsert =>
    rw [hphase] at hrun
    dsimp only at hrun
    split at hrun
    · obtain ⟨rfl, rfl, -⟩ : some ExecResult.cont = r ∧ exec = exec' ∧ _ = env' := by
        simpa using hrun
      exact .stop ⟨hret, by simp only [InsertExec.inserted, hphase]⟩
    · obtain ⟨⟨res, exec₁, env₁⟩, hins, hrun⟩ := exists_of_bind_ok hrun
      obtain ⟨⟨cursor, pool⟩, -, hrun⟩ := exists_of_bind_ok hrun
      obtain ⟨hp, herr, hkeep⟩ := leaf_insert_keeps hins
      -- the pins are given back, which changes the cursor and nothing else
      have hkeeps : StepKeeps exec res { exec₁ with cursor := cursor } := ⟨hp, herr, hkeep⟩
      dsimp only at hrun
      by_cases hres : res = .done
      · rw [if_neg (by simp [hres])] at hrun
        obtain ⟨rfl, rfl, -⟩ : none = r ∧ _ = exec' ∧ _ = env' := by simpa using hrun
        exact .go ((hkeeps.2.2 (by simp [hres])).trans hret) (by simp [hphase, BtreeInsertPhase.left])
      · rw [if_pos hres] at hrun
        obtain ⟨rfl, rfl, -⟩ : some res = r ∧ _ = exec' ∧ _ = env' := by simpa using hrun
        exact .stop (hkeeps.after hret (by simp [hphase]) hres)
  | done =>
    rw [hphase] at hrun
    obtain ⟨⟨cursor, pool⟩, -, hrun⟩ := exists_of_bind_ok hrun
    obtain ⟨rfl, rfl, -⟩ : some ExecResult.done = r ∧ _ = exec' ∧ _ = env' := by simpa using hrun
    exact .stop ⟨hret, by simp only [InsertExec.inserted]⟩

theorem runPhases_spec {crc32c : UInt32 → List UInt8 → UInt32} {rel : Relation} (turns : Nat) :
    ∀ {exec : BtreeInsertExec} {env : ExecEnv}, exec.ret = none → exec.phase.left ≤ turns →
      ∀ {r exec' env'}, runPhases crc32c rel exec env turns = .ok (r, exec', env') →
        (InsertExec.btree exec').After r := by
  induction turns with
  | zero =>
    intro exec env _ hleft
    cases hp : exec.phase <;> simp [hp, BtreeInsertPhase.left] at hleft
  | succ n ih =>
    intro exec env hret hleft r exec' env' hrun
    unfold runPhases at hrun
    obtain ⟨⟨res, exec₁, env₁⟩, hphase, hrun⟩ := exists_of_bind_ok hrun
    obtain ⟨hsome, hnone⟩ := runPhase_spec hret hphase
    cases res with
    | some res =>
      obtain ⟨rfl, rfl, -⟩ : res = r ∧ exec₁ = exec' ∧ env₁ = env' := by simpa using hrun
      exact hsome res rfl
    | none =>
      obtain ⟨hret₁, hlt⟩ := hnone rfl
      exact ih hret₁ (by omega) hrun

/-- A slice of a btree exec. -/
theorem btree_run_after {crc32c : UInt32 → List UInt8 → UInt32} {exec exec' : BtreeInsertExec}
    {env env' : ExecEnv} {r : ExecResult} (h : (InsertExec.btree exec).Running)
    (hrun : kds_btree_insert_exec_run crc32c exec env = .ok (r, exec', env')) :
    (InsertExec.btree exec').After r := by
  have hfail : ∀ e, (InsertExec.btree { exec with ret := some e }).After .error :=
    fun e => ⟨by simp [InsertExec.ret], h.2⟩
  unfold kds_btree_insert_exec_run at hrun
  split at hrun
  · obtain ⟨rfl, rfl, -⟩ : ExecResult.error = r ∧ _ = exec' ∧ env = env' := by simpa using hrun
    exact hfail _
  · split at hrun
    · obtain ⟨rfl, rfl, -⟩ : ExecResult.error = r ∧ _ = exec' ∧ env = env' := by simpa using hrun
      exact hfail _
    · split at hrun
      · obtain ⟨rfl, rfl, -⟩ : ExecResult.error = r ∧ _ = exec' ∧ env = env' := by simpa using hrun
        exact hfail _
      · refine runPhases_spec 7 h.1 ?_ hrun
        cases exec.phase <;> decide

end btree

/-- **A slice**: DONE means that the row is in and nothing failed, ERROR that
    it is not in and an error is noted, and otherwise the exec goes on. -/
theorem exec_run_after {crc32c : UInt32 → List UInt8 → UInt32} {turns : Nat}
    {exec exec' : InsertExec} {env env' : ExecEnv} {r : ExecResult} (h : exec.Running)
    (hrun : kds_exec_run crc32c turns exec env = some (r, exec', env')) : exec'.After r := by
  unfold kds_exec_run at hrun
  cases exec with
  | heap exec =>
    obtain ⟨⟨r₁, exec₁, env₁⟩, hheap, hout⟩ := Option.map_eq_some_iff.mp hrun
    obtain ⟨rfl, rfl, -⟩ : r₁ = r ∧ InsertExec.heap exec₁ = exec' ∧ env₁ = env' := by
      simpa using hout
    exact heap_run_after h hheap
  | btree exec =>
    dsimp only at hrun
    split at hrun
    · next out hbtree =>
      obtain ⟨r₁, exec₁, env₁⟩ := out
      obtain ⟨rfl, rfl, -⟩ : r₁ = r ∧ InsertExec.btree exec₁ = exec' ∧ env₁ = env' := by
        simpa using hrun
      exact btree_run_after h hbtree
    · simp at hrun

/-! ## Section 2: The protocol -/

/-- What a command says in `resp_buf`. -/
inductive Response where
  | ok
  | duplicate
  | insertFailed (e : Errno)
  | timedOut
  | execFailed (e : Errno)
  deriving DecidableEq, Repr

/-- Where the client is in `kds_cmd_insert_row`. -/
inductive ClientPc where
  /-- No command. -/
  | idle
  /-- `exec_buf` is filled. -/
  | copied
  /-- Behind `reinit_completion`. -/
  | reset
  /-- In `wait_for_completion_timeout`. -/
  | waiting
  /-- It returned 0. -/
  | timedOut
  /-- Behind the lock of the timeout path. -/
  | cancelled
  /-- It returned with the completion. -/
  | woken
  deriving DecidableEq, Repr

/-- Where `kds_dshell_proc_run` is with this client: it does not look at it,
    has found command `k` pending and dropped the lock, or has the result of the slice. -/
inductive ProcPc where
  | rest
  | selected (k : Nat)
  | ran (k : Nat) (r : ExecResult)
  deriving DecidableEq, Repr

/-- The client and the proc. `done` holds the completions that are signalled
    and not waited for; the last four fields record what happened. -/
structure Handoff where
  exec_status : ExecStatus
  exec_buf : InsertExec
  done : List Nat
  resp_buf : Option Response
  client : ClientPc
  proc : ProcPc
  /-- The number of the last command. -/
  cmd : Nat
  /-- The commands that returned, with their response. -/
  returned : List (Nat × Response)
  /-- The commands whose row was inserted. -/
  inserted : List Nat
  /-- For which command the proc acted, and which command it woke or set to IDLE. -/
  served : List (Nat × Nat)

/-- The response `kds_cmd_insert_row` reads off the exec. -/
def answerOf (exec : InsertExec) : Response :=
  match exec.ret with
  | none => .ok
  | some .EEXIST => .duplicate
  | some e => .insertFailed e

inductive HandoffAct where
  /-- A command fills `exec_buf`. -/
  | copy (exec : InsertExec)
  | reinit
  | publish
  | wake
  | expire
  | cancel
  | respond
  | answer
  | select
  /-- The slice, on the pages and the log as they are then. -/
  | slice (turns : Nat) (env : ExecEnv)
  | finish

/-- What `kds_dshell_proc_run` does behind a slice of command `k`. -/
def Handoff.finished (s : Handoff) (k : Nat) : ExecResult → Handoff
  | .cont => { s with proc := .rest }
  | r =>
      { s with
        resp_buf := if r = .error then s.exec_buf.ret.map .execFailed else s.resp_buf
        exec_status := .idle
        done := s.done ++ [k]
        served := if s.exec_status = .pending then (k, s.cmd) :: s.served else s.served
        proc := .rest }

/-- One client and the proc. -/
def handoffSystem (crc32c : UInt32 → List UInt8 → UInt32) : System Handoff HandoffAct where
  init := fun s =>
    s.exec_status = .idle ∧ s.done = [] ∧ s.client = .idle ∧ s.proc = .rest ∧ s.cmd = 0 ∧
    s.returned = [] ∧ s.inserted = [] ∧ s.served = []
  step := fun s act s' =>
    match act with
    | .copy exec =>
        s.client = .idle ∧ FreshExec exec ∧
        s' = { s with exec_buf := exec, resp_buf := none, cmd := s.cmd + 1, client := .copied }
    | .reinit => s.client = .copied ∧ s' = { s with done := [], client := .reset }
    | .publish =>
        s.client = .reset ∧ s' = { s with exec_status := .pending, client := .waiting }
    | .wake =>
        s.client = .waiting ∧ ∃ k rest, s.done = k :: rest ∧
          s' = { s with done := rest, served := (k, s.cmd) :: s.served, client := .woken }
    | .expire => s.client = .waiting ∧ s.done = [] ∧ s' = { s with client := .timedOut }
    | .cancel =>
        s.client = .timedOut ∧
        s' = { s with
          exec_status := if s.exec_status = .pending then .idle else s.exec_status
          client := .cancelled }
    | .respond =>
        s.client = .cancelled ∧
        s' = { s with
          resp_buf := some .timedOut
          returned := (s.cmd, .timedOut) :: s.returned
          client := .idle }
    | .answer =>
        s.client = .woken ∧
        s' = { s with
          resp_buf := some (answerOf s.exec_buf)
          returned := (s.cmd, answerOf s.exec_buf) :: s.returned
          client := .idle }
    | .select =>
        s.proc = .rest ∧ s.exec_status = .pending ∧ s' = { s with proc := .selected s.cmd }
    | .slice turns env =>
        ∃ k r exec env', s.proc = .selected k ∧
          kds_exec_run crc32c turns s.exec_buf env = some (r, exec, env') ∧
          s' = { s with
            exec_buf := exec
            inserted := if exec.inserted ∧ ¬ s.exec_buf.inserted then s.cmd :: s.inserted
              else s.inserted
            proc := .ran k r }
    | .finish => ∃ k r, s.proc = .ran k r ∧ s' = s.finished k r

/-- The hand-off as it is meant: the proc works for no command that has
    returned, OK means that the row is in, and what the proc does at the end
    of a command concerns that command. -/
structure HandoffOk (s : Handoff) : Prop where
  not_after_return : ∀ k, (s.proc = .selected k ∨ ∃ r, s.proc = .ran k r) →
    ∀ resp, (k, resp) ∉ s.returned
  ok_iff_inserted : ∀ k resp, (k, resp) ∈ s.returned → (resp = .ok ↔ k ∈ s.inserted)
  own_command : ∀ k k', (k, k') ∈ s.served → k = k'

/-- The timeout path gets the lock while the proc is not at work on the
    client's exec, and the command is still pending. -/
def CancelInTime (s : Handoff) : HandoffAct → Prop
  | .cancel => s.proc = .rest ∧ s.exec_status = .pending
  | _ => True

/-! ## Section 3: Runs -/

/-- The command is not through yet. -/
def Unfinished (s : Handoff) : Prop := s.exec_buf.Running ∧ s.cmd ∉ s.inserted

/-- The command is through, and its exec tells how. -/
def Settled (s : Handoff) : Prop := s.exec_buf.ret = none ↔ s.cmd ∈ s.inserted

/-- The command is pending, and the proc rests or works for it. -/
def AtWork (s : Handoff) : Prop :=
  s.exec_status = .pending ∧ s.done = [] ∧
    match s.proc with
    | .rest => Unfinished s
    | .selected k => k = s.cmd ∧ Unfinished s
    | .ran k r => k = s.cmd ∧ s.exec_buf.After r ∧ (s.cmd ∈ s.inserted ↔ r = .done)

/-- The command is finished and its completion signalled. -/
def Signalled (s : Handoff) : Prop :=
  s.exec_status = .idle ∧ s.proc = .rest ∧ s.done = [s.cmd] ∧ Settled s

def StageOk (s : Handoff) : Prop :=
  match s.client with
  | .idle => s.exec_status = .idle ∧ s.proc = .rest
  | .copied => s.exec_status = .idle ∧ s.proc = .rest ∧ Unfinished s
  | .reset => s.exec_status = .idle ∧ s.proc = .rest ∧ s.done = [] ∧ Unfinished s
  | .waiting => AtWork s ∨ Signalled s
  | .timedOut => AtWork s ∨ Signalled s
  | .cancelled => s.exec_status = .idle ∧ s.proc = .rest ∧ s.cmd ∉ s.inserted
  | .woken => s.exec_status = .idle ∧ s.proc = .rest ∧ Settled s

/-- The records are about earlier commands, and the proc never works ahead of the client. -/
structure HandoffInv (s : Handoff) : Prop where
  returned_le : ∀ k resp, (k, resp) ∈ s.returned → k ≤ s.cmd ∧ (s.client ≠ .idle → k < s.cmd)
  inserted_le : ∀ k ∈ s.inserted, k ≤ s.cmd
  ok : ∀ k resp, (k, resp) ∈ s.returned → (resp = .ok ↔ k ∈ s.inserted)
  own : ∀ k k', (k, k') ∈ s.served → k = k'
  stage : StageOk s

section runs

variable {s s' : Handoff}

theorem answerOf_ok_iff (exec : InsertExec) : answerOf exec = .ok ↔ exec.ret = none := by
  unfold answerOf
  split
  · next h => simp [h]
  · next h => simp [h]
  · next h => simp [h]

/-- The proc is at work, or may begin, only while the client waits. -/
theorem HandoffInv.atWork (h : HandoffInv s)
    (hbusy : s.proc ≠ .rest ∨ s.exec_status = .pending) :
    (s.client = .waiting ∨ s.client = .timedOut) ∧ AtWork s := by
  have hstage := h.stage
  unfold StageOk at hstage
  have hrest : s.exec_status = .idle → s.proc = .rest → False := by
    intro hst hp
    rcases hbusy with hbusy | hbusy
    · exact hbusy hp
    · rw [hst] at hbusy
      simp at hbusy
  cases hc : s.client <;> rw [hc] at hstage
  case waiting =>
    rcases hstage with hw | hs
    · exact ⟨Or.inl rfl, hw⟩
    · exact (hrest hs.1 hs.2.1).elim
  case timedOut =>
    rcases hstage with hw | hs
    · exact ⟨Or.inr rfl, hw⟩
    · exact (hrest hs.1 hs.2.1).elim
  case idle => exact (hrest hstage.1 hstage.2).elim
  all_goals exact (hrest hstage.1 hstage.2.1).elim

theorem HandoffInv.handoffOk (h : HandoffInv s) : HandoffOk s := by
  refine ⟨?_, h.ok, h.own⟩
  intro k hk resp hmem
  have hne : s.proc ≠ .rest := by
    rcases hk with hk | ⟨r, hk⟩ <;> rw [hk] <;> simp
  obtain ⟨hc, -, -, hproc⟩ := h.atWork (Or.inl hne)
  have hcur : k = s.cmd := by
    rcases hk with hk | ⟨r, hk⟩
    · rw [hk] at hproc
      exact hproc.1
    · rw [hk] at hproc
      exact hproc.1
  have hlt := (h.returned_le k resp hmem).2 (by rcases hc with hc | hc <;> rw [hc] <;> simp)
  omega

/-- A step of the client or the proc that returns no command and inserts nothing. -/
theorem HandoffInv.quiet (h : HandoffInv s) (hcmd : s'.cmd = s.cmd)
    (hret : s'.returned = s.returned) (hins : s'.inserted = s.inserted)
    (hclient : s'.client ≠ .idle → s.client ≠ .idle)
    (hown : ∀ k k', (k, k') ∈ s'.served → k = k') (hstage : StageOk s') : HandoffInv s' where
  returned_le := by
    intro k resp hmem
    rw [hret] at hmem
    rw [hcmd]
    exact ⟨(h.returned_le k resp hmem).1, fun hc => (h.returned_le k resp hmem).2 (hclient hc)⟩
  inserted_le := by
    intro k hk
    rw [hins] at hk
    rw [hcmd]
    exact h.inserted_le k hk
  ok := by
    rw [hret, hins]
    exact h.ok
  own := hown
  stage := hstage

/-- The command returns. -/
theorem HandoffInv.returns (h : HandoffInv s) {resp : Response}
    (hresp : resp = .ok ↔ s.cmd ∈ s.inserted) (hrest : s.exec_status = .idle ∧ s.proc = .rest)
    (hs' : s' = { s with
      resp_buf := some resp, returned := (s.cmd, resp) :: s.returned, client := .idle }) :
    HandoffInv s' := by
  subst hs'
  refine ⟨?_, h.inserted_le, ?_, h.own, hrest⟩
  · intro k resp' hmem
    refine ⟨?_, fun hc => absurd rfl hc⟩
    rcases List.mem_cons.mp hmem with heq | hmem
    · obtain ⟨rfl, -⟩ := Prod.mk.inj heq
      exact Nat.le_refl _
    · exact (h.returned_le k resp' hmem).1
  · intro k resp' hmem
    rcases List.mem_cons.mp hmem with heq | hmem
    · obtain ⟨rfl, rfl⟩ := Prod.mk.inj heq
      exact hresp
    · exact h.ok k resp' hmem

/-- A slice of the exec. -/
theorem HandoffInv.slice {crc32c : UInt32 → List UInt8 → UInt32} {turns : Nat} {env env' : ExecEnv}
    {k : Nat} {r : ExecResult} {exec : InsertExec} (h : HandoffInv s) (hproc : s.proc = .selected k)
    (hrun : kds_exec_run crc32c turns s.exec_buf env = some (r, exec, env'))
    (hs' : s' = { s with
      exec_buf := exec
      inserted := if exec.inserted ∧ ¬ s.exec_buf.inserted then s.cmd :: s.inserted
        else s.inserted
      proc := .ran k r }) : HandoffInv s' := by
  obtain ⟨hclient, hst, hdone, hwork⟩ := h.atWork (Or.inl (by rw [hproc]; simp))
  rw [hproc] at hwork
  obtain ⟨hk, hrunning, hnot⟩ := hwork
  have hafter := exec_run_after hrunning hrun
  have hnz : s.client ≠ .idle := by rcases hclient with hc | hc <;> rw [hc] <;> simp
  -- the row is in exactly when the slice ended in DONE
  have hins : exec.inserted = true ↔ r = .done := by
    cases r with
    | done => exact iff_of_true hafter.2 rfl
    | error =>
      rw [hafter.2]
      simp
    | cont =>
      rw [hafter.2]
      simp
  have hlist : ∀ j, j ∈ s'.inserted ↔ j ∈ s.inserted ∨ (j = s.cmd ∧ r = .done) := by
    intro j
    subst hs'
    dsimp only
    by_cases hr : r = .done
    · rw [if_pos ⟨hins.mpr hr, by simp [hrunning.2]⟩, List.mem_cons]
      simp [hr, or_comm]
    · rw [if_neg (fun hc => hr (hins.mp hc.1))]
      simp [hr]
  have hcmd : s'.cmd = s.cmd := by rw [hs']
  have hc' : s'.client = s.client := by rw [hs']
  have hret : s'.returned = s.returned := by rw [hs']
  refine ⟨?_, ?_, ?_, ?_, ?_⟩
  · intro j resp hmem
    rw [hret] at hmem
    rw [hcmd, hc']
    exact h.returned_le j resp hmem
  · intro j hj
    rw [hcmd]
    rcases (hlist j).mp hj with hj | hj
    · exact h.inserted_le j hj
    · exact Nat.le_of_eq hj.1
  · intro j resp hmem
    rw [hret] at hmem
    have hlt := (h.returned_le j resp hmem).2 hnz
    rw [h.ok j resp hmem, hlist j]
    constructor
    · exact Or.inl
    · intro hj
      rcases hj with hj | hj
      · exact hj
      · omega
  · rw [show s'.served = s.served by rw [hs']]
    exact h.own
  · have hwork' : AtWork s' := by
      have hcur : s'.cmd ∈ s'.inserted ↔ r = .done := by
        rw [hcmd, hlist]
        simp [hnot]
      subst hs'
      exact ⟨hst, hdone, hk, hafter, hcur⟩
    unfold StageOk
    rw [hc']
    rcases hclient with hc | hc <;> rw [hc]
    · exact Or.inl hwork'
    · exact Or.inl hwork'

/-- DONE or ERROR: the command is finished. -/
theorem HandoffInv.ended {r : ExecResult} (h : HandoffInv s) (hr : r ≠ .cont) (hwork : AtWork s)
    (hclient : s.client = .waiting ∨ s.client = .timedOut) (hset : Settled s) :
    HandoffInv (s.finished s.cmd r) := by
  obtain ⟨hst, hdone, -⟩ := hwork
  have hfin : s.finished s.cmd r = { s with
      resp_buf := if r = .error then s.exec_buf.ret.map .execFailed else s.resp_buf
      exec_status := .idle
      done := [s.cmd]
      served := (s.cmd, s.cmd) :: s.served
      proc := .rest } := by
    cases r with
    | cont => exact absurd rfl hr
    | done => simp [Handoff.finished, hst, hdone]
    | error => simp [Handoff.finished, hst, hdone]
  rw [hfin]
  refine h.quiet rfl rfl rfl (fun hc => hc) ?_ ?_
  · intro j j' hmem
    rcases List.mem_cons.mp hmem with heq | hmem
    · obtain ⟨rfl, rfl⟩ := Prod.mk.inj heq
      rfl
    · exact h.own j j' hmem
  · unfold StageOk
    rcases hclient with hc | hc
    · simp only [hc]
      exact Or.inr ⟨rfl, rfl, rfl, hset⟩
    · simp only [hc]
      exact Or.inr ⟨rfl, rfl, rfl, hset⟩

/-- The proc takes the lock again. -/
theorem HandoffInv.finish {k : Nat} {r : ExecResult} (h : HandoffInv s) (hproc : s.proc = .ran k r) :
    HandoffInv (s.finished k r) := by
  obtain ⟨hclient, hwork⟩ := h.atWork (Or.inl (by rw [hproc]; simp))
  obtain ⟨hst, hdone, hran⟩ := id hwork
  rw [hproc] at hran
  obtain ⟨rfl, hafter, hcur⟩ := hran
  cases r with
  | cont =>
    have hwork' : AtWork (s.finished s.cmd .cont) := by
      refine ⟨hst, hdone, hafter, ?_⟩
      intro hmem
      exact absurd (hcur.mp hmem) (by simp)
    refine h.quiet rfl rfl rfl (fun hc => hc) h.own ?_
    unfold StageOk
    rcases hclient with hc | hc
    · simp only [Handoff.finished, hc]
      exact Or.inl hwork'
    · simp only [Handoff.finished, hc]
      exact Or.inl hwork'
  | done => exact h.ended (by simp) hwork hclient (iff_of_true hafter.1 (hcur.mpr rfl))
  | error =>
    refine h.ended (by simp) hwork hclient (iff_of_false hafter.1 ?_)
    intro hmem
    exact absurd (hcur.mp hmem) (by simp)

theorem HandoffInv.step {crc32c : UInt32 → List UInt8 → UInt32} {act : HandoffAct}
    (h : HandoffInv s) (hstep : (handoffSystem crc32c).step s act s') (hok : CancelInTime s act) :
    HandoffInv s' := by
  have hstage := h.stage
  unfold StageOk at hstage
  cases act with
  | copy exec =>
    obtain ⟨hc, hfresh, rfl⟩ := hstep
    rw [hc] at hstage
    -- the new number is larger than that of every command before
    refine ⟨?_, ?_, h.ok, h.own, hstage.1, hstage.2, hfresh.running, ?_⟩
    · intro k resp hmem
      have hle := (h.returned_le k resp hmem).1
      dsimp only
      omega
    · intro k hk
      have hle := h.inserted_le k hk
      dsimp only
      omega
    · intro hmem
      have hle := h.inserted_le _ hmem
      dsimp only at hle
      omega
  | reinit =>
    obtain ⟨hc, rfl⟩ := hstep
    rw [hc] at hstage
    exact h.quiet rfl rfl rfl (fun _ => by simp [hc]) h.own
      ⟨hstage.1, hstage.2.1, rfl, hstage.2.2⟩
  | publish =>
    obtain ⟨hc, rfl⟩ := hstep
    rw [hc] at hstage
    obtain ⟨-, hrest, hdone, hun⟩ := hstage
    refine h.quiet rfl rfl rfl (fun _ => by simp [hc]) h.own (Or.inl ⟨rfl, hdone, ?_⟩)
    dsimp only
    rw [hrest]
    exact hun
  | wake =>
    obtain ⟨hc, k, rest, hdone, rfl⟩ := hstep
    rw [hc] at hstage
    -- the proc has answered, since a completion is there
    rcases hstage with hw | ⟨hst, hrest, hsig, hset⟩
    · rw [hw.2.1] at hdone
      simp at hdone
    · rw [hsig] at hdone
      obtain ⟨rfl, rfl⟩ := List.cons.inj hdone
      refine h.quiet rfl rfl rfl (fun _ => by simp [hc]) ?_ ⟨hst, hrest, hset⟩
      intro j j' hmem
      rcases List.mem_cons.mp hmem with heq | hmem
      · obtain ⟨rfl, rfl⟩ := Prod.mk.inj heq
        rfl
      · exact h.own j j' hmem
  | expire =>
    obtain ⟨hc, hdone, rfl⟩ := hstep
    rw [hc] at hstage
    exact h.quiet rfl rfl rfl (fun _ => by simp [hc]) h.own hstage
  | cancel =>
    obtain ⟨hc, rfl⟩ := hstep
    obtain ⟨hrest, hpend⟩ := hok
    -- the condition: the proc has not taken the exec yet
    obtain ⟨-, -, -, hwork⟩ := h.atWork (Or.inr hpend)
    rw [hrest] at hwork
    refine h.quiet rfl rfl rfl (fun _ => by simp [hc]) h.own ⟨?_, hrest, hwork.2⟩
    dsimp only
    rw [if_pos hpend]
  | respond =>
    obtain ⟨hc, hs'⟩ := hstep
    rw [hc] at hstage
    exact h.returns (iff_of_false (by simp) hstage.2.2) ⟨hstage.1, hstage.2.1⟩ hs'
  | answer =>
    obtain ⟨hc, hs'⟩ := hstep
    rw [hc] at hstage
    exact h.returns ((answerOf_ok_iff _).trans hstage.2.2) ⟨hstage.1, hstage.2.1⟩ hs'
  | select =>
    obtain ⟨hrest, hpend, rfl⟩ := hstep
    -- PENDING, so the command waits, or has timed out and is not cancelled yet
    obtain ⟨hclient, hst, hdone, hwork⟩ := h.atWork (Or.inr hpend)
    rw [hrest] at hwork
    have hwork' : AtWork { s with proc := .selected s.cmd } := ⟨hst, hdone, rfl, hwork⟩
    refine h.quiet rfl rfl rfl (fun hc => hc) h.own ?_
    unfold StageOk
    rcases hclient with hc | hc
    · simp only [hc]
      exact Or.inl hwork'
    · simp only [hc]
      exact Or.inl hwork'
  | slice turns env =>
    obtain ⟨k, r, exec, env', hproc, hrun, hs'⟩ := hstep
    exact h.slice hproc hrun hs'
  | finish =>
    obtain ⟨k, r, hproc, rfl⟩ := hstep
    exact h.finish hproc

theorem handoffInv_reachable {crc32c : UInt32 → List UInt8 → UInt32}
    (h : ((handoffSystem crc32c).restrict CancelInTime).Reachable s) : HandoffInv s := by
  refine h.invariant HandoffInv ?_ ?_
  · intro s hinit
    obtain ⟨hst, -, hc, hp, -, hret, hins, hserved⟩ := hinit
    refine ⟨by simp [hret], by simp [hins], by simp [hret], by simp [hserved], ?_⟩
    unfold StageOk
    rw [hc]
    exact ⟨hst, hp⟩
  · intro s act s' hinv hstep
    exact hinv.step hstep.1 hstep.2

end runs

/-- **The hand-off**: it is as meant in every state of every run in which the
    timeout path gets the lock in time. -/
theorem handoff_sound (crc32c : UInt32 → List UInt8 → UInt32) (s : Handoff)
    (h : ((handoffSystem crc32c).restrict CancelInTime).Reachable s) : HandoffOk s :=
  (handoffInv_reachable h).handoffOk

/-! ### A client of its own -/

/-- A client that was just opened. -/
def openedClient : Handoff where
  exec_status := .idle
  exec_buf := .heap (kds_heap_insert_exec_init none (fun _ => 0) 0 0)
  done := []
  resp_buf := none
  client := .idle
  proc := .rest
  cmd := 0
  returned := []
  inserted := []
  served := []

/-- The exec for the row with this key. -/
def insertOf (key : UInt64) : InsertExec :=
  .heap (kds_heap_insert_exec_init (some newHeapRel) (keyRow key).data (keyRow key).data_len
    KDS_DSHELL_XID)

/-- The exec for key 5 behind its only slice. -/
def insertedFive : InsertExec :=
  ((kds_exec_run crc32c_le 2 (insertOf 5) newHeapEnv).map fun out => out.2.1).getD (insertOf 5)

theorem insertedFive_run :
    ∃ env', kds_exec_run crc32c_le 2 (insertOf 5) newHeapEnv = some (.done, insertedFive, env') := by
  have hdone : (kds_exec_run crc32c_le 2 (insertOf 5) newHeapEnv).map (fun out => out.1) =
      some .done := by decide +kernel
  obtain ⟨⟨r, exec, env'⟩, hrun, rfl⟩ := Option.map_eq_some_iff.mp hdone
  refine ⟨env', ?_⟩
  rw [insertedFive, hrun]
  rfl

theorem insertedFive_inserted : insertedFive.inserted = true := by decide +kernel

theorem insertedFive_ret : insertedFive.ret = none := by decide +kernel

/-- The client has handed an INSERT over. -/
def Handoff.pend (s : Handoff) (key : UInt64) : Handoff :=
  { s with
    exec_buf := insertOf key
    resp_buf := none
    cmd := s.cmd + 1
    done := []
    exec_status := .pending
    client := .waiting }

/-- The first command is pending and the proc has seen it. -/
def selectedFive : Handoff := { openedClient.pend 5 with proc := .selected 1 }

section reach

variable {ok : Handoff → HandoffAct → Prop} {s s' : Handoff}

/-- A step of a run that ends in a given state. -/
theorem reach_step (act : HandoffAct) (h : ((handoffSystem crc32c_le).restrict ok).Reachable s)
    (hok : ok s act) (hstep : (handoffSystem crc32c_le).step s act s') :
    ((handoffSystem crc32c_le).restrict ok).Reachable s' := .step act h ⟨hstep, hok⟩

theorem reach_pend (hok : ∀ s act, act ≠ .cancel → ok s act)
    (h : ((handoffSystem crc32c_le).restrict ok).Reachable s) (hc : s.client = .idle)
    (key : UInt64) : ((handoffSystem crc32c_le).restrict ok).Reachable (s.pend key) := by
  have h₁ := reach_step (.copy (insertOf key)) h (hok _ _ (by simp)) ⟨hc, .heap _ _ _ _, rfl⟩
  have h₂ := reach_step .reinit h₁ (hok _ _ (by simp)) ⟨rfl, rfl⟩
  exact reach_step .publish h₂ (hok _ _ (by simp)) ⟨rfl, rfl⟩

theorem reach_selectedFive (hok : ∀ s act, act ≠ .cancel → ok s act) :
    ((handoffSystem crc32c_le).restrict ok).Reachable selectedFive := by
  have h₀ : ((handoffSystem crc32c_le).restrict ok).Reachable openedClient :=
    .init ⟨rfl, rfl, rfl, rfl, rfl, rfl, rfl, rfl⟩
  exact reach_step .select (reach_pend hok h₀ rfl 5) (hok _ _ (by simp)) ⟨rfl, rfl, rfl⟩

/-- The slice for key 5 ends in DONE. -/
theorem reach_insertedFive (hok : ∀ s act, act ≠ .cancel → ok s act)
    (h : ((handoffSystem crc32c_le).restrict ok).Reachable s) {k : Nat}
    (hproc : s.proc = .selected k) (hbuf : s.exec_buf = insertOf 5) :
    ((handoffSystem crc32c_le).restrict ok).Reachable
      { s with
        exec_buf := insertedFive, inserted := s.cmd :: s.inserted, proc := .ran k .done } := by
  obtain ⟨env', hrun⟩ := insertedFive_run
  refine reach_step (.slice 2 newHeapEnv) h (hok _ _ (by simp))
    ⟨k, .done, insertedFive, env', hproc, by rw [hbuf]; exact hrun, ?_⟩
  rw [if_pos ⟨insertedFive_inserted, by rw [hbuf]; decide⟩]

end reach

/-- The command for key 5, served and answered. -/
def answeredFive : Handoff :=
  { selectedFive with
    exec_status := .idle
    exec_buf := insertedFive
    resp_buf := some .ok
    client := .idle
    proc := .rest
    returned := [(1, .ok)]
    inserted := [1]
    served := [(1, 1), (1, 1)] }

theorem handoff_sound_one_command :
    HandoffOk answeredFive ∧ (1, .ok) ∈ answeredFive.returned ∧ 1 ∈ answeredFive.inserted := by
  refine ⟨handoff_sound crc32c_le answeredFive ?_, by simp [answeredFive], by simp [answeredFive]⟩
  have hok : ∀ s act, act ≠ .cancel → CancelInTime s act := by
    intro s act hact
    cases act <;> first | exact absurd rfl hact | trivial
  have h₁ := reach_insertedFive hok (reach_selectedFive hok) rfl rfl
  have h₂ := reach_step .finish h₁ trivial ⟨1, .done, rfl, rfl⟩
  have h₃ := reach_step .wake h₂ trivial ⟨rfl, 1, [], rfl, rfl⟩
  refine reach_step .answer h₃ trivial ⟨rfl, ?_⟩
  have hans : answerOf insertedFive = .ok := (answerOf_ok_iff _).mpr insertedFive_ret
  dsimp only [Handoff.finished]
  rw [hans]
  rfl

/-- The first command timed out while the proc was about to run its slice;
    its completion woke the second command, for key 6. -/
def answeredSix : Handoff :=
  { openedClient with
    exec_buf := insertOf 6
    resp_buf := some .ok
    cmd := 2
    returned := [(2, .ok), (1, .timedOut)]
    inserted := [1]
    served := [(1, 2), (1, 2)] }

/-- The row of command 1 is in, though it answered that it timed out; command 2
    answers OK, and its row is not in. -/
theorem timeout_answers_next_command :
    (handoffSystem crc32c_le).Reachable answeredSix ∧
      ((1, .timedOut) ∈ answeredSix.returned ∧ 1 ∈ answeredSix.inserted) ∧
      ((2, .ok) ∈ answeredSix.returned ∧ 2 ∉ answeredSix.inserted) ∧ ¬ HandoffOk answeredSix := by
  refine ⟨?_, ?_, ?_, ?_⟩
  · have hok : ∀ (s : Handoff) (act : HandoffAct), act ≠ .cancel → True := fun _ _ _ => trivial
    have h₁ := reach_step .expire (reach_selectedFive hok) trivial ⟨rfl, rfl, rfl⟩
    have h₂ := reach_step .cancel h₁ trivial ⟨rfl, rfl⟩
    have h₃ := reach_step .respond h₂ trivial ⟨rfl, rfl⟩
    have h₄ := reach_pend hok (reach_insertedFive hok h₃ rfl rfl) rfl 6
    have h₅ := reach_step .finish h₄ trivial ⟨1, .done, rfl, rfl⟩
    have h₆ := reach_step .wake h₅ trivial ⟨rfl, 1, [], rfl, rfl⟩
    have h₇ := reach_step .answer h₆ trivial ⟨rfl, rfl⟩
    exact h₇.of_restrict
  · simp [answeredSix]
  · simp [answeredSix]
  · intro h
    have hown := h.own_command 1 2 (by simp [answeredSix])
    exact absurd hown (by decide)

end Kds
