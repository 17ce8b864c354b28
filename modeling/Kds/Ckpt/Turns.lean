import Kds.Ckpt.System
import Kds.Wal.Append

/-! # What a turn does to the log

    Only the WAL phases of an executor append, one record each. The other
    phases leave the log alone and may take pages from the pre-allocation
    ring. Behind WAL_INSERT the record's body does not change any more.
-/

open Bytes Fallible

namespace Kds

/-! ## Section 1: Phases that do not append -/

/-- The log is as it was, and pages may be gone from the front of the ring. -/
structure KeepsLog (env env' : ExecEnv) : Prop where
  wal : env'.wal = env.wal
  staged : env'.staged <:+ env.staged

theorem KeepsLog.refl (env : ExecEnv) : KeepsLog env env := ⟨rfl, List.suffix_refl _⟩

theorem KeepsLog.trans {env env' env'' : ExecEnv} (h : KeepsLog env env')
    (h' : KeepsLog env' env'') : KeepsLog env env'' :=
  ⟨h'.wal.trans h.wal, h'.staged.trans h.staged⟩

/-- Whatever happens in the pool. -/
theorem KeepsLog.pool {env env' : ExecEnv} {p : Pool} (h : KeepsLog { env with pool := p } env') :
    KeepsLog env env' := ⟨h.wal, h.staged⟩

theorem keepsLog_pool (env : ExecEnv) (p : Pool) : KeepsLog env { env with pool := p } :=
  (KeepsLog.refl _).pool

theorem keepsLog_slice (env : ExecEnv) : KeepsLog env (kds_exec_slice_expired env).2 := by
  unfold kds_exec_slice_expired
  split
  · exact .refl env
  · exact ⟨rfl, List.suffix_refl _⟩

theorem keepsLog_alloc {env env' : ExecEnv} {type : PageType} {page : Option PageId}
    (h : kds_page_alloc env type = (page, env')) : KeepsLog env env' := by
  unfold kds_page_alloc at h
  split at h
  · obtain ⟨-, rfl⟩ := Prod.mk.inj h
    exact .refl env
  · next frame staged hring =>
    obtain ⟨-, rfl⟩ := Prod.mk.inj h
    exact ⟨rfl, hring ▸ List.suffix_cons frame staged⟩

section heap

variable {exec exec' : HeapInsertExec} {env env' : ExecEnv} {r : ExecResult}

theorem dup_scan_log (turns : Nat) : ∀ {exec : HeapInsertExec} {env : ExecEnv},
    heap_insert_run_dup_scan exec env turns = some (r, exec', env') → KeepsLog env env' := by
  induction turns with
  | zero =>
    intro exec env hrun
    simp [heap_insert_run_dup_scan] at hrun
  | succ n ih =>
    intro exec env hrun
    unfold heap_insert_run_dup_scan at hrun
    split at hrun
    · obtain ⟨-, -, rfl⟩ : ExecResult.done = r ∧ exec = exec' ∧ env = env' := by simpa using hrun
      exact .refl env
    · split at hrun
      · obtain ⟨-, -, rfl⟩ : ExecResult.error = r ∧ _ = exec' ∧ _ = env' := by simpa using hrun
        exact keepsLog_pool env _
      · obtain ⟨-, -, rfl⟩ : ExecResult.error = r ∧ _ = exec' ∧ _ = env' := by simpa using hrun
        exact keepsLog_pool env _
      · dsimp only at hrun
        split at hrun
        · exact (ih hrun).pool
        · split at hrun
          · obtain ⟨-, -, rfl⟩ : ExecResult.cont = r ∧ _ = exec' ∧ _ = env' := by simpa using hrun
            exact (keepsLog_slice _).pool
          · exact ((keepsLog_slice _).trans (ih hrun)).pool

theorem growChain_log {frame : PageId} (hrun : growChain exec env frame = (r, exec', env')) :
    KeepsLog env env' := by
  unfold growChain at hrun
  split at hrun
  · next env₁ halloc =>
    obtain ⟨-, -, rfl⟩ : ExecResult.error = r ∧ _ = exec' ∧ _ = env' := by simpa using hrun
    exact (keepsLog_alloc halloc).trans (keepsLog_pool env₁ _)
  · next new_frame env₁ halloc =>
    dsimp only at hrun
    split at hrun
    · obtain ⟨-, -, rfl⟩ : ExecResult.error = r ∧ _ = exec' ∧ _ = env' := by simpa using hrun
      exact (keepsLog_alloc halloc).trans (keepsLog_pool env₁ _)
    · obtain ⟨-, -, rfl⟩ : ExecResult.done = r ∧ _ = exec' ∧ _ = env' := by simpa using hrun
      exact (keepsLog_alloc halloc).trans (keepsLog_pool env₁ _)

theorem find_tail_log (turns : Nat) : ∀ {exec : HeapInsertExec} {env : ExecEnv},
    heap_insert_run_find_tail exec env turns = some (r, exec', env') → KeepsLog env env' := by
  induction turns with
  | zero =>
    intro exec env hrun
    simp [heap_insert_run_find_tail] at hrun
  | succ n ih =>
    intro exec env hrun
    unfold heap_insert_run_find_tail at hrun
    split at hrun
    · obtain ⟨-, -, rfl⟩ : ExecResult.error = r ∧ _ = exec' ∧ _ = env' := by simpa using hrun
      exact keepsLog_pool env _
    · split at hrun
      · obtain ⟨-, -, rfl⟩ : ExecResult.done = r ∧ _ = exec' ∧ _ = env' := by simpa using hrun
        exact keepsLog_pool env _
      · dsimp only at hrun
        split at hrun
        · exact (growChain_log (Option.some.inj hrun)).pool
        · split at hrun
          · obtain ⟨-, -, rfl⟩ : ExecResult.cont = r ∧ _ = exec' ∧ _ = env' := by simpa using hrun
            exact (keepsLog_slice _).pool
          · exact ((keepsLog_slice _).trans (ih hrun)).pool
      · obtain ⟨-, -, rfl⟩ : ExecResult.error = r ∧ _ = exec' ∧ _ = env' := by simpa using hrun
        exact keepsLog_pool env _

end heap

section btree

variable {rel : Relation} {exec exec' : BtreeInsertExec} {env env' : ExecEnv} {r : ExecResult}

theorem failExec_log {e : Errno} (hrun : failExec exec env e = .ok (r, exec', env')) :
    KeepsLog env env' := by
  obtain ⟨⟨cursor, pool⟩, -, hrun⟩ := exists_of_bind_ok hrun
  obtain ⟨-, -, rfl⟩ : ExecResult.error = r ∧ _ = exec' ∧ _ = env' := by simpa using hrun
  exact keepsLog_pool env _

theorem probe_log {slot : PageId} (hrun : probeHeapPage rel exec env slot = .ok (r, exec', env')) :
    KeepsLog env env' := by
  unfold probeHeapPage at hrun
  dsimp only at hrun
  generalize (if slot = 0 then rel.root_page_id else slot) = page at hrun
  split at hrun
  · obtain ⟨-, -, rfl⟩ : ExecResult.done = r ∧ _ = exec' ∧ env = env' := by simpa using hrun
    exact .refl env
  · split at hrun
    · exact (failExec_log hrun).pool
    · split at hrun
      · exact (failExec_log hrun).pool
      · obtain ⟨-, -, rfl⟩ : ExecResult.done = r ∧ _ = exec' ∧ _ = env' := by simpa using hrun
        exact keepsLog_pool env _

theorem search_log (fuel : Nat) : ∀ {exec : BtreeInsertExec} {env : ExecEnv},
    searchPrepareLoop rel exec env fuel = .ok (r, exec', env') → KeepsLog env env' := by
  induction fuel with
  | zero =>
    intro exec env hrun
    exact failExec_log hrun
  | succ n ih =>
    intro exec env hrun
    unfold searchPrepareLoop at hrun
    split at hrun
    · exact (failExec_log hrun).pool
    · obtain ⟨node, -, hrun⟩ := exists_of_bind_ok hrun
      obtain ⟨nodes, -, hrun⟩ := exists_of_bind_ok hrun
      obtain ⟨pos, -, hrun⟩ := exists_of_bind_ok hrun
      obtain ⟨positions, -, hrun⟩ := exists_of_bind_ok hrun
      obtain ⟨slot, -, hrun⟩ := exists_of_bind_ok hrun
      dsimp only at hrun
      split at hrun
      · exact (probe_log hrun).pool
      · split at hrun
        · obtain ⟨-, -, rfl⟩ : ExecResult.cont = r ∧ _ = exec' ∧ _ = env' := by simpa using hrun
          exact (keepsLog_slice _).pool
        · exact ((keepsLog_slice _).trans (ih hrun)).pool

theorem heap_insert_log (hrun : btree_insert_run_heap_insert exec env = (r, exec', env')) :
    KeepsLog env env' := by
  unfold btree_insert_run_heap_insert at hrun
  split at hrun
  · split at hrun
    · next env₁ halloc =>
      obtain ⟨-, -, rfl⟩ : ExecResult.error = r ∧ _ = exec' ∧ env₁ = env' := by simpa using hrun
      exact keepsLog_alloc halloc
    · next new_frame env₁ halloc =>
      dsimp only at hrun
      split at hrun
      · obtain ⟨-, -, rfl⟩ : ExecResult.error = r ∧ _ = exec' ∧ _ = env' := by simpa using hrun
        exact (keepsLog_alloc halloc).trans (keepsLog_pool env₁ _)
      · obtain ⟨-, -, rfl⟩ : ExecResult.done = r ∧ _ = exec' ∧ _ = env' := by simpa using hrun
        exact (keepsLog_alloc halloc).trans (keepsLog_pool env₁ _)
  · split at hrun
    · obtain ⟨-, -, rfl⟩ : ExecResult.error = r ∧ _ = exec' ∧ _ = env' := by simpa using hrun
      exact keepsLog_pool env _
    · split at hrun
      · obtain ⟨-, -, rfl⟩ : ExecResult.error = r ∧ _ = exec' ∧ _ = env' := by simpa using hrun
        exact keepsLog_pool env _
      · obtain ⟨-, -, rfl⟩ : ExecResult.done = r ∧ _ = exec' ∧ _ = env' := by simpa using hrun
        exact keepsLog_pool env _

theorem leaf_insert_log (hrun : btree_insert_run_btree_insert exec env = .ok (r, exec', env')) :
    KeepsLog env env' := by
  unfold btree_insert_run_btree_insert at hrun
  obtain ⟨⟨ret, cursor, pool⟩, -, hrun⟩ := exists_of_bind_ok hrun
  dsimp only at hrun
  split at hrun
  · obtain ⟨-, -, rfl⟩ : ExecResult.error = r ∧ _ = exec' ∧ _ = env' := by simpa using hrun
    exact keepsLog_pool env _
  · obtain ⟨-, -, rfl⟩ : ExecResult.done = r ∧ _ = exec' ∧ _ = env' := by simpa using hrun
    exact keepsLog_pool env _

end btree

/-! ## Section 2: One turn -/

/-- WAL_INSERT is behind the exec. -/
def InsertExec.pastRow : InsertExec → Bool
  | .heap exec =>
      match exec.phase with
      | .done => true
      | _ => false
  | .btree exec =>
      match exec.phase with
      | .walBtree | .heapInsert | .btreeInsert | .done => true
      | _ => false

/-- What a turn with this record does to the log in state `s`, and that it
    leaves the body of the INSERT record. -/
structure TurnEffect (crc32c : UInt32 → List UInt8 → UInt32) (s : CkptSys)
    (record : Option (InsertLog × WalRecHdr × List UInt8)) (exec exec' : InsertExec)
    (env' : ExecEnv) : Prop where
  wal : env'.wal = (s.logRecord crc32c record).wal
  staged : env'.staged <:+ s.log.staged
  past : exec.pastRow = true → exec'.pastRow = true ∧ exec'.rowBody = exec.rowBody
  row : ∀ {hdr body}, record = some (.row, hdr, body) →
    exec'.pastRow = true ∧ hdr.type = .insert ∧ exec'.rowBody = body

section turn

variable {crc32c : UInt32 → List UInt8 → UInt32} {s : CkptSys} {ticks : List Bool}
  {exec exec' : InsertExec} {env' : ExecEnv}

variable (ticks) in
/-- A turn without a record. -/
theorem TurnEffect.quiet {record : Option (InsertLog × WalRecHdr × List UInt8)}
    (hrec : record = none) (hlog : KeepsLog (s.env ticks) env')
    (hpast : exec.pastRow = true → exec'.pastRow = true ∧ exec'.rowBody = exec.rowBody) :
    TurnEffect crc32c s record exec exec' env' where
  wal := by
    rw [hrec]
    exact hlog.wal
  staged := hlog.staged
  past := hpast
  row := by
    intro hdr body hrow
    rw [hrec] at hrow
    cases hrow

/-- `ExecEnv.append` and `appendStep` hand the same record to `kds_wal_append`. -/
theorem append_wal {env : ExecEnv} {log : WalSys} (hwal : env.wal = log.wal) (hdr : WalRecHdr)
    (body : List UInt8) :
    (env.append crc32c hdr body).wal = (appendStep crc32c log hdr (some body)).wal := by
  unfold ExecEnv.append walAfter appendStep
  rw [hwal]
  cases kds_wal_append crc32c log.wal hdr (some body) with
  | error fault => rfl
  | ok result =>
    obtain ⟨ret, w⟩ := result
    cases ret with
    | error e => rfl
    | ok hdr' => rfl

theorem heapRunPhase_effect {rel : Relation} {turns : Nat} {h h' : HeapInsertExec}
    {r : Option ExecResult} (hrun : heapRunPhase crc32c rel turns h (s.env ticks) = some (r, h', env')) :
    TurnEffect crc32c s ((InsertExec.heap h).phaseRecord s.pool) (.heap h) (.heap h') env' := by
  unfold heapRunPhase at hrun
  cases hphase : h.phase with
  | dupScan =>
    rw [hphase] at hrun
    cases hscan : heap_insert_run_dup_scan h (s.env ticks) turns with
    | none => simp [hscan] at hrun
    | some out =>
      obtain ⟨res, exec₁, env₁⟩ := out
      simp only [hscan, Option.bind_eq_bind, Option.bind_some] at hrun
      -- a scan that ends and one that goes on leave the same pages and log
      have henv : env₁ = env' := by
        split at hrun
        · simpa using congrArg (Option.map (·.2.2)) hrun
        · simpa using congrArg (Option.map (·.2.2)) hrun
      subst henv
      exact .quiet ticks (by simp only [InsertExec.phaseRecord, hphase]) (dup_scan_log turns hscan)
        (by simp [InsertExec.pastRow, hphase])
  | findTail =>
    rw [hphase] at hrun
    dsimp only at hrun
    refine .quiet ticks (by simp only [InsertExec.phaseRecord, hphase]) ?_
      (by simp [InsertExec.pastRow, hphase])
    split at hrun
    · obtain ⟨-, -, rfl⟩ : some ExecResult.cont = r ∧ h = h' ∧ _ = env' := by simpa using hrun
      exact keepsLog_slice _
    · cases htail : heap_insert_run_find_tail h (kds_exec_slice_expired (s.env ticks)).2 turns with
      | none => simp [htail] at hrun
      | some out =>
        obtain ⟨res, exec₁, env₁⟩ := out
        simp only [htail, Option.bind_eq_bind, Option.bind_some] at hrun
        have henv : env₁ = env' := by
          split at hrun
          · simpa using congrArg (Option.map (·.2.2)) hrun
          · simpa using congrArg (Option.map (·.2.2)) hrun
        subst henv
        exact (keepsLog_slice _).trans (find_tail_log turns htail)
  | walInitPage =>
    rw [hphase] at hrun
    obtain ⟨-, rfl, rfl⟩ : none = r ∧ _ = h' ∧ _ = env' := by simpa using hrun
    -- the record of the new page, and none of the row yet
    unfold heap_insert_run_wal_init_page
    dsimp only
    refine ⟨?_, List.suffix_refl _, by simp [InsertExec.pastRow, hphase], ?_⟩
    · simp only [InsertExec.phaseRecord, hphase, CkptSys.logRecord]
      exact append_wal rfl _ _
    · intro hdr body hrow
      simp [InsertExec.phaseRecord, hphase] at hrow
  | walInsert =>
    rw [hphase] at hrun
    obtain ⟨-, rfl, rfl⟩ : none = r ∧ _ = h' ∧ _ = env' := by simpa using hrun
    unfold heap_insert_run_wal_insert
    dsimp only [CkptSys.env]
    -- without memory for the body nothing is appended, and the phase goes on all the same
    by_cases hmem : (s.pool.fail 0).isSome = true
    · rw [if_pos hmem]
      refine ⟨?_, List.suffix_refl _, by simp [InsertExec.pastRow, hphase], ?_⟩
      · simp only [InsertExec.phaseRecord, hphase, if_pos hmem]
        rfl
      · intro hdr body hrow
        simp [InsertExec.phaseRecord, hphase, hmem] at hrow
    · rw [if_neg hmem]
      refine ⟨?_, List.suffix_refl _, by simp [InsertExec.pastRow, hphase], ?_⟩
      · simp only [InsertExec.phaseRecord, hphase, if_neg hmem, CkptSys.logRecord]
        exact append_wal rfl _ _
      -- from here on the insert is past the record of its row
      · intro hdr body hrow
        simp only [InsertExec.phaseRecord, hphase, if_neg hmem] at hrow
        obtain ⟨-, rfl, rfl⟩ : InsertLog.row = .row ∧ _ = hdr ∧ _ = body := by simpa using hrow
        exact ⟨rfl, rfl, rfl⟩
  | done =>
    rw [hphase] at hrun
    obtain ⟨-, rfl, rfl⟩ : some ExecResult.done = r ∧ h = h' ∧ _ = env' := by simpa using hrun
    exact .quiet ticks (by simp only [InsertExec.phaseRecord, hphase]) (.refl _)
      (fun h => ⟨h, rfl⟩)

/-- What a phase behind WAL_INSERT keeps of the exec. -/
theorem rowBody_congr {b b' : BtreeInsertExec} (hnew : b'.need_new_page = b.need_new_page)
    (htarget : b'.target_heap_page_id = b.target_heap_page_id) (hdata : b'.data = b.data)
    (hlen : b'.data_len = b.data_len) :
    (InsertExec.btree b').rowBody = (InsertExec.btree b).rowBody := by
  simp only [InsertExec.rowBody, hnew, htarget, hdata, hlen]

theorem heap_insert_body {b b' : BtreeInsertExec} {env env' : ExecEnv} {r : ExecResult}
    (hrun : btree_insert_run_heap_insert b env = (r, b', env')) :
    (InsertExec.btree b').rowBody = (InsertExec.btree b).rowBody := by
  unfold btree_insert_run_heap_insert at hrun
  split at hrun
  · split at hrun
    · obtain ⟨-, rfl, -⟩ : ExecResult.error = r ∧ _ = b' ∧ _ = env' := by simpa using hrun
      exact rowBody_congr rfl rfl rfl rfl
    · dsimp only at hrun
      split at hrun
      · obtain ⟨-, rfl, -⟩ : ExecResult.error = r ∧ _ = b' ∧ _ = env' := by simpa using hrun
        exact rowBody_congr rfl rfl rfl rfl
      · obtain ⟨-, rfl, -⟩ : ExecResult.done = r ∧ _ = b' ∧ _ = env' := by simpa using hrun
        exact rowBody_congr rfl rfl rfl rfl
  · split at hrun
    · obtain ⟨-, rfl, -⟩ : ExecResult.error = r ∧ _ = b' ∧ _ = env' := by simpa using hrun
      exact rowBody_congr rfl rfl rfl rfl
    · split at hrun
      · obtain ⟨-, rfl, -⟩ : ExecResult.error = r ∧ _ = b' ∧ _ = env' := by simpa using hrun
        exact rowBody_congr rfl rfl rfl rfl
      · obtain ⟨-, rfl, -⟩ : ExecResult.done = r ∧ _ = b' ∧ _ = env' := by simpa using hrun
        exact rowBody_congr rfl rfl rfl rfl

theorem leaf_insert_body {b b' : BtreeInsertExec} {env env' : ExecEnv} {r : ExecResult}
    (hrun : btree_insert_run_btree_insert b env = .ok (r, b', env')) :
    (InsertExec.btree b').rowBody = (InsertExec.btree b).rowBody := by
  unfold btree_insert_run_btree_insert at hrun
  obtain ⟨⟨ret, cursor, pool⟩, -, hrun⟩ := exists_of_bind_ok hrun
  dsimp only at hrun
  split at hrun
  · obtain ⟨-, rfl, -⟩ : ExecResult.error = r ∧ _ = b' ∧ _ = env' := by simpa using hrun
    exact rowBody_congr rfl rfl rfl rfl
  · obtain ⟨-, rfl, -⟩ : ExecResult.done = r ∧ _ = b' ∧ _ = env' := by simpa using hrun
    exact rowBody_congr rfl rfl rfl rfl

theorem runPhase_effect {rel : Relation} {b b' : BtreeInsertExec} {r : Option ExecResult}
    (hrun : runPhase crc32c rel b (s.env ticks) = .ok (r, b', env')) :
    TurnEffect crc32c s ((InsertExec.btree b).phaseRecord s.pool) (.btree b) (.btree b') env' := by
  unfold runPhase at hrun
  cases hphase : b.phase with
  | searchAndPrepare =>
    rw [hphase] at hrun
    obtain ⟨⟨res, b₁, env₁⟩, hsearch, hrun⟩ := exists_of_bind_ok hrun
    have henv : env₁ = env' := by
      dsimp only at hrun
      split at hrun
      · exact (Prod.mk.inj (Prod.mk.inj (Except.ok.inj hrun)).2).2
      · exact (Prod.mk.inj (Prod.mk.inj (Except.ok.inj hrun)).2).2
    subst henv
    exact .quiet ticks (by simp only [InsertExec.phaseRecord, hphase]) (search_log _ hsearch)
      (by simp [InsertExec.pastRow, hphase])
  | walInitPage =>
    rw [hphase] at hrun
    obtain ⟨-, rfl, rfl⟩ : none = r ∧ _ = b' ∧ _ = env' := by simpa using hrun
    unfold btree_insert_run_wal_init_page
    dsimp only
    refine ⟨?_, List.suffix_refl _, by simp [InsertExec.pastRow, hphase], ?_⟩
    · simp only [InsertExec.phaseRecord, hphase, CkptSys.logRecord]
      exact append_wal rfl _ _
    · intro hdr body hrow
      simp [InsertExec.phaseRecord, hphase] at hrow
  | walInsert =>
    rw [hphase] at hrun
    obtain ⟨-, rfl, rfl⟩ : none = r ∧ _ = b' ∧ _ = env' := by simpa using hrun
    unfold btree_insert_run_wal_insert
    dsimp only [CkptSys.env]
    -- both phases behind this one count as past the record of the row
    have hpast : (InsertExec.btree { b with
        phase := if b.need_new_page then .walBtree else .heapInsert }).pastRow = true := by
      unfold InsertExec.pastRow
      cases b.need_new_page <;> rfl
    by_cases hmem : (s.pool.fail 0).isSome = true
    · rw [if_pos hmem]
      refine ⟨?_, List.suffix_refl _, by simp [InsertExec.pastRow, hphase], ?_⟩
      · simp only [InsertExec.phaseRecord, hphase, if_pos hmem]
        rfl
      · intro hdr body hrow
        simp [InsertExec.phaseRecord, hphase, hmem] at hrow
    · rw [if_neg hmem]
      refine ⟨?_, List.suffix_refl _, by simp [InsertExec.pastRow, hphase], ?_⟩
      · simp only [InsertExec.phaseRecord, hphase, if_neg hmem, CkptSys.logRecord]
        exact append_wal rfl _ _
      · intro hdr body hrow
        simp only [InsertExec.phaseRecord, hphase, if_neg hmem] at hrow
        obtain ⟨-, rfl, rfl⟩ : InsertLog.row = .row ∧ _ = hdr ∧ _ = body := by simpa using hrow
        exact ⟨hpast, rfl, rowBody_congr rfl rfl rfl rfl⟩
  | walBtree =>
    rw [hphase] at hrun
    obtain ⟨env₁, happend, hrun⟩ := exists_of_bind_ok hrun
    obtain ⟨-, rfl, rfl⟩ : none = r ∧ _ = b' ∧ env₁ = env' := by simpa using hrun
    -- the leaf is read off the cursor for its record
    obtain ⟨leaf, hleaf, happend⟩ := exists_of_bind_ok happend
    obtain rfl := Except.ok.inj happend
    refine ⟨?_, List.suffix_refl _, fun _ => ⟨rfl, rowBody_congr rfl rfl rfl rfl⟩, ?_⟩
    · simp only [InsertExec.phaseRecord, hphase, hleaf, CkptSys.logRecord]
      exact append_wal rfl _ _
    · intro hdr body hrow
      simp [InsertExec.phaseRecord, hphase, hleaf] at hrow
  | heapInsert =>
    rw [hphase] at hrun
    dsimp only at hrun
    split at hrun
    · obtain ⟨-, rfl, rfl⟩ : some ExecResult.cont = r ∧ b = b' ∧ _ = env' := by simpa using hrun
      exact .quiet ticks (by simp only [InsertExec.phaseRecord, hphase]) (keepsLog_slice _)
        (fun h => ⟨h, rfl⟩)
    · cases hins : btree_insert_run_heap_insert b (kds_exec_slice_expired (s.env ticks)).2 with
      | mk res out =>
        obtain ⟨b₁, env₁⟩ := out
        have hlog := (keepsLog_slice _).trans (heap_insert_log hins)
        have hbody := heap_insert_body hins
        have hkeeps := (heap_insert_keeps hins).1
        simp only [hins] at hrun
        refine .quiet ticks (by simp only [InsertExec.phaseRecord, hphase]) ?_ fun _ => ?_
        · split at hrun
          · exact (Prod.mk.inj (Prod.mk.inj (Except.ok.inj hrun)).2).2 ▸ hlog
          · exact (Prod.mk.inj (Prod.mk.inj (Except.ok.inj hrun)).2).2 ▸ hlog
        · split at hrun
          · obtain ⟨-, rfl, -⟩ : some res = r ∧ b₁ = b' ∧ env₁ = env' := by simpa using hrun
            exact ⟨by simp only [InsertExec.pastRow, hkeeps, hphase], hbody⟩
          · obtain ⟨-, rfl, -⟩ : none = r ∧ _ = b' ∧ env₁ = env' := by simpa using hrun
            refine ⟨?_, (rowBody_congr rfl rfl rfl rfl).trans hbody⟩
            unfold InsertExec.pastRow
            dsimp only
            cases b₁.need_new_page <;> rfl
  | btreeInsert =>
    rw [hphase] at hrun
    dsimp only at hrun
    split at hrun
    · obtain ⟨-, rfl, rfl⟩ : some ExecResult.cont = r ∧ b = b' ∧ _ = env' := by simpa using hrun
      exact .quiet ticks (by simp only [InsertExec.phaseRecord, hphase]) (keepsLog_slice _)
        (fun h => ⟨h, rfl⟩)
    · obtain ⟨⟨res, b₁, env₁⟩, hins, hrun⟩ := exists_of_bind_ok hrun
      obtain ⟨⟨cursor, pool⟩, -, hrun⟩ := exists_of_bind_ok hrun
      -- the pages change; the log and the row of the record do not
      have hlog := ((keepsLog_slice _).trans (leaf_insert_log hins)).trans (keepsLog_pool env₁ pool)
      have hbody := leaf_insert_body hins
      have hkeeps := (leaf_insert_keeps hins).1
      dsimp only at hrun
      refine .quiet ticks (by simp only [InsertExec.phaseRecord, hphase]) ?_ fun _ => ?_
      · split at hrun
        · exact (Prod.mk.inj (Prod.mk.inj (Except.ok.inj hrun)).2).2 ▸ hlog
        · exact (Prod.mk.inj (Prod.mk.inj (Except.ok.inj hrun)).2).2 ▸ hlog
      · split at hrun
        · obtain ⟨-, rfl, -⟩ : some res = r ∧ _ = b' ∧ _ = env' := by simpa using hrun
          exact ⟨by simp only [InsertExec.pastRow, hkeeps, hphase],
            (rowBody_congr rfl rfl rfl rfl).trans hbody⟩
        · obtain ⟨-, rfl, -⟩ : none = r ∧ _ = b' ∧ _ = env' := by simpa using hrun
          exact ⟨rfl, (rowBody_congr rfl rfl rfl rfl).trans hbody⟩
  | done =>
    rw [hphase] at hrun
    obtain ⟨⟨cursor, pool⟩, -, hrun⟩ := exists_of_bind_ok hrun
    obtain ⟨-, rfl, rfl⟩ : some ExecResult.done = r ∧ _ = b' ∧ _ = env' := by simpa using hrun
    -- only the pins of the cursor are given back
    exact .quiet ticks (by simp only [InsertExec.phaseRecord, hphase]) (keepsLog_pool _ _)
      (fun _ => ⟨by simp only [InsertExec.pastRow], rowBody_congr rfl rfl rfl rfl⟩)

theorem pastRow_fail (e : Errno) : (exec.fail e).pastRow = exec.pastRow := by
  cases exec with
  | heap h => rfl
  | btree b => rfl

theorem rowBody_fail (e : Errno) : (exec.fail e).rowBody = exec.rowBody := by
  cases exec with
  | heap h => rfl
  | btree b => rfl

/-- **A turn** appends the record it has, or nothing. -/
theorem turn_effect {turns : Nat} {r : Option ExecResult}
    (hrun : exec.turn crc32c turns (s.env ticks) = some (r, exec', env')) :
    TurnEffect crc32c s (exec.record s.pool) exec exec' env' := by
  unfold InsertExec.turn at hrun
  unfold InsertExec.record
  cases hadm : exec.admitted with
  | error e =>
    rw [hadm] at hrun
    obtain ⟨-, rfl, rfl⟩ : some ExecResult.error = r ∧ exec.fail e = exec' ∧ _ = env' := by
      simpa using hrun
    exact .quiet ticks rfl (.refl _) fun h => ⟨(pastRow_fail e).trans h, rowBody_fail e⟩
  | ok rel =>
    rw [hadm] at hrun
    dsimp only at hrun ⊢
    cases exec with
    | heap h =>
      obtain ⟨⟨r₁, h', env₁⟩, hphase, hout⟩ := Option.map_eq_some_iff.mp hrun
      obtain ⟨rfl, rfl, rfl⟩ : r₁ = r ∧ InsertExec.heap h' = exec' ∧ env₁ = env' := by
        simpa using hout
      exact heapRunPhase_effect hphase
    | btree b =>
      dsimp only at hrun
      split at hrun
      · next out hphase =>
        obtain ⟨r₁, b', env₁⟩ := out
        obtain ⟨rfl, rfl, rfl⟩ : r₁ = r ∧ InsertExec.btree b' = exec' ∧ env₁ = env' := by
          simpa using hrun
        exact runPhase_effect hphase
      · cases hrun

/-! ## Section 3: The record of a turn -/

/-- Header and body belong together, and the body is short. -/
def RecordShape (hdr : WalRecHdr) (body : List UInt8) : Prop :=
  hdr.body_len = UInt32.ofNat body.length ∧ body.length < 2 ^ 31

theorem length_rowBody (exec : InsertExec) : exec.rowBody.length < 2 ^ 31 := by
  cases exec with
  | heap h =>
    have hlen := h.data_len.toNat_lt
    simp only [InsertExec.rowBody, bodyPageMod, List.length_append, length_u64Bytes,
      length_u32Bytes, Mem.length_read]
    omega
  | btree b =>
    have hlen := b.data_len.toNat_lt
    simp only [InsertExec.rowBody, bodyPageMod, List.length_append, length_u64Bytes,
      length_u32Bytes, Mem.length_read]
    omega

theorem record_shape {pool : Pool} {l : InsertLog} {hdr : WalRecHdr} {body : List UInt8}
    (h : exec.record pool = some (l, hdr, body)) : RecordShape hdr body := by
  unfold InsertExec.record at h
  split at h
  · cases h
  · cases exec with
    | heap e =>
      cases hphase : e.phase with
      | walInitPage =>
        simp only [InsertExec.phaseRecord, hphase] at h
        obtain ⟨-, rfl, rfl⟩ : InsertLog.page = l ∧ _ = hdr ∧ _ = body := by simpa using h
        refine ⟨rfl, ?_⟩
        simp only [bodyInitPage, List.length_append, length_u64Bytes, List.length_cons, List.length_nil]
        omega
      | walInsert =>
        simp only [InsertExec.phaseRecord, hphase] at h
        split at h
        · cases h
        · obtain ⟨-, rfl, rfl⟩ : InsertLog.row = l ∧ _ = hdr ∧ _ = body := by simpa using h
          exact ⟨rfl, length_rowBody _⟩
      | _ => simp [InsertExec.phaseRecord, hphase] at h
    | btree b =>
      cases hphase : b.phase with
      | walInitPage =>
        simp only [InsertExec.phaseRecord, hphase] at h
        obtain ⟨-, rfl, rfl⟩ : InsertLog.page = l ∧ _ = hdr ∧ _ = body := by simpa using h
        refine ⟨rfl, ?_⟩
        simp only [bodyInitPage, List.length_append, length_u64Bytes, List.length_cons, List.length_nil]
        omega
      | walInsert =>
        simp only [InsertExec.phaseRecord, hphase] at h
        split at h
        · cases h
        · obtain ⟨-, rfl, rfl⟩ : InsertLog.row = l ∧ _ = hdr ∧ _ = body := by simpa using h
          exact ⟨rfl, length_rowBody _⟩
      | walBtree =>
        simp only [InsertExec.phaseRecord, hphase] at h
        split at h
        · obtain ⟨-, rfl, rfl⟩ : InsertLog.leaf = l ∧ _ = hdr ∧ _ = body := by simpa using h
          refine ⟨rfl, ?_⟩
          simp only [bodyPageMod, List.length_append, length_u64Bytes, length_u32Bytes]
          omega
        · cases h
      | _ => simp [InsertExec.phaseRecord, hphase] at h

/-- **An append of such a record** changes nothing, or adds its bytes behind
    the others. Long bodies are refused. -/
theorem append_of_shape (crc32c : UInt32 → List UInt8 → UInt32) (log : WalSys) {hdr : WalRecHdr} {body : List UInt8}
    (hshape : RecordShape hdr body) :
    appendStep crc32c log hdr (some body) = log ∨
      (BodyOk hdr (some body) ∧ ∃ hdr' : WalRecHdr, hdr'.type = hdr.type ∧
        (appendStep crc32c log hdr (some body)).appended = log.appended ++ [hdr'.bytes ++ body]) := by
  obtain ⟨hlen, hsmall⟩ := hshape
  have hnat : hdr.body_len.toNat = body.length := by
    rw [hlen, UInt32.toNat_ofNat']
    omega
  cases hrun : kds_wal_append crc32c log.wal hdr (some body) with
  | error fault =>
    left
    unfold appendStep
    rw [hrun]
  | ok result =>
    obtain ⟨res, w⟩ := result
    unfold appendStep
    rw [hrun]
    cases res with
    | error e =>
      left
      rw [kds_wal_append_fails hrun]
    | ok hdr' =>
      right
      obtain ⟨hmax, -, rfl, -⟩ := kds_wal_append_effect hrun
      simp only [KDS_WAL_REC_HDR_SIZE, KDS_WAL_MAX_REC_SIZE, KDS_WAL_MAX_BODY_SIZE, KDS_PAGE_SIZE,
        hnat] at hmax
      refine ⟨⟨?_, Nat.le_of_eq hnat⟩, fillHdr crc32c log.wal hdr (some body), rfl, ?_⟩
      · simp only [KDS_WAL_MAX_BODY_SIZE, KDS_PAGE_SIZE]
        omega
      · show log.appended ++ [_ ++ body.take hdr.body_len.toNat] = _
        rw [hnat, List.take_length]

end turn

end Kds
