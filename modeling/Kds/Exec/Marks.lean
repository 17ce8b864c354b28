import Kds.Buf.Marks
import Kds.Exec.HeapInsert
import Kds.Heap.Layout

/-! # What the insert executors mark dirty

    Both executors put a row into a page they have loaded, or take a page
    from the ring, initialise it and put the row into that. `heap_insert_tuple`
    and `heap_set_next_page_id` mark the page; `kds_page_alloc` and
    `heap_init_page` do not, so a new page is marked only if the row fits.
-/

open Bytes Fallible

namespace Kds

/-! ## Section 1: Rows and new pages -/

/-- The row fits into a heap page that holds nothing else. -/
def RowFits (data_len : UInt16) : Prop :=
  KDS_HEAP_SLOT_SIZE + KDS_HEAP_TUPLE_HDR_SIZE + data_len.toNat ≤
    KDS_HEAP_NEXT_PAGE_OFFSET - KDS_HEAP_AREA_OFFSET

instance (data_len : UInt16) : Decidable (RowFits data_len) := inferInstanceAs (Decidable (_ ≤ _))

/-- The next page of the ring, if there is one, is marked. -/
def RingMarked (env : ExecEnv) : Prop :=
  ∀ id staged, env.staged = id :: staged → (env.pool.frame id).dirty = true

section rows

variable {U : PageId → Prop} {p p' : Pool} {f f' : Frame} {id : PageId}

/-- A row is put into a page, or nothing happens. -/
theorem heap_insert_marks {data : Option Mem} {data_len : UInt16} {xmin : UInt64}
    {res : Except Errno HeapTid}
    (h : heap_insert_tuple (p.frame id) data data_len xmin = (res, f')) :
    p.Marks U (p.setFrame id f') := by
  cases res with
  | error e =>
    rw [heap_insert_error h]
    refine .of_eq rfl ?_
    funext j
    by_cases hj : j = id
    · rw [hj, Pool.frame_setFrame_self]
    · exact Pool.frame_setFrame_ne _ _ hj
  | ok tid =>
    apply Pool.Marks.setDirty
    unfold Frame.dirty
    rw [heap_insert_hdr h]
    exact dirty_has_dirty _

/-- A new page takes every row that fits. -/
theorem heap_insert_fits (f : Frame) (d : Mem) {data_len : UInt16} (xmin : UInt64)
    (h : RowFits data_len) :
    ∃ tid f', heap_insert_tuple (heap_init_page f) (some d) data_len xmin = (.ok tid, f') := by
  unfold RowFits at h
  simp only [KDS_HEAP_SLOT_SIZE, KDS_HEAP_TUPLE_HDR_SIZE, KDS_HEAP_NEXT_PAGE_OFFSET, KDS_PAGE_SIZE,
    KDS_HEAP_AREA_OFFSET, KDS_HEAP_META_OFFSET, KDS_PAGE_HDR_SIZE, KDS_HEAP_META_SIZE] at h
  have hmeta := heapMeta_init f .heap
  have hroom : is_heap_insert_possible (heapMeta (heap_init_page f).page) (heapNeeded data_len) =
      true := by
    unfold heap_init_page
    rw [hmeta]
    unfold is_heap_insert_possible heapNeeded
    rw [decide_eq_true_eq, ge_iff_le, UInt16.le_iff_toNat_le, UInt16.toNat_ofNat']
    simp only [KDS_HEAP_SLOT_SIZE, KDS_HEAP_TUPLE_HDR_SIZE]
    have hupper : (UInt16.ofNat KDS_HEAP_NEXT_PAGE_OFFSET - UInt16.ofNat KDS_HEAP_AREA_OFFSET).toNat =
        8135 := by decide
    rw [hupper]
    omega
  unfold heap_insert_tuple heap_insert_tuple_ex
  dsimp only
  rw [if_neg (by simp), if_neg (by simp), if_neg (by simp; omega), if_neg (by simp [hroom])]
  exact ⟨_, _, rfl⟩

theorem init_dirty (f : Frame) (h : f.dirty = true) : (heap_init_page f).dirty = true := by
  unfold Frame.dirty PageHdr.has at h ⊢
  show ((f.hdr.flags ||| KDS_PAGE_FLAG_INIT) &&& KDS_PAGE_FLAG_DIRTY != 0) = true
  rw [or_and_of_disjoint _ (by decide)]
  exact h

/-- A page of the ring is made a heap page and gets a row. -/
theorem new_page_marks {data : Mem} {data_len : UInt16} {xmin : UInt64} {res : Except Errno HeapTid}
    (hok : (p.frame id).dirty = true ∨ RowFits data_len)
    (hpage : p' = (setPageType p id .heap).setFrame id
      (heap_init_page ((setPageType p id .heap).frame id)))
    (hrow : heap_insert_tuple (p'.frame id) (some data) data_len xmin = (res, f')) :
    p.MarksAll (p'.setFrame id f') := by
  have htype : p.Marks (fun j => j = id) (setPageType p id .heap) :=
    .setFrame (fun hd => hd) (Or.inr rfl)
  have hinit : (setPageType p id .heap).Marks (fun j => j = id) p' := by
    rw [hpage]
    exact .setFrame (init_dirty _) (Or.inr rfl)
  have hput : p'.Marks (fun j => j = id) (p'.setFrame id f') := heap_insert_marks hrow
  have hall := (htype.trans hinit).trans hput
  apply hall.discharge
  intro j hj
  rw [hj]
  rcases hok with hd | hfits
  · exact hall.dirty id hd
  · -- the insert cannot fail, and marks the page
    have hframe : p'.frame id = heap_init_page ((setPageType p id .heap).frame id) := by
      rw [hpage, Pool.frame_setFrame_self]
    obtain ⟨tid, g, hfit⟩ := heap_insert_fits ((setPageType p id .heap).frame id) data xmin hfits
    rw [hframe, hfit] at hrow
    obtain ⟨-, rfl⟩ := Prod.mk.inj hrow
    rw [Pool.frame_setFrame_self]
    unfold Frame.dirty
    rw [heap_insert_hdr hfit]
    exact dirty_has_dirty _

end rows

/-- A look at the clock changes no page and takes none from the ring. -/
theorem slice_pool (env : ExecEnv) :
    (kds_exec_slice_expired env).2.pool = env.pool ∧
      (kds_exec_slice_expired env).2.staged = env.staged := by
  unfold kds_exec_slice_expired
  split
  · exact ⟨rfl, rfl⟩
  · exact ⟨rfl, rfl⟩

theorem append_pool (crc32c : UInt32 → List UInt8 → UInt32) (env : ExecEnv) (hdr : WalRecHdr)
    (body : List UInt8) : (env.append crc32c hdr body).pool = env.pool := rfl

/-! ## Section 2: The executor of HEAP tables -/

section heap

variable {exec exec' : HeapInsertExec} {env env' : ExecEnv} {r : ExecResult}

theorem scan_page_marks {p p' : Pool} {id : PageId} {key : TupleId}
    {res : Except Errno (Bool × PageId)} (h : kds_heap_scan_page_for_pk p id key = (res, p')) :
    p.MarksAll p' := by
  unfold kds_heap_scan_page_for_pk at h
  cases hload : kds_buf_lookup_or_load p id with
  | mk ret p₁ =>
    have h₁ : p.MarksAll p₁ := .loadOnly (lookup_or_load_loadOnly hload).1
    rw [hload] at h
    cases ret with
    | error e =>
      obtain ⟨-, rfl⟩ := Prod.mk.inj h
      exact h₁
    | ok frame =>
      dsimp only at h
      split at h
      · obtain ⟨-, rfl⟩ := Prod.mk.inj h
        exact h₁.unpin frame
      · obtain ⟨-, rfl⟩ := Prod.mk.inj h
        exact h₁.unpin frame

theorem dup_scan_marks (turns : Nat) : ∀ {exec : HeapInsertExec} {env : ExecEnv},
    heap_insert_run_dup_scan exec env turns = some (r, exec', env') → env.pool.MarksAll env'.pool := by
  induction turns with
  | zero =>
    intro exec env hrun
    simp [heap_insert_run_dup_scan] at hrun
  | succ n ih =>
    intro exec env hrun
    unfold heap_insert_run_dup_scan at hrun
    split at hrun
    · obtain ⟨-, -, rfl⟩ : ExecResult.done = r ∧ exec = exec' ∧ env = env' := by simpa using hrun
      exact .refl _
    · split at hrun
      · next hscan =>
        obtain ⟨-, -, rfl⟩ : ExecResult.error = r ∧ _ = exec' ∧ _ = env' := by simpa using hrun
        exact scan_page_marks hscan
      · next hscan =>
        obtain ⟨-, -, rfl⟩ : ExecResult.error = r ∧ _ = exec' ∧ _ = env' := by simpa using hrun
        exact scan_page_marks hscan
      · next next pool hscan =>
        have h₁ := scan_page_marks hscan
        dsimp only at hrun
        split at hrun
        · exact h₁.trans (ih hrun)
        · obtain ⟨hpool, -⟩ := slice_pool { env with pool := pool }
          split at hrun
          · obtain ⟨-, -, rfl⟩ : ExecResult.cont = r ∧ _ = exec' ∧ _ = env' := by simpa using hrun
            rw [hpool]
            exact h₁
          · have h₂ := ih hrun
            rw [hpool] at h₂
            exact h₁.trans h₂

theorem putRow_marks {p p' : Pool} {id : PageId} {res : Except Errno HeapTid}
    (h : putRow p id exec = (res, p')) : p.MarksAll p' := by
  unfold putRow at h
  generalize hrow : heap_insert_tuple (p.frame id) (some exec.data) exec.data_len exec.xid = row at h
  obtain ⟨-, rfl⟩ := Prod.mk.inj h
  exact heap_insert_marks hrow

/-- A page that a heap exec puts behind the chain. -/
theorem growChain_marks {frame : PageId} (hok : RingMarked env ∨ RowFits exec.data_len)
    (hrun : growChain exec env frame = (r, exec', env')) : env.pool.MarksAll env'.pool := by
  unfold growChain kds_page_alloc at hrun
  cases hring : env.staged with
  | nil =>
    rw [hring] at hrun
    obtain ⟨-, -, rfl⟩ : ExecResult.error = r ∧ _ = exec' ∧ _ = env' := by simpa using hrun
    exact .of_eq rfl rfl
  | cons id staged =>
    rw [hring] at hrun
    dsimp only at hrun
    generalize hpage : (setPageType env.pool id .heap).setFrame id
      (heap_init_page ((setPageType env.pool id .heap).frame id)) = p at hrun
    cases hput : putRow p id exec with
    | mk res pool =>
      have hok' : (env.pool.frame id).dirty = true ∨ RowFits exec.data_len :=
        hok.imp_left fun h => h id staged hring
      have hnew : env.pool.MarksAll pool := by
        unfold putRow at hput
        generalize hrow : heap_insert_tuple (p.frame id) (some exec.data) exec.data_len exec.xid =
          row at hput
        obtain ⟨-, rfl⟩ := Prod.mk.inj hput
        exact new_page_marks hok' hpage.symm hrow
      rw [hput] at hrun
      cases res with
      | error e =>
        obtain ⟨-, -, rfl⟩ : ExecResult.error = r ∧ _ = exec' ∧ _ = env' := by simpa using hrun
        exact (hnew.unpin _).unpin _
      | ok tid =>
        obtain ⟨-, -, rfl⟩ : ExecResult.done = r ∧ _ = exec' ∧ _ = env' := by simpa using hrun
        have hlink : pool.MarksAll
            (pool.setFrame frame (heap_set_next_page_id (pool.frame frame) id).2) :=
          .setDirty (dirty_set_page_dirty _)
        exact ((hnew.trans hlink).unpin _).unpin _

theorem find_tail_marks (turns : Nat) : ∀ {exec : HeapInsertExec} {env : ExecEnv},
    RingMarked env ∨ RowFits exec.data_len →
    heap_insert_run_find_tail exec env turns = some (r, exec', env') →
    env.pool.MarksAll env'.pool := by
  induction turns with
  | zero =>
    intro exec env _ hrun
    simp [heap_insert_run_find_tail] at hrun
  | succ n ih =>
    intro exec env hok hrun
    unfold heap_insert_run_find_tail at hrun
    cases hload : kds_buf_lookup_or_load env.pool exec.cursor_page_id with
    | mk ret p₁ =>
      have h₁ : env.pool.MarksAll p₁ := .loadOnly (lookup_or_load_loadOnly hload).1
      rw [hload] at hrun
      cases ret with
      | error e =>
        obtain ⟨-, -, rfl⟩ : ExecResult.error = r ∧ _ = exec' ∧ _ = env' := by simpa using hrun
        exact h₁
      | ok frame =>
        dsimp only at hrun
        cases hput : putRow p₁ frame exec with
        | mk res p₂ =>
          have h₂ := h₁.trans (putRow_marks hput)
          rw [hput] at hrun
          -- the ring is as it was, and a marked page stays marked
          have hok₂ : RingMarked { env with pool := p₂ } ∨ RowFits exec.data_len := by
            apply hok.imp_left
            intro hring id staged hs
            exact h₂.dirty id (hring id staged hs)
          split at hrun
          · next hres =>
            obtain ⟨-, rfl⟩ := Prod.mk.inj hres
            obtain ⟨-, -, rfl⟩ : ExecResult.done = r ∧ _ = exec' ∧ _ = env' := by simpa using hrun
            exact h₂.unpin _
          · next hres =>
            obtain ⟨-, rfl⟩ := Prod.mk.inj hres
            split at hrun
            · exact h₂.trans (growChain_marks hok₂ (Option.some.inj hrun))
            · obtain ⟨hpool, hstaged⟩ := slice_pool { env with pool := kds_buf_unpin p₂ frame }
              split at hrun
              · obtain ⟨-, -, rfl⟩ : ExecResult.cont = r ∧ _ = exec' ∧ _ = env' := by
                  simpa using hrun
                rw [hpool]
                exact h₂.unpin _
              · have hok₃ : RingMarked
                    (kds_exec_slice_expired { env with pool := kds_buf_unpin p₂ frame }).2 ∨
                    RowFits exec.data_len := by
                  apply hok₂.imp_left
                  intro hring id staged hs
                  rw [hstaged] at hs
                  rw [hpool]
                  exact hring id staged hs
                have h₃ := @ih (exec.goTo _) _ hok₃ hrun
                rw [hpool] at h₃
                exact (h₂.unpin frame).trans h₃
          · next hres =>
            obtain ⟨-, rfl⟩ := Prod.mk.inj hres
            obtain ⟨-, -, rfl⟩ : ExecResult.error = r ∧ _ = exec' ∧ _ = env' := by simpa using hrun
            exact h₂.unpin _

/-- **One phase of the executor of HEAP tables**. -/
theorem heapRunPhase_marks {crc32c : UInt32 → List UInt8 → UInt32} {rel : Relation} {turns : Nat}
    {ret : Option ExecResult}
    (hok : exec.phase = .findTail → RingMarked env ∨ RowFits exec.data_len)
    (hrun : heapRunPhase crc32c rel turns exec env = some (ret, exec', env')) :
    env.pool.MarksAll env'.pool := by
  unfold heapRunPhase at hrun
  cases hphase : exec.phase with
  | dupScan =>
    rw [hphase] at hrun
    cases hscan : heap_insert_run_dup_scan exec env turns with
    | none => simp [hscan] at hrun
    | some out =>
      obtain ⟨res, exec₁, env₁⟩ := out
      have h₁ := dup_scan_marks turns hscan
      simp only [hscan, Option.bind_eq_bind, Option.bind_some] at hrun
      split at hrun
      · obtain ⟨-, -, rfl⟩ : some res = ret ∧ exec₁ = exec' ∧ env₁ = env' := by simpa using hrun
        exact h₁
      · obtain ⟨-, -, rfl⟩ : none = ret ∧ _ = exec' ∧ env₁ = env' := by simpa using hrun
        exact h₁
  | findTail =>
    rw [hphase] at hrun
    dsimp only at hrun
    obtain ⟨hpool, hstaged⟩ := slice_pool env
    split at hrun
    · obtain ⟨-, -, rfl⟩ : some ExecResult.cont = ret ∧ exec = exec' ∧ _ = env' := by
        simpa using hrun
      rw [hpool]
      exact .refl _
    · cases htail : heap_insert_run_find_tail exec (kds_exec_slice_expired env).2 turns with
      | none => simp [htail] at hrun
      | some out =>
        obtain ⟨res, exec₁, env₁⟩ := out
        -- the slice check touches neither pool nor ring
        have hok₁ : RingMarked (kds_exec_slice_expired env).2 ∨ RowFits exec.data_len := by
          apply (hok hphase).imp_left
          intro hring id staged hs
          rw [hstaged] at hs
          rw [hpool]
          exact hring id staged hs
        have h₁ := find_tail_marks turns hok₁ htail
        rw [hpool] at h₁
        simp only [htail, Option.bind_eq_bind, Option.bind_some] at hrun
        split at hrun
        · obtain ⟨-, -, rfl⟩ : some res = ret ∧ exec₁ = exec' ∧ env₁ = env' := by simpa using hrun
          exact h₁
        · obtain ⟨-, -, rfl⟩ : none = ret ∧ _ = exec' ∧ env₁ = env' := by simpa using hrun
          exact h₁
  | walInitPage =>
    rw [hphase] at hrun
    obtain ⟨-, -, rfl⟩ : none = ret ∧ _ = exec' ∧ _ = env' := by simpa using hrun
    unfold heap_insert_run_wal_init_page
    rw [append_pool]
    exact .refl _
  | walInsert =>
    rw [hphase] at hrun
    obtain ⟨-, -, rfl⟩ : none = ret ∧ _ = exec' ∧ _ = env' := by simpa using hrun
    unfold heap_insert_run_wal_insert
    dsimp only
    split
    · exact .of_eq rfl rfl
    · rw [append_pool]
      exact .of_eq rfl rfl
  | done =>
    rw [hphase] at hrun
    obtain ⟨-, -, rfl⟩ : some ExecResult.done = ret ∧ exec = exec' ∧ env = env' := by
      simpa using hrun
    exact .refl _

end heap

/-! ## Section 3: The executor of BTREE tables -/

section btree

variable {exec exec' : BtreeInsertExec} {env env' : ExecEnv} {r : ExecResult}

theorem failExec_marks {e : Errno} (hrun : failExec exec env e = .ok (r, exec', env')) :
    env.pool.MarksAll env'.pool := by
  have hreturns : Returns (failExec exec env e) fun out => env.pool.MarksAll out.2.2.pool := by
    unfold failExec
    refine Returns.bind (cursor_cleanup_returns _ _) fun out hout => ?_
    exact .ok hout
  exact hreturns _ hrun

theorem probe_marks {rel : Relation} {slot : PageId}
    (hrun : probeHeapPage rel exec env slot = .ok (r, exec', env')) :
    env.pool.MarksAll env'.pool := by
  unfold probeHeapPage at hrun
  dsimp only at hrun
  generalize (if slot = 0 then rel.root_page_id else slot) = page at hrun
  split at hrun
  · obtain ⟨-, -, rfl⟩ : ExecResult.done = r ∧ _ = exec' ∧ env = env' := by simpa using hrun
    exact .refl _
  · cases hload : kds_buf_lookup_or_load env.pool page with
    | mk ret p₁ =>
      have h₁ : env.pool.MarksAll p₁ := .loadOnly (lookup_or_load_loadOnly hload).1
      rw [hload] at hrun
      cases ret with
      | error e => exact h₁.trans (failExec_marks hrun)
      | ok frame =>
        dsimp only at hrun
        split at hrun
        · exact (h₁.unpin frame).trans (failExec_marks hrun)
        · obtain ⟨-, -, rfl⟩ : ExecResult.done = r ∧ _ = exec' ∧ _ = env' := by simpa using hrun
          exact h₁.unpin frame

theorem searchPrepare_marks {rel : Relation} (fuel : Nat) : ∀ {exec : BtreeInsertExec}
    {env : ExecEnv}, searchPrepareLoop rel exec env fuel = .ok (r, exec', env') →
      env.pool.MarksAll env'.pool := by
  induction fuel with
  | zero =>
    intro exec env hrun
    exact failExec_marks hrun
  | succ n ih =>
    intro exec env hrun
    unfold searchPrepareLoop at hrun
    cases hload : kds_buf_lookup_or_load env.pool exec.current_page_id with
    | mk ret p₁ =>
      have h₁ : env.pool.MarksAll p₁ := .loadOnly (lookup_or_load_loadOnly hload).1
      rw [hload] at hrun
      cases ret with
      | error e => exact h₁.trans (failExec_marks hrun)
      | ok frame =>
        obtain ⟨node, -, hrun⟩ := exists_of_bind_ok hrun
        obtain ⟨nodes, -, hrun⟩ := exists_of_bind_ok hrun
        obtain ⟨pos, -, hrun⟩ := exists_of_bind_ok hrun
        obtain ⟨positions, -, hrun⟩ := exists_of_bind_ok hrun
        obtain ⟨slot, -, hrun⟩ := exists_of_bind_ok hrun
        dsimp only at hrun
        split at hrun
        · exact h₁.trans (probe_marks hrun)
        · obtain ⟨hpool, -⟩ := slice_pool { env with pool := p₁ }
          split at hrun
          · obtain ⟨-, -, rfl⟩ : ExecResult.cont = r ∧ _ = exec' ∧ _ = env' := by simpa using hrun
            rw [hpool]
            exact h₁
          · have h₂ := ih hrun
            rw [hpool] at h₂
            exact h₁.trans h₂

theorem insertRowAt_marks {U : PageId → Prop} {p p' : Pool} {id : PageId}
    {res : Except Errno HeapTid} (h : insertRowAt p id exec = (res, p')) : p.Marks U p' := by
  unfold insertRowAt at h
  generalize hrow : heap_insert_tuple (p.frame id) (some exec.data) exec.data_len
    KDS_BTREE_EXEC_XID = row at h
  obtain ⟨-, rfl⟩ := Prod.mk.inj h
  exact (heap_insert_marks hrow).unpin _

theorem btree_heap_insert_marks
    (hok : exec.need_new_page = true → RingMarked env ∨ RowFits exec.data_len)
    (hrun : btree_insert_run_heap_insert exec env = (r, exec', env')) :
    env.pool.MarksAll env'.pool := by
  unfold btree_insert_run_heap_insert kds_page_alloc at hrun
  by_cases hnew : exec.need_new_page = true
  · rw [if_pos hnew] at hrun
    cases hring : env.staged with
    | nil =>
      rw [hring] at hrun
      obtain ⟨-, -, rfl⟩ : ExecResult.error = r ∧ _ = exec' ∧ _ = env' := by simpa using hrun
      exact .refl _
    | cons id staged =>
      rw [hring] at hrun
      dsimp only at hrun
      generalize hpage : (setPageType env.pool id .heap).setFrame id
        (heap_init_page ((setPageType env.pool id .heap).frame id)) = p at hrun
      cases hput : insertRowAt p id exec with
      | mk res pool =>
        have hok' : (env.pool.frame id).dirty = true ∨ RowFits exec.data_len :=
          (hok hnew).imp_left fun h => h id staged hring
        -- the row marks the new page, if it fits
        have hall : env.pool.MarksAll pool := by
          unfold insertRowAt at hput
          generalize hrow : heap_insert_tuple (p.frame id) (some exec.data) exec.data_len
            KDS_BTREE_EXEC_XID = row at hput
          obtain ⟨-, rfl⟩ := Prod.mk.inj hput
          exact (new_page_marks hok' hpage.symm hrow).unpin _
        rw [hput] at hrun
        cases res with
        | error e =>
          obtain ⟨-, -, rfl⟩ : ExecResult.error = r ∧ _ = exec' ∧ _ = env' := by simpa using hrun
          exact hall
        | ok tid =>
          obtain ⟨-, -, rfl⟩ : ExecResult.done = r ∧ _ = exec' ∧ _ = env' := by simpa using hrun
          exact hall
  · rw [if_neg hnew] at hrun
    cases hload : kds_buf_lookup_or_load env.pool exec.target_heap_page_id with
    | mk ret p₁ =>
      have h₁ : env.pool.MarksAll p₁ := .loadOnly (lookup_or_load_loadOnly hload).1
      rw [hload] at hrun
      cases ret with
      | error e =>
        obtain ⟨-, -, rfl⟩ : ExecResult.error = r ∧ _ = exec' ∧ _ = env' := by simpa using hrun
        exact h₁
      | ok frame =>
        dsimp only at hrun
        cases hput : insertRowAt p₁ frame exec with
        | mk res p₂ =>
          have h₂ := h₁.trans (insertRowAt_marks hput)
          rw [hput] at hrun
          cases res with
          | error e =>
            obtain ⟨-, -, rfl⟩ : ExecResult.error = r ∧ _ = exec' ∧ _ = env' := by simpa using hrun
            exact h₂
          | ok tid =>
            obtain ⟨-, -, rfl⟩ : ExecResult.done = r ∧ _ = exec' ∧ _ = env' := by simpa using hrun
            exact h₂

/-- **One phase of the executor of BTREE tables**. -/
theorem btreeRunPhase_marks {crc32c : UInt32 → List UInt8 → UInt32} {rel : Relation}
    {ret : Option ExecResult}
    (hheap : exec.phase = .heapInsert → exec.need_new_page = true →
      RingMarked env ∨ RowFits exec.data_len)
    (hleaf : exec.phase = .btreeInsert → LeafMarked env.pool exec.cursor)
    (hrun : runPhase crc32c rel exec env = .ok (ret, exec', env')) :
    env.pool.MarksAll env'.pool := by
  unfold runPhase at hrun
  obtain ⟨hpool, hstaged⟩ := slice_pool env
  cases hphase : exec.phase with
  | searchAndPrepare =>
    rw [hphase] at hrun
    obtain ⟨⟨res, exec₁, env₁⟩, hsearch, hrun⟩ := exists_of_bind_ok hrun
    have h₁ := searchPrepare_marks _ hsearch
    dsimp only at hrun
    split at hrun
    · obtain ⟨-, -, rfl⟩ : some res = ret ∧ exec₁ = exec' ∧ env₁ = env' := by simpa using hrun
      exact h₁
    · obtain ⟨-, -, rfl⟩ : none = ret ∧ _ = exec' ∧ env₁ = env' := by simpa using hrun
      exact h₁
  | walInitPage =>
    rw [hphase] at hrun
    obtain ⟨-, -, rfl⟩ : none = ret ∧ _ = exec' ∧ _ = env' := by simpa using hrun
    unfold btree_insert_run_wal_init_page
    rw [append_pool]
    exact .refl _
  | walInsert =>
    rw [hphase] at hrun
    obtain ⟨-, -, rfl⟩ : none = ret ∧ _ = exec' ∧ _ = env' := by simpa using hrun
    unfold btree_insert_run_wal_insert
    dsimp only
    generalize (if exec.need_new_page = true then 0 else exec.target_heap_page_id) = page_id
    split
    · exact .of_eq rfl rfl
    · rw [append_pool]
      exact .of_eq rfl rfl
  | walBtree =>
    rw [hphase] at hrun
    obtain ⟨env₁, hwal, hrun⟩ := exists_of_bind_ok hrun
    obtain ⟨-, -, rfl⟩ : none = ret ∧ _ = exec' ∧ env₁ = env' := by simpa using hrun
    obtain ⟨leaf, -, hwal⟩ := exists_of_bind_ok hwal
    rw [← Except.ok.inj hwal, append_pool]
    exact .refl _
  | heapInsert =>
    rw [hphase] at hrun
    dsimp only at hrun
    split at hrun
    · obtain ⟨-, -, rfl⟩ : some ExecResult.cont = ret ∧ exec = exec' ∧ _ = env' := by
        simpa using hrun
      rw [hpool]
      exact .refl _
    · cases hins : btree_insert_run_heap_insert exec (kds_exec_slice_expired env).2 with
      | mk res out =>
        obtain ⟨exec₁, env₁⟩ := out
        have h₁ : env.pool.MarksAll env₁.pool := by
          rw [← hpool]
          apply btree_heap_insert_marks _ hins
          intro hnew
          apply (hheap hphase hnew).imp_left
          intro hring id staged hs
          rw [hstaged] at hs
          rw [hpool]
          exact hring id staged hs
        rw [hins] at hrun
        dsimp only at hrun
        split at hrun
        · obtain ⟨-, -, rfl⟩ : some res = ret ∧ exec₁ = exec' ∧ env₁ = env' := by simpa using hrun
          exact h₁
        · obtain ⟨-, -, rfl⟩ : none = ret ∧ _ = exec' ∧ env₁ = env' := by simpa using hrun
          exact h₁
  | btreeInsert =>
    rw [hphase] at hrun
    dsimp only at hrun
    split at hrun
    · obtain ⟨-, -, rfl⟩ : some ExecResult.cont = ret ∧ exec = exec' ∧ _ = env' := by
        simpa using hrun
      rw [hpool]
      exact .refl _
    · obtain ⟨⟨res, exec₁, env₁⟩, hins, hrun⟩ := exists_of_bind_ok hrun
      have h₁ : env.pool.MarksAll env₁.pool := by
        unfold btree_insert_run_btree_insert at hins
        obtain ⟨⟨res', cursor, pool⟩, hcursor, hins⟩ := exists_of_bind_ok hins
        rw [hpool] at hcursor
        -- the leaf is stored without a mark, so it has to have one
        have hc := cursor_insert_marks (hleaf hphase) hcursor
        dsimp only at hins
        split at hins
        · obtain ⟨-, -, rfl⟩ : ExecResult.error = res ∧ _ = exec₁ ∧ _ = env₁ := by simpa using hins
          exact hc
        · obtain ⟨-, -, rfl⟩ : ExecResult.done = res ∧ _ = exec₁ ∧ _ = env₁ := by simpa using hins
          exact hc
      obtain ⟨⟨cursor, pool⟩, hclean, hrun⟩ := exists_of_bind_ok hrun
      -- giving back pins marks nothing
      have h₂ := h₁.trans (cursor_cleanup_returns _ _ _ hclean)
      dsimp only at hrun
      split at hrun
      · obtain ⟨-, -, rfl⟩ : some res = ret ∧ _ = exec' ∧ _ = env' := by simpa using hrun
        exact h₂
      · obtain ⟨-, -, rfl⟩ : none = ret ∧ _ = exec' ∧ _ = env' := by simpa using hrun
        exact h₂
  | done =>
    rw [hphase] at hrun
    obtain ⟨⟨cursor, pool⟩, hclean, hrun⟩ := exists_of_bind_ok hrun
    obtain ⟨-, -, rfl⟩ : some ExecResult.done = ret ∧ _ = exec' ∧ _ = env' := by simpa using hrun
    exact cursor_cleanup_returns _ _ _ hclean

end btree

end Kds
