import Kds.Exec.UniqueKeys
import Kds.Lib.Returns

/-! # The space a row was promised

    `btree_insert_run_search_and_prepare` asks `heap_has_space` whether the row
    needs a new page, and the row is put on its page some phases later. On a
    page that is still as it was the answer holds.
-/

open Bytes Fallible

namespace Kds

section space

variable {rel : Relation} {exec exec' : BtreeInsertExec} {env env' : ExecEnv}

theorem failExec_ne_done {e : Errno} : failExec exec env e ≠ .ok (.done, exec', env') := by
  intro h
  obtain ⟨⟨cursor, pool⟩, -, h⟩ := exists_of_bind_ok h
  cases (Prod.mk.inj (Except.ok.inj h)).1

/-- The answer of the probe is that of `heap_has_space` on the target page. -/
theorem probe_answer {slot : PageId}
    (h : probeHeapPage rel exec env slot = .ok (.done, exec', env')) :
    exec'.need_new_page =
      (exec'.target_heap_page_id = 0 ||
        !heap_has_space (env'.pool.frame exec'.target_heap_page_id) exec'.data_len) := by
  unfold probeHeapPage at h
  dsimp only at h
  generalize (if slot = 0 then rel.root_page_id else slot) = target at h
  split at h
  · next hzero =>
    obtain ⟨rfl, rfl⟩ : _ = exec' ∧ _ = env' := by simpa using h
    simp [hzero]
  · next hne =>
    cases hload : kds_buf_lookup_or_load env.pool target with
    | mk ret p₁ =>
      rw [hload] at h
      cases ret with
      | error e => exact absurd h failExec_ne_done
      | ok frame =>
        obtain ⟨rfl, -⟩ := (lookup_or_load_loadOnly hload).2 frame rfl
        dsimp only at h
        split at h
        · exact absurd h failExec_ne_done
        · obtain ⟨rfl, rfl⟩ : _ = exec' ∧ _ = env' := by simpa using h
          simp [hne]

/-- So is the answer of the whole search. -/
theorem searchPrepare_answer (fuel : Nat) : ∀ {exec : BtreeInsertExec} {env : ExecEnv},
    searchPrepareLoop rel exec env fuel = .ok (.done, exec', env') →
      exec'.need_new_page =
        (exec'.target_heap_page_id = 0 ||
          !heap_has_space (env'.pool.frame exec'.target_heap_page_id) exec'.data_len) := by
  induction fuel with
  | zero => exact fun h => absurd h failExec_ne_done
  | succ n ih =>
    intro exec env h
    unfold searchPrepareLoop at h
    cases hload : kds_buf_lookup_or_load env.pool exec.current_page_id with
    | mk ret p₁ =>
      rw [hload] at h
      cases ret with
      | error e => exact absurd h failExec_ne_done
      | ok frame =>
        obtain ⟨node, -, h⟩ := exists_of_bind_ok h
        obtain ⟨nodes, -, h⟩ := exists_of_bind_ok h
        obtain ⟨pos, -, h⟩ := exists_of_bind_ok h
        obtain ⟨positions, -, h⟩ := exists_of_bind_ok h
        obtain ⟨slot, -, h⟩ := exists_of_bind_ok h
        dsimp only at h
        split at h
        · exact probe_answer h
        · split at h
          · cases (Prod.mk.inj (Except.ok.inj h)).1
          · exact ih h

/-- The HEAP_INSERT phase without a new page, on a page with space. -/
theorem heap_insert_phase_done (hold : exec.need_new_page = false)
    (hinv : HeapInv (env.pool.frame exec.target_heap_page_id).page)
    (hspace : heap_has_space (env.pool.frame exec.target_heap_page_id) exec.data_len = true) :
    (∃ exec' env', btree_insert_run_heap_insert exec env = (.done, exec', env')) ∨
      ∃ e p', kds_buf_lookup_or_load env.pool exec.target_heap_page_id = (.error e, p') ∧
        (btree_insert_run_heap_insert exec env).2.1.ret = some e := by
  unfold btree_insert_run_heap_insert
  rw [if_neg (by rw [hold]; decide)]
  cases hload : kds_buf_lookup_or_load env.pool exec.target_heap_page_id with
  | mk ret p₁ =>
    cases ret with
    | error e => exact Or.inr ⟨e, p₁, rfl, rfl⟩
    | ok frame =>
      obtain ⟨hload', hframe⟩ := lookup_or_load_loadOnly hload
      obtain ⟨rfl, -⟩ := hframe frame rfl
      rw [← hload'.frame] at hinv hspace
      obtain ⟨tid, f', hrun⟩ := (@heap_insert_ok_iff _ hinv (some exec.data) exec.data_len
        (.inr Option.isSome_some) KDS_BTREE_EXEC_XID 0 0).mpr hspace
      have hput : insertRowAt p₁ exec.target_heap_page_id exec =
          (.ok tid, kds_buf_unpin (p₁.setFrame exec.target_heap_page_id f')
            exec.target_heap_page_id) := by
        unfold insertRowAt heap_insert_tuple
        rw [hrun]
      refine Or.inl ?_
      dsimp only
      rw [hput]
      exact ⟨_, _, rfl⟩

/-- **Space prediction is exact**: on every page a history reaches, `heap_has_space`
    says whether an insert succeeds; so a row that was to go on an old page goes
    on it, if that page can be loaded and is as it was. -/
theorem space_prediction_exact :
    (∀ f : Frame, heapSystem.Reachable f → ∀ (data : Option Mem) (data_len : UInt16)
      (xmin xmax undo_ptr : UInt64), data_len = 0 ∨ data.isSome →
      (heap_has_space f data_len = true ↔
        ∃ tid, (heap_insert_tuple_ex f data data_len xmin xmax undo_ptr true).1 = .ok tid)) ∧
    ∀ (rel : Relation) (exec exec' : BtreeInsertExec) (env env' env'' : ExecEnv),
      btree_insert_run_search_and_prepare rel exec env = .ok (.done, exec', env') →
      exec'.need_new_page = false →
      heapSystem.Reachable (env'.pool.frame exec'.target_heap_page_id) →
      env''.pool.frame exec'.target_heap_page_id = env'.pool.frame exec'.target_heap_page_id →
      (∃ exec'' env₁, btree_insert_run_heap_insert { exec' with phase := .heapInsert } env'' =
        (.done, exec'', env₁)) ∨
        ∃ e p', kds_buf_lookup_or_load env''.pool exec'.target_heap_page_id = (.error e, p') ∧
          (btree_insert_run_heap_insert { exec' with phase := .heapInsert } env'').2.1.ret = some e := by
  constructor
  · intro f hreach data data_len xmin xmax undo_ptr hdata
    rw [← heap_insert_ok_iff (heapInv_of_reachable hreach) hdata xmin xmax undo_ptr]
    constructor
    · rintro ⟨tid, f', hrun⟩
      exact ⟨tid, by rw [hrun]⟩
    · rintro ⟨tid, hrun⟩
      exact ⟨tid, _, Prod.ext hrun rfl⟩
  · intro rel exec exec' env env' env'' hrun hold hreach hsame
    have hanswer := searchPrepare_answer _ hrun
    rw [hold] at hanswer
    have hspace : heap_has_space (env'.pool.frame exec'.target_heap_page_id) exec'.data_len = true := by
      simpa using (Bool.or_eq_false_iff.mp hanswer.symm).2
    rw [← hsame] at hspace hreach
    exact @heap_insert_phase_done { exec' with phase := .heapInsert } env'' hold
      (heapInv_of_reachable hreach) hspace

end space

/-! ### A row beside another one -/

/-- A heap page with the row of key 5. -/
def fiveRowPage : Frame :=
  HeapOp.run (heap_init_page (newFrame 201 KDS_PAGE_FLAG_ALLOC))
    (.insert (some (keyRow 5).data) 8 KDS_BTREE_EXEC_XID 0 0 true)

theorem fiveRowPage_reachable : heapSystem.Reachable fiveRowPage :=
  .step (.insert (some (keyRow 5).data) 8 KDS_BTREE_EXEC_XID 0 0 true)
    (.init ⟨newFrame 201 KDS_PAGE_FLAG_ALLOC, .heap, rfl⟩) ⟨trivial, rfl⟩

/-- The leaf with that key, and page 201 behind it. -/
def fiveLeafPool : Pool :=
  match kds_index_insert newTableEnv.pool newTableRel 5 201 with
  | .ok (_, p) => p
  | .error _ => newTableEnv.pool

/-- A table with one row. -/
def fiveRowEnv : ExecEnv :=
  { newTableEnv with pool := fiveLeafPool.setFrame 201 fiveRowPage, staged := [202] }

theorem fiveRowEnv_inv : TableInv newTableRel fiveRowEnv [5] [201] where
  kind := rfl
  typed := by decide +kernel
  node := by
    have hlevel : (rootNode newTableRel fiveRowEnv).level = 0 := by decide +kernel
    have hkeys : (rootNode newTableRel fiveRowEnv).keys = [5] := by decide +kernel
    have hslots : (rootNode newTableRel fiveRowEnv).slots = [0, 201] := by decide +kernel
    rw [← hlevel, ← hkeys, ← hslots]
  length_eq := rfl
  length_le := by decide
  sorted := by decide
  heap := by
    intro id hid
    obtain rfl := List.mem_singleton.mp hid
    exact heapInv_of_reachable fiveRowPage_reachable
  nodup := by decide
  nonzero := by decide
  loaded := by decide +kernel

/-- The row with key 7 goes on the page of key 5, as the search says. -/
theorem space_prediction_row_seven :
    (∃ tid, (heap_insert_tuple_ex fiveRowPage (some (keyRow 7).data) 8 1 0 0 true).1 = .ok tid) ∧
      ∃ exec' env', btree_insert_run_search_and_prepare newTableRel
          (kds_btree_insert_exec_init (some newTableRel) 7 (keyRow 7).data 8) fiveRowEnv =
            .ok (.done, exec', env') ∧
        exec'.target_heap_page_id = 201 ∧ exec'.need_new_page = false ∧
        ∃ exec'' env₁, btree_insert_run_heap_insert { exec' with phase := .heapInsert } env' =
          (.done, exec'', env₁) := by
  -- the page of key 5 has room for a second row
  have hspace : heap_has_space fiveRowPage 8 = true := by decide +kernel
  constructor
  · exact (space_prediction_exact.1 _ fiveRowPage_reachable (some (keyRow 7).data) 8 1 0 0
      (.inr rfl)).mp hspace
  · have hslot : slotOf newTableRel fiveRowEnv (keyRow 7).key = 201 := by
      rw [keyRow_key, slotOf, fiveRowEnv_inv.node]
      decide
    have hnew : ∀ i, ¬ HoldsRow (fiveRowEnv.page 201) i (keyRow 7).key := by
      rintro i ⟨hlive, hkey⟩
      have hcount : (heapMeta (fiveRowEnv.page 201)).nr_slots.toNat = 1 := by decide +kernel
      obtain rfl : i = 0 := by
        have hlt := hlive.1
        omega
      have hfive : rowKey (fiveRowEnv.page 201) 0 = 5 := by decide +kernel
      rw [hfive, keyRow_key] at hkey
      exact absurd hkey (by decide)
    -- the search finds the page and no row with key 7 in it
    obtain ⟨exec, hsearch, hprep⟩ := search_probes fiveRowEnv_inv (keyRow 7)
    obtain ⟨exec', hprobe, -, hneed, htarget⟩ := (probe_spec fiveRowEnv_inv hprep).2 (by
      rintro ⟨-, i, hrow⟩
      rw [hslot] at hrow
      exact hnew i hrow)
    have htarget' : exec'.target_heap_page_id = 201 := by
      rw [htarget (by rw [hslot]; decide), hslot]
    have hold : exec'.need_new_page = false := by
      rw [← Bool.not_eq_true, hneed, NeedsPage, hslot]
      rintro (hzero | ⟨-, hfull⟩)
      · exact absurd hzero (by decide)
      · exact absurd (hspace.symm.trans hfull) (by decide)
    have hrun := hsearch.trans hprobe
    rw [keyRow_key] at hrun
    refine ⟨exec', _, hrun, htarget', hold, ?_⟩
    rcases space_prediction_exact.2 newTableRel _ exec' fiveRowEnv _ _ hrun hold
      (by rw [htarget']; exact fiveRowPage_reachable) rfl with hdone | ⟨e, p', hload, -⟩
    · exact hdone
    · rw [htarget', lookup_or_load_cached rfl] at hload
      cases (Prod.mk.inj hload).1

end Kds
