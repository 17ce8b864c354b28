import Kds.Exec.BtreeInsert

/-! # The insert executor of HEAP tables

    `exec_heap_insert.c`. The pages of a HEAP table are a chain. An exec walks
    it twice: first over every page for a row with the same key, then for a
    page with space, growing the chain at its end when there is none. It can
    return between two pages and between the two walks when its time slice is
    spent, and goes on at its cursor when it is called again.

    The walks end at page id 0. They take a number of turns here, and have no
    result when these are used up before the end of the chain.
-/

open Bytes

namespace Kds

/-! ## Section 1: The exec -/

/-- `kds_heap_insert_phase_t`. -/
inductive HeapInsertPhase where
  | dupScan
  | findTail
  | walInsert
  | walInitPage
  | done
  deriving DecidableEq, Repr

/-- `kds_heap_insert_exec_t`, with `ret` and `units_done` of its `base`;
    `ret` is `none` for 0. The key is an `s64`, kept as its bits. -/
structure HeapInsertExec where
  ret : Option Errno
  units_done : UInt64
  rel : Option Relation
  data : Mem
  data_len : UInt16
  xid : UInt64
  out_tid : HeapTid
  phase : HeapInsertPhase
  cursor_page_id : PageId
  new_pk : TupleId
  wal_target_page_id : PageId
  wal_target_offset : UInt32
  wal_need_init_page : Bool

@[simp] def KDS_EXEC_ROW_SCAN_BUF : UInt16 := 256

/-- Ends with `e`. -/
def HeapInsertExec.fail (exec : HeapInsertExec) (e : Errno) : HeapInsertExec :=
  { exec with ret := some e }

/-- One more page is done, and the cursor goes to `next`. -/
def HeapInsertExec.goTo (exec : HeapInsertExec) (next : PageId) : HeapInsertExec :=
  { exec with units_done := exec.units_done + 1, cursor_page_id := next }

/-! ## Section 2: The duplicate scan -/

/-- The slots of a page from `slot` on: is there a row with this key? -/
def scanSlots (f : Frame) (target_pk : TupleId) (slot : Nat) : (count : Nat) → Except Errno Bool
  | 0 => .ok false
  | n + 1 =>
      match heap_read_tuple f (UInt16.ofNat slot) true KDS_EXEC_ROW_SCAN_BUF with
      | .error .ENOENT => scanSlots f target_pk (slot + 1) n
      | .error e => .error e
      | .ok (hdr, buf) =>
          if hdr.data_len < 8 then scanSlots f target_pk (slot + 1) n
          else if UInt64.ofNat (leNat (buf.take 8)) = target_pk then .ok true
          else scanSlots f target_pk (slot + 1) n

/-- `kds_heap_scan_page_for_pk`: whether the page has the key, and the next page. -/
def kds_heap_scan_page_for_pk (p : Pool) (page_id : PageId) (target_pk : TupleId) :
    Except Errno (Bool × PageId) × Pool :=
  match kds_buf_lookup_or_load p page_id with
  | (.error e, p) => (.error e, p)
  | (.ok frame, p) =>
      let f := p.frame frame
      match scanSlots f target_pk 0 (heap_nr_slots f).toNat with
      | .error e => (.error e, kds_buf_unpin p frame)
      | .ok found => (.ok (found, heap_get_next_page_id f), kds_buf_unpin p frame)

/-- `heap_insert_run_dup_scan`, at most `turns` pages. -/
def heap_insert_run_dup_scan (exec : HeapInsertExec) (env : ExecEnv) :
    (turns : Nat) → Option (ExecResult × HeapInsertExec × ExecEnv)
  | 0 => none
  | n + 1 =>
      if exec.cursor_page_id = 0 then some (.done, exec, env)
      else
        match kds_heap_scan_page_for_pk env.pool exec.cursor_page_id exec.new_pk with
        | (.error e, pool) => some (.error, exec.fail e, { env with pool := pool })
        | (.ok (true, _), pool) => some (.error, exec.fail .EEXIST, { env with pool := pool })
        | (.ok (false, next), pool) =>
            let exec := exec.goTo next
            let env := { env with pool := pool }
            -- the clock is only looked at in front of another page
            if next = 0 then heap_insert_run_dup_scan exec env n
            else
              let (expired, env) := kds_exec_slice_expired env
              if expired then some (.cont, exec, env) else heap_insert_run_dup_scan exec env n

/-! ## Section 3: The page with space -/

/-- `heap_insert_tuple(frame, exec->data, exec->data_len, exec->xid, &exec->out_tid)`. -/
def putRow (pool : Pool) (frame : PageId) (exec : HeapInsertExec) : Except Errno HeapTid × Pool :=
  let (res, f) := heap_insert_tuple (pool.frame frame) (some exec.data) exec.data_len exec.xid
  (res, pool.setFrame frame f)

/-- The chain ends with `frame`: a new page is put behind it, with the row in it. -/
def growChain (exec : HeapInsertExec) (env : ExecEnv) (frame : PageId) :
    ExecResult × HeapInsertExec × ExecEnv :=
  match kds_page_alloc env .heap with
  | (none, env) => (.error, exec.fail .ENOSPC, { env with pool := kds_buf_unpin env.pool frame })
  | (some new_frame, env) =>
      let pool := env.pool.setFrame new_frame (heap_init_page (env.pool.frame new_frame))
      match putRow pool new_frame exec with
      | (.error e, pool) =>
          (.error, exec.fail e,
            { env with pool := kds_buf_unpin (kds_buf_unpin pool new_frame) frame })
      | (.ok tid, pool) =>
          let (_, f) := heap_set_next_page_id (pool.frame frame) new_frame
          let pool := kds_buf_unpin (pool.setFrame frame f) frame
          (.done,
            { exec with
              out_tid := tid
              wal_target_page_id := new_frame
              wal_target_offset := 0
              wal_need_init_page := true
              units_done := exec.units_done + 1 },
            { env with pool := kds_buf_unpin pool new_frame })

/-- `heap_insert_run_find_tail`, at most `turns` pages. -/
def heap_insert_run_find_tail (exec : HeapInsertExec) (env : ExecEnv) :
    (turns : Nat) → Option (ExecResult × HeapInsertExec × ExecEnv)
  | 0 => none
  | n + 1 =>
      match kds_buf_lookup_or_load env.pool exec.cursor_page_id with
      | (.error e, pool) => some (.error, exec.fail e, { env with pool := pool })
      | (.ok frame, pool) =>
          match putRow pool frame exec with
          | (.ok tid, pool) =>
              some (.done,
                { exec with
                  out_tid := tid
                  wal_target_page_id := frame
                  wal_target_offset := 0
                  wal_need_init_page := false
                  units_done := exec.units_done + 1 },
                { env with pool := kds_buf_unpin pool frame })
          | (.error .ENOSPC, pool) =>
              let next := heap_get_next_page_id (pool.frame frame)
              if next = 0 then some (growChain exec { env with pool := pool } frame)
              else
                let exec := exec.goTo next
                let (expired, env) :=
                  kds_exec_slice_expired { env with pool := kds_buf_unpin pool frame }
                if expired then some (.cont, exec, env) else heap_insert_run_find_tail exec env n
          | (.error e, pool) =>
              some (.error, exec.fail e, { env with pool := kds_buf_unpin pool frame })

/-! ## Section 4: Log records

    The row is in its page by now. What `kds_wal_append` returns is only
    printed. -/

section wal

variable (crc32c : UInt32 → List UInt8 → UInt32)

def heap_insert_run_wal_init_page (exec : HeapInsertExec) (env : ExecEnv) : ExecEnv :=
  let body := bodyInitPage exec.wal_target_page_id .heap
  env.append crc32c (recHdr exec.xid .initPage (UInt32.ofNat body.length)) body

/-- `heap_insert_run_wal_insert`: without memory for the record it goes on without one. -/
def heap_insert_run_wal_insert (exec : HeapInsertExec) (env : ExecEnv) : ExecEnv :=
  let body := bodyPageMod exec.wal_target_page_id exec.wal_target_offset exec.data_len.toUInt32 ++
    exec.data.read 0 exec.data_len.toNat
  let noMem := (env.pool.fail 0).isSome
  let env := { env with pool := env.pool.nextFail }
  if noMem then env else env.append crc32c (recHdr exec.xid .insert (UInt32.ofNat body.length)) body

end wal

/-! ## Section 5: The main run function -/

section run

variable (crc32c : UInt32 → List UInt8 → UInt32)

/-- One turn of the phase loop: the value it returns, or `none` for `continue`. -/
def heapRunPhase (rel : Relation) (turns : Nat) (exec : HeapInsertExec) (env : ExecEnv) :
    Option (Option ExecResult × HeapInsertExec × ExecEnv) :=
  match exec.phase with
  | .dupScan => do
      let (r, exec, env) ← heap_insert_run_dup_scan exec env turns
      if r ≠ .done then some (some r, exec, env)
      else
        some (none, { exec with phase := .findTail, cursor_page_id := rel.root_page_id }, env)
  | .findTail =>
      let (expired, env) := kds_exec_slice_expired env
      if expired then some (some .cont, exec, env)
      else do
        let (r, exec, env) ← heap_insert_run_find_tail exec env turns
        if r ≠ .done then some (some r, exec, env)
        else
          some (none,
            { exec with phase := if exec.wal_need_init_page then .walInitPage else .walInsert }, env)
  | .walInitPage =>
      some (none, { exec with phase := .walInsert }, heap_insert_run_wal_init_page crc32c exec env)
  | .walInsert =>
      some (none, { exec with phase := .done }, heap_insert_run_wal_insert crc32c exec env)
  | .done => some (some .done, exec, env)

/-- The phase loop. Every turn goes to a later phase, so there are at most five. -/
def heapRunPhases (rel : Relation) (turns : Nat) (exec : HeapInsertExec) (env : ExecEnv) :
    (phases : Nat) → Option (ExecResult × HeapInsertExec × ExecEnv)
  | 0 => some (.cont, exec, env)
  | n + 1 => do
      let (r, exec, env) ← heapRunPhase crc32c rel turns exec env
      match r with
      | some r => some (r, exec, env)
      | none => heapRunPhases rel turns exec env n

/-- `kds_heap_insert_exec_run`. -/
def kds_heap_insert_exec_run (turns : Nat) (exec : HeapInsertExec) (env : ExecEnv) :
    Option (ExecResult × HeapInsertExec × ExecEnv) :=
  match exec.rel with
  | none => some (.error, exec.fail .EINVAL, env)
  | some rel =>
      if rel.kind ≠ .heap then some (.error, exec.fail .EINVAL, env)
      else if exec.data_len < 8 then some (.error, exec.fail .EINVAL, env)
      else heapRunPhases crc32c rel turns exec env 5

end run

/-- `kds_heap_insert_exec_init`. -/
def kds_heap_insert_exec_init (rel : Option Relation) (data : Mem) (data_len : UInt16)
    (xid : UInt64) : HeapInsertExec where
  ret := none
  units_done := 0
  rel := rel
  data := data
  data_len := data_len
  xid := xid
  out_tid := ⟨0, 0⟩
  phase := .dupScan
  cursor_page_id := (rel.map Relation.root_page_id).getD 0
  new_pk := if data_len ≥ 8 then data.readU64 0 else 0
  wal_target_page_id := 0
  wal_target_offset := 0
  wal_need_init_page := false

end Kds
