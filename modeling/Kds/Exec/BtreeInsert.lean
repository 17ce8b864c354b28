import Kds.Btree.Ops
import Kds.Heap.Page
import Kds.Wal.Log

/-! # The insert executor of BTREE tables

    `exec_btree_insert.c`. An exec walks through its phases: one descent that
    also probes the heap page for a duplicate, the WAL records, the row, and
    for a new heap page its entry in the leaf. It returns between phases when
    its time slice is spent and is called again until it is done.

    The leaf of the tree maps key ranges to heap pages: `slots[pos]` is the
    page for keys in front of `keys[pos]`. The exec never writes `slots[0]`,
    and a zero slot makes it probe the root page instead.
-/

open Bytes

namespace Kds

/-! ## Section 1: The exec and what it works on -/

/-- `kds_exec_result_t`. -/
inductive ExecResult where
  | done
  | error
  | cont
  deriving DecidableEq, Repr

/-- `kds_btree_insert_phase_t`. -/
inductive BtreeInsertPhase where
  | searchAndPrepare
  | walInitPage
  | walInsert
  | walBtree
  | heapInsert
  | btreeInsert
  | done
  deriving DecidableEq, Repr

/-- `kds_btree_insert_exec_t`, with `ret` and `units_done` of its `base`;
    `ret` is `none` for 0. -/
structure BtreeInsertExec where
  ret : Option Errno
  units_done : UInt64
  rel : Option Relation
  key : TupleId
  data : Mem
  data_len : UInt16
  phase : BtreeInsertPhase
  cursor : BtreeCursor
  current_page_id : PageId
  target_heap_page_id : PageId
  new_heap_page_id : PageId
  new_page_min_key : TupleId
  need_new_page : Bool
  out_tid : HeapTid

/-- The pool, the pre-allocation ring, the log, and the outcomes of the next
    slice checks: once they are used up no slice expires. -/
structure ExecEnv where
  pool : Pool
  staged : List PageId
  wal : WalState
  ticks : List Bool

def kds_exec_slice_expired (env : ExecEnv) : Bool × ExecEnv :=
  match env.ticks with
  | [] => (false, env)
  | t :: ticks => (t, { env with ticks := ticks })

/-- `kds_page_alloc`: the next page of the ring, `none` for `NULL`. -/
def kds_page_alloc (env : ExecEnv) (type : PageType) : Option PageId × ExecEnv :=
  match env.staged with
  | [] => (none, env)
  | frame :: staged =>
      (some frame, { env with staged := staged, pool := setPageType env.pool frame type })

@[simp] def KDS_BTREE_EXEC_XID : UInt64 := 1

/-- Cleans the cursor up and ends with `e`. -/
def failExec (exec : BtreeInsertExec) (env : ExecEnv) (e : Errno) :
    Except Fault (ExecResult × BtreeInsertExec × ExecEnv) := do
  let (cursor, pool) ← btree_cursor_cleanup exec.cursor env.pool
  .ok (.error, { exec with ret := some e, cursor := cursor }, { env with pool := pool })

/-! ## Section 2: Search and prepare -/

/-- The duplicate scan of a heap page from `slot` on. -/
def dupFrom (f : Frame) (key : TupleId) (slot : Nat) : (count : Nat) → Except Errno Unit
  | 0 => .ok ()
  | n + 1 =>
      match heap_read_tuple_pk f (UInt16.ofNat slot) true 8 with
      | .error .ENOENT => dupFrom f key (slot + 1) n
      | .error e => .error e
      | .ok (_, pk_buf) =>
          if UInt64.ofNat (leNat pk_buf) = key then .error .EEXIST else dupFrom f key (slot + 1) n

/-- The leaf is reached: its heap page is probed. -/
def probeHeapPage (rel : Relation) (exec : BtreeInsertExec) (env : ExecEnv) (slot : PageId) :
    Except Fault (ExecResult × BtreeInsertExec × ExecEnv) :=
  let heap_page_id := if slot = 0 then rel.root_page_id else slot
  let exec := { exec with target_heap_page_id := heap_page_id }
  if heap_page_id = 0 then .ok (.done, { exec with need_new_page := true }, env)
  else
    match kds_buf_lookup_or_load env.pool heap_page_id with
    | (.error e, pool) => failExec exec { env with pool := pool } e
    | (.ok heap_frame, pool) =>
        let f := pool.frame heap_frame
        match dupFrom f exec.key 0 (heap_nr_slots f).toNat with
        | .error e => failExec exec { env with pool := kds_buf_unpin pool heap_frame } e
        | .ok () =>
            .ok (.done, { exec with need_new_page := !heap_has_space f exec.data_len },
              { env with pool := kds_buf_unpin pool heap_frame })

/-- The descent; `fuel` levels are left before `BTREE_MAX_DEPTH`. -/
def searchPrepareLoop (rel : Relation) (exec : BtreeInsertExec) (env : ExecEnv) :
    (fuel : Nat) → Except Fault (ExecResult × BtreeInsertExec × ExecEnv)
  | 0 => failExec exec env .E2BIG
  | n + 1 =>
      match kds_buf_lookup_or_load env.pool exec.current_page_id with
      | (.error e, pool) => failExec exec { env with pool := pool } e
      | (.ok frame, pool) => do
          let env := { env with pool := pool }
          let node ← load_btree_node pool frame
          let nodes ← arrSet exec.cursor.nodes exec.cursor.depth node
          let pos ← searchFrom node.keys exec.key (toInt node.key_count) 0 node.key_count.toNat
          let positions ← arrSet exec.cursor.positions exec.cursor.depth pos
          let exec := { exec with
            cursor := { exec.cursor with nodes := nodes, positions := positions }
            units_done := exec.units_done + 1 }
          let slot ← arrGet node.slots pos
          if node.level = 0 then probeHeapPage rel exec env slot
          else
            let exec := { exec with
              current_page_id := slot
              cursor := { exec.cursor with depth := exec.cursor.depth + 1 } }
            let (expired, env) := kds_exec_slice_expired env
            if expired then .ok (.cont, exec, env) else searchPrepareLoop rel exec env n

def btree_insert_run_search_and_prepare (rel : Relation) (exec : BtreeInsertExec) (env : ExecEnv) :
    Except Fault (ExecResult × BtreeInsertExec × ExecEnv) :=
  searchPrepareLoop rel exec env (BTREE_MAX_DEPTH - exec.cursor.depth)

/-! ## Section 3: Log records

    What `kds_wal_append` returns is only printed. The rows are of 16 bits, so
    no record is longer than the ring. -/

/-- A header with the fields a caller sets, the rest zero. -/
def recHdr (xid : UInt64) (type : WalRecType) (body_len : UInt32) : WalRecHdr where
  lsn := 0
  prev_lsn := 0
  xid := xid
  type := type
  pad := fun _ => 0
  body_len := body_len
  crc := 0

/-- `kds_wal_body_init_page_t`: page_id, page_type, _pad, packed. -/
def bodyInitPage (page_id : PageId) (page_type : PageType) : List UInt8 :=
  u64Bytes page_id ++ [page_type.code.toUInt8] ++ [0, 0, 0]

/-- `kds_wal_body_page_mod_t`: page_id, offset, length, packed. -/
def bodyPageMod (page_id : PageId) (offset length : UInt32) : List UInt8 :=
  u64Bytes page_id ++ u32Bytes offset ++ u32Bytes length

section wal

variable (crc32c : UInt32 → List UInt8 → UInt32)

/-- The log after a call. -/
def walAfter (wal : WalState) (hdr : WalRecHdr) (body : List UInt8) : WalState :=
  match kds_wal_append crc32c wal hdr (some body) with
  | .ok (_, wal) => wal
  | .error _ => wal

def ExecEnv.append (env : ExecEnv) (hdr : WalRecHdr) (body : List UInt8) : ExecEnv :=
  { env with wal := walAfter crc32c env.wal hdr body }

def btree_insert_run_wal_init_page (env : ExecEnv) : ExecEnv :=
  -- the page is not allocated yet, so the record says page 0
  let body := bodyInitPage 0 .heap
  env.append crc32c (recHdr KDS_BTREE_EXEC_XID .initPage (UInt32.ofNat body.length)) body

/-- `btree_insert_run_wal_insert`: without memory for the record it goes on without one. -/
def btree_insert_run_wal_insert (exec : BtreeInsertExec) (env : ExecEnv) : ExecEnv :=
  let page_id := if exec.need_new_page then 0 else exec.target_heap_page_id
  let body := bodyPageMod page_id 0 exec.data_len.toUInt32 ++ exec.data.read 0 exec.data_len.toNat
  let noMem := (env.pool.fail 0).isSome
  let env := { env with pool := env.pool.nextFail }
  if noMem then env
  else env.append crc32c (recHdr KDS_BTREE_EXEC_XID .insert (UInt32.ofNat body.length)) body

def btree_insert_run_wal_btree (exec : BtreeInsertExec) (env : ExecEnv) : Except Fault ExecEnv := do
  let leaf ← arrGet exec.cursor.nodes exec.cursor.depth
  let body := bodyPageMod (leaf.frame.getD 0) 0 16
  .ok (env.append crc32c (recHdr KDS_BTREE_EXEC_XID .insert (UInt32.ofNat body.length)) body)

end wal

/-! ## Section 4: Row and leaf entry -/

/-- `heap_insert_tuple(frame, exec->data, exec->data_len, KDS_BTREE_EXEC_XID, &exec->out_tid)`. -/
def insertRowAt (pool : Pool) (frame : PageId) (exec : BtreeInsertExec) :
    Except Errno HeapTid × Pool :=
  let (res, f) := heap_insert_tuple (pool.frame frame) (some exec.data) exec.data_len
    KDS_BTREE_EXEC_XID
  (res, kds_buf_unpin (pool.setFrame frame f) frame)

/-- `btree_insert_run_heap_insert`: an error leaves the cursor pinned. -/
def btree_insert_run_heap_insert (exec : BtreeInsertExec) (env : ExecEnv) :
    ExecResult × BtreeInsertExec × ExecEnv :=
  if exec.need_new_page then
    match kds_page_alloc env .heap with
    | (none, env) => (.error, { exec with ret := some .ENOSPC }, env)
    | (some new_frame, env) =>
        let pool := env.pool.setFrame new_frame (heap_init_page (env.pool.frame new_frame))
        match insertRowAt pool new_frame exec with
        | (.error e, pool) => (.error, { exec with ret := some e }, { env with pool := pool })
        | (.ok tid, pool) =>
            (.done,
              { exec with
                out_tid := tid
                new_heap_page_id := new_frame
                new_page_min_key := exec.key
                units_done := exec.units_done + 1 },
              { env with pool := pool })
  else
    match kds_buf_lookup_or_load env.pool exec.target_heap_page_id with
    | (.error e, pool) => (.error, { exec with ret := some e }, { env with pool := pool })
    | (.ok frame, pool) =>
        match insertRowAt pool frame exec with
        | (.error e, pool) => (.error, { exec with ret := some e }, { env with pool := pool })
        | (.ok tid, pool) =>
            (.done,
              { exec with out_tid := tid, new_heap_page_id := 0, units_done := exec.units_done + 1 },
              { env with pool := pool })

def btree_insert_run_btree_insert (exec : BtreeInsertExec) (env : ExecEnv) :
    Except Fault (ExecResult × BtreeInsertExec × ExecEnv) := do
  let (ret, cursor, pool) ←
    kds_btree_cursor_insert env.pool exec.cursor exec.new_page_min_key exec.new_heap_page_id
  let exec := { exec with cursor := cursor }
  let env := { env with pool := pool }
  match ret with
  | .error e => .ok (.error, { exec with ret := some e }, env)
  | .ok () => .ok (.done, { exec with units_done := exec.units_done + 1 }, env)

/-! ## Section 5: The main run function -/

section run

variable (crc32c : UInt32 → List UInt8 → UInt32)

/-- One turn of the phase loop: the value it returns, or `none` for `continue`. -/
def runPhase (rel : Relation) (exec : BtreeInsertExec) (env : ExecEnv) :
    Except Fault (Option ExecResult × BtreeInsertExec × ExecEnv) :=
  match exec.phase with
  | .searchAndPrepare => do
      let (r, exec, env) ← btree_insert_run_search_and_prepare rel exec env
      if r ≠ .done then .ok (some r, exec, env)
      else
        .ok (none, { exec with phase := if exec.need_new_page then .walInitPage else .walInsert }, env)
  | .walInitPage =>
      .ok (none, { exec with phase := .walInsert }, btree_insert_run_wal_init_page crc32c env)
  | .walInsert =>
      .ok (none, { exec with phase := if exec.need_new_page then .walBtree else .heapInsert },
        btree_insert_run_wal_insert crc32c exec env)
  | .walBtree => do
      let env ← btree_insert_run_wal_btree crc32c exec env
      .ok (none, { exec with phase := .heapInsert }, env)
  | .heapInsert =>
      let (expired, env) := kds_exec_slice_expired env
      if expired then .ok (some .cont, exec, env)
      else
        let (r, exec, env) := btree_insert_run_heap_insert exec env
        if r ≠ .done then .ok (some r, exec, env)
        else .ok (none, { exec with phase := if exec.need_new_page then .btreeInsert else .done }, env)
  | .btreeInsert =>
      let (expired, env) := kds_exec_slice_expired env
      if expired then .ok (some .cont, exec, env)
      else do
        let (r, exec, env) ← btree_insert_run_btree_insert exec env
        let (cursor, pool) ← btree_cursor_cleanup exec.cursor env.pool
        let exec := { exec with cursor := cursor }
        let env := { env with pool := pool }
        if r ≠ .done then .ok (some r, exec, env)
        else .ok (none, { exec with phase := .done }, env)
  | .done => do
      let (cursor, pool) ← btree_cursor_cleanup exec.cursor env.pool
      .ok (some .done, { exec with cursor := cursor }, { env with pool := pool })

/-- The phase loop. Every turn goes to a later phase, so there are at most seven. -/
def runPhases (rel : Relation) (exec : BtreeInsertExec) (env : ExecEnv) :
    (turns : Nat) → Except Fault (ExecResult × BtreeInsertExec × ExecEnv)
  | 0 => .ok (.cont, exec, env)
  | n + 1 => do
      let (r, exec, env) ← runPhase crc32c rel exec env
      match r with
      | some r => .ok (r, exec, env)
      | none => runPhases rel exec env n

/-- `kds_btree_insert_exec_run`. -/
def kds_btree_insert_exec_run (exec : BtreeInsertExec) (env : ExecEnv) :
    Except Fault (ExecResult × BtreeInsertExec × ExecEnv) :=
  match exec.rel with
  | none => .ok (.error, { exec with ret := some .EINVAL }, env)
  | some rel =>
      if rel.kind ≠ .btree then .ok (.error, { exec with ret := some .EINVAL }, env)
      else if rel.root_page_id = 0 then .ok (.error, { exec with ret := some .ENODEV }, env)
      else runPhases crc32c rel exec env 7

/-- The exec called again as long as it asks for more. -/
def runToCompletion (exec : BtreeInsertExec) (env : ExecEnv) :
    (calls : Nat) → Except Fault (ExecResult × BtreeInsertExec × ExecEnv)
  | 0 => .ok (.cont, exec, env)
  | n + 1 => do
      let (r, exec, env) ← kds_btree_insert_exec_run crc32c exec env
      if r = .cont then runToCompletion exec env n else .ok (r, exec, env)

end run

/-- `kds_btree_insert_exec_init`. -/
def kds_btree_insert_exec_init (rel : Option Relation) (key : TupleId) (data : Mem)
    (data_len : UInt16) : BtreeInsertExec where
  ret := none
  units_done := 0
  rel := rel
  key := key
  data := data
  data_len := data_len
  phase := .searchAndPrepare
  cursor := btree_cursor_init
  current_page_id := (rel.map Relation.root_page_id).getD 0
  target_heap_page_id := 0
  new_heap_page_id := 0
  new_page_min_key := 0
  need_new_page := false
  out_tid := ⟨0, 0⟩

end Kds
