import Kds.Buf.Flush
import Kds.Exec.Handoff
import Kds.Exec.Marks
import Kds.Wal.FlushFails

/-! # Executors and the checkpointer

    `kds_wal_checkpointer_proc` flushes the log, writes the dirty frames of
    the pool, appends a CHECKPOINT record, flushes the log again and sets
    `checkpointed_lsn`. The insert executors run on other CPUs meanwhile. They
    share the log, the pre-allocation ring and the buffer pool with it.

    A turn of an executor's phase loop is one step, and so is every step of
    `flushStep`, every frame the checkpointer looks at, and every call of
    `kds_wal_append`. The steps come in any order.
-/

open Bytes Lts

namespace Kds

/-! ## Section 1: The turns of an exec -/

/-- The log records that an insert writes. -/
inductive InsertLog where
  /-- WAL_INIT_PAGE. -/
  | page
  /-- WAL_INSERT. -/
  | row
  /-- WAL_BTREE. -/
  | leaf
  deriving DecidableEq, Repr

/-- The tests at the front of `kds_heap_insert_exec_run` and
    `kds_btree_insert_exec_run`: the relation of the exec, or the error. -/
def InsertExec.admitted : InsertExec → Except Errno Relation
  | .heap exec =>
      match exec.rel with
      | none => .error .EINVAL
      | some rel =>
          if rel.kind ≠ .heap then .error .EINVAL
          else if exec.data_len < 8 then .error .EINVAL
          else .ok rel
  | .btree exec =>
      match exec.rel with
      | none => .error .EINVAL
      | some rel =>
          if rel.kind ≠ .btree then .error .EINVAL
          else if rel.root_page_id = 0 then .error .ENODEV
          else .ok rel

/-- `base->ret = e`. -/
def InsertExec.fail (e : Errno) : InsertExec → InsertExec
  | .heap exec => .heap (exec.fail e)
  | .btree exec => .btree { exec with ret := some e }

/-- One turn of the phase loop, behind the tests at its front. A turn that
    faults has no result. -/
def InsertExec.turn (crc32c : UInt32 → List UInt8 → UInt32) (turns : Nat) (exec : InsertExec)
    (env : ExecEnv) : Option (Option ExecResult × InsertExec × ExecEnv) :=
  match exec.admitted with
  | .error e => some (some .error, exec.fail e, env)
  | .ok rel =>
      match exec with
      | .heap exec =>
          (heapRunPhase crc32c rel turns exec env).map fun out => (out.1, .heap out.2.1, out.2.2)
      | .btree exec =>
          match runPhase crc32c rel exec env with
          | .ok out => some (out.1, .btree out.2.1, out.2.2)
          | .error _ => none

/-- The body of the record of the WAL_INSERT phase. -/
def InsertExec.rowBody : InsertExec → List UInt8
  | .heap exec =>
      bodyPageMod exec.wal_target_page_id exec.wal_target_offset exec.data_len.toUInt32 ++
        exec.data.read 0 exec.data_len.toNat
  | .btree exec =>
      bodyPageMod (if exec.need_new_page then 0 else exec.target_heap_page_id) 0
        exec.data_len.toUInt32 ++ exec.data.read 0 exec.data_len.toNat

/-- The record that the exec's phase hands to `kds_wal_append`, if it calls it. -/
def InsertExec.phaseRecord (exec : InsertExec) (pool : Pool) :
    Option (InsertLog × WalRecHdr × List UInt8) :=
  match exec with
  | .heap h =>
      match h.phase with
      | .walInitPage =>
          let body := bodyInitPage h.wal_target_page_id .heap
          some (.page, recHdr h.xid .initPage (UInt32.ofNat body.length), body)
      | .walInsert =>
          if (pool.fail 0).isSome then none
          else some (.row, recHdr h.xid .insert (UInt32.ofNat exec.rowBody.length), exec.rowBody)
      | _ => none
  | .btree b =>
      match b.phase with
      | .walInitPage =>
          let body := bodyInitPage 0 .heap
          some (.page, recHdr KDS_BTREE_EXEC_XID .initPage (UInt32.ofNat body.length), body)
      | .walInsert =>
          if (pool.fail 0).isSome then none
          else
            some (.row, recHdr KDS_BTREE_EXEC_XID .insert (UInt32.ofNat exec.rowBody.length),
              exec.rowBody)
      | .walBtree =>
          match arrGet b.cursor.nodes b.cursor.depth with
          | .ok leaf =>
              let body := bodyPageMod (leaf.frame.getD 0) 0 16
              some (.leaf, recHdr KDS_BTREE_EXEC_XID .insert (UInt32.ofNat body.length), body)
          | .error _ => none
      | _ => none

/-- The record of the next turn. -/
def InsertExec.record (exec : InsertExec) (pool : Pool) :
    Option (InsertLog × WalRecHdr × List UInt8) :=
  match exec.admitted with
  | .error _ => none
  | .ok _ => exec.phaseRecord pool

/-- Where `heap_insert_tuple` has put the row. -/
def InsertExec.placed : InsertExec → Option HeapTid
  | .heap exec =>
      match exec.phase with
      | .walInitPage | .walInsert | .done => some exec.out_tid
      | _ => none
  | .btree exec =>
      match exec.phase with
      | .btreeInsert | .done => some exec.out_tid
      | _ => none

/-! ## Section 2: The checkpointer -/

/-- `kds_wal_body_checkpoint_t`: checkpointed_lsn, checkpoint_time, packed. -/
def bodyCheckpoint (checkpointed_lsn : Lsn) (checkpoint_time : UInt64) : List UInt8 :=
  u64Bytes checkpointed_lsn ++ u64Bytes checkpoint_time

/-- `kds_wal_need_checkpoint`. -/
def kds_wal_need_checkpoint (wal : WalState) (flush_lsn : Lsn) : Bool :=
  flush_lsn != KDS_LSN_INVALID && flush_lsn > wal.checkpointed_lsn

/-- Where the checkpointer stands. `count` is the number of records that were
    appended when `kds_wal_flush` read `write_off`. It is not part of the program. -/
inductive CkptPc where
  /-- Between two calls of `kds_wal_checkpointer_proc`. -/
  | idle
  /-- In the first `kds_wal_flush`. -/
  | flush (count : Nat)
  /-- In `kds_buf_flush_dirty_frames`: the frames it has still to look at. -/
  | frames (count : Nat) (flush_lsn : Lsn) (left : List PageId)
  /-- In front of the `kds_wal_flush` of `kds_wal_checkpoint`. -/
  | appended
  /-- In the second `kds_wal_flush`. -/
  | flushRecord (count : Nat)

/-- An insert on its way: its exec; whether the exec has come to its end; and
    for each of its records the place among all records of the log, once it is
    appended. The places are not part of the program. -/
structure InsertRun where
  exec : InsertExec
  ended : Bool
  logged : InsertLog → Option Nat

/-- Log, pool, inserts and checkpointer. -/
structure CkptSys where
  log : WalSys
  /-- A page the log has taken is for the bytes behind a page just filled. -/
  behind : Bool
  /-- The WAL pages, as they are on disk. A page that is not one reads as
      blank, which it is when `kds_page_alloc` hands it out. -/
  disk : PageId → WalPage
  pool : Pool
  inserts : Nat → Option InsertRun
  ckpt : CkptPc

/-- What an executor finds. -/
def CkptSys.env (s : CkptSys) (ticks : List Bool) : ExecEnv :=
  ⟨s.pool, s.log.staged, s.log.wal, ticks⟩

/-- The log behind the record of a turn, if it has one. -/
def CkptSys.logRecord (crc32c : UInt32 → List UInt8 → UInt32) (s : CkptSys) :
    Option (InsertLog × WalRecHdr × List UInt8) → WalSys
  | none => s.log
  | some (_, hdr, body) => appendStep crc32c s.log hdr (some body)

/-- Insert `n` behind a turn. -/
def InsertRun.behind (ins : InsertRun) (r : Option ExecResult) (exec : InsertExec) (before after : WalSys)
    (record : Option (InsertLog × WalRecHdr × List UInt8)) : InsertRun where
  exec := exec
  -- an exec that asks for more is called again
  ended := r = some .done ∨ r = some .error
  logged := fun l =>
    if record.map Prod.fst = some l ∧ before.appended.length < after.appended.length then
      some before.appended.length
    else ins.logged l

/-- The state behind a turn of insert `n`. -/
def CkptSys.turned (crc32c : UInt32 → List UInt8 → UInt32) (s : CkptSys) (n : Nat) (ins : InsertRun)
    (r : Option ExecResult) (exec : InsertExec) (env : ExecEnv) : CkptSys :=
  let record := ins.exec.record s.pool
  let log := s.logRecord crc32c record
  { s with
    log := { log with wal := env.wal, staged := env.staged }
    pool := env.pool
    inserts := Function.update s.inserts n (some (ins.behind r exec s.log log record)) }

/-- The WAL page that a step of `kds_wal_flush` hands to `kds_frame_flush`. -/
def CkptSys.flushes (s : CkptSys) : Option PageId :=
  match s.log.pc with
  | .used _ frame _ => some frame
  | .link _ _ => if s.behind then some s.log.wal.buf.tail_page_id else none
  | _ => none

/-- A step of `kds_wal_flush`. `wrote`: the disk takes the page. -/
def CkptSys.flushed (s : CkptSys) (wrote : Bool) : CkptSys :=
  let log := flushStep s.log
  { s with
    log := log
    behind :=
      match s.log.pc with
      | .alloc _ behind => behind
      | _ => s.behind
    disk :=
      match s.flushes with
      | some id => if wrote then Function.update s.disk id (log.pages id) else s.disk
      | none => s.disk }

/-! ## Section 3: The system -/

inductive CkptAct where
  /-- A new insert. -/
  | start (n : Nat) (exec : InsertExec)
  /-- A turn of insert `n`. -/
  | turn (n turns : Nat) (ticks : List Bool)
  /-- A call of `kds_wal_append` by others, such as `kds_wal_commit`. -/
  | append (hdr : WalRecHdr) (body : Option (List UInt8))
  /-- `kds_batch_alloc` stages a page. -/
  | stage (id : PageId)
  /-- The checkpointer is called and calls `kds_wal_flush`. -/
  | begin
  /-- A step of `kds_wal_flush`. -/
  | flush (wrote : Bool)
  /-- `kds_wal_flush` has returned: go on, or return. -/
  | choose (frames : List PageId)
  /-- The next frame of `kds_buf_flush_dirty_frames`. -/
  | visit (wrote : Bool)
  /-- `kds_wal_checkpoint` appends its record. -/
  | record (checkpoint_time : UInt64)
  /-- It calls `kds_wal_flush`. -/
  | flushRecord
  /-- It sets `checkpointed_lsn`. -/
  | setLsn

/-- The CHECKPOINT record. -/
def checkpointHdr : WalRecHdr := recHdr 0 .checkpoint 16

/-- `kds_wal_flush` returns an error, and the checkpointer panics. -/
def FlushPanics (log : WalSys) : Prop :=
  log.staged = [] ∧ ∃ v, log.pc = .alloc v false

/-- One step. -/
inductive CkptStep (crc32c : UInt32 → List UInt8 → UInt32) : CkptSys → CkptAct → CkptSys → Prop where
  | start {s : CkptSys} {n : Nat} {exec : InsertExec} : s.inserts n = none → FreshExec exec →
      CkptStep crc32c s (.start n exec)
        { s with inserts := Function.update s.inserts n (some ⟨exec, false, fun _ => none⟩) }
  | turn {s : CkptSys} {n turns : Nat} {ticks : List Bool} {ins : InsertRun} {r : Option ExecResult}
      {exec : InsertExec} {env : ExecEnv} : s.inserts n = some ins → ins.ended = false →
      ins.exec.turn crc32c turns (s.env ticks) = some (r, exec, env) →
      CkptStep crc32c s (.turn n turns ticks) (s.turned crc32c n ins r exec env)
  | append {s : CkptSys} {hdr : WalRecHdr} {body : Option (List UInt8)} : BodyOk hdr body →
      CkptStep crc32c s (.append hdr body) { s with log := appendStep crc32c s.log hdr body }
  | stage {s : CkptSys} {id frame : PageId} {pool : Pool} : id ∉ s.log.cached → id ≠ 0 →
      kds_buf_alloc_new s.pool id = (.ok frame, pool) →
      CkptStep crc32c s (.stage id)
        { s with
          log := { s.log with staged := s.log.staged ++ [id], cached := id :: s.log.cached }
          pool := pool }
  -- `kds_wal_need_flush` compares an offset with the address of another: it is always true
  | begin {s : CkptSys} : s.ckpt = .idle →
      CkptStep crc32c s .begin
        { s with log := flushStep s.log, ckpt := .flush s.log.appended.length }
  | flush {s : CkptSys} {wrote : Bool} : s.log.pc ≠ .idle → ¬ FlushPanics s.log →
      CkptStep crc32c s (.flush wrote) (s.flushed wrote)
  -- the frames that hold a page now, and those that get one before they are looked at
  | goOn {s : CkptSys} {count : Nat} {frames : List PageId} : s.ckpt = .flush count →
      s.log.pc = .idle → kds_wal_need_checkpoint s.log.wal s.log.wal.flush_lsn = true →
      (∀ id, (s.pool.cached id).isSome → id ∈ frames) →
      CkptStep crc32c s (.choose frames) { s with ckpt := .frames count s.log.wal.flush_lsn frames }
  | stop {s : CkptSys} {count : Nat} {frames : List PageId} : s.ckpt = .flush count →
      s.log.pc = .idle → kds_wal_need_checkpoint s.log.wal s.log.wal.flush_lsn = false →
      CkptStep crc32c s (.choose frames) { s with ckpt := .idle }
  -- the frame may be one of the log
  | visit {s : CkptSys} {count : Nat} {flush_lsn : Lsn} {id : PageId} {left : List PageId}
      {wrote : Bool} : s.ckpt = .frames count flush_lsn (id :: left) →
      CkptStep crc32c s (.visit wrote)
        { s with
          pool := (kds_frame_flush s.pool id).2
          disk := if wrote then Function.update s.disk id (s.log.pages id) else s.disk
          ckpt := .frames count flush_lsn left }
  | record {s : CkptSys} {count : Nat} {flush_lsn : Lsn} {time : UInt64} {hdr : WalRecHdr}
      {w : WalState} : s.ckpt = .frames count flush_lsn [] →
      kds_wal_append crc32c s.log.wal checkpointHdr (some (bodyCheckpoint flush_lsn time)) =
        .ok (.ok hdr, w) →
      CkptStep crc32c s (.record time)
        { s with
          log := appendStep crc32c s.log checkpointHdr (some (bodyCheckpoint flush_lsn time))
          ckpt := .appended }
  | recordFails {s : CkptSys} {count : Nat} {flush_lsn : Lsn} {time : UInt64} {e : Errno}
      {w : WalState} : s.ckpt = .frames count flush_lsn [] →
      kds_wal_append crc32c s.log.wal checkpointHdr (some (bodyCheckpoint flush_lsn time)) =
        .ok (.error e, w) →
      CkptStep crc32c s (.record time) { s with ckpt := .idle }
  | flushRecord {s : CkptSys} : s.ckpt = .appended →
      CkptStep crc32c s .flushRecord
        { s with log := flushStep s.log, ckpt := .flushRecord s.log.appended.length }
  | setLsn {s : CkptSys} {count : Nat} : s.ckpt = .flushRecord count → s.log.pc = .idle →
      CkptStep crc32c s .setLsn
        { s with
          log := { s.log with wal := { s.log.wal with checkpointed_lsn := s.log.wal.flush_lsn } }
          ckpt := .idle }

/-- A new log, tables in the pool, and no insert yet. -/
structure CkptInit (s : CkptSys) : Prop where
  log : ∃ staged cached, Staged staged cached ∧ kds_wal_init staged cached = some s.log
  disk : s.disk = fun _ => newWalPage 0 0
  pool : ∀ {id f}, s.pool.cached id = some f → f.id = id
  inserts : ∀ n, s.inserts n = none
  ckpt : s.ckpt = .idle

def ckptSystem (crc32c : UInt32 → List UInt8 → UInt32) : System CkptSys CkptAct where
  init := CkptInit
  step := CkptStep crc32c

end Kds
