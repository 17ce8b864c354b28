import Kds.Dshell.Scan
import Kds.Exec.Handoff

/-! # The commands, and the device they come through

    `dshell.c`: a line written to `/dev/kds` is parsed and handed to the
    handler of its statement, and the response is read back from the device.
    `INSERT` leaves its row to the proc: the exec gets one slice after the
    other until it is over or the wait has timed out. Here one command runs
    at a time, and the timeout is between two slices.
-/

open Bytes Buffer Decimal

namespace Kds

/-! ## Section 1: What a handler works with -/

/-- What a handler returns. -/
inductive CmdRet where
  | ok
  | error (e : Errno)
  /-- `-ETIMEDOUT`. -/
  | timedOut
  deriving DecidableEq, Repr

/-- What a command meets. -/
structure CmdEnv where
  kzalloc_ok : Bool
  /-- `row_buf`, which is on the stack. -/
  row_buf : List UInt8
  /-- The slices the exec gets before the wait times out. -/
  slices : Nat
  /-- What `kds_exec_slice_expired` says. -/
  ticks : List Bool
  /-- Bound on the turns of a loop over a chain of pages. -/
  turns : Nat
  /-- What `kds_buf_pool_get_stats` counts: total, free and valid frames. -/
  frames : UInt32 × UInt32 × UInt32

/-- The return value, the response, and the database. -/
abbrev Answered := CmdRet × List UInt8 × CatalogEnv

/-- `scnprintf(out, out_size, ...)` in front of a return. -/
def respond (out text : List UInt8) (ret : CmdRet) (c : CatalogEnv) : Except Fault Answered := do
  let (_, out) ← printAt out 0 text
  .ok (ret, out, c)

/-- `%d` of an error. -/
def errnoText (e : Errno) : List UInt8 := fmtLld (-e.code)

/-- `%llx`. -/
def hexNumeral (n : Nat) : List UInt8 := (Nat.toDigits 16 n).map fun c => UInt8.ofNat c.toNat

/-! ## Section 2: `CREATE TABLE` -/

@[simp] def KDS_OID_NAMESPACE_PUBLIC : UInt64 := 1

def ClusteredType.code : ClusteredType → UInt32
  | .heap => KDS_CLUSTERED_HEAP
  | .btree => KDS_CLUSTERED_BTREE

/-- The loop over the column definitions, on a zeroed schema. -/
def schemaColumns (cols : List KdsAstColDef) : List KdsSysColumn :=
  cols.mapIdx fun i src =>
    { oid := 0
      rel_id := 0
      pos := UInt32.ofNat i
      name := set_name src.name
      type_val := src.type_val.code
      len := UInt32.ofNat src.len
      notnull := true }

/-- The table name in quotes. -/
def inQuotes (name : CString) : List UInt8 := ascii "'" ++ name.bytes ++ ascii "'"

/-- `"OK table '%s' created, ..."`. -/
def createdText (stmt : KdsStmtCreateTable) (oid : UInt64) : List UInt8 :=
  ascii "OK table " ++ inQuotes stmt.table_name ++ ascii " created, oid=" ++ numeral oid.toNat ++
    ascii ", columns=" ++ numeral stmt.cols.length ++ ascii ", clustered=" ++
    (match stmt.clustered with
      | .btree => ascii "BTREE"
      | .heap => ascii "HEAP") ++ ascii "\n"

/-- `kds_cmd_create_table`. -/
def kds_cmd_create_table (ce : CmdEnv) (c : CatalogEnv) (stmt : KdsStmtCreateTable)
    (out : List UInt8) : Except Fault Answered :=
  if !ce.kzalloc_ok then respond out (ascii "ERR out of memory\n") (.error .ENOMEM) c
  else if h : (schemaColumns stmt.cols).length ≤ KDS_SCHEMA_MAX_COLUMNS then
    let schema : KdsSchema := ⟨schemaColumns stmt.cols, h⟩
    -- the first entry of the array, which is zeroed if there is no column
    let (key_type, key_name) := (schema.cols.head?.map fun col =>
      (col.type_val, (CatalogName.string col.name).bytes)).getD (0, [])
    if key_type ≠ KdsTypeVal.int64.code then
      respond out (ascii "ERR first column ('" ++ key_name ++
        ascii "') must be the primary key and type int64\n") (.error .EINVAL) c
    else
      match kds_catalog_create_table c KDS_OID_NAMESPACE_PUBLIC (some stmt.table_name) (some schema)
          stmt.clustered.code true with
      | (.error e, c) =>
          respond out (ascii "ERR create_table failed: " ++ errnoText e ++ ascii "\n") (.error e) c
      | (.ok oid, c) => respond out (createdText stmt oid) .ok c
  -- more columns than the array of the schema has entries
  else .error .outOfBounds

/-! ## Section 3: `INSERT` -/

/-- The slices of `kds_dshell_proc_run` for an exec whose command waits: the
    result of the last one, none if the wait times out. -/
def runSlices (crc32c : UInt32 → List UInt8 → UInt32) (turns : Nat) :
    (slices : Nat) → InsertExec → ExecEnv → Option (Option ExecResult × InsertExec × ExecEnv)
  | 0, exec, env => some (none, exec, env)
  | slices + 1, exec, env =>
      match kds_exec_run crc32c turns exec env with
      | none => none
      | some (.cont, exec, env) => runSlices crc32c turns slices exec env
      | some (r, exec, env) => some (some r, exec, env)

/-- What the proc prints behind the last slice, or the timeout path of
    `kds_dshell_run_exec_via_proc`. -/
def finishText (r : Option ExecResult) (exec : InsertExec) (resp_buf : List UInt8) :
    Except Fault (List UInt8) :=
  match r with
  | some .error => do
      let e := (exec.ret.map errnoText).getD (numeral 0)
      let (_, resp_buf) ← printAt resp_buf 0 (ascii "ERR exec failed: " ++ e ++ ascii "\n")
      .ok resp_buf
  | some _ => .ok resp_buf
  | none => do
      let (_, resp_buf) ← printAt resp_buf 0 (ascii "ERR exec timed out after 5000ms\n")
      .ok resp_buf

/-- `kds_dshell_run_exec_via_proc`: whether the exec came to its end, the
    exec, `resp_buf` and the database. -/
def kds_dshell_run_exec_via_proc (crc32c : UInt32 → List UInt8 → UInt32) (ce : CmdEnv)
    (c : CatalogEnv) (exec : InsertExec) (resp_buf : List UInt8) :
    Option (Except Fault (Bool × InsertExec × List UInt8 × CatalogEnv)) :=
  match runSlices crc32c ce.turns ce.slices exec { c.env with ticks := ce.ticks } with
  | none => none
  | some (r, exec, env) => some do
      let resp_buf ← finishText r exec resp_buf
      .ok (r.isSome, exec, resp_buf, { c with env := env })

/-- The place of the new tuple. -/
def InsertExec.out_tid : InsertExec → HeapTid
  | .heap exec => exec.out_tid
  | .btree exec => exec.out_tid

/-- The part of `kds_cmd_insert_row` that the kinds of table do differently. -/
structure InsertTexts where
  duplicate : List UInt8
  failed : List UInt8
  inserted : List UInt8

/-- What `kds_cmd_insert_row` makes of an exec that it gets back. -/
def answerExec (texts : InsertTexts) (done : Bool) (exec : InsertExec) (resp_buf : List UInt8)
    (c : CatalogEnv) : Except Fault Answered :=
  if !done then .ok (.timedOut, resp_buf, c)
  else
    match exec.ret with
    | some .EEXIST => respond resp_buf texts.duplicate (.error .EEXIST) c
    | some e => respond resp_buf (texts.failed ++ errnoText e ++ ascii "\n") (.error e) c
    | none =>
        respond resp_buf (texts.inserted ++ ascii "page=" ++ numeral exec.out_tid.page_id.toNat ++
          ascii " slot=" ++ numeral exec.out_tid.slot.toNat ++ ascii "\n") .ok c

def heapTexts (name : CString) : InsertTexts where
  duplicate := ascii "ERR duplicate primary key in " ++ inQuotes name ++ ascii "\n"
  failed := ascii "ERR insert failed: "
  inserted := ascii "OK inserted into " ++ inQuotes name ++ ascii " at "

def btreeTexts (name : CString) (pk : TupleId) : InsertTexts where
  duplicate :=
    ascii "ERR duplicate key " ++ fmtLld pk.toInt64.toInt ++ ascii " in " ++ inQuotes name ++ ascii "\n"
  failed := ascii "ERR btree insert failed: "
  inserted :=
    ascii "OK inserted into " ++ inQuotes name ++ ascii " (btree) key=" ++ fmtLld pk.toInt64.toInt ++
      ascii " "

/-- The row goes into the table, by the kind of the table. -/
def insertEncoded (crc32c : UInt32 → List UInt8 → UInt32) (ce : CmdEnv) (c : CatalogEnv)
    (rel : RelationHandle) (name : CString) (row_buf : List UInt8) (row_len : UInt16)
    (out : List UInt8) : Option (Except Fault Answered) :=
  let run (exec : InsertExec) (texts : InsertTexts) : Option (Except Fault Answered) :=
    (kds_dshell_run_exec_via_proc crc32c ce c exec out).map fun result => do
      let (done, exec, resp_buf, c) ← result
      answerExec texts done exec resp_buf c
  match clusteredType rel.kind with
  | some .heap =>
      run (.heap (kds_heap_insert_exec_init (some ⟨rel.root_page_id, .heap⟩) (bufferOf row_buf)
        row_len KDS_DSHELL_XID)) (heapTexts name)
  | some .btree =>
      if row_len.toNat < 8 then
        some (respond out (ascii "ERR row too short to contain PK\n") (.error .EINVAL) c)
      else
        let pk := (bufferOf row_buf).readU64 0
        run (.btree (kds_btree_insert_exec_init (some ⟨rel.root_page_id, .btree⟩) pk
          (bufferOf row_buf) row_len)) (btreeTexts name pk)
  | none =>
      some (respond out (ascii "ERR " ++ inQuotes name ++ ascii " has unsupported clustered type " ++
        fmtLld rel.kind.toInt32.toInt ++ ascii "\n") (.error .EINVAL) c)

/-- What `kds_cmd_insert_row` has in front of the exec: the relation, `row_buf` and
    `row_len`, or the response and the error it ends with. -/
def prepareInsert (ce : CmdEnv) (c : CatalogEnv) (stmt : KdsStmtInsert) :
    Except Fault (Except (List UInt8 × Errno) (RelationHandle × List UInt8 × UInt16) × CatalogEnv) :=
  match kds_catalog_find_table_oid_by_name c.env.pool stmt.table_name with
  | (.error ret, p) =>
      .ok (.error (ascii "ERR table " ++ inQuotes stmt.table_name ++ ascii " not found: " ++
        errnoText ret ++ ascii "\n", ret), c.setPool p)
  | (.ok oid, p) =>
      match kds_relation_open p ce.kzalloc_ok oid with
      | (.error ret, p) =>
          .ok (.error (ascii "ERR relation_open failed: " ++ errnoText ret ++ ascii "\n", ret),
            c.setPool p)
      | (.ok rel, p) =>
          if h : rel.schema.length ≤ KDS_SCHEMA_MAX_COLUMNS then
            if stmt.values.length ≠ rel.schema.length then
              .ok (.error (ascii "ERR " ++ inQuotes stmt.table_name ++ ascii " has " ++
                numeral rel.schema.length ++ ascii " column(s), got " ++
                numeral stmt.values.length ++ ascii " value(s)\n", .EINVAL), c.setPool p)
            else
              match kds_dshell_encode_row_from_vals ⟨rel.schema, h⟩ stmt.values ce.row_buf with
              | .error fault => .error fault
              | .ok (.error ret, _) =>
                  .ok (.error (ascii "ERR failed to encode row (too long or bad value): " ++
                    errnoText ret ++ ascii "\n", ret), c.setPool p)
              | .ok (.ok row_len, row_buf) => .ok (.ok (rel, row_buf, row_len), c.setPool p)
          -- a handle has no more columns than its array has entries
          else .error .outOfBounds

/-- `kds_cmd_insert_row`. -/
def kds_cmd_insert_row (crc32c : UInt32 → List UInt8 → UInt32) (ce : CmdEnv) (c : CatalogEnv)
    (stmt : KdsStmtInsert) (out : List UInt8) : Option (Except Fault Answered) :=
  match prepareInsert ce c stmt with
  | .error fault => some (.error fault)
  | .ok (.error (text, ret), c) => some (respond out text (.error ret) c)
  | .ok (.ok (rel, row_buf, row_len), c) =>
      insertEncoded crc32c ce c rel stmt.table_name row_buf row_len out

/-! ## Section 4: `SHOW` -/

/-- `kds_cmd_show_meta`. -/
def kds_cmd_show_meta (c : CatalogEnv) (out : List UInt8) : Except Fault Answered :=
  match c.env.pool.superblock with
  | none => respond out (ascii "ERR meta system not initialized\n") (.error .ENODEV) c
  | some sb =>
      respond out (ascii "OK magic=0x" ++ hexNumeral sb.magic.toNat ++ ascii " version=" ++
        numeral sb.version.toNat ++ ascii "\n   max_page_id=" ++ numeral sb.max_page_id.toNat ++
        ascii " last_commit_page_id=" ++ numeral sb.last_commit_page_id.toNat ++
        ascii "\n   total_pages=" ++ numeral sb.total_pages.toNat ++ ascii " free_pages=" ++
        numeral sb.free_pages.toNat ++ ascii "\n   create_time=" ++ numeral sb.create_time.toNat ++
        ascii " last_mount_time=" ++ numeral sb.last_mount_time.toNat ++ ascii " last_fsync_time=" ++
        numeral sb.last_fsync_time.toNat ++ ascii "\n   alloc_point=" ++
        numeral sb.alloc_point.toNat ++ ascii " alloc_remaining=" ++
        numeral sb.alloc_remaining.toNat ++ ascii "\n") .ok c

/-- `kds_page_alloc_get_stats`: the allocation point and the staged pages. The
    remaining range and the free list are always reported as 0. -/
def kds_page_alloc_get_stats (env : ExecEnv) : Except Fault (PageId × Nat) :=
  match env.pool.superblock with
  -- `kds_meta_get_alloc_range`
  | none => .error .panic
  | some sb => .ok (sb.alloc_point, env.staged.length)

/-- `kds_cmd_show_page_alloc_status`. -/
def kds_cmd_show_page_alloc_status (ce : CmdEnv) (c : CatalogEnv) (out : List UInt8) :
    Except Fault Answered := do
  let (alloc_point, ring_count) ← kds_page_alloc_get_stats c.env
  let (total, free, valid) := ce.frames
  respond out (ascii "OK allocator: alloc_point=" ++ numeral alloc_point.toNat ++
    ascii " alloc_remaining=0 ring_staged=" ++ numeral ring_count ++
    ascii " freelist=0\n   frame_pool: total=" ++ numeral total.toNat ++ ascii " free=" ++
    numeral free.toNat ++ ascii " valid=" ++ numeral valid.toNat ++ ascii " loading=" ++
    numeral (total - free - valid).toNat ++ ascii "\n") .ok c

/-! ## Section 5: The device -/

/-- What a handler without an errno of its own returns. -/
def CmdRet.of : Except Errno Unit → CmdRet
  | .ok () => .ok
  | .error e => .error e

/-- `kds_dispatch_stmt`. -/
def kds_dispatch_stmt (crc32c : UInt32 → List UInt8 → UInt32) (ce : CmdEnv) (c : CatalogEnv)
    (stmt : KdsStmt) (out : List UInt8) : Option (Except Fault Answered) :=
  match stmt with
  | .create_table stmt => some (kds_cmd_create_table ce c stmt out)
  | .insert stmt => kds_cmd_insert_row crc32c ce c stmt out
  | .select stmt =>
      (kds_cmd_scan_table c.env.pool ce.kzalloc_ok stmt.table_name out ce.turns).map fun result => do
        let (ret, out, pool) ← result
        .ok (.of ret, out, c.setPool pool)
  | .show_meta => some (kds_cmd_show_meta c out)
  | .show_alloc => some (kds_cmd_show_page_alloc_status ce c out)

/-- The response staging of `kds_dshell_client_t`. -/
structure KdsDshellClient where
  resp_buf : List UInt8
  resp_len : Nat
  resp_pos : Nat
  deriving DecidableEq, Repr

abbrev DSHELL_LINE_MAX : Nat := 256

abbrev KDS_PARSER_ERR_MAX : Nat := 256

/-- `strnlen(resp_buf, sizeof(resp_buf))`. -/
def strnlen (buf : List UInt8) : Nat := (buf.takeWhile (· != 0)).length

/-- `kds_dshell_open`. -/
def kds_dshell_open : KdsDshellClient where
  resp_buf := List.replicate DSHELL_RESP_MAX 0
  resp_len := 0
  resp_pos := 0

/-- `client->resp_buf[0] = '\0'`. -/
def clearResp (resp_buf : List UInt8) : List UInt8 := resp_buf.set 0 0

/-- What is behind the handler in `kds_dshell_write`. -/
def stageResp (resp_buf : List UInt8) : KdsDshellClient where
  resp_buf := resp_buf
  resp_len := strnlen resp_buf
  resp_pos := 0

/-- `kds_dshell_write`: the bytes taken, the client and the database. -/
def kds_dshell_write (crc32c : UInt32 → List UInt8 → UInt32) (ce : CmdEnv) (c : CatalogEnv)
    (client : KdsDshellClient) (ubuf : List UInt8) :
    Option (Except Fault (Nat × KdsDshellClient × CatalogEnv)) :=
  let sql_buf := CString.ofBuffer (ubuf.take (DSHELL_LINE_MAX - 1))
  let out := clearResp client.resp_buf
  match kds_parse sql_buf KDS_PARSER_ERR_MAX with
  | (.error _, parse_err) => some do
      let (_, out) ← printAt out 0 (ascii "ERR parse error: " ++ parse_err.bytes ++ ascii "\n")
      .ok (ubuf.length, stageResp out, c)
  | (.ok stmt, _) =>
      (kds_dispatch_stmt crc32c ce c stmt out).map fun result => do
        let (_, out, c) ← result
        .ok (ubuf.length, stageResp out, c)

/-- `kds_dshell_read`: the bytes copied out. -/
def kds_dshell_read (client : KdsDshellClient) (len : Nat) :
    Except Fault (List UInt8 × KdsDshellClient) :=
  -- a `size_t`
  let remaining := (((client.resp_len : Int) - client.resp_pos) % 2 ^ 64).toNat
  if remaining = 0 then .ok ([], client)
  else do
    let n := min len remaining
    let bytes ← readAt client.resp_buf client.resp_pos n
    .ok (bytes, { client with resp_pos := client.resp_pos + n })

end Kds
