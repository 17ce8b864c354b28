import Kds.Buf.Clean
import Kds.Catalog.Rows

/-! # The catalog

    `catalog.c` and the opening of relations in `relation.c`. The catalog is
    three heap pages: a creation inserts a row into `sys.objects`, one into
    `sys.tables` and one for each column into `sys.columns`, one call after
    the other and without undoing anything when one fails. The reads scan a
    page from its first slot.

    Pointer arguments are addresses of the callers' own variables, so the
    checks for `NULL` are left out. So is the registry of well-known objects:
    nothing here reads it.
-/

open Bytes Decimal

namespace Kds

/-! ## Section 1: Inserting rows -/

@[simp] def KDS_OID_NAMESPACE_SYS : UInt64 := 0
@[simp] def KDS_OID_TYPE_TABLE : UInt64 := 21
@[simp] def KDS_OID_TYPE_INDEX : UInt64 := 23

@[simp] def KDS_CLUSTERED_HEAP : UInt32 := 0
@[simp] def KDS_CLUSTERED_BTREE : UInt32 := 1

def KdsSysObject.row (row : KdsSysObject) : CatalogRow :=
  ⟨KDS_CATALOG_PAGE_OBJECTS, bufferOf row.bytes, 96⟩

def KdsSysTable.row (row : KdsSysTable) : CatalogRow :=
  ⟨KDS_CATALOG_PAGE_TABLES, bufferOf row.bytes, 89⟩

def KdsSysColumn.row (row : KdsSysColumn) : CatalogRow :=
  ⟨KDS_CATALOG_PAGE_COLUMNS, bufferOf row.bytes, 93⟩

def KdsSysType.row (row : KdsSysType) : CatalogRow :=
  ⟨KDS_CATALOG_PAGE_TYPES, bufferOf row.bytes, 80⟩

/-- The row `kds_catalog_insert_object_row` builds. -/
def objectRow (oid namespace_oid type_oid : UInt64) (name : CString) : KdsSysObject where
  oid := oid
  namespace_oid := namespace_oid
  type_oid := type_oid
  rel_id := 0
  name := set_name name

def kds_catalog_insert_object_row (p : Pool) (oid namespace_oid type_oid : UInt64)
    (name : CString) : Except Errno HeapTid × Pool :=
  insertCatalogRow p (objectRow oid namespace_oid type_oid name).row

/-- The row `kds_catalog_insert_relation_row` builds. -/
def relationRow (oid namespace_oid : UInt64) (name : CString) (desc_page_id : PageId)
    (clustered_type : UInt32) : KdsSysTable where
  oid := oid
  namespace_oid := namespace_oid
  name := set_name name
  desc_page_id := desc_page_id
  clustered_type := clustered_type.toUInt8

def kds_catalog_insert_relation_row (p : Pool) (oid namespace_oid : UInt64) (name : CString)
    (desc_page_id : PageId) (clustered_type : UInt32) : Except Errno HeapTid × Pool :=
  insertCatalogRow p (relationRow oid namespace_oid name desc_page_id clustered_type).row

/-- The row `insert_sys_column_row` builds for a column of a schema. -/
def columnRow (oid rel_id : UInt64) (col : KdsSysColumn) : KdsSysColumn where
  oid := oid
  rel_id := rel_id
  pos := col.pos
  name := set_name (CatalogName.string col.name)
  type_val := col.type_val
  len := col.len
  notnull := col.notnull

def insert_sys_column_row (p : Pool) (oid rel_id : UInt64) (col : KdsSysColumn) :
    Except Errno HeapTid × Pool :=
  insertCatalogRow p (columnRow oid rel_id col).row

/-! ## Section 2: Creation -/

/-- The environment of a call, and `g_user_oid_counter`. -/
structure CatalogEnv where
  env : ExecEnv
  oids : UInt64

def CatalogEnv.setPool (c : CatalogEnv) (pool : Pool) : CatalogEnv :=
  { c with env := { c.env with pool := pool } }

def kds_catalog_generate_user_oid (c : CatalogEnv) : UInt64 × CatalogEnv :=
  (c.oids + 1, { c with oids := c.oids + 1 })

abbrev KDS_SCHEMA_MAX_COLUMNS : Nat := 32

/-- `kds_schema_t`: the first `nr_cols` entries of its array. -/
structure KdsSchema where
  cols : List KdsSysColumn
  fits : cols.length ≤ KDS_SCHEMA_MAX_COLUMNS

/-- The loop over the columns of a new table. -/
def insertColumns (c : CatalogEnv) (new_oid : UInt64) :
    List KdsSysColumn → Except Errno Unit × CatalogEnv
  | [] => (.ok (), c)
  | col :: cols =>
      let (oid, c) := kds_catalog_generate_user_oid c
      match insert_sys_column_row c.env.pool oid new_oid col with
      | (.error e, pool) => (.error e, c.setPool pool)
      | (.ok _, pool) => insertColumns (c.setPool pool) new_oid cols

/-- The kinds of root page, by `kds_clustered_type_t`. -/
def clusteredType (clustered_type : UInt32) : Option ClusteredType :=
  if clustered_type = KDS_CLUSTERED_HEAP then some .heap
  else if clustered_type = KDS_CLUSTERED_BTREE then some .btree
  else none

/-- The root page of a new relation, taken from the ring and initialised. -/
def allocRoot (c : CatalogEnv) (kind : ClusteredType) : Option PageId × CatalogEnv :=
  match kds_page_alloc c.env kind.rootType with
  | (none, env) => (none, { c with env := env })
  | (some root, env) =>
      (some root,
        { c with env := { env with
            pool := env.pool.setFrame root (kind.initRoot (env.pool.frame root)) } })

/-- The rows of a new table. -/
def insertTableRows (c : CatalogEnv) (namespace_oid : UInt64) (name : CString)
    (schema : KdsSchema) (clustered_type : UInt32) (root : PageId) :
    Except Errno UInt64 × CatalogEnv :=
  let (new_oid, c) := kds_catalog_generate_user_oid c
  match kds_catalog_insert_object_row c.env.pool new_oid namespace_oid KDS_OID_TYPE_TABLE name with
  | (.error ret, pool) => (.error ret, c.setPool pool)
  | (.ok _, pool) =>
      let c := c.setPool pool
      match kds_catalog_insert_relation_row c.env.pool new_oid namespace_oid name root
          clustered_type with
      | (.error ret, pool) => (.error ret, c.setPool pool)
      | (.ok _, pool) =>
          match insertColumns (c.setPool pool) new_oid schema.cols with
          | (.error ret, c) => (.error ret, c)
          | (.ok (), c) => (.ok new_oid, c)

def CatalogEnv.unpin (c : CatalogEnv) (root : PageId) : CatalogEnv :=
  c.setPool (kds_buf_unpin c.env.pool root)

/-- `kds_catalog_create_table` behind the check of its arguments. -/
def createTable (c : CatalogEnv) (namespace_oid : UInt64) (name : CString)
    (schema : KdsSchema) (clustered_type : UInt32) : Except Errno UInt64 × CatalogEnv :=
  match clusteredType clustered_type with
  | none => (.error .EINVAL, c)
  | some kind =>
      match allocRoot c kind with
      | (none, c) => (.error .ENOSPC, c)
      | (some root, c) =>
          -- every way out unpins the root
          let (ret, c) := insertTableRows c namespace_oid name schema clustered_type root
          (ret, c.unpin root)

/-- `kds_catalog_create_table`: the oid it hands back. `out_oid` tells whether there
    is a place for it. -/
def kds_catalog_create_table (c : CatalogEnv) (namespace_oid : UInt64) (name : Option CString)
    (schema : Option KdsSchema) (clustered_type : UInt32) (out_oid : Bool) :
    Except Errno UInt64 × CatalogEnv :=
  match name, schema, out_oid with
  | some name, some schema, true => createTable c namespace_oid name schema clustered_type
  | _, _, _ => (.error .EINVAL, c)

/-- "index_" and "_". -/
def indexName (target_col : CString) (table_oid : UInt64) : List UInt8 :=
  ascii "index_" ++ target_col.bytes ++ ascii "_" ++ numeral table_oid.toNat

/-- The rows of a new index. -/
def insertIndexRows (c : CatalogEnv) (namespace_oid : UInt64) (name : CString) (root : PageId) :
    Except Errno UInt64 × CatalogEnv :=
  let (new_oid, c) := kds_catalog_generate_user_oid c
  match kds_catalog_insert_object_row c.env.pool new_oid namespace_oid KDS_OID_TYPE_INDEX name with
  | (.error ret, pool) => (.error ret, c.setPool pool)
  | (.ok _, pool) =>
      let c := c.setPool pool
      match kds_catalog_insert_relation_row c.env.pool new_oid namespace_oid name root
          KDS_CLUSTERED_BTREE with
      | (.error ret, pool) => (.error ret, c.setPool pool)
      | (.ok _, pool) => (.ok new_oid, c.setPool pool)

/-- `kds_relation_create_index` behind the check of its arguments. -/
def createIndex (c : CatalogEnv) (namespace_oid table_oid : UInt64)
    (target_col : CString) : Except Errno UInt64 × CatalogEnv :=
  match allocRoot c .btree with
  | (none, c) => (.error .ENOSPC, c)
  | (some root, c) =>
      let (_, name) := scnprintf KDS_CATALOG_NAME_MAX (indexName target_col table_oid)
      let (ret, c) := insertIndexRows c namespace_oid name root
      (ret, c.unpin root)

/-- `kds_relation_create_index`: the oid it hands back. -/
def kds_relation_create_index (c : CatalogEnv) (namespace_oid table_oid : UInt64)
    (target_col : Option CString) (out_index_oid : Bool) : Except Errno UInt64 × CatalogEnv :=
  match target_col, out_index_oid with
  | some target_col, true => createIndex c namespace_oid table_oid target_col
  | _, _ => (.error .EINVAL, c)

/-! ## Section 3: Reads -/

section reads

variable {β : Type}

/-- The loops of `kds_catalog_get_sys_table_row` and
    `kds_catalog_find_table_oid_by_name`: the first row that is picked. -/
def scanCatalog (f : Frame) (size : UInt16) (pick : List UInt8 → Option β) : List Nat → Option β
  | [] => none
  | slot :: slots =>
      match heap_read_tuple f (UInt16.ofNat slot) true size with
      | .error .ENOENT => scanCatalog f size pick slots
      | .error _ => none
      | .ok (_, row) =>
          match pick row with
          | some out => some out
          | none => scanCatalog f size pick slots

/-- The slots of a page, in order. -/
def heapSlots (f : Frame) : List Nat := List.range (heap_nr_slots f).toNat

/-- A scan of a catalog page, which is pinned for its time. -/
def scanPage (p : Pool) (page_id : PageId) (size : UInt16) (pick : List UInt8 → Option β) :
    Except Errno β × Pool :=
  match kds_buf_lookup_or_load p page_id with
  | (.error e, p) => (.error e, p)
  | (.ok frame, p) =>
      let f := p.frame frame
      match scanCatalog f size pick (heapSlots f) with
      | none => (.error .ENOENT, kds_buf_unpin p frame)
      | some out => (.ok out, kds_buf_unpin p frame)

end reads

def kds_catalog_get_sys_table_row (p : Pool) (table_oid : UInt64) : Except Errno KdsSysTable × Pool :=
  scanPage p KDS_CATALOG_PAGE_TABLES 89 fun bs =>
    let row := KdsSysTable.ofBytes bs
    if row.oid = table_oid then some row else none

def kds_catalog_find_table_oid_by_name (p : Pool) (name : CString) : Except Errno UInt64 × Pool :=
  scanPage p KDS_CATALOG_PAGE_OBJECTS 96 fun bs =>
    let row := KdsSysObject.ofBytes bs
    if row.type_oid = KDS_OID_TYPE_TABLE ∧
        strncmpEq (CatalogName.string row.name) name KDS_CATALOG_NAME_MAX then some row.oid
    else none

/-- The loop of `kds_catalog_build_schema_from_columns`. -/
def collectColumns (f : Frame) (rel_id : UInt64) (cols : List KdsSysColumn) :
    List Nat → Except Errno (List KdsSysColumn)
  | [] => .ok cols
  | slot :: slots =>
      if cols.length < KDS_SCHEMA_MAX_COLUMNS then
        match heap_read_tuple f (UInt16.ofNat slot) true 93 with
        | .error .ENOENT => collectColumns f rel_id cols slots
        | .error r => .error r
        | .ok (_, bs) =>
            let col := KdsSysColumn.ofBytes bs
            collectColumns f rel_id (if col.rel_id = rel_id then cols ++ [col] else cols) slots
      else .ok cols

def kds_catalog_build_schema_from_columns (p : Pool) (rel_id : UInt64) :
    Except Errno (List KdsSysColumn) × Pool :=
  match kds_buf_lookup_or_load p KDS_CATALOG_PAGE_COLUMNS with
  | (.error e, p) => (.error e, p)
  | (.ok frame, p) =>
      let f := p.frame frame
      match collectColumns f rel_id [] (heapSlots f) with
      | .error r => (.error r, kds_buf_unpin p frame)
      | .ok [] => (.error .ENOENT, kds_buf_unpin p frame)
      | .ok cols => (.ok cols, kds_buf_unpin p frame)

/-- `kds_relation_t`, as `kds_relation_open` fills it in. -/
structure RelationHandle where
  oid : UInt64
  namespace_oid : UInt64
  kind : UInt32
  root_page_id : PageId
  schema : List KdsSysColumn

/-- `kds_relation_open`; `kzalloc_ok` says whether there is memory for the handle. -/
def kds_relation_open (p : Pool) (kzalloc_ok : Bool) (oid : UInt64) :
    Except Errno RelationHandle × Pool :=
  match kds_catalog_get_sys_table_row p oid with
  | (.error ret, p) => (.error ret, p)
  | (.ok row, p) =>
      if !kzalloc_ok then (.error .ENOMEM, p)
      else
        let rel : RelationHandle :=
          { oid := oid
            namespace_oid := row.namespace_oid
            kind := row.clustered_type.toUInt32
            root_page_id := row.desc_page_id
            schema := [] }
        match kds_catalog_build_schema_from_columns p oid with
        | (.error .ENOENT, p) => (.ok rel, p)
        | (.error ret, p) => (.error ret, p)
        | (.ok cols, p) => (.ok { rel with schema := cols }, p)

/-! ## Section 4: Bootstrap -/

/-- An entry of `sys_tables` in `kds_catalog_bootstrap`. -/
structure SysTableEntry where
  oid : UInt64
  name : CString
  page_id : PageId

def sys_tables : List SysTableEntry :=
  [ ⟨100, ⟨ascii "types", by decide⟩, KDS_CATALOG_PAGE_TYPES⟩,
    ⟨110, ⟨ascii "objects", by decide⟩, KDS_CATALOG_PAGE_OBJECTS⟩,
    ⟨111, ⟨ascii "columns", by decide⟩, KDS_CATALOG_PAGE_COLUMNS⟩,
    ⟨112, ⟨ascii "tables", by decide⟩, KDS_CATALOG_PAGE_TABLES⟩ ]

/-- The types that get a row in `sys.types`, with their oids. -/
def bootstrapTypes : List (UInt64 × CString) :=
  [ (25, ⟨ascii "int8", by decide⟩), (26, ⟨ascii "int16", by decide⟩),
    (27, ⟨ascii "int32", by decide⟩), (12, ⟨ascii "int64", by decide⟩),
    (28, ⟨ascii "float", by decide⟩), (29, ⟨ascii "decimal", by decide⟩),
    (15, ⟨ascii "bool", by decide⟩), (13, ⟨ascii "varchar", by decide⟩),
    (24, ⟨ascii "char", by decide⟩) ]

/-- The value of a `kds_type_val_t`. -/
def KdsTypeVal.code : KdsTypeVal → UInt32
  | .int8 => 0
  | .int16 => 1
  | .int32 => 2
  | .int64 => 3
  | .float => 4
  | .decimal => 5
  | .bool => 6
  | .varchar => 7
  | .char => 8

/-- The row `insert_sys_type_row` builds; `none` if the type has no descriptor. -/
def typeRow (type : UInt64 × CString) : Option CatalogRow :=
  (kds_type_lookup_by_name type.2).map fun desc =>
    KdsSysType.row
      { oid := type.1
        name := set_name type.2
        type_val := desc.type_val.code
        len := UInt32.ofNat desc.fixed_len }

/-- The pages of phase 1. -/
def bootstrapPages (p : Pool) : List PageId → Except Fault Pool
  | [] => .ok p
  | page_id :: page_ids =>
      match bootstrap_one_catalog_page p page_id with
      | (.error _, _) => .error .panic
      | (.ok (), p) => bootstrapPages p page_ids

/-- The rows of a phase; the first that cannot be inserted panics. -/
def bootstrapRows (p : Pool) (rows : List CatalogRow) : Except Fault Pool :=
  match insertCatalogRows p rows with
  | (.error _, _) => .error .panic
  | (.ok (), p) => .ok p

def kds_catalog_bootstrap (p : Pool) : Except Fault Pool := do
  let p ← bootstrapPages p (sys_tables.map (·.page_id))
  let p ← bootstrapRows p (sys_tables.map fun t =>
    (objectRow t.oid KDS_OID_NAMESPACE_SYS KDS_OID_TYPE_TABLE t.name).row)
  let p ← bootstrapRows p (sys_tables.map fun t =>
    (relationRow t.oid KDS_OID_NAMESPACE_SYS t.name t.page_id KDS_CLUSTERED_HEAP).row)
  match bootstrapTypes.mapM typeRow with
  | none => .error .panic
  | some rows => bootstrapRows p rows

end Kds
