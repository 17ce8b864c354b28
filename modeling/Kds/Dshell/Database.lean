import Kds.Dshell.Tables

/-! # The database behind the device

    Clients open the device, write commands to it and read the responses, one
    command at a time, while the ring is refilled in between. Created tables
    and inserted rows stay: in every state a HEAP table holds the rows of the
    `INSERT`s that were answered with "OK", each once and no two with one key,
    on pages that no other table has.
-/

open Bytes Buffer Lts

namespace Kds

/-! ## Section 1: The device and its clients -/

structure Database where
  c : CatalogEnv
  /-- The clients, by the descriptor that `open` gave them. -/
  clients : Nat → Option KdsDshellClient
  /-- History: the rows of the `INSERT`s that were answered with "OK", by the oid of the table. -/
  rows : UInt64 → List (List UInt8)

inductive DatabaseAct where
  | open (fd : Nat)
  /-- A line; `fail` is what the disk does to it. -/
  | write (fd : Nat) (ubuf : List UInt8) (ce : CmdEnv) (fail : Nat → Option Errno)
  | read (fd : Nat) (len : Nat)
  | release (fd : Nat)
  /-- One page of `kds_batch_alloc`: it is new, and goes into the ring. -/
  | stage (id : PageId) (fail : Nat → Option Errno)

/-- The client that takes the step. -/
def DatabaseAct.client : DatabaseAct → Option Nat
  | .open fd => some fd
  | .write fd _ _ _ => some fd
  | .read fd _ => some fd
  | .release fd => some fd
  | .stage _ _ => none

/-- What the disk does to the next command. -/
def CatalogEnv.withFail (c : CatalogEnv) (fail : Nat → Option Errno) : CatalogEnv :=
  c.setPool { c.env.pool with fail := fail }

/-- The statement in a line, as `kds_dshell_write` parses it. -/
def stmtOf (ubuf : List UInt8) : Option KdsStmt :=
  (kds_parse (CString.ofBuffer (ubuf.take (DSHELL_LINE_MAX - 1))) KDS_PARSER_ERR_MAX).1.toOption

/-- The response begins with "OK". -/
def SaysOk (resp_buf : List UInt8) : Prop := ascii "OK" <+: resp_buf

instance (resp_buf : List UInt8) : Decidable (SaysOk resp_buf) :=
  inferInstanceAs (Decidable (_ <+: _))

/-- The rows after a statement. -/
def recordRow (ce : CmdEnv) (c : CatalogEnv) (rows : UInt64 → List (List UInt8)) (resp_buf : List UInt8) :
    KdsStmt → UInt64 → List (List UInt8)
  | .insert stmt =>
      match prepareInsert ce c stmt with
      | .ok (.ok (rel, row_buf, row_len), _) =>
          if SaysOk resp_buf then
            Function.update rows rel.oid (rows rel.oid ++ [row_buf.take row_len.toNat])
          else rows
      | _ => rows
  | _ => rows

/-- `row_buf` has its size, and no page of the disk is there twice. -/
structure CmdOk (ce : CmdEnv) (fail : Nat → Option Errno) : Prop where
  row_buf : ce.row_buf.length = KDS_DSHELL_ROW_MAX.toNat
  fail : ∀ k, fail k ≠ some .EEXIST

/-- The device, from the end of a boot on. -/
def databaseSystem (crc32c : UInt32 → List UInt8 → UInt32) : System Database DatabaseAct where
  init := fun s =>
    catalogSystem.init ⟨s.c, []⟩ ∧ RingOk s.c.env ∧ s.clients = (fun _ => none) ∧ s.rows = fun _ => []
  step := fun s act s' =>
    match act with
    | .open fd =>
        s.clients fd = none ∧
          s' = { s with clients := Function.update s.clients fd (some kds_dshell_open) }
    | .write fd ubuf ce fail =>
        ∃ client, s.clients fd = some client ∧ CmdOk ce fail ∧
        ∃ n client' c', kds_dshell_write crc32c ce (s.c.withFail fail) client ubuf =
            some (.ok (n, client', c')) ∧
          s' =
            { c := c'
              clients := Function.update s.clients fd (some client')
              rows := ((stmtOf ubuf).map
                (recordRow ce (s.c.withFail fail) s.rows client'.resp_buf)).getD s.rows }
    | .read fd len =>
        ∃ client, s.clients fd = some client ∧
        ∃ bytes client', kds_dshell_read client len = .ok (bytes, client') ∧
          s' = { s with clients := Function.update s.clients fd (some client') }
    | .release fd => s' = { s with clients := Function.update s.clients fd none }
    | .stage id fail =>
        id ≠ 0 ∧ s' = { s with c := (catalogStep ⟨s.c.withFail fail, []⟩ (.stage id)).c }

/-- The line is not an `INSERT` into a BTREE table: such a table takes its pages from a
    counter of its own. -/
def NotIntoBtree (s : Database) : DatabaseAct → Prop
  | .write _ ubuf ce fail =>
      ∀ stmt, stmtOf ubuf = some (.insert stmt) →
        ∀ rel row_buf row_len c',
          prepareInsert ce (s.c.withFail fail) stmt = .ok (.ok (rel, row_buf, row_len), c') →
            clusteredType rel.kind ≠ some .btree
  | _ => True

/-! ## Section 2: What a command finds -/

section finds

variable {A : Catalog}

/-- The columns that `kds_relation_open` gives a relation. -/
def Catalog.schemaOf (A : Catalog) (oid : UInt64) : List KdsSysColumn :=
  (columnsOf A.columns oid).take KDS_SCHEMA_MAX_COLUMNS

/-- The handle for a row of `sys.tables`. -/
def Catalog.handle (A : Catalog) (row : KdsSysTable) : RelationHandle where
  oid := row.oid
  namespace_oid := row.namespace_oid
  kind := row.clustered_type.toUInt32
  root_page_id := row.desc_page_id
  schema := A.schemaOf row.oid

/-- `kds_relation_open` of a relation that is in `sys.tables`, or not. -/
theorem kds_relation_open_eq {p : Pool} (h : CatalogHolds p A) (kzalloc_ok : Bool) (oid : UInt64) :
    kds_relation_open p kzalloc_ok oid =
      (match A.tables.find? fun row => row.oid = oid with
        | none => .error .ENOENT
        | some row => if kzalloc_ok then .ok (A.handle row) else .error .ENOMEM, p) := by
  unfold kds_relation_open
  rw [kds_catalog_get_sys_table_row_eq h]
  cases hrow : A.tables.find? fun row => row.oid = oid with
  | none => rfl
  | some row =>
    obtain rfl : row.oid = oid := by simpa using List.find?_some hrow
    cases kzalloc_ok with
    | false => rfl
    | true =>
      dsimp only [Option.elim]
      rw [if_neg (by simp), if_pos rfl, kds_catalog_build_schema_eq h]
      unfold Catalog.handle Catalog.schemaOf
      cases (columnsOf A.columns row.oid).take KDS_SCHEMA_MAX_COLUMNS with
      | nil => rfl
      | cons col cols => rfl

/-- An `INSERT` that gets to its table has a row for it. -/
structure InsertReady (A : Catalog) (ce : CmdEnv) (rel : RelationHandle) (row_buf : List UInt8)
    (row_len : UInt16) : Prop where
  found : ∃ row ∈ A.tables, rel = A.handle row
  encoded : ∃ vals parts, EncodedAs rel.schema vals parts ∧ row_buf.take row_len.toNat = rowBytes parts
  short : row_len.toNat ≤ ce.row_buf.length
  buf : row_buf.length = ce.row_buf.length

theorem prepareInsert_cases {ce : CmdEnv} {c c' : CatalogEnv} {stmt : KdsStmtInsert}
    {res : Except (List UInt8 × Errno) (RelationHandle × List UInt8 × UInt16)}
    (h : CatalogHolds c.env.pool A) (hprep : prepareInsert ce c stmt = .ok (res, c')) :
    c' = c ∧ ∀ rel row_buf row_len, res = .ok (rel, row_buf, row_len) →
      InsertReady A ce rel row_buf row_len := by
  unfold prepareInsert at hprep
  rw [kds_catalog_find_table_oid_by_name_eq h] at hprep
  cases hfind : (A.objects.find? (namesTable stmt.table_name)).map KdsSysObject.oid with
  | none =>
    rw [hfind] at hprep
    obtain ⟨rfl, rfl⟩ := Prod.mk.inj (Except.ok.inj hprep)
    exact ⟨rfl, fun rel row_buf row_len hres => by cases hres⟩
  | some oid =>
    rw [hfind] at hprep
    dsimp only [Option.elim] at hprep
    rw [kds_relation_open_eq h] at hprep
    cases hrow : A.tables.find? fun row => row.oid = oid with
    | none =>
      rw [hrow] at hprep
      obtain ⟨rfl, rfl⟩ := Prod.mk.inj (Except.ok.inj hprep)
      exact ⟨rfl, fun rel row_buf row_len hres => by cases hres⟩
    | some row =>
      have hmem := List.mem_of_find?_eq_some hrow
      rw [hrow] at hprep
      cases halloc : ce.kzalloc_ok with
      | false =>
        rw [halloc] at hprep
        obtain ⟨rfl, rfl⟩ := Prod.mk.inj (Except.ok.inj hprep)
        exact ⟨rfl, fun rel row_buf row_len hres => by cases hres⟩
      | true =>
        rw [halloc] at hprep
        have hfits : (A.handle row).schema.length ≤ KDS_SCHEMA_MAX_COLUMNS := List.length_take_le _ _
        dsimp only at hprep
        rw [if_pos rfl] at hprep
        dsimp only at hprep
        rw [dif_pos hfits] at hprep
        by_cases hcount : stmt.values.length = (A.handle row).schema.length
        · rw [if_neg (not_not.mpr hcount)] at hprep
          -- the encoder cannot leave `row_buf`
          obtain ⟨r, buf', hrun, hlen, hok⟩ := @encode_row_ok ⟨(A.handle row).schema, hfits⟩ stmt.values
            ce.row_buf hcount
          rw [hrun] at hprep
          cases r with
          | error e =>
            obtain ⟨rfl, rfl⟩ := Prod.mk.inj (Except.ok.inj hprep)
            exact ⟨rfl, fun rel row_buf row_len hres => by cases hres⟩
          | ok len =>
            obtain ⟨rfl, rfl⟩ := Prod.mk.inj (Except.ok.inj hprep)
            -- what it wrote is one encoding for each column, one after the other
            obtain ⟨parts, hparts, hpartslen, hshort, hbuf⟩ := hok len rfl
            refine ⟨rfl, fun rel row_buf row_len hres => ?_⟩
            obtain ⟨rfl, rfl, rfl⟩ : A.handle row = rel ∧ buf' = row_buf ∧ len = row_len := by
              simpa using hres
            refine ⟨⟨row, hmem, rfl⟩, ⟨stmt.values, parts, hparts, ?_⟩, hshort, hlen⟩
            have hblock := @take_drop_put _ ce.row_buf (rowBytes parts) 0 (Nat.zero_le _)
            rwa [List.drop_zero, ← hpartslen, ← hbuf] at hblock
        · rw [if_pos hcount] at hprep
          obtain ⟨rfl, rfl⟩ := Prod.mk.inj (Except.ok.inj hprep)
          exact ⟨rfl, fun rel row_buf row_len hres => by cases hres⟩

end finds

/-! ## Section 3: Invariant -/

/-- A HEAP table with columns. The tables of the catalog itself have none. -/
structure Catalog.HeapTable (A : Catalog) (row : KdsSysTable) : Prop where
  mem : row ∈ A.tables
  kind : row.clustered_type.toUInt32 = KDS_CLUSTERED_HEAP
  columns : A.schemaOf row.oid ≠ []

/-- The bytes are those of values for the columns of the relation. -/
def Catalog.Typed (A : Catalog) (oid : UInt64) (bs : List UInt8) : Prop :=
  ∃ vals parts, EncodedAs (A.schemaOf oid) vals parts ∧ bs = rowBytes parts

/-- Every HEAP table has its rows, on pages of its own. -/
structure DatabaseInv (A : Catalog) (hi : Nat) (chain : UInt64 → List PageId) (c : CatalogEnv)
    (rows : UInt64 → List (List UInt8)) : Prop where
  catalog : CatalogInv A hi ⟨c, []⟩
  ring : RingOk c.env
  oids : (A.tables.map KdsSysTable.oid).Nodup
  tables : ∀ {row}, A.HeapTable row →
    TableHolds row.desc_page_id c.env (chain row.oid) (rows row.oid)
  away : ∀ {row}, A.HeapTable row → ∀ id ∈ chain row.oid, id ∉ rowPages
  apart : ∀ {row row'}, A.HeapTable row → A.HeapTable row' → row.oid ≠ row'.oid →
    ∀ id ∈ chain row.oid, id ∉ chain row'.oid
  known : ∀ oid, rows oid ≠ [] → ∃ row, A.HeapTable row ∧ row.oid = oid
  typed : ∀ oid, ∀ bs ∈ rows oid, A.Typed oid bs

section inv

variable {A A' : Catalog} {hi hi' : Nat} {chain : UInt64 → List PageId} {c c' : CatalogEnv}
  {rows : UInt64 → List (List UInt8)}

/-- The catalog does not see what is written elsewhere. -/
theorem CatalogInv.spared (h : CatalogInv A hi ⟨c, []⟩) (hsame : ∀ id ∈ rowPages, SamePage c.env.pool c'.env.pool id)
    (hring : ∀ id ∈ c'.env.staged, id ∉ rowPages) (hoids : c'.oids = c.oids) :
    CatalogInv A hi ⟨c', []⟩ where
  holds := h.holds.of_same hsame
  ring := hring
  objects := h.objects
  tables := h.tables
  columns := h.columns
  bound := h.bound
  counter := fun hroom => by
    rw [← h.counter (hroom.of_same (hsame _ (by decide)))]
    exact congrArg UInt64.toNat hoids
  names := h.names
  created := fun t ht => absurd ht List.not_mem_nil

/-- Two rows of `sys.tables` do not have one oid. -/
theorem DatabaseInv.row_unique (h : DatabaseInv A hi chain c rows) {row row' : KdsSysTable}
    (hrow : row ∈ A.tables) (hrow' : row' ∈ A.tables) (heq : row.oid = row'.oid) : row = row' :=
  List.inj_on_of_nodup_map h.oids hrow hrow' heq

/-- The pages of a table are not in the ring. -/
theorem DatabaseInv.not_staged (h : DatabaseInv A hi chain c rows) {row : KdsSysTable} (hrow : A.HeapTable row) :
    ∀ id ∈ chain row.oid, id ∉ c.env.staged := fun id hid hst =>
  (List.nodup_append.mp (h.tables hrow).table.chain.nodup).2.2 id hid id hst rfl

/-- **A write into one table**: the others, the catalog and the ring are as they were. -/
theorem DatabaseInv.write (h : DatabaseInv A hi chain c rows) {row : KdsSysTable} (hrow : A.HeapTable row)
    (hspares : Spares c.env c'.env (chain row.oid)) (hoids : c'.oids = c.oids) {pages' : List PageId}
    {rows' : List (List UInt8)} (htable : TableHolds row.desc_page_id c'.env pages' rows')
    (hpages : Extended c.env c'.env (chain row.oid) pages')
    (htyped : ∀ bs ∈ rows', A.Typed row.oid bs) :
    DatabaseInv A hi (Function.update chain row.oid pages') c' (Function.update rows row.oid rows') := by
  obtain ⟨taken, hst, hframe⟩ := hspares.taken
  have hsub : ∀ id ∈ c'.env.staged, id ∈ c.env.staged := by
    intro id hid
    rw [hst]
    exact List.mem_append_right taken hid
  have htaken : ∀ id ∈ taken, id ∈ c.env.staged := by
    intro id hid
    rw [hst]
    exact List.mem_append_left _ hid
  have hringfree : ∀ id ∈ c.env.staged, id ∉ chain row.oid := fun id hid hmem =>
    h.not_staged hrow id hmem hid
  -- a page that was added comes from the ring, so it is no other table's
  have hnew : ∀ id ∈ pages', ∀ {row'}, A.HeapTable row' → row'.oid ≠ row.oid → id ∉ chain row'.oid := by
    intro id hid row' hrow' hne hmem
    rcases hpages.mem hid with hold | ⟨hstaged, -⟩
    · exact h.apart hrow' hrow hne id hmem hold
    · exact h.not_staged hrow' id hmem hstaged
  constructor
  · refine h.catalog.spared (fun id hid => ⟨?_, hspares.cached id⟩) (fun id hid => ?_) hoids
    · refine hframe id (fun hmem => h.away hrow id hmem hid) fun hmem => ?_
      exact h.catalog.ring id (htaken id hmem) hid
    · exact h.catalog.ring id (hsub id hid)
  · exact h.ring.spared hspares hringfree
  · exact h.oids
  -- the other tables are spared
  · intro row' hrow'
    by_cases heq : row'.oid = row.oid
    · obtain rfl := h.row_unique hrow'.mem hrow.mem heq
      rw [Function.update_self, Function.update_self]
      exact htable
    · rw [Function.update_of_ne heq, Function.update_of_ne heq]
      exact (h.tables hrow').spared h.ring hspares (h.apart hrow' hrow heq) hringfree
  · intro row' hrow' id hid
    by_cases heq : row'.oid = row.oid
    · rw [heq, Function.update_self] at hid
      rcases hpages.mem hid with hold | ⟨hstaged, -⟩
      · exact h.away hrow id hold
      · exact h.catalog.ring id hstaged
    · rw [Function.update_of_ne heq] at hid
      exact h.away hrow' id hid
  -- no two tables share a page
  · intro row₁ row₂ hrow₁ hrow₂ hne id hid
    by_cases heq₁ : row₁.oid = row.oid
    · rw [heq₁, Function.update_self] at hid
      rw [Function.update_of_ne (heq₁ ▸ hne.symm)]
      exact hnew id hid hrow₂ (heq₁ ▸ hne.symm)
    · rw [Function.update_of_ne heq₁] at hid
      by_cases heq₂ : row₂.oid = row.oid
      · rw [heq₂, Function.update_self]
        exact fun hmem => hnew id hmem hrow₁ heq₁ hid
      · rw [Function.update_of_ne heq₂]
        exact h.apart hrow₁ hrow₂ hne id hid
  · intro oid hne
    by_cases heq : oid = row.oid
    · exact ⟨row, hrow, heq.symm⟩
    · rw [Function.update_of_ne heq] at hne
      exact h.known oid hne
  · intro oid bs hbs
    by_cases heq : oid = row.oid
    · rw [heq, Function.update_self] at hbs
      rw [heq]
      exact htyped bs hbs
    · rw [Function.update_of_ne heq] at hbs
      exact h.typed oid bs hbs

/-- Nothing has been written. -/
theorem DatabaseInv.untouched (h : DatabaseInv A hi chain c rows) (hu : Untouched c.env c'.env)
    (hoids : c'.oids = c.oids) : DatabaseInv A hi chain c' rows where
  catalog := by
    refine h.catalog.spared (fun id _ => ⟨congrFun hu.frame id, hu.cached id⟩) (fun id hid => ?_) hoids
    exact h.catalog.ring id (hu.staged ▸ hid)
  ring := h.ring.spared (hu.spares []) fun _ _ => List.not_mem_nil
  oids := h.oids
  tables := fun hrow => (h.tables hrow).untouched hu
  away := h.away
  apart := h.apart
  known := h.known
  typed := h.typed

/-- One page for the ring. -/
theorem DatabaseInv.refilled (h : DatabaseInv A hi chain c rows) {id : PageId}
    (hs : Refilled c.env id c'.env) (hne : id ≠ 0) (hoids : c'.oids = c.oids) :
    DatabaseInv A hi chain c' rows := by
  have hnew : id ∉ rowPages := by
    intro hmem
    have hsome := h.catalog.holds.cached hmem
    rw [hs.unused] at hsome
    cases hsome
  have hring := h.ring.staged hs hne
  refine ⟨?_, hring, h.oids, fun hrow => (h.tables hrow).staged hring hs, h.away, h.apart, h.known, h.typed⟩
  refine h.catalog.spared (fun j hj => ⟨?_, hs.cached j⟩) (fun j hj => ?_) hoids
  · exact hs.frame j fun heq => hnew (heq ▸ hj)
  · rw [hs.staged, List.mem_append, List.mem_singleton] at hj
    rcases hj with hj | rfl
    · exact h.catalog.ring j hj
    · exact hnew

/-- The rows of a creation bear its oid: the columns of other relations stay. -/
theorem Catalog.Grown.schemaOf {obj : KdsSysObject} (h : A.Grown A' obj) {oid : UInt64}
    (hne : oid ≠ obj.oid) : A'.schemaOf oid = A.schemaOf oid := by
  obtain ⟨newer, hcolumns, hown⟩ := h.columns
  have hnone : columnsOf newer oid = [] := by
    apply List.filter_eq_nil_iff.mpr
    intro col hcol heq
    exact hne ((of_decide_eq_true heq).symm.trans (hown col hcol))
  unfold columnsOf at hnone
  unfold Catalog.schemaOf columnsOf
  rw [hcolumns, List.filter_append, hnone, List.append_nil]

/-- A table with the same columns in another catalog. -/
theorem Catalog.HeapTable.of_schema {row : KdsSysTable} (h : A.HeapTable row) (hmem : row ∈ A'.tables)
    (hschema : A'.schemaOf row.oid = A.schemaOf row.oid) : A'.HeapTable row :=
  ⟨hmem, h.kind, fun hnone => h.columns (hschema.symm.trans hnone)⟩

/-- **A creation without a row in `sys.tables`**. -/
theorem DatabaseInv.noTable (h : DatabaseInv A hi chain c rows) (hcat : CatalogInv A' hi' ⟨c', []⟩)
    (hspares : Spares c.env c'.env rowPages) (htables : A'.tables = A.tables)
    (hschema : ∀ row ∈ A.tables, A'.schemaOf row.oid = A.schemaOf row.oid) :
    DatabaseInv A' hi' chain c' rows := by
  have hsame : ∀ row, A'.HeapTable row ↔ A.HeapTable row := by
    intro row
    constructor
    · intro hrow
      have hmem : row ∈ A.tables := htables ▸ hrow.mem
      exact hrow.of_schema hmem (hschema row hmem).symm
    · exact fun hrow => hrow.of_schema (htables ▸ hrow.mem) (hschema row hrow.mem)
  have hold : ∀ {row}, A'.HeapTable row → A.HeapTable row := fun hrow => (hsame _).mp hrow
  constructor
  · exact hcat
  · exact h.ring.spared hspares h.catalog.ring
  · rw [htables]
    exact h.oids
  · exact fun hrow => (h.tables (hold hrow)).spared h.ring hspares (h.away (hold hrow)) h.catalog.ring
  · exact fun hrow => h.away (hold hrow)
  · exact fun hrow hrow' => h.apart (hold hrow) (hold hrow')
  · intro oid hne
    obtain ⟨row, hrow, heq⟩ := h.known oid hne
    exact ⟨row, (hsame row).mpr hrow, heq⟩
  · intro oid bs hbs
    obtain ⟨row, hrow, rfl⟩ := h.known oid (List.ne_nil_of_mem hbs)
    unfold Catalog.Typed
    rw [hschema row hrow.mem]
    exact h.typed row.oid bs hbs

/-- **A creation with a row in `sys.tables`**: its table has no rows yet. -/
theorem DatabaseInv.newTable (h : DatabaseInv A hi chain c rows) (hcat : CatalogInv A' hi' ⟨c', []⟩)
    (hspares : Spares c.env c'.env rowPages) {new : KdsSysTable} (htables : A'.tables = A.tables ++ [new])
    (hfresh : ∀ row ∈ A.tables, row.oid ≠ new.oid)
    (hschema : ∀ row ∈ A.tables, A'.schemaOf row.oid = A.schemaOf row.oid)
    (hstaged : c.env.staged = new.desc_page_id :: c'.env.staged)
    (htable : A'.HeapTable new → TableHolds new.desc_page_id c'.env [new.desc_page_id] []) :
    DatabaseInv A' hi' (Function.update chain new.oid [new.desc_page_id]) c' rows := by
  have hroot : new.desc_page_id ∈ c.env.staged := by
    rw [hstaged]
    exact List.mem_cons_self
  have hmem : ∀ {row}, A'.HeapTable row → row = new ∨ A.HeapTable row ∧ row.oid ≠ new.oid := by
    intro row hrow
    have hin := hrow.mem
    rw [htables, List.mem_append, List.mem_singleton] at hin
    rcases hin with hin | rfl
    · exact .inr ⟨hrow.of_schema hin (hschema row hin).symm, hfresh row hin⟩
    · exact .inl rfl
  -- rows were answered for known tables only
  have hnorows : rows new.oid = [] := by
    by_contra hne
    obtain ⟨row, hrow, heq⟩ := h.known _ hne
    exact hfresh row hrow.mem heq
  constructor
  · exact hcat
  · exact h.ring.spared hspares h.catalog.ring
  · rw [htables, List.map_append, List.nodup_append]
    refine ⟨h.oids, List.nodup_singleton _, fun a ha b hb hab => ?_⟩
    obtain ⟨row, hrow, rfl⟩ := List.mem_map.mp ha
    rw [List.map_singleton, List.mem_singleton] at hb
    exact hfresh row hrow (hab.trans hb)
  · intro row hrow
    rcases hmem hrow with rfl | ⟨hold, hne⟩
    · rw [Function.update_self, hnorows]
      exact htable hrow
    · rw [Function.update_of_ne hne]
      exact (h.tables hold).spared h.ring hspares (h.away hold) h.catalog.ring
  · intro row hrow id hid
    rcases hmem hrow with rfl | ⟨hold, hne⟩
    · rw [Function.update_self, List.mem_singleton] at hid
      rw [hid]
      exact h.catalog.ring _ hroot
    · rw [Function.update_of_ne hne] at hid
      exact h.away hold id hid
  -- the root page comes from the ring, and no older table has it
  · intro row row' hrow hrow' hdiff id hid
    rcases hmem hrow with rfl | ⟨hold, hne⟩
    · rcases hmem hrow' with rfl | ⟨hold', hne'⟩
      · exact absurd rfl hdiff
      · rw [Function.update_self, List.mem_singleton] at hid
        rw [Function.update_of_ne hne', hid]
        exact fun hmem' => h.not_staged hold' _ hmem' hroot
    · rw [Function.update_of_ne hne] at hid
      rcases hmem hrow' with rfl | ⟨hold', hne'⟩
      · rw [Function.update_self, List.mem_singleton]
        rintro rfl
        exact h.not_staged hold _ hid hroot
      · rw [Function.update_of_ne hne']
        exact h.apart hold hold' hdiff id hid
  · intro oid hne
    obtain ⟨row, hrow, heq⟩ := h.known oid hne
    refine ⟨row, hrow.of_schema ?_ (hschema row hrow.mem), heq⟩
    rw [htables]
    exact List.mem_append_left _ hrow.mem
  · intro oid bs hbs
    obtain ⟨row, hrow, rfl⟩ := h.known oid (List.ne_nil_of_mem hbs)
    unfold Catalog.Typed
    rw [hschema row hrow.mem]
    exact h.typed row.oid bs hbs

end inv

/-! ## Section 4: Steps -/

/-- A page of the catalog or of a table. -/
def Catalog.Tracks (A : Catalog) (chain : UInt64 → List PageId) (id : PageId) : Prop :=
  id ∈ rowPages ∨ ∃ row, A.HeapTable row ∧ id ∈ chain row.oid

/-- What a command does to the tables: they keep their pages and get new ones
    from the ring, what they hold only grows, and what is written is marked. -/
structure Evolved (A : Catalog) (chain : UInt64 → List PageId) (c : CatalogEnv) (A' : Catalog)
    (chain' : UInt64 → List PageId) (c' : CatalogEnv) : Prop where
  disk : c'.env.pool.disk = c.env.pool.disk
  cached : ∀ id, (c.env.pool.cached id).isSome → (c'.env.pool.cached id).isSome
  staged : ∀ id ∈ c'.env.staged, id ∈ c.env.staged ∧ c'.env.pool.frame id = c.env.pool.frame id
  tables : ∀ {row}, A.HeapTable row → A'.HeapTable row ∧ A'.schemaOf row.oid = A.schemaOf row.oid ∧
    chain row.oid <+: chain' row.oid
  pages : ∀ {row}, A'.HeapTable row → ∀ id ∈ chain' row.oid,
    id ∈ c.env.staged ∨ ∃ old, A.HeapTable old ∧ id ∈ chain old.oid
  marks : ∀ id, A'.Tracks chain' id →
    c'.env.pool.frame id = c.env.pool.frame id ∨ (c'.env.pool.frame id).dirty = true ∨
      id ∈ c.env.staged ∧ slotTable (c'.env.pool.frame id) = .blank
  grows : ∀ id ∉ c.env.staged,
    (slotTable (c.env.pool.frame id)).Grows (slotTable (c'.env.pool.frame id))

/-- The database behind a command. -/
structure DatabaseStep (A : Catalog) (chain : UInt64 → List PageId) (c : CatalogEnv) (A' : Catalog) (hi' : Nat)
    (chain' : UInt64 → List PageId) (c' : CatalogEnv) (rows' : UInt64 → List (List UInt8)) : Prop where
  inv : DatabaseInv A' hi' chain' c' rows'
  evolved : Evolved A chain c A' chain' c'

section evolves

variable {A A' A'' : Catalog} {hi hi' : Nat} {chain chain' chain'' : UInt64 → List PageId}
  {c c' c'' : CatalogEnv} {rows rows' : UInt64 → List (List UInt8)}

theorem Evolved.untouched (hu : Untouched c.env c'.env) : Evolved A chain c A chain c' where
  disk := hu.disk
  cached := hu.cached
  staged := fun id hid => ⟨hu.staged ▸ hid, congrFun hu.frame id⟩
  tables := fun hrow => ⟨hrow, rfl, List.prefix_refl _⟩
  pages := fun hrow id hid => .inr ⟨_, hrow, hid⟩
  marks := fun id _ => .inl (congrFun hu.frame id)
  grows := fun id _ => .of_eq (by rw [hu.frame])

theorem Evolved.trans (h : Evolved A chain c A' chain' c') (h' : Evolved A' chain' c' A'' chain'' c'') :
    Evolved A chain c A'' chain'' c'' where
  disk := h'.disk.trans h.disk
  cached := fun id hid => h'.cached id (h.cached id hid)
  staged := by
    intro id hid
    obtain ⟨hid', hframe'⟩ := h'.staged id hid
    obtain ⟨hid, hframe⟩ := h.staged id hid'
    exact ⟨hid, hframe'.trans hframe⟩
  tables := by
    intro row hrow
    obtain ⟨hrow', hschema, hpages⟩ := h.tables hrow
    obtain ⟨hrow'', hschema', hpages'⟩ := h'.tables hrow'
    exact ⟨hrow'', hschema'.trans hschema, hpages.trans hpages'⟩
  pages := by
    intro row hrow id hid
    rcases h'.pages hrow id hid with hst | ⟨old, hold, hid'⟩
    · exact .inl (h.staged id hst).1
    · exact h.pages hold id hid'
  marks := by
    intro id hid
    rcases h'.marks id hid with hsame | hdirty | ⟨hst, hblank⟩
    · rw [hsame]
      rcases hid with hcat | ⟨row, hrow, hid⟩
      · exact h.marks id (.inl hcat)
      · rcases h'.pages hrow id hid with hst | ⟨old, hold, hid'⟩
        · exact .inl (h.staged id hst).2
        · exact h.marks id (.inr ⟨old, hold, hid'⟩)
    · exact .inr (.inl hdirty)
    · exact .inr (.inr ⟨(h.staged id hst).1, hblank⟩)
  grows := fun id hid =>
    (h.grows id hid).trans (h'.grows id fun hst => hid (h.staged id hst).1)

theorem Evolved.step (h : Evolved A chain c A' chain' c') (h' : DatabaseStep A' chain' c' A'' hi' chain'' c'' rows') :
    DatabaseStep A chain c A'' hi' chain'' c'' rows' := ⟨h'.inv, h.trans h'.evolved⟩

theorem DatabaseInv.stays (h : DatabaseInv A hi chain c rows) : DatabaseStep A chain c A hi chain c rows :=
  ⟨h, .untouched (.refl _)⟩

theorem DatabaseInv.loads (h : DatabaseInv A hi chain c rows) (hu : Untouched c.env c'.env)
    (hoids : c'.oids = c.oids) : DatabaseStep A chain c A hi chain c' rows :=
  ⟨h.untouched hu hoids, .untouched hu⟩

/-- A page that is still in the ring is as it was. -/
theorem DatabaseInv.still_staged (h : DatabaseInv A hi chain c rows) {ids : List PageId}
    (hspares : Spares c.env c'.env ids) (hids : ∀ id ∈ c.env.staged, id ∉ ids) :
    ∀ id ∈ c'.env.staged, id ∈ c.env.staged ∧ c'.env.pool.frame id = c.env.pool.frame id := by
  obtain ⟨taken, hst, hframe⟩ := hspares.taken
  have hnd := h.ring.nodup
  rw [hst, List.nodup_append] at hnd
  intro id hid
  have hmem : id ∈ c.env.staged := by
    rw [hst]
    exact List.mem_append_right taken hid
  exact ⟨hmem, hframe id (hids id hmem) fun htaken => hnd.2.2 id htaken id hid rfl⟩

/-- What was not in the ring has grown. -/
theorem grows_of_spares {ids : List PageId} (hspares : Spares c.env c'.env ids) (id : PageId)
    (hid : id ∉ c.env.staged) :
    (slotTable (c.env.pool.frame id)).Grows (slotTable (c'.env.pool.frame id)) := by
  by_cases hmem : id ∈ ids
  · exact hspares.grows id hmem
  · obtain ⟨taken, hst, hframe⟩ := hspares.taken
    refine .of_eq (congrArg slotTable (hframe id hmem fun htaken => hid ?_))
    rw [hst]
    exact List.mem_append_left _ htaken

/-- **An insert** into one table. -/
theorem DatabaseInv.writes (h : DatabaseInv A hi chain c rows) {row : KdsSysTable} (hrow : A.HeapTable row)
    (hspares : Spares c.env c'.env (chain row.oid)) (hmarks : c.env.pool.MarksAll c'.env.pool)
    (hoids : c'.oids = c.oids) {pages' : List PageId} {rows' : List (List UInt8)}
    (htable : TableHolds row.desc_page_id c'.env pages' rows')
    (hpages : Extended c.env c'.env (chain row.oid) pages') (htyped : ∀ bs ∈ rows', A.Typed row.oid bs) :
    DatabaseStep A chain c A hi (Function.update chain row.oid pages') c' (Function.update rows row.oid rows') where
  inv := h.write hrow hspares hoids htable hpages htyped
  evolved := by
    refine ⟨hmarks.disk, hspares.cached, h.still_staged hspares ?_, ?_, ?_, fun id _ => ?_, grows_of_spares hspares⟩
    · exact fun id hid hmem => h.not_staged hrow id hmem hid
    · intro row' hrow'
      refine ⟨hrow', rfl, ?_⟩
      by_cases heq : row'.oid = row.oid
      · obtain ⟨newer, rfl, -⟩ := hpages
        rw [heq, Function.update_self]
        exact List.prefix_append _ _
      · rw [Function.update_of_ne heq]
    · intro row' hrow' id hid
      by_cases heq : row'.oid = row.oid
      · rw [heq, Function.update_self] at hid
        rcases hpages.mem hid with hold | ⟨hst, -⟩
        · exact .inr ⟨row, hrow, hold⟩
        · exact .inl hst
      · rw [Function.update_of_ne heq] at hid
        exact .inr ⟨row', hrow', hid⟩
    · rcases hmarks.frame id with hsame | hdirty | hfalse
      · exact .inl hsame
      · exact .inr (.inl hdirty)
      · exact hfalse.elim

/-- **A creation**: the old tables keep their pages, and a new one gets its root from the ring. -/
theorem DatabaseInv.evolved_create (h : DatabaseInv A hi chain c rows) (hspares : Spares c.env c'.env rowPages)
    (hold : ∀ {row}, A.HeapTable row → A'.HeapTable row ∧ A'.schemaOf row.oid = A.schemaOf row.oid ∧
      chain' row.oid = chain row.oid)
    (hnew : ∀ {row}, A'.HeapTable row → (∃ old, A.HeapTable old ∧ chain' row.oid = chain old.oid) ∨
      ∃ root ∈ c.env.staged, chain' row.oid = [root] ∧ slotTable (c'.env.pool.frame root) = .blank) :
    Evolved A chain c A' chain' c' := by
  have hmarked : ∀ id ∉ c.env.staged, c'.env.pool.frame id = c.env.pool.frame id ∨
      (c'.env.pool.frame id).dirty = true := by
    intro id hid
    rcases hspares.marks.frame id with hsame | hdirty | hst
    · exact .inl hsame
    · exact .inr hdirty
    · exact absurd hst hid
  refine ⟨hspares.marks.disk, hspares.cached, h.still_staged hspares h.catalog.ring, ?_, ?_, ?_,
    grows_of_spares hspares⟩
  · intro row hrow
    obtain ⟨hrow', hschema, hpages⟩ := hold hrow
    exact ⟨hrow', hschema, hpages ▸ List.prefix_refl _⟩
  · intro row hrow id hid
    rcases hnew hrow with ⟨old, hrow₀, hpages⟩ | ⟨root, hroot, hpages, -⟩
    · exact .inr ⟨old, hrow₀, hpages ▸ hid⟩
    · rw [hpages, List.mem_singleton] at hid
      exact .inl (hid ▸ hroot)
  · intro id hid
    have hfree : id ∉ c.env.staged → c'.env.pool.frame id = c.env.pool.frame id ∨
        (c'.env.pool.frame id).dirty = true ∨
          id ∈ c.env.staged ∧ slotTable (c'.env.pool.frame id) = .blank :=
      fun hid => (hmarked id hid).imp_right .inl
    rcases hid with hcat | ⟨row, hrow, hid⟩
    · exact hfree fun hst => h.catalog.ring id hst hcat
    · rcases hnew hrow with ⟨old, hrow₀, hpages⟩ | ⟨root, hroot, hpages, hblank⟩
      · exact hfree fun hst => h.not_staged hrow₀ id (hpages ▸ hid) hst
      · rw [hpages, List.mem_singleton] at hid
        exact .inr (.inr ⟨hid ▸ hroot, hid ▸ hblank⟩)

/-- **`CREATE TABLE`**, whether it succeeds or fails midway. -/
theorem DatabaseInv.create_table (h : DatabaseInv A hi chain c rows) {namespace_oid : UInt64} {name : CString}
    {schema : KdsSchema} {clustered_type : UInt32} {res : Except Errno UInt64}
    (hcall : kds_catalog_create_table c namespace_oid (some name) (some schema) clustered_type true =
      (res, c')) :
    ∃ A' hi' chain', DatabaseStep A chain c A' hi' chain' c' rows := by
  obtain ⟨hspares, hgrowth⟩ := create_table_spares h.catalog.holds h.catalog.ring hcall
  obtain ⟨hstaged, hout⟩ := kds_catalog_create_table_cases h.catalog.holds h.catalog.ring hcall
  obtain ⟨A', hi', hcat, -⟩ := h.catalog.create hout rfl ⟨name, rfl⟩ hstaged
  have hgrowth := hgrowth A' hcat.holds
  have hnone : A'.tables = A.tables → (∀ row ∈ A.tables, A'.schemaOf row.oid = A.schemaOf row.oid) →
      ∃ A' hi' chain', DatabaseStep A chain c A' hi' chain' c' rows := by
    intro htables hschema
    refine ⟨A', hi', chain, h.noTable hcat hspares htables hschema, h.evolved_create hspares ?_ ?_⟩
    · intro row hrow
      have hsame := hschema row hrow.mem
      exact ⟨hrow.of_schema (htables ▸ hrow.mem) hsame, hsame, rfl⟩
    · intro row hrow
      have hmem : row ∈ A.tables := htables ▸ hrow.mem
      exact .inl ⟨row, hrow.of_schema hmem (hschema row hmem).symm, rfl⟩
  have hkeeps : (∀ id ∈ rowPages, SamePage c.env.pool c'.env.pool id) →
      ∃ A' hi' chain', DatabaseStep A chain c A' hi' chain' c' rows := by
    intro hsame
    obtain rfl := (h.catalog.holds.of_same hsame).unique hcat.holds
    exact hnone rfl fun _ _ => rfl
  cases hout with
  | early e hres hsame hoids => exact hkeeps hsame
  | full e hres hsame hroom => exact hkeeps hsame
  | grown B n hroom hold hgrown hpos hn hoids hmade =>
    obtain rfl := hold.unique hcat.holds
    have hnew : (c.oids + 1).toNat = hi + 1 := h.catalog.next_oid hroom (by decide : 1 ≤ maxOids)
    have hfresh : ∀ row ∈ A.tables, row.oid ≠ c.oids + 1 := by
      intro row hrow heq
      have hle := h.catalog.tables row hrow
      rw [heq] at hle
      omega
    have hschema : ∀ row ∈ A.tables, A'.schemaOf row.oid = A.schemaOf row.oid :=
      fun row hrow => hgrown.schemaOf (hfresh row hrow)
    cases hgrowth with
    | nothing htables => exact hnone htables hschema
    | @row root kind f hkind hst hid hinit htables =>
      have hroot : root ∈ c.env.staged := by
        rw [hst]
        exact List.mem_cons_self
      -- the kind in the row is the one the root was initialised for
      have hheap : A'.HeapTable (relationRow (c.oids + 1) namespace_oid name root clustered_type) →
          c'.env.pool.frame root = heap_init_page f := by
        intro hrow
        have hbyte : clustered_type.toUInt8.toUInt32 = clustered_type :=
          clusteredType_toUInt8 (by rw [hkind]; rfl)
        have hheap : clustered_type = KDS_CLUSTERED_HEAP := hbyte.symm.trans hrow.kind
        obtain rfl : ClusteredType.heap = kind := by
          rw [hheap] at hkind
          exact Option.some.inj hkind
        exact hinit
      refine ⟨A', hi', _, h.newTable hcat hspares htables hfresh hschema hst fun hrow => ?_,
        h.evolved_create hspares ?_ ?_⟩
      · have hnd := h.ring.nodup
        rw [hst] at hnd
        refine .new (h.ring.spared hspares h.catalog.ring) (hheap hrow) (hid.trans (h.ring.own root hroot))
          ?_ ?_ ?_
        · exact hspares.cached root (h.ring.cached root hroot)
        · rintro h0
          exact h.ring.nonzero (h0 ▸ hroot)
        · exact (List.nodup_cons.mp hnd).1
      · intro row hrow
        have hsame := hschema row hrow.mem
        refine ⟨hrow.of_schema ?_ hsame, hsame, Function.update_of_ne (hfresh row hrow.mem) _ _⟩
        rw [htables]
        exact List.mem_append_left _ hrow.mem
      · intro row hrow
        have hmem := hrow.mem
        rw [htables, List.mem_append, List.mem_singleton] at hmem
        rcases hmem with hmem | rfl
        · exact .inl ⟨row, hrow.of_schema hmem (hschema row hmem).symm,
            Function.update_of_ne (hfresh row hmem) _ _⟩
        · refine .inr ⟨root, hroot, Function.update_self _ _ _, ?_⟩
          rw [hheap hrow]
          exact slotTable_init f .heap

end evolves

end Kds
