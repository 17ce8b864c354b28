import Kds.Catalog.Runs
import Kds.Lib.Lts

/-! # Relations of one boot

    Bootstrap, and then creations of tables and indexes in any order, with the
    ring refilled in between: any of them may fail for want of a page or of
    room for a row. What the catalog says about a table that was created does
    not change any more. `kds_relation_open` finds it by its oid, and
    `kds_catalog_find_table_oid_by_name` by its name if no older row of a
    table bears that name: a creation does not look for one.
-/

open Bytes Lts

namespace Kds

/-! ## Section 1: Runs -/

abbrev KDS_USER_OID_START : UInt64 := 4000

/-- The rows of `sys.objects`. -/
def sysObjects (p : Pool) : List KdsSysObject :=
  let f := p.frame KDS_CATALOG_PAGE_OBJECTS
  (heapSlots f).filterMap fun slot =>
    match heap_read_tuple f (UInt16.ofNat slot) true 96 with
    | .error _ => none
    | .ok (_, bs) => some (KdsSysObject.ofBytes bs)

/-- A creation of a table that returned 0. -/
structure Created where
  oid : UInt64
  namespace_oid : UInt64
  name : CString
  schema : KdsSchema
  clustered_type : UInt32
  /-- The page it took from the ring. -/
  root : PageId
  /-- The rows of `sys.objects` before it. -/
  objects : List KdsSysObject

structure CatalogSys where
  c : CatalogEnv
  /-- History: what has been created. -/
  created : List Created

inductive CatalogAct where
  | createTable (namespace_oid : UInt64) (name : CString) (schema : KdsSchema)
      (clustered_type : UInt32)
  | createIndex (namespace_oid table_oid : UInt64) (target_col : CString)
  /-- One page of `kds_batch_alloc`: it is new, and goes into the ring. -/
  | stage (id : PageId)

/-- The creations recorded after a call to `kds_catalog_create_table`. -/
def record (s : CatalogSys) (namespace_oid : UInt64) (name : CString) (schema : KdsSchema)
    (clustered_type : UInt32) : Except Errno UInt64 → List Created
  | .error _ => s.created
  | .ok oid =>
      s.created ++
        [{ oid := oid
           namespace_oid := namespace_oid
           name := name
           schema := schema
           clustered_type := clustered_type
           root := s.c.env.staged.headD 0
           objects := sysObjects s.c.env.pool }]

/-- The state after a call. -/
def catalogStep (s : CatalogSys) : CatalogAct → CatalogSys
  | .createTable namespace_oid name schema clustered_type =>
      let (ret, c) := kds_catalog_create_table s.c namespace_oid (some name) (some schema)
        clustered_type true
      { c := c, created := record s namespace_oid name schema clustered_type ret }
  | .createIndex namespace_oid table_oid target_col =>
      let (_, c) := kds_relation_create_index s.c namespace_oid table_oid (some target_col) true
      { s with c := c }
  | .stage id =>
      match kds_buf_alloc_new s.c.env.pool id with
      | (.error _, pool) => { s with c := s.c.setPool pool }
      | (.ok id, pool) =>
          let env := { s.c.env with pool := pool, staged := s.c.env.staged ++ [id] }
          { s with c := { s.c with env := env } }

/-- A boot: the pages in the ring are in the pool, and bootstrap did not panic. -/
def catalogSystem : System CatalogSys CatalogAct where
  init := fun s =>
    s.created = [] ∧ s.c.oids = KDS_USER_OID_START ∧
      ∃ p, (∀ id ∈ s.c.env.staged, (p.cached id).isSome) ∧
        kds_catalog_bootstrap p = .ok s.c.env.pool
  step := fun s act s' => s' = catalogStep s act

/-! ## Section 2: Invariant -/

/-- What the catalog says about a table that was created. -/
structure CreatedInv (A : Catalog) (t : Created) : Prop where
  kind : (clusteredType t.clustered_type).isSome
  object : ∃ newer, A.objects =
    t.objects ++ objectRow t.oid t.namespace_oid KDS_OID_TYPE_TABLE t.name :: newer
  object_fresh : ∀ row ∈ t.objects, row.oid ≠ t.oid
  table : ∃ older newer, (∀ row ∈ older, row.oid ≠ t.oid) ∧ A.tables =
    older ++ relationRow t.oid t.namespace_oid t.name t.root t.clustered_type :: newer
  columns : ∃ oid, columnsOf A.columns t.oid = columnRows oid t.oid t.schema.cols

/-- Every oid in use is at most `hi`, where the counter stands while `sys.objects` has room. -/
structure CatalogInv (A : Catalog) (hi : Nat) (s : CatalogSys) : Prop where
  holds : CatalogHolds s.c.env.pool A
  ring : ∀ id ∈ s.c.env.staged, id ∉ rowPages
  objects : ∀ row ∈ A.objects, row.oid.toNat ≤ hi
  tables : ∀ row ∈ A.tables, row.oid.toNat ≤ hi
  columns : ∀ row ∈ A.columns, row.rel_id.toNat ≤ hi
  bound : hi ≤ KDS_USER_OID_START.toNat + maxOids * A.objects.length
  counter : ObjectRoom s.c.env.pool → s.c.oids.toNat = hi
  names : ∀ row ∈ A.objects, ∃ src, row.name = set_name src
  created : ∀ t ∈ s.created, CreatedInv A t

theorem HoldsRows.sysObjects_eq {p : Pool} {objects : List KdsSysObject}
    (h : HoldsRows p KDS_CATALOG_PAGE_OBJECTS (objects.map KdsSysObject.bytes)) :
    sysObjects p = objects := by
  have hsize : ∀ bs ∈ objects.map KdsSysObject.bytes, bs.length = (96 : UInt16).toNat := by
    intro bs hbs
    obtain ⟨row, _, rfl⟩ := List.mem_map.mp hbs
    rw [KdsSysObject.length_bytes]
    rfl
  have hread : sysObjects p =
      (((heapSlots (p.frame KDS_CATALOG_PAGE_OBJECTS)).map
        fun i => (objects.map KdsSysObject.bytes).getD i []).map KdsSysObject.ofBytes) := by
    unfold sysObjects
    rw [List.map_map, ← List.filterMap_eq_map]
    apply List.filterMap_congr
    intro slot hslot
    obtain ⟨hdr, hread⟩ := h.rows.read_slot hsize hslot
    rw [hread]
    rfl
  rw [hread, h.rows.slots_map, List.map_map]
  have hid : KdsSysObject.ofBytes ∘ KdsSysObject.bytes = id :=
    funext KdsSysObject.ofBytes_bytes
  rw [hid, List.map_id]

section step

variable {A A' : Catalog} {hi : Nat} {s : CatalogSys}

/-- **Creations keep apart**: rows of another oid change nothing about a table. -/
theorem CreatedInv.grown {t : Created} {obj : KdsSysObject} (h : CreatedInv A t)
    (hgrown : A.Grown A' obj) (hoid : obj.oid ≠ t.oid) : CreatedInv A' t := by
  obtain ⟨newer, hobject⟩ := h.object
  obtain ⟨older, newer', holder, htable⟩ := h.table
  obtain ⟨oid, hcolumns⟩ := h.columns
  obtain ⟨tables, htables, _⟩ := hgrown.tables
  obtain ⟨columns, hcols, hrel⟩ := hgrown.columns
  constructor
  · exact h.kind
  · refine ⟨newer ++ [obj], ?_⟩
    rw [hgrown.objects, hobject, List.append_assoc, List.cons_append]
  · exact h.object_fresh
  · refine ⟨older, newer' ++ tables, holder, ?_⟩
    rw [htables, htable, List.append_assoc, List.cons_append]
  · refine ⟨oid, ?_⟩
    have hnone : columnsOf columns t.oid = [] := by
      apply List.filter_eq_nil_iff.mpr
      intro row hrow
      simpa [hrel row hrow] using hoid
    unfold columnsOf at hcolumns hnone ⊢
    rw [hcols, List.filter_append, hcolumns, hnone, List.append_nil]

/-- The oid of the next creation is new, as long as `sys.objects` has room. -/
theorem CatalogInv.next_oid (h : CatalogInv A hi s) (hroom : ObjectRoom s.c.env.pool) {n : Nat}
    (hn : n ≤ maxOids) : (s.c.oids + UInt64.ofNat n).toNat = hi + n := by
  have hcounter := h.counter hroom
  have hbound := h.bound
  have hrows := h.holds.objects.rows.length_lt
  rw [List.length_map] at hrows
  have hstart : KDS_USER_OID_START.toNat = 4000 := rfl
  simp only [maxOids, KDS_SCHEMA_MAX_COLUMNS] at hn hbound
  rw [UInt64.toNat_add, UInt64.toNat_ofNat', hcounter, Nat.mod_eq_of_lt (by omega : n < 2 ^ 64)]
  exact Nat.mod_eq_of_lt (by omega)

/-- **A creation** keeps the invariant for what was created before it. -/
theorem CatalogInv.create {c' : CatalogEnv} {obj : KdsSysObject} {Made : Catalog → Prop}
    {res : Except Errno UInt64} (h : CatalogInv A hi s)
    (hout : CreateOutcome s.c c' A obj Made res) (hoid : obj.oid = s.c.oids + 1)
    (hname : ∃ src, obj.name = set_name src) (hstaged : ∀ id ∈ c'.env.staged, id ∈ s.c.env.staged) :
    ∃ A' hi', CatalogInv A' hi' { s with c := c' } ∧
      ∀ oid, res = .ok oid → oid = obj.oid ∧ Made A' ∧ A.Grown A' obj ∧ oid.toNat = hi + 1 := by
  have hring : ∀ id ∈ c'.env.staged, id ∉ rowPages := fun id hid => h.ring id (hstaged id hid)
  cases hout with
  | early e hres hsame hoids =>
    refine ⟨A, hi, ?_, fun oid hok => by rw [hres] at hok; cases hok⟩
    refine ⟨h.holds.of_same hsame, hring, h.objects, h.tables, h.columns, h.bound, ?_, h.names,
      h.created⟩
    intro hroom
    rw [← h.counter (hroom.of_same (hsame _ (by decide)))]
    exact congrArg UInt64.toNat hoids
  | full e hres hsame hroom =>
    refine ⟨A, hi, ?_, fun oid hok => by rw [hres] at hok; cases hok⟩
    refine ⟨h.holds.of_same hsame, hring, h.objects, h.tables, h.columns, h.bound, ?_, h.names,
      h.created⟩
    intro hroom'
    exact absurd (hroom'.of_same (hsame _ (by decide))) hroom
  | grown A' n hroom hold hgrown hpos hn hoids hmade =>
    have hobj : obj.oid.toNat = hi + 1 := by
      rw [hoid]
      exact h.next_oid hroom (by decide : 1 ≤ maxOids)
    have hcount : c'.oids.toNat = hi + n := by
      rw [hoids]
      exact h.next_oid hroom hn
    obtain ⟨tables, htables, htable⟩ := hgrown.tables
    obtain ⟨columns, hcols, hcol⟩ := hgrown.columns
    refine ⟨A', hi + n, ⟨hold, hring, ?_, ?_, ?_, ?_, fun _ => hcount, ?_, ?_⟩, ?_⟩
    · intro row hrow
      rw [hgrown.objects, List.mem_append, List.mem_singleton] at hrow
      rcases hrow with hrow | rfl
      · have := h.objects row hrow
        omega
      · omega
    · intro row hrow
      rw [htables, List.mem_append] at hrow
      rcases hrow with hrow | hrow
      · have := h.tables row hrow
        omega
      · rw [htable row hrow]
        omega
    · intro row hrow
      rw [hcols, List.mem_append] at hrow
      rcases hrow with hrow | hrow
      · have := h.columns row hrow
        omega
      · rw [hcol row hrow]
        omega
    · have hbound := h.bound
      rw [hgrown.objects, List.length_append, List.length_singleton, Nat.mul_succ]
      omega
    · intro row hrow
      rw [hgrown.objects, List.mem_append, List.mem_singleton] at hrow
      rcases hrow with hrow | rfl
      · exact h.names row hrow
      · exact hname
    · intro t ht
      apply (h.created t ht).grown hgrown
      -- the oid of `t` is in use
      intro heq
      obtain ⟨newer, hobject⟩ := (h.created t ht).object
      have hmem : objectRow t.oid t.namespace_oid KDS_OID_TYPE_TABLE t.name ∈ A.objects := by
        rw [hobject]
        simp
      have hle : t.oid.toNat ≤ hi := h.objects _ hmem
      rw [← heq] at hle
      omega
    · intro oid hok
      obtain ⟨rfl, hmade⟩ := hmade oid hok
      exact ⟨rfl, hmade, hgrown, hobj⟩

theorem columnRows_rel_id (oid new_oid : UInt64) (cols : List KdsSysColumn) :
    ∀ row ∈ columnRows oid new_oid cols, row.rel_id = new_oid := by
  induction cols generalizing oid with
  | nil => simp [columnRows]
  | cons col cols ih =>
    intro row hrow
    rw [columnRows, List.mem_cons] at hrow
    rcases hrow with rfl | hrow
    · rfl
    · exact ih _ row hrow

/-- **A table that was just created**. -/
theorem CatalogInv.createdInv {namespace_oid : UInt64} {name : CString} {schema : KdsSchema}
    {clustered_type : UInt32} {root : PageId} {oid : UInt64} (h : CatalogInv A hi s)
    (hkind : (clusteredType clustered_type).isSome)
    (hmade : TableMade A s.c.oids namespace_oid name schema clustered_type root A')
    (hgrown : A.Grown A' (objectRow (s.c.oids + 1) namespace_oid KDS_OID_TYPE_TABLE name))
    (hoid : oid = s.c.oids + 1) (hnew : oid.toNat = hi + 1) :
    CreatedInv A'
      { oid := oid
        namespace_oid := namespace_oid
        name := name
        schema := schema
        clustered_type := clustered_type
        root := root
        objects := A.objects } := by
  subst hoid
  obtain ⟨htables, oid, hcolumns⟩ := hmade
  constructor
  · exact hkind
  · exact ⟨[], hgrown.objects⟩
  · intro row hrow heq
    -- the oid is larger than every one that has been given out
    have hle := h.objects row hrow
    rw [heq, hnew] at hle
    omega
  · refine ⟨A.tables, [], fun row hrow heq => ?_, htables⟩
    have hle := h.tables row hrow
    rw [heq, hnew] at hle
    omega
  · refine ⟨oid, ?_⟩
    -- no older column belongs to it, and each of the new ones does
    have hold : columnsOf A.columns (s.c.oids + 1) = [] := by
      apply List.filter_eq_nil_iff.mpr
      intro row hrow heq
      have hle := h.columns row hrow
      rw [of_decide_eq_true heq, hnew] at hle
      omega
    have hown : columnsOf (columnRows oid (s.c.oids + 1) schema.cols) (s.c.oids + 1) =
        columnRows oid (s.c.oids + 1) schema.cols := by
      apply List.filter_eq_self.mpr
      intro row hrow
      simpa using columnRows_rel_id oid _ _ row hrow
    unfold columnsOf at hold hown ⊢
    rw [hcolumns, List.filter_append, hold, hown, List.nil_append]

/-- **One call** keeps the invariant. -/
theorem CatalogInv.step (h : CatalogInv A hi s) (act : CatalogAct) :
    ∃ A' hi', CatalogInv A' hi' (catalogStep s act) := by
  cases act with
  | createTable namespace_oid name schema clustered_type =>
    unfold catalogStep
    cases hcall : kds_catalog_create_table s.c namespace_oid (some name) (some schema)
        clustered_type true with
    | mk ret c' =>
      dsimp only
      rw [hcall]
      obtain ⟨hstaged, hout⟩ := kds_catalog_create_table_cases h.holds h.ring hcall
      obtain ⟨A', hi', hinv, hmade⟩ := h.create hout rfl ⟨name, rfl⟩ hstaged
      refine ⟨A', hi', ?_⟩
      cases ret with
      | error e => exact hinv
      | ok oid =>
        obtain ⟨hoid, ⟨hkind, root, hroot, hmade⟩, hgrown, hnew⟩ := hmade oid rfl
        have hhead : s.c.env.staged.headD 0 = root := by
          rw [List.headD_eq_head?_getD, hroot]
          rfl
        refine { hinv with created := ?_ }
        intro t ht
        rw [record, List.mem_append, List.mem_singleton] at ht
        rcases ht with ht | rfl
        · exact hinv.created t ht
        · rw [hhead, h.holds.objects.sysObjects_eq]
          exact h.createdInv hkind hmade hgrown hoid hnew
  | createIndex namespace_oid table_oid target_col =>
    unfold catalogStep
    cases hcall : kds_relation_create_index s.c namespace_oid table_oid (some target_col) true with
    | mk ret c' =>
      dsimp only
      rw [hcall]
      obtain ⟨hstaged, name, hout⟩ := kds_relation_create_index_cases h.holds h.ring hcall
      obtain ⟨A', hi', hinv, _⟩ := h.create hout rfl ⟨name, rfl⟩ hstaged
      exact ⟨A', hi', hinv⟩
  | stage id =>
    unfold catalogStep
    cases halloc : kds_buf_alloc_new s.c.env.pool id with
    | mk ret pool =>
      dsimp only
      rw [halloc]
      obtain ⟨_, herr, hok⟩ := alloc_new_cases halloc
      cases ret with
      | error e =>
        obtain ⟨hcached, hdisk⟩ := herr e rfl
        have hsame : ∀ j, SamePage s.c.env.pool pool j := by
          intro j
          constructor
          · unfold Pool.frame
            rw [hcached, hdisk]
          · rw [hcached]
            exact fun hc => hc
        refine ⟨A, hi, h.holds.of_same fun j _ => hsame j, h.ring, h.objects, h.tables, h.columns,
          h.bound, fun hroom => h.counter (hroom.of_same (hsame _)), h.names, h.created⟩
      | ok frame =>
        obtain ⟨rfl, hnone, _, hcached⟩ := hok frame rfl
        -- the pages of the catalog are in the pool, so the new page is none of them
        have hnew : frame ∉ rowPages := by
          intro hmem
          have hsome := h.holds.cached hmem
          rw [hnone] at hsome
          cases hsome
        have hsame : ∀ j ∈ rowPages, SamePage s.c.env.pool pool j := by
          intro j hj
          have hne : j ≠ frame := by
            rintro rfl
            exact hnew hj
          constructor
          · exact alloc_new_frame halloc hne
          · rw [hcached, Function.update_of_ne hne]
            exact fun hc => hc
        refine ⟨A, hi, h.holds.of_same hsame, ?_, h.objects, h.tables, h.columns, h.bound,
          fun hroom => h.counter (hroom.of_same (hsame _ (by decide))), h.names, h.created⟩
        intro j hj
        rw [List.mem_append, List.mem_singleton] at hj
        rcases hj with hj | rfl
        · exact h.ring j hj
        · exact hnew

/-- The invariant holds after bootstrap. -/
theorem catalogInv_init (hinit : catalogSystem.init s) :
    CatalogInv systemCatalog KDS_USER_OID_START.toNat s := by
  obtain ⟨hcreated, hoids, p, hring, hboot⟩ := hinit
  obtain ⟨hold, hnew⟩ := kds_catalog_bootstrap_ok hboot
  constructor
  · exact hold
  · intro id hid hmem
    have hsome := hring id hid
    rw [hnew id hmem] at hsome
    cases hsome
  · decide
  · decide
  · simp [systemCatalog]
  · omega
  · intro _
    rw [hoids]
  · intro row hrow
    obtain ⟨t, _, rfl⟩ := List.mem_map.mp hrow
    exact ⟨t.name, rfl⟩
  · rw [hcreated]
    simp

/-- **Every reachable state** is described by a catalog. -/
theorem catalogInv_of_reachable (h : catalogSystem.Reachable s) : ∃ A hi, CatalogInv A hi s := by
  apply h.invariant fun s => ∃ A hi, CatalogInv A hi s
  · intro s hinit
    exact ⟨_, _, catalogInv_init hinit⟩
  · rintro s act s' ⟨A, hi, hinv⟩ rfl
    exact hinv.step act

end step

/-! ## Section 3: Relations by oid -/

section reads

variable {p : Pool} {A : Catalog}

/-- A scan of a page that is in the pool leaves the pool as it was. -/
theorem HoldsRows.scanPage_eq {β : Type} {page_id : PageId} {rows : List (List UInt8)}
    (h : HoldsRows p page_id rows) {size : UInt16} (hsize : ∀ bs ∈ rows, bs.length = size.toNat)
    (pick : List UInt8 → Option β) :
    scanPage p page_id size pick =
      ((rows.findSome? pick).elim (.error .ENOENT) .ok, p) := by
  unfold scanPage
  rw [lookup_or_load_cached h.cached]
  dsimp only
  rw [frame_pin, h.rows.scan hsize, unpin_pin]
  cases rows.findSome? pick with
  | none => rfl
  | some out => rfl

/-- A scan for the first row with a property. -/
theorem findSome?_map_find? {α β γ : Type} {g : α → γ} {pick : γ → Option β} {q : α → Bool}
    {f : α → β} (h : ∀ a, pick (g a) = if q a then some (f a) else none) (l : List α) :
    (l.map g).findSome? pick = (l.find? q).map f := by
  induction l with
  | nil => rfl
  | cons a l ih =>
    rw [List.map_cons, List.findSome?_cons, h a]
    by_cases hq : q a
    · rw [if_pos hq, List.find?_cons_of_pos hq]
      rfl
    · rw [if_neg hq, List.find?_cons_of_neg hq]
      exact ih

theorem kds_catalog_get_sys_table_row_eq (h : CatalogHolds p A) (table_oid : UInt64) :
    kds_catalog_get_sys_table_row p table_oid =
      ((A.tables.find? fun row => row.oid = table_oid).elim (.error .ENOENT) .ok, p) := by
  have hsize : ∀ bs ∈ A.tables.map KdsSysTable.bytes, bs.length = (89 : UInt16).toNat := by
    intro bs hbs
    obtain ⟨row, _, rfl⟩ := List.mem_map.mp hbs
    rw [KdsSysTable.length_bytes]
    rfl
  unfold kds_catalog_get_sys_table_row
  rw [h.tables.scanPage_eq hsize,
    @findSome?_map_find? _ _ _ KdsSysTable.bytes _ (fun row => row.oid = table_oid) id ?_,
    Option.map_id_fun, id]
  intro row
  dsimp only
  rw [KdsSysTable.ofBytes_bytes]
  simp only [decide_eq_true_eq, id]

theorem kds_catalog_build_schema_eq (h : CatalogHolds p A) (rel_id : UInt64) :
    kds_catalog_build_schema_from_columns p rel_id =
      (match (columnsOf A.columns rel_id).take KDS_SCHEMA_MAX_COLUMNS with
        | [] => .error .ENOENT
        | cols => .ok cols, p) := by
  unfold kds_catalog_build_schema_from_columns
  rw [lookup_or_load_cached h.columns.cached]
  dsimp only
  rw [frame_pin, h.columns.rows.collect, unpin_pin]
  cases (columnsOf A.columns rel_id).take KDS_SCHEMA_MAX_COLUMNS with
  | nil => rfl
  | cons col cols => rfl

end reads

/-- What a schema says about a column. -/
structure ColumnDef where
  pos : UInt32
  name : List UInt8
  type_val : UInt32
  len : UInt32
  notnull : Bool

def KdsSysColumn.columnDef (col : KdsSysColumn) : ColumnDef where
  pos := col.pos
  name := (CatalogName.string col.name).bytes
  type_val := col.type_val
  len := col.len
  notnull := col.notnull

/-- The name cut to what a catalog name has room for. -/
def ColumnDef.cut (col : ColumnDef) : ColumnDef :=
  { col with name := col.name.take (KDS_CATALOG_NAME_MAX - 1) }

theorem columnRows_columnDef (oid new_oid : UInt64) (cols : List KdsSysColumn) :
    (columnRows oid new_oid cols).map KdsSysColumn.columnDef =
      cols.map fun col => col.columnDef.cut := by
  induction cols generalizing oid with
  | nil => rfl
  | cons col cols ih =>
    rw [columnRows, List.map_cons, List.map_cons, ih]
    congr 1
    unfold KdsSysColumn.columnDef ColumnDef.cut columnRow
    dsimp only
    rw [set_name_string]

theorem columnRows_length (oid new_oid : UInt64) (cols : List KdsSysColumn) :
    (columnRows oid new_oid cols).length = cols.length := by
  induction cols generalizing oid with
  | nil => rfl
  | cons col cols ih => rw [columnRows, List.length_cons, List.length_cons, ih]

/-- A kind of relation survives the byte it is stored in. -/
theorem clusteredType_toUInt8 {clustered_type : UInt32} (h : (clusteredType clustered_type).isSome) :
    clustered_type.toUInt8.toUInt32 = clustered_type := by
  unfold clusteredType at h
  split_ifs at h with hheap hbtree
  · rw [hheap]
    decide
  · rw [hbtree]
    decide
  · cases h

/-- **Opening by oid**. In every reachable state a table that was created with
    success opens, as what it was created as. -/
theorem kds_relation_open_created {s : CatalogSys} (h : catalogSystem.Reachable s) {t : Created}
    (ht : t ∈ s.created) :
    ∃ rel, kds_relation_open s.c.env.pool true t.oid = (.ok rel, s.c.env.pool) ∧
      rel.oid = t.oid ∧ rel.namespace_oid = t.namespace_oid ∧ rel.kind = t.clustered_type ∧
      rel.root_page_id = t.root ∧
      rel.schema.map KdsSysColumn.columnDef = t.schema.cols.map fun col => col.columnDef.cut := by
  obtain ⟨A, hi, hinv⟩ := catalogInv_of_reachable h
  have hcreated := hinv.created t ht
  obtain ⟨older, newer, holder, htable⟩ := hcreated.table
  obtain ⟨oid, hcolumns⟩ := hcreated.columns
  -- the first row with this oid is the table's own
  have hrow : (A.tables.find? fun row => row.oid = t.oid) =
      some (relationRow t.oid t.namespace_oid t.name t.root t.clustered_type) := by
    rw [htable, List.find?_append]
    have hnone : older.find? (fun row => decide (row.oid = t.oid)) = none := by
      apply List.find?_eq_none.mpr
      intro row hmem
      simpa using holder row hmem
    rw [hnone, Option.none_or, List.find?_cons_of_pos (by simp [relationRow])]
  have hfits : (columnRows oid t.oid t.schema.cols).length ≤ KDS_SCHEMA_MAX_COLUMNS := by
    rw [columnRows_length]
    exact t.schema.fits
  have hdefs := columnRows_columnDef oid t.oid t.schema.cols
  unfold kds_relation_open
  rw [kds_catalog_get_sys_table_row_eq hinv.holds, hrow]
  dsimp only [Option.elim]
  rw [if_neg (by simp), kds_catalog_build_schema_eq hinv.holds, hcolumns,
    List.take_of_length_le hfits]
  have hkind := clusteredType_toUInt8 hcreated.kind
  cases hcols : columnRows oid t.oid t.schema.cols with
  | nil =>
    rw [hcols] at hdefs
    exact ⟨_, rfl, rfl, rfl, hkind, rfl, hdefs⟩
  | cons col cols =>
    rw [hcols] at hdefs
    exact ⟨_, rfl, rfl, rfl, hkind, rfl, hdefs⟩

/-! ## Section 4: Tables by name -/

/-- The row is one that `kds_catalog_find_table_oid_by_name` looks for. -/
def namesTable (name : CString) (row : KdsSysObject) : Bool :=
  row.type_oid = KDS_OID_TYPE_TABLE ∧
    strncmpEq (CatalogName.string row.name) name KDS_CATALOG_NAME_MAX

theorem kds_catalog_find_table_oid_by_name_eq {p : Pool} {A : Catalog} (h : CatalogHolds p A)
    (name : CString) :
    kds_catalog_find_table_oid_by_name p name =
      (((A.objects.find? (namesTable name)).map KdsSysObject.oid).elim
        (.error .ENOENT) .ok, p) := by
  have hsize : ∀ bs ∈ A.objects.map KdsSysObject.bytes, bs.length = (96 : UInt16).toNat := by
    intro bs hbs
    obtain ⟨row, _, rfl⟩ := List.mem_map.mp hbs
    rw [KdsSysObject.length_bytes]
    rfl
  unfold kds_catalog_find_table_oid_by_name
  rw [h.objects.scanPage_eq hsize,
    @findSome?_map_find? _ _ _ KdsSysObject.bytes _ (namesTable name)
      KdsSysObject.oid ?_]
  intro row
  dsimp only
  rw [KdsSysObject.ofBytes_bytes]
  simp only [namesTable, decide_eq_true_eq]

/-- A stored name is found by the 63 characters that are left of it. -/
theorem strncmpEq_set_name (src name : CString) :
    strncmpEq (CatalogName.string (set_name src)) name KDS_CATALOG_NAME_MAX = true ↔
      name.bytes = src.bytes.take (KDS_CATALOG_NAME_MAX - 1) := by
  unfold strncmpEq
  rw [set_name_string, List.take_take, beq_iff_eq]
  have hmin : min KDS_CATALOG_NAME_MAX (KDS_CATALOG_NAME_MAX - 1) = KDS_CATALOG_NAME_MAX - 1 := by
    decide
  rw [hmin]
  constructor
  · intro heq
    have hlen := congrArg List.length heq
    simp only [List.length_take, KDS_CATALOG_NAME_MAX] at hlen
    rw [heq, List.take_of_length_le]
    simp only [KDS_CATALOG_NAME_MAX]
    omega
  · intro heq
    rw [heq, List.take_take, hmin]

/-- **Finding by name**. In every reachable state a table that was created with success
    is found by its name just if the name fits and no table had a row with it before. -/
theorem kds_catalog_find_created {s : CatalogSys} (h : catalogSystem.Reachable s) {t : Created}
    (ht : t ∈ s.created) :
    (kds_catalog_find_table_oid_by_name s.c.env.pool t.name).1 = .ok t.oid ↔
      t.name.bytes.length < KDS_CATALOG_NAME_MAX ∧
        ∀ row ∈ t.objects, row.type_oid = KDS_OID_TYPE_TABLE →
          (CatalogName.string row.name).bytes ≠ t.name.bytes := by
  obtain ⟨A, hi, hinv⟩ := catalogInv_of_reachable h
  have hcreated := hinv.created t ht
  obtain ⟨newer, hobject⟩ := hcreated.object
  rw [kds_catalog_find_table_oid_by_name_eq hinv.holds]
  dsimp only
  -- a row matches if it has the whole name, which then has 63 characters at most
  have hmatch : ∀ row ∈ A.objects, namesTable t.name row = true ↔
      row.type_oid = KDS_OID_TYPE_TABLE ∧
        (CatalogName.string row.name).bytes = t.name.bytes := by
    intro row hrow
    obtain ⟨src, hname⟩ := hinv.names row hrow
    unfold namesTable
    rw [decide_eq_true_eq, hname, strncmpEq_set_name, set_name_string]
    exact and_congr_right fun _ => eq_comm
  have hshort : ∀ row ∈ A.objects, namesTable t.name row = true →
      t.name.bytes.length < KDS_CATALOG_NAME_MAX := by
    intro row hrow hnames
    obtain ⟨src, hname⟩ := hinv.names row hrow
    have heq := ((hmatch row hrow).mp hnames).2
    rw [hname, set_name_string] at heq
    rw [← heq, List.length_take]
    simp only [KDS_CATALOG_NAME_MAX]
    omega
  have hown : objectRow t.oid t.namespace_oid KDS_OID_TYPE_TABLE t.name ∈ A.objects := by
    rw [hobject]
    simp
  have holder : ∀ row ∈ t.objects, row ∈ A.objects := by
    intro row hrow
    rw [hobject]
    exact List.mem_append_left _ hrow
  constructor
  · intro hfind
    cases hfirst : A.objects.find? (namesTable t.name) with
    | none =>
      rw [hfirst] at hfind
      cases hfind
    | some row =>
      rw [hfirst] at hfind
      have hrow : row.oid = t.oid := Except.ok.inj hfind
      refine ⟨hshort row (List.mem_of_find?_eq_some hfirst) (List.find?_some hfirst), ?_⟩
      intro row' hrow' htype heq
      -- the first match among the older rows would be what is found
      have hnames := (hmatch row' (holder row' hrow')).mpr ⟨htype, heq⟩
      cases hold : t.objects.find? (namesTable t.name) with
      | none => exact absurd hnames (by simpa using List.find?_eq_none.mp hold row' hrow')
      | some row'' =>
        rw [hobject, List.find?_append, hold, Option.some_or] at hfirst
        obtain rfl := Option.some.inj hfirst
        exact hcreated.object_fresh _ (List.mem_of_find?_eq_some hold) hrow
  · rintro ⟨hlen, hnone⟩
    have hold : t.objects.find? (namesTable t.name) = none := by
      apply List.find?_eq_none.mpr
      intro row hrow hnames
      obtain ⟨htype, heq⟩ := (hmatch row (holder row hrow)).mp hnames
      exact hnone row hrow htype heq
    have hnames : namesTable t.name
        (objectRow t.oid t.namespace_oid KDS_OID_TYPE_TABLE t.name) = true := by
      apply (hmatch _ hown).mpr
      refine ⟨rfl, ?_⟩
      unfold objectRow
      dsimp only
      rw [set_name_string, List.take_of_length_le]
      simp only [KDS_CATALOG_NAME_MAX] at hlen ⊢
      omega
    rw [hobject, List.find?_append, hold, Option.none_or, List.find?_cons_of_pos hnames]
    rfl

/-! ## Section 5: A boot with one table -/

/-- An empty disk, and a pool with one page, which is in the ring. -/
def bootDisk : Pool where
  superblock := none
  cached := fun id => if id = 100 then some (newFrame 100 KDS_PAGE_FLAG_ALLOC) else none
  refcnt := fun _ => 0
  disk := fun id => newFrame id 0
  fail := fun _ => none

/-- The pool after bootstrap. -/
def bootedPool : Pool :=
  match kds_catalog_bootstrap bootDisk with
  | .error _ => bootDisk
  | .ok pool => pool

def userBoot : CatalogSys where
  c :=
    { env := { pool := bootedPool, staged := [100], wal := newLog.wal, ticks := [] }
      oids := KDS_USER_OID_START }
  created := []

/-- A schema of one column. -/
def idSchema : KdsSchema where
  cols :=
    [{ oid := 0
       rel_id := 0
       pos := 0
       name := set_name ⟨ascii "id", by decide⟩
       type_val := KdsTypeVal.int64.code
       len := 8
       notnull := true }]
  fits := by decide

/-- `CREATE TABLE name (id int64) BTREE`. -/
def userTable (name : CString) : CatalogSys :=
  catalogStep userBoot (.createTable 1 name idSchema KDS_CLUSTERED_BTREE)

/-- The record of it. -/
def userCreated (name : CString) : Created where
  oid := 4001
  namespace_oid := 1
  name := name
  schema := idSchema
  clustered_type := KDS_CLUSTERED_BTREE
  root := 100
  objects := sysObjects bootedPool

theorem bootedPool_ok : kds_catalog_bootstrap bootDisk = .ok bootedPool := by
  have hok : (match kds_catalog_bootstrap bootDisk with
      | .error _ => false
      | .ok _ => true) = true := by decide +kernel
  unfold bootedPool
  cases hboot : kds_catalog_bootstrap bootDisk with
  | error e =>
    rw [hboot] at hok
    cases hok
  | ok pool => rfl

theorem userBoot_reachable : catalogSystem.Reachable userBoot := by
  apply System.Reachable.init
  refine ⟨rfl, rfl, bootDisk, ?_, bootedPool_ok⟩
  intro id hid
  obtain rfl : id = 100 := List.mem_singleton.mp hid
  rfl

theorem userTable_reachable (name : CString) : catalogSystem.Reachable (userTable name) :=
  .step (.createTable 1 name idSchema KDS_CLUSTERED_BTREE) userBoot_reachable rfl

theorem userTable_created {name : CString}
    (h : (kds_catalog_create_table userBoot.c 1 (some name) (some idSchema) KDS_CLUSTERED_BTREE true).1 =
      .ok 4001) :
    (userTable name).created = [userCreated name] := by
  unfold userTable catalogStep
  dsimp only
  rw [h]
  rfl

def accountsName : CString := ⟨ascii "accounts", by decide⟩
theorem typesName_no_nul : (0 : UInt8) ∉ ascii "types" := by decide

def typesName : CString := ⟨ascii "types", typesName_no_nul⟩

theorem kds_relation_open_created_accounts :
    ∃ rel, kds_relation_open (userTable accountsName).c.env.pool true 4001 =
        (.ok rel, (userTable accountsName).c.env.pool) ∧
      rel.oid = 4001 ∧ rel.namespace_oid = 1 ∧ rel.kind = KDS_CLUSTERED_BTREE ∧
      rel.root_page_id = 100 ∧
      rel.schema.map KdsSysColumn.columnDef = idSchema.cols.map fun col => col.columnDef.cut := by
  have hmem : userCreated accountsName ∈ (userTable accountsName).created := by
    rw [userTable_created (by decide +kernel)]
    exact List.mem_singleton_self _
  exact kds_relation_open_created (userTable_reachable accountsName) hmem

theorem kds_catalog_find_created_accounts :
    (kds_catalog_find_table_oid_by_name (userTable accountsName).c.env.pool accountsName).1 =
      .ok 4001 := by
  have hmem : userCreated accountsName ∈ (userTable accountsName).created := by
    rw [userTable_created (by decide +kernel)]
    exact List.mem_singleton_self _
  apply (kds_catalog_find_created (userTable_reachable accountsName) hmem).mpr
  exact ⟨by decide, by decide +kernel⟩

/-- A table may be given the name of a system table, and is not found by it then. -/
theorem types_table_shadowed : ∃ s, catalogSystem.Reachable s ∧ ∃ t ∈ s.created,
    (kds_catalog_find_table_oid_by_name s.c.env.pool t.name).1 = .ok 100 ∧ t.oid ≠ 100 := by
  refine ⟨userTable typesName, userTable_reachable typesName, userCreated typesName, ?_, ?_, ?_⟩
  · rw [userTable_created (by decide +kernel)]
    exact List.mem_singleton_self _
  · decide +kernel
  · decide

end Kds
