import Kds.Catalog.Pages
import Kds.Lib.Returns

/-! # Creations one after another

    A creation takes an oid, and then inserts rows until one of them finds no
    room. Rows are never taken back: a creation that fails midway leaves what
    it has inserted. What keeps relations apart is that every row bears the
    oid of its creation, and that this oid is new.

    The oid counter may wrap. It does not while `sys.objects` has room, for
    a page has fewer than 2^16 rows and a creation takes at most 33 oids; and
    once that page is full no creation gets past its first row.
-/

open Bytes Fallible

namespace Kds

/-! ## Section 1: What a creation does -/

/-- The column rows of a new table: each has an oid of its own. -/
def columnRows (oid new_oid : UInt64) : List KdsSysColumn → List KdsSysColumn
  | [] => []
  | col :: cols => columnRow (oid + 1) new_oid col :: columnRows (oid + 1) new_oid cols

/-- Rows of creation `oid` behind the others. -/
structure Catalog.Grown (A A' : Catalog) (obj : KdsSysObject) : Prop where
  objects : A'.objects = A.objects ++ [obj]
  tables : ∃ rows, A'.tables = A.tables ++ rows ∧ ∀ row ∈ rows, row.oid = obj.oid
  columns : ∃ rows, A'.columns = A.columns ++ rows ∧ ∀ row ∈ rows, row.rel_id = obj.oid

/-- The most oids a creation takes: one for itself and one for each column. -/
abbrev maxOids : Nat := KDS_SCHEMA_MAX_COLUMNS + 1

/-- How a creation may end; `Made` is what else holds when it succeeds. -/
inductive CreateOutcome (c c' : CatalogEnv) (A : Catalog) (obj : KdsSysObject)
    (Made : Catalog → Prop) (res : Except Errno UInt64) : Prop where
  /-- It failed before it took an oid. -/
  | early (e : Errno) : res = .error e → (∀ id ∈ rowPages, SamePage c.env.pool c'.env.pool id) →
      c'.oids = c.oids → CreateOutcome c c' A obj Made res
  /-- `sys.objects` is full. -/
  | full (e : Errno) : res = .error e → (∀ id ∈ rowPages, SamePage c.env.pool c'.env.pool id) →
      ¬ ObjectRoom c.env.pool → CreateOutcome c c' A obj Made res
  /-- It inserted its first row. -/
  | grown (A' : Catalog) (n : Nat) : ObjectRoom c.env.pool → CatalogHolds c'.env.pool A' →
      A.Grown A' obj → 1 ≤ n → n ≤ maxOids → c'.oids = c.oids + UInt64.ofNat n →
      (∀ oid, res = .ok oid → oid = obj.oid ∧ Made A') → CreateOutcome c c' A obj Made res

theorem ObjectRoom.of_same {p p' : Pool} (h : ObjectRoom p')
    (hsame : SamePage p p' KDS_CATALOG_PAGE_OBJECTS) : ObjectRoom p := by
  unfold ObjectRoom at h ⊢
  rwa [hsame.frame] at h

section create

variable {c c' : CatalogEnv} {A : Catalog}

/-- **The columns** are inserted in order, up to the first without room. -/
theorem insertColumns_cases {new_oid : UInt64} {cols : List KdsSysColumn}
    {res : Except Errno Unit} (h : CatalogHolds c.env.pool A)
    (hins : insertColumns c new_oid cols = (res, c')) :
    c'.env.staged = c.env.staged ∧
      ∃ rows n, CatalogHolds c'.env.pool { A with columns := A.columns ++ rows } ∧
        (∀ row ∈ rows, row.rel_id = new_oid) ∧ n ≤ cols.length ∧
        c'.oids = c.oids + UInt64.ofNat n ∧
        (res = .ok () → rows = columnRows c.oids new_oid cols) := by
  induction cols generalizing c A with
  | nil =>
    obtain ⟨rfl, rfl⟩ := Prod.mk.inj hins
    refine ⟨rfl, [], 0, ?_, by simp, Nat.le_refl _, by simp, fun _ => rfl⟩
    rw [List.append_nil]
    exact h
  | cons col cols ih =>
    unfold insertColumns kds_catalog_generate_user_oid insert_sys_column_row at hins
    dsimp only at hins
    cases hrow : insertCatalogRow c.env.pool (columnRow (c.oids + 1) new_oid col).row with
    | mk r pool =>
      rw [hrow] at hins
      obtain ⟨_, ⟨e, rfl, hold⟩ | ⟨tid, rfl, hold⟩⟩ := insert_column_row_cases h hrow
      -- there is no room: the oid is spent, and the columns before stay
      · obtain ⟨rfl, rfl⟩ := Prod.mk.inj hins
        refine ⟨rfl, [], 1, ?_, by simp, by simp, rfl, by simp⟩
        rw [List.append_nil]
        exact hold
      -- the row is in, and the rest begins one oid later
      · obtain ⟨hstaged, rows, n, hold', hrel, hn, hoids, hrows⟩ := ih hold hins
        refine ⟨hstaged, columnRow (c.oids + 1) new_oid col :: rows, n + 1, ?_, ?_, ?_, ?_, ?_⟩
        · rw [List.append_assoc] at hold'
          exact hold'
        · intro row hmem
          rcases List.mem_cons.mp hmem with rfl | hmem
          · rfl
          · exact hrel row hmem
        · simpa using hn
        · rw [hoids]
          show c.oids + 1 + UInt64.ofNat n = _
          rw [UInt64.ofNat_add, UInt64.add_assoc, UInt64.add_comm 1]
          rfl
        · intro hok
          rw [hrows hok]
          rfl

/-- The rows of a table that was created with success. -/
def TableMade (A : Catalog) (oids namespace_oid : UInt64) (name : CString) (schema : KdsSchema)
    (clustered_type : UInt32) (root : PageId) (A' : Catalog) : Prop :=
  A'.tables = A.tables ++ [relationRow (oids + 1) namespace_oid name root clustered_type] ∧
    ∃ oid, A'.columns = A.columns ++ columnRows oid (oids + 1) schema.cols

theorem insertTableRows_cases {namespace_oid : UInt64} {name : CString} {schema : KdsSchema}
    {clustered_type : UInt32} {root : PageId} {res : Except Errno UInt64}
    (h : CatalogHolds c.env.pool A)
    (hins : insertTableRows c namespace_oid name schema clustered_type root = (res, c')) :
    c'.env.staged = c.env.staged ∧
      CreateOutcome c c' A (objectRow (c.oids + 1) namespace_oid KDS_OID_TYPE_TABLE name)
        (TableMade A c.oids namespace_oid name schema clustered_type root) res := by
  unfold insertTableRows kds_catalog_generate_user_oid kds_catalog_insert_object_row
    kds_catalog_insert_relation_row at hins
  dsimp only at hins
  cases hobj : insertCatalogRow c.env.pool
      (objectRow (c.oids + 1) namespace_oid KDS_OID_TYPE_TABLE name).row with
  | mk r pool =>
    rw [hobj] at hins
    -- without the object row nothing has changed
    obtain ⟨e, rfl, hroom, hsame⟩ | ⟨tid, rfl, hroom, hold⟩ := insert_object_row_cases h hobj
    · obtain ⟨rfl, rfl⟩ := Prod.mk.inj hins
      exact ⟨rfl, .full e rfl (fun id _ => hsame id) hroom⟩
    dsimp only [CatalogEnv.setPool] at hins
    cases hrel : insertCatalogRow pool
        (relationRow (c.oids + 1) namespace_oid name root clustered_type).row with
    | mk r pool' =>
      rw [hrel] at hins
      obtain ⟨_, ⟨e, rfl, hold'⟩ | ⟨tid', rfl, hold'⟩⟩ := insert_relation_row_cases hold hrel
      -- the object row stays although the call fails
      · obtain ⟨rfl, rfl⟩ := Prod.mk.inj hins
        refine ⟨rfl, .grown _ 1 hroom hold' ⟨rfl, ⟨[], ?_, by simp⟩, ⟨[], ?_, by simp⟩⟩
          (Nat.le_refl _) (by decide) rfl (by simp)⟩
        · exact (List.append_nil _).symm
        · exact (List.append_nil _).symm
      dsimp only at hins
      cases hcols : insertColumns
          { env := { c.env with pool := pool' }, oids := c.oids + 1 } (c.oids + 1) schema.cols with
      | mk r c'' =>
        rw [hcols] at hins
        obtain ⟨hstaged, rows, n, hold'', hrows, hn, hoids, hmade⟩ := insertColumns_cases hold' hcols
        have hfits := schema.fits
        have hcount : c''.oids = c.oids + UInt64.ofNat (n + 1) := by
          rw [hoids]
          show c.oids + 1 + UInt64.ofNat n = _
          rw [UInt64.ofNat_add, UInt64.add_assoc, UInt64.add_comm 1]
          rfl
        -- whatever becomes of the columns, the first two rows are there
        have hgrown : A.Grown
            { objects := A.objects ++ [objectRow (c.oids + 1) namespace_oid KDS_OID_TYPE_TABLE name]
              tables := A.tables ++
                [relationRow (c.oids + 1) namespace_oid name root clustered_type]
              columns := A.columns ++ rows }
            (objectRow (c.oids + 1) namespace_oid KDS_OID_TYPE_TABLE name) :=
          ⟨rfl, ⟨_, rfl, by simp [relationRow, objectRow]⟩, ⟨rows, rfl, hrows⟩⟩
        cases r with
        | error e =>
          obtain ⟨rfl, rfl⟩ := Prod.mk.inj hins
          exact ⟨hstaged, .grown _ (n + 1) hroom hold'' hgrown (by omega) (by simp only [maxOids]; omega)
            hcount (by simp)⟩
        | ok u =>
          obtain ⟨rfl, rfl⟩ := Prod.mk.inj hins
          refine ⟨hstaged, .grown _ (n + 1) hroom hold'' hgrown (by omega)
            (by simp only [maxOids]; omega) hcount ?_⟩
          intro oid hok
          refine ⟨(Except.ok.inj hok).symm, rfl, c.oids + 1, ?_⟩
          dsimp only
          rw [hmade rfl]

theorem insertIndexRows_cases {namespace_oid : UInt64} {name : CString} {root : PageId}
    {res : Except Errno UInt64} (h : CatalogHolds c.env.pool A)
    (hins : insertIndexRows c namespace_oid name root = (res, c')) :
    c'.env.staged = c.env.staged ∧
      CreateOutcome c c' A (objectRow (c.oids + 1) namespace_oid KDS_OID_TYPE_INDEX name)
        (fun _ => True) res := by
  unfold insertIndexRows kds_catalog_generate_user_oid kds_catalog_insert_object_row
    kds_catalog_insert_relation_row at hins
  dsimp only at hins
  cases hobj : insertCatalogRow c.env.pool
      (objectRow (c.oids + 1) namespace_oid KDS_OID_TYPE_INDEX name).row with
  | mk r pool =>
    rw [hobj] at hins
    obtain ⟨e, rfl, hroom, hsame⟩ | ⟨tid, rfl, hroom, hold⟩ := insert_object_row_cases h hobj
    · obtain ⟨rfl, rfl⟩ := Prod.mk.inj hins
      exact ⟨rfl, .full e rfl (fun id _ => hsame id) hroom⟩
    dsimp only [CatalogEnv.setPool] at hins
    cases hrel : insertCatalogRow pool
        (relationRow (c.oids + 1) namespace_oid name root KDS_CLUSTERED_BTREE).row with
    | mk r pool' =>
      rw [hrel] at hins
      obtain ⟨_, ⟨e, rfl, hold'⟩ | ⟨tid', rfl, hold'⟩⟩ := insert_relation_row_cases hold hrel
      · obtain ⟨rfl, rfl⟩ := Prod.mk.inj hins
        refine ⟨rfl, .grown _ 1 hroom hold' ⟨rfl, ⟨[], ?_, by simp⟩, ⟨[], ?_, by simp⟩⟩
          (Nat.le_refl _) (by decide) rfl (by simp)⟩
        · exact (List.append_nil _).symm
        · exact (List.append_nil _).symm
      · obtain ⟨rfl, rfl⟩ := Prod.mk.inj hins
        refine ⟨rfl, .grown _ 1 hroom hold'
          ⟨rfl, ⟨_, rfl, by simp [relationRow, objectRow]⟩, ⟨[], ?_, by simp⟩⟩
          (Nat.le_refl _) (by decide) rfl fun oid hok => ⟨(Except.ok.inj hok).symm, trivial⟩⟩
        exact (List.append_nil _).symm

/-- The root of a new relation comes from the ring; the catalog pages do not. -/
theorem allocRoot_cases {kind : ClusteredType} {res : Option PageId}
    (hring : ∀ id ∈ c.env.staged, id ∉ rowPages) (h : allocRoot c kind = (res, c')) :
    (∀ id ∈ rowPages, SamePage c.env.pool c'.env.pool id) ∧ c'.oids = c.oids ∧
      (∀ id ∈ c'.env.staged, id ∈ c.env.staged) ∧
      (∀ id, (c.env.pool.cached id).isSome → (c'.env.pool.cached id).isSome) ∧
      ∀ root, res = some root → c.env.staged.head? = some root := by
  unfold allocRoot kds_page_alloc at h
  cases hstaged : c.env.staged with
  | nil =>
    rw [hstaged] at h
    obtain ⟨rfl, rfl⟩ := Prod.mk.inj h
    exact ⟨fun id _ => .refl _ id, rfl, by simp [hstaged], fun _ hc => hc, by simp⟩
  | cons frame staged =>
    rw [hstaged] at h hring
    obtain ⟨rfl, rfl⟩ := Prod.mk.inj h
    have hsame : ∀ id ∈ rowPages, id ≠ frame := by
      rintro id hid rfl
      exact hring id List.mem_cons_self hid
    refine ⟨fun id hid => ?_, rfl, fun id hid => List.mem_cons_of_mem _ hid, fun id hc => ?_,
      fun root hroot => by simpa using hroot⟩
    · exact (samePage_setFrame _ (hsame id hid)).trans (samePage_setFrame _ (hsame id hid))
    · exact Pool.loaded_setFrame (Pool.loaded_setFrame hc)

/-- Unpinning the root at the end changes no page. -/
theorem CreateOutcome.unpin {obj : KdsSysObject} {Made : Catalog → Prop}
    {res : Except Errno UInt64} (h : CreateOutcome c c' A obj Made res) (root : PageId) :
    CreateOutcome c (c'.unpin root) A obj Made res := by
  cases h with
  | early e hres hsame hoids =>
    exact .early e hres (fun id hid => (hsame id hid).trans (samePage_unpin _ _ _)) hoids
  | full e hres hsame hroom =>
    exact .full e hres (fun id hid => (hsame id hid).trans (samePage_unpin _ _ _)) hroom
  | grown A' n hroom hold hgrown hpos hn hoids hmade =>
    exact .grown A' n hroom (hold.of_same fun id _ => samePage_unpin _ _ _) hgrown hpos hn hoids
      hmade

/-- Nothing happened to the catalog before. -/
theorem CreateOutcome.after {c₀ : CatalogEnv} {obj : KdsSysObject} {Made : Catalog → Prop}
    {res : Except Errno UInt64} (h : CreateOutcome c c' A obj Made res)
    (hsame : ∀ id ∈ rowPages, SamePage c₀.env.pool c.env.pool id) (hoids : c.oids = c₀.oids) :
    CreateOutcome c₀ c' A obj Made res := by
  have hobjects := hsame KDS_CATALOG_PAGE_OBJECTS (by decide)
  cases h with
  | early e hres hsame' hoids' =>
    exact .early e hres (fun id hid => (hsame id hid).trans (hsame' id hid)) (hoids'.trans hoids)
  | full e hres hsame' hroom =>
    refine .full e hres (fun id hid => (hsame id hid).trans (hsame' id hid)) fun hroom₀ => hroom ?_
    unfold ObjectRoom at hroom₀ ⊢
    rwa [hobjects.frame]
  | grown A' n hroom hold hgrown hpos hn hoids' hmade =>
    exact .grown A' n (hroom.of_same hobjects) hold hgrown hpos hn (by rw [hoids', hoids]) hmade

theorem CreateOutcome.imp {obj : KdsSysObject} {Made Made' : Catalog → Prop}
    {res : Except Errno UInt64} (h : CreateOutcome c c' A obj Made res)
    (himp : ∀ A', Made A' → Made' A') : CreateOutcome c c' A obj Made' res := by
  cases h with
  | early e hres hsame hoids => exact .early e hres hsame hoids
  | full e hres hsame hroom => exact .full e hres hsame hroom
  | grown A' n hroom hold hgrown hpos hn hoids hmade =>
    refine .grown A' n hroom hold hgrown hpos hn hoids fun oid hres => ?_
    exact ⟨(hmade oid hres).1, himp A' (hmade oid hres).2⟩

/-- **Creating a table**. -/
theorem kds_catalog_create_table_cases {namespace_oid : UInt64} {name : CString}
    {schema : KdsSchema} {clustered_type : UInt32} {res : Except Errno UInt64}
    (h : CatalogHolds c.env.pool A) (hring : ∀ id ∈ c.env.staged, id ∉ rowPages)
    (hcall : kds_catalog_create_table c namespace_oid (some name) (some schema) clustered_type true =
      (res, c')) :
    (∀ id ∈ c'.env.staged, id ∈ c.env.staged) ∧
      CreateOutcome c c' A (objectRow (c.oids + 1) namespace_oid KDS_OID_TYPE_TABLE name)
        (fun A' => (clusteredType clustered_type).isSome ∧ ∃ root, c.env.staged.head? = some root ∧
          TableMade A c.oids namespace_oid name schema clustered_type root A') res := by
  change createTable c namespace_oid name schema clustered_type = (res, c') at hcall
  unfold createTable at hcall
  cases hkind : clusteredType clustered_type with
  | none =>
    rw [hkind] at hcall
    obtain ⟨rfl, rfl⟩ := Prod.mk.inj hcall
    exact ⟨fun _ hid => hid, .early _ rfl (fun id _ => .refl _ id) rfl⟩
  | some kind =>
    rw [hkind] at hcall
    dsimp only at hcall
    cases halloc : allocRoot c kind with
    | mk root? c₁ =>
      rw [halloc] at hcall
      obtain ⟨hsame, hoids, hstaged, _, hroot⟩ := allocRoot_cases hring halloc
      cases root? with
      | none =>
        obtain ⟨rfl, rfl⟩ := Prod.mk.inj hcall
        exact ⟨hstaged, .early _ rfl hsame hoids⟩
      | some root =>
        dsimp only at hcall
        cases hrows : insertTableRows c₁ namespace_oid name schema clustered_type root with
        | mk ret c₂ =>
          rw [hrows] at hcall
          obtain ⟨rfl, rfl⟩ := Prod.mk.inj hcall
          obtain ⟨hstaged', hout⟩ := insertTableRows_cases (h.of_same hsame) hrows
          rw [hoids] at hout
          refine ⟨fun id hid => hstaged id (hstaged' ▸ hid), ?_⟩
          have hout := (hout.unpin root).after hsame hoids
          exact hout.imp fun A' hmade => ⟨rfl, root, hroot root rfl, hmade⟩

/-- **Creating an index**. -/
theorem kds_relation_create_index_cases {namespace_oid table_oid : UInt64} {target_col : CString}
    {res : Except Errno UInt64} (h : CatalogHolds c.env.pool A)
    (hring : ∀ id ∈ c.env.staged, id ∉ rowPages)
    (hcall : kds_relation_create_index c namespace_oid table_oid (some target_col) true = (res, c')) :
    (∀ id ∈ c'.env.staged, id ∈ c.env.staged) ∧
      ∃ name, CreateOutcome c c' A (objectRow (c.oids + 1) namespace_oid KDS_OID_TYPE_INDEX name)
        (fun _ => True) res := by
  change createIndex c namespace_oid table_oid target_col = (res, c') at hcall
  unfold createIndex at hcall
  cases halloc : allocRoot c .btree with
  | mk root? c₁ =>
    rw [halloc] at hcall
    obtain ⟨hsame, hoids, hstaged, _, _⟩ := allocRoot_cases hring halloc
    cases root? with
    | none =>
      obtain ⟨rfl, rfl⟩ := Prod.mk.inj hcall
      exact ⟨hstaged, ⟨[], by simp⟩, .early _ rfl hsame hoids⟩
    | some root =>
      dsimp only at hcall
      cases hrows : insertIndexRows c₁ namespace_oid
          (scnprintf KDS_CATALOG_NAME_MAX (indexName target_col table_oid)).2 root with
      | mk ret c₂ =>
        rw [hrows] at hcall
        obtain ⟨rfl, rfl⟩ := Prod.mk.inj hcall
        obtain ⟨hstaged', hout⟩ := insertIndexRows_cases (h.of_same hsame) hrows
        rw [hoids] at hout
        exact ⟨fun id hid => hstaged id (hstaged' ▸ hid), _, (hout.unpin root).after hsame hoids⟩

end create

/-! ## Section 2: Bootstrap -/

section bootstrap

variable {p p' : Pool}

/-- A row changes no page but its own. -/
theorem insertCatalogRow_same {row : CatalogRow} {res : Except Errno HeapTid}
    (h : insertCatalogRow p row = (res, p')) {id : PageId} (hid : id ≠ row.page_id) :
    SamePage p p' id := by
  unfold insertCatalogRow at h
  cases hload : kds_buf_lookup_or_load p row.page_id with
  | mk r p₁ =>
    rw [hload] at h
    obtain ⟨hload', hok⟩ := lookup_or_load_loadOnly hload
    have hsame : SamePage p p₁ id :=
      ⟨congrFun hload'.frame id, fun hc => lookup_or_load_keeps hload id hc⟩
    cases r with
    | error e =>
      obtain ⟨rfl, rfl⟩ := Prod.mk.inj h
      exact hsame
    | ok frame =>
      obtain ⟨rfl, rfl⟩ := Prod.mk.inj h
      rw [(hok frame rfl).1]
      exact (hsame.trans (samePage_setFrame _ hid)).trans (samePage_unpin _ _ _)

theorem insertCatalogRows_same {rows : List CatalogRow} {res : Except Errno Unit}
    (h : insertCatalogRows p rows = (res, p')) {id : PageId} (hid : ∀ row ∈ rows, id ≠ row.page_id) :
    SamePage p p' id := by
  induction rows generalizing p with
  | nil =>
    obtain ⟨_, rfl⟩ := Prod.mk.inj h
    exact .refl p id
  | cons row rows ih =>
    unfold insertCatalogRows at h
    cases hrow : insertCatalogRow p row with
    | mk r p₁ =>
      rw [hrow] at h
      have hsame := insertCatalogRow_same hrow (hid row List.mem_cons_self)
      cases r with
      | error e =>
        obtain ⟨_, rfl⟩ := Prod.mk.inj h
        exact hsame
      | ok tid => exact hsame.trans (ih h fun row' hmem => hid row' (List.mem_cons_of_mem _ hmem))

/-- **A new catalog page** was not in the pool, and has no rows. -/
theorem bootstrap_one_catalog_page_ok {id : PageId}
    (h : bootstrap_one_catalog_page p id = (.ok (), p')) :
    p.cached id = none ∧ HoldsRows p' id [] ∧ ∀ j ≠ id, SamePage p p' j := by
  unfold bootstrap_one_catalog_page at h
  cases halloc : kds_buf_alloc_new p id with
  | mk r p₁ =>
    rw [halloc] at h
    obtain ⟨_, _, hok⟩ := alloc_new_cases halloc
    cases r with
    | error e => cases (Prod.mk.inj h).1
    | ok frame =>
      obtain ⟨rfl, hnone, _, hcached⟩ := hok frame rfl
      obtain ⟨_, rfl⟩ := Prod.mk.inj h
      refine ⟨hnone, ⟨Pool.loaded_setFrame ?_, ?_⟩, fun j hj => ⟨?_, fun hc => ?_⟩⟩
      · rw [hcached, Function.update_self]
        rfl
      · rw [frame_unpin, Pool.frame_setFrame_self]
        exact pageRows_init _
      · rw [frame_unpin, Pool.frame_setFrame_ne _ _ hj, alloc_new_frame halloc hj]
      · apply Pool.loaded_setFrame
        rwa [hcached, Function.update_of_ne hj]

/-- Phase 1. -/
theorem bootstrapPages_ok {ids : List PageId} (hids : ids.Nodup)
    (h : bootstrapPages p ids = .ok p') :
    (∀ id ∈ ids, p.cached id = none ∧ HoldsRows p' id []) ∧ ∀ j ∉ ids, SamePage p p' j := by
  induction ids generalizing p with
  | nil =>
    obtain rfl := Except.ok.inj h
    exact ⟨by simp, fun j _ => .refl p j⟩
  | cons id ids ih =>
    unfold bootstrapPages at h
    obtain ⟨hnot, hids⟩ := List.nodup_cons.mp hids
    cases hpage : bootstrap_one_catalog_page p id with
    | mk r p₁ =>
      rw [hpage] at h
      cases r with
      | error e => cases h
      | ok u =>
        obtain ⟨hnone, hrows, hsame⟩ := bootstrap_one_catalog_page_ok hpage
        obtain ⟨hpages, hsame'⟩ := ih hids h
        constructor
        · intro id' hid'
          rcases List.mem_cons.mp hid' with rfl | hmem
          · exact ⟨hnone, (hsame' _ hnot).holdsRows hrows⟩
          · obtain ⟨hnone', hrows'⟩ := hpages id' hmem
            have hne : id' ≠ id := by
              rintro rfl
              exact hnot hmem
            refine ⟨?_, hrows'⟩
            -- what is not in the pool now was not in it before
            by_contra hsome
            have := (hsame id' hne).cached (Option.isSome_iff_ne_none.mpr hsome)
            rw [hnone'] at this
            cases this
        · intro j hj
          obtain ⟨hj, hj'⟩ := not_or.mp (mt List.mem_cons.mpr hj)
          exact (hsame j hj).trans (hsame' j hj')

/-- Phase 2. -/
theorem insert_object_rows {A : Catalog} {rows : List KdsSysObject} (h : CatalogHolds p A)
    (hins : insertCatalogRows p (rows.map KdsSysObject.row) = (.ok (), p')) :
    CatalogHolds p' { A with objects := A.objects ++ rows } := by
  induction rows generalizing p A with
  | nil =>
    obtain ⟨_, rfl⟩ := Prod.mk.inj hins
    rw [List.append_nil]
    exact h
  | cons row rows ih =>
    rw [List.map_cons] at hins
    unfold insertCatalogRows at hins
    cases hrow : insertCatalogRow p row.row with
    | mk r p₁ =>
      rw [hrow] at hins
      obtain ⟨e, rfl, _, _⟩ | ⟨tid, rfl, _, hold⟩ := insert_object_row_cases h hrow
      · cases (Prod.mk.inj hins).1
      · have hold' := ih hold hins
        rw [List.append_assoc] at hold'
        exact hold'

theorem insert_relation_rows {A : Catalog} {rows : List KdsSysTable} (h : CatalogHolds p A)
    (hins : insertCatalogRows p (rows.map KdsSysTable.row) = (.ok (), p')) :
    CatalogHolds p' { A with tables := A.tables ++ rows } := by
  induction rows generalizing p A with
  | nil =>
    obtain ⟨_, rfl⟩ := Prod.mk.inj hins
    rw [List.append_nil]
    exact h
  | cons row rows ih =>
    rw [List.map_cons] at hins
    unfold insertCatalogRows at hins
    cases hrow : insertCatalogRow p row.row with
    | mk r p₁ =>
      rw [hrow] at hins
      obtain ⟨_, ⟨e, rfl, _⟩ | ⟨tid, rfl, hold⟩⟩ := insert_relation_row_cases h hrow
      · cases (Prod.mk.inj hins).1
      · have hold' := ih hold hins
        rw [List.append_assoc] at hold'
        exact hold'

/-- The rows of phase 4 go to `sys.types`. -/
theorem typeRow_page_id {types : List (UInt64 × CString)} {rows : List CatalogRow}
    (h : types.mapM typeRow = some rows) : ∀ row ∈ rows, row.page_id = KDS_CATALOG_PAGE_TYPES := by
  induction types generalizing rows with
  | nil =>
    obtain rfl : [] = rows := by simpa using h
    simp
  | cons type types ih =>
    rw [List.mapM_cons] at h
    obtain ⟨row, hrow, h⟩ := Option.bind_eq_some_iff.mp h
    obtain ⟨rest, hrest, h⟩ := Option.bind_eq_some_iff.mp h
    obtain rfl : row :: rest = rows := Option.some.inj h
    intro row' hmem
    rcases List.mem_cons.mp hmem with rfl | hmem
    · unfold typeRow at hrow
      obtain ⟨desc, _, rfl⟩ := Option.map_eq_some_iff.mp hrow
      rfl
    · exact ih hrest row' hmem

/-- The catalog of the system tables. -/
def systemCatalog : Catalog where
  objects := sys_tables.map fun t =>
    objectRow t.oid KDS_OID_NAMESPACE_SYS KDS_OID_TYPE_TABLE t.name
  tables := sys_tables.map fun t =>
    relationRow t.oid KDS_OID_NAMESPACE_SYS t.name t.page_id KDS_CLUSTERED_HEAP
  columns := []

theorem bootstrapRows_ok {rows : List CatalogRow} (h : bootstrapRows p rows = .ok p') :
    insertCatalogRows p rows = (.ok (), p') := by
  unfold bootstrapRows at h
  cases hins : insertCatalogRows p rows with
  | mk r p₁ =>
    rw [hins] at h
    cases r with
    | error e => cases h
    | ok u =>
      obtain rfl := Except.ok.inj h
      rfl

/-- **Bootstrap** makes the catalog of the system tables, on pages that were not in the pool. -/
theorem kds_catalog_bootstrap_ok (h : kds_catalog_bootstrap p = .ok p') :
    CatalogHolds p' systemCatalog ∧ ∀ id ∈ rowPages, p.cached id = none := by
  unfold kds_catalog_bootstrap at h
  obtain ⟨p₁, hpages, h⟩ := exists_of_bind_ok h
  obtain ⟨p₂, hobjects, h⟩ := exists_of_bind_ok h
  obtain ⟨p₃, htables, h⟩ := exists_of_bind_ok h
  obtain ⟨hnew, _⟩ := bootstrapPages_ok (by decide) hpages
  have hempty : CatalogHolds p₁ ⟨[], [], []⟩ :=
    ⟨(hnew _ (by decide)).2, (hnew _ (by decide)).2, (hnew _ (by decide)).2⟩
  have hold₁ := @insert_object_rows _ _ _ systemCatalog.objects hempty (bootstrapRows_ok hobjects)
  have hold₂ := @insert_relation_rows _ _ _ systemCatalog.tables hold₁ (bootstrapRows_ok htables)
  constructor
  · cases htypes : bootstrapTypes.mapM typeRow with
    | none =>
      rw [htypes] at h
      cases h
    | some rows =>
      rw [htypes] at h
      refine hold₂.of_same fun id hid => insertCatalogRows_same (bootstrapRows_ok h) fun row hrow => ?_
      rw [typeRow_page_id htypes row hrow]
      rintro rfl
      revert hid
      decide
  · intro id hid
    refine (hnew id ?_).1
    revert hid
    simp only [rowPages, List.mem_cons, List.not_mem_nil, or_false]
    rintro (rfl | rfl | rfl) <;> decide

end bootstrap

end Kds
