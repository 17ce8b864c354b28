import Kds.Catalog.Relations

/-! # Creations that fail

    `kds_catalog_create_table` inserts an object row, a relation row and the
    column rows, each in a page of its own, and when one of them cannot be
    inserted it returns the error without taking back the others. A creation
    that fails is all or nothing if it does not get past its first row.

    The catalog is taken as it may be found on any disk: the pages need not be
    in the pool, a load may fail, and their slots may be dead or alive. What
    decides is how many rows fit on each page.
-/

open Bytes Lts

namespace Kds

/-! ## Section 1: One row -/

/-- The bytes between the slot directory and the tuples. -/
def freeBytes (f : Frame) : Nat := (heapMeta f.page).upper.toNat - (heapMeta f.page).lower.toNat

/-- What a row of `n` bytes takes: a slot, a tuple header and the row. -/
abbrev rowSpace (n : Nat) : Nat := KDS_HEAP_SLOT_SIZE + KDS_HEAP_TUPLE_HDR_SIZE + n

/-- **An insert** goes through exactly if the row fits. -/
theorem heap_insert_row_cases {f f' : Frame} {d : Mem} {n : UInt16} {res : Except Errno HeapTid}
    (hinv : HeapInv f.page) (hn : n.toNat ≤ KDS_PAGE_SIZE)
    (h : heap_insert_tuple f (some d) n KDS_BOOTSTRAP_XID = (res, f')) :
    (∃ e, res = .error e ∧ freeBytes f < rowSpace n.toNat ∧ f' = f) ∨
      (∃ tid, res = .ok tid ∧ HeapInv f'.page ∧
        freeBytes f' + rowSpace n.toNat = freeBytes f ∧ ∃ t, liveRows f' = liveRows f ++ [t]) := by
  have hle := hinv.lower_le
  obtain ⟨hkept, ⟨e, rfl, hsame⟩ | ⟨tid, rfl, _, _, htable⟩⟩ := heap_insert_table hinv h
  · refine .inl ⟨e, rfl, ?_, hsame⟩
    -- the page has room as the code computes it if it has room at all
    have hroom := heap_insert_row_error hn h
    by_contra hfits
    refine hroom ?_
    unfold freeBytes at hfits
    unfold Room is_heap_insert_possible heapNeeded
    rw [decide_eq_true_eq, ge_iff_le, UInt16.le_iff_toNat_le, UInt16.toNat_ofNat',
      UInt16.toNat_sub_of_le _ _ (UInt16.le_iff_toNat_le.mpr hle)]
    exact Nat.le_trans (Nat.mod_le _ _) (Nat.le_of_not_lt hfits)
  · refine .inr ⟨tid, rfl, hkept.inv, ?_, _, liveRows_append htable⟩
    obtain ⟨_, heffect⟩ := heap_insert_effect hinv h
    have hroom := heffect.room
    have hlower := heffect.lower
    have hupper := heffect.upper
    unfold freeBytes rowSpace
    simp only [KDS_HEAP_SLOT_SIZE, KDS_HEAP_TUPLE_HDR_SIZE] at hroom hupper ⊢
    omega

/-- **A row for a catalog page** goes in exactly if the page can be loaded and the row fits. -/
theorem insertCatalogRow_iff {p p' : Pool} {d : Mem} {res : Except Errno HeapTid}
    (page_id : PageId) (n : UInt16) (hinv : HeapInv (p.frame page_id).page)
    (hn : n.toNat ≤ KDS_PAGE_SIZE) (h : insertCatalogRow p ⟨page_id, d, n⟩ = (res, p')) :
    RowElsewhere p p' page_id ∧
      ((∃ e, res = .error e ∧
          ¬ (LoadsAt p 0 page_id ∧ rowSpace n.toNat ≤ freeBytes (p.frame page_id)) ∧
          p'.frame page_id = p.frame page_id) ∨
        (∃ tid, res = .ok tid ∧ LoadsAt p 0 page_id ∧ (p'.cached page_id).isSome ∧
          HeapInv (p'.frame page_id).page ∧
          freeBytes (p'.frame page_id) + rowSpace n.toNat = freeBytes (p.frame page_id) ∧
          ∃ t, liveRows (p'.frame page_id) = liveRows (p.frame page_id) ++ [t])) := by
  unfold insertCatalogRow at h
  dsimp only at h
  cases hload : kds_buf_lookup_or_load p page_id with
  | mk r p₁ =>
    rw [hload] at h
    obtain ⟨helse, hframe, ⟨e, rfl, hfails⟩ | ⟨rfl, hloads, hcached⟩⟩ := lookup_or_load_iff hload
    · obtain ⟨rfl, rfl⟩ := Prod.mk.inj h
      exact ⟨helse, .inl ⟨e, rfl, fun hboth => hfails hboth.1, hframe⟩⟩
    dsimp only at h
    cases hins : heap_insert_tuple (p₁.frame page_id) (some d) n KDS_BOOTSTRAP_XID with
    | mk r f' =>
      rw [hins] at h
      obtain ⟨rfl, rfl⟩ := Prod.mk.inj h
      have hself : (kds_buf_unpin (p₁.setFrame page_id f') page_id).frame page_id = f' :=
        Pool.frame_setFrame_self p₁ page_id f'
      rw [hframe] at hins
      refine ⟨helse.setFrame f', ?_⟩
      rw [hself]
      rcases heap_insert_row_cases hinv hn hins with
        ⟨e, rfl, hshort, rfl⟩ | ⟨tid, rfl, hinv', hfree, hlive⟩
      · exact .inl ⟨e, rfl, fun hboth => Nat.not_le.mpr hshort hboth.2, rfl⟩
      · exact .inr ⟨tid, rfl, hloads, Pool.loaded_setFrame hcached, hinv', hfree, hlive⟩

/-! ## Section 2: The rows of a table -/

/-- The three catalog pages are well formed. -/
def PagesOk (p : Pool) : Prop := ∀ id ∈ rowPages, HeapInv (p.frame id).page

section create

variable {c c' : CatalogEnv} {namespace_oid : UInt64} {name : CString} {schema : KdsSchema}
  {clustered_type : UInt32}

/-- **The columns** all go in exactly if there is room for all of them. -/
theorem insertColumns_ok_iff {new_oid : UInt64} {cols : List KdsSysColumn}
    {res : Except Errno Unit} (hinv : HeapInv (c.env.pool.frame KDS_CATALOG_PAGE_COLUMNS).page)
    (h : insertColumns c new_oid cols = (res, c')) :
    (∀ id ≠ KDS_CATALOG_PAGE_COLUMNS, c'.env.pool.frame id = c.env.pool.frame id) ∧
      (res = .ok () ↔ cols = [] ∨ LoadsAt c.env.pool 0 KDS_CATALOG_PAGE_COLUMNS ∧
        cols.length * rowSpace 93 ≤ freeBytes (c.env.pool.frame KDS_CATALOG_PAGE_COLUMNS)) := by
  induction cols generalizing c with
  | nil =>
    obtain ⟨rfl, rfl⟩ := Prod.mk.inj h
    exact ⟨fun _ _ => rfl, by simp⟩
  | cons col cols ih =>
    unfold insertColumns kds_catalog_generate_user_oid insert_sys_column_row at h
    dsimp only at h
    cases hrow : insertCatalogRow c.env.pool (columnRow (c.oids + 1) new_oid col).row with
    | mk r pool =>
      rw [hrow] at h
      obtain ⟨helse, ⟨e, rfl, hno, -⟩ | ⟨tid, rfl, hloads, hcached, hinv', hfree, -⟩⟩ :=
        insertCatalogRow_iff KDS_CATALOG_PAGE_COLUMNS 93 hinv (by decide) hrow
      · obtain ⟨rfl, rfl⟩ := Prod.mk.inj h
        refine ⟨helse.frame, iff_of_false (by simp) ?_⟩
        rintro (hnil | ⟨hloads, hroom⟩)
        · cases hnil
        · refine hno ⟨hloads, Nat.le_trans ?_ hroom⟩
          rw [List.length_cons, Nat.succ_mul]
          exact Nat.le_add_left _ _
      · obtain ⟨hframe, hiff⟩ := ih hinv' h
        dsimp only [CatalogEnv.setPool] at hframe hiff
        refine ⟨fun id hid => (hframe id hid).trans (helse.frame id hid), hiff.trans ?_⟩
        have hrest : LoadsAt pool 0 KDS_CATALOG_PAGE_COLUMNS := .inl hcached
        have hspace : (93 : UInt16).toNat = 93 := rfl
        rw [hspace] at hfree
        rw [List.length_cons, Nat.succ_mul, ← hfree]
        constructor
        · rintro (rfl | ⟨-, hroom⟩)
          · exact .inr ⟨hloads, by simp⟩
          · exact .inr ⟨hloads, by omega⟩
        · rintro (hnil | ⟨-, hroom⟩)
          · cases hnil
          · exact .inr ⟨hrest, by omega⟩

/-- The object row goes in: the creation is past the point from which it can return nothing. -/
def ObjectGoesIn (c : CatalogEnv) (clustered_type : UInt32) : Prop :=
  (clusteredType clustered_type).isSome ∧ c.env.staged ≠ [] ∧
    LoadsAt c.env.pool 0 KDS_CATALOG_PAGE_OBJECTS ∧
    rowSpace 96 ≤ freeBytes (c.env.pool.frame KDS_CATALOG_PAGE_OBJECTS)

/-- The other rows go in behind it; loads that fail are counted from the object row's on. -/
def OthersGoIn (p : Pool) (schema : KdsSchema) : Prop :=
  LoadsAt p (loadCount p KDS_CATALOG_PAGE_OBJECTS) KDS_CATALOG_PAGE_TABLES ∧
    rowSpace 89 ≤ freeBytes (p.frame KDS_CATALOG_PAGE_TABLES) ∧
    (schema.cols = [] ∨
      LoadsAt p (loadCount p KDS_CATALOG_PAGE_OBJECTS + loadCount p KDS_CATALOG_PAGE_TABLES)
          KDS_CATALOG_PAGE_COLUMNS ∧
        schema.cols.length * rowSpace 93 ≤ freeBytes (p.frame KDS_CATALOG_PAGE_COLUMNS))

/-- The outcome of the inserts. -/
structure RowsOutcome (p p' : Pool) (schema : KdsSchema) (res : Except Errno UInt64) : Prop where
  refused : ¬ (LoadsAt p 0 KDS_CATALOG_PAGE_OBJECTS ∧
      rowSpace 96 ≤ freeBytes (p.frame KDS_CATALOG_PAGE_OBJECTS)) →
    (∃ e, res = .error e) ∧ ∀ id ∈ rowPages, p'.frame id = p.frame id
  begun : LoadsAt p 0 KDS_CATALOG_PAGE_OBJECTS →
    rowSpace 96 ≤ freeBytes (p.frame KDS_CATALOG_PAGE_OBJECTS) →
      (∃ t, liveRows (p'.frame KDS_CATALOG_PAGE_OBJECTS) =
        liveRows (p.frame KDS_CATALOG_PAGE_OBJECTS) ++ [t]) ∧
      ((∃ oid, res = .ok oid) ↔ OthersGoIn p schema)

theorem insertTableRows_outcome {root : PageId} {res : Except Errno UInt64}
    (hinv : PagesOk c.env.pool)
    (h : insertTableRows c namespace_oid name schema clustered_type root = (res, c')) :
    RowsOutcome c.env.pool c'.env.pool schema res := by
  unfold insertTableRows kds_catalog_generate_user_oid kds_catalog_insert_object_row
    kds_catalog_insert_relation_row at h
  dsimp only at h
  cases hobj : insertCatalogRow c.env.pool
      (objectRow (c.oids + 1) namespace_oid KDS_OID_TYPE_TABLE name).row with
  | mk r p₁ =>
    rw [hobj] at h
    obtain ⟨helse, ⟨e, rfl, hno, hsame⟩ | ⟨tid, rfl, hloads, hcached, -, hfree, hlive⟩⟩ :=
      insertCatalogRow_iff KDS_CATALOG_PAGE_OBJECTS 96 (hinv _ (by decide)) (by decide) hobj
    · obtain ⟨rfl, rfl⟩ := Prod.mk.inj h
      refine ⟨fun _ => ⟨⟨e, rfl⟩, fun id _ => ?_⟩, fun hloads hroom => absurd ⟨hloads, hroom⟩ hno⟩
      by_cases hid : id = KDS_CATALOG_PAGE_OBJECTS
      · rw [hid]
        exact hsame
      · exact helse.frame id hid
    have hroom : rowSpace 96 ≤ freeBytes (c.env.pool.frame KDS_CATALOG_PAGE_OBJECTS) := by
      rw [← hfree]
      exact Nat.le_add_left _ _
    refine ⟨fun hno => absurd ⟨hloads, hroom⟩ hno, fun _ _ => ?_⟩
    -- the tables page is as it was
    have htables := helse.frame KDS_CATALOG_PAGE_TABLES (by decide)
    have hcolumns := helse.frame KDS_CATALOG_PAGE_COLUMNS (by decide)
    dsimp only [CatalogEnv.setPool] at h
    cases hrel : insertCatalogRow p₁
        (relationRow (c.oids + 1) namespace_oid name root clustered_type).row with
    | mk r p₂ =>
      rw [hrel] at h
      obtain ⟨helse', hres⟩ := insertCatalogRow_iff KDS_CATALOG_PAGE_TABLES 89
        (by rw [htables]; exact hinv _ (by decide)) (by decide) hrel
      have hobjects := helse'.frame KDS_CATALOG_PAGE_OBJECTS (by decide)
      rw [helse.loadsAt (by decide), htables, Nat.zero_add] at hres
      rcases hres with ⟨e, rfl, hno, -⟩ | ⟨tid', rfl, hloads', -, -, hfree', -⟩
      · obtain ⟨rfl, rfl⟩ := Prod.mk.inj h
        refine ⟨?_, iff_of_false (by simp) fun hothers => hno ⟨hothers.1, hothers.2.1⟩⟩
        rw [hobjects]
        exact hlive
      have hroom' : rowSpace 89 ≤ freeBytes (c.env.pool.frame KDS_CATALOG_PAGE_TABLES) := by
        rw [← hfree']
        exact Nat.le_add_left _ _
      dsimp only at h
      cases hcols : insertColumns
          { env := { c.env with pool := p₂ }, oids := c.oids + 1 } (c.oids + 1) schema.cols with
      | mk r c'' =>
        rw [hcols] at h
        have hcolumns' := (helse'.frame KDS_CATALOG_PAGE_COLUMNS (by decide)).trans hcolumns
        obtain ⟨hframe, hiff⟩ := insertColumns_ok_iff
          (by rw [hcolumns']; exact hinv _ (by decide)) hcols
        rw [helse'.loadsAt (by decide), helse.loadsAt (by decide), helse.loadCount_eq (by decide),
          hcolumns', Nat.zero_add, Nat.add_comm (loadCount _ _)] at hiff
        have hobjects' := (hframe KDS_CATALOG_PAGE_OBJECTS (by decide)).trans hobjects
        have hothers : OthersGoIn c.env.pool schema ↔ r = .ok () :=
          ⟨fun hothers => hiff.mpr hothers.2.2, fun hok => ⟨hloads', hroom', hiff.mp hok⟩⟩
        cases r with
        | error e =>
          obtain ⟨rfl, rfl⟩ := Prod.mk.inj h
          refine ⟨by rw [hobjects']; exact hlive, iff_of_false (by simp) fun hgo => ?_⟩
          cases hothers.mp hgo
        | ok u =>
          obtain ⟨rfl, rfl⟩ := Prod.mk.inj h
          exact ⟨by rw [hobjects']; exact hlive, iff_of_true ⟨_, rfl⟩ (hothers.mpr rfl)⟩

/-- Pools with the same catalog pages, to which the same loads fail. -/
structure SameCatalog (p p' : Pool) : Prop where
  cached : ∀ id ∈ rowPages, p'.cached id = p.cached id
  frame : ∀ id ∈ rowPages, p'.frame id = p.frame id
  fail : p'.fail = p.fail

theorem SameCatalog.refl (p : Pool) : SameCatalog p p := ⟨fun _ _ => rfl, fun _ _ => rfl, rfl⟩

theorem SameCatalog.setFrame {p p' : Pool} {root : PageId} (h : SameCatalog p p')
    (hroot : root ∉ rowPages) (f : Frame) : SameCatalog p (p'.setFrame root f) := by
  have hne : ∀ id ∈ rowPages, id ≠ root := by
    rintro id hid rfl
    exact hroot hid
  exact
    { cached := fun id hid => (Function.update_of_ne (hne id hid) _ _).trans (h.cached id hid)
      frame := fun id hid => (Pool.frame_setFrame_ne p' f (hne id hid)).trans (h.frame id hid)
      fail := h.fail }

theorem SameCatalog.rowsOutcome {p p₁ p' : Pool} {res : Except Errno UInt64} (h : SameCatalog p p₁)
    (hout : RowsOutcome p₁ p' schema res) : RowsOutcome p p' schema res := by
  have hobjects := h.frame KDS_CATALOG_PAGE_OBJECTS (by decide)
  have htables := h.frame KDS_CATALOG_PAGE_TABLES (by decide)
  have hcolumns := h.frame KDS_CATALOG_PAGE_COLUMNS (by decide)
  have hloads : ∀ k, ∀ id ∈ rowPages, LoadsAt p₁ k id ↔ LoadsAt p k id := by
    intro k id hid
    unfold LoadsAt
    rw [h.cached id hid, h.fail]
  have hcount : ∀ id ∈ rowPages, loadCount p₁ id = loadCount p id := by
    intro id hid
    unfold loadCount
    rw [h.cached id hid]
  have hothers : OthersGoIn p₁ schema ↔ OthersGoIn p schema := by
    unfold OthersGoIn
    rw [hloads _ _ (by decide), hloads _ _ (by decide), hcount _ (by decide), hcount _ (by decide),
      htables, hcolumns]
  obtain ⟨hrefused, hbegun⟩ := hout
  rw [hloads 0 _ (by decide), hobjects] at hrefused hbegun
  rw [hothers] at hbegun
  refine ⟨fun hno => ?_, hbegun⟩
  obtain ⟨herror, hsame⟩ := hrefused hno
  exact ⟨herror, fun id hid => (hsame id hid).trans (h.frame id hid)⟩

theorem allocRoot_sameCatalog {kind : ClusteredType} {res : Option PageId}
    (hring : ∀ id ∈ c.env.staged, id ∉ rowPages) (h : allocRoot c kind = (res, c')) :
    SameCatalog c.env.pool c'.env.pool ∧ (res = none ↔ c.env.staged = []) := by
  unfold allocRoot kds_page_alloc at h
  cases hstaged : c.env.staged with
  | nil =>
    rw [hstaged] at h
    obtain ⟨rfl, rfl⟩ := Prod.mk.inj h
    exact ⟨.refl _, by simp⟩
  | cons root staged =>
    rw [hstaged] at h hring
    obtain ⟨rfl, rfl⟩ := Prod.mk.inj h
    have hroot := hring root List.mem_cons_self
    exact ⟨((SameCatalog.refl c.env.pool).setFrame hroot _).setFrame hroot _, by simp⟩

/-- **Creating a table**: before the object row nothing has happened, behind
    it the object row stays whatever happens. -/
theorem createTable_outcome {res : Except Errno UInt64} (hinv : PagesOk c.env.pool)
    (hring : ∀ id ∈ c.env.staged, id ∉ rowPages)
    (h : createTable c namespace_oid name schema clustered_type = (res, c')) :
    (¬ ObjectGoesIn c clustered_type →
        (∃ e, res = .error e) ∧ ∀ id ∈ rowPages, c'.env.pool.frame id = c.env.pool.frame id) ∧
      (ObjectGoesIn c clustered_type →
        (∃ t, liveRows (c'.env.pool.frame KDS_CATALOG_PAGE_OBJECTS) =
          liveRows (c.env.pool.frame KDS_CATALOG_PAGE_OBJECTS) ++ [t]) ∧
        ((∃ oid, res = .ok oid) ↔ OthersGoIn c.env.pool schema)) := by
  unfold createTable at h
  unfold ObjectGoesIn
  cases hkind : clusteredType clustered_type with
  | none =>
    rw [hkind] at h
    obtain ⟨rfl, rfl⟩ := Prod.mk.inj h
    exact ⟨fun _ => ⟨⟨_, rfl⟩, fun _ _ => rfl⟩, fun hgo => absurd hgo.1 (by simp)⟩
  | some kind =>
    rw [hkind] at h
    dsimp only at h
    cases halloc : allocRoot c kind with
    | mk root? c₁ =>
      rw [halloc] at h
      obtain ⟨hsame, hnone⟩ := allocRoot_sameCatalog hring halloc
      cases root? with
      -- the ring is empty, and no row has been tried
      | none =>
        obtain ⟨rfl, rfl⟩ := Prod.mk.inj h
        exact ⟨fun _ => ⟨⟨_, rfl⟩, hsame.frame⟩, fun hgo => absurd (hnone.mp rfl) hgo.2.1⟩
      | some root =>
        have hstaged : c.env.staged ≠ [] := fun hnil => nomatch hnone.mpr hnil
        dsimp only at h
        cases hrows : insertTableRows c₁ namespace_oid name schema clustered_type root with
        | mk ret c₂ =>
          rw [hrows] at h
          obtain ⟨rfl, rfl⟩ := Prod.mk.inj h
          -- the root page is none of the three catalog pages
          have hinv₁ : PagesOk c₁.env.pool := by
            intro id hid
            rw [hsame.frame id hid]
            exact hinv id hid
          obtain ⟨hrefused, hbegun⟩ := hsame.rowsOutcome (insertTableRows_outcome hinv₁ hrows)
          exact ⟨fun hno => hrefused fun hboth => hno ⟨rfl, hstaged, hboth⟩,
            fun hgo => hbegun hgo.2.2.1 hgo.2.2.2⟩

/-! ## Section 3: What the catalog answers -/

/-- The pool when no load fails. -/
def Pool.reliable (p : Pool) : Pool := { p with fail := fun _ => none }

theorem reliable_noFailure (p : Pool) : p.reliable.NoFailure := fun _ => rfl

section reads

variable {p p' : Pool}

/-- A scan without failures is one of the page's contents. -/
theorem scanPage_reliable {β : Type} (h : p.NoFailure) (page_id : PageId) (size : UInt16)
    (pick : List UInt8 → Option β) :
    ∃ q, scanPage p page_id size pick =
        ((scanCatalog (p.frame page_id) size pick (heapSlots (p.frame page_id))).elim
          (.error .ENOENT) .ok, q) ∧
      q.frame = p.frame ∧ q.NoFailure := by
  obtain ⟨p₁, hload, hframe, hnf, -⟩ := lookup_or_load_ok h page_id
  unfold scanPage
  rw [hload]
  dsimp only
  rw [hframe]
  cases scanCatalog (p.frame page_id) size pick (heapSlots (p.frame page_id)) with
  | none => exact ⟨_, rfl, hframe, hnf⟩
  | some out => exact ⟨_, rfl, hframe, hnf⟩

theorem build_schema_congr (h : p.NoFailure) (h' : p'.NoFailure)
    (hsame : p'.frame KDS_CATALOG_PAGE_COLUMNS = p.frame KDS_CATALOG_PAGE_COLUMNS) (rel_id : UInt64) :
    (kds_catalog_build_schema_from_columns p' rel_id).1 =
      (kds_catalog_build_schema_from_columns p rel_id).1 := by
  obtain ⟨p₁, hload, hframe, -⟩ := lookup_or_load_ok h KDS_CATALOG_PAGE_COLUMNS
  obtain ⟨p₁', hload', hframe', -⟩ := lookup_or_load_ok h' KDS_CATALOG_PAGE_COLUMNS
  unfold kds_catalog_build_schema_from_columns
  rw [hload, hload']
  dsimp only
  rw [hframe, hframe', hsame]
  cases collectColumns (p.frame KDS_CATALOG_PAGE_COLUMNS) rel_id []
      (heapSlots (p.frame KDS_CATALOG_PAGE_COLUMNS)) with
  | error r => rfl
  | ok cols => cases cols <;> rfl

/-- **The reads** depend on the pages only. -/
theorem kds_catalog_find_congr (h : p.NoFailure) (h' : p'.NoFailure)
    (hsame : ∀ id ∈ rowPages, p'.frame id = p.frame id) (name : CString) :
    (kds_catalog_find_table_oid_by_name p' name).1 =
      (kds_catalog_find_table_oid_by_name p name).1 := by
  unfold kds_catalog_find_table_oid_by_name
  obtain ⟨q, hq, -⟩ := scanPage_reliable h KDS_CATALOG_PAGE_OBJECTS 96 _
  obtain ⟨q', hq', -⟩ := scanPage_reliable h' KDS_CATALOG_PAGE_OBJECTS 96 _
  rw [hq, hq', hsame _ (by decide)]

theorem kds_relation_open_congr (h : p.NoFailure) (h' : p'.NoFailure)
    (hsame : ∀ id ∈ rowPages, p'.frame id = p.frame id) (kzalloc_ok : Bool) (oid : UInt64) :
    (kds_relation_open p' kzalloc_ok oid).1 = (kds_relation_open p kzalloc_ok oid).1 := by
  unfold kds_relation_open kds_catalog_get_sys_table_row
  obtain ⟨q, hq, hframe, hnf⟩ := scanPage_reliable h KDS_CATALOG_PAGE_TABLES 89 _
  obtain ⟨q', hq', hframe', hnf'⟩ := scanPage_reliable h' KDS_CATALOG_PAGE_TABLES 89 _
  rw [hq, hq', hsame _ (by decide)]
  cases scanCatalog (p.frame KDS_CATALOG_PAGE_TABLES) 89 _ _ with
  | none => rfl
  | some row =>
    dsimp only [Option.elim]
    cases kzalloc_ok with
    | false => rfl
    | true =>
      have hcols := build_schema_congr hnf hnf' (by rw [hframe, hframe', hsame _ (by decide)]) oid
      simp only [Bool.not_true, Bool.false_eq_true, if_false]
      cases hb : kds_catalog_build_schema_from_columns q oid with
      | mk r q₁ =>
        cases hb' : kds_catalog_build_schema_from_columns q' oid with
        | mk r' q₁' =>
          rw [hb, hb'] at hcols
          obtain rfl : r' = r := hcols
          cases r' with
          | ok cols => rfl
          | error e => cases e <;> rfl

end reads

/-! ## Section 4: All or nothing -/

/-- A creation that fails has added no row, and the catalog answers as before. -/
structure AllOrNothing (c : CatalogEnv) (namespace_oid : UInt64) (name : Option CString)
    (schema : Option KdsSchema) (clustered_type : UInt32) (out_oid : Bool) : Prop where
  rows : ∀ e c', kds_catalog_create_table c namespace_oid name schema clustered_type out_oid =
      (.error e, c') →
    ∀ id ∈ rowPages, liveRows (c'.env.pool.frame id) = liveRows (c.env.pool.frame id)
  names : ∀ e c', kds_catalog_create_table c namespace_oid name schema clustered_type out_oid =
      (.error e, c') →
    ∀ name', (kds_catalog_find_table_oid_by_name c'.env.pool.reliable name').1 =
      (kds_catalog_find_table_oid_by_name c.env.pool.reliable name').1
  opens : ∀ e c', kds_catalog_create_table c namespace_oid name schema clustered_type out_oid =
      (.error e, c') →
    ∀ kzalloc_ok oid, (kds_relation_open c'.env.pool.reliable kzalloc_ok oid).1 =
      (kds_relation_open c.env.pool.reliable kzalloc_ok oid).1

/-- The object row goes in and a row behind it does not. -/
def StopsMidway (c : CatalogEnv) (name : Option CString) (schema : Option KdsSchema)
    (clustered_type : UInt32) (out_oid : Bool) : Prop :=
  name.isSome ∧ out_oid = true ∧ ObjectGoesIn c clustered_type ∧
    ∃ given, schema = some given ∧ ¬ OthersGoIn c.env.pool given

/-- A failed creation that does not stop midway comes before the object row. -/
theorem create_failed_early {given : Option CString} {schema : Option KdsSchema} {out_oid : Bool}
    {e : Errno} (hinv : PagesOk c.env.pool) (hring : ∀ id ∈ c.env.staged, id ∉ rowPages)
    (hno : ¬ StopsMidway c given schema clustered_type out_oid)
    (hcall : kds_catalog_create_table c namespace_oid given schema clustered_type out_oid =
      (.error e, c')) :
    ∀ id ∈ rowPages, c'.env.pool.frame id = c.env.pool.frame id := by
  have hargs : c' = c → ∀ id ∈ rowPages, c'.env.pool.frame id = c.env.pool.frame id := by
    intro hsame id _
    rw [hsame]
  cases given with
  | none => exact hargs (Prod.mk.inj hcall).2.symm
  | some name =>
    cases schema with
    | none => exact hargs (Prod.mk.inj hcall).2.symm
    | some schema =>
      cases out_oid with
      | false => exact hargs (Prod.mk.inj hcall).2.symm
      | true =>
        obtain ⟨hearly, hlate⟩ := createTable_outcome hinv hring hcall
        by_cases hgo : ObjectGoesIn c clustered_type
        · have hothers : OthersGoIn c.env.pool schema := by
            by_contra hstuck
            exact hno ⟨rfl, rfl, hgo, schema, rfl, hstuck⟩
          obtain ⟨oid, hok⟩ := (hlate hgo).2.mpr hothers
          cases hok
        · exact (hearly hgo).2

/-- **Table creation** is all or nothing unless the object row goes in and a
    row behind it does not. -/
theorem create_all_or_nothing_iff {given : Option CString} {schema : Option KdsSchema}
    {out_oid : Bool} (hinv : PagesOk c.env.pool) (hring : ∀ id ∈ c.env.staged, id ∉ rowPages) :
    AllOrNothing c namespace_oid given schema clustered_type out_oid ↔
      ¬ StopsMidway c given schema clustered_type out_oid := by
  constructor
  · rintro ⟨hrows, -, -⟩ ⟨hname, rfl, hgo, schema, rfl, hstuck⟩
    obtain ⟨name, rfl⟩ := Option.isSome_iff_exists.mp hname
    cases hcall : createTable c namespace_oid name schema clustered_type with
    | mk res c' =>
      obtain ⟨⟨t, hlive⟩, hok⟩ := (createTable_outcome hinv hring hcall).2 hgo
      cases res with
      | ok oid => exact hstuck (hok.mp ⟨oid, rfl⟩)
      | error e =>
        have hsame := hrows e c' hcall KDS_CATALOG_PAGE_OBJECTS (by decide)
        rw [hlive] at hsame
        simp at hsame
  · intro hno
    exact
      { rows := fun e c' hcall id hid => by rw [create_failed_early hinv hring hno hcall id hid]
        names := fun e c' hcall => kds_catalog_find_congr (reliable_noFailure _)
          (reliable_noFailure _) (create_failed_early hinv hring hno hcall)
        opens := fun e c' hcall => kds_relation_open_congr (reliable_noFailure _)
          (reliable_noFailure _) (create_failed_early hinv hring hno hcall) }

end create

/-! ## Section 5: A full page of columns -/

/-- The first creation after a boot. -/
theorem create_all_or_nothing_accounts :
    AllOrNothing userBoot.c 1 (some accountsName) (some idSchema) KDS_CLUSTERED_BTREE true := by
  have hinv : PagesOk userBoot.c.env.pool := by
    have hholds := (kds_catalog_bootstrap_ok bootedPool_ok).1
    intro id hid
    simp only [rowPages, List.mem_cons, List.not_mem_nil, or_false] at hid
    obtain rfl | rfl | rfl := hid
    · exact hholds.objects.rows.inv
    · exact hholds.tables.rows.inv
    · exact hholds.columns.rows.inv
  have hgo : OthersGoIn userBoot.c.env.pool idSchema := by
    unfold OthersGoIn LoadsAt
    decide +kernel
  apply (create_all_or_nothing_iff hinv (by decide)).mpr
  rintro ⟨-, -, -, given, hgiven, hstuck⟩
  rw [← Option.some.inj hgiven] at hstuck
  exact hstuck hgo

/-- A schema of 32 columns: two tables of it leave 71 bytes on the page of columns. -/
def wideSchema : KdsSchema where
  cols := List.replicate KDS_SCHEMA_MAX_COLUMNS (idSchema.cols.head (by decide))
  fits := by decide

/-- A boot, and two tables of 32 columns. -/
def fullColumns : CatalogSys :=
  [.createTable 1 typesName wideSchema KDS_CLUSTERED_HEAP, .stage 101,
    .createTable 1 typesName wideSchema KDS_CLUSTERED_HEAP, .stage 102].foldl catalogStep userBoot

theorem catalogStep_reachable {s : CatalogSys} (acts : List CatalogAct)
    (h : catalogSystem.Reachable s) : catalogSystem.Reachable (acts.foldl catalogStep s) := by
  induction acts generalizing s with
  | nil => exact h
  | cons act acts ih => exact ih (.step act h rfl)

/-- A creation that returns `ENOSPC` leaves a table that is found by its name. -/
theorem create_not_all_or_nothing :
    catalogSystem.Reachable fullColumns ∧
      (kds_catalog_find_table_oid_by_name fullColumns.c.env.pool accountsName).1 =
        .error .ENOENT ∧
      (kds_catalog_create_table fullColumns.c 1 (some accountsName) (some idSchema)
        KDS_CLUSTERED_HEAP true).1 = .error .ENOSPC ∧
      (kds_catalog_find_table_oid_by_name
        (kds_catalog_create_table fullColumns.c 1 (some accountsName) (some idSchema)
          KDS_CLUSTERED_HEAP true).2.env.pool accountsName).1 = .ok 4067 := by
  refine ⟨catalogStep_reachable _ userBoot_reachable, ?_⟩
  decide +kernel

end Kds
