import Kds.Catalog.Create

/-! # Catalog pages as lists of rows

    Nothing is ever deleted from a catalog page, so its slot table is a list
    of rows of one size. An insert puts a row behind it or finds no room, and
    a scan goes through the list from the front.
-/

open Bytes

namespace Kds

/-! ## Section 1: One page -/

/-- The rows on a page, none of them retired. -/
structure PageRows (f : Frame) (rows : List (List UInt8)) : Prop where
  inv : HeapInv f.page
  entries : (slotTable f).entries = rows.map fun bs => some ⟨KDS_BOOTSTRAP_XID, 0, 0, bs⟩

/-- There is room for a row of `n` bytes. -/
def Room (f : Frame) (n : UInt16) : Prop :=
  is_heap_insert_possible (heapMeta f.page) (heapNeeded n) = true

section page

variable {f f' : Frame} {rows : List (List UInt8)}

theorem PageRows.nr_slots (h : PageRows f rows) : (heap_nr_slots f).toNat = rows.length := by
  have hlen := congrArg List.length h.entries
  rw [slotTable_length, List.length_map] at hlen
  exact hlen

/-- A page has fewer than 2^16 rows. -/
theorem PageRows.length_lt (h : PageRows f rows) : rows.length < 2 ^ 16 := by
  rw [← h.nr_slots]
  exact (heap_nr_slots f).toNat_lt

theorem pageRows_init (f : Frame) : PageRows (heap_init_page f) [] where
  inv := heapInv_init f .heap
  entries := congrArg SlotTable.entries (slotTable_init f .heap)

/-- An insert of a row fails for want of room only. -/
theorem heap_insert_row_error {d : Mem} {n : UInt16} {xmin : UInt64} {e : Errno}
    (hn : n.toNat ≤ KDS_PAGE_SIZE)
    (h : heap_insert_tuple f (some d) n xmin = (.error e, f')) : ¬ Room f n := by
  intro hroom
  unfold Room at hroom
  unfold heap_insert_tuple heap_insert_tuple_ex at h
  dsimp only at h
  rw [if_neg (by simp), if_neg (by simp), if_neg (by omega), if_neg (by simp [hroom])] at h
  cases (Prod.mk.inj h).1

/-- An insert that goes through had room. -/
theorem heap_insert_row_room {d : Mem} {n : UInt16} {xmin : UInt64} {tid : HeapTid}
    (h : heap_insert_tuple f (some d) n xmin = (.ok tid, f')) : Room f n := by
  unfold Room
  unfold heap_insert_tuple heap_insert_tuple_ex at h
  dsimp only at h
  split_ifs at h with h₁ h₂ h₃ h₄
  · cases (Prod.mk.inj h).1
  · cases (Prod.mk.inj h).1
  · cases (Prod.mk.inj h).1
  · cases (Prod.mk.inj h).1
  · simpa using h₄

/-- **An insert** finds no room, or puts the row behind the others. -/
theorem PageRows.insert (h : PageRows f rows) {bs : List UInt8} {n : UInt16}
    (hlen : bs.length = n.toNat) (hn : n.toNat ≤ KDS_PAGE_SIZE) {res : Except Errno HeapTid}
    (hins : heap_insert_tuple f (some (bufferOf bs)) n KDS_BOOTSTRAP_XID = (res, f')) :
    (∃ e, res = .error e ∧ ¬ Room f n ∧ f' = f) ∨
      (∃ tid, res = .ok tid ∧ Room f n ∧ PageRows f' (rows ++ [bs])) := by
  obtain ⟨hkept, ⟨e, rfl, hsame⟩ | ⟨tid, rfl, _, _, htable⟩⟩ := heap_insert_table h.inv hins
  · exact .inl ⟨e, rfl, heap_insert_row_error hn hins, hsame⟩
  · right
    refine ⟨tid, rfl, heap_insert_row_room hins, hkept.inv, ?_⟩
    have hpay : payload (some (bufferOf bs)) n = bs := by
      have hread := Mem.read_write_same (fun _ => 0) 0 bs
      rw [hlen] at hread
      exact hread
    rw [htable, hpay, SlotTable.append, h.entries, List.map_append]
    rfl

/-- Row `i` reads back. -/
theorem PageRows.read (h : PageRows f rows) {i : Nat} {bs : List UInt8} (hi : rows[i]? = some bs)
    {size : UInt16} (hsize : bs.length = size.toNat) :
    ∃ hdr, heap_read_tuple f (UInt16.ofNat i) true size = .ok (hdr, bs) := by
  have hlt : i < rows.length := (List.getElem?_eq_some_iff.mp hi).1
  have hsmall := h.length_lt
  have hidx : (UInt16.ofNat i).toNat = i := by
    rw [UInt16.toNat_ofNat']
    exact Nat.mod_eq_of_lt (by omega)
  have hholds : (slotTable f).Holds (UInt16.ofNat i).toNat ⟨KDS_BOOTSTRAP_XID, 0, 0, bs⟩ := by
    unfold SlotTable.Holds
    rw [hidx, h.entries, List.getElem?_map, hi]
    rfl
  obtain ⟨hdr, buf, hread, _, _, _, _, hbuf, htake⟩ :=
    (heapRefines_of_inv h.inv).read (UInt16.ofNat i) size _ hholds (by simp [hsize])
  dsimp only at htake
  rw [List.take_of_length_le (by rw [hbuf, hsize])] at htake
  rw [htake] at hread
  exact ⟨hdr, hread⟩

/-- The slots of a page, and what is read from them. -/
theorem PageRows.slots_map (h : PageRows f rows) :
    (heapSlots f).map (fun i => rows.getD i []) = rows := by
  unfold heapSlots
  rw [h.nr_slots]
  apply List.ext_getElem
  · simp
  · intro i hi hi'
    rw [List.getElem_map, List.getElem_range, List.getD_eq_getElem _ _ hi']

theorem PageRows.read_slot (h : PageRows f rows) {size : UInt16}
    (hsize : ∀ bs ∈ rows, bs.length = size.toNat) {i : Nat} (hi : i ∈ heapSlots f) :
    ∃ hdr, heap_read_tuple f (UInt16.ofNat i) true size = .ok (hdr, rows.getD i []) := by
  unfold heapSlots at hi
  rw [h.nr_slots, List.mem_range] at hi
  apply h.read
  · rw [List.getD_eq_getElem _ _ hi]
    exact List.getElem?_eq_getElem hi
  · rw [List.getD_eq_getElem _ _ hi]
    exact hsize _ (List.getElem_mem hi)

/-- **A scan** returns what it picks from the first row it picks. -/
theorem PageRows.scan {β : Type} (h : PageRows f rows) {size : UInt16}
    (hsize : ∀ bs ∈ rows, bs.length = size.toNat) (pick : List UInt8 → Option β) :
    scanCatalog f size pick (heapSlots f) = rows.findSome? pick := by
  have hscan : ∀ slots : List Nat, (∀ i ∈ slots, i ∈ heapSlots f) →
      scanCatalog f size pick slots = (slots.map fun i => rows.getD i []).findSome? pick := by
    intro slots
    induction slots with
    | nil => exact fun _ => rfl
    | cons slot slots ih =>
      intro hslots
      obtain ⟨hdr, hread⟩ := h.read_slot hsize (hslots slot List.mem_cons_self)
      have ih := ih fun i hi => hslots i (List.mem_cons_of_mem _ hi)
      unfold scanCatalog
      rw [hread, List.map_cons, List.findSome?_cons]
      dsimp only
      cases pick (rows.getD slot []) with
      | some out => rfl
      | none => exact ih
  rw [hscan _ fun i hi => hi, h.slots_map]

end page

/-- The columns of a relation, in the order of their rows. -/
def columnsOf (cols : List KdsSysColumn) (rel_id : UInt64) : List KdsSysColumn :=
  cols.filter fun col => col.rel_id = rel_id

/-- **The scan for a schema** returns the columns of the relation, 32 at most. -/
theorem PageRows.collect {f : Frame} {cols : List KdsSysColumn}
    (h : PageRows f (cols.map KdsSysColumn.bytes)) (rel_id : UInt64) :
    collectColumns f rel_id [] (heapSlots f) =
      .ok ((columnsOf cols rel_id).take KDS_SCHEMA_MAX_COLUMNS) := by
  have hsize : ∀ bs ∈ cols.map KdsSysColumn.bytes, bs.length = (93 : UInt16).toNat := by
    intro bs hbs
    obtain ⟨col, _, rfl⟩ := List.mem_map.mp hbs
    rw [KdsSysColumn.length_bytes]
    rfl
  -- `acc` is what has been collected in front of `slots`
  have hcollect : ∀ (slots : List Nat) (acc rest : List KdsSysColumn),
      (∀ i ∈ slots, i ∈ heapSlots f) →
      (slots.map fun i => (cols.map KdsSysColumn.bytes).getD i []) = rest.map KdsSysColumn.bytes →
      acc.length ≤ KDS_SCHEMA_MAX_COLUMNS →
      collectColumns f rel_id acc slots =
        .ok ((acc ++ columnsOf rest rel_id).take KDS_SCHEMA_MAX_COLUMNS) := by
    intro slots
    induction slots with
    | nil =>
      intro acc rest _ hrest hacc
      obtain rfl : rest = [] := by simpa using hrest.symm
      unfold collectColumns columnsOf
      rw [List.filter_nil, List.append_nil, List.take_of_length_le hacc]
    | cons slot slots ih =>
      intro acc rest hslots hrest hacc
      unfold collectColumns
      by_cases hfull : acc.length < KDS_SCHEMA_MAX_COLUMNS
      · cases rest with
        | nil => simp at hrest
        | cons col rest =>
          rw [List.map_cons, List.map_cons] at hrest
          obtain ⟨hcol, hrest⟩ := List.cons.inj hrest
          obtain ⟨hdr, hread⟩ := h.read_slot hsize (hslots slot List.mem_cons_self)
          have hslots' : ∀ i ∈ slots, i ∈ heapSlots f := fun i hi =>
            hslots i (List.mem_cons_of_mem _ hi)
          rw [if_pos hfull, hread, hcol]
          dsimp only
          rw [KdsSysColumn.ofBytes_bytes]
          unfold columnsOf at ih ⊢
          by_cases hrel : col.rel_id = rel_id
          · rw [if_pos hrel, ih _ rest hslots' hrest (by simp; omega),
              List.filter_cons_of_pos (by simpa using hrel)]
            simp
          · rw [if_neg hrel, ih _ rest hslots' hrest hacc,
              List.filter_cons_of_neg (by simpa using hrel)]
      · rw [if_neg hfull, List.take_append_of_le_length (by omega), List.take_of_length_le hacc]
  rw [hcollect (heapSlots f) [] cols (fun i hi => hi) h.slots_map (Nat.zero_le _), List.nil_append]

/-! ## Section 2: The catalog -/

/-- What the catalog says: the rows of its three tables, in slot order. -/
structure Catalog where
  objects : List KdsSysObject
  tables : List KdsSysTable
  columns : List KdsSysColumn

/-- A page of the pool, always in it, with these rows. -/
structure HoldsRows (p : Pool) (page_id : PageId) (rows : List (List UInt8)) : Prop where
  cached : (p.cached page_id).isSome
  rows : PageRows (p.frame page_id) rows

/-- The catalog pages hold the catalog `A`. -/
structure CatalogHolds (p : Pool) (A : Catalog) : Prop where
  objects : HoldsRows p KDS_CATALOG_PAGE_OBJECTS (A.objects.map KdsSysObject.bytes)
  tables : HoldsRows p KDS_CATALOG_PAGE_TABLES (A.tables.map KdsSysTable.bytes)
  columns : HoldsRows p KDS_CATALOG_PAGE_COLUMNS (A.columns.map KdsSysColumn.bytes)

/-- The pages a creation inserts into. -/
def rowPages : List PageId :=
  [KDS_CATALOG_PAGE_OBJECTS, KDS_CATALOG_PAGE_TABLES, KDS_CATALOG_PAGE_COLUMNS]

/-- There is room for another row of `sys.objects`. -/
def ObjectRoom (p : Pool) : Prop := Room (p.frame KDS_CATALOG_PAGE_OBJECTS) 96

/-- A page is as it was, and still in the pool if it was in it. -/
structure SamePage (p p' : Pool) (page_id : PageId) : Prop where
  frame : p'.frame page_id = p.frame page_id
  cached : (p.cached page_id).isSome → (p'.cached page_id).isSome

theorem SamePage.refl (p : Pool) (page_id : PageId) : SamePage p p page_id := ⟨rfl, id⟩

theorem SamePage.trans {p p' p'' : Pool} {page_id : PageId} (h : SamePage p p' page_id)
    (h' : SamePage p' p'' page_id) : SamePage p p'' page_id :=
  ⟨h'.frame.trans h.frame, fun hc => h'.cached (h.cached hc)⟩

theorem SamePage.holdsRows {p p' : Pool} {page_id : PageId} {rows : List (List UInt8)}
    (h : SamePage p p' page_id) (hold : HoldsRows p page_id rows) : HoldsRows p' page_id rows where
  cached := h.cached hold.cached
  rows := by rw [h.frame]; exact hold.rows

/-- The catalog does not depend on other pages. -/
theorem CatalogHolds.of_same {p p' : Pool} {A : Catalog} (h : CatalogHolds p A)
    (hsame : ∀ id ∈ rowPages, SamePage p p' id) : CatalogHolds p' A where
  objects := (hsame _ (by decide)).holdsRows h.objects
  tables := (hsame _ (by decide)).holdsRows h.tables
  columns := (hsame _ (by decide)).holdsRows h.columns

theorem CatalogHolds.cached {p : Pool} {A : Catalog} (h : CatalogHolds p A) {id : PageId}
    (hid : id ∈ rowPages) : (p.cached id).isSome := by
  simp only [rowPages, List.mem_cons, List.not_mem_nil, or_false] at hid
  rcases hid with rfl | rfl | rfl
  · exact h.objects.cached
  · exact h.tables.cached
  · exact h.columns.cached

theorem samePage_setFrame {p : Pool} {id page_id : PageId} (f : Frame) (hne : page_id ≠ id) :
    SamePage p (p.setFrame id f) page_id where
  frame := Pool.frame_setFrame_ne p f hne
  cached := Pool.loaded_setFrame

theorem samePage_unpin (p : Pool) (id page_id : PageId) : SamePage p (kds_buf_unpin p id) page_id :=
  ⟨rfl, fun hc => hc⟩

/-- **A row for a catalog page** is refused for want of room, or goes behind the others. -/
theorem insertCatalogRow_cases {p p' : Pool} {page_id : PageId} {n : UInt16} {bs : List UInt8}
    {rows : List (List UInt8)} {res : Except Errno HeapTid} (hlen : bs.length = n.toNat)
    (hn : n.toNat ≤ KDS_PAGE_SIZE) (h : HoldsRows p page_id rows)
    (hins : insertCatalogRow p ⟨page_id, bufferOf bs, n⟩ = (res, p')) :
    (∀ id ≠ page_id, SamePage p p' id) ∧
      ((∃ e, res = .error e ∧ ¬ Room (p.frame page_id) n ∧ SamePage p p' page_id) ∨
        (∃ tid, res = .ok tid ∧ Room (p.frame page_id) n ∧
          HoldsRows p' page_id (rows ++ [bs]))) := by
  unfold insertCatalogRow at hins
  dsimp only at hins
  rw [lookup_or_load_cached h.cached] at hins
  dsimp only at hins
  rw [frame_pin] at hins
  cases hheap : heap_insert_tuple (p.frame page_id) (some (bufferOf bs)) n KDS_BOOTSTRAP_XID with
  | mk res' f' =>
    rw [hheap] at hins
    obtain ⟨rfl, rfl⟩ := Prod.mk.inj hins
    have hframe : (kds_buf_unpin ((kds_buf_pin p page_id).setFrame page_id f') page_id).frame
        page_id = f' := Pool.frame_setFrame_self _ _ _
    have hcached : ((kds_buf_unpin ((kds_buf_pin p page_id).setFrame page_id f') page_id).cached
        page_id).isSome := Pool.loaded_setFrame h.cached
    constructor
    · intro id hne
      exact ⟨Pool.frame_setFrame_ne _ f' hne, fun hc => Pool.loaded_setFrame hc⟩
    rcases h.rows.insert hlen hn hheap with ⟨e, he, hroom, hsame⟩ | ⟨tid, htid, hroom, hrows⟩
    · exact .inl ⟨e, he, hroom, hframe.trans hsame, fun _ => hcached⟩
    · exact .inr ⟨tid, htid, hroom, hcached, by rw [hframe]; exact hrows⟩

section rows

variable {p p' : Pool} {A : Catalog} {res : Except Errno HeapTid}

/-- An object row. -/
theorem insert_object_row_cases {row : KdsSysObject} (h : CatalogHolds p A)
    (hins : insertCatalogRow p row.row = (res, p')) :
    (∃ e, res = .error e ∧ ¬ ObjectRoom p ∧ ∀ id, SamePage p p' id) ∨
      (∃ tid, res = .ok tid ∧ ObjectRoom p ∧
        CatalogHolds p' { A with objects := A.objects ++ [row] }) := by
  obtain ⟨hother, ⟨e, he, hroom, hsame⟩ | ⟨tid, htid, hroom, hrows⟩⟩ :=
    @insertCatalogRow_cases p p' _ 96 _ _ _ (KdsSysObject.length_bytes row) (by decide) h.objects hins
  · left
    refine ⟨e, he, hroom, fun id => ?_⟩
    by_cases hid : id = KDS_CATALOG_PAGE_OBJECTS
    · rw [hid]
      exact hsame
    · exact hother id hid
  · right
    refine ⟨tid, htid, hroom, ?_, ?_, ?_⟩
    · rw [List.map_append]
      exact hrows
    · exact (hother KDS_CATALOG_PAGE_TABLES (by decide)).holdsRows h.tables
    · exact (hother KDS_CATALOG_PAGE_COLUMNS (by decide)).holdsRows h.columns

/-- A relation row. -/
theorem insert_relation_row_cases {row : KdsSysTable} (h : CatalogHolds p A)
    (hins : insertCatalogRow p row.row = (res, p')) :
    SamePage p p' KDS_CATALOG_PAGE_OBJECTS ∧
      ((∃ e, res = .error e ∧ CatalogHolds p' A) ∨
        (∃ tid, res = .ok tid ∧ CatalogHolds p' { A with tables := A.tables ++ [row] })) := by
  obtain ⟨hother, hres⟩ :=
    @insertCatalogRow_cases p p' _ 89 _ _ _ (KdsSysTable.length_bytes row) (by decide) h.tables hins
  have hobjects := (hother KDS_CATALOG_PAGE_OBJECTS (by decide)).holdsRows h.objects
  have hcolumns := (hother KDS_CATALOG_PAGE_COLUMNS (by decide)).holdsRows h.columns
  refine ⟨hother KDS_CATALOG_PAGE_OBJECTS (by decide), ?_⟩
  rcases hres with ⟨e, he, _, hsame⟩ | ⟨tid, htid, _, hrows⟩
  · exact .inl ⟨e, he, hobjects, hsame.holdsRows h.tables, hcolumns⟩
  · refine .inr ⟨tid, htid, hobjects, ?_, hcolumns⟩
    rw [List.map_append]
    exact hrows

/-- A column row. -/
theorem insert_column_row_cases {row : KdsSysColumn} (h : CatalogHolds p A)
    (hins : insertCatalogRow p row.row = (res, p')) :
    SamePage p p' KDS_CATALOG_PAGE_OBJECTS ∧
      ((∃ e, res = .error e ∧ CatalogHolds p' A) ∨
        (∃ tid, res = .ok tid ∧ CatalogHolds p' { A with columns := A.columns ++ [row] })) := by
  obtain ⟨hother, hres⟩ :=
    @insertCatalogRow_cases p p' _ 93 _ _ _ (KdsSysColumn.length_bytes row) (by decide) h.columns hins
  have hobjects := (hother KDS_CATALOG_PAGE_OBJECTS (by decide)).holdsRows h.objects
  have htables := (hother KDS_CATALOG_PAGE_TABLES (by decide)).holdsRows h.tables
  refine ⟨hother KDS_CATALOG_PAGE_OBJECTS (by decide), ?_⟩
  rcases hres with ⟨e, he, _, hsame⟩ | ⟨tid, htid, _, hrows⟩
  · exact .inl ⟨e, he, hobjects, htables, hsame.holdsRows h.columns⟩
  · refine .inr ⟨tid, htid, hobjects, htables, ?_⟩
    rw [List.map_append]
    exact hrows

end rows

end Kds
