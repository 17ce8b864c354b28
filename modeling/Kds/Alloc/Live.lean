import Kds.Alloc.Crash
import Kds.Btree.Node
import Kds.Heap.Table

/-! # Pages in use and the reclaim scan

    One boot of a database: batches, `CREATE TABLE`, `CREATE INDEX`, inserts
    and flushes, one call of a page function at a time; then all dirty frames
    and the superblock are written and the machine restarts.

    A page is `ready` when its owner has initialised it: from then on a table
    row, a next link or a slot may name it. `Live` is what can be reached by
    these. The scan of the next boot looks at the flags on disk only, and a
    frame gets there only with `DIRTY` set; `heap_init_page`,
    `btree_init_root_kpage` and `store_btree_node` do not set it.
-/

open Bytes Lts

namespace Kds

/-! ## Section 1: Live pages -/

/-- The pages a page names: the next page of a heap page, the slots of a node. -/
def Frame.links (f : Frame) : List PageId :=
  if kds_is_btree_page f then
    (btreeData f.page).slots.toList.take ((btreeData f.page).key_count.toNat + 1)
  else [heap_get_next_page_id f]

/-- One boot. `tables` lists the `desc_page_id`s of the rows of `sys.tables`. -/
structure BootSys extends CrashSys where
  ready : List PageId
  tables : List PageId

/-- Reached from a row of `sys.tables`; 0 is no page. -/
inductive BootSys.Live (s : BootSys) : PageId → Prop where
  | table {id : PageId} : id ∈ s.tables → s.Live id
  | link {id j : PageId} : s.Live id → j ∈ (s.pool.frame id).links → j ≠ 0 → s.Live j

/-! ## Section 2: Steps -/

inductive BootAct where
  /-- A step of the allocator, a load or a flush. -/
  | alloc (act : CrashAct)
  /-- `btree_alloc_new_page` behind `assign_page_id`. -/
  | newNode (id : PageId) (type : PageType)
  /-- `bootstrap_one_catalog_page`. -/
  | bootstrap (id : PageId)
  /-- `heap_init_page`, by the caller of `kds_page_alloc(KDS_PAGE_TYPE_HEAP)`. -/
  | initHeap (id : PageId)
  /-- `btree_init_root_kpage`, by the caller of `kds_page_alloc(KDS_PAGE_TYPE_BTREE_ROOT)`. -/
  | initRoot (id : PageId)
  /-- `heap_insert_tuple`, of an executor or for a catalog row. -/
  | putRow (id : PageId) (data : Mem) (data_len : UInt16) (xmin : UInt64)
  /-- `kds_catalog_insert_relation_row` for a table or an index with this root. -/
  | register (id : PageId) (data : Mem) (data_len : UInt16)
  /-- `heap_set_next_page_id`. -/
  | link (id next : PageId)
  /-- `store_btree_node`. -/
  | store (id : PageId) (node : BtreePageData)
  /-- `kds_set_page_dirty` behind a node split. -/
  | mark (id : PageId)
  /-- The log writes to one of its own pages. -/
  | walPage (id : PageId) (f : Frame)

/-- The steps of the allocator that a running system takes. -/
def CrashAct.running : CrashAct → Bool
  | .batch _ | .produce | .fsync _ | .consume _ | .assign | .load _ | .flush _ => true
  | .newNode .. | .write .. | .restart _ => false

@[simp] def KDS_BOOTSTRAP_XID : UInt64 := 1

/-- The frame of one page is replaced. -/
def BootSys.setFrame (s : BootSys) (id : PageId) (f : Frame) : BootSys :=
  { s with pool := s.pool.setFrame id f }

/-- A page that is initialised. -/
def BootSys.initPage (s : BootSys) (id : PageId) (f : Frame) : BootSys :=
  { s.setFrame id f with ready := id :: s.ready }

/-- `bootstrap_one_catalog_page`. -/
def BootSys.bootstrap (s : BootSys) (id : PageId) : BootSys :=
  match kds_buf_alloc_new s.pool id with
  | (.error _, pool) => { s with pool := pool }
  | (.ok id, pool) => BootSys.initPage { s with pool := pool } id (heap_init_page (pool.frame id))

/-- `btree_alloc_new_page` behind `assign_page_id`. -/
def BootSys.newNode (s : BootSys) (id : PageId) (type : PageType) : BootSys :=
  match kds_buf_alloc_new s.pool id with
  | (.error _, _) => { s with toCrashSys := s.toCrashSys.newNode id type }
  | (.ok id, _) => { s with toCrashSys := s.toCrashSys.newNode id type, ready := id :: s.ready }

/-- `heap_insert_tuple`. -/
def BootSys.putRow (s : BootSys) (id : PageId) (data : Mem) (data_len : UInt16) (xmin : UInt64) :
    BootSys :=
  s.setFrame id (heap_insert_tuple (s.pool.frame id) (some data) data_len xmin).2

/-- `kds_catalog_insert_relation_row`. -/
def BootSys.register (s : BootSys) (id : PageId) (data : Mem) (data_len : UInt16) : BootSys :=
  match (heap_insert_tuple (s.pool.frame KDS_CATALOG_PAGE_TABLES) (some data) data_len
      KDS_BOOTSTRAP_XID).1 with
  | .error _ => s.putRow KDS_CATALOG_PAGE_TABLES data data_len KDS_BOOTSTRAP_XID
  | .ok _ =>
      { s.putRow KDS_CATALOG_PAGE_TABLES data data_len KDS_BOOTSTRAP_XID with
        tables := id :: s.tables }

/-- `store_btree_node` for the node of a page. -/
def Frame.storeNode (f : Frame) (node : BtreePageData) : Frame :=
  { f with page := f.page.write KDS_PAGE_HDR_SIZE node.bytes }

/-- The page is in use as a heap page. -/
def BootSys.HeapPage (s : BootSys) (id : PageId) : Prop :=
  id ∈ s.ready ∧ (s.pool.frame id).hdr.type = .heap

/-- The page was handed out with this type and is not initialised yet. -/
def BootSys.Fresh (s : BootSys) (id : PageId) (type : PageType) : Prop :=
  id ∈ s.handed ∧ id ∉ s.ready ∧ (s.pool.frame id).hdr.type = type

/-- One step. An owner initialises its page once and names it only behind
    that: `kds_catalog_create_table` inserts the relation row last, and both
    executors fill a new page before they link it. -/
def bootSystem : System BootSys BootAct where
  init := fun s => crashSystem.init s.toCrashSys ∧ s.ready = [] ∧ s.tables = []
  step := fun s act s' =>
    match act with
    | .alloc act =>
        act.running = true ∧ crashSystem.step s.toCrashSys act s'.toCrashSys ∧
          s'.ready = s.ready ∧ s'.tables = s.tables
    | .newNode id type =>
        id ∈ s.assigned ∧ (type = .btreeRoot ∨ type = .btreeInternal ∨ type = .btreeData) ∧
          s' = s.newNode id type
    | .bootstrap id => id ∈ catalogPages ∧ s' = s.bootstrap id
    | .initHeap id => s.Fresh id .heap ∧ s' = s.initPage id (heap_init_page (s.pool.frame id))
    | .initRoot id =>
        s.Fresh id .btreeRoot ∧ s' = s.initPage id (btree_init_root_kpage (s.pool.frame id))
    | .putRow id data data_len xmin => s.HeapPage id ∧ s' = s.putRow id data data_len xmin
    | .register id data data_len =>
        s.HeapPage KDS_CATALOG_PAGE_TABLES ∧ id ∈ s.ready ∧ s' = s.register id data data_len
    | .link id next =>
        s.HeapPage id ∧ next ∈ s.ready ∧
          s' = s.setFrame id (heap_set_next_page_id (s.pool.frame id) next).2
    | .store id node =>
        id ∈ s.ready ∧ kds_is_btree_page (s.pool.frame id) = true ∧
          (∀ j ∈ node.slots.toList, j = 0 ∨ j ∈ s.ready) ∧
          s' = s.setFrame id ((s.pool.frame id).storeNode node)
    | .mark id => id ∈ s.ready ∧ s' = s.setFrame id (kds_set_page_dirty (s.pool.frame id))
    | .walPage id f => s.Fresh id .wal ∧ f.hdr.type = .wal ∧ s' = s.setFrame id f

/-- All dirty frames are written, then the superblock, then the machine restarts. -/
def BootSys.reboot (s : BootSys) (frames : List PageId) (now : UInt64) (fail : Nat → Option Errno) :
    CrashSys :=
  let s := { s.toCrashSys with pool := kds_buf_flush_dirty_frames s.pool frames }
  (s.fsync (some now)).restart fail

/-- The next flush puts the flags of this page on disk, or they are there. -/
def BootSys.Marked (s : BootSys) (id : PageId) : Prop :=
  (s.pool.frame id).hdr.has KDS_PAGE_FLAG_DIRTY = true ∨ s.initOnDisk id = true

/-- The page holds rows of a heap table. -/
def Frame.HasRows (f : Frame) : Prop := f.hdr.type = .heap ∧ (heapMeta f.page).nr_slots ≠ 0

/-- The next boot comes to this page in its scan. -/
def BootSys.InScan (s : BootSys) (id : PageId) : Prop :=
  ∃ sb, s.pool.superblock = some sb ∧ sb.alloc_point ≠ 0 ∧ sb.alloc_point ≤ id ∧
    id < scanEnd sb.alloc_point sb.max_page_id

/-- Every live page that the scan comes to has rows, or is marked; it is not
    the one on the superblock. -/
def BootSys.MarkedInScan (s : BootSys) : Prop :=
  ∀ id, s.Live id → s.InScan id →
    ClearOfSuperblock id ∧ ((s.pool.frame id).HasRows ∨ s.Marked id)

/-! ## Section 3: What every state keeps -/

/-- A page whose body is as `kds_buf_alloc_new` leaves it. -/
def Frame.Blank (f : Frame) : Prop := ∀ a, KDS_PAGE_HDR_SIZE ≤ a → f.page a = 0

/-- A page in use. -/
structure ReadyFrame (f : Frame) (ready : List PageId) : Prop where
  init : f.hdr.has KDS_PAGE_FLAG_INIT = true
  kind : (f.hdr.type = .heap ∧ HeapInv f.page) ∨ kds_is_btree_page f = true
  links : ∀ j ∈ f.links, j = 0 ∨ j ∈ ready

structure BootInv (s : BootSys) : Prop where
  superblock : ∃ sb, s.pool.superblock = some sb ∧ sb.version = KDS_VERSION
  ready : ∀ id ∈ s.ready, (s.pool.cached id).isSome ∧ ReadyFrame (s.pool.frame id) s.ready
  rows : ∀ id ∈ s.ready, ClearOfSuperblock id → (s.pool.frame id).HasRows → s.Marked id
  tables : ∀ id ∈ s.tables, id ∈ s.ready
  staged : ∀ id ∈ s.staged, ((s.pool.cached id).isSome ∧ (s.pool.frame id).Blank) ∧
    id ∉ s.ready ∧ id ∉ s.handed
  nodup : s.staged.Nodup
  handed : ∀ id ∈ s.handed, (s.pool.cached id).isSome ∧
    (id ∉ s.ready → (s.pool.frame id).hdr.type = .wal ∨ (s.pool.frame id).Blank)

/-- What is live is in use. -/
theorem BootInv.live {s : BootSys} {id : PageId} (h : BootInv s) (hlive : s.Live id) :
    id ∈ s.ready := by
  induction hlive with
  | table hid => exact h.tables _ hid
  | link _ hj hne ih => exact ((h.ready _ ih).2.links _ hj).resolve_left hne

/-- More pages are in use. -/
theorem ReadyFrame.mono {f : Frame} {ready ready' : List PageId} (h : ReadyFrame f ready)
    (hsub : ∀ id ∈ ready, id ∈ ready') : ReadyFrame f ready' where
  init := h.init
  kind := h.kind
  links := fun j hj => (h.links j hj).imp_right (hsub j)

/-! ### One page -/

theorem btreeData_congr {m m' : Mem} (h : ∀ a, KDS_PAGE_HDR_SIZE ≤ a → m a = m' a) :
    btreeData m = btreeData m' := by
  have hword : ∀ i, btreeWord m i = btreeWord m' i := by
    intro i
    unfold btreeWord
    apply Mem.readU64_congr
    intro a ha _
    exact h a (by omega)
  unfold btreeData
  simp only [hword]

/-- Only the header changed, and not in what the page is. -/
structure SameBody (f f' : Frame) : Prop where
  body : ∀ a, KDS_PAGE_HDR_SIZE ≤ a → f'.page a = f.page a
  type : f'.hdr.type = f.hdr.type

section body

variable {f f' : Frame} {ready : List PageId}

theorem SameBody.isBtree (h : SameBody f f') : kds_is_btree_page f' = kds_is_btree_page f := by
  unfold kds_is_btree_page
  rw [h.type]

theorem SameBody.links (h : SameBody f f') : f'.links = f.links := by
  have hnext : heap_get_next_page_id f' = heap_get_next_page_id f := by
    apply next_congr
    intro a ha _
    exact h.body a (by simp; omega)
  unfold Frame.links
  rw [h.isBtree, btreeData_congr h.body, hnext]

theorem SameBody.blank (h : SameBody f f') (hb : f.Blank) : f'.Blank := by
  intro a ha
  rw [h.body a ha]
  exact hb a ha

theorem SameBody.heapInv (h : SameBody f f') (hinv : HeapInv f.page) : HeapInv f'.page := by
  have hmeta : heapMeta f'.page = heapMeta f.page :=
    heapMeta_congr fun a ha _ => h.body a (by simpa using ha)
  apply hinv.transfer hmeta
  intro i hi
  have hslot : heapSlot f'.page i = heapSlot f.page i :=
    heapSlot_congr fun a ha _ => h.body a (by simp; omega)
  have hlive : LiveSlot f.page i := ⟨by rw [← hmeta]; exact hi.1, by rw [← hslot]; exact hi.2⟩
  have harea := hinv.area_le hlive
  refine ⟨hlive, hslot, ?_⟩
  rw [heapTupleHdr_congr fun a ha _ => h.body a (by simp; omega)]
  exact hinv.data_fits i hlive

theorem SameBody.readyFrame (h : SameBody f f')
    (hinit : f'.hdr.has KDS_PAGE_FLAG_INIT = f.hdr.has KDS_PAGE_FLAG_INIT)
    (hr : ReadyFrame f ready) : ReadyFrame f' ready := by
  constructor
  · rw [hinit]
    exact hr.init
  · rw [h.type, h.isBtree]
    exact hr.kind.imp_left fun hk => ⟨hk.1, h.heapInv hk.2⟩
  · rw [h.links]
    exact hr.links

theorem not_btree_of_heap (htype : f.hdr.type = .heap) : kds_is_btree_page f = false := by
  unfold kds_is_btree_page
  rw [htype]
  rfl

theorem links_of_heap (htype : f.hdr.type = .heap) : f.links = [heap_get_next_page_id f] := by
  unfold Frame.links
  rw [not_btree_of_heap htype]
  rfl

/-- A heap page that was just initialised: no rows, no next page. -/
theorem heapPage_init (f : Frame) (ready : List PageId) :
    ReadyFrame (heap_init_page f) ready ∧ ¬ (heap_init_page f).HasRows := by
  have hnext : heap_get_next_page_id (heap_init_page f) = 0 :=
    congrArg SlotTable.next (slotTable_init f .heap)
  have hlinks : (heap_init_page f).links = [0] := by
    rw [links_of_heap rfl, hnext]
  constructor
  · constructor
    · exact has_set (or_and_self _ _) (by decide)
    · exact Or.inl ⟨rfl, heapInv_init f .heap⟩
    · intro j hj
      rw [hlinks] at hj
      exact Or.inl (List.mem_singleton.mp hj)
  · intro hrows
    apply hrows.2
    rw [show (heap_init_page f).page = (heap_init_page_as f .heap).page from rfl, heapMeta_init]

theorem Frame.Blank.slots (hb : f.Blank) : ∀ j ∈ (btreeData f.page).slots.toList, j = 0 := by
  intro j hj
  have hzero : btreeData f.page = btreeData (fun _ => 0) := btreeData_congr hb
  rw [hzero] at hj
  have hall : ∀ j ∈ (btreeData (fun _ => 0)).slots.toList, j = 0 := by decide +kernel
  exact hall j hj

/-- A blank page as a node. -/
theorem Frame.Blank.readyFrame (hb : f.Blank) (hbtree : kds_is_btree_page f = true)
    (hinit : f.hdr.has KDS_PAGE_FLAG_INIT = true) : ReadyFrame f ready := by
  constructor
  · exact hinit
  · exact Or.inr hbtree
  · intro j hj
    unfold Frame.links at hj
    rw [if_pos hbtree] at hj
    exact Or.inl (hb.slots j (List.mem_of_mem_take hj))

/-- A row is put into a heap page, which is marked dirty, or nothing happens. -/
theorem ReadyFrame.putRow (data : Option Mem) (data_len : UInt16) (xmin : UInt64)
    (h : ReadyFrame f ready) (htype : f.hdr.type = .heap) :
    (heap_insert_tuple f data data_len xmin).2 = f ∨
      (ReadyFrame (heap_insert_tuple f data data_len xmin).2 ready ∧
        (heap_insert_tuple f data data_len xmin).2.hdr.has KDS_PAGE_FLAG_DIRTY = true) := by
  have hnb := not_btree_of_heap htype
  have hinv : HeapInv f.page := by
    rcases h.kind with hk | hk
    · exact hk.2
    · rw [hnb] at hk
      simp at hk
  generalize hres : heap_insert_tuple f data data_len xmin = res
  obtain ⟨res, f'⟩ := res
  cases res with
  | error e => exact Or.inl (heap_insert_error hres)
  | ok tid =>
    right
    have hhdr := heap_insert_hdr hres
    have htype' : f'.hdr.type = .heap := by rw [hhdr]; exact htype
    obtain ⟨-, heff⟩ := heap_insert_effect hinv hres
    have hupper := hinv.upper_le
    simp only [KDS_HEAP_NEXT_PAGE_OFFSET, KDS_PAGE_SIZE] at hupper
    have hnext : heap_get_next_page_id f' = heap_get_next_page_id f :=
      next_congr fun a ha _ => heff.tuples a (by omega)
    constructor
    · constructor
      · dsimp only
        rw [hhdr, dirty_has_init]
        exact h.init
      · exact Or.inl ⟨htype', heff.inv hinv⟩
      · intro j hj
        rw [links_of_heap htype', hnext, ← links_of_heap htype] at hj
        exact h.links j hj
    · dsimp only
      rw [hhdr]
      exact dirty_has_dirty f

theorem ReadyFrame.link {next : PageId} (h : ReadyFrame f ready) (htype : f.hdr.type = .heap)
    (hnext : next ∈ ready) : ReadyFrame (heap_set_next_page_id f next).2 ready := by
  have hnb := not_btree_of_heap htype
  have hhdr : (heap_set_next_page_id f next).2.hdr = (kds_set_page_dirty f).hdr := rfl
  have heff := heap_set_next_effect f next
  generalize (heap_set_next_page_id f next).2 = f' at hhdr heff
  have htype' : f'.hdr.type = .heap := by rw [hhdr]; exact htype
  constructor
  · rw [hhdr, dirty_has_init]
    exact h.init
  · rcases h.kind with hk | hk
    · exact Or.inl ⟨htype', heff.inv hk.2⟩
    · rw [hnb] at hk
      simp at hk
  · intro j hj
    rw [links_of_heap htype'] at hj
    rw [List.mem_singleton.mp hj, show heap_get_next_page_id f' = next from heff.next]
    exact Or.inr hnext

theorem ReadyFrame.store {node : BtreePageData} (h : ReadyFrame f ready)
    (hbtree : kds_is_btree_page f = true) (hslots : ∀ j ∈ node.slots.toList, j = 0 ∨ j ∈ ready) :
    ReadyFrame (f.storeNode node) ready := by
  constructor
  · exact h.init
  · exact Or.inr hbtree
  · intro j hj
    unfold Frame.links at hj
    rw [if_pos (show kds_is_btree_page (f.storeNode node) = true from hbtree)] at hj
    rw [show btreeData (f.storeNode node).page = node from btreeData_write f.page node] at hj
    exact hslots j (List.mem_of_mem_take hj)

end body

section change

variable {s s' : BootSys}

/-- A step that changes the frame of one page, and what that page is used for. -/
theorem BootInv.change (id : PageId) (h : BootInv s)
    (hsb : ∃ sb, s'.pool.superblock = some sb ∧ sb.version = KDS_VERSION)
    (hframe : ∀ j, j ≠ id → s'.pool.frame j = s.pool.frame j)
    (hcached : ∀ j, (s.pool.cached j).isSome → (s'.pool.cached j).isSome)
    (hdisk : ∀ j, j ≠ id → s'.initOnDisk j = s.initOnDisk j)
    (hkeep : ∀ j ∈ s.ready, j ∈ s'.ready) (hready : ∀ j ∈ s'.ready, j = id ∨ j ∈ s.ready)
    (hself : id ∈ s'.ready → ((s'.pool.cached id).isSome ∧
      ReadyFrame (s'.pool.frame id) s'.ready) ∧
        (ClearOfSuperblock id → (s'.pool.frame id).HasRows → s'.Marked id))
    (htables : ∀ j ∈ s'.tables, j ∈ s'.ready)
    (hstaged : ∀ j ∈ s'.staged, j = id ∨ j ∈ s.staged) (hnodup : s'.staged.Nodup)
    (hselfStaged : id ∈ s'.staged → ((s'.pool.cached id).isSome ∧ (s'.pool.frame id).Blank) ∧
      id ∉ s'.ready ∧ id ∉ s'.handed)
    (hhanded : ∀ j ∈ s'.handed, j = id ∨ j ∈ s.handed)
    (hselfHanded : id ∈ s'.handed → (s'.pool.cached id).isSome ∧
      (id ∉ s'.ready → (s'.pool.frame id).hdr.type = .wal ∨ (s'.pool.frame id).Blank)) :
    BootInv s' := by
  constructor
  · exact hsb
  -- of every part, the page itself is the caller's and the others are as before
  · intro j hj
    by_cases hji : j = id
    · rw [hji] at hj ⊢
      exact (hself hj).1
    · obtain ⟨hc, hr⟩ := h.ready j ((hready j hj).resolve_left hji)
      rw [hframe j hji]
      exact ⟨hcached j hc, hr.mono hkeep⟩
  · intro j hj hclear hrows
    by_cases hji : j = id
    · rw [hji] at hj hclear hrows ⊢
      exact (hself hj).2 hclear hrows
    · rw [hframe j hji] at hrows
      unfold BootSys.Marked
      rw [hframe j hji, hdisk j hji]
      exact h.rows j ((hready j hj).resolve_left hji) hclear hrows
  · exact htables
  · intro j hj
    by_cases hji : j = id
    · rw [hji] at hj ⊢
      exact hselfStaged hj
    · obtain ⟨⟨hc, hb⟩, hnr, hnh⟩ := h.staged j ((hstaged j hj).resolve_left hji)
      rw [hframe j hji]
      refine ⟨⟨hcached j hc, hb⟩, ?_, ?_⟩
      · intro hmem
        exact hnr ((hready j hmem).resolve_left hji)
      · intro hmem
        exact hnh ((hhanded j hmem).resolve_left hji)
  · exact hnodup
  · intro j hj
    by_cases hji : j = id
    · rw [hji] at hj ⊢
      exact hselfHanded hj
    · obtain ⟨hc, hb⟩ := h.handed j ((hhanded j hj).resolve_left hji)
      rw [hframe j hji]
      exact ⟨hcached j hc, fun hnr => hb fun hmem => hnr (hkeep j hmem)⟩

theorem nodup_of_subperm {l l' : List PageId} (h : l.Subperm l') (hn : l'.Nodup) : l.Nodup := by
  obtain ⟨m, hperm, hsub⟩ := h
  exact hperm.nodup_iff.mp (hsub.nodup hn)

/-- A step of the allocator that changes no page of the pool, and on disk at
    most the one on the superblock. -/
structure SamePages (c c' : CrashSys) : Prop where
  superblock : ∀ sb, c.pool.superblock = some sb →
    ∃ sb', c'.pool.superblock = some sb' ∧ sb'.version = sb.version
  frame : ∀ j, (c.pool.cached j).isSome → c'.pool.frame j = c.pool.frame j
  cached : ∀ j, (c.pool.cached j).isSome → (c'.pool.cached j).isSome
  disk : ∀ j, ClearOfSuperblock j → c'.pool.disk j = c.pool.disk j
  staged : c'.staged.Subperm c.staged
  handed : c'.handed = c.handed

theorem BootInv.same {c : CrashSys} (h : BootInv s) (hc : SamePages s.toCrashSys c) :
    BootInv { s with toCrashSys := c } := by
  constructor
  · obtain ⟨sb, hsb, hversion⟩ := h.superblock
    obtain ⟨sb', hsb', hsame⟩ := hc.superblock sb hsb
    exact ⟨sb', hsb', hsame.trans hversion⟩
  · intro j hj
    obtain ⟨hcached, hr⟩ := h.ready j hj
    refine ⟨hc.cached j hcached, ?_⟩
    dsimp only
    rw [hc.frame j hcached]
    exact hr
  · intro j hj hclear hrows
    unfold BootSys.Marked CrashSys.initOnDisk
    dsimp only at hrows ⊢
    rw [hc.frame j (h.ready j hj).1] at hrows ⊢
    rw [hc.disk j hclear]
    exact h.rows j hj hclear hrows
  · exact h.tables
  · intro j hj
    obtain ⟨⟨hcached, hb⟩, hn⟩ := h.staged j (hc.staged.subset hj)
    dsimp only
    rw [hc.handed, hc.frame j hcached]
    exact ⟨⟨hc.cached j hcached, hb⟩, hn⟩
  · exact nodup_of_subperm hc.staged h.nodup
  · intro j hj
    dsimp only at hj ⊢
    rw [hc.handed] at hj
    obtain ⟨hcached, hb⟩ := h.handed j hj
    rw [hc.frame j hcached]
    exact ⟨hc.cached j hcached, hb⟩

/-- The superblock on disk is not the pool's business. -/
theorem BootInv.wrote {c : CrashSys} (id : PageId) (h : BootInv { s with toCrashSys := c }) :
    BootInv { s with toCrashSys := c.wrote id } := by
  unfold CrashSys.wrote
  by_cases hclear : ClearOfSuperblock id
  · rw [if_pos hclear]
    exact h
  · rw [if_neg hclear]
    exact ⟨h.superblock, h.ready, h.rows, h.tables, h.staged, h.nodup, h.handed⟩

/-- What waits in the ring is staged. -/
theorem ring_subperm_staged (c : CrashSys) : c.ring.Subperm c.staged := by
  unfold CrashSys.staged
  split
  · exact (List.sublist_cons_self _ _).subperm
  · exact List.Subperm.refl _

/-- Nothing but the superblock in memory and the batch. -/
theorem samePages_of_pool {c c' : CrashSys} (hcached : c'.pool.cached = c.pool.cached)
    (hdisk : c'.pool.disk = c.pool.disk)
    (hsb : ∀ sb, c.pool.superblock = some sb →
      ∃ sb', c'.pool.superblock = some sb' ∧ sb'.version = sb.version)
    (hstaged : c'.staged.Subperm c.staged) (hhanded : c'.handed = c.handed) : SamePages c c' where
  superblock := hsb
  frame := by
    intro j _
    unfold Pool.frame
    rw [hcached, hdisk]
  cached := by
    intro j hj
    rw [hcached]
    exact hj
  disk := by
    intro j _
    rw [hdisk]
  staged := hstaged
  handed := hhanded

theorem samePages_startBatch {c : CrashSys} {count : UInt64} (hpc : c.pc = .idle) :
    SamePages c (c.startBatch count) := by
  have hstaged : c.staged = c.ring := by
    unfold CrashSys.staged
    rw [hpc]
  unfold CrashSys.startBatch
  dsimp only
  split
  · exact samePages_of_pool rfl rfl (fun sb hsb => ⟨sb, hsb, rfl⟩) (List.Subperm.refl _) rfl
  · refine samePages_of_pool rfl rfl ?_ ?_ rfl
    · intro sb hsb
      dsimp only
      rw [hsb, alloc_page_id_batch]
      split
      · exact ⟨_, rfl, rfl⟩
      · exact ⟨_, rfl, rfl⟩
    · rw [hstaged]
      exact List.Subperm.refl _

theorem samePages_fsync (c : CrashSys) (now : Option UInt64) : SamePages c (c.fsync now) := by
  have hstaged := fun pool diskSb => (List.Perm.of_eq (staged_fsync c pool diskSb)).subperm
  unfold CrashSys.fsync
  dsimp only
  cases hsb : c.pool.superblock with
  | none => exact samePages_of_pool rfl rfl (by simp [hsb]) (hstaged _ _) rfl
  | some sb =>
    cases now with
    | none => exact samePages_of_pool rfl rfl (fun sb hsb => ⟨sb, hsb, rfl⟩) (hstaged _ _) rfl
    | some now =>
      refine ⟨?_, ?_, fun _ hj => hj, ?_, hstaged _ _, rfl⟩
      · intro sb₀ hsb₀
        rw [hsb] at hsb₀
        obtain rfl := Option.some.inj hsb₀
        exact ⟨_, rfl, rfl⟩
      · intro j hj
        obtain ⟨f, hf⟩ := Option.isSome_iff_exists.mp hj
        unfold Pool.frame Pool.writeSuperblock
        dsimp only
        rw [hf, Option.getD_some, Option.getD_some]
      · intro j hclear
        unfold Pool.writeSuperblock
        dsimp only
        rw [if_pos hclear]

theorem samePages_assign (c : CrashSys) : SamePages c c.assign := by
  unfold CrashSys.assign assign_page_id
  cases hsb : c.pool.superblock with
  | none => exact samePages_of_pool rfl rfl (by simp [hsb]) (List.Subperm.refl _) rfl
  | some sb =>
    have hsame : ∀ sb₀, c.pool.superblock = some sb₀ → ∃ sb',
        some { sb with max_page_id := sb.max_page_id + 1 } = some sb' ∧
          sb'.version = sb₀.version := by
      intro sb₀ hsb₀
      rw [hsb] at hsb₀
      obtain rfl := Option.some.inj hsb₀
      exact ⟨_, rfl, rfl⟩
    dsimp only
    split
    · exact samePages_of_pool rfl rfl hsame (List.Subperm.refl _) rfl
    · exact samePages_of_pool rfl rfl hsame (List.Subperm.refl _) rfl

theorem samePages_load (c : CrashSys) (id : PageId) :
    SamePages c { c with pool := (kds_buf_lookup_or_load c.pool id).2 } := by
  generalize hres : kds_buf_lookup_or_load c.pool id = res
  obtain ⟨res, pool⟩ := res
  obtain ⟨hload, -⟩ := lookup_or_load_loadOnly hres
  constructor
  · intro sb hsb
    exact ⟨sb, hload.superblock.trans hsb, rfl⟩
  · intro j _
    dsimp only
    rw [hload.frame]
  · exact lookup_or_load_keeps hres
  · intro j _
    dsimp only
    rw [hload.disk]
  · exact List.Subperm.refl _
  · rfl

/-- A page that could not be created. -/
theorem samePages_allocError {c : CrashSys} {id : PageId} {e : Errno} {pool : Pool}
    (h : kds_buf_alloc_new c.pool id = (.error e, pool)) {c' : CrashSys} (hpool : c'.pool = pool)
    (hstaged : c'.staged.Subperm c.staged) (hhanded : c'.handed = c.handed) : SamePages c c' := by
  obtain ⟨hsb, herr, -⟩ := alloc_new_cases h
  obtain ⟨hcached, hdisk⟩ := herr e rfl
  apply samePages_of_pool
  · rw [hpool, hcached]
  · rw [hpool, hdisk]
  · intro sb hs
    exact ⟨sb, by rw [hpool, hsb, hs], rfl⟩
  · exact hstaged
  · exact hhanded

/-- A page that `kds_buf_alloc_new` has created. -/
theorem created_page {p p' : Pool} {id frame : PageId}
    (h : kds_buf_alloc_new p id = (.ok frame, p')) :
    p.cached id = none ∧ (p'.cached id).isSome ∧ p'.frame id = createdFrame id ∧
      (∀ j, (p.cached j).isSome → (p'.cached j).isSome) ∧
      ∀ j, j ≠ id → p'.disk j = p.disk j := by
  obtain ⟨-, -, hok⟩ := alloc_new_cases h
  obtain ⟨-, hnone, hdisk, hcached⟩ := hok frame rfl
  have hself : p'.cached id = some (createdFrame id) := by
    rw [hcached, Function.update_self]
    rfl
  refine ⟨hnone, ?_, ?_, ?_, ?_⟩
  · rw [hself]
    rfl
  · unfold Pool.frame
    rw [hself, Option.getD_some]
  · intro j hj
    by_cases hji : j = id
    · rw [hji, hself]
      rfl
    · rw [hcached, Function.update_of_ne hji]
      exact hj
  · intro j hji
    rw [hdisk, Function.update_of_ne hji]

theorem createdFrame_blank (id : PageId) : (createdFrame id).Blank := by
  intro a ha
  show Mem.write (fun _ => 0) 0 _ a = 0
  rw [Mem.write_outside _ (by rw [PageHdr.length_bytes]; omega)]

/-- A page that was not in the pool is nobody's. -/
theorem BootInv.unused {id : PageId} (h : BootInv s) (hnone : s.pool.cached id = none) :
    id ∉ s.ready ∧ id ∉ s.staged ∧ id ∉ s.handed ∧ id ∉ s.tables := by
  have hready : id ∉ s.ready := by
    intro hmem
    have hc := (h.ready id hmem).1
    rw [hnone] at hc
    simp at hc
  refine ⟨hready, ?_, ?_, fun hmem => hready (h.tables id hmem)⟩
  · intro hmem
    have hc := (h.staged id hmem).1.1
    rw [hnone] at hc
    simp at hc
  · intro hmem
    have hc := (h.handed id hmem).1
    rw [hnone] at hc
    simp at hc

theorem BootInv.produce (h : BootInv s) :
    BootInv { s with toCrashSys := s.toCrashSys.produce } := by
  have hring := ring_subperm_staged s.toCrashSys
  obtain ⟨sb, hs, hversion⟩ := h.superblock
  unfold CrashSys.produce
  cases hpc : s.pc with
  | idle => exact h
  | fsync => exact h
  | setRange base =>
    apply h.same
    refine samePages_of_pool rfl rfl ?_ hring rfl
    intro sb hsb
    dsimp only
    rw [hsb]
    exact ⟨_, rfl, rfl⟩
  | push base want i =>
    dsimp only
    split
    · exact h.same (samePages_of_pool rfl rfl (fun sb hsb => ⟨sb, hsb, rfl⟩) hring rfl)
    · -- the frame goes from the producer into the ring
      apply h.same
      refine samePages_of_pool rfl rfl (fun sb hsb => ⟨sb, hsb, rfl⟩) ?_ rfl
      show (s.ring ++ [base + i]).Subperm s.staged
      unfold CrashSys.staged
      rw [hpc]
      exact (List.perm_append_singleton _ _).subperm
  | create base want i =>
    dsimp only
    split
    · cases halloc : kds_buf_alloc_new s.pool (base + i) with
      | mk res pool =>
        obtain ⟨hsb, -, hok⟩ := alloc_new_cases halloc
        cases res with
        | error e => exact h.same (samePages_allocError halloc rfl hring rfl)
        | ok frame =>
          obtain ⟨hframeid, -⟩ := hok frame rfl
          obtain ⟨hnone, hself, hframe, hcached, hdisk⟩ := created_page halloc
          obtain ⟨hr, hst, hh, -⟩ := h.unused hnone
          -- at the loop test the producer holds no page
          have hidle : s.staged = s.ring := by
            unfold CrashSys.staged
            rw [hpc]
          rw [hidle] at hst
          have hblank : (pool.frame (base + i)).Blank := by
            rw [hframe]
            exact createdFrame_blank _
          apply BootInv.wrote
          -- a new page was not in use: neither ready nor handed out
          apply h.change (base + i)
          · exact ⟨sb, hsb.trans hs, hversion⟩
          · intro j hj
            exact alloc_new_frame halloc hj
          · exact hcached
          · intro j hj
            unfold CrashSys.initOnDisk
            dsimp only
            rw [hdisk j hj]
          · intro j hj
            exact hj
          · intro j hj
            exact Or.inr hj
          · intro hmem
            exact absurd hmem hr
          · exact h.tables
          · intro j hj
            rw [hidle]
            exact List.mem_cons.mp hj
          · have hnd := h.nodup
            rw [hidle] at hnd
            exact List.nodup_cons.mpr ⟨hst, hnd⟩
          · intro _
            exact ⟨⟨hself, hblank⟩, hr, hh⟩
          · intro j hj
            exact Or.inr hj
          · intro hmem
            exact absurd hmem hh
    · exact h.same (samePages_of_pool rfl rfl (fun sb hsb => ⟨sb, hsb, rfl⟩) hring rfl)

/-- The frame of a page is replaced by one for the same use. -/
theorem BootInv.replace {id : PageId} {f : Frame} (h : BootInv s)
    (hready : id ∈ s.ready → ReadyFrame f s.ready ∧
      (ClearOfSuperblock id → f.HasRows →
        f.hdr.has KDS_PAGE_FLAG_DIRTY = true ∨ s.initOnDisk id = true))
    (hstaged : id ∈ s.staged → f.Blank)
    (hhanded : id ∈ s.handed → id ∉ s.ready → f.hdr.type = .wal ∨ f.Blank) :
    BootInv (s.setFrame id f) := by
  have hframe : (s.setFrame id f).pool.frame id = f := Pool.frame_setFrame_self _ _ _
  have hself : ((s.setFrame id f).pool.cached id).isSome := by
    show (Function.update s.pool.cached id (some f) id).isSome
    rw [Function.update_self]
    rfl
  -- what the page is used for stays, so only the new frame has to fit that use
  apply h.change id
  · exact h.superblock
  · intro j hj
    exact Pool.frame_setFrame_ne _ _ hj
  · intro j hj
    exact Pool.loaded_setFrame hj
  · intro j hj
    rfl
  · intro j hj
    exact hj
  · intro j hj
    exact Or.inr hj
  · intro hmem
    unfold BootSys.Marked
    rw [hframe]
    exact ⟨⟨hself, (hready hmem).1⟩, (hready hmem).2⟩
  · exact h.tables
  · intro j hj
    exact Or.inr hj
  · exact h.nodup
  · intro hmem
    rw [hframe]
    exact ⟨⟨hself, hstaged hmem⟩, (h.staged id hmem).2⟩
  · intro j hj
    exact Or.inr hj
  · intro hmem
    rw [hframe]
    exact ⟨hself, hhanded hmem⟩

/-- A staged page is handed out. -/
theorem BootInv.taken {c : CrashSys} {id : PageId} {type : PageType} (h : BootInv s)
    (hpool : c.pool = setPageType s.pool id type) (hhanded : c.handed = id :: s.handed)
    (hperm : (id :: c.staged).Perm s.staged) : BootInv { s with toCrashSys := c } := by
  have hmem : id ∈ s.staged := hperm.subset List.mem_cons_self
  have hnd : (id :: c.staged).Nodup := hperm.nodup_iff.mpr h.nodup
  -- a staged page is blank and nobody's
  obtain ⟨⟨hcached, hblank⟩, hnr, hnh⟩ := h.staged id hmem
  -- only the type in the header changes
  have hframe : (c.pool.frame id).page = (s.pool.frame id).page := by
    rw [hpool]
    unfold setPageType
    rw [Pool.frame_setFrame_self]
  have hself : (c.pool.cached id).isSome := by
    rw [hpool]
    exact Pool.loaded_setFrame hcached
  apply h.change id
  · dsimp only
    rw [hpool]
    exact h.superblock
  · intro j hj
    dsimp only
    rw [hpool]
    exact Pool.frame_setFrame_ne _ _ hj
  · intro j hj
    dsimp only
    rw [hpool]
    exact Pool.loaded_setFrame hj
  · intro j hj
    unfold CrashSys.initOnDisk
    dsimp only
    rw [hpool]
    rfl
  · intro j hj
    exact hj
  · intro j hj
    exact Or.inr hj
  · intro hin
    exact absurd hin hnr
  · exact h.tables
  · intro j hj
    exact Or.inr (hperm.subset (List.mem_cons_of_mem _ hj))
  · exact (List.nodup_cons.mp hnd).2
  · intro hin
    exact absurd hin (List.nodup_cons.mp hnd).1
  · intro j hj
    dsimp only at hj
    rw [hhanded] at hj
    exact List.mem_cons.mp hj
  · intro _
    refine ⟨hself, fun _ => Or.inr ?_⟩
    intro a ha
    dsimp only
    rw [hframe]
    exact hblank a ha

theorem BootInv.consume {type : PageType} (h : BootInv s) :
    BootInv { s with toCrashSys := s.toCrashSys.consume type } := by
  unfold CrashSys.consume
  cases hring : s.ring with
  | nil => exact h
  | cons id ring =>
    refine h.taken rfl rfl ?_
    unfold CrashSys.staged
    dsimp only
    rw [hring]
    split
    · exact List.Perm.swap _ _ _
    · exact List.Perm.refl _

theorem sameBody_withHdr (f : Frame) (hdr : PageHdr) (htype : hdr.type = f.hdr.type) :
    SameBody f { f.withHdr with hdr := hdr } where
  body := by
    intro a ha
    show Mem.write _ 0 _ a = _
    rw [Mem.write_outside _ (by rw [PageHdr.length_bytes]; omega)]
  type := htype

theorem BootInv.flushed (id : PageId) (h : BootInv s) :
    BootInv { s with pool := (kds_frame_flush s.pool id).2 } := by
  have houtcome := frame_flush_outcome s.pool id
  have hother := fun j hj => houtcome.other (j := j) hj
  have hsb := houtcome.superblock
  generalize (kds_frame_flush s.pool id).2 = pool at houtcome hother hsb
  cases houtcome with
  | clean => exact h
  -- the header went into the page, and `DIRTY` stays
  | @failed f hf hdirty =>
    have hframe : s.pool.frame id = f := by
      unfold Pool.frame
      rw [hf, Option.getD_some]
    have hbody := sameBody_withHdr f f.hdr rfl
    have hstep : BootInv (s.setFrame id f.withHdr) := by
      apply h.replace
      · intro hmem
        have hr := (h.ready id hmem).2
        rw [hframe] at hr
        exact ⟨hbody.readyFrame rfl hr, fun _ _ => Or.inl hdirty⟩
      · intro hmem
        have hb := (h.staged id hmem).1.2
        rw [hframe] at hb
        exact hbody.blank hb
      · intro hmem hnr
        have hb := (h.handed id hmem).2 hnr
        rw [hframe] at hb
        exact hb.imp_right hbody.blank
    exact hstep.same (samePages_of_pool rfl rfl (fun sb hsb => ⟨sb, hsb, rfl⟩) (List.Subperm.refl _)
      rfl)
  -- the page is on disk, and `DIRTY` is cleared
  | @written f hf hdirty =>
    have hframe : s.pool.frame id = f := by
      unfold Pool.frame
      rw [hf, Option.getD_some]
    have hbody := sameBody_withHdr f (f.hdr.clear KDS_PAGE_FLAG_DIRTY) rfl
    have hframe' : Pool.frame (Pool.setFrame
        { s.pool.nextFail with disk := Function.update s.pool.disk id f.withHdr } id
        { f.withHdr with hdr := f.hdr.clear KDS_PAGE_FLAG_DIRTY }) id =
        { f.withHdr with hdr := f.hdr.clear KDS_PAGE_FLAG_DIRTY } := Pool.frame_setFrame_self _ _ _
    have hself : (Function.update s.pool.cached id
        (some { f.withHdr with hdr := f.hdr.clear KDS_PAGE_FLAG_DIRTY }) id).isSome := by
      rw [Function.update_self]
      rfl
    apply h.change id
    · exact h.superblock
    · intro j hj
      unfold Pool.frame
      rw [(hother j hj).1, (hother j hj).2]
    · intro j hj
      exact Pool.loaded_setFrame (p := { s.pool.nextFail with
        disk := Function.update s.pool.disk id f.withHdr }) hj
    · intro j hj
      unfold CrashSys.initOnDisk
      rw [(hother j hj).2]
    · intro j hj
      exact hj
    · intro j hj
      exact Or.inr hj
    · intro hmem
      have hr := (h.ready id hmem).2
      rw [hframe] at hr
      constructor
      · dsimp only
        rw [hframe']
        exact ⟨hself, hbody.readyFrame (clear_has_init _) hr⟩
      · intro _ _
        -- the mark is gone, but now the disk has `INIT`
        right
        show (Function.update s.pool.disk id f.withHdr id).hdr.has KDS_PAGE_FLAG_INIT = true
        rw [Function.update_self]
        exact hr.init
    · exact h.tables
    · intro j hj
      exact Or.inr hj
    · exact h.nodup
    · intro hmem
      have hb := (h.staged id hmem).1.2
      rw [hframe] at hb
      dsimp only
      rw [hframe']
      exact ⟨⟨hself, hbody.blank hb⟩, (h.staged id hmem).2⟩
    · intro j hj
      exact Or.inr hj
    · intro hmem
      dsimp only
      rw [hframe']
      refine ⟨hself, fun hnr => ?_⟩
      have hb := (h.handed id hmem).2 hnr
      rw [hframe] at hb
      exact hb.imp_right hbody.blank

theorem BootInv.flush {id : PageId} (h : BootInv s) :
    BootInv { s with toCrashSys := s.toCrashSys.flush id } := by
  have hflushed := h.flushed id
  unfold CrashSys.flush
  generalize kds_frame_flush s.pool id = res at hflushed
  obtain ⟨res, pool⟩ := res
  cases res with
  | error e => exact hflushed
  | ok u =>
    dsimp only
    split
    · exact BootInv.wrote id hflushed
    · exact hflushed

/-- A page that was just created is initialised. -/
theorem BootInv.newReady {c : CrashSys} {id frame : PageId} {pool : Pool} {f : Frame} (h : BootInv s)
    (halloc : kds_buf_alloc_new s.pool id = (.ok frame, pool))
    (hsb : c.pool.superblock = pool.superblock) (hdisk : c.pool.disk = pool.disk)
    (hself : c.pool.cached id = some f) (hother : ∀ j, j ≠ id → c.pool.cached j = pool.cached j)
    (hstaged : c.staged = s.staged) (hhanded : ∀ j ∈ c.handed, j = id ∨ j ∈ s.handed)
    (hr : ReadyFrame f (id :: s.ready)) (hrows : ¬ f.HasRows) :
    BootInv { s with toCrashSys := c, ready := id :: s.ready } := by
  obtain ⟨hnone, -, -, hcached, hd⟩ := created_page halloc
  obtain ⟨-, hst, hh, -⟩ := h.unused hnone
  have hframe : c.pool.frame id = f := by
    unfold Pool.frame
    rw [hself, Option.getD_some]
  have hsome : (c.pool.cached id).isSome := by
    rw [hself]
    rfl
  -- a page that is not cached was neither staged nor handed out
  apply h.change id
  · dsimp only
    rw [hsb, (alloc_new_cases halloc).1]
    exact h.superblock
  · intro j hj
    rw [← alloc_new_frame halloc hj]
    unfold Pool.frame
    dsimp only
    rw [hother j hj, hdisk]
  · intro j hj
    by_cases hji : j = id
    · rw [hji]
      exact hsome
    · dsimp only
      rw [hother j hji]
      exact hcached j hj
  · intro j hj
    unfold CrashSys.initOnDisk
    dsimp only
    rw [hdisk, hd j hj]
  · intro j hj
    exact List.mem_cons_of_mem _ hj
  · intro j hj
    exact List.mem_cons.mp hj
  · intro _
    dsimp only
    rw [hframe]
    exact ⟨⟨hsome, hr⟩, fun _ hr => absurd hr hrows⟩
  · intro j hj
    exact List.mem_cons_of_mem _ (h.tables j hj)
  · intro j hj
    dsimp only at hj
    rw [hstaged] at hj
    exact Or.inr hj
  · dsimp only
    rw [hstaged]
    exact h.nodup
  · intro hmem
    dsimp only at hmem
    rw [hstaged] at hmem
    exact absurd hmem hst
  · exact hhanded
  · intro _
    exact ⟨hsome, fun hnr => absurd List.mem_cons_self hnr⟩

theorem BootInv.bootstrap {id : PageId} (h : BootInv s) : BootInv (s.bootstrap id) := by
  unfold BootSys.bootstrap
  cases halloc : kds_buf_alloc_new s.pool id with
  | mk res pool =>
    obtain ⟨hsb, herr, hok⟩ := alloc_new_cases halloc
    cases res with
    | error e => exact h.same (samePages_allocError halloc rfl (List.Subperm.refl _) rfl)
    | ok frame =>
      obtain ⟨rfl, -⟩ := hok frame rfl
      obtain ⟨hr, hrows⟩ := heapPage_init (pool.frame frame) (frame :: s.ready)
      exact h.newReady halloc rfl rfl (Function.update_self ..)
        (fun j hj => Function.update_of_ne hj _ _) rfl (fun j hj => Or.inr hj) hr hrows

theorem BootInv.newNode {id : PageId} {type : PageType} (h : BootInv s)
    (htype : type = .btreeRoot ∨ type = .btreeInternal ∨ type = .btreeData) :
    BootInv (s.newNode id type) := by
  unfold BootSys.newNode CrashSys.newNode
  dsimp only
  cases halloc : kds_buf_alloc_new s.pool id with
  | mk res pool =>
    obtain ⟨hsb, herr, hok⟩ := alloc_new_cases halloc
    cases res with
    | error e => exact h.same (samePages_allocError halloc rfl (List.Subperm.refl _) rfl)
    | ok frame =>
      obtain ⟨rfl, -⟩ := hok frame rfl
      obtain ⟨-, -, hframe, -, -⟩ := created_page halloc
      have hblank := createdFrame_blank frame
      rw [← hframe] at hblank
      -- the header is set and committed, the body stays blank
      generalize hf : (pool.frame frame) = f at hblank
      have hbtree : ∀ g : Frame, g.hdr.type = type → kds_is_btree_page g = true := by
        intro g hg
        unfold kds_is_btree_page
        rw [hg]
        rcases htype with ht | ht | ht
        · rw [ht]; rfl
        · rw [ht]; rfl
        · rw [ht]; rfl
      generalize hg : kds_set_page_init { f with hdr := { f.hdr with type := type } } = g
      have hgtype : g.hdr.type = type := by rw [← hg]; rfl
      have hginit : g.hdr.has KDS_PAGE_FLAG_INIT = true := by
        rw [← hg]
        exact has_set (or_and_self _ _) (by decide)
      have hgpage : g.page = f.page := by rw [← hg]; rfl
      have hbody := sameBody_withHdr g g.hdr rfl
      have hgblank : g.Blank := by
        intro a ha
        rw [hgpage]
        exact hblank a ha
      have hr : ReadyFrame g.withHdr (frame :: s.ready) :=
        (hbody.blank hgblank).readyFrame (hbtree _ hgtype) hginit
      have hrows : ¬ g.withHdr.HasRows := by
        intro hrows
        have hheap : type = .heap := hgtype.symm.trans hrows.1
        rw [hheap] at htype
        simp at htype
      simp only [halloc]
      apply BootInv.wrote (s := { s with ready := frame :: s.ready })
      refine h.newReady halloc rfl rfl ?_ ?_ rfl (fun j hj => List.mem_cons.mp hj) hr hrows
      · dsimp only [kds_commit_page_hdr, setPageType]
        rw [Pool.frame_setFrame_self, Pool.frame_setFrame_self, hf, hg]
        exact Function.update_self ..
      · intro j hj
        dsimp only [kds_commit_page_hdr, setPageType, Pool.setFrame]
        rw [Function.update_of_ne hj, Function.update_of_ne hj, Function.update_of_ne hj]

/-- The owner of a page initialises it. -/
theorem BootInv.initPage {id : PageId} {type : PageType} {f : Frame} (h : BootInv s)
    (hfresh : s.Fresh id type) (hr : ReadyFrame f (id :: s.ready)) (hrows : ¬ f.HasRows) :
    BootInv (s.initPage id f) := by
  obtain ⟨hmem, hnr, -⟩ := hfresh
  have hframe : (s.initPage id f).pool.frame id = f := Pool.frame_setFrame_self _ _ _
  have hself : ((s.initPage id f).pool.cached id).isSome :=
    Pool.loaded_setFrame (h.handed id hmem).1
  apply h.change id
  · exact h.superblock
  · intro j hj
    exact Pool.frame_setFrame_ne _ _ hj
  · intro j hj
    exact Pool.loaded_setFrame hj
  · intro j hj
    rfl
  · intro j hj
    exact List.mem_cons_of_mem _ hj
  · intro j hj
    exact List.mem_cons.mp hj
  · intro _
    rw [hframe]
    exact ⟨⟨hself, hr⟩, fun _ hr => absurd hr hrows⟩
  · intro j hj
    exact List.mem_cons_of_mem _ (h.tables j hj)
  · intro j hj
    exact Or.inr hj
  · exact h.nodup
  · intro hst
    exact absurd hmem (h.staged id hst).2.2
  · intro j hj
    exact Or.inr hj
  · intro _
    exact ⟨hself, fun hnr => absurd List.mem_cons_self hnr⟩

/-- The frame of a page in use is replaced. -/
theorem BootInv.replaceReady {id : PageId} {f : Frame} (h : BootInv s) (hmem : id ∈ s.ready)
    (hr : ReadyFrame f s.ready)
    (hrows : ClearOfSuperblock id → f.HasRows →
      f.hdr.has KDS_PAGE_FLAG_DIRTY = true ∨ s.initOnDisk id = true) :
    BootInv (s.setFrame id f) := by
  apply h.replace
  · intro _
    exact ⟨hr, hrows⟩
  · intro hst
    exact absurd hmem (h.staged id hst).2.1
  · intro _ hnr
    exact absurd hmem hnr

theorem BootInv.putRow {id : PageId} (data : Mem) (data_len : UInt16) (xmin : UInt64)
    (h : BootInv s) (hheap : s.HeapPage id) : BootInv (s.putRow id data data_len xmin) := by
  obtain ⟨hmem, htype⟩ := hheap
  have hr := (h.ready id hmem).2
  unfold BootSys.putRow
  rcases hr.putRow (some data) data_len xmin htype with hsame | hput
  · rw [hsame]
    exact h.replaceReady hmem hr (h.rows id hmem)
  · exact h.replaceReady hmem hput.1 fun _ _ => Or.inl hput.2

theorem BootInv.register {id : PageId} {data : Mem} {data_len : UInt16} (h : BootInv s)
    (hheap : s.HeapPage KDS_CATALOG_PAGE_TABLES) (hmem : id ∈ s.ready) :
    BootInv (s.register id data data_len) := by
  have hput := h.putRow data data_len KDS_BOOTSTRAP_XID hheap
  unfold BootSys.register
  split
  · exact hput
  · refine ⟨hput.superblock, hput.ready, hput.rows, ?_, hput.staged, hput.nodup, hput.handed⟩
    intro j hj
    rcases List.mem_cons.mp hj with rfl | hj
    · exact hmem
    · exact hput.tables j hj

theorem BootInv.allocStep {c : CrashSys} {act : CrashAct} (h : BootInv s) (hrun : act.running = true)
    (hstep : crashSystem.step s.toCrashSys act c) : BootInv { s with toCrashSys := c } := by
  cases act with
  | batch count =>
    obtain ⟨hpc, rfl⟩ := hstep
    exact h.same (samePages_startBatch hpc)
  | produce =>
    obtain rfl := hstep
    exact h.produce
  | fsync now =>
    obtain rfl := hstep
    exact h.same (samePages_fsync _ _)
  | consume type =>
    obtain rfl := hstep
    exact h.consume
  | assign =>
    obtain rfl := hstep
    exact h.same (samePages_assign _)
  | load id =>
    obtain rfl := hstep
    exact h.same (samePages_load _ id)
  | flush id =>
    obtain rfl := hstep
    exact h.flush
  | newNode id type => simp [CrashAct.running] at hrun
  | write id f => simp [CrashAct.running] at hrun
  | restart fail => simp [CrashAct.running] at hrun

/-- What one step keeps. -/
theorem BootInv.step {act : BootAct} (h : BootInv s) (hstep : bootSystem.step s act s') :
    BootInv s' := by
  cases act with
  | alloc act =>
    obtain ⟨hrun, hact, hready, htables⟩ := hstep
    have hs' : s' = { s with toCrashSys := s'.toCrashSys } := by
      rw [← hready, ← htables]
    rw [hs']
    exact h.allocStep hrun hact
  | newNode id type =>
    obtain ⟨-, htype, rfl⟩ := hstep
    exact h.newNode htype
  | bootstrap id =>
    obtain ⟨-, rfl⟩ := hstep
    exact h.bootstrap
  | initHeap id =>
    obtain ⟨hfresh, rfl⟩ := hstep
    obtain ⟨hr, hrows⟩ := heapPage_init (s.pool.frame id) (id :: s.ready)
    exact h.initPage hfresh hr hrows
  | initRoot id =>
    obtain ⟨hfresh, rfl⟩ := hstep
    -- the page comes from `kds_page_alloc` and was not written since
    have hblank : (s.pool.frame id).Blank := by
      rcases (h.handed id hfresh.1).2 hfresh.2.1 with hwal | hb
      · rw [hfresh.2.2] at hwal
        simp at hwal
      · exact hb
    have hbtree : kds_is_btree_page (btree_init_root_kpage (s.pool.frame id)) = true := rfl
    have hr : ReadyFrame (btree_init_root_kpage (s.pool.frame id)) (id :: s.ready) :=
      Frame.Blank.readyFrame hblank hbtree (has_set (or_and_self _ _) (by decide))
    refine h.initPage hfresh hr ?_
    intro hrows
    have hheap : PageType.btreeRoot = .heap := hrows.1
    simp at hheap
  | putRow id data data_len xmin =>
    obtain ⟨hheap, rfl⟩ := hstep
    exact h.putRow data data_len xmin hheap
  | register id data data_len =>
    obtain ⟨hheap, hmem, rfl⟩ := hstep
    exact h.register hheap hmem
  -- a link is to a ready page, and sets `DIRTY`
  | link id next =>
    obtain ⟨⟨hmem, htype⟩, hnext, rfl⟩ := hstep
    have hr := (h.ready id hmem).2.link htype hnext
    exact h.replaceReady hmem hr fun _ _ => Or.inl (dirty_has_dirty _)
  | store id node =>
    obtain ⟨hmem, hbtree, hslots, rfl⟩ := hstep
    refine h.replaceReady hmem ((h.ready id hmem).2.store hbtree hslots) ?_
    -- a B-tree page has no rows, so it needs no mark
    intro _ hrows
    have hnb := not_btree_of_heap (f := s.pool.frame id) hrows.1
    rw [hbtree] at hnb
    simp at hnb
  | mark id =>
    obtain ⟨hmem, rfl⟩ := hstep
    have hbody : SameBody (s.pool.frame id) (kds_set_page_dirty (s.pool.frame id)) :=
      ⟨fun _ _ => rfl, rfl⟩
    have hr := hbody.readyFrame (dirty_has_init _) (h.ready id hmem).2
    exact h.replaceReady hmem hr fun _ _ => Or.inl (dirty_has_dirty _)
  -- log pages are handed out and never ready
  | walPage id f =>
    obtain ⟨⟨hmem, hnr, -⟩, hwal, rfl⟩ := hstep
    apply h.replace
    · intro hin
      exact absurd hin hnr
    · intro hst
      exact absurd hmem (h.staged id hst).2.2
    · intro _ _
      exact Or.inl hwal

theorem BootInv.init (h : bootSystem.init s) : BootInv s := by
  obtain ⟨⟨hvalid, hsb, -, hring, hpc, -, hhanded⟩, hready, htables⟩ := h
  have hstaged : s.staged = [] := by
    unfold CrashSys.staged
    rw [hpc, hring]
  constructor
  · exact ⟨s.diskSb, hsb, hvalid.version⟩
  · rw [hready]
    intro j hj
    simp at hj
  · rw [hready]
    intro j hj
    simp at hj
  · rw [htables]
    intro j hj
    simp at hj
  · rw [hstaged]
    intro j hj
    simp at hj
  · rw [hstaged]
    exact List.nodup_nil
  · rw [hhanded]
    intro j hj
    simp at hj

theorem bootInv_reachable (h : bootSystem.Reachable s) : BootInv s := by
  apply h.invariant BootInv
  · intro s hinit
    exact BootInv.init hinit
  · intro s act s' hinv hstep
    exact hinv.step hstep

end change

/-! ## Section 4: The restart -/

section restart

variable {s : BootSys} {p : Pool} {id : PageId}

/-- The page will have `INIT` on disk when its frame has been flushed. -/
def Pool.InitKept (p : Pool) (id : PageId) : Prop :=
  ∃ f, p.cached id = some f ∧ f.hdr.has KDS_PAGE_FLAG_INIT = true ∧
    (f.hdr.has KDS_PAGE_FLAG_DIRTY = true ∨ (p.disk id).hdr.has KDS_PAGE_FLAG_INIT = true)

theorem flush_noFailure (h : p.NoFailure) (j : PageId) : (kds_frame_flush p j).2.NoFailure := by
  have houtcome := frame_flush_outcome p j
  generalize (kds_frame_flush p j).2 = p' at houtcome
  cases houtcome with
  | clean => exact h
  | failed => exact fun n => h (n + 1)
  | written => exact fun n => h (n + 1)

/-- A flush that does not fail leaves a page clean or writes it. -/
theorem flush_initKept (hfail : p.NoFailure) (h : p.InitKept id) (j : PageId) :
    (kds_frame_flush p j).2.InitKept id ∧
      (j = id ∨ (p.disk id).hdr.has KDS_PAGE_FLAG_INIT = true →
        ((kds_frame_flush p j).2.disk id).hdr.has KDS_PAGE_FLAG_INIT = true) := by
  obtain ⟨f, hf, hinit, hmark⟩ := h
  by_cases hji : j = id
  · subst hji
    unfold kds_frame_flush
    rw [hf]
    dsimp only
    by_cases hd : f.hdr.has KDS_PAGE_FLAG_DIRTY = true
    · rw [if_neg (by simpa using hd), hfail 0]
      have hdisk : (Function.update p.disk j f.withHdr j).hdr.has KDS_PAGE_FLAG_INIT = true := by
        rw [Function.update_self]
        exact hinit
      refine ⟨⟨_, Function.update_self .., ?_, Or.inr hdisk⟩, fun _ => hdisk⟩
      rw [clear_has_init]
      exact hinit
    · rw [if_pos (by simpa using hd)]
      have hdisk := hmark.resolve_left hd
      exact ⟨⟨f, hf, hinit, Or.inr hdisk⟩, fun _ => hdisk⟩
  · obtain ⟨hcached, hdisk⟩ := (frame_flush_outcome p j).other (Ne.symm hji)
    unfold Pool.InitKept
    rw [hcached, hdisk]
    exact ⟨⟨f, hf, hinit, hmark⟩, fun h => h.resolve_left hji⟩

/-- **A completed flush** puts `INIT` on disk. -/
theorem flush_dirty_frames_init (frames : List PageId) : ∀ {p : Pool}, p.NoFailure →
    p.InitKept id → id ∈ frames ∨ (p.disk id).hdr.has KDS_PAGE_FLAG_INIT = true →
    ((kds_buf_flush_dirty_frames p frames).disk id).hdr.has KDS_PAGE_FLAG_INIT = true := by
  induction frames with
  | nil =>
    intro p _ _ h
    rcases h with h | h
    · simp at h
    · exact h
  | cons j frames ih =>
    intro p hfail hkept h
    obtain ⟨hkept', hdisk⟩ := flush_initKept hfail hkept j
    apply ih (flush_noFailure hfail j) hkept'
    rcases h with h | h
    · rcases List.mem_cons.mp h with h | h
      · exact Or.inr (hdisk (Or.inl h.symm))
      · exact Or.inl h
    · exact Or.inr (hdisk (Or.inr h))

theorem flush_dirty_frames_superblock (frames : List PageId) : ∀ (p : Pool),
    (kds_buf_flush_dirty_frames p frames).superblock = p.superblock := by
  induction frames with
  | nil =>
    intro p
    rfl
  | cons j frames ih =>
    intro p
    unfold kds_buf_flush_dirty_frames
    rw [ih]
    exact (frame_flush_outcome p j).superblock

/-- The scan of the boot is the one the superblock in memory asks for. -/
theorem reboot_in_scan {frames : List PageId} {now : UInt64} {fail : Nat → Option Errno}
    {sb : Superblock} (hsb : s.pool.superblock = some sb)
    (hid : id ∈ (s.reboot frames now fail).ring) : s.InScan id := by
  have hsb' : (kds_buf_flush_dirty_frames s.pool frames).superblock = some sb := by
    rw [flush_dirty_frames_superblock, hsb]
  unfold BootSys.reboot at hid
  generalize kds_buf_flush_dirty_frames s.pool frames = pool at hsb' hid
  obtain ⟨hpoint, hle, hlt, -⟩ := (restart_spec _ fail).2 id hid
  unfold CrashSys.fsync at hpoint hle hlt
  dsimp only at hpoint hle hlt
  rw [hsb'] at hpoint hle hlt
  exact ⟨sb, hsb, hpoint, hle, hlt⟩

/-- It finds what the flush has left on disk. -/
theorem reboot_ring {frames : List PageId} {now : UInt64} {fail : Nat → Option Errno} {sb : Superblock}
    (hsb : s.pool.superblock = some sb) (hclear : ClearOfSuperblock id)
    (hid : id ∈ (s.reboot frames now fail).ring) :
    ((kds_buf_flush_dirty_frames s.pool frames).disk id).hdr.has KDS_PAGE_FLAG_INIT = false := by
  have hsb' : (kds_buf_flush_dirty_frames s.pool frames).superblock = some sb := by
    rw [flush_dirty_frames_superblock, hsb]
  unfold BootSys.reboot at hid
  generalize kds_buf_flush_dirty_frames s.pool frames = pool at hsb' hid ⊢
  obtain ⟨-, -, -, hnot⟩ := (restart_spec _ fail).2 id hid
  unfold CrashSys.initOnDisk CrashSys.fsync at hnot
  dsimp only at hnot
  rw [hsb'] at hnot
  dsimp only [Pool.writeSuperblock] at hnot
  rw [if_pos hclear] at hnot
  exact hnot

/-- **Live pages and the reclaim scan**: when every live page that the scan comes to
    has rows or is marked dirty, the restart recycles no live page. -/
theorem reclaim_spares_live_pages {frames : List PageId} {now : UInt64} {fail : Nat → Option Errno}
    (h : bootSystem.Reachable s) (hmarked : s.MarkedInScan)
    (hframes : ∀ j, (s.pool.cached j).isSome → j ∈ frames) (hfail : s.pool.NoFailure)
    (hlive : s.Live id) : id ∉ (s.reboot frames now fail).ring := by
  have hinv := bootInv_reachable h
  obtain ⟨sb, hsb, -⟩ := hinv.superblock
  have hready := hinv.live hlive
  obtain ⟨hcached, hr⟩ := hinv.ready id hready
  intro hring
  obtain ⟨hclear, hrows⟩ := hmarked id hlive (reboot_in_scan hsb hring)
  have hmark : s.Marked id := by
    rcases hrows with hrows | hm
    · exact hinv.rows id hready hclear hrows
    · exact hm
  -- the page is in the pool, so the flush puts its flags on disk
  obtain ⟨f, hf⟩ := Option.isSome_iff_exists.mp hcached
  have hframe : s.pool.frame id = f := by
    unfold Pool.frame
    rw [hf, Option.getD_some]
  have hkept : s.pool.InitKept id := by
    refine ⟨f, hf, ?_, ?_⟩
    · rw [← hframe]
      exact hr.init
    · rw [← hframe]
      exact hmark
  have hinit := flush_dirty_frames_init frames hfail hkept (Or.inl (hframes id hcached))
  rw [reboot_ring hsb hclear hring] at hinit
  simp at hinit

end restart

/-! ## Section 5: Two tables -/

/-- A first boot. The third operation that can fail does so. -/
def firstBoot : BootSys where
  pool :=
    { superblock := some (init_superblock_and_fsync 0)
      cached := fun _ => none
      refcnt := fun _ => 0
      disk := fun id => newFrame id 0
      fail := fun n => if n = 2 then some .ENOMEM else none }
  diskSb := init_superblock_and_fsync 0
  ring := []
  pc := .idle
  assigned := []
  handed := []
  ready := []
  tables := []

/-- The allocator has taken steps. -/
def BootSys.withAlloc (s : BootSys) (c : CrashSys) : BootSys := { s with toCrashSys := c }

/-- A batch that ends at the third page. -/
def firstBatch : CrashSys :=
  ((firstBoot.startBatch PRE_ALLOC_NUM).produce.produce.produce.produce.produce.produce).fsync
    (some 0)

/-- The first page went to the log, and `sys.tables` has its page. -/
def firstCatalog : BootSys :=
  (firstBoot.withAlloc (firstBatch.consume .wal)).bootstrap KDS_CATALOG_PAGE_TABLES

/-- The second page is handed out with this type. -/
def secondPage (type : PageType) : BootSys := firstCatalog.withAlloc (firstCatalog.consume type)

/-- `CREATE TABLE` with a B-tree. -/
def btreeTableCreated : BootSys :=
  ((secondPage .btreeRoot).initPage 129
    (btree_init_root_kpage ((secondPage .btreeRoot).pool.frame 129))).register 129 (fun _ => 0) 8

/-- `CREATE TABLE` with a heap. -/
def heapTableCreated : BootSys :=
  ((secondPage .heap).initPage 129
    (heap_init_page ((secondPage .heap).pool.frame 129))).register 129 (fun _ => 0) 8

/-- A step of the allocator. -/
theorem BootSys.alloc_step {s : BootSys} {c : CrashSys} (act : CrashAct)
    (h : bootSystem.Reachable s) (hrun : act.running = true) (hstep : crashSystem.step s.toCrashSys act c) :
    bootSystem.Reachable (s.withAlloc c) :=
  .step (.alloc act) h ⟨hrun, hstep, rfl, rfl⟩

theorem firstCatalog_reachable : bootSystem.Reachable firstCatalog := by
  have h₀ : bootSystem.Reachable firstBoot :=
    .init ⟨⟨⟨rfl, by decide⟩, rfl, fun _ => rfl, rfl, rfl, rfl, rfl⟩, rfl, rfl⟩
  have h₁ := BootSys.alloc_step (.batch PRE_ALLOC_NUM) h₀ rfl ⟨rfl, rfl⟩
  have h₂ := BootSys.alloc_step .produce h₁ rfl rfl
  have h₃ := BootSys.alloc_step .produce h₂ rfl rfl
  have h₄ := BootSys.alloc_step .produce h₃ rfl rfl
  have h₅ := BootSys.alloc_step .produce h₄ rfl rfl
  have h₆ := BootSys.alloc_step .produce h₅ rfl rfl
  have h₇ := BootSys.alloc_step .produce h₆ rfl rfl
  have h₈ := BootSys.alloc_step (.fsync (some 0)) h₇ rfl rfl
  have h₉ := BootSys.alloc_step (.consume .wal) h₈ rfl rfl
  exact .step (.bootstrap KDS_CATALOG_PAGE_TABLES) h₉ ⟨by decide, rfl⟩

theorem firstCatalog_cached {j : PageId} (hj : j ∉ [KDS_CATALOG_PAGE_TABLES, 128, 129]) :
    firstCatalog.pool.cached j = none := by
  simp only [List.mem_cons, List.not_mem_nil, or_false, not_or] at hj
  obtain ⟨htables, hwal, htable⟩ := hj
  have hbatch : firstBatch.pool.cached =
      Function.update (Function.update (fun _ => none) 128 (some (createdFrame 128))) 129
        (some (createdFrame 129)) := rfl
  have hlog : (firstBatch.consume .wal).pool.cached j = firstBatch.pool.cached j :=
    Function.update_of_ne hwal _ _
  have hcatalog : firstCatalog.pool.cached j = (firstBatch.consume .wal).pool.cached j :=
    (Function.update_of_ne htables _ _).trans (Function.update_of_ne htables _ _)
  rw [hcatalog, hlog, hbatch, Function.update_of_ne htable, Function.update_of_ne hwal]

theorem putRow_cached {s : BootSys} {id j : PageId} {data : Mem} {data_len : UInt16} {xmin : UInt64}
    (hj : j ≠ id) : (s.putRow id data data_len xmin).pool.cached j = s.pool.cached j :=
  Function.update_of_ne hj _ _

theorem putRow_fail (s : BootSys) (id : PageId) (data : Mem) (data_len : UInt16) (xmin : UInt64) :
    (s.putRow id data data_len xmin).pool.fail = s.pool.fail := rfl

/-- The frames that the two tables leave in the pool. -/
theorem table_cached {s : BootSys} {type : PageType} {f : Frame} {j : PageId}
    (hs : s = ((secondPage type).initPage 129 f).register 129 (fun _ => 0) 8)
    (hj : (s.pool.cached j).isSome) : j ∈ [KDS_CATALOG_PAGE_TABLES, 128, 129] := by
  by_contra hne
  have hcatalog := firstCatalog_cached hne
  simp only [List.mem_cons, List.not_mem_nil, or_false, not_or] at hne
  obtain ⟨htables, -, htable⟩ := hne
  have hpage : ((secondPage type).initPage 129 f).pool.cached j = firstCatalog.pool.cached j :=
    (Function.update_of_ne htable _ _).trans (Function.update_of_ne htable _ _)
  have hrow : s.pool.cached j = ((secondPage type).initPage 129 f).pool.cached j := by
    rw [hs]
    unfold BootSys.register
    split
    · exact putRow_cached htables
    · exact putRow_cached htables
  rw [hrow, hpage, hcatalog] at hj
  simp at hj

theorem table_noFailure (type : PageType) (f : Frame) :
    (((secondPage type).initPage 129 f).register 129 (fun _ => 0) 8).pool.NoFailure := by
  intro n
  have hfail : ((secondPage type).initPage 129 f).pool.fail n = firstBoot.pool.fail (n + 4) := rfl
  have hrow : (((secondPage type).initPage 129 f).register 129 (fun _ => 0) 8).pool.fail n =
      ((secondPage type).initPage 129 f).pool.fail n := by
    unfold BootSys.register
    split
    · rfl
    · rfl
  rw [hrow, hfail]
  show (if n + 4 = 2 then some Errno.ENOMEM else none) = none
  exact if_neg (by omega)

/-- A heap table with a row. -/
def heapTableFilled : BootSys := heapTableCreated.putRow 129 (fun _ => 0) 8 1

/-- A table with rows is kept. -/
theorem reclaim_spares_heap_table : bootSystem.Reachable heapTableFilled ∧ heapTableFilled.Live 129 ∧
    129 ∉ (heapTableFilled.reboot [KDS_CATALOG_PAGE_TABLES, 128, 129] 0 (fun _ => none)).ring := by
  have h₁ := BootSys.alloc_step (.consume .heap) firstCatalog_reachable rfl rfl
  have h₂ : bootSystem.Reachable ((secondPage .heap).initPage 129
      (heap_init_page ((secondPage .heap).pool.frame 129))) :=
    .step (.initHeap 129) h₁ ⟨⟨by decide +kernel, by decide +kernel, rfl⟩, rfl⟩
  have h₃ : bootSystem.Reachable heapTableCreated :=
    .step (.register 129 (fun _ => 0) 8) h₂
      ⟨⟨by decide +kernel, rfl⟩, by decide +kernel, rfl⟩
  have h₄ : bootSystem.Reachable heapTableFilled :=
    .step (.putRow 129 (fun _ => 0) 8 1) h₃ ⟨⟨by decide +kernel, by decide +kernel⟩, rfl⟩
  have hlive : heapTableFilled.Live 129 := .table (by decide +kernel)
  refine ⟨h₄, hlive, reclaim_spares_live_pages h₄ ?_ ?_ ?_ hlive⟩
  · intro id hid ⟨sb, hsb, _, hle, _⟩
    have hmem := (bootInv_reachable h₄).live hid
    have hready : heapTableFilled.ready = [129, KDS_CATALOG_PAGE_TABLES] := by decide +kernel
    have hpoint : heapTableFilled.pool.superblock.map (·.alloc_point) = some 128 := by
      decide +kernel
    rw [hsb] at hpoint
    have hle' : (128 : PageId) ≤ id := (Option.some.inj hpoint).symm ▸ hle
    rw [hready] at hmem
    rcases List.mem_cons.mp hmem with rfl | hmem
    · exact ⟨by decide +kernel, Or.inl ⟨by decide +kernel, by decide +kernel⟩⟩
    · obtain rfl := List.mem_singleton.mp hmem
      exact absurd hle' (by decide)
  · intro j hj
    by_cases hself : j = 129
    · rw [hself]
      decide
    · unfold heapTableFilled at hj
      rw [putRow_cached hself] at hj
      exact table_cached rfl hj
  · intro n
    unfold heapTableFilled
    rw [putRow_fail]
    exact table_noFailure .heap _ n

/-- The root of an empty B-tree is recycled: `btree_init_root_kpage` sets `INIT`
    and not `DIRTY`, so the flush passes it by. -/
theorem btree_root_recycled : bootSystem.Reachable btreeTableCreated ∧
    (∀ j, (btreeTableCreated.pool.cached j).isSome → j ∈ [KDS_CATALOG_PAGE_TABLES, 128, 129]) ∧
    btreeTableCreated.pool.NoFailure ∧ btreeTableCreated.Live 129 ∧
    129 ∈ (btreeTableCreated.reboot [KDS_CATALOG_PAGE_TABLES, 128, 129] 0 (fun _ => none)).ring := by
  have h₁ := BootSys.alloc_step (.consume .btreeRoot) firstCatalog_reachable rfl rfl
  have h₂ : bootSystem.Reachable ((secondPage .btreeRoot).initPage 129
      (btree_init_root_kpage ((secondPage .btreeRoot).pool.frame 129))) :=
    .step (.initRoot 129) h₁ ⟨⟨by decide +kernel, by decide +kernel, rfl⟩, rfl⟩
  have h₃ : bootSystem.Reachable btreeTableCreated :=
    .step (.register 129 (fun _ => 0) 8) h₂
      ⟨⟨by decide +kernel, rfl⟩, by decide +kernel, rfl⟩
  refine ⟨h₃, ?_, table_noFailure .btreeRoot _, .table (by decide +kernel),
    by decide +kernel⟩
  intro j hj
  exact table_cached rfl hj

end Kds
