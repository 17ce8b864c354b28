import Kds.Alloc.Live
import Kds.Exec.Marks
import Kds.Wal.Lsn

/-! # Clean frames and the disk

    A flush passes every frame by that has `DIRTY` clear, so such a frame has
    to be what is on disk. The calls that change pages: the allocator, catalog
    creation, the phases of both insert executors, `kds_index_insert`,
    `btree_delete` and the log, next to loads, flushes and the superblock.

    Most of them keep their contract with `DIRTY` (`Kds.Buf.Marks`). The ones
    that take a page from the ring do not, and neither does an insert into a
    leaf: these are right only where the page was marked before.
-/

open Bytes Lts

namespace Kds

/-! ## Section 1: Catalog rows -/

/-- What a caller puts into a catalog page. -/
structure CatalogRow where
  page_id : PageId
  data : Mem
  data_len : UInt16

/-- `kds_catalog_insert_object_row`, `kds_catalog_insert_relation_row`,
    `insert_sys_column_row` and `insert_sys_type_row`, with the row they build. -/
def insertCatalogRow (p : Pool) (row : CatalogRow) : Except Errno HeapTid × Pool :=
  match kds_buf_lookup_or_load p row.page_id with
  | (.error e, p) => (.error e, p)
  | (.ok frame, p) =>
      let (res, f) := heap_insert_tuple (p.frame frame) (some row.data) row.data_len KDS_BOOTSTRAP_XID
      (res, kds_buf_unpin (p.setFrame frame f) frame)

/-- Rows one after the other, up to the first that fails. -/
def insertCatalogRows (p : Pool) : (rows : List CatalogRow) → Except Errno Unit × Pool
  | [] => (.ok (), p)
  | row :: rows =>
      match insertCatalogRow p row with
      | (.error e, p) => (.error e, p)
      | (.ok _, p) => insertCatalogRows p rows

/-- `bootstrap_one_catalog_page`. -/
def bootstrap_one_catalog_page (p : Pool) (id : PageId) : Except Errno Unit × Pool :=
  match kds_buf_alloc_new p id with
  | (.error e, p) => (.error e, p)
  | (.ok frame, p) =>
      (.ok (), kds_buf_unpin (p.setFrame frame (heap_init_page (p.frame frame))) frame)

/-- `kds_page_alloc` for the root of a relation. -/
def ClusteredType.rootType : ClusteredType → PageType
  | .heap => .heap
  | .btree => .btreeRoot

/-- `heap_init_page` or `btree_init_root_kpage`. -/
def ClusteredType.initRoot : ClusteredType → Frame → Frame
  | .heap => heap_init_page
  | .btree => btree_init_root_kpage

/-- The pages of `kds_catalog_create_table` and `kds_relation_create_index`: the root
    is taken and initialised, then the rows that name it are inserted. -/
def createRelation (env : ExecEnv) (kind : ClusteredType) (rows : PageId → List CatalogRow) :
    Except Errno PageId × ExecEnv :=
  match kds_page_alloc env kind.rootType with
  | (none, env) => (.error .ENOSPC, env)
  | (some root, env) =>
      let pool := env.pool.setFrame root (kind.initRoot (env.pool.frame root))
      let (res, pool) := insertCatalogRows pool (rows root)
      (res.map fun _ => root, { env with pool := kds_buf_unpin pool root })

/-! ## Section 2: Steps -/

inductive PoolAct where
  /-- `kds_buf_lookup_or_load`. -/
  | load (id : PageId)
  /-- One page of `kds_batch_alloc`: it is created and goes into the ring. -/
  | batchPage (id : PageId)
  /-- `kds_page_alloc`. -/
  | pageAlloc (type : PageType)
  | bootstrap (id : PageId)
  | catalogRow (row : CatalogRow)
  | createRelation (kind : ClusteredType) (rows : PageId → List CatalogRow)
  /-- A phase of `kds_heap_insert_exec_run`. -/
  | heapPhase (rel : Relation) (turns : Nat) (exec : HeapInsertExec)
  /-- A phase of `kds_btree_insert_exec_run`. -/
  | btreePhase (rel : Relation) (exec : BtreeInsertExec)
  | indexInsert (rel : Relation) (key : TupleId) (value : PageId)
  | delete (root : PageId) (key : TupleId)
  /-- The log writes to a page, and marks it. -/
  | walPage (id : PageId) (f : Frame)
  | flush (id : PageId)
  | flushDirty (frames : List PageId)
  | fsync (superblock : Superblock)

/-- One call. The executors go on with any exec, and a call that faults does not
    return. -/
def poolSystem (crc32c : UInt32 → List UInt8 → UInt32) : System ExecEnv PoolAct where
  init := fun s => (∀ id, s.pool.cached id = none) ∧ s.staged = []
  step := fun s act s' =>
    match act with
    | .load id => s' = { s with pool := (kds_buf_lookup_or_load s.pool id).2 }
    | .batchPage id =>
        match kds_buf_alloc_new s.pool id with
        | (.error _, pool) => s' = { s with pool := pool }
        | (.ok id, pool) => s' = { s with pool := pool, staged := s.staged ++ [id] }
    | .pageAlloc type => s' = (kds_page_alloc s type).2
    | .bootstrap id => s' = { s with pool := (bootstrap_one_catalog_page s.pool id).2 }
    | .catalogRow row => s' = { s with pool := (insertCatalogRow s.pool row).2 }
    | .createRelation kind rows => s' = (createRelation s kind rows).2
    | .heapPhase rel turns exec =>
        ∃ res exec', heapRunPhase crc32c rel turns exec s = some (res, exec', s')
    | .btreePhase rel exec => ∃ res exec', runPhase crc32c rel exec s = .ok (res, exec', s')
    | .indexInsert rel key value =>
        ∃ res pool, kds_index_insert s.pool rel key value = .ok (res, pool) ∧
          s' = { s with pool := pool }
    | .delete root key =>
        ∃ res pool, btree_delete s.pool root key = .ok (res, pool) ∧ s' = { s with pool := pool }
    | .walPage id f => f.dirty = true ∧ s' = { s with pool := s.pool.setFrame id f }
    | .flush id => s' = { s with pool := (kds_frame_flush s.pool id).2 }
    | .flushDirty frames => s' = { s with pool := kds_buf_flush_dirty_frames s.pool frames }
    | .fsync superblock => s' = { s with pool := s.pool.writeSuperblock superblock }

/-- The call finds every page marked that it is going to change without a mark. -/
def MarkedBefore (s : ExecEnv) : PoolAct → Prop
  | .pageAlloc type =>
      ∀ id staged, s.staged = id :: staged →
        (s.pool.frame id).dirty = true ∨ (s.pool.frame id).hdr.type = type
  | .bootstrap id => (s.pool.cached id).isSome ∨ (s.pool.fail 0).isSome
  | .createRelation _ _ => RingMarked s
  | .heapPhase _ _ exec => exec.phase = .findTail → RingMarked s ∨ RowFits exec.data_len
  | .btreePhase _ exec =>
      (exec.phase = .heapInsert → exec.need_new_page = true →
        RingMarked s ∨ RowFits exec.data_len) ∧
      (exec.phase = .btreeInsert → LeafMarked s.pool exec.cursor)
  | .indexInsert rel key _ =>
      ∀ cursor p, kds_btree_cursor_search s.pool rel.root_page_id key = .ok (.ok (), cursor, p) →
        LeafMarked s.pool cursor
  | .delete root key => DeleteMarked s.pool root key
  | .fsync _ =>
      -- the page on the sectors of the superblock is overwritten on disk
      ∀ id f, ¬ ClearOfSuperblock id → s.pool.cached id = some f → f.dirty = true
  | _ => True

/-! ## Section 3: What every state keeps -/

/-- Type, flags apart from `DIRTY`, and body. -/
structure Frame.SameContents (f g : Frame) : Prop where
  type : f.hdr.type = g.hdr.type
  flags : (f.hdr.clear KDS_PAGE_FLAG_DIRTY).flags = (g.hdr.clear KDS_PAGE_FLAG_DIRTY).flags
  body : ∀ a, KDS_PAGE_HDR_SIZE ≤ a → f.page a = g.page a

/-- A frame with `DIRTY` clear is what is on disk. -/
def Pool.CleanMatches (p : Pool) : Prop :=
  ∀ id f, p.cached id = some f → f.dirty = false → f.SameContents (p.disk id)

section clean

variable {f g h : Frame} {p p' : Pool} {id : PageId}

theorem Frame.SameContents.refl (f : Frame) : f.SameContents f := ⟨rfl, rfl, fun _ _ => rfl⟩

theorem Frame.SameContents.symm (hs : f.SameContents g) : g.SameContents f :=
  ⟨hs.type.symm, hs.flags.symm, fun a ha => (hs.body a ha).symm⟩

theorem Frame.SameContents.trans (hs : f.SameContents g) (hs' : g.SameContents h) :
    f.SameContents h :=
  ⟨hs.type.trans hs'.type, hs.flags.trans hs'.flags, fun a ha => (hs.body a ha).trans (hs'.body a ha)⟩

/-- Clearing `DIRTY` twice. -/
theorem clear_clear (hdr : PageHdr) (flag : UInt8) : (hdr.clear flag).clear flag = hdr.clear flag := by
  unfold PageHdr.clear
  dsimp only
  rw [UInt8.and_assoc, UInt8.and_self]

/-- The header in front of the buffer is no part of the body. -/
theorem sameContents_withHdr (f : Frame) : f.withHdr.SameContents f := by
  refine ⟨rfl, rfl, fun a ha => ?_⟩
  exact Mem.write_outside _ (by rw [PageHdr.length_bytes]; right; omega)

/-- A written frame with `DIRTY` cleared behind it. -/
theorem sameContents_written (f : Frame) :
    ({ f.withHdr with hdr := f.hdr.clear KDS_PAGE_FLAG_DIRTY } : Frame).SameContents f.withHdr :=
  ⟨rfl, congrArg PageHdr.flags (clear_clear f.hdr _), fun _ _ => rfl⟩

theorem frame_of_cached (hf : p.cached id = some f) : p.frame id = f := by
  unfold Pool.frame
  rw [hf, Option.getD_some]

theorem frame_of_not_cached (hf : p.cached id = none) : p.frame id = { p.disk id with id := id } := by
  unfold Pool.frame
  rw [hf, Option.getD_none]

theorem setFrame_cached (p : Pool) (id : PageId) (f : Frame) : (p.setFrame id f).cached id = some f :=
  Function.update_self ..

/-- **A call that keeps its contract** leaves the clean frames as they are. -/
theorem Pool.CleanMatches.marks (hc : p.CleanMatches) (hm : p.MarksAll p') : p'.CleanMatches := by
  intro id f hf hd
  have hframe := frame_of_cached hf
  rw [hm.disk]
  rcases hm.frame id with heq | hdirty | hfalse
  · rw [hframe] at heq
    cases hold : p.cached id with
    | some g =>
      rw [frame_of_cached hold] at heq
      rw [heq] at hd ⊢
      exact hc id g hold hd
    | none =>
      -- the page was loaded
      rw [heq, frame_of_not_cached hold]
      exact ⟨rfl, rfl, fun _ _ => rfl⟩
  · rw [hframe, hd] at hdirty
    simp at hdirty
  · exact hfalse.elim

/-- One frame and its page on disk change. -/
theorem Pool.CleanMatches.change (hc : p.CleanMatches)
    (hother : ∀ j, j ≠ id → p'.cached j = p.cached j ∧ p'.disk j = p.disk j)
    (hself : ∀ f, p'.cached id = some f → f.dirty = false → f.SameContents (p'.disk id)) :
    p'.CleanMatches := by
  intro j f hf hd
  by_cases hj : j = id
  · rw [hj] at hf ⊢
    exact hself f hf hd
  · rw [(hother j hj).2]
    rw [(hother j hj).1] at hf
    exact hc j f hf hd

theorem Pool.CleanMatches.flush (hc : p.CleanMatches) (id : PageId) :
    (kds_frame_flush p id).2.CleanMatches := by
  have houtcome := frame_flush_outcome p id
  generalize (kds_frame_flush p id).2 = p' at houtcome
  refine hc.change (fun j hj => houtcome.other hj) ?_
  intro g hg hd
  cases houtcome with
  | clean => exact hc id g hg hd
  | @failed f hf hdirty =>
    -- the frame keeps `DIRTY`
    rw [setFrame_cached] at hg
    rw [← Option.some.inj hg] at hd
    rw [show f.hdr.has KDS_PAGE_FLAG_DIRTY = false from hd] at hdirty
    simp at hdirty
  | @written f hf hdirty =>
    rw [setFrame_cached] at hg
    rw [← Option.some.inj hg]
    dsimp only [Pool.setFrame]
    rw [Function.update_self]
    exact sameContents_written f

/-- A new page is on disk as its frame has it. -/
theorem Pool.CleanMatches.created (hc : p.CleanMatches) {res : Except Errno PageId}
    (halloc : kds_buf_alloc_new p id = (res, p')) : p'.CleanMatches := by
  obtain ⟨-, herr, hok⟩ := alloc_new_cases halloc
  cases res with
  | error e =>
    obtain ⟨hcached, hdisk⟩ := herr e rfl
    intro j f hf hd
    rw [hcached] at hf
    rw [hdisk]
    exact hc j f hf hd
  | ok frame =>
    obtain ⟨-, -, hdisk, hcached⟩ := hok frame rfl
    apply hc.change
    · intro j hj
      rw [hcached, hdisk]
      exact ⟨Function.update_of_ne hj _ _, Function.update_of_ne hj _ _⟩
    · intro g hg _
      rw [hcached, Function.update_self] at hg
      rw [hdisk, Function.update_self, ← Option.some.inj hg]
      refine ⟨rfl, ?_, fun _ _ => rfl⟩
      show KDS_PAGE_FLAG_ALLOC &&& ~~~KDS_PAGE_FLAG_DIRTY =
        (KDS_PAGE_FLAG_ALLOC ||| KDS_PAGE_FLAG_DIRTY) &&& ~~~KDS_PAGE_FLAG_DIRTY
      decide

end clean

/-! ## Section 4: Calls -/

section calls

variable {s s' : ExecEnv} {p p' : Pool}

theorem insertCatalogRow_marks {row : CatalogRow} {res : Except Errno HeapTid}
    (h : insertCatalogRow p row = (res, p')) : p.MarksAll p' := by
  unfold insertCatalogRow at h
  cases hload : kds_buf_lookup_or_load p row.page_id with
  | mk ret p₁ =>
    have h₁ : p.MarksAll p₁ := .loadOnly (lookup_or_load_loadOnly hload).1
    rw [hload] at h
    cases ret with
    | error e =>
      obtain ⟨-, rfl⟩ := Prod.mk.inj h
      exact h₁
    | ok frame =>
      dsimp only at h
      generalize hrow : heap_insert_tuple (p₁.frame frame) (some row.data) row.data_len
        KDS_BOOTSTRAP_XID = out at h
      obtain ⟨-, rfl⟩ := Prod.mk.inj h
      exact (h₁.trans (heap_insert_marks hrow)).unpin frame

theorem insertCatalogRows_marks (rows : List CatalogRow) : ∀ {p p' : Pool} {res : Except Errno Unit},
    insertCatalogRows p rows = (res, p') → p.MarksAll p' := by
  induction rows with
  | nil =>
    intro p p' res h
    obtain ⟨-, rfl⟩ := Prod.mk.inj h
    exact .refl p
  | cons row rows ih =>
    intro p p' res h
    unfold insertCatalogRows at h
    cases hrow : insertCatalogRow p row with
    | mk ret p₁ =>
      have h₁ := insertCatalogRow_marks hrow
      rw [hrow] at h
      cases ret with
      | error e =>
        obtain ⟨-, rfl⟩ := Prod.mk.inj h
        exact h₁
      | ok tid => exact h₁.trans (ih h)

theorem initRoot_dirty (kind : ClusteredType) (f : Frame) (h : f.dirty = true) :
    (kind.initRoot f).dirty = true := by
  cases kind with
  | heap => exact init_dirty f h
  | btree => exact init_dirty f h

theorem createRelation_marks {kind : ClusteredType} {rows : PageId → List CatalogRow}
    (hring : RingMarked s) : s.pool.MarksAll (createRelation s kind rows).2.pool := by
  unfold createRelation kds_page_alloc
  cases hs : s.staged with
  | nil => exact .refl _
  | cons root staged =>
    have hd := hring root staged hs
    have htype : s.pool.MarksAll (setPageType s.pool root kind.rootType) := .setDirty hd
    have hinit : (setPageType s.pool root kind.rootType).MarksAll
        ((setPageType s.pool root kind.rootType).setFrame root
          (kind.initRoot ((setPageType s.pool root kind.rootType).frame root))) :=
      .setDirty (initRoot_dirty kind _ (htype.dirty root hd))
    dsimp only
    generalize (setPageType s.pool root kind.rootType).setFrame root
      (kind.initRoot ((setPageType s.pool root kind.rootType).frame root)) = p₁ at hinit
    generalize hrows : insertCatalogRows p₁ (rows root) = out
    obtain ⟨res, p₂⟩ := out
    exact ((htype.trans hinit).trans (insertCatalogRows_marks _ hrows)).unpin root

/-- A page that is taken from the ring marked, or with its type already. -/
theorem page_alloc_marks {type : PageType}
    (hok : ∀ id staged, s.staged = id :: staged →
      (s.pool.frame id).dirty = true ∨ (s.pool.frame id).hdr.type = type) :
    s.pool.MarksAll (kds_page_alloc s type).2.pool := by
  unfold kds_page_alloc
  cases hs : s.staged with
  | nil => exact .refl _
  | cons id staged =>
    rcases hok id staged hs with hd | htype
    · exact .setDirty hd
    · refine .of_eq rfl ?_
      funext j
      by_cases hj : j = id
      · rw [hj]
        show (setPageType s.pool id type).frame id = s.pool.frame id
        unfold setPageType
        rw [Pool.frame_setFrame_self, ← htype]
      · exact Pool.frame_setFrame_ne _ _ hj

/-- A catalog page that cannot be created. -/
theorem bootstrap_cleanMatches {id : PageId} (hc : p.CleanMatches)
    (hok : (p.cached id).isSome ∨ (p.fail 0).isSome) :
    (bootstrap_one_catalog_page p id).2.CleanMatches := by
  unfold bootstrap_one_catalog_page
  cases halloc : kds_buf_alloc_new p id with
  | mk res p₁ =>
    have h₁ := hc.created halloc
    cases res with
    | error e => exact h₁
    | ok frame =>
      -- neither the page nor a failure stood in the way
      unfold kds_buf_alloc_new at halloc
      rcases hok with hcached | hfail
      · obtain ⟨f, hf⟩ := Option.isSome_iff_exists.mp hcached
        rw [hf] at halloc
        simp at halloc
      · obtain ⟨e, he⟩ := Option.isSome_iff_exists.mp hfail
        rw [he] at halloc
        cases hcache : p.cached id with
        | none =>
          rw [hcache] at halloc
          simp at halloc
        | some f =>
          rw [hcache] at halloc
          simp at halloc

theorem flush_dirty_cleanMatches (frames : List PageId) : ∀ {p : Pool}, p.CleanMatches →
    (kds_buf_flush_dirty_frames p frames).CleanMatches := by
  induction frames with
  | nil =>
    intro p hc
    exact hc
  | cons id frames ih =>
    intro p hc
    exact ih (hc.flush id)

theorem writeSuperblock_cleanMatches {sb : Superblock} (hc : p.CleanMatches)
    (hok : ∀ id f, ¬ ClearOfSuperblock id → p.cached id = some f → f.dirty = true) :
    (p.writeSuperblock sb).CleanMatches := by
  intro id f hf hd
  by_cases hclear : ClearOfSuperblock id
  · have hdisk : (p.writeSuperblock sb).disk id = p.disk id := if_pos hclear
    rw [hdisk]
    exact hc id f hf hd
  · rw [hok id f hclear hf] at hd
    simp at hd

/-- What one call keeps. -/
theorem cleanMatches_step {crc32c : UInt32 → List UInt8 → UInt32} {act : PoolAct}
    (hc : s.pool.CleanMatches) (hstep : (poolSystem crc32c).step s act s') (hok : MarkedBefore s act) :
    s'.pool.CleanMatches := by
  cases act with
  | load id =>
    obtain rfl := hstep
    generalize hload : kds_buf_lookup_or_load s.pool id = out
    obtain ⟨res, p⟩ := out
    exact hc.marks (.loadOnly (lookup_or_load_loadOnly hload).1)
  -- the new page is written as it is in the frame
  | batchPage id =>
    unfold poolSystem at hstep
    dsimp only at hstep
    cases halloc : kds_buf_alloc_new s.pool id with
    | mk res p =>
      rw [halloc] at hstep
      cases res with
      | error e =>
        obtain rfl := hstep
        exact hc.created halloc
      | ok frame =>
        obtain rfl := hstep
        exact hc.created halloc
  | pageAlloc type =>
    obtain rfl := hstep
    exact hc.marks (page_alloc_marks hok)
  | bootstrap id =>
    obtain rfl := hstep
    exact bootstrap_cleanMatches hc hok
  | catalogRow row =>
    obtain rfl := hstep
    generalize hrow : insertCatalogRow s.pool row = out
    obtain ⟨res, p⟩ := out
    exact hc.marks (insertCatalogRow_marks hrow)
  | createRelation kind rows =>
    obtain rfl := hstep
    exact hc.marks (createRelation_marks hok)
  | heapPhase rel turns exec =>
    obtain ⟨res, exec', hrun⟩ := hstep
    exact hc.marks (heapRunPhase_marks hok hrun)
  | btreePhase rel exec =>
    obtain ⟨res, exec', hrun⟩ := hstep
    exact hc.marks (btreeRunPhase_marks hok.1 hok.2 hrun)
  | indexInsert rel key value =>
    obtain ⟨res, pool, hrun, rfl⟩ := hstep
    unfold kds_index_insert at hrun
    -- a relation without a root is refused before any page is touched
    split at hrun
    · obtain ⟨-, rfl⟩ := Prod.mk.inj (Except.ok.inj hrun)
      exact hc
    · exact hc.marks (btree_insert_marks hok hrun)
  | delete root key =>
    obtain ⟨res, pool, hrun, rfl⟩ := hstep
    exact hc.marks (btree_delete_marks hok hrun)
  | walPage id f =>
    obtain ⟨hd, rfl⟩ := hstep
    exact hc.marks (.setDirty hd)
  | flush id =>
    obtain rfl := hstep
    exact hc.flush id
  | flushDirty frames =>
    obtain rfl := hstep
    exact flush_dirty_cleanMatches frames hc
  | fsync superblock =>
    obtain rfl := hstep
    exact writeSuperblock_cleanMatches hc hok

theorem cleanMatches_reachable {crc32c : UInt32 → List UInt8 → UInt32}
    (h : ((poolSystem crc32c).restrict MarkedBefore).Reachable s) : s.pool.CleanMatches := by
  apply h.invariant fun s => s.pool.CleanMatches
  · intro s hinit id f hf
    rw [hinit.1 id] at hf
    simp at hf
  · intro s act s' hc hstep
    exact cleanMatches_step hc hstep.1 hstep.2

end calls

/-! ## Section 5: The restart -/

section restart

variable {p : Pool} {id : PageId}

/-- A flush keeps what a page holds. -/
theorem flush_sameContents (p : Pool) (j id : PageId) :
    ((kds_frame_flush p j).2.frame id).SameContents (p.frame id) := by
  have houtcome := frame_flush_outcome p j
  generalize (kds_frame_flush p j).2 = p' at houtcome
  by_cases hid : id = j
  · subst hid
    cases houtcome with
    | clean => exact .refl _
    | @failed f hf _ =>
      rw [Pool.frame_setFrame_self, frame_of_cached hf]
      exact sameContents_withHdr f
    | @written f hf _ =>
      rw [Pool.frame_setFrame_self, frame_of_cached hf]
      exact (sameContents_written f).trans (sameContents_withHdr f)
  · obtain ⟨hcached, hdisk⟩ := houtcome.other hid
    unfold Pool.frame
    rw [hcached, hdisk]
    exact .refl _

/-- Behind a flush that does not fail its frame is clean, and clean frames stay clean. -/
theorem flush_clean (hfail : p.NoFailure) (j : PageId)
    (h : id = j ∨ ∀ f, p.cached id = some f → f.dirty = false) :
    ∀ f, (kds_frame_flush p j).2.cached id = some f → f.dirty = false := by
  by_cases hid : id = j
  · subst hid
    unfold kds_frame_flush
    cases hc : p.cached id with
    | none =>
      intro f hf
      rw [hc] at hf
      simp at hf
    | some g =>
      dsimp only
      by_cases hd : g.hdr.has KDS_PAGE_FLAG_DIRTY = true
      · rw [if_neg (by simpa using hd), hfail 0]
        intro f hf
        rw [setFrame_cached] at hf
        rw [← Option.some.inj hf]
        unfold Frame.dirty PageHdr.has PageHdr.clear
        dsimp only
        rw [UInt8.and_assoc, show ~~~KDS_PAGE_FLAG_DIRTY &&& KDS_PAGE_FLAG_DIRTY = 0 by decide,
          UInt8.and_zero]
        rfl
      · rw [if_pos (by simpa using hd)]
        intro f hf
        rw [hc] at hf
        rw [← Option.some.inj hf]
        exact Bool.not_eq_true _ ▸ hd
  · rw [((frame_flush_outcome p j).other hid).1]
    exact h.resolve_left hid

/-- **A completed flush** leaves every page on disk as it is in the pool. -/
theorem flush_dirty_frames_disk (frames : List PageId) : ∀ {p : Pool}, p.CleanMatches → p.NoFailure →
    (id ∈ frames ∨ ∀ f, p.cached id = some f → f.dirty = false) →
    ((kds_buf_flush_dirty_frames p frames).disk id).SameContents (p.frame id) := by
  induction frames with
  | nil =>
    intro p hc _ h
    have hclean := h.resolve_left (List.not_mem_nil)
    show (p.disk id).SameContents (p.frame id)
    cases hcached : p.cached id with
    | none =>
      rw [frame_of_not_cached hcached]
      exact ⟨rfl, rfl, fun _ _ => rfl⟩
    | some f =>
      rw [frame_of_cached hcached]
      exact (hc id f hcached (hclean f hcached)).symm
  | cons j frames ih =>
    intro p hc hfail h
    have hrest : id ∈ frames ∨ ∀ f, (kds_frame_flush p j).2.cached id = some f → f.dirty = false := by
      by_cases hmem : id ∈ frames
      · exact Or.inl hmem
      · refine Or.inr (flush_clean hfail j ?_)
        rcases h with h | h
        · exact Or.inl ((List.mem_cons.mp h).resolve_right hmem)
        · exact Or.inr h
    exact (ih (hc.flush j) (flush_noFailure hfail j) hrest).trans (flush_sameContents p j id)

end restart

/-- **Clean frames and the disk**: where every call finds the pages marked that it changes
    without a mark, clean frames are what is on disk, and a restart behind a
    completed flush finds every page as it was. -/
theorem clean_frames_match_disk {crc32c : UInt32 → List UInt8 → UInt32} {s : ExecEnv}
    (h : ((poolSystem crc32c).restrict MarkedBefore).Reachable s) :
    s.pool.CleanMatches ∧
      ∀ frames, (∀ j, (s.pool.cached j).isSome → j ∈ frames) → s.pool.NoFailure →
        ∀ superblock fail id,
          (((kds_buf_flush_dirty_frames s.pool frames).restarted superblock fail).frame
            id).SameContents (s.pool.frame id) := by
  have hc := cleanMatches_reachable h
  refine ⟨hc, ?_⟩
  intro frames hframes hfail superblock fail id
  have hid : id ∈ frames ∨ ∀ f, s.pool.cached id = some f → f.dirty = false := by
    cases hcached : s.pool.cached id with
    | none => exact Or.inr fun f hf => by simp at hf
    | some f =>
      apply Or.inl
      apply hframes
      rw [hcached]
      rfl
  have hdisk := flush_dirty_frames_disk frames hc hfail hid
  exact ⟨hdisk.type, hdisk.flags, hdisk.body⟩

/-! ## Section 6: A catalog page -/

/-- A boot of a disk whose pages are all empty heap pages. -/
def heapBoot : ExecEnv where
  pool :=
    { superblock := none
      cached := fun _ => none
      refcnt := fun _ => 0
      disk := fun id => heap_init_page (newFrame id KDS_PAGE_FLAG_ALLOC)
      fail := fun _ => none }
  staged := []
  wal := newLog.wal
  ticks := []

/-- A first boot: nothing is on disk. -/
def blankBoot : ExecEnv := { heapBoot with pool := { heapBoot.pool with disk := fun id => newFrame id 0 } }

/-- A row of `sys.tables`. -/
def tablesRow : CatalogRow := { page_id := KDS_CATALOG_PAGE_TABLES, data := fun _ => 0, data_len := 8 }

/-- The row is inserted and its page flushed. -/
def rowFlushed : ExecEnv :=
  let s := { heapBoot with pool := (insertCatalogRow heapBoot.pool tablesRow).2 }
  { s with pool := kds_buf_flush_dirty_frames s.pool [KDS_CATALOG_PAGE_TABLES] }

/-- A row that was flushed is on disk, and found again. -/
theorem clean_frames_match_disk_row :
    (rowFlushed.pool.frame KDS_CATALOG_PAGE_TABLES).dirty = false ∧
      (heapMeta (rowFlushed.pool.frame KDS_CATALOG_PAGE_TABLES).page).nr_slots = 1 ∧
      rowFlushed.pool.CleanMatches ∧
      (((kds_buf_flush_dirty_frames rowFlushed.pool [KDS_CATALOG_PAGE_TABLES]).restarted
        (init_superblock_and_fsync 0) (fun _ => none)).frame KDS_CATALOG_PAGE_TABLES).SameContents
          (rowFlushed.pool.frame KDS_CATALOG_PAGE_TABLES) := by
  have h₀ : ((poolSystem crc32c_le).restrict MarkedBefore).Reachable heapBoot :=
    .init ⟨fun _ => rfl, rfl⟩
  have h₁ : ((poolSystem crc32c_le).restrict MarkedBefore).Reachable
      { heapBoot with pool := (insertCatalogRow heapBoot.pool tablesRow).2 } :=
    .step (.catalogRow tablesRow) h₀ ⟨rfl, trivial⟩
  have h₂ : ((poolSystem crc32c_le).restrict MarkedBefore).Reachable rowFlushed :=
    .step (.flushDirty [KDS_CATALOG_PAGE_TABLES]) h₁ ⟨rfl, trivial⟩
  obtain ⟨hclean, hrestart⟩ := clean_frames_match_disk h₂
  refine ⟨by decide +kernel, by decide +kernel, hclean, ?_⟩
  apply hrestart
  · intro j hj
    by_contra hne
    have hj' : j ≠ KDS_CATALOG_PAGE_TABLES := fun h => hne (List.mem_singleton.mpr h)
    have hloaded : (insertCatalogRow heapBoot.pool tablesRow).2.cached j = none :=
      (Function.update_of_ne hj' _ _).trans (Function.update_of_ne hj' _ _)
    have hflush := ((frame_flush_outcome (insertCatalogRow heapBoot.pool tablesRow).2
      KDS_CATALOG_PAGE_TABLES).other hj').1
    have hnone : rowFlushed.pool.cached j = none := hflush.trans hloaded
    rw [hnone] at hj
    simp at hj
  · exact flush_noFailure (p := (insertCatalogRow heapBoot.pool tablesRow).2) (fun _ => rfl) _

/-- The page of `sys.columns` after a first boot: it gets no row, so nothing marks it. -/
def columnsBootstrapped : ExecEnv :=
  { blankBoot with pool := (bootstrap_one_catalog_page blankBoot.pool KDS_CATALOG_PAGE_COLUMNS).2 }

/-- It is clean and not what is on disk, and a flush and a restart lose it. -/
theorem catalog_page_lost : (poolSystem crc32c_le).Reachable columnsBootstrapped ∧
    (∀ j, (columnsBootstrapped.pool.cached j).isSome → j ∈ [KDS_CATALOG_PAGE_COLUMNS]) ∧
    columnsBootstrapped.pool.NoFailure ∧
    ¬ columnsBootstrapped.pool.CleanMatches ∧
    ¬ (((kds_buf_flush_dirty_frames columnsBootstrapped.pool [KDS_CATALOG_PAGE_COLUMNS]).restarted
        (init_superblock_and_fsync 0) (fun _ => none)).frame KDS_CATALOG_PAGE_COLUMNS).SameContents
      (columnsBootstrapped.pool.frame KDS_CATALOG_PAGE_COLUMNS) := by
  have h₀ : (poolSystem crc32c_le).Reachable blankBoot := .init ⟨fun _ => rfl, rfl⟩
  have h₁ : (poolSystem crc32c_le).Reachable columnsBootstrapped :=
    .step (.bootstrap KDS_CATALOG_PAGE_COLUMNS) h₀ rfl
  have hcached : columnsBootstrapped.pool.cached KDS_CATALOG_PAGE_COLUMNS =
      some (columnsBootstrapped.pool.frame KDS_CATALOG_PAGE_COLUMNS) := rfl
  refine ⟨h₁, ?_, fun _ => rfl, ?_, ?_⟩
  · intro j hj
    by_contra hne
    have hj' : j ≠ KDS_CATALOG_PAGE_COLUMNS := fun h => hne (List.mem_singleton.mpr h)
    have hnone : columnsBootstrapped.pool.cached j = none :=
      (Function.update_of_ne hj' _ _).trans (Function.update_of_ne hj' _ _)
    rw [hnone] at hj
    simp at hj
  · intro hc
    have hsame := hc KDS_CATALOG_PAGE_COLUMNS _ hcached (by decide +kernel)
    exact absurd hsame.type (by decide +kernel)
  · intro hsame
    exact absurd hsame.type (by decide +kernel)

end Kds
