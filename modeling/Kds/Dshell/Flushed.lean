import Kds.Dshell.Answers

/-! # Tables and their pages on disk

    A flush writes the header of a page, and the tables do not see it. What is
    on disk of a page is a part of what the pool has of it, all of it if the
    page is not marked.
-/

open Bytes

namespace Kds

/-! ## Section 1: Flushes and tables -/

/-- The pages in the pool are as before, up to their headers. -/
structure UpToHeaders (c c' : CatalogEnv) : Prop where
  staged : c'.env.staged = c.env.staged
  oids : c'.oids = c.oids
  cached : ∀ id, (c.env.pool.cached id).isSome → (c'.env.pool.cached id).isSome
  body : ∀ id, (c.env.pool.cached id).isSome →
    (c.env.pool.frame id).SameBody (c'.env.pool.frame id)

section same

variable {A : Catalog} {hi : Nat} {chain : UInt64 → List PageId} {c c' : CatalogEnv}
  {rows : UInt64 → List (List UInt8)} {f f' : Frame} {p p' : Pool} {env env' : ExecEnv}

theorem Frame.SameBody.rowKey (h : f.SameBody f') (hinv : HeapInv f.page) {i : Nat} (hlive : LiveSlot f.page i) :
    rowKey f'.page i = rowKey f.page i := by
  have hoff := hinv.hdr_le_offset hlive
  unfold Kds.rowKey
  rw [h.slotOffset]
  exact Mem.readU64_congr fun a ha _ => h.body a (by omega)

theorem Frame.SameBody.holdsRow_iff (h : f.SameBody f') (hinv : HeapInv f.page) (i : Nat) (key : TupleId) :
    HoldsRow f'.page i key ↔ HoldsRow f.page i key := by
  unfold HoldsRow
  rw [h.live_iff]
  exact and_congr_right fun hlive => by rw [h.rowKey hinv hlive]

theorem RowPage.sameBody (h : RowPage f.page) (hs : f.SameBody f') : RowPage f'.page := by
  refine ⟨hs.heapInv h.inv, fun i hi => ?_⟩
  have hlive := (hs.live_iff i).mp hi
  unfold rowLen
  rw [hs.slotOffset, hs.hdr h.inv hlive]
  exact h.long i hlive

theorem HoldsRows.sameBody {page_id : PageId} {bs : List (List UInt8)} (h : HoldsRows p page_id bs)
    (hcached : (p'.cached page_id).isSome) (hs : (p.frame page_id).SameBody (p'.frame page_id)) :
    HoldsRows p' page_id bs where
  cached := hcached
  rows := ⟨hs.heapInv h.rows.inv, by rw [hs.slotTable h.rows.inv]; exact h.rows.entries⟩

/-- The catalog is on pages of the pool. -/
theorem CatalogInv.upToHeaders (h : CatalogInv A hi ⟨c, []⟩) (hs : UpToHeaders c c') : CatalogInv A hi ⟨c', []⟩ := by
  have hrows : ∀ {id bs}, HoldsRows c.env.pool id bs → HoldsRows c'.env.pool id bs := fun hold =>
    hold.sameBody (hs.cached _ hold.cached) (hs.body _ hold.cached)
  refine ⟨⟨hrows h.holds.objects, hrows h.holds.tables, hrows h.holds.columns⟩, ?_, h.objects, h.tables,
    h.columns, h.bound, fun hroom => ?_, h.names, fun t ht => absurd ht List.not_mem_nil⟩
  · intro id hid
    exact h.ring id (hs.staged ▸ hid)
  · have hmeta := (hs.body _ h.holds.objects.cached).heapMeta
    unfold ObjectRoom Room at hroom
    rw [hmeta] at hroom
    rw [← h.counter hroom]
    exact congrArg UInt64.toNat hs.oids

theorem RingOk.upToHeaders (h : RingOk c.env) (hs : UpToHeaders c c') : RingOk c'.env := by
  refine ⟨hs.staged ▸ h.nodup, hs.staged ▸ h.nonzero, fun id hid => ?_, fun id hid => ?_⟩
  · rw [hs.staged] at hid
    rw [(hs.body id (h.cached id hid)).id]
    exact h.own id hid
  · exact hs.cached id (h.cached id (hs.staged ▸ hid))

theorem TableHolds.upToHeaders {root : PageId} {pages : List PageId} {bs : List (List UInt8)}
    (h : TableHolds root c.env pages bs) (hring : RingOk c.env) (hs : UpToHeaders c c') :
    TableHolds root c'.env pages bs := by
  have hbody : ∀ id ∈ pages, (c.env.pool.frame id).SameBody (c'.env.pool.frame id) := fun id hid =>
    hs.body id (h.cached id hid)
  have hchain := h.table.chain
  have hinv : ∀ id ∈ pages, HeapInv (c.env.pool.frame id).page := fun id hid => (hchain.rows id hid).inv
  have hrows : chainRows c'.env pages = chainRows c.env pages :=
    chainRows_congr fun id hid => (hbody id hid).liveRows (hinv id hid)
  have hiff : ∀ id ∈ pages, ∀ i key, HoldsRow (c'.env.page id) i key ↔ HoldsRow (c.env.page id) i key :=
    fun id hid i key => (hbody id hid).holdsRow_iff (hinv id hid) i key
  refine ⟨⟨⟨hchain.kind, hchain.head, ?_, ?_, ?_, ?_⟩, ?_, ?_, ?_⟩, ?_, ?_, h.keys⟩
  · intro pre id post hpages
    have hid : id ∈ pages := by
      rw [hpages]
      simp
    rw [← hchain.link pre id post hpages]
    exact (hbody id hid).next
  · exact fun id hid => (hchain.rows id hid).sameBody (hbody id hid)
  · rw [hs.staged]
    exact hchain.nodup
  · rw [hs.staged]
    exact hchain.nonzero
  · rw [hrows]
    exact h.table.short
  · intro id hid id' hid' i j key hi hj
    exact h.table.unique id hid id' hid' i j key ((hiff id hid i key).mp hi) ((hiff id' hid' j key).mp hj)
  · intro id hid
    rw [hs.staged] at hid
    have hin : (c.env.pool.cached id).isSome :=
      (List.mem_append.mp hid).elim (h.cached id) (hring.cached id)
    rw [(hs.body id hin).id]
    exact h.table.own id hid
  · exact fun id hid => hs.cached id (h.cached id hid)
  · rw [hrows]
    exact h.holds

/-- **The database** does not see the headers. -/
theorem DatabaseInv.upToHeaders (h : DatabaseInv A hi chain c rows) (hs : UpToHeaders c c') :
    DatabaseInv A hi chain c' rows where
  catalog := h.catalog.upToHeaders hs
  ring := h.ring.upToHeaders hs
  oids := h.oids
  tables := fun hrow => (h.tables hrow).upToHeaders h.ring hs
  away := h.away
  apart := h.apart
  known := h.known
  typed := h.typed

/-- The pages of the catalog and the tables are heap pages in the pool. -/
theorem DatabaseInv.tracked (h : DatabaseInv A hi chain c rows) {id : PageId} (hid : A.Tracks chain id) :
    (c.env.pool.cached id).isSome ∧ HeapInv (c.env.pool.frame id).page ∧ id ∉ c.env.staged := by
  rcases hid with hcat | ⟨row, hrow, hid⟩
  · exact ⟨h.catalog.holds.cached hcat, h.catalog.holds.heapInv hcat, fun hst => h.catalog.ring id hst hcat⟩
  · exact ⟨(h.tables hrow).cached id hid, ((h.tables hrow).table.chain.rows id hid).inv,
      h.not_staged hrow id hid⟩

end same

/-! ## Section 2: Pages on disk -/

section flush

variable {p p' : Pool} {f : Frame} {id j : PageId}

theorem withHdr_sameBody (f : Frame) : f.SameBody f.withHdr := by
  refine ⟨rfl, fun a ha => Mem.write_outside _ ?_⟩
  rw [PageHdr.length_bytes]
  omega

/-- A flush writes to no page behind its header. -/
theorem flush_sameBody (p : Pool) (j id : PageId) (hin : (p.cached id).isSome) :
    ((kds_frame_flush p j).2.cached id).isSome ∧
      (p.frame id).SameBody ((kds_frame_flush p j).2.frame id) := by
  have houtcome := frame_flush_outcome p j
  generalize (kds_frame_flush p j).2 = p' at houtcome
  by_cases hid : id = j
  · subst hid
    cases houtcome with
    | clean => exact ⟨hin, .refl _⟩
    | @failed f hf _ =>
      refine ⟨Pool.loaded_setFrame hin, ?_⟩
      rw [Pool.frame_setFrame_self, frame_of_cached hf]
      exact withHdr_sameBody f
    | @written f hf _ =>
      refine ⟨Pool.loaded_setFrame hin, ?_⟩
      rw [Pool.frame_setFrame_self, frame_of_cached hf]
      exact ⟨rfl, (withHdr_sameBody f).body⟩
  · obtain ⟨hcached, hdisk⟩ := houtcome.other hid
    refine ⟨hcached ▸ hin, ?_⟩
    unfold Pool.frame
    rw [hcached, hdisk]
    exact .refl _

/-- A page without slots and without a link has none behind another header. -/
theorem sameBody_blank {f' : Frame} (h : f.SameBody f') (hblank : slotTable f = .blank) :
    slotTable f' = .blank := by
  have hnext : heap_get_next_page_id f = 0 := congrArg SlotTable.next hblank
  have hentries : (slotTable f).entries = [] := congrArg SlotTable.entries hblank
  have hnr : (heapMeta f.page).nr_slots.toNat = 0 := by
    rw [← slotTable_length, hentries]
    rfl
  unfold slotTable SlotTable.blank
  rw [h.heapMeta, hnr, h.next, hnext]
  rfl

/-- What is on disk of a page the pool has: a part of its table, and all of it
    if the page is not marked. -/
structure PageKept (p : Pool) (id : PageId) : Prop where
  sound : HeapInv (p.disk id).page ∨ slotTable (p.disk id) = .blank
  grows : (slotTable (p.disk id)).Grows (slotTable (p.frame id))
  stored : (p.frame id).dirty = true ∨ slotTable (p.disk id) = slotTable (p.frame id)

/-- **A flush** brings the page on disk forward, if it changes it. -/
theorem PageKept.flush (h : PageKept p id) (hinv : HeapInv (p.frame id).page) (j : PageId) :
    PageKept (kds_frame_flush p j).2 id ∧
      (slotTable (p.disk id)).Grows (slotTable ((kds_frame_flush p j).2.disk id)) := by
  have houtcome := frame_flush_outcome p j
  generalize (kds_frame_flush p j).2 = p' at houtcome
  by_cases hid : id = j
  · subst hid
    cases houtcome with
    | clean => exact ⟨h, .refl _⟩
    -- the header is in the page, and the frame is still to be written
    | @failed f hf hdirty =>
      rw [frame_of_cached hf] at hinv
      have htable : slotTable f.withHdr = slotTable f := (withHdr_sameBody f).slotTable hinv
      refine ⟨⟨h.sound, ?_, .inl ?_⟩, .refl _⟩
      · rw [Pool.frame_setFrame_self, htable, ← frame_of_cached hf]
        exact h.grows
      · rw [Pool.frame_setFrame_self]
        exact hdirty
    -- the disk has what the frame has, which is no less than before
    | @written f hf hdirty =>
      rw [frame_of_cached hf] at hinv
      have htable : slotTable f.withHdr = slotTable f := (withHdr_sameBody f).slotTable hinv
      have hdisk : (Function.update p.disk id f.withHdr) id = f.withHdr := Function.update_self _ _ _
      have hframe : slotTable { f.withHdr with hdr := f.hdr.clear KDS_PAGE_FLAG_DIRTY } = slotTable f := htable
      refine ⟨⟨.inl ?_, ?_, .inr ?_⟩, ?_⟩
      · exact (congrArg (fun g : Frame => HeapInv g.page) hdisk).mpr ((withHdr_sameBody f).heapInv hinv)
      · rw [Pool.frame_setFrame_self, hframe]
        exact .of_eq ((congrArg slotTable hdisk).trans htable).symm
      · rw [Pool.frame_setFrame_self, hframe]
        exact (congrArg slotTable hdisk).trans htable
      · have hgrows := h.grows
        rw [frame_of_cached hf, ← htable] at hgrows
        exact (congrArg (fun g => (slotTable (p.disk id)).Grows (slotTable g)) hdisk).mpr hgrows
  · obtain ⟨hcached, hdisk⟩ := houtcome.other hid
    have hframe : p'.frame id = p.frame id := by
      unfold Pool.frame
      rw [hcached, hdisk]
    refine ⟨⟨hdisk ▸ h.sound, ?_, ?_⟩, .of_eq (congrArg slotTable hdisk)⟩
    · rw [hframe, hdisk]
      exact h.grows
    · rw [hframe, hdisk]
      exact h.stored

/-- A page of the ring has nothing on it, wherever it is. -/
theorem flush_blank (hframe : slotTable (p.frame id) = .blank) (hdisk : slotTable (p.disk id) = .blank)
    (hin : (p.cached id).isSome) (j : PageId) :
    slotTable ((kds_frame_flush p j).2.frame id) = .blank ∧
      slotTable ((kds_frame_flush p j).2.disk id) = .blank := by
  refine ⟨sameBody_blank (flush_sameBody p j id hin).2 hframe, ?_⟩
  have houtcome := frame_flush_outcome p j
  generalize (kds_frame_flush p j).2 = p' at houtcome
  by_cases hid : id = j
  · subst hid
    cases houtcome with
    | clean => exact hdisk
    | failed => exact hdisk
    | @written f hf _ =>
      have hself : (Function.update p.disk id f.withHdr) id = f.withHdr := Function.update_self _ _ _
      rw [frame_of_cached hf] at hframe
      exact (congrArg slotTable hself).trans (sameBody_blank (withHdr_sameBody f) hframe)
  · rw [(houtcome.other hid).2]
    exact hdisk

end flush

/-! ## Section 3: The disk behind the tables -/

/-- A flush of one page. -/
def CatalogEnv.flush (c : CatalogEnv) (id : PageId) : CatalogEnv :=
  c.setPool (kds_frame_flush c.env.pool id).2

/-- `kds_buf_flush_dirty_frames`. -/
def CatalogEnv.flushDirty (c : CatalogEnv) (frames : List PageId) : CatalogEnv :=
  c.setPool (kds_buf_flush_dirty_frames c.env.pool frames)

/-- The superblock is written. -/
def CatalogEnv.fsync (c : CatalogEnv) (superblock : Superblock) : CatalogEnv :=
  c.setPool (c.env.pool.writeSuperblock superblock)

/-- Every page of a table is kept, and pages that come from the ring have nothing on
    them. None lies on the sectors of the superblock. -/
structure DiskInv (A : Catalog) (chain : UInt64 → List PageId) (c : CatalogEnv) : Prop where
  ring : ∀ id ∈ c.env.staged, slotTable (c.env.pool.frame id) = .blank ∧
    slotTable (c.env.pool.disk id) = .blank
  pages : ∀ id, A.Tracks chain id → PageKept c.env.pool id
  clear : ∀ id, id ∈ c.env.staged ∨ A.Tracks chain id → ClearOfSuperblock id

section disk

variable {A A' : Catalog} {hi : Nat} {chain chain' : UInt64 → List PageId} {c c' : CatalogEnv}
  {rows : UInt64 → List (List UInt8)} {id : PageId}

theorem PageKept.congr {p p' : Pool} (h : PageKept p id) (hframe : p'.frame id = p.frame id)
    (hdisk : p'.disk id = p.disk id) : PageKept p' id := by
  refine ⟨hdisk ▸ h.sound, ?_, ?_⟩
  · rw [hframe, hdisk]
    exact h.grows
  · rw [hframe, hdisk]
    exact h.stored

/-- New pages come from the ring. -/
theorem Evolved.tracks (h : Evolved A chain c A' chain' c') (hid : A'.Tracks chain' id) :
    id ∈ c.env.staged ∨ A.Tracks chain id := by
  rcases hid with hcat | ⟨row, hrow, hid⟩
  · exact .inr (.inl hcat)
  · exact (h.pages hrow id hid).imp_right .inr

/-- **A command** writes to no page on disk, and marks what it writes. -/
theorem DiskInv.evolved (h : DiskInv A chain c) (he : Evolved A chain c A' chain' c') :
    DiskInv A' chain' c' where
  ring := by
    intro id hid
    obtain ⟨hst, hframe⟩ := he.staged id hid
    rw [hframe, he.disk]
    exact h.ring id hst
  pages := by
    intro id hid
    have hmarks := he.marks id hid
    by_cases hst : id ∈ c.env.staged
    · -- it was in the ring, so there is nothing on disk
      obtain ⟨hframe, hdisk⟩ := h.ring id hst
      have hdisk' : slotTable (c'.env.pool.disk id) = .blank := by rw [he.disk, hdisk]
      refine ⟨.inr hdisk', hdisk' ▸ SlotTable.blank_grows _, ?_⟩
      rcases hmarks with hsame | hdirty | ⟨-, hblank⟩
      · exact .inr (by rw [hdisk', hsame, hframe])
      · exact .inl hdirty
      · exact .inr (hdisk'.trans hblank.symm)
    · have hkept := h.pages id ((he.tracks hid).resolve_left hst)
      refine ⟨he.disk ▸ hkept.sound, ?_, ?_⟩
      · rw [he.disk]
        exact hkept.grows.trans (he.grows id hst)
      · rcases hmarks with hsame | hdirty | ⟨hst', -⟩
        · rw [hsame, he.disk]
          exact hkept.stored
        · exact .inl hdirty
        · exact absurd hst' hst
  clear := by
    rintro id (hst | hid)
    · exact h.clear id (.inl (he.staged id hst).1)
    · exact h.clear id (he.tracks hid)

/-- One page for the ring. -/
theorem DiskInv.refilled (h : DiskInv A chain c) (hdb : DatabaseInv A hi chain c rows)
    (hs : Refilled c.env id c'.env) (hclear : ClearOfSuperblock id) : DiskInv A chain c' := by
  have hne : ∀ j, (c.env.pool.cached j).isSome → j ≠ id := by
    rintro j hj rfl
    rw [hs.unused] at hj
    cases hj
  refine ⟨fun j hj => ?_, fun j hj => ?_, fun j hj => ?_⟩
  · rw [hs.staged, List.mem_append, List.mem_singleton] at hj
    rcases hj with hj | rfl
    · have hj' := hne j (hdb.ring.cached j hj)
      rw [hs.frame j hj', hs.disk j hj']
      exact h.ring j hj
    · exact ⟨hs.blank, hs.blankDisk⟩
  · have hj' := hne j (hdb.tracked hj).1
    exact (h.pages j hj).congr (hs.frame j hj') (hs.disk j hj')
  · rw [hs.staged, List.mem_append, List.mem_singleton] at hj
    rcases hj with (hj | rfl) | hj
    · exact h.clear j (.inl hj)
    · exact hclear
    · exact h.clear j (.inr hj)

theorem flush_upToHeaders (c : CatalogEnv) (j : PageId) : UpToHeaders c (c.flush j) where
  staged := rfl
  oids := rfl
  cached := fun id hid => (flush_sameBody c.env.pool j id hid).1
  body := fun id hid => (flush_sameBody c.env.pool j id hid).2

/-- **A flush of one page** brings the disk forward. -/
theorem DiskInv.flush (h : DiskInv A chain c) (hdb : DatabaseInv A hi chain c rows) (j : PageId) :
    DiskInv A chain (c.flush j) ∧ ∀ id, A.Tracks chain id →
      (slotTable (c.env.pool.disk id)).Grows (slotTable ((c.flush j).env.pool.disk id)) := by
  have hkept : ∀ id, A.Tracks chain id → PageKept (c.flush j).env.pool id ∧
      (slotTable (c.env.pool.disk id)).Grows (slotTable ((c.flush j).env.pool.disk id)) :=
    fun id hid => (h.pages id hid).flush (hdb.tracked hid).2.1 j
  refine ⟨⟨fun id hid => ?_, fun id hid => (hkept id hid).1, h.clear⟩, fun id hid => (hkept id hid).2⟩
  obtain ⟨hframe, hdisk⟩ := h.ring id hid
  exact flush_blank hframe hdisk (hdb.ring.cached id hid) j

/-- Behind a flush of all frames that does not fail none is marked. -/
theorem flush_dirty_clean (frames : List PageId) : ∀ {p : Pool}, p.NoFailure →
    (id ∈ frames ∨ ∀ f, p.cached id = some f → f.dirty = false) →
    ∀ f, (kds_buf_flush_dirty_frames p frames).cached id = some f → f.dirty = false := by
  induction frames with
  | nil => exact fun _ h => h.resolve_left List.not_mem_nil
  | cons j frames ih =>
    intro p hfail h
    refine ih (flush_noFailure hfail j) ?_
    by_cases hmem : id ∈ frames
    · exact .inl hmem
    · exact .inr (flush_clean hfail j (h.imp_left fun h => (List.mem_cons.mp h).resolve_right hmem))

/-- **A flush of all frames**: the tables are as before, and the disk has been brought forward. -/
theorem DiskInv.flushDirty (frames : List PageId) : ∀ {c : CatalogEnv}, DiskInv A chain c →
    DatabaseInv A hi chain c rows →
      DiskInv A chain (c.flushDirty frames) ∧ DatabaseInv A hi chain (c.flushDirty frames) rows := by
  induction frames with
  | nil => exact fun h hdb => ⟨h, hdb⟩
  | cons j frames ih =>
    intro c h hdb
    exact ih (h.flush hdb j).1 (hdb.upToHeaders (flush_upToHeaders c j))

/-- A page that is not marked is on disk. -/
theorem PageKept.onDisk {p : Pool} (h : PageKept p id) (hin : (p.cached id).isSome)
    (hclean : ∀ f, p.cached id = some f → f.dirty = false) :
    slotTable (p.disk id) = slotTable (p.frame id) := by
  obtain ⟨f, hf⟩ := Option.isSome_iff_exists.mp hin
  refine h.stored.resolve_left fun hdirty => ?_
  rw [frame_of_cached hf, hclean f hf] at hdirty
  cases hdirty

/-- The superblock is on none of the pages. -/
theorem writeSuperblock_clear {p : Pool} (sb : Superblock) (hclear : ClearOfSuperblock id) :
    (p.writeSuperblock sb).disk id = p.disk id := if_pos hclear

theorem fsync_upToHeaders (c : CatalogEnv) (sb : Superblock) : UpToHeaders c (c.fsync sb) := by
  refine ⟨rfl, rfl, fun _ hid => hid, fun id hid => ?_⟩
  obtain ⟨f, hf⟩ := Option.isSome_iff_exists.mp hid
  have hf' : (c.fsync sb).env.pool.cached id = some f := hf
  rw [frame_of_cached hf, frame_of_cached hf']
  exact .refl f

theorem DiskInv.fsync (h : DiskInv A chain c) (hdb : DatabaseInv A hi chain c rows) (sb : Superblock) :
    DiskInv A chain (c.fsync sb) := by
  have hframe : ∀ j, (c.env.pool.cached j).isSome →
      (c.fsync sb).env.pool.frame j = c.env.pool.frame j := by
    intro j hj
    obtain ⟨f, hf⟩ := Option.isSome_iff_exists.mp hj
    have hf' : (c.fsync sb).env.pool.cached j = some f := hf
    rw [frame_of_cached hf, frame_of_cached hf']
  have hdisk : ∀ j, ClearOfSuperblock j → (c.fsync sb).env.pool.disk j = c.env.pool.disk j :=
    fun j hj => writeSuperblock_clear sb hj
  refine ⟨fun j hj => ?_, fun j hj => ?_, h.clear⟩
  · rw [hframe j (hdb.ring.cached j hj), hdisk j (h.clear j (.inl hj))]
    exact h.ring j hj
  · exact (h.pages j hj).congr (hframe j (hdb.tracked hj).1) (hdisk j (h.clear j (.inr hj)))

end disk

end Kds
