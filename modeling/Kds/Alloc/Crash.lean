import Kds.Alloc.Reclaim

/-! # Page ids across a crash

    The counter `max_page_id` lives in memory; a crash takes it back to the
    superblock on disk. `kds_batch_alloc` draws its ids, creates the pages and
    pushes them one by one, and writes the superblock only behind all of that;
    `btree_alloc_new_page` draws an id and never writes it. In between the
    pages are in use: whoever has been given one may initialise it, and it may
    be flushed.

    A page that is on disk with `INIT` set must not be issued again after a
    restart. That is so as long as no such page is written before the counter
    above its id.

    Page 128 lies on the sectors of the superblock (see `Kds.Meta`). Writing
    it destroys the superblock, and the next boot makes a new one; writing
    the superblock destroys the page.
-/

open Bytes Lts

namespace Kds

/-! ## Section 1: Steps -/

/-- Where `kds_batch_alloc` stands. -/
inductive BatchPc where
  | idle
  /-- At the loop test, `i` pages done. -/
  | create (base : PageId) (want i : UInt64)
  /-- Page `base + i` is created and about to be pushed. -/
  | push (base : PageId) (want i : UInt64)
  /-- Behind the loop. -/
  | setRange (base : PageId)
  | fsync

/-- The pool with the superblock in memory, the superblock on disk, the ring,
    the batch in progress, and the ids that btree calls have drawn and not
    used yet. `handed` lists the pages that were handed out. -/
structure CrashSys where
  pool : Pool
  diskSb : Superblock
  ring : List PageId
  pc : BatchPc
  assigned : List PageId
  handed : List PageId

/-- The page does not lie on the sectors of the superblock. -/
def ClearOfSuperblock (id : PageId) : Prop :=
  ¬ SectorsOverlap (kds_page_sector id) (UInt64.ofNat META_SUPERBLOCK_SECTOR)

instance (id : PageId) : Decidable (ClearOfSuperblock id) := inferInstanceAs (Decidable (¬ _))

/-- The superblock read as a page: the first words of `kds_superblock_t` as a header. -/
def superblockFrame (sb : Superblock) (id : PageId) : Frame where
  id := id
  hdr :=
    { type := .invalid
      crc := (sb.magic >>> 32).toUInt32
      flags := sb.version.toUInt8
      reserved1 := fun _ => 0 }
  page := Mem.write (fun _ => 0) 0 (u64Bytes sb.magic ++ u32Bytes sb.version)

/-- What a page write does to the superblock: without the magic number the
    next boot makes a new one. -/
def CrashSys.wrote (s : CrashSys) (id : PageId) : CrashSys :=
  if ClearOfSuperblock id then s else { s with diskSb := init_superblock_and_fsync 0 }

/-- The page on disk has `INIT` set. -/
def CrashSys.initOnDisk (s : CrashSys) (id : PageId) : Bool :=
  (s.pool.disk id).hdr.has KDS_PAGE_FLAG_INIT

inductive CrashAct where
  /-- The first part of `kds_batch_alloc(count)`. -/
  | batch (count : UInt64)
  /-- Its next step. -/
  | produce
  /-- `kds_superblock_fsync`, of the batch or of a checkpoint: the time, or `none` when
      the write fails. -/
  | fsync (now : Option UInt64)
  /-- `kds_page_alloc`. -/
  | consume (type : PageType)
  /-- `assign_page_id` in `btree_alloc_new_page`. -/
  | assign
  /-- The rest of `btree_alloc_new_page`. -/
  | newNode (id : PageId) (type : PageType)
  /-- Whoever was handed the page writes to its frame. -/
  | write (id : PageId) (f : Frame)
  /-- `kds_buf_lookup_or_load`. -/
  | load (id : PageId)
  /-- `kds_frame_flush`. -/
  | flush (id : PageId)
  /-- A crash, and the boot that follows. -/
  | restart (fail : Nat → Option Errno)

/-- The first part of `kds_batch_alloc`: the size of the batch and its ids. -/
def CrashSys.startBatch (s : CrashSys) (count : UInt64) : CrashSys :=
  let want := min count (UInt64.ofNat (PRE_ALLOC_RING_BUFFER_SIZE.toNat - 1 - s.ring.length))
  if count = 0 ∨ want = 0 then s
  else
    let (base, superblock) := alloc_page_id_batch want s.pool.superblock
    { s with
      pool := { s.pool with superblock := superblock }
      pc := .create (batchBase base) want 0 }

/-- The next step of the batch. -/
def CrashSys.produce (s : CrashSys) : CrashSys :=
  match s.pc with
  | .idle => s
  | .create base want i =>
      if i < want then
        match kds_buf_alloc_new s.pool (base + i) with
        | (.error _, pool) => { s with pool := pool, pc := .setRange base }
        | (.ok id, pool) => CrashSys.wrote { s with pool := pool, pc := .push base want i } id
      else { s with pc := .setRange base }
  | .push base want i =>
      if ringFull s.ring then
        { s with pool := kds_buf_unpin s.pool (base + i), pc := .setRange base }
      else { s with ring := s.ring ++ [base + i], pc := .create base want (i + 1) }
  | .setRange base =>
      { s with
        pool :=
          { s.pool with
            superblock := s.pool.superblock.map fun sb =>
              { sb with alloc_point := base, alloc_remaining := 0 } }
        pc := .fsync }
  | .fsync => s

/-- The disk with the superblock written. -/
def Pool.writeSuperblock (p : Pool) (sb : Superblock) : Pool :=
  { p with disk := fun id => if ClearOfSuperblock id then p.disk id else superblockFrame sb id }

/-- `kds_superblock_fsync`: on success the superblock in memory is on disk. -/
def CrashSys.fsync (s : CrashSys) (now : Option UInt64) : CrashSys :=
  let s := { s with pc := match s.pc with | .fsync => .idle | pc => pc }
  match s.pool.superblock, now with
  | some sb, some now =>
      let superblock :=
        { sb with last_fsync_time := now, last_commit_page_id := sb.max_page_id }
      { s with
        diskSb := sb
        pool := { s.pool.writeSuperblock sb with superblock := some superblock } }
  | _, _ => s

/-- `kds_page_alloc`. -/
def CrashSys.consume (s : CrashSys) (type : PageType) : CrashSys :=
  match s.ring with
  | [] => s
  | id :: ring =>
      { s with pool := setPageType s.pool id type, ring := ring, handed := id :: s.handed }

/-- `assign_page_id` in `btree_alloc_new_page`; 0 is a failure. -/
def CrashSys.assign (s : CrashSys) : CrashSys :=
  let (id, superblock) := assign_page_id s.pool.superblock
  let s := { s with pool := { s.pool with superblock := superblock } }
  if id = 0 then s else { s with assigned := id :: s.assigned }

/-- The rest of `btree_alloc_new_page`: the page gets its type and `INIT`. -/
def CrashSys.newNode (s : CrashSys) (id : PageId) (type : PageType) : CrashSys :=
  let s := { s with assigned := s.assigned.erase id }
  match kds_buf_alloc_new s.pool id with
  | (.error _, pool) => { s with pool := pool }
  | (.ok id, pool) =>
      let pool := setPageType pool id type
      let pool := pool.setFrame id (kds_set_page_init (pool.frame id))
      CrashSys.wrote { s with pool := kds_commit_page_hdr pool id, handed := id :: s.handed } id

/-- `kds_frame_flush`. -/
def CrashSys.flush (s : CrashSys) (id : PageId) : CrashSys :=
  match kds_frame_flush s.pool id with
  | (.error _, pool) => { s with pool := pool }
  | (.ok _, pool) =>
      if (s.pool.frame id).hdr.has KDS_PAGE_FLAG_DIRTY then CrashSys.wrote { s with pool := pool } id
      else { s with pool := pool }

/-- A boot from the disk: the superblock is loaded, and `kds_init_page_alloc_system`
    reclaims unless it is the first boot. Pages that were handed out and are
    not on disk with `INIT` set are nobody's any more. -/
def CrashSys.restart (s : CrashSys) (fail : Nat → Option Errno) : CrashSys :=
  let pool := s.pool.restarted s.diskSb fail
  let (pool, ring) :=
    if s.diskSb.alloc_point = 0 then (pool, [])
    else kds_reclaim_uninitialized_pages pool [] s.diskSb.alloc_point
  { pool := pool
    diskSb := s.diskSb
    ring := ring
    pc := .idle
    assigned := []
    handed := s.handed.filter s.initOnDisk }

/-- A superblock as the program writes it. -/
structure Superblock.Valid (sb : Superblock) : Prop where
  version : sb.version = KDS_VERSION
  reserved : UInt64.ofNat KDS_SYS_RESERVED_PAGES ≤ sb.max_page_id

/-- One step: batches, consumers, btree calls, flushes and crashes, in any order. -/
def crashSystem : System CrashSys CrashAct where
  init := fun s =>
    s.diskSb.Valid ∧ s.pool.superblock = some s.diskSb ∧ (∀ id, s.pool.cached id = none) ∧ s.ring = [] ∧
    s.pc = .idle ∧ s.assigned = [] ∧ s.handed = []
  step := fun s act s' =>
    match act with
    | .batch count => s.pc = .idle ∧ s' = s.startBatch count
    | .produce => s' = s.produce
    | .fsync now => s' = s.fsync now
    | .consume type => s' = s.consume type
    | .assign => s' = s.assign
    | .newNode id type => id ∈ s.assigned ∧ s' = s.newNode id type
    | .write id f => id ∈ s.handed ∧ s' = { s with pool := s.pool.setFrame id f }
    | .load id => s' = { s with pool := (kds_buf_lookup_or_load s.pool id).2 }
    | .flush id => s' = s.flush id
    | .restart fail => s' = s.restart fail

/-! ## Section 2: What can be issued -/

/-- The id can be issued from this superblock before the 64-bit counter comes round. -/
def Issuable (sb : Superblock) (id : PageId) : Prop :=
  ∃ calls, sb.max_page_id.toNat + assigned calls + batched calls < 2 ^ 64 ∧
    id ∈ issuedIds (some sb) calls

/-- No page that was handed out and is on disk with `INIT` set can be issued
    after a restart from the superblock on disk. -/
def CrashSafe (s : CrashSys) : Prop :=
  ∀ id ∈ s.handed, s.initOnDisk id = true → ¬ Issuable s.diskSb id

/-- No page from the reserved ones on is in use on disk. -/
def CrashSys.NoneInUse (s : CrashSys) : Prop :=
  ∀ id ∈ s.handed, s.initOnDisk id = true → id < UInt64.ofNat KDS_SYS_RESERVED_PAGES

/-- A page with `INIT` set is written only below the counter on disk, the
    counter in memory stays where page sectors are apart, and the page on the
    superblock is written only while no page is in use. -/
def PersistedFirst (s : CrashSys) : CrashAct → Prop
  | .flush id =>
      (id ∈ s.handed → (s.pool.frame id).hdr.has KDS_PAGE_FLAG_INIT = true →
        ClearOfSuperblock id ∧ id < s.diskSb.max_page_id) ∧
      (ClearOfSuperblock id ∨ s.NoneInUse)
  | .batch count => (get_max_page_id s.pool.superblock).toNat + count.toNat < addressablePages
  | .assign => (get_max_page_id s.pool.superblock).toNat + 1 < addressablePages
  | .produce =>
      match s.pc with
      | .create base _ i => ClearOfSuperblock (base + i) ∨ s.NoneInUse
      | _ => True
  | .newNode id _ => ClearOfSuperblock id ∨ s.NoneInUse
  | _ => True

theorem natIssued_bounds (calls : List IdCall) : ∀ m, ∀ x ∈ natIssued m calls,
    m ≤ x ∧ x ≤ m + assigned calls + batched calls := by
  induction calls with
  | nil =>
    intro m x hx
    simp [natIssued] at hx
  | cons c cs ih =>
    intro m x hx
    cases c with
    | assign =>
      have hcount : assigned (.assign :: cs) = assigned cs + 1 := by simp [assigned]
      have hbatch : batched (.assign :: cs) = batched cs := rfl
      rw [hcount, hbatch]
      rcases List.mem_cons.mp hx with rfl | hx
      · omega
      · have := ih (m + 1) x hx
        omega
    | batch n =>
      have hcount : assigned (.batch n :: cs) = assigned cs := by simp [assigned]
      have hbatch : batched (.batch n :: cs) = n.toNat + batched cs := rfl
      rw [hcount, hbatch]
      rcases List.mem_append.mp hx with hx | hx
      · have := List.mem_range'_1.mp hx
        omega
      · have := ih (m + n.toNat) x hx
        omega

/-- What can be issued is not below the counter. -/
theorem Issuable.le {sb : Superblock} {id : PageId} (h : Issuable sb id) : sb.max_page_id ≤ id := by
  obtain ⟨calls, hlt, hid⟩ := h
  rw [issuedIds_eq_natIssued calls sb.max_page_id.toNat sb (by simp)] at hid
  obtain ⟨x, hx, rfl⟩ := List.mem_map.mp hid
  have hb := natIssued_bounds calls _ x hx
  rw [UInt64.le_iff_toNat_le, UInt64.toNat_ofNat']
  omega

/-! ## Section 3: Runs -/

/-- Created pages that were not handed out yet. -/
def CrashSys.staged (s : CrashSys) : List PageId :=
  match s.pc with
  | .push base _ i => (base + i) :: s.ring
  | _ => s.ring

/-- The counter on disk is not ahead of the one in memory, and above every
    page on disk that is in use. -/
structure CrashInv (s : CrashSys) : Prop where
  superblock : ∃ sb, s.pool.superblock = some sb ∧ s.diskSb.max_page_id ≤ sb.max_page_id ∧ sb.Valid
  diskSb : s.diskSb.Valid
  handed : ∀ id ∈ s.handed, s.initOnDisk id = true → id < s.diskSb.max_page_id
  staged : ∀ id ∈ s.staged, id ∉ s.handed → s.initOnDisk id = false ∧
    ∀ f, s.pool.cached id = some f → f.hdr.has KDS_PAGE_FLAG_INIT = false

section runs

variable {s s' : CrashSys}

theorem CrashInv.crashSafe (h : CrashInv s) : CrashSafe s := by
  intro id hid hinit hissue
  have hlt := h.handed id hid hinit
  have hle := hissue.le
  rw [UInt64.lt_iff_toNat_lt] at hlt
  rw [UInt64.le_iff_toNat_le] at hle
  omega

/-- A step that may change one page, and only lets the counters grow. -/
theorem CrashInv.change (id : PageId) (h : CrashInv s)
    (hsb : ∃ sb, s'.pool.superblock = some sb ∧ s'.diskSb.max_page_id ≤ sb.max_page_id ∧ sb.Valid)
    (hvalid : s'.diskSb.Valid) (hdiskSb : s.diskSb.max_page_id ≤ s'.diskSb.max_page_id)
    (hinit : ∀ j, j ≠ id → s'.initOnDisk j = s.initOnDisk j)
    (hcached : ∀ j, j ≠ id → ∀ f, s'.pool.cached j = some f →
      s.pool.cached j = some f ∨ f.hdr.has KDS_PAGE_FLAG_INIT = s.initOnDisk j)
    (hhanded : ∀ j ∈ s'.handed, j = id ∨ j ∈ s.handed) (hkept : ∀ j ∈ s.handed, j ∈ s'.handed)
    (hstaged : ∀ j ∈ s'.staged, j = id ∨ j ∈ s.staged)
    (hselfHanded : id ∈ s'.handed → s'.initOnDisk id = true → id < s'.diskSb.max_page_id)
    (hselfStaged : id ∈ s'.staged → id ∉ s'.handed → s'.initOnDisk id = false ∧
      ∀ f, s'.pool.cached id = some f → f.hdr.has KDS_PAGE_FLAG_INIT = false) : CrashInv s' := by
  constructor
  · exact hsb
  · exact hvalid
  · intro j hj hi
    by_cases hji : j = id
    · rw [hji] at hj hi ⊢
      exact hselfHanded hj hi
    · rw [hinit j hji] at hi
      have hlt := h.handed j ((hhanded j hj).resolve_left hji) hi
      rw [UInt64.lt_iff_toNat_lt] at hlt ⊢
      rw [UInt64.le_iff_toNat_le] at hdiskSb
      omega
  · intro j hj hne
    by_cases hji : j = id
    · rw [hji] at hj hne ⊢
      exact hselfStaged hj hne
    · obtain ⟨hi, hf⟩ := h.staged j ((hstaged j hj).resolve_left hji) fun hmem => hne (hkept j hmem)
      rw [hinit j hji]
      refine ⟨hi, fun f hc => ?_⟩
      rcases hcached j hji f hc with hc | hc
      · exact hf f hc
      · rw [hc, hi]

/-- A step that at most clears pages on disk, and only lets the counters grow. -/
theorem CrashInv.counters (h : CrashInv s)
    (hsb : ∃ sb, s'.pool.superblock = some sb ∧ s'.diskSb.max_page_id ≤ sb.max_page_id ∧ sb.Valid)
    (hvalid : s'.diskSb.Valid) (hdiskSb : s.diskSb.max_page_id ≤ s'.diskSb.max_page_id)
    (hinit : ∀ j, s'.initOnDisk j = true → s.initOnDisk j = true)
    (hcached : s'.pool.cached = s.pool.cached) (hhanded : s'.handed = s.handed)
    (hstaged : ∀ j ∈ s'.staged, j ∈ s.staged) : CrashInv s' := by
  constructor
  · exact hsb
  · exact hvalid
  · intro j hj hi
    rw [hhanded] at hj
    have hlt := h.handed j hj (hinit j hi)
    rw [UInt64.lt_iff_toNat_lt] at hlt ⊢
    rw [UInt64.le_iff_toNat_le] at hdiskSb
    omega
  · intro j hj hne
    rw [hhanded] at hne
    obtain ⟨hi, hf⟩ := h.staged j (hstaged j hj) hne
    rw [hcached]
    refine ⟨?_, hf⟩
    by_contra htrue
    rw [hinit j (by simpa using htrue)] at hi
    simp at hi

theorem freshSuperblock_valid : (init_superblock_and_fsync 0).Valid := ⟨rfl, by decide⟩

/-- A page write next to the superblock, or one that destroys it while no page is in use. -/
theorem CrashInv.wrote {id : PageId} (h : CrashInv s) (hok : ClearOfSuperblock id ∨ s.NoneInUse) :
    CrashInv (s.wrote id) := by
  unfold CrashSys.wrote
  by_cases hclear : ClearOfSuperblock id
  · rw [if_pos hclear]
    exact h
  · rw [if_neg hclear]
    obtain ⟨sb, hsb, -, hvalid⟩ := h.superblock
    refine ⟨⟨sb, hsb, hvalid.reserved, hvalid⟩, freshSuperblock_valid, ?_, h.staged⟩
    exact hok.resolve_left hclear

/-- The flags of a page that was just created. -/
theorem newFrame_not_init (id : PageId) :
    (newFrame id (KDS_PAGE_FLAG_ALLOC ||| KDS_PAGE_FLAG_DIRTY)).hdr.has KDS_PAGE_FLAG_INIT = false := by
  show ((KDS_PAGE_FLAG_ALLOC ||| KDS_PAGE_FLAG_DIRTY) &&& KDS_PAGE_FLAG_INIT != 0) = false
  decide

/-- The frame of a page that was just created. -/
def createdFrame (id : PageId) : Frame :=
  let f := newFrame id (KDS_PAGE_FLAG_ALLOC ||| KDS_PAGE_FLAG_DIRTY)
  { f with hdr := { f.hdr with flags := KDS_PAGE_FLAG_ALLOC } }

theorem createdFrame_not_init (id : PageId) :
    (createdFrame id).hdr.has KDS_PAGE_FLAG_INIT = false := by
  show (KDS_PAGE_FLAG_ALLOC &&& KDS_PAGE_FLAG_INIT != 0) = false
  decide

/-- A page is created: it is on disk without `INIT`. -/
theorem CrashInv.created {pool : Pool} {id frame : PageId} (h : CrashInv s)
    (halloc : kds_buf_alloc_new s.pool id = (.ok frame, pool)) (f : Frame) (handed : List PageId)
    (hsb : s'.pool.superblock = s.pool.superblock) (hdiskSb : s'.diskSb = s.diskSb)
    (hdisk : s'.pool.disk = pool.disk) (hself : s'.pool.cached id = some f)
    (hcached : ∀ j, j ≠ id → s'.pool.cached j = pool.cached j)
    (hhanded : s'.handed = handed ++ s.handed) (hsub : ∀ j ∈ handed, j = id)
    (hinit : id ∉ handed → f.hdr.has KDS_PAGE_FLAG_INIT = false)
    (hstaged : ∀ j ∈ s'.staged, j = id ∨ j ∈ s.staged) : CrashInv s' := by
  obtain ⟨-, -, hok⟩ := alloc_new_cases halloc
  obtain ⟨-, -, hpdisk, hpcached⟩ := hok frame rfl
  -- `kds_buf_alloc_new` writes a header with `ALLOC` only
  have hclear : s'.initOnDisk id = false := by
    unfold CrashSys.initOnDisk
    rw [hdisk, hpdisk, Function.update_self]
    exact newFrame_not_init id
  apply h.change id
  · rw [hsb, hdiskSb]
    exact h.superblock
  · rw [hdiskSb]
    exact h.diskSb
  · exact hdiskSb ▸ UInt64.le_refl _
  · intro j hj
    unfold CrashSys.initOnDisk
    rw [hdisk, hpdisk, Function.update_of_ne hj]
  · intro j hj g hg
    rw [hcached j hj, hpcached, Function.update_of_ne hj] at hg
    exact Or.inl hg
  · intro j hj
    rw [hhanded] at hj
    exact (List.mem_append.mp hj).imp_left (hsub j)
  · intro j hj
    rw [hhanded]
    exact List.mem_append_right _ hj
  · exact hstaged
  -- if it is handed out it is not on disk with `INIT`, so nothing has to be persisted
  · intro _ hi
    rw [hclear] at hi
    simp at hi
  -- if it is staged, neither the disk nor the frame has `INIT`
  · intro _ hne
    refine ⟨hclear, fun g hg => ?_⟩
    rw [hself] at hg
    obtain rfl := Option.some.inj hg
    apply hinit
    intro hmem
    exact hne (by rw [hhanded]; exact List.mem_append_left _ hmem)

theorem toNat_min_le_left (a b : UInt64) : (min a b).toNat ≤ a.toNat := by
  have hmin : min a b = if a ≤ b then a else b := rfl
  rw [hmin]
  split
  · exact Nat.le_refl _
  · next hgt => exact Nat.le_of_lt (Nat.not_le.mp fun hle => hgt (UInt64.le_iff_toNat_le.mpr hle))

/-- The counter in memory moves on without coming round. -/
theorem Superblock.Valid.advance {sb : Superblock} {diskSb : PageId} (n : UInt64) (h : sb.Valid)
    (hle : diskSb ≤ sb.max_page_id) (hroom : sb.max_page_id.toNat + n.toNat < addressablePages) :
    diskSb ≤ sb.max_page_id + n ∧ { sb with max_page_id := sb.max_page_id + n }.Valid := by
  have hreserved := h.reserved
  unfold addressablePages at hroom
  rw [UInt64.le_iff_toNat_le] at hle hreserved ⊢
  have hsum : (sb.max_page_id + n).toNat = sb.max_page_id.toNat + n.toNat := by
    rw [UInt64.toNat_add]
    omega
  refine ⟨by omega, h.version, ?_⟩
  rw [UInt64.le_iff_toNat_le]
  dsimp only
  omega

theorem CrashInv.startBatch {count : UInt64} (h : CrashInv s) (hpc : s.pc = .idle)
    (hok : (get_max_page_id s.pool.superblock).toNat + count.toNat < addressablePages) :
    CrashInv (s.startBatch count) := by
  obtain ⟨sb, hsb, hle, hvalid⟩ := h.superblock
  unfold CrashSys.startBatch
  dsimp only
  generalize hwant : min count
    (UInt64.ofNat (PRE_ALLOC_RING_BUFFER_SIZE.toNat - 1 - s.ring.length)) = want
  by_cases hnone : count = 0 ∨ want = 0
  · rw [if_pos hnone]
    exact h
  · rw [if_neg hnone, hsb]
    have hle' : want.toNat ≤ count.toNat := by
      rw [← hwant]
      exact toNat_min_le_left _ _
    rw [hsb] at hok
    dsimp only [get_max_page_id] at hok
    obtain ⟨hadv, hvalid'⟩ := hvalid.advance want hle (by omega)
    simp only [alloc_page_id_batch, if_neg (fun h0 => hnone (Or.inr h0))]
    refine h.counters ⟨_, rfl, hadv, hvalid'⟩ h.diskSb (UInt64.le_refl _) (fun _ hi => hi) rfl rfl ?_
    intro id hid
    unfold CrashSys.staged
    rw [hpc]
    exact hid

theorem CrashInv.assign (h : CrashInv s)
    (hok : (get_max_page_id s.pool.superblock).toNat + 1 < addressablePages) : CrashInv s.assign := by
  obtain ⟨sb, hsb, hle, hvalid⟩ := h.superblock
  rw [hsb] at hok
  dsimp only [get_max_page_id] at hok
  obtain ⟨hadv, hvalid'⟩ := hvalid.advance 1 hle hok
  unfold CrashSys.assign assign_page_id
  rw [hsb]
  dsimp only
  by_cases hzero : sb.max_page_id + 1 = 0
  · rw [if_pos hzero]
    exact h.counters ⟨_, rfl, hadv, hvalid'⟩ h.diskSb (UInt64.le_refl _) (fun _ hi => hi) rfl rfl
      (fun _ hid => hid)
  · rw [if_neg hzero]
    exact h.counters ⟨_, rfl, hadv, hvalid'⟩ h.diskSb (UInt64.le_refl _) (fun _ hi => hi) rfl rfl
      (fun _ hid => hid)

theorem CrashInv.produce (h : CrashInv s) (hok : PersistedFirst s .produce) :
    CrashInv s.produce := by
  have hstaged : s.ring ⊆ s.staged := by
    intro id hid
    unfold CrashSys.staged
    split
    · exact List.mem_cons_of_mem _ hid
    · exact hid
  obtain ⟨sb, hsb, hle, hvalid⟩ := h.superblock
  unfold PersistedFirst at hok
  unfold CrashSys.produce
  cases hpc : s.pc with
  | idle => exact h
  | fsync => exact h
  | setRange base =>
    exact h.counters ⟨{ sb with alloc_point := base, alloc_remaining := 0 }, by simp [hsb], hle,
      hvalid.version, hvalid.reserved⟩ h.diskSb (UInt64.le_refl _) (fun _ hi => hi) rfl rfl hstaged
  | push base want i =>
    dsimp only
    by_cases hfull : ringFull s.ring = true
    -- the page is given up: it is neither in the ring nor handed out
    · rw [if_pos hfull]
      exact h.counters h.superblock h.diskSb (UInt64.le_refl _) (fun _ hi => hi) rfl rfl hstaged
    · rw [if_neg hfull]
      refine h.counters h.superblock h.diskSb (UInt64.le_refl _) (fun _ hi => hi) rfl rfl ?_
      intro id hid
      unfold CrashSys.staged
      rw [hpc]
      -- the page moves from the producer's hand to the end of the ring
      rcases List.mem_append.mp hid with hid | hid
      · exact List.mem_cons_of_mem _ hid
      · rw [List.mem_singleton.mp hid]
        exact List.mem_cons_self
  | create base want i =>
    rw [hpc] at hok
    dsimp only at hok ⊢
    by_cases hlt : i < want
    · rw [if_pos hlt]
      cases halloc : kds_buf_alloc_new s.pool (base + i) with
      | mk res pool =>
        obtain ⟨hsb', herr, hcreated⟩ := alloc_new_cases halloc
        cases res with
        -- nothing was created, and the disk is as it was
        | error e =>
          obtain ⟨hcached, hdisk⟩ := herr e rfl
          refine h.counters ⟨sb, hsb'.trans hsb, hle, hvalid⟩ h.diskSb (UInt64.le_refl _) ?_ hcached
            rfl hstaged
          intro j hi
          unfold CrashSys.initOnDisk at hi
          rw [hdisk] at hi
          exact hi
        | ok frame =>
          obtain ⟨rfl, -, hdisk, hcached⟩ := hcreated frame rfl
          -- the zeroed page is written, which may hit the superblock
          apply CrashInv.wrote
          · refine h.created halloc (createdFrame (base + i)) [] hsb' rfl rfl ?_ (fun _ _ => rfl) rfl
              ?_ (fun _ => createdFrame_not_init (base + i)) ?_
            · dsimp only
              rw [hcached, Function.update_self]
              rfl
            · intro j hj
              simp at hj
            · intro j hj
              rcases List.mem_cons.mp hj with hj | hj
              · exact Or.inl hj
              · exact Or.inr (hstaged hj)
          · refine hok.imp_right fun hnone j hj hi => hnone j hj ?_
            unfold CrashSys.initOnDisk at hi
            dsimp only at hi
            rw [hdisk] at hi
            by_cases hji : j = base + i
            · rw [hji, Function.update_self, newFrame_not_init] at hi
              simp at hi
            · rw [Function.update_of_ne hji] at hi
              exact hi
    · rw [if_neg hlt]
      exact h.counters h.superblock h.diskSb (UInt64.le_refl _) (fun _ hi => hi) rfl rfl hstaged

theorem superblockFrame_not_init {sb : Superblock} (h : sb.Valid) (id : PageId) :
    (superblockFrame sb id).hdr.has KDS_PAGE_FLAG_INIT = false := by
  show (sb.version.toUInt8 &&& KDS_PAGE_FLAG_INIT != 0) = false
  rw [h.version]
  decide

/-- The superblock is written over the page on its sectors. -/
theorem writeSuperblock_initOnDisk {sb : Superblock} (hvalid : sb.Valid) (p : Pool) {id : PageId}
    (hi : ((p.writeSuperblock sb).disk id).hdr.has KDS_PAGE_FLAG_INIT = true) :
    (p.disk id).hdr.has KDS_PAGE_FLAG_INIT = true := by
  unfold Pool.writeSuperblock at hi
  dsimp only at hi
  by_cases hclear : ClearOfSuperblock id
  · rw [if_pos hclear] at hi
    exact hi
  · rw [if_neg hclear, superblockFrame_not_init hvalid] at hi
    simp at hi

/-- The batch that was about to write the superblock has nothing left to push. -/
theorem staged_fsync (s : CrashSys) (pool : Pool) (diskSb : Superblock) :
    CrashSys.staged
      { s with
        pool := pool
        diskSb := diskSb
        pc := match s.pc with | .fsync => .idle | pc => pc } = s.staged := by
  unfold CrashSys.staged
  cases s.pc with
  | idle => rfl
  | create base want i => rfl
  | push base want i => rfl
  | setRange base => rfl
  | fsync => rfl

theorem CrashInv.fsync {now : Option UInt64} (h : CrashInv s) : CrashInv (s.fsync now) := by
  obtain ⟨sb, hsb, hle, hvalid⟩ := h.superblock
  have hstaged : ∀ pool diskSb, ∀ id ∈ CrashSys.staged
      { s with
        pool := pool
        diskSb := diskSb
        pc := match s.pc with | .fsync => .idle | pc => pc }, id ∈ s.staged := by
    intro pool diskSb id hid
    rw [staged_fsync] at hid
    exact hid
  unfold CrashSys.fsync
  dsimp only
  rw [hsb]
  cases now with
  | none =>
    exact h.counters ⟨sb, hsb, hle, hvalid⟩ h.diskSb (UInt64.le_refl _) (fun _ hi => hi) rfl rfl
      (hstaged _ _)
  | some now =>
    exact h.counters ⟨_, rfl, UInt64.le_refl _, hvalid.version, hvalid.reserved⟩ hvalid hle
      (fun _ hi => writeSuperblock_initOnDisk hvalid s.pool hi) rfl rfl (hstaged _ _)

/-- Somebody changes the frame of a page that is handed out, or is just being handed out. -/
theorem CrashInv.setFrame {id : PageId} {f : Frame} (h : CrashInv s)
    (hsb : s'.pool.superblock = s.pool.superblock) (hdiskSb : s'.diskSb = s.diskSb)
    (hdisk : s'.pool.disk = s.pool.disk)
    (hcached : s'.pool.cached = Function.update s.pool.cached id (some f))
    (hmem : id ∈ s.handed ∨ id ∈ s.staged) (hself : id ∈ s'.handed)
    (hhanded : ∀ j ∈ s'.handed, j = id ∨ j ∈ s.handed) (hkept : ∀ j ∈ s.handed, j ∈ s'.handed)
    (hstaged : ∀ j ∈ s'.staged, j ∈ s.staged) : CrashInv s' := by
  have hinit : ∀ j, s'.initOnDisk j = s.initOnDisk j := by
    intro j
    unfold CrashSys.initOnDisk
    rw [hdisk]
  apply h.change id
  · rw [hsb, hdiskSb]
    exact h.superblock
  · rw [hdiskSb]
    exact h.diskSb
  · exact hdiskSb ▸ UInt64.le_refl _
  · intro j _
    exact hinit j
  · intro j hj g hg
    rw [hcached, Function.update_of_ne hj] at hg
    exact Or.inl hg
  · exact hhanded
  · exact hkept
  · intro j hj
    exact Or.inr (hstaged j hj)
  · intro _ hi
    rw [hinit] at hi
    rw [hdiskSb]
    by_cases hold : id ∈ s.handed
    · exact h.handed id hold hi
    · rw [(h.staged id (hmem.resolve_left hold) hold).1] at hi
      simp at hi
  · intro _ hne
    exact absurd hself hne

theorem CrashInv.consume {type : PageType} (h : CrashInv s) : CrashInv (s.consume type) := by
  unfold CrashSys.consume
  cases hring : s.ring with
  | nil => exact h
  | cons id ring =>
    have hsub : ∀ j ∈ CrashSys.staged
        { s with pool := setPageType s.pool id type, ring := ring, handed := id :: s.handed },
        j ∈ s.staged := by
      intro j hj
      unfold CrashSys.staged at hj ⊢
      dsimp only at hj
      split at hj
      · rw [hring]
        rcases List.mem_cons.mp hj with hj | hj
        · rw [hj]
          exact List.mem_cons_self
        · exact List.mem_cons_of_mem _ (List.mem_cons_of_mem _ hj)
      · rw [hring]
        exact List.mem_cons_of_mem _ hj
    have hid : id ∈ s.staged := by
      unfold CrashSys.staged
      split
      · rw [hring]
        exact List.mem_cons_of_mem _ List.mem_cons_self
      · rw [hring]
        exact List.mem_cons_self
    exact h.setFrame rfl rfl rfl rfl (Or.inr hid) List.mem_cons_self
      (fun j hj => List.mem_cons.mp hj) (fun j hj => List.mem_cons_of_mem _ hj) hsub

theorem CrashInv.newNode {id : PageId} {type : PageType} (h : CrashInv s)
    (hok : ClearOfSuperblock id ∨ s.NoneInUse) : CrashInv (s.newNode id type) := by
  unfold CrashSys.newNode
  dsimp only
  cases halloc : kds_buf_alloc_new s.pool id with
  | mk res pool =>
    obtain ⟨hsb, herr, hcreated⟩ := alloc_new_cases halloc
    cases res with
    | error e =>
      obtain ⟨hcached, hdisk⟩ := herr e rfl
      obtain ⟨sb, hs, hle, hvalid⟩ := h.superblock
      refine h.counters ⟨sb, hsb.trans hs, hle, hvalid⟩ h.diskSb (UInt64.le_refl _) ?_ hcached rfl
        (fun _ hid => hid)
      intro j hi
      unfold CrashSys.initOnDisk at hi
      rw [hdisk] at hi
      exact hi
    | ok frame =>
      obtain ⟨rfl, -, hdisk, -⟩ := hcreated frame rfl
      apply CrashInv.wrote
      · refine h.created halloc _ [frame] hsb rfl rfl (Function.update_self ..) ?_ rfl ?_ ?_
          (fun j hj => Or.inr hj)
        · intro j hj
          dsimp only [kds_commit_page_hdr, setPageType, Pool.setFrame]
          rw [Function.update_of_ne hj, Function.update_of_ne hj, Function.update_of_ne hj]
        · intro j hj
          exact List.mem_singleton.mp hj
        · intro hnot
          exact absurd (List.mem_singleton.mpr rfl) hnot
      · refine hok.imp_right fun hnone j hj hi => ?_
        change (pool.disk j).hdr.has KDS_PAGE_FLAG_INIT = true at hi
        rw [hdisk] at hi
        by_cases hji : j = frame
        · rw [hji, Function.update_self, newFrame_not_init] at hi
          simp at hi
        · rw [Function.update_of_ne hji] at hi
          exact hnone j ((List.mem_cons.mp hj).resolve_left hji) hi

theorem CrashInv.load {id : PageId} (h : CrashInv s) :
    CrashInv { s with pool := (kds_buf_lookup_or_load s.pool id).2 } := by
  generalize hres : kds_buf_lookup_or_load s.pool id = res
  obtain ⟨res, pool⟩ := res
  obtain ⟨hload, -⟩ := lookup_or_load_loadOnly hres
  have hinit : ∀ j, (pool.disk j).hdr.has KDS_PAGE_FLAG_INIT = s.initOnDisk j := by
    intro j
    rw [hload.disk]
    rfl
  obtain ⟨sb, hsb, hle, hvalid⟩ := h.superblock
  refine ⟨⟨sb, hload.superblock.trans hsb, hle, hvalid⟩, h.diskSb, ?_, ?_⟩
  · intro j hj hi
    exact h.handed j hj ((hinit j).symm.trans hi)
  · intro j hj hne
    obtain ⟨hi, hf⟩ := h.staged j hj hne
    refine ⟨(hinit j).trans hi, fun f hc => ?_⟩
    rcases hload.cached j f hc with hc | hc
    · exact hf f hc
    · rw [hc]
      exact hi

theorem clear_has_init (hdr : PageHdr) :
    (hdr.clear KDS_PAGE_FLAG_DIRTY).has KDS_PAGE_FLAG_INIT = hdr.has KDS_PAGE_FLAG_INIT := by
  unfold PageHdr.has PageHdr.clear
  dsimp only
  rw [UInt8.and_assoc]
  rfl

/-- A flush writes the flags of the frame, or nothing. -/
theorem frame_flush_init (p : Pool) (id : PageId) :
    (((kds_frame_flush p id).2.disk id).hdr.has KDS_PAGE_FLAG_INIT = true →
      (p.frame id).hdr.has KDS_PAGE_FLAG_INIT = true ∨
        (p.disk id).hdr.has KDS_PAGE_FLAG_INIT = true) ∧
      ∀ f, (kds_frame_flush p id).2.cached id = some f →
        ∃ g, p.cached id = some g ∧ f.hdr.has KDS_PAGE_FLAG_INIT = g.hdr.has KDS_PAGE_FLAG_INIT := by
  have houtcome := frame_flush_outcome p id
  generalize (kds_frame_flush p id).2 = pool at houtcome
  cases houtcome with
  | clean => exact ⟨Or.inr, fun f hf => ⟨f, hf, rfl⟩⟩
  | @failed f hf hdirty =>
    refine ⟨Or.inr, fun g hg => ⟨f, hf, ?_⟩⟩
    change Function.update p.cached id (some f.withHdr) id = some g at hg
    rw [Function.update_self] at hg
    rw [← Option.some.inj hg]
    rfl
  | @written f hf hdirty =>
    have hframe : p.frame id = f := by
      unfold Pool.frame
      rw [hf, Option.getD_some]
    refine ⟨fun hi => Or.inl ?_, fun g hg => ⟨f, hf, ?_⟩⟩
    · change (Function.update p.disk id f.withHdr id).hdr.has KDS_PAGE_FLAG_INIT = true at hi
      rw [Function.update_self] at hi
      rw [hframe]
      exact hi
    · change Function.update p.cached id
        (some { f.withHdr with hdr := f.hdr.clear KDS_PAGE_FLAG_DIRTY }) id = some g at hg
      rw [Function.update_self] at hg
      rw [← Option.some.inj hg]
      exact clear_has_init f.hdr

/-- A flush: the one step that may write `INIT`. -/
theorem CrashInv.flush {id : PageId} (h : CrashInv s) (hok : PersistedFirst s (.flush id)) :
    CrashInv (s.flush id) := by
  obtain ⟨hfirst, hclear⟩ := hok
  obtain ⟨hinit, hcached⟩ := frame_flush_init s.pool id
  have houtcome := frame_flush_outcome s.pool id
  have hother := fun j hj => houtcome.other (j := j) hj
  have hsb := houtcome.superblock
  obtain ⟨sb, hs, hle, hvalid⟩ := h.superblock
  -- first the write of the page, then what it does to the superblock
  have hpool : CrashInv { s with pool := (kds_frame_flush s.pool id).2 } := by
    refine h.change id ⟨sb, hsb.trans hs, hle, hvalid⟩ h.diskSb (UInt64.le_refl _) ?_ ?_ ?_ ?_ ?_ ?_ ?_
    · intro j hj
      unfold CrashSys.initOnDisk
      rw [(hother j hj).2]
    · intro j hj f hf
      exact Or.inl ((hother j hj).1 ▸ hf)
    · intro j hj
      exact Or.inr hj
    · intro j hj
      exact hj
    · intro j hj
      exact Or.inr hj
    -- a handed-out page with `INIT`: its id was persisted before, by the condition
    · intro hmem hi
      rcases hinit hi with hf | hd
      · exact (hfirst hmem hf).2
      · exact h.handed id hmem hd
    -- a staged page has no `INIT` in its frame, so none gets to the disk
    · intro hmem hne
      obtain ⟨hd, hf⟩ := h.staged id hmem hne
      have hframe : (s.pool.frame id).hdr.has KDS_PAGE_FLAG_INIT = false := by
        unfold Pool.frame
        cases hc : s.pool.cached id with
        | none => exact hd
        | some f => exact hf f hc
      constructor
      · by_contra htrue
        rw [Bool.not_eq_false] at htrue
        rcases hinit htrue with hi | hi
        · rw [hframe] at hi
          simp at hi
        · rw [show (s.pool.disk id).hdr.has KDS_PAGE_FLAG_INIT = false from hd] at hi
          simp at hi
      · intro f hc
        obtain ⟨g, hg, heq⟩ := hcached f hc
        rw [heq]
        exact hf g hg
  unfold CrashSys.flush
  -- a frame without `DIRTY` is not written at all
  generalize hres : kds_frame_flush s.pool id = res at hinit hpool hother
  obtain ⟨res, pool⟩ := res
  cases res with
  | error e => exact hpool
  | ok u =>
    dsimp only
    by_cases hd : (s.pool.frame id).hdr.has KDS_PAGE_FLAG_DIRTY = true
    · rw [if_pos hd]
      apply hpool.wrote
      by_cases hc : ClearOfSuperblock id
      · exact Or.inl hc
      · refine Or.inr fun j hj hi => ?_
        by_cases hji : j = id
        · rw [hji] at hj hi ⊢
          rcases hinit hi with hf | hdisk
          · exact absurd (hfirst hj hf).1 hc
          · exact hclear.resolve_left hc id hj hdisk
        · change (pool.disk j).hdr.has KDS_PAGE_FLAG_INIT = true at hi
          rw [(hother j hji).2] at hi
          exact hclear.resolve_left hc j hj hi
    · rw [if_neg hd]
      exact hpool

/-- What a boot leaves: pages as they are on disk, and in the ring pages that the
    scan finds on disk without `INIT`. -/
theorem restart_spec (s : CrashSys) (fail : Nat → Option Errno) :
    (s.pool.restarted s.diskSb fail).LoadOnly (s.restart fail).pool ∧
      ∀ id ∈ (s.restart fail).ring, s.diskSb.alloc_point ≠ 0 ∧ s.diskSb.alloc_point ≤ id ∧
        id < scanEnd s.diskSb.alloc_point s.diskSb.max_page_id ∧ s.initOnDisk id = false := by
  unfold CrashSys.restart
  dsimp only
  by_cases hfirst : s.diskSb.alloc_point = 0
  · rw [if_pos hfirst]
    exact ⟨.refl _, fun id hid => by simp at hid⟩
  · rw [if_neg hfirst]
    obtain ⟨hload, hring⟩ :=
      reclaim_spec (s.pool.restarted s.diskSb fail) [] s.diskSb.alloc_point
    refine ⟨hload, fun id hid => ?_⟩
    rcases hring id hid with hnil | ⟨hrec, hle, hlt⟩
    · simp at hnil
    · unfold Frame.recyclable at hrec
      rw [Bool.and_eq_true, Bool.not_eq_true'] at hrec
      exact ⟨hfirst, hle, hlt, hrec.2⟩

theorem CrashInv.restart {fail : Nat → Option Errno} (h : CrashInv s) :
    CrashInv (s.restart fail) := by
  obtain ⟨hload, hring⟩ := restart_spec s fail
  have hinit : ∀ id, (s.restart fail).initOnDisk id = s.initOnDisk id := by
    intro id
    unfold CrashSys.initOnDisk
    rw [hload.disk]
    rfl
  constructor
  · exact ⟨s.diskSb, hload.superblock, UInt64.le_refl _, h.diskSb⟩
  · exact h.diskSb
  · intro id hid hi
    exact h.handed id (List.mem_filter.mp hid).1 (List.mem_filter.mp hid).2
  · intro id hid hne
    have hnot := (hring id hid).2.2.2
    refine ⟨(hinit id).trans hnot, fun f hf => ?_⟩
    rcases hload.cached id f hf with hf | hf
    · simp [Pool.restarted] at hf
    · rw [hf]
      exact hnot

theorem CrashInv.init (h : crashSystem.init s) : CrashInv s := by
  obtain ⟨hvalid, hsb, hcached, hring, hpc, -, hhanded⟩ := h
  constructor
  · exact ⟨s.diskSb, hsb, UInt64.le_refl _, hvalid⟩
  · exact hvalid
  · intro id hid
    rw [hhanded] at hid
    simp at hid
  · intro id hid
    unfold CrashSys.staged at hid
    rw [hpc, hring] at hid
    simp at hid

/-- What one step keeps. -/
theorem CrashInv.step {act : CrashAct} (h : CrashInv s) (hstep : crashSystem.step s act s')
    (hok : PersistedFirst s act) : CrashInv s' := by
  cases act with
  | batch count =>
    obtain ⟨hpc, rfl⟩ := hstep
    exact h.startBatch hpc hok
  | produce =>
    obtain rfl := hstep
    exact h.produce hok
  | fsync now =>
    obtain rfl := hstep
    exact h.fsync
  | consume type =>
    obtain rfl := hstep
    exact h.consume
  | assign =>
    obtain rfl := hstep
    exact h.assign hok
  | newNode id type =>
    obtain ⟨-, rfl⟩ := hstep
    exact h.newNode hok
  | write id f =>
    obtain ⟨hid, rfl⟩ := hstep
    exact h.setFrame rfl rfl rfl rfl (Or.inl hid) hid (fun j hj => Or.inr hj) (fun j hj => hj)
      (fun j hj => hj)
  | load id =>
    obtain rfl := hstep
    exact h.load
  | flush id =>
    obtain rfl := hstep
    exact h.flush hok
  | restart fail =>
    obtain rfl := hstep
    exact h.restart

theorem crashInv_reachable (h : (crashSystem.restrict PersistedFirst).Reachable s) : CrashInv s := by
  apply h.invariant CrashInv
  · intro s hinit
    exact CrashInv.init hinit
  · intro s act s' hinv hstep
    exact hinv.step hstep.1 hstep.2

/-- **Page ids across a crash**: where the counter is on disk before the pages
    above it, at no point can a restart issue the id of a page that is in use
    on disk. -/
theorem crash_safe_ids (h : (crashSystem.restrict PersistedFirst).Reachable s) : CrashSafe s :=
  (crashInv_reachable h).crashSafe

end runs

/-! ## Section 4: Two orders of one batch -/

/-- The superblock that a first boot leaves behind: 127 pages were issued. -/
def bootedSuperblock : Superblock :=
  { init_superblock_and_fsync 0 with max_page_id := 255, alloc_point := 128 }

/-- The second boot. -/
def secondBoot : CrashSys where
  pool :=
    { superblock := some bootedSuperblock
      cached := fun _ => none
      refcnt := fun _ => 0
      disk := fun id => newFrame id 0
      fail := fun _ => none }
  diskSb := bootedSuperblock
  ring := []
  pc := .idle
  assigned := []
  handed := []

/-- The first page of a batch has been handed out as a heap page while the
    batch goes on. -/
def firstPageHanded : CrashSys :=
  (((secondBoot.startBatch PRE_ALLOC_NUM).produce).produce).consume .heap

/-- A heap page with a row. -/
def heapPageInUse (id : PageId) : Frame :=
  let f := newFrame id (KDS_PAGE_FLAG_ALLOC ||| KDS_PAGE_FLAG_INIT ||| KDS_PAGE_FLAG_DIRTY)
  { f with hdr := { f.hdr with type := .heap } }

theorem secondBoot_init : crashSystem.init secondBoot :=
  ⟨⟨rfl, by decide⟩, rfl, fun _ => rfl, rfl, rfl, rfl, rfl⟩

/-- The steps of the batch up to the hand-out are the same in both orders. -/
theorem firstPageHanded_reachable :
    (crashSystem.restrict PersistedFirst).Reachable firstPageHanded := by
  have hstart : (secondBoot.startBatch PRE_ALLOC_NUM).pc = .create 255 127 0 := rfl
  have hpush : (secondBoot.startBatch PRE_ALLOC_NUM).produce.pc = .push 255 127 0 := rfl
  have h₀ : (crashSystem.restrict PersistedFirst).Reachable secondBoot := .init secondBoot_init
  have h₁ : (crashSystem.restrict PersistedFirst).Reachable
      (secondBoot.startBatch PRE_ALLOC_NUM) :=
    .step (.batch PRE_ALLOC_NUM) h₀ ⟨⟨rfl, rfl⟩, show 255 + 256 < 2 ^ 60 by decide⟩
  have h₂ : (crashSystem.restrict PersistedFirst).Reachable
      (secondBoot.startBatch PRE_ALLOC_NUM).produce := by
    refine .step .produce h₁ ⟨rfl, ?_⟩
    unfold PersistedFirst
    dsimp only
    rw [hstart]
    exact Or.inl (by decide +kernel)
  have h₃ : (crashSystem.restrict PersistedFirst).Reachable
      (secondBoot.startBatch PRE_ALLOC_NUM).produce.produce := by
    refine .step .produce h₂ ⟨rfl, ?_⟩
    unfold PersistedFirst
    dsimp only
    rw [hpush]
    trivial
  exact .step (.consume .heap) h₃ ⟨rfl, trivial⟩

/-- The page is used. -/
def CrashSys.usePage (s : CrashSys) (id : PageId) : CrashSys :=
  { s with pool := s.pool.setFrame id (heapPageInUse id) }

/-- The page is used and flushed, with the superblock written before. -/
def usedBehindFsync : CrashSys := ((firstPageHanded.fsync (some 0)).usePage 255).flush 255

/-- The page is used and flushed, and the superblock is the one of the boot. -/
def usedBeforeFsync : CrashSys := (firstPageHanded.usePage 255).flush 255

/-- With the superblock written in between, the page may be used. -/
theorem crash_safe_ids_fsynced_first :
    (crashSystem.restrict PersistedFirst).Reachable usedBehindFsync ∧
      usedBehindFsync.handed = [255] ∧ usedBehindFsync.initOnDisk 255 = true ∧
      CrashSafe usedBehindFsync := by
  have h₁ : (crashSystem.restrict PersistedFirst).Reachable (firstPageHanded.fsync (some 0)) :=
    .step (.fsync (some 0)) firstPageHanded_reachable ⟨rfl, trivial⟩
  have hmem : 255 ∈ (firstPageHanded.fsync (some 0)).handed := List.mem_singleton.mpr rfl
  have h₂ : (crashSystem.restrict PersistedFirst).Reachable
      ((firstPageHanded.fsync (some 0)).usePage 255) :=
    .step (.write 255 (heapPageInUse 255)) h₁ ⟨⟨hmem, rfl⟩, trivial⟩
  have h₃ : (crashSystem.restrict PersistedFirst).Reachable usedBehindFsync :=
    .step (.flush 255) h₂ ⟨rfl, fun _ _ => ⟨by decide +kernel, show (255 : UInt64) < 382 by decide⟩,
      Or.inl (by decide +kernel)⟩
  exact ⟨h₃, rfl, rfl, crash_safe_ids h₃⟩

/-- Without it, the batch after the restart starts with the page in use. -/
theorem page_in_use_issued_again : crashSystem.Reachable usedBeforeFsync ∧
    usedBeforeFsync.handed = [255] ∧ usedBeforeFsync.initOnDisk 255 = true ∧
    255 ∈ issuedIds (some bootedSuperblock) [.batch 1] ∧ ¬ CrashSafe usedBeforeFsync := by
  have h₁ : crashSystem.Reachable firstPageHanded := firstPageHanded_reachable.of_restrict
  have hmem : 255 ∈ firstPageHanded.handed := List.mem_singleton.mpr rfl
  have h₂ : crashSystem.Reachable (firstPageHanded.usePage 255) :=
    .step (.write 255 (heapPageInUse 255)) h₁ ⟨hmem, rfl⟩
  have h₃ : crashSystem.Reachable usedBeforeFsync := .step (.flush 255) h₂ rfl
  have hissued : 255 ∈ issuedIds (some bootedSuperblock) [.batch 1] := by decide +kernel
  refine ⟨h₃, rfl, rfl, hissued, ?_⟩
  intro hsafe
  apply hsafe 255 hmem rfl
  exact ⟨[.batch 1], show 255 + 0 + 1 < 2 ^ 64 by decide, hissued⟩

end Kds
