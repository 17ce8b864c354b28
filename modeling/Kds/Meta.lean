import Kds.Core
import Mathlib.Data.List.Nodup
import Mathlib.Data.List.Range
import Mathlib.Tactic.Linarith

/-! # Superblock, page-id issue and disk layout

    `meta.c` / `kds_meta.h`: one atomic counter, `max_page_id`, is the source
    of every page id. Two functions draw from it, and they read it
    differently:

    - `assign_page_id` is `atomic64_inc_return`, so the counter is the last
      id issued;
    - `alloc_page_id_batch` is `atomic64_fetch_add`, so the counter is the
      next id to issue.

    The first half of the module is the model. The second half settles two
    questions about every history of calls: whether the sectors of an issued
    page stay clear of the superblock, the catalog pages and each other, and
    whether an id can be issued twice.
-/

namespace Kds

/-! ## Section 1: Model -/

/-! ### The superblock -/

/-- `kds_superblock_t` (without its padding). -/
structure Superblock where
  magic : UInt64
  version : UInt32
  max_page_id : PageId
  last_commit_page_id : PageId
  create_time : UInt64
  last_mount_time : UInt64
  last_fsync_time : UInt64
  total_pages : UInt64
  free_pages : UInt64
  alloc_point : PageId
  alloc_remaining : UInt64
  deriving DecidableEq, Repr

def SUPERBLOCK_MAGIC : UInt64 := 0x4B44424F

def KDS_VERSION : UInt32 := 1

/-- The superblock that `init_superblock_and_fsync` writes on a first boot;
    `now` is `ktime_get_real_seconds()`. -/
def init_superblock_and_fsync (now : UInt64) : Superblock where
  magic := SUPERBLOCK_MAGIC
  version := KDS_VERSION
  max_page_id := UInt64.ofNat KDS_SYS_RESERVED_PAGES
  last_commit_page_id := 0
  create_time := now
  last_mount_time := now
  last_fsync_time := 0
  total_pages := 0
  free_pages := 0
  alloc_point := 0
  alloc_remaining := 0

/-- `assign_page_id`: `atomic64_inc_return`. `none` is the `NULL` superblock
    of a system that is not up yet. -/
def assign_page_id : Option Superblock → PageId × Option Superblock
  | none => (0, none)
  | some sb =>
      let id := sb.max_page_id + 1
      (id, some { sb with max_page_id := id })

/-- `alloc_page_id_batch`: `atomic64_fetch_add`, returning the old counter. -/
def alloc_page_id_batch (count : UInt64) : Option Superblock → PageId × Option Superblock
  | none => (0, none)
  | some sb =>
      if count = 0 then (0, some sb)
      else (sb.max_page_id, some { sb with max_page_id := sb.max_page_id + count })

/-! ### Sectors -/

/-- `kds_page_sector`: the product is taken in the 64-bit `sector_t`. -/
def kds_page_sector (id : PageId) : Sector :=
  id * UInt64.ofNat (KDS_PAGE_SIZE / 512)

/-- Two logical pages written at `a` and `b` share a sector. -/
def SectorsOverlap (a b : Sector) : Prop :=
  a.toNat < b.toNat + KDS_PAGE_SECTORS ∧ b.toNat < a.toNat + KDS_PAGE_SECTORS

instance (a b : Sector) : Decidable (SectorsOverlap a b) :=
  inferInstanceAs (Decidable (_ ∧ _))

/-- `kds_write_logical_page`: replaces the `KDS_PAGE_SECTORS` sectors from
    `sector` on. The disk is a map from sector numbers to sector contents. -/
def kds_write_logical_page {β : Type} (disk : Nat → β) (sector : Sector)
    (img : Nat → β) : Nat → β :=
  fun n =>
    if sector.toNat ≤ n ∧ n < sector.toNat + KDS_PAGE_SECTORS then
      img (n - sector.toNat)
    else disk n

@[simp] def KDS_CATALOG_PAGE_TYPES : PageId := 4
@[simp] def KDS_CATALOG_PAGE_COLUMNS : PageId := 5
@[simp] def KDS_CATALOG_PAGE_OBJECTS : PageId := 6
@[simp] def KDS_CATALOG_PAGE_TABLES : PageId := 7

/-- The four fixed catalog pages. -/
def catalogPages : List PageId :=
  [KDS_CATALOG_PAGE_TYPES, KDS_CATALOG_PAGE_COLUMNS, KDS_CATALOG_PAGE_OBJECTS,
    KDS_CATALOG_PAGE_TABLES]

/-! ### Histories of calls -/

/-- One draw on the counter: a btree split's `assign_page_id()`, or a ring
    refill's `alloc_page_id_batch(count)`. -/
inductive IdCall where
  | assign
  | batch (count : UInt64)
  deriving DecidableEq, Repr

/-- The ids `base, base + 1, ..., base + count - 1`. -/
def idRange (base : PageId) (count : UInt64) : List PageId :=
  (List.range count.toNat).map fun i => base + UInt64.ofNat i

/-- The ids one call issues, read off the value it returns, and the superblock after it. -/
def IdCall.issue (sb : Option Superblock) : IdCall → List PageId × Option Superblock
  | .assign => ([(assign_page_id sb).1], (assign_page_id sb).2)
  | .batch n =>
      (idRange (alloc_page_id_batch n sb).1 n, (alloc_page_id_batch n sb).2)

/-- The ids of all calls of a history, in order. -/
def issuedIds : Option Superblock → List IdCall → List PageId
  | _, [] => []
  | sb, c :: cs => (c.issue sb).1 ++ issuedIds (c.issue sb).2 cs

/-- `kds_batch_alloc` moves a base of 0 past the reserved pages. -/
def batchBase (base : PageId) : PageId :=
  if base = 0 then base + UInt64.ofNat KDS_SYS_RESERVED_PAGES else base

/-- The pages a call brings into existence: `kds_batch_alloc` creates one
    page for each id of its batch, `btree_alloc_new_page` one page unless
    `assign_page_id` returned 0. -/
def IdCall.pages (sb : Option Superblock) : IdCall → List PageId × Option Superblock
  | .assign =>
      (if (assign_page_id sb).1 = 0 then [] else [(assign_page_id sb).1],
        (assign_page_id sb).2)
  | .batch n =>
      (idRange (batchBase (alloc_page_id_batch n sb).1) n, (alloc_page_id_batch n sb).2)

/-- The pages of all calls of a history, in order. -/
def issuedPages : Option Superblock → List IdCall → List PageId
  | _, [] => []
  | sb, c :: cs => (c.pages sb).1 ++ issuedPages (c.pages sb).2 cs

theorem mem_idRange {base : PageId} {count : UInt64} {p : PageId} :
    p ∈ idRange base count ↔ ∃ i < count.toNat, p = base + UInt64.ofNat i := by
  unfold idRange
  simp only [List.mem_map, List.mem_range]
  constructor
  · rintro ⟨i, hi, rfl⟩; exact ⟨i, hi, rfl⟩
  · rintro ⟨i, hi, rfl⟩; exact ⟨i, hi, rfl⟩

/-! ## Section 2: Disk layout

    A page id is turned into a sector by a 64-bit multiplication by 16, so
    ids `p` and `p + 2^60` name the same sectors. Below `2^60` the map is
    injective and page 128 sits exactly on the superblock. -/

/-- No issued page shares a sector with the superblock, with a catalog page
    or with another issued page, and writing an issued page leaves the
    superblock's sectors as they were. -/
structure LayoutSafe (ids : List PageId) : Prop where
  superblock : ∀ p ∈ ids,
    ¬ SectorsOverlap (kds_page_sector p) (UInt64.ofNat META_SUPERBLOCK_SECTOR)
  catalog : ∀ p ∈ ids, ∀ c ∈ catalogPages,
    ¬ SectorsOverlap (kds_page_sector p) (kds_page_sector c)
  issued : ∀ p ∈ ids, ∀ q ∈ ids, p ≠ q →
    ¬ SectorsOverlap (kds_page_sector p) (kds_page_sector q)
  untouched : ∀ p ∈ ids, ∀ (β : Type) (disk img : Nat → β), ∀ i < KDS_PAGE_SECTORS,
    kds_write_logical_page disk (kds_page_sector p) img (META_SUPERBLOCK_SECTOR + i) =
      disk (META_SUPERBLOCK_SECTOR + i)

/-- Number of pages whose sectors a 64-bit sector number can tell apart. -/
def addressablePages : Nat := 2 ^ 60

/-- A draw that keeps the layout safe, in terms of the counter before it: no
    batch is taken while the counter still has the value it was initialised
    with, and no id reaches the point where page numbers wrap onto the catalog. -/
def IdCall.LayoutOk (sb : Option Superblock) (c : IdCall) : Prop :=
  match sb, c with
  | none, _ => True
  | some sb, .assign => sb.max_page_id.toNat + 1 < addressablePages + 4
  | some sb, .batch n =>
      n = 0 ∨ (sb.max_page_id.toNat ≠ KDS_SYS_RESERVED_PAGES ∧
        sb.max_page_id.toNat + n.toNat ≤ addressablePages + 4)

/-- Every call of the history is `LayoutOk` in the state it is made in. -/
def LayoutOkCalls : Option Superblock → List IdCall → Prop
  | _, [] => True
  | sb, c :: cs => c.LayoutOk sb ∧ LayoutOkCalls (c.pages sb).2 cs

theorem kds_page_sector_toNat (p : PageId) :
    (kds_page_sector p).toNat = p.toNat * 16 % 2 ^ 64 := by
  simp [kds_page_sector, UInt64.toNat_mul]

/-- Ids past the reserved area and below the wrap-around are safe together. -/
theorem layoutSafe_of_range {ids : List PageId}
    (h : ∀ p ∈ ids, 129 ≤ p.toNat ∧ p.toNat < addressablePages + 4) :
    LayoutSafe ids := by
  unfold addressablePages at h
  have hsb : ∀ p ∈ ids,
      ¬ SectorsOverlap (kds_page_sector p) (UInt64.ofNat META_SUPERBLOCK_SECTOR) := by
    intro p hp
    have hr := h p hp
    simp only [SectorsOverlap, kds_page_sector_toNat, UInt64.toNat_ofNat',
      META_SUPERBLOCK_SECTOR, KDS_PAGE_SECTORS, KDS_PAGE_SIZE, KDS_BLKDEV_SECTOR_SIZE]
    omega
  refine ⟨hsb, ?_, ?_, ?_⟩
  · intro p hp c hc
    have hr := h p hp
    have hc' : 4 ≤ c.toNat ∧ c.toNat ≤ 7 := by
      simp only [catalogPages, List.mem_cons, List.not_mem_nil, or_false] at hc
      rcases hc with rfl | rfl | rfl | rfl <;> decide
    simp only [SectorsOverlap, kds_page_sector_toNat, KDS_PAGE_SECTORS, KDS_PAGE_SIZE,
      KDS_BLKDEV_SECTOR_SIZE]
    omega
  · intro p hp q hq hne
    have hrp := h p hp
    have hrq := h q hq
    have hne' : p.toNat ≠ q.toNat := fun he => hne (UInt64.toNat_inj.mp he)
    simp only [SectorsOverlap, kds_page_sector_toNat, KDS_PAGE_SECTORS, KDS_PAGE_SIZE,
      KDS_BLKDEV_SECTOR_SIZE]
    omega
  · intro p hp β disk img i hi
    have hno := hsb p hp
    unfold kds_write_logical_page
    rw [if_neg]
    intro hin
    apply hno
    simp only [SectorsOverlap, UInt64.toNat_ofNat', META_SUPERBLOCK_SECTOR, KDS_PAGE_SECTORS,
      KDS_PAGE_SIZE, KDS_BLKDEV_SECTOR_SIZE] at hin hi ⊢
    omega

/-- The counter a history works with, and the ids it has left to give. -/
theorem pages_mem_range {sb : Superblock} {c : IdCall}
    (hlo : 128 ≤ sb.max_page_id.toNat) (hok : c.LayoutOk (some sb)) :
    ∀ p ∈ (c.pages (some sb)).1, 129 ≤ p.toNat ∧ p.toNat < addressablePages + 4 := by
  unfold IdCall.LayoutOk addressablePages at hok
  unfold addressablePages
  cases c with
  | assign =>
    intro p hp
    have hp' : p = sb.max_page_id + 1 := by
      by_cases hz : sb.max_page_id + 1 = 0
      · simp [IdCall.pages, assign_page_id, hz] at hp
      · simpa [IdCall.pages, assign_page_id, hz] using hp
    subst hp'
    simp only [UInt64.toNat_add, UInt64.reduceToNat] at hok ⊢
    omega
  | batch n =>
    intro p hp
    simp only [IdCall.pages, mem_idRange] at hp
    obtain ⟨i, hi, rfl⟩ := hp
    have hn : n ≠ 0 := by rintro rfl; simp at hi
    obtain h0 | ⟨hne, hle⟩ := hok
    · exact absurd h0 hn
    · have hbase : batchBase (alloc_page_id_batch n (some sb)).1 = sb.max_page_id := by
        simp only [alloc_page_id_batch, hn, if_false, batchBase]
        rw [if_neg]
        intro h
        rw [h] at hlo
        simp at hlo
      rw [hbase, UInt64.toNat_add, UInt64.toNat_ofNat']
      simp only [KDS_SYS_RESERVED_PAGES] at hne
      omega

/-- A `LayoutOk` call moves the counter up and keeps it in range. -/
theorem pages_counter {sb : Superblock} {c : IdCall}
    (hlo : 128 ≤ sb.max_page_id.toNat) (hhi : sb.max_page_id.toNat ≤ addressablePages + 4)
    (hok : c.LayoutOk (some sb)) :
    ∃ sb', (c.pages (some sb)).2 = some sb' ∧
      128 ≤ sb'.max_page_id.toNat ∧ sb'.max_page_id.toNat ≤ addressablePages + 4 := by
  unfold IdCall.LayoutOk at hok
  unfold addressablePages at *
  cases c with
  | assign =>
    refine ⟨_, rfl, ?_⟩
    simp only [UInt64.toNat_add, UInt64.reduceToNat] at hok ⊢
    omega
  | batch n =>
    by_cases hn : n = 0
    · refine ⟨sb, ?_, hlo, hhi⟩
      simp [IdCall.pages, alloc_page_id_batch, hn]
    · obtain h0 | ⟨hne, hle⟩ := hok
      · exact absurd h0 hn
      · refine ⟨{ sb with max_page_id := sb.max_page_id + n }, ?_, ?_⟩
        · simp [IdCall.pages, alloc_page_id_batch, hn]
        · simp only [UInt64.toNat_add]
          omega

theorem issuedPages_mem_range (calls : List IdCall) :
    ∀ sb : Superblock, 128 ≤ sb.max_page_id.toNat →
      sb.max_page_id.toNat ≤ addressablePages + 4 → LayoutOkCalls (some sb) calls →
      ∀ p ∈ issuedPages (some sb) calls, 129 ≤ p.toNat ∧ p.toNat < addressablePages + 4 := by
  induction calls with
  | nil => intro sb _ _ _ p hp; simp [issuedPages] at hp
  | cons c cs ih =>
    intro sb hlo hhi hok p hp
    obtain ⟨hc, hcs⟩ := hok
    rcases List.mem_append.mp hp with h | h
    · exact pages_mem_range hlo hc p h
    · obtain ⟨sb', heq, hlo', hhi'⟩ := pages_counter hlo hhi hc
      rw [heq] at h hcs
      exact ih sb' hlo' hhi' hcs p h

/-- A call that is not `LayoutOk` issues a page that collides: page 128 is
    the superblock, page `2^60 + 4` or `2^60 + 5` a catalog page. -/
theorem not_layoutSafe_of_bad_call {sb : Superblock} {c : IdCall} {rest : List PageId}
    (hlo : 128 ≤ sb.max_page_id.toNat) (hhi : sb.max_page_id.toNat ≤ addressablePages + 4)
    (hbad : ¬ c.LayoutOk (some sb)) :
    ¬ LayoutSafe ((c.pages (some sb)).1 ++ rest) := by
  unfold IdCall.LayoutOk addressablePages at hbad
  unfold addressablePages at hhi
  intro hsafe
  cases c with
  | assign =>
    -- the counter is `2^60 + 3` or `2^60 + 4`, the id drawn the next one
    have hid : (sb.max_page_id + 1).toNat = sb.max_page_id.toNat + 1 := by
      simp only [UInt64.toNat_add, UInt64.reduceToNat]
      omega
    have hne : sb.max_page_id + 1 ≠ 0 := by
      intro h
      have := congrArg UInt64.toNat h
      rw [hid] at this
      simp at this
    have hmem : sb.max_page_id + 1 ∈ (IdCall.assign.pages (some sb)).1 ++ rest := by
      simp [IdCall.pages, assign_page_id, hne]
    have h4 := hsafe.catalog _ hmem KDS_CATALOG_PAGE_TYPES (by decide)
    have h5 := hsafe.catalog _ hmem KDS_CATALOG_PAGE_COLUMNS (by decide)
    simp only [SectorsOverlap, kds_page_sector_toNat, hid, KDS_PAGE_SECTORS, KDS_PAGE_SIZE,
      KDS_BLKDEV_SECTOR_SIZE, KDS_CATALOG_PAGE_TYPES, KDS_CATALOG_PAGE_COLUMNS,
      UInt64.reduceToNat] at h4 h5
    omega
  | batch n =>
    simp only [not_or, not_and, not_le] at hbad
    obtain ⟨hn, hbad⟩ := hbad
    have hn' : 0 < n.toNat := by
      have : n.toNat ≠ 0 := fun h => hn (UInt64.toNat_inj.mp (by simpa using h))
      omega
    have hbase : batchBase (alloc_page_id_batch n (some sb)).1 = sb.max_page_id := by
      simp only [alloc_page_id_batch, hn, if_false, batchBase]
      rw [if_neg]
      intro h
      rw [h] at hlo
      simp at hlo
    have hmem : ∀ i < n.toNat,
        sb.max_page_id + UInt64.ofNat i ∈ ((IdCall.batch n).pages (some sb)).1 ++ rest := by
      intro i hi
      apply List.mem_append_left
      simp only [IdCall.pages, hbase]
      exact mem_idRange.mpr ⟨i, hi, rfl⟩
    by_cases h128 : sb.max_page_id.toNat = 128
    · have hover := hsafe.superblock _ (hmem 0 hn')
      apply hover
      simp only [SectorsOverlap, kds_page_sector_toNat, UInt64.toNat_add, UInt64.toNat_ofNat',
        h128, META_SUPERBLOCK_SECTOR, KDS_PAGE_SECTORS, KDS_PAGE_SIZE, KDS_BLKDEV_SECTOR_SIZE]
      omega
    · have hlt := hbad (by simpa using h128)
      have hover := hsafe.catalog _ (hmem (2 ^ 60 + 4 - sb.max_page_id.toNat) (by omega))
        KDS_CATALOG_PAGE_TYPES (by decide)
      apply hover
      simp only [SectorsOverlap, kds_page_sector_toNat, UInt64.toNat_add, UInt64.toNat_ofNat',
        KDS_PAGE_SECTORS, KDS_PAGE_SIZE, KDS_BLKDEV_SECTOR_SIZE, KDS_CATALOG_PAGE_TYPES,
        UInt64.reduceToNat]
      omega

theorem LayoutSafe.tail {ids rest : List PageId} (h : LayoutSafe (ids ++ rest)) :
    LayoutSafe rest where
  superblock p hp := h.superblock p (List.mem_append_right _ hp)
  catalog p hp := h.catalog p (List.mem_append_right _ hp)
  issued p hp q hq := h.issued p (List.mem_append_right _ hp) q (List.mem_append_right _ hq)
  untouched p hp := h.untouched p (List.mem_append_right _ hp)

theorem layoutOkCalls_of_safe (calls : List IdCall) :
    ∀ sb : Superblock, 128 ≤ sb.max_page_id.toNat →
      sb.max_page_id.toNat ≤ addressablePages + 4 →
      LayoutSafe (issuedPages (some sb) calls) → LayoutOkCalls (some sb) calls := by
  induction calls with
  | nil => intro _ _ _ _; trivial
  | cons c cs ih =>
    intro sb hlo hhi hsafe
    by_cases hc : c.LayoutOk (some sb)
    · refine ⟨hc, ?_⟩
      obtain ⟨sb', heq, hlo', hhi'⟩ := pages_counter hlo hhi hc
      have htail : LayoutSafe (issuedPages (some sb') cs) := by
        have := hsafe.tail
        rwa [heq] at this
      rw [heq]
      exact ih sb' hlo' hhi' htail
    · exact absurd hsafe (not_layoutSafe_of_bad_call hlo hhi hc)

/-- **Disk layout**: on a freshly initialised superblock a history of draws
    is safe exactly when each of its calls is `LayoutOk`. -/
theorem issuedPages_layoutSafe_iff (now : UInt64) (calls : List IdCall) :
    LayoutSafe (issuedPages (some (init_superblock_and_fsync now)) calls) ↔
      LayoutOkCalls (some (init_superblock_and_fsync now)) calls := by
  have hlo : 128 ≤ (init_superblock_and_fsync now).max_page_id.toNat := by
    simp [init_superblock_and_fsync]
  have hhi : (init_superblock_and_fsync now).max_page_id.toNat ≤ addressablePages + 4 := by
    simp [init_superblock_and_fsync, addressablePages]
  constructor
  · exact layoutOkCalls_of_safe calls _ hlo hhi
  · intro hok
    exact layoutSafe_of_range (issuedPages_mem_range calls _ hlo hhi hok)

/-- The first boot's own refill, `kds_batch_alloc(PRE_ALLOC_RING_BUFFER_SIZE)`
    with 127 free ring slots, creates page 128 on top of the superblock. -/
theorem first_batch_overwrites_superblock :
    ¬ LayoutSafe (issuedPages (some (init_superblock_and_fsync 0)) [.batch 127]) := by
  intro h
  have hmem : (128 : PageId) ∈
      issuedPages (some (init_superblock_and_fsync 0)) [.batch 127] := by decide
  exact h.superblock 128 hmem (by decide)

/-! ## Section 3: Page-id uniqueness

    The counter is 64 bits wide. `natIssued` is the same history over
    unbounded numbers; `issuedIds` is its image modulo `2^64`. -/

/-- A batch that really draws ids. -/
def IdCall.nonemptyBatch : IdCall → Bool
  | .assign => false
  | .batch n => n != 0

/-- Number of `assign_page_id` calls. -/
def assigned (calls : List IdCall) : Nat := calls.count .assign

/-- Number of ids drawn by batches. -/
def batched : List IdCall → Nat
  | [] => 0
  | .assign :: cs => batched cs
  | .batch n :: cs => n.toNat + batched cs

/-- No nonempty batch is drawn after an `assign_page_id` call. -/
def BatchesFirst (calls : List IdCall) : Prop :=
  calls.Pairwise fun a b => a = .assign → b.nonemptyBatch = false

/-- The histories that issue every id once: all batches come before all
    `assign_page_id` calls, and the counter does not come round to an id
    already given out. -/
def UniqueOk (calls : List IdCall) : Prop :=
  BatchesFirst calls ∧
    (assigned calls + batched calls < 2 ^ 64 ∨
      (assigned calls + batched calls = 2 ^ 64 ∧ (assigned calls = 0 ∨ batched calls = 0)))

/-- The history over an unbounded counter. -/
def natIssued : Nat → List IdCall → List Nat
  | _, [] => []
  | m, .assign :: cs => (m + 1) :: natIssued (m + 1) cs
  | m, .batch n :: cs => List.range' m n.toNat ++ natIssued (m + n.toNat) cs

theorem idRange_ofNat (m : Nat) (n : UInt64) :
    idRange (UInt64.ofNat m) n = (List.range' m n.toNat).map UInt64.ofNat := by
  unfold idRange
  rw [List.range'_eq_map_range, List.map_map]
  apply List.map_congr_left
  intro i _
  simp only [Function.comp, UInt64.ofNat_add]

theorem issuedIds_eq_natIssued (calls : List IdCall) :
    ∀ (m : Nat) (sb : Superblock), sb.max_page_id = UInt64.ofNat m →
      issuedIds (some sb) calls = (natIssued m calls).map UInt64.ofNat := by
  induction calls with
  | nil => intro _ _ _; rfl
  | cons c cs ih =>
    intro m sb hm
    cases c with
    | assign =>
      have hnext : sb.max_page_id + 1 = UInt64.ofNat (m + 1) := by
        rw [hm, UInt64.ofNat_add]; rfl
      simp only [issuedIds, IdCall.issue, assign_page_id, natIssued, List.map_cons,
        List.cons_append, List.nil_append, hnext]
      rw [ih (m + 1) _ rfl]
    | batch n =>
      by_cases hn : n = 0
      · subst hn
        simp only [issuedIds, IdCall.issue, alloc_page_id_batch, if_true, natIssued,
          UInt64.toNat_zero, List.range'_zero, List.nil_append, Nat.add_zero, idRange,
          List.range_zero, List.map_nil]
        exact ih m sb hm
      · simp only [issuedIds, IdCall.issue, alloc_page_id_batch, hn, if_false, natIssued,
          List.map_append, hm, idRange_ofNat]
        rw [ih (m + n.toNat) _ (by simp [UInt64.ofNat_add])]

theorem batched_eq_zero {calls : List IdCall}
    (h : ∀ c ∈ calls, c.nonemptyBatch = false) : batched calls = 0 := by
  induction calls with
  | nil => rfl
  | cons c cs ih =>
    have hcs := ih fun c' hc' => h c' (List.mem_cons_of_mem _ hc')
    have hc := h c List.mem_cons_self
    cases c with
    | assign => exact hcs
    | batch n =>
      have hn : n = 0 := by simpa [IdCall.nonemptyBatch] using hc
      simp [batched, hn, hcs]

theorem batched_pos {calls : List IdCall} {b : IdCall} (hb : b ∈ calls)
    (hbatch : b.nonemptyBatch = true) : 0 < batched calls := by
  induction calls with
  | nil => simp at hb
  | cons c cs ih =>
    rcases List.mem_cons.mp hb with rfl | hb'
    · cases b with
      | assign => simp [IdCall.nonemptyBatch] at hbatch
      | batch n =>
        have hn : n.toNat ≠ 0 := by
          intro h0
          have : n = 0 := UInt64.toNat_inj.mp (by simpa using h0)
          simp [IdCall.nonemptyBatch, this] at hbatch
        simp only [batched]
        omega
    · have := ih hb'
      cases c with
      | assign => simpa [batched] using this
      | batch n => simp only [batched]; omega

/-- With the batches first, the ids are two intervals with one id skipped
    between them: the batches leave the counter on the next free id, and the
    first `assign_page_id` steps over it. -/
theorem natIssued_of_batchesFirst (calls : List IdCall) :
    ∀ m : Nat, BatchesFirst calls →
      natIssued m calls =
        List.range' m (batched calls) ++
          List.range' (m + batched calls + 1) (assigned calls) := by
  induction calls with
  | nil => intro m _; simp [natIssued, batched, assigned]
  | cons c cs ih =>
    intro m h
    obtain ⟨hhead, htail⟩ := List.pairwise_cons.mp h
    cases c with
    | assign =>
      have hzero : batched cs = 0 := batched_eq_zero fun c' hc' => hhead c' hc' rfl
      have hrest := ih (m + 1) htail
      simp only [hzero, List.range'_zero, List.nil_append, Nat.add_zero] at hrest
      simp only [natIssued, batched, assigned, List.count_cons_self, hzero, List.range'_zero,
        List.nil_append, Nat.add_zero, hrest]
      rw [List.range'_succ]
    | batch n =>
      have hrest := ih (m + n.toNat) htail
      have hcount : assigned (.batch n :: cs) = assigned cs := by
        simp [assigned]
      simp only [natIssued, batched, hcount, hrest]
      rw [← List.append_assoc, List.range'_append_1, Nat.add_assoc m]

/-- A nonempty batch after an `assign_page_id` starts at an id already issued. -/
theorem natIssued_not_nodup (calls : List IdCall) :
    ∀ m : Nat, ¬ BatchesFirst calls → ¬ (natIssued m calls).Nodup := by
  induction calls with
  | nil => intro m h; exact absurd List.Pairwise.nil h
  | cons c cs ih =>
    intro m h hnd
    by_cases htail : BatchesFirst cs
    · have hhead : ∃ b ∈ cs, c = .assign ∧ b.nonemptyBatch = true := by
        by_contra hno
        push Not at hno
        apply h
        refine List.pairwise_cons.mpr ⟨?_, htail⟩
        intro b hb hc
        simpa using hno b hb hc
      obtain ⟨b, hb, rfl, hbatch⟩ := hhead
      -- the counter stands on the id just issued, and the batches of the rest start there
      have hpos : 0 < batched cs := batched_pos hb hbatch
      have hmem : m + 1 ∈ natIssued (m + 1) cs := by
        rw [natIssued_of_batchesFirst cs (m + 1) htail]
        apply List.mem_append_left
        rw [List.mem_range'_1]
        omega
      simp only [natIssued] at hnd
      exact (List.nodup_cons.mp hnd).1 hmem
    · cases c with
      | assign =>
        simp only [natIssued] at hnd
        exact ih (m + 1) htail (List.nodup_cons.mp hnd).2
      | batch n =>
        simp only [natIssued] at hnd
        exact ih (m + n.toNat) htail (List.nodup_append.mp hnd).2.1

/-- Two intervals with a gap of one between them stay distinct modulo `2^64`
    exactly as long as they do not run all the way round. -/
theorem nodup_intervals_mod_iff (m a b : Nat) :
    ((List.range' m b ++ List.range' (m + b + 1) a).map UInt64.ofNat).Nodup ↔
      (a + b < 2 ^ 64 ∨ (a + b = 2 ^ 64 ∧ (a = 0 ∨ b = 0))) := by
  have hnd : (List.range' m b ++ List.range' (m + b + 1) a).Nodup := by
    refine List.nodup_append.mpr ⟨List.nodup_range', List.nodup_range', ?_⟩
    intro x hx y hy hxy
    rw [List.mem_range'_1] at hx hy
    omega
  have heq : ∀ x y : Nat, UInt64.ofNat x = UInt64.ofNat y ↔ x % 2 ^ 64 = y % 2 ^ 64 := by
    intro x y
    rw [← UInt64.toNat_inj, UInt64.toNat_ofNat', UInt64.toNat_ofNat']
  rw [List.nodup_map_iff_inj_on hnd]
  simp only [List.mem_append, List.mem_range'_1, heq]
  constructor
  · intro hinj
    by_contra hbad
    -- the first id of the history comes round again
    by_cases hb : b = 0
    · have := hinj (m + b + 1) (by omega) (m + b + 1 + 2 ^ 64) (by omega) (by omega)
      omega
    · by_cases hb64 : b = 2 ^ 64
      · have := hinj (m + 1) (by omega) (m + 1 + 2 ^ 64) (by omega) (by omega)
        omega
      · have := hinj m (by omega) (m + 2 ^ 64) (by omega) (by omega)
        omega
  · intro hok x hx y hy hxy
    omega

/-- **Page-id uniqueness**: a history issues no id twice exactly when its
    batches come before its `assign_page_id` calls and the 64-bit counter
    does not come round. -/
theorem issuedIds_nodup_iff (sb : Superblock) (calls : List IdCall) :
    (issuedIds (some sb) calls).Nodup ↔ UniqueOk calls := by
  have hids : issuedIds (some sb) calls =
      (natIssued sb.max_page_id.toNat calls).map UInt64.ofNat :=
    issuedIds_eq_natIssued calls _ sb (by simp)
  rw [hids]
  by_cases hfirst : BatchesFirst calls
  · rw [natIssued_of_batchesFirst calls _ hfirst, nodup_intervals_mod_iff]
    exact ⟨fun h => ⟨hfirst, h⟩, fun h => h.2⟩
  · constructor
    · intro h
      exact absurd h.of_map (natIssued_not_nodup calls _ hfirst)
    · intro h
      exact absurd h.1 hfirst

/-- A btree split followed by a ring refill: the split's id 129 is also the
    first id of the batch. -/
theorem split_then_refill_reissues :
    ¬ (issuedIds (some (init_superblock_and_fsync 0)) [.assign, .batch 2]).Nodup := by
  decide

end Kds
