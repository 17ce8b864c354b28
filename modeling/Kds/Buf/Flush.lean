import Kds.Pool

/-! # Writing frames back

    `kds_frame_flush` and `kds_buf_flush_dirty_frames` of `page_mgr.c`, and
    what a restart finds. Only a frame with `DIRTY` set is written: its
    header copy goes to the front of the buffer, the buffer to the disk, and
    then `DIRTY` is cleared in the copy, so the page on disk has it set.
-/

open Bytes

namespace Kds

/-- A flag of a page header is set. -/
def PageHdr.has (hdr : PageHdr) (flag : UInt8) : Bool := hdr.flags &&& flag != 0

/-- The header copy, with its flags. -/
def PageHdr.clear (hdr : PageHdr) (flag : UInt8) : PageHdr :=
  { hdr with flags := hdr.flags &&& ~~~flag }

/-- A flag that is set is set. -/
theorem has_set {hdr : PageHdr} {flag : UInt8} (hset : hdr.flags &&& flag = flag) (hflag : flag ≠ 0) :
    hdr.has flag = true := by
  unfold PageHdr.has
  rw [hset, bne_iff_ne]
  exact hflag

/-- Setting a bit sets it. -/
theorem or_and_self (flags flag : UInt8) : (flags ||| flag) &&& flag = flag := by
  apply UInt8.toBitVec_inj.mp
  simp only [UInt8.toBitVec_and, UInt8.toBitVec_or]
  apply BitVec.eq_of_getElem_eq
  intro i hi
  rw [BitVec.getElem_and, BitVec.getElem_or]
  cases flag.toBitVec[i] with
  | false => simp
  | true => simp

/-- Setting a bit leaves the others. -/
theorem or_and_of_disjoint (flags : UInt8) {flag other : UInt8} (h : flag &&& other = 0) :
    (flags ||| flag) &&& other = flags &&& other := by
  apply UInt8.toBitVec_inj.mp
  have h' := congrArg UInt8.toBitVec h
  simp only [UInt8.toBitVec_and, UInt8.toBitVec_or] at h' ⊢
  rw [BitVec.and_or_distrib_right, h']
  exact BitVec.or_zero

theorem dirty_has_init (f : Frame) :
    (kds_set_page_dirty f).hdr.has KDS_PAGE_FLAG_INIT = f.hdr.has KDS_PAGE_FLAG_INIT := by
  unfold PageHdr.has kds_set_page_dirty
  dsimp only
  rw [or_and_of_disjoint _ (by decide)]

theorem dirty_has_dirty (f : Frame) : (kds_set_page_dirty f).hdr.has KDS_PAGE_FLAG_DIRTY = true :=
  has_set (or_and_self _ _) (by decide)

/-- The buffer with the header copy in front. -/
def Frame.withHdr (f : Frame) : Frame := { f with page := f.page.write 0 f.hdr.bytes }

/-- `kds_frame_flush`. -/
def kds_frame_flush (p : Pool) (id : PageId) : Except Errno Unit × Pool :=
  match p.cached id with
  | none => (.error .EINVAL, p)
  | some f =>
      if !f.hdr.has KDS_PAGE_FLAG_DIRTY then (.ok (), p)
      else
        match p.fail 0 with
        | some e => (.error e, p.nextFail.setFrame id f.withHdr)
        | none =>
            let p := { p.nextFail with disk := Function.update p.disk id f.withHdr }
            (.ok (), p.setFrame id { f.withHdr with hdr := f.hdr.clear KDS_PAGE_FLAG_DIRTY })

/-- `kds_buf_flush_dirty_frames`: the frames of the pool in the order of
    `g_pool->frames`. What a flush returns is not looked at. -/
def kds_buf_flush_dirty_frames (p : Pool) : (frames : List PageId) → Pool
  | [] => p
  | id :: frames => kds_buf_flush_dirty_frames (kds_frame_flush p id).2 frames

/-- The three outcomes of a flush. -/
inductive FlushOutcome (p : Pool) (id : PageId) : Pool → Prop where
  | clean : (∀ f, p.cached id = some f → f.hdr.has KDS_PAGE_FLAG_DIRTY = false) →
      FlushOutcome p id p
  | failed {f : Frame} : p.cached id = some f → f.hdr.has KDS_PAGE_FLAG_DIRTY = true →
      FlushOutcome p id (p.nextFail.setFrame id f.withHdr)
  | written {f : Frame} : p.cached id = some f → f.hdr.has KDS_PAGE_FLAG_DIRTY = true →
      FlushOutcome p id
        (Pool.setFrame { p.nextFail with disk := Function.update p.disk id f.withHdr } id
          { f.withHdr with hdr := f.hdr.clear KDS_PAGE_FLAG_DIRTY })

theorem frame_flush_outcome (p : Pool) (id : PageId) : FlushOutcome p id (kds_frame_flush p id).2 := by
  unfold kds_frame_flush
  cases hc : p.cached id with
  | none =>
    apply FlushOutcome.clean
    intro f hf
    rw [hc] at hf
    simp at hf
  | some f =>
    dsimp only
    by_cases hd : f.hdr.has KDS_PAGE_FLAG_DIRTY = true
    · rw [hd]
      cases hfail : p.fail 0 with
      | some e => exact .failed hc hd
      | none => exact .written hc hd
    · rw [if_pos (by simpa using hd)]
      apply FlushOutcome.clean
      intro g hg
      rw [hc] at hg
      obtain rfl := Option.some.inj hg
      simpa using hd

/-- A flush is about one page. -/
theorem FlushOutcome.other {p p' : Pool} {id j : PageId} (h : FlushOutcome p id p') (hj : j ≠ id) :
    p'.cached j = p.cached j ∧ p'.disk j = p.disk j := by
  cases h with
  | clean => exact ⟨rfl, rfl⟩
  | failed => exact ⟨Function.update_of_ne hj _ _, rfl⟩
  | written => exact ⟨Function.update_of_ne hj _ _, Function.update_of_ne hj _ _⟩

theorem FlushOutcome.superblock {p p' : Pool} {id : PageId} (h : FlushOutcome p id p') :
    p'.superblock = p.superblock := by
  cases h with
  | clean => rfl
  | failed => rfl
  | written => rfl

/-- A pool after a restart: nothing is in memory but the superblock read from disk. -/
def Pool.restarted (p : Pool) (superblock : Superblock) (fail : Nat → Option Errno) : Pool where
  superblock := some superblock
  cached := fun _ => none
  refcnt := fun _ => 0
  disk := p.disk
  fail := fail

end Kds
