import Kds.Core
import Kds.Lib.Bytes

/-! # Frames

    A `kds_frame_t` of the buffer pool together with the `kds_page_t` it owns:
    the page id, the header copy kept in `kp->hdr`, and the page buffer. The
    content lock is not represented: every modelled function holds it for its
    whole body, so each is one atomic step on the frame.
-/

open Bytes

namespace Kds

/-- `kds_page_hdr_t`. -/
structure PageHdr where
  type : PageType
  crc : UInt32
  flags : UInt8
  reserved1 : Fin 32 → UInt8

/-- The packed bytes of a page header. -/
def PageHdr.bytes (hdr : PageHdr) : List UInt8 :=
  u32Bytes hdr.type.code ++ u32Bytes hdr.crc ++ [hdr.flags] ++ List.ofFn hdr.reserved1

@[simp] theorem PageHdr.length_bytes (hdr : PageHdr) :
    hdr.bytes.length = KDS_PAGE_HDR_SIZE := by
  simp [PageHdr.bytes]

/-- `kds_frame_t` and its `kds_page_t`: identity, header copy, buffer. -/
structure Frame where
  id : PageId
  hdr : PageHdr
  page : Mem

/-- `kds_set_page_dirty`. -/
def kds_set_page_dirty (f : Frame) : Frame :=
  { f with hdr := { f.hdr with flags := f.hdr.flags ||| KDS_PAGE_FLAG_DIRTY } }

/-- `kds_set_page_init`. -/
def kds_set_page_init (f : Frame) : Frame :=
  { f with hdr := { f.hdr with flags := f.hdr.flags ||| KDS_PAGE_FLAG_INIT } }

@[simp] theorem kds_set_page_dirty_page (f : Frame) : (kds_set_page_dirty f).page = f.page := rfl
@[simp] theorem kds_set_page_dirty_id (f : Frame) : (kds_set_page_dirty f).id = f.id := rfl
@[simp] theorem kds_set_page_dirty_type (f : Frame) :
    (kds_set_page_dirty f).hdr.type = f.hdr.type := rfl

end Kds
