import Kds.Page

/-! # Heap pages

    `heap.c`: a slotted page. Fixed at the front are the common page header
    and the heap metadata; the slot directory grows up from
    `KDS_HEAP_AREA_OFFSET`, tuples grow down from `KDS_HEAP_NEXT_PAGE_OFFSET`,
    and the last eight bytes link to the next page of the table.

    The model works on the bytes of the page. All lengths and offsets are
    `u16` in the source and `UInt16` here, so a sum or difference that the
    source truncates is truncated by the type; `size_t` address arithmetic is
    over `Nat`.
-/

open Bytes

namespace Kds

/-! ## Section 1: Layout constants -/

/-- `KDS_PAGE_SIZE - sizeof(kds_page_id_t)`. -/
@[simp] def KDS_HEAP_NEXT_PAGE_OFFSET : Nat := KDS_PAGE_SIZE - 8

/-- `sizeof(kds_heap_page_meta_t)`. -/
@[simp] def KDS_HEAP_META_SIZE : Nat := 8

@[simp] def KDS_HEAP_META_OFFSET : Nat := KDS_PAGE_HDR_SIZE

@[simp] def KDS_HEAP_AREA_OFFSET : Nat := KDS_HEAP_META_OFFSET + KDS_HEAP_META_SIZE

/-- `sizeof(kds_heap_slot_t)`. -/
@[simp] def KDS_HEAP_SLOT_SIZE : Nat := 5

@[simp] def KDS_HEAP_SLOT_DEAD : UInt8 := 1

/-- `sizeof(kds_heap_tuple_hdr_t)`. -/
@[simp] def KDS_HEAP_TUPLE_HDR_SIZE : Nat := 28

/-! ## Section 2: Packed structures -/

/-- `kds_heap_page_meta_t`. -/
structure HeapPageMeta where
  nr_slots : UInt16
  lower : UInt16
  upper : UInt16
  reserved : UInt16
  deriving DecidableEq, Repr

/-- `kds_heap_slot_t`. -/
structure HeapSlot where
  offset : UInt16
  length : UInt16
  flags : UInt8
  deriving DecidableEq, Repr

/-- `kds_heap_tuple_hdr_t`. -/
structure HeapTupleHdr where
  xmin : UInt64
  xmax : UInt64
  undo_ptr : UInt64
  data_len : UInt16
  flags : UInt8
  reserved : UInt8
  deriving DecidableEq, Repr

/-- `kds_heap_tid_t`. -/
structure HeapTid where
  page_id : PageId
  slot : UInt16
  deriving DecidableEq, Repr

def HeapPageMeta.bytes (pmeta : HeapPageMeta) : List UInt8 :=
  u16Bytes pmeta.nr_slots ++ u16Bytes pmeta.lower ++ u16Bytes pmeta.upper ++ u16Bytes pmeta.reserved

def HeapSlot.bytes (slot : HeapSlot) : List UInt8 :=
  u16Bytes slot.offset ++ u16Bytes slot.length ++ [slot.flags]

def HeapTupleHdr.bytes (hdr : HeapTupleHdr) : List UInt8 :=
  u64Bytes hdr.xmin ++ u64Bytes hdr.xmax ++ u64Bytes hdr.undo_ptr ++ u16Bytes hdr.data_len ++
    [hdr.flags] ++ [hdr.reserved]

@[simp] theorem HeapPageMeta.length_bytes (pmeta : HeapPageMeta) : pmeta.bytes.length = 8 := by
  simp [HeapPageMeta.bytes]

@[simp] theorem HeapSlot.length_bytes (slot : HeapSlot) : slot.bytes.length = 5 := by
  simp [HeapSlot.bytes]

@[simp] theorem HeapTupleHdr.length_bytes (hdr : HeapTupleHdr) : hdr.bytes.length = 28 := by
  simp [HeapTupleHdr.bytes]

/-- The metadata of a heap page. -/
def heapMeta (m : Mem) : HeapPageMeta where
  nr_slots := m.readU16 KDS_HEAP_META_OFFSET
  lower := m.readU16 (KDS_HEAP_META_OFFSET + 2)
  upper := m.readU16 (KDS_HEAP_META_OFFSET + 4)
  reserved := m.readU16 (KDS_HEAP_META_OFFSET + 6)

/-- `heap_slot_ptr`: where slot `idx` of the directory lies. -/
def heap_slot_ptr (idx : Nat) : Nat := KDS_HEAP_AREA_OFFSET + idx * KDS_HEAP_SLOT_SIZE

/-- The slot directory entry `idx`. -/
def heapSlot (m : Mem) (idx : Nat) : HeapSlot where
  offset := m.readU16 (heap_slot_ptr idx)
  length := m.readU16 (heap_slot_ptr idx + 2)
  flags := m (heap_slot_ptr idx + 4)

/-- The tuple header stored at byte `off`. -/
def heapTupleHdr (m : Mem) (off : Nat) : HeapTupleHdr where
  xmin := m.readU64 off
  xmax := m.readU64 (off + 8)
  undo_ptr := m.readU64 (off + 16)
  data_len := m.readU16 (off + 24)
  flags := m (off + 26)
  reserved := m (off + 27)

/-- `(slot.flags & KDS_HEAP_SLOT_DEAD) || slot.length == 0`. -/
def HeapSlot.dead (slot : HeapSlot) : Bool :=
  (slot.flags &&& KDS_HEAP_SLOT_DEAD != 0) || slot.length == 0

/-! ## Section 3: Operations -/

/-- `heap_init_page_as`. The body of the page is left as it was. -/
def heap_init_page_as (f : Frame) (type : PageType) : Frame :=
  let hdr := { f.hdr with type := type, flags := f.hdr.flags ||| KDS_PAGE_FLAG_INIT }
  let pmeta : HeapPageMeta :=
    { nr_slots := 0
      lower := UInt16.ofNat KDS_HEAP_AREA_OFFSET
      upper := UInt16.ofNat KDS_HEAP_NEXT_PAGE_OFFSET
      reserved := 0 }
  { f with
    hdr := hdr
    page := ((f.page.write 0 hdr.bytes).write KDS_HEAP_META_OFFSET pmeta.bytes).write
      KDS_HEAP_NEXT_PAGE_OFFSET (u64Bytes 0) }

def heap_init_page (f : Frame) : Frame := heap_init_page_as f .heap

def heap_nr_slots (f : Frame) : UInt16 := (heapMeta f.page).nr_slots

def heap_free_space (f : Frame) : UInt16 :=
  let pmeta := heapMeta f.page
  if pmeta.upper > pmeta.lower then pmeta.upper - pmeta.lower else 0

/-- `sizeof(kds_heap_slot_t) + KDS_HEAP_TUPLE_HDR_SIZE + data_len`, stored in a `u16`. -/
def heapNeeded (data_len : UInt16) : UInt16 :=
  UInt16.ofNat (KDS_HEAP_SLOT_SIZE + KDS_HEAP_TUPLE_HDR_SIZE + data_len.toNat)

/-- `KDS_HEAP_TUPLE_HDR_SIZE + data_len`, stored in a `u16`. -/
def heapTupleLen (data_len : UInt16) : UInt16 :=
  UInt16.ofNat (KDS_HEAP_TUPLE_HDR_SIZE + data_len.toNat)

def heap_has_space (f : Frame) (data_len : UInt16) : Bool :=
  if data_len.toNat > KDS_PAGE_SIZE then false
  else decide (heap_free_space f ≥ heapNeeded data_len)

/-- `is_heap_insert_possible`: the difference is taken in `u16`. -/
def is_heap_insert_possible (pmeta : HeapPageMeta) (needed : UInt16) : Bool :=
  decide (pmeta.upper - pmeta.lower ≥ needed)

/-- The bytes an insert or overwrite puts at a tuple's offset: its header,
    then `data_len` bytes of payload. A `NULL` payload has no bytes to copy. -/
def heapPutTuple (m : Mem) (off : Nat) (hdr : HeapTupleHdr) (data : Option Mem) : Mem :=
  let m := m.write off hdr.bytes
  match data with
  | none => m
  | some d => m.write (off + KDS_HEAP_TUPLE_HDR_SIZE) (d.read 0 hdr.data_len.toNat)

/-- `heap_insert_tuple_ex`. `data` is `none` for a `NULL` payload pointer and
    `out_tid` says whether the caller passed a result pointer. -/
def heap_insert_tuple_ex (f : Frame) (data : Option Mem) (data_len : UInt16)
    (xmin xmax undo_ptr : UInt64) (out_tid : Bool) : Except Errno HeapTid × Frame :=
  if !out_tid then (.error .EINVAL, f)
  else if data_len > 0 && data.isNone then (.error .EINVAL, f)
  else if data_len.toNat > KDS_PAGE_SIZE then (.error .EINVAL, f)
  else
    let needed := heapNeeded data_len
    let pmeta := heapMeta f.page
    if !is_heap_insert_possible pmeta needed then (.error .ENOSPC, f)
    else
      let new_upper := pmeta.upper - heapTupleLen data_len
      let new_slot_idx := pmeta.nr_slots
      let tuple_hdr : HeapTupleHdr :=
        { xmin := xmin, xmax := xmax, undo_ptr := undo_ptr, data_len := data_len,
          flags := 0, reserved := 0 }
      let slot : HeapSlot :=
        { offset := new_upper, length := heapTupleLen data_len, flags := 0 }
      let pmeta' : HeapPageMeta :=
        { pmeta with
          nr_slots := pmeta.nr_slots + 1
          lower := pmeta.lower + UInt16.ofNat KDS_HEAP_SLOT_SIZE
          upper := new_upper }
      let page := heapPutTuple f.page new_upper.toNat tuple_hdr data
      let page := page.write (heap_slot_ptr new_slot_idx.toNat) slot.bytes
      let page := page.write KDS_HEAP_META_OFFSET pmeta'.bytes
      (.ok { page_id := f.id, slot := new_slot_idx },
        kds_set_page_dirty { f with page := page })

/-- `heap_insert_tuple`. -/
def heap_insert_tuple (f : Frame) (data : Option Mem) (data_len : UInt16) (xmin : UInt64) :
    Except Errno HeapTid × Frame :=
  heap_insert_tuple_ex f data data_len xmin 0 0 true

/-- `heap_overwrite_tuple`. -/
def heap_overwrite_tuple (f : Frame) (slot_idx : UInt16) (new_data : Option Mem)
    (new_data_len : UInt16) (xmin xmax undo_ptr : UInt64) : Except Errno Unit × Frame :=
  if new_data_len > 0 && new_data.isNone then (.error .EINVAL, f)
  else
    let pmeta := heapMeta f.page
    if slot_idx ≥ pmeta.nr_slots then (.error .ENOENT, f)
    else
      let slot := heapSlot f.page slot_idx.toNat
      if slot.dead then (.error .ENOENT, f)
      else if heapTupleLen new_data_len > slot.length then (.error .ENOSPC, f)
      else
        let tuple_hdr : HeapTupleHdr :=
          { xmin := xmin, xmax := xmax, undo_ptr := undo_ptr, data_len := new_data_len,
            flags := 0, reserved := 0 }
        let page := heapPutTuple f.page slot.offset.toNat tuple_hdr new_data
        (.ok (), kds_set_page_dirty { f with page := page })

/-- `heap_retire_slot`: no liveness check, a dead slot is retired again. -/
def heap_retire_slot (f : Frame) (slot_idx : UInt16) : Except Errno Unit × Frame :=
  let pmeta := heapMeta f.page
  if slot_idx ≥ pmeta.nr_slots then (.error .ENOENT, f)
  else
    let slot := heapSlot f.page slot_idx.toNat
    let slot := { slot with flags := slot.flags ||| KDS_HEAP_SLOT_DEAD, length := 0 }
    let page := f.page.write (heap_slot_ptr slot_idx.toNat) slot.bytes
    (.ok (), kds_set_page_dirty { f with page := page })

/-- `heap_slot_capacity`. -/
def heap_slot_capacity (f : Frame) (slot_idx : UInt16) : Except Errno UInt16 :=
  if slot_idx ≥ (heapMeta f.page).nr_slots then .error .ENOENT
  else
    let slot := heapSlot f.page slot_idx.toNat
    if slot.dead then .error .ENOENT
    else .ok (slot.length - UInt16.ofNat KDS_HEAP_TUPLE_HDR_SIZE)

def heap_get_next_page_id (f : Frame) : PageId := f.page.readU64 KDS_HEAP_NEXT_PAGE_OFFSET

def heap_set_next_page_id (f : Frame) (next_page_id : PageId) : Except Errno Unit × Frame :=
  (.ok (), kds_set_page_dirty
    { f with page := f.page.write KDS_HEAP_NEXT_PAGE_OFFSET (u64Bytes next_page_id) })

/-- `_heap_read_tuple`: the tuple header, and the `out_buf_size` bytes that are
    copied into the caller's buffer, none for a `NULL` buffer. The copy is not
    cut to the tuple's `data_len`. -/
def heapReadTuple (f : Frame) (slot_idx : UInt16) (out_buf : Bool) (out_buf_size : UInt16)
    (raise_not_size_matched : Bool) : Except Errno (HeapTupleHdr × List UInt8) :=
  if slot_idx ≥ (heapMeta f.page).nr_slots then .error .ENOENT
  else
    let slot := heapSlot f.page slot_idx.toNat
    if slot.dead then .error .ENOENT
    else
      let tuple_hdr := heapTupleHdr f.page slot.offset.toNat
      if !out_buf then .ok (tuple_hdr, [])
      else if tuple_hdr.data_len > out_buf_size && raise_not_size_matched then .error .ENOSPC
      else .ok (tuple_hdr,
        f.page.read (slot.offset.toNat + KDS_HEAP_TUPLE_HDR_SIZE) out_buf_size.toNat)

/-- `heap_read_tuple_pk`: the size check is on the caller's buffer, not on the tuple. -/
def heap_read_tuple_pk (f : Frame) (slot_idx : UInt16) (out_buf : Bool) (out_buf_size : UInt16) :
    Except Errno (HeapTupleHdr × List UInt8) :=
  if out_buf_size ≠ 8 then .error .ENOSPC
  else heapReadTuple f slot_idx out_buf out_buf_size false

/-- `heap_read_tuple`. -/
def heap_read_tuple (f : Frame) (slot_idx : UInt16) (out_buf : Bool) (out_buf_size : UInt16) :
    Except Errno (HeapTupleHdr × List UInt8) :=
  heapReadTuple f slot_idx out_buf out_buf_size true

/-- `heap_delete_tuple`: reads the whole tuple header, stamps `xmax`, writes it back. -/
def heap_delete_tuple (f : Frame) (slot_idx : UInt16) (xmax : UInt64) :
    Except Errno Unit × Frame :=
  if slot_idx ≥ (heapMeta f.page).nr_slots then (.error .ENOENT, f)
  else
    let slot := heapSlot f.page slot_idx.toNat
    if slot.dead then (.error .ENOENT, f)
    else
      let tuple_hdr := { heapTupleHdr f.page slot.offset.toNat with xmax := xmax }
      (.ok (), kds_set_page_dirty
        { f with page := f.page.write slot.offset.toNat tuple_hdr.bytes })

end Kds
