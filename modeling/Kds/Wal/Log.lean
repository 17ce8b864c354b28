import Kds.Core
import Kds.Lib.Ring
import Kds.Lib.Lts

/-! # The write-ahead log

    `wal.c`: records, the in-memory ring, WAL pages, and the three functions
    that move bytes: `kds_wal_init`, `kds_wal_append` and `kds_wal_flush`.

    An append runs under `buf->lock` and is one step. The flusher takes the
    lock only for its first and last access to the offsets; in between every
    access to the ring, to a WAL page or to a `tail_*` field is a step of its
    own, so appends may come anywhere. `FlushPc` is where the flusher stands,
    with its local variables.

    WAL pages are pinned or at least cached all the time: they come out of the
    pre-allocation ring, and the pool never evicts. Loading one cannot fail.
-/

open Bytes

namespace Kds

/-! ## Section 1: Sizes and LSNs -/

@[simp] def KDS_WAL_BUF_SIZE : Nat := 4 * 1024 * 1024

def KDS_WAL_BUF_MASK : UInt64 := 4 * 1024 * 1024 - 1

/-- `sizeof(kds_wal_page_hdr_t)`: seg_no (8), start_lsn (8), used_bytes (4),
    next_wal_page_id (8), _pad (4), packed. -/
@[simp] def KDS_WAL_PAGE_HDR_SIZE : Nat := 32

@[simp] def KDS_WAL_PAGE_PAYLOAD : Nat :=
  KDS_PAGE_SIZE - KDS_PAGE_HDR_SIZE - KDS_WAL_PAGE_HDR_SIZE

/-- `sizeof(kds_wal_rec_hdr_t)`: lsn, prev_lsn, xid (8 each), type (1),
    _pad (3), body_len (4), crc (4), packed. -/
@[simp] def KDS_WAL_REC_HDR_SIZE : Nat := 36

@[simp] def KDS_WAL_MAX_BODY_SIZE : Nat := KDS_PAGE_SIZE

@[simp] def KDS_WAL_MAX_REC_SIZE : Nat := KDS_WAL_REC_HDR_SIZE + KDS_WAL_MAX_BODY_SIZE

/-- `kds_lsn_t`. -/
abbrev Lsn := UInt64

def KDS_LSN_INVALID : Lsn := 0

def kds_lsn_make (page_id : PageId) (offset : UInt32) : Lsn :=
  (page_id <<< 32) ||| offset.toUInt64

/-! ## Section 2: Records -/

/-- `kds_wal_rec_type_t`. -/
inductive WalRecType where
  | insert
  | delete
  | initPage
  | commit
  | abort
  | checkpoint
  | fullPage
  deriving DecidableEq, Repr

def WalRecType.code : WalRecType → UInt8
  | .insert => 1
  | .delete => 2
  | .initPage => 3
  | .commit => 4
  | .abort => 5
  | .checkpoint => 6
  | .fullPage => 7

/-- `kds_wal_rec_hdr_t`. -/
structure WalRecHdr where
  lsn : Lsn
  prev_lsn : Lsn
  xid : UInt64
  type : WalRecType
  pad : Fin 3 → UInt8
  body_len : UInt32
  crc : UInt32

/-- The packed bytes of a record header. -/
def WalRecHdr.bytes (hdr : WalRecHdr) : List UInt8 :=
  u64Bytes hdr.lsn ++ u64Bytes hdr.prev_lsn ++ u64Bytes hdr.xid ++ [hdr.type.code] ++
    List.ofFn hdr.pad ++ u32Bytes hdr.body_len ++ u32Bytes hdr.crc

@[simp] theorem WalRecHdr.length_bytes (hdr : WalRecHdr) :
    hdr.bytes.length = KDS_WAL_REC_HDR_SIZE := by
  simp [WalRecHdr.bytes]

/-- The body bytes that belong to a record: none for a `NULL` body. -/
def bodyBytes (hdr : WalRecHdr) (body : Option (List UInt8)) : List UInt8 :=
  match body with
  | none => []
  | some b => b.take hdr.body_len.toNat

/-- The kernel's `crc32c`: CRC-32C, reflected, without inversions. -/
def crc32c_le (crc : UInt32) (data : List UInt8) : UInt32 :=
  data.foldl (fun crc byte =>
    (List.range 8).foldl (fun c _ => if c &&& 1 = 1 then (c >>> 1) ^^^ 0x82F63B78 else c >>> 1)
      (crc ^^^ byte.toUInt32)) crc

/-- `wal_rec_crc`, over the kernel's `crc32c(seed, data)`. -/
def wal_rec_crc (crc32c : UInt32 → List UInt8 → UInt32) (hdr : WalRecHdr)
    (body : Option (List UInt8)) : UInt32 :=
  let crc := crc32c (~~~0) { hdr with crc := 0 }.bytes
  let crc := if body.isSome ∧ hdr.body_len > 0 then crc32c crc (bodyBytes hdr body) else crc
  crc ^^^ ~~~0

/-! ## Section 3: The ring and the state -/

/-- `kds_wal_buf_t`. -/
structure WalBuf where
  buf : Mem
  write_off : UInt64
  flush_off : UInt64
  current_lsn : Lsn
  tail_page_id : PageId
  tail_used : UInt32
  tail_seg_no : UInt64

/-- `kds_wal_state_t`, with the buffer it points to. -/
structure WalState where
  buf : WalBuf
  flush_lsn : Lsn
  checkpointed_lsn : Lsn
  prev_lsn : Lsn

def wal_buf_used (b : WalBuf) : UInt64 := b.write_off - b.flush_off

def wal_buf_free (b : WalBuf) : UInt64 := UInt64.ofNat KDS_WAL_BUF_SIZE - wal_buf_used b

/-- The ring index of an offset: `off & KDS_WAL_BUF_MASK`. -/
def ringIndex (off : UInt64) : Nat := (off &&& KDS_WAL_BUF_MASK).toNat

/-- The copy of header or body into the ring, and the step of `write_off`. -/
def WalBuf.push (b : WalBuf) (bs : List UInt8) : WalBuf :=
  { b with
    buf := Ring.copyIn b.buf KDS_WAL_BUF_SIZE (ringIndex b.write_off) bs
    write_off := b.write_off + UInt64.ofNat bs.length }

@[simp] theorem push_flush_off (b : WalBuf) (bs : List UInt8) :
    (b.push bs).flush_off = b.flush_off := rfl

@[simp] theorem push_tail_page_id (b : WalBuf) (bs : List UInt8) :
    (b.push bs).tail_page_id = b.tail_page_id := rfl

@[simp] theorem push_tail_used (b : WalBuf) (bs : List UInt8) :
    (b.push bs).tail_used = b.tail_used := rfl

/-- The LSN an append assigns: the tail page and the offset behind the bytes
    that are still in the ring. -/
def nextLsn (b : WalBuf) : Lsn :=
  kds_lsn_make b.tail_page_id (b.tail_used + (wal_buf_used b).toUInt32)

/-- The caller's header with `lsn`, `prev_lsn` and `crc` filled in. -/
def fillHdr (crc32c : UInt32 → List UInt8 → UInt32) (w : WalState) (hdr : WalRecHdr)
    (body : Option (List UInt8)) : WalRecHdr :=
  let hdr := { hdr with lsn := nextLsn w.buf, prev_lsn := w.prev_lsn }
  { hdr with crc := wal_rec_crc crc32c hdr body }

/-- Header and body into the ring. -/
def pushRecord (b : WalBuf) (hdr : WalRecHdr) (body : Option (List UInt8)) : WalBuf :=
  let b := b.push hdr.bytes
  if body.isSome ∧ hdr.body_len > 0 then b.push (bodyBytes hdr body) else b

/-- The copies into the ring do not look at its size: what does not fit behind
    `write_off` goes to the front, and runs over the end of `buf` if it is
    longer than the ring. -/
def copyOverruns (b : WalBuf) (hdr : WalRecHdr) (body : Option (List UInt8)) : Prop :=
  body.isSome ∧
    KDS_WAL_BUF_SIZE <
      hdr.body_len.toNat - (KDS_WAL_BUF_SIZE - ringIndex (b.write_off + UInt64.ofNat KDS_WAL_REC_HDR_SIZE))

instance (b : WalBuf) (hdr : WalRecHdr) (body : Option (List UInt8)) :
    Decidable (copyOverruns b hdr body) :=
  inferInstanceAs (Decidable (_ ∧ _))

/-- `kds_wal_append`: the caller's header as it is left, or the error. -/
def kds_wal_append (crc32c : UInt32 → List UInt8 → UInt32) (w : WalState) (hdr : WalRecHdr)
    (body : Option (List UInt8)) : Except Fault (Except Errno WalRecHdr × WalState) :=
  let total : UInt32 := UInt32.ofNat KDS_WAL_REC_HDR_SIZE + hdr.body_len
  if total.toNat > KDS_WAL_MAX_REC_SIZE then .ok (.error .EINVAL, w)
  else if (wal_buf_free w.buf).toNat < total.toNat then .ok (.error .ENOSPC, w)
  else if copyOverruns w.buf hdr body then .error .outOfBounds
  else
    let lsn := nextLsn w.buf
    let hdr := fillHdr crc32c w hdr body
    let buf := pushRecord w.buf hdr body
    .ok (.ok hdr, { w with buf := { buf with current_lsn := lsn }, prev_lsn := lsn })

/-! ## Section 4: WAL pages -/

/-- A WAL page: `kds_wal_page_hdr_t` and the payload behind it. -/
structure WalPage where
  seg_no : UInt64
  start_lsn : Lsn
  used_bytes : UInt32
  next_wal_page_id : PageId
  payload : Mem

/-- The page `wal_alloc_page` sets up. -/
def newWalPage (seg_no : UInt64) (start_lsn : Lsn) : WalPage where
  seg_no := seg_no
  start_lsn := start_lsn
  used_bytes := 0
  next_wal_page_id := 0
  payload := fun _ => 0

/-- The first `used_bytes` payload bytes of a page. -/
def WalPage.bytes (page : WalPage) : List UInt8 := page.payload.read 0 page.used_bytes.toNat

/-! ## Section 5: The flusher -/

/-- The locals of `kds_wal_flush` that live across its loop. -/
structure FlushVars where
  flush_start : UInt64
  flush_end : UInt64
  bytes_to_flush : UInt64

/-- Where the flusher stands: what it does next. -/
inductive FlushPc where
  /-- No flush in progress. -/
  | idle
  /-- The loop test. -/
  | loop (v : FlushVars)
  /-- The tail page is loaded and locked; its space is looked at. -/
  | space (v : FlushVars) (frame : PageId)
  /-- The first, or only, `memcpy` of a chunk. -/
  | copy (v : FlushVars) (frame : PageId) (chunk : UInt32)
  /-- The second `memcpy`, from the front of the ring. -/
  | copyRest (v : FlushVars) (frame : PageId) (chunk first : UInt32)
  /-- `used_bytes` is advanced and the page flushed. -/
  | used (v : FlushVars) (frame : PageId) (chunk : UInt32)
  /-- The locals and `tail_used` follow. -/
  | tail (v : FlushVars) (frame : PageId) (chunk : UInt32)
  /-- `tail_seg_no` is advanced, at the top of the loop or behind a full page. -/
  | seg (v : FlushVars) (behind : Bool)
  /-- A new page is taken. -/
  | alloc (v : FlushVars) (behind : Bool)
  /-- The old tail page is linked to the new one. -/
  | link (v : FlushVars) (new : PageId)
  /-- `tail_page_id` moves on. -/
  | tailPage (v : FlushVars) (new : PageId)
  /-- `tail_used` is cleared. -/
  | tailUsed (v : FlushVars)
  /-- `flush_off` is advanced, under the lock. -/
  | advance (v : FlushVars)
  /-- `flush_lsn` is set. -/
  | lsn

/-- The locals of the flush in progress. -/
def FlushPc.vars : FlushPc → Option FlushVars
  | .idle | .lsn => none
  | .loop v | .space v _ | .copy v _ _ | .copyRest v _ _ _ | .used v _ _ | .tail v _ _ | .seg v _
  | .alloc v _ | .link v _ | .tailPage v _ | .tailUsed v | .advance v => some v

/-- The log, its pages, the page allocator and the flusher. -/
structure WalSys where
  wal : WalState
  pages : PageId → WalPage
  /-- `g_wal_head_page_id`. -/
  head : PageId
  /-- The pre-allocation ring. -/
  staged : List PageId
  /-- The page ids registered in the pool. -/
  cached : List PageId
  pc : FlushPc
  /-- The records appended so far, header and body. Not part of the program. -/
  appended : List (List UInt8)

def WalSys.setPage (s : WalSys) (id : PageId) (page : WalPage) : WalSys :=
  { s with pages := Function.update s.pages id page }

def WalSys.setBuf (s : WalSys) (buf : WalBuf) : WalSys :=
  { s with wal := { s.wal with buf := buf } }

/-- `kds_wal_flush`, one step. -/
def flushStep (s : WalSys) : WalSys :=
  let buf := s.wal.buf
  match s.pc with
  | .idle =>
      if buf.flush_off = buf.write_off then s
      else { s with pc := .loop ⟨buf.flush_off, buf.write_off, buf.write_off - buf.flush_off⟩ }
  | .loop v =>
      if v.bytes_to_flush > 0 then { s with pc := .space v buf.tail_page_id }
      else { s with pc := .advance v }
  | .space v frame =>
      let space := UInt32.ofNat KDS_WAL_PAGE_PAYLOAD - (s.pages frame).used_bytes
      if space = 0 then { s with pc := .seg v false }
      else { s with pc := .copy v frame (min v.bytes_to_flush space.toUInt64).toUInt32 }
  | .copy v frame chunk =>
      let page := s.pages frame
      let src_idx := ringIndex v.flush_start
      if src_idx + chunk.toNat ≤ KDS_WAL_BUF_SIZE then
        let payload := page.payload.write page.used_bytes.toNat (buf.buf.read src_idx chunk.toNat)
        { s.setPage frame { page with payload := payload } with pc := .used v frame chunk }
      else
        let first := UInt32.ofNat KDS_WAL_BUF_SIZE - UInt32.ofNat src_idx
        let payload := page.payload.write page.used_bytes.toNat (buf.buf.read src_idx first.toNat)
        { s.setPage frame { page with payload := payload } with pc := .copyRest v frame chunk first }
  | .copyRest v frame chunk first =>
      let page := s.pages frame
      let payload := page.payload.write (page.used_bytes.toNat + first.toNat)
        (buf.buf.read 0 (chunk - first).toNat)
      { s.setPage frame { page with payload := payload } with pc := .used v frame chunk }
  | .used v frame chunk =>
      let page := s.pages frame
      { s.setPage frame { page with used_bytes := page.used_bytes + chunk } with
        pc := .tail v frame chunk }
  | .tail v frame chunk =>
      let v := { v with
        flush_start := v.flush_start + chunk.toUInt64
        bytes_to_flush := v.bytes_to_flush - chunk.toUInt64 }
      let s := s.setBuf { buf with tail_used := (s.pages frame).used_bytes }
      if s.wal.buf.tail_used.toNat ≥ KDS_WAL_PAGE_PAYLOAD then { s with pc := .seg v true }
      else { s with pc := .loop v }
  | .seg v behind =>
      { s.setBuf { buf with tail_seg_no := buf.tail_seg_no + 1 } with pc := .alloc v behind }
  | .alloc v behind =>
      match s.staged with
      | [] =>
          -- behind a full page the failure is left to the next flush
          if behind then { s with pc := .advance v } else { s with pc := .idle }
      | new :: staged =>
          let page := newWalPage buf.tail_seg_no (kds_lsn_make buf.tail_page_id buf.tail_used)
          { s.setPage new page with staged := staged, pc := .link v new }
  | .link v new =>
      let page := s.pages buf.tail_page_id
      { s.setPage buf.tail_page_id { page with next_wal_page_id := new } with pc := .tailPage v new }
  | .tailPage v new => { s.setBuf { buf with tail_page_id := new } with pc := .tailUsed v }
  | .tailUsed v => { s.setBuf { buf with tail_used := 0 } with pc := .loop v }
  | .advance v => { s.setBuf { buf with flush_off := v.flush_end } with pc := .lsn }
  | .lsn =>
      { s with
        wal := { s.wal with flush_lsn := kds_lsn_make buf.tail_page_id buf.tail_used }
        pc := .idle }

/-! ## Section 6: The system -/

/-- `kds_wal_init` with the first page of the pre-allocation ring. -/
def kds_wal_init (staged cached : List PageId) : Option WalSys :=
  match staged with
  | [] => none
  | first :: staged =>
      let init_lsn := kds_lsn_make first 0
      some
        { wal :=
            { buf :=
                { buf := fun _ => 0
                  write_off := 0
                  flush_off := 0
                  current_lsn := KDS_LSN_INVALID
                  tail_page_id := first
                  tail_used := 0
                  tail_seg_no := 1 }
              flush_lsn := KDS_LSN_INVALID
              checkpointed_lsn := KDS_LSN_INVALID
              prev_lsn := KDS_LSN_INVALID }
          pages := fun _ => newWalPage 1 init_lsn
          head := first
          staged := staged
          cached := cached
          pc := .idle
          appended := [] }

/-- The pre-allocation ring: pages of its own, registered in the pool, none of them page 0. -/
structure Staged (staged cached : List PageId) : Prop where
  nodup : staged.Nodup
  nonzero : 0 ∉ staged
  registered : ∀ id ∈ staged, id ∈ cached

/-- What the log is asked to do, and what happens around it. -/
inductive WalAct where
  /-- A call of `kds_wal_append`. -/
  | append (hdr : WalRecHdr) (body : Option (List UInt8))
  /-- A step of the flusher; from `idle`, a call of `kds_wal_flush`. -/
  | flush
  /-- `kds_batch_alloc` stages a page. -/
  | stage (id : PageId)

/-- A body for the length in the header: not `NULL` unless the length is 0. -/
def BodyOk (hdr : WalRecHdr) (body : Option (List UInt8)) : Prop :=
  hdr.body_len.toNat ≤ KDS_WAL_MAX_BODY_SIZE ∧
    match body with
    | none => hdr.body_len = 0
    | some b => hdr.body_len.toNat ≤ b.length

/-- An append: on success the bytes of the record are noted. No copy of a body
    that is allowed overruns the ring. -/
def appendStep (crc32c : UInt32 → List UInt8 → UInt32) (s : WalSys) (hdr : WalRecHdr)
    (body : Option (List UInt8)) : WalSys :=
  match kds_wal_append crc32c s.wal hdr body with
  | .error _ => s
  | .ok (.error _, w) => { s with wal := w }
  | .ok (.ok hdr, w) =>
      { s with wal := w, appended := s.appended ++ [hdr.bytes ++ bodyBytes hdr body] }

/-- One step. `kds_buf_alloc_new` refuses an id that is registered already, and
    ids below `KDS_SYS_RESERVED_PAGES` are not handed out. -/
inductive WalStep (crc32c : UInt32 → List UInt8 → UInt32) : WalSys → WalAct → WalSys → Prop where
  | append {s : WalSys} {hdr : WalRecHdr} {body : Option (List UInt8)} :
      BodyOk hdr body → WalStep crc32c s (.append hdr body) (appendStep crc32c s hdr body)
  | flush {s : WalSys} : WalStep crc32c s .flush (flushStep s)
  | stage {s : WalSys} {id : PageId} : id ∉ s.cached → id ≠ 0 →
      WalStep crc32c s (.stage id) { s with staged := s.staged ++ [id], cached := id :: s.cached }

def walSystem (crc32c : UInt32 → List UInt8 → UInt32) : Lts.System WalSys WalAct where
  init := fun s => ∃ staged cached, Staged staged cached ∧ kds_wal_init staged cached = some s
  step := WalStep crc32c

/-- No allocation fails: when a page is taken, one is staged. -/
def AllocOk (s : WalSys) (a : WalAct) : Prop :=
  match a, s.pc with
  | .flush, .alloc _ _ => s.staged ≠ []
  | _, _ => True

end Kds
