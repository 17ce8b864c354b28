import Kds.Heap.Page
import Kds.Lib.Lts

/-! # The layout of a heap page

    The representation invariant of the slotted page (`HeapInv`), and that
    every history of operations keeps it. The argument has three parts:

    - reading a packed struct back after writing it, and reading it after a
      write somewhere else;
    - one effect lemma for each operation: which bytes a successful call
      changes, and what the structs it touches read afterwards;
    - the invariant follows from the effect lemmas alone.
-/

open Bytes Lts

namespace Kds

/-! ## Section 1: Reading structs back -/

theorem heapMeta_congr {m m' : Mem} (h : ∀ a, 41 ≤ a → a < 49 → m a = m' a) :
    heapMeta m = heapMeta m' := by
  simp only [heapMeta, KDS_HEAP_META_OFFSET, KDS_PAGE_HDR_SIZE, HeapPageMeta.mk.injEq]
  refine ⟨?_, ?_, ?_, ?_⟩ <;> apply Mem.readU16_congr <;> intro a _ _ <;>
    exact h a (by omega) (by omega)

theorem heapSlot_congr {m m' : Mem} {i : Nat}
    (h : ∀ a, 49 + i * 5 ≤ a → a < 54 + i * 5 → m a = m' a) : heapSlot m i = heapSlot m' i := by
  simp only [heapSlot, heap_slot_ptr, KDS_HEAP_AREA_OFFSET, KDS_HEAP_META_OFFSET,
    KDS_PAGE_HDR_SIZE, KDS_HEAP_META_SIZE, KDS_HEAP_SLOT_SIZE, HeapSlot.mk.injEq]
  refine ⟨?_, ?_, h _ (by omega) (by omega)⟩ <;> apply Mem.readU16_congr <;> intro a _ _ <;>
    exact h a (by omega) (by omega)

theorem heapTupleHdr_congr {m m' : Mem} {off : Nat}
    (h : ∀ a, off ≤ a → a < off + 28 → m a = m' a) :
    heapTupleHdr m off = heapTupleHdr m' off := by
  simp only [heapTupleHdr, HeapTupleHdr.mk.injEq]
  refine ⟨?_, ?_, ?_, ?_, h _ (by omega) (by omega), h _ (by omega) (by omega)⟩
  · exact Mem.readU64_congr fun a _ _ => h a (by omega) (by omega)
  · exact Mem.readU64_congr fun a _ _ => h a (by omega) (by omega)
  · exact Mem.readU64_congr fun a _ _ => h a (by omega) (by omega)
  · exact Mem.readU16_congr fun a _ _ => h a (by omega) (by omega)

theorem heapMeta_write (m : Mem) (pmeta : HeapPageMeta) :
    heapMeta (m.write KDS_HEAP_META_OFFSET pmeta.bytes) = pmeta := by
  obtain ⟨n, l, u, r⟩ := pmeta
  simp only [heapMeta, HeapPageMeta.bytes, HeapPageMeta.mk.injEq]
  refine ⟨?_, ?_, ?_, ?_⟩
  · simpa using Mem.readU16_write_mid m KDS_HEAP_META_OFFSET []
      (u16Bytes l ++ u16Bytes u ++ u16Bytes r) n
  · simpa using Mem.readU16_write_mid m KDS_HEAP_META_OFFSET (u16Bytes n)
      (u16Bytes u ++ u16Bytes r) l
  · simpa using Mem.readU16_write_mid m KDS_HEAP_META_OFFSET (u16Bytes n ++ u16Bytes l)
      (u16Bytes r) u
  · simpa using Mem.readU16_write_mid m KDS_HEAP_META_OFFSET
      (u16Bytes n ++ u16Bytes l ++ u16Bytes u) [] r

theorem heapMeta_write_outside (m : Mem) {off : Nat} {bs : List UInt8}
    (h : off + bs.length ≤ 41 ∨ 49 ≤ off) : heapMeta (m.write off bs) = heapMeta m :=
  heapMeta_congr fun _ _ _ => Mem.write_outside m (by omega)

theorem heapSlot_write (m : Mem) (i : Nat) (slot : HeapSlot) :
    heapSlot (m.write (heap_slot_ptr i) slot.bytes) i = slot := by
  obtain ⟨o, l, fl⟩ := slot
  simp only [heapSlot, HeapSlot.bytes, HeapSlot.mk.injEq]
  refine ⟨?_, ?_, ?_⟩
  · simpa using Mem.readU16_write_mid m (heap_slot_ptr i) [] (u16Bytes l ++ [fl]) o
  · simpa using Mem.readU16_write_mid m (heap_slot_ptr i) (u16Bytes o) [fl] l
  · simpa using Mem.byte_write_mid m (heap_slot_ptr i) (u16Bytes o ++ u16Bytes l) [] fl

theorem heapTupleHdr_write (m : Mem) (off : Nat) (hdr : HeapTupleHdr) :
    heapTupleHdr (m.write off hdr.bytes) off = hdr := by
  obtain ⟨xn, xx, un, dl, fl, re⟩ := hdr
  simp only [heapTupleHdr, HeapTupleHdr.bytes, HeapTupleHdr.mk.injEq]
  refine ⟨?_, ?_, ?_, ?_, ?_, ?_⟩
  · simpa using Mem.readU64_write_mid m off []
      (u64Bytes xx ++ u64Bytes un ++ u16Bytes dl ++ [fl] ++ [re]) xn
  · simpa using Mem.readU64_write_mid m off (u64Bytes xn)
      (u64Bytes un ++ u16Bytes dl ++ [fl] ++ [re]) xx
  · simpa using Mem.readU64_write_mid m off (u64Bytes xn ++ u64Bytes xx)
      (u16Bytes dl ++ [fl] ++ [re]) un
  · simpa using Mem.readU16_write_mid m off (u64Bytes xn ++ u64Bytes xx ++ u64Bytes un)
      ([fl] ++ [re]) dl
  · simpa using Mem.byte_write_mid m off
      (u64Bytes xn ++ u64Bytes xx ++ u64Bytes un ++ u16Bytes dl) [re] fl
  · simpa using Mem.byte_write_mid m off
      (u64Bytes xn ++ u64Bytes xx ++ u64Bytes un ++ u16Bytes dl ++ [fl]) [] re

/-- Bytes outside the tuple's header and payload are not touched by `heapPutTuple`. -/
theorem heapPutTuple_outside {m : Mem} {off a : Nat} {hdr : HeapTupleHdr} {data : Option Mem}
    (h : a < off ∨ off + 28 + hdr.data_len.toNat ≤ a) : heapPutTuple m off hdr data a = m a := by
  unfold heapPutTuple
  cases data with
  | none => exact Mem.write_outside m (by simp; omega)
  | some d =>
    show ((m.write off hdr.bytes).write (off + KDS_HEAP_TUPLE_HDR_SIZE) _) a = m a
    rw [Mem.write_outside _ (by simp; omega), Mem.write_outside _ (by simp; omega)]

theorem heapTupleHdr_put (m : Mem) (off : Nat) (hdr : HeapTupleHdr) (data : Option Mem) :
    heapTupleHdr (heapPutTuple m off hdr data) off = hdr := by
  unfold heapPutTuple
  cases data with
  | none => exact heapTupleHdr_write m off hdr
  | some d =>
    show heapTupleHdr ((m.write off hdr.bytes).write (off + KDS_HEAP_TUPLE_HDR_SIZE) _) off = hdr
    refine (heapTupleHdr_congr ?_).trans (heapTupleHdr_write m off hdr)
    intro a _ _
    exact Mem.write_outside _ (by simp; omega)

theorem read_put (m : Mem) (off : Nat) (hdr : HeapTupleHdr) (d : Mem) :
    (heapPutTuple m off hdr (some d)).read (off + 28) hdr.data_len.toNat =
      d.read 0 hdr.data_len.toNat := by
  show ((m.write off hdr.bytes).write (off + 28) _).read (off + 28) hdr.data_len.toNat = _
  have h := Mem.read_write_same (m.write off hdr.bytes) (off + 28)
    (d.read 0 hdr.data_len.toNat)
  rwa [Mem.length_read] at h

/-! ## Section 2: The representation invariant -/

/-- Slot `i` is in the directory and holds a tuple. -/
def LiveSlot (m : Mem) (i : Nat) : Prop :=
  i < (heapMeta m).nr_slots.toNat ∧ (heapSlot m i).dead = false

instance (m : Mem) (i : Nat) : Decidable (LiveSlot m i) := inferInstanceAs (Decidable (_ ∧ _))

/-- First byte of the tuple in slot `i`. -/
def slotOffset (m : Mem) (i : Nat) : Nat := (heapSlot m i).offset.toNat

/-- Bytes reserved for the tuple in slot `i`. -/
def slotLength (m : Mem) (i : Nat) : Nat := (heapSlot m i).length.toNat

/-- The layout of a heap page: directory and tuples meet nowhere, live
    tuples lie between `upper` and the tail link, apart from each other, and
    each is long enough for the payload its header announces. -/
structure HeapInv (m : Mem) : Prop where
  lower_eq : (heapMeta m).lower.toNat =
    KDS_HEAP_AREA_OFFSET + KDS_HEAP_SLOT_SIZE * (heapMeta m).nr_slots.toNat
  lower_le : (heapMeta m).lower.toNat ≤ (heapMeta m).upper.toNat
  upper_le : (heapMeta m).upper.toNat ≤ KDS_HEAP_NEXT_PAGE_OFFSET
  upper_le_offset : ∀ i, LiveSlot m i → (heapMeta m).upper.toNat ≤ slotOffset m i
  end_le : ∀ i, LiveSlot m i → slotOffset m i + slotLength m i ≤ KDS_HEAP_NEXT_PAGE_OFFSET
  hdr_fits : ∀ i, LiveSlot m i → KDS_HEAP_TUPLE_HDR_SIZE ≤ slotLength m i
  data_fits : ∀ i, LiveSlot m i →
    KDS_HEAP_TUPLE_HDR_SIZE + (heapTupleHdr m (slotOffset m i)).data_len.toNat ≤ slotLength m i
  disjoint : ∀ i j, LiveSlot m i → LiveSlot m j → i ≠ j →
    slotOffset m i + slotLength m i ≤ slotOffset m j ∨
      slotOffset m j + slotLength m j ≤ slotOffset m i

theorem heapMeta_init (f : Frame) (type : PageType) :
    heapMeta (heap_init_page_as f type).page =
      { nr_slots := 0
        lower := UInt16.ofNat KDS_HEAP_AREA_OFFSET
        upper := UInt16.ofNat KDS_HEAP_NEXT_PAGE_OFFSET
        reserved := 0 } := by
  show heapMeta (((f.page.write 0 _).write KDS_HEAP_META_OFFSET _).write _ _) = _
  rw [heapMeta_write_outside _ (by simp), heapMeta_write]

theorem heapInv_init (f : Frame) (type : PageType) : HeapInv (heap_init_page_as f type).page := by
  have hmeta := heapMeta_init f type
  have hdead : ∀ i, ¬ LiveSlot (heap_init_page_as f type).page i := by
    intro i h
    rw [LiveSlot, hmeta] at h
    simp at h
  constructor
  · rw [hmeta]; rfl
  · rw [hmeta]; decide
  · rw [hmeta]; decide
  · intro i h; exact absurd h (hdead i)
  · intro i h; exact absurd h (hdead i)
  · intro i h; exact absurd h (hdead i)
  · intro i h; exact absurd h (hdead i)
  · intro i _ h; exact absurd h (hdead i)

/-! ## Section 3: What each operation does

    One structure for the effect of a successful insert, one for an operation
    that rewrites a live tuple inside its own range (`heap_overwrite_tuple`,
    `heap_delete_tuple`), one for `heap_retire_slot` and one for
    `heap_set_next_page_id`. -/

/-- What a successful insert leaves behind. -/
structure InsertEffect (m m' : Mem) (hdr : HeapTupleHdr) (payload : List UInt8) : Prop where
  room : (heapMeta m).lower.toNat + 33 + hdr.data_len.toNat ≤ (heapMeta m).upper.toNat
  nr_slots : (heapMeta m').nr_slots.toNat = (heapMeta m).nr_slots.toNat + 1
  lower : (heapMeta m').lower.toNat = (heapMeta m).lower.toNat + 5
  upper : (heapMeta m').upper.toNat + 28 + hdr.data_len.toNat = (heapMeta m).upper.toNat
  newSlot : slotOffset m' (heapMeta m).nr_slots.toNat = (heapMeta m').upper.toNat ∧
    slotLength m' (heapMeta m).nr_slots.toNat = 28 + hdr.data_len.toNat ∧
    LiveSlot m' (heapMeta m).nr_slots.toNat
  newHdr : heapTupleHdr m' (heapMeta m').upper.toNat = hdr
  newData : m'.read ((heapMeta m').upper.toNat + 28) hdr.data_len.toNat = payload
  header : ∀ a < KDS_HEAP_META_OFFSET, m' a = m a
  directory : ∀ a, KDS_HEAP_AREA_OFFSET ≤ a → a < (heapMeta m).lower.toNat → m' a = m a
  tuples : ∀ a, (heapMeta m).upper.toNat ≤ a → m' a = m a

/-- What rewriting the tuple of slot `i` inside its range leaves behind. -/
structure RewriteEffect (m m' : Mem) (i : Nat) (hdr : HeapTupleHdr) (payload : List UInt8) :
    Prop where
  live : LiveSlot m i
  newHdr : heapTupleHdr m' (slotOffset m i) = hdr
  newData : m'.read (slotOffset m i + 28) hdr.data_len.toNat = payload
  fits : 28 + hdr.data_len.toNat ≤ slotLength m i
  outside : ∀ a, a < slotOffset m i ∨ slotOffset m i + slotLength m i ≤ a → m' a = m a

/-- What retiring slot `i` leaves behind. -/
structure RetireEffect (m m' : Mem) (i : Nat) : Prop where
  inRange : i < (heapMeta m).nr_slots.toNat
  dead : (heapSlot m' i).dead = true
  outside : ∀ a, a < heap_slot_ptr i ∨ heap_slot_ptr i + KDS_HEAP_SLOT_SIZE ≤ a → m' a = m a

/-- What setting the tail link leaves behind. -/
structure SetNextEffect (m m' : Mem) (next : PageId) : Prop where
  next : m'.readU64 KDS_HEAP_NEXT_PAGE_OFFSET = next
  outside : ∀ a, a < KDS_HEAP_NEXT_PAGE_OFFSET ∨ KDS_PAGE_SIZE ≤ a → m' a = m a

/-- The payload bytes a caller passes: none for a `NULL` pointer. -/
def payload (data : Option Mem) (data_len : UInt16) : List UInt8 :=
  match data with
  | none => []
  | some d => d.read 0 data_len.toNat

/-- A failing insert returns the frame as it was. -/
theorem heap_insert_error {f f' : Frame} {data : Option Mem} {data_len : UInt16}
    {xmin xmax undo_ptr : UInt64} {out_tid : Bool} {e : Errno}
    (h : heap_insert_tuple_ex f data data_len xmin xmax undo_ptr out_tid = (.error e, f')) :
    f' = f := by
  unfold heap_insert_tuple_ex at h
  dsimp only at h
  split_ifs at h <;> simp_all

/-- One that goes through marks the page. -/
theorem heap_insert_hdr {f f' : Frame} {data : Option Mem} {data_len : UInt16} {xmin : UInt64}
    {tid : HeapTid} (h : heap_insert_tuple f data data_len xmin = (.ok tid, f')) :
    f'.hdr = (kds_set_page_dirty f).hdr := by
  unfold heap_insert_tuple heap_insert_tuple_ex at h
  dsimp only at h
  split_ifs at h
  · simp at h
  · simp at h
  · simp at h
  · simp at h
  · obtain ⟨-, rfl⟩ := Prod.mk.inj h
    rfl

/-- A `NULL` payload has length 0 in every insert and overwrite that goes through. -/
theorem data_len_of_null {data : Option Mem} {data_len : UInt16}
    (h : ¬ (data_len > 0 && data.isNone) = true) (hnull : data = none) : data_len.toNat = 0 := by
  subst hnull
  simp only [gt_iff_lt, Option.isNone_none, Bool.and_true, decide_eq_true_eq,
    UInt16.lt_iff_toNat_lt] at h
  simpa using h

theorem heap_insert_effect {f f' : Frame} {data : Option Mem} {data_len : UInt16}
    {xmin xmax undo_ptr : UInt64} {out_tid : Bool} {tid : HeapTid} (hinv : HeapInv f.page)
    (h : heap_insert_tuple_ex f data data_len xmin xmax undo_ptr out_tid = (.ok tid, f')) :
    tid = ⟨f.id, (heapMeta f.page).nr_slots⟩ ∧
      InsertEffect f.page f'.page ⟨xmin, xmax, undo_ptr, data_len, 0, 0⟩
        (payload data data_len) := by
  unfold heap_insert_tuple_ex at h
  dsimp only at h
  split_ifs at h with hout hnull hlen hroom
  · simp at h
  · simp at h
  · simp at h
  · simp at h
  simp only [Prod.mk.injEq, Except.ok.injEq] at h
  obtain ⟨rfl, rfl⟩ := h
  refine ⟨rfl, ?_⟩
  have hlow := hinv.lower_eq
  have hle := hinv.lower_le
  have hup := hinv.upper_le
  simp only [KDS_PAGE_SIZE, Nat.not_lt] at hlen
  simp only [KDS_HEAP_AREA_OFFSET, KDS_HEAP_META_OFFSET, KDS_PAGE_HDR_SIZE, KDS_HEAP_META_SIZE,
    KDS_HEAP_SLOT_SIZE] at hlow
  simp only [KDS_HEAP_NEXT_PAGE_OFFSET, KDS_PAGE_SIZE] at hup
  -- the `u16` subtraction does not wrap, so the test is the one over the integers
  have hspace : (heapMeta f.page).lower.toNat + 33 + data_len.toNat ≤
      (heapMeta f.page).upper.toNat := by
    simp only [is_heap_insert_possible, heapNeeded, ge_iff_le, Bool.not_eq_true',
      decide_eq_false_iff_not, not_not, UInt16.le_iff_toNat_le, UInt16.toNat_ofNat',
      UInt16.toNat_sub, KDS_HEAP_SLOT_SIZE, KDS_HEAP_TUPLE_HDR_SIZE] at hroom
    omega
  have htl : (heapTupleLen data_len).toNat = 28 + data_len.toNat := by
    simp only [heapTupleLen, KDS_HEAP_TUPLE_HDR_SIZE, UInt16.toNat_ofNat']
    omega
  have hnu : ((heapMeta f.page).upper - heapTupleLen data_len).toNat =
      (heapMeta f.page).upper.toNat - (28 + data_len.toNat) := by
    rw [UInt16.toNat_sub, htl]
    omega
  set nr := (heapMeta f.page).nr_slots.toNat with hnr
  set nu := (heapMeta f.page).upper - heapTupleLen data_len with hnudef
  set hdr : HeapTupleHdr := ⟨xmin, xmax, undo_ptr, data_len, 0, 0⟩ with hhdr
  set slot : HeapSlot := ⟨nu, heapTupleLen data_len, 0⟩ with hslot
  set md : HeapPageMeta :=
    { nr_slots := (heapMeta f.page).nr_slots + 1
      lower := (heapMeta f.page).lower + UInt16.ofNat KDS_HEAP_SLOT_SIZE
      upper := nu
      reserved := (heapMeta f.page).reserved } with hmd
  set m1 := heapPutTuple f.page nu.toNat hdr data with hm1
  set m2 := m1.write (heap_slot_ptr nr) slot.bytes with hm2
  set m3 := m2.write KDS_HEAP_META_OFFSET md.bytes with hm3
  -- the three writes, each seen from outside its range
  have h3 : ∀ a, a < 41 ∨ 49 ≤ a → m3 a = m2 a := fun a ha =>
    Mem.write_outside _ (by simp; omega)
  have h2 : ∀ a, a < 49 + nr * 5 ∨ 54 + nr * 5 ≤ a → m2 a = m1 a := fun a ha =>
    Mem.write_outside _ (by simp [heap_slot_ptr]; omega)
  have h1 : ∀ a, a < nu.toNat ∨ nu.toNat + 28 + data_len.toNat ≤ a → m1 a = f.page a := fun a ha =>
    heapPutTuple_outside ha
  have hmeta : heapMeta m3 = md := heapMeta_write _ _
  have hslotnr : heapSlot m3 nr = slot := by
    refine (heapSlot_congr fun a _ _ => h3 a (by omega)).trans ?_
    exact heapSlot_write _ _ _
  have hdead : slot.dead = false := by
    have hl : (heapTupleLen data_len) ≠ 0 := by
      intro h0
      have := congrArg UInt16.toNat h0
      rw [htl] at this
      simp at this
    simp [HeapSlot.dead, hslot, hl]
  have hnr1 : ((heapMeta f.page).nr_slots + 1).toNat = nr + 1 := by
    rw [UInt16.toNat_add]
    simp only [UInt16.reduceToNat]
    omega
  show InsertEffect f.page m3 hdr (payload data data_len)
  constructor
  · show (heapMeta f.page).lower.toNat + 33 + data_len.toNat ≤ _
    exact hspace
  · rw [hmeta]; exact hnr1
  · rw [hmeta]
    show ((heapMeta f.page).lower + UInt16.ofNat KDS_HEAP_SLOT_SIZE).toNat = _
    rw [UInt16.toNat_add, UInt16.toNat_ofNat', KDS_HEAP_SLOT_SIZE]
    omega
  · rw [hmeta]
    show nu.toNat + 28 + data_len.toNat = _
    omega
  · refine ⟨?_, ?_, ?_, ?_⟩
    · rw [slotOffset, hslotnr, hmeta]
    · rw [slotLength, hslotnr]; exact htl
    · rw [hmeta]
      show nr < ((heapMeta f.page).nr_slots + 1).toNat
      omega
    · rw [hslotnr]; exact hdead
  · rw [hmeta]
    refine (heapTupleHdr_congr fun a _ _ => ?_).trans (heapTupleHdr_put f.page nu.toNat hdr data)
    change nu.toNat ≤ a at *
    rw [h3 a (by omega), h2 a (by omega)]
  · rw [hmeta]
    show m3.read (nu.toNat + 28) data_len.toNat = payload data data_len
    have hread : m3.read (nu.toNat + 28) data_len.toNat =
        m1.read (nu.toNat + 28) data_len.toNat := by
      apply Mem.read_congr
      intro a _ _
      rw [h3 a (by omega), h2 a (by omega)]
    rw [hread]
    cases hdata : data with
    | none => simp [payload, data_len_of_null hnull hdata]
    | some d =>
      rw [hm1, hdata]
      exact read_put f.page nu.toNat hdr d
  · intro a ha
    simp only [KDS_HEAP_META_OFFSET, KDS_PAGE_HDR_SIZE] at ha
    rw [h3 a (by omega), h2 a (by omega), h1 a (by omega)]
  · intro a ha ha'
    simp only [KDS_HEAP_AREA_OFFSET, KDS_HEAP_META_OFFSET, KDS_PAGE_HDR_SIZE,
      KDS_HEAP_META_SIZE] at ha
    rw [h3 a (by omega), h2 a (by omega), h1 a (by omega)]
  · intro a ha
    rw [h3 a (by omega), h2 a (by omega), h1 a (by omega)]

theorem heap_overwrite_error {f f' : Frame} {slot_idx : UInt16} {new_data : Option Mem}
    {new_data_len : UInt16} {xmin xmax undo_ptr : UInt64} {e : Errno}
    (h : heap_overwrite_tuple f slot_idx new_data new_data_len xmin xmax undo_ptr =
      (.error e, f')) : f' = f := by
  unfold heap_overwrite_tuple at h
  dsimp only at h
  split_ifs at h <;> simp_all

/-- For a payload of at most a page the `u16` length test is the one over the
    integers, so an overwrite stays inside the slot. -/
theorem heap_overwrite_effect {f f' : Frame} {slot_idx : UInt16} {new_data : Option Mem}
    {new_data_len : UInt16} {xmin xmax undo_ptr : UInt64}
    (hlen : new_data_len.toNat ≤ KDS_PAGE_SIZE)
    (h : heap_overwrite_tuple f slot_idx new_data new_data_len xmin xmax undo_ptr =
      (.ok (), f')) :
    RewriteEffect f.page f'.page slot_idx.toNat ⟨xmin, xmax, undo_ptr, new_data_len, 0, 0⟩
      (payload new_data new_data_len) := by
  unfold heap_overwrite_tuple at h
  dsimp only at h
  split_ifs at h with hnull hidx hdead hfit
  · simp at h
  · simp at h
  · simp at h
  · simp at h
  simp only [Prod.mk.injEq, true_and] at h
  subst h
  have hfits : 28 + new_data_len.toNat ≤ slotLength f.page slot_idx.toNat := by
    simp only [heapTupleLen, KDS_HEAP_TUPLE_HDR_SIZE, gt_iff_lt, UInt16.lt_iff_toNat_lt,
      UInt16.toNat_ofNat', Nat.not_lt] at hfit
    simp only [KDS_PAGE_SIZE] at hlen
    unfold slotLength
    omega
  refine ⟨⟨?_, by simpa using hdead⟩, ?_, ?_, hfits, ?_⟩
  · simpa [UInt16.le_iff_toNat_le] using hidx
  · exact heapTupleHdr_put _ _ _ _
  · cases hdata : new_data with
    | none => simp [payload, data_len_of_null hnull hdata]
    | some d => exact read_put f.page (slotOffset f.page slot_idx.toNat) _ d
  · intro a ha
    exact heapPutTuple_outside (by
      show a < slotOffset f.page slot_idx.toNat ∨
        slotOffset f.page slot_idx.toNat + 28 + new_data_len.toNat ≤ a
      omega)

theorem heap_delete_error {f f' : Frame} {slot_idx : UInt16} {xmax : UInt64} {e : Errno}
    (h : heap_delete_tuple f slot_idx xmax = (.error e, f')) : f' = f := by
  unfold heap_delete_tuple at h
  dsimp only at h
  split_ifs at h <;> simp_all

/-- A delete rewrites the tuple with the same payload and a new `xmax`. -/
theorem heap_delete_effect {f f' : Frame} {slot_idx : UInt16} {xmax : UInt64}
    (hinv : HeapInv f.page) (h : heap_delete_tuple f slot_idx xmax = (.ok (), f')) :
    RewriteEffect f.page f'.page slot_idx.toNat
      { heapTupleHdr f.page (slotOffset f.page slot_idx.toNat) with xmax := xmax }
      (f.page.read (slotOffset f.page slot_idx.toNat + 28)
        (heapTupleHdr f.page (slotOffset f.page slot_idx.toNat)).data_len.toNat) := by
  unfold heap_delete_tuple at h
  dsimp only at h
  split_ifs at h with hidx hdead
  · simp at h
  · simp at h
  simp only [Prod.mk.injEq, true_and] at h
  subst h
  have hlive : LiveSlot f.page slot_idx.toNat :=
    ⟨by simpa [UInt16.le_iff_toNat_le] using hidx, by simpa using hdead⟩
  have hhdr := hinv.hdr_fits _ hlive
  have hdata := hinv.data_fits _ hlive
  simp only [KDS_HEAP_TUPLE_HDR_SIZE] at hhdr hdata
  refine ⟨hlive, ?_, ?_, hdata, ?_⟩
  · exact heapTupleHdr_write _ _ _
  · exact Mem.read_write_disjoint _ (Or.inr (by simp [slotOffset]))
  · intro a ha
    exact Mem.write_outside _ (by
      rw [HeapTupleHdr.length_bytes]
      show a < slotOffset f.page slot_idx.toNat ∨ slotOffset f.page slot_idx.toNat + 28 ≤ a
      omega)

theorem heap_retire_error {f f' : Frame} {slot_idx : UInt16} {e : Errno}
    (h : heap_retire_slot f slot_idx = (.error e, f')) : f' = f := by
  unfold heap_retire_slot at h
  dsimp only at h
  split_ifs at h <;> simp_all

theorem heap_retire_effect {f f' : Frame} {slot_idx : UInt16}
    (h : heap_retire_slot f slot_idx = (.ok (), f')) :
    RetireEffect f.page f'.page slot_idx.toNat := by
  unfold heap_retire_slot at h
  dsimp only at h
  split_ifs at h with hidx
  · simp at h
  simp only [Prod.mk.injEq, true_and] at h
  subst h
  refine ⟨by simpa [UInt16.le_iff_toNat_le] using hidx, ?_, ?_⟩
  · rw [kds_set_page_dirty_page, heapSlot_write]
    simp [HeapSlot.dead]
  · intro a ha
    exact Mem.write_outside _ (by simpa using ha)

theorem heap_set_next_effect (f : Frame) (next : PageId) :
    SetNextEffect f.page (heap_set_next_page_id f next).2.page next := by
  refine ⟨?_, ?_⟩
  · show (f.page.write KDS_HEAP_NEXT_PAGE_OFFSET (u64Bytes next)).readU64 _ = next
    simpa using Mem.readU64_write_mid f.page KDS_HEAP_NEXT_PAGE_OFFSET [] [] next
  · intro a ha
    exact Mem.write_outside _ (by simpa using ha)

/-! ## Section 4: The invariant is kept -/

/-- Slots before the new one read as before an insert. -/
theorem InsertEffect.slot_eq {m m' : Mem} {hdr : HeapTupleHdr} {payload : List UInt8}
    (hinv : HeapInv m) (h : InsertEffect m m' hdr payload) {i : Nat}
    (hi : i < (heapMeta m).nr_slots.toNat) : heapSlot m' i = heapSlot m i := by
  have hlow := hinv.lower_eq
  simp only [KDS_HEAP_AREA_OFFSET, KDS_HEAP_META_OFFSET, KDS_PAGE_HDR_SIZE, KDS_HEAP_META_SIZE,
    KDS_HEAP_SLOT_SIZE] at hlow
  apply heapSlot_congr
  intro a _ _
  exact h.directory a (by simp; omega) (by omega)

/-- A slot live after an insert is the new one or was live before. -/
theorem InsertEffect.live_cases {m m' : Mem} {hdr : HeapTupleHdr} {payload : List UInt8}
    (hinv : HeapInv m) (h : InsertEffect m m' hdr payload) {i : Nat} (hi : LiveSlot m' i) :
    i = (heapMeta m).nr_slots.toNat ∨ (LiveSlot m i ∧ heapSlot m' i = heapSlot m i) := by
  have hnr := h.nr_slots
  rcases Nat.lt_or_ge i (heapMeta m).nr_slots.toNat with hlt | hge
  · have heq := h.slot_eq hinv hlt
    exact Or.inr ⟨⟨hlt, by rw [← heq]; exact hi.2⟩, heq⟩
  · have := hi.1
    exact Or.inl (by omega)

theorem InsertEffect.inv {m m' : Mem} {hdr : HeapTupleHdr} {payload : List UInt8}
    (hinv : HeapInv m) (h : InsertEffect m m' hdr payload) : HeapInv m' := by
  obtain ⟨hnewOff, hnewLen, _⟩ := h.newSlot
  have hlow := hinv.lower_eq
  have hup := hinv.upper_le
  have hroom := h.room
  have hupper := h.upper
  have hlower := h.lower
  have hnr := h.nr_slots
  simp only [KDS_HEAP_AREA_OFFSET, KDS_HEAP_META_OFFSET, KDS_PAGE_HDR_SIZE, KDS_HEAP_META_SIZE,
    KDS_HEAP_SLOT_SIZE] at hlow
  -- offset and length of an old slot, and its header, are the ones it had
  have hoff : ∀ i, heapSlot m' i = heapSlot m i → slotOffset m' i = slotOffset m i :=
    fun i he => by rw [slotOffset, slotOffset, he]
  have hlen : ∀ i, heapSlot m' i = heapSlot m i → slotLength m' i = slotLength m i :=
    fun i he => by rw [slotLength, slotLength, he]
  constructor
  · simp only [KDS_HEAP_AREA_OFFSET, KDS_HEAP_META_OFFSET, KDS_PAGE_HDR_SIZE, KDS_HEAP_META_SIZE,
      KDS_HEAP_SLOT_SIZE]
    omega
  · omega
  · omega
  · intro i hi
    rcases h.live_cases hinv hi with rfl | ⟨hl, he⟩
    · omega
    · have := hinv.upper_le_offset i hl
      rw [hoff i he]
      omega
  · intro i hi
    rcases h.live_cases hinv hi with rfl | ⟨hl, he⟩
    · omega
    · rw [hoff i he, hlen i he]
      exact hinv.end_le i hl
  · intro i hi
    rcases h.live_cases hinv hi with rfl | ⟨hl, he⟩
    · simp only [KDS_HEAP_TUPLE_HDR_SIZE]; omega
    · rw [hlen i he]
      exact hinv.hdr_fits i hl
  · intro i hi
    rcases h.live_cases hinv hi with rfl | ⟨hl, he⟩
    · rw [hnewOff, h.newHdr, hnewLen]
      exact Nat.le_refl _
    · have hu := hinv.upper_le_offset i hl
      rw [hoff i he, hlen i he]
      have hhdr : heapTupleHdr m' (slotOffset m i) = heapTupleHdr m (slotOffset m i) :=
        heapTupleHdr_congr fun a _ _ => h.tuples a (by omega)
      rw [hhdr]
      exact hinv.data_fits i hl
  · intro i j hi hj hne
    rcases h.live_cases hinv hi with rfl | ⟨hli, hei⟩
    · rcases h.live_cases hinv hj with rfl | ⟨hlj, hej⟩
      · exact absurd rfl hne
      · have := hinv.upper_le_offset j hlj
        rw [hoff j hej]
        exact Or.inl (by omega)
    · rcases h.live_cases hinv hj with rfl | ⟨hlj, hej⟩
      · have := hinv.upper_le_offset i hli
        rw [hoff i hei]
        exact Or.inr (by omega)
      · rw [hoff i hei, hoff j hej, hlen i hei, hlen j hej]
        exact hinv.disjoint i j hli hlj hne

/-- A live tuple starts behind the metadata and the slot directory. -/
theorem HeapInv.area_le {m : Mem} (hinv : HeapInv m) {i : Nat} (hi : LiveSlot m i) :
    49 + 5 * (heapMeta m).nr_slots.toNat ≤ slotOffset m i := by
  have h1 := hinv.lower_eq
  have h2 := hinv.lower_le
  have h3 := hinv.upper_le_offset i hi
  simp only [KDS_HEAP_AREA_OFFSET, KDS_HEAP_META_OFFSET, KDS_PAGE_HDR_SIZE, KDS_HEAP_META_SIZE,
    KDS_HEAP_SLOT_SIZE] at h1
  omega

/-- The invariant carries over to a page with the same metadata on which every
    live slot was live before, reads as before and still has room for its payload. -/
theorem HeapInv.transfer {m m' : Mem} (hinv : HeapInv m) (hmeta : heapMeta m' = heapMeta m)
    (hlive : ∀ i, LiveSlot m' i → LiveSlot m i ∧ heapSlot m' i = heapSlot m i ∧
      28 + (heapTupleHdr m' (slotOffset m i)).data_len.toNat ≤ slotLength m i) :
    HeapInv m' := by
  constructor
  · rw [hmeta]; exact hinv.lower_eq
  · rw [hmeta]; exact hinv.lower_le
  · rw [hmeta]; exact hinv.upper_le
  · intro i hi
    obtain ⟨hl, he, _⟩ := hlive i hi
    rw [hmeta, slotOffset, he]
    exact hinv.upper_le_offset i hl
  · intro i hi
    obtain ⟨hl, he, _⟩ := hlive i hi
    rw [slotOffset, slotLength, he]
    exact hinv.end_le i hl
  · intro i hi
    obtain ⟨hl, he, _⟩ := hlive i hi
    rw [slotLength, he]
    exact hinv.hdr_fits i hl
  · intro i hi
    obtain ⟨_, he, hfit⟩ := hlive i hi
    rw [slotOffset, slotLength, he]
    exact hfit
  · intro i j hi hj hne
    obtain ⟨hli, hei, _⟩ := hlive i hi
    obtain ⟨hlj, hej, _⟩ := hlive j hj
    rw [slotOffset, slotLength, slotOffset, slotLength, hei, hej]
    exact hinv.disjoint i j hli hlj hne

theorem RewriteEffect.meta_eq {m m' : Mem} {i : Nat} {hdr : HeapTupleHdr} {payload : List UInt8}
    (hinv : HeapInv m) (h : RewriteEffect m m' i hdr payload) : heapMeta m' = heapMeta m := by
  have := hinv.area_le h.live
  exact heapMeta_congr fun a _ _ => h.outside a (by omega)

theorem RewriteEffect.slot_eq {m m' : Mem} {i j : Nat} {hdr : HeapTupleHdr} {payload : List UInt8}
    (hinv : HeapInv m) (h : RewriteEffect m m' i hdr payload)
    (hj : j < (heapMeta m).nr_slots.toNat) : heapSlot m' j = heapSlot m j := by
  have := hinv.area_le h.live
  exact heapSlot_congr fun a _ _ => h.outside a (by omega)

theorem RewriteEffect.live_iff {m m' : Mem} {i j : Nat} {hdr : HeapTupleHdr} {payload : List UInt8}
    (hinv : HeapInv m) (h : RewriteEffect m m' i hdr payload) : LiveSlot m' j ↔ LiveSlot m j := by
  unfold LiveSlot
  rw [h.meta_eq hinv]
  constructor
  · intro hj; exact ⟨hj.1, by rw [← h.slot_eq hinv hj.1]; exact hj.2⟩
  · intro hj; exact ⟨hj.1, by rw [h.slot_eq hinv hj.1]; exact hj.2⟩

/-- The bytes of another live tuple are not touched by a rewrite. -/
theorem RewriteEffect.other {m m' : Mem} {i j : Nat} {hdr : HeapTupleHdr} {payload : List UInt8}
    (hinv : HeapInv m) (h : RewriteEffect m m' i hdr payload) (hj : LiveSlot m j) (hne : j ≠ i)
    {a : Nat} (hlo : slotOffset m j ≤ a) (hhi : a < slotOffset m j + slotLength m j) :
    m' a = m a := by
  have := hinv.disjoint j i hj h.live hne
  exact h.outside a (by omega)

theorem RewriteEffect.inv {m m' : Mem} {i : Nat} {hdr : HeapTupleHdr} {payload : List UInt8}
    (hinv : HeapInv m) (h : RewriteEffect m m' i hdr payload) : HeapInv m' := by
  apply hinv.transfer (h.meta_eq hinv)
  intro j hj
  have hl := (h.live_iff hinv).mp hj
  refine ⟨hl, h.slot_eq hinv hl.1, ?_⟩
  by_cases hji : j = i
  · subst hji
    rw [h.newHdr]
    exact h.fits
  · have hfit := hinv.hdr_fits j hl
    simp only [KDS_HEAP_TUPLE_HDR_SIZE] at hfit
    rw [heapTupleHdr_congr fun a ha ha' => h.other hinv hl hji ha (by omega)]
    exact hinv.data_fits j hl

theorem RetireEffect.meta_eq {m m' : Mem} {i : Nat} (h : RetireEffect m m' i) :
    heapMeta m' = heapMeta m :=
  heapMeta_congr fun a _ _ => h.outside a (by simp [heap_slot_ptr]; omega)

theorem RetireEffect.slot_eq {m m' : Mem} {i j : Nat} (h : RetireEffect m m' i) (hne : j ≠ i) :
    heapSlot m' j = heapSlot m j :=
  heapSlot_congr fun a _ _ => h.outside a (by simp [heap_slot_ptr]; omega)

/-- A slot live after a retire is another one, live before and read as before. -/
theorem RetireEffect.live_cases {m m' : Mem} {i j : Nat} (h : RetireEffect m m' i)
    (hj : LiveSlot m' j) : j ≠ i ∧ LiveSlot m j ∧ heapSlot m' j = heapSlot m j := by
  have hne : j ≠ i := by
    rintro rfl
    exact absurd hj.2 (by rw [h.dead]; simp)
  have heq := h.slot_eq hne
  exact ⟨hne, ⟨by rw [← h.meta_eq]; exact hj.1, by rw [← heq]; exact hj.2⟩, heq⟩

/-- The bytes from the end of the directory on are not touched by a retire. -/
theorem RetireEffect.tuples {m m' : Mem} {i : Nat} (h : RetireEffect m m' i) {a : Nat}
    (ha : 49 + 5 * (heapMeta m).nr_slots.toNat ≤ a) : m' a = m a := by
  have := h.inRange
  exact h.outside a (by simp [heap_slot_ptr]; omega)

theorem RetireEffect.inv {m m' : Mem} {i : Nat} (hinv : HeapInv m) (h : RetireEffect m m' i) :
    HeapInv m' := by
  apply hinv.transfer h.meta_eq
  intro j hj
  obtain ⟨_, hl, he⟩ := h.live_cases hj
  have hlo := hinv.area_le hl
  refine ⟨hl, he, ?_⟩
  rw [heapTupleHdr_congr fun a ha _ => h.tuples (by omega)]
  exact hinv.data_fits j hl

theorem SetNextEffect.meta_eq {m m' : Mem} {next : PageId} (h : SetNextEffect m m' next) :
    heapMeta m' = heapMeta m :=
  heapMeta_congr fun a _ _ => h.outside a (by simp; omega)

theorem SetNextEffect.slot_eq {m m' : Mem} {next : PageId} (hinv : HeapInv m)
    (h : SetNextEffect m m' next) {i : Nat} (hi : i < (heapMeta m).nr_slots.toNat) :
    heapSlot m' i = heapSlot m i := by
  have h1 := hinv.lower_eq
  have h2 := hinv.lower_le
  have h3 := hinv.upper_le
  simp only [KDS_HEAP_AREA_OFFSET, KDS_HEAP_META_OFFSET, KDS_PAGE_HDR_SIZE, KDS_HEAP_META_SIZE,
    KDS_HEAP_SLOT_SIZE] at h1
  simp only [KDS_HEAP_NEXT_PAGE_OFFSET, KDS_PAGE_SIZE] at h3
  exact heapSlot_congr fun a _ _ => h.outside a (by simp; omega)

theorem SetNextEffect.inv {m m' : Mem} {next : PageId} (hinv : HeapInv m)
    (h : SetNextEffect m m' next) : HeapInv m' := by
  apply hinv.transfer h.meta_eq
  intro i hi
  have hlt : i < (heapMeta m).nr_slots.toNat := by rw [← h.meta_eq]; exact hi.1
  have heq := h.slot_eq hinv hlt
  have hl : LiveSlot m i := ⟨hlt, by rw [← heq]; exact hi.2⟩
  have hend := hinv.end_le i hl
  have hfit := hinv.hdr_fits i hl
  simp only [KDS_HEAP_NEXT_PAGE_OFFSET, KDS_PAGE_SIZE, KDS_HEAP_TUPLE_HDR_SIZE] at hend hfit
  refine ⟨hl, heq, ?_⟩
  rw [heapTupleHdr_congr fun a _ _ => h.outside a (by simp; omega)]
  exact hinv.data_fits i hl

/-! ## Section 5: Histories -/

/-- One call of the heap page interface with arbitrary arguments. -/
inductive HeapOp where
  | insert (data : Option Mem) (data_len : UInt16) (xmin xmax undo_ptr : UInt64) (out_tid : Bool)
  | overwrite (slot_idx : UInt16) (new_data : Option Mem) (new_data_len : UInt16)
      (xmin xmax undo_ptr : UInt64)
  | retire (slot_idx : UInt16)
  | delete (slot_idx : UInt16) (xmax : UInt64)
  | setNext (next_page_id : PageId)

/-- The frame after a call, successful or not. -/
def HeapOp.run (f : Frame) : HeapOp → Frame
  | .insert data data_len xmin xmax undo_ptr out_tid =>
      (heap_insert_tuple_ex f data data_len xmin xmax undo_ptr out_tid).2
  | .overwrite slot_idx new_data new_data_len xmin xmax undo_ptr =>
      (heap_overwrite_tuple f slot_idx new_data new_data_len xmin xmax undo_ptr).2
  | .retire slot_idx => (heap_retire_slot f slot_idx).2
  | .delete slot_idx xmax => (heap_delete_tuple f slot_idx xmax).2
  | .setNext next => (heap_set_next_page_id f next).2

/-- The callers' bound on the length of an overwrite. -/
def HeapOp.Bounded : HeapOp → Prop
  | .overwrite _ _ new_data_len _ _ _ => new_data_len.toNat ≤ KDS_PAGE_SIZE
  | _ => True

/-- All histories of one heap page. -/
def heapSystem : System Frame HeapOp where
  init := fun f => ∃ f₀ type, f = heap_init_page_as f₀ type
  step := fun f op f' => op.Bounded ∧ f' = op.run f

/-- What a call did to the page: nothing (it failed), or one of the effects of Section 3. -/
inductive HeapOp.Outcome (f : Frame) : HeapOp → Frame → Prop where
  | failed {op : HeapOp} : Outcome f op f
  | inserted {data : Option Mem} {data_len : UInt16} {xmin xmax undo_ptr : UInt64}
      {out_tid : Bool} {f' : Frame} (tid : HeapTid) :
      heap_insert_tuple_ex f data data_len xmin xmax undo_ptr out_tid = (.ok tid, f') →
      tid = ⟨f.id, (heapMeta f.page).nr_slots⟩ →
      InsertEffect f.page f'.page ⟨xmin, xmax, undo_ptr, data_len, 0, 0⟩
        (payload data data_len) →
      Outcome f (.insert data data_len xmin xmax undo_ptr out_tid) f'
  | overwritten {slot_idx : UInt16} {new_data : Option Mem} {new_data_len : UInt16}
      {xmin xmax undo_ptr : UInt64} {f' : Frame} :
      RewriteEffect f.page f'.page slot_idx.toNat ⟨xmin, xmax, undo_ptr, new_data_len, 0, 0⟩
        (payload new_data new_data_len) →
      Outcome f (.overwrite slot_idx new_data new_data_len xmin xmax undo_ptr) f'
  | retired {slot_idx : UInt16} {f' : Frame} :
      RetireEffect f.page f'.page slot_idx.toNat → Outcome f (.retire slot_idx) f'
  | deleted {slot_idx : UInt16} {xmax : UInt64} {f' : Frame} :
      RewriteEffect f.page f'.page slot_idx.toNat
        { heapTupleHdr f.page (slotOffset f.page slot_idx.toNat) with xmax := xmax }
        (f.page.read (slotOffset f.page slot_idx.toNat + 28)
          (heapTupleHdr f.page (slotOffset f.page slot_idx.toNat)).data_len.toNat) →
      Outcome f (.delete slot_idx xmax) f'
  | linked {next : PageId} {f' : Frame} :
      SetNextEffect f.page f'.page next → Outcome f (.setNext next) f'

/-- Every call on a well-formed page has one of the outcomes. -/
theorem HeapOp.outcome {f : Frame} {op : HeapOp} (hinv : HeapInv f.page) (hb : op.Bounded) :
    op.Outcome f (op.run f) := by
  cases op with
  | insert data data_len xmin xmax undo_ptr out_tid =>
    show HeapOp.Outcome f _ (heap_insert_tuple_ex f data data_len xmin xmax undo_ptr out_tid).2
    generalize hr : heap_insert_tuple_ex f data data_len xmin xmax undo_ptr out_tid = r
    obtain ⟨res, f'⟩ := r
    cases res with
    | error e => rw [heap_insert_error hr]; exact .failed
    | ok tid =>
      obtain ⟨htid, heff⟩ := heap_insert_effect hinv hr
      exact .inserted tid hr htid heff
  | overwrite slot_idx new_data new_data_len xmin xmax undo_ptr =>
    show HeapOp.Outcome f _ (heap_overwrite_tuple f slot_idx new_data new_data_len xmin xmax undo_ptr).2
    generalize hr : heap_overwrite_tuple f slot_idx new_data new_data_len xmin xmax undo_ptr = r
    obtain ⟨res, f'⟩ := r
    cases res with
    | error e => rw [heap_overwrite_error hr]; exact .failed
    | ok u => exact .overwritten (heap_overwrite_effect hb hr)
  | retire slot_idx =>
    show HeapOp.Outcome f _ (heap_retire_slot f slot_idx).2
    generalize hr : heap_retire_slot f slot_idx = r
    obtain ⟨res, f'⟩ := r
    cases res with
    | error e => rw [heap_retire_error hr]; exact .failed
    | ok u => exact .retired (heap_retire_effect hr)
  | delete slot_idx xmax =>
    show HeapOp.Outcome f _ (heap_delete_tuple f slot_idx xmax).2
    generalize hr : heap_delete_tuple f slot_idx xmax = r
    obtain ⟨res, f'⟩ := r
    cases res with
    | error e => rw [heap_delete_error hr]; exact .failed
    | ok u => exact .deleted (heap_delete_effect hinv hr)
  | setNext next => exact .linked (heap_set_next_effect f next)

theorem HeapOp.Outcome.inv {f f' : Frame} {op : HeapOp} (hinv : HeapInv f.page)
    (h : op.Outcome f f') : HeapInv f'.page := by
  cases h with
  | failed => exact hinv
  | inserted tid _ _ heff => exact heff.inv hinv
  | overwritten heff => exact heff.inv hinv
  | retired heff => exact heff.inv hinv
  | deleted heff => exact heff.inv hinv
  | linked heff => exact heff.inv hinv

/-- Every page a history reaches is well-formed. -/
theorem heapInv_of_reachable {f : Frame} (h : heapSystem.Reachable f) : HeapInv f.page := by
  refine System.Reachable.invariant (fun f => HeapInv f.page) ?_ ?_ h
  · rintro _ ⟨f₀, type, rfl⟩
    exact heapInv_init f₀ type
  · rintro f op _ hinv ⟨hb, rfl⟩
    exact (HeapOp.outcome hinv hb).inv hinv

/-! ## Section 6: Where an operation may write -/

/-- The slot a call addresses: for an insert, the one it is about to create. -/
def HeapOp.target (f : Frame) : HeapOp → Option Nat
  | .insert .. => some (heapMeta f.page).nr_slots.toNat
  | .overwrite slot_idx .. => some slot_idx.toNat
  | .retire slot_idx => some slot_idx.toNat
  | .delete slot_idx _ => some slot_idx.toNat
  | .setNext _ => none

/-- Only an insert counts a slot, and takes space for it. -/
def HeapOp.inserts : HeapOp → Bool
  | .insert .. => true
  | _ => false

/-- The slot whose directory entry a call changes. -/
def HeapOp.retired : HeapOp → Option Nat
  | .retire slot_idx => some slot_idx.toNat
  | _ => none

/-- A call leaves alone the page header, the metadata unless it inserts, every
    directory entry but the one it retires, the tuples of all slots it does not
    address, the tail link unless it sets it, and everything behind the page. -/
structure HeapOp.Confined (f : Frame) (op : HeapOp) : Prop where
  header : ∀ a < KDS_HEAP_META_OFFSET, (op.run f).page a = f.page a
  metadata : op.inserts = false →
    ∀ a, KDS_HEAP_META_OFFSET ≤ a → a < KDS_HEAP_AREA_OFFSET → (op.run f).page a = f.page a
  directory : ∀ i < (heapMeta f.page).nr_slots.toNat, op.retired ≠ some i →
    ∀ a, heap_slot_ptr i ≤ a → a < heap_slot_ptr i + KDS_HEAP_SLOT_SIZE →
      (op.run f).page a = f.page a
  tuples : ∀ i, LiveSlot f.page i → op.target f ≠ some i →
    ∀ a, slotOffset f.page i ≤ a → a < slotOffset f.page i + slotLength f.page i →
      (op.run f).page a = f.page a
  tail : (∀ next, op ≠ .setNext next) →
    ∀ a, KDS_HEAP_NEXT_PAGE_OFFSET ≤ a → a < KDS_PAGE_SIZE → (op.run f).page a = f.page a
  beyond : ∀ a, KDS_PAGE_SIZE ≤ a → (op.run f).page a = f.page a

theorem HeapOp.Outcome.confined {f : Frame} {op : HeapOp} (hinv : HeapInv f.page)
    (h : op.Outcome f (op.run f)) : op.Confined f := by
  have hlow := hinv.lower_eq
  have hle := hinv.lower_le
  have hup := hinv.upper_le
  simp only [KDS_HEAP_AREA_OFFSET, KDS_HEAP_META_OFFSET, KDS_PAGE_HDR_SIZE, KDS_HEAP_META_SIZE,
    KDS_HEAP_SLOT_SIZE] at hlow
  simp only [KDS_HEAP_NEXT_PAGE_OFFSET, KDS_PAGE_SIZE] at hup
  -- a rewrite of slot `k` changes nothing outside that slot's own range
  have hrewrite : ∀ (k : Nat) (hdr : HeapTupleHdr) (pl : List UInt8),
      op.target f = some k → RewriteEffect f.page (op.run f).page k hdr pl → op.Confined f := by
    intro k hdr pl ht heff
    have harea := hinv.area_le heff.live
    have hend := hinv.end_le k heff.live
    simp only [KDS_HEAP_NEXT_PAGE_OFFSET, KDS_PAGE_SIZE] at hend
    constructor
    · intro a ha
      exact heff.outside a (by simp at ha; omega)
    · intro _ a _ ha
      exact heff.outside a (by simp at ha; omega)
    · intro i hi _ a _ ha'
      exact heff.outside a (by simp [heap_slot_ptr] at ha'; omega)
    · intro i hi hne a ha ha'
      have hik : i ≠ k := by
        rintro rfl
        exact hne ht
      exact heff.other hinv hi hik ha ha'
    · intro _ a ha _
      exact heff.outside a (by simp at ha; omega)
    · intro a ha
      exact heff.outside a (by simp at ha; omega)
  generalize hf' : op.run f = f' at h hrewrite
  cases h with
  | failed =>
    constructor <;> intros <;> rw [hf']
  | inserted tid _ _ heff =>
    constructor
    · intro a ha
      rw [hf']
      exact heff.header a ha
    · intro hno
      cases hno
    · intro i hi _ a ha ha'
      rw [hf']
      exact heff.directory a (by simp [heap_slot_ptr] at ha ⊢; omega)
        (by simp [heap_slot_ptr] at ha'; omega)
    · intro i hi _ a ha _
      have := hinv.upper_le_offset i hi
      rw [hf']
      exact heff.tuples a (by omega)
    · intro _ a ha _
      rw [hf']
      exact heff.tuples a (by simp at ha; omega)
    · intro a ha
      rw [hf']
      exact heff.tuples a (by simp at ha; omega)
  | overwritten heff => exact hrewrite _ _ _ rfl heff
  | deleted heff => exact hrewrite _ _ _ rfl heff
  | @retired slot_idx _ heff =>
    have hin := heff.inRange
    constructor
    · intro a ha
      rw [hf']
      exact heff.outside a (by simp [heap_slot_ptr] at ha ⊢; omega)
    · intro _ a _ ha
      rw [hf']
      exact heff.outside a (by simp [heap_slot_ptr] at ha ⊢; omega)
    · intro i hi hne a ha ha'
      have hik : i ≠ slot_idx.toNat := by
        rintro rfl
        exact hne rfl
      rw [hf']
      exact heff.outside a (by simp [heap_slot_ptr] at ha ha' ⊢; omega)
    · intro i hi _ a ha _
      have := hinv.area_le hi
      rw [hf']
      exact heff.tuples (by omega)
    · intro _ a ha _
      rw [hf']
      exact heff.tuples (by simp at ha; omega)
    · intro a ha
      rw [hf']
      exact heff.tuples (by simp at ha; omega)
  | @linked next _ heff =>
    constructor
    · intro a ha
      rw [hf']
      exact heff.outside a (by simp at ha ⊢; omega)
    · intro _ a _ ha
      rw [hf']
      exact heff.outside a (by simp at ha ⊢; omega)
    · intro i hi _ a _ ha'
      rw [hf']
      exact heff.outside a (by simp [heap_slot_ptr] at ha' ⊢; omega)
    · intro i hi _ a _ ha'
      have := hinv.end_le i hi
      rw [hf']
      exact heff.outside a (by omega)
    · intro hne
      exact absurd rfl (hne next)
    · intro a ha
      rw [hf']
      exact heff.outside a (Or.inr ha)

/-- **Heap page layout**: in every reachable page the representation
    invariant holds, and no call writes outside what it addresses. -/
theorem heap_page_layout (f : Frame) (h : heapSystem.Reachable f) :
    HeapInv f.page ∧ ∀ op : HeapOp, op.Bounded → op.Confined f := by
  have hinv := heapInv_of_reachable h
  exact ⟨hinv, fun op hb => (HeapOp.outcome hinv hb).confined hinv⟩

/-- A frame with an all-zero buffer, as the page allocator hands it out. -/
def blankFrame (id : PageId) : Frame where
  id := id
  hdr := { type := .invalid, crc := 0, flags := KDS_PAGE_FLAG_ALLOC, reserved1 := fun _ => 0 }
  page := fun _ => 0

/-- A page that has just been given its first row, and an update of that row. -/
theorem heap_page_layout_first_row :
    heapSystem.Reachable
        (HeapOp.run (heap_init_page (blankFrame 200)) (.insert (some fun _ => 7) 8 1 0 0 true)) ∧
      HeapInv (HeapOp.run (heap_init_page (blankFrame 200))
        (.insert (some fun _ => 7) 8 1 0 0 true)).page ∧
      (HeapOp.overwrite 0 (some fun _ => 9) 4 2 0 0).Confined
        (HeapOp.run (heap_init_page (blankFrame 200)) (.insert (some fun _ => 7) 8 1 0 0 true)) := by
  have h : heapSystem.Reachable
      (HeapOp.run (heap_init_page (blankFrame 200)) (.insert (some fun _ => 7) 8 1 0 0 true)) :=
    .step (.insert (some fun _ => 7) 8 1 0 0 true) (.init ⟨blankFrame 200, .heap, rfl⟩)
      ⟨trivial, rfl⟩
  obtain ⟨hinv, hconfined⟩ := heap_page_layout _ h
  exact ⟨h, hinv, hconfined _ (by decide : (4 : UInt16).toNat ≤ KDS_PAGE_SIZE)⟩

end Kds
