import Kds.Heap.Table

/-! # Undo entries and tuple updates

    `undo.c`: an update first copies the current version of a tuple into an
    undo entry, a fixed-size tuple on an undo page, and then overwrites the
    tuple in place or retires its slot and inserts the new version. Either
    way the new version's `undo_ptr` is the packed address of the entry, and
    the entry's `prev_undo_ptr` is what the old version's `undo_ptr` was.

    The frames of an update are two different pages; callers hold the undo
    page apart from the table's pages.
-/

open Bytes Lts

namespace Kds

/-! ## Section 1: Tuple addresses in a word -/

/-- `kds_heap_tid_pack`. -/
def kds_heap_tid_pack (tid : HeapTid) : UInt64 :=
  (tid.page_id &&& (0xFFFFFFFFFFFF : UInt64)) ||| (tid.slot.toUInt64 <<< 48)

/-- `kds_heap_tid_unpack`. -/
def kds_heap_tid_unpack (packed : UInt64) : HeapTid where
  page_id := packed &&& (0xFFFFFFFFFFFF : UInt64)
  slot := (packed >>> 48).toUInt16

/-! ## Section 2: Undo entries -/

@[simp] def KDS_UNDO_OP_UPDATE : UInt8 := 1

abbrev KDS_UNDO_MAX_OLD_DATA : Nat := 256

/-- `sizeof(kds_undo_entry_t)`: packed, but `kds_heap_tid_t` is not, so the
    address takes sixteen bytes. -/
abbrev KDS_UNDO_ENTRY_SIZE : Nat := 8 + 16 + 8 + 8 + 8 + 1 + 2 + KDS_UNDO_MAX_OLD_DATA

/-- `kds_undo_entry_t`. -/
structure UndoEntry where
  owner_oid : UInt64
  old_tid : HeapTid
  prev_undo_ptr : UInt64
  xmin : UInt64
  xmax : UInt64
  operation : UInt8
  old_data_len : UInt16
  old_data : Fin KDS_UNDO_MAX_OLD_DATA → UInt8

/-- The six bytes behind the slot pad the address. -/
def HeapTid.bytes (tid : HeapTid) : List UInt8 :=
  u64Bytes tid.page_id ++ u16Bytes tid.slot ++ List.replicate 6 0

def UndoEntry.bytes (entry : UndoEntry) : List UInt8 :=
  u64Bytes entry.owner_oid ++ entry.old_tid.bytes ++ u64Bytes entry.prev_undo_ptr ++
    u64Bytes entry.xmin ++ u64Bytes entry.xmax ++ [entry.operation] ++
    u16Bytes entry.old_data_len ++ List.ofFn entry.old_data

/-- The entry a buffer of its size holds. -/
def undoEntryAt (m : Mem) : UndoEntry where
  owner_oid := m.readU64 0
  old_tid := { page_id := m.readU64 8, slot := m.readU16 16 }
  prev_undo_ptr := m.readU64 24
  xmin := m.readU64 32
  xmax := m.readU64 40
  operation := m 48
  old_data_len := m.readU16 49
  old_data i := m (51 + i)

/-- The payload an entry keeps: `old_data_len` bytes of its array. -/
def UndoEntry.data (entry : UndoEntry) : List UInt8 :=
  (List.ofFn entry.old_data).take entry.old_data_len.toNat

/-- A buffer that starts with `bs`. -/
def bufferOf (bs : List UInt8) : Mem := Mem.write (fun _ => 0) 0 bs

/-- `kds_undo_write_entry`. -/
def kds_undo_write_entry (undo_frame : Frame) (owner_oid : UInt64) (old_tid : HeapTid)
    (prev_undo_ptr xmin xmax : UInt64) (operation : UInt8) (old_data : Option Mem)
    (old_data_len : UInt16) (write_xid : UInt64) (out_tid : Bool) :
    Except Errno HeapTid × Frame :=
  if !out_tid then (.error .EINVAL, undo_frame)
  else if old_data_len.toNat > KDS_UNDO_MAX_OLD_DATA then (.error .EMSGSIZE, undo_frame)
  else if old_data_len > 0 && old_data.isNone then (.error .EINVAL, undo_frame)
  else
    -- the array is zeroed before the payload is copied in
    let entry : UndoEntry :=
      { owner_oid := owner_oid
        old_tid := old_tid
        prev_undo_ptr := prev_undo_ptr
        xmin := xmin
        xmax := xmax
        operation := operation
        old_data_len := old_data_len
        old_data := fun i => bufferOf (payload old_data old_data_len) i }
    heap_insert_tuple_ex undo_frame (some (bufferOf entry.bytes))
      (UInt16.ofNat KDS_UNDO_ENTRY_SIZE) write_xid 0 0 true

/-- `kds_undo_read_entry`. -/
def kds_undo_read_entry (undo_frame : Frame) (slot : UInt16) : Except Errno UndoEntry :=
  match heap_read_tuple undo_frame slot true (UInt16.ofNat KDS_UNDO_ENTRY_SIZE) with
  | .error e => .error e
  | .ok (_, out_entry) => .ok (undoEntryAt (bufferOf out_entry))

/-! ## Section 3: Updates -/

/-- The second half of `kds_heap_update_tuple`: the old version is in the undo
    entry at `undo_ptr`, the new one replaces it. -/
def updatePlace (target_frame : Frame) (slot_idx : UInt16) (new_data : Option Mem)
    (new_data_len : UInt16) (xid undo_ptr : UInt64) : Except Errno HeapTid × Frame :=
  match heap_slot_capacity target_frame slot_idx with
  | .error e => (.error e, target_frame)
  | .ok old_capacity =>
    if new_data_len ≤ old_capacity then
      match heap_overwrite_tuple target_frame slot_idx new_data new_data_len xid 0 undo_ptr with
      | (.error e, target_frame) => (.error e, target_frame)
      | (.ok (), target_frame) =>
        (.ok { page_id := target_frame.id, slot := slot_idx }, target_frame)
    else
      match heap_retire_slot target_frame slot_idx with
      | (.error e, target_frame) => (.error e, target_frame)
      | (.ok (), target_frame) =>
        heap_insert_tuple_ex target_frame new_data new_data_len xid 0 undo_ptr true

/-- `kds_heap_update_tuple`. `kmalloc` says whether the buffer for the old
    payload can be had. -/
def kds_heap_update_tuple (target_frame : Frame) (slot_idx : UInt16) (new_data : Option Mem)
    (new_data_len : UInt16) (xid owner_oid : UInt64) (undo_frame : Frame) (kmalloc : Bool) :
    Except Errno HeapTid × Frame × Frame :=
  if new_data_len > 0 && new_data.isNone then (.error .EINVAL, target_frame, undo_frame)
  else
    -- the header first, to learn the size of the old payload
    match heap_read_tuple target_frame slot_idx false 0 with
    | .error e => (.error e, target_frame, undo_frame)
    | .ok (old_hdr, _) =>
      if old_hdr.data_len.toNat > KDS_UNDO_MAX_OLD_DATA then
        (.error .EMSGSIZE, target_frame, undo_frame)
      else if old_hdr.data_len > 0 && !kmalloc then (.error .ENOMEM, target_frame, undo_frame)
      else
        let read : Except Errno (HeapTupleHdr × Option Mem) :=
          if old_hdr.data_len > 0 then
            match heap_read_tuple target_frame slot_idx true old_hdr.data_len with
            | .error e => .error e
            | .ok (hdr, old_data) => .ok (hdr, some (bufferOf old_data))
          else .ok (old_hdr, none)
        match read with
        | .error e => (.error e, target_frame, undo_frame)
        | .ok (old_hdr, old_data) =>
          match kds_undo_write_entry undo_frame owner_oid
              { page_id := target_frame.id, slot := slot_idx } old_hdr.undo_ptr old_hdr.xmin xid
              KDS_UNDO_OP_UPDATE old_data old_hdr.data_len xid true with
          | (.error e, undo_frame) => (.error e, target_frame, undo_frame)
          | (.ok undo_tid, undo_frame) =>
            let (ret, target_frame) := updatePlace target_frame slot_idx new_data new_data_len xid
              (kds_heap_tid_pack undo_tid)
            (ret, target_frame, undo_frame)

/-! ## Section 4: Round trips -/

theorem toNat_kds_heap_tid_pack {tid : HeapTid} (hid : tid.page_id.toNat < 2 ^ 48) :
    (kds_heap_tid_pack tid).toNat = tid.slot.toNat * 2 ^ 48 + tid.page_id.toNat := by
  have hslot := tid.slot.toNat_lt
  have hlow : (tid.page_id &&& (0xFFFFFFFFFFFF : UInt64)).toNat = tid.page_id.toNat := by
    rw [UInt64.toNat_and, show (0xFFFFFFFFFFFF : UInt64).toNat = 2 ^ 48 - 1 from rfl,
      Nat.and_two_pow_sub_one_eq_mod, Nat.mod_eq_of_lt hid]
  have hhigh : (tid.slot.toUInt64 <<< 48).toNat = tid.slot.toNat <<< 48 := by
    rw [UInt64.toNat_shiftLeft, UInt16.toNat_toUInt64, Nat.shiftLeft_eq, Nat.shiftLeft_eq]
    simp only [UInt64.reduceToNat, Nat.reduceMod, Nat.reducePow] at hslot ⊢
    omega
  unfold kds_heap_tid_pack
  rw [UInt64.toNat_or, hlow, hhigh, Nat.or_comm, ← Nat.shiftLeft_add_eq_or_of_lt hid,
    Nat.shiftLeft_eq]

/-- A packed address with a page id of 48 bits unpacks to what was packed. -/
theorem kds_heap_tid_unpack_pack {tid : HeapTid} (hid : tid.page_id.toNat < 2 ^ 48) :
    kds_heap_tid_unpack (kds_heap_tid_pack tid) = tid := by
  have hslot := tid.slot.toNat_lt
  have hpack := toNat_kds_heap_tid_pack hid
  have hpage : kds_heap_tid_pack tid &&& (0xFFFFFFFFFFFF : UInt64) = tid.page_id := by
    apply UInt64.toNat_inj.mp
    rw [UInt64.toNat_and, show (0xFFFFFFFFFFFF : UInt64).toNat = 2 ^ 48 - 1 from rfl,
      Nat.and_two_pow_sub_one_eq_mod, hpack]
    omega
  have hidx : (kds_heap_tid_pack tid >>> 48).toUInt16 = tid.slot := by
    apply UInt16.toNat_inj.mp
    rw [UInt64.toNat_toUInt16, UInt64.toNat_shiftRight, hpack, Nat.shiftRight_eq_div_pow]
    simp only [UInt64.reduceToNat, Nat.reduceMod, Nat.reducePow] at hslot hid ⊢
    omega
  unfold kds_heap_tid_unpack
  rw [hpage, hidx]

/-- Zero is kept for "no entry": no page has id 0. -/
theorem kds_heap_tid_pack_ne_zero {tid : HeapTid} (hid : tid.page_id.toNat < 2 ^ 48)
    (hne : tid.page_id ≠ 0) : kds_heap_tid_pack tid ≠ 0 := by
  intro hzero
  apply hne
  apply UInt64.toNat_inj.mp
  have hpack := toNat_kds_heap_tid_pack hid
  rw [hzero] at hpack
  simp only [UInt64.toNat_zero] at hpack ⊢
  omega

@[simp] theorem UndoEntry.length_bytes (entry : UndoEntry) :
    entry.bytes.length = KDS_UNDO_ENTRY_SIZE := by
  simp only [UndoEntry.bytes, HeapTid.bytes, List.length_append, length_u64Bytes, length_u16Bytes,
    List.length_replicate, List.length_cons, List.length_nil, List.length_ofFn]

/-- Byte `i` of an array that ends a buffer. -/
theorem bufferOf_array {k : Nat} (xs : List UInt8) (data : Fin k → UInt8) (i : Fin k) :
    bufferOf (xs ++ List.ofFn data) (xs.length + i) = data i := by
  have hi : xs.length + i.val < (xs ++ List.ofFn data).length := by
    rw [List.length_append, List.length_ofFn]
    omega
  have h := @Mem.write_inside (fun _ => 0) 0 _ _ hi
  rw [Nat.zero_add] at h
  unfold bufferOf
  rw [h, List.getElem_append_right (Nat.le_add_right _ _)]
  simp

/-- Reading the bytes of an entry back gives the entry. -/
theorem undoEntryAt_bufferOf (entry : UndoEntry) : undoEntryAt (bufferOf entry.bytes) = entry := by
  obtain ⟨oid, ⟨pid, sl⟩, prev, xmin, xmax, op, len, data⟩ := entry
  unfold undoEntryAt bufferOf UndoEntry.bytes HeapTid.bytes
  have h₀ := Mem.readU64_write_mid (fun _ => 0) 0 [] (u64Bytes pid ++ u16Bytes sl ++
    List.replicate 6 0 ++ u64Bytes prev ++ u64Bytes xmin ++ u64Bytes xmax ++ [op] ++
    u16Bytes len ++ List.ofFn data) oid
  have h₁ := Mem.readU64_write_mid (fun _ => 0) 0 (u64Bytes oid) (u16Bytes sl ++
    List.replicate 6 0 ++ u64Bytes prev ++ u64Bytes xmin ++ u64Bytes xmax ++ [op] ++
    u16Bytes len ++ List.ofFn data) pid
  have h₂ := Mem.readU16_write_mid (fun _ => 0) 0 (u64Bytes oid ++ u64Bytes pid)
    (List.replicate 6 0 ++ u64Bytes prev ++ u64Bytes xmin ++ u64Bytes xmax ++ [op] ++
    u16Bytes len ++ List.ofFn data) sl
  have h₃ := Mem.readU64_write_mid (fun _ => 0) 0 (u64Bytes oid ++ u64Bytes pid ++ u16Bytes sl ++
    List.replicate 6 0) (u64Bytes xmin ++ u64Bytes xmax ++ [op] ++ u16Bytes len ++
    List.ofFn data) prev
  have h₄ := Mem.readU64_write_mid (fun _ => 0) 0 (u64Bytes oid ++ u64Bytes pid ++ u16Bytes sl ++
    List.replicate 6 0 ++ u64Bytes prev) (u64Bytes xmax ++ [op] ++ u16Bytes len ++
    List.ofFn data) xmin
  have h₅ := Mem.readU64_write_mid (fun _ => 0) 0 (u64Bytes oid ++ u64Bytes pid ++ u16Bytes sl ++
    List.replicate 6 0 ++ u64Bytes prev ++ u64Bytes xmin) ([op] ++ u16Bytes len ++
    List.ofFn data) xmax
  have h₆ := Mem.byte_write_mid (fun _ => 0) 0 (u64Bytes oid ++ u64Bytes pid ++ u16Bytes sl ++
    List.replicate 6 0 ++ u64Bytes prev ++ u64Bytes xmin ++ u64Bytes xmax) (u16Bytes len ++
    List.ofFn data) op
  have h₇ := Mem.readU16_write_mid (fun _ => 0) 0 (u64Bytes oid ++ u64Bytes pid ++ u16Bytes sl ++
    List.replicate 6 0 ++ u64Bytes prev ++ u64Bytes xmin ++ u64Bytes xmax ++ [op])
    (List.ofFn data) len
  simp only [List.append_assoc, List.nil_append, List.length_append, List.length_cons,
    List.length_nil, List.length_replicate, length_u64Bytes, length_u16Bytes, Nat.reduceAdd,
    Nat.zero_add, Nat.add_zero] at h₀ h₁ h₂ h₃ h₄ h₅ h₆ h₇ ⊢
  rw [h₀, h₁, h₂, h₃, h₄, h₅, h₆, h₇]
  congr 1
  funext i
  have h₈ := bufferOf_array (u64Bytes oid ++ u64Bytes pid ++ u16Bytes sl ++ List.replicate 6 0 ++
    u64Bytes prev ++ u64Bytes xmin ++ u64Bytes xmax ++ [op] ++ u16Bytes len) data i
  simp only [bufferOf, List.append_assoc, List.length_append, List.length_cons, List.length_nil,
    List.length_replicate, length_u64Bytes, length_u16Bytes, Nat.reduceAdd] at h₈
  exact h₈

/-- The array of an entry starts with the payload it was filled from. -/
theorem take_bufferOf {k : Nat} {bs : List UInt8} (h : bs.length ≤ k) :
    (List.ofFn fun i : Fin k => bufferOf bs i).take bs.length = bs := by
  apply List.ext_getElem
  · rw [List.length_take, List.length_ofFn, Nat.min_eq_left h]
  · intro i _ hi
    have hw := @Mem.write_inside (fun _ => 0) 0 _ _ hi
    rw [Nat.zero_add] at hw
    simpa [bufferOf] using hw

theorem length_payload {data : Option Mem} {data_len : UInt16}
    (h : ¬ (data_len > 0 && data.isNone) = true) :
    (payload data data_len).length = data_len.toNat := by
  cases data with
  | none => rw [data_len_of_null h rfl]; rfl
  | some d => simp [payload]

/-! ## Section 5: What the calls do to the slot tables -/

/-- A table with one more entry. -/
def SlotTable.append (T : SlotTable) (t : Tuple) : SlotTable :=
  { T with entries := T.entries ++ [some t] }

theorem SlotTable.Holds.append {T : SlotTable} {i : Nat} {t : Tuple} (h : T.Holds i t)
    (new : Tuple) : (T.append new).Holds i t := by
  unfold SlotTable.Holds SlotTable.append at *
  rw [List.getElem?_append_left, h]
  by_contra hlen
  rw [List.getElem?_eq_none (by omega)] at h
  cases h

theorem SlotTable.append_holds (T : SlotTable) (new : Tuple) :
    (T.append new).Holds T.entries.length new := by
  simp [SlotTable.Holds, SlotTable.append]

theorem liveRows_append {f f' : Frame} {t : Tuple} (h : slotTable f' = (slotTable f).append t) :
    liveRows f' = liveRows f ++ [t] := by
  unfold liveRows
  rw [h]
  simp [SlotTable.append]

theorem SlotTable.Holds.lt {T : SlotTable} {i : Nat} {t : Tuple} (h : T.Holds i t) :
    i < T.entries.length := by
  by_contra hlen
  unfold SlotTable.Holds at h
  rw [List.getElem?_eq_none (by omega)] at h
  cases h

theorem SlotTable.Holds.put_other {T : SlotTable} {i j : Nat} {t : Tuple} (h : T.Holds i t)
    (hne : j ≠ i) (e : Option Tuple) : (T.put j e).Holds i t := by
  unfold SlotTable.Holds SlotTable.put at *
  rw [List.getElem?_set_ne hne, h]

theorem SlotTable.put_holds {T : SlotTable} {i : Nat} (h : i < T.entries.length) (t : Tuple) :
    (T.put i (some t)).Holds i t := by
  unfold SlotTable.Holds SlotTable.put
  rw [List.getElem?_set_self h]

/-- A frame after a call: the same page, of the same type and well-formed. -/
structure Frame.Kept (f f' : Frame) : Prop where
  id : f'.id = f.id
  type : f'.hdr.type = f.hdr.type
  inv : HeapInv f'.page

theorem HeapOp.run_keeps (f : Frame) (op : HeapOp) :
    (op.run f).id = f.id ∧ (op.run f).hdr.type = f.hdr.type := by
  cases op with
  | insert =>
    unfold HeapOp.run heap_insert_tuple_ex
    dsimp only
    split_ifs <;> exact ⟨rfl, rfl⟩
  | overwrite =>
    unfold HeapOp.run heap_overwrite_tuple
    dsimp only
    split_ifs <;> exact ⟨rfl, rfl⟩
  | retire =>
    unfold HeapOp.run heap_retire_slot
    dsimp only
    split_ifs <;> exact ⟨rfl, rfl⟩
  | delete =>
    unfold HeapOp.run heap_delete_tuple
    dsimp only
    split_ifs <;> exact ⟨rfl, rfl⟩
  | setNext => exact ⟨rfl, rfl⟩

theorem HeapOp.run_kept {f : Frame} (op : HeapOp) (hinv : HeapInv f.page) (hb : op.Bounded) :
    f.Kept (op.run f) where
  id := (op.run_keeps f).1
  type := (op.run_keeps f).2
  inv := (HeapOp.outcome hinv hb).inv hinv

theorem Frame.Kept.refl {f : Frame} (hinv : HeapInv f.page) : f.Kept f := ⟨rfl, rfl, hinv⟩

theorem Frame.Kept.trans {f g h : Frame} (h₁ : f.Kept g) (h₂ : g.Kept h) : f.Kept h :=
  ⟨h₂.id.trans h₁.id, h₂.type.trans h₁.type, h₂.inv⟩

theorem heap_insert_table {f f' : Frame} {data : Option Mem} {data_len : UInt16}
    {xmin xmax undo_ptr : UInt64} {res : Except Errno HeapTid} (hinv : HeapInv f.page)
    (h : heap_insert_tuple_ex f data data_len xmin xmax undo_ptr true = (res, f')) :
    f.Kept f' ∧ ((∃ e, res = .error e ∧ f' = f) ∨
      ∃ tid, res = .ok tid ∧ tid.page_id = f.id ∧
        tid.slot.toNat = (slotTable f).entries.length ∧
        slotTable f' = (slotTable f).append ⟨xmin, xmax, undo_ptr, payload data data_len⟩) := by
  have hkept : f.Kept f' := by
    have := HeapOp.run_kept (.insert data data_len xmin xmax undo_ptr true) hinv trivial
    simp only [HeapOp.run, h] at this
    exact this
  refine ⟨hkept, ?_⟩
  cases res with
  | error e => exact .inl ⟨e, rfl, heap_insert_error h⟩
  | ok tid =>
    have hspec := (heapRefines_of_inv hinv).insert data data_len xmin xmax undo_ptr true
    rw [h] at hspec
    exact .inr ⟨tid, rfl, hspec⟩

/-- `kds_undo_write_entry` fails and leaves the page as it was, or adds one entry. -/
theorem kds_undo_write_spec {f f' : Frame} {owner_oid prev xmin xmax write_xid : UInt64}
    {old_tid : HeapTid} {operation : UInt8} {old_data : Option Mem} {old_data_len : UInt16}
    {out_tid : Bool} {res : Except Errno HeapTid} (hinv : HeapInv f.page)
    (h : kds_undo_write_entry f owner_oid old_tid prev xmin xmax operation old_data old_data_len
      write_xid out_tid = (res, f')) :
    f.Kept f' ∧ ((∃ e, res = .error e ∧ f' = f) ∨
      ∃ tid entry, res = .ok tid ∧ tid.page_id = f.id ∧
        tid.slot.toNat = (slotTable f).entries.length ∧
        slotTable f' = (slotTable f).append ⟨write_xid, 0, 0, UndoEntry.bytes entry⟩ ∧
        entry.prev_undo_ptr = prev ∧ entry.xmin = xmin ∧ entry.xmax = xmax ∧
        entry.data = payload old_data old_data_len) := by
  -- the three checks come before the page is touched
  unfold kds_undo_write_entry at h
  by_cases hout : (!out_tid) = true
  · rw [if_pos hout] at h
    cases h
    exact ⟨.refl hinv, .inl ⟨_, rfl, rfl⟩⟩
  rw [if_neg hout] at h
  by_cases hsize : old_data_len.toNat > KDS_UNDO_MAX_OLD_DATA
  · rw [if_pos hsize] at h
    cases h
    exact ⟨.refl hinv, .inl ⟨_, rfl, rfl⟩⟩
  rw [if_neg hsize] at h
  by_cases hnull : (old_data_len > 0 && old_data.isNone) = true
  · rw [if_pos hnull] at h
    cases h
    exact ⟨.refl hinv, .inl ⟨_, rfl, rfl⟩⟩
  rw [if_neg hnull] at h
  obtain ⟨hkept, herr | ⟨tid, hres, hid, hslot, htable⟩⟩ := heap_insert_table hinv h
  · exact ⟨hkept, .inl herr⟩
  -- the entry on the stack of the call, with the old payload copied in
  · let entry : UndoEntry :=
      { owner_oid := owner_oid, old_tid := old_tid, prev_undo_ptr := prev, xmin := xmin,
        xmax := xmax, operation := operation, old_data_len := old_data_len,
        old_data := fun i => bufferOf (payload old_data old_data_len) i }
    refine ⟨hkept, .inr ⟨tid, entry, hres, hid, hslot, ?_, rfl, rfl, rfl, ?_⟩⟩
    · rw [htable]
      -- what is inserted are the entry's own bytes
      have hread := Mem.read_write_same (fun _ => 0) 0 entry.bytes
      rw [UndoEntry.length_bytes] at hread
      have hpay : payload (some (bufferOf entry.bytes)) (UInt16.ofNat KDS_UNDO_ENTRY_SIZE) =
          entry.bytes := hread
      rw [hpay]
    · have hlen := length_payload hnull
      unfold UndoEntry.data
      show (List.ofFn entry.old_data).take old_data_len.toNat = _
      rw [← hlen]
      exact take_bufferOf (by rw [hlen]; omega)

/-- An entry on an undo page reads back. -/
theorem kds_undo_read_spec {f : Frame} {slot : UInt16} {entry : UndoEntry} {t : Tuple}
    (hinv : HeapInv f.page) (h : (slotTable f).Holds slot.toNat t) (ht : t.data = entry.bytes) :
    kds_undo_read_entry f slot = .ok entry := by
  have hlen : t.data.length = KDS_UNDO_ENTRY_SIZE := by rw [ht, UndoEntry.length_bytes]
  obtain ⟨hdr, buf, hread, -, -, -, -, hbuf, htake⟩ := (heapRefines_of_inv hinv).read slot
    (UInt16.ofNat KDS_UNDO_ENTRY_SIZE) t h (by rw [hlen]; decide)
  have heq : buf = entry.bytes := by
    rw [hlen, List.take_of_length_le (by rw [hbuf]; decide)] at htake
    rw [htake, ht]
  unfold kds_undo_read_entry
  rw [hread, heq]
  exact congrArg Except.ok (undoEntryAt_bufferOf entry)

/-- How an update may leave the table of the target page: the new version in
    the old slot or in a new one, or no new version. -/
inductive UpdatePlaced (T : SlotTable) (id : PageId) (slot_idx : UInt16) (new : Tuple) :
    Except Errno HeapTid → SlotTable → Prop where
  | overwritten : slot_idx.toNat < T.entries.length →
      UpdatePlaced T id slot_idx new (.ok ⟨id, slot_idx⟩) (T.put slot_idx.toNat (some new))
  | relocated (slot : UInt16) : slot.toNat = T.entries.length → slot_idx.toNat < T.entries.length →
      UpdatePlaced T id slot_idx new (.ok ⟨id, slot⟩) ((T.put slot_idx.toNat none).append new)
  | untouched (e : Errno) : UpdatePlaced T id slot_idx new (.error e) T
  | retired (e : Errno) : UpdatePlaced T id slot_idx new (.error e) (T.put slot_idx.toNat none)

@[simp] theorem SlotTable.length_put (T : SlotTable) (i : Nat) (e : Option Tuple) :
    (T.put i e).entries.length = T.entries.length := by
  simp [SlotTable.put]

/-- The capacity of a live slot on a well-formed page is less than a page. -/
theorem heap_slot_capacity_le {f : Frame} {slot_idx old_capacity : UInt16} (hinv : HeapInv f.page)
    (h : heap_slot_capacity f slot_idx = .ok old_capacity) :
    old_capacity.toNat ≤ KDS_PAGE_SIZE := by
  unfold heap_slot_capacity at h
  dsimp only at h
  split_ifs at h with hidx hdead
  cases h
  have hlive : LiveSlot f.page slot_idx.toNat :=
    ⟨by simpa [UInt16.le_iff_toNat_le] using hidx, by simpa using hdead⟩
  have hfit := hinv.hdr_fits _ hlive
  have hend := hinv.end_le _ hlive
  unfold slotLength at hfit hend
  simp only [KDS_HEAP_TUPLE_HDR_SIZE, KDS_HEAP_NEXT_PAGE_OFFSET, KDS_PAGE_SIZE] at hfit hend ⊢
  have hle : UInt16.ofNat 28 ≤ (heapSlot f.page slot_idx.toNat).length := by
    rw [UInt16.le_iff_toNat_le]
    exact hfit
  rw [UInt16.toNat_sub_of_le _ _ hle]
  omega

theorem updatePlace_spec {f f' : Frame} {slot_idx : UInt16} {new_data : Option Mem}
    {new_data_len : UInt16} {xid undo_ptr : UInt64} {res : Except Errno HeapTid}
    (hinv : HeapInv f.page)
    (h : updatePlace f slot_idx new_data new_data_len xid undo_ptr = (res, f')) :
    f.Kept f' ∧ UpdatePlaced (slotTable f) f.id slot_idx ⟨xid, 0, undo_ptr, payload new_data new_data_len⟩
      res (slotTable f') := by
  unfold updatePlace at h
  cases hcap : heap_slot_capacity f slot_idx with
  | error e =>
    rw [hcap] at h
    cases h
    exact ⟨.refl hinv, .untouched e⟩
  | ok old_capacity =>
    rw [hcap] at h
    dsimp only at h
    by_cases hfit : new_data_len ≤ old_capacity
    · rw [if_pos hfit] at h
      -- an in-place overwrite is shorter than the slot, so its length is bounded
      have hlen : new_data_len.toNat ≤ KDS_PAGE_SIZE :=
        Nat.le_trans (UInt16.le_iff_toNat_le.mp hfit) (heap_slot_capacity_le hinv hcap)
      have hkept := HeapOp.run_kept (.overwrite slot_idx new_data new_data_len xid 0 undo_ptr)
        hinv hlen
      have hspec := (heapRefines_of_inv hinv).overwrite slot_idx new_data new_data_len xid 0
        undo_ptr hlen
      cases hrun : heap_overwrite_tuple f slot_idx new_data new_data_len xid 0 undo_ptr with
      | mk ret g =>
        simp only [HeapOp.run, hrun] at hkept hspec h
        cases ret with
        | error e =>
          cases h
          dsimp only at hspec
          rw [hspec]
          exact ⟨.refl hinv, .untouched e⟩
        | ok u =>
          cases h
          obtain ⟨⟨old, hold⟩, htable⟩ := hspec
          rw [htable, hkept.id]
          exact ⟨hkept, .overwritten hold.lt⟩
    · rw [if_neg hfit] at h
      have hkept := HeapOp.run_kept (.retire slot_idx) hinv trivial
      have hspec := (heapRefines_of_inv hinv).retire slot_idx
      cases hrun : heap_retire_slot f slot_idx with
      | mk ret g =>
        simp only [HeapOp.run, hrun] at hkept hspec h
        cases ret with
        | error e =>
          cases h
          dsimp only at hspec
          rw [hspec]
          exact ⟨.refl hinv, .untouched e⟩
        | ok u =>
          dsimp only at h hspec
          obtain ⟨hlt, htable⟩ := hspec
          obtain ⟨hkept', ⟨e, rfl, rfl⟩ | ⟨tid, rfl, hid, hslot, htable'⟩⟩ :=
            heap_insert_table hkept.inv h
          · rw [htable]
            exact ⟨hkept, .retired e⟩
          · obtain ⟨page_id, slot⟩ := tid
            dsimp only at hid hslot
            rw [htable', htable, hid, hkept.id]
            rw [htable, SlotTable.length_put] at hslot
            exact ⟨hkept.trans hkept', .relocated slot hslot hlt⟩

/-- The old version a successful read of `data_len` bytes returns. -/
theorem heap_read_exact {f : Frame} {slot_idx : UInt16} {hdr : HeapTupleHdr} {rest : List UInt8}
    (h : heap_read_tuple f slot_idx false 0 = .ok (hdr, rest)) :
    (slotTable f).Holds slot_idx.toNat
        ⟨hdr.xmin, hdr.xmax, hdr.undo_ptr,
          f.page.read (slotOffset f.page slot_idx.toNat + 28) hdr.data_len.toNat⟩ ∧
      heap_read_tuple f slot_idx true hdr.data_len =
        .ok (hdr, f.page.read (slotOffset f.page slot_idx.toNat + 28) hdr.data_len.toNat) := by
  unfold heap_read_tuple heapReadTuple at h
  by_cases hidx : slot_idx ≥ (heapMeta f.page).nr_slots
  · rw [if_pos hidx] at h
    cases h
  rw [if_neg hidx] at h
  by_cases hdead : (heapSlot f.page slot_idx.toNat).dead = true
  · simp only [hdead, if_true] at h
    cases h
  have hlive : LiveSlot f.page slot_idx.toNat :=
    ⟨by simpa [UInt16.le_iff_toNat_le] using hidx, by simpa using hdead⟩
  simp only [hdead, if_false, Bool.not_false, if_true, Bool.false_eq_true] at h
  obtain ⟨rfl, -⟩ := Prod.mk.inj (Except.ok.inj h)
  constructor
  · exact slotTable_holds_iff.mpr ⟨hlive, rfl⟩
  · rw [heap_read_live hlive]
    exact if_neg (by simp [slotOffset])

/-- `kds_heap_update_tuple` changes nothing, or adds an undo entry with the old
    version and then places the new one. -/
theorem kds_heap_update_spec {f u f' u' : Frame} {slot_idx : UInt16} {new_data : Option Mem}
    {new_data_len : UInt16} {xid owner_oid : UInt64} {kmalloc : Bool}
    {res : Except Errno HeapTid} (hf : HeapInv f.page) (hu : HeapInv u.page)
    (h : kds_heap_update_tuple f slot_idx new_data new_data_len xid owner_oid u kmalloc =
      (res, f', u')) :
    f.Kept f' ∧ u.Kept u' ∧
      ((∃ e, res = .error e ∧ f' = f ∧ u' = u) ∨
        ∃ old tid entry, (slotTable f).Holds slot_idx.toNat old ∧ tid.page_id = u.id ∧
          tid.slot.toNat = (slotTable u).entries.length ∧
          slotTable u' = (slotTable u).append ⟨xid, 0, 0, UndoEntry.bytes entry⟩ ∧
          entry.prev_undo_ptr = old.undo_ptr ∧ entry.xmin = old.xmin ∧ entry.xmax = xid ∧
          entry.data = old.data ∧
          UpdatePlaced (slotTable f) f.id slot_idx
            ⟨xid, 0, kds_heap_tid_pack tid, payload new_data new_data_len⟩ res (slotTable f')) := by
  have hsame : ∀ e : Errno, (res, f', u') = (.error e, f, u) → f.Kept f' ∧ u.Kept u' ∧
      ((∃ e, res = .error e ∧ f' = f ∧ u' = u) ∨
        ∃ old tid entry, (slotTable f).Holds slot_idx.toNat old ∧ tid.page_id = u.id ∧
          tid.slot.toNat = (slotTable u).entries.length ∧
          slotTable u' = (slotTable u).append ⟨xid, 0, 0, UndoEntry.bytes entry⟩ ∧
          entry.prev_undo_ptr = old.undo_ptr ∧ entry.xmin = old.xmin ∧ entry.xmax = xid ∧
          entry.data = old.data ∧
          UpdatePlaced (slotTable f) f.id slot_idx
            ⟨xid, 0, kds_heap_tid_pack tid, payload new_data new_data_len⟩ res (slotTable f')) := by
    intro e heq
    cases heq
    exact ⟨.refl hf, .refl hu, .inl ⟨e, rfl, rfl, rfl⟩⟩
  unfold kds_heap_update_tuple at h
  by_cases hnull : (new_data_len > 0 && new_data.isNone) = true
  · rw [if_pos hnull] at h
    exact hsame _ h.symm
  rw [if_neg hnull] at h
  cases hhdr : heap_read_tuple f slot_idx false 0 with
  | error e =>
    rw [hhdr] at h
    exact hsame _ h.symm
  | ok r =>
    obtain ⟨old_hdr, rest⟩ := r
    obtain ⟨hold, hread⟩ := heap_read_exact hhdr
    rw [hhdr] at h
    dsimp only at h
    by_cases hsize : old_hdr.data_len.toNat > KDS_UNDO_MAX_OLD_DATA
    · rw [if_pos hsize] at h
      exact hsame _ h.symm
    rw [if_neg hsize] at h
    by_cases hmem : (old_hdr.data_len > 0 && !kmalloc) = true
    · rw [if_pos hmem] at h
      exact hsame _ h.symm
    rw [if_neg hmem] at h
    -- the buffer handed to the undo entry holds the old payload
    obtain ⟨old_data, hbuf, hpay⟩ : ∃ old_data : Option Mem,
        (if old_hdr.data_len > 0 then
          match heap_read_tuple f slot_idx true old_hdr.data_len with
          | .error e => Except.error e
          | .ok (hdr, old_data) => .ok (hdr, some (bufferOf old_data))
        else .ok (old_hdr, none)) = (.ok (old_hdr, old_data) : Except Errno _) ∧
        payload old_data old_hdr.data_len =
          f.page.read (slotOffset f.page slot_idx.toNat + 28) old_hdr.data_len.toNat := by
      by_cases hpos : old_hdr.data_len > 0
      · rw [if_pos hpos, hread]
        refine ⟨_, rfl, ?_⟩
        have hrw := Mem.read_write_same (fun _ => 0) 0
          (f.page.read (slotOffset f.page slot_idx.toNat + 28) old_hdr.data_len.toNat)
        rw [Mem.length_read] at hrw
        exact hrw
      · rw [if_neg hpos]
        have hzero : old_hdr.data_len.toNat = 0 := by
          rw [gt_iff_lt, UInt16.lt_iff_toNat_lt] at hpos
          simpa using hpos
        exact ⟨none, rfl, by rw [hzero]; rfl⟩
    rw [hbuf] at h
    dsimp only at h
    cases hwrite : kds_undo_write_entry u owner_oid { page_id := f.id, slot := slot_idx }
        old_hdr.undo_ptr old_hdr.xmin xid KDS_UNDO_OP_UPDATE old_data old_hdr.data_len xid true with
    | mk ret u₁ =>
      obtain ⟨hkept, hcase⟩ := kds_undo_write_spec hu hwrite
      rw [hwrite] at h
      rcases hcase with ⟨e, rfl, rfl⟩ | ⟨tid, entry, rfl, hid, hslot, htable, hprev, hxmin, hxmax, hdata⟩
      · exact hsame _ h.symm
      · dsimp only at h
        cases hplace : updatePlace f slot_idx new_data new_data_len xid (kds_heap_tid_pack tid) with
        | mk ret' f₁ =>
          obtain ⟨hkept', hplaced⟩ := updatePlace_spec hf hplace
          rw [hplace] at h
          cases h
          exact ⟨hkept', hkept, .inr ⟨_, tid, entry, hold, hid, hslot, htable, hprev, hxmin, hxmax,
            hdata.trans hpay, hplaced⟩⟩

end Kds
