import Kds.Heap.Layout

/-! # A heap page is a table of slots

    What a heap page is for, without its bytes: a list of slots, each holding
    a tuple or retired, and a link to the next page. Slot numbers are
    positions in the list, so they are stable and never reused.

    `slotTable` reads this table off the bytes. On every page a history
    reaches, each operation does to the table what its name says, and a read
    returns the entry.
-/

open Bytes Lts

namespace Kds

/-! ## Section 1: The abstract table -/

/-- One tuple version: its visibility fields and its payload. -/
structure Tuple where
  xmin : UInt64
  xmax : UInt64
  undo_ptr : UInt64
  data : List UInt8
  deriving DecidableEq, Repr

/-- The slots of a page (`none` for a retired one) and its next-page link. -/
structure SlotTable where
  entries : List (Option Tuple)
  next : PageId
  deriving DecidableEq, Repr

/-- Slot `i` of the table holds tuple `t`. -/
def SlotTable.Holds (T : SlotTable) (i : Nat) (t : Tuple) : Prop := T.entries[i]? = some (some t)

/-- Replaces entry `i`. -/
def SlotTable.put (T : SlotTable) (i : Nat) (e : Option Tuple) : SlotTable :=
  { T with entries := T.entries.set i e }

/-- What can happen to a table. -/
inductive TableOp where
  | append (t : Tuple)
  | replace (i : Nat) (t : Tuple)
  | stamp (i : Nat) (xmax : UInt64)
  | retire (i : Nat)
  | link (next : PageId)

/-- The table as a transition system. -/
def tableSystem : System SlotTable TableOp where
  init := fun T => T = ⟨[], 0⟩
  step := fun T op T' =>
    match op with
    | .append t => T' = { T with entries := T.entries ++ [some t] }
    | .replace i t => (∃ old, T.Holds i old) ∧ T' = T.put i (some t)
    | .stamp i xmax => ∃ t, T.Holds i t ∧ T' = T.put i (some { t with xmax := xmax })
    | .retire i => i < T.entries.length ∧ T' = T.put i none
    | .link next => T' = { T with next := next }

/-! ## Section 2: Reading the table off the page -/

/-- The tuple stored in slot `i`. -/
def heapTuple (m : Mem) (i : Nat) : Tuple :=
  let hdr := heapTupleHdr m (slotOffset m i)
  { xmin := hdr.xmin
    xmax := hdr.xmax
    undo_ptr := hdr.undo_ptr
    data := m.read (slotOffset m i + KDS_HEAP_TUPLE_HDR_SIZE) hdr.data_len.toNat }

def heapEntry (m : Mem) (i : Nat) : Option Tuple :=
  if LiveSlot m i then some (heapTuple m i) else none

/-- The slot table of a page. -/
def slotTable (f : Frame) : SlotTable where
  entries := (List.range (heapMeta f.page).nr_slots.toNat).map (heapEntry f.page)
  next := heap_get_next_page_id f

/-- The live tuples of a page, in slot order. -/
def liveRows (f : Frame) : List Tuple := (slotTable f).entries.filterMap id

@[simp] theorem slotTable_length (f : Frame) :
    (slotTable f).entries.length = (heapMeta f.page).nr_slots.toNat := by
  simp [slotTable]

theorem slotTable_get {f : Frame} {i : Nat} (hi : i < (heapMeta f.page).nr_slots.toNat) :
    (slotTable f).entries[i]? = some (heapEntry f.page i) := by
  simp [slotTable, hi]

theorem slotTable_holds_iff {f : Frame} {i : Nat} {t : Tuple} :
    (slotTable f).Holds i t ↔ LiveSlot f.page i ∧ heapTuple f.page i = t := by
  unfold SlotTable.Holds
  constructor
  · intro h
    have hi : i < (heapMeta f.page).nr_slots.toNat := by
      by_contra hno
      rw [List.getElem?_eq_none (by simpa using hno)] at h
      simp at h
    rw [slotTable_get hi] at h
    simp only [heapEntry, Option.some.injEq] at h
    split at h
    · rename_i hl
      exact ⟨hl, by simpa using h⟩
    · simp at h
  · rintro ⟨hl, rfl⟩
    rw [slotTable_get hl.1, heapEntry, if_pos hl]

/-- An entry depends on its directory entry and the bytes of its own tuple. -/
theorem heapEntry_congr {m m' : Mem} (hinv : HeapInv m) {i : Nat}
    (hlive : LiveSlot m' i ↔ LiveSlot m i) (hslot : heapSlot m' i = heapSlot m i)
    (hbytes : LiveSlot m i → ∀ a, slotOffset m i ≤ a → a < slotOffset m i + slotLength m i →
      m' a = m a) :
    heapEntry m' i = heapEntry m i := by
  unfold heapEntry
  by_cases hl : LiveSlot m i
  · rw [if_pos hl, if_pos (hlive.mpr hl)]
    have hoff : slotOffset m' i = slotOffset m i := by rw [slotOffset, slotOffset, hslot]
    have hfit := hinv.data_fits i hl
    simp only [KDS_HEAP_TUPLE_HDR_SIZE] at hfit
    have hhdr : heapTupleHdr m' (slotOffset m i) = heapTupleHdr m (slotOffset m i) :=
      heapTupleHdr_congr fun a ha _ => hbytes hl a ha (by omega)
    have hdata : m'.read (slotOffset m i + 28)
          (heapTupleHdr m (slotOffset m i)).data_len.toNat =
        m.read (slotOffset m i + 28) (heapTupleHdr m (slotOffset m i)).data_len.toNat :=
      Mem.read_congr fun a _ _ => hbytes hl a (by omega) (by omega)
    simp only [heapTuple, hoff, hhdr, KDS_HEAP_TUPLE_HDR_SIZE, hdata]
  · rw [if_neg hl, if_neg fun h => hl (hlive.mp h)]

theorem next_congr {f f' : Frame} (h : ∀ a, 8184 ≤ a → a < 8192 → f'.page a = f.page a) :
    heap_get_next_page_id f' = heap_get_next_page_id f :=
  Mem.readU64_congr fun a ha ha' => h a (by simpa using ha) (by simp at ha'; omega)

/-- Two tables of the same length that agree outside entry `i`. -/
theorem slotTable_put {f f' : Frame} {i : Nat} (e : Option Tuple)
    (hmeta : heapMeta f'.page = heapMeta f.page)
    (hnext : heap_get_next_page_id f' = heap_get_next_page_id f)
    (hi : heapEntry f'.page i = e)
    (hother : ∀ j < (heapMeta f.page).nr_slots.toNat, j ≠ i →
      heapEntry f'.page j = heapEntry f.page j) :
    slotTable f' = (slotTable f).put i e := by
  unfold slotTable SlotTable.put
  rw [hmeta, hnext]
  congr 1
  apply List.ext_getElem
  · simp
  · intro j hj _
    simp only [List.length_map, List.length_range] at hj
    simp only [List.getElem_map, List.getElem_range, List.getElem_set]
    split
    · rename_i hij
      rw [← hij, hi]
    · rename_i hij
      exact hother j hj fun h => hij h.symm

/-! ## Section 3: Each effect on the table -/

theorem slotTable_init (f : Frame) (type : PageType) :
    slotTable (heap_init_page_as f type) = ⟨[], 0⟩ := by
  have hnr : (heapMeta (heap_init_page_as f type).page).nr_slots.toNat = 0 := by
    have h := (heapInv_init f type).lower_eq
    show (heapMeta (((f.page.write 0 _).write KDS_HEAP_META_OFFSET _).write _ _)).nr_slots.toNat = 0
    rw [heapMeta_write_outside _ (by simp), heapMeta_write]
    rfl
  have hnext : heap_get_next_page_id (heap_init_page_as f type) = 0 := by
    show (Mem.write _ KDS_HEAP_NEXT_PAGE_OFFSET (u64Bytes 0)).readU64 KDS_HEAP_NEXT_PAGE_OFFSET = 0
    simpa using Mem.readU64_write_mid
      ((f.page.write 0 _).write KDS_HEAP_META_OFFSET _) KDS_HEAP_NEXT_PAGE_OFFSET [] [] 0
  simp [slotTable, hnr, hnext]

theorem InsertEffect.slotTable_eq {f f' : Frame} {hdr : HeapTupleHdr} {pl : List UInt8}
    (hinv : HeapInv f.page) (h : InsertEffect f.page f'.page hdr pl) :
    slotTable f' =
      { slotTable f with
        entries := (slotTable f).entries ++ [some ⟨hdr.xmin, hdr.xmax, hdr.undo_ptr, pl⟩] } := by
  obtain ⟨hoff, _, hlive⟩ := h.newSlot
  have hup := hinv.upper_le
  simp only [KDS_HEAP_NEXT_PAGE_OFFSET, KDS_PAGE_SIZE] at hup
  have hnew : heapEntry f'.page (heapMeta f.page).nr_slots.toNat =
      some ⟨hdr.xmin, hdr.xmax, hdr.undo_ptr, pl⟩ := by
    rw [heapEntry, if_pos hlive]
    simp only [heapTuple, hoff, h.newHdr, KDS_HEAP_TUPLE_HDR_SIZE, h.newData]
  have hold : ∀ i < (heapMeta f.page).nr_slots.toNat,
      heapEntry f'.page i = heapEntry f.page i := by
    intro i hi
    have hslot := h.slot_eq hinv hi
    have hnr := h.nr_slots
    refine heapEntry_congr hinv ?_ hslot ?_
    · unfold LiveSlot
      rw [hslot]
      exact ⟨fun hl => ⟨hi, hl.2⟩, fun hl => ⟨by omega, hl.2⟩⟩
    · intro hl a ha _
      have := hinv.upper_le_offset i hl
      exact h.tuples a (by omega)
  unfold slotTable
  rw [h.nr_slots, next_congr fun a ha _ => h.tuples a (by omega), List.range_succ, List.map_append]
  simp only [List.map_cons, List.map_nil, hnew]
  congr 2
  apply List.map_congr_left
  intro i hi
  exact hold i (List.mem_range.mp hi)

theorem RewriteEffect.slotTable_eq {f f' : Frame} {i : Nat} {hdr : HeapTupleHdr}
    {pl : List UInt8} (hinv : HeapInv f.page) (h : RewriteEffect f.page f'.page i hdr pl) :
    slotTable f' = (slotTable f).put i (some ⟨hdr.xmin, hdr.xmax, hdr.undo_ptr, pl⟩) := by
  have hend := hinv.end_le i h.live
  simp only [KDS_HEAP_NEXT_PAGE_OFFSET, KDS_PAGE_SIZE] at hend
  apply slotTable_put
  · exact h.meta_eq hinv
  · exact next_congr fun a ha _ => h.outside a (by omega)
  · have hoff : slotOffset f'.page i = slotOffset f.page i := by
      rw [slotOffset, slotOffset, h.slot_eq hinv h.live.1]
    rw [heapEntry, if_pos ((h.live_iff hinv).mpr h.live)]
    simp only [heapTuple, hoff, h.newHdr, KDS_HEAP_TUPLE_HDR_SIZE, h.newData]
  · intro j hj hne
    exact heapEntry_congr hinv (h.live_iff hinv) (h.slot_eq hinv hj)
      fun hl a ha ha' => h.other hinv hl hne ha ha'

/-- A rewrite that keeps all but `xmax`. -/
theorem RewriteEffect.slotTable_stamp {f f' : Frame} {i : Nat} {xmax : UInt64}
    (hinv : HeapInv f.page)
    (h : RewriteEffect f.page f'.page i
      { heapTupleHdr f.page (slotOffset f.page i) with xmax := xmax }
      (f.page.read (slotOffset f.page i + 28)
        (heapTupleHdr f.page (slotOffset f.page i)).data_len.toNat)) :
    slotTable f' = (slotTable f).put i (some { heapTuple f.page i with xmax := xmax }) := by
  rw [h.slotTable_eq hinv]
  simp only [heapTuple, KDS_HEAP_TUPLE_HDR_SIZE]

theorem RetireEffect.slotTable_eq {f f' : Frame} {i : Nat} (hinv : HeapInv f.page)
    (h : RetireEffect f.page f'.page i) : slotTable f' = (slotTable f).put i none := by
  have h1 := hinv.lower_eq
  have h2 := hinv.lower_le
  have h3 := hinv.upper_le
  simp only [KDS_HEAP_AREA_OFFSET, KDS_HEAP_META_OFFSET, KDS_PAGE_HDR_SIZE, KDS_HEAP_META_SIZE,
    KDS_HEAP_SLOT_SIZE] at h1
  simp only [KDS_HEAP_NEXT_PAGE_OFFSET, KDS_PAGE_SIZE] at h3
  apply slotTable_put
  · exact h.meta_eq
  · exact next_congr fun a ha _ => h.tuples (by omega)
  · rw [heapEntry, if_neg]
    intro hl
    exact (h.live_cases hl).1 rfl
  · intro j hj hne
    refine heapEntry_congr hinv ?_ (h.slot_eq hne) ?_
    · unfold LiveSlot
      rw [h.meta_eq, h.slot_eq hne]
    · intro hl a ha _
      have := hinv.area_le hl
      exact h.tuples (by omega)

theorem SetNextEffect.slotTable_eq {f f' : Frame} {next : PageId} (hinv : HeapInv f.page)
    (h : SetNextEffect f.page f'.page next) :
    slotTable f' = { slotTable f with next := next } := by
  unfold slotTable
  rw [h.meta_eq]
  have hnext : heap_get_next_page_id f' = next := h.next
  rw [hnext]
  congr 1
  apply List.map_congr_left
  intro i hi
  have hlt := List.mem_range.mp hi
  refine heapEntry_congr hinv ?_ (h.slot_eq hinv hlt) ?_
  · unfold LiveSlot
    rw [h.meta_eq, h.slot_eq hinv hlt]
  · intro hl a _ ha'
    have := hinv.end_le i hl
    exact h.outside a (by omega)

/-! ## Section 4: The page refines the table -/

/-- A call that returns does one thing to the table of a well-formed page, or nothing. -/
theorem HeapOp.Outcome.table_step {f f' : Frame} {op : HeapOp} (hinv : HeapInv f.page)
    (h : op.Outcome f f') :
    slotTable f' = slotTable f ∨ ∃ b, tableSystem.step (slotTable f) b (slotTable f') := by
  cases h with
  | failed => exact Or.inl rfl
  | inserted tid _ _ heff => exact Or.inr ⟨.append _, heff.slotTable_eq hinv⟩
  | overwritten heff =>
    exact Or.inr ⟨.replace _ _, ⟨_, slotTable_holds_iff.mpr ⟨heff.live, rfl⟩⟩,
      heff.slotTable_eq hinv⟩
  | retired heff =>
    exact Or.inr ⟨.retire _, by simpa using heff.inRange, heff.slotTable_eq hinv⟩
  | @deleted slot_idx xmax _ heff =>
    exact Or.inr ⟨.stamp slot_idx.toNat xmax, _, slotTable_holds_iff.mpr ⟨heff.live, rfl⟩,
      heff.slotTable_stamp hinv⟩
  | linked heff => exact Or.inr ⟨.link _, heff.slotTable_eq hinv⟩

theorem heapSystem_refinesVia :
    heapSystem.RefinesVia tableSystem (fun f => HeapInv f.page) slotTable := by
  constructor
  · rintro _ ⟨f₀, type, rfl⟩
    exact slotTable_init f₀ type
  · rintro f op _ hinv ⟨hb, rfl⟩
    exact (HeapOp.outcome hinv hb).table_step hinv

/-- What the calls do to the table of page `f`, with the results they
    return, and what a read of `f` returns. -/
structure HeapRefines (f : Frame) : Prop where
  insert : ∀ data data_len xmin xmax undo_ptr out_tid,
    match heap_insert_tuple_ex f data data_len xmin xmax undo_ptr out_tid with
    | (.ok tid, f') =>
        tid.page_id = f.id ∧ tid.slot.toNat = (slotTable f).entries.length ∧
          slotTable f' =
            { slotTable f with
              entries := (slotTable f).entries ++
                [some ⟨xmin, xmax, undo_ptr, payload data data_len⟩] }
    | (.error _, f') => f' = f
  overwrite : ∀ slot_idx new_data new_data_len xmin xmax undo_ptr,
    new_data_len.toNat ≤ KDS_PAGE_SIZE →
    match heap_overwrite_tuple f slot_idx new_data new_data_len xmin xmax undo_ptr with
    | (.ok (), f') =>
        (∃ old, (slotTable f).Holds slot_idx.toNat old) ∧
          slotTable f' = (slotTable f).put slot_idx.toNat
            (some ⟨xmin, xmax, undo_ptr, payload new_data new_data_len⟩)
    | (.error _, f') => f' = f
  delete : ∀ slot_idx xmax,
    match heap_delete_tuple f slot_idx xmax with
    | (.ok (), f') =>
        ∃ t, (slotTable f).Holds slot_idx.toNat t ∧
          slotTable f' = (slotTable f).put slot_idx.toNat (some { t with xmax := xmax })
    | (.error _, f') => f' = f
  retire : ∀ slot_idx,
    match heap_retire_slot f slot_idx with
    | (.ok (), f') =>
        slot_idx.toNat < (slotTable f).entries.length ∧
          slotTable f' = (slotTable f).put slot_idx.toNat none
    | (.error _, f') => f' = f
  setNext : ∀ next, slotTable (heap_set_next_page_id f next).2 = { slotTable f with next := next }
  getNext : heap_get_next_page_id f = (slotTable f).next
  read : ∀ slot_idx out_buf_size t, (slotTable f).Holds slot_idx.toNat t →
    t.data.length ≤ out_buf_size.toNat →
    ∃ hdr buf, heap_read_tuple f slot_idx true out_buf_size = .ok (hdr, buf) ∧
      hdr.xmin = t.xmin ∧ hdr.xmax = t.xmax ∧ hdr.undo_ptr = t.undo_ptr ∧
      hdr.data_len.toNat = t.data.length ∧ buf.length = out_buf_size.toNat ∧
      buf.take t.data.length = t.data
  read_enoent : ∀ slot_idx out_buf_size,
    heap_read_tuple f slot_idx true out_buf_size = .error .ENOENT ↔
      (slotTable f).entries.length ≤ slot_idx.toNat ∨
        (slotTable f).entries[slot_idx.toNat]? = some none

theorem heap_read_live {f : Frame} {slot_idx out_buf_size : UInt16}
    (hlive : LiveSlot f.page slot_idx.toNat) :
    heap_read_tuple f slot_idx true out_buf_size =
      if (heapTupleHdr f.page (slotOffset f.page slot_idx.toNat)).data_len > out_buf_size then
        .error .ENOSPC
      else
        .ok (heapTupleHdr f.page (slotOffset f.page slot_idx.toNat),
          f.page.read (slotOffset f.page slot_idx.toNat + KDS_HEAP_TUPLE_HDR_SIZE)
            out_buf_size.toNat) := by
  have hidx : ¬ slot_idx ≥ (heapMeta f.page).nr_slots := by
    rw [ge_iff_le, UInt16.le_iff_toNat_le, Nat.not_le]
    exact hlive.1
  unfold heap_read_tuple heapReadTuple
  rw [if_neg hidx]
  simp [hlive.2, slotOffset]

/-- A read finds the slot missing exactly when the slot is not live. -/
theorem heap_read_enoent_iff {f : Frame} {slot_idx out_buf_size : UInt16} :
    heap_read_tuple f slot_idx true out_buf_size = .error .ENOENT ↔
      ¬ LiveSlot f.page slot_idx.toNat := by
  by_cases hlive : LiveSlot f.page slot_idx.toNat
  · rw [heap_read_live hlive]
    split <;> simp [hlive]
  · refine iff_of_true ?_ hlive
    unfold heap_read_tuple heapReadTuple
    by_cases hidx : slot_idx ≥ (heapMeta f.page).nr_slots
    · rw [if_pos hidx]
    · have hdead : (heapSlot f.page slot_idx.toNat).dead = true := by
        by_contra hd
        rw [ge_iff_le, UInt16.le_iff_toNat_le, Nat.not_le] at hidx
        exact hlive ⟨hidx, by simpa using hd⟩
      simp [hidx, hdead]

theorem heapRefines_of_inv {f : Frame} (hinv : HeapInv f.page) : HeapRefines f where
  insert := by
    intro data data_len xmin xmax undo_ptr out_tid
    split
    · rename_i tid f' hr
      obtain ⟨rfl, heff⟩ := heap_insert_effect hinv hr
      exact ⟨rfl, by simp, heff.slotTable_eq hinv⟩
    · rename_i e f' hr
      exact heap_insert_error hr
  overwrite := by
    intro slot_idx new_data new_data_len xmin xmax undo_ptr hlen
    split
    · rename_i f' hr
      have heff := heap_overwrite_effect hlen hr
      exact ⟨⟨_, slotTable_holds_iff.mpr ⟨heff.live, rfl⟩⟩, heff.slotTable_eq hinv⟩
    · rename_i e f' hr
      exact heap_overwrite_error hr
  delete := by
    intro slot_idx xmax
    split
    · rename_i f' hr
      have heff := heap_delete_effect hinv hr
      exact ⟨_, slotTable_holds_iff.mpr ⟨heff.live, rfl⟩, heff.slotTable_stamp hinv⟩
    · rename_i e f' hr
      exact heap_delete_error hr
  retire := by
    intro slot_idx
    split
    · rename_i f' hr
      have heff := heap_retire_effect hr
      exact ⟨by simpa using heff.inRange, heff.slotTable_eq hinv⟩
    · rename_i e f' hr
      exact heap_retire_error hr
  setNext := fun next => (heap_set_next_effect f next).slotTable_eq hinv
  getNext := rfl
  read := by
    -- the code compares the stored length with the size of the buffer
    intro slot_idx out_buf_size t hholds hsize
    obtain ⟨hlive, rfl⟩ := slotTable_holds_iff.mp hholds
    simp only [heapTuple, Mem.length_read] at hsize
    have hfits : ¬ (heapTupleHdr f.page (slotOffset f.page slot_idx.toNat)).data_len >
        out_buf_size := by
      rw [gt_iff_lt, UInt16.lt_iff_toNat_lt, Nat.not_lt]
      exact hsize
    refine ⟨_, _, (heap_read_live hlive).trans (if_neg hfits), rfl, rfl, rfl, ?_, ?_, ?_⟩
    · simp [heapTuple]
    · simp
    · -- the caller's buffer holds the payload and whatever follows it on the page
      obtain ⟨k, hk⟩ := Nat.exists_eq_add_of_le hsize
      rw [hk, Mem.read_add]
      simp [heapTuple]
  read_enoent := by
    intro slot_idx out_buf_size
    rw [heap_read_enoent_iff, slotTable_length]
    constructor
    -- out of the directory, or in it and dead
    · intro hdead
      rcases Nat.lt_or_ge slot_idx.toNat (heapMeta f.page).nr_slots.toNat with hlt | hge
      · exact Or.inr (by rw [slotTable_get hlt, heapEntry, if_neg hdead])
      · exact Or.inl hge
    · rintro (hge | hnone) hlive
      · have := hlive.1
        omega
      · rw [slotTable_get hlive.1, heapEntry, if_pos hlive] at hnone
        simp at hnone

/-- **A heap page refines its slot table**: the table of every reachable page
    is one the table system reaches, every call does to it what it says, and
    reads return its entries. -/
theorem heap_page_refines_table (f : Frame) (h : heapSystem.Reachable f) :
    tableSystem.Reachable (slotTable f) ∧ HeapRefines f := by
  constructor
  · exact System.Reachable.refines heapSystem_refinesVia (fun _ => heapInv_of_reachable) h
  · exact heapRefines_of_inv (heapInv_of_reachable h)

/-- A page with one row of eight bytes. -/
theorem heap_page_refines_table_first_row :
    heapSystem.Reachable
        (HeapOp.run (heap_init_page (blankFrame 200)) (.insert (some fun _ => 7) 8 1 0 0 true)) ∧
      HeapRefines (HeapOp.run (heap_init_page (blankFrame 200))
        (.insert (some fun _ => 7) 8 1 0 0 true)) := by
  have h : heapSystem.Reachable
      (HeapOp.run (heap_init_page (blankFrame 200)) (.insert (some fun _ => 7) 8 1 0 0 true)) :=
    .step (.insert (some fun _ => 7) 8 1 0 0 true) (.init ⟨blankFrame 200, .heap, rfl⟩)
      ⟨trivial, rfl⟩
  exact ⟨h, (heap_page_refines_table _ h).2⟩

end Kds
