import Kds.Heap.Undo

/-! # What a heap page holds

    The table of a heap page is behind the page header: a write to the header,
    as a flush makes it, leaves the table as it was. An insert and a new link
    only add to the table, so an old copy of a page holds part of it.
-/

open Bytes

namespace Kds

/-! ## Section 1: Behind the header -/

/-- The same page, up to its header. -/
structure Frame.SameBody (f f' : Frame) : Prop where
  id : f'.id = f.id
  body : ∀ a, KDS_PAGE_HDR_SIZE ≤ a → f'.page a = f.page a

section body

variable {f f' f'' : Frame}

theorem Frame.SameBody.refl (f : Frame) : f.SameBody f := ⟨rfl, fun _ _ => rfl⟩

theorem Frame.SameBody.heapMeta (h : f.SameBody f') : heapMeta f'.page = heapMeta f.page :=
  heapMeta_congr fun a ha _ => h.body a ha

theorem Frame.SameBody.heapSlot (h : f.SameBody f') (i : Nat) : heapSlot f'.page i = heapSlot f.page i :=
  heapSlot_congr fun a ha _ => h.body a (by simp only [KDS_PAGE_HDR_SIZE]; omega)

theorem Frame.SameBody.live_iff (h : f.SameBody f') (i : Nat) : LiveSlot f'.page i ↔ LiveSlot f.page i := by
  unfold LiveSlot
  rw [h.heapMeta, h.heapSlot]

theorem Frame.SameBody.slotOffset (h : f.SameBody f') (i : Nat) : slotOffset f'.page i = slotOffset f.page i := by
  unfold Kds.slotOffset
  rw [h.heapSlot]

theorem Frame.SameBody.slotLength (h : f.SameBody f') (i : Nat) : slotLength f'.page i = slotLength f.page i := by
  unfold Kds.slotLength
  rw [h.heapSlot]

theorem Frame.SameBody.next (h : f.SameBody f') : heap_get_next_page_id f' = heap_get_next_page_id f :=
  Mem.readU64_congr fun a ha _ => h.body a (by
    simp only [KDS_HEAP_NEXT_PAGE_OFFSET, KDS_PAGE_SIZE, KDS_PAGE_HDR_SIZE] at ha ⊢
    omega)

/-- A live tuple lies behind the header. -/
theorem HeapInv.hdr_le_offset {m : Mem} (h : HeapInv m) {i : Nat} (hlive : LiveSlot m i) :
    KDS_PAGE_HDR_SIZE ≤ slotOffset m i := by
  have hlow := h.lower_eq
  have hle := h.lower_le
  have hoff := h.upper_le_offset i hlive
  simp only [KDS_HEAP_AREA_OFFSET, KDS_HEAP_META_OFFSET] at hlow
  omega

theorem Frame.SameBody.hdr (h : f.SameBody f') (hinv : HeapInv f.page) {i : Nat} (hlive : LiveSlot f.page i) :
    heapTupleHdr f'.page (Kds.slotOffset f.page i) = heapTupleHdr f.page (Kds.slotOffset f.page i) := by
  have hoff := hinv.hdr_le_offset hlive
  exact heapTupleHdr_congr fun a ha _ => h.body a (Nat.le_trans hoff ha)

theorem Frame.SameBody.tuple (h : f.SameBody f') (hinv : HeapInv f.page) {i : Nat} (hlive : LiveSlot f.page i) :
    heapTuple f'.page i = heapTuple f.page i := by
  have hoff := hinv.hdr_le_offset hlive
  unfold heapTuple
  dsimp only
  rw [h.slotOffset, h.hdr hinv hlive, Mem.read_congr fun a ha _ => h.body a (by omega)]

/-- **The table** is the same. -/
theorem Frame.SameBody.slotTable (h : f.SameBody f') (hinv : HeapInv f.page) :
    slotTable f' = slotTable f := by
  unfold Kds.slotTable
  rw [h.next, h.heapMeta]
  congr 1
  apply List.map_congr_left
  intro i _
  unfold heapEntry
  by_cases hlive : LiveSlot f.page i
  · rw [if_pos hlive, if_pos ((h.live_iff i).mpr hlive), h.tuple hinv hlive]
  · rw [if_neg hlive, if_neg fun hl => hlive ((h.live_iff i).mp hl)]

theorem Frame.SameBody.liveRows (h : f.SameBody f') (hinv : HeapInv f.page) : liveRows f' = liveRows f := by
  unfold Kds.liveRows
  rw [h.slotTable hinv]

/-- So is the layout. -/
theorem Frame.SameBody.heapInv (h : f.SameBody f') (hinv : HeapInv f.page) : HeapInv f'.page := by
  have hlive : ∀ i, LiveSlot f'.page i → LiveSlot f.page i := fun i => (h.live_iff i).mp
  constructor
  · rw [h.heapMeta]
    exact hinv.lower_eq
  · rw [h.heapMeta]
    exact hinv.lower_le
  · rw [h.heapMeta]
    exact hinv.upper_le
  · intro i hi
    rw [h.heapMeta, h.slotOffset]
    exact hinv.upper_le_offset i (hlive i hi)
  · intro i hi
    rw [h.slotOffset, h.slotLength]
    exact hinv.end_le i (hlive i hi)
  · intro i hi
    rw [h.slotLength]
    exact hinv.hdr_fits i (hlive i hi)
  · intro i hi
    rw [h.slotOffset, h.slotLength, h.hdr hinv (hlive i hi)]
    exact hinv.data_fits i (hlive i hi)
  · intro i j hi hj hne
    rw [h.slotOffset, h.slotLength, h.slotOffset, h.slotLength]
    exact hinv.disjoint i j (hlive i hi) (hlive j hj) hne

end body

/-! ## Section 2: Tables that grow -/

/-- New slots are behind the old ones, and a link is only set where there was none. -/
structure SlotTable.Grows (T T' : SlotTable) : Prop where
  rows : T.entries <+: T'.entries
  next : T.next = 0 ∨ T'.next = T.next

/-- A table without slots and without a link. -/
def SlotTable.blank : SlotTable := ⟨[], 0⟩

section grows

variable {T T' T'' : SlotTable} {f f' : Frame}

theorem SlotTable.Grows.refl (T : SlotTable) : T.Grows T := ⟨List.prefix_refl _, .inr rfl⟩

theorem SlotTable.Grows.of_eq (h : T' = T) : T.Grows T' := h ▸ .refl _

theorem SlotTable.Grows.trans (h : T.Grows T') (h' : T'.Grows T'') : T.Grows T'' where
  rows := h.rows.trans h'.rows
  next := by
    rcases h.next with hzero | hsame
    · exact .inl hzero
    · rcases h'.next with hzero | hsame'
      · exact .inl (hsame.symm.trans hzero)
      · exact .inr (hsame'.trans hsame)

theorem SlotTable.blank_grows (T : SlotTable) : SlotTable.blank.Grows T := ⟨List.nil_prefix, .inl rfl⟩

theorem SlotTable.append_grows (T : SlotTable) (t : Tuple) : T.Grows (T.append t) :=
  ⟨List.prefix_append _ _, .inr rfl⟩

/-- There are no fewer rows. -/
theorem SlotTable.Grows.liveRows (h : (slotTable f).Grows (slotTable f')) : liveRows f <+: liveRows f' :=
  h.rows.filterMap id

end grows

end Kds
