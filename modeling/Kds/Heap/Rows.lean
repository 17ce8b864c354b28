import Kds.Heap.Table

/-! # Rows and their keys

    The first column of a table is its primary key, eight bytes at the front
    of the payload. `heap_read_tuple_pk` reads just these.
-/

open Bytes

namespace Kds

/-- The key of the row in slot `i`. -/
def rowKey (m : Mem) (i : Nat) : TupleId := m.readU64 (slotOffset m i + KDS_HEAP_TUPLE_HDR_SIZE)

/-- Slot `i` holds a row with key `key`. -/
def HoldsRow (m : Mem) (i : Nat) (key : TupleId) : Prop := LiveSlot m i ∧ rowKey m i = key

theorem heap_read_pk_live {f : Frame} (slot_idx : UInt16) (h : LiveSlot f.page slot_idx.toNat) :
    ∃ pk_buf, heap_read_tuple_pk f slot_idx true 8 =
        .ok (heapTupleHdr f.page (slotOffset f.page slot_idx.toNat), pk_buf) ∧
      UInt64.ofNat (leNat pk_buf) = rowKey f.page slot_idx.toNat := by
  have hidx : ¬ slot_idx ≥ (heapMeta f.page).nr_slots := by
    rw [ge_iff_le, UInt16.le_iff_toNat_le, Nat.not_le]
    exact h.1
  refine ⟨f.page.read (slotOffset f.page slot_idx.toNat + KDS_HEAP_TUPLE_HDR_SIZE) 8, ?_, rfl⟩
  unfold heap_read_tuple_pk heapReadTuple
  rw [if_neg (by decide), if_neg hidx]
  simp [h.2, slotOffset]

theorem heap_read_pk_dead {f : Frame} (slot_idx : UInt16) (h : ¬ LiveSlot f.page slot_idx.toNat) :
    heap_read_tuple_pk f slot_idx true 8 = .error .ENOENT := by
  unfold heap_read_tuple_pk heapReadTuple
  rw [if_neg (by decide)]
  by_cases hidx : slot_idx ≥ (heapMeta f.page).nr_slots
  · rw [if_pos hidx]
  · have hdead : (heapSlot f.page slot_idx.toNat).dead = true := by
      by_contra hd
      rw [ge_iff_le, UInt16.le_iff_toNat_le, Nat.not_le] at hidx
      exact h ⟨hidx, by simpa using hd⟩
    simp [hidx, hdead]

/-- The rows of a page behind an insert: the old ones, and the new one in a slot of its own. -/
theorem InsertEffect.holdsRow_iff {m m' : Mem} {hdr : HeapTupleHdr} {d : Mem} (hinv : HeapInv m)
    (h : InsertEffect m m' hdr (d.read 0 hdr.data_len.toNat)) (hlen : 8 ≤ hdr.data_len.toNat)
    (i : Nat) (key : TupleId) :
    HoldsRow m' i key ↔
      HoldsRow m i key ∨ (i = (heapMeta m).nr_slots.toNat ∧ key = d.readU64 0) := by
  have hold : ∀ j, LiveSlot m j → heapSlot m' j = heapSlot m j → rowKey m' j = rowKey m j := by
    intro j hj heq
    have hoff : slotOffset m' j = slotOffset m j := by rw [slotOffset, slotOffset, heq]
    have hle := hinv.upper_le_offset j hj
    rw [rowKey, rowKey, hoff]
    exact Mem.readU64_congr fun a ha _ => h.tuples a (by simp at ha; omega)
  have hnew : rowKey m' (heapMeta m).nr_slots.toNat = d.readU64 0 := by
    have hread : m'.read ((heapMeta m').upper.toNat + 28) 8 = d.read 0 8 := by
      have hdata := h.newData
      rw [show hdr.data_len.toNat = 8 + (hdr.data_len.toNat - 8) by omega, Mem.read_add,
        Mem.read_add] at hdata
      exact List.append_inj_left hdata (by simp)
    rw [rowKey, h.newSlot.1]
    show UInt64.ofNat (leNat (m'.read ((heapMeta m').upper.toNat + 28) 8)) = _
    rw [hread]
    rfl
  constructor
  · rintro ⟨hlive, rfl⟩
    rcases h.live_cases hinv hlive with rfl | ⟨hl, heq⟩
    · exact Or.inr ⟨rfl, hnew⟩
    · exact Or.inl ⟨hl, (hold i hl heq).symm⟩
  · rintro (⟨hl, rfl⟩ | ⟨rfl, rfl⟩)
    · have heq := h.slot_eq hinv hl.1
      have hnr := h.nr_slots
      have hlt := hl.1
      exact ⟨⟨by omega, by rw [heq]; exact hl.2⟩, hold i hl heq⟩
    · exact ⟨h.newSlot.2.2, hnew⟩

/-- No row is in a new slot yet. -/
theorem not_holdsRow_new (m : Mem) (key : TupleId) : ¬ HoldsRow m (heapMeta m).nr_slots.toNat key :=
  fun h => absurd h.1.1 (Nat.lt_irrefl _)

/-- The longest row that fits an empty page. -/
@[simp] def maxRowLen : Nat :=
  KDS_HEAP_NEXT_PAGE_OFFSET - KDS_HEAP_AREA_OFFSET - KDS_HEAP_SLOT_SIZE - KDS_HEAP_TUPLE_HDR_SIZE

/-- A new page has no rows, and space for one. -/
theorem heap_init_page_empty (f : Frame) :
    HeapInv (heap_init_page f).page ∧ (∀ i key, ¬ HoldsRow (heap_init_page f).page i key) ∧
      ∀ data_len : UInt16, data_len.toNat ≤ maxRowLen →
        heap_has_space (heap_init_page f) data_len = true := by
  have hmeta : heapMeta (heap_init_page f).page = _ := heapMeta_init f .heap
  refine ⟨heapInv_init f .heap, fun i key h => ?_, fun data_len hlen => ?_⟩
  · have hlt := h.1.1
    rw [hmeta] at hlt
    exact absurd hlt (Nat.not_lt_zero i)
  · simp at hlen
    have hfree : heap_free_space (heap_init_page f) = 8135 := by
      rw [heap_free_space, hmeta]
      decide
    have hneed : (heapNeeded data_len).toNat = 33 + data_len.toNat := by
      rw [heapNeeded, UInt16.toNat_ofNat']
      simp only [KDS_HEAP_SLOT_SIZE, KDS_HEAP_TUPLE_HDR_SIZE]
      omega
    rw [heap_has_space, if_neg (by simp; omega), decide_eq_true_iff, hfree, ge_iff_le,
      UInt16.le_iff_toNat_le, hneed]
    show _ ≤ 8135
    omega

/-- The predictor and the inserter compute the free space differently; on a page
    whose directory ends before its tuples they agree. -/
theorem heap_has_space_iff {f : Frame} (hinv : HeapInv f.page) (data_len : UInt16) :
    heap_has_space f data_len = true ↔ data_len.toNat ≤ KDS_PAGE_SIZE ∧
      is_heap_insert_possible (heapMeta f.page) (heapNeeded data_len) = true := by
  unfold heap_has_space
  by_cases hlen : data_len.toNat > KDS_PAGE_SIZE
  · rw [if_pos hlen]
    exact iff_of_false Bool.false_ne_true fun h => absurd h.1 (Nat.not_le.mpr hlen)
  · have hfree : heap_free_space f = (heapMeta f.page).upper - (heapMeta f.page).lower := by
      unfold heap_free_space
      dsimp only
      split
      · rfl
      · rename_i hno
        have hle := hinv.lower_le
        rw [gt_iff_lt, UInt16.lt_iff_toNat_lt] at hno
        have heq : (heapMeta f.page).lower = (heapMeta f.page).upper :=
          UInt16.toNat_inj.mp (by omega)
        rw [heq, UInt16.sub_self]
    rw [if_neg hlen, hfree, is_heap_insert_possible]
    exact ⟨fun h => ⟨Nat.not_lt.mp hlen, h⟩, fun h => h.2⟩

/-- **Space prediction**: a payload that is there goes in exactly if it was said to. -/
theorem heap_insert_ok_iff {f : Frame} (hinv : HeapInv f.page) {data : Option Mem}
    {data_len : UInt16} (hdata : data_len = 0 ∨ data.isSome) (xmin xmax undo_ptr : UInt64) :
    (∃ tid f', heap_insert_tuple_ex f data data_len xmin xmax undo_ptr true = (.ok tid, f')) ↔
      heap_has_space f data_len = true := by
  have hnull : (data_len > 0 && data.isNone) = false := by
    rcases hdata with rfl | hdata
    · rfl
    · rw [Option.isNone_eq_false_iff.mpr hdata, Bool.and_false]
  rw [heap_has_space_iff hinv]
  unfold heap_insert_tuple_ex
  rw [if_neg (by decide), hnull, if_neg Bool.false_ne_true]
  by_cases hlen : data_len.toNat > KDS_PAGE_SIZE
  · rw [if_pos hlen]
    refine iff_of_false ?_ fun h => absurd h.1 (Nat.not_le.mpr hlen)
    rintro ⟨tid, f', h⟩
    cases (Prod.mk.inj h).1
  · rw [if_neg hlen]
    dsimp only
    cases hroom : is_heap_insert_possible (heapMeta f.page) (heapNeeded data_len) with
    | false =>
      rw [if_pos (by decide)]
      refine iff_of_false ?_ fun h => Bool.false_ne_true h.2
      rintro ⟨tid, f', h⟩
      cases (Prod.mk.inj h).1
    | true =>
      rw [if_neg (by decide)]
      exact iff_of_true ⟨_, _, rfl⟩ ⟨Nat.not_lt.mp hlen, rfl⟩

/-- A row that `heap_has_space` admits goes in. -/
theorem heap_insert_row {f : Frame} (hinv : HeapInv f.page) {d : Mem} {data_len : UInt16}
    (xmin : UInt64) (hspace : heap_has_space f data_len = true) (hlen : 8 ≤ data_len.toNat) :
    ∃ tid f', heap_insert_tuple f (some d) data_len xmin = (.ok tid, f') ∧ HeapInv f'.page ∧
      ∀ i key, HoldsRow f'.page i key ↔
        HoldsRow f.page i key ∨ (i = (heapMeta f.page).nr_slots.toNat ∧ key = d.readU64 0) := by
  obtain ⟨tid, f', hrun⟩ := (heap_insert_ok_iff hinv (.inr Option.isSome_some) xmin 0 0).mpr hspace
  obtain ⟨-, heff⟩ := heap_insert_effect hinv hrun
  exact ⟨tid, f', hrun, heff.inv hinv, heff.holdsRow_iff hinv hlen⟩

end Kds
