import Kds.Heap.Undo

/-! # The contracts of overwrite, read and update

    Three calls on heap pages and what `kds_heap.h` says about them:

    - an overwrite goes through exactly if the new version fits into the slot;
      the test is made in `u16`, and a length from 65508 on passes it;
    - a read copies the payload of one tuple; the copy is as long as the
      caller's buffer, not as the payload;
    - an update that fails leaves the old version in place; one that moves the
      tuple retires the old slot before it knows that the new version fits.

    Each contract is stated for all inputs and shown to hold exactly if the
    input does not get to the defect.
-/

open Bytes Lts

namespace Kds

/-! ## Section 1: Overwrites -/

section overwrite

variable {f : Frame} {slot_idx : UInt16} {new_data : Option Mem} {new_data_len : UInt16}
  {xmin xmax undo_ptr : UInt64}

/-- What `heap_overwrite_tuple` is to do: it goes through if the slot is live
    and the new version fits, and then writes in the slot's own range only;
    else it says why and leaves the page alone. -/
structure OverwriteContract (f : Frame) (slot_idx : UInt16) (new_data : Option Mem)
    (new_data_len : UInt16) (xmin xmax undo_ptr : UInt64) : Prop where
  succeeds : (heap_overwrite_tuple f slot_idx new_data new_data_len xmin xmax undo_ptr).1 = .ok () ↔
    LiveSlot f.page slot_idx.toNat ∧
      KDS_HEAP_TUPLE_HDR_SIZE + new_data_len.toNat ≤ slotLength f.page slot_idx.toNat
  inside : ∀ f', heap_overwrite_tuple f slot_idx new_data new_data_len xmin xmax undo_ptr = (.ok (), f') →
    ∀ a, a < slotOffset f.page slot_idx.toNat ∨
        slotOffset f.page slot_idx.toNat + slotLength f.page slot_idx.toNat ≤ a →
      f'.page a = f.page a
  fails : ∀ e f',
    heap_overwrite_tuple f slot_idx new_data new_data_len xmin xmax undo_ptr = (.error e, f') →
      (e = .ENOENT ∨ e = .ENOSPC) ∧ f' = f

/-- The caller's payload pointer goes with the length: `NULL` only for nothing. -/
def DataMatches (new_data : Option Mem) (new_data_len : UInt16) : Prop :=
  new_data_len = 0 ∨ new_data.isSome

theorem DataMatches.not_null (h : DataMatches new_data new_data_len) :
    ¬ (new_data_len > 0 && new_data.isNone) = true := by
  rcases h with rfl | hsome
  · simp
  · simp [Option.isNone_eq_false_iff.mpr hsome]

theorem not_live_cases (h : ¬ LiveSlot f.page slot_idx.toNat) :
    slot_idx ≥ (heapMeta f.page).nr_slots ∨
      ¬ slot_idx ≥ (heapMeta f.page).nr_slots ∧ (heapSlot f.page slot_idx.toNat).dead = true := by
  by_cases hidx : slot_idx ≥ (heapMeta f.page).nr_slots
  · exact .inl hidx
  · refine .inr ⟨hidx, ?_⟩
    rw [ge_iff_le, UInt16.le_iff_toNat_le, Nat.not_le] at hidx
    by_contra hdead
    exact h ⟨hidx, by simpa using hdead⟩

theorem LiveSlot.in_directory (h : LiveSlot f.page slot_idx.toNat) :
    ¬ slot_idx ≥ (heapMeta f.page).nr_slots := by
  rw [ge_iff_le, UInt16.le_iff_toNat_le, Nat.not_le]
  exact h.1

/-- What the code does: on a live slot only the `u16` length is looked at. -/
theorem heap_overwrite_live (hdata : DataMatches new_data new_data_len)
    (hlive : LiveSlot f.page slot_idx.toNat) :
    (heap_overwrite_tuple f slot_idx new_data new_data_len xmin xmax undo_ptr).1 =
      if heapTupleLen new_data_len > (heapSlot f.page slot_idx.toNat).length then .error .ENOSPC
      else .ok () := by
  unfold heap_overwrite_tuple
  rw [if_neg hdata.not_null]
  dsimp only
  rw [if_neg hlive.in_directory, if_neg (by simp [hlive.2])]
  split <;> rfl

theorem heap_overwrite_dead (hdata : DataMatches new_data new_data_len)
    (hdead : ¬ LiveSlot f.page slot_idx.toNat) :
    heap_overwrite_tuple f slot_idx new_data new_data_len xmin xmax undo_ptr = (.error .ENOENT, f) := by
  unfold heap_overwrite_tuple
  rw [if_neg hdata.not_null]
  dsimp only
  rcases not_live_cases hdead with hidx | ⟨hidx, hdead⟩
  · rw [if_pos hidx]
  · rw [if_neg hidx, if_pos hdead]

/-- A sum below `2 ^ 16` is compared as it is. -/
theorem toNat_heapTupleLen (hlen : KDS_HEAP_TUPLE_HDR_SIZE + new_data_len.toNat < 2 ^ 16) :
    (heapTupleLen new_data_len).toNat = KDS_HEAP_TUPLE_HDR_SIZE + new_data_len.toNat := by
  unfold heapTupleLen
  rw [UInt16.toNat_ofNat']
  exact Nat.mod_eq_of_lt hlen

/-- A sum from `2 ^ 16` on wraps to less than a tuple header. -/
theorem toNat_heapTupleLen_lt (hlen : 2 ^ 16 ≤ KDS_HEAP_TUPLE_HDR_SIZE + new_data_len.toNat) :
    (heapTupleLen new_data_len).toNat < KDS_HEAP_TUPLE_HDR_SIZE := by
  have hlt := new_data_len.toNat_lt
  unfold heapTupleLen
  rw [UInt16.toNat_ofNat']
  simp only [KDS_HEAP_TUPLE_HDR_SIZE] at hlen ⊢
  omega

theorem heap_overwrite_fails {e : Errno} {f' : Frame} (hdata : DataMatches new_data new_data_len)
    (h : heap_overwrite_tuple f slot_idx new_data new_data_len xmin xmax undo_ptr = (.error e, f')) :
    (e = .ENOENT ∨ e = .ENOSPC) ∧ f' = f := by
  refine ⟨?_, heap_overwrite_error h⟩
  by_cases hlive : LiveSlot f.page slot_idx.toNat
  · have hret : (heap_overwrite_tuple f slot_idx new_data new_data_len xmin xmax undo_ptr).1 = _ :=
      heap_overwrite_live hdata hlive
    rw [h] at hret
    split at hret
    · exact .inr (Except.error.inj hret)
    · cases hret
  · rw [heap_overwrite_dead hdata hlive] at h
    cases h
    exact .inl rfl

/-- Where the length is not cut, an overwrite that goes through keeps within the slot. -/
theorem heap_overwrite_inside {f' : Frame} (hinv : HeapInv f.page)
    (hlen : KDS_HEAP_TUPLE_HDR_SIZE + new_data_len.toNat < 2 ^ 16)
    (h : heap_overwrite_tuple f slot_idx new_data new_data_len xmin xmax undo_ptr = (.ok (), f')) :
    RewriteEffect f.page f'.page slot_idx.toNat ⟨xmin, xmax, undo_ptr, new_data_len, 0, 0⟩
      (payload new_data new_data_len) := by
  refine heap_overwrite_effect ?_ h
  -- the slot ends on the page, and so does what is not longer than the slot
  have hfit : ¬ heapTupleLen new_data_len > (heapSlot f.page slot_idx.toNat).length ∧
      LiveSlot f.page slot_idx.toNat := by
    unfold heap_overwrite_tuple at h
    dsimp only at h
    split_ifs at h with hnull hidx hdead hfit
    · simp at h
    · simp at h
    · simp at h
    · simp at h
    · exact ⟨hfit, by simpa [UInt16.le_iff_toNat_le] using hidx, by simpa using hdead⟩
  obtain ⟨hfit, hlive⟩ := hfit
  have hend := hinv.end_le _ hlive
  rw [gt_iff_lt, UInt16.lt_iff_toNat_lt, toNat_heapTupleLen hlen, Nat.not_lt] at hfit
  unfold slotLength at hend
  simp only [KDS_HEAP_NEXT_PAGE_OFFSET, KDS_PAGE_SIZE] at hend ⊢
  omega

/-- **Overwrites** keep their contract on a well-formed page unless the slot is
    live and header and payload make up 2^16 bytes or more. -/
theorem overwrite_contract_iff (hinv : HeapInv f.page) (hdata : DataMatches new_data new_data_len) :
    OverwriteContract f slot_idx new_data new_data_len xmin xmax undo_ptr ↔
      ¬ (LiveSlot f.page slot_idx.toNat ∧ 2 ^ 16 ≤ KDS_HEAP_TUPLE_HDR_SIZE + new_data_len.toNat) := by
  constructor
  · rintro ⟨hsucceeds, -, -⟩ ⟨hlive, hlong⟩
    -- the wrapped sum is less than any slot's length, the sum itself is more
    have hhdr := hinv.hdr_fits _ hlive
    have hend := hinv.end_le _ hlive
    have hwrap := toNat_heapTupleLen_lt hlong
    have hpass : ¬ heapTupleLen new_data_len > (heapSlot f.page slot_idx.toNat).length := by
      rw [gt_iff_lt, UInt16.lt_iff_toNat_lt, Nat.not_lt]
      exact Nat.le_trans (Nat.le_of_lt hwrap) hhdr
    rw [heap_overwrite_live hdata hlive, if_neg hpass] at hsucceeds
    have hfits := (hsucceeds.mp rfl).2
    simp only [KDS_HEAP_TUPLE_HDR_SIZE, KDS_HEAP_NEXT_PAGE_OFFSET, KDS_PAGE_SIZE] at *
    omega
  · intro hsafe
    by_cases hlive : LiveSlot f.page slot_idx.toNat
    · have hlen : KDS_HEAP_TUPLE_HDR_SIZE + new_data_len.toNat < 2 ^ 16 :=
        Nat.lt_of_not_le fun hlong => hsafe ⟨hlive, hlong⟩
      refine ⟨?_, fun f' h => (heap_overwrite_inside hinv hlen h).outside,
        fun e f' h => heap_overwrite_fails hdata h⟩
      have htest : heapTupleLen new_data_len > (heapSlot f.page slot_idx.toNat).length ↔
          slotLength f.page slot_idx.toNat < KDS_HEAP_TUPLE_HDR_SIZE + new_data_len.toNat := by
        rw [gt_iff_lt, UInt16.lt_iff_toNat_lt, toNat_heapTupleLen hlen]
        rfl
      rw [heap_overwrite_live hdata hlive]
      by_cases hfit : slotLength f.page slot_idx.toNat < KDS_HEAP_TUPLE_HDR_SIZE + new_data_len.toNat
      · rw [if_pos (htest.mpr hfit)]
        refine iff_of_false (by simp) ?_
        rintro ⟨-, hle⟩
        omega
      · rw [if_neg (fun h => hfit (htest.mp h))]
        exact iff_of_true rfl ⟨hlive, Nat.le_of_not_lt hfit⟩
    · have herr : heap_overwrite_tuple f slot_idx new_data new_data_len xmin xmax undo_ptr =
          (.error .ENOENT, f) := heap_overwrite_dead hdata hlive
      refine ⟨?_, ?_, fun e f' h => heap_overwrite_fails hdata h⟩
      · rw [herr]
        simp [hlive]
      · intro f' h
        rw [herr] at h
        cases h

end overwrite

/-- A page with one row of eight bytes in front of the tail link. -/
def oneRowPage : Frame :=
  HeapOp.run (heap_init_page (blankFrame 200)) (.insert (some fun _ => 7) 8 1 0 0 true)

theorem oneRowPage_reachable : heapSystem.Reachable oneRowPage :=
  .step (.insert (some fun _ => 7) 8 1 0 0 true) (.init ⟨blankFrame 200, .heap, rfl⟩) ⟨trivial, rfl⟩

theorem oneRowPage_live : LiveSlot oneRowPage.page 0 := by decide +kernel

theorem overwrite_contract_eight :
    OverwriteContract oneRowPage 0 (some fun _ => 9) 8 2 0 0 :=
  (overwrite_contract_iff (heapInv_of_reachable oneRowPage_reachable) (.inr rfl)).mpr
    (fun h => absurd h.2 (by decide))

/-- A payload of 65535 bytes goes through on a slot of 36 bytes. -/
theorem overwrite_length_wraps :
    heapSystem.Reachable oneRowPage ∧ slotLength oneRowPage.page 0 = 36 ∧
      (heap_overwrite_tuple oneRowPage 0 (some fun _ => 9) 65535 2 0 0).1 = .ok () ∧
      ¬ OverwriteContract oneRowPage 0 (some fun _ => 9) 65535 2 0 0 := by
  have hret : (heap_overwrite_tuple oneRowPage 0 (some fun _ => 9) 65535 2 0 0).1 = .ok () := by
    decide +kernel
  refine ⟨oneRowPage_reachable, by decide +kernel, hret, ?_⟩
  intro h
  exact absurd (h.succeeds.mp hret).2 (by decide +kernel)

/-! ## Section 2: Reads -/

section read

variable {f : Frame} {slot_idx out_buf_size : UInt16}

/-- Payload bytes of the tuple in slot `i`, as its header announces them. -/
def dataLen (m : Mem) (i : Nat) : Nat := (heapTupleHdr m (slotOffset m i)).data_len.toNat

/-- What `heap_read_tuple` puts into the caller's buffer comes from the payload. -/
def CopiesPayload (f : Frame) (slot_idx out_buf_size : UInt16) : Prop :=
  ∀ hdr buf, heap_read_tuple f slot_idx true out_buf_size = .ok (hdr, buf) →
    ∃ n, n ≤ dataLen f.page slot_idx.toNat ∧
      buf = f.page.read (slotOffset f.page slot_idx.toNat + KDS_HEAP_TUPLE_HDR_SIZE) n

/-- Slot `i` is live on both pages, with the same entry, header and payload. -/
structure SameTuple (m m' : Mem) (i : Nat) : Prop where
  live : LiveSlot m i ∧ LiveSlot m' i
  slot : heapSlot m' i = heapSlot m i
  hdr : heapTupleHdr m' (slotOffset m i) = heapTupleHdr m (slotOffset m i)
  data : m'.read (slotOffset m i + KDS_HEAP_TUPLE_HDR_SIZE) (dataLen m i) =
    m.read (slotOffset m i + KDS_HEAP_TUPLE_HDR_SIZE) (dataLen m i)

/-- A read tells pages apart by the tuple that is read only. -/
def ReadsTupleOnly (f : Frame) (slot_idx out_buf_size : UInt16) : Prop :=
  ∀ g : Frame, HeapInv g.page → SameTuple f.page g.page slot_idx.toNat →
    heap_read_tuple g slot_idx true out_buf_size = heap_read_tuple f slot_idx true out_buf_size

/-- A live tuple's payload lies on the page. -/
theorem HeapInv.payload_in_page {m : Mem} (hinv : HeapInv m) {i : Nat} (hlive : LiveSlot m i) :
    slotOffset m i + KDS_HEAP_TUPLE_HDR_SIZE + dataLen m i ≤ KDS_PAGE_SIZE := by
  have hend := hinv.end_le i hlive
  have hfit := hinv.data_fits i hlive
  unfold dataLen
  simp only [KDS_HEAP_TUPLE_HDR_SIZE, KDS_HEAP_NEXT_PAGE_OFFSET, KDS_PAGE_SIZE] at *
  omega

/-- A read into a buffer that is large enough fills the whole buffer. -/
theorem heap_read_fills (hlive : LiveSlot f.page slot_idx.toNat)
    (hsize : dataLen f.page slot_idx.toNat ≤ out_buf_size.toNat) :
    heap_read_tuple f slot_idx true out_buf_size =
      .ok (heapTupleHdr f.page (slotOffset f.page slot_idx.toNat),
        f.page.read (slotOffset f.page slot_idx.toNat + KDS_HEAP_TUPLE_HDR_SIZE)
          out_buf_size.toNat) := by
  rw [heap_read_live hlive, if_neg]
  rw [gt_iff_lt, UInt16.lt_iff_toNat_lt, Nat.not_lt]
  exact hsize

theorem copiesPayload_iff (hlive : LiveSlot f.page slot_idx.toNat)
    (hsize : dataLen f.page slot_idx.toNat ≤ out_buf_size.toNat) :
    CopiesPayload f slot_idx out_buf_size ↔ out_buf_size.toNat = dataLen f.page slot_idx.toNat := by
  have hread := heap_read_fills hlive hsize
  constructor
  · intro h
    obtain ⟨n, hn, hbuf⟩ := h _ _ hread
    have hlen := congrArg List.length hbuf
    rw [Mem.length_read, Mem.length_read] at hlen
    omega
  · intro heq hdr buf h
    rw [hread] at h
    obtain ⟨-, rfl⟩ := Prod.mk.inj (Except.ok.inj h)
    exact ⟨out_buf_size.toNat, Nat.le_of_eq heq, rfl⟩

/-- A byte behind the directory may change, unless it is part of a live
    tuple's header other than the first byte of it. -/
theorem HeapInv.setByte {m : Mem} (hinv : HeapInv m) {b : Nat} (x : UInt8)
    (hdir : 49 + 5 * (heapMeta m).nr_slots.toNat ≤ b)
    (hhdr : ∀ j, LiveSlot m j → b ≤ slotOffset m j ∨ slotOffset m j + 28 ≤ b) :
    HeapInv (m.write b [x]) ∧ heapMeta (m.write b [x]) = heapMeta m ∧
      ∀ j < (heapMeta m).nr_slots.toNat, heapSlot (m.write b [x]) j = heapSlot m j := by
  have hother : ∀ a, a ≠ b → m.write b [x] a = m a := by
    intro a ha
    exact Mem.write_outside m (by simp only [List.length_singleton]; omega)
  have hmeta : heapMeta (m.write b [x]) = heapMeta m :=
    heapMeta_congr fun a _ _ => hother a (by omega)
  have hslot : ∀ j < (heapMeta m).nr_slots.toNat, heapSlot (m.write b [x]) j = heapSlot m j :=
    fun j hj => heapSlot_congr fun a _ _ => hother a (by omega)
  refine ⟨hinv.transfer hmeta fun j hj => ?_, hmeta, hslot⟩
  have hj' : j < (heapMeta m).nr_slots.toNat := by
    rw [← hmeta]
    exact hj.1
  have hlive : LiveSlot m j := ⟨hj', by rw [← hslot j hj']; exact hj.2⟩
  have hlen : (heapTupleHdr (m.write b [x]) (slotOffset m j)).data_len =
      (heapTupleHdr m (slotOffset m j)).data_len := by
    apply Mem.readU16_congr
    intro a _ _
    have := hhdr j hlive
    exact hother a (by omega)
  refine ⟨hlive, hslot j hj', ?_⟩
  rw [hlen]
  exact hinv.data_fits j hlive

/-- The byte behind a payload can be any other on a page with the same tuple. -/
theorem exists_sameTuple (hinv : HeapInv f.page) {i : Nat} (hlive : LiveSlot f.page i) :
    ∃ g : Frame, HeapInv g.page ∧ SameTuple f.page g.page i ∧
      g.page (slotOffset f.page i + 28 + dataLen f.page i) ≠
        f.page (slotOffset f.page i + 28 + dataLen f.page i) := by
  set b := slotOffset f.page i + 28 + dataLen f.page i with hb
  have harea := hinv.area_le hlive
  have hfit := hinv.data_fits i hlive
  simp only [KDS_HEAP_TUPLE_HDR_SIZE] at hfit
  have hhdr : ∀ j, LiveSlot f.page j → b ≤ slotOffset f.page j ∨ slotOffset f.page j + 28 ≤ b := by
    intro j hj
    by_cases hij : j = i
    · subst hij
      exact .inr (by omega)
    · have hjfit := hinv.hdr_fits j hj
      have hdis := hinv.disjoint i j hlive hj (Ne.symm hij)
      unfold dataLen at hb
      simp only [KDS_HEAP_TUPLE_HDR_SIZE] at hjfit
      omega
  obtain ⟨hinv', hmeta, hslot⟩ := hinv.setByte (f.page b + 1) (by omega) hhdr
  have hother : ∀ a, a ≠ b → f.page.write b [f.page b + 1] a = f.page a := by
    intro a ha
    exact Mem.write_outside _ (by simp only [List.length_singleton]; omega)
  refine ⟨{ f with page := f.page.write b [f.page b + 1] }, hinv', ⟨⟨hlive, ?_⟩, hslot i hlive.1, ?_, ?_⟩, ?_⟩
  · exact ⟨by rw [hmeta]; exact hlive.1, by rw [hslot i hlive.1]; exact hlive.2⟩
  · exact heapTupleHdr_congr fun a _ _ => hother a (by omega)
  · refine Mem.read_congr fun a _ ha => hother a ?_
    simp only [KDS_HEAP_TUPLE_HDR_SIZE] at ha
    omega
  · have hnew : f.page.write b [f.page b + 1] b = f.page b + 1 := by
      simpa using @Mem.write_inside f.page b 0 [f.page b + 1] (by simp)
    show f.page.write b [f.page b + 1] b ≠ f.page b
    rw [hnew]
    intro heq
    have hnat := congrArg UInt8.toNat heq
    rw [UInt8.toNat_add] at hnat
    have hlt := (f.page b).toNat_lt
    simp only [UInt8.reduceToNat] at hnat
    omega

theorem readsTupleOnly_iff (hinv : HeapInv f.page) (hlive : LiveSlot f.page slot_idx.toNat)
    (hsize : dataLen f.page slot_idx.toNat ≤ out_buf_size.toNat) :
    ReadsTupleOnly f slot_idx out_buf_size ↔ out_buf_size.toNat = dataLen f.page slot_idx.toNat := by
  -- what a page with the same tuple returns
  have hread : ∀ g : Frame, SameTuple f.page g.page slot_idx.toNat →
      heap_read_tuple g slot_idx true out_buf_size =
        .ok (heapTupleHdr f.page (slotOffset f.page slot_idx.toNat),
          g.page.read (slotOffset f.page slot_idx.toNat + KDS_HEAP_TUPLE_HDR_SIZE)
            out_buf_size.toNat) := by
    intro g hsame
    have hoff : slotOffset g.page slot_idx.toNat = slotOffset f.page slot_idx.toNat := by
      rw [slotOffset, slotOffset, hsame.slot]
    have hlen : dataLen g.page slot_idx.toNat = dataLen f.page slot_idx.toNat := by
      rw [dataLen, dataLen, hoff, hsame.hdr]
    rw [heap_read_fills hsame.live.2 (by rw [hlen]; exact hsize), hoff, hsame.hdr]
  constructor
  · intro h
    by_contra hne
    obtain ⟨g, hginv, hsame, hbyte⟩ := exists_sameTuple hinv hlive
    have heq := h g hginv hsame
    rw [hread g hsame, heap_read_fills hlive hsize] at heq
    have hbufs := (Prod.mk.inj (Except.ok.inj heq)).2
    have hidx : dataLen f.page slot_idx.toNat < out_buf_size.toNat := by omega
    have hat := congrArg (fun bs : List UInt8 => bs[dataLen f.page slot_idx.toNat]?) hbufs
    simp only [Mem.read, List.getElem?_map, List.getElem?_range hidx, Option.map_some,
      Option.some.injEq] at hat
    exact hbyte hat
  · intro heq g _ hsame
    rw [hread g hsame, heap_read_fills hlive hsize, heq, hsame.data]

/-- **Reads**: on every page a history reaches the payload of a live tuple lies
    on the page; a read copies nothing but payload, and tells nothing about the
    rest of the page, exactly if the buffer has the size of the payload. -/
theorem read_contract_iff (h : heapSystem.Reachable f) (hlive : LiveSlot f.page slot_idx.toNat)
    (hsize : dataLen f.page slot_idx.toNat ≤ out_buf_size.toNat) :
    slotOffset f.page slot_idx.toNat + KDS_HEAP_TUPLE_HDR_SIZE + dataLen f.page slot_idx.toNat ≤
        KDS_PAGE_SIZE ∧
      (CopiesPayload f slot_idx out_buf_size ↔
        out_buf_size.toNat = dataLen f.page slot_idx.toNat) ∧
      (ReadsTupleOnly f slot_idx out_buf_size ↔
        out_buf_size.toNat = dataLen f.page slot_idx.toNat) := by
  have hinv := heapInv_of_reachable h
  exact ⟨hinv.payload_in_page hlive, copiesPayload_iff hlive hsize, readsTupleOnly_iff hinv hlive hsize⟩

end read

theorem read_contract_eight :
    CopiesPayload oneRowPage 0 8 ∧ ReadsTupleOnly oneRowPage 0 8 := by
  obtain ⟨-, hcopies, hsame⟩ := @read_contract_iff oneRowPage 0 8 oneRowPage_reachable
    oneRowPage_live (by decide +kernel)
  exact ⟨hcopies.mpr (by decide +kernel), hsame.mpr (by decide +kernel)⟩

/-- With a buffer of 256 bytes, as the callers have it, the read of the row next
    to the tail link runs over the link and 240 bytes behind the page. -/
theorem read_leaves_page :
    heapSystem.Reachable oneRowPage ∧ LiveSlot oneRowPage.page 0 ∧
      slotOffset oneRowPage.page 0 + KDS_HEAP_TUPLE_HDR_SIZE + 256 = KDS_PAGE_SIZE + 240 ∧
      ¬ CopiesPayload oneRowPage 0 256 ∧ ¬ ReadsTupleOnly oneRowPage 0 256 := by
  have hinv := heapInv_of_reachable oneRowPage_reachable
  refine ⟨oneRowPage_reachable, oneRowPage_live, by decide +kernel, ?_, ?_⟩
  · rw [@copiesPayload_iff oneRowPage 0 256 oneRowPage_live (by decide +kernel)]
    decide +kernel
  · rw [@readsTupleOnly_iff oneRowPage 0 256 hinv oneRowPage_live (by decide +kernel)]
    decide +kernel

/-! ## Section 3: Updates -/

section update

variable {f u : Frame} {slot_idx : UInt16} {new_data : Option Mem} {new_data_len : UInt16}
  {xid owner_oid undo_ptr : UInt64} {kmalloc : Bool}

/-- The live tuples of a page: the slots that hold one, with its header and payload. -/
structure SameTuples (m m' : Mem) : Prop where
  live : ∀ i, LiveSlot m' i ↔ LiveSlot m i
  same : ∀ i, LiveSlot m i → SameTuple m m' i

/-- An update that fails leaves the live tuples of the target page as they were. -/
def UpdateFailsClean (f : Frame) (slot_idx : UInt16) (new_data : Option Mem) (new_data_len : UInt16)
    (xid owner_oid : UInt64) (u : Frame) (kmalloc : Bool) : Prop :=
  ∀ e f' u', kds_heap_update_tuple f slot_idx new_data new_data_len xid owner_oid u kmalloc =
    (.error e, f', u') → SameTuples f.page f'.page

/-- The new version fits neither into the old slot nor into the free space. -/
def FitsNowhere (f : Frame) (slot_idx new_data_len : UInt16) : Prop :=
  slotLength f.page slot_idx.toNat < KDS_HEAP_TUPLE_HDR_SIZE + new_data_len.toNat ∧
    (heapMeta f.page).upper.toNat < (heapMeta f.page).lower.toNat +
      (KDS_HEAP_SLOT_SIZE + KDS_HEAP_TUPLE_HDR_SIZE + new_data_len.toNat)

instance : Decidable (FitsNowhere f slot_idx new_data_len) := inferInstanceAs (Decidable (_ ∧ _))

/-- Nothing fails before the update gets to the new version: the payload
    pointer is there, the old version fits into an undo entry and into memory,
    and the undo page has room for the entry. -/
def UndoGoesThrough (f : Frame) (slot_idx : UInt16) (new_data : Option Mem) (new_data_len : UInt16)
    (u : Frame) (kmalloc : Bool) : Prop :=
  DataMatches new_data new_data_len ∧ dataLen f.page slot_idx.toNat ≤ KDS_UNDO_MAX_OLD_DATA ∧
    (dataLen f.page slot_idx.toNat = 0 ∨ kmalloc = true) ∧
    is_heap_insert_possible (heapMeta u.page) (heapNeeded (UInt16.ofNat KDS_UNDO_ENTRY_SIZE)) = true

instance : Decidable (UndoGoesThrough f slot_idx new_data new_data_len u kmalloc) :=
  inferInstanceAs (Decidable ((_ ∨ _) ∧ _))

theorem SameTuples.refl (m : Mem) : SameTuples m m :=
  ⟨fun _ => .rfl, fun _ hlive => ⟨⟨hlive, hlive⟩, rfl, rfl, rfl⟩⟩

/-! ### The three calls an update makes on the target page -/

theorem heap_slot_capacity_live (hinv : HeapInv f.page) (hlive : LiveSlot f.page slot_idx.toNat) :
    ∃ old_capacity, heap_slot_capacity f slot_idx = .ok old_capacity ∧
      old_capacity.toNat + KDS_HEAP_TUPLE_HDR_SIZE = slotLength f.page slot_idx.toNat := by
  have hhdr := hinv.hdr_fits _ hlive
  unfold slotLength at hhdr ⊢
  refine ⟨(heapSlot f.page slot_idx.toNat).length - UInt16.ofNat KDS_HEAP_TUPLE_HDR_SIZE, ?_, ?_⟩
  · unfold heap_slot_capacity
    rw [if_neg hlive.in_directory]
    dsimp only
    rw [if_neg (by simp [hlive.2])]
  · have hle : UInt16.ofNat KDS_HEAP_TUPLE_HDR_SIZE ≤ (heapSlot f.page slot_idx.toNat).length := by
      rw [UInt16.le_iff_toNat_le]
      exact hhdr
    rw [UInt16.toNat_sub_of_le _ _ hle]
    exact Nat.sub_add_cancel hhdr

/-- An insert with a payload pointer fails exactly for want of space. -/
theorem heap_insert_fails_iff (hinv : HeapInv f.page) (hdata : DataMatches new_data new_data_len) :
    (∃ e, heap_insert_tuple_ex f new_data new_data_len xid 0 undo_ptr true = (.error e, f)) ↔
      (heapMeta f.page).upper.toNat < (heapMeta f.page).lower.toNat +
        (KDS_HEAP_SLOT_SIZE + KDS_HEAP_TUPLE_HDR_SIZE + new_data_len.toNat) := by
  have hle := hinv.lower_le
  have hup := hinv.upper_le
  simp only [KDS_HEAP_NEXT_PAGE_OFFSET, KDS_PAGE_SIZE] at hup
  unfold heap_insert_tuple_ex
  rw [if_neg (by simp), if_neg hdata.not_null]
  by_cases hlen : new_data_len.toNat > KDS_PAGE_SIZE
  · rw [if_pos hlen]
    refine iff_of_true ⟨_, rfl⟩ ?_
    simp only [KDS_PAGE_SIZE] at hlen
    omega
  · rw [if_neg hlen]
    simp only [KDS_PAGE_SIZE, Nat.not_lt] at hlen
    have hroom : is_heap_insert_possible (heapMeta f.page) (heapNeeded new_data_len) = true ↔
        (heapMeta f.page).lower.toNat + (KDS_HEAP_SLOT_SIZE + KDS_HEAP_TUPLE_HDR_SIZE +
          new_data_len.toNat) ≤ (heapMeta f.page).upper.toNat := by
      unfold is_heap_insert_possible heapNeeded
      rw [decide_eq_true_iff, ge_iff_le, UInt16.le_iff_toNat_le, UInt16.toNat_ofNat', UInt16.toNat_sub]
      simp only [KDS_HEAP_SLOT_SIZE, KDS_HEAP_TUPLE_HDR_SIZE]
      omega
    dsimp only
    by_cases hposs : is_heap_insert_possible (heapMeta f.page) (heapNeeded new_data_len) = true
    · rw [if_neg (by simp [hposs])]
      refine iff_of_false (by simp) ?_
      have := hroom.mp hposs
      omega
    · rw [if_pos (by simpa using hposs)]
      refine iff_of_true ⟨_, rfl⟩ ?_
      rw [hroom] at hposs
      omega

theorem heap_retire_live (hlive : LiveSlot f.page slot_idx.toNat) :
    ∃ f', heap_retire_slot f slot_idx = (.ok (), f') ∧
      RetireEffect f.page f'.page slot_idx.toNat := by
  have hret : heap_retire_slot f slot_idx = (.ok (), (heap_retire_slot f slot_idx).2) := by
    unfold heap_retire_slot
    dsimp only
    rw [if_neg hlive.in_directory]
  exact ⟨_, hret, heap_retire_effect hret⟩

/-- The second half of an update goes through, or the new version fits nowhere
    and the old slot has been retired. -/
theorem updatePlace_cases (hinv : HeapInv f.page) (hlive : LiveSlot f.page slot_idx.toNat)
    (hdata : DataMatches new_data new_data_len) :
    (¬ FitsNowhere f slot_idx new_data_len ∧
        ∃ tid, (updatePlace f slot_idx new_data new_data_len xid undo_ptr).1 = .ok tid) ∨
      FitsNowhere f slot_idx new_data_len ∧
        ∃ e f', updatePlace f slot_idx new_data new_data_len xid undo_ptr = (.error e, f') ∧
          ¬ LiveSlot f'.page slot_idx.toNat := by
  obtain ⟨old_capacity, hcap, hlen⟩ := heap_slot_capacity_live hinv hlive
  have hend := hinv.end_le _ hlive
  simp only [KDS_HEAP_NEXT_PAGE_OFFSET, KDS_PAGE_SIZE, KDS_HEAP_TUPLE_HDR_SIZE] at hend hlen
  unfold updatePlace FitsNowhere
  rw [hcap]
  dsimp only
  by_cases hfit : new_data_len ≤ old_capacity
  · -- in place
    have hfit' := UInt16.le_iff_toNat_le.mp hfit
    rw [if_pos hfit]
    left
    constructor
    · simp only [KDS_HEAP_TUPLE_HDR_SIZE]
      omega
    -- what fits into the slot's capacity overwrites it
    · have hover : (heap_overwrite_tuple f slot_idx new_data new_data_len xid 0 undo_ptr).1 = .ok () := by
        rw [heap_overwrite_live hdata hlive, if_neg]
        rw [gt_iff_lt, UInt16.lt_iff_toNat_lt, toNat_heapTupleLen (by simp; omega)]
        unfold slotLength at hlen
        simp only [KDS_HEAP_TUPLE_HDR_SIZE]
        omega
      obtain ⟨g, hg⟩ : ∃ g, heap_overwrite_tuple f slot_idx new_data new_data_len xid 0 undo_ptr =
          (.ok (), g) := ⟨_, Prod.ext hover rfl⟩
      rw [hg]
      exact ⟨_, rfl⟩
  · -- in a new slot, with the old one retired
    rw [UInt16.le_iff_toNat_le] at hfit
    rw [if_neg (fun h => hfit (UInt16.le_iff_toNat_le.mp h))]
    -- the slot is gone before the insert is tried
    obtain ⟨g, hg, heff⟩ := heap_retire_live hlive
    have hginv := heff.inv hinv
    have hfails := @heap_insert_fails_iff g new_data new_data_len xid undo_ptr hginv hdata
    rw [heff.meta_eq] at hfails
    rw [hg]
    dsimp only
    cases hins : heap_insert_tuple_ex g new_data new_data_len xid 0 undo_ptr true with
    | mk res f' =>
      cases res with
      | ok tid =>
        left
        refine ⟨fun hstuck => ?_, tid, rfl⟩
        obtain ⟨e, he⟩ := hfails.mpr hstuck.2
        rw [hins] at he
        cases he
      | error e =>
        right
        -- a failed insert leaves the page as the retire left it
        have hsame : f' = g := heap_insert_error hins
        subst hsame
        refine ⟨⟨?_, hfails.mp ⟨e, hins⟩⟩, e, f', rfl, ?_⟩
        · simp only [KDS_HEAP_TUPLE_HDR_SIZE]
          omega
        · intro hlive'
          exact (heff.live_cases hlive').1 rfl

/-! ### The call -/

/-- An undo entry that is not too long is written if the undo page has room. -/
theorem kds_undo_write_cases {old_tid : HeapTid} {prev xmin : UInt64} {old_data : Option Mem}
    {old_data_len : UInt16} (hlen : old_data_len.toNat ≤ KDS_UNDO_MAX_OLD_DATA)
    (hdata : DataMatches old_data old_data_len) :
    (is_heap_insert_possible (heapMeta u.page) (heapNeeded (UInt16.ofNat KDS_UNDO_ENTRY_SIZE)) = true ∧
        ∃ tid u', kds_undo_write_entry u owner_oid old_tid prev xmin xid KDS_UNDO_OP_UPDATE old_data
          old_data_len xid true = (.ok tid, u')) ∨
      is_heap_insert_possible (heapMeta u.page) (heapNeeded (UInt16.ofNat KDS_UNDO_ENTRY_SIZE)) = false ∧
        ∃ e u', kds_undo_write_entry u owner_oid old_tid prev xmin xid KDS_UNDO_OP_UPDATE old_data
          old_data_len xid true = (.error e, u') := by
  unfold kds_undo_write_entry heap_insert_tuple_ex
  rw [if_neg (by simp), if_neg (Nat.not_lt.mpr hlen), if_neg hdata.not_null, if_neg (by simp),
    if_neg (by simp), if_neg (by decide)]
  dsimp only
  cases hroom : is_heap_insert_possible (heapMeta u.page) (heapNeeded (UInt16.ofNat KDS_UNDO_ENTRY_SIZE))
  · exact .inr ⟨rfl, _, _, rfl⟩
  · exact .inl ⟨rfl, _, _, rfl⟩

/-- What an update of a live tuple does: it fails before it touches the target
    page, or what it does there is up to the second half. -/
theorem kds_heap_update_cases (hlive : LiveSlot f.page slot_idx.toNat) :
    (¬ UndoGoesThrough f slot_idx new_data new_data_len u kmalloc ∧
        ∃ e u', kds_heap_update_tuple f slot_idx new_data new_data_len xid owner_oid u kmalloc =
          (.error e, f, u')) ∨
      UndoGoesThrough f slot_idx new_data new_data_len u kmalloc ∧
        ∃ undo_ptr u', kds_heap_update_tuple f slot_idx new_data new_data_len xid owner_oid u kmalloc =
          ((updatePlace f slot_idx new_data new_data_len xid undo_ptr).1,
            (updatePlace f slot_idx new_data new_data_len xid undo_ptr).2, u') := by
  have hhead : heap_read_tuple f slot_idx false 0 =
      .ok (heapTupleHdr f.page (slotOffset f.page slot_idx.toNat), []) := by
    unfold heap_read_tuple heapReadTuple
    rw [if_neg hlive.in_directory]
    simp [hlive.2, slotOffset]
  unfold kds_heap_update_tuple UndoGoesThrough
  by_cases hdata : DataMatches new_data new_data_len
  · rw [if_neg hdata.not_null, hhead]
    dsimp only
    set old_hdr := heapTupleHdr f.page (slotOffset f.page slot_idx.toNat) with hold
    have hlen : dataLen f.page slot_idx.toNat = old_hdr.data_len.toNat := rfl
    by_cases hbig : old_hdr.data_len.toNat > KDS_UNDO_MAX_OLD_DATA
    · rw [if_pos hbig]
      refine .inl ⟨fun h => ?_, _, _, rfl⟩
      have := h.2.1
      omega
    rw [if_neg hbig]
    by_cases hmem : (old_hdr.data_len > 0 && !kmalloc) = true
    · rw [if_pos hmem]
      refine .inl ⟨fun h => ?_, _, _, rfl⟩
      simp only [gt_iff_lt, Bool.and_eq_true, decide_eq_true_eq, Bool.not_eq_eq_eq_not, Bool.not_true,
        UInt16.lt_iff_toNat_lt, UInt16.toNat_zero] at hmem
      rcases h.2.2.1 with hzero | hk
      · omega
      · rw [hk] at hmem
        simp at hmem
    rw [if_neg hmem]
    have hread := (heap_read_exact hhead).2
    generalize hbuf : (ite (old_hdr.data_len > 0) _ _ : Except Errno (HeapTupleHdr × Option Mem)) = buf
    -- the second read gives the payload, if there is one
    obtain ⟨old_data, hmatch, rfl⟩ : ∃ old_data, DataMatches old_data old_hdr.data_len ∧
        buf = .ok (old_hdr, old_data) := by
      subst hbuf
      by_cases hpos : old_hdr.data_len > 0
      · rw [if_pos hpos, hread]
        exact ⟨_, .inr rfl, rfl⟩
      · rw [if_neg hpos]
        refine ⟨none, .inl (UInt16.toNat_inj.mp ?_), rfl⟩
        rw [gt_iff_lt, UInt16.lt_iff_toNat_lt] at hpos
        simpa using hpos
    dsimp only
    have hthere : dataLen f.page slot_idx.toNat = 0 ∨ kmalloc = true := by
      rw [hlen]
      cases kmalloc with
      | true => exact .inr rfl
      | false =>
        left
        simpa [UInt16.lt_iff_toNat_lt] using hmem
    rcases @kds_undo_write_cases u xid owner_oid { page_id := f.id, slot := slot_idx } old_hdr.undo_ptr
        old_hdr.xmin old_data old_hdr.data_len (Nat.le_of_not_lt hbig) hmatch with
      ⟨hroom, tid, u', hwrite⟩ | ⟨hroom, e, u', hwrite⟩
    · rw [hwrite]
      exact .inr ⟨⟨hdata, Nat.le_of_not_lt hbig, hthere, hroom⟩, kds_heap_tid_pack tid, u', rfl⟩
    · rw [hwrite]
      refine .inl ⟨fun h => ?_, e, u', rfl⟩
      rw [h.2.2.2] at hroom
      cases hroom
  · have hnull : (new_data_len > 0 && new_data.isNone) = true := by
      unfold DataMatches at hdata
      rw [not_or] at hdata
      have hpos : new_data_len > 0 := by
        rw [gt_iff_lt, UInt16.lt_iff_toNat_lt]
        exact Nat.pos_of_ne_zero fun h => hdata.1 (UInt16.toNat_inj.mp h)
      simp [hpos, Option.not_isSome_iff_eq_none.mp hdata.2]
    rw [if_pos hnull]
    exact .inl ⟨fun h => hdata h.1, _, _, rfl⟩

/-- **Updates**: an update of a live tuple on a well-formed page leaves all
    tuples as they were when it fails, unless it gets past the undo entry with
    a version that fits nowhere. -/
theorem update_fails_clean_iff (hinv : HeapInv f.page) (hlive : LiveSlot f.page slot_idx.toNat) :
    UpdateFailsClean f slot_idx new_data new_data_len xid owner_oid u kmalloc ↔
      ¬ (UndoGoesThrough f slot_idx new_data new_data_len u kmalloc ∧
        FitsNowhere f slot_idx new_data_len) := by
  unfold UpdateFailsClean
  rcases @kds_heap_update_cases f u slot_idx new_data new_data_len xid owner_oid kmalloc hlive with
    ⟨hstop, e, u', hrun⟩ | ⟨hundo, undo_ptr, u', hrun⟩
  · refine iff_of_true ?_ fun h => hstop h.1
    intro e' f' u'' h
    rw [hrun] at h
    obtain ⟨-, rfl, -⟩ : _ ∧ f = f' ∧ _ := by simpa using h
    exact .refl _
  · rcases @updatePlace_cases f slot_idx new_data new_data_len xid undo_ptr hinv hlive hundo.1 with
      ⟨hfits, tid, hok⟩ | ⟨hstuck, e, f', herr, hdead⟩
    · refine iff_of_true ?_ fun h => hfits h.2
      intro e f' u'' h
      rw [hrun, hok] at h
      simp at h
    · refine iff_of_false ?_ fun h => h ⟨hundo, hstuck⟩
      intro h
      rw [herr] at hrun
      exact hdead (((h e f' u' hrun).live slot_idx.toNat).mpr hlive)

end update

theorem update_fails_clean_eight :
    UpdateFailsClean oneRowPage 0 (some fun _ => 9) 8 2 1 (heap_init_page_as (blankFrame 201) .undo) true :=
  (@update_fails_clean_iff oneRowPage _ 0 (some fun _ => 9) 8 2 1 true
    (heapInv_of_reachable oneRowPage_reachable) oneRowPage_live).mpr
    (fun h => absurd h.2 (by decide +kernel))

/-- A new version of 8100 bytes does not fit beside the old one: the update
    returns `ENOSPC`, and the old version is gone. -/
theorem update_loses_tuple :
    heapSystem.Reachable oneRowPage ∧ LiveSlot oneRowPage.page 0 ∧
      ¬ UpdateFailsClean oneRowPage 0 (some fun _ => 9) 8100 2 1
        (heap_init_page_as (blankFrame 201) .undo) true := by
  refine ⟨oneRowPage_reachable, oneRowPage_live, ?_⟩
  intro h
  have hrun : (kds_heap_update_tuple oneRowPage 0 (some fun _ => 9) 8100 2 1
      (heap_init_page_as (blankFrame 201) .undo) true).1 = .error .ENOSPC := by decide +kernel
  have hclean := h .ENOSPC _ _ (Prod.ext hrun rfl)
  exact absurd ((hclean.live 0).mpr oneRowPage_live) (by decide +kernel)

end Kds
