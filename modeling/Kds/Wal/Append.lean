import Kds.Wal.Stream

/-! # Appends are bounded

    `kds_wal_append` on any ring state that is not overfull, with any header
    and body: the offsets need not come from a run, and they may be anywhere
    in their 64 bits. The bytes between the two offsets are a queue; an append
    puts the record at its end or leaves everything as it was.

    The size of a record is computed in 32 bits. A body length from 2^32 - 36
    on makes it wrap to less than a header, both limits are passed, and the
    copies that follow use the length as it is: they run over the end of the
    ring.
-/

open Bytes

namespace Kds

/-! ## Section 1: The queue between the offsets -/

/-- The bytes appended and not flushed yet. -/
def WalBuf.unflushed (b : WalBuf) : List UInt8 :=
  Ring.window b.buf KDS_WAL_BUF_SIZE (ringIndex b.flush_off) (wal_buf_used b).toNat

theorem ringIndex_eq (off : UInt64) : ringIndex off = off.toNat % KDS_WAL_BUF_SIZE := by
  rw [← ringIndex_ofNat, UInt64.ofNat_toNat]

/-- The ring's size divides 2^64, so a wrapped offset has the same index. -/
theorem ringIndex_write_off (b : WalBuf) :
    ringIndex b.write_off = (ringIndex b.flush_off + (wal_buf_used b).toNat) % KDS_WAL_BUF_SIZE := by
  have hw := b.write_off.toNat_lt
  have hf := b.flush_off.toNat_lt
  unfold wal_buf_used
  rw [ringIndex_eq, ringIndex_eq, UInt64.toNat_sub]
  simp only [KDS_WAL_BUF_SIZE]
  omega

theorem toNat_wal_buf_free {b : WalBuf} (h : (wal_buf_used b).toNat ≤ KDS_WAL_BUF_SIZE) :
    (wal_buf_free b).toNat = KDS_WAL_BUF_SIZE - (wal_buf_used b).toNat := by
  have hlt := (wal_buf_used b).toNat_lt
  unfold wal_buf_free
  rw [UInt64.toNat_sub, UInt64.toNat_ofNat']
  simp only [KDS_WAL_BUF_SIZE] at h ⊢
  omega

section push

variable {b : WalBuf} {bs : List UInt8} {hdr : WalRecHdr} {body : List UInt8}

theorem push_used (hfit : (wal_buf_used b).toNat + bs.length ≤ KDS_WAL_BUF_SIZE) :
    (wal_buf_used (b.push bs)).toNat = (wal_buf_used b).toNat + bs.length := by
  have hw := b.write_off.toNat_lt
  have hf := b.flush_off.toNat_lt
  unfold wal_buf_used at hfit ⊢
  show (b.write_off + UInt64.ofNat bs.length - b.flush_off).toNat = _
  rw [UInt64.toNat_sub] at hfit
  rw [UInt64.toNat_sub, UInt64.toNat_sub, UInt64.toNat_add, UInt64.toNat_ofNat']
  simp only [KDS_WAL_BUF_SIZE] at hfit
  omega

/-- A copy that fits goes to the end of the queue. -/
theorem push_unflushed (hfit : (wal_buf_used b).toNat + bs.length ≤ KDS_WAL_BUF_SIZE) :
    (b.push bs).unflushed = b.unflushed ++ bs := by
  unfold WalBuf.unflushed
  rw [push_used hfit]
  show Ring.window (Ring.copyIn b.buf KDS_WAL_BUF_SIZE (ringIndex b.write_off) bs) _
    (ringIndex b.flush_off) _ = _
  rw [ringIndex_write_off]
  exact Ring.window_copyIn b.buf (by decide) hfit

/-- Header and body, one after the other. -/
theorem pushRecord_unflushed (hbody : hdr.body_len.toNat ≤ body.length)
    (hfit : (wal_buf_used b).toNat + (KDS_WAL_REC_HDR_SIZE + hdr.body_len.toNat) ≤ KDS_WAL_BUF_SIZE) :
    (wal_buf_used (pushRecord b hdr (some body))).toNat =
        (wal_buf_used b).toNat + (KDS_WAL_REC_HDR_SIZE + hdr.body_len.toNat) ∧
      (pushRecord b hdr (some body)).unflushed =
        b.unflushed ++ (hdr.bytes ++ body.take hdr.body_len.toNat) ∧
      (pushRecord b hdr (some body)).write_off =
        b.write_off + UInt64.ofNat (KDS_WAL_REC_HDR_SIZE + hdr.body_len.toNat) ∧
      (pushRecord b hdr (some body)).flush_off = b.flush_off := by
  have hlen : (body.take hdr.body_len.toNat).length = hdr.body_len.toNat :=
    List.length_take_of_le hbody
  have hhdr : (wal_buf_used b).toNat + hdr.bytes.length ≤ KDS_WAL_BUF_SIZE := by
    rw [WalRecHdr.length_bytes]
    omega
  have hused := push_used hhdr
  have hqueue := push_unflushed hhdr
  rw [WalRecHdr.length_bytes] at hused
  unfold pushRecord
  by_cases hpos : hdr.body_len > 0
  · rw [if_pos ⟨rfl, hpos⟩]
    show (wal_buf_used ((b.push hdr.bytes).push (body.take hdr.body_len.toNat))).toNat = _ ∧
      ((b.push hdr.bytes).push (body.take hdr.body_len.toNat)).unflushed = _ ∧
      b.write_off + UInt64.ofNat hdr.bytes.length +
        UInt64.ofNat (body.take hdr.body_len.toNat).length = _ ∧ _
    -- with the header in the ring there is still room for the body
    have hfit₂ : (wal_buf_used (b.push hdr.bytes)).toNat + (body.take hdr.body_len.toNat).length ≤
        KDS_WAL_BUF_SIZE := by
      rw [hused, hlen]
      omega
    refine ⟨?_, ?_, ?_, by rw [push_flush_off, push_flush_off]⟩
    · rw [push_used hfit₂, hused, hlen, Nat.add_assoc]
    · rw [push_unflushed hfit₂, hqueue, List.append_assoc]
    · rw [hlen, WalRecHdr.length_bytes, UInt64.add_assoc, ← UInt64.ofNat_add]
  · rw [if_neg (fun h => hpos h.2)]
    -- a record without a body is its header
    have hzero : hdr.body_len.toNat = 0 := by
      rw [gt_iff_lt, UInt32.lt_iff_toNat_lt] at hpos
      simpa using hpos
    refine ⟨?_, ?_, ?_, push_flush_off b hdr.bytes⟩
    · rw [hused, hzero, Nat.add_zero]
    · rw [hqueue, hzero, List.take_zero, List.append_nil]
    · show b.write_off + UInt64.ofNat hdr.bytes.length = _
      rw [WalRecHdr.length_bytes, hzero, Nat.add_zero]

end push

/-! ## Section 2: The call -/

/-- What `kds_wal_append` is to do: fail and change nothing, or put a record
    that is within the limits, and not longer than the free space, at the end
    of the queue. In any case it returns. -/
structure AppendContract (crc32c : UInt32 → List UInt8 → UInt32) (w : WalState) (hdr : WalRecHdr)
    (body : List UInt8) : Prop where
  returns : ∀ fault, kds_wal_append crc32c w hdr (some body) ≠ .error fault
  fails : ∀ e w', kds_wal_append crc32c w hdr (some body) = .ok (.error e, w') → w' = w
  bounded : ∀ rec w', kds_wal_append crc32c w hdr (some body) = .ok (.ok rec, w') →
    KDS_WAL_REC_HDR_SIZE + hdr.body_len.toNat ≤ (wal_buf_free w.buf).toNat ∧
      KDS_WAL_REC_HDR_SIZE + hdr.body_len.toNat ≤ KDS_WAL_MAX_REC_SIZE
  advances : ∀ rec w', kds_wal_append crc32c w hdr (some body) = .ok (.ok rec, w') →
    w'.buf.write_off =
        w.buf.write_off + UInt64.ofNat (KDS_WAL_REC_HDR_SIZE + hdr.body_len.toNat) ∧
      w'.buf.flush_off = w.buf.flush_off
  keeps : ∀ rec w', kds_wal_append crc32c w hdr (some body) = .ok (.ok rec, w') →
    w'.buf.unflushed = w.buf.unflushed ++ (rec.bytes ++ body.take hdr.body_len.toNat) ∧
      (wal_buf_used w'.buf).toNat ≤ KDS_WAL_BUF_SIZE

/-- The 32-bit size wraps, and what is left of it finds room in the ring. -/
def SizeWraps (w : WalState) (hdr : WalRecHdr) : Prop :=
  2 ^ 32 ≤ KDS_WAL_REC_HDR_SIZE + hdr.body_len.toNat ∧
    KDS_WAL_REC_HDR_SIZE + hdr.body_len.toNat - 2 ^ 32 ≤ (wal_buf_free w.buf).toNat

section append

variable {crc32c : UInt32 → List UInt8 → UInt32} {w : WalState} {hdr : WalRecHdr} {body : List UInt8}

theorem toNat_total (hdr : WalRecHdr) :
    (UInt32.ofNat KDS_WAL_REC_HDR_SIZE + hdr.body_len).toNat =
      (KDS_WAL_REC_HDR_SIZE + hdr.body_len.toNat) % 2 ^ 32 := by
  rw [UInt32.toNat_add, UInt32.toNat_ofNat']
  simp only [KDS_WAL_REC_HDR_SIZE, Nat.mod_add_mod]

/-- What a call that goes through has tested, and what it does. -/
theorem kds_wal_append_effect {body : Option (List UInt8)} {rec : WalRecHdr} {w' : WalState}
    (h : kds_wal_append crc32c w hdr body = .ok (.ok rec, w')) :
    (KDS_WAL_REC_HDR_SIZE + hdr.body_len.toNat) % 2 ^ 32 ≤ KDS_WAL_MAX_REC_SIZE ∧
      (KDS_WAL_REC_HDR_SIZE + hdr.body_len.toNat) % 2 ^ 32 ≤ (wal_buf_free w.buf).toNat ∧
      rec = fillHdr crc32c w hdr body ∧
      w'.buf = { pushRecord w.buf rec body with current_lsn := nextLsn w.buf } := by
  unfold kds_wal_append at h
  dsimp only at h
  split_ifs at h with hmax hfree hover
  · cases (Prod.mk.inj (Except.ok.inj h)).1
  · cases (Prod.mk.inj (Except.ok.inj h)).1
  obtain ⟨hrec, rfl⟩ := Prod.mk.inj (Except.ok.inj h)
  rw [toNat_total] at hmax hfree
  obtain rfl := Except.ok.inj hrec
  exact ⟨Nat.le_of_not_lt hmax, Nat.le_of_not_lt hfree, rfl, rfl⟩

/-- A size that wraps passes both tests, and the body runs over the end of the ring. -/
theorem kds_wal_append_wraps (hwraps : SizeWraps w hdr) :
    kds_wal_append crc32c w hdr (some body) = .error .outOfBounds := by
  obtain ⟨hlong, hroom⟩ := hwraps
  have hlt := hdr.body_len.toNat_lt
  have hover : copyOverruns w.buf hdr (some body) := by
    refine ⟨rfl, ?_⟩
    simp only [KDS_WAL_REC_HDR_SIZE, KDS_WAL_BUF_SIZE] at hlong ⊢
    omega
  simp only [KDS_WAL_REC_HDR_SIZE] at hlong hroom
  unfold kds_wal_append
  dsimp only
  rw [if_neg, if_neg, if_pos hover]
  · rw [toNat_total]
    simp only [KDS_WAL_REC_HDR_SIZE]
    omega
  · rw [toNat_total]
    simp only [KDS_WAL_REC_HDR_SIZE, KDS_WAL_MAX_REC_SIZE]
    omega

/-- No wrap, no overrun: a longer record has been refused. -/
theorem kds_wal_append_returns {body : Option (List UInt8)} (hsafe : ¬ SizeWraps w hdr) (fault : Fault) :
    kds_wal_append crc32c w hdr body ≠ .error fault := by
  intro h
  have hlt := hdr.body_len.toNat_lt
  unfold kds_wal_append at h
  dsimp only at h
  split_ifs at h with hmax hfree hover
  rw [toNat_total] at hmax hfree
  refine not_copyOverruns ?_ hover
  unfold SizeWraps at hsafe
  simp only [KDS_WAL_REC_HDR_SIZE, KDS_WAL_MAX_REC_SIZE, KDS_WAL_MAX_BODY_SIZE] at hsafe hmax hfree ⊢
  omega

/-- **Appends** keep their contract on a ring that is not overfull, with a body
    as long as the header says, unless the size of the record wraps. -/
theorem append_contract_iff (hused : (wal_buf_used w.buf).toNat ≤ KDS_WAL_BUF_SIZE)
    (hbody : hdr.body_len.toNat ≤ body.length) :
    AppendContract crc32c w hdr body ↔ ¬ SizeWraps w hdr := by
  constructor
  · intro h hwraps
    exact h.returns .outOfBounds (kds_wal_append_wraps hwraps)
  · intro hsafe
    have hfree := toNat_wal_buf_free hused
    -- no wrap behind the tests, so they are about the size itself
    have hsize : ∀ rec w', kds_wal_append crc32c w hdr (some body) = .ok (.ok rec, w') →
        KDS_WAL_REC_HDR_SIZE + hdr.body_len.toNat ≤ (wal_buf_free w.buf).toNat ∧
          KDS_WAL_REC_HDR_SIZE + hdr.body_len.toNat ≤ KDS_WAL_MAX_REC_SIZE := by
      intro rec w' hrun
      obtain ⟨hmax, hroom, -, -⟩ := kds_wal_append_effect hrun
      have hlt := hdr.body_len.toNat_lt
      unfold SizeWraps at hsafe
      simp only [KDS_WAL_REC_HDR_SIZE] at hsafe hroom hmax ⊢
      omega
    have hpush : ∀ rec w', kds_wal_append crc32c w hdr (some body) = .ok (.ok rec, w') →
        (wal_buf_used w.buf).toNat + (KDS_WAL_REC_HDR_SIZE + rec.body_len.toNat) ≤ KDS_WAL_BUF_SIZE ∧
          rec.body_len = hdr.body_len := by
      intro rec w' hrun
      have hroom := (hsize rec w' hrun).1
      obtain ⟨-, -, rfl, -⟩ := kds_wal_append_effect hrun
      refine ⟨?_, rfl⟩
      show _ + (_ + hdr.body_len.toNat) ≤ _
      omega
    refine ⟨kds_wal_append_returns hsafe, fun e w' h => kds_wal_append_fails h, hsize, ?_, ?_⟩
    · intro rec w' hrun
      obtain ⟨hfit, hlen⟩ := hpush rec w' hrun
      obtain ⟨-, -, -, hbuf⟩ := kds_wal_append_effect hrun
      obtain ⟨-, -, hwrite, hflush⟩ := pushRecord_unflushed (by rw [hlen]; exact hbody) hfit
      rw [hbuf, ← hlen]
      exact ⟨hwrite, hflush⟩
    · intro rec w' hrun
      obtain ⟨hfit, hlen⟩ := hpush rec w' hrun
      obtain ⟨-, -, -, hbuf⟩ := kds_wal_append_effect hrun
      obtain ⟨hused', hqueue, -, -⟩ := pushRecord_unflushed (by rw [hlen]; exact hbody) hfit
      rw [hbuf, ← hlen]
      refine ⟨hqueue, ?_⟩
      exact Nat.le_trans (Nat.le_of_eq hused') hfit

end append

/-! ### A record of four gigabytes -/

/-- A log in front of its first append. -/
def emptyLog : WalState where
  buf :=
    { buf := fun _ => 0, write_off := 0, flush_off := 0, current_lsn := KDS_LSN_INVALID,
      tail_page_id := 129, tail_used := 0, tail_seg_no := 1 }
  flush_lsn := KDS_LSN_INVALID
  checkpointed_lsn := KDS_LSN_INVALID
  prev_lsn := KDS_LSN_INVALID

def insertHdr (body_len : UInt32) : WalRecHdr where
  lsn := 0
  prev_lsn := 0
  xid := 1
  type := .insert
  pad := fun _ => 0
  body_len := body_len
  crc := 0

theorem append_contract_eight :
    AppendContract crc32c_le emptyLog (insertHdr 8) (List.replicate 8 7) :=
  (append_contract_iff (by decide) (by decide)).mpr fun h => absurd h.1 (by decide)

/-- A body of 2^32 - 36 bytes: its size is 0 in 32 bits, and it is copied over
    the end of the ring. -/
theorem append_size_wraps :
    kds_wal_append crc32c_le emptyLog (insertHdr 4294967260) (some (List.replicate 4294967260 7)) =
        .error .outOfBounds ∧
      ¬ AppendContract crc32c_le emptyLog (insertHdr 4294967260) (List.replicate 4294967260 7) := by
  have hwraps : SizeWraps emptyLog (insertHdr 4294967260) := ⟨by decide, by decide⟩
  have hrun : kds_wal_append crc32c_le emptyLog (insertHdr 4294967260)
      (some (List.replicate 4294967260 7)) = .error .outOfBounds := kds_wal_append_wraps hwraps
  exact ⟨hrun, fun h => h.returns .outOfBounds hrun⟩

end Kds
