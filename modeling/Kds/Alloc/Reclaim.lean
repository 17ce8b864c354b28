import Kds.Buf.Flush
import Kds.Alloc.Ring

/-! # The reclaim scan of a boot

    `kds_reclaim_uninitialized_pages` of `page_alloc.c`: of the pages from
    `alloc_point` on, at most `PRE_ALLOC_NUM` and none from `max_page_id` on,
    those whose header has `ALLOC` and not `INIT` go back into the ring. The
    scan trusts the flags it finds; a page that cannot be loaded is passed by.

    The ring is the list of the page ids in it; it holds at most
    `PRE_ALLOC_RING_BUFFER_SIZE - 1`.
-/

open Bytes

namespace Kds

@[simp] def PRE_ALLOC_NUM : UInt64 := 256

/-- `get_max_page_id`. -/
def get_max_page_id : Option Superblock → PageId
  | none => 0
  | some sb => sb.max_page_id

/-- `kds_ring_is_full`. -/
def ringFull (ring : List PageId) : Bool := ring.length == PRE_ALLOC_RING_BUFFER_SIZE.toNat - 1

/-- A page of the scan that goes back into the ring. -/
def Frame.recyclable (f : Frame) : Bool :=
  f.hdr.has KDS_PAGE_FLAG_ALLOC && !f.hdr.has KDS_PAGE_FLAG_INIT

/-- The scan loop from `id` on. -/
def reclaimFrom (p : Pool) (ring : List PageId) (id : PageId) : (count : Nat) → Pool × List PageId
  | 0 => (p, ring)
  | n + 1 =>
      if ringFull ring then (p, ring)
      else
        match kds_buf_lookup_or_load p id with
        | (.error _, p) => reclaimFrom p ring (id + 1) n
        | (.ok frame, p) =>
            if !(p.frame frame).recyclable then
              reclaimFrom (kds_buf_unpin p frame) ring (id + 1) n
            else reclaimFrom p (ring ++ [frame]) (id + 1) n

/-- Where the scan ends. -/
def scanEnd (alloc_point max_id : PageId) : PageId := min (alloc_point + PRE_ALLOC_NUM) max_id

/-- `kds_reclaim_uninitialized_pages`: the pool, and the ring behind it. -/
def kds_reclaim_uninitialized_pages (p : Pool) (ring : List PageId) (alloc_point : PageId) :
    Pool × List PageId :=
  let max_id := get_max_page_id p.superblock
  let scan_end := scanEnd alloc_point max_id
  if alloc_point ≥ scan_end then (p, ring)
  else reclaimFrom p ring alloc_point (scan_end - alloc_point).toNat

theorem unpin_loadOnly (p : Pool) (id : PageId) : p.LoadOnly (kds_buf_unpin p id) :=
  ⟨rfl, rfl, rfl, fun _ _ h => Or.inl h⟩

/-- What the scan puts into the ring is recyclable and lies in its range. -/
theorem reclaimFrom_spec (count : Nat) : ∀ (p : Pool) (ring : List PageId) (id : PageId),
    p.LoadOnly (reclaimFrom p ring id count).1 ∧
      ∀ j ∈ (reclaimFrom p ring id count).2, j ∈ ring ∨
        ((p.frame j).recyclable = true ∧ ∃ k < count, j = id + UInt64.ofNat k) := by
  induction count with
  | zero =>
    intro p ring id
    exact ⟨.refl p, fun j hj => Or.inl hj⟩
  | succ n ih =>
    intro p ring id
    -- a page found later lies in the range as well
    have hrange : ∀ j, (∃ k < n, j = id + 1 + UInt64.ofNat k) →
        ∃ k < n + 1, j = id + UInt64.ofNat k := by
      intro j hj
      obtain ⟨k, hk, rfl⟩ := hj
      refine ⟨k + 1, by omega, ?_⟩
      rw [UInt64.add_assoc, Nat.add_comm k 1, UInt64.ofNat_add]
      rfl
    unfold reclaimFrom
    by_cases hfull : ringFull ring = true
    · rw [if_pos hfull]
      exact ⟨.refl p, fun j hj => Or.inl hj⟩
    · rw [if_neg hfull]
      cases hload : kds_buf_lookup_or_load p id with
      | mk res p₁ =>
        obtain ⟨hl, hid⟩ := lookup_or_load_loadOnly hload
        cases res with
        | error e =>
          obtain ⟨hl', hring⟩ := ih p₁ ring (id + 1)
          refine ⟨hl.trans hl', fun j hj => ?_⟩
          rw [← hl.frame]
          exact (hring j hj).imp_right fun h => ⟨h.1, hrange j h.2⟩
        | ok frame =>
          obtain ⟨rfl, -⟩ := hid frame rfl
          dsimp only
          by_cases hrec : (p₁.frame frame).recyclable = true
          · rw [if_neg (by simp [hrec])]
            obtain ⟨hl', hring⟩ := ih p₁ (ring ++ [frame]) (frame + 1)
            refine ⟨hl.trans hl', fun j hj => ?_⟩
            rw [← hl.frame]
            rcases hring j hj with hj | h
            · rcases List.mem_append.mp hj with hj | hj
              · exact Or.inl hj
              · obtain rfl := List.mem_singleton.mp hj
                exact Or.inr ⟨hrec, 0, by omega, by simp⟩
            · exact Or.inr ⟨h.1, hrange j h.2⟩
          · rw [if_pos (by simpa using hrec)]
            have hl₁ := hl.trans (unpin_loadOnly p₁ frame)
            obtain ⟨hl', hring⟩ := ih (kds_buf_unpin p₁ frame) ring (frame + 1)
            refine ⟨hl₁.trans hl', fun j hj => ?_⟩
            rw [← hl₁.frame]
            exact (hring j hj).imp_right fun h => ⟨h.1, hrange j h.2⟩

/-- **The scan** recycles pages of its range that have `ALLOC` and not `INIT`. -/
theorem reclaim_spec (p : Pool) (ring : List PageId) (alloc_point : PageId) :
    p.LoadOnly (kds_reclaim_uninitialized_pages p ring alloc_point).1 ∧
      ∀ j ∈ (kds_reclaim_uninitialized_pages p ring alloc_point).2, j ∈ ring ∨
        ((p.frame j).recyclable = true ∧ alloc_point ≤ j ∧
          j < scanEnd alloc_point (get_max_page_id p.superblock)) := by
  unfold kds_reclaim_uninitialized_pages
  dsimp only
  generalize scanEnd alloc_point (get_max_page_id p.superblock) = scan_end
  by_cases hnone : alloc_point ≥ scan_end
  · rw [if_pos hnone]
    exact ⟨.refl p, fun j hj => Or.inl hj⟩
  · rw [if_neg hnone]
    rw [ge_iff_le, UInt64.le_iff_toNat_le, Nat.not_le] at hnone
    obtain ⟨hl, hring⟩ := reclaimFrom_spec (scan_end - alloc_point).toNat p ring alloc_point
    refine ⟨hl, fun j hj => (hring j hj).imp_right fun h => ⟨h.1, ?_⟩⟩
    obtain ⟨k, hk, rfl⟩ := h.2
    have hsub : (scan_end - alloc_point).toNat = scan_end.toNat - alloc_point.toNat :=
      UInt64.toNat_sub_of_le _ _ (UInt64.le_iff_toNat_le.mpr (by omega))
    have hlt := scan_end.toNat_lt
    have hj : (alloc_point + UInt64.ofNat k).toNat = alloc_point.toNat + k := by
      rw [UInt64.toNat_add, UInt64.toNat_ofNat']
      omega
    rw [UInt64.le_iff_toNat_le, UInt64.lt_iff_toNat_lt, hj]
    omega

end Kds
