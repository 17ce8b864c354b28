import Kds.Wal.Log

/-! # The log as a stream of bytes

    The bytes of all records appended so far form one stream. A prefix of it
    lies in the WAL pages, the rest in the ring; `F` bytes have been released
    from the ring, `P` have been copied out, and a running flush goes up to
    `E`, with `F ≤ P ≤ E`. Between two flushes `P = F`, and the pages and the
    ring together are the whole stream, wherever records wrap or are cut.
-/

open Bytes

namespace Kds

/-! ## Section 1: The chain of pages -/

/-- The bytes along the chain of pages from `id` on. -/
inductive WalChain (pages : PageId → WalPage) : PageId → List UInt8 → Prop where
  | last {id : PageId} : (pages id).next_wal_page_id = 0 → WalChain pages id (pages id).bytes
  | link {id : PageId} {bs : List UInt8} : (pages id).next_wal_page_id ≠ 0 →
      WalChain pages (pages id).next_wal_page_id bs → WalChain pages id ((pages id).bytes ++ bs)

/-- `ids` are the pages of a chain, in order. -/
def Linked (pages : PageId → WalPage) : List PageId → Prop
  | [] => False
  | [id] => (pages id).next_wal_page_id = 0
  | id :: next :: ids =>
      (pages id).next_wal_page_id = next ∧ next ≠ 0 ∧ Linked pages (next :: ids)

def chainBytes (pages : PageId → WalPage) (ids : List PageId) : List UInt8 :=
  ids.flatMap fun id => (pages id).bytes

theorem Linked.walChain {pages : PageId → WalPage} {ids : List PageId} :
    ∀ {id : PageId}, Linked pages (id :: ids) → WalChain pages id (chainBytes pages (id :: ids)) := by
  induction ids with
  | nil =>
    intro id h
    have hb : chainBytes pages [id] = (pages id).bytes := by simp [chainBytes]
    rw [hb]
    exact .last h
  | cons next ids ih =>
    intro id h
    obtain ⟨hnext, hne, hrest⟩ := h
    subst hnext
    exact .link hne (ih hrest)

theorem Linked.congr {pages pages' : PageId → WalPage} {ids : List PageId}
    (h : ∀ id ∈ ids, (pages' id).next_wal_page_id = (pages id).next_wal_page_id)
    (hl : Linked pages ids) : Linked pages' ids := by
  induction ids with
  | nil => exact hl
  | cons id ids ih =>
    cases ids with
    | nil => exact (h id List.mem_cons_self).trans hl
    | cons next ids =>
      refine ⟨(h id List.mem_cons_self).trans hl.1, hl.2.1, ih ?_ hl.2.2⟩
      exact fun j hj => h j (List.mem_cons_of_mem _ hj)

/-- A page linked behind the last one. -/
theorem Linked.snoc {pages pages' : PageId → WalPage} {t new : PageId} (hnew : new ≠ 0)
    (ht : (pages' t).next_wal_page_id = new) (hend : (pages' new).next_wal_page_id = 0) :
    ∀ {pre : List PageId}, (∀ id ∈ pre, (pages' id).next_wal_page_id = (pages id).next_wal_page_id) →
      Linked pages (pre ++ [t]) → Linked pages' (pre ++ [t] ++ [new]) := by
  intro pre
  induction pre with
  | nil => exact fun _ _ => ⟨ht, hnew, hend⟩
  | cons id pre ih =>
    intro hsame hl
    have ih := ih fun j hj => hsame j (List.mem_cons_of_mem _ hj)
    cases pre with
    | nil => exact ⟨(hsame id List.mem_cons_self).trans hl.1, hl.2.1, ih hl.2.2⟩
    | cons next pre => exact ⟨(hsame id List.mem_cons_self).trans hl.1, hl.2.1, ih hl.2.2⟩

theorem chainBytes_append (pages : PageId → WalPage) (ids ids' : List PageId) :
    chainBytes pages (ids ++ ids') = chainBytes pages ids ++ chainBytes pages ids' :=
  List.flatMap_append

theorem chainBytes_congr {pages pages' : PageId → WalPage} {ids : List PageId}
    (h : ∀ id ∈ ids, (pages' id).bytes = (pages id).bytes) :
    chainBytes pages' ids = chainBytes pages ids :=
  List.flatMap_congr h

/-- The pages of the log, and the pages staged for it. -/
structure ChainInv (pages : PageId → WalPage) (head : PageId) (staged cached ids : List PageId) :
    Prop where
  linked : Linked pages ids
  starts : ids.head? = some head
  nodup : ids.Nodup
  used_le : ∀ id ∈ ids, (pages id).used_bytes.toNat ≤ KDS_WAL_PAGE_PAYLOAD
  registered : ∀ id ∈ ids, id ∈ cached
  ring : Staged staged cached
  unstaged : ∀ id ∈ ids, id ∉ staged

theorem ChainInv.walChain {pages : PageId → WalPage} {head : PageId} {staged cached ids : List PageId}
    (h : ChainInv pages head staged cached ids) : WalChain pages head (chainBytes pages ids) := by
  cases ids with
  | nil => exact absurd h.linked id
  | cons first rest =>
    obtain rfl : first = head := by simpa using h.starts
    exact h.linked.walChain

section chain

variable {pages : PageId → WalPage} {head t : PageId} {staged cached pre : List PageId}

/-- A new state of the last page. -/
theorem ChainInv.set_tail (h : ChainInv pages head staged cached (pre ++ [t])) {page : WalPage}
    (hnext : page.next_wal_page_id = (pages t).next_wal_page_id)
    (hused : page.used_bytes.toNat ≤ KDS_WAL_PAGE_PAYLOAD) :
    ChainInv (Function.update pages t page) head staged cached (pre ++ [t]) ∧
      chainBytes (Function.update pages t page) (pre ++ [t]) = chainBytes pages pre ++ page.bytes := by
  have hpre : ∀ id ∈ pre, id ≠ t := by
    rintro id hid rfl
    exact (List.nodup_append.mp h.nodup).2.2 id hid id List.mem_cons_self rfl
  refine ⟨⟨h.linked.congr fun id _ => ?_, h.starts, h.nodup, fun id hid => ?_, h.registered, h.ring,
    h.unstaged⟩, ?_⟩
  · by_cases ht : id = t
    · subst ht
      rw [Function.update_self, hnext]
    · rw [Function.update_of_ne ht]
  · by_cases ht : id = t
    · subst ht
      rw [Function.update_self]
      exact hused
    · rw [Function.update_of_ne ht]
      exact h.used_le id hid
  · rw [chainBytes_append, chainBytes_congr fun id hid => by rw [Function.update_of_ne (hpre id hid)]]
    simp [chainBytes]

/-- A change of a page outside the chain. -/
theorem ChainInv.set_other {ids : List PageId} (h : ChainInv pages head staged cached ids) {id : PageId}
    (hid : id ∉ ids) (page : WalPage) :
    ChainInv (Function.update pages id page) head staged cached ids ∧
      chainBytes (Function.update pages id page) ids = chainBytes pages ids := by
  have hsame : ∀ j ∈ ids, Function.update pages id page j = pages j := by
    intro j hj
    refine Function.update_of_ne ?_ _ _
    rintro rfl
    exact hid hj
  refine ⟨⟨h.linked.congr fun j hj => by rw [hsame j hj], h.starts, h.nodup, fun j hj => ?_,
    h.registered, h.ring, h.unstaged⟩, chainBytes_congr fun j hj => by rw [hsame j hj]⟩
  rw [hsame j hj]
  exact h.used_le j hj

/-- The new page is linked in. -/
theorem ChainInv.link (h : ChainInv pages head staged cached (pre ++ [t])) {new : PageId}
    (hnew : new ≠ 0) (hnot : new ∉ pre ++ [t]) (hreg : new ∈ cached) (hun : new ∉ staged)
    (hused : (pages new).used_bytes = 0) (hend : (pages new).next_wal_page_id = 0) :
    ChainInv (Function.update pages t { pages t with next_wal_page_id := new }) head staged cached
        (pre ++ [t] ++ [new]) ∧
      chainBytes (Function.update pages t { pages t with next_wal_page_id := new })
        (pre ++ [t] ++ [new]) = chainBytes pages (pre ++ [t]) := by
  have hpre : ∀ id ∈ pre, id ≠ t := by
    rintro id hid rfl
    exact (List.nodup_append.mp h.nodup).2.2 id hid id List.mem_cons_self rfl
  have hnt : new ≠ t := by
    rintro rfl
    simp at hnot
  refine ⟨⟨?_, ?_, ?_, fun id hid => ?_, fun id hid => ?_, h.ring, fun id hid => ?_⟩, ?_⟩
  · refine h.linked.snoc hnew ?_ ?_ fun id hid => ?_
    · rw [Function.update_self]
    · rw [Function.update_of_ne hnt, hend]
    · rw [Function.update_of_ne (hpre id hid)]
  · rw [← h.starts]
    cases pre <;> rfl
  · exact List.nodup_append.mpr ⟨h.nodup, by simp, fun a ha b hb hab => by simp_all⟩
  · rcases List.mem_append.mp hid with hid | hid
    · by_cases ht : id = t
      · subst ht
        rw [Function.update_self]
        exact h.used_le id hid
      · rw [Function.update_of_ne ht]
        exact h.used_le id hid
    · obtain rfl := List.mem_singleton.mp hid
      rw [Function.update_of_ne hnt, hused]
      exact Nat.zero_le _
  · rcases List.mem_append.mp hid with hid | hid
    · exact h.registered id hid
    · rwa [List.mem_singleton.mp hid]
  · rcases List.mem_append.mp hid with hid | hid
    · exact h.unstaged id hid
    · rwa [List.mem_singleton.mp hid]
  -- a link is no payload, and the new page has none yet
  · have hsame : ∀ id ∈ pre ++ [t],
        (Function.update pages t { pages t with next_wal_page_id := new } id).bytes =
          (pages id).bytes := by
      intro id _
      by_cases ht : id = t
      · subst ht
        rw [Function.update_self]
        rfl
      · rw [Function.update_of_ne ht]
    rw [chainBytes_append, chainBytes_congr hsame]
    simp [chainBytes, Function.update_of_ne hnt, WalPage.bytes, hused]

end chain

/-! ## Section 2: The invariant -/

theorem ringIndex_ofNat (n : Nat) : ringIndex (UInt64.ofNat n) = n % KDS_WAL_BUF_SIZE := by
  unfold ringIndex KDS_WAL_BUF_MASK
  rw [UInt64.toNat_and]
  refine (Nat.and_two_pow_sub_one_eq_mod (UInt64.ofNat n).toNat 22).trans ?_
  rw [UInt64.toNat_ofNat']
  simp only [KDS_WAL_BUF_SIZE]
  omega

/-- The locals of a flush: copied up to byte `P` of the stream, bound for `E`. -/
structure Progress (S : List UInt8) (F : Nat) (v : FlushVars) (P E : Nat) : Prop where
  released_le : F ≤ P
  le_end : P ≤ E
  end_le : E ≤ S.length
  fits : E ≤ F + KDS_WAL_BUF_SIZE
  start_eq : v.flush_start = UInt64.ofNat P
  end_eq : v.flush_end = UInt64.ofNat E
  bytes_eq : v.bytes_to_flush.toNat = E - P

/-- A call that stands where it began has copied nothing. -/
theorem Progress.eq_released {S : List UInt8} {v : FlushVars} {F P E : Nat} (h : Progress S F v P E)
    (hstart : v.flush_start = UInt64.ofNat F) : P = F := by
  have hP := h.start_eq.symm.trans hstart
  have hnat := congrArg UInt64.toNat hP
  rw [UInt64.toNat_ofNat', UInt64.toNat_ofNat'] at hnat
  have hle := h.released_le
  have hend := h.le_end
  have hfits := h.fits
  simp only [KDS_WAL_BUF_SIZE] at hfits
  omega

/-- The pages hold the stream up to where the flush has come. -/
def Copied (pages : PageId → WalPage) (S : List UInt8) (F : Nat) (ids : List PageId) (v : FlushVars) :
    Prop :=
  ∃ P E, Progress S F v P E ∧ chainBytes pages ids = S.take P

/-- In the middle of a chunk: `done` bytes of it lie behind the used part of the page. -/
def Copying (pages : PageId → WalPage) (S : List UInt8) (F : Nat) (ids : List PageId) (v : FlushVars)
    (frame : PageId) (chunk : UInt32) (done : Nat) : Prop :=
  ∃ P E, Progress S F v P E ∧ chainBytes pages ids = S.take P ∧ P + chunk.toNat ≤ E ∧
    (pages frame).used_bytes.toNat + chunk.toNat ≤ KDS_WAL_PAGE_PAYLOAD ∧ done ≤ chunk.toNat ∧
    (pages frame).payload.read (pages frame).used_bytes.toNat done = (S.drop P).take done

/-- A page that is taken but not linked yet. -/
structure Fresh (pages : PageId → WalPage) (staged cached ids : List PageId) (new : PageId) : Prop where
  nonzero : new ≠ 0
  outside : new ∉ ids
  registered : new ∈ cached
  unstaged : new ∉ staged
  used : (pages new).used_bytes = 0
  next : (pages new).next_wal_page_id = 0

/-- What holds where the flusher stands. -/
def PcInv (pages : PageId → WalPage) (tail : PageId) (staged cached : List PageId) (S : List UInt8)
    (F : Nat) (ids : List PageId) : FlushPc → Prop
  | .idle | .lsn => ids.getLast? = some tail ∧ chainBytes pages ids = S.take F
  | .loop v | .seg v _ | .alloc v _ | .tailUsed v =>
      ids.getLast? = some tail ∧ Copied pages S F ids v
  | .space v frame => ids.getLast? = some tail ∧ frame = tail ∧ Copied pages S F ids v
  | .copy v frame chunk =>
      ids.getLast? = some tail ∧ frame = tail ∧ Copying pages S F ids v frame chunk 0
  | .copyRest v frame chunk first =>
      ids.getLast? = some tail ∧ frame = tail ∧ Copying pages S F ids v frame chunk first.toNat ∧
        ringIndex v.flush_start + first.toNat = KDS_WAL_BUF_SIZE
  | .used v frame chunk =>
      ids.getLast? = some tail ∧ frame = tail ∧ Copying pages S F ids v frame chunk chunk.toNat
  | .tail v frame chunk =>
      ids.getLast? = some tail ∧ frame = tail ∧
        ∃ P E, Progress S F v P E ∧ P + chunk.toNat ≤ E ∧ chainBytes pages ids = S.take (P + chunk.toNat)
  | .link v new =>
      ids.getLast? = some tail ∧ Copied pages S F ids v ∧ Fresh pages staged cached ids new
  | .tailPage v new => ids.getLast? = some new ∧ Copied pages S F ids v
  | .advance v =>
      ids.getLast? = some tail ∧ ∃ E, Progress S F v E E ∧ chainBytes pages ids = S.take E

/-- The offsets and the bytes in the ring. -/
structure RingInv (b : WalBuf) (S : List UInt8) (F : Nat) : Prop where
  write_off : b.write_off = UInt64.ofNat S.length
  flush_off : b.flush_off = UInt64.ofNat F
  holds : Ring.Holds b.buf KDS_WAL_BUF_SIZE S F

/-- **The invariant**. -/
def WalInv (s : WalSys) : Prop :=
  ∃ F ids, RingInv s.wal.buf s.appended.flatten F ∧
    ChainInv s.pages s.head s.staged s.cached ids ∧
    PcInv s.pages s.wal.buf.tail_page_id s.staged s.cached s.appended.flatten F ids s.pc

theorem RingInv.used_eq {b : WalBuf} {S : List UInt8} {F : Nat} (h : RingInv b S F) :
    (wal_buf_used b).toNat = S.length - F := by
  have hle := h.holds.le
  have hfits := h.holds.fits
  simp only [KDS_WAL_BUF_SIZE] at hfits
  rw [wal_buf_used, h.write_off, h.flush_off, UInt64.toNat_sub, UInt64.toNat_ofNat',
    UInt64.toNat_ofNat']
  omega

/-! ## Section 3: Appends -/

/-- More bytes behind the stream do not touch what the flusher works on. -/
theorem Progress.append {S bs : List UInt8} {F P E : Nat} {v : FlushVars} (h : Progress S F v P E) :
    Progress (S ++ bs) F v P E :=
  { h with end_le := by rw [List.length_append]; exact Nat.le_trans h.end_le (Nat.le_add_right _ _) }

theorem take_append_of_le {S bs : List UInt8} {n : Nat} (h : n ≤ S.length) :
    (S ++ bs).take n = S.take n :=
  List.take_append_of_le_length h

theorem Copied.append {pages : PageId → WalPage} {S bs : List UInt8} {F : Nat} {ids : List PageId}
    {v : FlushVars} (h : Copied pages S F ids v) : Copied pages (S ++ bs) F ids v := by
  obtain ⟨P, E, hp, hc⟩ := h
  refine ⟨P, E, hp.append, ?_⟩
  rw [hc, take_append_of_le (Nat.le_trans hp.le_end hp.end_le)]

theorem Copying.append {pages : PageId → WalPage} {S bs : List UInt8} {F : Nat} {ids : List PageId}
    {v : FlushVars} {frame : PageId} {chunk : UInt32} {done : Nat}
    (h : Copying pages S F ids v frame chunk done) :
    Copying pages (S ++ bs) F ids v frame chunk done := by
  obtain ⟨P, E, hp, hc, hE, hused, hdone, hread⟩ := h
  have hlen := hp.end_le
  refine ⟨P, E, hp.append, ?_, hE, hused, hdone, ?_⟩
  · rw [hc, take_append_of_le (by omega)]
  · rw [hread, List.drop_append_of_le_length (by omega),
      take_append_of_le (by rw [List.length_drop]; omega)]

theorem PcInv.append {pages : PageId → WalPage} {tail : PageId} {staged cached : List PageId}
    {S bs : List UInt8} {F : Nat} {ids : List PageId} {pc : FlushPc} (hF : F ≤ S.length)
    (h : PcInv pages tail staged cached S F ids pc) :
    PcInv pages tail staged cached (S ++ bs) F ids pc := by
  cases pc with
  | idle => exact ⟨h.1, by rw [take_append_of_le hF]; exact h.2⟩
  | lsn => exact ⟨h.1, by rw [take_append_of_le hF]; exact h.2⟩
  | loop v => exact ⟨h.1, h.2.append⟩
  | seg v _ => exact ⟨h.1, h.2.append⟩
  | alloc v _ => exact ⟨h.1, h.2.append⟩
  | tailUsed v => exact ⟨h.1, h.2.append⟩
  | space v frame => exact ⟨h.1, h.2.1, h.2.2.append⟩
  | copy v frame chunk => exact ⟨h.1, h.2.1, h.2.2.append⟩
  | copyRest v frame chunk first => exact ⟨h.1, h.2.1, h.2.2.1.append, h.2.2.2⟩
  | used v frame chunk => exact ⟨h.1, h.2.1, h.2.2.append⟩
  | tail v frame chunk =>
    obtain ⟨hlast, hframe, P, E, hp, hE, hc⟩ := h
    have hlen := hp.end_le
    exact ⟨hlast, hframe, P, E, hp.append, hE, by rw [hc, take_append_of_le (by omega)]⟩
  | link v new => exact ⟨h.1, h.2.1.append, h.2.2⟩
  | tailPage v new => exact ⟨h.1, h.2.append⟩
  | advance v =>
    obtain ⟨hlast, E, hp, hc⟩ := h
    exact ⟨hlast, E, hp.append, by rw [hc, take_append_of_le hp.end_le]⟩

/-- Bytes that fit go to the end of the stream. -/
theorem RingInv.push {b : WalBuf} {S bs : List UInt8} {F : Nat} (h : RingInv b S F)
    (hfit : S.length + bs.length ≤ F + KDS_WAL_BUF_SIZE) : RingInv (b.push bs) (S ++ bs) F := by
  refine ⟨?_, h.flush_off, ?_⟩
  · show b.write_off + UInt64.ofNat bs.length = _
    rw [h.write_off, List.length_append, UInt64.ofNat_add]
  · show Ring.Holds (Ring.copyIn b.buf KDS_WAL_BUF_SIZE (ringIndex b.write_off) bs) _ _ _
    rw [h.write_off, ringIndex_ofNat]
    exact h.holds.append (by decide) hfit

/-- The body that goes into the ring: its whole length, or nothing. -/
theorem bodyBytes_cases {hdr : WalRecHdr} {body : Option (List UInt8)} (h : BodyOk hdr body) :
    (bodyBytes hdr body).length = hdr.body_len.toNat ∧
      (¬ (body.isSome ∧ hdr.body_len > 0) → bodyBytes hdr body = []) := by
  have hpos : hdr.body_len > 0 ↔ 0 < hdr.body_len.toNat := UInt32.lt_iff_toNat_lt
  cases body with
  | none =>
    have h0 : hdr.body_len = 0 := h.2
    exact ⟨by simp [bodyBytes, h0], fun _ => rfl⟩
  | some b =>
    have hlen : hdr.body_len.toNat ≤ b.length := h.2
    refine ⟨by simp [bodyBytes, hlen], fun hno => ?_⟩
    have h0 : hdr.body_len.toNat = 0 := by
      by_contra hne
      exact hno ⟨rfl, hpos.mpr (Nat.pos_of_ne_zero hne)⟩
    simp [bodyBytes, h0]

theorem RingInv.pushRecord {b : WalBuf} {S : List UInt8} {F : Nat} {hdr : WalRecHdr}
    {body : Option (List UInt8)} (h : RingInv b S F) (hbody : BodyOk hdr body)
    (hfit : S.length + 36 + hdr.body_len.toNat ≤ F + KDS_WAL_BUF_SIZE) :
    RingInv (pushRecord b hdr body) (S ++ (hdr.bytes ++ bodyBytes hdr body)) F := by
  obtain ⟨hlen, hempty⟩ := bodyBytes_cases hbody
  have hlen' : hdr.bytes.length = 36 := WalRecHdr.length_bytes hdr
  have hhdr : RingInv (b.push hdr.bytes) (S ++ hdr.bytes) F := h.push (by omega)
  unfold Kds.pushRecord
  by_cases hb : body.isSome ∧ hdr.body_len > 0
  · rw [if_pos hb, ← List.append_assoc]
    exact hhdr.push (by rw [List.length_append]; omega)
  · rw [if_neg hb, hempty hb, List.append_nil]
    exact hhdr

theorem pushRecord_tail (b : WalBuf) (hdr : WalRecHdr) (body : Option (List UInt8)) :
    (pushRecord b hdr body).tail_page_id = b.tail_page_id := by
  unfold pushRecord
  split
  · rw [push_tail_page_id, push_tail_page_id]
  · rw [push_tail_page_id]

theorem kds_wal_append_fails {crc32c : UInt32 → List UInt8 → UInt32} {w w' : WalState}
    {hdr : WalRecHdr} {body : Option (List UInt8)} {e : Errno}
    (h : kds_wal_append crc32c w hdr body = .ok (.error e, w')) : w' = w := by
  unfold kds_wal_append at h
  dsimp only at h
  split_ifs at h
  · exact (Prod.mk.inj (Except.ok.inj h)).2.symm
  · exact (Prod.mk.inj (Except.ok.inj h)).2.symm
  · cases (Prod.mk.inj (Except.ok.inj h)).1

/-- A body that is allowed is shorter than the ring. -/
theorem not_copyOverruns {b : WalBuf} {hdr : WalRecHdr} {body : Option (List UInt8)}
    (h : hdr.body_len.toNat ≤ KDS_WAL_MAX_BODY_SIZE) : ¬ copyOverruns b hdr body := by
  intro hover
  have hlong := hover.2
  simp only [KDS_WAL_BUF_SIZE, KDS_WAL_MAX_BODY_SIZE, KDS_PAGE_SIZE] at h hlong
  omega

/-- `kds_wal_append` fails and changes nothing, or puts exactly the bytes of
    the record behind the stream. -/
theorem kds_wal_append_cases (crc32c : UInt32 → List UInt8 → UInt32) {w : WalState} {hdr : WalRecHdr}
    {body : Option (List UInt8)} {S : List UInt8} {F : Nat} (hbody : BodyOk hdr body)
    (h : RingInv w.buf S F) :
    (∃ e, kds_wal_append crc32c w hdr body = .ok (.error e, w)) ∨
      ∃ w', kds_wal_append crc32c w hdr body = .ok (.ok (fillHdr crc32c w hdr body), w') ∧
        RingInv w'.buf (S ++ ((fillHdr crc32c w hdr body).bytes ++
          bodyBytes (fillHdr crc32c w hdr body) body)) F ∧
        w'.buf.tail_page_id = w.buf.tail_page_id := by
  have hmax : hdr.body_len.toNat ≤ 8192 := hbody.1
  have htotal : (UInt32.ofNat KDS_WAL_REC_HDR_SIZE + hdr.body_len).toNat = 36 + hdr.body_len.toNat := by
    rw [UInt32.toNat_add, UInt32.toNat_ofNat']
    simp only [KDS_WAL_REC_HDR_SIZE]
    omega
  have hle := h.holds.le
  have hfits := h.holds.fits
  have hfree : (wal_buf_free w.buf).toNat = KDS_WAL_BUF_SIZE - (S.length - F) := by
    rw [wal_buf_free, UInt64.toNat_sub, h.used_eq, UInt64.toNat_ofNat']
    simp only [KDS_WAL_BUF_SIZE] at hfits ⊢
    omega
  have hsize : ¬ (UInt32.ofNat KDS_WAL_REC_HDR_SIZE + hdr.body_len).toNat > KDS_WAL_MAX_REC_SIZE := by
    rw [htotal]
    simp only [KDS_WAL_MAX_REC_SIZE, KDS_WAL_REC_HDR_SIZE, KDS_WAL_MAX_BODY_SIZE, KDS_PAGE_SIZE]
    omega
  by_cases hroom : (wal_buf_free w.buf).toNat < (UInt32.ofNat KDS_WAL_REC_HDR_SIZE + hdr.body_len).toNat
  · refine Or.inl ⟨.ENOSPC, ?_⟩
    simp only [kds_wal_append, if_neg hsize, if_pos hroom]
  · have hrec := h.pushRecord (show BodyOk (fillHdr crc32c w hdr body) body from hbody) (by
      rw [htotal, hfree] at hroom
      show S.length + 36 + hdr.body_len.toNat ≤ _
      omega)
    refine Or.inr ⟨{ w with
      buf := { pushRecord w.buf (fillHdr crc32c w hdr body) body with current_lsn := nextLsn w.buf }
      prev_lsn := nextLsn w.buf }, ?_, ?_, ?_⟩
    · simp only [kds_wal_append, if_neg hsize, if_neg hroom, if_neg (not_copyOverruns hbody.1)]
    · exact ⟨hrec.write_off, hrec.flush_off, hrec.holds⟩
    · exact pushRecord_tail _ _ _

/-- **An append keeps the invariant**. -/
theorem WalInv.append (crc32c : UInt32 → List UInt8 → UInt32) {s : WalSys} {hdr : WalRecHdr}
    {body : Option (List UInt8)} (h : WalInv s) (hbody : BodyOk hdr body) :
    WalInv (appendStep crc32c s hdr body) := by
  obtain ⟨F, ids, hring, hchain, hpc⟩ := h
  unfold appendStep
  rcases kds_wal_append_cases crc32c hbody hring with ⟨e, he⟩ | ⟨w', hw, hring', htail⟩
  · rw [he]
    exact ⟨F, ids, hring, hchain, hpc⟩
  · rw [hw]
    refine ⟨F, ids, ?_, hchain, ?_⟩
    · simpa using hring'
    · show PcInv s.pages w'.buf.tail_page_id s.staged s.cached
        (s.appended ++ [_]).flatten F ids s.pc
      rw [htail, List.flatten_append]
      exact hpc.append hring.holds.le

/-- **A page for the pre-allocation ring keeps the invariant**. -/
theorem WalInv.stage {s : WalSys} {id : PageId} (h : WalInv s) (hid : id ∉ s.cached) (h0 : id ≠ 0) :
    WalInv { s with staged := s.staged ++ [id], cached := id :: s.cached } := by
  obtain ⟨F, ids, hring, hchain, hpc⟩ := h
  have hnot : ∀ j, j ∈ s.cached → j ∉ s.staged → j ∉ s.staged ++ [id] := by
    intro j hj hst hmem
    rcases List.mem_append.mp hmem with hmem | hmem
    · exact hst hmem
    · exact hid (List.mem_singleton.mp hmem ▸ hj)
  have hstaged : Staged (s.staged ++ [id]) (id :: s.cached) := by
    refine ⟨?_, ?_, fun j hj => ?_⟩
    · refine List.nodup_append.mpr ⟨hchain.ring.nodup, by simp, fun a ha b hb hab => ?_⟩
      rw [hab, List.mem_singleton.mp hb] at ha
      exact hid (hchain.ring.registered _ ha)
    · intro hmem
      rcases List.mem_append.mp hmem with hmem | hmem
      · exact hchain.ring.nonzero hmem
      · exact h0 (List.mem_singleton.mp hmem).symm
    · rcases List.mem_append.mp hj with hj | hj
      · exact List.mem_cons_of_mem _ (hchain.ring.registered j hj)
      · rw [List.mem_singleton.mp hj]
        exact List.mem_cons_self
  refine ⟨F, ids, hring, ⟨hchain.linked, hchain.starts, hchain.nodup, hchain.used_le,
    fun j hj => List.mem_cons_of_mem _ (hchain.registered j hj), hstaged,
    fun j hj => hnot j (hchain.registered j hj) (hchain.unstaged j hj)⟩, ?_⟩
  -- only `link` speaks about the staged pages
  cases hp : s.pc with
  | link v new =>
    rw [hp] at hpc
    obtain ⟨hlast, hcopied, hfresh⟩ := hpc
    exact ⟨hlast, hcopied, hfresh.nonzero, hfresh.outside, List.mem_cons_of_mem _ hfresh.registered,
      hnot new hfresh.registered hfresh.unstaged, hfresh.used, hfresh.next⟩
  | _ => rw [hp] at hpc; exact hpc

/-! ## Section 4: The flusher -/

/-- A `memcpy` behind the used part of the last page. -/
theorem ChainInv.fill {pages : PageId → WalPage} {head t : PageId} {staged cached pre : List PageId}
    (h : ChainInv pages head staged cached (pre ++ [t])) (done : Nat) (bs : List UInt8) {page : WalPage}
    (hpage : page = { pages t with
      payload := (pages t).payload.write ((pages t).used_bytes.toNat + done) bs }) :
    ChainInv (Function.update pages t page) head staged cached (pre ++ [t]) ∧
      chainBytes (Function.update pages t page) (pre ++ [t]) = chainBytes pages (pre ++ [t]) ∧
      page.used_bytes = (pages t).used_bytes ∧
      page.payload.read (pages t).used_bytes.toNat (done + bs.length) =
        (pages t).payload.read (pages t).used_bytes.toNat done ++ bs := by
  have hused : page.used_bytes = (pages t).used_bytes := by rw [hpage]
  have hpay : page.payload =
      (pages t).payload.write ((pages t).used_bytes.toNat + done) bs := by rw [hpage]
  obtain ⟨hinv, hbytes⟩ := h.set_tail (show page.next_wal_page_id = _ by rw [hpage])
    (show page.used_bytes.toNat ≤ _ by rw [hused]; exact h.used_le t (by simp))
  refine ⟨hinv, ?_, hused, ?_⟩
  · rw [hbytes, chainBytes_append]
    simp only [chainBytes, List.flatMap_cons, List.flatMap_nil, List.append_nil, WalPage.bytes]
    rw [hused, hpay, Mem.read_write_disjoint _ (by omega)]
  · rw [hpay, Mem.read_add, Mem.read_write_same, Mem.read_write_disjoint _ (by omega)]

/-- The used part of the last page grows over bytes that are there already. -/
theorem ChainInv.grow {pages : PageId → WalPage} {head t : PageId} {staged cached pre : List PageId}
    (h : ChainInv pages head staged cached (pre ++ [t])) {chunk : UInt32}
    (hfit : (pages t).used_bytes.toNat + chunk.toNat ≤ KDS_WAL_PAGE_PAYLOAD) :
    ChainInv (Function.update pages t { pages t with used_bytes := (pages t).used_bytes + chunk })
        head staged cached (pre ++ [t]) ∧
      chainBytes (Function.update pages t { pages t with used_bytes := (pages t).used_bytes + chunk })
        (pre ++ [t]) = chainBytes pages (pre ++ [t]) ++
          (pages t).payload.read (pages t).used_bytes.toNat chunk.toNat := by
  have hsum : ((pages t).used_bytes + chunk).toNat = (pages t).used_bytes.toNat + chunk.toNat := by
    rw [UInt32.toNat_add]
    simp at hfit
    omega
  obtain ⟨hinv, hbytes⟩ := h.set_tail
    (show ({ pages t with used_bytes := (pages t).used_bytes + chunk } : WalPage).next_wal_page_id =
      _ from rfl) (by rw [hsum]; exact hfit)
  refine ⟨hinv, hbytes.trans ?_⟩
  rw [chainBytes_append, List.append_assoc]
  congr 1
  simp only [chainBytes, List.flatMap_cons, List.flatMap_nil, List.append_nil, WalPage.bytes, hsum]
  rw [Mem.read_add, Nat.zero_add]

/-- What the two parts of a copy have in common: `bs` are the next bytes of
    the stream, and go behind the `done` bytes that are there. -/
theorem Copying.fill {pages : PageId → WalPage} {head t : PageId} {staged cached pre : List PageId}
    {S : List UInt8} {F : Nat} {v : FlushVars} {chunk : UInt32} {done : Nat}
    (hchain : ChainInv pages head staged cached (pre ++ [t]))
    (h : Copying pages S F (pre ++ [t]) v t chunk done) (bs : List UInt8) {page : WalPage}
    (hpage : page = { pages t with
      payload := (pages t).payload.write ((pages t).used_bytes.toNat + done) bs })
    (hlen : done + bs.length ≤ chunk.toNat)
    (hbs : ∀ P, F ≤ P → P + chunk.toNat ≤ S.length → v.flush_start = UInt64.ofNat P →
      bs = (S.drop (P + done)).take bs.length) :
    ChainInv (Function.update pages t page) head staged cached (pre ++ [t]) ∧
      Copying (Function.update pages t page) S F (pre ++ [t]) v t chunk (done + bs.length) := by
  obtain ⟨P, E, hp, hc, hE, hused, hdone, hread⟩ := h
  obtain ⟨hchain', hbytes, hused', hread'⟩ := hchain.fill done bs hpage
  refine ⟨hchain', P, E, hp, by rw [hbytes, hc], hE, ?_, hlen, ?_⟩
  · rw [Function.update_self, hused']
    exact hused
  · rw [Function.update_self, hused', hread', hread, List.take_add, List.drop_drop]
    congr 1
    exact hbs P hp.released_le (Nat.le_trans hE hp.end_le) hp.start_eq

section flush

variable {s : WalSys} {S : List UInt8} {F : Nat} {ids : List PageId} {v : FlushVars}

theorem flush_idle (h : WalInv s) (hpc : s.pc = .idle) : WalInv (flushStep s) := by
  obtain ⟨F, ids, hring, hchain, hpcinv⟩ := h
  rw [hpc] at hpcinv
  obtain ⟨hlast, hbytes⟩ := hpcinv
  simp only [flushStep, hpc]
  by_cases heq : s.wal.buf.flush_off = s.wal.buf.write_off
  · rw [if_pos heq]
    refine ⟨F, ids, hring, hchain, ?_⟩
    rw [hpc]
    exact ⟨hlast, hbytes⟩
  · rw [if_neg heq]
    refine ⟨F, ids, hring, hchain, hlast, F, s.appended.flatten.length, ?_, hbytes⟩
    exact ⟨Nat.le_refl F, hring.holds.le, Nat.le_refl _, hring.holds.fits, hring.flush_off,
      hring.write_off, hring.used_eq⟩

theorem flush_loop (h : WalInv s) (hpc : s.pc = .loop v) : WalInv (flushStep s) := by
  obtain ⟨F, ids, hring, hchain, hpcinv⟩ := h
  rw [hpc] at hpcinv
  obtain ⟨hlast, hcopied⟩ := hpcinv
  simp only [flushStep, hpc]
  by_cases hmore : v.bytes_to_flush > 0
  · rw [if_pos hmore]
    exact ⟨F, ids, hring, hchain, hlast, rfl, hcopied⟩
  · rw [if_neg hmore]
    obtain ⟨P, E, hp, hbytes⟩ := hcopied
    have h0 : ¬ 0 < v.bytes_to_flush.toNat := fun h => hmore (UInt64.lt_iff_toNat_lt.mpr h)
    have hPE : P = E := by
      have := hp.bytes_eq
      have := hp.le_end
      omega
    subst hPE
    exact ⟨F, ids, hring, hchain, hlast, P, hp, hbytes⟩

/-- What fits: the rest of the stream or the rest of the page, whichever is less. -/
theorem chunk_toNat (bytes : UInt64) {used : UInt32} (hused : used.toNat ≤ KDS_WAL_PAGE_PAYLOAD) :
    (min bytes (UInt32.ofNat KDS_WAL_PAGE_PAYLOAD - used).toUInt64).toUInt32.toNat =
      min bytes.toNat (KDS_WAL_PAGE_PAYLOAD - used.toNat) := by
  have hspace : (UInt32.ofNat KDS_WAL_PAGE_PAYLOAD - used).toNat = KDS_WAL_PAGE_PAYLOAD - used.toNat := by
    rw [UInt32.toNat_sub, UInt32.toNat_ofNat']
    simp at hused ⊢
    omega
  have hmin : (min bytes (UInt32.ofNat KDS_WAL_PAGE_PAYLOAD - used).toUInt64).toNat =
      min bytes.toNat (KDS_WAL_PAGE_PAYLOAD - used.toNat) := by
    rw [← hspace, ← UInt32.toNat_toUInt64]
    show (if bytes ≤ _ then bytes else _ : UInt64).toNat = _
    by_cases hle : bytes ≤ (UInt32.ofNat KDS_WAL_PAGE_PAYLOAD - used).toUInt64
    · rw [if_pos hle, Nat.min_eq_left (UInt64.le_iff_toNat_le.mp hle)]
    · rw [if_neg hle, Nat.min_eq_right]
      exact Nat.le_of_not_le fun h => hle (UInt64.le_iff_toNat_le.mpr h)
  rw [UInt64.toNat_toUInt32, hmin]
  simp at hused ⊢
  omega

theorem flush_space {frame : PageId} (h : WalInv s) (hpc : s.pc = .space v frame) :
    WalInv (flushStep s) := by
  obtain ⟨F, ids, hring, hchain, hpcinv⟩ := h
  rw [hpc] at hpcinv
  obtain ⟨hlast, hframe, hcopied⟩ := hpcinv
  simp only [flushStep, hpc]
  split
  · exact ⟨F, ids, hring, hchain, hlast, hcopied⟩
  · obtain ⟨P, E, hp, hbytes⟩ := hcopied
    have hmem : frame ∈ ids := by
      rw [hframe]
      exact List.mem_of_getLast? hlast
    have hchunk := chunk_toNat v.bytes_to_flush (hchain.used_le frame hmem)
    have hused := hchain.used_le frame hmem
    have hb := hp.bytes_eq
    have hle := hp.le_end
    refine ⟨F, ids, hring, hchain, hlast, hframe, P, E, hp, hbytes, ?_, ?_, Nat.zero_le _, ?_⟩
    · rw [hchunk]
      omega
    · show (s.pages frame).used_bytes.toNat + _ ≤ _
      rw [hchunk]
      omega
    · simp

theorem flush_copy {frame : PageId} {chunk : UInt32} (h : WalInv s) (hpc : s.pc = .copy v frame chunk) :
    WalInv (flushStep s) := by
  obtain ⟨F, ids, hring, hchain, hpcinv⟩ := h
  rw [hpc] at hpcinv
  obtain ⟨hlast, rfl, hcopying⟩ := hpcinv
  obtain ⟨pre, rfl⟩ := List.getLast?_eq_some_iff.mp hlast
  -- the next bytes of the stream, as far as the array goes
  have hsrc : ∀ n, n ≤ chunk.toNat → ringIndex v.flush_start + n ≤ KDS_WAL_BUF_SIZE →
      ∀ P, F ≤ P → P + chunk.toNat ≤ s.appended.flatten.length → v.flush_start = UInt64.ofNat P →
        s.wal.buf.buf.read (ringIndex v.flush_start) n = (s.appended.flatten.drop P).take n := by
    intro n hn hfit P hF hP hstart
    rw [hstart, ringIndex_ofNat] at hfit ⊢
    rw [← Ring.window_eq_read _ hfit, Ring.window_mod, hring.holds.window_eq hF (by omega)]
  simp only [flushStep, hpc]
  by_cases hfit : ringIndex v.flush_start + chunk.toNat ≤ KDS_WAL_BUF_SIZE
  · rw [if_pos hfit]
    obtain ⟨hchain', hcopying'⟩ := hcopying.fill hchain
      (s.wal.buf.buf.read (ringIndex v.flush_start) chunk.toNat) rfl (by simp)
      (fun P hF hP hstart => by
        rw [Mem.length_read]
        exact hsrc _ (Nat.le_refl _) hfit P hF hP hstart)
    rw [Mem.length_read, Nat.zero_add] at hcopying'
    exact ⟨F, _, hring, hchain', hlast, rfl, hcopying'⟩
  · rw [if_neg hfit]
    have hidx : ringIndex v.flush_start < KDS_WAL_BUF_SIZE := by
      obtain ⟨P, E, hp, -⟩ := hcopying
      rw [hp.start_eq, ringIndex_ofNat]
      exact Nat.mod_lt _ (by decide)
    obtain ⟨first, hfirst⟩ :
        ∃ first, UInt32.ofNat KDS_WAL_BUF_SIZE - UInt32.ofNat (ringIndex v.flush_start) = first :=
      ⟨_, rfl⟩
    have hfirst_toNat : first.toNat = KDS_WAL_BUF_SIZE - ringIndex v.flush_start := by
      rw [← hfirst, UInt32.toNat_sub, UInt32.toNat_ofNat', UInt32.toNat_ofNat']
      simp only [KDS_WAL_BUF_SIZE] at hidx ⊢
      omega
    rw [hfirst]
    obtain ⟨hchain', hcopying'⟩ := hcopying.fill hchain
      (s.wal.buf.buf.read (ringIndex v.flush_start) first.toNat) rfl
      (by rw [Mem.length_read]; omega)
      (fun P hF hP hstart => by
        rw [Mem.length_read]
        exact hsrc _ (by omega) (by omega) P hF hP hstart)
    rw [Mem.length_read, Nat.zero_add] at hcopying'
    exact ⟨F, _, hring, hchain', hlast, rfl, hcopying', by omega⟩

theorem flush_copyRest {frame : PageId} {chunk first : UInt32} (h : WalInv s)
    (hpc : s.pc = .copyRest v frame chunk first) : WalInv (flushStep s) := by
  obtain ⟨F, ids, hring, hchain, hpcinv⟩ := h
  rw [hpc] at hpcinv
  obtain ⟨hlast, rfl, hcopying, hend⟩ := hpcinv
  obtain ⟨pre, rfl⟩ := List.getLast?_eq_some_iff.mp hlast
  have hfirst : first.toNat ≤ chunk.toNat := by
    obtain ⟨P, E, -, -, -, -, hdone, -⟩ := hcopying
    exact hdone
  have hrest : (chunk - first).toNat = chunk.toNat - first.toNat :=
    UInt32.toNat_sub_of_le _ _ (UInt32.le_iff_toNat_le.mpr hfirst)
  have hchunk : chunk.toNat ≤ KDS_WAL_BUF_SIZE := by
    obtain ⟨P, E, -, -, -, hused, -, -⟩ := hcopying
    simp at hused ⊢
    omega
  simp only [flushStep, hpc]
  obtain ⟨hchain', hcopying'⟩ := hcopying.fill hchain
    (s.wal.buf.buf.read 0 (chunk - first).toNat) rfl (by rw [Mem.length_read]; omega)
    (fun P hF hP hstart => by
      rw [hstart, ringIndex_ofNat] at hend
      rw [Mem.length_read, hrest, ← hring.holds.window_eq (by omega) (by omega), ← Ring.window_mod,
        ← Nat.mod_add_mod, hend, Nat.mod_self, Ring.window_eq_read _ (by omega)])
  rw [show first.toNat + (s.wal.buf.buf.read 0 (chunk - first).toNat).length = chunk.toNat by
    rw [Mem.length_read]; omega] at hcopying'
  exact ⟨F, _, hring, hchain', hlast, rfl, hcopying'⟩

theorem flush_used {frame : PageId} {chunk : UInt32} (h : WalInv s) (hpc : s.pc = .used v frame chunk) :
    WalInv (flushStep s) := by
  obtain ⟨F, ids, hring, hchain, hpcinv⟩ := h
  rw [hpc] at hpcinv
  obtain ⟨hlast, rfl, P, E, hp, hbytes, hE, hused, -, hread⟩ := hpcinv
  obtain ⟨pre, rfl⟩ := List.getLast?_eq_some_iff.mp hlast
  obtain ⟨hchain', hbytes'⟩ := hchain.grow hused
  have hread' : chainBytes s.pages (pre ++ [s.wal.buf.tail_page_id]) ++
      (s.pages s.wal.buf.tail_page_id).payload.read
        (s.pages s.wal.buf.tail_page_id).used_bytes.toNat chunk.toNat =
      s.appended.flatten.take (P + chunk.toNat) := by
    rw [hread, hbytes, ← List.take_add]
  simp only [flushStep, hpc]
  exact ⟨F, _, hring, hchain', hlast, rfl, P, E, hp, hE, hbytes'.trans hread'⟩

theorem flush_tail {frame : PageId} {chunk : UInt32} (h : WalInv s) (hpc : s.pc = .tail v frame chunk) :
    WalInv (flushStep s) := by
  obtain ⟨F, ids, hring, hchain, hpcinv⟩ := h
  rw [hpc] at hpcinv
  obtain ⟨hlast, rfl, P, E, hp, hE, hbytes⟩ := hpcinv
  have hcopied : Copied s.pages s.appended.flatten F ids
      { v with
        flush_start := v.flush_start + chunk.toUInt64
        bytes_to_flush := v.bytes_to_flush - chunk.toUInt64 } := by
    refine ⟨P + chunk.toNat, E, ⟨?_, hE, hp.end_le, hp.fits, ?_, hp.end_eq, ?_⟩, hbytes⟩
    · exact Nat.le_trans hp.released_le (Nat.le_add_right _ _)
    · show v.flush_start + _ = _
      rw [hp.start_eq, UInt64.ofNat_add]
      congr 1
      exact UInt64.toNat_inj.mp (by simp)
    · show (v.bytes_to_flush - _).toNat = _
      have hb := hp.bytes_eq
      rw [UInt64.toNat_sub_of_le, UInt32.toNat_toUInt64, hb]
      · omega
      · rw [UInt64.le_iff_toNat_le, UInt32.toNat_toUInt64, hb]
        omega
  simp only [flushStep, hpc]
  split
  · exact ⟨F, ids, ⟨hring.write_off, hring.flush_off, hring.holds⟩, hchain, hlast, hcopied⟩
  · exact ⟨F, ids, ⟨hring.write_off, hring.flush_off, hring.holds⟩, hchain, hlast, hcopied⟩

theorem flush_seg {behind : Bool} (h : WalInv s) (hpc : s.pc = .seg v behind) :
    WalInv (flushStep s) := by
  obtain ⟨F, ids, hring, hchain, hpcinv⟩ := h
  rw [hpc] at hpcinv
  simp only [flushStep, hpc]
  exact ⟨F, ids, ⟨hring.write_off, hring.flush_off, hring.holds⟩, hchain, hpcinv⟩

theorem flush_alloc {behind : Bool} (h : WalInv s) (hpc : s.pc = .alloc v behind)
    (hstaged : s.staged ≠ []) : WalInv (flushStep s) := by
  obtain ⟨F, ids, hring, hchain, hpcinv⟩ := h
  rw [hpc] at hpcinv
  obtain ⟨hlast, hcopied⟩ := hpcinv
  obtain ⟨new, rest, hrest⟩ := List.exists_cons_of_ne_nil hstaged
  have hst := hchain.ring
  rw [hrest] at hst
  have hnew : new ∉ ids := by
    intro hmem
    refine hchain.unstaged new hmem ?_
    rw [hrest]
    exact List.mem_cons_self
  simp only [flushStep, hpc, hrest]
  obtain ⟨hchain', hbytes⟩ := hchain.set_other hnew
    (newWalPage s.wal.buf.tail_seg_no (kds_lsn_make s.wal.buf.tail_page_id s.wal.buf.tail_used))
  refine ⟨F, ids, hring, ?_, hlast, ?_, ?_⟩
  · refine ⟨hchain'.linked, hchain'.starts, hchain'.nodup, hchain'.used_le, hchain'.registered, ?_, ?_⟩
    · exact ⟨hst.nodup.of_cons, fun h0 => hst.nonzero (List.mem_cons_of_mem _ h0),
        fun j hj => hst.registered j (List.mem_cons_of_mem _ hj)⟩
    · intro j hj hmem
      refine hchain.unstaged j hj ?_
      rw [hrest]
      exact List.mem_cons_of_mem _ hmem
  · obtain ⟨P, E, hp, hc⟩ := hcopied
    exact ⟨P, E, hp, hbytes.trans hc⟩
  · refine ⟨?_, hnew, hst.registered new List.mem_cons_self, (List.nodup_cons.mp hst.nodup).1, ?_, ?_⟩
    · rintro rfl
      exact hst.nonzero List.mem_cons_self
    · show (Function.update s.pages new _ new).used_bytes = 0
      rw [Function.update_self]
      rfl
    · show (Function.update s.pages new _ new).next_wal_page_id = 0
      rw [Function.update_self]
      rfl

theorem flush_link {new : PageId} (h : WalInv s) (hpc : s.pc = .link v new) : WalInv (flushStep s) := by
  obtain ⟨F, ids, hring, hchain, hpcinv⟩ := h
  rw [hpc] at hpcinv
  obtain ⟨hlast, ⟨P, E, hp, hc⟩, hfresh⟩ := hpcinv
  obtain ⟨pre, rfl⟩ := List.getLast?_eq_some_iff.mp hlast
  obtain ⟨hchain', hbytes⟩ := hchain.link hfresh.nonzero hfresh.outside hfresh.registered
    hfresh.unstaged hfresh.used hfresh.next
  simp only [flushStep, hpc]
  exact ⟨F, _, hring, hchain', List.getLast?_append_of_ne_nil _ (by simp), P, E, hp, hbytes.trans hc⟩

theorem flush_tailPage {new : PageId} (h : WalInv s) (hpc : s.pc = .tailPage v new) :
    WalInv (flushStep s) := by
  obtain ⟨F, ids, hring, hchain, hpcinv⟩ := h
  rw [hpc] at hpcinv
  simp only [flushStep, hpc]
  exact ⟨F, ids, ⟨hring.write_off, hring.flush_off, hring.holds⟩, hchain, hpcinv⟩

theorem flush_tailUsed (h : WalInv s) (hpc : s.pc = .tailUsed v) : WalInv (flushStep s) := by
  obtain ⟨F, ids, hring, hchain, hpcinv⟩ := h
  rw [hpc] at hpcinv
  simp only [flushStep, hpc]
  exact ⟨F, ids, ⟨hring.write_off, hring.flush_off, hring.holds⟩, hchain, hpcinv⟩

/-- The whole copied part is released at once. -/
theorem flush_advance (h : WalInv s) (hpc : s.pc = .advance v) : WalInv (flushStep s) := by
  obtain ⟨F, ids, hring, hchain, hpcinv⟩ := h
  rw [hpc] at hpcinv
  obtain ⟨hlast, E, hp, hbytes⟩ := hpcinv
  simp only [flushStep, hpc]
  exact ⟨E, ids, ⟨hring.write_off, hp.end_eq, hring.holds.release hp.released_le hp.end_le⟩, hchain,
    hlast, hbytes⟩

theorem flush_lsn (h : WalInv s) (hpc : s.pc = .lsn) : WalInv (flushStep s) := by
  obtain ⟨F, ids, hring, hchain, hpcinv⟩ := h
  rw [hpc] at hpcinv
  simp only [flushStep, hpc]
  exact ⟨F, ids, hring, hchain, hpcinv⟩

end flush

/-- **A step of the flusher keeps the invariant**. -/
theorem WalInv.flush {s : WalSys} (h : WalInv s) (hok : AllocOk s .flush) : WalInv (flushStep s) := by
  cases hpc : s.pc with
  | idle => exact flush_idle h hpc
  | loop v => exact flush_loop h hpc
  | space v frame => exact flush_space h hpc
  | copy v frame chunk => exact flush_copy h hpc
  | copyRest v frame chunk first => exact flush_copyRest h hpc
  | used v frame chunk => exact flush_used h hpc
  | tail v frame chunk => exact flush_tail h hpc
  | seg v behind => exact flush_seg h hpc
  | alloc v behind =>
    refine flush_alloc h hpc ?_
    simpa only [AllocOk, hpc] using hok
  | link v new => exact flush_link h hpc
  | tailPage v new => exact flush_tailPage h hpc
  | tailUsed v => exact flush_tailUsed h hpc
  | advance v => exact flush_advance h hpc
  | lsn => exact flush_lsn h hpc

/-! ## Section 5: Runs -/

theorem kds_wal_init_inv {staged cached : List PageId} {s : WalSys} (hst : Staged staged cached)
    (h : kds_wal_init staged cached = some s) : WalInv s := by
  cases staged with
  | nil => simp [kds_wal_init] at h
  | cons first staged =>
    simp only [kds_wal_init, Option.some.injEq] at h
    subst h
    refine ⟨0, [first], ⟨rfl, rfl, ?_⟩, ⟨rfl, rfl, by simp, ?_, ?_, ?_, ?_⟩, rfl, rfl⟩
    · exact ⟨Nat.zero_le _, by simp, fun i hi _ => absurd hi (by simp)⟩
    · exact fun _ _ => Nat.zero_le _
    · intro id hid
      rw [List.mem_singleton.mp hid]
      exact hst.registered first List.mem_cons_self
    · exact ⟨hst.nodup.of_cons, fun h0 => hst.nonzero (List.mem_cons_of_mem _ h0),
        fun j hj => hst.registered j (List.mem_cons_of_mem _ hj)⟩
    · intro id hid
      rw [List.mem_singleton.mp hid]
      exact (List.nodup_cons.mp hst.nodup).1

theorem walInv_reachable {crc32c : UInt32 → List UInt8 → UInt32} {s : WalSys}
    (h : ((walSystem crc32c).restrict AllocOk).Reachable s) : WalInv s := by
  refine h.invariant WalInv ?_ ?_
  · rintro s ⟨staged, cached, hst, hs⟩
    exact kds_wal_init_inv hst hs
  · rintro s a s' hinv ⟨hstep, hok⟩
    cases hstep with
    | append hbody => exact hinv.append crc32c hbody
    | flush => exact hinv.flush hok
    | stage hid h0 => exact hinv.stage hid h0

/-- **The log loses, repeats and reorders no byte**: at every moment no flush
    is in progress, the pages along the chain and then the ring from
    `flush_off` to `write_off` are the records appended so far. The ring is
    never overfull. -/
theorem wal_stream_conserved (crc32c : UInt32 → List UInt8 → UInt32) (s : WalSys)
    (h : ((walSystem crc32c).restrict AllocOk).Reachable s) :
    (wal_buf_used s.wal.buf).toNat ≤ KDS_WAL_BUF_SIZE ∧
      (s.pc = .idle → ∃ bs, WalChain s.pages s.head bs ∧
        bs ++ Ring.window s.wal.buf.buf KDS_WAL_BUF_SIZE s.wal.buf.flush_off.toNat
          (wal_buf_used s.wal.buf).toNat = s.appended.flatten) := by
  obtain ⟨F, ids, hring, hchain, hpc⟩ := walInv_reachable h
  have hle := hring.holds.le
  have hfits := hring.holds.fits
  refine ⟨by rw [hring.used_eq]; omega, fun hidle => ?_⟩
  rw [hidle] at hpc
  refine ⟨chainBytes s.pages ids, hchain.walChain, ?_⟩
  · have hoff : Ring.window s.wal.buf.buf KDS_WAL_BUF_SIZE s.wal.buf.flush_off.toNat
        (s.appended.flatten.length - F) =
          Ring.window s.wal.buf.buf KDS_WAL_BUF_SIZE F (s.appended.flatten.length - F) := by
      rw [← Ring.window_mod, ← Ring.window_mod _ _ F]
      congr 1
      rw [hring.flush_off, UInt64.toNat_ofNat']
      simp only [KDS_WAL_BUF_SIZE]
      omega
    have hrest : (s.appended.flatten.drop F).take (s.appended.flatten.length - F) =
        s.appended.flatten.drop F := List.take_of_length_le (Nat.le_of_eq List.length_drop)
    rw [hring.used_eq, hoff, hring.holds.window_eq (Nat.le_refl F) (by omega), hrest, hpc.2,
      List.take_append_drop]

/-! ## Section 6: A flush over the end of a page -/

/-- Steps of the flusher. -/
def flushSteps : Nat → WalSys → WalSys
  | 0, s => s
  | n + 1, s => flushSteps n (flushStep s)

/-- Whether the flusher is between two calls. -/
def FlushPc.isIdle : FlushPc → Bool
  | .idle => true
  | _ => false

theorem FlushPc.eq_idle {pc : FlushPc} (h : pc.isIdle = true) : pc = .idle := by
  cases pc with
  | idle => rfl
  | _ => cases h

theorem flushStep_staged (s : WalSys) : s.staged.length ≤ (flushStep s).staged.length + 1 := by
  cases hpc : s.pc with
  | alloc v behind =>
    cases hstaged : s.staged with
    | nil => simp
    | cons new rest => simp [flushStep, hpc, hstaged]
  | _ =>
    simp only [flushStep, hpc, WalSys.setPage, WalSys.setBuf]
    (repeat' split) <;> exact Nat.le_succ _

theorem appendStep_staged (crc32c : UInt32 → List UInt8 → UInt32) (s : WalSys) (hdr : WalRecHdr)
    (body : Option (List UInt8)) : (appendStep crc32c s hdr body).staged = s.staged := by
  unfold appendStep
  split <;> rfl

theorem appendStep_pc (crc32c : UInt32 → List UInt8 → UInt32) (s : WalSys) (hdr : WalRecHdr)
    (body : Option (List UInt8)) : (appendStep crc32c s hdr body).pc = s.pc := by
  unfold appendStep
  split <;> rfl

theorem wal_reachable_flushSteps {crc32c : UInt32 → List UInt8 → UInt32} :
    ∀ (n : Nat) {s : WalSys}, ((walSystem crc32c).restrict AllocOk).Reachable s →
      n ≤ s.staged.length →
      ((walSystem crc32c).restrict AllocOk).Reachable (flushSteps n s) := by
  intro n
  induction n with
  | zero => exact fun h _ => h
  | succ n ih =>
    intro s h hlen
    have hok : AllocOk s .flush := by
      unfold AllocOk
      split
      · intro hnil
        simp [hnil] at hlen
      · trivial
    have hstaged := flushStep_staged s
    exact ih (h.step .flush ⟨.flush, hok⟩) (by omega)

/-- 24 staged pages from 129 on. -/
def walIds : List PageId := (List.range 24).map fun i => UInt64.ofNat (129 + i)

/-- The log right after `kds_wal_init`. -/
def newLog : WalSys where
  wal :=
    { buf := ⟨fun _ => 0, 0, 0, KDS_LSN_INVALID, 129, 0, 1⟩
      flush_lsn := KDS_LSN_INVALID
      checkpointed_lsn := KDS_LSN_INVALID
      prev_lsn := KDS_LSN_INVALID }
  pages := fun _ => newWalPage 1 (kds_lsn_make 129 0)
  head := 129
  staged := walIds.tail
  cached := walIds
  pc := .idle
  appended := []

/-- A record with a body of a whole page. -/
def pageRecord : WalRecHdr where
  lsn := 0
  prev_lsn := 0
  xid := 7
  type := .insert
  pad := fun _ => 0
  body_len := 8192
  crc := 0

def commitRecord : WalRecHdr where
  lsn := 0
  prev_lsn := 0
  xid := 7
  type := .commit
  pad := fun _ => 0
  body_len := 0
  crc := 0

/-- 36 bytes of it, read as a record header, have LSN 1 and a body of 255 bytes. -/
def strayHdr : List UInt8 := [1] ++ List.replicate 27 0 ++ [255] ++ List.replicate 7 0

def pageBytes : List UInt8 := List.replicate 8083 0 ++ (strayHdr ++ List.replicate 73 0)

theorem length_pageBytes : pageBytes.length = 8192 := by
  unfold pageBytes
  rw [List.length_append, List.length_append, List.length_replicate, List.length_replicate]
  rfl

def pageBody : Option (List UInt8) := some pageBytes

/-- The page record is in the ring, and a flush of it has filled the first page. -/
def firstPageFilled : WalSys := flushSteps 6 (appendStep crc32c_le newLog pageRecord pageBody)

/-- A COMMIT record is appended now, and the flush ends on the second page. -/
def flushedOverEnd : WalSys := flushSteps 13 (appendStep crc32c_le firstPageFilled commitRecord none)

theorem flushedOverEnd_reachable : ((walSystem crc32c_le).restrict AllocOk).Reachable flushedOverEnd := by
  have hbody : BodyOk pageRecord pageBody := by
    refine ⟨by decide, ?_⟩
    show 8192 ≤ pageBytes.length
    exact Nat.le_of_eq length_pageBytes.symm
  have hnew : ((walSystem crc32c_le).restrict AllocOk).Reachable newLog :=
    .init ⟨walIds, walIds, ⟨by decide, by decide, fun _ h => h⟩, rfl⟩
  have hrecord : ((walSystem crc32c_le).restrict AllocOk).Reachable
      (appendStep crc32c_le newLog pageRecord pageBody) :=
    hnew.step (.append _ _) ⟨.append hbody, trivial⟩
  have hfilled : ((walSystem crc32c_le).restrict AllocOk).Reachable firstPageFilled := by
    refine wal_reachable_flushSteps 6 hrecord ?_
    rw [appendStep_staged]
    decide
  have hcommit : ((walSystem crc32c_le).restrict AllocOk).Reachable
      (appendStep crc32c_le firstPageFilled commitRecord none) :=
    hfilled.step (.append _ _) ⟨.append ⟨by decide, rfl⟩, trivial⟩
  refine wal_reachable_flushSteps 13 hcommit ?_
  rw [appendStep_staged]
  decide +kernel

/-- The pages have the first record, cut over their end, and the ring the second one. -/
theorem wal_stream_conserved_over_page_end :
    flushedOverEnd.pc = .idle ∧ (wal_buf_used flushedOverEnd.wal.buf).toNat = 36 ∧
      (flushedOverEnd.pages 129).next_wal_page_id = 130 ∧
      (flushedOverEnd.pages 130).used_bytes = 109 ∧
      ∃ bs, WalChain flushedOverEnd.pages flushedOverEnd.head bs ∧
        bs ++ Ring.window flushedOverEnd.wal.buf.buf KDS_WAL_BUF_SIZE
          flushedOverEnd.wal.buf.flush_off.toNat (wal_buf_used flushedOverEnd.wal.buf).toNat =
          flushedOverEnd.appended.flatten := by
  have hend : flushedOverEnd.pc.isIdle = true ∧ (wal_buf_used flushedOverEnd.wal.buf).toNat = 36 ∧
      (flushedOverEnd.pages 129).next_wal_page_id = 130 ∧
      (flushedOverEnd.pages 130).used_bytes = 109 := by decide +kernel
  have hidle := FlushPc.eq_idle hend.1
  exact ⟨hidle, hend.2.1, hend.2.2.1, hend.2.2.2,
    (wal_stream_conserved crc32c_le flushedOverEnd flushedOverEnd_reachable).2 hidle⟩

end Kds
