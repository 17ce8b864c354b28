import Kds.Wal.Lsn

/-! # Reading the log back

    `kds_wal_recover` walks the chain of WAL pages from the page of
    `checkpointed_lsn` on. It takes every page on its own, from offset 0,
    while `kds_wal_flush` cuts the stream of records wherever a page ends. A
    record that lies across two pages is lost, and what is left of it at the
    front of the second page is taken for a record header.

    Where that does not happen the walk finds exactly the records that are
    whole on their pages. What it makes of the front of a cut record depends
    on the bytes of the body.

    `Visit` is what the walk makes of a record that passes its checks. The
    two loops run on fuel; `recoverChain_mono` says that more of it changes
    nothing.
-/

open Bytes

namespace Kds

/-! ## Section 1: The walk -/

/-- A record the walk accepts: the bytes of its header and of its body. -/
structure Visit where
  hdr : List UInt8
  body : List UInt8
  deriving DecidableEq, Repr

/-- The fields of the record header at `off`, as `rec->` reads them. -/
def recLsn (payload : Mem) (off : Nat) : Lsn := payload.readU64 off

def recType (payload : Mem) (off : Nat) : UInt8 := payload (off + 24)

def recBodyLen (payload : Mem) (off : Nat) : UInt32 := payload.readU32 (off + 28)

def recCrc (payload : Mem) (off : Nat) : UInt32 := payload.readU32 (off + 32)

/-- `wal_rec_crc_ok` on the header and body at `off`. The body is read before
    its length is checked, so it may run over the end of the page. -/
def wal_rec_crc_ok (crc32c : UInt32 → List UInt8 → UInt32) (payload : Mem) (off : Nat) : Bool :=
  let crc := crc32c (~~~0) (payload.read off 32 ++ [0, 0, 0, 0])
  let body_len := recBodyLen payload off
  let crc := if body_len > 0 then crc32c crc (payload.read (off + 36) body_len.toNat) else crc
  recCrc payload off == crc ^^^ ~~~0

/-- The types the `switch` has a case for. `KDS_WAL_REC_FULL_PAGE` is not among them. -/
def WalRecType.replayed : WalRecType → Bool
  | .fullPage => false
  | _ => true

/-- The same on the byte in a header. -/
def knownCode (code : UInt8) : Bool :=
  code = 1 ∨ code = 2 ∨ code = 3 ∨ code = 4 ∨ code = 5 ∨ code = 6

/-- The loop over the records of one page; `off` is 32 bits wide. -/
def walkPage (crc32c : UInt32 → List UInt8 → UInt32) (ckpt_lsn : Lsn) (page : WalPage) :
    Nat → UInt32 → Option (List Visit)
  | 0, _ => none
  | fuel + 1, off =>
      let payload := page.payload
      let o := off.toNat
      if o + KDS_WAL_REC_HDR_SIZE ≤ page.used_bytes.toNat then
        let next := off + UInt32.ofNat KDS_WAL_REC_HDR_SIZE + recBodyLen payload o
        if recLsn payload o ≠ KDS_LSN_INVALID ∧ recLsn payload o < ckpt_lsn then
          walkPage crc32c ckpt_lsn page fuel next
        else if ¬ wal_rec_crc_ok crc32c payload o then some []
        else if o + KDS_WAL_REC_HDR_SIZE + (recBodyLen payload o).toNat > page.used_bytes.toNat then
          some []
        else if knownCode (recType payload o) then
          let visit : Visit :=
            { hdr := payload.read o KDS_WAL_REC_HDR_SIZE
              body := payload.read (o + KDS_WAL_REC_HDR_SIZE) (recBodyLen payload o).toNat }
          (walkPage crc32c ckpt_lsn page fuel next).map (visit :: ·)
        else some []
      else some []

/-- The loop over the pages. -/
def recoverChain (crc32c : UInt32 → List UInt8 → UInt32) (ckpt_lsn : Lsn)
    (pages : PageId → WalPage) : Nat → PageId → Option (List Visit)
  | 0, _ => none
  | fuel + 1, page_id =>
      if page_id = 0 then some []
      else
        match walkPage crc32c ckpt_lsn (pages page_id) (fuel + 1) 0 with
        | none => none
        | some visits =>
            (recoverChain crc32c ckpt_lsn pages fuel (pages page_id).next_wal_page_id).map
              (visits ++ ·)

/-- `kds_wal_recover`: the records it goes through. -/
def kds_wal_recover (crc32c : UInt32 → List UInt8 → UInt32) (pages : PageId → WalPage)
    (checkpointed_lsn : Lsn) (fuel : Nat) : Option (List Visit) :=
  recoverChain crc32c checkpointed_lsn pages fuel (kds_lsn_page_id checkpointed_lsn)

/-! ### Fuel -/

theorem walkPage_mono {crc32c : UInt32 → List UInt8 → UInt32} {c : Lsn} {page : WalPage} :
    ∀ {n : Nat} {off : UInt32} {vs : List Visit}, walkPage crc32c c page n off = some vs →
      ∀ m, n ≤ m → walkPage crc32c c page m off = some vs := by
  intro n
  induction n with
  | zero => exact fun h => nomatch h
  | succ n ih =>
    intro off vs h m hm
    obtain ⟨m, rfl⟩ : ∃ k, m = k + 1 := ⟨m - 1, by omega⟩
    have hle : n ≤ m := by omega
    -- a step that ends the walk needs no fuel, the others leave the rest to the induction
    unfold walkPage at h ⊢
    dsimp only at h ⊢
    split at h
    · next hroom =>
      rw [if_pos hroom]
      split at h
      · next hskip =>
        rw [if_pos hskip]
        exact ih h m hle
      · next hskip =>
        rw [if_neg hskip]
        split at h
        · next hcrc =>
          rw [if_pos hcrc]
          exact h
        · next hcrc =>
          rw [if_neg hcrc]
          split at h
          · next hlen =>
            rw [if_pos hlen]
            exact h
          · next hlen =>
            rw [if_neg hlen]
            split at h
            · next hknown =>
              rw [if_pos hknown]
              obtain ⟨rest, hrest, rfl⟩ := Option.map_eq_some_iff.mp h
              rw [ih hrest m hle]
              rfl
            · next hknown =>
              rw [if_neg hknown]
              exact h
    · next hroom =>
      rw [if_neg hroom]
      exact h

theorem recoverChain_mono {crc32c : UInt32 → List UInt8 → UInt32} {c : Lsn}
    {pages : PageId → WalPage} :
    ∀ {n : Nat} {id : PageId} {vs : List Visit}, recoverChain crc32c c pages n id = some vs →
      ∀ m, n ≤ m → recoverChain crc32c c pages m id = some vs := by
  intro n
  induction n with
  | zero => exact fun h => nomatch h
  | succ n ih =>
    intro id vs h m hm
    obtain ⟨m, rfl⟩ : ∃ k, m = k + 1 := ⟨m - 1, by omega⟩
    unfold recoverChain at h ⊢
    by_cases hid : id = 0
    · rw [if_pos hid] at h ⊢
      exact h
    · rw [if_neg hid] at h ⊢
      cases hwalk : walkPage crc32c c (pages id) (n + 1) 0 with
      | none =>
        rw [hwalk] at h
        cases h
      | some visits =>
        rw [hwalk] at h
        rw [walkPage_mono hwalk (m + 1) (by omega)]
        obtain ⟨rest, hrest, rfl⟩ := Option.map_eq_some_iff.mp h
        dsimp only
        rw [ih hrest m (by omega)]
        rfl

/-- Any two runs that end have gone through the same records. -/
theorem kds_wal_recover_unique {crc32c : UInt32 → List UInt8 → UInt32} {pages : PageId → WalPage}
    {c : Lsn} {n m : Nat} {vs ws : List Visit} (h : kds_wal_recover crc32c pages c n = some vs)
    (h' : kds_wal_recover crc32c pages c m = some ws) : vs = ws := by
  unfold kds_wal_recover at h h'
  have hmax := recoverChain_mono h (max n m) (Nat.le_max_left n m)
  have hmax' := recoverChain_mono h' (max n m) (Nat.le_max_right n m)
  rw [hmax] at hmax'
  exact Option.some.inj hmax'

/-! ## Section 2: One record -/

/-- What the walk should make of a record. -/
def Mark.visit (m : Mark) : Visit where
  hdr := m.hdr.bytes
  body := bodyBytes m.hdr m.body

section record

variable {payload : Mem} {off : Nat} {hdr : WalRecHdr}

theorem recLsn_eq (h : payload.read off 36 = hdr.bytes) : recLsn payload off = hdr.lsn := by
  apply Mem.readU64_of_read
  have hread := Mem.read_mid_of_read []
    (u64Bytes hdr.lsn)
    (u64Bytes hdr.prev_lsn ++ u64Bytes hdr.xid ++ [hdr.type.code] ++ List.ofFn hdr.pad ++
      u32Bytes hdr.body_len ++ u32Bytes hdr.crc)
    (h.trans (by simp [WalRecHdr.bytes]))
  simpa using hread

theorem recType_eq (h : payload.read off 36 = hdr.bytes) : recType payload off = hdr.type.code := by
  have hread := Mem.read_mid_of_read
    (u64Bytes hdr.lsn ++ u64Bytes hdr.prev_lsn ++ u64Bytes hdr.xid)
    [hdr.type.code]
    (List.ofFn hdr.pad ++ u32Bytes hdr.body_len ++ u32Bytes hdr.crc)
    (h.trans (by simp [WalRecHdr.bytes]))
  simpa [Mem.read, recType] using hread

theorem recBodyLen_eq (h : payload.read off 36 = hdr.bytes) :
    recBodyLen payload off = hdr.body_len := by
  apply Mem.readU32_of_read
  have hread := Mem.read_mid_of_read
    (u64Bytes hdr.lsn ++ u64Bytes hdr.prev_lsn ++ u64Bytes hdr.xid ++ [hdr.type.code] ++
      List.ofFn hdr.pad)
    (u32Bytes hdr.body_len)
    (u32Bytes hdr.crc)
    (h.trans (by simp [WalRecHdr.bytes]))
  simpa using hread

theorem recCrc_eq (h : payload.read off 36 = hdr.bytes) : recCrc payload off = hdr.crc := by
  apply Mem.readU32_of_read
  have hread := Mem.read_mid_of_read
    (u64Bytes hdr.lsn ++ u64Bytes hdr.prev_lsn ++ u64Bytes hdr.xid ++ [hdr.type.code] ++
      List.ofFn hdr.pad ++ u32Bytes hdr.body_len)
    (u32Bytes hdr.crc)
    []
    (h.trans (by simp [WalRecHdr.bytes]))
  simpa using hread

/-- The header with its checksum zeroed, as both sides take it. -/
theorem read_front_eq (h : payload.read off 36 = hdr.bytes) :
    payload.read off 32 ++ [0, 0, 0, 0] = { hdr with crc := 0 }.bytes := by
  have hread := Mem.read_mid_of_read []
    (u64Bytes hdr.lsn ++ u64Bytes hdr.prev_lsn ++ u64Bytes hdr.xid ++ [hdr.type.code] ++
      List.ofFn hdr.pad ++ u32Bytes hdr.body_len)
    (u32Bytes hdr.crc)
    (h.trans (by simp [WalRecHdr.bytes]))
  have hfront : payload.read off 32 = u64Bytes hdr.lsn ++ u64Bytes hdr.prev_lsn ++
      u64Bytes hdr.xid ++ [hdr.type.code] ++ List.ofFn hdr.pad ++ u32Bytes hdr.body_len := by
    simpa using hread
  have hzero : [0, 0, 0, 0] = u32Bytes 0 := by decide
  rw [hfront, hzero]
  rfl

theorem knownCode_eq (type : WalRecType) : knownCode type.code = type.replayed := by
  cases type <;> rfl

/-- A record that was appended passes the checksum test. -/
theorem wal_rec_crc_ok_of_mark {crc32c : UInt32 → List UInt8 → UInt32} {m : Mark}
    (hbody : BodyOk m.hdr m.body) (hcrc : m.hdr.crc = wal_rec_crc crc32c m.hdr m.body)
    (h : payload.read off 36 = m.hdr.bytes)
    (hb : payload.read (off + 36) m.hdr.body_len.toNat = bodyBytes m.hdr m.body) :
    wal_rec_crc_ok crc32c payload off = true := by
  unfold wal_rec_crc_ok
  dsimp only
  rw [recCrc_eq h, recBodyLen_eq h, read_front_eq h, hb, hcrc, beq_iff_eq]
  unfold wal_rec_crc
  dsimp only
  -- a positive length comes with a body
  have hsome : m.hdr.body_len > 0 → m.body.isSome := by
    intro hpos
    cases hm : m.body with
    | some b => rfl
    | none =>
      have h0 := hbody.2
      rw [hm] at h0
      have h0' : m.hdr.body_len = 0 := h0
      rw [h0'] at hpos
      exact absurd hpos (by decide)
  by_cases hpos : m.hdr.body_len > 0
  · rw [if_pos ⟨hsome hpos, hpos⟩, if_pos hpos]
  · rw [if_neg fun hand => hpos hand.2, if_neg hpos]

end record

/-! ## Section 3: Whole records on their pages -/

/-- What the checks of the walk rely on. -/
structure Readable (crc32c : UInt32 → List UInt8 → UInt32) (m : Mark) : Prop where
  body : BodyOk m.hdr m.body
  crc : m.hdr.crc = wal_rec_crc crc32c m.hdr m.body
  lsn : m.hdr.lsn ≠ KDS_LSN_INVALID

theorem Mark.length_bytes {m : Mark} (h : BodyOk m.hdr m.body) :
    m.bytes.length = 36 + m.hdr.body_len.toNat := by
  unfold Mark.bytes
  rw [List.length_append, WalRecHdr.length_bytes, (bodyBytes_cases h).1, KDS_WAL_REC_HDR_SIZE]

/-- The records the walk is to go through. -/
def visitsFrom (c : Lsn) (ms : List Mark) : List Visit :=
  (ms.filter fun m => c ≤ m.hdr.lsn).map Mark.visit

section visits

variable {c : Lsn} {m : Mark} {ms ms' : List Mark} {vs vs' : List Visit}

theorem visitsFrom_append (c : Lsn) (ms ms' : List Mark) :
    visitsFrom c (ms ++ ms') = visitsFrom c ms ++ visitsFrom c ms' := by
  unfold visitsFrom
  rw [List.filter_append, List.map_append]

theorem visitsFrom_cons_old (hold : m.hdr.lsn < c) : visitsFrom c (m :: ms) = visitsFrom c ms := by
  have hnot : ¬ c ≤ m.hdr.lsn := UInt64.not_le.mpr hold
  unfold visitsFrom
  rw [List.filter_cons_of_neg (by simpa using hnot)]

theorem visitsFrom_cons_new (hnew : c ≤ m.hdr.lsn) :
    visitsFrom c (m :: ms) = m.visit :: visitsFrom c ms := by
  unfold visitsFrom
  rw [List.filter_cons_of_pos (by simpa using hnew), List.map_cons]

theorem visitsFrom_eq_nil : visitsFrom c ms = [] ↔ ∀ m ∈ ms, ¬ c ≤ m.hdr.lsn := by
  unfold visitsFrom
  rw [List.map_eq_nil_iff, List.filter_eq_nil_iff]
  simp

/-- The `switch` has a case for every record from `c` on. -/
def AllReplayed (c : Lsn) (ms : List Mark) : Prop :=
  ∀ m ∈ ms, c ≤ m.hdr.lsn → m.hdr.type.replayed = true

/-- What the walk makes of whole records: it goes through those from `c` on
    if the `switch` has a case for them, and through fewer if it has not. -/
structure Visited (c : Lsn) (ms : List Mark) (vs : List Visit) : Prop where
  le : vs.length ≤ (visitsFrom c ms).length
  all : AllReplayed c ms → vs = visitsFrom c ms
  replayed : vs.length = (visitsFrom c ms).length → AllReplayed c ms

theorem Visited.nil : Visited c [] [] where
  le := Nat.le_refl 0
  all := fun _ => rfl
  replayed := fun _ _ hm => absurd hm List.not_mem_nil

theorem Visited.append (h : Visited c ms vs) (h' : Visited c ms' vs') :
    Visited c (ms ++ ms') (vs ++ vs') := by
  have hle := h.le
  have hle' := h'.le
  refine ⟨?_, fun hall => ?_, fun hlen => ?_⟩
  · rw [visitsFrom_append, List.length_append, List.length_append]
    omega
  · rw [visitsFrom_append, h.all fun m hm => hall m (List.mem_append_left _ hm),
      h'.all fun m hm => hall m (List.mem_append_right _ hm)]
  · rw [visitsFrom_append, List.length_append, List.length_append] at hlen
    intro m hm
    rcases List.mem_append.mp hm with hm | hm
    · exact h.replayed (by omega) m hm
    · exact h'.replayed (by omega) m hm

/-- An old record is skipped. -/
theorem Visited.old (h : Visited c ms vs) (hold : m.hdr.lsn < c) : Visited c (m :: ms) vs := by
  have hnot : ¬ c ≤ m.hdr.lsn := UInt64.not_le.mpr hold
  refine ⟨?_, fun hall => ?_, fun hlen m' hm' => ?_⟩
  · rw [visitsFrom_cons_old hold]
    exact h.le
  · rw [visitsFrom_cons_old hold]
    exact h.all fun m' hm' => hall m' (List.mem_cons_of_mem _ hm')
  · rw [visitsFrom_cons_old hold] at hlen
    rcases List.mem_cons.mp hm' with rfl | hm'
    · exact fun hnew => absurd hnew hnot
    · exact h.replayed hlen m' hm'

theorem Visited.new (h : Visited c ms vs) (hnew : c ≤ m.hdr.lsn) (hknown : m.hdr.type.replayed = true) :
    Visited c (m :: ms) (m.visit :: vs) := by
  refine ⟨?_, fun hall => ?_, fun hlen m' hm' => ?_⟩
  · rw [visitsFrom_cons_new hnew]
    exact Nat.succ_le_succ h.le
  · rw [visitsFrom_cons_new hnew, h.all fun m' hm' => hall m' (List.mem_cons_of_mem _ hm')]
  · rw [visitsFrom_cons_new hnew] at hlen
    rcases List.mem_cons.mp hm' with rfl | hm'
    · exact fun _ => hknown
    · exact h.replayed (Nat.succ.inj hlen) m' hm'

/-- A record without a case ends the walk over its page. -/
theorem Visited.stop (hnew : c ≤ m.hdr.lsn) (hunknown : ¬ m.hdr.type.replayed = true) :
    Visited c (m :: ms) [] := by
  refine ⟨Nat.zero_le _, fun hall => ?_, fun hlen => ?_⟩
  · exact absurd (hall m List.mem_cons_self hnew) hunknown
  · rw [visitsFrom_cons_new hnew] at hlen
    cases hlen

end visits

section walk

variable {crc32c : UInt32 → List UInt8 → UInt32} {c : Lsn} {pages : PageId → WalPage}

/-- What lies on a page behind its last whole record: too little for a header,
    or the front of a record that is cut by the page end. -/
def Leftover (crc32c : UInt32 → List UInt8 → UInt32) (left : List UInt8) : Prop :=
  left.length < KDS_WAL_REC_HDR_SIZE ∨
    ∃ m, Readable crc32c m ∧ left <+: m.bytes ∧ left.length < m.bytes.length

theorem leftover_nil : Leftover crc32c [] := .inl (by decide)

/-- The offset behind a record does not wrap. -/
theorem toNat_behind {off : UInt32} {hdr : WalRecHdr} (hoff : off.toNat ≤ KDS_WAL_PAGE_PAYLOAD)
    (hbody : hdr.body_len.toNat ≤ KDS_WAL_MAX_BODY_SIZE) :
    (off + UInt32.ofNat KDS_WAL_REC_HDR_SIZE + hdr.body_len).toNat =
      off.toNat + (36 + hdr.body_len.toNat) := by
  rw [UInt32.toNat_add, UInt32.toNat_add, UInt32.toNat_ofNat']
  simp only [KDS_WAL_PAGE_PAYLOAD, KDS_PAGE_SIZE, KDS_PAGE_HDR_SIZE, KDS_WAL_PAGE_HDR_SIZE,
    KDS_WAL_MAX_BODY_SIZE, KDS_WAL_REC_HDR_SIZE] at hoff hbody ⊢
  omega

theorem walkPage_end {page : WalPage} {n : Nat} {off : UInt32}
    (hend : page.used_bytes.toNat < off.toNat + 36) : walkPage crc32c c page (n + 1) off = some [] := by
  rw [walkPage]
  dsimp only
  rw [if_neg (show ¬ off.toNat + KDS_WAL_REC_HDR_SIZE ≤ page.used_bytes.toNat from Nat.not_le.mpr hend)]

/-- A header with an old LSN is skipped, whatever it is. -/
theorem walkPage_skip {page : WalPage} {n : Nat} {off : UInt32}
    (hroom : off.toNat + 36 ≤ page.used_bytes.toNat)
    (hlsn : recLsn page.payload off.toNat ≠ KDS_LSN_INVALID ∧ recLsn page.payload off.toNat < c) :
    walkPage crc32c c page (n + 1) off =
      walkPage crc32c c page n
        (off + UInt32.ofNat KDS_WAL_REC_HDR_SIZE + recBodyLen page.payload off.toNat) := by
  rw [walkPage]
  dsimp only
  rw [if_pos (show off.toNat + KDS_WAL_REC_HDR_SIZE ≤ page.used_bytes.toNat from hroom), if_pos hlsn]

/-- Nothing is found behind the last whole record of a page. -/
theorem walkPage_leftover {page : WalPage} {off : UInt32} {left : List UInt8}
    (hused : page.used_bytes.toNat ≤ KDS_WAL_PAGE_PAYLOAD) (hleft : Leftover crc32c left)
    (hread : page.payload.read off.toNat left.length = left)
    (hend : off.toNat + left.length = page.used_bytes.toNat) :
    walkPage crc32c c page 2 off = some [] := by
  by_cases hshort : left.length < 36
  · exact walkPage_end (by omega)
  · obtain ⟨m, hm, hprefix, hcut⟩ : ∃ m, Readable crc32c m ∧ left <+: m.bytes ∧
        left.length < m.bytes.length := hleft.resolve_left hshort
    have hlen := Mark.length_bytes hm.body
    have hoff : off.toNat ≤ KDS_WAL_PAGE_PAYLOAD := by omega
    have hnext := toNat_behind hoff hm.body.1
    -- the header of the cut record is on the page
    have hhdr : page.payload.read off.toNat 36 = m.hdr.bytes := by
      have htake : left.take 36 = m.hdr.bytes := by
        have hfront : m.hdr.bytes <+: m.bytes := List.prefix_append _ _
        have hlen' : m.hdr.bytes.length = 36 := WalRecHdr.length_bytes m.hdr
        rw [List.prefix_iff_eq_take.mp hprefix, List.take_take, Nat.min_eq_left (by omega), ← hlen']
        exact (List.prefix_iff_eq_take.mp hfront).symm
      have hsplit : left.length = 36 + (left.length - 36) := by omega
      rw [hsplit, Mem.read_add] at hread
      rw [← htake, ← hread, List.take_left' (Mem.length_read _ _ _)]
    by_cases hskip : m.hdr.lsn < c
    · rw [walkPage_skip (by omega) (by rw [recLsn_eq hhdr]; exact ⟨hm.lsn, hskip⟩), recBodyLen_eq hhdr]
      exact walkPage_end (by omega)
    · unfold walkPage
      dsimp only
      rw [if_pos (show off.toNat + KDS_WAL_REC_HDR_SIZE ≤ _ by simp only [KDS_WAL_REC_HDR_SIZE]; omega),
        recLsn_eq hhdr, recBodyLen_eq hhdr, if_neg fun hand => hskip hand.2]
      split
      · rfl
      · -- too long for the page, whatever its checksum
        rw [if_pos (by simp only [KDS_WAL_REC_HDR_SIZE]; omega)]

/-- A page that holds whole records, from `off` on, and a leftover. -/
theorem walkPage_records {page : WalPage} {left : List UInt8}
    (hused : page.used_bytes.toNat ≤ KDS_WAL_PAGE_PAYLOAD) (hleft : Leftover crc32c left) :
    ∀ (ms : List Mark) (off : UInt32), (∀ m ∈ ms, Readable crc32c m) →
      page.payload.read off.toNat ((ms.map Mark.bytes).flatten ++ left).length =
        (ms.map Mark.bytes).flatten ++ left →
      off.toNat + ((ms.map Mark.bytes).flatten ++ left).length = page.used_bytes.toNat →
      ∃ vs, walkPage crc32c c page (ms.length + 2) off = some vs ∧ Visited c ms vs := by
  intro ms
  induction ms with
  | nil => exact fun off _ hread hend => ⟨[], walkPage_leftover hused hleft hread hend, .nil⟩
  | cons m ms ih =>
    intro off hms hread hend
    have hm := hms m List.mem_cons_self
    have hlen := Mark.length_bytes hm.body
    have hbody := (bodyBytes_cases hm.body).1
    simp only [List.map_cons, List.flatten_cons, List.append_assoc] at hread hend
    rw [List.length_append, hlen] at hend
    -- the header, the body and what lies behind them
    have hhdr : page.payload.read off.toNat 36 = m.hdr.bytes := by
      have h := Mem.read_mid_of_read [] m.hdr.bytes
        (bodyBytes m.hdr m.body ++ ((ms.map Mark.bytes).flatten ++ left))
        (hread.trans (by simp [Mark.bytes]))
      simpa using h
    have hbytes : page.payload.read (off.toNat + 36) m.hdr.body_len.toNat =
        bodyBytes m.hdr m.body := by
      have h := Mem.read_mid_of_read m.hdr.bytes (bodyBytes m.hdr m.body)
        ((ms.map Mark.bytes).flatten ++ left) (hread.trans (by simp [Mark.bytes]))
      simpa [hbody] using h
    have hoff : off.toNat ≤ KDS_WAL_PAGE_PAYLOAD := by omega
    have hnext := toNat_behind hoff hm.body.1
    obtain ⟨vs, hwalk, hvisited⟩ := ih (off + UInt32.ofNat KDS_WAL_REC_HDR_SIZE + m.hdr.body_len)
      (fun m' hm' => hms m' (List.mem_cons_of_mem _ hm'))
      (by
        have h := Mem.read_mid_of_read m.bytes ((ms.map Mark.bytes).flatten ++ left) []
          (hread.trans (by simp))
        rw [hnext, ← hlen]
        exact h)
      (by rw [hnext]; omega)
    have hroom : off.toNat + KDS_WAL_REC_HDR_SIZE ≤ page.used_bytes.toNat := by
      simp only [KDS_WAL_REC_HDR_SIZE]
      omega
    by_cases hskip : m.hdr.lsn < c
    · refine ⟨vs, ?_, hvisited.old hskip⟩
      rw [List.length_cons, Nat.add_right_comm,
        walkPage_skip hroom (by rw [recLsn_eq hhdr]; exact ⟨hm.lsn, hskip⟩), recBodyLen_eq hhdr]
      exact hwalk
    · have hge : c ≤ m.hdr.lsn := UInt64.not_lt.mp hskip
      have hcrc := wal_rec_crc_ok_of_mark hm.body hm.crc hhdr hbytes
      unfold walkPage
      dsimp only
      rw [if_pos hroom, recLsn_eq hhdr, recBodyLen_eq hhdr, recType_eq hhdr,
        if_neg fun hand => hskip hand.2, if_neg (by simp [hcrc]),
        if_neg (by simp only [KDS_WAL_REC_HDR_SIZE]; omega), knownCode_eq]
      by_cases hknown : m.hdr.type.replayed = true
      · refine ⟨m.visit :: vs, ?_, hvisited.new hge hknown⟩
        have hvisit : m.visit = { hdr := page.payload.read off.toNat KDS_WAL_REC_HDR_SIZE
                                  body := page.payload.read (off.toNat + KDS_WAL_REC_HDR_SIZE)
                                    m.hdr.body_len.toNat } := by
          unfold Mark.visit
          rw [KDS_WAL_REC_HDR_SIZE, hhdr, hbytes]
        rw [if_pos hknown, List.length_cons, hwalk, Option.map_some, hvisit]
      · exact ⟨[], if_neg hknown, .stop hge hknown⟩

/-- The whole records on the pages. -/
def Covered (crc32c : UInt32 → List UInt8 → UInt32) (pages : PageId → WalPage) :
    List PageId → List Mark → Prop
  | [], ms => ms = []
  | id :: ids, ms =>
      ∃ first rest left, ms = first ++ rest ∧ (pages id).bytes = (first.map Mark.bytes).flatten ++ left ∧
        Leftover crc32c left ∧ Covered crc32c pages ids rest

/-- A page without a header. -/
theorem Covered.snoc {t : PageId} (hshort : (pages t).used_bytes.toNat < KDS_WAL_REC_HDR_SIZE) :
    ∀ {ids : List PageId} {ms : List Mark}, Covered crc32c pages ids ms →
      Covered crc32c pages (ids ++ [t]) ms := by
  intro ids
  induction ids with
  | nil =>
    intro ms h
    have hlen : (pages t).bytes.length < KDS_WAL_REC_HDR_SIZE := by
      rw [WalPage.bytes, Mem.length_read]
      exact hshort
    exact ⟨[], [], (pages t).bytes, h, rfl, .inl hlen, rfl⟩
  | cons id ids ih =>
    intro ms h
    obtain ⟨first, rest, left, hms, hbytes, hleft, hrest⟩ := h
    exact ⟨first, rest, left, hms, hbytes, hleft, ih hrest⟩

/-- The walk over the pages. -/
theorem recoverChain_covered :
    ∀ (ids : List PageId) (ms : List Mark) (id : PageId), ids.head? = some id → Linked pages ids →
      (∀ j ∈ ids, j ≠ 0) → (∀ j ∈ ids, (pages j).used_bytes.toNat ≤ KDS_WAL_PAGE_PAYLOAD) →
      (∀ m ∈ ms, Readable crc32c m) → Covered crc32c pages ids ms →
      ∃ fuel vs, recoverChain crc32c c pages fuel id = some vs ∧ Visited c ms vs := by
  intro ids
  induction ids with
  | nil => exact fun _ _ hhead => nomatch hhead
  | cons first ids ih =>
    intro ms id hhead hlinked hne hused hms hcovered
    obtain rfl : first = id := by simpa using hhead
    obtain ⟨here, rest, left, rfl, hbytes, hleft, hrest⟩ := hcovered
    have hlen := congrArg List.length hbytes
    rw [WalPage.bytes, Mem.length_read] at hlen
    obtain ⟨vs, hwalk, hvs⟩ := walkPage_records (hused first List.mem_cons_self) hleft here 0
      (fun m hm => hms m (List.mem_append_left _ hm))
      (by rw [← hlen]; exact hbytes) (by rw [UInt32.toNat_zero, hlen, Nat.zero_add])
    -- the pages behind this one
    obtain ⟨n, ws, hn, hws⟩ : ∃ n ws, recoverChain crc32c c pages n (pages first).next_wal_page_id =
        some ws ∧ Visited c rest ws := by
      cases ids with
      | nil =>
        have hzero : (pages first).next_wal_page_id = 0 := hlinked
        have hnil : rest = [] := hrest
        refine ⟨1, [], ?_, ?_⟩
        · rw [hzero]
          rfl
        · rw [hnil]
          exact .nil
      | cons next ids =>
        obtain ⟨hnext, _, hlinked'⟩ := hlinked
        rw [hnext]
        exact ih rest next rfl hlinked' (fun j hj => hne j (List.mem_cons_of_mem _ hj))
          (fun j hj => hused j (List.mem_cons_of_mem _ hj))
          (fun m hm => hms m (List.mem_append_right _ hm)) hrest
    refine ⟨max n (here.length + 1) + 1, vs ++ ws, ?_, hvs.append hws⟩
    unfold recoverChain
    rw [if_neg (hne first List.mem_cons_self),
      walkPage_mono hwalk (max n (here.length + 1) + 1) (by omega)]
    dsimp only
    rw [recoverChain_mono hn (max n (here.length + 1)) (by omega)]
    rfl

theorem length_flatten_take_mono (ms : List Mark) {a b : Nat} (h : a ≤ b) :
    ((ms.take a).map Mark.bytes).flatten.length ≤ ((ms.take b).map Mark.bytes).flatten.length := by
  have hsplit : ms.take b = ms.take a ++ (ms.take b).drop a := by
    have happend := List.take_append_drop a (ms.take b)
    rw [List.take_take, Nat.min_eq_left h] at happend
    exact happend.symm
  rw [hsplit, List.map_append, List.flatten_append, List.length_append]
  exact Nat.le_add_right _ _

/-- Records that end at every page end fall into whole pages, with a leftover on the last. -/
theorem covered_of_boundaries {left : List UInt8} (hleft : Leftover crc32c left) :
    ∀ (ids : List PageId) (ms : List Mark),
      FullPages pages ids → ids ≠ [] → chainBytes pages ids = (ms.map Mark.bytes).flatten ++ left →
      (∀ r, 0 < r → r < ids.length →
        ∃ b, ((ms.take b).map Mark.bytes).flatten.length = r * KDS_WAL_PAGE_PAYLOAD) →
      Covered crc32c pages ids ms := by
  intro ids
  -- page by page: the first one holds the records up to the boundary at its end
  induction ids with
  | nil => exact fun _ _ hne => absurd rfl hne
  | cons id ids ih =>
    intro ms hfull _ hbytes hends
    cases ids with
    | nil =>
      refine ⟨ms, [], left, (List.append_nil ms).symm, ?_, hleft, rfl⟩
      rw [← hbytes]
      simp [chainBytes]
    | cons next ids =>
      obtain ⟨b, hb⟩ := hends 1 Nat.one_pos (by simp)
      rw [Nat.one_mul] at hb
      have hid : (pages id).bytes.length = KDS_WAL_PAGE_PAYLOAD := by
        rw [WalPage.bytes, Mem.length_read]
        exact hfull id (by simp)
      have hsplit : (pages id).bytes ++ chainBytes pages (next :: ids) =
          ((ms.take b).map Mark.bytes).flatten ++ (((ms.drop b).map Mark.bytes).flatten ++ left) := by
        rw [← List.append_assoc, ← List.flatten_append, ← List.map_append, List.take_append_drop,
          ← hbytes]
        rfl
      obtain ⟨hfirst, hrest⟩ := List.append_inj hsplit (hid.trans hb.symm)
      refine ⟨ms.take b, ms.drop b, [], (List.take_append_drop b ms).symm, ?_, leftover_nil, ?_⟩
      · rw [List.append_nil]
        exact hfirst
      refine ih (ms.drop b) (fun j hj => hfull j ?_) (List.cons_ne_nil next ids) hrest fun r hr hlt => ?_
      · rw [List.dropLast_cons_of_ne_nil (List.cons_ne_nil next ids)]
        exact List.mem_cons_of_mem _ hj
      · -- the next page ends, counted from the end of the first page
        obtain ⟨b', hb'⟩ := hends (r + 1) (Nat.succ_pos r) (by rw [List.length_cons]; omega)
        rw [Nat.succ_mul] at hb'
        -- a later boundary lies behind more records
        have hlt' : b ≤ b' := by
          by_contra hgt
          have hle := length_flatten_take_mono ms (show b' ≤ b by omega)
          have hpos : 0 < r * KDS_WAL_PAGE_PAYLOAD := Nat.mul_pos hr (by decide)
          omega
        refine ⟨b' - b, ?_⟩
        have htake : ms.take b' = ms.take b ++ (ms.drop b).take (b' - b) := by
          rw [← List.take_append_drop b (ms.take b'), List.take_take, Nat.min_eq_left hlt',
            List.drop_take]
        rw [htake, List.map_append, List.flatten_append, List.length_append, hb] at hb'
        omega

end walk

/-! ## Section 4: Recovery after a flush -/

/-- An LSN recovery may start from: that of a record, or the end of the log. -/
def BoundaryLsn (s : MarkedSys) (c : Lsn) : Prop :=
  (∃ m ∈ s.marks, m.hdr.lsn = c) ∨
    c = kds_lsn_make s.sys.wal.buf.tail_page_id s.sys.wal.buf.tail_used

/-- A record lies on one page. -/
def OnOnePage (s : MarkedSys) (i : Nat) : Prop :=
  ∀ id off id' off',
    LocatedAt s.sys.pages s.sys.head (recordPos s.marks i) id off →
    LocatedAt s.sys.pages s.sys.head (recordPos s.marks (i + 1) - 1) id' off' → id = id'

/-- A page of the walk begins inside a record and has room for a header: its
    front is taken for one. -/
def Misread (s : MarkedSys) (c : Lsn) (id : PageId) : Prop :=
  OnChain s.sys.pages (kds_lsn_page_id c) id ∧
    KDS_WAL_REC_HDR_SIZE ≤ (s.sys.pages id).used_bytes.toNat ∧
    ∃ i < s.marks.length, ∃ pos, recordPos s.marks i < pos ∧ pos < recordPos s.marks (i + 1) ∧
      LocatedAt s.sys.pages s.sys.head pos id 0

/-- The WAL pages have ids of 32 bits that grow along the chain. -/
structure PageIdsOk (s : MarkedSys) : Prop where
  small : ∀ id, OnChain s.sys.pages s.sys.head id → id.toNat < 2 ^ 32
  ascending : ∀ id j, OnChain s.sys.pages s.sys.head id → OnChain s.sys.pages id j → id ≤ j

section recover

variable {crc32c : UInt32 → List UInt8 → UInt32} {c : Lsn} {s : MarkedSys} {pre : List PageId}
  {t : PageId} {ks : List Nat}

theorem Linked.drop {pages : PageId → WalPage} :
    ∀ {ids : List PageId} (k : Nat), Linked pages ids → k < ids.length → Linked pages (ids.drop k) := by
  intro ids k
  induction k generalizing ids with
  | zero => exact fun h _ => h
  | succ k ih =>
    intro h hk
    cases ids with
    | nil => exact absurd hk (Nat.not_lt_zero _)
    | cons id ids =>
      cases ids with
      | nil => simp at hk
      | cons next ids => exact ih h.2.2 (by simpa using hk)

/-- A later page of the chain is reached from an earlier one. -/
theorem Linked.onChain_of_le {pages : PageId → WalPage} {ids : List PageId} {i j : Nat}
    {id id' : PageId} (h : Linked pages ids) (hij : i ≤ j) (hi : ids[i]? = some id)
    (hj : ids[j]? = some id') : OnChain pages id id' := by
  have hlt : i < ids.length := (List.getElem?_eq_some_iff.mp hi).1
  have hdrop := h.drop i hlt
  have hcons : ids.drop i = id :: ids.drop (i + 1) := by
    rw [List.drop_eq_getElem_cons hlt, (List.getElem?_eq_some_iff.mp hi).2]
  rw [hcons] at hdrop
  refine hdrop.onChain id' ?_
  rw [← hcons]
  refine List.mem_of_getElem? (i := j - i) ?_
  rw [List.getElem?_drop, Nat.add_sub_cancel' hij]
  exact hj

theorem LsnInv.onChain_head (h : LsnInv crc32c s pre t ks) {k : Nat} {id : PageId}
    (hk : (pre ++ [t])[k]? = some id) : OnChain s.sys.pages s.sys.head id := by
  refine h.pages.linked.onChain_of_le (Nat.zero_le k) ?_ hk
  rw [← List.head?_eq_getElem?]
  exact h.pages.starts

/-- Ids grow strictly along the chain. -/
theorem LsnInv.id_lt (h : LsnInv crc32c s pre t ks) (hids : PageIdsOk s) {i j : Nat}
    {id id' : PageId} (hij : i < j) (hi : (pre ++ [t])[i]? = some id)
    (hj : (pre ++ [t])[j]? = some id') : id.toNat < id'.toNat := by
  obtain ⟨F, hring, hchain, hpcinv⟩ := h.wal.on_chain h.pages
  have hle : id ≤ id' := hids.ascending id id' (h.onChain_head hi)
    (h.pages.linked.onChain_of_le (Nat.le_of_lt hij) hi hj)
  have hne : id ≠ id' := by
    intro heq
    subst heq
    have hli := List.getElem?_eq_some_iff.mp hi
    have hlj := List.getElem?_eq_some_iff.mp hj
    have hsame := (List.getElem_inj hchain.nodup).mp (hli.2.trans hlj.2.symm)
    omega
  have hnat : id.toNat ≤ id'.toNat := UInt64.le_iff_toNat_le.mp hle
  have hne' : id.toNat ≠ id'.toNat := fun heq => hne (UInt64.toNat_inj.mp heq)
  omega

/-- Page and rank of the LSN recovery starts from: an LSN with an earlier page is smaller. -/
theorem LsnInv.start (h : LsnInv crc32c s pre t ks) (hidle : s.sys.pc = .idle) (hids : PageIdsOk s)
    (hc : BoundaryLsn s c) :
    ∃ k, (pre ++ [t])[k]? = some (kds_lsn_page_id c) ∧
      ∀ (i : Nat) (page : PageId) (off : UInt32), i < k → (pre ++ [t])[i]? = some page →
        kds_lsn_make page off < c := by
  obtain ⟨k, page, off, hk, hmake⟩ : ∃ (k : Nat) (page : PageId) (off : UInt32),
      (pre ++ [t])[k]? = some page ∧ kds_lsn_make page off = c := by
    rcases hc with ⟨m, hmem, hlsn⟩ | hend
    · obtain ⟨i, hi, hget⟩ := List.getElem_of_mem hmem
      have hki : i < ks.length := by
        rw [h.marks.length_eq]
        exact hi
      obtain ⟨page, hmark⟩ := h.marks.mark i m ks[i] (by rw [← hget]; exact List.getElem?_eq_getElem hi)
        (List.getElem?_eq_getElem hki)
      exact ⟨ks[i], page, _, hmark.page_eq, hmark.lsn_eq.symm.trans hlsn⟩
    · have htail := h.pages.tail
      unfold TailInv at htail
      rw [hidle] at htail
      refine ⟨pre.length, t, s.sys.wal.buf.tail_used, by simp, ?_⟩
      rw [hend, htail.1]
  have hsmall : page.toNat < 2 ^ 32 := hids.small page (h.onChain_head hk)
  refine ⟨k, ?_, fun i page' off' hik hi => ?_⟩
  · rw [← hmake, kds_lsn_page_id_make hsmall]
    exact hk
  · have hsmall' : page'.toNat < 2 ^ 32 := hids.small page' (h.onChain_head hi)
    have hlt := h.id_lt hids hik hi hk
    have hoff := off.toNat_lt
    have hoff' := off'.toNat_lt
    rw [← hmake, UInt64.lt_iff_toNat_lt, toNat_kds_lsn_make hsmall, toNat_kds_lsn_make hsmall']
    omega

theorem recordPos_zero (marks : List Mark) : recordPos marks 0 = 0 := rfl

theorem LsnInv.recordPos_succ (h : LsnInv crc32c s pre t ks) {i : Nat} (hi : i < s.marks.length) :
    recordPos s.marks i < recordPos s.marks (i + 1) := by
  have hbody := (h.marks.valid s.marks[i] (List.getElem_mem hi)).1
  unfold recordPos
  rw [List.take_succ_eq_append_getElem hi, List.map_append, List.flatten_append, List.length_append]
  simp only [List.map_cons, List.map_nil, List.flatten_cons, List.flatten_nil, List.append_nil,
    Mark.length_bytes hbody]
  omega

/-- A place that no record starts at lies inside of one. -/
theorem recordPos_cases (marks : List Mark) (x : Nat) :
    ∀ n, x ≤ recordPos marks n → (∃ i ≤ n, recordPos marks i = x) ∨
      ∃ i < n, recordPos marks i < x ∧ x < recordPos marks (i + 1) := by
  intro n
  induction n with
  | zero =>
    intro hx
    rw [recordPos_zero] at hx
    exact Or.inl ⟨0, Nat.le_refl 0, by rw [recordPos_zero]; omega⟩
  | succ n ih =>
    intro hx
    by_cases hle : x ≤ recordPos marks n
    · rcases ih hle with ⟨i, hi, heq⟩ | ⟨i, hi, hin⟩
      · exact Or.inl ⟨i, by omega, heq⟩
      · exact Or.inr ⟨i, by omega, hin⟩
    · by_cases heq : x = recordPos marks (n + 1)
      · exact Or.inl ⟨n + 1, Nat.le_refl _, heq.symm⟩
      · exact Or.inr ⟨n, Nat.lt_succ_self n, by omega, by omega⟩

/-- The chain holds all records: nothing is left in the ring. -/
theorem LsnInv.chainBytes_eq (h : LsnInv crc32c s pre t ks) (hidle : s.sys.pc = .idle)
    (hdone : wal_buf_used s.sys.wal.buf = 0) :
    chainBytes s.sys.pages (pre ++ [t]) = (s.marks.map Mark.bytes).flatten := by
  obtain ⟨F, hring, hchain, hpcinv⟩ := h.wal.on_chain h.pages
  rw [hidle] at hpcinv
  have hused := hring.used_eq
  rw [hdone, UInt64.toNat_zero] at hused
  have hle := hring.holds.le
  rw [hpcinv.2, List.take_of_length_le (by omega), h.records]

/-- Records begin one behind the other. -/
theorem recordPos_mono (marks : List Mark) {i j : Nat} (hij : i ≤ j) :
    recordPos marks i ≤ recordPos marks j :=
  length_flatten_take_mono marks hij

/-- No record lies across a place where one begins. -/
theorem not_across (marks : List Mark) (i j : Nat) :
    ¬ (recordPos marks i < recordPos marks j ∧ recordPos marks j < recordPos marks (i + 1)) := by
  intro hin
  rcases Nat.lt_or_ge i j with hlt | hge
  · have hle := recordPos_mono marks (show i + 1 ≤ j from hlt)
    omega
  · have hle := recordPos_mono marks hge
    omega

/-- The bytes of the records: `j` full pages and what is on the last. -/
theorem LsnInv.recordPos_end (h : LsnInv crc32c s pre t ks) (hidle : s.sys.pc = .idle)
    (hdone : wal_buf_used s.sys.wal.buf = 0) :
    recordPos s.marks s.marks.length =
      pre.length * KDS_WAL_PAGE_PAYLOAD + (s.sys.pages t).used_bytes.toNat := by
  have htotal := length_chainBytes (t := t) h.pages.full
  rwa [h.chainBytes_eq hidle hdone, ← recordPos_length] at htotal

theorem LsnInv.located_below (h : LsnInv crc32c s pre t ks) (hidle : s.sys.pc = .idle)
    (hdone : wal_buf_used s.sys.wal.buf = 0) {pos : Nat} (hpos : pos < recordPos s.marks s.marks.length) :
    ∃ id off, LocatedAt s.sys.pages s.sys.head pos id off := by
  apply h.located_of_lt
  rw [h.chainBytes_eq hidle hdone, ← recordPos_length]
  exact hpos

/-- A record lies on one page if no page begins inside of it. -/
theorem LsnInv.onOnePage_iff (h : LsnInv crc32c s pre t ks) (hidle : s.sys.pc = .idle)
    (hdone : wal_buf_used s.sys.wal.buf = 0) {i : Nat} (hi : i < s.marks.length) :
    OnOnePage s i ↔ ∀ j, ¬ (recordPos s.marks i < j * KDS_WAL_PAGE_PAYLOAD ∧
      j * KDS_WAL_PAGE_PAYLOAD < recordPos s.marks (i + 1)) := by
  obtain ⟨F, hring, hchain, hpcinv⟩ := h.wal.on_chain h.pages
  have hsucc := h.recordPos_succ hi
  have hmono := recordPos_mono s.marks (show i + 1 ≤ s.marks.length from hi)
  constructor
  · intro hone j hin
    obtain ⟨id, off, hloc⟩ := h.located_below hidle hdone (show recordPos s.marks i < _ by omega)
    obtain ⟨id', off', hloc'⟩ := h.located_below hidle hdone (show recordPos s.marks (i + 1) - 1 < _ by omega)
    obtain ⟨q, hq, hpos, hoff⟩ := h.index hloc
    obtain ⟨q', hq', hpos', hoff'⟩ := h.index hloc'
    obtain rfl := hone id off id' off' hloc hloc'
    have hli := List.getElem?_eq_some_iff.mp hq
    have hlj := List.getElem?_eq_some_iff.mp hq'
    obtain rfl : q = q' := (List.getElem_inj hchain.nodup).mp (hli.2.trans hlj.2.symm)
    -- page `j` would be behind page `q` and not behind it
    rcases Nat.lt_or_ge q j with hlt | hge
    · have hmul := Nat.mul_le_mul_right KDS_WAL_PAGE_PAYLOAD (Nat.succ_le_of_lt hlt)
      rw [Nat.succ_mul] at hmul
      omega
    · have hmul := Nat.mul_le_mul_right KDS_WAL_PAGE_PAYLOAD hge
      omega
  · intro hnone id off id' off' hloc hloc'
    obtain ⟨q, hq, hpos, hoff⟩ := h.index hloc
    obtain ⟨q', hq', hpos', hoff'⟩ := h.index hloc'
    have hsame : q = q' := by
      rcases Nat.lt_trichotomy q q' with hlt | heq | hgt
      · have hmul := Nat.mul_le_mul_right KDS_WAL_PAGE_PAYLOAD (Nat.succ_le_of_lt hlt)
        have hin := hnone (q + 1)
        rw [Nat.succ_mul] at hmul hin
        omega
      · exact heq
      · have hmul := Nat.mul_le_mul_right KDS_WAL_PAGE_PAYLOAD (Nat.succ_le_of_lt hgt)
        rw [Nat.succ_mul] at hmul
        omega
    rw [hsame] at hq
    exact Option.some.inj (hq.symm.trans hq')

/-- The start of a page of the walk: a record begins there, or the last record
    ends on the page, which has no room for a header. -/
theorem LsnInv.page_start (h : LsnInv crc32c s pre t ks) (hidle : s.sys.pc = .idle)
    (hdone : wal_buf_used s.sys.wal.buf = 0) (hread : ∀ id, ¬ Misread s c id) {k j : Nat}
    (hk : (pre ++ [t])[k]? = some (kds_lsn_page_id c)) (hkj : k ≤ j) (hj : j ≤ pre.length) :
    (∃ i ≤ s.marks.length, recordPos s.marks i = j * KDS_WAL_PAGE_PAYLOAD) ∨
      j = pre.length ∧ (s.sys.pages t).used_bytes.toNat < KDS_WAL_REC_HDR_SIZE ∧
        ∃ i, i + 1 = s.marks.length ∧ recordPos s.marks i < j * KDS_WAL_PAGE_PAYLOAD ∧
          j * KDS_WAL_PAGE_PAYLOAD < recordPos s.marks (i + 1) := by
  have htotal := h.recordPos_end hidle hdone
  have hlen : j * KDS_WAL_PAGE_PAYLOAD ≤ recordPos s.marks s.marks.length := by
    have hmul := Nat.mul_le_mul_right KDS_WAL_PAGE_PAYLOAD hj
    omega
  rcases recordPos_cases s.marks _ _ hlen with hstart | ⟨i, hi, hlt, hgt⟩
  · exact .inl hstart
  · right
    have hmono := recordPos_mono s.marks (show i + 1 ≤ s.marks.length from hi)
    obtain ⟨id, off, hloc⟩ := h.located_below hidle hdone (show j * KDS_WAL_PAGE_PAYLOAD < _ by omega)
    obtain ⟨q, hq, hpos, hoff⟩ := h.index hloc
    have hqj : q = j := by
      rcases Nat.lt_trichotomy q j with hqlt | heq | hqgt
      · have hmul := Nat.mul_le_mul_right KDS_WAL_PAGE_PAYLOAD (Nat.succ_le_of_lt hqlt)
        rw [Nat.succ_mul] at hmul
        omega
      · exact heq
      · have hmul := Nat.mul_le_mul_right KDS_WAL_PAGE_PAYLOAD (Nat.succ_le_of_lt hqgt)
        rw [Nat.succ_mul] at hmul
        omega
    subst hqj
    obtain rfl : off = 0 := by omega
    have hshort : (s.sys.pages id).used_bytes.toNat < KDS_WAL_REC_HDR_SIZE := by
      by_contra hroom
      exact hread id ⟨h.pages.linked.onChain_of_le hkj hk hq, Nat.le_of_not_lt hroom, i, hi, _, hlt, hgt, hloc⟩
    -- the pages in front of the last one are full
    have hlast : q = pre.length := by
      by_contra hne
      have hqlt : q < pre.length := Nat.lt_of_le_of_ne hj hne
      rw [List.getElem?_append_left hqlt] at hq
      rw [h.pages.full id (List.mem_of_getElem? hq)] at hshort
      exact absurd hshort (by decide)
    subst hlast
    obtain rfl : t = id := by simpa using hq
    refine ⟨rfl, hshort, i, ?_, hlt, hgt⟩
    -- a record behind this one would need a header
    by_contra hne
    have hlt' : i + 1 < s.marks.length := Nat.lt_of_le_of_ne hi hne
    have hbody := (h.marks.valid s.marks[i + 1] (List.getElem_mem hlt')).1
    have hnext : recordPos s.marks (i + 1 + 1) = recordPos s.marks (i + 1) + s.marks[i + 1].bytes.length := by
      unfold recordPos
      rw [List.take_succ_eq_append_getElem hlt', List.map_append, List.flatten_append,
        List.length_append]
      simp
    have hmono' := recordPos_mono s.marks (show i + 1 + 1 ≤ s.marks.length from hlt')
    rw [Mark.length_bytes hbody] at hnext
    simp only [KDS_WAL_REC_HDR_SIZE] at hshort
    omega

theorem recordPos_add (marks : List Mark) (a b : Nat) :
    recordPos marks (a + b) =
      recordPos marks a + (((marks.drop a).take b).map Mark.bytes).flatten.length := by
  unfold recordPos
  rw [List.take_add, List.map_append, List.flatten_append, List.length_append]

/-- The bytes of the records from `a` on, if one begins on page `k`. -/
theorem LsnInv.chainBytes_drop (h : LsnInv crc32c s pre t ks) (hidle : s.sys.pc = .idle)
    (hdone : wal_buf_used s.sys.wal.buf = 0) {k a : Nat} (hkpre : k ≤ pre.length)
    (ha : recordPos s.marks a = k * KDS_WAL_PAGE_PAYLOAD) :
    chainBytes s.sys.pages (pre.drop k) ++ (s.sys.pages t).bytes =
      ((s.marks.drop a).map Mark.bytes).flatten := by
  have hbytes := h.chainBytes_eq hidle hdone
  -- the first `k` pages are full, so they end where record `a` begins
  have hfront : (chainBytes s.sys.pages (pre.take k)).length = k * KDS_WAL_PAGE_PAYLOAD := by
    rw [length_chainBytes_full fun id hid => h.pages.full id (List.mem_of_mem_take hid),
      List.length_take_of_le hkpre]
  have hsplit : chainBytes s.sys.pages (pre.take k) ++
      (chainBytes s.sys.pages (pre.drop k) ++ (s.sys.pages t).bytes) =
        ((s.marks.take a).map Mark.bytes).flatten ++ ((s.marks.drop a).map Mark.bytes).flatten := by
    rw [← List.append_assoc, ← chainBytes_append, List.take_append_drop, ← List.flatten_append,
      ← List.map_append, List.take_append_drop, ← hbytes, chainBytes_append]
    simp [chainBytes]
  exact (List.append_inj hsplit (hfront.trans ha.symm)).2

/-- The pages up to the last one that begins with a record. -/
theorem covered_boundaries {pages : PageId → WalPage} {marks : List Mark} {ids : List PageId}
    {left : List UInt8} {k a n : Nat} (hleft : Leftover crc32c left) (hfull : FullPages pages ids)
    (hne : ids ≠ []) (ha : recordPos marks a = k * KDS_WAL_PAGE_PAYLOAD) 
    (hbytes : chainBytes pages ids = (((marks.drop a).take n).map Mark.bytes).flatten ++ left)
    (hstart : ∀ r, 0 < r → r < ids.length →
      ∃ i ≤ a + n, recordPos marks i = (k + r) * KDS_WAL_PAGE_PAYLOAD) :
    Covered crc32c pages ids ((marks.drop a).take n) := by
  refine covered_of_boundaries hleft ids _ hfull hne hbytes fun r hr hlt => ?_
  obtain ⟨i, hi, hpos⟩ := hstart r hr hlt
  rw [Nat.add_mul] at hpos
  have hai : a ≤ i := by
    by_contra hgt
    have hle := recordPos_mono marks (show i ≤ a by omega)
    have hmul : 0 < r * KDS_WAL_PAGE_PAYLOAD := Nat.mul_pos hr (by decide)
    omega
  refine ⟨i - a, ?_⟩
  have hadd := recordPos_add marks a (i - a)
  rw [Nat.add_sub_cancel' hai] at hadd
  rw [List.take_take, Nat.min_eq_left (by omega)]
  omega

theorem Linked.ne_zero {pages : PageId → WalPage} :
    ∀ {ids : List PageId} {id : PageId}, Linked pages (id :: ids) → id ≠ 0 → ∀ j ∈ id :: ids, j ≠ 0 := by
  intro ids
  induction ids with
  | nil =>
    intro id _ hid j hj
    rw [List.mem_singleton.mp hj]
    exact hid
  | cons next ids ih =>
    intro id h hid j hj
    obtain ⟨_, hne, hrest⟩ := h
    rcases List.mem_cons.mp hj with rfl | hj
    · exact hid
    · exact ih hrest hne j hj

theorem LsnInv.ne_zero (h : LsnInv crc32c s pre t ks) : ∀ id ∈ pre ++ [t], id ≠ 0 := by
  have hlinked := h.pages.linked
  have hstarts := h.pages.starts
  cases hids : pre ++ [t] with
  | nil => exact fun id hid => absurd hid List.not_mem_nil
  | cons first rest =>
    rw [hids] at hlinked hstarts
    obtain rfl : first = s.sys.head := by simpa using hstarts
    exact hlinked.ne_zero h.pages.head_ne

/-- A record of the log is one the walk can read. -/
theorem LsnInv.readable (h : LsnInv crc32c s pre t ks) (hids : PageIdsOk s) {m : Mark}
    (hm : m ∈ s.marks) : Readable crc32c m := by
  obtain ⟨hbody, hcrc⟩ := h.marks.valid m hm
  refine ⟨hbody, hcrc, ?_⟩
  obtain ⟨i, hi, hget⟩ := List.getElem_of_mem hm
  have hki : i < ks.length := by
    rw [h.marks.length_eq]
    exact hi
  obtain ⟨page, hmark⟩ := h.marks.mark i m ks[i] (by rw [← hget]; exact List.getElem?_eq_getElem hi)
    (List.getElem?_eq_getElem hki)
  have hsmall : page.toNat < 2 ^ 32 := hids.small page (h.onChain_head hmark.page_eq)
  have hne : page ≠ 0 := h.ne_zero page (List.mem_of_getElem? hmark.page_eq)
  have hpos : page.toNat ≠ 0 := fun hzero => hne (UInt64.toNat_inj.mp hzero)
  intro hzero
  have hnat := congrArg UInt64.toNat hzero
  rw [hmark.lsn_eq, toNat_kds_lsn_make hsmall] at hnat
  have hinvalid : KDS_LSN_INVALID.toNat = 0 := rfl
  omega

/-- The records that begin in front of the first page of the walk are older than `c`. -/
theorem LsnInv.skipped (h : LsnInv crc32c s pre t ks) {k a : Nat}
    (holder : ∀ (i : Nat) (page : PageId) (off : UInt32), i < k → (pre ++ [t])[i]? = some page →
      kds_lsn_make page off < c)
    (ha : ∀ i < a, recordPos s.marks i < k * KDS_WAL_PAGE_PAYLOAD) (halen : a ≤ s.marks.length) :
    ∀ m ∈ s.marks.take a, ¬ c ≤ m.hdr.lsn := by
  intro m hm
  obtain ⟨i, hi, hget⟩ := List.getElem_of_mem hm
  rw [List.length_take_of_le halen] at hi
  rw [List.getElem_take] at hget
  have hilt : i < s.marks.length := Nat.lt_of_lt_of_le hi halen
  have hki : i < ks.length := by
    rw [h.marks.length_eq]
    exact hilt
  obtain ⟨page, hmark⟩ := h.marks.mark i m ks[i]
    (by rw [← hget]; exact List.getElem?_eq_getElem hilt) (List.getElem?_eq_getElem hki)
  have hlt := ha i hi
  have hrank : ks[i] < k := by
    by_contra hge
    have hmul := Nat.mul_le_mul_right KDS_WAL_PAGE_PAYLOAD (Nat.le_of_not_lt hge)
    have hpos := hmark.pos_eq
    omega
  rw [hmark.lsn_eq]
  exact UInt64.not_le.mpr (holder _ _ _ hrank hmark.page_eq)

theorem LsnInv.begin_before (h : LsnInv crc32c s pre t ks) {k a : Nat}
    (ha : recordPos s.marks a = k * KDS_WAL_PAGE_PAYLOAD) (halen : a ≤ s.marks.length) :
    ∀ i < a, recordPos s.marks i < k * KDS_WAL_PAGE_PAYLOAD := by
  intro i hi
  have hsucc := h.recordPos_succ (Nat.lt_of_lt_of_le hi halen)
  have hle := recordPos_mono s.marks (show i + 1 ≤ a from hi)
  omega

/-- A record lies on one page if the pages up to its end begin with records. -/
theorem LsnInv.onOnePage (h : LsnInv crc32c s pre t ks) (hidle : s.sys.pc = .idle)
    (hdone : wal_buf_used s.sys.wal.buf = 0) {k a i : Nat}
    (ha : recordPos s.marks a = k * KDS_WAL_PAGE_PAYLOAD) (hai : a ≤ i) (hi : i < s.marks.length)
    (hstarts : ∀ j, k ≤ j → j ≤ pre.length → j * KDS_WAL_PAGE_PAYLOAD < recordPos s.marks (i + 1) →
      ∃ i' ≤ s.marks.length, recordPos s.marks i' = j * KDS_WAL_PAGE_PAYLOAD) : OnOnePage s i := by
  obtain ⟨F, hring, hchain, hpcinv⟩ := h.wal.on_chain h.pages
  have hused := hchain.used_le t (by simp)
  have htotal := h.recordPos_end hidle hdone
  rw [h.onOnePage_iff hidle hdone hi]
  intro j hin
  have hle := recordPos_mono s.marks hai
  have hmono := recordPos_mono s.marks (show i + 1 ≤ s.marks.length from hi)
  have hkj : k ≤ j := by
    by_contra hlt
    have hmul := Nat.mul_le_mul_right KDS_WAL_PAGE_PAYLOAD (Nat.le_of_not_le hlt)
    omega
  have hj : j ≤ pre.length := by
    by_contra hlt
    have hmul := Nat.mul_le_mul_right KDS_WAL_PAGE_PAYLOAD (Nat.succ_le_of_lt (Nat.lt_of_not_le hlt))
    rw [Nat.succ_mul] at hmul
    omega
  obtain ⟨i', _, hpos⟩ := hstarts j hkj hj hin.2
  rw [← hpos] at hin
  exact not_across s.marks i i' hin

/-- Every page of the walk begins with a record. -/
theorem LsnInv.covered_whole (h : LsnInv crc32c s pre t ks) (hidle : s.sys.pc = .idle)
    (hdone : wal_buf_used s.sys.wal.buf = 0) {k a : Nat} (hkpre : k ≤ pre.length)
    (ha : recordPos s.marks a = k * KDS_WAL_PAGE_PAYLOAD) (halen : a ≤ s.marks.length)
    (hstarts : ∀ j, k ≤ j → j ≤ pre.length →
      ∃ i ≤ s.marks.length, recordPos s.marks i = j * KDS_WAL_PAGE_PAYLOAD) :
    Covered crc32c s.sys.pages (pre.drop k ++ [t]) ((s.marks.drop a).take (s.marks.length - a)) := by
  refine covered_boundaries leftover_nil ?_ (by simp) ha ?_ fun r hr hlt => ?_
  · intro id hid
    rw [List.dropLast_concat] at hid
    exact h.pages.full id (List.mem_of_mem_drop hid)
  · rw [List.append_nil, List.take_of_length_le (Nat.le_of_eq List.length_drop),
      ← h.chainBytes_drop hidle hdone hkpre ha, chainBytes_append]
    simp [chainBytes]
  · rw [List.length_append, List.length_drop, List.length_singleton] at hlt
    obtain ⟨i, hi, hpos⟩ := hstarts (k + r) (by omega) (by omega)
    exact ⟨i, by omega, hpos⟩

/-- The last record begins on the page in front of the last one, and what is
    behind its front has no room for a header. -/
theorem LsnInv.covered_cut (h : LsnInv crc32c s pre t ks) (hidle : s.sys.pc = .idle)
    (hdone : wal_buf_used s.sys.wal.buf = 0) (hids : PageIdsOk s) {k a i₀ : Nat} (hklt : k < pre.length)
    (ha : recordPos s.marks a = k * KDS_WAL_PAGE_PAYLOAD) (hai₀ : a ≤ i₀) (hi₀ : i₀ + 1 = s.marks.length)
    (hlt : recordPos s.marks i₀ < pre.length * KDS_WAL_PAGE_PAYLOAD)
    (hgt : pre.length * KDS_WAL_PAGE_PAYLOAD < recordPos s.marks (i₀ + 1))
    (hshort : (s.sys.pages t).used_bytes.toNat < KDS_WAL_REC_HDR_SIZE)
    (hstarts : ∀ j, k ≤ j → j < pre.length →
      ∃ i ≤ s.marks.length, recordPos s.marks i = j * KDS_WAL_PAGE_PAYLOAD) :
    Covered crc32c s.sys.pages (pre.drop k ++ [t]) ((s.marks.drop a).take (i₀ - a)) := by
  have hi₀lt : i₀ < s.marks.length := by omega
  have hfull : ∀ id ∈ pre.drop k, (s.sys.pages id).used_bytes.toNat = KDS_WAL_PAGE_PAYLOAD :=
    fun id hid => h.pages.full id (List.mem_of_mem_drop hid)
  -- the whole records, and then the one that is cut
  have hmarks : s.marks.drop a = (s.marks.drop a).take (i₀ - a) ++ [s.marks[i₀]] := by
    have hnil : s.marks.drop (i₀ + 1) = [] := List.drop_eq_nil_of_le (by omega)
    have htake := List.take_append_drop (i₀ - a) (s.marks.drop a)
    rw [List.drop_drop, Nat.add_sub_cancel' hai₀, List.drop_eq_getElem_cons hi₀lt, hnil] at htake
    exact htake.symm
  have hsplit : chainBytes s.sys.pages (pre.drop k) ++ (s.sys.pages t).bytes =
      (((s.marks.drop a).take (i₀ - a)).map Mark.bytes).flatten ++ s.marks[i₀].bytes := by
    rw [h.chainBytes_drop hidle hdone (Nat.le_of_lt hklt) ha]
    conv_lhs => rw [hmarks]
    rw [List.map_append, List.flatten_append]
    simp
  have hadd := recordPos_add s.marks a (i₀ - a)
  rw [Nat.add_sub_cancel' hai₀] at hadd
  have hlen : (chainBytes s.sys.pages (pre.drop k)).length =
      pre.length * KDS_WAL_PAGE_PAYLOAD - k * KDS_WAL_PAGE_PAYLOAD := by
    rw [length_chainBytes_full hfull, List.length_drop, Nat.sub_mul]
  have hmul := Nat.mul_le_mul_right KDS_WAL_PAGE_PAYLOAD (Nat.le_of_lt hklt)
  obtain ⟨left, hleft, hrest⟩ : ∃ left, chainBytes s.sys.pages (pre.drop k) =
      (((s.marks.drop a).take (i₀ - a)).map Mark.bytes).flatten ++ left ∧
        s.marks[i₀].bytes = left ++ (s.sys.pages t).bytes := by
    rcases List.append_eq_append_iff.mp hsplit with ⟨rest, hrest, _⟩ | hfront
    · have hlen' := congrArg List.length hrest
      rw [List.length_append, hlen] at hlen'
      omega
    · exact hfront
  have hcutlen := congrArg List.length hrest
  rw [List.length_append, WalPage.bytes, Mem.length_read] at hcutlen
  have htotal := h.recordPos_end hidle hdone
  rw [hi₀] at hgt
  refine Covered.snoc hshort ?_
  refine covered_boundaries (.inr ⟨s.marks[i₀], h.readable hids (List.getElem_mem hi₀lt),
    ⟨_, hrest.symm⟩, by omega⟩) ?_ ?_ ha hleft fun r hr hlt' => ?_
  · exact fun id hid => hfull id ((List.dropLast_sublist _).subset hid)
  · intro hnil
    rw [List.drop_eq_nil_iff] at hnil
    omega
  · rw [List.length_drop] at hlt'
    obtain ⟨i, hi, hpos⟩ := hstarts (k + r) (by omega) (by omega)
    refine ⟨i, ?_, hpos⟩
    by_contra hgt'
    have hle := recordPos_mono s.marks (show i₀ + 1 ≤ i by omega)
    have hmul' := Nat.mul_le_mul_right KDS_WAL_PAGE_PAYLOAD (show k + r ≤ pre.length by omega)
    rw [hi₀] at hle
    omega

/-- **The pages of the walk**: which records are whole on them, and that
    these are the ones on one page. -/
theorem LsnInv.covered (h : LsnInv crc32c s pre t ks) (hidle : s.sys.pc = .idle)
    (hdone : wal_buf_used s.sys.wal.buf = 0) (hids : PageIdsOk s) (hread : ∀ id, ¬ Misread s c id)
    {k : Nat} (hk : (pre ++ [t])[k]? = some (kds_lsn_page_id c)) :
    ∃ a n, a + n ≤ s.marks.length ∧ (∀ i < a, recordPos s.marks i < k * KDS_WAL_PAGE_PAYLOAD) ∧
      Covered crc32c s.sys.pages ((pre ++ [t]).drop k) ((s.marks.drop a).take n) ∧
      ∀ i, a ≤ i → i < s.marks.length → (OnOnePage s i ↔ i < a + n) := by
  have hkpre : k ≤ pre.length := by
    have hklt := (List.getElem?_eq_some_iff.mp hk).1
    rw [List.length_append, List.length_singleton] at hklt
    omega
  -- every page of the walk but the last starts with a record
  have hbelow : ∀ j, k ≤ j → j < pre.length →
      ∃ i ≤ s.marks.length, recordPos s.marks i = j * KDS_WAL_PAGE_PAYLOAD := by
    intro j hkj hj
    rcases h.page_start hidle hdone hread hk hkj (Nat.le_of_lt hj) with hstart | ⟨rfl, -, -⟩
    · exact hstart
    · exact absurd hj (Nat.lt_irrefl _)
  rw [List.drop_append_of_le_length hkpre]
  -- the last page starts with a record too, or holds the end of a cut one and nothing more
  rcases h.page_start hidle hdone hread hk hkpre (Nat.le_refl _) with hlast | ⟨-, hshort, i₀, hi₀, hlt, hgt⟩
  · have hstarts : ∀ j, k ≤ j → j ≤ pre.length →
        ∃ i ≤ s.marks.length, recordPos s.marks i = j * KDS_WAL_PAGE_PAYLOAD := by
      intro j hkj hj
      rcases Nat.eq_or_lt_of_le hj with rfl | hjlt
      · exact hlast
      · exact hbelow j hkj hjlt
    obtain ⟨a, halen, ha⟩ := hstarts k (Nat.le_refl k) hkpre
    refine ⟨a, s.marks.length - a, by omega, h.begin_before ha halen,
      h.covered_whole hidle hdone hkpre ha halen hstarts, fun i hai hi => ?_⟩
    exact iff_of_true (h.onOnePage hidle hdone ha hai hi fun j hkj hj _ => hstarts j hkj hj) (by omega)
  · -- the last record is cut by the end of the page in front of the last one
    have hcut : ¬ OnOnePage s i₀ := by
      rw [h.onOnePage_iff hidle hdone (by omega)]
      exact fun hnone => hnone _ ⟨hlt, hgt⟩
    rcases Nat.eq_or_lt_of_le hkpre with rfl | hklt
    · -- the walk begins on the last page
      refine ⟨s.marks.length, 0, Nat.le_refl _, fun i hi => ?_, ?_, fun i hai hi => ?_⟩
      · have hle := recordPos_mono s.marks (show i ≤ i₀ by omega)
        omega
      · rw [List.drop_length, List.drop_length, List.take_zero]
        exact Covered.snoc hshort rfl
      · omega
    · obtain ⟨a, halen, ha⟩ := hbelow k (Nat.le_refl k) hklt
      have hmul := Nat.mul_le_mul_right KDS_WAL_PAGE_PAYLOAD (Nat.le_of_lt hklt)
      -- the walk begins in front of the record that is cut
      have hai₀ : a ≤ i₀ := by
        by_contra hgt'
        have hle := recordPos_mono s.marks (show i₀ + 1 ≤ a by omega)
        omega
      refine ⟨a, i₀ - a, by omega, h.begin_before ha halen,
        h.covered_cut hidle hdone hids hklt ha hai₀ hi₀ hlt hgt hshort hbelow, fun i hai hi => ?_⟩
      rcases Nat.lt_or_ge i i₀ with hilt | hge
      · refine iff_of_true (h.onOnePage hidle hdone ha hai hi fun j hkj hj hin => ?_) (by omega)
        rcases Nat.eq_or_lt_of_le hj with rfl | hjlt
        · have hle := recordPos_mono s.marks (show i + 1 ≤ i₀ from hilt)
          omega
        · exact hbelow j hkj hjlt
      · obtain rfl : i = i₀ := by omega
        exact iff_of_false hcut (by omega)

theorem LsnInv.recover_iff (h : LsnInv crc32c s pre t ks) (hidle : s.sys.pc = .idle)
    (hdone : wal_buf_used s.sys.wal.buf = 0) (hids : PageIdsOk s) (hc : BoundaryLsn s c)
    (hread : ∀ id, ¬ Misread s c id) :
    (∃ fuel, kds_wal_recover crc32c s.sys.pages c fuel = some (visitsFrom c s.marks)) ↔
      ∀ i m, s.marks[i]? = some m → c ≤ m.hdr.lsn →
        m.hdr.type.replayed = true ∧ OnOnePage s i := by
  obtain ⟨F, hring, hchain, hpcinv⟩ := h.wal.on_chain h.pages
  obtain ⟨k, hk, holder⟩ := h.start hidle hids hc
  have hklt := (List.getElem?_eq_some_iff.mp hk).1
  obtain ⟨a, n, hlen, hbefore, hcovered, hone⟩ := h.covered hidle hdone hids hread hk
  have hskip := h.skipped holder hbefore (by omega)
  obtain ⟨fuel, vs, hfuel, hvisited⟩ := recoverChain_covered ((pre ++ [t]).drop k)
    ((s.marks.drop a).take n) (kds_lsn_page_id c) (by rw [List.head?_drop]; exact hk)
    (h.pages.linked.drop k hklt) (fun j hj => h.ne_zero j (List.mem_of_mem_drop hj))
    (fun j hj => hchain.used_le j (List.mem_of_mem_drop hj))
    (fun m hm => h.readable hids (List.mem_of_mem_drop (List.mem_of_mem_take hm))) hcovered
  -- what is expected: of the whole records, and of the one that is cut
  have hsplit : visitsFrom c s.marks =
      visitsFrom c ((s.marks.drop a).take n) ++ visitsFrom c (s.marks.drop (a + n)) := by
    have hmarks : s.marks = s.marks.take a ++ ((s.marks.drop a).take n ++ s.marks.drop (a + n)) := by
      rw [← List.drop_drop, List.take_append_drop, List.take_append_drop]
    conv_lhs => rw [hmarks]
    rw [visitsFrom_append, visitsFrom_append, visitsFrom_eq_nil.mpr hskip, List.nil_append]
  have hindex : ∀ i m, s.marks[i]? = some m → c ≤ m.hdr.lsn → a ≤ i := by
    intro i m hm hnew
    by_contra hlt
    have hget : (s.marks.take a)[i]? = some m := by
      rw [List.getElem?_take_of_lt (Nat.lt_of_not_le hlt)]
      exact hm
    exact hskip m (List.mem_of_getElem? hget) hnew
  constructor
  · rintro ⟨fuel', hrun⟩ i m hm hnew
    have hvs : vs = visitsFrom c s.marks := kds_wal_recover_unique hfuel hrun
    have hle := hvisited.le
    have hlen' := congrArg List.length (hvs.trans hsplit)
    rw [List.length_append] at hlen'
    have hnone : visitsFrom c (s.marks.drop (a + n)) = [] := List.length_eq_zero_iff.mp (by omega)
    have hai := hindex i m hm hnew
    have hi : i < a + n := by
      by_contra hge
      have hget : (s.marks.drop (a + n))[i - (a + n)]? = some m := by
        rw [List.getElem?_drop, Nat.add_sub_cancel' (Nat.le_of_not_lt hge)]
        exact hm
      exact visitsFrom_eq_nil.mp hnone m (List.mem_of_getElem? hget) hnew
    have hget : ((s.marks.drop a).take n)[i - a]? = some m := by
      rw [List.getElem?_take_of_lt (by omega), List.getElem?_drop, Nat.add_sub_cancel' hai]
      exact hm
    exact ⟨hvisited.replayed (by omega) m (List.mem_of_getElem? hget) hnew,
      (hone i hai (List.getElem?_eq_some_iff.mp hm).1).mpr hi⟩
  · intro hall
    refine ⟨fuel, ?_⟩
    show recoverChain crc32c c s.sys.pages fuel (kds_lsn_page_id c) = _
    have hnone : visitsFrom c (s.marks.drop (a + n)) = [] := by
      rw [visitsFrom_eq_nil]
      intro m hm hnew
      obtain ⟨i, hi⟩ := List.mem_iff_getElem?.mp hm
      rw [List.getElem?_drop] at hi
      have hlt := (hone (a + n + i) (by omega) (List.getElem?_eq_some_iff.mp hi).1).mp
        (hall (a + n + i) m hi hnew).2
      omega
    rw [hfuel, hsplit, hnone, List.append_nil, hvisited.all]
    intro m hm hnew
    obtain ⟨i, hi⟩ := List.mem_iff_getElem?.mp (List.mem_of_mem_drop (List.mem_of_mem_take hm))
    exact (hall i m hi hnew).1

/-- **Recovery decodes the log** from any record boundary on exactly if every
    record from there on has a type it knows and lies on one page, as long as
    no page is read from the middle of a record. -/
theorem wal_recover_visits_iff (h : (seqSystem crc32c).Reachable s) (hidle : s.sys.pc = .idle)
    (hdone : wal_buf_used s.sys.wal.buf = 0) (hids : PageIdsOk s) (hc : BoundaryLsn s c)
    (hread : ∀ id, ¬ Misread s c id) :
    (∃ fuel, kds_wal_recover crc32c s.sys.pages c fuel = some (visitsFrom c s.marks)) ↔
      ∀ i m, s.marks[i]? = some m → c ≤ m.hdr.lsn →
        m.hdr.type.replayed = true ∧ OnOnePage s i := by
  obtain ⟨pre, t, ks, hinv⟩ := lsnInv_reachable h
  exact hinv.recover_iff hidle hdone hids hc hread

end recover

/-! ## Section 5: A log that is read back, and one that is not -/

/-- A record that the `switch` has no case for. -/
def fullPageRecord : WalRecHdr := { commitRecord with type := .fullPage, body_len := 8 }

def fullPageBody : Option (List UInt8) := some (List.replicate 8 7)

def fullPagePending : MarkedSys where
  sys := appendStep crc32c_le newLog fullPageRecord fullPageBody
  marks :=
    [{ hdr := fillHdr crc32c_le newLog.wal fullPageRecord fullPageBody
       body := fullPageBody
       tail_used := newLog.wal.buf.tail_used
       used := wal_buf_used newLog.wal.buf }]

/-- A COMMIT record behind it. -/
def commitPending : MarkedSys where
  sys := appendStep crc32c_le fullPagePending.sys commitRecord none
  marks := fullPagePending.marks ++
    [{ hdr := fillHdr crc32c_le fullPagePending.sys.wal commitRecord none
       body := none
       tail_used := fullPagePending.sys.wal.buf.tail_used
       used := wal_buf_used fullPagePending.sys.wal.buf }]

def commitFlushed : MarkedSys where
  sys := flushSteps 9 commitPending.sys
  marks := commitPending.marks

theorem commitFlushed_reachable : (seqSystem crc32c_le).Reachable commitFlushed := by
  have hbody : BodyOk fullPageRecord fullPageBody := ⟨by decide, Nat.le_refl 8⟩
  have hbody' : BodyOk commitRecord none := ⟨by decide, rfl⟩
  obtain ⟨w, hok⟩ : ∃ w, kds_wal_append crc32c_le newLog.wal fullPageRecord fullPageBody =
      .ok (.ok (fillHdr crc32c_le newLog.wal fullPageRecord fullPageBody), w) :=
    kds_wal_append_of_room (by decide) (by decide)
  have hfirst : (seqSystem crc32c_le).Reachable fullPagePending :=
    newLog_reachable.step (.append fullPageRecord fullPageBody) (.append rfl hbody hok)
  obtain ⟨w', hok'⟩ : ∃ w, kds_wal_append crc32c_le fullPagePending.sys.wal commitRecord none =
      .ok (.ok (fillHdr crc32c_le fullPagePending.sys.wal commitRecord none), w) :=
    kds_wal_append_of_room (by decide) (by decide +kernel)
  have hidle : fullPagePending.sys.pc = .idle := appendStep_pc crc32c_le newLog fullPageRecord fullPageBody
  have hpending : (seqSystem crc32c_le).Reachable commitPending :=
    hfirst.step (.append commitRecord none) (.append hidle hbody' hok')
  have hstaged : commitPending.sys.staged = newLog.staged := by
    rw [commitPending, appendStep_staged, fullPagePending, appendStep_staged]
  refine seq_reachable_flushSteps 9 hpending ?_
  rw [hstaged]
  decide

/-- The call is over, and page 129 is the only one. -/
theorem commitFlushed_end :
    commitFlushed.sys.pc.isIdle = true ∧ wal_buf_used commitFlushed.sys.wal.buf = 0 ∧
      (commitFlushed.sys.pages 129).next_wal_page_id = 0 ∧ commitFlushed.sys.head = 129 := by
  decide +kernel

theorem commitFlushed_lsns :
    commitFlushed.marks.map (fun m => (m.hdr.lsn, m.hdr.type)) =
      [(kds_lsn_make 129 0, .fullPage), (kds_lsn_make 129 44, .commit)] := by
  decide +kernel

theorem onChain_last {pages : PageId → WalPage} {id j : PageId}
    (hlast : (pages id).next_wal_page_id = 0) (h : OnChain pages id j) : j = id := by
  cases h with
  | here => rfl
  | next hne _ => exact absurd hlast hne

theorem locatedAt_last {pages : PageId → WalPage} {id j : PageId} {pos off : Nat}
    (hlast : (pages id).next_wal_page_id = 0) (h : LocatedAt pages id pos j off) :
    j = id ∧ off = pos := by
  cases h with
  | here _ => exact ⟨rfl, rfl⟩
  | next _ hne _ => exact absurd hlast hne

/-- From the COMMIT record on, the record in front of it is not in the way. -/
theorem wal_recover_visits_behind_full_page :
    ∃ fuel, kds_wal_recover crc32c_le commitFlushed.sys.pages (kds_lsn_make 129 44) fuel =
      some [{ hdr := (fillHdr crc32c_le fullPagePending.sys.wal commitRecord none).bytes, body := [] }] := by
  obtain ⟨hidle, hused, hnext, hhead⟩ := commitFlushed_end
  have hvisits : visitsFrom (kds_lsn_make 129 44) commitFlushed.marks =
      [{ hdr := (fillHdr crc32c_le fullPagePending.sys.wal commitRecord none).bytes, body := [] }] := by
    decide +kernel
  rw [← hvisits]
  refine (wal_recover_visits_iff commitFlushed_reachable (FlushPc.eq_idle hidle) hused ?_ ?_ ?_).mpr ?_
  · have hids : ∀ id, OnChain commitFlushed.sys.pages commitFlushed.sys.head id → id = 129 := by
      rw [hhead]
      exact fun id hid => onChain_last hnext hid
    refine ⟨fun id hid => ?_, fun id j hid hj => ?_⟩
    · rw [hids id hid]
      decide
    · rw [hids id hid] at hj ⊢
      exact UInt64.le_of_eq (onChain_last hnext hj).symm
  · refine .inl ⟨_, List.mem_cons_of_mem _ List.mem_cons_self, ?_⟩
    decide +kernel
  · intro id hread
    obtain ⟨-, -, i, -, pos, hpos, -, hloc⟩ := hread
    rw [hhead] at hloc
    have hzero := (locatedAt_last hnext hloc).2
    omega
  · intro i m hm hnew
    have hget := congrArg (·[i]?) commitFlushed_lsns
    simp only [List.getElem?_map, hm, Option.map_some] at hget
    refine ⟨?_, fun id off id' off' hloc hloc' => ?_⟩
    · match i, hget with
      | 0, hget =>
        obtain ⟨hlsn, -⟩ := Prod.mk.inj (Option.some.inj hget)
        rw [hlsn] at hnew
        exact absurd hnew (by decide)
      | 1, hget =>
        obtain ⟨-, htype⟩ := Prod.mk.inj (Option.some.inj hget)
        rw [htype]
        rfl
    · rw [hhead] at hloc hloc'
      rw [(locatedAt_last hnext hloc).1, (locatedAt_last hnext hloc').1]

theorem twoFlushed_head : twoFlushed.sys.head = 129 := twoFlushed_end.2.2.1

theorem twoFlushed_linked : Linked twoFlushed.sys.pages [129, 130] := by
  obtain ⟨-, -, -, -, hnext, hlast, -, -⟩ := twoFlushed_end
  exact ⟨hnext, by decide, hlast⟩

/-- The two pages of the log are its two records, cut at byte 8119. -/
theorem twoFlushed_bytes :
    (twoFlushed.sys.pages 129).bytes ++ (twoFlushed.sys.pages 130).bytes =
      (twoFlushed.marks.map Mark.bytes).flatten := by
  obtain ⟨pre, t, ks, hinv⟩ := lsnInv_reachable twoFlushed_reachable
  have hstarts := hinv.pages.starts
  rw [twoFlushed_head] at hstarts
  have hids : pre ++ [t] = [129, 130] := hinv.pages.linked.unique twoFlushed_linked hstarts
  have hbytes := hinv.chainBytes_eq twoFlushed_idle twoFlushed_end.2.1
  rw [hids] at hbytes
  rw [← hbytes]
  simp [chainBytes]

/-- Page 129 begins with the header of the page record, page 130 in the middle of its body. -/
theorem twoFlushed_payload :
    (twoFlushed.sys.pages 129).payload.read 0 36 =
        (fillHdr crc32c_le newLog.wal pageRecord pageBody).bytes ∧
      (twoFlushed.sys.pages 130).payload.read 0 36 = strayHdr := by
  obtain ⟨-, -, -, -, -, -, hused, hused'⟩ := twoFlushed_end
  have hbytes := twoFlushed_bytes
  have hbody : bodyBytes (fillHdr crc32c_le newLog.wal pageRecord pageBody) pageBody =
      List.replicate 8083 0 ++ (strayHdr ++ List.replicate 73 0) := by
    show pageBytes.take 8192 = _
    rw [List.take_of_length_le (Nat.le_of_eq length_pageBytes)]
    rfl
  have hmarks : (twoFlushed.marks.map Mark.bytes).flatten =
      (fillHdr crc32c_le newLog.wal pageRecord pageBody).bytes ++
        (List.replicate 8083 0 ++ (strayHdr ++ (List.replicate 73 0 ++
          (twoPending.marks.drop 1).flatMap Mark.bytes))) := by
    simp only [twoFlushed, twoPending, onePending, List.cons_append, List.nil_append, List.map_cons,
      List.map_nil, List.flatten_cons, List.flatten_nil, Mark.bytes, List.drop_succ_cons,
      List.drop_zero, List.flatMap_cons, List.flatMap_nil, hbody]
    simp only [List.append_assoc, List.append_nil]
  rw [hmarks, WalPage.bytes, WalPage.bytes, hused, hused', Mem.read_add, Mem.read_add,
    List.append_assoc] at hbytes
  obtain ⟨hhdr, hrest⟩ := List.append_inj hbytes (by rw [Mem.length_read, WalRecHdr.length_bytes,
    KDS_WAL_REC_HDR_SIZE])
  obtain ⟨_, hrest⟩ := List.append_inj hrest (by rw [Mem.length_read, List.length_replicate])
  exact ⟨hhdr, (List.append_inj hrest (by rw [Mem.length_read]; rfl)).1⟩

theorem recoverChain_nil {crc32c : UInt32 → List UInt8 → UInt32} {c : Lsn} {pages : PageId → WalPage}
    {n : Nat} {id : PageId} (hid : id ≠ 0)
    (hwalk : walkPage crc32c c (pages id) (n + 1) 0 = some []) :
    recoverChain crc32c c pages (n + 1) id =
      recoverChain crc32c c pages n (pages id).next_wal_page_id := by
  rw [recoverChain, if_neg hid, hwalk]
  exact Option.map_id_apply

theorem recoverChain_end {crc32c : UInt32 → List UInt8 → UInt32} {c : Lsn} {pages : PageId → WalPage}
    (n : Nat) : recoverChain crc32c c pages (n + 1) 0 = some [] := by
  rw [recoverChain, if_pos rfl]

/-- From the LSN of the COMMIT record on, the walk finds nothing: it skips
    the page record, and then what it takes for a record on page 130. -/
theorem twoFlushed_recover :
    kds_wal_recover crc32c_le twoFlushed.sys.pages (kds_lsn_make 129 8228) 3 = some [] := by
  obtain ⟨-, -, -, -, -, -, hused, hused'⟩ := twoFlushed_end
  obtain ⟨hhdr, hstray⟩ := twoFlushed_payload
  have hfirst : walkPage crc32c_le (kds_lsn_make 129 8228) (twoFlushed.sys.pages 129) 3 0 = some [] := by
    rw [walkPage_skip (by rw [hused]; decide)
      (by rw [UInt32.toNat_zero, recLsn_eq hhdr]; exact ⟨by decide, by decide⟩)]
    refine walkPage_end ?_
    rw [hused, UInt32.toNat_zero, recBodyLen_eq hhdr]
    decide
  have hsecond : walkPage crc32c_le (kds_lsn_make 129 8228) (twoFlushed.sys.pages 130) 2 0 = some [] := by
    have hlsn : recLsn (twoFlushed.sys.pages 130).payload 0 = 1 :=
      Mem.readU64_of_read (Mem.read_mid_of_read [] (u64Bytes 1) (strayHdr.drop 8)
        (hstray.trans (by decide)))
    have hlen : recBodyLen (twoFlushed.sys.pages 130).payload 0 = 255 :=
      Mem.readU32_of_read (Mem.read_mid_of_read (strayHdr.take 28) (u32Bytes 255) (strayHdr.drop 32)
        (hstray.trans (by decide)))
    rw [walkPage_skip (by rw [hused']; decide) (by rw [UInt32.toNat_zero, hlsn]; decide)]
    refine walkPage_end ?_
    rw [hused', UInt32.toNat_zero, hlen]
    decide
  obtain ⟨hnext, _, hlast⟩ := twoFlushed_linked
  have hpage : kds_lsn_page_id (kds_lsn_make 129 8228) = 129 := by decide
  unfold kds_wal_recover
  rw [hpage, recoverChain_nil (by decide) hfirst, hnext, recoverChain_nil (by decide) hsecond, hlast]
  exact recoverChain_end 0

theorem twoFlushed_pageIds : PageIdsOk twoFlushed := by
  have hmem : ∀ id, OnChain twoFlushed.sys.pages twoFlushed.sys.head id → id ∈ [129, 130] := by
    intro id hid
    rw [twoFlushed_head] at hid
    exact Linked.mem_of_onChain hid twoFlushed_linked
  have hlast : (twoFlushed.sys.pages 130).next_wal_page_id = 0 := twoFlushed_linked.2.2
  refine ⟨twoFlushed_small, fun id j hid hj => ?_⟩
  have hcases := hmem id hid
  simp only [List.mem_cons, List.not_mem_nil, or_false] at hcases
  rcases hcases with rfl | rfl
  · have hj' := Linked.mem_of_onChain hj twoFlushed_linked
    simp only [List.mem_cons, List.not_mem_nil, or_false] at hj'
    rcases hj' with rfl | rfl
    · decide
    · decide
  · exact UInt64.le_of_eq (onChain_last hlast hj).symm

/-- The COMMIT record behind a page record is on disk and is not found again. -/
theorem cut_record_not_recovered :
    (seqSystem crc32c_le).Reachable twoFlushed ∧ twoFlushed.sys.pc = .idle ∧
      wal_buf_used twoFlushed.sys.wal.buf = 0 ∧ PageIdsOk twoFlushed ∧
      BoundaryLsn twoFlushed (kds_lsn_make 129 8228) ∧
      (∀ m ∈ twoFlushed.marks, m.hdr.type.replayed = true) ∧
      (visitsFrom (kds_lsn_make 129 8228) twoFlushed.marks).length = 1 ∧
      ¬ ∃ fuel, kds_wal_recover crc32c_le twoFlushed.sys.pages (kds_lsn_make 129 8228) fuel =
        some (visitsFrom (kds_lsn_make 129 8228) twoFlushed.marks) := by
  have hone : (visitsFrom (kds_lsn_make 129 8228) twoFlushed.marks).length = 1 := by decide +kernel
  obtain ⟨m, hm, hlsn, -⟩ := twoFlushed_mark (i := 1) rfl
  refine ⟨twoFlushed_reachable, twoFlushed_idle, twoFlushed_end.2.1, twoFlushed_pageIds,
    Or.inl ⟨m, List.mem_of_getElem? hm, hlsn⟩, ?_, hone, ?_⟩
  · intro m hm
    rcases List.mem_cons.mp hm with rfl | hm
    · rfl
    · rw [List.mem_singleton.mp hm]
      rfl
  · intro ⟨fuel, hfuel⟩
    have hnil := kds_wal_recover_unique twoFlushed_recover hfuel
    rw [← hnil] at hone
    cases hone

end Kds
