import Kds.Wal.Stream

/-! # Where an LSN points

    `kds_wal_append` gives a record its LSN before any page is chosen for it:
    the tail page, and the offset behind the bytes that wait in the ring.
    `kds_wal_flush` cuts the stream of bytes at page ends, so the two agree as
    long as the waiting bytes still fit in the tail page.

    Calls run one after another here: an append finds no flush in progress.
    Every page but the last is full then, and byte `pos` of the stream lies in
    page `pos / KDS_WAL_PAGE_PAYLOAD` of the chain.
-/

open Bytes

namespace Kds

/-! ## Section 1: LSNs -/

def kds_lsn_page_id (lsn : Lsn) : PageId := lsn >>> 32

def kds_lsn_offset (lsn : Lsn) : UInt32 := (lsn &&& 0xFFFFFFFF).toUInt32

theorem toNat_kds_lsn_make {id : PageId} (hid : id.toNat < 2 ^ 32) (off : UInt32) :
    (kds_lsn_make id off).toNat = id.toNat * 2 ^ 32 + off.toNat := by
  have hoff := off.toNat_lt
  have hshift : (id <<< 32).toNat = id.toNat <<< 32 := by
    rw [UInt64.toNat_shiftLeft, Nat.shiftLeft_eq]
    simp only [UInt64.reduceToNat, Nat.reduceMod, Nat.reducePow] at hid ⊢
    omega
  unfold kds_lsn_make
  rw [UInt64.toNat_or, hshift, UInt32.toNat_toUInt64, ← Nat.shiftLeft_add_eq_or_of_lt hoff,
    Nat.shiftLeft_eq]

theorem kds_lsn_page_id_make {id : PageId} (hid : id.toNat < 2 ^ 32) (off : UInt32) :
    kds_lsn_page_id (kds_lsn_make id off) = id := by
  have hoff := off.toNat_lt
  apply UInt64.toNat_inj.mp
  unfold kds_lsn_page_id
  rw [UInt64.toNat_shiftRight, toNat_kds_lsn_make hid, Nat.shiftRight_eq_div_pow]
  simp only [UInt64.reduceToNat, Nat.reduceMod, Nat.reducePow] at hoff ⊢
  omega

theorem kds_lsn_offset_make {id : PageId} (hid : id.toNat < 2 ^ 32) (off : UInt32) :
    kds_lsn_offset (kds_lsn_make id off) = off := by
  have hoff := off.toNat_lt
  apply UInt32.toNat_inj.mp
  unfold kds_lsn_offset
  rw [UInt64.toNat_toUInt32, UInt64.toNat_and, toNat_kds_lsn_make hid]
  have hmask : (0xFFFFFFFF : UInt64).toNat = 2 ^ 32 - 1 := rfl
  rw [hmask, Nat.and_two_pow_sub_one_eq_mod]
  omega

/-! ## Section 2: Bytes in the chain of pages -/

/-- Byte `pos` of the bytes from page `id` on lies in page `j`, at offset `off` of its payload. -/
inductive LocatedAt (pages : PageId → WalPage) : PageId → Nat → PageId → Nat → Prop where
  | here {id : PageId} {pos : Nat} : pos < (pages id).used_bytes.toNat →
      LocatedAt pages id pos id pos
  | next {id j : PageId} {pos off : Nat} : (pages id).used_bytes.toNat ≤ pos →
      (pages id).next_wal_page_id ≠ 0 →
      LocatedAt pages (pages id).next_wal_page_id (pos - (pages id).used_bytes.toNat) j off →
      LocatedAt pages id pos j off

/-- The pages that can be reached from `id`. -/
inductive OnChain (pages : PageId → WalPage) : PageId → PageId → Prop where
  | here {id : PageId} : OnChain pages id id
  | next {id j : PageId} : (pages id).next_wal_page_id ≠ 0 →
      OnChain pages (pages id).next_wal_page_id j → OnChain pages id j

section chain

variable {pages : PageId → WalPage} {ids : List PageId}

/-- The links leave no choice. -/
theorem Linked.unique : ∀ {ids ids' : List PageId}, Linked pages ids → Linked pages ids' →
    ids.head? = ids'.head? → ids = ids' := by
  intro ids
  induction ids with
  | nil => exact fun h => absurd h id
  | cons id ids ih =>
    intro ids' h h' hhead
    cases ids' with
    | nil => exact absurd h' (fun h => h)
    | cons id' ids' =>
      obtain rfl : id = id' := by simpa using hhead
      cases ids with
      | nil =>
        cases ids' with
        | nil => rfl
        | cons next ids' => exact absurd (h'.1.symm.trans h) h'.2.1
      | cons next ids =>
        cases ids' with
        | nil => exact absurd (h.1.symm.trans h') h.2.1
        | cons next' ids' =>
          obtain rfl : next = next' := h.1.symm.trans h'.1
          rw [ih h.2.2 h'.2.2 rfl]

theorem Linked.onChain : ∀ {id : PageId}, Linked pages (id :: ids) → ∀ j ∈ id :: ids, OnChain pages id j := by
  induction ids with
  | nil =>
    intro id _ j hj
    rw [List.mem_singleton.mp hj]
    exact .here
  | cons next ids ih =>
    intro id h j hj
    obtain ⟨hnext, hne, hrest⟩ := h
    rcases List.mem_cons.mp hj with rfl | hj
    · exact .here
    · subst hnext
      exact .next hne (ih hrest j hj)

/-- Every page but the last one is full. -/
def FullPages (pages : PageId → WalPage) (ids : List PageId) : Prop :=
  ∀ id ∈ ids.dropLast, (pages id).used_bytes.toNat = KDS_WAL_PAGE_PAYLOAD

theorem LocatedAt.index {id j : PageId} {pos off : Nat} (h : LocatedAt pages id pos j off) :
    ∀ {ids : List PageId}, Linked pages (id :: ids) → FullPages pages (id :: ids) →
      (∀ i ∈ id :: ids, (pages i).used_bytes.toNat ≤ KDS_WAL_PAGE_PAYLOAD) →
      ∃ k, (id :: ids)[k]? = some j ∧ pos = k * KDS_WAL_PAGE_PAYLOAD + off ∧
        off < KDS_WAL_PAGE_PAYLOAD := by
  induction h with
  | @here id pos hlt =>
    intro ids _ _ hle
    have hid := hle id List.mem_cons_self
    exact ⟨0, rfl, by omega, by omega⟩
  | @next id j pos off hge hne _ ih =>
    intro ids hl hfull hle
    cases ids with
    | nil => exact absurd hl hne
    | cons next ids =>
      obtain ⟨hnext, _, hrest⟩ := hl
      rw [hnext] at ih
      have hid : (pages id).used_bytes.toNat = KDS_WAL_PAGE_PAYLOAD := hfull id (by simp)
      obtain ⟨k, hk, hpos, hoff⟩ := ih hrest
        (fun i hi => hfull i (by simpa using Or.inr hi)) fun i hi => hle i (List.mem_cons_of_mem _ hi)
      refine ⟨k + 1, by simpa using hk, ?_, hoff⟩
      rw [Nat.succ_mul]
      omega

theorem Linked.locatedAt : ∀ {id : PageId} (pos : Nat), Linked pages (id :: ids) →
    pos < (chainBytes pages (id :: ids)).length → ∃ j off, LocatedAt pages id pos j off := by
  induction ids with
  | nil =>
    intro id pos _ hpos
    have hlen : (chainBytes pages [id]).length = (pages id).used_bytes.toNat := by
      simp [chainBytes, WalPage.bytes]
    exact ⟨id, pos, .here (by omega)⟩
  | cons next ids ih =>
    intro id pos h hpos
    obtain ⟨hnext, hne, hrest⟩ := h
    by_cases hlt : pos < (pages id).used_bytes.toNat
    · exact ⟨id, pos, .here hlt⟩
    · have hlen : (chainBytes pages (id :: next :: ids)).length =
          (pages id).used_bytes.toNat + (chainBytes pages (next :: ids)).length := by
        simp [chainBytes, WalPage.bytes]
      obtain ⟨j, off, hloc⟩ := ih (pos - (pages id).used_bytes.toNat) hrest (by omega)
      subst hnext
      exact ⟨j, off, .next (by omega) hne hloc⟩

end chain

/-! ## Section 3: Calls one after another -/

/-- A record as it was appended, and what was in front of it then. -/
structure Mark where
  hdr : WalRecHdr
  body : Option (List UInt8)
  tail_used : UInt32
  used : UInt64

def Mark.bytes (m : Mark) : List UInt8 := m.hdr.bytes ++ bodyBytes m.hdr m.body

/-- The log, and its records in order. The marks are not part of the program. -/
structure MarkedSys where
  sys : WalSys
  marks : List Mark

/-- The place of record `i` in the stream of bytes. -/
def recordPos (marks : List Mark) (i : Nat) : Nat :=
  ((marks.take i).map Mark.bytes).flatten.length

/-- `walSystem` with an append only where no flush is in progress, and without failures. -/
inductive SeqStep (crc32c : UInt32 → List UInt8 → UInt32) :
    MarkedSys → WalAct → MarkedSys → Prop where
  | append {s : MarkedSys} {hdr hdr' : WalRecHdr} {body : Option (List UInt8)} {w : WalState} :
      s.sys.pc = .idle → BodyOk hdr body →
      kds_wal_append crc32c s.sys.wal hdr body = .ok (.ok hdr', w) →
      SeqStep crc32c s (.append hdr body)
        { sys := appendStep crc32c s.sys hdr body
          marks := s.marks ++
            [{ hdr := hdr'
               body := body
               tail_used := s.sys.wal.buf.tail_used
               used := wal_buf_used s.sys.wal.buf }] }
  | flush {s : MarkedSys} : AllocOk s.sys .flush →
      SeqStep crc32c s .flush { s with sys := flushStep s.sys }
  | stage {s : MarkedSys} {id : PageId} : id ∉ s.sys.cached → id ≠ 0 →
      SeqStep crc32c s (.stage id)
        { s with
          sys := { s.sys with staged := s.sys.staged ++ [id], cached := id :: s.sys.cached } }

def seqSystem (crc32c : UInt32 → List UInt8 → UInt32) : Lts.System MarkedSys WalAct where
  init := fun s => (walSystem crc32c).init s.sys ∧ s.marks = []
  step := SeqStep crc32c

/-! ## Section 4: What every state keeps -/

/-- What the flusher has told `buf` about the tail page. -/
def TailInv (s : WalSys) (t : PageId) : Prop :=
  match s.pc with
  | .idle | .lsn | .loop _ | .space _ _ | .copy _ _ _ | .copyRest _ _ _ _ | .used _ _ _ |
    .advance _ =>
      s.wal.buf.tail_page_id = t ∧ s.wal.buf.tail_used = (s.pages t).used_bytes
  | .tail _ _ _ => s.wal.buf.tail_page_id = t
  | .seg _ _ | .alloc _ _ | .link _ _ =>
      s.wal.buf.tail_page_id = t ∧ (s.pages t).used_bytes.toNat = KDS_WAL_PAGE_PAYLOAD
  | .tailPage _ new => new = t ∧ (s.pages t).used_bytes = 0
  | .tailUsed _ => s.wal.buf.tail_page_id = t ∧ (s.pages t).used_bytes = 0

/-- All pages full but the last, `t`. -/
structure PagesInv (s : WalSys) (pre : List PageId) (t : PageId) : Prop where
  linked : Linked s.pages (pre ++ [t])
  starts : (pre ++ [t]).head? = some s.head
  head_ne : s.head ≠ 0
  full : ∀ id ∈ pre, (s.pages id).used_bytes.toNat = KDS_WAL_PAGE_PAYLOAD
  tail : TailInv s t

/-- A record was appended when page `k` of the chain was the last one. -/
structure MarkInv (ids : List PageId) (pos : Nat) (m : Mark) (k : Nat) (page : PageId) : Prop where
  page_eq : ids[k]? = some page
  lsn_eq : m.hdr.lsn = kds_lsn_make page (m.tail_used + m.used.toUInt32)
  pos_eq : pos = k * KDS_WAL_PAGE_PAYLOAD + (m.tail_used.toNat + m.used.toNat)
  tail_used_le : m.tail_used.toNat ≤ KDS_WAL_PAGE_PAYLOAD
  used_le : m.used.toNat ≤ KDS_WAL_BUF_SIZE

/-- `ks` are the pages that were last when the records were appended. -/
structure MarksInv (crc32c : UInt32 → List UInt8 → UInt32) (marks : List Mark) (ids : List PageId)
    (ks : List Nat) : Prop where
  length_eq : ks.length = marks.length
  sorted : ks.Pairwise (· ≤ ·)
  below : ∀ k ∈ ks, k < ids.length
  mark : ∀ i m k, marks[i]? = some m → ks[i]? = some k →
    ∃ page, MarkInv ids (recordPos marks i) m k page
  valid : ∀ m ∈ marks, BodyOk m.hdr m.body ∧ m.hdr.crc = wal_rec_crc crc32c m.hdr m.body

structure LsnInv (crc32c : UInt32 → List UInt8 → UInt32) (s : MarkedSys) (pre : List PageId)
    (t : PageId) (ks : List Nat) : Prop where
  wal : WalInv s.sys
  pages : PagesInv s.sys pre t
  records : s.sys.appended = s.marks.map Mark.bytes
  marks : MarksInv crc32c s.marks (pre ++ [t]) ks

section steps

variable {crc32c : UInt32 → List UInt8 → UInt32} {s : WalSys} {pre : List PageId} {t : PageId}

/-- The one chain there is. -/
theorem WalInv.on_chain (h : WalInv s) (hp : PagesInv s pre t) :
    ∃ F, RingInv s.wal.buf s.appended.flatten F ∧
      ChainInv s.pages s.head s.staged s.cached (pre ++ [t]) ∧
      PcInv s.pages s.wal.buf.tail_page_id s.staged s.cached s.appended.flatten F (pre ++ [t])
        s.pc := by
  obtain ⟨F, ids, hring, hchain, hpc⟩ := h
  have heq : ids = pre ++ [t] := hchain.linked.unique hp.linked (by rw [hchain.starts, hp.starts])
  subst heq
  exact ⟨F, hring, hchain, hpc⟩

/-- A step that leaves links and used bytes alone, and tells `buf` nothing wrong. -/
theorem PagesInv.same {s' : WalSys} (h : PagesInv s pre t)
    (hnext : ∀ id ∈ pre ++ [t], (s'.pages id).next_wal_page_id = (s.pages id).next_wal_page_id)
    (hused : ∀ id ∈ pre, (s'.pages id).used_bytes = (s.pages id).used_bytes)
    (hhead : s'.head = s.head) (htail : TailInv s' t) : PagesInv s' pre t where
  linked := h.linked.congr hnext
  starts := by rw [hhead]; exact h.starts
  head_ne := by rw [hhead]; exact h.head_ne
  full := fun id hid => by rw [hused id hid]; exact h.full id hid
  tail := htail

theorem not_mem_of_nodup_append (h : (pre ++ [t]).Nodup) : t ∉ pre := fun hmem =>
  (List.nodup_append.mp h).2.2 t hmem t List.mem_cons_self rfl

theorem next_update {pages : PageId → WalPage} {page : WalPage}
    (h : page.next_wal_page_id = (pages t).next_wal_page_id) (id : PageId) :
    (Function.update pages t page id).next_wal_page_id = (pages id).next_wal_page_id := by
  by_cases hid : id = t
  · subst hid
    rw [Function.update_self, h]
  · rw [Function.update_of_ne hid]

theorem used_update {pages : PageId → WalPage} {page : WalPage}
    (h : page.used_bytes = (pages t).used_bytes) (id : PageId) :
    (Function.update pages t page id).used_bytes = (pages id).used_bytes := by
  by_cases hid : id = t
  · subst hid
    rw [Function.update_self, h]
  · rw [Function.update_of_ne hid]

/-- The payload of a page changes. -/
theorem PagesInv.payload (h : PagesInv s pre t) (frame : PageId) (payload : Mem) (pc : FlushPc)
    (htail : TailInv { s.setPage frame { s.pages frame with payload := payload } with pc := pc } t) :
    PagesInv { s.setPage frame { s.pages frame with payload := payload } with pc := pc } pre t := by
  refine h.same (fun id _ => ?_) (fun id _ => ?_) rfl htail
  · apply next_update
    rfl
  · apply used_update
    rfl

theorem used_payload (frame : PageId) (payload : Mem) (id : PageId) :
    ((s.setPage frame { s.pages frame with payload := payload }).pages id).used_bytes =
      (s.pages id).used_bytes := by
  apply used_update
  rfl

/-- A page without space is full. -/
theorem used_of_space_eq_zero {used : UInt32} (hle : used.toNat ≤ KDS_WAL_PAGE_PAYLOAD)
    (h : UInt32.ofNat KDS_WAL_PAGE_PAYLOAD - used = 0) : used.toNat = KDS_WAL_PAGE_PAYLOAD := by
  have hnat := congrArg UInt32.toNat h
  rw [UInt32.toNat_sub, UInt32.toNat_ofNat'] at hnat
  simp at hnat hle ⊢
  omega

theorem flushStep_appended (s : WalSys) : (flushStep s).appended = s.appended := by
  unfold flushStep
  cases s.pc <;> dsimp only [WalSys.setPage, WalSys.setBuf] <;> (repeat' split) <;> rfl

/-- **A step of the flusher** fills the last page, or puts a new one behind it. -/
theorem PagesInv.flush (hw : WalInv s) (h : PagesInv s pre t) (hok : AllocOk s .flush) :
    PagesInv (flushStep s) pre t ∨ ∃ new, PagesInv (flushStep s) (pre ++ [t]) new := by
  obtain ⟨F, hring, hchain, hpcinv⟩ := hw.on_chain h
  have htail := h.tail
  unfold TailInv at htail
  have hnot := not_mem_of_nodup_append hchain.nodup
  have hused := hchain.used_le t (by simp)
  -- only `link` makes the chain longer; no other step changes a link of it
  cases hpc : s.pc with
  | idle =>
    rw [hpc] at htail
    left
    simp only [flushStep, hpc]
    split
    · exact h
    · exact h.same (fun _ _ => rfl) (fun _ _ => rfl) rfl htail
  | loop v =>
    rw [hpc] at htail
    left
    simp only [flushStep, hpc]
    split
    · exact h.same (fun _ _ => rfl) (fun _ _ => rfl) rfl htail
    · exact h.same (fun _ _ => rfl) (fun _ _ => rfl) rfl htail
  | space v frame =>
    rw [hpc] at htail hpcinv
    obtain ⟨_, hframe, _⟩ := hpcinv
    rw [htail.1] at hframe
    subst hframe
    left
    simp only [flushStep, hpc]
    split
    · next hzero =>
      exact h.same (fun _ _ => rfl) (fun _ _ => rfl) rfl
        ⟨htail.1, used_of_space_eq_zero hused hzero⟩
    · exact h.same (fun _ _ => rfl) (fun _ _ => rfl) rfl htail
  | copy v frame chunk =>
    rw [hpc] at htail
    left
    simp only [flushStep, hpc]
    split
    · exact h.payload frame _ _ ⟨htail.1, htail.2.trans (used_payload _ _ _).symm⟩
    · exact h.payload frame _ _ ⟨htail.1, htail.2.trans (used_payload _ _ _).symm⟩
  | copyRest v frame chunk first =>
    rw [hpc] at htail
    left
    simp only [flushStep, hpc]
    exact h.payload frame _ _ ⟨htail.1, htail.2.trans (used_payload _ _ _).symm⟩
  | used v frame chunk =>
    rw [hpc] at htail hpcinv
    obtain ⟨_, hframe, _⟩ := hpcinv
    rw [htail.1] at hframe
    subst hframe
    left
    simp only [flushStep, hpc]
    refine h.same (fun id _ => ?_) (fun id hid => ?_) rfl htail.1
    · apply next_update
      rfl
    · have hne : id ≠ frame := fun heq => hnot (heq ▸ hid)
      simp only [WalSys.setPage, Function.update_of_ne hne]
  | tail v frame chunk =>
    rw [hpc] at htail hpcinv
    obtain ⟨_, hframe, _⟩ := hpcinv
    rw [htail] at hframe
    subst hframe
    left
    simp only [flushStep, hpc]
    split
    · next hge =>
      exact h.same (fun _ _ => rfl) (fun _ _ => rfl) rfl ⟨htail, Nat.le_antisymm hused hge⟩
    · exact h.same (fun _ _ => rfl) (fun _ _ => rfl) rfl ⟨htail, rfl⟩
  | seg v behind =>
    rw [hpc] at htail
    left
    simp only [flushStep, hpc]
    exact h.same (fun _ _ => rfl) (fun _ _ => rfl) rfl htail
  | alloc v behind =>
    rw [hpc] at htail
    left
    obtain ⟨new, rest, hrest⟩ : ∃ new rest, s.staged = new :: rest := by
      simp only [AllocOk, hpc] at hok
      exact List.exists_cons_of_ne_nil hok
    -- the page taken from the ring is not one of the chain
    have hother : ∀ id ∈ pre ++ [t], id ≠ new := by
      intro id hid heq
      refine hchain.unstaged id hid ?_
      rw [heq, hrest]
      exact List.mem_cons_self
    simp only [flushStep, hpc, hrest]
    refine h.same (fun id hid => ?_) (fun id hid => ?_) rfl ⟨htail.1, ?_⟩
    · simp only [WalSys.setPage, Function.update_of_ne (hother id hid)]
    · simp only [WalSys.setPage, Function.update_of_ne (hother id (List.mem_append_left _ hid))]
    · simp only [WalSys.setPage, Function.update_of_ne (hother t (by simp))]
      exact htail.2
  | link v new =>
    rw [hpc] at htail hpcinv
    obtain ⟨_, _, hfresh⟩ := hpcinv
    obtain ⟨rfl, hfull⟩ := htail
    have hnew : new ≠ s.wal.buf.tail_page_id := fun heq => hfresh.outside (by simp [heq])
    right
    refine ⟨new, ?_⟩
    simp only [flushStep, hpc]
    refine ⟨h.linked.snoc hfresh.nonzero ?_ ?_ fun id hid => ?_, ?_, h.head_ne, fun id hid => ?_, rfl,
      ?_⟩
    · simp only [WalSys.setPage, Function.update_self]
    · simp only [WalSys.setPage, Function.update_of_ne hnew, hfresh.next]
    · have hne : id ≠ s.wal.buf.tail_page_id := fun heq => hnot (heq ▸ hid)
      simp only [WalSys.setPage, Function.update_of_ne hne]
    · rw [List.head?_append, h.starts]
      rfl
    · have hsame : ∀ id, (Function.update s.pages s.wal.buf.tail_page_id
          { s.pages s.wal.buf.tail_page_id with next_wal_page_id := new } id).used_bytes =
            (s.pages id).used_bytes := by
        apply used_update
        rfl
      refine (congrArg UInt32.toNat (hsame id)).trans ?_
      rcases List.mem_append.mp hid with hid | hid
      · exact h.full id hid
      · rw [List.mem_singleton.mp hid]
        exact hfull
    · simp only [WalSys.setPage, Function.update_of_ne hnew, hfresh.used]
  | tailPage v new =>
    rw [hpc] at htail
    left
    simp only [flushStep, hpc]
    exact h.same (fun _ _ => rfl) (fun _ _ => rfl) rfl htail
  | tailUsed v =>
    rw [hpc] at htail
    left
    simp only [flushStep, hpc]
    exact h.same (fun _ _ => rfl) (fun _ _ => rfl) rfl ⟨htail.1, htail.2.symm⟩
  | advance v =>
    rw [hpc] at htail
    left
    simp only [flushStep, hpc]
    exact h.same (fun _ _ => rfl) (fun _ _ => rfl) rfl htail
  | lsn =>
    rw [hpc] at htail
    left
    simp only [flushStep, hpc]
    exact h.same (fun _ _ => rfl) (fun _ _ => rfl) rfl htail

theorem length_chainBytes_full {pages : PageId → WalPage} {ids : List PageId}
    (hfull : ∀ id ∈ ids, (pages id).used_bytes.toNat = KDS_WAL_PAGE_PAYLOAD) :
    (chainBytes pages ids).length = ids.length * KDS_WAL_PAGE_PAYLOAD := by
  induction ids with
  | nil => simp [chainBytes]
  | cons id ids ih =>
    have hid := hfull id List.mem_cons_self
    have hrest := ih fun j hj => hfull j (List.mem_cons_of_mem _ hj)
    unfold chainBytes at hrest ⊢
    rw [List.flatMap_cons, List.length_append, hrest, WalPage.bytes, Mem.length_read, hid,
      List.length_cons, Nat.succ_mul]
    omega

/-- How many bytes the pages hold. -/
theorem length_chainBytes {pages : PageId → WalPage}
    (hfull : ∀ id ∈ pre, (pages id).used_bytes.toNat = KDS_WAL_PAGE_PAYLOAD) :
    (chainBytes pages (pre ++ [t])).length =
      pre.length * KDS_WAL_PAGE_PAYLOAD + (pages t).used_bytes.toNat := by
  rw [chainBytes_append, List.length_append, length_chainBytes_full hfull]
  simp [chainBytes, WalPage.bytes]

theorem recordPos_append {marks : List Mark} {m : Mark} {i : Nat} (h : i ≤ marks.length) :
    recordPos (marks ++ [m]) i = recordPos marks i := by
  unfold recordPos
  rw [List.take_append_of_le_length h]

theorem recordPos_length (marks : List Mark) :
    recordPos marks marks.length = (marks.map Mark.bytes).flatten.length := by
  unfold recordPos
  rw [List.take_length]

theorem MarkInv.grow {ids : List PageId} {pos k : Nat} {m : Mark} {page : PageId}
    (h : MarkInv ids pos m k page) (new : PageId) : MarkInv (ids ++ [new]) pos m k page where
  page_eq := by
    have hk : k < ids.length := (List.getElem?_eq_some_iff.mp h.page_eq).1
    rw [List.getElem?_append_left hk]
    exact h.page_eq
  lsn_eq := h.lsn_eq
  pos_eq := h.pos_eq
  tail_used_le := h.tail_used_le
  used_le := h.used_le

theorem MarksInv.grow {marks : List Mark} {ids : List PageId} {ks : List Nat}
    (h : MarksInv crc32c marks ids ks) (new : PageId) : MarksInv crc32c marks (ids ++ [new]) ks where
  length_eq := h.length_eq
  sorted := h.sorted
  below := fun k hk => by
    rw [List.length_append]
    exact Nat.lt_add_right _ (h.below k hk)
  mark := fun i m k hm hk => by
    obtain ⟨page, hmark⟩ := h.mark i m k hm hk
    exact ⟨page, hmark.grow new⟩
  valid := h.valid

/-- One more record, with the last page `t` of the chain in its LSN. -/
theorem MarksInv.snoc {marks : List Mark} {ks : List Nat} {m : Mark}
    (h : MarksInv crc32c marks (pre ++ [t]) ks)
    (hm : MarkInv (pre ++ [t]) (recordPos marks marks.length) m pre.length t)
    (hvalid : BodyOk m.hdr m.body ∧ m.hdr.crc = wal_rec_crc crc32c m.hdr m.body) :
    MarksInv crc32c (marks ++ [m]) (pre ++ [t]) (ks ++ [pre.length]) where
  length_eq := by rw [List.length_append, List.length_append, h.length_eq]; rfl
  sorted := by
    refine List.pairwise_append.mpr ⟨h.sorted, List.pairwise_singleton _ _, fun a ha b hb => ?_⟩
    have hlt := h.below a ha
    rw [List.length_append, List.length_singleton] at hlt
    rw [List.mem_singleton.mp hb]
    omega
  below := fun k hk => by
    rcases List.mem_append.mp hk with hk | hk
    · exact h.below k hk
    · rw [List.mem_singleton.mp hk]
      simp
  mark := fun i m' k hi hk => by
    by_cases hlt : i < marks.length
    · rw [List.getElem?_append_left hlt] at hi
      rw [List.getElem?_append_left (by rw [h.length_eq]; exact hlt)] at hk
      rw [recordPos_append (Nat.le_of_lt hlt)]
      exact h.mark i m' k hi hk
    · have hlen : i < marks.length + 1 := by
        have := (List.getElem?_eq_some_iff.mp hi).1
        simpa using this
      obtain rfl : i = marks.length := by omega
      rw [List.getElem?_concat_length] at hi
      rw [← h.length_eq, List.getElem?_concat_length] at hk
      obtain rfl := Option.some.inj hi
      obtain rfl := Option.some.inj hk
      rw [recordPos_append (Nat.le_refl _)]
      exact ⟨t, hm⟩
  valid := fun m' hmem => by
    rcases List.mem_append.mp hmem with hmem | hmem
    · exact h.valid m' hmem
    · rw [List.mem_singleton.mp hmem]
      exact hvalid

theorem pushRecord_tail_used (b : WalBuf) (hdr : WalRecHdr) (body : Option (List UInt8)) :
    (pushRecord b hdr body).tail_used = b.tail_used := by
  unfold pushRecord
  split
  · rw [push_tail_used, push_tail_used]
  · rw [push_tail_used]

/-- What a successful append leaves alone, and the header it leaves behind. -/
theorem kds_wal_append_ok {w w' : WalState} {hdr hdr' : WalRecHdr} {body : Option (List UInt8)}
    (h : kds_wal_append crc32c w hdr body = .ok (.ok hdr', w')) :
    hdr' = fillHdr crc32c w hdr body ∧ w'.buf.tail_page_id = w.buf.tail_page_id ∧
      w'.buf.tail_used = w.buf.tail_used := by
  unfold kds_wal_append at h
  dsimp only at h
  split at h
  · cases h
  · split at h
    · cases h
    · split at h
      · cases h
      · obtain ⟨hhdr, hw⟩ := Prod.mk.inj (Except.ok.inj h)
        rw [← Except.ok.inj hhdr, ← hw]
        exact ⟨rfl, pushRecord_tail _ _ _, pushRecord_tail_used _ _ _⟩

theorem LsnInv.append {s : MarkedSys} {ks : List Nat} {hdr hdr' : WalRecHdr}
    {body : Option (List UInt8)} {w : WalState} (h : LsnInv crc32c s pre t ks)
    (hidle : s.sys.pc = .idle) (hbody : BodyOk hdr body)
    (hok : kds_wal_append crc32c s.sys.wal hdr body = .ok (.ok hdr', w)) :
    LsnInv crc32c
      { sys := appendStep crc32c s.sys hdr body
        marks := s.marks ++
          [{ hdr := hdr'
             body := body
             tail_used := s.sys.wal.buf.tail_used
             used := wal_buf_used s.sys.wal.buf }] }
      pre t (ks ++ [pre.length]) := by
  obtain ⟨F, hring, hchain, hpcinv⟩ := h.wal.on_chain h.pages
  obtain ⟨hhdr, hpage, hused⟩ := kds_wal_append_ok hok
  have htail := h.pages.tail
  unfold TailInv at htail
  rw [hidle] at htail hpcinv
  obtain ⟨htpage, htused⟩ := htail
  have hstep : appendStep crc32c s.sys hdr body =
      { s.sys with wal := w, appended := s.sys.appended ++ [hdr'.bytes ++ bodyBytes hdr' body] } := by
    unfold appendStep
    rw [hok]
  refine ⟨h.wal.append crc32c hbody, ?_, ?_, h.marks.snoc ?_ ?_⟩
  · rw [hstep]
    refine h.pages.same (fun _ _ => rfl) (fun _ _ => rfl) rfl ?_
    unfold TailInv
    dsimp only
    rw [hidle]
    exact ⟨hpage.trans htpage, hused.trans htused⟩
  · rw [hstep, List.map_append, ← h.records]
    rfl
  · -- behind the full pages lie the used bytes of the last one, then the ring
    have hbytes := congrArg List.length hpcinv.2
    rw [length_chainBytes h.pages.full, List.length_take_of_le hring.holds.le] at hbytes
    have hbuf := hring.used_eq
    have hle := hring.holds.le
    have hfits := hring.holds.fits
    rw [h.records] at hbuf hle hfits
    refine ⟨by simp, ?_, ?_, ?_, ?_⟩
    · rw [hhdr]
      show nextLsn s.sys.wal.buf = _
      unfold nextLsn
      rw [htpage]
    · rw [recordPos_length]
      dsimp only
      rw [htused, hbuf]
      omega
    · dsimp only
      rw [htused]
      exact hchain.used_le t (by simp)
    · dsimp only
      rw [hbuf]
      omega
  · rw [hhdr]
    exact ⟨hbody, rfl⟩

/-- **Step lemma**. -/
theorem LsnInv.step {s s' : MarkedSys} {a : WalAct} {ks : List Nat} (h : LsnInv crc32c s pre t ks)
    (hstep : SeqStep crc32c s a s') : ∃ pre' t' ks', LsnInv crc32c s' pre' t' ks' := by
  cases hstep with
  | append hidle hbody hok => exact ⟨pre, t, _, h.append hidle hbody hok⟩
  | flush hok =>
    have hrecords : (flushStep s.sys).appended = s.sys.appended := flushStep_appended s.sys
    rcases h.pages.flush h.wal hok with hpages | ⟨new, hpages⟩
    · exact ⟨pre, t, ks, h.wal.flush hok, hpages, hrecords.trans h.records, h.marks⟩
    · exact ⟨pre ++ [t], new, ks, h.wal.flush hok, hpages, hrecords.trans h.records,
        h.marks.grow new⟩
  | stage hid h0 =>
    refine ⟨pre, t, ks, h.wal.stage hid h0, ?_, h.records, h.marks⟩
    exact h.pages.same (fun _ _ => rfl) (fun _ _ => rfl) rfl h.pages.tail

theorem lsnInv_init {s : MarkedSys} (h : (seqSystem crc32c).init s) :
    ∃ pre t ks, LsnInv crc32c s pre t ks := by
  obtain ⟨⟨staged, cached, hst, hs⟩, hmarks⟩ := h
  have hwal := kds_wal_init_inv hst hs
  cases staged with
  | nil => simp [kds_wal_init] at hs
  | cons first staged =>
    simp only [kds_wal_init, Option.some.injEq] at hs
    refine ⟨[], first, [], hwal, ?_, ?_, ?_⟩
    · rw [← hs]
      refine ⟨rfl, rfl, ?_, fun _ hid => absurd hid List.not_mem_nil, rfl, rfl⟩
      intro hzero
      exact hst.nonzero (hzero ▸ List.mem_cons_self)
    · rw [← hs, hmarks]
      rfl
    · rw [hmarks]
      refine ⟨rfl, List.Pairwise.nil, fun _ hk => absurd hk List.not_mem_nil, ?_,
        fun _ hm => absurd hm List.not_mem_nil⟩
      intro i m k hm
      cases hm

theorem lsnInv_reachable {s : MarkedSys} (h : (seqSystem crc32c).Reachable s) :
    ∃ pre t ks, LsnInv crc32c s pre t ks := by
  refine h.invariant (fun s => ∃ pre t ks, LsnInv crc32c s pre t ks) (fun s hinit => ?_) ?_
  · exact lsnInv_init hinit
  · intro s a s' hinv hstep
    obtain ⟨pre, t, ks, hinv⟩ := hinv
    exact hinv.step hstep

end steps

/-! ## Section 5: LSNs and places -/

/-- The first byte of record `i` has been written to its WAL page. -/
def Flushed (s : MarkedSys) (i : Nat) : Prop :=
  recordPos s.marks i + (wal_buf_used s.sys.wal.buf).toNat < s.sys.appended.flatten.length

/-- An LSN names the place of the first byte of record `i`. -/
def Addresses (s : MarkedSys) (lsn : Lsn) (i : Nat) : Prop :=
  LocatedAt s.sys.pages s.sys.head (recordPos s.marks i) (kds_lsn_page_id lsn)
    (kds_lsn_offset lsn).toNat

section places

variable {crc32c : UInt32 → List UInt8 → UInt32} {s : MarkedSys} {pre : List PageId} {t : PageId}
  {ks : List Nat}

theorem PagesInv.fullPages {s : WalSys} (h : PagesInv s pre t) : FullPages s.pages (pre ++ [t]) := by
  intro id hid
  rw [List.dropLast_concat] at hid
  exact h.full id hid

/-- Page `pos / KDS_WAL_PAGE_PAYLOAD` of the chain has the byte. -/
theorem LsnInv.index (h : LsnInv crc32c s pre t ks) {pos off : Nat} {id : PageId}
    (hloc : LocatedAt s.sys.pages s.sys.head pos id off) :
    ∃ k, (pre ++ [t])[k]? = some id ∧ pos = k * KDS_WAL_PAGE_PAYLOAD + off ∧
      off < KDS_WAL_PAGE_PAYLOAD := by
  obtain ⟨F, hring, hchain, hpcinv⟩ := h.wal.on_chain h.pages
  have hlinked := h.pages.linked
  have hfull := h.pages.fullPages
  have hle := hchain.used_le
  have hstarts := h.pages.starts
  cases hids : pre ++ [t] with
  | nil => simp at hids
  | cons first rest =>
    rw [hids] at hlinked hfull hle hstarts
    obtain rfl : first = s.sys.head := by simpa using hstarts
    exact hloc.index hlinked hfull hle

theorem LsnInv.located_of_lt (h : LsnInv crc32c s pre t ks) {pos : Nat}
    (hpos : pos < (chainBytes s.sys.pages (pre ++ [t])).length) :
    ∃ id off, LocatedAt s.sys.pages s.sys.head pos id off := by
  have hlinked := h.pages.linked
  have hstarts := h.pages.starts
  cases hids : pre ++ [t] with
  | nil => simp at hids
  | cons first rest =>
    rw [hids] at hlinked hstarts hpos
    obtain rfl : first = s.sys.head := by simpa using hstarts
    exact hlinked.locatedAt _ hpos

/-- A byte that is out of the ring is in a page. -/
theorem LsnInv.located (h : LsnInv crc32c s pre t ks) (hidle : s.sys.pc = .idle) {i : Nat}
    (hflushed : Flushed s i) :
    ∃ id off, LocatedAt s.sys.pages s.sys.head (recordPos s.marks i) id off := by
  obtain ⟨F, hring, hchain, hpcinv⟩ := h.wal.on_chain h.pages
  rw [hidle] at hpcinv
  have hbytes := congrArg List.length hpcinv.2
  rw [List.length_take_of_le hring.holds.le] at hbytes
  apply h.located_of_lt
  unfold Flushed at hflushed
  rw [hring.used_eq] at hflushed
  omega

theorem LsnInv.small_ids (h : LsnInv crc32c s pre t ks)
    (hids : ∀ id, OnChain s.sys.pages s.sys.head id → id.toNat < 2 ^ 32) :
    ∀ id ∈ pre ++ [t], id.toNat < 2 ^ 32 := by
  have hlinked := h.pages.linked
  have hstarts := h.pages.starts
  intro id hid
  cases hcons : pre ++ [t] with
  | nil => simp at hcons
  | cons first rest =>
    rw [hcons] at hlinked hstarts hid
    obtain rfl : first = s.sys.head := by simpa using hstarts
    exact hids id (hlinked.onChain id hid)

/-- The offset in an LSN is not cut off. -/
theorem MarkInv.toNat_offset {ids : List PageId} {pos k : Nat} {m : Mark} {page : PageId}
    (h : MarkInv ids pos m k page) :
    (m.tail_used + m.used.toUInt32).toNat = m.tail_used.toNat + m.used.toNat := by
  have h₁ := h.tail_used_le
  have h₂ := h.used_le
  simp only [KDS_WAL_PAGE_PAYLOAD, KDS_PAGE_SIZE, KDS_PAGE_HDR_SIZE, KDS_WAL_PAGE_HDR_SIZE] at h₁
  simp only [KDS_WAL_BUF_SIZE] at h₂
  rw [UInt32.toNat_add, UInt64.toNat_toUInt32]
  omega

/-- The place of a record's first byte, and the place its LSN names. -/
theorem LsnInv.addresses_iff (hinv : LsnInv crc32c s pre t ks) (hidle : s.sys.pc = .idle)
    (hids : ∀ id, OnChain s.sys.pages s.sys.head id → id.toNat < 2 ^ 32) {i : Nat} {m : Mark}
    (hm : s.marks[i]? = some m) (hflushed : Flushed s i) :
    Addresses s m.hdr.lsn i ↔ m.tail_used.toNat + m.used.toNat < KDS_WAL_PAGE_PAYLOAD := by
  have hi : i < ks.length := by
    rw [hinv.marks.length_eq]
    exact (List.getElem?_eq_some_iff.mp hm).1
  obtain ⟨page, hmark⟩ := hinv.marks.mark i m _ hm (List.getElem?_eq_getElem hi)
  have hpage : page.toNat < 2 ^ 32 :=
    hinv.small_ids hids page (List.mem_of_getElem? hmark.page_eq)
  have hlsn : Addresses s m.hdr.lsn i ↔ LocatedAt s.sys.pages s.sys.head (recordPos s.marks i) page
      (m.tail_used.toNat + m.used.toNat) := by
    unfold Addresses
    rw [hmark.lsn_eq, kds_lsn_page_id_make hpage, kds_lsn_offset_make hpage, hmark.toNat_offset]
  rw [hlsn]
  constructor
  · -- the page in the LSN has the byte, and it is page `k` of the chain
    intro hloc
    obtain ⟨k, hk, hpos, hoff⟩ := hinv.index hloc
    exact hoff
  · intro hroom
    obtain ⟨id, off, hloc⟩ := hinv.located hidle hflushed
    obtain ⟨k, hk, hpos, hoff⟩ := hinv.index hloc
    have hpos' := hmark.pos_eq
    have hkeq : k = ks[i] := by
      have h₁ : recordPos s.marks i / KDS_WAL_PAGE_PAYLOAD = k := by
        rw [hpos, Nat.mul_comm, Nat.mul_add_div (by decide), Nat.div_eq_of_lt hoff, Nat.add_zero]
      have h₂ : recordPos s.marks i / KDS_WAL_PAGE_PAYLOAD = ks[i] := by
        rw [hpos', Nat.mul_comm, Nat.mul_add_div (by decide), Nat.div_eq_of_lt hroom, Nat.add_zero]
      rw [← h₁, h₂]
    subst hkeq
    rw [hmark.page_eq] at hk
    obtain rfl := Option.some.inj hk
    have hoffeq : off = m.tail_used.toNat + m.used.toNat := by omega
    rw [← hoffeq]
    exact hloc

/-- **An LSN addresses its record** exactly when the bytes in front of the
    record, in the tail page and in the ring, left room in the tail page. -/
theorem lsn_addresses_record_iff (h : (seqSystem crc32c).Reachable s) (hidle : s.sys.pc = .idle)
    (hids : ∀ id, OnChain s.sys.pages s.sys.head id → id.toNat < 2 ^ 32) {i : Nat} {m : Mark}
    (hm : s.marks[i]? = some m) (hflushed : Flushed s i) :
    Addresses s m.hdr.lsn i ↔ m.tail_used.toNat + m.used.toNat < KDS_WAL_PAGE_PAYLOAD := by
  obtain ⟨pre, t, ks, hinv⟩ := lsnInv_reachable h
  exact hinv.addresses_iff hidle hids hm hflushed

end places

/-! ## Section 6: Room on the tail page -/

/-- A flush that never fails leaves room on the tail page, and a full page is
    one that the call in progress has filled. -/
def RoomInv (s : WalSys) : Prop :=
  match s.pc with
  | .idle | .lsn | .advance _ | .loop _ =>
      (s.pages s.wal.buf.tail_page_id).used_bytes.toNat < KDS_WAL_PAGE_PAYLOAD
  | .space _ frame => (s.pages frame).used_bytes.toNat < KDS_WAL_PAGE_PAYLOAD
  | .seg _ behind | .alloc _ behind => behind = true
  | .tailPage _ new => (s.pages new).used_bytes = 0
  | .tailUsed _ => (s.pages s.wal.buf.tail_page_id).used_bytes = 0
  | .copy _ _ _ | .copyRest _ _ _ _ | .used _ _ _ | .tail _ _ _ | .link _ _ => True

section room

variable {s : WalSys}

theorem RoomInv.same {s' : WalSys} (h : RoomInv s) (hpc : s'.pc = s.pc) (hpages : s'.pages = s.pages)
    (htail : s'.wal.buf.tail_page_id = s.wal.buf.tail_page_id) : RoomInv s' := by
  unfold RoomInv at h ⊢
  rw [hpc, hpages, htail]
  exact h

theorem RoomInv.flush (hw : WalInv s) (h : RoomInv s) (hok : AllocOk s .flush) :
    RoomInv (flushStep s) := by
  obtain ⟨F, ids, hring, hchain, hpcinv⟩ := hw
  unfold RoomInv at h
  cases hpc : s.pc with
  | idle =>
    rw [hpc] at h
    simp only [flushStep, hpc]
    split
    · unfold RoomInv
      rw [hpc]
      exact h
    · exact h
  | loop v =>
    rw [hpc] at h
    simp only [flushStep, hpc]
    split
    · exact h
    · exact h
  | space v frame =>
    rw [hpc] at h hpcinv
    obtain ⟨hlast, rfl, -⟩ := hpcinv
    by_cases hfull : UInt32.ofNat KDS_WAL_PAGE_PAYLOAD -
        (s.pages s.wal.buf.tail_page_id).used_bytes = 0
    -- the loop came here with room on the tail page
    · have hused := used_of_space_eq_zero (hchain.used_le _ (List.mem_of_getLast? hlast)) hfull
      exact absurd hused (Nat.ne_of_lt h)
    · simp only [flushStep, hpc]
      rw [if_neg hfull]
      exact True.intro
  | copy v frame chunk =>
    simp only [flushStep, hpc]
    split
    · exact True.intro
    · exact True.intro
  | copyRest v frame chunk first =>
    simp only [flushStep, hpc]
    exact True.intro
  | used v frame chunk =>
    simp only [flushStep, hpc]
    exact True.intro
  | tail v frame chunk =>
    rw [hpc] at hpcinv
    obtain ⟨-, rfl, -⟩ := hpcinv
    simp only [flushStep, hpc]
    split
    · exact rfl
    · next hroom => exact Nat.lt_of_not_le hroom
  | seg v behind =>
    rw [hpc] at h
    simp only [flushStep, hpc]
    exact h
  | alloc v behind =>
    unfold AllocOk at hok
    rw [hpc] at hok
    simp only [flushStep, hpc]
    split
    · next hnil => exact absurd hnil hok
    · exact True.intro
  | link v new =>
    rw [hpc] at hpcinv
    obtain ⟨hlast, -, hfresh⟩ := hpcinv
    have hne : new ≠ s.wal.buf.tail_page_id := by
      rintro rfl
      exact hfresh.outside (List.mem_of_getLast? hlast)
    simp only [flushStep, hpc]
    -- the new tail page is blank
    show (Function.update s.pages _ _ new).used_bytes = 0
    rw [Function.update_of_ne hne]
    exact hfresh.used
  | tailPage v new =>
    rw [hpc] at h
    simp only [flushStep, hpc]
    exact h
  | tailUsed v =>
    rw [hpc] at h
    simp only [flushStep, hpc]
    show (s.pages s.wal.buf.tail_page_id).used_bytes.toNat < _
    rw [show (s.pages s.wal.buf.tail_page_id).used_bytes = 0 from h]
    decide
  | advance v =>
    rw [hpc] at h
    simp only [flushStep, hpc]
    exact h
  | lsn =>
    rw [hpc] at h
    simp only [flushStep, hpc]
    exact h

end room

/-! ## Section 7: A log whose second record starts on the second page -/

theorem seq_reachable_flushSteps {crc32c : UInt32 → List UInt8 → UInt32} :
    ∀ (n : Nat) {s : MarkedSys}, (seqSystem crc32c).Reachable s → n ≤ s.sys.staged.length →
      (seqSystem crc32c).Reachable { s with sys := flushSteps n s.sys } := by
  intro n
  induction n with
  | zero => exact fun h _ => h
  | succ n ih =>
    intro s h hlen
    have hok : AllocOk s.sys .flush := by
      unfold AllocOk
      split
      · intro hnil
        simp [hnil] at hlen
      · trivial
    have hstaged := flushStep_staged s.sys
    exact ih (h.step .flush (.flush hok)) (by dsimp only; omega)

/-- The page record is in the ring. -/
def onePending : MarkedSys where
  sys := appendStep crc32c_le newLog pageRecord pageBody
  marks :=
    [{ hdr := fillHdr crc32c_le newLog.wal pageRecord pageBody
       body := pageBody
       tail_used := newLog.wal.buf.tail_used
       used := wal_buf_used newLog.wal.buf }]

/-- The COMMIT record is in the ring behind it. -/
def twoPending : MarkedSys where
  sys := appendStep crc32c_le onePending.sys commitRecord none
  marks := onePending.marks ++
    [{ hdr := fillHdr crc32c_le onePending.sys.wal commitRecord none
       body := none
       tail_used := onePending.sys.wal.buf.tail_used
       used := wal_buf_used onePending.sys.wal.buf }]

/-- Both are flushed. -/
def twoFlushed : MarkedSys where
  sys := flushSteps 19 twoPending.sys
  marks := twoPending.marks

theorem newLog_reachable : (seqSystem crc32c_le).Reachable { sys := newLog, marks := [] } := by
  refine .init ⟨⟨walIds, walIds, ?_, rfl⟩, rfl⟩
  exact ⟨by decide, by decide, fun _ h => h⟩

/-- An append that fits succeeds. -/
theorem kds_wal_append_of_room {crc32c : UInt32 → List UInt8 → UInt32} {w : WalState}
    {hdr : WalRecHdr} {body : Option (List UInt8)}
    (hsize : hdr.body_len.toNat ≤ KDS_WAL_MAX_BODY_SIZE)
    (hroom : (UInt32.ofNat KDS_WAL_REC_HDR_SIZE + hdr.body_len).toNat ≤ (wal_buf_free w.buf).toNat) :
    ∃ w', kds_wal_append crc32c w hdr body = .ok (.ok (fillHdr crc32c w hdr body), w') := by
  have htotal : (UInt32.ofNat KDS_WAL_REC_HDR_SIZE + hdr.body_len).toNat ≤ KDS_WAL_MAX_REC_SIZE := by
    rw [UInt32.toNat_add, UInt32.toNat_ofNat']
    simp only [KDS_WAL_MAX_REC_SIZE, KDS_WAL_REC_HDR_SIZE, KDS_WAL_MAX_BODY_SIZE] at hsize ⊢
    omega
  unfold kds_wal_append
  dsimp only
  rw [if_neg (Nat.not_lt.mpr htotal), if_neg (Nat.not_lt.mpr hroom), if_neg (not_copyOverruns hsize)]
  exact ⟨_, rfl⟩

theorem onePending_reachable : (seqSystem crc32c_le).Reachable onePending := by
  have hbody : BodyOk pageRecord pageBody := by
    refine ⟨by decide, ?_⟩
    show 8192 ≤ pageBytes.length
    exact Nat.le_of_eq length_pageBytes.symm
  obtain ⟨w, hok⟩ : ∃ w, kds_wal_append crc32c_le newLog.wal pageRecord pageBody =
      .ok (.ok (fillHdr crc32c_le newLog.wal pageRecord pageBody), w) :=
    kds_wal_append_of_room (by decide) (by decide)
  exact newLog_reachable.step (.append pageRecord pageBody) (.append rfl hbody hok)

theorem twoPending_reachable : (seqSystem crc32c_le).Reachable twoPending := by
  have hbody : BodyOk commitRecord none := ⟨by decide, rfl⟩
  obtain ⟨w, hok⟩ : ∃ w, kds_wal_append crc32c_le onePending.sys.wal commitRecord none =
      .ok (.ok (fillHdr crc32c_le onePending.sys.wal commitRecord none), w) :=
    kds_wal_append_of_room (by decide) (by decide +kernel)
  have hidle : onePending.sys.pc = .idle := appendStep_pc crc32c_le newLog pageRecord pageBody
  exact onePending_reachable.step (.append commitRecord none) (.append hidle hbody hok)

theorem twoFlushed_reachable : (seqSystem crc32c_le).Reachable twoFlushed := by
  refine seq_reachable_flushSteps 19 twoPending_reachable ?_
  have hstaged : twoPending.sys.staged = newLog.staged := by
    rw [twoPending, appendStep_staged, onePending, appendStep_staged]
  rw [hstaged]
  decide

/-- The call is over, and the two records fill page 129 and begin page 130. -/
theorem twoFlushed_end :
    twoFlushed.sys.pc.isIdle = true ∧ wal_buf_used twoFlushed.sys.wal.buf = 0 ∧
      twoFlushed.sys.head = 129 ∧ (∀ id ∈ twoFlushed.sys.cached, id.toNat < 2 ^ 32) ∧
      (twoFlushed.sys.pages 129).next_wal_page_id = 130 ∧
      (twoFlushed.sys.pages 130).next_wal_page_id = 0 ∧
      (twoFlushed.sys.pages 129).used_bytes.toNat = 36 + 8083 ∧
      (twoFlushed.sys.pages 130).used_bytes.toNat = 36 + 109 := by
  decide +kernel

theorem twoFlushed_idle : twoFlushed.sys.pc = .idle := FlushPc.eq_idle twoFlushed_end.1

/-- What the two records found in the ring when they came, and that both have left it. -/
theorem twoFlushed_marks :
    twoFlushed.marks.map (fun m => (m.hdr.lsn, m.tail_used.toNat + m.used.toNat)) =
        [(kds_lsn_make 129 0, 0), (kds_lsn_make 129 8228, 8228)] ∧
      ∀ i < 2, recordPos twoFlushed.marks i + (wal_buf_used twoFlushed.sys.wal.buf).toNat <
        twoFlushed.sys.appended.flatten.length := by
  decide +kernel

theorem twoFlushed_mark {i : Nat} {lsn : Lsn} {n : Nat}
    (h : [(kds_lsn_make 129 0, 0), (kds_lsn_make 129 8228, 8228)][i]? = some (lsn, n)) :
    ∃ m, twoFlushed.marks[i]? = some m ∧ m.hdr.lsn = lsn ∧ m.tail_used.toNat + m.used.toNat = n := by
  rw [← twoFlushed_marks.1, List.getElem?_map, Option.map_eq_some_iff] at h
  obtain ⟨m, hm, heq⟩ := h
  obtain ⟨hlsn, hat⟩ := Prod.mk.inj heq
  exact ⟨m, hm, hlsn, hat⟩

theorem Linked.mem_of_onChain {pages : PageId → WalPage} {id j : PageId} (h : OnChain pages id j) :
    ∀ {ids : List PageId}, Linked pages (id :: ids) → j ∈ id :: ids := by
  induction h with
  | here => exact fun _ => List.mem_cons_self
  | @next id j hne _ ih =>
    intro ids hl
    cases ids with
    | nil => exact absurd hl hne
    | cons next ids =>
      obtain ⟨hnext, _, hrest⟩ := hl
      rw [hnext] at ih
      exact List.mem_cons_of_mem _ (ih hrest)

theorem LsnInv.cached_of_onChain {crc32c : UInt32 → List UInt8 → UInt32} {s : MarkedSys}
    {pre : List PageId} {t : PageId} {ks : List Nat} (h : LsnInv crc32c s pre t ks) {id : PageId}
    (hid : OnChain s.sys.pages s.sys.head id) : id ∈ s.sys.cached := by
  obtain ⟨F, hring, hchain, hpcinv⟩ := h.wal.on_chain h.pages
  have hlinked := h.pages.linked
  have hstarts := h.pages.starts
  refine hchain.registered id ?_
  cases hcons : pre ++ [t] with
  | nil => simp at hcons
  | cons first rest =>
    rw [hcons] at hlinked hstarts
    obtain rfl : first = s.sys.head := by simpa using hstarts
    exact Linked.mem_of_onChain hid hlinked

theorem twoFlushed_small (id : PageId)
    (hid : OnChain twoFlushed.sys.pages twoFlushed.sys.head id) : id.toNat < 2 ^ 32 := by
  obtain ⟨pre, t, ks, hinv⟩ := lsnInv_reachable twoFlushed_reachable
  obtain ⟨-, -, -, hcached, -⟩ := twoFlushed_end
  exact hcached id (hinv.cached_of_onChain hid)

theorem twoFlushed_flushed (i : Nat) (hi : i < 2) : Flushed twoFlushed i :=
  twoFlushed_marks.2 i hi

/-- The page record starts where its LSN says. -/
theorem lsn_addresses_first_record :
    Addresses twoFlushed (kds_lsn_make 129 0) 0 := by
  obtain ⟨m, hm, hlsn, hat⟩ := twoFlushed_mark (i := 0) rfl
  have hiff := lsn_addresses_record_iff twoFlushed_reachable twoFlushed_idle twoFlushed_small hm
    (twoFlushed_flushed 0 (by decide))
  rw [hlsn, hat] at hiff
  exact hiff.mpr (by decide)

/-- The COMMIT record lies on page 130, its LSN names offset 8228 of page 129. -/
theorem second_record_not_addressed :
    (seqSystem crc32c_le).Reachable twoFlushed ∧ twoFlushed.sys.pc = .idle ∧
      (∀ id, OnChain twoFlushed.sys.pages twoFlushed.sys.head id → id.toNat < 2 ^ 32) ∧
      Flushed twoFlushed 1 ∧
      ∃ m, twoFlushed.marks[1]? = some m ∧ m.hdr.lsn = kds_lsn_make 129 8228 ∧
        ¬ Addresses twoFlushed m.hdr.lsn 1 := by
  obtain ⟨pre, t, ks, hinv⟩ := lsnInv_reachable twoFlushed_reachable
  have hflushed := twoFlushed_flushed 1 (by decide)
  obtain ⟨m, hm, hlsn, hat⟩ := twoFlushed_mark (i := 1) rfl
  refine ⟨twoFlushed_reachable, twoFlushed_idle, twoFlushed_small, hflushed, m, hm, hlsn, ?_⟩
  rw [hinv.addresses_iff twoFlushed_idle twoFlushed_small hm hflushed, hat]
  decide

end Kds
