import Kds.Wal.Lsn

/-! # The order of LSNs

    `kds_wal_append` computes an LSN from three fields: the tail page, its
    used bytes, and the number of bytes in the ring. A flush moves bytes from
    the last to the second and then on to a new page, in several steps, and
    an append may land between any two of them.

    The flusher counts a byte twice from the update of `tail_used` to the
    update of `flush_off`. Without the bytes that are counted twice, the sum
    never gets smaller on a page. `OrderPc` says so at every place the
    flusher can be.
-/

open Bytes

namespace Kds

/-! ## Section 1: Appends and flushes at the same time -/

/-- The log; the headers of the records appended so far; the page ids that
    `kds_page_alloc` has handed out to the log. The lists are not part of the program. -/
structure RaceSys where
  sys : WalSys
  hdrs : List WalRecHdr
  handed : List PageId

/-- `walSystem` with growing page ids. -/
inductive RaceStep (crc32c : UInt32 → List UInt8 → UInt32) : RaceSys → WalAct → RaceSys → Prop where
  | append {s : RaceSys} {hdr hdr' : WalRecHdr} {body : Option (List UInt8)} {w : WalState} :
      BodyOk hdr body → kds_wal_append crc32c s.sys.wal hdr body = .ok (.ok hdr', w) →
      RaceStep crc32c s (.append hdr body)
        { s with sys := appendStep crc32c s.sys hdr body, hdrs := s.hdrs ++ [hdr'] }
  | appendFails {s : RaceSys} {hdr : WalRecHdr} {body : Option (List UInt8)} {e : Errno}
      {w : WalState} :
      BodyOk hdr body → kds_wal_append crc32c s.sys.wal hdr body = .ok (.error e, w) →
      RaceStep crc32c s (.append hdr body) { s with sys := appendStep crc32c s.sys hdr body }
  | flush {s : RaceSys} : RaceStep crc32c s .flush { s with sys := flushStep s.sys }
  | stage {s : RaceSys} {id : PageId} : id ∉ s.sys.cached → id ≠ 0 →
      (∀ j ∈ s.handed, j < id) → id.toNat < 2 ^ 32 →
      RaceStep crc32c s (.stage id)
        { s with
          sys := { s.sys with staged := s.sys.staged ++ [id], cached := id :: s.sys.cached }
          handed := s.handed ++ [id] }

/-- A new log on staged pages with growing ids. -/
structure RaceInit (s : RaceSys) : Prop where
  start : ∃ cached, Staged s.handed cached ∧ kds_wal_init s.handed cached = some s.sys
  growing : s.handed.Pairwise (· < ·)
  small : ∀ id ∈ s.handed, id.toNat < 2 ^ 32
  no_records : s.hdrs = []

def raceSystem (crc32c : UInt32 → List UInt8 → UInt32) : Lts.System RaceSys WalAct where
  init := RaceInit
  step := RaceStep crc32c

/-- The fields an append reads belong together: the flusher has not counted
    bytes in `tail_used` that `flush_off` still leaves in the ring, unless it
    is about to leave the tail page; and it is not between `tail_page_id` and
    `tail_used` of a new page. -/
def FieldsAgree (s : WalSys) : Prop :=
  match s.pc with
  | .link _ _ | .tailPage _ _ => True
  | .tailUsed _ => False
  | pc => ∀ v, pc.vars = some v → v.flush_start = s.wal.buf.flush_off

/-- Appends read fields that agree, and no flush gives up bytes for want of a page. -/
def RaceOk (s : RaceSys) (a : WalAct) : Prop :=
  match a, s.sys.pc with
  | .append _ _, _ => FieldsAgree s.sys
  | .flush, .alloc v true => s.sys.staged ≠ [] ∨ v.bytes_to_flush = 0
  | _, _ => True

/-- Each record names the one before it. -/
def PrevLinked : Lsn → List WalRecHdr → Prop
  | _, [] => True
  | prev, hdr :: hdrs => hdr.prev_lsn = prev ∧ PrevLinked hdr.lsn hdrs

/-! ## Section 2: The invariant -/

/-- `tail_used` is right about the tail page. -/
structure TailAgrees (b : WalBuf) (pages : PageId → WalPage) : Prop where
  used_eq : (pages b.tail_page_id).used_bytes = b.tail_used
  used_le : b.tail_used.toNat ≤ KDS_WAL_PAGE_PAYLOAD

/-- The LSN behind the used part of the tail page and the bytes from `start` to `len`, as a number. -/
def lsnAt (b : WalBuf) (len start : Nat) : Nat :=
  b.tail_page_id.toNat * 2 ^ 32 + (b.tail_used.toNat + (len - start))

/-- The page that is taken but not the tail page yet. -/
def FlushPc.taken : FlushPc → List PageId
  | .link _ new | .tailPage _ new => [new]
  | _ => []

/-- Where the flusher stands, how far it has come in the stream `S`, and what
    the last LSN is below. -/
def OrderPc (w : WalState) (pages : PageId → WalPage) (S : List UInt8) (F : Nat) :
    FlushPc → Prop
  | .idle | .lsn => TailAgrees w.buf pages ∧ w.prev_lsn.toNat < lsnAt w.buf S.length F
  | .loop v | .seg v _ | .alloc v _ =>
      TailAgrees w.buf pages ∧ ∃ P E, Progress S F v P E ∧ w.prev_lsn.toNat < lsnAt w.buf S.length P
  | .space v frame =>
      TailAgrees w.buf pages ∧ frame = w.buf.tail_page_id ∧
        ∃ P E, Progress S F v P E ∧ w.prev_lsn.toNat < lsnAt w.buf S.length P
  | .copy v frame chunk | .copyRest v frame chunk _ | .used v frame chunk =>
      TailAgrees w.buf pages ∧ frame = w.buf.tail_page_id ∧
        w.buf.tail_used.toNat + chunk.toNat ≤ KDS_WAL_PAGE_PAYLOAD ∧
        ∃ P E, Progress S F v P E ∧ P + chunk.toNat ≤ E ∧
          w.prev_lsn.toNat < lsnAt w.buf S.length P
  | .tail v frame chunk =>
      frame = w.buf.tail_page_id ∧
        (pages frame).used_bytes.toNat = w.buf.tail_used.toNat + chunk.toNat ∧
        w.buf.tail_used.toNat + chunk.toNat ≤ KDS_WAL_PAGE_PAYLOAD ∧
        ∃ P E, Progress S F v P E ∧ P + chunk.toNat ≤ E ∧
          w.prev_lsn.toNat < lsnAt w.buf S.length P
  | .link v new | .tailPage v new =>
      TailAgrees w.buf pages ∧ (pages new).used_bytes = 0 ∧
        ∃ P E, Progress S F v P E ∧ w.prev_lsn.toNat < lsnAt w.buf S.length F
  | .tailUsed v =>
      (pages w.buf.tail_page_id).used_bytes = 0 ∧
        ∃ P E, Progress S F v P E ∧
          w.prev_lsn.toNat < w.buf.tail_page_id.toNat * 2 ^ 32
  | .advance v =>
      TailAgrees w.buf pages ∧ ∃ E, Progress S F v E E ∧ w.prev_lsn.toNat < lsnAt w.buf S.length E

/-- The page ids of the log grow and fit in 32 bits. -/
structure GrowingIds (handed : List PageId) : Prop where
  growing : handed.Pairwise (· < ·)
  small : ∀ id ∈ handed, id.toNat < 2 ^ 32

/-- The invariant of log and flusher. -/
structure LogOrder (s : WalSys) (handed : List PageId) (F : Nat) : Prop where
  ring : RingInv s.wal.buf s.appended.flatten F
  pc : OrderPc s.wal s.pages s.appended.flatten F s.pc
  order : (s.wal.buf.tail_page_id :: (s.pc.taken ++ s.staged)).Sublist handed

/-- **The invariant**. -/
structure OrderInv (s : RaceSys) : Prop where
  ids : GrowingIds s.handed
  log : ∃ F, LogOrder s.sys s.handed F
  increasing : (s.hdrs.map (·.lsn)).Pairwise (· < ·)
  linked : PrevLinked KDS_LSN_INVALID s.hdrs
  last : s.sys.wal.prev_lsn = (s.hdrs.map (·.lsn)).getLast?.getD KDS_LSN_INVALID

/-! ## Section 3: Appends -/

section steps

variable {crc32c : UInt32 → List UInt8 → UInt32} {s : WalSys} {handed : List PageId} {F : Nat}

theorem LogOrder.tail_small (h : LogOrder s handed F) (hids : GrowingIds handed) :
    s.wal.buf.tail_page_id.toNat < 2 ^ 32 :=
  hids.small _ (h.order.subset List.mem_cons_self)

/-- The number of an LSN that an append may assign. -/
theorem LogOrder.toNat_nextLsn (h : LogOrder s handed F) (hids : GrowingIds handed)
    (hused : s.wal.buf.tail_used.toNat ≤ KDS_WAL_PAGE_PAYLOAD) :
    (nextLsn s.wal.buf).toNat = lsnAt s.wal.buf s.appended.flatten.length F := by
  have hfits := h.ring.holds.fits
  simp only [KDS_WAL_PAGE_PAYLOAD, KDS_PAGE_SIZE, KDS_PAGE_HDR_SIZE, KDS_WAL_PAGE_HDR_SIZE] at hused
  simp only [KDS_WAL_BUF_SIZE] at hfits
  unfold nextLsn lsnAt
  rw [toNat_kds_lsn_make (h.tail_small hids), UInt32.toNat_add, UInt64.toNat_toUInt32,
    h.ring.used_eq]
  omega

/-- Where an append may come, the last LSN is below the one it assigns. -/
theorem OrderPc.last_lt {S : List UInt8} (h : OrderPc s.wal s.pages S F s.pc) (hagree : FieldsAgree s) :
    s.wal.prev_lsn.toNat < lsnAt s.wal.buf S.length F ∧
      s.wal.buf.tail_used.toNat ≤ KDS_WAL_PAGE_PAYLOAD := by
  -- the bytes that are only in the ring are fewer than those not released
  have hmono : ∀ {P E : Nat} {v : FlushVars}, Progress S F v P E →
      s.wal.prev_lsn.toNat < lsnAt s.wal.buf S.length P → s.wal.prev_lsn.toNat < lsnAt s.wal.buf S.length F := by
    intro P E v hp hlt
    have := hp.released_le
    unfold lsnAt at hlt ⊢
    omega
  unfold FieldsAgree at hagree
  cases hpc : s.pc with
  | idle => rw [hpc] at h; exact ⟨h.2, h.1.used_le⟩
  | lsn => rw [hpc] at h; exact ⟨h.2, h.1.used_le⟩
  | loop v =>
    rw [hpc] at h
    obtain ⟨htail, P, E, hp, hlt⟩ := h
    exact ⟨hmono hp hlt, htail.used_le⟩
  | seg v behind =>
    rw [hpc] at h
    obtain ⟨htail, P, E, hp, hlt⟩ := h
    exact ⟨hmono hp hlt, htail.used_le⟩
  | alloc v behind =>
    rw [hpc] at h
    obtain ⟨htail, P, E, hp, hlt⟩ := h
    exact ⟨hmono hp hlt, htail.used_le⟩
  | space v frame =>
    rw [hpc] at h
    obtain ⟨htail, _, P, E, hp, hlt⟩ := h
    exact ⟨hmono hp hlt, htail.used_le⟩
  | copy v frame chunk =>
    rw [hpc] at h
    obtain ⟨htail, _, _, P, E, hp, _, hlt⟩ := h
    exact ⟨hmono hp hlt, htail.used_le⟩
  | copyRest v frame chunk first =>
    rw [hpc] at h
    obtain ⟨htail, _, _, P, E, hp, _, hlt⟩ := h
    exact ⟨hmono hp hlt, htail.used_le⟩
  | used v frame chunk =>
    rw [hpc] at h
    obtain ⟨htail, _, _, P, E, hp, _, hlt⟩ := h
    exact ⟨hmono hp hlt, htail.used_le⟩
  | tail v frame chunk =>
    rw [hpc] at h
    obtain ⟨_, _, hfit, P, E, hp, _, hlt⟩ := h
    exact ⟨hmono hp hlt, by omega⟩
  | link v new =>
    rw [hpc] at h
    obtain ⟨htail, _, P, E, hp, hlt⟩ := h
    exact ⟨hlt, htail.used_le⟩
  | tailPage v new =>
    rw [hpc] at h
    obtain ⟨htail, _, P, E, hp, hlt⟩ := h
    exact ⟨hlt, htail.used_le⟩
  | tailUsed v => rw [hpc] at hagree; exact absurd hagree id
  | advance v =>
    rw [hpc] at h
    obtain ⟨htail, E, hp, hlt⟩ := h
    exact ⟨hmono hp hlt, htail.used_le⟩

/-- What an append leaves alone keeps `tail_used` right. -/
theorem TailAgrees.append (h : TailAgrees s.wal.buf s.pages) {w : WalState}
    (hpage : w.buf.tail_page_id = s.wal.buf.tail_page_id)
    (hused : w.buf.tail_used = s.wal.buf.tail_used) : TailAgrees w.buf s.pages where
  used_eq := by rw [hpage, hused]; exact h.used_eq
  used_le := by rw [hused]; exact h.used_le

/-- The record goes behind the stream and its LSN is the last one now. -/
theorem OrderPc.append {S bs : List UInt8} {w : WalState} (h : OrderPc s.wal s.pages S F s.pc)
    (hring : RingInv s.wal.buf S F) (hagree : FieldsAgree s)
    (hpage : w.buf.tail_page_id = s.wal.buf.tail_page_id)
    (hused : w.buf.tail_used = s.wal.buf.tail_used)
    (hlast : w.prev_lsn.toNat = lsnAt s.wal.buf S.length F) (hbs : 0 < bs.length) :
    OrderPc w s.pages (S ++ bs) F s.pc := by
  have hle := hring.holds.le
  have hgrow : w.prev_lsn.toNat < lsnAt w.buf (S ++ bs).length F := by
    unfold lsnAt at hlast ⊢
    rw [hlast, hpage, hused, List.length_append]
    omega
  have htail' := fun h : TailAgrees s.wal.buf s.pages => h.append hpage hused
  unfold FieldsAgree at hagree
  -- the flusher stays where it is; what it still has to copy grows at its far end
  cases hpc : s.pc with
  | idle =>
    rw [hpc] at h
    exact ⟨htail' h.1, hgrow⟩
  | lsn =>
    rw [hpc] at h
    exact ⟨htail' h.1, hgrow⟩
  | loop v =>
    rw [hpc] at h hagree
    obtain ⟨htail, P, E, hp, _⟩ := h
    obtain rfl := hp.eq_released ((hagree v rfl).trans hring.flush_off)
    exact ⟨htail' htail, P, E, hp.append, hgrow⟩
  | seg v behind =>
    rw [hpc] at h hagree
    obtain ⟨htail, P, E, hp, _⟩ := h
    obtain rfl := hp.eq_released ((hagree v rfl).trans hring.flush_off)
    exact ⟨htail' htail, P, E, hp.append, hgrow⟩
  | alloc v behind =>
    rw [hpc] at h hagree
    obtain ⟨htail, P, E, hp, _⟩ := h
    obtain rfl := hp.eq_released ((hagree v rfl).trans hring.flush_off)
    exact ⟨htail' htail, P, E, hp.append, hgrow⟩
  | space v frame =>
    rw [hpc] at h hagree
    obtain ⟨htail, hframe, P, E, hp, _⟩ := h
    obtain rfl := hp.eq_released ((hagree v rfl).trans hring.flush_off)
    exact ⟨htail' htail, hframe.trans hpage.symm, P, E, hp.append, hgrow⟩
  | copy v frame chunk =>
    rw [hpc] at h hagree
    obtain ⟨htail, hframe, hfit, P, E, hp, hE, _⟩ := h
    obtain rfl := hp.eq_released ((hagree v rfl).trans hring.flush_off)
    exact ⟨htail' htail, hframe.trans hpage.symm, by rwa [hused],
      P, E, hp.append, hE, hgrow⟩
  | copyRest v frame chunk first =>
    rw [hpc] at h hagree
    obtain ⟨htail, hframe, hfit, P, E, hp, hE, _⟩ := h
    obtain rfl := hp.eq_released ((hagree v rfl).trans hring.flush_off)
    exact ⟨htail' htail, hframe.trans hpage.symm, by rwa [hused],
      P, E, hp.append, hE, hgrow⟩
  | used v frame chunk =>
    rw [hpc] at h hagree
    obtain ⟨htail, hframe, hfit, P, E, hp, hE, _⟩ := h
    obtain rfl := hp.eq_released ((hagree v rfl).trans hring.flush_off)
    exact ⟨htail' htail, hframe.trans hpage.symm, by rwa [hused],
      P, E, hp.append, hE, hgrow⟩
  | tail v frame chunk =>
    rw [hpc] at h hagree
    obtain ⟨hframe, hchunk, hfit, P, E, hp, hE, _⟩ := h
    obtain rfl := hp.eq_released ((hagree v rfl).trans hring.flush_off)
    exact ⟨hframe.trans hpage.symm, by rwa [hused], by rwa [hused],
      P, E, hp.append, hE, hgrow⟩
  | link v new =>
    rw [hpc] at h
    obtain ⟨htail, hnew, P, E, hp, _⟩ := h
    exact ⟨htail' htail, hnew, P, E, hp.append, hgrow⟩
  | tailPage v new =>
    rw [hpc] at h
    obtain ⟨htail, hnew, P, E, hp, _⟩ := h
    exact ⟨htail' htail, hnew, P, E, hp.append, hgrow⟩
  -- `tail_page_id` is written and `tail_used` is not: `FieldsAgree` excludes this state
  | tailUsed v => rw [hpc] at hagree; exact absurd hagree id
  | advance v =>
    rw [hpc] at h hagree
    obtain ⟨htail, E, hp, _⟩ := h
    obtain rfl := hp.eq_released ((hagree v rfl).trans hring.flush_off)
    exact ⟨htail' htail, E, hp.append, hgrow⟩

theorem kds_wal_append_prev_lsn {w w' : WalState} {hdr hdr' : WalRecHdr}
    {body : Option (List UInt8)} (h : kds_wal_append crc32c w hdr body = .ok (.ok hdr', w')) :
    hdr'.lsn = nextLsn w.buf ∧ hdr'.prev_lsn = w.prev_lsn ∧ w'.prev_lsn = nextLsn w.buf := by
  obtain ⟨rfl, _, _⟩ := kds_wal_append_ok h
  unfold kds_wal_append at h
  dsimp only at h
  split at h
  · cases h
  · split at h
    · cases h
    · split at h
      · cases h
      · rw [← (Prod.mk.inj (Except.ok.inj h)).2]
        exact ⟨rfl, rfl, rfl⟩

/-- **A successful append**: its LSN is above the last one. -/
theorem LogOrder.append (h : LogOrder s handed F) (hids : GrowingIds handed)
    (hagree : FieldsAgree s) {hdr hdr' : WalRecHdr} {body : Option (List UInt8)} {w : WalState}
    (hbody : BodyOk hdr body) (hok : kds_wal_append crc32c s.wal hdr body = .ok (.ok hdr', w)) :
    LogOrder (appendStep crc32c s hdr body) handed F ∧
      (appendStep crc32c s hdr body).wal.prev_lsn = hdr'.lsn ∧
      hdr'.prev_lsn = s.wal.prev_lsn ∧ s.wal.prev_lsn.toNat < hdr'.lsn.toNat := by
  obtain ⟨hlt, hused_le⟩ := h.pc.last_lt hagree
  obtain ⟨hlsn, hprev, hlast⟩ := kds_wal_append_prev_lsn hok
  obtain ⟨hhdr, hpage, hused⟩ := kds_wal_append_ok hok
  have hnext := h.toNat_nextLsn hids hused_le
  have hstep : appendStep crc32c s hdr body =
      { s with wal := w, appended := s.appended ++ [hdr'.bytes ++ bodyBytes hdr' body] } := by
    unfold appendStep
    rw [hok]
  have hflat : (s.appended ++ [hdr'.bytes ++ bodyBytes hdr' body]).flatten =
      s.appended.flatten ++ (hdr'.bytes ++ bodyBytes hdr' body) := by simp
  have hring : RingInv w.buf (s.appended.flatten ++ (hdr'.bytes ++ bodyBytes hdr' body)) F := by
    rcases kds_wal_append_cases crc32c hbody h.ring with ⟨e, he⟩ | ⟨w', hw, hring, _⟩
    · rw [hok] at he
      cases (Prod.mk.inj (Except.ok.inj he)).1
    · rw [hok] at hw
      rw [(Prod.mk.inj (Except.ok.inj hw)).2, hhdr]
      exact hring
  rw [hstep]
  refine ⟨⟨?_, ?_, ?_⟩, hlast.trans hlsn.symm, hprev, ?_⟩
  · dsimp only
    rw [hflat]
    exact hring
  · dsimp only
    rw [hflat]
    have hbs : 0 < (hdr'.bytes ++ bodyBytes hdr' body).length := by
      rw [List.length_append, WalRecHdr.length_bytes]
      exact Nat.lt_of_lt_of_le (by decide) (Nat.le_add_right _ _)
    exact h.pc.append h.ring hagree hpage hused ((congrArg UInt64.toNat hlast).trans hnext) hbs
  · dsimp only
    rw [hpage]
    exact h.order
  · rw [hlsn, hnext]
    exact hlt

/-! ## Section 4: The flusher -/

/-- A step that moves neither offsets nor tail page nor pages in stock. -/
theorem LogOrder.same (h : LogOrder s handed F) {s' : WalSys} (hwal : s'.wal = s.wal)
    (hrecords : s'.appended = s.appended) (hstaged : s'.staged = s.staged)
    (htaken : s'.pc.taken = s.pc.taken) (hpc : OrderPc s'.wal s'.pages s.appended.flatten F s'.pc) :
    LogOrder s' handed F where
  ring := by rw [hwal, hrecords]; exact h.ring
  pc := by rw [hrecords]; exact hpc
  order := by rw [hwal, hstaged, htaken]; exact h.order

theorem TailAgrees.setPage (h : TailAgrees s.wal.buf s.pages) {frame : PageId} {page : WalPage}
    (hused : page.used_bytes = (s.pages frame).used_bytes) :
    TailAgrees s.wal.buf (s.setPage frame page).pages where
  used_eq := (used_update hused _).trans h.used_eq
  used_le := h.used_le

/-- A chunk of what is left that fits the page. -/
theorem chunk_le {S : List UInt8} {v : FlushVars} {P E : Nat} (hp : Progress S F v P E)
    {used : UInt32} (hused : used.toNat ≤ KDS_WAL_PAGE_PAYLOAD) {chunk : UInt32}
    (hchunk : chunk =
      (min v.bytes_to_flush (UInt32.ofNat KDS_WAL_PAGE_PAYLOAD - used).toUInt64).toUInt32) :
    used.toNat + chunk.toNat ≤ KDS_WAL_PAGE_PAYLOAD ∧ P + chunk.toNat ≤ E := by
  have hmin := chunk_toNat v.bytes_to_flush hused
  have hbytes := hp.bytes_eq
  have hle := hp.le_end
  rw [hchunk, hmin]
  omega

theorem Progress.chunk {S : List UInt8} {v : FlushVars} {P E : Nat} {chunk : UInt32}
    (hp : Progress S F v P E) (hE : P + chunk.toNat ≤ E) :
    Progress S F
      { v with
        flush_start := v.flush_start + chunk.toUInt64
        bytes_to_flush := v.bytes_to_flush - chunk.toUInt64 } (P + chunk.toNat) E where
  released_le := Nat.le_trans hp.released_le (Nat.le_add_right _ _)
  le_end := hE
  end_le := hp.end_le
  fits := hp.fits
  start_eq := by
    rw [hp.start_eq, UInt64.ofNat_add]
    apply UInt64.toNat_inj.mp
    simp
  end_eq := hp.end_eq
  bytes_eq := by
    have hbytes := hp.bytes_eq
    rw [UInt64.toNat_sub_of_le, UInt32.toNat_toUInt64, hbytes]
    · omega
    · rw [UInt64.le_iff_toNat_le, UInt32.toNat_toUInt64, hbytes]
      omega

theorem LogOrder.idle_step (h : LogOrder s handed F) (hpc : s.pc = .idle) :
    LogOrder (flushStep s) handed F := by
  have hinv := h.pc
  rw [hpc] at hinv
  have htaken : s.pc.taken = [] := by rw [hpc]; rfl
  simp only [flushStep, hpc]
  split
  · exact h
  · -- the flush starts where the ring is released and goes to its end
    have hp : Progress s.appended.flatten F
        ⟨s.wal.buf.flush_off, s.wal.buf.write_off, s.wal.buf.write_off - s.wal.buf.flush_off⟩ F
        s.appended.flatten.length :=
      ⟨Nat.le_refl F, h.ring.holds.le, Nat.le_refl _, h.ring.holds.fits, h.ring.flush_off,
        h.ring.write_off, h.ring.used_eq⟩
    exact h.same rfl rfl rfl htaken.symm ⟨hinv.1, F, _, hp, hinv.2⟩

theorem LogOrder.loop_step (h : LogOrder s handed F) {v : FlushVars} (hpc : s.pc = .loop v) :
    LogOrder (flushStep s) handed F := by
  have hinv := h.pc
  rw [hpc] at hinv
  obtain ⟨htail, P, E, hp, hlt⟩ := hinv
  have htaken : s.pc.taken = [] := by rw [hpc]; rfl
  simp only [flushStep, hpc]
  by_cases hmore : v.bytes_to_flush > 0
  · rw [if_pos hmore]
    exact h.same rfl rfl rfl htaken.symm ⟨htail, rfl, P, E, hp, hlt⟩
  · rw [if_neg hmore]
    have hPE : P = E := by
      have h0 : ¬ 0 < v.bytes_to_flush.toNat := fun h => hmore (UInt64.lt_iff_toNat_lt.mpr h)
      have := hp.bytes_eq
      have := hp.le_end
      omega
    subst hPE
    exact h.same rfl rfl rfl htaken.symm ⟨htail, P, hp, hlt⟩

theorem LogOrder.space_step (h : LogOrder s handed F) {v : FlushVars} {frame : PageId}
    (hpc : s.pc = .space v frame) : LogOrder (flushStep s) handed F := by
  have hinv := h.pc
  rw [hpc] at hinv
  obtain ⟨htail, rfl, P, E, hp, hlt⟩ := hinv
  have htaken : s.pc.taken = [] := by rw [hpc]; rfl
  have hused := congrArg UInt32.toNat htail.used_eq
  have hle : (s.pages s.wal.buf.tail_page_id).used_bytes.toNat ≤ KDS_WAL_PAGE_PAYLOAD := by
    rw [hused]
    exact htail.used_le
  obtain ⟨hfit, hE⟩ := chunk_le hp hle rfl
  rw [hused] at hfit
  simp only [flushStep, hpc]
  split
  · exact h.same rfl rfl rfl htaken.symm ⟨htail, P, E, hp, hlt⟩
  · exact h.same rfl rfl rfl htaken.symm
      ⟨htail, rfl, hfit, P, E, hp, hE, hlt⟩

theorem LogOrder.copy_step (h : LogOrder s handed F) {v : FlushVars} {frame : PageId}
    {chunk : UInt32} (hpc : s.pc = .copy v frame chunk) : LogOrder (flushStep s) handed F := by
  have hinv := h.pc
  rw [hpc] at hinv
  obtain ⟨htail, rfl, hfit, P, E, hp, hE, hlt⟩ := hinv
  have htaken : s.pc.taken = [] := by rw [hpc]; rfl
  simp only [flushStep, hpc]
  split
  · exact h.same rfl rfl rfl htaken.symm ⟨htail.setPage rfl, rfl, hfit, P, E, hp, hE, hlt⟩
  · exact h.same rfl rfl rfl htaken.symm ⟨htail.setPage rfl, rfl, hfit, P, E, hp, hE, hlt⟩

theorem LogOrder.copyRest_step (h : LogOrder s handed F) {v : FlushVars} {frame : PageId}
    {chunk first : UInt32} (hpc : s.pc = .copyRest v frame chunk first) :
    LogOrder (flushStep s) handed F := by
  have hinv := h.pc
  rw [hpc] at hinv
  obtain ⟨htail, rfl, hfit, P, E, hp, hE, hlt⟩ := hinv
  have htaken : s.pc.taken = [] := by rw [hpc]; rfl
  simp only [flushStep, hpc]
  exact h.same rfl rfl rfl htaken.symm ⟨htail.setPage rfl, rfl, hfit, P, E, hp, hE, hlt⟩

theorem LogOrder.used_step (h : LogOrder s handed F) {v : FlushVars} {frame : PageId}
    {chunk : UInt32} (hpc : s.pc = .used v frame chunk) : LogOrder (flushStep s) handed F := by
  have hinv := h.pc
  rw [hpc] at hinv
  obtain ⟨htail, rfl, hfit, P, E, hp, hE, hlt⟩ := hinv
  have htaken : s.pc.taken = [] := by rw [hpc]; rfl
  have hsum : ((s.pages s.wal.buf.tail_page_id).used_bytes + chunk).toNat =
      s.wal.buf.tail_used.toNat + chunk.toNat := by
    rw [htail.used_eq, UInt32.toNat_add]
    simp at hfit
    omega
  simp only [flushStep, hpc]
  refine h.same rfl rfl rfl htaken.symm ⟨rfl, ?_, hfit, P, E, hp, hE, hlt⟩
  simp only [WalSys.setPage, Function.update_self]
  exact hsum

/-- `tail_used` takes over what `flush_start` passes: the sum stays. -/
theorem LogOrder.tail_step (h : LogOrder s handed F) {v : FlushVars} {frame : PageId}
    {chunk : UInt32} (hpc : s.pc = .tail v frame chunk) : LogOrder (flushStep s) handed F := by
  have hinv := h.pc
  rw [hpc] at hinv
  obtain ⟨rfl, hused, hfit, P, E, hp, hE, hlt⟩ := hinv
  have hlen := hp.end_le
  have hring : RingInv
      { s.wal.buf with tail_used := (s.pages s.wal.buf.tail_page_id).used_bytes }
      s.appended.flatten F := ⟨h.ring.write_off, h.ring.flush_off, h.ring.holds⟩
  have horder := h.order
  rw [hpc] at horder
  have hsum : s.wal.prev_lsn.toNat < s.wal.buf.tail_page_id.toNat * 2 ^ 32 +
      ((s.pages s.wal.buf.tail_page_id).used_bytes.toNat +
        (s.appended.flatten.length - (P + chunk.toNat))) := by
    unfold lsnAt at hlt
    omega
  simp only [flushStep, hpc]
  split
  · exact ⟨hring, ⟨⟨rfl, by rw [← hused] at hfit; exact hfit⟩, _, E, hp.chunk hE, hsum⟩, horder⟩
  · exact ⟨hring, ⟨⟨rfl, by rw [← hused] at hfit; exact hfit⟩, _, E, hp.chunk hE, hsum⟩, horder⟩

theorem LogOrder.seg_step (h : LogOrder s handed F) {v : FlushVars} {behind : Bool}
    (hpc : s.pc = .seg v behind) : LogOrder (flushStep s) handed F := by
  have hinv := h.pc
  have horder := h.order
  rw [hpc] at hinv horder
  obtain ⟨htail, P, E, hp, hlt⟩ := hinv
  simp only [flushStep, hpc]
  exact ⟨⟨h.ring.write_off, h.ring.flush_off, h.ring.holds⟩,
    ⟨⟨htail.used_eq, htail.used_le⟩, P, E, hp, hlt⟩, horder⟩

theorem lsnAt_mono {len P : Nat} (hle : F ≤ P) {n : Nat} (hlt : n < lsnAt s.wal.buf len P) :
    n < lsnAt s.wal.buf len F := by
  unfold lsnAt at hlt ⊢
  omega

theorem LogOrder.alloc_step (h : LogOrder s handed F) (hids : GrowingIds handed) {v : FlushVars}
    {behind : Bool} (hpc : s.pc = .alloc v behind)
    (hok : behind = true → s.staged ≠ [] ∨ v.bytes_to_flush = 0) :
    LogOrder (flushStep s) handed F := by
  have hinv := h.pc
  have horder := h.order
  rw [hpc] at hinv horder
  obtain ⟨htail, P, E, hp, hlt⟩ := hinv
  have htaken : s.pc.taken = [] := by rw [hpc]; rfl
  have hltF := lsnAt_mono hp.released_le hlt
  cases hstaged : s.staged with
  | nil =>
    simp only [flushStep, hpc, hstaged]
    split
    · next hbehind =>
      -- nothing is left to copy, so the flush is complete
      have hPE : P = E := by
        have hzero := (hok hbehind).resolve_left (by simp [hstaged])
        have hbytes := hp.bytes_eq
        rw [hzero] at hbytes
        have := hp.le_end
        simp only [UInt64.reduceToNat] at hbytes
        omega
      subst hPE
      exact h.same rfl rfl hstaged.symm htaken.symm ⟨htail, P, hp, hlt⟩
    · exact h.same rfl rfl hstaged.symm htaken.symm ⟨htail, hltF⟩
  | cons new rest =>
    rw [hstaged] at horder
    have hne : s.wal.buf.tail_page_id ≠ new := by
      have hpair := hids.growing.sublist horder
      have hlt := (List.pairwise_cons.mp hpair).1 new (by simp [FlushPc.taken])
      exact UInt64.ne_of_lt hlt
    simp only [flushStep, hpc, hstaged]
    refine ⟨h.ring, ⟨⟨?_, htail.used_le⟩, ?_, P, E, hp, hltF⟩, horder⟩
    · simp only [WalSys.setPage, Function.update_of_ne hne]
      exact htail.used_eq
    · simp only [WalSys.setPage, Function.update_self]
      rfl

theorem LogOrder.link_step (h : LogOrder s handed F) {v : FlushVars} {new : PageId}
    (hpc : s.pc = .link v new) : LogOrder (flushStep s) handed F := by
  have hinv := h.pc
  rw [hpc] at hinv
  obtain ⟨htail, hnew, P, E, hp, hlt⟩ := hinv
  have htaken : s.pc.taken = [new] := by rw [hpc]; rfl
  simp only [flushStep, hpc]
  refine h.same rfl rfl rfl htaken.symm ⟨htail.setPage rfl, ?_, P, E, hp, hlt⟩
  refine Eq.trans ?_ hnew
  apply used_update
  rfl

theorem below_next_page {p q off : Nat} (hpq : p < q) (hoff : off < 2 ^ 32) :
    p * 2 ^ 32 + off < q * 2 ^ 32 := by
  omega

/-- All LSNs so far name an earlier page than the new one. -/
theorem LogOrder.tailPage_step (h : LogOrder s handed F) (hids : GrowingIds handed) {v : FlushVars}
    {new : PageId} (hpc : s.pc = .tailPage v new) : LogOrder (flushStep s) handed F := by
  have hinv := h.pc
  have horder := h.order
  rw [hpc] at hinv horder
  obtain ⟨htail, hnew, P, E, hp, hlt⟩ := hinv
  have habove : s.wal.buf.tail_page_id.toNat < new.toNat := by
    have hpair := hids.growing.sublist horder
    exact UInt64.lt_iff_toNat_lt.mp
      ((List.pairwise_cons.mp hpair).1 new (by simp [FlushPc.taken]))
  have hbound : s.wal.prev_lsn.toNat < new.toNat * 2 ^ 32 := by
    have hused := htail.used_le
    have hfits := h.ring.holds.fits
    simp only [KDS_WAL_PAGE_PAYLOAD, KDS_PAGE_SIZE, KDS_PAGE_HDR_SIZE, KDS_WAL_PAGE_HDR_SIZE] at hused
    simp only [KDS_WAL_BUF_SIZE] at hfits
    exact Nat.lt_trans hlt (below_next_page habove (by omega))
  simp only [flushStep, hpc]
  exact ⟨⟨h.ring.write_off, h.ring.flush_off, h.ring.holds⟩, ⟨hnew, P, E, hp, hbound⟩,
    (List.sublist_cons_self _ _).trans horder⟩

theorem LogOrder.tailUsed_step (h : LogOrder s handed F) {v : FlushVars}
    (hpc : s.pc = .tailUsed v) : LogOrder (flushStep s) handed F := by
  have hinv := h.pc
  have horder := h.order
  rw [hpc] at hinv horder
  obtain ⟨hzero, P, E, hp, hlt⟩ := hinv
  simp only [flushStep, hpc]
  exact ⟨⟨h.ring.write_off, h.ring.flush_off, h.ring.holds⟩,
    ⟨⟨hzero, Nat.zero_le _⟩, P, E, hp, Nat.lt_of_lt_of_le hlt (Nat.le_add_right _ _)⟩, horder⟩

/-- The ring is released up to where the copy has come. -/
theorem LogOrder.advance_step (h : LogOrder s handed F) {v : FlushVars}
    (hpc : s.pc = .advance v) : ∃ F', LogOrder (flushStep s) handed F' := by
  have hinv := h.pc
  have horder := h.order
  rw [hpc] at hinv horder
  obtain ⟨htail, E, hp, hlt⟩ := hinv
  simp only [flushStep, hpc]
  exact ⟨E, ⟨h.ring.write_off, hp.end_eq, h.ring.holds.release hp.released_le hp.end_le⟩,
    ⟨⟨htail.used_eq, htail.used_le⟩, hlt⟩, horder⟩

theorem LogOrder.lsn_step (h : LogOrder s handed F) (hpc : s.pc = .lsn) :
    LogOrder (flushStep s) handed F := by
  have hinv := h.pc
  have horder := h.order
  rw [hpc] at hinv horder
  simp only [flushStep, hpc]
  exact ⟨h.ring, ⟨hinv.1, hinv.2⟩, horder⟩

/-- **A step of the flusher**. -/
theorem LogOrder.flush (h : LogOrder s handed F) (hids : GrowingIds handed)
    (hok : ∀ v, s.pc = .alloc v true → s.staged ≠ [] ∨ v.bytes_to_flush = 0) :
    ∃ F', LogOrder (flushStep s) handed F' := by
  cases hpc : s.pc with
  | idle => exact ⟨F, h.idle_step hpc⟩
  | loop v => exact ⟨F, h.loop_step hpc⟩
  | space v frame => exact ⟨F, h.space_step hpc⟩
  | copy v frame chunk => exact ⟨F, h.copy_step hpc⟩
  | copyRest v frame chunk first => exact ⟨F, h.copyRest_step hpc⟩
  | used v frame chunk => exact ⟨F, h.used_step hpc⟩
  | tail v frame chunk => exact ⟨F, h.tail_step hpc⟩
  | seg v behind => exact ⟨F, h.seg_step hpc⟩
  | alloc v behind =>
    refine ⟨F, h.alloc_step hids hpc ?_⟩
    rintro rfl
    exact hok v hpc
  | link v new => exact ⟨F, h.link_step hpc⟩
  | tailPage v new => exact ⟨F, h.tailPage_step hids hpc⟩
  | tailUsed v => exact ⟨F, h.tailUsed_step hpc⟩
  | advance v => exact h.advance_step hpc
  | lsn => exact ⟨F, h.lsn_step hpc⟩

/-! ## Section 5: Runs -/

theorem flushStep_prev_lsn (s : WalSys) : (flushStep s).wal.prev_lsn = s.wal.prev_lsn := by
  unfold flushStep
  cases s.pc <;> dsimp only [WalSys.setPage, WalSys.setBuf] <;> (repeat' split) <;> rfl

theorem PrevLinked.snoc {hdr : WalRecHdr} : ∀ {hdrs : List WalRecHdr} {prev : Lsn},
    PrevLinked prev hdrs → hdr.prev_lsn = (hdrs.map (·.lsn)).getLast?.getD prev →
      PrevLinked prev (hdrs ++ [hdr]) := by
  intro hdrs
  induction hdrs with
  | nil => exact fun _ heq => ⟨heq, trivial⟩
  | cons h hdrs ih =>
    intro prev hlinked heq
    refine ⟨hlinked.1, ih hlinked.2 ?_⟩
    rw [heq, List.map_cons, List.getLast?_cons]
    rfl

/-- The last of increasing LSNs is the greatest. -/
theorem le_last {lsns : List Lsn} (h : lsns.Pairwise (· < ·)) {a : Lsn} (ha : a ∈ lsns) :
    a ≤ lsns.getLast?.getD KDS_LSN_INVALID := by
  have hne : lsns ≠ [] := List.ne_nil_of_mem ha
  rw [List.getLast?_eq_some_getLast hne, Option.getD_some]
  rw [← List.dropLast_append_getLast hne] at h ha
  rcases List.mem_append.mp ha with ha | ha
  · exact UInt64.le_of_lt ((List.pairwise_append.mp h).2.2 a ha _ (List.mem_singleton.mpr rfl))
  · exact UInt64.le_of_eq (List.mem_singleton.mp ha)

theorem OrderInv.append {s : RaceSys} (h : OrderInv s) (hagree : FieldsAgree s.sys)
    {hdr hdr' : WalRecHdr} {body : Option (List UInt8)} {w : WalState} (hbody : BodyOk hdr body)
    (hok : kds_wal_append crc32c s.sys.wal hdr body = .ok (.ok hdr', w)) :
    OrderInv { s with sys := appendStep crc32c s.sys hdr body, hdrs := s.hdrs ++ [hdr'] } := by
  obtain ⟨F, hlog⟩ := h.log
  obtain ⟨hlog', hlast, hprev, hlt⟩ := hlog.append h.ids hagree hbody hok
  refine ⟨h.ids, ⟨F, hlog'⟩, ?_, h.linked.snoc (hprev.trans h.last), ?_⟩
  · dsimp only
    rw [List.map_append]
    apply List.pairwise_append.mpr
    refine ⟨h.increasing, List.pairwise_singleton _ _, ?_⟩
    intro a ha b hb
    have hle := le_last h.increasing ha
    rw [← h.last] at hle
    rw [List.mem_singleton.mp hb]
    exact UInt64.lt_of_le_of_lt hle (UInt64.lt_iff_toNat_lt.mpr hlt)
  · dsimp only
    rw [hlast, List.map_append]
    simp

theorem LogOrder.stage (h : LogOrder s handed F) (id : PageId) :
    LogOrder { s with staged := s.staged ++ [id], cached := id :: s.cached } (handed ++ [id]) F where
  ring := h.ring
  pc := by
    have hpc := h.pc
    dsimp only
    cases hp : s.pc with
    | _ => rw [hp] at hpc; exact hpc
  order := by
    have happ := h.order.append (List.Sublist.refl [id])
    rwa [List.cons_append, List.append_assoc] at happ

/-- **Step lemma**. -/
theorem OrderInv.step {s s' : RaceSys} {a : WalAct} (h : OrderInv s)
    (hstep : RaceStep crc32c s a s') (hok : RaceOk s a) : OrderInv s' := by
  cases hstep with
  | append hbody happ => exact h.append hok hbody happ
  | @appendFails hdr body e w hbody happ =>
    have hsame : appendStep crc32c s.sys hdr body = s.sys := by
      unfold appendStep
      rw [happ, kds_wal_append_fails happ]
    rw [hsame]
    exact h
  | flush =>
    obtain ⟨F, hlog⟩ := h.log
    obtain ⟨F', hlog'⟩ := hlog.flush h.ids (by
      intro v hpc
      simpa only [RaceOk, hpc] using hok)
    exact ⟨h.ids, ⟨F', hlog'⟩, h.increasing, h.linked, (flushStep_prev_lsn s.sys).trans h.last⟩
  | @stage id hid h0 habove hsmall =>
    obtain ⟨F, hlog⟩ := h.log
    refine ⟨⟨?_, ?_⟩, ⟨F, hlog.stage id⟩, h.increasing, h.linked, h.last⟩
    · apply List.pairwise_append.mpr
      refine ⟨h.ids.growing, List.pairwise_singleton _ _, ?_⟩
      intro j hj k hk
      rw [List.mem_singleton.mp hk]
      exact habove j hj
    · intro j hj
      rcases List.mem_append.mp hj with hj | hj
      · exact h.ids.small j hj
      · rw [List.mem_singleton.mp hj]
        exact hsmall

theorem orderInv_init {s : RaceSys} (h : RaceInit s) : OrderInv s := by
  obtain ⟨cached, hst, hs⟩ := h.start
  cases hhanded : s.handed with
  | nil =>
    rw [hhanded] at hs
    simp [kds_wal_init] at hs
  | cons first staged =>
    rw [hhanded] at hs hst
    simp only [kds_wal_init, Option.some.injEq] at hs
    have hfirst : 0 < first.toNat := by
      apply Nat.pos_of_ne_zero
      intro hzero
      have : first = 0 := UInt64.toNat_inj.mp hzero
      exact hst.nonzero (this ▸ List.mem_cons_self)
    refine ⟨⟨h.growing, h.small⟩, ⟨0, ?_⟩, ?_, ?_, ?_⟩
    · rw [← hs, hhanded]
      refine ⟨⟨rfl, rfl, ?_⟩, ⟨⟨rfl, Nat.zero_le _⟩, ?_⟩, List.Sublist.refl _⟩
      · exact ⟨Nat.zero_le _, by simp, fun i hi _ => absurd hi (by simp)⟩
      · unfold lsnAt
        dsimp only
        simp only [KDS_LSN_INVALID, UInt64.reduceToNat]
        omega
    · rw [h.no_records]
      exact List.Pairwise.nil
    · rw [h.no_records]
      trivial
    · rw [h.no_records, ← hs]
      rfl

/-- **LSNs grow in append order**, and each record names the one before it,
    in every run where appends read fields that agree and no flush gives up
    bytes for want of a page. -/
theorem lsn_order {s : RaceSys} (h : ((raceSystem crc32c).restrict RaceOk).Reachable s) :
    (s.hdrs.map (·.lsn)).Pairwise (· < ·) ∧ PrevLinked KDS_LSN_INVALID s.hdrs := by
  have hinv : OrderInv s := by
    apply h.invariant OrderInv
    · exact fun s hinit => orderInv_init hinit
    · rintro s a s' hinv ⟨hstep, hok⟩
      exact hinv.step hstep hok
  exact ⟨hinv.increasing, hinv.linked⟩

end steps

/-! ## Section 6: Appends next to a flush -/

/-- Between two flushes the fields agree. -/
theorem fieldsAgree_idle {s : WalSys} (h : s.pc = .idle) : FieldsAgree s := by
  unfold FieldsAgree
  rw [h]
  exact nofun

/-- An append that fits succeeds. -/
theorem race_append {s : RaceSys} {hdr : WalRecHdr} {body : Option (List UInt8)}
    (hbody : BodyOk hdr body)
    (hroom : (UInt32.ofNat KDS_WAL_REC_HDR_SIZE + hdr.body_len).toNat ≤
      (wal_buf_free s.sys.wal.buf).toNat) :
    RaceStep crc32c_le s (.append hdr body)
      { s with
        sys := appendStep crc32c_le s.sys hdr body
        hdrs := s.hdrs ++ [fillHdr crc32c_le s.sys.wal hdr body] } := by
  obtain ⟨w, hok⟩ : ∃ w, kds_wal_append crc32c_le s.sys.wal hdr body =
      .ok (.ok (fillHdr crc32c_le s.sys.wal hdr body), w) :=
    kds_wal_append_of_room hbody.1 hroom
  exact .append hbody hok

/-- It is allowed where the fields agree. -/
theorem race_ok_append {s : RaceSys} {hdr : WalRecHdr} {body : Option (List UInt8)}
    (h : ((raceSystem crc32c_le).restrict RaceOk).Reachable s) (hbody : BodyOk hdr body)
    (hroom : (UInt32.ofNat KDS_WAL_REC_HDR_SIZE + hdr.body_len).toNat ≤
      (wal_buf_free s.sys.wal.buf).toNat) (hagree : FieldsAgree s.sys) :
    ((raceSystem crc32c_le).restrict RaceOk).Reachable
      { s with
        sys := appendStep crc32c_le s.sys hdr body
        hdrs := s.hdrs ++ [fillHdr crc32c_le s.sys.wal hdr body] } :=
  h.step (.append hdr body) ⟨race_append hbody hroom, hagree⟩

theorem race_ok_append_idle {s : RaceSys} {hdr : WalRecHdr} {body : Option (List UInt8)}
    (h : ((raceSystem crc32c_le).restrict RaceOk).Reachable s) (hbody : BodyOk hdr body)
    (hroom : (UInt32.ofNat KDS_WAL_REC_HDR_SIZE + hdr.body_len).toNat ≤
      (wal_buf_free s.sys.wal.buf).toNat) (hidle : s.sys.pc = .idle) :
    ((raceSystem crc32c_le).restrict RaceOk).Reachable
      { s with
        sys := appendStep crc32c_le s.sys hdr body
        hdrs := s.hdrs ++ [fillHdr crc32c_le s.sys.wal hdr body] } :=
  race_ok_append h hbody hroom (fieldsAgree_idle hidle)

/-- So is one where the flusher is about to leave the tail page. -/
theorem race_ok_append_link {s : RaceSys} {hdr : WalRecHdr} {body : Option (List UInt8)}
    {v : FlushVars} {new : PageId} (h : ((raceSystem crc32c_le).restrict RaceOk).Reachable s)
    (hbody : BodyOk hdr body)
    (hroom : (UInt32.ofNat KDS_WAL_REC_HDR_SIZE + hdr.body_len).toNat ≤
      (wal_buf_free s.sys.wal.buf).toNat) (hlink : s.sys.pc = .link v new) :
    ((raceSystem crc32c_le).restrict RaceOk).Reachable
      { s with
        sys := appendStep crc32c_le s.sys hdr body
        hdrs := s.hdrs ++ [fillHdr crc32c_le s.sys.wal hdr body] } := by
  have hagree : FieldsAgree s.sys := by
    unfold FieldsAgree
    rw [hlink]
    trivial
  exact race_ok_append h hbody hroom hagree

theorem commit_bodyOk : BodyOk commitRecord none := ⟨by decide, rfl⟩

theorem newLog_race_reachable :
    ((raceSystem crc32c_le).restrict RaceOk).Reachable ⟨newLog, [], walIds⟩ := by
  refine .init ⟨⟨walIds, ⟨by decide, by decide, fun _ h => h⟩, rfl⟩, ?_, ?_, rfl⟩
  · decide
  · decide

theorem race_ok_flushSteps {crc32c : UInt32 → List UInt8 → UInt32} (n : Nat) :
    ∀ {s : RaceSys}, ((raceSystem crc32c).restrict RaceOk).Reachable s → n ≤ s.sys.staged.length →
      ((raceSystem crc32c).restrict RaceOk).Reachable { s with sys := flushSteps n s.sys } := by
  induction n with
  | zero => exact fun h _ => h
  | succ n ih =>
    intro s h hlen
    have hok : RaceOk s .flush := by
      unfold RaceOk
      split
      · contradiction
      · refine Or.inl fun hnil => ?_
        simp [hnil] at hlen
      · trivial
    have hstaged := flushStep_staged s.sys
    exact ih (h.step .flush ⟨.flush, hok⟩) (by dsimp only; omega)

/-- The page record is in the ring. -/
def pageAppended : RaceSys where
  sys := appendStep crc32c_le newLog pageRecord pageBody
  hdrs := [fillHdr crc32c_le newLog.wal pageRecord pageBody]
  handed := walIds

/-- A flush has filled the first page and taken the second one. -/
def pageTaken : RaceSys := { pageAppended with sys := flushSteps 8 pageAppended.sys }

/-- A COMMIT record is appended now. -/
def commitWithin : RaceSys :=
  { pageTaken with
    sys := appendStep crc32c_le pageTaken.sys commitRecord none
    hdrs := pageTaken.hdrs ++ [fillHdr crc32c_le pageTaken.sys.wal commitRecord none] }

/-- The flush ends on the second page. -/
def flushOverEnd : RaceSys := { commitWithin with sys := flushSteps 11 commitWithin.sys }

/-- Another COMMIT record is appended behind it. -/
def commitBehind : RaceSys :=
  { flushOverEnd with
    sys := appendStep crc32c_le flushOverEnd.sys commitRecord none
    hdrs := flushOverEnd.hdrs ++ [fillHdr crc32c_le flushOverEnd.sys.wal commitRecord none] }

theorem pageTaken_link : ∃ v, pageTaken.sys.pc = .link v 130 := by
  have hlink : (match pageTaken.sys.pc with
      | .link _ new => some new
      | _ => none) = some 130 := by decide +kernel
  generalize pageTaken.sys.pc = pc at hlink
  cases pc with
  | link v new =>
    obtain rfl := Option.some.inj hlink
    exact ⟨v, rfl⟩
  | _ => cases hlink

theorem commitBehind_reachable : ((raceSystem crc32c_le).restrict RaceOk).Reachable commitBehind := by
  have hbody : BodyOk pageRecord pageBody := by
    refine ⟨by decide, ?_⟩
    show 8192 ≤ pageBytes.length
    exact Nat.le_of_eq length_pageBytes.symm
  have hpages : pageAppended.sys.staged.length = 23 ∧ commitWithin.sys.staged.length = 22 := by
    decide +kernel
  have hdone : flushOverEnd.sys.pc = .idle := FlushPc.eq_idle (by decide +kernel)
  have hrecord : ((raceSystem crc32c_le).restrict RaceOk).Reachable pageAppended :=
    newLog_race_reachable.step (.append pageRecord pageBody)
      ⟨race_append hbody (by decide +kernel), @fieldsAgree_idle newLog rfl⟩
  have htaken : ((raceSystem crc32c_le).restrict RaceOk).Reachable pageTaken :=
    @race_ok_flushSteps crc32c_le 8 pageAppended hrecord (by omega)
  obtain ⟨v, hlink⟩ := pageTaken_link
  have hcommit : ((raceSystem crc32c_le).restrict RaceOk).Reachable commitWithin :=
    @race_ok_append_link pageTaken _ _ _ _ htaken commit_bodyOk (by decide +kernel) hlink
  have hover : ((raceSystem crc32c_le).restrict RaceOk).Reachable flushOverEnd :=
    @race_ok_flushSteps crc32c_le 11 commitWithin hcommit (by omega)
  exact @race_ok_append_idle flushOverEnd _ _ hover commit_bodyOk (by decide +kernel) hdone

/-- The LSNs grow over the end of the page. -/
theorem lsn_order_over_page_end :
    commitBehind.hdrs.map (·.lsn) =
        [kds_lsn_make 129 0, kds_lsn_make 129 16347, kds_lsn_make 130 145] ∧
      (commitBehind.hdrs.map (·.lsn)).Pairwise (· < ·) ∧
      PrevLinked KDS_LSN_INVALID commitBehind.hdrs := by
  constructor
  · decide +kernel
  · exact lsn_order commitBehind_reachable

/-! ### An append between `tail_used` and `flush_off` -/

/-- A new log and two COMMIT records. -/
def twoCommits : RaceSys where
  sys := appendStep crc32c_le (appendStep crc32c_le newLog commitRecord none) commitRecord none
  hdrs :=
    [fillHdr crc32c_le newLog.wal commitRecord none,
      fillHdr crc32c_le (appendStep crc32c_le newLog commitRecord none).wal commitRecord none]
  handed := walIds

/-- A flush has copied both and counted them in `tail_used`. -/
def midFlush : RaceSys := { twoCommits with sys := flushSteps 6 twoCommits.sys }

/-- A third record is appended then. -/
def midFlushAppend : RaceSys :=
  { midFlush with
    sys := appendStep crc32c_le midFlush.sys commitRecord none
    hdrs := midFlush.hdrs ++ [fillHdr crc32c_le midFlush.sys.wal commitRecord none] }

/-- The flush ends. -/
def flushDone : RaceSys := { midFlushAppend with sys := flushSteps 3 midFlushAppend.sys }

/-- A fourth record is appended. -/
def lateAppend : RaceSys :=
  { flushDone with
    sys := appendStep crc32c_le flushDone.sys commitRecord none
    hdrs := flushDone.hdrs ++ [fillHdr crc32c_le flushDone.sys.wal commitRecord none] }

theorem race_flushSteps {crc32c : UInt32 → List UInt8 → UInt32} (n : Nat) :
    ∀ {s : RaceSys}, (raceSystem crc32c).Reachable s →
      (raceSystem crc32c).Reachable { s with sys := flushSteps n s.sys } := by
  induction n with
  | zero => exact fun h => h
  | succ n ih => exact fun h => ih (h.step .flush .flush)

theorem twoCommits_reachable : (raceSystem crc32c_le).Reachable twoCommits := by
  have hone := newLog_race_reachable.of_restrict.step _ (race_append commit_bodyOk (by decide +kernel))
  exact hone.step _ (race_append commit_bodyOk (by decide +kernel))

theorem lateAppend_reachable : (raceSystem crc32c_le).Reachable lateAppend := by
  have hmid := race_flushSteps 6 twoCommits_reachable
  have hthird : (raceSystem crc32c_le).Reachable midFlushAppend :=
    hmid.step (.append commitRecord none) (race_append commit_bodyOk (by decide +kernel))
  have hdone := race_flushSteps 3 hthird
  exact hdone.step (.append commitRecord none) (race_append commit_bodyOk (by decide +kernel))

/-- The record appended in the middle of the flush gets offset 144, the next one 108. -/
theorem lsn_goes_back :
    (raceSystem crc32c_le).Reachable lateAppend ∧
      lateAppend.hdrs.map (·.lsn) =
        [kds_lsn_make 129 0, kds_lsn_make 129 36, kds_lsn_make 129 144, kds_lsn_make 129 108] ∧
      ¬ (lateAppend.hdrs.map (·.lsn)).Pairwise (· < ·) := by
  refine ⟨lateAppend_reachable, ?_, ?_⟩
  · decide +kernel
  · decide +kernel

end Kds
