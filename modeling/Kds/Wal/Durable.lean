import Kds.Wal.FlushFails

/-! # The log on the disk

    `kds_wal_flush` writes a page with `kds_frame_flush` when it has put bytes
    on it and again when it has linked the next page behind it. What a crash
    leaves is neither the ring nor the pages in memory but these writes, and
    `kds_wal_recover` starts from them. Here the disk is part of the state:
    blank pages from `kds_buf_alloc_new`, the two writes of the flusher, whose
    result it ignores, and the writes of `kds_buf_flush_dirty_frames`.

    A page on the disk is an earlier state of the page in memory, and it has a
    link only once it has all its bytes. So the chain on the disk is a prefix
    of the log whatever the device does, and if the writes of the flusher
    succeed, a prefix that covers all that was released from the ring.
-/

open Bytes Lts

namespace Kds

/-! ## Section 1: The system -/

/-- The log and the disk under it. -/
structure DurableLog where
  sys : WalSys
  disk : PageId → WalPage
  /-- Which of the two places of `kds_wal_flush` has taken the new page. -/
  behind : Bool

/-- `kds_frame_flush`. Nothing is written if the device fails. -/
def DurableLog.frameFlush (d : DurableLog) (frame : PageId) (written : Bool) : DurableLog :=
  if written then { d with disk := Function.update d.disk frame (d.sys.pages frame) } else d

/-- `kds_wal_flush`, one step, with its writes. A page that was found full is
    linked to the new one without a write. -/
def durableFlushStep (d : DurableLog) (written : Bool) : DurableLog :=
  let d' := { d with sys := flushStep d.sys }
  match d.sys.pc with
  | .used _ frame _ => d'.frameFlush frame written
  | .alloc _ behind => { d' with behind := behind }
  | .link _ _ => if d.behind then d'.frameFlush d.sys.wal.buf.tail_page_id written else d'
  | _ => d'

/-- The zeroed page that `kds_buf_alloc_new` writes. -/
def blankPage : WalPage := newWalPage 0 0

inductive DurableAct where
  | append (hdr : WalRecHdr) (body : Option (List UInt8))
  /-- A step of the flusher; a write in it succeeds or not. -/
  | flush (written : Bool)
  | stage (id : PageId)
  /-- `kds_buf_flush_dirty_frames` gets to a page. -/
  | write (id : PageId)

/-- One step. The frame of a staged page still holds what is on the disk. -/
inductive DurableStep (crc32c : UInt32 → List UInt8 → UInt32) :
    DurableLog → DurableAct → DurableLog → Prop where
  | append {d : DurableLog} {hdr : WalRecHdr} {body : Option (List UInt8)} : BodyOk hdr body →
      DurableStep crc32c d (.append hdr body) { d with sys := appendStep crc32c d.sys hdr body }
  | flush {d : DurableLog} {written : Bool} :
      DurableStep crc32c d (.flush written) (durableFlushStep d written)
  | stage {d : DurableLog} {id : PageId} : id ∉ d.sys.cached → id ≠ 0 →
      DurableStep crc32c d (.stage id)
        { d with
          sys := { d.sys with staged := d.sys.staged ++ [id], cached := id :: d.sys.cached }
          disk := Function.update d.disk id blankPage }
  | write {d : DurableLog} {id : PageId} : id ∉ d.sys.staged →
      DurableStep crc32c d (.write id) (d.frameFlush id true)

/-- A page that nothing was written to. -/
def WalPage.Blank (page : WalPage) : Prop := page.used_bytes = 0 ∧ page.next_wal_page_id = 0

def durableSystem (crc32c : UInt32 → List UInt8 → UInt32) : System DurableLog DurableAct where
  init d := ∃ staged cached, Staged staged cached ∧ kds_wal_init staged cached = some d.sys ∧
    ∀ id ∈ staged, (d.disk id).Blank
  step := DurableStep crc32c

/-- No allocation fails. -/
def DurableOk (d : DurableLog) : DurableAct → Prop
  | .flush _ => AllocOk d.sys .flush
  | _ => True

/-- No allocation fails, and no write of the flusher. -/
def WritesOk (d : DurableLog) : DurableAct → Prop
  | .flush written => AllocOk d.sys .flush ∧ written = true
  | _ => True

/-! ## Section 2: What is on the disk of a page in memory -/

/-- The disk has the bytes and the link of the page. -/
def WalPage.OnDisk (written page : WalPage) : Prop :=
  written.bytes = page.bytes ∧ written.next_wal_page_id = page.next_wal_page_id

/-- What both ways to lag behind have in common. -/
structure Lags (R : WalPage → WalPage → Prop) : Prop where
  refl : ∀ page, R page page
  blank : ∀ written page : WalPage, written.Blank → page.Blank → R written page
  same : ∀ written page page' : WalPage, page'.OnDisk page → R written page → R written page'

/-- More bytes or a link on the last page need no write. -/
def Grows (R : WalPage → WalPage → Prop) : Prop :=
  ∀ written page page' : WalPage, R written page → page.next_wal_page_id = 0 →
    page.bytes <+: page'.bytes → R written page'

theorem WalPage.Blank.bytes {page : WalPage} (h : page.Blank) : page.bytes = [] := by
  unfold WalPage.bytes
  rw [h.1]
  rfl

theorem onDisk_lags : Lags WalPage.OnDisk where
  refl _ := ⟨rfl, rfl⟩
  blank _ _ hw hp := ⟨hw.bytes.trans hp.bytes.symm, hw.2.trans hp.2.symm⟩
  same _ _ _ hsame h := ⟨h.1.trans hsame.1.symm, h.2.trans hsame.2.symm⟩

section chain

variable {disk pages : PageId → WalPage}

/-- The chain on the disk is the chain in memory. -/
theorem Linked.onDisk {ids : List PageId} {id : PageId} (hl : Linked pages (id :: ids))
    (h : ∀ j ∈ id :: ids, (disk j).OnDisk (pages j)) :
    WalChain disk id (chainBytes pages (id :: ids)) := by
  rw [← chainBytes_congr fun j hj => (h j hj).1]
  exact (hl.congr fun j hj => (h j hj).2).walChain

end chain

/-! ## Section 4: The invariant -/

/-- The disk lags behind the chain `ids`, behind a page that is taken but not linked, and has
    the staged pages blank. -/
structure ChainOnDisk (R : WalPage → WalPage → Prop) (d : DurableLog) (ids : List PageId) : Prop where
  linked : Linked d.sys.pages ids
  starts : ids.head? = some d.sys.head
  chain : ∀ id ∈ ids, R (d.disk id) (d.sys.pages id)
  taken : ∀ v new, d.sys.pc = .link v new →
    R (d.disk new) (d.sys.pages new) ∧ d.behind = true
  staged : ∀ id ∈ d.sys.staged, (d.disk id).Blank

def DurableInv (R : WalPage → WalPage → Prop) (d : DurableLog) : Prop :=
  WalInv d.sys ∧ RoomInv d.sys ∧ ∃ ids, ChainOnDisk R d ids

@[simp] theorem frameFlush_sys (d : DurableLog) (frame : PageId) (written : Bool) :
    (d.frameFlush frame written).sys = d.sys := by
  unfold DurableLog.frameFlush
  split <;> rfl

@[simp] theorem frameFlush_behind (d : DurableLog) (frame : PageId) (written : Bool) :
    (d.frameFlush frame written).behind = d.behind := by
  unfold DurableLog.frameFlush
  split <;> rfl

theorem frameFlush_other (d : DurableLog) {frame id : PageId} (written : Bool) (h : id ≠ frame) :
    (d.frameFlush frame written).disk id = d.disk id := by
  unfold DurableLog.frameFlush
  split
  · exact Function.update_of_ne h _ _
  · rfl

section steps

variable {R : WalPage → WalPage → Prop} {d : DurableLog} {ids : List PageId} {written : Bool}
  {crc32c : UInt32 → List UInt8 → UInt32}

/-- A page that is written is no longer behind. -/
theorem frameFlush_lags (hR : Lags R) {frame id : PageId} (h : R (d.disk id) (d.sys.pages id)) :
    R ((d.frameFlush frame written).disk id) (d.sys.pages id) := by
  by_cases hid : id = frame
  · subst hid
    unfold DurableLog.frameFlush
    split
    · show R (Function.update d.disk id _ id) _
      rw [Function.update_self]
      exact hR.refl _
    · exact h
  · rw [frameFlush_other d written hid]
    exact h

/-- A written page is never behind, and an unwritten one not for more bytes or a link. -/
theorem frameFlush_grows (hR : Lags R) (hwrite : written = true ∨ Grows R) {frame : PageId}
    {page : WalPage} (h : R (d.disk frame) page) (hend : page.next_wal_page_id = 0)
    (hmore : page.bytes <+: (d.sys.pages frame).bytes) :
    R ((d.frameFlush frame written).disk frame) (d.sys.pages frame) := by
  unfold DurableLog.frameFlush
  cases written with
  | true =>
    show R (Function.update d.disk frame _ frame) _
    rw [Function.update_self]
    exact hR.refl _
  | false => exact (hwrite.resolve_left (by decide)) _ _ _ h hend hmore

/-- A write on its own. -/
theorem ChainOnDisk.frameFlush (hR : Lags R) (h : ChainOnDisk R d ids) {frame : PageId}
    (hframe : frame ∉ d.sys.staged) : ChainOnDisk R (d.frameFlush frame written) ids := by
  constructor
  · rw [frameFlush_sys]
    exact h.linked
  · rw [frameFlush_sys]
    exact h.starts
  · intro id hid
    rw [frameFlush_sys]
    exact frameFlush_lags hR (h.chain id hid)
  · intro v new hpc
    rw [frameFlush_sys] at hpc ⊢
    rw [frameFlush_behind]
    exact ⟨frameFlush_lags hR (h.taken v new hpc).1, (h.taken v new hpc).2⟩
  · intro id hid
    rw [frameFlush_sys] at hid
    have hne : id ≠ frame := by
      rintro rfl
      exact hframe hid
    rw [frameFlush_other d written hne]
    exact h.staged id hid

/-- A step that writes nothing, on the pages or on the disk. -/
theorem ChainOnDisk.same (h : ChainOnDisk R d ids) {d' : DurableLog} (hpages : d'.sys.pages = d.sys.pages)
    (hhead : d'.sys.head = d.sys.head) (hstaged : d'.sys.staged = d.sys.staged)
    (hdisk : d'.disk = d.disk)
    (hpc : ∀ v new, d'.sys.pc = .link v new → d.sys.pc = .link v new ∧ d'.behind = d.behind) :
    ChainOnDisk R d' ids := by
  constructor
  · rw [hpages]
    exact h.linked
  · rw [hhead]
    exact h.starts
  · rw [hpages, hdisk]
    exact h.chain
  · intro v new hlink
    obtain ⟨hpc', hbehind⟩ := hpc v new hlink
    rw [hpages, hdisk, hbehind]
    exact h.taken v new hpc'
  · rw [hstaged, hdisk]
    exact h.staged

/-- A `memcpy` behind the used part of a page of the chain. -/
theorem ChainOnDisk.fill (hR : Lags R) (h : ChainOnDisk R d ids) {d' : DurableLog} {frame : PageId}
    {page : WalPage} (hpage : page.OnDisk (d.sys.pages frame))
    (hpages : d'.sys.pages = Function.update d.sys.pages frame page)
    (hhead : d'.sys.head = d.sys.head) (hstaged : d'.sys.staged = d.sys.staged)
    (hdisk : d'.disk = d.disk) (hpc : ∀ v new, d'.sys.pc ≠ .link v new) : ChainOnDisk R d' ids := by
  have hsame : ∀ id, (d'.sys.pages id).OnDisk (d.sys.pages id) := by
    intro id
    rw [hpages]
    by_cases hid : id = frame
    · subst hid
      rw [Function.update_self]
      exact hpage
    · rw [Function.update_of_ne hid]
      exact onDisk_lags.refl _
  constructor
  · exact h.linked.congr fun id _ => (hsame id).2
  · rw [hhead]
    exact h.starts
  · intro id hid
    rw [hdisk]
    exact hR.same _ _ _ (hsame id) (h.chain id hid)
  · exact fun v new hlink => absurd hlink (hpc v new)
  · rw [hstaged, hdisk]
    exact h.staged

/-! ## Section 5: Steps -/

/-- The steps of the flusher that touch no page and take none. -/
def FlushPc.Quiet : FlushPc → Prop
  | .copy _ _ _ | .copyRest _ _ _ _ | .used _ _ _ | .alloc _ _ | .link _ _ => False
  | _ => True

theorem flushStep_quiet {s : WalSys} (h : s.pc.Quiet) :
    (flushStep s).pages = s.pages ∧ (flushStep s).head = s.head ∧
      (flushStep s).staged = s.staged ∧ ∀ v new, (flushStep s).pc ≠ .link v new := by
  -- none of these steps writes a page or takes one from the ring
  cases hpc : s.pc with
  | idle =>
    simp only [flushStep, hpc]
    split
    · exact ⟨rfl, rfl, rfl, fun v new hlink => by rw [hpc] at hlink; cases hlink⟩
    · exact ⟨rfl, rfl, rfl, fun v new hlink => by cases hlink⟩
  | loop v =>
    simp only [flushStep, hpc]
    split
    · exact ⟨rfl, rfl, rfl, fun v new hlink => by cases hlink⟩
    · exact ⟨rfl, rfl, rfl, fun v new hlink => by cases hlink⟩
  | space v frame =>
    by_cases hfull : UInt32.ofNat KDS_WAL_PAGE_PAYLOAD - (s.pages frame).used_bytes = 0
    · simp only [flushStep, hpc]
      rw [if_pos hfull]
      exact ⟨rfl, rfl, rfl, fun v new hlink => by cases hlink⟩
    · simp only [flushStep, hpc]
      rw [if_neg hfull]
      exact ⟨rfl, rfl, rfl, fun v new hlink => by cases hlink⟩
  | tail v frame chunk =>
    simp only [flushStep, hpc]
    split
    · exact ⟨rfl, rfl, rfl, fun v new hlink => by cases hlink⟩
    · exact ⟨rfl, rfl, rfl, fun v new hlink => by cases hlink⟩
  | seg v behind =>
    unfold flushStep
    rw [hpc]
    exact ⟨rfl, rfl, rfl, fun v new hlink => by cases hlink⟩
  | tailPage v new =>
    unfold flushStep
    rw [hpc]
    exact ⟨rfl, rfl, rfl, fun v new hlink => by cases hlink⟩
  | tailUsed v =>
    unfold flushStep
    rw [hpc]
    exact ⟨rfl, rfl, rfl, fun v new hlink => by cases hlink⟩
  | advance v =>
    unfold flushStep
    rw [hpc]
    exact ⟨rfl, rfl, rfl, fun v new hlink => by cases hlink⟩
  | lsn =>
    unfold flushStep
    rw [hpc]
    exact ⟨rfl, rfl, rfl, fun v new hlink => by cases hlink⟩
  | _ => rw [hpc] at h; exact h.elim

theorem durableFlushStep_quiet (h : d.sys.pc.Quiet) :
    durableFlushStep d written = { d with sys := flushStep d.sys } := by
  unfold durableFlushStep
  cases hpc : d.sys.pc with
  | used v frame chunk => rw [hpc] at h; exact h.elim
  | alloc v behind => rw [hpc] at h; exact h.elim
  | link v new => rw [hpc] at h; exact h.elim
  | _ => rfl

theorem ChainOnDisk.quiet (h : ChainOnDisk R d ids) (hpc : d.sys.pc.Quiet) :
    ChainOnDisk R (durableFlushStep d written) ids := by
  obtain ⟨hpages, hhead, hstaged, hlink⟩ := flushStep_quiet hpc
  rw [durableFlushStep_quiet hpc]
  exact h.same hpages hhead hstaged rfl fun v new hnew => absurd hnew (hlink v new)

/-- The last page of a chain has no link. -/
theorem Linked.last {pages : PageId → WalPage} {t : PageId} :
    ∀ {pre : List PageId}, Linked pages (pre ++ [t]) → (pages t).next_wal_page_id = 0 := by
  intro pre
  induction pre with
  | nil => exact fun h => h
  | cons id pre ih =>
    intro h
    cases pre with
    | nil => exact h.2.2
    | cons next pre => exact ih h.2.2

/-- `bs` behind the used part of a page, and behind `done` more bytes. -/
def WalPage.fill (page : WalPage) (done : Nat) (bs : List UInt8) : WalPage :=
  { page with payload := page.payload.write (page.used_bytes.toNat + done) bs }

/-- Bytes behind the used part of a page do not show. -/
theorem WalPage.fill_onDisk (page : WalPage) (done : Nat) (bs : List UInt8) :
    (page.fill done bs).OnDisk page := by
  constructor
  · show (page.payload.write (page.used_bytes.toNat + done) bs).read 0 page.used_bytes.toNat =
      page.payload.read 0 page.used_bytes.toNat
    rw [Mem.read_write_disjoint _ (by omega)]
  · rfl

section flush

variable {s : WalSys} {v : FlushVars} {frame : PageId} {chunk first : UInt32}

theorem flushStep_copy (hpc : s.pc = .copy v frame chunk) :
    (∃ bs, (flushStep s).pages = Function.update s.pages frame ((s.pages frame).fill 0 bs)) ∧
      (flushStep s).head = s.head ∧ (flushStep s).staged = s.staged ∧
      ∀ v new, (flushStep s).pc ≠ .link v new := by
  simp only [flushStep, hpc]
  split
  · exact ⟨⟨_, rfl⟩, rfl, rfl, fun v new hlink => by cases hlink⟩
  · exact ⟨⟨_, rfl⟩, rfl, rfl, fun v new hlink => by cases hlink⟩

theorem flushStep_copyRest (hpc : s.pc = .copyRest v frame chunk first) :
    (∃ bs, (flushStep s).pages =
        Function.update s.pages frame ((s.pages frame).fill first.toNat bs)) ∧
      (flushStep s).head = s.head ∧ (flushStep s).staged = s.staged ∧
      ∀ v new, (flushStep s).pc ≠ .link v new := by
  unfold flushStep
  rw [hpc]
  exact ⟨⟨_, rfl⟩, rfl, rfl, fun v new hlink => by cases hlink⟩

theorem ChainOnDisk.copy (hR : Lags R) (h : ChainOnDisk R d ids) (hpc : d.sys.pc = .copy v frame chunk) :
    ChainOnDisk R (durableFlushStep d written) ids := by
  obtain ⟨⟨bs, hpages⟩, hhead, hstaged, hlink⟩ := flushStep_copy hpc
  unfold durableFlushStep
  simp only [hpc]
  exact h.fill hR (WalPage.fill_onDisk (d.sys.pages frame) 0 bs) hpages hhead hstaged rfl hlink

theorem ChainOnDisk.copyRest (hR : Lags R) (h : ChainOnDisk R d ids)
    (hpc : d.sys.pc = .copyRest v frame chunk first) :
    ChainOnDisk R (durableFlushStep d written) ids := by
  obtain ⟨⟨bs, hpages⟩, hhead, hstaged, hlink⟩ := flushStep_copyRest hpc
  unfold durableFlushStep
  simp only [hpc]
  exact h.fill hR (WalPage.fill_onDisk (d.sys.pages frame) first.toNat bs) hpages hhead hstaged
    rfl hlink

/-- The last page of the chain gets bytes or a link, and is written. -/
theorem ChainOnDisk.tail_written (hR : Lags R) (hwrite : written = true ∨ Grows R) {pre : List PageId}
    {t : PageId} (h : ChainOnDisk R d (pre ++ [t])) (d' : DurableLog) {page : WalPage}
    (hpages : d'.sys.pages = Function.update d.sys.pages t page) (hdisk : d'.disk = d.disk)
    (hmore : (d.sys.pages t).bytes <+: page.bytes) :
    ∀ id ∈ pre ++ [t], R ((d'.frameFlush t written).disk id) (d'.sys.pages id) := by
  intro id hid
  have hold := h.chain id hid
  by_cases ht : id = t
  · subst ht
    refine frameFlush_grows hR hwrite ?_ h.linked.last ?_
    · rw [hdisk]
      exact hold
    · rw [hpages, Function.update_self]
      exact hmore
  · rw [frameFlush_other d' written ht, hdisk, hpages, Function.update_of_ne ht]
    exact hold

/-- The staged pages are not on the chain, so a write to it leaves them blank. -/
theorem ChainOnDisk.staged_blank (h : ChainOnDisk R d ids) (d' : DurableLog) {t : PageId}
    (hstaged : d'.sys.staged = d.sys.staged) (hdisk : d'.disk = d.disk) (ht : t ∉ d.sys.staged) :
    ∀ id ∈ d'.sys.staged, ((d'.frameFlush t written).disk id).Blank := by
  intro id hid
  rw [hstaged] at hid
  have hne : id ≠ t := by
    rintro rfl
    exact ht hid
  rw [frameFlush_other d' written hne, hdisk]
  exact h.staged id hid

/-- `used_bytes` is advanced and the page written. -/
theorem ChainOnDisk.used (hR : Lags R) (hwrite : written = true ∨ Grows R) (h : ChainOnDisk R d ids)
    (hw : WalInv d.sys) (hpc : d.sys.pc = .used v frame chunk) :
    ChainOnDisk R (durableFlushStep d written) ids := by
  obtain ⟨F, ids', hring, hchain, hpcinv⟩ := hw
  obtain rfl : ids' = ids := hchain.linked.unique h.linked (hchain.starts.trans h.starts.symm)
  rw [hpc] at hpcinv
  obtain ⟨hlast, rfl, P, E, hp, hbytes, hE, hused, -, -⟩ := hpcinv
  obtain ⟨pre, rfl⟩ := List.getLast?_eq_some_iff.mp hlast
  have hsys : (flushStep d.sys).pages = Function.update d.sys.pages d.sys.wal.buf.tail_page_id
        { d.sys.pages d.sys.wal.buf.tail_page_id with
          used_bytes := (d.sys.pages d.sys.wal.buf.tail_page_id).used_bytes + chunk } ∧
      (flushStep d.sys).head = d.sys.head ∧ (flushStep d.sys).staged = d.sys.staged ∧
      ∀ v new, (flushStep d.sys).pc ≠ .link v new := by
    unfold flushStep
    rw [hpc]
    exact ⟨rfl, rfl, rfl, fun v new hlink => by cases hlink⟩
  obtain ⟨hpages, hhead, hstaged, hlink⟩ := hsys
  -- the page shows more of the payload it already held
  have hmore : (d.sys.pages d.sys.wal.buf.tail_page_id).bytes <+:
      ({ d.sys.pages d.sys.wal.buf.tail_page_id with
        used_bytes := (d.sys.pages d.sys.wal.buf.tail_page_id).used_bytes + chunk } :
        WalPage).bytes := by
    -- the page has room for the chunk, so its counter does not wrap
    have hsum : ((d.sys.pages d.sys.wal.buf.tail_page_id).used_bytes + chunk).toNat =
        (d.sys.pages d.sys.wal.buf.tail_page_id).used_bytes.toNat + chunk.toNat := by
      rw [UInt32.toNat_add]
      simp at hused
      omega
    unfold WalPage.bytes
    rw [hsum, Mem.read_add]
    exact List.prefix_append _ _
  have hgrown := hchain.grow hused
  unfold durableFlushStep
  simp only [hpc]
  constructor
  · rw [frameFlush_sys, hpages]
    exact hgrown.1.linked
  · rw [frameFlush_sys, hhead]
    exact h.starts
  · intro id hid
    rw [frameFlush_sys]
    exact h.tail_written hR hwrite { d with sys := flushStep d.sys } hpages rfl hmore id hid
  · intro v new hnew
    rw [frameFlush_sys] at hnew
    exact absurd hnew (hlink v new)
  · rw [frameFlush_sys]
    exact h.staged_blank { d with sys := flushStep d.sys } hstaged rfl
      (hchain.unstaged _ (by simp))

/-- A page is taken. On the disk it is still blank. -/
theorem ChainOnDisk.alloc (hR : Lags R) (h : ChainOnDisk R d ids) (hw : WalInv d.sys)
    (hroom : RoomInv d.sys) {behind : Bool} (hpc : d.sys.pc = .alloc v behind)
    (hstaged : d.sys.staged ≠ []) : ChainOnDisk R (durableFlushStep d written) ids := by
  obtain ⟨F, ids', hring, hchain, hpcinv⟩ := hw
  obtain rfl : ids' = ids := hchain.linked.unique h.linked (hchain.starts.trans h.starts.symm)
  obtain ⟨new, rest, hrest⟩ := List.exists_cons_of_ne_nil hstaged
  unfold RoomInv at hroom
  rw [hpc] at hroom
  have hmem : new ∈ d.sys.staged := by
    rw [hrest]
    exact List.mem_cons_self
  have hnew : new ∉ ids' := fun hid => hchain.unstaged new hid hmem
  have hother := hchain.set_other hnew (newWalPage d.sys.wal.buf.tail_seg_no
    (kds_lsn_make d.sys.wal.buf.tail_page_id d.sys.wal.buf.tail_used))
  unfold durableFlushStep flushStep
  simp only [hpc, hrest]
  refine ⟨hother.1.linked, h.starts, ?_, ?_, ?_⟩
  · intro id hid
    have hne : id ≠ new := by
      rintro rfl
      exact hnew hid
    show R (d.disk id) (Function.update d.sys.pages new _ id)
    rw [Function.update_of_ne hne]
    exact h.chain id hid
  · intro v' new' hlink
    cases hlink
    refine ⟨?_, hroom⟩
    show R (d.disk new) (Function.update d.sys.pages new _ new)
    rw [Function.update_self]
    exact hR.blank _ _ (h.staged new hmem) ⟨rfl, rfl⟩
  · intro id hid
    refine h.staged id ?_
    rw [hrest]
    exact List.mem_cons_of_mem _ hid

/-- The new page is linked in, and the old tail page written. -/
theorem ChainOnDisk.link (hR : Lags R) (hwrite : written = true ∨ Grows R) (h : ChainOnDisk R d ids)
    (hw : WalInv d.sys) {new : PageId} (hpc : d.sys.pc = .link v new) :
    ∃ ids', ChainOnDisk R (durableFlushStep d written) ids' := by
  obtain ⟨F, ids', hring, hchain, hpcinv⟩ := hw
  obtain rfl : ids' = ids := hchain.linked.unique h.linked (hchain.starts.trans h.starts.symm)
  rw [hpc] at hpcinv
  obtain ⟨hlast, -, hfresh⟩ := hpcinv
  obtain ⟨pre, rfl⟩ := List.getLast?_eq_some_iff.mp hlast
  obtain ⟨hnew, hbehind⟩ := h.taken v new hpc
  have hne : new ≠ d.sys.wal.buf.tail_page_id := by
    rintro rfl
    exact hfresh.outside (by simp)
  -- in memory the chain is one page longer
  have hlinked := hchain.link hfresh.nonzero hfresh.outside hfresh.registered
    hfresh.unstaged hfresh.used hfresh.next
  have hsys : (flushStep d.sys).pages = Function.update d.sys.pages d.sys.wal.buf.tail_page_id
        { d.sys.pages d.sys.wal.buf.tail_page_id with next_wal_page_id := new } ∧
      (flushStep d.sys).head = d.sys.head ∧ (flushStep d.sys).staged = d.sys.staged ∧
      ∀ v new, (flushStep d.sys).pc ≠ .link v new := by
    unfold flushStep
    rw [hpc]
    exact ⟨rfl, rfl, rfl, fun v new hlink => by cases hlink⟩
  obtain ⟨hpages, hhead, hstaged, hlink⟩ := hsys
  unfold durableFlushStep
  simp only [hpc, if_pos hbehind]
  refine ⟨pre ++ [d.sys.wal.buf.tail_page_id] ++ [new], ?_, ?_, ?_, ?_, ?_⟩
  · rw [frameFlush_sys, hpages]
    exact hlinked.1.linked
  · rw [frameFlush_sys, hhead]
    exact hlinked.1.starts
  · intro id hid
    rw [frameFlush_sys]
    -- the old last page is the one written; what lies behind the new one was seen when it was taken
    rcases List.mem_append.mp hid with hid | hid
    · exact h.tail_written hR hwrite { d with sys := flushStep d.sys } hpages rfl
        (List.prefix_refl _) id hid
    · obtain rfl := List.mem_singleton.mp hid
      rw [frameFlush_other _ written hne]
      show R (d.disk id) ((flushStep d.sys).pages id)
      rw [hpages, Function.update_of_ne hne]
      exact hnew
  · intro v new hnew
    rw [frameFlush_sys] at hnew
    exact absurd hnew (hlink v new)
  · rw [frameFlush_sys]
    exact h.staged_blank { d with sys := flushStep d.sys } hstaged rfl
      (hchain.unstaged _ (by simp))

/-- **A step of the flusher**: the disk lags behind as before. -/
theorem ChainOnDisk.flush (hR : Lags R) (hwrite : written = true ∨ Grows R) (h : ChainOnDisk R d ids)
    (hw : WalInv d.sys) (hroom : RoomInv d.sys) (hok : AllocOk d.sys .flush) :
    ∃ ids', ChainOnDisk R (durableFlushStep d written) ids' := by
  cases hpc : d.sys.pc with
  | copy v frame chunk => exact ⟨ids, h.copy hR hpc⟩
  | copyRest v frame chunk first => exact ⟨ids, h.copyRest hR hpc⟩
  | used v frame chunk => exact ⟨ids, h.used hR hwrite hw hpc⟩
  | alloc v behind =>
    have hstaged : d.sys.staged ≠ [] := by simpa only [AllocOk, hpc] using hok
    exact ⟨ids, h.alloc hR hw hroom hpc hstaged⟩
  | link v new => exact h.link hR hwrite hw hpc
  | _ => exact ⟨ids, h.quiet (by rw [hpc]; trivial)⟩

end flush

theorem durableFlushStep_sys (d : DurableLog) (written : Bool) :
    (durableFlushStep d written).sys = flushStep d.sys := by
  unfold durableFlushStep
  cases d.sys.pc with
  | used v frame chunk => exact frameFlush_sys _ _ _
  | link v new =>
    dsimp only
    split
    · exact frameFlush_sys _ _ _
    · rfl
  | _ => rfl

/-- A page for the pre-allocation ring is blank on the disk. -/
theorem ChainOnDisk.stage (h : ChainOnDisk R d ids) (hw : WalInv d.sys) {id : PageId}
    (hid : id ∉ d.sys.cached) :
    ChainOnDisk R { d with
      sys := { d.sys with staged := d.sys.staged ++ [id], cached := id :: d.sys.cached }
      disk := Function.update d.disk id blankPage } ids := by
  obtain ⟨F, ids', hring, hchain, hpcinv⟩ := hw
  obtain rfl : ids' = ids := hchain.linked.unique h.linked (hchain.starts.trans h.starts.symm)
  have hother : ∀ j ∈ d.sys.cached, Function.update d.disk id blankPage j = d.disk j := by
    intro j hj
    refine Function.update_of_ne ?_ _ _
    rintro rfl
    exact hid hj
  refine ⟨h.linked, h.starts, ?_, ?_, ?_⟩
  · intro j hj
    show R (Function.update d.disk id blankPage j) (d.sys.pages j)
    rw [hother j (hchain.registered j hj)]
    exact h.chain j hj
  · intro v new hlink
    have hpc : d.sys.pc = .link v new := hlink
    rw [hpc] at hpcinv
    obtain ⟨-, -, hfresh⟩ := hpcinv
    show R (Function.update d.disk id blankPage new) (d.sys.pages new) ∧ d.behind = true
    rw [hother new hfresh.registered]
    exact h.taken v new hpc
  · intro j hj
    show (Function.update d.disk id blankPage j).Blank
    rcases List.mem_append.mp hj with hj | hj
    · rw [hother j (hchain.ring.registered j hj)]
      exact h.staged j hj
    · rw [List.mem_singleton.mp hj, Function.update_self]
      exact ⟨rfl, rfl⟩

/-- **Step**: the disk lags behind as before, if the writes succeed or need not. -/
theorem DurableInv.step (hR : Lags R) {d' : DurableLog} {a : DurableAct} (h : DurableInv R d)
    (hstep : DurableStep crc32c d a d') (hok : DurableOk d a) (hwrite : WritesOk d a ∨ Grows R) :
    DurableInv R d' := by
  obtain ⟨hw, hroom, ids, hdisk⟩ := h
  cases hstep with
  | @append hdr body hbody =>
    obtain ⟨hpages, -, htail⟩ := appendStep_flusher crc32c d.sys hdr body
    have hpc := appendStep_pc crc32c d.sys hdr body
    refine ⟨hw.append crc32c hbody, hroom.same hpc hpages htail, ids, ?_⟩
    have hsame : (appendStep crc32c d.sys hdr body).head = d.sys.head ∧
        (appendStep crc32c d.sys hdr body).staged = d.sys.staged := by
      unfold appendStep
      split <;> exact ⟨rfl, rfl⟩
    exact hdisk.same hpages hsame.1 hsame.2 rfl
      fun v new hlink => ⟨hpc.symm.trans hlink, rfl⟩
  | @flush written =>
    have halloc : AllocOk d.sys .flush := hok
    have hw' : written = true ∨ Grows R := hwrite.imp_left fun h => h.2
    refine ⟨?_, ?_, hdisk.flush hR hw' hw hroom halloc⟩
    · rw [durableFlushStep_sys]
      exact hw.flush halloc
    · rw [durableFlushStep_sys]
      exact hroom.flush hw halloc
  | @stage id hid h0 =>
    exact ⟨hw.stage hid h0, hroom.same rfl rfl rfl, ids, hdisk.stage hw hid⟩
  | @write id hid =>
    refine ⟨?_, ?_, ids, hdisk.frameFlush hR hid⟩
    · rw [frameFlush_sys]
      exact hw
    · rw [frameFlush_sys]
      exact hroom

/-- The first page is blank on the disk and in memory. -/
theorem DurableInv.init (hR : Lags R) (h : (durableSystem crc32c).init d) : DurableInv R d := by
  obtain ⟨staged, cached, hst, hinit, hblank⟩ := h
  refine ⟨kds_wal_init_inv hst hinit, ?_⟩
  cases staged with
  | nil => cases hinit
  | cons first rest =>
    have hsys := (Option.some.inj hinit).symm
    refine ⟨?_, [first], ?_⟩
    · rw [hsys]
      show (0 : Nat) < KDS_WAL_PAGE_PAYLOAD
      decide
    · refine ⟨?_, ?_, ?_, ?_, ?_⟩
      · rw [hsys]
        rfl
      · rw [hsys]
        rfl
      · intro id hid
        rw [List.mem_singleton.mp hid, hsys]
        exact hR.blank _ _ (hblank first List.mem_cons_self) ⟨rfl, rfl⟩
      · intro v new hlink
        rw [hsys] at hlink
        cases hlink
      · intro id hid
        rw [hsys] at hid
        exact hblank id (List.mem_cons_of_mem _ hid)

end steps

end Kds
