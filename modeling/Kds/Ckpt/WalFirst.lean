import Kds.Ckpt.Turns

/-! # Log before data

    The checkpointer flushes the log and then writes the dirty frames. What
    the flush puts on disk ends where `write_off` was when it began, but the
    frames are written as they are when their turn comes. A row that an
    executor has put into a page in between goes to disk with it, whether its
    INSERT record is in the ring, is still to be appended, or was given up.

    A write comes behind the log exactly if the inserts with a row in the page
    had appended their records when the flush began.
-/

open Bytes Lts

namespace Kds

/-! ## Section 1: WAL pages on disk -/

/-- What a walk along the log sees of a page. -/
def WalPage.visible (page : WalPage) : PageId × List UInt8 := (page.next_wal_page_id, page.bytes)

theorem WalChain.congr {pages pages' : PageId → WalPage} {id : PageId} {bs : List UInt8}
    (hsame : ∀ j, (pages' j).visible = (pages j).visible) (h : WalChain pages id bs) :
    WalChain pages' id bs := by
  have hnext : ∀ j, (pages' j).next_wal_page_id = (pages j).next_wal_page_id :=
    fun j => congrArg Prod.fst (hsame j)
  have hbytes : ∀ j, (pages' j).bytes = (pages j).bytes := fun j => congrArg Prod.snd (hsame j)
  induction h with
  | last hlast =>
    rw [← hbytes]
    exact .last ((hnext _).trans hlast)
  | link hne hrest ih =>
    rw [← hbytes]
    refine .link (by rwa [hnext]) ?_
    rw [hnext]
    exact ih

/-- The log and its pages on disk. -/
structure LogInv (log : WalSys) (behind : Bool) (disk : PageId → WalPage) : Prop where
  wal : WalInv log
  room : RoomInv log
  behind : ∀ {v new}, log.pc = .link v new → behind = true
  disk : ∀ id, (disk id).visible = (log.pages id).visible
  blank : ∀ id, id ∈ log.staged ∨ id ∉ log.cached → (log.pages id).visible = (0, [])

section pages

variable {s : WalSys}

/-- The steps of `kds_wal_flush` that a walk along the log can see. -/
inductive SeenStep (s : WalSys) (id : PageId) : Prop where
  | used {v : FlushVars} {chunk : UInt32} : s.pc = .used v id chunk → SeenStep s id
  | alloc {v : FlushVars} {behind : Bool} {staged : List PageId} : s.pc = .alloc v behind →
      s.staged = id :: staged → ((flushStep s).pages id).visible = (0, []) → SeenStep s id
  | link {v : FlushVars} {new : PageId} : s.pc = .link v new → id = s.wal.buf.tail_page_id →
      SeenStep s id

/-- **A step of `kds_wal_flush`** changes nothing of what is seen of a page,
    or is one of the three that do. -/
theorem flushStep_visible (id : PageId) :
    ((flushStep s).pages id).visible = (s.pages id).visible ∨ SeenStep s id := by
  -- a `memcpy` goes behind the used part of the page
  have hpayload : ∀ (frame : PageId) (n : Nat) (bs : List UInt8),
      ((Function.update s.pages frame { s.pages frame with
        payload := (s.pages frame).payload.write ((s.pages frame).used_bytes.toNat + n) bs }) id).visible =
        (s.pages id).visible := by
    intro frame n bs
    by_cases hid : id = frame
    · subst hid
      rw [Function.update_self]
      unfold WalPage.visible WalPage.bytes
      dsimp only
      rw [Mem.read_write_disjoint _ (by omega)]
    · rw [Function.update_of_ne hid]
  cases hpc : s.pc with
  | copy v frame chunk =>
    left
    simp only [flushStep, hpc]
    split
    · exact hpayload frame 0 _
    · exact hpayload frame 0 _
  | copyRest v frame chunk first =>
    left
    simp only [flushStep, hpc]
    exact hpayload frame first.toNat _
  | used v frame chunk =>
    by_cases hid : id = frame
    · exact .inr (.used (hid ▸ hpc))
    · left
      simp only [flushStep, hpc, WalSys.setPage, Function.update_of_ne hid]
  | alloc v behind =>
    cases hstaged : s.staged with
    | nil =>
      left
      simp only [flushStep, hpc, hstaged]
      split
      · rfl
      · rfl
    | cons new staged =>
      by_cases hid : id = new
      · subst hid
        refine .inr (.alloc hpc hstaged ?_)
        simp only [flushStep, hpc, hstaged, WalSys.setPage, Function.update_self]
        rfl
      · left
        simp only [flushStep, hpc, hstaged, WalSys.setPage, Function.update_of_ne hid]
  | link v new =>
    by_cases hid : id = s.wal.buf.tail_page_id
    · exact .inr (.link hpc hid)
    · left
      simp only [flushStep, hpc, WalSys.setPage, Function.update_of_ne hid]
  | _ =>
    left
    simp only [flushStep, hpc, WalSys.setBuf]
    try (repeat' split) <;> rfl

end pages

section log

variable {crc32c : UInt32 → List UInt8 → UInt32} {log : WalSys} {behind : Bool}
  {disk : PageId → WalPage}

theorem appendStep_ring (hdr : WalRecHdr) (body : Option (List UInt8)) :
    (appendStep crc32c log hdr body).staged = log.staged ∧
      (appendStep crc32c log hdr body).cached = log.cached ∧
      (appendStep crc32c log hdr body).head = log.head := by
  unfold appendStep
  split
  · exact ⟨rfl, rfl, rfl⟩
  · exact ⟨rfl, rfl, rfl⟩
  · exact ⟨rfl, rfl, rfl⟩

theorem LogInv.append (h : LogInv log behind disk) {hdr : WalRecHdr} {body : Option (List UInt8)}
    (hbody : BodyOk hdr body) : LogInv (appendStep crc32c log hdr body) behind disk := by
  obtain ⟨hpages, hoff, htail⟩ := appendStep_flusher crc32c log hdr body
  obtain ⟨hstaged, hcached, -⟩ : (appendStep crc32c log hdr body).staged = log.staged ∧ _ :=
    appendStep_ring hdr body
  have hpc := appendStep_pc crc32c log hdr body
  refine ⟨h.wal.append crc32c hbody, h.room.same hpc hpages htail, ?_, ?_, ?_⟩
  · rw [hpc]
    exact h.behind
  · rw [hpages]
    exact h.disk
  · rw [hpages, hstaged, hcached]
    exact h.blank

/-- Pages are taken from the ring by others. -/
theorem WalInv.taken (h : WalInv log) {staged : List PageId} (hsuf : staged <:+ log.staged) :
    WalInv { log with staged := staged } := by
  obtain ⟨F, ids, hring, hchain, hpcinv⟩ := h
  have hmem : ∀ {id}, id ∈ staged → id ∈ log.staged := fun hid => hsuf.subset hid
  refine ⟨F, ids, hring, ⟨hchain.linked, hchain.starts, hchain.nodup, hchain.used_le,
    hchain.registered, ?_, fun id hid hst => hchain.unstaged id hid (hmem hst)⟩, ?_⟩
  · exact ⟨hchain.ring.nodup.sublist hsuf.sublist, fun h0 => hchain.ring.nonzero (hmem h0),
      fun id hid => hchain.ring.registered id (hmem hid)⟩
  · show PcInv log.pages _ staged log.cached _ F ids log.pc
    cases hpc : log.pc with
    | link v new =>
      rw [hpc] at hpcinv
      obtain ⟨hlast, hcopied, hfresh⟩ := hpcinv
      exact ⟨hlast, hcopied, { hfresh with unstaged := fun hst => hfresh.unstaged (hmem hst) }⟩
    | _ =>
      rw [hpc] at hpcinv
      exact hpcinv

theorem LogInv.taken (h : LogInv log behind disk) {staged : List PageId}
    (hsuf : staged <:+ log.staged) : LogInv { log with staged := staged } behind disk where
  wal := h.wal.taken hsuf
  room := h.room
  behind := h.behind
  disk := h.disk
  blank := fun id hid => h.blank id (hid.imp_left fun hst => hsuf.subset hst)

theorem LogInv.stage (h : LogInv log behind disk) {id : PageId} (hid : id ∉ log.cached) (h0 : id ≠ 0) :
    LogInv { log with staged := log.staged ++ [id], cached := id :: log.cached } behind disk where
  wal := h.wal.stage hid h0
  room := h.room
  behind := h.behind
  disk := h.disk
  blank := by
    intro j hj
    refine h.blank j ?_
    rcases hj with hj | hj
    · rcases List.mem_append.mp hj with hj | hj
      · exact .inl hj
      · exact .inr (List.mem_singleton.mp hj ▸ hid)
    · exact .inr fun hc => hj (List.mem_cons_of_mem _ hc)

/-- The page a chunk is copied to, and the one that is linked, are pages of the log. -/
theorem WalInv.tail_used (h : WalInv log) {id : PageId}
    (hid : (∃ v chunk, log.pc = .used v id chunk) ∨
      (∃ v new, log.pc = .link v new) ∧ id = log.wal.buf.tail_page_id) :
    id ∈ log.cached ∧ id ∉ log.staged := by
  obtain ⟨F, ids, hring, hchain, hpcinv⟩ := h
  have hchain_mem : id ∈ ids := by
    rcases hid with ⟨v, chunk, hpc⟩ | ⟨⟨v, new, hpc⟩, rfl⟩
    · rw [hpc] at hpcinv
      obtain ⟨hlast, rfl, -⟩ := hpcinv
      exact List.mem_of_getLast? hlast
    · rw [hpc] at hpcinv
      exact List.mem_of_getLast? hpcinv.1
  exact ⟨hchain.registered id hchain_mem, hchain.unstaged id hchain_mem⟩

theorem flushStep_cached (log : WalSys) : (flushStep log).cached = log.cached := by
  unfold flushStep
  dsimp only [WalSys.setPage, WalSys.setBuf]
  (repeat' split) <;> rfl

theorem flushStep_suffix (log : WalSys) : (flushStep log).staged <:+ log.staged := by
  cases hpc : log.pc with
  | alloc v behind =>
    cases hstaged : log.staged with
    | nil =>
      have hnil : (flushStep log).staged = [] := by
        simp only [flushStep, hpc, hstaged]
        split
        · rfl
        · rfl
      exact hnil ▸ List.nil_suffix
    | cons new staged =>
      have hrest : (flushStep log).staged = staged := by
        simp only [flushStep, hpc, hstaged]
      exact hrest ▸ List.suffix_cons new staged
  | _ =>
    have hsame : (flushStep log).staged = log.staged := by
      simp only [flushStep, hpc, WalSys.setPage, WalSys.setBuf]
      try (repeat' split) <;> rfl
    exact hsame ▸ List.suffix_refl _

/-- A page is linked after it is taken. -/
theorem flushStep_link {v : FlushVars} {new : PageId} (h : (flushStep log).pc = .link v new) :
    ∃ behind, log.pc = .alloc v behind := by
  unfold flushStep at h
  cases hpc : log.pc with
  | alloc w behind =>
    rw [hpc] at h
    dsimp only [WalSys.setPage, WalSys.setBuf] at h
    split at h
    · split at h
      · cases h
      · cases h
    · injection h with hv
      exact ⟨behind, by rw [hv]⟩
  | _ =>
    rw [hpc] at h
    dsimp only [WalSys.setPage, WalSys.setBuf] at h
    (repeat' split at h) <;> simp_all

end log

/-- **A step of `kds_wal_flush` that does not fail**. -/
theorem LogInv.flush {s : CkptSys} {wrote : Bool} (h : LogInv s.log s.behind s.disk)
    (hok : AllocOk s.log .flush) (hwrote : wrote = true ∨ s.flushes = none) :
    LogInv (s.flushed wrote).log (s.flushed wrote).behind (s.flushed wrote).disk := by
  refine ⟨h.wal.flush hok, h.room.flush h.wal hok, ?_, ?_, ?_⟩
  · intro v new hlink
    obtain ⟨behind, hpc⟩ := flushStep_link hlink
    have hroom := h.room
    unfold RoomInv at hroom
    rw [hpc] at hroom
    simp only [CkptSys.flushed, hpc]
    exact hroom
  -- the page that the step writes, and the pages that it does not
  · intro id
    have hwritten : s.flushes = some id →
        (s.flushed wrote).disk id = (flushStep s.log).pages id := by
      intro hid
      obtain rfl := hwrote.resolve_right (by rw [hid]; simp)
      simp only [CkptSys.flushed, hid, if_true, Function.update_self]
    have hother : s.flushes ≠ some id → (s.flushed wrote).disk id = s.disk id := by
      intro hid
      cases hflushes : s.flushes with
      | none => simp only [CkptSys.flushed, hflushes]
      | some j =>
        have hne : id ≠ j := fun heq => hid (heq ▸ hflushes)
        simp only [CkptSys.flushed, hflushes]
        split
        · exact Function.update_of_ne hne _ _
        · rfl
    by_cases hid : s.flushes = some id
    · rw [hwritten hid]
      rfl
    · rw [hother hid, h.disk id]
      rcases flushStep_visible (s := s.log) id with hsame | hseen
      · exact hsame.symm
      · cases hseen with
        | used hpc => exact absurd (by simp only [CkptSys.flushes, hpc]) hid
        -- a page that is set up is blank, as it is on the disk
        | alloc _ hstaged hnew =>
          have hblank := h.blank id (.inl (hstaged ▸ List.mem_cons_self))
          exact hblank.trans hnew.symm
        | link hpc htail =>
          refine absurd ?_ hid
          simp only [CkptSys.flushes, hpc, h.behind hpc, if_true, htail]
  · intro id hid
    -- a page that is staged now was staged before, and the flusher works on none of them
    have hold : id ∈ s.log.staged ∨ id ∉ s.log.cached := by
      refine hid.imp (fun hst => (flushStep_suffix s.log).subset hst) fun hc => ?_
      rwa [← flushStep_cached s.log]
    have hnot : ¬ (id ∈ s.log.cached ∧ id ∉ s.log.staged) :=
      fun hc => hold.elim hc.2 fun hn => hn hc.1
    rcases flushStep_visible (s := s.log) id with hsame | hseen
    · exact hsame.trans (h.blank id hold)
    · cases hseen with
      | used hpc => exact absurd (h.wal.tail_used (.inl ⟨_, _, hpc⟩)) hnot
      | alloc _ _ hnew => exact hnew
      | link hpc htail => exact absurd (h.wal.tail_used (.inr ⟨⟨_, _, hpc⟩, htail⟩)) hnot

/-! ## Section 2: The call in progress, and the records -/

/-- The call of `kds_wal_flush` that began behind `count` records. -/
def FlushSince (count : Nat) (log : WalSys) : Prop :=
  count ≤ log.appended.length ∧ FlushCallInv (log.appended.take count).flatten log

/-- What the checkpointer knows about the log. -/
def CkptPc.Knows (log : WalSys) : CkptPc → Prop
  | .idle | .appended => log.pc = .idle
  | .flush count | .flushRecord count => FlushSince count log
  | .frames count _ _ => log.pc = .idle ∧ FlushSince count log

/-- Record `k` is the INSERT record of this exec. -/
def RowLogged (log : WalSys) (exec : InsertExec) (k : Nat) : Prop :=
  exec.pastRow = true ∧ ∃ hdr : WalRecHdr, hdr.type = .insert ∧
    log.appended[k]? = some (hdr.bytes ++ exec.rowBody)

/-- **The invariant**. -/
structure CkptInv (s : CkptSys) : Prop where
  log : LogInv s.log s.behind s.disk
  knows : s.ckpt.Knows s.log
  rows : ∀ {n ins k}, s.inserts n = some ins → ins.logged .row = some k → RowLogged s.log ins.exec k

section moves

variable {crc32c : UInt32 → List UInt8 → UInt32} {log : WalSys} {count : Nat}

theorem appendStep_grows (hdr : WalRecHdr) (body : Option (List UInt8)) :
    log.appended <+: (appendStep crc32c log hdr body).appended := by
  unfold appendStep
  split
  · exact List.prefix_refl _
  · exact List.prefix_refl _
  · exact List.prefix_append _ _

theorem getElem?_of_grows {log' : WalSys} {k : Nat} {bs : List UInt8}
    (h : log.appended <+: log'.appended) (hk : log.appended[k]? = some bs) :
    log'.appended[k]? = some bs := by
  obtain ⟨rest, hrest⟩ := h
  obtain ⟨hlt, -⟩ := List.getElem?_eq_some_iff.mp hk
  rw [← hrest, List.getElem?_append_left hlt]
  exact hk

theorem RowLogged.grows {log' : WalSys} {exec : InsertExec} {k : Nat} (h : RowLogged log exec k)
    (hgrows : log.appended <+: log'.appended) : RowLogged log' exec k := by
  obtain ⟨hpast, hdr, htype, hk⟩ := h
  exact ⟨hpast, hdr, htype, getElem?_of_grows hgrows hk⟩

theorem RowLogged.flush {exec : InsertExec} {k : Nat} (h : RowLogged log exec k) :
    RowLogged (flushStep log) exec k :=
  h.grows ((flushStep_appended log).symm ▸ List.prefix_refl _)

theorem FlushSince.append {hdr : WalRecHdr} {body : Option (List UInt8)} (h : FlushSince count log)
    (hbody : BodyOk hdr body) : FlushSince count (appendStep crc32c log hdr body) := by
  obtain ⟨hcount, hcall⟩ := h
  have hgrows : log.appended <+: (appendStep crc32c log hdr body).appended := appendStep_grows hdr body
  refine ⟨Nat.le_trans hcount hgrows.length_le, ?_⟩
  have htake : (appendStep crc32c log hdr body).appended.take count = log.appended.take count := by
    obtain ⟨rest, hrest⟩ := hgrows
    rw [← hrest, List.take_append_of_le_length hcount]
  rw [htake]
  exact hcall.append hbody

theorem FlushSince.taken {staged : List PageId} (h : FlushSince count log) (hsuf : staged <:+ log.staged) :
    FlushSince count { log with staged := staged } :=
  ⟨h.1, h.2.inv.taken hsuf, h.2.grows, h.2.target, h.2.done⟩

theorem FlushSince.stage {id : PageId} (h : FlushSince count log) (hid : id ∉ log.cached) (h0 : id ≠ 0) :
    FlushSince count { log with staged := log.staged ++ [id], cached := id :: log.cached } :=
  ⟨h.1, h.2.inv.stage hid h0, h.2.grows, h.2.target, h.2.done⟩

theorem FlushSince.flush (h : FlushSince count log) (hpc : log.pc ≠ .idle) (hok : AllocOk log .flush) :
    FlushSince count (flushStep log) := by
  obtain ⟨hcount, hcall⟩ := h
  have happended := flushStep_appended log
  refine ⟨by rwa [happended], ?_⟩
  rw [happended]
  exact hcall.flush hpc hok

theorem FlushSince.begin (h : WalInv log) (hpc : log.pc = .idle) :
    FlushSince log.appended.length (flushStep log) := by
  have happended := flushStep_appended log
  refine ⟨by rw [happended], ?_⟩
  rw [happended, List.take_length]
  exact .begin h hpc

theorem CkptPc.Knows.of_idle (h : log.pc = .idle) : CkptPc.appended.Knows log := h

theorem CkptPc.Knows.append {pc : CkptPc} {hdr : WalRecHdr} {body : Option (List UInt8)}
    (h : pc.Knows log) (hbody : BodyOk hdr body) : pc.Knows (appendStep crc32c log hdr body) := by
  have hpc := appendStep_pc crc32c log hdr body
  cases pc with
  | idle => exact hpc.trans h
  | appended => exact hpc.trans h
  | flush count => exact FlushSince.append h hbody
  | flushRecord count => exact FlushSince.append h hbody
  | frames count flush_lsn left => exact ⟨hpc.trans h.1, h.2.append hbody⟩

theorem CkptPc.Knows.taken {pc : CkptPc} {staged : List PageId} (h : pc.Knows log)
    (hsuf : staged <:+ log.staged) : pc.Knows { log with staged := staged } := by
  cases pc with
  | idle => exact h
  | appended => exact h
  | flush count => exact FlushSince.taken h hsuf
  | flushRecord count => exact FlushSince.taken h hsuf
  | frames count flush_lsn left => exact ⟨h.1, h.2.taken hsuf⟩

theorem CkptPc.Knows.stage {pc : CkptPc} {id : PageId} (h : pc.Knows log) (hid : id ∉ log.cached)
    (h0 : id ≠ 0) :
    pc.Knows { log with staged := log.staged ++ [id], cached := id :: log.cached } := by
  cases pc with
  | idle => exact h
  | appended => exact h
  | flush count => exact FlushSince.stage h hid h0
  | flushRecord count => exact FlushSince.stage h hid h0
  | frames count flush_lsn left => exact ⟨h.1, h.2.stage hid h0⟩

end moves

/-! ## Section 3: Every step -/

section steps

variable {crc32c : UInt32 → List UInt8 → UInt32} {s : CkptSys}

/-- A step that only appends to the log. -/
theorem CkptInv.append {hdr : WalRecHdr} {body : Option (List UInt8)} (h : CkptInv s)
    (hbody : BodyOk hdr body) : CkptInv { s with log := appendStep crc32c s.log hdr body } where
  log := h.log.append hbody
  knows := h.knows.append hbody
  rows := fun hins hk => (h.rows hins hk).grows (appendStep_grows hdr body)

/-- The log behind the record of a turn. -/
theorem CkptInv.logRecord {ins : InsertRun} (h : CkptInv s) (pool : Pool) :
    CkptInv { s with log := s.logRecord crc32c (ins.exec.record pool) } := by
  cases hrec : ins.exec.record pool with
  | none => exact h
  | some record =>
    obtain ⟨l, hdr, body⟩ := record
    unfold CkptSys.logRecord
    dsimp only
    rcases append_of_shape crc32c s.log (record_shape hrec) with hsame | ⟨hbody, -⟩
    · rw [hsame]
      exact h
    · exact h.append hbody

theorem logRecord_staged (record : Option (InsertLog × WalRecHdr × List UInt8)) :
    (s.logRecord crc32c record).staged = s.log.staged := by
  cases record with
  | none => rfl
  | some record => exact (appendStep_ring _ _).1

theorem logRecord_grows (record : Option (InsertLog × WalRecHdr × List UInt8)) :
    s.log.appended <+: (s.logRecord crc32c record).appended := by
  cases record with
  | none => exact List.prefix_refl _
  | some record => exact appendStep_grows _ _

/-- The record of a WAL_INSERT phase that is appended. -/
theorem rowLogged_of_turn {ins : InsertRun} {exec : InsertExec} {env : ExecEnv}
    (heffect : TurnEffect crc32c s (ins.exec.record s.pool) ins.exec exec env)
    (hrow : (ins.exec.record s.pool).map Prod.fst = some .row)
    (hlt : s.log.appended.length <
      (s.logRecord crc32c (ins.exec.record s.pool)).appended.length) :
    RowLogged (s.logRecord crc32c (ins.exec.record s.pool)) exec s.log.appended.length := by
  cases hrec : ins.exec.record s.pool with
  | none => simp [hrec] at hrow
  | some record =>
    obtain ⟨l, hdr, body⟩ := record
    rw [hrec] at hrow hlt heffect
    obtain rfl : l = .row := by simpa using hrow
    obtain ⟨hpast, htype, hbody⟩ := heffect.row rfl
    unfold CkptSys.logRecord at hlt ⊢
    dsimp only at hlt ⊢
    rcases append_of_shape crc32c s.log (record_shape hrec) with
      hsame | ⟨-, hdr', htype', hadd⟩
    · rw [hsame] at hlt
      exact absurd hlt (Nat.lt_irrefl _)
    · refine ⟨hpast, hdr', htype'.trans htype, ?_⟩
      rw [hadd, hbody, List.getElem?_concat_length]

theorem CkptInv.turn {n turns : Nat} {ticks : List Bool} {ins : InsertRun} {r : Option ExecResult}
    {exec : InsertExec} {env : ExecEnv} (h : CkptInv s) (hins : s.inserts n = some ins)
    (hrun : ins.exec.turn crc32c turns (s.env ticks) = some (r, exec, env)) :
    CkptInv (s.turned crc32c n ins r exec env) := by
  have heffect := turn_effect hrun
  have h₁ : CkptInv { s with log := s.logRecord crc32c (ins.exec.record s.pool) } := h.logRecord s.pool
  -- a turn appends its record, if it has one, and then takes staged pages
  have hgrows : s.log.appended <+: (s.logRecord crc32c (ins.exec.record s.pool)).appended :=
    logRecord_grows _
  have hsuf : env.staged <:+ (s.logRecord crc32c (ins.exec.record s.pool)).staged := by
    rw [logRecord_staged]
    exact heffect.staged
  have hlog : (s.turned crc32c n ins r exec env).log =
      { s.logRecord crc32c (ins.exec.record s.pool) with staged := env.staged } := by
    simp only [CkptSys.turned, heffect.wal]
  refine ⟨?_, ?_, ?_⟩
  · rw [hlog]
    exact h₁.log.taken hsuf
  · rw [hlog]
    exact h₁.knows.taken hsuf
  · intro m ins' k hm hk
    rw [hlog]
    show RowLogged (s.logRecord crc32c (ins.exec.record s.pool)) ins'.exec k
    change Function.update s.inserts n _ m = some ins' at hm
    by_cases hmn : m = n
    · subst hmn
      rw [Function.update_self] at hm
      obtain rfl := Option.some.inj hm
      change (if _ then some s.log.appended.length else ins.logged .row) = some k at hk
      -- the record of the row is the one just appended, or an older one
      split at hk
      · next hnew =>
        obtain rfl := Option.some.inj hk
        exact rowLogged_of_turn heffect hnew.1 hnew.2
      · -- the record is older
        obtain ⟨hpast, hdr, htype, hold⟩ := (h.rows hins hk).grows hgrows
        obtain ⟨hpast', hbody⟩ := heffect.past hpast
        refine ⟨hpast', hdr, htype, ?_⟩
        show (s.logRecord crc32c _).appended[k]? = some (hdr.bytes ++ exec.rowBody)
        rw [hbody]
        exact hold
    · rw [Function.update_of_ne hmn] at hm
      exact (h.rows hm hk).grows hgrows

/-- No page allocation of `kds_wal_flush` fails, and the disk takes every page
    that it writes. -/
def FlushOk (s : CkptSys) (a : CkptAct) : Prop :=
  match a with
  | .flush wrote => AllocOk s.log .flush ∧ (wrote = true ∨ s.flushes = none)
  | _ => True

/-- A call of `kds_wal_flush`. -/
theorem LogInv.begin (h : LogInv s.log s.behind s.disk) (hpc : s.log.pc = .idle) :
    LogInv (flushStep s.log) s.behind s.disk := by
  have hok : AllocOk s.log .flush := by
    unfold AllocOk
    rw [hpc]
    exact True.intro
  have hnone : s.flushes = none := by simp only [CkptSys.flushes, hpc]
  have h' : LogInv (s.flushed false).log (s.flushed false).behind (s.flushed false).disk :=
    h.flush hok (.inr hnone)
  simp only [CkptSys.flushed, hnone, hpc] at h'
  exact h'

theorem CkptInv.init (h : CkptInit s) : CkptInv s := by
  obtain ⟨⟨staged, cached, hst, hlog⟩, hdisk, -, hnone, hckpt⟩ := h
  have hwal := kds_wal_init_inv hst hlog
  cases staged with
  | nil => simp [kds_wal_init] at hlog
  | cons first staged =>
    simp only [kds_wal_init, Option.some.injEq] at hlog
    have hpc : s.log.pc = .idle := by rw [← hlog]
    have hpages : s.log.pages = fun _ => newWalPage 1 (kds_lsn_make first 0) := by rw [← hlog]
    refine ⟨⟨hwal, ?_, ?_, ?_, ?_⟩, ?_, ?_⟩
    · unfold RoomInv
      rw [hpc, hpages]
      show (0 : UInt32).toNat < KDS_WAL_PAGE_PAYLOAD
      decide
    · intro v new hlink
      rw [hpc] at hlink
      cases hlink
    · intro id
      rw [hdisk, hpages]
      rfl
    · intro id _
      rw [hpages]
      rfl
    · rw [hckpt]
      exact hpc
    · intro n ins k hins
      rw [hnone n] at hins
      cases hins

theorem CkptInv.step {s' : CkptSys} {a : CkptAct} (h : CkptInv s) (hstep : CkptStep crc32c s a s')
    (hok : FlushOk s a) : CkptInv s' := by
  cases hstep with
  -- a new insert has logged nothing
  | @start n exec hnew hfresh =>
    refine ⟨h.log, h.knows, fun {m ins k} hm hk => ?_⟩
    change Function.update s.inserts n _ m = some ins at hm
    by_cases hmn : m = n
    · subst hmn
      rw [Function.update_self] at hm
      obtain rfl := Option.some.inj hm
      cases hk
    · rw [Function.update_of_ne hmn] at hm
      exact h.rows hm hk
  | turn hins hended hrun => exact h.turn hins hrun
  | append hbody => exact h.append hbody
  | stage hid h0 hnew => exact ⟨h.log.stage hid h0, h.knows.stage hid h0, h.rows⟩
  | begin hckpt =>
    have hknows := h.knows
    rw [hckpt] at hknows
    exact ⟨h.log.begin hknows, .begin h.log.wal hknows, fun hins hk => (h.rows hins hk).flush⟩
  | @flush wrote hpc hpanic =>
    obtain ⟨halloc, hwrote⟩ := hok
    refine ⟨h.log.flush halloc hwrote, ?_, fun hins hk => (h.rows hins hk).flush⟩
    have hknows := h.knows
    show s.ckpt.Knows (flushStep s.log)
    -- the log is in the flusher only while the checkpointer waits for it
    cases hckpt : s.ckpt with
    | idle => rw [hckpt] at hknows; exact absurd hknows hpc
    | appended => rw [hckpt] at hknows; exact absurd hknows hpc
    | frames count flush_lsn left => rw [hckpt] at hknows; exact absurd hknows.1 hpc
    | flush count => rw [hckpt] at hknows; exact FlushSince.flush hknows hpc halloc
    | flushRecord count => rw [hckpt] at hknows; exact FlushSince.flush hknows hpc halloc
  | goOn hckpt hpc _ _ =>
    have hknows := h.knows
    rw [hckpt] at hknows
    exact ⟨h.log, ⟨hpc, hknows⟩, h.rows⟩
  | stop hckpt hpc _ => exact ⟨h.log, hpc, h.rows⟩
  | @visit count flush_lsn id left wrote hckpt =>
    have hknows := h.knows
    rw [hckpt] at hknows
    refine ⟨⟨h.log.wal, h.log.room, h.log.behind, fun j => ?_, h.log.blank⟩, hknows, h.rows⟩
    dsimp only
    -- the frame may hold a page of the log, which is written as it is in memory
    split
    · by_cases hj : j = id
      · rw [hj, Function.update_self]
      · rw [Function.update_of_ne hj]
        exact h.log.disk j
    · exact h.log.disk j
  | @record count flush_lsn time hdr w hckpt happend =>
    have hknows := h.knows
    rw [hckpt] at hknows
    -- the CHECKPOINT record has the two words that its header says
    have hbody : BodyOk checkpointHdr (some (bodyCheckpoint flush_lsn time)) := by
      refine ⟨by decide, ?_⟩
      show (16 : UInt32).toNat ≤ (u64Bytes flush_lsn ++ u64Bytes time).length
      rw [List.length_append, length_u64Bytes, length_u64Bytes]
      decide
    have h' : CkptInv { s with
        log := appendStep crc32c s.log checkpointHdr (some (bodyCheckpoint flush_lsn time)) } :=
      h.append hbody
    have hidle : (appendStep crc32c s.log checkpointHdr
        (some (bodyCheckpoint flush_lsn time))).pc = .idle := by
      rw [appendStep_pc]
      exact hknows.1
    constructor
    · exact h'.log
    · exact .of_idle hidle
    · exact h'.rows
  | recordFails hckpt happend =>
    have hknows := h.knows
    rw [hckpt] at hknows
    exact ⟨h.log, hknows.1, h.rows⟩
  | flushRecord hckpt =>
    have hknows := h.knows
    rw [hckpt] at hknows
    exact ⟨h.log.begin hknows, .begin h.log.wal hknows, fun hins hk => (h.rows hins hk).flush⟩
  | setLsn hckpt hpc =>
    exact ⟨⟨h.log.wal, h.log.room, h.log.behind, h.log.disk, h.log.blank⟩, hpc, h.rows⟩

theorem ckptInv_reachable (h : ((ckptSystem crc32c).restrict FlushOk).Reachable s) : CkptInv s := by
  refine h.invariant CkptInv (fun s hs => .init hs) ?_
  rintro s a s' hinv ⟨hstep, hok⟩
  exact hinv.step hstep hok

end steps

/-! ## Section 4: Log before data -/

/-- The INSERT record is appended, and the log on disk reaches behind it. -/
def CkptSys.Drained (s : CkptSys) (ins : InsertRun) : Prop :=
  ∃ (k : Nat) (hdr : WalRecHdr) (bs : List UInt8), ins.logged .row = some k ∧ hdr.type = .insert ∧
    s.log.appended[k]? = some (hdr.bytes ++ ins.exec.rowBody) ∧
    WalChain s.disk s.log.head bs ∧ (s.log.appended.take (k + 1)).flatten <+: bs

/-- The log is ahead of page `id`: the record of every row in it is on disk. -/
def CkptSys.LogAhead (s : CkptSys) (id : PageId) : Prop :=
  ∀ n ins tid, s.inserts n = some ins → ins.exec.placed = some tid → tid.page_id = id →
    s.Drained ins

/-- The inserts with a row in page `id` had their records among the first `count`. -/
def CkptSys.LoggedWithin (s : CkptSys) (id : PageId) (count : Nat) : Prop :=
  ∀ n ins tid, s.inserts n = some ins → ins.exec.placed = some tid → tid.page_id = id →
    ∃ k < count, ins.logged .row = some k

theorem length_flatten_take_le (records : List (List UInt8)) {i j : Nat} (h : i ≤ j) :
    (records.take i).flatten <+: (records.take j).flatten := by
  obtain ⟨d, rfl⟩ := Nat.exists_eq_add_of_le h
  rw [List.take_add, List.flatten_append]
  exact List.prefix_append _ _

/-- A record is on disk exactly if it was appended when the flush began. -/
theorem drained_iff {s : CkptSys} (h : CkptInv s) {count : Nat} {lsn : Lsn} {left : List PageId}
    (hpc : s.ckpt = .frames count lsn left) {n : Nat} {ins : InsertRun}
    (hins : s.inserts n = some ins) :
    s.Drained ins ↔ ∃ k < count, ins.logged .row = some k := by
  have hknows := h.knows
  rw [hpc] at hknows
  obtain ⟨hidle, -, hcall⟩ := hknows
  have hchain : WalChain s.disk s.log.head (s.log.appended.take count).flatten :=
    (hcall.walChain hidle).congr h.log.disk
  constructor
  · rintro ⟨k, hdr, bs, hk, -, hrec, hbs, hfront⟩
    refine ⟨k, ?_, hk⟩
    by_contra hlate
    -- the record would be behind the end of the log on disk
    rw [hbs.unique hchain] at hfront
    have hlen := hfront.length_le
    have hle := (length_flatten_take_le s.log.appended (Nat.le_of_not_lt hlate)).length_le
    rw [List.take_add_one, hrec, List.flatten_append, List.length_append] at hlen
    simp only [Option.toList_some, List.flatten_cons, List.flatten_nil, List.append_nil,
      List.length_append, WalRecHdr.length_bytes, KDS_WAL_REC_HDR_SIZE] at hlen
    omega
  · rintro ⟨k, hlt, hk⟩
    obtain ⟨-, hdr, htype, hrec⟩ := h.rows hins hk
    exact ⟨k, hdr, _, hk, htype, hrec, hchain, length_flatten_take_le _ hlt⟩

/-- **Log before data**: in a run in which no flush of the log fails, the log
    is ahead of a page that is to be written exactly if the inserts with a row
    in the page had appended their INSERT records when `kds_wal_flush` began. -/
theorem wal_before_data_iff (crc32c : UInt32 → List UInt8 → UInt32) (s : CkptSys)
    (h : ((ckptSystem crc32c).restrict FlushOk).Reachable s) (count : Nat) (lsn : Lsn) (id : PageId)
    (left : List PageId) (hpc : s.ckpt = .frames count lsn (id :: left)) :
    s.LogAhead id ↔ s.LoggedWithin id count := by
  have hinv := ckptInv_reachable h
  constructor
  · intro hahead n ins tid hins hplaced htid
    exact (drained_iff hinv hpc hins).mp (hahead n ins tid hins hplaced htid)
  · intro hlogged n ins tid hins hplaced htid
    exact (drained_iff hinv hpc hins).mpr (hlogged n ins tid hins hplaced htid)

/-! ### One insert -/

/-- A new log, and a new HEAP table with root page 200. -/
def newTables : CkptSys where
  log := newLog
  behind := false
  disk := fun _ => newWalPage 0 0
  pool := newHeapEnv.pool
  inserts := fun _ => none
  ckpt := .idle

theorem newTables_init : CkptInit newTables := by
  refine ⟨⟨walIds, walIds, ⟨by decide, by decide, fun _ h => h⟩, rfl⟩, rfl, ?_, fun _ => rfl, rfl⟩
  intro id f hf
  change (if id = 200 then _ else none) = some f at hf
  split at hf
  · next hid =>
    obtain rfl := Option.some.inj hf
    exact hid.symm
  · cases hf

/-- A COMMIT record of another transaction. -/
def CkptSys.committed (s : CkptSys) : CkptSys :=
  { s with log := appendStep crc32c_le s.log commitRecord none }

/-- Insert 0, of the row with key 5. -/
def CkptSys.started (s : CkptSys) : CkptSys :=
  { s with inserts := Function.update s.inserts 0 (some ⟨insertOf 5, false, fun _ => none⟩) }

/-- A turn of insert 0. -/
def CkptSys.oneTurn (s : CkptSys) : CkptSys :=
  match s.inserts 0 with
  | none => s
  | some ins =>
      match ins.exec.turn crc32c_le 2 (s.env []) with
      | none => s
      | some (r, exec, env) => s.turned crc32c_le 0 ins r exec env

/-- The checkpointer is called. -/
def CkptSys.begun (s : CkptSys) : CkptSys :=
  { s with log := flushStep s.log, ckpt := .flush s.log.appended.length }

def CkptSys.flushedSteps : Nat → CkptSys → CkptSys
  | 0, s => s
  | n + 1, s => flushedSteps n (s.flushed true)

/-- Behind the flush: the checkpointer is to look at page 200. -/
def CkptSys.chosen (s : CkptSys) : CkptSys :=
  match s.ckpt with
  | .flush count => { s with ckpt := .frames count s.log.wal.flush_lsn [200] }
  | _ => s

section reach

variable {s : CkptSys}

theorem oneTurn_reachable (h : ((ckptSystem crc32c_le).restrict FlushOk).Reachable s)
    (hturn : ((s.inserts 0).map fun ins =>
      (ins.ended, (ins.exec.turn crc32c_le 2 (s.env [])).isSome)) = some (false, true)) :
    ((ckptSystem crc32c_le).restrict FlushOk).Reachable s.oneTurn := by
  obtain ⟨ins, hins, hout⟩ := Option.map_eq_some_iff.mp hturn
  obtain ⟨hended, hsome⟩ := Prod.mk.inj hout
  obtain ⟨⟨r, exec, env⟩, hrun⟩ := Option.isSome_iff_exists.mp hsome
  have hstep : s.oneTurn = s.turned crc32c_le 0 ins r exec env := by
    simp only [CkptSys.oneTurn, hins, hrun]
  rw [hstep]
  exact h.step (.turn 0 2 []) ⟨.turn hins hended hrun, trivial⟩

theorem flushedSteps_log : ∀ (n : Nat) (s : CkptSys), (s.flushedSteps n).log = flushSteps n s.log := by
  intro n
  induction n with
  | zero => exact fun s => rfl
  | succ n ih => exact fun s => ih (s.flushed true)

theorem flushedSteps_reachable : ∀ (n : Nat) {s : CkptSys},
    ((ckptSystem crc32c_le).restrict FlushOk).Reachable s →
    (∀ k < n, (flushSteps k s.log).pc.isIdle = false ∧ (flushSteps k s.log).staged.isEmpty = false) →
    ((ckptSystem crc32c_le).restrict FlushOk).Reachable (s.flushedSteps n) := by
  intro n
  induction n with
  | zero => exact fun h _ => h
  | succ n ih =>
    intro s h hbusy
    obtain ⟨hfirst, hring⟩ := hbusy 0 (Nat.succ_pos n)
    have hstaged : s.log.staged ≠ [] := by
      intro hnil
      rw [flushSteps, hnil] at hring
      cases hring
    have hpc : s.log.pc ≠ .idle := by
      intro hidle
      rw [flushSteps, hidle] at hfirst
      cases hfirst
    refine ih (h.step (.flush true) ⟨.flush hpc fun hpanic => hstaged hpanic.1, ?_, .inl rfl⟩) ?_
    · unfold AllocOk
      split
      · exact hstaged
      · trivial
    · exact fun k hk => hbusy (k + 1) (by omega)

theorem started_reachable (h : ((ckptSystem crc32c_le).restrict FlushOk).Reachable s)
    (hnone : s.inserts 0 = none) :
    ((ckptSystem crc32c_le).restrict FlushOk).Reachable s.started :=
  h.step (.start 0 (insertOf 5)) ⟨.start hnone (.heap _ _ _ _), trivial⟩

theorem flushedSteps_rest : ∀ (n : Nat) (s : CkptSys),
    (s.flushedSteps n).ckpt = s.ckpt ∧ (s.flushedSteps n).pool = s.pool := by
  intro n
  induction n with
  | zero => exact fun s => ⟨rfl, rfl⟩
  | succ n ih => exact fun s => ih (s.flushed true)

/-- The checkpointer is called, flushes the log in eight steps, and goes on to page 200. -/
theorem chosen_reachable (h : ((ckptSystem crc32c_le).restrict FlushOk).Reachable s)
    (hckpt : s.ckpt = .idle) {f : Frame}
    (hpool : s.pool.cached = Function.update newHeapEnv.pool.cached 200 (some f))
    (hbusy : ∀ k < 8, (flushSteps k s.begun.log).pc.isIdle = false ∧
      (flushSteps k s.begun.log).staged.isEmpty = false)
    (hidle : (flushSteps 8 s.begun.log).pc.isIdle = true)
    (hneed : kds_wal_need_checkpoint (flushSteps 8 s.begun.log).wal
      (flushSteps 8 s.begun.log).wal.flush_lsn = true) :
    ((ckptSystem crc32c_le).restrict FlushOk).Reachable (s.begun.flushedSteps 8).chosen := by
  have hbegun : ((ckptSystem crc32c_le).restrict FlushOk).Reachable s.begun :=
    h.step .begin ⟨.begin hckpt, trivial⟩
  have hflushed := flushedSteps_reachable 8 hbegun hbusy
  obtain ⟨hpc, hrest⟩ := flushedSteps_rest 8 s.begun
  rw [← flushedSteps_log] at hidle hneed
  have hstep : (s.begun.flushedSteps 8).chosen = { s.begun.flushedSteps 8 with
      ckpt := .frames s.log.appended.length (s.begun.flushedSteps 8).log.wal.flush_lsn [200] } := by
    unfold CkptSys.chosen
    rw [hpc]
    rfl
  rw [hstep]
  refine hflushed.step (.choose [200]) ⟨.goOn hpc (FlushPc.eq_idle hidle) hneed ?_, trivial⟩
  intro id hid
  rw [hrest] at hid
  change (s.pool.cached id).isSome at hid
  by_contra hne
  rw [hpool, Function.update_of_ne (fun heq => hne (by simp [heq]))] at hid
  simp [newHeapEnv] at hid
  exact hne (by simp [hid])

end reach

/-- The record is appended, and the flush comes behind it. -/
def loggedInsert : CkptSys :=
  (newTables.started.oneTurn.oneTurn.oneTurn.begun.flushedSteps 8).chosen

/-- The row is in its page, and the flush comes before the record. -/
def unloggedInsert : CkptSys :=
  (newTables.committed.started.oneTurn.oneTurn.begun.flushedSteps 8).chosen

theorem loggedInsert_reachable :
    ((ckptSystem crc32c_le).restrict FlushOk).Reachable loggedInsert := by
  have h₀ := started_reachable (.init newTables_init) rfl
  have h₁ := oneTurn_reachable h₀ (by decide +kernel)
  have h₂ := oneTurn_reachable h₁ (by decide +kernel)
  have h₃ := oneTurn_reachable h₂ (by decide +kernel)
  exact chosen_reachable h₃ rfl rfl (by decide +kernel) (by decide +kernel) (by decide +kernel)

theorem unloggedInsert_reachable :
    ((ckptSystem crc32c_le).restrict FlushOk).Reachable unloggedInsert := by
  have hcommit : ((ckptSystem crc32c_le).restrict FlushOk).Reachable newTables.committed :=
    .step (.append commitRecord none) (.init newTables_init) ⟨.append ⟨by decide, rfl⟩, trivial⟩
  have h₀ := started_reachable hcommit rfl
  have h₁ := oneTurn_reachable h₀ (by decide +kernel)
  have h₂ := oneTurn_reachable h₁ (by decide +kernel)
  exact chosen_reachable h₂ rfl rfl (by decide +kernel) (by decide +kernel) (by decide +kernel)

/-- The record of the row is on disk when page 200 is written. -/
theorem wal_before_data_one_insert :
    HoldsRow ((kds_frame_flush loggedInsert.pool 200).2.disk 200).page 0 5 ∧
      loggedInsert.LogAhead 200 := by
  refine ⟨by decide +kernel, ?_⟩
  refine (wal_before_data_iff crc32c_le loggedInsert loggedInsert_reachable 1
    loggedInsert.log.wal.flush_lsn 200 [] rfl).mpr ?_
  intro n ins tid hins _ _
  cases n with
  | zero =>
    have hlogged : (loggedInsert.inserts 0).map (fun ins => ins.logged .row) = some (some 0) := by
      decide +kernel
    rw [hins] at hlogged
    exact ⟨0, Nat.one_pos, Option.some.inj hlogged⟩
  | succ n =>
    have hnone : loggedInsert.inserts (n + 1) = none := rfl
    rw [hins] at hnone
    cases hnone

/-- The row goes to disk with its page, and its INSERT record is not even appended. -/
theorem row_written_before_record :
    ((ckptSystem crc32c_le).restrict FlushOk).Reachable unloggedInsert ∧
      (∃ flush_lsn, unloggedInsert.ckpt = .frames 1 flush_lsn [200]) ∧
      HoldsRow ((kds_frame_flush unloggedInsert.pool 200).2.disk 200).page 0 5 ∧
      ¬ unloggedInsert.LogAhead 200 := by
  refine ⟨unloggedInsert_reachable, ⟨_, rfl⟩, by decide +kernel, fun hahead => ?_⟩
  have hrow : (unloggedInsert.inserts 0).map (fun ins => (ins.exec.placed, ins.logged .row)) =
      some (some ⟨200, 0⟩, none) := by decide +kernel
  obtain ⟨ins, hins, hout⟩ := Option.map_eq_some_iff.mp hrow
  obtain ⟨hplaced, hlogged⟩ := Prod.mk.inj hout
  obtain ⟨k, hdr, bs, hk, -⟩ := hahead 0 ins ⟨200, 0⟩ hins hplaced rfl
  rw [hlogged] at hk
  cases hk

end Kds
