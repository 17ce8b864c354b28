import Kds.Wal.Lsn

/-! # Flushes that fail

    `kds_wal_flush` has four ways out of a failure. A tail page that cannot be
    loaded ends the call, and so does an empty pre-allocation ring when the
    tail page was found full; an empty ring behind a page that this call has
    filled only ends its loop ("not fatal; will retry next flush cycle"); and
    a tail page that cannot be looked up again is not linked to the new one.

    `flush_off` still says where the call began. A call that returns after it
    has copied something copies it again next time, and one that breaks out of
    its loop releases what it has not copied. `FlushFailOk` leaves these out,
    and `failed_flush_harmless` says that without them a flush that does not
    fail puts the stream right.
-/

open Bytes Lts

namespace Kds

/-! ## Section 1: The system -/

inductive FailAct where
  | act (a : WalAct)
  /-- `kds_buf_lookup_or_load` of the tail page fails at the top of the loop. -/
  | loadFails
  /-- It fails when the new page is to be linked. -/
  | linkFails

/-- One step. `wal_alloc_page` fails in `flushStep` itself, when nothing is staged. -/
inductive FailStep (crc32c : UInt32 → List UInt8 → UInt32) : WalSys → FailAct → WalSys → Prop where
  | act {s s' : WalSys} {a : WalAct} : WalStep crc32c s a s' → FailStep crc32c s (.act a) s'
  | loadFails {s : WalSys} {v : FlushVars} : s.pc = .loop v → v.bytes_to_flush > 0 →
      FailStep crc32c s .loadFails { s with pc := .idle }
  | linkFails {s : WalSys} {v : FlushVars} {new : PageId} : s.pc = .link v new →
      FailStep crc32c s .linkFails { s with pc := .tailPage v new }

def failSystem (crc32c : UInt32 → List UInt8 → UInt32) : System WalSys FailAct where
  init := (walSystem crc32c).init
  step := FailStep crc32c

/-- The failures that do no harm: a load before anything is copied, an
    allocation unless bytes are left behind the page the call has filled, no link. -/
def FlushFailOk (s : WalSys) (a : FailAct) : Prop :=
  match a, s.pc with
  | .act .flush, .alloc v behind => s.staged ≠ [] ∨ behind = false ∨ v.bytes_to_flush = 0
  | .loadFails, .loop v => v.flush_start = s.wal.buf.flush_off
  | .linkFails, _ => False
  | _, _ => True

/-- A call of `kds_wal_flush` that meets no failure, from behind its first step
    on. Others append and stage pages meanwhile. -/
inductive FlushRun (crc32c : UInt32 → List UInt8 → UInt32) : WalSys → WalSys → Prop where
  | returns {s : WalSys} : s.pc = .idle → FlushRun crc32c s s
  | step {s s' s'' : WalSys} {a : WalAct} : s.pc ≠ .idle → WalStep crc32c s a s' → AllocOk s a →
      FlushRun crc32c s' s'' → FlushRun crc32c s s''

def FlushCall (crc32c : UInt32 → List UInt8 → UInt32) (s s' : WalSys) : Prop :=
  s.pc = .idle ∧ FlushRun crc32c (flushStep s) s'

/-! ## Section 2: A full page is found only by a call that has copied nothing -/

/-- What a call knows about the space on the tail page. -/
def SpaceInv (s : WalSys) : Prop :=
  match s.pc with
  | .loop v =>
      v.flush_start = s.wal.buf.flush_off ∨
        (s.pages s.wal.buf.tail_page_id).used_bytes.toNat < KDS_WAL_PAGE_PAYLOAD
  | .space v frame =>
      v.flush_start = s.wal.buf.flush_off ∨
        (s.pages frame).used_bytes.toNat < KDS_WAL_PAGE_PAYLOAD
  | .seg v behind | .alloc v behind => behind = true ∨ v.flush_start = s.wal.buf.flush_off
  | .tailPage _ new => (s.pages new).used_bytes = 0
  | .tailUsed _ => (s.pages s.wal.buf.tail_page_id).used_bytes = 0
  | _ => True

section space

variable {s : WalSys} {v : FlushVars} {crc32c : UInt32 → List UInt8 → UInt32}

/-- The invariant is about the flusher's side of the state only. -/
theorem SpaceInv.same {s' : WalSys} (h : SpaceInv s) (hpc : s'.pc = s.pc) (hpages : s'.pages = s.pages)
    (hoff : s'.wal.buf.flush_off = s.wal.buf.flush_off)
    (htail : s'.wal.buf.tail_page_id = s.wal.buf.tail_page_id) : SpaceInv s' := by
  unfold SpaceInv at h ⊢
  rw [hpc, hpages, hoff, htail]
  exact h

theorem pushRecord_flush_off (b : WalBuf) (hdr : WalRecHdr) (body : Option (List UInt8)) :
    (pushRecord b hdr body).flush_off = b.flush_off := by
  unfold pushRecord
  split
  · rw [push_flush_off, push_flush_off]
  · rw [push_flush_off]

/-- What an append leaves to the flusher. -/
theorem appendStep_flusher (crc32c : UInt32 → List UInt8 → UInt32) (s : WalSys) (hdr : WalRecHdr)
    (body : Option (List UInt8)) :
    (appendStep crc32c s hdr body).pages = s.pages ∧
      (appendStep crc32c s hdr body).wal.buf.flush_off = s.wal.buf.flush_off ∧
      (appendStep crc32c s hdr body).wal.buf.tail_page_id = s.wal.buf.tail_page_id := by
  unfold appendStep kds_wal_append
  dsimp only
  split_ifs
  · exact ⟨rfl, rfl, rfl⟩
  · exact ⟨rfl, rfl, rfl⟩
  · exact ⟨rfl, rfl, rfl⟩
  · exact ⟨rfl, pushRecord_flush_off _ _ _, pushRecord_tail _ _ _⟩

theorem SpaceInv.flush (hw : WalInv s) (h : SpaceInv s) : SpaceInv (flushStep s) := by
  obtain ⟨F, ids, hring, hchain, hpcinv⟩ := hw
  unfold SpaceInv at h
  cases hpc : s.pc with
  | idle =>
    simp only [flushStep, hpc]
    split
    · unfold SpaceInv
      rw [hpc]
      exact True.intro
    · exact .inl rfl
  | loop v =>
    rw [hpc] at h
    simp only [flushStep, hpc]
    split
    · exact h
    · exact True.intro
  | space v frame =>
    rw [hpc] at h hpcinv
    obtain ⟨hlast, rfl, -⟩ := hpcinv
    by_cases hfull : UInt32.ofNat KDS_WAL_PAGE_PAYLOAD -
        (s.pages s.wal.buf.tail_page_id).used_bytes = 0
    · simp only [flushStep, hpc]
      rw [if_pos hfull]
      -- a page without space is the one the call began with
      have hused := used_of_space_eq_zero (hchain.used_le _ (List.mem_of_getLast? hlast)) hfull
      exact .inr (h.resolve_right fun hlt => Nat.ne_of_lt hlt hused)
    · simp only [flushStep, hpc]
      rw [if_neg hfull]
      exact True.intro
  | copy v frame chunk =>
    simp only [flushStep, hpc]
    split
    · exact True.intro
    · exact True.intro
  | copyRest v frame chunk first =>
    simp only [flushStep, hpc]
    exact True.intro
  | used v frame chunk =>
    simp only [flushStep, hpc]
    exact True.intro
  | tail v frame chunk =>
    rw [hpc] at hpcinv
    obtain ⟨-, rfl, -⟩ := hpcinv
    simp only [flushStep, hpc]
    split
    · exact .inl rfl
    · next hroom => exact .inr (Nat.lt_of_not_le hroom)
  | seg v behind =>
    rw [hpc] at h
    simp only [flushStep, hpc]
    exact h
  | alloc v behind =>
    simp only [flushStep, hpc]
    split
    · split
      · exact True.intro
      · exact True.intro
    · exact True.intro
  | link v new =>
    rw [hpc] at hpcinv
    obtain ⟨hlast, -, hfresh⟩ := hpcinv
    have hne : new ≠ s.wal.buf.tail_page_id := by
      rintro rfl
      exact hfresh.outside (List.mem_of_getLast? hlast)
    simp only [flushStep, hpc]
    show (Function.update s.pages _ _ new).used_bytes = 0
    rw [Function.update_of_ne hne]
    exact hfresh.used
  | tailPage v new =>
    rw [hpc] at h
    simp only [flushStep, hpc]
    exact h
  | tailUsed v =>
    rw [hpc] at h
    simp only [flushStep, hpc]
    refine .inr ?_
    show (s.pages s.wal.buf.tail_page_id).used_bytes.toNat < _
    rw [show (s.pages s.wal.buf.tail_page_id).used_bytes = 0 from h]
    decide
  | advance v =>
    simp only [flushStep, hpc]
    exact True.intro
  | lsn =>
    simp only [flushStep, hpc]
    exact True.intro

theorem SpaceInv.step {s' : WalSys} {a : WalAct} (hw : WalInv s) (h : SpaceInv s)
    (hstep : WalStep crc32c s a s') : SpaceInv s' := by
  cases hstep with
  | append hbody =>
    obtain ⟨hpages, hoff, htail⟩ := appendStep_flusher crc32c s _ _
    exact h.same (appendStep_pc crc32c s _ _) hpages hoff htail
  | flush => exact h.flush hw
  | stage hid h0 => exact h.same rfl rfl rfl rfl

end space

/-! ## Section 3: What a harmless failure leaves behind -/

section fails

variable {s : WalSys} {v : FlushVars} {crc32c : UInt32 → List UInt8 → UInt32}

/-- Ending a call before it has copied anything. -/
theorem Copied.give_up {pages : PageId → WalPage} {S : List UInt8} {F : Nat} {ids : List PageId}
    (h : Copied pages S F ids v) (hstart : v.flush_start = UInt64.ofNat F) :
    chainBytes pages ids = S.take F := by
  obtain ⟨P, E, hp, hbytes⟩ := h
  rw [← hp.eq_released hstart]
  exact hbytes

theorem WalInv.loadFails (h : WalInv s) (hpc : s.pc = .loop v)
    (hstart : v.flush_start = s.wal.buf.flush_off) : WalInv { s with pc := .idle } := by
  obtain ⟨F, ids, hring, hchain, hpcinv⟩ := h
  rw [hpc] at hpcinv
  obtain ⟨hlast, hcopied⟩ := hpcinv
  exact ⟨F, ids, hring, hchain, hlast, hcopied.give_up (hstart.trans hring.flush_off)⟩

/-- No page is staged: behind the last bytes, or before the first. -/
theorem WalInv.allocFails {behind : Bool} (h : WalInv s) (hspace : SpaceInv s)
    (hpc : s.pc = .alloc v behind) (hstaged : s.staged = [])
    (hok : behind = false ∨ v.bytes_to_flush = 0) : WalInv (flushStep s) := by
  obtain ⟨F, ids, hring, hchain, hpcinv⟩ := h
  unfold SpaceInv at hspace
  rw [hpc] at hpcinv hspace
  obtain ⟨hlast, hcopied⟩ := hpcinv
  simp only [flushStep, hpc, hstaged]
  cases behind with
  | false =>
    have hstart : v.flush_start = s.wal.buf.flush_off := hspace.resolve_left (by decide)
    exact ⟨F, ids, hring, hstaged ▸ hchain, hlast,
      hcopied.give_up (hstart.trans hring.flush_off)⟩
  | true =>
    obtain ⟨P, E, hp, hbytes⟩ := hcopied
    have hPE : P = E := by
      have hleft := hp.bytes_eq
      rw [hok.resolve_left (by decide)] at hleft
      exact Nat.le_antisymm hp.le_end (Nat.le_of_sub_eq_zero hleft.symm)
    subst hPE
    exact ⟨F, ids, hring, hstaged ▸ hchain, hlast, P, hp, hbytes⟩

theorem FailStep.inv {s' : WalSys} {a : FailAct} (hw : WalInv s) (hspace : SpaceInv s)
    (hstep : FailStep crc32c s a s') (hok : FlushFailOk s a) : WalInv s' ∧ SpaceInv s' := by
  cases hstep with
  | act hact =>
    refine ⟨?_, hspace.step hw hact⟩
    cases hact with
    | append hbody => exact hw.append crc32c hbody
    | stage hid h0 => exact hw.stage hid h0
    | flush =>
      by_cases halloc : AllocOk s .flush
      · exact hw.flush halloc
      · -- only an empty ring in front of `wal_alloc_page`
        unfold AllocOk at halloc
        split at halloc
        · next v behind _ hpc =>
          have hstaged : s.staged = [] := not_not.mp halloc
          unfold FlushFailOk at hok
          rw [hpc] at hok
          exact hw.allocFails hspace hpc hstaged (hok.resolve_left (not_not.mpr hstaged))
        · exact absurd trivial halloc
  | @loadFails v hpc hmore =>
    unfold FlushFailOk at hok
    rw [hpc] at hok
    exact ⟨hw.loadFails hpc hok, trivial⟩
  | linkFails hpc => exact absurd hok (by unfold FlushFailOk; simp)

theorem fail_invariant (h : ((failSystem crc32c).restrict FlushFailOk).Reachable s) :
    WalInv s ∧ SpaceInv s := by
  refine h.invariant (fun s => WalInv s ∧ SpaceInv s) ?_ ?_
  · rintro s ⟨staged, cached, hst, hs⟩
    refine ⟨kds_wal_init_inv hst hs, ?_⟩
    have hpc : s.pc = .idle := by
      unfold kds_wal_init at hs
      cases staged with
      | nil => cases hs
      | cons first rest =>
        obtain rfl := Option.some.inj hs
        rfl
    unfold SpaceInv
    rw [hpc]
    trivial
  · rintro s a s' ⟨hw, hspace⟩ ⟨hstep, hok⟩
    exact hstep.inv hw hspace hok

/-! ## Section 4: Released bytes are copied -/

/-- What has been released from the ring, as the offsets tell it. -/
def released (s : WalSys) : Nat := s.appended.flatten.length - (wal_buf_used s.wal.buf).toNat

theorem RingInv.released_eq {F : Nat} (h : RingInv s.wal.buf s.appended.flatten F) :
    released s = F := by
  have hle := h.holds.le
  unfold released
  rw [h.used_eq]
  omega

/-- The pages hold the stream up to some byte behind what is released. -/
theorem PcInv.copied {pages : PageId → WalPage} {tail : PageId} {staged cached : List PageId}
    {S : List UInt8} {F : Nat} {ids : List PageId} {pc : FlushPc} (hF : F ≤ S.length)
    (h : PcInv pages tail staged cached S F ids pc) :
    ∃ P, F ≤ P ∧ P ≤ S.length ∧ chainBytes pages ids = S.take P := by
  have hcopied : ∀ {v}, Copied pages S F ids v →
      ∃ P, F ≤ P ∧ P ≤ S.length ∧ chainBytes pages ids = S.take P := by
    rintro v ⟨P, E, hp, hbytes⟩
    exact ⟨P, hp.released_le, Nat.le_trans hp.le_end hp.end_le, hbytes⟩
  have hcopying : ∀ {v frame chunk done}, Copying pages S F ids v frame chunk done →
      ∃ P, F ≤ P ∧ P ≤ S.length ∧ chainBytes pages ids = S.take P := by
    rintro v frame chunk done ⟨P, E, hp, hbytes, -⟩
    exact ⟨P, hp.released_le, Nat.le_trans hp.le_end hp.end_le, hbytes⟩
  cases pc with
  | idle => exact ⟨F, Nat.le_refl F, hF, h.2⟩
  | lsn => exact ⟨F, Nat.le_refl F, hF, h.2⟩
  | loop v => exact hcopied h.2
  | seg v behind => exact hcopied h.2
  | alloc v behind => exact hcopied h.2
  | tailUsed v => exact hcopied h.2
  | space v frame => exact hcopied h.2.2
  | copy v frame chunk => exact hcopying h.2.2
  | copyRest v frame chunk first => exact hcopying h.2.2.1
  | used v frame chunk => exact hcopying h.2.2
  | tail v frame chunk =>
    obtain ⟨-, -, P, E, hp, hE, hbytes⟩ := h
    exact ⟨P + chunk.toNat, Nat.le_trans hp.released_le (Nat.le_add_right _ _),
      Nat.le_trans hE hp.end_le, hbytes⟩
  | link v new => exact hcopied h.2.1
  | tailPage v new => exact hcopied h.2
  | advance v =>
    obtain ⟨-, E, hp, hbytes⟩ := h
    exact ⟨E, hp.released_le, hp.end_le, hbytes⟩

/-- The bytes on the pages are a front part of the stream, and hold all that is released. -/
def ReleasedCopied (s : WalSys) : Prop :=
  ∃ bs, WalChain s.pages s.head bs ∧ bs <+: s.appended.flatten ∧ released s ≤ bs.length

theorem WalInv.releasedCopied (h : WalInv s) : ReleasedCopied s := by
  obtain ⟨F, ids, hring, hchain, hpcinv⟩ := h
  obtain ⟨P, hF, hP, hbytes⟩ := hpcinv.copied hring.holds.le
  refine ⟨chainBytes s.pages ids, hchain.walChain, ?_, ?_⟩
  · rw [hbytes]
    exact List.take_prefix P _
  · rw [hbytes, List.length_take, hring.released_eq]
    omega

/-! ## Section 5: The call after the failure -/

/-- A call that began when the stream was `S₀`. -/
structure FlushCallInv (S₀ : List UInt8) (s : WalSys) : Prop where
  inv : WalInv s
  grows : S₀ <+: s.appended.flatten
  target : ∀ v, s.pc.vars = some v →
    v.flush_end = UInt64.ofNat S₀.length ∧ released s ≤ S₀.length
  done : s.pc.vars = none → released s = S₀.length

theorem released_congr {s' : WalSys} (happended : s'.appended = s.appended)
    (hwrite : s'.wal.buf.write_off = s.wal.buf.write_off)
    (hflush : s'.wal.buf.flush_off = s.wal.buf.flush_off) : released s' = released s := by
  unfold released wal_buf_used
  rw [happended, hwrite, hflush]

theorem released_append {hdr : WalRecHdr} {body : Option (List UInt8)} (h : WalInv s)
    (hbody : BodyOk hdr body) : released (appendStep crc32c s hdr body) = released s := by
  obtain ⟨F, ids, hring, -, -⟩ := h
  rw [hring.released_eq]
  unfold appendStep
  rcases kds_wal_append_cases crc32c hbody hring with ⟨e, he⟩ | ⟨w', hw, hring', -⟩
  · rw [he]
    exact hring.released_eq
  · rw [hw]
    refine RingInv.released_eq ?_
    simpa using hring'

/-- Only the end of a call moves `flush_off`. -/
theorem flushStep_offsets (h : ∀ v, s.pc ≠ .advance v) :
    (flushStep s).wal.buf.write_off = s.wal.buf.write_off ∧
      (flushStep s).wal.buf.flush_off = s.wal.buf.flush_off := by
  cases hpc : s.pc with
  | advance v => exact absurd hpc (h v)
  | alloc v behind =>
    unfold flushStep
    rw [hpc]
    dsimp only [WalSys.setPage, WalSys.setBuf]
    cases s.staged with
    | nil => cases behind <;> exact ⟨rfl, rfl⟩
    | cons new rest => exact ⟨rfl, rfl⟩
  | _ =>
    unfold flushStep
    rw [hpc]
    dsimp only [WalSys.setPage, WalSys.setBuf]
    (repeat' split) <;> exact ⟨rfl, rfl⟩

/-- A call that meets no failure keeps its target up to its end. -/
theorem flushStep_vars (h : s.pc.vars = some v) (hne : s.pc ≠ .advance v) (hok : AllocOk s .flush) :
    ∃ v', (flushStep s).pc.vars = some v' ∧ v'.flush_end = v.flush_end := by
  cases hpc : s.pc with
  | idle => rw [hpc] at h; cases h
  | lsn => rw [hpc] at h; cases h
  | alloc w behind =>
    rw [hpc] at h
    obtain rfl := Option.some.inj h
    unfold AllocOk at hok
    rw [hpc] at hok
    obtain ⟨new, rest, hrest⟩ := List.exists_cons_of_ne_nil hok
    simp only [flushStep, hpc, hrest]
    exact ⟨w, rfl, rfl⟩
  | advance w =>
    rw [hpc] at h hne
    obtain rfl := Option.some.inj h
    exact absurd rfl hne
  | _ =>
    rw [hpc] at h
    obtain rfl := Option.some.inj h
    simp only [flushStep, hpc, WalSys.setPage, WalSys.setBuf]
    (repeat' split) <;> exact ⟨_, rfl, rfl⟩

theorem FlushCallInv.flush {S₀ : List UInt8} (h : FlushCallInv S₀ s) (hpc : s.pc ≠ .idle)
    (hok : AllocOk s .flush) : FlushCallInv S₀ (flushStep s) := by
  have happended := flushStep_appended s
  have hgrows : S₀ <+: (flushStep s).appended.flatten := by rw [happended]; exact h.grows
  cases hvars : s.pc.vars with
  | none =>
    -- the call is past the release: only the LSN is left to publish
    have hlsn : s.pc = .lsn := by
      cases hp : s.pc with
      | idle => exact absurd hp hpc
      | lsn => rfl
      | _ => rw [hp] at hvars; cases hvars
    have hrel : released (flushStep s) = S₀.length := by
      rw [← h.done hvars]
      obtain ⟨hwrite, hflush⟩ := flushStep_offsets (s := s) (by rw [hlsn]; simp)
      exact released_congr happended hwrite hflush
    have hidle : (flushStep s).pc = .idle := by simp only [flushStep, hlsn]
    refine ⟨h.inv.flush hok, hgrows, fun v hv => ?_, fun _ => hrel⟩
    rw [hidle] at hv
    cases hv
  | some v =>
    obtain ⟨htarget, hbound⟩ := h.target v hvars
    by_cases hadv : s.pc = .advance v
    · -- `flush_off` becomes the length of the stream the call began with
      have hrel : released (flushStep s) = S₀.length := by
        obtain ⟨F, ids, hring, -, -⟩ := h.inv
        rw [hring.released_eq] at hbound
        have hlen := h.grows.length_le
        have hfits := hring.holds.fits
        simp only [KDS_WAL_BUF_SIZE] at hfits
        unfold released wal_buf_used
        rw [happended]
        simp only [flushStep, hadv, WalSys.setBuf]
        rw [htarget, hring.write_off, UInt64.toNat_sub, UInt64.toNat_ofNat', UInt64.toNat_ofNat']
        omega
      have hlsn : (flushStep s).pc = .lsn := by simp only [flushStep, hadv]
      refine ⟨h.inv.flush hok, hgrows, fun w hw => ?_, fun _ => hrel⟩
      rw [hlsn] at hw
      cases hw
    -- any other step keeps the end of the call and releases nothing
    · obtain ⟨v', hv', hend⟩ := flushStep_vars hvars hadv hok
      have hrel : released (flushStep s) = released s := by
        have hne : ∀ w, s.pc ≠ .advance w := by
          intro w hw
          rw [hw] at hvars hadv
          exact hadv (congrArg FlushPc.advance (Option.some.inj hvars))
        obtain ⟨hwrite, hflush⟩ := flushStep_offsets hne
        exact released_congr happended hwrite hflush
      refine ⟨h.inv.flush hok, hgrows, fun w hw => ?_, fun hnone => ?_⟩
      · obtain rfl := Option.some.inj (hv'.symm.trans hw)
        rw [hend, hrel]
        exact ⟨htarget, hbound⟩
      · rw [hv'] at hnone
        cases hnone

theorem FlushCallInv.append {S₀ : List UInt8} {hdr : WalRecHdr} {body : Option (List UInt8)}
    (h : FlushCallInv S₀ s) (hbody : BodyOk hdr body) :
    FlushCallInv S₀ (appendStep crc32c s hdr body) := by
  have hrel : released (appendStep crc32c s hdr body) = released s :=
    released_append h.inv hbody
  have hsame := appendStep_pc crc32c s hdr body
  refine ⟨h.inv.append crc32c hbody, h.grows.trans ?_, ?_, ?_⟩
  · unfold appendStep
    split
    · exact List.prefix_refl _
    · exact List.prefix_refl _
    · rw [List.flatten_append]
      exact List.prefix_append _ _
  · rw [hsame, hrel]
    exact h.target
  · rw [hsame, hrel]
    exact h.done

theorem FlushCallInv.step {S₀ : List UInt8} {s' : WalSys} {a : WalAct} (h : FlushCallInv S₀ s)
    (hpc : s.pc ≠ .idle) (hstep : WalStep crc32c s a s') (hok : AllocOk s a) : FlushCallInv S₀ s' := by
  cases hstep with
  | flush => exact h.flush hpc hok
  | stage hid h0 => exact ⟨h.inv.stage hid h0, h.grows, h.target, h.done⟩
  | append hbody => exact h.append hbody

theorem FlushCallInv.begin (h : WalInv s) (hpc : s.pc = .idle) :
    FlushCallInv s.appended.flatten (flushStep s) := by
  have hinv := flush_idle h hpc
  have hgrows : s.appended.flatten <+: (flushStep s).appended.flatten :=
    (flushStep_appended s).symm ▸ List.prefix_refl _
  have hbound : released (flushStep s) ≤ s.appended.flatten.length := by
    unfold released
    rw [flushStep_appended]
    exact Nat.sub_le _ _
  obtain ⟨F, ids, hring, -, -⟩ := h
  by_cases heq : s.wal.buf.flush_off = s.wal.buf.write_off
  · have hstep : flushStep s = s := by simp only [flushStep, hpc, if_pos heq]
    refine ⟨hinv, hgrows, fun v hv => ?_, fun _ => ?_⟩
    · rw [hstep, hpc] at hv
      cases hv
    · rw [hstep]
      unfold released wal_buf_used
      rw [heq, UInt64.sub_self]
      rfl
  · have hstep : (flushStep s).pc =
        .loop ⟨s.wal.buf.flush_off, s.wal.buf.write_off, s.wal.buf.write_off - s.wal.buf.flush_off⟩ := by
      simp only [flushStep, hpc, if_neg heq]
    refine ⟨hinv, hgrows, fun v hv => ?_, fun hnone => ?_⟩
    · rw [hstep] at hv
      obtain rfl := Option.some.inj hv
      exact ⟨hring.write_off, hbound⟩
    · rw [hstep] at hnone
      cases hnone

theorem FlushCallInv.run {S₀ : List UInt8} {s' : WalSys} (h : FlushCallInv S₀ s)
    (hrun : FlushRun crc32c s s') : FlushCallInv S₀ s' ∧ s'.pc = .idle := by
  induction hrun with
  | returns hidle => exact ⟨h, hidle⟩
  | step hpc hstep hok _ ih => exact ih (h.step hpc hstep hok)

/-- A call that is through has put on the pages what it was to put there. -/
theorem FlushCallInv.walChain {S₀ : List UInt8} (h : FlushCallInv S₀ s) (hidle : s.pc = .idle) :
    WalChain s.pages s.head S₀ := by
  obtain ⟨F, ids, hring, hchain, hpcinv⟩ := h.inv
  have hrel := h.done (by rw [hidle]; rfl)
  rw [hring.released_eq] at hrel
  rw [hidle] at hpcinv
  have hbytes : chainBytes s.pages ids = S₀ := by
    rw [hpcinv.2, hrel]
    exact (List.prefix_iff_eq_take.mp h.grows).symm
  rw [← hbytes]
  exact hchain.walChain

/-- **A call that meets no failure** leaves on the pages what had been appended when it began. -/
theorem FlushCall.walChain {s' : WalSys} (hw : WalInv s) (h : FlushCall crc32c s s') :
    WalChain s'.pages s'.head s.appended.flatten := by
  obtain ⟨hcall, hidle⟩ := (FlushCallInv.begin hw h.1).run h.2
  exact hcall.walChain hidle

/-! ## Section 6: The call comes to an end -/

/-- Bytes the call has still to copy. -/
def FlushPc.left : FlushPc → Nat
  | .loop v | .space v _ | .seg v _ | .alloc v _ | .link v _ | .tailPage v _ | .tailUsed v =>
      v.bytes_to_flush.toNat
  | .copy v _ chunk | .copyRest v _ chunk _ | .used v _ chunk | .tail v _ chunk =>
      v.bytes_to_flush.toNat - chunk.toNat
  | .idle | .lsn | .advance _ => 0

/-- How many steps there are at most before a byte is copied or a page taken. -/
def FlushPc.rank : FlushPc → Nat
  | .copy _ _ _ => 14
  | .copyRest _ _ _ _ => 13
  | .used _ _ _ => 12
  | .tail _ _ _ => 11
  | .link _ _ => 9
  | .tailPage _ _ => 8
  | .tailUsed _ => 7
  | .loop _ => 6
  | .space _ _ => 5
  | .seg _ _ => 4
  | .alloc _ _ => 3
  | .advance _ => 2
  | .lsn => 1
  | .idle => 0

/-- A bound on the steps of the call: no page is taken without need, none filled twice. -/
def work (s : WalSys) : Nat := (s.pc.left + s.staged.length) * 16 + s.pc.rank

/-- Pages enough are staged for what is left, and one page more. -/
def Supplied (s : WalSys) : Prop :=
  match s.pc with
  | .loop v =>
      v.bytes_to_flush.toNat < KDS_WAL_PAGE_PAYLOAD -
        (s.pages s.wal.buf.tail_page_id).used_bytes.toNat + s.staged.length * KDS_WAL_PAGE_PAYLOAD
  | .space v frame =>
      0 < v.bytes_to_flush.toNat ∧
      v.bytes_to_flush.toNat < KDS_WAL_PAGE_PAYLOAD - (s.pages frame).used_bytes.toNat +
        s.staged.length * KDS_WAL_PAGE_PAYLOAD
  | .copy v frame _ | .copyRest v frame _ _ | .used v frame _ =>
      v.bytes_to_flush.toNat < KDS_WAL_PAGE_PAYLOAD - (s.pages frame).used_bytes.toNat +
        s.staged.length * KDS_WAL_PAGE_PAYLOAD
  | .tail v frame chunk =>
      v.bytes_to_flush.toNat - chunk.toNat < KDS_WAL_PAGE_PAYLOAD -
        (s.pages frame).used_bytes.toNat + s.staged.length * KDS_WAL_PAGE_PAYLOAD
  | .seg v _ | .alloc v _ => v.bytes_to_flush.toNat < s.staged.length * KDS_WAL_PAGE_PAYLOAD
  | .link v _ | .tailPage v _ | .tailUsed v =>
      v.bytes_to_flush.toNat < KDS_WAL_PAGE_PAYLOAD + s.staged.length * KDS_WAL_PAGE_PAYLOAD
  | .idle | .lsn | .advance _ => True

theorem AllocOk.of_supplied (h : Supplied s) : AllocOk s .flush := by
  unfold AllocOk
  split
  · next v behind _ hpc =>
    unfold Supplied at h
    rw [hpc] at h
    intro hnil
    simp [hnil] at h
  · trivial

theorem Copying.chunk_le {pages : PageId → WalPage} {S : List UInt8} {F : Nat} {ids : List PageId}
    {frame : PageId} {chunk : UInt32} {done : Nat} (h : Copying pages S F ids v frame chunk done) :
    chunk.toNat ≤ v.bytes_to_flush.toNat ∧
      (pages frame).used_bytes.toNat + chunk.toNat ≤ KDS_WAL_PAGE_PAYLOAD := by
  obtain ⟨P, E, hp, -, hE, hused, -⟩ := h
  have hleft := hp.bytes_eq
  exact ⟨by omega, hused⟩

/-- A step keeps the call supplied and leaves less to do. -/
def Proceeds (s : WalSys) : Prop := Supplied (flushStep s) ∧ work (flushStep s) < work s

theorem supplied_loop (h : Supplied s) (hpc : s.pc = .loop v) : Proceeds s := by
  unfold Supplied at h
  rw [hpc] at h
  unfold Proceeds work
  by_cases hmore : v.bytes_to_flush > 0
  · have hpos : 0 < v.bytes_to_flush.toNat := UInt64.lt_iff_toNat_lt.mp hmore
    simp only [flushStep, hpc, if_pos hmore]
    exact ⟨⟨hpos, h⟩, by simp only [FlushPc.left, FlushPc.rank]; omega⟩
  · simp only [flushStep, hpc, if_neg hmore]
    exact ⟨True.intro, by simp only [FlushPc.left, FlushPc.rank]; omega⟩

/-- A full page costs a staged one, any other takes at least one byte. -/
theorem supplied_space {frame : PageId} (hw : WalInv s) (h : Supplied s)
    (hpc : s.pc = .space v frame) : Proceeds s := by
  obtain ⟨F, ids, -, hchain, hpcinv⟩ := hw
  unfold Supplied at h
  rw [hpc] at h hpcinv
  obtain ⟨hlast, hframe, -⟩ := hpcinv
  have hle : (s.pages frame).used_bytes.toNat ≤ KDS_WAL_PAGE_PAYLOAD := by
    refine hchain.used_le frame ?_
    rw [hframe]
    exact List.mem_of_getLast? hlast
  unfold Proceeds work
  by_cases hfull : UInt32.ofNat KDS_WAL_PAGE_PAYLOAD - (s.pages frame).used_bytes = 0
  · simp only [flushStep, hpc, if_pos hfull]
    refine ⟨?_, by simp only [FlushPc.left, FlushPc.rank]; omega⟩
    show v.bytes_to_flush.toNat < _
    have hroom := h.2
    rw [used_of_space_eq_zero hle hfull, Nat.sub_self, Nat.zero_add] at hroom
    exact hroom
  · have hspace : 0 < KDS_WAL_PAGE_PAYLOAD - (s.pages frame).used_bytes.toNat := by
      by_contra hzero
      refine hfull (UInt32.toNat_inj.mp ?_)
      rw [UInt32.toNat_sub_of_le _ _ (UInt32.le_iff_toNat_le.mpr hle)]
      exact Nat.eq_zero_of_not_pos hzero
    have hpos := h.1
    simp only [flushStep, hpc, if_neg hfull]
    refine ⟨h.2, ?_⟩
    simp only [FlushPc.left, FlushPc.rank, chunk_toNat v.bytes_to_flush hle]
    omega

/-- A `memcpy` changes neither side of the account. -/
theorem supplied_payload {frame : PageId} {pc : FlushPc} (payload : Mem)
    (h : v.bytes_to_flush.toNat < KDS_WAL_PAGE_PAYLOAD - (s.pages frame).used_bytes.toNat +
      s.staged.length * KDS_WAL_PAGE_PAYLOAD)
    (hpc : (∃ chunk first, pc = .copyRest v frame chunk first) ∨ ∃ chunk, pc = .used v frame chunk) :
    Supplied { s.setPage frame { s.pages frame with payload := payload } with pc := pc } := by
  have hsame := used_payload (s := s) frame payload frame
  rcases hpc with ⟨chunk, first, rfl⟩ | ⟨chunk, rfl⟩
  · show _ < _ - ((s.setPage frame _).pages frame).used_bytes.toNat + _
    rw [hsame]
    exact h
  · show _ < _ - ((s.setPage frame _).pages frame).used_bytes.toNat + _
    rw [hsame]
    exact h

theorem supplied_copy {frame : PageId} {chunk : UInt32} (h : Supplied s)
    (hpc : s.pc = .copy v frame chunk) : Proceeds s := by
  unfold Supplied at h
  rw [hpc] at h
  unfold Proceeds work
  simp only [flushStep, hpc]
  split
  · exact ⟨supplied_payload _ h (.inr ⟨chunk, rfl⟩),
      by simp only [FlushPc.left, FlushPc.rank, WalSys.setPage]; omega⟩
  · exact ⟨supplied_payload _ h (.inl ⟨chunk, _, rfl⟩),
      by simp only [FlushPc.left, FlushPc.rank, WalSys.setPage]; omega⟩

theorem supplied_copyRest {frame : PageId} {chunk first : UInt32} (h : Supplied s)
    (hpc : s.pc = .copyRest v frame chunk first) : Proceeds s := by
  unfold Supplied at h
  rw [hpc] at h
  unfold Proceeds work
  simp only [flushStep, hpc]
  exact ⟨supplied_payload _ h (.inr ⟨chunk, rfl⟩),
    by simp only [FlushPc.left, FlushPc.rank, WalSys.setPage]; omega⟩

theorem supplied_used {frame : PageId} {chunk : UInt32} (hw : WalInv s) (h : Supplied s)
    (hpc : s.pc = .used v frame chunk) : Proceeds s := by
  obtain ⟨F, ids, -, -, hpcinv⟩ := hw
  rw [hpc] at hpcinv
  obtain ⟨-, -, hcopying⟩ := hpcinv
  obtain ⟨hchunk, hused⟩ := hcopying.chunk_le
  have hadd : ((s.pages frame).used_bytes + chunk).toNat =
      (s.pages frame).used_bytes.toNat + chunk.toNat := by
    rw [UInt32.toNat_add]
    simp at hused ⊢
    omega
  have hroom : v.bytes_to_flush.toNat < KDS_WAL_PAGE_PAYLOAD - (s.pages frame).used_bytes.toNat +
      s.staged.length * KDS_WAL_PAGE_PAYLOAD := by
    unfold Supplied at h
    rw [hpc] at h
    exact h
  unfold Proceeds work
  simp only [flushStep, hpc]
  refine ⟨?_, by simp only [FlushPc.left, FlushPc.rank, WalSys.setPage]; omega⟩
  show v.bytes_to_flush.toNat - chunk.toNat <
    _ - (Function.update s.pages frame _ frame).used_bytes.toNat +
      s.staged.length * KDS_WAL_PAGE_PAYLOAD
  rw [Function.update_self]
  dsimp only
  rw [hadd]
  omega

theorem supplied_tail {frame : PageId} {chunk : UInt32} (hw : WalInv s) (h : Supplied s)
    (hpc : s.pc = .tail v frame chunk) : Proceeds s := by
  obtain ⟨F, ids, -, -, hpcinv⟩ := hw
  rw [hpc] at hpcinv
  obtain ⟨-, rfl, P, E, hp, hE, -⟩ := hpcinv
  have hleft : (v.bytes_to_flush - chunk.toUInt64).toNat = v.bytes_to_flush.toNat - chunk.toNat := by
    have hbytes := hp.bytes_eq
    rw [UInt64.toNat_sub_of_le, UInt32.toNat_toUInt64]
    rw [UInt64.le_iff_toNat_le, UInt32.toNat_toUInt64]
    omega
  have hroom : v.bytes_to_flush.toNat - chunk.toNat < KDS_WAL_PAGE_PAYLOAD -
      (s.pages s.wal.buf.tail_page_id).used_bytes.toNat + s.staged.length * KDS_WAL_PAGE_PAYLOAD := by
    unfold Supplied at h
    rw [hpc] at h
    exact h
  unfold Proceeds work
  by_cases hfull : (s.pages s.wal.buf.tail_page_id).used_bytes.toNat ≥ KDS_WAL_PAGE_PAYLOAD
  · simp only [flushStep, hpc, WalSys.setBuf, if_pos hfull]
    refine ⟨?_, by simp only [FlushPc.left, FlushPc.rank, hleft]; omega⟩
    show (v.bytes_to_flush - chunk.toUInt64).toNat < _
    rw [Nat.sub_eq_zero_of_le hfull, Nat.zero_add] at hroom
    rw [hleft]
    exact hroom
  · simp only [flushStep, hpc, WalSys.setBuf, if_neg hfull]
    refine ⟨?_, by simp only [FlushPc.left, FlushPc.rank, hleft]; omega⟩
    show (v.bytes_to_flush - chunk.toUInt64).toNat < _
    rw [hleft]
    exact hroom

theorem supplied_alloc {behind : Bool} (h : Supplied s) (hpc : s.pc = .alloc v behind) :
    Proceeds s := by
  have hroom : v.bytes_to_flush.toNat < s.staged.length * KDS_WAL_PAGE_PAYLOAD := by
    unfold Supplied at h
    rw [hpc] at h
    exact h
  obtain ⟨new, rest, hrest⟩ : ∃ new rest, s.staged = new :: rest := by
    cases hstaged : s.staged with
    | nil => simp [hstaged] at hroom
    | cons new rest => exact ⟨new, rest, rfl⟩
  rw [hrest, List.length_cons, Nat.succ_mul] at hroom
  unfold Proceeds work
  simp only [flushStep, hpc, hrest]
  refine ⟨?_, by simp only [FlushPc.left, FlushPc.rank, List.length_cons]; omega⟩
  show v.bytes_to_flush.toNat < KDS_WAL_PAGE_PAYLOAD + rest.length * KDS_WAL_PAGE_PAYLOAD
  omega

theorem supplied_tailUsed (hspace : SpaceInv s) (h : Supplied s) (hpc : s.pc = .tailUsed v) :
    Proceeds s := by
  unfold Supplied at h
  unfold SpaceInv at hspace
  rw [hpc] at h hspace
  unfold Proceeds work
  simp only [flushStep, hpc]
  refine ⟨?_, by simp only [FlushPc.left, FlushPc.rank, WalSys.setBuf]; omega⟩
  show v.bytes_to_flush.toNat < _ - (s.pages s.wal.buf.tail_page_id).used_bytes.toNat + _
  rw [show (s.pages s.wal.buf.tail_page_id).used_bytes = 0 from hspace]
  exact h

/-- **A step of a supplied call** has less to do behind it. -/
theorem Supplied.step (hw : WalInv s) (hspace : SpaceInv s) (h : Supplied s) (hne : s.pc ≠ .idle) :
    Proceeds s := by
  cases hpc : s.pc with
  | idle => exact absurd hpc hne
  | loop v => exact supplied_loop h hpc
  | space v frame => exact supplied_space hw h hpc
  | copy v frame chunk => exact supplied_copy h hpc
  | copyRest v frame chunk first => exact supplied_copyRest h hpc
  | used v frame chunk => exact supplied_used hw h hpc
  | tail v frame chunk => exact supplied_tail hw h hpc
  | alloc v behind => exact supplied_alloc h hpc
  | tailUsed v => exact supplied_tailUsed hspace h hpc
  | seg v behind =>
    unfold Supplied at h
    rw [hpc] at h
    unfold Proceeds work
    simp only [flushStep, hpc]
    exact ⟨h, by simp only [FlushPc.left, FlushPc.rank, WalSys.setBuf]; omega⟩
  | link v new =>
    unfold Supplied at h
    rw [hpc] at h
    unfold Proceeds work
    simp only [flushStep, hpc]
    exact ⟨h, by simp only [FlushPc.left, FlushPc.rank, WalSys.setPage]; omega⟩
  | tailPage v new =>
    unfold Supplied at h
    rw [hpc] at h
    unfold Proceeds work
    simp only [flushStep, hpc]
    exact ⟨h, by simp only [FlushPc.left, FlushPc.rank, WalSys.setBuf]; omega⟩
  | advance v =>
    unfold Proceeds work
    simp only [flushStep, hpc]
    exact ⟨True.intro, by simp only [FlushPc.left, FlushPc.rank, WalSys.setBuf]; omega⟩
  | lsn =>
    unfold Proceeds work
    simp only [flushStep, hpc]
    exact ⟨True.intro, by simp only [FlushPc.left, FlushPc.rank]; omega⟩

theorem Supplied.returns (crc32c : UInt32 → List UInt8 → UInt32) :
    ∀ (n : Nat) (s : WalSys), work s ≤ n → WalInv s → SpaceInv s → Supplied s →
      ∃ s', FlushRun crc32c s s' := by
  intro n
  induction n with
  | zero =>
    intro s hn _ _ _
    refine ⟨s, .returns ?_⟩
    unfold work at hn
    cases hpc : s.pc with
    | idle => rfl
    | _ => rw [hpc] at hn; simp [FlushPc.rank] at hn
  | succ n ih =>
    intro s hn hw hspace hs
    by_cases hidle : s.pc = .idle
    · exact ⟨s, .returns hidle⟩
    · have hok := AllocOk.of_supplied hs
      obtain ⟨hs', hless⟩ := hs.step hw hspace hidle
      obtain ⟨s', hrun⟩ := ih (flushStep s) (by omega) (hw.flush hok) (hspace.flush hw) hs'
      exact ⟨s', .step hidle .flush hok hrun⟩

/-- The pages staged suffice for all that is in the ring. -/
def Enough (s : WalSys) : Prop :=
  (wal_buf_used s.wal.buf).toNat < KDS_WAL_PAGE_PAYLOAD -
    (s.pages s.wal.buf.tail_page_id).used_bytes.toNat + s.staged.length * KDS_WAL_PAGE_PAYLOAD

theorem Enough.returns (hw : WalInv s) (hspace : SpaceInv s) (hidle : s.pc = .idle)
    (h : Enough s) : ∃ s', FlushCall crc32c s s' := by
  have hs : Supplied (flushStep s) := by
    simp only [flushStep, hidle]
    split
    · unfold Supplied
      rw [hidle]
      exact True.intro
    · exact h
  obtain ⟨s', hrun⟩ := Supplied.returns crc32c _ (flushStep s) (Nat.le_refl _) (flush_idle hw hidle)
    (hspace.flush hw) hs
  exact ⟨s', hidle, hrun⟩

end fails

/-! ## Section 7: Harmless failures, and the others -/

/-- **A failed flush loses and duplicates nothing** in a run without the
    harmful failures: what has been released is on the pages, and a call that
    meets no failure leaves the pages with every record appended before it. It
    does come to an end if pages enough are staged. -/
theorem failed_flush_harmless (crc32c : UInt32 → List UInt8 → UInt32) (s : WalSys)
    (h : ((failSystem crc32c).restrict FlushFailOk).Reachable s) :
    ReleasedCopied s ∧
      (∀ s', FlushCall crc32c s s' → WalChain s'.pages s'.head s.appended.flatten) ∧
      (s.pc = .idle → Enough s → ∃ s', FlushCall crc32c s s') := by
  obtain ⟨hw, hspace⟩ := fail_invariant h
  exact ⟨hw.releasedCopied, fun s' hcall => hcall.walChain hw,
    fun hidle henough => henough.returns hw hspace hidle⟩

theorem newLog_init (crc32c : UInt32 → List UInt8 → UInt32) : (failSystem crc32c).init newLog :=
  ⟨walIds, walIds, ⟨by decide, by decide, fun _ h => h⟩, rfl⟩

/-- A COMMIT record is in the ring, and the first load of the tail page has failed. -/
def loadFailed : WalSys :=
  { flushStep (appendStep crc32c_le newLog commitRecord none) with pc := .idle }

theorem loadFailed_reachable : ((failSystem crc32c_le).restrict FlushFailOk).Reachable loadFailed := by
  have happend : ((failSystem crc32c_le).restrict FlushFailOk).Reachable
      (appendStep crc32c_le newLog commitRecord none) :=
    .step (.act (.append commitRecord none)) (.init (newLog_init crc32c_le))
      ⟨.act (.append ⟨by decide, rfl⟩), trivial⟩
  have hidle : (appendStep crc32c_le newLog commitRecord none).pc = .idle :=
    appendStep_pc crc32c_le newLog commitRecord none
  have hne : (appendStep crc32c_le newLog commitRecord none).wal.buf.flush_off ≠
      (appendStep crc32c_le newLog commitRecord none).wal.buf.write_off := by decide +kernel
  have hloop : (flushStep (appendStep crc32c_le newLog commitRecord none)).pc =
      .loop ⟨0, 36, 36⟩ := by
    simp only [flushStep, hidle, if_neg hne]
    rfl
  have hbegin : ((failSystem crc32c_le).restrict FlushFailOk).Reachable
      (flushStep (appendStep crc32c_le newLog commitRecord none)) :=
    happend.step (.act .flush) ⟨.act .flush, by unfold FlushFailOk; rw [hidle]; trivial⟩
  refine hbegin.step .loadFails ⟨.loadFails hloop (by decide), ?_⟩
  unfold FlushFailOk
  rw [hloop]
  show (0 : UInt64) = _
  decide +kernel

/-- The next call puts the record on the pages. -/
theorem failed_flush_harmless_load :
    ∃ s', FlushCall crc32c_le loadFailed s' ∧
      WalChain s'.pages s'.head loadFailed.appended.flatten := by
  obtain ⟨-, hchain, hreturns⟩ := failed_flush_harmless crc32c_le loadFailed loadFailed_reachable
  obtain ⟨s', hcall⟩ := hreturns rfl (by unfold Enough; decide +kernel)
  exact ⟨s', hcall, hchain s' hcall⟩

/-! ### Three failures that are not harmless -/

theorem WalChain.unique {pages : PageId → WalPage} {id : PageId} {bs bs' : List UInt8}
    (h : WalChain pages id bs) (h' : WalChain pages id bs') : bs = bs' := by
  induction h generalizing bs' with
  | last hlast =>
    cases h' with
    | last _ => rfl
    | link hne _ => exact absurd hlast hne
  | link hne _ ih =>
    cases h' with
    | last hlast => exact absurd hlast hne
    | link _ hrest => rw [ih hrest]

theorem fail_reachable_flushSteps {crc32c : UInt32 → List UInt8 → UInt32} :
    ∀ (n : Nat) {s : WalSys}, (failSystem crc32c).Reachable s →
      (failSystem crc32c).Reachable (flushSteps n s) := by
  intro n
  induction n with
  | zero => exact fun h => h
  | succ n ih => exact fun h => ih (h.step (.act .flush) (.act .flush))

theorem flushSteps_appended : ∀ (n : Nat) (s : WalSys), (flushSteps n s).appended = s.appended := by
  intro n
  induction n with
  | zero => exact fun s => rfl
  | succ n ih => exact fun s => (ih (flushStep s)).trans (flushStep_appended s)

/-- Steps of the flusher that are one call without a failure. -/
theorem flushRun_flushSteps {crc32c : UInt32 → List UInt8 → UInt32} :
    ∀ (n : Nat) (s : WalSys), (∀ k < n, (flushSteps k s).pc.isIdle = false ∧
      (flushSteps k s).staged.isEmpty = false) →
        (flushSteps n s).pc.isIdle = true → FlushRun crc32c s (flushSteps n s) := by
  intro n
  induction n with
  | zero => exact fun s _ hidle => .returns (FlushPc.eq_idle hidle)
  | succ n ih =>
    intro s hbusy hidle
    obtain ⟨hfirst, hstaged⟩ := hbusy 0 (Nat.succ_pos n)
    have hok : AllocOk s .flush := by
      unfold AllocOk
      split
      · intro hnil
        rw [flushSteps, hnil] at hstaged
        cases hstaged
      · trivial
    refine .step ?_ .flush hok (ih (flushStep s) (fun k hk => hbusy (k + 1) (by omega)) hidle)
    intro hnow
    rw [flushSteps, hnow] at hfirst
    cases hfirst

/-- A record of 36 + 8192 bytes in the ring, and the pages staged for it. -/
def pagePending (staged : List PageId) : WalSys :=
  appendStep crc32c_le { newLog with staged := staged, cached := 129 :: staged } pageRecord pageBody

theorem pagePending_reachable {staged : List PageId} (h : Staged (129 :: staged) (129 :: staged)) :
    (failSystem crc32c_le).Reachable (pagePending staged) := by
  refine .step (.act (.append pageRecord pageBody)) (.init ⟨_, _, h, rfl⟩) (.act (.append ⟨by decide, ?_⟩))
  show 8192 ≤ pageBytes.length
  exact Nat.le_of_eq length_pageBytes.symm

theorem pagePending_length (staged : List PageId) :
    (pagePending staged).appended.flatten.length = 8228 := by
  obtain ⟨w, hok⟩ : ∃ w, kds_wal_append crc32c_le newLog.wal pageRecord pageBody =
      .ok (.ok (fillHdr crc32c_le newLog.wal pageRecord pageBody), w) :=
    kds_wal_append_of_room (by decide) (by decide)
  have hbody : BodyOk (fillHdr crc32c_le newLog.wal pageRecord pageBody) pageBody := by
    refine ⟨by decide, ?_⟩
    show 8192 ≤ pageBytes.length
    exact Nat.le_of_eq length_pageBytes.symm
  have happended : (pagePending staged).appended =
      [(fillHdr crc32c_le newLog.wal pageRecord pageBody).bytes ++
        bodyBytes (fillHdr crc32c_le newLog.wal pageRecord pageBody) pageBody] := by
    unfold pagePending appendStep
    dsimp only
    rw [hok]
    rfl
  rw [happended, List.flatten_singleton, List.length_append, WalRecHdr.length_bytes,
    (bodyBytes_cases hbody).1]
  rfl

/-- Released bytes that are on no page, and stay so. -/
theorem lost_of_short {s : WalSys} {bs : List UInt8} (hidle : s.pc = .idle)
    (hoff : s.wal.buf.flush_off = s.wal.buf.write_off) (hchain : WalChain s.pages s.head bs)
    (hshort : bs.length < s.appended.flatten.length) :
    ¬ ReleasedCopied s ∧ FlushCall crc32c_le s s ∧
      ¬ WalChain s.pages s.head s.appended.flatten := by
  have hempty : (wal_buf_used s.wal.buf).toNat = 0 := by
    unfold wal_buf_used
    rw [hoff, UInt64.sub_self]
    rfl
  have hstep : flushStep s = s := by simp only [flushStep, hidle, if_pos hoff]
  refine ⟨?_, ⟨hidle, by rw [hstep]; exact .returns hidle⟩, fun h => ?_⟩
  · rintro ⟨bs', hchain', -, hlen⟩
    rw [hchain'.unique hchain] at hlen
    unfold released at hlen
    omega
  · rw [hchain.unique h] at hshort
    exact Nat.lt_irrefl _ hshort

/-- No second page: the call ends its loop and releases all it was to copy. -/
def noPage : WalSys := flushSteps 10 (pagePending [])

/-- The second page is not linked to the first. -/
def notLinked : WalSys :=
  flushSteps 10 { flushSteps 8 (pagePending [130, 131, 132]) with
    pc := .tailPage ⟨8119, 8228, 109⟩ 130 }

/-- The second page cannot be loaded when it is to be filled. -/
def notLoaded : WalSys := { flushSteps 11 (pagePending [130, 131, 132]) with pc := .idle }

/-- The call after it. -/
def loadedAgain : WalSys := flushSteps 18 (flushStep notLoaded)

deriving instance DecidableEq for FlushVars

deriving instance DecidableEq for FlushPc

/-- Both calls come back with the ring empty and one page of the record written. -/
theorem short_end :
    (noPage.pc = .idle ∧ noPage.wal.buf.flush_off = noPage.wal.buf.write_off ∧
      (noPage.pages noPage.head).next_wal_page_id = 0 ∧
      (noPage.pages noPage.head).used_bytes.toNat = 8119) ∧
    (flushSteps 8 (pagePending [130, 131, 132])).pc = .link ⟨8119, 8228, 109⟩ 130 ∧
      notLinked.pc = .idle ∧ notLinked.wal.buf.flush_off = notLinked.wal.buf.write_off ∧
      (notLinked.pages notLinked.head).next_wal_page_id = 0 ∧
      (notLinked.pages notLinked.head).used_bytes.toNat = 8119 := by
  decide +kernel

/-- The call comes back, with the first page filled twice. -/
theorem loadedAgain_end :
    (flushSteps 11 (pagePending [130, 131, 132])).pc = .loop ⟨8119, 8228, 109⟩ ∧
      (∀ k < 18, (flushSteps k (flushStep notLoaded)).pc.isIdle = false ∧
        (flushSteps k (flushStep notLoaded)).staged.isEmpty = false) ∧
      loadedAgain.pc.isIdle = true ∧
      loadedAgain.head = 129 ∧ (loadedAgain.pages 129).next_wal_page_id = 130 ∧
      (loadedAgain.pages 130).next_wal_page_id = 131 ∧
      (loadedAgain.pages 131).next_wal_page_id = 0 ∧
      (loadedAgain.pages 129).used_bytes.toNat = 8119 ∧
      (loadedAgain.pages 130).used_bytes.toNat = 8119 := by
  decide +kernel

theorem threePages_staged : Staged [129, 130, 131, 132] [129, 130, 131, 132] :=
  ⟨by decide, by decide, fun _ h => h⟩

theorem noPage_reachable : (failSystem crc32c_le).Reachable noPage :=
  fail_reachable_flushSteps 10 (pagePending_reachable ⟨by decide, by decide, fun _ h => h⟩)

theorem notLinked_reachable : (failSystem crc32c_le).Reachable notLinked := by
  refine fail_reachable_flushSteps 10 ?_
  exact (fail_reachable_flushSteps 8 (pagePending_reachable threePages_staged)).step .linkFails
    (.linkFails short_end.2.1)

theorem notLoaded_reachable : (failSystem crc32c_le).Reachable notLoaded :=
  (fail_reachable_flushSteps 11 (pagePending_reachable threePages_staged)).step .loadFails
    (.loadFails loadedAgain_end.1 (by decide))

theorem noPage_length : noPage.appended.flatten.length = 8228 := by
  have hsame : noPage.appended = (pagePending []).appended := flushSteps_appended 10 (pagePending [])
  rw [hsame, pagePending_length]

theorem notLinked_length : notLinked.appended.flatten.length = 8228 := by
  have hsame : notLinked.appended = (flushSteps 8 (pagePending [130, 131, 132])).appended := by
    unfold notLinked
    rw [flushSteps_appended]
  rw [hsame, flushSteps_appended, pagePending_length]

theorem notLoaded_length : notLoaded.appended.flatten.length = 8228 := by
  have hsame : notLoaded.appended = (flushSteps 11 (pagePending [130, 131, 132])).appended := by
    rw [notLoaded]
  rw [hsame, flushSteps_appended, pagePending_length]

theorem loadedAgain_call : FlushCall crc32c_le notLoaded loadedAgain := by
  obtain ⟨-, hbusy, hidle, -⟩ := loadedAgain_end
  exact ⟨rfl, flushRun_flushSteps 18 (flushStep notLoaded) hbusy hidle⟩

/-- The first page is on the pages twice. -/
theorem loadedAgain_long {bs : List UInt8} (h : WalChain loadedAgain.pages loadedAgain.head bs) :
    16238 ≤ bs.length := by
  obtain ⟨-, -, -, hhead, hnext, hnext', hlast, hused, hused'⟩ := loadedAgain_end
  have hlinked : Linked loadedAgain.pages [129, 130, 131] :=
    ⟨hnext, by decide, hnext', by decide, hlast⟩
  rw [hhead] at h
  rw [h.unique hlinked.walChain]
  simp only [chainBytes, List.flatMap_cons, List.length_append, WalPage.bytes, Mem.length_read,
    hused, hused']
  omega

/-- **The other failures do harm**: without a second page, or without the link
    to it, the end of the record is released and on no page of the chain, and a
    call that meets no failure changes nothing about it; behind a load that
    fails half-way, the next call copies the first part of the record again. -/
theorem failed_flush_harmful :
    ((failSystem crc32c_le).Reachable noPage ∧ ¬ ReleasedCopied noPage ∧
        FlushCall crc32c_le noPage noPage ∧
        ¬ WalChain noPage.pages noPage.head noPage.appended.flatten) ∧
      ((failSystem crc32c_le).Reachable notLinked ∧ ¬ ReleasedCopied notLinked ∧
        FlushCall crc32c_le notLinked notLinked ∧
        ¬ WalChain notLinked.pages notLinked.head notLinked.appended.flatten) ∧
      (failSystem crc32c_le).Reachable notLoaded ∧ FlushCall crc32c_le notLoaded loadedAgain ∧
        ¬ WalChain loadedAgain.pages loadedAgain.head notLoaded.appended.flatten := by
  refine ⟨⟨noPage_reachable, ?_⟩, ⟨notLinked_reachable, ?_⟩, notLoaded_reachable,
    loadedAgain_call, fun h => ?_⟩
  · obtain ⟨⟨hidle, hoff, hlast, hused⟩, -⟩ := short_end
    refine lost_of_short hidle hoff (.last hlast) ?_
    rw [noPage_length, WalPage.bytes, Mem.length_read, hused]
    decide
  · obtain ⟨-, -, hidle, hoff, hlast, hused⟩ := short_end
    refine lost_of_short hidle hoff (.last hlast) ?_
    rw [notLinked_length, WalPage.bytes, Mem.length_read, hused]
    decide
  · have hlong := loadedAgain_long h
    rw [notLoaded_length] at hlong
    omega

end Kds
