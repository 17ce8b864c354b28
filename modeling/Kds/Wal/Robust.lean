import Mathlib.Data.Fintype.EquivFin
import Kds.Lib.Halts
import Kds.Wal.Recover

/-! # Recovery on arbitrary pages

    `kds_wal_recover` has to get through whatever a crash leaves on the disk.
    Here its two loops are the steps of a machine: `RecoverPc.page` is the
    head of the loop over the pages and `RecoverPc.record` the head of the
    loop over the records of one.

    Two things in the pages steer it with no check. The link to the next page
    may lead back to an earlier one. The length of a record is added to a
    `u32` offset, for a skipped record before anything else is known about it,
    and the checksum reads as many bytes before the length is held against
    the page. `recover_robust_iff` says on which disks neither matters.
-/

open Bytes Machine Relation

namespace Kds

/-! ## Section 1: The walk as a machine -/

/-- What recovery finds: the pages that can be loaded, and what is on them. -/
structure WalDisk where
  loads : PageId → Bool
  pages : PageId → WalPage

/-- Where `kds_wal_recover` stands. -/
inductive RecoverPc where
  | page (page_id : PageId)
  | record (page_id : PageId) (off : UInt32)
  deriving DecidableEq

/-- A record header begins at `off`. -/
def HasHeader (page : WalPage) (off : UInt32) : Prop :=
  off.toNat + KDS_WAL_REC_HDR_SIZE ≤ page.used_bytes.toNat

/-- The record is skipped for its LSN. -/
def Skipped (ckpt_lsn : Lsn) (page : WalPage) (off : UInt32) : Prop :=
  recLsn page.payload off.toNat ≠ KDS_LSN_INVALID ∧ recLsn page.payload off.toNat < ckpt_lsn

/-- The record has passed the checks in front of the `switch`. -/
def Accepted (crc32c : UInt32 → List UInt8 → UInt32) (page : WalPage) (off : UInt32) : Prop :=
  wal_rec_crc_ok crc32c page.payload off.toNat = true ∧
    off.toNat + KDS_WAL_REC_HDR_SIZE + (recBodyLen page.payload off.toNat).toNat ≤
      page.used_bytes.toNat

instance (page : WalPage) (off : UInt32) : Decidable (HasHeader page off) := by
  unfold HasHeader; infer_instance

instance (ckpt_lsn : Lsn) (page : WalPage) (off : UInt32) : Decidable (Skipped ckpt_lsn page off) := by
  unfold Skipped; infer_instance

instance (crc32c : UInt32 → List UInt8 → UInt32) (page : WalPage) (off : UInt32) :
    Decidable (Accepted crc32c page off) := by
  unfold Accepted; infer_instance

/-- `off += KDS_WAL_REC_HDR_SIZE + rec->body_len`, in 32 bits. -/
def behindRecord (page : WalPage) (off : UInt32) : UInt32 :=
  off + UInt32.ofNat KDS_WAL_REC_HDR_SIZE + recBodyLen page.payload off.toNat

/-- Once through the loop over the records: the next offset, or out of the loop. -/
def nextRecord (crc32c : UInt32 → List UInt8 → UInt32) (ckpt_lsn : Lsn) (page : WalPage)
    (off : UInt32) : Option UInt32 :=
  if HasHeader page off then
    if Skipped ckpt_lsn page off then some (behindRecord page off)
    else if Accepted crc32c page off ∧ knownCode (recType page.payload off.toNat) then
      some (behindRecord page off)
    else none
  else none

/-- The page behind `page_id`. A page that is not loaded ends recovery. -/
def nextPage (disk : WalDisk) (page_id : PageId) : Option PageId :=
  if page_id ≠ 0 ∧ disk.loads page_id then some (disk.pages page_id).next_wal_page_id else none

/-- One step of `kds_wal_recover`. -/
def recoverStep (crc32c : UInt32 → List UInt8 → UInt32) (ckpt_lsn : Lsn) (disk : WalDisk) :
    RecoverPc → Option RecoverPc
  | .page page_id => if page_id ≠ 0 ∧ disk.loads page_id then some (.record page_id 0) else none
  | .record page_id off =>
      match nextRecord crc32c ckpt_lsn (disk.pages page_id) off with
      | some off' => some (.record page_id off')
      | none => some (.page (disk.pages page_id).next_wal_page_id)

/-- What `pr_debug` prints of a body: `mod->page_id`, `mod->offset`, `mod->length`
    for codes 1 and 2, `ip->page_id` and `ip->page_type` for code 3. -/
def debugBytes (code : UInt8) : Nat := if code = 1 ∨ code = 2 then 16 else if code = 3 then 9 else 0

/-- The ranges of the payload that are read for the record at `off`, as
    offset and length. `debug` says whether `pr_debug` is compiled in. -/
def recordReads (crc32c : UInt32 → List UInt8 → UInt32) (debug : Bool) (ckpt_lsn : Lsn)
    (page : WalPage) (off : UInt32) : List (Nat × Nat) :=
  let o := off.toNat
  if HasHeader page off then
    if Skipped ckpt_lsn page off then [(o, 8), (o + 28, 4)]
    else
      [(o, KDS_WAL_REC_HDR_SIZE),
        (o + KDS_WAL_REC_HDR_SIZE, (recBodyLen page.payload o).toNat)] ++
      if debug ∧ Accepted crc32c page off then
        [(o + KDS_WAL_REC_HDR_SIZE, debugBytes (recType page.payload o))]
      else []
  else []

/-- Recovery from `ckpt_lsn` on ends, and reads within the payload of each page. -/
structure RecoverRobust (crc32c : UInt32 → List UInt8 → UInt32) (debug : Bool) (ckpt_lsn : Lsn)
    (disk : WalDisk) : Prop where
  halts : Halts (recoverStep crc32c ckpt_lsn disk) (.page (kds_lsn_page_id ckpt_lsn))
  inside : ∀ page_id off,
    ReflTransGen (Next (recoverStep crc32c ckpt_lsn disk)) (.page (kds_lsn_page_id ckpt_lsn))
        (.record page_id off) →
      ∀ r ∈ recordReads crc32c debug ckpt_lsn (disk.pages page_id) off,
        r.1 + r.2 ≤ KDS_WAL_PAGE_PAYLOAD

/-- The page is read: the links lead to it and it can be loaded. -/
def Walked (disk : WalDisk) (start page_id : PageId) : Prop :=
  ReflTransGen (Next (nextPage disk)) start page_id ∧ page_id ≠ 0 ∧ disk.loads page_id

/-- What a page has to be like. The offsets are those the lengths on the page lead to. -/
structure PageOk (crc32c : UInt32 → List UInt8 → UInt32) (debug : Bool) (ckpt_lsn : Lsn)
    (page : WalPage) : Prop where
  skipped : ∀ off, ReflTransGen (Next (nextRecord crc32c ckpt_lsn page)) 0 off →
    HasHeader page off → Skipped ckpt_lsn page off → off.toNat + 32 ≤ KDS_WAL_PAGE_PAYLOAD
  read : ∀ off, ReflTransGen (Next (nextRecord crc32c ckpt_lsn page)) 0 off →
    HasHeader page off → ¬ Skipped ckpt_lsn page off →
      off.toNat + KDS_WAL_REC_HDR_SIZE + (recBodyLen page.payload off.toNat).toNat ≤
        KDS_WAL_PAGE_PAYLOAD
  printed : debug = true → ∀ off,
    ReflTransGen (Next (nextRecord crc32c ckpt_lsn page)) 0 off →
      HasHeader page off → ¬ Skipped ckpt_lsn page off → Accepted crc32c page off →
        off.toNat + KDS_WAL_REC_HDR_SIZE + debugBytes (recType page.payload off.toNat) ≤
          KDS_WAL_PAGE_PAYLOAD
  ends : ∀ off, ReflTransGen (Next (nextRecord crc32c ckpt_lsn page)) 0 off →
    ¬ TransGen (Next (nextRecord crc32c ckpt_lsn page)) off off

section robust

variable {crc32c : UInt32 → List UInt8 → UInt32} {debug : Bool} {ckpt_lsn : Lsn} {disk : WalDisk}
  {page : WalPage} {page_id start : PageId} {off off' : UInt32}

/-! ## Section 2: Where the walk gets -/

theorem next_page (hid : page_id ≠ 0 ∧ disk.loads page_id) :
    Next (recoverStep crc32c ckpt_lsn disk) (.page page_id) (.record page_id 0) := by
  unfold Next recoverStep
  exact if_pos hid

theorem next_record (h : Next (nextRecord crc32c ckpt_lsn (disk.pages page_id)) off off') :
    Next (recoverStep crc32c ckpt_lsn disk) (.record page_id off) (.record page_id off') := by
  unfold Next at h
  unfold Next recoverStep
  dsimp only
  rw [h]

theorem next_leaves (h : nextRecord crc32c ckpt_lsn (disk.pages page_id) off = none) :
    Next (recoverStep crc32c ckpt_lsn disk) (.record page_id off)
      (.page (disk.pages page_id).next_wal_page_id) := by
  unfold Next recoverStep
  dsimp only
  rw [h]

theorem nextPage_eq_some {id : PageId} (h : Next (nextPage disk) page_id id) :
    (page_id ≠ 0 ∧ disk.loads page_id) ∧ id = (disk.pages page_id).next_wal_page_id := by
  unfold Next nextPage at h
  split_ifs at h with hid
  exact ⟨hid, (Option.some.inj h).symm⟩

theorem nextPage_of_loads (hid : page_id ≠ 0 ∧ disk.loads page_id) :
    Next (nextPage disk) page_id (disk.pages page_id).next_wal_page_id := by
  unfold Next nextPage
  exact if_pos hid

/-- The offsets on a page the machine goes through are those of its loop. -/
theorem reaches_records
    (h : ReflTransGen (Next (nextRecord crc32c ckpt_lsn (disk.pages page_id))) off off') :
    ReflTransGen (Next (recoverStep crc32c ckpt_lsn disk)) (.record page_id off)
      (.record page_id off') :=
  h.lift (RecoverPc.record page_id) fun _ _ => next_record

/-- What the places the walk gets to have in common. -/
def RecoverPc.At (crc32c : UInt32 → List UInt8 → UInt32) (ckpt_lsn : Lsn) (disk : WalDisk)
    (start : PageId) : RecoverPc → Prop
  | .page page_id => ReflTransGen (Next (nextPage disk)) start page_id
  | .record page_id off =>
      Walked disk start page_id ∧
        ReflTransGen (Next (nextRecord crc32c ckpt_lsn (disk.pages page_id))) 0 off

theorem RecoverPc.At.step {pc pc' : RecoverPc} (h : pc.At crc32c ckpt_lsn disk start)
    (hstep : Next (recoverStep crc32c ckpt_lsn disk) pc pc') :
    pc'.At crc32c ckpt_lsn disk start := by
  unfold Next at hstep
  cases pc with
  | page page_id =>
    simp only [recoverStep] at hstep
    split_ifs at hstep with hid
    obtain rfl := Option.some.inj hstep
    exact ⟨⟨h, hid⟩, .refl⟩
  | record page_id off =>
    obtain ⟨hwalked, hoff⟩ := h
    simp only [recoverStep] at hstep
    cases hnext : nextRecord crc32c ckpt_lsn (disk.pages page_id) off with
    | none =>
      rw [hnext] at hstep
      obtain rfl := Option.some.inj hstep
      exact hwalked.1.tail (nextPage_of_loads hwalked.2)
    | some off' =>
      rw [hnext] at hstep
      obtain rfl := Option.some.inj hstep
      exact ⟨hwalked, hoff.tail hnext⟩

theorem at_of_reaches {pc : RecoverPc}
    (h : ReflTransGen (Next (recoverStep crc32c ckpt_lsn disk)) (.page start) pc) :
    pc.At crc32c ckpt_lsn disk start := by
  induction h with
  | refl => exact .refl
  | tail _ hstep ih => exact ih.step hstep

/-! ## Section 3: The loops end -/

/-- The machine halts on a page only if the loop over its records ends. -/
theorem halts_records (h : Halts (recoverStep crc32c ckpt_lsn disk) (.record page_id off)) :
    Halts (nextRecord crc32c ckpt_lsn (disk.pages page_id)) off :=
  h.of_map (f := RecoverPc.record page_id) fun _ _ _ hnext => .single (next_record hnext)

/-- A loop over records that ends leads to the next page. -/
theorem reaches_next_page (h : Halts (nextRecord crc32c ckpt_lsn (disk.pages page_id)) off) :
    TransGen (Next (recoverStep crc32c ckpt_lsn disk)) (.record page_id off)
      (.page (disk.pages page_id).next_wal_page_id) := by
  induction h with
  | intro off _ ih =>
    cases hnext : nextRecord crc32c ckpt_lsn (disk.pages page_id) off with
    | none => exact .single (next_leaves hnext)
    | some off' => exact .head (next_record hnext) (ih off' hnext)

theorem reaches_linked (h : Halts (recoverStep crc32c ckpt_lsn disk) (.page start))
    {id : PageId} (hnext : Next (nextPage disk) start id) :
    TransGen (Next (recoverStep crc32c ckpt_lsn disk)) (.page start) (.page id) := by
  obtain ⟨hid, rfl⟩ := nextPage_eq_some hnext
  exact .head (next_page hid) (reaches_next_page (halts_records (h.next (next_page hid))))

theorem reaches_walked (h : Halts (recoverStep crc32c ckpt_lsn disk) (.page start))
    (hreach : ReflTransGen (Next (nextPage disk)) start page_id) :
    ReflTransGen (Next (recoverStep crc32c ckpt_lsn disk)) (.page start) (.page page_id) := by
  induction hreach with
  | refl => exact .refl
  | tail _ hnext ih => exact ih.trans (reaches_linked (h.reaches ih) hnext).to_reflTransGen

/-- The converse of `halts_records`, when the machine halts behind the page. -/
theorem halts_record (h : Halts (nextRecord crc32c ckpt_lsn (disk.pages page_id)) off)
    (hnext : Halts (recoverStep crc32c ckpt_lsn disk)
      (.page (disk.pages page_id).next_wal_page_id)) :
    Halts (recoverStep crc32c ckpt_lsn disk) (.record page_id off) := by
  induction h with
  | intro off _ ih =>
    cases hoff : nextRecord crc32c ckpt_lsn (disk.pages page_id) off with
    | none => exact .of_step (next_leaves hoff) hnext
    | some off' => exact .of_step (next_record hoff) (ih off' hoff)

/-- **Termination** comes down to the two loops. -/
theorem recover_halts_iff :
    Halts (recoverStep crc32c ckpt_lsn disk) (.page start) ↔
      Halts (nextPage disk) start ∧ ∀ page_id, Walked disk start page_id →
        Halts (nextRecord crc32c ckpt_lsn (disk.pages page_id)) 0 := by
  constructor
  · intro h
    refine ⟨h.of_map (f := RecoverPc.page) fun _ _ hj hnext => reaches_linked hj hnext, fun page_id hwalked => ?_⟩
    exact halts_records ((h.reaches (reaches_walked h hwalked.1)).next (next_page hwalked.2))
  · rintro ⟨hlinks, hrecords⟩
    induction hlinks with
    | intro start _ ih =>
      by_cases hid : start ≠ 0 ∧ disk.loads start
      · have hnext := nextPage_of_loads hid
        refine .of_step (next_page hid) (halts_record (hrecords start ⟨.refl, hid⟩) ?_)
        exact ih _ hnext fun page_id hwalked => hrecords page_id ⟨.head hnext hwalked.1, hwalked.2⟩
      · exact .of_stop (if_neg hid)

/-! ## Section 4: On which disks recovery is robust -/

/-- The ranges read at one offset, as bounds on it. -/
theorem recordReads_inside_iff :
    (∀ r ∈ recordReads crc32c debug ckpt_lsn page off, r.1 + r.2 ≤ KDS_WAL_PAGE_PAYLOAD) ↔
      (HasHeader page off → Skipped ckpt_lsn page off →
        off.toNat + 32 ≤ KDS_WAL_PAGE_PAYLOAD) ∧
      (HasHeader page off → ¬ Skipped ckpt_lsn page off →
        off.toNat + KDS_WAL_REC_HDR_SIZE + (recBodyLen page.payload off.toNat).toNat ≤
          KDS_WAL_PAGE_PAYLOAD) ∧
      (debug = true → HasHeader page off → ¬ Skipped ckpt_lsn page off → Accepted crc32c page off →
        off.toNat + KDS_WAL_REC_HDR_SIZE + debugBytes (recType page.payload off.toNat) ≤
          KDS_WAL_PAGE_PAYLOAD) := by
  unfold recordReads
  dsimp only
  by_cases hroom : HasHeader page off
  · by_cases hskip : Skipped ckpt_lsn page off
    · simp [hroom, hskip]
      omega
    · rw [if_pos hroom, if_neg hskip]
      by_cases hprint : debug ∧ Accepted crc32c page off
      · simp [hroom, hskip, hprint]
        omega
      · rw [if_neg hprint]
        have hquiet : debug = true → ¬ Accepted crc32c page off := fun hd ha => hprint ⟨hd, ha⟩
        have hshort : ∀ {o len : Nat}, o + KDS_WAL_REC_HDR_SIZE + len ≤ KDS_WAL_PAGE_PAYLOAD →
            o + KDS_WAL_REC_HDR_SIZE ≤ KDS_WAL_PAGE_PAYLOAD := by omega
        simp only [List.append_nil, List.forall_mem_cons, List.not_mem_nil, false_imp_iff,
          implies_true, and_true]
        exact ⟨fun h => ⟨fun _ hs => absurd hs hskip, fun _ _ => h.2,
          fun hd _ _ ha => absurd ha (hquiet hd)⟩, fun h => ⟨hshort (h.2.1 hroom hskip), h.2.1 hroom hskip⟩⟩
  · simp [hroom]

instance finiteUInt32 : Finite UInt32 := .of_injective UInt32.toFin fun _ _ => UInt32.toFin_inj.mp

instance finiteUInt64 : Finite UInt64 := .of_injective UInt64.toFin fun _ _ => UInt64.toFin_inj.mp

theorem pageOk_iff :
    PageOk crc32c debug ckpt_lsn page ↔
      Halts (nextRecord crc32c ckpt_lsn page) 0 ∧
        ∀ off, ReflTransGen (Next (nextRecord crc32c ckpt_lsn page)) 0 off →
          ∀ r ∈ recordReads crc32c debug ckpt_lsn page off, r.1 + r.2 ≤ KDS_WAL_PAGE_PAYLOAD := by
  constructor
  · intro h
    exact ⟨halts_of_no_cycle h.ends, fun off hoff => recordReads_inside_iff.mpr
      ⟨h.skipped off hoff, h.read off hoff, fun hd => h.printed hd off hoff⟩⟩
  · rintro ⟨hends, hreads⟩
    exact
      { skipped := fun off hoff => (recordReads_inside_iff.mp (hreads off hoff)).1
        read := fun off hoff => (recordReads_inside_iff.mp (hreads off hoff)).2.1
        printed := fun hd off hoff => (recordReads_inside_iff.mp (hreads off hoff)).2.2 hd
        ends := halts_iff_no_cycle.mp hends }

/-- **Recovery is robust** exactly on the disks where no page of the walk leads
    back to itself and every page of it is well formed. -/
theorem recover_robust_iff :
    RecoverRobust crc32c debug ckpt_lsn disk ↔
      (∀ id, ReflTransGen (Next (nextPage disk)) (kds_lsn_page_id ckpt_lsn) id →
        ¬ TransGen (Next (nextPage disk)) id id) ∧
      ∀ id, Walked disk (kds_lsn_page_id ckpt_lsn) id →
        PageOk crc32c debug ckpt_lsn (disk.pages id) := by
  constructor
  · rintro ⟨hhalts, hinside⟩
    obtain ⟨hlinks, hrecords⟩ := recover_halts_iff.mp hhalts
    refine ⟨halts_iff_no_cycle.mp hlinks, fun id hid => pageOk_iff.mpr ⟨hrecords id hid, ?_⟩⟩
    intro off hoff
    refine hinside id off ?_
    exact ((reaches_walked hhalts hid.1).tail (next_page hid.2)).trans (reaches_records hoff)
  · rintro ⟨hlinks, hpages⟩
    refine ⟨recover_halts_iff.mpr ⟨halts_of_no_cycle hlinks, fun id hid => ?_⟩, ?_⟩
    · exact (pageOk_iff.mp (hpages id hid)).1
    · intro id off hreach
      obtain ⟨hid, hoff⟩ := at_of_reaches hreach
      exact (pageOk_iff.mp (hpages id hid)).2 off hoff

/-! ### When a page has no cycle -/

theorem nextRecord_eq_some (h : Next (nextRecord crc32c ckpt_lsn page) off off') :
    HasHeader page off ∧ off' = behindRecord page off ∧
      (¬ Skipped ckpt_lsn page off → Accepted crc32c page off) := by
  unfold Next nextRecord at h
  split_ifs at h with hroom hskip haccepted
  · exact ⟨hroom, (Option.some.inj h).symm, fun hns => absurd hskip hns⟩
  · exact ⟨hroom, (Option.some.inj h).symm, fun _ => haccepted.1⟩

theorem toNat_behindRecord
    (h : off.toNat + KDS_WAL_REC_HDR_SIZE + (recBodyLen page.payload off.toNat).toNat < 2 ^ 32) :
    (behindRecord page off).toNat =
      off.toNat + KDS_WAL_REC_HDR_SIZE + (recBodyLen page.payload off.toNat).toNat := by
  have hsize : (UInt32.ofNat KDS_WAL_REC_HDR_SIZE).toNat = KDS_WAL_REC_HDR_SIZE := by decide
  unfold behindRecord
  rw [UInt32.toNat_add, UInt32.toNat_add, hsize]
  omega

/-- The offset only comes back if the length of a skipped record makes it wrap. -/
theorem no_cycle_of_no_wrap
    (hwrap : ∀ off, HasHeader page off → Skipped ckpt_lsn page off →
      off.toNat + KDS_WAL_REC_HDR_SIZE + (recBodyLen page.payload off.toNat).toNat < 2 ^ 32) :
    ¬ TransGen (Next (nextRecord crc32c ckpt_lsn page)) off off := by
  have hgrows : ∀ {a b : UInt32}, TransGen (Next (nextRecord crc32c ckpt_lsn page)) a b →
      a.toNat < b.toNat := by
    intro a b h
    refine TransGen.trans_induction_on (motive := fun {a b} _ => a.toNat < b.toNat) h ?_ ?_
    · intro a b hnext
      obtain ⟨hroom, rfl, hchecked⟩ := nextRecord_eq_some hnext
      have hsmall : a.toNat + KDS_WAL_REC_HDR_SIZE + (recBodyLen page.payload a.toNat).toNat < 2 ^ 32 := by
        by_cases hskip : Skipped ckpt_lsn page a
        · exact hwrap a hroom hskip
        · exact Nat.lt_of_le_of_lt (hchecked hskip).2 page.used_bytes.toNat_lt
      rw [toNat_behindRecord hsmall, KDS_WAL_REC_HDR_SIZE]
      omega
    · intro a b c _ _ hab hbc
      exact Nat.lt_trans hab hbc
  exact fun h => Nat.lt_irrefl _ (hgrows h)

/-- A length that is checked in front of all else is enough on pages that are not linked in a circle. -/
theorem recover_robust_of_bounds
    (hlinks : ∀ id, ReflTransGen (Next (nextPage disk)) (kds_lsn_page_id ckpt_lsn) id →
      ¬ TransGen (Next (nextPage disk)) id id)
    (hlen : ∀ id off, Walked disk (kds_lsn_page_id ckpt_lsn) id → HasHeader (disk.pages id) off →
      off.toNat + KDS_WAL_REC_HDR_SIZE + (recBodyLen (disk.pages id).payload off.toNat).toNat ≤
        KDS_WAL_PAGE_PAYLOAD) :
    RecoverRobust crc32c false ckpt_lsn disk := by
  refine recover_robust_iff.mpr ⟨hlinks, fun id hid => ?_⟩
  exact
    { skipped := fun off _ hroom _ => by
        have hfits := hlen id off hid hroom
        rw [KDS_WAL_REC_HDR_SIZE] at hfits
        omega
      read := fun off _ hroom _ => hlen id off hid hroom
      printed := fun hd => nomatch hd
      ends := fun off _ => no_cycle_of_no_wrap fun off hroom _ =>
        Nat.lt_of_le_of_lt (hlen id off hid hroom) (by decide) }

/-! ## Section 5: The loops on fuel -/

theorem nextRecord_skipped (hroom : HasHeader page off) (hskip : Skipped ckpt_lsn page off) :
    nextRecord crc32c ckpt_lsn page off = some (behindRecord page off) := by
  rw [nextRecord, if_pos hroom, if_pos hskip]

theorem nextRecord_read (hroom : HasHeader page off) (hskip : ¬ Skipped ckpt_lsn page off) :
    nextRecord crc32c ckpt_lsn page off =
      if Accepted crc32c page off ∧ knownCode (recType page.payload off.toNat) then
        some (behindRecord page off)
      else none := by
  rw [nextRecord, if_pos hroom, if_neg hskip]

/-- Once through the loop, with the records it takes. -/
theorem walkPage_succ (crc32c : UInt32 → List UInt8 → UInt32) (ckpt_lsn : Lsn) (page : WalPage)
    (n : Nat) (off : UInt32) :
    ∃ vs, walkPage crc32c ckpt_lsn page (n + 1) off =
      match nextRecord crc32c ckpt_lsn page off with
      | none => some []
      | some off' => (walkPage crc32c ckpt_lsn page n off').map (vs ++ ·) := by
  rw [walkPage]
  dsimp only
  by_cases hroom : HasHeader page off
  · rw [if_pos (show _ ≤ _ from hroom)]
    by_cases hskip : Skipped ckpt_lsn page off
    · rw [if_pos (show _ ∧ _ from hskip), nextRecord_skipped hroom hskip]
      exact ⟨[], by simp [behindRecord]⟩
    · rw [if_neg (show ¬ (_ ∧ _) from hskip), nextRecord_read hroom hskip]
      by_cases htaken : Accepted crc32c page off ∧ knownCode (recType page.payload off.toNat)
      · obtain ⟨⟨hcrc, hlen⟩, hknown⟩ := htaken
        rw [if_neg (not_not.mpr hcrc), if_neg (Nat.not_lt.mpr hlen), if_pos hknown,
          if_pos ⟨⟨hcrc, hlen⟩, hknown⟩]
        exact ⟨[_], rfl⟩
      · rw [if_neg htaken]
        refine ⟨[], ?_⟩
        split_ifs with hcrc hlen hknown
        · rfl
        · exact absurd ⟨⟨hcrc, Nat.not_lt.mp hlen⟩, hknown⟩ htaken
        · rfl
        · rfl
  · rw [if_neg (show ¬ _ ≤ _ from hroom), nextRecord, if_neg hroom]
    exact ⟨[], rfl⟩

theorem walkPage_returns_iff :
    (∃ n vs, walkPage crc32c ckpt_lsn page n off = some vs) ↔
      Halts (nextRecord crc32c ckpt_lsn page) off := by
  constructor
  · rintro ⟨n, vs, h⟩
    induction n generalizing off vs with
    | zero => cases h
    | succ n ih =>
      obtain ⟨here, heq⟩ := walkPage_succ crc32c ckpt_lsn page n off
      cases hnext : nextRecord crc32c ckpt_lsn page off with
      | none => exact .of_stop hnext
      | some off' =>
        rw [heq, hnext] at h
        obtain ⟨rest, hrest, -⟩ := Option.map_eq_some_iff.mp h
        exact .of_step hnext (ih _ hrest)
  · intro h
    induction h with
    | intro off _ ih =>
      cases hnext : nextRecord crc32c ckpt_lsn page off with
      | none =>
        obtain ⟨here, heq⟩ := walkPage_succ crc32c ckpt_lsn page 0 off
        rw [hnext] at heq
        exact ⟨1, [], heq⟩
      | some off' =>
        obtain ⟨n, vs, hwalk⟩ := ih off' hnext
        obtain ⟨here, heq⟩ := walkPage_succ crc32c ckpt_lsn page n off
        rw [hnext] at heq
        dsimp only at heq
        rw [hwalk] at heq
        exact ⟨n + 1, here ++ vs, heq⟩

end robust

/-- A disk on which every page can be loaded. -/
def WalDisk.all (pages : PageId → WalPage) : WalDisk where
  loads _ := true
  pages := pages

@[simp] theorem WalDisk.all_pages (pages : PageId → WalPage) : (WalDisk.all pages).pages = pages := rfl

section fuel

variable {crc32c : UInt32 → List UInt8 → UInt32} {ckpt_lsn : Lsn} {pages : PageId → WalPage}
  {start : PageId}

theorem recoverChain_returns {n : Nat} {vs : List Visit}
    (h : recoverChain crc32c ckpt_lsn pages n start = some vs) :
    Halts (recoverStep crc32c ckpt_lsn (.all pages)) (.page start) := by
  induction n generalizing start vs with
  | zero => cases h
  | succ n ih =>
    unfold recoverChain at h
    by_cases hid : start = 0
    · exact .of_stop (if_neg fun hne => hne.1 hid)
    · rw [if_neg hid] at h
      cases hwalk : walkPage crc32c ckpt_lsn (pages start) (n + 1) 0 with
      | none =>
        rw [hwalk] at h
        cases h
      | some visits =>
        rw [hwalk] at h
        obtain ⟨rest, hrest, -⟩ := Option.map_eq_some_iff.mp h
        refine .of_step (next_page ⟨hid, rfl⟩) (halts_record ?_ (ih hrest))
        exact walkPage_returns_iff.mp ⟨_, _, hwalk⟩

/-- **The two forms of recovery** agree: with enough fuel it returns exactly if the machine halts. -/
theorem kds_wal_recover_returns_iff :
    (∃ fuel vs, kds_wal_recover crc32c pages ckpt_lsn fuel = some vs) ↔
      Halts (recoverStep crc32c ckpt_lsn (.all pages)) (.page (kds_lsn_page_id ckpt_lsn)) := by
  constructor
  · rintro ⟨fuel, vs, h⟩
    exact recoverChain_returns h
  · intro h
    unfold kds_wal_recover
    generalize kds_lsn_page_id ckpt_lsn = start at h
    obtain ⟨hlinks, hrecords⟩ := recover_halts_iff.mp h
    clear h
    induction hlinks with
    | intro start _ ih =>
      by_cases hid : start = 0
      · refine ⟨1, [], ?_⟩
        unfold recoverChain
        rw [if_pos hid]
      · have hnext : Next (nextPage (.all pages)) start _ := nextPage_of_loads ⟨hid, rfl⟩
        obtain ⟨n, rest, hrest⟩ := ih _ hnext fun id hwalked =>
          hrecords id ⟨.head hnext hwalked.1, hwalked.2⟩
        obtain ⟨m, visits, hwalk⟩ := walkPage_returns_iff.mpr (hrecords start ⟨.refl, hid, rfl⟩)
        rw [WalDisk.all_pages] at hrest hwalk
        refine ⟨max n m + 1, visits ++ rest, ?_⟩
        unfold recoverChain
        rw [if_neg hid, walkPage_mono hwalk _ (by omega)]
        dsimp only
        rw [recoverChain_mono hrest _ (by omega)]
        rfl

end fuel

/-! ## Section 6: Three disks recovery does not survive -/

/-- A record header alone on page 129. -/
def oneHeaderPage (hdr : WalRecHdr) : WalPage :=
  { newWalPage 1 (kds_lsn_make 129 0) with
    used_bytes := UInt32.ofNat KDS_WAL_REC_HDR_SIZE
    payload := fun a => hdr.bytes.getD a 0 }

/-- Page 129 is linked to itself. -/
def selfLinked : WalDisk :=
  .all fun _ => { newWalPage 1 (kds_lsn_make 129 0) with next_wal_page_id := 129 }

/-- An old record is skipped, and the length makes the offset wrap to where it was. -/
def skipsInPlace : WalDisk :=
  .all fun _ => oneHeaderPage { commitRecord with lsn := 1, body_len := 4294967260 }

/-- The body of a record is to be longer than the page. -/
def longBody : WalDisk :=
  .all fun _ => oneHeaderPage { commitRecord with lsn := kds_lsn_make 129 0, body_len := 8192 }

theorem selfLinked_cycle : Next (nextPage selfLinked) 129 129 := by
  unfold Next nextPage selfLinked
  decide

theorem skipsInPlace_cycle :
    Next (nextRecord crc32c_le (kds_lsn_make 129 0) (skipsInPlace.pages 129)) 0 0 := by
  unfold Next
  decide

theorem longBody_read :
    HasHeader (longBody.pages 129) 0 ∧ ¬ Skipped (kds_lsn_make 129 0) (longBody.pages 129) 0 ∧
      (recBodyLen (longBody.pages 129).payload 0).toNat = 8192 := by
  decide

/-- None of the three disks is recovered from: the links go round, the
    records of a page go round, and the checksum is taken over more than the page. -/
theorem recover_not_robust :
    ¬ RecoverRobust crc32c_le false (kds_lsn_make 129 0) selfLinked ∧
      ¬ RecoverRobust crc32c_le false (kds_lsn_make 129 0) skipsInPlace ∧
      ¬ RecoverRobust crc32c_le false (kds_lsn_make 129 0) longBody := by
  have hstart : kds_lsn_page_id (kds_lsn_make 129 0) = 129 := by decide
  refine ⟨fun h => ?_, fun h => ?_, fun h => ?_⟩
  · have hlinks := (recover_halts_iff.mp h.halts).1
    rw [hstart] at hlinks
    exact hlinks.no_cycle (.single selfLinked_cycle)
  · have hrecords := (recover_halts_iff.mp h.halts).2 129 (by rw [hstart]; exact ⟨.refl, by decide, rfl⟩)
    exact hrecords.no_cycle (.single skipsInPlace_cycle)
  · obtain ⟨hroom, hskip, hlen⟩ := longBody_read
    have hreads := h.inside 129 0 (by rw [hstart]; exact .single (next_page ⟨by decide, rfl⟩))
    have hend := (recordReads_inside_iff.mp hreads).2.1 hroom hskip
    rw [UInt32.toNat_zero, hlen] at hend
    exact absurd hend (by decide)

end Kds
