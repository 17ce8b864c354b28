import Kds.Exec.HeapInsert
import Kds.Exec.UniqueKeys

/-! # Primary keys of HEAP tables

    Clients insert rows into one HEAP table. `kds_dshell_proc_run` gives the
    exec of every client that waits one slice, in the order of the client
    list, and starts over at the head of the list when an exec asks for more.

    An exec that has looked for its key and not yet placed its row relies on
    what it saw: on no row with its key in the pages behind its cursor, and in
    the whole chain once it looks for space. A row that another client places
    in between is not seen. Keys stay unique in the runs in which no client
    gets a slice while another one is under way with the same key.
-/

open Bytes Lts

namespace Kds

/-! ## Section 1: The chain of a table -/

section table

variable (rel : Relation) (env : ExecEnv)

/-- The page behind `id`, 0 at the end. -/
def ExecEnv.next (id : PageId) : PageId := heap_get_next_page_id (env.pool.frame id)

/-- The pages of the table: from the root along the links. -/
inductive ChainPage : PageId → Prop where
  | root : ChainPage rel.root_page_id
  | next {id : PageId} : ChainPage id → env.next id ≠ 0 → ChainPage (env.next id)

/-- No two rows of the table have the same key. -/
def UniqueRows : Prop :=
  ∀ id id' i j key, ChainPage rel env id → ChainPage rel env id' →
    HoldsRow (env.page id) i key → HoldsRow (env.page id') j key → id = id' ∧ i = j

end table

/-- The length of the row in slot `i`. -/
def rowLen (m : Mem) (i : Nat) : Nat := (heapTupleHdr m (slotOffset m i)).data_len.toNat

/-- A heap page whose rows are long enough for a key. -/
structure RowPage (m : Mem) : Prop where
  inv : HeapInv m
  long : ∀ i, LiveSlot m i → 8 ≤ rowLen m i

/-- The chain, page by page. -/
structure HeapChain (rel : Relation) (env : ExecEnv) (pages : List PageId) : Prop where
  kind : rel.kind = .heap
  head : pages.head? = some rel.root_page_id
  link : ∀ pre id post, pages = pre ++ id :: post → env.next id = post.headD 0
  rows : ∀ id ∈ pages, RowPage (env.page id)
  nodup : (pages ++ env.staged).Nodup
  nonzero : 0 ∉ pages ++ env.staged

/-- No row of these pages has the key. -/
def Absent (env : ExecEnv) (pages : List PageId) (key : TupleId) : Prop :=
  ∀ id ∈ pages, ∀ i, ¬ HoldsRow (env.page id) i key

/-- These pages are as before, and no page came into the ring. -/
structure Kept (env env' : ExecEnv) (pages : List PageId) : Prop where
  page : ∀ id ∈ pages, env'.page id = env.page id
  staged : env'.staged <:+ env.staged

theorem Kept.refl (env : ExecEnv) (pages : List PageId) : Kept env env pages :=
  ⟨fun _ _ => rfl, List.suffix_refl _⟩

theorem Kept.trans {env env' env'' : ExecEnv} {pages : List PageId} (h : Kept env env' pages)
    (h' : Kept env' env'' pages) : Kept env env'' pages :=
  ⟨fun id hid => (h'.page id hid).trans (h.page id hid), h'.staged.trans h.staged⟩

section chain

variable {rel : Relation} {env env' : ExecEnv} {pages : List PageId}

theorem ExecEnv.next_eq (env : ExecEnv) (id : PageId) :
    env.next id = (env.page id).readU64 KDS_HEAP_NEXT_PAGE_OFFSET := rfl

theorem Kept.next (h : Kept env env' pages) {id : PageId} (hid : id ∈ pages) :
    env'.next id = env.next id := by
  rw [ExecEnv.next_eq, ExecEnv.next_eq, h.page id hid]

theorem HeapChain.kept (h : HeapChain rel env pages) (hk : Kept env env' pages) :
    HeapChain rel env' pages where
  kind := h.kind
  head := h.head
  link := by
    intro pre id post hsplit
    rw [hk.next (by rw [hsplit]; simp)]
    exact h.link pre id post hsplit
  rows := by
    intro id hid
    rw [hk.page id hid]
    exact h.rows id hid
  nodup := h.nodup.sublist (hk.staged.sublist.append_left pages)
  nonzero := by
    intro h0
    apply h.nonzero
    rw [List.mem_append] at h0 ⊢
    exact h0.imp id fun hmem => hk.staged.subset hmem

theorem Absent.kept {key : TupleId} (h : Absent env pages key) (hk : Kept env env' pages) :
    Absent env' pages key := by
  intro id hid i
  rw [hk.page id hid]
  exact h id hid i

/-- The pages found along the links are the ones of the list. -/
theorem HeapChain.chainPage_iff (h : HeapChain rel env pages) (id : PageId) :
    ChainPage rel env id ↔ id ∈ pages := by
  constructor
  · intro hpage
    induction hpage with
    | root => exact List.mem_of_mem_head? h.head
    | @next id _ hne ih =>
      obtain ⟨pre, post, hsplit⟩ := List.append_of_mem ih
      have hlink := h.link pre id post hsplit
      cases post with
      | nil => exact absurd hlink hne
      | cons b post =>
        rw [hlink, hsplit]
        simp
  · -- along the list, from its head
    have hall : ∀ pre id post, pages = pre ++ id :: post → ChainPage rel env id := by
      intro pre
      induction pre using List.reverseRecOn with
      | nil =>
        intro id post hsplit
        have hhead := h.head
        rw [hsplit] at hhead
        obtain rfl : id = rel.root_page_id := by simpa using hhead
        exact ChainPage.root
      | append_singleton pre b ih =>
        intro id post hsplit
        rw [List.append_assoc] at hsplit
        have hlink : env.next b = id := h.link pre b (id :: post) hsplit
        have hne : id ≠ 0 := by
          rintro rfl
          exact h.nonzero (by rw [hsplit]; simp)
        have hb := ChainPage.next (ih b (id :: post) hsplit) (by rw [hlink]; exact hne)
        rwa [hlink] at hb
    intro hid
    obtain ⟨pre, post, hsplit⟩ := List.append_of_mem hid
    exact hall pre id post hsplit

end chain

/-! ## Section 2: What a page operation leaves -/

/-- One slot of the scan: dead ones are passed, and a row is too long for the
    buffer, or the one that is looked for, or passed as well. -/
theorem scanSlots_succ {f : Frame} {slot : Nat} (hslot : slot < 2 ^ 16)
    (hlong : LiveSlot f.page slot → 8 ≤ rowLen f.page slot) (key : TupleId) (n : Nat) :
    scanSlots f key slot (n + 1) =
      if LiveSlot f.page slot then
        if KDS_EXEC_ROW_SCAN_BUF.toNat < rowLen f.page slot then .error .ENOSPC
        else if rowKey f.page slot = key then .ok true
        else scanSlots f key (slot + 1) n
      else scanSlots f key (slot + 1) n := by
  have hidx : (UInt16.ofNat slot).toNat = slot := by
    rw [UInt16.toNat_ofNat']
    exact Nat.mod_eq_of_lt hslot
  rw [scanSlots]
  by_cases hlive : LiveSlot f.page slot
  · rw [if_pos hlive, heap_read_live (by rwa [hidx]), hidx]
    have hbig : (heapTupleHdr f.page (slotOffset f.page slot)).data_len > KDS_EXEC_ROW_SCAN_BUF ↔
        KDS_EXEC_ROW_SCAN_BUF.toNat < rowLen f.page slot := UInt16.lt_iff_toNat_lt
    by_cases hfits : KDS_EXEC_ROW_SCAN_BUF.toNat < rowLen f.page slot
    · rw [if_pos (hbig.mpr hfits), if_pos hfits]
    · rw [if_neg (fun h => hfits (hbig.mp h)), if_neg hfits]
      have h8 : ¬ (heapTupleHdr f.page (slotOffset f.page slot)).data_len < 8 := by
        rw [UInt16.lt_iff_toNat_lt, Nat.not_lt]
        exact hlong hlive
      have hkey : UInt64.ofNat (leNat ((f.page.read (slotOffset f.page slot +
          KDS_HEAP_TUPLE_HDR_SIZE) KDS_EXEC_ROW_SCAN_BUF.toNat).take 8)) = rowKey f.page slot := by
        show UInt64.ofNat (leNat ((f.page.read _ (8 + 248)).take 8)) = _
        rw [Mem.read_add, List.take_left' (by simp)]
        rfl
      dsimp only
      rw [if_neg h8, hkey]
  · rw [if_neg hlive, heap_read_enoent_iff.mpr (by rwa [hidx])]

/-- A slot the scan passes does not hold the key. -/
theorem scanSlots_absent {f : Frame} (hlong : ∀ i, LiveSlot f.page i → 8 ≤ rowLen f.page i)
    (key : TupleId) (count : Nat) : ∀ slot, slot + count = (heap_nr_slots f).toNat →
    scanSlots f key slot count = .ok false → ∀ i, slot ≤ i → ¬ HoldsRow f.page i key := by
  induction count with
  | zero =>
    intro slot hslot _ i hi hrow
    have hlt : i < (heap_nr_slots f).toNat := hrow.1.1
    omega
  | succ count ih =>
    intro slot hslot hscan i hi hrow
    have hlt := (heap_nr_slots f).toNat_lt
    -- either the row is in a later slot, or the scan has to stop here
    have hlater : scanSlots f key (slot + 1) count = .ok false → i ≠ slot → False := by
      intro hrest hne
      exact ih (slot + 1) (by omega) hrest i (by omega) hrow
    rw [scanSlots_succ (by omega) (hlong slot)] at hscan
    split_ifs at hscan with hlive hbig heq
    · simp at hscan
    · refine hlater hscan ?_
      rintro rfl
      exact heq hrow.2
    · refine hlater hscan ?_
      rintro rfl
      exact hlive hrow.1

/-- A page behind an insert: the old rows, and the new one in a slot of its own. -/
structure RowPut (m m' : Mem) (key : TupleId) : Prop where
  page : RowPage m'
  rows : ∀ i k, HoldsRow m' i k ↔
    HoldsRow m i k ∨ (i = (heapMeta m).nr_slots.toNat ∧ k = key)
  next : m'.readU64 KDS_HEAP_NEXT_PAGE_OFFSET = m.readU64 KDS_HEAP_NEXT_PAGE_OFFSET

theorem RowPage.insert {f f' : Frame} {d : Mem} {data_len : UInt16} {xmin : UInt64} {tid : HeapTid}
    (h : RowPage f.page) (hlen : 8 ≤ data_len.toNat)
    (hrun : heap_insert_tuple f (some d) data_len xmin = (.ok tid, f')) :
    RowPut f.page f'.page (d.readU64 0) := by
  obtain ⟨-, heff⟩ := heap_insert_effect h.inv hrun
  have hup := h.inv.upper_le
  refine ⟨⟨heff.inv h.inv, ?_⟩, heff.holdsRow_iff h.inv hlen, ?_⟩
  · intro i hi
    rcases heff.live_cases h.inv hi with rfl | ⟨hl, heq⟩
    · rw [rowLen, heff.newSlot.1, heff.newHdr]
      exact hlen
    · have hoff : slotOffset f'.page i = slotOffset f.page i := by rw [slotOffset, slotOffset, heq]
      have hle := h.inv.upper_le_offset i hl
      have hhdr : heapTupleHdr f'.page (slotOffset f.page i) =
          heapTupleHdr f.page (slotOffset f.page i) :=
        heapTupleHdr_congr fun a ha _ => heff.tuples a (by omega)
      rw [rowLen, hoff, hhdr]
      exact h.long i hl
  · exact Mem.readU64_congr fun a ha _ => heff.tuples a (by omega)

/-- Setting the link changes no row. -/
theorem RowPage.setNext {m m' : Mem} {next : PageId} (h : RowPage m)
    (heff : SetNextEffect m m' next) :
    RowPage m' ∧ ∀ i k, HoldsRow m' i k ↔ HoldsRow m i k := by
  have hlive : ∀ i, LiveSlot m' i ↔ LiveSlot m i := by
    intro i
    unfold LiveSlot
    rw [heff.meta_eq]
    constructor
    · intro hi
      rw [heff.slot_eq h.inv hi.1] at hi
      exact hi
    · intro hi
      rw [heff.slot_eq h.inv hi.1]
      exact hi
  -- a live row lies in front of the link
  have hsame : ∀ i, LiveSlot m i → rowLen m' i = rowLen m i ∧ rowKey m' i = rowKey m i := by
    intro i hi
    have hoff : slotOffset m' i = slotOffset m i := by
      rw [slotOffset, slotOffset, heff.slot_eq h.inv hi.1]
    have hend := h.inv.end_le i hi
    have hfit := h.inv.data_fits i hi
    have hlong := h.long i hi
    unfold rowLen at hlong
    simp only [KDS_HEAP_NEXT_PAGE_OFFSET, KDS_PAGE_SIZE, KDS_HEAP_TUPLE_HDR_SIZE] at hend hfit
    constructor
    · rw [rowLen, rowLen, hoff, heapTupleHdr_congr fun a _ _ => heff.outside a (by simp; omega)]
    · rw [rowKey, rowKey, hoff]
      exact Mem.readU64_congr fun a _ ha => heff.outside a (by simp at ha ⊢; omega)
  refine ⟨⟨heff.inv h.inv, ?_⟩, ?_⟩
  · intro i hi
    rw [(hsame i ((hlive i).mp hi)).1]
    exact h.long i ((hlive i).mp hi)
  · intro i k
    unfold HoldsRow
    rw [hlive i]
    constructor
    · intro hi
      exact ⟨hi.1, (hsame i hi.1).2 ▸ hi.2⟩
    · intro hi
      exact ⟨hi.1, (hsame i hi.1).2.trans hi.2⟩

/-- A new page: no rows, no next page. -/
theorem rowPage_init (f : Frame) :
    RowPage (heap_init_page f).page ∧ (∀ i key, ¬ HoldsRow (heap_init_page f).page i key) ∧
      heap_get_next_page_id (heap_init_page f) = 0 := by
  obtain ⟨hinv, hnone, -⟩ := heap_init_page_empty f
  refine ⟨⟨hinv, fun i hi => absurd ⟨hi, rfl⟩ (hnone i _)⟩, hnone, ?_⟩
  show (Mem.write _ KDS_HEAP_NEXT_PAGE_OFFSET (u64Bytes 0)).readU64 KDS_HEAP_NEXT_PAGE_OFFSET = 0
  exact Mem.readU64_of_read (Mem.read_write_same _ _ _)

/-! ## Section 3: The walks -/

/-- The exec inserts a row of this table. -/
structure HeapJob (rel : Relation) (exec : HeapInsertExec) : Prop where
  rel_eq : exec.rel = some rel
  len_ge : 8 ≤ exec.data_len.toNat
  len_le : exec.data_len.toNat ≤ 256
  pk : exec.new_pk = exec.data.readU64 0

/-- No row in front of the cursor has the key. -/
def Scanned (env : ExecEnv) (pages : List PageId) (exec : HeapInsertExec) : Prop :=
  ∃ pre suf, pages = pre ++ suf ∧ exec.cursor_page_id = suf.headD 0 ∧ Absent env pre exec.new_pk

/-- What an exec relies on when it is called. -/
def ExecInv (rel : Relation) (env : ExecEnv) (pages : List PageId) (exec : HeapInsertExec) : Prop :=
  HeapJob rel exec ∧
    match exec.phase with
    | .dupScan => Scanned env pages exec ∧ exec.cursor_page_id ≠ 0
    | .findTail => Absent env pages exec.new_pk ∧ exec.cursor_page_id ∈ pages
    | _ => False

/-- The row with this key is in, where no row with it was. -/
structure Placed (rel : Relation) (env : ExecEnv) (pages : List PageId) (key : TupleId)
    (env' : ExecEnv) (pages' : List PageId) : Prop where
  chain : HeapChain rel env' pages'
  grows : pages <+: pages'
  staged : env'.staged <:+ env.staged
  absent : Absent env pages key
  rows : ∃ id₀ i₀, ∀ id i k, (id ∈ pages' ∧ HoldsRow (env'.page id) i k) ↔
    (id ∈ pages ∧ HoldsRow (env.page id) i k) ∨ (id = id₀ ∧ i = i₀ ∧ k = key)

/-- What a slice of an exec does to the table. -/
inductive SliceDone (rel : Relation) (env : ExecEnv) (pages : List PageId) (key : TupleId) :
    ExecResult → HeapInsertExec → ExecEnv → Prop where
  | waits {exec' : HeapInsertExec} {env' : ExecEnv} :
      Kept env env' pages → ExecInv rel env' pages exec' →
        SliceDone rel env pages key .cont exec' env'
  | fails {exec' : HeapInsertExec} {env' : ExecEnv} :
      Kept env env' pages → SliceDone rel env pages key .error exec' env'
  | places {exec' : HeapInsertExec} {env' : ExecEnv} {pages' : List PageId} :
      Placed rel env pages key env' pages' → SliceDone rel env pages key .done exec' env'

section walks

variable {rel : Relation} {env : ExecEnv} {pages : List PageId} {exec : HeapInsertExec}

theorem Kept.of_frame {env' : ExecEnv} (hf : env'.pool.frame = env.pool.frame)
    (hs : env'.staged = env.staged) : Kept env env' pages := by
  refine ⟨fun id _ => ?_, ?_⟩
  · unfold ExecEnv.page
    rw [hf]
  · exact hs ▸ List.suffix_refl _

/-- Looking at the clock changes no page. -/
theorem slice_kept (env : ExecEnv) (pages : List PageId) :
    Kept env (kds_exec_slice_expired env).2 pages := by
  unfold kds_exec_slice_expired
  cases env.ticks with
  | nil => exact Kept.refl _ _
  | cons t ticks => exact Kept.of_frame rfl rfl

theorem HeapJob.fail (h : HeapJob rel exec) (e : Errno) : HeapJob rel (exec.fail e) :=
  ⟨h.rel_eq, h.len_ge, h.len_le, h.pk⟩

theorem HeapJob.goTo (h : HeapJob rel exec) (id : PageId) : HeapJob rel (exec.goTo id) :=
  ⟨h.rel_eq, h.len_ge, h.len_le, h.pk⟩

/-- One page of the scan. -/
theorem scan_page_spec (h : HeapChain rel env pages) {id : PageId} (hid : id ∈ pages)
    (key : TupleId) {res : Except Errno (Bool × PageId)} {pool : Pool}
    (hrun : kds_heap_scan_page_for_pk env.pool id key = (res, pool)) :
    pool.frame = env.pool.frame ∧ ∀ next, res = .ok (false, next) →
      next = env.next id ∧ ∀ i, ¬ HoldsRow (env.page id) i key := by
  unfold kds_heap_scan_page_for_pk at hrun
  cases hload : kds_buf_lookup_or_load env.pool id with
  | mk lres p =>
    obtain ⟨hloads, hok⟩ := lookup_or_load_loadOnly hload
    have hframe := hloads.frame
    rw [hload] at hrun
    cases lres with
    | error e =>
      obtain ⟨rfl, rfl⟩ := Prod.mk.inj hrun
      exact ⟨hframe, fun next hn => by simp at hn⟩
    | ok frame =>
      obtain ⟨rfl, -⟩ := hok frame rfl
      dsimp only at hrun
      rw [hframe] at hrun
      cases hscan : scanSlots (env.pool.frame frame) key 0
          (heap_nr_slots (env.pool.frame frame)).toNat with
      | error e =>
        rw [hscan] at hrun
        obtain ⟨rfl, rfl⟩ := Prod.mk.inj hrun
        exact ⟨hframe, fun next hn => by simp at hn⟩
      | ok found =>
        rw [hscan] at hrun
        obtain ⟨rfl, rfl⟩ := Prod.mk.inj hrun
        refine ⟨hframe, ?_⟩
        intro next hn
        obtain ⟨rfl, rfl⟩ := Prod.mk.inj (Except.ok.inj hn)
        refine ⟨rfl, fun i => ?_⟩
        exact scanSlots_absent (h.rows frame hid).long key _ 0 (Nat.zero_add _) hscan i (Nat.zero_le i)

/-- The scan goes one page on. -/
theorem Scanned.pass {env' : ExecEnv} {pre suf : List PageId} {b : PageId}
    (h : HeapChain rel env pages) (hpages : pages = pre ++ b :: suf)
    (habs : Absent env pre exec.new_pk) (hrow : ∀ i, ¬ HoldsRow (env.page b) i exec.new_pk)
    (hk : Kept env env' pages) : Scanned env' pages (exec.goTo (env.next b)) := by
  have hlink := h.link pre b suf hpages
  refine ⟨pre ++ [b], suf, by rw [hpages]; simp, hlink, ?_⟩
  intro id hid i
  rw [hk.page id (by rw [hpages]; simp at hid ⊢; tauto)]
  rcases List.mem_append.mp hid with hid | hid
  · exact habs id hid i
  · obtain rfl := List.mem_singleton.mp hid
    exact hrow i

/-- **The scan**: when it is through, no row has the key; when it stops on
    the way, none in front of the cursor. -/
theorem dup_scan_spec (turns : Nat) : ∀ {env : ExecEnv} {exec : HeapInsertExec},
    HeapChain rel env pages → HeapJob rel exec → exec.phase = .dupScan → Scanned env pages exec →
    ∀ {r exec' env'}, heap_insert_run_dup_scan exec env turns = some (r, exec', env') →
      Kept env env' pages ∧ HeapJob rel exec' ∧ exec'.new_pk = exec.new_pk ∧
        (r = .cont → exec'.phase = .dupScan ∧ Scanned env' pages exec' ∧ exec'.cursor_page_id ≠ 0) ∧
        (r = .done → Absent env' pages exec.new_pk) := by
  induction turns with
  | zero =>
    intro env exec _ _ _ _ r exec' env' hrun
    simp [heap_insert_run_dup_scan] at hrun
  | succ n ih =>
    intro env exec h hjob hphase hsc r exec' env' hrun
    obtain ⟨pre, suf, hpages, hcur, habs⟩ := hsc
    unfold heap_insert_run_dup_scan at hrun
    cases suf with
    | nil =>
      -- the cursor is at the end, so all pages are behind it
      rw [if_pos (by exact hcur)] at hrun
      obtain ⟨rfl, rfl, rfl⟩ : ExecResult.done = r ∧ exec = exec' ∧ env = env' := by simpa using hrun
      refine ⟨Kept.refl _ _, hjob, rfl, fun hr => by simp at hr, fun _ => ?_⟩
      rw [hpages, List.append_nil]
      exact habs
    | cons b suf =>
      have hb : exec.cursor_page_id = b := hcur
      have hmem : b ∈ pages := by rw [hpages]; simp
      have hb0 : b ≠ 0 := by
        rintro rfl
        exact h.nonzero (List.mem_append_left _ hmem)
      rw [hb, if_neg hb0] at hrun
      cases hscan : kds_heap_scan_page_for_pk env.pool b exec.new_pk with
      | mk res pool =>
        obtain ⟨hframe, hnext⟩ := scan_page_spec h hmem exec.new_pk hscan
        have hk : Kept env { env with pool := pool } pages := Kept.of_frame hframe rfl
        rw [hscan] at hrun
        match res with
        | .error e =>
          obtain ⟨rfl, rfl, rfl⟩ : ExecResult.error = r ∧ exec.fail e = exec' ∧
              { env with pool := pool } = env' := by simpa using hrun
          exact ⟨hk, hjob.fail e, rfl, fun hr => by simp at hr, fun hr => by simp at hr⟩
        | .ok (true, next) =>
          obtain ⟨rfl, rfl, rfl⟩ : ExecResult.error = r ∧ exec.fail .EEXIST = exec' ∧
              { env with pool := pool } = env' := by simpa using hrun
          exact ⟨hk, hjob.fail _, rfl, fun hr => by simp at hr, fun hr => by simp at hr⟩
        | .ok (false, next) =>
          obtain ⟨rfl, hrow⟩ := hnext next rfl
          have hjob' := hjob.goTo (env.next b)
          have hsc' : ∀ env'', Kept env env'' pages →
              Scanned env'' pages (exec.goTo (env.next b)) :=
            fun env'' hk'' => Scanned.pass h hpages habs hrow hk''
          dsimp only at hrun
          by_cases hnz : env.next b = 0
          · rw [if_pos hnz] at hrun
            obtain ⟨hk', hrest⟩ := ih (h.kept hk) hjob' hphase (hsc' _ hk) hrun
            exact ⟨hk.trans hk', hrest⟩
          · rw [if_neg hnz] at hrun
            have hk₂ := hk.trans (slice_kept { env with pool := pool } pages)
            cases htick : kds_exec_slice_expired { env with pool := pool } with
            | mk expired env₂ =>
              rw [htick] at hrun hk₂
              cases expired with
              | true =>
                obtain ⟨rfl, rfl, rfl⟩ : ExecResult.cont = r ∧ exec.goTo (env.next b) = exec' ∧
                    env₂ = env' := by simpa using hrun
                exact ⟨hk₂, hjob', rfl, fun _ => ⟨hphase, hsc' _ hk₂, hnz⟩, fun hr => by simp at hr⟩
              | false =>
                obtain ⟨hk', hrest⟩ := ih (h.kept hk₂) hjob' hphase (hsc' _ hk₂) hrun
                exact ⟨hk₂.trans hk', hrest⟩

/-- The places where a row goes: a page that has space, or a new one. -/
theorem Placed.existing {env' : ExecEnv} {key : TupleId} {id : PageId} (h : HeapChain rel env pages)
    (habs : Absent env pages key) (hid : id ∈ pages)
    (hput : RowPut (env.page id) (env'.page id) key)
    (hother : ∀ j ∈ pages, j ≠ id → env'.page j = env.page j) (hs : env'.staged = env.staged) :
    Placed rel env pages key env' pages where
  chain :=
    { kind := h.kind
      head := h.head
      link := by
        intro pre j post hsplit
        rw [← h.link pre j post hsplit, ExecEnv.next_eq, ExecEnv.next_eq]
        by_cases hj : j = id
        · rw [hj]
          exact hput.next
        · rw [hother j (by rw [hsplit]; simp) hj]
      rows := by
        intro j hj
        by_cases hji : j = id
        · rw [hji]
          exact hput.page
        · rw [hother j hj hji]
          exact h.rows j hj
      nodup := by rw [hs]; exact h.nodup
      nonzero := by rw [hs]; exact h.nonzero }
  grows := List.prefix_refl _
  staged := hs ▸ List.suffix_refl _
  absent := habs
  rows := by
    refine ⟨id, (heapMeta (env.page id)).nr_slots.toNat, fun j i k => ?_⟩
    by_cases hj : j = id
    · subst hj
      rw [hput.rows i k]
      tauto
    · constructor
      · intro hrow
        rw [hother j hrow.1 hj] at hrow
        exact Or.inl hrow
      · intro hrow
        rcases hrow with hrow | hrow
        · rw [hother j hrow.1 hj]
          exact hrow
        · exact absurd hrow.1 hj

theorem Placed.newPage {env' : ExecEnv} {key : TupleId} {pre : List PageId} {last new : PageId}
    {m : Mem} (h : HeapChain rel env pages) (habs : Absent env pages key)
    (hpages : pages = pre ++ [last]) (hstaged : env.staged = new :: env'.staged)
    (hnone : ∀ i k, ¬ HoldsRow m i k) (hm : m.readU64 KDS_HEAP_NEXT_PAGE_OFFSET = 0)
    (hput : RowPut m (env'.page new) key)
    (hset : SetNextEffect (env.page last) (env'.page last) new)
    (hother : ∀ j ∈ pages, j ≠ last → env'.page j = env.page j) :
    Placed rel env pages key env' (pages ++ [new]) := by
  have hlast : last ∈ pages := by rw [hpages]; simp
  obtain ⟨hrowp, hrows⟩ := (h.rows last hlast).setNext hset
  have hnd := h.nodup
  rw [hstaged] at hnd
  have hnew : new ∉ pages := fun hmem => (List.nodup_append.mp hnd).2.2 new hmem new (by simp) rfl
  -- a link changes no row
  have hsame : ∀ j ∈ pages, ∀ i k, HoldsRow (env'.page j) i k ↔ HoldsRow (env.page j) i k := by
    intro j hj i k
    by_cases hjl : j = last
    · rw [hjl]
      exact hrows i k
    · rw [hother j hj hjl]
  refine ⟨⟨h.kind, ?_, ?_, ?_, ?_, ?_⟩, List.prefix_append _ _, ?_, habs, ?_⟩
  · rw [List.head?_append, h.head]
    rfl
  · -- the new page is the last one, and the old last page points to it
    intro pre' j post hsplit
    rw [ExecEnv.next_eq]
    rcases List.eq_nil_or_concat post with rfl | ⟨post, b, rfl⟩
    · obtain ⟨-, hj⟩ := List.append_inj' hsplit rfl
      obtain rfl : new = j := by simpa using hj
      rw [hput.next]
      exact hm
    · have hsplit' : pages ++ [new] = (pre' ++ j :: post) ++ [b] := by simpa using hsplit
      obtain ⟨hold, hb⟩ := List.append_inj' hsplit' rfl
      obtain rfl : new = b := by simpa using hb
      rcases List.eq_nil_or_concat post with rfl | ⟨post, c, rfl⟩
      · rw [hpages] at hold
        obtain rfl : last = j := by simpa using (List.append_inj' hold rfl).2
        exact hset.next
      -- a page before the last one is not written
      · have hj : j ∈ pages := by rw [hold]; simp
        have hjl : j ≠ last := by
          rintro rfl
          have hndp := (List.nodup_append.mp hnd).1
          rw [hold, List.nodup_middle] at hndp
          refine (List.nodup_cons.mp hndp).1 (List.mem_append_right _ ?_)
          have hc : pre ++ [j] = (pre' ++ j :: post) ++ [c] := by
            rw [← hpages, hold]
            simp
          obtain rfl : j = c := by simpa using (List.append_inj' hc rfl).2
          simp
        rw [hother j hj hjl, ← ExecEnv.next_eq, h.link pre' j _ hold]
        cases post with
        | nil => rfl
        | cons d post => rfl
  -- rows stand on the old pages as before, and on the new one
  · intro j hj
    rcases List.mem_append.mp hj with hj | hj
    · by_cases hjl : j = last
      · rw [hjl]
        exact hrowp
      · rw [hother j hj hjl]
        exact h.rows j hj
    · rw [List.mem_singleton.mp hj]
      exact hput.page
  · rw [List.append_assoc]
    exact hnd
  · have h0 := h.nonzero
    rw [hstaged] at h0
    rwa [List.append_assoc]
  · rw [hstaged]
    exact List.suffix_cons _ _
  · refine ⟨new, (heapMeta m).nr_slots.toNat, fun j i k => ?_⟩
    by_cases hj : j = new
    · subst hj
      rw [hput.rows i k]
      have := hnone i k
      simp [this, hnew]
    · constructor
      · intro hrow
        obtain ⟨hmem, hrow⟩ := hrow
        have hjp : j ∈ pages := by
          rcases List.mem_append.mp hmem with hmem | hmem
          · exact hmem
          · exact absurd (List.mem_singleton.mp hmem) hj
        exact Or.inl ⟨hjp, (hsame j hjp i k).mp hrow⟩
      · intro hrow
        rcases hrow with hrow | hrow
        · exact ⟨List.mem_append_left _ hrow.1, (hsame j hrow.1 i k).mpr hrow.2⟩
        · exact absurd hrow.1 hj

/-- An attempt to put the row into a page changes no other page, and without
    space not this one either. -/
theorem putRow_spec {pool pool' : Pool} {frame : PageId} {res : Except Errno HeapTid}
    (hrun : putRow pool frame exec = (res, pool')) :
    (∀ j, j ≠ frame → pool'.frame j = pool.frame j) ∧
      (∀ e, res = .error e → pool'.frame = pool.frame) ∧
      (∀ rel tid, res = .ok tid → HeapJob rel exec → RowPage (pool.frame frame).page →
        RowPut (pool.frame frame).page (pool'.frame frame).page exec.new_pk) := by
  unfold putRow at hrun
  cases hins : heap_insert_tuple (pool.frame frame) (some exec.data) exec.data_len exec.xid with
  | mk ires f =>
    rw [hins] at hrun
    obtain ⟨rfl, rfl⟩ := Prod.mk.inj hrun
    refine ⟨fun j hj => pool.frame_setFrame_ne f hj, ?_, ?_⟩
    · rintro e rfl
      obtain rfl := heap_insert_error hins
      funext j
      by_cases hj : j = frame
      · rw [hj, Pool.frame_setFrame_self]
      · exact pool.frame_setFrame_ne _ hj
    · rintro rel tid rfl hjob hpage
      rw [Pool.frame_setFrame_self, hjob.pk]
      exact hpage.insert hjob.len_ge hins

theorem Kept.of_frames {env' : ExecEnv} (hf : ∀ id ∈ pages, env'.pool.frame id = env.pool.frame id)
    (hs : env'.staged <:+ env.staged) : Kept env env' pages := by
  refine ⟨fun id hid => ?_, hs⟩
  unfold ExecEnv.page
  rw [hf id hid]

/-- **The end of the chain**: the new page goes behind it. -/
theorem growChain_spec {pre : List PageId} {last : PageId} (h : HeapChain rel env pages)
    (hjob : HeapJob rel exec) (habs : Absent env pages exec.new_pk)
    (hpages : pages = pre ++ [last]) {r : ExecResult} {exec' : HeapInsertExec} {env' : ExecEnv}
    (hrun : growChain exec env last = (r, exec', env')) :
    SliceDone rel env pages exec.new_pk r exec' env' := by
  unfold growChain kds_page_alloc at hrun
  cases hst : env.staged with
  | nil =>
    rw [hst] at hrun
    obtain ⟨rfl, rfl, rfl⟩ : ExecResult.error = r ∧ _ = exec' ∧
      { env with pool := kds_buf_unpin env.pool last } = env' := by simpa using hrun
    exact .fails (Kept.of_frame rfl rfl)
  | cons new staged =>
    rw [hst] at hrun
    dsimp only at hrun
    have hnd := h.nodup
    rw [hst] at hnd
    have hnew : ∀ id ∈ pages, id ≠ new :=
      fun id hid heq => (List.nodup_append.mp hnd).2.2 id hid new (by simp) heq
    have hsuf : staged <:+ env.staged := by
      rw [hst]
      exact List.suffix_cons _ _
    -- the new page, typed and initialised
    have htyped : ∀ id ∈ pages, (setPageType env.pool new .heap).frame id = env.pool.frame id :=
      fun id hid => env.pool.frame_setFrame_ne _ (hnew id hid)
    generalize setPageType env.pool new .heap = typed at hrun htyped
    have hinit : ∀ id ∈ pages, (typed.setFrame new (heap_init_page (typed.frame new))).frame id =
        env.pool.frame id :=
      fun id hid => (typed.frame_setFrame_ne _ (hnew id hid)).trans (htyped id hid)
    obtain ⟨hpage, hnone, hnext⟩ := rowPage_init (typed.frame new)
    cases hput : putRow (typed.setFrame new (heap_init_page (typed.frame new))) new exec with
    | mk res pool =>
      obtain ⟨hother, hfail, hok⟩ := putRow_spec hput
      rw [Pool.frame_setFrame_self] at hok
      rw [hput] at hrun
      have hframe : ∀ id ∈ pages, pool.frame id = env.pool.frame id :=
        fun id hid => (hother id (hnew id hid)).trans (hinit id hid)
      cases res with
      | error e =>
        obtain ⟨rfl, rfl, rfl⟩ : ExecResult.error = r ∧ exec.fail e = exec' ∧ _ = env' := by
          simpa using hrun
        exact .fails (Kept.of_frames hframe hsuf)
      | ok tid =>
        have hlast : last ∈ pages := by rw [hpages]; simp
        have hset := heap_set_next_effect (pool.frame last) new
        dsimp only at hrun
        generalize (heap_set_next_page_id (pool.frame last) new).2 = f at hrun hset
        obtain ⟨rfl, rfl, rfl⟩ : ExecResult.done = r ∧ _ = exec' ∧ _ = env' := by simpa using hrun
        refine .places (Placed.newPage h habs hpages hst (m := (heap_init_page (typed.frame new)).page)
          hnone hnext ?_ ?_ ?_)
        · unfold ExecEnv.page
          dsimp only
          rw [frame_unpin, frame_unpin, pool.frame_setFrame_ne f (Ne.symm (hnew last hlast))]
          exact hok rel tid rfl hjob hpage
        · unfold ExecEnv.page
          dsimp only
          rw [frame_unpin, frame_unpin, Pool.frame_setFrame_self, ← hframe last hlast]
          exact hset
        · intro j hj hjl
          unfold ExecEnv.page
          dsimp only
          rw [frame_unpin, frame_unpin, pool.frame_setFrame_ne f hjl, hframe j hj]

theorem Placed.kept_left {env₁ env' : ExecEnv} {key : TupleId} {pages' : List PageId}
    (hk : Kept env env₁ pages) (h : Placed rel env₁ pages key env' pages') :
    Placed rel env pages key env' pages' where
  chain := h.chain
  grows := h.grows
  staged := h.staged.trans hk.staged
  absent := by
    intro id hid i
    rw [← hk.page id hid]
    exact h.absent id hid i
  rows := by
    obtain ⟨id₀, i₀, hrows⟩ := h.rows
    refine ⟨id₀, i₀, fun id i k => ?_⟩
    rw [hrows id i k]
    refine or_congr (and_congr_right fun hid => ?_) Iff.rfl
    rw [hk.page id hid]

theorem SliceDone.kept_left {env₁ env' : ExecEnv} {exec' : HeapInsertExec} {key : TupleId}
    {r : ExecResult} (hk : Kept env env₁ pages) (h : SliceDone rel env₁ pages key r exec' env') :
    SliceDone rel env pages key r exec' env' := by
  cases h with
  | waits hk' hinv => exact .waits (hk.trans hk') hinv
  | fails hk' => exact .fails (hk.trans hk')
  | places hp => exact .places (hp.kept_left hk)

/-- What the search for space does from a page on. -/
def TailSpec (rel : Relation) (pages : List PageId) (turns : Nat) : Prop :=
  ∀ {env : ExecEnv} {exec : HeapInsertExec}, HeapChain rel env pages → HeapJob rel exec →
    exec.phase = .findTail → Absent env pages exec.new_pk → exec.cursor_page_id ∈ pages →
    ∀ {r exec' env'}, heap_insert_run_find_tail exec env turns = some (r, exec', env') →
      SliceDone rel env pages exec.new_pk r exec' env'

/-- A page without space: the search goes on behind it, or the chain grows. -/
theorem full_page_spec {n : Nat} (ih : TailSpec rel pages n) (h : HeapChain rel env pages)
    (hjob : HeapJob rel exec) (hphase : exec.phase = .findTail)
    (habs : Absent env pages exec.new_pk) {cur : PageId} (hcur : cur ∈ pages) {pool : Pool}
    (hframe : pool.frame = env.pool.frame) {r : ExecResult} {exec' : HeapInsertExec}
    {env' : ExecEnv}
    (hrun : (if env.next cur = 0 then some (growChain exec { env with pool := pool } cur)
      else if (kds_exec_slice_expired { env with pool := kds_buf_unpin pool cur }).1 = true then
        some (.cont, exec.goTo (env.next cur),
          (kds_exec_slice_expired { env with pool := kds_buf_unpin pool cur }).2)
      else heap_insert_run_find_tail (exec.goTo (env.next cur))
        (kds_exec_slice_expired { env with pool := kds_buf_unpin pool cur }).2 n) =
          some (r, exec', env')) :
    SliceDone rel env pages exec.new_pk r exec' env' := by
  obtain ⟨pre, post, hsplit⟩ := List.append_of_mem hcur
  have hlink := h.link pre cur post hsplit
  cases post with
  -- it was the last page
  | nil =>
    have hk : Kept env { env with pool := pool } pages := Kept.of_frame hframe rfl
    rw [if_pos (by exact hlink)] at hrun
    exact (growChain_spec (h.kept hk) hjob (habs.kept hk) hsplit (Option.some.inj hrun)).kept_left hk
  | cons b post =>
    have hb : env.next cur = b := hlink
    have hmem : b ∈ pages := by rw [hsplit]; simp
    have hb0 : b ≠ 0 := by
      rintro rfl
      exact h.nonzero (List.mem_append_left _ hmem)
    have hk : Kept env { env with pool := kds_buf_unpin pool cur } pages := Kept.of_frame hframe rfl
    have hk₂ := hk.trans (slice_kept { env with pool := kds_buf_unpin pool cur } pages)
    rw [hb, if_neg hb0] at hrun
    cases htick : kds_exec_slice_expired { env with pool := kds_buf_unpin pool cur } with
    | mk expired env₂ =>
      rw [htick] at hrun hk₂
      cases expired with
      -- the exec waits in front of the next page
      | true =>
        obtain ⟨rfl, rfl, rfl⟩ : ExecResult.cont = r ∧ exec.goTo b = exec' ∧ env₂ = env' := by
          simpa using hrun
        refine .waits hk₂ ⟨hjob.goTo _, ?_⟩
        have hp : (exec.goTo b).phase = .findTail := hphase
        rw [hp]
        exact ⟨habs.kept hk₂, hmem⟩
      | false =>
        exact (ih (h.kept hk₂) (hjob.goTo _) hphase (habs.kept hk₂) hmem hrun).kept_left hk₂

/-- **The search for space**. -/
theorem find_tail_spec (turns : Nat) : TailSpec rel pages turns := by
  induction turns with
  | zero =>
    intro env exec _ _ _ _ _ r exec' env' hrun
    simp [heap_insert_run_find_tail] at hrun
  | succ n ih =>
    intro env exec h hjob hphase habs hcur r exec' env' hrun
    unfold heap_insert_run_find_tail at hrun
    cases hload : kds_buf_lookup_or_load env.pool exec.cursor_page_id with
    | mk lres p =>
      obtain ⟨hloads, hid⟩ := lookup_or_load_loadOnly hload
      have hframe := hloads.frame
      rw [hload] at hrun
      cases lres with
      | error e =>
        obtain ⟨rfl, rfl, rfl⟩ : ExecResult.error = r ∧ exec.fail e = exec' ∧
            { env with pool := p } = env' := by simpa using hrun
        exact .fails (Kept.of_frame hframe rfl)
      | ok frame =>
        obtain ⟨rfl, -⟩ := hid frame rfl
        dsimp only at hrun
        cases hput : putRow p exec.cursor_page_id exec with
        | mk res pool =>
          obtain ⟨hother, hfail, hok⟩ := putRow_spec hput
          rw [hframe] at hother hfail hok
          rw [hput] at hrun
          cases res with
          -- there was space on this page
          | ok tid =>
            obtain ⟨rfl, rfl, rfl⟩ : ExecResult.done = r ∧ _ = exec' ∧ _ = env' := by simpa using hrun
            refine .places (Placed.existing h habs hcur ?_ ?_ rfl)
            · exact hok rel tid rfl hjob (h.rows _ hcur)
            · intro j _ hj
              unfold ExecEnv.page
              dsimp only
              rw [frame_unpin, hother j hj]
          | error e =>
            have hpool := hfail e rfl
            by_cases hsp : e = .ENOSPC
            -- only -ENOSPC makes the search go on
            · subst hsp
              dsimp only at hrun
              rw [hpool] at hrun
              exact full_page_spec ih h hjob hphase habs hcur hpool hrun
            · have hrun' : some (ExecResult.error, exec.fail e,
                  { env with pool := kds_buf_unpin pool exec.cursor_page_id }) =
                    some (r, exec', env') := by
                cases e <;> first | exact absurd rfl hsp | exact hrun
              obtain ⟨rfl, rfl, rfl⟩ : ExecResult.error = r ∧ _ = exec' ∧ _ = env' := by
                simpa using hrun'
              exact .fails (Kept.of_frame hpool rfl)

end walks

/-! ## Section 4: A slice -/

section slice

variable (crc32c : UInt32 → List UInt8 → UInt32)

variable {rel : Relation} {env : ExecEnv} {pages : List PageId} {exec : HeapInsertExec} {turns : Nat}

theorem append_kept (env : ExecEnv) (pages : List PageId) (hdr : WalRecHdr) (body : List UInt8) :
    Kept env (env.append crc32c hdr body) pages := by
  refine ⟨fun id _ => ?_, ?_⟩
  · unfold ExecEnv.page ExecEnv.append
    dsimp only
  · unfold ExecEnv.append
    dsimp only
    exact List.suffix_refl _

theorem wal_insert_kept (env : ExecEnv) (exec : HeapInsertExec) (pages : List PageId) :
    Kept env (heap_insert_run_wal_insert crc32c exec env) pages := by
  unfold heap_insert_run_wal_insert
  dsimp only
  have hfail : Kept env { env with pool := env.pool.nextFail } pages := Kept.of_frame rfl rfl
  split
  · exact hfail
  · exact hfail.trans (append_kept crc32c _ _ _ _)

/-- The log phases do not stop and change no page. -/
theorem wal_phases_kept (pages : List PageId) {n : Nat} (hphase : exec.phase = .walInitPage ∨ exec.phase = .walInsert)
    {r : ExecResult} {exec' : HeapInsertExec} {env' : ExecEnv}
    (hrun : heapRunPhases crc32c rel turns exec env (n + 3) = some (r, exec', env')) :
    r = .done ∧ Kept env env' pages := by
  rcases hphase with hphase | hphase
  · simp only [heapRunPhases, heapRunPhase, hphase, Option.bind_eq_bind, Option.bind_some,
      Option.some.injEq, Prod.mk.injEq] at hrun
    obtain ⟨rfl, -, rfl⟩ := hrun
    exact ⟨rfl, (append_kept crc32c _ _ _ _).trans (wal_insert_kept crc32c _ _ _)⟩
  · simp only [heapRunPhases, heapRunPhase, hphase, Option.bind_eq_bind, Option.bind_some,
      Option.some.injEq, Prod.mk.injEq] at hrun
    obtain ⟨rfl, -, rfl⟩ := hrun
    exact ⟨rfl, wal_insert_kept crc32c _ _ _⟩

theorem Placed.kept_right {env₁ env' : ExecEnv} {key : TupleId} {pages' : List PageId}
    (h : Placed rel env pages key env₁ pages') (hk : Kept env₁ env' pages') :
    Placed rel env pages key env' pages' where
  chain := h.chain.kept hk
  grows := h.grows
  staged := hk.staged.trans h.staged
  absent := h.absent
  rows := by
    obtain ⟨id₀, i₀, hrows⟩ := h.rows
    refine ⟨id₀, i₀, fun id i k => ?_⟩
    rw [← hrows id i k]
    refine and_congr_right fun hid => ?_
    rw [hk.page id hid]

/-- The rest of a slice once the scan is through. -/
theorem tail_slice_spec {n : Nat} (h : HeapChain rel env pages) (hjob : HeapJob rel exec)
    (hphase : exec.phase = .findTail) (habs : Absent env pages exec.new_pk)
    (hcur : exec.cursor_page_id ∈ pages) {r : ExecResult} {exec' : HeapInsertExec} {env' : ExecEnv}
    (hrun : heapRunPhases crc32c rel turns exec env (n + 4) = some (r, exec', env')) :
    SliceDone rel env pages exec.new_pk r exec' env' := by
  have hk := slice_kept env pages
  rw [heapRunPhases, heapRunPhase, hphase] at hrun
  dsimp only at hrun
  cases htick : kds_exec_slice_expired env with
  | mk expired env₁ =>
    rw [htick] at hrun hk
    cases expired with
    | true =>
      obtain ⟨rfl, rfl, rfl⟩ : ExecResult.cont = r ∧ exec = exec' ∧ env₁ = env' := by
        simpa using hrun
      refine .waits hk ⟨hjob, ?_⟩
      rw [hphase]
      exact ⟨habs.kept hk, hcur⟩
    | false =>
      cases htail : heap_insert_run_find_tail exec env₁ turns with
      | none => simp [htail] at hrun
      | some out =>
        obtain ⟨r₂, exec₂, env₂⟩ := out
        have hspec := (find_tail_spec turns (h.kept hk) hjob hphase (habs.kept hk) hcur
          htail).kept_left hk
        simp only [htail, Option.bind_eq_bind, Option.bind_some, Bool.false_eq_true, if_false] at hrun
        cases hspec with
        | waits hk' hinv =>
          obtain ⟨rfl, rfl, rfl⟩ : ExecResult.cont = r ∧ exec₂ = exec' ∧ env₂ = env' := by
            simpa using hrun
          exact .waits hk' hinv
        | fails hk' =>
          obtain ⟨rfl, rfl, rfl⟩ : ExecResult.error = r ∧ exec₂ = exec' ∧ env₂ = env' := by
            simpa using hrun
          exact .fails hk'
        -- the row is in; the phases behind it write to the log only
        | @places _ _ pages' hp =>
          rw [if_neg (by simp)] at hrun
          obtain ⟨rfl, hk'⟩ := wal_phases_kept crc32c pages'
            (by dsimp only; split <;> simp) hrun
          exact .places (hp.kept_right hk')

/-- **A slice** of an exec. -/
theorem heap_insert_run_spec (h : HeapChain rel env pages) (hinv : ExecInv rel env pages exec)
    {r : ExecResult} {exec' : HeapInsertExec} {env' : ExecEnv}
    (hrun : kds_heap_insert_exec_run crc32c turns exec env = some (r, exec', env')) :
    SliceDone rel env pages exec.new_pk r exec' env' := by
  obtain ⟨hjob, hph⟩ := hinv
  have hlen : ¬ exec.data_len < 8 := by
    rw [UInt16.lt_iff_toNat_lt, Nat.not_lt]
    exact hjob.len_ge
  unfold kds_heap_insert_exec_run at hrun
  rw [hjob.rel_eq] at hrun
  dsimp only at hrun
  rw [if_neg (by simp [h.kind]), if_neg hlen] at hrun
  cases hphase : exec.phase with
  | dupScan =>
    rw [hphase] at hph
    rw [heapRunPhases, heapRunPhase, hphase] at hrun
    cases hscan : heap_insert_run_dup_scan exec env turns with
    | none => simp [hscan] at hrun
    | some out =>
      obtain ⟨r₂, exec₂, env₂⟩ := out
      obtain ⟨hk, hjob₂, hpk, hcont, hdone⟩ := dup_scan_spec turns h hjob hphase hph.1 hscan
      simp only [hscan, Option.bind_eq_bind, Option.bind_some] at hrun
      cases r₂ with
      | cont =>
        obtain ⟨rfl, rfl, rfl⟩ : ExecResult.cont = r ∧ exec₂ = exec' ∧ env₂ = env' := by
          simpa using hrun
        obtain ⟨hphase₂, hsc, hnz⟩ := hcont rfl
        refine .waits hk ⟨hjob₂, ?_⟩
        rw [hphase₂]
        exact ⟨hsc, hnz⟩
      | error =>
        obtain ⟨rfl, rfl, rfl⟩ : ExecResult.error = r ∧ exec₂ = exec' ∧ env₂ = env' := by
          simpa using hrun
        exact .fails hk
      -- the key is on no page, and the search for space begins at the root
      | done =>
        rw [if_neg (by simp)] at hrun
        have hroot : rel.root_page_id ∈ pages := List.mem_of_mem_head? h.head
        have habs : Absent env₂ pages exec₂.new_pk := by
          rw [hpk]
          exact hdone rfl
        have hjob₃ : HeapJob rel
            { exec₂ with phase := .findTail, cursor_page_id := rel.root_page_id } :=
          ⟨hjob₂.rel_eq, hjob₂.len_ge, hjob₂.len_le, hjob₂.pk⟩
        have hspec := tail_slice_spec crc32c (h.kept hk) hjob₃ rfl habs hroot hrun
        dsimp only at hspec
        rw [hpk] at hspec
        exact hspec.kept_left hk
  | findTail =>
    rw [hphase] at hph
    exact tail_slice_spec crc32c h hjob hphase hph.1 hph.2 hrun
  -- an exec that waits for a slice is in one of the first two phases
  | walInsert =>
    rw [hphase] at hph
    exact hph.elim
  | walInitPage =>
    rw [hphase] at hph
    exact hph.elim
  | done =>
    rw [hphase] at hph
    exact hph.elim

end slice

/-! ## Section 5: The clients and their scheduler -/

/-- `kds_dshell_exec_status_t`. -/
inductive ExecStatus where
  | idle
  | pending
  deriving DecidableEq, Repr

/-- The part of `kds_dshell_client_t` the proc works on. -/
structure HeapClient where
  exec_status : ExecStatus
  exec_buf : HeapInsertExec

/-- The clients from the head of `kds_dshell_clients` on, and where the proc is in the list. -/
structure DshellSys where
  env : ExecEnv
  clients : List HeapClient
  pos : Nat

@[simp] def KDS_DSHELL_XID : UInt64 := 1

/-- A client `kds_dshell_open` has just made. -/
def newClient : HeapClient where
  exec_status := .idle
  exec_buf := kds_heap_insert_exec_init none (fun _ => 0) 0 0

/-- `kds_dshell_proc_run`, up to the next client: an exec that asks for more
    ends the round, and the next one starts at the head of the list. -/
def procTurn (crc32c : UInt32 → List UInt8 → UInt32) (turns : Nat) (ticks : List Bool)
    (s : DshellSys) : Option DshellSys :=
  match s.clients[s.pos]? with
  | none => some { s with pos := 0 }
  | some client =>
      if client.exec_status ≠ .pending then some { s with pos := s.pos + 1 }
      else do
        let (result, exec, env) ←
          kds_heap_insert_exec_run crc32c turns client.exec_buf { s.env with ticks := ticks }
        if result = .cont then
          some
            { env := env
              clients := s.clients.set s.pos { client with exec_buf := exec }
              pos := 0 }
        else
          some
            { env := env
              clients := s.clients.set s.pos { exec_status := .idle, exec_buf := exec }
              pos := s.pos + 1 }

inductive DshellAct where
  /-- `kds_dshell_open`. -/
  | connect
  /-- Client `c` sends an INSERT of the row. -/
  | submit (c : Nat) (row : Row)
  /-- The command of client `c` times out. -/
  | timeout (c : Nat)
  /-- The allocator puts a new page into the ring. -/
  | refill (id : PageId)
  /-- The proc goes on by one client; `ticks` are the slice checks of its exec. -/
  | turn (turns : Nat) (ticks : List Bool)

/-- A table `kds_catalog_create_table` has just made. -/
structure NewHeapTable (rel : Relation) (env : ExecEnv) : Prop where
  kind : rel.kind = .heap
  root : ∃ f, env.page rel.root_page_id = (heap_init_page f).page
  nodup : (rel.root_page_id :: env.staged).Nodup
  nonzero : 0 ∉ rel.root_page_id :: env.staged

/-- Clients that insert rows into one table. -/
def dshellSystem (crc32c : UInt32 → List UInt8 → UInt32) (rel : Relation) :
    System DshellSys DshellAct where
  init := fun s =>
    NewHeapTable rel s.env ∧ (∀ client ∈ s.clients, client.exec_status = .idle) ∧ s.pos = 0
  step := fun s act s' =>
    match act with
    | .connect => s' = { s with clients := s.clients ++ [newClient] }
    | .submit c row =>
        (∃ client, s.clients[c]? = some client ∧ client.exec_status = .idle) ∧
        8 ≤ row.data_len.toNat ∧ row.data_len.toNat ≤ 256 ∧
        s' = { s with
          clients := s.clients.set c
            { exec_status := .pending
              exec_buf :=
                kds_heap_insert_exec_init (some rel) row.data row.data_len KDS_DSHELL_XID } }
    | .timeout c =>
        ∃ client, s.clients[c]? = some client ∧ client.exec_status = .pending ∧
          s' = { s with clients := s.clients.set c { client with exec_status := .idle } }
    | .refill id =>
        id ≠ 0 ∧ id ∉ s.env.staged ∧ ¬ ChainPage rel s.env id ∧
          ∃ pool, kds_buf_alloc_new s.env.pool id = (.ok id, pool) ∧
            s' = { s with env := { s.env with pool := pool, staged := s.env.staged ++ [id] } }
    | .turn turns ticks => procTurn crc32c turns ticks s = some s'

/-- The exec has begun to look for its key. -/
def UnderWay (rel : Relation) (exec : HeapInsertExec) : Prop :=
  exec.phase ≠ .dupScan ∨ exec.cursor_page_id ≠ rel.root_page_id

/-- The client whose turn it is has no rival: no other client waits that is
    under way with the same key. -/
def NoRival (rel : Relation) (s : DshellSys) : DshellAct → Prop
  | .turn _ _ =>
      ∀ client, s.clients[s.pos]? = some client → client.exec_status = .pending →
        ∀ d rival, d ≠ s.pos → s.clients[d]? = some rival → rival.exec_status = .pending →
          UnderWay rel rival.exec_buf → rival.exec_buf.new_pk ≠ client.exec_buf.new_pk
  | _ => True

/-! ## Section 6: Runs -/

/-- No two rows of these pages have the same key. -/
def UniqueIn (env : ExecEnv) (pages : List PageId) : Prop :=
  ∀ id ∈ pages, ∀ id' ∈ pages, ∀ i j key,
    HoldsRow (env.page id) i key → HoldsRow (env.page id') j key → id = id' ∧ i = j

/-- Every exec that waits can rely on what it saw, and keys are unique. -/
structure DshellInv (rel : Relation) (s : DshellSys) (pages : List PageId) : Prop where
  chain : HeapChain rel s.env pages
  execs : ∀ (c : Nat) client, s.clients[c]? = some client → client.exec_status = .pending →
    ExecInv rel s.env pages client.exec_buf
  unique : UniqueIn s.env pages

section runs

variable {rel : Relation} {env env' : ExecEnv} {pages pages' : List PageId} {s s' : DshellSys}

theorem HeapChain.uniqueRows_iff (h : HeapChain rel env pages) :
    UniqueRows rel env ↔ UniqueIn env pages := by
  unfold UniqueRows UniqueIn
  simp only [h.chainPage_iff]
  constructor
  · intro hu id hid id' hid' i j key
    exact hu id id' i j key hid hid'
  · intro hu id id' i j key hid hid'
    exact hu id hid id' hid' i j key

theorem UniqueIn.kept (h : UniqueIn env pages) (hk : Kept env env' pages) : UniqueIn env' pages := by
  intro id hid id' hid' i j key
  rw [hk.page id hid, hk.page id' hid']
  exact h id hid id' hid' i j key

theorem ExecInv.kept {exec : HeapInsertExec} (h : ExecInv rel env pages exec)
    (hk : Kept env env' pages) : ExecInv rel env' pages exec := by
  obtain ⟨hjob, hph⟩ := h
  refine ⟨hjob, ?_⟩
  cases hphase : exec.phase <;> rw [hphase] at hph
  case dupScan =>
    obtain ⟨⟨pre, suf, hpages, hcur, habs⟩, hnz⟩ := hph
    refine ⟨⟨pre, suf, hpages, hcur, habs.kept ⟨fun id hid => hk.page id ?_, hk.staged⟩⟩, hnz⟩
    rw [hpages]
    exact List.mem_append_left _ hid
  case findTail => exact ⟨hph.1.kept hk, hph.2⟩
  all_goals exact hph.elim

/-- A key no row had before, and that is not the placed one, has no row now. -/
theorem Placed.absent_other {key k : TupleId} {ids : List PageId}
    (h : Placed rel env pages key env' pages') (hids : ids ⊆ pages) (habs : Absent env ids k)
    (hne : k ≠ key) : Absent env' ids k := by
  intro id hid i hrow
  obtain ⟨id₀, i₀, hrows⟩ := h.rows
  rcases (hrows id i k).mp ⟨h.grows.subset (hids hid), hrow⟩ with hold | hnew
  · exact habs id hid i hold.2
  · exact hne hnew.2.2

theorem Placed.uniqueIn {key : TupleId} (h : Placed rel env pages key env' pages')
    (hu : UniqueIn env pages) : UniqueIn env' pages' := by
  intro id hid id' hid' i j k hi hj
  obtain ⟨id₀, i₀, hrows⟩ := h.rows
  rcases (hrows id i k).mp ⟨hid, hi⟩ with hi | ⟨rfl, rfl, rfl⟩
  · rcases (hrows id' j k).mp ⟨hid', hj⟩ with hj | ⟨rfl, rfl, rfl⟩
    · exact hu id hi.1 id' hj.1 i j k hi.2 hj.2
    · exact absurd hi.2 (h.absent id hi.1 i)
  · rcases (hrows id' j k).mp ⟨hid', hj⟩ with hj | ⟨rfl, rfl, -⟩
    · exact absurd hj.2 (h.absent id' hj.1 j)
    · exact ⟨rfl, rfl⟩

/-- An exec that has not begun, or looks for another key, is not misled by a placed row. -/
theorem ExecInv.placed {exec : HeapInsertExec} {key : TupleId}
    (hinv : ExecInv rel env pages exec) (hp : Placed rel env pages key env' pages')
    (hkey : UnderWay rel exec → exec.new_pk ≠ key) : ExecInv rel env' pages' exec := by
  obtain ⟨hjob, hph⟩ := hinv
  obtain ⟨added, rfl⟩ := hp.grows
  refine ⟨hjob, ?_⟩
  cases hphase : exec.phase <;> rw [hphase] at hph
  case dupScan =>
    obtain ⟨⟨pre, suf, hpages, hcur, habs⟩, hnz⟩ := hph
    refine ⟨?_, hnz⟩
    by_cases hroot : exec.cursor_page_id = rel.root_page_id
    · refine ⟨[], pages ++ added, rfl, ?_, by simp [Absent]⟩
      have hhead := hp.chain.head
      cases hl : pages ++ added with
      | nil => simp [hl] at hhead
      | cons b l =>
        rw [hl] at hhead
        rw [hroot]
        exact (Option.some.inj hhead).symm
    · refine ⟨pre, suf ++ added, by rw [hpages, List.append_assoc], ?_, ?_⟩
      · cases suf with
        | nil => exact absurd hcur hnz
        | cons b suf => exact hcur
      · refine hp.absent_other ?_ habs (hkey (Or.inr hroot))
        rw [hpages]
        exact List.subset_append_left _ _
  case findTail =>
    have hne := hkey (Or.inl (by rw [hphase]; simp))
    refine ⟨?_, List.mem_append_left _ hph.2⟩
    -- the pages added hold no row but the new one
    intro id hid i hrow
    obtain ⟨id₀, i₀, hrows⟩ := hp.rows
    rcases (hrows id i exec.new_pk).mp ⟨hid, hrow⟩ with hold | hnew
    · exact hph.1 id hold.1 i hold.2
    · exact hne hnew.2.2
  all_goals exact hph.elim

theorem NewHeapTable.chain (h : NewHeapTable rel env) : HeapChain rel env [rel.root_page_id] := by
  obtain ⟨f, hroot⟩ := h.root
  obtain ⟨hpage, -, hnext⟩ := rowPage_init f
  refine ⟨h.kind, rfl, ?_, ?_, h.nodup, h.nonzero⟩
  · intro pre id post hsplit
    obtain ⟨rfl, rfl, rfl⟩ : pre = [] ∧ rel.root_page_id = id ∧ post = [] := by
      cases pre with
      | nil => simpa using hsplit
      | cons a pre => simp at hsplit
    rw [ExecEnv.next_eq, hroot]
    exact hnext
  · intro id hid
    rw [List.mem_singleton.mp hid, hroot]
    exact hpage

theorem NewHeapTable.uniqueIn (h : NewHeapTable rel env) : UniqueIn env [rel.root_page_id] := by
  obtain ⟨f, hroot⟩ := h.root
  obtain ⟨-, hnone, -⟩ := rowPage_init f
  intro id hid id' _ i j key hi
  rw [List.mem_singleton.mp hid, hroot] at hi
  exact absurd hi (hnone i key)

/-- An exec that `kds_cmd_insert_row` has set up relies on nothing yet. -/
theorem HeapChain.newExec (h : HeapChain rel env pages) (data : Mem) {data_len : UInt16}
    (xid : UInt64) (hge : 8 ≤ data_len.toNat) (hle : data_len.toNat ≤ 256) :
    ExecInv rel env pages (kds_heap_insert_exec_init (some rel) data data_len xid) := by
  have h8 : data_len ≥ 8 := by
    rw [ge_iff_le, UInt16.le_iff_toNat_le]
    exact hge
  have hroot : rel.root_page_id ∈ pages := List.mem_of_mem_head? h.head
  refine ⟨⟨rfl, hge, hle, if_pos h8⟩, ⟨[], pages, rfl, ?_, by simp [Absent]⟩, ?_⟩
  · have hhead := h.head
    cases hl : pages with
    | nil => simp [hl] at hhead
    | cons b l =>
      rw [hl] at hhead
      exact (Option.some.inj hhead).symm
  · show rel.root_page_id ≠ 0
    intro h0
    exact h.nonzero (List.mem_append_left _ (h0 ▸ hroot))

/-- A client of the list behind a change of entry `c`. -/
theorem client_cases {clients : List HeapClient} {c d : Nat} {client rival : HeapClient}
    (h : (clients.set c client)[d]? = some rival) :
    (d = c ∧ rival = client) ∨ (d ≠ c ∧ clients[d]? = some rival) := by
  rw [List.getElem?_set] at h
  split at h
  · next heq =>
    subst heq
    split at h
    · exact Or.inl ⟨rfl, (Option.some.inj h).symm⟩
    · simp at h
  · next hne => exact Or.inr ⟨fun heq => hne heq.symm, h⟩

/-- A turn of the proc. -/
theorem DshellInv.turn {crc32c : UInt32 → List UInt8 → UInt32} {turns : Nat} {ticks : List Bool}
    (h : DshellInv rel s pages) (hrun : procTurn crc32c turns ticks s = some s')
    (hok : NoRival rel s (.turn turns ticks)) : ∃ pages', DshellInv rel s' pages' := by
  unfold procTurn at hrun
  cases hc : s.clients[s.pos]? with
  | none =>
    rw [hc] at hrun
    obtain rfl := Option.some.inj hrun
    exact ⟨pages, h.chain, h.execs, h.unique⟩
  | some client =>
    rw [hc] at hrun
    dsimp only at hrun
    by_cases hst : client.exec_status = .pending
    · rw [if_neg (by simp [hst])] at hrun
      have hk₀ : Kept s.env { s.env with ticks := ticks } pages := Kept.of_frame rfl rfl
      have hinv := h.execs s.pos client hc hst
      cases hslice : kds_heap_insert_exec_run crc32c turns client.exec_buf
          { s.env with ticks := ticks } with
      | none => simp [hslice] at hrun
      | some out =>
        obtain ⟨r, exec, env⟩ := out
        have hspec := (heap_insert_run_spec crc32c (h.chain.kept hk₀) (hinv.kept hk₀)
          hslice).kept_left hk₀
        simp only [hslice, Option.bind_eq_bind, Option.bind_some] at hrun
        cases hspec with
        | waits hk hinv' =>
          rw [if_pos rfl] at hrun
          obtain rfl := Option.some.inj hrun
          refine ⟨pages, h.chain.kept hk, ?_, h.unique.kept hk⟩
          intro d rival hd hp
          rcases client_cases hd with ⟨-, rfl⟩ | ⟨-, hd⟩
          · exact hinv'
          · exact (h.execs d rival hd hp).kept hk
        | fails hk =>
          rw [if_neg (by simp)] at hrun
          obtain rfl := Option.some.inj hrun
          refine ⟨pages, h.chain.kept hk, ?_, h.unique.kept hk⟩
          intro d rival hd hp
          rcases client_cases hd with ⟨-, rfl⟩ | ⟨-, hd⟩
          · simp at hp
          · exact (h.execs d rival hd hp).kept hk
        -- the row goes in: no other client has its key under way
        | @places _ _ pages' hplaced =>
          rw [if_neg (by simp)] at hrun
          obtain rfl := Option.some.inj hrun
          refine ⟨pages', hplaced.chain, ?_, hplaced.uniqueIn h.unique⟩
          intro d rival hd hp
          rcases client_cases hd with ⟨-, rfl⟩ | ⟨hne, hd⟩
          · simp at hp
          · exact (h.execs d rival hd hp).placed hplaced
              (hok client hc hst d rival hne hd hp)
    -- this client has nothing to do
    · rw [if_pos hst] at hrun
      obtain rfl := Option.some.inj hrun
      exact ⟨pages, h.chain, h.execs, h.unique⟩

theorem DshellInv.step {crc32c : UInt32 → List UInt8 → UInt32} {act : DshellAct}
    (h : DshellInv rel s pages) (hstep : (dshellSystem crc32c rel).step s act s')
    (hok : NoRival rel s act) : ∃ pages', DshellInv rel s' pages' := by
  cases act with
  | connect =>
    obtain rfl := hstep
    refine ⟨pages, h.chain, ?_, h.unique⟩
    intro d rival hd hp
    rw [List.getElem?_append] at hd
    split at hd
    · exact h.execs d rival hd hp
    -- a new client is IDLE
    · have hmem := List.mem_of_getElem? hd
      rw [List.mem_singleton.mp hmem] at hp
      simp [newClient] at hp
  | submit c row =>
    obtain ⟨-, hge, hle, rfl⟩ := hstep
    refine ⟨pages, h.chain, ?_, h.unique⟩
    intro d rival hd hp
    rcases client_cases hd with ⟨-, rfl⟩ | ⟨-, hd⟩
    · exact h.chain.newExec row.data KDS_DSHELL_XID hge hle
    · exact h.execs d rival hd hp
  | timeout c =>
    obtain ⟨client, -, -, rfl⟩ := hstep
    refine ⟨pages, h.chain, ?_, h.unique⟩
    intro d rival hd hp
    rcases client_cases hd with ⟨-, rfl⟩ | ⟨-, hd⟩
    · simp at hp
    · exact h.execs d rival hd hp
  | refill id =>
    obtain ⟨hne, hns, hnc, pool, halloc, rfl⟩ := hstep
    rw [h.chain.chainPage_iff] at hnc
    -- the page is not in the chain, so nothing on the chain is touched
    have hk : Kept s.env { s.env with pool := pool } pages :=
      Kept.of_frames (fun j hj => alloc_new_frame halloc (by rintro rfl; exact hnc hj))
        (List.suffix_refl _)
    have hc := h.chain.kept hk
    have hexecs : ∀ (c : Nat) client, s.clients[c]? = some client →
        client.exec_status = .pending → ExecInv rel { s.env with pool := pool } pages client.exec_buf :=
      fun c client hcl hp => (h.execs c client hcl hp).kept hk
    have hunique := h.unique.kept hk
    refine ⟨pages, ⟨hc.kind, hc.head, hc.link, hc.rows, ?_, ?_⟩, hexecs, hunique⟩
    · have hnd := h.chain.nodup
      rw [← List.append_assoc, List.nodup_append]
      refine ⟨hnd, List.nodup_singleton id, ?_⟩
      intro a ha b hb hab
      rw [List.mem_singleton.mp hb] at hab
      subst hab
      rcases List.mem_append.mp ha with ha | ha
      · exact hnc ha
      · exact hns ha
    · have h0 := h.chain.nonzero
      intro hmem
      rw [← List.append_assoc, List.mem_append] at hmem
      rcases hmem with hmem | hmem
      · exact h0 hmem
      · exact hne (List.mem_singleton.mp hmem).symm
  | turn turns ticks => exact h.turn hstep hok

theorem dshellInv_reachable {crc32c : UInt32 → List UInt8 → UInt32}
    (h : ((dshellSystem crc32c rel).restrict (NoRival rel)).Reachable s) :
    ∃ pages, DshellInv rel s pages := by
  refine h.invariant (fun s => ∃ pages, DshellInv rel s pages) ?_ ?_
  · intro s hinit
    obtain ⟨hnew, hidle, -⟩ := hinit
    refine ⟨[rel.root_page_id], hnew.chain, ?_, hnew.uniqueIn⟩
    intro c client hc hp
    rw [hidle client (List.mem_of_getElem? hc)] at hp
    simp at hp
  · intro s act s' hinv hstep
    obtain ⟨pages, hinv⟩ := hinv
    exact hinv.step hstep.1 hstep.2

end runs

/-- **Unique keys**: in every run in which no client gets a slice while
    another one is under way with the same key, keys are unique in every
    state reached. -/
theorem heap_keys_unique (crc32c : UInt32 → List UInt8 → UInt32) (rel : Relation) (s : DshellSys)
    (h : ((dshellSystem crc32c rel).restrict (NoRival rel)).Reachable s) : UniqueRows rel s.env := by
  obtain ⟨pages, hinv⟩ := dshellInv_reachable h
  exact hinv.chain.uniqueRows_iff.mpr hinv.unique

/-! ### Two clients -/

instance (m : Mem) (i : Nat) (key : TupleId) : Decidable (HoldsRow m i key) :=
  inferInstanceAs (Decidable (_ ∧ _))

/-- A new table with root page 200, and an empty ring. -/
def newHeapEnv : ExecEnv :=
  { newTableEnv with
    staged := []
    pool :=
      { newTableEnv.pool with
        cached := fun id =>
          if id = 200 then some (heap_init_page (newFrame 200 KDS_PAGE_FLAG_ALLOC)) else none } }

def newHeapRel : Relation := ⟨200, .heap⟩

theorem newHeapEnv_new : NewHeapTable newHeapRel newHeapEnv :=
  ⟨rfl, ⟨_, rfl⟩, by decide, by decide⟩

def twoClients : DshellSys := ⟨newHeapEnv, [newClient, newClient], 0⟩

theorem twoClients_init : (dshellSystem crc32c_le newHeapRel).init twoClients := by
  refine ⟨newHeapEnv_new, ?_, rfl⟩
  intro client hc
  simp only [twoClients, List.mem_cons, List.not_mem_nil, or_false, or_self] at hc
  rw [hc, newClient]

/-- Client `c` sends the row with this key. -/
def sent (c : Nat) (key : UInt64) (s : DshellSys) : DshellSys :=
  { s with
    clients := s.clients.set c
      { exec_status := .pending
        exec_buf :=
          kds_heap_insert_exec_init (some newHeapRel) (keyRow key).data (keyRow key).data_len
            KDS_DSHELL_XID } }

/-- The proc goes on by one client. -/
def turned (ticks : List Bool) (s : DshellSys) : DshellSys := (procTurn crc32c_le 2 ticks s).getD s

theorem sent_step {s : DshellSys} {c : Nat} (key : UInt64)
    (h : ∃ client, s.clients[c]? = some client ∧ client.exec_status = .idle) :
    (dshellSystem crc32c_le newHeapRel).step s (.submit c (keyRow key)) (sent c key s) := by
  refine ⟨h, ?_, ?_, rfl⟩
  · exact (keyRow_ok key).1
  · exact (by decide : 8 ≤ 256)

theorem turned_step {s : DshellSys} (ticks : List Bool)
    (h : (procTurn crc32c_le 2 ticks s).isSome = true) :
    (dshellSystem crc32c_le newHeapRel).step s (.turn 2 ticks) (turned ticks s) := by
  obtain ⟨s', hs'⟩ := Option.isSome_iff_exists.mp h
  show procTurn crc32c_le 2 ticks s = some (turned ticks s)
  rw [turned, hs', Option.getD_some]

/-- The second client has looked for key 5 and waits for its next slice. -/
def scannedFor5 : DshellSys := turned [true] (turned [] (sent 1 5 twoClients))

/-- The first client sends key 6 and is served first, then the second one. -/
def bothServed : DshellSys := turned [] (turned [] (sent 0 6 scannedFor5))

/-- Clients with different keys are no rivals. -/
theorem noRival_of_nodup {rel : Relation} {s : DshellSys}
    (h : (s.clients.map fun client => client.exec_buf.new_pk).Nodup) (act : DshellAct) :
    NoRival rel s act := by
  cases act with
  | turn turns ticks =>
    intro client hclient _ d rival hd hrival _ _ heq
    have hkey : (s.clients.map fun client => client.exec_buf.new_pk)[d]? =
        (s.clients.map fun client => client.exec_buf.new_pk)[s.pos]? := by
      rw [List.getElem?_map, List.getElem?_map, hclient, hrival, Option.map_some, Option.map_some, heq]
    have hlt : d < (s.clients.map fun client => client.exec_buf.new_pk).length := by
      rw [List.length_map]
      exact (List.getElem?_eq_some_iff.mp hrival).1
    exact hd ((List.getElem?_inj hlt h).mp hkey)
  | _ => trivial

/-- Two clients in turn, one between the slices of the other: both rows are in. -/
theorem heap_keys_unique_two_clients :
    UniqueRows newHeapRel bothServed.env ∧
      HoldsRow (bothServed.env.page 200) 0 6 ∧ HoldsRow (bothServed.env.page 200) 1 5 := by
  refine ⟨heap_keys_unique crc32c_le newHeapRel _ ?_, by decide +kernel⟩
  have h₁ : ((dshellSystem crc32c_le newHeapRel).restrict (NoRival newHeapRel)).Reachable
      (sent 1 5 twoClients) :=
    .step _ (.init twoClients_init) ⟨sent_step 5 ⟨newClient, rfl, rfl⟩, trivial⟩
  have h₂ := h₁.step _ ⟨turned_step [] (by decide +kernel), noRival_of_nodup (by decide +kernel) _⟩
  have h₃ : ((dshellSystem crc32c_le newHeapRel).restrict (NoRival newHeapRel)).Reachable scannedFor5 :=
    h₂.step _ ⟨turned_step [true] (by decide +kernel), noRival_of_nodup (by decide +kernel) _⟩
  have hidle : (scannedFor5.clients.map HeapClient.exec_status)[0]? = some .idle := by decide +kernel
  rw [List.getElem?_map, Option.map_eq_some_iff] at hidle
  have h₄ := h₃.step _ ⟨sent_step 6 hidle, trivial⟩
  have h₅ := h₄.step _ ⟨turned_step [] (by decide +kernel), noRival_of_nodup (by decide +kernel) _⟩
  exact h₅.step _ ⟨turned_step [] (by decide +kernel), noRival_of_nodup (by decide +kernel) _⟩

/-- The first client sends key 5 as well and is served first, then the second one. -/
def bothInserted : DshellSys := turned [] (turned [] (sent 0 5 scannedFor5))

/-- Key 5 is in the table twice. -/
theorem rival_inserts_key_twice :
    (dshellSystem crc32c_le newHeapRel).Reachable bothInserted ∧
      HoldsRow (bothInserted.env.page 200) 0 5 ∧ HoldsRow (bothInserted.env.page 200) 1 5 ∧
      ¬ UniqueRows newHeapRel bothInserted.env := by
  have hrows : HoldsRow (bothInserted.env.page 200) 0 5 ∧
      HoldsRow (bothInserted.env.page 200) 1 5 := by decide +kernel
  refine ⟨?_, hrows.1, hrows.2, ?_⟩
  · have h₁ := System.Reachable.step _ (.init twoClients_init)
      (sent_step 5 ⟨newClient, rfl, rfl⟩ :
        (dshellSystem crc32c_le newHeapRel).step twoClients _ (sent 1 5 twoClients))
    have h₂ := h₁.step _ (turned_step [] (by decide +kernel))
    have h₃ : (dshellSystem crc32c_le newHeapRel).Reachable scannedFor5 :=
      h₂.step _ (turned_step [true] (by decide +kernel))
    have hidle : (scannedFor5.clients.map HeapClient.exec_status)[0]? = some .idle := by
      decide +kernel
    rw [List.getElem?_map, Option.map_eq_some_iff] at hidle
    have h₄ := h₃.step _ (sent_step 5 hidle)
    have h₅ := h₄.step _ (turned_step [] (by decide +kernel))
    exact h₅.step _ (turned_step [] (by decide +kernel))
  · intro hu
    have heq := hu 200 200 0 1 5 .root .root hrows.1 hrows.2
    exact absurd heq.2 (by decide)

end Kds
