import Kds.Exec.Slices
import Kds.Heap.Undo

/-! # An insert into a HEAP table, from its start to its end

    One exec, alone, with a row of 8 to 256 bytes for a table whose rows are of
    these lengths as well. It is called until it no longer asks for more. Then
    it has refused the row because of its key, or it has added it to the live
    tuples of the table and to nothing else, or an error has kept it from
    changing the table at all.

    A page may have to be read from disk, which can fail. The second walk
    follows the first one, so that most of its pages are in the pool by then;
    what it needs in addition is a page for the row.
-/

open Bytes Slices

namespace Kds

/-! ## Section 1: The rows of a table -/

theorem mem_liveRows {f : Frame} {t : Tuple} : t ∈ liveRows f ↔ ∃ i, (slotTable f).Holds i t := by
  unfold liveRows SlotTable.Holds
  rw [List.mem_filterMap, ← List.mem_iff_getElem?]
  simp

/-- The live tuples of these pages, page by page. -/
def chainRows (env : ExecEnv) (pages : List PageId) : List Tuple :=
  pages.flatMap fun id => liveRows (env.pool.frame id)

/-- A HEAP table and its chain: the keys are distinct, every row fits into the
    buffer of the scan, and every frame is that of its page. -/
structure TableChain (rel : Relation) (env : ExecEnv) (pages : List PageId) : Prop where
  chain : HeapChain rel env pages
  short : ∀ t ∈ chainRows env pages, t.data.length ≤ KDS_EXEC_ROW_SCAN_BUF.toNat
  unique : UniqueIn env pages
  own : ∀ id ∈ pages ++ env.staged, (env.pool.frame id).id = id

/-- A read of this row gives these bytes, whatever the size of the buffer. -/
def ReadsBack (env : ExecEnv) (tid : HeapTid) (row : List UInt8) : Prop :=
  ∀ out_buf_size : UInt16, row.length ≤ out_buf_size.toNat → ∃ hdr buf,
    heap_read_tuple (env.pool.frame tid.page_id) tid.slot true out_buf_size = .ok (hdr, buf) ∧
      hdr.data_len.toNat = row.length ∧ buf.take row.length = row

/-- The table with one more row, on one of its pages or on a new last one. -/
structure OneMoreRow (rel : Relation) (env : ExecEnv) (pages : List PageId) (tid : HeapTid) (t : Tuple)
    (env' : ExecEnv) (pages' : List PageId) : Prop where
  table : TableChain rel env' pages'
  grows : pages' = pages ∨ ∃ new, pages' = pages ++ [new]
  rows : (chainRows env' pages').Perm (t :: chainRows env pages)
  home : tid.page_id ∈ pages'
  reads : ReadsBack env' tid t.data

section rows

variable {rel : Relation} {env env' : ExecEnv} {pages : List PageId}

theorem chainRows_congr
    (h : ∀ id ∈ pages, liveRows (env'.pool.frame id) = liveRows (env.pool.frame id)) :
    chainRows env' pages = chainRows env pages :=
  List.flatMap_congr h

theorem chainRows_append (env : ExecEnv) (pages pages' : List PageId) :
    chainRows env (pages ++ pages') = chainRows env pages ++ chainRows env pages' := by
  simp [chainRows]

/-- One page has one more row. -/
theorem chainRows_put {id : PageId} {t : Tuple} (hnd : pages.Nodup) (hid : id ∈ pages)
    (hput : liveRows (env'.pool.frame id) = liveRows (env.pool.frame id) ++ [t])
    (hother : ∀ j ∈ pages, j ≠ id → env'.pool.frame j = env.pool.frame j) :
    (chainRows env' pages).Perm (t :: chainRows env pages) := by
  obtain ⟨pre, post, rfl⟩ := List.append_of_mem hid
  rw [List.nodup_middle, List.nodup_cons, List.mem_append] at hnd
  have hside : ∀ ids, ids ⊆ pre ++ id :: post → id ∉ ids → chainRows env' ids = chainRows env ids := by
    intro ids hsub hnot
    refine chainRows_congr fun j hj => ?_
    rw [hother j (hsub hj) (fun h => hnot (h ▸ hj))]
  have hpre := hside pre (by simp) (fun h => hnd.1 (.inl h))
  have hpost := hside post (by simp) (fun h => hnd.1 (.inr h))
  have hself : ∀ e : ExecEnv, chainRows e (id :: post) = liveRows (e.pool.frame id) ++ chainRows e post :=
    fun _ => rfl
  rw [chainRows_append, chainRows_append, hself, hself, hpre, hpost, hput]
  -- the new row is behind the old ones of its page
  have hmid : ((chainRows env pre ++ liveRows (env.pool.frame id)) ++ t :: chainRows env post).Perm
      (t :: ((chainRows env pre ++ liveRows (env.pool.frame id)) ++ chainRows env post)) :=
    List.perm_middle
  simpa only [List.append_assoc, List.singleton_append] using hmid

/-- A live row fits into the buffer. -/
theorem TableChain.rowLen_le (h : TableChain rel env pages) {id : PageId} (hid : id ∈ pages) {i : Nat}
    (hlive : LiveSlot (env.page id) i) : rowLen (env.page id) i ≤ KDS_EXEC_ROW_SCAN_BUF.toNat := by
  have hmem : heapTuple (env.page id) i ∈ chainRows env pages :=
    List.mem_flatMap.mpr ⟨id, hid, mem_liveRows.mpr ⟨i, slotTable_holds_iff.mpr ⟨hlive, rfl⟩⟩⟩
  have hlen := h.short _ hmem
  simpa [heapTuple, rowLen] using hlen

/-- Frames and ring are as before. -/
theorem TableChain.of_frame (h : TableChain rel env pages) (hf : env'.pool.frame = env.pool.frame)
    (hs : env'.staged = env.staged) : TableChain rel env' pages where
  chain := h.chain.kept (Kept.of_frame hf hs)
  short := by
    unfold chainRows
    rw [hf]
    exact h.short
  unique := h.unique.kept (Kept.of_frame hf hs)
  own := by
    rw [hf, hs]
    exact h.own

end rows

/-! ## Section 2: Loads -/

/-- No load fails on a walk over these pages. -/
def Pool.LoadsAll (p : Pool) (ids : List PageId) : Prop :=
  ∀ k < (ids.map (loadCount p)).sum, p.fail k = none

/-- No load fails with `EEXIST`: `kds_buf_lookup_or_load` keeps the one of a
    frame that has been registered in between to itself. -/
def Pool.NoEexist (p : Pool) : Prop := ∀ k, p.fail k ≠ some .EEXIST

/-- A page holds the key, and no load on the way to it fails. -/
def KeyReached (env : ExecEnv) (pages : List PageId) (key : TupleId) : Prop :=
  ∃ pre id post, pages = pre ++ id :: post ∧ (∃ i, HoldsRow (env.page id) i key) ∧
    env.pool.LoadsAll (pre ++ [id])

section loads

variable {p p' : Pool} {id : PageId} {ids : List PageId}

theorem lookup_or_load_error {e : Errno} (h : kds_buf_lookup_or_load p id = (.error e, p')) :
    p.fail 0 = some e := by
  unfold kds_buf_lookup_or_load at h
  split at h
  · simp at h
  · split at h
    · next hfail =>
      rw [hfail, Except.error.inj (Prod.mk.inj h).1]
    · simp at h

theorem RowElsewhere.noEexist (h : RowElsewhere p p' id) (hp : p.NoEexist) : p'.NoEexist := by
  intro k
  rw [h.fail]
  exact hp _

/-- The first page of a walk, and the walk over the others after it. -/
theorem RowElsewhere.loadsAll_cons (h : RowElsewhere p p' id) (hid : id ∉ ids) :
    p.LoadsAll (id :: ids) ↔ LoadsAt p 0 id ∧ p'.LoadsAll ids := by
  have hrest : ids.map (loadCount p') = ids.map (loadCount p) :=
    List.map_congr_left fun j hj => h.loadCount_eq (fun heq => hid (heq ▸ hj))
  unfold Pool.LoadsAll LoadsAt
  simp only [hrest, h.fail, List.map_cons, List.sum_cons]
  by_cases hc : (p.cached id).isSome
  · have hcount : loadCount p id = 0 := if_pos hc
    simp [hcount, hc]
  · have hcount : loadCount p id = 1 := if_neg hc
    rw [hcount]
    constructor
    · intro hall
      exact ⟨.inr (hall 0 (by omega)), fun k hk => hall (k + 1) (by omega)⟩
    · rintro ⟨hfirst | hfirst, hall⟩ k hk
      · exact absurd hfirst hc
      · cases k with
        | zero => exact hfirst
        | succ k => exact hall k (by omega)

end loads

section reached

variable {env env' : ExecEnv} {id : PageId} {ids : List PageId} {key : TupleId}

/-- The key is on the first page, or it is reached from the second one on. -/
theorem keyReached_cons (h : RowElsewhere env.pool env'.pool id)
    (hf : env'.pool.frame = env.pool.frame) (hid : id ∉ ids) :
    KeyReached env (id :: ids) key ↔
      LoadsAt env.pool 0 id ∧ ((∃ i, HoldsRow (env.page id) i key) ∨ KeyReached env' ids key) := by
  have hpage : ∀ j, env'.page j = env.page j := by
    intro j
    unfold ExecEnv.page
    rw [hf]
  have hupto : ∀ pre j post, id ∈ pre ++ [j] → id ∈ pre ++ j :: post := by
    intro pre j post hmem
    rw [List.mem_append, List.mem_singleton] at hmem
    rw [List.mem_append, List.mem_cons]
    exact hmem.imp_right .inl
  constructor
  · rintro ⟨pre, j, post, hsplit, hrow, hloads⟩
    cases pre with
    | nil =>
      obtain ⟨rfl, rfl⟩ := List.cons.inj hsplit
      exact ⟨((h.loadsAll_cons List.not_mem_nil).mp hloads).1, .inl hrow⟩
    | cons b pre =>
      obtain ⟨rfl, rfl⟩ := List.cons.inj hsplit
      have hb : id ∉ pre ++ [j] := fun hmem => hid (hupto pre j post hmem)
      obtain ⟨hfirst, hrest⟩ := (h.loadsAll_cons hb).mp hloads
      exact ⟨hfirst, .inr ⟨pre, j, post, rfl, by rwa [hpage], hrest⟩⟩
  · rintro ⟨hfirst, hrow | ⟨pre, j, post, rfl, hrow, hloads⟩⟩
    · refine ⟨[], id, ids, rfl, hrow, (h.loadsAll_cons List.not_mem_nil).mpr ⟨hfirst, ?_⟩⟩
      exact fun k hk => absurd hk (Nat.not_lt_zero k)
    · have hb : id ∉ pre ++ [j] := fun hmem => hid (hupto pre j post hmem)
      refine ⟨id :: pre, j, post, rfl, by rwa [← hpage], ?_⟩
      exact (h.loadsAll_cons hb).mpr ⟨hfirst, hloads⟩

end reached

/-! ## Section 3: The scan, to its end -/

/-- The exec is still for this row of this table. -/
structure SameRow (exec exec' : HeapInsertExec) : Prop where
  rel : exec'.rel = exec.rel
  data : exec'.data = exec.data
  data_len : exec'.data_len = exec.data_len
  xid : exec'.xid = exec.xid
  new_pk : exec'.new_pk = exec.new_pk

theorem SameRow.refl (exec : HeapInsertExec) : SameRow exec exec := ⟨rfl, rfl, rfl, rfl, rfl⟩

theorem SameRow.goTo {exec exec' : HeapInsertExec} {next : PageId} (h : SameRow (exec.goTo next) exec') :
    SameRow exec exec' :=
  ⟨h.rel, h.data, h.data_len, h.xid, h.new_pk⟩

/-- Every slot is looked at up to the first that holds the key, and no row is too long. -/
theorem scanSlots_ends {f : Frame} (hlong : ∀ i, LiveSlot f.page i → 8 ≤ rowLen f.page i)
    (hshort : ∀ i, LiveSlot f.page i → rowLen f.page i ≤ KDS_EXEC_ROW_SCAN_BUF.toNat) (key : TupleId)
    (count : Nat) : ∀ slot, slot + count = (heap_nr_slots f).toNat →
    ∃ found, scanSlots f key slot count = .ok found ∧
      (found = true ↔ ∃ i, slot ≤ i ∧ HoldsRow f.page i key) := by
  induction count with
  | zero =>
    intro slot hslot
    refine ⟨false, rfl, by simp, ?_⟩
    rintro ⟨i, hi, hrow⟩
    have hlt : i < (heap_nr_slots f).toNat := hrow.1.1
    omega
  | succ count ih =>
    intro slot hslot
    have hlt := (heap_nr_slots f).toNat_lt
    obtain ⟨found, hrest, hfound⟩ := ih (slot + 1) (by omega)
    rw [scanSlots_succ (by omega) (hlong slot)]
    -- a slot without the key leaves the later ones
    have hpass : ¬ HoldsRow f.page slot key →
        (found = true ↔ ∃ i, slot ≤ i ∧ HoldsRow f.page i key) := by
      intro hnot
      rw [hfound]
      constructor
      · rintro ⟨i, hi, hrow⟩
        exact ⟨i, by omega, hrow⟩
      · rintro ⟨i, hi, hrow⟩
        refine ⟨i, Nat.lt_of_le_of_ne hi ?_, hrow⟩
        rintro rfl
        exact hnot hrow
    split_ifs with hlive hbig heq
    · exact absurd (hshort slot hlive) (Nat.not_le.mpr hbig)
    · exact ⟨true, rfl, iff_of_true rfl ⟨slot, Nat.le_refl _, hlive, heq⟩⟩
    · exact ⟨found, hrest, hpass fun hrow => heq hrow.2⟩
    · exact ⟨found, hrest, hpass fun hrow => hlive hrow.1⟩

section scan

variable {rel : Relation} {env : ExecEnv} {pages : List PageId}

/-- One page of the scan, for all that can come of it. -/
theorem scan_page_ends (h : TableChain rel env pages) {id : PageId} (hid : id ∈ pages) (key : TupleId)
    {res : Except Errno (Bool × PageId)} {pool : Pool}
    (hrun : kds_heap_scan_page_for_pk env.pool id key = (res, pool)) :
    pool.frame = env.pool.frame ∧ RowElsewhere env.pool pool id ∧
      ((∃ e, res = .error e ∧ env.pool.fail 0 = some e ∧ ¬ LoadsAt env.pool 0 id) ∨
        ∃ found, res = .ok (found, env.next id) ∧ LoadsAt env.pool 0 id ∧
          (found = true ↔ ∃ i, HoldsRow (env.page id) i key)) := by
  unfold kds_heap_scan_page_for_pk at hrun
  cases hload : kds_buf_lookup_or_load env.pool id with
  | mk lres p =>
    have hframe := (lookup_or_load_loadOnly hload).1.frame
    obtain ⟨helse, -, ⟨e, rfl, hfails⟩ | ⟨rfl, hloads, -⟩⟩ := lookup_or_load_iff hload
    · rw [hload] at hrun
      obtain ⟨rfl, rfl⟩ := Prod.mk.inj hrun
      exact ⟨hframe, helse, .inl ⟨e, rfl, lookup_or_load_error hload, hfails⟩⟩
    · obtain ⟨found, hscan, hfound⟩ := scanSlots_ends (f := env.pool.frame id) (h.chain.rows id hid).long
        (fun i hi => h.rowLen_le hid hi) key _ 0 (Nat.zero_add _)
      rw [hload] at hrun
      dsimp only at hrun
      rw [hframe, hscan] at hrun
      obtain ⟨rfl, rfl⟩ := Prod.mk.inj hrun
      refine ⟨hframe, ⟨helse.cached, helse.frame, helse.fail⟩, .inr ⟨found, rfl, hloads, ?_⟩⟩
      simp only [Nat.zero_le, true_and] at hfound
      exact hfound

/-- What a scan whose slice never expires has done when it is over. -/
structure ScanEnd (env : ExecEnv) (exec : HeapInsertExec) (ids : List PageId) (r : ExecResult)
    (exec' : HeapInsertExec) (env' : ExecEnv) : Prop where
  frame : env'.pool.frame = env.pool.frame
  staged : env'.staged = env.staged
  ticks : env'.ticks = []
  noEexist : env'.pool.NoEexist
  row : SameRow exec exec'
  ended : r ≠ .cont
  eexist : (r = .error ∧ exec'.ret = some .EEXIST) ↔ KeyReached env ids exec.new_pk

/-- **The scan** stops with `EEXIST` exactly if it gets to a page with the key. -/
theorem dup_scan_ends (turns : Nat) : ∀ {env : ExecEnv} {exec : HeapInsertExec} {pre suf : List PageId},
    TableChain rel env pages → pages = pre ++ suf → exec.cursor_page_id = suf.headD 0 →
    env.ticks = [] → env.pool.NoEexist → ∀ {r exec' env'},
    heap_insert_run_dup_scan exec env turns = some (r, exec', env') →
      ScanEnd env exec suf r exec' env' := by
  induction turns with
  | zero =>
    intro env exec pre suf _ _ _ _ _ r exec' env' hrun
    simp [heap_insert_run_dup_scan] at hrun
  | succ n ih =>
    intro env exec pre suf h hpages hcur hticks hno r exec' env' hrun
    unfold heap_insert_run_dup_scan at hrun
    cases suf with
    | nil =>
      rw [if_pos (by exact hcur)] at hrun
      obtain ⟨rfl, rfl, rfl⟩ : ExecResult.done = r ∧ exec = exec' ∧ env = env' := by simpa using hrun
      refine ⟨rfl, rfl, hticks, hno, .refl _, by simp, by simp, ?_⟩
      rintro ⟨pre, id, post, hsplit, -⟩
      simp at hsplit
    | cons b suf =>
      have hb : exec.cursor_page_id = b := hcur
      have hmem : b ∈ pages := by rw [hpages]; simp
      have hb0 : b ≠ 0 := by
        rintro rfl
        exact h.chain.nonzero (List.mem_append_left _ hmem)
      have hnot : b ∉ suf := by
        have hnd := (List.nodup_append.mp h.chain.nodup).1
        rw [hpages, List.nodup_append, List.nodup_cons] at hnd
        exact hnd.2.1.1
      have hlink : env.next b = suf.headD 0 := h.chain.link pre b suf hpages
      rw [hb, if_neg hb0] at hrun
      cases hscan : kds_heap_scan_page_for_pk env.pool b exec.new_pk with
      | mk res pool =>
        obtain ⟨hframe, helse, hres⟩ := scan_page_ends h hmem exec.new_pk hscan
        have hreach : KeyReached env (b :: suf) exec.new_pk ↔ LoadsAt env.pool 0 b ∧
            ((∃ i, HoldsRow (env.page b) i exec.new_pk) ∨
              KeyReached { env with pool := pool } suf exec.new_pk) :=
          keyReached_cons helse hframe hnot
        have hno' : pool.NoEexist := helse.noEexist hno
        rw [hscan] at hrun
        rcases hres with ⟨e, rfl, hfail, hfails⟩ | ⟨found, rfl, hloads, hfound⟩
        · obtain ⟨rfl, rfl, rfl⟩ : ExecResult.error = r ∧ exec.fail e = exec' ∧
              { env with pool := pool } = env' := by simpa using hrun
          refine ⟨hframe, rfl, hticks, hno', ⟨rfl, rfl, rfl, rfl, rfl⟩, by simp, ?_⟩
          rw [hreach]
          refine iff_of_false ?_ (fun hboth => hfails hboth.1)
          rintro ⟨-, he⟩
          exact hno 0 (hfail.trans he)
        · cases found with
          | true =>
            obtain ⟨rfl, rfl, rfl⟩ : ExecResult.error = r ∧ exec.fail .EEXIST = exec' ∧
                { env with pool := pool } = env' := by simpa using hrun
            refine ⟨hframe, rfl, hticks, hno', ⟨rfl, rfl, rfl, rfl, rfl⟩, by simp, ?_⟩
            rw [hreach]
            exact iff_of_true ⟨rfl, rfl⟩ ⟨hloads, .inl (hfound.mp rfl)⟩
          | false =>
            have hnone : ¬ ∃ i, HoldsRow (env.page b) i exec.new_pk := fun hrow => by
              simpa using hfound.mpr hrow
            -- the clock does not stop it, so that the next page follows at once
            have hrun' : heap_insert_run_dup_scan (exec.goTo (env.next b)) { env with pool := pool } n =
                some (r, exec', env') := by
              have htick : kds_exec_slice_expired { env with pool := pool } =
                  (false, { env with pool := pool }) := by
                simp [kds_exec_slice_expired, hticks]
              dsimp only at hrun
              rw [htick] at hrun
              simpa using hrun
            have h' : TableChain rel { env with pool := pool } pages := h.of_frame hframe rfl
            have hpages' : pages = (pre ++ [b]) ++ suf := by rw [hpages]; simp
            have hcur' : (exec.goTo (env.next b)).cursor_page_id = suf.headD 0 := hlink
            have hrest := ih h' hpages' hcur' hticks hno' hrun'
            refine ⟨hrest.frame.trans hframe, hrest.staged, hrest.ticks, hrest.noEexist, hrest.row.goTo,
              hrest.ended, ?_⟩
            rw [hrest.eexist, hreach]
            simp only [hloads, hnone, true_and, false_or]
            rfl

end scan

/-! ## Section 4: The search for space, to its end -/

/-- What the search for space does to the frames: an insert into a page of
    the chain, or one into a new page that the last page then points to, or
    nothing but an error. -/
inductive TailEnd (env : ExecEnv) (exec : HeapInsertExec) (pages : List PageId) :
    ExecResult → HeapInsertExec → ExecEnv → Prop where
  | fails {exec' : HeapInsertExec} {env' : ExecEnv} {e : Errno} :
      (∀ id ∈ pages ++ env'.staged, env'.pool.frame id = env.pool.frame id) →
      env'.staged <:+ env.staged → exec'.ret = some e → e ≠ .EEXIST →
      TailEnd env exec pages .error exec' env'
  | puts {exec' : HeapInsertExec} {env' : ExecEnv} {id : PageId} {f : Frame} :
      id ∈ pages →
      heap_insert_tuple (env.pool.frame id) (some exec.data) exec.data_len exec.xid =
        (.ok exec'.out_tid, f) →
      env'.pool.frame id = f → (∀ j ≠ id, env'.pool.frame j = env.pool.frame j) →
      env'.staged = env.staged → TailEnd env exec pages .done exec' env'
  | grows {exec' : HeapInsertExec} {env' : ExecEnv} {pre : List PageId} {last new : PageId}
      {g f : Frame} :
      pages = pre ++ [last] → env.staged = new :: env'.staged → g.id = (env.pool.frame new).id →
      heap_insert_tuple (heap_init_page g) (some exec.data) exec.data_len exec.xid =
        (.ok exec'.out_tid, f) →
      env'.pool.frame new = f →
      env'.pool.frame last = (heap_set_next_page_id (env.pool.frame last) new).2 →
      (∀ j, j ≠ new → j ≠ last → env'.pool.frame j = env.pool.frame j) →
      TailEnd env exec pages .done exec' env'

section tail

variable {rel : Relation} {env : ExecEnv} {exec : HeapInsertExec} {pages : List PageId}

/-- What is done behind a part that changed no frame. -/
theorem TailEnd.of_frame {env₁ env' : ExecEnv} {exec₁ exec' : HeapInsertExec} {r : ExecResult}
    (h : TailEnd env₁ exec₁ pages r exec' env') (hf : env₁.pool.frame = env.pool.frame)
    (hs : env₁.staged = env.staged) (hrow : SameRow exec exec₁) : TailEnd env exec pages r exec' env' := by
  cases h with
  | fails hsame hsuf hret hne =>
    rw [hf] at hsame
    rw [hs] at hsuf
    exact .fails hsame hsuf hret hne
  | puts hid hins hself hother hst =>
    rw [hf, hrow.data, hrow.data_len, hrow.xid] at hins
    rw [hf] at hother
    rw [hs] at hst
    exact .puts hid hins hself hother hst
  | grows hpages hst hg hins hnew hlast hother =>
    rw [hf] at hg hlast hother
    rw [hs] at hst
    rw [hrow.data, hrow.data_len, hrow.xid] at hins
    exact .grows hpages hst hg hins hnew hlast hother

/-- An insert that fails does not say `EEXIST`. -/
theorem heap_insert_not_eexist {f f' : Frame} {data : Option Mem} {data_len : UInt16} {xmin : UInt64}
    {e : Errno} (h : heap_insert_tuple f data data_len xmin = (.error e, f')) : e ≠ .EEXIST := by
  unfold heap_insert_tuple heap_insert_tuple_ex at h
  dsimp only at h
  split_ifs at h
  all_goals
    obtain ⟨he, -⟩ := Prod.mk.inj h
    cases he
  all_goals simp

theorem putRow_cases {pool pool' : Pool} {frame : PageId} {res : Except Errno HeapTid}
    (hrun : putRow pool frame exec = (res, pool')) :
    ∃ f, heap_insert_tuple (pool.frame frame) (some exec.data) exec.data_len exec.xid = (res, f) ∧
      pool'.frame frame = f ∧ pool'.fail = pool.fail ∧
      ∀ j ≠ frame, pool'.frame j = pool.frame j := by
  unfold putRow at hrun
  cases hins : heap_insert_tuple (pool.frame frame) (some exec.data) exec.data_len exec.xid with
  | mk ires f =>
    rw [hins] at hrun
    obtain ⟨rfl, rfl⟩ := Prod.mk.inj hrun
    exact ⟨f, rfl, Pool.frame_setFrame_self _ _ _, rfl, fun j hj => pool.frame_setFrame_ne f hj⟩

/-- The chain grows, or there is no page to grow it with. -/
theorem growChain_ends {pre : List PageId} {last : PageId} (h : HeapChain rel env pages)
    (hpages : pages = pre ++ [last]) {r : ExecResult} {exec' : HeapInsertExec} {env' : ExecEnv}
    (hrun : growChain exec env last = (r, exec', env')) : TailEnd env exec pages r exec' env' := by
  unfold growChain kds_page_alloc at hrun
  cases hst : env.staged with
  | nil =>
    rw [hst] at hrun
    obtain ⟨rfl, rfl, rfl⟩ : ExecResult.error = r ∧ exec.fail .ENOSPC = exec' ∧
      { env with pool := kds_buf_unpin env.pool last } = env' := by simpa using hrun
    exact .fails (fun _ _ => rfl) (List.suffix_refl _) rfl (by simp)
  | cons new staged =>
    rw [hst] at hrun
    dsimp only at hrun
    have hnd := h.nodup
    rw [hst] at hnd
    have hlast : last ≠ new := fun heq =>
      (List.nodup_append.mp hnd).2.2 last (by rw [hpages]; simp) new (by simp) heq
    have hold : ∀ id ∈ pages ++ staged, id ≠ new := by
      rintro id hid rfl
      rw [List.nodup_middle, List.nodup_cons] at hnd
      exact hnd.1 hid
    -- the new page, typed and initialised
    have hg : ((setPageType env.pool new .heap).frame new).id = (env.pool.frame new).id := by
      unfold setPageType
      rw [Pool.frame_setFrame_self]
    have htyped : ∀ id ≠ new, (setPageType env.pool new .heap).frame id = env.pool.frame id :=
      fun id hid => env.pool.frame_setFrame_ne _ hid
    generalize setPageType env.pool new .heap = typed at hrun hg htyped
    cases hput : putRow (typed.setFrame new (heap_init_page (typed.frame new))) new exec with
    | mk res pool =>
      obtain ⟨f, hins, hself, -, hother⟩ := putRow_cases hput
      rw [Pool.frame_setFrame_self] at hins
      have hframe : ∀ id ≠ new, pool.frame id = env.pool.frame id := fun id hid =>
        (hother id hid).trans ((typed.frame_setFrame_ne _ hid).trans (htyped id hid))
      rw [hput] at hrun
      cases res with
      | error e =>
        obtain ⟨rfl, rfl, rfl⟩ : ExecResult.error = r ∧ exec.fail e = exec' ∧ _ = env' := by
          simpa using hrun
        refine .fails (fun id hid => hframe id (hold id hid)) ?_ rfl (heap_insert_not_eexist hins)
        rw [hst]
        exact List.suffix_cons _ _
      | ok tid =>
        dsimp only at hrun
        obtain ⟨rfl, rfl, rfl⟩ : ExecResult.done = r ∧ _ = exec' ∧ _ = env' := by simpa using hrun
        refine .grows hpages hst hg hins ?_ ?_ ?_
        · dsimp only
          rw [frame_unpin, frame_unpin, pool.frame_setFrame_ne _ (Ne.symm hlast)]
          exact hself
        · dsimp only
          rw [frame_unpin, frame_unpin, Pool.frame_setFrame_self, hframe last hlast]
        · intro j hjn hjl
          dsimp only
          rw [frame_unpin, frame_unpin, pool.frame_setFrame_ne _ hjl, hframe j hjn]

/-- **The search for space**, from a page of the chain on. -/
theorem find_tail_ends (turns : Nat) : ∀ {env : ExecEnv} {exec : HeapInsertExec},
    HeapChain rel env pages → exec.cursor_page_id ∈ pages → env.ticks = [] → env.pool.NoEexist →
    ∀ {r exec' env'}, heap_insert_run_find_tail exec env turns = some (r, exec', env') →
      TailEnd env exec pages r exec' env' := by
  induction turns with
  | zero =>
    intro env exec _ _ _ _ r exec' env' hrun
    simp [heap_insert_run_find_tail] at hrun
  | succ n ih =>
    intro env exec h hcur hticks hno r exec' env' hrun
    unfold heap_insert_run_find_tail at hrun
    cases hload : kds_buf_lookup_or_load env.pool exec.cursor_page_id with
    | mk lres p =>
      have hframe := (lookup_or_load_loadOnly hload).1.frame
      obtain ⟨helse, -, ⟨e, rfl, -⟩ | ⟨rfl, -, -⟩⟩ := lookup_or_load_iff hload
      · rw [hload] at hrun
        obtain ⟨rfl, rfl, rfl⟩ : ExecResult.error = r ∧ exec.fail e = exec' ∧
            { env with pool := p } = env' := by simpa using hrun
        refine .fails (fun id _ => congrFun hframe id) (List.suffix_refl _) rfl ?_
        rintro rfl
        exact hno 0 (lookup_or_load_error hload)
      · rw [hload] at hrun
        dsimp only at hrun
        cases hput : putRow p exec.cursor_page_id exec with
        | mk res pool =>
          obtain ⟨f, hins, hself, hfail, hother⟩ := putRow_cases hput
          rw [hframe] at hins hother
          rw [hput] at hrun
          cases res with
          | ok tid =>
            obtain ⟨rfl, rfl, rfl⟩ : ExecResult.done = r ∧ _ = exec' ∧ _ = env' := by simpa using hrun
            exact .puts hcur hins hself hother rfl
          | error e =>
            -- the page is as it was
            have hpool : pool.frame = env.pool.frame := by
              funext j
              by_cases hj : j = exec.cursor_page_id
              · rw [hj, hself, heap_insert_error hins]
              · exact hother j hj
            by_cases hsp : e = .ENOSPC
            · subst hsp
              dsimp only at hrun
              rw [hpool] at hrun
              obtain ⟨pre, post, hsplit⟩ := List.append_of_mem hcur
              have hlink : env.next exec.cursor_page_id = post.headD 0 := h.link _ _ _ hsplit
              cases post with
              | nil =>
                rw [if_pos (by exact hlink)] at hrun
                have h' : HeapChain rel { env with pool := pool } pages :=
                  h.kept (Kept.of_frame hpool rfl)
                exact (growChain_ends h' hsplit (Option.some.inj hrun)).of_frame hpool rfl (.refl _)
              | cons b post =>
                have hmem : b ∈ pages := by rw [hsplit]; simp
                have hb0 : b ≠ 0 := by
                  rintro rfl
                  exact h.nonzero (List.mem_append_left _ hmem)
                have hb : heap_get_next_page_id (env.pool.frame exec.cursor_page_id) = b := hlink
                have hrun' : heap_insert_run_find_tail (exec.goTo b)
                    { env with pool := kds_buf_unpin pool exec.cursor_page_id } n =
                      some (r, exec', env') := by
                  have htick : kds_exec_slice_expired
                      { env with pool := kds_buf_unpin pool exec.cursor_page_id } =
                        (false, { env with pool := kds_buf_unpin pool exec.cursor_page_id }) := by
                    simp [kds_exec_slice_expired, hticks]
                  rw [hb, if_neg hb0, htick] at hrun
                  simpa using hrun
                have h' : HeapChain rel
                    { env with pool := kds_buf_unpin pool exec.cursor_page_id } pages :=
                  h.kept (Kept.of_frame hpool rfl)
                have hno' : (kds_buf_unpin pool exec.cursor_page_id).NoEexist := by
                  intro k
                  rw [fail_unpin, hfail]
                  exact helse.noEexist hno k
                exact (ih h' hmem hticks hno' hrun').of_frame hpool rfl ⟨rfl, rfl, rfl, rfl, rfl⟩
            · have hrun' : some (ExecResult.error, exec.fail e,
                  { env with pool := kds_buf_unpin pool exec.cursor_page_id }) =
                    some (r, exec', env') := by
                cases e <;> first | exact absurd rfl hsp | exact hrun
              obtain ⟨rfl, rfl, rfl⟩ : ExecResult.error = r ∧ _ = exec' ∧ _ = env' := by
                simpa using hrun'
              exact .fails (fun id _ => congrFun hpool id) (List.suffix_refl _) rfl
                (heap_insert_not_eexist hins)

end tail

/-! ## Section 5: The table behind it -/

/-- The tuple an exec inserts. -/
def rowTuple (exec : HeapInsertExec) : Tuple :=
  ⟨exec.xid, 0, 0, exec.data.read 0 exec.data_len.toNat⟩

section table

variable {rel : Relation} {env env' : ExecEnv} {exec : HeapInsertExec} {pages pages' : List PageId}
  {f f' : Frame} {tid : HeapTid}

/-- The frame of a page behind an insert that went through. -/
structure FramePut (exec : HeapInsertExec) (f f' : Frame) (tid : HeapTid) : Prop where
  id : f'.id = f.id
  home : tid.page_id = f.id
  rows : liveRows f' = liveRows f ++ [rowTuple exec]
  holds : (slotTable f').Holds tid.slot.toNat (rowTuple exec)
  put : RowPut f.page f'.page exec.new_pk

theorem heap_insert_put (hjob : HeapJob rel exec) (hpage : RowPage f.page)
    (h : heap_insert_tuple f (some exec.data) exec.data_len exec.xid = (.ok tid, f')) :
    FramePut exec f f' tid := by
  obtain ⟨hkept, ⟨e, hbad, -⟩ | ⟨tid', htid, hhome, hslot, htable⟩⟩ := heap_insert_table hpage.inv h
  · cases hbad
  · obtain rfl : tid = tid' := Except.ok.inj htid
    refine ⟨hkept.id, hhome, liveRows_append htable, ?_, ?_⟩
    · rw [htable, hslot]
      exact SlotTable.append_holds _ _
    · rw [hjob.pk]
      exact hpage.insert hjob.len_ge h

theorem FramePut.readsBack (h : FramePut exec f f' tid) (hself : env'.pool.frame f.id = f') :
    ReadsBack env' tid (rowTuple exec).data := by
  intro out_buf_size hsize
  rw [h.home, hself]
  obtain ⟨hdr, buf, hread, -, -, -, hlen, -, htake⟩ :=
    (heapRefines_of_inv h.put.page.inv).read _ _ _ h.holds hsize
  exact ⟨hdr, buf, hread, hlen, htake⟩

theorem rowTuple_short (hjob : HeapJob rel exec) :
    (rowTuple exec).data.length ≤ KDS_EXEC_ROW_SCAN_BUF.toNat := by
  simpa [rowTuple] using hjob.len_le

/-- The rows are still short enough, the new one included. -/
theorem short_of_perm (h : TableChain rel env pages) (hjob : HeapJob rel exec)
    (hp : (chainRows env' pages').Perm (rowTuple exec :: chainRows env pages)) :
    ∀ t ∈ chainRows env' pages', t.data.length ≤ KDS_EXEC_ROW_SCAN_BUF.toNat := by
  intro t ht
  rcases List.mem_cons.mp (hp.subset ht) with rfl | ht
  · exact rowTuple_short hjob
  · exact h.short t ht

/-- The row is on a page of the chain. -/
theorem TableChain.puts (h : TableChain rel env pages) (hjob : HeapJob rel exec)
    (habs : Absent env pages exec.new_pk) {id : PageId} (hid : id ∈ pages)
    (hput : FramePut exec (env.pool.frame id) (env'.pool.frame id) tid)
    (hother : ∀ j ≠ id, env'.pool.frame j = env.pool.frame j) (hs : env'.staged = env.staged) :
    OneMoreRow rel env pages tid (rowTuple exec) env' pages := by
  have hown := h.own id (List.mem_append_left _ hid)
  have hpage : ∀ j ∈ pages, j ≠ id → env'.page j = env.page j := by
    intro j _ hj
    unfold ExecEnv.page
    rw [hother j hj]
  have hplaced := Placed.existing h.chain habs hid hput.put hpage hs
  have hrows : (chainRows env' pages).Perm (rowTuple exec :: chainRows env pages) :=
    chainRows_put (List.nodup_append.mp h.chain.nodup).1 hid hput.rows fun j _ hj => hother j hj
  refine ⟨⟨hplaced.chain, short_of_perm h hjob hrows, hplaced.uniqueIn h.unique, ?_⟩, .inl rfl, hrows,
    ?_, ?_⟩
  · intro j hj
    rw [hs] at hj
    by_cases hji : j = id
    · rw [hji, hput.id, hown]
    · rw [hother j hji]
      exact h.own j hj
  · rw [hput.home, hown]
    exact hid
  · exact hput.readsBack (by rw [hown])

/-- The row is on a new page behind the chain. -/
theorem TableChain.grows (h : TableChain rel env pages) (hjob : HeapJob rel exec)
    (habs : Absent env pages exec.new_pk) {pre : List PageId} {last new : PageId} {g : Frame}
    (hpages : pages = pre ++ [last]) (hst : env.staged = new :: env'.staged)
    (hg : g.id = (env.pool.frame new).id)
    (hput : FramePut exec (heap_init_page g) (env'.pool.frame new) tid)
    (hlast : env'.pool.frame last = (heap_set_next_page_id (env.pool.frame last) new).2)
    (hother : ∀ j, j ≠ new → j ≠ last → env'.pool.frame j = env.pool.frame j) :
    OneMoreRow rel env pages tid (rowTuple exec) env' (pages ++ [new]) := by
  have hnd := h.chain.nodup
  rw [hst] at hnd
  have hmem : last ∈ pages := by rw [hpages]; simp
  have hnew : new ∉ pages ++ env'.staged := by
    rw [List.nodup_middle, List.nodup_cons] at hnd
    exact hnd.1
  have hne : ∀ j ∈ pages, j ≠ new := fun j hj heq => hnew (heq ▸ List.mem_append_left _ hj)
  obtain ⟨hinit, hnone, hnext⟩ := rowPage_init g
  have hid : (heap_init_page g).id = new := by
    rw [show (heap_init_page g).id = g.id from rfl, hg, h.own new (by rw [hst]; simp)]
  have hset := heap_set_next_effect (env.pool.frame last) new
  rw [← hlast] at hset
  have hpage : ∀ j ∈ pages, j ≠ last → env'.page j = env.page j := by
    intro j hj hjl
    unfold ExecEnv.page
    rw [hother j (hne j hj) hjl]
  have hplaced : Placed rel env pages exec.new_pk env' (pages ++ [new]) :=
    Placed.newPage h.chain habs hpages hst hnone hnext hput.put hset hpage
  -- the link is behind the rows of the old last page
  have hold : chainRows env' pages = chainRows env pages := by
    refine chainRows_congr fun j hj => ?_
    by_cases hjl : j = last
    · unfold liveRows
      rw [hjl, hset.slotTable_eq (h.chain.rows last hmem).inv]
    · rw [hother j (hne j hj) hjl]
  have hfresh : liveRows (heap_init_page g) = [] := by
    unfold liveRows heap_init_page
    rw [slotTable_init]
    rfl
  have hrows : (chainRows env' (pages ++ [new])).Perm (rowTuple exec :: chainRows env pages) := by
    have hone : chainRows env' [new] = [rowTuple exec] := by
      simp [chainRows, hput.rows, hfresh]
    rw [chainRows_append, hold, hone]
    exact List.perm_append_singleton _ _
  refine ⟨⟨hplaced.chain, short_of_perm h hjob hrows, hplaced.uniqueIn h.unique, ?_⟩, .inr ⟨new, rfl⟩,
    hrows, ?_, ?_⟩
  · intro j hj
    by_cases hjn : j = new
    · rw [hjn, hput.id, hid]
    · have hj' : j ∈ pages ++ env.staged := by
        rw [hst]
        rw [List.append_assoc] at hj
        exact hj
      by_cases hjl : j = last
      · rw [hjl, hlast]
        exact h.own last (List.mem_append_left _ hmem)
      · rw [hother j hjn hjl]
        exact h.own j hj'
  · rw [hput.home, hid]
    simp
  · exact hput.readsBack (by rw [hid])

/-- An error leaves the table alone. -/
theorem TableChain.fails (h : TableChain rel env pages)
    (hf : ∀ id ∈ pages ++ env'.staged, env'.pool.frame id = env.pool.frame id)
    (hs : env'.staged <:+ env.staged) :
    TableChain rel env' pages ∧
      ∀ id ∈ pages, slotTable (env'.pool.frame id) = slotTable (env.pool.frame id) := by
  have hin : ∀ id ∈ pages, env'.pool.frame id = env.pool.frame id :=
    fun id hid => hf id (List.mem_append_left _ hid)
  have hk : Kept env env' pages := Kept.of_frames hin hs
  refine ⟨⟨h.chain.kept hk, ?_, h.unique.kept hk, ?_⟩, fun id hid => by rw [hin id hid]⟩
  · have heq : chainRows env' pages = chainRows env pages :=
      chainRows_congr fun id hid => by rw [hin id hid]
    rw [heq]
    exact h.short
  · intro id hid
    rw [hf id hid]
    exact h.own id ((hs.sublist.append_left pages).subset hid)

end table

/-! ## Section 6: Every run comes to an end -/

/-- The looks at the clock are used up one by one, and a part of the exec that
    stops early has seen its slice expire. -/
def Ticked (env : ExecEnv) (r : ExecResult) (env' : ExecEnv) : Prop :=
  env'.ticks.length ≤ env.ticks.length ∧ (r = .cont → env'.ticks.length < env.ticks.length)

section ends

variable {rel : Relation} {env env₁ env' : ExecEnv} {exec : HeapInsertExec} {pages : List PageId}
  {r : ExecResult}

theorem Ticked.refl (env : ExecEnv) (hr : r ≠ .cont) : Ticked env r env :=
  ⟨Nat.le_refl _, fun h => absurd h hr⟩

theorem Ticked.after (h : Ticked env₁ r env') (hle : env₁.ticks.length ≤ env.ticks.length) :
    Ticked env r env' :=
  ⟨h.1.trans hle, fun hr => Nat.lt_of_lt_of_le (h.2 hr) hle⟩

/-- A look at the clock. -/
theorem slice_ticked {expired : Bool} (h : kds_exec_slice_expired env = (expired, env₁)) :
    env₁.ticks.length ≤ env.ticks.length ∧
      (expired = true → env₁.ticks.length < env.ticks.length) := by
  unfold kds_exec_slice_expired at h
  cases hticks : env.ticks with
  | nil =>
    rw [hticks] at h
    obtain ⟨rfl, rfl⟩ := Prod.mk.inj h
    simp [hticks]
  | cons t ticks =>
    rw [hticks] at h
    obtain ⟨rfl, rfl⟩ := Prod.mk.inj h
    simp

/-- The scan ends within as many turns as there are pages, and one. -/
theorem dup_scan_total (turns : Nat) : ∀ {env : ExecEnv} {exec : HeapInsertExec} {pre suf : List PageId},
    HeapChain rel env pages → pages = pre ++ suf → exec.cursor_page_id = suf.headD 0 →
    suf.length < turns →
      ∃ r exec' env', heap_insert_run_dup_scan exec env turns = some (r, exec', env') ∧
        Ticked env r env' := by
  induction turns with
  | zero =>
    intro env exec pre suf _ _ _ hlt
    simp at hlt
  | succ n ih =>
    intro env exec pre suf h hpages hcur hlt
    unfold heap_insert_run_dup_scan
    by_cases hzero : exec.cursor_page_id = 0
    · rw [if_pos hzero]
      exact ⟨_, _, _, rfl, .refl _ (by simp)⟩
    · rw [if_neg hzero]
      cases suf with
      | nil => exact absurd hcur hzero
      | cons b suf =>
        have hb : exec.cursor_page_id = b := hcur
        have hmem : b ∈ pages := by rw [hpages]; simp
        rw [hb]
        cases hscan : kds_heap_scan_page_for_pk env.pool b exec.new_pk with
        | mk res pool =>
          obtain ⟨hframe, hnext⟩ := scan_page_spec h hmem exec.new_pk hscan
          cases res with
          | error e => exact ⟨_, _, _, rfl, .refl _ (by simp)⟩
          | ok found =>
            obtain ⟨_ | _, next⟩ := found
            swap
            · exact ⟨_, _, _, rfl, .refl _ (by simp)⟩
            obtain ⟨rfl, -⟩ := hnext next rfl
            have hlink : (exec.goTo (env.next b)).cursor_page_id = suf.headD 0 :=
              h.link pre b suf hpages
            have hpages' : pages = (pre ++ [b]) ++ suf := by rw [hpages]; simp
            have hlt' : suf.length < n := Nat.lt_of_succ_lt_succ hlt
            have hk : Kept env { env with pool := pool } pages := Kept.of_frame hframe rfl
            dsimp only
            -- the slice is looked at only if a page follows
            by_cases hend : env.next b = 0
            · rw [if_pos hend]
              exact ih (h.kept hk) hpages' hlink hlt'
            · rw [if_neg hend]
              have hk₂ := hk.trans (slice_kept { env with pool := pool } pages)
              cases htick : kds_exec_slice_expired { env with pool := pool } with
              | mk expired env₂ =>
                obtain ⟨hle, hexp⟩ := slice_ticked htick
                rw [htick] at hk₂
                cases expired with
                | true => exact ⟨_, _, _, rfl, hle, fun _ => hexp rfl⟩
                | false =>
                  obtain ⟨r, exec', env', hrun, hticked⟩ := ih (h.kept hk₂) hpages' hlink hlt'
                  exact ⟨r, exec', env', hrun, hticked.after hle⟩

theorem growChain_ticked (exec : HeapInsertExec) (env : ExecEnv) (frame : PageId) :
    Ticked env (growChain exec env frame).1 (growChain exec env frame).2.2 := by
  unfold growChain kds_page_alloc
  cases env.staged with
  | nil => exact .refl _ (by simp)
  | cons new staged =>
    dsimp only
    split
    · exact .refl _ (by simp)
    · exact .refl _ (by simp)

/-- The search ends within as many turns as there are pages from its cursor on. -/
theorem find_tail_total (turns : Nat) : ∀ {env : ExecEnv} {exec : HeapInsertExec} {pre post : List PageId},
    HeapChain rel env pages → pages = pre ++ exec.cursor_page_id :: post → post.length < turns →
      ∃ r exec' env', heap_insert_run_find_tail exec env turns = some (r, exec', env') ∧
        Ticked env r env' := by
  induction turns with
  | zero =>
    intro env exec pre post _ _ hlt
    simp at hlt
  | succ n ih =>
    intro env exec pre post h hpages hlt
    unfold heap_insert_run_find_tail
    cases hload : kds_buf_lookup_or_load env.pool exec.cursor_page_id with
    | mk lres p =>
      have hframe := (lookup_or_load_loadOnly hload).1.frame
      obtain ⟨-, -, ⟨e, rfl, -⟩ | ⟨rfl, -, -⟩⟩ := lookup_or_load_iff hload
      · exact ⟨_, _, _, rfl, .refl _ (by simp)⟩
      · dsimp only
        cases hput : putRow p exec.cursor_page_id exec with
        | mk res pool =>
          obtain ⟨-, hfail, -⟩ := putRow_spec hput
          rw [hframe] at hfail
          cases res with
          | ok tid => exact ⟨_, _, _, rfl, .refl _ (by simp)⟩
          | error e =>
            have hpool := hfail e rfl
            by_cases hsp : e = .ENOSPC
            · subst hsp
              dsimp only
              rw [hpool]
              have hlink : heap_get_next_page_id (env.pool.frame exec.cursor_page_id) = post.headD 0 :=
                h.link _ _ _ hpages
              -- behind the last page the chain grows, with no further turn
              by_cases hend : heap_get_next_page_id (env.pool.frame exec.cursor_page_id) = 0
              · rw [if_pos hend]
                exact ⟨_, _, _, rfl, growChain_ticked exec { env with pool := pool } _⟩
              · rw [if_neg hend]
                have hk : Kept env { env with pool := kds_buf_unpin pool exec.cursor_page_id } pages :=
                  Kept.of_frame hpool rfl
                have hk₂ := hk.trans (slice_kept _ pages)
                cases post with
                | nil => exact absurd hlink hend
                | cons b post =>
                  have hb : heap_get_next_page_id (env.pool.frame exec.cursor_page_id) = b := hlink
                  rw [hb]
                  have hpages' : pages = (pre ++ [exec.cursor_page_id]) ++ (exec.goTo b).cursor_page_id :: post := by
                    rw [hpages]
                    simp [HeapInsertExec.goTo]
                  cases htick : kds_exec_slice_expired
                      { env with pool := kds_buf_unpin pool exec.cursor_page_id } with
                  | mk expired env₂ =>
                    obtain ⟨hle, hexp⟩ := slice_ticked htick
                    rw [htick] at hk₂
                    cases expired with
                    | true => exact ⟨_, _, _, rfl, hle, fun _ => hexp rfl⟩
                    | false =>
                      obtain ⟨r, exec', env', hrun, hticked⟩ :=
                        ih (h.kept hk₂) hpages' (Nat.lt_of_succ_lt_succ hlt)
                      exact ⟨r, exec', env', hrun, hticked.after hle⟩
            · refine ⟨.error, exec.fail e, { env with pool := kds_buf_unpin pool exec.cursor_page_id },
                ?_, .refl _ (by simp)⟩
              cases e <;> first | exact absurd rfl hsp | rfl

end ends

section calls

variable (crc32c : UInt32 → List UInt8 → UInt32)

variable {rel : Relation} {env : ExecEnv} {exec : HeapInsertExec} {pages : List PageId} {turns : Nat}

/-- The log phases: the row stays where it is, whatever comes of the records. -/
theorem wal_phases_end (rel : Relation) (turns n : Nat) (exec : HeapInsertExec) (env : ExecEnv)
    (hphase : exec.phase = .walInitPage ∨ exec.phase = .walInsert) :
    ∃ exec' env', heapRunPhases crc32c rel turns exec env (n + 3) = some (.done, exec', env') ∧
      exec'.out_tid = exec.out_tid ∧ env'.pool.frame = env.pool.frame ∧ env'.staged = env.staged ∧
      env'.ticks = env.ticks := by
  have hinsert : ∀ (exec : HeapInsertExec) (env : ExecEnv),
      (heap_insert_run_wal_insert crc32c exec env).pool.frame = env.pool.frame ∧
        (heap_insert_run_wal_insert crc32c exec env).staged = env.staged ∧
        (heap_insert_run_wal_insert crc32c exec env).ticks = env.ticks := by
    intro exec env
    unfold heap_insert_run_wal_insert
    dsimp only
    split
    · exact ⟨rfl, rfl, rfl⟩
    · exact ⟨rfl, rfl, rfl⟩
  rcases hphase with hphase | hphase
  · -- the record of the new page first
    have hinit : (heap_insert_run_wal_init_page crc32c exec env).pool.frame = env.pool.frame ∧
        (heap_insert_run_wal_init_page crc32c exec env).staged = env.staged ∧
        (heap_insert_run_wal_init_page crc32c exec env).ticks = env.ticks := by
      unfold heap_insert_run_wal_init_page ExecEnv.append
      exact ⟨rfl, rfl, rfl⟩
    simp only [heapRunPhases, heapRunPhase, hphase, Option.bind_eq_bind, Option.bind_some]
    generalize heap_insert_run_wal_init_page crc32c exec env = env₁ at hinit
    obtain ⟨hf, hs, ht⟩ := hinsert { exec with phase := .walInsert } env₁
    exact ⟨_, _, rfl, rfl, hf.trans hinit.1, hs.trans hinit.2.1, ht.trans hinit.2.2⟩
  · simp only [heapRunPhases, heapRunPhase, hphase, Option.bind_eq_bind, Option.bind_some]
    exact ⟨_, _, rfl, rfl, hinsert exec env⟩

/-- The phases from the search for space on. -/
theorem tail_phases {n : Nat} (hphase : exec.phase = .findTail) :
    heapRunPhases crc32c rel turns exec env (n + 4) =
      if (kds_exec_slice_expired env).1 then some (.cont, exec, (kds_exec_slice_expired env).2)
      else (heap_insert_run_find_tail exec (kds_exec_slice_expired env).2 turns).bind fun out =>
        if out.1 ≠ .done then some out
        else heapRunPhases crc32c rel turns
          { out.2.1 with phase := if out.2.1.wal_need_init_page then .walInitPage else .walInsert }
          out.2.2 (n + 3) := by
  rw [heapRunPhases, heapRunPhase, hphase]
  dsimp only
  cases hexp : (kds_exec_slice_expired env).1 with
  | true => simp
  | false =>
    cases htail : heap_insert_run_find_tail exec (kds_exec_slice_expired env).2 turns with
    | none => simp
    | some out =>
      obtain ⟨r, exec₁, env₁⟩ := out
      by_cases hr : r = .done
      · simp [hr]
      · simp [hr]

/-- A search for space in which the log follows. -/
theorem tail_phases_total (n : Nat) (exec : HeapInsertExec) (hphase : exec.phase = .findTail)
    (h : HeapChain rel env pages) (hcur : exec.cursor_page_id ∈ pages) :
    ∃ r exec' env',
      heapRunPhases crc32c rel (pages.length + 1) exec env (n + 4) = some (r, exec', env') ∧
        Ticked env r env' := by
  rw [tail_phases crc32c hphase]
  cases htick : kds_exec_slice_expired env with
  | mk expired env₁ =>
    obtain ⟨hle, hexp⟩ := slice_ticked htick
    cases expired with
    | true => exact ⟨_, _, _, rfl, hle, fun _ => hexp rfl⟩
    | false =>
      obtain ⟨pre, post, hsplit⟩ := List.append_of_mem hcur
      have hlen : post.length < pages.length + 1 := by
        rw [hsplit]
        simp only [List.length_append, List.length_cons]
        omega
      have hk := slice_kept env pages
      rw [htick] at hk
      obtain ⟨r, exec₂, env₂, hrun, hticked⟩ := find_tail_total (pages.length + 1) (h.kept hk) hsplit hlen
      simp only [Bool.false_eq_true, if_false, hrun, Option.bind_some]
      by_cases hr : r = .done
      · obtain ⟨exec', env', hlog, -, -, -, hsame⟩ := wal_phases_end crc32c rel (pages.length + 1) n
          { exec₂ with phase := if exec₂.wal_need_init_page then .walInitPage else .walInsert } env₂
          (by dsimp only; split <;> simp)
        rw [if_neg (by simp [hr]), hlog]
        exact ⟨_, _, _, rfl, by rw [hsame]; exact hticked.1.trans hle, by simp⟩
      · rw [if_pos hr]
        exact ⟨_, _, _, rfl, hticked.after hle⟩

/-- **A call returns**, and when it asks for more its slice has expired. -/
theorem heap_call_total (h : HeapChain rel env pages) (hinv : ExecInv rel env pages exec) :
    ∃ r s', HeapCall crc32c (exec, env) r s' ∧ Ticked env r s'.2 := by
  obtain ⟨hjob, hph⟩ := hinv
  have hlen : ¬ exec.data_len < 8 := by
    rw [UInt16.lt_iff_toNat_lt, Nat.not_lt]
    exact hjob.len_ge
  suffices hphases : ∃ r exec' env',
      heapRunPhases crc32c rel (pages.length + 1) exec env 5 = some (r, exec', env') ∧
        Ticked env r env' by
    obtain ⟨r, exec', env', hrun, hticked⟩ := hphases
    refine ⟨r, (exec', env'), ⟨pages.length + 1, ?_⟩, hticked⟩
    rw [heap_run_eq hjob.rel_eq h.kind hlen]
    exact hrun
  cases hphase : exec.phase with
  | dupScan =>
    rw [hphase] at hph
    obtain ⟨⟨pre, suf, hpages, hcur, habs⟩, -⟩ := hph
    have hlt : suf.length < pages.length + 1 := by
      rw [hpages, List.length_append]
      omega
    obtain ⟨r, exec₁, env₁, hscan, hticked⟩ := dup_scan_total (pages.length + 1) h hpages hcur hlt
    rw [heapRunPhases, heapRunPhase, hphase]
    simp only [hscan, Option.bind_eq_bind, Option.bind_some]
    by_cases hr : r = .done
    · have hk : Kept env env₁ pages := by
        obtain ⟨hk, -⟩ := dup_scan_spec (pages.length + 1) h hjob hphase
          ⟨pre, suf, hpages, hcur, habs⟩ hscan
        exact hk
      rw [if_neg (by simp [hr])]
      obtain ⟨r', exec', env', hrun, hticked'⟩ := tail_phases_total crc32c 0
        { exec₁ with phase := .findTail, cursor_page_id := rel.root_page_id } rfl (h.kept hk)
        (List.mem_of_mem_head? h.head)
      exact ⟨r', exec', env', hrun, hticked'.after hticked.1⟩
    · rw [if_pos hr]
      exact ⟨_, _, _, rfl, hticked⟩
  | findTail =>
    rw [hphase] at hph
    exact tail_phases_total crc32c 1 exec hphase h hph.2
  | walInitPage | walInsert | done =>
    rw [hphase] at hph
    exact hph.elim

/-- An exec that relies on what it saw is over after finitely many calls. -/
theorem heap_calls_end (h : HeapChain rel env pages) (hinv : ExecInv rel env pages exec) :
    ∃ r s', Calls (HeapCall crc32c) .cont (exec, env) r s' := by
  have hcall : ∀ s : HeapInsertExec × ExecEnv,
      HeapChain rel s.2 pages ∧ ExecInv rel s.2 pages s.1 →
        ∃ r s', HeapCall crc32c s r s' ∧
          (r = .cont → (HeapChain rel s'.2 pages ∧ ExecInv rel s'.2 pages s'.1) ∧
            s'.2.ticks.length < s.2.ticks.length) := by
    rintro ⟨exec, env⟩ ⟨h, hinv⟩
    obtain ⟨r, s', hcall, hticked⟩ := heap_call_total crc32c h hinv
    refine ⟨r, s', hcall, ?_⟩
    rintro rfl
    obtain ⟨turns, hrun⟩ := hcall
    cases heap_insert_run_spec crc32c h hinv hrun with
    | waits hk hinv' => exact ⟨⟨h.kept hk, hinv'⟩, hticked.2 rfl⟩
  exact calls_end (fun s => s.2.ticks.length) hcall (exec, env) ⟨h, hinv⟩

end calls

/-! ## Section 7: What a run comes to -/

/-- A run of the exec that is over: it gave `EEXIST` exactly if it got to the
    key, `row` is in the table if it is done, and the table is as it was after
    an error. -/
structure InsertEnd (rel : Relation) (env : ExecEnv) (pages : List PageId) (key : TupleId)
    (row : Tuple) (r : ExecResult) (exec' : HeapInsertExec) (env' : ExecEnv) : Prop where
  ended : r = .done ∨ r = .error
  eexist : (r = .error ∧ exec'.ret = some .EEXIST) ↔ KeyReached env pages key
  done : r = .done → ∃ pages', OneMoreRow rel env pages exec'.out_tid row env' pages'
  error : r = .error → TableChain rel env' pages ∧
    ∀ id ∈ pages, slotTable (env'.pool.frame id) = slotTable (env.pool.frame id)

section outcome

variable {crc32c : UInt32 → List UInt8 → UInt32} {rel : Relation} {env env' : ExecEnv}
  {pages pages' : List PageId} {tid : HeapTid} {t : Tuple} {r : ExecResult} {exec' : HeapInsertExec}

/-- The same with other clocks and logs. -/
theorem OneMoreRow.of_frame {env₁ env₁' : ExecEnv} (h : OneMoreRow rel env pages tid t env' pages')
    (hf : env₁.pool.frame = env.pool.frame) (hf' : env₁'.pool.frame = env'.pool.frame)
    (hs' : env₁'.staged = env'.staged) : OneMoreRow rel env₁ pages tid t env₁' pages' where
  table := h.table.of_frame hf' hs'
  grows := h.grows
  rows := by
    unfold chainRows
    rw [hf, hf']
    exact h.rows
  home := h.home
  reads := by
    unfold ReadsBack
    rw [hf']
    exact h.reads

/-- A call whose slice never expires, of an exec at its start. -/
theorem heap_run_end {turns : Nat} {exec : HeapInsertExec} (h : TableChain rel env pages)
    (hjob : HeapJob rel exec) (hphase : exec.phase = .dupScan)
    (hstart : exec.cursor_page_id = rel.root_page_id) (hticks : env.ticks = [])
    (hno : env.pool.NoEexist)
    (hrun : kds_heap_insert_exec_run crc32c turns exec env = some (r, exec', env')) :
    InsertEnd rel env pages exec.new_pk (rowTuple exec) r exec' env' := by
  have hlen : ¬ exec.data_len < 8 := by
    rw [UInt16.lt_iff_toNat_lt, Nat.not_lt]
    exact hjob.len_ge
  have hroot : rel.root_page_id ∈ pages := List.mem_of_mem_head? h.chain.head
  have hcur : exec.cursor_page_id = pages.headD 0 := by
    have hhead := h.chain.head
    cases hl : pages with
    | nil => simp [hl] at hroot
    | cons b l =>
      rw [hl] at hhead
      rw [hstart]
      exact (Option.some.inj hhead).symm
  rw [heap_run_eq hjob.rel_eq h.chain.kind hlen, heapRunPhases, heapRunPhase, hphase] at hrun
  cases hscan : heap_insert_run_dup_scan exec env turns with
  | none => simp [hscan] at hrun
  | some out =>
    obtain ⟨r₁, exec₁, env₁⟩ := out
    have hend : ScanEnd env exec pages r₁ exec₁ env₁ :=
      dup_scan_ends turns h (List.nil_append pages).symm hcur hticks hno hscan
    obtain ⟨hk, hjob₁, -, -, habs⟩ := dup_scan_spec turns h.chain hjob hphase
      ⟨[], pages, rfl, hcur, by simp [Absent]⟩ hscan
    simp only [hscan, Option.bind_eq_bind, Option.bind_some] at hrun
    cases r₁ with
    -- the slice never expires, so the scan comes to its end
    | cont => exact absurd rfl hend.ended
    | error =>
      obtain ⟨rfl, rfl, rfl⟩ : ExecResult.error = r ∧ exec₁ = exec' ∧ env₁ = env' := by
        simpa using hrun
      refine ⟨.inr rfl, hend.eexist, by simp, fun _ => ⟨h.of_frame hend.frame hend.staged, ?_⟩⟩
      intro id _
      rw [hend.frame]
    | done =>
      have hunreached : ¬ KeyReached env pages exec.new_pk := by
        rw [← hend.eexist]
        simp
      have hfree : Absent env pages exec.new_pk := by
        intro id hid i
        rw [← hk.page id hid]
        exact habs rfl id hid i
      rw [if_neg (by simp)] at hrun
      have hrest : heapRunPhases crc32c rel turns
          { exec₁ with phase := .findTail, cursor_page_id := rel.root_page_id } env₁ (0 + 4) =
            some (r, exec', env') := hrun
      have htick : kds_exec_slice_expired env₁ = (false, env₁) := by
        simp [kds_exec_slice_expired, hend.ticks]
      rw [tail_phases crc32c rfl, htick] at hrest
      cases htail : heap_insert_run_find_tail
          { exec₁ with phase := .findTail, cursor_page_id := rel.root_page_id } env₁ turns with
      | none => simp [htail] at hrest
      | some out =>
        obtain ⟨r₂, exec₂, env₂⟩ := out
        have htailEnd : TailEnd env exec pages r₂ exec₂ env₂ :=
          (find_tail_ends turns (h.chain.kept hk) hroot hend.ticks hend.noEexist htail).of_frame
            hend.frame hend.staged
            ⟨hend.row.rel, hend.row.data, hend.row.data_len, hend.row.xid, hend.row.new_pk⟩
        simp only [htail, Bool.false_eq_true, if_false, Option.bind_some] at hrest
        -- the log phases keep the pages and the place of the row
        obtain ⟨exec₃, env₃, hlog, htid, hf, hs, -⟩ := wal_phases_end crc32c rel turns 0
          { exec₂ with phase := if exec₂.wal_need_init_page then .walInitPage else .walInsert } env₂
          (by dsimp only; split <;> simp)
        cases htailEnd with
        | @fails _ _ e hsame hsuf hret hne =>
          obtain ⟨rfl, rfl, rfl⟩ : ExecResult.error = r ∧ exec₂ = exec' ∧ env₂ = env' := by
            simpa using hrest
          refine ⟨.inr rfl, iff_of_false ?_ hunreached, by simp, fun _ => h.fails hsame hsuf⟩
          rintro ⟨-, he⟩
          rw [hret] at he
          exact hne (Option.some.inj he)
        -- a page of the chain had space
        | @puts _ _ id f hid hins hself hother hst =>
          rw [if_neg (by simp), hlog] at hrest
          obtain ⟨rfl, rfl, rfl⟩ : ExecResult.done = r ∧ exec₃ = exec' ∧ env₃ = env' := by
            simpa using hrest
          subst hself
          have hmore := h.puts hjob hfree hid (heap_insert_put hjob (h.chain.rows id hid) hins) hother hst
          refine ⟨.inl rfl, iff_of_false (by simp) hunreached, fun _ => ⟨pages, ?_⟩, by simp⟩
          rw [htid]
          exact hmore.of_frame rfl hf hs
        -- none had, and a page was taken from the ring
        | @grows _ _ pre last new g f hpages hst hg hins hnew hlast hother =>
          rw [if_neg (by simp), hlog] at hrest
          obtain ⟨rfl, rfl, rfl⟩ : ExecResult.done = r ∧ exec₃ = exec' ∧ env₃ = env' := by
            simpa using hrest
          subst hnew
          have hmore := h.grows hjob hfree hpages hst hg
            (heap_insert_put hjob (rowPage_init g).1 hins) hlast hother
          refine ⟨.inl rfl, iff_of_false (by simp) hunreached, fun _ => ⟨pages ++ [new], ?_⟩, by simp⟩
          rw [htid]
          exact hmore.of_frame rfl hf hs

end outcome

/-- **An insert, end to end**: the calls of the exec come to an end. Then it
    has given `EEXIST`, exactly if a row with the key is there and no load
    fails on the way to it; or it is done, the chain has its old pages and at
    most one new page behind them, and the row is in it beside the old ones;
    or it has failed, and no row and no link has changed. -/
theorem kds_heap_insert_exec_end_to_end (crc32c : UInt32 → List UInt8 → UInt32) (rel : Relation)
    (env : ExecEnv) (pages : List PageId) (data : Mem) (data_len : UInt16) (xid : UInt64)
    (h : TableChain rel env pages) (hge : 8 ≤ data_len.toNat) (hle : data_len.toNat ≤ 256)
    (hno : env.pool.NoEexist) :
    (∃ r s', Calls (HeapCall crc32c) .cont
      (kds_heap_insert_exec_init (some rel) data data_len xid, env) r s') ∧
      ∀ r exec' env', Calls (HeapCall crc32c) .cont
          (kds_heap_insert_exec_init (some rel) data data_len xid, env) r (exec', env') →
        InsertEnd rel env pages (data.readU64 0) ⟨xid, 0, 0, data.read 0 data_len.toNat⟩ r exec'
          env' := by
  refine ⟨heap_calls_end crc32c h.chain (h.chain.newExec data xid hge hle), ?_⟩
  intro r exec' env' hcalls
  obtain ⟨turns, hrun⟩ := heap_resumable.one_call rfl hcalls
  have hquiet : TableChain rel env.unsliced pages := h.of_frame rfl rfl
  obtain ⟨hjob, -⟩ := h.chain.newExec data xid hge hle
  have hend := heap_run_end hquiet hjob rfl rfl rfl hno hrun
  rw [hjob.pk] at hend
  refine ⟨hend.ended, hend.eexist, fun hr => ?_, fun hr => ?_⟩
  · obtain ⟨pages', hmore⟩ := hend.done hr
    exact ⟨pages', hmore.of_frame rfl rfl rfl⟩
  · obtain ⟨htable, hsame⟩ := hend.error hr
    exact ⟨htable.of_frame rfl rfl, hsame⟩

/-! ### A full page and a second one -/

/-- A row of 256 bytes. -/
def wideRow (key : UInt64) : Row := ⟨(keyRow key).data, 256⟩

/-- A heap page with a row of 256 bytes for each of the keys. -/
def filledPage (id : PageId) (keys : List UInt64) : Frame :=
  keys.foldl (fun f key => (heap_insert_tuple f (some (wideRow key).data) 256 KDS_DSHELL_XID).2)
    (heap_init_page (newFrame id KDS_PAGE_FLAG_ALLOC))

theorem filledPage_rowPage (id : PageId) (keys : List UInt64) : RowPage (filledPage id keys).page := by
  unfold filledPage
  generalize hf : heap_init_page (newFrame id KDS_PAGE_FLAG_ALLOC) = f
  have hpage : RowPage f.page := by
    rw [← hf]
    exact (rowPage_init _).1
  clear hf
  induction keys generalizing f with
  | nil => exact hpage
  | cons key keys ih =>
    apply ih
    dsimp only
    cases hrun : heap_insert_tuple f (some (wideRow key).data) 256 KDS_DSHELL_XID with
    | mk res f' =>
      cases res with
      | error e =>
        rw [heap_insert_error hrun]
        exact hpage
      | ok tid => exact (hpage.insert (by decide) hrun).page

/-- 28 rows fill the root page. The second page has one. -/
def fullRoot : Frame :=
  (heap_set_next_page_id (filledPage 200 ((List.range 28).map fun i => UInt64.ofNat (100 + i))) 201).2

def fullHeapEnv : ExecEnv :=
  { newHeapEnv with
    pool :=
      { newHeapEnv.pool with
        cached := fun id =>
          if id = 200 then some fullRoot else if id = 201 then some (filledPage 201 [5]) else none } }

/-- The keys in the two pages. -/
theorem fullHeapEnv_keys {id : PageId} {i : Nat} {key : TupleId} (hid : id ∈ [200, 201])
    (h : HoldsRow (fullHeapEnv.page id) i key) :
    (id = 200 ∧ i < 28 ∧ key.toNat = 100 + i) ∨ (id = 201 ∧ i = 0 ∧ key.toNat = 5) := by
  obtain ⟨hlive, rfl⟩ := h
  simp only [List.mem_cons, List.not_mem_nil, or_false] at hid
  obtain rfl | rfl := hid
  · have hcount : (heapMeta (fullHeapEnv.page 200)).nr_slots.toNat = 28 := by decide +kernel
    have hkeys : ∀ i < 28, (rowKey (fullHeapEnv.page 200) i).toNat = 100 + i := by decide +kernel
    have hlt : i < 28 := hcount ▸ hlive.1
    exact Or.inl ⟨rfl, hlt, hkeys i hlt⟩
  · have hcount : (heapMeta (fullHeapEnv.page 201)).nr_slots.toNat = 1 := by decide +kernel
    have hkey : (rowKey (fullHeapEnv.page 201) 0).toNat = 5 := by decide +kernel
    obtain rfl : i = 0 := by
      have hlt := hlive.1
      omega
    exact Or.inr ⟨rfl, rfl, hkey⟩

theorem fullHeapEnv_chain : HeapChain newHeapRel fullHeapEnv [200, 201] where
  kind := rfl
  head := rfl
  link := by
    intro pre id post hsplit
    match pre with
    | [] =>
      obtain ⟨rfl, rfl⟩ := List.cons.inj hsplit
      decide +kernel
    | [a] =>
      obtain ⟨-, hrest⟩ := List.cons.inj hsplit
      obtain ⟨rfl, rfl⟩ := List.cons.inj hrest
      decide +kernel
    | a :: b :: pre =>
      have hlen := congrArg List.length hsplit
      simp at hlen
  rows := by
    intro id hid
    simp only [List.mem_cons, List.not_mem_nil, or_false] at hid
    obtain rfl | rfl := hid
    · exact ((filledPage_rowPage 200 _).setNext (heap_set_next_effect _ 201)).1
    · exact filledPage_rowPage 201 [5]
  nodup := by decide
  nonzero := by decide

/-- A table of two pages, the first without space for another row of 256 bytes. -/
theorem fullHeapEnv_table : TableChain newHeapRel fullHeapEnv [200, 201] where
  chain := fullHeapEnv_chain
  short := by
    have hall : (chainRows fullHeapEnv [200, 201]).all
        (fun t => decide (t.data.length ≤ KDS_EXEC_ROW_SCAN_BUF.toNat)) = true := by decide +kernel
    intro t ht
    exact of_decide_eq_true (List.all_eq_true.mp hall t ht)
  unique := by
    intro id hid id' hid' i j key hi hj
    rcases fullHeapEnv_keys hid hi with ⟨rfl, hlt, hkey⟩ | ⟨rfl, rfl, hkey⟩
    · rcases fullHeapEnv_keys hid' hj with ⟨rfl, hlt', hkey'⟩ | ⟨rfl, rfl, hkey'⟩
      · exact ⟨rfl, by omega⟩
      · omega
    · rcases fullHeapEnv_keys hid' hj with ⟨rfl, hlt', hkey'⟩ | ⟨rfl, rfl, hkey'⟩
      · omega
      · exact ⟨rfl, rfl⟩
  own := by
    intro id hid
    have hid : id ∈ [200, 201] := hid
    simp only [List.mem_cons, List.not_mem_nil, or_false] at hid
    obtain rfl | rfl := hid
    · decide +kernel
    · decide +kernel

/-- The exec for a row of 256 bytes with key 7. -/
def wideRowSeven : HeapInsertExec :=
  kds_heap_insert_exec_init (some newHeapRel) (wideRow 7).data 256 KDS_DSHELL_XID

/-- The row does not fit on the full page, and goes on the second one. -/
theorem kds_heap_insert_exec_end_to_end_second_page :
    heap_has_space fullRoot 256 = false ∧
      ∃ tid env' pages', tid.page_id = 201 ∧ OneMoreRow newHeapRel fullHeapEnv [200, 201] tid
        ⟨KDS_DSHELL_XID, 0, 0, (wideRow 7).data.read 0 256⟩ env' pages' := by
  have hrun : (kds_heap_insert_exec_run crc32c_le 4 wideRowSeven fullHeapEnv).map
      (fun out => (out.1, out.2.1.out_tid.page_id)) = some (.done, 201) := by decide +kernel
  obtain ⟨⟨r, exec', env'⟩, hrun, hout⟩ := Option.map_eq_some_iff.mp hrun
  obtain ⟨rfl, htid⟩ := Prod.mk.inj hout
  have hcalls : Calls (HeapCall crc32c_le) .cont (wideRowSeven, fullHeapEnv) .done (exec', env') :=
    .last ⟨4, hrun⟩ (by decide)
  have hend := (kds_heap_insert_exec_end_to_end crc32c_le newHeapRel fullHeapEnv [200, 201]
    (wideRow 7).data 256 KDS_DSHELL_XID fullHeapEnv_table (by decide) (by decide)
    (fun k => by simp [fullHeapEnv, newHeapEnv, newTableEnv])).2 .done exec' env' hcalls
  obtain ⟨pages', hmore⟩ := hend.done rfl
  exact ⟨by decide +kernel, exec'.out_tid, env', pages', htid, hmore⟩

end Kds
