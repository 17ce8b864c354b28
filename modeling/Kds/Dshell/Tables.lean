import Kds.Catalog.Relations
import Kds.Dshell.Commands
import Kds.Exec.Spares

/-! # HEAP tables side by side

    The rows of a HEAP table, as their bytes, with the chain of pages they are
    on. An `INSERT` into one table and the creation of another one leave it as
    it is: neither writes to a page of its chain.
-/

open Bytes Slices

namespace Kds

/-! ## Section 1: Keys -/

/-- The primary key: the first eight bytes of a row. -/
def rowPk (row : List UInt8) : TupleId := UInt64.ofNat (leNat (row.take 8))

section keys

variable {rel : Relation} {env : ExecEnv} {pages : List PageId}

/-- The key in a slot is that of its tuple. -/
theorem rowPk_heapTuple {m : Mem} {i : Nat} (h : 8 ≤ rowLen m i) :
    rowPk (heapTuple m i).data = rowKey m i := by
  obtain ⟨n, hn⟩ := Nat.exists_eq_add_of_le h
  unfold rowLen at hn
  unfold rowPk heapTuple rowKey Mem.readU64
  dsimp only
  rw [hn, Mem.read_add, List.take_left' (by simp)]

/-- A key is on a page of the chain exactly if one of the rows has it. -/
theorem HeapChain.holdsKey_iff (h : HeapChain rel env pages) (key : TupleId) :
    (∃ id ∈ pages, ∃ i, HoldsRow (env.page id) i key) ↔
      ∃ t ∈ chainRows env pages, rowPk t.data = key := by
  constructor
  · rintro ⟨id, hid, i, hlive, rfl⟩
    refine ⟨heapTuple (env.page id) i, ?_, rowPk_heapTuple ((h.rows id hid).long i hlive)⟩
    exact List.mem_flatMap.mpr ⟨id, hid, mem_liveRows.mpr ⟨i, slotTable_holds_iff.mpr ⟨hlive, rfl⟩⟩⟩
  · rintro ⟨t, ht, rfl⟩
    obtain ⟨id, hid, ht⟩ := List.mem_flatMap.mp ht
    obtain ⟨i, hi⟩ := mem_liveRows.mp ht
    obtain ⟨hlive, rfl⟩ := slotTable_holds_iff.mp hi
    exact ⟨id, hid, i, hlive, (rowPk_heapTuple ((h.rows id hid).long i hlive)).symm⟩

/-- In the pool every page of a walk is reached. -/
theorem keyReached_allIn {key : TupleId} (hin : AllIn env pages) :
    KeyReached env pages key ↔ ∃ id ∈ pages, ∃ i, HoldsRow (env.page id) i key := by
  constructor
  · rintro ⟨pre, id, post, rfl, hrow, -⟩
    exact ⟨id, by simp, hrow⟩
  · rintro ⟨id, hid, hrow⟩
    obtain ⟨pre, post, rfl⟩ := List.append_of_mem hid
    refine ⟨pre, id, post, rfl, hrow, fun k hk => ?_⟩
    have hnone : ((pre ++ [id]).map (loadCount env.pool)).sum = 0 := by
      apply List.sum_eq_zero
      intro n hn
      obtain ⟨j, hj, rfl⟩ := List.mem_map.mp hn
      apply if_pos
      apply hin j
      rw [List.mem_append, List.mem_singleton] at hj
      rw [List.mem_append, List.mem_cons]
      exact hj.imp_right .inl
    omega

end keys

/-! ## Section 2: Tables and the ring -/

/-- The pages of the ring: new ones, each once, in the pool. -/
structure RingOk (env : ExecEnv) : Prop where
  nodup : env.staged.Nodup
  nonzero : 0 ∉ env.staged
  own : ∀ id ∈ env.staged, (env.pool.frame id).id = id
  cached : AllIn env env.staged

/-- A HEAP table with these rows, on these pages. -/
structure TableHolds (root : PageId) (env : ExecEnv) (pages : List PageId) (rows : List (List UInt8)) :
    Prop where
  table : TableChain ⟨root, .heap⟩ env pages
  cached : AllIn env pages
  holds : ((chainRows env pages).map Tuple.data).Perm rows
  keys : (rows.map rowPk).Nodup

section spared

variable {rel : Relation} {root : PageId} {env env' : ExecEnv} {ids pages : List PageId}
  {rows : List (List UInt8)}

theorem RingOk.spared (h : RingOk env) (hs : Spares env env' ids) (hids : ∀ id ∈ env.staged, id ∉ ids) :
    RingOk env' := by
  obtain ⟨taken, hst, hframe⟩ := hs.taken
  have hnd := h.nodup
  have hsub : ∀ id ∈ env'.staged, id ∈ env.staged := by
    intro id hid
    rw [hst]
    exact List.mem_append_right taken hid
  rw [hst, List.nodup_append] at hnd
  refine ⟨hnd.2.1, fun h0 => h.nonzero (hsub 0 h0), fun id hid => ?_, fun id hid => ?_⟩
  · have hnot : id ∉ taken := fun hmem => hnd.2.2 id hmem id hid rfl
    rw [hframe id (hids id (hsub id hid)) hnot]
    exact h.own id (hsub id hid)
  · exact hs.cached id (h.cached id (hsub id hid))

/-- **A table is spared** by whatever writes to other pages. -/
theorem TableHolds.spared (h : TableHolds root env pages rows) (hring : RingOk env)
    (hs : Spares env env' ids) (hpages : ∀ id ∈ pages, id ∉ ids)
    (hids : ∀ id ∈ env.staged, id ∉ ids) : TableHolds root env' pages rows := by
  have hring' := hring.spared hs hids
  obtain ⟨taken, hst, hframe⟩ := hs.taken
  have hnd := h.table.chain.nodup
  have hsame : ∀ id ∈ pages, env'.pool.frame id = env.pool.frame id := by
    intro id hid
    refine hframe id (hpages id hid) fun hmem => ?_
    refine (List.nodup_append.mp hnd).2.2 id hid id ?_ rfl
    rw [hst]
    exact List.mem_append_left _ hmem
  have hk : Kept env env' pages := .of_frames hsame ⟨taken, hst.symm⟩
  have hrows : chainRows env' pages = chainRows env pages :=
    chainRows_congr fun id hid => congrArg liveRows (hsame id hid)
  constructor
  · refine ⟨h.table.chain.kept hk, ?_, h.table.unique.kept hk, ?_⟩
    · rw [hrows]
      exact h.table.short
    · intro id hid
      rcases List.mem_append.mp hid with hid | hid
      · rw [hsame id hid]
        exact h.table.own id (List.mem_append_left _ hid)
      · exact hring'.own id hid
  · exact fun id hid => hs.cached id (h.cached id hid)
  · rw [hrows]
    exact h.holds
  · exact h.keys

/-- Nothing has been written. -/
theorem TableHolds.untouched (h : TableHolds root env pages rows) (hu : Untouched env env') :
    TableHolds root env' pages rows where
  table := h.table.of_frame hu.frame hu.staged
  cached := hu.allIn h.cached
  holds := by
    unfold chainRows
    rw [hu.frame]
    exact h.holds
  keys := h.keys

end spared

/-! ## Section 3: An `INSERT` -/

section insert

variable {crc32c : UInt32 → List UInt8 → UInt32} {turns : Nat}

/-- The slices of a command are calls of the exec, up to its end or the timeout. -/
theorem runSlices_calls (slices : Nat) : ∀ {exec : HeapInsertExec} {env : ExecEnv} {r exec' env'},
    runSlices crc32c turns slices (.heap exec) env = some (r, exec', env') →
      ∃ e', exec' = .heap e' ∧ match r with
        | none => Asks (HeapCall crc32c) .cont slices (exec, env) (e', env')
        | some r => Calls (HeapCall crc32c) .cont (exec, env) r (e', env') := by
  induction slices with
  | zero =>
    intro exec env r exec' env' hrun
    obtain ⟨rfl, rfl, rfl⟩ : none = r ∧ InsertExec.heap exec = exec' ∧ env = env' := by
      simpa [runSlices] using hrun
    exact ⟨exec, rfl, .none _⟩
  | succ n ih =>
    intro exec env r exec' env' hrun
    unfold runSlices kds_exec_run at hrun
    cases hcall : kds_heap_insert_exec_run crc32c turns exec env with
    | none => simp [hcall] at hrun
    | some out =>
      obtain ⟨r₁, e₁, env₁⟩ := out
      have hfirst : HeapCall crc32c (exec, env) r₁ (e₁, env₁) := ⟨turns, hcall⟩
      simp only [hcall, Option.map_some] at hrun
      cases r₁ with
      | cont =>
        obtain ⟨e', rfl, hrest⟩ := ih hrun
        refine ⟨e', rfl, ?_⟩
        cases r with
        | none => exact .again hfirst hrest
        | some r => exact .again hfirst hrest
      | done =>
        obtain ⟨rfl, rfl, rfl⟩ : some ExecResult.done = r ∧ InsertExec.heap e₁ = exec' ∧ env₁ = env' := by
          simpa using hrun
        exact ⟨e₁, rfl, .last hfirst (by simp)⟩
      | error =>
        obtain ⟨rfl, rfl, rfl⟩ : some ExecResult.error = r ∧ InsertExec.heap e₁ = exec' ∧
            env₁ = env' := by simpa using hrun
        exact ⟨e₁, rfl, .last hfirst (by simp)⟩

/-- Slices that all ask for more write nothing. -/
theorem asks_untouched {rel : Relation} {pages : List PageId} {n : Nat}
    {s s' : HeapInsertExec × ExecEnv} (h : Asks (HeapCall crc32c) .cont n s s') :
    TableChain rel s.2 pages → AllIn s.2 pages → ExecInv rel s.2 pages s.1 → Untouched s.2 s'.2 := by
  induction h with
  | none s => exact fun _ _ _ => .refl _
  | again hcall _ ih =>
    intro htable hin hinv
    obtain ⟨turns, hrun⟩ := hcall
    have hu := (heap_run_part htable hin hinv hrun).cont rfl
    cases heap_insert_run_spec crc32c htable.chain hinv hrun with
    | waits hk hinv' => exact hu.trans (ih (htable.of_frame hu.frame hu.staged) (hu.allIn hin) hinv')

/-- New pages are behind the old ones, and come from the ring. -/
def Extended (env env' : ExecEnv) (pages pages' : List PageId) : Prop :=
  ∃ newer, pages' = pages ++ newer ∧ ∀ id ∈ newer, id ∈ env.staged ∧ id ∉ env'.staged

theorem Extended.refl (env env' : ExecEnv) (pages : List PageId) : Extended env env' pages pages :=
  ⟨[], (List.append_nil pages).symm, fun _ hid => absurd hid List.not_mem_nil⟩

theorem Extended.mem {env env' : ExecEnv} {pages pages' : List PageId} (h : Extended env env' pages pages')
    {id : PageId} (hid : id ∈ pages') : id ∈ pages ∨ id ∈ env.staged ∧ id ∉ env'.staged := by
  obtain ⟨newer, rfl, hnewer⟩ := h
  exact (List.mem_append.mp hid).imp_right (hnewer id)

/-- What has become of a table and its rows, behind the slices of an exec:
    `none` is the timeout. -/
inductive InsertResult (root : PageId) (env : ExecEnv) (pages : List PageId)
    (rows : List (List UInt8)) (row : List UInt8) :
    Option ExecResult → Option Errno → ExecEnv → Prop where
  | timedOut {ret : Option Errno} {env' : ExecEnv} :
      Untouched env env' → InsertResult root env pages rows row none ret env'
  | duplicate {env' : ExecEnv} :
      (∃ old ∈ rows, rowPk old = rowPk row) → TableHolds root env' pages rows →
      InsertResult root env pages rows row (some .error) (some .EEXIST) env'
  | noPage {env' : ExecEnv} :
      (∀ old ∈ rows, rowPk old ≠ rowPk row) → env.staged = [] → TableHolds root env' pages rows →
      InsertResult root env pages rows row (some .error) (some .ENOSPC) env'
  | inserted {env' : ExecEnv} {pages' : List PageId} :
      (∀ old ∈ rows, rowPk old ≠ rowPk row) →
      Extended env env' pages pages' → TableHolds root env' pages' (rows ++ [row]) →
      InsertResult root env pages rows row (some .done) none env'

section outcome

variable {root : PageId} {env env' : ExecEnv} {pages : List PageId} {rows : List (List UInt8)}
  {exec exec' : HeapInsertExec} {r : ExecResult}

/-- The key is in the table exactly if one of its rows has it. -/
theorem TableHolds.key_iff (h : TableHolds root env pages rows) (key : TupleId) :
    KeyReached env pages key ↔ ∃ old ∈ rows, rowPk old = key := by
  rw [keyReached_allIn h.cached, h.table.chain.holdsKey_iff]
  constructor
  · rintro ⟨t, ht, hkey⟩
    exact ⟨t.data, h.holds.mem_iff.mp (List.mem_map_of_mem ht), hkey⟩
  · rintro ⟨old, hold, hkey⟩
    obtain ⟨t, ht, rfl⟩ := List.mem_map.mp (h.holds.mem_iff.mpr hold)
    exact ⟨t, ht, hkey⟩

/-- A new last page comes from the ring. -/
theorem PartEnd.newPage {rel : Relation} {pages' : List PageId} (hpart : PartEnd env pages r exec' env')
    (h : HeapChain rel env pages) (h' : HeapChain rel env' pages')
    (hgrows : pages' = pages ∨ ∃ new, pages' = pages ++ [new]) : Extended env env' pages pages' := by
  rcases hgrows with rfl | ⟨new, rfl⟩
  · exact .refl _ _ _
  refine ⟨[new], rfl, fun id hid => ?_⟩
  obtain rfl := List.mem_singleton.mp hid
  obtain rfl | ⟨pre, last, hpages⟩ := pages.eq_nil_or_concat
  · cases h.head
  rw [List.concat_eq_append] at hpages
  subst hpages
  -- the last page points to the new one, and pointed to none
  have hnext : env'.next last = id := h'.link pre last [id] (by simp)
  have hend : env.next last = 0 := h.link pre last [] rfl
  have hne : id ≠ 0 := by
    rintro rfl
    exact h'.nonzero (by simp)
  refine ⟨?_, fun hst => (List.nodup_append.mp h'.nodup).2.2 id (by simp) id hst rfl⟩
  rcases hpart.links last (by simp) with heq | hmem
  · rw [hnext, hend] at heq
    exact absurd heq hne
  · rwa [hnext] at hmem

/-- One call without the clock, from the start of an exec. -/
theorem TableHolds.run (h : TableHolds root env pages rows) (hring : RingOk env) (hjob : HeapJob ⟨root, .heap⟩ exec)
    (hinv : ExecInv ⟨root, .heap⟩ env pages exec) (hphase : exec.phase = .dupScan)
    (hstart : exec.cursor_page_id = root) (hret : exec.ret = none) (hticks : env.ticks = [])
    (hno : env.pool.NoEexist)
    (hrun : kds_heap_insert_exec_run crc32c turns exec env = some (r, exec', env')) :
    InsertResult root env pages rows (rowTuple exec).data (some r) exec'.ret env' := by
  have hend := heap_run_end h.table hjob hphase hstart hticks hno hrun
  have hpart := heap_run_part h.table h.cached hinv hrun
  have hafter : (InsertExec.heap exec').After r :=
    heap_run_after ⟨hret, by simp [InsertExec.inserted, hphase]⟩ hrun
  -- the key is the first eight bytes of the row
  have hpk : rowPk (rowTuple exec).data = exec.new_pk := by
    obtain ⟨n, hn⟩ := Nat.exists_eq_add_of_le hjob.len_ge
    rw [hjob.pk]
    unfold rowPk rowTuple Mem.readU64
    dsimp only
    rw [hn, Mem.read_add, List.take_left' (by simp)]
  have hkey := h.key_iff exec.new_pk
  -- the exec is done or has failed
  rcases hend.ended with rfl | rfl
  · obtain ⟨hnone, -⟩ : exec'.ret = none ∧ _ := hafter
    have habsent : ∀ old ∈ rows, rowPk old ≠ rowPk (rowTuple exec).data := by
      intro old hold heq
      have hreached := hkey.mpr ⟨old, hold, heq.trans hpk⟩
      cases (hend.eexist.mpr hreached).1
    obtain ⟨pages', hmore⟩ := hend.done rfl
    have hpages := hpart.newPage h.table.chain hmore.table.chain hmore.grows
    rw [hnone]
    refine .inserted habsent hpages ⟨hmore.table, fun id hid => ?_, ?_, ?_⟩
    · rcases hpages.mem hid with hid | hid
      · exact hpart.spares.cached id (h.cached id hid)
      · exact hpart.spares.cached id (hring.cached id hid.1)
    · refine (hmore.rows.map Tuple.data).trans ?_
      rw [List.map_cons]
      exact (h.holds.cons _).trans (List.perm_append_singleton _ _).symm
    · rw [List.map_append, List.nodup_append]
      refine ⟨h.keys, List.nodup_singleton _, ?_⟩
      intro a ha b hb hab
      obtain ⟨old, hold, rfl⟩ := List.mem_map.mp ha
      exact habsent old hold (hab.trans (by simpa using hb))
  · have htable : TableHolds root env' pages rows := by
      obtain ⟨htable, hsame⟩ := hend.error rfl
      refine ⟨htable, fun id hid => hpart.spares.cached id (h.cached id hid), ?_, h.keys⟩
      have hrows : chainRows env' pages = chainRows env pages :=
        chainRows_congr fun id hid => by unfold liveRows; rw [hsame id hid]
      rw [hrows]
      exact h.holds
    -- it fails for a duplicate key, or for want of a page
    by_cases hdup : ∃ old ∈ rows, rowPk old = exec.new_pk
    · obtain ⟨-, heexist⟩ := hend.eexist.mpr (hkey.mpr hdup)
      rw [heexist]
      refine .duplicate ?_ htable
      rwa [hpk]
    · have hne : exec'.ret ≠ some .EEXIST := fun heexist =>
        hdup (hkey.mp (hend.eexist.mp ⟨rfl, heexist⟩))
      obtain heexist | ⟨hnospc, hstaged⟩ := hpart.error rfl
      · exact absurd heexist hne
      · rw [hnospc]
        refine .noPage (fun old hold heq => hdup ⟨old, hold, heq.trans hpk⟩) hstaged htable

/-- The clock is not part of a table. -/
theorem InsertResult.of_unsliced {row : List UInt8} {r : Option ExecResult} {ret : Option Errno}
    (h : InsertResult root env.unsliced pages rows row r ret env'.unsliced) :
    InsertResult root env pages rows row r ret env' := by
  have hclock : Untouched env'.unsliced env' := ⟨rfl, rfl, fun _ hid => hid, rfl⟩
  cases h with
  | timedOut hu => exact .timedOut ⟨hu.frame, hu.staged, hu.cached, hu.disk⟩
  | duplicate hdup htable => exact .duplicate hdup (htable.untouched hclock)
  | noPage hkey hst htable => exact .noPage hkey hst (htable.untouched hclock)
  | inserted hkey hpages htable => exact .inserted hkey hpages (htable.untouched hclock)

/-- **The slices of an `INSERT`** into a HEAP table: one of four things has
    become of its rows, and no other table is written to. -/
theorem TableHolds.insert (h : TableHolds root env pages rows) (hring : RingOk env)
    (hno : env.pool.NoEexist) (data : Mem) {data_len : UInt16} (xid : UInt64)
    (hge : 8 ≤ data_len.toNat) (hle : data_len.toNat ≤ 256) {slices : Nat} {r : Option ExecResult}
    {exec' : InsertExec}
    (hrun : runSlices crc32c turns slices
      (.heap (kds_heap_insert_exec_init (some ⟨root, .heap⟩) data data_len xid)) env =
        some (r, exec', env')) :
    Spares env env' pages ∧ env.pool.MarksAll env'.pool ∧
      InsertResult root env pages rows (data.read 0 data_len.toNat) r exec'.ret env' := by
  have hinv := h.table.chain.newExec data xid hge hle
  obtain ⟨e', rfl, hcalls⟩ := runSlices_calls slices hrun
  cases r with
  | none =>
    have hu : Untouched env env' := asks_untouched hcalls h.table h.cached hinv
    exact ⟨hu.spares pages, hu.marks, .timedOut hu⟩
  | some r =>
    obtain ⟨turns', hcall⟩ := heap_resumable.one_call rfl hcalls
    have hclock : Untouched env env.unsliced := ⟨rfl, rfl, fun _ hid => hid, rfl⟩
    have hquiet := h.untouched hclock
    have hinv' := hquiet.table.chain.newExec data xid hge hle
    have hpart := heap_run_part hquiet.table hquiet.cached hinv' hcall
    have hres := hquiet.run ⟨hring.nodup, hring.nonzero, hring.own, hring.cached⟩ hinv'.1 hinv' rfl rfl
      rfl rfl hno hcall
    have hspares := hpart.spares
    exact ⟨⟨hspares.taken, hspares.cached, hspares.marks, hspares.grows⟩, hpart.marks, hres.of_unsliced⟩

end outcome

end insert

/-! ## Section 4: `CREATE TABLE` -/

/-- Only the pages of the catalog may have been written: they are marked, and
    have more rows at most. -/
structure CatalogOnly (p p' : Pool) : Prop where
  frame : ∀ id ∉ rowPages, p'.frame id = p.frame id
  cached : ∀ id, (p.cached id).isSome → (p'.cached id).isSome
  marks : p.MarksAll p'
  grows : ∀ id, HeapInv (p.frame id).page → HeapInv (p'.frame id).page ∧
    (slotTable (p.frame id)).Grows (slotTable (p'.frame id))

section create

variable {p p' p'' : Pool} {c c' : CatalogEnv} {A A' : Catalog}

theorem CatalogOnly.refl (p : Pool) : CatalogOnly p p :=
  ⟨fun _ _ => rfl, fun _ h => h, .refl p, fun _ hinv => ⟨hinv, .refl _⟩⟩

theorem CatalogOnly.trans (h : CatalogOnly p p') (h' : CatalogOnly p' p'') : CatalogOnly p p'' where
  frame := fun id hid => (h'.frame id hid).trans (h.frame id hid)
  cached := fun id hid => h'.cached id (h.cached id hid)
  marks := h.marks.trans h'.marks
  grows := by
    intro id hinv
    obtain ⟨hinv', hgrows⟩ := h.grows id hinv
    obtain ⟨hinv'', hgrows'⟩ := h'.grows id hinv'
    exact ⟨hinv'', hgrows.trans hgrows'⟩

/-- A row is put behind the others of its page. -/
theorem insertCatalogRow_grows {row : CatalogRow} {res : Except Errno HeapTid}
    (h : insertCatalogRow p row = (res, p')) (id : PageId) (hinv : HeapInv (p.frame id).page) :
    HeapInv (p'.frame id).page ∧ (slotTable (p.frame id)).Grows (slotTable (p'.frame id)) := by
  by_cases hid : id = row.page_id
  · subst hid
    unfold insertCatalogRow at h
    cases hload : kds_buf_lookup_or_load p row.page_id with
    | mk r p₁ =>
      obtain ⟨honly, hok⟩ := lookup_or_load_loadOnly hload
      rw [hload] at h
      cases r with
      | error e =>
        obtain ⟨-, rfl⟩ := Prod.mk.inj h
        rw [honly.frame]
        exact ⟨hinv, .refl _⟩
      | ok frame =>
        obtain ⟨rfl, -⟩ := hok frame rfl
        dsimp only at h
        rw [honly.frame] at h
        cases hins : heap_insert_tuple (p.frame row.page_id) (some row.data) row.data_len KDS_BOOTSTRAP_XID with
        | mk res' f =>
          rw [hins] at h
          obtain ⟨-, rfl⟩ := Prod.mk.inj h
          obtain ⟨hkept, hres⟩ := heap_insert_table hinv hins
          rw [frame_unpin, Pool.frame_setFrame_self]
          refine ⟨hkept.inv, ?_⟩
          rcases hres with ⟨e, -, rfl⟩ | ⟨tid, -, -, -, htable⟩
          · exact .refl _
          · rw [htable]
            exact SlotTable.append_grows _ _
  · rw [(insertCatalogRow_same h hid).frame]
    exact ⟨hinv, .refl _⟩

theorem insertCatalogRow_only {row : CatalogRow} {res : Except Errno HeapTid}
    (hrow : row.page_id ∈ rowPages) (h : insertCatalogRow p row = (res, p')) : CatalogOnly p p' := by
  refine ⟨fun id hid => ?_, fun id hid => ?_, insertCatalogRow_marks h, insertCatalogRow_grows h⟩
  · refine (insertCatalogRow_same h ?_).frame
    rintro rfl
    exact hid hrow
  unfold insertCatalogRow at h
  cases hload : kds_buf_lookup_or_load p row.page_id with
  | mk r p₁ =>
    have hkeeps := lookup_or_load_keeps hload id hid
    rw [hload] at h
    cases r with
    | error e =>
      obtain ⟨-, rfl⟩ := Prod.mk.inj h
      exact hkeeps
    | ok frame =>
      obtain ⟨-, rfl⟩ := Prod.mk.inj h
      exact Pool.loaded_setFrame hkeeps

theorem insertColumns_only {new_oid : UInt64} {cols : List KdsSysColumn} {res : Except Errno Unit}
    (h : insertColumns c new_oid cols = (res, c')) :
    CatalogOnly c.env.pool c'.env.pool ∧ SamePage c.env.pool c'.env.pool KDS_CATALOG_PAGE_TABLES := by
  induction cols generalizing c with
  | nil =>
    obtain ⟨-, rfl⟩ := Prod.mk.inj h
    exact ⟨.refl _, .refl _ _⟩
  | cons col cols ih =>
    unfold insertColumns kds_catalog_generate_user_oid insert_sys_column_row at h
    dsimp only at h
    cases hrow : insertCatalogRow c.env.pool (columnRow (c.oids + 1) new_oid col).row with
    | mk r pool =>
      rw [hrow] at h
      have honly := insertCatalogRow_only
        (show (columnRow (c.oids + 1) new_oid col).row.page_id ∈ rowPages by simp [rowPages, KdsSysColumn.row]) hrow
      have hsame : SamePage c.env.pool pool KDS_CATALOG_PAGE_TABLES :=
        insertCatalogRow_same hrow (show _ ≠ KDS_CATALOG_PAGE_COLUMNS by decide)
      cases r with
      | error e =>
        obtain ⟨-, rfl⟩ := Prod.mk.inj h
        exact ⟨honly, hsame⟩
      | ok tid =>
        obtain ⟨honly', hsame'⟩ := ih h
        exact ⟨honly.trans honly', hsame.trans hsame'⟩

/-- The rows of a new table: one in `sys.tables` at most. -/
theorem insertTableRows_only {namespace_oid : UInt64} {name : CString} {schema : KdsSchema}
    {clustered_type : UInt32} {root : PageId} {res : Except Errno UInt64}
    (h : CatalogHolds c.env.pool A)
    (hins : insertTableRows c namespace_oid name schema clustered_type root = (res, c')) :
    CatalogOnly c.env.pool c'.env.pool ∧ c'.env.staged = c.env.staged ∧
      (HoldsRows c'.env.pool KDS_CATALOG_PAGE_TABLES (A.tables.map KdsSysTable.bytes) ∨
        HoldsRows c'.env.pool KDS_CATALOG_PAGE_TABLES ((A.tables ++
          [relationRow (c.oids + 1) namespace_oid name root clustered_type]).map KdsSysTable.bytes)) := by
  obtain ⟨hstaged, -⟩ := insertTableRows_cases h hins
  unfold insertTableRows kds_catalog_generate_user_oid kds_catalog_insert_object_row
    kds_catalog_insert_relation_row at hins
  dsimp only at hins
  cases hobj : insertCatalogRow c.env.pool
      (objectRow (c.oids + 1) namespace_oid KDS_OID_TYPE_TABLE name).row with
  | mk r pool =>
    rw [hobj] at hins
    have honly := insertCatalogRow_only
      (show (objectRow (c.oids + 1) namespace_oid KDS_OID_TYPE_TABLE name).row.page_id ∈ rowPages by
        simp [rowPages, KdsSysObject.row]) hobj
    -- the object row goes to a page of its own
    have hsame : SamePage c.env.pool pool KDS_CATALOG_PAGE_TABLES :=
      insertCatalogRow_same hobj (show _ ≠ KDS_CATALOG_PAGE_OBJECTS by decide)
    have hold := hsame.holdsRows h.tables
    cases r with
    | error e =>
      obtain ⟨-, rfl⟩ := Prod.mk.inj hins
      exact ⟨honly, hstaged, .inl hold⟩
    | ok tid =>
      dsimp only [CatalogEnv.setPool] at hins
      cases hrel : insertCatalogRow pool
          (relationRow (c.oids + 1) namespace_oid name root clustered_type).row with
      | mk r pool' =>
        rw [hrel] at hins
        have honly' := honly.trans (insertCatalogRow_only
          (show (relationRow (c.oids + 1) namespace_oid name root clustered_type).row.page_id ∈
            rowPages by simp [rowPages, KdsSysTable.row]) hrel)
        obtain ⟨-, hres⟩ := @insertCatalogRow_cases pool pool' _ 89 _ _ _
          (KdsSysTable.length_bytes _) (by decide) hold hrel
        obtain ⟨e, rfl, -, hsame'⟩ | ⟨tid', rfl, -, hrows⟩ := hres
        · obtain ⟨-, rfl⟩ := Prod.mk.inj hins
          exact ⟨honly', hstaged, .inl (hsame'.holdsRows hold)⟩
        dsimp only at hins
        have hmore : HoldsRows pool' KDS_CATALOG_PAGE_TABLES ((A.tables ++
            [relationRow (c.oids + 1) namespace_oid name root clustered_type]).map
              KdsSysTable.bytes) := by
          rw [List.map_append]
          exact hrows
        cases hcols : insertColumns
            { env := { c.env with pool := pool' }, oids := c.oids + 1 } (c.oids + 1) schema.cols with
        | mk r c'' =>
          rw [hcols] at hins
          -- and so do the columns, whether they all fit or not
          obtain ⟨honly'', hsame''⟩ := insertColumns_only hcols
          have hall := honly'.trans honly''
          cases r with
          | error e =>
            obtain ⟨-, rfl⟩ := Prod.mk.inj hins
            exact ⟨hall, hstaged, .inr (hsame''.holdsRows hmore)⟩
          | ok u =>
            obtain ⟨-, rfl⟩ := Prod.mk.inj hins
            exact ⟨hall, hstaged, .inr (hsame''.holdsRows hmore)⟩

/-- The rows a page holds are determined. -/
theorem HoldsRows.unique {page_id : PageId} {rows rows' : List (List UInt8)}
    (h : HoldsRows p page_id rows) (h' : HoldsRows p page_id rows') : rows' = rows := by
  have heq := h'.rows.entries.symm.trans h.rows.entries
  exact List.map_injective_iff.mpr (fun bs bs' hbs => by simpa using hbs) heq

theorem CatalogHolds.unique (h : CatalogHolds p A) (h' : CatalogHolds p A') : A' = A := by
  have hobjects : A'.objects = A.objects :=
    List.map_injective_iff.mpr (Function.LeftInverse.injective KdsSysObject.ofBytes_bytes)
      (h.objects.unique h'.objects)
  have htables : A'.tables = A.tables :=
    List.map_injective_iff.mpr (Function.LeftInverse.injective KdsSysTable.ofBytes_bytes)
      (h.tables.unique h'.tables)
  have hcolumns : A'.columns = A.columns :=
    List.map_injective_iff.mpr (Function.LeftInverse.injective KdsSysColumn.ofBytes_bytes)
      (h.columns.unique h'.columns)
  cases A
  cases A'
  dsimp only at hobjects htables hcolumns
  rw [hobjects, htables, hcolumns]

/-- The root of a new relation leaves the ring, and is initialised. -/
theorem allocRoot_spec {kind : ClusteredType} {res : Option PageId} (h : allocRoot c kind = (res, c')) :
    c'.oids = c.oids ∧ (∀ id, (c.env.pool.cached id).isSome → (c'.env.pool.cached id).isSome) ∧
      c.env.pool.Marks (fun id => id ∈ c.env.staged) c'.env.pool ∧
      match res with
      | none => c' = c
      | some root => c.env.staged = root :: c'.env.staged ∧
          (∀ id ≠ root, c'.env.pool.frame id = c.env.pool.frame id) ∧
          ∃ f, f.id = (c.env.pool.frame root).id ∧ c'.env.pool.frame root = kind.initRoot f := by
  unfold allocRoot kds_page_alloc at h
  cases hst : c.env.staged with
  | nil =>
    rw [hst] at h
    obtain ⟨rfl, rfl⟩ := Prod.mk.inj h
    exact ⟨rfl, fun _ hid => hid, .refl _, rfl⟩
  | cons root staged =>
    rw [hst] at h
    obtain ⟨rfl, rfl⟩ := Prod.mk.inj h
    have htyped : c.env.pool.Marks (fun id => id ∈ root :: staged)
        (setPageType c.env.pool root kind.rootType) :=
      .setFrame (fun hd => hd) (.inr List.mem_cons_self)
    refine ⟨rfl, fun id hid => Pool.loaded_setFrame (Pool.loaded_setFrame hid),
      htyped.trans (.setFrame (initRoot_dirty kind _) (.inr List.mem_cons_self)), rfl, fun id hne => ?_,
      (setPageType c.env.pool root kind.rootType).frame root, ?_, Pool.frame_setFrame_self _ _ _⟩
    · exact (Pool.frame_setFrame_ne _ _ hne).trans (Pool.frame_setFrame_ne _ _ hne)
    · unfold setPageType
      rw [Pool.frame_setFrame_self]

/-- The pages of the catalog are heap pages. -/
theorem CatalogHolds.heapInv (h : CatalogHolds p A) {id : PageId} (hid : id ∈ rowPages) :
    HeapInv (p.frame id).page := by
  simp only [rowPages, List.mem_cons, List.not_mem_nil, or_false] at hid
  rcases hid with rfl | rfl | rfl
  · exact h.objects.rows.inv
  · exact h.tables.rows.inv
  · exact h.columns.rows.inv

/-- What a creation does to the rows of `sys.tables`, and to its root page. -/
inductive CatalogGrowth (c c' : CatalogEnv) (A A' : Catalog) (namespace_oid : UInt64) (name : CString)
    (clustered_type : UInt32) : Prop where
  | nothing : A'.tables = A.tables → CatalogGrowth c c' A A' namespace_oid name clustered_type
  | row {root : PageId} {kind : ClusteredType} {f : Frame} :
      clusteredType clustered_type = some kind → c.env.staged = root :: c'.env.staged →
      f.id = (c.env.pool.frame root).id → c'.env.pool.frame root = kind.initRoot f →
      A'.tables = A.tables ++ [relationRow (c.oids + 1) namespace_oid name root clustered_type] →
      CatalogGrowth c c' A A' namespace_oid name clustered_type

/-- **A creation** writes to the catalog and to its root page. -/
theorem create_table_spares {namespace_oid : UInt64} {name : CString} {schema : KdsSchema}
    {clustered_type : UInt32} {res : Except Errno UInt64} (h : CatalogHolds c.env.pool A)
    (hring : ∀ id ∈ c.env.staged, id ∉ rowPages)
    (hcall : kds_catalog_create_table c namespace_oid (some name) (some schema) clustered_type true =
      (res, c')) :
    Spares c.env c'.env rowPages ∧ ∀ A', CatalogHolds c'.env.pool A' →
      CatalogGrowth c c' A A' namespace_oid name clustered_type := by
  have hnothing : ∀ A', CatalogHolds c.env.pool A' →
      CatalogGrowth c c A A' namespace_oid name clustered_type := by
    intro A' h'
    rw [h.unique h']
    exact .nothing rfl
  have hrefl : Spares c.env c.env rowPages := (Untouched.refl c.env).spares _
  change createTable c namespace_oid name schema clustered_type = (res, c') at hcall
  unfold createTable at hcall
  cases hkind : clusteredType clustered_type with
  | none =>
    rw [hkind] at hcall
    obtain ⟨-, rfl⟩ := Prod.mk.inj hcall
    exact ⟨hrefl, hnothing⟩
  | some kind =>
    rw [hkind] at hcall
    dsimp only at hcall
    cases halloc : allocRoot c kind with
    | mk root? c₁ =>
      rw [halloc] at hcall
      obtain ⟨hoids, hkeeps, hmarks, hroot⟩ := allocRoot_spec halloc
      obtain ⟨hsame, -⟩ := allocRoot_cases hring halloc
      cases root? with
      | none =>
        obtain ⟨-, rfl⟩ := Prod.mk.inj hcall
        rw [hroot]
        exact ⟨hrefl, hnothing⟩
      | some root =>
        obtain ⟨hst, hother, f, hf, hinit⟩ := hroot
        -- the ring holds no catalog page, so the root is none
        have hnew : root ∉ rowPages := hring root (by rw [hst]; exact List.mem_cons_self)
        dsimp only at hcall
        cases hrows : insertTableRows c₁ namespace_oid name schema clustered_type root with
        | mk ret c₂ =>
          rw [hrows] at hcall
          obtain ⟨-, rfl⟩ := Prod.mk.inj hcall
          obtain ⟨honly, hstaged, htables⟩ := insertTableRows_only (h.of_same hsame) hrows
          rw [← hstaged] at hst
          refine ⟨⟨⟨[root], hst, fun id hid hne => ?_⟩, fun id hid => ?_, ?_, fun id hid => ?_⟩,
            fun A' h' => ?_⟩
          · rw [List.mem_singleton] at hne
            exact (honly.frame id hid).trans (hother id hne)
          · exact honly.cached id (hkeeps id hid)
          · exact (hmarks.trans honly.marks.weaken).unpin root
          · rw [← (hsame id hid).frame]
            exact (honly.grows id ((h.of_same hsame).heapInv hid)).2
          -- the row of the relation is the only one that can have been added
          · have hrow : c₂.env.pool.frame root = kind.initRoot f := (honly.frame root hnew).trans hinit
            have hbytes : Function.Injective KdsSysTable.bytes :=
              Function.LeftInverse.injective KdsSysTable.ofBytes_bytes
            have htables' : HoldsRows c₂.env.pool KDS_CATALOG_PAGE_TABLES
                (A'.tables.map KdsSysTable.bytes) := ⟨h'.tables.cached, h'.tables.rows⟩
            rw [hoids] at htables
            rcases htables with hold | hmore
            · exact .nothing (List.map_injective_iff.mpr hbytes (hold.unique htables'))
            · exact .row hkind hst hf hrow (List.map_injective_iff.mpr hbytes (hmore.unique htables'))

end create

/-! ## Section 5: New tables and new pages -/

section grows

variable {env env' : ExecEnv} {pages : List PageId} {rows : List (List UInt8)} {root id : PageId}

/-- A page that was just initialised is the chain of a table without rows. -/
theorem TableHolds.new {f : Frame} (hring : RingOk env) (hinit : env.pool.frame root = heap_init_page f)
    (hid : f.id = root) (hin : (env.pool.cached root).isSome) (hne : root ≠ 0) (hnew : root ∉ env.staged) :
    TableHolds root env [root] [] := by
  have hpage : env.page root = (heap_init_page f).page := congrArg Frame.page hinit
  have htable : NewHeapTable ⟨root, .heap⟩ env := by
    refine ⟨rfl, ⟨f, hpage⟩, List.nodup_cons.mpr ⟨hnew, hring.nodup⟩, fun h0 => ?_⟩
    rcases List.mem_cons.mp h0 with h0 | h0
    · exact hne h0.symm
    · exact hring.nonzero h0
  have hrows : chainRows env [root] = [] := by
    apply List.eq_nil_iff_forall_not_mem.mpr
    intro t ht
    obtain ⟨j, hj, ht⟩ := List.mem_flatMap.mp ht
    obtain ⟨i, hi⟩ := mem_liveRows.mp ht
    obtain ⟨hlive, -⟩ := slotTable_holds_iff.mp hi
    obtain ⟨-, hnone, -⟩ := rowPage_init f
    rw [List.mem_singleton.mp hj, hinit] at hlive
    exact hnone i _ ⟨hlive, rfl⟩
  refine ⟨⟨htable.chain, fun t ht => ?_, htable.uniqueIn, fun j hj => ?_⟩, fun j hj => ?_, ?_,
    List.nodup_nil⟩
  · rw [hrows] at ht
    exact absurd ht List.not_mem_nil
  · rcases List.mem_cons.mp hj with rfl | hj
    · rw [hinit]
      exact hid
    · exact hring.own j hj
  · rw [List.mem_singleton.mp hj]
    exact hin
  · rw [hrows]
    exact List.Perm.refl _

/-- One page goes into the ring. It has no rows yet, in the pool and on disk. -/
structure Refilled (env : ExecEnv) (id : PageId) (env' : ExecEnv) : Prop where
  staged : env'.staged = env.staged ++ [id]
  unused : env.pool.cached id = none
  own : (env'.pool.frame id).id = id
  frame : ∀ j ≠ id, env'.pool.frame j = env.pool.frame j
  cached : ∀ j, (env.pool.cached j).isSome → (env'.pool.cached j).isSome
  inPool : (env'.pool.cached id).isSome
  disk : ∀ j ≠ id, env'.pool.disk j = env.pool.disk j
  blank : slotTable (env'.pool.frame id) = .blank
  blankDisk : slotTable (env'.pool.disk id) = .blank

theorem Refilled.not_cached (h : Refilled env id env') {ids : List PageId} (hin : AllIn env ids) :
    id ∉ ids := by
  intro hmem
  have hsome := hin id hmem
  rw [h.unused] at hsome
  cases hsome

theorem RingOk.staged (h : RingOk env) (hs : Refilled env id env') (hne : id ≠ 0) : RingOk env' := by
  have hnot := hs.not_cached h.cached
  constructor
  · rw [hs.staged]
    exact List.Nodup.append h.nodup (List.nodup_singleton id) (by simpa using hnot)
  · rw [hs.staged, List.mem_append, List.mem_singleton]
    exact not_or.mpr ⟨h.nonzero, fun h0 => hne h0.symm⟩
  · intro j hj
    rw [hs.staged, List.mem_append, List.mem_singleton] at hj
    rcases hj with hj | rfl
    · rw [hs.frame j fun heq => hnot (heq ▸ hj)]
      exact h.own j hj
    · exact hs.own
  · intro j hj
    rw [hs.staged, List.mem_append, List.mem_singleton] at hj
    rcases hj with hj | rfl
    · exact hs.cached j (h.cached j hj)
    · exact hs.inPool

/-- A table does not see the ring grow. -/
theorem TableHolds.staged (h : TableHolds root env pages rows) (hring : RingOk env')
    (hs : Refilled env id env') : TableHolds root env' pages rows := by
  have hnot := hs.not_cached h.cached
  have hsame : ∀ j ∈ pages, env'.pool.frame j = env.pool.frame j := fun j hj =>
    hs.frame j fun heq => hnot (heq ▸ hj)
  have hchain := h.table.chain
  have hrows : chainRows env' pages = chainRows env pages :=
    chainRows_congr fun j hj => congrArg liveRows (hsame j hj)
  -- the pages are those of the ring before
  have hk : Kept env { env' with staged := env.staged } pages := .of_frames hsame (List.suffix_refl _)
  have hold : HeapChain ⟨root, .heap⟩ { env' with staged := env.staged } pages := hchain.kept hk
  have hdisj : ∀ j ∈ pages, j ∉ env'.staged := by
    intro j hj hmem
    rw [hs.staged, List.mem_append, List.mem_singleton] at hmem
    rcases hmem with hmem | rfl
    · exact (List.nodup_append.mp hchain.nodup).2.2 j hj j hmem rfl
    · exact hnot hj
  constructor
  · constructor
    · refine ⟨hold.kind, hold.head, hold.link, hold.rows, ?_, fun h0 => ?_⟩
      · exact List.Nodup.append (List.nodup_append.mp hchain.nodup).1 hring.nodup hdisj
      · rcases List.mem_append.mp h0 with h0 | h0
        · exact hchain.nonzero (List.mem_append_left _ h0)
        · exact hring.nonzero h0
    · rw [hrows]
      exact h.table.short
    · have hunique : UniqueIn { env' with staged := env.staged } pages := h.table.unique.kept hk
      exact hunique
    · intro j hj
      rcases List.mem_append.mp hj with hj | hj
      · rw [hsame j hj]
        exact h.table.own j (List.mem_append_left _ hj)
      · exact hring.own j hj
  · exact fun j hj => hs.cached j (h.cached j hj)
  · rw [hrows]
    exact h.holds
  · exact h.keys

/-- The page that `kds_buf_alloc_new` sets up has no slots and no link. -/
theorem slotTable_newFrame {f : Frame} (id : PageId) (flags : UInt8) (h : f.page = (newFrame id flags).page) :
    slotTable f = .blank := by
  have hzero : ∀ a, KDS_PAGE_HDR_SIZE ≤ a → f.page a = 0 := by
    intro a ha
    rw [h]
    apply Mem.write_outside
    rw [PageHdr.length_bytes]
    omega
  have hmeta : heapMeta f.page = heapMeta fun _ => 0 := heapMeta_congr fun a ha _ => hzero a ha
  have hnext : heap_get_next_page_id f = Mem.readU64 (fun _ => 0) KDS_HEAP_NEXT_PAGE_OFFSET :=
    Mem.readU64_congr fun a ha _ => hzero a (by
      simp only [KDS_HEAP_NEXT_PAGE_OFFSET, KDS_PAGE_SIZE, KDS_PAGE_HDR_SIZE] at ha ⊢
      omega)
  unfold slotTable
  rw [hmeta, hnext]
  rfl

/-- What `kds_buf_alloc_new` hands to the ring. -/
theorem alloc_new_staged {frame : PageId} {pool : Pool} (h : kds_buf_alloc_new env.pool id = (.ok frame, pool)) :
    frame = id ∧ Refilled env id { env with pool := pool, staged := env.staged ++ [frame] } := by
  obtain ⟨-, -, hok⟩ := alloc_new_cases h
  obtain ⟨rfl, hunused, hdisk, hcached⟩ := hok frame rfl
  have hframe : pool.frame frame = { newFrame frame (KDS_PAGE_FLAG_ALLOC ||| KDS_PAGE_FLAG_DIRTY) with
      hdr := { (newFrame frame (KDS_PAGE_FLAG_ALLOC ||| KDS_PAGE_FLAG_DIRTY)).hdr with
        flags := KDS_PAGE_FLAG_ALLOC } } := by
    unfold Pool.frame
    rw [hcached, Function.update_self]
    rfl
  refine ⟨rfl, rfl, hunused, ?_, fun j hj => alloc_new_frame h hj, fun j hj => ?_, ?_, fun j hj => ?_, ?_, ?_⟩
  · dsimp only
    rw [hframe]
    rfl
  · dsimp only
    rw [hcached]
    by_cases heq : j = frame
    · rw [heq, Function.update_self]
      rfl
    · rwa [Function.update_of_ne heq]
  · dsimp only
    rw [hcached, Function.update_self]
    rfl
  · dsimp only
    rw [hdisk, Function.update_of_ne hj]
  · dsimp only
    rw [hframe]
    exact slotTable_newFrame frame (KDS_PAGE_FLAG_ALLOC ||| KDS_PAGE_FLAG_DIRTY) rfl
  · dsimp only
    rw [hdisk, Function.update_self]
    exact slotTable_newFrame frame (KDS_PAGE_FLAG_ALLOC ||| KDS_PAGE_FLAG_DIRTY) rfl

end grows

end Kds
