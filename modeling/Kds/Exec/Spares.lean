import Kds.Exec.HeapRun
import Kds.Exec.Pins
import Kds.Heap.Contents

/-! # What an insert leaves alone

    Beside the pages of its own table an insert only writes to pages that it
    takes from the ring, and a slice that asks for more has written nothing at
    all. With the pages of the table in the pool there are two ways for it to
    fail: its key is there already, or the ring is empty.
-/

open Bytes

namespace Kds

/-! ## Section 1: Footprints -/

/-- These pages may have been written, and those that have left the ring. What
    is written is marked, and added to what was there. None has left the pool. -/
structure Spares (env env' : ExecEnv) (ids : List PageId) : Prop where
  taken : ∃ taken, env.staged = taken ++ env'.staged ∧
    ∀ id, id ∉ ids → id ∉ taken → env'.pool.frame id = env.pool.frame id
  cached : ∀ id, (env.pool.cached id).isSome → (env'.pool.cached id).isSome
  marks : env.pool.Marks (fun id => id ∈ env.staged) env'.pool
  grows : ∀ id ∈ ids, (slotTable (env.pool.frame id)).Grows (slotTable (env'.pool.frame id))

/-- No page has been written, and none has left the ring. -/
structure Untouched (env env' : ExecEnv) : Prop where
  frame : env'.pool.frame = env.pool.frame
  staged : env'.staged = env.staged
  cached : ∀ id, (env.pool.cached id).isSome → (env'.pool.cached id).isSome
  disk : env'.pool.disk = env.pool.disk

/-- The pages are in the pool. -/
def AllIn (env : ExecEnv) (ids : List PageId) : Prop := ∀ id ∈ ids, (env.pool.cached id).isSome

section footprints

variable {env env' env'' : ExecEnv} {ids : List PageId}

theorem Untouched.refl (env : ExecEnv) : Untouched env env := ⟨rfl, rfl, fun _ h => h, rfl⟩

theorem Untouched.trans (h : Untouched env env') (h' : Untouched env' env'') : Untouched env env'' :=
  ⟨h'.frame.trans h.frame, h'.staged.trans h.staged, fun id hid => h'.cached id (h.cached id hid),
    h'.disk.trans h.disk⟩

theorem Untouched.marks (h : Untouched env env') : env.pool.MarksAll env'.pool := .of_eq h.disk h.frame

theorem Untouched.spares (h : Untouched env env') (ids : List PageId) : Spares env env' ids where
  taken := ⟨[], by rw [h.staged, List.nil_append], fun id _ _ => congrFun h.frame id⟩
  cached := h.cached
  marks := h.marks.weaken
  grows := fun id _ => .of_eq (by rw [h.frame])

theorem Untouched.kept (h : Untouched env env') (pages : List PageId) : Kept env env' pages :=
  .of_frame h.frame h.staged

theorem Untouched.next (h : Untouched env env') (id : PageId) : env'.next id = env.next id := by
  unfold ExecEnv.next
  rw [h.frame]

theorem Untouched.page (h : Untouched env env') (id : PageId) : env'.page id = env.page id := by
  unfold ExecEnv.page
  rw [h.frame]

theorem Untouched.allIn (h : Untouched env env') (hin : AllIn env ids) : AllIn env' ids :=
  fun id hid => h.cached id (hin id hid)

theorem Spares.trans (h : Spares env env' ids) (h' : Spares env' env'' ids) : Spares env env'' ids := by
  obtain ⟨taken, hst, hframe⟩ := h.taken
  obtain ⟨taken', hst', hframe'⟩ := h'.taken
  refine ⟨⟨taken ++ taken', ?_, ?_⟩, fun id hid => h'.cached id (h.cached id hid), ?_,
    fun id hid => (h.grows id hid).trans (h'.grows id hid)⟩
  · rw [hst, hst', List.append_assoc]
  · intro id hid hnot
    rw [List.mem_append, not_or] at hnot
    exact (hframe' id hid hnot.2).trans (hframe id hid hnot.1)
  · refine h.marks.trans (h'.marks.mono fun id hid => ?_)
    rw [hst]
    exact List.mem_append_right taken hid

/-- A look at the clock. -/
theorem slice_untouched (env : ExecEnv) : Untouched env (kds_exec_slice_expired env).2 := by
  unfold kds_exec_slice_expired
  split
  · exact .refl env
  · exact ⟨rfl, rfl, fun _ h => h, rfl⟩

theorem append_untouched (crc32c : UInt32 → List UInt8 → UInt32) (env : ExecEnv) (hdr : WalRecHdr)
    (body : List UInt8) : Untouched env (env.append crc32c hdr body) := ⟨rfl, rfl, fun _ h => h, rfl⟩

/-- Only a pin or an outcome has changed. -/
theorem pool_untouched {p : Pool} (hf : p.frame = env.pool.frame)
    (hc : ∀ id, (env.pool.cached id).isSome → (p.cached id).isSome) (hd : p.disk = env.pool.disk) :
    Untouched env { env with pool := p } := ⟨hf, rfl, hc, hd⟩

end footprints

/-! ## Section 2: The walks -/

/-- What a part of an insert comes to with the pages of the table in the pool. -/
structure PartEnd (env : ExecEnv) (pages : List PageId) (r : ExecResult) (exec' : HeapInsertExec)
    (env' : ExecEnv) : Prop where
  spares : Spares env env' pages
  marks : env.pool.MarksAll env'.pool
  cont : r = .cont → Untouched env env'
  error : r = .error → exec'.ret = some .EEXIST ∨ exec'.ret = some .ENOSPC ∧ env.staged = []
  links : ∀ id ∈ pages, env'.next id = env.next id ∨ env'.next id ∈ env.staged

section walks

variable {rel : Relation} {env env' env'' : ExecEnv} {pages : List PageId} {exec exec' : HeapInsertExec}
  {r : ExecResult}

theorem Untouched.part (h : Untouched env env')
    (herr : r = .error → exec'.ret = some .EEXIST ∨ exec'.ret = some .ENOSPC ∧ env.staged = []) :
    PartEnd env pages r exec' env' :=
  ⟨h.spares pages, h.marks, fun _ => h, herr, fun id _ => .inl (h.next id)⟩

/-- Something that writes nothing behind a part that is done. -/
theorem PartEnd.done (h : PartEnd env pages .done exec env') (hu : Untouched env' env'') :
    PartEnd env pages .done exec' env'' where
  spares := h.spares.trans (hu.spares pages)
  marks := h.marks.trans hu.marks
  cont := by simp
  error := by simp
  links := by
    intro id hid
    rw [hu.next]
    exact h.links id hid

/-- A part behind one that has written nothing. -/
theorem PartEnd.after (h : PartEnd env' pages r exec' env'') (hu : Untouched env env') :
    PartEnd env pages r exec' env'' where
  spares := (hu.spares pages).trans h.spares
  marks := hu.marks.trans h.marks
  cont := fun hr => hu.trans (h.cont hr)
  error := by
    rw [← hu.staged]
    exact h.error
  links := by
    intro id hid
    rw [← hu.next, ← hu.staged]
    exact h.links id hid

/-- **The scan** writes nothing, and only fails because of the key. -/
theorem dup_scan_part (turns : Nat) : ∀ {env : ExecEnv} {exec : HeapInsertExec} {pre suf : List PageId},
    TableChain rel env pages → AllIn env pages → pages = pre ++ suf →
    exec.cursor_page_id = suf.headD 0 → ∀ {r exec' env'},
    heap_insert_run_dup_scan exec env turns = some (r, exec', env') →
      Untouched env env' ∧ (r = .error → exec'.ret = some .EEXIST) := by
  induction turns with
  | zero =>
    intro env exec pre suf _ _ _ _ r exec' env' hrun
    simp [heap_insert_run_dup_scan] at hrun
  | succ n ih =>
    intro env exec pre suf h hin hpages hcur r exec' env' hrun
    unfold heap_insert_run_dup_scan at hrun
    cases suf with
    | nil =>
      rw [if_pos (by exact hcur)] at hrun
      obtain ⟨rfl, rfl, rfl⟩ : ExecResult.done = r ∧ exec = exec' ∧ env = env' := by simpa using hrun
      exact ⟨.refl env, by simp⟩
    | cons b suf =>
      have hb : exec.cursor_page_id = b := hcur
      have hmem : b ∈ pages := by rw [hpages]; simp
      have hb0 : b ≠ 0 := by
        rintro rfl
        exact h.chain.nonzero (List.mem_append_left _ hmem)
      have hlink : env.next b = suf.headD 0 := h.chain.link pre b suf hpages
      rw [hb, if_neg hb0] at hrun
      cases hscan : kds_heap_scan_page_for_pk env.pool b exec.new_pk with
      | mk res pool =>
        obtain ⟨hframe, helse, hres⟩ := scan_page_ends h hmem exec.new_pk hscan
        have hpool : Untouched env { env with pool := pool } :=
          pool_untouched hframe (scan_page_pinned hscan).keeps (scan_page_marks hscan).disk
        -- the page is in the pool, so it is found
        obtain ⟨e, rfl, -, hfails⟩ | ⟨found, rfl, -, -⟩ := hres
        · exact absurd (.inl (hin b hmem)) hfails
        rw [hscan] at hrun
        cases found with
        | true =>
          obtain ⟨rfl, rfl, rfl⟩ : ExecResult.error = r ∧ exec.fail .EEXIST = exec' ∧
              { env with pool := pool } = env' := by simpa using hrun
          exact ⟨hpool, fun _ => rfl⟩
        | false =>
          have hpages' : pages = (pre ++ [b]) ++ suf := by rw [hpages, List.append_assoc]; rfl
          have hcur' : (exec.goTo (env.next b)).cursor_page_id = suf.headD 0 := hlink
          dsimp only at hrun
          by_cases hnz : env.next b = 0
          · rw [if_pos hnz] at hrun
            have h₁ : TableChain rel { env with pool := pool } pages := h.of_frame hframe rfl
            obtain ⟨hu, herr⟩ := ih h₁ (hpool.allIn hin) hpages' hcur' hrun
            exact ⟨hpool.trans hu, herr⟩
          · rw [if_neg hnz] at hrun
            have hu₂ := hpool.trans (slice_untouched { env with pool := pool })
            cases htick : kds_exec_slice_expired { env with pool := pool } with
            | mk expired env₂ =>
              rw [htick] at hrun hu₂
              cases expired with
              | true =>
                obtain ⟨rfl, rfl, rfl⟩ : ExecResult.cont = r ∧ exec.goTo (env.next b) = exec' ∧
                    env₂ = env' := by simpa using hrun
                exact ⟨hu₂, by simp⟩
              | false =>
                have h₂ : TableChain rel env₂ pages := h.of_frame hu₂.frame hu₂.staged
                obtain ⟨hu, herr⟩ := ih h₂ (hu₂.allIn hin) hpages' hcur' hrun
                exact ⟨hu₂.trans hu, herr⟩

/-- With the pages in the pool a row that is not too long needs nothing but room. -/
theorem putRow_error {pool pool' : Pool} {frame : PageId} {e : Errno}
    (hlen : exec.data_len.toNat ≤ KDS_PAGE_SIZE) (h : putRow pool frame exec = (.error e, pool')) :
    e = .ENOSPC := by
  obtain ⟨f, hins, -⟩ := putRow_cases h
  unfold heap_insert_tuple heap_insert_tuple_ex at hins
  dsimp only at hins
  rw [if_neg (by simp), if_neg (by simp), if_neg (by omega)] at hins
  split at hins
  · exact (Except.error.inj (Prod.mk.inj hins).1).symm
  · cases (Prod.mk.inj hins).1

theorem putRow_keeps {pool pool' : Pool} {frame : PageId} {res : Except Errno HeapTid}
    (h : putRow pool frame exec = (res, pool')) (id : PageId) (hid : (pool.cached id).isSome) :
    (pool'.cached id).isSome := by
  unfold putRow at h
  obtain ⟨-, rfl⟩ := Prod.mk.inj h
  exact Pool.loaded_setFrame hid

/-- A row that the buffer of the scan has room for fits into a new page. -/
theorem rowFits_of_le {data_len : UInt16} (h : data_len.toNat ≤ 256) : RowFits data_len := by
  unfold RowFits
  simp only [KDS_HEAP_SLOT_SIZE, KDS_HEAP_TUPLE_HDR_SIZE, KDS_HEAP_NEXT_PAGE_OFFSET, KDS_PAGE_SIZE,
    KDS_HEAP_AREA_OFFSET, KDS_HEAP_META_OFFSET, KDS_PAGE_HDR_SIZE, KDS_HEAP_META_SIZE]
  omega

/-- **The end of the chain** and the new page are all that is written. -/
theorem growChain_part {last : PageId} (hlen : exec.data_len.toNat ≤ 256) (hlast : last ∈ pages)
    (hring : ∀ id ∈ env.staged, id ∉ pages) (hinv : HeapInv (env.page last)) (hend : env.next last = 0)
    (hrun : growChain exec env last = (r, exec', env')) : PartEnd env pages r exec' env' := by
  have hfits : RowFits exec.data_len := rowFits_of_le hlen
  have hmarks := growChain_marks (.inr hfits) hrun
  unfold growChain kds_page_alloc at hrun
  cases hst : env.staged with
  | nil =>
    rw [hst] at hrun
    obtain ⟨rfl, rfl, rfl⟩ : ExecResult.error = r ∧ exec.fail .ENOSPC = exec' ∧
      { env with pool := kds_buf_unpin env.pool last } = env' := by simpa using hrun
    have hu : Untouched env { env with pool := kds_buf_unpin env.pool last } :=
      pool_untouched rfl (fun _ hid => hid) rfl
    exact hu.part fun _ => .inr ⟨rfl, hst⟩
  | cons new staged =>
    rw [hst] at hrun hring
    have hnew : new ∉ pages := hring new List.mem_cons_self
    dsimp only at hrun
    have htyped : ∀ id ≠ new, (setPageType env.pool new .heap).frame id = env.pool.frame id :=
      fun id hid => env.pool.frame_setFrame_ne _ hid
    have htypedIn : ∀ id, (env.pool.cached id).isSome →
        ((setPageType env.pool new .heap).cached id).isSome := fun id hid => Pool.loaded_setFrame hid
    generalize setPageType env.pool new .heap = typed at hrun htyped htypedIn
    cases hput : putRow (typed.setFrame new (heap_init_page (typed.frame new))) new exec with
    | mk res pool =>
      obtain ⟨f, hins, -, -, hother⟩ := putRow_cases hput
      rw [Pool.frame_setFrame_self] at hins
      have hframe : ∀ id ≠ new, pool.frame id = env.pool.frame id := fun id hid =>
        (hother id hid).trans ((typed.frame_setFrame_ne _ hid).trans (htyped id hid))
      have hcached : ∀ id, (env.pool.cached id).isSome → (pool.cached id).isSome := fun id hid =>
        putRow_keeps hput id (Pool.loaded_setFrame (htypedIn id hid))
      rw [hput] at hrun
      cases res with
      | error e =>
        -- a new page has room for the row
        obtain ⟨tid, g, hok⟩ := heap_insert_fits (typed.frame new) exec.data exec.xid hfits
        rw [hok] at hins
        cases (Prod.mk.inj hins).1
      | ok tid =>
        dsimp only at hrun
        obtain ⟨rfl, rfl, rfl⟩ : ExecResult.done = r ∧ _ = exec' ∧ _ = env' := by simpa using hrun
        have hother : ∀ id, id ≠ last → id ≠ new →
            (pool.setFrame last (heap_set_next_page_id (pool.frame last) new).2).frame id =
              env.pool.frame id :=
          fun id hne hne' => (pool.frame_setFrame_ne _ hne).trans (hframe id hne')
        refine ⟨⟨⟨[new], hst, fun id hid hnew => ?_⟩, fun id hid => ?_, hmarks.weaken, fun id hid => ?_⟩, hmarks,
          by simp, by simp, ?_⟩
        · exact hother id (fun heq => hid (heq ▸ hlast)) fun heq =>
            hnew (heq ▸ List.mem_singleton_self new)
        · exact Pool.loaded_setFrame (hcached id hid)
        · have hne' : id ≠ new := fun heq => hnew (heq ▸ hid)
          by_cases hne : id = last
          · -- it had no link
            subst hne
            have heff := heap_set_next_effect (env.pool.frame id) new
            have hlink : slotTable (heap_set_next_page_id (env.pool.frame id) new).2 =
                { slotTable (env.pool.frame id) with next := new } := heff.slotTable_eq hinv
            dsimp only
            rw [frame_unpin, frame_unpin, Pool.frame_setFrame_self, hframe id hne', hlink]
            exact ⟨List.prefix_refl _, .inl hend⟩
          · refine .of_eq (congrArg slotTable ?_)
            exact hother id hne hne'
        · intro id hid
          have hne' : id ≠ new := fun heq => hnew (heq ▸ hid)
          by_cases hne : id = last
          · -- the last page points to the new one
            refine .inr ?_
            subst hne
            rw [ExecEnv.next_eq]
            unfold ExecEnv.page
            dsimp only
            rw [frame_unpin, frame_unpin, Pool.frame_setFrame_self, (heap_set_next_effect _ new).next,
              hst]
            exact List.mem_cons_self
          · refine .inl ?_
            unfold ExecEnv.next
            exact congrArg heap_get_next_page_id (hother id hne hne')

/-- **The search for space** only fails because the ring is empty. -/
theorem find_tail_part (turns : Nat) : ∀ {env : ExecEnv} {exec : HeapInsertExec},
    HeapChain rel env pages → AllIn env pages → HeapJob rel exec →
    exec.cursor_page_id ∈ pages → ∀ {r exec' env'},
    heap_insert_run_find_tail exec env turns = some (r, exec', env') →
      PartEnd env pages r exec' env' := by
  -- nothing is put anywhere before the last turn
  induction turns with
  | zero =>
    intro env exec _ _ _ _ r exec' env' hrun
    simp [heap_insert_run_find_tail] at hrun
  | succ n ih =>
    intro env exec h hin hjob hcur r exec' env' hrun
    have hlen := hjob.len_le
    have hring : ∀ id ∈ env.staged, id ∉ pages := fun id hid hmem =>
      (List.nodup_append.mp h.nodup).2.2 id hmem id hid rfl
    unfold heap_insert_run_find_tail at hrun
    rw [lookup_or_load_cached (hin _ hcur)] at hrun
    dsimp only at hrun
    cases hput : putRow (kds_buf_pin env.pool exec.cursor_page_id) exec.cursor_page_id exec with
    | mk res pool =>
      obtain ⟨-, hsame, hok⟩ := putRow_spec hput
      obtain ⟨f, hins, hself, -, hother⟩ := putRow_cases hput
      have hcached : ∀ id, (env.pool.cached id).isSome → (pool.cached id).isSome :=
        fun id hid => putRow_keeps hput id hid
      rw [hput] at hrun
      cases res with
      | ok tid =>
        obtain ⟨rfl, rfl, rfl⟩ : ExecResult.done = r ∧ _ = exec' ∧ _ = env' := by simpa using hrun
        -- the row went in: the page is dirty, its table has grown, its link is the same
        have hpin : env.pool.MarksAll (kds_buf_pin env.pool exec.cursor_page_id) := .of_eq rfl rfl
        have hmarks := (hpin.trans (putRow_marks hput)).unpin exec.cursor_page_id
        refine ⟨⟨⟨[], rfl, fun id hid _ => ?_⟩, hcached, hmarks.weaken, fun id hid => ?_⟩, hmarks, by simp,
          by simp, fun id _ => .inl ?_⟩
        · exact hother id fun heq => hid (heq ▸ hcur)
        · by_cases heq : id = exec.cursor_page_id
          · subst heq
            obtain ⟨-, ⟨e, hbad, -⟩ | ⟨tid', -, -, -, htable⟩⟩ := heap_insert_table (h.rows _ hid).inv hins
            · cases hbad
            · dsimp only
              rw [frame_unpin, hself, htable]
              exact SlotTable.append_grows _ _
          · exact .of_eq (congrArg slotTable (hother id heq))
        · by_cases hid : id = exec.cursor_page_id
          · rw [hid]
            exact (hok rel tid rfl hjob (h.rows _ hcur)).next
          · unfold ExecEnv.next
            exact congrArg heap_get_next_page_id (hother id hid)
      | error e =>
        -- the page was full, and a full page is left as it was
        obtain rfl := putRow_error (by simp only [KDS_PAGE_SIZE]; omega) hput
        have hpool : pool.frame = env.pool.frame := hsame _ rfl
        have hdisk : pool.disk = env.pool.disk := (putRow_marks hput).disk
        have hu : Untouched env { env with pool := pool } := pool_untouched hpool hcached hdisk
        have hu' : Untouched env { env with pool := kds_buf_unpin pool exec.cursor_page_id } :=
          pool_untouched hpool hcached hdisk
        obtain ⟨pre, post, hsplit⟩ := List.append_of_mem hcur
        have hlink : env.next exec.cursor_page_id = post.headD 0 := h.link _ _ _ hsplit
        dsimp only at hrun
        rw [hpool] at hrun
        cases post with
        | nil =>
          rw [if_pos (by exact hlink)] at hrun
          -- the last page: the chain grows by a page from the ring
          have hgrow : PartEnd { env with pool := pool } pages r exec' env' :=
            growChain_part hlen hcur hring (hu.page _ ▸ (h.rows _ hcur).inv) ((hu.next _).trans hlink)
              (Option.some.inj hrun)
          exact hgrow.after hu
        | cons b post =>
          have hb : heap_get_next_page_id (env.pool.frame exec.cursor_page_id) = b := hlink
          have hmem : b ∈ pages := by rw [hsplit]; simp
          have hb0 : b ≠ 0 := by
            rintro rfl
            exact h.nonzero (List.mem_append_left _ hmem)
          have hu₂ := hu'.trans (slice_untouched _)
          rw [hb, if_neg hb0] at hrun
          cases htick : kds_exec_slice_expired
              { env with pool := kds_buf_unpin pool exec.cursor_page_id } with
          | mk expired env₂ =>
            rw [htick] at hrun hu₂
            cases expired with
            | true =>
              obtain ⟨rfl, rfl, rfl⟩ : ExecResult.cont = r ∧ exec.goTo b = exec' ∧ env₂ = env' := by
                simpa using hrun
              exact hu₂.part (by simp)
            | false =>
              have hjob' : HeapJob rel (exec.goTo b) := hjob.goTo b
              have hcur' : (exec.goTo b).cursor_page_id ∈ pages := hmem
              have hrest : PartEnd env₂ pages r exec' env' :=
                ih (h.kept (hu₂.kept pages)) (hu₂.allIn hin) hjob' hcur' hrun
              exact hrest.after hu₂

end walks

/-! ## Section 3: A call -/

section call

variable {crc32c : UInt32 → List UInt8 → UInt32} {rel : Relation} {env env' : ExecEnv}
  {pages : List PageId} {exec exec' : HeapInsertExec} {r : ExecResult} {turns : Nat}

/-- The log phases write no page. -/
theorem wal_phases_untouched {n : Nat}
    (hphase : exec.phase = .walInitPage ∨ exec.phase = .walInsert)
    (hrun : heapRunPhases crc32c rel turns exec env (n + 3) = some (r, exec', env')) :
    r = .done ∧ Untouched env env' := by
  have hinsert : ∀ (exec : HeapInsertExec) (env : ExecEnv),
      Untouched env (heap_insert_run_wal_insert crc32c exec env) := by
    intro exec env
    unfold heap_insert_run_wal_insert
    dsimp only
    have hfail : Untouched env { env with pool := env.pool.nextFail } :=
      pool_untouched rfl (fun _ hid => hid) rfl
    split
    · exact hfail
    · exact hfail.trans (append_untouched crc32c _ _ _)
  rcases hphase with hphase | hphase
  · simp only [heapRunPhases, heapRunPhase, hphase, Option.bind_eq_bind, Option.bind_some,
      Option.some.injEq, Prod.mk.injEq] at hrun
    obtain ⟨rfl, -, rfl⟩ := hrun
    exact ⟨rfl, (append_untouched crc32c _ _ _).trans (hinsert _ _)⟩
  · simp only [heapRunPhases, heapRunPhase, hphase, Option.bind_eq_bind, Option.bind_some,
      Option.some.injEq, Prod.mk.injEq] at hrun
    obtain ⟨rfl, -, rfl⟩ := hrun
    exact ⟨rfl, hinsert _ _⟩

/-- The phases from the search for space on. -/
theorem tail_phases_part {n : Nat} (hphase : exec.phase = .findTail) (h : HeapChain rel env pages)
    (hin : AllIn env pages) (hjob : HeapJob rel exec) (hcur : exec.cursor_page_id ∈ pages)
    (hrun : heapRunPhases crc32c rel turns exec env (n + 4) = some (r, exec', env')) :
    PartEnd env pages r exec' env' := by
  have hu := slice_untouched env
  rw [tail_phases crc32c hphase] at hrun
  cases htick : kds_exec_slice_expired env with
  | mk expired env₁ =>
    rw [htick] at hrun hu
    cases expired with
    | true =>
      obtain ⟨rfl, rfl, rfl⟩ : ExecResult.cont = r ∧ exec = exec' ∧ env₁ = env' := by simpa using hrun
      exact hu.part (by simp)
    | false =>
      cases htail : heap_insert_run_find_tail exec env₁ turns with
      | none => simp [htail] at hrun
      | some out =>
        obtain ⟨r₂, exec₂, env₂⟩ := out
        have hpart := (find_tail_part turns (h.kept (hu.kept pages)) (hu.allIn hin) hjob hcur
          htail).after hu
        simp only [htail, Bool.false_eq_true, if_false, Option.bind_some] at hrun
        by_cases hr : r₂ = .done
        · subst hr
          rw [if_neg (by simp)] at hrun
          obtain ⟨rfl, hlog⟩ := wal_phases_untouched (by dsimp only; split <;> simp) hrun
          exact hpart.done hlog
        · rw [if_pos (by simpa using hr)] at hrun
          obtain ⟨rfl, rfl, rfl⟩ : r₂ = r ∧ exec₂ = exec' ∧ env₂ = env' := by simpa using hrun
          exact hpart

/-- **A call** of an exec that relies on what it saw. -/
theorem heap_run_part (h : TableChain rel env pages) (hin : AllIn env pages)
    (hinv : ExecInv rel env pages exec)
    (hrun : kds_heap_insert_exec_run crc32c turns exec env = some (r, exec', env')) :
    PartEnd env pages r exec' env' := by
  obtain ⟨hjob, hph⟩ := hinv
  have hlen : ¬ exec.data_len < 8 := by
    rw [UInt16.lt_iff_toNat_lt, Nat.not_lt]
    exact hjob.len_ge
  rw [heap_run_eq hjob.rel_eq h.chain.kind hlen] at hrun
  -- an exec that relies on what it saw is in the scan or in the search
  cases hphase : exec.phase with
  | dupScan =>
    rw [hphase] at hph
    obtain ⟨⟨pre, suf, hpages, hcur, habs⟩, -⟩ := hph
    rw [heapRunPhases, heapRunPhase, hphase] at hrun
    cases hscan : heap_insert_run_dup_scan exec env turns with
    | none => simp [hscan] at hrun
    | some out =>
      obtain ⟨r₁, exec₁, env₁⟩ := out
      obtain ⟨hu, herr⟩ := dup_scan_part turns h hin hpages hcur hscan
      simp only [hscan, Option.bind_eq_bind, Option.bind_some] at hrun
      -- the scan changes nothing; where it ends the search starts at the root page
      by_cases hr : r₁ = .done
      · rw [if_neg (by simp [hr])] at hrun
        have hjob₁ : HeapJob rel exec₁ := by
          obtain ⟨-, hjob₁, -⟩ := dup_scan_spec turns h.chain hjob hphase
            ⟨pre, suf, hpages, hcur, habs⟩ hscan
          exact hjob₁
        have hpart : PartEnd env₁ pages r exec' env' :=
          @tail_phases_part crc32c rel env₁ env' pages
            { exec₁ with phase := .findTail, cursor_page_id := rel.root_page_id } exec' r turns 0 rfl
            (h.chain.kept (hu.kept pages)) (hu.allIn hin)
            ⟨hjob₁.rel_eq, hjob₁.len_ge, hjob₁.len_le, hjob₁.pk⟩ (List.mem_of_mem_head? h.chain.head) hrun
        exact hpart.after hu
      · rw [if_pos hr] at hrun
        obtain ⟨rfl, rfl, rfl⟩ : r₁ = r ∧ exec₁ = exec' ∧ env₁ = env' := by simpa using hrun
        exact hu.part fun hr => .inl (herr hr)
  | findTail =>
    rw [hphase] at hph
    exact tail_phases_part hphase h.chain hin hjob hph.2 hrun
  | walInitPage | walInsert | done =>
    rw [hphase] at hph
    exact hph.elim

end call

end Kds
