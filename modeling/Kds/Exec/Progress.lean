import Kds.Exec.HeapRun

/-! # What a call that asks for more has done

    A call of an exec that returns `KDS_EXEC_CONTINUE` has got to a later
    phase, to a later page of the chain, or to a lower level of the tree, so
    that only so many calls return it. There is one exception: a phase that
    looks at the clock before it does anything. A call that starts in it with
    its slice already spent leaves the exec as it was, and as long as the
    calls find their slices spent there is no end to them.
-/

open Bytes Fallible Slices

namespace Kds

/-- A call that finds this clock. -/
def ExecEnv.clock (env : ExecEnv) (ticks : List Bool) : ExecEnv := { env with ticks := ticks }

/-! ## Section 1: The chain of a HEAP table -/

/-- The pages of a table, from the root along the links to page id 0. -/
structure TablePages (rel : Relation) (p : Pool) (pages : List PageId) : Prop where
  head : pages.head? = some rel.root_page_id
  link : ∀ pre id post, pages = pre ++ id :: post →
    heap_get_next_page_id (p.frame id) = post.headD 0
  nodup : pages.Nodup
  nonzero : 0 ∉ pages

/-- The second cursor is on a page behind that of the first. -/
def Onward (pages : List PageId) (cursor cursor' : PageId) : Prop :=
  cursor' ∈ pages ∧ pages.idxOf cursor < pages.idxOf cursor'

section chain

variable {rel : Relation} {p p' : Pool} {pages pre post : List PageId} {id next cursor : PageId}

theorem TablePages.of_frame (h : TablePages rel p pages) (hf : p'.frame = p.frame) :
    TablePages rel p' pages where
  head := h.head
  link := by
    rw [hf]
    exact h.link
  nodup := h.nodup
  nonzero := h.nonzero

theorem TablePages.idxOf_eq (h : TablePages rel p pages) (hpages : pages = pre ++ id :: post) :
    pages.idxOf id = pre.length := by
  have hnd := h.nodup
  rw [hpages] at hnd ⊢
  have hnot : id ∉ pre := fun hmem =>
    (List.nodup_append.mp hnd).2.2 id hmem id List.mem_cons_self rfl
  rw [List.idxOf_append_of_notMem hnot, List.idxOf_cons_self, Nat.add_zero]

/-- Along a link the cursor moves on. -/
theorem TablePages.onward (h : TablePages rel p pages) (hpages : pages = pre ++ id :: next :: post) :
    Onward pages id next := by
  have hid := h.idxOf_eq hpages
  have hsplit : pages = (pre ++ [id]) ++ next :: post := by
    rw [hpages]
    simp
  have hnext := h.idxOf_eq hsplit
  refine ⟨by rw [hpages]; simp, ?_⟩
  rw [hid, hnext, List.length_append, List.length_singleton]
  exact Nat.lt_succ_self _

theorem Onward.trans (h : Onward pages id next) (h' : Onward pages next cursor) :
    Onward pages id cursor :=
  ⟨h'.1, h.2.trans h'.2⟩

end chain

/-! ## Section 2: The walks of the HEAP exec -/

/-- The exec of a HEAP table at work: no error yet, and its cursor is on the chain. -/
structure HeapReady (rel : Relation) (pages : List PageId) (s : HeapInsertExec × ExecEnv) : Prop where
  rel_eq : s.1.rel = some rel
  chain : TablePages rel s.2.pool pages
  place : match s.1.phase with
    | .dupScan => s.1.cursor_page_id = 0 ∨ s.1.cursor_page_id ∈ pages
    | .findTail => s.1.cursor_page_id ∈ pages
    | _ => True

/-- What a walk that stops with its slice spent has done. -/
structure WalkMoved (pages : List PageId) (exec : HeapInsertExec) (env : ExecEnv)
    (exec' : HeapInsertExec) (env' : ExecEnv) : Prop where
  rel : exec'.rel = exec.rel
  phase : exec'.phase = exec.phase
  frame : env'.pool.frame = env.pool.frame
  onward : Onward pages exec.cursor_page_id exec'.cursor_page_id

section walks

variable {rel : Relation} {pages : List PageId} {exec exec' : HeapInsertExec} {env env₁ env' : ExecEnv}
  {next : PageId}

theorem slice_expired_frame (env : ExecEnv) :
    (kds_exec_slice_expired env).2.pool.frame = env.pool.frame := by rw [slice_expired_pool]

/-- The walk went on from the next page. -/
theorem WalkMoved.goTo (h : WalkMoved pages (exec.goTo next) env₁ exec' env')
    (hf : env₁.pool.frame = env.pool.frame) (hon : Onward pages exec.cursor_page_id next) :
    WalkMoved pages exec env exec' env' where
  rel := h.rel
  phase := h.phase
  frame := h.frame.trans hf
  onward := hon.trans h.onward

theorem scan_page_next {p p' : Pool} {id : PageId} {key : TupleId}
    {res : Except Errno (Bool × PageId)} (h : kds_heap_scan_page_for_pk p id key = (res, p')) :
    p'.frame = p.frame ∧
      ∀ found next, res = .ok (found, next) → next = heap_get_next_page_id (p.frame id) := by
  unfold kds_heap_scan_page_for_pk at h
  cases hload : kds_buf_lookup_or_load p id with
  | mk lres p₁ =>
    have hframe := (lookup_or_load_loadOnly hload).1.frame
    rw [hload] at h
    obtain ⟨-, -, ⟨e, rfl, -⟩ | ⟨rfl, -, -⟩⟩ := lookup_or_load_iff hload
    · obtain ⟨rfl, rfl⟩ := Prod.mk.inj h
      exact ⟨hframe, fun found next hres => by cases hres⟩
    · dsimp only at h
      split at h
      · obtain ⟨rfl, rfl⟩ := Prod.mk.inj h
        exact ⟨hframe, fun found next hres => by cases hres⟩
      · obtain ⟨rfl, rfl⟩ := Prod.mk.inj h
        refine ⟨hframe, fun found next hres => ?_⟩
        obtain ⟨-, rfl⟩ := Prod.mk.inj (Except.ok.inj hres)
        rw [hframe]

/-- **The scan** returns, and where it stops with its slice spent it has moved on. -/
theorem dup_scan_moves (turns : Nat) : ∀ {exec : HeapInsertExec} {env : ExecEnv}
    {pre suf : List PageId}, TablePages rel env.pool pages → pages = pre ++ suf →
    exec.cursor_page_id = suf.headD 0 → suf.length < turns →
    ∃ r exec' env', heap_insert_run_dup_scan exec env turns = some (r, exec', env') ∧
      exec'.rel = exec.rel ∧ env'.pool.frame = env.pool.frame ∧
      (r = .cont → WalkMoved pages exec env exec' env') := by
  -- `suf` are the pages not scanned yet; a turn takes one of them
  induction turns with
  | zero =>
    intro exec env pre suf _ _ _ hlt
    exact absurd hlt (Nat.not_lt_zero _)
  | succ n ih =>
    intro exec env pre suf h hpages hcur hlt
    rw [heap_insert_run_dup_scan]
    cases suf with
    | nil =>
      rw [if_pos (show exec.cursor_page_id = 0 from hcur)]
      exact ⟨_, _, _, rfl, rfl, rfl, by simp⟩
    | cons b suf =>
      have hb : exec.cursor_page_id = b := hcur
      have hne : b ≠ 0 := by
        rintro rfl
        exact h.nonzero (by rw [hpages]; simp)
      rw [hb, if_neg hne]
      cases hscan : kds_heap_scan_page_for_pk env.pool b exec.new_pk with
      | mk res pool =>
        obtain ⟨hframe, hnext⟩ := scan_page_next hscan
        cases res with
        | error e => exact ⟨_, _, _, rfl, rfl, hframe, by simp⟩
        | ok found =>
          obtain ⟨_ | _, next⟩ := found
          swap
          · exact ⟨_, _, _, rfl, rfl, hframe, by simp⟩
          -- the link of the scanned page is the head of what is left
          have hlink : next = suf.headD 0 := (hnext _ _ rfl).trans (h.link pre b suf hpages)
          have hpages' : pages = (pre ++ [b]) ++ suf := by
            rw [hpages]
            simp
          have hlt' : suf.length < n := Nat.lt_of_succ_lt_succ hlt
          have hchain : TablePages rel pool pages := h.of_frame hframe
          dsimp only
          by_cases hzero : next = 0
          · -- the last page: the clock is not looked at
            rw [if_pos hzero]
            obtain ⟨r, exec', env', hrun, hrel, hf, hmoved⟩ :=
              @ih (exec.goTo next) { env with pool := pool } _ _ hchain hpages' hlink hlt'
            refine ⟨r, exec', env', hrun, hrel, hf.trans hframe, fun hr => ?_⟩
            -- a stop behind the end would be behind every page of the chain
            have honward := (hmoved hr).onward
            have hend : pages.length ≤ pages.idxOf (exec.goTo next).cursor_page_id := by
              refine Nat.le_of_eq (List.idxOf_eq_length ?_).symm
              change next ∉ pages
              rw [hzero]
              exact h.nonzero
            exact absurd (honward.2.trans (List.idxOf_lt_length_of_mem honward.1))
              (Nat.not_lt.mpr hend)
          · rw [if_neg hzero]
            cases suf with
            | nil => exact absurd hlink hzero
            | cons c suf =>
              obtain rfl : next = c := hlink
              have hon := h.onward hpages
              have hclock := slice_expired_frame { env with pool := pool }
              split
              · refine ⟨_, _, _, rfl, rfl, hclock.trans hframe, fun _ => ?_⟩
                exact ⟨rfl, rfl, hclock.trans hframe, by rw [hb]; exact hon⟩
              · obtain ⟨r, exec', env', hrun, hrel, hf, hmoved⟩ :=
                  @ih (exec.goTo next) (kds_exec_slice_expired { env with pool := pool }).2 _ _
                    (hchain.of_frame hclock) hpages' rfl hlt'
                refine ⟨r, exec', env', hrun, hrel, hf.trans (hclock.trans hframe), fun hr => ?_⟩
                exact (hmoved hr).goTo (hclock.trans hframe) (by rw [hb]; exact hon)

/-- **The search** returns, and where it stops with its slice spent it has moved on. -/
theorem find_tail_moves (turns : Nat) : ∀ {exec : HeapInsertExec} {env : ExecEnv}
    {pre post : List PageId}, TablePages rel env.pool pages →
    pages = pre ++ exec.cursor_page_id :: post → post.length < turns →
    ∃ r exec' env', heap_insert_run_find_tail exec env turns = some (r, exec', env') ∧
      (r = .cont → WalkMoved pages exec env exec' env') := by
  -- the cursor's page has fewer than `turns` pages behind it
  induction turns with
  | zero =>
    intro exec env pre post _ _ hlt
    exact absurd hlt (Nat.not_lt_zero _)
  | succ n ih =>
    intro exec env pre post h hpages hlt
    rw [heap_insert_run_find_tail]
    cases hload : kds_buf_lookup_or_load env.pool exec.cursor_page_id with
    | mk lres p =>
      have hframe := (lookup_or_load_loadOnly hload).1.frame
      obtain ⟨-, -, ⟨e, rfl, -⟩ | ⟨rfl, -, -⟩⟩ := lookup_or_load_iff hload
      · exact ⟨_, _, _, rfl, by simp⟩
      · dsimp only
        cases hput : putRow p exec.cursor_page_id exec with
        | mk res pool =>
          obtain ⟨-, hsame, -⟩ := putRow_spec hput
          cases res with
          | ok tid => exact ⟨_, _, _, rfl, by simp⟩
          | error e =>
            have hpool : pool.frame = env.pool.frame := (hsame e rfl).trans hframe
            by_cases hfull : e = .ENOSPC
            · subst hfull
              dsimp only
              rw [hpool]
              have hlink := h.link _ _ _ hpages
              by_cases hzero : heap_get_next_page_id (env.pool.frame exec.cursor_page_id) = 0
              · rw [if_pos hzero]
                -- the last page: growing the chain never asks for more time
                obtain ⟨hr, -⟩ := @growChain_unsliced exec _ { env with pool := pool } _
                  exec.cursor_page_id _ rfl
                exact ⟨_, _, _, rfl, fun h => absurd h hr⟩
              · rw [if_neg hzero]
                cases post with
                | nil => exact absurd hlink hzero
                | cons c post =>
                  have hon := h.onward hpages
                  have hclock := slice_expired_frame
                    { env with pool := kds_buf_unpin pool exec.cursor_page_id }
                  have hf := hclock.trans hpool
                  have hc : heap_get_next_page_id (env.pool.frame exec.cursor_page_id) = c := hlink
                  rw [hc]
                  split
                  · exact ⟨_, _, _, rfl, fun _ => ⟨rfl, rfl, hf, hon⟩⟩
                  · have hpages' : pages = (pre ++ [exec.cursor_page_id]) ++
                        (exec.goTo c).cursor_page_id :: post := by
                      rw [hpages]
                      simp [HeapInsertExec.goTo]
                    obtain ⟨r, exec', env', hrun, hmoved⟩ :=
                      ih (h.of_frame hf) hpages' (Nat.lt_of_succ_lt_succ hlt)
                    exact ⟨r, exec', env', hrun, fun hr => (hmoved hr).goTo hf hon⟩
            -- any other error than a full page ends the search
            · refine ⟨.error, exec.fail e, { env with pool := kds_buf_unpin pool exec.cursor_page_id },
                ?_, by simp⟩
              cases e <;> first | exact absurd rfl hfull | rfl

end walks

/-! ## Section 3: A call of the HEAP exec -/

/-- A later phase, or in the same one a later page. -/
def HeapAdvanced (pages : List PageId) (exec exec' : HeapInsertExec) : Prop :=
  exec'.phase.left < exec.phase.left ∨
    (exec'.phase = exec.phase ∧ Onward pages exec.cursor_page_id exec'.cursor_page_id)

/-- The call starts with the search for space, and with its slice spent. -/
def HeapStalls (exec : HeapInsertExec) (env : ExecEnv) : Prop :=
  exec.phase = .findTail ∧ (kds_exec_slice_expired env).1 = true

/-- What there is left to do, at most. -/
def HeapInsertExec.work (pages : List PageId) (exec : HeapInsertExec) : Nat :=
  exec.phase.left * (pages.length + 1) + (pages.length - pages.idxOf exec.cursor_page_id)

section heap

variable {crc32c : UInt32 → List UInt8 → UInt32} {rel : Relation} {pages : List PageId}
  {exec exec' : HeapInsertExec} {env env' : ExecEnv} {s s' : HeapInsertExec × ExecEnv}

theorem HeapAdvanced.work_lt (h : HeapAdvanced pages exec exec') :
    exec'.work pages < exec.work pages := by
  unfold HeapInsertExec.work
  rcases h with hlt | ⟨hsame, hmem, hlt⟩
  · have hmul : (exec'.phase.left + 1) * (pages.length + 1) ≤ exec.phase.left * (pages.length + 1) :=
      Nat.mul_le_mul_right _ hlt
    rw [Nat.add_mul, Nat.one_mul] at hmul
    omega
  · have hbound := List.idxOf_lt_length_of_mem hmem
    rw [hsame]
    omega

theorem not_heapAdvanced_self (pages : List PageId) (exec : HeapInsertExec) :
    ¬ HeapAdvanced pages exec exec := fun h => Nat.lt_irrefl _ h.work_lt

/-- From the search for space on. -/
theorem tail_phases_moves (n : Nat) (h : TablePages rel env.pool pages)
    (hphase : exec.phase = .findTail) (hcur : exec.cursor_page_id ∈ pages) :
    ∃ r exec' env',
      heapRunPhases crc32c rel (pages.length + 1) exec env (n + 4) = some (r, exec', env') ∧
        (r = .cont → env'.pool.frame = env.pool.frame ∧ exec'.rel = exec.rel ∧
          exec'.phase = .findTail ∧ exec'.cursor_page_id ∈ pages ∧
          ((kds_exec_slice_expired env).1 = true → exec' = exec) ∧
          ((kds_exec_slice_expired env).1 = false →
            Onward pages exec.cursor_page_id exec'.cursor_page_id)) := by
  rw [tail_phases crc32c hphase]
  have hclock := slice_expired_frame env
  cases hexp : (kds_exec_slice_expired env).1 with
  | true =>
    rw [if_pos rfl]
    exact ⟨_, _, _, rfl, fun _ => ⟨hclock, rfl, hphase, hcur, fun _ => rfl, by simp⟩⟩
  | false =>
    rw [if_neg Bool.false_ne_true]
    obtain ⟨pre, post, hpages⟩ := List.append_of_mem hcur
    have hlen : post.length < pages.length + 1 := by
      rw [hpages, List.length_append, List.length_cons]
      omega
    obtain ⟨r, exec₁, env₁, hrun, hmoved⟩ :=
      find_tail_moves (pages.length + 1) (h.of_frame hclock) hpages hlen
    rw [hrun, Option.bind_some]
    by_cases hr : r = .done
    · -- the row is in: the log phases go through to the end
      obtain ⟨exec₂, env₂, hlog, -⟩ := wal_phases_end crc32c rel (pages.length + 1) n
        { exec₁ with phase := if exec₁.wal_need_init_page then .walInitPage else .walInsert } env₁
        (by dsimp only; split <;> simp)
      rw [if_neg (not_not.mpr hr), hlog]
      exact ⟨_, _, _, rfl, by simp⟩
    · rw [if_pos hr]
      refine ⟨_, _, _, rfl, fun hc => ?_⟩
      obtain ⟨hrel, hsame, hframe, hon⟩ := hmoved hc
      exact ⟨hframe.trans hclock, hrel, hsame.trans hphase, hon.1, by simp, fun _ => hon⟩

/-- **A call** returns. One that asks for more has got further, unless it
    stalled, and the exec is still at work on the chain. -/
theorem heap_call_moves (h : HeapReady rel pages (exec, env)) : ∃ r exec' env',
    kds_heap_insert_exec_run crc32c (pages.length + 1) exec env = some (r, exec', env') ∧
      (r = .cont → HeapReady rel pages (exec', env') ∧
        (HeapAdvanced pages exec exec' ↔ ¬ HeapStalls exec env)) := by
  obtain ⟨hrel, hchain, hplace⟩ := h
  obtain ⟨e, hfail⟩ | ⟨rel', hrel', hkind, hlen⟩ := @heap_run_cases crc32c exec
  · exact ⟨_, _, _, hfail _ _, by simp⟩
  obtain rfl : rel' = rel := Option.some.inj (hrel'.symm.trans hrel)
  rw [heap_run_eq hrel' hkind hlen]
  cases hphase : exec.phase with
  | dupScan =>
    dsimp only at hplace
    rw [hphase] at hplace
    obtain ⟨pre, suf, hpages, hcur⟩ : ∃ pre suf, pages = pre ++ suf ∧
        exec.cursor_page_id = suf.headD 0 := by
      rcases hplace with hzero | hmem
      · exact ⟨pages, [], (List.append_nil pages).symm, hzero⟩
      · obtain ⟨pre, post, hsplit⟩ := List.append_of_mem hmem
        exact ⟨pre, _, hsplit, rfl⟩
    have hlt : suf.length < pages.length + 1 := by
      rw [hpages, List.length_append]
      omega
    obtain ⟨r, exec₁, env₁, hscan, hrel₁, hframe₁, hmoved⟩ :=
      dup_scan_moves (pages.length + 1) hchain hpages hcur hlt
    have hchain₁ : TablePages rel' env₁.pool pages := hchain.of_frame hframe₁
    -- the scan looks at the clock only behind a page, so this phase never stalls
    have hnostall : ¬ HeapStalls exec env := by
      rintro ⟨hfind, -⟩
      rw [hphase] at hfind
      cases hfind
    rw [heapRunPhases, heapRunPhase, hphase]
    simp only [hscan, Option.bind_eq_bind, Option.bind_some]
    -- the scan ended: the search of the same call follows
    by_cases hr : r = .done
    · rw [if_neg (not_not.mpr hr)]
      obtain ⟨r', exec', env', hrun, hcont⟩ := @tail_phases_moves crc32c rel' pages
        { exec₁ with phase := .findTail, cursor_page_id := rel'.root_page_id } env₁ 0 hchain₁ rfl
        (List.mem_of_mem_head? hchain.head)
      refine ⟨r', exec', env', hrun, fun hc => ?_⟩
      obtain ⟨hframe, hsame, hfind, hmem, -⟩ := hcont hc
      refine ⟨⟨?_, hchain₁.of_frame hframe, ?_⟩, iff_of_true (Or.inl ?_) hnostall⟩
      · exact hsame.trans (hrel₁.trans hrel)
      · dsimp only
        rw [hfind]
        exact hmem
      · rw [hfind, hphase]
        decide
    · rw [if_pos hr]
      refine ⟨_, _, _, rfl, fun hc => ?_⟩
      obtain ⟨-, hsame, -, hon⟩ := hmoved hc
      refine ⟨⟨hrel₁.trans hrel, hchain₁, ?_⟩, iff_of_true (Or.inr ⟨hsame, hon⟩) hnostall⟩
      dsimp only
      rw [hsame, hphase]
      exact Or.inr hon.1
  | findTail =>
    dsimp only at hplace
    rw [hphase] at hplace
    obtain ⟨r, exec', env', hrun, hcont⟩ :=
      @tail_phases_moves crc32c rel' pages exec env 1 hchain hphase hplace
    refine ⟨r, exec', env', hrun, fun hc => ?_⟩
    obtain ⟨hframe, hsame, hfind, hmem, hspent, hleft⟩ := hcont hc
    refine ⟨⟨hsame.trans hrel, hchain.of_frame hframe, ?_⟩, ?_⟩
    · dsimp only
      rw [hfind]
      exact hmem
    -- a slice already spent is the one stall of the phase
    · cases hexp : (kds_exec_slice_expired env).1 with
      | true =>
        rw [hspent hexp]
        exact iff_of_false (not_heapAdvanced_self pages exec) (not_not.mpr ⟨hphase, hexp⟩)
      | false =>
        refine iff_of_true (Or.inr ⟨hfind.trans hphase.symm, hleft hexp⟩) ?_
        rintro ⟨-, hspent⟩
        rw [hexp] at hspent
        cases hspent
  | walInitPage =>
    obtain ⟨exec', env', hlog, -⟩ := wal_phases_end crc32c rel' (pages.length + 1) 2 exec env (Or.inl hphase)
    exact ⟨_, _, _, hlog, by simp⟩
  | walInsert =>
    obtain ⟨exec', env', hlog, -⟩ := wal_phases_end crc32c rel' (pages.length + 1) 2 exec env (Or.inr hphase)
    exact ⟨_, _, _, hlog, by simp⟩
  | done =>
    refine ⟨.done, exec, env, ?_, by simp⟩
    simp only [heapRunPhases, heapRunPhase, hphase, Option.bind_eq_bind, Option.bind_some]

theorem heap_call_cont (h : HeapReady rel pages s) (hcall : HeapCall crc32c s .cont s') :
    HeapReady rel pages s' ∧ (HeapAdvanced pages s.1 s'.1 ↔ ¬ HeapStalls s.1 s.2) := by
  obtain ⟨exec', env'⟩ := s'
  obtain ⟨turns, hrun⟩ := hcall
  obtain ⟨r, exec₁, env₁, hrun₁, hcont⟩ := @heap_call_moves crc32c rel pages s.1 s.2 h
  have hmore := heap_run_more_turns turns (pages.length + 1) hrun
  rw [Nat.add_comm, heap_run_more_turns (pages.length + 1) turns hrun₁] at hmore
  obtain ⟨rfl, rfl, rfl⟩ : r = .cont ∧ exec₁ = exec' ∧ env₁ = env' := by simpa using hmore
  exact hcont rfl

end heap

/-! ## Section 4: A call of the BTREE exec -/

/-- A later phase, or in the descent a lower level. -/
def BtreeAdvanced (exec exec' : BtreeInsertExec) : Prop :=
  exec'.phase.left < exec.phase.left ∨
    (exec'.phase = exec.phase ∧ exec.cursor.depth < exec'.cursor.depth)

/-- The call starts in front of the row, or of its entry in the leaf, and with its slice spent. -/
def BtreeStalls (exec : BtreeInsertExec) (env : ExecEnv) : Prop :=
  (exec.phase = .heapInsert ∨ exec.phase = .btreeInsert) ∧ (kds_exec_slice_expired env).1 = true

/-- What there is left to do, at most. -/
def BtreeInsertExec.work (exec : BtreeInsertExec) : Nat :=
  exec.phase.left * (BTREE_MAX_DEPTH + 1) + (BTREE_MAX_DEPTH - exec.cursor.depth)

section btree

variable {crc32c : UInt32 → List UInt8 → UInt32} {rel : Relation} {exec exec' : BtreeInsertExec}
  {env env' : ExecEnv} {s s' : BtreeInsertExec × ExecEnv}

/-- The descent stops with its slice spent only behind a level. -/
theorem search_descends (fuel : Nat) : ∀ {exec : BtreeInsertExec} {env : ExecEnv},
    searchPrepareLoop rel exec env fuel = .ok (.cont, exec', env') →
      exec.cursor.depth < exec'.cursor.depth ∧ exec'.cursor.depth ≤ exec.cursor.depth + fuel := by
  induction fuel with
  | zero =>
    intro exec env hrun
    exact absurd rfl (failExec_noClock _ _ _ _ _ _ hrun).1
  | succ n ih =>
    intro exec env hrun
    unfold searchPrepareLoop at hrun
    split at hrun
    · exact absurd rfl (failExec_noClock _ _ _ _ _ _ hrun).1
    · obtain ⟨node, -, hrun⟩ := exists_of_bind_ok hrun
      obtain ⟨nodes, -, hrun⟩ := exists_of_bind_ok hrun
      obtain ⟨pos, -, hrun⟩ := exists_of_bind_ok hrun
      obtain ⟨positions, -, hrun⟩ := exists_of_bind_ok hrun
      obtain ⟨slot, -, hrun⟩ := exists_of_bind_ok hrun
      dsimp only at hrun
      split at hrun
      · exact absurd rfl (probe_noClock rel slot _ _ _ _ _ hrun).1
      · split at hrun
        · obtain ⟨rfl, -⟩ : _ = exec' ∧ _ = env' := by simpa using hrun
          dsimp only
          omega
        · have hrest := ih hrun
          dsimp only at hrest
          omega

/-- One turn of the phase loop that asks for more. -/
theorem btreeRunPhase_cont (hrun : runPhase crc32c rel exec env = .ok (some .cont, exec', env')) :
    exec'.phase = exec.phase ∧
      ((exec.phase = .searchAndPrepare ∧ exec.cursor.depth < exec'.cursor.depth ∧
          exec'.cursor.depth ≤ BTREE_MAX_DEPTH) ∨
        (BtreeStalls exec env ∧ exec' = exec)) := by
  have hresume := btreeRunPhase_resumes hrun
  refine ⟨(hresume.2.2 rfl).1, ?_⟩
  unfold runPhase at hrun
  cases hphase : exec.phase with
  | searchAndPrepare =>
    rw [hphase] at hrun
    obtain ⟨⟨r, exec₁, env₁⟩, hsearch, hrun⟩ := exists_of_bind_ok hrun
    dsimp only at hrun
    split at hrun
    · obtain ⟨rfl, rfl, rfl⟩ : r = .cont ∧ exec₁ = exec' ∧ env₁ = env' := by simpa using hrun
      -- the search stopped between two levels
      have hdepth := search_descends _ hsearch
      exact Or.inl ⟨rfl, by omega, by omega⟩
    · simp at hrun
  | walInitPage | walInsert =>
    rw [hphase] at hrun
    simp at hrun
  | walBtree =>
    rw [hphase] at hrun
    obtain ⟨env₁, -, hrun⟩ := exists_of_bind_ok hrun
    simp at hrun
  | heapInsert =>
    rw [hphase] at hrun
    dsimp only at hrun
    cases hexp : (kds_exec_slice_expired env).1 with
    | true =>
      rw [if_pos hexp] at hrun
      obtain ⟨rfl, -⟩ : exec = exec' ∧ _ = env' := by simpa using hrun
      -- the slice was spent before the row was touched
      exact Or.inr ⟨⟨Or.inl hphase, hexp⟩, rfl⟩
    | false =>
      rw [hexp, if_neg Bool.false_ne_true] at hrun
      cases hins : btree_insert_run_heap_insert exec (kds_exec_slice_expired env).2 with
      | mk res out =>
        obtain ⟨exec₁, env₁⟩ := out
        have hres := (heap_insert_noClock _ _ _ _ _ (congrArg Except.ok hins)).1
        simp only [hins] at hrun
        split at hrun
        · obtain ⟨rfl, -⟩ : res = .cont ∧ _ := by simpa using hrun
          exact absurd rfl hres
        · simp at hrun
  | btreeInsert =>
    rw [hphase] at hrun
    dsimp only at hrun
    cases hexp : (kds_exec_slice_expired env).1 with
    | true =>
      rw [if_pos hexp] at hrun
      obtain ⟨rfl, -⟩ : exec = exec' ∧ _ = env' := by simpa using hrun
      exact Or.inr ⟨⟨Or.inr hphase, hexp⟩, rfl⟩
    | false =>
      rw [hexp, if_neg Bool.false_ne_true] at hrun
      obtain ⟨⟨res, exec₁, env₁⟩, hins, hrun⟩ := exists_of_bind_ok hrun
      obtain ⟨⟨cursor, pool⟩, -, hrun⟩ := exists_of_bind_ok hrun
      -- past the check neither step reads the clock again
      have hres := (leaf_insert_noClock _ _ _ _ _ hins).1
      dsimp only at hrun
      split at hrun
      · obtain ⟨rfl, -⟩ : res = .cont ∧ _ := by simpa using hrun
        exact absurd rfl hres
      · simp at hrun
  | done =>
    rw [hphase] at hrun
    obtain ⟨⟨cursor, pool⟩, -, hrun⟩ := exists_of_bind_ok hrun
    simp at hrun

/-- A call that stalls. -/
theorem BtreeStalls.turn (h : BtreeStalls exec env) :
    runPhase crc32c rel exec env = .ok (some .cont, exec, (kds_exec_slice_expired env).2) := by
  obtain ⟨hphase, hexp⟩ := h
  unfold runPhase
  rcases hphase with hphase | hphase
  · rw [hphase]
    exact if_pos hexp
  · rw [hphase]
    exact if_pos hexp

theorem work_lt_of_left (h : exec'.phase.left < exec.phase.left) : exec'.work < exec.work := by
  have hmul : (exec'.phase.left + 1) * (BTREE_MAX_DEPTH + 1) ≤
      exec.phase.left * (BTREE_MAX_DEPTH + 1) := Nat.mul_le_mul_right _ h
  rw [Nat.add_mul, Nat.one_mul] at hmul
  unfold BtreeInsertExec.work
  omega

theorem not_btreeAdvanced_self (exec : BtreeInsertExec) : ¬ BtreeAdvanced exec exec := by
  rintro (h | ⟨-, h⟩)
  · exact Nat.lt_irrefl _ h
  · exact Nat.lt_irrefl _ h

/-- The phase loop, where it asks for more. -/
theorem btree_phases_cont (turns : Nat) : ∀ {exec : BtreeInsertExec} {env : ExecEnv},
    exec.ret = none → exec.phase.left ≤ turns →
    runPhases crc32c rel exec env turns = .ok (.cont, exec', env') →
      (BtreeStalls exec env ∧ exec' = exec) ∨
        (¬ BtreeStalls exec env ∧ BtreeAdvanced exec exec' ∧ exec'.work < exec.work) := by
  -- a phase that goes on lowers `left`, so six turns are enough
  induction turns with
  | zero =>
    intro exec env _ hleft
    cases hp : exec.phase <;> simp [hp, BtreeInsertPhase.left] at hleft
  | succ n ih =>
    intro exec env hret hleft hrun
    unfold runPhases at hrun
    obtain ⟨⟨res, exec₁, env₁⟩, hphase, hrun⟩ := exists_of_bind_ok hrun
    cases res with
    | some res =>
      obtain ⟨rfl, rfl, rfl⟩ : res = .cont ∧ exec₁ = exec' ∧ env₁ = env' := by simpa using hrun
      obtain ⟨hsame, ⟨hsearch, hlt, hmax⟩ | ⟨hstall, heq⟩⟩ := btreeRunPhase_cont hphase
      · refine Or.inr ⟨?_, Or.inr ⟨hsame, hlt⟩, ?_⟩
        · rintro ⟨hfirst | hfirst, -⟩
          · rw [hsearch] at hfirst
            cases hfirst
          · rw [hsearch] at hfirst
            cases hfirst
        · unfold BtreeInsertExec.work
          rw [hsame]
          omega
      · exact Or.inl ⟨hstall, heq⟩
    | none =>
      obtain ⟨hret₁, hlt⟩ := (runPhase_spec hret hphase).2 rfl
      -- a stalled phase would have asked for more here
      have hnostall : ¬ BtreeStalls exec env := by
        intro hstall
        rw [hstall.turn] at hphase
        simp at hphase
      have hlater : exec'.phase.left < exec.phase.left := by
        rcases ih hret₁ (by omega) hrun with ⟨-, rfl⟩ | ⟨-, h | ⟨hsame, -⟩, -⟩
        · exact hlt
        · exact h.trans hlt
        · rw [hsame]
          exact hlt
      exact Or.inr ⟨hnostall, Or.inl hlater, work_lt_of_left hlater⟩

/-- **A call** that asks for more has got further, unless it stalled. -/
theorem btree_call_cont (hret : s.1.ret = none) (hcall : BtreeCall crc32c s .cont s') :
    s'.1.ret = none ∧ (BtreeAdvanced s.1 s'.1 ↔ ¬ BtreeStalls s.1 s.2) ∧
      (¬ BtreeStalls s.1 s.2 → s'.1.work < s.1.work) := by
  refine ⟨(btree_resumable.again s s' hret hcall).1, ?_⟩
  unfold BtreeCall at hcall
  obtain ⟨e, hfail⟩ | ⟨rel, hrel, hkind, hroot⟩ := @btree_run_cases crc32c s.1
  · rw [hfail] at hcall
    simp at hcall
  · rw [btree_run_eq hrel hkind hroot] at hcall
    have hleft : s.1.phase.left ≤ 7 := by cases s.1.phase <;> decide
    rcases btree_phases_cont 7 hret hleft hcall with ⟨hstall, heq⟩ | ⟨hgo, hadv, hlt⟩
    · refine ⟨?_, fun h => absurd hstall h⟩
      rw [heq]
      exact iff_of_false (not_btreeAdvanced_self _) (not_not.mpr hstall)
    · exact ⟨iff_of_true hadv hgo, fun _ => hlt⟩

end btree

/-! ## Section 5: All calls of an insert -/

/-- A call at any time that does not stall. -/
def HeapFair (crc32c : UInt32 → List UInt8 → UInt32) (s : HeapInsertExec × ExecEnv) (r : ExecResult)
    (s' : HeapInsertExec × ExecEnv) : Prop :=
  ∃ ticks, ¬ HeapStalls s.1 (s.2.clock ticks) ∧ HeapCall crc32c (s.1, s.2.clock ticks) r s'

/-- A call at any time that does not stall. -/
def BtreeFair (crc32c : UInt32 → List UInt8 → UInt32) (s : BtreeInsertExec × ExecEnv) (r : ExecResult)
    (s' : BtreeInsertExec × ExecEnv) : Prop :=
  ∃ ticks, ¬ BtreeStalls s.1 (s.2.clock ticks) ∧ BtreeCall crc32c (s.1, s.2.clock ticks) r s'

theorem HeapReady.clock {rel : Relation} {pages : List PageId} {s : HeapInsertExec × ExecEnv}
    (h : HeapReady rel pages s) (ticks : List Bool) : HeapReady rel pages (s.1, s.2.clock ticks) :=
  ⟨h.rel_eq, h.chain, h.place⟩

/-- **Progress**, for any clock of any call: the calls of a HEAP exec return,
    and a call that asks for more, of either exec, has got further exactly if it
    did not stall. So only so many calls ask for more as long as none of them stalls. -/
theorem kds_exec_run_progress (crc32c : UInt32 → List UInt8 → UInt32) :
    (∀ rel pages s, HeapReady rel pages s → ∀ n s', Asks (HeapFair crc32c) .cont n s s' →
      n ≤ s.1.work pages ∧ ∀ ticks, (∃ r s'', HeapCall crc32c (s'.1, s'.2.clock ticks) r s'') ∧
        ∀ s'', HeapCall crc32c (s'.1, s'.2.clock ticks) .cont s'' →
          (HeapAdvanced pages s'.1 s''.1 ↔ ¬ HeapStalls s'.1 (s'.2.clock ticks))) ∧
      ∀ s, s.1.ret = none → ∀ n s', Asks (BtreeFair crc32c) .cont n s s' →
        n ≤ s.1.work ∧ ∀ ticks s'', BtreeCall crc32c (s'.1, s'.2.clock ticks) .cont s'' →
          (BtreeAdvanced s'.1 s''.1 ↔ ¬ BtreeStalls s'.1 (s'.2.clock ticks)) := by
  constructor
  · intro rel pages s h n s' hasks
    have hfair : ∀ s s₁, HeapReady rel pages s → HeapFair crc32c s .cont s₁ →
        HeapReady rel pages s₁ ∧ s₁.1.work pages < s.1.work pages := by
      rintro s s₁ hready ⟨ticks, hgo, hcall⟩
      obtain ⟨hready₁, hadv⟩ := heap_call_cont (hready.clock ticks) hcall
      exact ⟨hready₁, (hadv.mpr hgo).work_lt⟩
    obtain ⟨hready, hle⟩ := hasks.bounded hfair h
    refine ⟨by omega, fun ticks => ⟨?_, fun s'' hcall => ?_⟩⟩
    · obtain ⟨r, exec'', env'', hrun, -⟩ := @heap_call_moves crc32c rel pages s'.1
        (s'.2.clock ticks) (hready.clock ticks)
      exact ⟨r, (exec'', env''), _, hrun⟩
    · exact (heap_call_cont (hready.clock ticks) hcall).2
  · intro s hret n s' hasks
    have hfair : ∀ s s₁ : BtreeInsertExec × ExecEnv, s.1.ret = none → BtreeFair crc32c s .cont s₁ →
        s₁.1.ret = none ∧ s₁.1.work < s.1.work := by
      rintro s s₁ hret ⟨ticks, hgo, hcall⟩
      obtain ⟨hret₁, -, hlt⟩ := @btree_call_cont crc32c (s.1, s.2.clock ticks) s₁ hret hcall
      exact ⟨hret₁, hlt hgo⟩
    obtain ⟨hret', hle⟩ := hasks.bounded hfair hret
    refine ⟨by omega, fun ticks s'' hcall => ?_⟩
    exact (@btree_call_cont crc32c (s'.1, s'.2.clock ticks) s'' hret' hcall).2.1

/-! ### A row in a new table -/

/-- The exec of a row with key 5, before its first call. -/
theorem heapRowFive_ready : HeapReady newHeapRel [200] (heapRowFive, newHeapEnv) where
  rel_eq := rfl
  chain :=
    { head := newHeapEnv_new.chain.head
      link := newHeapEnv_new.chain.link
      nodup := List.nodup_singleton 200
      nonzero := by decide }
  place := Or.inr (List.mem_singleton_self 200)

/-- Both execs of the row: only so many calls ask for more, and the first call gets further. -/
theorem kds_exec_run_progress_five :
    (∀ n s', Asks (HeapFair crc32c_le) .cont n (heapRowFive, newHeapEnv) s' →
      n ≤ heapRowFive.work [200]) ∧
      ∀ s'', BtreeCall crc32c_le (btreeRowFive, newTableEnv.clock [true]) .cont s'' →
        BtreeAdvanced btreeRowFive s''.1 := by
  constructor
  · intro n s' hasks
    exact ((kds_exec_run_progress crc32c_le).1 newHeapRel [200] _ heapRowFive_ready n s' hasks).1
  · intro s'' hcall
    have hfirst := ((kds_exec_run_progress crc32c_le).2 (btreeRowFive, newTableEnv) rfl 0 _
      (.none _)).2 [true] s'' hcall
    refine hfirst.mpr ?_
    rintro ⟨hphase | hphase, -⟩
    · cases hphase
    · cases hphase

/-- A call whose slice is spent from its start on. -/
def HeapSpent (crc32c : UInt32 → List UInt8 → UInt32) (s : HeapInsertExec × ExecEnv) (r : ExecResult)
    (s' : HeapInsertExec × ExecEnv) : Prop :=
  HeapCall crc32c (s.1, s.2.clock [true]) r s'

/-- The search for space with its slice spent: the call leaves everything as it was. -/
theorem heap_spent_findTail {crc32c : UInt32 → List UInt8 → UInt32} {rel : Relation}
    {s : HeapInsertExec × ExecEnv} (hrel : s.1.rel = some rel) (hkind : rel.kind = .heap)
    (hlen : ¬ s.1.data_len < 8) (hphase : s.1.phase = .findTail) (hticks : s.2.ticks = []) :
    HeapSpent crc32c s .cont s := by
  refine ⟨0, ?_⟩
  rw [heap_run_eq hrel hkind hlen, tail_phases crc32c hphase]
  have henv : s.2 = { s.2 with ticks := [] } := by rw [← hticks]
  change some (ExecResult.cont, s.1, { s.2 with ticks := [] }) = some (ExecResult.cont, s.1, s.2)
  rw [← henv]

/-- With slices of no time at all the first call gets the exec of the row to its
    search for space, and from there on no call does anything. -/
theorem kds_exec_run_spins : ∃ s, HeapSpent crc32c_le (heapRowFive, newHeapEnv) .cont s ∧
    HeapReady newHeapRel [200] s ∧
    ∀ n, Asks (HeapSpent crc32c_le) .cont n s s ∧ ¬ HeapAdvanced [200] s.1 s.1 := by
  have hfirst : HeapSpent crc32c_le (heapRowFive, newHeapEnv) .cont
      (heapCalled (heapRowFive, newHeapEnv.clock [true])) := heapCalled_call (by decide +kernel)
  have hready := (heap_call_cont (heapRowFive_ready.clock [true]) hfirst).1
  have hstate : ¬ (heapCalled (heapRowFive, newHeapEnv.clock [true])).1.data_len < 8 ∧
      (heapCalled (heapRowFive, newHeapEnv.clock [true])).1.phase = .findTail ∧
      (heapCalled (heapRowFive, newHeapEnv.clock [true])).2.ticks = [] := by decide +kernel
  obtain ⟨hlen, hphase, hticks⟩ := hstate
  have hspent := @heap_spent_findTail crc32c_le _ _ hready.rel_eq rfl hlen hphase hticks
  exact ⟨_, hfirst, hready, fun n => ⟨Asks.spin hspent n, not_heapAdvanced_self _ _⟩⟩

end Kds
