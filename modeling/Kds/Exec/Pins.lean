import Kds.Buf.Pins
import Kds.Exec.Marks
import Kds.Exec.Slices
import Kds.Lib.Lts

/-! # The pins of the insert executors

    The pages of the ring are pinned once by the ring. An exec that takes a
    page from it takes over that pin, and gives it back like those of the
    pages it has looked up. The exec of a HEAP table holds no page between two
    calls. The exec of a BTREE table holds its cursor from the descent on; it
    cleans it up in front of every error of the descent and behind the insert
    into the leaf, but not where the row does not get into its heap page.
-/

open Bytes Fallible Tally Lts Slices

namespace Kds

/-! ## Section 1: Pins and the ring -/

/-- The pins on a page that the ring does not account for. -/
def ExecEnv.pins (env : ExecEnv) : PageId → Int := env.pool.pins - listed env.staged

/-- The pages of the ring have frames. -/
def RingIn (env : ExecEnv) : Prop := ∀ id, id ∈ env.staged → (env.pool.cached id).isSome

/-- The pins that the ring does not account for went up by `d`, no page has
    lost its frame, and none was put into the ring. -/
structure ExecEnv.Pinned (env : ExecEnv) (d : PageId → Int) (env' : ExecEnv) : Prop where
  pins : env'.pins = env.pins + d
  keeps : ∀ id, (env.pool.cached id).isSome → (env'.pool.cached id).isSome
  staged : ∀ id, id ∈ env'.staged → id ∈ env.staged

section env

variable {env env' env'' : ExecEnv} {d d' : PageId → Int} {p : Pool}

theorem ExecEnv.Pinned.of_pool (h : env.pool.Pinned d env'.pool) (hstaged : env'.staged = env.staged) :
    env.Pinned d env' := by
  constructor
  · unfold ExecEnv.pins
    rw [h.pins, hstaged]
    exact add_sub_right_comm _ _ _
  · exact h.keeps
  · intro id hid
    rw [hstaged] at hid
    exact hid

theorem ExecEnv.Pinned.refl (env : ExecEnv) : env.Pinned 0 env := .of_pool (.refl _) rfl

theorem ExecEnv.Pinned.trans (h : env.Pinned d env') (h' : env'.Pinned d' env'') :
    env.Pinned (d + d') env'' := by
  constructor
  · rw [h'.pins, h.pins, add_assoc]
  · intro id hid
    exact h'.keeps id (h.keeps id hid)
  · intro id hid
    exact h.staged id (h'.staged id hid)

theorem ExecEnv.Pinned.of_eq (h : env.Pinned d env') (hd : d = d') : env.Pinned d' env' := hd ▸ h

/-- What gives back all it takes. -/
theorem ExecEnv.Pinned.still (h : env.Pinned d env') (h' : env'.Pinned 0 env'') :
    env.Pinned d env'' :=
  (h.trans h').of_eq (add_zero d)

theorem ExecEnv.Pinned.cancel (h : env.Pinned d env') (h' : env'.Pinned (-d) env'') :
    env.Pinned 0 env'' :=
  (h.trans h').of_eq (add_neg_cancel d)

theorem RingIn.keeps (h : RingIn env) (hp : env.Pinned d env') : RingIn env' :=
  fun id hid => hp.keeps id (h id (hp.staged id hid))

theorem slice_pinned (env : ExecEnv) : env.Pinned 0 (kds_exec_slice_expired env).2 := by
  obtain ⟨hpool, hstaged⟩ := slice_pool env
  apply ExecEnv.Pinned.of_pool
  · rw [hpool]
    exact .refl _
  · exact hstaged

theorem append_pinned (crc32c : UInt32 → List UInt8 → UInt32) (env : ExecEnv) (hdr : WalRecHdr)
    (body : List UInt8) : env.Pinned 0 (env.append crc32c hdr body) :=
  .of_pool (by rw [append_pool]; exact .refl _) rfl

/-- A page of the ring: its pin is the exec's from now on. -/
theorem page_alloc_pinned {type : PageType} {res : Option PageId} (hring : RingIn env)
    (h : kds_page_alloc env type = (res, env')) :
    (res = none → env.staged = [] ∧ env.Pinned 0 env') ∧
      ∀ frame, res = some frame →
        env.Pinned (entry (some frame)) env' ∧ (env'.pool.cached frame).isSome := by
  unfold kds_page_alloc at h
  cases hstaged : env.staged with
  | nil =>
    rw [hstaged] at h
    obtain ⟨rfl, rfl⟩ := Prod.mk.inj h
    exact ⟨fun _ => ⟨rfl, .refl _⟩, fun frame hf => by simp at hf⟩
  | cons id staged =>
    rw [hstaged] at h
    obtain ⟨rfl, rfl⟩ := Prod.mk.inj h
    refine ⟨fun hn => by simp at hn, fun frame hf => ?_⟩
    rw [← Option.some.inj hf]
    have hid := hring id (by rw [hstaged]; exact List.mem_cons_self)
    have htype : env.pool.Pinned 0 (setPageType env.pool id type) := pinned_setFrame hid
    refine ⟨⟨?_, htype.keeps, ?_⟩, htype.keeps id hid⟩
    · unfold ExecEnv.pins
      rw [htype.pins, hstaged, listed_cons]
      funext j
      simp only [Pi.add_apply, Pi.sub_apply, Pi.zero_apply]
      omega
    · intro j hj
      rw [hstaged]
      exact List.mem_cons_of_mem id hj

end env

/-! ## Section 2: The exec of HEAP tables -/

section heap

variable {exec exec' : HeapInsertExec} {env env' : ExecEnv} {r : ExecResult}

theorem scan_page_pinned {p p' : Pool} {id : PageId} {key : TupleId}
    {res : Except Errno (Bool × PageId)} (h : kds_heap_scan_page_for_pk p id key = (res, p')) :
    p.Pinned 0 p' := by
  unfold kds_heap_scan_page_for_pk at h
  cases hload : kds_buf_lookup_or_load p id with
  | mk ret p₁ =>
    obtain ⟨herr, hok⟩ := pinned_lookup hload
    rw [hload] at h
    cases ret with
    | error e =>
      obtain ⟨-, rfl⟩ := Prod.mk.inj h
      exact herr e rfl
    | ok frame =>
      obtain ⟨-, hpin, hin⟩ := hok frame rfl
      dsimp only at h
      split at h
      · obtain ⟨-, rfl⟩ := Prod.mk.inj h
        exact hpin.cancel (pinned_unpin hin)
      · obtain ⟨-, rfl⟩ := Prod.mk.inj h
        exact hpin.cancel (pinned_unpin hin)

theorem dup_scan_pinned (turns : Nat) : ∀ {exec : HeapInsertExec} {env : ExecEnv},
    heap_insert_run_dup_scan exec env turns = some (r, exec', env') → env.Pinned 0 env' := by
  induction turns with
  | zero =>
    intro exec env hrun
    simp [heap_insert_run_dup_scan] at hrun
  | succ n ih =>
    intro exec env hrun
    unfold heap_insert_run_dup_scan at hrun
    split at hrun
    · obtain ⟨-, -, rfl⟩ : ExecResult.done = r ∧ exec = exec' ∧ env = env' := by simpa using hrun
      exact .refl _
    · split at hrun
      · next hscan =>
        obtain ⟨-, -, rfl⟩ : ExecResult.error = r ∧ _ = exec' ∧ _ = env' := by simpa using hrun
        exact .of_pool (scan_page_pinned hscan) rfl
      · next hscan =>
        obtain ⟨-, -, rfl⟩ : ExecResult.error = r ∧ _ = exec' ∧ _ = env' := by simpa using hrun
        exact .of_pool (scan_page_pinned hscan) rfl
      · next next pool hscan =>
        have h₁ : env.Pinned 0 { env with pool := pool } := .of_pool (scan_page_pinned hscan) rfl
        dsimp only at hrun
        split at hrun
        · exact h₁.still (ih hrun)
        · have h₂ := h₁.still (slice_pinned { env with pool := pool })
          split at hrun
          · obtain ⟨-, -, rfl⟩ : ExecResult.cont = r ∧ _ = exec' ∧ _ = env' := by simpa using hrun
            exact h₂
          · exact h₂.still (ih hrun)

theorem putRow_pinned {p p' : Pool} {id : PageId} {res : Except Errno HeapTid}
    (hid : (p.cached id).isSome) (h : putRow p id exec = (res, p')) : p.Pinned 0 p' := by
  unfold putRow at h
  generalize heap_insert_tuple (p.frame id) (some exec.data) exec.data_len exec.xid = row at h
  obtain ⟨-, rfl⟩ := Prod.mk.inj h
  exact pinned_setFrame hid

/-- The last page of the chain is given back, and the new one as well. -/
theorem growChain_pinned {frame : PageId} (hring : RingIn env) (hframe : (env.pool.cached frame).isSome)
    (hrun : growChain exec env frame = (r, exec', env')) :
    env.Pinned (-entry (some frame)) env' := by
  unfold growChain at hrun
  cases halloc : kds_page_alloc env .heap with
  | mk res env₁ =>
    obtain ⟨hnone, hsome⟩ := page_alloc_pinned hring halloc
    rw [halloc] at hrun
    cases res with
    | none =>
      obtain ⟨-, -, rfl⟩ : ExecResult.error = r ∧ _ = exec' ∧ _ = env' := by simpa using hrun
      obtain ⟨-, h₁⟩ := hnone rfl
      have hunpin : env₁.Pinned (-entry (some frame))
          { env₁ with pool := kds_buf_unpin env₁.pool frame } :=
        .of_pool (pinned_unpin (h₁.keeps frame hframe)) rfl
      exact (h₁.trans hunpin).of_eq (zero_add _)
    | some new_frame =>
      obtain ⟨h₁, hnew⟩ := hsome new_frame rfl
      have hframe₁ := h₁.keeps frame hframe
      dsimp only at hrun
      have hinit : env₁.pool.Pinned 0
          (env₁.pool.setFrame new_frame (heap_init_page (env₁.pool.frame new_frame))) :=
        pinned_setFrame hnew
      cases hput : putRow (env₁.pool.setFrame new_frame (heap_init_page (env₁.pool.frame new_frame)))
          new_frame exec with
      | mk res pool =>
        have h₂ := hinit.still (putRow_pinned (hinit.keeps new_frame hnew) hput)
        rw [hput] at hrun
        cases res with
        | error e =>
          obtain ⟨-, -, rfl⟩ : ExecResult.error = r ∧ _ = exec' ∧ _ = env' := by simpa using hrun
          have h₃ := h₂.trans (pinned_unpin (h₂.keeps new_frame hnew))
          have h₄ := h₃.trans (pinned_unpin (h₃.keeps frame hframe₁))
          have h₅ : env₁.Pinned (0 + -entry (some new_frame) + -entry (some frame)) { env₁ with
              pool := kds_buf_unpin (kds_buf_unpin pool new_frame) frame } := .of_pool h₄ rfl
          apply (h₁.trans h₅).of_eq
          funext j
          simp only [Pi.add_apply, Pi.neg_apply, Pi.zero_apply]
          omega
        | ok tid =>
          obtain ⟨-, -, rfl⟩ : ExecResult.done = r ∧ _ = exec' ∧ _ = env' := by simpa using hrun
          have hlink : pool.Pinned 0
              (pool.setFrame frame (heap_set_next_page_id (pool.frame frame) new_frame).2) :=
            pinned_setFrame (h₂.keeps frame hframe₁)
          have h₃ := h₂.still hlink
          have h₄ := h₃.trans (pinned_unpin (h₃.keeps frame hframe₁))
          have h₅ := h₄.trans (pinned_unpin (h₄.keeps new_frame hnew))
          have h₆ : env₁.Pinned (0 + -entry (some frame) + -entry (some new_frame)) { env₁ with
              pool := kds_buf_unpin (kds_buf_unpin (pool.setFrame frame
                (heap_set_next_page_id (pool.frame frame) new_frame).2) frame) new_frame } :=
            .of_pool h₅ rfl
          apply (h₁.trans h₆).of_eq
          funext j
          simp only [Pi.add_apply, Pi.neg_apply, Pi.zero_apply]
          omega

theorem find_tail_pinned (turns : Nat) : ∀ {exec : HeapInsertExec} {env : ExecEnv}, RingIn env →
    heap_insert_run_find_tail exec env turns = some (r, exec', env') → env.Pinned 0 env' := by
  -- one page a turn: its pin is given back before the next page is loaded
  induction turns with
  | zero =>
    intro exec env _ hrun
    simp [heap_insert_run_find_tail] at hrun
  | succ n ih =>
    intro exec env hring hrun
    unfold heap_insert_run_find_tail at hrun
    cases hload : kds_buf_lookup_or_load env.pool exec.cursor_page_id with
    | mk ret p₁ =>
      obtain ⟨herr, hok⟩ := pinned_lookup hload
      rw [hload] at hrun
      cases ret with
      | error e =>
        obtain ⟨-, -, rfl⟩ : ExecResult.error = r ∧ _ = exec' ∧ _ = env' := by simpa using hrun
        -- the page does not load: nothing was pinned
        exact .of_pool (herr e rfl) rfl
      | ok frame =>
        obtain ⟨-, hpin, hin⟩ := hok frame rfl
        dsimp only at hrun
        cases hput : putRow p₁ frame exec with
        | mk res p₂ =>
          have hput₁ := putRow_pinned hin hput
          have h₂ := hpin.still hput₁
          have hback : env.Pinned 0 { env with pool := kds_buf_unpin p₂ frame } :=
            .of_pool (h₂.cancel (pinned_unpin (hput₁.keeps frame hin))) rfl
          rw [hput] at hrun
          split at hrun
          · next hres =>
            obtain ⟨-, rfl⟩ := Prod.mk.inj hres
            -- the row went in
            obtain ⟨-, -, rfl⟩ : ExecResult.done = r ∧ _ = exec' ∧ _ = env' := by simpa using hrun
            exact .of_pool (h₂.cancel (pinned_unpin (hput₁.keeps frame hin))) rfl
          · next hres =>
            obtain ⟨-, rfl⟩ := Prod.mk.inj hres
            split at hrun
            -- the last page: it stays pinned until the new page is linked behind it
            · have htail : env.Pinned (entry (some frame)) { env with pool := p₂ } := .of_pool h₂ rfl
              exact htail.cancel (growChain_pinned (hring.keeps htail) (hput₁.keeps frame hin)
                (Option.some.inj hrun))
            -- a page in between: it is given back before the clock is read
            · have h₃ := hback.still (slice_pinned _)
              split at hrun
              · obtain ⟨-, -, rfl⟩ : ExecResult.cont = r ∧ _ = exec' ∧ _ = env' := by
                  simpa using hrun
                exact h₃
              · exact h₃.still (@ih (exec.goTo _) _ (hring.keeps h₃) hrun)
          · next hres =>
            obtain ⟨-, rfl⟩ := Prod.mk.inj hres
            obtain ⟨-, -, rfl⟩ : ExecResult.error = r ∧ _ = exec' ∧ _ = env' := by simpa using hrun
            exact .of_pool (h₂.cancel (pinned_unpin (hput₁.keeps frame hin))) rfl

variable {crc32c : UInt32 → List UInt8 → UInt32} {rel : Relation} {turns : Nat}

theorem heapRunPhase_pinned {ret : Option ExecResult} (hring : RingIn env)
    (hrun : heapRunPhase crc32c rel turns exec env = some (ret, exec', env')) :
    env.Pinned 0 env' := by
  -- one case a phase; the two append phases hold no page at all
  unfold heapRunPhase at hrun
  cases hphase : exec.phase with
  | dupScan =>
    rw [hphase] at hrun
    obtain ⟨⟨res, exec₁, env₁⟩, hscan, hrun⟩ := Option.bind_eq_some_iff.mp hrun
    have h₁ := dup_scan_pinned turns hscan
    dsimp only at hrun
    split at hrun
    · obtain ⟨-, -, rfl⟩ : some res = ret ∧ exec₁ = exec' ∧ env₁ = env' := by simpa using hrun
      exact h₁
    · obtain ⟨-, -, rfl⟩ : none = ret ∧ _ = exec' ∧ env₁ = env' := by simpa using hrun
      exact h₁
  | findTail =>
    rw [hphase] at hrun
    have h₁ := slice_pinned env
    dsimp only at hrun
    split at hrun
    · obtain ⟨-, -, rfl⟩ : some ExecResult.cont = ret ∧ exec = exec' ∧ _ = env' := by
        simpa using hrun
      exact h₁
    · obtain ⟨⟨res, exec₁, env₁⟩, htail, hrun⟩ := Option.bind_eq_some_iff.mp hrun
      have h₂ := h₁.still (find_tail_pinned turns (hring.keeps h₁) htail)
      dsimp only at hrun
      split at hrun
      · obtain ⟨-, -, rfl⟩ : some res = ret ∧ exec₁ = exec' ∧ env₁ = env' := by simpa using hrun
        exact h₂
      · obtain ⟨-, -, rfl⟩ : none = ret ∧ _ = exec' ∧ env₁ = env' := by simpa using hrun
        exact h₂
  | walInitPage =>
    rw [hphase] at hrun
    obtain ⟨-, -, rfl⟩ : none = ret ∧ _ = exec' ∧ _ = env' := by simpa using hrun
    exact append_pinned _ _ _ _
  | walInsert =>
    rw [hphase] at hrun
    obtain ⟨-, -, rfl⟩ : none = ret ∧ _ = exec' ∧ _ = env' := by simpa using hrun
    have hmem : env.Pinned 0 { env with pool := env.pool.nextFail } :=
      .of_pool (pinned_nextFail _) rfl
    unfold heap_insert_run_wal_insert
    dsimp only
    split
    · exact hmem
    · exact hmem.still (append_pinned _ _ _ _)
  | done =>
    rw [hphase] at hrun
    obtain ⟨-, -, rfl⟩ : some ExecResult.done = ret ∧ exec = exec' ∧ env = env' := by
      simpa using hrun
    exact .refl _

theorem heapRunPhases_pinned (phases : Nat) : ∀ {exec : HeapInsertExec} {env : ExecEnv}, RingIn env →
    heapRunPhases crc32c rel turns exec env phases = some (r, exec', env') → env.Pinned 0 env' := by
  induction phases with
  | zero =>
    intro exec env _ hrun
    obtain ⟨-, -, rfl⟩ : ExecResult.cont = r ∧ exec = exec' ∧ env = env' := by
      simpa [heapRunPhases] using hrun
    exact .refl _
  | succ n ih =>
    intro exec env hring hrun
    unfold heapRunPhases at hrun
    obtain ⟨⟨res, exec₁, env₁⟩, hphase, hrun⟩ := Option.bind_eq_some_iff.mp hrun
    have h₁ := heapRunPhase_pinned hring hphase
    cases res with
    | some res =>
      obtain ⟨-, -, rfl⟩ : res = r ∧ exec₁ = exec' ∧ env₁ = env' := by simpa using hrun
      exact h₁
    | none => exact h₁.still (ih (hring.keeps h₁) hrun)

/-- **A call of the exec of a HEAP table** gives back every pin it takes. -/
theorem heap_run_pinned (hring : RingIn env)
    (hrun : kds_heap_insert_exec_run crc32c turns exec env = some (r, exec', env')) :
    env.Pinned 0 env' := by
  obtain ⟨e, hfail⟩ | ⟨rel, hrel, hkind, hlen⟩ := @heap_run_cases crc32c exec
  · rw [hfail] at hrun
    obtain ⟨-, -, rfl⟩ : ExecResult.error = r ∧ _ = exec' ∧ env = env' := by simpa using hrun
    exact .refl _
  · rw [heap_run_eq hrel hkind hlen] at hrun
    exact heapRunPhases_pinned 5 hring hrun

/-- So do its calls together. -/
theorem heap_calls_pinned {s s' : HeapInsertExec × ExecEnv}
    (h : Calls (HeapCall crc32c) .cont s r s') : RingIn s.2 → s.2.Pinned 0 s'.2 := by
  induction h with
  | last hcall _ =>
    intro hring
    obtain ⟨turns, hrun⟩ := hcall
    exact heap_run_pinned hring hrun
  | again hcall _ ih =>
    intro hring
    obtain ⟨turns, hrun⟩ := hcall
    have h₁ := heap_run_pinned hring hrun
    exact h₁.still (ih (hring.keeps h₁))

end heap

/-! ## Section 3: The exec of BTREE tables -/

/-- Where the exec goes on from a node: not from a leaf. -/
def execRoute (key : TupleId) (node : BtreeNode) : Option PageId :=
  match searchFrom node.keys key (toInt node.key_count) 0 node.key_count.toNat with
  | .error _ => none
  | .ok pos =>
      match arrGet node.slots pos with
      | .error _ => none
      | .ok slot => if node.level = 0 then none else some slot

/-- The row of the exec gets into its page: into a new one if the ring has one
    and the row fits, else into the page that was probed if that can be loaded
    and has room. -/
def RowGetsIn (exec : BtreeInsertExec) (env : ExecEnv) : Prop :=
  if exec.need_new_page then env.staged ≠ [] ∧ RowFits exec.data_len
  else ∃ frame p, kds_buf_lookup_or_load env.pool exec.target_heap_page_id = (.ok frame, p) ∧
    exec.data_len.toNat ≤ KDS_PAGE_SIZE ∧
    is_heap_insert_possible (heapMeta (p.frame frame).page) (heapNeeded exec.data_len) = true

/-- What a turn of the search leaves of the pins taken since `p₀`. -/
structure Searched (p₀ : Pool) (r : ExecResult) (exec : BtreeInsertExec) (env : ExecEnv) : Prop where
  cont : r = .cont → exec.cursor.Descending p₀ env.pool
  done : r = .done → p₀.Pinned exec.cursor.pins env.pool ∧ exec.cursor.In env.pool
  error : r = .error → p₀.Pinned 0 env.pool

section btree

variable {rel : Relation} {exec exec' : BtreeInsertExec} {env env' : ExecEnv} {r : ExecResult}
variable {p₀ : Pool}

theorem fail_pinned {e : Errno} (hpins : p₀.Pinned exec.cursor.pins env.pool)
    (hin : exec.cursor.In env.pool) :
    Returns (failExec exec env e) fun r =>
      Searched p₀ r.1 r.2.1 r.2.2 ∧ r.2.2.staged = env.staged ∧
        r.2.1.cursor.depth = exec.cursor.depth := by
  unfold failExec
  refine Returns.bind (cursor_cleanup_pinned hin) fun r hr => ?_
  apply Returns.ok
  refine ⟨⟨fun h => by simp at h, fun h => by simp at h, fun _ => ?_⟩, rfl, hr.2.1⟩
  exact hpins.cancel hr.1

/-- The heap page is given back before the cursor is cleaned up or handed on. -/
theorem probe_pinned {slot : PageId} (hpins : p₀.Pinned exec.cursor.pins env.pool)
    (hin : exec.cursor.In env.pool) :
    Returns (probeHeapPage rel exec env slot) fun r =>
      Searched p₀ r.1 r.2.1 r.2.2 ∧ r.2.2.staged = env.staged ∧
        r.2.1.cursor.depth = exec.cursor.depth := by
  unfold probeHeapPage
  dsimp only
  generalize (if slot = 0 then rel.root_page_id else slot) = heap_page_id
  apply Returns.ite
  · intro _
    apply Returns.ok
    exact ⟨⟨fun h => by simp at h, fun _ => ⟨hpins, hin⟩, fun h => by simp at h⟩, rfl, rfl⟩
  · intro _
    cases hload : kds_buf_lookup_or_load env.pool heap_page_id with
    | mk res p₁ =>
      obtain ⟨herr, hok⟩ := pinned_lookup hload
      cases res with
      | error e => exact fail_pinned (hpins.still (herr e rfl)) (hin.keeps (herr e rfl))
      | ok frame =>
        obtain ⟨-, hpin, hthere⟩ := hok frame rfl
        have hback : env.pool.Pinned 0 (kds_buf_unpin p₁ frame) := hpin.cancel (pinned_unpin hthere)
        dsimp only
        split
        · exact fail_pinned (hpins.still hback) (hin.keeps hback)
        · apply Returns.ok
          exact ⟨⟨fun h => by simp at h, fun _ => ⟨hpins.still hback, hin.keeps hback⟩,
            fun h => by simp at h⟩, rfl, rfl⟩

theorem search_pinned (fuel : Nat) : ∀ {exec : BtreeInsertExec} {env : ExecEnv},
    exec.cursor.Descending p₀ env.pool → exec.cursor.depth + fuel = BTREE_MAX_DEPTH →
    Returns (searchPrepareLoop rel exec env fuel) fun r =>
      Searched p₀ r.1 r.2.1 r.2.2 ∧ r.2.2.staged = env.staged ∧
        (r.2.1.cursor.depth < BTREE_MAX_DEPTH ∨
          TooDeep (execRoute exec.key) env.pool exec.current_page_id fuel) := by
  induction fuel with
  | zero =>
    intro exec env h _
    exact (fail_pinned h.pins h.isIn).mono fun r hr => ⟨hr.1, hr.2.1, Or.inr trivial⟩
  | succ n ih =>
    intro exec env h hfuel
    have hdepth : exec.cursor.depth < BTREE_MAX_DEPTH := by omega
    unfold searchPrepareLoop
    cases hload : kds_buf_lookup_or_load env.pool exec.current_page_id with
    | mk res p₁ =>
      obtain ⟨herr, hok⟩ := pinned_lookup hload
      cases res with
      | error e =>
        have h₁ := h.still (herr e rfl)
        refine (fail_pinned h₁.pins h₁.isIn).mono fun r hr => ⟨hr.1, hr.2.1, Or.inl ?_⟩
        rw [hr.2.2]
        exact hdepth
      | ok frame =>
        obtain ⟨rfl, hpin, hid⟩ := hok frame rfl
        refine Returns.bind (.self _) fun node hnode => ?_
        have hframe := load_node_pinned p₁ _ node hnode
        refine Returns.bind frameAt_set fun nodes hset => ?_
        refine Returns.bind (.self _) fun pos hpos => ?_
        refine Returns.bind (.self _) fun positions _ => ?_
        refine Returns.bind (.self _) fun slot hslot => ?_
        obtain ⟨hpins, hin, -, hnext⟩ := h.level hpin hid hframe hset.2 positions
        apply Returns.ite
        · intro _
          refine (probe_pinned hpins hin).mono fun r hr => ⟨hr.1, hr.2.1, Or.inl ?_⟩
          rw [hr.2.2]
          exact hdepth
        · intro hlevel
          have hroute : execRoute exec.key node = some slot := by
            unfold execRoute
            simp only [hpos, hslot, if_neg hlevel]
          obtain ⟨hpool, hstaged⟩ : (kds_exec_slice_expired { env with pool := p₁ }).2.pool = p₁ ∧
            (kds_exec_slice_expired { env with pool := p₁ }).2.staged = env.staged := slice_pool _
          rw [← hpool] at hnext
          apply Returns.ite
          · intro _
            apply Returns.ok
            refine ⟨⟨fun _ => hnext, fun h => by simp at h, fun h => by simp at h⟩, hstaged, ?_⟩
            -- the slice is spent: a level further down, if there is one
            cases n with
            | zero => exact Or.inr ⟨p₁, node, slot, hload, hnode, hroute, trivial⟩
            | succ n =>
              apply Or.inl
              show exec.cursor.depth + 1 < BTREE_MAX_DEPTH
              omega
          · intro _
            have hfuel' : exec.cursor.depth + 1 + n = BTREE_MAX_DEPTH := by omega
            refine (ih hnext hfuel').mono fun r hr => ⟨hr.1, hr.2.1.trans hstaged, ?_⟩
            refine hr.2.2.imp_right fun hdeep => ⟨p₁, node, slot, hload, hnode, hroute, ?_⟩
            rw [← hpool]
            exact hdeep

/-! ### Behind the search -/

theorem insertRowAt_pinned {p p' : Pool} {id : PageId} {res : Except Errno HeapTid}
    (hid : (p.cached id).isSome) (h : insertRowAt p id exec = (res, p')) :
    p.Pinned (-entry (some id)) p' := by
  unfold insertRowAt at h
  generalize heap_insert_tuple (p.frame id) (some exec.data) exec.data_len KDS_BTREE_EXEC_XID = row at h
  obtain ⟨-, rfl⟩ := Prod.mk.inj h
  have hrow : p.Pinned 0 (p.setFrame id row.2) := pinned_setFrame hid
  exact (hrow.trans (pinned_unpin (hrow.keeps id hid))).of_eq (zero_add _)

/-- A row that is put into a page with room for it. -/
theorem insertRowAt_ok {p : Pool} {id : PageId} (hlen : exec.data_len.toNat ≤ KDS_PAGE_SIZE)
    (hroom : is_heap_insert_possible (heapMeta (p.frame id).page) (heapNeeded exec.data_len) = true) :
    ∃ tid p', insertRowAt p id exec = (.ok tid, p') := by
  unfold insertRowAt heap_insert_tuple heap_insert_tuple_ex
  dsimp only
  rw [if_neg (by simp), if_neg (by simp), if_neg (Nat.not_lt.mpr hlen), if_neg (by simp [hroom])]
  exact ⟨_, _, rfl⟩

/-- The row's page is given back whatever happens; the cursor is left as it is. -/
theorem row_insert_pinned (hring : RingIn env)
    (hrun : btree_insert_run_heap_insert exec env = (r, exec', env')) :
    env.Pinned 0 env' ∧ exec'.cursor = exec.cursor ∧ (RowGetsIn exec env → r = .done) := by
  unfold btree_insert_run_heap_insert at hrun
  unfold RowGetsIn
  by_cases hnew : exec.need_new_page
  · rw [if_pos hnew] at hrun
    rw [if_pos hnew]
    cases halloc : kds_page_alloc env .heap with
    | mk res env₁ =>
      -- a page from the ring comes pinned
      obtain ⟨hnone, hsome⟩ := page_alloc_pinned hring halloc
      rw [halloc] at hrun
      cases res with
      | none =>
        obtain ⟨-, rfl, rfl⟩ : ExecResult.error = r ∧ _ = exec' ∧ _ = env' := by simpa using hrun
        obtain ⟨hempty, h₁⟩ := hnone rfl
        exact ⟨h₁, rfl, fun h => absurd hempty h.1⟩
      | some new_frame =>
        obtain ⟨h₁, hthere⟩ := hsome new_frame rfl
        dsimp only at hrun
        generalize hinit : env₁.pool.setFrame new_frame (heap_init_page (env₁.pool.frame new_frame)) =
          p at hrun
        have h₂ : env₁.pool.Pinned 0 p := by
          rw [← hinit]
          exact pinned_setFrame hthere
        cases hput : insertRowAt p new_frame exec with
        | mk res p' =>
          -- the page is set up in place, then `insertRowAt` takes the row and gives it back
          have h₃ := h₂.trans (insertRowAt_pinned (h₂.keeps new_frame hthere) hput)
          have hback : env₁.Pinned (-entry (some new_frame)) { env₁ with pool := p' } :=
            .of_pool (h₃.of_eq (zero_add _)) rfl
          have h₄ := h₁.cancel hback
          rw [hput] at hrun
          cases res with
          | error e =>
            obtain ⟨-, rfl, rfl⟩ : ExecResult.error = r ∧ _ = exec' ∧ _ = env' := by simpa using hrun
            refine ⟨h₄, rfl, fun h => ?_⟩
            -- a fresh page has room for every row that passed the bound
            obtain ⟨tid, f', hfits⟩ := heap_insert_fits (env₁.pool.frame new_frame) exec.data
              KDS_BTREE_EXEC_XID h.2
            unfold insertRowAt at hput
            rw [← hinit, Pool.frame_setFrame_self, hfits] at hput
            simp at hput
          | ok tid =>
            obtain ⟨rfl, rfl, rfl⟩ : ExecResult.done = r ∧ _ = exec' ∧ _ = env' := by simpa using hrun
            exact ⟨h₄, rfl, fun _ => rfl⟩
  · rw [if_neg hnew] at hrun
    rw [if_neg hnew]
    cases hload : kds_buf_lookup_or_load env.pool exec.target_heap_page_id with
    | mk res p₁ =>
      obtain ⟨herr, hok⟩ := pinned_lookup hload
      rw [hload] at hrun
      cases res with
      | error e =>
        obtain ⟨-, rfl, rfl⟩ : ExecResult.error = r ∧ _ = exec' ∧ _ = env' := by simpa using hrun
        refine ⟨.of_pool (herr e rfl) rfl, rfl, fun h => ?_⟩
        obtain ⟨frame, p, h, -⟩ := h
        simp at h
      | ok frame =>
        obtain ⟨-, hpin, hthere⟩ := hok frame rfl
        dsimp only at hrun
        cases hput : insertRowAt p₁ frame exec with
        | mk res p' =>
          have h₂ : env.Pinned 0 { env with pool := p' } :=
            .of_pool (hpin.cancel (insertRowAt_pinned hthere hput)) rfl
          rw [hput] at hrun
          cases res with
          | error e =>
            obtain ⟨-, rfl, rfl⟩ : ExecResult.error = r ∧ _ = exec' ∧ _ = env' := by simpa using hrun
            refine ⟨h₂, rfl, fun h => ?_⟩
            obtain ⟨frame', p, hsame, hlen, hroom⟩ := h
            -- `RowGetsIn` is about this very load, so the insert cannot have failed
            obtain ⟨hframe, rfl⟩ := Prod.mk.inj hsame
            rw [← Except.ok.inj hframe] at hroom
            obtain ⟨tid, p', hfits⟩ := insertRowAt_ok hlen hroom
            rw [hput] at hfits
            simp at hfits
          | ok tid =>
            obtain ⟨rfl, rfl, rfl⟩ : ExecResult.done = r ∧ _ = exec' ∧ _ = env' := by simpa using hrun
            exact ⟨h₂, rfl, fun _ => rfl⟩

end btree

/-! ## Section 4: Runs of the exec of BTREE tables -/

/-- An insert on its way, and what it has ended in. -/
structure PinState where
  exec : BtreeInsertExec
  env : ExecEnv
  ended : Option ExecResult

/-- A turn of the phase loop, with the checks of `kds_btree_insert_exec_run` in
    front of it. A slice that is spent does not end the insert: its next turn
    is the first one of the next call. -/
def PinState.turn (crc32c : UInt32 → List UInt8 → UInt32) (s : PinState) : Except Fault PinState :=
  match s.exec.rel with
  | none => .ok ⟨{ s.exec with ret := some .EINVAL }, s.env, some .error⟩
  | some rel =>
      if rel.kind ≠ .btree then .ok ⟨{ s.exec with ret := some .EINVAL }, s.env, some .error⟩
      else if rel.root_page_id = 0 then .ok ⟨{ s.exec with ret := some .ENODEV }, s.env, some .error⟩
      else do
        let (r, exec, env) ← runPhase crc32c rel s.exec s.env
        .ok ⟨exec, env, r.filter (· ≠ .cont)⟩

/-- The turns of one insert, over whatever calls they come in. -/
def pinSystem (crc32c : UInt32 → List UInt8 → UInt32) (rel : Option Relation) (key : TupleId)
    (data : Mem) (data_len : UInt16) (env₀ : ExecEnv) : System PinState Unit where
  init := fun s => s = ⟨kds_btree_insert_exec_init rel key data data_len, env₀, none⟩
  step := fun s _ s' => s.ended = none ∧ s.turn crc32c = .ok s'

/-- The descent comes to its end in time, and the row gets into its page. -/
def PinSafe (s : PinState) (_ : Unit) : Prop :=
  ∀ rel, s.exec.rel = some rel → rel.kind = .btree → rel.root_page_id ≠ 0 →
    (s.exec.phase = .searchAndPrepare →
      ¬ TooDeep (execRoute s.exec.key) s.env.pool s.exec.current_page_id
        (BTREE_MAX_DEPTH - s.exec.cursor.depth)) ∧
    (s.exec.phase = .heapInsert → RowGetsIn s.exec s.env)

/-- What an insert is to do with pins, in whichever turn: what its cursor has
    is held once for every level, the cursor keeps within its arrays, and at
    the end nothing is held. -/
structure PinsOk (env₀ : ExecEnv) (s : PinState) : Prop where
  bounds : s.exec.cursor.depth < BTREE_MAX_DEPTH
  going : s.ended = none → s.env.pins = env₀.pins + s.exec.cursor.pins
  ended : s.ended ≠ none → s.env.pins = env₀.pins

/-- The same, with what carries it from turn to turn. -/
structure PinInv (env₀ : ExecEnv) (s : PinState) : Prop where
  bounds : s.exec.cursor.depth < BTREE_MAX_DEPTH
  going : s.ended = none → env₀.Pinned s.exec.cursor.pins s.env ∧ s.exec.cursor.In s.env.pool
  search : s.ended = none → s.exec.phase = .searchAndPrepare →
    s.exec.cursor.Descending env₀.pool s.env.pool ∧ s.env.staged = env₀.staged
  ended : s.ended ≠ none → env₀.Pinned 0 s.env

section runs

variable {crc32c : UInt32 → List UInt8 → UInt32} {env₀ : ExecEnv} {s s' : PinState}

theorem PinInv.ok (h : PinInv env₀ s) : PinsOk env₀ s where
  bounds := h.bounds
  going := fun hs => (h.going hs).1.pins
  ended := by
    intro hs
    rw [(h.ended hs).pins, add_zero]

/-- A turn that leaves the cursor alone and goes to a later phase. -/
theorem PinInv.later {exec : BtreeInsertExec} {env : ExecEnv} (h : PinInv env₀ s)
    (hs : s.ended = none) (henv : s.env.Pinned 0 env)
    (hcursor : exec.cursor = s.exec.cursor) (hphase : exec.phase ≠ .searchAndPrepare) :
    PinInv env₀ ⟨exec, env, none⟩ where
  bounds := by
    show exec.cursor.depth < BTREE_MAX_DEPTH
    rw [hcursor]
    exact h.bounds
  going := by
    intro _
    show env₀.Pinned exec.cursor.pins env ∧ exec.cursor.In env.pool
    rw [hcursor]
    obtain ⟨hpins, hin⟩ := h.going hs
    exact ⟨hpins.still henv, fun i id hid => henv.keeps id (hin i id hid)⟩
  search := fun _ hsearch => absurd hsearch hphase
  ended := fun hend => absurd rfl hend

/-- A cursor that has been cleaned up holds nothing. -/
theorem pins_of_cleaned {cursor : BtreeCursor}
    (h : ∀ i, i ≤ cursor.depth → frameAt cursor.nodes i = none) : cursor.pins = 0 := by
  unfold BtreeCursor.pins
  have hnone : held (frameAt cursor.nodes) (cursor.depth + 1) = held (fun _ => none) _ :=
    held_congr fun k hk => h k (Nat.le_of_lt_succ hk)
  rw [hnone]
  exact Finset.sum_const_zero

/-- The turn that looks for the leaf and probes the heap page. -/
theorem search_turn_inv {rel : Relation} (h : PinInv env₀ s) (hs : s.ended = none)
    (hphase : s.exec.phase = .searchAndPrepare)
    (hdeep : ¬ TooDeep (execRoute s.exec.key) s.env.pool s.exec.current_page_id
      (BTREE_MAX_DEPTH - s.exec.cursor.depth)) :
    Returns (runPhase crc32c rel s.exec s.env) fun r =>
      PinInv env₀ ⟨r.2.1, r.2.2, r.1.filter (· ≠ .cont)⟩ := by
  obtain ⟨hdesc, hstaged⟩ := h.search hs hphase
  have hbounds := h.bounds
  have hfuel : s.exec.cursor.depth + (BTREE_MAX_DEPTH - s.exec.cursor.depth) = BTREE_MAX_DEPTH := by
    omega
  unfold runPhase
  rw [hphase]
  dsimp only
  unfold btree_insert_run_search_and_prepare
  intro out hout
  obtain ⟨⟨r, exec, env⟩, hsearch, hout⟩ := exists_of_bind_ok hout
  obtain ⟨hr, hring, hlevel⟩ := search_pinned _ hdesc hfuel _ hsearch
  have hdepth : exec.cursor.depth < BTREE_MAX_DEPTH := hlevel.resolve_right hdeep
  have hsame : env.staged = env₀.staged := hring.trans hstaged
  dsimp only at hr hout
  cases r with
  | error =>
    rw [if_pos (by simp)] at hout
    rw [← Except.ok.inj hout]
    exact ⟨hdepth, fun hend => by simp at hend, fun hend => by simp at hend,
      fun _ => .of_pool (hr.error rfl) hsame⟩
  | cont =>
    rw [if_pos (by simp)] at hout
    rw [← Except.ok.inj hout]
    have hnext := hr.cont rfl
    exact ⟨hdepth, fun _ => ⟨.of_pool hnext.pins hsame, hnext.isIn⟩, fun _ _ => ⟨hnext, hsame⟩,
      fun hend => absurd (by simp) hend⟩
  | done =>
    rw [if_neg (by simp)] at hout
    rw [← Except.ok.inj hout]
    obtain ⟨hpins, hin⟩ := hr.done rfl
    refine ⟨hdepth, fun _ => ⟨.of_pool hpins hsame, hin⟩, fun _ hsearch => ?_,
      fun hend => absurd (by simp) hend⟩
    -- it goes on to the log records
    have hlater : (if exec.need_new_page then BtreeInsertPhase.walInitPage else .walInsert) =
      .searchAndPrepare := hsearch
    split at hlater
    · simp at hlater
    · simp at hlater

/-- The turn that inserts into the leaf: the cursor holds nothing behind it. -/
theorem leaf_insert_pinned {exec : BtreeInsertExec} {env : ExecEnv} (hin : exec.cursor.In env.pool) :
    Returns (btree_insert_run_btree_insert exec env) fun r =>
      env.Pinned (-exec.cursor.pins) r.2.2 ∧ r.2.1.cursor.In r.2.2.pool ∧
        r.2.1.cursor.depth = exec.cursor.depth ∧ r.2.1.cursor.pins = 0 ∧ r.1 ≠ .cont := by
  unfold btree_insert_run_btree_insert
  refine Returns.bind (cursor_insert_pinned hin) fun out hout => ?_
  obtain ⟨ret, cursor, pool⟩ := out
  obtain ⟨hpinned, hdepth, hframes⟩ := hout
  dsimp only at hpinned hdepth hframes ⊢
  have hback : env.Pinned (-exec.cursor.pins) { env with pool := pool } := .of_pool hpinned rfl
  have hin' : cursor.In pool := by
    intro i id hid
    rw [hframes i] at hid
    split at hid
    · simp at hid
    · exact hpinned.keeps id (hin i id hid)
  have hnone : cursor.pins = 0 := by
    apply pins_of_cleaned
    intro i hi
    rw [hframes i, if_pos (by omega)]
  cases ret with
  | error e =>
    apply Returns.ok
    exact ⟨hback, hin', hdepth, hnone, by simp⟩
  | ok u =>
    apply Returns.ok
    exact ⟨hback, hin', hdepth, hnone, by simp⟩

theorem runPhase_inv {rel : Relation} (hring : RingIn env₀) (h : PinInv env₀ s) (hs : s.ended = none)
    (hdeep : s.exec.phase = .searchAndPrepare →
      ¬ TooDeep (execRoute s.exec.key) s.env.pool s.exec.current_page_id
        (BTREE_MAX_DEPTH - s.exec.cursor.depth))
    (hrow : s.exec.phase = .heapInsert → RowGetsIn s.exec s.env) :
    Returns (runPhase crc32c rel s.exec s.env) fun r =>
      PinInv env₀ ⟨r.2.1, r.2.2, r.1.filter (· ≠ .cont)⟩ := by
  obtain ⟨hpins, hin⟩ := h.going hs
  -- the cursor's pins are held up to `btreeInsert`, which gives them all back
  cases hphase : s.exec.phase with
  | searchAndPrepare => exact search_turn_inv h hs hphase (hdeep hphase)
  | walInitPage =>
    unfold runPhase
    rw [hphase]
    apply Returns.ok
    exact h.later hs (append_pinned _ _ _ _) (by rfl) (by simp)
  | walInsert =>
    unfold runPhase
    rw [hphase]
    apply Returns.ok
    have hmem : s.env.Pinned 0 { s.env with pool := s.env.pool.nextFail } :=
      .of_pool (pinned_nextFail _) rfl
    have hwal : s.env.Pinned 0 (btree_insert_run_wal_insert crc32c s.exec s.env) := by
      unfold btree_insert_run_wal_insert
      dsimp only
      split
      · exact hmem
      · exact hmem.still (append_pinned _ _ _ _)
    apply h.later hs hwal (by rfl)
    dsimp only
    split
    · simp
    · simp
  | walBtree =>
    unfold runPhase
    rw [hphase]
    refine Returns.bind (.self _) fun env hwal => ?_
    obtain ⟨leaf, -, hwal⟩ := exists_of_bind_ok hwal
    apply Returns.ok
    rw [← Except.ok.inj hwal]
    exact h.later hs (append_pinned _ _ _ _) (by rfl) (by simp)
  | heapInsert =>
    unfold runPhase
    rw [hphase]
    have hslice := slice_pinned s.env
    obtain ⟨hpool, hstaged⟩ := slice_pool s.env
    dsimp only
    apply Returns.ite
    · intro _
      apply Returns.ok
      exact h.later hs hslice rfl (by simp [hphase])
    · intro _
      -- reading the clock changes neither the pool nor the ring the condition is about
      have hgets : RowGetsIn s.exec (kds_exec_slice_expired s.env).2 := by
        have hgets := hrow hphase
        unfold RowGetsIn at hgets ⊢
        rw [hpool, hstaged]
        exact hgets
      cases hrun : btree_insert_run_heap_insert s.exec (kds_exec_slice_expired s.env).2 with
      | mk r out =>
        obtain ⟨exec, env⟩ := out
        obtain ⟨hrow₁, hcursor, hdone⟩ := row_insert_pinned (hring.keeps (hpins.still hslice)) hrun
        rw [hdone hgets]
        apply Returns.ok
        apply h.later hs (hslice.still hrow₁) (by exact hcursor)
        dsimp only
        split
        · simp
        · simp
  | btreeInsert =>
    unfold runPhase
    rw [hphase]
    have hslice := slice_pinned s.env
    dsimp only
    apply Returns.ite
    · intro _
      apply Returns.ok
      exact h.later hs hslice rfl (by simp [hphase])
    · intro _
      have hin₁ : s.exec.cursor.In (kds_exec_slice_expired s.env).2.pool := by
        rw [(slice_pool s.env).1]
        exact hin
      refine Returns.bind (leaf_insert_pinned hin₁) fun out hout => ?_
      obtain ⟨r, exec, env⟩ := out
      obtain ⟨hback, hin₂, hdepth₂, hpins₂, hr⟩ := hout
      have hnone : env₀.Pinned 0 env := (hpins.still hslice).cancel hback
      refine Returns.bind (cursor_cleanup_pinned hin₂) fun out hclean => ?_
      obtain ⟨cursor, pool⟩ := out
      obtain ⟨hcleaned, hdepth₃, hframes⟩ := hclean
      dsimp only at hin₂ hdepth₂ hpins₂ hr hcleaned hdepth₃ hframes ⊢
      -- the leaf insert left the cursor without pins, so the cleanup takes none
      rw [hpins₂, neg_zero] at hcleaned
      have hend : env₀.Pinned 0 { env with pool := pool } := hnone.still (.of_pool hcleaned rfl)
      have hbounds : cursor.depth < BTREE_MAX_DEPTH := by
        rw [hdepth₃, hdepth₂]
        exact h.bounds
      apply Returns.ite
      · intro _
        apply Returns.ok
        -- the leaf insert failed: the exec ends here
        have hsome : Option.filter (· ≠ .cont) (some r) = some r := by simp [hr]
        rw [hsome]
        exact ⟨hbounds, fun hend => by simp at hend, fun hend => by simp at hend, fun _ => hend⟩
      · intro _
        apply Returns.ok
        refine ⟨hbounds, fun _ => ⟨hend.of_eq ?_, ?_⟩, fun _ hsearch => by simp at hsearch,
          fun hend => absurd (by simp) hend⟩
        · symm
          apply pins_of_cleaned
          intro i hi
          have hi : i ≤ cursor.depth := hi
          exact (hframes i).trans (if_pos (by omega))
        · intro i id hid
          rw [hframes i] at hid
          split at hid
          · simp at hid
          · exact hcleaned.keeps id (hin₂ i id hid)
  | done =>
    unfold runPhase
    rw [hphase]
    refine Returns.bind (cursor_cleanup_pinned hin) fun r hr => ?_
    apply Returns.ok
    have hback : s.env.Pinned (-s.exec.cursor.pins) { s.env with pool := r.2 } := .of_pool hr.1 rfl
    refine ⟨?_, fun hend => by simp at hend, fun hend => by simp at hend,
      fun _ => hpins.cancel hback⟩
    show r.1.depth < BTREE_MAX_DEPTH
    rw [hr.2.1]
    exact h.bounds

/-- An exec that the checks stop has not taken a page. -/
def Checked (exec : BtreeInsertExec) : Prop :=
  exec.cursor.pins = 0 ∨ ∃ rel, exec.rel = some rel ∧ rel.kind = .btree ∧ rel.root_page_id ≠ 0

theorem turn_inv (hring : RingIn env₀) (h : PinInv env₀ s) (hchecked : Checked s.exec)
    (hs : s.ended = none) (hsafe : PinSafe s ()) :
    Returns (s.turn crc32c) fun s' => PinInv env₀ s' ∧ Checked s'.exec := by
  -- the checks stop it
  have hstop : (¬ ∃ rel, s.exec.rel = some rel ∧ rel.kind = .btree ∧ rel.root_page_id ≠ 0) →
      ∀ e, PinInv env₀ ⟨{ s.exec with ret := some e }, s.env, some .error⟩ ∧
        Checked { s.exec with ret := some e } := by
    intro hrel e
    have hnone : s.exec.cursor.pins = 0 := hchecked.resolve_right hrel
    refine ⟨⟨h.bounds, fun hend => by simp at hend, fun hend => by simp at hend, fun _ => ?_⟩,
      Or.inl hnone⟩
    exact (h.going hs).1.of_eq hnone
  unfold PinState.turn
  cases hrel : s.exec.rel with
  | none => exact .ok (hstop (by simp [hrel]) _)
  | some rel =>
    apply Returns.ite
    · intro hkind
      exact .ok (hstop (by simp [hrel, hkind]) _)
    · intro hkind
      apply Returns.ite
      · intro hroot
        exact .ok (hstop (by simp [hrel, hroot]) _)
      · intro hroot
        have hkind : rel.kind = .btree := Decidable.not_not.mp hkind
        obtain ⟨hdeep, hrow⟩ := hsafe rel hrel hkind hroot
        refine Returns.bind (.self _) fun out hout => ?_
        apply Returns.ok
        refine ⟨runPhase_inv hring h hs hdeep hrow out hout, Or.inr ⟨rel, ?_, hkind, hroot⟩⟩
        exact (btreeRunPhase_resumes hout).1.trans hrel

/-- **A run of the exec of a BTREE table** in which the condition is met. -/
theorem pinSystem_inv {rel : Option Relation} {key : TupleId} {data : Mem} {data_len : UInt16}
    (hring : RingIn env₀)
    (h : ((pinSystem crc32c rel key data data_len env₀).restrict PinSafe).Reachable s) :
    PinInv env₀ s ∧ Checked s.exec := by
  apply h.invariant (fun s => PinInv env₀ s ∧ Checked s.exec)
  · intro s hs
    rw [hs]
    have hinit := descending_init env₀.pool
    refine ⟨⟨Nat.zero_lt_succ 15, fun _ => ⟨.of_pool hinit.pins rfl, hinit.isIn⟩,
      fun _ _ => ⟨hinit, rfl⟩, fun hend => absurd rfl hend⟩, Or.inl ?_⟩
    exact pins_of_cleaned fun i _ => frameAt_init i
  · intro s _ s' hinv hstep
    obtain ⟨⟨hs, hturn⟩, hsafe⟩ := hstep
    exact turn_inv hring hinv.1 hinv.2 hs hsafe s' hturn

/-! ### Calls -/

section calls

variable {rel₀ : Option Relation} {key : TupleId} {data : Mem} {data_len : UInt16}

/-- The turns of one call. -/
theorem runPhases_turns {rel : Relation} (hkind : rel.kind = .btree) (hroot : rel.root_page_id ≠ 0)
    (turns : Nat) : ∀ {exec exec' : BtreeInsertExec} {env env' : ExecEnv} {r : ExecResult},
    (pinSystem crc32c rel₀ key data data_len env₀).Reachable ⟨exec, env, none⟩ →
    exec.rel = some rel → runPhases crc32c rel exec env turns = .ok (r, exec', env') →
    (pinSystem crc32c rel₀ key data data_len env₀).Reachable
      ⟨exec', env', (some r).filter (· ≠ .cont)⟩ := by
  induction turns with
  | zero =>
    intro exec exec' env env' r h _ hrun
    obtain ⟨rfl, rfl, rfl⟩ : ExecResult.cont = r ∧ exec = exec' ∧ env = env' := by
      simpa [runPhases] using hrun
    exact h
  | succ n ih =>
    intro exec exec' env env' r h hrel hrun
    unfold runPhases at hrun
    obtain ⟨⟨res, exec₁, env₁⟩, hphase, hrun⟩ := exists_of_bind_ok hrun
    have hturn : PinState.turn crc32c ⟨exec, env, none⟩ =
        .ok ⟨exec₁, env₁, res.filter (· ≠ .cont)⟩ := by
      unfold PinState.turn
      simp only [hrel, hkind, hroot, hphase, ne_eq, not_true_eq_false, if_false, bind, Except.bind]
    have hnext := h.step () ⟨rfl, hturn⟩
    cases res with
    | some res =>
      obtain ⟨rfl, rfl, rfl⟩ : res = r ∧ exec₁ = exec' ∧ env₁ = env' := by simpa using hrun
      exact hnext
    | none => exact ih hnext ((btreeRunPhase_resumes hphase).1.trans hrel) hrun

/-- A call is made of turns. -/
theorem btree_call_turns {exec exec' : BtreeInsertExec} {env env' : ExecEnv} {r : ExecResult}
    (h : (pinSystem crc32c rel₀ key data data_len env₀).Reachable ⟨exec, env, none⟩)
    (hcall : BtreeCall crc32c (exec, env) r (exec', env')) :
    (pinSystem crc32c rel₀ key data data_len env₀).Reachable
      ⟨exec', env', (some r).filter (· ≠ .cont)⟩ := by
  have hstop : ∀ e, PinState.turn crc32c ⟨exec, env, none⟩ =
        .ok ⟨{ exec with ret := some e }, env, some .error⟩ →
      kds_btree_insert_exec_run crc32c exec env = .ok (.error, { exec with ret := some e }, env) →
      (pinSystem crc32c rel₀ key data data_len env₀).Reachable
        ⟨exec', env', (some r).filter (· ≠ .cont)⟩ := by
    intro e hturn hrun
    unfold BtreeCall at hcall
    rw [hrun] at hcall
    obtain ⟨rfl, rfl, rfl⟩ : ExecResult.error = r ∧ _ = exec' ∧ env = env' := by simpa using hcall
    exact h.step () ⟨rfl, hturn⟩
  cases hrel : exec.rel with
  | none =>
    apply hstop .EINVAL
    · simp only [PinState.turn, hrel]
    · simp only [kds_btree_insert_exec_run, hrel]
  | some rel =>
    by_cases hkind : rel.kind = .btree
    · by_cases hroot : rel.root_page_id = 0
      · apply hstop .ENODEV
        · simp only [PinState.turn, hrel, hkind, hroot, ne_eq, not_true_eq_false, if_false, if_true]
        · simp only [kds_btree_insert_exec_run, hrel, hkind, hroot, ne_eq, not_true_eq_false,
            if_false, if_true]
      · unfold BtreeCall at hcall
        rw [btree_run_eq hrel hkind hroot] at hcall
        exact runPhases_turns hkind hroot 7 h hrel hcall
    · apply hstop .EINVAL
      · simp only [PinState.turn, hrel, hkind, ne_eq, not_false_eq_true, if_true]
      · simp only [kds_btree_insert_exec_run, hrel, hkind, ne_eq, not_false_eq_true, if_true]

/-- Where calls end that come one after the other, turns end. -/
theorem btree_calls_turns {t t' : BtreeInsertExec × ExecEnv} {r : ExecResult}
    (hcalls : Calls (BtreeCall crc32c) .cont t r t') :
    (pinSystem crc32c rel₀ key data data_len env₀).Reachable ⟨t.1, t.2, none⟩ →
    (pinSystem crc32c rel₀ key data data_len env₀).Reachable ⟨t'.1, t'.2, some r⟩ := by
  induction hcalls with
  | last hcall hr =>
    intro h
    have hend := btree_call_turns h hcall
    rwa [Option.filter_some_pos (by simp [hr])] at hend
  | again hcall _ ih =>
    intro h
    exact ih (btree_call_turns h hcall)

end calls

end runs

/-! ## Section 5: Pins are balanced -/

/-- **Pins are balanced**, and the arrays of a cursor are not overrun: for the
    search, the insert and the delete of a tree exactly if the descent comes to
    its end within `BTREE_MAX_DEPTH` levels; for the insert at a cursor and the
    exec of a HEAP table always; for the exec of a BTREE table in every run
    whose descents end in time and whose row gets into its page. -/
theorem pins_balanced (crc32c : UInt32 → List UInt8 → UInt32) :
    (∀ p root key,
      SearchBalanced p root key ↔ ¬ TooDeep (searchRoute key) p root BTREE_MAX_DEPTH) ∧
    (∀ p root key value,
      InsertBalanced p root key value ↔ ¬ TooDeep (searchRoute key) p root BTREE_MAX_DEPTH) ∧
    (∀ p root key,
      DeleteBalanced p root key ↔ ¬ TooDeep (searchRoute key) p root BTREE_MAX_DEPTH) ∧
    (∀ (p : Pool) (cursor : BtreeCursor) key value res cursor' p', cursor.In p →
      kds_btree_cursor_insert p cursor key value = .ok (res, cursor', p') →
        p'.pins = p.pins - cursor.pins) ∧
    (∀ rel data data_len xid env r exec' env', RingIn env →
      Calls (HeapCall crc32c) .cont (kds_heap_insert_exec_init rel data data_len xid, env) r
        (exec', env') → env'.pins = env.pins) ∧
    ∀ rel key data data_len env, RingIn env →
      (∀ r exec' env',
        Calls (BtreeCall crc32c) .cont (kds_btree_insert_exec_init rel key data data_len, env) r
          (exec', env') →
        (pinSystem crc32c rel key data data_len env).Reachable ⟨exec', env', some r⟩) ∧
      ∀ s, ((pinSystem crc32c rel key data data_len env).restrict PinSafe).Reachable s →
        PinsOk env s := by
  refine ⟨searchBalanced_iff, insertBalanced_iff, deleteBalanced_iff, ?_, ?_, ?_⟩
  · intro p cursor key value res cursor' p' hin hrun
    obtain ⟨hpinned, -⟩ := cursor_insert_pinned hin _ hrun
    rw [hpinned.pins, sub_eq_add_neg]
  · intro rel data data_len xid env r exec' env' hring hcalls
    rw [(heap_calls_pinned hcalls hring).pins, add_zero]
  · intro rel key data data_len env hring
    constructor
    · intro r exec' env' hcalls
      exact btree_calls_turns hcalls (.init rfl)
    · intro s hs
      exact (pinSystem_inv hring hs).1.ok

/-! ### A page that refers to itself, and a row without a page -/

/-- A root page whose only entry is the page itself. -/
def cyclicFrame : Frame :=
  let node : BtreeNode := { zeroNode with level := 1, slots := zeroNode.slots.set 0 200 }
  let f := btree_init_root_kpage (newFrame 200 KDS_PAGE_FLAG_ALLOC)
  { f with page := f.page.write KDS_PAGE_HDR_SIZE node.bytes }

def cyclicPool : Pool :=
  { newTableEnv.pool with cached := fun id => if id = 200 then some cyclicFrame else none }

theorem cyclic_tooDeep (n : Nat) : ∀ {p : Pool}, p.cached 200 = some cyclicFrame →
    TooDeep (searchRoute 5) p 200 n := by
  induction n with
  | zero =>
    intro p _
    trivial
  | succ n ih =>
    intro p hp
    have hframe : (kds_buf_pin p 200).frame 200 = cyclicFrame := by
      unfold Pool.frame kds_buf_pin
      rw [hp]
      rfl
    refine ⟨kds_buf_pin p 200, { btreeData cyclicFrame.page with frame := some 200 }, 200, ?_, ?_,
      by decide +kernel, ih hp⟩
    · unfold kds_buf_lookup_or_load
      rw [hp]
    · unfold load_btree_node
      rw [hframe, if_neg (by decide)]

/-- The ring is empty. -/
def emptyRingEnv : ExecEnv := { newTableEnv with staged := [] }

/-- The search that goes round in the page leaves its loop with a depth that is
    no index of `nodes`; and an insert whose row finds no page returns with the
    root page pinned. -/
theorem pins_not_balanced :
    (∃ cursor p', btree_cursor_search cyclicPool 200 5 = .ok (.error .E2BIG, cursor, p') ∧
      cursor.depth = BTREE_MAX_DEPTH) ∧
    ∃ exec' env', BtreeCall crc32c_le (btreeRowFive, emptyRingEnv) .error (exec', env') ∧
      emptyRingEnv.pool.refcnt 200 = 0 ∧ env'.pool.refcnt 200 = 1 := by
  constructor
  · exact @searchLoop_deep 5 BTREE_MAX_DEPTH cyclicPool btree_cursor_init 200 (Nat.zero_add _)
      (cyclic_tooDeep _ rfl)
  · refine ⟨_, _, btreeResult_call (by decide +kernel), rfl, by decide +kernel⟩

/-! ### An insert into a new table -/

/-- The turns of the insert of the row with key 5 into a new table. -/
def rowFiveTurn : Nat → PinState
  | 0 => ⟨btreeRowFive, newTableEnv, none⟩
  | n + 1 =>
      match (rowFiveTurn n).turn crc32c_le with
      | .ok s => s
      | .error _ => rowFiveTurn n

theorem rowFive_reachable (n : Nat)
    (hgoes : ∀ k, k < n → (rowFiveTurn k).ended = none ∧ ((rowFiveTurn k).turn crc32c_le).toBool = true)
    (hsafe : ∀ k, k < n → PinSafe (rowFiveTurn k) ()) :
    ((pinSystem crc32c_le (some newTableRel) 5 (keyRow 5).data (keyRow 5).data_len
      newTableEnv).restrict PinSafe).Reachable (rowFiveTurn n) := by
  induction n with
  | zero => exact .init rfl
  | succ n ih =>
    have hbefore := ih (fun k hk => hgoes k (by omega)) (fun k hk => hsafe k (by omega))
    obtain ⟨hend, hok⟩ := hgoes n (Nat.lt_succ_self n)
    apply hbefore.step ()
    refine ⟨⟨hend, ?_⟩, hsafe n (Nat.lt_succ_self n)⟩
    rw [rowFiveTurn]
    cases hturn : (rowFiveTurn n).turn crc32c_le with
    | ok s' => rfl
    | error fault => simp [hturn, Except.toBool] at hok

/-- A node without a way on ends the descent. -/
theorem not_tooDeep {route : BtreeNode → Option PageId} {p : Pool} {id : PageId} {n : Nat}
    (hleaf : ((load_btree_node (kds_buf_lookup_or_load p id).2 id).toOption.bind route) = none) :
    ¬ TooDeep route p id (n + 1) := by
  rintro ⟨p', node, child, hload, hnode, hroute, -⟩
  rw [hload, hnode] at hleaf
  simp [Except.toOption, hroute] at hleaf

/-- The root of a new table is a leaf, and its ring has pages. -/
theorem rowFive_safe (k : Nat) (hk : k < 7) : PinSafe (rowFiveTurn k) () := by
  have hsearch : ∀ k < 7, (rowFiveTurn k).exec.phase = .searchAndPrepare → k = 0 := by
    decide +kernel
  have hinsert : ∀ k < 7, (rowFiveTurn k).exec.phase = .heapInsert → k = 4 := by
    decide +kernel
  intro rel _ _ _
  constructor
  · intro hphase
    obtain rfl := hsearch k hk hphase
    exact not_tooDeep (n := 15) (by decide +kernel)
  · intro hphase
    obtain rfl := hinsert k hk hphase
    unfold RowGetsIn
    rw [if_pos (by decide +kernel)]
    exact ⟨by decide +kernel, by unfold RowFits; decide +kernel⟩

theorem pins_balanced_five :
    (rowFiveTurn 7).ended = some .done ∧ (rowFiveTurn 7).env.pins = newTableEnv.pins := by
  have hring : RingIn newTableEnv := by
    intro id hid
    have hid : id = 201 ∨ id = 202 := by simpa [newTableEnv] using hid
    obtain rfl | rfl := hid
    · decide
    · decide
  have hrun := rowFive_reachable 7 (by decide +kernel) rowFive_safe
  have hend : (rowFiveTurn 7).ended = some .done := by decide +kernel
  have hok := ((pins_balanced crc32c_le).2.2.2.2.2 _ _ _ _ newTableEnv hring).2 _ hrun
  exact ⟨hend, hok.ended (by rw [hend]; simp)⟩

end Kds
