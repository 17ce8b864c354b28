import Kds.Exec.BtreeInsert
import Kds.Btree.Index
import Kds.Heap.Rows
import Kds.Lib.Lts

/-! # Primary keys of BTREE tables

    Rows inserted into a new BTREE table, one after the other. As long as no
    insert needs a second node, the tree is one leaf: `keys[n]` is the key of
    the row that started the heap page `slots[n + 1]`, and `slots[0]` is 0.

    The duplicate check looks into one heap page, the one for keys above
    `keys[n]` and up to `keys[n + 1]`. A row is not always there: the row that
    started a page has the key `keys[n]` itself, and a page that was split
    keeps its rows above the new separator. `InRange` says that the rows with
    a given key are where the check looks; under it keys stay unique, and the
    first insert outside of it goes wrong.
-/

open Bytes SearchTree

namespace Kds

/-! ## Section 1: Tables and rows -/

/-- An encoded row. -/
structure Row where
  data : Mem
  data_len : UInt16

/-- The first eight bytes of the row. -/
def Row.key (row : Row) : TupleId := row.data.readU64 0

/-- A row holds its key and fits an empty page. -/
def Row.Ok (row : Row) : Prop := 8 ≤ row.data_len.toNat ∧ row.data_len.toNat ≤ maxRowLen

/-- The insert of a row, run to completion; `ticks` are its slice checks. -/
def insertRow (crc32c : UInt32 → List UInt8 → UInt32) (rel : Relation) (env : ExecEnv) (row : Row)
    (ticks : List Bool) : Except Fault (ExecResult × BtreeInsertExec × ExecEnv) :=
  runToCompletion crc32c (kds_btree_insert_exec_init (some rel) row.key row.data row.data_len)
    { env with ticks := ticks } (ticks.length + 1)

section table

variable (rel : Relation) (env : ExecEnv)

/-- The root node. -/
def rootNode : SearchTree.Node PageId TupleId := env.pool.tree rel.root_page_id

/-- The bytes of a page. -/
def ExecEnv.page (id : PageId) : Mem := (env.pool.frame id).page

theorem rootNode_eq : rootNode rel env = (btreeData (env.page rel.root_page_id)).treeNode := rfl

/-- The heap pages referenced from the leaf. -/
def heapPages : List PageId := (rootNode rel env).slots.filter (· ≠ 0)

/-- A row with this key is stored. -/
def Stored (key : TupleId) : Prop := ∃ id ∈ heapPages rel env, ∃ i, HoldsRow (env.page id) i key

/-- No two rows have the same key. -/
def UniqueKeys : Prop :=
  ∀ id ∈ heapPages rel env, ∀ id' ∈ heapPages rel env, ∀ i j key,
    HoldsRow (env.page id) i key → HoldsRow (env.page id') j key → id = id' ∧ i = j

/-- Rows with this key are in the page of the range `(keys[n], keys[n + 1]]` the key is in. -/
def InRange (key : TupleId) : Prop :=
  ∀ n k id i, (rootNode rel env).keys[n]? = some k → (rootNode rel env).slots[n + 1]? = some id →
    HoldsRow (env.page id) i key →
      k < key ∧ ∀ k', (rootNode rel env).keys[n + 1]? = some k' → key ≤ k'

/-- The slot of the range the key is in. -/
def slotOf (key : TupleId) : PageId :=
  ((rootNode rel env).slots[position key (rootNode rel env).keys]?).getD 0

/-- The insert has to start a heap page. -/
def NeedsPage (row : Row) : Prop :=
  slotOf rel env row.key = 0 ∨
    ((∀ i, ¬ HoldsRow (env.page (slotOf rel env row.key)) i row.key) ∧
      heap_has_space (env.pool.frame (slotOf rel env row.key)) row.data_len = false)

/-- No allocation fails and no new root is needed. -/
def Admissible (row : Row) : Prop :=
  row.Ok ∧ (NeedsPage rel env row →
    env.staged ≠ [] ∧ (rootNode rel env).keys.length < BTREE_MAX_KEYS)

end table

/-- What an insert is to do: refuse a key that is stored, with nothing
    changed but the clock, and take every other row. -/
def MeetsKeyCheck (crc32c : UInt32 → List UInt8 → UInt32) (rel : Relation) (env : ExecEnv)
    (row : Row) (ticks : List Bool) : Prop :=
  (Stored rel env row.key → ∃ exec ticks', insertRow crc32c rel env row ticks =
      .ok (.error, exec, { env with ticks := ticks' }) ∧ exec.ret = some .EEXIST) ∧
    (¬ Stored rel env row.key → ∃ exec env', insertRow crc32c rel env row ticks =
      .ok (.done, exec, env'))

/-- A table `kds_catalog_create_table` has just made: its root page is new
    and in the pool, and the pre-allocation ring holds other pages. -/
structure NewTable (rel : Relation) (env : ExecEnv) : Prop where
  fresh : FreshIndex env.pool rel
  nodup : (rel.root_page_id :: env.staged).Nodup
  nonzero : 0 ∉ rel.root_page_id :: env.staged
  loaded : ∀ id ∈ rel.root_page_id :: env.staged, (env.pool.cached id).isSome

/-- Rows inserted one after the other. -/
def btreeTable (crc32c : UInt32 → List UInt8 → UInt32) (rel : Relation) :
    Lts.System ExecEnv (Row × List Bool) where
  init := NewTable rel
  step := fun env a env' => Admissible rel env a.1 ∧
    ∃ r exec, insertRow crc32c rel env a.1 a.2 = .ok (r, exec, env')

/-! ## Section 2: The table as one leaf -/

/-- The leaf with its keys and heap pages. -/
structure TableInv (rel : Relation) (env : ExecEnv) (keys : List TupleId) (pages : List PageId) :
    Prop where
  kind : rel.kind = .btree
  typed : kds_is_btree_page (env.pool.frame rel.root_page_id) = true
  node : rootNode rel env = ⟨0, keys, 0 :: pages⟩
  length_eq : keys.length = pages.length
  length_le : keys.length ≤ 4
  sorted : keys.Pairwise (· ≤ ·)
  heap : ∀ id ∈ pages, HeapInv (env.page id)
  nodup : (rel.root_page_id :: (pages ++ env.staged)).Nodup
  nonzero : 0 ∉ rel.root_page_id :: (pages ++ env.staged)
  loaded : ∀ id ∈ rel.root_page_id :: (pages ++ env.staged), (env.pool.cached id).isSome

theorem NewTable.inv {rel : Relation} {env : ExecEnv} (h : NewTable rel env) :
    TableInv rel env [] [] :=
  ⟨h.fresh.1, h.fresh.root.1, h.fresh.root.2, rfl, Nat.zero_le _, List.Pairwise.nil, by simp, h.nodup,
    h.nonzero, h.loaded⟩

section inv

variable {rel : Relation} {env : ExecEnv} {keys : List TupleId} {pages : List PageId}

theorem TableInv.heapPages_eq (h : TableInv rel env keys pages) : heapPages rel env = pages := by
  have hne : ∀ id ∈ pages, decide (id ≠ 0) = true := by
    intro id hid
    rw [decide_eq_true_iff]
    rintro rfl
    exact h.nonzero (by simp [hid])
  rw [heapPages, h.node]
  show List.filter _ (0 :: pages) = pages
  rw [List.filter_cons_of_neg (by simp)]
  exact List.filter_eq_self.mpr hne

theorem TableInv.nodeOk (h : TableInv rel env keys pages) :
    NodeOk env.pool.tree BTREE_MAX_KEYS 0 rel.root_page_id := by
  have hnode : env.pool.tree rel.root_page_id = _ := h.node
  have hlen := h.length_eq
  have hle := h.length_le
  refine ⟨?_, ?_, ?_⟩ <;> rw [hnode]
  · exact hle
  · simp [hlen]

/-- The slot of a key is 0 or one of the heap pages, and which one follows from the position. -/
theorem TableInv.slotOf_cases (h : TableInv rel env keys pages) (key : TupleId) :
    (position key keys = 0 ∧ slotOf rel env key = 0) ∨
      ∃ n k, position key keys = n + 1 ∧ keys[n]? = some k ∧
        pages[n]? = some (slotOf rel env key) := by
  have hpos := position_le key keys
  have hlen := h.length_eq
  have hslot : slotOf rel env key = ((0 :: pages)[position key keys]?).getD 0 := by
    rw [slotOf, h.node]
  cases hp : position key keys with
  | zero =>
    rw [hp] at hslot
    exact Or.inl ⟨rfl, hslot⟩
  | succ n =>
    rw [hp] at hslot hpos
    have hn : n < pages.length := by omega
    refine Or.inr ⟨n, keys[n], rfl, List.getElem?_eq_getElem (by omega), ?_⟩
    rw [hslot, List.getElem?_cons_succ, List.getElem?_eq_getElem hn]
    rfl

/-- `InRange`, with the position the code computes. -/
theorem TableInv.inRange_iff (h : TableInv rel env keys pages) (key : TupleId) :
    InRange rel env key ↔
      ∀ id ∈ pages, ∀ i, HoldsRow (env.page id) i key → slotOf rel env key = id := by
  have hlen := h.length_eq
  have hnd : pages.Nodup := ((List.nodup_cons.mp h.nodup).2.of_append_left)
  constructor
  · intro hr id hid i hrow
    obtain ⟨n, hn, rfl⟩ := List.getElem_of_mem hid
    have hk : keys[n]? = some keys[n] := List.getElem?_eq_getElem (by omega)
    have hpos := (position_eq_succ_iff h.sorted hk).mpr
      (by
        have := hr n keys[n] pages[n] i (by rw [h.node]; exact hk)
          (by rw [h.node]; exact List.getElem?_eq_getElem hn) hrow
        rwa [h.node] at this)
    obtain ⟨h0, _⟩ | ⟨m, k, hm, -, hpage⟩ := h.slotOf_cases key
    · omega
    · obtain rfl : m = n := by omega
      rw [List.getElem?_eq_getElem hn] at hpage
      exact (Option.some.inj hpage).symm
  · intro hall n k id i hk hid hrow
    rw [h.node] at hk hid ⊢
    have hid : pages[n]? = some id := hid
    have hslot := hall id (List.mem_of_getElem? hid) i hrow
    refine (position_eq_succ_iff h.sorted hk).mp ?_
    obtain ⟨_, h0⟩ | ⟨m, k', hm, -, hpage⟩ := h.slotOf_cases key
    · -- slot 0 is no heap page
      refine absurd (List.mem_of_getElem? hid) ?_
      rw [← hslot, h0]
      exact fun hmem => h.nonzero (by simp [hmem])
    · rw [hslot] at hpage
      have hlt := (List.getElem?_eq_some_iff.mp hpage).1
      have := (List.getElem?_inj hlt hnd).mp (hpage.trans hid.symm)
      omega

end inv

/-! ## Section 3: The probe -/

/-- The scan finds the key exactly when a row from `slot` on has it. -/
theorem dupFrom_spec {f : Frame} (key : TupleId) (count : Nat) : ∀ slot,
    slot + count = (heap_nr_slots f).toNat →
    ((∃ i, slot ≤ i ∧ HoldsRow f.page i key) → dupFrom f key slot count = .error .EEXIST) ∧
      ((∀ i, slot ≤ i → ¬ HoldsRow f.page i key) → dupFrom f key slot count = .ok ()) := by
  induction count with
  | zero =>
    intro slot hslot
    refine ⟨?_, fun _ => rfl⟩
    rintro ⟨i, hi, hrow⟩
    have hlt : i < (heap_nr_slots f).toNat := hrow.1.1
    omega
  | succ count ih =>
    intro slot hslot
    have hlt := (heap_nr_slots f).toNat_lt
    have hidx : (UInt16.ofNat slot).toNat = slot := by
      rw [UInt16.toNat_ofNat']
      omega
    obtain ⟨ihdup, ihok⟩ := ih (slot + 1) (by omega)
    -- the slots behind this one, if this one does not have the key
    have hrest : ¬ HoldsRow f.page slot key →
        ((∃ i, slot ≤ i ∧ HoldsRow f.page i key) → dupFrom f key (slot + 1) count = .error .EEXIST) ∧
          ((∀ i, slot ≤ i → ¬ HoldsRow f.page i key) → dupFrom f key (slot + 1) count = .ok ()) := by
      intro hno
      refine ⟨?_, fun hall => ihok fun i hi => hall i (by omega)⟩
      rintro ⟨i, hi, hrow⟩
      refine ihdup ⟨i, Nat.lt_of_le_of_ne hi ?_, hrow⟩
      rintro rfl
      exact hno hrow
    by_cases hlive : LiveSlot f.page slot
    · obtain ⟨pk_buf, hread, hpk⟩ := heap_read_pk_live (f := f) (UInt16.ofNat slot) (by rwa [hidx])
      rw [hidx] at hpk
      simp only [dupFrom, hread, hpk]
      by_cases hkey : rowKey f.page slot = key
      · rw [if_pos hkey]
        exact ⟨fun _ => rfl, fun hall => absurd ⟨hlive, hkey⟩ (hall slot (Nat.le_refl _))⟩
      · rw [if_neg hkey]
        exact hrest fun h => hkey h.2
    · have hread := heap_read_pk_dead (f := f) (UInt16.ofNat slot) (by rwa [hidx])
      simp only [dupFrom, hread]
      exact hrest fun h => hlive h.1

/-- The root page read as a heap page: no slots, and no space. -/
theorem TableInv.root_probe {rel : Relation} {env : ExecEnv} {keys : List TupleId}
    {pages : List PageId} (h : TableInv rel env keys pages) (data_len : UInt16) :
    heap_nr_slots (env.pool.frame rel.root_page_id) = 0 ∧
      heap_has_space (env.pool.frame rel.root_page_id) data_len = false := by
  have hlevel : (btreeData (env.page rel.root_page_id)).level = 0 := by
    have hnode : (btreeData (env.page rel.root_page_id)).treeNode.level = 0 :=
      congrArg SearchTree.Node.level h.node
    rw [BtreePageData.treeNode_level] at hnode
    exact UInt64.toNat_inj.mp hnode
  have hzero : ∀ a, 41 ≤ a → a < 49 → env.page rel.root_page_id a = (fun _ => 0 : Mem) a :=
    fun a ha ha' => Mem.byte_of_readU64_zero hlevel (by simpa using ha) (by simpa using ha')
  have hmeta : heapMeta (env.pool.frame rel.root_page_id).page = ⟨0, 0, 0, 0⟩ := by
    refine (heapMeta_congr hzero).trans ?_
    decide
  refine ⟨by rw [heap_nr_slots, hmeta], ?_⟩
  have hfree : heap_free_space (env.pool.frame rel.root_page_id) = 0 := by
    rw [heap_free_space, hmeta]
    rfl
  unfold heap_has_space
  split
  · rfl
  · rename_i hlen
    rw [decide_eq_false_iff_not, hfree]
    intro hge
    have h0 : (heapNeeded data_len).toNat ≤ 0 := UInt16.le_iff_toNat_le.mp hge
    rw [heapNeeded, UInt16.toNat_ofNat'] at h0
    simp at hlen h0
    omega

/-- A cursor on the root alone: cleaning up takes its pin back. -/
theorem cleanup_root {cursor : BtreeCursor} {p : Pool} {node : BtreeNode} {id : PageId}
    (hdepth : cursor.depth = 0) (hnode : arrGet cursor.nodes (0 : Nat) = .ok node)
    (hframe : node.frame = some id) :
    ∃ cursor', btree_cursor_cleanup cursor p = .ok (cursor', kds_buf_unpin p id) := by
  refine ⟨{ cursor with nodes := cursor.nodes.set 0 { node with frame := none } }, ?_⟩
  simp only [btree_cursor_cleanup, hdepth, cleanupFrom, hnode, bind, Except.bind, hframe,
    arrSet_nat cursor.nodes (show 0 < 16 by decide)]

/-- The exec behind its descent. -/
structure Prepared (rel : Relation) (env : ExecEnv) (row : Row) (exec : BtreeInsertExec) : Prop where
  rel_eq : exec.rel = some rel
  key : exec.key = row.key
  data : exec.data = row.data
  data_len : exec.data_len = row.data_len
  depth : exec.cursor.depth = 0
  cursor : CursorAt env.pool.tree row.key exec.cursor 0 rel.root_page_id

/-- The key is stored where the check looks. -/
def Found (rel : Relation) (env : ExecEnv) (key : TupleId) : Prop :=
  slotOf rel env key ≠ 0 ∧ ∃ i, HoldsRow (env.page (slotOf rel env key)) i key

/-- The probe of the page of the key's range. -/
theorem probe_spec {rel : Relation} {env : ExecEnv} {keys : List TupleId} {pages : List PageId}
    (h : TableInv rel env keys pages) {row : Row} {exec : BtreeInsertExec}
    (hexec : Prepared rel env row exec) :
    (Found rel env row.key → ∃ exec', probeHeapPage rel exec
        { env with pool := kds_buf_pin env.pool rel.root_page_id } (slotOf rel env row.key) =
          .ok (.error, exec', env) ∧ exec'.ret = some .EEXIST) ∧
      (¬ Found rel env row.key → ∃ exec', probeHeapPage rel exec
        { env with pool := kds_buf_pin env.pool rel.root_page_id } (slotOf rel env row.key) =
          .ok (.done, exec', { env with pool := kds_buf_pin env.pool rel.root_page_id }) ∧
        Prepared rel env row exec' ∧ (exec'.need_new_page = true ↔ NeedsPage rel env row) ∧
        (slotOf rel env row.key ≠ 0 → exec'.target_heap_page_id = slotOf rel env row.key)) := by
  have hroot0 : rel.root_page_id ≠ 0 := fun h0 => h.nonzero (by simp [h0])
  -- slot 0 names no page: the code probes the root page in its place
  by_cases h0 : slotOf rel env row.key = 0
  · -- the root page is probed: it has no slots and no space
    obtain ⟨hnr, hspace⟩ := h.root_probe exec.data_len
    have hload : kds_buf_lookup_or_load (kds_buf_pin env.pool rel.root_page_id) rel.root_page_id =
        (.ok rel.root_page_id, kds_buf_pin (kds_buf_pin env.pool rel.root_page_id) rel.root_page_id) :=
      lookup_or_load_cached (h.loaded _ (by simp))
    refine ⟨fun hf => absurd h0 hf.1, fun _ => ?_⟩
    refine ⟨{ exec with target_heap_page_id := rel.root_page_id, need_new_page := true }, ?_,
      ⟨hexec.rel_eq, hexec.key, hexec.data, hexec.data_len, hexec.depth, hexec.cursor⟩,
      ?_, fun hne => absurd h0 hne⟩
    · simp only [probeHeapPage, h0, if_pos, if_neg hroot0, hload, frame_pin, hnr, hspace, dupFrom,
        UInt16.toNat_zero, unpin_pin, Bool.not_false]
    · exact iff_of_true rfl (Or.inl h0)
  · obtain ⟨_, h0'⟩ | ⟨n, k, -, -, hpage⟩ := h.slotOf_cases row.key
    · exact absurd h0' h0
    have hmem := List.mem_of_getElem? hpage
    have hload : kds_buf_lookup_or_load (kds_buf_pin env.pool rel.root_page_id)
          (slotOf rel env row.key) = (.ok (slotOf rel env row.key),
        kds_buf_pin (kds_buf_pin env.pool rel.root_page_id) (slotOf rel env row.key)) :=
      lookup_or_load_cached (h.loaded _ (by simp [hmem]))
    obtain ⟨hdup, hok⟩ := dupFrom_spec (f := env.pool.frame (slotOf rel env row.key)) row.key _ 0
      (Nat.zero_add _)
    constructor
    -- the key is in the page: both pins are given back
    · rintro ⟨-, i, hrow⟩
      obtain ⟨node, hnode, hframe, -⟩ := hexec.cursor.node
      obtain ⟨cursor', hclean⟩ := cleanup_root (p := kds_buf_pin env.pool rel.root_page_id)
        hexec.depth hnode hframe
      refine ⟨{ exec with
        target_heap_page_id := slotOf rel env row.key
        ret := some .EEXIST
        cursor := cursor' }, ?_, rfl⟩
      simp only [probeHeapPage, if_neg h0, hload, frame_pin, hexec.key,
        hdup ⟨i, Nat.zero_le _, hrow⟩, failExec, unpin_pin, hclean, bind, Except.bind]
    · intro hno
      have hnone : ∀ i, ¬ HoldsRow (env.page (slotOf rel env row.key)) i row.key :=
        fun i hrow => hno ⟨h0, i, hrow⟩
      refine ⟨{ exec with
        target_heap_page_id := slotOf rel env row.key
        need_new_page :=
          !heap_has_space (env.pool.frame (slotOf rel env row.key)) row.data_len }, ?_,
        ⟨hexec.rel_eq, hexec.key, hexec.data, hexec.data_len, hexec.depth, hexec.cursor⟩, ?_,
        fun _ => by dsimp only⟩
      · simp only [probeHeapPage, if_neg h0, hload, frame_pin, hexec.key, hexec.data_len,
          hok fun i _ => hnone i, unpin_pin]
      · show (!heap_has_space _ _) = true ↔ _
        rw [Bool.not_eq_true', NeedsPage]
        exact ⟨fun hs => Or.inr ⟨hnone, hs⟩, fun hn => (hn.resolve_left h0).2⟩

/-- The descent ends at once, at the root. -/
theorem search_probes {rel : Relation} {env : ExecEnv} {keys : List TupleId} {pages : List PageId}
    (h : TableInv rel env keys pages) (row : Row) :
    ∃ exec, btree_insert_run_search_and_prepare rel
        (kds_btree_insert_exec_init (some rel) row.key row.data row.data_len) env =
          probeHeapPage rel exec { env with pool := kds_buf_pin env.pool rel.root_page_id }
            (slotOf rel env row.key) ∧
      Prepared rel env row exec := by
  have hload : kds_buf_lookup_or_load env.pool rel.root_page_id =
      (.ok rel.root_page_id, kds_buf_pin env.pool rel.root_page_id) :=
    lookup_or_load_cached (h.loaded _ (by simp))
  obtain ⟨node, hnode, hframe, hnt⟩ := load_btree_node_ok
    (kds_buf_pin env.pool rel.root_page_id) rel.root_page_id (by rw [frame_pin]; exact h.typed)
  have hnt : node.treeNode = rootNode rel env := hnt
  have hle : node.key_count.toNat ≤ 4 := by
    refine BtreePageData.key_count_le ?_
    rw [hnt, h.node]
    simp
  -- the position the node search finds, and the slot stored there
  have hpos : searchFrom node.keys row.key (toInt node.key_count) 0 node.key_count.toNat =
      .ok ((position row.key (rootNode rel env).keys : Nat) : Int) := by
    rw [toInt_of_lt (by omega), searchFrom_spec hle node.key_count.toNat 0 (by omega),
      Nat.zero_add, List.drop_zero, ← hnt, BtreePageData.treeNode_of_le hle]
  have hslot : arrGet node.slots ((position row.key (rootNode rel env).keys : Nat) : Int) =
      .ok (slotOf rel env row.key) := by
    obtain ⟨s, hs⟩ := exists_slot_of_position h.nodeOk row.key
    have hs : (rootNode rel env).slots[position row.key (rootNode rel env).keys]? = some s := hs
    obtain ⟨S₁, S₂, hsplit, hS₁⟩ := exists_split_of_getElem? hs
    have hget := (BtreePageData.slots_get hle (hnt ▸ hsplit)).2
    rw [hS₁] at hget
    rw [hget, slotOf, hs, Option.getD_some]
  -- the root is a leaf, so the loop ends in its first turn
  have hlevel : node.level = 0 := by
    have hl : node.treeNode.level = 0 := by rw [hnt, h.node]
    rw [BtreePageData.treeNode_level] at hl
    exact UInt64.toNat_inj.mp hl
  refine ⟨{ kds_btree_insert_exec_init (some rel) row.key row.data row.data_len with
    cursor :=
      { btree_cursor_init with
        nodes := btree_cursor_init.nodes.set 0 node
        positions := btree_cursor_init.positions.set 0
          ((position row.key (rootNode rel env).keys : Nat) : Int) }
    units_done := 1 }, ?_, rfl, rfl, rfl, rfl, rfl, ?_⟩
  · show searchPrepareLoop rel (kds_btree_insert_exec_init (some rel) row.key row.data row.data_len)
      env (15 + 1) = _
    have hnodes := arrSet_nat btree_cursor_init.nodes (show 0 < 16 by decide) node
    have hposs := arrSet_nat btree_cursor_init.positions (show 0 < 16 by decide)
      ((position row.key (rootNode rel env).keys : Nat) : Int)
    rw [searchPrepareLoop]
    simp only [kds_btree_insert_exec_init, Option.map_some, Option.getD_some, hload, hnode, bind,
      Except.bind]
    have hdepth : ((btree_cursor_init.depth : Nat) : Int) = ((0 : Nat) : Int) := rfl
    rw [hdepth, hnodes]
    simp only [hpos, hposs, hslot, hlevel, if_true]
    rfl
  · exact ⟨⟨node, arrGet_set_self _ (by decide) _, hframe, hnt⟩, arrGet_set_self _ (by decide) _⟩

/-! ## Section 4: The phases -/

section phases

variable (crc32c : UInt32 → List UInt8 → UInt32)

/-- What is left to do in the middle of a call: `turns` of the phase loop, and `calls` more. -/
def restOfRun (rel : Relation) (exec : BtreeInsertExec) (env : ExecEnv) (turns calls : Nat) :
    Except Fault (ExecResult × BtreeInsertExec × ExecEnv) := do
  let (r, exec, env) ← runPhases crc32c rel exec env turns
  if r = .cont then runToCompletion crc32c exec env calls else .ok (r, exec, env)

variable {crc32c} {rel : Relation} {exec exec' : BtreeInsertExec} {env env' : ExecEnv} {t n : Nat}

theorem runToCompletion_succ (hrel : exec.rel = some rel) (hkind : rel.kind = .btree)
    (hroot : rel.root_page_id ≠ 0) :
    runToCompletion crc32c exec env (n + 1) = restOfRun crc32c rel exec env 7 n := by
  simp [runToCompletion, kds_btree_insert_exec_run, restOfRun, hrel, hkind, hroot]

theorem restOfRun_next (h : runPhase crc32c rel exec env = .ok (none, exec', env')) :
    restOfRun crc32c rel exec env (t + 1) n = restOfRun crc32c rel exec' env' t n := by
  simp [restOfRun, runPhases, h, bind, Except.bind]

theorem restOfRun_end {r : ExecResult} (hr : r ≠ .cont)
    (h : runPhase crc32c rel exec env = .ok (some r, exec', env')) :
    restOfRun crc32c rel exec env (t + 1) n = .ok (r, exec', env') := by
  simp [restOfRun, runPhases, h, bind, Except.bind, hr]

theorem restOfRun_cont (h : runPhase crc32c rel exec env = .ok (some .cont, exec', env')) :
    restOfRun crc32c rel exec env (t + 1) n = runToCompletion crc32c exec' env' n := by
  simp [restOfRun, runPhases, h, bind, Except.bind]

/-- The run ends in DONE, in a state with `Q`. -/
def Ends (x : Except Fault (ExecResult × BtreeInsertExec × ExecEnv)) (Q : ExecEnv → Prop) : Prop :=
  ∃ exec env, x = .ok (.done, exec, env) ∧ Q env

theorem Ends.imp {x : Except Fault (ExecResult × BtreeInsertExec × ExecEnv)} {Q Q' : ExecEnv → Prop}
    (h : Ends x Q) (hQ : ∀ env, Q env → Q' env) : Ends x Q' := by
  obtain ⟨exec, env, hx, hq⟩ := h
  exact ⟨exec, env, hx, hQ env hq⟩

/-- A phase that looks at its slice first: it is enough to follow the checks
    that find time left, since every other one costs a call. -/
theorem ends_sliced {Q : ExecEnv → Prop} {k : Nat} (hrel : exec.rel = some rel)
    (hkind : rel.kind = .btree) (hroot : rel.root_page_id ≠ 0) (hk : k + 1 ≤ 7)
    (hexpired : ∀ ticks, runPhase crc32c rel exec { env with ticks := true :: ticks } =
      .ok (some .cont, exec, { env with ticks := ticks }))
    (hgo : ∀ ticks ticks' t n, kds_exec_slice_expired { env with ticks := ticks } =
        (false, { env with ticks := ticks' }) → k ≤ t → ticks'.length ≤ n →
      Ends (restOfRun crc32c rel exec { env with ticks := ticks } (t + 1) n) Q) :
    ∀ ticks t n, k ≤ t → ticks.length ≤ n →
      Ends (restOfRun crc32c rel exec { env with ticks := ticks } (t + 1) n) Q := by
  intro ticks
  induction ticks with
  | nil => exact fun t n hkt hn => hgo [] [] t n rfl hkt hn
  | cons tick ticks ih =>
    intro t n hkt hn
    cases tick with
    | false => exact hgo _ ticks t n rfl hkt (by simp at hn; omega)
    | true =>
      obtain ⟨n, rfl⟩ : ∃ m, n = m + 1 := ⟨n - 1, by simp at hn; omega⟩
      rw [restOfRun_cont (hexpired ticks), runToCompletion_succ hrel hkind hroot]
      exact ih 6 n (by omega) (by simpa using hn)

/-- The pages read as in `p`, and `staged` is left of the ring. -/
def Leaves (p : Pool) (staged : List PageId) (env : ExecEnv) : Prop :=
  p.Same env.pool ∧ env.staged = staged

theorem ends_done (hphase : exec.phase = .done) (hdepth : exec.cursor.depth < 16) :
    Ends (restOfRun crc32c rel exec env (t + 1) n) (Leaves env.pool env.staged) := by
  obtain ⟨cursor, p, hclean, -, hsame⟩ := btree_cursor_cleanup_ok exec.cursor env.pool hdepth
  refine ⟨{ exec with cursor := cursor }, { env with pool := p }, ?_, hsame, rfl⟩
  refine restOfRun_end (by decide) ?_
  simp only [runPhase, hphase, hclean, bind, Except.bind]

/-- The entry for the new heap page goes into the leaf. -/
theorem ends_btreeInsert (exec : BtreeInsertExec) (env : ExecEnv) {σ : Store PageId TupleId}
    (hrel : exec.rel = some rel) (hkind : rel.kind = .btree) (hroot : rel.root_page_id ≠ 0) (hphase : exec.phase = .btreeInsert)
    (hdepth : exec.cursor.depth = 0)
    (hat : CursorAt σ exec.new_page_min_key exec.cursor 0 rel.root_page_id)
    (htype : kds_is_btree_page (env.pool.frame rel.root_page_id) = true)
    (hok : NodeOk σ BTREE_MAX_KEYS 0 rel.root_page_id)
    (hroom : (σ rel.root_page_id).keys.length < 4) :
    ∀ ticks t n, 1 ≤ t → ticks.length ≤ n →
      Ends (restOfRun crc32c rel exec { env with ticks := ticks } (t + 1) n) fun env' =>
        ∃ page, (btreeData page).treeNode = (σ rel.root_page_id).insertAt
            (position exec.new_page_min_key (σ rel.root_page_id).keys) exec.new_page_min_key
              exec.new_heap_page_id ∧
          Leaves (env.pool.setFrame rel.root_page_id
            { env.pool.frame rel.root_page_id with page := page }) env.staged env' := by
  refine ends_sliced hrel hkind hroot (by decide) (fun ticks => ?_) fun ticks ticks' t n hslice ht hn => ?_
  · simp [runPhase, hphase, kds_exec_slice_expired]
  · obtain ⟨cursor, p, page, hins, hdepth', hsame, hnode⟩ := kds_btree_cursor_insert_stores
      exec.new_heap_page_id (hdepth ▸ hat) (by omega) htype hok hroom
    obtain ⟨cursor', p', hclean, hdepth'', hsame'⟩ :=
      btree_cursor_cleanup_ok cursor p (by omega)
    obtain ⟨t, rfl⟩ : ∃ m, t = m + 1 := ⟨t - 1, by omega⟩
    have hrun : runPhase crc32c rel exec { env with ticks := ticks } =
        .ok (none,
          { exec with cursor := cursor', units_done := exec.units_done + 1, phase := .done },
          { env with pool := p', ticks := ticks' }) := by
      simp only [runPhase, hphase, hslice, btree_insert_run_btree_insert, hins, hclean, bind,
        Except.bind, ne_eq, not_true_eq_false, if_false]
      rfl
    rw [restOfRun_next hrun]
    refine (ends_done rfl (by show cursor'.depth < 16; omega)).imp fun env' hl => ?_
    exact ⟨page, hnode, (hsame.trans hsame').trans hl.1, hl.2⟩

/-- The rows of `f'` are those of `f` and a row with this key in a slot of its own. -/
structure RowAdded (f f' : Frame) (key : TupleId) : Prop where
  inv : HeapInv f'.page
  rows : ∀ i k, HoldsRow f'.page i k ↔
    HoldsRow f.page i k ∨ (i = (heapMeta f.page).nr_slots.toNat ∧ k = key)

/-- The row goes into a page with space. -/
theorem ends_heapInsert (exec : BtreeInsertExec) (env : ExecEnv) (hrel : exec.rel = some rel) (hkind : rel.kind = .btree)
    (hroot : rel.root_page_id ≠ 0) (hphase : exec.phase = .heapInsert)
    (hneed : exec.need_new_page = false) (hdepth : exec.cursor.depth = 0)
    (hcached : (env.pool.cached exec.target_heap_page_id).isSome)
    (hinv : HeapInv (env.page exec.target_heap_page_id))
    (hspace : heap_has_space (env.pool.frame exec.target_heap_page_id) exec.data_len = true)
    (hlen : 8 ≤ exec.data_len.toNat) :
    ∀ ticks t n, 1 ≤ t → ticks.length ≤ n →
      Ends (restOfRun crc32c rel exec { env with ticks := ticks } (t + 1) n) fun env' =>
        ∃ f, RowAdded (env.pool.frame exec.target_heap_page_id) f (exec.data.readU64 0) ∧
          Leaves (env.pool.setFrame exec.target_heap_page_id f) env.staged env' := by
  refine ends_sliced hrel hkind hroot (by decide) (fun ticks => ?_) fun ticks ticks' t n hslice ht hn => ?_
  · simp [runPhase, hphase, kds_exec_slice_expired]
  · obtain ⟨tid, f, hins, hinv', hrows⟩ := heap_insert_row hinv (d := exec.data) KDS_BTREE_EXEC_XID
      hspace hlen
    have hload := lookup_or_load_cached hcached
    obtain ⟨t, rfl⟩ : ∃ m, t = m + 1 := ⟨t - 1, by omega⟩
    have hrun : runPhase crc32c rel exec { env with ticks := ticks } =
        .ok (none,
          { exec with
            out_tid := tid, new_heap_page_id := 0, units_done := exec.units_done + 1, phase := .done },
          { env with
            pool := kds_buf_unpin ((kds_buf_pin env.pool exec.target_heap_page_id).setFrame
              exec.target_heap_page_id f) exec.target_heap_page_id
            ticks := ticks' }) := by
      simp only [runPhase, hphase, hslice, btree_insert_run_heap_insert, hneed, hload, insertRowAt,
        frame_pin, hins]
      rfl
    rw [restOfRun_next hrun]
    refine (ends_done rfl (by show exec.cursor.depth < 16; omega)).imp fun env' hl => ?_
    exact ⟨f, ⟨hinv', hrows⟩,
      ((same_pin env.pool _).setFrame _ f).trans ((same_unpin _ _).trans hl.1), hl.2⟩

/-- The row starts a new page. -/
theorem ends_heapInsert_new (exec : BtreeInsertExec) (env : ExecEnv) {σ : Store PageId TupleId}
    {new : PageId} {staged : List PageId} (hrel : exec.rel = some rel) (hkind : rel.kind = .btree) (hroot : rel.root_page_id ≠ 0)
    (hphase : exec.phase = .heapInsert) (hneed : exec.need_new_page = true)
    (hdepth : exec.cursor.depth = 0) (hstaged : env.staged = new :: staged)
    (hne : rel.root_page_id ≠ new) (hlen : 8 ≤ exec.data_len.toNat)
    (hmax : exec.data_len.toNat ≤ maxRowLen)
    (hat : CursorAt σ exec.key exec.cursor 0 rel.root_page_id)
    (htype : kds_is_btree_page (env.pool.frame rel.root_page_id) = true)
    (hok : NodeOk σ BTREE_MAX_KEYS 0 rel.root_page_id)
    (hroom : (σ rel.root_page_id).keys.length < 4) :
    ∀ ticks t n, 2 ≤ t → ticks.length ≤ n →
      Ends (restOfRun crc32c rel exec { env with ticks := ticks } (t + 1) n) fun env' =>
        ∃ f₀ f page, (∀ i k, ¬ HoldsRow f₀.page i k) ∧ RowAdded f₀ f (exec.data.readU64 0) ∧
          (btreeData page).treeNode = (σ rel.root_page_id).insertAt
            (position exec.key (σ rel.root_page_id).keys) exec.key new ∧
          Leaves ((env.pool.setFrame new f).setFrame rel.root_page_id
            { env.pool.frame rel.root_page_id with page := page }) staged env' := by
  refine ends_sliced hrel hkind hroot (by decide) (fun ticks => ?_) fun ticks ticks' t n hslice ht hn => ?_
  · simp [runPhase, hphase, kds_exec_slice_expired]
  · obtain ⟨hinv₀, hempty, hspace⟩ :=
      heap_init_page_empty ((setPageType env.pool new .heap).frame new)
    obtain ⟨tid, f, hins, hinv', hrows⟩ := heap_insert_row hinv₀ (d := exec.data) KDS_BTREE_EXEC_XID
      (hspace _ hmax) hlen
    obtain ⟨t, rfl⟩ : ∃ m, t = m + 1 := ⟨t - 1, by omega⟩
    have hheap : btree_insert_run_heap_insert exec { env with ticks := ticks' } =
        (.done,
          { exec with
            out_tid := tid
            new_heap_page_id := new
            new_page_min_key := exec.key
            units_done := exec.units_done + 1 },
          { env with
            pool := kds_buf_unpin (((setPageType env.pool new .heap).setFrame new
              (heap_init_page ((setPageType env.pool new .heap).frame new))).setFrame new f) new
            staged := staged
            ticks := ticks' }) := by
      simp only [btree_insert_run_heap_insert, hneed, kds_page_alloc, hstaged, insertRowAt,
        Pool.frame_setFrame_self, hins, if_true]
    have hrun : runPhase crc32c rel exec { env with ticks := ticks } =
        .ok (none,
          { exec with
            out_tid := tid
            new_heap_page_id := new
            new_page_min_key := exec.key
            units_done := exec.units_done + 1
            phase := .btreeInsert },
          { env with
            pool := kds_buf_unpin (((setPageType env.pool new .heap).setFrame new
              (heap_init_page ((setPageType env.pool new .heap).frame new))).setFrame new f) new
            staged := staged
            ticks := ticks' }) := by
      simp only [runPhase, hphase, hslice, hheap, hneed, ne_eq, not_true_eq_false, if_false]
      rfl
    -- taking, typing and clearing the page is undone by writing the row's frame over it
    have hpool : (env.pool.setFrame new f).Same (kds_buf_unpin
        (((setPageType env.pool new .heap).setFrame new
          (heap_init_page ((setPageType env.pool new .heap).frame new))).setFrame new f) new) := by
      refine Pool.Same.trans ?_ (same_unpin _ _)
      rw [setPageType, Pool.setFrame_setFrame, Pool.setFrame_setFrame]
      exact Pool.Same.refl _
    have hframe := congrFun hpool.frame rel.root_page_id
    rw [Pool.frame_setFrame_ne _ _ hne] at hframe
    rw [restOfRun_next hrun]
    refine (ends_btreeInsert
      { exec with
        out_tid := tid
        new_heap_page_id := new
        new_page_min_key := exec.key
        units_done := exec.units_done + 1
        phase := .btreeInsert }
      { env with
        pool := kds_buf_unpin (((setPageType env.pool new .heap).setFrame new
          (heap_init_page ((setPageType env.pool new .heap).frame new))).setFrame new f) new
        staged := staged }
      hrel hkind hroot rfl hdepth hat (by rw [hframe]; exact htype) hok hroom ticks' t n (by omega)
      hn).imp ?_
    rintro env' ⟨page, hnode, hsame, hst⟩
    refine ⟨_, f, page, hempty, ⟨hinv', hrows⟩, hnode, ?_, hst⟩
    rw [← hframe]
    exact (hpool.setFrame _ _).trans hsame

/-- The record of the row: no page changes. -/
theorem wal_insert_same (crc32c : UInt32 → List UInt8 → UInt32) (exec : BtreeInsertExec)
    (env : ExecEnv) :
    ∃ p w, btree_insert_run_wal_insert crc32c exec env = { env with pool := p, wal := w } ∧
      env.pool.Same p := by
  have hsame : env.pool.Same env.pool.nextFail := ⟨rfl, fun h k => h (k + 1), fun _ h => h⟩
  unfold btree_insert_run_wal_insert
  dsimp only
  split
  · exact ⟨_, env.wal, rfl, hsame⟩
  · exact ⟨_, _, rfl, hsame⟩

/-- A page with space: from the probe to the end. -/
theorem ends_old_page (exec : BtreeInsertExec) (env : ExecEnv) (hrel : exec.rel = some rel) (hkind : rel.kind = .btree)
    (hroot : rel.root_page_id ≠ 0) (hphase : exec.phase = .walInsert)
    (hneed : exec.need_new_page = false) (hdepth : exec.cursor.depth = 0)
    (hcached : (env.pool.cached exec.target_heap_page_id).isSome)
    (hinv : HeapInv (env.page exec.target_heap_page_id))
    (hspace : heap_has_space (env.pool.frame exec.target_heap_page_id) exec.data_len = true)
    (hlen : 8 ≤ exec.data_len.toNat) (hn : env.ticks.length ≤ n) :
    Ends (restOfRun crc32c rel exec env 6 n) fun env' =>
      ∃ f, RowAdded (env.pool.frame exec.target_heap_page_id) f (exec.data.readU64 0) ∧
        Leaves (env.pool.setFrame exec.target_heap_page_id f) env.staged env' := by
  obtain ⟨p, w, hwal, hsame⟩ := wal_insert_same crc32c exec env
  have hrun : runPhase crc32c rel exec env =
      .ok (none, { exec with phase := .heapInsert }, { env with pool := p, wal := w }) := by
    simp only [runPhase, hphase, hneed, hwal]
    rfl
  rw [restOfRun_next hrun]
  have hframe := hsame.frame
  refine (ends_heapInsert { exec with phase := .heapInsert } { env with pool := p, wal := w } hrel hkind
    hroot rfl hneed hdepth (hsame.loaded _ hcached) ?_ ?_ hlen env.ticks 4 n (by decide) hn).imp ?_
  · show HeapInv (p.frame _).page
    rw [hframe]
    exact hinv
  · show heap_has_space (p.frame _) _ = true
    rw [hframe]
    exact hspace
  · rintro env' ⟨f, hadded, hl, hst⟩
    refine ⟨f, ?_, (hsame.setFrame _ f).trans hl, hst⟩
    have hadded : RowAdded (p.frame exec.target_heap_page_id) f (exec.data.readU64 0) := hadded
    rwa [hframe] at hadded

/-- A new page: from the probe to the end. -/
theorem ends_new_page (exec : BtreeInsertExec) (env : ExecEnv) {σ : Store PageId TupleId}
    {new : PageId} {staged : List PageId} (hrel : exec.rel = some rel) (hkind : rel.kind = .btree) (hroot : rel.root_page_id ≠ 0)
    (hphase : exec.phase = .walInitPage) (hneed : exec.need_new_page = true)
    (hdepth : exec.cursor.depth = 0) (hstaged : env.staged = new :: staged)
    (hne : rel.root_page_id ≠ new) (hlen : 8 ≤ exec.data_len.toNat)
    (hmax : exec.data_len.toNat ≤ maxRowLen)
    (hat : CursorAt σ exec.key exec.cursor 0 rel.root_page_id)
    (htype : kds_is_btree_page (env.pool.frame rel.root_page_id) = true)
    (hok : NodeOk σ BTREE_MAX_KEYS 0 rel.root_page_id)
    (hroom : (σ rel.root_page_id).keys.length < 4) (hn : env.ticks.length ≤ n) :
    Ends (restOfRun crc32c rel exec env 6 n) fun env' =>
      ∃ f₀ f page, (∀ i k, ¬ HoldsRow f₀.page i k) ∧ RowAdded f₀ f (exec.data.readU64 0) ∧
        (btreeData page).treeNode = (σ rel.root_page_id).insertAt
          (position exec.key (σ rel.root_page_id).keys) exec.key new ∧
        Leaves ((env.pool.setFrame new f).setFrame rel.root_page_id
          { env.pool.frame rel.root_page_id with page := page }) staged env' := by
  -- the three append phases change the log and the allocator's failures only
  obtain ⟨w₁, hw₁⟩ : ∃ w, btree_insert_run_wal_init_page crc32c env = { env with wal := w } := ⟨_, rfl⟩
  have hrun₁ : runPhase crc32c rel exec env =
      .ok (none, { exec with phase := .walInsert }, { env with wal := w₁ }) := by
    simp only [runPhase, hphase, hw₁]
  obtain ⟨p, w₂, hwal, hsame⟩ := wal_insert_same crc32c { exec with phase := .walInsert }
    { env with wal := w₁ }
  have hrun₂ : runPhase crc32c rel { exec with phase := .walInsert } { env with wal := w₁ } =
      .ok (none, { exec with phase := .walBtree }, { env with pool := p, wal := w₂ }) := by
    simp only [runPhase]
    rw [hwal, if_pos hneed]
  obtain ⟨leaf, hleaf, -, -⟩ := hat.node
  obtain ⟨w₃, hw₃⟩ : ∃ w, btree_insert_run_wal_btree crc32c { exec with phase := .walBtree }
      { env with pool := p, wal := w₂ } = .ok { env with pool := p, wal := w } := by
    simp only [btree_insert_run_wal_btree, hdepth, hleaf, bind, Except.bind]
    exact ⟨_, rfl⟩
  have hrun₃ : runPhase crc32c rel { exec with phase := .walBtree } { env with pool := p, wal := w₂ } =
      .ok (none, { exec with phase := .heapInsert }, { env with pool := p, wal := w₃ }) := by
    simp only [runPhase, hw₃, bind, Except.bind]
  rw [restOfRun_next hrun₁, restOfRun_next hrun₂, restOfRun_next hrun₃]
  have hframe : p.frame = env.pool.frame := hsame.frame
  -- the row and the leaf follow, from a pool that looks the same
  refine (ends_heapInsert_new { exec with phase := .heapInsert } { env with pool := p, wal := w₃ } hrel
    hkind hroot rfl hneed hdepth hstaged hne hlen hmax hat ?_ hok hroom env.ticks 2 n (by decide) hn).imp ?_
  · show kds_is_btree_page (p.frame _) = true
    rw [hframe]
    exact htype
  · rintro env' ⟨f₀, f, page, hempty, hadded, hnode, hl, hst⟩
    refine ⟨f₀, f, page, hempty, hadded, hnode, Pool.Same.trans ?_ hl, hst⟩
    show Pool.Same _ ((p.setFrame new f).setFrame _ { p.frame _ with page := page })
    rw [hframe]
    exact (hsame.setFrame _ _).setFrame _ _

end phases

/-! ## Section 5: One insert -/

section insert

variable {rel : Relation} {env : ExecEnv} {keys : List TupleId} {pages : List PageId}

theorem TableInv.withTicks (h : TableInv rel env keys pages) (ticks : List Bool) :
    TableInv rel { env with ticks := ticks } keys pages :=
  ⟨h.kind, h.typed, h.node, h.length_eq, h.length_le, h.sorted, h.heap, h.nodup, h.nonzero, h.loaded⟩

theorem TableInv.root_ne (h : TableInv rel env keys pages) : rel.root_page_id ≠ 0 :=
  fun h0 => h.nonzero (by simp [h0])

variable (crc32c : UInt32 → List UInt8 → UInt32) (row : Row) (ticks : List Bool)

/-- A key that is found is refused, and nothing happens. -/
theorem insertRow_found (h : TableInv rel env keys pages) (hf : Found rel env row.key) :
    ∃ exec, insertRow crc32c rel env row ticks = .ok (.error, exec, { env with ticks := ticks }) ∧
      exec.ret = some .EEXIST := by
  have h := h.withTicks ticks
  obtain ⟨exec, hsearch, hprep⟩ := search_probes h row
  obtain ⟨exec', hprobe, hret⟩ := (probe_spec h hprep).1 hf
  refine ⟨exec', ?_, hret⟩
  unfold insertRow
  rw [runToCompletion_succ rfl h.kind h.root_ne]
  refine restOfRun_end (by decide) ?_
  simp only [runPhase, kds_btree_insert_exec_init] at hsearch ⊢
  simp only [hsearch, hprobe, bind, Except.bind]
  rfl

/-- Any other insert goes on with the exec as the probe leaves it. -/
theorem insertRow_probed (h : TableInv rel env keys pages) (hf : ¬ Found rel env row.key) :
    ∃ exec, insertRow crc32c rel env row ticks =
        restOfRun crc32c rel
          { exec with phase := if exec.need_new_page then .walInitPage else .walInsert }
          { env with pool := kds_buf_pin env.pool rel.root_page_id, ticks := ticks } 6 ticks.length ∧
      Prepared rel env row exec ∧ (exec.need_new_page = true ↔ NeedsPage rel env row) ∧
      (slotOf rel env row.key ≠ 0 → exec.target_heap_page_id = slotOf rel env row.key) := by
  have h := h.withTicks ticks
  obtain ⟨exec, hsearch, hprep⟩ := search_probes h row
  obtain ⟨exec', hprobe, hprep', hneed, htarget⟩ := (probe_spec h hprep).2 hf
  refine ⟨exec', ?_, ⟨hprep'.1, hprep'.2, hprep'.3, hprep'.4, hprep'.5, hprep'.6⟩, hneed, htarget⟩
  unfold insertRow
  rw [runToCompletion_succ rfl h.kind h.root_ne]
  refine restOfRun_next ?_
  simp only [runPhase, kds_btree_insert_exec_init] at hsearch ⊢
  simp only [hsearch, hprobe, bind, Except.bind]
  rfl

/-- The row goes into the page of its range. -/
theorem insertRow_old (h : TableInv rel env keys pages) (hrow : row.Ok)
    (hf : ¬ Found rel env row.key) (hneed : ¬ NeedsPage rel env row) :
    Ends (insertRow crc32c rel env row ticks) fun env' =>
      ∃ f, RowAdded (env.pool.frame (slotOf rel env row.key)) f row.key ∧
        Leaves (env.pool.setFrame (slotOf rel env row.key) f) env.staged env' := by
  obtain ⟨exec, hrun, hprep, hneed', htarget⟩ := insertRow_probed crc32c row ticks h hf
  have hne : slotOf rel env row.key ≠ 0 := fun h0 => hneed (Or.inl h0)
  obtain ⟨_, h0⟩ | ⟨n, k, -, -, hpage⟩ := h.slotOf_cases row.key
  · exact absurd h0 hne
  have hmem := List.mem_of_getElem? hpage
  have hfalse : exec.need_new_page = false := by
    rw [← Bool.not_eq_true, hneed']
    exact hneed
  -- no new page is needed, so the page of the range has room
  have hspace : heap_has_space (env.pool.frame (slotOf rel env row.key)) row.data_len = true := by
    by_contra hno
    exact hneed (Or.inr ⟨fun i hi => hf ⟨hne, i, hi⟩, by simpa using hno⟩)
  have htarget := htarget hne
  have hsame := same_pin env.pool rel.root_page_id
  rw [hrun, if_neg (Bool.eq_false_iff.mp hfalse)]
  refine (ends_old_page { exec with phase := .walInsert }
    { env with pool := kds_buf_pin env.pool rel.root_page_id, ticks := ticks }
    hprep.rel_eq h.kind h.root_ne rfl hfalse hprep.depth ?_ ?_ ?_ ?_ (Nat.le_refl _)).imp ?_
  · show (env.pool.cached exec.target_heap_page_id).isSome
    rw [htarget]
    exact h.loaded _ (by simp [hmem])
  · show HeapInv (env.page exec.target_heap_page_id)
    rw [htarget]
    exact h.heap _ hmem
  · show heap_has_space (env.pool.frame exec.target_heap_page_id) exec.data_len = true
    rw [htarget, hprep.data_len]
    exact hspace
  · show 8 ≤ exec.data_len.toNat
    rw [hprep.data_len]
    exact hrow.1
  · rintro env' ⟨f, hadded, hl, hst⟩
    refine ⟨f, ?_, ?_, hst⟩
    · have hadded : RowAdded (env.pool.frame exec.target_heap_page_id) f (exec.data.readU64 0) := hadded
      rwa [htarget, hprep.data] at hadded
    · have hl : Pool.Same ((kds_buf_pin env.pool rel.root_page_id).setFrame exec.target_heap_page_id f)
        env'.pool := hl
      rw [htarget] at hl
      exact (hsame.setFrame _ f).trans hl

/-- The row starts a page, which gets its entry in the leaf. -/
theorem insertRow_new {new : PageId} {staged : List PageId} (h : TableInv rel env keys pages)
    (hrow : row.Ok) (hf : ¬ Found rel env row.key) (hneed : NeedsPage rel env row)
    (hstaged : env.staged = new :: staged) (hroom : keys.length < 4) :
    Ends (insertRow crc32c rel env row ticks) fun env' =>
      ∃ f₀ f page, (∀ i k, ¬ HoldsRow f₀.page i k) ∧ RowAdded f₀ f row.key ∧
        (btreeData page).treeNode =
          (rootNode rel env).insertAt (position row.key keys) row.key new ∧
        Leaves ((env.pool.setFrame new f).setFrame rel.root_page_id
          { env.pool.frame rel.root_page_id with page := page }) staged env' := by
  obtain ⟨exec, hrun, hprep, hneed', -⟩ := insertRow_probed crc32c row ticks h hf
  have htrue : exec.need_new_page = true := hneed'.mpr hneed
  have hne : rel.root_page_id ≠ new := by
    rintro rfl
    exact (List.nodup_cons.mp h.nodup).1 (by simp [hstaged])
  have hsame := same_pin env.pool rel.root_page_id
  have hnode : env.pool.tree rel.root_page_id = ⟨0, keys, 0 :: pages⟩ := h.node
  rw [hrun, if_pos htrue]
  refine (ends_new_page { exec with phase := .walInitPage }
    { env with pool := kds_buf_pin env.pool rel.root_page_id, ticks := ticks }
    hprep.rel_eq h.kind h.root_ne rfl htrue hprep.depth hstaged hne ?_ ?_
    (show CursorAt _ exec.key exec.cursor 0 _ by rw [hprep.key]; exact hprep.cursor) h.typed h.nodeOk ?_
    (Nat.le_refl _)).imp ?_
  · show 8 ≤ exec.data_len.toNat
    rw [hprep.data_len]
    exact hrow.1
  · show exec.data_len.toNat ≤ _
    rw [hprep.data_len]
    exact hrow.2
  · rw [hnode]
    exact hroom
  · rintro env' ⟨f₀, f, page, hempty, hadded, hpage, hl, hst⟩
    refine ⟨f₀, f, page, hempty, ?_, ?_, ((hsame.setFrame _ f).setFrame _ _).trans hl, hst⟩
    · have hadded : RowAdded f₀ f (exec.data.readU64 0) := hadded
      rwa [hprep.data] at hadded
    · have hpage : (btreeData page).treeNode = (rootNode rel env).insertAt
          (position exec.key (rootNode rel env).keys) exec.key new := hpage
      rw [hprep.key, h.node] at hpage
      rw [hpage, h.node]

/-- The rows of the table after an insert: those from before, and one with `key` in a slot of its own. -/
structure Inserted (env env' : ExecEnv) (pages pages' : List PageId) (key : TupleId) (id₀ : PageId)
    (i₀ : Nat) : Prop where
  mem : id₀ ∈ pages'
  keeps : ∀ id ∈ pages, id ∈ pages'
  rows : ∀ id ∈ pages', ∀ i k, HoldsRow (env'.page id) i k ↔
    (id ∈ pages ∧ HoldsRow (env.page id) i k) ∨ (id = id₀ ∧ i = i₀ ∧ k = key)
  slot_new : id₀ ∈ pages → ∀ k, ¬ HoldsRow (env.page id₀) i₀ k

theorem mem_ring (h : TableInv rel env keys pages) {id : PageId} (hid : id ∈ pages) :
    id ≠ rel.root_page_id ∧ id ∉ env.staged := by
  obtain ⟨hroot, hnd⟩ := List.nodup_cons.mp h.nodup
  refine ⟨?_, fun hst => (List.nodup_append.mp hnd).2.2 id hid id hst rfl⟩
  rintro rfl
  exact hroot (by simp [hid])

/-- A row added to a page of the table. -/
theorem TableInv.add_row (h : TableInv rel env keys pages) {id : PageId} (hid : id ∈ pages) {f : Frame}
    {key : TupleId} {env' : ExecEnv} (hadded : RowAdded (env.pool.frame id) f key)
    (hl : Leaves (env.pool.setFrame id f) env.staged env') :
    TableInv rel env' keys pages ∧
      Inserted env env' pages pages key id (heapMeta (env.page id)).nr_slots.toNat := by
  obtain ⟨hsame, hst⟩ := hl
  have hself : env'.page id = f.page := by
    rw [ExecEnv.page, hsame.frame, Pool.frame_setFrame_self]
  have hother : ∀ j, j ≠ id → env'.pool.frame j = env.pool.frame j :=
    fun j hj => by rw [hsame.frame, Pool.frame_setFrame_ne _ _ hj]
  have hroot : env'.pool.frame rel.root_page_id = env.pool.frame rel.root_page_id :=
    hother _ (mem_ring h hid).1.symm
  constructor
  · refine ⟨h.kind, by rw [hroot]; exact h.typed, ?_, h.length_eq, h.length_le, h.sorted,
      fun j hj => ?_, by rw [hst]; exact h.nodup, by rw [hst]; exact h.nonzero, fun j hj => ?_⟩
    · rw [← h.node, rootNode_eq, rootNode_eq, ExecEnv.page, ExecEnv.page, hroot]
    · by_cases hji : j = id
      · rw [hji, hself]
        exact hadded.inv
      · rw [ExecEnv.page, hother j hji]
        exact h.heap j hj
    · rw [hst] at hj
      exact hsame.loaded j (Pool.loaded_setFrame (h.loaded j hj))
  · refine ⟨hid, fun _ hj => hj, fun j hj i k => ?_, fun _ k => not_holdsRow_new _ k⟩
    by_cases hji : j = id
    · subst hji
      rw [hself, hadded.rows]
      simp [ExecEnv.page, hid]
    · rw [ExecEnv.page, hother j hji]
      simp [ExecEnv.page, hj, hji]

/-- A page started for a row. -/
theorem TableInv.add_page (h : TableInv rel env keys pages) {new : PageId} {staged : List PageId}
    (hstaged : env.staged = new :: staged) (hroom : keys.length < 4) {f₀ f : Frame} {page : Mem}
    {key : TupleId} {env' : ExecEnv} (hempty : ∀ i k, ¬ HoldsRow f₀.page i k)
    (hadded : RowAdded f₀ f key)
    (hnode : (btreeData page).treeNode = (rootNode rel env).insertAt (position key keys) key new)
    (hl : Leaves ((env.pool.setFrame new f).setFrame rel.root_page_id
      { env.pool.frame rel.root_page_id with page := page }) staged env') :
    ∃ pages', TableInv rel env' (keys.take (position key keys) ++ key :: keys.drop (position key keys))
        pages' ∧
      Inserted env env' pages pages' key new (heapMeta f₀.page).nr_slots.toNat := by
  obtain ⟨hsame, hst⟩ := hl
  have hpos := position_le key keys
  have hlen := h.length_eq
  -- the page from the ring is neither the root nor a page of the table
  have hnew_root : new ≠ rel.root_page_id := by
    rintro rfl
    exact (List.nodup_cons.mp h.nodup).1 (by simp [hstaged])
  have hnew_pages : new ∉ pages := fun hmem => (mem_ring h hmem).2 (by simp [hstaged])
  have hroot : env'.pool.frame rel.root_page_id =
      { env.pool.frame rel.root_page_id with page := page } := by
    rw [hsame.frame, Pool.frame_setFrame_self]
  have hself : env'.page new = f.page := by
    rw [ExecEnv.page, hsame.frame, Pool.frame_setFrame_ne _ _ hnew_root, Pool.frame_setFrame_self]
  have hother : ∀ j ∈ pages, env'.page j = env.page j := by
    intro j hj
    have hne : j ≠ new := by
      rintro rfl
      exact hnew_pages hj
    rw [ExecEnv.page, hsame.frame, Pool.frame_setFrame_ne _ _ (mem_ring h hj).1,
      Pool.frame_setFrame_ne _ _ hne]
    rfl
  have hperm : (pages.take (position key keys) ++ new :: pages.drop (position key keys)).Perm
      (new :: pages) := by
    refine List.perm_middle.trans ?_
    rw [List.take_append_drop]
  -- the pages and the ring together are what they were
  have hring : (rel.root_page_id ::
      ((pages.take (position key keys) ++ new :: pages.drop (position key keys)) ++ staged)).Perm
      (rel.root_page_id :: (pages ++ env.staged)) := by
    rw [hstaged]
    refine List.Perm.cons _ ((hperm.append_right staged).trans ?_)
    exact List.perm_middle.symm
  refine ⟨pages.take (position key keys) ++ new :: pages.drop (position key keys), ?_, ?_⟩
  -- the new page stands at the key's position
  · refine ⟨h.kind, ?_, ?_, ?_, ?_, ?_, fun j hj => ?_, ?_, ?_, fun j hj => ?_⟩
    · rw [hroot]
      exact h.typed
    · rw [rootNode_eq, ExecEnv.page, hroot]
      rw [hnode, h.node]
      simp [SearchTree.Node.insertAt]
    · simp only [List.length_append, List.length_take, List.length_cons, List.length_drop]
      omega
    · simp only [List.length_append, List.length_take, List.length_cons, List.length_drop]
      omega
    · exact pairwise_insert_position h.sorted key
    · rcases List.mem_cons.mp (hperm.mem_iff.mp hj) with rfl | hj
      · rw [hself]
        exact hadded.inv
      · rw [hother j hj]
        exact h.heap j hj
    · rw [hst]
      exact hring.nodup_iff.mpr h.nodup
    · rw [hst]
      exact fun h0 => h.nonzero (hring.mem_iff.mp h0)
    · rw [hst] at hj
      exact hsame.loaded j (Pool.loaded_setFrame (Pool.loaded_setFrame (h.loaded j (hring.mem_iff.mp hj))))
  · refine ⟨hperm.mem_iff.mpr List.mem_cons_self,
      fun j hj => hperm.mem_iff.mpr (List.mem_cons_of_mem _ hj), fun j hj i k => ?_,
      fun hmem => absurd hmem hnew_pages⟩
    rcases List.mem_cons.mp (hperm.mem_iff.mp hj) with rfl | hold
    · rw [hself, hadded.rows]
      simp [hempty, hnew_pages]
    · have hne : j ≠ new := by
        rintro rfl
        exact hnew_pages hold
      rw [hother j hold]
      simp [hold, hne]

/-- Every insert of a key that is not found is taken. -/
theorem insertRow_taken (h : TableInv rel env keys pages) (hadm : Admissible rel env row)
    (hf : ¬ Found rel env row.key) :
    ∃ exec env' keys' pages' id₀ i₀, insertRow crc32c rel env row ticks = .ok (.done, exec, env') ∧
      TableInv rel env' keys' pages' ∧ Inserted env env' pages pages' row.key id₀ i₀ := by
  obtain ⟨hrow, hres⟩ := hadm
  by_cases hneed : NeedsPage rel env row
  · obtain ⟨hst, hroom⟩ := hres hneed
    obtain ⟨new, staged, hstaged⟩ := List.exists_cons_of_ne_nil hst
    rw [h.node] at hroom
    obtain ⟨exec, env', hrun, f₀, f, page, hempty, hadded, hnode, hl⟩ :=
      insertRow_new crc32c row ticks h hrow hf hneed hstaged hroom
    obtain ⟨pages', hinv, hins⟩ := h.add_page hstaged hroom hempty hadded hnode hl
    exact ⟨exec, env', _, pages', new, _, hrun, hinv, hins⟩
  · obtain ⟨exec, env', hrun, f, hadded, hl⟩ := insertRow_old crc32c row ticks h hrow hf hneed
    obtain ⟨_, h0⟩ | ⟨n, k, -, -, hpage⟩ := h.slotOf_cases row.key
    · exact absurd (Or.inl h0) hneed
    · obtain ⟨hinv, hins⟩ := h.add_row (List.mem_of_getElem? hpage) hadded hl
      exact ⟨exec, env', keys, pages, _, _, hrun, hinv, hins⟩

/-- Where the check looks, and where rows are. -/
theorem TableInv.stored_of_found (h : TableInv rel env keys pages) {key : TupleId}
    (hf : Found rel env key) : Stored rel env key := by
  obtain ⟨hne, i, hi⟩ := hf
  obtain ⟨_, h0⟩ | ⟨n, k, -, -, hpage⟩ := h.slotOf_cases key
  · exact absurd h0 hne
  · refine ⟨_, ?_, i, hi⟩
    rw [h.heapPages_eq]
    exact List.mem_of_getElem? hpage

theorem TableInv.found_of_stored (h : TableInv rel env keys pages) {key : TupleId}
    (hr : InRange rel env key) (hs : Stored rel env key) : Found rel env key := by
  obtain ⟨id, hid, i, hi⟩ := hs
  rw [h.heapPages_eq] at hid
  obtain rfl := (h.inRange_iff key).mp hr id hid i hi
  exact ⟨fun h0 => h.nonzero (by simp [← h0, hid]), i, hi⟩

theorem Inserted.uniqueKeys {env' : ExecEnv} {keys' : List TupleId} {pages' : List PageId}
    {key : TupleId} {id₀ : PageId} {i₀ : Nat} (h : TableInv rel env keys pages)
    (h' : TableInv rel env' keys' pages') (hins : Inserted env env' pages pages' key id₀ i₀)
    (hu : UniqueKeys rel env) (hnew : ¬ Stored rel env key) : UniqueKeys rel env' := by
  unfold UniqueKeys at hu ⊢
  unfold Stored at hnew
  rw [h.heapPages_eq] at hu hnew
  rw [h'.heapPages_eq]
  intro id hid id' hid' i j k hi hj
  rcases (hins.rows id hid i k).mp hi with ⟨hold, hi⟩ | ⟨rfl, rfl, rfl⟩
  · rcases (hins.rows id' hid' j k).mp hj with ⟨hold', hj⟩ | ⟨rfl, rfl, rfl⟩
    · exact hu id hold id' hold' i j k hi hj
    · exact absurd ⟨id, hold, i, hi⟩ hnew
  · rcases (hins.rows id' hid' j k).mp hj with ⟨hold', hj⟩ | ⟨rfl, rfl, -⟩
    · exact absurd ⟨id', hold', j, hj⟩ hnew
    · exact ⟨rfl, rfl⟩

/-- **One insert**: it does what it is to do exactly when the rows with its
    key are where the check looks. -/
theorem meetsKeyCheck_iff (h : TableInv rel env keys pages) (hu : UniqueKeys rel env)
    (hadm : Admissible rel env row) :
    MeetsKeyCheck crc32c rel env row ticks ↔ InRange rel env row.key := by
  constructor
  · intro hmeets
    rw [h.inRange_iff]
    intro id hid i hi
    have hid' : id ∈ heapPages rel env := by rwa [h.heapPages_eq]
    by_cases hf : Found rel env row.key
    · obtain ⟨hne, j, hj⟩ := hf
      obtain ⟨_, h0⟩ | ⟨n, k, -, -, hpage⟩ := h.slotOf_cases row.key
      · exact absurd h0 hne
      · exact (hu _ (by rw [h.heapPages_eq]; exact List.mem_of_getElem? hpage) id hid' j i _ hj hi).1
    · -- a row that is not found is taken again
      obtain ⟨exec, ticks', herr, -⟩ := hmeets.1 ⟨id, hid', i, hi⟩
      obtain ⟨exec', env', _, _, _, _, hdone, -⟩ := insertRow_taken crc32c row ticks h hadm hf
      rw [hdone] at herr
      simp at herr
  · intro hr
    refine ⟨fun hs => ?_, fun hs => ?_⟩
    · obtain ⟨exec, hrun, hret⟩ := insertRow_found crc32c row ticks h (h.found_of_stored hr hs)
      exact ⟨exec, ticks, hrun, hret⟩
    · obtain ⟨exec, env', _, _, _, _, hrun, -⟩ := insertRow_taken crc32c row ticks h hadm
        fun hf => hs (h.stored_of_found hf)
      exact ⟨exec, env', hrun⟩

/-- A stored key that is not found is stored twice. -/
theorem insertRow_twice (h : TableInv rel env keys pages) (hadm : Admissible rel env row)
    (hf : ¬ Found rel env row.key) (hs : Stored rel env row.key) :
    ∃ exec env', insertRow crc32c rel env row ticks = .ok (.done, exec, env') ∧
      ¬ UniqueKeys rel env' := by
  obtain ⟨exec, env', keys', pages', id₀, i₀, hrun, hinv, hins⟩ :=
    insertRow_taken crc32c row ticks h hadm hf
  refine ⟨exec, env', hrun, fun hu => ?_⟩
  obtain ⟨id, hid, i, hi⟩ := hs
  rw [h.heapPages_eq] at hid
  unfold UniqueKeys at hu
  rw [hinv.heapPages_eq] at hu
  have hold := (hins.rows id (hins.keeps id hid) i row.key).mpr (Or.inl ⟨hid, hi⟩)
  have hnew := (hins.rows id₀ hins.mem i₀ row.key).mpr (Or.inr ⟨rfl, rfl, rfl⟩)
  obtain ⟨rfl, rfl⟩ := hu id (hins.keeps id hid) id₀ hins.mem i i₀ row.key hold hnew
  exact hins.slot_new hid row.key hi

/-- An insert keeps the table. -/
theorem insertRow_inv {r : ExecResult} {exec : BtreeInsertExec} {env' : ExecEnv}
    (h : TableInv rel env keys pages) (hadm : Admissible rel env row)
    (hrun : insertRow crc32c rel env row ticks = .ok (r, exec, env')) :
    (∃ keys' pages', TableInv rel env' keys' pages') ∧
      (UniqueKeys rel env → InRange rel env row.key → UniqueKeys rel env') := by
  by_cases hf : Found rel env row.key
  · obtain ⟨exec', hrun', -⟩ := insertRow_found crc32c row ticks h hf
    obtain ⟨-, -, rfl⟩ : r = .error ∧ exec = exec' ∧ env' = { env with ticks := ticks } := by
      simpa using hrun.symm.trans hrun'
    exact ⟨⟨keys, pages, h.withTicks ticks⟩, fun hu _ => hu⟩
  · obtain ⟨exec', env'', keys', pages', id₀, i₀, hrun', hinv, hins⟩ :=
      insertRow_taken crc32c row ticks h hadm hf
    obtain ⟨-, -, rfl⟩ : r = .done ∧ exec = exec' ∧ env' = env'' := by
      simpa using hrun.symm.trans hrun'
    exact ⟨⟨keys', pages', hinv⟩, fun hu hr =>
      hins.uniqueKeys h hinv hu fun hs => hf (h.found_of_stored hr hs)⟩

end insert

/-! ## Section 6: Runs of inserts -/

theorem tableInv_reachable {crc32c : UInt32 → List UInt8 → UInt32} {rel : Relation} {env : ExecEnv}
    (h : ((btreeTable crc32c rel).restrict fun env a => InRange rel env a.1.key).Reachable env) :
    (∃ keys pages, TableInv rel env keys pages) ∧ UniqueKeys rel env := by
  refine h.invariant (fun env => (∃ keys pages, TableInv rel env keys pages) ∧ UniqueKeys rel env) ?_ ?_
  · intro env hnew
    have hinv := hnew.inv
    refine ⟨⟨[], [], hinv⟩, ?_⟩
    unfold UniqueKeys
    rw [hinv.heapPages_eq]
    simp
  · rintro env ⟨row, ticks⟩ env' ⟨⟨keys, pages, hinv⟩, hu⟩ ⟨⟨hadm, r, exec, hrun⟩, hr⟩
    obtain ⟨hinv', hu'⟩ := insertRow_inv crc32c row ticks hinv hadm hrun
    exact ⟨hinv', hu' hu hr⟩

/-- **Unique keys**: in every run of inserts whose rows are in range, keys are
    unique in every state reached, and the next insert does what it is to do
    exactly when it is in range too. -/
theorem btree_keys_unique (crc32c : UInt32 → List UInt8 → UInt32) (rel : Relation) (env : ExecEnv)
    (h : ((btreeTable crc32c rel).restrict fun env a => InRange rel env a.1.key).Reachable env) :
    UniqueKeys rel env ∧ ∀ row ticks, Admissible rel env row →
      (MeetsKeyCheck crc32c rel env row ticks ↔ InRange rel env row.key) := by
  obtain ⟨⟨keys, pages, hinv⟩, hu⟩ := tableInv_reachable h
  exact ⟨hu, fun row ticks hadm => meetsKeyCheck_iff crc32c row ticks hinv hu hadm⟩

/-- A new table with root page 200, and pages 201 and 202 in the ring. -/
def newTableEnv : ExecEnv where
  pool :=
    { superblock := none
      cached := fun id =>
        if id = 200 then some (btree_init_root_kpage (newFrame 200 KDS_PAGE_FLAG_ALLOC))
        else if id = 201 ∨ id = 202 then some (newFrame id KDS_PAGE_FLAG_ALLOC) else none
      refcnt := fun _ => 0
      disk := fun id => newFrame id 0
      fail := fun _ => none }
  staged := [201, 202]
  wal :=
    { buf := ⟨fun _ => 0, 0, 0, KDS_LSN_INVALID, 129, 0, 1⟩
      flush_lsn := KDS_LSN_INVALID
      checkpointed_lsn := KDS_LSN_INVALID
      prev_lsn := KDS_LSN_INVALID }
  ticks := []

def newTableRel : Relation := ⟨200, .btree⟩

theorem newTableEnv_new : NewTable newTableRel newTableEnv :=
  ⟨⟨rfl, newFrame 200 KDS_PAGE_FLAG_ALLOC, KDS_PAGE_FLAG_ALLOC, rfl, rfl⟩, by decide, by decide,
    by simp [newTableRel, newTableEnv]⟩

/-- A row of eight bytes, its key. -/
def keyRow (key : UInt64) : Row := ⟨Mem.write (fun _ => 0) 0 (u64Bytes key), 8⟩

theorem keyRow_key (key : UInt64) : (keyRow key).key = key :=
  Mem.readU64_of_read (Mem.read_write_same _ _ _)

theorem keyRow_ok (key : UInt64) : (keyRow key).Ok := by
  constructor <;> simp [keyRow]

theorem newTable_slotOf : slotOf newTableRel newTableEnv 5 = 0 := by
  rw [slotOf, newTableEnv_new.inv.node]
  rfl

theorem newTable_admissible : Admissible newTableRel newTableEnv (keyRow 5) := by
  refine ⟨keyRow_ok 5, fun _ => ⟨by simp [newTableEnv], ?_⟩⟩
  rw [newTableEnv_new.inv.node]
  decide

theorem btree_keys_unique_first_insert :
    UniqueKeys newTableRel newTableEnv ∧
      MeetsKeyCheck crc32c_le newTableRel newTableEnv (keyRow 5) [true] := by
  obtain ⟨hu, hnext⟩ := btree_keys_unique crc32c_le newTableRel newTableEnv (.init newTableEnv_new)
  refine ⟨hu, (hnext (keyRow 5) [true] newTable_admissible).mpr ?_⟩
  intro n k id i hk
  rw [newTableEnv_new.inv.node] at hk
  simp at hk

/-- The row with key 5 inserted into a new table, and once more: the second
    insert ends in DONE as well, and the table has two rows with key 5. -/
theorem second_row_5_is_taken :
    ∃ exec₁ env₁ exec₂ env₂,
      insertRow crc32c_le newTableRel newTableEnv (keyRow 5) [] = .ok (.done, exec₁, env₁) ∧
        Stored newTableRel env₁ 5 ∧
        insertRow crc32c_le newTableRel env₁ (keyRow 5) [] = .ok (.done, exec₂, env₂) ∧
        ¬ UniqueKeys newTableRel env₂ := by
  have hinv := newTableEnv_new.inv
  have hf : ¬ Found newTableRel newTableEnv (keyRow 5).key := by
    rw [keyRow_key]
    exact fun hf => hf.1 newTable_slotOf
  have hneed : NeedsPage newTableRel newTableEnv (keyRow 5) :=
    Or.inl (by rw [keyRow_key]; exact newTable_slotOf)
  obtain ⟨exec₁, env₁, hrun₁, f₀, f, page, hempty, hadded, hnode, hl⟩ :=
    insertRow_new crc32c_le (keyRow 5) [] hinv (keyRow_ok 5) hf hneed rfl (by decide)
  obtain ⟨pages, hinv₁, hins⟩ := hinv.add_page rfl (by decide) hempty hadded hnode hl
  rw [keyRow_key] at hinv₁ hins
  have hstored : Stored newTableRel env₁ 5 := by
    refine ⟨201, ?_, _, (hins.rows _ hins.mem _ _).mpr (Or.inr ⟨rfl, rfl, rfl⟩)⟩
    rw [hinv₁.heapPages_eq]
    exact hins.mem
  -- the leaf is `[5]` now, and 5 is not above it: the check looks into the root page
  have hf₁ : ¬ Found newTableRel env₁ (keyRow 5).key := by
    rw [keyRow_key]
    refine fun hf => hf.1 ?_
    rw [slotOf, hinv₁.node]
    rfl
  have hadm₁ : Admissible newTableRel env₁ (keyRow 5) := by
    refine ⟨keyRow_ok 5, fun _ => ⟨by rw [hl.2]; simp, ?_⟩⟩
    rw [hinv₁.node]
    exact (by decide : 1 < 4)
  obtain ⟨exec₂, env₂, hrun₂, hdup⟩ := insertRow_twice crc32c_le (keyRow 5) [] hinv₁ hadm₁ hf₁
    (by rw [keyRow_key]; exact hstored)
  exact ⟨exec₁, env₁, exec₂, env₂, hrun₁, hstored, hrun₂, hdup⟩

end Kds
