import Kds.Btree.Ops

/-! # The descent in a B-tree

    The pool seen as a store of search-tree nodes (`Pool.tree`), what the
    small pool operations do to it, and the descent: on a tree of the right
    shape the cursor follows the search path of the key, whatever its order.
-/

open Bytes SearchTree

namespace Kds

/-! ## Section 1: The pool as a store of nodes -/

/-- The node in page `id`. -/
def Pool.tree (p : Pool) : Store PageId TupleId :=
  fun id => (btreeData (p.frame id).page).treeNode

/-- A B-tree of level `l` at `root`: well-formed, on pages of a B-tree type. -/
structure IsBtree (p : Pool) (l : Nat) (root : PageId) : Prop where
  wellFormed : WellFormed p.tree BTREE_MAX_KEYS l root
  typed : ∀ id ∈ pages p.tree l root, kds_is_btree_page (p.frame id) = true

/-- What a search needs of it: the right shape and order, where two slots may
    name one page. -/
structure IsSearchTree (p : Pool) (l : Nat) (root : PageId) : Prop where
  shape : Shape p.tree BTREE_MAX_KEYS l root
  ordered : Ordered p.tree l root
  typed : ∀ id ∈ pages p.tree l root, kds_is_btree_page (p.frame id) = true

theorem IsBtree.searchTree {p : Pool} {l : Nat} {root : PageId} (h : IsBtree p l root) :
    IsSearchTree p l root :=
  ⟨h.wellFormed.shape, h.wellFormed.ordered, h.typed⟩

/-- From `p` to `p'` the nodes become `σ`; page types and the absence of failures stay. -/
structure Pool.Becomes (p p' : Pool) (σ : Store PageId TupleId) : Prop where
  tree : p'.tree = σ
  typed : ∀ id, kds_is_btree_page (p'.frame id) = kds_is_btree_page (p.frame id)
  noFailure : p.NoFailure → p'.NoFailure

theorem Pool.Becomes.refl (p : Pool) : p.Becomes p p.tree := ⟨rfl, fun _ => rfl, fun h => h⟩

theorem Pool.Becomes.trans {p p' p'' : Pool} {σ σ' : Store PageId TupleId}
    (h : p.Becomes p' σ) (h' : p'.Becomes p'' σ') : p.Becomes p'' σ' :=
  ⟨h'.tree, fun id => (h'.typed id).trans (h.typed id), fun hf => h'.noFailure (h.noFailure hf)⟩

/-- A change of one frame that keeps its type. -/
theorem becomes_setFrame {p : Pool} {id : PageId} {f : Frame} {n : SearchTree.Node PageId TupleId}
    (hn : (btreeData f.page).treeNode = n)
    (htype : kds_is_btree_page f = kds_is_btree_page (p.frame id)) :
    p.Becomes (p.setFrame id f) (Function.update p.tree id n) := by
  refine ⟨?_, fun j => ?_, fun h => h⟩
  · funext j
    by_cases hj : j = id
    · subst hj
      simp [Pool.tree, hn]
    · simp [Pool.tree, Pool.frame_setFrame_ne p f hj, Function.update_of_ne hj]
  · by_cases hj : j = id
    · subst hj
      rw [Pool.frame_setFrame_self, htype]
    · rw [Pool.frame_setFrame_ne p f hj]

theorem becomes_setFrame_same {p : Pool} {id : PageId} {f : Frame}
    (hn : btreeData f.page = btreeData (p.frame id).page)
    (htype : kds_is_btree_page f = kds_is_btree_page (p.frame id)) :
    p.Becomes (p.setFrame id f) p.tree := by
  have h := becomes_setFrame (congrArg BtreePageData.treeNode hn) htype
  rwa [show Function.update p.tree id (btreeData (p.frame id).page).treeNode = p.tree from
    Function.update_eq_self id p.tree] at h

/-- From `p` to `p'` every page reads the same: only pins and the cache differ. -/
structure Pool.Same (p p' : Pool) : Prop where
  frame : p'.frame = p.frame
  noFailure : p.NoFailure → p'.NoFailure
  loaded : ∀ id, (p.cached id).isSome → (p'.cached id).isSome

theorem Pool.Same.refl (p : Pool) : p.Same p := ⟨rfl, fun h => h, fun _ h => h⟩

theorem Pool.Same.trans {p p' p'' : Pool} (h : p.Same p') (h' : p'.Same p'') : p.Same p'' :=
  ⟨h'.frame.trans h.frame, fun hf => h'.noFailure (h.noFailure hf),
    fun id hid => h'.loaded id (h.loaded id hid)⟩

theorem Pool.Same.setFrame {p p' : Pool} (h : p.Same p') (id : PageId) (f : Frame) :
    (p.setFrame id f).Same (p'.setFrame id f) := by
  refine ⟨?_, h.noFailure, fun j hj => ?_⟩
  · funext j
    by_cases hji : j = id
    · subst hji
      rw [Pool.frame_setFrame_self, Pool.frame_setFrame_self]
    · rw [Pool.frame_setFrame_ne _ _ hji, Pool.frame_setFrame_ne _ _ hji, h.frame]
  · by_cases hji : j = id
    · subst hji
      simp [Pool.setFrame]
    · simp only [Pool.setFrame, Function.update_of_ne hji] at hj ⊢
      exact h.loaded j hj

theorem Pool.Same.becomes {p p' : Pool} (h : p.Same p') : p.Becomes p' p.tree :=
  ⟨by unfold Pool.tree; rw [h.frame], fun id => by rw [h.frame], h.noFailure⟩

theorem Pool.Same.tree {p p' : Pool} (h : p.Same p') : p'.tree = p.tree := h.becomes.tree

theorem Pool.Same.typed {p p' : Pool} (h : p.Same p') (id : PageId) :
    kds_is_btree_page (p'.frame id) = kds_is_btree_page (p.frame id) := h.becomes.typed id

theorem Pool.Becomes.same {p p' p'' : Pool} {σ : Store PageId TupleId} (h : p.Becomes p' σ)
    (hs : p'.Same p'') : p.Becomes p'' σ :=
  h.trans (h.tree ▸ hs.becomes)

theorem same_pin (p : Pool) (id : PageId) : p.Same (kds_buf_pin p id) :=
  ⟨rfl, fun h => h, fun _ h => h⟩

theorem same_unpin (p : Pool) (id : PageId) : p.Same (kds_buf_unpin p id) :=
  ⟨rfl, fun h => h, fun _ h => h⟩

theorem becomes_setPageDirty (p : Pool) (id : PageId) : p.Becomes (setPageDirty p id) p.tree :=
  becomes_setFrame_same rfl rfl

/-- Bytes of the page header are not node data. -/
theorem btreeData_write_hdr (m : Mem) {bs : List UInt8} (h : bs.length = KDS_PAGE_HDR_SIZE) :
    btreeData (m.write 0 bs) = btreeData m := by
  have hword : ∀ i, btreeWord (m.write 0 bs) i = btreeWord m i := by
    intro i
    apply Mem.readU64_congr
    intro a ha _
    exact Mem.write_outside m (by simp at h ha ⊢; omega)
  simp only [btreeData, hword]

theorem becomes_commit_page_hdr (p : Pool) (id : PageId) :
    p.Becomes (kds_commit_page_hdr p id) p.tree :=
  becomes_setFrame_same (btreeData_write_hdr _ (PageHdr.length_bytes _)) rfl

/-- The node of a page of zeroes. -/
def emptyNode : SearchTree.Node PageId TupleId := ⟨0, [], [0]⟩

theorem treeNode_zero_page : (btreeData fun _ => 0).treeNode = emptyNode := by
  have hword : ∀ i, btreeWord (fun _ => 0) i = 0 := by
    intro i
    show UInt64.ofNat (leNat ((List.range 8).map fun _ => 0)) = 0
    decide
  simp only [btreeData, hword]
  rfl

theorem becomes_free_page (p : Pool) (id : PageId) :
    p.Becomes (kds_free_page p id) (Function.update p.tree id emptyNode) :=
  becomes_setFrame treeNode_zero_page rfl

theorem store_btree_node_eq {p : Pool} {node : BtreeNode} {id : PageId}
    (hframe : node.frame = some id) (htype : kds_is_btree_page (p.frame id) = true) :
    store_btree_node p node = .ok (p.setFrame id
      { p.frame id with page := (p.frame id).page.write KDS_PAGE_HDR_SIZE node.bytes }) := by
  simp [store_btree_node, hframe, htype]

/-- `store_btree_node` replaces the node of its page. -/
theorem store_btree_node_ok {p : Pool} {node : BtreeNode} {id : PageId}
    (hframe : node.frame = some id) (htype : kds_is_btree_page (p.frame id) = true) :
    ∃ p', store_btree_node p node = .ok p' ∧
      p.Becomes p' (Function.update p.tree id node.treeNode) :=
  ⟨_, store_btree_node_eq hframe htype, becomes_setFrame (by rw [btreeData_write]) rfl⟩

/-- `load_btree_node` reads the node of the page. -/
theorem load_btree_node_ok (p : Pool) (id : PageId)
    (htype : kds_is_btree_page (p.frame id) = true) :
    ∃ node, load_btree_node p id = .ok node ∧ node.frame = some id ∧ node.treeNode = p.tree id :=
  ⟨{ btreeData (p.frame id).page with frame := some id }, by simp [load_btree_node, htype], rfl, rfl⟩

theorem lookup_same {p : Pool} (h : p.NoFailure) (id : PageId) :
    ∃ p', kds_buf_lookup_or_load p id = (.ok id, p') ∧ p.Same p' := by
  obtain ⟨p', hp', hframe, hfail, hloaded⟩ := lookup_or_load_ok h id
  exact ⟨p', hp', hframe, fun _ => hfail, hloaded⟩

/-! ## Section 2: One step of the descent -/

theorem arrGet_set_self {α : Type} {n : Nat} (a : Vector α n) {i : Nat} (h : i < n) (x : α) :
    arrGet (a.set i x) (i : Int) = .ok x := by
  rw [arrGet_nat _ h, Vector.getElem_set_self]

theorem arrGet_set_ne {α : Type} {n : Nat} (a : Vector α n) {i j : Nat} (h : i < n) (hne : j ≠ i)
    (x : α) : arrGet (a.set i x) (j : Int) = arrGet a (j : Int) := by
  rcases Nat.lt_or_ge j n with hj | hj
  · rw [arrGet_nat _ hj, arrGet_nat _ hj, Vector.getElem_set_ne h hj (Ne.symm hne)]
  · simp [arrGet, Nat.not_lt.mpr hj]

/-- A node in a pool that is a node of a tree has its keys inside the array. -/
theorem key_count_le_of_nodeOk {node : BtreeNode} {σ : Store PageId TupleId} {max l : Nat}
    {id : PageId} (htree : node.treeNode = σ id) (hok : NodeOk σ max l id) :
    node.key_count.toNat ≤ 4 := by
  apply BtreePageData.key_count_le
  rw [htree]
  intro h0
  have := hok.slots_eq
  rw [h0] at this
  simp at this

/-- The duplicate test of the descent finds the key exactly when the node holds it. -/
theorem keyAt_spec {node : BtreeNode} (h : node.key_count.toNat ≤ 4)
    (hsorted : node.treeNode.keys.Pairwise (· < ·)) (key : TupleId) :
    keyAt node (position key node.treeNode.keys : Nat) key =
      .ok (decide (key ∈ node.treeNode.keys)) := by
  have hlen := BtreePageData.length_keys h
  have hpos := position_le key node.treeNode.keys
  unfold keyAt
  rw [toU64_nat (by omega)]
  split
  · rename_i hlt
    obtain ⟨k, hk⟩ : ∃ k, node.treeNode.keys[position key node.treeNode.keys]? = some k :=
      ⟨_, List.getElem?_eq_getElem (by omega)⟩
    obtain ⟨K₁, K₂, hsplit, hK₁⟩ := exists_split_of_getElem? hk
    have hget := (BtreePageData.keys_get h hsplit).2
    rw [hK₁] at hget
    rw [hget]
    show Except.ok (k == key) = _
    congr 1
    rw [beq_eq_decide, decide_eq_decide]
    constructor
    · rintro rfl
      exact List.mem_of_getElem? hk
    · intro hmem
      rw [getElem?_position hsorted hmem] at hk
      exact (Option.some.inj hk).symm
  · rename_i hge
    -- all keys are smaller
    have hnot : key ∉ node.treeNode.keys := by
      intro hmem
      have hlt := lt_of_mem_take_position key (show key ∈ node.treeNode.keys.take
        (position key node.treeNode.keys) by rwa [List.take_of_length_le (by omega)])
      exact absurd hlt (lt_irrefl key)
    simp [hnot]

/-- The cursor holds node `n` of the path at index `i`. -/
structure CursorAt (σ : Store PageId TupleId) (key : TupleId) (cursor : BtreeCursor) (i : Nat)
    (n : PageId) : Prop where
  node : ∃ node, arrGet cursor.nodes (i : Int) = .ok node ∧ node.frame = some n ∧
    node.treeNode = σ n
  position : arrGet cursor.positions (i : Int) = .ok ((position key (σ n).keys : Nat) : Int)

/-- Two cursors with the same first `d` entries. -/
def SameBelow (d : Nat) (c c' : BtreeCursor) : Prop :=
  ∀ i < d, arrGet c'.nodes (i : Int) = arrGet c.nodes (i : Int) ∧
    arrGet c'.positions (i : Int) = arrGet c.positions (i : Int)

theorem CursorAt.of_sameBelow {σ : Store PageId TupleId} {key : TupleId} {c c' : BtreeCursor}
    {d i : Nat} {n : PageId} (h : CursorAt σ key c i n) (hs : SameBelow d c c') (hi : i < d) :
    CursorAt σ key c' i n := by
  obtain ⟨hn, hp⟩ := hs i hi
  exact ⟨by rw [hn]; exact h.node, by rw [hp]; exact h.position⟩

/-- One level of the descent: the node is loaded into the cursor, and the
    search stops there or goes on in the child at the key's position. -/
theorem searchLoop_step {p : Pool} {σ : Store PageId TupleId} {cursor : BtreeCursor} {id : PageId}
    {l : Nat} (key : TupleId) (htree : p.tree = σ) (hfail : p.NoFailure)
    (htype : kds_is_btree_page (p.frame id) = true) (hok : NodeOk σ BTREE_MAX_KEYS l id)
    (hsorted : (σ id).keys.Pairwise (· < ·)) (hdepth : cursor.depth < 16) (n : Nat) :
    ∃ cursor' p', p.Same p' ∧ cursor'.depth = cursor.depth ∧
      SameBelow cursor.depth cursor cursor' ∧ CursorAt σ key cursor' cursor.depth id ∧
      (key ∈ (σ id).keys →
        searchLoop p cursor id key (n + 1) = .ok (.error .EEXIST, cursor', p')) ∧
      (key ∉ (σ id).keys → l = 0 →
        searchLoop p cursor id key (n + 1) = .ok (.ok (), cursor', p')) ∧
      (∀ s, key ∉ (σ id).keys → l ≠ 0 → (σ id).slots[position key (σ id).keys]? = some s →
        searchLoop p cursor id key (n + 1) =
          searchLoop p' { cursor' with depth := cursor.depth + 1 } s key n) := by
  obtain ⟨p', hload, hsm⟩ := lookup_same hfail id
  obtain ⟨node, hnode, hframe, hnt⟩ :=
    load_btree_node_ok p' id (by rw [hsm.typed]; exact htype)
  rw [hsm.tree, htree] at hnt
  have hle := key_count_le_of_nodeOk hnt hok
  have hpos := btree_search_position_spec hle key
  have hkey := keyAt_spec hle (by rw [hnt]; exact hsorted) key
  rw [hnt] at hpos hkey
  have hlevel : node.level = 0 ↔ l = 0 := by
    have h := BtreePageData.treeNode_level node.toBtreePageData
    rw [hnt, hok.level] at h
    constructor
    · intro h0; rw [h, h0]; rfl
    · intro h0; exact UInt64.toNat_inj.mp (by rw [← h, h0]; rfl)
  set cursor' : BtreeCursor :=
    { nodes := cursor.nodes.set cursor.depth node
      positions := cursor.positions.set cursor.depth ((position key (σ id).keys : Nat) : Int)
      depth := cursor.depth } with hcursor'
  -- the part of the body that is common to the three ways on
  have hbody : searchLoop p cursor id key (n + 1) =
      if key ∈ (σ id).keys then .ok (.error .EEXIST, cursor', p')
      else if node.level = 0 then .ok (.ok (), cursor', p')
      else arrGet node.slots ((position key (σ id).keys : Nat) : Int) >>= fun child =>
        searchLoop p' { cursor' with depth := cursor.depth + 1 } child key n := by
    rw [searchLoop, hload]
    simp only [hnode, hpos, hkey, bind, Except.bind, arrSet_nat cursor.nodes hdepth,
      arrSet_nat cursor.positions hdepth, decide_eq_true_eq, hcursor']
  refine ⟨cursor', p', hsm, rfl, ?_, ⟨⟨node, ?_, hframe, hnt⟩, ?_⟩, ?_, ?_, ?_⟩
  · intro i hi
    exact ⟨arrGet_set_ne _ hdepth (by omega) _, arrGet_set_ne _ hdepth (by omega) _⟩
  · exact arrGet_set_self _ hdepth _
  · exact arrGet_set_self _ hdepth _
  · intro hmem
    rw [hbody, if_pos hmem]
  · intro hmem hl
    rw [hbody, if_neg hmem, if_pos (hlevel.mpr hl)]
  · intro s hmem hl hs
    obtain ⟨S₁, S₂, hsplit, hS₁⟩ := exists_split_of_getElem? hs
    rw [← hnt] at hsplit
    have hget := (BtreePageData.slots_get hle hsplit).2
    rw [hS₁] at hget
    rw [hbody, if_neg hmem, if_neg fun h => hl (hlevel.mp h), hget]
    rfl

/-! ## Section 3: The descent -/

/-- The descent fills the cursor with the search path. -/
theorem searchLoop_spec {σ : Store PageId TupleId} (key : TupleId) (l : Nat) (id : PageId)
    (hshape : Shape σ BTREE_MAX_KEYS l id) :
    ∀ (p : Pool) (cursor : BtreeCursor) (fuel : Nat), Ordered σ l id → p.tree = σ →
      p.NoFailure → (∀ j ∈ pages σ l id, kds_is_btree_page (p.frame j) = true) →
      cursor.depth + fuel = 16 → (searchPath σ key l id).length ≤ fuel →
      ∃ cursor' p' pre n, searchPath σ key l id = pre ++ [n] ∧
        searchLoop p cursor id key fuel =
          .ok (if key ∈ (σ n).keys then .error .EEXIST else .ok (), cursor', p') ∧
        p.Same p' ∧ cursor'.depth = cursor.depth + pre.length ∧
        SameBelow cursor.depth cursor cursor' ∧
        ∀ i m, (searchPath σ key l id)[i]? = some m → CursorAt σ key cursor' (cursor.depth + i) m := by
  refine search_induction key ?_ ?_ l id hshape
  -- the path ends here: the key is in the node, or it is a leaf
  · intro l id hshape hpath hstop p cursor fuel hord htree hfail htype hdepth hfuel
    rw [hpath, List.length_singleton] at hfuel
    obtain ⟨n, rfl⟩ : ∃ n, fuel = n + 1 := ⟨fuel - 1, by omega⟩
    have hsorted : (σ id).keys.Pairwise (· < ·) := by
      cases l with
      | zero => exact hord
      | succ l => exact hord.1
    obtain ⟨cursor', p', hsm, hdep, hsame, hat, hfound, hleaf, _⟩ :=
      searchLoop_step key htree hfail (htype id (self_mem_pages _ _ _)) hshape.nodeOk
        hsorted (show cursor.depth < 16 by omega) n
    refine ⟨cursor', p', [], id, hpath, ?_, hsm, hdep, hsame, ?_⟩
    · by_cases hkey : key ∈ (σ id).keys
      · rw [if_pos hkey, hfound hkey]
      · rw [if_neg hkey, hleaf hkey (hstop.resolve_left hkey)]
    · intro i m hm
      rw [hpath] at hm
      obtain ⟨rfl, rfl⟩ : i = 0 ∧ id = m := by cases i <;> simp_all
      exact hat
  -- the path goes on below the slot, with one turn less
  · intro l id s hshape hkey hs hpath ih p cursor fuel hord htree hfail htype hdepth hfuel
    rw [hpath, List.length_cons] at hfuel
    obtain ⟨n, rfl⟩ : ∃ n, fuel = n + 1 := ⟨fuel - 1, by omega⟩
    have hmem := List.mem_of_getElem? hs
    obtain ⟨cursor', p', hsm, hdep, hsame, hat, _, _, hgo⟩ :=
      searchLoop_step key htree hfail (htype id (self_mem_pages _ _ _)) hshape.nodeOk
        hord.1 (show cursor.depth < 16 by omega) n
    obtain ⟨cursor'', p'', pre, m, hpre, hrun, hsm', hdep', hsame', hats⟩ :=
      ih p' { cursor' with depth := cursor.depth + 1 } n (hord.2.2 s hmem) (hsm.tree.trans htree)
        (hsm.noFailure hfail)
        (fun j hj => by rw [hsm.typed]; exact htype j (pages_subset_of_slot hmem j hj))
        (by show cursor.depth + 1 + n = 16; omega) (by omega)
    refine ⟨cursor'', p'', id :: pre, m, by rw [hpath, hpre]; rfl, ?_, hsm.trans hsm', ?_, ?_, ?_⟩
    · rw [hgo s hkey (by omega) hs, hrun]
    · rw [hdep', List.length_cons]
      show cursor.depth + 1 + _ = _
      omega
    · intro i hi
      obtain ⟨h₁, h₂⟩ := hsame i hi
      obtain ⟨h₁', h₂'⟩ := hsame' i (Nat.lt_succ_of_lt hi)
      exact ⟨h₁'.trans h₁, h₂'.trans h₂⟩
    · intro i j hj
      rw [hpath] at hj
      cases i with
      | zero =>
        obtain rfl : id = j := by simpa using hj
        have hat' : CursorAt σ key { cursor' with depth := cursor.depth + 1 } cursor.depth id :=
          ⟨hat.node, hat.position⟩
        exact hat'.of_sameBelow hsame' (Nat.lt_succ_self _)
      | succ i =>
        have h := hats i j (by simpa using hj)
        rw [show cursor.depth + (i + 1) = cursor.depth + 1 + i by omega]
        exact h

/-- A path longer than the cursor: the depth limit is reached. -/
theorem searchLoop_too_deep {σ : Store PageId TupleId} (key : TupleId) (l : Nat) (id : PageId)
    (hshape : Shape σ BTREE_MAX_KEYS l id) :
    ∀ (p : Pool) (cursor : BtreeCursor) (fuel : Nat), Ordered σ l id → p.tree = σ →
      p.NoFailure → (∀ j ∈ pages σ l id, kds_is_btree_page (p.frame j) = true) →
      cursor.depth + fuel = 16 → fuel < (searchPath σ key l id).length →
      ∃ cursor' p', searchLoop p cursor id key fuel = .ok (.error .E2BIG, cursor', p') ∧
        cursor'.depth = 16 := by
  refine search_induction key ?_ ?_ l id hshape
  · intro l id _ hpath _ p cursor fuel _ _ _ _ hdepth hfuel
    rw [hpath, List.length_singleton] at hfuel
    obtain rfl : fuel = 0 := by omega
    exact ⟨cursor, p, rfl, by omega⟩
  · intro l id s hshape hkey hs hpath ih p cursor fuel hord htree hfail htype hdepth hfuel
    cases fuel with
    | zero => exact ⟨cursor, p, rfl, by omega⟩
    | succ n =>
      rw [hpath, List.length_cons] at hfuel
      have hmem := List.mem_of_getElem? hs
      obtain ⟨cursor', p', hsm, hdep, _, _, _, _, hgo⟩ :=
        searchLoop_step key htree hfail (htype id (self_mem_pages _ _ _)) hshape.nodeOk
          hord.1 (show cursor.depth < 16 by omega) n
      obtain ⟨cursor'', p'', hrun, hend⟩ :=
        ih p' { cursor' with depth := cursor.depth + 1 } n (hord.2.2 s hmem) (hsm.tree.trans htree)
          (hsm.noFailure hfail)
          (fun j hj => by rw [hsm.typed]; exact htype j (pages_subset_of_slot hmem j hj))
          (by show cursor.depth + 1 + n = 16; omega) (by omega)
      exact ⟨cursor'', p'', by rw [hgo s hkey (by omega) hs, hrun], hend⟩

/-- Unpinning the path changes no page. -/
theorem cleanupFrom_ok (count : Nat) : ∀ (nodes : Vector BtreeNode 16) (p : Pool) (i : Nat),
    i + count ≤ 16 → ∃ nodes' p', cleanupFrom nodes p i count = .ok (nodes', p') ∧
      p.Same p' := by
  induction count with
  | zero => intro nodes p i _; exact ⟨nodes, p, rfl, Pool.Same.refl p⟩
  | succ count ih =>
    intro nodes p i hi
    simp only [cleanupFrom, arrGet_nat nodes (show i < 16 by omega), bind, Except.bind]
    cases hf : nodes[i].frame with
    | none => exact ih nodes p (i + 1) (by omega)
    | some frame =>
      simp only [arrSet_nat nodes (show i < 16 by omega)]
      obtain ⟨nodes', p', hrun, hsm⟩ := ih (nodes.set i { nodes[i] with frame := none })
        (kds_buf_unpin p frame) (i + 1) (by omega)
      exact ⟨nodes', p', hrun, (same_unpin p frame).trans hsm⟩

theorem btree_cursor_cleanup_ok (cursor : BtreeCursor) (p : Pool) (h : cursor.depth < 16) :
    ∃ cursor' p', btree_cursor_cleanup cursor p = .ok (cursor', p') ∧
      cursor'.depth = cursor.depth ∧ p.Same p' := by
  obtain ⟨nodes, p', hrun, hsm⟩ := cleanupFrom_ok (cursor.depth + 1) cursor.nodes p 0 (by omega)
  exact ⟨{ cursor with nodes := nodes }, p', by simp [btree_cursor_cleanup, hrun, bind, Except.bind],
    rfl, hsm⟩

/-- At the depth limit the cleanup runs over the end of `nodes`. -/
theorem cleanupFrom_overrun (count : Nat) : ∀ (nodes : Vector BtreeNode 16) (p : Pool) (i : Nat),
    i ≤ 16 → 16 < i + count → cleanupFrom nodes p i count = .error .outOfBounds := by
  induction count with
  | zero => intro nodes p i _ _; omega
  | succ count ih =>
    intro nodes p i hi hlt
    rcases Nat.lt_or_ge i 16 with hin | hout
    · simp only [cleanupFrom, arrGet_nat nodes hin, bind, Except.bind]
      cases hf : nodes[i].frame with
      | none => exact ih nodes p (i + 1) (by omega) (by omega)
      | some frame =>
        simp only [arrSet_nat nodes hin]
        exact ih _ _ (i + 1) (by omega) (by omega)
    · have hget : arrGet nodes (i : Int) = .error .outOfBounds := by
        rw [arrGet, dif_neg]
        omega
      simp only [cleanupFrom, hget, bind, Except.bind]

theorem btree_cursor_cleanup_overrun {cursor : BtreeCursor} (p : Pool) (h : cursor.depth = 16) :
    btree_cursor_cleanup cursor p = .error .outOfBounds := by
  simp [btree_cursor_cleanup, cleanupFrom_overrun (cursor.depth + 1) cursor.nodes p 0 (by omega)
    (by omega), bind, Except.bind]

/-- The descent from the root of a B-tree. -/
theorem btree_cursor_search_spec {p : Pool} {L : Nat} {root : PageId} (key : TupleId)
    (h : IsSearchTree p L root) (hfail : p.NoFailure)
    (hlen : (searchPath p.tree key L root).length ≤ 16) :
    ∃ cursor p' pre n, searchPath p.tree key L root = pre ++ [n] ∧
      btree_cursor_search p root key =
        .ok (if key ∈ (p.tree n).keys then .error .EEXIST else .ok (), cursor, p') ∧
      p.Same p' ∧ cursor.depth = pre.length ∧ pre.length < 16 ∧
      ∀ i m, (searchPath p.tree key L root)[i]? = some m → CursorAt p.tree key cursor i m := by
  obtain ⟨cursor, p', pre, n, hpath, hrun, hsm, hdep, _, hat⟩ :=
    searchLoop_spec key L root h.shape p btree_cursor_init 16
      h.ordered rfl hfail h.typed rfl hlen
  have hdep' : cursor.depth = pre.length := by rw [hdep]; simp [btree_cursor_init]
  refine ⟨cursor, p', pre, n, hpath, hrun, hsm, hdep', ?_, ?_⟩
  · rw [hpath, List.length_append, List.length_singleton] at hlen
    omega
  · intro i m hm
    have := hat i m hm
    rwa [show btree_cursor_init.depth + i = i by simp [btree_cursor_init]] at this

/-- The public search for a key that is there. -/
theorem kds_btree_cursor_search_found {p : Pool} {L : Nat} {root : PageId} {key : TupleId}
    (h : IsBtree p L root) (hfail : p.NoFailure) (hL : L < BTREE_MAX_DEPTH)
    (hkey : key ∈ inorder p.tree L root) :
    ∃ cursor p', kds_btree_cursor_search p root key = .ok (.error .EEXIST, cursor, p') ∧
      p.Same p' := by
  have hlen := length_searchPath_le key L root h.wellFormed.shape
  simp only [BTREE_MAX_DEPTH] at hL
  obtain ⟨cursor, p₁, pre, n, hpath, hrun, hsm, hdep, hpre, _⟩ :=
    btree_cursor_search_spec key h.searchTree hfail (by omega)
  rw [if_pos ((mem_inorder_iff_last L root h.searchTree.shape h.searchTree.ordered hpath).mp hkey)] at hrun
  have hrun' : searchLoop p btree_cursor_init root key BTREE_MAX_DEPTH =
    .ok (.error .EEXIST, cursor, p₁) := hrun
  obtain ⟨cursor', p₂, hclean, -, hsm'⟩ := btree_cursor_cleanup_ok cursor p₁ (by omega)
  exact ⟨cursor', p₂, by simp only [kds_btree_cursor_search, hrun', hclean, bind, Except.bind],
    hsm.trans hsm'⟩

/-! ## Section 4: Pools given by their nodes -/

/-- Page data with the given keys and slots in use. -/
def pageData (level : UInt64) (keys : List TupleId) (slots : List PageId) : BtreePageData where
  level := level
  key_count := UInt64.ofNat keys.length
  keys := Vector.ofFn fun i => keys.getD i 0
  slots := Vector.ofFn fun i => slots.getD i 0
  next := 0
  prev := 0

/-- A pool with nothing cached and the given nodes on disk. -/
def poolOf (nodes : PageId → BtreePageData) : Pool where
  superblock := none
  cached := fun _ => none
  refcnt := fun _ => 0
  disk := fun id =>
    { id := id
      hdr :=
        { type := if (nodes id).level = 0 then .btreeData else .btreeInternal
          crc := 0
          flags := KDS_PAGE_FLAG_ALLOC ||| KDS_PAGE_FLAG_INIT
          reserved1 := fun _ => 0 }
      page := Mem.write (fun _ => 0) KDS_PAGE_HDR_SIZE (nodes id).bytes }
  fail := fun _ => none

theorem poolOf_tree (nodes : PageId → BtreePageData) :
    (poolOf nodes).tree = fun id => (nodes id).treeNode := by
  funext id
  show (btreeData (Mem.write _ KDS_PAGE_HDR_SIZE (nodes id).bytes)).treeNode = _
  rw [btreeData_write]

theorem poolOf_typed (nodes : PageId → BtreePageData) (id : PageId) :
    kds_is_btree_page ((poolOf nodes).frame id) = true := by
  unfold kds_is_btree_page Pool.frame poolOf
  by_cases h0 : (nodes id).level = 0 <;> simp [h0]

/-- A well-formed choice of nodes gives a pool with that tree. -/
theorem poolOf_isBtree {nodes : PageId → BtreePageData} {l : Nat} {root : PageId}
    (h : WellFormed (fun id => (nodes id).treeNode) BTREE_MAX_KEYS l root) :
    IsBtree (poolOf nodes) l root ∧ (poolOf nodes).NoFailure := by
  refine ⟨⟨?_, fun id _ => poolOf_typed nodes id⟩, fun _ => rfl⟩
  rw [poolOf_tree]
  exact h

end Kds
