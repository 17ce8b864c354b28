import Kds.Btree.Index

/-! # The two searches

    `kds_btree_cursor_search` looks for the key in every node on its way down,
    `kds_index_search` in the leaf only. On a tree whose nodes are in order the
    first decides membership in the whole tree and, when the key is new, leaves
    the one path to its place in the cursor. The second misses the keys that
    the splits have moved up, so the two agree on a key exactly when no node
    above the leaves holds it.
-/

open SearchTree

namespace Kds

/-! ## Section 1: The cursor -/

/-- The cursor holds the path of `key` from the root to a leaf: every node as
    it is in the pool, the child in the slot at the position below it, and the
    number of smaller keys as the position. -/
structure IsRootPath (p : Pool) (L : Nat) (root : PageId) (key : TupleId) (cursor : BtreeCursor) :
    Prop where
  depth : cursor.depth = L
  first : ∃ node, arrGet cursor.nodes 0 = .ok node ∧ node.frame = some root
  node : ∀ i ≤ L, ∃ node id, arrGet cursor.nodes (i : Int) = .ok node ∧ node.frame = some id ∧
    id ∈ pages p.tree L root ∧ node.treeNode = p.tree id ∧ node.level.toNat = L - i
  position : ∀ i ≤ L, ∀ node, arrGet cursor.nodes (i : Int) = .ok node →
    arrGet cursor.positions (i : Int) = .ok ((node.treeNode.keys.countP (· < key) : Nat) : Int)
  link : ∀ i < L, ∀ node pos, arrGet cursor.nodes (i : Int) = .ok node →
    arrGet cursor.positions (i : Int) = .ok pos →
      ∃ next id, arrGet cursor.nodes ((i + 1 : Nat) : Int) = .ok next ∧ next.frame = some id ∧
        arrGet node.slots pos = .ok id

section cursor

variable {p : Pool} {L : Nat} {root : PageId} {key : TupleId}

/-- The search as a function of the path: it runs over the cursor's arrays if
    the path is too long for them. -/
theorem kds_btree_cursor_search_path (h : IsSearchTree p L root) (hfail : p.NoFailure)
    {pre : List PageId} {n : PageId} (hpath : searchPath p.tree key L root = pre ++ [n]) :
    (pre.length < 16 → ∃ cursor p', kds_btree_cursor_search p root key =
        .ok (if key ∈ (p.tree n).keys then .error .EEXIST else .ok (), cursor, p') ∧
      (key ∉ (p.tree n).keys → cursor.depth = pre.length ∧
        ∀ i m, (pre ++ [n])[i]? = some m → CursorAt p.tree key cursor i m)) ∧
    (16 ≤ pre.length → kds_btree_cursor_search p root key = .error .outOfBounds) := by
  have hlen : (searchPath p.tree key L root).length = pre.length + 1 := by
    rw [hpath, List.length_append, List.length_singleton]
  constructor
  · intro hshort
    obtain ⟨cursor, p₁, pre', n', hpath', hrun, -, hdep, -, hat⟩ :=
      btree_cursor_search_spec key h hfail (by omega)
    obtain ⟨rfl, heq⟩ := List.append_inj' (hpath.symm.trans hpath') rfl
    obtain rfl : n = n' := by simpa using heq
    unfold btree_cursor_search at hrun
    by_cases hkey : key ∈ (p.tree n).keys
    · -- the key is there: the cursor is cleaned up
      rw [if_pos hkey] at hrun ⊢
      obtain ⟨cursor', p₂, hclean, -, -⟩ := btree_cursor_cleanup_ok cursor p₁ (by omega)
      refine ⟨cursor', p₂, ?_, fun hnot => absurd hkey hnot⟩
      simp only [kds_btree_cursor_search, hrun, hclean, bind, Except.bind]
    · rw [if_neg hkey] at hrun ⊢
      refine ⟨cursor, p₁, ?_, fun _ => ⟨hdep, hpath ▸ hat⟩⟩
      simp only [kds_btree_cursor_search, hrun, bind, Except.bind]
  · intro hlong
    obtain ⟨cursor, p₁, hrun, hdep⟩ := searchLoop_too_deep key L root h.shape p btree_cursor_init 16
      h.ordered rfl hfail h.typed rfl (by omega)
    have hover := btree_cursor_cleanup_overrun p₁ hdep
    have hrun' : searchLoop p btree_cursor_init root key BTREE_MAX_DEPTH =
      .ok (.error .E2BIG, cursor, p₁) := hrun
    simp only [kds_btree_cursor_search, hrun', hover, bind, Except.bind]

/-- What the cursor holds after a search that came to a leaf. -/
theorem isRootPath_of_cursorAt (h : IsSearchTree p L root) {pre : List PageId} {n : PageId}
    {cursor : BtreeCursor} (hpath : searchPath p.tree key L root = pre ++ [n])
    (hkey : key ∉ (p.tree n).keys) (hdepth : cursor.depth = pre.length)
    (hat : ∀ i m, (pre ++ [n])[i]? = some m → CursorAt p.tree key cursor i m) :
    IsRootPath p L root key cursor := by
  -- the key is in no node, so the path goes all the way down
  have hL : pre.length = L := by
    obtain ⟨pre', n', hpath', hend⟩ := searchPath_last key L root h.shape
    obtain ⟨rfl, heq⟩ := List.append_inj' (hpath.symm.trans hpath') rfl
    obtain rfl : n = n' := by simpa using heq
    exact hend.resolve_left hkey
  have hon : ∀ i ≤ L, ∃ m, (pre ++ [n])[i]? = some m := by
    intro i hi
    exact ⟨_, List.getElem?_eq_getElem (by rw [List.length_append, List.length_singleton]; omega)⟩
  have hnode : ∀ i m, (pre ++ [n])[i]? = some m →
      m ∈ pages p.tree L root ∧ NodeOk p.tree BTREE_MAX_KEYS (L - i) m ∧
        (p.tree m).keys.Pairwise (· < ·) := by
    intro i m hm
    rw [← hpath] at hm
    exact node_of_searchPath key L root h.shape h.ordered i m hm
  have hposition : ∀ i m, (pre ++ [n])[i]? = some m →
      SearchTree.position key (p.tree m).keys = (p.tree m).keys.countP (· < key) :=
    fun i m hm => position_eq_countP (hnode i m hm).2.2
  refine ⟨hdepth.trans hL, ?_, fun i hi => ?_, fun i hi node hget => ?_,
    fun i hi node pos hget hpos => ?_⟩
  · have hroot : (pre ++ [n])[0]? = some root := by
      rw [← hpath]
      exact searchPath_head p.tree key L root
    obtain ⟨node, hget, hframe, -⟩ := (hat 0 root hroot).node
    exact ⟨node, hget, hframe⟩
  · obtain ⟨m, hm⟩ := hon i hi
    obtain ⟨node, hget, hframe, htree⟩ := (hat i m hm).node
    obtain ⟨hmem, hok, -⟩ := hnode i m hm
    refine ⟨node, m, hget, hframe, hmem, htree, ?_⟩
    rw [← hok.level, ← htree]
    exact (BtreePageData.treeNode_level node.toBtreePageData).symm
  · obtain ⟨m, hm⟩ := hon i hi
    obtain ⟨node', hget', -, htree⟩ := (hat i m hm).node
    obtain rfl := Except.ok.inj (hget.symm.trans hget')
    rw [(hat i m hm).position, htree, hposition i m hm]
  · obtain ⟨m, hm⟩ := hon i (Nat.le_of_lt hi)
    obtain ⟨m', hm'⟩ := hon (i + 1) hi
    obtain ⟨node', hget', -, htree⟩ := (hat i m hm).node
    obtain rfl := Except.ok.inj (hget.symm.trans hget')
    obtain rfl := Except.ok.inj ((hat i m hm).position.symm.trans hpos)
    obtain ⟨next, hnext, hframe, -⟩ := (hat (i + 1) m' hm').node
    refine ⟨next, m', hnext, hframe, ?_⟩
    obtain ⟨-, hslot⟩ := searchPath_link key L root h.shape i m m' (hpath ▸ hm) (hpath ▸ hm')
    obtain ⟨S₁, S₂, hsplit, hS₁⟩ := exists_split_of_getElem? hslot
    rw [← htree] at hsplit
    rw [← hS₁]
    exact (BtreePageData.slots_get (key_count_le_of_nodeOk htree (hnode i m hm).2.1) hsplit).2

/-- **The cursor search is exact** on a tree that fits the cursor: it returns
    `-EEXIST` exactly when a node holds the key, and 0 with the path otherwise. -/
theorem kds_btree_cursor_search_exact (key : TupleId) (h : IsSearchTree p L root)
    (hfail : p.NoFailure) (hL : L + 1 < BTREE_MAX_DEPTH + 1) :
    ∃ r cursor p', kds_btree_cursor_search p root key = .ok (r, cursor, p') ∧
      (r = .error .EEXIST ↔ ∃ id ∈ pages p.tree L root, key ∈ (p.tree id).keys) ∧
      (r ≠ .error .EEXIST → r = .ok () ∧ IsRootPath p L root key cursor) := by
  obtain ⟨pre, n, hpath, -⟩ := searchPath_last key L root h.shape
  have hlen := length_searchPath_le key L root h.shape
  rw [hpath, List.length_append, List.length_singleton] at hlen
  simp only [BTREE_MAX_DEPTH] at hL
  obtain ⟨cursor, p', hrun, hleaf⟩ := (kds_btree_cursor_search_path h hfail hpath).1 (by omega)
  have hmem := mem_inorder_iff_last L root h.shape h.ordered hpath
  rw [mem_inorder_iff L root h.shape] at hmem
  refine ⟨_, cursor, p', hrun, ?_, fun hne => ?_⟩
  · rw [hmem]
    by_cases hkey : key ∈ (p.tree n).keys
    · simp [hkey]
    · simp [hkey]
  · by_cases hkey : key ∈ (p.tree n).keys
    · exact absurd (if_pos hkey) hne
    · obtain ⟨hdepth, hat⟩ := hleaf hkey
      exact ⟨if_neg hkey, isRootPath_of_cursorAt h hpath hkey hdepth hat⟩

end cursor

/-- Key 25 goes into the full leaf: the cursor holds the root and that leaf. -/
theorem cursor_search_at_25 :
    ∃ cursor p', kds_btree_cursor_search (poolOf fullLeafTree) 200 25 = .ok (.ok (), cursor, p') ∧
      IsRootPath (poolOf fullLeafTree) 1 200 25 cursor := by
  obtain ⟨htree, hfail⟩ := fullLeafTree_isBtree
  obtain ⟨r, cursor, p', hrun, hfound, hnew⟩ :=
    kds_btree_cursor_search_exact 25 htree.searchTree hfail (by decide)
  have hr : r ≠ .error .EEXIST := by
    rw [Ne, hfound, poolOf_tree]
    decide
  obtain ⟨rfl, hpath⟩ := hnew hr
  exact ⟨cursor, p', hrun, hpath⟩

/-! ## Section 2: The index search -/

/-- The index search finds what the leaves hold, if it comes to a leaf. -/
theorem indexSearchLoop_spec {σ : Store PageId TupleId} (key : TupleId) (l : Nat) :
    ∀ (id : PageId) (p : Pool) (fuel : Nat), Shape σ BTREE_MAX_KEYS l id → Ordered σ l id →
      p.tree = σ → p.NoFailure → (∀ j ∈ pages σ l id, kds_is_btree_page (p.frame j) = true) →
      ∃ r p', indexSearchLoop p id key fuel = .ok (r, p') ∧
        ((∃ v, r = .ok v) ↔ l < fuel ∧ key ∈ keysAt σ l l id) ∧
        (r = .error .ENOENT ↔ l < fuel ∧ key ∉ keysAt σ l l id) := by
  induction l with
  | zero =>
    intro id p fuel hshape _ htree hfail htype
    cases fuel with
    | zero => exact ⟨_, _, rfl, by simp, by simp⟩
    | succ fuel =>
      rw [← htree] at hshape
      obtain ⟨p', -, habsent, hfound, -⟩ := indexSearchLoop_step key hfail
        (htype id (self_mem_pages σ 0 id)) hshape.nodeOk fuel
      rw [htree] at habsent hfound
      simp only [keysAt, Nat.zero_lt_succ, true_and]
      cases hi : (σ id).keys.findIdx? (· == key) with
      | none =>
        have hnot : key ∉ (σ id).keys := by
          intro hmem
          have hne := List.findIdx?_eq_none_iff.mp hi key hmem
          simp at hne
        exact ⟨_, p', habsent rfl hi, by simp [hnot], by simp [hnot]⟩
      | some i =>
        obtain ⟨hlt, hget, -⟩ := List.findIdx?_eq_some_iff_getElem.mp hi
        have hmem : key ∈ (σ id).keys := by
          obtain rfl : (σ id).keys[i] = key := by simpa using hget
          exact List.getElem_mem hlt
        exact ⟨_, p', hfound i rfl hi, by simp [hmem], by simp [hmem]⟩
  | succ l ih =>
    intro id p fuel hshape hord htree hfail htype
    cases fuel with
    | zero => exact ⟨_, _, rfl, by simp, by simp⟩
    | succ fuel =>
      -- the keys of an inner node play no part: the search goes on below the slot
      obtain ⟨s, hs⟩ := exists_slot_of_position hshape.nodeOk key
      have hmem := List.mem_of_getElem? hs
      obtain ⟨p', hsm, -, -, hgo⟩ := indexSearchLoop_step key hfail
        (htype id (self_mem_pages σ (l + 1) id)) (htree ▸ hshape.nodeOk) fuel
      obtain ⟨r, p'', hrun, hfound, habsent⟩ := ih s p' fuel (hshape.2 s hmem) (hord.2.2 s hmem)
        (hsm.tree.trans htree) (hsm.noFailure hfail)
        (fun j hj => by rw [hsm.typed]; exact htype j (pages_subset_of_slot hmem j hj))
      refine ⟨r, p'', (hgo s (Nat.succ_ne_zero l) (htree ▸ hs)).trans hrun, ?_, ?_⟩
      · rw [hfound, mem_keysAt_descend hshape hord hs, Nat.add_lt_add_iff_right]
      · rw [habsent, mem_keysAt_descend hshape hord hs, Nat.add_lt_add_iff_right]

/-! ## Section 3: The two together -/

/-- The searches of one key agree: found by both or by neither, absent for both or for neither. -/
structure SearchesAgree (p : Pool) (rel : Relation) (key : TupleId) : Prop where
  found : (∃ v p', kds_index_search p rel key = .ok (.ok v, p')) ↔
    ∃ cursor p', kds_btree_cursor_search p rel.root_page_id key = .ok (.error .EEXIST, cursor, p')
  absent : (∃ p', kds_index_search p rel key = .ok (.error .ENOENT, p')) ↔
    ∃ cursor p', kds_btree_cursor_search p rel.root_page_id key = .ok (.ok (), cursor, p')

section agree

variable {p : Pool} {L : Nat} {rel : Relation} {key : TupleId}

/-- Both searches through the path: `n` is the node where the descent stops. -/
theorem searches_path (hkind : rel.kind = .btree) (h : IsSearchTree p L rel.root_page_id)
    (hfail : p.NoFailure) {pre : List PageId} {n : PageId}
    (hpath : searchPath p.tree key L rel.root_page_id = pre ++ [n]) :
    ((∃ v p', kds_index_search p rel key = .ok (.ok v, p')) ↔
        L < 16 ∧ pre.length = L ∧ key ∈ (p.tree n).keys) ∧
      ((∃ p', kds_index_search p rel key = .ok (.error .ENOENT, p')) ↔
        L < 16 ∧ ¬ (pre.length = L ∧ key ∈ (p.tree n).keys)) ∧
      ((∃ cursor p', kds_btree_cursor_search p rel.root_page_id key =
          .ok (.error .EEXIST, cursor, p')) ↔ pre.length < 16 ∧ key ∈ (p.tree n).keys) ∧
      ((∃ cursor p', kds_btree_cursor_search p rel.root_page_id key = .ok (.ok (), cursor, p')) ↔
        pre.length < 16 ∧ key ∉ (p.tree n).keys) := by
  have hindex : kds_index_search p rel key = indexSearchLoop p rel.root_page_id key 16 := by
    rw [kds_index_search, if_neg (by rw [hkind]; simp)]
    rfl
  obtain ⟨r, p₁, hrun, hfound, habsent⟩ :=
    indexSearchLoop_spec key L rel.root_page_id p 16 h.shape h.ordered rfl hfail h.typed
  rw [mem_keysAt_iff L rel.root_page_id h.shape h.ordered L hpath] at hfound habsent
  obtain ⟨hshort, hlong⟩ := kds_btree_cursor_search_path h hfail hpath
  rw [hindex, hrun, ← hfound, ← habsent]
  refine ⟨by simp, by simp, ?_⟩
  rcases Nat.lt_or_ge pre.length 16 with hlt | hge
  · obtain ⟨cursor, p₂, hcursor, -⟩ := hshort hlt
    rw [hcursor]
    by_cases hkey : key ∈ (p.tree n).keys
    · simp [hkey, hlt]
    · simp [hkey, hlt]
  · rw [hlong hge]
    simp [Nat.not_lt.mpr hge]

/-- **Agreement of the two searches**: they agree on a key exactly when no node
    above the leaves holds it, as far down as the cursor goes. -/
theorem searches_agree_iff (key : TupleId) (hkind : rel.kind = .btree)
    (h : IsSearchTree p L rel.root_page_id) (hfail : p.NoFailure) :
    SearchesAgree p rel key ↔
      ∀ d < BTREE_MAX_DEPTH, d < L → key ∉ keysAt p.tree d L rel.root_page_id := by
  obtain ⟨pre, n, hpath, hend⟩ := searchPath_last key L rel.root_page_id h.shape
  have hlen := length_searchPath_le key L rel.root_page_id h.shape
  rw [hpath, List.length_append, List.length_singleton] at hlen
  obtain ⟨hfound, habsent, hexists, hnew⟩ := searches_path hkind h hfail hpath
  have hinner : (∀ d < BTREE_MAX_DEPTH, d < L → key ∉ keysAt p.tree d L rel.root_page_id) ↔
      ¬ (pre.length < 16 ∧ pre.length < L ∧ key ∈ (p.tree n).keys) := by
    constructor
    · intro hnone hmem
      exact hnone pre.length hmem.1 hmem.2.1
        ((mem_keysAt_iff L rel.root_page_id h.shape h.ordered _ hpath).mpr ⟨rfl, hmem.2.2⟩)
    -- otherwise both come to the same leaf
    · intro hnone d hd hdL hmem
      obtain ⟨rfl, hkey⟩ := (mem_keysAt_iff L rel.root_page_id h.shape h.ordered d hpath).mp hmem
      exact hnone ⟨hd, hdL, hkey⟩
  rw [hinner]
  -- the cursor stops at the first node that has the key, or in a leaf
  have hstop : key ∈ (p.tree n).keys ∨ pre.length = L := hend
  constructor
  -- a key in an inner node is found by the cursor and not by the index
  · rintro ⟨hf, _⟩ ⟨hlt, hup, hkey⟩
    rw [hfound, hexists] at hf
    have := (hf.mpr ⟨hlt, hkey⟩).2.1
    omega
  · intro hnone
    constructor
    · rw [hfound, hexists]
      constructor
      · rintro ⟨hL, hpre, hkey⟩
        exact ⟨by omega, hkey⟩
      · rintro ⟨hlt, hkey⟩
        have hpre : pre.length = L := by
          by_contra hne
          exact hnone ⟨hlt, by omega, hkey⟩
        exact ⟨by omega, hpre, hkey⟩
    · rw [habsent, hnew]
      constructor
      · rintro ⟨hL, hnot⟩
        refine ⟨by omega, fun hkey => ?_⟩
        exact hnone ⟨by omega, Nat.lt_of_le_of_ne (by omega) fun heq => hnot ⟨heq, hkey⟩, hkey⟩
      · rintro ⟨hlt, hkey⟩
        have hpre := hstop.resolve_left hkey
        exact ⟨by omega, fun hmem => hkey hmem.2⟩

end agree

/-- No node above the leaves holds key 30. -/
theorem searches_agree_at_30 : SearchesAgree (poolOf fullLeafTree) ⟨200, .btree⟩ 30 := by
  obtain ⟨htree, hfail⟩ := fullLeafTree_isBtree
  refine (searches_agree_iff (L := 1) 30 rfl htree.searchTree hfail).mpr ?_
  rw [poolOf_tree]
  decide

/-- The root holds key 100: an insert of it is refused, and the index search
    does not find it. -/
theorem index_misses_root_key :
    IsSearchTree (poolOf fullLeafTree) 1 200 ∧ (poolOf fullLeafTree).NoFailure ∧
      (∃ cursor p', kds_btree_cursor_search (poolOf fullLeafTree) 200 100 =
        .ok (.error .EEXIST, cursor, p')) ∧
      (∃ p', kds_index_search (poolOf fullLeafTree) ⟨200, .btree⟩ 100 = .ok (.error .ENOENT, p')) ∧
      ¬ SearchesAgree (poolOf fullLeafTree) ⟨200, .btree⟩ 100 := by
  obtain ⟨htree, hfail⟩ := fullLeafTree_isBtree
  have hpath : searchPath (poolOf fullLeafTree).tree 100 1 200 = [] ++ [200] := by
    rw [poolOf_tree]
    decide
  have hkey : (100 : TupleId) ∈ ((poolOf fullLeafTree).tree 200).keys := by
    rw [poolOf_tree]
    decide
  obtain ⟨hfound, habsent, hexists, -⟩ :=
    @searches_path _ 1 ⟨200, .btree⟩ 100 rfl htree.searchTree hfail _ _ hpath
  have hcursor := hexists.mpr ⟨by decide, hkey⟩
  refine ⟨htree.searchTree, hfail, hcursor, habsent.mpr ⟨by decide, by simp⟩, fun h => ?_⟩
  have hindex := hfound.mp (h.found.mpr hcursor)
  simp at hindex

end Kds
