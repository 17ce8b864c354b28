import Kds.Btree.Search

/-! # Insertion into a B-tree

    `kds_btree_cursor_search` followed by `kds_btree_cursor_insert`. While
    the leaf the search reaches has room, the insert is a search-tree
    insertion. A full leaf is written one entry beyond its arrays before it
    is split, so the split and everything behind it is never reached.
-/

open Bytes SearchTree

namespace Kds

/-- What an insert is to do: return 0 and leave a tree at the same root that
    has the new key and value and everything that was there. -/
def InsertsKey (p : Pool) (l : Nat) (root : PageId) (key : TupleId) (value : PageId) : Prop :=
  ∃ p', btree_insert p root key value = .ok (.ok (), p') ∧ IsBtree p' l root ∧
    (∀ k, k ∈ inorder p'.tree l root ↔ k = key ∨ k ∈ inorder p.tree l root) ∧
    (values p'.tree l root).Perm (value :: values p.tree l root)

/-- A key put between smaller and larger ones keeps a list increasing. -/
theorem pairwise_insert {A M₁ M₂ B : List TupleId} {key : TupleId}
    (h : (A ++ (M₁ ++ M₂) ++ B).Pairwise (· < ·)) (hA : ∀ a ∈ A, a < key) (hM₁ : ∀ a ∈ M₁, a < key)
    (hM₂ : ∀ b ∈ M₂, key < b) (hB : ∀ b ∈ B, key < b) :
    (A ++ (M₁ ++ key :: M₂) ++ B).Pairwise (· < ·) := by
  rw [show A ++ (M₁ ++ M₂) ++ B = (A ++ M₁) ++ (M₂ ++ B) by simp] at h
  rw [show A ++ (M₁ ++ key :: M₂) ++ B = (A ++ M₁) ++ key :: (M₂ ++ B) by simp]
  obtain ⟨hl, hr, hcross⟩ := List.pairwise_append.mp h
  refine List.pairwise_append.mpr ⟨hl, List.pairwise_cons.mpr ⟨?_, hr⟩, ?_⟩
  · intro b hb
    rcases List.mem_append.mp hb with hb | hb
    · exact hM₂ b hb
    · exact hB b hb
  · intro a ha b hb
    have halt : a < key := by
      rcases List.mem_append.mp ha with ha | ha
      · exact hA a ha
      · exact hM₁ a ha
    rcases List.mem_cons.mp hb with rfl | hb
    · exact halt
    · exact hcross a ha b hb

/-- Putting a key into the leaf of a well-formed tree at its position. -/
theorem insert_into_leaf {σ : Store PageId TupleId} {L : Nat} {root n : PageId}
    {c : Context PageId TupleId} {key : TupleId} {value : PageId}
    (hwf : WellFormed σ BTREE_MAX_KEYS L root) (hf : Focus σ BTREE_MAX_KEYS L root 0 n c)
    (ht : Towards key c) (hshape : Shape σ BTREE_MAX_KEYS 0 n) (hroom : (σ n).keys.length < 4)
    (hkey : key ∉ (σ n).keys) {σ' : Store PageId TupleId}
    (hσ' : σ' = Function.update σ n ((σ n).insertAt (position key (σ n).keys) key value)) :
    WellFormed σ' BTREE_MAX_KEYS L root ∧ pages σ' L root = pages σ L root ∧
      (∀ k, k ∈ inorder σ' L root ↔ k = key ∨ k ∈ inorder σ L root) ∧
      (values σ' L root).Perm (value :: values σ L root) := by
  have hout : ∀ j, j ∉ pages σ 0 n → σ' j = σ j := by
    intro j hj
    rw [hσ', Function.update_of_ne]
    simpa [pages] using hj
  have hn : σ' n = (σ n).insertAt (position key (σ n).keys) key value := by
    rw [hσ', Function.update_self]
  have hold := hf.inorder_eq σ fun _ _ => rfl
  have hnew := hf.inorder_eq σ' hout
  simp only [inorder, hn, Node.insertAt] at hold hnew
  have hpages : pages σ' L root = pages σ L root := by
    rw [hf.pages_eq σ' hout, hf.pages_eq σ fun _ _ => rfl]
    rfl
  obtain ⟨_, hsorted, hnd⟩ := wellFormed_iff.mp hwf
  have hcut := List.take_append_drop (position key (σ n).keys) (σ n).keys
  have hkeys : (σ n).keys.Pairwise (· < ·) := (hf.wellFormed hwf).1
  -- the tree reads as it did, with the key put between smaller and larger ones
  refine ⟨wellFormed_iff.mpr ⟨?_, ?_, ?_⟩, hpages, ?_, ?_⟩
  · refine hf.shape σ' hout ?_
    have hslots := hshape.nodeOk.slots_eq
    refine ⟨?_, ?_, ?_⟩
    · rw [hn]; exact hshape.nodeOk.level
    · rw [hn]; simp [Node.insertAt]; omega
    · rw [hn]; simp [Node.insertAt]; omega
  · rw [hnew]
    rw [hold, ← hcut] at hsorted
    refine pairwise_insert hsorted ht.before_lt lt_of_mem_take_position ?_ ht.behind_gt
    intro b hb
    refine lt_of_le_of_ne (le_of_mem_drop_position (hkeys.imp le_of_lt) b hb) ?_
    rintro rfl
    exact hkey (List.mem_of_mem_drop hb)
  · rw [hpages]; exact hnd
  · intro k
    have hmem : k ∈ (σ n).keys ↔ k ∈ (σ n).keys.take (position key (σ n).keys) ∨
        k ∈ (σ n).keys.drop (position key (σ n).keys) := by
      rw [← List.mem_append, hcut]
    rw [hold, hnew]
    simp only [List.mem_append, List.mem_cons, hmem]
    tauto
  · rw [hf.values_eq σ' hout, hf.values_eq σ fun _ _ => rfl]
    simp only [values, hn, Node.insertAt]
    -- in a leaf the value goes between two other values
    have hmid : ∀ S T : List PageId,
        (c.valuesL ++ (S ++ value :: T) ++ c.valuesR).Perm
          (value :: (c.valuesL ++ (S ++ T) ++ c.valuesR)) := by
      intro S T
      rw [show c.valuesL ++ (S ++ value :: T) ++ c.valuesR =
        (c.valuesL ++ S) ++ value :: (T ++ c.valuesR) by simp,
        show c.valuesL ++ (S ++ T) ++ c.valuesR = (c.valuesL ++ S) ++ (T ++ c.valuesR) by simp]
      exact List.perm_middle
    refine (hmid _ _).trans ?_
    rw [List.take_append_drop]

/-- The insert on a cursor whose leaf has room: the leaf's page gets the new
    node, no other page changes. -/
theorem kds_btree_cursor_insert_stores {p : Pool} {σ : Store PageId TupleId} {cursor : BtreeCursor}
    {key : TupleId} {n : PageId} (value : PageId) (hat : CursorAt σ key cursor cursor.depth n)
    (hdepth : cursor.depth < 16) (htype : kds_is_btree_page (p.frame n) = true)
    (hok : NodeOk σ BTREE_MAX_KEYS 0 n) (hroom : (σ n).keys.length < 4) :
    ∃ cursor' p' page, kds_btree_cursor_insert p cursor key value = .ok (.ok (), cursor', p') ∧
      cursor'.depth = cursor.depth ∧ (p.setFrame n { p.frame n with page := page }).Same p' ∧
      (btreeData page).treeNode = (σ n).insertAt (position key (σ n).keys) key value := by
  obtain ⟨leaf, hleaf, hframe, hnt⟩ := hat.node
  have hle := key_count_le_of_nodeOk hnt hok
  have hlen := BtreePageData.length_keys hle
  rw [hnt] at hlen
  have hpos := position_le key (σ n).keys
  obtain ⟨leaf', hins, hframe', hnt'⟩ :=
    btree_node_insert_at_spec (show leaf.key_count.toNat < 4 by omega)
      (show position key (σ n).keys ≤ leaf.key_count.toNat by omega) key value
  have hstore := store_btree_node_eq (hframe'.trans hframe) htype
  obtain ⟨cursor', p₂, hclean, hdepth', hsame⟩ := btree_cursor_cleanup_ok
    { cursor with nodes := cursor.nodes.set cursor.depth leaf' }
    (p.setFrame n { p.frame n with page := (p.frame n).page.write KDS_PAGE_HDR_SIZE leaf'.bytes }) hdepth
  refine ⟨cursor', p₂, _, ?_, hdepth', hsame, ?_⟩
  · have hroom' : leaf.key_count.toNat < BTREE_MAX_KEYS := by show _ < 4; omega
    simp only [kds_btree_cursor_insert, hleaf, hat.position, hins, bind, Except.bind, if_pos hroom',
      arrSet_nat cursor.nodes hdepth, hstore, hclean]
  · rw [btreeData_write, hnt', hnt]

theorem kds_btree_cursor_insert_room {p : Pool} {σ : Store PageId TupleId} {cursor : BtreeCursor}
    {key : TupleId} {n : PageId} (value : PageId) (htree : p.tree = σ)
    (hat : CursorAt σ key cursor cursor.depth n) (hdepth : cursor.depth < 16)
    (htype : kds_is_btree_page (p.frame n) = true) (hok : NodeOk σ BTREE_MAX_KEYS 0 n)
    (hroom : (σ n).keys.length < 4) :
    ∃ cursor' p', kds_btree_cursor_insert p cursor key value = .ok (.ok (), cursor', p') ∧
      p.Becomes p' (Function.update σ n
        ((σ n).insertAt (position key (σ n).keys) key value)) := by
  obtain ⟨cursor', p', page, hins, -, hsame, hnode⟩ :=
    kds_btree_cursor_insert_stores value hat hdepth htype hok hroom
  refine ⟨cursor', p', hins, Pool.Becomes.same ?_ hsame⟩
  rw [← htree]
  rw [← htree] at hnode
  exact becomes_setFrame hnode rfl

/-- The insert on a cursor whose leaf is full. -/
theorem kds_btree_cursor_insert_full {p : Pool} {σ : Store PageId TupleId} {cursor : BtreeCursor}
    {key : TupleId} {n : PageId} (value : PageId) (hat : CursorAt σ key cursor cursor.depth n)
    (hok : NodeOk σ BTREE_MAX_KEYS 0 n) (hfull : ¬ (σ n).keys.length < 4) :
    kds_btree_cursor_insert p cursor key value = .error .outOfBounds := by
  obtain ⟨leaf, hleaf, _, hnt⟩ := hat.node
  have hle := key_count_le_of_nodeOk hnt hok
  have hlen := BtreePageData.length_keys hle
  rw [hnt] at hlen
  have hpos := position_le key (σ n).keys
  have hins := btree_node_insert_at_full (show leaf.key_count.toNat = 4 by omega)
    (show position key (σ n).keys ≤ 4 by omega) key value
  simp only [kds_btree_cursor_insert, hleaf, hat.position, hins, bind, Except.bind]

/-- The search of an insert of a new key, on a tree that fits the cursor. -/
theorem kds_btree_cursor_search_new {p : Pool} {L : Nat} {root : PageId} {key : TupleId}
    (h : IsBtree p L root) (hfail : p.NoFailure) (hL : L < BTREE_MAX_DEPTH)
    (hkey : key ∉ inorder p.tree L root) :
    ∃ cursor p' c, kds_btree_cursor_search p root key = .ok (.ok (), cursor, p') ∧
      p.Same p' ∧ cursor.depth < 16 ∧
      CursorAt p.tree key cursor cursor.depth (searchEnd p.tree key L root) ∧
      Focus p.tree BTREE_MAX_KEYS L root 0 (searchEnd p.tree key L root) c ∧ Towards key c ∧
      Shape p.tree BTREE_MAX_KEYS 0 (searchEnd p.tree key L root) ∧
      searchEnd p.tree key L root ∈ pages p.tree L root ∧
      key ∉ (p.tree (searchEnd p.tree key L root)).keys := by
  have hlen := length_searchPath_le key L root h.wellFormed.shape
  simp only [BTREE_MAX_DEPTH] at hL
  obtain ⟨cursor, p', pre, n, hpath, hrun, hbec, hdep, hpre, hat⟩ :=
    btree_cursor_search_spec key h.searchTree hfail (by omega)
  have hnot : key ∉ (p.tree n).keys :=
    fun hmem => hkey ((mem_inorder_iff_last L root h.searchTree.shape h.searchTree.ordered hpath).mpr hmem)
  obtain ⟨_, hshape, c, hf, ht⟩ := focus_of_searchPath key h.wellFormed L root h.wellFormed.shape _
    (Focus.refl p.tree BTREE_MAX_KEYS L root) ⟨by simp, by simp⟩ pre.length n (by simp [hpath])
  -- the key is in no node, so the path goes all the way down
  have hleaf : L - pre.length = 0 := by
    obtain ⟨pre', n', hpath', hend⟩ := searchPath_last key L root h.wellFormed.shape
    obtain ⟨rfl, heq⟩ := List.append_inj' (hpath.symm.trans hpath') rfl
    obtain rfl : n = n' := by simpa using heq
    have := hend.resolve_left hnot
    omega
  rw [hleaf] at hshape hf
  rw [searchEnd_eq hpath]
  refine ⟨cursor, p', c, ?_, hbec, by omega, ?_, hf, ht, hshape, ?_, hnot⟩
  · rw [if_neg hnot] at hrun
    have hrun' : searchLoop p btree_cursor_init root key BTREE_MAX_DEPTH =
      .ok (.ok (), cursor, p') := hrun
    simp only [kds_btree_cursor_search, hrun', bind, Except.bind]
  · rw [hdep]
    exact hat pre.length n (by simp [hpath])
  · rw [hf.pages_eq p.tree fun _ _ => rfl]
    simp [pages]

/-- **Insertion**: on a tree that fits the cursor, the insert of a new key does
    what it is to do exactly when the leaf at the end of the search path has room. -/
theorem btree_insert_iff_leaf_has_room (p : Pool) (l : Nat) (root : PageId) (key : TupleId)
    (value : PageId) (h : IsBtree p l root) (hfail : p.NoFailure) (hl : l < BTREE_MAX_DEPTH)
    (hkey : key ∉ inorder p.tree l root) :
    InsertsKey p l root key value ↔
      (p.tree (searchEnd p.tree key l root)).keys.length < BTREE_MAX_KEYS := by
  obtain ⟨cursor, p', c, hsearch, hbec, hdepth, hat, hf, ht, hshape, hmem, hnot⟩ :=
    kds_btree_cursor_search_new h hfail hl hkey
  have htype : kds_is_btree_page (p'.frame (searchEnd p.tree key l root)) = true := by
    rw [hbec.typed]
    exact h.typed _ hmem
  constructor
  · rintro ⟨p'', hrun, _⟩
    by_contra hfull
    rw [btree_insert, hsearch] at hrun
    have hins := kds_btree_cursor_insert_full (p := p') value hat hshape.nodeOk hfull
    simp only [bind, Except.bind, hins] at hrun
    exact absurd hrun (by simp)
  · intro hroom
    obtain ⟨_, p'', hins, hbec'⟩ :=
      kds_btree_cursor_insert_room value hbec.tree hat hdepth htype hshape.nodeOk hroom
    obtain ⟨hwf, hpages, hkeys, hvalues⟩ :=
      insert_into_leaf h.wellFormed hf ht hshape hroom hnot hbec'.tree
    refine ⟨p'', ?_, ⟨hwf, ?_⟩, hkeys, hvalues⟩
    · simp only [btree_insert, hsearch, bind, Except.bind, hins]
    · intro id hid
      rw [hpages] at hid
      rw [hbec'.typed, hbec.typed]
      exact h.typed id hid

/-- A root with one key over a full leaf and a leaf with room. -/
def fullLeafTree : PageId → BtreePageData := fun id =>
  if id = 200 then pageData 1 [100] [201, 202]
  else if id = 201 then pageData 0 [10, 20, 30, 40] [0, 1, 2, 3, 4]
  else pageData 0 [150] [0, 9]

theorem fullLeafTree_isBtree :
    IsBtree (poolOf fullLeafTree) 1 200 ∧ (poolOf fullLeafTree).NoFailure :=
  poolOf_isBtree (by decide)

/-- Key 160 goes into the leaf that has room. -/
theorem btree_insert_room_at_160 :
    InsertsKey (poolOf fullLeafTree) 1 200 160 7 := by
  refine (btree_insert_iff_leaf_has_room (poolOf fullLeafTree) 1 200 160 7 fullLeafTree_isBtree.1
    fullLeafTree_isBtree.2 (by decide) ?_).mpr ?_
  · rw [poolOf_tree]; decide
  · rw [poolOf_tree]; decide

/-- Key 25 belongs into the full leaf: the root has room, and the insert
    writes outside the leaf's arrays. -/
theorem full_leaf_insert_faults :
    IsBtree (poolOf fullLeafTree) 1 200 ∧ (poolOf fullLeafTree).NoFailure ∧
      (25 : TupleId) ∉ inorder (poolOf fullLeafTree).tree 1 200 ∧
      (∃ id ∈ searchPath (poolOf fullLeafTree).tree 25 1 200,
        ((poolOf fullLeafTree).tree id).keys.length < BTREE_MAX_KEYS) ∧
      ¬ InsertsKey (poolOf fullLeafTree) 1 200 25 7 := by
  obtain ⟨h, hfail⟩ := fullLeafTree_isBtree
  have hkey : (25 : TupleId) ∉ inorder (poolOf fullLeafTree).tree 1 200 := by
    rw [poolOf_tree]; decide
  refine ⟨h, hfail, hkey, ?_, ?_⟩
  · rw [poolOf_tree]; decide
  · intro hins
    obtain ⟨cursor, p', c, hsearch, _, _, hat, _, _, hshape, _, _⟩ :=
      kds_btree_cursor_search_new h hfail (by decide) hkey
    have hfull := kds_btree_cursor_insert_full (p := p') 7 hat hshape.nodeOk
      (by rw [poolOf_tree]; decide)
    obtain ⟨p'', hrun, _⟩ := hins
    simp [btree_insert, hsearch, bind, Except.bind, hfull] at hrun

end Kds
