import Kds.Btree.Search

/-! # Deletion from a B-tree

    `btree_delete`. Above the leaves borrowing and merging keep the listing of
    the tree, so a cascade of underflows does no harm, whatever its length.
    At the leaves both lose the separator between the two leaves, and a key
    found above the leaves is taken out together with the subtree behind it.
-/

open Bytes SearchTree

namespace Kds

/-! ## Section 1: Two neighbours under one parent -/

/-- Keys and slots moved between neighbours `a`, `b` and their separator `s`:
    above the leaves everything is kept, at the leaves the separator is not. -/
structure Moved (s : TupleId) (a b a' b' : SearchTree.Node PageId TupleId) (s' : TupleId) : Prop where
  level_left : a'.level = a.level
  level_right : b'.level = b.level
  slots_left : a'.slots.length = a'.keys.length + 1
  slots_right : b'.slots.length = b'.keys.length + 1
  keys_left : a'.keys.length ≤ BTREE_MAX_KEYS
  keys_right : b'.keys.length ≤ BTREE_MAX_KEYS
  inner : a.level ≠ 0 → a.keys ++ s :: b.keys = a'.keys ++ s' :: b'.keys ∧
    a.slots ++ b.slots = a'.slots ++ b'.slots
  leaf : a.level = 0 → ∀ k ∈ a'.keys ++ s' :: b'.keys, k ∈ a.keys ++ b.keys

/-- Neighbours `a` and `b` with separator `s` merged into one node. -/
structure Merged (s : TupleId) (a b a' : SearchTree.Node PageId TupleId) : Prop where
  level : a'.level = a.level
  slots : a'.slots.length = a'.keys.length + 1
  keys : a'.keys.length ≤ BTREE_MAX_KEYS
  inner : a.level ≠ 0 → a'.keys = a.keys ++ s :: b.keys ∧ a'.slots = a.slots ++ b.slots
  leaf : a.level = 0 → ∀ k ∈ a'.keys, k ∈ a.keys ++ b.keys

theorem level_eq_zero_iff (d : BtreePageData) : d.level = 0 ↔ d.treeNode.level = 0 := by
  rw [BtreePageData.treeNode_level]
  exact ⟨fun h => by rw [h]; rfl, fun h => UInt64.toNat_inj.mp h⟩

theorem exists_append_singleton {α : Type} {xs : List α} (h : 0 < xs.length) :
    ∃ ys y, xs = ys ++ [y] :=
  ⟨_, _, (List.dropLast_append_getLast (List.ne_nil_of_length_pos h)).symm⟩

section nodes

variable {parent left node right : BtreeNode} {K₁ K₂ : List TupleId} {s : TupleId}

theorem redistributeLeft_spec (hp : parent.key_count.toNat ≤ 4) (hl : left.key_count.toNat ≤ 4)
    (hn : node.key_count.toNat < 4) (hlev : left.treeNode.level = node.treeNode.level)
    (hpk : parent.treeNode.keys = K₁ ++ s :: K₂) (hlk : 2 < left.treeNode.keys.length) :
    ∃ parent' left' node' s',
      redistributeLeft parent K₁.length left node = .ok (parent', left', node') ∧
      (parent'.frame = parent.frame ∧ left'.frame = left.frame ∧ node'.frame = node.frame) ∧
      parent'.treeNode = { parent.treeNode with keys := K₁ ++ s' :: K₂ } ∧
      Moved s left.treeNode node.treeNode left'.treeNode node'.treeNode s' := by
  have hlens := BtreePageData.length_slots hl
  have hlenk := BtreePageData.length_keys hl
  have hnlen := BtreePageData.length_keys (show node.key_count.toNat ≤ 4 by omega)
  have hnlens := BtreePageData.length_slots (show node.key_count.toNat ≤ 4 by omega)
  obtain ⟨LK, m, hLK⟩ := exists_append_singleton (show 0 < left.treeNode.keys.length by omega)
  obtain ⟨LS, c, hLS⟩ := exists_append_singleton (show 0 < left.treeNode.slots.length by omega)
  by_cases h0 : node.level = 0
  -- leaves: the last key of the left one becomes the separator, and slots do not count
  · obtain ⟨parent', left', node', hrun, hframes, hparent, ⟨hll, hlc, hlk'⟩, ⟨hnl, hnc, hnk'⟩⟩ :=
      redistributeLeft_leaf hp hl hn h0 hpk hLK
    refine ⟨parent', left', node', m, hrun, hframes, hparent, ?_, ?_, ?_, ?_, ?_, ?_, ?_, ?_⟩
    · rw [BtreePageData.treeNode_level, BtreePageData.treeNode_level, hll]
    · rw [BtreePageData.treeNode_level, BtreePageData.treeNode_level, hnl]
    · rw [BtreePageData.length_slots hlc, BtreePageData.length_keys hlc]
    · rw [BtreePageData.length_slots hnc, BtreePageData.length_keys hnc]
    · rw [BtreePageData.length_keys hlc]; exact hlc
    · rw [BtreePageData.length_keys hnc]; exact hnc
    · intro hne
      exact absurd (hlev.trans ((level_eq_zero_iff _).mp h0)) hne
    · intro _ k hk
      rw [hlk', hnk'] at hk
      rw [hLK]
      simp only [List.mem_append, List.mem_cons, List.not_mem_nil, or_false] at hk ⊢
      tauto
  -- inner nodes: the separator goes down, and the last child moves with it
  · obtain ⟨parent', left', node', hrun, hframes, hparent, hleft', hnode'⟩ :=
      redistributeLeft_internal hp hl hn h0 hpk hLK hLS
    rw [hLK, List.length_append, List.length_singleton] at hlenk
    rw [hLS, List.length_append, List.length_singleton] at hlens
    refine ⟨parent', left', node', m, hrun, hframes, hparent, ?_, ?_, ?_, ?_, ?_, ?_, ?_, ?_⟩
    · rw [hleft', BtreePageData.treeNode_level]
    · rw [hnode', BtreePageData.treeNode_level]
    · rw [hleft']; show LS.length = LK.length + 1; omega
    · rw [hnode']; simp [hnlens, hnlen]
    · rw [hleft']; show LK.length ≤ 4; omega
    · rw [hnode']; simp only [List.length_cons, BTREE_MAX_KEYS]; omega
    · intro _
      rw [hleft', hnode', hLK, hLS]
      simp
    · intro hz
      exact absurd ((level_eq_zero_iff _).mpr (hlev.symm.trans hz)) h0

theorem redistributeRight_spec (hp : parent.key_count.toNat ≤ 4) (hr : right.key_count.toNat ≤ 4)
    (hn : node.key_count.toNat < 4)
    (hpk : parent.treeNode.keys = K₁ ++ s :: K₂) (hrk : 2 < right.treeNode.keys.length) :
    ∃ parent' node' right' s',
      redistributeRight parent K₁.length node right = .ok (parent', node', right') ∧
      (parent'.frame = parent.frame ∧ node'.frame = node.frame ∧ right'.frame = right.frame) ∧
      parent'.treeNode = { parent.treeNode with keys := K₁ ++ s' :: K₂ } ∧
      Moved s node.treeNode right.treeNode node'.treeNode right'.treeNode s' := by
  have hlens := BtreePageData.length_slots hr
  have hlenk := BtreePageData.length_keys hr
  have hnlen := BtreePageData.length_keys (show node.key_count.toNat ≤ 4 by omega)
  have hnlens := BtreePageData.length_slots (show node.key_count.toNat ≤ 4 by omega)
  by_cases h0 : node.level = 0
  · match hRK : right.treeNode.keys with
    | [] => simp [hRK] at hrk
    | [_] => simp [hRK] at hrk
    | m :: m' :: RK =>
      obtain ⟨parent', node', right', hrun, hframes, hparent, ⟨hnl, hnc, hnk'⟩, ⟨hrl, hrc, hrk'⟩⟩ :=
        redistributeRight_leaf hp hr hn h0 hpk hRK
      refine ⟨parent', node', right', m', hrun, hframes, hparent, ?_, ?_, ?_, ?_, ?_, ?_, ?_, ?_⟩
      · rw [BtreePageData.treeNode_level, BtreePageData.treeNode_level, hnl]
      · rw [BtreePageData.treeNode_level, BtreePageData.treeNode_level, hrl]
      · rw [BtreePageData.length_slots hnc, BtreePageData.length_keys hnc]
      · rw [BtreePageData.length_slots hrc, BtreePageData.length_keys hrc]
      · rw [BtreePageData.length_keys hnc]; exact hnc
      · rw [BtreePageData.length_keys hrc]; exact hrc
      · intro hne
        exact absurd ((level_eq_zero_iff _).mp h0) hne
      · intro _ k hk
        rw [hnk', hrk'] at hk
        rw [hRK]
        simp only [List.mem_append, List.mem_cons, List.not_mem_nil, or_false] at hk ⊢
        tauto
  · obtain ⟨m, RK, hRK⟩ := List.exists_cons_of_length_pos (show 0 < right.treeNode.keys.length by omega)
    obtain ⟨c, RS, hRS⟩ := List.exists_cons_of_length_pos (show 0 < right.treeNode.slots.length by omega)
    obtain ⟨parent', node', right', hrun, hframes, hparent, hnode', hright'⟩ :=
      redistributeRight_internal hp hr hn h0 hpk hRK hRS
    rw [hRK, List.length_cons] at hlenk
    rw [hRS, List.length_cons] at hlens
    refine ⟨parent', node', right', m, hrun, hframes, hparent, ?_, ?_, ?_, ?_, ?_, ?_, ?_, ?_⟩
    · rw [hnode', BtreePageData.treeNode_level]
    · rw [hright', BtreePageData.treeNode_level]
    · rw [hnode']; simp [hnlens, hnlen]
    · rw [hright']; show RS.length = RK.length + 1; omega
    · rw [hnode']; simp only [List.length_append, List.length_singleton, BTREE_MAX_KEYS]; omega
    · rw [hright']; show RK.length ≤ 4; omega
    · intro _
      rw [hnode', hright', hRK, hRS]
      simp
    · intro hz
      exact absurd ((level_eq_zero_iff _).mpr hz) h0

theorem mergeInto_spec (hp : parent.key_count.toNat ≤ 4)
    (hfit : left.key_count.toNat + right.key_count.toNat < 4)
    (hpk : parent.treeNode.keys = K₁ ++ s :: K₂) :
    ∃ left', mergeInto parent K₁.length left right = .ok left' ∧ left'.frame = left.frame ∧
      left'.level = left.level ∧ Merged s left.treeNode right.treeNode left'.treeNode := by
  by_cases h0 : left.level = 0
  · obtain ⟨left', hrun, hframe, hlev, _, hlc, hlk⟩ :=
      mergeInto_leaf parent K₁.length (Nat.le_of_lt hfit) h0
    refine ⟨left', hrun, hframe, hlev, ?_, ?_, ?_, ?_, ?_⟩
    · rw [BtreePageData.treeNode_level, BtreePageData.treeNode_level, hlev]
    · rw [BtreePageData.length_slots hlc, BtreePageData.length_keys hlc]
    · rw [BtreePageData.length_keys hlc]; exact hlc
    · intro hne
      exact absurd ((level_eq_zero_iff _).mp h0) hne
    · intro _ k hk
      rwa [hlk] at hk
  · obtain ⟨left', hrun, hframe, hleft'⟩ := mergeInto_internal hp hfit h0 hpk
    have hlev : left'.treeNode.level = left.treeNode.level := by
      rw [hleft', BtreePageData.treeNode_level]
    have hlk := BtreePageData.length_keys (show left.key_count.toNat ≤ 4 by omega)
    have hls := BtreePageData.length_slots (show left.key_count.toNat ≤ 4 by omega)
    have hrk := BtreePageData.length_keys (show right.key_count.toNat ≤ 4 by omega)
    have hrs := BtreePageData.length_slots (show right.key_count.toNat ≤ 4 by omega)
    refine ⟨left', hrun, hframe, ?_, hlev, ?_, ?_, ?_, ?_⟩
    · rw [BtreePageData.treeNode_level, BtreePageData.treeNode_level] at hlev
      exact UInt64.toNat_inj.mp hlev
    · rw [hleft']
      simp only [List.length_append, List.length_cons]
      omega
    · rw [hleft']
      simp only [List.length_append, List.length_cons, BTREE_MAX_KEYS]
      omega
    · intro _
      rw [hleft']
      exact ⟨rfl, rfl⟩
    · intro hz
      exact absurd ((level_eq_zero_iff _).mpr hz) h0

end nodes

/-! ## Section 2: Storing the nodes of a step -/

theorem dirtyNode_ok {p : Pool} {node : BtreeNode} {id : PageId} (h : node.frame = some id) :
    dirtyNode p node = .ok (setPageDirty p id) := by
  simp [dirtyNode, h]

theorem freeNode_ok {p : Pool} {node : BtreeNode} {id : PageId} (h : node.frame = some id) :
    freeNode p node = .ok (kds_free_page p id) := by
  simp [freeNode, h]

theorem storeThree_ok {p : Pool} {a b c : BtreeNode} {ia ib ic : PageId} (ha : a.frame = some ia)
    (hb : b.frame = some ib) (hc : c.frame = some ic)
    (hta : kds_is_btree_page (p.frame ia) = true) (htb : kds_is_btree_page (p.frame ib) = true)
    (htc : kds_is_btree_page (p.frame ic) = true) :
    ∃ p', storeThree p a b c = .ok p' ∧
      p.Becomes p' (Function.update (Function.update (Function.update p.tree ia a.treeNode) ib
        b.treeNode) ic c.treeNode) := by
  obtain ⟨p₁, h₁, hb₁⟩ := store_btree_node_ok (p := p) ha hta
  obtain ⟨p₂, h₂, hb₂⟩ := store_btree_node_ok (p := p₁) hb (by rw [hb₁.typed]; exact htb)
  obtain ⟨p₃, h₃, hb₃⟩ := store_btree_node_ok (p := p₂) hc
    (by rw [hb₂.typed, hb₁.typed]; exact htc)
  rw [hb₁.tree] at hb₂
  rw [hb₂.tree] at hb₃
  have hd₁ := becomes_setPageDirty p₃ ia
  have hd₂ := becomes_setPageDirty (setPageDirty p₃ ia) ib
  have hd₃ := becomes_setPageDirty (setPageDirty (setPageDirty p₃ ia) ib) ic
  rw [hb₃.tree] at hd₁
  rw [hd₁.tree] at hd₂
  rw [hd₂.tree] at hd₃
  refine ⟨setPageDirty (setPageDirty (setPageDirty p₃ ia) ib) ic, ?_,
    ((((hb₁.trans hb₂).trans hb₃).trans hd₁).trans hd₂).trans hd₃⟩
  simp only [storeThree, h₁, h₂, h₃, dirtyNode_ok ha, dirtyNode_ok hb, dirtyNode_ok hc, bind,
    Except.bind]

/-- Setting `prev` of the page behind a merged leaf changes no node of a tree. -/
theorem relinkNext_cases {p : Pool} (hfail : p.NoFailure) (next prev_id : PageId) :
    (∃ f, relinkNext p next prev_id = .error f) ∨
      ∃ p', relinkNext p next prev_id = .ok p' ∧ p.Becomes p' p.tree := by
  unfold relinkNext
  by_cases h0 : next = 0
  · exact Or.inr ⟨p, by rw [if_pos h0], Pool.Becomes.refl p⟩
  rw [if_neg h0]
  obtain ⟨p₁, hload, hsame⟩ := lookup_same hfail next
  rw [hload]
  by_cases htype : kds_is_btree_page (p₁.frame next) = true
  · obtain ⟨node, hnode, hframe, hnt⟩ := load_btree_node_ok p₁ next htype
    obtain ⟨p₂, hstore, hbec⟩ := store_btree_node_ok
      (show ({ node with prev := prev_id } : BtreeNode).frame = some next from hframe) htype
    have hkeep : Function.update p₁.tree next (BtreePageData.treeNode { node with prev := prev_id }) =
        p.tree := by
      rw [show BtreePageData.treeNode { node with prev := prev_id } = p₁.tree next from hnt,
        Function.update_eq_self, hsame.tree]
    rw [hkeep] at hbec
    refine Or.inr ⟨kds_buf_unpin p₂ next, ?_, ?_⟩
    · simp only [hnode, bind, Except.bind, hstore]
    · have hun := (same_unpin p₂ next).becomes
      rw [hbec.tree] at hun
      exact (hsame.becomes.trans hbec).trans hun
  · refine Or.inl ⟨.bugOn, ?_⟩
    have hload' : load_btree_node p₁ next = .error .bugOn := by simp [load_btree_node, htype]
    simp only [hload', bind, Except.bind]

/-- The separator and the slot behind it taken out of the parent. -/
theorem remove_separator {parent : BtreeNode} {l : Nat} {K₁ K₂ : List TupleId} {s : TupleId}
    {S₁ S₂ : List PageId} {a b : PageId}
    (hpt : parent.treeNode = ⟨l, K₁ ++ s :: K₂, S₁ ++ a :: b :: S₂⟩) (h₁ : S₁.length = K₁.length)
    (hp : parent.key_count.toNat ≤ 4) :
    ∃ parent', btree_node_remove_at parent K₁.length = .ok parent' ∧ parent'.frame = parent.frame ∧
      parent'.treeNode = ⟨l, K₁ ++ K₂, S₁ ++ a :: S₂⟩ := by
  have hlen := BtreePageData.length_keys hp
  rw [hpt] at hlen
  simp only [List.length_append, List.length_cons] at hlen
  obtain ⟨parent', hrun, hframe, htree⟩ :=
    btree_node_remove_at_spec hp (show K₁.length < parent.key_count.toNat by omega)
  refine ⟨parent', hrun, hframe, ?_⟩
  rw [htree, hpt, Node.removeAt_split l s a b h₁]

/-- `btree_merge_nodes`; at the leaves the page behind the right one may not be a B-tree page. -/
theorem btree_merge_nodes_cases {p : Pool} {parent left right : BtreeNode} {l : Nat}
    {K₁ K₂ : List TupleId} {s : TupleId} {S₁ S₂ : List PageId} {pid a b : PageId}
    (hfail : left.treeNode.level = 0 → p.NoFailure)
    (hpt : parent.treeNode = ⟨l, K₁ ++ s :: K₂, S₁ ++ a :: b :: S₂⟩)
    (h₁ : S₁.length = K₁.length) (hp : parent.key_count.toNat ≤ 4)
    (hfit : left.key_count.toNat + right.key_count.toNat < 4) (hpf : parent.frame = some pid)
    (hlf : left.frame = some a) (htp : kds_is_btree_page (p.frame pid) = true)
    (hta : kds_is_btree_page (p.frame a) = true) :
    (left.treeNode.level = 0 ∧ ∃ f, btree_merge_nodes p parent K₁.length left right = .error f) ∨
      ∃ parent' left' p', btree_merge_nodes p parent K₁.length left right = .ok (parent', left', p') ∧
        (parent'.frame = some pid ∧ left'.frame = some a) ∧
        parent'.treeNode = ⟨l, K₁ ++ K₂, S₁ ++ a :: S₂⟩ ∧
        Merged s left.treeNode right.treeNode left'.treeNode ∧
        p.Becomes p' (Function.update (Function.update p.tree a left'.treeNode) pid
          parent'.treeNode) := by
  obtain ⟨left', hmerge, hlf', hlev, hmerged⟩ := mergeInto_spec hp hfit (by rw [hpt])
  obtain ⟨parent', hremove, hpf', hparent'⟩ := remove_separator hpt h₁ hp
  rw [hpf] at hpf'
  rw [hlf] at hlf'
  -- both ways to the stores leave the nodes as they are
  have hstores : ∀ p₁, p.Becomes p₁ p.tree → ∃ p', (do
      let p ← store_btree_node p₁ left'
      let p ← store_btree_node p parent'
      let p ← dirtyNode p left'
      let p ← dirtyNode p parent'
      .ok (parent', left', p) : Except Fault _) = .ok (parent', left', p') ∧
      p.Becomes p' (Function.update (Function.update p.tree a left'.treeNode) pid
        parent'.treeNode) := by
    intro p₁ hb₁
    obtain ⟨p₂, h₂, hb₂⟩ := store_btree_node_ok (p := p₁) hlf' (by rw [hb₁.typed]; exact hta)
    obtain ⟨p₃, h₃, hb₃⟩ := store_btree_node_ok (p := p₂) hpf'
      (by rw [hb₂.typed, hb₁.typed]; exact htp)
    rw [hb₁.tree] at hb₂
    rw [hb₂.tree] at hb₃
    have hd₁ := becomes_setPageDirty p₃ a
    have hd₂ := becomes_setPageDirty (setPageDirty p₃ a) pid
    rw [hb₃.tree] at hd₁
    rw [hd₁.tree] at hd₂
    refine ⟨setPageDirty (setPageDirty p₃ a) pid, ?_, (((hb₁.trans hb₂).trans hb₃).trans hd₁).trans hd₂⟩
    simp only [h₂, h₃, dirtyNode_ok hlf', dirtyNode_ok hpf', bind, Except.bind]
  by_cases h0 : left'.level = 0
  · have hleaf := (level_eq_zero_iff _).mp (hlev ▸ h0)
    rcases relinkNext_cases (hfail hleaf) right.next a with ⟨f, hf⟩ | ⟨p₁, hok, hb₁⟩
    · refine Or.inl ⟨hleaf, f, ?_⟩
      simp only [btree_merge_nodes, hmerge, bind, Except.bind, if_pos h0, hlf', hf]
    · obtain ⟨p', hrun, hbec⟩ := hstores p₁ hb₁
      refine Or.inr ⟨parent', left', p', ?_, ⟨hpf', hlf'⟩, hparent', hmerged, hbec⟩
      simp only [btree_merge_nodes, hmerge, bind, Except.bind, if_pos h0, hlf', hok, hremove] at hrun ⊢
      exact hrun
  · obtain ⟨p', hrun, hbec⟩ := hstores p (Pool.Becomes.refl p)
    refine Or.inr ⟨parent', left', p', ?_, ⟨hpf', hlf'⟩, hparent', hmerged, hbec⟩
    simp only [btree_merge_nodes, hmerge, bind, Except.bind, if_neg h0, hremove] at hrun ⊢
    exact hrun

theorem loadSibling_ok {p : Pool} {parent : BtreeNode} {S₁ S₂ : List PageId} {id : PageId}
    (hfail : p.NoFailure) (hp : parent.key_count.toNat ≤ 4)
    (hslots : parent.treeNode.slots = S₁ ++ id :: S₂)
    (htype : kds_is_btree_page (p.frame id) = true) :
    ∃ node p', loadSibling p true parent S₁.length = .ok (some node, p') ∧ p.Same p' ∧
      node.frame = some id ∧ node.treeNode = p.tree id := by
  have hget := (BtreePageData.slots_get hp hslots).2
  obtain ⟨p', hload, hsame⟩ := lookup_same hfail id
  obtain ⟨node, hnode, hframe, hnt⟩ :=
    load_btree_node_ok p' id (by rw [hsame.typed]; exact htype)
  rw [hsame.tree] at hnt
  refine ⟨node, p', ?_, hsame, hframe, hnt⟩
  simp only [loadSibling, if_true, hget, hload, hnode, bind, Except.bind]

theorem same_unpinSibling (p : Pool) (node : Option BtreeNode) : p.Same (unpinSibling p node) := by
  unfold unpinSibling
  split
  · exact Pool.Same.refl p
  · split
    · exact Pool.Same.refl p
    · exact same_unpin p _

/-! ## Section 3: One level of the underflow handling -/

/-- The cursor's copy of node `id` at index `i`. -/
def CursorNode (σ : Store PageId TupleId) (cursor : BtreeCursor) (i : Nat) (id : PageId) : Prop :=
  ∃ node, arrGet cursor.nodes (i : Int) = .ok node ∧ node.frame = some id ∧ node.treeNode = σ id

/-- The cursor at a node with too few keys, at index `k + 1`, under its parent. -/
structure Underflow (p : Pool) (cursor : BtreeCursor) (k l : Nat) (pid nid : PageId) (pos : Nat)
    (parent node : BtreeNode) : Prop where
  noFailure : p.NoFailure
  typed : ∀ j ∈ pages p.tree (l + 1) pid, kds_is_btree_page (p.frame j) = true
  shape : Shape p.tree BTREE_MAX_KEYS (l + 1) pid
  nodup : (pages p.tree (l + 1) pid).Nodup
  bound : k + 1 < 16
  getParent : arrGet cursor.nodes (k : Int) = .ok parent
  parentFrame : parent.frame = some pid
  parentNode : parent.treeNode = p.tree pid
  getNode : arrGet cursor.nodes ((k + 1 : Nat) : Int) = .ok node
  nodeFrame : node.frame = some nid
  nodeNode : node.treeNode = p.tree nid
  getPos : arrGet cursor.positions (k : Int) = .ok (pos : Int)
  slot : (p.tree pid).slots[pos]? = some nid
  few : node.key_count.toNat < BTREE_MIN_KEYS

section step

variable {p : Pool} {cursor : BtreeCursor} {k l : Nat} {pid nid : PageId} {pos : Nat}
  {parent node : BtreeNode}

theorem Underflow.same {p' : Pool} (h : Underflow p cursor k l pid nid pos parent node)
    (hs : p.Same p') : Underflow p' cursor k l pid nid pos parent node := by
  have ht := hs.tree
  exact ⟨hs.noFailure h.noFailure, fun j hj => by rw [hs.typed]; exact h.typed j (ht ▸ hj),
    by rw [ht]; exact h.shape, by rw [ht]; exact h.nodup, h.bound, h.getParent, h.parentFrame,
    by rw [ht]; exact h.parentNode, h.getNode, h.nodeFrame, by rw [ht]; exact h.nodeNode, h.getPos,
    by rw [ht]; exact h.slot, h.few⟩

theorem Underflow.parent_le (h : Underflow p cursor k l pid nid pos parent node) :
    parent.key_count.toNat ≤ 4 :=
  key_count_le_of_nodeOk h.parentNode h.shape.nodeOk

theorem Underflow.childShape (h : Underflow p cursor k l pid nid pos parent node) {t : PageId}
    (ht : t ∈ (p.tree pid).slots) : Shape p.tree BTREE_MAX_KEYS l t := h.shape.2 t ht

theorem Underflow.childTyped (h : Underflow p cursor k l pid nid pos parent node) {t : PageId}
    (ht : t ∈ (p.tree pid).slots) : kds_is_btree_page (p.frame t) = true :=
  h.typed t (pages_subset_of_slot ht t (self_mem_pages _ _ _))

/-- The sibling before the node, loaded if there is one. -/
theorem Underflow.left_sibling (h : Underflow p cursor k l pid nid pos parent node) :
    (pos = 0 ∧ loadSibling p (decide ((pos : Int) > 0)) parent (pos - 1) = .ok (none, p)) ∨
      ∃ S₁ a S₂ K₁ s K₂ left p₁, p.tree pid = ⟨l + 1, K₁ ++ s :: K₂, S₁ ++ a :: nid :: S₂⟩ ∧
        S₁.length = K₁.length ∧ (pos : Int) - 1 = (K₁.length : Int) ∧
        loadSibling p (decide ((pos : Int) > 0)) parent (pos - 1) = .ok (some left, p₁) ∧
        p.Same p₁ ∧ left.frame = some a ∧ left.treeNode = p.tree a := by
  cases pos with
  | zero => exact Or.inl ⟨rfl, rfl⟩
  | succ q =>
    have hlen := h.shape.nodeOk.slots_eq
    obtain ⟨hlt, _⟩ := List.getElem?_eq_some_iff.mp h.slot
    obtain ⟨S₀, S₂, hslots, hS₀⟩ := exists_split_of_getElem? h.slot
    obtain ⟨S₁, a, rfl⟩ := exists_append_singleton (show 0 < S₀.length by omega)
    rw [List.append_assoc, List.singleton_append] at hslots
    rw [List.length_append, List.length_singleton] at hS₀
    obtain ⟨s, hs⟩ : ∃ s, (p.tree pid).keys[q]? = some s :=
      ⟨_, List.getElem?_eq_getElem (by omega)⟩
    obtain ⟨K₁, K₂, hkeys, hK₁⟩ := exists_split_of_getElem? hs
    obtain ⟨left, p₁, hload, hsame, hframe, hnode⟩ := loadSibling_ok h.noFailure h.parent_le
      (by rw [h.parentNode]; exact hslots) (h.childTyped (by rw [hslots]; simp))
    have hcast : ((q + 1 : Nat) : Int) - 1 = (K₁.length : Int) := by omega
    have hpos : decide (((q + 1 : Nat) : Int) > 0) = true := by simp
    have h₁ : S₁.length = K₁.length := by omega
    refine Or.inr ⟨S₁, a, S₂, K₁, s, K₂, left, p₁, ?_, h₁, hcast, ?_, hsame, hframe, hnode⟩
    · rw [← hkeys, ← hslots, ← h.shape.nodeOk.level]
    · rw [hpos, hcast, ← h₁]
      exact hload

/-- The sibling behind the node, loaded if there is one. -/
theorem Underflow.right_sibling (h : Underflow p cursor k l pid nid pos parent node) :
    (pos = (p.tree pid).keys.length ∧
        loadSibling p (decide (toU64 pos < parent.key_count.toNat)) parent (pos + 1) =
          .ok (none, p)) ∨
      ∃ S₁ b S₂ K₁ s K₂ right p₁, p.tree pid = ⟨l + 1, K₁ ++ s :: K₂, S₁ ++ nid :: b :: S₂⟩ ∧
        S₁.length = K₁.length ∧ pos = K₁.length ∧
        loadSibling p (decide (toU64 pos < parent.key_count.toNat)) parent (pos + 1) =
          .ok (some right, p₁) ∧
        p.Same p₁ ∧ right.frame = some b ∧ right.treeNode = p.tree b := by
  have hlen := h.shape.nodeOk.slots_eq
  have hle := h.parent_le
  have hcount := BtreePageData.length_keys hle
  rw [h.parentNode] at hcount
  obtain ⟨hlt, _⟩ := List.getElem?_eq_some_iff.mp h.slot
  have hu64 : toU64 (pos : Int) = pos := toU64_nat (by omega)
  rcases Nat.lt_or_ge pos (p.tree pid).keys.length with hin | hout
  · obtain ⟨S₁, S₀, hslots, hS₁⟩ := exists_split_of_getElem? h.slot
    have hS₀ : 0 < S₀.length := by
      have := congrArg List.length hslots
      rw [List.length_append, List.length_cons] at this
      omega
    obtain ⟨b, S₂, rfl⟩ := List.exists_cons_of_length_pos hS₀
    obtain ⟨s, hs⟩ : ∃ s, (p.tree pid).keys[pos]? = some s := ⟨_, List.getElem?_eq_getElem hin⟩
    obtain ⟨K₁, K₂, hkeys, hK₁⟩ := exists_split_of_getElem? hs
    have hslots' : parent.treeNode.slots = (S₁ ++ [nid]) ++ b :: S₂ := by
      rw [h.parentNode, hslots, List.append_cons]
    obtain ⟨right, p₁, hload, hsame, hframe, hnode⟩ := loadSibling_ok h.noFailure hle hslots'
      (h.childTyped (by rw [hslots]; simp))
    have hcast : (pos : Int) + 1 = ((S₁ ++ [nid]).length : Int) := by simp [hS₁]
    refine Or.inr ⟨S₁, b, S₂, K₁, s, K₂, right, p₁, ?_, by omega, hK₁.symm, ?_, hsame, hframe, hnode⟩
    · rw [← hkeys, ← hslots, ← h.shape.nodeOk.level]
    · rw [hu64, decide_eq_true (by omega), hcast]
      exact hload
  · refine Or.inl ⟨by omega, ?_⟩
    rw [hu64, decide_eq_false (by omega)]
    rfl

/-- What a step leaves: the pool, and the cursor with a fresh copy of the parent. -/
structure Stepped (p p' : Pool) (cursor cursor' : BtreeCursor) (k : Nat) (pid : PageId) : Prop where
  typed : ∀ id, kds_is_btree_page (p'.frame id) = kds_is_btree_page (p.frame id)
  noFailure : p'.NoFailure
  depth : cursor'.depth = cursor.depth
  positions : cursor'.positions = cursor.positions
  below : ∀ i < k, arrGet cursor'.nodes (i : Int) = arrGet cursor.nodes (i : Int)
  parent : CursorNode p'.tree cursor' k pid

/-- The parent's new copy in the cursor. -/
theorem stepped_of_set {p' : Pool} {σ : Store PageId TupleId} {parent' : BtreeNode}
    (h : Underflow p cursor k l pid nid pos parent node) (hb : p.Becomes p' σ)
    (hframe : parent'.frame = some pid) (htree : parent'.treeNode = σ pid) :
    Stepped p p' cursor
      { cursor with nodes := cursor.nodes.set k parent' (Nat.lt_of_succ_lt h.bound) } k pid := by
  have hk := Nat.lt_of_succ_lt h.bound
  refine ⟨hb.typed, hb.noFailure h.noFailure, rfl, rfl, fun i hi => ?_, parent', ?_, hframe, ?_⟩
  · exact arrGet_set_ne _ hk (by omega) _
  · exact arrGet_set_self _ hk _
  · rw [hb.tree, htree]

/-- The node's own copy at `k + 1` does not matter. -/
theorem Stepped.set_node {p' : Pool} {cursor' : BtreeCursor} (h : Stepped p p' cursor cursor' k pid)
    (hk : k + 1 < 16) (node' : BtreeNode) :
    Stepped p p' cursor { cursor' with nodes := cursor'.nodes.set (k + 1) node' hk } k pid := by
  obtain ⟨parent', hget, hparent⟩ := h.parent
  refine ⟨h.typed, h.noFailure, h.depth, h.positions, fun i hi => ?_, parent', ?_, hparent⟩
  · exact (arrGet_set_ne _ hk (by omega) _).trans (h.below i hi)
  · exact (arrGet_set_ne _ hk (by omega) _).trans hget

/-- Parent and two neighbouring children are three nodes. -/
theorem neighbours_ne {σ : Store PageId TupleId} {l : Nat} {pid a b : PageId} {S₁ S₂ : List PageId}
    (hnd : (pages σ (l + 1) pid).Nodup) (hslots : (σ pid).slots = S₁ ++ a :: b :: S₂) :
    a ≠ pid ∧ b ≠ pid ∧ a ≠ b := by
  obtain ⟨hpa, _, hother⟩ := children_disjoint hnd hslots
  obtain ⟨hpb, _, _⟩ := children_disjoint hnd (hslots.trans (List.append_cons S₁ a (b :: S₂)))
  refine ⟨?_, ?_, ?_⟩
  · rintro rfl
    exact hpa (self_mem_pages _ _ _)
  · rintro rfl
    exact hpb (self_mem_pages _ _ _)
  · rintro rfl
    exact hother a (Or.inr List.mem_cons_self) a (self_mem_pages _ _ _) (self_mem_pages _ _ _)

/-- From `σ` to `σ'` only `pid` and its neighbouring children `a` and `b` change. -/
structure Between (σ σ' : Store PageId TupleId) (l : Nat) (pid : PageId) (K₁ : List TupleId)
    (s : TupleId) (K₂ : List TupleId) (S₁ : List PageId) (a b : PageId) (S₂ : List PageId) : Prop where
  split : σ pid = ⟨l + 1, K₁ ++ s :: K₂, S₁ ++ a :: b :: S₂⟩
  length : S₁.length = K₁.length
  other : ∀ j, j ≠ pid → j ≠ a → j ≠ b → σ' j = σ j

/-- A key moved over from a neighbour. -/
def Borrowed (σ σ' : Store PageId TupleId) (l : Nat) (pid : PageId) : Prop :=
  ∃ K₁ s K₂ S₁ a b S₂ s', Between σ σ' l pid K₁ s K₂ S₁ a b S₂ ∧
    σ' pid = ⟨l + 1, K₁ ++ s' :: K₂, S₁ ++ a :: b :: S₂⟩ ∧ Moved s (σ a) (σ b) (σ' a) (σ' b) s'

/-- Two neighbours made one. -/
def Joined (σ σ' : Store PageId TupleId) (l : Nat) (pid : PageId) : Prop :=
  ∃ K₁ s K₂ S₁ a b S₂, Between σ σ' l pid K₁ s K₂ S₁ a b S₂ ∧
    σ' pid = ⟨l + 1, K₁ ++ K₂, S₁ ++ a :: S₂⟩ ∧ Merged s (σ a) (σ b) (σ' a)

/-- Storing the three nodes of a redistribution. -/
theorem borrowed_of_update {σ σ' : Store PageId TupleId} {l : Nat} {pid a b : PageId}
    {K₁ K₂ : List TupleId} {s s' : TupleId} {S₁ S₂ : List PageId}
    {A B : SearchTree.Node PageId TupleId}
    (hsplit : σ pid = ⟨l + 1, K₁ ++ s :: K₂, S₁ ++ a :: b :: S₂⟩) (h₁ : S₁.length = K₁.length)
    (hother : ∀ j, j ≠ pid → j ≠ a → j ≠ b → σ' j = σ j) (ha : σ' a = A) (hb : σ' b = B)
    (hp : σ' pid = { σ pid with keys := K₁ ++ s' :: K₂ }) (hm : Moved s (σ a) (σ b) A B s') :
    Borrowed σ σ' l pid := by
  refine ⟨K₁, s, K₂, S₁, a, b, S₂, s', ⟨hsplit, h₁, hother⟩, ?_, by rw [ha, hb]; exact hm⟩
  rw [hp, hsplit]

theorem Underflow.redistribute_left {left : BtreeNode} {K₁ K₂ : List TupleId} {s : TupleId}
    {S₁ S₂ : List PageId} {a : PageId} (h : Underflow p cursor k l pid nid pos parent node)
    (hsplit : p.tree pid = ⟨l + 1, K₁ ++ s :: K₂, S₁ ++ a :: nid :: S₂⟩)
    (h₁ : S₁.length = K₁.length) (hlf : left.frame = some a) (hlt : left.treeNode = p.tree a)
    (hbig : BTREE_MIN_KEYS < left.key_count.toNat) :
    ∃ parent' node' p' σ',
      btree_redistribute_from_left p parent K₁.length left node = .ok (parent', node', p') ∧
      parent'.frame = some pid ∧ parent'.treeNode = σ' pid ∧ p.Becomes p' σ' ∧
      Borrowed p.tree σ' l pid := by
  have hslots : (p.tree pid).slots = S₁ ++ a :: nid :: S₂ := by rw [hsplit]
  have hsa := h.childShape (t := a) (by rw [hslots]; simp)
  have hsn := h.childShape (t := nid) (by rw [hslots]; simp)
  have hle := key_count_le_of_nodeOk hlt hsa.nodeOk
  have hroom : node.key_count.toNat < 4 := Nat.lt_trans h.few (by decide)
  have hlev : left.treeNode.level = node.treeNode.level := by
    rw [hlt, h.nodeNode, hsa.nodeOk.level, hsn.nodeOk.level]
  obtain ⟨parent', left', node', s', hrun, ⟨hpf, hlf', hnf⟩, hparent, hmoved⟩ :=
    redistributeLeft_spec h.parent_le hle hroom hlev
      (by rw [h.parentNode, hsplit]) (by rw [BtreePageData.length_keys hle]; exact hbig)
  obtain ⟨p', hstore, hbec⟩ := storeThree_ok (p := p) (hlf'.trans hlf) (hnf.trans h.nodeFrame)
    (hpf.trans h.parentFrame) (h.childTyped (by rw [hslots]; simp))
    (h.childTyped (by rw [hslots]; simp)) (h.typed pid (self_mem_pages _ _ _))
  obtain ⟨hap, hnp, han⟩ := neighbours_ne h.nodup hslots
  rw [hlt, h.nodeNode] at hmoved
  rw [h.parentNode] at hparent
  refine ⟨parent', node', p', _, ?_, hpf.trans h.parentFrame, ?_, hbec,
    borrowed_of_update hsplit h₁ ?_ ?_ ?_ ?_ hmoved⟩
  · simp only [btree_redistribute_from_left, hrun, hstore, bind, Except.bind]
  · rw [Function.update_self]
  · intro j hj hja hjb
    rw [Function.update_of_ne hj, Function.update_of_ne hjb, Function.update_of_ne hja]
  · rw [Function.update_of_ne hap, Function.update_of_ne han, Function.update_self]
  · rw [Function.update_of_ne hnp, Function.update_self]
  · rw [Function.update_self, hparent]

theorem Underflow.redistribute_right {right : BtreeNode} {K₁ K₂ : List TupleId} {s : TupleId}
    {S₁ S₂ : List PageId} {b : PageId} (h : Underflow p cursor k l pid nid pos parent node)
    (hsplit : p.tree pid = ⟨l + 1, K₁ ++ s :: K₂, S₁ ++ nid :: b :: S₂⟩)
    (h₁ : S₁.length = K₁.length) (hrf : right.frame = some b) (hrt : right.treeNode = p.tree b)
    (hbig : BTREE_MIN_KEYS < right.key_count.toNat) :
    ∃ parent' node' p' σ',
      btree_redistribute_from_right p parent K₁.length node right = .ok (parent', node', p') ∧
      parent'.frame = some pid ∧ parent'.treeNode = σ' pid ∧ p.Becomes p' σ' ∧
      Borrowed p.tree σ' l pid := by
  have hslots : (p.tree pid).slots = S₁ ++ nid :: b :: S₂ := by rw [hsplit]
  have hsb := h.childShape (t := b) (by rw [hslots]; simp)
  have hle := key_count_le_of_nodeOk hrt hsb.nodeOk
  have hroom : node.key_count.toNat < 4 := Nat.lt_trans h.few (by decide)
  obtain ⟨parent', node', right', s', hrun, ⟨hpf, hnf, hrf'⟩, hparent, hmoved⟩ :=
    redistributeRight_spec h.parent_le hle hroom
      (by rw [h.parentNode, hsplit]) (by rw [BtreePageData.length_keys hle]; exact hbig)
  obtain ⟨p', hstore, hbec⟩ := storeThree_ok (p := p) (hnf.trans h.nodeFrame) (hrf'.trans hrf)
    (hpf.trans h.parentFrame) (h.childTyped (by rw [hslots]; simp))
    (h.childTyped (by rw [hslots]; simp)) (h.typed pid (self_mem_pages _ _ _))
  obtain ⟨hnp, hbp, hnb⟩ := neighbours_ne h.nodup hslots
  rw [hrt, h.nodeNode] at hmoved
  rw [h.parentNode] at hparent
  refine ⟨parent', node', p', _, ?_, hpf.trans h.parentFrame, ?_, hbec,
    borrowed_of_update hsplit h₁ ?_ ?_ ?_ ?_ hmoved⟩
  · simp only [btree_redistribute_from_right, hrun, hstore, bind, Except.bind]
  · rw [Function.update_self]
  · intro j hj hja hjb
    rw [Function.update_of_ne hj, Function.update_of_ne hjb, Function.update_of_ne hja]
  · rw [Function.update_of_ne hnp, Function.update_of_ne hnb, Function.update_self]
  · rw [Function.update_of_ne hbp, Function.update_self]
  · rw [Function.update_self, hparent]

/-- Merging two neighbours and freeing the right one. -/
theorem Underflow.merge {left right : BtreeNode} {K₁ K₂ : List TupleId} {s : TupleId}
    {S₁ S₂ : List PageId} {a b : PageId} (h : Underflow p cursor k l pid nid pos parent node)
    (hsplit : p.tree pid = ⟨l + 1, K₁ ++ s :: K₂, S₁ ++ a :: b :: S₂⟩)
    (h₁ : S₁.length = K₁.length) (hlf : left.frame = some a) (hlt : left.treeNode = p.tree a)
    (hrt : right.treeNode = p.tree b)
    (hfit : left.key_count.toNat + right.key_count.toNat < 4) :
    (l = 0 ∧ ∃ f, btree_merge_nodes p parent K₁.length left right = .error f) ∨
      ∃ parent' left' p₁, btree_merge_nodes p parent K₁.length left right = .ok (parent', left', p₁) ∧
        parent'.frame = some pid ∧ ∀ p₂, p₁.Same p₂ → ∃ σ', parent'.treeNode = σ' pid ∧
          p.Becomes (kds_free_page p₂ b) σ' ∧ Joined p.tree σ' l pid := by
  have hslots : (p.tree pid).slots = S₁ ++ a :: b :: S₂ := by rw [hsplit]
  have hsa := h.childShape (t := a) (by rw [hslots]; simp)
  obtain ⟨hap, hbp, hab⟩ := neighbours_ne h.nodup hslots
  rcases btree_merge_nodes_cases (fun _ => h.noFailure) (h.parentNode.trans hsplit) h₁ h.parent_le hfit
      h.parentFrame hlf (h.typed pid (self_mem_pages _ _ _)) (h.childTyped (by rw [hslots]; simp))
    with ⟨h0, f, hf⟩ | ⟨parent', left', p₁, hrun, ⟨hpf, _⟩, hparent, hmerged, hbec⟩
  · rw [hlt, hsa.nodeOk.level] at h0
    exact Or.inl ⟨h0, f, hf⟩
  · refine Or.inr ⟨parent', left', p₁, hrun, hpf, fun p₂ hs => ?_⟩
    have hfree := becomes_free_page p₂ b
    rw [hs.tree, hbec.tree] at hfree
    rw [hlt, hrt] at hmerged
    refine ⟨_, ?_, (hbec.same hs).trans hfree,
      K₁, s, K₂, S₁, a, b, S₂, ⟨hsplit, h₁, ?_⟩, ?_, ?_⟩
    · rw [Function.update_of_ne hbp.symm, Function.update_self]
    · intro j hj hja hjb
      rw [Function.update_of_ne hjb, Function.update_of_ne hj, Function.update_of_ne hja]
    · rw [Function.update_of_ne hbp.symm, Function.update_self, hparent]
    · rw [Function.update_of_ne hab, Function.update_of_ne hap, Function.update_self]
      exact hmerged

/-- Whether a loaded sibling can give a key away. -/
abbrev canLend (n : BtreeNode) : Bool := decide (n.key_count.toNat > BTREE_MIN_KEYS)

theorem filter_canLend {n : BtreeNode} (h : canLend n = false) :
    (some n).filter canLend = none := by
  rw [Option.filter_some, h]
  rfl

theorem Underflow.is_underflow (h : Underflow p cursor k l pid nid pos parent node) :
    btree_node_is_underflow node.toBtreePageData = true :=
  decide_eq_true h.few

theorem Underflow.step_borrow_left {left : BtreeNode} {K₁ K₂ : List TupleId} {s : TupleId}
    {S₁ S₂ : List PageId} {a : PageId} {p₁ : Pool}
    (h : Underflow p cursor k l pid nid pos parent node)
    (hload : loadSibling p (decide ((pos : Int) > 0)) parent (pos - 1) = .ok (some left, p₁))
    (hs₁ : p.Same p₁) (hsplit : p.tree pid = ⟨l + 1, K₁ ++ s :: K₂, S₁ ++ a :: nid :: S₂⟩)
    (h₁ : S₁.length = K₁.length) (hpos : (pos : Int) - 1 = (K₁.length : Int))
    (hlf : left.frame = some a) (hlt : left.treeNode = p.tree a) (hbig : canLend left = true) :
    ∃ cursor' p', btree_handle_underflow p cursor (k + 1) = .ok (cursor', p') ∧
      Stepped p p' cursor cursor' k pid ∧ Borrowed p.tree p'.tree l pid := by
  have hk := Nat.lt_of_succ_lt h.bound
  rw [← hs₁.tree] at hsplit hlt
  obtain ⟨parent', node', p', σ', hrun, hpf, hpt, hbec, hborrow⟩ :=
    (h.same hs₁).redistribute_left hsplit h₁ hlf hlt (of_decide_eq_true hbig)
  have hbec' := (hs₁.becomes.trans hbec).same (same_unpinSibling p' (some left))
  rw [hpos] at hload
  refine ⟨_, _, ?_, (stepped_of_set h hbec' hpf hpt).set_node h.bound node', ?_⟩
  · simp only [btree_handle_underflow, bind, Except.bind, h.getNode, h.is_underflow, Bool.not_true,
      Bool.false_eq_true, if_false, h.getParent, h.getPos, hpos, hload, Option.filter, hbig, if_true,
      hrun, arrSet_nat _ hk, arrSet_nat _ h.bound]
  · rw [hbec'.tree, ← hs₁.tree]
    exact hborrow

theorem Underflow.step_borrow_right {left : Option BtreeNode} {right : BtreeNode}
    {K₁ K₂ : List TupleId} {s : TupleId} {S₁ S₂ : List PageId} {b : PageId} {p₁ p₂ : Pool}
    (h : Underflow p cursor k l pid nid pos parent node)
    (hload : loadSibling p (decide ((pos : Int) > 0)) parent (pos - 1) = .ok (left, p₁))
    (hleft : left.filter canLend = none) (hs₁ : p.Same p₁)
    (hloadr : loadSibling p₁ (decide (toU64 pos < parent.key_count.toNat)) parent (pos + 1) =
      .ok (some right, p₂))
    (hs₂ : p₁.Same p₂) (hsplit : p.tree pid = ⟨l + 1, K₁ ++ s :: K₂, S₁ ++ nid :: b :: S₂⟩)
    (h₁ : S₁.length = K₁.length) (hpos : pos = K₁.length)
    (hrf : right.frame = some b) (hrt : right.treeNode = p.tree b) (hbig : canLend right = true) :
    ∃ cursor' p', btree_handle_underflow p cursor (k + 1) = .ok (cursor', p') ∧
      Stepped p p' cursor cursor' k pid ∧ Borrowed p.tree p'.tree l pid := by
  have hk := Nat.lt_of_succ_lt h.bound
  have hs := hs₁.trans hs₂
  rw [← hs.tree] at hsplit hrt
  obtain ⟨parent', node', p', σ', hrun, hpf, hpt, hbec, hborrow⟩ :=
    (h.same hs).redistribute_right hsplit h₁ hrf hrt (of_decide_eq_true hbig)
  have hbec' := ((hs.becomes.trans hbec).same (same_unpinSibling p' left)).same
    (same_unpinSibling _ (some right))
  rw [← hpos] at hrun
  refine ⟨_, _, ?_, (stepped_of_set h hbec' hpf hpt).set_node h.bound node', ?_⟩
  · simp only [btree_handle_underflow, bind, Except.bind, h.getNode, h.is_underflow, Bool.not_true,
      Bool.false_eq_true, if_false, h.getParent, h.getPos, hload, hleft, hloadr, Option.filter_some, hbig,
      if_true, hrun, arrSet_nat _ hk, arrSet_nat _ h.bound]
  · rw [hbec'.tree, ← hs.tree]
    exact hborrow

/-- A merge at the leaves that stops, or a merge and the parent next. -/
def MergeOutcome (p : Pool) (cursor : BtreeCursor) (k l : Nat) (pid : PageId) : Prop :=
  (∃ cursor' p', btree_handle_underflow p cursor (k + 1) = btree_handle_underflow p' cursor' k ∧
    Stepped p p' cursor cursor' k pid ∧ Joined p.tree p'.tree l pid) ∨
  (l = 0 ∧ (p.tree pid).keys ≠ [] ∧ ∃ f, btree_handle_underflow p cursor (k + 1) = .error f)

theorem Underflow.step_merge_left {left : BtreeNode} {right : Option BtreeNode}
    {K₁ K₂ : List TupleId} {s : TupleId} {S₁ S₂ : List PageId} {a : PageId} {p₁ p₂ : Pool}
    (h : Underflow p cursor k l pid nid pos parent node)
    (hload : loadSibling p (decide ((pos : Int) > 0)) parent (pos - 1) = .ok (some left, p₁))
    (hleft : canLend left = false) (hs₁ : p.Same p₁)
    (hloadr : loadSibling p₁ (decide (toU64 pos < parent.key_count.toNat)) parent (pos + 1) =
      .ok (right, p₂))
    (hright : right.filter canLend = none) (hs₂ : p₁.Same p₂)
    (hsplit : p.tree pid = ⟨l + 1, K₁ ++ s :: K₂, S₁ ++ a :: nid :: S₂⟩)
    (h₁ : S₁.length = K₁.length) (hpos : (pos : Int) - 1 = (K₁.length : Int))
    (hlf : left.frame = some a) (hlt : left.treeNode = p.tree a) :
    MergeOutcome p cursor k l pid := by
  have hk := Nat.lt_of_succ_lt h.bound
  have hs := hs₁.trans hs₂
  have hfit : left.key_count.toNat + node.key_count.toNat < 4 := by
    have hfew : node.key_count.toNat < 2 := h.few
    have hle : ¬ 2 < left.key_count.toNat := of_decide_eq_false hleft
    omega
  have hne : (p.tree pid).keys ≠ [] := by rw [hsplit]; simp
  have hnt := h.nodeNode
  rw [← hs.tree] at hsplit hlt hnt
  rw [hpos] at hload
  rcases (h.same hs).merge hsplit h₁ hlf hlt hnt hfit with
    ⟨h0, f, hf⟩ | ⟨parent', left', p₃, hrun, hpf, hfree⟩
  · refine Or.inr ⟨h0, hne, f, ?_⟩
    simp only [btree_handle_underflow, bind, Except.bind, h.getNode, h.is_underflow, Bool.not_true,
      Bool.false_eq_true, if_false, h.getParent, h.getPos, hpos, hload, Option.filter_some, hleft,
      hloadr, hright, hf]
  · obtain ⟨σ', hpt, hbec, hjoin⟩ := hfree _
      ((same_unpinSibling p₃ (some left)).trans (same_unpinSibling _ right))
    have hbec' := hs.becomes.trans hbec
    refine Or.inl ⟨_, _, ?_, stepped_of_set h hbec' hpf hpt, ?_⟩
    · simp only [btree_handle_underflow, bind, Except.bind, h.getNode, h.is_underflow, Bool.not_true,
        Bool.false_eq_true, if_false, h.getParent, h.getPos, hpos, hload, Option.filter_some, hleft,
        hloadr, hright, hrun, freeNode_ok h.nodeFrame, arrSet_nat _ hk]
    · rw [hbec'.tree, ← hs.tree]
      exact hjoin

theorem Underflow.step_merge_right {right : BtreeNode} {K₁ K₂ : List TupleId} {s : TupleId}
    {S₁ S₂ : List PageId} {b : PageId} {p₂ : Pool}
    (h : Underflow p cursor k l pid nid pos parent node)
    (hload : loadSibling p (decide ((pos : Int) > 0)) parent (pos - 1) = .ok (none, p))
    (hloadr : loadSibling p (decide (toU64 pos < parent.key_count.toNat)) parent (pos + 1) =
      .ok (some right, p₂))
    (hright : canLend right = false) (hs : p.Same p₂)
    (hsplit : p.tree pid = ⟨l + 1, K₁ ++ s :: K₂, S₁ ++ nid :: b :: S₂⟩)
    (h₁ : S₁.length = K₁.length) (hpos : pos = K₁.length)
    (hrf : right.frame = some b) (hrt : right.treeNode = p.tree b) :
    MergeOutcome p cursor k l pid := by
  have hk := Nat.lt_of_succ_lt h.bound
  have hfit : node.key_count.toNat + right.key_count.toNat < 4 := by
    have hfew : node.key_count.toNat < 2 := h.few
    have hle : ¬ 2 < right.key_count.toNat := of_decide_eq_false hright
    omega
  have hne : (p.tree pid).keys ≠ [] := by rw [hsplit]; simp
  have hnt := h.nodeNode
  rw [← hs.tree] at hsplit hrt hnt
  rcases (h.same hs).merge hsplit h₁ h.nodeFrame hnt hrt hfit with
    ⟨h0, f, hf⟩ | ⟨parent', node', p₃, hrun, hpf, hfree⟩
  · rw [← hpos] at hf
    refine Or.inr ⟨h0, hne, f, ?_⟩
    simp only [btree_handle_underflow, bind, Except.bind, h.getNode, h.is_underflow, Bool.not_true,
      Bool.false_eq_true, if_false, h.getParent, h.getPos, hload, Option.filter_none,
      hloadr, Option.filter_some, hright, hf]
  · rw [← hpos] at hrun
    obtain ⟨σ', hpt, hbec, hjoin⟩ := hfree _ (same_unpinSibling p₃ (some right))
    have hbec' := hs.becomes.trans hbec
    refine Or.inl ⟨_, _, ?_, (stepped_of_set h hbec' hpf hpt).set_node h.bound node', ?_⟩
    · simp only [btree_handle_underflow, bind, Except.bind, h.getNode, h.is_underflow, Bool.not_true,
        Bool.false_eq_true, if_false, h.getParent, h.getPos, hload, Option.filter_none,
        hloadr, Option.filter_some, hright, hrun, freeNode_ok hrf, arrSet_nat _ hk, arrSet_nat _ h.bound]
    · rw [hbec'.tree, ← hs.tree]
      exact hjoin

/-- **One level of the underflow handling**: a key comes over from a
    neighbour, or two neighbours are merged and the parent is looked at next,
    or there is no neighbour. A merge of leaves may also stop at a page behind
    them that is no B-tree page. -/
theorem Underflow.step (h : Underflow p cursor k l pid nid pos parent node) :
    (∃ cursor' p', btree_handle_underflow p cursor (k + 1) = .ok (cursor', p') ∧
        Stepped p p' cursor cursor' k pid ∧ Borrowed p.tree p'.tree l pid) ∨
      MergeOutcome p cursor k l pid ∨
      ((p.tree pid).keys = [] ∧
        btree_handle_underflow p cursor (k + 1) = btree_handle_underflow p cursor k) := by
  rcases h.left_sibling with ⟨hpos, hload⟩ |
    ⟨S₁, a, S₂, K₁, s, K₂, left, p₁, hsplit, h₁, hpos, hload, hs₁, hlf, hlt⟩
  · rcases h.right_sibling with ⟨hend, hloadr⟩ |
      ⟨S₁, b, S₂, K₁, s, K₂, right, p₂, hsplit, h₁, hpos', hloadr, hs₂, hrf, hrt⟩
    · refine Or.inr (Or.inr ⟨List.length_eq_zero_iff.mp (by omega), ?_⟩)
      simp only [btree_handle_underflow, bind, Except.bind, h.getNode, h.is_underflow, Bool.not_true,
        Bool.false_eq_true, if_false, h.getParent, h.getPos, hload, Option.filter_none, hloadr]
    · cases hr : canLend right with
      | true => exact Or.inl (h.step_borrow_right hload rfl (Pool.Same.refl p) hloadr hs₂ hsplit h₁ hpos' hrf hrt hr)
      | false => exact Or.inr (Or.inl (h.step_merge_right hload hloadr hr hs₂ hsplit h₁ hpos' hrf hrt))
  · cases hl : canLend left with
    | true => exact Or.inl (h.step_borrow_left hload hs₁ hsplit h₁ hpos hlf hlt hl)
    | false =>
      rcases (h.same hs₁).right_sibling with ⟨_, hloadr⟩ |
        ⟨S₁', b, S₂', K₁', s', K₂', right, p₂, hsplit', h₁', hpos', hloadr, hs₂, hrf, hrt⟩
      · exact Or.inr (Or.inl (h.step_merge_left hload hl hs₁ hloadr rfl (Pool.Same.refl p₁) hsplit h₁
          hpos hlf hlt))
      · rw [hs₁.tree] at hsplit' hrt
        cases hr : canLend right with
        | true => exact Or.inl (h.step_borrow_right hload (filter_canLend hl) hs₁ hloadr hs₂ hsplit' h₁' hpos' hrf hrt hr)
        | false =>
          exact Or.inr (Or.inl (h.step_merge_left hload hl hs₁ hloadr (filter_canLend hr) hs₂ hsplit h₁
            hpos hlf hlt))

end step

/-! ## Section 4: The cascade above the leaves -/

theorem Borrowed.rewritten {σ σ' : Store PageId TupleId} {l : Nat} {pid : PageId}
    (h : Borrowed σ σ' (l + 1) pid) (hshape : Shape σ BTREE_MAX_KEYS (l + 2) pid)
    (hnd : (pages σ (l + 2) pid).Nodup) :
    Rewritten σ σ' BTREE_MAX_KEYS (l + 2) pid (inorder σ (l + 2) pid) := by
  obtain ⟨K₁, s, K₂, S₁, a, b, S₂, s', ⟨hsplit, h₁, hother⟩, hnew, hm⟩ := h
  have hla : (σ a).level = l + 1 := (hshape.2 a (by rw [hsplit]; simp)).nodeOk.level
  have hlb : (σ b).level = l + 1 := (hshape.2 b (by rw [hsplit]; simp)).nodeOk.level
  obtain ⟨hkeys, hslots⟩ := hm.inner (by omega)
  refine rewritten_redistribute hshape hnd hsplit h₁ hother hnew ?_ ?_ hkeys hslots hm.slots_left
    hm.slots_right hm.keys_left hm.keys_right
  · rw [← hla, ← hm.level_left]
  · rw [← hlb, ← hm.level_right]

theorem Joined.rewritten {σ σ' : Store PageId TupleId} {l : Nat} {pid : PageId}
    (h : Joined σ σ' (l + 1) pid) (hshape : Shape σ BTREE_MAX_KEYS (l + 2) pid)
    (hnd : (pages σ (l + 2) pid).Nodup) :
    Rewritten σ σ' BTREE_MAX_KEYS (l + 2) pid (inorder σ (l + 2) pid) := by
  obtain ⟨K₁, s, K₂, S₁, a, b, S₂, ⟨hsplit, h₁, hother⟩, hnew, hm⟩ := h
  have hla : (σ a).level = l + 1 := (hshape.2 a (by rw [hsplit]; simp)).nodeOk.level
  obtain ⟨hkeys, hslots⟩ := hm.inner (by omega)
  refine rewritten_merge hshape hnd hsplit h₁ hother hnew ?_ ?_
  · rw [← hkeys, ← hslots, ← hla, ← hm.level]
  · have := hm.keys
    rw [hkeys, List.length_append, List.length_cons] at this
    omega

/-- The cursor's path from the root down to index `m`. -/
structure CursorPath (σ : Store PageId TupleId) (root : PageId) (cursor : BtreeCursor) (m : Nat)
    (path : Nat → PageId) : Prop where
  root : path 0 = root
  node : ∀ i ≤ m, CursorNode σ cursor i (path i)
  link : ∀ i < m, ∃ pos : Nat, arrGet cursor.positions (i : Int) = .ok (pos : Int) ∧
    (σ (path i)).slots[pos]? = some (path (i + 1))

/-- The tree below `root` in the pool, without its order. -/
structure Intact (p : Pool) (L : Nat) (root : PageId) : Prop where
  noFailure : p.NoFailure
  typed : ∀ j ∈ pages p.tree L root, kds_is_btree_page (p.frame j) = true
  shape : Shape p.tree BTREE_MAX_KEYS L root
  nodup : (pages p.tree L root).Nodup

theorem Intact.same {p p' : Pool} {L : Nat} {root : PageId} (h : Intact p L root) (hs : p.Same p') :
    Intact p' L root := by
  refine ⟨hs.noFailure h.noFailure, fun j hj => ?_, ?_, ?_⟩
  · rw [hs.tree] at hj
    rw [hs.typed]
    exact h.typed j hj
  · rw [hs.tree]; exact h.shape
  · rw [hs.tree]; exact h.nodup

theorem IsBtree.intact {p : Pool} {L : Nat} {root : PageId} (h : IsBtree p L root)
    (hfail : p.NoFailure) : Intact p L root :=
  ⟨hfail, h.typed, h.wellFormed.shape, h.wellFormed.nodup⟩

theorem Intact.isBtree {p : Pool} {L : Nat} {root : PageId} (h : Intact p L root)
    (hsorted : (inorder p.tree L root).Pairwise (· < ·)) : IsBtree p L root :=
  ⟨wellFormed_iff.mpr ⟨h.shape, hsorted, h.nodup⟩, h.typed⟩

section cascade

variable {p p' : Pool} {cursor cursor' : BtreeCursor} {L k : Nat} {root : PageId}
  {path : Nat → PageId}

theorem CursorPath.focus (h : CursorPath p.tree root cursor k path) (hi : Intact p L root)
    (hk : k ≤ L) {i : Nat} (hik : i ≤ k) :
    Shape p.tree BTREE_MAX_KEYS (L - i) (path i) ∧ (pages p.tree (L - i) (path i)).Nodup ∧
      (∃ c, Focus p.tree BTREE_MAX_KEYS L root (L - i) (path i) c) ∧
      ∀ j < i, path j ∉ pages p.tree (L - i) (path i) := by
  refine focus_of_chain hi.shape hi.nodup h.root (fun j hj => ?_) hk i hik
  obtain ⟨pos, _, hslot⟩ := h.link j hj
  exact List.mem_of_getElem? hslot

/-- A tree rewritten as a whole is still intact. -/
theorem Intact.rewritten {ks : List TupleId} (hi : Intact p L root)
    (hr : Rewritten p.tree p'.tree BTREE_MAX_KEYS L root ks)
    (htyped : ∀ id, kds_is_btree_page (p'.frame id) = kds_is_btree_page (p.frame id))
    (hfail : p'.NoFailure) : Intact p' L root :=
  ⟨hfail, fun j hj => by rw [htyped]; exact hi.typed j (hr.subset j hj), hr.shape, hr.nodup⟩

/-- A step below `path k`, seen from the root. -/
theorem Stepped.lift {ks : List TupleId} (hs : Stepped p p' cursor cursor' k (path k))
    (hi : Intact p L root) (hpath : CursorPath p.tree root cursor k path) (hk : k ≤ L)
    (hr : Rewritten p.tree p'.tree BTREE_MAX_KEYS (L - k) (path k) ks) :
    CursorPath p'.tree root cursor' k path ∧
      ∃ c, Focus p.tree BTREE_MAX_KEYS L root (L - k) (path k) c ∧
        Rewritten p.tree p'.tree BTREE_MAX_KEYS L root (c.keysL ++ ks ++ c.keysR) := by
  obtain ⟨_, _, ⟨c, hf⟩, hnot⟩ := hpath.focus hi hk (Nat.le_refl k)
  -- the nodes above are as they were
  have habove : ∀ i < k, p'.tree (path i) = p.tree (path i) := fun i hi => hr.outside _ (hnot i hi)
  refine ⟨⟨hpath.root, fun i hik => ?_, fun i hik => ?_⟩, c, hf, hr.lift hf hi.nodup ?_⟩
  · rcases Nat.lt_or_eq_of_le hik with hlt | rfl
    · obtain ⟨node, hget, hframe, hnode⟩ := hpath.node i hik
      exact ⟨node, (hs.below i hlt).trans hget, hframe, hnode.trans (habove i hlt).symm⟩
    · exact hs.parent
  · obtain ⟨pos, hpos, hslot⟩ := hpath.link i hik
    exact ⟨pos, by rw [hs.positions]; exact hpos, by rw [habove i hik]; exact hslot⟩
  · rcases Nat.eq_zero_or_pos k with rfl | hpos
    · exact Or.inl ⟨rfl, hpath.root⟩
    · exact Or.inr (hpath.root ▸ hnot 0 hpos)

/-- The node at index `k + 1` of the path and its parent, if the node has too few keys. -/
theorem CursorPath.underflow (hpath : CursorPath p.tree root cursor (k + 1) path)
    (hi : Intact p L root) (hk : k + 1 ≤ L) (hbound : k + 1 < 16) :
    (BTREE_MIN_KEYS ≤ (p.tree (path (k + 1))).keys.length ∧
        btree_handle_underflow p cursor (k + 1) = .ok (cursor, p)) ∨
      ∃ pos parent node, Underflow p cursor k (L - (k + 1)) (path k) (path (k + 1)) pos parent node := by
  obtain ⟨node, hget, hframe, hnode⟩ := hpath.node (k + 1) (Nat.le_refl _)
  obtain ⟨parent, hgetp, hframep, hnodep⟩ := hpath.node k (Nat.le_succ k)
  obtain ⟨pos, hpos, hslot⟩ := hpath.link k (Nat.lt_succ_self k)
  obtain ⟨hshape, hnd, ⟨c, hf⟩, _⟩ := hpath.focus hi hk (Nat.le_succ k)
  have hcount := BtreePageData.length_keys (key_count_le_of_nodeOk hnode
    (hpath.focus hi hk (Nat.le_refl _)).1.nodeOk)
  by_cases hfew : node.key_count.toNat < BTREE_MIN_KEYS
  · rw [show L - k = L - (k + 1) + 1 by omega] at hshape hnd hf
    refine Or.inr ⟨pos, parent, node, hi.noFailure, fun j hj => hi.typed j ?_, hshape, hnd, hbound, hgetp,
      hframep, hnodep, hget, hframe, hnode, hpos, hslot, hfew⟩
    rw [hf.pages_eq p.tree fun _ _ => rfl]
    simp [hj]
  · refine Or.inl ⟨by rw [← hnode, hcount]; exact Nat.not_lt.mp hfew, ?_⟩
    have hno : btree_node_is_underflow node.toBtreePageData = false := decide_eq_false hfew
    simp only [btree_handle_underflow, hget, bind, Except.bind, hno, Bool.not_false, if_true]

/-- **The cascade**: from a node above the leaves up, handling underflows
    keeps the listing of the whole tree. -/
theorem btree_handle_underflow_inner (k : Nat) : ∀ (p : Pool) (cursor : BtreeCursor), k < L → k < 16 →
    Intact p L root → CursorPath p.tree root cursor k path →
    ∃ cursor' p', btree_handle_underflow p cursor k = .ok (cursor', p') ∧
      cursor'.depth = cursor.depth ∧ Intact p' L root ∧ CursorNode p'.tree cursor' 0 root ∧
      Rewritten p.tree p'.tree BTREE_MAX_KEYS L root (inorder p.tree L root) := by
  induction k with
  | zero =>
    intro p cursor _ _ hi hpath
    exact ⟨cursor, p, rfl, rfl, hi, hpath.root ▸ hpath.node 0 (Nat.le_refl 0),
      Rewritten.refl hi.shape hi.nodup⟩
  | succ k ih =>
    intro p cursor hL hk hi hpath
    have hpath' : CursorPath p.tree root cursor k path :=
      ⟨hpath.root, fun i h => hpath.node i (by omega), fun i h => hpath.link i (by omega)⟩
    rcases hpath.underflow hi (Nat.le_of_lt hL) hk with ⟨_, hrun⟩ | ⟨pos, parent, node, hu⟩
    · exact ⟨cursor, p, hrun, rfl, hi, hpath.root ▸ hpath.node 0 (Nat.zero_le _),
        Rewritten.refl hi.shape hi.nodup⟩
    obtain ⟨l, hl⟩ : ∃ l, L - (k + 1) = l + 1 := ⟨L - (k + 2), by omega⟩
    have hLk : L - k = l + 2 := by omega
    rw [hl] at hu
    -- a rewriting below `path k` that keeps its listing keeps the whole listing
    have hkeep : ∀ {p' cursor'}, Stepped p p' cursor cursor' k (path k) →
        Rewritten p.tree p'.tree BTREE_MAX_KEYS (l + 2) (path k) (inorder p.tree (l + 2) (path k)) →
        CursorPath p'.tree root cursor' k path ∧
          Rewritten p.tree p'.tree BTREE_MAX_KEYS L root (inorder p.tree L root) := by
      intro p' cursor' hs hr
      rw [← hLk] at hr
      obtain ⟨hp', c, hf, hr'⟩ := hs.lift hi hpath' (by omega) hr
      rw [hf.inorder_eq p.tree fun _ _ => rfl]
      exact ⟨hp', hr'⟩
    rcases hu.step with ⟨cursor', p', hrun, hs, hb⟩ | (⟨cursor', p', hrun, hs, hj⟩ | ⟨h0, _⟩) | ⟨_, hrun⟩
    · obtain ⟨hp', hr⟩ := hkeep hs (hb.rewritten hu.shape hu.nodup)
      exact ⟨cursor', p', hrun, hs.depth, hi.rewritten hr hs.typed hs.noFailure,
        hp'.root ▸ hp'.node 0 (Nat.zero_le _), hr⟩
    · obtain ⟨hp', hr⟩ := hkeep hs (hj.rewritten hu.shape hu.nodup)
      obtain ⟨cursor'', p'', hrun', hdep, hi'', hroot, hr'⟩ :=
        ih p' cursor' (by omega) (by omega) (hi.rewritten hr hs.typed hs.noFailure) hp'
      rw [hr.inorder_eq] at hr'
      exact ⟨cursor'', p'', hrun.trans hrun', hdep.trans hs.depth, hi'', hroot, hr.trans hr'⟩
    · omega
    · obtain ⟨cursor', p', hrun', hdep, hi', hroot, hr⟩ := ih p cursor (by omega) (by omega) hi hpath'
      exact ⟨cursor', p', hrun.trans hrun', hdep, hi', hroot, hr⟩

end cascade

/-! ## Section 5: The leaves -/

/-- A separator between two leaves that is not in the new listing. -/
def SeparatorLost (σ σ' : Store PageId TupleId) (pid : PageId) : Prop :=
  ∃ s ks, s ∈ (σ pid).keys ∧ Rewritten σ σ' BTREE_MAX_KEYS 1 pid ks ∧ s ∉ ks

theorem Borrowed.separatorLost {σ σ' : Store PageId TupleId} {pid : PageId}
    (h : Borrowed σ σ' 0 pid) (hshape : Shape σ BTREE_MAX_KEYS 1 pid)
    (hnd : (pages σ 1 pid).Nodup) (hkeys : (inorder σ 1 pid).Nodup) : SeparatorLost σ σ' pid := by
  obtain ⟨K₁, s, K₂, S₁, a, b, S₂, s', ⟨hsplit, h₁, hother⟩, hnew, hm⟩ := h
  have hla : (σ a).level = 0 := (hshape.2 a (by rw [hsplit]; simp)).nodeOk.level
  have hlb : (σ b).level = 0 := (hshape.2 b (by rw [hsplit]; simp)).nodeOk.level
  have hof := hm.leaf hla
  have hnew' : σ' pid = ⟨1, K₁ ++ [s'] ++ K₂, S₁ ++ [a, b] ++ S₂⟩ := by rw [hnew]; simp
  obtain ⟨ks, hr, hs⟩ := separator_lost hshape hnd hkeys hsplit h₁ hother hnew' rfl
    (List.Sublist.refl _) rfl
    (by
      intro t ht
      rcases List.mem_cons.mp ht with rfl | ht
      · exact ⟨hm.level_left.trans hla, hm.keys_left, hm.slots_left⟩
      · obtain rfl := List.mem_singleton.mp ht
        exact ⟨hm.level_right.trans hlb, hm.keys_right, hm.slots_right⟩)
    (by simpa using hof s' (by simp))
    (by
      intro t ht k hk
      rcases List.mem_cons.mp ht with rfl | ht
      · exact hof k (by simp [hk])
      · obtain rfl := List.mem_singleton.mp ht
        exact hof k (by simp [hk]))
  exact ⟨s, ks, by rw [hsplit]; simp, hr, hs⟩

theorem Joined.separatorLost {σ σ' : Store PageId TupleId} {pid : PageId}
    (h : Joined σ σ' 0 pid) (hshape : Shape σ BTREE_MAX_KEYS 1 pid)
    (hnd : (pages σ 1 pid).Nodup) (hkeys : (inorder σ 1 pid).Nodup) : SeparatorLost σ σ' pid := by
  obtain ⟨K₁, s, K₂, S₁, a, b, S₂, ⟨hsplit, h₁, hother⟩, hnew, hm⟩ := h
  have hla : (σ a).level = 0 := (hshape.2 a (by rw [hsplit]; simp)).nodeOk.level
  have hnew' : σ' pid = ⟨1, K₁ ++ [] ++ K₂, S₁ ++ [a] ++ S₂⟩ := by rw [hnew]; simp
  obtain ⟨ks, hr, hs⟩ := separator_lost hshape hnd hkeys hsplit h₁ hother hnew' rfl (by simp) rfl
    (by
      intro t ht
      obtain rfl := List.mem_singleton.mp ht
      exact ⟨hm.level.trans hla, hm.keys, hm.slots⟩)
    (by simp)
    (by
      intro t ht k hk
      obtain rfl := List.mem_singleton.mp ht
      exact hm.leaf hla k hk)
  exact ⟨s, ks, by rw [hsplit]; simp, hr, hs⟩

/-- What is lost below `path k` is lost from the tree. -/
theorem lost_of_focus {σ : Store PageId TupleId} {L l : Nat} {root id : PageId}
    {c : Context PageId TupleId} {s : TupleId} {ks : List TupleId}
    (hf : Focus σ BTREE_MAX_KEYS L root l id c) (hnd : (inorder σ L root).Nodup)
    (hs : s ∈ inorder σ l id) (hks : s ∉ ks) :
    s ∈ inorder σ L root ∧ s ∉ c.keysL ++ ks ++ c.keysR := by
  rw [hf.inorder_eq σ fun _ _ => rfl] at hnd ⊢
  obtain ⟨hlm, _, hr⟩ := List.nodup_append.mp hnd
  obtain ⟨_, _, hl⟩ := List.nodup_append.mp hlm
  refine ⟨by simp [hs], fun hmem => ?_⟩
  rcases List.mem_append.mp hmem with hmem | hmem
  · rcases List.mem_append.mp hmem with hmem | hmem
    · exact hl s hmem s hs rfl
    · exact hks hmem
  · exact hr s (by simp [hs]) s hmem rfl

section leaf

variable {p : Pool} {cursor : BtreeCursor} {k : Nat} {root : PageId} {path : Nat → PageId} {pos : Nat}
  {parent node : BtreeNode}

/-- An underflow at a leaf with neighbours: the handling stops, or a separator is lost. -/
theorem btree_handle_underflow_leaf (hi : Intact p (k + 1) root)
    (hpath : CursorPath p.tree root cursor (k + 1) path)
    (hu : Underflow p cursor k 0 (path k) (path (k + 1)) pos parent node)
    (hkeys : (inorder p.tree (k + 1) root).Nodup) (hne : (p.tree (path k)).keys ≠ []) :
    (∃ f, btree_handle_underflow p cursor (k + 1) = .error f) ∨
      ∃ cursor' p' s ks, btree_handle_underflow p cursor (k + 1) = .ok (cursor', p') ∧
        cursor'.depth = cursor.depth ∧ Intact p' (k + 1) root ∧ CursorNode p'.tree cursor' 0 root ∧
        Rewritten p.tree p'.tree BTREE_MAX_KEYS (k + 1) root ks ∧
        s ∈ inorder p.tree (k + 1) root ∧ s ∉ ks := by
  have hpath' : CursorPath p.tree root cursor k path :=
    ⟨hpath.root, fun i h => hpath.node i (by omega), fun i h => hpath.link i (by omega)⟩
  have hsub : k + 1 - k = 1 := by omega
  have hkeys' : (inorder p.tree 1 (path k)).Nodup := by
    obtain ⟨_, _, ⟨c, hf⟩, _⟩ := hpath'.focus hi (Nat.le_succ k) (Nat.le_refl k)
    rw [hf.inorder_eq p.tree fun _ _ => rfl, hsub] at hkeys
    exact (List.nodup_append.mp (List.nodup_append.mp hkeys).1).2.1
  -- the loss below the parent is a loss for the tree
  have hlift : ∀ {p' cursor'}, Stepped p p' cursor cursor' k (path k) →
      SeparatorLost p.tree p'.tree (path k) → CursorPath p'.tree root cursor' k path ∧
        ∃ s ks, Rewritten p.tree p'.tree BTREE_MAX_KEYS (k + 1) root ks ∧
          s ∈ inorder p.tree (k + 1) root ∧ s ∉ ks := by
    intro p' cursor' hs hlost
    obtain ⟨s, ks, hmem, hr, hnot⟩ := hlost
    rw [← hsub] at hr
    obtain ⟨hp', c, hf, hr'⟩ := hs.lift hi hpath' (Nat.le_succ k) hr
    have hmem' : s ∈ inorder p.tree (k + 1 - k) (path k) := by
      rw [hsub]
      exact mem_weave_of_mem_keys hu.shape.nodeOk.slots_eq hmem
    obtain ⟨hin, hout⟩ := lost_of_focus hf hkeys hmem' hnot
    exact ⟨hp', s, _, hr', hin, hout⟩
  rcases hu.step with ⟨cursor', p', hrun, hs, hb⟩ | (⟨cursor', p', hrun, hs, hj⟩ | ⟨_, _, hf⟩) | ⟨h0, _⟩
  · obtain ⟨hp', s, ks, hr, hin, hout⟩ := hlift hs (hb.separatorLost hu.shape hu.nodup hkeys')
    exact Or.inr ⟨cursor', p', s, ks, hrun, hs.depth, hi.rewritten hr hs.typed hs.noFailure,
      hp'.root ▸ hp'.node 0 (Nat.zero_le _), hr, hin, hout⟩
  · obtain ⟨hp', s, ks, hr, hin, hout⟩ := hlift hs (hj.separatorLost hu.shape hu.nodup hkeys')
    have hk := hu.bound
    obtain ⟨cursor'', p'', hrun', hdep, hi'', hroot, hr'⟩ :=
      btree_handle_underflow_inner k p' cursor' (Nat.lt_succ_self k) (by omega)
        (hi.rewritten hr hs.typed hs.noFailure) hp'
    rw [hr.inorder_eq] at hr'
    exact Or.inr ⟨cursor'', p'', s, ks, hrun.trans hrun', hdep.trans hs.depth, hi'', hroot,
      hr.trans hr', hin, hout⟩
  · exact Or.inl hf
  · exact absurd h0 hne

/-- An underflow at a leaf without neighbours: only the levels above change. -/
theorem btree_handle_underflow_alone (hi : Intact p (k + 1) root)
    (hpath : CursorPath p.tree root cursor (k + 1) path)
    (hu : Underflow p cursor k 0 (path k) (path (k + 1)) pos parent node)
    (h0 : (p.tree (path k)).keys = []) :
    ∃ cursor' p', btree_handle_underflow p cursor (k + 1) = .ok (cursor', p') ∧
      cursor'.depth = cursor.depth ∧ Intact p' (k + 1) root ∧ CursorNode p'.tree cursor' 0 root ∧
      Rewritten p.tree p'.tree BTREE_MAX_KEYS (k + 1) root (inorder p.tree (k + 1) root) := by
  have hnone : ∀ {K₁ s K₂ S₁ a b S₂ σ'}, ¬ Between p.tree σ' 0 (path k) K₁ s K₂ S₁ a b S₂ := by
    intro K₁ s K₂ S₁ a b S₂ σ' hb
    rw [hb.split] at h0
    simp at h0
  rcases hu.step with ⟨_, _, _, _, _, _, _, _, _, _, _, _, hb, _⟩ |
    (⟨_, _, _, _, _, _, _, _, _, _, _, hb, _⟩ | ⟨_, hne, _⟩) | ⟨_, hrun⟩
  · exact absurd hb hnone
  · exact absurd hb hnone
  · exact absurd h0 hne
  · obtain ⟨cursor', p', hrun', h⟩ := btree_handle_underflow_inner k p cursor (Nat.lt_succ_self k)
      (Nat.lt_of_succ_lt hu.bound) hi ⟨hpath.root, fun i h => hpath.node i (by omega),
        fun i h => hpath.link i (by omega)⟩
    exact ⟨cursor', p', hrun.trans hrun', h⟩

end leaf

/-! ## Section 6: The end of a deletion -/

theorem becomes_setPageType (p : Pool) (id : PageId) {type : PageType}
    (h : type = .btreeRoot) (ht : kds_is_btree_page (p.frame id) = true) :
    p.Becomes (setPageType p id type) p.tree := by
  refine becomes_setFrame_same rfl ?_
  rw [ht, h]
  rfl

/-- The tree that a deletion leaves: at the root, or in its first slot when
    the root has been freed. -/
def rootAfter (p p' : Pool) (l : Nat) (root : PageId) : Nat × PageId :=
  if (p'.tree root).level = l then (l, root) else (l - 1, (p.tree root).slots.headD 0)

/-- A root without keys is freed; its only child gets a new page header. -/
theorem collapseRoot_empty {p : Pool} {node : BtreeNode} {root child : PageId} (hfail : p.NoFailure)
    (hframe : node.frame = some root) (hlev : node.level ≠ 0) (hcount : node.key_count = 0)
    (hget : arrGet node.slots 0 = .ok child) (htyped : kds_is_btree_page (p.frame child) = true) :
    ∃ p', collapseRoot p node = .ok (.ok (), p') ∧
      p.Becomes p' (Function.update p.tree root emptyNode) := by
  obtain ⟨p₁, hload, hs₁⟩ := lookup_same hfail child
  obtain ⟨p₂, hp₂, hb₂⟩ : ∃ p₂, (if (p₁.frame child).hdr.type = .btreeInternal then
      setPageType p₁ child .btreeRoot else p₁) = p₂ ∧ p₁.Becomes p₂ p₁.tree := by
    by_cases ht : (p₁.frame child).hdr.type = .btreeInternal
    · exact ⟨_, if_pos ht, becomes_setPageType p₁ child rfl (by rw [hs₁.typed]; exact htyped)⟩
    · exact ⟨_, if_neg ht, Pool.Becomes.refl p₁⟩
  have hb₃ := becomes_setPageDirty p₂ child
  have hb₄ := becomes_commit_page_hdr (setPageDirty p₂ child) child
  rw [hb₂.tree] at hb₃
  rw [hb₃.tree] at hb₄
  have hb₅ := (((hs₁.becomes.trans hb₂).trans hb₃).trans hb₄).same
    (same_unpin (kds_commit_page_hdr (setPageDirty p₂ child) child) child)
  have hb₆ := becomes_free_page (kds_buf_unpin (kds_commit_page_hdr (setPageDirty p₂ child) child)
    child) root
  rw [hb₅.tree, hs₁.tree] at hb₆
  refine ⟨_, ?_, hb₅.trans hb₆⟩
  simp only [collapseRoot, if_pos (show node.level ≠ 0 ∧ node.key_count = 0 from ⟨hlev, hcount⟩),
    hget, hload, bind, Except.bind, hp₂, freeNode_ok hframe]

/-- `collapseRoot` keeps the listing, in the root or in its only child. -/
theorem collapseRoot_spec {p₀ p : Pool} {node : BtreeNode} {L : Nat} {root : PageId}
    (hi : Intact p L root) (hframe : node.frame = some root) (hnode : node.treeNode = p.tree root)
    (hhead : (p.tree root).slots.head? = (p₀.tree root).slots.head?) :
    ∃ p', collapseRoot p node = .ok (.ok (), p') ∧
      Intact p' (rootAfter p₀ p' L root).1 (rootAfter p₀ p' L root).2 ∧
      inorder p'.tree (rootAfter p₀ p' L root).1 (rootAfter p₀ p' L root).2 =
        inorder p.tree L root := by
  have hok := hi.shape.nodeOk
  have hle := key_count_le_of_nodeOk hnode hok
  by_cases hc : node.level ≠ 0 ∧ node.key_count = 0
  -- an inner root without keys has one child, which becomes the tree
  · obtain ⟨hlev, hcount⟩ := hc
    obtain ⟨l, rfl⟩ : ∃ l, L = l + 1 := by
      refine Nat.exists_eq_succ_of_ne_zero fun h0 => hlev ((level_eq_zero_iff _).mpr ?_)
      rw [hnode, hok.level, h0]
    have hkeys : (p.tree root).keys = [] := by
      rw [← hnode, ← List.length_eq_zero_iff, BtreePageData.length_keys hle, hcount]
      rfl
    obtain ⟨child, hslots⟩ : ∃ child, (p.tree root).slots = [child] :=
      List.length_eq_one_iff.mp (by rw [hok.slots_eq, hkeys]; rfl)
    have hsplit : (p.tree root).slots = [] ++ child :: [] := hslots
    obtain ⟨hid, hndc, _⟩ := children_disjoint hi.nodup hsplit
    have hmem : child ∈ (p.tree root).slots := by rw [hslots]; simp
    rw [← hnode] at hsplit
    obtain ⟨p', hrun, hb⟩ := collapseRoot_empty hi.noFailure hframe hlev hcount
      (BtreePageData.slots_get hle hsplit).2
      (hi.typed child (pages_subset_of_slot hmem _ (self_mem_pages _ _ _)))
    refine ⟨p', hrun, ?_⟩
    have hroot : rootAfter p₀ p' (l + 1) root = (l, child) := by
      unfold rootAfter
      rw [hb.tree, Function.update_self]
      show (if 0 = l + 1 then _ else _) = _
      rw [if_neg (Nat.succ_ne_zero l).symm, List.headD_eq_head?_getD, ← hhead, hslots]
      rfl
    -- only the old root is written, and it is no page of the child
    have hsame : ∀ j ∈ pages p.tree l child, p'.tree j = p.tree j := by
      intro j hj
      rw [hb.tree]
      refine Function.update_of_ne ?_ _ _
      rintro rfl
      exact hid hj
    obtain ⟨hin, hpages, _, hshape⟩ := subtree_congr l child hsame
    rw [hroot]
    refine ⟨⟨hb.noFailure hi.noFailure, fun j hj => ?_, (hshape _).mpr (hi.shape.2 child hmem), ?_⟩, ?_⟩
    · rw [hpages] at hj
      rw [hb.typed]
      exact hi.typed j (pages_subset_of_slot hmem j hj)
    · rw [hpages]; exact hndc
    · rw [hin]
      simp [inorder, hslots, hkeys, weave_singleton]
  -- any other root stays
  · refine ⟨p, by rw [collapseRoot, if_neg hc], ?_⟩
    have hroot : rootAfter p₀ p L root = (L, root) := if_pos hok.level
    rw [hroot]
    exact ⟨hi, rfl⟩

/-! ## Section 7: Deletion -/

/-- A leaf at the end of the path with too few keys and a neighbour. -/
def LeafUnderflow (σ : Store PageId TupleId) (path : Nat → PageId) (d L : Nat) : Prop :=
  d = L ∧ 0 < d ∧ (σ (path d)).keys.length < BTREE_MIN_KEYS ∧ (σ (path (d - 1))).keys ≠ []

/-- The underflow handling as `btree_delete` calls it: harmless, or a separator
    between two leaves is lost. -/
theorem underflow_outcome {p : Pool} {cursor : BtreeCursor} {L d : Nat} {root : PageId}
    {path : Nat → PageId} {leaf : BtreeNode} (hi : Intact p L root)
    (hpath : CursorPath p.tree root cursor d path) (hd : d ≤ L) (h16 : d < 16)
    (hkeys : (inorder p.tree L root).Nodup)
    (hleaf : leaf.treeNode = p.tree (path d)) :
    (LeafUnderflow p.tree path d L ∧
        ∃ f, (if d > 0 ∧ btree_node_is_underflow leaf.toBtreePageData then
          btree_handle_underflow p cursor d else .ok (cursor, p)) = .error f) ∨
      ∃ cursor' p' ks, (if d > 0 ∧ btree_node_is_underflow leaf.toBtreePageData then
          btree_handle_underflow p cursor d else .ok (cursor, p)) = .ok (cursor', p') ∧
        cursor'.depth = cursor.depth ∧ Intact p' L root ∧ CursorNode p'.tree cursor' 0 root ∧
        Rewritten p.tree p'.tree BTREE_MAX_KEYS L root ks ∧
        (¬ LeafUnderflow p.tree path d L ∧ ks = inorder p.tree L root ∨
          LeafUnderflow p.tree path d L ∧ ∃ s ∈ inorder p.tree L root, s ∉ ks) := by
  have hcount := BtreePageData.length_keys (key_count_le_of_nodeOk hleaf
    (hpath.focus hi hd (Nat.le_refl d)).1.nodeOk)
  rw [hleaf] at hcount
  by_cases hc : d > 0 ∧ btree_node_is_underflow leaf.toBtreePageData = true
  · rw [if_pos hc]
    have hfew : leaf.key_count.toNat < BTREE_MIN_KEYS := of_decide_eq_true hc.2
    obtain ⟨k, rfl⟩ : ∃ k, d = k + 1 := ⟨d - 1, by omega⟩
    -- what an inner node does to its siblings is right; a leaf may lose a separator
    rcases Nat.lt_or_eq_of_le hd with hlt | rfl
    · obtain ⟨cursor', p', hrun, hdep, hi', hroot, hr⟩ :=
        btree_handle_underflow_inner (k + 1) p cursor hlt h16 hi hpath
      exact Or.inr ⟨cursor', p', _, hrun, hdep, hi', hroot, hr,
        Or.inl ⟨fun hbad => absurd hbad.1 (Nat.ne_of_lt hlt), rfl⟩⟩
    · rcases hpath.underflow hi hd h16 with ⟨hmany, _⟩ | ⟨pos, parent, node, hu⟩
      · omega
      · rw [Nat.sub_self] at hu
        -- a parent without keys has no sibling to offer
        by_cases h0 : (p.tree (path k)).keys = []
        · obtain ⟨cursor', p', hrun, hdep, hi', hroot, hr⟩ :=
            btree_handle_underflow_alone hi hpath hu h0
          exact Or.inr ⟨cursor', p', _, hrun, hdep, hi', hroot, hr,
            Or.inl ⟨fun hbad => hbad.2.2.2 h0, rfl⟩⟩
        · have hbad : LeafUnderflow p.tree path (k + 1) (k + 1) :=
            ⟨rfl, hc.1, by rw [hcount]; exact hfew, h0⟩
          rcases btree_handle_underflow_leaf hi hpath hu hkeys h0 with
            hf | ⟨cursor', p', s, ks, hrun, hdep, hi', hroot, hr, hs, hns⟩
          · exact Or.inl ⟨hbad, hf⟩
          · exact Or.inr ⟨cursor', p', ks, hrun, hdep, hi', hroot, hr, Or.inr ⟨hbad, s, hs, hns⟩⟩
  -- no underflow, and nothing happens
  · rw [if_neg hc]
    refine Or.inr ⟨cursor, p, _, rfl, rfl, hi, hpath.root ▸ hpath.node 0 (Nat.zero_le _),
      Rewritten.refl hi.shape hi.nodup, Or.inl ⟨?_, rfl⟩⟩
    rintro ⟨_, hpos, hfew, _⟩
    exact hc ⟨hpos, decide_eq_true (by rw [← hcount]; exact hfew)⟩

/-- What is taken out together with a key: above the leaves the subtree behind it. -/
def behindKey (σ : Store PageId TupleId) (key : TupleId) (n : PageId) : List TupleId :=
  match (σ n).level with
  | 0 => []
  | l + 1 =>
      match (σ n).slots[position key (σ n).keys + 1]? with
      | some s => inorder σ l s
      | none => []

/-- The key and the slot behind it taken out of node `n`. -/
theorem rewritten_remove_key {σ σ' : Store PageId TupleId} {l : Nat} {n : PageId} {key : TupleId}
    (hshape : Shape σ BTREE_MAX_KEYS l n) (hnd : (pages σ l n).Nodup)
    (hsorted : (σ n).keys.Pairwise (· < ·)) (hkey : key ∈ (σ n).keys)
    (hother : ∀ j, j ≠ n → σ' j = σ j)
    (hnew : σ' n = (σ n).removeAt (position key (σ n).keys)) :
    ∃ xs ys, inorder σ l n = xs ++ key :: (behindKey σ key n ++ ys) ∧
      Rewritten σ σ' BTREE_MAX_KEYS l n (xs ++ ys) := by
  obtain ⟨K₁, K₂, hkeys, hK₁⟩ := exists_split_of_getElem? (getElem?_position hsorted hkey)
  have hlen := hshape.nodeOk.slots_eq
  have hmax := hshape.nodeOk.keys_le
  have hlev := hshape.nodeOk.level
  obtain ⟨b, hb⟩ : ∃ b, (σ n).slots[K₁.length + 1]? = some b := by
    refine ⟨_, List.getElem?_eq_getElem ?_⟩
    rw [hlen, hkeys, List.length_append, List.length_cons]
    omega
  obtain ⟨S₀, S₂, hslots, hS₀⟩ := exists_split_of_getElem? hb
  obtain ⟨S₁, a, rfl⟩ := exists_append_singleton (show 0 < S₀.length by omega)
  rw [List.append_assoc, List.singleton_append] at hslots
  rw [List.length_append, List.length_singleton] at hS₀
  -- the key stands between the children `a` and `b`, and `b` goes with it
  have h₁ : S₁.length = K₁.length := by omega
  have hold : σ n = ⟨l, K₁ ++ key :: K₂, S₁ ++ a :: b :: S₂⟩ := by rw [← hkeys, ← hslots, ← hlev]
  have hnew' : σ' n = ⟨l, K₁ ++ K₂, S₁ ++ a :: S₂⟩ := by
    rw [hnew, ← hK₁]
    rw [hold]
    exact Node.removeAt_split l key a b h₁
  cases l with
  -- in a leaf nothing is listed for a slot
  | zero =>
    refine ⟨K₁, K₂, ?_, ?_⟩
    · simp [inorder, behindKey, hold]
    · rw [hold] at hmax
      have hok : NodeOk σ' BTREE_MAX_KEYS 0 n := by
        refine ⟨by rw [hnew'], ?_, ?_⟩
        · rw [hnew']
          simp only [List.length_append, List.length_cons] at hmax ⊢
          omega
        · rw [hold] at hlen
          rw [hnew']
          simp only [List.length_append, List.length_cons] at hlen ⊢
          omega
      have hr := rewritten_leaf hok hother (by rw [hnew', hold]; cases S₁ <;> rfl)
      rwa [hnew'] at hr
  | succ l =>
    have hbehind : behindKey σ key n = inorder σ l b := by
      simp only [behindKey, hlev, ← hK₁, hb]
    rw [hbehind]
    exact rewritten_removeAt hshape hnd hold h₁ hother hnew'

/-- The cursor after the descent holds the search path. -/
theorem cursorPath_of_search {σ : Store PageId TupleId} {cursor : BtreeCursor} {L : Nat}
    {root : PageId} {key : TupleId} {pre : List PageId} {n : PageId}
    (hshape : Shape σ BTREE_MAX_KEYS L root) (hsearch : searchPath σ key L root = pre ++ [n])
    (hat : ∀ i m, (searchPath σ key L root)[i]? = some m → CursorAt σ key cursor i m) :
    ∃ path, CursorPath σ root cursor pre.length path ∧ path pre.length = n ∧
      (0 < pre.length → pre.getLast? = some (path (pre.length - 1))) := by
  have hget : ∀ i ≤ pre.length, (searchPath σ key L root)[i]? = some ((pre ++ [n]).getD i 0) := by
    intro i hi
    rw [hsearch, List.getD_eq_getElem?_getD, List.getElem?_eq_getElem]
    · rfl
    · rw [List.length_append, List.length_singleton]
      omega
  refine ⟨fun i => (pre ++ [n]).getD i 0, ⟨?_, fun i hi => (hat i _ (hget i hi)).node,
    fun i hi => ?_⟩, by simp, fun hpos => ?_⟩
  · rw [← hsearch]
    cases L <;> rfl
  · refine ⟨_, (hat i _ (hget i (Nat.le_of_lt hi))).position, ?_⟩
    exact (searchPath_link key L root hshape i _ _ (hget i (Nat.le_of_lt hi)) (hget (i + 1) hi)).2
  · have hlt : pre.length - 1 < pre.length := by omega
    have hlast : (pre ++ [n]).getD (pre.length - 1) 0 = pre[pre.length - 1] := by
      rw [List.getD_eq_getElem?_getD, List.getElem?_append_left hlt, List.getElem?_eq_getElem hlt]
      rfl
    rw [List.getLast?_eq_getElem?, List.getElem?_eq_getElem hlt]
    exact congrArg some hlast.symm

theorem keys_sorted {σ : Store PageId TupleId} {l : Nat} {n : PageId}
    (hshape : Shape σ BTREE_MAX_KEYS l n) (h : (inorder σ l n).Pairwise (· < ·)) :
    (σ n).keys.Pairwise (· < ·) := by
  cases l with
  | zero => exact h
  | succ l => exact ((weave_sorted_iff hshape.nodeOk.slots_eq).mp h).1

/-- The first part of `btree_delete`: the key leaves its node. -/
theorem remove_found {p : Pool} {cursor : BtreeCursor} {key : TupleId} {d l : Nat} {n : PageId}
    (hfail : p.NoFailure) (hat : CursorAt p.tree key cursor d n) (hd : d < 16)
    (hok : NodeOk p.tree BTREE_MAX_KEYS l n) (hsorted : (p.tree n).keys.Pairwise (· < ·))
    (hkey : key ∈ (p.tree n).keys) (htyped : kds_is_btree_page (p.frame n) = true) :
    ∃ leaf leaf' p₁ p₂, arrGet cursor.nodes (d : Int) = .ok leaf ∧
      btree_node_remove_at leaf (position key (p.tree n).keys : Nat) = .ok leaf' ∧
      store_btree_node p leaf' = .ok p₁ ∧ dirtyNode p₁ leaf' = .ok p₂ ∧
      leaf'.treeNode = (p.tree n).removeAt (position key (p.tree n).keys) ∧
      p₂.tree = Function.update p.tree n leaf'.treeNode ∧
      Stepped p p₂ cursor { cursor with nodes := cursor.nodes.set d leaf' hd } d n := by
  obtain ⟨leaf, hget, hframe, hnode⟩ := hat.node
  have hle := key_count_le_of_nodeOk hnode hok
  have hpos : position key (p.tree n).keys < leaf.key_count.toNat := by
    rw [← BtreePageData.length_keys hle, hnode]
    exact (List.getElem?_eq_some_iff.mp (getElem?_position hsorted hkey)).1
  obtain ⟨leaf', hremove, hframe', hnode'⟩ := btree_node_remove_at_spec hle hpos
  rw [hnode] at hnode'
  obtain ⟨p₁, hstore, hb₁⟩ := store_btree_node_ok (hframe'.trans hframe) htyped
  have hb₂ := becomes_setPageDirty p₁ n
  rw [hb₁.tree] at hb₂
  have hb := hb₁.trans hb₂
  refine ⟨leaf, leaf', p₁, _, hget, hremove, hstore, dirtyNode_ok (hframe'.trans hframe), hnode',
    hb.tree, hb.typed, hb.noFailure hfail, rfl, rfl, fun i hi => ?_, leaf', ?_,
    hframe'.trans hframe, ?_⟩
  · exact arrGet_set_ne _ hd (by omega) _
  · exact arrGet_set_self _ hd _
  · rw [hb.tree, Function.update_self]

/-- At a leaf: enough keys, or nothing to borrow from or to merge with. -/
def LeafSafe (σ : Store PageId TupleId) (n : PageId) (parent : Option PageId) : Prop :=
  (σ n).level = 0 → BTREE_MIN_KEYS < (σ n).keys.length ∨ ∀ m ∈ parent, (σ m).keys = []

/-- What follows the underflow handling in `btree_delete`. -/
def deleteEnd (x : BtreeCursor × Pool) : Except Fault (Except Errno Unit × Pool) := do
  let root ← arrGet x.1.nodes 0
  let (ret, p) ← collapseRoot x.2 root
  let (_, p) ← btree_cursor_cleanup x.1 p
  .ok (ret, p)

/-- A deletion, up to the underflow handling: the key is out of its node. -/
structure Removed (p : Pool) (L : Nat) (root : PageId) (key : TupleId) (d : Nat) (cursor : BtreeCursor)
    (p' : Pool) (leaf : BtreeNode) (path : Nat → PageId) (ks : List TupleId) : Prop where
  intact : Intact p' L root
  cursorPath : CursorPath p'.tree root cursor d path
  le_level : d ≤ L
  lt_depth : d < 16
  depth : cursor.depth = d
  leafNode : leaf.treeNode = p'.tree (path d)
  rewritten : Rewritten p.tree p'.tree BTREE_MAX_KEYS L root ks
  rest : btree_delete p root key =
    (if d > 0 ∧ btree_node_is_underflow leaf.toBtreePageData then
      btree_handle_underflow p' cursor d else .ok (cursor, p')) >>= deleteEnd

section delete

variable {p : Pool} {L : Nat} {root : PageId} {key : TupleId} {pre : List PageId} {n : PageId}

theorem removed_of_found (h : IsBtree p L root) (hfail : p.NoFailure)
    (hlen : (searchPath p.tree key L root).length ≤ 16)
    (hsearch : searchPath p.tree key L root = pre ++ [n]) (hkey : key ∈ (p.tree n).keys) :
    ∃ A B cursor p' leaf path,
      inorder p.tree L root = A ++ key :: (behindKey p.tree key n ++ B) ∧
      Removed p L root key pre.length cursor p' leaf path (A ++ B) ∧
      (LeafUnderflow p'.tree path pre.length L ↔ ¬ LeafSafe p.tree n pre.getLast?) := by
  obtain ⟨cursor, p₁, pre', n', hsearch', hrun, hs₁, hdep, h16, hat⟩ :=
    btree_cursor_search_spec key h.searchTree hfail hlen
  -- the search ends where the key is
  obtain ⟨rfl, heq⟩ := List.append_inj' (hsearch.symm.trans hsearch') rfl
  obtain rfl : n = n' := by simpa using heq
  rw [if_pos hkey] at hrun
  have hi₁ := (h.intact hfail).same hs₁
  obtain ⟨path, hpath, rfl, hparent⟩ := cursorPath_of_search h.wellFormed.shape hsearch hat
  have hdL : pre.length ≤ L := by
    have := length_searchPath_le key L root h.wellFormed.shape
    rw [hsearch, List.length_append, List.length_singleton] at this
    omega
  have hat' := hat pre.length (path pre.length) (by simp [hsearch])
  have hwf := h.wellFormed
  rw [← hs₁.tree] at hpath hkey hat' hwf ⊢
  -- the node of the key, and what is around it in the tree
  obtain ⟨hshape, hnd, ⟨c, hf⟩, hnot⟩ := hpath.focus hi₁ hdL (Nat.le_refl _)
  have hksorted := keys_sorted hshape (hf.wellFormed hwf).1
  have hmem : path pre.length ∈ pages p₁.tree L root := by
    rw [hf.pages_eq p₁.tree fun _ _ => rfl]
    simp [self_mem_pages]
  obtain ⟨leaf, leaf', p₂, p₃, hget, hremove, hstore, hdirty, hleaf', htree₃, hstep⟩ :=
    remove_found hi₁.noFailure hat' h16 hshape.nodeOk hksorted hkey (hi₁.typed _ hmem)
  have hother : ∀ j, j ≠ path pre.length → p₃.tree j = p₁.tree j := by
    intro j hj
    rw [htree₃, Function.update_of_ne hj]
  have hnew : p₃.tree (path pre.length) = leaf'.treeNode := by rw [htree₃, Function.update_self]
  -- the change of that node, then of the whole tree
  obtain ⟨xs, ys, hin, hr⟩ := rewritten_remove_key hshape hnd hksorted hkey hother (hnew.trans hleaf')
  obtain ⟨hpath₃, c, hf, hr'⟩ := hstep.lift hi₁ hpath hdL hr
  refine ⟨c.keysL ++ xs, ys ++ c.keysR, _, p₃, leaf', path, ?_, ⟨?_, hpath₃, hdL, h16, hdep, hnew.symm,
    ?_, ?_⟩, ?_⟩
  · rw [hf.inorder_eq _ fun _ _ => rfl, hin]
    simp
  · exact hi₁.rewritten hr' hstep.typed hstep.noFailure
  · rw [← hs₁.tree]
    simpa using hr'
  · simp only [btree_delete, hrun, bind, Except.bind, hdep, hget, hat'.position, hremove,
      arrSet_nat _ h16, hstore, hdirty, deleteEnd]
    split <;> rfl
  · -- the leaf has lost one key, its parent is as it was
    have hlev := hshape.nodeOk.level
    have hcount : (p₃.tree (path pre.length)).keys.length + 1 =
        (p₁.tree (path pre.length)).keys.length := by
      have hpos := (List.getElem?_eq_some_iff.mp (getElem?_position hksorted hkey)).1
      rw [hnew, hleaf']
      simp only [SearchTree.Node.removeAt, List.length_append, List.length_take, List.length_drop]
      omega
    unfold LeafUnderflow LeafSafe
    rcases Nat.eq_zero_or_pos pre.length with h0 | hpos
    · rw [List.length_eq_zero_iff] at h0
      subst h0
      simp
    · have hne : path (pre.length - 1) ≠ path pre.length := by
        intro he
        have hout := hnot (pre.length - 1) (by omega)
        rw [he] at hout
        exact hout (self_mem_pages _ _ _)
      rw [hparent hpos, hother _ hne, hlev]
      simp only [BTREE_MIN_KEYS, Option.mem_def, Option.some.injEq, forall_eq']
      constructor
      · rintro ⟨hd, _, hfew, hne⟩ hsafe
        rcases hsafe (by omega) with hmany | hempty
        · simp only [BTREE_MAX_KEYS] at hfew hmany
          omega
        · exact hne hempty
      · intro hno
        push Not at hno
        obtain ⟨hd, hfew, hne⟩ := hno
        refine ⟨by omega, hpos, ?_, hne⟩
        simp only [BTREE_MAX_KEYS] at hfew ⊢
        omega

/-- The rest of a deletion keeps the listing. -/
theorem deleteEnd_ok {p₀ p : Pool} {cursor : BtreeCursor} (hi : Intact p L root)
    (hroot : CursorNode p.tree cursor 0 root) (hdep : cursor.depth < 16)
    (hhead : (p.tree root).slots.head? = (p₀.tree root).slots.head?) :
    ∃ p', deleteEnd (cursor, p) = .ok (.ok (), p') ∧
      Intact p' (rootAfter p₀ p' L root).1 (rootAfter p₀ p' L root).2 ∧
      inorder p'.tree (rootAfter p₀ p' L root).1 (rootAfter p₀ p' L root).2 =
        inorder p.tree L root := by
  obtain ⟨node, hget, hframe, hnode⟩ := hroot
  obtain ⟨p₁, hcollapse, hi₁, hin⟩ := collapseRoot_spec hi hframe hnode hhead
  obtain ⟨cursor', p₂, hclean, -, hs⟩ := btree_cursor_cleanup_ok cursor p₁ hdep
  have hafter : rootAfter p₀ p₂ L root = rootAfter p₀ p₁ L root := by
    unfold rootAfter
    rw [hs.tree]
  refine ⟨p₂, ?_, ?_, ?_⟩
  · have hget' : arrGet cursor.nodes 0 = .ok node := hget
    simp only [deleteEnd, bind, Except.bind, hget', hcollapse, hclean]
  · rw [hafter]
    exact hi₁.same hs
  · rw [hafter, hs.tree, hin]

/-- **Deletion of a key that is there**: the key and what is behind it go, and
    at an unsafe leaf a separator goes too, or the deletion stops. -/
theorem btree_delete_found (h : IsBtree p L root) (hfail : p.NoFailure)
    (hlen : (searchPath p.tree key L root).length ≤ 16)
    (hsearch : searchPath p.tree key L root = pre ++ [n]) (hkey : key ∈ (p.tree n).keys) :
    ∃ A B, inorder p.tree L root = A ++ key :: (behindKey p.tree key n ++ B) ∧
      ((¬ LeafSafe p.tree n pre.getLast? ∧ ∃ f, btree_delete p root key = .error f) ∨
        ∃ p', btree_delete p root key = .ok (.ok (), p') ∧
          Intact p' (rootAfter p p' L root).1 (rootAfter p p' L root).2 ∧
          ((LeafSafe p.tree n pre.getLast? ∧
              inorder p'.tree (rootAfter p p' L root).1 (rootAfter p p' L root).2 = A ++ B) ∨
            (¬ LeafSafe p.tree n pre.getLast? ∧ ∃ s ∈ A ++ B,
              s ∉ inorder p'.tree (rootAfter p p' L root).1 (rootAfter p p' L root).2))) := by
  obtain ⟨A, B, cursor, p₁, leaf, path, hin, hrem, hbad⟩ := removed_of_found h hfail hlen hsearch hkey
  refine ⟨A, B, hin, ?_⟩
  have hnodup : (inorder p₁.tree L root).Nodup := by
    rw [hrem.rewritten.inorder_eq]
    have hsorted := (wellFormed_iff.mp h.wellFormed).2.1
    rw [hin] at hsorted
    refine List.Nodup.sublist ?_ (hsorted.imp fun hlt => ne_of_lt hlt)
    exact List.Sublist.append (List.Sublist.refl A)
      (((List.sublist_append_right _ B)).cons key)
  rcases underflow_outcome hrem.intact hrem.cursorPath hrem.le_level hrem.lt_depth hnodup hrem.leafNode
    with ⟨hu, f, hf⟩ | ⟨cursor', p₂, ks, hrun, hdep, hi₂, hroot, hr, hcase⟩
  · refine Or.inl ⟨hbad.mp hu, f, ?_⟩
    rw [hrem.rest, hf]
    rfl
  · have hlt : cursor'.depth < 16 := by
      rw [hdep, hrem.depth]
      exact hrem.lt_depth
    obtain ⟨p', hend, hi', hin'⟩ := deleteEnd_ok hi₂ hroot hlt (hr.head.trans hrem.rewritten.head)
    rw [hr.inorder_eq] at hin'
    refine Or.inr ⟨p', ?_, hi', ?_⟩
    · rw [hrem.rest, hrun]
      exact hend
    · rw [hin']
      rw [hrem.rewritten.inorder_eq, hbad] at hcase
      rcases hcase with ⟨hsafe, rfl⟩ | hlost
      · exact Or.inl ⟨not_not.mp hsafe, rfl⟩
      · exact Or.inr hlost

/-- A key that is not there. -/
theorem btree_delete_absent (h : IsBtree p L root) (hfail : p.NoFailure)
    (hlen : (searchPath p.tree key L root).length ≤ 16) (hkey : key ∉ inorder p.tree L root) :
    ∃ p', btree_delete p root key = .ok (.error .ENOENT, p') ∧ p'.frame = p.frame := by
  obtain ⟨cursor, p₁, pre, n, hsearch, hrun, hs₁, hdep, h16, _⟩ :=
    btree_cursor_search_spec key h.searchTree hfail hlen
  rw [if_neg fun hmem => hkey ((mem_inorder_iff_last L root h.searchTree.shape h.searchTree.ordered hsearch).mpr hmem)] at hrun
  obtain ⟨cursor', p₂, hclean, -, hs₂⟩ := btree_cursor_cleanup_ok cursor p₁ (by omega)
  refine ⟨p₂, ?_, (hs₁.trans hs₂).frame⟩
  simp only [btree_delete, hrun, bind, Except.bind, hclean]

/-- A path that does not fit the cursor: the cleanup runs over its end. -/
theorem btree_delete_too_deep (h : IsBtree p L root) (hfail : p.NoFailure)
    (hlen : 16 < (searchPath p.tree key L root).length) :
    btree_delete p root key = .error .outOfBounds := by
  obtain ⟨cursor, p₁, hrun, hdep⟩ := searchLoop_too_deep key L root h.wellFormed.shape p
    btree_cursor_init 16 h.wellFormed.ordered rfl hfail h.typed rfl hlen
  have hrun' : btree_cursor_search p root key = .ok (.error .E2BIG, cursor, p₁) := hrun
  simp only [btree_delete, hrun', bind, Except.bind, btree_cursor_cleanup_overrun p₁ hdep]

end delete

/-- What a deletion is to do: take exactly `key` out of the tree, or report
    that it is not there and change no page. -/
def DeletesKey (p : Pool) (l : Nat) (root : PageId) (key : TupleId) : Prop :=
  if key ∈ inorder p.tree l root then
    ∃ p', btree_delete p root key = .ok (.ok (), p') ∧
      IsBtree p' (rootAfter p p' l root).1 (rootAfter p p' l root).2 ∧
      ∀ k, k ∈ inorder p'.tree (rootAfter p p' l root).1 (rootAfter p p' l root).2 ↔
        k ∈ inorder p.tree l root ∧ k ≠ key
  else ∃ p', btree_delete p root key = .ok (.error .ENOENT, p') ∧ p'.frame = p.frame

/-- The search path fits the cursor; a key above the leaves has nothing behind
    it; and a leaf that loses a key keeps enough, or has no neighbour. -/
def DeleteSafe (σ : Store PageId TupleId) (l : Nat) (root : PageId) (key : TupleId) : Prop :=
  (searchPath σ key l root).length ≤ BTREE_MAX_DEPTH ∧
    (key ∈ (σ (searchEnd σ key l root)).keys →
      behindKey σ key (searchEnd σ key l root) = [] ∧
        LeafSafe σ (searchEnd σ key l root) (searchPath σ key l root).dropLast.getLast?)

instance (σ : Store PageId TupleId) (n : PageId) (parent : Option PageId) :
    Decidable (LeafSafe σ n parent) :=
  inferInstanceAs (Decidable (_ → _ ∨ _))

instance (σ : Store PageId TupleId) (l : Nat) (root : PageId) (key : TupleId) :
    Decidable (DeleteSafe σ l root key) :=
  inferInstanceAs (Decidable (_ ∧ (_ → _ ∧ _)))

section main

variable {p : Pool} {l : Nat} {root : PageId} {key : TupleId}

theorem deletesKey_of_safe (h : IsBtree p l root) (hfail : p.NoFailure)
    (hsafe : DeleteSafe p.tree l root key) : DeletesKey p l root key := by
  obtain ⟨hlen, hend⟩ := hsafe
  obtain ⟨pre, n, hpath, _⟩ := searchPath_last key l root h.wellFormed.shape
  rw [searchEnd_eq hpath] at hend
  rw [hpath, List.dropLast_concat] at hend
  have hmem := mem_inorder_iff_last l root h.searchTree.shape h.searchTree.ordered hpath
  unfold DeletesKey
  by_cases hkey : key ∈ inorder p.tree l root
  · rw [if_pos hkey]
    obtain ⟨hbehind, hleaf⟩ := hend (hmem.mp hkey)
    obtain ⟨A, B, hin, hout⟩ := btree_delete_found h hfail hlen hpath (hmem.mp hkey)
    rw [hbehind, List.nil_append] at hin
    have hsorted := (wellFormed_iff.mp h.wellFormed).2.1
    rw [hin] at hsorted
    rcases hout with ⟨hno, _⟩ | ⟨p', hrun, hi, ⟨_, hin'⟩ | ⟨hno, _⟩⟩
    · exact absurd hleaf hno
    · have hsub : (A ++ B).Sublist (A ++ key :: B) :=
        List.Sublist.append (List.Sublist.refl A) (List.sublist_cons_self key B)
      refine ⟨p', hrun, hi.isBtree ?_, fun k => ?_⟩
      · rw [hin']
        exact hsorted.sublist hsub
      · rw [hin', hin]
        -- the key stands in the old listing once
        obtain ⟨_, hright, hcross⟩ := List.pairwise_append.mp hsorted
        have hB := (List.pairwise_cons.mp hright).1
        have hkA : key ∉ A := fun hk => lt_irrefl key (hcross key hk key List.mem_cons_self)
        have hkB : key ∉ B := fun hk => lt_irrefl key (hB key hk)
        simp only [List.mem_append, List.mem_cons]
        constructor
        · rintro (hk | hk)
          · refine ⟨Or.inl hk, ?_⟩
            rintro rfl
            exact hkA hk
          · refine ⟨Or.inr (Or.inr hk), ?_⟩
            rintro rfl
            exact hkB hk
        · rintro ⟨hk | hk | hk, hne⟩
          · exact Or.inl hk
          · exact absurd hk hne
          · exact Or.inr hk
    · exact absurd hleaf hno
  · rw [if_neg hkey]
    exact btree_delete_absent h hfail hlen hkey

theorem safe_of_deletesKey (h : IsBtree p l root) (hfail : p.NoFailure)
    (hdel : DeletesKey p l root key) : DeleteSafe p.tree l root key := by
  unfold DeletesKey at hdel
  have hlen : (searchPath p.tree key l root).length ≤ 16 := by
    by_contra hdeep
    have hrun := btree_delete_too_deep h hfail (Nat.lt_of_not_le hdeep)
    split at hdel
    · obtain ⟨p', hrun', _⟩ := hdel
      rw [hrun] at hrun'
      cases hrun'
    · obtain ⟨p', hrun', _⟩ := hdel
      rw [hrun] at hrun'
      cases hrun'
  refine ⟨hlen, fun hkey => ?_⟩
  obtain ⟨pre, n, hpath, _⟩ := searchPath_last key l root h.wellFormed.shape
  rw [searchEnd_eq hpath] at hkey ⊢
  rw [if_pos ((mem_inorder_iff_last l root h.searchTree.shape h.searchTree.ordered hpath).mpr hkey)] at hdel
  obtain ⟨p', hrun, _, hmem⟩ := hdel
  obtain ⟨A, B, hin, hout⟩ := btree_delete_found h hfail hlen hpath hkey
  have hsorted := (wellFormed_iff.mp h.wellFormed).2.1
  rw [hin] at hsorted hmem
  obtain ⟨_, hright, hcross⟩ := List.pairwise_append.mp hsorted
  obtain ⟨hkey_lt, hrest⟩ := List.pairwise_cons.mp hright
  obtain ⟨_, _, hcross'⟩ := List.pairwise_append.mp hrest
  rw [hpath, List.dropLast_concat]
  rcases hout with ⟨_, f, hf⟩ | ⟨p'', hrun', _, ⟨hleaf, hin'⟩ | ⟨_, s, hs, hlost⟩⟩
  · rw [hf] at hrun
    cases hrun
  · rw [hrun] at hrun'
    cases hrun'
    refine ⟨List.eq_nil_iff_forall_not_mem.mpr fun x hx => ?_, hleaf⟩
    -- a key behind the deleted one would still have to be there
    have hx' : x ∈ A ++ B := by
      rw [← hin', hmem x]
      exact ⟨by simp [hx], ne_of_gt (hkey_lt x (by simp [hx]))⟩
    rcases List.mem_append.mp hx' with hxA | hxB
    · exact lt_irrefl x (hcross x hxA x (by simp [hx]))
    · exact lt_irrefl x (hcross' x hx x hxB)
  · rw [hrun] at hrun'
    cases hrun'
    refine absurd ((hmem s).mpr ⟨?_, ?_⟩) hlost
    · rcases List.mem_append.mp hs with hs | hs
      · simp [hs]
      · simp [hs]
    · rcases List.mem_append.mp hs with hs | hs
      · exact ne_of_lt (hcross s hs key List.mem_cons_self)
      · exact ne_of_gt (hkey_lt s (by simp [hs]))

end main

/-- **Deletion**: `btree_delete` takes exactly one key out of a well-formed
    tree precisely when the deletion is safe. -/
theorem btree_delete_iff_safe (p : Pool) (l : Nat) (root : PageId) (key : TupleId)
    (h : IsBtree p l root) (hfail : p.NoFailure) :
    DeletesKey p l root key ↔ DeleteSafe p.tree l root key :=
  ⟨safe_of_deletesKey h hfail, deletesKey_of_safe h hfail⟩

/-- A root with one key over a leaf with two keys and a leaf with three. -/
def twoLeafTree : PageId → BtreePageData := fun id =>
  if id = 200 then pageData 1 [100] [201, 202]
  else if id = 201 then pageData 0 [10, 20] [0, 1, 2]
  else pageData 0 [150, 160, 170] [0, 5, 6, 7]

theorem twoLeafTree_isBtree :
    IsBtree (poolOf twoLeafTree) 1 200 ∧ (poolOf twoLeafTree).NoFailure :=
  poolOf_isBtree (by decide)

/-- Key 150 leaves two keys in its leaf. -/
theorem btree_delete_safe_at_150 : DeletesKey (poolOf twoLeafTree) 1 200 150 := by
  refine (btree_delete_iff_safe (poolOf twoLeafTree) 1 200 150 twoLeafTree_isBtree.1
    twoLeafTree_isBtree.2).mpr ?_
  rw [poolOf_tree]
  decide

/-- Key 10 leaves one: key 150 comes over from the right, 160 becomes the
    separator, and the old separator 100 is lost. -/
theorem delete_10_loses_separator :
    IsBtree (poolOf twoLeafTree) 1 200 ∧ (poolOf twoLeafTree).NoFailure ∧
      (10 : TupleId) ∈ inorder (poolOf twoLeafTree).tree 1 200 ∧
      ¬ DeletesKey (poolOf twoLeafTree) 1 200 10 := by
  obtain ⟨h, hfail⟩ := twoLeafTree_isBtree
  refine ⟨h, hfail, ?_, ?_⟩
  · rw [poolOf_tree]
    exact mem_weave_of_mem_slot (s := 201) (by decide) (by decide) (by decide)
  · refine mt (safe_of_deletesKey h hfail) ?_
    rw [poolOf_tree]
    decide

end Kds
