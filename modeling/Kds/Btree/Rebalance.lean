import Kds.Btree.Delete

/-! # Rebalancing above the leaves

    What `btree_handle_underflow` does to a parent and two of its children
    that lie side by side, above level 0: a key and a slot go over from one to
    the other through the separator, or both become one node. Read as child,
    key, child, ..., child, the parent and its children stay the same.
-/

open SearchTree

namespace Kds

/-! ## Section 1: The items of a node and of a level -/

/-- What a node lists: child, key, child, ..., child. -/
def nodeItems (n : SearchTree.Node PageId TupleId) : List (PageId ⊕ TupleId) :=
  weave (fun c => [Sum.inl c]) n.slots (n.keys.map Sum.inr)

/-- The lists of the children of a node, with its keys between them. -/
def levelItems (σ : Store PageId TupleId) (id : PageId) : List (PageId ⊕ TupleId) :=
  weave (fun c => nodeItems (σ c)) (σ id).slots ((σ id).keys.map Sum.inr)

/-- Two nodes and the key between them list what one node with all their keys and slots lists. -/
theorem nodeItems_join {a b : SearchTree.Node PageId TupleId} (s : TupleId)
    (ha : a.slots.length = a.keys.length + 1) (hb : b.slots.length = b.keys.length + 1) :
    nodeItems a ++ Sum.inr s :: nodeItems b =
      nodeItems ⟨a.level, a.keys ++ s :: b.keys, a.slots ++ b.slots⟩ := by
  have hne : b.slots ≠ [] := List.ne_nil_of_length_eq_add_one hb
  unfold nodeItems
  rw [List.map_append, List.map_cons]
  exact (weave_append _ (by rw [List.length_map, ha]) hne).symm

/-- A level around two children that lie side by side. -/
theorem levelItems_split {σ : Store PageId TupleId} {pid a b : PageId} {l : Nat}
    {K₁ K₂ : List TupleId} {s : TupleId} {S₁ S₂ : List PageId}
    (hsplit : σ pid = ⟨l, K₁ ++ s :: K₂, S₁ ++ a :: b :: S₂⟩) (h₁ : S₁.length = K₁.length) :
    levelItems σ pid =
      before (fun c => nodeItems (σ c)) S₁ (K₁.map Sum.inr) ++
        (nodeItems (σ a) ++ Sum.inr s :: nodeItems (σ b)) ++
        behind (fun c => nodeItems (σ c)) (K₂.map Sum.inr) S₂ := by
  have hseg := @weave_segment _ _ (fun c => nodeItems (σ c)) S₁ [a, b] S₂ (K₁.map Sum.inr)
    [Sum.inr s] (K₂.map Sum.inr) (by simpa using h₁) rfl
  rw [weave_cons_cons, weave_singleton] at hseg
  rw [← hseg]
  unfold levelItems
  simp [hsplit]

/-- A level around one child. -/
theorem levelItems_child {σ : Store PageId TupleId} {pid a : PageId} {l : Nat}
    {K₁ K₂ : List TupleId} {S₁ S₂ : List PageId}
    (hsplit : σ pid = ⟨l, K₁ ++ K₂, S₁ ++ a :: S₂⟩) (h₁ : S₁.length = K₁.length) :
    levelItems σ pid =
      before (fun c => nodeItems (σ c)) S₁ (K₁.map Sum.inr) ++ nodeItems (σ a) ++
        behind (fun c => nodeItems (σ c)) (K₂.map Sum.inr) S₂ := by
  unfold levelItems
  rw [hsplit, List.map_append]
  exact weave_split _ (by simpa using h₁)

/-! ## Section 2: Two neighbours and their parent -/

/-- `parent` is a copy of the node at `pid`, and `left` and `right` are copies of
    the two children around its key `pos`, at level `l` above the leaves. -/
structure Siblings (p : Pool) (l : Nat) (parent left right : BtreeNode) (pid a b : PageId)
    (pos : Nat) : Prop where
  level : l ≠ 0
  parentFrame : parent.frame = some pid
  leftFrame : left.frame = some a
  rightFrame : right.frame = some b
  parentNode : parent.treeNode = p.tree pid
  leftNode : left.treeNode = p.tree a
  rightNode : right.treeNode = p.tree b
  parentOk : NodeOk p.tree BTREE_MAX_KEYS (l + 1) pid
  leftOk : NodeOk p.tree BTREE_MAX_KEYS l a
  rightOk : NodeOk p.tree BTREE_MAX_KEYS l b
  separator : pos < (p.tree pid).keys.length
  leftSlot : (p.tree pid).slots[pos]? = some a
  rightSlot : (p.tree pid).slots[pos + 1]? = some b
  nodup : (pid :: (p.tree pid).slots).Nodup
  typed : ∀ id ∈ [pid, a, b], kds_is_btree_page (p.frame id) = true

/-- From `p` to `p'` the level at `pid` lists the same, no node has too many
    keys, and no other page changes. -/
structure LevelKept (p p' : Pool) (parent' : BtreeNode) (pid a b : PageId) : Prop where
  items : levelItems p'.tree pid = levelItems p.tree pid
  parent : parent'.treeNode = p'.tree pid
  keys_le : ∀ id ∈ [pid, a, b], (p'.tree id).keys.length ≤ BTREE_MAX_KEYS
  other : ∀ id ∉ [pid, a, b], p'.tree id = p.tree id

section siblings

variable {p : Pool} {l : Nat} {parent left right : BtreeNode} {pid a b : PageId} {pos : Nat}

/-- The parent around the two children. -/
theorem Siblings.split (h : Siblings p l parent left right pid a b pos) :
    ∃ K₁ s K₂ S₁ S₂, p.tree pid = ⟨l + 1, K₁ ++ s :: K₂, S₁ ++ a :: b :: S₂⟩ ∧
      S₁.length = K₁.length ∧ K₁.length = pos := by
  obtain ⟨s, hs⟩ : ∃ s, (p.tree pid).keys[pos]? = some s :=
    ⟨_, List.getElem?_eq_getElem h.separator⟩
  obtain ⟨K₁, K₂, hkeys, hK₁⟩ := exists_split_of_getElem? hs
  obtain ⟨S₁, S₀, hslots, hS₁⟩ := exists_split_of_getElem? h.leftSlot
  -- the slot behind the left child is the right one
  obtain ⟨S₂, rfl⟩ : ∃ S₂, S₀ = b :: S₂ := by
    have hright := h.rightSlot
    rw [hslots, ← hS₁, List.getElem?_append_right (Nat.le_succ _)] at hright
    cases S₀ with
    | nil => simp at hright
    | cons c S₂ =>
      obtain rfl : c = b := by simpa using hright
      exact ⟨S₂, rfl⟩
  refine ⟨K₁, s, K₂, S₁, S₂, ?_, hS₁.trans hK₁.symm, hK₁⟩
  rw [← hkeys, ← hslots, ← h.parentOk.level]

/-- The three pages differ from each other and from the other children. -/
theorem Siblings.distinct (h : Siblings p l parent left right pid a b pos) {l' : Nat}
    {K : List TupleId} {S₁ S₂ : List PageId}
    (hsplit : p.tree pid = ⟨l', K, S₁ ++ a :: b :: S₂⟩) :
    a ≠ pid ∧ b ≠ pid ∧ a ≠ b ∧ ∀ c, c ∈ S₁ ∨ c ∈ S₂ → c ∉ [pid, a, b] := by
  have hnd := h.nodup
  rw [hsplit, List.nodup_cons] at hnd
  obtain ⟨hpid, hslots⟩ := hnd
  have hmid : (a :: b :: (S₁ ++ S₂)).Nodup := by
    refine List.Perm.nodup ?_ hslots
    exact (List.perm_middle.trans (List.Perm.cons a List.perm_middle))
  simp only [List.nodup_cons, List.mem_cons, List.mem_append, not_or] at hmid hpid
  obtain ⟨⟨hab, ha₁, ha₂⟩, ⟨hb₁, hb₂⟩, -⟩ := hmid
  refine ⟨fun he => hpid.2.1 he.symm, fun he => hpid.2.2.1 he.symm, hab, fun c hc => ?_⟩
  simp only [List.mem_cons, List.not_mem_nil, or_false, not_or]
  rcases hc with hc | hc
  · exact ⟨fun he => hpid.1 (he ▸ hc), fun he => ha₁ (he ▸ hc), fun he => hb₁ (he ▸ hc)⟩
  · exact ⟨fun he => hpid.2.2.2 (he ▸ hc), fun he => ha₂ (he ▸ hc), fun he => hb₂ (he ▸ hc)⟩

theorem Siblings.lengths (h : Siblings p l parent left right pid a b pos) :
    parent.key_count.toNat ≤ 4 ∧ left.key_count.toNat ≤ 4 ∧ right.key_count.toNat ≤ 4 :=
  ⟨key_count_le_of_nodeOk h.parentNode h.parentOk, key_count_le_of_nodeOk h.leftNode h.leftOk,
    key_count_le_of_nodeOk h.rightNode h.rightOk⟩

/-- A key moved over between the two children keeps the level. -/
theorem Siblings.levelKept_of_moved (h : Siblings p l parent left right pid a b pos)
    {p' : Pool} {parent' : BtreeNode} {A B : SearchTree.Node PageId TupleId} {s s' : TupleId}
    {K₁ K₂ : List TupleId} {S₁ S₂ : List PageId}
    (hsplit : p.tree pid = ⟨l + 1, K₁ ++ s :: K₂, S₁ ++ a :: b :: S₂⟩)
    (h₁ : S₁.length = K₁.length)
    (hparent : parent'.treeNode = ⟨l + 1, K₁ ++ s' :: K₂, S₁ ++ a :: b :: S₂⟩)
    (hm : Moved s (p.tree a) (p.tree b) A B s')
    (htree : p'.tree = Function.update (Function.update (Function.update p.tree a A) b B) pid
      parent'.treeNode) :
    LevelKept p p' parent' pid a b := by
  obtain ⟨hap, hbp, hab, hrest⟩ := h.distinct hsplit
  have hA : p'.tree a = A := by
    rw [htree, Function.update_of_ne hap, Function.update_of_ne hab, Function.update_self]
  have hB : p'.tree b = B := by
    rw [htree, Function.update_of_ne hbp, Function.update_self]
  have hP : p'.tree pid = parent'.treeNode := by
    rw [htree, Function.update_self]
  have hother : ∀ id ∉ [pid, a, b], p'.tree id = p.tree id := by
    intro id hid
    simp only [List.mem_cons, List.not_mem_nil, or_false, not_or] at hid
    rw [htree, Function.update_of_ne hid.1, Function.update_of_ne hid.2.2,
      Function.update_of_ne hid.2.1]
  -- left child, separator and right child read the same as before
  have hpair : nodeItems A ++ Sum.inr s' :: nodeItems B =
      nodeItems (p.tree a) ++ Sum.inr s :: nodeItems (p.tree b) := by
    obtain ⟨hkeys, hslots⟩ := hm.inner (by rw [h.leftOk.level]; exact h.level)
    rw [nodeItems_join s' hm.slots_left hm.slots_right,
      nodeItems_join s h.leftOk.slots_eq h.rightOk.slots_eq, hkeys, hslots, hm.level_left]
  refine ⟨?_, hP.symm, ?_, hother⟩
  · rw [levelItems_split (hP.trans hparent) h₁, levelItems_split hsplit h₁, hA, hB, hpair]
    rw [before_congr fun c hc => by rw [hother c (hrest c (Or.inl hc))],
      behind_congr fun c hc => by rw [hother c (hrest c (Or.inr hc))]]
  -- none of the three has more than four keys
  · intro id hid
    simp only [List.mem_cons, List.not_mem_nil, or_false] at hid
    rcases hid with rfl | rfl | rfl
    · have hle := h.parentOk.keys_le
      rw [hsplit] at hle
      rw [hP, hparent]
      simpa using hle
    · rw [hA]
      exact hm.keys_left
    · rw [hB]
      exact hm.keys_right

/-- The two children made one keep the level. -/
theorem Siblings.levelKept_of_merged (h : Siblings p l parent left right pid a b pos)
    {p' : Pool} {parent' : BtreeNode} {A : SearchTree.Node PageId TupleId} {s : TupleId}
    {K₁ K₂ : List TupleId} {S₁ S₂ : List PageId}
    (hsplit : p.tree pid = ⟨l + 1, K₁ ++ s :: K₂, S₁ ++ a :: b :: S₂⟩)
    (h₁ : S₁.length = K₁.length)
    (hparent : parent'.treeNode = ⟨l + 1, K₁ ++ K₂, S₁ ++ a :: S₂⟩)
    (hm : Merged s (p.tree a) (p.tree b) A)
    (htree : p'.tree = Function.update (Function.update p.tree a A) pid parent'.treeNode) :
    LevelKept p p' parent' pid a b := by
  obtain ⟨hap, hbp, hab, hrest⟩ := h.distinct hsplit
  have hA : p'.tree a = A := by
    rw [htree, Function.update_of_ne hap, Function.update_self]
  have hP : p'.tree pid = parent'.treeNode := by
    rw [htree, Function.update_self]
  have hkeep : ∀ id, id ≠ pid → id ≠ a → p'.tree id = p.tree id := by
    intro id hp ha
    rw [htree, Function.update_of_ne hp, Function.update_of_ne ha]
  have hother : ∀ id ∉ [pid, a, b], p'.tree id = p.tree id := by
    intro id hid
    simp only [List.mem_cons, List.not_mem_nil, or_false, not_or] at hid
    exact hkeep id hid.1 hid.2.1
  -- the merged node reads as left child, separator and right child did
  have hjoin : nodeItems A = nodeItems (p.tree a) ++ Sum.inr s :: nodeItems (p.tree b) := by
    obtain ⟨hkeys, hslots⟩ := hm.inner (by rw [h.leftOk.level]; exact h.level)
    rw [nodeItems_join s h.leftOk.slots_eq h.rightOk.slots_eq, ← hkeys, ← hslots, ← hm.level]
  refine ⟨?_, hP.symm, ?_, hother⟩
  · rw [levelItems_child (hP.trans hparent) h₁, levelItems_split hsplit h₁, hA, hjoin]
    rw [before_congr fun c hc => by rw [hother c (hrest c (Or.inl hc))],
      behind_congr fun c hc => by rw [hother c (hrest c (Or.inr hc))]]
  -- the right child is not written any more
  · intro id hid
    simp only [List.mem_cons, List.not_mem_nil, or_false] at hid
    rcases hid with rfl | rfl | rfl
    · have hle := h.parentOk.keys_le
      rw [hsplit] at hle
      rw [hP, hparent]
      simp only [List.length_append, List.length_cons] at hle ⊢
      omega
    · rw [hA]
      exact hm.keys
    · rw [hkeep _ hbp hab.symm]
      exact h.rightOk.keys_le

/-- A key borrowed from the left child. -/
theorem Siblings.from_left (h : Siblings p l parent left right pid a b pos)
    (hdonor : BTREE_MIN_KEYS < left.key_count.toNat)
    (hnode : right.key_count.toNat < BTREE_MIN_KEYS) :
    ∃ parent' right' p',
      btree_redistribute_from_left p parent pos left right = .ok (parent', right', p') ∧
      LevelKept p p' parent' pid a b := by
  obtain ⟨K₁, s, K₂, S₁, S₂, hsplit, h₁, rfl⟩ := h.split
  obtain ⟨hp, hl, -⟩ := h.lengths
  have hpt := h.parentNode.trans hsplit
  have hroom : right.key_count.toNat < 4 := Nat.lt_trans hnode (by decide)
  have hlev : left.treeNode.level = right.treeNode.level := by
    rw [h.leftNode, h.rightNode, h.leftOk.level, h.rightOk.level]
  obtain ⟨parent', left', right', s', hrun, ⟨hpf, hlf, hrf⟩, hparent, hmoved⟩ :=
    redistributeLeft_spec hp hl hroom hlev (by rw [hpt])
      (by rw [BtreePageData.length_keys hl]; exact hdonor)
  obtain ⟨p', hstore, hbec⟩ := storeThree_ok (hlf.trans h.leftFrame) (hrf.trans h.rightFrame)
    (hpf.trans h.parentFrame) (h.typed a (by simp)) (h.typed b (by simp)) (h.typed pid (by simp))
  rw [hpt] at hparent
  rw [h.leftNode, h.rightNode] at hmoved
  refine ⟨parent', right', p', ?_, h.levelKept_of_moved hsplit h₁ hparent hmoved hbec.tree⟩
  simp only [btree_redistribute_from_left, hrun, hstore, bind, Except.bind]

/-- A key borrowed from the right child. -/
theorem Siblings.from_right (h : Siblings p l parent left right pid a b pos)
    (hnode : left.key_count.toNat < BTREE_MIN_KEYS)
    (hdonor : BTREE_MIN_KEYS < right.key_count.toNat) :
    ∃ parent' left' p',
      btree_redistribute_from_right p parent pos left right = .ok (parent', left', p') ∧
      LevelKept p p' parent' pid a b := by
  obtain ⟨K₁, s, K₂, S₁, S₂, hsplit, h₁, rfl⟩ := h.split
  obtain ⟨hp, -, hr⟩ := h.lengths
  have hpt := h.parentNode.trans hsplit
  have hroom : left.key_count.toNat < 4 := Nat.lt_trans hnode (by decide)
  obtain ⟨parent', left', right', s', hrun, ⟨hpf, hlf, hrf⟩, hparent, hmoved⟩ :=
    redistributeRight_spec hp hr hroom (by rw [hpt])
      (by rw [BtreePageData.length_keys hr]; exact hdonor)
  obtain ⟨p', hstore, hbec⟩ := storeThree_ok (hlf.trans h.leftFrame) (hrf.trans h.rightFrame)
    (hpf.trans h.parentFrame) (h.typed a (by simp)) (h.typed b (by simp)) (h.typed pid (by simp))
  rw [hpt] at hparent
  rw [h.leftNode, h.rightNode] at hmoved
  refine ⟨parent', left', p', ?_, h.levelKept_of_moved hsplit h₁ hparent hmoved hbec.tree⟩
  simp only [btree_redistribute_from_right, hrun, hstore, bind, Except.bind]

/-- The two children merged. -/
theorem Siblings.merge (h : Siblings p l parent left right pid a b pos)
    (hfit : left.key_count.toNat + right.key_count.toNat < 2 * BTREE_MIN_KEYS) :
    ∃ parent' left' p', btree_merge_nodes p parent pos left right = .ok (parent', left', p') ∧
      LevelKept p p' parent' pid a b := by
  obtain ⟨K₁, s, K₂, S₁, S₂, hsplit, h₁, rfl⟩ := h.split
  obtain ⟨hp, -, -⟩ := h.lengths
  have hlev : left.treeNode.level ≠ 0 := by
    rw [h.leftNode, h.leftOk.level]
    exact h.level
  rcases btree_merge_nodes_cases (fun h0 => absurd h0 hlev) (h.parentNode.trans hsplit) h₁ hp hfit
      h.parentFrame h.leftFrame (h.typed pid (by simp)) (h.typed a (by simp))
    with ⟨h0, -⟩ | ⟨parent', left', p', hrun, -, hparent, hmerged, hbec⟩
  · exact absurd h0 hlev
  · rw [h.leftNode, h.rightNode] at hmerged
    exact ⟨parent', left', p', hrun, h.levelKept_of_merged hsplit h₁ hparent hmerged hbec.tree⟩

/-- Above the leaves borrowing from either side and merging stay inside the
    arrays, and keep what the parent and its children list. -/
theorem btree_rebalance_keeps_level (h : Siblings p l parent left right pid a b pos) :
    (BTREE_MIN_KEYS < left.key_count.toNat → right.key_count.toNat < BTREE_MIN_KEYS →
      ∃ parent' right' p',
        btree_redistribute_from_left p parent pos left right = .ok (parent', right', p') ∧
        LevelKept p p' parent' pid a b) ∧
    (left.key_count.toNat < BTREE_MIN_KEYS → BTREE_MIN_KEYS < right.key_count.toNat →
      ∃ parent' left' p',
        btree_redistribute_from_right p parent pos left right = .ok (parent', left', p') ∧
        LevelKept p p' parent' pid a b) ∧
    ((left.key_count.toNat < BTREE_MIN_KEYS ∧ right.key_count.toNat ≤ BTREE_MIN_KEYS) ∨
      (left.key_count.toNat ≤ BTREE_MIN_KEYS ∧ right.key_count.toNat < BTREE_MIN_KEYS) →
      ∃ parent' left' p', btree_merge_nodes p parent pos left right = .ok (parent', left', p') ∧
        LevelKept p p' parent' pid a b) := by
  refine ⟨h.from_left, h.from_right, fun hfew => h.merge ?_⟩
  -- both at most half full and one of them less than that
  rcases hfew with ⟨hl, hr⟩ | ⟨hl, hr⟩ <;> omega

end siblings

/-- A root over a child with three keys and a child with one, all above the leaves. -/
def innerTree : PageId → BtreePageData := fun id =>
  if id = 200 then pageData 2 [100] [201, 202]
  else if id = 201 then pageData 1 [10, 20, 30] [1, 2, 3, 4]
  else pageData 1 [150] [5, 6]

/-- The copy of the node at `id` that the code works on. -/
def innerNode (id : PageId) : BtreeNode := { innerTree id with frame := some id }

theorem innerTree_siblings :
    Siblings (poolOf innerTree) 1 (innerNode 200) (innerNode 201) (innerNode 202) 200 201 202 0 := by
  have hok : ∀ l id, NodeOk (fun i => (innerTree i).treeNode) BTREE_MAX_KEYS l id →
      NodeOk (poolOf innerTree).tree BTREE_MAX_KEYS l id := by
    intro l id h
    rw [poolOf_tree]
    exact h
  have hnode : ∀ id, (innerNode id).treeNode = (poolOf innerTree).tree id := by
    intro id
    rw [poolOf_tree]
    rfl
  refine ⟨by decide, rfl, rfl, rfl, hnode 200, hnode 201, hnode 202,
    hok 2 200 ⟨by decide, by decide, by decide⟩, hok 1 201 ⟨by decide, by decide, by decide⟩,
    hok 1 202 ⟨by decide, by decide, by decide⟩, ?_, ?_, ?_, ?_, ?_⟩
  · rw [poolOf_tree]
    decide
  · rw [poolOf_tree]
    decide
  · rw [poolOf_tree]
    decide
  · rw [poolOf_tree]
    decide
  · intro id _
    exact poolOf_typed innerTree id

/-- The right child takes a key over from the left one. -/
theorem inner_borrow_keeps_level : ∃ parent' right' p',
    btree_redistribute_from_left (poolOf innerTree) (innerNode 200) 0 (innerNode 201)
      (innerNode 202) = .ok (parent', right', p') ∧
    LevelKept (poolOf innerTree) p' parent' 200 201 202 :=
  (btree_rebalance_keeps_level innerTree_siblings).1 (by decide) (by decide)

end Kds
