import Kds.Lib.Returns
import Kds.Btree.Ops
import Kds.Buf.Flush

/-! # What a call marks dirty

    A function that changes a page has to set `DIRTY` itself; nothing else
    makes a later flush write the page. `Marks` is the contract: behind the
    call every page is as it was, or its frame has `DIRTY` set, or it is one
    of the pages `U` that the call left unmarked.

    `btree_delete` marks every page it changes but one: the leaf behind a
    merged one, whose `prev` it relinks. `kds_btree_cursor_insert` on a leaf
    with room stores the leaf and leaves it unmarked.
-/

open Bytes Fallible

namespace Kds

/-! ## Section 1: The contract -/

/-- The frame has `DIRTY` set. -/
def Frame.dirty (f : Frame) : Bool := f.hdr.has KDS_PAGE_FLAG_DIRTY

theorem dirty_set_page_dirty (f : Frame) : (kds_set_page_dirty f).dirty = true := dirty_has_dirty f

/-- Pages change only with `DIRTY` set, those in `U` apart, and no page loses it. -/
structure Pool.Marks (U : PageId → Prop) (p p' : Pool) : Prop where
  disk : p'.disk = p.disk
  frame : ∀ id, p'.frame id = p.frame id ∨ (p'.frame id).dirty = true ∨ U id
  dirty : ∀ id, (p.frame id).dirty = true → (p'.frame id).dirty = true

/-- No page is left unmarked. -/
abbrev Pool.MarksAll (p p' : Pool) : Prop := Pool.Marks (fun _ => False) p p'

section marks

variable {U V : PageId → Prop} {p p' p'' : Pool} {id : PageId} {f : Frame}

theorem Pool.Marks.of_eq (hdisk : p'.disk = p.disk) (hframe : p'.frame = p.frame) :
    p.Marks U p' := by
  constructor
  · exact hdisk
  · intro id
    exact Or.inl (congrFun hframe id)
  · intro id hd
    rw [hframe]
    exact hd

theorem Pool.Marks.refl (p : Pool) : p.Marks U p := .of_eq rfl rfl

theorem Pool.Marks.mono (h : p.Marks U p') (hUV : ∀ id, U id → V id) : p.Marks V p' where
  disk := h.disk
  frame := fun id => (h.frame id).imp_right fun h => h.imp_right (hUV id)
  dirty := h.dirty

theorem Pool.Marks.weaken (h : p.MarksAll p') : p.Marks U p' := h.mono fun _ hf => hf.elim

theorem Pool.Marks.trans (h : p.Marks U p') (h' : p'.Marks U p'') : p.Marks U p'' := by
  constructor
  · exact h'.disk.trans h.disk
  · intro id
    rcases h'.frame id with heq | hd
    · rw [heq]
      exact h.frame id
    · exact Or.inr hd
  · intro id hd
    exact h'.dirty id (h.dirty id hd)

/-- Pages left unmarked that are marked in the end. -/
theorem Pool.Marks.discharge (h : p.Marks U p') (hd : ∀ id, U id → (p'.frame id).dirty = true) :
    p.MarksAll p' where
  disk := h.disk
  frame := fun id => (h.frame id).imp_right fun h => Or.inl (h.elim (fun h => h) (hd id))
  dirty := h.dirty

theorem Pool.Marks.loadOnly (h : p.LoadOnly p') : p.Marks U p' := .of_eq h.disk h.frame

theorem Pool.Marks.unpin (h : p.Marks U p') (id : PageId) : p.Marks U (kds_buf_unpin p' id) :=
  h.trans (.of_eq rfl rfl)

/-- One frame is replaced, and keeps `DIRTY`. -/
theorem Pool.Marks.setFrame (hkeep : (p.frame id).dirty = true → f.dirty = true)
    (hU : f.dirty = true ∨ U id) : p.Marks U (p.setFrame id f) := by
  constructor
  · rfl
  · intro j
    by_cases hj : j = id
    · rw [hj, Pool.frame_setFrame_self]
      exact Or.inr hU
    · rw [Pool.frame_setFrame_ne _ _ hj]
      exact Or.inl rfl
  · intro j hd
    by_cases hj : j = id
    · rw [hj] at hd ⊢
      rw [Pool.frame_setFrame_self]
      exact hkeep hd
    · rw [Pool.frame_setFrame_ne _ _ hj]
      exact hd

theorem Pool.Marks.setDirty (hd : f.dirty = true) : p.Marks U (p.setFrame id f) :=
  .setFrame (fun _ => hd) (Or.inl hd)

theorem setPageDirty_marks (p : Pool) (id : PageId) :
    p.Marks U (setPageDirty p id) ∧ ((setPageDirty p id).frame id).dirty = true := by
  have hd := dirty_set_page_dirty (p.frame id)
  refine ⟨.setDirty hd, ?_⟩
  unfold setPageDirty
  rw [Pool.frame_setFrame_self]
  exact hd

theorem kds_free_page_marks (p : Pool) (id : PageId) : p.Marks U (kds_free_page p id) := by
  apply Pool.Marks.setDirty
  apply has_set _ (by decide)
  dsimp only [kds_set_page_dirty]
  rw [or_and_of_disjoint _ (by decide), or_and_self]

end marks

/-! ## Section 2: Nodes -/

section nodes

variable {U : PageId → Prop} {p₀ p p' : Pool}

theorem Pool.Marks.lookup {id : PageId} {res : Except Errno PageId} (h : p₀.Marks U p)
    (hload : kds_buf_lookup_or_load p id = (res, p')) : p₀.Marks U p' :=
  h.trans (.loadOnly (lookup_or_load_loadOnly hload).1)

theorem load_node_returns (p : Pool) (id : PageId) :
    Returns (load_btree_node p id) fun node => node.frame = some id := by
  unfold load_btree_node
  apply Returns.ite
  · intro _
    exact .error _
  · intro _
    exact .ok rfl

/-- A node is stored: its page keeps its header. -/
theorem store_node_returns {node : BtreeNode} (h : p₀.Marks U p)
    (hU : ∀ id, node.frame = some id → U id) :
    Returns (store_btree_node p node) fun p' => p₀.Marks U p' := by
  unfold store_btree_node
  cases hframe : node.frame with
  | none => exact .error _
  | some id =>
    apply Returns.ite
    · intro _
      exact .error _
    · intro _
      exact .ok (h.trans (.setFrame (fun hd => hd) (Or.inr (hU id hframe))))

theorem dirty_node_returns (h : p₀.Marks U p) (node : BtreeNode) :
    Returns (dirtyNode p node) fun p' => p₀.Marks U p' ∧ p.MarksAll p' ∧
      ∀ id, node.frame = some id → (p'.frame id).dirty = true := by
  unfold dirtyNode
  cases hframe : node.frame with
  | none => exact .error _
  | some id =>
    apply Returns.ok
    obtain ⟨hm, hd⟩ := setPageDirty_marks p id (U := fun _ => False)
    refine ⟨h.trans hm.weaken, hm, ?_⟩
    intro j hj
    rw [← Option.some.inj hj]
    exact hd

theorem free_node_returns (h : p₀.Marks U p) (node : BtreeNode) :
    Returns (freeNode p node) fun p' => p₀.Marks U p' := by
  unfold freeNode
  cases node.frame with
  | none => exact .error _
  | some id => exact .ok (h.trans (kds_free_page_marks p id))

/-- A store with its mark right behind it. -/
theorem store_dirty_returns {α : Type} {node : BtreeNode} {rest : Pool → Except Fault α} {Q : α → Prop}
    (h : p₀.MarksAll p) (hrest : ∀ p₁ p₂, store_btree_node p node = .ok p₁ → dirtyNode p₁ node = .ok p₂ →
      p₀.MarksAll p₂ → Returns (rest p₂) Q) :
    Returns (store_btree_node p node >>= fun p => dirtyNode p node >>= rest) Q := by
  have h' : p₀.Marks (fun id => node.frame = some id) p := h.weaken
  refine Returns.bind (.self _) fun p₁ hstore => ?_
  have h₁ := store_node_returns h' (fun id hid => hid) p₁ hstore
  refine Returns.bind (.self _) fun p₂ hdirty => ?_
  have h₂ := dirty_node_returns h₁ node p₂ hdirty
  exact hrest p₁ p₂ hstore hdirty (h₂.1.discharge h₂.2.2)

theorem storeThree_returns {a b c : BtreeNode} (h : p₀.MarksAll p) :
    Returns (storeThree p a b c) fun p' => p₀.MarksAll p' := by
  have h' : p₀.Marks (fun id => a.frame = some id ∨ b.frame = some id ∨ c.frame = some id) p := h.weaken
  unfold storeThree
  refine Returns.bind (store_node_returns h' fun id hid => Or.inl hid) fun p₁ h₁ => ?_
  refine Returns.bind (store_node_returns h₁ fun id hid => Or.inr (Or.inl hid)) fun p₂ h₂ => ?_
  refine Returns.bind (store_node_returns h₂ fun id hid => Or.inr (Or.inr hid)) fun p₃ h₃ => ?_
  refine Returns.bind (dirty_node_returns h₃ a) fun p₄ h₄ => ?_
  refine Returns.bind (dirty_node_returns h₄.1 b) fun p₅ h₅ => ?_
  refine (dirty_node_returns h₅.1 c).mono fun p₆ h₆ => ?_
  -- a mark stays while the other pages are marked
  apply h₆.1.discharge
  intro id hid
  rcases hid with hid | hid | hid
  · exact h₆.2.1.dirty id (h₅.2.1.dirty id (h₄.2.2 id hid))
  · exact h₆.2.1.dirty id (h₅.2.2 id hid)
  · exact h₆.2.2 id hid

theorem load_sibling_returns {parent : BtreeNode} {present : Bool} {idx : Int} (h : p₀.Marks U p) :
    Returns (loadSibling p present parent idx) fun r => p₀.Marks U r.2 := by
  unfold loadSibling
  apply Returns.ite
  · intro _
    refine Returns.bind (.self _) fun id _ => ?_
    cases hload : kds_buf_lookup_or_load p id with
    | mk res p₁ =>
      have h₁ := h.lookup hload
      cases res with
      | error e => exact .ok h₁
      | ok frame => exact Returns.bind (.self _) fun node _ => .ok h₁
  · intro _
    exact .ok h

theorem Pool.Marks.unpinSibling (h : p₀.Marks U p) (node : Option BtreeNode) :
    p₀.Marks U (unpinSibling p node) := by
  unfold Kds.unpinSibling
  split
  · exact h
  · split
    · exact h
    · exact h.unpin _

/-- The cleanup of a cursor only unpins. -/
theorem cleanup_returns (count : Nat) : ∀ {nodes : Vector BtreeNode 16} {p : Pool} {i : Nat},
    Returns (cleanupFrom nodes p i count) fun r => p.MarksAll r.2 := by
  induction count with
  | zero =>
    intro nodes p i
    exact .ok (.refl p)
  | succ n ih =>
    intro nodes p i
    unfold cleanupFrom
    refine Returns.bind (.self _) fun node _ => ?_
    cases node.frame with
    | none => exact ih
    | some frame =>
      refine Returns.bind (.self _) fun nodes _ => ?_
      exact ih.mono fun r hr => ((Pool.Marks.refl p).unpin frame).trans hr

theorem cursor_cleanup_returns (cursor : BtreeCursor) (p : Pool) :
    Returns (btree_cursor_cleanup cursor p) fun r => p.MarksAll r.2 := by
  unfold btree_cursor_cleanup
  refine Returns.bind (cleanup_returns _) fun r hr => ?_
  exact .ok hr

theorem searchLoop_returns {key : TupleId} (fuel : Nat) : ∀ {p : Pool} {cursor : BtreeCursor}
    {id : PageId}, p₀.Marks U p →
    Returns (searchLoop p cursor id key fuel) fun r => p₀.Marks U r.2.2 := by
  induction fuel with
  | zero => exact fun h => .ok h
  | succ n ih =>
    intro p cursor id h
    unfold searchLoop
    cases hload : kds_buf_lookup_or_load p id with
    | mk res p₁ =>
      have h₁ := h.lookup hload
      cases res with
      | error e => exact .ok h₁
      | ok frame =>
        refine Returns.bind (.self _) fun node _ => ?_
        refine Returns.bind (.self _) fun nodes _ => ?_
        refine Returns.bind (.self _) fun pos _ => ?_
        refine Returns.bind (.self _) fun positions _ => ?_
        refine Returns.bind (.self _) fun found _ => ?_
        apply Returns.ite
        · intro _
          exact .ok h₁
        · intro _
          apply Returns.ite
          · intro _
            exact .ok h₁
          · intro _
            exact Returns.bind (.self _) fun child _ => ih h₁

end nodes

/-! ## Section 3: Deletion -/

/-- Where two leaves are merged, the leaf behind them has its mark, if there is
    one and it can be loaded. -/
def BehindMarked (p : Pool) (left right : BtreeNode) : Prop :=
  left.level = 0 → right.next ≠ 0 → ∀ frame p',
    kds_buf_lookup_or_load p right.next = (.ok frame, p') → (p'.frame frame).dirty = true

/-- `btree_handle_underflow` in front of a merge: what it has loaded. Neither
    sibling has a key to give away. -/
structure NoneLends (p : Pool) (cursor : BtreeCursor) (level : Nat) (parent node : BtreeNode) (pos : Int)
    (left right : Option BtreeNode) (p' : Pool) : Prop where
  getNode : arrGet cursor.nodes ((level + 1 : Nat) : Int) = .ok node
  underflow : btree_node_is_underflow node.toBtreePageData = true
  getParent : arrGet cursor.nodes level = .ok parent
  getPos : arrGet cursor.positions level = .ok pos
  siblings : ∃ p₁, loadSibling p (decide (pos > 0)) parent (pos - 1) = .ok (left, p₁) ∧
    loadSibling p₁ (decide (toU64 pos < parent.key_count.toNat)) parent (pos + 1) = .ok (right, p')
  left_few : left.filter (fun l => decide (l.key_count.toNat > BTREE_MIN_KEYS)) = none
  right_few : right.filter (fun r => decide (r.key_count.toNat > BTREE_MIN_KEYS)) = none

/-- The merges from `level` up find the leaf behind them marked. In a tree that
    is the merge of the first level, the others are not of leaves. -/
def RelinksMarked : Pool → BtreeCursor → (level : Nat) → Prop
  | _, _, 0 => True
  | p, cursor, level + 1 =>
      ∀ parent node pos left right p', NoneLends p cursor level parent node pos left right p' →
        match left, right with
        | some left_sibling, _ =>
            BehindMarked p' left_sibling node ∧
              ∀ parent' merged p₁ p₂ nodes,
                btree_merge_nodes p' parent (pos - 1) left_sibling node = .ok (parent', merged, p₁) →
                freeNode (unpinSibling (unpinSibling p₁ left) right) node = .ok p₂ →
                arrSet cursor.nodes level parent' = .ok nodes →
                RelinksMarked p₂ { cursor with nodes := nodes } level
        | none, some right_sibling =>
            BehindMarked p' node right_sibling ∧
              ∀ parent' merged p₁ p₂ nodes nodes',
                btree_merge_nodes p' parent pos node right_sibling = .ok (parent', merged, p₁) →
                freeNode (unpinSibling p₁ right) right_sibling = .ok p₂ →
                arrSet cursor.nodes level parent' = .ok nodes →
                arrSet nodes ((level + 1 : Nat) : Int) merged = .ok nodes' →
                RelinksMarked p₂ { cursor with nodes := nodes' } level
        | none, none => RelinksMarked p' cursor level

/-- A delete that finds its key comes to no merge of leaves with an unmarked
    leaf behind them. -/
def DeleteMarked (p : Pool) (root : PageId) (key : TupleId) : Prop :=
  ∀ cursor leaf pos leaf' nodes p₁ p₂ p₃,
    btree_cursor_search p root key = .ok (.error .EEXIST, cursor, p₁) →
    arrGet cursor.nodes cursor.depth = .ok leaf → arrGet cursor.positions cursor.depth = .ok pos →
    btree_node_remove_at leaf pos = .ok leaf' → arrSet cursor.nodes cursor.depth leaf' = .ok nodes →
    store_btree_node p₁ leaf' = .ok p₂ → dirtyNode p₂ leaf' = .ok p₃ →
    RelinksMarked p₃ { cursor with nodes := nodes } cursor.depth

section delete

variable {p₀ p p' : Pool}

/-- The leaf behind a merged one is stored and not marked, so it has to be marked before. -/
theorem relinkNext_returns {next prev_id : PageId} (h : p₀.MarksAll p)
    (hnext : next ≠ 0 → ∀ frame p', kds_buf_lookup_or_load p next = (.ok frame, p') →
      (p'.frame frame).dirty = true) :
    Returns (relinkNext p next prev_id) fun p' => p₀.MarksAll p' := by
  unfold relinkNext
  apply Returns.ite
  · intro _
    exact .ok h
  · intro hne
    cases hload : kds_buf_lookup_or_load p next with
    | mk res p₁ =>
      have h₁ := h.lookup hload
      cases res with
      | error e => exact .ok h₁
      | ok frame =>
        have hd := hnext hne frame p₁ hload
        refine Returns.bind (load_node_returns p₁ frame) fun node hnode => ?_
        have h₁' : p₀.Marks (fun id => id = frame) p₁ := h₁.weaken
        have hU : ∀ id, ({ node with prev := prev_id } : BtreeNode).frame = some id → id = frame := by
          intro id hid
          exact (Option.some.inj (hnode.symm.trans hid)).symm
        refine Returns.bind (.self _) fun p₂ hstore => ?_
        have h₂ := store_node_returns h₁' hU p₂ hstore
        have hkeep : p₁.Marks (fun id => id = frame) p₂ := store_node_returns (.refl p₁) hU p₂ hstore
        apply Returns.ok
        have h₂' : p₀.MarksAll p₂ := by
          apply h₂.discharge
          intro id hid
          rw [hid]
          exact hkeep.dirty frame hd
        exact h₂'.unpin frame

/-- The end of a merge: parent and left node are stored and marked. -/
theorem merged_stores_returns {parent merged : BtreeNode} {sep_pos : Int} (h : p₀.MarksAll p) :
    Returns (do
      let parent ← btree_node_remove_at parent sep_pos
      let p ← store_btree_node p merged
      let p ← store_btree_node p parent
      let p ← dirtyNode p merged
      let p ← dirtyNode p parent
      .ok (parent, merged, p)) fun r => p₀.MarksAll r.2.2 := by
  refine Returns.bind (.self _) fun parent' _ => ?_
  have h₁ : p₀.Marks (fun id => merged.frame = some id ∨ parent'.frame = some id) p := h.weaken
  refine Returns.bind (store_node_returns h₁ fun id hid => Or.inl hid) fun p₂ h₂ => ?_
  refine Returns.bind (store_node_returns h₂ fun id hid => Or.inr hid) fun p₃ h₃ => ?_
  refine Returns.bind (dirty_node_returns h₃ merged) fun p₄ h₄ => ?_
  refine Returns.bind (dirty_node_returns h₄.1 parent') fun p₅ h₅ => ?_
  apply Returns.ok
  apply h₅.1.discharge
  intro id hid
  rcases hid with hid | hid
  · exact h₅.2.1.dirty id (h₄.2.2 id hid)
  · exact h₅.2.2 id hid

theorem mergeInto_level (parent : BtreeNode) (sep_pos : Int) (left right : BtreeNode) :
    Returns (mergeInto parent sep_pos left right) fun merged => merged.level = left.level := by
  unfold mergeInto
  apply Returns.ite
  · intro _
    refine Returns.bind (.self _) fun keys _ => ?_
    refine Returns.bind (.self _) fun slots _ => ?_
    exact .ok rfl
  · intro _
    refine Returns.bind (.self _) fun sep _ => ?_
    refine Returns.bind (.self _) fun keys _ => ?_
    refine Returns.bind (.self _) fun keys _ => ?_
    refine Returns.bind (.self _) fun slots _ => ?_
    exact .ok rfl

theorem merge_nodes_returns {parent left right : BtreeNode} {sep_pos : Int} (h : p₀.MarksAll p)
    (hbehind : BehindMarked p left right) :
    Returns (btree_merge_nodes p parent sep_pos left right) fun r => p₀.MarksAll r.2.2 := by
  unfold btree_merge_nodes
  refine Returns.bind (mergeInto_level parent sep_pos left right) fun merged hlevel => ?_
  dsimp only
  apply Returns.ite
  · intro hleaf
    cases merged.frame with
    | none => exact Returns.bind (.error _) fun p₁ h₁ => merged_stores_returns h₁
    | some frame =>
      refine Returns.bind (relinkNext_returns h (hbehind (hlevel.symm.trans hleaf))) fun p₁ h₁ => ?_
      exact merged_stores_returns h₁
  · intro _
    exact Returns.bind (.ok h) fun p₁ h₁ => merged_stores_returns h₁

theorem redistribute_left_returns {parent left node : BtreeNode} {sep_pos : Int} (h : p₀.MarksAll p) :
    Returns (btree_redistribute_from_left p parent sep_pos left node) fun r => p₀.MarksAll r.2.2 := by
  unfold btree_redistribute_from_left
  refine Returns.bind (.self _) fun r _ => ?_
  exact Returns.bind (storeThree_returns h) fun p₁ h₁ => .ok h₁

theorem redistribute_right_returns {parent node right : BtreeNode} {sep_pos : Int} (h : p₀.MarksAll p) :
    Returns (btree_redistribute_from_right p parent sep_pos node right) fun r => p₀.MarksAll r.2.2 := by
  unfold btree_redistribute_from_right
  refine Returns.bind (.self _) fun r _ => ?_
  exact Returns.bind (storeThree_returns h) fun p₁ h₁ => .ok h₁

theorem handle_underflow_returns (level : Nat) : ∀ {p : Pool} {cursor : BtreeCursor}, p₀.MarksAll p →
    RelinksMarked p cursor level →
    Returns (btree_handle_underflow p cursor level) fun r => p₀.MarksAll r.2 := by
  induction level with
  | zero => exact fun h _ => .ok h
  | succ level ih =>
    intro p cursor h hmarked
    unfold btree_handle_underflow
    refine Returns.bind (.self _) fun node hnode => ?_
    apply Returns.ite
    · intro _
      exact .ok h
    · intro hunder
      refine Returns.bind (.self _) fun parent hparent => ?_
      refine Returns.bind (.self _) fun pos hpos => ?_
      refine Returns.bind (.self _) fun r₁ hleft => ?_
      obtain ⟨left, p₁⟩ := r₁
      have h₁ : p₀.MarksAll p₁ := load_sibling_returns h _ hleft
      dsimp only
      split
      · -- the left sibling gives an entry away
        refine Returns.bind (redistribute_left_returns h₁) fun r₂ h₂ => ?_
        refine Returns.bind (.self _) fun nodes _ => ?_
        refine Returns.bind (.self _) fun nodes _ => ?_
        exact .ok (h₂.unpinSibling _)
      · next hfew =>
        refine Returns.bind (.self _) fun r₂ hright => ?_
        obtain ⟨right, p₂⟩ := r₂
        have h₂ : p₀.MarksAll p₂ := load_sibling_returns h₁ _ hright
        dsimp only
        split
        · refine Returns.bind (redistribute_right_returns h₂) fun r₃ h₃ => ?_
          refine Returns.bind (.self _) fun nodes _ => ?_
          refine Returns.bind (.self _) fun nodes _ => ?_
          exact .ok ((h₃.unpinSibling _).unpinSibling _)
        · next hfew' =>
          -- neither does: two nodes become one, and the parent may have too few keys now
          have hmerge := hmarked parent node pos left right p₂
            ⟨hnode, by simpa using hunder, hparent, hpos, ⟨p₁, hleft, hright⟩, hfew, hfew'⟩
          cases left with
          | some left_sibling =>
            obtain ⟨hbehind, hrest⟩ := hmerge
            refine Returns.bind (.self _) fun r₃ hrun => ?_
            have h₃ : p₀.MarksAll r₃.2.2 := merge_nodes_returns h₂ hbehind _ hrun
            have h₄ := (h₃.unpinSibling (some left_sibling)).unpinSibling right
            refine Returns.bind (.self _) fun p₅ hfree => ?_
            have h₅ : p₀.MarksAll p₅ := free_node_returns h₄ node _ hfree
            refine Returns.bind (.self _) fun nodes hnodes => ?_
            exact ih h₅ (hrest _ _ _ _ _ hrun hfree hnodes)
          | none =>
            cases right with
            | some right_sibling =>
              obtain ⟨hbehind, hrest⟩ := hmerge
              refine Returns.bind (.self _) fun r₃ hrun => ?_
              have h₃ : p₀.MarksAll r₃.2.2 := merge_nodes_returns h₂ hbehind _ hrun
              have h₄ := h₃.unpinSibling (some right_sibling)
              refine Returns.bind (.self _) fun p₅ hfree => ?_
              have h₅ : p₀.MarksAll p₅ := free_node_returns h₄ right_sibling _ hfree
              refine Returns.bind (.self _) fun nodes hnodes => ?_
              refine Returns.bind (.self _) fun nodes' hnodes' => ?_
              exact ih h₅ (hrest _ _ _ _ _ _ hrun hfree hnodes hnodes')
            | none => exact ih h₂ hmerge

/-- The root collapse marks the child and the freed root. -/
theorem collapse_returns {root : BtreeNode} (h : p₀.MarksAll p) :
    Returns (collapseRoot p root) fun r => p₀.MarksAll r.2 := by
  unfold collapseRoot
  apply Returns.ite
  · intro _
    refine Returns.bind (.self _) fun child_id _ => ?_
    cases hload : kds_buf_lookup_or_load p child_id with
    | mk res p₁ =>
      have h₁ := h.lookup hload
      cases res with
      | error e => exact .ok h₁
      | ok child =>
        dsimp only
        generalize hp₂ : (if (p₁.frame child).hdr.type = .btreeInternal then
          setPageType p₁ child .btreeRoot else p₁) = p₂
        have h₂ : p₁.Marks (fun id => id = child) p₂ := by
          rw [← hp₂]
          split
          · exact .setFrame (fun hd => hd) (Or.inr rfl)
          · exact .refl p₁
        obtain ⟨h₃, hd⟩ := setPageDirty_marks p₂ child (U := fun id => id = child)
        generalize setPageDirty p₂ child = p₃ at h₃ hd
        have h₄ : p₃.MarksAll (kds_commit_page_hdr p₃ child) := .setDirty hd
        have h₃' : p₁.MarksAll p₃ := by
          apply (h₂.trans h₃).discharge
          intro id hid
          rw [hid]
          exact hd
        have h₅ := (h₁.trans (h₃'.trans h₄)).unpin child
        unfold freeNode
        cases root.frame with
        | none => exact .error _
        | some frame => exact .ok (h₅.trans (kds_free_page_marks _ frame))
  · intro _
    exact .ok h

/-- The end of a delete. -/
theorem delete_end_returns {cursor : BtreeCursor} (h : p₀.MarksAll p) :
    Returns (do
      let root ← arrGet cursor.nodes 0
      let (ret, p) ← collapseRoot p root
      let (_, p) ← btree_cursor_cleanup cursor p
      .ok (ret, p)) fun r => p₀.MarksAll r.2 := by
  refine Returns.bind (.self _) fun root _ => ?_
  refine Returns.bind (collapse_returns h) fun r₁ h₁ => ?_
  refine Returns.bind (cursor_cleanup_returns cursor r₁.2) fun r₂ h₂ => ?_
  exact .ok (h₁.trans h₂)

/-- **`btree_delete`** leaves no page unmarked where every leaf that it relinks
    is marked already. -/
theorem btree_delete_marks {root : PageId} {key : TupleId} {res : Except Errno Unit}
    (hmarked : DeleteMarked p root key)
    (hrun : btree_delete p root key = .ok (res, p')) : p.MarksAll p' := by
  have hreturns : Returns (btree_delete p root key) fun r => p.MarksAll r.2 := by
    unfold btree_delete
    refine Returns.bind (.self _) fun r hsearch => ?_
    obtain ⟨ret, cursor, p₁⟩ := r
    have h₁ : p.MarksAll p₁ := by
      have hloop := hsearch
      unfold btree_cursor_search at hloop
      exact searchLoop_returns _ (.refl p) _ hloop
    split
    · next heq =>
      obtain ⟨-, hrest⟩ := Prod.mk.inj heq
      obtain ⟨rfl, rfl⟩ := Prod.mk.inj hrest
      refine Returns.bind (cursor_cleanup_returns _ _) fun r h₂ => ?_
      exact .ok (h₁.trans h₂)
    · next heq =>
      -- the key was found: it is taken out of the leaf
      obtain ⟨rfl, hrest⟩ := Prod.mk.inj heq
      obtain ⟨rfl, rfl⟩ := Prod.mk.inj hrest
      refine Returns.bind (.self _) fun leaf hleaf => ?_
      refine Returns.bind (.self _) fun pos hpos => ?_
      refine Returns.bind (.self _) fun leaf' hremove => ?_
      refine Returns.bind (.self _) fun nodes hnodes => ?_
      refine store_dirty_returns h₁ fun p₂ p₃ hstore hdirty h₃ => ?_
      dsimp only
      apply Returns.ite
      · intro _
        have hrelinks := hmarked cursor leaf pos leaf' nodes p₁ p₂ p₃ hsearch hleaf hpos hremove hnodes
          hstore hdirty
        refine Returns.bind (handle_underflow_returns _ h₃ hrelinks) fun r₄ h₄ => ?_
        exact delete_end_returns h₄
      · intro _
        exact Returns.bind (.ok h₃) fun r₄ h₄ => delete_end_returns h₄
    · next heq =>
      obtain ⟨-, hrest⟩ := Prod.mk.inj heq
      obtain ⟨rfl, rfl⟩ := Prod.mk.inj hrest
      refine Returns.bind (cursor_cleanup_returns _ _) fun r h₂ => ?_
      exact .ok (h₁.trans h₂)
  exact hreturns _ hrun

end delete

/-! ## Section 4: Insertion -/

section insert

variable {p p' : Pool}

/-- The leaf of the cursor has room, and its page is marked. -/
def LeafMarked (p : Pool) (cursor : BtreeCursor) : Prop :=
  ∀ leaf, arrGet cursor.nodes cursor.depth = .ok leaf →
    leaf.key_count.toNat < BTREE_MAX_KEYS ∧
      ∀ id, leaf.frame = some id → (p.frame id).dirty = true

theorem insert_at_returns (node : BtreeNode) (pos : Int) (key : TupleId) (slot : PageId) :
    Returns (btree_node_insert_at node pos key slot) fun n => n.frame = node.frame := by
  unfold btree_node_insert_at
  refine Returns.bind (.self _) fun keys _ => ?_
  refine Returns.bind (.self _) fun slots _ => ?_
  refine Returns.bind (.self _) fun keys _ => ?_
  refine Returns.bind (.self _) fun slots _ => ?_
  exact .ok rfl

/-- **`kds_btree_cursor_insert`** stores the leaf and does not mark it. -/
theorem cursor_insert_marks {cursor cursor' : BtreeCursor} {key : TupleId} {value : PageId}
    {res : Except Errno Unit} (hleaf : LeafMarked p cursor)
    (hrun : kds_btree_cursor_insert p cursor key value = .ok (res, cursor', p')) :
    p.MarksAll p' := by
  have hreturns : Returns (kds_btree_cursor_insert p cursor key value) fun r => p.MarksAll r.2.2 := by
    unfold kds_btree_cursor_insert
    refine Returns.bind (.self _) fun leaf hget => ?_
    obtain ⟨hroom, hd⟩ := hleaf leaf hget
    refine Returns.bind (.self _) fun pos _ => ?_
    refine Returns.bind (insert_at_returns leaf pos key value) fun inserted hsame => ?_
    rw [if_pos hroom]
    refine Returns.bind (.self _) fun nodes _ => ?_
    have h₀ : p.Marks (fun id => inserted.frame = some id) p := .refl p
    refine Returns.bind (store_node_returns h₀ fun id hid => hid) fun p₁ h₁ => ?_
    have hm : p.MarksAll p₁ := by
      apply h₁.discharge
      intro id hid
      exact h₁.dirty id (hd id (hsame ▸ hid))
    refine Returns.bind (cursor_cleanup_returns _ p₁) fun r h₂ => ?_
    exact .ok (hm.trans h₂)
  exact hreturns _ hrun

theorem cursor_search_marks {cursor : BtreeCursor} {root : PageId} {key : TupleId}
    {res : Except Errno Unit} (hrun : kds_btree_cursor_search p root key = .ok (res, cursor, p')) :
    p.MarksAll p' := by
  have hreturns : Returns (kds_btree_cursor_search p root key) fun r => p.MarksAll r.2.2 := by
    have h₀ : p.MarksAll p := .refl p
    unfold kds_btree_cursor_search
    refine Returns.bind (searchLoop_returns _ h₀) fun r hr => ?_
    split
    · exact .ok hr
    · refine Returns.bind (cursor_cleanup_returns _ _) fun r h₂ => ?_
      exact .ok (hr.trans h₂)
  exact hreturns _ hrun

/-- `btree_insert`, where the leaf that the search finds is marked. -/
theorem btree_insert_marks {root : PageId} {key : TupleId} {value : PageId} {res : Except Errno Unit}
    (hleaf : ∀ cursor p₁, kds_btree_cursor_search p root key = .ok (.ok (), cursor, p₁) →
      LeafMarked p cursor)
    (hrun : btree_insert p root key value = .ok (res, p')) : p.MarksAll p' := by
  have hreturns : Returns (btree_insert p root key value) fun r => p.MarksAll r.2 := by
    unfold btree_insert
    refine Returns.bind (.self _) fun r hsearch => ?_
    obtain ⟨ret, cursor, p₁⟩ := r
    have h₁ := cursor_search_marks hsearch
    cases ret with
    | error e => exact .ok h₁
    | ok u =>
      have hleaf₁ : LeafMarked p₁ cursor := by
        intro leaf hget
        obtain ⟨hroom, hd⟩ := hleaf cursor p₁ hsearch leaf hget
        exact ⟨hroom, fun id hid => h₁.dirty id (hd id hid)⟩
      refine Returns.bind (.self _) fun r hins => ?_
      exact .ok (h₁.trans (cursor_insert_marks hleaf₁ hins))
  exact hreturns _ hrun

end insert

end Kds
