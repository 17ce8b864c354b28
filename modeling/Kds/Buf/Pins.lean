import Kds.Buf.Marks
import Kds.Btree.Search
import Kds.Lib.Tally

/-! # Pins

    A lookup pins its page, and whoever looked it up unpins it. `Pinned`
    follows the pins through the calls: from one pool to the next they went
    up by a tally, which is nothing for a call that gives back what it took,
    and what its cursor holds for a descent.

    A cursor holds the page of every level from the root down to its depth.
    `btree_cursor_cleanup` gives them back, the level `depth` included; the
    descent leaves the loop with a depth of `BTREE_MAX_DEPTH` when it has not
    come to a leaf by then, and the cleanup reads past the end of `nodes`.
-/

open Bytes Fallible Tally

namespace Kds

/-! ## Section 1: The pins of a pool -/

/-- The pins on a page; one without a frame has none. -/
def Pool.pins (p : Pool) (id : PageId) : Int := if (p.cached id).isSome then p.refcnt id else 0

/-- The pins went up by `d`, and no page has lost its frame. -/
structure Pool.Pinned (p : Pool) (d : PageId → Int) (p' : Pool) : Prop where
  pins : p'.pins = p.pins + d
  keeps : ∀ id, (p.cached id).isSome → (p'.cached id).isSome

section pool

variable {p p' p'' : Pool} {d d' : PageId → Int} {id : PageId} {f : Frame}

theorem Pool.Pinned.refl (p : Pool) : p.Pinned 0 p := ⟨(add_zero _).symm, fun _ h => h⟩

theorem Pool.Pinned.trans (h : p.Pinned d p') (h' : p'.Pinned d' p'') : p.Pinned (d + d') p'' := by
  constructor
  · rw [h'.pins, h.pins, add_assoc]
  · intro id hid
    exact h'.keeps id (h.keeps id hid)

/-- A call that gives back what it takes. -/
theorem Pool.Pinned.still (h : p.Pinned d p') (h' : p'.Pinned 0 p'') : p.Pinned d p'' := by
  have hsum := h.trans h'
  rwa [add_zero] at hsum

theorem Pool.Pinned.of_eq (h : p.Pinned d p') (hd : d = d') : p.Pinned d' p' := hd ▸ h

/-- What is taken and given back again. -/
theorem Pool.Pinned.cancel (h : p.Pinned d p') (h' : p'.Pinned (-d) p'') : p.Pinned 0 p'' :=
  (h.trans h').of_eq (add_neg_cancel d)

theorem pinned_nextFail (p : Pool) : p.Pinned 0 p.nextFail := ⟨(add_zero _).symm, fun _ h => h⟩

/-- A frame that is there is replaced. -/
theorem pinned_setFrame (h : (p.cached id).isSome) : p.Pinned 0 (p.setFrame id f) := by
  constructor
  · rw [add_zero]
    funext j
    unfold Pool.pins
    by_cases hj : j = id
    · subst hj
      simp [Pool.setFrame, h]
    · simp [Pool.setFrame, Function.update_of_ne hj]
  · intro j hj
    exact Pool.loaded_setFrame hj

theorem pinned_pin (h : (p.cached id).isSome) : p.Pinned (entry (some id)) (kds_buf_pin p id) := by
  constructor
  · funext j
    rw [Pi.add_apply]
    unfold Pool.pins kds_buf_pin
    by_cases hj : j = id
    · subst hj
      simp [h, entry_self]
    · simp [Function.update_of_ne hj, entry_ne hj]
  · exact fun _ hj => hj

theorem pinned_unpin (h : (p.cached id).isSome) :
    p.Pinned (-entry (some id)) (kds_buf_unpin p id) := by
  constructor
  · funext j
    rw [Pi.add_apply, Pi.neg_apply]
    unfold Pool.pins kds_buf_unpin
    by_cases hj : j = id
    · subst hj
      simp [h, entry_self, sub_eq_add_neg]
    · simp [Function.update_of_ne hj, entry_ne hj]
  · exact fun _ hj => hj

/-- A frame is set up for a page that had none. -/
theorem pinned_newFrame (h : p.cached id = none) :
    p.Pinned 0
      { p.setFrame id f with refcnt := Function.update (p.setFrame id f).refcnt id 0 } := by
  constructor
  · rw [add_zero]
    funext j
    unfold Pool.pins
    by_cases hj : j = id
    · subst hj
      simp [Pool.setFrame, h]
    · simp [Pool.setFrame, Function.update_of_ne hj]
  · intro j hj
    exact Pool.loaded_setFrame hj

/-- A lookup pins its page, or nothing. -/
theorem pinned_lookup {res : Except Errno PageId} (h : kds_buf_lookup_or_load p id = (res, p')) :
    (∀ e, res = .error e → p.Pinned 0 p') ∧
      ∀ frame, res = .ok frame →
        frame = id ∧ p.Pinned (entry (some frame)) p' ∧ (p'.cached frame).isSome := by
  unfold kds_buf_lookup_or_load at h
  cases hc : p.cached id with
  | some f =>
    rw [hc] at h
    obtain ⟨rfl, rfl⟩ := Prod.mk.inj h
    have hid : (p.cached id).isSome := Option.isSome_iff_exists.mpr ⟨f, hc⟩
    refine ⟨fun e he => by simp at he, fun frame hf => ?_⟩
    rw [← Except.ok.inj hf]
    exact ⟨rfl, pinned_pin hid, hid⟩
  | none =>
    rw [hc] at h
    dsimp only at h
    cases hfail : p.fail 0 with
    | some e =>
      rw [hfail] at h
      obtain ⟨rfl, rfl⟩ := Prod.mk.inj h
      exact ⟨fun e _ => pinned_nextFail p, fun frame hf => by simp at hf⟩
    | none =>
      rw [hfail] at h
      obtain ⟨rfl, rfl⟩ := Prod.mk.inj h
      refine ⟨fun e he => by simp at he, fun frame hf => ?_⟩
      rw [← Except.ok.inj hf]
      have hnew := (pinned_nextFail p).still
        (@pinned_newFrame p.nextFail id { p.disk id with id := id } hc)
      have hthere : ((p.nextFail.setFrame id { p.disk id with id := id }).cached id).isSome := by
        simp [Pool.setFrame]
      have hpin := hnew.trans (pinned_pin hthere)
      rw [zero_add] at hpin
      exact ⟨rfl, hpin, hthere⟩

/-- A new page comes pinned. -/
theorem pinned_alloc_new {res : Except Errno PageId} (h : kds_buf_alloc_new p id = (res, p')) :
    (∀ e, res = .error e → p.Pinned 0 p') ∧
      ∀ frame, res = .ok frame → p.Pinned (entry (some frame)) p' ∧ (p'.cached frame).isSome := by
  unfold kds_buf_alloc_new at h
  cases hc : p.cached id with
  | some f =>
    rw [hc] at h
    obtain ⟨rfl, rfl⟩ := Prod.mk.inj h
    exact ⟨fun e _ => .refl p, fun frame hf => by simp at hf⟩
  | none =>
    rw [hc] at h
    dsimp only at h
    cases hfail : p.fail 0 with
    | some e =>
      rw [hfail] at h
      obtain ⟨rfl, rfl⟩ := Prod.mk.inj h
      exact ⟨fun e _ => pinned_nextFail p, fun frame hf => by simp at hf⟩
    | none =>
      rw [hfail] at h
      obtain ⟨rfl, rfl⟩ := Prod.mk.inj h
      refine ⟨fun e he => by simp at he, fun frame hf => ?_⟩
      rw [← Except.ok.inj hf]
      let f := newFrame id (KDS_PAGE_FLAG_ALLOC ||| KDS_PAGE_FLAG_DIRTY)
      let q : Pool := { p.nextFail with disk := Function.update p.disk id f }
      have hdisk : p.Pinned 0 q := ⟨(add_zero _).symm, fun _ h => h⟩
      let g : Frame := { f with hdr := { f.hdr with flags := KDS_PAGE_FLAG_ALLOC } }
      have hnew := hdisk.still (@pinned_newFrame q id g hc)
      have hthere : ((q.setFrame id g).cached id).isSome := by simp [Pool.setFrame]
      have hpin := hnew.trans (pinned_pin hthere)
      rw [zero_add] at hpin
      exact ⟨hpin, hthere⟩

end pool

/-! ## Section 2: Nodes -/

/-- The frame of the node is one of the pool's. -/
def BtreeNode.In (node : BtreeNode) (p : Pool) : Prop :=
  ∀ id, node.frame = some id → (p.cached id).isSome

section nodes

variable {p p' : Pool} {d : PageId → Int}

theorem BtreeNode.In.keeps {node : BtreeNode} (h : node.In p) (hp : p.Pinned d p') : node.In p' :=
  fun id hid => hp.keeps id (h id hid)

theorem BtreeNode.In.of_frame {node node' : BtreeNode} (h : node.In p)
    (hframe : node'.frame = node.frame) : node'.In p :=
  fun id hid => h id (hframe ▸ hid)

theorem load_node_pinned (p : Pool) (id : PageId) :
    Returns (load_btree_node p id) fun node => node.frame = some id := by
  unfold load_btree_node
  apply Returns.ite
  · intro _
    exact .error _
  · intro _
    exact .ok rfl

theorem store_node_pinned {node : BtreeNode} (h : node.In p) :
    Returns (store_btree_node p node) fun p' => p.Pinned 0 p' := by
  unfold store_btree_node
  cases hframe : node.frame with
  | none => exact .error _
  | some id =>
    apply Returns.ite
    · intro _
      exact .error _
    · intro _
      exact .ok (pinned_setFrame (h id hframe))

theorem dirty_node_pinned {node : BtreeNode} (h : node.In p) :
    Returns (dirtyNode p node) fun p' => p.Pinned 0 p' := by
  unfold dirtyNode
  cases hframe : node.frame with
  | none => exact .error _
  | some id => exact .ok (pinned_setFrame (h id hframe))

theorem free_node_pinned {node : BtreeNode} (h : node.In p) :
    Returns (freeNode p node) fun p' => p.Pinned 0 p' := by
  unfold freeNode
  cases hframe : node.frame with
  | none => exact .error _
  | some id => exact .ok (pinned_setFrame (h id hframe))

theorem storeThree_pinned {a b c : BtreeNode} (ha : a.In p) (hb : b.In p) (hc : c.In p) :
    Returns (storeThree p a b c) fun p' => p.Pinned 0 p' := by
  unfold storeThree
  refine Returns.bind (store_node_pinned ha) fun p₁ h₁ => ?_
  refine Returns.bind (store_node_pinned (hb.keeps h₁)) fun p₂ h₂ => ?_
  have h₂ := h₁.still h₂
  refine Returns.bind (store_node_pinned (hc.keeps h₂)) fun p₃ h₃ => ?_
  have h₃ := h₂.still h₃
  refine Returns.bind (dirty_node_pinned (ha.keeps h₃)) fun p₄ h₄ => ?_
  have h₄ := h₃.still h₄
  refine Returns.bind (dirty_node_pinned (hb.keeps h₄)) fun p₅ h₅ => ?_
  have h₅ := h₄.still h₅
  refine (dirty_node_pinned (hc.keeps h₅)).mono fun p₆ h₆ => ?_
  exact h₅.still h₆

/-- The page behind is pinned for as long as its `prev` is changed. -/
theorem relinkNext_pinned (p : Pool) (next prev_id : PageId) :
    Returns (relinkNext p next prev_id) fun p' => p.Pinned 0 p' := by
  unfold relinkNext
  apply Returns.ite
  · intro _
    exact .ok (.refl p)
  · intro _
    cases hload : kds_buf_lookup_or_load p next with
    | mk res p₁ =>
      obtain ⟨herr, hok⟩ := pinned_lookup hload
      cases res with
      | error e => exact .ok (herr e rfl)
      | ok frame =>
        obtain ⟨-, hpin, hin⟩ := hok frame rfl
        refine Returns.bind (load_node_pinned p₁ frame) fun node hnode => ?_
        have hnodeIn : ({ node with prev := prev_id } : BtreeNode).In p₁ := by
          intro id hid
          rw [← Option.some.inj (hnode.symm.trans hid)]
          exact hin
        refine Returns.bind (store_node_pinned hnodeIn) fun p₂ h₂ => ?_
        exact .ok ((hpin.still h₂).cancel (pinned_unpin (h₂.keeps frame hin)))

theorem remove_at_returns (node : BtreeNode) (pos : Int) :
    Returns (btree_node_remove_at node pos) fun n => n.frame = node.frame := by
  unfold btree_node_remove_at
  refine Returns.bind (.self _) fun keys _ => ?_
  refine Returns.bind (.self _) fun slots _ => ?_
  exact .ok rfl

theorem redistributeLeft_returns (parent : BtreeNode) (sep_pos : Int) (left node : BtreeNode) :
    Returns (redistributeLeft parent sep_pos left node) fun r =>
      r.1.frame = parent.frame ∧ r.2.1.frame = left.frame ∧ r.2.2.frame = node.frame := by
  unfold redistributeLeft
  apply Returns.ite
  · intro _
    refine Returns.bind (.self _) fun keys _ => ?_
    refine Returns.bind (.self _) fun slots _ => ?_
    refine Returns.bind (.self _) fun last_key _ => ?_
    refine Returns.bind (.self _) fun keys _ => ?_
    refine Returns.bind (.self _) fun last_slot _ => ?_
    refine Returns.bind (.self _) fun slots _ => ?_
    refine Returns.bind (.self _) fun first_key _ => ?_
    refine Returns.bind (.self _) fun pkeys _ => ?_
    exact .ok ⟨rfl, rfl, rfl⟩
  · intro _
    refine Returns.bind (.self _) fun keys _ => ?_
    refine Returns.bind (.self _) fun slots _ => ?_
    refine Returns.bind (.self _) fun sep _ => ?_
    refine Returns.bind (.self _) fun keys _ => ?_
    refine Returns.bind (.self _) fun last_slot _ => ?_
    refine Returns.bind (.self _) fun slots _ => ?_
    refine Returns.bind (.self _) fun last_key _ => ?_
    refine Returns.bind (.self _) fun pkeys _ => ?_
    exact .ok ⟨rfl, rfl, rfl⟩

theorem redistributeRight_returns (parent : BtreeNode) (sep_pos : Int) (node right : BtreeNode) :
    Returns (redistributeRight parent sep_pos node right) fun r =>
      r.1.frame = parent.frame ∧ r.2.1.frame = node.frame ∧ r.2.2.frame = right.frame := by
  unfold redistributeRight
  apply Returns.ite
  · intro _
    refine Returns.bind (.self _) fun first_key _ => ?_
    refine Returns.bind (.self _) fun keys _ => ?_
    refine Returns.bind (.self _) fun first_slot _ => ?_
    refine Returns.bind (.self _) fun slots _ => ?_
    refine Returns.bind (.self _) fun rkeys _ => ?_
    refine Returns.bind (.self _) fun rslots _ => ?_
    refine Returns.bind (.self _) fun next_key _ => ?_
    refine Returns.bind (.self _) fun pkeys _ => ?_
    exact .ok ⟨rfl, rfl, rfl⟩
  · intro _
    refine Returns.bind (.self _) fun sep _ => ?_
    refine Returns.bind (.self _) fun keys _ => ?_
    refine Returns.bind (.self _) fun first_slot _ => ?_
    refine Returns.bind (.self _) fun slots _ => ?_
    refine Returns.bind (.self _) fun first_key _ => ?_
    refine Returns.bind (.self _) fun pkeys _ => ?_
    refine Returns.bind (.self _) fun rkeys _ => ?_
    refine Returns.bind (.self _) fun rslots _ => ?_
    exact .ok ⟨rfl, rfl, rfl⟩

theorem redistribute_left_pinned {parent left node : BtreeNode} {sep_pos : Int}
    (hparent : parent.In p) (hleft : left.In p) (hnode : node.In p) :
    Returns (btree_redistribute_from_left p parent sep_pos left node) fun r =>
      r.1.frame = parent.frame ∧ r.2.1.frame = node.frame ∧ p.Pinned 0 r.2.2 := by
  unfold btree_redistribute_from_left
  refine Returns.bind (redistributeLeft_returns parent sep_pos left node) fun r hr => ?_
  refine Returns.bind (storeThree_pinned (hleft.of_frame hr.2.1) (hnode.of_frame hr.2.2)
    (hparent.of_frame hr.1)) fun p₁ h₁ => ?_
  exact .ok ⟨hr.1, hr.2.2, h₁⟩

theorem redistribute_right_pinned {parent node right : BtreeNode} {sep_pos : Int}
    (hparent : parent.In p) (hnode : node.In p) (hright : right.In p) :
    Returns (btree_redistribute_from_right p parent sep_pos node right) fun r =>
      r.1.frame = parent.frame ∧ r.2.1.frame = node.frame ∧ p.Pinned 0 r.2.2 := by
  unfold btree_redistribute_from_right
  refine Returns.bind (redistributeRight_returns parent sep_pos node right) fun r hr => ?_
  refine Returns.bind (storeThree_pinned (hnode.of_frame hr.2.1) (hright.of_frame hr.2.2)
    (hparent.of_frame hr.1)) fun p₁ h₁ => ?_
  exact .ok ⟨hr.1, hr.2.1, h₁⟩

theorem mergeInto_frame (parent : BtreeNode) (sep_pos : Int) (left right : BtreeNode) :
    Returns (mergeInto parent sep_pos left right) fun n => n.frame = left.frame := by
  unfold mergeInto
  apply Returns.ite
  · intro _
    refine Returns.bind (.self _) fun keys _ => ?_
    refine Returns.bind (.self _) fun slots _ => ?_
    exact .ok rfl
  · intro _
    refine Returns.bind (.self _) fun sep _ => ?_
    refine Returns.bind (.self _) fun keys _ => ?_
    refine Returns.bind (.self _) fun keys _ => ?_
    refine Returns.bind (.self _) fun slots _ => ?_
    exact .ok rfl

/-- The end of a merge: parent and left node are stored and marked. -/
theorem merged_stores_pinned {parent merged : BtreeNode} {sep_pos : Int} (h : p.Pinned 0 p')
    (hparent : parent.In p) (hmerged : merged.In p) :
    Returns (do
      let parent ← btree_node_remove_at parent sep_pos
      let p ← store_btree_node p' merged
      let p ← store_btree_node p parent
      let p ← dirtyNode p merged
      let p ← dirtyNode p parent
      .ok (parent, merged, p)) fun r =>
        r.1.frame = parent.frame ∧ r.2.1.frame = merged.frame ∧ p.Pinned 0 r.2.2 := by
  refine Returns.bind (remove_at_returns parent sep_pos) fun parent' hsame => ?_
  have hparent' := hparent.of_frame hsame
  refine Returns.bind (store_node_pinned (hmerged.keeps h)) fun p₂ h₂ => ?_
  have h₂ := h.still h₂
  refine Returns.bind (store_node_pinned (hparent'.keeps h₂)) fun p₃ h₃ => ?_
  have h₃ := h₂.still h₃
  refine Returns.bind (dirty_node_pinned (hmerged.keeps h₃)) fun p₄ h₄ => ?_
  have h₄ := h₃.still h₄
  refine Returns.bind (dirty_node_pinned (hparent'.keeps h₄)) fun p₅ h₅ => ?_
  exact .ok ⟨hsame, rfl, h₄.still h₅⟩

theorem merge_nodes_pinned {parent left right : BtreeNode} {sep_pos : Int}
    (hparent : parent.In p) (hleft : left.In p) :
    Returns (btree_merge_nodes p parent sep_pos left right) fun r =>
      r.1.frame = parent.frame ∧ r.2.1.frame = left.frame ∧ p.Pinned 0 r.2.2 := by
  unfold btree_merge_nodes
  refine Returns.bind (mergeInto_frame parent sep_pos left right) fun merged hmerged => ?_
  have hstores : ∀ p', p.Pinned 0 p' → _ :=
    fun p' h => @merged_stores_pinned p p' parent merged sep_pos h hparent (hleft.of_frame hmerged)
  rw [hmerged] at hstores
  dsimp only
  apply Returns.ite
  · intro _
    cases merged.frame with
    | none => exact Returns.bind (.error _) fun p₁ h₁ => hstores p₁ h₁
    | some frame => exact Returns.bind (relinkNext_pinned p _ _) fun p₁ h₁ => hstores p₁ h₁
  · intro _
    exact Returns.bind (.ok (.refl p)) fun p₁ h₁ => hstores p₁ h₁

/-- The page of a sibling, if there is one. -/
def siblingFrame (node : Option BtreeNode) : Option PageId := node.bind BtreeNode.frame

theorem load_sibling_pinned (p : Pool) (present : Bool) (parent : BtreeNode) (idx : Int) :
    Returns (loadSibling p present parent idx) fun r =>
      p.Pinned (entry (siblingFrame r.1)) r.2 ∧ ∀ node, r.1 = some node → node.In r.2 := by
  unfold loadSibling
  apply Returns.ite
  · intro _
    refine Returns.bind (.self _) fun id _ => ?_
    cases hload : kds_buf_lookup_or_load p id with
    | mk res p₁ =>
      obtain ⟨herr, hok⟩ := pinned_lookup hload
      cases res with
      | error e => exact .ok ⟨herr e rfl, fun node hn => by simp at hn⟩
      | ok frame =>
        obtain ⟨-, hpin, hin⟩ := hok frame rfl
        refine Returns.bind (load_node_pinned p₁ frame) fun node hnode => ?_
        apply Returns.ok
        constructor
        · show p.Pinned (entry node.frame) p₁
          rw [hnode]
          exact hpin
        · intro n hn id hid
          rw [← Option.some.inj hn] at hid
          rw [← Option.some.inj (hnode.symm.trans hid)]
          exact hin
  · intro _
    exact .ok ⟨.refl p, fun node hn => by simp at hn⟩

theorem unpin_sibling_pinned {node : Option BtreeNode} (h : ∀ n, node = some n → n.In p) :
    p.Pinned (-entry (siblingFrame node)) (unpinSibling p node) := by
  unfold unpinSibling siblingFrame
  cases node with
  | none =>
    rw [Option.bind_none, entry_none, neg_zero]
    exact .refl p
  | some n =>
    rw [Option.bind_some]
    dsimp only
    cases hframe : n.frame with
    | none =>
      rw [entry_none, neg_zero]
      exact .refl p
    | some id => exact pinned_unpin (h n rfl id hframe)

end nodes

/-! ## Section 3: Cursors -/

/-- The page that entry `i` of a cursor's `nodes` holds. -/
def frameAt (nodes : Vector BtreeNode 16) (i : Nat) : Option PageId := nodes[i]?.bind BtreeNode.frame

/-- What a cursor holds: one pin for every level down to its depth. -/
def BtreeCursor.pins (cursor : BtreeCursor) : PageId → Int :=
  held (frameAt cursor.nodes) (cursor.depth + 1)

/-- The frames a cursor refers to are frames of the pool. -/
def BtreeCursor.In (cursor : BtreeCursor) (p : Pool) : Prop :=
  ∀ i id, frameAt cursor.nodes i = some id → (p.cached id).isSome

section cursors

variable {p p' : Pool} {d : PageId → Int}

theorem BtreeCursor.In.keeps {cursor : BtreeCursor} (h : cursor.In p) (hp : p.Pinned d p') :
    cursor.In p' :=
  fun i id hid => hp.keeps id (h i id hid)

theorem frameAt_get {nodes : Vector BtreeNode 16} {i : Nat} :
    Returns (arrGet nodes i) fun node => frameAt nodes i = node.frame := by
  intro node hget
  unfold arrGet at hget
  split at hget
  · next hi =>
    have hi16 : i < 16 := hi.2
    have hnode : nodes[i] = node := Except.ok.inj hget
    unfold frameAt
    rw [Vector.getElem?_eq_getElem hi16, Option.bind_some, hnode]
  · simp at hget

theorem frameAt_set {nodes : Vector BtreeNode 16} {i : Nat} {node : BtreeNode} :
    Returns (arrSet nodes i node) fun nodes' =>
      i < 16 ∧ ∀ j, frameAt nodes' j = if j = i then node.frame else frameAt nodes j := by
  intro nodes' hset
  unfold arrSet at hset
  split at hset
  · next hi =>
    have hi16 : i < 16 := hi.2
    refine ⟨hi16, fun j => ?_⟩
    rw [← Except.ok.inj hset]
    unfold frameAt
    by_cases hj : j = i
    · subst hj
      simp [hi16]
    · simp [hj, Vector.getElem?_set_ne, Ne.symm hj]
  · simp at hset

/-- A node goes back to its place. -/
theorem frameAt_set_same {nodes : Vector BtreeNode 16} {i : Nat} {node : BtreeNode}
    (h : frameAt nodes i = node.frame) :
    Returns (arrSet nodes i node) fun nodes' => frameAt nodes' = frameAt nodes := by
  refine frameAt_set.mono fun nodes' hset => ?_
  funext j
  rw [hset.2 j]
  split
  · next hj => rw [hj, h]
  · rfl

theorem BtreeCursor.In.node {cursor : BtreeCursor} {i : Nat} {node : BtreeNode}
    (h : cursor.In p) (hframe : frameAt cursor.nodes i = node.frame) : node.In p :=
  fun id hid => h i id (hframe.trans hid)

theorem cleanup_pinned (count : Nat) : ∀ {nodes : Vector BtreeNode 16} {p : Pool} {i : Nat},
    (∀ j id, frameAt nodes j = some id → (p.cached id).isSome) →
    Returns (cleanupFrom nodes p i count) fun r =>
      p.Pinned (-held (fun k => frameAt nodes (i + k)) count) r.2 ∧
        ∀ j, frameAt r.1 j = if i ≤ j ∧ j < i + count then none else frameAt nodes j := by
  induction count with
  | zero =>
    intro nodes p i _
    apply Returns.ok
    rw [held_zero, neg_zero]
    refine ⟨.refl p, fun j => ?_⟩
    rw [if_neg (by omega)]
  | succ n ih =>
    intro nodes p i hin
    unfold cleanupFrom
    refine Returns.bind frameAt_get fun node hnode => ?_
    have hfirst : frameAt nodes (i + 0) = node.frame := hnode
    have hshift : (fun k => frameAt nodes (i + (k + 1))) = fun k => frameAt nodes (i + 1 + k) := by
      funext k
      rw [show i + (k + 1) = i + 1 + k by omega]
    rw [held_succ' (fun k => frameAt nodes (i + k)) n, hshift, hfirst]
    -- a node without a frame has nothing to let go of
    cases hframe : node.frame with
    | none =>
      rw [hframe] at hnode
      refine (ih hin).mono fun r hr => ?_
      rw [entry_none, add_zero]
      refine ⟨hr.1, fun j => ?_⟩
      rw [hr.2 j]
      by_cases hj : j = i
      · rw [hj, if_neg (by omega), if_pos (by omega), hnode]
      · by_cases hlt : i + 1 ≤ j ∧ j < i + 1 + n
        · rw [if_pos hlt, if_pos (by omega)]
        · rw [if_neg hlt, if_neg (by omega)]
    | some id =>
      rw [hframe] at hnode
      have hid := hin i id hnode
      refine Returns.bind frameAt_set fun nodes' hset => ?_
      -- the slot is cleared, so no pin is taken back twice
      have hin' : ∀ j id', frameAt nodes' j = some id' → ((kds_buf_unpin p id).cached id').isSome := by
        intro j id' hj
        rw [hset.2 j] at hj
        split at hj
        · simp at hj
        · exact hin j id' hj
      have hrest : (fun k => frameAt nodes' (i + 1 + k)) = fun k => frameAt nodes (i + 1 + k) := by
        funext k
        rw [hset.2, if_neg (by omega)]
      refine (ih hin').mono fun r hr => ?_
      rw [hrest] at hr
      refine ⟨((pinned_unpin hid).trans hr.1).of_eq ?_, fun j => ?_⟩
      · rw [neg_add, add_comm]
      · rw [hr.2 j, hset.2 j]
        by_cases hj : j = i
        · rw [hj, if_neg (by omega), if_pos rfl, if_pos (by omega)]
        · by_cases hlt : i + 1 ≤ j ∧ j < i + 1 + n
          · rw [if_pos hlt, if_pos (by omega)]
          · rw [if_neg hlt, if_neg hj, if_neg (by omega)]

/-- **`btree_cursor_cleanup`**, when it returns: it gives back what the cursor holds. -/
theorem cursor_cleanup_pinned {cursor : BtreeCursor} (h : cursor.In p) :
    Returns (btree_cursor_cleanup cursor p) fun r =>
      p.Pinned (-cursor.pins) r.2 ∧ r.1.depth = cursor.depth ∧
        ∀ j, frameAt r.1.nodes j = if j ≤ cursor.depth then none else frameAt cursor.nodes j := by
  unfold btree_cursor_cleanup
  refine Returns.bind (cleanup_pinned (cursor.depth + 1) h) fun r hr => ?_
  apply Returns.ok
  have hzero : (fun k => frameAt cursor.nodes (0 + k)) = frameAt cursor.nodes := by
    funext k
    rw [Nat.zero_add]
  rw [hzero] at hr
  refine ⟨hr.1, rfl, fun j => ?_⟩
  rw [hr.2 j]
  by_cases hj : j ≤ cursor.depth
  · rw [if_pos hj, if_pos (by omega)]
  · rw [if_neg hj, if_neg (by omega)]

end cursors

/-! ## Section 4: The descent -/

/-- A descent along `route`, which says where it goes on from a node, is not
    at its end when it has been to `n` levels from page `id` on. -/
def TooDeep (route : BtreeNode → Option PageId) (p : Pool) (id : PageId) : (n : Nat) → Prop
  | 0 => True
  | n + 1 => ∃ p' node child, kds_buf_lookup_or_load p id = (.ok id, p') ∧
      load_btree_node p' id = .ok node ∧ route node = some child ∧ TooDeep route p' child n

/-- Where `btree_cursor_search` goes on: not from a leaf, nor from a node with the key. -/
def searchRoute (key : TupleId) (node : BtreeNode) : Option PageId :=
  match btree_search_position node.toBtreePageData key with
  | .error _ => none
  | .ok pos =>
      match keyAt node pos key, arrGet node.slots pos with
      | .ok false, .ok child => if node.level = 0 then none else some child
      | _, _ => none

/-- A cursor on its way down: it holds the levels above its depth and nothing else. -/
structure BtreeCursor.Descending (cursor : BtreeCursor) (p₀ p : Pool) : Prop where
  pinned : p₀.Pinned (held (frameAt cursor.nodes) cursor.depth) p
  isIn : cursor.In p
  above : ∀ i, i < cursor.depth → (frameAt cursor.nodes i).isSome
  fresh : ∀ i, cursor.depth ≤ i → frameAt cursor.nodes i = none

section descent

variable {p₀ p p' : Pool} {cursor : BtreeCursor} {key : TupleId}

theorem frameAt_init (i : Nat) : frameAt btree_cursor_init.nodes i = none := by
  unfold frameAt btree_cursor_init
  by_cases hi : i < 16
  · simp [hi, zeroNode]
  · simp [hi]

theorem descending_init (p : Pool) : btree_cursor_init.Descending p p where
  pinned := .refl p
  isIn := by
    intro i id hid
    simp [frameAt_init] at hid
  above := fun i hi => absurd hi (Nat.not_lt_zero i)
  fresh := fun i _ => frameAt_init i

/-- Where it stops between two levels, the cursor holds what is above. -/
theorem BtreeCursor.Descending.pins (h : cursor.Descending p₀ p) : p₀.Pinned cursor.pins p := by
  apply h.pinned.of_eq
  unfold BtreeCursor.pins
  rw [held_succ, h.fresh cursor.depth (Nat.le_refl _), entry_none, add_zero]

theorem BtreeCursor.Descending.still (h : cursor.Descending p₀ p) (hp : p.Pinned 0 p') :
    cursor.Descending p₀ p' :=
  ⟨h.pinned.still hp, h.isIn.keeps hp, h.above, h.fresh⟩

/-- The page of one more level. -/
theorem BtreeCursor.Descending.level {nodes : Vector BtreeNode 16} {node : BtreeNode} {id : PageId}
    (h : cursor.Descending p₀ p) (hpin : p.Pinned (entry (some id)) p') (hid : (p'.cached id).isSome)
    (hnode : node.frame = some id)
    (hset : ∀ j, frameAt nodes j = if j = cursor.depth then node.frame else frameAt cursor.nodes j)
    (positions : Vector Int 16) :
    let cursor' : BtreeCursor := { cursor with nodes := nodes, positions := positions }
    p₀.Pinned cursor'.pins p' ∧ cursor'.In p' ∧
      (∀ i, i ≤ cursor.depth → (frameAt nodes i).isSome) ∧
      BtreeCursor.Descending { cursor' with depth := cursor.depth + 1 } p₀ p' := by
  -- the nodes above stay, and one more page is held
  have hheld : held (frameAt nodes) (cursor.depth + 1) =
      held (frameAt cursor.nodes) cursor.depth + entry (some id) := by
    rw [held_succ, hset cursor.depth, if_pos rfl, hnode]
    congr 1
    apply held_congr
    intro k hk
    rw [hset k, if_neg (by omega)]
  have hpins : p₀.Pinned (held (frameAt nodes) (cursor.depth + 1)) p' :=
    (h.pinned.trans hpin).of_eq hheld.symm
  have hin : ∀ i id', frameAt nodes i = some id' → (p'.cached id').isSome := by
    intro i id' hi
    rw [hset i] at hi
    split at hi
    · rw [← Option.some.inj (hnode.symm.trans hi)]
      exact hid
    · exact hpin.keeps id' (h.isIn i id' hi)
  have habove : ∀ i, i ≤ cursor.depth → (frameAt nodes i).isSome := by
    intro i hi
    rw [hset i]
    split
    · rw [hnode]
      rfl
    · exact h.above i (by omega)
  refine ⟨hpins, hin, habove, hpins, hin, ?_, ?_⟩
  · intro i hi
    exact habove i (Nat.le_of_lt_succ hi)
  · intro i hi
    have hi : cursor.depth + 1 ≤ i := hi
    show frameAt nodes i = none
    rw [hset i, if_neg (by omega)]
    exact h.fresh i (by omega)

/-- What the descent leaves, wherever it ends. -/
structure Descended (p₀ : Pool) (res : Except Errno Unit) (cursor : BtreeCursor) (p : Pool) :
    Prop where
  pinned : p₀.Pinned cursor.pins p
  isIn : cursor.In p
  levels : res = .ok () → cursor.depth < BTREE_MAX_DEPTH ∧
    ∀ i, i ≤ cursor.depth → (frameAt cursor.nodes i).isSome

theorem searchLoop_pinned (fuel : Nat) : ∀ {p : Pool} {cursor : BtreeCursor} {id : PageId},
    cursor.Descending p₀ p → cursor.depth + fuel = BTREE_MAX_DEPTH →
    Returns (searchLoop p cursor id key fuel) fun r =>
      Descended p₀ r.1 r.2.1 r.2.2 ∧
        (r.2.1.depth < BTREE_MAX_DEPTH ∨ TooDeep (searchRoute key) p id fuel) := by
  induction fuel with
  | zero =>
    intro p cursor id h _
    exact .ok ⟨⟨h.pins, h.isIn, fun hr => by simp at hr⟩, Or.inr trivial⟩
  | succ n ih =>
    intro p cursor id h hfuel
    have hdepth : cursor.depth < BTREE_MAX_DEPTH := by omega
    unfold searchLoop
    cases hload : kds_buf_lookup_or_load p id with
    | mk res p₁ =>
      obtain ⟨herr, hok⟩ := pinned_lookup hload
      cases res with
      | error e =>
        have h₁ := h.still (herr e rfl)
        exact .ok ⟨⟨h₁.pins, h₁.isIn, fun hr => by simp at hr⟩, Or.inl hdepth⟩
      | ok frame =>
        obtain ⟨rfl, hpin, hid⟩ := hok frame rfl
        -- the node goes into the cursor, which holds its pin from here on
        refine Returns.bind (.self _) fun node hnode => ?_
        have hframe := load_node_pinned p₁ frame node hnode
        refine Returns.bind frameAt_set fun nodes hset => ?_
        refine Returns.bind (.self _) fun pos hpos => ?_
        refine Returns.bind (.self _) fun positions _ => ?_
        refine Returns.bind (.self _) fun found hfound => ?_
        obtain ⟨hpins, hin, habove, hnext⟩ := h.level hpin hid hframe hset.2 positions
        apply Returns.ite
        · intro _
          exact .ok ⟨⟨hpins, hin, fun hr => by simp at hr⟩, Or.inl hdepth⟩
        · intro hkey
          apply Returns.ite
          · intro _
            exact .ok ⟨⟨hpins, hin, fun _ => ⟨hdepth, habove⟩⟩, Or.inl hdepth⟩
          -- the search goes on in the child, one level down
          · intro hlevel
            refine Returns.bind (.self _) fun child hchild => ?_
            have hfuel' : cursor.depth + 1 + n = BTREE_MAX_DEPTH := by omega
            refine (ih hnext hfuel').mono fun r hr => ⟨hr.1, hr.2.imp_right fun hdeep => ?_⟩
            refine ⟨p₁, node, child, hload, hnode, ?_, hdeep⟩
            have hfalse : keyAt node pos key = .ok false := by
              rw [hfound]
              simpa using hkey
            unfold searchRoute
            simp only [hpos, hfalse, hchild, if_neg hlevel]

/-- A descent that is too deep runs into the limit. -/
theorem searchLoop_deep (fuel : Nat) : ∀ {p : Pool} {cursor : BtreeCursor} {id : PageId},
    cursor.depth + fuel = BTREE_MAX_DEPTH → TooDeep (searchRoute key) p id fuel →
    ∃ cursor' p', searchLoop p cursor id key fuel = .ok (.error .E2BIG, cursor', p') ∧
      cursor'.depth = BTREE_MAX_DEPTH := by
  induction fuel with
  | zero =>
    intro p cursor id hfuel _
    exact ⟨cursor, p, rfl, hfuel⟩
  | succ n ih =>
    intro p cursor id hfuel hdeep
    obtain ⟨p₁, node, child, hload, hnode, hroute, hdeep⟩ := hdeep
    have hdepth : cursor.depth < 16 := by
      rw [BTREE_MAX_DEPTH] at hfuel
      omega
    unfold searchRoute at hroute
    split at hroute
    · simp at hroute
    · next pos hpos =>
      split at hroute
      · next child' hfalse hchild =>
        split at hroute
        · simp at hroute
        · next hlevel =>
          rw [Option.some.inj hroute] at hchild
          have hfuel' : cursor.depth + 1 + n = BTREE_MAX_DEPTH := by omega
          let below : BtreeCursor := { cursor with
            nodes := cursor.nodes.set cursor.depth node
            positions := cursor.positions.set cursor.depth pos
            depth := cursor.depth + 1 }
          obtain ⟨cursor', p', hrun, hend⟩ := @ih p₁ below child hfuel' hdeep
          refine ⟨cursor', p', ?_, hend⟩
          rw [searchLoop, hload]
          simp only [hnode, arrSet_nat cursor.nodes hdepth, arrSet_nat cursor.positions hdepth, hpos,
            hfalse, hchild, if_neg hlevel, Bool.false_eq_true, if_false, bind, Except.bind]
          exact hrun
      · simp at hroute

/-- What `kds_btree_cursor_search` is to do with pins: it keeps within the
    cursor's arrays, holds nothing when it fails, and one pin for every level
    when it has found a leaf. -/
structure SearchBalanced (p : Pool) (root : PageId) (key : TupleId) : Prop where
  bounds : ∀ res cursor p', btree_cursor_search p root key = .ok (res, cursor, p') →
    cursor.depth < BTREE_MAX_DEPTH
  fails : ∀ e cursor p', kds_btree_cursor_search p root key = .ok (.error e, cursor, p') →
    p'.pins = p.pins
  found : ∀ cursor p', kds_btree_cursor_search p root key = .ok (.ok (), cursor, p') →
    p'.pins = p.pins + cursor.pins ∧ ∀ i, i ≤ cursor.depth → (frameAt cursor.nodes i).isSome

theorem btree_cursor_search_pinned (p : Pool) (root : PageId) (key : TupleId) :
    Returns (btree_cursor_search p root key) fun r =>
      Descended p r.1 r.2.1 r.2.2 ∧
        (r.2.1.depth < BTREE_MAX_DEPTH ∨ TooDeep (searchRoute key) p root BTREE_MAX_DEPTH) :=
  searchLoop_pinned BTREE_MAX_DEPTH (descending_init p) (Nat.zero_add _)

/-- The search, with the cleanup where it fails. -/
theorem kds_btree_cursor_search_pinned (p : Pool) (root : PageId) (key : TupleId) :
    Returns (kds_btree_cursor_search p root key) fun r =>
      (∀ e, r.1 = .error e → p.Pinned 0 r.2.2) ∧
        (r.1 = .ok () → Descended p (.ok ()) r.2.1 r.2.2) := by
  unfold kds_btree_cursor_search
  refine Returns.bind (btree_cursor_search_pinned p root key) fun r hr => ?_
  obtain ⟨res, cursor, p₁⟩ := r
  cases res with
  | ok u =>
    apply Returns.ok
    exact ⟨fun e he => by simp at he, fun _ => hr.1⟩
  | error e =>
    refine Returns.bind (cursor_cleanup_pinned hr.1.isIn) fun r hclean => ?_
    apply Returns.ok
    exact ⟨fun e _ => hr.1.pinned.cancel hclean.1, fun hres => by simp at hres⟩

theorem not_tooDeep_of_bounds {p : Pool} {root : PageId} {key : TupleId}
    (h : ∀ res cursor p', btree_cursor_search p root key = .ok (res, cursor, p') →
      cursor.depth < BTREE_MAX_DEPTH) : ¬ TooDeep (searchRoute key) p root BTREE_MAX_DEPTH := by
  intro hdeep
  obtain ⟨cursor, p', hrun, hend⟩ :=
    @searchLoop_deep key BTREE_MAX_DEPTH p btree_cursor_init root (Nat.zero_add _) hdeep
  have hlt := h _ cursor p' hrun
  omega

theorem bounds_of_not_tooDeep {p : Pool} {root : PageId} {key : TupleId}
    (h : ¬ TooDeep (searchRoute key) p root BTREE_MAX_DEPTH) (res : Except Errno Unit)
    (cursor : BtreeCursor) (p' : Pool)
    (hrun : btree_cursor_search p root key = .ok (res, cursor, p')) :
    cursor.depth < BTREE_MAX_DEPTH :=
  (btree_cursor_search_pinned p root key _ hrun).2.resolve_right h

theorem searchBalanced_iff (p : Pool) (root : PageId) (key : TupleId) :
    SearchBalanced p root key ↔ ¬ TooDeep (searchRoute key) p root BTREE_MAX_DEPTH := by
  constructor
  · intro h
    exact not_tooDeep_of_bounds h.bounds
  · intro h
    constructor
    · exact bounds_of_not_tooDeep h
    · intro e cursor p' hrun
      have hpinned := (kds_btree_cursor_search_pinned p root key _ hrun).1 e rfl
      rw [hpinned.pins, add_zero]
    · intro cursor p' hrun
      have hdesc := (kds_btree_cursor_search_pinned p root key _ hrun).2 rfl
      exact ⟨hdesc.pinned.pins, (hdesc.levels rfl).2⟩

end descent

/-! ## Section 5: Insertion -/

section insert

variable {p p' : Pool}

theorem alloc_new_page_pinned {type : PageType} {res : Except Errno PageId}
    (h : btree_alloc_new_page p type = (res, p')) :
    (∀ e, res = .error e → p.Pinned 0 p') ∧
      ∀ frame, res = .ok frame → p.Pinned (entry (some frame)) p' ∧ (p'.cached frame).isSome := by
  unfold btree_alloc_new_page at h
  dsimp only at h
  have hids : p.Pinned 0 { p with superblock := (assign_page_id p.superblock).2 } :=
    ⟨(add_zero _).symm, fun _ h => h⟩
  generalize { p with superblock := (assign_page_id p.superblock).2 } = q at h hids
  split at h
  · obtain ⟨rfl, rfl⟩ := Prod.mk.inj h
    exact ⟨fun e _ => hids, fun frame hf => by simp at hf⟩
  · cases halloc : kds_buf_alloc_new q (assign_page_id p.superblock).1 with
    | mk res₁ p₁ =>
      obtain ⟨herr, hok⟩ := pinned_alloc_new halloc
      rw [halloc] at h
      cases res₁ with
      | error e =>
        obtain ⟨rfl, rfl⟩ := Prod.mk.inj h
        exact ⟨fun e' _ => hids.still (herr e rfl), fun frame hf => by simp at hf⟩
      | ok frame =>
        obtain ⟨hpin, hin⟩ := hok frame rfl
        obtain ⟨rfl, rfl⟩ := Prod.mk.inj h
        refine ⟨fun e he => by simp at he, fun frame' hf => ?_⟩
        rw [← Except.ok.inj hf]
        have hall := hids.trans hpin
        rw [zero_add] at hall
        -- the header is set up and copied to the front of the page
        have hset := pinned_setFrame (f :=
          { p₁.frame frame with hdr := { (p₁.frame frame).hdr with
              type := type, flags := (p₁.frame frame).hdr.flags ||| KDS_PAGE_FLAG_INIT } }) hin
        have hcommit := pinned_setFrame (f := (let f := (p₁.setFrame frame
          { p₁.frame frame with hdr := { (p₁.frame frame).hdr with
              type := type, flags := (p₁.frame frame).hdr.flags ||| KDS_PAGE_FLAG_INIT } }).frame frame
          { f with page := f.page.write 0 f.hdr.bytes })) (hset.keeps frame hin)
        exact ⟨(hall.still hset).still hcommit, hcommit.keeps frame (hset.keeps frame hin)⟩

theorem split_node_pinned {node : BtreeNode} (h : node.In p) :
    Returns (btree_split_node p node) fun r => r.2.1.frame = node.frame ∧ p.Pinned 0 r.2.2 := by
  unfold btree_split_node
  dsimp only
  cases hframe : node.frame with
  | none => exact .error _
  | some frame =>
    dsimp only
    cases halloc : btree_alloc_new_page p (p.frame frame).hdr.type with
    | mk res p₁ =>
      obtain ⟨herr, hok⟩ := alloc_new_page_pinned halloc
      cases res with
      | error e => exact .ok ⟨hframe, herr e rfl⟩
      | ok new_frame =>
        obtain ⟨hpin, hin⟩ := hok new_frame rfl
        refine Returns.bind (.self _) fun promoted_key _ => ?_
        refine Returns.bind (.self _) fun keys _ => ?_
        refine Returns.bind (.self _) fun slots _ => ?_
        refine Returns.bind (.self _) fun last _ => ?_
        refine Returns.bind (.self _) fun slots _ => ?_
        have hnode : ∀ (n : BtreeNode), n.frame = some frame → n.In p₁ :=
          fun n hn => (h.of_frame (hn.trans hframe.symm)).keeps hpin
        have hnew : ∀ (n : BtreeNode), n.frame = some new_frame → n.In p₁ := by
          intro n hn id hid
          rw [← Option.some.inj (hn.symm.trans hid)]
          exact hin
        refine Returns.bind (store_node_pinned (hnode _ (by rfl))) fun p₂ h₂ => ?_
        refine Returns.bind (store_node_pinned ((hnew _ (by rfl)).keeps h₂)) fun p₃ h₃ => ?_
        have h₃ := h₂.still h₃
        refine Returns.bind (relinkNext_pinned p₃ _ _) fun p₄ h₄ => ?_
        have h₄ := h₃.still h₄
        have h₅ := h₄.still (pinned_setFrame (f := kds_set_page_dirty (p₄.frame frame))
          (h₄.keeps frame (hpin.keeps frame (h frame hframe))))
        have h₆ := h₅.still (pinned_setFrame
          (f := kds_set_page_dirty ((setPageDirty p₄ frame).frame new_frame)) (h₅.keeps new_frame hin))
        exact .ok ⟨by rfl, (hpin.still h₆).cancel (pinned_unpin (h₆.keeps new_frame hin))⟩

/-- A new root: it comes to a result only if there is no page for it. -/
theorem growRoot_pinned (p : Pool) (cursor : BtreeCursor) (split_result : SplitResult) :
    Returns (growRoot p cursor split_result) fun r => r.2.1 = cursor ∧ p.Pinned 0 r.2.2 := by
  unfold growRoot
  cases halloc : btree_alloc_new_page p .btreeRoot with
  | mk res p₁ =>
    cases res with
    | error e => exact .ok ⟨rfl, (alloc_new_page_pinned halloc).1 e rfl⟩
    | ok new_root_frame =>
      refine Returns.bind (.self _) fun root _ => ?_
      cases root.frame with
      | none => exact .error _
      | some frame =>
        refine Returns.bind (.self _) fun keys _ => ?_
        refine Returns.bind (.self _) fun slots _ => ?_
        refine Returns.bind (.self _) fun slots _ => ?_
        refine Returns.bind (.self _) fun p₂ _ => ?_
        exact .error _

theorem propagate_split_pinned (level : Nat) : ∀ {p : Pool} {cursor : BtreeCursor}
    {split_result : SplitResult}, cursor.In p →
    Returns (btree_propagate_split p cursor split_result level) fun r =>
      p.Pinned 0 r.2.2 ∧ r.2.1.depth = cursor.depth ∧
        frameAt r.2.1.nodes = frameAt cursor.nodes := by
  induction level with
  | zero =>
    intro p cursor split_result _
    refine (growRoot_pinned p cursor split_result).mono fun r hr => ?_
    rw [hr.1]
    exact ⟨hr.2, rfl, rfl⟩
  | succ level ih =>
    intro p cursor split_result h
    unfold btree_propagate_split
    refine Returns.bind frameAt_get fun parent hparent => ?_
    refine Returns.bind (.self _) fun pos _ => ?_
    refine Returns.bind (insert_at_returns parent pos _ _) fun inserted hsame => ?_
    have hinserted : frameAt cursor.nodes level = inserted.frame := hparent.trans hsame.symm
    apply Returns.ite
    · intro _
      refine Returns.bind (frameAt_set_same hinserted) fun nodes hnodes => ?_
      refine Returns.bind (store_node_pinned (h.node hinserted)) fun p₁ h₁ => ?_
      exact .ok ⟨h₁, rfl, hnodes⟩
    · intro _
      refine Returns.bind (split_node_pinned (h.node hinserted)) fun r hr => ?_
      obtain ⟨res, parent', p₁⟩ := r
      have hparent' : frameAt cursor.nodes level = parent'.frame := hinserted.trans hr.1.symm
      cases res with
      | error e =>
        refine Returns.bind (frameAt_set_same hparent') fun nodes hnodes => ?_
        exact .ok ⟨hr.2, rfl, hnodes⟩
      | ok new_split =>
        refine Returns.bind (frameAt_set_same hparent') fun nodes hnodes => ?_
        have hin : BtreeCursor.In { cursor with nodes := nodes } p₁ := by
          intro i id hid
          rw [hnodes] at hid
          exact hr.2.keeps id (h i id hid)
        refine (ih hin).mono fun r₂ h₂ => ?_
        exact ⟨hr.2.still h₂.1, h₂.2.1, h₂.2.2.trans hnodes⟩

/-- A cursor at the same levels holds the same. -/
theorem BtreeCursor.pins_congr {cursor cursor' : BtreeCursor} (hdepth : cursor'.depth = cursor.depth)
    (hframes : frameAt cursor'.nodes = frameAt cursor.nodes) : cursor'.pins = cursor.pins := by
  unfold BtreeCursor.pins
  rw [hdepth, hframes]

/-- The cleanup of a cursor whose nodes were replaced. -/
theorem cleanup_after {cursor cursor' : BtreeCursor} (h : cursor.In p) (hp : p.Pinned 0 p')
    (hdepth : cursor'.depth = cursor.depth)
    (hframes : frameAt cursor'.nodes = frameAt cursor.nodes) :
    Returns (btree_cursor_cleanup cursor' p') fun r =>
      p.Pinned (-cursor.pins) r.2 ∧ r.1.depth = cursor.depth ∧
        ∀ i, frameAt r.1.nodes i = if i ≤ cursor.depth then none else frameAt cursor.nodes i := by
  have hin : cursor'.In p' := by
    intro i id hid
    rw [hframes] at hid
    exact hp.keeps id (h i id hid)
  refine (cursor_cleanup_pinned hin).mono fun r hr => ?_
  rw [BtreeCursor.pins_congr hdepth hframes, hdepth, hframes] at hr
  exact ⟨(hp.trans hr.1).of_eq (zero_add _), hr.2⟩

/-- **`kds_btree_cursor_insert`** gives back what the cursor holds, whatever it returns. -/
theorem cursor_insert_pinned {cursor : BtreeCursor} {key : TupleId} {value : PageId}
    (h : cursor.In p) :
    Returns (kds_btree_cursor_insert p cursor key value) fun r =>
      p.Pinned (-cursor.pins) r.2.2 ∧ r.2.1.depth = cursor.depth ∧
        ∀ i, frameAt r.2.1.nodes i = if i ≤ cursor.depth then none else frameAt cursor.nodes i := by
  unfold kds_btree_cursor_insert
  refine Returns.bind frameAt_get fun leaf hleaf => ?_
  refine Returns.bind (.self _) fun pos _ => ?_
  refine Returns.bind (insert_at_returns leaf pos key value) fun inserted hsame => ?_
  have hinserted : frameAt cursor.nodes cursor.depth = inserted.frame := hleaf.trans hsame.symm
  apply Returns.ite
  · intro _
    refine Returns.bind (frameAt_set_same hinserted) fun nodes hnodes => ?_
    refine Returns.bind (store_node_pinned (h.node hinserted)) fun p₁ h₁ => ?_
    refine Returns.bind (cleanup_after h h₁ (by rfl) hnodes) fun r hr => ?_
    exact .ok hr
  · intro _
    refine Returns.bind (split_node_pinned (h.node hinserted)) fun r hr => ?_
    obtain ⟨res, leaf', p₁⟩ := r
    have hleaf' : frameAt cursor.nodes cursor.depth = leaf'.frame := hinserted.trans hr.1.symm
    refine Returns.bind (frameAt_set_same hleaf') fun nodes hnodes => ?_
    cases res with
    | error e =>
      refine Returns.bind (cleanup_after h hr.2 (by rfl) hnodes) fun r hclean => ?_
      exact .ok hclean
    | ok split_result =>
      have hin : BtreeCursor.In { cursor with nodes := nodes } p₁ := by
        intro i id hid
        rw [hnodes] at hid
        exact hr.2.keeps id (h i id hid)
      refine Returns.bind (propagate_split_pinned cursor.depth hin) fun r₂ h₂ => ?_
      obtain ⟨hp₂, hdepth, hframes⟩ := h₂
      refine Returns.bind (cleanup_after h (hr.2.still hp₂) hdepth (hframes.trans hnodes))
        fun r hclean => ?_
      exact .ok hclean

/-- What `btree_insert` is to do with pins. -/
structure InsertBalanced (p : Pool) (root : PageId) (key : TupleId) (value : PageId) : Prop where
  bounds : ∀ res cursor p', btree_cursor_search p root key = .ok (res, cursor, p') →
    cursor.depth < BTREE_MAX_DEPTH
  balanced : ∀ res p', btree_insert p root key value = .ok (res, p') → p'.pins = p.pins

theorem btree_insert_pinned (p : Pool) (root : PageId) (key : TupleId) (value : PageId) :
    Returns (btree_insert p root key value) fun r => p.Pinned 0 r.2 := by
  unfold btree_insert
  refine Returns.bind (kds_btree_cursor_search_pinned p root key) fun r hr => ?_
  obtain ⟨res, cursor, p₁⟩ := r
  cases res with
  | error e => exact .ok (hr.1 e rfl)
  | ok u =>
    have hdesc := hr.2 rfl
    refine Returns.bind (cursor_insert_pinned hdesc.isIn) fun r₂ h₂ => ?_
    exact .ok (hdesc.pinned.cancel h₂.1)

theorem insertBalanced_iff (p : Pool) (root : PageId) (key : TupleId) (value : PageId) :
    InsertBalanced p root key value ↔ ¬ TooDeep (searchRoute key) p root BTREE_MAX_DEPTH := by
  constructor
  · intro h
    exact not_tooDeep_of_bounds h.bounds
  · intro h
    refine ⟨bounds_of_not_tooDeep h, fun res p' hrun => ?_⟩
    rw [(btree_insert_pinned p root key value _ hrun).pins, add_zero]

end insert

/-! ## Section 6: Deletion -/

section delete

variable {p p' : Pool}

theorem handle_underflow_pinned (level : Nat) : ∀ {p : Pool} {cursor : BtreeCursor}, cursor.In p →
    Returns (btree_handle_underflow p cursor level) fun r =>
      p.Pinned 0 r.2 ∧ r.1.depth = cursor.depth ∧ frameAt r.1.nodes = frameAt cursor.nodes := by
  induction level with
  | zero =>
    intro p cursor _
    exact .ok ⟨.refl p, rfl, rfl⟩
  | succ level ih =>
    intro p cursor h
    unfold btree_handle_underflow
    refine Returns.bind frameAt_get fun node hnode => ?_
    apply Returns.ite
    · intro _
      exact .ok ⟨.refl p, rfl, rfl⟩
    · intro _
      refine Returns.bind frameAt_get fun parent hparent => ?_
      refine Returns.bind (.self _) fun pos _ => ?_
      refine Returns.bind (load_sibling_pinned p _ _ _) fun r₁ h₁ => ?_
      obtain ⟨left, p₁⟩ := r₁
      obtain ⟨h₁, hleft⟩ := h₁
      dsimp only at hleft h₁ ⊢
      have hparentIn := (h.node hparent).keeps h₁
      have hnodeIn := (h.node hnode).keeps h₁
      -- the same levels hold the same pages, however the nodes have changed
      have hstep : ∀ {nodes : Vector BtreeNode 16} {q : Pool}, p.Pinned 0 q →
          frameAt nodes = frameAt cursor.nodes →
          Returns (btree_handle_underflow q { cursor with nodes := nodes } level) fun r =>
            p.Pinned 0 r.2 ∧ r.1.depth = cursor.depth ∧ frameAt r.1.nodes = frameAt cursor.nodes := by
        intro nodes q hq hnodes
        have hin : BtreeCursor.In { cursor with nodes := nodes } q := by
          intro i id hid
          rw [hnodes] at hid
          exact hq.keeps id (h i id hid)
        refine (ih hin).mono fun r hr => ?_
        exact ⟨hq.still hr.1, hr.2.1, hr.2.2.trans hnodes⟩
      split
      · next left_sibling hfilter =>
        -- the left sibling gives an entry away
        have hsib := hleft left_sibling (Option.filter_eq_some_iff.mp hfilter).1
        refine Returns.bind (redistribute_left_pinned hparentIn hsib hnodeIn) fun r₂ h₂ => ?_
        refine Returns.bind (frameAt_set_same (hparent.trans h₂.1.symm)) fun nodes hnodes => ?_
        refine Returns.bind (frameAt_set_same ((congrFun hnodes _).trans
          (hnode.trans h₂.2.1.symm))) fun nodes' hnodes' => ?_
        have hunpin := unpin_sibling_pinned fun n hn => (hleft n hn).keeps h₂.2.2
        exact .ok ⟨(h₁.still h₂.2.2).cancel hunpin, rfl, hnodes'.trans hnodes⟩
      · refine Returns.bind (load_sibling_pinned p₁ _ _ _) fun r₂ h₂ => ?_
        obtain ⟨right, p₂⟩ := r₂
        obtain ⟨h₂, hright⟩ := h₂
        dsimp only at hright h₂ ⊢
        have hboth := h₁.trans h₂
        split
        · next right_sibling hfilter =>
          have hsib := hright right_sibling (Option.filter_eq_some_iff.mp hfilter).1
          refine Returns.bind (redistribute_right_pinned (hparentIn.keeps h₂) (hnodeIn.keeps h₂) hsib)
            fun r₃ h₃ => ?_
          refine Returns.bind (frameAt_set_same (hparent.trans h₃.1.symm)) fun nodes hnodes => ?_
          refine Returns.bind (frameAt_set_same ((congrFun hnodes _).trans
            (hnode.trans h₃.2.1.symm))) fun nodes' hnodes' => ?_
          have hunpin := unpin_sibling_pinned fun n hn => ((hleft n hn).keeps h₂).keeps h₃.2.2
          have hunpin' := unpin_sibling_pinned fun n hn => ((hright n hn).keeps h₃.2.2).keeps hunpin
          refine .ok ⟨(hboth.still h₃.2.2).cancel ((hunpin.trans hunpin').of_eq ?_), rfl,
            hnodes'.trans hnodes⟩
          rw [neg_add]
        · -- neither does: two nodes become one
          cases left with
          | some left_sibling =>
            have hsib := (hleft left_sibling rfl).keeps h₂
            refine Returns.bind (@merge_nodes_pinned _ _ _ node _ (hparentIn.keeps h₂) hsib)
              fun r₃ h₃ => ?_
            have hunpin := @unpin_sibling_pinned _ (some left_sibling)
              fun n hn => ((hleft n hn).keeps h₂).keeps h₃.2.2
            have hunpin' := unpin_sibling_pinned fun n hn => ((hright n hn).keeps h₃.2.2).keeps hunpin
            have hnone := (hboth.still h₃.2.2).cancel ((hunpin.trans hunpin').of_eq (neg_add _ _).symm)
            refine Returns.bind (free_node_pinned ((h.node hnode).keeps hnone)) fun p₅ h₅ => ?_
            refine Returns.bind (frameAt_set_same (hparent.trans h₃.1.symm)) fun nodes hnodes => ?_
            exact hstep (hnone.still h₅) hnodes
          | none =>
            cases right with
            | some right_sibling =>
              have hsib := hright right_sibling rfl
              refine Returns.bind (@merge_nodes_pinned _ _ _ right_sibling _ (hparentIn.keeps h₂)
                (hnodeIn.keeps h₂)) fun r₃ h₃ => ?_
              have hunpin := @unpin_sibling_pinned _ (some right_sibling)
                fun n hn => (hright n hn).keeps h₃.2.2
              have hnone := (hboth.still h₃.2.2).cancel (hunpin.of_eq (by
                show -entry (siblingFrame (some right_sibling)) =
                  -(0 + entry (siblingFrame (some right_sibling)))
                rw [zero_add]))
              refine Returns.bind (free_node_pinned ((hsib.keeps h₃.2.2).keeps hunpin))
                fun p₅ h₅ => ?_
              refine Returns.bind (frameAt_set_same (hparent.trans h₃.1.symm)) fun nodes hnodes => ?_
              refine Returns.bind (frameAt_set_same ((congrFun hnodes _).trans
                (hnode.trans h₃.2.1.symm))) fun nodes' hnodes' => ?_
              exact hstep (hnone.still h₅) (hnodes'.trans hnodes)
            | none =>
              have hnone : p.Pinned 0 p₂ := hboth.of_eq (add_zero _)
              exact hstep hnone rfl

theorem collapseRoot_pinned {root : BtreeNode} (h : root.In p) :
    Returns (collapseRoot p root) fun r => p.Pinned 0 r.2 := by
  unfold collapseRoot
  apply Returns.ite
  · intro _
    refine Returns.bind (.self _) fun child_id _ => ?_
    cases hload : kds_buf_lookup_or_load p child_id with
    | mk res p₁ =>
      obtain ⟨herr, hok⟩ := pinned_lookup hload
      cases res with
      | error e => exact .ok (herr e rfl)
      | ok child =>
        obtain ⟨-, hpin, hin⟩ := hok child rfl
        dsimp only
        generalize hp₂ : (if (p₁.frame child).hdr.type = .btreeInternal then
          setPageType p₁ child .btreeRoot else p₁) = p₂
        have h₂ : p₁.Pinned 0 p₂ := by
          rw [← hp₂]
          split
          · exact pinned_setFrame hin
          · exact .refl p₁
        have h₃ : p₂.Pinned 0 (setPageDirty p₂ child) := pinned_setFrame (h₂.keeps child hin)
        have h₃ := h₂.still h₃
        have hcommit : (setPageDirty p₂ child).Pinned 0
            (kds_commit_page_hdr (setPageDirty p₂ child) child) :=
          pinned_setFrame (h₃.keeps child hin)
        have h₄ := h₃.still hcommit
        have hnone := (hpin.still h₄).cancel (pinned_unpin (h₄.keeps child hin))
        refine Returns.bind (free_node_pinned (h.keeps hnone)) fun p₅ h₅ => ?_
        exact .ok (hnone.still h₅)
  · intro _
    exact .ok (.refl p)

/-- The end of a delete. -/
theorem delete_end_pinned {cursor cursor' : BtreeCursor} (h : cursor.In p) (hp : p.Pinned 0 p')
    (hdepth : cursor'.depth = cursor.depth)
    (hframes : frameAt cursor'.nodes = frameAt cursor.nodes) :
    Returns (do
      let root ← arrGet cursor'.nodes 0
      let (ret, p) ← collapseRoot p' root
      let (_, p) ← btree_cursor_cleanup cursor' p
      .ok (ret, p)) fun r => p.Pinned (-cursor.pins) r.2 := by
  refine Returns.bind (frameAt_get (i := 0)) fun root hroot => ?_
  rw [hframes] at hroot
  refine Returns.bind (collapseRoot_pinned ((h.node hroot).keeps hp)) fun r₁ h₁ => ?_
  refine Returns.bind (cleanup_after h (hp.still h₁) hdepth hframes) fun r₂ h₂ => ?_
  exact .ok h₂.1

theorem btree_delete_pinned (p : Pool) (root : PageId) (key : TupleId) :
    Returns (btree_delete p root key) fun r => p.Pinned 0 r.2 := by
  unfold btree_delete
  refine Returns.bind (btree_cursor_search_pinned p root key) fun r hr => ?_
  split
  · next cursor p₁ =>
    refine Returns.bind (cursor_cleanup_pinned hr.1.isIn) fun r hclean => ?_
    exact .ok (hr.1.pinned.cancel hclean.1)
  · next cursor p₁ =>
    have hdesc := hr.1
    -- the key was found: it is taken out of the leaf
    refine Returns.bind frameAt_get fun leaf hleaf => ?_
    refine Returns.bind (.self _) fun pos _ => ?_
    refine Returns.bind (remove_at_returns leaf pos) fun leaf' hsame => ?_
    have hleaf' : frameAt cursor.nodes cursor.depth = leaf'.frame := hleaf.trans hsame.symm
    refine Returns.bind (frameAt_set_same hleaf') fun nodes hnodes => ?_
    have hleafIn := hdesc.isIn.node hleaf'
    refine Returns.bind (store_node_pinned hleafIn) fun p₂ h₂ => ?_
    refine Returns.bind (dirty_node_pinned (hleafIn.keeps h₂)) fun p₃ h₃ => ?_
    have h₃ := h₂.still h₃
    dsimp only
    apply Returns.ite
    · intro _
      have hin : BtreeCursor.In { cursor with nodes := nodes } p₃ := by
        intro i id hid
        rw [hnodes] at hid
        exact h₃.keeps id (hdesc.isIn i id hid)
      refine Returns.bind (handle_underflow_pinned _ hin) fun r₄ h₄ => ?_
      exact (delete_end_pinned hdesc.isIn (h₃.still h₄.1) h₄.2.1 (h₄.2.2.trans hnodes)).mono
        fun r hr => hdesc.pinned.cancel hr
    · intro _
      refine Returns.bind (.self _) fun r₄ h₄ => ?_
      rw [← Except.ok.inj h₄]
      exact (delete_end_pinned hdesc.isIn h₃ (by rfl) hnodes).mono
        fun r hr => hdesc.pinned.cancel hr
  · next e cursor p₁ _ =>
    refine Returns.bind (cursor_cleanup_pinned hr.1.isIn) fun r hclean => ?_
    exact .ok (hr.1.pinned.cancel hclean.1)

/-- What `btree_delete` is to do with pins. -/
structure DeleteBalanced (p : Pool) (root : PageId) (key : TupleId) : Prop where
  bounds : ∀ res cursor p', btree_cursor_search p root key = .ok (res, cursor, p') →
    cursor.depth < BTREE_MAX_DEPTH
  balanced : ∀ res p', btree_delete p root key = .ok (res, p') → p'.pins = p.pins

theorem deleteBalanced_iff (p : Pool) (root : PageId) (key : TupleId) :
    DeleteBalanced p root key ↔ ¬ TooDeep (searchRoute key) p root BTREE_MAX_DEPTH := by
  constructor
  · intro h
    exact not_tooDeep_of_bounds h.bounds
  · intro h
    refine ⟨bounds_of_not_tooDeep h, fun res p' hrun => ?_⟩
    rw [(btree_delete_pinned p root key _ hrun).pins, add_zero]

end delete

end Kds
