import Kds.Btree.Insert
import Kds.Buf.Pins
import Kds.Lib.Fuel

/-! # Traversal of a B-tree

    `kds_btree_traverse` reports every node of a tree to a callback, and every
    key of the leaves. Whether a page has children is decided by its type:
    only a page of type INTERNAL has. A root of type ROOT above the leaves is
    taken for a leaf, and nothing below it is reported.
-/

open SearchTree

namespace Kds

/-! ## Section 1: The functions -/

/-- `kds_btree_traverse_cb`: node, frame, depth, key index and private data to
    a return value and the private data afterwards. -/
abbrev TraverseCb (St : Type) := BtreeNode → PageId → Int → Int → St → Int × St

/-- `struct kds_btree_traverse_ctx`. -/
structure TraverseCtx (St : Type) where
  callback : TraverseCb St
  priv : St
  depth : Int
  visited_nodes : UInt64
  visited_keys : UInt64

section functions

variable {St : Type}

/-- One call of the callback. -/
def TraverseCtx.call (ctx : TraverseCtx St) (node : BtreeNode) (frame : PageId) (key_idx : Int) :
    Int × TraverseCtx St :=
  let (ret, priv) := ctx.callback node frame ctx.depth key_idx ctx.priv
  (ret, { ctx with priv := priv })

/-- The loop over the keys of a leaf. -/
def leafLoop (node : BtreeNode) (frame : PageId) :
    List Nat → TraverseCtx St → Int × TraverseCtx St
  | [], ctx => (0, ctx)
  | i :: is, ctx =>
      let (ret, ctx) := ctx.call node frame i
      if ret ≠ 0 then (ret, ctx)
      else leafLoop node frame is { ctx with visited_keys := ctx.visited_keys + 1 }

/-- `__kds_btree_traverse_leaf`. -/
def traverse_leaf (node : BtreeNode) (frame : PageId) (ctx : TraverseCtx St) :
    Int × TraverseCtx St :=
  let (ret, ctx) := ctx.call node frame (-1)
  if ret ≠ 0 then (ret, ctx)
  else
    leafLoop node frame (List.range node.key_count.toNat)
      { ctx with visited_nodes := ctx.visited_nodes + 1 }

/-- The return value, the context and the pool; nothing if the recursion ran out of fuel. -/
abbrev Traversed (St : Type) := Option (Except Fault (Int × TraverseCtx St × Pool))

/-- `ctx->depth++`. -/
def TraverseCtx.down (ctx : TraverseCtx St) : TraverseCtx St := { ctx with depth := ctx.depth + 1 }

/-- `ctx->depth--` on the way out. -/
def TraverseCtx.up (ctx : TraverseCtx St) : TraverseCtx St := { ctx with depth := ctx.depth - 1 }

/-- The loop over the children of a node; `visit` is the recursive call. -/
def childLoop (visit : Pool → BtreeNode → PageId → TraverseCtx St → Traversed St)
    (node : BtreeNode) : List Nat → Pool → TraverseCtx St → Traversed St
  | [], p, ctx => some (.ok (0, ctx.up, p))
  | i :: is, p, ctx =>
      match arrGet node.slots i with
      | .error f => some (.error f)
      | .ok child_page_id =>
          match kds_buf_lookup_or_load p child_page_id with
          | (.error e, p) => some (.ok (-e.code, ctx.up, p))
          | (.ok child_frame, p) =>
              match load_btree_node p child_frame with
              | .error f => some (.error f)
              | .ok child_node =>
                  Fuel.andThen
                    (if (p.frame child_frame).hdr.type = .btreeInternal then
                      visit p child_node child_frame ctx
                    else
                      let (ret, ctx) := traverse_leaf child_node child_frame ctx
                      some (.ok (ret, ctx, p)))
                    fun x =>
                      let p := kds_buf_unpin x.2.2 child_frame
                      if x.1 ≠ 0 then some (.ok (x.1, x.2.1.up, p))
                      else childLoop visit node is p x.2.1

/-- `__kds_btree_traverse_internal`. -/
def traverse_internal : Nat → Pool → BtreeNode → PageId → TraverseCtx St → Traversed St
  | 0, _, _, _, _ => none
  | fuel + 1, p, node, frame, ctx =>
      let (ret, ctx) := ctx.call node frame (-1)
      if ret ≠ 0 then some (.ok (ret, ctx, p))
      else
        childLoop (traverse_internal fuel) node (List.range (node.key_count.toNat + 1)) p
          (TraverseCtx.down { ctx with visited_nodes := ctx.visited_nodes + 1 })

/-- `kds_btree_traverse`: the return value, the caller's private data and the pool. -/
def kds_btree_traverse (fuel : Nat) (p : Pool) (root_frame : Option PageId)
    (callback : Option (TraverseCb St)) (priv : St) : Option (Except Fault (Int × St × Pool)) :=
  match root_frame, callback with
  | some root_frame, some callback =>
      let ctx : TraverseCtx St :=
        { callback := callback, priv := priv, depth := 0, visited_nodes := 0, visited_keys := 0 }
      match load_btree_node p root_frame with
      | .error f => some (.error f)
      | .ok root_node =>
          Fuel.andThen
            (if (p.frame root_frame).hdr.type = .btreeInternal then
              traverse_internal fuel p root_node root_frame ctx
            else
              let (ret, ctx) := traverse_leaf root_node root_frame ctx
              some (.ok (ret, ctx, p)))
            fun x => some (.ok (x.1, x.2.1.priv, x.2.2))
  | _, _ => some (.ok (-Errno.EINVAL.code, priv, p))

end functions

/-! ## Section 2: What is reported -/

/-- What a call of the callback is given, its private data apart. -/
structure NodeVisit where
  node : BtreeNode
  frame : PageId
  depth : Int
  key_idx : Int
  deriving DecidableEq, Repr

/-- The copy of a node that `load_btree_node` makes. -/
def nodeCopy (p : Pool) (id : PageId) : BtreeNode :=
  { btreeData (p.frame id).page with frame := some id }

/-- The reports of the keys of one node. -/
def keyVisits (p : Pool) (id : PageId) (depth : Int) : List NodeVisit :=
  (List.range (p.tree id).keys.length).map fun (i : Nat) => ⟨nodeCopy p id, id, depth, i⟩

/-- The reports of a subtree of level `l`: a node comes before its children,
    and the keys of a leaf behind it. -/
def visits (p : Pool) : Nat → PageId → Int → List NodeVisit
  | 0, id, depth => ⟨nodeCopy p id, id, depth, -1⟩ :: keyVisits p id depth
  | l + 1, id, depth =>
      ⟨nodeCopy p id, id, depth, -1⟩ ::
        (p.tree id).slots.flatMap fun c => visits p l c (depth + 1)

section context

variable {St : Type}

/-- The context after a call that returned 0. -/
def TraverseCtx.reported (ctx : TraverseCtx St) (v : NodeVisit) : TraverseCtx St :=
  { ctx with
    priv := (ctx.callback v.node v.frame v.depth v.key_idx ctx.priv).2
    visited_nodes := if v.key_idx = -1 then ctx.visited_nodes + 1 else ctx.visited_nodes
    visited_keys := if v.key_idx = -1 then ctx.visited_keys else ctx.visited_keys + 1 }

/-- The context after calls that all returned 0. -/
def TraverseCtx.after (ctx : TraverseCtx St) (vs : List NodeVisit) : TraverseCtx St :=
  vs.foldl TraverseCtx.reported ctx

/-- A callback that always returns 0. -/
def TraverseCb.Quiet (callback : TraverseCb St) : Prop :=
  ∀ node frame depth key_idx priv, (callback node frame depth key_idx priv).1 = 0

variable (ctx : TraverseCtx St)

@[simp] theorem TraverseCtx.after_nil : ctx.after [] = ctx := rfl

theorem TraverseCtx.after_cons (v : NodeVisit) (vs : List NodeVisit) :
    ctx.after (v :: vs) = (ctx.reported v).after vs := rfl

theorem TraverseCtx.after_append (vs ws : List NodeVisit) :
    ctx.after (vs ++ ws) = (ctx.after vs).after ws :=
  List.foldl_append

@[simp] theorem TraverseCtx.after_callback (vs : List NodeVisit) :
    (ctx.after vs).callback = ctx.callback := by
  induction vs generalizing ctx with
  | nil => rfl
  | cons v vs ih => exact ih (ctx.reported v)

/-- The depth counter does not matter to the calls, which carry their depth. -/
theorem TraverseCtx.after_depth (vs : List NodeVisit) (d : Int) :
    TraverseCtx.after { ctx with depth := d } vs = { ctx.after vs with depth := d } := by
  induction vs generalizing ctx with
  | nil => rfl
  | cons v vs ih => exact ih (ctx.reported v)

@[simp] theorem TraverseCtx.depth_after (vs : List NodeVisit) : (ctx.after vs).depth = ctx.depth := by
  induction vs generalizing ctx with
  | nil => rfl
  | cons v vs ih => exact ih (ctx.reported v)

/-- The children are reported one level down. -/
theorem TraverseCtx.up_after (vs : List NodeVisit) :
    (ctx.down.after vs).up = ctx.after vs := by
  have hdepth := ctx.depth_after vs
  rw [TraverseCtx.down, TraverseCtx.after_depth, TraverseCtx.up, add_sub_cancel_right, ← hdepth]

/-- What is reported is all that happens to the private data. -/
theorem TraverseCtx.after_priv (vs : List NodeVisit) :
    (ctx.after vs).priv =
      vs.foldl (fun s v => (ctx.callback v.node v.frame v.depth v.key_idx s).2) ctx.priv := by
  induction vs generalizing ctx with
  | nil => rfl
  | cons v vs ih => exact ih (ctx.reported v)

/-- The report of a node. -/
theorem TraverseCtx.reported_node (node : BtreeNode) (frame : PageId) (depth : Int) :
    ctx.reported ⟨node, frame, depth, -1⟩ =
      { ctx with
        priv := (ctx.callback node frame depth (-1) ctx.priv).2
        visited_nodes := ctx.visited_nodes + 1 } := by
  rw [TraverseCtx.reported, if_pos rfl, if_pos rfl]

variable {ctx}

theorem TraverseCtx.call_quiet (h : ctx.callback.Quiet) (node : BtreeNode) (frame : PageId)
    (key_idx : Int) :
    ctx.call node frame key_idx =
      (0, { ctx with priv := (ctx.callback node frame ctx.depth key_idx ctx.priv).2 }) :=
  Prod.ext (h _ _ _ _ _) rfl

theorem leafLoop_quiet (node : BtreeNode) (frame : PageId) (is : List Nat)
    (h : ctx.callback.Quiet) :
    leafLoop node frame is ctx =
      (0, ctx.after (is.map fun (i : Nat) => ⟨node, frame, ctx.depth, i⟩)) := by
  induction is generalizing ctx with
  | nil => rfl
  | cons i is ih =>
    have hidx : ((i : Nat) : Int) ≠ -1 := by omega
    rw [leafLoop, TraverseCtx.call_quiet h]
    simp only [ne_eq, not_true_eq_false, if_false]
    rw [@ih { ctx with
      priv := (ctx.callback node frame ctx.depth i ctx.priv).2
      visited_keys := ctx.visited_keys + 1 } h]
    rw [List.map_cons, TraverseCtx.after_cons, TraverseCtx.reported, if_neg hidx, if_neg hidx]

end context

/-! ## Section 3: The recursion -/

theorem load_copy {p : Pool} {id : PageId} (htype : kds_is_btree_page (p.frame id) = true) :
    load_btree_node p id = .ok (nodeCopy p id) := by
  simp [load_btree_node, htype, nodeCopy]

theorem Pool.Same.nodeCopy {p p' : Pool} (h : p.Same p') (id : PageId) :
    nodeCopy p' id = nodeCopy p id := by
  unfold Kds.nodeCopy
  rw [h.frame]

theorem nodeCopy_tree (p : Pool) (id : PageId) : (nodeCopy p id).treeNode = p.tree id := rfl

theorem nodeCopy_count {p : Pool} {l : Nat} {id : PageId}
    (hok : NodeOk p.tree BTREE_MAX_KEYS l id) :
    (nodeCopy p id).key_count.toNat = (p.tree id).keys.length := by
  have hle := key_count_le_of_nodeOk (nodeCopy_tree p id) hok
  rw [← nodeCopy_tree, BtreePageData.length_keys hle]

/-- Slot `i` of the copy, for every round of the loop over the children. -/
theorem nodeCopy_slot {p : Pool} {l i : Nat} {id : PageId}
    (hok : NodeOk p.tree BTREE_MAX_KEYS l id) (hi : i < (p.tree id).slots.length) :
    arrGet (nodeCopy p id).slots i = .ok ((p.tree id).slots.getD i 0) := by
  have hle := key_count_le_of_nodeOk (nodeCopy_tree p id) hok
  have hget : (p.tree id).slots[i]? = some ((p.tree id).slots.getD i 0) := by
    rw [List.getD_eq_getElem?_getD, List.getElem?_eq_getElem hi]
    rfl
  obtain ⟨S₁, S₂, hsplit, rfl⟩ := exists_split_of_getElem? hget
  rw [← nodeCopy_tree] at hsplit
  exact (BtreePageData.slots_get hle hsplit).2

theorem map_getD_range {α : Type} (xs : List α) (d : α) :
    (List.range xs.length).map (fun i => xs.getD i d) = xs := by
  apply List.ext_getElem
  · simp
  · intro i h₁ h₂
    simp [h₂]

/-- The type of a page below the root: INTERNAL above the leaves, DATA at the leaves. -/
def TypedByLevel (p : Pool) (id : PageId) : Prop :=
  (p.frame id).hdr.type = if (p.tree id).level = 0 then .btreeData else .btreeInternal

theorem TypedByLevel.is_btree {p : Pool} {id : PageId} (h : TypedByLevel p id) :
    kds_is_btree_page (p.frame id) = true := by
  unfold TypedByLevel at h
  unfold kds_is_btree_page
  split at h <;> simp [h]

section recursion

variable {St : Type} {p : Pool}

/-- A call on the pool `p₁` returns 0 with the context `ctx`, the pages as they
    are in `p` and all its pins given back. -/
def Reports (p : Pool) (run : Nat → Traversed St) (p₁ : Pool) (ctx : TraverseCtx St) : Prop :=
  ∃ p₂, Fuel.Settles run (.ok (0, ctx, p₂)) ∧ p.Same p₂ ∧ p₁.Pinned 0 p₂

/-- The traversal of the subtree at `c`, chosen by the type of the page. -/
def visitChild (fuel : Nat) (p : Pool) (c : PageId) (ctx : TraverseCtx St) : Traversed St :=
  if (p.frame c).hdr.type = .btreeInternal then traverse_internal fuel p (nodeCopy p c) c ctx
  else
    let (ret, ctx) := traverse_leaf (nodeCopy p c) c ctx
    some (.ok (ret, ctx, p))

theorem traverse_leaf_quiet {l : Nat} {id : PageId} {ctx : TraverseCtx St}
    (hok : NodeOk p.tree BTREE_MAX_KEYS l id) (h : ctx.callback.Quiet) :
    traverse_leaf (nodeCopy p id) id ctx = (0, ctx.after (visits p 0 id ctx.depth)) := by
  rw [traverse_leaf, TraverseCtx.call_quiet h]
  simp only [ne_eq, not_true_eq_false, if_false]
  rw [leafLoop_quiet, nodeCopy_count hok, visits, keyVisits, TraverseCtx.after_cons,
    TraverseCtx.reported_node]
  exact h

/-- One round of the loop over the children. -/
theorem childLoop_step {p₁ : Pool} {node : BtreeNode} {i : Nat} {is : List Nat} {c : PageId}
    {ctx out : TraverseCtx St} {vs : List NodeVisit} (hs : p.Same p₁) (hfail : p.NoFailure)
    (hslot : arrGet node.slots i = .ok c) (htype : kds_is_btree_page (p.frame c) = true)
    (hchild : ∀ q, p.Same q → Reports p (fun fuel => visitChild fuel q c ctx) q (ctx.after vs))
    (hrest : ∀ q, p.Same q →
      Reports p (fun fuel => childLoop (traverse_internal fuel) node is q (ctx.after vs)) q out) :
    Reports p (fun fuel => childLoop (traverse_internal fuel) node (i :: is) p₁ ctx) p₁ out := by
  obtain ⟨p₂, hload, hs₂⟩ := lookup_same (hs.noFailure hfail) c
  obtain ⟨-, hpin, hcached⟩ := (pinned_lookup hload).2 c rfl
  have hnode := @load_copy p₂ c (by rw [hs₂.typed, hs.typed]; exact htype)
  obtain ⟨p₃, hrun, hs₃, hp₃⟩ := hchild p₂ (hs.trans hs₂)
  -- the child's frame is still there when its pin is given back
  have hunpin := @pinned_unpin p₃ c (hp₃.keeps c hcached)
  obtain ⟨p₄, hrun', hs₄, hp₄⟩ := hrest (kds_buf_unpin p₃ c) (hs₃.trans (same_unpin p₃ c))
  let next : Nat → Int × TraverseCtx St × Pool → Traversed St := fun fuel x =>
    if x.1 ≠ 0 then some (.ok (x.1, x.2.1.up, kds_buf_unpin x.2.2 c))
    else childLoop (traverse_internal fuel) node is (kds_buf_unpin x.2.2 c) x.2.1
  have hround : ∀ fuel, childLoop (traverse_internal fuel) node (i :: is) p₁ ctx =
      Fuel.andThen (visitChild fuel p₂ c ctx) (next fuel) := by
    intro fuel
    rw [childLoop]
    simp only [hslot, hload, hnode]
    rfl
  have hnext : ∀ fuel, next fuel (0, ctx.after vs, p₃) =
      childLoop (traverse_internal fuel) node is (kds_buf_unpin p₃ c) (ctx.after vs) :=
    fun fuel => if_neg fun h => h rfl
  refine ⟨p₄, ?_, hs₄, ((hpin.still hp₃).cancel hunpin).still hp₄⟩
  rw [funext hround]
  refine hrun.andThen ?_
  rw [funext hnext]
  exact hrun'

/-- The loop over the children whose slots are numbered `is`. -/
theorem childLoop_reports {l : Nat} {node : BtreeNode} {slot : Nat → PageId} (is : List Nat)
    (hfail : p.NoFailure) (hslot : ∀ i ∈ is, arrGet node.slots i = .ok (slot i))
    (htype : ∀ i ∈ is, kds_is_btree_page (p.frame (slot i)) = true)
    (hchild : ∀ i ∈ is, ∀ (q : Pool) (ctx : TraverseCtx St), p.Same q → ctx.callback.Quiet →
      Reports p (fun fuel => visitChild fuel q (slot i) ctx) q
        (ctx.after (visits p l (slot i) ctx.depth))) :
    ∀ (p₁ : Pool) (ctx : TraverseCtx St), p.Same p₁ → ctx.callback.Quiet →
      Reports p (fun fuel => childLoop (traverse_internal fuel) node is p₁ ctx) p₁
        (ctx.after ((is.map slot).flatMap fun c => visits p l c ctx.depth)).up := by
  induction is with
  | nil =>
    intro p₁ ctx hs _
    exact ⟨p₁, Fuel.Settles.const _, hs, .refl p₁⟩
  | cons i is ih =>
    intro p₁ ctx hs hquiet
    rw [List.map_cons, List.flatMap_cons, TraverseCtx.after_append]
    refine childLoop_step hs hfail (hslot i List.mem_cons_self) (htype i List.mem_cons_self)
      (fun q hq => hchild i List.mem_cons_self q ctx hq hquiet) fun q hq => ?_
    -- the depth counter is the same for every child
    have hrest := ih (fun j hj => hslot j (List.mem_cons_of_mem _ hj))
      (fun j hj => htype j (List.mem_cons_of_mem _ hj))
      (fun j hj => hchild j (List.mem_cons_of_mem _ hj)) q
      (ctx.after (visits p l (slot i) ctx.depth)) hq
      (by rw [TraverseCtx.after_callback]; exact hquiet)
    rwa [TraverseCtx.depth_after] at hrest

/-- A node above the leaves, given what the traversal of its children does. -/
theorem traverse_internal_reports {l : Nat} {id : PageId} {p₁ : Pool} {ctx : TraverseCtx St}
    (hfail : p.NoFailure) (hok : NodeOk p.tree BTREE_MAX_KEYS (l + 1) id)
    (htype : ∀ c ∈ (p.tree id).slots, kds_is_btree_page (p.frame c) = true)
    (hchild : ∀ c ∈ (p.tree id).slots, ∀ (q : Pool) (ctx : TraverseCtx St), p.Same q →
      ctx.callback.Quiet →
        Reports p (fun fuel => visitChild fuel q c ctx) q (ctx.after (visits p l c ctx.depth)))
    (hs : p.Same p₁) (hquiet : ctx.callback.Quiet) :
    Reports p (fun fuel => traverse_internal fuel p₁ (nodeCopy p id) id ctx) p₁
      (ctx.after (visits p (l + 1) id ctx.depth)) := by
  have hslots := hok.slots_eq
  have hmem : ∀ i ∈ List.range ((nodeCopy p id).key_count.toNat + 1),
      i < (p.tree id).slots.length := by
    intro i hi
    rw [nodeCopy_count hok, List.mem_range] at hi
    omega
  have hget : ∀ i ∈ List.range ((nodeCopy p id).key_count.toNat + 1),
      (p.tree id).slots.getD i 0 ∈ (p.tree id).slots := by
    intro i hi
    rw [List.getD_eq_getElem _ _ (hmem i hi)]
    exact List.getElem_mem _
  have hround : ∀ fuel, traverse_internal (fuel + 1) p₁ (nodeCopy p id) id ctx =
      childLoop (traverse_internal fuel) (nodeCopy p id)
        (List.range ((nodeCopy p id).key_count.toNat + 1)) p₁
        (ctx.reported ⟨nodeCopy p id, id, ctx.depth, -1⟩).down := by
    intro fuel
    rw [traverse_internal, TraverseCtx.call_quiet hquiet, TraverseCtx.reported_node]
    exact if_neg fun h => h rfl
  have hlist : (List.range ((nodeCopy p id).key_count.toNat + 1)).map
      (fun i => (p.tree id).slots.getD i 0) = (p.tree id).slots := by
    rw [nodeCopy_count hok, ← hslots, map_getD_range]
  have hloop := @childLoop_reports St p l (nodeCopy p id) (fun i => (p.tree id).slots.getD i 0)
    (List.range ((nodeCopy p id).key_count.toNat + 1)) hfail
    (fun i hi => nodeCopy_slot hok (hmem i hi)) (fun i hi => htype _ (hget i hi))
    (fun i hi => hchild _ (hget i hi)) p₁ (ctx.reported ⟨nodeCopy p id, id, ctx.depth, -1⟩).down hs
    hquiet
  rw [hlist, TraverseCtx.up_after] at hloop
  obtain ⟨p₂, hrun, hs₂, hp₂⟩ := hloop
  rw [visits, TraverseCtx.after_cons]
  exact ⟨p₂, hrun.succ rfl hround, hs₂, hp₂⟩

/-- The subtree below a slot of the root, or of any node under it. -/
theorem visitChild_reports (hfail : p.NoFailure) (l : Nat) :
    ∀ c, Shape p.tree BTREE_MAX_KEYS l c → (∀ j ∈ pages p.tree l c, TypedByLevel p j) →
      ∀ (q : Pool) (ctx : TraverseCtx St), p.Same q → ctx.callback.Quiet →
        Reports p (fun fuel => visitChild fuel q c ctx) q (ctx.after (visits p l c ctx.depth)) := by
  induction l with
  | zero =>
    intro c hshape htyped q ctx hs hquiet
    have htype : (q.frame c).hdr.type = .btreeData := by
      have htop := htyped c (self_mem_pages _ _ _)
      unfold TypedByLevel at htop
      rwa [hs.frame, if_pos hshape.nodeOk.level] at *
    have hrun : ∀ fuel, visitChild fuel q c ctx =
        some (.ok (0, ctx.after (visits p 0 c ctx.depth), q)) := by
      intro fuel
      rw [visitChild, htype, if_neg (by decide), hs.nodeCopy,
        traverse_leaf_quiet hshape.nodeOk hquiet]
    rw [funext hrun]
    exact ⟨q, Fuel.Settles.const _, hs, .refl q⟩
  | succ l ih =>
    intro c hshape htyped q ctx hs hquiet
    have htype : (q.frame c).hdr.type = .btreeInternal := by
      have htop := htyped c (self_mem_pages _ _ _)
      have hlevel : (p.tree c).level ≠ 0 := by
        rw [hshape.nodeOk.level]
        exact Nat.succ_ne_zero l
      unfold TypedByLevel at htop
      rwa [hs.frame, if_neg hlevel] at *
    have hrun : ∀ fuel, visitChild fuel q c ctx = traverse_internal fuel q (nodeCopy p c) c ctx := by
      intro fuel
      rw [visitChild, htype, if_pos rfl, hs.nodeCopy]
    have hbelow : ∀ s ∈ (p.tree c).slots, ∀ j ∈ pages p.tree l s, TypedByLevel p j :=
      fun s hs' j hj => htyped j (pages_subset_of_slot hs' j hj)
    rw [funext hrun]
    exact traverse_internal_reports hfail hshape.nodeOk
      (fun s hs' => (hbelow s hs' s (self_mem_pages _ _ _)).is_btree)
      (fun s hs' => ih s (hshape.2 s hs') (hbelow s hs')) hs hquiet

end recursion

/-! ## Section 4: Completeness -/

/-- Every node once, a parent before its children and the children in order,
    with the number of levels above it as its depth; every key of the leaves
    once, in increasing order. -/
structure CompleteVisit (p : Pool) (l : Nat) (root : PageId) (vs : List NodeVisit) : Prop where
  nodes : (vs.filter fun v => v.key_idx = -1).map NodeVisit.frame = pages p.tree l root
  once : (pages p.tree l root).Nodup
  depth : ∀ v ∈ vs, v.depth + (p.tree v.frame).level = l
  node : ∀ v ∈ vs, v.node = nodeCopy p v.frame
  keys : (vs.filter fun v => v.key_idx ≠ -1).map (fun v => arrGet v.node.keys v.key_idx) =
    (keysAt p.tree l l root).map .ok
  increasing : (keysAt p.tree l l root).Pairwise (· < ·)

section visits

variable {p : Pool}

theorem keyVisits_idx {id : PageId} {d : Int} : ∀ v ∈ keyVisits p id d, v.key_idx ≠ -1 := by
  intro v hv
  obtain ⟨i, -, rfl⟩ := List.mem_map.mp hv
  show (i : Int) ≠ -1
  omega

/-- The reports of nodes among the reports of a subtree. -/
theorem visits_nodes (l : Nat) : ∀ (id : PageId) (d : Int),
    ((visits p l id d).filter fun v => v.key_idx = -1).map NodeVisit.frame = pages p.tree l id := by
  induction l with
  | zero =>
    intro id d
    have hkeys : (keyVisits p id d).filter (fun v => decide (v.key_idx = -1)) = [] := by
      rw [List.filter_eq_nil_iff]
      intro v hv
      simpa using keyVisits_idx v hv
    rw [visits, List.filter_cons_of_pos (by simp), hkeys, List.map_cons, List.map_nil, pages]
  | succ l ih =>
    intro id d
    rw [visits, List.filter_cons_of_pos (by simp), List.map_cons, List.filter_flatMap,
      List.map_flatMap, pages, List.flatMap_congr fun c _ => ih c (d + 1)]

theorem visits_depth (l : Nat) : ∀ (id : PageId) (d : Int), Shape p.tree BTREE_MAX_KEYS l id →
    ∀ v ∈ visits p l id d, v.depth + (p.tree v.frame).level = d + l ∧ v.node = nodeCopy p v.frame := by
  induction l with
  | zero =>
    intro id d hshape v hv
    rw [visits, keyVisits, List.mem_cons, List.mem_map] at hv
    rcases hv with rfl | ⟨i, -, rfl⟩
    · exact ⟨by simp [hshape.nodeOk.level], rfl⟩
    · exact ⟨by simp [hshape.nodeOk.level], rfl⟩
  | succ l ih =>
    intro id d hshape v hv
    rw [visits, List.mem_cons, List.mem_flatMap] at hv
    rcases hv with rfl | ⟨c, hc, hv⟩
    · exact ⟨by simp [hshape.nodeOk.level], rfl⟩
    · obtain ⟨hdepth, hnode⟩ := ih c (d + 1) (hshape.2 c hc) v hv
      refine ⟨?_, hnode⟩
      rw [hdepth]
      push_cast
      omega

/-- The key a report of a leaf names. -/
theorem nodeCopy_key {l i : Nat} {id : PageId} (hok : NodeOk p.tree BTREE_MAX_KEYS l id)
    (hi : i < (p.tree id).keys.length) :
    arrGet (nodeCopy p id).keys i = .ok (p.tree id).keys[i] := by
  have hle := key_count_le_of_nodeOk (nodeCopy_tree p id) hok
  obtain ⟨K₁, K₂, hsplit, rfl⟩ := exists_split_of_getElem? (List.getElem?_eq_getElem hi)
  exact (BtreePageData.keys_get hle hsplit).2

theorem visits_keys (l : Nat) : ∀ (id : PageId) (d : Int), Shape p.tree BTREE_MAX_KEYS l id →
    ((visits p l id d).filter fun v => v.key_idx ≠ -1).map
      (fun v => arrGet v.node.keys v.key_idx) = (keysAt p.tree l l id).map .ok := by
  induction l with
  | zero =>
    intro id d hshape
    have hall : (keyVisits p id d).filter (fun v => decide (v.key_idx ≠ -1)) = keyVisits p id d := by
      rw [List.filter_eq_self]
      intro v hv
      simpa using keyVisits_idx v hv
    rw [visits, List.filter_cons_of_neg (by simp), hall, keyVisits, List.map_map, keysAt]
    apply List.ext_getElem
    · simp
    · intro i h₁ h₂
      rw [List.length_map] at h₂
      simp only [List.getElem_map, List.getElem_range, Function.comp_apply]
      exact nodeCopy_key hshape.nodeOk h₂
  | succ l ih =>
    intro id d hshape
    rw [visits, List.filter_cons_of_neg (by simp), List.filter_flatMap, List.map_flatMap, keysAt,
      List.map_flatMap]
    exact List.flatMap_congr fun c hc => ih c (d + 1) (hshape.2 c hc)

theorem visits_complete {l : Nat} {root : PageId} (h : IsBtree p l root) :
    CompleteVisit p l root (visits p l root 0) where
  nodes := visits_nodes l root 0
  once := h.wellFormed.nodup
  depth := by
    intro v hv
    rw [(visits_depth l root 0 h.wellFormed.shape v hv).1, zero_add]
  node := fun v hv => (visits_depth l root 0 h.wellFormed.shape v hv).2
  keys := visits_keys l root 0 h.wellFormed.shape
  increasing := by
    have hsorted := (ordered_iff h.wellFormed.shape).mp h.wellFormed.ordered
    exact hsorted.sublist (keysAt_sublist_inorder l h.wellFormed.shape)

end visits

/-! ## Section 5: The whole traversal -/

/-- A B-tree whose root has type ROOT, or INTERNAL above the leaves, and whose
    other pages have type INTERNAL above the leaves and DATA at the leaves. -/
structure IsTypedBtree (p : Pool) (l : Nat) (root : PageId) : Prop where
  tree : IsBtree p l root
  top : (p.frame root).hdr.type = .btreeRoot ∨ ((p.frame root).hdr.type = .btreeInternal ∧ l ≠ 0)
  below : ∀ id ∈ pages p.tree l root, id ≠ root → TypedByLevel p id

/-- With a callback that always returns 0 the traversal returns 0, has called
    it for the whole tree, and has given back all its pins. -/
def TraversesAll (p : Pool) (l : Nat) (root : PageId) : Prop :=
  ∀ (St : Type) (callback : TraverseCb St) (priv : St), callback.Quiet → ∃ vs priv' p',
    Fuel.Settles (fun fuel => kds_btree_traverse fuel p (some root) (some callback) priv)
      (.ok (0, priv', p')) ∧
    CompleteVisit p l root vs ∧
    priv' = vs.foldl (fun s v => (callback v.node v.frame v.depth v.key_idx s).2) priv ∧
    p.Pinned 0 p'

section traverse

variable {p : Pool} {l : Nat} {root : PageId} {St : Type}

/-- The context `kds_btree_traverse` starts with. -/
def startCtx (callback : TraverseCb St) (priv : St) : TraverseCtx St :=
  { callback := callback, priv := priv, depth := 0, visited_nodes := 0, visited_keys := 0 }

theorem kds_btree_traverse_eq (htype : kds_is_btree_page (p.frame root) = true)
    (callback : TraverseCb St) (priv : St) (fuel : Nat) :
    kds_btree_traverse fuel p (some root) (some callback) priv =
      Fuel.andThen (visitChild fuel p root (startCtx callback priv))
        fun x => some (.ok (x.1, x.2.1.priv, x.2.2)) := by
  rw [kds_btree_traverse]
  simp only [load_copy htype]
  rfl

/-- What the traversal returns, from what it does at the root. -/
theorem traverse_settles {ctx : TraverseCtx St} {p' : Pool} {callback : TraverseCb St} {priv : St}
    (htype : kds_is_btree_page (p.frame root) = true)
    (h : Fuel.Settles (fun fuel => visitChild fuel p root (startCtx callback priv))
      (.ok (0, ctx, p'))) :
    Fuel.Settles (fun fuel => kds_btree_traverse fuel p (some root) (some callback) priv)
      (.ok (0, ctx.priv, p')) := by
  rw [funext (kds_btree_traverse_eq htype callback priv)]
  exact h.andThen (Fuel.Settles.const _)

/-- A root that is not INTERNAL is reported as a leaf. -/
theorem traverse_as_leaf (h : IsTypedBtree p l root) (hroot : (p.frame root).hdr.type ≠ .btreeInternal)
    {callback : TraverseCb St} (hquiet : callback.Quiet) (priv : St) :
    Fuel.Settles (fun fuel => kds_btree_traverse fuel p (some root) (some callback) priv)
      (.ok (0, ((startCtx callback priv).after (visits p 0 root 0)).priv, p)) := by
  refine traverse_settles (h.tree.typed root (self_mem_pages _ _ _)) ?_
  have hrun : ∀ fuel, visitChild fuel p root (startCtx callback priv) =
      some (.ok (0, (startCtx callback priv).after (visits p 0 root 0), p)) := by
    intro fuel
    rw [visitChild, if_neg hroot, traverse_leaf_quiet h.tree.wellFormed.shape.nodeOk hquiet]
    rfl
  rw [funext hrun]
  exact Fuel.Settles.const _

/-- A root that is INTERNAL is reported with everything below it. -/
theorem traverse_internal_root (h : IsTypedBtree p (l + 1) root) (hfail : p.NoFailure)
    (hroot : (p.frame root).hdr.type = .btreeInternal) {callback : TraverseCb St}
    (hquiet : callback.Quiet) (priv : St) :
    ∃ p', Fuel.Settles (fun fuel => kds_btree_traverse fuel p (some root) (some callback) priv)
      (.ok (0, ((startCtx callback priv).after (visits p (l + 1) root 0)).priv, p')) ∧
      p.Pinned 0 p' := by
  have hnodup := h.tree.wellFormed.nodup
  rw [pages, List.nodup_cons] at hnodup
  -- the root is not below itself
  have htyped : ∀ c ∈ (p.tree root).slots, ∀ j ∈ pages p.tree l c, TypedByLevel p j := by
    intro c hc j hj
    refine h.below j (pages_subset_of_slot hc j hj) ?_
    rintro rfl
    exact hnodup.1 (List.mem_flatMap.mpr ⟨c, hc, hj⟩)
  obtain ⟨p', hrun, -, hpins⟩ := @traverse_internal_reports St p l root p (startCtx callback priv)
    hfail h.tree.wellFormed.shape.nodeOk
    (fun c hc => (htyped c hc c (self_mem_pages _ _ _)).is_btree)
    (fun c hc => visitChild_reports hfail l c (h.tree.wellFormed.shape.2 c hc) (htyped c hc))
    (.refl p) hquiet
  refine ⟨p', traverse_settles (h.tree.typed root (self_mem_pages _ _ _)) ?_, hpins⟩
  have hvisit : ∀ fuel, visitChild fuel p root (startCtx callback priv) =
      traverse_internal fuel p (nodeCopy p root) root (startCtx callback priv) :=
    fun fuel => if_pos hroot
  rw [funext hvisit]
  exact hrun

/-- A callback that writes down every call. -/
def recordVisit : TraverseCb (List NodeVisit) := fun node frame depth key_idx vs =>
  (0, vs ++ [⟨node, frame, depth, key_idx⟩])

theorem recordVisit_quiet : recordVisit.Quiet := fun _ _ _ _ _ => rfl

theorem foldl_recordVisit (vs ws : List NodeVisit) :
    vs.foldl (fun s v => (recordVisit v.node v.frame v.depth v.key_idx s).2) ws = ws ++ vs := by
  induction vs generalizing ws with
  | nil => rw [List.foldl_nil, List.append_nil]
  | cons v vs ih =>
    rw [List.foldl_cons, ih]
    simp [recordVisit]

theorem after_recordVisit (vs : List NodeVisit) : ((startCtx recordVisit []).after vs).priv = vs := by
  rw [TraverseCtx.after_priv]
  exact (foldl_recordVisit vs []).trans (List.nil_append vs)

/-- A root of type ROOT above the leaves is all that is reported. -/
theorem not_traversesAll (h : IsTypedBtree p l root) (hl : l ≠ 0)
    (hroot : (p.frame root).hdr.type ≠ .btreeInternal) : ¬ TraversesAll p l root := by
  intro hall
  obtain ⟨l, rfl⟩ := Nat.exists_eq_succ_of_ne_zero hl
  obtain ⟨vs, priv', p', hrun, hcomplete, hpriv, -⟩ := hall _ recordVisit [] recordVisit_quiet
  rw [foldl_recordVisit, List.nil_append] at hpriv
  obtain ⟨fuel, hfuel⟩ := hrun.exists_eq
  have hresult := (traverse_as_leaf h hroot recordVisit_quiet []).only fuel _ hfuel
  rw [after_recordVisit] at hresult
  have hvs := (Prod.mk.inj (Prod.mk.inj (Except.ok.inj hresult)).2).1
  rw [hpriv] at hvs
  subst hvs
  -- but the root has a child, which the tree's nodes include
  have hnodes := hcomplete.nodes
  rw [visits_nodes, pages, pages, List.cons.injEq] at hnodes
  have hslots : (p.tree root).slots ≠ [] :=
    List.ne_nil_of_length_eq_add_one h.tree.wellFormed.shape.nodeOk.slots_eq
  obtain ⟨c, S, hc⟩ := List.exists_cons_of_ne_nil hslots
  have hempty := hnodes.2
  rw [hc, List.flatMap_cons] at hempty
  exact List.ne_nil_of_mem (List.mem_append_left _ (self_mem_pages _ _ _)) hempty.symm

/-- The traversal covers the tree exactly when the root is a leaf or its page
    has type INTERNAL: not for a root of type ROOT above the leaves. -/
theorem traverse_complete_iff (h : IsTypedBtree p l root) (hfail : p.NoFailure) :
    TraversesAll p l root ↔ l = 0 ∨ (p.frame root).hdr.type = .btreeInternal := by
  constructor
  · intro hall
    by_contra hcond
    rw [not_or] at hcond
    exact not_traversesAll h hcond.1 hcond.2 hall
  · intro hcond St callback priv hquiet
    have hcomplete := visits_complete h.tree
    by_cases hroot : (p.frame root).hdr.type = .btreeInternal
    · -- a root of type INTERNAL is above the leaves
      have hl : l ≠ 0 := by
        rcases h.top with hr | hr
        · rw [hroot] at hr
          cases hr
        · exact hr.2
      obtain ⟨l, rfl⟩ := Nat.exists_eq_succ_of_ne_zero hl
      obtain ⟨p', hrun, hpins⟩ := traverse_internal_root h hfail hroot hquiet priv
      exact ⟨_, _, p', hrun, hcomplete, TraverseCtx.after_priv _ _, hpins⟩
    · obtain rfl := hcond.resolve_right hroot
      exact ⟨_, _, p, traverse_as_leaf h hroot hquiet priv, hcomplete, TraverseCtx.after_priv _ _,
        .refl p⟩

end traverse

/-- The tree with the full leaf, its root page of the given type. -/
def fullLeafPool (type : PageType) : Pool :=
  { poolOf fullLeafTree with
    disk := fun id =>
      let f := (poolOf fullLeafTree).disk id
      if id = 200 then { f with hdr := { f.hdr with type := type } } else f }

theorem fullLeafPool_page (type : PageType) (id : PageId) :
    ((fullLeafPool type).frame id).page = ((poolOf fullLeafTree).frame id).page := by
  show (if id = 200 then _ else _ : Frame).page = _
  split <;> rfl

theorem fullLeafPool_tree (type : PageType) :
    (fullLeafPool type).tree = fun id => (fullLeafTree id).treeNode := by
  rw [← poolOf_tree]
  funext id
  unfold Pool.tree
  rw [fullLeafPool_page]

theorem fullLeafPool_typed {type : PageType} (h : type = .btreeRoot ∨ type = .btreeInternal) :
    IsTypedBtree (fullLeafPool type) 1 200 ∧ (fullLeafPool type).NoFailure := by
  obtain ⟨htree, hfail⟩ := fullLeafTree_isBtree
  have hother : ∀ id, id ≠ 200 → ((fullLeafPool type).frame id).hdr =
      ((poolOf fullLeafTree).frame id).hdr := by
    intro id hid
    show (if id = 200 then _ else _ : Frame).hdr = _
    rw [if_neg hid]
    rfl
  have hwf : WellFormed (fullLeafPool type).tree BTREE_MAX_KEYS 1 200 := by
    have hwf := htree.wellFormed
    rwa [poolOf_tree, ← fullLeafPool_tree type] at hwf
  refine ⟨⟨⟨hwf, fun id _ => ?_⟩, ?_, fun id _ hid => ?_⟩, hfail⟩
  · by_cases hid : id = 200
    · subst hid
      rcases h with rfl | rfl
      · rfl
      · rfl
    · have htyped := poolOf_typed fullLeafTree id
      unfold kds_is_btree_page at htyped ⊢
      rw [hother id hid]
      exact htyped
  · exact h.imp_right fun hi => ⟨hi, by decide⟩
  · unfold TypedByLevel
    rw [hother id hid, fullLeafPool_tree]
    show (if (fullLeafTree id).level = 0 then PageType.btreeData else PageType.btreeInternal) = _
    rw [BtreePageData.treeNode_level]
    congr 1
    rw [← UInt64.toNat_inj]
    rfl

/-- With a root of type INTERNAL the whole tree is reported. -/
theorem traverse_internal_root_complete : TraversesAll (fullLeafPool .btreeInternal) 1 200 :=
  (traverse_complete_iff (fullLeafPool_typed (Or.inr rfl)).1
    (fullLeafPool_typed (Or.inr rfl)).2).mpr (Or.inr rfl)

/-- With a root of type ROOT the traversal of the same tree returns 0 after the
    reports of the root and its one key; the two leaves are not reported. -/
theorem traverse_misses_leaves :
    (IsTypedBtree (fullLeafPool .btreeRoot) 1 200 ∧ (fullLeafPool .btreeRoot).NoFailure) ∧
    ((fullLeafPool .btreeRoot).frame 200).hdr.type = .btreeRoot ∧
    Fuel.Settles (fun fuel =>
        kds_btree_traverse fuel (fullLeafPool .btreeRoot) (some 200) (some recordVisit) [])
      (.ok (0, visits (fullLeafPool .btreeRoot) 0 200 0, fullLeafPool .btreeRoot)) ∧
    ¬ TraversesAll (fullLeafPool .btreeRoot) 1 200 := by
  obtain ⟨htree, hfail⟩ := @fullLeafPool_typed .btreeRoot (Or.inl rfl)
  have hroot : ((fullLeafPool .btreeRoot).frame 200).hdr.type = .btreeRoot := rfl
  have hne : ((fullLeafPool .btreeRoot).frame 200).hdr.type ≠ .btreeInternal := by
    rw [hroot]
    decide
  have hrun := traverse_as_leaf htree hne recordVisit_quiet []
  rw [after_recordVisit] at hrun
  exact ⟨⟨htree, hfail⟩, hroot, hrun, not_traversesAll htree (by decide) hne⟩

end Kds
