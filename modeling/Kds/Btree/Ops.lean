import Kds.Btree.Node

/-! # B-tree operations

    `btree.c`, the part that works on the buffer pool: the cursor that
    descends from the root and pins the path, insertion with node splits,
    deletion with borrowing, merging and root collapse; and the two entry
    points `relation.c` gives an index.

    A function returns the C return value (`.ok` for 0, `.error` for a
    negative errno) with the state, or a fault.
-/

open Bytes SearchTree

namespace Kds

/-! ## Section 1: The cursor -/

/-- `kds_btree_cursor_t`. -/
structure BtreeCursor where
  nodes : Vector BtreeNode 16
  positions : Vector Int 16
  depth : Nat

/-- A node as `memset` leaves it. -/
def zeroNode : BtreeNode where
  level := 0
  key_count := 0
  keys := Vector.replicate 4 0
  slots := Vector.replicate 5 0
  next := 0
  prev := 0
  frame := none

def btree_cursor_init : BtreeCursor where
  nodes := Vector.replicate 16 zeroNode
  positions := Vector.replicate 16 0
  depth := 0

/-- The body of `btree_cursor_cleanup` from index `i` on. -/
def cleanupFrom (nodes : Vector BtreeNode 16) (p : Pool) (i : Nat) :
    (count : Nat) → Except Fault (Vector BtreeNode 16 × Pool)
  | 0 => .ok (nodes, p)
  | n + 1 => do
      let node ← arrGet nodes i
      match node.frame with
      | none => cleanupFrom nodes p (i + 1) n
      | some frame =>
          let nodes ← arrSet nodes i { node with frame := none }
          cleanupFrom nodes (kds_buf_unpin p frame) (i + 1) n

/-- `btree_cursor_cleanup`: unpins `nodes[0..depth]`, both ends included. -/
def btree_cursor_cleanup (cursor : BtreeCursor) (p : Pool) : Except Fault (BtreeCursor × Pool) := do
  let (nodes, p) ← cleanupFrom cursor.nodes p 0 (cursor.depth + 1)
  .ok ({ cursor with nodes := nodes }, p)

/-- `pos < node->key_count && node->keys[pos] == key`. -/
def keyAt (node : BtreeNode) (pos : Int) (key : TupleId) : Except Fault Bool :=
  if toU64 pos < node.key_count.toNat then do
    let k ← arrGet node.keys pos
    .ok (k == key)
  else .ok false

/-- The descent loop: `fuel` levels are left before `BTREE_MAX_DEPTH`. -/
def searchLoop (p : Pool) (cursor : BtreeCursor) (current_page_id : PageId) (key : TupleId) :
    (fuel : Nat) → Except Fault (Except Errno Unit × BtreeCursor × Pool)
  | 0 => .ok (.error .E2BIG, cursor, p)
  | n + 1 =>
      match kds_buf_lookup_or_load p current_page_id with
      | (.error e, p) => .ok (.error e, cursor, p)
      | (.ok frame, p) => do
          let node ← load_btree_node p frame
          let nodes ← arrSet cursor.nodes cursor.depth node
          let pos ← btree_search_position node.toBtreePageData key
          let positions ← arrSet cursor.positions cursor.depth pos
          let cursor := { cursor with nodes := nodes, positions := positions }
          if ← keyAt node pos key then .ok (.error .EEXIST, cursor, p)
          else if node.level = 0 then .ok (.ok (), cursor, p)
          else
            let child ← arrGet node.slots pos
            searchLoop p { cursor with depth := cursor.depth + 1 } child key n

/-- `btree_cursor_search`: the pins stay with the cursor, whatever is returned. -/
def btree_cursor_search (p : Pool) (root_page_id : PageId) (key : TupleId) :
    Except Fault (Except Errno Unit × BtreeCursor × Pool) :=
  searchLoop p btree_cursor_init root_page_id key BTREE_MAX_DEPTH

/-- `kds_btree_cursor_search`: the same descent, with the cursor cleaned up on an error. -/
def kds_btree_cursor_search (p : Pool) (root_page_id : PageId) (key : TupleId) :
    Except Fault (Except Errno Unit × BtreeCursor × Pool) := do
  match ← searchLoop p btree_cursor_init root_page_id key BTREE_MAX_DEPTH with
  | (.ok (), cursor, p) => .ok (.ok (), cursor, p)
  | (.error e, cursor, p) =>
      let (cursor, p) ← btree_cursor_cleanup cursor p
      .ok (.error e, cursor, p)

/-! ## Section 2: Insertion -/

/-- `btree_alloc_new_page`. -/
def btree_alloc_new_page (p : Pool) (type : PageType) : Except Errno PageId × Pool :=
  let (new_id, superblock) := assign_page_id p.superblock
  let p := { p with superblock := superblock }
  if new_id = 0 then (.error .ENOMEM, p)
  else
    match kds_buf_alloc_new p new_id with
    | (.error e, p) => (.error e, p)
    | (.ok frame, p) =>
        let f := p.frame frame
        let p := p.setFrame frame
          { f with hdr := { f.hdr with type := type, flags := f.hdr.flags ||| KDS_PAGE_FLAG_INIT } }
        (.ok frame, kds_commit_page_hdr p frame)

/-- `kds_btree_split_result_t`. -/
structure SplitResult where
  promoted_key : TupleId
  right_page_id : PageId

/-- Points `prev` of the page behind a split or merged node at `prev_id`;
    a page that cannot be loaded is skipped with a warning. -/
def relinkNext (p : Pool) (next prev_id : PageId) : Except Fault Pool :=
  if next = 0 then .ok p
  else
    match kds_buf_lookup_or_load p next with
    | (.error _, p) => .ok p
    | (.ok next_frame, p) => do
        let next_node ← load_btree_node p next_frame
        let p ← store_btree_node p { next_node with prev := prev_id }
        .ok (kds_buf_unpin p next_frame)

/-- `btree_split_node`: the node as the caller's copy is left, and the result. -/
def btree_split_node (p : Pool) (node : BtreeNode) :
    Except Fault (Except Errno SplitResult × BtreeNode × Pool) := do
  let mid := BTREE_MAX_KEYS / 2
  match node.frame with
  | none => .error .nullPointer
  | some frame =>
      match btree_alloc_new_page p (p.frame frame).hdr.type with
      | (.error e, p) => .ok (.error e, node, p)
      | (.ok new_frame, p) => do
          let promoted_key ← arrGet node.keys mid
          let keys ← copyInto (Vector.replicate 4 0) 0 node.keys (mid + 1) (BTREE_MAX_KEYS - mid - 1)
          let slots ← copyInto (Vector.replicate 5 0) 0 node.slots (mid + 1) (BTREE_MAX_KEYS - mid - 1)
          let slots ← arrSet slots (BTREE_MAX_KEYS - mid - 1) (← arrGet node.slots BTREE_MAX_KEYS)
          let new_node : BtreeNode :=
            { level := node.level
              key_count := UInt64.ofNat (BTREE_MAX_KEYS - mid - 1)
              keys := keys
              slots := slots
              next := node.next
              prev := frame
              frame := some new_frame }
          let node := { node with key_count := UInt64.ofNat mid, next := new_frame }
          let p ← store_btree_node p node
          let p ← store_btree_node p new_node
          let p ← relinkNext p new_node.next new_frame
          let p := setPageDirty p frame
          let p := setPageDirty p new_frame
          .ok (.ok ⟨promoted_key, new_frame⟩, node, kds_buf_unpin p new_frame)

/-- The new-root branch of `btree_propagate_split`; it ends in a `panic`. -/
def growRoot (p : Pool) (cursor : BtreeCursor) (split_result : SplitResult) :
    Except Fault (Except Errno Unit × BtreeCursor × Pool) := do
  match btree_alloc_new_page p .btreeRoot with
  | (.error e, p) => .ok (.error e, cursor, p)
  | (.ok new_root_frame, p) => do
      let root ← arrGet cursor.nodes 0
      match root.frame with
      | none => .error .nullPointer
      | some frame =>
          let keys ← arrSet (Vector.replicate 4 0) 0 split_result.promoted_key
          let slots ← arrSet (Vector.replicate 5 0) 0 frame
          let slots ← arrSet slots 1 split_result.right_page_id
          let new_root : BtreeNode :=
            { level := root.level + 1
              key_count := 1
              keys := keys
              slots := slots
              next := 0
              prev := 0
              frame := some new_root_frame }
          let p := setPageType p frame .btreeInternal
          let _ ← store_btree_node (setPageDirty p frame) new_root
          -- nothing records the new root's page id: the code panics here
          .error .panic

/-- `btree_propagate_split`: `level` counts the ancestors that are left. -/
def btree_propagate_split (p : Pool) (cursor : BtreeCursor) (split_result : SplitResult) :
    (level : Nat) → Except Fault (Except Errno Unit × BtreeCursor × Pool)
  | 0 => growRoot p cursor split_result
  | level + 1 => do
      let parent ← arrGet cursor.nodes level
      let pos ← arrGet cursor.positions level
      let inserted ← btree_node_insert_at parent pos split_result.promoted_key
        split_result.right_page_id
      if parent.key_count.toNat < BTREE_MAX_KEYS then
        let nodes ← arrSet cursor.nodes level inserted
        let p ← store_btree_node p inserted
        .ok (.ok (), { cursor with nodes := nodes }, p)
      else
        match ← btree_split_node p inserted with
        | (.error _, parent, p) =>
            let nodes ← arrSet cursor.nodes level parent
            .ok (.error .ENOMEM, { cursor with nodes := nodes }, p)
        | (.ok new_split, parent, p) =>
            let nodes ← arrSet cursor.nodes level parent
            btree_propagate_split p { cursor with nodes := nodes } new_split level

/-- `kds_btree_cursor_insert`: on every path that returns, the cursor comes back cleaned up. -/
def kds_btree_cursor_insert (p : Pool) (cursor : BtreeCursor) (key : TupleId)
    (value_page_id : PageId) : Except Fault (Except Errno Unit × BtreeCursor × Pool) := do
  let leaf ← arrGet cursor.nodes cursor.depth
  let pos ← arrGet cursor.positions cursor.depth
  let inserted ← btree_node_insert_at leaf pos key value_page_id
  if leaf.key_count.toNat < BTREE_MAX_KEYS then
    let nodes ← arrSet cursor.nodes cursor.depth inserted
    let p ← store_btree_node p inserted
    let (cursor, p) ← btree_cursor_cleanup { cursor with nodes := nodes } p
    .ok (.ok (), cursor, p)
  else
    let (res, leaf, p) ← btree_split_node p inserted
    let nodes ← arrSet cursor.nodes cursor.depth leaf
    let cursor := { cursor with nodes := nodes }
    match res with
    | .error e =>
        let (cursor, p) ← btree_cursor_cleanup cursor p
        .ok (.error e, cursor, p)
    | .ok split_result =>
        let (ret, cursor, p) ← btree_propagate_split p cursor split_result cursor.depth
        let (cursor, p) ← btree_cursor_cleanup cursor p
        .ok (ret, cursor, p)

/-- `btree_insert`. -/
def btree_insert (p : Pool) (root_page_id : PageId) (key : TupleId) (value_page_id : PageId) :
    Except Fault (Except Errno Unit × Pool) := do
  match ← kds_btree_cursor_search p root_page_id key with
  | (.error e, _, p) => .ok (.error e, p)
  | (.ok (), cursor, p) =>
      let (ret, _, p) ← kds_btree_cursor_insert p cursor key value_page_id
      .ok (ret, p)

/-! ## Section 3: Deletion -/

/-- `kds_set_page_dirty(node->frame->kp)`. -/
def dirtyNode (p : Pool) (node : BtreeNode) : Except Fault Pool :=
  match node.frame with
  | none => .error .nullPointer
  | some frame => .ok (setPageDirty p frame)

/-- Stores three nodes and then marks them dirty, as both redistributions end. -/
def storeThree (p : Pool) (a b c : BtreeNode) : Except Fault Pool := do
  let p ← store_btree_node p a
  let p ← store_btree_node p b
  let p ← store_btree_node p c
  let p ← dirtyNode p a
  let p ← dirtyNode p b
  dirtyNode p c

/-- `btree_redistribute_from_left`: the caller's copies of parent and node, and the pool. -/
def btree_redistribute_from_left (p : Pool) (parent : BtreeNode) (sep_pos : Int)
    (left_node node : BtreeNode) : Except Fault (BtreeNode × BtreeNode × Pool) := do
  let (parent, left_node, node) ← redistributeLeft parent sep_pos left_node node
  let p ← storeThree p left_node node parent
  .ok (parent, node, p)

/-- `btree_redistribute_from_right`. -/
def btree_redistribute_from_right (p : Pool) (parent : BtreeNode) (sep_pos : Int)
    (node right_node : BtreeNode) : Except Fault (BtreeNode × BtreeNode × Pool) := do
  let (parent, node, right_node) ← redistributeRight parent sep_pos node right_node
  let p ← storeThree p node right_node parent
  .ok (parent, node, p)

/-- `btree_merge_nodes`: the parent, the left node with both contents, and the
    pool. Only leaves are linked to their neighbours. -/
def btree_merge_nodes (p : Pool) (parent : BtreeNode) (sep_pos : Int)
    (left_node right_node : BtreeNode) : Except Fault (BtreeNode × BtreeNode × Pool) := do
  let left_node ← mergeInto parent sep_pos left_node right_node
  let p ← if left_node.level = 0 then
      match left_node.frame with
      | none => .error .nullPointer
      | some frame => relinkNext p right_node.next frame
    else .ok p
  let parent ← btree_node_remove_at parent sep_pos
  let p ← store_btree_node p left_node
  let p ← store_btree_node p parent
  let p ← dirtyNode p left_node
  let p ← dirtyNode p parent
  .ok (parent, left_node, p)

/-- A sibling of the node, if there is one and it can be loaded. -/
def loadSibling (p : Pool) (present : Bool) (parent : BtreeNode) (idx : Int) :
    Except Fault (Option BtreeNode × Pool) :=
  if present then do
    let id ← arrGet parent.slots idx
    match kds_buf_lookup_or_load p id with
    | (.error _, p) => .ok (none, p)
    | (.ok frame, p) =>
        let node ← load_btree_node p frame
        .ok (some node, p)
  else .ok (none, p)

/-- `kds_buf_unpin(frame)` for a sibling that was loaded. -/
def unpinSibling (p : Pool) : Option BtreeNode → Pool
  | none => p
  | some node =>
      match node.frame with
      | none => p
      | some frame => kds_buf_unpin p frame

/-- `kds_free_page(node->frame)`. -/
def freeNode (p : Pool) (node : BtreeNode) : Except Fault Pool :=
  match node.frame with
  | none => .error .nullPointer
  | some frame => .ok (kds_free_page p frame)

/-- `btree_handle_underflow`: `level` is the index of the node to look at. -/
def btree_handle_underflow (p : Pool) (cursor : BtreeCursor) :
    (level : Nat) → Except Fault (BtreeCursor × Pool)
  | 0 => .ok (cursor, p)
  | level + 1 => do
      let node ← arrGet cursor.nodes ((level + 1 : Nat) : Int)
      if !btree_node_is_underflow node.toBtreePageData then .ok (cursor, p)
      else
        let parent ← arrGet cursor.nodes level
        let pos ← arrGet cursor.positions level
        let (left, p) ← loadSibling p (decide (pos > 0)) parent (pos - 1)
        match left.filter fun l => decide (l.key_count.toNat > BTREE_MIN_KEYS) with
        | some left_sibling =>
            let (parent, node, p) ← btree_redistribute_from_left p parent (pos - 1) left_sibling node
            let nodes ← arrSet cursor.nodes level parent
            let nodes ← arrSet nodes ((level + 1 : Nat) : Int) node
            .ok ({ cursor with nodes := nodes }, unpinSibling p left)
        | none =>
            let (right, p) ← loadSibling p (decide (toU64 pos < parent.key_count.toNat)) parent (pos + 1)
            match right.filter fun r => decide (r.key_count.toNat > BTREE_MIN_KEYS) with
            | some right_sibling =>
                let (parent, node, p) ← btree_redistribute_from_right p parent pos node right_sibling
                let nodes ← arrSet cursor.nodes level parent
                let nodes ← arrSet nodes ((level + 1 : Nat) : Int) node
                .ok ({ cursor with nodes := nodes }, unpinSibling (unpinSibling p left) right)
            | none =>
                match left, right with
                | some left_sibling, _ =>
                    let (parent, _, p) ← btree_merge_nodes p parent (pos - 1) left_sibling node
                    let p := unpinSibling (unpinSibling p left) right
                    let p ← freeNode p node
                    let nodes ← arrSet cursor.nodes level parent
                    btree_handle_underflow p { cursor with nodes := nodes } level
                | none, some right_sibling =>
                    let (parent, node, p) ← btree_merge_nodes p parent pos node right_sibling
                    let p := unpinSibling p right
                    let p ← freeNode p right_sibling
                    let nodes ← arrSet cursor.nodes level parent
                    let nodes ← arrSet nodes ((level + 1 : Nat) : Int) node
                    btree_handle_underflow p { cursor with nodes := nodes } level
                | none, none => btree_handle_underflow p cursor level

/-- The root collapse at the end of `btree_delete`. -/
def collapseRoot (p : Pool) (root : BtreeNode) : Except Fault (Except Errno Unit × Pool) :=
  if root.level ≠ 0 ∧ root.key_count = 0 then do
    let child_id ← arrGet root.slots 0
    match kds_buf_lookup_or_load p child_id with
    | (.error e, p) => .ok (.error e, p)
    | (.ok child_frame, p) =>
        let p := if (p.frame child_frame).hdr.type = .btreeInternal then
            setPageType p child_frame .btreeRoot
          else p
        let p := setPageDirty p child_frame
        let p := kds_commit_page_hdr p child_frame
        let p := kds_buf_unpin p child_frame
        let p ← freeNode p root
        .ok (.ok (), p)
  else .ok (.ok (), p)

/-- `btree_delete`. -/
def btree_delete (p : Pool) (root_page_id : PageId) (key : TupleId) :
    Except Fault (Except Errno Unit × Pool) := do
  match ← btree_cursor_search p root_page_id key with
  | (.ok (), cursor, p) =>
      let (_, p) ← btree_cursor_cleanup cursor p
      .ok (.error .ENOENT, p)
  | (.error .EEXIST, cursor, p) =>
      let leaf ← arrGet cursor.nodes cursor.depth
      let pos ← arrGet cursor.positions cursor.depth
      let leaf ← btree_node_remove_at leaf pos
      let nodes ← arrSet cursor.nodes cursor.depth leaf
      let cursor := { cursor with nodes := nodes }
      let p ← store_btree_node p leaf
      let p ← dirtyNode p leaf
      let (cursor, p) ←
        if cursor.depth > 0 ∧ btree_node_is_underflow leaf.toBtreePageData then
          btree_handle_underflow p cursor cursor.depth
        else .ok (cursor, p)
      let root ← arrGet cursor.nodes 0
      let (ret, p) ← collapseRoot p root
      let (_, p) ← btree_cursor_cleanup cursor p
      .ok (ret, p)
  | (.error e, cursor, p) =>
      let (_, p) ← btree_cursor_cleanup cursor p
      .ok (.error e, p)

/-! ## Section 4: Indexes -/

/-- `kds_clustered_type_t`. -/
inductive ClusteredType where
  | heap
  | btree
  deriving DecidableEq, Repr

/-- The part of `kds_relation_t` an index uses. -/
structure Relation where
  root_page_id : PageId
  kind : ClusteredType
  deriving DecidableEq, Repr

def kds_index_insert (p : Pool) (index_rel : Relation) (key : TupleId) (value_page_id : PageId) :
    Except Fault (Except Errno Unit × Pool) :=
  if index_rel.kind ≠ .btree then .ok (.error .EINVAL, p)
  else btree_insert p index_rel.root_page_id key value_page_id

/-- `for (i = 0; i < node.key_count; i++) if (node.keys[i] == key) { match_pos = i; break; }` -/
def matchFrom (keys : Vector TupleId 4) (key : TupleId) (i : Nat) :
    (count : Nat) → Except Fault (Option Nat)
  | 0 => .ok none
  | n + 1 => do
      let k ← arrGet keys i
      if k = key then .ok (some i) else matchFrom keys key (i + 1) n

/-- The descent position loop of `kds_index_search`: `desc_pos` starts as `(int)key_count`. -/
def descendFrom {m : Nat} (keys : Vector TupleId m) (key : TupleId) (desc_pos : Int) (i : Nat) :
    (count : Nat) → Except Fault Int
  | 0 => .ok desc_pos
  | n + 1 => do
      let k ← arrGet keys i
      if key ≤ k then .ok i else descendFrom keys key desc_pos (i + 1) n

/-- The loop of `kds_index_search`; the result is the value read off the leaf. -/
def indexSearchLoop (p : Pool) (current_id : PageId) (key : TupleId) :
    (fuel : Nat) → Except Fault (Except Errno PageId × Pool)
  | 0 => .ok (.error .E2BIG, p)
  | n + 1 =>
      match kds_buf_lookup_or_load p current_id with
      | (.error e, p) => .ok (.error e, p)
      | (.ok frame, p) => do
          let node ← load_btree_node p frame
          let match_pos ← matchFrom node.keys key 0 node.key_count.toNat
          if node.level = 0 then
            match match_pos with
            | none => .ok (.error .ENOENT, kds_buf_unpin p frame)
            | some i =>
                let value ← arrGet node.slots i
                .ok (.ok value, kds_buf_unpin p frame)
          else
            let desc_pos ← descendFrom node.keys key (toInt node.key_count) 0 node.key_count.toNat
            let child ← arrGet node.slots desc_pos
            indexSearchLoop (kds_buf_unpin p frame) child key n

def kds_index_search (p : Pool) (index_rel : Relation) (key : TupleId) :
    Except Fault (Except Errno PageId × Pool) :=
  if index_rel.kind ≠ .btree then .ok (.error .EINVAL, p)
  else indexSearchLoop p index_rel.root_page_id key BTREE_MAX_DEPTH

end Kds
