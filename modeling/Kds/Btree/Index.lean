import Kds.Btree.Insert

/-! # The index map

    `kds_index_insert` and `kds_index_search` on an index whose root was just
    created. As long as inserts return 0 the index is one leaf: a fifth key
    has no room. The leaf keeps its entries in key order with the value of an
    entry one slot behind it, and the search reads the slot before.
-/

open Bytes SearchTree

namespace Kds

/-! ## Section 1: Looking a key up in a leaf -/

theorem matchFrom_spec (keys : Vector TupleId 4) (key : TupleId) {n : Nat} (hn : n ≤ 4)
    (count : Nat) : ∀ i, i + count = n →
    matchFrom keys key i count =
      .ok ((((keys.toList.take n).drop i).findIdx? (· == key)).map (i + ·)) := by
  induction count with
  | zero =>
    intro i hi
    rw [List.drop_eq_nil_of_le (by simp; omega)]
    rfl
  | succ count ih =>
    intro i hi
    have hlt : i < (keys.toList.take n).length := by simp; omega
    have hget : (keys.toList.take n)[i] = keys[i] := by simp
    rw [matchFrom, arrGet_nat keys (show i < 4 by omega), List.drop_eq_getElem_cons hlt,
      List.findIdx?_cons, hget]
    show (if keys[i] = key then _ else _) = _
    by_cases hk : keys[i] = key
    · simp [hk]
    · rw [if_neg hk, ih (i + 1) (by omega)]
      simp only [beq_eq_false_iff_ne.mpr hk, Bool.false_eq_true, if_false, Option.map_map]
      congr 2
      funext j
      simp only [Function.comp_apply]
      omega

/-- The descent position loop is the loop of `btree_search_position`. -/
theorem descendFrom_eq {m : Nat} (keys : Vector TupleId m) (key : TupleId) (nkeys : Nat) (count : Nat) :
    ∀ i, descendFrom keys key nkeys i count = searchFrom keys key nkeys i count := by
  induction count with
  | zero => exact fun i => rfl
  | succ count ih =>
    intro i
    rw [descendFrom, searchFrom]
    simp only [ih]

/-- One level of the search: a leaf gives the result, any other node the child. -/
theorem indexSearchLoop_step {p : Pool} {id : PageId} {l : Nat} (key : TupleId) (hfail : p.NoFailure)
    (htype : kds_is_btree_page (p.frame id) = true) (hok : NodeOk p.tree BTREE_MAX_KEYS l id)
    (fuel : Nat) :
    ∃ p', p.Same p' ∧
      (l = 0 → (p.tree id).keys.findIdx? (· == key) = none →
        indexSearchLoop p id key (fuel + 1) = .ok (.error .ENOENT, p')) ∧
      (∀ i, l = 0 → (p.tree id).keys.findIdx? (· == key) = some i →
        indexSearchLoop p id key (fuel + 1) = .ok (.ok ((p.tree id).slots.getD i 0), p')) ∧
      (∀ s, l ≠ 0 → (p.tree id).slots[position key (p.tree id).keys]? = some s →
        indexSearchLoop p id key (fuel + 1) = indexSearchLoop p' s key fuel) := by
  obtain ⟨p₁, hload, hsm⟩ := lookup_same hfail id
  obtain ⟨node, hnode, -, hnt⟩ := load_btree_node_ok p₁ id (by rw [hsm.typed]; exact htype)
  rw [hsm.tree] at hnt
  have hle := key_count_le_of_nodeOk hnt hok
  have hkeys : node.keys.toList.take node.key_count.toNat = (p.tree id).keys := by
    rw [← hnt, BtreePageData.treeNode_of_le hle]
  have hlevel : node.level = 0 ↔ l = 0 := by
    have h := BtreePageData.treeNode_level node.toBtreePageData
    rw [hnt, hok.level] at h
    rw [h, ← UInt64.toNat_inj]
    rfl
  -- both scans of the keys: for the key itself, and for the child to go on with
  have hmatch := matchFrom_spec node.keys key hle node.key_count.toNat 0 (by omega)
  have hdesc := @searchFrom_spec _ node.keys key _ hle node.key_count.toNat 0 (by omega)
  rw [List.drop_zero, hkeys] at hmatch hdesc
  have hslot : ∀ {i s}, (p.tree id).slots[i]? = some s → arrGet node.slots (i : Nat) = .ok s := by
    intro i s hs
    obtain ⟨S₁, S₂, hsplit, rfl⟩ := exists_split_of_getElem? hs
    exact (BtreePageData.slots_get hle (hnt ▸ hsplit)).2
  refine ⟨kds_buf_unpin p₁ id, hsm.trans (same_unpin p₁ id), fun hl hi => ?_, fun i hl hi => ?_,
    fun s hl hs => ?_⟩
  · rw [hi] at hmatch
    rw [indexSearchLoop, hload]
    simp only [hnode, hmatch, if_pos (hlevel.mpr hl), bind, Except.bind, Option.map_none]
  · -- a leaf has a slot for each of its keys
    obtain ⟨s, hs⟩ : ∃ s, (p.tree id).slots[i]? = some s := by
      have := (List.findIdx?_eq_some_iff_getElem.mp hi).1
      have := hok.slots_eq
      exact ⟨_, List.getElem?_eq_getElem (by omega)⟩
    rw [hi] at hmatch
    rw [indexSearchLoop, hload]
    simp only [hnode, hmatch, if_pos (hlevel.mpr hl), bind, Except.bind, Option.map_some,
      Nat.zero_add, hslot hs, List.getD_eq_getElem?_getD, hs, Option.getD_some]
  · rw [indexSearchLoop, hload]
    simp only [hnode, hmatch, if_neg fun h => hl (hlevel.mp h), bind, Except.bind]
    rw [toInt_of_lt (by omega), descendFrom_eq, hdesc, Nat.zero_add]
    simp only [hslot hs]

/-- The search of an index that is one leaf. -/
theorem kds_index_search_leaf {p : Pool} {rel : Relation} (key : TupleId)
    (hkind : rel.kind = .btree) (hfail : p.NoFailure)
    (htype : kds_is_btree_page (p.frame rel.root_page_id) = true)
    (hok : NodeOk p.tree BTREE_MAX_KEYS 0 rel.root_page_id) :
    ∃ p', kds_index_search p rel key =
      .ok (match (p.tree rel.root_page_id).keys.findIdx? (· == key) with
        | none => .error .ENOENT
        | some i => .ok ((p.tree rel.root_page_id).slots.getD i 0), p') := by
  obtain ⟨p', -, habsent, hfound, -⟩ := indexSearchLoop_step key hfail htype hok 15
  refine ⟨p', ?_⟩
  rw [kds_index_search, if_neg (by rw [hkind]; simp)]
  cases hi : (p.tree rel.root_page_id).keys.findIdx? (· == key) with
  | none => exact habsent rfl hi
  | some i => exact hfound i rfl hi

/-! ## Section 2: The entries of the index -/

/-- The root page of an index that `kds_relation_create_index` has just made
    of a new page. -/
def FreshIndex (p : Pool) (rel : Relation) : Prop :=
  rel.kind = .btree ∧ ∃ f flags, f.page = (newFrame rel.root_page_id flags).page ∧
    p.frame rel.root_page_id = btree_init_root_kpage f

/-- Calls of `kds_index_insert`, one after the other, that all return 0. -/
inductive InsertedAll (rel : Relation) : Pool → List (TupleId × PageId) → Pool → Prop where
  | nil {p : Pool} : InsertedAll rel p [] p
  | snoc {p p' p'' : Pool} {kvs : List (TupleId × PageId)} {key : TupleId} {value : PageId} :
      InsertedAll rel p kvs p' → kds_index_insert p' rel key value = .ok (.ok (), p'') →
      InsertedAll rel p (kvs ++ [(key, value)]) p''

/-- The index is a map: every inserted key gives its value, any other is not found. -/
def IsIndexMap (p : Pool) (rel : Relation) (kvs : List (TupleId × PageId)) : Prop :=
  (∀ kv ∈ kvs, ∃ p', kds_index_search p rel kv.1 = .ok (.ok kv.2, p')) ∧
    ∀ key, key ∉ kvs.map Prod.fst → ∃ p', kds_index_search p rel key = .ok (.error .ENOENT, p')

/-- The index is one leaf with the entries `es`, in key order: the value of
    an entry is one slot behind its key, and slot 0 was never written. -/
structure IndexLeaf (p : Pool) (rel : Relation) (es : List (TupleId × PageId)) : Prop where
  kind : rel.kind = .btree
  noFailure : p.NoFailure
  typed : kds_is_btree_page (p.frame rel.root_page_id) = true
  node : p.tree rel.root_page_id = ⟨0, es.map Prod.fst, 0 :: es.map Prod.snd⟩
  sorted : (es.map Prod.fst).Pairwise (· < ·)
  length_le : es.length ≤ BTREE_MAX_KEYS

theorem IndexLeaf.nodeOk {p : Pool} {rel : Relation} {es : List (TupleId × PageId)}
    (h : IndexLeaf p rel es) : NodeOk p.tree BTREE_MAX_KEYS 0 rel.root_page_id := by
  refine ⟨?_, ?_, ?_⟩ <;> rw [h.node]
  · simpa using h.length_le
  · simp

theorem IndexLeaf.isBtree {p : Pool} {rel : Relation} {es : List (TupleId × PageId)}
    (h : IndexLeaf p rel es) : IsBtree p 0 rel.root_page_id := by
  refine ⟨wellFormed_iff.mpr ⟨h.nodeOk, ?_, List.nodup_singleton _⟩, ?_⟩
  · show (p.tree rel.root_page_id).keys.Pairwise (· < ·)
    rw [h.node]
    exact h.sorted
  · intro id hid
    obtain rfl : id = rel.root_page_id := by simpa [pages] using hid
    exact h.typed

/-- The root page of a fresh index is an empty leaf. -/
theorem FreshIndex.root {p : Pool} {rel : Relation} (h : FreshIndex p rel) :
    kds_is_btree_page (p.frame rel.root_page_id) = true ∧ p.tree rel.root_page_id = emptyNode := by
  obtain ⟨-, f, flags, hpage, hframe⟩ := h
  constructor
  · rw [hframe]
    simp [kds_is_btree_page, btree_init_root_kpage]
  · show (btreeData (p.frame rel.root_page_id).page).treeNode = _
    rw [hframe]
    show (btreeData f.page).treeNode = _
    rw [hpage]
    show (btreeData (Mem.write _ 0 _)).treeNode = _
    rw [btreeData_write_hdr _ (PageHdr.length_bytes _), treeNode_zero_page]

theorem FreshIndex.indexLeaf {p : Pool} {rel : Relation} (h : FreshIndex p rel)
    (hfail : p.NoFailure) : IndexLeaf p rel [] :=
  ⟨h.1, hfail, h.root.1, h.root.2, List.Pairwise.nil, Nat.zero_le _⟩

/-- An insert of a new key into a leaf with room. -/
theorem IndexLeaf.insert_ok {p : Pool} {rel : Relation} {es : List (TupleId × PageId)}
    (key : TupleId) (value : PageId) (h : IndexLeaf p rel es) (hkey : key ∉ es.map Prod.fst)
    (hroom : es.length < 4) :
    ∃ p' es', kds_index_insert p rel key value = .ok (.ok (), p') ∧ IndexLeaf p' rel es' ∧
      es'.Perm ((key, value) :: es) := by
  have hend : searchEnd p.tree key 0 rel.root_page_id = rel.root_page_id := rfl
  have hin : inorder p.tree 0 rel.root_page_id = es.map Prod.fst := by
    rw [inorder, h.node]
  obtain ⟨cursor, p₁, c, hsearch, hbec, hdepth, hat, _, _, hshape, _, hnot⟩ :=
    kds_btree_cursor_search_new h.isBtree h.noFailure (by decide) (by rw [hin]; exact hkey)
  rw [hend] at hat hshape
  obtain ⟨_, p₂, hrun, hbec'⟩ := kds_btree_cursor_insert_room value hbec.tree hat hdepth
    (by rw [hbec.typed]; exact h.typed) hshape.nodeOk (by rw [h.node]; simpa using hroom)
  have hnew : p₂.tree rel.root_page_id = (p.tree rel.root_page_id).insertAt
      (position key (es.map Prod.fst)) key value := by
    rw [hbec'.tree, Function.update_self, h.node]
  set i := position key (es.map Prod.fst) with hi
  refine ⟨p₂, es.take i ++ (key, value) :: es.drop i, ?_, ⟨h.kind, ?_, ?_, ?_, ?_, ?_⟩, ?_⟩
  · rw [kds_index_insert, if_neg (by rw [h.kind]; simp)]
    simp only [btree_insert, hsearch, bind, Except.bind, hrun]
  · exact hbec'.noFailure (hbec.noFailure h.noFailure)
  · rw [hbec'.typed, hbec.typed]
    exact h.typed
  · rw [hnew, h.node]
    simp [Node.insertAt]
  · have hsorted : ([] ++ ((es.map Prod.fst).take i ++ (es.map Prod.fst).drop i) ++ []).Pairwise
        (· < ·) := by
      simpa using h.sorted
    have hins := pairwise_insert hsorted (by simp) lt_of_mem_take_position
      (fun b hb => lt_of_le_of_ne (le_of_mem_drop_position (h.sorted.imp le_of_lt) b hb) fun he =>
        hkey (he ▸ List.mem_of_mem_drop hb)) (by simp)
    simpa using hins
  · show _ ≤ 4
    simp
    omega
  · have hperm : (es.take i ++ (key, value) :: es.drop i).Perm
        ((key, value) :: (es.take i ++ es.drop i)) := List.perm_middle
    rwa [List.take_append_drop] at hperm

/-- An insert that returns 0 adds its entry. -/
theorem IndexLeaf.insert {p p' : Pool} {rel : Relation} {es : List (TupleId × PageId)}
    {key : TupleId} {value : PageId} (h : IndexLeaf p rel es)
    (hins : kds_index_insert p rel key value = .ok (.ok (), p')) :
    ∃ es', IndexLeaf p' rel es' ∧ es'.Perm ((key, value) :: es) := by
  have hin : inorder p.tree 0 rel.root_page_id = es.map Prod.fst := by
    rw [inorder, h.node]
  have hbody : kds_index_insert p rel key value = btree_insert p rel.root_page_id key value := by
    rw [kds_index_insert, if_neg (by rw [h.kind]; simp)]
  -- the key is new: otherwise the search returns -EEXIST
  have hkey : key ∉ es.map Prod.fst := by
    intro hmem
    obtain ⟨cursor, p₁, hsearch, _⟩ :=
      kds_btree_cursor_search_found h.isBtree h.noFailure (by decide) (by rw [hin]; exact hmem)
    simp [hbody, btree_insert, hsearch, bind, Except.bind] at hins
  -- and the leaf has room: otherwise the insert does not return
  have hroom : es.length < 4 := by
    by_contra hfull
    obtain ⟨cursor, p₁, c, hsearch, _, _, hat, _, _, hshape, _, _⟩ :=
      kds_btree_cursor_search_new h.isBtree h.noFailure (by decide) (by rw [hin]; exact hkey)
    have hfault := kds_btree_cursor_insert_full (p := p₁) value hat hshape.nodeOk
      (by rw [show searchEnd p.tree key 0 rel.root_page_id = rel.root_page_id from rfl, h.node]
          simpa using hfull)
    simp [hbody, btree_insert, hsearch, bind, Except.bind, hfault] at hins
  obtain ⟨p₂, es', hrun, hleaf, hperm⟩ := h.insert_ok key value hkey hroom
  rw [hrun] at hins
  simp only [Except.ok.injEq, Prod.mk.injEq, true_and] at hins
  exact ⟨es', hins ▸ hleaf, hperm⟩

/-- Inserts that return 0 leave one leaf with their entries. -/
theorem indexLeaf_of_insertedAll {p p' : Pool} {rel : Relation} {kvs : List (TupleId × PageId)}
    (hfresh : FreshIndex p rel) (hfail : p.NoFailure) (h : InsertedAll rel p kvs p') :
    ∃ es, IndexLeaf p' rel es ∧ es.Perm kvs := by
  induction h with
  | nil => exact ⟨[], hfresh.indexLeaf hfail, List.Perm.nil⟩
  | snoc _ hins ih =>
    obtain ⟨es, hleaf, hperm⟩ := ih
    obtain ⟨es', hleaf', hperm'⟩ := hleaf.insert hins
    refine ⟨es', hleaf', hperm'.trans ?_⟩
    exact (hperm.cons _).trans (List.perm_append_singleton _ _).symm

/-- What the search returns: for the entry at position `i`, the value of the
    entry before it. -/
theorem IndexLeaf.search {p : Pool} {rel : Relation} {es : List (TupleId × PageId)}
    (h : IndexLeaf p rel es) {i : Nat} {kv : TupleId × PageId} (hi : es[i]? = some kv) :
    ∃ p', kds_index_search p rel kv.1 = .ok (.ok ((0 :: es.map Prod.snd).getD i 0), p') := by
  obtain ⟨p', hrun⟩ := kds_index_search_leaf kv.1 h.kind h.noFailure h.typed h.nodeOk
  have hidx : (es.map Prod.fst).findIdx? (· == kv.1) = some i := by
    obtain ⟨hlt, hget⟩ := List.getElem?_eq_some_iff.mp hi
    rw [List.findIdx?_eq_some_iff_getElem]
    refine ⟨by simpa using hlt, by simp [hget], fun j hj => ?_⟩
    have hne := List.pairwise_iff_getElem.mp h.sorted j i (by simp; omega) (by simpa using hlt) hj
    simp only [List.getElem_map, hget] at hne ⊢
    simpa using ne_of_lt hne
  rw [h.node] at hrun
  simp only [hidx] at hrun
  exact ⟨p', hrun⟩

theorem IndexLeaf.search_enoent {p : Pool} {rel : Relation} {es : List (TupleId × PageId)}
    (h : IndexLeaf p rel es) {key : TupleId} (hkey : key ∉ es.map Prod.fst) :
    ∃ p', kds_index_search p rel key = .ok (.error .ENOENT, p') := by
  obtain ⟨p', hrun⟩ := kds_index_search_leaf key h.kind h.noFailure h.typed h.nodeOk
  have hidx : (es.map Prod.fst).findIdx? (· == key) = none := by
    rw [List.findIdx?_eq_none_iff]
    intro k hk
    simp only [beq_eq_false_iff_ne, ne_eq]
    rintro rfl
    exact hkey hk
  rw [h.node] at hrun
  simp only [hidx] at hrun
  exact ⟨p', hrun⟩

/-- A list that equals itself shifted by one behind a 0 is all 0. -/
theorem eq_zero_of_shift (vs : List PageId) (h : ∀ i < vs.length, (0 :: vs).getD i 0 = vs.getD i 0) :
    ∀ v ∈ vs, v = 0 := by
  have hall : ∀ i < vs.length, vs.getD i 0 = 0 := by
    intro i
    induction i with
    | zero => intro hi; rw [← h 0 hi]; rfl
    | succ i ih => intro hi; rw [← h (i + 1) hi, List.getD_cons_succ, ih (by omega)]
  intro v hv
  obtain ⟨i, hi, rfl⟩ := List.mem_iff_getElem.mp hv
  have := hall i hi
  rwa [List.getD_eq_getElem?_getD, List.getElem?_eq_getElem hi, Option.getD_some] at this

/-- A leaf is the map of its entries exactly when every value is 0. -/
theorem IndexLeaf.isIndexMap_iff {p : Pool} {rel : Relation} {es kvs : List (TupleId × PageId)}
    (h : IndexLeaf p rel es) (hperm : es.Perm kvs) :
    IsIndexMap p rel kvs ↔ ∀ kv ∈ kvs, kv.2 = 0 := by
  have hkeys : ∀ key, key ∉ kvs.map Prod.fst ↔ key ∉ es.map Prod.fst :=
    fun key => not_congr (hperm.map Prod.fst).mem_iff.symm
  constructor
  · rintro ⟨hvalues, _⟩ kv hkv
    refine eq_zero_of_shift (es.map Prod.snd) ?_ kv.2
      (List.mem_map_of_mem (hperm.mem_iff.mpr hkv))
    intro i hi
    rw [List.length_map] at hi
    have hget := List.getElem?_eq_getElem hi
    obtain ⟨p₁, h₁⟩ := h.search hget
    obtain ⟨p₂, h₂⟩ := hvalues _ (hperm.mem_iff.mp (List.getElem_mem hi))
    rw [h₁] at h₂
    simp only [Except.ok.injEq, Prod.mk.injEq] at h₂
    rw [h₂.1, List.getD_eq_getElem?_getD, List.getElem?_map, hget]
    rfl
  · intro hzero
    have hz : ∀ v ∈ es.map Prod.snd, v = 0 := by
      intro v hv
      obtain ⟨kv, hkv, rfl⟩ := List.mem_map.mp hv
      exact hzero kv (hperm.mem_iff.mp hkv)
    refine ⟨fun kv hkv => ?_, fun key hkey => h.search_enoent ((hkeys key).mp hkey)⟩
    obtain ⟨i, hi, hget⟩ := List.mem_iff_getElem.mp (hperm.mem_iff.mpr hkv)
    obtain ⟨p₁, h₁⟩ := h.search (show es[i]? = some kv by rw [List.getElem?_eq_getElem hi, hget])
    refine ⟨p₁, ?_⟩
    have hslot : (0 :: es.map Prod.snd).getD i 0 = 0 := by
      cases i with
      | zero => rfl
      | succ i =>
        rw [List.getD_cons_succ, List.getD_eq_getElem?_getD,
          List.getElem?_eq_getElem (by simp; omega), Option.getD_some]
        exact hz _ (List.getElem_mem _)
    rw [h₁, hslot, hzero kv hkv]

/-- **Index map law**: after inserts that return 0 into a fresh index, the
    index is the map of what was inserted exactly when every value is 0. -/
theorem index_map_iff_values_zero (p p' : Pool) (rel : Relation) (kvs : List (TupleId × PageId))
    (hfresh : FreshIndex p rel) (hfail : p.NoFailure) (h : InsertedAll rel p kvs p') :
    IsIndexMap p' rel kvs ↔ ∀ kv ∈ kvs, kv.2 = 0 := by
  obtain ⟨es, hleaf, hperm⟩ := indexLeaf_of_insertedAll hfresh hfail h
  exact hleaf.isIndexMap_iff hperm

/-- An index on page 200 that has just been created. -/
def newIndex : Relation := ⟨200, .btree⟩

def newIndexPool : Pool where
  superblock := none
  cached := fun id =>
    if id = 200 then some (btree_init_root_kpage (newFrame 200 KDS_PAGE_FLAG_ALLOC)) else none
  refcnt := fun _ => 0
  disk := fun id => newFrame id KDS_PAGE_FLAG_ALLOC
  fail := fun _ => none

theorem newIndex_fresh : FreshIndex newIndexPool newIndex ∧ newIndexPool.NoFailure :=
  ⟨⟨rfl, newFrame 200 KDS_PAGE_FLAG_ALLOC, KDS_PAGE_FLAG_ALLOC, rfl, rfl⟩, fun _ => rfl⟩

/-- Up to four keys can be inserted into a fresh index, in any order. -/
theorem exists_insertedAll {p : Pool} {rel : Relation} (hfresh : FreshIndex p rel)
    (hfail : p.NoFailure) (kvs : List (TupleId × PageId)) :
    (kvs.map Prod.fst).Nodup → kvs.length ≤ 4 → ∃ p', InsertedAll rel p kvs p' := by
  induction kvs using List.reverseRecOn with
  | nil => exact fun _ _ => ⟨p, .nil⟩
  | append_singleton kvs kv ih =>
    intro hnodup hlen
    rw [List.map_append, List.nodup_append] at hnodup
    obtain ⟨hold, -, hnew⟩ := hnodup
    rw [List.length_append, List.length_singleton] at hlen
    obtain ⟨p', h⟩ := ih hold (by omega)
    obtain ⟨es, hleaf, hperm⟩ := indexLeaf_of_insertedAll hfresh hfail h
    have hkey : kv.1 ∉ es.map Prod.fst := by
      intro hmem
      exact hnew kv.1 ((hperm.map Prod.fst).mem_iff.mp hmem) kv.1 (by simp) rfl
    have hroom : es.length < 4 := by
      rw [hperm.length_eq]
      omega
    obtain ⟨p'', _, hrun, _⟩ := hleaf.insert_ok kv.1 kv.2 hkey hroom
    exact ⟨p'', .snoc h hrun⟩

/-- With values 0 the round trip works, whatever the order of the inserts. -/
theorem index_map_values_zero :
    ∃ p', InsertedAll newIndex newIndexPool [(5, 0), (2, 0), (9, 0), (7, 0)] p' ∧
      IsIndexMap p' newIndex [(5, 0), (2, 0), (9, 0), (7, 0)] := by
  obtain ⟨hfresh, hfail⟩ := newIndex_fresh
  obtain ⟨p', h⟩ := exists_insertedAll hfresh hfail [(5, 0), (2, 0), (9, 0), (7, 0)] (by decide)
    (by decide)
  exact ⟨p', h, (index_map_iff_values_zero newIndexPool p' newIndex _ hfresh hfail h).mpr (by decide)⟩

/-- With value 77 the search for the one key that was inserted returns 0. -/
theorem index_loses_value :
    FreshIndex newIndexPool newIndex ∧ newIndexPool.NoFailure ∧
      ∃ p', InsertedAll newIndex newIndexPool [(5, 77)] p' ∧
        ¬ IsIndexMap p' newIndex [(5, 77)] := by
  obtain ⟨hfresh, hfail⟩ := newIndex_fresh
  obtain ⟨p', h⟩ := exists_insertedAll hfresh hfail [(5, 77)] (by decide) (by decide)
  refine ⟨hfresh, hfail, p', h, ?_⟩
  obtain ⟨es, hleaf, hperm⟩ := indexLeaf_of_insertedAll hfresh hfail h
  rw [hleaf.isIndexMap_iff hperm]
  decide

end Kds
