import Kds.Pool
import Kds.Lib.SearchTree

/-! # B-tree nodes

    `btree.c`, the part that works on one node: a node is copied out of its
    page (`load_btree_node`), changed in its fixed-size arrays, and copied
    back (`store_btree_node`). Array indices are checked: an access outside
    `keys[BTREE_MAX_KEYS]` or `slots[BTREE_MAX_KEYS + 1]` is a fault.

    `TreeNode` reads a page as a node of a search tree, and each array
    operation gets one lemma that says what it does to the lists of keys and
    slots in use.
-/

open Bytes SearchTree

namespace Kds

@[simp] def BTREE_MAX_KEYS : Nat := 4

@[simp] def BTREE_MAX_DEPTH : Nat := 16

@[simp] def BTREE_MIN_KEYS : Nat := BTREE_MAX_KEYS / 2

/-! ## Section 1: Fixed-size arrays -/

section arrays

variable {α : Type} {n m : Nat}

/-- `a[i]`. -/
def arrGet (a : Vector α n) (i : Int) : Except Fault α :=
  if h : 0 ≤ i ∧ i.toNat < n then .ok (a.get ⟨i.toNat, h.2⟩) else .error .outOfBounds

/-- `a[i] = x`. -/
def arrSet (a : Vector α n) (i : Int) (x : α) : Except Fault (Vector α n) :=
  if h : 0 ≤ i ∧ i.toNat < n then .ok (a.set i.toNat x h.2) else .error .outOfBounds

/-- `a[i] = a[i - 1]; a[i - 1] = a[i - 2]; ...`, `count` times. -/
def shiftUp (a : Vector α n) (i : Int) : (count : Nat) → Except Fault (Vector α n)
  | 0 => .ok a
  | k + 1 => do
      let a ← arrSet a i (← arrGet a (i - 1))
      shiftUp a (i - 1) k

/-- `a[i] = a[i + 1]; a[i + 1] = a[i + 2]; ...`, `count` times. -/
def shiftDown (a : Vector α n) (i : Int) : (count : Nat) → Except Fault (Vector α n)
  | 0 => .ok a
  | k + 1 => do
      let a ← arrSet a i (← arrGet a (i + 1))
      shiftDown a (i + 1) k

/-- `a[i] = b[j]; a[i + 1] = b[j + 1]; ...`, `count` times. -/
def copyInto (a : Vector α n) (i : Int) (b : Vector α m) (j : Int) :
    (count : Nat) → Except Fault (Vector α n)
  | 0 => .ok a
  | k + 1 => do
      let a ← arrSet a i (← arrGet b j)
      copyInto a (i + 1) b (j + 1) k

theorem arrGet_nat (a : Vector α n) {i : Nat} (h : i < n) : arrGet a (i : Int) = .ok a[i] := by
  simp [arrGet, h, Vector.get]

theorem arrSet_nat (a : Vector α n) {i : Nat} (h : i < n) (x : α) :
    arrSet a (i : Int) x = .ok (a.set i x) := by
  simp [arrSet, h]

theorem arrGet_zero (a : Vector α (n + 1)) : arrGet a 0 = .ok a[0] :=
  arrGet_nat a (Nat.succ_pos n)

theorem arrSet_zero (a : Vector α (n + 1)) (x : α) : arrSet a 0 x = .ok (a.set 0 x) :=
  arrSet_nat a (Nat.succ_pos n) x

theorem arrSet_out (a : Vector α n) {i : Int} (h : (n : Int) ≤ i) (x : α) :
    arrSet a i x = .error .outOfBounds := by
  rw [arrSet, dif_neg]
  omega

theorem shiftUp_spec (k : Nat) : ∀ (a : Vector α n) (lo : Nat), lo + k < n →
    ∃ a', shiftUp a ((lo + k : Nat) : Int) k = .ok a' ∧
      ∀ j (hj : j < n), a'[j] = if lo < j ∧ j ≤ lo + k then a[j - 1] else a[j] := by
  induction k with
  | zero => intro a lo _; exact ⟨a, rfl, by grind⟩
  | succ k ih =>
    intro a lo hlo
    obtain ⟨a', ha', hspec⟩ := ih (a.set (lo + k + 1) a[lo + k]) lo (by omega)
    have hcast : ((lo + (k + 1) : Nat) : Int) - 1 = ((lo + k : Nat) : Int) := by omega
    refine ⟨a', ?_, ?_⟩
    · rw [shiftUp, hcast, arrGet_nat a (by omega)]
      show (arrSet a _ a[lo + k] >>= fun a => shiftUp a _ k) = _
      rw [arrSet_nat a hlo]
      exact ha'
    · intro j hj
      rw [hspec j hj]
      grind

theorem shiftDown_spec (k : Nat) : ∀ (a : Vector α n) (i : Nat), i + k < n →
    ∃ a', shiftDown a (i : Int) k = .ok a' ∧
      ∀ j (hj : j < n), a'[j] = if h : i ≤ j ∧ j < i + k ∧ j + 1 < n then a[j + 1] else a[j] := by
  induction k with
  | zero => intro a i _; exact ⟨a, rfl, by grind⟩
  | succ k ih =>
    intro a i hi
    obtain ⟨a', ha', hspec⟩ := ih (a.set i a[i + 1]) (i + 1) (by omega)
    refine ⟨a', ?_, ?_⟩
    · rw [shiftDown, show (i : Int) + 1 = ((i + 1 : Nat) : Int) by omega, arrGet_nat a (by omega)]
      show (arrSet a _ a[i + 1] >>= fun a => shiftDown a _ k) = _
      rw [arrSet_nat a (by omega)]
      exact ha'
    · intro j hj
      rw [hspec j hj]
      grind

theorem copyInto_spec (k : Nat) : ∀ (a : Vector α n) (i : Nat) (b : Vector α m) (j : Nat),
    i + k ≤ n → j + k ≤ m →
    ∃ a', copyInto a (i : Int) b (j : Int) k = .ok a' ∧
      ∀ t (ht : t < n), a'[t] =
        if h : i ≤ t ∧ t < i + k ∧ j + (t - i) < m then b[j + (t - i)] else a[t] := by
  induction k with
  | zero => intro a i b j _ _; exact ⟨a, rfl, by grind⟩
  | succ k ih =>
    intro a i b j hi hj
    obtain ⟨a', ha', hspec⟩ := ih (a.set i b[j]) (i + 1) b (j + 1) (by omega) (by omega)
    refine ⟨a', ?_, ?_⟩
    · rw [copyInto, arrGet_nat b (by omega)]
      show (arrSet a _ b[j] >>= fun a => copyInto a _ b _ k) = _
      rw [arrSet_nat a (by omega)]
      exact ha'
    · intro t ht
      rw [hspec t ht]
      grind

/-- Shifting up and filling the gap inserts into the first `lo + k` elements. -/
theorem shiftUp_insert (a : Vector α n) (lo : Nat) {k : Nat} (h : lo + k < n) :
    ∃ a', shiftUp a ((lo + k : Nat) : Int) k = .ok a' ∧
      ∀ x, (a'.set lo x).toList.take (lo + k + 1) =
        (a.toList.take (lo + k)).take lo ++ x :: (a.toList.take (lo + k)).drop lo := by
  obtain ⟨a', ha', hspec⟩ := shiftUp_spec k a lo h
  refine ⟨a', ha', fun x => List.ext_getElem (by simp; omega) fun i h₁ h₂ => ?_⟩
  have hi : i < lo + k + 1 := by simp at h₁; omega
  rw [List.getElem_take, Vector.getElem_toList, Vector.getElem_set, hspec i (by omega)]
  have hlo : ((a.toList.take (lo + k)).take lo).length = lo := by simp; omega
  rcases Nat.lt_trichotomy i lo with hlt | rfl | hgt
  · rw [if_neg (by omega), if_neg (by omega), List.getElem_append_left (by omega)]
    simp
  · rw [if_pos rfl, List.getElem_append_right (by omega)]
    simp only [hlo, Nat.sub_self, List.getElem_cons_zero]
  · obtain ⟨j, rfl⟩ := Nat.exists_eq_add_of_lt hgt
    rw [if_neg (by omega), if_pos (by omega), List.getElem_append_right (by omega)]
    simp only [hlo, show lo + j + 1 - lo = j + 1 by omega, List.getElem_cons_succ,
      List.getElem_drop, List.getElem_take, Vector.getElem_toList]
    rfl

/-- Shifting down erases from the first `pos + k + 1` elements. -/
theorem shiftDown_erase (a : Vector α n) {pos k : Nat} (h : pos + k < n) :
    ∃ a', shiftDown a (pos : Int) k = .ok a' ∧
      a'.toList.take (pos + k) =
        (a.toList.take (pos + k + 1)).take pos ++ (a.toList.take (pos + k + 1)).drop (pos + 1) := by
  obtain ⟨a', ha', hspec⟩ := shiftDown_spec k a pos h
  refine ⟨a', ha', List.ext_getElem (by simp; omega) fun i h₁ h₂ => ?_⟩
  have hi : i < pos + k := by simp at h₁; omega
  rw [List.getElem_take, Vector.getElem_toList, hspec i (by omega)]
  have hpos : ((a.toList.take (pos + k + 1)).take pos).length = pos := by simp; omega
  rcases Nat.lt_or_ge i pos with hlt | hge
  · rw [dif_neg (by omega), List.getElem_append_left (by omega)]
    simp
  · obtain ⟨j, rfl⟩ := Nat.exists_eq_add_of_le hge
    rw [dif_pos (by omega), List.getElem_append_right (by omega)]
    simp only [hpos, Nat.add_sub_cancel_left, List.getElem_drop, List.getElem_take,
      Vector.getElem_toList]
    congr 1
    omega

theorem copyInto_append (a : Vector α n) (b : Vector α m) {len k : Nat} (hn : len + k ≤ n)
    (hk : k ≤ m) :
    ∃ a', copyInto a (len : Int) b 0 k = .ok a' ∧
      a'.toList.take (len + k) = a.toList.take len ++ b.toList.take k := by
  obtain ⟨a', ha', hspec⟩ := copyInto_spec k a len b 0 hn (by omega)
  refine ⟨a', ha', List.ext_getElem (by simp; omega) fun i h₁ h₂ => ?_⟩
  have hi : i < len + k := by simp at h₁; omega
  rw [List.getElem_take, Vector.getElem_toList, hspec i (by omega)]
  have hlen : (a.toList.take len).length = len := by simp; omega
  rcases Nat.lt_or_ge i len with hlt | hge
  · rw [dif_neg (by omega), List.getElem_append_left (by omega)]
    simp
  · rw [dif_pos (by omega), List.getElem_append_right (by omega)]
    simp only [hlen, List.getElem_take, Vector.getElem_toList, Nat.zero_add]

theorem take_set_last (a : Vector α n) {len : Nat} (h : len < n) (x : α) :
    (a.set len x).toList.take (len + 1) = a.toList.take len ++ [x] := by
  have hlen : (a.toList.take len).length = len := by simp; omega
  rw [Vector.toList_set, List.take_set, List.take_succ_eq_append_getElem (by simpa using h),
    List.set_append_right _ _ (by omega), hlen, Nat.sub_self, List.set_cons_zero]

theorem take_set (a : Vector α n) {len i : Nat} (h : i < n) (x : α) :
    (a.set i x).toList.take len = (a.toList.take len).set i x := by
  rw [Vector.toList_set, List.take_set]

end arrays

/-- `(int)x` for a `u64`. -/
def toInt (x : UInt64) : Int := x.toUInt32.toInt32.toInt

/-- The value of an `int` in a comparison with a `u64`. -/
def toU64 (i : Int) : Nat := (UInt64.ofInt i).toNat

theorem toInt_of_lt {x : UInt64} (h : x.toNat < 2 ^ 31) : toInt x = (x.toNat : Int) := by
  unfold toInt
  have h32 : x.toUInt32.toNat = x.toNat := by
    rw [UInt64.toNat_toUInt32]
    omega
  rw [← h32] at h ⊢
  generalize x.toUInt32 = y at *
  rw [← Int32.toInt_toBitVec, UInt32.toBitVec_toInt32, BitVec.toInt_eq_toNat_of_lt]
  · rfl
  · simpa using by omega

theorem toU64_nat {i : Nat} (h : i < 2 ^ 64) : toU64 (i : Int) = i := by
  show (UInt64.ofNat ((i : Int) % 2 ^ 64).toNat).toNat = i
  rw [UInt64.toNat_ofNat']
  omega

instance linearOrderUInt64 : LinearOrder UInt64 where
  le_refl := fun a => UInt64.le_refl a
  le_trans := fun _ _ _ => UInt64.le_trans
  le_antisymm := fun _ _ => UInt64.le_antisymm
  lt_iff_le_not_ge := fun a b => by
    rw [UInt64.lt_iff_toNat_lt, UInt64.le_iff_toNat_le, UInt64.le_iff_toNat_le]
    omega
  le_total := fun a b => UInt64.le_total a b
  toDecidableLE := fun a b => inferInstanceAs (Decidable (a ≤ b))

/-! ## Section 2: Node data in a page -/

/-- `kds_btree_page_data_t`: `BTREE_MAX_KEYS` keys and one slot more. -/
structure BtreePageData where
  level : UInt64
  key_count : UInt64
  keys : Vector TupleId 4
  slots : Vector PageId 5
  next : PageId
  prev : PageId
  deriving DecidableEq, Repr

/-- `kds_btree_node_t`: the data, and the frame it was loaded from. -/
structure BtreeNode extends BtreePageData where
  frame : Option PageId
  deriving DecidableEq, Repr

/-- The thirteen words of the packed struct. -/
def BtreePageData.words (d : BtreePageData) : List UInt64 :=
  d.level :: d.key_count :: (d.keys.toList ++ d.slots.toList ++ [d.next, d.prev])

def BtreePageData.bytes (d : BtreePageData) : List UInt8 := d.words.flatMap u64Bytes

/-- Word `i` of the struct in a page: `kds_btree_data_copy`. -/
def btreeWord (m : Mem) (i : Nat) : UInt64 := m.readU64 (KDS_PAGE_HDR_SIZE + 8 * i)

/-- The node data of a page. -/
def btreeData (m : Mem) : BtreePageData where
  level := btreeWord m 0
  key_count := btreeWord m 1
  keys := Vector.ofFn fun i => btreeWord m (2 + i)
  slots := Vector.ofFn fun i => btreeWord m (6 + i)
  next := btreeWord m 11
  prev := btreeWord m 12

theorem length_flatMap_u64Bytes (ws : List UInt64) :
    (ws.flatMap u64Bytes).length = 8 * ws.length := by
  induction ws with
  | nil => rfl
  | cons w ws ih => simp [ih]; omega

theorem readU64_write_words (m : Mem) (off : Nat) {ws : List UInt64} {i : Nat} {w : UInt64}
    (h : ws[i]? = some w) : (m.write off (ws.flatMap u64Bytes)).readU64 (off + 8 * i) = w := by
  obtain ⟨ws₁, ws₂, rfl, rfl⟩ := exists_split_of_getElem? h
  have h := Mem.readU64_write_mid m off (ws₁.flatMap u64Bytes) (ws₂.flatMap u64Bytes) w
  rw [length_flatMap_u64Bytes] at h
  rw [List.flatMap_append, List.flatMap_cons, ← List.append_assoc]
  exact h

/-- What is stored is what is loaded. -/
theorem btreeData_write (m : Mem) (d : BtreePageData) :
    btreeData (m.write KDS_PAGE_HDR_SIZE d.bytes) = d := by
  have hword : ∀ i w, d.words[i]? = some w →
      btreeWord (m.write KDS_PAGE_HDR_SIZE d.bytes) i = w :=
    fun i w h => readU64_write_words m KDS_PAGE_HDR_SIZE h
  have hkeys : ∀ i (h : i < 4), btreeWord (m.write KDS_PAGE_HDR_SIZE d.bytes) (2 + i) = d.keys[i] := by
    intro i h
    apply hword
    simp [BtreePageData.words, List.getElem?_append, h, Nat.add_comm 2 i]
  have hslots : ∀ i (h : i < 5),
      btreeWord (m.write KDS_PAGE_HDR_SIZE d.bytes) (6 + i) = d.slots[i] := by
    intro i h
    apply hword
    simp [BtreePageData.words, List.getElem?_append, h, Nat.add_comm 6 i]
  have hnext : d.words[11]? = some d.next := by simp [BtreePageData.words]
  have hprev : d.words[12]? = some d.prev := by simp [BtreePageData.words]
  generalize m.write KDS_PAGE_HDR_SIZE d.bytes = m' at *
  have hk : (Vector.ofFn fun i : Fin 4 => btreeWord m' (2 + i)) = d.keys := by
    apply Vector.ext
    intro i hi
    rw [Vector.getElem_ofFn]
    exact hkeys i hi
  have hs : (Vector.ofFn fun i : Fin 5 => btreeWord m' (6 + i)) = d.slots := by
    apply Vector.ext
    intro i hi
    rw [Vector.getElem_ofFn]
    exact hslots i hi
  rw [btreeData, hk, hs, hword 0 d.level rfl, hword 1 d.key_count rfl, hword 11 _ hnext,
    hword 12 _ hprev]

/-! ## Section 3: Loading and storing -/

/-- `kds_is_btree_page`. -/
def kds_is_btree_page (f : Frame) : Bool :=
  f.hdr.type == .btreeRoot || f.hdr.type == .btreeInternal || f.hdr.type == .btreeData

def load_btree_node (p : Pool) (frame : PageId) : Except Fault BtreeNode :=
  if !kds_is_btree_page (p.frame frame) then .error .bugOn
  else .ok { btreeData (p.frame frame).page with frame := some frame }

/-- `store_btree_node`: only the buffer changes; the page is not marked dirty. -/
def store_btree_node (p : Pool) (node : BtreeNode) : Except Fault Pool :=
  match node.frame with
  | none => .error .nullPointer
  | some frame =>
      if !kds_is_btree_page (p.frame frame) then .error .bugOn
      else
        let f := p.frame frame
        .ok (p.setFrame frame { f with page := f.page.write KDS_PAGE_HDR_SIZE node.bytes })

/-- `btree_init_root_kpage`: only the header copy is touched. -/
def btree_init_root_kpage (f : Frame) : Frame :=
  { f with hdr := { f.hdr with type := .btreeRoot, flags := f.hdr.flags ||| KDS_PAGE_FLAG_INIT } }

/-! ## Section 4: Operations on one node -/

/-- `for (i = 0; i < nkeys; i++) if (key <= keys[i]) return i; return nkeys;` -/
def searchFrom {m : Nat} (keys : Vector TupleId m) (key : TupleId) (nkeys : Int) (i : Nat) :
    (count : Nat) → Except Fault Int
  | 0 => .ok nkeys
  | n + 1 => do
      let k ← arrGet keys i
      if key ≤ k then .ok i else searchFrom keys key nkeys (i + 1) n

def btree_search_position (node : BtreePageData) (key : TupleId) : Except Fault Int :=
  let nkeys := toInt node.key_count
  searchFrom node.keys key nkeys 0 nkeys.toNat

def btree_node_insert_at (node : BtreeNode) (pos : Int) (key : TupleId) (slot : PageId) :
    Except Fault BtreeNode := do
  let i := toInt node.key_count
  let keys ← shiftUp node.keys i (i - pos).toNat
  let slots ← shiftUp node.slots (i + 1) (i - pos).toNat
  let keys ← arrSet keys pos key
  let slots ← arrSet slots (pos + 1) slot
  .ok { node with keys := keys, slots := slots, key_count := node.key_count + 1 }

/-- `btree_node_remove_at`: `i < key_count - 1` and `i < key_count` compare as `u64`. -/
def btree_node_remove_at (node : BtreeNode) (pos : Int) : Except Fault BtreeNode := do
  let keys ← shiftDown node.keys pos ((node.key_count - 1).toNat - toU64 pos)
  let slots ← shiftDown node.slots (pos + 1) (node.key_count.toNat - toU64 (pos + 1))
  .ok { node with keys := keys, slots := slots, key_count := node.key_count - 1 }

def btree_node_is_underflow (node : BtreePageData) : Bool :=
  decide (node.key_count.toNat < BTREE_MIN_KEYS)

/-- The node part of `btree_redistribute_from_left`: parent, left sibling and
    node after the move. -/
def redistributeLeft (parent : BtreeNode) (sep_pos : Int) (left node : BtreeNode) :
    Except Fault (BtreeNode × BtreeNode × BtreeNode) := do
  let i := toInt node.key_count
  if node.level = 0 then
    let keys ← shiftUp node.keys i i.toNat
    let slots ← shiftUp node.slots i i.toNat
    let keys ← arrSet keys 0 (← arrGet left.keys (left.key_count - 1).toNat)
    let slots ← arrSet slots 0 (← arrGet left.slots (left.key_count - 1).toNat)
    let pkeys ← arrSet parent.keys sep_pos (← arrGet keys 0)
    .ok ({ parent with keys := pkeys },
      { left with key_count := left.key_count - 1 },
      { node with keys := keys, slots := slots, key_count := node.key_count + 1 })
  else
    let keys ← shiftUp node.keys i i.toNat
    let i' := toInt (node.key_count + 1)
    let slots ← shiftUp node.slots i' i'.toNat
    let keys ← arrSet keys 0 (← arrGet parent.keys sep_pos)
    let slots ← arrSet slots 0 (← arrGet left.slots left.key_count.toNat)
    let pkeys ← arrSet parent.keys sep_pos (← arrGet left.keys (left.key_count - 1).toNat)
    .ok ({ parent with keys := pkeys },
      { left with key_count := left.key_count - 1 },
      { node with keys := keys, slots := slots, key_count := node.key_count + 1 })

/-- The node part of `btree_redistribute_from_right`: parent, node and right
    sibling after the move. -/
def redistributeRight (parent : BtreeNode) (sep_pos : Int) (node right : BtreeNode) :
    Except Fault (BtreeNode × BtreeNode × BtreeNode) := do
  if node.level = 0 then
    let keys ← arrSet node.keys node.key_count.toNat (← arrGet right.keys 0)
    let slots ← arrSet node.slots node.key_count.toNat (← arrGet right.slots 0)
    let rkeys ← shiftDown right.keys 0 (right.key_count - 1).toNat
    let rslots ← shiftDown right.slots 0 (right.key_count - 1).toNat
    let pkeys ← arrSet parent.keys sep_pos (← arrGet rkeys 0)
    .ok ({ parent with keys := pkeys },
      { node with keys := keys, slots := slots, key_count := node.key_count + 1 },
      { right with keys := rkeys, slots := rslots, key_count := right.key_count - 1 })
  else
    let keys ← arrSet node.keys node.key_count.toNat (← arrGet parent.keys sep_pos)
    let slots ← arrSet node.slots (node.key_count + 1).toNat (← arrGet right.slots 0)
    let pkeys ← arrSet parent.keys sep_pos (← arrGet right.keys 0)
    let rkeys ← shiftDown right.keys 0 (right.key_count - 1).toNat
    let rslots ← shiftDown right.slots 0 right.key_count.toNat
    .ok ({ parent with keys := pkeys },
      { node with keys := keys, slots := slots, key_count := node.key_count + 1 },
      { right with keys := rkeys, slots := rslots, key_count := right.key_count - 1 })

/-- The left node of `btree_merge_nodes` after the merge. -/
def mergeInto (parent : BtreeNode) (sep_pos : Int) (left right : BtreeNode) :
    Except Fault BtreeNode := do
  let base := toInt left.key_count
  if left.level = 0 then
    let keys ← copyInto left.keys base right.keys 0 right.key_count.toNat
    let slots ← copyInto left.slots base right.slots 0 right.key_count.toNat
    .ok { left with
      keys := keys, slots := slots, key_count := left.key_count + right.key_count,
      next := right.next }
  else
    let keys ← arrSet left.keys base (← arrGet parent.keys sep_pos)
    let keys ← copyInto keys (base + 1) right.keys 0 right.key_count.toNat
    let slots ← copyInto left.slots (base + 1) right.slots 0 (right.key_count.toNat + 1)
    .ok { left with
      keys := keys, slots := slots, key_count := left.key_count + (right.key_count + 1) }

/-! ## Section 5: Nodes as lists of keys and slots -/

/-- The node of a search tree that the page data describes. A key count
    beyond the array gives a node without slots, which no tree contains. -/
def BtreePageData.treeNode (d : BtreePageData) : SearchTree.Node PageId TupleId :=
  if d.key_count.toNat ≤ BTREE_MAX_KEYS then
    { level := d.level.toNat
      keys := d.keys.toList.take d.key_count.toNat
      slots := d.slots.toList.take (d.key_count.toNat + 1) }
  else { level := d.level.toNat, keys := d.keys.toList, slots := [] }

@[simp] theorem BtreePageData.treeNode_level (d : BtreePageData) :
    d.treeNode.level = d.level.toNat := by
  unfold treeNode
  split <;> rfl

theorem BtreePageData.treeNode_of_le {d : BtreePageData} (h : d.key_count.toNat ≤ 4) :
    d.treeNode =
      { level := d.level.toNat
        keys := d.keys.toList.take d.key_count.toNat
        slots := d.slots.toList.take (d.key_count.toNat + 1) } :=
  if_pos h

theorem BtreePageData.key_count_le {d : BtreePageData} (h : d.treeNode.slots ≠ []) :
    d.key_count.toNat ≤ 4 := by
  by_contra hno
  exact h (congrArg SearchTree.Node.slots (if_neg hno))

theorem BtreePageData.length_keys {d : BtreePageData} (h : d.key_count.toNat ≤ 4) :
    d.treeNode.keys.length = d.key_count.toNat := by
  simp [treeNode_of_le h, h]

theorem BtreePageData.length_slots {d : BtreePageData} (h : d.key_count.toNat ≤ 4) :
    d.treeNode.slots.length = d.key_count.toNat + 1 := by
  simp [treeNode_of_le h]; omega

/-- The array entry behind an entry of the key list. -/
theorem BtreePageData.keys_get {d : BtreePageData} (h : d.key_count.toNat ≤ 4) {K₁ K₂ : List TupleId}
    {k : TupleId} (hk : d.treeNode.keys = K₁ ++ k :: K₂) :
    K₁.length < d.key_count.toNat ∧ arrGet d.keys K₁.length = .ok k := by
  have hlen := congrArg List.length hk
  rw [length_keys h] at hlen
  simp only [List.length_append, List.length_cons] at hlen
  refine ⟨by omega, ?_⟩
  rw [arrGet_nat d.keys (show K₁.length < 4 by omega)]
  have hget := congrArg (fun l => l[K₁.length]?) hk
  simp only [treeNode_of_le h] at hget
  rw [List.getElem?_take_of_lt (by omega)] at hget
  have hlt : K₁.length < 4 := by omega
  simpa [hlt] using hget

/-- The array entry behind an entry of the slot list. -/
theorem BtreePageData.slots_get {d : BtreePageData} (h : d.key_count.toNat ≤ 4) {S₁ S₂ : List PageId}
    {s : PageId} (hs : d.treeNode.slots = S₁ ++ s :: S₂) :
    S₁.length ≤ d.key_count.toNat ∧ arrGet d.slots S₁.length = .ok s := by
  have hlen := congrArg List.length hs
  rw [length_slots h] at hlen
  simp only [List.length_append, List.length_cons] at hlen
  refine ⟨by omega, ?_⟩
  rw [arrGet_nat d.slots (show S₁.length < 5 by omega)]
  have hget := congrArg (fun l => l[S₁.length]?) hs
  simp only [treeNode_of_le h] at hget
  rw [List.getElem?_take_of_lt (by omega)] at hget
  have hlt : S₁.length < 5 := by omega
  simpa [hlt] using hget

/-- The position loop finds the search position. -/
theorem searchFrom_spec {m : Nat} {keys : Vector TupleId m} {key : TupleId} {nkeys : Nat}
    (hn : nkeys ≤ m) (count : Nat) : ∀ i, i + count = nkeys →
    searchFrom keys key nkeys i count =
      .ok ((i + position key ((keys.toList.take nkeys).drop i) : Nat) : Int) := by
  induction count with
  | zero =>
    intro i hi
    rw [List.drop_eq_nil_of_le (by simp; omega)]
    simp only [searchFrom, position]
    rw [show i + 0 = nkeys by omega]
  | succ count ih =>
    intro i hi
    have hlt : i < (keys.toList.take nkeys).length := by simp; omega
    rw [searchFrom, arrGet_nat keys (show i < m by omega), List.drop_eq_getElem_cons hlt]
    have hget : (keys.toList.take nkeys)[i] = keys[i] := by simp
    simp only [position, hget]
    show (if key ≤ keys[i] then _ else _) = _
    split
    · simp
    · rw [ih (i + 1) (by omega)]
      congr 2
      omega

theorem btree_search_position_spec {d : BtreePageData} (h : d.key_count.toNat ≤ 4)
    (key : TupleId) :
    btree_search_position d key = .ok (position key d.treeNode.keys : Nat) := by
  unfold btree_search_position
  dsimp only
  rw [toInt_of_lt (by omega), Int.toNat_natCast, searchFrom_spec h d.key_count.toNat 0 (by omega)]
  simp [BtreePageData.treeNode_of_le h]

theorem toNat_add_one {x : UInt64} (h : x.toNat ≤ 4) : (x + 1).toNat = x.toNat + 1 := by
  rw [UInt64.toNat_add]
  simp only [UInt64.reduceToNat]
  omega

theorem toNat_sub_one {x : UInt64} (h : 0 < x.toNat) : (x - 1).toNat = x.toNat - 1 := by
  rw [UInt64.toNat_sub_of_le]
  · rfl
  · rw [UInt64.le_iff_toNat_le]
    exact h

/-- A key into a node with room: key and slot are put at `pos` and `pos + 1`. -/
theorem btree_node_insert_at_spec {node : BtreeNode} {pos : Nat} (hroom : node.key_count.toNat < 4)
    (hpos : pos ≤ node.key_count.toNat) (key : TupleId) (slot : PageId) :
    ∃ node', btree_node_insert_at node pos key slot = .ok node' ∧ node'.frame = node.frame ∧
      node'.treeNode = node.treeNode.insertAt pos key slot := by
  obtain ⟨k, hk⟩ := Nat.exists_eq_add_of_le hpos
  have hcount : (((pos + k : Nat) : Int) - (pos : Int)).toNat = k := by omega
  obtain ⟨keys, hkeys, hins⟩ := shiftUp_insert node.keys pos (show pos + k < 4 by omega)
  obtain ⟨slots, hslots, hins'⟩ := shiftUp_insert node.slots (pos + 1) (show pos + 1 + k < 5 by omega)
  have hkc : (node.key_count + 1).toNat = pos + k + 1 := by rw [toNat_add_one (by omega), hk]
  refine ⟨{ node with keys := keys.set pos key, slots := slots.set (pos + 1) slot,
                      key_count := node.key_count + 1 }, ?_, rfl, ?_⟩
  · unfold btree_node_insert_at
    dsimp only
    rw [toInt_of_lt (by omega), hk, hcount, hkeys]
    show (shiftUp node.slots (((pos + k : Nat) : Int) + 1) k >>= _) = _
    rw [show (((pos + k : Nat) : Int) + 1) = ((pos + 1 + k : Nat) : Int) by omega, hslots]
    show (arrSet keys (pos : Int) key >>= _) = _
    rw [arrSet_nat keys (by omega)]
    show (arrSet slots (((pos + 1 : Nat) : Int)) slot >>= _) = _
    rw [arrSet_nat slots (by omega)]
    rfl
  · have hins' := hins' slot
    simp only [show pos + 1 + k = pos + k + 1 by omega] at hins'
    rw [BtreePageData.treeNode_of_le (by rw [hkc]; omega),
      BtreePageData.treeNode_of_le (d := node.toBtreePageData) (by omega)]
    simp only [SearchTree.Node.insertAt, hkc, hk, hins, hins']

/-- A key into a full node: the first write is already outside the array. -/
theorem btree_node_insert_at_full {node : BtreeNode} {pos : Nat} (hfull : node.key_count.toNat = 4)
    (hpos : pos ≤ 4) (key : TupleId) (slot : PageId) :
    btree_node_insert_at node pos key slot = .error .outOfBounds := by
  unfold btree_node_insert_at
  dsimp only
  rw [toInt_of_lt (by omega), hfull]
  have hout : ∀ x, arrSet node.keys ((4 : Nat) : Int) x = .error .outOfBounds :=
    fun x => arrSet_out node.keys (by omega) x
  rcases Nat.lt_or_ge pos 4 with hlt | hge
  · obtain ⟨k, hk⟩ : ∃ k, (((4 : Nat) : Int) - (pos : Int)).toNat = k + 1 := ⟨3 - pos, by omega⟩
    rw [hk, shiftUp, show ((4 : Nat) : Int) - 1 = ((3 : Nat) : Int) by rfl,
      arrGet_nat node.keys (by omega)]
    simp only [bind, Except.bind, hout]
  · obtain rfl : pos = 4 := by omega
    simp only [Int.sub_self, Int.toNat_zero, shiftUp, bind, Except.bind, hout]

/-- Removing the key at `pos` and the slot behind it. -/
theorem btree_node_remove_at_spec {node : BtreeNode} {pos : Nat} (hle : node.key_count.toNat ≤ 4)
    (hpos : pos < node.key_count.toNat) :
    ∃ node', btree_node_remove_at node pos = .ok node' ∧ node'.frame = node.frame ∧
      node'.treeNode = node.treeNode.removeAt pos := by
  obtain ⟨k, hk⟩ := Nat.exists_eq_add_of_lt hpos
  obtain ⟨keys, hkeys, hrem⟩ := shiftDown_erase node.keys (show pos + k < 4 by omega)
  obtain ⟨slots, hslots, hrem'⟩ := shiftDown_erase node.slots (show pos + 1 + k < 5 by omega)
  have hkc : (node.key_count - 1).toNat = pos + k := by rw [toNat_sub_one (by omega), hk]; omega
  refine ⟨{ node with keys := keys, slots := slots, key_count := node.key_count - 1 }, ?_, rfl, ?_⟩
  · unfold btree_node_remove_at
    rw [hkc, toU64_nat (by omega), Nat.add_sub_cancel_left, hkeys]
    show (shiftDown node.slots ((pos + 1 : Nat) : Int) (_ - toU64 ((pos + 1 : Nat) : Int)) >>= _) = _
    rw [toU64_nat (by omega), show node.key_count.toNat - (pos + 1) = k by omega, hslots]
    rfl
  · simp only [show pos + 1 + k = pos + k + 1 by omega] at hrem'
    rw [BtreePageData.treeNode_of_le (by rw [hkc]; omega),
      BtreePageData.treeNode_of_le (d := node.toBtreePageData) (by omega)]
    simp only [SearchTree.Node.removeAt, hkc, hk, hrem, hrem']

/-- Replacing the key at the separator. -/
theorem treeNode_set_key {parent : BtreeNode} {K₁ K₂ : List TupleId} {s : TupleId}
    (hp : parent.key_count.toNat ≤ 4) (hpk : parent.treeNode.keys = K₁ ++ s :: K₂)
    (hlt : K₁.length < 4) (k : TupleId) :
    BtreePageData.treeNode { parent.toBtreePageData with keys := parent.keys.set K₁.length k hlt } =
      { parent.treeNode with keys := K₁ ++ k :: K₂ } := by
  rw [BtreePageData.treeNode_of_le hp] at hpk ⊢
  rw [BtreePageData.treeNode_of_le (by exact hp)]
  simp only [take_set _ hlt] at hpk ⊢
  rw [hpk]
  simp

/-- Leaving out the last key and the last slot. -/
theorem treeNode_pop {d : BtreePageData} {LK : List TupleId} {m : TupleId} {LS : List PageId}
    {c : PageId} (h : d.key_count.toNat ≤ 4) (hk : d.treeNode.keys = LK ++ [m])
    (hs : d.treeNode.slots = LS ++ [c]) :
    BtreePageData.treeNode { d with key_count := d.key_count - 1 } = ⟨d.level.toNat, LK, LS⟩ := by
  have hlen := congrArg List.length hk
  rw [BtreePageData.length_keys h] at hlen
  simp only [List.length_append, List.length_cons, List.length_nil] at hlen
  have hslen := congrArg List.length hs
  rw [BtreePageData.length_slots h] at hslen
  simp only [List.length_append, List.length_cons, List.length_nil] at hslen
  have hkc : (d.key_count - 1).toNat = LK.length := by rw [toNat_sub_one (by omega)]; omega
  rw [BtreePageData.treeNode_of_le h] at hk hs
  rw [BtreePageData.treeNode_of_le (by rw [hkc]; omega)]
  simp only [hkc, SearchTree.Node.mk.injEq, true_and]
  simp only at hk hs
  constructor
  · have := congrArg (List.take LK.length) hk
    rwa [List.take_take, Nat.min_eq_left (by omega), List.take_left] at this
  · have := congrArg (List.take LS.length) hs
    rwa [List.take_take, Nat.min_eq_left (by omega), List.take_left,
      show LS.length = LK.length + 1 by omega] at this

/-- Borrowing from the left above the leaves: the separator comes down in
    front of the node, the left sibling's last key goes up. -/
theorem redistributeLeft_internal {parent left node : BtreeNode} {K₁ K₂ LK : List TupleId}
    {s m : TupleId} {LS : List PageId} {c : PageId} (hp : parent.key_count.toNat ≤ 4)
    (hl : left.key_count.toNat ≤ 4) (hn : node.key_count.toNat < 4) (hlev : node.level ≠ 0)
    (hpk : parent.treeNode.keys = K₁ ++ s :: K₂) (hlk : left.treeNode.keys = LK ++ [m])
    (hls : left.treeNode.slots = LS ++ [c]) :
    ∃ parent' left' node',
      redistributeLeft parent K₁.length left node = .ok (parent', left', node') ∧
      (parent'.frame = parent.frame ∧ left'.frame = left.frame ∧ node'.frame = node.frame) ∧
      parent'.treeNode = { parent.treeNode with keys := K₁ ++ m :: K₂ } ∧
      left'.treeNode = ⟨left.level.toNat, LK, LS⟩ ∧
      node'.treeNode =
        ⟨node.level.toNat, s :: node.treeNode.keys, c :: node.treeNode.slots⟩ := by
  obtain ⟨hsep, hgets⟩ := BtreePageData.keys_get hp hpk
  obtain ⟨hLK, hgetm⟩ := BtreePageData.keys_get hl hlk
  obtain ⟨hLS, hgetc⟩ := BtreePageData.slots_get hl hls
  have hslen := congrArg List.length hls
  have hklen := congrArg List.length hlk
  rw [BtreePageData.length_slots hl, List.length_append, List.length_singleton] at hslen
  rw [BtreePageData.length_keys hl, List.length_append, List.length_singleton] at hklen
  obtain ⟨keys, hkeys, hins⟩ := shiftUp_insert node.keys 0
    (show 0 + node.key_count.toNat < 4 by omega)
  obtain ⟨slots, hslots, hins'⟩ := shiftUp_insert node.slots 0
    (show 0 + (node.key_count.toNat + 1) < 5 by omega)
  simp only [Nat.zero_add] at hkeys hslots hins hins'
  have hkc := toNat_add_one (show node.key_count.toNat ≤ 4 by omega)
  have hi : toInt node.key_count = (node.key_count.toNat : Int) := toInt_of_lt (by omega)
  have hi' : toInt (node.key_count + 1) = ((node.key_count.toNat + 1 : Nat) : Int) := by
    rw [toInt_of_lt (by omega), hkc]
  -- the indices of the last key and the last slot
  have hlast : (left.key_count - 1).toNat = LK.length := by
    rw [toNat_sub_one (by omega)]; omega
  have hlast' : left.key_count.toNat = LS.length := by omega
  refine ⟨{ parent with keys := parent.keys.set K₁.length m (by omega) },
    { left with key_count := left.key_count - 1 },
    { node with keys := keys.set 0 s, slots := slots.set 0 c, key_count := node.key_count + 1 },
    ?_, ⟨rfl, rfl, rfl⟩, treeNode_set_key hp hpk (by omega) m, treeNode_pop hl hlk hls, ?_⟩
  · simp only [redistributeLeft, if_neg hlev, hi, hi', Int.toNat_natCast, hkeys, hslots, hlast,
      hlast', hgets, hgetm, hgetc, bind, Except.bind, arrSet_zero, arrSet_nat parent.keys
      (show K₁.length < 4 by omega)]
  · rw [BtreePageData.treeNode_of_le (by rw [hkc]; omega),
      BtreePageData.treeNode_of_le (d := node.toBtreePageData) (by omega)]
    simp only [hkc, hins, hins', List.take_zero, List.nil_append, List.drop_zero]

/-- Leaving out the first key and the first slot. -/
theorem treeNode_shift {d : BtreePageData} {m : TupleId} {RK : List TupleId} {c : PageId}
    {RS : List PageId} (h : d.key_count.toNat ≤ 4) (hk : d.treeNode.keys = m :: RK)
    (hs : d.treeNode.slots = c :: RS) :
    ∃ keys slots, shiftDown d.keys 0 (d.key_count - 1).toNat = .ok keys ∧
      shiftDown d.slots 0 d.key_count.toNat = .ok slots ∧
      BtreePageData.treeNode { d with keys := keys, slots := slots, key_count := d.key_count - 1 } =
        ⟨d.level.toNat, RK, RS⟩ := by
  have hlen := congrArg List.length hk
  rw [BtreePageData.length_keys h, List.length_cons] at hlen
  have hkc : (d.key_count - 1).toNat = RK.length := by rw [toNat_sub_one (by omega)]; omega
  obtain ⟨keys, hkeys, hrem⟩ := shiftDown_erase d.keys (show 0 + RK.length < 4 by omega)
  obtain ⟨slots, hslots, hrem'⟩ := shiftDown_erase d.slots (show 0 + (RK.length + 1) < 5 by omega)
  refine ⟨keys, slots, by rw [hkc]; exact hkeys, by rw [hlen]; exact hslots, ?_⟩
  rw [BtreePageData.treeNode_of_le h] at hk hs
  rw [BtreePageData.treeNode_of_le (by rw [hkc]; omega)]
  simp only [hlen] at hk hs
  simp only [Nat.zero_add, List.take_zero, List.nil_append] at hrem hrem'
  simp only [hkc, hrem, hrem', hk, hs, List.drop_succ_cons, List.drop_zero]

/-- Adding a key and a slot at the end. -/
theorem treeNode_push {d : BtreePageData} (h : d.key_count.toNat < 4) (k : TupleId) (c : PageId) :
    BtreePageData.treeNode
        { d with
          keys := d.keys.set d.key_count.toNat k
          slots := d.slots.set (d.key_count.toNat + 1) c
          key_count := d.key_count + 1 } =
      ⟨d.level.toNat, d.treeNode.keys ++ [k], d.treeNode.slots ++ [c]⟩ := by
  have hkc := toNat_add_one (show d.key_count.toNat ≤ 4 by omega)
  rw [BtreePageData.treeNode_of_le (by rw [hkc]; omega),
    BtreePageData.treeNode_of_le (d := d) (by omega)]
  simp only [hkc, take_set_last]

/-- Borrowing from the right above the leaves: the separator comes down
    behind the node, the right sibling's first key goes up. -/
theorem redistributeRight_internal {parent node right : BtreeNode} {K₁ K₂ RK : List TupleId}
    {s m : TupleId} {RS : List PageId} {c : PageId} (hp : parent.key_count.toNat ≤ 4)
    (hr : right.key_count.toNat ≤ 4) (hn : node.key_count.toNat < 4) (hlev : node.level ≠ 0)
    (hpk : parent.treeNode.keys = K₁ ++ s :: K₂) (hrk : right.treeNode.keys = m :: RK)
    (hrs : right.treeNode.slots = c :: RS) :
    ∃ parent' node' right',
      redistributeRight parent K₁.length node right = .ok (parent', node', right') ∧
      (parent'.frame = parent.frame ∧ node'.frame = node.frame ∧ right'.frame = right.frame) ∧
      parent'.treeNode = { parent.treeNode with keys := K₁ ++ m :: K₂ } ∧
      node'.treeNode =
        ⟨node.level.toNat, node.treeNode.keys ++ [s], node.treeNode.slots ++ [c]⟩ ∧
      right'.treeNode = ⟨right.level.toNat, RK, RS⟩ := by
  obtain ⟨hsep, hgets⟩ := BtreePageData.keys_get hp hpk
  obtain ⟨hRK, hgetm⟩ := BtreePageData.keys_get hr (show _ = [] ++ m :: RK from hrk)
  obtain ⟨_, hgetc⟩ := BtreePageData.slots_get hr (show _ = [] ++ c :: RS from hrs)
  obtain ⟨rkeys, rslots, hrkeys, hrslots, hright⟩ := treeNode_shift hr hrk hrs
  simp only [List.length_nil, Int.natCast_zero] at hgetm hgetc
  have hkc := toNat_add_one (show node.key_count.toNat ≤ 4 by omega)
  refine ⟨{ parent with keys := parent.keys.set K₁.length m (by omega) },
    { node with
      keys := node.keys.set node.key_count.toNat s
      slots := node.slots.set (node.key_count.toNat + 1) c
      key_count := node.key_count + 1 },
    { right with keys := rkeys, slots := rslots, key_count := right.key_count - 1 },
    ?_, ⟨rfl, rfl, rfl⟩, treeNode_set_key hp hpk (by omega) m, treeNode_push hn s c, hright⟩
  simp only [redistributeRight, if_neg hlev, hgets, hgetm, hgetc, hkc, hrkeys, hrslots, bind,
    Except.bind, arrSet_nat node.keys (show node.key_count.toNat < 4 by omega),
    arrSet_nat node.slots (show node.key_count.toNat + 1 < 5 by omega),
    arrSet_nat parent.keys (show K₁.length < 4 by omega)]

/-- Merging above the leaves: the separator comes down between the two nodes. -/
theorem mergeInto_internal {parent left right : BtreeNode} {K₁ K₂ : List TupleId} {s : TupleId}
    (hp : parent.key_count.toNat ≤ 4) (hfit : left.key_count.toNat + right.key_count.toNat < 4)
    (hlev : left.level ≠ 0) (hpk : parent.treeNode.keys = K₁ ++ s :: K₂) :
    ∃ left', mergeInto parent K₁.length left right = .ok left' ∧ left'.frame = left.frame ∧
      left'.treeNode =
        ⟨left.level.toNat, left.treeNode.keys ++ s :: right.treeNode.keys,
          left.treeNode.slots ++ right.treeNode.slots⟩ := by
  obtain ⟨hsep, hgets⟩ := BtreePageData.keys_get hp hpk
  set base := left.key_count.toNat with hbase
  have hlast := take_set_last left.keys (show base < 4 by omega) s
  obtain ⟨keys, hkeys, hcopy⟩ := copyInto_append (left.keys.set base s (by omega)) right.keys
    (show base + 1 + right.key_count.toNat ≤ 4 by omega) (by omega)
  obtain ⟨slots, hslots, hcopy'⟩ := copyInto_append left.slots right.slots
    (show base + 1 + (right.key_count.toNat + 1) ≤ 5 by omega) (by omega)
  have hi : toInt left.key_count = (base : Int) := toInt_of_lt (by omega)
  have hkc : (left.key_count + (right.key_count + 1)).toNat =
      base + 1 + right.key_count.toNat := by
    rw [UInt64.toNat_add, toNat_add_one (by omega)]
    omega
  refine ⟨{ left with
    keys := keys, slots := slots, key_count := left.key_count + (right.key_count + 1) },
    ?_, rfl, ?_⟩
  · have hcast : (base : Int) + 1 = ((base + 1 : Nat) : Int) := rfl
    simp only [mergeInto, if_neg hlev, hi, hgets, bind, Except.bind,
      arrSet_nat left.keys (show base < 4 by omega), hcast, hkeys, hslots]
  · rw [BtreePageData.treeNode_of_le (by rw [hkc]; omega),
      BtreePageData.treeNode_of_le (d := left.toBtreePageData) (by omega),
      BtreePageData.treeNode_of_le (d := right.toBtreePageData) (by omega)]
    simp only [hkc, hcopy, hlast, ← hbase]
    rw [show base + 1 + right.key_count.toNat + 1 = base + 1 + (right.key_count.toNat + 1) by omega,
      hcopy']
    simp

/-! At the leaves only the keys are of interest: which value goes with which
    key differs between the functions that write a leaf. -/

/-- Borrowing from the left at the leaves: the left sibling's last key moves
    over and is also what the separator becomes. -/
theorem redistributeLeft_leaf {parent left node : BtreeNode} {K₁ K₂ LK : List TupleId}
    {s m : TupleId} (hp : parent.key_count.toNat ≤ 4) (hl : left.key_count.toNat ≤ 4)
    (hn : node.key_count.toNat < 4) (hlev : node.level = 0)
    (hpk : parent.treeNode.keys = K₁ ++ s :: K₂) (hlk : left.treeNode.keys = LK ++ [m]) :
    ∃ parent' left' node',
      redistributeLeft parent K₁.length left node = .ok (parent', left', node') ∧
      (parent'.frame = parent.frame ∧ left'.frame = left.frame ∧ node'.frame = node.frame) ∧
      parent'.treeNode = { parent.treeNode with keys := K₁ ++ m :: K₂ } ∧
      (left'.level = left.level ∧ left'.key_count.toNat ≤ 4 ∧ left'.treeNode.keys = LK) ∧
      (node'.level = node.level ∧ node'.key_count.toNat ≤ 4 ∧
        node'.treeNode.keys = m :: node.treeNode.keys) := by
  obtain ⟨hsep, hgets⟩ := BtreePageData.keys_get hp hpk
  obtain ⟨hLK, hgetm⟩ := BtreePageData.keys_get hl hlk
  have hklen := congrArg List.length hlk
  rw [BtreePageData.length_keys hl, List.length_append, List.length_singleton] at hklen
  -- a leaf has a slot to spare, which is moved along
  obtain ⟨LS, c, hls⟩ : ∃ LS c, left.treeNode.slots = LS ++ [c] := by
    have hne : left.treeNode.slots ≠ [] := by
      intro h0
      have := BtreePageData.length_slots hl
      rw [h0] at this
      simp at this
    exact ⟨_, _, (List.dropLast_append_getLast hne).symm⟩
  obtain ⟨keys, hkeys, hins⟩ := shiftUp_insert node.keys 0
    (show 0 + node.key_count.toNat < 4 by omega)
  obtain ⟨slots, hslots, _⟩ := shiftUp_insert node.slots 0
    (show 0 + node.key_count.toNat < 5 by omega)
  simp only [Nat.zero_add] at hkeys hslots hins
  have hkc := toNat_add_one (show node.key_count.toNat ≤ 4 by omega)
  have hi : toInt node.key_count = (node.key_count.toNat : Int) := toInt_of_lt (by omega)
  -- the index of the last key of the left leaf
  have hlast : (left.key_count - 1).toNat = LK.length := by
    rw [toNat_sub_one (by omega)]; omega
  refine ⟨{ parent with keys := parent.keys.set K₁.length m (by omega) },
    { left with key_count := left.key_count - 1 },
    { node with
      keys := keys.set 0 m
      slots := slots.set 0 (left.slots.get ⟨LK.length, by omega⟩)
      key_count := node.key_count + 1 },
    ?_, ⟨rfl, rfl, rfl⟩, treeNode_set_key hp hpk (by omega) m, ⟨rfl, ?_, ?_⟩, ⟨rfl, ?_, ?_⟩⟩
  · have hgetslot : arrGet left.slots (LK.length : Int) =
        .ok (left.slots.get ⟨LK.length, by omega⟩) := arrGet_nat left.slots (by omega)
    have hfirst : arrGet (keys.set 0 m) 0 = .ok m := by rw [arrGet_zero]; simp
    simp only [redistributeLeft, if_pos hlev, hi, Int.toNat_natCast, hkeys, hslots, hlast,
      hgetm, hgetslot, hfirst, bind, Except.bind, arrSet_zero,
      arrSet_nat parent.keys (show K₁.length < 4 by omega)]
  · show (left.key_count - 1).toNat ≤ 4
    omega
  · exact congrArg SearchTree.Node.keys (treeNode_pop hl hlk hls)
  · show (node.key_count + 1).toNat ≤ 4
    omega
  · rw [BtreePageData.treeNode_of_le (by rw [hkc]; omega),
      BtreePageData.treeNode_of_le (d := node.toBtreePageData) (by omega)]
    simp only [hkc, hins, List.take_zero, List.nil_append, List.drop_zero]

/-- Borrowing from the right at the leaves: the right sibling's first key
    moves over, its second becomes the separator. -/
theorem redistributeRight_leaf {parent node right : BtreeNode} {K₁ K₂ RK : List TupleId}
    {s m m' : TupleId} (hp : parent.key_count.toNat ≤ 4) (hr : right.key_count.toNat ≤ 4)
    (hn : node.key_count.toNat < 4) (hlev : node.level = 0)
    (hpk : parent.treeNode.keys = K₁ ++ s :: K₂) (hrk : right.treeNode.keys = m :: m' :: RK) :
    ∃ parent' node' right',
      redistributeRight parent K₁.length node right = .ok (parent', node', right') ∧
      (parent'.frame = parent.frame ∧ node'.frame = node.frame ∧ right'.frame = right.frame) ∧
      parent'.treeNode = { parent.treeNode with keys := K₁ ++ m' :: K₂ } ∧
      (node'.level = node.level ∧ node'.key_count.toNat ≤ 4 ∧
        node'.treeNode.keys = node.treeNode.keys ++ [m]) ∧
      (right'.level = right.level ∧ right'.key_count.toNat ≤ 4 ∧
        right'.treeNode.keys = m' :: RK) := by
  obtain ⟨hsep, hgets⟩ := BtreePageData.keys_get hp hpk
  obtain ⟨hRK, hgetm⟩ := BtreePageData.keys_get hr (show _ = [] ++ m :: m' :: RK from hrk)
  simp only [List.length_nil, Int.natCast_zero] at hgetm
  have hklen := congrArg List.length hrk
  rw [BtreePageData.length_keys hr, List.length_cons, List.length_cons] at hklen
  have hlast : (right.key_count - 1).toNat = RK.length + 1 := by
    rw [toNat_sub_one (by omega)]; omega
  obtain ⟨rkeys, hrkeys, hrem⟩ := shiftDown_erase right.keys (show 0 + (RK.length + 1) < 4 by omega)
  obtain ⟨rslots, hrslots, _⟩ := shiftDown_erase right.slots (show 0 + (RK.length + 1) < 5 by omega)
  have hkc := toNat_add_one (show node.key_count.toNat ≤ 4 by omega)
  have hright : rkeys.toList.take (RK.length + 1) = m' :: RK := by
    have hk := hrk
    rw [BtreePageData.treeNode_of_le hr] at hk
    simp only [hklen] at hk
    simp only [Nat.zero_add, List.take_zero, List.nil_append] at hrem
    rw [hrem, hk]
    simp
  have hfirst : arrGet rkeys 0 = .ok m' := by
    have h0 := congrArg (fun l => l[0]?) hright
    rw [arrGet_zero]
    simpa using h0
  refine ⟨{ parent with keys := parent.keys.set K₁.length m' (by omega) },
    { node with
      keys := node.keys.set node.key_count.toNat m
      slots := node.slots.set node.key_count.toNat (right.slots.get 0)
      key_count := node.key_count + 1 },
    { right with keys := rkeys, slots := rslots, key_count := right.key_count - 1 },
    ?_, ⟨rfl, rfl, rfl⟩, treeNode_set_key hp hpk (by omega) m', ⟨rfl, ?_, ?_⟩, ⟨rfl, ?_, ?_⟩⟩
  · have hgetslot : arrGet right.slots 0 = .ok (right.slots.get 0) := arrGet_zero right.slots
    have hrkeys' : shiftDown right.keys 0 (RK.length + 1) = .ok rkeys := hrkeys
    have hrslots' : shiftDown right.slots 0 (RK.length + 1) = .ok rslots := hrslots
    simp only [redistributeRight, if_pos hlev, hgetm, hgetslot, hlast, hrkeys', hrslots', hfirst,
      bind, Except.bind, arrSet_nat node.keys (show node.key_count.toNat < 4 by omega),
      arrSet_nat node.slots (show node.key_count.toNat < 5 by omega),
      arrSet_nat parent.keys (show K₁.length < 4 by omega)]
  · show (node.key_count + 1).toNat ≤ 4
    omega
  · rw [BtreePageData.treeNode_of_le (by rw [hkc]; omega),
      BtreePageData.treeNode_of_le (d := node.toBtreePageData) (by omega)]
    simp only [hkc, take_set_last]
  · show (right.key_count - 1).toNat ≤ 4
    omega
  · rw [BtreePageData.treeNode_of_le (by rw [hlast]; omega)]
    simp only [hlast, hright]

/-- Merging at the leaves: the keys are put one behind the other, without the separator. -/
theorem mergeInto_leaf (parent : BtreeNode) (sep_pos : Int) {left right : BtreeNode}
    (hfit : left.key_count.toNat + right.key_count.toNat ≤ 4) (hlev : left.level = 0) :
    ∃ left', mergeInto parent sep_pos left right = .ok left' ∧ left'.frame = left.frame ∧
      left'.level = left.level ∧ left'.next = right.next ∧ left'.key_count.toNat ≤ 4 ∧
      left'.treeNode.keys = left.treeNode.keys ++ right.treeNode.keys := by
  obtain ⟨keys, hkeys, hcopy⟩ := copyInto_append left.keys right.keys hfit (by omega)
  obtain ⟨slots, hslots, _⟩ := copyInto_append left.slots right.slots
    (show left.key_count.toNat + right.key_count.toNat ≤ 5 by omega) (by omega)
  have hi : toInt left.key_count = (left.key_count.toNat : Int) := toInt_of_lt (by omega)
  have hkc : (left.key_count + right.key_count).toNat =
      left.key_count.toNat + right.key_count.toNat := by
    rw [UInt64.toNat_add]
    omega
  refine ⟨{ left with
    keys := keys, slots := slots, key_count := left.key_count + right.key_count,
    next := right.next }, ?_, rfl, rfl, rfl, ?_, ?_⟩
  · simp only [mergeInto, if_pos hlev, hi, hkeys, hslots, bind, Except.bind]
  · show (left.key_count + right.key_count).toNat ≤ 4
    omega
  · rw [BtreePageData.treeNode_of_le (by rw [hkc]; omega),
      BtreePageData.treeNode_of_le (d := left.toBtreePageData) (by omega),
      BtreePageData.treeNode_of_le (d := right.toBtreePageData) (by omega)]
    simp only [hkc, hcopy]

end Kds
