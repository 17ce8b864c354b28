import Kds.Btree.Index
import Kds.Lib.Signed

/-! # The four position loops

    The place of a key in a node is computed in four places: in `btree.c` once
    by a walk and once by halving, and by a walk each in `exec_btree_insert.c`
    and `relation.c`. On keys in strict order all four count the smaller keys.

    The loops are for arrays of any length here, and for any signed type in
    place of `int` that holds twice the number of keys; a node has four keys at
    most, and `int` has 32 bits. Halving takes a number of turns, and has no
    result when these are used up.
-/

open Bytes SearchTree

namespace Kds

/-! ## Section 1: The routines -/

section routines

variable {m : Nat} (asInt : Int → Int) (keys : Vector TupleId m) (key_count : Nat) (key : TupleId)

/-- `while (left <= right) { ... } return pos;`, with `asInt v` the value an
    `int` has for `v`. -/
def halveFrom : (turns : Nat) → (left right pos : Int) → Option (Except Fault Int)
  | 0, _, _, _ => none
  | turns + 1, left, right, pos =>
      if left ≤ right then
        let mid := (asInt (left + right)).tdiv 2
        match arrGet keys mid with
        | .error f => some (.error f)
        | .ok k =>
            if key < k then halveFrom turns left (asInt (mid - 1)) mid
            else if key > k then halveFrom turns (asInt (mid + 1)) right (asInt (mid + 1))
            else some (.ok mid)
      else some (.ok pos)

/-- `btree_search_position`. -/
def searchPosition : Except Fault Int :=
  searchFrom keys key (asInt key_count) 0 (asInt key_count).toNat

/-- `btree_search_position_binary`. -/
def searchPositionBinary (turns : Nat) : Option (Except Fault Int) :=
  halveFrom asInt keys key turns 0 (asInt (key_count - 1)) 0

/-- The position loop of `btree_insert_run_search_and_prepare`, which compares
    its counter with the `u64`. -/
def preparePosition : Except Fault Int := searchFrom keys key (asInt key_count) 0 key_count

/-- The position loop of `kds_index_search`. -/
def indexPosition : Except Fault Int := descendFrom keys key (asInt key_count) 0 key_count

end routines

/-- The `btree_search_position_binary` of a node. -/
def btree_search_position_binary (node : BtreePageData) (key : TupleId) (turns : Nat) :
    Option (Except Fault Int) :=
  halveFrom (wrap 32) node.keys key turns 0 (toInt (node.key_count - 1)) 0

/-! ## Section 2: Halving -/

section halving

variable {m : Nat} {asInt : Int → Int} {keys : Vector TupleId m} {n : Nat} {key : TupleId}

/-- The keys that count. -/
abbrev keysOf (keys : Vector TupleId m) (n : Nat) : List TupleId := keys.toList.take n

theorem keysOf_get {i : Nat} (hi : i < n) (him : i < m) : (keysOf keys n)[i]? = some keys[i] := by
  rw [keysOf, List.getElem?_take_of_lt hi, List.getElem?_eq_getElem (by simpa using him)]
  simp

/-- **Halving**: the position lies between `left` and `right + 1`, and `pos` is
    one of the two. -/
theorem halveFrom_spec (hn : n ≤ m) (hs : (keysOf keys n).Pairwise (· < ·))
    (hint : ∀ v : Int, -1 ≤ v → v ≤ 2 * n → asInt v = v) (turns : Nat) :
    ∀ left right pos : Int, 0 ≤ left → right + 1 ≤ n → left ≤ right + 1 →
      left ≤ position key (keysOf keys n) → position key (keysOf keys n) ≤ right + 1 →
      (pos = left ∨ pos = right + 1) → right + 1 - left < turns →
      halveFrom asInt keys key turns left right pos =
        some (.ok (position key (keysOf keys n) : Nat)) := by
  induction turns with
  | zero => intros; omega
  | succ turns ih =>
    intro left right pos hleft hright hcross hlo hhi hpos hturns
    rw [halveFrom]
    by_cases hle : left ≤ right
    · rw [if_pos hle, hint _ (by omega) (by omega)]
      -- the middle lies between the bounds, so it is an index
      have hmid : (left + right).tdiv 2 = (((left + right) / 2).toNat : Nat) := by
        rw [Int.tdiv_eq_ediv_of_nonneg (by omega)]
        omega
      have hbounds : left ≤ ((left + right) / 2).toNat ∧ (((left + right) / 2).toNat : Int) ≤ right := by
        omega
      rw [hmid]
      generalize ((left + right) / 2).toNat = mid at hbounds
      have hmidm : mid < m := by omega
      have hget := @keysOf_get m keys n mid (by omega) hmidm
      dsimp only
      rw [arrGet_nat keys hmidm]
      dsimp only
      by_cases hlt : key < keys[mid]
      -- the key is left of the middle
      · have hpos' := position_le_of_le hget (le_of_lt hlt)
        rw [if_pos hlt, hint _ (by omega) (by omega)]
        exact ih left (mid - 1) mid hleft (by omega) (by omega) hlo (by omega) (by omega) (by omega)
      · rw [if_neg hlt]
        by_cases hgt : key > keys[mid]
        -- it is right of the middle
        · have hpos' := lt_position (hs.imp le_of_lt) hget hgt
          rw [if_pos hgt, hint _ (by omega) (by omega)]
          exact ih (mid + 1) right (mid + 1) (by omega) hright (by omega) (by omega) hhi (by omega)
            (by omega)
        · -- the key itself
          rw [if_neg hgt]
          have heq : keys[mid] = key := le_antisymm (not_lt.mp hlt) (not_lt.mp hgt)
          rw [heq] at hget
          rw [position_of_getElem? hs hget]
    -- the bounds have crossed
    · rw [if_neg hle]
      obtain rfl : pos = (position key (keysOf keys n) : Nat) := by omega
      rfl

/-- All four loops, on keys of any number. -/
theorem positions_spec (hn : n ≤ m) (hs : (keysOf keys n).Pairwise (· < ·))
    (hint : ∀ v : Int, -1 ≤ v → v ≤ 2 * n → asInt v = v) :
    searchPosition asInt keys n key = .ok ((keysOf keys n).countP (· < key) : Nat) ∧
      (∀ turns > n, searchPositionBinary asInt keys n key turns =
        some (.ok ((keysOf keys n).countP (· < key) : Nat))) ∧
      preparePosition asInt keys n key = .ok ((keysOf keys n).countP (· < key) : Nat) ∧
      indexPosition asInt keys n key = .ok ((keysOf keys n).countP (· < key) : Nat) := by
  have hcount : asInt (n : Int) = n := hint n (by omega) (by omega)
  have hwalk : searchFrom keys key n 0 n = .ok (position key (keysOf keys n) : Nat) := by
    have h := @searchFrom_spec m keys key n hn n 0 (Nat.zero_add n)
    rwa [Nat.zero_add, List.drop_zero] at h
  have hle : position key (keysOf keys n) ≤ n :=
    (position_le key _).trans (by simp)
  rw [← position_eq_countP hs]
  refine ⟨?_, fun turns hturns => ?_, ?_, ?_⟩
  · rw [searchPosition, hcount, Int.toNat_natCast]
    exact hwalk
  · rw [searchPositionBinary, hint _ (by omega) (by omega)]
    exact halveFrom_spec hn hs hint turns 0 (n - 1) 0 (Int.le_refl 0) (by omega) (by omega)
      (by omega) (by omega) (Or.inl rfl) (by omega)
  · rw [preparePosition, hcount]
    exact hwalk
  · rw [indexPosition, hcount, descendFrom_eq]
    exact hwalk

end halving

/-! ## Section 3: The loops of a node -/

section node

theorem toInt_eq_wrap (x : UInt64) : toInt x = wrap 32 x.toNat := by
  have h32 : x.toUInt32.toNat = x.toNat % 2 ^ 32 := UInt64.toNat_toUInt32 x
  unfold toInt wrap
  rw [← Int32.toInt_toBitVec, UInt32.toBitVec_toInt32, BitVec.toInt_eq_toNat_bmod]
  show Int.bmod (x.toUInt32.toNat : Int) (2 ^ 32) = _
  rw [h32]
  exact Int.emod_bmod x.toNat (2 ^ 32)

/-- `node->key_count - 1` is -1 in a node without keys, as a `u64` cut to an `int`. -/
theorem toInt_sub_one (x : UInt64) : toInt (x - 1) = wrap 32 (x.toNat - 1) := by
  rw [toInt_eq_wrap]
  by_cases hzero : x = 0
  · subst hzero
    decide
  · have hpos : 1 ≤ x := by
      rw [UInt64.le_iff_toNat_le]
      exact Nat.one_le_iff_ne_zero.mpr fun h => hzero (UInt64.toNat_inj.mp h)
    have hone : (1 : Nat) ≤ x.toNat := UInt64.le_iff_toNat_le.mp hpos
    rw [UInt64.toNat_sub_of_le _ _ hpos, UInt64.toNat_one, Nat.cast_sub hone]
    rfl

theorem search_position_eq (d : BtreePageData) (key : TupleId) :
    btree_search_position d key = searchPosition (wrap 32) d.keys d.key_count.toNat key := by
  unfold btree_search_position searchPosition
  rw [toInt_eq_wrap]

theorem search_position_binary_eq (d : BtreePageData) (key : TupleId) (turns : Nat) :
    btree_search_position_binary d key turns =
      searchPositionBinary (wrap 32) d.keys d.key_count.toNat key turns := by
  rw [btree_search_position_binary, toInt_sub_one]
  rfl

/-- An `int` holds the positions in a node, and the sums of two of them. -/
theorem wrap_position {n : Nat} (hn : n ≤ 4) (v : Int) (hlo : -1 ≤ v) (hhi : v ≤ 2 * n) :
    wrap 32 v = v := wrap_of_mem (by decide) (by omega) (by omega)

/-- **Agreement of the position loops**: on keys in strict order, of any number,
    all four return how many are smaller; so they do on the keys of a node. -/
theorem position_loops_agree :
    (∀ (m n : Nat) (keys : Vector TupleId m) (key : TupleId) (asInt : Int → Int), n ≤ m →
      (keysOf keys n).Pairwise (· < ·) → (∀ v : Int, -1 ≤ v → v ≤ 2 * n → asInt v = v) →
      searchPosition asInt keys n key = .ok ((keysOf keys n).countP (· < key) : Nat) ∧
        (∀ turns > n, searchPositionBinary asInt keys n key turns =
          some (.ok ((keysOf keys n).countP (· < key) : Nat))) ∧
        preparePosition asInt keys n key = .ok ((keysOf keys n).countP (· < key) : Nat) ∧
        indexPosition asInt keys n key = .ok ((keysOf keys n).countP (· < key) : Nat)) ∧
    ∀ (d : BtreePageData) (key : TupleId), d.key_count.toNat ≤ BTREE_MAX_KEYS →
      (keysOf d.keys d.key_count.toNat).Pairwise (· < ·) →
      btree_search_position d key =
          .ok ((keysOf d.keys d.key_count.toNat).countP (· < key) : Nat) ∧
        (∀ turns > BTREE_MAX_KEYS, btree_search_position_binary d key turns =
          some (.ok ((keysOf d.keys d.key_count.toNat).countP (· < key) : Nat))) ∧
        searchFrom d.keys key (toInt d.key_count) 0 d.key_count.toNat =
          .ok ((keysOf d.keys d.key_count.toNat).countP (· < key) : Nat) ∧
        descendFrom d.keys key (toInt d.key_count) 0 d.key_count.toNat =
          .ok ((keysOf d.keys d.key_count.toNat).countP (· < key) : Nat) := by
  constructor
  · intro m n keys key asInt hn hs hint
    exact positions_spec hn hs hint
  · intro d key hn hs
    obtain ⟨hwalk, hhalve, hprepare, hindex⟩ :=
      @positions_spec 4 (wrap 32) d.keys d.key_count.toNat key hn hs (wrap_position hn)
    refine ⟨?_, fun turns hturns => ?_, ?_, ?_⟩
    · rw [search_position_eq]
      exact hwalk
    · rw [search_position_binary_eq]
      exact hhalve turns (Nat.lt_of_le_of_lt hn hturns)
    · rw [toInt_eq_wrap]
      exact hprepare
    · rw [toInt_eq_wrap]
      exact hindex

/-- Three keys out of four cells: 25 comes behind two of them. -/
theorem position_loops_agree_three :
    searchPosition (wrap 32) #v[10, 20, 30, 0] 3 25 = .ok 2 ∧
      searchPositionBinary (wrap 32) #v[10, 20, 30, 0] 3 25 4 = some (.ok 2) ∧
      preparePosition (wrap 32) #v[10, 20, 30, 0] 3 25 = .ok 2 ∧
      indexPosition (wrap 32) #v[10, 20, 30, 0] 3 25 = .ok 2 := by
  obtain ⟨hwalk, hhalve, hprepare, hindex⟩ := position_loops_agree.1 4 3 #v[10, 20, 30, 0] 25
    (wrap 32) (by decide) (by decide) (wrap_position (by decide))
  exact ⟨hwalk, hhalve 4 (by decide), hprepare, hindex⟩

end node

end Kds
