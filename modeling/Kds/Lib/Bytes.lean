import Mathlib.Algebra.Group.Nat.Defs
import Mathlib.Data.List.GetD

/-! # Byte memory

    A memory is a total map from addresses to bytes: the bytes of a buffer
    as seen from its first one, with whatever lies behind it. Structures are
    read and written as little-endian byte strings, the way `memcpy` of a
    packed C struct moves them.

    The lemmas are of three kinds: what a write changes, what a read sees
    after a write (the written bytes, or nothing new), and that the
    little-endian codecs round-trip.
-/

namespace Bytes

/-! ## Section 1: Memory -/

/-- Bytes by address. -/
abbrev Mem := Nat → UInt8

namespace Mem

/-- The `len` bytes from `off` on. -/
def read (m : Mem) (off len : Nat) : List UInt8 :=
  (List.range len).map fun i => m (off + i)

/-- Replaces the bytes from `off` on by `bs`. -/
def write (m : Mem) (off : Nat) (bs : List UInt8) : Mem :=
  fun a => if off ≤ a ∧ a < off + bs.length then bs.getD (a - off) 0 else m a

@[simp] theorem length_read (m : Mem) (off len : Nat) : (m.read off len).length = len := by
  simp [read]

@[simp] theorem read_zero (m : Mem) (off : Nat) : m.read off 0 = [] := rfl

theorem read_add (m : Mem) (off a b : Nat) :
    m.read off (a + b) = m.read off a ++ m.read (off + a) b := by
  simp only [read, List.range_add, List.map_append, List.map_map]
  congr 1
  apply List.map_congr_left
  intro i _
  simp [Nat.add_assoc]

/-- The front of what was read. -/
theorem take_read (m : Mem) (off : Nat) {a b : Nat} (h : a ≤ b) :
    (m.read off b).take a = m.read off a := by
  obtain ⟨c, rfl⟩ := Nat.exists_eq_add_of_le h
  rw [read_add, List.take_left' (length_read m off a)]

@[simp] theorem getElem_read (m : Mem) (off len i : Nat) (h : i < (m.read off len).length) :
    (m.read off len)[i] = m (off + i) := by
  simp [read]

/-- Reads depend only on the bytes they cover. -/
theorem read_congr {m m' : Mem} {off len : Nat}
    (h : ∀ a, off ≤ a → a < off + len → m a = m' a) : m.read off len = m'.read off len := by
  apply List.map_congr_left
  intro i hi
  rw [List.mem_range] at hi
  exact h (off + i) (by omega) (by omega)

theorem write_outside (m : Mem) {off a : Nat} {bs : List UInt8}
    (h : a < off ∨ off + bs.length ≤ a) : m.write off bs a = m a := by
  unfold write
  rw [if_neg (by omega)]

theorem write_inside (m : Mem) {off i : Nat} {bs : List UInt8} (h : i < bs.length) :
    m.write off bs (off + i) = bs[i] := by
  unfold write
  rw [if_pos (by omega), Nat.add_sub_cancel_left]
  simp [h]

@[simp] theorem write_nil (m : Mem) (off : Nat) : m.write off [] = m := by
  funext a
  exact write_outside m (by simp; omega)

/-- A read that does not meet the written range is not affected by the write. -/
theorem read_write_disjoint (m : Mem) {off len woff : Nat} {bs : List UInt8}
    (h : off + len ≤ woff ∨ woff + bs.length ≤ off) :
    (m.write woff bs).read off len = m.read off len := by
  apply read_congr
  intro a ha ha'
  exact write_outside m (by omega)

/-- Reading a middle part of what was written. -/
theorem read_write_mid (m : Mem) (off : Nat) (xs bs ys : List UInt8) :
    (m.write off (xs ++ bs ++ ys)).read (off + xs.length) bs.length = bs := by
  apply List.ext_getElem
  · simp
  · intro i hi hi'
    rw [getElem_read, Nat.add_assoc, write_inside m (by simp; omega)]
    rw [List.getElem_append_left (by simp; omega), List.getElem_append_right (by omega)]
    simp

theorem read_write_same (m : Mem) (off : Nat) (bs : List UInt8) :
    (m.write off bs).read off bs.length = bs := by
  simpa using read_write_mid m off [] bs []

/-- A middle part of what a read sees. -/
theorem read_mid_of_read {m : Mem} {off n : Nat} (xs ys zs : List UInt8)
    (h : m.read off n = xs ++ ys ++ zs) : m.read (off + xs.length) ys.length = ys := by
  have hn : n = xs.length + ys.length + zs.length := by
    rw [← length_read m off n, h, List.length_append, List.length_append]
  rw [hn, read_add, read_add] at h
  have hleft := (List.append_inj h (by simp)).1
  exact (List.append_inj hleft (by simp)).2

end Mem

/-! ## Section 2: Little-endian words -/

/-- The `n` low bytes of `x`, least significant first. -/
def leBytes : Nat → Nat → List UInt8
  | 0, _ => []
  | n + 1, x => UInt8.ofNat x :: leBytes n (x / 256)

/-- The number a little-endian byte string denotes. -/
def leNat : List UInt8 → Nat
  | [] => 0
  | b :: bs => b.toNat + 256 * leNat bs

@[simp] theorem length_leBytes (n x : Nat) : (leBytes n x).length = n := by
  induction n generalizing x with
  | zero => rfl
  | succ n ih => simp [leBytes, ih]

theorem leNat_leBytes (n x : Nat) : leNat (leBytes n x) = x % 256 ^ n := by
  induction n generalizing x with
  | zero => simp [leBytes, leNat, Nat.mod_one]
  | succ n ih =>
    have hpow : 256 ^ (n + 1) = 256 * 256 ^ n := by rw [Nat.pow_succ, Nat.mul_comm]
    rw [leBytes, leNat, ih, UInt8.toNat_ofNat', hpow, Nat.mod_mul]

theorem leNat_lt (bs : List UInt8) : leNat bs < 256 ^ bs.length := by
  induction bs with
  | nil => simp [leNat]
  | cons b bs ih =>
    have hb := b.toNat_lt
    simp only [leNat, List.length_cons, Nat.pow_succ]
    omega

theorem eq_zero_of_leNat {bs : List UInt8} (h : leNat bs = 0) : ∀ b ∈ bs, b = 0 := by
  induction bs with
  | nil => simp
  | cons b bs ih =>
    simp only [leNat] at h
    have hb : b = 0 := UInt8.toNat_inj.mp (show b.toNat = 0 by omega)
    intro c hc
    rcases List.mem_cons.mp hc with rfl | hc
    · exact hb
    · exact ih (by omega) c hc

/-- Little-endian bytes of a 16-, 32- and 64-bit word. -/
def u16Bytes (x : UInt16) : List UInt8 := leBytes 2 x.toNat
def u32Bytes (x : UInt32) : List UInt8 := leBytes 4 x.toNat
def u64Bytes (x : UInt64) : List UInt8 := leBytes 8 x.toNat

@[simp] theorem length_u16Bytes (x : UInt16) : (u16Bytes x).length = 2 := length_leBytes _ _
@[simp] theorem length_u32Bytes (x : UInt32) : (u32Bytes x).length = 4 := length_leBytes _ _
@[simp] theorem length_u64Bytes (x : UInt64) : (u64Bytes x).length = 8 := length_leBytes _ _

namespace Mem

def readU16 (m : Mem) (off : Nat) : UInt16 := UInt16.ofNat (leNat (m.read off 2))
def readU32 (m : Mem) (off : Nat) : UInt32 := UInt32.ofNat (leNat (m.read off 4))
def readU64 (m : Mem) (off : Nat) : UInt64 := UInt64.ofNat (leNat (m.read off 8))

theorem readU16_of_read {m : Mem} {off : Nat} {x : UInt16}
    (h : m.read off 2 = u16Bytes x) : m.readU16 off = x := by
  rw [readU16, h, u16Bytes, leNat_leBytes]
  have := x.toNat_lt
  rw [Nat.mod_eq_of_lt (by omega), UInt16.ofNat_toNat]

theorem readU32_of_read {m : Mem} {off : Nat} {x : UInt32}
    (h : m.read off 4 = u32Bytes x) : m.readU32 off = x := by
  rw [readU32, h, u32Bytes, leNat_leBytes]
  have := x.toNat_lt
  rw [Nat.mod_eq_of_lt (by omega), UInt32.ofNat_toNat]

theorem readU64_of_read {m : Mem} {off : Nat} {x : UInt64}
    (h : m.read off 8 = u64Bytes x) : m.readU64 off = x := by
  rw [readU64, h, u64Bytes, leNat_leBytes]
  have := x.toNat_lt
  rw [Nat.mod_eq_of_lt (by omega), UInt64.ofNat_toNat]

/-! Reading one field of a struct that has just been written: `xs` are the
    bytes of the fields before it, `ys` of those after it. -/

theorem readU16_write_mid (m : Mem) (off : Nat) (xs ys : List UInt8) (x : UInt16) :
    (m.write off (xs ++ u16Bytes x ++ ys)).readU16 (off + xs.length) = x := by
  apply readU16_of_read
  simpa using read_write_mid m off xs (u16Bytes x) ys

theorem readU64_write_mid (m : Mem) (off : Nat) (xs ys : List UInt8) (x : UInt64) :
    (m.write off (xs ++ u64Bytes x ++ ys)).readU64 (off + xs.length) = x := by
  apply readU64_of_read
  simpa using read_write_mid m off xs (u64Bytes x) ys

theorem byte_write_mid (m : Mem) (off : Nat) (xs ys : List UInt8) (x : UInt8) :
    m.write off (xs ++ [x] ++ ys) (off + xs.length) = x := by
  rw [write_inside m (by simp)]
  simp

/-- A zero word is eight zero bytes. -/
theorem byte_of_readU64_zero {m : Mem} {off : Nat} (h : m.readU64 off = 0) {a : Nat} (ha : off ≤ a)
    (ha' : a < off + 8) : m a = 0 := by
  have hzero : leNat (m.read off 8) = 0 := by
    have hlt := leNat_lt (m.read off 8)
    have hnat := congrArg UInt64.toNat h
    rw [readU64, UInt64.toNat_ofNat'] at hnat
    simp at hnat hlt
    omega
  refine eq_zero_of_leNat hzero _ (List.mem_map.mpr ⟨a - off, List.mem_range.mpr (by omega), ?_⟩)
  rw [Nat.add_sub_cancel' ha]

theorem readU16_congr {m m' : Mem} {off : Nat}
    (h : ∀ a, off ≤ a → a < off + 2 → m a = m' a) : m.readU16 off = m'.readU16 off := by
  unfold readU16
  rw [read_congr h]

theorem readU64_congr {m m' : Mem} {off : Nat}
    (h : ∀ a, off ≤ a → a < off + 8 → m a = m' a) : m.readU64 off = m'.readU64 off := by
  unfold readU64
  rw [read_congr h]

end Mem

end Bytes
