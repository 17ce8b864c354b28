import Mathlib.Tactic.Ring
import Kds.Lib.Bytes

/-! # Two's complement

    Signed words are integers cut to their width by `wrap`, and stored as the
    little-endian bytes of their two's complement.
-/

namespace Bytes

/-- The value a signed word of `bits` bits has for `v`. -/
def wrap (bits : Nat) (v : Int) : Int := v.bmod (2 ^ bits)

/-- The low `width` bytes of `v` in two's complement. -/
def intBytes (width : Nat) (v : Int) : List UInt8 :=
  leBytes width (v % (256 ^ width : Nat)).toNat

/-- The signed number a byte string denotes. -/
def bytesInt (bs : List UInt8) : Int := (leNat bs : Int).bmod (256 ^ bs.length)

/-! ### Wrapping -/

@[simp] theorem wrap_wrap (bits : Nat) (v : Int) : wrap bits (wrap bits v) = wrap bits v :=
  Int.bmod_bmod

theorem wrap_add_left (bits : Nat) (v w : Int) : wrap bits (wrap bits v + w) = wrap bits (v + w) :=
  Int.bmod_add_bmod

theorem wrap_mul_left (bits : Nat) (v w : Int) : wrap bits (wrap bits v * w) = wrap bits (v * w) :=
  Int.bmod_mul_bmod

/-- A value in the range of the word is kept. -/
theorem wrap_of_mem {bits : Nat} {v : Int} (hb : 0 < bits) (hlo : -2 ^ (bits - 1) ≤ v)
    (hhi : v < 2 ^ (bits - 1)) : wrap bits v = v := by
  obtain ⟨k, rfl⟩ : ∃ k, bits = k + 1 := ⟨bits - 1, by omega⟩
  unfold wrap
  rw [Nat.add_sub_cancel] at hlo hhi
  have hpow : ((2 ^ (k + 1) : Nat) : Int) = 2 * 2 ^ k := by
    push_cast
    ring
  apply Int.bmod_eq_of_le_mul_two
  · rw [hpow]; omega
  · rw [hpow]; omega

theorem wrap_mem {bits : Nat} (hb : 0 < bits) (v : Int) :
    -2 ^ (bits - 1) ≤ wrap bits v ∧ wrap bits v < 2 ^ (bits - 1) := by
  obtain ⟨k, rfl⟩ : ∃ k, bits = k + 1 := ⟨bits - 1, by omega⟩
  have hpow : ((2 ^ (k + 1) : Nat) : Int) = 2 * 2 ^ k := by
    push_cast
    ring
  have hpos : 0 < 2 ^ (k + 1) := Nat.two_pow_pos _
  have hlo := Int.le_bmod (x := v) hpos
  have hhi := Int.bmod_lt (x := v) hpos
  unfold wrap
  rw [Nat.add_sub_cancel]
  rw [hpow] at hlo hhi
  constructor
  · omega
  · omega

/-! ### Bytes -/

@[simp] theorem length_intBytes (width : Nat) (v : Int) : (intBytes width v).length = width := by
  simp [intBytes]

theorem leBytes_leNat (bs : List UInt8) : leBytes bs.length (leNat bs) = bs := by
  induction bs with
  | nil => rfl
  | cons b bs ih =>
    have hb := b.toNat_lt
    rw [List.length_cons, leBytes, leNat]
    congr 1
    · apply UInt8.toNat_inj.mp
      rw [UInt8.toNat_ofNat']
      omega
    · rw [show (b.toNat + 256 * leNat bs) / 256 = leNat bs by omega]
      exact ih

/-- Reading what was stored gives the word back, cut to the width. -/
theorem bytesInt_intBytes (width : Nat) (v : Int) :
    bytesInt (intBytes width v) = v.bmod (256 ^ width) := by
  have hpos : (0 : Int) < (256 ^ width : Nat) := by
    exact_mod_cast Nat.pow_pos (by decide : 0 < 256)
  have hnat : (((v % (256 ^ width : Nat)).toNat : Nat) : Int) = v % (256 ^ width : Nat) :=
    Int.toNat_of_nonneg (Int.emod_nonneg v (by omega))
  unfold bytesInt
  rw [length_intBytes, intBytes, leNat_leBytes, Int.natCast_emod, hnat,
    Int.emod_emod_of_dvd v (Int.dvd_refl _)]
  exact Int.emod_bmod _ _

/-- Storing what a byte string denotes gives the bytes back. -/
theorem intBytes_bytesInt (bs : List UInt8) : intBytes bs.length (bytesInt bs) = bs := by
  have hlt := leNat_lt bs
  have hmod : (bytesInt bs % (256 ^ bs.length : Nat)).toNat = leNat bs := by
    unfold bytesInt
    rw [Int.bmod_emod]
    rw [Int.emod_eq_of_lt (by omega) (by exact_mod_cast hlt)]
    simp
  unfold intBytes
  rw [hmod, leBytes_leNat]

end Bytes
