import Kds.Lib.Bytes

/-! # Packed structures

    A packed structure is the concatenation of its fields. Each reader takes
    one field off the front and leaves the rest, so a structure is read back
    by the readers of its fields, one after the other. The lemmas say that a
    reader undoes the field's bytes; they are simp lemmas, so `simp` reads a
    whole structure.
-/

namespace Bytes

def getU8 (bs : List UInt8) : UInt8 × List UInt8 := (bs.headD 0, bs.tail)

def getU32 (bs : List UInt8) : UInt32 × List UInt8 :=
  (UInt32.ofNat (leNat (bs.take 4)), bs.drop 4)

def getU64 (bs : List UInt8) : UInt64 × List UInt8 :=
  (UInt64.ofNat (leNat (bs.take 8)), bs.drop 8)

def getArray (k : Nat) (bs : List UInt8) : (Fin k → UInt8) × List UInt8 :=
  (fun i => bs.getD i 0, bs.drop k)

@[simp] theorem getU8_cons (b : UInt8) (rest : List UInt8) : getU8 (b :: rest) = (b, rest) := rfl

@[simp] theorem getU32_append (v : UInt32) (rest : List UInt8) :
    getU32 (u32Bytes v ++ rest) = (v, rest) := by
  have hlt := v.toNat_lt
  have hval : leNat (u32Bytes v) = v.toNat := by
    unfold u32Bytes
    rw [leNat_leBytes]
    exact Nat.mod_eq_of_lt (by omega)
  unfold getU32
  rw [List.take_left' (length_u32Bytes v), List.drop_left' (length_u32Bytes v), hval]
  simp

@[simp] theorem getU64_append (v : UInt64) (rest : List UInt8) :
    getU64 (u64Bytes v ++ rest) = (v, rest) := by
  have hlt := v.toNat_lt
  have hval : leNat (u64Bytes v) = v.toNat := by
    unfold u64Bytes
    rw [leNat_leBytes]
    exact Nat.mod_eq_of_lt (by omega)
  unfold getU64
  rw [List.take_left' (length_u64Bytes v), List.drop_left' (length_u64Bytes v), hval]
  simp

@[simp] theorem getArray_append {k : Nat} (data : Fin k → UInt8) (rest : List UInt8) :
    getArray k (List.ofFn data ++ rest) = (data, rest) := by
  have hlen : (List.ofFn data).length = k := List.length_ofFn
  unfold getArray
  rw [List.drop_left' hlen]
  apply Prod.ext
  · funext i
    dsimp only
    rw [List.getD_append _ _ _ _ (by rw [hlen]; exact i.isLt)]
    simp
  · rfl

end Bytes
