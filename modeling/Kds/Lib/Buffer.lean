import Mathlib.Data.List.TakeWhile

/-! # Writing into a buffer of fixed size

    A buffer is a list of its cells. `put` replaces the cells from a position
    on; where the block does not end behind the buffer, nothing else changes.
-/

namespace Buffer

universe u

variable {α : Type u}

/-- The buffer with the block `bs` from position `n` on. -/
def put (out : List α) (n : Nat) (bs : List α) : List α :=
  out.take n ++ bs ++ out.drop (n + bs.length)

variable {out bs xs ys : List α} {n k : Nat}

@[simp] theorem put_nil (out : List α) (n : Nat) : put out n [] = out := by
  simp [put]

theorem length_put (h : n + bs.length ≤ out.length) : (put out n bs).length = out.length := by
  unfold put
  rw [List.length_append, List.length_append, List.length_take, List.length_drop]
  omega

/-- Cells before the block stay. -/
theorem take_put (hk : k ≤ n) (h : n ≤ out.length) : (put out n bs).take k = out.take k := by
  unfold put
  rw [List.append_assoc, List.take_append_of_le_length (by rw [List.length_take]; omega),
    List.take_take, Nat.min_eq_left hk]

/-- Cells behind the block stay. -/
theorem drop_put (h : n ≤ out.length) (hk : n + bs.length ≤ k) :
    (put out n bs).drop k = out.drop k := by
  have hlen : (out.take n ++ bs).length = n + bs.length := by
    rw [List.length_append, List.length_take, Nat.min_eq_left h]
  unfold put
  rw [List.drop_append, hlen, List.drop_drop, List.drop_eq_nil_of_le (by omega), List.nil_append]
  congr 1
  omega

/-- What is at the place of the block. -/
theorem take_drop_put (h : n ≤ out.length) : ((put out n bs).drop n).take bs.length = bs := by
  have hlen : (out.take n).length = n := by rw [List.length_take, Nat.min_eq_left h]
  unfold put
  rw [List.append_assoc, List.drop_left' hlen, List.take_left' rfl]

/-- The buffer up to some place in the block. -/
theorem take_put_append (h : n ≤ out.length) :
    (put out n (xs ++ ys)).take (n + xs.length) = out.take n ++ xs := by
  have hlen : (out.take n ++ xs).length = n + xs.length := by
    rw [List.length_append, List.length_take, Nat.min_eq_left h]
  unfold put
  rw [← List.append_assoc, List.append_assoc, List.take_left' hlen]

/-- **Composition**: a block over the end of another one, reaching at least as far. -/
theorem put_put (h : n + xs.length ≤ out.length) (hk : k ≤ xs.length)
    (hend : xs.length ≤ k + ys.length) :
    put (put out n xs) (n + k) ys = put out n (xs.take k ++ ys) := by
  have hn : (out.take n).length = n := by
    rw [List.length_take]
    omega
  have hfront : (put out n xs).take (n + k) = out.take n ++ xs.take k := by
    unfold put
    rw [List.append_assoc, List.take_append, hn, Nat.add_sub_cancel_left,
      List.take_of_length_le (by omega), List.take_append_of_le_length hk]
  have hback : (put out n xs).drop (n + k + ys.length) = out.drop (n + (xs.take k ++ ys).length) := by
    rw [drop_put (by omega) (by omega), List.length_append, List.length_take, Nat.min_eq_left hk,
      Nat.add_assoc]
  rw [put, hfront, hback, put]
  simp only [List.append_assoc]

/-- A block right behind another one. -/
theorem put_append (h : n + xs.length ≤ out.length) :
    put (put out n xs) (n + xs.length) ys = put out n (xs ++ ys) := by
  rw [put_put h (Nat.le_refl _) (Nat.le_add_right _ _), List.take_length]

/-- A block right before another one. -/
theorem put_before (h : n + (xs ++ ys).length ≤ out.length) :
    put (put out (n + xs.length) ys) n xs = put out n (xs ++ ys) := by
  rw [List.length_append] at h
  have hfront := @take_put _ out ys (n + xs.length) n (by omega) (by omega)
  have hback : (put out (n + xs.length) ys).drop (n + xs.length) =
      ys ++ out.drop (n + (xs ++ ys).length) := by
    have hlen : (out.take (n + xs.length)).length = n + xs.length := by
      rw [List.length_take]
      omega
    rw [put, List.append_assoc, List.drop_left' hlen, List.length_append, Nat.add_assoc]
  rw [put, hfront, hback, put]
  simp only [List.append_assoc]

/-- A block written into the part of the buffer from `n` on. -/
theorem put_drop : out.take n ++ put (out.drop n) k bs = put out (n + k) bs := by
  have hfront : out.take n ++ (out.drop n).take k = out.take (n + k) := List.take_add.symm
  unfold put
  rw [List.drop_drop, ← Nat.add_assoc, ← hfront]
  simp only [List.append_assoc]

end Buffer
