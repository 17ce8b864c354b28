import Kds.Lib.Bytes

/-! # Rings of bytes

    A ring of `n` bytes with offsets that only grow: byte `i` of a stream
    lives at index `i % n`. Copies go in and out in two parts when they run
    over the end of the array. `Holds` is the one invariant: the ring holds
    the end of a stream, from a byte `F` that has not been released on.
-/

open Bytes

namespace Ring

/-- Copies `bs`, which is no longer than the ring, to index `idx`, in two parts when it
    runs over the end. -/
def copyIn (m : Mem) (n idx : Nat) (bs : List UInt8) : Mem :=
  if idx + bs.length ≤ n then m.write idx bs
  else (m.write idx (bs.take (n - idx))).write 0 (bs.drop (n - idx))

/-- The `len` bytes from offset `off` on. -/
def window (m : Mem) (n off len : Nat) : List UInt8 :=
  (List.range len).map fun i => m ((off + i) % n)

@[simp] theorem length_window (m : Mem) (n off len : Nat) : (window m n off len).length = len := by
  simp [window]

theorem window_mod (m : Mem) (n off len : Nat) : window m n (off % n) len = window m n off len := by
  simp [window]

theorem window_add (m : Mem) (n off a b : Nat) :
    window m n off (a + b) = window m n off a ++ window m n (off + a) b := by
  simp only [window, List.range_add, List.map_append, List.map_map]
  congr 1
  apply List.map_congr_left
  intro i _
  simp [Nat.add_assoc]

/-- A window that does not run over the end. -/
theorem window_eq_read (m : Mem) {n idx len : Nat} (h : idx + len ≤ n) :
    window m n idx len = m.read idx len := by
  apply List.map_congr_left
  intro i hi
  rw [Nat.mod_eq_of_lt]
  have := List.mem_range.mp hi
  omega

theorem copyIn_at (m : Mem) {n idx k : Nat} {bs : List UInt8} (hidx : idx < n)
    (hlen : bs.length ≤ n) (hk : k < bs.length) :
    copyIn m n idx bs ((idx + k) % n) = bs[k] := by
  unfold copyIn
  by_cases hfit : idx + bs.length ≤ n
  · rw [if_pos hfit, Nat.mod_eq_of_lt (by omega), Mem.write_inside m hk]
  · rw [if_neg hfit]
    rcases Nat.lt_or_ge (idx + k) n with hlt | hge
    · -- in the first part
      have htake : k < (bs.take (n - idx)).length := by rw [List.length_take]; omega
      rw [Nat.mod_eq_of_lt hlt, Mem.write_outside _ (by rw [List.length_drop]; omega),
        Mem.write_inside m htake, List.getElem_take]
    · -- in the second part, at the front of the array
      have hmod : (idx + k) % n = 0 + (idx + k - n) := by
        rw [Nat.mod_eq_sub_mod hge, Nat.mod_eq_of_lt (by omega), Nat.zero_add]
      have hdrop : idx + k - n < (bs.drop (n - idx)).length := by rw [List.length_drop]; omega
      rw [hmod, Mem.write_inside _ hdrop, List.getElem_drop]
      congr 1
      omega

theorem copyIn_other (m : Mem) {n idx j : Nat} {bs : List UInt8} (hidx : idx < n)
    (hj : bs.length ≤ j) (hjn : j < n) :
    copyIn m n idx bs ((idx + j) % n) = m ((idx + j) % n) := by
  unfold copyIn
  rcases Nat.lt_or_ge (idx + j) n with hlt | hge
  · rw [Nat.mod_eq_of_lt hlt, if_pos (by omega), Mem.write_outside m (by omega)]
  · have hmod : (idx + j) % n = idx + j - n := by
      rw [Nat.mod_eq_sub_mod hge, Nat.mod_eq_of_lt (by omega)]
    rw [hmod]
    by_cases hfit : idx + bs.length ≤ n
    · rw [if_pos hfit, Mem.write_outside m (by omega)]
    · rw [if_neg hfit, Mem.write_outside _ (by rw [List.length_drop]; omega),
        Mem.write_outside m (by rw [List.length_take]; omega)]

/-- Bytes that fit behind a window make it longer, whatever they overwrite
    outside it. -/
theorem window_copyIn (m : Mem) {n F used : Nat} {bs : List UInt8} (hn : 0 < n)
    (hfit : used + bs.length ≤ n) :
    window (copyIn m n ((F + used) % n) bs) n F (used + bs.length) = window m n F used ++ bs := by
  have hidx : (F + used) % n < n := Nat.mod_lt _ hn
  rw [window_add]
  congr 1
  · -- an old byte lies behind the new ones, once round
    apply List.map_congr_left
    intro i hi
    have hi := List.mem_range.mp hi
    have hround : (F + i) % n = ((F + used) % n + (n - used + i)) % n := by
      rw [Nat.mod_add_mod, show F + used + (n - used + i) = F + i + n by omega, Nat.add_mod_right]
    rw [hround]
    exact copyIn_other m hidx (by omega) (by omega)
  · apply List.ext_getElem
    · simp
    · intro i _ hi
      simp only [window, List.getElem_map, List.getElem_range]
      rw [← Nat.mod_add_mod (F + used) n i]
      exact copyIn_at m hidx (by omega) hi

/-- The ring holds the bytes of the stream `S` from `F` on. -/
structure Holds (m : Mem) (n : Nat) (S : List UInt8) (F : Nat) : Prop where
  le : F ≤ S.length
  fits : S.length ≤ F + n
  byte : ∀ i (h : i < S.length), F ≤ i → m (i % n) = S[i]

/-- Bytes of the stream that are still in the ring. -/
theorem Holds.window_eq {m : Mem} {n : Nat} {S : List UInt8} {F : Nat} (h : Holds m n S F)
    {P len : Nat} (hP : F ≤ P) (hlen : P + len ≤ S.length) :
    window m n P len = (S.drop P).take len := by
  apply List.ext_getElem
  · rw [length_window, List.length_take, List.length_drop]
    omega
  · intro i h₁ h₂
    rw [length_window] at h₁
    simp only [window, List.getElem_map, List.getElem_range, List.getElem_take, List.getElem_drop]
    exact h.byte (P + i) (by omega) (by omega)

/-- Releasing bytes. -/
theorem Holds.release {m : Mem} {n : Nat} {S : List UInt8} {F F' : Nat} (h : Holds m n S F)
    (hF : F ≤ F') (hF' : F' ≤ S.length) : Holds m n S F' :=
  ⟨hF', by have := h.fits; omega, fun i hi hle => h.byte i hi (Nat.le_trans hF hle)⟩

/-- Adding bytes that fit. -/
theorem Holds.append {m : Mem} {n : Nat} {S : List UInt8} {F : Nat} (h : Holds m n S F) (hn : 0 < n)
    {bs : List UInt8} (hfit : S.length + bs.length ≤ F + n) :
    Holds (copyIn m n (S.length % n) bs) n (S ++ bs) F := by
  have hle := h.le
  have hidx : S.length % n < n := Nat.mod_lt _ hn
  refine ⟨by rw [List.length_append]; omega, by rw [List.length_append]; omega, fun i hi hFi => ?_⟩
  rw [List.length_append] at hi
  rcases Nat.lt_or_ge i S.length with hold | hnew
  · -- an old byte: its index lies behind the new ones, once round
    have hmod : i % n = (S.length % n + (i + n - S.length)) % n := by
      rw [Nat.mod_add_mod, show S.length + (i + n - S.length) = i + n by omega, Nat.add_mod_right]
    rw [List.getElem_append_left hold, hmod, copyIn_other m hidx (by omega) (by omega), ← hmod]
    exact h.byte i hold hFi
  · have hmod : i % n = (S.length % n + (i - S.length)) % n := by
      rw [Nat.mod_add_mod, show S.length + (i - S.length) = i by omega]
    rw [List.getElem_append_right hnew, hmod, copyIn_at m hidx (by omega) (by omega)]

end Ring
