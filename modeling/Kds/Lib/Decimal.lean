import Mathlib.Data.Nat.Digits.Defs
import Mathlib.Tactic.Ring
import Mathlib.Tactic.IntervalCases

/-! # Decimal numerals as bytes

    ASCII digits, the number a string of digits denotes, the numeral of a
    number, numerals padded with zeros to a width, and signed numerals. The
    main facts are that reading a numeral gives the number back, whatever
    padding it has, and how the value of a longer string is made up.
-/

namespace Decimal

/-- An ASCII digit. -/
def isDigit (c : UInt8) : Bool := decide (48 ≤ c) && decide (c ≤ 57)

/-- The value of an ASCII digit. -/
def digitVal (c : UInt8) : Nat := c.toNat - 48

/-- The ASCII digit of value `d`. -/
def digit (d : Nat) : UInt8 := UInt8.ofNat (48 + d)

/-- The number a string of digits denotes. -/
def value (cs : List UInt8) : Nat := cs.foldl (fun v c => v * 10 + digitVal c) 0

/-- The shortest string of digits that denotes `n`. -/
def numeral (n : Nat) : List UInt8 := (Nat.toDigits 10 n).map fun c => UInt8.ofNat c.toNat

/-- The numeral of `n` with zeros in front, up to `width` digits. -/
def padded (width n : Nat) : List UInt8 :=
  List.replicate (width - (numeral n).length) (digit 0) ++ numeral n

/-- The numeral of an integer, with a minus sign if it is negative. -/
def signed (v : Int) : List UInt8 :=
  if v < 0 then 45 :: numeral v.natAbs else numeral v.natAbs

/-! ### Digits -/

theorem isDigit_digit {d : Nat} (h : d < 10) : isDigit (digit d) = true := by
  interval_cases d <;> decide

theorem digitVal_digit {d : Nat} (h : d < 10) : digitVal (digit d) = d := by
  interval_cases d <;> decide

theorem isDigit_iff (c : UInt8) : isDigit c = true ↔ 48 ≤ c.toNat ∧ c.toNat ≤ 57 := by
  simp [isDigit, UInt8.le_iff_toNat_le]

theorem digitVal_lt {c : UInt8} (h : isDigit c = true) : digitVal c < 10 := by
  have := (isDigit_iff c).mp h
  unfold digitVal
  omega

/-! ### Values -/

theorem foldl_value (v : Nat) (cs : List UInt8) :
    cs.foldl (fun v c => v * 10 + digitVal c) v = v * 10 ^ cs.length + value cs := by
  induction cs generalizing v with
  | nil => simp [value]
  | cons c cs ih =>
    unfold value
    rw [List.foldl_cons, List.foldl_cons, ih, ih (0 * 10 + digitVal c), List.length_cons,
      Nat.pow_succ]
    ring

@[simp] theorem value_nil : value [] = 0 := rfl

theorem value_append (xs ys : List UInt8) :
    value (xs ++ ys) = value xs * 10 ^ ys.length + value ys := by
  unfold value
  rw [List.foldl_append, foldl_value]
  rfl

theorem value_cons (c : UInt8) (cs : List UInt8) :
    value (c :: cs) = digitVal c * 10 ^ cs.length + value cs := by
  unfold value
  rw [List.foldl_cons, foldl_value]
  simp [value]

@[simp] theorem value_zeros (k : Nat) : value (List.replicate k (digit 0)) = 0 := by
  induction k with
  | zero => rfl
  | succ k ih => rw [List.replicate_succ, value_cons, ih, digitVal_digit (by decide)]; simp

/-- A string of `k` digits denotes a number below `10 ^ k`. -/
theorem value_lt {cs : List UInt8} (h : ∀ c ∈ cs, isDigit c = true) :
    value cs < 10 ^ cs.length := by
  induction cs with
  | nil => simp
  | cons c cs ih =>
    have hc := digitVal_lt (h c (by simp))
    have hcs := ih fun d hd => h d (by simp [hd])
    rw [value_cons, List.length_cons, Nat.pow_succ]
    calc digitVal c * 10 ^ cs.length + value cs
        < digitVal c * 10 ^ cs.length + 10 ^ cs.length := by omega
      _ = (digitVal c + 1) * 10 ^ cs.length := by ring
      _ ≤ 10 * 10 ^ cs.length := Nat.mul_le_mul_right _ (by omega)
      _ = 10 ^ cs.length * 10 := Nat.mul_comm _ _

/-! ### Numerals -/

theorem digitChar_byte {d : Nat} (h : d < 10) : UInt8.ofNat (Nat.digitChar d).toNat = digit d := by
  interval_cases d <;> rfl

/-- The last digit comes off the end. -/
theorem numeral_eq (n : Nat) :
    numeral n = if n < 10 then [digit n] else numeral (n / 10) ++ [digit (n % 10)] := by
  unfold numeral
  rw [Nat.toDigits_eq_if (by omega)]
  by_cases h : n < 10
  · simp [h, digitChar_byte h]
  · simp [h, digitChar_byte (Nat.mod_lt n (by omega : 0 < 10))]

theorem numeral_isDigit (n : Nat) : ∀ c ∈ numeral n, isDigit c = true := by
  induction n using Nat.strongRecOn with
  | ind n ih =>
    rw [numeral_eq]
    by_cases h : n < 10
    · simpa [h] using isDigit_digit h
    · rw [if_neg h]
      intro c hc
      rcases List.mem_append.mp hc with hc | hc
      · exact ih (n / 10) (by omega) c hc
      · rw [List.mem_singleton.mp hc]
        exact isDigit_digit (Nat.mod_lt n (by omega))

/-- Reading the numeral of a number gives the number. -/
@[simp] theorem value_numeral (n : Nat) : value (numeral n) = n := by
  induction n using Nat.strongRecOn with
  | ind n ih =>
    rw [numeral_eq]
    by_cases h : n < 10
    · simp [h, value_cons, digitVal_digit h]
    · rw [if_neg h, value_append, ih (n / 10) (by omega), value_cons,
        digitVal_digit (Nat.mod_lt n (by omega))]
      simp
      omega

theorem numeral_ne_nil (n : Nat) : numeral n ≠ [] := by
  rw [numeral_eq]
  by_cases h : n < 10 <;> simp [h]

/-- A number below `10 ^ k` has at most `k` digits. -/
theorem length_numeral_le {n k : Nat} (hk : 0 < k) (h : n < 10 ^ k) : (numeral n).length ≤ k := by
  induction k generalizing n with
  | zero => omega
  | succ k ih =>
    rw [numeral_eq]
    by_cases hn : n < 10
    · simp [hn]
    · rw [if_neg hn, List.length_append, List.length_singleton]
      have hpos : 0 < k := by
        cases k with
        | zero => simp at h; omega
        | succ k => omega
      have := @ih (n / 10) hpos (by rw [Nat.pow_succ] at h; omega)
      omega

theorem numeral_inj {m n : Nat} (h : numeral m = numeral n) : m = n := by
  rw [← value_numeral m, h, value_numeral]

/-- A larger number has no fewer digits. -/
theorem length_numeral_mono {m n : Nat} (h : m ≤ n) : (numeral m).length ≤ (numeral n).length := by
  have hlt := value_lt (numeral_isDigit n)
  rw [value_numeral] at hlt
  exact length_numeral_le (List.length_pos_iff.mpr (numeral_ne_nil n)) (by omega)

theorem padded_isDigit (width n : Nat) : ∀ c ∈ padded width n, isDigit c = true := by
  intro c hc
  rcases List.mem_append.mp hc with hc | hc
  · rw [(List.mem_replicate.mp hc).2]
    decide
  · exact numeral_isDigit n c hc

@[simp] theorem value_padded (width n : Nat) : value (padded width n) = n := by
  unfold padded
  rw [value_append, value_zeros, value_numeral]
  simp

theorem length_padded {width n : Nat} (hw : 0 < width) (h : n < 10 ^ width) :
    (padded width n).length = width := by
  have := length_numeral_le hw h
  simp [padded]
  omega

end Decimal
