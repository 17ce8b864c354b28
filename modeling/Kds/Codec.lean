import Kds.Types

/-! # Stored values survive being shown and entered again

    For every type, the text a stored value decodes to encodes to the same
    bytes. The exception is the decimal whose bytes are those of the smallest
    `s64`: the decoder cannot negate it and prints its sign three times.
-/

open Bytes Decimal

namespace Kds

/-- From some buffer size on, `b` decodes to one text, and this text encodes to `b`. -/
def KdsTypeDesc.RoundTrips (desc : KdsTypeDesc) (b : List UInt8) : Prop :=
  ∃ bound n t, ∀ size, bound ≤ size →
    desc.decode b size = .ok (n, t) ∧ desc.encode t size = .ok b

/-- The digits behind a decimal point, and what follows them. -/
def decimalFrac : List UInt8 → List UInt8 × List UInt8
  | 46 :: q => (q.takeWhile isDigit, q.dropWhile isDigit)
  | q => ([], q)

theorem decimalFrac_point (q : List UInt8) :
    decimalFrac (46 :: q) = (q.takeWhile isDigit, q.dropWhile isDigit) := rfl

/-- What a decimal says, in units of the last digit kept and without its sign. -/
def decimalUnits (text : List UInt8) : Nat :=
  let p := (decimalSign text).2
  value (p.takeWhile isDigit) * 10 ^ KDS_DECIMAL_SCALE +
    value (((decimalFrac (p.dropWhile isDigit)).1 ++ List.replicate KDS_DECIMAL_SCALE (digit 0)).take
      KDS_DECIMAL_SCALE)

/-! ### Printing -/

theorem isDigit_ne_zero {c : UInt8} (h : isDigit c = true) : c ≠ 0 := by
  rintro rfl
  exact absurd h (by decide)

theorem nul_not_mem_fmtLld (v : Int) : (0 : UInt8) ∉ fmtLld v := by
  unfold fmtLld signed
  by_cases hneg : v < 0
  · rw [if_pos hneg]
    simp only [List.mem_cons, not_or]
    exact ⟨by decide, fun h => isDigit_ne_zero (numeral_isDigit _ _ h) rfl⟩
  · rw [if_neg hneg]
    exact fun h => isDigit_ne_zero (numeral_isDigit _ _ h) rfl

/-- A text that fits is printed whole. -/
theorem scnprintf_fits {text : List UInt8} {out_size : Nat}
    (hfit : text.length < out_size) :
    scnprintf out_size text = (text.length, CString.ofBuffer text) := by
  unfold scnprintf
  dsimp only
  rw [List.take_of_length_le (by omega)]

/-! ### Integers -/

section integers

variable {width : Nat} {min max : Int}

/-- The four widths, and the range of each. -/
structure IntType (width : Nat) (min max : Int) : Prop where
  width_mem : width = 1 ∨ width = 2 ∨ width = 4 ∨ width = 8
  min_eq : min = -2 ^ (8 * width - 1)
  max_eq : max = 2 ^ (8 * width - 1) - 1

theorem IntType.mem_s64 (h : IntType width min max) {v : Int} (hlo : min ≤ v) (hhi : v ≤ max) :
    -2 ^ 63 ≤ v ∧ v < 2 ^ 63 := by
  have hmin := h.min_eq
  have hmax := h.max_eq
  rcases h.width_mem with rfl | rfl | rfl | rfl <;> norm_num at hmin hmax <;> omega

theorem IntType.bytesInt_intBytes (h : IntType width min max) {v : Int} (hlo : min ≤ v)
    (hhi : v ≤ max) : bytesInt (intBytes width v) = v := by
  have hmin := h.min_eq
  have hmax := h.max_eq
  have hpos : 0 < 8 * width := by
    have := h.width_mem
    omega
  rw [Bytes.bytesInt_intBytes, show 256 ^ width = 2 ^ (8 * width) by rw [Nat.pow_mul]]
  exact wrap_of_mem hpos (by omega) (by omega)

theorem encode_int_inv {s : CString} {buf_size : Nat} {b : List UInt8}
    (h : encode_int_generic s buf_size width min max = .ok b) :
    ∃ v, min ≤ v ∧ v ≤ max ∧ b = intBytes width v := by
  unfold encode_int_generic at h
  by_cases hsize : buf_size < width
  · rw [if_pos hsize] at h
    cases h
  rw [if_neg hsize] at h
  cases hparse : kstrtoll s with
  | error e =>
    rw [hparse] at h
    cases h
  | ok v =>
    rw [hparse] at h
    dsimp only at h
    by_cases hrange : v < min ∨ v > max
    · rw [if_pos hrange] at h
      cases h
    rw [if_neg hrange] at h
    split_ifs at h with hw
    cases h
    exact ⟨v, by omega, by omega, rfl⟩

/-- The text of a value in range encodes to its bytes. -/
theorem encode_fmtLld (h : IntType width min max) {v : Int} (hlo : min ≤ v) (hhi : v ≤ max)
    {s : CString} (hs : s.bytes = fmtLld v) {buf_size : Nat} (hsize : width ≤ buf_size) :
    encode_int_generic s buf_size width min max = .ok (intBytes width v) := by
  obtain ⟨h₁, h₂⟩ := h.mem_s64 hlo hhi
  unfold encode_int_generic
  rw [if_neg (by omega), kstrtoll_fmtLld s hs h₁ h₂]
  dsimp only
  rw [if_neg (by omega), if_pos h.width_mem]

theorem int_round_trips (h : IntType width min max) {v : Int} (hlo : min ≤ v) (hhi : v ≤ max) :
    ∃ bound n t, ∀ size, bound ≤ size →
      decode_int_generic (intBytes width v) size width = .ok (n, t) ∧
        encode_int_generic t size width min max = .ok (intBytes width v) := by
  have hnul := nul_not_mem_fmtLld v
  refine ⟨(fmtLld v).length + 1 + width, (fmtLld v).length, CString.ofBuffer (fmtLld v), ?_⟩
  intro size hsize
  constructor
  · unfold decode_int_generic
    rw [if_neg (by simp), if_pos h.width_mem, h.bytesInt_intBytes hlo hhi,
      scnprintf_fits (by omega)]
  · exact encode_fmtLld h hlo hhi (CString.ofBuffer_bytes hnul) (by omega)

/-- Every byte string of the width is the encoding of the text of its value. -/
theorem int_encodes (h : IntType width min max) {bs : List UInt8} (hlen : bs.length = width) :
    ∃ s buf_size, encode_int_generic s buf_size width min max = .ok bs := by
  have hmin := h.min_eq
  have hmax := h.max_eq
  have hpos : 0 < 8 * width := by
    have := h.width_mem
    omega
  have hmem : -2 ^ (8 * width - 1) ≤ bytesInt bs ∧ bytesInt bs < 2 ^ (8 * width - 1) := by
    have hw := wrap_mem hpos (leNat bs : Int)
    unfold bytesInt
    rw [hlen, show 256 ^ width = 2 ^ (8 * width) by rw [Nat.pow_mul]]
    exact hw
  refine ⟨⟨fmtLld (bytesInt bs), nul_not_mem_fmtLld _⟩, width, ?_⟩
  rw [encode_fmtLld h (by omega) (by omega) rfl (Nat.le_refl _), ← hlen, intBytes_bytesInt]

end integers

/-! ### Floats -/

theorem hex_nibble_hexdigit {d : Nat} (h : d < 16) : hex_nibble (hexdigit d) = some d := by
  interval_cases d <;> decide

theorem hexdigit_ne_zero {d : Nat} (h : d < 16) : hexdigit d ≠ 0 := by
  interval_cases d <;> decide

/-- Reading formatted bytes gives the bytes. -/
theorem parseHexPairs_format (data : List UInt8) :
    parseHexPairs (format_hex_bytes data) = .ok data := by
  induction data with
  | nil => rfl
  | cons b data ih =>
    have hb := b.toNat_lt
    have heq : format_hex_bytes (b :: data) =
        hexdigit (b.toNat / 16) :: hexdigit (b.toNat % 16) :: format_hex_bytes data := rfl
    rw [heq, parseHexPairs, hex_nibble_hexdigit (by omega), hex_nibble_hexdigit (by omega), ih]
    have hval : b.toNat / 16 * 16 + b.toNat % 16 = b.toNat := by omega
    simp only [hval, UInt8.ofNat_toNat]

theorem length_format_hex_bytes (data : List UInt8) :
    (format_hex_bytes data).length = data.length * 2 := by
  induction data with
  | nil => rfl
  | cons b data ih =>
    simp only [format_hex_bytes, List.flatMap_cons, List.length_append, List.length_cons,
      List.length_nil] at ih ⊢
    omega

theorem nul_not_mem_format (data : List UInt8) : (0 : UInt8) ∉ format_hex_bytes data := by
  intro h
  obtain ⟨b, -, hb⟩ := List.mem_flatMap.mp h
  have hlt := b.toNat_lt
  simp only [List.mem_cons, List.not_mem_nil, or_false] at hb
  rcases hb with hb | hb
  · exact hexdigit_ne_zero (by omega) hb.symm
  · exact hexdigit_ne_zero (by omega) hb.symm

theorem length_of_parseHexPairs {text out : List UInt8} (h : parseHexPairs text = .ok out) :
    out.length * 2 = text.length := by
  induction text using parseHexPairs.induct generalizing out with
  | case1 => cases h; rfl
  | case2 => cases h
  | case3 hi lo rest hn ln hhi hlo rest' hrest ih =>
    rw [parseHexPairs, hhi, hlo, hrest] at h
    cases h
    have := ih hrest
    simp only [List.length_cons]
    omega
  | case4 hi lo rest hn ln hhi hlo e hrest ih =>
    rw [parseHexPairs, hhi, hlo, hrest] at h
    cases h
  | case5 hi lo rest hbad =>
    unfold parseHexPairs at h
    split at h
    · rename_i hn ln h₁ h₂
      exact absurd h₂ (hbad hn ln h₁)
    · cases h

theorem float_round_trips {b : List UInt8} (hlen : b.length = 4) :
    ∃ bound n t, ∀ size, bound ≤ size →
      decode_float b size = .ok (n, t) ∧ encode_float t size = .ok b := by
  refine ⟨9, 8, CString.ofBuffer (format_hex_bytes b), ?_⟩
  intro size hsize
  constructor
  · unfold decode_float
    rw [if_neg (by omega), if_neg (by omega)]
  · unfold encode_float parse_hex_bytes
    rw [if_neg (by omega), CString.ofBuffer_bytes (nul_not_mem_format b),
      if_neg (by rw [length_format_hex_bytes, hlen]; decide), parseHexPairs_format]

theorem encode_float_length {s : CString} {buf_size : Nat} {b : List UInt8}
    (h : encode_float s buf_size = .ok b) : b.length = 4 := by
  unfold encode_float parse_hex_bytes at h
  by_cases hsize : buf_size < 4
  · rw [if_pos hsize] at h
    cases h
  rw [if_neg hsize] at h
  by_cases hlen : s.bytes.length ≠ 4 * 2
  · rw [if_pos hlen] at h
    cases h
  rw [if_neg hlen] at h
  cases hparse : parseHexPairs s.bytes with
  | error e =>
    rw [hparse] at h
    cases h
  | ok out =>
    rw [hparse] at h
    cases h
    have := length_of_parseHexPairs hparse
    omega

/-! ### Booleans and strings -/

theorem bool_round_trips {s : CString} {buf_size : Nat} {b : List UInt8}
    (h : encode_bool s buf_size = .ok b) :
    ∃ bound n t, ∀ size, bound ≤ size →
      decode_bool b size = .ok (n, t) ∧ encode_bool t size = .ok b := by
  unfold encode_bool at h
  split_ifs at h with hsize htrue
  · cases h
    refine ⟨6, 4, ⟨trueText, by decide⟩, fun size hle => ⟨?_, ?_⟩⟩
    · unfold decode_bool
      dsimp only
      rw [if_pos (by decide), scnprintf_fits (by simp [trueText]; omega)]
      rfl
    · unfold encode_bool
      rw [if_neg (by omega)]
      simp
  · cases h
    refine ⟨6, 5, ⟨falseText, by decide⟩, fun size hle => ⟨?_, ?_⟩⟩
    · unfold decode_bool
      dsimp only
      rw [if_neg (by decide), scnprintf_fits (by simp [falseText]; omega)]
      rfl
    · unfold encode_bool
      rw [if_neg (by omega), if_neg (by decide)]

theorem varchar_round_trips {s : CString} {buf_size : Nat} {b : List UInt8}
    (h : encode_varchar s buf_size = .ok b) :
    ∃ bound n t, ∀ size, bound ≤ size →
      decode_varchar b size = .ok (n, t) ∧ encode_varchar t size = .ok b := by
  unfold encode_varchar at h
  dsimp only at h
  split_ifs at h with hlen
  cases h
  refine ⟨s.bytes.length + 1, s.bytes.length, s, fun size hle => ⟨?_, ?_⟩⟩
  · unfold decode_varchar
    rw [if_neg (by omega)]
    congr 2
    exact CString.ext' (CString.ofBuffer_bytes s.no_nul)
  · unfold encode_varchar
    dsimp only
    rw [if_neg (by omega)]

/-! ### Decimals -/

theorem fracScale_eq {f : Int} {k : Nat} (hlo : 0 ≤ f) (hhi : f * 10 ^ k < 2 ^ 63) :
    fracScale f k = f * 10 ^ k := by
  induction k generalizing f with
  | zero => simp [fracScale]
  | succ k ih =>
    have hstep : f * 10 ^ (k + 1) = f * 10 * 10 ^ k := by ring
    rw [hstep] at hhi ⊢
    have hone : (1 : Int) ≤ 10 ^ k := Int.pow_pos (by decide)
    have hle : f * 10 ≤ f * 10 * 10 ^ k := by nlinarith
    unfold fracScale
    rw [show wrap 64 (f * 10) = f * 10 from
      wrap_of_mem (by decide) (by norm_num; omega) (by norm_num; omega)]
    exact ih (by omega) hhi

/-- The two loops over a fraction compute its first four digits, with zeros
    for those that are missing, and leave what follows the digits. -/
theorem fracDigits_eq {f : Int} {k : Nat} (p : List UInt8) (hlo : 0 ≤ f) (hhi : f < 10 ^ k)
    (hk : k ≤ 4) :
    fracScale (fracDigits f k p).1 (4 - (fracDigits f k p).2.1) =
        f * 10 ^ (4 - k) +
          value ((p.takeWhile isDigit ++ List.replicate 4 (digit 0)).take (4 - k)) ∧
      (fracDigits f k p).2.2.dropWhile isDigit = p.dropWhile isDigit := by
  have hbound : f * 10 ^ (4 - k) < 10 ^ 4 := by
    calc f * 10 ^ (4 - k) < 10 ^ k * 10 ^ (4 - k) :=
          Int.mul_lt_mul_of_pos_right hhi (Int.pow_pos (by decide))
      _ = 10 ^ 4 := by rw [← Int.pow_add, Nat.add_sub_cancel' hk]
  -- with no digit left to read, the scaling loop adds the zeros
  have hzeros : fracScale f (4 - k) =
      f * 10 ^ (4 - k) + value ((List.replicate 4 (digit 0)).take (4 - k)) := by
    rw [fracScale_eq hlo (by omega), List.take_replicate, value_zeros]
    simp
  induction p generalizing f k with
  | nil => exact ⟨by simpa [fracDigits] using hzeros, rfl⟩
  | cons c p ih =>
    unfold fracDigits
    by_cases hc : isDigit c = true
    · by_cases hmore : k < 4
      · have hd := digitVal_lt hc
        have hacc : wrap 64 (wrap 64 (f * 10) + digitVal c) = f * 10 + digitVal c := by
          have hpow : (10 : Int) ^ k ≤ 10 ^ 3 := by
            exact_mod_cast Nat.pow_le_pow_right (by decide) (by omega)
          norm_num at hpow
          rw [wrap_add_left]
          exact wrap_of_mem (by decide) (by norm_num; omega) (by norm_num; omega)
        rw [if_pos ⟨hc, hmore⟩, hacc]
        have hnext : f * 10 + (digitVal c : Int) < 10 ^ (k + 1) := by
          rw [Int.pow_succ]
          omega
        have hlen : ((p.takeWhile isDigit ++ List.replicate 4 (digit 0)).take
            (4 - (k + 1))).length = 4 - (k + 1) := by
          rw [List.length_take, List.length_append, List.length_replicate]
          omega
        have hbound' : (f * 10 + digitVal c) * 10 ^ (4 - (k + 1)) < 10 ^ 4 := by
          calc (f * 10 + digitVal c) * 10 ^ (4 - (k + 1))
              < 10 ^ (k + 1) * 10 ^ (4 - (k + 1)) :=
                Int.mul_lt_mul_of_pos_right hnext (Int.pow_pos (by decide))
            _ = 10 ^ 4 := by rw [← Int.pow_add, Nat.add_sub_cancel' (by omega)]
        obtain ⟨h₁, h₂⟩ := ih (by omega) hnext (by omega) hbound' (by
          rw [fracScale_eq (by omega) (by omega), List.take_replicate, value_zeros]
          simp)
        rw [h₁, h₂, List.takeWhile_cons_of_pos hc, List.dropWhile_cons_of_pos hc,
          show 4 - k = (4 - (k + 1)) + 1 by omega, List.cons_append, List.take_succ_cons,
          value_cons, hlen]
        refine ⟨?_, rfl⟩
        push_cast
        ring
      · have hk4 : k = 4 := by omega
        subst hk4
        rw [if_neg (by simp)]
        exact ⟨by simpa using hzeros, rfl⟩
    · rw [if_neg (by simp [hc]), List.takeWhile_cons_of_neg hc]
      exact ⟨by simpa using hzeros, rfl⟩

/-- What the encoder computes from the two parts of a decimal. -/
theorem decimalResult_eq (neg : Bool) (int_part : Nat) (frac_part : Nat) :
    (if neg then wrap 64 (-wrap 64 (wrap 64 (wrap 64 int_part * KDS_DECIMAL_SCALE_MUL) + frac_part))
      else wrap 64 (wrap 64 (wrap 64 int_part * KDS_DECIMAL_SCALE_MUL) + frac_part)) =
      wrap 64 (if neg then -((int_part * 10 ^ 4 + frac_part : Nat) : Int)
        else ((int_part * 10 ^ 4 + frac_part : Nat) : Int)) := by
  have hsum : wrap 64 (wrap 64 (wrap 64 int_part * KDS_DECIMAL_SCALE_MUL) + frac_part) =
      wrap 64 ((int_part * 10 ^ 4 + frac_part : Nat) : Int) := by
    rw [wrap_mul_left, wrap_add_left]
    push_cast
    rfl
  cases neg with
  | false => simpa using hsum
  | true =>
    rw [if_pos rfl, if_pos rfl, hsum]
    exact Int.bmod_neg_bmod

theorem decimalFraction_eq (p : List UInt8) :
    fracScale (decimalFraction p).1 (KDS_DECIMAL_SCALE - (decimalFraction p).2.1) =
        value (((decimalFrac p).1 ++ List.replicate KDS_DECIMAL_SCALE (digit 0)).take
          KDS_DECIMAL_SCALE) ∧
      (decimalFraction p).2.2 = (decimalFrac p).2 := by
  unfold decimalFraction
  split
  · rename_i q
    obtain ⟨hval, htail⟩ := @fracDigits_eq 0 0 q (by omega) (by decide) (by omega)
    rw [Int.zero_mul, Int.zero_add] at hval
    exact ⟨hval, htail⟩
  · rename_i hne
    have hfrac : decimalFrac p = ([], p) := by
      unfold decimalFrac
      split
      · exact absurd rfl (hne _)
      · rfl
    rw [hfrac]
    dsimp only
    constructor
    · decide
    · rfl

/-- The encoder stores the units of the text with its sign, wrapped. -/
theorem encode_decimal_eq (s : CString) {buf_size : Nat} (hsize : 8 ≤ buf_size) :
    encode_decimal s buf_size =
      if (decimalSign s.bytes).2 = [] ∨
          (decimalFrac ((decimalSign s.bytes).2.dropWhile isDigit)).2 ≠ [] then .error .EINVAL
      else .ok (intBytes 8 (wrap 64 (if (decimalSign s.bytes).1 then -(decimalUnits s.bytes : Int)
        else decimalUnits s.bytes))) := by
  unfold encode_decimal decimalUnits
  rw [if_neg (by omega)]
  cases decimalSign s.bytes with
  | mk neg p =>
    dsimp only
    by_cases hp : p = []
    · rw [if_pos hp, if_pos (.inl hp)]
    rw [if_neg hp, accDigits_zero]
    dsimp only
    obtain ⟨hval, htail⟩ := decimalFraction_eq (p.dropWhile isDigit)
    rw [htail, hval]
    by_cases hend : (decimalFrac (p.dropWhile isDigit)).2 = []
    · have hok : ¬ (p = [] ∨ (decimalFrac (p.dropWhile isDigit)).2 ≠ []) := by simp [hp, hend]
      rw [if_neg (not_not_intro hend), if_neg hok, decimalResult_eq]
      rfl
    · rw [if_pos hend, if_pos (.inr hend)]

/-- The smallest `s64` is stored for the texts of 2^63 units, up to wrapping. -/
theorem wrap_eq_min_iff (neg : Bool) (units : Nat) :
    wrap 64 (if neg then -(units : Int) else units) = S64_MIN ↔ units % 2 ^ 64 = 2 ^ 63 := by
  have hmin : ∀ v : Int, wrap 64 v = S64_MIN ↔ v % 2 ^ 64 = 2 ^ 63 := by
    intro v
    unfold wrap
    rw [Int.bmod_eq_emod]
    simp only [S64_MIN]
    norm_num
    split_ifs <;> omega
  rw [hmin]
  cases neg with
  | false => simp; omega
  | true => simp; omega

/-- The text of `v` ten-thousandths. -/
def decimalText (v : Int) : List UInt8 :=
  (if v < 0 then [45] else []) ++ numeral (v.natAbs / 10000) ++ [46] ++
    padded 4 (v.natAbs % 10000)

/-- The decoder prints a decimal whose magnitude fits an `s64`. -/
theorem decode_decimal_eq {v : Int} (hlo : -2 ^ 63 < v) (hhi : v < 2 ^ 63) {out_size : Nat} :
    decode_decimal (intBytes 8 v) out_size = .ok (scnprintf out_size (decimalText v)) := by
  have hv : bytesInt (intBytes 8 v) = v := by
    rw [bytesInt_intBytes]
    exact @wrap_of_mem 64 v (by decide) (by omega) (by omega)
  have habs : (if decide (v < 0) = true then wrap 64 (-v) else v) = (v.natAbs : Int) := by
    by_cases hneg : v < 0
    · have hwrap : wrap 64 (-v) = -v := wrap_of_mem (by decide) (by omega) (by omega)
      rw [if_pos (by simpa using hneg), hwrap]
      omega
    · rw [if_neg (by simpa using hneg)]
      omega
  have hq : ((v.natAbs : Int)).tdiv KDS_DECIMAL_SCALE_MUL = ((v.natAbs / 10000 : Nat) : Int) := rfl
  have hr : ((v.natAbs : Int)).tmod KDS_DECIMAL_SCALE_MUL = ((v.natAbs % 10000 : Nat) : Int) := rfl
  unfold decode_decimal decimalText
  rw [if_neg (by simp)]
  dsimp only
  rw [hv, habs, hq, hr, fmtLld_natCast, fmtPadded_natCast]
  simp only [decide_eq_true_eq, KDS_DECIMAL_SCALE]

theorem nul_not_mem_decimalText (v : Int) : (0 : UInt8) ∉ decimalText v := by
  have hnum := fun h => isDigit_ne_zero (numeral_isDigit (v.natAbs / 10000) 0 h) rfl
  have hpad := fun h => isDigit_ne_zero (padded_isDigit 4 (v.natAbs % 10000) 0 h) rfl
  unfold decimalText
  simp only [List.mem_append, List.mem_singleton, not_or]
  by_cases hneg : v < 0
  · rw [if_pos hneg]
    exact ⟨⟨⟨by decide, hnum⟩, by decide⟩, hpad⟩
  · rw [if_neg hneg]
    exact ⟨⟨⟨by decide, hnum⟩, by decide⟩, hpad⟩

/-- The sign of a printed decimal comes off first. -/
theorem decimalSign_text (v : Int) :
    decimalSign (decimalText v) =
      (decide (v < 0), numeral (v.natAbs / 10000) ++ 46 :: padded 4 (v.natAbs % 10000)) := by
  unfold decimalText
  by_cases hneg : v < 0
  · rw [if_pos hneg]
    simp [decimalSign, hneg]
  · rw [if_neg hneg]
    -- without a sign the first character is a digit
    cases hcs : numeral (v.natAbs / 10000) with
    | nil => exact absurd hcs (numeral_ne_nil _)
    | cons c cs =>
      have hdigit : isDigit c = true := numeral_head (by rw [hcs]; rfl)
      have h45 : c ≠ 45 := by rintro rfl; exact absurd hdigit (by decide)
      have h43 : c ≠ 43 := by rintro rfl; exact absurd hdigit (by decide)
      simp [decimalSign, h45, h43, hneg]

/-- The parts of a printed decimal are those of its magnitude. -/
theorem decimalFrac_text (v : Int) :
    let p := (decimalSign (decimalText v)).2
    p.takeWhile isDigit = numeral (v.natAbs / 10000) ∧
      decimalFrac (p.dropWhile isDigit) = (padded 4 (v.natAbs % 10000), []) := by
  obtain ⟨htake, hdrop⟩ := takeWhile_numeral (v.natAbs / 10000)
    (46 :: padded 4 (v.natAbs % 10000)) (by simp; decide)
  have hall := padded_isDigit 4 (v.natAbs % 10000)
  dsimp only
  rw [decimalSign_text]
  dsimp only
  rw [htake, hdrop]
  constructor
  · rfl
  · rw [decimalFrac_point, List.takeWhile_eq_self_iff.mpr hall, List.dropWhile_eq_nil_iff.mpr hall]

theorem decimalUnits_text (v : Int) : decimalUnits (decimalText v) = v.natAbs := by
  obtain ⟨hint, hfrac⟩ := decimalFrac_text v
  have hlen : (padded 4 (v.natAbs % 10000)).length = 4 := length_padded (by decide) (by omega)
  have hkeep : (padded 4 (v.natAbs % 10000) ++ List.replicate KDS_DECIMAL_SCALE (digit 0)).take
      KDS_DECIMAL_SCALE = padded 4 (v.natAbs % 10000) := List.take_left' hlen
  unfold decimalUnits
  dsimp only
  rw [hint, hfrac, hkeep, value_numeral, value_padded]
  simp only [KDS_DECIMAL_SCALE]
  omega

/-- The text of a decimal encodes to its bytes. -/
theorem encode_decimalText {v : Int} (hlo : -2 ^ 63 < v) (hhi : v < 2 ^ 63) {s : CString}
    (hs : s.bytes = decimalText v) {buf_size : Nat} (hsize : 8 ≤ buf_size) :
    encode_decimal s buf_size = .ok (intBytes 8 v) := by
  obtain ⟨-, hfrac⟩ := decimalFrac_text v
  have hval : wrap 64 (if decide (v < 0) = true then -(v.natAbs : Int) else v.natAbs) = v := by
    have : (if decide (v < 0) = true then -(v.natAbs : Int) else v.natAbs) = v := by
      by_cases hneg : v < 0
      · rw [if_pos (by simpa using hneg)]
        omega
      · rw [if_neg (by simpa using hneg)]
        omega
    rw [this]
    exact wrap_of_mem (by decide) (by omega) (by omega)
  rw [encode_decimal_eq s hsize, hs, hfrac, decimalUnits_text, decimalSign_text]
  dsimp only
  rw [if_neg (by simp), hval]

theorem decimal_round_trips {v : Int} (hlo : -2 ^ 63 < v) (hhi : v < 2 ^ 63) :
    ∃ bound n t, ∀ size, bound ≤ size →
      decode_decimal (intBytes 8 v) size = .ok (n, t) ∧
        encode_decimal t size = .ok (intBytes 8 v) := by
  have hnul := nul_not_mem_decimalText v
  refine ⟨(decimalText v).length + 8, (decimalText v).length, CString.ofBuffer (decimalText v), ?_⟩
  intro size hsize
  constructor
  · rw [decode_decimal_eq hlo hhi, scnprintf_fits (by omega)]
  · exact encode_decimalText hlo hhi (CString.ofBuffer_bytes hnul) (by omega)

/-- What the decoder prints for the smallest `s64`. -/
def minDecimalText : List UInt8 := ascii "--922337203685477.-5808"

theorem decode_decimal_min {out_size : Nat} :
    decode_decimal (intBytes 8 S64_MIN) out_size = .ok (scnprintf out_size minDecimalText) := by
  have hv : bytesInt (intBytes 8 S64_MIN) = S64_MIN := by decide +kernel
  -- negation leaves the value as it is, and both quotient and remainder negative
  have habs : (if decide (S64_MIN < 0) = true then wrap 64 (-S64_MIN) else S64_MIN) = S64_MIN := by
    decide
  have htext : (if decide (S64_MIN < 0) = true then [45] else []) ++
      fmtLld (S64_MIN.tdiv KDS_DECIMAL_SCALE_MUL) ++ [46] ++
        fmtPadded KDS_DECIMAL_SCALE (S64_MIN.tmod KDS_DECIMAL_SCALE_MUL) = minDecimalText := by
    decide +kernel
  unfold decode_decimal
  rw [if_neg (by simp)]
  dsimp only
  rw [hv, habs, htext]

theorem decimal_min_lost (desc : KdsTypeDesc) (henc : desc.encode = encode_decimal)
    (hdec : desc.decode = decode_decimal) : ¬ desc.RoundTrips (intBytes 8 S64_MIN) := by
  rintro ⟨bound, n, t, h⟩
  obtain ⟨hd, he⟩ := h (bound + minDecimalText.length + 8) (by omega)
  rw [hdec, decode_decimal_min, scnprintf_fits (by omega)] at hd
  have ht : t.bytes = minDecimalText := by
    rw [← (Prod.mk.inj (Except.ok.inj hd)).2]
    exact CString.ofBuffer_bytes (by decide)
  -- after the first sign comes a second one, where a digit is expected
  have hreject : (decimalSign minDecimalText).2 = [] ∨
      (decimalFrac ((decimalSign minDecimalText).2.dropWhile isDigit)).2 ≠ [] := by decide
  rw [henc, encode_decimal_eq t (by omega), ht, if_pos hreject] at he
  cases he

/-- A stored decimal is shown and entered again unchanged unless it is the smallest `s64`. -/
theorem decimal_round_trips_iff (desc : KdsTypeDesc) (henc : desc.encode = encode_decimal)
    (hdec : desc.decode = decode_decimal) {s : CString} {buf_size : Nat} {b : List UInt8}
    (h : desc.encode s buf_size = .ok b) :
    desc.RoundTrips b ↔ decimalUnits s.bytes % 2 ^ 64 ≠ 2 ^ 63 := by
  rw [henc] at h
  have hsize : 8 ≤ buf_size := by
    by_contra hlt
    unfold encode_decimal at h
    rw [if_pos (by omega)] at h
    cases h
  rw [encode_decimal_eq s hsize] at h
  split at h
  · cases h
  have hb := Except.ok.inj h
  have hmin := wrap_eq_min_iff (decimalSign s.bytes).1 (decimalUnits s.bytes)
  obtain ⟨hlo, hhi⟩ := @wrap_mem 64 (by decide)
    (if (decimalSign s.bytes).1 then -(decimalUnits s.bytes : Int) else decimalUnits s.bytes)
  rw [← hb, ne_eq, ← hmin]
  constructor
  · intro hround heq
    rw [heq] at hround
    exact decimal_min_lost desc henc hdec hround
  · intro hne
    obtain ⟨bound, n, t, hrt⟩ := decimal_round_trips
      (lt_of_le_of_ne hlo (Ne.symm hne)) hhi
    refine ⟨bound, n, t, fun size hle => ?_⟩
    rw [henc, hdec]
    exact hrt size hle

/-! ### All types -/

/-- The integer types of the table. -/
def KdsTypeVal.isInt : KdsTypeVal → Bool
  | .int8 | .int16 | .int32 | .int64 => true
  | _ => false

theorem int_desc_round_trips {desc : KdsTypeDesc} {width : Nat} {min max : Int}
    (ht : IntType width min max)
    (henc : desc.encode = fun s n => encode_int_generic s n width min max)
    (hdec : desc.decode = fun b n => decode_int_generic b n width) {s : CString}
    {buf_size : Nat} {b : List UInt8} (h : desc.encode s buf_size = .ok b) :
    desc.RoundTrips b := by
  rw [henc] at h
  obtain ⟨v, hlo, hhi, rfl⟩ := encode_int_inv h
  obtain ⟨bound, n, t, hrt⟩ := int_round_trips ht hlo hhi
  refine ⟨bound, n, t, fun size hle => ?_⟩
  rw [henc, hdec]
  exact hrt size hle

theorem intType8 : IntType 1 (-128) 127 := ⟨by decide, by decide, by decide⟩
theorem intType16 : IntType 2 (-32768) 32767 := ⟨by decide, by decide, by decide⟩
theorem intType32 : IntType 4 S32_MIN S32_MAX := ⟨by decide, by decide, by decide⟩
theorem intType64 : IntType 8 S64_MIN S64_MAX := ⟨by decide, by decide, by decide⟩

/-- Every type shows and takes back what it stores, but for the decimals
    whose units are those of the smallest `s64`; and an integer type stores
    every byte string of its width. -/
theorem type_codec_law {desc : KdsTypeDesc} (hdesc : desc ∈ kds_type_table) :
    (∀ s buf_size b, desc.encode s buf_size = .ok b →
      (desc.RoundTrips b ↔
        ¬ (desc.type_val = .decimal ∧ decimalUnits s.bytes % 2 ^ 64 = 2 ^ 63))) ∧
    (desc.type_val.isInt = true →
      ∀ bs, bs.length = desc.fixed_len → ∃ s buf_size, desc.encode s buf_size = .ok bs) := by
  simp only [kds_type_table, List.mem_cons, List.not_mem_nil, or_false] at hdesc
  constructor
  · intro s buf_size b h
    rcases hdesc with rfl | rfl | rfl | rfl | rfl | rfl | rfl | rfl | rfl
    · exact iff_of_true (int_desc_round_trips intType8 rfl rfl h) (by simp)
    · exact iff_of_true (int_desc_round_trips intType16 rfl rfl h) (by simp)
    · exact iff_of_true (int_desc_round_trips intType32 rfl rfl h) (by simp)
    · exact iff_of_true (int_desc_round_trips intType64 rfl rfl h) (by simp)
    · exact iff_of_true (float_round_trips (encode_float_length h)) (by simp)
    · rw [decimal_round_trips_iff _ rfl rfl h]
      simp
    · exact iff_of_true (bool_round_trips h) (by simp)
    · exact iff_of_true (varchar_round_trips h) (by simp)
    · exact iff_of_true (varchar_round_trips h) (by simp)
  · intro hint bs hlen
    rcases hdesc with rfl | rfl | rfl | rfl | rfl | rfl | rfl | rfl | rfl
    · exact int_encodes intType8 hlen
    · exact int_encodes intType16 hlen
    · exact int_encodes intType32 hlen
    · exact int_encodes intType64 hlen
    all_goals cases hint

/-- The law at a decimal with a short fraction and at two bytes of an `int16`. -/
theorem type_codec_law_short_fraction :
    (⟨.decimal, ascii "decimal", 8, encode_decimal, decode_decimal⟩ : KdsTypeDesc).RoundTrips
        (intBytes 8 (-15000)) ∧
      ∃ s buf_size, encode_int16 s buf_size = .ok [52, 210] := by
  have hstore : encode_decimal ⟨ascii "-1.5", by decide⟩ 8 = .ok (intBytes 8 (-15000)) := by
    decide +kernel
  constructor
  · apply ((type_codec_law (by simp [kds_type_table])).1 ⟨ascii "-1.5", by decide⟩ 8 _ hstore).mpr
    rintro ⟨-, hunits⟩
    exact absurd hunits (by decide)
  · exact (@type_codec_law ⟨.int16, ascii "int16", 2, encode_int16, decode_int16⟩
      (by simp [kds_type_table])).2 rfl [52, 210] rfl

/-- The most negative decimal that can be entered. -/
def minDecimalEntry : CString := ⟨ascii "-922337203685477.5808", by decide⟩

/-- It is stored, but its stored form is not shown as a text that can be entered. -/
theorem min_decimal_not_shown : ∃ desc ∈ kds_type_table, desc.type_val = .decimal ∧
    desc.encode minDecimalEntry 8 = .ok (intBytes 8 S64_MIN) ∧
    ¬ desc.RoundTrips (intBytes 8 S64_MIN) := by
  have hmem : (⟨.decimal, ascii "decimal", 8, encode_decimal, decode_decimal⟩ : KdsTypeDesc) ∈
      kds_type_table := by simp [kds_type_table]
  have hstore : encode_decimal minDecimalEntry 8 = .ok (intBytes 8 S64_MIN) := by decide +kernel
  exact ⟨_, hmem, rfl, hstore, decimal_min_lost _ rfl rfl⟩

end Kds
