import Kds.Codec
import Mathlib.Data.Rat.Floor

/-! # What a decimal is stored as

    `encode_decimal` on the numbers its texts denote. It stores the number,
    cut off after four digits, as long as that fits an `s64`; nothing is done
    about one that does not fit, and what wraps around is stored.
-/

open Bytes Decimal

namespace Kds

/-! ## Section 1: Texts and numbers -/

/-- `[+-]?`, and whether it is a minus. -/
inductive SignText : List UInt8 → Bool → Prop
  | none : SignText [] false
  | plus : SignText [43] false
  | minus : SignText [45] true

/-- `(.[0-9]*)?`, and the digits behind the point. -/
inductive FracText : List UInt8 → List UInt8 → Prop
  | none : FracText [] []
  | point {es : List UInt8} : (∀ c ∈ es, isDigit c = true) → FracText (46 :: es) es

/-- The number of a sign, the digits before a point and those behind it. -/
def decimalNumber (neg : Bool) (ds es : List UInt8) : ℚ :=
  let x : ℚ := value ds + value es / 10 ^ es.length
  if neg then -x else x

/-- `text` is of the form `[+-]?[0-9]*(.[0-9]*)?`, with a character behind the
    sign, and denotes `x`. -/
def Denotes (text : List UInt8) (x : ℚ) : Prop :=
  ∃ sign neg ds frac es, SignText sign neg ∧ (∀ c ∈ ds, isDigit c = true) ∧ FracText frac es ∧
    ds ++ frac ≠ [] ∧ text = sign ++ (ds ++ frac) ∧ x = decimalNumber neg ds es

/-- `x` without what is behind its point. -/
def truncate (x : ℚ) : Int := if 0 ≤ x then ⌊x⌋ else ⌈x⌉

/-- The ten-thousandths that a decimal stores of `x`. -/
def scaled (x : ℚ) : Int := truncate (x * 10 ^ KDS_DECIMAL_SCALE)

/-- The value is in the range of an `s64`. -/
abbrev FitsS64 (v : Int) : Prop := -2 ^ 63 ≤ v ∧ v < 2 ^ 63

theorem truncate_neg (x : ℚ) : truncate (-x) = -truncate x := by
  unfold truncate
  rcases lt_trichotomy x 0 with hx | rfl | hx
  · rw [if_pos (by linarith), if_neg (not_le.mpr hx), Int.floor_neg]
  · simp
  · rw [if_neg (by linarith), if_pos hx.le, Int.ceil_neg]

/-- The first `k` digits of a fraction, with zeros for those that are missing. -/
theorem value_take_zeros {es : List UInt8} (h : ∀ c ∈ es, isDigit c = true) (k : Nat) :
    value ((es ++ List.replicate k (digit 0)).take k) = value es * 10 ^ k / 10 ^ es.length := by
  have hall : ∀ c ∈ es ++ List.replicate k (digit 0), isDigit c = true := by
    intro c hc
    rcases List.mem_append.mp hc with hc | hc
    · exact h c hc
    · rw [List.eq_of_mem_replicate hc]
      exact isDigit_digit (by decide)
  have hwhole : value (es ++ List.replicate k (digit 0)) = value es * 10 ^ k := by
    rw [value_append, value_zeros, List.length_replicate, Nat.add_zero]
  have hrest : ((es ++ List.replicate k (digit 0)).drop k).length = es.length := by simp
  have hlt := @value_lt ((es ++ List.replicate k (digit 0)).drop k)
    fun c hc => hall c (List.mem_of_mem_drop hc)
  rw [← List.take_append_drop k (es ++ List.replicate k (digit 0)), value_append, hrest] at hwhole
  rw [hrest] at hlt
  symm
  rw [← hwhole, Nat.div_eq_iff (Nat.pow_pos (by decide))]
  constructor <;> omega

/-- The scaled number from the digits. -/
theorem scaled_decimalNumber (neg : Bool) (ds : List UInt8) {es : List UInt8}
    (h : ∀ c ∈ es, isDigit c = true) :
    scaled (decimalNumber neg ds es) =
      let units := value ds * 10 ^ KDS_DECIMAL_SCALE +
        value ((es ++ List.replicate KDS_DECIMAL_SCALE (digit 0)).take KDS_DECIMAL_SCALE)
      if neg then -(units : Int) else units := by
  have hpos : scaled (decimalNumber false ds es) =
      ((value ds * 10 ^ KDS_DECIMAL_SCALE +
        value ((es ++ List.replicate KDS_DECIMAL_SCALE (digit 0)).take KDS_DECIMAL_SCALE) : Nat) :
          Int) := by
    have hten : (0 : ℚ) < 10 ^ es.length := by positivity
    have hfrac : decimalNumber false ds es * 10 ^ KDS_DECIMAL_SCALE =
        (((value ds * 10 ^ es.length + value es) * 10 ^ KDS_DECIMAL_SCALE : Nat) : ℚ) /
          ((10 ^ es.length : Nat) : ℚ) := by
      show ((value ds : ℚ) + value es / 10 ^ es.length) * 10 ^ KDS_DECIMAL_SCALE = _
      push_cast
      field_simp
    have hnonneg : 0 ≤ decimalNumber false ds es * 10 ^ KDS_DECIMAL_SCALE := by
      rw [hfrac]
      positivity
    unfold scaled truncate
    rw [if_pos hnonneg, hfrac, Rat.floor_natCast_div_natCast, value_take_zeros h]
    norm_cast
    rw [Nat.add_mul, Nat.mul_right_comm, Nat.mul_comm _ (10 ^ es.length),
      Nat.mul_add_div (Nat.pow_pos (by decide))]
  cases neg with
  | false => exact hpos
  | true =>
    have hneg : decimalNumber true ds es = -decimalNumber false ds es := rfl
    unfold scaled at hpos ⊢
    rw [hneg, neg_mul, truncate_neg, hpos]
    rfl

/-! ## Section 2: The parts the encoder finds -/

theorem FracText.head {frac es : List UInt8} (h : FracText frac es) :
    ∀ c ∈ frac.head?, isDigit c = false := by
  intro c hc
  cases h with
  | none => cases hc
  | point _ =>
    obtain rfl : 46 = c := by simpa using hc
    decide

theorem FracText.frac {frac es : List UInt8} (h : FracText frac es) :
    decimalFrac frac = (es, []) := by
  cases h with
  | none => rfl
  | point hes =>
    rw [decimalFrac_point, List.takeWhile_eq_self_iff.mpr hes, List.dropWhile_eq_nil_iff.mpr hes]

/-- The digits before the point, and the rest. -/
theorem takeWhile_digits {ds frac es : List UInt8} (hds : ∀ c ∈ ds, isDigit c = true)
    (h : FracText frac es) :
    (ds ++ frac).takeWhile isDigit = ds ∧ (ds ++ frac).dropWhile isDigit = frac := by
  rw [List.takeWhile_append_of_pos hds, List.dropWhile_append_of_pos hds]
  cases frac with
  | nil => simp
  | cons c frac =>
    have hc := h.head c rfl
    rw [List.takeWhile_cons_of_neg (by simp [hc]), List.dropWhile_cons_of_neg (by simp [hc])]
    simp

theorem SignText.sign {sign : List UInt8} {neg : Bool} (h : SignText sign neg) {p : List UInt8}
    (hp : ∀ c ∈ p.head?, isDigit c = true ∨ c = 46) : decimalSign (sign ++ p) = (neg, p) := by
  cases h with
  | plus => rfl
  | minus => rfl
  | none =>
    cases p with
    | nil => rfl
    | cons c p =>
      have hne : ∀ d : UInt8, isDigit d = false → d ≠ 46 → c ≠ d := by
        rintro d hd h46 rfl
        rcases hp c rfl with hc | hc
        · rw [hd] at hc
          cases hc
        · exact h46 hc
      rw [List.nil_append, decimalSign, if_neg (hne 45 (by decide) (by decide)),
        if_neg (hne 43 (by decide) (by decide))]

/-- A text of the form is read as what it denotes. -/
theorem Denotes.parts {text : List UInt8} {x : ℚ} (h : Denotes text x) :
    (decimalSign text).2 ≠ [] ∧ (decimalFrac ((decimalSign text).2.dropWhile isDigit)).2 = [] ∧
      scaled x = if (decimalSign text).1 then -(decimalUnits text : Int) else decimalUnits text := by
  obtain ⟨sign, neg, ds, frac, es, hsign, hds, hfrac, hne, rfl, rfl⟩ := h
  have hhead : ∀ c ∈ (ds ++ frac).head?, isDigit c = true ∨ c = 46 := by
    intro c hc
    cases ds with
    | nil =>
      cases hfrac with
      | none => cases hc
      | point _ => exact Or.inr (by simpa using hc.symm)
    | cons d ds =>
      obtain rfl : d = c := by simpa using hc
      exact Or.inl (hds d List.mem_cons_self)
  obtain ⟨htake, hdrop⟩ := takeWhile_digits hds hfrac
  have hes : ∀ c ∈ es, isDigit c = true := by
    cases hfrac with
    | none => exact fun c hc => absurd hc List.not_mem_nil
    | point hes => exact hes
  unfold decimalUnits
  rw [hsign.sign hhead]
  dsimp only
  rw [htake, hdrop, hfrac.frac, scaled_decimalNumber neg ds hes]
  exact ⟨hne, rfl, rfl⟩

/-- What the encoder accepts is of the form. -/
theorem denotes_of_parts {text : List UInt8} (hne : (decimalSign text).2 ≠ [])
    (hend : (decimalFrac ((decimalSign text).2.dropWhile isDigit)).2 = []) :
    ∃ x, Denotes text x := by
  obtain ⟨sign, hsign, htext⟩ : ∃ sign, SignText sign (decimalSign text).1 ∧
      text = sign ++ (decimalSign text).2 := by
    cases text with
    | nil => exact ⟨[], .none, rfl⟩
    | cons c p =>
      by_cases h45 : c = 45
      · subst h45
        exact ⟨[45], .minus, rfl⟩
      · by_cases h43 : c = 43
        · subst h43
          exact ⟨[43], .plus, rfl⟩
        · rw [decimalSign, if_neg h45, if_neg h43]
          exact ⟨[], .none, rfl⟩
  generalize decimalSign text = parsed at *
  obtain ⟨neg, p⟩ := parsed
  dsimp only at hne hend hsign htext
  obtain ⟨es, hfrac⟩ : ∃ es, FracText (p.dropWhile isDigit) es := by
    generalize p.dropWhile isDigit = frac at hend
    unfold decimalFrac at hend
    split at hend
    · rename_i q
      exact ⟨q, .point (List.dropWhile_eq_nil_iff.mp hend)⟩
    · dsimp only at hend
      rw [hend]
      exact ⟨[], .none⟩
  refine ⟨_, sign, neg, p.takeWhile isDigit, p.dropWhile isDigit, es, hsign, ?_, hfrac, ?_, ?_, rfl⟩
  · exact fun c hc => List.mem_takeWhile_imp hc
  · rw [List.takeWhile_append_dropWhile]
    exact hne
  · rw [List.takeWhile_append_dropWhile]
    exact htext

/-! ## Section 3: The encoder -/

/-- The encoder stores the scaled number if that fits, and refuses everything
    else; nothing is stored, and no length, where it returns an error. -/
structure DecimalExact (s : CString) (buf_size : Nat) : Prop where
  stored : ∀ x, Denotes s.bytes x → FitsS64 (scaled x) →
    encode_decimal s buf_size = .ok (intBytes 8 (scaled x))
  tooLarge : ∀ x, Denotes s.bytes x → ¬ FitsS64 (scaled x) →
    ∃ e, encode_decimal s buf_size = .error e
  other : (∀ x, ¬ Denotes s.bytes x) → ∃ e, encode_decimal s buf_size = .error e

section encoder

variable {s : CString} {buf_size : Nat}

/-- A text of the form is never refused: what is stored has wrapped around. -/
theorem encode_decimal_denotes (hsize : 8 ≤ buf_size) {x : ℚ} (h : Denotes s.bytes x) :
    encode_decimal s buf_size = .ok (intBytes 8 (wrap 64 (scaled x))) := by
  obtain ⟨hne, hend, hscaled⟩ := h.parts
  rw [encode_decimal_eq s hsize, if_neg (by simp [hne, hend]), hscaled]

theorem encode_decimal_other (hsize : 8 ≤ buf_size) (h : ∀ x, ¬ Denotes s.bytes x) :
    encode_decimal s buf_size = .error .EINVAL := by
  rw [encode_decimal_eq s hsize, if_pos]
  by_contra hparts
  rw [not_or, not_not] at hparts
  obtain ⟨x, hx⟩ := denotes_of_parts hparts.1 hparts.2
  exact h x hx

/-- The encoder is exact on a text exactly when the number it denotes, if any,
    fits once it is scaled. -/
theorem encode_decimal_exact_iff (hsize : 8 ≤ buf_size) :
    DecimalExact s buf_size ↔ ∀ x, Denotes s.bytes x → FitsS64 (scaled x) := by
  constructor
  · intro h x hx
    by_contra hfit
    obtain ⟨e, he⟩ := h.tooLarge x hx hfit
    rw [encode_decimal_denotes hsize hx] at he
    cases he
  · intro hfit
    refine ⟨fun x hx hx' => ?_, fun x hx hx' => absurd (hfit x hx) hx', fun hother => ?_⟩
    · have hwrap : wrap 64 (scaled x) = scaled x := wrap_of_mem (by decide) hx'.1 hx'.2
      rw [encode_decimal_denotes hsize hx, hwrap]
    · exact ⟨.EINVAL, encode_decimal_other hsize hother⟩

end encoder

/-- A fraction with a digit too many is cut off. -/
theorem encode_decimal_exact_cut :
    DecimalExact ⟨ascii "-12.34567", by decide⟩ 8 := by
  refine (encode_decimal_exact_iff (by decide)).mpr fun x hx => ?_
  rw [hx.parts.2.2]
  decide

/-- An amount of 2^64 ten-thousandths. -/
def wrappedAmount : CString := ⟨ascii "1844674407370955.1616", by decide⟩

theorem wrappedAmount_denotes : ∃ x, Denotes wrappedAmount.bytes x :=
  denotes_of_parts (by decide) (by decide)

/-- It is not refused, but stored as zero. -/
theorem large_amount_stored_as_zero :
    (∃ x, Denotes wrappedAmount.bytes x ∧ ¬ FitsS64 (scaled x)) ∧
      encode_decimal wrappedAmount 8 = .ok (intBytes 8 0) ∧ ¬ DecimalExact wrappedAmount 8 := by
  obtain ⟨x, hx⟩ := wrappedAmount_denotes
  have hscaled : scaled x = 2 ^ 64 := by
    rw [hx.parts.2.2]
    decide
  have hbig : ¬ FitsS64 (scaled x) := by
    rw [hscaled]
    exact fun h => absurd h.2 (by decide)
  have hrun : encode_decimal wrappedAmount 8 = .ok (intBytes 8 0) := by
    rw [encode_decimal_denotes (by decide) hx, hscaled]
    rfl
  refine ⟨⟨x, hx, hbig⟩, hrun, fun h => ?_⟩
  obtain ⟨e, he⟩ := h.tooLarge x hx hbig
  rw [hrun] at he
  cases he

end Kds
