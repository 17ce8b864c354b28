import Mathlib.Data.List.TakeWhile
import Kds.Core
import Kds.Lib.Decimal
import Kds.Lib.Signed

/-! # C strings and numbers in text

    A NUL-terminated string is the bytes before its NUL. Reading past the
    last of them reads the NUL, so a pointer into a string is a suffix of its
    bytes and `*p == '\0'` says that the suffix is empty.

    `kstrtoll` and `scnprintf` follow the kernel's documentation, for the
    base and the conversions the code uses. Signed 64-bit arithmetic wraps,
    as in kernel builds.
-/

open Bytes Decimal

namespace Kds

/-- A NUL-terminated string. -/
structure CString where
  bytes : List UInt8
  no_nul : (0 : UInt8) ∉ bytes
  deriving DecidableEq

theorem CString.ext' {s t : CString} (h : s.bytes = t.bytes) : s = t := by
  cases s
  cases t
  simpa using h

/-- The string in a buffer: what is before the first NUL. -/
def CString.ofBuffer (buf : List UInt8) : CString where
  bytes := buf.takeWhile (· != 0)
  no_nul := by
    intro h
    have := List.mem_takeWhile_imp h
    simp at this

/-- A buffer without a NUL holds all its bytes as a string. -/
theorem CString.ofBuffer_bytes {buf : List UInt8} (h : (0 : UInt8) ∉ buf) :
    (CString.ofBuffer buf).bytes = buf := by
  unfold CString.ofBuffer
  apply List.takeWhile_eq_self_iff.mpr
  intro c hc
  simp only [bne_iff_ne, ne_eq]
  rintro rfl
  exact h hc

/-! ### Accumulating digits -/

/-- `while (isdigit(*p)) { v = v * 10 + (*p - '0'); p++; }` on an `s64`. -/
def accDigits (v : Int) : List UInt8 → Int × List UInt8
  | [] => (v, [])
  | c :: p =>
    if isDigit c then accDigits (wrap 64 (wrap 64 (v * 10) + digitVal c)) p
    else (v, c :: p)

/-- The loop reads the longest run of digits and computes its value, up to wrapping. -/
theorem accDigits_eq (v : Int) (p : List UInt8) :
    wrap 64 (accDigits v p).1 =
        wrap 64 (v * (10 ^ (p.takeWhile isDigit).length : Nat) + value (p.takeWhile isDigit)) ∧
      (accDigits v p).2 = p.dropWhile isDigit := by
  induction p generalizing v with
  | nil => simp [accDigits]
  | cons c p ih =>
    unfold accDigits
    by_cases hc : isDigit c = true
    · obtain ⟨h₁, h₂⟩ := ih (wrap 64 (wrap 64 (v * 10) + digitVal c))
      rw [if_pos hc, List.takeWhile_cons_of_pos hc, List.dropWhile_cons_of_pos hc]
      refine ⟨?_, h₂⟩
      rw [h₁, wrap_add_left, ← wrap_add_left, wrap_mul_left, wrap_add_left, value_cons,
        List.length_cons]
      congr 1
      push_cast
      ring
    · rw [if_neg hc, List.takeWhile_cons_of_neg hc, List.dropWhile_cons_of_neg hc]
      simp

/-- A value that came out of the loop is an `s64`. -/
theorem wrap_accDigits {v : Int} (hv : wrap 64 v = v) (p : List UInt8) :
    wrap 64 (accDigits v p).1 = (accDigits v p).1 := by
  induction p generalizing v with
  | nil => exact hv
  | cons c p ih =>
    unfold accDigits
    by_cases hc : isDigit c = true
    · rw [if_pos hc]
      exact ih (wrap_wrap _ _)
    · rw [if_neg hc]
      exact hv

/-- From zero, the loop computes the wrapped value of the digits. -/
theorem accDigits_zero (p : List UInt8) :
    accDigits 0 p = (wrap 64 (value (p.takeWhile isDigit)), p.dropWhile isDigit) := by
  obtain ⟨h₁, h₂⟩ := accDigits_eq 0 p
  rw [wrap_accDigits (by decide)] at h₁
  apply Prod.ext
  · rw [h₁]
    simp
  · exact h₂

/-! ### Library calls -/

/-- `_kstrtoull` in base 10: digits, then at most one newline. -/
def kstrtoull (s : List UInt8) : Except Errno Nat :=
  let digits := s.takeWhile isDigit
  let rest := s.dropWhile isDigit
  if value digits ≥ 2 ^ 64 then .error .ERANGE
  else if digits = [] then .error .EINVAL
  else if rest = [] ∨ rest = [10] then .ok (value digits)
  else .error .EINVAL

/-- `kstrtoll(s, 10, &v)`. -/
def kstrtoll (s : CString) : Except Errno Int :=
  match s.bytes with
  | 45 :: digits =>
    match kstrtoull digits with
    | .error e => .error e
    | .ok tmp => if wrap 64 (-tmp) > 0 then .error .ERANGE else .ok (wrap 64 (-tmp))
  | bytes =>
    let digits := if bytes.head? = some 43 then bytes.tail else bytes
    match kstrtoull digits with
    | .error e => .error e
    | .ok tmp => if wrap 64 tmp < 0 then .error .ERANGE else .ok (wrap 64 tmp)

/-- `scnprintf` of a text: what fits the buffer, and its length. -/
def scnprintf (out_size : Nat) (text : List UInt8) : Nat × CString :=
  let written := text.take (out_size - 1)
  (written.length, CString.ofBuffer written)

/-- `%lld`. -/
def fmtLld (v : Int) : List UInt8 := signed v

/-- `%0*lld`: a sign counts towards the width. -/
def fmtPadded (width : Nat) (v : Int) : List UInt8 :=
  if v < 0 then 45 :: padded (width - 1) v.natAbs else padded width v.natAbs

theorem fmtLld_natCast (n : Nat) : fmtLld n = numeral n := by
  unfold fmtLld signed
  rw [if_neg (by omega), Int.natAbs_natCast]

theorem fmtPadded_natCast (width n : Nat) : fmtPadded width n = padded width n := by
  unfold fmtPadded
  rw [if_neg (by omega), Int.natAbs_natCast]

theorem takeWhile_numeral (n : Nat) (rest : List UInt8)
    (h : ∀ c, rest.head? = some c → isDigit c = false) :
    (numeral n ++ rest).takeWhile isDigit = numeral n ∧
      (numeral n ++ rest).dropWhile isDigit = rest := by
  have hall : ∀ c ∈ numeral n, isDigit c = true := numeral_isDigit n
  rw [List.takeWhile_append_of_pos hall, List.dropWhile_append_of_pos hall]
  cases rest with
  | nil => simp
  | cons c rest =>
    have hc := h c rfl
    simp [hc]

theorem kstrtoull_numeral {n : Nat} (h : n < 2 ^ 64) : kstrtoull (numeral n) = .ok n := by
  obtain ⟨htake, hdrop⟩ := takeWhile_numeral n [] (by simp)
  rw [List.append_nil] at htake hdrop
  unfold kstrtoull
  rw [htake, hdrop]
  dsimp only
  rw [value_numeral, if_neg (by omega), if_neg (numeral_ne_nil n), if_pos (.inl rfl)]

/-- A numeral does not start with a sign. -/
theorem numeral_head {n : Nat} {c : UInt8} (h : (numeral n).head? = some c) : isDigit c = true :=
  numeral_isDigit n c (List.mem_of_mem_head? h)

/-- `kstrtoll` reads back what `%lld` writes. -/
theorem kstrtoll_fmtLld {v : Int} (s : CString) (hs : s.bytes = fmtLld v) (hlo : -2 ^ 63 ≤ v)
    (hhi : v < 2 ^ 63) : kstrtoll s = .ok v := by
  unfold kstrtoll
  rw [hs]
  unfold fmtLld signed
  by_cases hneg : v < 0
  · rw [if_pos hneg]
    have hnum := @kstrtoull_numeral v.natAbs (by omega)
    have hval : wrap 64 (-(v.natAbs : Int)) = v := by
      rw [show -(v.natAbs : Int) = v by omega]
      exact wrap_of_mem (by decide) hlo hhi
    simp only [hnum, hval]
    rw [if_neg (by omega)]
  · rw [if_neg hneg]
    have hnum := @kstrtoull_numeral v.natAbs (by omega)
    have hval : wrap 64 (v.natAbs : Int) = v := by
      rw [show (v.natAbs : Int) = v by omega]
      exact wrap_of_mem (by decide) hlo hhi
    -- the first character is a digit and no sign
    cases hcs : numeral v.natAbs with
    | nil => exact absurd hcs (numeral_ne_nil _)
    | cons c cs =>
      have hdigit : isDigit c = true := numeral_head (by rw [hcs]; rfl)
      have h45 : c ≠ 45 := by rintro rfl; exact absurd hdigit (by decide)
      have h43 : c ≠ 43 := by rintro rfl; exact absurd hdigit (by decide)
      rw [hcs] at hnum
      split
      · rename_i heq
        exact absurd (List.cons.inj heq).1 h45
      · simp only [List.head?_cons, Option.some.injEq, h43, if_false, hnum, hval]
        rw [if_neg hneg]

end Kds
