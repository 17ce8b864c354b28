import Kds.Text

/-! # Scalar types

    `types.c`: for each scalar type a name, a length, an encoder from text to
    stored bytes and a decoder back to text. An encoder returns the bytes it
    puts at the front of the caller's buffer; a decoder returns the number of
    characters it reports and the string it leaves in the caller's buffer.
-/

open Bytes Decimal

namespace Kds

/-! ### Hexadecimal bytes -/

/-- `hex_nibble`; `none` is -1. -/
def hex_nibble (c : UInt8) : Option Nat :=
  if 48 ≤ c ∧ c ≤ 57 then some (c.toNat - 48)
  else if 97 ≤ c ∧ c ≤ 102 then some (c.toNat - 97 + 10)
  else if 65 ≤ c ∧ c ≤ 70 then some (c.toNat - 65 + 10)
  else none

/-- The loop of `parse_hex_bytes`, two characters for each byte. -/
def parseHexPairs : List UInt8 → Except Errno (List UInt8)
  | [] => .ok []
  | [_] => .error .EINVAL
  | hi :: lo :: rest =>
    match hex_nibble hi, hex_nibble lo with
    | some h, some l =>
      match parseHexPairs rest with
      | .ok out => .ok (UInt8.ofNat (h * 16 + l) :: out)
      | .error e => .error e
    | _, _ => .error .EINVAL

def parse_hex_bytes (str : CString) (out_len : Nat) : Except Errno (List UInt8) :=
  if str.bytes.length ≠ out_len * 2 then .error .EINVAL
  else parseHexPairs str.bytes

/-- `hexdigits[d]`. -/
def hexdigit (d : Nat) : UInt8 := if d < 10 then UInt8.ofNat (48 + d) else UInt8.ofNat (87 + d)

def format_hex_bytes (data : List UInt8) : List UInt8 :=
  data.flatMap fun b => [hexdigit (b.toNat / 16), hexdigit (b.toNat % 16)]

/-! ### Fixed-width integers -/

def encode_int_generic (str_val : CString) (buf_size width : Nat) (min max : Int) :
    Except Errno (List UInt8) :=
  if buf_size < width then .error .ENOSPC
  else
    match kstrtoll str_val with
    | .error ret => .error ret
    | .ok v =>
      if v < min ∨ v > max then .error .ERANGE
      else if width = 1 ∨ width = 2 ∨ width = 4 ∨ width = 8 then .ok (intBytes width v)
      else .error .EINVAL

def decode_int_generic (buf : List UInt8) (out_size width : Nat) : Except Errno (Nat × CString) :=
  if buf.length ≠ width then .error .EINVAL
  else if width = 1 ∨ width = 2 ∨ width = 4 ∨ width = 8 then
    .ok (scnprintf out_size (fmtLld (bytesInt buf)))
  else .error .EINVAL

@[simp] def S32_MIN : Int := -2147483648
@[simp] def S32_MAX : Int := 2147483647
@[simp] def S64_MIN : Int := -9223372036854775808
@[simp] def S64_MAX : Int := 9223372036854775807

def encode_int8 (s : CString) (bs : Nat) := encode_int_generic s bs 1 (-128) 127
def decode_int8 (b : List UInt8) (os : Nat) := decode_int_generic b os 1

def encode_int16 (s : CString) (bs : Nat) := encode_int_generic s bs 2 (-32768) 32767
def decode_int16 (b : List UInt8) (os : Nat) := decode_int_generic b os 2

def encode_int32 (s : CString) (bs : Nat) := encode_int_generic s bs 4 S32_MIN S32_MAX
def decode_int32 (b : List UInt8) (os : Nat) := decode_int_generic b os 4

def encode_int64 (s : CString) (bs : Nat) := encode_int_generic s bs 8 S64_MIN S64_MAX
def decode_int64 (b : List UInt8) (os : Nat) := decode_int_generic b os 8

/-! ### Booleans and strings -/

/-- "1", "true" and "false". -/
def oneText : List UInt8 := [49]
def trueText : List UInt8 := [116, 114, 117, 101]
def falseText : List UInt8 := [102, 97, 108, 115, 101]

def encode_bool (str_val : CString) (buf_size : Nat) : Except Errno (List UInt8) :=
  if buf_size < 1 then .error .ENOSPC
  else .ok [if str_val.bytes = oneText ∨ str_val.bytes = trueText then 1 else 0]

def decode_bool (buf : List UInt8) (out_size : Nat) : Except Errno (Nat × CString) :=
  match buf with
  | [v] => .ok (scnprintf out_size (if v ≠ 0 then trueText else falseText))
  | _ => .error .EINVAL

@[simp] def U16_MAX : Nat := 65535

def encode_varchar (str_val : CString) (buf_size : Nat) : Except Errno (List UInt8) :=
  let len := str_val.bytes.length
  if len > U16_MAX ∨ len > buf_size then .error .ENOSPC else .ok str_val.bytes

def decode_varchar (buf : List UInt8) (out_size : Nat) : Except Errno (Nat × CString) :=
  if buf.length ≥ out_size then .error .ENOSPC else .ok (buf.length, CString.ofBuffer buf)

/-! ### Floats, as bit patterns -/

def encode_float (str_val : CString) (buf_size : Nat) : Except Errno (List UInt8) :=
  if buf_size < 4 then .error .ENOSPC
  else
    match parse_hex_bytes str_val 4 with
    | .error _ => .error .EINVAL
    | .ok buf => .ok buf

def decode_float (buf : List UInt8) (out_size : Nat) : Except Errno (Nat × CString) :=
  if buf.length ≠ 4 then .error .EINVAL
  else if out_size < 9 then .error .ENOSPC
  else .ok (8, CString.ofBuffer (format_hex_bytes buf))

/-! ### Decimals -/

@[simp] def KDS_DECIMAL_SCALE : Nat := 4

@[simp] def KDS_DECIMAL_SCALE_MUL : Int := 10000

/-- The loop over the fraction, up to `KDS_DECIMAL_SCALE` digits. -/
def fracDigits (frac_part : Int) (frac_digits : Nat) : List UInt8 → Int × Nat × List UInt8
  | [] => (frac_part, frac_digits, [])
  | c :: p =>
    if isDigit c ∧ frac_digits < KDS_DECIMAL_SCALE then
      fracDigits (wrap 64 (wrap 64 (frac_part * 10) + digitVal c)) (frac_digits + 1) p
    else (frac_part, frac_digits, c :: p)

/-- The loop that scales a short fraction up, `k` times. -/
def fracScale (frac_part : Int) : Nat → Int
  | 0 => frac_part
  | k + 1 => fracScale (wrap 64 (frac_part * 10)) k

/-- The text after an optional sign, and whether the sign was a minus. -/
def decimalSign : List UInt8 → Bool × List UInt8
  | [] => (false, [])
  | c :: p => if c = 45 then (true, p) else if c = 43 then (false, p) else (false, c :: p)

/-- The fraction, if a point follows the integer part. -/
def decimalFraction : List UInt8 → Int × Nat × List UInt8
  | 46 :: p =>
    let (frac_part, frac_digits, p) := fracDigits 0 0 p
    -- extra digits are cut off
    (frac_part, frac_digits, p.dropWhile isDigit)
  | p => (0, 0, p)

def encode_decimal (str_val : CString) (buf_size : Nat) : Except Errno (List UInt8) :=
  if buf_size < 8 then .error .ENOSPC
  else
    let (neg, p) := decimalSign str_val.bytes
    if p = [] then .error .EINVAL
    else
      let (int_part, p) := accDigits 0 p
      let (frac_part, frac_digits, p) := decimalFraction p
      if p ≠ [] then .error .EINVAL
      else
        let frac_part := fracScale frac_part (KDS_DECIMAL_SCALE - frac_digits)
        let result := wrap 64 (wrap 64 (int_part * KDS_DECIMAL_SCALE_MUL) + frac_part)
        let result := if neg then wrap 64 (-result) else result
        .ok (intBytes 8 result)

def decode_decimal (buf : List UInt8) (out_size : Nat) : Except Errno (Nat × CString) :=
  if buf.length ≠ 8 then .error .EINVAL
  else
    let v := bytesInt buf
    let neg := decide (v < 0)
    let v := if neg then wrap 64 (-v) else v
    let int_part := v.tdiv KDS_DECIMAL_SCALE_MUL
    let frac_part := v.tmod KDS_DECIMAL_SCALE_MUL
    .ok (scnprintf out_size ((if neg then [45] else []) ++ fmtLld int_part ++ [46] ++
      fmtPadded KDS_DECIMAL_SCALE frac_part))

/-! ### The registry -/

/-- `kds_type_val_t`. -/
inductive KdsTypeVal where
  | int8
  | int16
  | int32
  | int64
  | float
  | decimal
  | bool
  | varchar
  | char
  deriving DecidableEq, Repr

/-- `kds_type_desc_t`, less the comparison that nothing calls. -/
structure KdsTypeDesc where
  type_val : KdsTypeVal
  name : List UInt8
  fixed_len : Nat
  encode : CString → Nat → Except Errno (List UInt8)
  decode : List UInt8 → Nat → Except Errno (Nat × CString)

/-- The characters of a string literal. -/
def ascii (text : String) : List UInt8 := text.toList.map fun c => UInt8.ofNat c.toNat

def kds_type_table : List KdsTypeDesc :=
  [ ⟨.int8, ascii "int8", 1, encode_int8, decode_int8⟩,
    ⟨.int16, ascii "int16", 2, encode_int16, decode_int16⟩,
    ⟨.int32, ascii "int32", 4, encode_int32, decode_int32⟩,
    ⟨.int64, ascii "int64", 8, encode_int64, decode_int64⟩,
    ⟨.float, ascii "float", 4, encode_float, decode_float⟩,
    ⟨.decimal, ascii "decimal", 8, encode_decimal, decode_decimal⟩,
    ⟨.bool, ascii "bool", 1, encode_bool, decode_bool⟩,
    ⟨.varchar, ascii "varchar", 0, encode_varchar, decode_varchar⟩,
    ⟨.char, ascii "char", 0, encode_varchar, decode_varchar⟩ ]

def kds_type_lookup_by_name (name : CString) : Option KdsTypeDesc :=
  kds_type_table.find? fun desc => desc.name = name.bytes

end Kds
