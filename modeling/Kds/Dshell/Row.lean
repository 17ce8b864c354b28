import Kds.Catalog.Create
import Kds.Codec
import Kds.Lib.Buffer
import Kds.Sql.Parser

/-! # Rows as bytes and as text

    `dshell.c`: a row is the bytes of its values one behind the other, those
    of a type without a fixed length behind two bytes with their number. A row
    is shown as `name=text` for each column. Buffers are lists of their bytes;
    a read or a write outside of one is a fault.
-/

open Bytes Buffer Decimal

namespace Kds

/-! ## Section 1: Buffers -/

/-- The `len` bytes at `off`. -/
def readAt (buf : List UInt8) (off len : Nat) : Except Fault (List UInt8) :=
  if off + len ≤ buf.length then .ok ((buf.drop off).take len) else .error .outOfBounds

/-- The bytes `bs` at `out + n`. -/
def writeAt (out : List UInt8) (n : Int) (bs : List UInt8) : Except Fault (List UInt8) :=
  if 0 ≤ n ∧ n + bs.length ≤ out.length then .ok (put out n.toNat bs) else .error .outOfBounds

/-- `out_size - n`, a `size_t`. -/
def roomAt (out : List UInt8) (n : Int) : Nat := (((out.length : Int) - n) % 2 ^ 64).toNat

/-- A text and its NUL at `out + n`, where there is room for anything at all. -/
def putText (out : List UInt8) (n : Int) (text : List UInt8) : Except Fault (List UInt8) :=
  if roomAt out n = 0 then .ok out else writeAt out n (text ++ [0])

/-- `n += scnprintf(out + n, out_size - n, ...)` with a size that `vsnprintf` takes. It
    refuses one above `INT_MAX`. -/
def printAt (out : List UInt8) (n : Int) (text : List UInt8) : Except Fault (Int × List UInt8) := do
  let shown := text.take (roomAt out n - 1)
  let out ← putText out n shown
  .ok (n + shown.length, out)

/-! ## Section 2: The functions -/

/-- `sizeof(u16)`. -/
@[simp] def LEN_SIZE : Nat := 2

def kds_type_lookup_by_val (type_val : UInt32) : Option KdsTypeDesc :=
  kds_type_table.find? fun desc => desc.type_val.code = type_val

/-- Where the value of a column starts, and its length. -/
def valueSpan (desc : KdsTypeDesc) (buf : List UInt8) (off : Nat) :
    Except Fault (Except Errno (Nat × Nat)) :=
  if desc.fixed_len = 0 then
    if off + LEN_SIZE > buf.length then .ok (.error .EINVAL)
    else do
      let value_len ← readAt buf off LEN_SIZE
      .ok (.ok (off + LEN_SIZE, leNat value_len))
  else .ok (.ok (off, desc.fixed_len))

/-- What a decoder puts in front of its NUL: the one for the types without a
    fixed length copies the bytes, the others print a string. -/
def shownBytes (desc : KdsTypeDesc) (value : List UInt8) (t : CString) : List UInt8 :=
  if desc.fixed_len = 0 then value else t.bytes

/-- What comes before column number `i`. -/
def printSep (i : Nat) (out : List UInt8) (n : Int) : Except Fault (Int × List UInt8) :=
  if i > 0 then printAt out n [44, 32] else .ok (n, out)

/-- The loop over the columns: column number, offset in the row, position in
    `out`. The result is the position and the offset behind the last column. -/
def decodeColumns (buf : List UInt8) :
    List KdsSysColumn → Nat → Nat → Int → List UInt8 →
      Except Fault (Except Errno (Int × Nat) × List UInt8)
  | [], _, off, n, out => .ok (.ok (n, off), out)
  | col :: cols, i, off, n, out =>
      match kds_type_lookup_by_val col.type_val with
      | none => .ok (.error .EINVAL, out)
      | some desc => do
          let (n, out) ← printSep i out n
          match ← valueSpan desc buf off with
          | .error e => .ok (.error e, out)
          | .ok (off, value_len) =>
              if off + value_len > buf.length then .ok (.error .EINVAL, out)
              else do
                let (n, out) ← printAt out n ((CatalogName.string col.name).bytes ++ [61])
                let value ← readAt buf off value_len
                match desc.decode value (roomAt out n) with
                | .error e => .ok (.error e, out)
                | .ok (decoded, t) => do
                    let out ← putText out n (shownBytes desc value t)
                    decodeColumns buf cols (i + 1) (off + value_len) (n + decoded) out

/-- `kds_dshell_decode_row`, with the offset behind the last column and the buffer. -/
def kds_dshell_decode_row (cols : List KdsSysColumn) (buf out : List UInt8) :
    Except Fault (Except Errno (Int × Nat) × List UInt8) :=
  decodeColumns buf cols 0 0 0 out

/-- `val_str`. -/
def valStr : KdsAstVal → CString
  | .int v => (scnprintf KDS_PARSER_VAL_MAX (fmtLld v)).2
  | .str s => CString.ofBuffer (s.bytes.take (KDS_PARSER_VAL_MAX - 1))
  | .null => CString.ofBuffer []

/-- The loop over the columns and the values; a missing value is read outside its array. -/
def encodeColumns : List KdsSysColumn → List KdsAstVal → Nat → List UInt8 →
    Except Fault (Except Errno Nat × List UInt8)
  | [], _, off, buf => .ok (.ok off, buf)
  | _ :: _, [], _, _ => .error .outOfBounds
  | col :: cols, val :: vals, off, buf =>
      match kds_type_lookup_by_val col.type_val with
      | none => .ok (.error .EINVAL, buf)
      | some desc =>
          if desc.fixed_len = 0 then
            if off + LEN_SIZE > buf.length then .ok (.error .ENOSPC, buf)
            else
              match desc.encode (valStr val) (buf.length - off - LEN_SIZE) with
              | .error e => .ok (.error e, buf)
              | .ok value => do
                  let buf ← writeAt buf (off + LEN_SIZE : Nat) value
                  let buf ← writeAt buf off (leBytes LEN_SIZE value.length)
                  encodeColumns cols vals (off + LEN_SIZE + value.length) buf
          else if off + desc.fixed_len > buf.length then .ok (.error .ENOSPC, buf)
          else
            match desc.encode (valStr val) (buf.length - off) with
            | .error e => .ok (.error e, buf)
            | .ok value => do
                let buf ← writeAt buf off value
                encodeColumns cols vals (off + value.length) buf

/-- `kds_dshell_encode_row_from_vals`: `out_len` and the buffer. -/
def kds_dshell_encode_row_from_vals (schema : KdsSchema) (vals : List KdsAstVal)
    (buf : List UInt8) : Except Fault (Except Errno UInt16 × List UInt8) :=
  match encodeColumns schema.cols vals 0 buf with
  | .error f => .error f
  | .ok (.error e, buf) => .ok (.error e, buf)
  | .ok (.ok off, buf) => .ok (.ok (UInt16.ofNat off), buf)

/-! ## Section 3: One value -/

/-- The bytes have the length the type asks for. -/
abbrev KdsTypeDesc.Sized (desc : KdsTypeDesc) (value : List UInt8) : Prop :=
  desc.fixed_len = 0 ∨ value.length = desc.fixed_len

/-- `text` is what the decoder makes of `value`: it shows all of it where there
    is room for it and its NUL, and otherwise nothing, or its front. -/
structure DecodesTo (desc : KdsTypeDesc) (value text : List UInt8) : Prop where
  full : ∀ size, text.length < size →
    desc.decode value size = .ok (text.length, CString.ofBuffer text)
  cut : ∀ size, size ≤ text.length → desc.decode value size = .error .ENOSPC ∨
    (desc.fixed_len ≠ 0 ∧ desc.decode value size = .ok (scnprintf size text))
  copied : desc.fixed_len = 0 → value = text
  printed : desc.fixed_len ≠ 0 → (0 : UInt8) ∉ text

/-- What the decoder makes of a value when it has room for any. -/
def showText (desc : KdsTypeDesc) (value : List UInt8) : List UInt8 :=
  match desc.decode value (value.length + 64) with
  | .error _ => []
  | .ok (_, t) => shownBytes desc value t

section values

variable {desc : KdsTypeDesc} {value text : List UInt8}

theorem DecodesTo.shownBytes (h : DecodesTo desc value text) :
    shownBytes desc value (CString.ofBuffer text) = text := by
  unfold Kds.shownBytes
  by_cases hfix : desc.fixed_len = 0
  · rw [if_pos hfix]
    exact h.copied hfix
  · rw [if_neg hfix]
    exact CString.ofBuffer_bytes (h.printed hfix)

theorem DecodesTo.showText (h : DecodesTo desc value text) (hlen : text.length < value.length + 64) :
    showText desc value = text := by
  unfold Kds.showText
  rw [h.full _ hlen]
  exact h.shownBytes

/-- The decoders that end in a `scnprintf`. -/
theorem decodesTo_of_scnprintf (hdec : ∀ size, desc.decode value size = .ok (scnprintf size text))
    (hfix : desc.fixed_len ≠ 0) (hnul : (0 : UInt8) ∉ text) : DecodesTo desc value text where
  full := fun size hsize => by rw [hdec, scnprintf_fits hsize]
  cut := fun size _ => Or.inr ⟨hfix, hdec size⟩
  copied := fun h => absurd h hfix
  printed := fun _ => hnul

theorem bytesInt_mem (hlen : value.length ≤ 8) :
    -2 ^ 63 ≤ bytesInt value ∧ bytesInt value < 2 ^ 63 := by
  have hpow : 256 ^ value.length ≤ 256 ^ 8 := Nat.pow_le_pow_right (by decide) hlen
  have hlo := @Int.le_bmod (leNat value) (256 ^ value.length) (Nat.pow_pos (by decide))
  have hhi := @Int.bmod_lt (leNat value) (256 ^ value.length) (Nat.pow_pos (by decide))
  unfold bytesInt
  norm_num at hpow
  constructor
  · omega
  · omega

theorem length_fmtLld {v : Int} (h : v.natAbs ≤ 2 ^ 63) : (fmtLld v).length ≤ 20 := by
  have hnum := @length_numeral_le v.natAbs 19 (by decide) (by omega)
  unfold fmtLld signed
  split
  · rw [List.length_cons]
    omega
  · omega

theorem length_decimalText {v : Int} (h : v.natAbs ≤ 2 ^ 63) : (decimalText v).length ≤ 40 := by
  have hnum := @length_numeral_le (v.natAbs / 10000) 19 (by decide) (by omega)
  have hpad := @length_padded 4 (v.natAbs % 10000) (by decide) (by omega)
  unfold decimalText
  split
  · simp only [List.length_append, List.length_singleton, hpad]
    omega
  · simp only [List.length_append, List.length_singleton, List.length_nil, hpad]
    omega

theorem int_decodesTo {width : Nat} (hw : width = 1 ∨ width = 2 ∨ width = 4 ∨ width = 8)
    (hdec : desc.decode = fun b n => decode_int_generic b n width) (hfix : desc.fixed_len = width)
    (hlen : value.length = width) :
    DecodesTo desc value (fmtLld (bytesInt value)) ∧ (fmtLld (bytesInt value)).length ≤ 20 := by
  refine ⟨decodesTo_of_scnprintf (fun size => ?_) (by omega) (nul_not_mem_fmtLld _),
    length_fmtLld (by have := @bytesInt_mem value (by omega); omega)⟩
  rw [hdec]
  dsimp only [decode_int_generic]
  rw [if_neg (by omega), if_pos hw]

theorem decimal_decodesTo (hdec : desc.decode = decode_decimal) (hfix : desc.fixed_len = 8)
    (hlen : value.length = 8) : ∃ text, DecodesTo desc value text ∧ text.length ≤ 40 := by
  have hvalue : intBytes 8 (bytesInt value) = value := hlen ▸ intBytes_bytesInt value
  obtain ⟨hlo, hhi⟩ := @bytesInt_mem value (by omega)
  generalize bytesInt value = v at hvalue hlo hhi
  subst hvalue
  by_cases hmin : v = S64_MIN
  · subst hmin
    refine ⟨minDecimalText, decodesTo_of_scnprintf (fun size => ?_) (by omega) (by decide), by decide⟩
    rw [hdec, decode_decimal_min]
  · rw [S64_MIN] at hmin
    refine ⟨decimalText v, decodesTo_of_scnprintf (fun size => ?_) (by omega)
      (nul_not_mem_decimalText v), length_decimalText (by omega)⟩
    rw [hdec, decode_decimal_eq (by omega) hhi]

theorem bool_decodesTo (hdec : desc.decode = decode_bool) (hfix : desc.fixed_len = 1)
    (hlen : value.length = 1) : ∃ text, DecodesTo desc value text ∧ text.length ≤ 40 := by
  obtain ⟨b, rfl⟩ := List.length_eq_one_iff.mp hlen
  refine ⟨if b ≠ 0 then trueText else falseText, decodesTo_of_scnprintf (fun size => ?_) (by omega) ?_,
    ?_⟩
  · rw [hdec]
    rfl
  · split
    · decide
    · decide
  · split
    · decide
    · decide

theorem float_decodesTo (hdec : desc.decode = decode_float) (hfix : desc.fixed_len = 4)
    (hlen : value.length = 4) : ∃ text, DecodesTo desc value text ∧ text.length ≤ 40 := by
  have htext : (format_hex_bytes value).length = 8 := by rw [length_format_hex_bytes, hlen]
  refine ⟨format_hex_bytes value, ⟨fun size hsize => ?_, fun size hsize => Or.inl ?_, ?_, ?_⟩, by omega⟩
  · rw [hdec, decode_float, if_neg (by omega), if_neg (by omega), htext]
  · rw [hdec, decode_float, if_neg (by omega), if_pos (by omega)]
  · intro h0
    omega
  · exact fun _ => nul_not_mem_format value

theorem varchar_decodesTo (hdec : desc.decode = decode_varchar) (hfix : desc.fixed_len = 0) :
    DecodesTo desc value value where
  full := fun size hsize => by rw [hdec, decode_varchar, if_neg (by omega)]
  cut := fun size hsize => Or.inl (by rw [hdec, decode_varchar, if_pos hsize])
  copied := fun _ => rfl
  printed := fun h => absurd hfix h

/-- **Decoders**: a value of the right length has one text, for every type. -/
theorem decodesTo_showText (hdesc : desc ∈ kds_type_table) (hsize : desc.Sized value) :
    DecodesTo desc value (showText desc value) := by
  obtain ⟨text, hto, hlen⟩ : ∃ text, DecodesTo desc value text ∧ text.length < value.length + 64 := by
    have hint : ∀ width, (width = 1 ∨ width = 2 ∨ width = 4 ∨ width = 8) →
        (desc.decode = fun b n => decode_int_generic b n width) → desc.fixed_len = width →
        ∃ text, DecodesTo desc value text ∧ text.length < value.length + 64 := by
      intro width hw hdec hfix
      obtain ⟨hto, hlen⟩ := int_decodesTo hw hdec hfix (hfix ▸ hsize.resolve_left (by omega))
      exact ⟨_, hto, by omega⟩
    have hshort : (∃ text, DecodesTo desc value text ∧ text.length ≤ 40) →
        ∃ text, DecodesTo desc value text ∧ text.length < value.length + 64 := by
      rintro ⟨text, hto, hlen⟩
      exact ⟨text, hto, by omega⟩
    simp only [kds_type_table, List.mem_cons, List.not_mem_nil, or_false] at hdesc
    rcases hdesc with rfl | rfl | rfl | rfl | rfl | rfl | rfl | rfl | rfl
    · exact hint 1 (by decide) rfl rfl
    · exact hint 2 (by decide) rfl rfl
    · exact hint 4 (by decide) rfl rfl
    · exact hint 8 (by decide) rfl rfl
    · exact hshort (float_decodesTo rfl rfl (hsize.resolve_left (by decide)))
    · exact hshort (decimal_decodesTo rfl rfl (hsize.resolve_left (by decide)))
    · exact hshort (bool_decodesTo rfl rfl (hsize.resolve_left (by decide)))
    · exact ⟨value, varchar_decodesTo rfl rfl, by omega⟩
    · exact ⟨value, varchar_decodesTo rfl rfl, by omega⟩
  rw [hto.showText hlen]
  exact hto

end values

/-! ## Section 4: Printing -/

section printing

variable {out text xs ys : List UInt8} {n : Nat}

theorem roomAt_natCast (hn : n ≤ out.length) (hout : out.length < 2 ^ 64) :
    roomAt out n = out.length - n := by
  unfold roomAt
  omega

theorem putText_ok (hn : n + text.length < out.length) (hout : out.length < 2 ^ 64) :
    putText out n text = .ok (put out n (text ++ [0])) := by
  unfold putText
  rw [roomAt_natCast (by omega) hout, if_neg (by omega), writeAt, if_pos, Int.toNat_natCast]
  rw [List.length_append, List.length_singleton]
  omega

/-- What a print does: the front of the text that there is room for. -/
theorem printAt_eq (text : List UInt8) (hn : n < out.length) (hout : out.length < 2 ^ 64) :
    printAt out n text =
      .ok ((n + min (out.length - n - 1) text.length : Nat),
        put out n (text.take (min (out.length - n - 1) text.length) ++ [0])) := by
  have hlen : (text.take (out.length - n - 1)).length = min (out.length - n - 1) text.length :=
    List.length_take
  have htake : text.take (min (out.length - n - 1) text.length) = text.take (out.length - n - 1) := by
    rw [← hlen, List.take_eq_take_iff, List.length_take]
    omega
  have hput := @putText_ok out (text.take (out.length - n - 1)) n (by omega) hout
  unfold printAt
  rw [roomAt_natCast (by omega) hout, htake]
  simp only [hput, bind, Except.bind, hlen, Nat.cast_add]

/-- A print never leaves the buffer. -/
theorem printAt_ok (text : List UInt8) (hn : n < out.length) (hout : out.length < 2 ^ 64) :
    ∃ k, k ≤ text.length ∧ n + k < out.length ∧ (n + text.length < out.length → k = text.length) ∧
      printAt out n text = .ok ((n + k : Nat), put out n (text.take k ++ [0])) :=
  ⟨min (out.length - n - 1) text.length, by omega, by omega, fun h => by omega,
    printAt_eq text hn hout⟩

/-- Two texts one behind the other. -/
theorem put_text_text (h : n + (xs ++ ys).length < out.length) :
    put (put out n (xs ++ [0])) (n + xs.length) (ys ++ [0]) = put out n (xs ++ ys ++ [0]) := by
  rw [List.length_append] at h
  rw [put_put]
  · rw [List.take_left' rfl, List.append_assoc]
  · simp only [List.length_append, List.length_singleton]
    omega
  · simp
  · simp only [List.length_append, List.length_singleton]
    omega

end printing

/-! ## Section 5: The row as text -/

/-- Where the value of a column starts, and its length, if the length is in the row. -/
def spanOf (desc : KdsTypeDesc) (buf : List UInt8) (off : Nat) : Option (Nat × Nat) :=
  if desc.fixed_len = 0 then
    if off + LEN_SIZE > buf.length then none
    else some (off + LEN_SIZE, leNat ((buf.drop off).take LEN_SIZE))
  else some (off, desc.fixed_len)

/-- The texts of the columns of a row, and the offset behind them; nothing if a
    type is not registered or the row ends too early. -/
def rowTexts (buf : List UInt8) : List KdsSysColumn → Nat → Option (List (List UInt8) × Nat)
  | [], off => some ([], off)
  | col :: cols, off => do
      let desc ← kds_type_lookup_by_val col.type_val
      let (start, len) ← spanOf desc buf off
      if start + len > buf.length then none
      else
        let (texts, stop) ← rowTexts buf cols (start + len)
        some (showText desc ((buf.drop start).take len) :: texts, stop)

/-- `name=text`. -/
def columnText (col : KdsSysColumn) (text : List UInt8) : List UInt8 :=
  (CatalogName.string col.name).bytes ++ [61] ++ text

/-- The text before column number `i`. -/
def sepText (i : Nat) : List UInt8 := if i > 0 then [44, 32] else []

/-- What is printed from column number `i` on. -/
def rowTextFrom : Nat → List KdsSysColumn → List (List UInt8) → List UInt8
  | i, col :: cols, text :: texts =>
      sepText i ++ columnText col text ++ rowTextFrom (i + 1) cols texts
  | _, _, _ => []

/-- The text of a row: `name=text`, with a comma and a blank between the columns. -/
def rowText (cols : List KdsSysColumn) (texts : List (List UInt8)) : List UInt8 :=
  [44, 32].intercalate (List.zipWith columnText cols texts)

theorem intercalate_cons_flatMap (sep x : List UInt8) (l : List (List UInt8)) :
    sep.intercalate (x :: l) = x ++ l.flatMap fun y => sep ++ y := by
  induction l generalizing x with
  | nil => simp [List.intercalate]
  | cons y l ih =>
    have hstep : sep.intercalate (x :: y :: l) = x ++ (sep ++ sep.intercalate (y :: l)) := by
      simp [List.intercalate]
    rw [hstep, ih, List.flatMap_cons, List.append_assoc]

theorem rowTextFrom_zero (cols : List KdsSysColumn) (texts : List (List UInt8)) :
    rowTextFrom 0 cols texts = rowText cols texts := by
  have hsucc : ∀ (cols : List KdsSysColumn) (texts : List (List UInt8)) (i : Nat),
      rowTextFrom (i + 1) cols texts =
        (List.zipWith columnText cols texts).flatMap fun t => [44, 32] ++ t := by
    intro cols
    induction cols with
    | nil => intro texts i; rfl
    | cons col cols ih =>
      intro texts i
      cases texts with
      | nil => rfl
      | cons text texts =>
        rw [rowTextFrom, sepText, if_pos (Nat.succ_pos i), ih, List.zipWith_cons_cons, List.flatMap_cons]
  cases cols with
  | nil => rfl
  | cons col cols =>
    cases texts with
    | nil => rfl
    | cons text texts =>
      rw [rowTextFrom, hsucc, rowText, List.zipWith_cons_cons, intercalate_cons_flatMap]
      rfl

/-! ## Section 6: One column -/

section column

variable {desc : KdsTypeDesc} {value text buf out : List UInt8} {col : KdsSysColumn}
  {cols : List KdsSysColumn} {i off n start len : Nat}

/-- A decoder at `out + n`: it shows as much of its text as there is room for,
    or reports that the text does not fit. -/
theorem show_safe (hto : DecodesTo desc value text) (hn : n < out.length)
    (hout : out.length < 2 ^ 64) :
    (desc.decode value (roomAt out n) = .error .ENOSPC ∧ out.length ≤ n + text.length) ∨
      ∃ k t, n + k < out.length ∧ (n + text.length < out.length → k = text.length) ∧
        desc.decode value (roomAt out n) = .ok (k, t) ∧
        putText out n (shownBytes desc value t) = .ok (put out n (text.take k ++ [0])) := by
  rw [roomAt_natCast (by omega) hout]
  by_cases hfits : n + text.length < out.length
  · refine Or.inr ⟨text.length, _, hfits, fun _ => rfl, hto.full _ (by omega), ?_⟩
    rw [hto.shownBytes, putText_ok hfits hout, List.take_length]
  · rcases hto.cut (out.length - n) (by omega) with hnospc | ⟨hfix, hcut⟩
    · exact Or.inl ⟨hnospc, by omega⟩
    · have hlen : (text.take (out.length - n - 1)).length = out.length - n - 1 := by
        rw [List.length_take]
        omega
      have hnul : (0 : UInt8) ∉ text.take (out.length - n - 1) :=
        fun h => hto.printed hfix (List.mem_of_mem_take h)
      refine Or.inr ⟨out.length - n - 1, CString.ofBuffer (text.take (out.length - n - 1)), by omega,
        fun h => absurd h hfits, ?_, ?_⟩
      · rw [hcut, scnprintf, hlen]
      · rw [shownBytes, if_neg hfix, CString.ofBuffer_bytes hnul, putText_ok (by omega) hout]

theorem spanOf_sized (hspan : spanOf desc buf off = some (start, len))
    (hend : start + len ≤ buf.length) : desc.Sized ((buf.drop start).take len) := by
  unfold spanOf at hspan
  split at hspan
  · rename_i hfix
    exact Or.inl hfix
  · obtain ⟨rfl, rfl⟩ := Prod.mk.inj (Option.some.inj hspan)
    refine Or.inr ?_
    rw [List.length_take, List.length_drop]
    omega

theorem lookup_mem (hlook : kds_type_lookup_by_val col.type_val = some desc) :
    desc ∈ kds_type_table := List.mem_of_find?_eq_some hlook

/-- The length of a value is read inside the row. -/
theorem valueSpan_eq (desc : KdsTypeDesc) (buf : List UInt8) (off : Nat) :
    valueSpan desc buf off = .ok ((spanOf desc buf off).elim (.error .EINVAL) .ok) := by
  unfold valueSpan spanOf
  by_cases hfix : desc.fixed_len = 0
  · rw [if_pos hfix, if_pos hfix]
    by_cases hend : off + LEN_SIZE > buf.length
    · rw [if_pos hend, if_pos hend]
      rfl
    · rw [if_neg hend, if_neg hend, readAt, if_pos (by omega)]
      rfl
  · rw [if_neg hfix, if_neg hfix]
    rfl

/-- `text` and a NUL at `out + n`; nothing yet if `text` is empty. -/
def Shows (out : List UInt8) (n : Nat) (text out' : List UInt8) : Prop :=
  out' = if text = [] then out else put out n (text ++ [0])

theorem Shows.next {xs ys out' : List UInt8} (h : Shows out n xs out')
    (hfits : n + (xs ++ ys).length < out.length) :
    put out' (n + xs.length) (ys ++ [0]) = put out n (xs ++ ys ++ [0]) := by
  unfold Shows at h
  subst h
  by_cases hnil : xs = []
  · subst hnil
    rfl
  · rw [if_neg hnil, put_text_text hfits]

theorem printSep_ok (i : Nat) (hn : n < out.length) (hout : out.length < 2 ^ 64) :
    ∃ k out', k ≤ (sepText i).length ∧ n + k < out.length ∧ out'.length = out.length ∧
      printSep i out n = .ok (((n + k : Nat) : Int), out') ∧
      (n + (sepText i).length < out.length → k = (sepText i).length ∧ Shows out n (sepText i) out') := by
  unfold printSep sepText
  by_cases hi : i > 0
  · obtain ⟨k, hkle, hk, hfits, hrun⟩ := printAt_ok [44, 32] hn hout
    rw [if_pos hi, if_pos hi]
    refine ⟨k, _, hkle, hk, length_put ?_, hrun, fun h => ⟨hfits h, ?_⟩⟩
    · rw [List.length_append, List.length_take, List.length_singleton]
      omega
    · rw [hfits h]
      rfl
  · rw [if_neg hi, if_neg hi]
    exact ⟨0, out, Nat.zero_le _, hn, rfl, rfl, fun _ => ⟨rfl, rfl⟩⟩

/-- **One column**: printed whole where there is room for it; otherwise the
    buffer is full up to some byte, or the decoder gives up. -/
theorem decodeColumns_step (hlook : kds_type_lookup_by_val col.type_val = some desc)
    (hspan : spanOf desc buf off = some (start, len)) (hend : start + len ≤ buf.length)
    (hn : n < out.length) (hout : out.length < 2 ^ 64) (first : List UInt8)
    (hfirst : first = sepText i ++ columnText col (showText desc ((buf.drop start).take len))) :
    (n + first.length < out.length →
      decodeColumns buf (col :: cols) i off n out =
        decodeColumns buf cols (i + 1) (start + len) (n + first.length : Nat)
          (put out n (first ++ [0]))) ∧
    ∃ out', out'.length = out.length ∧
      ((out.length ≤ n + first.length ∧
          decodeColumns buf (col :: cols) i off n out = .ok (.error .ENOSPC, out')) ∨
        ∃ m, n ≤ m ∧ m < out.length ∧
          decodeColumns buf (col :: cols) i off n out =
            decodeColumns buf cols (i + 1) (start + len) (m : Nat) out') := by
  have hto := decodesTo_showText (lookup_mem hlook) (spanOf_sized hspan hend)
  generalize showText desc ((buf.drop start).take len) = text at hto hfirst
  have hlen : first.length = (sepText i).length +
      ((CatalogName.string col.name).bytes ++ [61]).length + text.length := by
    rw [hfirst, columnText]
    simp only [List.length_append]
    omega
  -- separator, name and value are printed one after the other, each as far as there is room
  obtain ⟨k₁, out₁, hk₁le, hk₁, hlen₁, hsep, hfits₁⟩ := printSep_ok i hn hout
  obtain ⟨k₂, hk₂le, hk₂, hfits₂, hname⟩ :=
    @printAt_ok out₁ (n + k₁) ((CatalogName.string col.name).bytes ++ [61]) (by omega) (by omega)
  generalize hout₂ : put out₁ (n + k₁)
    (((CatalogName.string col.name).bytes ++ [61]).take k₂ ++ [0]) = out₂ at hname
  have hlen₂ : out₂.length = out.length := by
    rw [← hout₂, length_put, hlen₁]
    rw [List.length_append, List.length_take, List.length_singleton]
    omega
  have hread : readAt buf start len = .ok ((buf.drop start).take len) := if_pos hend
  rcases @show_safe desc _ text out₂ (n + k₁ + k₂) hto (by omega) (by omega) with
    ⟨hdec, hfull⟩ | ⟨k₃, t, hk₃, hfits₃, hdec, hput⟩
  -- the value's own decoder has no room
  · have hrun : decodeColumns buf (col :: cols) i off n out = .ok (.error .ENOSPC, out₂) := by
      simp only [decodeColumns, hlook, bind, Except.bind, hsep, valueSpan_eq, hspan, Option.elim,
        if_neg (Nat.not_lt.mpr hend), hname, hread, hdec]
    exact ⟨fun h => absurd h (by omega), out₂, hlen₂, Or.inl ⟨by omega, hrun⟩⟩
  · have hrun : decodeColumns buf (col :: cols) i off n out =
        decodeColumns buf cols (i + 1) (start + len) (n + k₁ + k₂ + k₃ : Nat)
          (put out₂ (n + k₁ + k₂) (text.take k₃ ++ [0])) := by
      rw [Nat.cast_add (n + k₁ + k₂) k₃]
      simp only [decodeColumns, hlook, bind, Except.bind, hsep, valueSpan_eq, hspan, Option.elim,
        if_neg (Nat.not_lt.mpr hend), hname, hread, hdec, hput]
    refine ⟨fun h => ?_, _, ?_, Or.inr ⟨n + k₁ + k₂ + k₃, by omega, by omega, hrun⟩⟩
    · -- everything was printed whole
      obtain ⟨rfl, hsep'⟩ := hfits₁ (by omega)
      obtain rfl := hfits₂ (by omega)
      obtain rfl := hfits₃ (by omega)
      rw [List.take_length, hsep'.next (by rw [List.length_append]; omega)] at hout₂
      have hpos : n + (sepText i).length + ((CatalogName.string col.name).bytes ++ [61]).length +
          text.length = n + first.length := by omega
      have hput₃ : put out₂ (n + (sepText i).length +
          ((CatalogName.string col.name).bytes ++ [61]).length) (text ++ [0]) =
            put out n (first ++ [0]) := by
        rw [← hout₂, Nat.add_assoc n, ← List.length_append, put_text_text, hfirst, columnText,
          List.append_assoc (sepText i)]
        rw [List.append_assoc, ← List.append_assoc, List.append_assoc, ← columnText, ← hfirst]
        exact h
      rw [hrun, List.take_length, hpos, hput₃]
    · rw [length_put, hlen₂]
      rw [List.length_append, List.length_take, List.length_singleton]
      omega

end column

/-! ## Section 7: The row -/

section row

variable {buf : List UInt8}

/-- What `rowTexts` knows of the first column. -/
theorem rowTexts_cons {col : KdsSysColumn} {cols : List KdsSysColumn} {off stop : Nat}
    {texts : List (List UInt8)} (h : rowTexts buf (col :: cols) off = some (texts, stop)) :
    ∃ desc start len rest, kds_type_lookup_by_val col.type_val = some desc ∧
      spanOf desc buf off = some (start, len) ∧ start + len ≤ buf.length ∧
      rowTexts buf cols (start + len) = some (rest, stop) ∧
      texts = showText desc ((buf.drop start).take len) :: rest := by
  simp only [rowTexts, Option.bind_eq_bind, Option.bind_eq_some_iff] at h
  obtain ⟨desc, hlook, ⟨start, len⟩, hspan, h⟩ := h
  dsimp only at h
  split at h
  · cases h
  · obtain ⟨⟨rest, stop'⟩, hrest, h⟩ := Option.bind_eq_some_iff.mp h
    obtain ⟨rfl, rfl⟩ := Prod.mk.inj (Option.some.inj h)
    exact ⟨desc, start, len, rest, hlook, hspan, by omega, hrest, rfl⟩

theorem rowTexts_cons_of {col : KdsSysColumn} {cols : List KdsSysColumn} {off start len stop : Nat}
    {desc : KdsTypeDesc} {rest : List (List UInt8)}
    (hlook : kds_type_lookup_by_val col.type_val = some desc)
    (hspan : spanOf desc buf off = some (start, len)) (hend : start + len ≤ buf.length)
    (hrest : rowTexts buf cols (start + len) = some (rest, stop)) :
    rowTexts buf (col :: cols) off =
      some (showText desc ((buf.drop start).take len) :: rest, stop) := by
  simp only [rowTexts, hlook, hspan, Option.bind_eq_bind, Option.bind_some,
    if_neg (Nat.not_lt.mpr hend), hrest]

/-- The loop on a row that is complete, with room for its text. -/
theorem decodeColumns_fits (cols : List KdsSysColumn) :
    ∀ (i off n stop : Nat) (texts : List (List UInt8)) (out : List UInt8),
      rowTexts buf cols off = some (texts, stop) → out.length < 2 ^ 64 →
      n + (rowTextFrom i cols texts).length < out.length →
      decodeColumns buf cols i off n out =
        .ok (.ok ((n + (rowTextFrom i cols texts).length : Nat), stop),
          if cols = [] then out else put out n (rowTextFrom i cols texts ++ [0])) := by
  induction cols with
  | nil =>
    intro i off n stop texts out hrow _ _
    obtain ⟨rfl, rfl⟩ := Prod.mk.inj (Option.some.inj hrow)
    rfl
  | cons col cols ih =>
    intro i off n stop texts out hrow hout hfits
    obtain ⟨desc, start, len, rest, hlook, hspan, hend, hrest, rfl⟩ := rowTexts_cons hrow
    rw [rowTextFrom] at hfits ⊢
    generalize hfirst : sepText i ++ columnText col (showText desc ((buf.drop start).take len)) =
      first at hfits ⊢
    rw [List.length_append] at hfits
    have hstep := (@decodeColumns_step _ _ _ _ cols _ _ _ _ _ hlook hspan hend
      (show n < out.length by omega) hout first hfirst.symm).1 (by omega)
    have hlen : (put out n (first ++ [0])).length = out.length := by
      rw [length_put]
      rw [List.length_append, List.length_singleton]
      omega
    rw [hstep, ih (i + 1) (start + len) (n + first.length) stop rest _ hrest (by omega) (by omega),
      List.length_append, Nat.add_assoc, if_neg (List.cons_ne_nil _ _)]
    cases cols with
    | nil =>
      have hnil : rowTextFrom (i + 1) [] rest = [] := by rw [rowTextFrom]; simp
      rw [if_pos rfl, hnil, List.append_nil]
    | cons col' cols' =>
      rw [if_neg (List.cons_ne_nil _ _), put_text_text]
      rw [List.length_append]
      omega

/-- The loop on any row and any buffer: it ends without a fault, either with an
    error or behind the last column of a row that is complete. -/
theorem decodeColumns_safe (cols : List KdsSysColumn) :
    ∀ (i off n : Nat) (out : List UInt8), n < out.length → out.length < 2 ^ 64 →
      ∃ r out', decodeColumns buf cols i off n out = .ok (r, out') ∧ out'.length = out.length ∧
        (∀ e, r = .error e → rowTexts buf cols off = none ∨ e = .ENOSPC) ∧
        ∀ m stop, r = .ok (m, stop) → n ≤ m ∧ m < out.length ∧
          ∃ texts, rowTexts buf cols off = some (texts, stop) := by
  induction cols with
  | nil =>
    intro i off n out hn _
    refine ⟨_, out, rfl, rfl, fun e he => (by cases he), fun m stop hm => ?_⟩
    obtain ⟨rfl, rfl⟩ := Prod.mk.inj (Except.ok.inj hm)
    exact ⟨Int.le_refl _, by omega, [], rfl⟩
  | cons col cols ih =>
    intro i off n out hn hout
    cases hlook : kds_type_lookup_by_val col.type_val with
    | none =>
      refine ⟨.error .EINVAL, out, by simp only [decodeColumns, hlook], rfl, fun e _ => Or.inl ?_,
        fun m stop hm => by cases hm⟩
      simp only [rowTexts, hlook, Option.bind_eq_bind, Option.bind_none]
    | some desc =>
      obtain ⟨k₁, out₁, -, hk₁, hlen₁, hsep, -⟩ := printSep_ok i hn hout
      -- the length of a value may lie beyond the row
      cases hspan : spanOf desc buf off with
      | none =>
        refine ⟨.error .EINVAL, out₁, ?_, hlen₁, fun e _ => Or.inl ?_, fun m stop hm => by cases hm⟩
        · simp only [decodeColumns, hlook, bind, Except.bind, hsep, valueSpan_eq, hspan, Option.elim]
        · simp only [rowTexts, hlook, hspan, Option.bind_eq_bind, Option.bind_none, Option.bind_some]
      | some span =>
        obtain ⟨start, len⟩ := span
        -- and so may its bytes, which are then not read
        by_cases hend : start + len ≤ buf.length
        · obtain ⟨-, out', hlen', hcases⟩ := @decodeColumns_step _ _ _ _ cols _ _ _ _ _ hlook hspan hend hn
            hout _ rfl
          rcases hcases with ⟨-, hrun⟩ | ⟨m, hnm, hm, hrun⟩
          · exact ⟨_, out', hrun, hlen', fun e he => Or.inr (Except.error.inj he).symm,
              fun m stop hm => by cases hm⟩
          · obtain ⟨r, out'', hrun', hlen'', herr, hok⟩ :=
              ih (i + 1) (start + len) m out' (by omega) (by omega)
            refine ⟨r, out'', hrun.trans hrun', by omega, fun e he => ?_, fun m' stop hm' => ?_⟩
            · refine (herr e he).imp_left fun hnone => ?_
              simp only [rowTexts, hlook, hspan, Option.bind_eq_bind, Option.bind_some,
                if_neg (Nat.not_lt.mpr hend), hnone, Option.bind_none]
            · obtain ⟨hle, hlt, rest, hrest⟩ := hok m' stop hm'
              exact ⟨by omega, by omega, _, rowTexts_cons_of hlook hspan hend hrest⟩
        · refine ⟨.error .EINVAL, out₁, ?_, hlen₁, fun e _ => Or.inl ?_, fun m stop hm => by cases hm⟩
          · simp only [decodeColumns, hlook, bind, Except.bind, hsep, valueSpan_eq, hspan, Option.elim,
              if_pos (Nat.lt_of_not_le hend)]
          · simp only [rowTexts, hlook, hspan, Option.bind_eq_bind, Option.bind_some,
              if_pos (Nat.lt_of_not_le hend)]

/-- Some column's bytes, or the bytes with their number, go past the end of the row. -/
def RunsOver (buf : List UInt8) : List KdsSysColumn → Nat → Prop
  | [], _ => False
  | col :: cols, off => ∃ desc, kds_type_lookup_by_val col.type_val = some desc ∧
      (spanOf desc buf off = none ∨ ∃ start len, spanOf desc buf off = some (start, len) ∧
        (start + len > buf.length ∨ RunsOver buf cols (start + len)))

theorem rowTexts_of_runsOver {cols : List KdsSysColumn} :
    ∀ {off : Nat}, RunsOver buf cols off → rowTexts buf cols off = none := by
  induction cols with
  | nil => exact fun h => absurd h id
  | cons col cols ih =>
    intro off h
    obtain ⟨desc, hlook, hover⟩ := h
    simp only [rowTexts, hlook, Option.bind_eq_bind, Option.bind_some]
    rcases hover with hnone | ⟨start, len, hspan, hover⟩
    · rw [hnone, Option.bind_none]
    · rw [hspan, Option.bind_some]
      dsimp only
      split
      · rfl
      · rename_i hend
        rw [ih (hover.resolve_left hend), Option.bind_none]

/-- `kds_dshell_decode_row` on any bytes. -/
theorem decode_row_safe (cols : List KdsSysColumn) (out : List UInt8) (hpos : 1 ≤ out.length)
    (hout : out.length < 2 ^ 64) :
    ∃ r out', kds_dshell_decode_row cols buf out = .ok (r, out') ∧ out'.length = out.length ∧
      (∀ e, r = .error e → rowTexts buf cols 0 = none ∨ e = .ENOSPC) ∧
      (RunsOver buf cols 0 → ∃ e, r = .error e) ∧
      ∀ m stop, r = .ok (m, stop) → 0 ≤ m ∧ m < out.length ∧ ∃ texts, rowTexts buf cols 0 = some (texts, stop) := by
  obtain ⟨r, out', hrun, hlen, herr, hok⟩ := @decodeColumns_safe buf cols 0 0 0 out hpos hout
  refine ⟨r, out', hrun, hlen, herr, fun hover => ?_, hok⟩
  cases r with
  | error e => exact ⟨e, rfl⟩
  | ok res =>
    obtain ⟨-, -, texts, htexts⟩ := hok res.1 res.2 rfl
    rw [rowTexts_of_runsOver hover] at htexts
    cases htexts

/-- `kds_dshell_decode_row` on a complete row, with room for its text. -/
theorem decode_row_fits {cols : List KdsSysColumn} {stop : Nat} {texts : List (List UInt8)}
    {out : List UInt8} (hrow : rowTexts buf cols 0 = some (texts, stop)) (hout : out.length < 2 ^ 64)
    (hfits : (rowText cols texts).length < out.length) :
    ∃ out', kds_dshell_decode_row cols buf out = .ok (.ok ((rowText cols texts).length, stop), out') ∧
      Shows out 0 (rowText cols texts) out' := by
  have hrun := decodeColumns_fits cols 0 0 0 stop texts out hrow hout
    (by rw [rowTextFrom_zero, Nat.zero_add]; exact hfits)
  rw [rowTextFrom_zero, Nat.zero_add] at hrun
  refine ⟨_, hrun, ?_⟩
  unfold Shows
  cases cols with
  | nil =>
    have hnil : rowText [] texts = [] := by simp [rowText, List.intercalate]
    rw [if_pos rfl, if_pos hnil]
  | cons col cols =>
    obtain ⟨desc, start, len, rest, -, -, -, -, rfl⟩ := rowTexts_cons hrow
    rw [if_neg (List.cons_ne_nil _ _), if_neg]
    rw [rowText, List.zipWith_cons_cons, intercalate_cons_flatMap]
    simp [columnText]

end row

/-! ## Section 8: Encoding -/

/-- Values encoded each by the type of its column. -/
inductive EncodedAs : List KdsSysColumn → List KdsAstVal → List (KdsTypeDesc × List UInt8) → Prop
  | nil : EncodedAs [] [] []
  | cons {col : KdsSysColumn} {cols : List KdsSysColumn} {val : KdsAstVal} {vals : List KdsAstVal}
      {desc : KdsTypeDesc} {value : List UInt8} {parts : List (KdsTypeDesc × List UInt8)}
      {size : Nat} :
      kds_type_lookup_by_val col.type_val = some desc →
      desc.encode (valStr val) size = .ok value → EncodedAs cols vals parts →
      EncodedAs (col :: cols) (val :: vals) ((desc, value) :: parts)

/-- A value in a row, behind its length if the type has none of its own. -/
def partBytes (part : KdsTypeDesc × List UInt8) : List UInt8 :=
  if part.1.fixed_len = 0 then leBytes LEN_SIZE part.2.length ++ part.2 else part.2

/-- The bytes of a row. -/
def rowBytes (parts : List (KdsTypeDesc × List UInt8)) : List UInt8 := parts.flatMap partBytes

section encoding

theorem length_ofBuffer_le (bs : List UInt8) : (CString.ofBuffer bs).bytes.length ≤ bs.length :=
  (List.takeWhile_sublist _).length_le

theorem length_valStr (val : KdsAstVal) : (valStr val).bytes.length ≤ 255 := by
  cases val with
  | int v =>
    refine (length_ofBuffer_le _).trans ?_
    rw [List.length_take, KDS_PARSER_VAL_MAX]
    omega
  | str s =>
    refine (length_ofBuffer_le _).trans ?_
    rw [List.length_take, KDS_PARSER_VAL_MAX]
    omega
  | null => exact Nat.zero_le _

theorem encode_int_sized {s : CString} {size width : Nat} {min max : Int} {value : List UInt8}
    (h : encode_int_generic s size width min max = .ok value) :
    value.length = width ∧ width ≤ size := by
  obtain ⟨v, -, -, rfl⟩ := encode_int_inv h
  refine ⟨length_intBytes width v, ?_⟩
  by_contra hlt
  rw [encode_int_generic, if_pos (by omega)] at h
  cases h

/-- An encoder stores the bytes of the string or as many bytes as its type has. -/
theorem encode_sized {desc : KdsTypeDesc} (hdesc : desc ∈ kds_type_table) {s : CString} {size : Nat}
    {value : List UInt8} (h : desc.encode s size = .ok value) :
    value.length ≤ size ∧ (desc.fixed_len = 0 → value = s.bytes) ∧
      (desc.fixed_len ≠ 0 → value.length = desc.fixed_len ∧ value.length ≤ 8) := by
  -- the four integer types and the two character types go alike
  have hint : ∀ {width : Nat} {min max : Int}, width ≤ 8 → width ≠ 0 →
      encode_int_generic s size width min max = .ok value → desc.fixed_len = width →
      value.length ≤ size ∧ (desc.fixed_len = 0 → value = s.bytes) ∧
        (desc.fixed_len ≠ 0 → value.length = desc.fixed_len ∧ value.length ≤ 8) := by
    intro width min max hw hne hrun hfix
    obtain ⟨hlen, hsize⟩ := encode_int_sized hrun
    exact ⟨by omega, fun h0 => by omega, fun _ => by omega⟩
  have hchars : encode_varchar s size = .ok value → desc.fixed_len = 0 →
      value.length ≤ size ∧ (desc.fixed_len = 0 → value = s.bytes) ∧
        (desc.fixed_len ≠ 0 → value.length = desc.fixed_len ∧ value.length ≤ 8) := by
    intro hrun hfix
    unfold encode_varchar at hrun
    dsimp only at hrun
    split_ifs at hrun with hlen
    cases hrun
    exact ⟨by omega, fun _ => rfl, fun h0 => absurd hfix h0⟩
  simp only [kds_type_table, List.mem_cons, List.not_mem_nil, or_false] at hdesc
  rcases hdesc with rfl | rfl | rfl | rfl | rfl | rfl | rfl | rfl | rfl
  · exact hint (by decide) (by decide) h rfl
  · exact hint (by decide) (by decide) h rfl
  · exact hint (by decide) (by decide) h rfl
  · exact hint (by decide) (by decide) h rfl
  -- float, decimal and bool
  · have hlen := encode_float_length h
    refine ⟨?_, fun h0 => absurd h0 (by decide), fun _ => ⟨hlen, by omega⟩⟩
    by_contra hlt
    dsimp only at h
    rw [encode_float, if_pos (by omega)] at h
    cases h
  · dsimp only at h
    have hsize : 8 ≤ size := by
      by_contra hlt
      rw [encode_decimal, if_pos (by omega)] at h
      cases h
    rw [encode_decimal_eq s hsize] at h
    split at h
    · cases h
    · cases h
      have hlen := length_intBytes 8 (wrap 64 (if (decimalSign s.bytes).1 then
        -(decimalUnits s.bytes : Int) else decimalUnits s.bytes))
      exact ⟨by omega, fun h0 => absurd h0 (by decide), fun _ => ⟨hlen, by omega⟩⟩
  · dsimp only at h
    unfold encode_bool at h
    split_ifs at h with hsize htrue
    · cases h
      exact ⟨by simp only [List.length_singleton]; omega, fun h0 => absurd h0 (by decide), fun _ => by decide⟩
    · cases h
      exact ⟨by simp only [List.length_singleton]; omega, fun h0 => absurd h0 (by decide), fun _ => by decide⟩
  · exact hchars h rfl
  · exact hchars h rfl

theorem writeAt_ok {buf bs : List UInt8} {off : Nat} (h : off + bs.length ≤ buf.length) :
    writeAt buf off bs = .ok (put buf off bs) := by
  rw [writeAt, if_pos (by omega), Int.toNat_natCast]

/-- **One column**: refused, or its bytes behind those of the columns before it. -/
theorem encodeColumns_step {col : KdsSysColumn} {cols : List KdsSysColumn} {val : KdsAstVal}
    {vals : List KdsAstVal} {off : Nat} {buf : List UInt8} (hoff : off ≤ buf.length) :
    (∃ e, encodeColumns (col :: cols) (val :: vals) off buf = .ok (.error e, buf)) ∨
      ∃ desc value size, kds_type_lookup_by_val col.type_val = some desc ∧
        desc.encode (valStr val) size = .ok value ∧
        off + (partBytes (desc, value)).length ≤ buf.length ∧
        encodeColumns (col :: cols) (val :: vals) off buf =
          encodeColumns cols vals (off + (partBytes (desc, value)).length)
            (put buf off (partBytes (desc, value))) := by
  obtain hlook | ⟨desc, hlook⟩ := Option.eq_none_or_eq_some (kds_type_lookup_by_val col.type_val)
  · exact Or.inl ⟨.EINVAL, by simp only [encodeColumns, hlook]⟩
  by_cases hfix : desc.fixed_len = 0
  · by_cases hroom : off + LEN_SIZE > buf.length
    · exact Or.inl ⟨.ENOSPC, by simp only [encodeColumns, hlook, if_pos hfix, if_pos hroom]⟩
    · cases henc : desc.encode (valStr val) (buf.length - off - LEN_SIZE) with
      | error e =>
        exact Or.inl ⟨e, by simp only [encodeColumns, hlook, if_pos hfix, if_neg hroom, henc]⟩
      | ok value =>
        obtain ⟨hsize, -, -⟩ := encode_sized (lookup_mem hlook) henc
        have hpart : partBytes (desc, value) = leBytes LEN_SIZE value.length ++ value :=
          if_pos hfix
        have hlen : (leBytes LEN_SIZE value.length).length = LEN_SIZE := length_leBytes _ _
        have hwrite : writeAt buf (off + LEN_SIZE : Nat) value =
            .ok (put buf (off + LEN_SIZE) value) := writeAt_ok (by omega)
        -- the number of the bytes is written last, in front of them
        have hprefix : writeAt (put buf (off + LEN_SIZE) value) off (leBytes LEN_SIZE value.length) =
            .ok (put buf off (leBytes LEN_SIZE value.length ++ value)) := by
          have hbefore := @put_before _ buf (leBytes LEN_SIZE value.length) value off
            (by rw [List.length_append, hlen]; omega)
          rw [hlen] at hbefore
          rw [writeAt_ok (by rw [length_put (by omega), hlen]; omega), hbefore]
        refine Or.inr ⟨desc, value, _, hlook, henc, ?_, ?_⟩
        · rw [hpart, List.length_append, hlen]
          omega
        · simp only [encodeColumns, hlook, if_pos hfix, if_neg hroom, henc, hwrite, hprefix, hpart,
            bind, Except.bind, List.length_append, hlen, Nat.add_assoc]
  · by_cases hroom : off + desc.fixed_len > buf.length
    · exact Or.inl ⟨.ENOSPC, by simp only [encodeColumns, hlook, if_neg hfix, if_pos hroom]⟩
    · cases henc : desc.encode (valStr val) (buf.length - off) with
      | error e =>
        exact Or.inl ⟨e, by simp only [encodeColumns, hlook, if_neg hfix, if_neg hroom, henc]⟩
      | ok value =>
        obtain ⟨hsize, -, -⟩ := encode_sized (lookup_mem hlook) henc
        have hpart : partBytes (desc, value) = value := if_neg hfix
        have hwrite : writeAt buf off value = .ok (put buf off value) := writeAt_ok (by omega)
        refine Or.inr ⟨desc, value, _, hlook, henc, ?_, ?_⟩
        · rw [hpart]
          omega
        · simp only [encodeColumns, hlook, if_neg hfix, if_neg hroom, henc, hwrite, hpart, bind,
            Except.bind]

/-- The loop over the columns never leaves the buffer. -/
theorem encodeColumns_ok (cols : List KdsSysColumn) :
    ∀ (vals : List KdsAstVal) (off : Nat) (buf : List UInt8), vals.length = cols.length →
      off ≤ buf.length → ∃ r buf', encodeColumns cols vals off buf = .ok (r, buf') ∧
        buf'.length = buf.length ∧ ∀ stop, r = .ok stop → ∃ parts, EncodedAs cols vals parts ∧
          stop = off + (rowBytes parts).length ∧ stop ≤ buf.length ∧
          buf' = put buf off (rowBytes parts) := by
  induction cols with
  | nil =>
    intro vals off buf hvals hoff
    obtain rfl := List.length_eq_zero_iff.mp hvals
    refine ⟨.ok off, buf, rfl, rfl, fun stop hstop => ⟨[], .nil, ?_⟩⟩
    obtain rfl := Except.ok.inj hstop
    exact ⟨rfl, hoff, (put_nil buf off).symm⟩
  | cons col cols ih =>
    intro vals off buf hvals hoff
    obtain ⟨val, vals, rfl⟩ := List.exists_cons_of_length_eq_add_one hvals
    rcases @encodeColumns_step col cols val vals off buf hoff with
      ⟨e, hrun⟩ | ⟨desc, value, size, hlook, henc, hroom, hrun⟩
    · exact ⟨.error e, buf, hrun, rfl, fun stop hstop => by cases hstop⟩
    · have hlen := length_put hroom
      obtain ⟨r, buf', hrun', hlen', hok⟩ := ih vals (off + (partBytes (desc, value)).length)
        (put buf off (partBytes (desc, value))) (by simpa using hvals) (by omega)
      refine ⟨r, buf', hrun.trans hrun', by omega, fun stop hstop => ?_⟩
      obtain ⟨parts, hparts, hstop, hle, rfl⟩ := hok stop hstop
      have hbytes : rowBytes ((desc, value) :: parts) = partBytes (desc, value) ++ rowBytes parts :=
        List.flatMap_cons
      refine ⟨(desc, value) :: parts, .cons hlook henc hparts, ?_, by omega, ?_⟩
      · rw [hbytes, List.length_append]
        omega
      · rw [hbytes, put_append hroom]

/-- What the encoders make of the values: at most 255 bytes where the type has
    no length of its own, and as many as the type says otherwise. -/
theorem EncodedAs.sized {cols : List KdsSysColumn} {vals : List KdsAstVal}
    {parts : List (KdsTypeDesc × List UInt8)} (h : EncodedAs cols vals parts) :
    parts.length = cols.length ∧ ∀ part ∈ parts, part.1 ∈ kds_type_table ∧ part.1.Sized part.2 ∧
      part.2.length ≤ 255 := by
  induction h with
  | nil => exact ⟨rfl, fun part hpart => absurd hpart List.not_mem_nil⟩
  | @cons col cols val vals desc value parts size hlook henc _ ih =>
    refine ⟨congrArg Nat.succ ih.1, fun part hpart => ?_⟩
    rcases List.mem_cons.mp hpart with rfl | hpart
    · have hdesc := lookup_mem hlook
      obtain ⟨-, hvar, hfixed⟩ := encode_sized hdesc henc
      by_cases hfix : desc.fixed_len = 0
      · have hlen := length_valStr val
        rw [← hvar hfix] at hlen
        exact ⟨hdesc, Or.inl hfix, hlen⟩
      · obtain ⟨hlen, hle⟩ := hfixed hfix
        exact ⟨hdesc, Or.inr hlen, hle.trans (by decide)⟩
    · exact ih.2 part hpart

theorem length_rowBytes {parts : List (KdsTypeDesc × List UInt8)}
    (h : ∀ part ∈ parts, part.2.length ≤ 255) : (rowBytes parts).length ≤ 257 * parts.length := by
  induction parts with
  | nil => exact Nat.zero_le _
  | cons part parts ih =>
    have hpart : (partBytes part).length ≤ 257 := by
      have hlen := h part List.mem_cons_self
      unfold partBytes
      split
      · rw [List.length_append, length_leBytes, LEN_SIZE]
        omega
      · omega
    have hrest := ih fun part' hmem => h part' (List.mem_cons_of_mem part hmem)
    rw [rowBytes, List.flatMap_cons, List.length_append, List.length_cons]
    rw [rowBytes] at hrest
    omega

/-- Where the decoder finds the value of a part. -/
theorem spanOf_partBytes {desc : KdsTypeDesc} {value front rest : List UInt8}
    (hsize : desc.Sized value) (hlen : value.length ≤ 255) :
    ∃ start, spanOf desc (front ++ partBytes (desc, value) ++ rest) front.length =
        some (start, value.length) ∧
      start + value.length = (front ++ partBytes (desc, value)).length ∧
      ((front ++ partBytes (desc, value) ++ rest).drop start).take value.length = value := by
  by_cases hfix : desc.fixed_len = 0
  · have hpart : partBytes (desc, value) = leBytes LEN_SIZE value.length ++ value := if_pos hfix
    have hprefix : (leBytes LEN_SIZE value.length).length = LEN_SIZE := length_leBytes _ _
    have hfront : (front ++ leBytes LEN_SIZE value.length).length = front.length + LEN_SIZE := by
      rw [List.length_append, hprefix]
    have hnum : leNat (leBytes LEN_SIZE value.length) = value.length := by
      rw [leNat_leBytes, LEN_SIZE]
      omega
    refine ⟨front.length + LEN_SIZE, ?_, ?_, ?_⟩
    · rw [spanOf, if_pos hfix, if_neg, hpart, List.append_assoc, List.drop_left' rfl,
        List.append_assoc, List.take_left' hprefix, hnum]
      rw [hpart]
      simp only [List.length_append, hprefix]
      omega
    · rw [hpart, List.length_append, List.length_append, hprefix]
      omega
    · rw [hpart, ← List.append_assoc, List.append_assoc, List.drop_left' hfront, List.take_left' rfl]
  · have hpart : partBytes (desc, value) = value := if_neg hfix
    refine ⟨front.length, ?_, ?_, ?_⟩
    · rw [spanOf, if_neg hfix, hsize.resolve_left hfix]
    · rw [hpart, List.length_append]
    · rw [hpart, List.append_assoc, List.drop_left' rfl, List.take_left' rfl]

/-- **Round trip**: behind the bytes of the columns before it, the rest of an
    encoded row has the texts of its values. -/
theorem rowTexts_rowBytes {cols : List KdsSysColumn} {vals : List KdsAstVal}
    {parts : List (KdsTypeDesc × List UInt8)} (h : EncodedAs cols vals parts) :
    ∀ front : List UInt8, rowTexts (front ++ rowBytes parts) cols front.length =
      some (parts.map fun part => showText part.1 part.2, (front ++ rowBytes parts).length) := by
  have hsized := h.sized.2
  induction h with
  | nil =>
    intro front
    simp [rowTexts, rowBytes]
  | @cons col cols val vals desc value parts size hlook henc _ ih =>
    intro front
    obtain ⟨-, hsize, hlen⟩ := hsized (desc, value) List.mem_cons_self
    have hbytes : front ++ rowBytes ((desc, value) :: parts) =
        front ++ partBytes (desc, value) ++ rowBytes parts := by
      rw [rowBytes, List.flatMap_cons, ← List.append_assoc]
      rfl
    obtain ⟨start, hspan, hstop, hvalue⟩ :=
      @spanOf_partBytes desc value front (rowBytes parts) hsize hlen
    have hrest := ih (fun part hpart => hsized part (List.mem_cons_of_mem _ hpart))
      (front ++ partBytes (desc, value))
    rw [hbytes, rowTexts_cons_of hlook hspan ?_ (hstop ▸ hrest), hvalue, List.map_cons]
    rw [hstop, @List.length_append _ _ (rowBytes parts)]
    exact Nat.le_add_right _ _

/-- `kds_dshell_encode_row_from_vals` on a value for each column. -/
theorem encode_row_ok {schema : KdsSchema} {vals : List KdsAstVal} {buf : List UInt8}
    (hvals : vals.length = schema.cols.length) :
    ∃ r buf', kds_dshell_encode_row_from_vals schema vals buf = .ok (r, buf') ∧
      buf'.length = buf.length ∧ ∀ out_len, r = .ok out_len → ∃ parts,
        EncodedAs schema.cols vals parts ∧ out_len.toNat = (rowBytes parts).length ∧
        out_len.toNat ≤ buf.length ∧ buf' = put buf 0 (rowBytes parts) := by
  obtain ⟨r, buf', hrun, hlen, hok⟩ := encodeColumns_ok schema.cols vals 0 buf hvals (Nat.zero_le _)
  unfold kds_dshell_encode_row_from_vals
  rw [hrun]
  cases r with
  | error e => exact ⟨.error e, buf', rfl, hlen, fun out_len h => by cases h⟩
  | ok stop =>
    refine ⟨.ok (UInt16.ofNat stop), buf', rfl, hlen, fun out_len h => ?_⟩
    obtain rfl := Except.ok.inj h
    obtain ⟨parts, hparts, hstop, hle, hbuf⟩ := hok stop rfl
    obtain ⟨hcount, hsized⟩ := hparts.sized
    have hbytes := length_rowBytes fun part hpart => (hsized part hpart).2.2
    have hcols := schema.fits
    -- `out_len` is 16 bits wide: 32 columns have at most 8224 bytes
    have hsmall : (UInt16.ofNat stop).toNat = stop := UInt16.toNat_ofNat_of_lt' (by
      change stop < 65536
      rw [hcount] at hbytes
      rw [KDS_SCHEMA_MAX_COLUMNS] at hcols
      omega)
    exact ⟨parts, hparts, by omega, by omega, hbuf⟩

/-- **Row codec**: what the encoder wrote, inside the buffer, the decoder reads
    back to its end and shows as the decoded values; on any bytes and any buffer
    the decoder stays inside both, and reports a row that ends too early. -/
theorem row_codec (schema : KdsSchema) :
    (∀ (vals : List KdsAstVal) (buf : List UInt8), vals.length = schema.cols.length →
      ∃ r buf', kds_dshell_encode_row_from_vals schema vals buf = .ok (r, buf') ∧
        buf'.length = buf.length ∧
        ∀ out_len, r = .ok out_len → out_len.toNat ≤ buf.length ∧
          buf'.drop out_len.toNat = buf.drop out_len.toNat ∧
          ∃ parts texts, EncodedAs schema.cols vals parts ∧
            List.Forall₂ (fun part text => DecodesTo part.1 part.2 text) parts texts ∧
            ∀ out : List UInt8, (rowText schema.cols texts).length < out.length →
              out.length < 2 ^ 31 →
              ∃ out', kds_dshell_decode_row schema.cols (buf'.take out_len.toNat) out =
                  .ok (.ok ((rowText schema.cols texts).length, out_len.toNat), out') ∧
                Shows out 0 (rowText schema.cols texts) out') ∧
    ∀ buf out : List UInt8, 1 ≤ out.length → out.length < 2 ^ 31 →
      ∃ r out', kds_dshell_decode_row schema.cols buf out = .ok (r, out') ∧
        out'.length = out.length ∧ (RunsOver buf schema.cols 0 → ∃ e, r = .error e) := by
  constructor
  · intro vals buf hvals
    obtain ⟨r, buf', hrun, hlen, hok⟩ := @encode_row_ok schema vals buf hvals
    refine ⟨r, buf', hrun, hlen, fun out_len hr => ?_⟩
    obtain ⟨parts, hparts, hout, hle, rfl⟩ := hok out_len hr
    obtain ⟨-, hsized⟩ := hparts.sized
    have hbytes : (put buf 0 (rowBytes parts)).take out_len.toNat = rowBytes parts := by
      have hblock := @take_drop_put _ buf (rowBytes parts) 0 (Nat.zero_le _)
      rwa [List.drop_zero, ← hout] at hblock
    have hrow : rowTexts (rowBytes parts) schema.cols 0 =
        some (parts.map fun part => showText part.1 part.2, out_len.toNat) := by
      rw [hout]
      exact rowTexts_rowBytes hparts []
    refine ⟨hle, drop_put (Nat.zero_le _) (by omega), parts,
      parts.map fun part => showText part.1 part.2, hparts, ?_, fun out hfits hsmall => ?_⟩
    · rw [List.forall₂_map_right_iff]
      exact List.forall₂_same.mpr fun part hpart =>
        decodesTo_showText (hsized part hpart).1 (hsized part hpart).2.1
    · rw [hbytes]
      exact decode_row_fits hrow (by omega) hfits
  · intro buf out hpos hsmall
    obtain ⟨r, out', hrun, hlen, -, hover, -⟩ := @decode_row_safe buf schema.cols out hpos (by omega)
    exact ⟨r, out', hrun, hlen, hover⟩

end encoding

theorem note_no_nul : (0 : UInt8) ∉ ascii "note" := by decide

/-- `seq int32, note varchar`. -/
def noteSchema : KdsSchema where
  cols := [⟨0, 0, 0, set_name ⟨ascii "seq", by decide⟩, KdsTypeVal.int32.code, 4, false⟩,
    ⟨0, 0, 1, set_name ⟨ascii "note", note_no_nul⟩, KdsTypeVal.varchar.code, 0, false⟩]
  fits := by decide

/-- The row `(7, 'ab')` has eight bytes, and is shown again; three bytes are no row. -/
theorem row_codec_note :
    (∃ buf' texts, kds_dshell_encode_row_from_vals noteSchema [.int 7, .str ⟨ascii "ab", by decide⟩]
        (List.replicate 16 0) = .ok (.ok 8, buf') ∧
      ∀ out : List UInt8, (rowText noteSchema.cols texts).length < out.length →
        out.length < 2 ^ 31 →
        ∃ out', kds_dshell_decode_row noteSchema.cols (buf'.take 8) out =
            .ok (.ok ((rowText noteSchema.cols texts).length, 8), out') ∧
          Shows out 0 (rowText noteSchema.cols texts) out') ∧
    ∃ e out', kds_dshell_decode_row noteSchema.cols [7, 0, 0] (List.replicate 16 0) =
      .ok (.error e, out') ∧ out'.length = 16 := by
  constructor
  · have heval : kds_dshell_encode_row_from_vals noteSchema [.int 7, .str ⟨ascii "ab", by decide⟩]
        (List.replicate 16 0) =
          .ok (.ok 8, [7, 0, 0, 0, 2, 0, 97, 98, 0, 0, 0, 0, 0, 0, 0, 0]) := by decide +kernel
    obtain ⟨r, buf', hrun, -, hok⟩ := (row_codec noteSchema).1 _ (List.replicate 16 0)
      (show [KdsAstVal.int 7, .str ⟨ascii "ab", by decide⟩].length = _ from rfl)
    obtain ⟨rfl, -⟩ := Prod.mk.inj (Except.ok.inj (hrun.symm.trans heval))
    obtain ⟨-, -, -, texts, -, -, hdecode⟩ := hok 8 rfl
    exact ⟨buf', texts, hrun, hdecode⟩
  · obtain ⟨r, out', hrun, hlen, hover⟩ := (row_codec noteSchema).2 [7, 0, 0] (List.replicate 16 0)
      (by decide) (by decide)
    obtain ⟨e, rfl⟩ := hover ⟨_, rfl, Or.inr ⟨0, 4, rfl, Or.inl (by decide)⟩⟩
    exact ⟨e, out', hrun, hlen⟩

end Kds
