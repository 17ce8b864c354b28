import Kds.Catalog.Relations
import Kds.Dshell.Row
import Kds.Exec.HeapRun

/-! # `SELECT`: the rows of a table as a response

    `dshell.c`: `kds_cmd_scan_table` walks the chain of a HEAP table and prints
    a line for each live tuple into the response, whose size is fixed. Where 16
    bytes or fewer are left it prints a marker instead of a row and ends.

    The walk takes a number of turns here, one for each page and one for the
    end of the chain.
-/

open Bytes Buffer Decimal

namespace Kds

/-! ## Section 1: The texts -/

abbrev DSHELL_RESP_MAX : Nat := 512

abbrev KDS_DSHELL_ROW_MAX : UInt16 := 256

/-- `"\\n  page=%llu [%u] xmin=%llu xmax=%llu "`. -/
def rowHead (page_id : PageId) (slot : Nat) (xmin xmax : UInt64) : List UInt8 :=
  ascii "\n  page=" ++ numeral page_id.toNat ++ ascii " [" ++ numeral slot ++ ascii "] xmin=" ++
    numeral xmin.toNat ++ ascii " xmax=" ++ numeral xmax.toNat ++ ascii " "

/-- `"...(truncated)\\n"`. -/
def truncatedText : List UInt8 := ascii "...(truncated)\n"

/-- `"\\n%u row(s) across %u page(s)\\n"`. -/
def countsText (rows pages : Nat) : List UInt8 :=
  ascii "\n" ++ numeral rows ++ ascii " row(s) across " ++ numeral pages ++ ascii " page(s)\n"

/-- `"\\nERR lookup_or_load(page %llu) failed: %ld\\n"`. -/
def loadErrText (page_id : PageId) (e : Errno) : List UInt8 :=
  ascii "\nERR lookup_or_load(page " ++ numeral page_id.toNat ++ ascii ") failed: " ++
    fmtLld (-e.code) ++ ascii "\n"

/-! ## Section 2: The functions -/

/-- The locals of `kds_cmd_scan_table` that the loops change, and the response. -/
structure ScanOut where
  out : List UInt8
  n : Int
  total_slots : UInt32
  truncated : Bool
  deriving DecidableEq, Repr

/-- `n += scnprintf(out + n, out_size - n, ...)`. -/
def ScanOut.print (s : ScanOut) (text : List UInt8) : Except Fault ScanOut := do
  let (n, out) ← printAt s.out s.n text
  .ok { s with out := out, n := n }

/-- `n += kds_dshell_decode_row(schema, row, len, out + n, out_size - n)`. -/
def ScanOut.decode (cols : List KdsSysColumn) (s : ScanOut) (row : List UInt8) :
    Except Fault ScanOut :=
  if 0 ≤ s.n ∧ s.n ≤ s.out.length then do
    let (r, rest) ← kds_dshell_decode_row cols row (s.out.drop s.n.toNat)
    let out := s.out.take s.n.toNat ++ rest
    match r with
    | .ok (decoded, _) => .ok { s with out := out, n := s.n + decoded }
    | .error e => .ok { s with out := out, n := s.n - e.code }
  else .error .outOfBounds

/-- A tuple that is not dead, and can be read. -/
def scanTuple (cols : List KdsSysColumn) (page_id : PageId) (slot : Nat) (xmin xmax : UInt64)
    (row : List UInt8) (s : ScanOut) : Except Fault ScanOut :=
  if ((s.n + 16) % 2 ^ 64).toNat ≥ s.out.length then do
    let s ← s.print truncatedText
    .ok { s with truncated := true }
  else do
    let s ← s.print (rowHead page_id slot xmin xmax)
    let s ← s.decode cols row
    .ok { s with total_slots := s.total_slots + 1 }

/-- The loop over the slots of a page. -/
def scanSlotsOf (cols : List KdsSysColumn) (page_id : PageId) (f : Frame) :
    List Nat → ScanOut → Except Fault ScanOut
  | [], s => .ok s
  | slot :: slots, s =>
      match heap_read_tuple f (UInt16.ofNat slot) true KDS_DSHELL_ROW_MAX with
      | .error .ENOENT => scanSlotsOf cols page_id f slots s
      | .error _ => .ok s
      | .ok (hdr, row_buf) => do
          let s ← scanTuple cols page_id slot hdr.xmin hdr.xmax (row_buf.take hdr.data_len.toNat) s
          if s.truncated then .ok s else scanSlotsOf cols page_id f slots s

/-- The loop over the pages, at most `turns` of them. The result is `page_index`. -/
def scanPages (cols : List KdsSysColumn) : (turns : Nat) → PageId → UInt32 → Pool → ScanOut →
    Option (Except Fault (Except Errno UInt32 × ScanOut × Pool))
  | 0, _, _, _, _ => none
  | turns + 1, current_page_id, page_index, p, s =>
      if current_page_id = 0 ∨ s.truncated then some (.ok (.ok page_index, s, p))
      else
        match kds_buf_lookup_or_load p current_page_id with
        | (.error e, p) => some do
            let s ← s.print (loadErrText current_page_id e)
            .ok (.error e, s, p)
        | (.ok frame, p) =>
            let f := p.frame frame
            match scanSlotsOf cols current_page_id f (heapSlots f) s with
            | .error fault => some (.error fault)
            | .ok s =>
                let next := if s.truncated then 0 else heap_get_next_page_id f
                scanPages cols turns next (page_index + 1) (kds_buf_unpin p frame) s

/-- What follows the loops: the counts, unless the marker was printed. -/
def finishScan : Except Fault (Except Errno UInt32 × ScanOut × Pool) →
    Except Fault (Except Errno Unit × List UInt8 × Pool)
  | .error fault => .error fault
  | .ok (.error e, s, p) => .ok (.error e, s.out, p)
  | .ok (.ok page_index, s, p) =>
      if s.truncated then .ok (.ok (), s.out, p)
      else do
        let s ← s.print (countsText s.total_slots.toNat page_index.toNat)
        .ok (.ok (), s.out, p)

/-- `scnprintf(out, out_size, ...)` of an error that is returned. -/
def refuse (out text : List UInt8) (e : Errno) (p : Pool) :
    Except Fault (Except Errno Unit × List UInt8 × Pool) := do
  let (_, out) ← printAt out 0 text
  .ok (.error e, out, p)

/-- `kds_cmd_scan_table`. -/
def kds_cmd_scan_table (p : Pool) (kzalloc_ok : Bool) (table_name : CString) (out : List UInt8)
    (turns : Nat) : Option (Except Fault (Except Errno Unit × List UInt8 × Pool)) :=
  match kds_catalog_find_table_oid_by_name p table_name with
  | (.error ret, p) =>
      some (refuse out (ascii "ERR table '" ++ table_name.bytes ++ ascii "' not found: " ++
        fmtLld (-ret.code) ++ ascii "\n") ret p)
  | (.ok oid, p) =>
      match kds_relation_open p kzalloc_ok oid with
      | (.error ret, p) =>
          some (refuse out (ascii "ERR relation_open failed: " ++ fmtLld (-ret.code) ++ ascii "\n")
            ret p)
      | (.ok rel, p) =>
          if rel.kind ≠ KDS_CLUSTERED_HEAP then
            some (refuse out (ascii "ERR '" ++ table_name.bytes ++ ascii "' is not heap-clustered\n")
              .EINVAL p)
          else
            match printAt out 0 (ascii "OK ") with
            | .error fault => some (.error fault)
            | .ok (n, out) =>
                (scanPages rel.schema turns rel.root_page_id 0 p ⟨out, n, 0, false⟩).map finishScan

/-! ## Section 3: What is listed -/

/-- A live tuple of a table, and where it is. -/
structure ListedTuple where
  page_id : PageId
  slot : Nat
  tuple : Tuple

/-- The live tuples of a page, in slot order. -/
def pageTuples (p : Pool) (id : PageId) : List ListedTuple :=
  (heapSlots (p.frame id)).filterMap fun slot =>
    (heapEntry (p.frame id).page slot).map fun t => ⟨id, slot, t⟩

/-- The live tuples of these pages, in chain and slot order. -/
def tableTuples (p : Pool) (pages : List PageId) : List ListedTuple := pages.flatMap (pageTuples p)

/-- The row, with all its columns. -/
def shownRow (cols : List KdsSysColumn) (row : List UInt8) : List UInt8 :=
  (rowTexts row cols 0).elim [] fun texts => rowText cols texts.1

/-- The entry of a tuple. -/
def ListedTuple.text (cols : List KdsSysColumn) (x : ListedTuple) : List UInt8 :=
  rowHead x.page_id x.slot x.tuple.xmin x.tuple.xmax ++ shownRow cols x.tuple.data

/-- The row can be read into the buffer for it, and has all its columns. -/
def Decodes (cols : List KdsSysColumn) (row : List UInt8) : Prop :=
  row.length ≤ KDS_DSHELL_ROW_MAX.toNat ∧ (rowTexts row cols 0).isSome

/-- A HEAP table: its chain ends, and its rows decode. -/
structure ScannedTable (p : Pool) (rel : RelationHandle) (pages : List PageId) : Prop where
  kind : rel.kind = KDS_CLUSTERED_HEAP
  head : rel.root_page_id = pages.headD 0
  link : ∀ pre id post, pages = pre ++ id :: post →
    heap_get_next_page_id (p.frame id) = post.headD 0
  nodup : pages.Nodup
  nonzero : 0 ∉ pages
  decodes : ∀ x ∈ tableTuples p pages, Decodes rel.schema x.tuple.data

/-- The response up to entry number `k`. -/
def screen (texts : List (List UInt8)) (k : Nat) : List UInt8 := ascii "OK " ++ (texts.take k).flatten

/-- The full listing of a table with these entries. -/
def listing (texts : List (List UInt8)) (pages : Nat) : List UInt8 :=
  screen texts texts.length ++ countsText texts.length pages

/-- `"...(truncated)"`. -/
def marker : List UInt8 := ascii "...(truncated)"

/-- The response is this text. -/
def Responds (out text : List UInt8) : Prop := text ++ [0] <+: out

/-- The full listing, or whole entries of it and the marker. -/
def FaithfulListing (texts : List (List UInt8)) (pages : Nat) (out : List UInt8) : Prop :=
  Responds out (listing texts pages) ∨
    ∃ k ≤ texts.length, Responds out (screen texts k ++ marker) ∨
      Responds out (screen texts k ++ marker ++ [10])

/-! ## Section 4: Entries and their places -/

/-- A dot is in none of the texts but the rows and the marker. -/
theorem dot_not_mem_numeral (n : Nat) : (46 : UInt8) ∉ numeral n := fun h =>
  absurd (numeral_isDigit n 46 h) (by decide)

theorem length_numeral_pos (n : Nat) : 0 < (numeral n).length :=
  List.length_pos_of_ne_nil (numeral_ne_nil n)

theorem length_rowHead (page_id : PageId) (slot : Nat) (xmin xmax : UInt64) :
    28 ≤ (rowHead page_id slot xmin xmax).length := by
  have h₁ := length_numeral_pos page_id.toNat
  have h₂ := length_numeral_pos slot
  have h₃ := length_numeral_pos xmin.toNat
  have h₄ := length_numeral_pos xmax.toNat
  unfold rowHead
  simp only [List.length_append, show (ascii "\n  page=").length = 8 from rfl,
    show (ascii " [").length = 2 from rfl, show (ascii "] xmin=").length = 7 from rfl,
    show (ascii " xmax=").length = 6 from rfl, show (ascii " ").length = 1 from rfl]
  omega

theorem dot_not_mem_rowHead (page_id : PageId) (slot : Nat) (xmin xmax : UInt64) :
    (46 : UInt8) ∉ rowHead page_id slot xmin xmax := by
  have h := dot_not_mem_numeral
  unfold rowHead
  simp only [List.mem_append, h, or_false, not_or]
  decide

theorem length_countsText (rows pages : Nat) : 13 ≤ (countsText rows pages).length := by
  unfold countsText
  simp only [List.length_append, show (ascii "\n").length = 1 from rfl,
    show (ascii " row(s) across ").length = 15 from rfl]
  omega

theorem dot_not_mem_countsText (rows pages : Nat) : (46 : UInt8) ∉ countsText rows pages := by
  have h := dot_not_mem_numeral
  unfold countsText
  simp only [List.mem_append, h, or_false, not_or]
  decide

theorem length_loadErrText (page_id : PageId) (e : Errno) : 13 ≤ (loadErrText page_id e).length := by
  unfold loadErrText
  simp only [List.length_append, show (ascii "\nERR lookup_or_load(page ").length = 25 from rfl]
  omega

theorem dot_not_mem_loadErrText (page_id : PageId) (e : Errno) :
    (46 : UInt8) ∉ loadErrText page_id e := by
  have hcode : (46 : UInt8) ∉ fmtLld (-e.code) := by cases e <;> decide
  have h := dot_not_mem_numeral
  unfold loadErrText
  simp only [List.mem_append, h, hcode, or_false, not_or]
  decide

/-- An entry: a line of its own, with a head. -/
structure EntryText (text : List UInt8) : Prop where
  long : 28 ≤ text.length
  newline : text[0]? = some 10
  indent : text[1]? = some 32

theorem ListedTuple.entryText (cols : List KdsSysColumn) (x : ListedTuple) :
    EntryText (x.text cols) := by
  have hlen := length_rowHead x.page_id x.slot x.tuple.xmin x.tuple.xmax
  obtain ⟨rest, hrest⟩ : ∃ rest, x.text cols = 10 :: 32 :: rest := ⟨_, rfl⟩
  refine ⟨?_, by rw [hrest]; rfl, by rw [hrest]; rfl⟩
  rw [ListedTuple.text, List.length_append]
  omega

section places

variable {texts : List (List UInt8)} {j k : Nat}

theorem screen_succ (hk : k < texts.length) : screen texts (k + 1) = screen texts k ++ texts[k] := by
  rw [screen, List.take_add_one, List.getElem?_eq_getElem hk, List.flatten_append, ← List.append_assoc]
  simp [screen]

theorem screen_zero (texts : List (List UInt8)) : screen texts 0 = ascii "OK " := by
  rw [screen, List.take_zero, List.flatten_nil, List.append_nil]

theorem screen_front (h : j ≤ k) : screen texts j <+: screen texts k := by
  unfold screen
  rw [List.prefix_append_right_inj]
  obtain ⟨rest, hrest⟩ := List.take_prefix_take_left (l := texts) h
  rw [← hrest, List.flatten_append]
  exact List.prefix_append _ _

theorem screen_of_front {front : List (List UInt8)} (h : front <+: texts) (hk : k ≤ front.length) :
    screen front k = screen texts k := by
  obtain ⟨rest, rfl⟩ := h
  rw [screen, screen, List.take_append_of_le_length hk]

theorem length_screen_lt (hall : ∀ text ∈ texts, EntryText text) (hjk : j < k) (hk : k ≤ texts.length) :
    (screen texts j).length + 28 ≤ (screen texts k).length := by
  have hle := (@screen_front texts _ _ (show j + 1 ≤ k from hjk)).length_le
  have hlong := (hall _ (List.getElem_mem (show j < texts.length by omega))).long
  rw [screen_succ (by omega), List.length_append] at hle
  omega

theorem le_length_screen (hall : ∀ text ∈ texts, EntryText text) (hk : k ≤ texts.length) :
    k ≤ (screen texts k).length := by
  induction k with
  | zero => exact Nat.zero_le _
  | succ k ih =>
    have hnext := length_screen_lt hall (show k < k + 1 by omega) hk
    have hle := ih (by omega)
    omega

/-- The first two characters of an entry, wherever it is followed by more. -/
theorem screen_get (hall : ∀ text ∈ texts, EntryText text) (hjk : j < k) (hk : k ≤ texts.length) :
    (screen texts k)[(screen texts j).length]? = some 10 ∧
      (screen texts k)[(screen texts j).length + 1]? = some 32 := by
  have hj : j < texts.length := by omega
  obtain ⟨rest, hrest⟩ := @screen_front texts _ _ (show j + 1 ≤ k from hjk)
  obtain ⟨hlong, hnew, hindent⟩ := hall _ (List.getElem_mem hj)
  rw [← hrest, screen_succ hj, List.append_assoc]
  constructor
  · rw [List.getElem?_append_right (Nat.le_refl _), Nat.sub_self,
      List.getElem?_append_left (by omega), hnew]
  · rw [List.getElem?_append_right (Nat.le_add_right _ _), Nat.add_sub_cancel_left,
      List.getElem?_append_left (by omega), hindent]

end places

/-! ## Section 5: One row -/

section row

variable {cols : List KdsSysColumn} {out row text : List UInt8} {n slot : Nat} {total : UInt32}
  {truncated : Bool} {page_id : PageId} {xmin xmax : UInt64}

theorem print_eq (text : List UInt8) (hlen : out.length = 512) (hn : n ≤ 511) :
    ScanOut.print ⟨out, n, total, truncated⟩ text =
      .ok ⟨put out n (text.take (min (511 - n) text.length) ++ [0]),
        (n + min (511 - n) text.length : Nat), total, truncated⟩ := by
  have hroom : out.length - n - 1 = 511 - n := by omega
  have hprint := @printAt_eq out n text (by omega) (by omega)
  rw [hroom] at hprint
  simp only [ScanOut.print, hprint, bind, Except.bind]

theorem scanTuple_marker (hlen : out.length = 512) (hlo : 496 ≤ n) (hn : n ≤ 511) :
    scanTuple cols page_id slot xmin xmax row ⟨out, n, total, truncated⟩ =
      .ok ⟨put out n (truncatedText.take (min (511 - n) 15) ++ [0]),
        (n + min (511 - n) 15 : Nat), total, true⟩ := by
  unfold scanTuple
  rw [if_pos (by rw [hlen]; dsimp only; omega), print_eq _ hlen hn]
  rfl

/-- The decoder at the end of the head of a row. -/
theorem decode_eq (hlen : out.length = 512) (hn : n ≤ 511) (hrow : Decodes cols row) :
    ∃ n' rest, ScanOut.decode cols ⟨out, n, total, truncated⟩ row =
        .ok ⟨out.take n ++ rest, n', total, truncated⟩ ∧
      rest.length = 512 - n ∧ (n : Int) - 28 ≤ n' ∧ n' ≤ 511 ∧
      (n + (shownRow cols row).length ≤ 511 → n' = (n + (shownRow cols row).length : Nat) ∧
        Shows (out.drop n) 0 (shownRow cols row) rest) := by
  have hdrop : (out.drop n).length = 512 - n := by rw [List.length_drop, hlen]
  have hcond : 0 ≤ (n : Int) ∧ (n : Int) ≤ out.length := by omega
  obtain ⟨⟨texts, stop⟩, htexts⟩ := Option.isSome_iff_exists.mp hrow.2
  have hshown : shownRow cols row = rowText cols texts := by rw [shownRow, htexts, Option.elim]
  obtain ⟨r, rest, hrun, hrest, herr, -, hok⟩ :=
    @decode_row_safe row cols (out.drop n) (by omega) (by omega)
  rw [hshown]
  cases r with
  | error e =>
    obtain hnone | rfl := herr e rfl
    · rw [htexts] at hnone
      cases hnone
    · refine ⟨n - 28, rest, ?_, by omega, by omega, by omega, fun hfits => ?_⟩
      · simp only [ScanOut.decode, if_pos hcond, Int.toNat_natCast, hrun, bind, Except.bind, Errno.code]
      · obtain ⟨rest', hrun', -⟩ := @decode_row_fits row cols stop texts (out.drop n) htexts
          (by omega) (by omega)
        rw [hrun] at hrun'
        simp at hrun'
  | ok res =>
    obtain ⟨m, stop'⟩ := res
    obtain ⟨hm, hlt, -⟩ := hok m stop' rfl
    refine ⟨n + m, rest, ?_, by omega, by omega, by omega, fun hfits => ?_⟩
    · simp only [ScanOut.decode, if_pos hcond, Int.toNat_natCast, hrun, bind, Except.bind]
    · obtain ⟨rest', hrun', hshows⟩ := @decode_row_fits row cols stop texts (out.drop n) htexts
        (by omega) (by omega)
      obtain ⟨hres, rfl⟩ := Prod.mk.inj (Except.ok.inj (hrun.symm.trans hrun'))
      obtain ⟨rfl, -⟩ := Prod.mk.inj (Except.ok.inj hres)
      exact ⟨(Nat.cast_add _ _).symm, hshows⟩

/-- **One row**: what is before it stays, its head follows as far as there is
    room, and the position goes back by 28 at most; it is printed whole if it fits. -/
theorem scanTuple_row (hlen : out.length = 512) (hn : n ≤ 495) (hrow : Decodes cols row)
    (htext : text = rowHead page_id slot xmin xmax ++ shownRow cols row) :
    ∃ (n' : Nat) (out' : List UInt8),
      scanTuple cols page_id slot xmin xmax row ⟨out, n, total, truncated⟩ =
        .ok ⟨out', n', total + 1, truncated⟩ ∧
      out'.length = 512 ∧ min n 483 ≤ n' ∧ n' ≤ 511 ∧
      out'.take (min (n + 28) 511) =
        (out.take n ++ rowHead page_id slot xmin xmax).take (min (n + 28) 511) ∧
      (n + text.length ≤ 511 → n' = n + text.length ∧ out' = put out n (text ++ [0])) := by
  have hhead := length_rowHead page_id slot xmin xmax
  have hprint := @print_eq out n total truncated (rowHead page_id slot xmin xmax) hlen (by omega)
  have hroom : ¬ (((n : Int) + 16) % 2 ^ 64).toNat ≥ out.length := by omega
  have hscan : scanTuple cols page_id slot xmin xmax row ⟨out, n, total, truncated⟩ =
      (ScanOut.print ⟨out, n, total, truncated⟩ (rowHead page_id slot xmin xmax)).bind fun s =>
        (s.decode cols row).bind fun s => .ok { s with total_slots := s.total_slots + 1 } :=
    if_neg hroom
  generalize rowHead page_id slot xmin xmax = head at hhead hprint hscan htext ⊢
  -- `k` bytes of the head are printed, and the decoder writes behind them
  generalize hk : min (511 - n) head.length = k at hprint
  have hshown : (head.take k).length = k := by
    rw [List.length_take]
    omega
  have hput : (put out n (head.take k ++ [0])).length = 512 := by
    rw [length_put, hlen]
    rw [List.length_append, hshown, List.length_singleton]
    omega
  have hfront : (put out n (head.take k ++ [0])).take (n + k) = out.take n ++ head.take k := by
    have h := @take_put_append _ out (head.take k) [0] n (by omega)
    rwa [hshown] at h
  have hlenfront : (out.take n ++ head.take k).length = n + k := by
    rw [List.length_append, List.length_take, hshown]
    omega
  obtain ⟨n', rest, hdec, hrest, hlo, hhi, hfits⟩ := @decode_eq cols _ row (n + k) total truncated
    hput (by omega) hrow
  rw [hfront] at hdec
  obtain ⟨n', rfl⟩ := Int.eq_ofNat_of_zero_le (show 0 ≤ n' by omega)
  refine ⟨n', out.take n ++ head.take k ++ rest, ?_, ?_, by omega, by omega, ?_, fun h => ?_⟩
  · rw [hscan, hprint, Except.bind, hdec]
    rfl
  · rw [List.length_append, hlenfront, hrest]
    omega
  -- whatever becomes of the columns, 28 bytes of the head stand
  · have htaken : out.take n ++ head.take k = (out.take n ++ head).take (n + k) := by
      have hn' : (out.take n).length = n := by
        rw [List.length_take]
        omega
      rw [List.take_append, hn', List.take_take, Nat.min_eq_right (Nat.le_add_right n k),
        Nat.add_sub_cancel_left]
    rw [List.take_append_of_le_length (by omega), htaken, List.take_take]
    congr 1
    omega
  · rw [htext, List.length_append] at h ⊢
    -- with room for the entry, head and columns are printed whole
    obtain rfl : k = head.length := by omega
    obtain ⟨hpos, hshows⟩ := hfits (by omega)
    refine ⟨by omega, ?_⟩
    rw [← hfront]
    unfold Shows at hshows
    rw [List.take_length] at hshows ⊢
    by_cases hnil : shownRow cols row = []
    · rw [hshows, if_pos hnil, hnil, List.append_nil, List.take_append_drop]
    · rw [hshows, if_neg hnil, put_drop, Nat.add_zero, put_text_text]
      rw [List.length_append]
      omega

end row

/-! ## Section 6: The rows of a table -/

/-- The tuples, one behind the other, until the marker is printed. -/
def scanTuples (cols : List KdsSysColumn) : List ListedTuple → ScanOut → Except Fault ScanOut
  | [], s => .ok s
  | x :: xs, s =>
      if s.truncated then .ok s
      else do
        let s ← scanTuple cols x.page_id x.slot x.tuple.xmin x.tuple.xmax x.tuple.data s
        scanTuples cols xs s

/-- Everything up to entry number `k` is printed. -/
def wholeScan (out : List UInt8) (texts : List (List UInt8)) (k : Nat) : ScanOut where
  out := put out 0 (screen texts k ++ [0])
  n := ((screen texts k).length : Nat)
  total_slots := UInt32.ofNat k
  truncated := false

theorem wholeScan_zero (out : List UInt8) (texts : List (List UInt8)) :
    wholeScan out texts 0 = ⟨put out 0 (ascii "OK " ++ [0]), 3, 0, false⟩ := by
  rw [wholeScan, screen_zero]
  rfl

theorem wholeScan_of_front {out : List UInt8} {texts front : List (List UInt8)} {k : Nat}
    (h : front <+: texts) (hk : k ≤ front.length) : wholeScan out front k = wholeScan out texts k := by
  rw [wholeScan, wholeScan, screen_of_front h hk]

/-- Entry number `k` did not fit: no marker stands where it or one before it starts. -/
structure Spoilt (texts : List (List UInt8)) (k : Nat) (s : ScanOut) : Prop where
  len : s.out.length = 512
  start : (screen texts k).length ≤ 495
  dots : ∀ j ≤ k, s.out[(screen texts j).length]? ≠ some 46
  pos : ∃ n : Nat, s.n = n ∧ n ≤ 511 ∧ min (screen texts k).length 483 ≤ n

section tuples

variable {cols : List KdsSysColumn} {out out' : List UInt8} {texts : List (List UInt8)} {k : Nat}
  {s : ScanOut} {xs ys : List ListedTuple}

theorem scanTuples_truncated (h : s.truncated = true) (xs : List ListedTuple) :
    scanTuples cols xs s = .ok s := by
  cases xs with
  | nil => rfl
  | cons x xs => rw [scanTuples, if_pos h]

theorem scanTuples_append (xs ys : List ListedTuple) (s : ScanOut) :
    scanTuples cols (xs ++ ys) s = (scanTuples cols xs s).bind (scanTuples cols ys) := by
  induction xs generalizing s with
  | nil => rfl
  | cons x xs ih =>
    rw [List.cons_append, scanTuples, scanTuples]
    by_cases h : s.truncated = true
    · rw [if_pos h, if_pos h, Except.bind, scanTuples_truncated h]
    · rw [if_neg h, if_neg h]
      cases scanTuple cols x.page_id x.slot x.tuple.xmin x.tuple.xmax x.tuple.data s with
      | error fault => rfl
      | ok s' => exact ih s'

/-- What is printed without a dot leaves no dot. -/
theorem no_dot_of_take {text : List UInt8} {n m Q : Nat}
    (htake : out'.take m = (out.take n ++ text).take m) (hn : n ≤ out.length) (hQ : Q < m)
    (hdot : (46 : UInt8) ∉ text) (hold : Q < n → out[Q]? ≠ some 46) : out'[Q]? ≠ some 46 := by
  have hlen : (out.take n).length = n := by rw [List.length_take, Nat.min_eq_left hn]
  have hget : out'[Q]? = (out.take n ++ text)[Q]? := by
    rw [← List.getElem?_take_of_lt hQ, htake, List.getElem?_take_of_lt hQ]
  rw [hget]
  by_cases hlt : Q < n
  · rw [List.getElem?_append_left (by omega), List.getElem?_take_of_lt hlt]
    exact hold hlt
  · rw [List.getElem?_append_right (by omega)]
    exact fun h => hdot (List.mem_of_getElem? h)

/-- Behind an entry that did not fit there is no way back to a marker. -/
theorem Spoilt.tuple (h : Spoilt texts k s) {x : ListedTuple} (hx : Decodes cols x.tuple.data) :
    ∃ s', scanTuple cols x.page_id x.slot x.tuple.xmin x.tuple.xmax x.tuple.data s = .ok s' ∧
      Spoilt texts k s' := by
  obtain ⟨out, n, total, truncated⟩ := s
  obtain ⟨hlen, hstart, hdots, n, rfl, hn, hlo⟩ := h
  dsimp only at hlen hdots
  have hle : ∀ j ≤ k, (screen texts j).length ≤ (screen texts k).length :=
    fun j hj => (screen_front hj).length_le
  by_cases hroom : n ≤ 495
  · obtain ⟨n', out', hrun, hlen', hlo', hhi', htake, -⟩ :=
      @scanTuple_row cols out x.tuple.data _ n x.slot total truncated x.page_id x.tuple.xmin
        x.tuple.xmax hlen hroom hx rfl
    refine ⟨_, hrun, hlen', hstart, fun j hj => ?_, n', rfl, hhi', by omega⟩
    have hj' := hle j hj
    exact no_dot_of_take htake (by omega) (by omega) (dot_not_mem_rowHead _ _ _ _)
      fun _ => hdots j hj
  · have hrun := @scanTuple_marker cols out x.tuple.data n x.slot total truncated x.page_id
      x.tuple.xmin x.tuple.xmax hlen (by omega) hn
    refine ⟨_, hrun, ?_, hstart, fun j hj => ?_, _, rfl, by omega, by omega⟩
    · dsimp only
      rw [length_put, hlen]
      simp only [List.length_append, List.length_take, List.length_singleton]
      omega
    · have hj' := hle j hj
      have htake := @take_put _ out (truncatedText.take (min (511 - n) 15) ++ [0]) n n
        (Nat.le_refl n) (by omega)
      dsimp only
      rw [← List.getElem?_take_of_lt (show (screen texts j).length < n by omega), htake,
        List.getElem?_take_of_lt (by omega)]
      exact hdots j hj

theorem Spoilt.tuples (h : Spoilt texts k s) (hxs : ∀ x ∈ xs, Decodes cols x.tuple.data) :
    ∃ s', scanTuples cols xs s = .ok s' ∧ Spoilt texts k s' := by
  induction xs generalizing s with
  | nil => exact ⟨s, rfl, h⟩
  | cons x xs ih =>
    by_cases htrunc : s.truncated = true
    · exact ⟨s, scanTuples_truncated htrunc _, h⟩
    · obtain ⟨s', hrun, hs'⟩ := h.tuple (hxs x List.mem_cons_self)
      obtain ⟨s'', hrun', hs''⟩ := ih hs' fun y hy => hxs y (List.mem_cons_of_mem x hy)
      refine ⟨s'', ?_, hs''⟩
      rw [scanTuples, if_neg htrunc, hrun]
      exact hrun'

/-- The whole entries are still there. -/
theorem take_wholeScan (hout : out.length = 512) (hk : (screen texts k).length ≤ 511) :
    (wholeScan out texts k).out.length = 512 ∧
      (wholeScan out texts k).out.take (screen texts k).length = screen texts k := by
  have hlen : 0 + (screen texts k ++ [0]).length ≤ out.length := by
    rw [List.length_append, List.length_singleton]
    omega
  refine ⟨(length_put hlen).trans hout, ?_⟩
  have h := @take_put_append _ out (screen texts k) [0] 0 (Nat.zero_le _)
  rwa [Nat.zero_add] at h

/-- What happens at entry number `k`, with the whole entries before it printed. -/
theorem wholeScan_tuple (hall : ∀ text ∈ texts, EntryText text) (hout : out.length = 512)
    (hk : k < texts.length) (hroom : (screen texts k).length ≤ 511) {x : ListedTuple}
    (hx : Decodes cols x.tuple.data) (htext : texts[k] = x.text cols) :
    ∃ s', scanTuple cols x.page_id x.slot x.tuple.xmin x.tuple.xmax x.tuple.data
        (wholeScan out texts k) = .ok s' ∧
      (((screen texts (k + 1)).length ≤ 511 ∧ s' = wholeScan out texts (k + 1)) ∨
        (496 ≤ (screen texts k).length ∧ s'.truncated = true ∧
          s'.out = put out 0 (screen texts k ++
            truncatedText.take (min (511 - (screen texts k).length) 15) ++ [0])) ∨
        (511 < (screen texts (k + 1)).length ∧ Spoilt texts k s')) := by
  obtain ⟨hlen, htake⟩ := take_wholeScan hout hroom
  have hsucc := screen_succ hk
  have hlong := (hall _ (List.getElem_mem hk)).long
  have hlensucc : (screen texts (k + 1)).length = (screen texts k).length + texts[k].length := by
    rw [hsucc, List.length_append]
  by_cases hlo : (screen texts k).length ≤ 495
  · obtain ⟨n', out', hrun, hlen', hlo', hhi', htake', hfits⟩ :=
      @scanTuple_row cols _ x.tuple.data texts[k] (screen texts k).length x.slot (UInt32.ofNat k)
        false x.page_id x.tuple.xmin x.tuple.xmax hlen hlo hx htext
    refine ⟨_, hrun, ?_⟩
    by_cases hend : (screen texts (k + 1)).length ≤ 511
    · -- the entry fits
      obtain ⟨rfl, rfl⟩ := hfits (by omega)
      refine Or.inl ⟨hend, ?_⟩
      have hput := @put_text_text out (screen texts k) texts[k] 0
        (by rw [List.length_append]; omega)
      rw [Nat.zero_add] at hput
      rw [wholeScan, wholeScan, hput, hsucc, List.length_append, UInt32.ofNat_add]
      rfl
    -- the entry is cut: no marker stands at the end of a whole entry
    · refine Or.inr (Or.inr ⟨by omega, hlen', hlo, fun j hj => ?_, n', rfl, hhi', by omega⟩)
      have hle := (@screen_front texts _ _ hj).length_le
      refine no_dot_of_take htake' (by omega) (by omega) (dot_not_mem_rowHead _ _ _ _) fun hlt => ?_
      have hjk : j < k := by
        by_contra hno
        obtain rfl : j = k := by omega
        omega
      rw [← List.getElem?_take_of_lt hlt, htake, (screen_get hall hjk (by omega)).1]
      decide
  -- less than 17 bytes are left, and the marker goes in their place
  · have hrun := @scanTuple_marker cols _ x.tuple.data (screen texts k).length x.slot
      (UInt32.ofNat k) false x.page_id x.tuple.xmin x.tuple.xmax hlen (by omega) hroom
    refine ⟨_, hrun, Or.inr (Or.inl ⟨by omega, rfl, ?_⟩)⟩
    have hput := @put_text_text out (screen texts k)
      (truncatedText.take (min (511 - (screen texts k).length) 15)) 0
      (by rw [List.length_append, List.length_take]; omega)
    rw [Nat.zero_add] at hput
    exact hput

/-- How the loop over the tuples ends: every entry is whole, or an entry starts
    where the marker is printed, or one did not fit. -/
theorem scanTuples_outcome (hout : out.length = 512)
    (hxs : ∀ x ∈ xs, Decodes cols x.tuple.data) (htexts : texts = xs.map (ListedTuple.text cols))
    (hk : k ≤ texts.length) (hroom : (screen texts k).length ≤ 511) :
    ∃ s', scanTuples cols (xs.drop k) (wholeScan out texts k) = .ok s' ∧
      (((screen texts texts.length).length ≤ 511 ∧ s' = wholeScan out texts texts.length) ∨
        (∃ j < texts.length, 496 ≤ (screen texts j).length ∧ (screen texts j).length ≤ 511 ∧
          s'.truncated = true ∧ s'.out = put out 0 (screen texts j ++
            truncatedText.take (min (511 - (screen texts j).length) 15) ++ [0])) ∨
        ∃ j < texts.length, 511 < (screen texts (j + 1)).length ∧ Spoilt texts j s') := by
  have hall : ∀ text ∈ texts, EntryText text := by
    rw [htexts]
    intro text htext
    obtain ⟨x, -, rfl⟩ := List.mem_map.mp htext
    exact x.entryText cols
  have hcount : texts.length = xs.length := by rw [htexts, List.length_map]
  induction hleft : texts.length - k generalizing k with
  | zero =>
    obtain rfl : k = texts.length := by omega
    rw [List.drop_of_length_le (by omega)]
    exact ⟨_, rfl, Or.inl ⟨hroom, rfl⟩⟩
  | succ left ih =>
    have hlt : k < xs.length := by omega
    have htext : texts.get ⟨k, by omega⟩ = xs[k].text cols := by simp [htexts]
    obtain ⟨s', hrun, hcases⟩ := wholeScan_tuple hall hout (by omega) hroom
      (hxs _ (List.getElem_mem hlt)) htext
    have hstep : scanTuples cols (xs.drop k) (wholeScan out texts k) =
        scanTuples cols (xs.drop (k + 1)) s' := by
      rw [List.drop_eq_getElem_cons hlt, scanTuples, wholeScan, if_neg Bool.false_ne_true,
        ← wholeScan, hrun]
      rfl
    rw [hstep]
    rcases hcases with ⟨hend, rfl⟩ | ⟨hlo, htrunc, hmark⟩ | ⟨hover, hspoilt⟩
    · exact ih (by omega) hend (by omega)
    · exact ⟨s', scanTuples_truncated htrunc _, Or.inr (Or.inl ⟨k, by omega, hlo, hroom, htrunc, hmark⟩)⟩
    · obtain ⟨s'', hrun', hs''⟩ := hspoilt.tuples fun x hx => hxs x (List.mem_of_mem_drop hx)
      exact ⟨s'', hrun', Or.inr (Or.inr ⟨k, by omega, hover, hs''⟩)⟩

end tuples

/-! ## Section 7: The pages -/

section pages

variable {cols : List KdsSysColumn} {p : Pool} {id : PageId} {s s' : ScanOut}

/-- The loop over the slots of a page is the loop over its live tuples. -/
theorem scanSlotsOf_eq (hdec : ∀ x ∈ pageTuples p id, Decodes cols x.tuple.data)
    (hs : s.truncated = false) :
    scanSlotsOf cols id (p.frame id) (heapSlots (p.frame id)) s =
      scanTuples cols (pageTuples p id) s := by
  have hslots : ∀ slot ∈ heapSlots (p.frame id), slot < (heap_nr_slots (p.frame id)).toNat :=
    fun slot h => List.mem_range.mp h
  unfold pageTuples at hdec ⊢
  generalize heapSlots (p.frame id) = slots at hdec hslots
  induction slots generalizing s with
  | nil => rfl
  | cons slot slots ih =>
    have hlt := (heap_nr_slots (p.frame id)).toNat_lt
    have hslot := hslots slot List.mem_cons_self
    have hidx : (UInt16.ofNat slot).toNat = slot := UInt16.toNat_ofNat_of_lt' (by
      change slot < 65536
      omega)
    have hrest := fun t (ht : t ∈ slots) => hslots t (List.mem_cons_of_mem slot ht)
    by_cases hlive : LiveSlot (p.frame id).page slot
    · have hentry : heapEntry (p.frame id).page slot = some (heapTuple (p.frame id).page slot) :=
        if_pos hlive
      rw [List.filterMap_cons_some (by rw [hentry]; rfl)] at hdec ⊢
      obtain ⟨hlen, -⟩ := hdec _ List.mem_cons_self
      -- the buffer has room for the row, and its front is the row
      have hread := @heap_read_live (p.frame id) (UInt16.ofNat slot) KDS_DSHELL_ROW_MAX
        (by rwa [hidx])
      rw [hidx] at hread
      simp only [heapTuple, Mem.length_read] at hlen
      rw [if_neg (by rw [gt_iff_lt, UInt16.lt_iff_toNat_lt]; omega)] at hread
      rw [scanSlotsOf, hread, scanTuples, hs, if_neg Bool.false_ne_true]
      dsimp only
      rw [Mem.take_read _ _ hlen]
      change Except.bind (scanTuple cols id slot (heapTuple (p.frame id).page slot).xmin
        (heapTuple (p.frame id).page slot).xmax (heapTuple (p.frame id).page slot).data s) _ = _
      dsimp only [bind]
      congr 1
      funext s'
      by_cases htrunc : s'.truncated = true
      · rw [if_pos htrunc, scanTuples_truncated htrunc]
      · rw [if_neg htrunc]
        exact ih (by simpa using htrunc) (fun x hx => hdec x (List.mem_cons_of_mem _ hx)) hrest
    · have hentry : heapEntry (p.frame id).page slot = none := if_neg hlive
      rw [List.filterMap_cons_none (by rw [hentry]; rfl)] at hdec ⊢
      rw [scanSlotsOf, heap_read_enoent_iff.mpr (by rwa [hidx])]
      exact ih hs hdec hrest

theorem tableTuples_congr {p' : Pool} (h : p'.frame = p.frame) (ids : List PageId) :
    tableTuples p' ids = tableTuples p ids := by
  unfold tableTuples pageTuples
  rw [h]

theorem tableTuples_cons (p : Pool) (id : PageId) (ids : List PageId) :
    tableTuples p (id :: ids) = pageTuples p id ++ tableTuples p ids := List.flatMap_cons

/-- How the loop over the pages ends: `front` are the pages it has been to. -/
inductive PagesEnd (cols : List KdsSysColumn) (p : Pool) (ids front : List PageId)
    (page_index : UInt32) (s' : ScanOut) :
    Except Fault (Except Errno UInt32 × ScanOut × Pool) → Prop
  | marked (idx : UInt32) (p' : Pool) : s'.truncated = true →
      PagesEnd cols p ids front page_index s' (.ok (.ok idx, s', p'))
  | ended (p' : Pool) : s'.truncated = false → front = ids →
      PagesEnd cols p ids front page_index s'
        (.ok (.ok (page_index + UInt32.ofNat ids.length), s', p'))
  | failed (id : PageId) (e : Errno) (p' : Pool) : s'.truncated = false → front ++ [id] <+: ids →
      ¬ p.LoadsAll (front ++ [id]) →
      PagesEnd cols p ids front page_index s'
        ((s'.print (loadErrText id e)).bind fun s'' => .ok (.error e, s'', p'))

theorem loadsAll_nil (p : Pool) : p.LoadsAll [] := fun _ hk => absurd hk (Nat.not_lt_zero _)

/-- The first page was loaded and walked, and the rest ends like this. -/
theorem PagesEnd.cons {p₂ : Pool} {ids front : List PageId} {page_index : UInt32}
    {run : Except Fault (Except Errno UInt32 × ScanOut × Pool)} (h : RowElsewhere p p₂ id)
    (hid : id ∉ ids) (hend : PagesEnd cols p₂ ids front (page_index + 1) s' run) :
    PagesEnd cols p (id :: ids) (id :: front) page_index s' run := by
  cases hend with
  | marked idx p' htrunc => exact .marked idx p' htrunc
  | ended p' htrunc hall =>
    have hindex : page_index + 1 + UInt32.ofNat ids.length =
        page_index + UInt32.ofNat (id :: ids).length := by
      rw [List.length_cons, UInt32.ofNat_add, UInt32.add_assoc, UInt32.add_comm 1]
      rfl
    rw [hindex]
    exact .ended p' htrunc (by rw [hall])
  | failed j e p' htrunc hpre hloads =>
    refine .failed j e p' htrunc (List.cons_prefix_cons.mpr ⟨rfl, hpre⟩) fun hall => hloads ?_
    exact ((h.loadsAll_cons fun hmem => hid (hpre.subset hmem)).mp hall).2

/-- **The pages**: the loop prints the tuples of the pages it can load, in order. -/
theorem scanPages_end (ids : List PageId) : ∀ (p : Pool) (page_index : UInt32) (s : ScanOut)
    (turns : Nat), ids.Nodup → 0 ∉ ids →
    (∀ pre id post, ids = pre ++ id :: post →
      heap_get_next_page_id (p.frame id) = post.headD 0) →
    (∀ x ∈ tableTuples p ids, Decodes cols x.tuple.data) →
    (∀ front, front <+: ids → ∃ s', scanTuples cols (tableTuples p front) s = .ok s') →
    ids.length < turns →
    ∃ front s' run, front <+: ids ∧ p.LoadsAll front ∧
      scanTuples cols (tableTuples p front) s = .ok s' ∧
      scanPages cols turns (ids.headD 0) page_index p s = some run ∧
      PagesEnd cols p ids front page_index s' run := by
  induction ids with
  -- the chain has come to its end
  | nil =>
    intro p page_index s turns _ _ _ _ _ hturns
    obtain ⟨turns, rfl⟩ := Nat.exists_eq_add_of_lt hturns
    have hrun : scanPages cols (0 + turns + 1) 0 page_index p s =
        some (.ok (.ok page_index, s, p)) := by rw [scanPages, if_pos (Or.inl rfl)]
    refine ⟨[], s, _, List.prefix_rfl, loadsAll_nil p, rfl, hrun, ?_⟩
    cases htrunc : s.truncated with
    | true => exact .marked _ _ htrunc
    | false =>
      have h := @PagesEnd.ended cols p [] [] page_index s p htrunc rfl
      rwa [List.length_nil, show UInt32.ofNat 0 = 0 from rfl, UInt32.add_zero] at h
  | cons id ids ih =>
    intro p page_index s turns hnd hz hlink hdec hfine hturns
    obtain ⟨turns, rfl⟩ := Nat.exists_eq_add_of_lt hturns
    have hid : id ≠ 0 := fun h => hz (h ▸ List.mem_cons_self)
    have hnot : id ∉ ids := (List.nodup_cons.mp hnd).1
    rw [List.headD_cons, scanPages]
    -- once the marker is printed no further page is loaded
    by_cases htrunc : s.truncated = true
    · rw [if_pos (Or.inr htrunc)]
      exact ⟨[], s, _, List.nil_prefix, loadsAll_nil p, rfl, rfl, .marked _ _ htrunc⟩
    · rw [if_neg (not_or.mpr ⟨hid, htrunc⟩)]
      cases hload : kds_buf_lookup_or_load p id with
      | mk ret p₁ =>
        obtain ⟨helse, hframeid, hret⟩ := lookup_or_load_iff hload
        have hframe := (lookup_or_load_loadOnly hload).1.frame
        rcases hret with ⟨e, rfl, hfail⟩ | ⟨rfl, hloads, -⟩
        · -- the page cannot be loaded
          refine ⟨[], s, _, List.nil_prefix, loadsAll_nil p, rfl, rfl,
            .failed id e p₁ (by simpa using htrunc) (List.cons_prefix_cons.mpr ⟨rfl, List.nil_prefix⟩) ?_⟩
          exact fun hall => hfail ((helse.loadsAll_cons List.not_mem_nil).mp hall).1
        · obtain ⟨s₁, hs₁⟩ := hfine [id] (List.cons_prefix_cons.mpr ⟨rfl, List.nil_prefix⟩)
          rw [tableTuples_cons, show tableTuples p [] = [] from rfl, List.append_nil] at hs₁
          rw [tableTuples_cons] at hdec
          have hslots := @scanSlotsOf_eq cols p id s
            (fun x hx => hdec x (List.mem_append_left _ hx)) (by simpa using htrunc)
          have hfront : ∀ front, scanTuples cols (tableTuples p (id :: front)) s =
              scanTuples cols (tableTuples p front) s₁ := by
            intro front
            rw [tableTuples_cons, scanTuples_append, hs₁]
            rfl
          have hunpin : RowElsewhere p (kds_buf_unpin p₁ id) id := ⟨helse.cached, helse.frame, helse.fail⟩
          dsimp only
          rw [hframe, hslots, hs₁]
          dsimp only
          by_cases htrunc₁ : s₁.truncated = true
          · -- the marker was printed on this page
            rw [if_pos htrunc₁]
            have hrun : scanPages cols ((id :: ids).length + turns) 0 (page_index + 1)
                (kds_buf_unpin p₁ id) s₁ =
                  some (.ok (.ok (page_index + 1), s₁, kds_buf_unpin p₁ id)) := by
              rw [List.length_cons, Nat.add_right_comm, scanPages, if_pos (Or.inl rfl)]
            refine ⟨[id], s₁, _, List.cons_prefix_cons.mpr ⟨rfl, List.nil_prefix⟩, ?_, ?_, hrun,
              .marked _ _ htrunc₁⟩
            · exact (hunpin.loadsAll_cons List.not_mem_nil).mpr ⟨hloads, loadsAll_nil _⟩
            · rw [hfront]
              rfl
          · rw [if_neg htrunc₁, hlink [] id ids rfl]
            -- the rest of the chain reads the same after this load
            have hcongr := @tableTuples_congr p (kds_buf_unpin p₁ id) hframe
            obtain ⟨front, s', run, hpre, hall, htuples, hrun, hend⟩ :=
              ih (kds_buf_unpin p₁ id) (page_index + 1) s₁ ((id :: ids).length + turns)
                (List.nodup_cons.mp hnd).2 (fun h => hz (List.mem_cons_of_mem id h))
                (fun pre j post hsplit => by
                  rw [frame_unpin, hframe]
                  exact hlink (id :: pre) j post (by rw [hsplit, List.cons_append]))
                (fun x hx => hdec x (List.mem_append_right _ (by rwa [hcongr] at hx)))
                (fun front hpre => by
                  obtain ⟨s', hs'⟩ := hfine (id :: front) (List.cons_prefix_cons.mpr ⟨rfl, hpre⟩)
                  rw [hfront] at hs'
                  exact ⟨s', by rw [hcongr]; exact hs'⟩)
                (by rw [List.length_cons]; omega)
            refine ⟨id :: front, s', run, List.cons_prefix_cons.mpr ⟨rfl, hpre⟩, ?_, ?_, hrun, ?_⟩
            · exact (hunpin.loadsAll_cons fun hmem => hnot (hpre.subset hmem)).mpr ⟨hloads, hall⟩
            · rw [hfront, ← hcongr]
              exact htuples
            · exact hend.cons hunpin hnot

end pages

/-! ## Section 8: Responses -/

section responses

variable {out out' text : List UInt8} {texts : List (List UInt8)} {j k pages : Nat}

theorem Responds.get (h : Responds out text) {Q : Nat} (hQ : Q < text.length) :
    out[Q]? = text[Q]? := by
  obtain ⟨rest, rfl⟩ := h
  rw [List.append_assoc, List.getElem?_append_left hQ]

theorem Responds.length_lt (h : Responds out text) : text.length < out.length := by
  have hle := List.IsPrefix.length_le h
  rw [List.length_append, List.length_singleton] at hle
  omega

theorem prefix_put (out text : List UInt8) : text <+: put out 0 text := by
  unfold put
  rw [List.take_zero, List.nil_append]
  exact List.prefix_append _ _

/-- Where a marker would have to be there is no dot. -/
theorem not_responds_marker (hdot : out[(screen texts j).length]? ≠ some 46) (rest : List UInt8) :
    ¬ Responds out (screen texts j ++ marker ++ rest) := by
  intro h
  refine hdot ?_
  rw [h.get (by simp only [List.length_append, show marker.length = 14 from rfl]; omega),
    List.append_assoc, List.getElem?_append_right (Nat.le_refl _), Nat.sub_self]
  rfl

/-- A response that differs from every one with the marker: only the full
    listing is faithful. -/
theorem faithful_iff_listing (hlen : out.length = 512)
    (hmark : ∀ j ≤ texts.length, (screen texts j).length ≤ 497 →
      out[(screen texts j).length]? ≠ some 46 ∨ ∃ Q < (screen texts j).length,
        out[Q]? ≠ (screen texts j)[Q]?) :
    FaithfulListing texts pages out ↔ Responds out (listing texts pages) := by
  have hnot : ∀ j ≤ texts.length, ∀ rest, ¬ Responds out (screen texts j ++ marker ++ rest) := by
    intro j hj rest h
    have hlt := h.length_lt
    simp only [List.length_append, show marker.length = 14 from rfl] at hlt
    rcases hmark j hj (by omega) with hdot | ⟨Q, hQ, hne⟩
    · exact not_responds_marker hdot rest h
    · refine hne ?_
      rw [h.get (by simp only [List.length_append]; omega), List.append_assoc,
        List.getElem?_append_left hQ]
  refine ⟨fun h => ?_, Or.inl⟩
  rcases h with h | ⟨j, hj, h | h⟩
  · exact h
  · exact absurd (by rwa [List.append_nil]) (hnot j hj [])
  · exact absurd h (hnot j hj [10])

theorem length_listing (hk : k ≤ texts.length) :
    (screen texts k).length + 13 ≤ (listing texts pages).length := by
  have hle := (@screen_front texts _ _ hk).length_le
  have hcounts := length_countsText texts.length pages
  rw [listing, List.length_append]
  omega

theorem Spoilt.of_prefix {front : List (List UInt8)} {s : ScanOut} (h : Spoilt front k s)
    (hpre : front <+: texts) (hk : k ≤ front.length) : Spoilt texts k s where
  len := h.len
  start := by
    rw [← screen_of_front hpre hk]
    exact h.start
  dots := by
    intro j hj
    rw [← screen_of_front hpre (hj.trans hk)]
    exact h.dots j hj
  pos := by
    rw [← screen_of_front hpre hk]
    exact h.pos

theorem Spoilt.print {s : ScanOut} (h : Spoilt texts k s) (hlong : 13 ≤ text.length)
    (hdot : (46 : UInt8) ∉ text) : ∃ s', s.print text = .ok s' ∧ Spoilt texts k s' := by
  obtain ⟨out, n, total, truncated⟩ := s
  obtain ⟨hlen, hstart, hdots, n, rfl, hn, hlo⟩ := h
  dsimp only at hlen hdots
  have hsize : (text.take (min (511 - n) text.length) ++ [0]).length =
      min (511 - n) text.length + 1 := by
    simp only [List.length_append, List.length_take, List.length_singleton]
    omega
  refine ⟨_, print_eq text hlen hn, ?_, hstart, fun j hj => ?_, _, rfl, by omega, by omega⟩
  · exact (length_put (by rw [hsize, hlen]; omega)).trans hlen
  · have hle := (@screen_front texts _ _ hj).length_le
    have htake := @take_put_append _ out (text.take (min (511 - n) text.length)) [0] n (by omega)
    have hshown : (text.take (min (511 - n) text.length)).length = min (511 - n) text.length := by
      rw [List.length_take]
      omega
    rw [hshown] at htake
    refine @no_dot_of_take out _ (text.take (min (511 - n) text.length)) n
      (n + min (511 - n) text.length) _ ?_ (by omega) (by omega)
      (fun hmem => hdot (List.mem_of_mem_take hmem)) fun _ => hdots j hj
    refine htake.trans (List.take_of_length_le ?_).symm
    rw [List.length_append, hshown, List.length_take]
    omega

theorem not_faithful_of_spoilt {s : ScanOut} (h : Spoilt texts k s) (hk : k < texts.length)
    (hover : 511 < (screen texts (k + 1)).length) : ¬ FaithfulListing texts pages s.out := by
  rw [faithful_iff_listing h.len fun j hj hroom => ?_]
  · intro hresp
    have hlt := hresp.length_lt
    have hlist := @length_listing texts (k + 1) pages hk
    have hlen := h.len
    omega
  · refine Or.inl (h.dots j ?_)
    by_contra hlt
    have hle := (@screen_front texts _ _ (show k + 1 ≤ j by omega)).length_le
    omega

/-- Where the marker is printed. -/
theorem marked_faithful_iff (hall : ∀ text ∈ texts, EntryText text) (hout : out.length = 512)
    (hj : j < texts.length) (hlo : 496 ≤ (screen texts j).length)
    (hhi : (screen texts j).length ≤ 511)
    (hmark : out' = put out 0 (screen texts j ++
      truncatedText.take (min (511 - (screen texts j).length) 15) ++ [0])) :
    FaithfulListing texts pages out' ↔
      (screen texts j).length = 496 ∨ (screen texts j).length = 497 := by
  have hpre := prefix_put out (screen texts j ++
    truncatedText.take (min (511 - (screen texts j).length) 15) ++ [0])
  rw [← hmark] at hpre
  have hlen : out'.length = 512 := by
    rw [hmark, length_put, hout]
    simp only [List.length_append, List.length_take, List.length_singleton]
    omega
  constructor
  -- a marker that is cut, or behind which a line is missing, is neither listing nor mark
  · intro hfaith
    by_contra hno
    have hnext := length_screen_lt hall (show j < j + 1 by omega) hj
    rw [faithful_iff_listing hlen fun i hi hroom => Or.inl ?_] at hfaith
    · have hlt := hfaith.length_lt
      have hlist := @length_listing texts (j + 1) pages hj
      omega
    · have hij : i < j := by
        by_contra hge
        have hle := (@screen_front texts _ _ (Nat.not_lt.mp hge)).length_le
        omega
      have hbefore := length_screen_lt hall hij (Nat.le_of_lt hj)
      rw [Responds.get hpre (by simp only [List.length_append]; omega),
        List.getElem?_append_left (by omega), (screen_get hall hij (Nat.le_of_lt hj)).1]
      decide
  -- 496 leaves room for the marker, 497 for all of it but the newline
  · intro hplace
    refine Or.inr ⟨j, Nat.le_of_lt hj, ?_⟩
    rcases hplace with hplace | hplace
    · rw [hplace] at hpre
      right
      rw [List.append_assoc (screen texts j)]
      exact hpre
    · rw [hplace] at hpre
      left
      exact hpre

/-- A text of one line behind the whole entries. -/
theorem wholeScan_print (hout : out.length = 512) (hk : (screen texts k).length ≤ 511) :
    ∃ s', (wholeScan out texts k).print text = .ok s' ∧ s'.out = put out 0 (screen texts k ++
      text.take (min (511 - (screen texts k).length) text.length) ++ [0]) := by
  obtain ⟨hlen, -⟩ := take_wholeScan hout hk
  refine ⟨_, print_eq text hlen hk, ?_⟩
  have hput := @put_text_text out (screen texts k)
    (text.take (min (511 - (screen texts k).length) text.length)) 0
    (by rw [List.length_append, List.length_take]; omega)
  rw [Nat.zero_add] at hput
  exact hput

/-- The counts of fewer pages are not the counts, however much of them is shown. -/
theorem countsText_take {rows n m : Nat} (hle : n ≤ pages)
    (h : (countsText rows n).take m = countsText rows pages) : n = pages ∧ (countsText rows n).length ≤ m := by
  have hmono := length_numeral_mono hle
  have hlen := congrArg List.length h
  have hsize : ∀ n, (countsText rows n).length = (ascii "\n").length + (numeral rows).length +
      (ascii " row(s) across ").length + (numeral n).length + (ascii " page(s)\n").length := by
    intro n
    simp only [countsText, List.length_append]
  rw [List.length_take] at hlen
  have hn := hsize n
  have hpages := hsize pages
  have hm : (countsText rows n).length ≤ m := by omega
  refine ⟨numeral_inj ?_, hm⟩
  rw [List.take_of_length_le hm] at h
  unfold countsText at h
  rw [List.append_cancel_right_eq, List.append_cancel_left_eq] at h
  exact h

/-- One line behind the whole entries, in a response. -/
theorem line_get (hk : (screen texts k).length ≤ 511)
    (hpre : screen texts k ++ text.take (min (511 - (screen texts k).length) text.length) ++ [0] <+: out)
    {i : Nat} (hi : i < text.length) (hfit : (screen texts k).length + i < 511) :
    out[(screen texts k).length + i]? = text[i]? := by
  have hget := @Responds.get _ _ hpre ((screen texts k).length + i)
    (by rw [List.length_append, List.length_take]; omega)
  rw [hget, List.getElem?_append_right (Nat.le_add_right _ _), Nat.add_sub_cancel_left,
    List.getElem?_take_of_lt (by omega)]

/-- Two texts before the first NUL of one response. -/
theorem responds_unique {front xs ys : List UInt8} (hx : Responds out (front ++ xs))
    (hy : Responds out (front ++ ys)) (hx₀ : (0 : UInt8) ∉ xs) (hy₀ : (0 : UInt8) ∉ ys) : xs = ys := by
  unfold Responds at hx hy
  rw [List.append_assoc] at hx hy
  have hne : ∀ as bs : List UInt8, (0 : UInt8) ∉ bs → as ++ [0] <+: bs ++ [0] → as = bs := by
    intro as bs hbs h
    rcases List.prefix_concat_iff.mp h with heq | hpre
    · exact List.append_cancel_right heq
    · exact absurd (hpre.subset (List.mem_append_right as List.mem_cons_self)) hbs
  rcases List.prefix_or_prefix_of_prefix hx hy with h | h
  · exact hne xs ys hy₀ ((List.prefix_append_right_inj front).mp h)
  · exact (hne ys xs hx₀ ((List.prefix_append_right_inj front).mp h)).symm

theorem nul_not_mem_numeral (n : Nat) : (0 : UInt8) ∉ numeral n := fun h =>
  absurd (numeral_isDigit n 0 h) (by decide)

theorem nul_not_mem_countsText (rows pages : Nat) : (0 : UInt8) ∉ countsText rows pages := by
  have h := nul_not_mem_numeral
  unfold countsText
  simp only [List.mem_append, h, or_false, not_or]
  decide

/-- Where the counts are printed, of as many pages as a `u32` holds. -/
theorem counts_faithful_iff {n : Nat} (hall : ∀ text ∈ texts, EntryText text)
    (hout : out.length = 512) (hn : n ≤ pages) (hroom : (screen texts texts.length).length ≤ 511)
    (hcounts : out' = put out 0 (screen texts texts.length ++ (countsText texts.length n).take
      (min (511 - (screen texts texts.length).length) (countsText texts.length n).length) ++ [0])) :
    FaithfulListing texts pages out' ↔ n = pages ∧ (listing texts pages).length < 512 := by
  generalize hm : min (511 - (screen texts texts.length).length)
    (countsText texts.length n).length = m at hcounts
  have hpre := prefix_put out (screen texts texts.length ++ (countsText texts.length n).take m ++ [0])
  rw [← hcounts] at hpre
  have hlen : out'.length = 512 := by
    rw [hcounts, length_put, hout]
    simp only [List.length_append, List.length_take, List.length_singleton]
    omega
  rw [faithful_iff_listing hlen fun j hj hplace => Or.inl ?_]
  · constructor
    · intro hresp
      have hlt := hresp.length_lt
      have htake := responds_unique hpre hresp
        (fun hmem => nul_not_mem_countsText _ _ (List.mem_of_mem_take hmem))
        (nul_not_mem_countsText _ _)
      exact ⟨(countsText_take hn htake).1, by omega⟩
    · rintro ⟨rfl, hfit⟩
      rw [listing, List.length_append] at hfit
      rw [List.take_of_length_le (by omega)] at hpre
      exact hpre
  · -- each of these places is the start of a line
    have hline := length_countsText texts.length n
    rcases Nat.lt_or_eq_of_le hj with hj | rfl
    · have hbefore := length_screen_lt hall hj (Nat.le_refl _)
      rw [Responds.get hpre (by simp only [List.length_append]; omega),
        List.getElem?_append_left (by omega), (screen_get hall hj (Nat.le_refl _)).1]
      decide
    · subst hm
      have hget := @line_get out' (countsText texts.length n) texts texts.length hroom hpre 0
        (by omega) (by omega)
      rw [Nat.add_zero] at hget
      rw [hget]
      exact fun h => dot_not_mem_countsText _ _ (List.mem_of_getElem? h)

/-- Where the error of a page is printed: no listing looks like this. -/
theorem loadErr_not_faithful {id : PageId} {e : Errno} (hall : ∀ text ∈ texts, EntryText text)
    (hout : out.length = 512) (hk : k ≤ texts.length) (hroom : (screen texts k).length ≤ 511)
    (herr : out' = put out 0 (screen texts k ++ (loadErrText id e).take
      (min (511 - (screen texts k).length) (loadErrText id e).length) ++ [0])) :
    ¬ FaithfulListing texts pages out' := by
  have hline := length_loadErrText id e
  have hpre := prefix_put out (screen texts k ++ (loadErrText id e).take
    (min (511 - (screen texts k).length) (loadErrText id e).length) ++ [0])
  rw [← herr] at hpre
  have hlen : out'.length = 512 := by
    rw [herr, length_put, hout]
    simp only [List.length_append, List.length_take, List.length_singleton]
    omega
  -- behind the newline there is an `E`, where an entry has a blank and the counts a digit
  have hletter : (screen texts k).length ≤ 509 → out'[(screen texts k).length + 1]? = some 69 := by
    intro h
    rw [@line_get out' (loadErrText id e) texts k hroom hpre 1 (by omega) (by omega)]
    rfl
  rw [faithful_iff_listing hlen fun j hj hplace => ?_]
  · intro hresp
    have hlt := hresp.length_lt
    have hlist := @length_listing texts k pages hk
    have hget := hresp.get (show (screen texts k).length + 1 < (listing texts pages).length by omega)
    rw [hletter (by omega), listing] at hget
    rcases Nat.lt_or_eq_of_le hk with hlt' | rfl
    · have hbefore := length_screen_lt hall hlt' (Nat.le_refl _)
      rw [List.getElem?_append_left (by omega), (screen_get hall hlt' (Nat.le_refl _)).2] at hget
      exact absurd hget (by decide)
    · rw [List.getElem?_append_right (Nat.le_add_right _ _), Nat.add_sub_cancel_left] at hget
      have hpos := length_numeral_pos texts.length
      have hdigit : (numeral texts.length)[0]? = some 69 := by
        rw [hget, countsText, show ascii "\n" = [10] from rfl]
        simp only [List.cons_append, List.nil_append, List.getElem?_cons_succ, List.append_assoc]
        rw [List.getElem?_append_left hpos]
      exact absurd (numeral_isDigit _ _ (List.mem_of_getElem? hdigit)) (by decide)
  · rcases Nat.lt_trichotomy j k with hjk | rfl | hkj
    · have hbefore := length_screen_lt hall hjk hk
      left
      rw [Responds.get hpre (by simp only [List.length_append]; omega),
        List.getElem?_append_left (by omega), (screen_get hall hjk hk).1]
      decide
    · left
      have hget := @line_get out' (loadErrText id e) texts j hroom hpre 0 (by omega) (by omega)
      rw [Nat.add_zero] at hget
      rw [hget]
      exact fun h => dot_not_mem_loadErrText _ _ (List.mem_of_getElem? h)
    · have hbefore := length_screen_lt hall hkj hj
      refine Or.inr ⟨(screen texts k).length + 1, by omega, ?_⟩
      rw [hletter (by omega), (screen_get hall hkj hj).2]
      decide

end responses

/-! ## Section 9: The response to `SELECT` -/

/-- The full listing is printed: all pages can be loaded, their number is a
    `u32`, and there is room. -/
structure ListingFits (p : Pool) (texts : List (List UInt8)) (pages : List PageId) : Prop where
  loads : p.LoadsAll pages
  count : pages.length < 2 ^ 32
  room : (listing texts pages.length).length < DSHELL_RESP_MAX

/-- The marker is printed whole: behind the head or whole entries the response
    is 496 or 497 bytes long, and there is another live tuple on a page that is
    reached. -/
def MarkerFits (p : Pool) (texts : List (List UInt8)) (pages : List PageId) : Prop :=
  ∃ front, front <+: pages ∧ p.LoadsAll front ∧ ∃ k < (tableTuples p front).length,
    (screen texts k).length = 496 ∨ (screen texts k).length = 497

section table

variable {p : Pool} {texts : List (List UInt8)} {pages front : List PageId} {k : Nat}
  {cols : List KdsSysColumn} {out : List UInt8} {s : ScanOut}
  {run : Except Fault (Except Errno UInt32 × ScanOut × Pool)}

theorem Pool.LoadsAll.of_prefix (h : p.LoadsAll pages) (hpre : front <+: pages) : p.LoadsAll front := by
  obtain ⟨rest, rfl⟩ := hpre
  intro k hk
  refine h k ?_
  rw [List.map_append, List.sum_append]
  omega

theorem tableTuples_front (h : front <+: pages) : tableTuples p front <+: tableTuples p pages := by
  obtain ⟨rest, rfl⟩ := h
  rw [tableTuples, tableTuples, List.flatMap_append]
  exact List.prefix_append _ _

theorem entryTexts (cols : List KdsSysColumn) (xs : List ListedTuple) :
    ∀ text ∈ xs.map (ListedTuple.text cols), EntryText text := by
  intro text htext
  obtain ⟨x, -, rfl⟩ := List.mem_map.mp htext
  exact x.entryText cols

/-- An entry that is too long to be printed, and starts before the place of a marker. -/
theorem not_fits_of_gap (hk : k < texts.length) (hstart : (screen texts k).length ≤ 495)
    (hover : 511 < (screen texts (k + 1)).length) :
    ¬ (ListingFits p texts pages ∨ MarkerFits p texts pages) := by
  rintro (h | ⟨front, -, -, j, -, hplace⟩)
  · have hroom : (listing texts pages.length).length < 512 := h.room
    have hlist := @length_listing texts (k + 1) pages.length hk
    omega
  · rcases Nat.lt_or_ge k j with hkj | hjk
    · have hle := (@screen_front texts _ _ (show k + 1 ≤ j from hkj)).length_le
      omega
    · have hle := (@screen_front texts _ _ hjk).length_le
      omega

/-- With every entry that is reached printed whole, no marker is. -/
theorem not_markerFits (hall : ∀ text ∈ texts, EntryText text) (hk : k ≤ texts.length)
    (hroom : (screen texts k).length ≤ 511)
    (hreach : ∀ front, front <+: pages → p.LoadsAll front → (tableTuples p front).length ≤ k) :
    ¬ MarkerFits p texts pages := by
  rintro ⟨front, hpre, hloads, j, hj, hplace⟩
  have hjk := hreach front hpre hloads
  have hbefore := length_screen_lt hall (show j < k by omega) hk
  omega

/-- A marker is printed, where entry number `k` would start. -/
theorem markerFits_iff (hall : ∀ text ∈ texts, EntryText text)
    (htexts : texts.length = (tableTuples p pages).length) (hpre : front <+: pages)
    (hloads : p.LoadsAll front) (hk : k < (tableTuples p front).length)
    (hlo : 496 ≤ (screen texts k).length) (hhi : (screen texts k).length ≤ 511) :
    MarkerFits p texts pages ↔ (screen texts k).length = 496 ∨ (screen texts k).length = 497 := by
  have hbound : ∀ front, front <+: pages → (tableTuples p front).length ≤ texts.length := by
    intro front hpre
    rw [htexts]
    exact (tableTuples_front hpre).length_le
  constructor
  · rintro ⟨front', hpre', -, j, hj, hplace⟩
    have hkle := hbound front hpre
    have hjle := hbound front' hpre'
    rcases Nat.lt_trichotomy j k with hjk | rfl | hkj
    · have hbefore := length_screen_lt hall hjk (by omega)
      omega
    · exact hplace
    · have hbefore := length_screen_lt hall hkj (by omega)
      omega
  · intro hplace
    exact ⟨front, hpre, hloads, k, hk, hplace⟩

/-- How the response ends, from how the loops do. -/
theorem finishScan_faithful_iff (hout : out.length = 512)
    (htexts : texts = (tableTuples p pages).map (ListedTuple.text cols))
    (hdec : ∀ x ∈ tableTuples p pages, Decodes cols x.tuple.data) (hpre : front <+: pages)
    (hloads : p.LoadsAll front)
    (htuples : scanTuples cols (tableTuples p front) (wholeScan out texts 0) = .ok s)
    (hend : PagesEnd cols p pages front 0 s run) :
    ∃ ret out' p', finishScan run = .ok (ret, out', p') ∧
      (FaithfulListing texts pages.length out' ↔
        ListingFits p texts pages ∨ MarkerFits p texts pages) := by
  have hall : ∀ text ∈ texts, EntryText text := by
    rw [htexts]
    exact entryTexts cols _
  have htuplespre := @tableTuples_front p pages front hpre
  have hcount : texts.length = (tableTuples p pages).length := by rw [htexts, List.length_map]
  have hfront : (tableTuples p front).map (ListedTuple.text cols) <+: texts := by
    rw [htexts]
    exact htuplespre.map _
  have hfrontlen := htuplespre.length_le
  have hlen : ((tableTuples p front).map (ListedTuple.text cols)).length =
      (tableTuples p front).length := List.length_map _
  -- three ways for the entries: whole, marked, or one of them cut
  obtain ⟨s', hrun, hcases⟩ := @scanTuples_outcome cols out
    ((tableTuples p front).map (ListedTuple.text cols)) 0 (tableTuples p front) hout
    (fun x hx => hdec x (htuplespre.subset hx)) rfl (Nat.zero_le _) (by rw [screen_zero]; decide)
  rw [List.drop_zero, wholeScan_zero, ← @wholeScan_zero out texts, htuples] at hrun
  obtain rfl : s = s' := Except.ok.inj hrun
  rw [hlen] at hcases
  rcases hcases with ⟨hroom, hwhole⟩ | ⟨k, hk, hlo, hhi, htrunc, hmark⟩ | ⟨k, hk, hover, hspoilt⟩
  · -- every entry that is reached is whole
    rw [screen_of_front hfront (by omega)] at hroom
    rw [wholeScan_of_front hfront (by omega)] at hwhole
    have hfew := le_length_screen hall (show (tableTuples p front).length ≤ texts.length by omega)
    cases hend with
    | marked idx p' htrunc =>
      rw [hwhole] at htrunc
      exact absurd htrunc Bool.false_ne_true
    | ended p' _ hsame =>
      subst hsame
      rw [← hcount] at hwhole hroom hfew
      -- the whole listing is there, and it fits or its counts are cut
      have hnomark := @not_markerFits p texts front texts.length hall (Nat.le_refl _) hroom
        fun front' hpre' _ => by
          rw [hcount]
          exact (tableTuples_front hpre').length_le
      obtain ⟨s'', hprint, hout''⟩ := @wholeScan_print out
        (countsText (UInt32.ofNat texts.length).toNat (0 + UInt32.ofNat front.length).toNat)
        texts texts.length hout hroom
      have hrows : (UInt32.ofNat texts.length).toNat = texts.length := by
        rw [UInt32.toNat_ofNat']
        omega
      have hindex : (0 + UInt32.ofNat front.length).toNat = front.length % 2 ^ 32 := by
        rw [UInt32.zero_add, UInt32.toNat_ofNat']
      refine ⟨.ok (), s''.out, p', ?_, ?_⟩
      · have hnot : ¬ (wholeScan out texts texts.length).truncated = true := Bool.false_ne_true
        rw [finishScan, hwhole, if_neg hnot]
        change Except.bind ((wholeScan out texts texts.length).print (countsText
          (UInt32.ofNat texts.length).toNat (0 + UInt32.ofNat front.length).toNat)) _ = _
        rw [hprint]
        rfl
      · rw [hrows, hindex] at hout''
        rw [counts_faithful_iff hall hout (Nat.mod_le _ _) hroom hout'', or_iff_left hnomark]
        constructor
        · rintro ⟨hcountfits, hfits⟩
          exact ⟨hloads, by omega, hfits⟩
        · rintro ⟨-, hcountfits, hfits⟩
          exact ⟨Nat.mod_eq_of_lt hcountfits, hfits⟩
    | failed id e p' _ hnext hnot =>
      -- behind a page that cannot be loaded there is neither a listing nor a marker
      have hnolist : ¬ ListingFits p texts pages := fun h => hnot (h.loads.of_prefix hnext)
      have hnomark := @not_markerFits p texts pages (tableTuples p front).length hall (by omega) hroom
        fun front' hpre' hloads' => by
          rcases List.prefix_or_prefix_of_prefix hnext hpre' with h | h
          · exact absurd (hloads'.of_prefix h) hnot
          · rcases List.prefix_concat_iff.mp h with rfl | h
            · exact absurd hloads' hnot
            · exact (tableTuples_front h).length_le
      obtain ⟨s'', hprint, hout''⟩ := @wholeScan_print out (loadErrText id e)
        texts (tableTuples p front).length hout hroom
      refine ⟨.error e, s''.out, p', ?_, ?_⟩
      · rw [hwhole, hprint]
        rfl
      · exact iff_of_false (loadErr_not_faithful hall hout (by omega) hroom hout'')
          (not_or.mpr ⟨hnolist, hnomark⟩)
  · -- the marker is printed at an entry
    rw [screen_of_front hfront (by omega)] at hlo hhi hmark
    cases hend with
    | marked idx p' _ =>
      refine ⟨.ok (), s.out, p', by rw [finishScan, if_pos htrunc], ?_⟩
      have hnolist : ¬ ListingFits p texts pages := by
        intro h
        have hroom : (listing texts pages.length).length < 512 := h.room
        have hlist := @length_listing texts (k + 1) pages.length (by omega)
        have hnext := length_screen_lt hall (show k < k + 1 by omega) (by omega)
        omega
      rw [marked_faithful_iff hall hout (by omega) hlo hhi hmark, or_iff_right hnolist,
        markerFits_iff hall hcount hpre hloads hk hlo hhi]
    | ended p' hnot => exact absurd (htrunc.symm.trans hnot) (by decide)
    | failed id e p' hnot => exact absurd (htrunc.symm.trans hnot) (by decide)
  · -- an entry is cut
    rw [screen_of_front hfront (by omega)] at hover
    -- what is printed behind a cut entry does not repair it
    have hsp := hspoilt.of_prefix hfront (by omega)
    have hnot := @not_fits_of_gap p texts pages k (by omega) hsp.start hover
    cases hend with
    | marked idx p' htrunc =>
      refine ⟨.ok (), s.out, p', by rw [finishScan, if_pos htrunc], ?_⟩
      exact iff_of_false (not_faithful_of_spoilt hsp (by omega) hover) hnot
    | ended p' htrunc _ =>
      obtain ⟨s', hprint, hsp'⟩ := hsp.print (length_countsText s.total_slots.toNat
        (0 + UInt32.ofNat pages.length).toNat) (dot_not_mem_countsText _ _)
      refine ⟨.ok (), s'.out, p', ?_, iff_of_false (not_faithful_of_spoilt hsp' (by omega) hover) hnot⟩
      rw [finishScan, htrunc, if_neg Bool.false_ne_true]
      change Except.bind (s.print (countsText s.total_slots.toNat
        (0 + UInt32.ofNat pages.length).toNat)) _ = _
      rw [hprint]
      rfl
    | failed id e p' htrunc _ _ =>
      obtain ⟨s', hprint, hsp'⟩ := hsp.print (length_loadErrText id e) (dot_not_mem_loadErrText _ _)
      refine ⟨.error e, s'.out, p', ?_, iff_of_false (not_faithful_of_spoilt hsp' (by omega) hover) hnot⟩
      rw [hprint]
      rfl

/-- The command on a table that is found and opened: its loops end, and then the response does. -/
theorem scan_table_run {p p₁ p₂ : Pool} {table_name : CString} {kzalloc_ok : Bool} {oid : UInt64}
    {rel : RelationHandle} {turns : Nat} (hout : out.length = 512)
    (hfind : kds_catalog_find_table_oid_by_name p table_name = (.ok oid, p₁))
    (hopen : kds_relation_open p₁ kzalloc_ok oid = (.ok rel, p₂))
    (htable : ScannedTable p₂ rel pages) (hturns : pages.length < turns)
    (texts : List (List UInt8)) :
    ∃ front s run, front <+: pages ∧ p₂.LoadsAll front ∧
      scanTuples rel.schema (tableTuples p₂ front) (wholeScan out texts 0) = .ok s ∧
      PagesEnd rel.schema p₂ pages front 0 s run ∧
      kds_cmd_scan_table p kzalloc_ok table_name out turns = some (finishScan run) := by
  have hstart : printAt out 0 (ascii "OK ") = .ok (3, put out 0 (ascii "OK " ++ [0])) := by
    have h := @printAt_eq out 0 (ascii "OK ") (by omega) (by omega)
    rw [hout] at h
    exact h
  -- the loop over the tuples never faults, however many pages are reached
  have hfine : ∀ front, front <+: pages →
      ∃ s, scanTuples rel.schema (tableTuples p₂ front) (wholeScan out texts 0) = .ok s := by
    intro front hfront
    have hpre := @tableTuples_front p₂ pages front hfront
    obtain ⟨s, hrun, -⟩ := @scanTuples_outcome rel.schema out _ 0 (tableTuples p₂ front) hout
      (fun x hx => htable.decodes x (hpre.subset hx)) rfl (Nat.zero_le _)
      (by rw [screen_zero]; decide)
    rw [List.drop_zero, wholeScan_zero, ← @wholeScan_zero out texts] at hrun
    exact ⟨s, hrun⟩
  obtain ⟨front, s, run, hpre, hloads, htuples, hrun, hend⟩ :=
    @scanPages_end rel.schema pages p₂ 0 (wholeScan out texts 0) turns htable.nodup htable.nonzero
      htable.link htable.decodes hfine hturns
  refine ⟨front, s, run, hpre, hloads, htuples, hend, ?_⟩
  rw [kds_cmd_scan_table, hfind]
  dsimp only
  rw [hopen]
  dsimp only
  rw [if_neg (not_not.mpr htable.kind), hstart]
  dsimp only
  rw [← @wholeScan_zero out texts, htable.head, hrun, Option.map_some]

/-- **`SELECT`**: the response is the full listing, or whole entries and the
    marker, exactly if one of these fits. -/
theorem scan_table_faithful_iff {p p₁ p₂ : Pool} {table_name : CString} {kzalloc_ok : Bool}
    {oid : UInt64} {rel : RelationHandle} {turns : Nat} (hout : out.length = DSHELL_RESP_MAX)
    (hfind : kds_catalog_find_table_oid_by_name p table_name = (.ok oid, p₁))
    (hopen : kds_relation_open p₁ kzalloc_ok oid = (.ok rel, p₂))
    (htable : ScannedTable p₂ rel pages) (hturns : pages.length < turns)
    (htexts : texts = (tableTuples p₂ pages).map (ListedTuple.text rel.schema)) :
    ∃ ret out' p', kds_cmd_scan_table p kzalloc_ok table_name out turns =
        some (.ok (ret, out', p')) ∧
      (FaithfulListing texts pages.length out' ↔
        ListingFits p₂ texts pages ∨ MarkerFits p₂ texts pages) := by
  obtain ⟨front, s, run, hpre, hloads, htuples, hend, hrun⟩ :=
    scan_table_run hout hfind hopen htable hturns texts
  obtain ⟨ret, out', p', hfinish, hiff⟩ := finishScan_faithful_iff hout htexts htable.decodes hpre
    hloads htuples hend
  exact ⟨ret, out', p', by rw [hrun, hfinish], hiff⟩

end table

/-! ### A table of notes -/

theorem id_no_nul : (0 : UInt8) ∉ ascii "id" := by decide
theorem body_no_nul : (0 : UInt8) ∉ ascii "body" := by decide
theorem notes_no_nul : (0 : UInt8) ∉ ascii "notes" := by decide

/-- `id int64, body varchar`. -/
def notesSchema : KdsSchema where
  cols :=
    [⟨0, 0, 0, set_name ⟨ascii "id", id_no_nul⟩, KdsTypeVal.int64.code, 0, true⟩,
     ⟨0, 0, 1, set_name ⟨ascii "body", body_no_nul⟩, KdsTypeVal.varchar.code, 0, true⟩]
  fits := by decide

def notesName : CString := ⟨ascii "notes", notes_no_nul⟩

/-- `CREATE TABLE notes (id int64, body varchar) HEAP`. -/
def notesTable : Pool :=
  (catalogStep userBoot (.createTable 1 notesName notesSchema KDS_CLUSTERED_HEAP)).c.env.pool

/-- The row of a note: the key, the length of the body and `n` letters. -/
def noteRow (id n : UInt8) : List UInt8 :=
  id :: List.replicate 7 0 ++ n :: 0 :: List.replicate n.toNat 97

/-- An `INSERT` of a note of `n` letters, on the root page. -/
def addNote (p : Pool) (id n : UInt8) : Pool :=
  p.setFrame 100 (heap_insert_tuple (p.frame 100) (some (bufferOf (noteRow id n)))
    (n.toUInt16 + 10) 1).2

/-- Two notes. -/
def shortNotes : Pool := addNote (addNote notesTable 1 5) 2 7

/-- Three notes of 190 letters each. Such an `INSERT` is a line of less than 256 bytes. -/
def longNotes : Pool := addNote (addNote (addNote notesTable 1 190) 2 190) 3 190

def foundNotes (p : Pool) : Pool := (kds_catalog_find_table_oid_by_name p notesName).2

def openedNotes (p : Pool) : Pool := (kds_relation_open (foundNotes p) true 4001).2

def notesRel (p : Pool) : RelationHandle :=
  match (kds_relation_open (foundNotes p) true 4001).1 with
  | .ok rel => rel
  | .error _ => ⟨0, 0, KDS_CLUSTERED_BTREE, 0, []⟩

def noteTexts (p : Pool) : List (List UInt8) :=
  (tableTuples (openedNotes p) [100]).map (ListedTuple.text (notesRel p).schema)

/-- The table `notes` is in place, on one page. -/
def NotesOpen (p : Pool) : Prop :=
  (kds_catalog_find_table_oid_by_name p notesName).1 = .ok 4001 ∧
    (notesRel p).kind = KDS_CLUSTERED_HEAP ∧ (notesRel p).root_page_id = 100 ∧
    heap_get_next_page_id ((openedNotes p).frame 100) = 0 ∧
    ∀ x ∈ tableTuples (openedNotes p) [100],
      x.tuple.data.length ≤ 256 ∧ (rowTexts x.tuple.data (notesRel p).schema 0).isSome

theorem NotesOpen.scanned {p : Pool} (h : NotesOpen p) :
    kds_catalog_find_table_oid_by_name p notesName = (.ok 4001, foundNotes p) ∧
      kds_relation_open (foundNotes p) true 4001 = (.ok (notesRel p), openedNotes p) ∧
      ScannedTable (openedNotes p) (notesRel p) [100] := by
  obtain ⟨hfind, hkind, hroot, hnext, hdec⟩ := h
  refine ⟨Prod.ext hfind rfl, Prod.ext ?_ rfl, ⟨hkind, hroot, ?_, List.nodup_singleton 100, by decide, hdec⟩⟩
  · dsimp only
    unfold notesRel at hkind ⊢
    cases hopen : (kds_relation_open (foundNotes p) true 4001).1 with
    | error e =>
      rw [hopen] at hkind
      exact absurd hkind (show KDS_CLUSTERED_BTREE ≠ KDS_CLUSTERED_HEAP by decide)
    | ok rel => rfl
  · intro pre id post hsplit
    cases pre with
    | nil =>
      obtain ⟨rfl, rfl⟩ := List.cons.inj hsplit
      exact hnext
    | cons head rest =>
      have hlen := congrArg List.length hsplit
      simp at hlen

/-- Two short notes are listed. -/
theorem scan_table_faithful_notes : ∃ ret out' p',
    kds_cmd_scan_table shortNotes true notesName (List.replicate 512 0) 2 =
        some (.ok (ret, out', p')) ∧
      FaithfulListing (noteTexts shortNotes) 1 out' := by
  have hopen : NotesOpen shortNotes := by
    unfold NotesOpen
    decide +kernel
  obtain ⟨hfind, hopened, htable⟩ := hopen.scanned
  obtain ⟨ret, out', p', hrun, hiff⟩ := scan_table_faithful_iff List.length_replicate hfind hopened
    htable (show [100].length < 2 by decide) rfl
  refine ⟨ret, out', p', hrun, hiff.mpr (Or.inl ⟨?_, by decide, ?_⟩)⟩
  · have hload : ([100].map (loadCount (openedNotes shortNotes))).sum = 0 := by
      decide +kernel
    intro k hk
    omega
  · decide +kernel

/-- Of three notes of 190 letters the third does not fit, and is neither listed
    nor replaced by the marker. -/
theorem scan_table_drops_note : ∃ ret out' p',
    kds_catalog_find_table_oid_by_name longNotes notesName = (.ok 4001, foundNotes longNotes) ∧
      kds_relation_open (foundNotes longNotes) true 4001 =
        (.ok (notesRel longNotes), openedNotes longNotes) ∧
      ScannedTable (openedNotes longNotes) (notesRel longNotes) [100] ∧
      (noteTexts longNotes).length = 3 ∧
      kds_cmd_scan_table longNotes true notesName (List.replicate DSHELL_RESP_MAX 0) 2 =
        some (.ok (ret, out', p')) ∧
      ¬ FaithfulListing (noteTexts longNotes) 1 out' := by
  have hopen : NotesOpen longNotes := by
    unfold NotesOpen
    decide +kernel
  obtain ⟨hfind, hopened, htable⟩ := hopen.scanned
  obtain ⟨front, s, run, hpre, hloads, htuples, hend, hrun⟩ := scan_table_run
    List.length_replicate hfind hopened htable (show [100].length < 2 by decide) (noteTexts longNotes)
  obtain ⟨ret, out', p', hfinish, hiff⟩ := finishScan_faithful_iff List.length_replicate rfl
    htable.decodes hpre hloads htuples hend
  have hlens : (noteTexts longNotes).length = 3 ∧
      (screen (noteTexts longNotes) 2).length ≤ 495 ∧
      511 < (screen (noteTexts longNotes) 3).length := by
    decide +kernel
  refine ⟨ret, out', p', hfind, hopened, htable, hlens.1, by rw [hrun, hfinish], fun h => ?_⟩
  exact not_fits_of_gap (by rw [hlens.1]; decide) hlens.2.1 hlens.2.2 (hiff.mp h)

end Kds
